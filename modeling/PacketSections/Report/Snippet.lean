import PacketSections.Report.Canvas
import PacketSections.Report.SourceLines
import PacketSections.Report.Window

/-!
Diagnostics with the piece of source text that they are about.

```text
error: MESSAGE
 --> top.p4:3:24
  |
3 |         packet.extract(hdr.vlan.next);
  |                        ^^^^^^^^^^^^^ MESSAGE
  |
help: HINT
```

A range over several lines is drawn as a bracket to the left of the text; of long ranges only the
beginning and the end are shown.
-/

namespace PacketSections.Report

/-- What is shown: a source text, where it comes from, and a range of bytes in it. -/
structure Snippet where
  source : List Char
  path : Option String
  start : Nat
  stop : Nat
  severity : Severity
  message : String

/-- The columns that everything is placed by. -/
structure Frame where
  /-- The width of the line numbers. -/
  gutter : Nat
  /-- Whether there is a bracket between the line numbers and the text. -/
  bracket : Bool
  severity : Severity
  window : Window

namespace Frame

/-- Where the bracket goes, if there is one. -/
def markColumn (f : Frame) : Nat := f.gutter + 3

/-- Where the text begins. -/
def textColumn (f : Frame) : Nat := f.markColumn + (if f.bracket then 2 else 0)

def mark (f : Frame) : Style := .mark f.severity

/-- The line between the numbers and the text. -/
def bar (f : Frame) (row : Row) : Row := row.put (f.gutter + 1) .gutter ['|']

/-- The stroke of the bracket. -/
def stroke (f : Frame) (row : Row) : Row := row.put f.markColumn f.mark ['|']

end Frame

/-- What stands for the part of a line that is left out. -/
def gap : List Char := ['.', '.', '.']

/-- The row of a source line, and the number of columns that are cut off at its left. -/
def textRow (f : Frame) (line : SourceLine) : Row × Nat :=
  let text := Text.shown line.text
  let length := Text.width text
  let left := f.window.leftOf length
  let right := f.window.rightOf length
  let (dropped, rest) := dropColumns left 0 text
  let code := takeColumns (right - left) rest
  let left := max left dropped
  let hidden := if f.window.left = 0 then [] else coverColumns gap.length code
  let row : Row := if f.window.left = 0 then [] else Row.put [] f.textColumn .gutter gap
  let row := row.put (f.textColumn + Text.width hidden) .plain (code.drop hidden.length)
  let row :=
    if right < length then
      let tail := coverColumns gap.length code.reverse
      row.put (f.textColumn + Text.width hidden + (code.length - hidden.length) - tail.length)
        .gutter gap
    else row
  let number := (toString line.number).toList
  let row := row.put 0 .gutter (List.replicate (f.gutter - number.length) ' ' ++ number)
  (f.bar row, left)

/-- Whether a line has nothing on it that helps: blanks, a comment, or one bracket. -/
def isFiller (text : List Char) : Bool :=
  let trimmed := ((text.dropWhile Text.isSpace).reverse.dropWhile Text.isSpace).reverse
  match trimmed with
  | [] => true
  | [c] => ['{', '}', '(', ')', '[', ']'].contains c
  | '/' :: '/' :: c :: _ => !(c = '/' || c = '!')
  | ['/', '/'] => true
  | _ => false

/-- The lines of a range that are shown because of it: the first, up to three after it without those
at their end that are filler, the last but one unless it is filler, and the last. -/
def shownNumbers (lines : List SourceLine) (first last : Nat) : List Nat :=
  let filler (n : Nat) : Bool :=
    match lines.find? fun l => l.number == n with
    | some l => isFiller l.text
    | none => true
  let middle := min (first + 4) last
  let opening := (List.range' first (middle - first)).reverse.dropWhile filler
  let closing := if middle < last - 1 && !filler (last - 1) then [last - 1] else []
  first :: (opening.reverse.drop 1) ++ closing ++ [last]

/-- What is pointed at in a line: the columns, and the width of the label with the blank before
it. -/
structure Pointer where
  left : Nat
  right : Nat
  label : Nat

/-- The columns of the white space that a line begins with. -/
def leadingBlank : List Char → Nat
  | [] => 0
  | c :: cs => if Text.isSpace c then (if c = '\t' then 4 else 1) + leadingBlank cs else 0

def extentOf (lines : List SourceLine) (pointers : List Pointer) : Extent where
  blank :=
    ((lines.filter fun l => l.text.any fun c => !Text.isSpace c).map fun l =>
      leadingBlank l.text).min?.getD 0
  spanLeft := (pointers.map fun p => min p.left p.right).min?.getD 0
  spanRight := (pointers.map fun p => max p.left p.right).max?.getD 0
  labelRight := (pointers.map fun p => p.right + p.label).max?.getD 0
  longest := (lines.map fun l => Text.width l.text).max?.getD 0

/-- The row with the carets and the label, for a range within a line. -/
def caretRow (f : Frame) (left start stop : Nat) (label : List Char) : Row :=
  let column := f.textColumn + start - left
  let row := (f.bar []).fill column (f.textColumn + stop - left) f.mark '^'
  row.put (f.textColumn + (stop + 1 - left)) f.mark label

/-- The row that leads from the bracket to the start of the range. -/
def openingRow (f : Frame) (left start : Nat) : Row :=
  let row := (f.bar []).put f.markColumn f.mark [' ']
  let column := f.textColumn + start - left
  (row.fill (f.markColumn + 1) column f.mark '_').put column f.mark ['^']

/-- The row that leads from the bracket to the end of the range, with the label. -/
def closingRow (f : Frame) (left stop : Nat) (label : List Char) : Row :=
  let column := f.textColumn + (stop - 1) - left
  let row := (f.stroke (f.bar [])).fill (f.markColumn + 1) column f.mark '_'
  let row := row.put column f.mark ['^']
  row.put (f.textColumn + ((if stop = 0 then 2 else stop + 1) - left)) f.mark label

/-- The rows of a range within one line. Of a range that is more than twice as wide as the room
there is, only a third of that room is left at either end. -/
def lineRows (f : Frame) (line : SourceLine) (start stop : Nat) (label : List Char) : List Row :=
  let (row, left) := textRow f line
  let rows := [row, caretRow f left start stop label]
  if stop - start ≤ 2 * f.window.room then rows
  else
    let kept := f.window.room / 3
    let first := f.textColumn + (start + kept) - left
    let last := f.textColumn + (stop - kept) - left
    rows.map fun row => row.elide first last .gutter gap

/-- The rows between two shown lines: a single line in between is shown too. -/
def betweenRows (f : Frame) (lines : List SourceLine) (number next : Nat) : List Row :=
  if next ≤ number + 1 then []
  else if next = number + 2 then
    match lines.find? fun l => l.number == number + 1 with
    | some l => [f.stroke (textRow f l).1]
    | none => []
  else [f.stroke (Row.put [] 0 .gutter gap)]

/-- The rows of the lines after the first one of a range. -/
def bracketRows (f : Frame) (lines : List SourceLine) (stop : Nat) (label : List Char) :
    Nat → List Nat → List Row
  | _, [] => []
  | number, next :: rest =>
    let between := betweenRows f lines number next
    match lines.find? fun l => l.number == next with
    | none => between ++ bracketRows f lines stop label next rest
    | some line =>
      let (row, left) := textRow f line
      let closing := if rest.isEmpty then [closingRow f left stop label] else []
      between ++ f.stroke row :: closing ++ bracketRows f lines stop label next rest

/-- The first line of a range over several lines. When the range starts with the first thing on its
line, the bracket starts there too. -/
def firstRows (f : Frame) (line : SourceLine) (start : Nat) : List Row :=
  let (row, left) := textRow f line
  if ((Text.shown line.text).take start).all Text.isSpace then
    [row.put f.markColumn f.mark ['/']]
  else [row, openingRow f left start]

/-- The message after its label; further lines of it are indented to where it starts. -/
def titleRows (style : Style) (label : String) (textStyle : Style) (message : String) : List Row :=
  match message.splitOn "\n" with
  | [] => []
  | first :: rest =>
    (Row.ofString style label ++ Row.ofString textStyle ": " ++ Row.ofString textStyle first) ::
      rest.map fun part =>
        Row.ofChars .plain (List.replicate (label.length + 2) ' ') ++ Row.ofString textStyle part

/-- The width of the line numbers up to the end of the range. -/
def gutterWidth (source : List Char) (stop : Nat) : Nat :=
  let count := (Text.cutLines (takeBytes stop source)).length
  (toString (1 + (count - 1))).length

namespace Snippet

def rows (s : Snippet) : List Row :=
  let lines := sourceLines s.source
  let (a, b) := places lines s.start s.stop
  let gutter := gutterWidth s.source s.stop
  let label := s.message.toList
  let labelWidth := Text.width label + 1
  let origin := match s.path with
    | some path =>
      let place := path ++ ":" ++ toString a.line.number ++ ":" ++ toString (a.column + 1)
      [Row.ofChars .plain (List.replicate gutter ' ') ++ Row.ofString .gutter "--> " ++
        Row.ofString .plain place]
    | none => []
  let body : Frame × List Row :=
    if a.line.number = b.line.number then
      let stop := if a.display = b.display then b.display + 1 else b.display
      let extent := extentOf [a.line] [⟨a.display, stop, labelWidth⟩]
      let f : Frame := ⟨gutter, false, s.severity, .ofExtent (screenWidth - (gutter + 3)) extent⟩
      (f, lineRows f a.line a.display stop label)
    else
      let numbers := shownNumbers lines a.line.number b.line.number
      let extent := extentOf (lines.filter fun l => numbers.contains l.number)
        [⟨a.display, a.display + 1, 0⟩, ⟨b.display - 1, b.display, labelWidth⟩]
      let f : Frame := ⟨gutter, true, s.severity, .ofExtent (screenWidth - (gutter + 5)) extent⟩
      (f, firstRows f a.line a.display ++
        bracketRows f lines b.display label a.line.number (numbers.drop 1))
  origin ++ body.1.bar [] :: body.2

/-- The whole report: title, source text and hints. -/
def report (s : Snippet) (hints : List String) : List Row :=
  let message := String.ofList (Text.shown s.message.toList)
  let title := titleRows (.mark s.severity) s.severity.text .title message
  let bar : List Row :=
    if hints.isEmpty then [] else [Row.put [] (gutterWidth s.source s.stop + 1) .gutter ['|']]
  title ++ s.rows ++ bar ++ hints.flatMap fun h => titleRows .help "help" .plain h

end Snippet

end PacketSections.Report
