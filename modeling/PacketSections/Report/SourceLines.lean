import PacketSections.Text.Lines

/-!
The lines of a source text, and places in it.
-/

namespace PacketSections.Report

structure SourceLine where
  /-- Counted from one. -/
  number : Nat
  text : List Char
  /-- The bytes of the text before the line. -/
  start : Nat
  /-- The bytes of the line end. -/
  ending : Nat
deriving DecidableEq, Repr

namespace SourceLine

/-- The bytes of the text up to the end of the line. -/
def stop (l : SourceLine) : Nat := l.start + Text.byteCount l.text + l.ending

end SourceLine

/-- The lines in order, the first of which has the given number and start. -/
def numberLines (number start : Nat) : List (List Char × Nat) → List SourceLine
  | [] => []
  | (text, ending) :: rest =>
    let line : SourceLine := ⟨number, text, start, ending⟩
    line :: numberLines (number + 1) line.stop rest

/-- The lines of a text; an empty text has one empty line. -/
def sourceLines (cs : List Char) : List SourceLine :=
  if cs.isEmpty then [⟨1, [], 0, 0⟩] else numberLines 1 0 (Text.cutLines cs)

/-- A place in a source text. -/
structure Place where
  line : SourceLine
  /-- The characters of the line before the place. -/
  column : Nat
  /-- The columns that these take on the screen. -/
  display : Nat
deriving DecidableEq, Repr

/-- The characters within the first `n` bytes. -/
def takeBytes : Nat → List Char → List Char
  | _, [] => []
  | n, c :: cs => if c.utf8Size ≤ n then c :: takeBytes (n - c.utf8Size) cs else []

/-- The line that holds the byte, or the last one. -/
def lineAt (offset : Nat) : List SourceLine → SourceLine
  | [] => ⟨1, [], 0, 0⟩
  | [l] => l
  | l :: m :: ls => if offset < l.stop then l else lineAt offset (m :: ls)

def placeIn (line : SourceLine) (offset : Nat) : Place :=
  let before := takeBytes (offset - line.start) line.text
  ⟨line, before.length, Text.width before⟩

/-- The two ends of a range of bytes. The start counts one character more inside of a line end; the
end counts one character and one column more there, when it is on another line. -/
def places (lines : List SourceLine) (start stop : Nat) : Place × Place :=
  let a := placeIn (lineAt start lines) start
  let beyond := a.line.start + Text.byteCount a.line.text < start
  let a := if beyond then { a with column := a.column + 1 } else a
  if start = stop then (a, a)
  else
    let b := placeIn (lineAt stop lines) stop
    let past := a.line.number ≠ b.line.number ∧ b.line.stop - b.line.ending < stop
    (a, if past then { b with column := b.column + 1, display := b.display + 1 } else b)

end PacketSections.Report
