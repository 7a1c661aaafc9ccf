import PacketSections.Lowering.Diagnostic

/-!
Rows of styled characters.
-/

namespace PacketSections.Report

inductive Style where
  | plain
  /-- Line numbers and what separates them from the text. -/
  | gutter
  /-- Carets and labels. -/
  | mark (severity : Severity)
  | title
  | help
deriving DecidableEq, Repr

namespace Style

def severityCode : Severity → String
  | .error => "\x1b[91m"
  | .warning => "\x1b[33m"

/-- The escape sequences that turn the style on. -/
def code : Style → String
  | plain => ""
  | gutter => "\x1b[1m\x1b[94m"
  | mark severity => "\x1b[1m" ++ severityCode severity
  | title => "\x1b[1m"
  | help => "\x1b[1m\x1b[96m"

/-- The escape sequence that turns the style off. -/
def reset : Style → String
  | plain => ""
  | _ => "\x1b[0m"

end Style

abbrev Cell := Char × Style

abbrev Row := List Cell

namespace Row

def ofChars (style : Style) (cs : List Char) : Row := cs.map fun c => (c, style)

def ofString (style : Style) (s : String) : Row := ofChars style s.toList

/-- Writes characters at a column, over what is there; a gap is filled with spaces. -/
def put (row : Row) (column : Nat) (style : Style) (cs : List Char) : Row :=
  if cs.isEmpty then row
  else
    (row.rightpad column (' ', .plain)).take column ++ ofChars style cs ++
      row.drop (column + cs.length)

/-- Writes one character from one column up to another. -/
def fill (row : Row) (start stop : Nat) (style : Style) (c : Char) : Row :=
  row.put start style (List.replicate (stop - start) c)

/-- Puts characters in the place of all columns from one to another, if the row goes that far. -/
def elide (row : Row) (start stop : Nat) (style : Style) (cs : List Char) : Row :=
  if row.length < stop then row else row.take start ++ ofChars style cs ++ row.drop stop

/-- The text of a row in which `style` is on. -/
def writeFrom (style : Style) : Row → String
  | [] => style.reset
  | (c, s) :: cells =>
    if s = style then c.toString ++ writeFrom style cells
    else style.reset ++ s.code ++ c.toString ++ writeFrom s cells

def write (colored : Bool) (row : Row) : String :=
  if colored then writeFrom .plain row else String.ofList (row.map Prod.fst)

end Row

end PacketSections.Report
