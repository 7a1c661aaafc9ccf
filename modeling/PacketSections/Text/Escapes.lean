/-!
Text without what controls a terminal: escape sequences, and controls other than white space.

An escape sequence that breaks off at a line end leaves the line end in place, unless it carries a
text of its own, such as a title; that text goes on until it is closed.
-/

namespace PacketSections.Text

/-- Where in an escape sequence the text stands. -/
inductive EscapePhase where
  /-- Outside of any sequence. -/
  | outside
  /-- After the escape character. -/
  | opened
  /-- After the escape character and blanks or punctuation. -/
  | marked
  /-- In a sequence that ends with a letter. -/
  | control
  /-- At the start of a command to the device. -/
  | device
  | deviceNumbers
  | deviceMarks
  /-- In the text of a command. -/
  | body
  /-- In a title, which a bell ends too. -/
  | title
deriving DecidableEq, Repr

/-- The controls that are white space. -/
def isBlankControl (c : Char) : Bool :=
  c.toNat = 9 || c.toNat = 10 || c.toNat = 12 || c.toNat = 13

/-- Whether the byte that ends the text of a command is one of those that the character is written
with. -/
def closesBody (c : Char) : Bool :=
  let n := c.toNat
  0x80 ≤ n && (n % 64 = 28 || (0x800 ≤ n && n / 64 % 64 = 28) ||
    (0x10000 ≤ n && n / 4096 % 64 = 28))

namespace EscapePhase

/-- The phase after the character that follows the escape character. -/
def enter (c : Char) : EscapePhase :=
  if c = '[' then control
  else if c = ']' then title
  else if c = 'P' then device
  else if c = 'X' ∨ c = '^' ∨ c = '_' then body
  else outside

/-- The phase after a character, and whether the character stays. -/
def step (p : EscapePhase) (c : Char) : EscapePhase × Bool :=
  let n := c.toNat
  let isMark := 0x20 ≤ n && n ≤ 0x2F
  let isDigit := 0x30 ≤ n && n ≤ 0x3F
  let isFinal := 0x40 ≤ n && n ≤ 0x7E
  if n = 0x18 ∨ n = 0x1A then (outside, false)
  else if n = 0x1B then (opened, false)
  else match p with
    | outside => (outside, isBlankControl c || (0x20 ≤ n && n ≠ 0x7F))
    | opened =>
      if isBlankControl c then (outside, true)
      else if isMark then (marked, false)
      else if isDigit || isFinal then (enter c, false)
      else (opened, false)
    | marked =>
      if isBlankControl c then (outside, true)
      else if isDigit || isFinal then (outside, false)
      else (marked, false)
    | control =>
      if isBlankControl c then (outside, true)
      else if isFinal then (outside, false)
      else (control, false)
    | device =>
      if isMark then (deviceMarks, false)
      else if isDigit then (deviceNumbers, false)
      else if isFinal then (body, false)
      else (device, false)
    | deviceNumbers =>
      if isMark then (deviceMarks, false)
      else if (0x3C ≤ n && n ≤ 0x3F) || isFinal then (body, false)
      else (deviceNumbers, false)
    | deviceMarks => if isDigit || isFinal then (body, false) else (deviceMarks, false)
    | body => (if closesBody c then outside else body, false)
    | title => (if n = 7 then outside else title, false)

end EscapePhase

/-- The characters that stay, from a phase on. -/
def withoutEscapesFrom : EscapePhase → List Char → List Char
  | _, [] => []
  | p, c :: cs =>
    let (q, stays) := p.step c
    if stays then c :: withoutEscapesFrom q cs else withoutEscapesFrom q cs

def withoutEscapes (s : String) : String := String.ofList (withoutEscapesFrom .outside s.toList)

end PacketSections.Text
