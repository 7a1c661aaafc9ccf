import PacketSections.Text.Lines

/-!
What is wrong with a text that is no document.

A fault names its cause and how many bytes of the text were still unread when it was noticed; line
and column follow from that.
-/

namespace PacketSections.Json

open Text (byteCount)

inductive Cause where
  | endInValue
  | endInObject
  | endInList
  | endInString
  | valueExpected
  | wordExpected
  | colonExpected
  | objectCommaOrEnd
  | listCommaOrEnd
  | nameNotString
  | commaAtEnd
  | extraText
  | badNumber
  | numberRange
  | badEscape
  | controlCharacter
  | halfSurrogate
  | loneSurrogate
  | tooDeep
deriving DecidableEq, Repr

namespace Cause

def message : Cause → String
  | endInValue => "EOF while parsing a value"
  | endInObject => "EOF while parsing an object"
  | endInList => "EOF while parsing a list"
  | endInString => "EOF while parsing a string"
  | valueExpected => "expected value"
  | wordExpected => "expected ident"
  | colonExpected => "expected `:`"
  | objectCommaOrEnd => "expected `,` or `\x7d`"
  | listCommaOrEnd => "expected `,` or `]`"
  | nameNotString => "key must be a string"
  | commaAtEnd => "trailing comma"
  | extraText => "trailing characters"
  | badNumber => "invalid number"
  | numberRange => "number out of range"
  | badEscape => "invalid escape"
  | controlCharacter => "control character (\\u0000-\\u001F) found while parsing a string"
  | halfSurrogate => "unexpected end of hex escape"
  | loneSurrogate => "lone leading surrogate in hex escape"
  | tooDeep => "recursion limit exceeded"

/-- Whether the text stopped too early. -/
def isEnd : Cause → Bool
  | endInValue | endInObject | endInList | endInString => true
  | _ => false

end Cause

structure Fault where
  cause : Cause
  /-- Bytes not yet read. -/
  left : Nat
deriving DecidableEq, Repr

namespace Fault

/-- A fault noticed with `rest` unread. -/
def here (cause : Cause) (rest : List Char) : Fault := ⟨cause, byteCount rest⟩

/-- A fault noticed at the first byte of `rest`, which counts as read. -/
def atNext (cause : Cause) (rest : List Char) : Fault := ⟨cause, byteCount rest - 1⟩

/-- Line and column after `n` bytes: lines count from one, columns in bytes from the last line
end. -/
def lineColumn : List Char → Nat → Nat → Nat → Nat × Nat
  | [], n, line, column => (line, column + n)
  | c :: cs, n, line, column =>
    if n < c.utf8Size then (line, column + n)
    else if c = '\n' then lineColumn cs (n - 1) (line + 1) 0
    else lineColumn cs (n - c.utf8Size) line (column + c.utf8Size)

def position (text : List Char) (f : Fault) : Nat × Nat :=
  lineColumn text (byteCount text - f.left) 1 0

end Fault

end PacketSections.Json
