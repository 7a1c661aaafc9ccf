import PacketSections.Text.Width

/-!
Texts cut into lines, their length in bytes, and how they are shown.
-/

namespace PacketSections.Text

/-- The number of bytes in the text. -/
def byteCount : List Char → Nat
  | [] => 0
  | c :: cs => c.utf8Size + byteCount cs

/-- Puts a character in front of the first line. -/
def consLine (c : Char) : List (List Char × Nat) → List (List Char × Nat)
  | [] => [([c], 0)]
  | (line, ending) :: rest => (c :: line, ending) :: rest

/-- The lines of a text, each with the number of characters that end it. A line ends with a line
feed, or with a carriage return and a line feed; nothing after the last line feed is no line. -/
def cutLines : List Char → List (List Char × Nat)
  | [] => []
  | '\r' :: '\n' :: cs => ([], 2) :: cutLines cs
  | c :: cs => if c = '\n' then ([], 1) :: cutLines cs else consLine c (cutLines cs)

def lines (s : String) : List String := (cutLines s.toList).map fun l => String.ofList l.1

/-- White space. -/
def isSpace (c : Char) : Bool :=
  (9 ≤ c.toNat && c.toNat ≤ 13) || c.toNat = 32 || c.toNat = 0x85 || c.toNat = 0xA0 ||
    c.toNat = 0x1680 || (0x2000 ≤ c.toNat && c.toNat ≤ 0x200A) || c.toNat = 0x2028 ||
    c.toNat = 0x2029 || c.toNat = 0x202F || c.toNat = 0x205F || c.toNat = 0x3000

/-- A character as it is shown: a tab becomes spaces, and a control becomes visible. -/
def shownChar (c : Char) : List Char :=
  if c = '\t' then [' ', ' ', ' ', ' ']
  else if c = '\n' then [c]
  else if c.toNat < 32 then [Char.ofNat (0x2400 + c.toNat)]
  else if c.toNat = 127 then ['␡']
  else if c.toNat = 0x200D then []
  else if isDirectional c then ['�']
  else [c]

def shown (cs : List Char) : List Char := cs.flatMap shownChar

end PacketSections.Text
