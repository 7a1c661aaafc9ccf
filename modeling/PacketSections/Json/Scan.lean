import PacketSections.Json.Fault
import PacketSections.Json.Number

/-!
Blanks, words, strings and numerals at the head of a text.

A string can be scanned strictly, where surrogate escapes have to come in pairs, or loosely, where
they only have to be four hexadecimal digits. A broken numeral or list is reported in one way by
whoever reads it and in another by whoever skips over it, which is what `Break` records.
-/

namespace PacketSections.Json

open Text (byteCount)

/-- Where a text stops being a document, as told by reading and by skipping. -/
structure Break where
  reading : Fault
  skipping : Fault
deriving DecidableEq, Repr

namespace Break

def same (f : Fault) : Break := ⟨f, f⟩

end Break

def isBlank (c : Char) : Bool := c == ' ' || c == '\n' || c == '\t' || c == '\r'

def skipBlanks (cs : List Char) : List Char := cs.dropWhile isBlank

/-- The rest of the text after the word, whose first letter has been read. -/
def scanWord : List Char → List Char → Except Fault (List Char)
  | [], cs => .ok cs
  | _ :: _, [] => .error (.here .endInValue [])
  | e :: es, c :: cs =>
    if c = e then scanWord es cs else .error (.atNext .wordExpected (c :: cs))

/-- Where the scan of a string stands. -/
inductive StringPhase where
  | plain
  | escape
  /-- Inside a hexadecimal escape: digits read, their value, and the first half of a pair. -/
  | hex (count value : Nat) (high : Option Nat)
  /-- After the first half of a pair. -/
  | pairSlash (high : Nat)
  | pairLetter (high : Nat)
deriving DecidableEq, Repr

def hexValue? (c : Char) : Option Nat :=
  if '0' ≤ c ∧ c ≤ '9' then some (c.toNat - 48)
  else if 'a' ≤ c ∧ c ≤ 'f' then some (c.toNat - 87)
  else if 'A' ≤ c ∧ c ≤ 'F' then some (c.toNat - 55)
  else none

/-- The character that a one-letter escape stands for. -/
def escaped? (c : Char) : Option Char :=
  match c with
  | '"' => some '"'
  | '\\' => some '\\'
  | '/' => some '/'
  | 'b' => some '\x08'
  | 'f' => some '\x0c'
  | 'n' => some '\n'
  | 'r' => some '\r'
  | 't' => some '\t'
  | _ => none

/-- What a complete hexadecimal escape does to the phase, and the character it yields. -/
def closeHex (strict : Bool) (n : Nat) (high : Option Nat) :
    Except Cause (StringPhase × List Char) :=
  if !strict then .ok (.plain, [])
  else
    match high with
    | none =>
      if 0xDC00 ≤ n ∧ n ≤ 0xDFFF then .error .loneSurrogate
      else if 0xD800 ≤ n ∧ n ≤ 0xDBFF then .ok (.pairSlash n, [])
      else .ok (.plain, [Char.ofNat n])
    | some h =>
      if 0xDC00 ≤ n ∧ n ≤ 0xDFFF then
        .ok (.plain, [Char.ofNat ((h - 0xD800) * 0x400 + (n - 0xDC00) + 0x10000)])
      else .error .loneSurrogate

/-- Scans the rest of a string whose opening quote has been read; `done` holds the characters so
far, last one first. -/
def scanString (strict : Bool) :
    StringPhase → List Char → List Char → Except Fault (String × List Char)
  | _, _, [] => .error (.here .endInString [])
  | .plain, done, c :: cs =>
    if c = '"' then .ok (String.ofList done.reverse, cs)
    else if c = '\\' then scanString strict .escape done cs
    else if c.toNat < 32 then .error (.here .controlCharacter cs)
    else scanString strict .plain (c :: done) cs
  | .escape, done, c :: cs =>
    if c = 'u' then scanString strict (.hex 0 0 none) done cs
    else
      match escaped? c with
      | some e => scanString strict .plain (e :: done) cs
      | none => .error (.atNext .badEscape (c :: cs))
  | .hex count value high, done, c :: cs =>
    match hexValue? c with
    | some d =>
      if count < 3 then scanString strict (.hex (count + 1) (value * 16 + d) high) done cs
      else
        match closeHex strict (value * 16 + d) high with
        | .ok (phase, new) => scanString strict phase (new ++ done) cs
        | .error cause => .error (.here cause cs)
    | none =>
      -- the four bytes of the escape are taken together
      let bytes := byteCount (c :: cs) + count
      if 4 ≤ bytes then .error ⟨.badEscape, bytes - 4⟩ else .error (.here .endInString [])
  | .pairSlash high, done, c :: cs =>
    if c = '\\' then scanString strict (.pairLetter high) done cs
    else .error (.atNext .halfSurrogate (c :: cs))
  | .pairLetter high, done, c :: cs =>
    if c = 'u' then scanString strict (.hex 0 0 (some high)) done cs
    else .error (.atNext .halfSurrogate (c :: cs))

def digit (c : Char) : Nat := c.toNat - 48

/-- The leading digits and what follows them. -/
def scanDigits (cs : List Char) : List Nat × List Char :=
  ((cs.takeWhile Char.isDigit).map digit, cs.dropWhile Char.isDigit)

/-- Digits that have to be there: the text may end, or go on with something else. -/
def cutNumber (cs : List Char) (fault : Cause → List Char → Fault) : Break :=
  match cs with
  | [] => ⟨.here .endInValue [], .here .badNumber []⟩
  | cs => .same (fault .badNumber cs)

/-- The digits before the point. -/
def scanWhole (cs : List Char) : Except Break (List Nat × List Char) :=
  match cs with
  | '0' :: rest =>
    match rest with
    | c :: _ => if c.isDigit then .error (.same (.atNext .badNumber rest)) else .ok ([0], rest)
    | [] => .ok ([0], rest)
  | c :: rest =>
    if c.isDigit then .ok (scanDigits (c :: rest)) else .error (cutNumber (c :: rest) .atNext)
  | [] => .error (cutNumber [] .atNext)

/-- The point and its digits, if a point comes next. -/
def scanFraction (cs : List Char) : Except Break (Bool × List Nat × List Char) :=
  match cs with
  | '.' :: rest =>
    let (ds, rest) := scanDigits rest
    if ds.isEmpty then .error (cutNumber rest .atNext) else .ok (true, ds, rest)
  | cs => .ok (false, [], cs)

/-- The exponent, if one comes next. -/
def scanExponent (cs : List Char) : Except Break (Option (Bool × List Nat) × List Char) :=
  match cs with
  | c :: rest =>
    if c = 'e' ∨ c = 'E' then
      let (small, rest) := match rest with
        | '+' :: r => (false, r)
        | '-' :: r => (true, r)
        | r => (false, r)
      let (ds, after) := scanDigits rest
      if ds.isEmpty then .error (cutNumber rest .atNext) else .ok (some (small, ds), after)
    else .ok (none, c :: rest)
  | [] => .ok (none, [])

/-- A numeral whose sign has been read. -/
def scanNumeral (below : Bool) (cs : List Char) : Except Break (Numeral × List Char) := do
  let (whole, cs) ← scanWhole cs
  let (pointed, fraction, cs) ← scanFraction cs
  let (exponent, cs) ← scanExponent cs
  return (⟨below, whole, fraction, exponent, pointed⟩, cs)

end PacketSections.Json
