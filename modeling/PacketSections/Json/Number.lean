import PacketSections.Json.Shortest

/-!
Numbers of a document.

A numeral without fraction and exponent that fits in 64 bits is an integer; every other numeral, and
`-0`, is a floating-point value. The digits that no longer fit into a 64-bit significand are
dropped, each one before the point counting as a power of ten.
-/

namespace PacketSections.Json

inductive Number where
  | natural (n : UInt64)
  /-- Below zero, and at least `-2 ^ 63`. -/
  | negative (n : Int)
  | real (below : Bool) (x : Magnitude)
deriving DecidableEq, Repr

namespace Number

def text : Number → String
  | natural n => String.ofList (Nat.toDigits 10 n.toNat)
  | negative n => String.ofList ('-' :: Nat.toDigits 10 n.natAbs)
  | real below x => (if below then "-" else "") ++ x.text

end Number

/-- A numeral as written: digits as numbers, and the exponent with its sign. -/
structure Numeral where
  below : Bool
  whole : List Nat
  fraction : List Nat := []
  /-- Whether the exponent is below zero, and its digits. -/
  exponent : Option (Bool × List Nat) := none
  /-- Whether a point was written. -/
  pointed : Bool := false
deriving DecidableEq, Repr

namespace Numeral

/-- Appends digits to `n` while the result stays below `bound`; returns what is left over. -/
def accumulate (bound : Nat) : Nat → List Nat → Nat × List Nat
  | n, [] => (n, [])
  | n, d :: ds =>
    if n * 10 + d < bound then accumulate bound (n * 10 + d) ds else (n, d :: ds)

/-- The significand and the power of ten that the digits around the point stand for. -/
def significand (x : Numeral) : Nat × Int :=
  let (n, long) := accumulate (Nat.pow 2 64) 0 x.whole
  let (m, rest) := accumulate (Nat.pow 2 64) n x.fraction
  (m, (long.length : Int) - ((x.fraction.length - rest.length : Nat) : Int))

/-- The integer, for a numeral that is written as one and fits. -/
def integer? (x : Numeral) : Option Number :=
  if x.pointed || x.exponent.isSome then none
  else
    let (n, long) := accumulate (Nat.pow 2 64) 0 x.whole
    if !long.isEmpty then none
    else if !x.below then some (.natural (UInt64.ofNat n))
    else if n ≠ 0 ∧ n ≤ Nat.pow 2 63 then some (.negative (-n))
    else none

/-- The value, or for one out of range the number of closing characters that play no part in
finding that out. -/
def value (x : Numeral) : Except Nat Number :=
  match x.integer? with
  | some n => .ok n
  | none =>
    let (m, power) := x.significand
    let scaled (k : Int) : Except Nat Number :=
      match Magnitude.ofDecimal m k with
      | some y => .ok (.real x.below y)
      | none => .error 0
    match x.exponent with
    | none => scaled power
    | some (small, ds) =>
      let (k, rest) := accumulate (Nat.pow 2 31) 0 ds
      if rest.isEmpty then scaled (if small then power - k else power + k)
      else if m ≠ 0 ∧ !small then .error (rest.length - 1)
      else .ok (.real x.below Magnitude.zero)

end Numeral

end PacketSections.Json
