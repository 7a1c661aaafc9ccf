/-!
Binary floating point in exact arithmetic on natural numbers.

A magnitude is `mantissa * 2 ^ exponent` with at most 53 bits of mantissa and no exponent below
`-1074`. Rounding takes a quotient of natural numbers to the nearest magnitude, a tie to the even
mantissa; there is none at or above `2 ^ 1024`.
-/

namespace PacketSections.Json

/-- The finite value `mantissa * 2 ^ exponent`. -/
structure Magnitude where
  mantissa : Nat
  exponent : Int
deriving DecidableEq, Repr

namespace Magnitude

def zero : Magnitude := ⟨0, -1074⟩

def isZero (x : Magnitude) : Bool := x.mantissa == 0

/-- The value as a quotient of natural numbers. -/
def quotient (x : Magnitude) : Nat × Nat :=
  if 0 ≤ x.exponent then (x.mantissa * Nat.pow 2 x.exponent.toNat, 1)
  else (x.mantissa, Nat.pow 2 (-x.exponent).toNat)

/-- The integer nearest to `num / den`, a tie to the even one. -/
def roundDiv (num den : Nat) : Nat :=
  let q := num / den
  let r := num % den
  if den < 2 * r ∨ (2 * r = den ∧ q % 2 = 1) then q + 1 else q

/-- `num / den` in units of `2 ^ e`, again as a quotient. -/
def inUnits (num den : Nat) (e : Int) : Nat × Nat :=
  if 0 ≤ e then (num, den * Nat.pow 2 e.toNat) else (num * Nat.pow 2 (-e).toNat, den)

/-- The exponent at which `num / den` has at most 53 bits before the point. -/
def unitExponent (num den : Nat) : Int :=
  let e := max ((num.log2 : Int) - (den.log2 : Int) - 53) (-1074)
  let (n, d) := inUnits num den e
  if Nat.pow 2 53 ≤ n / d then e + 1 else e

/-- The magnitude nearest to `num / den`, or `none` when that is too large. -/
def round (num den : Nat) : Option Magnitude :=
  if num = 0 then some zero
  else
    let e := unitExponent num den
    let (n, d) := inUnits num den e
    let m := roundDiv n d
    let (m, e) := if m = Nat.pow 2 53 then (Nat.pow 2 52, e + 1) else (m, e)
    if 971 < e then none else some ⟨m, e⟩

/-- The power `10 ^ k`, rounded. -/
def tenTo (k : Nat) : Magnitude := (round (Nat.pow 10 k) 1).getD zero

def times (x y : Magnitude) : Option Magnitude :=
  let (a, b) := x.quotient
  let (c, d) := y.quotient
  round (a * c) (b * d)

def dividedBy (x y : Magnitude) : Option Magnitude :=
  let (a, b) := x.quotient
  let (c, d) := y.quotient
  round (a * d) (b * c)

/-- `x * 10 ^ k`, by one multiplication or by divisions of at most `10 ^ 308`. Three divisions
bring every 64-bit integer to zero, so three steps always suffice. -/
def scale : Nat → Magnitude → Int → Option Magnitude
  | 0, x, _ => some x
  | n + 1, x, k =>
    if 0 ≤ k then
      if k ≤ 308 then x.times (tenTo k.toNat)
      else if x.isZero then some x else none
    else if -308 ≤ k then x.dividedBy (tenTo (-k).toNat)
    else if x.isZero then some x
    else (x.dividedBy (tenTo 308)).bind fun y => scale n y (k + 308)

/-- A 64-bit significand times a power of ten. -/
def ofDecimal (significand : Nat) (power : Int) : Option Magnitude :=
  (round significand 1).bind fun x => scale 3 x power

end Magnitude

end PacketSections.Json
