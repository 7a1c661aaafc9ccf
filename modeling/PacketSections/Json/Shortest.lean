import PacketSections.Json.Binary

/-!
The shortest decimal text of a magnitude.

Of the decimals that read back as the magnitude, the one with the fewest digits is written, and of
those the nearest. Decimal exponents from `-5` to `15` are written positionally.
-/

namespace PacketSections.Json

namespace Magnitude

/-- The interval of values that round to the magnitude, and the value itself, in quarters of a unit
in the last place. Below a power of two the gap is half as wide. -/
def quarters (x : Magnitude) : Nat × Nat × Nat :=
  let m := 4 * x.mantissa
  let below := if x.mantissa = Nat.pow 2 52 ∧ x.exponent ≠ -1074 then 1 else 2
  (m - below, m, m + 2)

/-- The least `t` from `t₀` on with `den ≤ num * 10 ^ t`, looking at `fuel` candidates. -/
def leadingZeros (num den : Nat) : Nat → Nat → Nat
  | 0, t => t
  | fuel + 1, t => if den ≤ num * Nat.pow 10 t then t else leadingZeros num den fuel (t + 1)

/-- The exponent of the first decimal digit. -/
def decimalExponent (x : Magnitude) : Int :=
  let (num, den) := x.quotient
  if den ≤ num then ((Nat.toDigits 10 (num / den)).length : Int) - 1
  else -(leadingZeros num den 330 1 : Int)

/-- The point of the grid `10 ^ k` that reads back as `x`, if one does: the nearer of the two
neighbours, a tie to the even one. -/
def onGrid (x : Magnitude) (k : Int) : Option Nat :=
  let (lo, v, hi) := x.quarters
  let e := x.exponent - 2
  let up := Nat.pow 2 e.toNat * Nat.pow 10 (-k).toNat
  let down := Nat.pow 2 (-e).toNat * Nat.pow 10 k.toNat
  let inside (c : Nat) : Bool :=
    if x.mantissa % 2 = 0 then lo * up ≤ c * down && c * down ≤ hi * up
    else lo * up < c * down && c * down < hi * up
  let c := v * up / down
  let far := 2 * (v * up) - (2 * c + 1) * down
  let near := (2 * c + 1) * down - 2 * (v * up)
  match inside c, inside (c + 1) with
  | true, true => if 0 < far then some (c + 1) else if 0 < near then some c
    else if c % 2 = 0 then some c else some (c + 1)
  | true, false => some c
  | false, true => some (c + 1)
  | false, false => none

/-- Tries grids with `n`, `n + 1`, … digits, `fuel` of them. -/
def searchGrid (x : Magnitude) (top : Int) : Nat → Nat → Nat × Int
  | 0, n => ((x.onGrid (top + 1 - n)).getD 0, top + 1 - n)
  | fuel + 1, n =>
    match x.onGrid (top + 1 - n) with
    | some c => (c, top + 1 - n)
    | none => searchGrid x top fuel (n + 1)

/-- The digits of the shortest decimal, without closing zeros, and the exponent of the first. -/
def shortest (x : Magnitude) : List Char × Int :=
  let (c, k) := x.searchGrid x.decimalExponent 17 1
  let ds := Nat.toDigits 10 c
  ((ds.reverse.dropWhile (· == '0')).reverse, k + (ds.length : Int) - 1)

/-- Digits `ds` with the first at exponent `e`, positionally; a whole number ends in `.0`. -/
def positional (ds : List Char) (e : Int) : List Char :=
  if e < 0 then
    '0' :: '.' :: List.replicate (-e - 1).toNat '0' ++ ds
  else
    let n := e.toNat + 1
    let whole := ds.take n ++ List.replicate (n - ds.length) '0'
    let part := ds.drop n
    whole ++ '.' :: (if part.isEmpty then ['0'] else part)

/-- Digits `ds` with the first at exponent `e`, with a power of ten. -/
def scientific (ds : List Char) (e : Int) : List Char :=
  let head := match ds with
    | [] => ['0']
    | [d] => [d]
    | d :: rest => d :: '.' :: rest
  head ++ 'e' :: (if e < 0 then '-' else '+') :: Nat.toDigits 10 e.natAbs

def text (x : Magnitude) : String :=
  if x.isZero then "0.0"
  else
    let (ds, e) := x.shortest
    String.ofList (if -5 ≤ e ∧ e ≤ 15 then positional ds e else scientific ds e)

end Magnitude

end PacketSections.Json
