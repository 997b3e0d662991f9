/-!
# The shortest decimal of a binary number

Numbers that a machine keeps with 53 binary digits are written with as few decimal digits as tell
them apart from their neighbours. `Decimal.nearest?` rounds a decimal to the binary number next to
it, and `Binary.shortest` goes back: of the decimals that round to a binary number it gives one on
the coarsest grid of powers of ten, the nearest if there are two, the greater if both are as near.

All of it is exact arithmetic on natural numbers. A quotient of powers is never formed; both sides
of a comparison are multiplied out instead.
-/

namespace LayeredRights

/-- The number `digits * 10 ^ exponent`. -/
structure Decimal where
  digits : Nat
  exponent : Int
  deriving DecidableEq, Repr

/-- The number `significand * 2 ^ exponent`. -/
structure Binary where
  significand : Nat
  exponent : Int
  deriving DecidableEq, Repr

namespace Binary

/-- How many binary digits a significand may have. -/
def precision : Nat := 53

/-- The least exponent of a number. -/
def minExponent : Int := -1074

/-- The greatest exponent of a number. -/
def maxExponent : Int := 971

/-- Zero. -/
def zero : Binary := ⟨0, minExponent⟩

end Binary

namespace Decimal

/-- The quotient of `num` and `den`, rounded to nearest; a half goes to the even neighbour. -/
def roundDiv (num den : Nat) : Nat :=
  let q := num / den
  let twice := 2 * (num % den)
  if twice < den then q
  else if den < twice then q + 1
  else q + q % 2

/-- The factor that a power with an integer exponent adds above the line of a fraction. -/
def powerAbove (base : Nat) (e : Int) : Nat := base.pow e.toNat

/-- The factor that a power with an integer exponent adds below the line of a fraction. -/
def powerBelow (base : Nat) (e : Int) : Nat := base.pow (-e).toNat

/-- Rounds a positive fraction to the binary number next to it, or to `none` when it is
too great. -/
def roundFraction? (num den : Nat) : Option Binary :=
  let scaled (q : Int) : Nat × Nat := (num * powerBelow 2 q, den * powerAbove 2 q)
  let guess : Int := (num.log2 : Int) - den.log2 - Binary.precision
  let q := max guess Binary.minExponent
  let q := if (scaled q).1 / (scaled q).2 < Nat.pow 2 Binary.precision then q else q + 1
  let m := roundDiv (scaled q).1 (scaled q).2
  let b : Binary := if m < Nat.pow 2 Binary.precision then ⟨m, q⟩ else ⟨m / 2, q + 1⟩
  if b.exponent ≤ Binary.maxExponent then some b else none

/-- The binary number next to a decimal, or `none` when there is none so great. Far from the numbers
there are the answer is known from the number of digits. -/
def nearest? (d : Decimal) : Option Binary :=
  let magnitude : Int := (Nat.toDigits 10 d.digits).length + d.exponent
  if d.digits = 0 || magnitude < -400 then some .zero
  else if 400 < magnitude then none
  else roundFraction? (d.digits * powerAbove 10 d.exponent) (powerBelow 10 d.exponent)

end Decimal

namespace Binary

/-- What rounds to a positive number, and the number itself, in quarters of its last binary place.
Below a power of two the neighbour is only half as far away. The ends count when the significand is
even. -/
def quarters (b : Binary) : Nat × Nat × Nat :=
  let m := b.significand
  let isCoarser := m = Nat.pow 2 (precision - 1) && minExponent < b.exponent
  let low := if isCoarser then 4 * m - 1 else 4 * m - 2
  (low, 4 * m, 4 * m + 2)

/-- A decimal on the grid of `10 ^ k` that rounds to a positive number, if there is one. -/
def onGrid? (b : Binary) (k : Int) : Option Decimal :=
  let (low, mid, high) := b.quarters
  let one := Decimal.powerAbove 10 k * Decimal.powerBelow 2 (b.exponent - 2)
  let unit := Decimal.powerAbove 2 (b.exponent - 2) * Decimal.powerBelow 10 k
  let rounds (c : Nat) : Bool :=
    if b.significand % 2 = 0 then low * unit ≤ c * one && c * one ≤ high * unit
    else low * unit < c * one && c * one < high * unit
  let c := mid * unit / one
  let below := rounds c
  let above := rounds (c + 1)
  let lowerNearer := 2 * (mid * unit) < (2 * c + 1) * one
  if below && (!above || lowerNearer) then some ⟨c, k⟩
  else if above then some ⟨c + 1, k⟩
  else none

/-- Looks through grids, the coarsest first. -/
def firstOnGrid (b : Binary) : Nat → Int → Decimal
  | 0, _ => ⟨0, 0⟩
  | n + 1, k => (b.onGrid? k).getD (b.firstOnGrid n (k - 1))

/-- The shortest decimal of a number. No number is as great as the first grid searched is coarse,
and none needs a finer one than the last. -/
def shortest (b : Binary) : Decimal :=
  if b.significand = 0 then ⟨0, 0⟩ else b.firstOnGrid 700 310

end Binary

/-- A decimal without an exponent: noughts fill the places up to the point, and there is a point
only in front of digits. -/
def Decimal.positional (d : Decimal) : String :=
  let ds := Nat.toDigits 10 d.digits
  if 0 ≤ d.exponent then String.ofList (ds ++ List.replicate d.exponent.toNat '0')
  else
    let places := (-d.exponent).toNat
    let padded := List.replicate (places + 1 - ds.length) '0' ++ ds
    let whole := padded.length - places
    String.ofList (padded.take whole ++ '.' :: padded.drop whole)

end LayeredRights
