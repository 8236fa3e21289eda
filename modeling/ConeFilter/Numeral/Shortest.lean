import ConeFilter.Numeral.Integer

/-!
Shortest decimals. A positive double stands for all the reals that round to
it: an interval around its own value, whose ends belong to it when the
significand is even. Of the grids of multiples of a power of ten, the coarsest
that meets the interval gives the fewest digits, and of its points the one
nearest to the value is taken.

Everything is exact arithmetic on natural numbers. The interval is kept as
three numerators over one power of two, `lower ≤ value ≤ upper`, in quarters
of the last place of the significand.
-/
namespace ConeFilter.Numeral

structure Interval where
  lower : Nat
  value : Nat
  upper : Nat
  -- All three are multiples of two to this power.
  exponent : Int
  closed : Bool

/-- At a power of two the neighbour below is half as far as the one above. -/
def Interval.ofBits (bits : Nat) : Interval :=
  let fraction : Nat := bits % 0x10000000000000
  let biased : Nat := bits / 0x10000000000000 % 0x800
  let significand := if biased = 0 then fraction else fraction + 0x10000000000000
  let below := if fraction = 0 then 1 else 2
  { lower := 4 * significand - below
    value := 4 * significand
    upper := 4 * significand + 2
    exponent := (if biased = 0 then 1 else (biased : Int)) - 1077
    closed := significand % 2 == 0 }

/-! A grid is named by its power of ten. Measuring the interval in units of a
grid keeps the three numerators and gives them one denominator. -/

structure Measured where
  lower : Nat
  value : Nat
  upper : Nat
  unit : Nat
  closed : Bool

def Interval.inUnits (interval : Interval) (power : Int) : Measured :=
  let scale := Nat.pow 2 interval.exponent.toNat * Nat.pow 10 (-power).toNat
  { lower := interval.lower * scale
    value := interval.value * scale
    upper := interval.upper * scale
    unit := Nat.pow 2 (-interval.exponent).toNat * Nat.pow 10 power.toNat
    closed := interval.closed }

def Measured.admits (measured : Measured) (point : Nat) : Bool :=
  let place := point * measured.unit
  if measured.closed then decide (measured.lower ≤ place) && decide (place ≤ measured.upper)
  else decide (measured.lower < place) && decide (place < measured.upper)

/-- The two neighbours of the value on the grid are the only candidates, and a value halfway
between two admitted ones goes to the upper. -/
def Measured.nearest (measured : Measured) : Option Nat :=
  let point := measured.value / measured.unit
  match measured.admits point, measured.admits (point + 1) with
  | true, true =>
      if 2 * (measured.value % measured.unit) < measured.unit then some point else some (point + 1)
  | true, false => some point
  | false, true => some (point + 1)
  | false, false => none

/-- From the coarsest grid down. The last answer is out of reach: every double lies on the
grid of its own last binary place. -/
def coarsest (interval : Interval) (power : Int) : Nat → Nat × Int
  | 0 => (interval.value, power)
  | steps + 1 =>
      match (interval.inUnits power).nearest with
      | some point => (point, power)
      | none => coarsest interval (power - 1) steps

/-! The decimal found is a natural number times a power of ten. -/

/-- No grid above this one has a point in the interval. -/
def Interval.top (interval : Interval) : Nat :=
  (digitsOf (interval.upper * Nat.pow 2 interval.exponent.toNat /
    Nat.pow 2 (-interval.exponent).toNat)).length

def shortest (bits : Nat) : Nat × Int :=
  let interval := Interval.ofBits bits
  coarsest interval interval.top (interval.top + 345)

/-! The digits of a decimal, without the zeros that only move its point. -/

def dropTrailingZeros (digits : List Char) : List Char :=
  (digits.reverse.dropWhile (· = '0')).reverse

/-- Digits `d₁d₂…` and the exponent of the number `d₁.d₂… · 10ᵉ`. -/
def scientificDigits (bits : Nat) : List Char × Int :=
  let (significand, power) := shortest bits
  let digits := digitsOf significand
  (dropTrailingZeros digits, power + digits.length - 1)

end ConeFilter.Numeral
