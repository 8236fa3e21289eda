import ConeFilter.Numeral.Shortest

/-!
The layout of a decimal. Numbers whose exponent lies in a given range are
written with a point in place and at least one digit on each side of it, the
others as a leading digit, the rest of the digits if there are any, and an
exponent without a plus sign.
-/
namespace ConeFilter.Numeral

structure Layout where
  -- Exponents from the first up to but not including the second are written
  -- positionally.
  positionalFrom : Int
  positionalBefore : Int
  infinite : String
  notANumber : String

def zeros (n : Nat) : List Char := List.replicate n '0'

def positional (digits : List Char) (exponent : Int) : List Char :=
  if exponent < 0 then '0' :: '.' :: (zeros (-exponent - 1).toNat ++ digits)
  else
    let whole := exponent.toNat + 1
    let fraction := digits.drop whole
    digits.take whole ++ zeros (whole - digits.length) ++ '.' ::
      (if fraction.isEmpty then ['0'] else fraction)

def scientific (digits : List Char) (exponent : Int) : List Char :=
  let significand := match digits with
    | first :: [] => [first]
    | first :: rest => first :: '.' :: rest
    | [] => []
  significand ++ 'e' :: (intText exponent).toList

def Layout.place (layout : Layout) (digits : List Char) (exponent : Int) : List Char :=
  if layout.positionalFrom ≤ exponent ∧ exponent < layout.positionalBefore then
    positional digits exponent
  else scientific digits exponent

def Layout.magnitude (layout : Layout) (x : Float) : List Char :=
  let bits := x.toBits.toNat % 0x8000000000000000
  if x.isInf then layout.infinite.toList
  else if bits = 0 then ['0', '.', '0']
  else
    let (digits, exponent) := scientificDigits bits
    layout.place digits exponent

/-- Zero keeps its sign, and what is not a number has none. -/
def Layout.text (layout : Layout) (x : Float) : String :=
  if x.isNaN then layout.notANumber
  else if x.toBits.toNat < 0x8000000000000000 then String.ofList (layout.magnitude x)
  else String.ofList ('-' :: layout.magnitude x)

end ConeFilter.Numeral
