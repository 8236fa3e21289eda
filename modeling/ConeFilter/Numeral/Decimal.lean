import ConeFilter.Numeral.Integer

/-!
Decimal text. After at most one sign comes either the name of a special
number, in any case, or a run of digits with at most one point in it and at
least one digit, and then perhaps an exponent. The number read is the double
nearest to the decimal, so an exponent too large gives infinity and one too
small gives zero.
-/
namespace ConeFilter.Numeral

inductive Decimal where
  | finite (negative : Bool) (significand : Nat) (exponent : Int)
  | infinite (negative : Bool)
  | notANumber

def signed (negative : Bool) (x : Float) : Float := if negative then -x else x

def infinity : Float := Float.ofBits 0x7ff0000000000000

def notANumber : Float := Float.ofBits 0x7ff8000000000000

/-- The sign is applied after rounding, which keeps the sign of zero. -/
def Decimal.toFloat : Decimal → Float
  | .finite negative significand exponent =>
      signed negative (Float.ofScientific significand (exponent < 0) exponent.natAbs)
  | .infinite negative => signed negative infinity
  | .notANumber => Numeral.notANumber

def splitSign : List Char → Bool × List Char
  | '-' :: rest => (true, rest)
  | '+' :: rest => (false, rest)
  | rest => (false, rest)

def readExponent : List Char → Option Int
  | [] => some 0
  | c :: rest => if c = 'e' ∨ c = 'E' then readInt rest else none

/-- The digits after the point, if a point comes next, and what follows them. -/
def fractionDigits : List Char → List Char × List Char
  | '.' :: rest => (rest.takeWhile Char.isDigit, rest.dropWhile Char.isDigit)
  | rest => ([], rest)

def readUnsigned (negative : Bool) (text : List Char) : Option Decimal :=
  let whole := text.takeWhile Char.isDigit
  let (fraction, rest) := fractionDigits (text.dropWhile Char.isDigit)
  if whole.isEmpty && fraction.isEmpty then none
  else (readExponent rest).map fun exponent =>
    .finite negative (natOfDigits (whole ++ fraction)) (exponent - fraction.length)

def readSpecial (negative : Bool) (text : List Char) : Option Decimal :=
  let name := String.ofList (text.map Char.toLower)
  if name = "inf" ∨ name = "infinity" then some (.infinite negative)
  else if name = "nan" then some .notANumber
  else none

def readDecimal (text : List Char) : Option Decimal :=
  let (negative, rest) := splitSign text
  (readSpecial negative rest).or (readUnsigned negative rest)

def readFloat (text : String) : Option Float :=
  (readDecimal text.toList).map Decimal.toFloat

def readFinite (text : String) : Option Float :=
  (readFloat text).filter Float.isFinite

end ConeFilter.Numeral
