/-!
Integer text. A natural number is a nonempty run of the ten ASCII digits, an
integer is a natural number behind at most one sign. Nothing else is read: no
blank, no separator, no other script's digits. Words of 64 bits are integers
in range, and a numeral out of range is refused rather than wrapped.
-/
namespace ConeFilter.Numeral

def digitValue (c : Char) : Nat := c.toNat - '0'.toNat

def digitChar (n : Nat) : Char := Char.ofNat ('0'.toNat + n)

/-- Most significant digit first. -/
def natOfDigits (digits : List Char) : Nat :=
  digits.foldl (fun n c => 10 * n + digitValue c) 0

/-! The printed form has no leading zero, and zero is one digit. -/

def digitsOf (n : Nat) : List Char :=
  if n < 10 then [digitChar n] else digitsOf (n / 10) ++ [digitChar (n % 10)]

def natText (n : Nat) : String := String.ofList (digitsOf n)

def intText (n : Int) : String :=
  if n < 0 then "-" ++ natText n.natAbs else natText n.natAbs

def readNat (text : List Char) : Option Nat :=
  if !text.isEmpty && text.all Char.isDigit then some (natOfDigits text) else none

def readInt : List Char → Option Int
  | '-' :: digits => (readNat digits).map fun (n : Nat) => -(n : Int)
  | '+' :: digits => (readNat digits).map Int.ofNat
  | digits => (readNat digits).map Int.ofNat

/-! Words. -/

def inWord (n : Int) : Bool := decide (-0x8000000000000000 ≤ n) && decide (n < 0x8000000000000000)

def exactWord (n : Int) : Option Int64 :=
  if inWord n then some (Int64.ofInt n) else none

def readWord (text : String) : Option Int64 :=
  (readInt text.toList).bind exactWord

def wordText (n : Int64) : String := intText n.toInt

/-! Positions in a list fit an unsigned word. A plus sign is allowed before
one, a minus sign is not, not even before zero. -/

def indexLimit : Nat := 0x10000000000000000

def readIndex : List Char → Option Nat
  | '+' :: digits => (readNat digits).filter (· < indexLimit)
  | digits => (readNat digits).filter (· < indexLimit)

end ConeFilter.Numeral
