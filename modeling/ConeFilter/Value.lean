import ConeFilter.Numeral.Decimal
import ConeFilter.Numeral.Layout

/-!
Values that a filter compares and computes with: text, words, doubles and
truth values. Arithmetic is defined on numbers alone and only where its result
is exact in kind: words stay words while they fit, and a double has to come
out finite.
-/
namespace ConeFilter

inductive Value where
  | text (content : String)
  | int (word : Int64)
  | float (number : Float)
  | bool (truth : Bool)
deriving BEq, Inhabited

inductive ArithOp where
  | add
  | sub
  | mul
  | div
deriving DecidableEq, Inhabited

namespace Value

def wordToFloat (word : Int64) : Float := Float.ofInt word.toInt

def isNumeric : Value → Bool
  | .int _ | .float _ => true
  | .text _ | .bool _ => false

def toFloat? : Value → Option Float
  | .int word => some (wordToFloat word)
  | .float number => some number
  | .text _ | .bool _ => none

def ofInt? (n : Int) : Option Value := (Numeral.exactWord n).map .int

/-! Negation and the four operations. The least word has no negation. -/

def negate? : Value → Option Value
  | .int word => ofInt? (-word.toInt)
  | .float number => some (.float (-number))
  | .text _ | .bool _ => none

end Value

namespace ArithOp

/-- Division truncates toward zero. -/
def onInt : ArithOp → Int → Int → Option Int
  | .add, a, b => some (a + b)
  | .sub, a, b => some (a - b)
  | .mul, a, b => some (a * b)
  | .div, a, b => if b = 0 then none else some (a.tdiv b)

def onFloat : ArithOp → Float → Float → Option Float
  | .add, a, b => some (a + b)
  | .sub, a, b => some (a - b)
  | .mul, a, b => some (a * b)
  | .div, a, b => if b == 0 then none else some (a / b)

def symbol : ArithOp → String
  | .add => "+"
  | .sub => "-"
  | .mul => "*"
  | .div => "/"

end ArithOp

namespace Value

/-- Two words are computed exactly; any other two numbers as doubles. -/
def compute? (op : ArithOp) : Value → Value → Option Value
  | .int a, .int b => (op.onInt a.toInt b.toInt).bind ofInt?
  | left, right => do
      let a ← left.toFloat?
      let b ← right.toFloat?
      let result ← op.onFloat a b
      if result.isFinite then some (.float result) else none

/-! The written form. Text stands in single quotes with its own quotes
doubled, and a double always shows a point or an exponent. -/

def layout : Numeral.Layout :=
  { positionalFrom := -4
    positionalBefore := 16
    infinite := "inf"
    notANumber := "NaN" }

def doubleQuotes : List Char → List Char
  | [] => []
  | c :: rest => if c = '\'' then '\'' :: '\'' :: doubleQuotes rest else c :: doubleQuotes rest

def quoted (content : String) : String :=
  "'" ++ String.ofList (doubleQuotes content.toList) ++ "'"

def floatText (number : Float) : String := layout.text number

def render : Value → String
  | .text content => quoted content
  | .int word => Numeral.wordText word
  | .float number => floatText number
  | .bool true => "TRUE"
  | .bool false => "FALSE"

end Value

end ConeFilter
