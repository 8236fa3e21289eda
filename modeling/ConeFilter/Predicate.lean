import ConeFilter.Value

/-!
Predicates: the typed conditions that a data store evaluates for every row.
An operand is a value, a field of the row or arithmetic over operands that
has to wait for the row. A predicate compares operands, tests one for null or
for membership in a list of values, or combines predicates.
-/
namespace ConeFilter

inductive Operand where
  | literal (value : Value)
  | field (name : String)
  | binary (op : ArithOp) (left right : Operand)
  | negation (operand : Operand)
deriving BEq, Inhabited

inductive CompareOp where
  | equal
  | less
  | lessEqual
  | greater
  | greaterEqual
  -- Containment of text, without regard to case.
  | contains
deriving DecidableEq, Inhabited

inductive Predicate where
  | compare (op : CompareOp) (left right : Operand)
  | isNull (operand : Operand) (expected : Bool)
  | and (left right : Predicate)
  | or (left right : Predicate)
  | not (inner : Predicate)
  | member (operand : Operand) (values : List Value)
deriving BEq, Inhabited

namespace Operand

def literal? : Operand → Option Value
  | .literal value => some value
  | _ => none

def isExpression : Operand → Bool
  | .binary _ _ _ | .negation _ => true
  | .literal _ | .field _ => false

end Operand

namespace CompareOp

def symbol : CompareOp → String
  | .equal => "="
  | .less => "<"
  | .lessEqual => "<="
  | .greater => ">"
  | .greaterEqual => ">="
  | .contains => "ICONTAINS"

end CompareOp

/-! The written form. Binary arithmetic, conjunction and disjunction always
stand in parentheses, so no rule of precedence is needed to read it. -/

def Operand.render : Operand → String
  | .literal value => value.render
  | .field name => name
  | .binary op left right => "(" ++ left.render ++ " " ++ op.symbol ++ " " ++ right.render ++ ")"
  | .negation operand => "-" ++ operand.render

def renderValues (values : List Value) : String :=
  "(" ++ String.intercalate ", " (values.map Value.render) ++ ")"

def Predicate.render : Predicate → String
  | .compare op left right => left.render ++ " " ++ op.symbol ++ " " ++ right.render
  | .isNull operand true => operand.render ++ " IS NULL"
  | .isNull operand false => operand.render ++ " IS NOT NULL"
  | .and left right => "(" ++ left.render ++ " AND " ++ right.render ++ ")"
  | .or left right => "(" ++ left.render ++ " OR " ++ right.render ++ ")"
  | .not inner => "NOT (" ++ inner.render ++ ")"
  | .member operand values => operand.render ++ " IN " ++ renderValues values

/-! Fields, first with every occurrence from left to right, then as a set in
strictly increasing order. -/

def Operand.fields : Operand → List String
  | .literal _ => []
  | .field name => [name]
  | .binary _ left right => left.fields ++ right.fields
  | .negation operand => operand.fields

def Predicate.fields : Predicate → List String
  | .compare _ left right => left.fields ++ right.fields
  | .isNull operand _ => operand.fields
  | .and left right => left.fields ++ right.fields
  | .or left right => left.fields ++ right.fields
  | .not inner => inner.fields
  | .member operand _ => operand.fields

def insertName (name : String) : List String → List String
  | [] => [name]
  | other :: rest =>
      if name < other then name :: other :: rest
      else if name = other then other :: rest
      else other :: insertName name rest

def Predicate.referencedFields (predicate : Predicate) : List String :=
  predicate.fields.foldr insertName []

end ConeFilter
