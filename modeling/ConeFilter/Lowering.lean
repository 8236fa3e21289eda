import ConeFilter.Node
import ConeFilter.Sql.Dialect
import ConeFilter.Sql.Render

/-!
From expressions to trees. Every form with a counterpart becomes that node
over the lowered parts; every other form becomes one node that holds its text.
A plus sign leaves nothing behind, and negated forms become a NOT around the
plain one.
-/
namespace ConeFilter

open Sql

/-! Numbers lose their separators. A run of digits is an integer, and a point
or an exponent makes a decimal. -/

def withoutSeparators (digits : String) : String :=
  String.ofList (digits.toList.filter (· != '_'))

def numberKind (digits : String) : LiteralKind :=
  if !digits.isEmpty && digits.toList.all Char.isDigit then .integer else .decimal

def lowerLiteral : Literal → Node
  | .number digits _ =>
      let stripped := withoutSeparators digits
      .literal (numberKind stripped) stripped
  | .string _ content => .literal .string content
  | .national content => .literal .string content
  | .escaped content => .literal .string content
  | .null => .null
  | .verbatim text => .literal .other text

/-! One name in double quotes is a text; all other names are columns. -/

def lowerName (name : Identifier) : Node :=
  if name.quote = some Dialect.doubleQuote then .quoted [name.name] else .column [name.name]

def lowerOperator : BinaryOp → Option (Node → Node → Node)
  | .and => some (.connect .and)
  | .or => some (.connect .or)
  | .equal => some (.equality .equal)
  | .unequal => some (.equality .unequal)
  | .less => some (.relate .less)
  | .lessEqual => some (.relate .lessEqual)
  | .greater => some (.relate .greater)
  | .greaterEqual => some (.relate .greaterEqual)
  | .plus => some (.arithmetic .add)
  | .minus => some (.arithmetic .sub)
  | .times => some (.arithmetic .mul)
  | .divide => some (.arithmetic .div)
  | .matches _ => some (.relate .matches)
  | .matchesNot _ => some fun left right => .not (.relate .matches left right)
  | .like _ | .other _ => none

def negateIf (negated : Bool) (node : Node) : Node := if negated then .not node else node

def keepText (expr : Expr) : Node := .unsupported expr.render

mutual

def lower : Expr → Node
  | .identifier name => lowerName name
  | .path [name] => lowerName name
  | .path names => .column (names.map Identifier.name)
  | .literal value => lowerLiteral value
  | .nested inner => .nested (lower inner)
  | .unary .minus operand => .negate (lower operand)
  | .unary .plus operand => lower operand
  | .unary .not operand => .not (lower operand)
  | .binary op left right =>
      match lowerOperator op with
      | some join => join (lower left) (lower right)
      | none => keepText (.binary op left right)
  | .isNull operand => .equality .is (lower operand) .null
  | .isNotNull operand => .equality .unequal (lower operand) .null
  | .between negated subject low high =>
      negateIf negated (.between (lower subject) (lower low) (lower high))
  | .inList negated subject elements =>
      negateIf negated (.member (lower subject) (lowerList elements))
  | .regexp negated _ subject pattern =>
      negateIf negated (.relate .matches (lower subject) (lower pattern))
  | .call braced name parameters arguments clauses =>
      match lowerArguments arguments with
      | some lowered => .call (renderPath name) lowered
      | none => keepText (.call braced name parameters arguments clauses)
  | other => keepText other

def lowerList : List Expr → List Node
  | [] => []
  | element :: rest => lower element :: lowerList rest

/-- A call is its name and the values among its arguments. Clauses are not looked at. -/
def lowerArguments : Arguments → Option (List Node)
  | .absent => some []
  | .selection _ => none
  | .list _ values _ => lowerValues values

/-- Stars and named arguments have no counterpart, and then neither has the call. -/
def lowerValues : List Expr → Option (List Node)
  | [] => some []
  | .star _ :: _ => none
  | .named _ _ :: _ => none
  | value :: rest => (lowerValues rest).map (lower value :: ·)

end

end ConeFilter
