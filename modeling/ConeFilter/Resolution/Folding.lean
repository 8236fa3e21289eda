import ConeFilter.Resolution.Failure

/-!
Arithmetic on resolved operands. What can be computed now is computed; what
needs the row, or has no result, stays an expression. Two literals have to be
numbers, while a literal beside a field is not looked at.
-/
namespace ConeFilter

namespace Operand

def requireNumeric (value : Value) : Except Failure Unit :=
  if value.isNumeric then .ok () else .error (.invalidLiteral value.render)

def combine (op : ArithOp) : Operand → Operand → Except Failure Operand
  | .literal left, .literal right => do
      requireNumeric left
      requireNumeric right
      match Value.compute? op left right with
      | some folded => pure (.literal folded)
      | none => pure (.binary op (.literal left) (.literal right))
  | left, right => pure (.binary op left right)

def negate : Operand → Except Failure Operand
  | .literal value =>
      if value.isNumeric then
        match value.negate? with
        | some negated => pure (.literal negated)
        | none => pure (.negation (.literal value))
      else .error (.invalidLiteral ("-" ++ value.render))
  | operand => pure (.negation operand)

end Operand

end ConeFilter
