import ConeFilter.Cone
import ConeFilter.Resolution.Folding
import ConeFilter.Resolution.Literal
import ConeFilter.Resolution.Path

/-!
The pass over an expression tree. It goes from left to right and depth first,
finishes with a child before it looks at the next, and stops at the first
failure. Beside its result it accumulates the cones met so far, which number
the slots, and the events, which outlive a failure.
-/
namespace ConeFilter

inductive Resolved where
  | operand (operand : Operand)
  | condition (predicate : Predicate)
deriving BEq, Inhabited

namespace Resolved

def toOperand : Resolved → Except Failure Operand
  | .operand value => .ok value
  | .condition predicate => .error (.misuse (.conditionAsValue predicate))

def toPredicate : Resolved → Except Failure Predicate
  | .condition predicate => .ok predicate
  | .operand value => .error (.misuse (.valueAsCondition value))

/-- Items of a list have to be known before any row is seen. -/
def toListed : Resolved → Except Failure Value
  | .operand (.literal value) => .ok value
  | .operand value => .error (.invalidLiteral value.render)
  | .condition predicate => .error (.misuse (.conditionAsValue predicate))

def toConeArgument (argument : ConeArgument) : Resolved → Except Failure Float
  | .operand (.literal value) =>
      match value.toFloat? with
      | some number => .ok number
      | none => .error (.coneArgument argument)
  | _ => .error (.coneArgument argument)

def negate : Resolved → Except Failure Resolved
  | .operand value => (value.negate).map .operand
  | .condition predicate => .error (.misuse (.negatedCondition predicate))

end Resolved

structure Progress where
  cones : List Cone := []
  events : List Event := []

abbrev Pass := ExceptT Failure (StateM Progress)

namespace Pass

def emit (event : Event) : Pass Unit :=
  modify fun progress => { progress with events := progress.events ++ [event] }

def require {α : Type} (outcome : Except Failure α) : Pass α := ExceptT.mk (pure outcome)

def column (scope : Scope) (path : List String) : Pass String := do
  let (outcome, events) := scope.column path
  modify fun progress => { progress with events := progress.events ++ events }
  require outcome

/-- The slot is named after the number of cones before it. -/
def recordCone (cone : Cone) : Pass Predicate := do
  let index := (← get).cones.length
  modify fun progress => { progress with cones := progress.cones ++ [cone] }
  emit (.coneRecorded index)
  pure (.compare .equal (.field (Cone.slotName index)) (.literal (.bool true)))

end Pass

def Relation.compareOp : Relation → CompareOp
  | .less => .less
  | .lessEqual => .lessEqual
  | .greater => .greater
  | .greaterEqual => .greaterEqual
  | .matches => .contains

def Connective.join : Connective → Predicate → Predicate → Predicate
  | .and => .and
  | .or => .or

/-- Whether the operator holds of equal operands. -/
def Equality.positive : Equality → Bool
  | .equal | .is => true
  | .unequal => false

def Equality.compare (op : Equality) (left right : Operand) : Predicate :=
  if op.positive then .compare .equal left right else .not (.compare .equal left right)

def isConeName (name : String) : Bool := name.toList.map Char.toLower == "cone".toList

mutual

def Node.resolve (scope : Scope) : Node → Pass Resolved
  | .literal kind raw => do return .operand (.literal (← Pass.require (typeLiteral kind raw)))
  | .column path => do return .operand (.field (← Pass.column scope path))
  | .quoted path =>
      match path.getLast? with
      | some identifier => pure (.operand (.literal (.text identifier)))
      | none => throw (.misuse .emptyIdentifier)
  | .null => throw (.misuse (.noCounterpart Node.null.label))
  | .negate (.literal kind raw) =>
      if kind = .string then do
        let value ← Pass.require (typeLiteral kind raw)
        Pass.require (Resolved.operand (.literal value)).negate
      else do return .operand (.literal (← Pass.require (typeNegative kind raw)))
  | .negate operand => do
      let resolved ← operand.resolve scope
      Pass.require resolved.negate
  | .not condition => do
      let inner ← Pass.require (← condition.resolve scope).toPredicate
      return .condition (.not inner)
  | .nested inner => inner.resolve scope
  | .connect op left right => do
      let left ← Pass.require (← left.resolve scope).toPredicate
      let right ← Pass.require (← right.resolve scope).toPredicate
      return .condition (op.join left right)
  | .equality op left .null => do
      let left ← Pass.require (← left.resolve scope).toOperand
      return .condition (.isNull left op.positive)
  | .equality op left right => do
      let left ← Pass.require (← left.resolve scope).toOperand
      let right ← Pass.require (← right.resolve scope).toOperand
      return .condition (op.compare left right)
  | .relate op left right => do
      let left ← Pass.require (← left.resolve scope).toOperand
      let right ← Pass.require (← right.resolve scope).toOperand
      return .condition (.compare op.compareOp left right)
  | .arithmetic op left right => do
      let left ← Pass.require (← left.resolve scope).toOperand
      let right ← Pass.require (← right.resolve scope).toOperand
      return .operand (← Pass.require (Operand.combine op left right))
  | .between subject low high => do
      let subject ← Pass.require (← subject.resolve scope).toOperand
      let low ← Pass.require (← low.resolve scope).toOperand
      let high ← Pass.require (← high.resolve scope).toOperand
      return .condition (.and (.compare .greaterEqual subject low) (.compare .lessEqual subject high))
  | .member subject items => do
      let subject ← Pass.require (← subject.resolve scope).toOperand
      let values ← Node.resolveItems scope items
      return .condition (.member subject values)
  | .call name arguments =>
      if isConeName name then
        match arguments with
        | [ra, dec, radius] => do
            let ra ← Pass.require ((← ra.resolve scope).toConeArgument .ra)
            let dec ← Pass.require ((← dec.resolve scope).toConeArgument .dec)
            let radius ← Pass.require ((← radius.resolve scope).toConeArgument .radius)
            return .condition (← Pass.recordCone { ra, dec, radius })
        | _ => throw (.coneArity arguments.length)
      else throw (.misuse (.noCounterpart (Node.call name arguments).label))
  | .unsupported text => throw (.misuse (.noCounterpart (Node.unsupported text).label))

def Node.resolveItems (scope : Scope) : List Node → Pass (List Value)
  | [] => pure []
  | item :: rest => do
      let value ← Pass.require (← item.resolve scope).toListed
      let values ← Node.resolveItems scope rest
      return value :: values

end

/-! A whole pass: what came out of the tree, with the cones beside it, and
every event between its start and its end. -/

structure Resolution where
  value : Resolved
  extra : Extra
deriving BEq, Inhabited

namespace Scope

def resolve (scope : Scope) (node : Node) : Except Failure Resolution × List Event :=
  let (outcome, progress) := (node.resolve scope).run.run {}
  match outcome with
  | .ok value =>
      (.ok { value, extra := { cones := progress.cones } },
        .started scope.model :: progress.events ++ [.finished scope.model progress.cones.length])
  | .error failure =>
      (.error failure,
        .started scope.model :: progress.events ++ [.failed scope.model failure.kind])

end Scope

end ConeFilter
