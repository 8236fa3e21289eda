import ConeFilter.Resolution.Pass

/-!
Passes that return. A pass runs from some progress to some later progress, and
`Returns` says that it does so with a result. Every step of a pass has a law
that says when it returns and with what: a sequence returns when its parts do,
a check when it lets the result through, and a child that is resolved for its
parent when it has the sort that the parent needs.
-/
namespace ConeFilter

section Running
variable {α β : Type}

def Pass.runFrom (pass : Pass α) (before : Progress) : Except Failure α × Progress :=
  pass.run.run before

def Pass.Returns (pass : Pass α) (before : Progress) (result : α) (after : Progress) : Prop :=
  pass.runFrom before = (.ok result, after)

namespace Pass

theorem runFrom_bind (pass : Pass α) (next : α → Pass β) (before : Progress) :
    (pass >>= next).runFrom before = match pass.runFrom before with
      | (.ok value, between) => (next value).runFrom between
      | (.error failure, between) => (.error failure, between) := by
  unfold runFrom
  simp only [ExceptT.run_bind, StateT.run_bind]
  rcases pass.run.run before with ⟨_ | _, _⟩ <;> rfl

theorem returns_bind (pass : Pass α) (next : α → Pass β) (before after : Progress) (result : β) :
    (pass >>= next).Returns before result after ↔ ∃ value between,
      pass.Returns before value between ∧ (next value).Returns between result after := by
  unfold Returns
  rw [runFrom_bind]
  rcases pass.runFrom before with ⟨failure | value, between⟩ <;> simp [and_assoc]

theorem returns_pure (value result : α) (before after : Progress) :
    (pure value : Pass α).Returns before result after ↔ result = value ∧ after = before := by
  change ((Except.ok value : Except Failure α), before) = (.ok result, after) ↔ _
  simp [eq_comm]

theorem returns_throw (failure : Failure) (result : α) (before after : Progress) :
    ¬ (throw failure : Pass α).Returns before result after := by
  change ¬ ((Except.error failure : Except Failure α), before) = (.ok result, after)
  simp

theorem returns_require (outcome : Except Failure α) (result : α) (before after : Progress) :
    (require outcome).Returns before result after ↔ outcome = .ok result ∧ after = before := by
  change (outcome, before) = (.ok result, after) ↔ _
  simp [eq_comm]

end Pass

end Running

namespace Progress

def extend (progress : Progress) (cones : List Cone) (events : List Event) : Progress :=
  { cones := progress.cones ++ cones, events := progress.events ++ events }

@[simp] theorem extend_cones (progress : Progress) (cones : List Cone) (events : List Event) :
    (progress.extend cones events).cones = progress.cones ++ cones := rfl

theorem extend_extend (progress : Progress) (cones later : List Cone)
    (events rest : List Event) : (progress.extend cones events).extend later rest =
      progress.extend (cones ++ later) (events ++ rest) := by
  simp [extend, List.append_assoc]

theorem extend_nothing (progress : Progress) : progress.extend [] [] = progress := by
  simp [extend]

end Progress

namespace Pass

theorem runFrom_column (scope : Scope) (path : List String) (before : Progress) :
    (column scope path).runFrom before =
      ((scope.column path).1, before.extend [] (scope.column path).2) := by
  simp only [Progress.extend, List.append_nil]
  rfl

theorem returns_column (scope : Scope) (path : List String) (name : String)
    (before after : Progress) : (column scope path).Returns before name after ↔
      Scope.walk scope.catalog scope.model path = .ok () ∧ name = Scope.flatten path ∧
        after = before.extend [] [.fieldResolved (path.length - 1)] := by
  rw [Returns, runFrom_column, Scope.column]
  cases walked : Scope.walk scope.catalog scope.model path <;> simp [eq_comm]

theorem returns_recordCone (cone : Cone) (predicate : Predicate) (before after : Progress) :
    (recordCone cone).Returns before predicate after ↔
      predicate = .compare .equal (.field (Cone.slotName before.cones.length))
        (.literal (.bool true)) ∧
      after = before.extend [cone] [.coneRecorded before.cones.length] := by
  change ((Except.ok (.compare .equal (.field (Cone.slotName before.cones.length))
    (.literal (.bool true))) : Except Failure Predicate),
      before.extend [cone] [.coneRecorded before.cones.length]) = (.ok predicate, after) ↔ _
  simp [eq_comm]

end Pass

/-! What the checks between two steps of a pass let through. -/

namespace Resolved

theorem toOperand_ok (resolved : Resolved) (operand : Operand) :
    resolved.toOperand = .ok operand ↔ resolved = .operand operand := by
  cases resolved <;> simp [toOperand]

theorem toPredicate_ok (resolved : Resolved) (predicate : Predicate) :
    resolved.toPredicate = .ok predicate ↔ resolved = .condition predicate := by
  cases resolved <;> simp [toPredicate]

theorem toListed_ok (resolved : Resolved) (value : Value) :
    resolved.toListed = .ok value ↔ resolved = .operand (.literal value) := by
  cases resolved with
  | operand operand => cases operand <;> simp [toListed]
  | condition predicate => simp [toListed]

theorem toConeArgument_ok (argument : ConeArgument) (resolved : Resolved) (number : Float) :
    resolved.toConeArgument argument = .ok number ↔
      ∃ value, resolved = .operand (.literal value) ∧ value.toFloat? = some number := by
  cases resolved with
  | operand operand =>
      cases operand with
      | literal value => cases read : value.toFloat? <;> simp [toConeArgument, read]
      | _ => simp [toConeArgument]
  | condition predicate => simp [toConeArgument]

theorem negate_ok (resolved negated : Resolved) : resolved.negate = .ok negated ↔
    ∃ operand result, resolved = .operand operand ∧ operand.negate = .ok result ∧
      negated = .operand result := by
  cases resolved with
  | operand operand =>
      cases outcome : operand.negate <;> simp [negate, outcome, Except.map, eq_comm]
  | condition predicate => simp [negate]

end Resolved

theorem typeLiteral_ok (kind : LiteralKind) (raw : String) (value : Value) :
    typeLiteral kind raw = .ok value ↔ kind.read? raw = some value := by
  unfold typeLiteral
  cases kind.read? raw <;> simp

theorem typeNegative_ok (kind : LiteralKind) (raw : String) (value : Value) :
    typeNegative kind raw = .ok value ↔ kind.readNegative? raw = some value := by
  unfold typeNegative
  cases kind.readNegative? raw <;> simp

/-! A child is resolved and then checked for the sort that its parent needs, so
a step that returns went through a result of that sort. -/

section Checking
variable {α β γ : Type}

theorem Pass.returns_checked (pass : Pass α) (check : α → Except Failure β) (embed : β → α)
    (passes : ∀ value checked, check value = .ok checked ↔ value = embed checked)
    (next : β → Pass γ) (result : γ) (before after : Progress) :
    (pass >>= fun value => require (check value) >>= next).Returns before result after ↔
      ∃ checked between, pass.Returns before (embed checked) between ∧
        (next checked).Returns between result after := by
  simp only [returns_bind, returns_require, passes]
  constructor
  · rintro ⟨_, _, returned, checked, between, ⟨rfl, rfl⟩, continued⟩
    exact ⟨checked, between, returned, continued⟩
  · rintro ⟨checked, between, returned, continued⟩
    exact ⟨embed checked, between, returned, checked, between, ⟨rfl, rfl⟩, continued⟩

namespace Node
variable (scope : Scope) (node : Node) (result : γ) (before after : Progress)

theorem returns_operand (next : Operand → Pass γ) :
    (node.resolve scope >>= fun resolved => Pass.require resolved.toOperand >>= next).Returns
        before result after ↔
      ∃ operand between, (node.resolve scope).Returns before (.operand operand) between ∧
        (next operand).Returns between result after :=
  Pass.returns_checked _ _ Resolved.operand Resolved.toOperand_ok next result before after

theorem returns_predicate (next : Predicate → Pass γ) :
    (node.resolve scope >>= fun resolved => Pass.require resolved.toPredicate >>= next).Returns
        before result after ↔
      ∃ predicate between, (node.resolve scope).Returns before (.condition predicate) between ∧
        (next predicate).Returns between result after :=
  Pass.returns_checked _ _ Resolved.condition Resolved.toPredicate_ok next result before after

theorem returns_listed (next : Value → Pass γ) :
    (node.resolve scope >>= fun resolved => Pass.require resolved.toListed >>= next).Returns
        before result after ↔
      ∃ value between, (node.resolve scope).Returns before (.operand (.literal value)) between ∧
        (next value).Returns between result after :=
  Pass.returns_checked _ _ (fun value => Resolved.operand (.literal value)) Resolved.toListed_ok
    next result before after

/-- Two values of different kinds may measure the same number, so no value is recovered from it. -/
theorem returns_measured (argument : ConeArgument) (next : Float → Pass γ) :
    (node.resolve scope >>= fun resolved =>
        Pass.require (resolved.toConeArgument argument) >>= next).Returns before result after ↔
      ∃ value number between, (node.resolve scope).Returns before (.operand (.literal value))
        between ∧ value.toFloat? = some number ∧ (next number).Returns between result after := by
  simp only [Pass.returns_bind, Pass.returns_require, Resolved.toConeArgument_ok]
  constructor
  · rintro ⟨_, _, returned, number, between, ⟨⟨value, rfl, numeric⟩, rfl⟩, continued⟩
    exact ⟨value, number, between, returned, numeric, continued⟩
  · rintro ⟨value, number, between, returned, numeric, continued⟩
    exact ⟨_, between, returned, number, between, ⟨⟨value, rfl, numeric⟩, rfl⟩, continued⟩

end Node

end Checking

/-! Where two rows of the pass match the same node, the later one applies when the
earlier does not. -/

namespace Node

theorem resolve_negate (scope : Scope) (operand : Node)
    (unread : ∀ kind raw, operand ≠ .literal kind raw) : (negate operand).resolve scope =
      operand.resolve scope >>= fun resolved => Pass.require resolved.negate := by
  cases operand with
  | literal kind raw => exact absurd rfl (unread kind raw)
  | _ => rfl

theorem resolve_equality (scope : Scope) (op : Equality) (left right : Node)
    (present : right ≠ .null) : (equality op left right).resolve scope = (do
      let left ← Pass.require (← left.resolve scope).toOperand
      let right ← Pass.require (← right.resolve scope).toOperand
      return .condition (op.compare left right)) := by
  cases right with
  | null => exact absurd rfl present
  | _ => rfl

end Node

end ConeFilter
