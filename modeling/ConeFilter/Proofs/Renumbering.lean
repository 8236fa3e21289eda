import ConeFilter.Proofs.TextOperands

/-!
Trees behind other trees. All that a tree can see of what stands in front of it is
the number of cones there, and it only uses that to name its own slots. So its pass
behind earlier progress is the pass on its own with the slots moved on: in its result,
in the conditions that a failure quotes and in the events. One law for each step of a
pass carries this through the tree.
-/
namespace ConeFilter

/-! Moving slots on. A field that is tested for truth is a slot, for no column is
compared with a truth value; fields anywhere else are left alone, whatever their name. -/

namespace Predicate

def renumber (offset : Nat) : Predicate → Predicate
  | .compare op left right =>
      match (Predicate.compare op left right).slotField?.bind Cone.slotNumber? with
      | some index => slotTest (index + offset)
      | none => .compare op left right
  | .isNull operand expected => .isNull operand expected
  | .and left right => .and (left.renumber offset) (right.renumber offset)
  | .or left right => .or (left.renumber offset) (right.renumber offset)
  | .not inner => .not (inner.renumber offset)
  | .member operand values => .member operand values

theorem renumber_slotTest (offset index : Nat) :
    (slotTest index).renumber offset = slotTest (index + offset) := by
  have numbered := (Cone.slotNumber_eq_some (Cone.slotName index) index).mpr rfl
  simp [slotTest, renumber, slotField?, numbered]

theorem renumber_compare (offset : Nat) (op : CompareOp) (left right : Operand)
    (untrue : right ≠ .literal (.bool true)) :
    (compare op left right).renumber offset = .compare op left right := by
  simp [renumber, slotField_compare op left right untrue]

/-- Only a test of equality can be one of a slot. -/
theorem renumber_relation (offset : Nat) (op : CompareOp) (left right : Operand)
    (ordered : op ≠ .equal) :
    (compare op left right).renumber offset = .compare op left right := by
  cases op with
  | equal => exact absurd rfl ordered
  | _ => rfl

theorem renumber_join (offset : Nat) (op : Connective) (left right : Predicate) :
    (op.join left right).renumber offset =
      op.join (left.renumber offset) (right.renumber offset) := by
  cases op <;> rfl

theorem renumber_equality (offset : Nat) (op : Equality) (left right : Operand)
    (untrue : right ≠ .literal (.bool true)) :
    (op.compare left right).renumber offset = op.compare left right := by
  have fixed := renumber_compare offset .equal left right untrue
  cases op with
  | equal | is => exact fixed
  | unequal => exact congrArg Predicate.not fixed

end Predicate

theorem Relation.compareOp_ne_equal (op : Relation) : op.compareOp ≠ .equal := by
  cases op <;> decide

def Misuse.renumber (offset : Nat) : Misuse → Misuse
  | .negatedCondition condition => .negatedCondition (condition.renumber offset)
  | .conditionAsValue condition => .conditionAsValue (condition.renumber offset)
  | cause => cause

namespace Failure

def renumber (offset : Nat) : Failure → Failure
  | .misuse cause => .misuse (cause.renumber offset)
  | failure => failure

theorem kind_renumber (offset : Nat) (failure : Failure) :
    (failure.renumber offset).kind = failure.kind := by
  cases failure <;> rfl

/-- Failures that quote no condition. -/
def Slotless (failure : Failure) : Prop := ∀ offset, failure.renumber offset = failure

theorem slotless_unknownField (name : String) : (unknownField name).Slotless := fun _ => rfl

theorem slotless_invalidLiteral (literal : String) : (invalidLiteral literal).Slotless :=
  fun _ => rfl

end Failure

def Event.renumber (offset : Nat) : Event → Event
  | .coneRecorded index => .coneRecorded (index + offset)
  | event => event

def Resolved.renumber (offset : Nat) (resolved : Resolved) : Resolved :=
  match resolved with
  | .operand value => .operand value
  | .condition predicate => .condition (predicate.renumber offset)

/-! Outcomes. The checks between two steps of a pass let the same results through, and
their failures are renumbered with the conditions they quote. -/

section Outcomes
variable {α : Type}

/-- An outcome with its result renamed and the conditions in its failure renumbered. -/
def renumberOutcome (offset : Nat) (rename : α → α) : Except Failure α → Except Failure α
  | .ok value => .ok (rename value)
  | .error failure => .error (failure.renumber offset)

theorem renumberOutcome_slotless (offset : Nat) (outcome : Except Failure α)
    (slotless : ∀ failure, outcome = .error failure → failure.Slotless) :
    renumberOutcome offset id outcome = outcome := by
  cases outcome with
  | ok value => rfl
  | error failure => exact congrArg Except.error (slotless failure rfl offset)

end Outcomes

namespace Resolved
variable (offset : Nat) (resolved : Resolved)

theorem toOperand_renumber :
    (resolved.renumber offset).toOperand = renumberOutcome offset id resolved.toOperand := by
  cases resolved <;> rfl

theorem toPredicate_renumber : (resolved.renumber offset).toPredicate =
    renumberOutcome offset (Predicate.renumber offset) resolved.toPredicate := by
  cases resolved <;> rfl

theorem toListed_renumber :
    (resolved.renumber offset).toListed = renumberOutcome offset id resolved.toListed := by
  cases resolved with
  | operand operand => cases operand <;> rfl
  | condition predicate => rfl

theorem toConeArgument_renumber (argument : ConeArgument) :
    (resolved.renumber offset).toConeArgument argument =
      renumberOutcome offset id (resolved.toConeArgument argument) := by
  cases resolved with
  | operand operand =>
      cases operand with
      | literal value =>
          cases read : value.toFloat? <;>
            simp [renumber, toConeArgument, read, renumberOutcome, Failure.renumber]
      | _ => rfl
  | condition predicate => rfl

end Resolved

theorem typeLiteral_slotless (kind : LiteralKind) (raw : String) (failure : Failure)
    (refused : typeLiteral kind raw = .error failure) : failure.Slotless := by
  unfold typeLiteral at refused
  split at refused <;> cases refused
  exact Failure.slotless_invalidLiteral raw

theorem typeNegative_slotless (kind : LiteralKind) (raw : String) (failure : Failure)
    (refused : typeNegative kind raw = .error failure) : failure.Slotless := by
  unfold typeNegative at refused
  split at refused <;> cases refused
  exact Failure.slotless_invalidLiteral _

namespace Operand

theorem combine_slotless (op : ArithOp) (left right : Operand) (failure : Failure)
    (refused : combine op left right = .error failure) : failure.Slotless := by
  by_cases succeeds : ∃ combined, combine op left right = .ok combined
  · obtain ⟨combined, result⟩ := succeeds
    rw [result] at refused
    cases refused
  · rw [combine_succeeds_iff] at succeeds
    push Not at succeeds
    obtain ⟨a, b, rfl, rfl, text⟩ := succeeds
    rw [combine_refuses op a b (fun numeric => text numeric.1 numeric.2)] at refused
    cases refused
    exact Failure.slotless_invalidLiteral _

theorem negate_slotless (operand : Operand) (failure : Failure)
    (refused : operand.negate = .error failure) : failure.Slotless := by
  unfold negate at refused
  split at refused
  · split at refused
    · split at refused <;> cases refused
    · cases refused
      exact Failure.slotless_invalidLiteral _
  · cases refused

end Operand

theorem Resolved.negate_renumber (offset : Nat) (resolved : Resolved) :
    (resolved.renumber offset).negate =
      renumberOutcome offset (Resolved.renumber offset) resolved.negate := by
  cases resolved with
  | operand operand =>
      have slotless := operand.negate_slotless
      cases outcome : operand.negate with
      | ok negated => simp [renumber, negate, outcome, Except.map, renumberOutcome]
      | error failure =>
          simp [renumber, negate, outcome, Except.map, renumberOutcome,
            slotless failure outcome offset]
  | condition predicate => rfl

namespace Scope

theorem walk_slotless (catalog : Catalog) (model : String) (path : List String)
    (failure : Failure) (refused : walk catalog model path = .error failure) :
    failure.Slotless := by
  fun_induction walk catalog model path with
  | case1 =>
      cases refused
      exact fun _ => rfl
  | case2 => cases refused
  | case3 model segment =>
      cases refused
      exact Failure.slotless_unknownField segment
  | case4 _ _ _ _ _ _ ih => exact ih refused
  | case5 model segment =>
      cases refused
      exact Failure.slotless_unknownField segment

/-- Columns have nothing to do with slots, whether they are found or not. -/
theorem column_renumber (scope : Scope) (path : List String) (offset : Nat) :
    renumberOutcome offset id (scope.column path).1 = (scope.column path).1 ∧
      (scope.column path).2.map (Event.renumber offset) = (scope.column path).2 := by
  unfold column
  cases walked : walk scope.catalog scope.model path with
  | ok _ => exact ⟨rfl, rfl⟩
  | error failure =>
      have slotless := walk_slotless _ _ _ _ walked
      exact ⟨congrArg Except.error (slotless offset), rfl⟩

end Scope

/-! Passes behind earlier progress. -/

namespace Progress

/-- The progress of a pass on its own, put behind earlier progress. -/
def behind (progress earlier : Progress) : Progress :=
  earlier.extend progress.cones (progress.events.map (Event.renumber earlier.cones.length))

theorem behind_start (earlier : Progress) : ({} : Progress).behind earlier = earlier :=
  earlier.extend_nothing

theorem extend_behind (progress earlier : Progress) (cones : List Cone) (events : List Event) :
    (progress.extend cones events).behind earlier =
      (progress.behind earlier).extend cones
        (events.map (Event.renumber earlier.cones.length)) := by
  simp [behind, extend]

end Progress

namespace Pass

section Shifting
variable {α β γ : Type} {earlier : Progress}

/-- Behind earlier progress the later pass does what the pass does on its own, with its slots
moved on by the cones of that progress. -/
def Shifts (earlier : Progress) (rename : α → α) (pass later : Pass α) : Prop :=
  ∀ before : Progress, later.runFrom (before.behind earlier) =
    (renumberOutcome earlier.cones.length rename (pass.runFrom before).1,
      (pass.runFrom before).2.behind earlier)

theorem shifts_pure (rename : α → α) (value : α) :
    (pure value : Pass α).Shifts earlier rename (pure (rename value)) := fun _ => rfl

theorem shifts_throw (rename : α → α) {failure : Failure} (slotless : failure.Slotless) :
    (throw failure : Pass α).Shifts earlier rename (throw failure) := by
  intro before
  change ((Except.error failure : Except Failure α), before.behind earlier) =
    (Except.error (failure.renumber earlier.cones.length), before.behind earlier)
  rw [slotless]

theorem shifts_require (rename : α → α) (outcome : Except Failure α) :
    (require outcome).Shifts earlier rename
      (require (renumberOutcome earlier.cones.length rename outcome)) := fun _ => rfl

theorem shifts_slotless {outcome : Except Failure α}
    (slotless : ∀ failure, outcome = .error failure → failure.Slotless) :
    (require outcome).Shifts earlier id (require outcome) := by
  have required : (require outcome).Shifts earlier id
      (require (renumberOutcome earlier.cones.length id outcome)) := shifts_require id outcome
  rwa [renumberOutcome_slotless _ outcome slotless] at required

theorem shifts_negate (resolved : Resolved) :
    (require resolved.negate).Shifts earlier (Resolved.renumber earlier.cones.length)
      (require (resolved.renumber earlier.cones.length).negate) := by
  rw [Resolved.negate_renumber]
  exact shifts_require _ resolved.negate

/-- The rest of a pass only has to be known for what the first part can return. -/
theorem shifts_bind {rename : α → α} {renew : β → β} {pass later : Pass α}
    {next following : α → Pass β} (first : pass.Shifts earlier rename later)
    (rest : ∀ value before after, pass.Returns before value after →
      (next value).Shifts earlier renew (following (rename value))) :
    (pass >>= next).Shifts earlier renew (later >>= following) := by
  intro before
  have begun := first before
  have continued := fun value after => rest value before after
  rw [runFrom_bind, runFrom_bind, begun]
  unfold Returns at continued
  generalize pass.runFrom before = outcome at continued ⊢
  rcases outcome with ⟨failure | value, between⟩
  · -- The rest of either pass is never run.
    rfl
  · exact continued value between rfl between

theorem shifts_checked {rename : α → α} {renew : β → β} {pass later : Pass α}
    {next following : γ → Pass β} (child : pass.Shifts earlier rename later)
    (check : α → Except Failure γ) (rechecked : γ → γ)
    (renamed : ∀ value, check (rename value) =
      renumberOutcome earlier.cones.length rechecked (check value))
    (rest : ∀ value checked before after, pass.Returns before value after →
      check value = .ok checked → (next checked).Shifts earlier renew
        (following (rechecked checked))) :
    (pass >>= fun value => require (check value) >>= next).Shifts earlier renew
      (later >>= fun value => require (check value) >>= following) := by
  apply shifts_bind child
  intro value before after returned
  rw [renamed]
  apply shifts_bind (shifts_require rechecked (check value))
  intro checked _ _ passed
  exact rest value checked before after returned ((returns_require _ _ _ _).mp passed).1

theorem shifts_column (scope : Scope) (path : List String) :
    (column scope path).Shifts earlier id (column scope path) := by
  intro before
  obtain ⟨outcome, events⟩ := scope.column_renumber path earlier.cones.length
  rw [runFrom_column, runFrom_column, Progress.extend_behind, outcome, events]

theorem shifts_recordCone (cone : Cone) :
    (recordCone cone).Shifts earlier (Predicate.renumber earlier.cones.length)
      (recordCone cone) := by
  intro before
  have ran : ∀ progress : Progress, (recordCone cone).runFrom progress =
      (.ok (Predicate.slotTest progress.cones.length),
        progress.extend [cone] [.coneRecorded progress.cones.length]) := fun _ => rfl
  have counted : (before.behind earlier).cones.length =
      before.cones.length + earlier.cones.length := by
    rw [Progress.behind, Progress.extend_cones, List.length_append, Nat.add_comm]
  rw [ran, ran, counted, Progress.extend_behind, renumberOutcome, Predicate.renumber_slotTest]
  rfl

end Shifting

end Pass

namespace Node
variable {scope : Scope} {earlier : Progress}

def Shifts (scope : Scope) (earlier : Progress) (node : Node) : Prop :=
  (node.resolve scope).Shifts earlier (Resolved.renumber earlier.cones.length)
    (node.resolve scope)

section Children
variable {β : Type} {renew : β → β}

theorem shifts_operand {node : Node} (child : node.Shifts scope earlier)
    {next : Operand → Pass β} (rest : ∀ operand, (∃ events, Denotes scope node operand events) →
      (next operand).Shifts earlier renew (next operand)) :
    (node.resolve scope >>= fun resolved => Pass.require resolved.toOperand >>= next).Shifts
      earlier renew
      (node.resolve scope >>= fun resolved => Pass.require resolved.toOperand >>= next) := by
  apply Pass.shifts_checked child Resolved.toOperand id (Resolved.toOperand_renumber _)
  intro resolved operand before after returned checked
  rw [(Resolved.toOperand_ok _ _).mp checked] at returned
  obtain ⟨events, denoted, -⟩ := (returns_iff scope node before after _).mp returned
  exact rest operand ⟨events, denoted⟩

theorem shifts_predicate {node : Node} (child : node.Shifts scope earlier)
    {next following : Predicate → Pass β} (rest : ∀ predicate, (next predicate).Shifts
      earlier renew (following (predicate.renumber earlier.cones.length))) :
    (node.resolve scope >>= fun resolved => Pass.require resolved.toPredicate >>= next).Shifts
      earlier renew
      (node.resolve scope >>= fun resolved => Pass.require resolved.toPredicate >>= following) :=
  Pass.shifts_checked child Resolved.toPredicate _ (Resolved.toPredicate_renumber _)
    fun _ predicate _ _ _ _ => rest predicate

theorem shifts_listed {node : Node} (child : node.Shifts scope earlier)
    {next : Value → Pass β} (rest : ∀ value, (next value).Shifts earlier renew (next value)) :
    (node.resolve scope >>= fun resolved => Pass.require resolved.toListed >>= next).Shifts
      earlier renew
      (node.resolve scope >>= fun resolved => Pass.require resolved.toListed >>= next) :=
  Pass.shifts_checked child Resolved.toListed id (Resolved.toListed_renumber _)
    fun _ value _ _ _ _ => rest value

theorem shifts_measured {node : Node} (child : node.Shifts scope earlier)
    (argument : ConeArgument) {next : Float → Pass β}
    (rest : ∀ number, (next number).Shifts earlier renew (next number)) :
    (node.resolve scope >>= fun resolved =>
        Pass.require (resolved.toConeArgument argument) >>= next).Shifts earlier renew
      (node.resolve scope >>= fun resolved =>
        Pass.require (resolved.toConeArgument argument) >>= next) :=
  Pass.shifts_checked child (Resolved.toConeArgument argument) id
    (fun resolved => resolved.toConeArgument_renumber _ argument)
    fun _ number _ _ _ _ => rest number

end Children

/-- A result that tests no slot is the same behind any progress. -/
theorem shifts_fixed {predicate : Predicate}
    (fixed : predicate.renumber earlier.cones.length = predicate) :
    (pure (.condition predicate) : Pass Resolved).Shifts earlier
      (Resolved.renumber earlier.cones.length) (pure (.condition predicate)) := by
  have returned : (pure (.condition predicate) : Pass Resolved).Shifts earlier
      (Resolved.renumber earlier.cones.length)
      (pure ((Resolved.condition predicate).renumber earlier.cones.length)) :=
    Pass.shifts_pure _ _
  rwa [Resolved.renumber, fixed] at returned

theorem resolveItems_shifts (items : List Node)
    (shifts : ∀ item ∈ items, item.Shifts scope earlier) :
    (resolveItems scope items).Shifts earlier id (resolveItems scope items) := by
  induction items with
  | nil => exact Pass.shifts_pure id []
  | cons item rest ih =>
      obtain ⟨head, tail⟩ := List.forall_mem_cons.mp shifts
      apply shifts_listed head
      intro value
      apply Pass.shifts_bind (ih tail)
      intro values _ _ _
      exact Pass.shifts_pure id (value :: values)

theorem negate_shifts (operand : Node) (shifts : operand.Shifts scope earlier) :
    (negate operand).Shifts scope earlier := by
  unfold Shifts
  by_cases read : ∃ kind raw, operand = .literal kind raw
  · obtain ⟨kind, raw, rfl⟩ := read
    unfold resolve
    split
    · apply Pass.shifts_bind (Pass.shifts_slotless (typeLiteral_slotless kind raw))
      intro value _ _ _
      exact Pass.shifts_negate (Resolved.operand (.literal value))
    · apply Pass.shifts_bind (Pass.shifts_slotless (typeNegative_slotless kind raw))
      intro value _ _ _
      exact Pass.shifts_pure _ _
  · have unread : ∀ kind raw, operand ≠ .literal kind raw :=
      fun kind raw same => read ⟨kind, raw, same⟩
    rw [resolve_negate scope operand unread]
    apply Pass.shifts_bind shifts
    intro resolved _ _ _
    exact Pass.shifts_negate resolved

theorem equality_shifts (op : Equality) (left right : Node)
    (leftShifts : left.Shifts scope earlier) (rightShifts : right.Shifts scope earlier) :
    (equality op left right).Shifts scope earlier := by
  unfold Shifts
  by_cases bare : right = .null
  · subst bare
    apply shifts_operand leftShifts
    intro operand _
    exact shifts_fixed rfl
  · rw [resolve_equality scope op left right bare]
    apply shifts_operand leftShifts
    intro before _
    apply shifts_operand rightShifts
    rintro after ⟨events, denoted⟩
    -- No tree denotes a truth value, so this comparison is not taken for a slot.
    exact shifts_fixed (Predicate.renumber_equality _ op before after (denoted.ne_bool true))

theorem call_shifts (name : String) (arguments : List Node)
    (shifts : ∀ argument ∈ arguments, argument.Shifts scope earlier) :
    (call name arguments).Shifts scope earlier := by
  unfold Shifts resolve
  split
  · split
    · rename_i ra dec radius
      apply shifts_measured (shifts ra (by simp))
      intro raNumber
      apply shifts_measured (shifts dec (by simp))
      intro decNumber
      apply shifts_measured (shifts radius (by simp))
      intro radiusNumber
      apply Pass.shifts_bind (Pass.shifts_recordCone _)
      intro predicate _ _ _
      exact Pass.shifts_pure _ (Resolved.condition predicate)
    · exact Pass.shifts_throw _ fun _ => rfl
  · exact Pass.shifts_throw _ fun _ => rfl

theorem resolve_shifts (node : Node) : node.Shifts scope earlier := by
  induction node with
  | literal kind raw =>
      apply Pass.shifts_bind (Pass.shifts_slotless (typeLiteral_slotless kind raw))
      intro value _ _ _
      exact Pass.shifts_pure _ (Resolved.operand (.literal value))
  | column path =>
      apply Pass.shifts_bind (Pass.shifts_column scope path)
      intro name _ _ _
      exact Pass.shifts_pure _ (Resolved.operand (.field name))
  | quoted path =>
      unfold Shifts resolve
      split
      · exact Pass.shifts_pure _ _
      · exact Pass.shifts_throw _ fun _ => rfl
  | null => exact Pass.shifts_throw _ fun _ => rfl
  | negate operand shifts => exact negate_shifts operand shifts
  | not condition shifts =>
      apply shifts_predicate shifts
      intro predicate
      exact Pass.shifts_pure _ (Resolved.condition (.not predicate))
  | nested inner shifts => exact shifts
  | connect op left right leftShifts rightShifts =>
      apply shifts_predicate leftShifts
      intro before
      apply shifts_predicate rightShifts
      intro after
      rw [← Predicate.renumber_join]
      exact Pass.shifts_pure _ (Resolved.condition (op.join before after))
  | equality op left right leftShifts rightShifts =>
      exact equality_shifts op left right leftShifts rightShifts
  | relate op left right leftShifts rightShifts =>
      apply shifts_operand leftShifts
      intro before _
      apply shifts_operand rightShifts
      intro after _
      exact shifts_fixed (Predicate.renumber_relation _ _ before after op.compareOp_ne_equal)
  | arithmetic op left right leftShifts rightShifts =>
      apply shifts_operand leftShifts
      intro before _
      apply shifts_operand rightShifts
      intro after _
      apply Pass.shifts_bind (Pass.shifts_slotless (Operand.combine_slotless op before after))
      intro combined _ _ _
      exact Pass.shifts_pure _ (Resolved.operand combined)
  | between subject low high subjectShifts lowShifts highShifts =>
      apply shifts_operand subjectShifts
      intro operand _
      apply shifts_operand lowShifts
      intro least _
      apply shifts_operand highShifts
      intro greatest _
      exact shifts_fixed rfl
  | member subject items subjectShifts itemsShift =>
      apply shifts_operand subjectShifts
      intro operand _
      apply Pass.shifts_bind (resolveItems_shifts items itemsShift)
      intro values _ _ _
      exact Pass.shifts_pure _ (Resolved.condition (.member operand values))
  | call name arguments shifts => exact call_shifts name arguments shifts
  | unsupported text => exact Pass.shifts_throw _ fun _ => rfl

/-- A tree that has to be a condition, as the sides of a connection have to be. -/
def condition (scope : Scope) (node : Node) : Pass Predicate := do
  Pass.require (← node.resolve scope).toPredicate

theorem resolve_connect (op : Connective) (left right : Node) :
    (connect op left right).resolve scope = (do
      let before ← left.condition scope
      let after ← right.condition scope
      return .condition (op.join before after)) := by
  simp only [resolve, condition, bind_assoc]

theorem condition_shifts (node : Node) : (node.condition scope).Shifts earlier
    (Predicate.renumber earlier.cones.length) (node.condition scope) := by
  apply Pass.shifts_bind node.resolve_shifts
  intro resolved _ _ _
  rw [Resolved.toPredicate_renumber]
  exact Pass.shifts_require _ resolved.toPredicate

/-- The same condition on its own and behind earlier progress. -/
theorem condition_behind (earlier : Progress) (node : Node) :
    (node.condition scope).runFrom earlier =
      (renumberOutcome earlier.cones.length (Predicate.renumber earlier.cones.length)
          ((node.condition scope).runFrom {}).1,
        ((node.condition scope).runFrom {}).2.behind earlier) := by
  have shifted := @condition_shifts scope earlier node {}
  rwa [Progress.behind_start] at shifted

end Node

namespace Scope

/-- The predicate of a tree on its own with the cones beside it, or why there is none: the tree
is refused, or it is a value. -/
def condition (scope : Scope) (node : Node) : Except Failure (Predicate × List Cone) := do
  let resolution ← (scope.resolve node).1
  let predicate ← resolution.value.toPredicate
  return (predicate, resolution.extra.cones)

theorem resolve_outcome (scope : Scope) (node : Node) :
    (scope.resolve node).1 = match (node.resolve scope).runFrom {} with
      | (.ok value, after) => .ok { value, extra := { cones := after.cones } }
      | (.error failure, _) => .error failure := by
  unfold resolve Pass.runFrom
  rcases (node.resolve scope).run.run {} with ⟨failure | value, after⟩ <;> rfl

theorem condition_outcome (scope : Scope) (node : Node) :
    scope.condition node = match (node.condition scope).runFrom {} with
      | (.ok predicate, after) => .ok (predicate, after.cones)
      | (.error failure, _) => .error failure := by
  rw [condition, resolve_outcome, Node.condition, Pass.runFrom_bind]
  rcases (node.resolve scope).runFrom {} with ⟨failure | value, after⟩
  · rfl
  · cases value <;> rfl

/-- A connection joins the two conditions that its sides are on their own, the right one with
its slots moved on by the cones of the left one. The left side is refused as on its own, and the
right side with the conditions renumbered that its failure quotes. -/
theorem connect_renumbers (scope : Scope) (op : Connective) (left right : Node) :
    match scope.condition left, scope.condition right with
    | .error failure, _ => (scope.resolve (.connect op left right)).1 = .error failure
    | .ok (_, cones), .error failure =>
        (scope.resolve (.connect op left right)).1 = .error (failure.renumber cones.length) ∧
          (failure.renumber cones.length).kind = failure.kind
    | .ok (before, cones), .ok (after, later) =>
        (scope.resolve (.connect op left right)).1 =
          .ok { value := .condition (op.join before (after.renumber cones.length))
                extra := { cones := cones ++ later } } := by
  rw [condition_outcome, condition_outcome, resolve_outcome, Node.resolve_connect,
    Pass.runFrom_bind]
  rcases (left.condition scope).runFrom {} with ⟨failure | before, earlier⟩
  · rfl
  · -- The right side starts from what the left side has left behind.
    simp only [Pass.runFrom_bind, right.condition_behind earlier]
    rcases (right.condition scope).runFrom {} with ⟨failure | after, later⟩
    · exact ⟨rfl, failure.kind_renumber _⟩
    · rfl

end Scope

/-- The condition that is quoted tests the second slot, and would test the first on its own. -/
example : (starScope.resolve (.connect .and (.call "cone" (integers ["1", "2", "3"]))
    (.negate (.call "cone" (integers ["4", "5", "6"]))))).1 =
      .error (.misuse (.negatedCondition (Predicate.slotTest 1))) := rfl

end ConeFilter
