import ConeFilter.Proofs.ConeAccounting

/-!
What a filter means. A tree has a direct meaning that needs no pass: its values
are computed from a row, and its conditions from an arbitrary interpretation of
the tests and the connectives, with every cone call numbered by its place among
the calls of the tree. Resolution computes constants, rewrites null tests and
ranges and numbers the slots as it goes, and what it returns means the same.
-/
namespace ConeFilter

universe u

/-- A value may be missing, and a truth value may be anything. -/
structure Interpretation (Truth : Type u) where
  row : String → Option Value
  cone : Nat → Truth
  compare : CompareOp → Option Value → Option Value → Truth
  -- Whether the value is missing is compared with what is expected.
  nullTest : Bool → Option Value → Truth
  member : Option Value → List (Option Value) → Truth
  both : Truth → Truth → Truth
  either : Truth → Truth → Truth
  opposite : Truth → Truth

/-! Values. An operation without a result has no value, like one on a missing value. -/

namespace ArithOp

def apply (op : ArithOp) (left right : Option Value) : Option Value :=
  left.bind fun a => right.bind fun b => Value.compute? op a b

end ArithOp

def Operand.value (row : String → Option Value) : Operand → Option Value
  | .literal value => some value
  | .field name => row name
  | .binary op left right => op.apply (left.value row) (right.value row)
  | .negation operand => (operand.value row).bind Value.negate?

/-- A negated integer literal is negated as an integer, so that the least word can be written. -/
def Node.value (row : String → Option Value) : Node → Option Value
  | .literal kind raw => kind.read? raw
  | .quoted path => path.getLast?.map .text
  | .column path => row (Scope.flatten path)
  | .negate (.literal .integer raw) =>
      (Numeral.readInt raw.toList).bind fun n => Value.ofInt? (-n)
  | .negate operand => (operand.value row).bind Value.negate?
  | .nested inner => inner.value row
  | .arithmetic op left right => op.apply (left.value row) (right.value row)
  | .null | .not _ | .connect _ _ _ | .equality _ _ _ | .relate _ _ _ | .between _ _ _
  | .member _ _ | .call _ _ | .unsupported _ => none

/-! Truth. -/

section Truth
variable {Truth : Type u}

def Predicate.truth (meaning : Interpretation Truth) : Predicate → Truth
  | .compare op left right =>
      match (Predicate.compare op left right).slotField?.bind Cone.slotNumber? with
      | some index => meaning.cone index
      | none => meaning.compare op (left.value meaning.row) (right.value meaning.row)
  | .isNull operand expected => meaning.nullTest expected (operand.value meaning.row)
  | .and left right => meaning.both (left.truth meaning) (right.truth meaning)
  | .or left right => meaning.either (left.truth meaning) (right.truth meaning)
  | .not inner => meaning.opposite (inner.truth meaning)
  | .member operand values => meaning.member (operand.value meaning.row) (values.map some)

/-- The truth of a tree behind `first` cone calls, if the tree is a condition at all. -/
def Node.truth (meaning : Interpretation Truth) (first : Nat) : Node → Option Truth
  | .not condition => (condition.truth meaning first).map meaning.opposite
  | .nested inner => inner.truth meaning first
  | .connect .and left right => do
      let before ← left.truth meaning first
      let after ← right.truth meaning (first + left.coneCalls.length)
      return meaning.both before after
  | .connect .or left right => do
      let before ← left.truth meaning first
      let after ← right.truth meaning (first + left.coneCalls.length)
      return meaning.either before after
  | .equality op left .null =>
      let missing := match op with
        | .equal | .is => true
        | .unequal => false
      some (meaning.nullTest missing (left.value meaning.row))
  | .equality op left right =>
      let same := meaning.compare .equal (left.value meaning.row) (right.value meaning.row)
      match op with
      | .equal | .is => some same
      | .unequal => some (meaning.opposite same)
  | .relate op left right =>
      let test := match op with
        | .less => CompareOp.less
        | .lessEqual => .lessEqual
        | .greater => .greater
        | .greaterEqual => .greaterEqual
        | .matches => .contains
      some (meaning.compare test (left.value meaning.row) (right.value meaning.row))
  | .between subject low high =>
      some (meaning.both
        (meaning.compare .greaterEqual (subject.value meaning.row) (low.value meaning.row))
        (meaning.compare .lessEqual (subject.value meaning.row) (high.value meaning.row)))
  | .member subject items =>
      some (meaning.member (subject.value meaning.row) (items.map (Node.value meaning.row)))
  | .call name arguments =>
      if isConeName name then
        some (meaning.cone (first + (arguments.flatMap Node.coneCalls).length))
      else none
  | .literal _ _ | .column _ | .quoted _ | .null | .negate _ | .arithmetic _ _ _
  | .unsupported _ => none

end Truth

/-! Values agree. -/

namespace Numeral

theorem readInt_minus (text : List Char) :
    readInt ('-' :: text) = (readNat text).map fun (n : Nat) => -(n : Int) := rfl

theorem readInt_digits (text : List Char) (n : Nat) (read : readNat text = some n) :
    readInt text = some (n : Int) := by
  cases text with
  | nil => cases read
  | cons c rest =>
      have digit : c.isDigit = true :=
        List.all_eq_true.mp (digits_of_readNat _ n read) c List.mem_cons_self
      have unsigned : c ≠ '-' ∧ c ≠ '+' := by
        constructor <;> (rintro rfl; cases digit)
      unfold readInt
      split
      · rename_i same
        cases same
        exact absurd rfl unsigned.1
      · rename_i same
        cases same
        exact absurd rfl unsigned.2
      · rw [read]
        rfl

end Numeral

namespace LiteralKind

/-- The sign in front of the digits is the sign of the integer. -/
theorem readNegative_integer (raw : String) (value : Value)
    (typed : LiteralKind.integer.readNegative? raw = some value) :
    ((Numeral.readInt raw.toList).bind fun n => Value.ofInt? (-n)) = some value := by
  obtain ⟨word, read, rfl⟩ := Option.map_eq_some_iff.mp typed
  obtain ⟨n, signed, exact⟩ := Option.bind_eq_some_iff.mp read
  rw [Numeral.minus_toList, Numeral.readInt_minus] at signed
  obtain ⟨digits, unsigned, rfl⟩ := Option.map_eq_some_iff.mp signed
  rw [Numeral.readInt_digits _ _ unsigned, Option.bind_some, Value.ofInt?, exact]
  rfl

theorem readNegative_decimal (raw : String) :
    LiteralKind.decimal.readNegative? raw =
      (LiteralKind.decimal.read? raw).bind Value.negate? := by
  unfold readNegative? read?
  cases Numeral.readFinite raw <;> rfl

end LiteralKind

namespace Operand

theorem combine_value (row : String → Option Value) (op : ArithOp)
    (left right combined : Operand) (result : combine op left right = .ok combined) :
    combined.value row = op.apply (left.value row) (right.value row) := by
  obtain ⟨a, b, value, rfl, rfl, computed, rfl⟩ | ⟨rfl, -⟩ := combine_cases _ _ _ _ result
  · exact computed.symm
  · rfl

theorem negate_value (row : String → Option Value) (operand negated : Operand)
    (result : operand.negate = .ok negated) :
    negated.value row = (operand.value row).bind Value.negate? := by
  obtain ⟨value, opposite, rfl, computed, rfl⟩ | ⟨rfl, -⟩ := negate_cases _ _ result
  · exact computed.symm
  · rfl

end Operand

section Derivations
variable {scope : Scope} {first : Nat} {node : Node} {items : List Node} {operand : Operand}
  {values : List Value} {predicate : Predicate} {cones : List Cone} {events : List Event}

theorem Denotes.value (denoted : Denotes scope node operand events)
    (row : String → Option Value) : operand.value row = node.value row := by
  induction denoted with
  | literal typed => exact typed.symm
  | column _ => rfl
  | quoted last => simp [Operand.value, Node.value, last]
  | @negateLiteral kind raw value typed =>
      cases kind with
      | integer => exact (LiteralKind.readNegative_integer raw value typed).symm
      | decimal =>
          rw [LiteralKind.readNegative_decimal] at typed
          exact typed.symm
      | string => cases typed
      | other => cases typed
  | negate unread _ result ih =>
      rw [Operand.negate_value row _ _ result, ih, Node.value]
      rintro raw rfl
      exact unread .integer raw rfl
  | nested _ ih => exact ih
  | arithmetic _ _ result leftValue rightValue =>
      rw [Operand.combine_value row _ _ _ _ result, leftValue, rightValue]
      rfl

theorem Lists.value (listed : Lists scope items values events)
    (row : String → Option Value) : values.map some = items.map (Node.value row) := by
  induction listed with
  | nil => rfl
  | cons head _ ih => rw [List.map_cons, List.map_cons, ← head.value row, ih]; rfl

section Truth
variable {Truth : Type u} (meaning : Interpretation Truth)

theorem Predicate.truth_compare (op : CompareOp) (left right : Operand)
    (untrue : right ≠ .literal (.bool true)) : (Predicate.compare op left right).truth meaning =
      meaning.compare op (left.value meaning.row) (right.value meaning.row) := by
  rw [truth, slotField_compare op left right untrue]
  rfl

theorem Predicate.truth_not (inner : Predicate) :
    (Predicate.not inner).truth meaning = meaning.opposite (inner.truth meaning) := rfl

theorem Predicate.truth_slot (index : Nat) :
    (Predicate.compare .equal (.field (Cone.slotName index)) (.literal (.bool true))).truth
      meaning = meaning.cone index := by
  have numbered := (Cone.slotNumber_eq_some _ index).mpr rfl
  simp [truth, slotField?, numbered]

theorem Asserts.truth (asserted : Asserts scope first node predicate cones events) :
    node.truth meaning first = some (predicate.truth meaning) := by
  induction asserted with
  | not _ ih => rw [Node.truth, ih]; rfl
  | nested _ ih => exact ih
  | @connect _ op _ _ _ _ _ _ _ _ leftAsserted _ leftTruth rightTruth =>
      -- One cone was recorded for each call, so both numberings go on at the same place.
      have counted := leftAsserted.cones_described.length_eq
      cases op <;> simp only [Node.truth, counted, leftTruth, rightTruth] <;> rfl
  | @isNull _ op _ _ _ denoted =>
      cases op <;> simp [Node.truth, Predicate.truth, Equality.positive, denoted.value]
  | @equality _ op _ _ before after _ _ leftDenoted rightDenoted =>
      have compared := Predicate.truth_compare meaning .equal before after
        (rightDenoted.ne_bool true)
      rw [leftDenoted.value, rightDenoted.value] at compared
      cases op <;> simp [Node.truth, rightDenoted.ne_null, Equality.compare, Equality.positive,
        Predicate.truth_not, compared]
  | @relate _ op _ _ before after _ _ leftDenoted rightDenoted =>
      have compared := fun test => Predicate.truth_compare meaning test before after
        (rightDenoted.ne_bool true)
      simp only [leftDenoted.value, rightDenoted.value] at compared
      cases op <;> simp [Node.truth, Relation.compareOp, compared]
  | between denoted lowDenoted highDenoted =>
      simp only [Node.truth, Predicate.truth, Predicate.slotField?, Option.bind_none,
        denoted.value, lowDenoted.value, highDenoted.value]
  | member denoted listed =>
      rw [Node.truth, Predicate.truth, denoted.value, listed.value]
  | cone named raMeasured decMeasured radiusMeasured =>
      simp [Node.truth, named, Predicate.truth_slot, raMeasured.coneless, decMeasured.coneless,
        radiusMeasured.coneless]

end Truth

end Derivations

/-- Whatever a pass returns means what its tree means. -/
theorem resolution_preserves_meaning {Truth : Type u} (meaning : Interpretation Truth)
    (scope : Scope) (node : Node) (resolution : Resolution)
    (resolved : (scope.resolve node).1 = .ok resolution) :
    (∀ operand, resolution.value = .operand operand →
      operand.value meaning.row = node.value meaning.row) ∧
    (∀ predicate, resolution.value = .condition predicate →
      some (predicate.truth meaning) = node.truth meaning 0) := by
  obtain ⟨value, extra⟩ := resolution
  constructor
  · rintro operand rfl
    obtain ⟨_, events, denoted⟩ := (scope.resolve_operand_iff _ _ _).mp resolved
    exact denoted.value meaning.row
  · rintro predicate rfl
    obtain ⟨_, events, asserted⟩ := (scope.resolve_condition_iff _ _ _).mp resolved
    exact (asserted.truth meaning).symm

/-- Integers in a range, and only the second cone covers the row. -/
def secondOnly : Interpretation Bool where
  row := fun _ => some (.int 3)
  cone := fun index => index == 1
  compare := fun op left right =>
    match op, left, right with
    | .greaterEqual, some (.int a), some (.int b) => b ≤ a
    | .lessEqual, some (.int a), some (.int b) => a ≤ b
    | _, _, _ => false
  nullTest := fun expected value => value.isNone == expected
  member := fun _ _ => false
  both := and
  either := or
  opposite := not

theorem twoCones_meaning :
    some (twoSlots.truth secondOnly) = twoCones.truth secondOnly 0 :=
  (resolution_preserves_meaning secondOnly starScope twoCones _ twoCones_resolve).2 twoSlots rfl

end ConeFilter
