import ConeFilter.Proofs.ConeAccounting
import ConeFilter.Proofs.FiniteDoubles

/-!
The form of results. Every number in a result is finite, truth values occur only
where a slot is tested, and arithmetic on constants is gone unless it has no
result. Operands never hold a truth value at all, so all of this is read off the
leaves of a predicate: a leaf either tests the slot of a cone or is built from
operands.
-/
namespace ConeFilter

/-! Values written in a result. -/

namespace Value

def Finite : Value → Prop
  | .float number => number.isFinite = true
  | .text _ | .int _ | .bool _ => True

/-- A value that an operand may hold. -/
def Plain : Value → Prop
  | .text _ | .int _ => True
  | .float number => number.isFinite = true
  | .bool _ => False

theorem Plain.finite {value : Value} (plain : value.Plain) : value.Finite := by
  cases value with
  | float number => exact plain
  | text _ | int _ | bool _ => trivial

theorem Plain.ne_bool {value : Value} (plain : value.Plain) (truth : Bool) :
    value ≠ .bool truth := by
  rintro rfl
  exact plain

theorem ofInt_plain (n : Int) (value : Value) (exact : ofInt? n = some value) : value.Plain := by
  obtain ⟨word, _, rfl⟩ := Option.map_eq_some_iff.mp exact
  trivial

theorem negate_plain (value negated : Value) (plain : value.Plain)
    (result : value.negate? = some negated) : negated.Plain := by
  cases value with
  | int word => exact ofInt_plain _ _ result
  | float number =>
      cases result
      exact Numeral.isFinite_neg number plain
  | text content => cases result
  | bool truth => cases result

theorem compute_plain (op : ArithOp) (left right computed : Value)
    (result : compute? op left right = some computed) : computed.Plain := by
  unfold compute? at result
  split at result
  · obtain ⟨n, _, exact⟩ := Option.bind_eq_some_iff.mp result
    exact ofInt_plain n computed exact
  · simp only [Option.bind_eq_bind, Option.bind_eq_some_iff] at result
    obtain ⟨_, _, _, _, number, _, kept⟩ := result
    split at kept
    · rename_i finite
      cases kept
      exact finite
    · cases kept

/-- The least word is the only number without a negation. -/
theorem negate_eq_none (value : Value) (numeric : value.isNumeric = true)
    (stuck : value.negate? = none) : value = .int Int64.minValue := by
  cases value with
  | int word =>
      have outside : ¬ Numeral.inWord (-word.toInt) = true := by
        intro inside
        simp [negate?, ofInt?, Numeral.exactWord, inside] at stuck
      have least := word.le_toInt
      have greatest := word.toInt_lt
      simp [Numeral.inWord] at outside
      have same : word.toInt = Int64.minValue.toInt := by
        rw [Int64.toInt_minValue]
        omega
      exact congrArg Value.int (Int64.toInt_inj.mp same)
  | float number => cases stuck
  | text content => cases numeric
  | bool truth => cases numeric

theorem toFloat_finite (value : Value) (number : Float) (plain : value.Plain)
    (numeric : value.toFloat? = some number) : number.isFinite = true := by
  cases value with
  | int word =>
      cases numeric
      exact Numeral.isFinite_wordToFloat word
  | float number =>
      cases numeric
      exact plain
  | text content => cases numeric
  | bool truth => cases numeric

end Value

namespace LiteralKind

theorem read_plain (kind : LiteralKind) (raw : String) (value : Value)
    (typed : kind.read? raw = some value) : value.Plain := by
  cases kind with
  | string =>
      cases typed
      trivial
  | integer =>
      obtain ⟨word, _, rfl⟩ := Option.map_eq_some_iff.mp typed
      trivial
  | decimal =>
      obtain ⟨number, read, rfl⟩ := Option.map_eq_some_iff.mp typed
      exact (Option.filter_eq_some_iff.mp read).2
  | other => cases typed

theorem readNegative_plain (kind : LiteralKind) (raw : String) (value : Value)
    (typed : kind.readNegative? raw = some value) : value.Plain := by
  cases kind with
  | string => cases typed
  | integer =>
      obtain ⟨word, _, rfl⟩ := Option.map_eq_some_iff.mp typed
      trivial
  | decimal =>
      obtain ⟨number, read, rfl⟩ := Option.map_eq_some_iff.mp typed
      exact Numeral.isFinite_neg number (Option.filter_eq_some_iff.mp read).2
  | other => cases typed

end LiteralKind

/-! Operands. -/

namespace Operand

/-- The values written in an operand, at any depth. -/
def values : Operand → List Value
  | .literal value => [value]
  | .field _ => []
  | .binary _ left right => left.values ++ right.values
  | .negation operand => operand.values

/-- Where constants are left under an operation, it has no result on them. -/
def Folded : Operand → Prop
  | .literal _ | .field _ => True
  | .binary op left right =>
      left.Folded ∧ right.Folded ∧ ∀ a b, left = .literal a → right = .literal b →
        a.isNumeric = true ∧ b.isNumeric = true ∧ Value.compute? op a b = none
  | .negation operand =>
      operand.Folded ∧ ∀ value, operand = .literal value → value = .int Int64.minValue

/-- What is required of an operand wherever it stands. -/
def Canonical (operand : Operand) : Prop :=
  (∀ value ∈ operand.values, value.Plain) ∧ operand.Folded

theorem canonical_literal (value : Value) : (literal value).Canonical ↔ value.Plain := by
  simp [Canonical, values, Folded]

theorem combine_canonical (op : ArithOp) (left right combined : Operand)
    (result : combine op left right = .ok combined) (leftCanonical : left.Canonical)
    (rightCanonical : right.Canonical) : combined.Canonical := by
  obtain ⟨a, b, value, rfl, rfl, computed, rfl⟩ | ⟨rfl, stuck⟩ := combine_cases _ _ _ _ result
  · exact (canonical_literal value).mpr (Value.compute_plain op a b value computed)
  · obtain ⟨leftPlain, leftFolded⟩ := leftCanonical
    obtain ⟨rightPlain, rightFolded⟩ := rightCanonical
    refine ⟨fun value written => ?_, leftFolded, rightFolded, stuck⟩
    rcases List.mem_append.mp written with before | after
    · exact leftPlain value before
    · exact rightPlain value after

theorem negate_canonical (operand negated : Operand) (result : operand.negate = .ok negated)
    (canonical : operand.Canonical) : negated.Canonical := by
  obtain ⟨value, opposite, rfl, computed, rfl⟩ | ⟨rfl, stuck⟩ := negate_cases _ _ result
  · have plain := (canonical_literal value).mp canonical
    exact (canonical_literal opposite).mpr (Value.negate_plain value opposite plain computed)
  · obtain ⟨plain, folded⟩ := canonical
    refine ⟨plain, folded, fun value same => ?_⟩
    obtain ⟨numeric, uncomputed⟩ := stuck value same
    exact Value.negate_eq_none value numeric uncomputed

end Operand

/-! Predicates. -/

namespace Predicate

def operands : Predicate → List Operand
  | .compare _ left right => [left, right]
  | .isNull operand _ => [operand]
  | .and left right | .or left right => left.operands ++ right.operands
  | .not inner => inner.operands
  | .member operand _ => [operand]

/-- The values written in a predicate, those in its lists included. -/
def values : Predicate → List Value
  | .compare _ left right => left.values ++ right.values
  | .isNull operand _ => operand.values
  | .and left right | .or left right => left.values ++ right.values
  | .not inner => inner.values
  | .member operand values => operand.values ++ values

def slotTest (index : Nat) : Predicate :=
  .compare .equal (.field (Cone.slotName index)) (.literal (.bool true))

/-- A leaf that tests no slot. -/
def Plain (leaf : Predicate) : Prop :=
  (∀ value ∈ leaf.values, value.Plain) ∧ ∀ operand ∈ leaf.operands, operand.Folded

theorem mem_values_leaves (predicate : Predicate) (value : Value) :
    value ∈ predicate.values ↔ ∃ leaf ∈ predicate.leaves, value ∈ leaf.values := by
  induction predicate with
  | compare op left right => simp [leaves]
  | isNull operand expected => simp [leaves]
  | and left right leftLeaves rightLeaves | or left right leftLeaves rightLeaves =>
      simp only [values, leaves, List.mem_append, leftLeaves, rightLeaves, or_and_right,
        exists_or]
  | not inner ih => exact ih
  | member operand listed => simp [leaves]

theorem mem_operands_leaves (predicate : Predicate) (operand : Operand) :
    operand ∈ predicate.operands ↔ ∃ leaf ∈ predicate.leaves, operand ∈ leaf.operands := by
  induction predicate with
  | compare op left right => simp [leaves]
  | isNull operand expected => simp [leaves]
  | and left right leftLeaves rightLeaves | or left right leftLeaves rightLeaves =>
      simp only [operands, leaves, List.mem_append, leftLeaves, rightLeaves, or_and_right,
        exists_or]
  | not inner ih => exact ih
  | member operand listed => simp [leaves]

theorem plain_compare (op : CompareOp) (left right : Operand) (leftCanonical : left.Canonical)
    (rightCanonical : right.Canonical) : (Predicate.compare op left right).Plain := by
  obtain ⟨leftPlain, leftFolded⟩ := leftCanonical
  obtain ⟨rightPlain, rightFolded⟩ := rightCanonical
  constructor
  · intro value written
    rcases List.mem_append.mp written with before | after
    · exact leftPlain value before
    · exact rightPlain value after
  · simp [operands, leftFolded, rightFolded]

theorem leaves_join (op : Connective) (left right : Predicate) :
    (op.join left right).leaves = left.leaves ++ right.leaves := by
  cases op <;> rfl

end Predicate

section Derivations
variable {scope : Scope} {first : Nat} {node argument : Node} {items : List Node}
  {operand : Operand} {values : List Value} {number : Float}
  {predicate : Predicate} {cones : List Cone} {events : List Event}

theorem Denotes.canonical (denoted : Denotes scope node operand events) : operand.Canonical := by
  induction denoted with
  | literal typed =>
      exact (Operand.canonical_literal _).mpr (LiteralKind.read_plain _ _ _ typed)
  | column _ => exact ⟨by simp [Operand.values], trivial⟩
  | quoted _ => exact (Operand.canonical_literal _).mpr trivial
  | negateLiteral typed =>
      exact (Operand.canonical_literal _).mpr (LiteralKind.readNegative_plain _ _ _ typed)
  | negate _ _ result ih => exact Operand.negate_canonical _ _ result ih
  | nested _ ih => exact ih
  | arithmetic _ _ result leftCanonical rightCanonical =>
      exact Operand.combine_canonical _ _ _ _ result leftCanonical rightCanonical

theorem Lists.plain (listed : Lists scope items values events) :
    ∀ value ∈ values, value.Plain := by
  induction listed with
  | nil => simp
  | cons head _ ih =>
      exact List.forall_mem_cons.mpr ⟨(Operand.canonical_literal _).mp head.canonical, ih⟩

theorem Measures.finite (measured : Measures scope argument number events) :
    number.isFinite = true := by
  obtain ⟨value, denoted, numeric⟩ := measured
  exact Value.toFloat_finite value number ((Operand.canonical_literal _).mp denoted.canonical)
    numeric

/-- A leaf tests the slot of one of the cones of the tree, or no slot. -/
theorem Asserts.leaves (asserted : Asserts scope first node predicate cones events) :
    ∀ leaf ∈ predicate.leaves, leaf.Plain ∨
      ∃ index, index < first + cones.length ∧ leaf = Predicate.slotTest index := by
  induction asserted with
  | not _ ih => exact ih
  | nested _ ih => exact ih
  | connect _ _ leftLeaves rightLeaves =>
      intro leaf stands
      rw [Predicate.leaves_join, List.mem_append] at stands
      rw [List.length_append]
      rcases stands with before | after
      · obtain plain | ⟨index, inside, tested⟩ := leftLeaves leaf before
        · exact .inl plain
        · exact .inr ⟨index, by omega, tested⟩
      · obtain plain | ⟨index, inside, tested⟩ := rightLeaves leaf after
        · exact .inl plain
        · exact .inr ⟨index, by omega, tested⟩
  | isNull denoted =>
      obtain ⟨plain, folded⟩ := denoted.canonical
      rintro _ (_ | ⟨_, ⟨⟩⟩)
      exact .inl ⟨plain, by simpa [Predicate.operands] using folded⟩
  | @equality _ op _ _ before after _ _ leftDenoted rightDenoted =>
      have compared := Predicate.plain_compare .equal before after leftDenoted.canonical
        rightDenoted.canonical
      cases op <;> simpa [Equality.compare, Equality.positive, Predicate.leaves] using .inl compared
  | relate leftDenoted rightDenoted =>
      rintro _ (_ | ⟨_, ⟨⟩⟩)
      exact .inl (Predicate.plain_compare _ _ _ leftDenoted.canonical rightDenoted.canonical)
  | between denoted lowDenoted highDenoted =>
      rintro _ (_ | ⟨_, _ | ⟨_, ⟨⟩⟩⟩)
      · exact .inl (Predicate.plain_compare _ _ _ denoted.canonical lowDenoted.canonical)
      · exact .inl (Predicate.plain_compare _ _ _ denoted.canonical highDenoted.canonical)
  | member denoted listed =>
      obtain ⟨plain, folded⟩ := denoted.canonical
      rintro _ (_ | ⟨_, ⟨⟩⟩)
      refine .inl ⟨fun value written => ?_, by simpa [Predicate.operands] using folded⟩
      rcases List.mem_append.mp written with before | after
      · exact plain value before
      · exact listed.plain value after
  | @cone first _ _ _ _ _ _ _ _ _ _ _ _ =>
      rintro _ (_ | ⟨_, ⟨⟩⟩)
      exact .inr ⟨first, by simp, rfl⟩

theorem Asserts.finite_cones (asserted : Asserts scope first node predicate cones events) :
    ∀ cone ∈ cones,
      cone.ra.isFinite = true ∧ cone.dec.isFinite = true ∧ cone.radius.isFinite = true := by
  induction asserted with
  | not _ ih | nested _ ih => exact ih
  | connect _ _ leftFinite rightFinite =>
      exact List.forall_mem_append.mpr ⟨leftFinite, rightFinite⟩
  | isNull _ | equality _ _ | relate _ _ | between _ _ _ | member _ _ => simp
  | cone _ raMeasured decMeasured radiusMeasured =>
      exact List.forall_mem_singleton.mpr
        ⟨raMeasured.finite, decMeasured.finite, radiusMeasured.finite⟩

end Derivations

/-! Whole results. -/

namespace Resolved

def values : Resolved → List Value
  | .operand value => value.values
  | .condition predicate => predicate.values

def operands : Resolved → List Operand
  | .operand value => [value]
  | .condition predicate => predicate.operands

/-- Truth values stand nowhere but in the tests of the first `count` slots. -/
def TruthsInSlots (count : Nat) : Resolved → Prop
  | .operand value => ∀ truth, .bool truth ∉ value.values
  | .condition predicate => ∀ leaf ∈ predicate.leaves, (∀ truth, .bool truth ∉ leaf.values) ∨
      ∃ index, index < count ∧ leaf = Predicate.slotTest index

end Resolved

structure Resolution.Canonical (resolution : Resolution) : Prop where
  finite_values : ∀ value ∈ resolution.value.values, value.Finite
  finite_cones : ∀ cone ∈ resolution.extra.cones,
    cone.ra.isFinite = true ∧ cone.dec.isFinite = true ∧ cone.radius.isFinite = true
  truths : resolution.value.TruthsInSlots resolution.extra.cones.length
  folded : ∀ operand ∈ resolution.value.operands, operand.Folded

theorem Operand.Canonical.resolution {operand : Operand} (canonical : operand.Canonical) :
    Resolution.Canonical { value := .operand operand, extra := {} } where
  finite_values value written := (canonical.1 value written).finite
  finite_cones _ absent := by cases absent
  truths truth written := (canonical.1 _ written).ne_bool truth rfl
  folded := by simpa [Resolved.operands] using canonical.2

theorem Asserts.resolution {scope : Scope} {node : Node} {predicate : Predicate} {extra : Extra}
    {events : List Event} (asserted : Asserts scope 0 node predicate extra.cones events) :
    Resolution.Canonical { value := .condition predicate, extra } where
  finite_values value written := by
    obtain ⟨leaf, stands, inside⟩ := (predicate.mem_values_leaves value).mp written
    obtain plain | ⟨index, _, rfl⟩ := asserted.leaves leaf stands
    · exact (plain.1 value inside).finite
    · have same : value = .bool true := by
        simpa [Predicate.slotTest, Predicate.values, Operand.values] using inside
      rw [same]
      trivial
  finite_cones := asserted.finite_cones
  truths leaf stands := by
    obtain plain | ⟨index, inside, tested⟩ := asserted.leaves leaf stands
    · exact .inl fun truth written => (plain.1 _ written).ne_bool truth rfl
    · exact .inr ⟨index, by simpa using inside, tested⟩
  folded operand written := by
    obtain ⟨leaf, stands, inside⟩ := (predicate.mem_operands_leaves operand).mp written
    obtain plain | ⟨index, _, rfl⟩ := asserted.leaves leaf stands
    · exact plain.2 operand inside
    · have flat : operand = .field (Cone.slotName index) ∨ operand = .literal (.bool true) := by
        simpa [Predicate.slotTest, Predicate.operands] using inside
      rcases flat with rfl | rfl <;> trivial

/-- Whatever a pass returns is finite, truthless outside of its slots and folded. -/
theorem resolution_canonical (scope : Scope) (node : Node) (resolution : Resolution)
    (resolved : (scope.resolve node).1 = .ok resolution) : resolution.Canonical := by
  obtain ⟨value, extra⟩ := resolution
  cases value with
  | operand operand =>
      obtain ⟨rfl, events, denoted⟩ := (scope.resolve_operand_iff _ _ _).mp resolved
      exact denoted.canonical.resolution
  | condition predicate =>
      obtain ⟨_, events, asserted⟩ := (scope.resolve_condition_iff _ _ _).mp resolved
      exact asserted.resolution

/-! A cone beside arithmetic that has no result: a quotient by zero under a field, and the
least word behind a second sign. -/

def stuckArithmetic : Node :=
  .connect .and
    (.call "Cone" [.literal .integer "10", .negate (.literal .decimal "2.5"),
      .arithmetic .div (.literal .integer "1") (.literal .integer "2")])
    (.relate .greater
      (.arithmetic .add (.column ["mag"])
        (.arithmetic .div (.literal .integer "1") (.literal .integer "0")))
      (.negate (.nested (.negate (.literal .integer "9223372036854775808")))))

def stuckCone : Cone :=
  { ra := Value.wordToFloat 10
    dec := -Float.ofScientific 25 true 1
    radius := Value.wordToFloat 0 }

def stuckResolution : Resolution where
  value := .condition (.and (Predicate.slotTest 0)
    (.compare .greater
      (.binary .add (.field "mag") (.binary .div (.literal (.int 1)) (.literal (.int 0))))
      (.negation (.literal (.int Int64.minValue)))))
  extra := { cones := [stuckCone] }

theorem stuckArithmetic_resolve : (starScope.resolve stuckArithmetic).1 = .ok stuckResolution := rfl

theorem stuckResolution_canonical :
    stuckResolution.Canonical ∧ stuckCone.dec.isFinite = true ∧
      Value.compute? .div (.int 1) (.int 0) = none := by
  have canonical := resolution_canonical starScope stuckArithmetic stuckResolution
    stuckArithmetic_resolve
  exact ⟨canonical, (canonical.finite_cones stuckCone List.mem_cons_self).2.1, rfl⟩

end ConeFilter
