import ConeFilter.Proofs.ConstantFolding
import ConeFilter.Proofs.PassDerivations
import ConeFilter.Proofs.SlotNames
import Mathlib.Data.List.Forall2
import Mathlib.Data.List.Nodup

/-!
Cones and their slots. A pass that ends in a predicate has recorded one cone for
each cone call of the tree, with the numbers that the arguments of that call
resolve to, and the predicate tests their slots from left to right without a
gap or a repetition. The derivation of a tree behind `first` cones names its
slots from `first` on, which is the form in which both facts are inductive.
-/
namespace ConeFilter

namespace Predicate

/-- The tests of a predicate that combine no others, from left to right. -/
def leaves : Predicate → List Predicate
  | .and left right | .or left right => left.leaves ++ right.leaves
  | .not inner => inner.leaves
  | leaf => [leaf]

/-- The field that a leaf tests for truth. -/
def slotField? : Predicate → Option String
  | .compare .equal (.field name) (.literal (.bool true)) => some name
  | _ => none

def slotFields (predicate : Predicate) : List String := predicate.leaves.filterMap slotField?

theorem slotFields_join (op : Connective) (left right : Predicate) :
    (op.join left right).slotFields = left.slotFields ++ right.slotFields := by
  cases op <;> simp [Connective.join, slotFields, leaves]

theorem slotFields_not (inner : Predicate) : (Predicate.not inner).slotFields = inner.slotFields :=
  rfl

theorem slotField_compare (op : CompareOp) (left right : Operand)
    (untrue : right ≠ .literal (.bool true)) : slotField? (.compare op left right) = none := by
  unfold slotField?
  split
  · rename_i same
    cases same
    exact absurd rfl untrue
  · rfl

theorem slotFields_compare (op : CompareOp) (left right : Operand)
    (untrue : right ≠ .literal (.bool true)) :
    (Predicate.compare op left right).slotFields = [] := by
  simp [slotFields, leaves, slotField_compare op left right untrue]

end Predicate

namespace Scope

/-- A whole pass over the tree ends in a literal with the given number. -/
def ResolvesTo (scope : Scope) (node : Node) (number : Float) : Prop :=
  ∃ value extra, (scope.resolve node).1 = .ok { value := .operand (.literal value), extra } ∧
    value.toFloat? = some number

/-- The cone that a call describes when its arguments are resolved on their own. -/
def Describes (scope : Scope) (arguments : List Node) (cone : Cone) : Prop :=
  ∃ ra dec radius, arguments = [ra, dec, radius] ∧ scope.ResolvesTo ra cone.ra ∧
    scope.ResolvesTo dec cone.dec ∧ scope.ResolvesTo radius cone.radius

end Scope

section Derivations
variable {scope : Scope} {first : Nat} {node argument : Node} {items : List Node}
  {operand : Operand} {values : List Value} {number : Float}
  {predicate : Predicate} {cones : List Cone} {events : List Event}

/-- Truth values come from cones alone. -/
theorem Denotes.ne_bool (denoted : Denotes scope node operand events) (truth : Bool) :
    operand ≠ .literal (.bool truth) := by
  induction denoted with
  | literal typed =>
      rintro ⟨rfl⟩
      exact absurd typed (LiteralKind.read_not_bool _ _ truth)
  | column _ => simp
  | quoted _ => simp
  | negateLiteral typed =>
      rintro ⟨rfl⟩
      exact absurd (LiteralKind.readNegative_numeric _ _ _ typed) (by simp [Value.isNumeric])
  | negate _ _ result _ =>
      obtain ⟨value, opposite, _, computed, rfl⟩ | ⟨rfl, _⟩ := Operand.negate_cases _ _ result
      · rintro ⟨rfl⟩
        exact absurd (Value.negate_numeric _ _ computed) (by simp [Value.isNumeric])
      · simp
  | nested _ ih => exact ih
  | arithmetic _ _ result _ _ =>
      obtain ⟨a, b, value, _, _, computed, rfl⟩ | ⟨rfl, _⟩ := Operand.combine_cases _ _ _ _ result
      · rintro ⟨rfl⟩
        exact absurd (Value.compute_numeric _ _ _ _ computed) (by simp [Value.isNumeric])
      · simp

theorem Asserts.slotFields (asserted : Asserts scope first node predicate cones events) :
    predicate.slotFields = (List.range' first cones.length).map Cone.slotName := by
  induction asserted with
  | not _ ih => rw [Predicate.slotFields_not, ih]
  | nested _ ih => exact ih
  | connect _ _ leftSlots rightSlots =>
      rw [Predicate.slotFields_join, leftSlots, rightSlots, ← List.map_append, List.range'_append_1,
        List.length_append]
  | isNull _ => rfl
  | @equality _ op _ _ before _ _ _ _ rightDenoted =>
      have plain := Predicate.slotFields_compare .equal before _ (rightDenoted.ne_bool true)
      cases op <;> simp [Equality.compare, Equality.positive, Predicate.slotFields_not, plain]
  | relate _ rightDenoted =>
      simp [Predicate.slotFields_compare _ _ _ (rightDenoted.ne_bool true)]
  | between _ lowDenoted highDenoted => rfl
  | member _ _ => rfl
  | cone _ _ _ _ => rfl

/-- An operand has no place for a condition, so none for a cone call. -/
theorem Denotes.coneless (denoted : Denotes scope node operand events) : node.coneCalls = [] := by
  induction denoted with
  | literal _ => rfl
  | column _ => rfl
  | quoted _ => rfl
  | negateLiteral _ => rfl
  | negate _ _ _ ih => rw [Node.coneCalls_children]; simp [ih]
  | nested _ ih => rw [Node.coneCalls_children]; simp [ih]
  | arithmetic _ _ _ leftNone rightNone =>
      rw [Node.coneCalls_children]
      simp [leftNone, rightNone]

theorem Lists.coneless (listed : Lists scope items values events) :
    items.flatMap Node.coneCalls = [] := by
  induction listed with
  | nil => rfl
  | cons head _ ih => rw [List.flatMap_cons, head.coneless, ih, List.nil_append]

theorem Measures.coneless (measured : Measures scope argument number events) :
    argument.coneCalls = [] := by
  obtain ⟨_, denoted, _⟩ := measured
  exact denoted.coneless

theorem Measures.resolvesTo (measured : Measures scope argument number events) :
    scope.ResolvesTo argument number := by
  obtain ⟨value, denoted, numeric⟩ := measured
  exact ⟨value, {}, (scope.resolve_operand_iff _ _ _).mpr ⟨rfl, events, denoted⟩, numeric⟩

theorem Asserts.cones_described (asserted : Asserts scope first node predicate cones events) :
    List.Forall₂ scope.Describes node.coneCalls cones := by
  induction asserted with
  | not _ ih => rw [Node.coneCalls_children]; simpa using ih
  | nested _ ih => rw [Node.coneCalls_children]; simpa using ih
  | connect _ _ leftDescribed rightDescribed =>
      rw [Node.coneCalls_children]
      simpa using List.rel_append leftDescribed rightDescribed
  | isNull denoted =>
      rw [Node.coneCalls_children]
      simp [denoted.coneless, Node.coneCalls_null]
  | equality leftDenoted rightDenoted =>
      rw [Node.coneCalls_children]
      simp [leftDenoted.coneless, rightDenoted.coneless]
  | relate leftDenoted rightDenoted =>
      rw [Node.coneCalls_children]
      simp [leftDenoted.coneless, rightDenoted.coneless]
  | between denoted lowDenoted highDenoted =>
      rw [Node.coneCalls_children]
      simp [denoted.coneless, lowDenoted.coneless, highDenoted.coneless]
  | member denoted listed =>
      rw [Node.coneCalls_children]
      simp [denoted.coneless, listed.coneless]
  | cone named raMeasured decMeasured radiusMeasured =>
      rw [Node.coneCalls_children]
      simp only [Node.children, Node.coneArguments?, named, if_true, List.flatMap_cons,
        List.flatMap_nil, raMeasured.coneless, decMeasured.coneless, radiusMeasured.coneless,
        List.nil_append, Option.toList_some]
      exact .cons ⟨_, _, _, rfl, raMeasured.resolvesTo, decMeasured.resolvesTo,
        radiusMeasured.resolvesTo⟩ .nil

end Derivations

namespace Predicate

/-- Every cone call has its cone and its slot, in the order of the calls. -/
theorem cones_accounted (scope : Scope) (node : Node) (predicate : Predicate) (extra : Extra)
    (resolved : (scope.resolve node).1 = .ok { value := .condition predicate, extra }) :
    List.Forall₂ scope.Describes node.coneCalls extra.cones ∧
      predicate.slotFields = (List.range extra.cones.length).map Cone.slotName ∧
      predicate.slotFields.Nodup ∧
      (∀ index (inside : index < extra.cones.length), index < Numeral.indexLimit →
        extra.coneFor (Cone.slotName index) = some extra.cones[index]) ∧
      extra.aliases = {} := by
  obtain ⟨unaliased, events, asserted⟩ := (scope.resolve_condition_iff _ _ _).mp resolved
  have slots : predicate.slotFields = (List.range extra.cones.length).map Cone.slotName := by
    rw [asserted.slotFields, List.range_eq_range']
  have distinct : predicate.slotFields.Nodup := by
    rw [slots]
    exact List.Nodup.map Cone.slotName_injective List.nodup_range
  refine ⟨asserted.cones_described, slots, distinct, fun index inside fits => ?_, unaliased⟩
  rw [extra.coneFor_slotName index fits, List.getElem?_eq_getElem inside]

end Predicate

/-! A filter with two cones and a range between them. -/

def starSchema : Registry :=
  { models := [{ name := "Star", fields := [⟨"mag", .float⟩, ⟨"cone", .text⟩] }] }

def starScope : Scope := { catalog := starSchema.catalog, model := "Star" }

def integers (texts : List String) : List Node := texts.map (Node.literal .integer)

def twoCones : Node :=
  .connect .and (.nested (.call "cone" (integers ["1", "2", "3"])))
    (.connect .or
      (.between (.column ["mag"]) (.literal .integer "1") (.negate (.literal .integer "5")))
      (.not (.call "CONE" (integers ["4", "5", "6"]))))

def twoSlots : Predicate :=
  .and (.compare .equal (.field (Cone.slotName 0)) (.literal (.bool true)))
    (.or
      (.and (.compare .greaterEqual (.field "mag") (.literal (.int 1)))
        (.compare .lessEqual (.field "mag") (.literal (.int (-5)))))
      (.not (.compare .equal (.field (Cone.slotName 1)) (.literal (.bool true)))))

def firstCone : Cone :=
  { ra := Value.wordToFloat 1, dec := Value.wordToFloat 2, radius := Value.wordToFloat 3 }

def secondCone : Cone :=
  { ra := Value.wordToFloat 4, dec := Value.wordToFloat 5, radius := Value.wordToFloat 6 }

theorem twoCones_resolve : (starScope.resolve twoCones).1 =
    .ok { value := .condition twoSlots, extra := { cones := [firstCone, secondCone] } } := rfl

theorem twoCones_accounted :
    List.Forall₂ starScope.Describes [integers ["1", "2", "3"], integers ["4", "5", "6"]]
      [firstCone, secondCone] ∧
    twoSlots.slotFields = [Cone.slotName 0, Cone.slotName 1] ∧
    ({ cones := [firstCone, secondCone] } : Extra).coneFor (Cone.slotName 1) = some secondCone := by
  obtain ⟨described, slots, -, found, -⟩ := Predicate.cones_accounted _ _ _ _ twoCones_resolve
  exact ⟨described, slots, found 1 (by decide) (by decide)⟩

end ConeFilter
