import ConeFilter.Proofs.ConeAccounting
import Mathlib.Algebra.Order.Ring.Nat

/-!
Sizes of results. An operand is never larger than its tree, whatever was computed on the
way. A predicate may be, because a range tests its subject twice. But the subject of a range
is an operand, so no range is ever copied along with it, and however ranges are combined the
result stays below twice the number of nodes that it was resolved from.
-/
namespace ConeFilter

/-! Values, fields, arithmetic and tests count one each, and so does each value of a list. -/

def Operand.size : Operand → Nat
  | .literal _ | .field _ => 1
  | .binary _ left right => 1 + left.size + right.size
  | .negation operand => 1 + operand.size

def Predicate.size : Predicate → Nat
  | .compare _ left right => 1 + left.size + right.size
  | .isNull operand _ => 1 + operand.size
  | .and left right | .or left right => 1 + left.size + right.size
  | .not inner => 1 + inner.size
  | .member operand values => 1 + operand.size + values.length

def Resolved.size : Resolved → Nat
  | .operand value => value.size
  | .condition predicate => predicate.size

namespace Node

def size (node : Node) : Nat := node.subtrees.length

variable {node inner left middle right : Node}

theorem size_children (node : Node) : node.size = (node.children.map size).sum + 1 := by
  unfold size
  rw [subtrees_children, List.length_append, List.length_flatMap]
  rfl

theorem size_pos (node : Node) : 0 < node.size := by
  rw [size_children]
  exact Nat.succ_pos _

theorem size_one (below : node.children = [inner]) : node.size = inner.size + 1 := by
  rw [size_children, below]
  rfl

theorem size_two (below : node.children = [left, right]) :
    node.size = left.size + right.size + 1 := by
  rw [size_children, below]
  simp

theorem size_three (below : node.children = [left, middle, right]) :
    node.size = left.size + middle.size + right.size + 1 := by
  rw [size_children, below]
  simp [Nat.add_assoc]

end Node

/-! What is computed is one value, and what is kept adds one node to its operands. -/

namespace Operand

theorem combine_size_le (op : ArithOp) (left right combined : Operand)
    (result : combine op left right = .ok combined) :
    combined.size ≤ 1 + left.size + right.size := by
  obtain ⟨a, b, value, rfl, rfl, -, rfl⟩ | ⟨rfl, -⟩ := combine_cases _ _ _ _ result
  · simp [size]
  · exact Nat.le_refl _

theorem negate_size_le (operand negated : Operand) (result : operand.negate = .ok negated) :
    negated.size ≤ 1 + operand.size := by
  obtain ⟨value, opposite, rfl, -, rfl⟩ | ⟨rfl, -⟩ := negate_cases _ _ result
  · simp [size]
  · exact Nat.le_refl _

end Operand

namespace Predicate

theorem size_join (op : Connective) (left right : Predicate) :
    (op.join left right).size = 1 + left.size + right.size := by
  cases op <;> rfl

/-- An inequality is the negation of an equality. -/
theorem size_equality_le (op : Equality) (left right : Operand) :
    (op.compare left right).size ≤ 2 + left.size + right.size := by
  have grown : 1 + left.size + right.size ≤ 2 + left.size + right.size := by omega
  cases op with
  | equal => exact grown
  | is => exact grown
  | unequal =>
      change 1 + (1 + left.size + right.size) ≤ 2 + left.size + right.size
      omega

end Predicate

section Derivations
variable {scope : Scope} {first : Nat} {node : Node} {items : List Node}
  {operand : Operand} {values : List Value}
  {predicate : Predicate} {cones : List Cone} {events : List Event}

theorem Denotes.size_le (denoted : Denotes scope node operand events) :
    operand.size ≤ node.size := by
  induction denoted with
  | literal _ => exact Node.size_pos _
  | column _ => exact Node.size_pos _
  | quoted _ => exact Node.size_pos _
  | negateLiteral _ => exact Node.size_pos _
  | negate _ _ result ih =>
      have grown := Operand.negate_size_le _ _ result
      rw [Node.size_one rfl]
      omega
  | nested _ ih =>
      rw [Node.size_one rfl]
      exact Nat.le_succ_of_le ih
  | arithmetic _ _ result leftBound rightBound =>
      have grown := Operand.combine_size_le _ _ _ _ result
      rw [Node.size_two rfl]
      omega

theorem Lists.length_le (listed : Lists scope items values events) :
    values.length ≤ (items.map Node.size).sum := by
  induction listed with
  | nil => exact Nat.le_refl _
  | @cons item _ _ _ _ _ _ _ ih =>
      have counted := item.size_pos
      simp only [List.length_cons, List.map_cons, List.sum_cons]
      omega

/-- The bound is strict, which pays for the test that joins two results. -/
theorem Asserts.size_lt (asserted : Asserts scope first node predicate cones events) :
    predicate.size < 2 * node.size := by
  induction asserted with
  | not _ ih =>
      rw [Node.size_one rfl, Predicate.size]
      omega
  | nested _ ih =>
      rw [Node.size_one rfl]
      omega
  | connect _ _ leftBound rightBound =>
      rw [Node.size_two rfl, Predicate.size_join]
      omega
  | isNull denoted =>
      have bound := denoted.size_le
      rw [Node.size_two rfl, Predicate.size]
      omega
  | @equality _ op _ right before after _ _ leftDenoted rightDenoted =>
      have leftBound := leftDenoted.size_le
      have rightBound := rightDenoted.size_le
      have grown := Predicate.size_equality_le op before after
      have counted := right.size_pos
      rw [Node.size_two rfl]
      omega
  | @relate _ _ _ right _ _ _ _ leftDenoted rightDenoted =>
      have leftBound := leftDenoted.size_le
      have rightBound := rightDenoted.size_le
      have counted := right.size_pos
      rw [Node.size_two rfl, Predicate.size]
      omega
  | @between _ subject low high _ _ _ _ _ _ denoted lowDenoted highDenoted =>
      -- The subject stands in both tests. The bounds stand once and are allowed for twice, which
      -- pays for the second test and the conjunction.
      have bound := denoted.size_le
      have lowBound := lowDenoted.size_le
      have highBound := highDenoted.size_le
      have lowCounted := low.size_pos
      have highCounted := high.size_pos
      rw [Node.size_three rfl]
      simp only [Predicate.size]
      omega
  | @member _ subject items _ _ _ _ denoted listed =>
      have bound := denoted.size_le
      have listedBound := listed.length_le
      have counted : (Node.member subject items).size =
          subject.size + (items.map Node.size).sum + 1 := by
        simp [Node.size_children (.member subject items)]
      have some := subject.size_pos
      rw [counted, Predicate.size]
      omega
  | @cone _ _ ra dec radius _ _ _ _ _ _ _ _ =>
      have counted := ra.size_pos
      rw [Node.size_three rfl]
      simp only [Predicate.size, Operand.size]
      omega

end Derivations

namespace Scope

/-- Whatever a tree resolves to has at most twice as many nodes as the tree. -/
theorem resolve_at_most_doubles (scope : Scope) (node : Node) (resolution : Resolution)
    (accepted : (scope.resolve node).1 = .ok resolution) :
    resolution.value.size ≤ 2 * node.size := by
  obtain ⟨value, extra⟩ := resolution
  cases value with
  | operand operand =>
      obtain ⟨-, events, denoted⟩ := (scope.resolve_operand_iff _ _ _).mp accepted
      have bound : operand.size ≤ node.size := denoted.size_le
      change operand.size ≤ 2 * node.size
      omega
  | condition predicate =>
      obtain ⟨-, events, asserted⟩ := (scope.resolve_condition_iff _ _ _).mp accepted
      exact Nat.le_of_lt asserted.size_lt

end Scope

/-! Two ranges under a disjunction, of which one has a subject that is more than a column. -/

def brightRanges : Node :=
  .connect .or
    (.between (.arithmetic .add (.column ["mag"]) (.negate (.column ["mag"])))
      (.literal .integer "1") (.literal .integer "2"))
    (.not (.between (.column ["mag"]) (.literal .integer "3") (.literal .integer "4")))

def brightRangesResolution : Resolution where
  value := .condition (.or
    (.and
      (.compare .greaterEqual (.binary .add (.field "mag") (.negation (.field "mag")))
        (.literal (.int 1)))
      (.compare .lessEqual (.binary .add (.field "mag") (.negation (.field "mag")))
        (.literal (.int 2))))
    (.not (.and (.compare .greaterEqual (.field "mag") (.literal (.int 3)))
      (.compare .lessEqual (.field "mag") (.literal (.int 4))))))
  extra := {}

theorem brightRanges_resolve :
    (starScope.resolve brightRanges).1 = .ok brightRangesResolution := rfl

theorem brightRanges_doubled : brightRanges.size = 13 ∧ brightRangesResolution.value.size = 22 ∧
    brightRangesResolution.value.size ≤ 2 * brightRanges.size := by
  refine ⟨by decide, by decide, ?_⟩
  exact starScope.resolve_at_most_doubles brightRanges _ brightRanges_resolve

end ConeFilter
