import ConeFilter.Proofs.ExpressionTrees
import Mathlib.Data.List.Basic

/-!
Positions in a tree. A position says which child to go down to, from the root on, and the
subtree there can be exchanged for another. Of two positions that part below some node, the one
that goes to the earlier child precedes the other; then neither subtree lies in the other, and
the second lies wholly to the right of the first.
-/
namespace ConeFilter

/-- Children are counted from zero. -/
abbrev Position := List Nat

inductive Position.Precedes : Position → Position → Prop where
  | parts {index later : Nat} {rest more : Position} (order : index < later) :
      Precedes (index :: rest) (later :: more)
  | shares {index : Nat} {rest more : Position} (below : Precedes rest more) :
      Precedes (index :: rest) (index :: more)

namespace Node

/-- Induction that hands over the children of a node, whatever its kind. -/
theorem child_induction {motive : Node → Prop}
    (step : ∀ node : Node, (∀ child ∈ node.children, motive child) → motive node)
    (node : Node) : motive node := by
  induction node with
  | literal _ _ | column _ | quoted _ | null | unsupported _ => exact step _ (by simp)
  | negate _ ih | not _ ih | nested _ ih => exact step _ (by simpa using ih)
  | connect _ _ _ leftHolds rightHolds | equality _ _ _ leftHolds rightHolds
  | relate _ _ _ leftHolds rightHolds | arithmetic _ _ _ leftHolds rightHolds =>
      exact step _ (by simp [leftHolds, rightHolds])
  | between _ _ _ subjectHolds lowHolds highHolds =>
      exact step _ (by simp [subjectHolds, lowHolds, highHolds])
  | member _ _ subjectHolds itemsHold =>
      exact step _ (List.forall_mem_cons.mpr ⟨subjectHolds, itemsHold⟩)
  | call _ _ argumentsHold => exact step _ argumentsHold

/-- The node over other children, or unchanged if it cannot have that many. -/
def withChildren : Node → List Node → Node
  | .negate _, [inner] => .negate inner
  | .not _, [inner] => .not inner
  | .nested _, [inner] => .nested inner
  | .connect op _ _, [left, right] => .connect op left right
  | .equality op _ _, [left, right] => .equality op left right
  | .relate op _ _, [left, right] => .relate op left right
  | .arithmetic op _ _, [left, right] => .arithmetic op left right
  | .between _ _ _, [subject, low, high] => .between subject low high
  | .member _ _, subject :: items => .member subject items
  | .call name _, arguments => .call name arguments
  | node, _ => node

/-- A position that is not in the tree changes nothing. -/
def replaceAt : Node → Position → Node → Node
  | _, [], new => new
  | node, index :: rest, new =>
      node.withChildren (node.children.modify index fun child => child.replaceAt rest new)

/-- Replacements one after the other, each in the tree that the ones before it left. -/
def replaceAll (node : Node) (replacements : List (Position × Node)) : Node :=
  replacements.foldl (fun tree replaced => tree.replaceAt replaced.1 replaced.2) node

theorem children_withChildren (node : Node) (others : List Node)
    (fits : others.length = node.children.length) :
    (node.withChildren others).children = others := by
  cases node with
  | literal _ _ | column _ | quoted _ | null | unsupported _ =>
      rw [List.length_eq_zero_iff.mp fits]
      rfl
  | negate _ | not _ | nested _ =>
      obtain ⟨inner, rfl⟩ := List.length_eq_one_iff.mp fits
      rfl
  | connect _ _ _ | equality _ _ _ | relate _ _ _ | arithmetic _ _ _ =>
      obtain ⟨left, right, rfl⟩ := List.length_eq_two.mp fits
      rfl
  | between _ _ _ =>
      obtain ⟨subject, low, high, rfl⟩ := List.length_eq_three.mp fits
      rfl
  | member _ _ =>
      obtain ⟨subject, items, rfl⟩ := List.exists_cons_of_length_eq_add_one fits
      rfl
  | call _ _ => rfl

/-! A node keeps its kind when its children change. -/

theorem withChildren_null (node : Node) (others : List Node) :
    node.withChildren others = .null ↔ node = .null := by
  unfold withChildren
  split <;> simp

theorem withChildren_literal (node : Node) (others : List Node) (kind : LiteralKind)
    (raw : String) : node.withChildren others = .literal kind raw ↔ node = .literal kind raw := by
  unfold withChildren
  split <;> simp

end Node

end ConeFilter
