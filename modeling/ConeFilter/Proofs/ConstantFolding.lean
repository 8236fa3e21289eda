import ConeFilter.Resolution.Folding
import ConeFilter.Resolution.Literal

/-!
What arithmetic leaves behind. An operation on two operands is either computed,
and then both were literals and so is the result, or it stays as it was
written, and then two literals are numbers without a result. The same holds of
a negation. Whatever is computed is a number.
-/
namespace ConeFilter

namespace Value

theorem ofInt_numeric (n : Int) (value : Value) (exact : ofInt? n = some value) :
    value.isNumeric = true := by
  obtain ⟨word, _, rfl⟩ := Option.map_eq_some_iff.mp exact
  rfl

theorem negate_numeric (value negated : Value) (result : value.negate? = some negated) :
    negated.isNumeric = true := by
  cases value with
  | int word => exact ofInt_numeric _ _ result
  | float number =>
      cases result
      rfl
  | text content => cases result
  | bool truth => cases result

theorem compute_numeric (op : ArithOp) (left right computed : Value)
    (result : compute? op left right = some computed) : computed.isNumeric = true := by
  unfold compute? at result
  split at result
  · obtain ⟨n, _, exact⟩ := Option.bind_eq_some_iff.mp result
    exact ofInt_numeric n computed exact
  · simp only [Option.bind_eq_bind, Option.bind_eq_some_iff] at result
    obtain ⟨_, _, _, _, number, _, kept⟩ := result
    split at kept
    · cases kept
      rfl
    · cases kept

end Value

namespace LiteralKind

theorem read_not_bool (kind : LiteralKind) (raw : String) (truth : Bool) :
    kind.read? raw ≠ some (.bool truth) := by
  cases kind <;> simp [read?]

theorem readNegative_numeric (kind : LiteralKind) (raw : String) (value : Value)
    (typed : kind.readNegative? raw = some value) : value.isNumeric = true := by
  cases kind with
  | string => cases typed
  | integer =>
      obtain ⟨word, _, rfl⟩ := Option.map_eq_some_iff.mp typed
      rfl
  | decimal =>
      obtain ⟨number, _, rfl⟩ := Option.map_eq_some_iff.mp typed
      rfl
  | other => cases typed

end LiteralKind

namespace Operand

theorem combine_cases (op : ArithOp) (left right combined : Operand)
    (result : combine op left right = .ok combined) :
    (∃ a b value, left = .literal a ∧ right = .literal b ∧
      Value.compute? op a b = some value ∧ combined = .literal value) ∨
    (combined = .binary op left right ∧ ∀ a b, left = .literal a → right = .literal b →
      a.isNumeric = true ∧ b.isNumeric = true ∧ Value.compute? op a b = none) := by
  unfold combine at result
  split at result
  · rename_i a b
    cases leftNumeric : a.isNumeric with
    | false => simp [requireNumeric, leftNumeric, bind, Except.bind] at result
    | true =>
        cases rightNumeric : b.isNumeric with
        | false => simp [requireNumeric, leftNumeric, rightNumeric, bind, Except.bind] at result
        | true =>
            simp only [requireNumeric, leftNumeric, rightNumeric, bind, Except.bind, if_true]
              at result
            split at result
            · rename_i folded computed
              cases result
              exact .inl ⟨a, b, folded, rfl, rfl, computed, rfl⟩
            · rename_i stuck
              cases result
              refine .inr ⟨rfl, ?_⟩
              rintro _ _ ⟨rfl⟩ ⟨rfl⟩
              exact ⟨leftNumeric, rightNumeric, stuck⟩
  · rename_i composed
    cases result
    refine .inr ⟨rfl, ?_⟩
    rintro a b rfl rfl
    exact absurd rfl (composed a b rfl)

/-- Two literals have to be numbers, and nothing else keeps operands apart. -/
theorem combine_succeeds_iff (op : ArithOp) (left right : Operand) :
    (∃ combined, combine op left right = .ok combined) ↔
      ∀ a b, left = .literal a → right = .literal b →
        a.isNumeric = true ∧ b.isNumeric = true := by
  constructor
  · rintro ⟨combined, result⟩ a b rfl rfl
    cases leftNumeric : a.isNumeric with
    | false => simp [combine, requireNumeric, leftNumeric, bind, Except.bind] at result
    | true =>
        cases rightNumeric : b.isNumeric with
        | false =>
            simp [combine, requireNumeric, leftNumeric, rightNumeric, bind, Except.bind] at result
        | true => exact ⟨rfl, rfl⟩
  · intro numbers
    unfold combine
    split
    · rename_i a b
      obtain ⟨leftNumeric, rightNumeric⟩ := numbers a b rfl rfl
      simp only [requireNumeric, leftNumeric, rightNumeric, bind, Except.bind, if_true]
      split <;> exact ⟨_, rfl⟩
    · exact ⟨_, rfl⟩

theorem negate_cases (operand negated : Operand) (result : operand.negate = .ok negated) :
    (∃ value opposite, operand = .literal value ∧ value.negate? = some opposite ∧
      negated = .literal opposite) ∨
    (negated = .negation operand ∧ ∀ value, operand = .literal value →
      value.isNumeric = true ∧ value.negate? = none) := by
  unfold negate at result
  split at result
  · rename_i value
    split at result
    · rename_i numeric
      split at result
      · rename_i opposite computed
        cases result
        exact .inl ⟨value, opposite, rfl, computed, rfl⟩
      · rename_i stuck
        cases result
        refine .inr ⟨rfl, ?_⟩
        rintro _ ⟨rfl⟩
        exact ⟨numeric, stuck⟩
    · cases result
  · rename_i composed
    cases result
    refine .inr ⟨rfl, ?_⟩
    rintro value rfl
    exact absurd rfl (composed value)

theorem negate_succeeds_iff (operand : Operand) :
    (∃ negated, operand.negate = .ok negated) ↔
      ∀ value, operand = .literal value → value.isNumeric = true := by
  constructor
  · rintro ⟨negated, result⟩ value rfl
    cases numeric : value.isNumeric with
    | false => simp [negate, numeric] at result
    | true => rfl
  · intro number
    unfold negate
    split
    · rename_i value
      rw [if_pos (number value rfl)]
      split <;> exact ⟨_, rfl⟩
    · exact ⟨_, rfl⟩

end Operand

end ConeFilter
