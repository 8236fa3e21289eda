import ConeFilter.Proofs.NumberTokens

/-!
Literals with a sign of their own. Filter text never yields one, but a tree may hold any raw
text, and integers and decimals are read with a sign in front. A minus sign over such a literal
treats the two kinds differently: a decimal is read with its own sign and negated then, while
the minus is put before the text of an integer, where a second sign cannot be read. On every
other literal that is accepted, reading together with the minus is negating afterwards.
-/
namespace ConeFilter

namespace Numeral

def Signed (raw : String) : Prop := raw.toList.head? = some '-' ∨ raw.toList.head? = some '+'

instance (raw : String) : Decidable (Signed raw) := inferInstanceAs (Decidable (_ ∨ _))

theorem Unsigned.not_signed {raw : String} (unsigned : Unsigned raw) : ¬ Signed raw := by
  have head_ne (sign : Char) (other : sign.isDigit = false) : raw.toList.head? ≠ some sign := by
    intro leading
    have digit := unsigned.2 sign (List.mem_of_head? leading)
    rw [other] at digit
    cases digit
  rintro (minus | plus)
  · exact head_ne '-' rfl minus
  · exact head_ne '+' rfl plus

/-- Without a sign nothing but digits is read as an integer. -/
theorem unsigned_of_readWord (raw : String) (word : Int64) (bare : ¬ Signed raw)
    (read : readWord raw = some word) : Unsigned raw := by
  obtain ⟨n, integer, -⟩ := Option.bind_eq_some_iff.mp read
  unfold readInt at integer
  split at integer
  · rename_i digits written
    exact absurd (.inl (by rw [written]; rfl)) bare
  · rename_i digits written
    exact absurd (.inr (by rw [written]; rfl)) bare
  · cases digits : readNat raw.toList with
    | none =>
        rw [digits] at integer
        cases integer
    | some natural => exact (unsigned_iff raw).mpr ⟨natural, digits⟩

end Numeral

theorem Value.numeric_of_negate (value negated : Value) (opposite : value.negate? = some negated) :
    value.isNumeric = true := by
  cases value with
  | int word => rfl
  | float number => rfl
  | text content => cases opposite
  | bool truth => cases opposite

namespace LiteralKind

theorem readNegative_signed (raw : String) (signed : Numeral.Signed raw) :
    LiteralKind.integer.readNegative? raw = none := by
  apply Option.eq_none_iff_forall_ne_some.mpr
  intro value typed
  exact (unsigned_of_readNegative raw value typed).not_signed signed

theorem readNegative_bare (kind : LiteralKind) (raw : String) (value negated : Value)
    (bare : ¬ (kind = .integer ∧ Numeral.Signed raw)) (read : kind.read? raw = some value)
    (opposite : value.negate? = some negated) : kind.readNegative? raw = some negated := by
  have numeric := value.numeric_of_negate negated opposite
  have unsigned : kind = .integer → Numeral.Unsigned raw := by
    rintro rfl
    obtain ⟨word, digits, -⟩ := Option.map_eq_some_iff.mp read
    exact Numeral.unsigned_of_readWord raw word (fun signed => bare ⟨rfl, signed⟩) digits
  rw [readNegative_of_read kind raw value unsigned read numeric, opposite]

end LiteralKind

theorem typeNegative_exact (kind : LiteralKind) (raw : String) (value negated : Value)
    (read : kind.read? raw = some value) (opposite : value.negate? = some negated) :
    typeNegative kind raw = if kind = .integer ∧ Numeral.Signed raw then
      .error (.invalidLiteral ("-" ++ raw)) else .ok negated := by
  by_cases signed : kind = .integer ∧ Numeral.Signed raw
  · rw [if_pos signed]
    obtain ⟨rfl, sign⟩ := signed
    rw [typeNegative, LiteralKind.readNegative_signed raw sign]
  · rw [if_neg signed, typeNegative, kind.readNegative_bare raw value negated signed read opposite]

namespace Scope

/-- Parentheses keep the minus sign away from the text, so the literal is read on its own. -/
theorem resolve_negated_value (scope : Scope) (kind : LiteralKind) (raw : String)
    (value negated : Value) (read : kind.read? raw = some value)
    (opposite : value.negate? = some negated) :
    (scope.resolve (.negate (.nested (.literal kind raw)))).1 = constant (.ok negated) := by
  have numeric := value.numeric_of_negate negated opposite
  have computed : (Operand.literal value).negate = .ok (.literal negated) := by
    simp [Operand.negate, numeric, opposite, pure, Except.pure]
  have denoted : Denotes scope (.negate (.nested (.literal kind raw))) (.literal negated) [] :=
    .negate (by simp) (.nested (.literal read)) computed
  exact (scope.resolve_operand_iff _ _ _).mpr ⟨rfl, [], denoted⟩

/-- A literal that is read and has a negation is negated by a minus sign right in front of it,
unless it is an integer with a sign of its own, which is refused there. -/
theorem signed_integers_refused (kind : LiteralKind) (raw : String) (value negated : Value)
    (typed : typeLiteral kind raw = .ok value) (opposite : value.negate? = some negated) :
    (typeNegative kind raw = if kind = .integer ∧ Numeral.Signed raw then
      .error (.invalidLiteral ("-" ++ raw)) else .ok negated) ∧
    ∀ scope : Scope,
      (scope.resolve (.negate (.literal kind raw))).1 = constant (typeNegative kind raw) ∧
      (scope.resolve (.negate (.nested (.literal kind raw)))).1 = constant (.ok negated) := by
  have read := (typeLiteral_ok kind raw value).mp typed
  refine ⟨typeNegative_exact kind raw value negated read opposite, fun scope => ⟨?_, ?_⟩⟩
  · apply scope.resolve_negative kind raw
    rintro rfl
    cases typed
    cases opposite
  · exact scope.resolve_negated_value kind raw value negated read opposite

theorem padded_integer_negated :
    typeLiteral .integer "007" = .ok (.int 7) ∧
    typeNegative .integer "007" = .ok (.int (-7)) ∧
    typeLiteral .integer "+7" = .ok (.int 7) ∧
    typeNegative .integer "+7" = .error (.invalidLiteral "-+7") := by
  obtain ⟨negated, -⟩ := signed_integers_refused .integer "007" (.int 7) (.int (-7)) rfl rfl
  obtain ⟨refused, -⟩ := signed_integers_refused .integer "+7" (.int 7) (.int (-7)) rfl rfl
  refine ⟨rfl, ?_, rfl, ?_⟩
  · rw [negated, if_neg (by decide)]
  · rw [refused, if_pos (by decide)]
    rfl

/-- The integer is read and has a negation, which is found behind parentheses and not without
them, while a decimal of the same text is negated. -/
theorem signed_integer_not_negated :
    typeLiteral .integer "-5" = .ok (.int (-5)) ∧ (Value.int (-5)).negate? = some (.int 5) ∧
    typeNegative .integer "-5" = .error (.invalidLiteral "--5") ∧
    (starScope.resolve (.negate (.literal .integer "-5"))).1 =
      .error (.invalidLiteral "--5") ∧
    (starScope.resolve (.negate (.nested (.literal .integer "-5")))).1 =
      constant (.ok (.int 5)) ∧
    typeNegative .decimal "-5" = .ok (.float (-(-Float.ofScientific 5 false 0))) :=
  ⟨rfl, rfl, rfl, rfl, rfl, rfl⟩

end Scope

end ConeFilter
