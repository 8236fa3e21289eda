import ConeFilter.Proofs.DecimalDigits
import ConeFilter.Sql.Grammar

/-!
Digits alone, and digits behind a minus, as texts of filters. In every dialect that has a name
they are scanned as one token, or as two, and read as a literal or as its negation.
-/
namespace ConeFilter.Sql

/-! The scanner. A run of digits is one token, however long it is. -/

theorem digitRun_digits (separators : Bool) (digits : Text)
    (all : ∀ c ∈ digits, c.isDigit = true) :
    digitRun Char.isDigit separators digits = (digits, []) := by
  induction digits with
  | nil => rfl
  | cons c rest ih =>
      obtain ⟨digit, others⟩ := List.forall_mem_cons.mp all
      simp [digitRun, digit, ih others]

theorem scanNumber_digits (dialect : Dialect) (digits : Text) (present : digits ≠ [])
    (all : ∀ c ∈ digits, c.isDigit = true) :
    scanNumber dialect digits = (.number (String.ofList digits) false, []) := by
  have point : digits ≠ ['.'] := by
    rintro rfl
    exact absurd (all '.' List.mem_cons_self) (by decide)
  simp [scanNumber, digitRun_digits _ digits all, digitRun, exponentPart, point]

theorem step_digits (dialect : Dialect) (afterWord : Bool) (digits : Text) (present : digits ≠ [])
    (all : ∀ c ∈ digits, c.isDigit = true) :
    step dialect afterWord digits = .token (.number (String.ofList digits) false) [] := by
  have digit (c : Char) (rest : Text) (same : digits = c :: rest) : c.isDigit = true :=
    all c (same ▸ List.mem_cons_self)
  unfold step
  split
  · exact absurd (digit _ _ rfl) (by decide)
  · exact absurd (digit _ _ rfl) (by decide)
  · exact absurd (digit _ _ rfl) (by decide)
  · exact absurd (digit _ _ rfl) (by decide)
  · exact absurd (all '\'' (by simp)) (by decide)
  · rw [if_pos (digit _ _ rfl), scanNumber_digits dialect _ present all]
    rfl
  · exact absurd rfl present

theorem scan_digits (dialect : Dialect) (afterWord : Bool) (digits : Text) (present : digits ≠ [])
    (all : ∀ c ∈ digits, c.isDigit = true) :
    scan dialect afterWord digits = some [.number (String.ofList digits) false] := by
  cases digits with
  | nil => exact absurd rfl present
  | cons c rest =>
      rw [scan, step_digits dialect afterWord _ present all]
      simp [scan]

/-! A minus is a token of its own: no longer operator begins with a minus and a digit, and no
name does. -/

theorem custom_digit (c : Char) (digit : c.isDigit = true) : isCustomPart c = false := by
  have signs : ∀ d ∈ Dialect.backtick :: "+-*/<>=~!@#%^&|?".toList, d.isDigit = false := by
    simp [Dialect.backtick]
  by_contra custom
  rw [Bool.not_eq_false, isCustomPart, Bool.or_eq_true, decide_eq_true_eq, List.contains_iff_mem,
    ← List.mem_cons] at custom
  rw [signs c custom] at digit
  cases digit

theorem operatorAt_minus (c : Char) (rest : Text) (digit : c.isDigit = true) :
    operatorAt ('-' :: c :: rest) = some ("-", true) := by
  have other : ('>' == c) = false := by
    rw [beq_eq_false_iff_ne]
    rintro rfl
    cases digit
  simp [operatorAt, operators, List.find?, List.isPrefixOf, other]

theorem scanOperator_minus (dialect : Dialect) (c : Char) (rest : Text) (digit : c.isDigit = true) :
    scanOperator dialect ('-' :: c :: rest) = some (.symbol "-", c :: rest) := by
  have behind : ('-' :: c :: rest).drop "-".length = c :: rest := rfl
  have ends : (c :: rest).takeWhile isCustomPart = [] := by simp [custom_digit c digit]
  simp only [scanOperator, operatorAt_minus c rest digit, behind, ends]
  simp [operatorSymbol]

def Dialect.ReadsMinus (dialect : Dialect) : Prop :=
  dialect.nameStart '-' = false ∧ '-' ∉ dialect.nameQuotes

theorem Dialect.named_readsMinus (name : String) (dialect : Dialect)
    (known : Dialect.named name = some dialect) : dialect.ReadsMinus := by
  unfold Dialect.named at known
  split at known <;> cases known <;> exact ⟨by decide, by decide⟩

theorem step_minus (dialect : Dialect) (reads : dialect.ReadsMinus) (c : Char) (rest : Text)
    (digit : c.isDigit = true) :
    step dialect false ('-' :: c :: rest) = .token (.symbol "-") (c :: rest) := by
  have quoted : scanQuoted dialect '-' (c :: rest) = .token (.symbol "-") (c :: rest) := by
    simp [scanQuoted, scanOther, reads.1, reads.2, operatorAt_minus c rest digit,
      scanOperator_minus dialect c rest digit, Step.ofToken?, Step.ofToken]
  unfold step
  split
  · next same => cases same
  · next same =>
      cases same
      cases digit
  · next same => cases same
  · next same => cases same
  · next same =>
      cases same
      cases digit
  · next same =>
      cases same
      rw [if_neg (by decide), if_neg (by simp), quoted]
  · next same => cases same

theorem scan_minus (dialect : Dialect) (reads : dialect.ReadsMinus) (digits : Text)
    (present : digits ≠ []) (all : ∀ c ∈ digits, c.isDigit = true) :
    scan dialect false ('-' :: digits) =
      some [.symbol "-", .number (String.ofList digits) false] := by
  cases digits with
  | nil => exact absurd rfl present
  | cons c rest =>
      rw [scan, step_minus dialect reads c rest (all c List.mem_cons_self)]
      simp [scan_digits dialect _ (c :: rest) present all]

/-! The grammar. -/

theorem exprAt_number (dialect : Dialect) (depth strength : Nat) (digits : String) (long : Bool) :
    exprAt dialect (depth + 1) strength [.number digits long] =
      some (.literal (.number digits long), []) := by
  cases depth <;> rfl

theorem expression_minus (dialect : Dialect) (sub : Nat → Reads Expr) (query : Reads Expr)
    (strength : Nat) (token : Token) (operand : Expr)
    (read : sub dialect.strengths.product [token] = some (operand, [])) :
    expression dialect sub query strength [.symbol "-", token] =
      some (.unary .minus operand, []) := by
  have first : plainOperand dialect sub query [.symbol "-", token] =
      some (.unary .minus operand, []) := by
    simp [plainOperand, symbolOperand, signed, read]
  simp [expression, Sql.operand, typedLiteral, typeName, first, collated, expectKeyword, linked,
    operations, link]

theorem exprAt_minus (dialect : Dialect) (depth strength : Nat) (digits : String) (long : Bool) :
    exprAt dialect (depth + 2) strength [.symbol "-", .number digits long] =
      some (.unary .minus (.literal (.number digits long)), []) :=
  expression_minus dialect _ _ _ _ _ (exprAt_number dialect depth _ digits long)

section
variable (dialect : Dialect) (digits : String) (present : digits ≠ "")
  (all : ∀ c ∈ digits.toList, c.isDigit = true)
include present all

theorem parse_digits : parse dialect digits = .ok (.literal (.number digits false)) := by
  have nonempty : digits.toList ≠ [] := fun empty => present (String.toList_eq_nil_iff.mp empty)
  have scanned : tokens dialect digits = some [.number digits false] := by
    rw [tokens, scan_digits dialect false _ nonempty all, String.ofList_toList]
  rw [parse, scanned, Option.bind_some, depthLimit, exprAt_number dialect 49]
  rfl

theorem parse_minus (reads : dialect.ReadsMinus) :
    parse dialect ("-" ++ digits) = .ok (.unary .minus (.literal (.number digits false))) := by
  have nonempty : digits.toList ≠ [] := fun empty => present (String.toList_eq_nil_iff.mp empty)
  have scanned : tokens dialect ("-" ++ digits) = some [.symbol "-", .number digits false] := by
    rw [tokens, Numeral.minus_toList, scan_minus dialect reads _ nonempty all,
      String.ofList_toList]
  rw [parse, scanned, Option.bind_some, depthLimit, exprAt_minus dialect 48]
  rfl

end

end ConeFilter.Sql
