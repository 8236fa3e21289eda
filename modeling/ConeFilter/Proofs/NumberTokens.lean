import ConeFilter.Filter
import ConeFilter.Proofs.IntegerFolding
import ConeFilter.Proofs.PrintedNumbers

/-!
Numbers on their way from filter text to values. A token of digits is the integer of its
digits, however they are separated, and has to be a word; a minus in front of it lets in one
integer more. A token with a point or an exponent is never an integer, and has to be finite as
a double. Between the token and its value stand only signs, of which a plus leaves nothing
behind, so the printed form of every word is a filter that resolves to that word, wherever
digits and a minus are read as what they are.
-/
namespace ConeFilter

/-! What a token of a number looks like. -/

namespace Numeral

/-- Digits with separators anywhere between them, and at least one digit. -/
def Separated (text : List Char) : Prop :=
  (∀ c ∈ text, c.isDigit = true ∨ c = '_') ∧ ∃ c ∈ text, c.isDigit = true

def separatedValue (text : List Char) : Nat := natOfDigits (text.filter Char.isDigit)

inductive Exponent : List Char → Prop where
  | intro {mark : Char} {sign digits : List Char} (marked : mark = 'e' ∨ mark = 'E')
      (signed : sign = [] ∨ sign = ['+'] ∨ sign = ['-']) (separated : Separated digits) :
      Exponent (mark :: (sign ++ digits))

/-- A significand with a point, with an exponent or with both. -/
inductive Fractional : List Char → Prop where
  | point {whole fraction exponent : List Char} (separated : Separated (whole ++ fraction))
      (scaled : exponent = [] ∨ Exponent exponent) :
      Fractional (whole ++ '.' :: (fraction ++ exponent))
  | scaled {whole exponent : List Char} (separated : Separated whole)
      (scaled : Exponent exponent) : Fractional (whole ++ exponent)

/-! The separators are taken out first, and what is left has the same shape without them. -/

def strip (text : List Char) : List Char := text.filter (· != '_')

theorem strip_append (first second : List Char) :
    strip (first ++ second) = strip first ++ strip second := List.filter_append ..

theorem strip_digits (text : List Char) (run : ∀ c ∈ text, c.isDigit = true ∨ c = '_') :
    strip text = text.filter Char.isDigit := by
  apply List.filter_congr
  intro c inside
  rcases run c inside with digit | rfl
  · have other : c ≠ '_' := by
      rintro rfl
      cases digit
    simp [digit, other]
  · rfl

theorem digits_filter (text : List Char) : ∀ c ∈ text.filter Char.isDigit, c.isDigit = true :=
  fun _ inside => (List.mem_filter.mp inside).2

theorem Separated.ne_nil {text : List Char} (separated : Separated text) :
    text.filter Char.isDigit ≠ [] := by
  obtain ⟨c, inside, digit⟩ := separated.2
  exact List.ne_nil_of_mem (List.mem_filter.mpr ⟨inside, digit⟩)

theorem Separated.readNat {text : List Char} (separated : Separated text) :
    readNat (strip text) = some (separatedValue text) := by
  have all : (text.filter Char.isDigit).all Char.isDigit = true :=
    List.all_eq_true.mpr (digits_filter text)
  simp [Numeral.readNat, strip_digits text separated.1, separated.ne_nil, all, separatedValue]

/-! Reading what is left. A digit anywhere rules out the names of special numbers. -/

theorem readSpecial_digit (negative : Bool) (text : List Char) (c : Char) (inside : c ∈ text)
    (digit : c.isDigit = true) : readSpecial negative text = none := by
  have kept : c.toLower.isDigit = true := by
    have greatest : c.val ≤ '9'.val := of_decide_eq_true (Bool.and_eq_true_iff.mp digit).2
    have small : ¬ (c.val ≥ 'A'.val ∧ c.val ≤ 'Z'.val) := by
      rintro ⟨least, -⟩
      exact absurd (UInt32.le_trans least greatest) (by decide)
    rwa [Char.toLower, dif_neg small]
  have named (name : String) (letters : ∀ d ∈ name.toList, d.isDigit = false) :
      String.ofList (text.map Char.toLower) ≠ name := by
    rintro rfl
    have listed : c.toLower ∈ (String.ofList (text.map Char.toLower)).toList := by
      simpa using ⟨c, inside, rfl⟩
    rw [letters _ listed] at kept
    cases kept
  simp [readSpecial, named "inf" (by simp), named "infinity" (by simp), named "nan" (by simp)]

theorem splitSign_unsigned (text : List Char) (first : text.head? ≠ some '-')
    (second : text.head? ≠ some '+') : splitSign text = (false, text) := by
  unfold splitSign
  split
  · exact absurd rfl first
  · exact absurd rfl second
  · rfl

/-- What may stand behind a significand: an exponent that can be read, or nothing. -/
theorem readExponent_strip (text : List Char) (scaled : text = [] ∨ Exponent text) :
    (∃ n, readExponent (strip text) = some n) ∧ (strip text).takeWhile Char.isDigit = [] ∧
      (strip text).head? ≠ some '.' := by
  rcases scaled with rfl | @⟨mark, sign, digits, marked, signed, separated⟩
  · exact ⟨⟨0, rfl⟩, rfl, by simp [strip]⟩
  · have shown : strip (mark :: (sign ++ digits)) = mark :: (sign ++ strip digits) := by
      rcases marked with rfl | rfl <;> rcases signed with rfl | rfl | rfl <;> rfl
    have read : ∃ n, readInt (sign ++ strip digits) = some n := by
      rcases signed with rfl | rfl | rfl
      · exact ⟨_, readInt_digits _ _ separated.readNat⟩
      · exact ⟨_, by rw [List.singleton_append, readInt, separated.readNat]; rfl⟩
      · exact ⟨_, by rw [List.singleton_append, readInt_minus, separated.readNat]; rfl⟩
    obtain ⟨n, read⟩ := read
    rw [shown]
    refine ⟨⟨n, by rw [readExponent, if_pos marked, read]⟩, ?_, ?_⟩
    · rcases marked with rfl | rfl <;> rfl
    · rcases marked with rfl | rfl <;> simp

theorem digits_then (digits rest : List Char) (all : ∀ c ∈ digits, c.isDigit = true)
    (ends : rest.takeWhile Char.isDigit = []) :
    (digits ++ rest).takeWhile Char.isDigit = digits ∧
      (digits ++ rest).dropWhile Char.isDigit = rest := by
  have whole := List.takeWhile_append_dropWhile (p := Char.isDigit) (l := rest)
  rw [ends, List.nil_append] at whole
  rw [List.takeWhile_append_of_pos all, List.dropWhile_append_of_pos all, ends, whole]
  exact ⟨List.append_nil _, rfl⟩

theorem head_digits {digits rest : List Char} (all : ∀ c ∈ digits, c.isDigit = true) (c : Char)
    (first : c ∈ (digits ++ rest).head?) : c.isDigit = true ∨ digits = [] ∧ c ∈ rest.head? := by
  cases digits with
  | nil => exact .inr ⟨rfl, first⟩
  | cons d others =>
      obtain rfl : d = c := Option.some.inj first
      exact .inl (all d List.mem_cons_self)

theorem readUnsigned_point (negative : Bool) (whole fraction rest : List Char) (exponent : Int)
    (all : ∀ c ∈ whole ++ fraction, c.isDigit = true) (present : whole ++ fraction ≠ [])
    (ends : rest.takeWhile Char.isDigit = []) (scaled : readExponent rest = some exponent) :
    readUnsigned negative (whole ++ '.' :: (fraction ++ rest)) =
      some (.finite negative (natOfDigits (whole ++ fraction)) (exponent - fraction.length)) := by
  obtain ⟨wholeDigits, fractionDigits⟩ := List.forall_mem_append.mp all
  obtain ⟨taken, dropped⟩ := digits_then whole ('.' :: (fraction ++ rest)) wholeDigits rfl
  obtain ⟨behind, left⟩ := digits_then fraction rest fractionDigits ends
  have given : (whole.isEmpty && fraction.isEmpty) = false := by
    simpa [Bool.and_eq_false_iff, ← not_and_or] using present
  simp [readUnsigned, Numeral.fractionDigits, taken, dropped, behind, left, given, scaled]

theorem readUnsigned_whole (negative : Bool) (whole rest : List Char) (exponent : Int)
    (all : ∀ c ∈ whole, c.isDigit = true) (present : whole ≠ [])
    (ends : rest.takeWhile Char.isDigit = []) (pointless : rest.head? ≠ some '.')
    (scaled : readExponent rest = some exponent) :
    readUnsigned negative (whole ++ rest) =
      some (.finite negative (natOfDigits whole) exponent) := by
  obtain ⟨taken, dropped⟩ := digits_then whole rest all ends
  have unsplit : fractionDigits rest = ([], rest) := by
    unfold fractionDigits
    split
    · exact absurd rfl pointless
    · rfl
  simp [readUnsigned, taken, dropped, unsplit, present, scaled]

theorem readFloat_unsigned (text : List Char) (decimal : Decimal)
    (digit : ∃ c ∈ text, c.isDigit = true)
    (leading : ∀ c ∈ text.head?, c.isDigit = true ∨ c = '.')
    (read : readUnsigned false text = some decimal) :
    readFloat (String.ofList text) = some decimal.toFloat := by
  obtain ⟨c, inside, digit⟩ := digit
  have unsigned : splitSign text = (false, text) := by
    apply splitSign_unsigned
    · intro minus
      rcases leading '-' minus with other | other <;> cases other
    · intro plus
      rcases leading '+' plus with other | other <;> cases other
  simp [readFloat, readDecimal, unsigned, readSpecial_digit false text c inside digit, read]

theorem readFloat_point (whole fraction rest : List Char) (exponent : Int)
    (all : ∀ c ∈ whole ++ fraction, c.isDigit = true) (present : whole ++ fraction ≠ [])
    (ends : rest.takeWhile Char.isDigit = []) (scaled : readExponent rest = some exponent) :
    ∃ number, readFloat (String.ofList (whole ++ '.' :: (fraction ++ rest))) = some number := by
  have unsigned := readUnsigned_point false whole fraction rest exponent all present ends scaled
  refine ⟨_, readFloat_unsigned _ _ ?_ ?_ unsigned⟩
  · obtain ⟨c, inside⟩ := List.exists_mem_of_ne_nil _ present
    refine ⟨c, ?_, all c inside⟩
    rcases List.mem_append.mp inside with before | behind <;> simp [*]
  · intro c first
    rcases head_digits (List.forall_mem_append.mp all).1 c first with digit | ⟨-, point⟩
    · exact .inl digit
    · exact .inr (Option.some.inj point).symm

theorem readFloat_whole (whole rest : List Char) (exponent : Int)
    (all : ∀ c ∈ whole, c.isDigit = true) (present : whole ≠ [])
    (ends : rest.takeWhile Char.isDigit = []) (pointless : rest.head? ≠ some '.')
    (scaled : readExponent rest = some exponent) :
    ∃ number, readFloat (String.ofList (whole ++ rest)) = some number := by
  have unsigned := readUnsigned_whole false whole rest exponent all present ends pointless scaled
  refine ⟨_, readFloat_unsigned _ _ ?_ ?_ unsigned⟩
  · obtain ⟨c, inside⟩ := List.exists_mem_of_ne_nil _ present
    exact ⟨c, List.mem_append_left _ inside, all c inside⟩
  · intro c first
    rcases head_digits all c first with digit | ⟨empty, -⟩
    · exact .inl digit
    · exact absurd empty present

/-- A token with a point or an exponent is read, and is no run of digits. -/
theorem Fractional.read {text : List Char} (fractional : Fractional text) :
    (∃ number, readFloat (String.ofList (strip text)) = some number) ∧
      (strip text).all Char.isDigit = false := by
  cases fractional with
  | @point whole fraction exponent separated scaled =>
      obtain ⟨⟨n, read⟩, ends, -⟩ := readExponent_strip exponent scaled
      obtain ⟨wholeRun, fractionRun⟩ := List.forall_mem_append.mp separated.1
      have present := separated.ne_nil
      rw [List.filter_append] at present
      have shown : strip (whole ++ '.' :: (fraction ++ exponent)) =
          whole.filter Char.isDigit ++ '.' :: (fraction.filter Char.isDigit ++ strip exponent) := by
        rw [← strip_digits whole wholeRun, ← strip_digits fraction fractionRun, ← strip_append,
          strip_append]
        rfl
      have all : ∀ c ∈ whole.filter Char.isDigit ++ fraction.filter Char.isDigit,
          c.isDigit = true :=
        List.forall_mem_append.mpr ⟨digits_filter whole, digits_filter fraction⟩
      rw [shown]
      exact ⟨readFloat_point _ _ _ n all present ends read, by simp⟩
  | @scaled whole exponent separated scaled =>
      obtain ⟨⟨n, read⟩, ends, pointless⟩ := readExponent_strip exponent (.inr scaled)
      rw [strip_append, strip_digits whole separated.1]
      refine ⟨readFloat_whole _ _ n (digits_filter whole) separated.ne_nil ends pointless read, ?_⟩
      obtain @⟨mark, sign, digits, marked, -, -⟩ := scaled
      rcases marked with rfl | rfl <;> simp [strip]

end Numeral

/-! Tokens become literals, and plus signs become nothing. -/

open Sql

theorem lower_integer (token : String) (long : Bool) (separated : Numeral.Separated token.toList) :
    lower (.literal (.number token long)) = .literal .integer (withoutSeparators token) := by
  have digits := Numeral.digits_of_readNat _ _ separated.readNat
  have present : Numeral.strip token.toList ≠ [] := by
    rw [Numeral.strip_digits _ separated.1]
    exact separated.ne_nil
  have kind : numberKind (withoutSeparators token) = .integer := by
    unfold Numeral.strip at digits present
    simp [numberKind, withoutSeparators, digits, present]
  rw [lower, lowerLiteral, kind]

theorem lower_fractional (token : String) (long : Bool)
    (fractional : Numeral.Fractional token.toList) :
    lower (.literal (.number token long)) = .literal .decimal (withoutSeparators token) := by
  have mixed := fractional.read.2
  unfold Numeral.strip at mixed
  have kind : numberKind (withoutSeparators token) = .decimal := by
    simp [numberKind, withoutSeparators, mixed]
  rw [lower, lowerLiteral, kind]

def plusSigns : Nat → Expr → Expr
  | 0, operand => operand
  | count + 1, operand => .unary .plus (plusSigns count operand)

theorem lower_plusSigns (count : Nat) (operand : Expr) :
    lower (plusSigns count operand) = lower operand := by
  induction count with
  | zero => rfl
  | succ count ih => rw [plusSigns, lower, ih]

/-! Literals become values. -/

namespace Scope

/-- The outcome of a pass that has nothing but a value to return. -/
def constant (outcome : Except Failure Value) : Except Failure Resolution :=
  outcome.map fun value => { value := .operand (.literal value), extra := {} }

theorem resolve_literal (scope : Scope) (kind : LiteralKind) (raw : String) :
    (scope.resolve (.literal kind raw)).1 = constant (typeLiteral kind raw) := by
  unfold resolve Node.resolve
  cases typeLiteral kind raw <;> rfl

theorem resolve_negative (scope : Scope) (kind : LiteralKind) (raw : String)
    (numeric : kind ≠ .string) :
    (scope.resolve (.negate (.literal kind raw))).1 = constant (typeNegative kind raw) := by
  unfold resolve Node.resolve
  rw [if_neg numeric]
  cases typeNegative kind raw <;> rfl

end Scope

section
variable (raw : String) (n : Nat) (digits : Numeral.readNat raw.toList = some n)
include digits

theorem typeLiteral_word (word : Int64) (same : word.toInt = n) :
    typeLiteral .integer raw = .ok (.int word) := by
  rw [typeLiteral, LiteralKind.read_digits raw n digits, ← same, Value.ofInt_toInt]

theorem typeLiteral_beyond (absent : ¬ ∃ word : Int64, word.toInt = n) :
    typeLiteral .integer raw = .error (.invalidLiteral raw) := by
  rw [typeLiteral, LiteralKind.read_digits raw n digits, Value.ofInt_eq_none n absent]

theorem typeNegative_word (word : Int64) (same : word.toInt = -n) :
    typeNegative .integer raw = .ok (.int word) := by
  rw [typeNegative, LiteralKind.readNegative_digits raw n digits, ← same, Value.ofInt_toInt]

theorem typeNegative_beyond (absent : ¬ ∃ word : Int64, word.toInt = -n) :
    typeNegative .integer raw = .error (.invalidLiteral ("-" ++ raw)) := by
  rw [typeNegative, LiteralKind.readNegative_digits raw n digits, Value.ofInt_eq_none _ absent]

end

theorem typeLiteral_decimal (raw : String) (number : Float)
    (read : Numeral.readFloat raw = some number) : typeLiteral .decimal raw =
      if number.isFinite then .ok (.float number) else .error (.invalidLiteral raw) := by
  rw [typeLiteral, LiteralKind.read?, Numeral.readFinite, read, Option.filter_some]
  cases number.isFinite <;> rfl

theorem typeNegative_decimal (raw : String) (number : Float)
    (read : Numeral.readFloat raw = some number) : typeNegative .decimal raw =
      if number.isFinite then .ok (.float (-number))
      else .error (.invalidLiteral ("-" ++ raw)) := by
  rw [typeNegative, LiteralKind.readNegative?, Numeral.readFinite, read, Option.filter_some]
  cases number.isFinite <;> rfl

namespace Scope

/-! Tokens become values, alone and behind one minus, with plus signs anywhere. -/

def unsignedToken (scope : Scope) (outer : Nat) (token : String) (long : Bool) :
    Except Failure Resolution :=
  (scope.resolve (lower (plusSigns outer (.literal (.number token long))))).1

def negativeToken (scope : Scope) (outer inner : Nat) (token : String) (long : Bool) :
    Except Failure Resolution :=
  (scope.resolve
    (lower (plusSigns outer (.unary .minus (plusSigns inner (.literal (.number token long))))))).1

theorem unsigned_integer (scope : Scope) (outer : Nat) (token : String) (long : Bool)
    (separated : Numeral.Separated token.toList) : scope.unsignedToken outer token long =
      constant (typeLiteral .integer (withoutSeparators token)) := by
  rw [unsignedToken, lower_plusSigns, lower_integer token long separated, resolve_literal]

theorem negative_integer (scope : Scope) (outer inner : Nat) (token : String) (long : Bool)
    (separated : Numeral.Separated token.toList) : scope.negativeToken outer inner token long =
      constant (typeNegative .integer (withoutSeparators token)) := by
  rw [negativeToken, lower_plusSigns, lower, lower_plusSigns, lower_integer token long separated,
    resolve_negative scope _ _ LiteralKind.noConfusion]

theorem unsigned_decimal (scope : Scope) (outer : Nat) (token : String) (long : Bool)
    (fractional : Numeral.Fractional token.toList) : scope.unsignedToken outer token long =
      constant (typeLiteral .decimal (withoutSeparators token)) := by
  rw [unsignedToken, lower_plusSigns, lower_fractional token long fractional, resolve_literal]

theorem negative_decimal (scope : Scope) (outer inner : Nat) (token : String) (long : Bool)
    (fractional : Numeral.Fractional token.toList) : scope.negativeToken outer inner token long =
      constant (typeNegative .decimal (withoutSeparators token)) := by
  rw [negativeToken, lower_plusSigns, lower, lower_plusSigns,
    lower_fractional token long fractional, resolve_negative scope _ _ LiteralKind.noConfusion]

end Scope

theorem withoutSeparators_value (token : String) (separated : Numeral.Separated token.toList) :
    Numeral.readNat (withoutSeparators token).toList =
      some (Numeral.separatedValue token.toList) := by
  rw [withoutSeparators, String.toList_ofList]
  exact separated.readNat

/-! The printed form of a word is a filter, and it resolves to the word. -/

theorem natText_digits (n : Nat) :
    Numeral.natText n ≠ "" ∧ ∀ c ∈ (Numeral.natText n).toList, c.isDigit = true := by
  constructor
  · intro empty
    exact Numeral.digitsOf_ne_nil n (String.ofList_eq_empty_iff.mp empty)
  · rw [Numeral.natText, String.toList_ofList]
    exact Numeral.digitsOf_digits n

theorem separated_natText (n : Nat) : Numeral.Separated (Numeral.natText n).toList ∧
    Numeral.separatedValue (Numeral.natText n).toList = n := by
  have all := Numeral.digitsOf_digits n
  obtain ⟨c, inside⟩ := List.exists_mem_of_ne_nil _ (Numeral.digitsOf_ne_nil n)
  rw [Numeral.natText, String.toList_ofList]
  refine ⟨⟨fun d member => .inl (all d member), c, inside, all c inside⟩, ?_⟩
  rw [Numeral.separatedValue, List.filter_eq_self.mpr all, Numeral.natOfDigits_digitsOf]

theorem FrontEnd.readNode_read (front : FrontEnd) (config : Config) (dialect : front.Dialect)
    (known : front.named config.dialect = some dialect) (text : String) (expr : Expr)
    (read : front.read dialect text = .ok expr) :
    front.readNode config text = .ok (lower expr) := by
  simp [readNode, findDialect, known, read]

/-- Digits are a number, and a minus in front of them is an operator. -/
structure FrontEnd.ReadsNumbers (front : FrontEnd) (dialect : front.Dialect) : Prop where
  digits : ∀ digits : String, digits ≠ "" → (∀ c ∈ digits.toList, c.isDigit = true) →
    front.read dialect digits = .ok (.literal (.number digits false))
  minus : ∀ digits : String, digits ≠ "" → (∀ c ∈ digits.toList, c.isDigit = true) →
    front.read dialect ("-" ++ digits) = .ok (.unary .minus (.literal (.number digits false)))

theorem FrontEnd.sql_readsNumbers (name : String) (dialect : Sql.Dialect)
    (known : sql.named name = some dialect) : sql.ReadsNumbers dialect where
  digits := parse_digits dialect
  minus digits present all :=
    parse_minus dialect digits present all (Dialect.named_readsMinus name dialect known)

theorem FrontEnd.readNode_word (front : FrontEnd) (config : Config) (dialect : front.Dialect)
    (known : front.named config.dialect = some dialect) (reads : front.ReadsNumbers dialect)
    (scope : Scope) (word : Int64) :
    ∃ node, front.readNode config (Numeral.wordText word) = .ok node ∧
      (scope.resolve node).1 = Scope.constant (.ok (.int word)) := by
  obtain ⟨separated, value⟩ := separated_natText word.toInt.natAbs
  obtain ⟨present, all⟩ := natText_digits word.toInt.natAbs
  have digits := withoutSeparators_value _ separated
  rw [value] at digits
  rw [Numeral.wordText, Numeral.intText]
  by_cases negative : word.toInt < 0
  · rw [if_pos negative]
    refine ⟨_, front.readNode_read config dialect known _ _ (reads.minus _ present all), ?_⟩
    rw [← typeNegative_word _ _ digits word (by omega)]
    exact scope.negative_integer 0 0 _ false separated
  · rw [if_neg negative]
    refine ⟨_, front.readNode_read config dialect known _ _ (reads.digits _ present all), ?_⟩
    rw [← typeLiteral_word _ _ digits word (by omega)]
    exact scope.unsigned_integer 0 _ false separated

/-- Every token of a number keeps its exact value and its type, or is refused by its digits. -/
theorem Scope.number_tokens_exact (scope : Scope) :
    (∀ token long outer inner, Numeral.Separated token.toList →
      let n := Numeral.separatedValue token.toList
      let raw := withoutSeparators token
      (n ≤ 0x7FFFFFFFFFFFFFFF → ∃ word : Int64, word.toInt = n ∧
        scope.unsignedToken outer token long = constant (.ok (.int word))) ∧
      (0x7FFFFFFFFFFFFFFF < n →
        scope.unsignedToken outer token long = constant (.error (.invalidLiteral raw))) ∧
      (n ≤ 0x8000000000000000 → ∃ word : Int64, word.toInt = -n ∧
        scope.negativeToken outer inner token long = constant (.ok (.int word))) ∧
      (0x8000000000000000 < n → scope.negativeToken outer inner token long =
        constant (.error (.invalidLiteral ("-" ++ raw))))) ∧
    (∀ token long outer inner, Numeral.Fractional token.toList →
      let raw := withoutSeparators token
      ∃ number, Numeral.readFloat raw = some number ∧
        scope.unsignedToken outer token long = constant
          (if number.isFinite then .ok (.float number) else .error (.invalidLiteral raw)) ∧
        scope.negativeToken outer inner token long = constant
          (if number.isFinite then .ok (.float (-number))
            else .error (.invalidLiteral ("-" ++ raw)))) ∧
    (∀ (front : FrontEnd) (config : Config) dialect word,
      front.named config.dialect = some dialect → front.ReadsNumbers dialect →
      ∃ node, front.readNode config (Numeral.wordText word) = .ok node ∧
        (scope.resolve node).1 = constant (.ok (.int word))) ∧
    ∀ name dialect, FrontEnd.sql.named name = some dialect →
      FrontEnd.sql.ReadsNumbers dialect := by
  refine ⟨?integers, ?decimals, ?printed, FrontEnd.sql_readsNumbers⟩
  case integers =>
    intro token long outer inner separated n raw
    have digits : Numeral.readNat raw.toList = some n := withoutSeparators_value token separated
    have natural := Numeral.exists_word_iff n
    have negative := Numeral.exists_word_iff (-n)
    rw [scope.unsigned_integer outer token long separated,
      scope.negative_integer outer inner token long separated]
    refine ⟨fun small => ?_, fun large => ?_, fun small => ?_, fun large => ?_⟩
    · obtain ⟨word, same⟩ := natural.mpr ⟨by omega, by omega⟩
      exact ⟨word, same, by rw [typeLiteral_word raw n digits word same]⟩
    · rw [typeLiteral_beyond raw n digits (by rw [natural]; omega)]
    · obtain ⟨word, same⟩ := negative.mpr ⟨by omega, by omega⟩
      exact ⟨word, same, by rw [typeNegative_word raw n digits word same]⟩
    · rw [typeNegative_beyond raw n digits (by rw [negative]; omega)]
  case decimals =>
    intro token long outer inner fractional raw
    obtain ⟨number, read⟩ := fractional.read.1
    refine ⟨number, read, ?_, ?_⟩
    · rw [scope.unsigned_decimal outer token long fractional, typeLiteral_decimal raw number read]
    · rw [scope.negative_decimal outer inner token long fractional,
        typeNegative_decimal raw number read]
  case printed =>
    intro front config dialect word known reads
    exact front.readNode_word config dialect known reads scope word

/-- The token is one more than the greatest word, so it needs a minus; the printed form of the
least word has one. -/
theorem least_word_needs_minus :
    starScope.unsignedToken 1 "9_223_372_036_854_775_808" false =
      Scope.constant (.error (.invalidLiteral "9223372036854775808")) ∧
    starScope.negativeToken 1 2 "9_223_372_036_854_775_808" false =
      Scope.constant (.ok (.int Int64.minValue)) ∧
    (∃ number, Numeral.readFloat "10.5e3" = some number ∧
      starScope.unsignedToken 0 "1_0.5e3" false = Scope.constant
        (if number.isFinite then .ok (.float number) else .error (.invalidLiteral "10.5e3"))) ∧
    Numeral.wordText Int64.minValue = "-9223372036854775808" ∧
    ∃ node, ({} : Config).readNode "-9223372036854775808" = .ok node ∧
      (starScope.resolve node).1 = Scope.constant (.ok (.int Int64.minValue)) := by
  obtain ⟨integers, decimals, printed, reads⟩ := Scope.number_tokens_exact starScope
  have separated : Numeral.Separated "9_223_372_036_854_775_808".toList :=
    ⟨by simp, '9', by simp, rfl⟩
  have fractional : Numeral.Fractional "1_0.5e3".toList := by
    have scaled : Numeral.Exponent ['e', '3'] :=
      @Numeral.Exponent.intro 'e' [] ['3'] (.inl rfl) (.inl rfl) ⟨by simp, '3', by simp, rfl⟩
    exact @Numeral.Fractional.point ['1', '_', '0'] ['5'] ['e', '3'] ⟨by simp, '1', by simp, rfl⟩
      (.inr scaled)
  obtain ⟨-, large, small, -⟩ := integers _ false 1 2 separated
  obtain ⟨least, same, negative⟩ := small (by decide)
  obtain rfl : least = Int64.minValue := Int64.toInt_inj.mp same
  obtain ⟨number, read, plain, -⟩ := decimals _ false 0 0 fractional
  have text : Numeral.wordText Int64.minValue = "-9223372036854775808" := by decide +kernel
  have numbers := reads "postgres" Dialect.postgres rfl
  have filter := printed .sql {} Dialect.postgres Int64.minValue rfl numbers
  rw [text] at filter
  exact ⟨large (by decide), negative, ⟨number, read, plain⟩, text, filter⟩

end ConeFilter
