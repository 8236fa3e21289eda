import ConeFilter.Numeral.Integer
import Mathlib.Data.List.Induction

/-!
The printed form of a natural number: a nonempty run of digits that reads back
as the number and has no leading zero, except for zero itself. A run of digits is that form
behind some zeros.
-/
namespace ConeFilter.Numeral

theorem digitValue_digitChar : ∀ digit < 10, digitValue (digitChar digit) = digit := by decide

theorem isDigit_digitChar : ∀ digit < 10, (digitChar digit).isDigit = true := by decide

theorem digitChar_zero : ∀ digit < 10, digitChar digit = '0' → digit = 0 := by decide

theorem natOfDigits_append (digits : List Char) (c : Char) :
    natOfDigits (digits ++ [c]) = 10 * natOfDigits digits + digitValue c := by
  simp [natOfDigits]

theorem natOfDigits_digitsOf (n : Nat) : natOfDigits (digitsOf n) = n := by
  fun_induction digitsOf n with
  | case1 n small => simpa [natOfDigits] using digitValue_digitChar n small
  | case2 n large ih =>
      rw [natOfDigits_append, ih, digitValue_digitChar _ (Nat.mod_lt n (by decide))]
      omega

theorem digitsOf_all (n : Nat) : (digitsOf n).all Char.isDigit = true := by
  fun_induction digitsOf n with
  | case1 n small => simpa using isDigit_digitChar n small
  | case2 n large ih =>
      rw [List.all_append, ih]
      simpa using isDigit_digitChar _ (Nat.mod_lt n (by decide))

theorem digitsOf_digits (n : Nat) : ∀ c ∈ digitsOf n, c.isDigit = true :=
  List.all_eq_true.mp (digitsOf_all n)

theorem digitsOf_ne_nil (n : Nat) : digitsOf n ≠ [] := by
  unfold digitsOf
  split <;> simp

theorem digitsOf_head (n : Nat) (positive : 0 < n) : (digitsOf n).head? ≠ some '0' := by
  fun_induction digitsOf n with
  | case1 n small =>
      intro zero
      have leading : digitChar n = '0' := by simpa using zero
      have := digitChar_zero n small leading
      omega
  | case2 n large ih =>
      intro zero
      apply ih (by omega)
      cases digits : digitsOf (n / 10) with
      | nil => exact absurd digits (digitsOf_ne_nil _)
      | cons c rest => simpa [digits] using zero

theorem readNat_digitsOf (n : Nat) : readNat (digitsOf n) = some n := by
  have present : (digitsOf n).isEmpty = false := by simpa using digitsOf_ne_nil n
  simp [readNat, present, digitsOf_all, natOfDigits_digitsOf]

theorem minus_toList (text : String) : ("-" ++ text).toList = '-' :: text.toList := by simp

/-- An integer is written as its absolute value, behind a minus if it is negative. -/
theorem intText_cases (n : Int) : (n < 0 ∧ (intText n).toList = '-' :: digitsOf n.natAbs) ∨
    0 ≤ n ∧ (intText n).toList = digitsOf n.natAbs := by
  unfold intText natText
  split
  · next negative => exact .inl ⟨negative, by rw [minus_toList, String.toList_ofList]⟩
  · next natural => exact .inr ⟨Int.not_lt.mp natural, String.toList_ofList⟩

theorem digitsOf_injective (m n : Nat) (same : digitsOf m = digitsOf n) : m = n := by
  rw [← natOfDigits_digitsOf m, same, natOfDigits_digitsOf]

theorem digits_of_readNat (text : List Char) (n : Nat) (read : readNat text = some n) :
    text.all Char.isDigit = true := by
  unfold readNat at read
  split at read
  · rename_i digits
    exact (Bool.and_eq_true_iff.mp digits).2
  · cases read

theorem underscore_not_mem (text : List Char) (n : Nat) (read : readNat text = some n) :
    '_' ∉ text := by
  intro member
  have digit := List.all_eq_true.mp (digits_of_readNat text n read) '_' member
  exact absurd digit (by decide)

/-! Runs of digits. The induction is on the last digit, as numbers grow there. -/

theorem digitValue_lt (c : Char) (digit : c.isDigit = true) : digitValue c < 10 := by
  have bounds := Bool.and_eq_true_iff.mp digit
  have least : '0'.toNat ≤ c.toNat := of_decide_eq_true bounds.1
  have greatest : c.toNat ≤ '9'.toNat := of_decide_eq_true bounds.2
  have nine : '9'.toNat = 57 := rfl
  have zero : '0'.toNat = 48 := rfl
  unfold digitValue
  omega

theorem digitChar_digitValue (c : Char) (digit : c.isDigit = true) :
    digitChar (digitValue c) = c := by
  have least : '0'.toNat ≤ c.toNat := of_decide_eq_true (Bool.and_eq_true_iff.mp digit).1
  rw [digitChar, digitValue, Nat.add_sub_cancel' least, Char.ofNat_toNat]

theorem natOfDigits_padded (zeros : Nat) (digits : List Char) :
    natOfDigits (List.replicate zeros '0' ++ digits) = natOfDigits digits := by
  induction zeros with
  | zero => rfl
  | succ zeros ih => exact ih

theorem padded_of_digits (text : List Char) (present : text ≠ [])
    (digits : ∀ c ∈ text, c.isDigit = true) :
    ∃ zeros, text = List.replicate zeros '0' ++ digitsOf (natOfDigits text) := by
  induction text using List.reverseRecOn with
  | nil => exact absurd rfl present
  | append_singleton front c ih =>
      have last : c.isDigit = true := digits c (by simp)
      have small := digitValue_lt c last
      have written : digitsOf (digitValue c) = [c] := by
        rw [digitsOf, if_pos small, digitChar_digitValue c last]
      by_cases empty : front = []
      · subst empty
        refine ⟨0, ?_⟩
        have value : natOfDigits ([] ++ [c]) = digitValue c := by simp [natOfDigits]
        rw [value, written]
        rfl
      · obtain ⟨zeros, padded⟩ := ih empty fun d inside => digits d (by simp [inside])
        rw [natOfDigits_append]
        generalize natOfDigits front = value at padded
        by_cases zero : value = 0
        · subst zero
          refine ⟨zeros + 1, ?_⟩
          have ones : digitsOf 0 = ['0'] := by rw [digitsOf]; rfl
          rw [Nat.mul_zero, Nat.zero_add, written, padded, ones, List.replicate_succ']
        · refine ⟨zeros, ?_⟩
          have large : ¬ 10 * value + digitValue c < 10 := by omega
          have quotient : (10 * value + digitValue c) / 10 = value := by omega
          have remainder : (10 * value + digitValue c) % 10 = digitValue c := by omega
          rw [digitsOf, if_neg large, quotient, remainder, digitChar_digitValue c last,
            ← List.append_assoc, ← padded]

/-- A number is read from its digits and from nothing but them, behind any number of zeros. -/
theorem readNat_eq_some (text : List Char) (n : Nat) :
    readNat text = some n ↔ ∃ zeros, text = List.replicate zeros '0' ++ digitsOf n := by
  constructor
  · intro read
    have digits := List.all_eq_true.mp (digits_of_readNat text n read)
    have present : text ≠ [] := by
      rintro rfl
      cases read
    have value : natOfDigits text = n := by
      unfold readNat at read
      split at read
      · exact Option.some.inj read
      · cases read
    exact value ▸ padded_of_digits text present digits
  · rintro ⟨zeros, rfl⟩
    have zeroes : (List.replicate zeros '0').all Char.isDigit = true :=
      List.all_eq_true.mpr fun c member => (List.eq_of_mem_replicate member) ▸ rfl
    simp [readNat, List.all_append, zeroes, digitsOf_all, natOfDigits_padded,
      natOfDigits_digitsOf, digitsOf_ne_nil]

end ConeFilter.Numeral
