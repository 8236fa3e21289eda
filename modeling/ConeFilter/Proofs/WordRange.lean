import ConeFilter.Value

/-!
Words and the integers they stand for. An integer is stored as a word exactly if it lies
between the least and the greatest word, and then the word stands for that integer again.
-/
namespace ConeFilter

namespace Numeral

theorem toInt_of_exactWord (n : Int) (word : Int64) (exact : exactWord n = some word) :
    word.toInt = n := by
  unfold exactWord at exact
  by_cases inside : inWord n = true
  · rw [if_pos inside, Option.some.injEq] at exact
    simp only [inWord, Bool.and_eq_true, decide_eq_true_eq] at inside
    subst exact
    exact Int64.toInt_ofInt_of_le inside.1 inside.2
  · rw [if_neg inside] at exact
    cases exact

theorem exactWord_toInt (word : Int64) : exactWord word.toInt = some word := by
  have least := word.le_toInt
  have greatest := word.toInt_lt
  have inside : inWord word.toInt = true := by
    simp only [inWord, Bool.and_eq_true, decide_eq_true_eq]
    omega
  rw [exactWord, if_pos inside, Int64.ofInt_toInt]

theorem exists_word_iff (n : Int) : (∃ word : Int64, word.toInt = n) ↔
    -0x8000000000000000 ≤ n ∧ n ≤ 0x7FFFFFFFFFFFFFFF := by
  constructor
  · rintro ⟨word, rfl⟩
    have least := word.le_toInt
    have greatest := word.toInt_lt
    omega
  · rintro ⟨least, greatest⟩
    exact ⟨Int64.ofInt n, Int64.toInt_ofInt_of_le least (by omega)⟩

end Numeral

namespace Value

theorem ofInt_toInt (word : Int64) : ofInt? word.toInt = some (.int word) := by
  rw [ofInt?, Numeral.exactWord_toInt]
  rfl

theorem ofInt_eq_none (n : Int) (absent : ¬ ∃ word : Int64, word.toInt = n) :
    ofInt? n = none := by
  refine Option.map_eq_none_iff.mpr (Option.eq_none_iff_forall_ne_some.mpr fun word exact => ?_)
  exact absent ⟨word, Numeral.toInt_of_exactWord n word exact⟩

end Value

end ConeFilter
