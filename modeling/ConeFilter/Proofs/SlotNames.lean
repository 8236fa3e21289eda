import ConeFilter.Cone
import ConeFilter.Proofs.DecimalDigits

/-!
Names of slots. Different positions have different names, every name reads back
as its position as long as that fits a word, and no name that reads as a
position has two underscores in a row.
-/
namespace ConeFilter.Cone

theorem dropStem_eq_some (stem text rest : List Char) :
    dropStem stem text = some rest ↔ text = stem ++ rest := by
  induction stem generalizing text with
  | nil => simp [dropStem]
  | cons c stem ih =>
      cases text with
      | nil => simp [dropStem]
      | cons d text =>
          by_cases same : c = d
          · subst same
            simp [dropStem, ih]
          · simp [dropStem, same, Ne.symm same]

/-- What stands behind the stem in a name. -/
def slotSuffix (index : Nat) : List Char := if index = 0 then [] else Numeral.digitsOf index

theorem slotName_toList (index : Nat) :
    (slotName index).toList = slotStem.toList ++ slotSuffix index := by
  unfold slotName slotSuffix
  split <;> simp [Numeral.natText]

theorem slotSuffix_injective (i j : Nat) (same : slotSuffix i = slotSuffix j) : i = j := by
  unfold slotSuffix at same
  split at same <;> split at same
  · omega
  · exact absurd same.symm (Numeral.digitsOf_ne_nil j)
  · exact absurd same (Numeral.digitsOf_ne_nil i)
  · exact Numeral.digitsOf_injective i j same

theorem slotName_injective : Function.Injective slotName := by
  intro i j same
  have texts := congrArg String.toList same
  rw [slotName_toList, slotName_toList] at texts
  exact slotSuffix_injective i j (List.append_cancel_left texts)

theorem readIndex_digitsOf (index : Nat) :
    Numeral.readIndex (Numeral.digitsOf index) = (some index).filter (· < Numeral.indexLimit) := by
  have digits := Numeral.digitsOf_all index
  unfold Numeral.readIndex
  split
  · rename_i rest plus
    rw [plus] at digits
    simp at digits
  · rw [Numeral.readNat_digitsOf]

theorem readSuffix_slotSuffix (index : Nat) :
    readSuffix (slotSuffix index) = (some index).filter (· < Numeral.indexLimit) := by
  unfold slotSuffix
  split
  · rename_i zero
    subst zero
    rfl
  · rename_i positive
    have leading := Numeral.digitsOf_head index (Nat.pos_of_ne_zero positive)
    have read := readIndex_digitsOf index
    unfold readSuffix
    split
    · rename_i empty
      exact absurd empty (Numeral.digitsOf_ne_nil index)
    · rename_i rest zero
      rw [zero] at leading
      simp at leading
    · exact read

theorem slotIndex_slotName (index : Nat) :
    slotIndex (slotName index) = (some index).filter (· < Numeral.indexLimit) := by
  have dropped : dropStem slotStem.toList (slotName index).toList = some (slotSuffix index) :=
    (dropStem_eq_some _ _ _).mpr (slotName_toList index)
  rw [slotIndex, dropped]
  exact readSuffix_slotSuffix index

/-! Only the written name of a position counts as the name of its slot. This
reading has no largest position, unlike the one that looks a cone up. -/

def slotNumber? (name : String) : Option Nat :=
  ((dropStem slotStem.toList name.toList).bind fun suffix =>
    if suffix.isEmpty then some 0 else Numeral.readNat suffix).filter
      fun index => slotName index == name

theorem slotNumber_eq_some (name : String) (index : Nat) :
    slotNumber? name = some index ↔ name = slotName index := by
  unfold slotNumber?
  rw [Option.filter_eq_some_iff]
  constructor
  · rintro ⟨-, written⟩
    exact (beq_iff_eq.mp written).symm
  · rintro rfl
    refine ⟨?_, beq_self_eq_true _⟩
    rw [(dropStem_eq_some _ _ _).mpr (slotName_toList index)]
    unfold slotSuffix
    by_cases zero : index = 0
    · simp [zero]
    · simp [zero, Numeral.digitsOf_ne_nil, Numeral.readNat_digitsOf]

end ConeFilter.Cone

namespace ConeFilter.Extra

/-- The cone of a slot is found under the name of the slot. Positions of a list in memory fit
a word, so there is no further one to be named. -/
theorem coneFor_slotName (extra : Extra) (index : Nat) (fits : index < Numeral.indexLimit) :
    extra.coneFor (Cone.slotName index) = extra.cones[index]? := by
  simp [coneFor, Cone.slotIndex_slotName, Option.filter, fits]

theorem slot_fits (extra : Extra) (index : Nat)
    (found : (extra.coneFor (Cone.slotName index)).isSome) : index < Numeral.indexLimit := by
  obtain ⟨cone, looked⟩ := Option.isSome_iff_exists.mp found
  obtain ⟨position, read, -⟩ := Option.bind_eq_some_iff.mp looked
  rw [Cone.slotIndex_slotName, Option.filter_eq_some_iff] at read
  obtain ⟨same, fits⟩ := read
  cases same
  exact of_decide_eq_true fits

end ConeFilter.Extra
