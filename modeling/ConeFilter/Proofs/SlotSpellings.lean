import ConeFilter.Proofs.ConeAccounting

/-!
Which names reach a cone. A position is read from the name of its slot and from
one family of names beside it, with a plus sign and possibly zeros in front of
the position; those are never written. So the lookup inverts the naming of slots
on names without a plus sign, and on no others.
-/
namespace ConeFilter

namespace Cone

/-- The name of a position behind a plus sign, with as many zeros as wanted. -/
def signedName (zeros index : Nat) : String :=
  slotStem ++ String.ofList ('+' :: (List.replicate zeros '0' ++ Numeral.digitsOf index))

def Spells (name : String) (index : Nat) : Prop :=
  name = slotName index ∨ ∃ zeros, name = signedName zeros index

theorem signedName_toList (zeros index : Nat) : (signedName zeros index).toList =
    slotStem.toList ++ '+' :: (List.replicate zeros '0' ++ Numeral.digitsOf index) := by
  simp [signedName]

theorem eq_slotName (name : String) (index : Nat) :
    name = slotName index ↔ name.toList = slotStem.toList ++ slotSuffix index := by
  rw [← slotName_toList, String.toList_inj]

theorem eq_signedName (name : String) (zeros index : Nat) : name = signedName zeros index ↔
    name.toList =
      slotStem.toList ++ '+' :: (List.replicate zeros '0' ++ Numeral.digitsOf index) := by
  rw [← signedName_toList, String.toList_inj]

/-- Without a sign and without a zero in front, only the written form is read. -/
theorem readNat_unpadded (suffix : List Char) (index : Nat) (leading : suffix.head? ≠ some '0')
    (read : Numeral.readNat suffix = some index) : suffix = slotSuffix index := by
  obtain ⟨zeros, padded⟩ := (Numeral.readNat_eq_some suffix index).mp read
  cases zeros with
  | succ zeros =>
      rw [padded] at leading
      exact absurd rfl leading
  | zero =>
      have written : suffix = Numeral.digitsOf index := padded
      have positive : index ≠ 0 := by
        rintro rfl
        rw [written, Numeral.digitsOf] at leading
        exact absurd rfl leading
      rw [written, slotSuffix, if_neg positive]

theorem readSuffix_eq_some (suffix : List Char) (index : Nat) :
    readSuffix suffix = some index ↔ index < Numeral.indexLimit ∧
      (suffix = slotSuffix index ∨
        ∃ zeros, suffix = '+' :: (List.replicate zeros '0' ++ Numeral.digitsOf index)) := by
  constructor
  · intro read
    unfold readSuffix at read
    split at read
    · cases read
      exact ⟨by decide, .inl rfl⟩
    · cases read
    · rename_i present nonzero
      have leading : suffix.head? ≠ some '0' := by
        intro zero
        obtain ⟨rest, same⟩ := List.head?_eq_some_iff.mp zero
        exact nonzero rest same
      unfold Numeral.readIndex at read
      split at read
      · rename_i digits
        obtain ⟨value, fits⟩ := Option.filter_eq_some_iff.mp read
        obtain ⟨zeros, padded⟩ := (Numeral.readNat_eq_some digits index).mp value
        exact ⟨of_decide_eq_true fits, .inr ⟨zeros, by rw [padded]⟩⟩
      · obtain ⟨value, fits⟩ := Option.filter_eq_some_iff.mp read
        exact ⟨of_decide_eq_true fits, .inl (readNat_unpadded suffix index leading value)⟩
  · rintro ⟨fits, rfl | ⟨zeros, rfl⟩⟩
    · rw [readSuffix_slotSuffix, Option.filter_some, if_pos (decide_eq_true fits)]
    · have value := (Numeral.readNat_eq_some _ index).mpr ⟨zeros, rfl⟩
      change (Numeral.readNat _).filter _ = some index
      rw [value, Option.filter_some, if_pos (decide_eq_true fits)]

theorem slotIndex_eq_some (name : String) (index : Nat) :
    slotIndex name = some index ↔ index < Numeral.indexLimit ∧ Spells name index := by
  simp only [slotIndex, Option.bind_eq_some_iff, dropStem_eq_some, readSuffix_eq_some, Spells,
    eq_slotName, eq_signedName]
  constructor
  · rintro ⟨suffix, written, fits, rfl | ⟨zeros, rfl⟩⟩
    · exact ⟨fits, .inl written⟩
    · exact ⟨fits, .inr ⟨zeros, written⟩⟩
  · rintro ⟨fits, written | ⟨zeros, written⟩⟩
    · exact ⟨_, written, fits, .inl rfl⟩
    · exact ⟨_, written, fits, .inr ⟨zeros, rfl⟩⟩

theorem signed (zeros index : Nat) : '+' ∈ (signedName zeros index).toList := by
  rw [signedName_toList]
  simp

end Cone

namespace Extra

theorem coneFor_spelled (extra : Extra) (field : String) (cone : Cone) :
    extra.coneFor field = some cone ↔ ∃ index, index < Numeral.indexLimit ∧
      extra.cones[index]? = some cone ∧ Cone.Spells field index := by
  simp only [coneFor, Option.bind_eq_some_iff, Cone.slotIndex_eq_some]
  constructor
  · rintro ⟨index, ⟨fits, spelled⟩, found⟩
    exact ⟨index, fits, found, spelled⟩
  · rintro ⟨index, fits, found, spelled⟩
    exact ⟨index, ⟨fits, spelled⟩, found⟩

/-- A cone is found under the names that spell its position. Among the names without a plus
sign that is the name of its slot alone. -/
theorem cone_spellings (extra : Extra) (field : String) (cone : Cone) :
    (extra.coneFor field = some cone ↔ ∃ index, index < Numeral.indexLimit ∧
      extra.cones[index]? = some cone ∧
        (field = Cone.slotName index ∨ ∃ zeros, field = Cone.signedName zeros index)) ∧
    ('+' ∉ field.toList → (extra.coneFor field = some cone ↔ ∃ index,
      index < Numeral.indexLimit ∧ extra.cones[index]? = some cone ∧
        field = Cone.slotName index)) := by
  refine ⟨extra.coneFor_spelled field cone, fun unsigned => ?_⟩
  rw [extra.coneFor_spelled field cone]
  constructor
  · rintro ⟨index, fits, found, named | ⟨zeros, rfl⟩⟩
    · exact ⟨index, fits, found, named⟩
    · exact absurd (Cone.signed zeros index) unsigned
  · rintro ⟨index, fits, found, named⟩
    exact ⟨index, fits, found, .inl named⟩

theorem secondCone_spelled :
    '+' ∉ (Cone.slotName 1).toList ∧
    ({ cones := [firstCone, secondCone] } : Extra).coneFor (Cone.slotName 1) = some secondCone := by
  have unsigned : '+' ∉ (Cone.slotName 1).toList := by decide +kernel
  exact ⟨unsigned, ((cone_spellings _ _ secondCone).2 unsigned).mpr ⟨1, by decide, rfl, rfl⟩⟩

/-- The second cone is found under a name that no slot has. -/
theorem signed_name_found :
    ({ cones := [firstCone, secondCone] } : Extra).coneFor "cone_query+1" = some secondCone ∧
    ({ cones := [firstCone, secondCone] } : Extra).coneFor "cone_query1" = some secondCone ∧
    ¬ ∃ index, "cone_query+1" = Cone.slotName index := by
  refine ⟨rfl, rfl, ?_⟩
  rintro ⟨index, named⟩
  have written := (Cone.slotNumber_eq_some _ _).mpr named
  rw [show Cone.slotNumber? "cone_query+1" = none by decide] at written
  cases written

end Extra

end ConeFilter
