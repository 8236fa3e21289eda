import ConeFilter.Proofs.JsonRoundTrips
import ConeFilter.Proofs.SchemaWalks

/-!
The JSON form of registries. A registry is written as the list of its models in the order of their
names, with the fields of each in the order in which they were declared. Reading that list checks
it again, finds no fault and builds the same registry. So two lists of models have one registry and
one form exactly if they differ in the order of the models alone.
-/
namespace ConeFilter

theorem FieldKind.ofJson_toJson (kind : FieldKind) : FieldKind.ofJson kind.toJson = some kind := by
  cases kind <;> rfl

theorem Field.ofJson_toJson (field : Field) : Field.ofJson field.toJson = some field := by
  have read : Field.ofJson field.toJson =
      (FieldKind.ofJson field.kind.toJson).bind fun kind => some { field with kind } := rfl
  rw [read, FieldKind.ofJson_toJson]
  rfl

theorem Model.ofJson_toJson (model : Model) : Model.ofJson model.toJson = some model := by
  have read : Model.ofJson model.toJson =
      ((model.fields.map Field.toJson).mapM Field.ofJson).bind fun fields =>
        some { model with fields } := rfl
  rw [read, mapM_written _ _ Field.ofJson_toJson]
  rfl

namespace Registry

theorem ofJson_toJson (registry : Registry) :
    Registry.ofJson registry.toJson = (ofModels registry.models).toOption := by
  have read : Registry.ofJson registry.toJson =
      ((registry.models.map Model.toJson).mapM Model.ofJson).bind fun models =>
        (ofModels models).toOption := rfl
  rw [read, mapM_written _ _ Model.ofJson_toJson]
  rfl

/-- Models in the order of their names have no other order. -/
theorem eq_of_sorted (first second : List Model) (firstSorted : SortedNames first)
    (secondSorted : SortedNames second) (same : first.Perm second) : first = second := by
  refine same.eq_of_pairwise (fun a b _ _ smaller larger => ?_) firstSorted secondSorted
  exact absurd (String.lt_trans smaller larger) (String.lt_irrefl _)

theorem eq_iff_perm {models others : List Model} {registry other : Registry}
    (built : ofModels models = .ok registry) (otherBuilt : ofModels others = .ok other) :
    registry = other ↔ models.Perm others := by
  have same := models_perm built
  have otherSame := models_perm otherBuilt
  constructor
  · rintro rfl
    exact same.symm.trans otherSame
  · intro reordered
    have equal := eq_of_sorted _ _ (models_sorted built) (models_sorted otherBuilt)
      ((same.trans reordered).trans otherSame.symm)
    cases registry
    cases other
    exact congrArg Registry.mk equal

/-- Checking a registry again finds no fault. -/
theorem ofModels_models {models : List Model} {registry : Registry}
    (built : ofModels models = .ok registry) : ofModels registry.models = .ok registry := by
  have same := models_perm built
  have wellFormed := ((ofModels_ok models registry).mp built).1.perm same.symm
  have rebuilt := ofModels_wellFormed registry.models wellFormed
  rw [rebuilt, (eq_iff_perm rebuilt built).mpr same]

theorem ofJson_built {models : List Model} {registry : Registry}
    (built : ofModels models = .ok registry) :
    Registry.ofJson registry.toJson = some registry := by
  rw [ofJson_toJson, ofModels_models built]
  rfl

/-- Models are written in the order of their names and fields as they are declared; what is
written is read as the same registry, and only the order of the models is not written. -/
theorem serialized_canonically (models others : List Model) (registry other : Registry)
    (built : ofModels models = .ok registry) (otherBuilt : ofModels others = .ok other) :
    (∃ sorted : List Model, sorted.Perm models ∧
      sorted.Pairwise (fun first second => first.name < second.name) ∧
      registry.toJson = .array (sorted.map fun model => .object
        [("fields", .array (model.fields.map Field.toJson)), ("name", .string model.name)])) ∧
    Registry.ofJson registry.toJson = some registry ∧
    (registry = other ↔ models.Perm others) ∧
    (registry.toJson = other.toJson ↔ models.Perm others) := by
  refine ⟨⟨registry.models, models_perm built, models_sorted built, rfl⟩, ofJson_built built,
    eq_iff_perm built otherBuilt, ?_⟩
  rw [← eq_iff_perm built otherBuilt]
  constructor
  · intro same
    have read := ofJson_built built
    rw [same, ofJson_built otherBuilt] at read
    exact (Option.some.inj read).symm
  · rintro rfl
    rfl

/-! The order of the models leaves no trace, and the order of the fields does. -/

def swappedModels : List Model :=
  [{ name := "Galaxy", fields := [⟨"center", .relation "Star"⟩, ⟨"name", .text⟩] },
    { name := "Star", fields := [⟨"mag", .float⟩, ⟨"host", .relation "Galaxy"⟩] }]

theorem cyclic_models_serialized :
    ofModels cyclicModels = .ok cyclicRegistry ∧
    ofModels swappedModels = .ok { models := swappedModels } ∧
    Registry.ofJson cyclicRegistry.toJson = some cyclicRegistry ∧
    cyclicRegistry.toJson ≠ (Registry.mk swappedModels).toJson ∧
    ∃ registry, ofModels cyclicModels.reverse = .ok registry ∧
      registry.toJson = cyclicRegistry.toJson := by
  have built : ofModels cyclicModels = .ok cyclicRegistry := rfl
  have swapped : ofModels swappedModels = .ok { models := swappedModels } := rfl
  have reversed : ofModels cyclicModels.reverse = .ok { models := arrange [] cyclicModels.reverse } :=
    rfl
  obtain ⟨-, back, -, fieldsMatter⟩ := serialized_canonically _ _ _ _ built swapped
  obtain ⟨-, -, -, orderForgotten⟩ := serialized_canonically _ _ _ _ reversed built
  refine ⟨built, swapped, back, ?_, _, reversed, ?_⟩
  · exact fun same => absurd (fieldsMatter.mp same) (by decide)
  · exact orderForgotten.mpr (List.reverse_perm _)

end Registry

end ConeFilter
