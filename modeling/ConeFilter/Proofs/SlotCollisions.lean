import ConeFilter.Proofs.FlattenedPaths
import ConeFilter.Proofs.ReferencedFields

/-!
Columns beside slots. Both are fields of a predicate, and a schema may well
declare a field with the name of a slot: such a column is taken for the cone.
Only a path of one segment can be, since a name that reads as a position has a
single underscore and a join brings two. So the target model alone decides, and
if none of its own fields is found as a cone, columns and slots are apart.
-/
namespace ConeFilter

namespace Cone

theorem underscore_free (suffix : List Char) (index : Nat)
    (read : readSuffix suffix = some index) : '_' ∉ suffix := by
  unfold readSuffix at read
  split at read
  · exact List.not_mem_nil
  · cases read
  · unfold Numeral.readIndex at read
    split at read
    · simpa using Numeral.underscore_not_mem _ _ (Option.filter_eq_some_iff.mp read).1
    · exact Numeral.underscore_not_mem _ _ (Option.filter_eq_some_iff.mp read).1

theorem count_underscore (name : String) (index : Nat) (read : slotIndex name = some index) :
    name.toList.count '_' = 1 := by
  obtain ⟨suffix, dropped, position⟩ := Option.bind_eq_some_iff.mp read
  rw [(dropStem_eq_some _ _ _).mp dropped, List.count_append,
    List.count_eq_zero.mpr (underscore_free suffix index position)]
  decide

end Cone

namespace Scope

theorem two_underscores (first second : String) (rest : List String) :
    2 ≤ (flatten (first :: second :: rest)).toList.count '_' := by
  rw [flatten_toList, List.map_cons, List.map_cons, joined_cons, following, List.count_append,
    List.count_append]
  have join : separator.count '_' = 2 := by decide
  omega

/-- A path that reads as a position has one segment. -/
theorem single_segment (path : List String) (index : Nat)
    (read : Cone.slotIndex (flatten path) = some index) : ∃ name, path = [name] := by
  have once := Cone.count_underscore _ index read
  match path with
  | [] => exact absurd once (by decide)
  | [name] => exact ⟨name, rfl⟩
  | first :: second :: rest =>
      have twice := two_underscores first second rest
      omega

theorem exists_of_walk (scope : Scope) (name : String)
    (walked : walk scope.catalog scope.model [name] = .ok ()) :
    scope.catalog.fieldExists scope.model name = true := by
  unfold walk at walked
  split at walked
  · assumption
  · cases walked

end Scope

section Columns
variable {scope : Scope} {node : Node} {predicate : Predicate} {cones : List Cone}
  {events : List Event}

/-- A column is taken for a cone exactly when it is a field of the target model with the name of
that cone. -/
theorem Asserts.column_coneFor (asserted : Asserts scope 0 node predicate cones events)
    (extra : Extra) (path : List String) (mentioned : path ∈ node.columns) :
    (extra.coneFor (Scope.flatten path)).isSome ↔
      ∃ name, path = [name] ∧ scope.catalog.fieldExists scope.model name = true ∧
        (extra.coneFor name).isSome := by
  constructor
  · intro taken
    obtain ⟨cone, found⟩ := Option.isSome_iff_exists.mp taken
    obtain ⟨index, read, -⟩ := Option.bind_eq_some_iff.mp found
    obtain ⟨name, rfl⟩ := Scope.single_segment path index read
    exact ⟨name, rfl, scope.exists_of_walk name (asserted.walked [name] mentioned), taken⟩
  · rintro ⟨name, rfl, -, taken⟩
    exact taken

end Columns

namespace Extra

/-- Among the slots of a list of cones, those within reach of the reader are found. -/
theorem slot_found (extra : Extra) (field : String) :
    field ∈ (List.range' 0 extra.cones.length).map Cone.slotName ∧ (extra.coneFor field).isSome ↔
      ∃ index, index < extra.cones.length ∧ index < Numeral.indexLimit ∧
        field = Cone.slotName index := by
  constructor
  · rintro ⟨slot, taken⟩
    obtain ⟨index, inside, rfl⟩ := List.mem_map.mp slot
    exact ⟨index, by simpa [List.mem_range'] using inside, extra.slot_fits index taken, rfl⟩
  · rintro ⟨index, inside, fits, rfl⟩
    refine ⟨List.mem_map.mpr ⟨index, by simpa [List.mem_range'] using inside, rfl⟩, ?_⟩
    rw [extra.coneFor_slotName index fits]
    simp [inside]

end Extra

namespace Registry

def fieldNames (registry : Registry) : List String :=
  registry.models.flatMap fun model => model.fields.map Field.name

theorem mem_fieldNames (registry : Registry) (model name : String)
    (found : registry.fieldExists model name = true) : name ∈ registry.fieldNames := by
  obtain ⟨field, looked⟩ := Option.isSome_iff_exists.mp found
  obtain ⟨entity, inRegistry, inEntity⟩ := Option.bind_eq_some_iff.mp looked
  have named : (field.name == name) = true :=
    List.find?_some (p := fun field : Field => field.name == name) inEntity
  refine List.mem_flatMap.mpr ⟨entity, List.mem_of_find?_eq_some inRegistry, ?_⟩
  exact List.mem_map.mpr ⟨field, List.mem_of_find?_eq_some inEntity, beq_iff_eq.mp named⟩

end Registry

/-- Columns and slots are apart unless the target model has a field with the name of a slot. -/
theorem columns_beside_slots (scope : Scope) (node : Node) (predicate : Predicate) (extra : Extra)
    (resolved : (scope.resolve node).1 = .ok { value := .condition predicate, extra }) :
    (∀ path ∈ node.columns, (extra.coneFor (Scope.flatten path)).isSome ↔
      ∃ name, path = [name] ∧ scope.catalog.fieldExists scope.model name = true ∧
        (extra.coneFor name).isSome) ∧
    ((∀ name, scope.catalog.fieldExists scope.model name = true → extra.coneFor name = none) →
      (∀ path ∈ node.columns, extra.coneFor (Scope.flatten path) = none) ∧
      ∀ field, field ∈ predicate.referencedFields ∧ (extra.coneFor field).isSome ↔
        ∃ index, index < node.coneCalls.length ∧ index < Numeral.indexLimit ∧
          field = Cone.slotName index) := by
  obtain ⟨-, events, asserted⟩ := (scope.resolve_condition_iff _ _ _).mp resolved
  have counted : node.coneCalls.length = extra.cones.length :=
    asserted.cones_described.length_eq
  refine ⟨asserted.column_coneFor extra, fun reserved => ?_⟩
  have apart : ∀ path ∈ node.columns, extra.coneFor (Scope.flatten path) = none := by
    intro path mentioned
    rw [← Option.not_isSome_iff_eq_none, asserted.column_coneFor extra path mentioned]
    rintro ⟨name, -, declared, taken⟩
    rw [reserved name declared] at taken
    cases taken
  refine ⟨apart, fun field => ?_⟩
  rw [counted, ← extra.slot_found field, predicate.mem_referencedFields, asserted.mem_fields]
  constructor
  · rintro ⟨column | slot, taken⟩
    · obtain ⟨path, mentioned, rfl⟩ := List.mem_map.mp column
      rw [apart path mentioned] at taken
      cases taken
    · exact ⟨slot, taken⟩
  · rintro ⟨slot, taken⟩
    exact ⟨.inr slot, taken⟩

theorem star_columns_beside_slots :
    ({ cones := [firstCone, secondCone] } : Extra).coneFor "mag" = none ∧
    Cone.slotName 1 ∈ twoSlots.referencedFields ∧
    (({ cones := [firstCone, secondCone] } : Extra).coneFor (Cone.slotName 1)).isSome := by
  have reserved : ∀ name, starScope.catalog.fieldExists starScope.model name = true →
      ({ cones := [firstCone, secondCone] } : Extra).coneFor name = none := by
    intro name declared
    have listed := starSchema.mem_fieldNames starScope.model name declared
    have names : starSchema.fieldNames = ["mag", "cone"] := rfl
    simp only [names, List.mem_cons, List.not_mem_nil, or_false] at listed
    rcases listed with rfl | rfl <;> rfl
  obtain ⟨apart, slots⟩ := (columns_beside_slots _ _ _ _ twoCones_resolve).2 reserved
  exact ⟨apart ["mag"] (by decide),
    (slots (Cone.slotName 1)).mpr ⟨1, by decide, by decide, rfl⟩⟩

/-! Nothing keeps a schema from declaring a field with the name of a slot. -/

def flaggedSchema : Registry :=
  { models := [{ name := "Object", fields := [⟨"cone_query", .bool⟩] }] }

def flaggedCone : Node :=
  .connect .and (.call "cone" (integers ["1", "2", "3"]))
    (.equality .equal (.column ["cone_query"]) (.literal .integer "1"))

def flaggedSlot : Predicate :=
  .and (.compare .equal (.field "cone_query") (.literal (.bool true)))
    (.compare .equal (.field "cone_query") (.literal (.int 1)))

theorem column_taken_for_cone :
    Registry.ofModels flaggedSchema.models = .ok flaggedSchema ∧
    (Scope.resolve { catalog := flaggedSchema.catalog, model := "Object" } flaggedCone).1 =
      .ok { value := .condition flaggedSlot, extra := { cones := [firstCone] } } ∧
    ["cone_query"] ∈ flaggedCone.columns ∧
    ({ cones := [firstCone] } : Extra).coneFor (Scope.flatten ["cone_query"]) = some firstCone :=
  ⟨rfl, rfl, by decide, rfl⟩

end ConeFilter
