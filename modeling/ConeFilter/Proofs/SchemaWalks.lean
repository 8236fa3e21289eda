import ConeFilter.Proofs.FlattenedPaths
import ConeFilter.Proofs.RegistryConstruction

/-!
Column paths as walks. The relations of a list of models are the edges of a graph, in which a
path leads from model to model. A column path is such a walk with any field at its end, and a
registry accepts exactly the column paths; of every other path it names the segment at which the
walk stops. As no relation dangles, a walk can always go on.
-/
namespace ConeFilter

namespace Registry

/-- Where a path of relations leads, from model to model. -/
inductive Reaches (models : List Model) : String → List String → String → Prop where
  | here {model : String} : Reaches models model [] model
  | follow {model segment target reached : String} {rest : List String}
      (related : Declares models model ⟨segment, .relation target⟩)
      (onward : Reaches models target rest reached) :
      Reaches models model (segment :: rest) reached

/-- Relations, and a field of any kind behind them. -/
def IsColumn (models : List Model) (model : String) (path : List String) : Prop :=
  ∃ parents last reached kind, path = parents ++ [last] ∧ Reaches models model parents reached ∧
    Declares models reached ⟨last, kind⟩

/-- The walk gets as far as this segment, which is no field at the end of the path or no relation
in front of its end. -/
def StopsAt (models : List Model) (model : String) (path : List String) (segment : String) : Prop :=
  ∃ before after reached, path = before ++ segment :: after ∧
    Reaches models model before reached ∧
    if after = [] then ∀ kind, ¬ Declares models reached ⟨segment, kind⟩
    else ∀ target, ¬ Declares models reached ⟨segment, .relation target⟩

section Walking
variable {models : List Model} {registry : Registry} (built : ofModels models = .ok registry)

include built

/-- What a walk has behind it does not matter for what is in front of it. -/
theorem walk_reaches {model reached : String} {before : List String}
    (reaches : Reaches models model before reached) (rest : List String) (present : rest ≠ []) :
    Scope.walk registry.catalog model (before ++ rest) =
      Scope.walk registry.catalog reached rest := by
  induction reaches with
  | here => rfl
  | @follow model segment target reached others related _ ih =>
      have next : registry.catalog.relatedModel model segment = some target :=
        (relatedModel_iff built model segment target).mpr related
      rw [List.cons_append, ← ih]
      cases ahead : others ++ rest with
      | nil => exact absurd (List.append_eq_nil_iff.mp ahead).2 present
      | cons _ _ => rw [Scope.walk, next]

theorem walk_ok_iff (model : String) (path : List String) :
    Scope.walk registry.catalog model path = .ok () ↔ IsColumn models model path := by
  constructor
  · intro walked
    fun_induction Scope.walk registry.catalog model path with
    | case1 model => cases walked
    | case2 model segment found =>
        obtain ⟨kind, declared⟩ := (fieldExists_iff built model segment).mp found
        exact ⟨[], segment, model, kind, rfl, .here, declared⟩
    | case3 model segment missing => cases walked
    | case4 model segment next rest target related ih =>
        obtain ⟨parents, last, reached, kind, split, reaches, declared⟩ := ih walked
        have step := (relatedModel_iff built model segment target).mp related
        exact ⟨segment :: parents, last, reached, kind, by rw [split, List.cons_append],
          .follow step reaches, declared⟩
    | case5 model segment next rest unrelated => cases walked
  · rintro ⟨parents, last, reached, kind, rfl, reaches, declared⟩
    rw [walk_reaches built reaches [last] (by simp), Scope.walk]
    exact if_pos ((fieldExists_iff built reached last).mpr ⟨kind, declared⟩)

theorem walk_error_iff (model : String) (path : List String) (segment : String) :
    Scope.walk registry.catalog model path = .error (.unknownField segment) ↔
      StopsAt models model path segment := by
  constructor
  · intro stopped
    fun_induction Scope.walk registry.catalog model path with
    | case1 model => cases stopped
    | case2 model last found => cases stopped
    | case3 model last missing =>
        cases stopped
        refine ⟨[], [], model, rfl, .here, ?_⟩
        rw [if_pos rfl]
        exact fun kind declared => missing ((fieldExists_iff built model _).mpr ⟨kind, declared⟩)
    | case4 model first next rest target related ih =>
        obtain ⟨before, after, reached, split, reaches, broken⟩ := ih stopped
        have step := (relatedModel_iff built model first target).mp related
        exact ⟨first :: before, after, reached, by rw [split, List.cons_append],
          .follow step reaches, broken⟩
    | case5 model first next rest unrelated =>
        cases stopped
        refine ⟨[], next :: rest, model, rfl, .here, ?_⟩
        rw [if_neg (List.cons_ne_nil _ _)]
        intro target declared
        have related := (relatedModel_iff built model segment target).mpr declared
        exact Option.some_ne_none target (related.symm.trans unrelated)
  · rintro ⟨before, after, reached, rfl, reaches, broken⟩
    rw [walk_reaches built reaches (segment :: after) (by simp)]
    cases after with
    | nil =>
        rw [if_pos rfl] at broken
        refine if_neg fun found => ?_
        obtain ⟨kind, declared⟩ := (fieldExists_iff built reached segment).mp found
        exact broken kind declared
    | cons next rest =>
        rw [if_neg (List.cons_ne_nil _ _)] at broken
        have unrelated : registry.catalog.relatedModel reached segment = none :=
          Option.eq_none_iff_forall_ne_some.mpr fun target related =>
            broken target ((relatedModel_iff built reached segment target).mp related)
        rw [Scope.walk, unrelated]

/-- A path is a column, stops somewhere, or is empty. -/
theorem column_or_stops (model : String) (path : List String) (present : path ≠ []) :
    IsColumn models model path ∨ ∃ segment, StopsAt models model path segment := by
  simp only [← walk_ok_iff built, ← walk_error_iff built]
  fun_induction Scope.walk registry.catalog model path with
  | case1 model => exact absurd rfl present
  | case2 model segment found => exact .inl rfl
  | case3 model segment missing => exact .inr ⟨segment, rfl⟩
  | case4 model segment next rest target related ih => exact ih (List.cons_ne_nil _ _)
  | case5 model segment next rest unrelated => exact .inr ⟨segment, rfl⟩

/-- Relations lead to models of the list only. -/
theorem reaches_registered {model reached : String} {path : List String}
    (reaches : Reaches models model path reached)
    (registered : ∃ entity ∈ models, entity.name = model) :
    ∃ entity ∈ models, entity.name = reached := by
  obtain ⟨wellFormed, -⟩ := (ofModels_ok models registry).mp built
  induction reaches with
  | here => exact registered
  | @follow model segment target reached rest related _ ih =>
      obtain ⟨entity, member, -, declared⟩ := related
      apply ih
      -- A target outside the list would be a dangling relation, which building has ruled out.
      by_contra absent
      exact wellFormed.targets entity member _ declared
        ⟨target, rfl, fun other stands named => absent ⟨other, stands, named⟩⟩

end Walking

/-- A registry accepts exactly the column paths, names the segment at which any other path stops,
and every walk ends at a model of the registry, so that it can go on to each field there. -/
theorem columns_are_walks (models : List Model) (registry : Registry) (model : String)
    (built : ofModels models = .ok registry)
    (registered : ∃ entity ∈ models, entity.name = model) :
    let column := Scope.column { catalog := registry.catalog, model }
    (∀ path, (∃ name, (column path).1 = .ok name) ↔ IsColumn models model path) ∧
    (∀ path, IsColumn models model path → column path =
      (.ok (String.intercalate "__" path), [.fieldResolved (path.length - 1)])) ∧
    (∀ path, path ≠ [] → ¬ IsColumn models model path →
      ∃ segment, column path = (.error (.unknownField segment), [])) ∧
    (∀ path segment, column path = (.error (.unknownField segment), []) ↔
      StopsAt models model path segment) ∧
    ∀ path reached, Reaches models model path reached →
      (∃ entity ∈ models, entity.name = reached) ∧
      ∀ field kind, Declares models reached ⟨field, kind⟩ →
        ∃ name, (column (path ++ [field])).1 = .ok name := by
  intro column
  have accepted (path : List String) :
      (∃ name, (column path).1 = .ok name) ↔ IsColumn models model path := by
    simp only [column, Scope.column_ok, walk_ok_iff built, exists_and_left, exists_eq, and_true]
  have stops (path : List String) (segment : String) :
      column path = (.error (.unknownField segment), []) ↔ StopsAt models model path segment := by
    rw [← walk_error_iff built]
    simp only [column, Scope.column]
    split <;> rename_i outcome <;> simp [outcome]
  refine ⟨accepted, fun path isColumn => ?_, fun path present refused => ?_, stops,
    fun path reached reaches => ⟨reaches_registered built reaches registered, ?_⟩⟩
  · simp only [column, Scope.column, (walk_ok_iff built model path).mpr isColumn, Scope.flatten]
  · obtain ⟨segment, stopped⟩ := (column_or_stops built model path present).resolve_left refused
    exact ⟨segment, (stops path segment).mpr stopped⟩
  · intro field kind declared
    exact (accepted _).mpr ⟨path, field, reached, kind, rfl, reaches, declared⟩

/-! Stars and the galaxies around them, with a cycle between the two. -/

def cyclicModels : List Model :=
  [{ name := "Star", fields := [⟨"host", .relation "Galaxy"⟩, ⟨"mag", .float⟩] },
    { name := "Galaxy", fields := [⟨"center", .relation "Star"⟩, ⟨"name", .text⟩] }]

def cyclicRegistry : Registry := { models := arrange [] cyclicModels }

theorem star_columns_are_walks :
    ofModels cyclicModels = .ok cyclicRegistry ∧
    (∃ entity ∈ cyclicModels, entity.name = "Star") ∧
    Scope.column { catalog := cyclicRegistry.catalog, model := "Star" }
      ["host", "center", "host", "name"] =
        (.ok "host__center__host__name", [.fieldResolved 3]) ∧
    Scope.column { catalog := cyclicRegistry.catalog, model := "Star" } ["host", "name", "mag"] =
      (.error (.unknownField "name"), []) ∧
    ∃ name, (Scope.column { catalog := cyclicRegistry.catalog, model := "Star" }
      (["host", "center"] ++ ["mag"])).1 = .ok name := by
  have built : ofModels cyclicModels = .ok cyclicRegistry := rfl
  have registered : ∃ entity ∈ cyclicModels, entity.name = "Star" := ⟨_, List.mem_cons_self, rfl⟩
  have host : Declares cyclicModels "Star" ⟨"host", .relation "Galaxy"⟩ :=
    ⟨_, List.mem_cons_self, rfl, List.mem_cons_self⟩
  have center : Declares cyclicModels "Galaxy" ⟨"center", .relation "Star"⟩ :=
    ⟨_, List.mem_cons_of_mem _ List.mem_cons_self, rfl, List.mem_cons_self⟩
  have name : Declares cyclicModels "Galaxy" ⟨"name", .text⟩ :=
    ⟨_, List.mem_cons_of_mem _ List.mem_cons_self, rfl, by simp⟩
  have unrelated : ∀ target, ¬ Declares cyclicModels "Galaxy" ⟨"name", .relation target⟩ := by
    simp [Declares, cyclicModels]
  obtain ⟨-, found, -, stopped, extended⟩ :=
    columns_are_walks cyclicModels cyclicRegistry "Star" built registered
  refine ⟨built, registered, ?_, ?_, ?_⟩
  · exact found _ ⟨["host", "center", "host"], "name", "Galaxy", .text, rfl,
      .follow host (.follow center (.follow host .here)), name⟩
  · exact (stopped _ _).mpr ⟨["host"], ["mag"], "Galaxy", rfl, .follow host .here, unrelated⟩
  · exact (extended _ _ (.follow host (.follow center .here))).2 "mag" .float
      ⟨_, List.mem_cons_self, rfl, by simp⟩

end Registry

end ConeFilter
