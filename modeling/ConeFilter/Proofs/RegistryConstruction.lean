import ConeFilter.Schema
import Mathlib.Data.List.Induction
import Mathlib.Data.List.Nodup

/-!
Building a registry. A list of models makes a registry exactly if no name stands twice and
every relation leads to a model of the list; the order of the list is forgotten. Names are checked
in the order of the list and before any relation, relations in the order of the names of their
models, and the first fault in this order is the one reported.
-/
namespace ConeFilter

/-- Where a property of lists is lost from the left. -/
theorem exists_first_break {α : Type} (kept : List α → Prop) (start : kept [])
    (items : List α) (broken : ¬ kept items) :
    ∃ before item after, items = before ++ item :: after ∧ kept before ∧
      ¬ kept (before ++ [item]) := by
  induction items using List.reverseRecOn with
  | nil => exact absurd start broken
  | append_singleton front last ih =>
      by_cases whole : kept front
      · exact ⟨front, last, [], rfl, whole, broken⟩
      · obtain ⟨before, item, after, rfl, sound, lost⟩ := ih whole
        exact ⟨before, item, after ++ [last], by simp, sound, lost⟩

/-- With distinct names the item under a name is the only one that bears it. -/
theorem find_named {α : Type} (name : α → String) (items : List α)
    (distinct : (items.map name).Nodup) (key : String) (item : α) :
    items.find? (fun other => name other == key) = some item ↔ item ∈ items ∧ name item = key := by
  induction items with
  | nil => simp
  | cons head rest ih =>
      obtain ⟨fresh, restDistinct⟩ := List.nodup_cons.mp distinct
      rw [List.find?_cons, List.mem_cons]
      by_cases found : name head = key
      · have absent : item ∈ rest → name item ≠ key := by
          rintro member same
          exact fresh (found.trans same.symm ▸ List.mem_map_of_mem member)
        simp only [found, beq_self_eq_true, Option.some.injEq]
        constructor
        · rintro rfl
          exact ⟨.inl rfl, found⟩
        · rintro ⟨same | member, named⟩
          · exact same.symm
          · exact absurd named (absent member)
      · have other : item = head → name item ≠ key := by
          rintro rfl
          exact found
        simp only [beq_eq_false_iff_ne.mpr found, ih restDistinct]
        constructor
        · rintro ⟨member, named⟩
          exact ⟨.inr member, named⟩
        · rintro ⟨same | member, named⟩
          · exact absurd named (other same)
          · exact ⟨member, named⟩

theorem Field.target_eq_some (field : Field) (target : String) :
    field.target? = some target ↔ field.kind = .relation target := by
  unfold target?
  cases field.kind <;> simp

namespace Registry

/-! What is expected of a list of models, and what is reported when it is not met. -/

/-- No two models share a name, and no two fields of one model do. -/
structure Unambiguous (models : List Model) : Prop where
  names : (models.map Model.name).Nodup
  fields : ∀ model ∈ models, (model.fields.map Field.name).Nodup

/-- A relation that leads to no model of the list. -/
def Dangling (models : List Model) (field : Field) : Prop :=
  ∃ target, field.kind = .relation target ∧ ∀ model ∈ models, model.name ≠ target

structure WellFormed (models : List Model) : Prop extends Unambiguous models where
  targets : ∀ model ∈ models, ∀ field ∈ model.fields, ¬ Dangling models field

/-- The fault that is reported. A model with a field twice is not compared with earlier models,
and relations are not looked at while a name is given twice. -/
inductive FirstFault (models : List Model) : SchemaError → Prop where
  | duplicateField {before after : List Model} {model : Model} {earlier later : List Field}
      {field : Field} (order : models = before ++ model :: after) (sound : Unambiguous before)
      (declared : model.fields = earlier ++ field :: later)
      (distinct : (earlier.map Field.name).Nodup)
      (repeated : field.name ∈ earlier.map Field.name) :
      FirstFault models (.duplicateField model.name field.name)
  | duplicateModel {before after : List Model} {model : Model}
      (order : models = before ++ model :: after) (sound : Unambiguous before)
      (distinct : (model.fields.map Field.name).Nodup)
      (repeated : model.name ∈ before.map Model.name) :
      FirstFault models (.duplicateModel model.name)
  | unknownTarget {model : Model} {earlier later : List Field} {field : Field} {target : String}
      (unambiguous : Unambiguous models) (member : model ∈ models)
      (least : ∀ other ∈ models, other.name < model.name →
        ∀ field ∈ other.fields, ¬ Dangling models field)
      (declared : model.fields = earlier ++ field :: later)
      (sound : ∀ field ∈ earlier, ¬ Dangling models field)
      (related : field.kind = .relation target) (absent : ∀ other ∈ models, other.name ≠ target) :
      FirstFault models (.unknownTarget model.name field.name target)

/-! Models by name. -/

def SortedNames (models : List Model) : Prop :=
  models.Pairwise fun first second => first.name < second.name

theorem insertModel_perm (model : Model) (taken : List Model) :
    (insertModel model taken).Perm (model :: taken) := by
  induction taken with
  | nil => rfl
  | cons other rest ih =>
      unfold insertModel
      split
      · rfl
      · exact (ih.cons other).trans (.swap model other rest)

theorem insertModel_append_perm (model : Model) (taken rest : List Model) :
    (insertModel model taken ++ rest).Perm (taken ++ model :: rest) :=
  ((insertModel_perm model taken).append_right rest).trans List.perm_middle.symm

theorem sorted_insertModel (model : Model) (taken : List Model) (sorted : SortedNames taken)
    (fresh : model.name ∉ taken.map Model.name) : SortedNames (insertModel model taken) := by
  induction taken with
  | nil => exact List.pairwise_singleton _ _
  | cons other rest ih =>
      obtain ⟨later, tail⟩ := List.pairwise_cons.mp sorted
      simp only [List.map_cons, List.mem_cons, not_or] at fresh
      unfold insertModel
      split
      · rename_i before
        exact List.pairwise_cons.mpr ⟨List.forall_mem_cons.mpr
          ⟨before, fun next member => String.lt_trans before (later next member)⟩, sorted⟩
      · rename_i notBefore
        have behind : other.name < model.name := by
          rcases Std.lt_trichotomy other.name model.name with smaller | same | larger
          · exact smaller
          · exact absurd same.symm fresh.1
          · exact absurd larger notBefore
        refine List.pairwise_cons.mpr ⟨fun next member => ?_, ih tail fresh.2⟩
        rcases List.mem_cons.mp ((insertModel_perm model rest).subset member) with rfl | old
        · exact behind
        · exact later next old

/-- Models taken one by one into those that are there already. -/
def arrange (taken models : List Model) : List Model :=
  models.foldl (fun taken model => insertModel model taken) taken

theorem arrange_perm (taken models : List Model) :
    (arrange taken models).Perm (taken ++ models) := by
  induction models generalizing taken with
  | nil => simp [arrange]
  | cons model rest ih =>
      exact (ih (insertModel model taken)).trans (insertModel_append_perm model taken rest)

theorem fresh_of_distinct (model : Model) (taken rest : List Model)
    (distinct : ((taken ++ model :: rest).map Model.name).Nodup) :
    model.name ∉ taken.map Model.name := by
  rw [List.map_append, List.map_cons] at distinct
  exact fun twice => (List.nodup_append.mp distinct).2.2 _ twice _ List.mem_cons_self rfl

theorem sorted_arrange (taken models : List Model) (sorted : SortedNames taken)
    (distinct : ((taken ++ models).map Model.name).Nodup) : SortedNames (arrange taken models) := by
  induction models generalizing taken with
  | nil => exact sorted
  | cons model rest ih =>
      have moved := (insertModel_append_perm model taken rest).map Model.name
      have fresh := fresh_of_distinct model taken rest distinct
      exact ih _ (sorted_insertModel model taken sorted fresh) (moved.nodup_iff.mpr distinct)

theorem dangling_perm {models others : List Model} (same : models.Perm others) (field : Field) :
    Dangling models field ↔ Dangling others field := by
  simp only [Dangling, same.mem_iff]

theorem WellFormed.perm {models others : List Model} (wellFormed : WellFormed models)
    (same : models.Perm others) : WellFormed others where
  names := (same.map Model.name).nodup_iff.mp wellFormed.names
  fields model member := wellFormed.fields model (same.mem_iff.mpr member)
  targets model member field declared := by
    rw [← dangling_perm same]
    exact wellFormed.targets model (same.mem_iff.mpr member) field declared

/-! Checking names. -/

theorem firstRepeat_append (seen names rest : List String) (distinct : names.Nodup)
    (fresh : ∀ name ∈ names, name ∉ seen) :
    firstRepeat seen (names ++ rest) = firstRepeat (names.reverse ++ seen) rest := by
  induction names generalizing seen with
  | nil => rfl
  | cons name others ih =>
      obtain ⟨unrepeated, othersDistinct⟩ := List.nodup_cons.mp distinct
      obtain ⟨unseen, othersFresh⟩ := List.forall_mem_cons.mp fresh
      have stillFresh : ∀ other ∈ others, other ∉ name :: seen := by
        rintro other member (_ | ⟨_, old⟩)
        · exact unrepeated member
        · exact othersFresh other member old
      rw [List.cons_append, firstRepeat, if_neg unseen, ih _ othersDistinct stillFresh]
      simp

theorem firstRepeat_distinct (names : List String) (distinct : names.Nodup) :
    firstRepeat [] names = none := by
  have walked := firstRepeat_append [] names [] distinct fun _ _ => List.not_mem_nil
  rwa [List.append_nil] at walked

theorem firstRepeat_repeated (earlier later : List String) (name : String)
    (distinct : earlier.Nodup) (repeated : name ∈ earlier) :
    firstRepeat [] (earlier ++ name :: later) = some name := by
  rw [firstRepeat_append [] earlier _ distinct fun _ _ => List.not_mem_nil, firstRepeat,
    if_pos (by simpa using repeated)]

/-- Models without a fault of their own are taken, whatever comes behind them. -/
theorem collect_append (taken before rest : List Model)
    (distinct : ((taken ++ before).map Model.name).Nodup)
    (fields : ∀ model ∈ before, (model.fields.map Field.name).Nodup) :
    collect taken (before ++ rest) = collect (arrange taken before) rest := by
  induction before generalizing taken with
  | nil => rfl
  | cons model others ih =>
      obtain ⟨modelFields, othersFields⟩ := List.forall_mem_cons.mp fields
      have moved := (insertModel_append_perm model taken others).map Model.name
      have fresh := fresh_of_distinct model taken others distinct
      have unseen : (taken.any fun other => other.name == model.name) = false :=
        List.any_eq_false.mpr fun other member same =>
          fresh (beq_iff_eq.mp same ▸ List.mem_map_of_mem member)
      rw [List.cons_append, collect, firstRepeat_distinct _ modelFields, unseen]
      exact ih _ (moved.nodup_iff.mpr distinct) othersFields

theorem collect_unambiguous (before rest : List Model) (sound : Unambiguous before) :
    collect [] (before ++ rest) = collect (arrange [] before) rest :=
  collect_append [] before rest sound.names sound.fields

theorem collect_ok (models : List Model) (unambiguous : Unambiguous models) :
    collect [] models = .ok (arrange [] models) := by
  have taken := collect_unambiguous models [] unambiguous
  rwa [List.append_nil] at taken

/-! Checking relations. -/

theorem danglingField_none (models : List Model) (model : Model)
    (sound : ∀ field ∈ model.fields, ¬ Dangling models field) :
    danglingField (models.map Model.name) model = none := by
  refine List.findSome?_eq_none_iff.mpr fun field member => ?_
  cases related : field.target? with
  | none => rfl
  | some target =>
      have known : target ∈ models.map Model.name := by
        by_contra absent
        refine sound field member ⟨target, (field.target_eq_some target).mp related, ?_⟩
        rintro other stands rfl
        exact absent (List.mem_map_of_mem stands)
      exact if_pos known

theorem danglingField_some (models : List Model) (model : Model) (earlier later : List Field)
    (field : Field) (target : String) (declared : model.fields = earlier ++ field :: later)
    (sound : ∀ field ∈ earlier, ¬ Dangling models field)
    (related : field.kind = .relation target) (absent : ∀ other ∈ models, other.name ≠ target) :
    danglingField (models.map Model.name) model =
      some (.unknownTarget model.name field.name target) := by
  have unknown : target ∉ models.map Model.name := by
    intro member
    obtain ⟨other, stands, named⟩ := List.mem_map.mp member
    exact absent other stands named
  have before := danglingField_none models { model with fields := earlier } sound
  unfold danglingField at before ⊢
  rw [declared, List.findSome?_append, before, Option.none_or, List.findSome?_cons,
    (field.target_eq_some target).mpr related]
  simp only [if_neg unknown]

/-! Both checks together. -/

theorem ofModels_wellFormed (models : List Model) (wellFormed : WellFormed models) :
    ofModels models = .ok { models := arrange [] models } := by
  have same := wellFormed.perm (arrange_perm [] models).symm
  have sound : (arrange [] models).findSome?
      (danglingField ((arrange [] models).map Model.name)) = none :=
    List.findSome?_eq_none_iff.mpr fun model member =>
      danglingField_none _ model (same.targets model member)
  rw [ofModels, collect_ok models wellFormed.toUnambiguous]
  simp only [sound]

theorem ofModels_firstFault (models : List Model) (fault : SchemaError)
    (first : FirstFault models fault) : ofModels models = .error fault := by
  cases first with
  | @duplicateField before after model earlier later field order sound declared distinct repeated =>
      have found : firstRepeat [] (model.fields.map Field.name) = some field.name := by
        rw [declared, List.map_append, List.map_cons]
        exact firstRepeat_repeated _ _ _ distinct repeated
      rw [ofModels, order, collect_unambiguous before _ sound, collect, found]
  | @duplicateModel before after model order sound distinct repeated =>
      have taken : ((arrange [] before).any fun other => other.name == model.name) = true := by
        obtain ⟨other, member, named⟩ := List.mem_map.mp repeated
        exact List.any_eq_true.mpr
          ⟨other, (arrange_perm [] before).mem_iff.mpr member, beq_iff_eq.mpr named⟩
      rw [ofModels, order, collect_unambiguous before _ sound, collect,
        firstRepeat_distinct _ distinct, taken]
      rfl
  | @unknownTarget model earlier later field target unambiguous member least declared sound related
      absent =>
      have same : (arrange [] models).Perm models := arrange_perm [] models
      have sorted := sorted_arrange [] models .nil unambiguous.names
      obtain ⟨lower, upper, split⟩ := List.append_of_mem (same.mem_iff.mpr member)
      -- In front of the model stand those with smaller names, which have no dangling field.
      have lowerSound : lower.findSome?
          (danglingField ((arrange [] models).map Model.name)) = none := by
        refine List.findSome?_eq_none_iff.mpr fun other stands => ?_
        refine danglingField_none _ other fun field inside => ?_
        rw [dangling_perm same]
        rw [split] at sorted
        refine least other (same.subset (split ▸ List.mem_append_left _ stands)) ?_ field inside
        exact (List.pairwise_append.mp sorted).2.2 other stands model List.mem_cons_self
      have reported := danglingField_some (arrange [] models) model earlier later field target
        declared (fun field inside => by rw [dangling_perm same]; exact sound field inside) related
        (fun other stands => absent other (same.subset stands))
      have faulty : (arrange [] models).findSome?
          (danglingField ((arrange [] models).map Model.name)) =
            some (.unknownTarget model.name field.name target) := by
        conv_lhs => arg 2; rw [split]
        rw [List.findSome?_append, lowerSound, Option.none_or, List.findSome?_cons, reported]
      rw [ofModels, collect_ok models unambiguous]
      simp only [faulty]

theorem distinct_append_one {α : Type} (name : α → String) (items : List α) (item : α) :
    ((items ++ [item]).map name).Nodup ↔
      (items.map name).Nodup ∧ name item ∉ items.map name := by
  rw [List.map_append, List.nodup_append_comm]
  exact List.nodup_cons.trans and_comm

theorem wellFormed_or_firstFault (models : List Model) :
    WellFormed models ∨ ∃ fault, FirstFault models fault := by
  by_cases unambiguous : Unambiguous models
  · by_cases targets : ∀ model ∈ models, ∀ field ∈ model.fields, ¬ Dangling models field
    · exact .inl ⟨unambiguous, targets⟩
    right
    have same : (arrange [] models).Perm models := arrange_perm [] models
    have sorted := sorted_arrange [] models .nil unambiguous.names
    -- The order of the list is of no use here: relations are checked in the order of the names.
    obtain ⟨lower, model, upper, split, lowerSound, broken⟩ := exists_first_break
      (fun taken => ∀ model ∈ taken, ∀ field ∈ model.fields, ¬ Dangling models field) (by simp)
      (arrange [] models) (by simpa only [same.mem_iff] using targets)
    have faulty : ¬ ∀ field ∈ model.fields, ¬ Dangling models field := fun sound =>
      broken (List.forall_mem_append.mpr ⟨lowerSound, List.forall_mem_singleton.mpr sound⟩)
    obtain ⟨earlier, field, later, declared, sound, lost⟩ := exists_first_break
      (fun fields => ∀ field ∈ fields, ¬ Dangling models field) (by simp) model.fields faulty
    obtain ⟨target, related, absent⟩ : Dangling models field := by
      by_contra closed
      exact lost (List.forall_mem_append.mpr ⟨sound, List.forall_mem_singleton.mpr closed⟩)
    have member : model ∈ models := same.subset (by rw [split]; simp)
    refine ⟨_, .unknownTarget unambiguous member ?_ declared sound related absent⟩
    intro other stands smaller
    rw [split] at sorted
    have placed : other ∈ lower ++ model :: upper := split ▸ same.mem_iff.mpr stands
    rcases List.mem_append.mp placed with before | after
    · exact lowerSound other before
    · rcases List.mem_cons.mp after with rfl | behind
      · exact absurd smaller (String.lt_irrefl _)
      · have larger := (List.pairwise_cons.mp (List.pairwise_append.mp sorted).2.1).1 other behind
        exact absurd (String.lt_trans smaller larger) (String.lt_irrefl _)
  · right
    -- The model at which names first clash; its own fields are looked at before its name.
    obtain ⟨before, model, after, order, sound, broken⟩ :=
      exists_first_break Unambiguous ⟨.nil, by simp⟩ models unambiguous
    by_cases distinct : (model.fields.map Field.name).Nodup
    · refine ⟨_, .duplicateModel order sound distinct ?_⟩
      by_contra fresh
      exact broken ⟨(distinct_append_one _ _ _).mpr ⟨sound.names, fresh⟩,
        List.forall_mem_append.mpr ⟨sound.fields, List.forall_mem_singleton.mpr distinct⟩⟩
    · obtain ⟨earlier, field, later, declared, first, lost⟩ := exists_first_break
        (fun fields => (fields.map Field.name).Nodup) .nil model.fields distinct
      refine ⟨_, .duplicateField order sound declared first ?_⟩
      by_contra fresh
      exact lost ((distinct_append_one _ _ _).mpr ⟨first, fresh⟩)

theorem ofModels_ok (models : List Model) (registry : Registry) :
    ofModels models = .ok registry ↔
      WellFormed models ∧ registry = { models := arrange [] models } := by
  constructor
  · intro built
    rcases wellFormed_or_firstFault models with wellFormed | ⟨fault, first⟩
    · rw [ofModels_wellFormed models wellFormed] at built
      exact ⟨wellFormed, (Except.ok.inj built).symm⟩
    · rw [ofModels_firstFault models fault first] at built
      cases built
  · rintro ⟨wellFormed, rfl⟩
    exact ofModels_wellFormed models wellFormed

theorem ofModels_error (models : List Model) (fault : SchemaError) :
    ofModels models = .error fault ↔ FirstFault models fault := by
  constructor
  · intro refused
    rcases wellFormed_or_firstFault models with wellFormed | ⟨other, first⟩
    · rw [ofModels_wellFormed models wellFormed] at refused
      cases refused
    · rw [ofModels_firstFault models other first] at refused
      exact Except.error.inj refused ▸ first
  · exact ofModels_firstFault models fault

theorem ofModels_accepts (models : List Model) :
    (∃ registry, ofModels models = .ok registry) ↔ WellFormed models := by
  simp only [ofModels_ok, exists_and_left, exists_eq, and_true]

/-! What a registry answers. -/

/-- Some model of the list has the name and the field. -/
def Declares (models : List Model) (model : String) (field : Field) : Prop :=
  ∃ entity ∈ models, entity.name = model ∧ field ∈ entity.fields

section Answers
variable {models : List Model} {registry : Registry} (built : ofModels models = .ok registry)

include built

theorem models_perm : registry.models.Perm models := by
  obtain ⟨-, rfl⟩ := (ofModels_ok models registry).mp built
  exact arrange_perm [] models

theorem models_sorted : SortedNames registry.models := by
  obtain ⟨wellFormed, rfl⟩ := (ofModels_ok models registry).mp built
  exact sorted_arrange [] models .nil wellFormed.names

theorem lookup_iff (model name : String) (field : Field) :
    ((registry.model? model).bind fun entity => entity.field? name) = some field ↔
      Declares models model field ∧ field.name = name := by
  obtain ⟨wellFormed, -⟩ := (ofModels_ok models registry).mp built
  have same := models_perm built
  have distinct := (same.map Model.name).nodup_iff.mpr wellFormed.names
  simp only [Option.bind_eq_some_iff, model?, find_named Model.name _ distinct, same.mem_iff,
    Declares]
  constructor
  · rintro ⟨entity, ⟨member, named⟩, found⟩
    obtain ⟨inside, fieldNamed⟩ :=
      (find_named Field.name _ (wellFormed.fields entity member) _ _).mp found
    exact ⟨⟨entity, member, named, inside⟩, fieldNamed⟩
  · rintro ⟨⟨entity, member, named, inside⟩, fieldNamed⟩
    exact ⟨entity, ⟨member, named⟩,
      (find_named Field.name _ (wellFormed.fields entity member) _ _).mpr ⟨inside, fieldNamed⟩⟩

theorem fieldExists_iff (model name : String) :
    registry.fieldExists model name = true ↔ ∃ kind, Declares models model ⟨name, kind⟩ := by
  rw [fieldExists, Option.isSome_iff_exists]
  simp only [lookup_iff built]
  constructor
  · rintro ⟨field, declared, rfl⟩
    exact ⟨field.kind, declared⟩
  · rintro ⟨kind, declared⟩
    exact ⟨_, declared, rfl⟩

theorem relatedModel_iff (model name target : String) :
    registry.relatedModel model name = some target ↔
      Declares models model ⟨name, .relation target⟩ := by
  rw [relatedModel, Option.bind_eq_some_iff]
  simp only [lookup_iff built, Field.target_eq_some]
  constructor
  · rintro ⟨⟨_, _⟩, ⟨declared, rfl⟩, rfl⟩
    exact declared
  · intro declared
    exact ⟨_, ⟨declared, rfl⟩, rfl⟩

end Answers

/-- A list of models makes a registry exactly if it is well formed, in whatever order it stands,
and the registry answers what the list says. Otherwise the first fault is reported. -/
theorem builds_exactly (models : List Model) :
    ((∃ registry, ofModels models = .ok registry) ↔ WellFormed models) ∧
    (∀ others, models.Perm others →
      ((∃ registry, ofModels others = .ok registry) ↔ ∃ registry, ofModels models = .ok registry)) ∧
    (∀ registry, ofModels models = .ok registry → ∀ model field,
      (registry.fieldExists model field = true ↔ ∃ kind, Declares models model ⟨field, kind⟩) ∧
      ∀ target, registry.relatedModel model field = some target ↔
        Declares models model ⟨field, .relation target⟩) ∧
    ∀ fault, ofModels models = .error fault ↔ FirstFault models fault := by
  refine ⟨ofModels_accepts models, fun others same => ?_, fun registry built model field => ?_,
    ofModels_error models⟩
  · rw [ofModels_accepts, ofModels_accepts]
    exact ⟨fun wellFormed => wellFormed.perm same.symm, fun wellFormed => wellFormed.perm same⟩
  · exact ⟨fieldExists_iff built model field, relatedModel_iff built model field⟩

/-! Relations may lead forward and back to their own model. Of several faults, names that stand
twice come before relations, and the relations of models with smaller names before others. -/

def relatedStars : List Model :=
  [{ name := "Star", fields := [⟨"host", .relation "Galaxy"⟩, ⟨"twin", .relation "Star"⟩] },
    { name := "Galaxy", fields := [⟨"name", .text⟩] }]

def repeatedStars : List Model :=
  [{ name := "Star", fields := [⟨"host", .relation "Nebula"⟩] },
    { name := "Galaxy", fields := [⟨"name", .text⟩, ⟨"core", .relation "Nucleus"⟩, ⟨"name", .int⟩] },
    { name := "Star", fields := [] }]

def lostStars : List Model :=
  [{ name := "Star", fields := [⟨"host", .relation "Nebula"⟩] },
    { name := "Galaxy", fields := [⟨"name", .text⟩, ⟨"core", .relation "Nucleus"⟩] }]

theorem related_stars_build :
    WellFormed relatedStars ∧ Declares relatedStars "Star" ⟨"twin", .relation "Star"⟩ ∧
    (∃ registry, ofModels relatedStars.reverse = .ok registry) ∧
    FirstFault repeatedStars (.duplicateField "Galaxy" "name") ∧
    FirstFault lostStars (.unknownTarget "Galaxy" "core" "Nucleus") := by
  have built : ofModels relatedStars = .ok { models := arrange [] relatedStars } := rfl
  obtain ⟨accepted, reordered, answers, -⟩ := builds_exactly relatedStars
  obtain ⟨-, -, -, repeated⟩ := builds_exactly repeatedStars
  obtain ⟨-, -, -, lost⟩ := builds_exactly lostStars
  refine ⟨accepted.mp ⟨_, built⟩, ?_, ?_, (repeated _).mp rfl, (lost _).mp rfl⟩
  · exact ((answers _ built "Star" "twin").2 "Star").mp rfl
  · exact (reordered _ (List.reverse_perm _).symm).mpr ⟨_, built⟩

end Registry

end ConeFilter
