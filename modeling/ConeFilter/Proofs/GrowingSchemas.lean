import ConeFilter.Proofs.ConeAccounting
import ConeFilter.Proofs.RegistryConstruction

/-!
Growing schemas. A pass asks its catalog about columns and nothing else, and a column that
is found stays found, with the same depth, when models and fields are added. So the only
outcome that growth can change is a missing field: two passes over the same tree do the
same, step by step, for as long as the one over the smaller catalog finds its columns.
-/
namespace ConeFilter

/-- Every field is kept, and every relation with its target. -/
structure Catalog.Extends (larger catalog : Catalog) : Prop where
  fields : ∀ model field, catalog.fieldExists model field = true →
    larger.fieldExists model field = true
  relations : ∀ model field target, catalog.relatedModel model field = some target →
    larger.relatedModel model field = some target

/-- Registries grow when models are given more fields and when models are added. -/
theorem Registry.catalog_extends {models more : List Model} {registry larger : Registry}
    (built : ofModels models = .ok registry) (widened : ofModels more = .ok larger)
    (kept : ∀ model field, Declares models model field → Declares more model field) :
    larger.catalog.Extends registry.catalog where
  fields model name found := by
    obtain ⟨kind, declared⟩ := (fieldExists_iff built model name).mp found
    exact (fieldExists_iff widened model name).mpr ⟨kind, kept model _ declared⟩
  relations model name target related := by
    have declared := (relatedModel_iff built model name target).mp related
    exact (relatedModel_iff widened model name target).mpr (kept model _ declared)

/-- An outcome that is not due to a field that the schema lacks. -/
def Settled {α : Type} (outcome : Except Failure α) : Prop :=
  ∀ failure, outcome = .error failure → failure.kind ≠ .unknownField

theorem settled_ok {α : Type} (value : α) : Settled (.ok value) := fun _ failed => by cases failed

theorem settled_error {α : Type} (failure : Failure) :
    Settled (.error failure : Except Failure α) ↔ failure.kind ≠ .unknownField := by
  simp [Settled]

namespace Scope

def withCatalog (scope : Scope) (catalog : Catalog) : Scope := { scope with catalog }

theorem walk_settled {larger catalog : Catalog} (grown : larger.Extends catalog) (model : String)
    (path : List String) (settled : Settled (walk catalog model path)) :
    walk larger model path = walk catalog model path := by
  fun_induction walk catalog model path with
  | case1 model => rfl
  | case2 model segment found => rw [walk, if_pos (grown.fields model segment found)]
  | case3 model segment missing => exact absurd rfl (settled _ rfl)
  | case4 model segment next rest target related ih =>
      rw [walk, grown.relations model segment target related]
      exact ih settled
  | case5 model segment next rest unrelated => exact absurd rfl (settled _ rfl)

theorem column_settled {larger : Catalog} (scope : Scope) (grown : larger.Extends scope.catalog)
    (path : List String) (settled : Settled (scope.column path).1) :
    (scope.withCatalog larger).column path = scope.column path := by
  have walked : Settled (walk scope.catalog scope.model path) := by
    intro failure stopped
    refine settled failure ?_
    rw [column, stopped]
  rw [column, column, withCatalog, walk_settled grown scope.model path walked]

end Scope

/-! Two passes that agree as long as the first finds its columns. -/

section Keeping
variable {α β γ : Type}

def Pass.Keeps (pass grown : Pass α) : Prop :=
  ∀ before : Progress, Settled (pass.runFrom before).1 →
    grown.runFrom before = pass.runFrom before

namespace Pass

theorem keeps_refl (pass : Pass α) : pass.Keeps pass := fun _ _ => rfl

theorem keeps_bind {pass grown : Pass α} {next following : α → Pass β}
    (first : pass.Keeps grown) (rest : ∀ value, (next value).Keeps (following value)) :
    (pass >>= next).Keeps (grown >>= following) := by
  intro before settled
  have begun := first before
  rw [runFrom_bind] at settled ⊢
  rw [runFrom_bind]
  generalize pass.runFrom before = outcome at settled begun ⊢
  rcases outcome with ⟨failure | value, between⟩
  · -- The failure of the first part is the failure of the whole.
    rw [begun ((settled_error failure).mpr ((settled_error failure).mp settled))]
  · rw [begun (settled_ok value)]
    exact rest value between settled

theorem keeps_checked {pass grown : Pass α} {next following : γ → Pass β}
    (child : pass.Keeps grown) (check : α → Except Failure γ)
    (rest : ∀ checked, (next checked).Keeps (following checked)) :
    (pass >>= fun value => require (check value) >>= next).Keeps
      (grown >>= fun value => require (check value) >>= following) :=
  keeps_bind child fun value => keeps_bind (keeps_refl (require (check value))) rest

theorem keeps_column {larger : Catalog} (scope : Scope) (grown : larger.Extends scope.catalog)
    (path : List String) :
    (column scope path).Keeps (column (scope.withCatalog larger) path) := by
  intro before settled
  rw [runFrom_column] at settled
  rw [runFrom_column, runFrom_column, scope.column_settled grown path settled]

end Pass

end Keeping

/-! The tree decides what is asked, and the answers are the same. -/

namespace Node
variable {scope : Scope} {larger : Catalog}

def Keeps (scope : Scope) (larger : Catalog) (node : Node) : Prop :=
  (node.resolve scope).Keeps (node.resolve (scope.withCatalog larger))

theorem resolveItems_keeps (items : List Node) (keeps : ∀ item ∈ items, item.Keeps scope larger) :
    (resolveItems scope items).Keeps (resolveItems (scope.withCatalog larger) items) := by
  induction items with
  | nil => exact Pass.keeps_refl _
  | cons item rest ih =>
      obtain ⟨head, tail⟩ := List.forall_mem_cons.mp keeps
      apply Pass.keeps_checked head Resolved.toListed
      intro value
      exact Pass.keeps_bind (ih tail) fun values => Pass.keeps_refl _

/-- A literal below a minus sign is read without a look at the schema. -/
theorem negate_keeps (operand : Node) (keeps : operand.Keeps scope larger) :
    (negate operand).Keeps scope larger := by
  unfold Keeps
  by_cases read : ∃ kind raw, operand = .literal kind raw
  · obtain ⟨kind, raw, rfl⟩ := read
    exact Pass.keeps_refl _
  · have unread : ∀ kind raw, operand ≠ .literal kind raw :=
      fun kind raw same => read ⟨kind, raw, same⟩
    rw [resolve_negate _ operand unread, resolve_negate _ operand unread]
    exact Pass.keeps_bind keeps fun resolved => Pass.keeps_refl _

theorem equality_keeps (op : Equality) (left right : Node) (leftKeeps : left.Keeps scope larger)
    (rightKeeps : right.Keeps scope larger) : (equality op left right).Keeps scope larger := by
  unfold Keeps
  by_cases bare : right = .null
  · subst bare
    exact Pass.keeps_checked leftKeeps Resolved.toOperand fun _ => Pass.keeps_refl _
  · rw [resolve_equality _ op left right bare, resolve_equality _ op left right bare]
    apply Pass.keeps_checked leftKeeps Resolved.toOperand
    intro before
    exact Pass.keeps_checked rightKeeps Resolved.toOperand fun _ => Pass.keeps_refl _

theorem call_keeps (name : String) (arguments : List Node)
    (keeps : ∀ argument ∈ arguments, argument.Keeps scope larger) :
    (call name arguments).Keeps scope larger := by
  unfold Keeps resolve
  split
  · split
    · rename_i ra dec radius
      apply Pass.keeps_checked (keeps ra (by simp)) (Resolved.toConeArgument .ra)
      intro raNumber
      apply Pass.keeps_checked (keeps dec (by simp)) (Resolved.toConeArgument .dec)
      intro decNumber
      apply Pass.keeps_checked (keeps radius (by simp)) (Resolved.toConeArgument .radius)
      intro radiusNumber
      exact Pass.keeps_refl _
    · exact Pass.keeps_refl _
  · exact Pass.keeps_refl _

theorem resolve_keeps (grown : larger.Extends scope.catalog) (node : Node) :
    node.Keeps scope larger := by
  induction node with
  | column path =>
      exact Pass.keeps_bind (Pass.keeps_column scope grown path) fun _ => Pass.keeps_refl _
  | negate operand keeps => exact negate_keeps operand keeps
  | not condition keeps =>
      exact Pass.keeps_checked keeps Resolved.toPredicate fun _ => Pass.keeps_refl _
  | nested inner keeps => exact keeps
  | connect op left right leftKeeps rightKeeps =>
      apply Pass.keeps_checked leftKeeps Resolved.toPredicate
      intro before
      exact Pass.keeps_checked rightKeeps Resolved.toPredicate fun _ => Pass.keeps_refl _
  | equality op left right leftKeeps rightKeeps =>
      exact equality_keeps op left right leftKeeps rightKeeps
  | relate op left right leftKeeps rightKeeps =>
      apply Pass.keeps_checked leftKeeps Resolved.toOperand
      intro before
      exact Pass.keeps_checked rightKeeps Resolved.toOperand fun _ => Pass.keeps_refl _
  | arithmetic op left right leftKeeps rightKeeps =>
      apply Pass.keeps_checked leftKeeps Resolved.toOperand
      intro before
      exact Pass.keeps_checked rightKeeps Resolved.toOperand fun _ => Pass.keeps_refl _
  | between subject low high subjectKeeps lowKeeps highKeeps =>
      apply Pass.keeps_checked subjectKeeps Resolved.toOperand
      intro operand
      apply Pass.keeps_checked lowKeeps Resolved.toOperand
      intro least
      exact Pass.keeps_checked highKeeps Resolved.toOperand fun _ => Pass.keeps_refl _
  | member subject items subjectKeeps itemsKeep =>
      apply Pass.keeps_checked subjectKeeps Resolved.toOperand
      intro operand
      exact Pass.keeps_bind (resolveItems_keeps items itemsKeep) fun _ => Pass.keeps_refl _
  | call name arguments keeps => exact call_keeps name arguments keeps
  | literal kind raw => exact Pass.keeps_refl _
  | quoted path => exact Pass.keeps_refl _
  | null => exact Pass.keeps_refl _
  | unsupported text => exact Pass.keeps_refl _

end Node

namespace Scope

/-- What a tree resolves to over a catalog it resolves to over every larger one, and only a
missing field may turn up there. -/
theorem growth_keeps_outcomes (scope : Scope) (larger : Catalog)
    (grown : larger.Extends scope.catalog) (node : Node) :
    match scope.resolve node with
    | (.ok resolution, events) =>
        (scope.withCatalog larger).resolve node = (.ok resolution, events)
    | (.error failure, events) => failure.kind ≠ .unknownField →
        (scope.withCatalog larger).resolve node = (.error failure, events) := by
  have keeps := node.resolve_keeps grown {}
  unfold resolve
  unfold Pass.runFrom at keeps
  generalize (node.resolve scope).run.run {} = outcome at keeps ⊢
  rcases outcome with ⟨failure | value, after⟩
  · intro other
    rw [keeps ((settled_error failure).mpr other)]
    rfl
  · rw [keeps (settled_ok value)]
    rfl

end Scope

/-! A schema with one more model and a relation to it. The field that it adds is missed before. -/

def widerModels : List Model :=
  [{ name := "Star", fields := [⟨"host", .relation "Galaxy"⟩, ⟨"mag", .float⟩, ⟨"cone", .text⟩] },
    { name := "Galaxy", fields := [⟨"name", .text⟩] }]

def widerSchema : Registry := { models := Registry.arrange [] widerModels }

def hostlessStars : Node :=
  .connect .and (.equality .equal (.column ["cone"]) (.quoted ["M31"])) (.call "host" [])

theorem wider_stars_keep_outcomes :
    widerSchema.catalog.Extends starScope.catalog ∧
    (starScope.withCatalog widerSchema.catalog).resolve twoCones = starScope.resolve twoCones ∧
    (starScope.resolve hostlessStars).1 =
      .error (.misuse (.noCounterpart (Node.call "host" []).label)) ∧
    (starScope.withCatalog widerSchema.catalog).resolve hostlessStars =
      starScope.resolve hostlessStars ∧
    (starScope.resolve (.column ["host", "name"])).1 = .error (.unknownField "host") ∧
    ((starScope.withCatalog widerSchema.catalog).resolve (.column ["host", "name"])).1 =
      .ok { value := .operand (.field "host__name"), extra := {} } := by
  have built : Registry.ofModels starSchema.models = .ok starSchema := rfl
  have widened : Registry.ofModels widerModels = .ok widerSchema := rfl
  have grown : widerSchema.catalog.Extends starScope.catalog := by
    apply Registry.catalog_extends built widened
    rintro model field ⟨entity, member, rfl, inside⟩
    obtain rfl : entity = _ := List.mem_singleton.mp member
    exact ⟨_, List.mem_cons_self, rfl, List.mem_cons_of_mem _ inside⟩
  have accepted := starScope.growth_keeps_outcomes widerSchema.catalog grown twoCones
  have refused := starScope.growth_keeps_outcomes widerSchema.catalog grown hostlessStars
  exact ⟨grown, accepted, rfl, refused (by decide), rfl, rfl⟩

end ConeFilter
