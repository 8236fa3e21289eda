import ConeFilter.Resolution.Path
import Mathlib.Data.List.Infix

/-!
Flattened paths. The name of a path joins its segments with two underscores, so
it can be taken apart again only if no segment imitates the join. A segment
holding two underscores does, and so do a last and a first underscore that meet
at a join. Without such segments different paths have different names, however
the relations of the schema run.
-/
namespace ConeFilter

namespace Scope

def separator : List Char := ['_', '_']

def joined (segments : List (List Char)) : List Char := separator.intercalate segments

theorem flatten_toList (path : List String) :
    (flatten path).toList = joined (path.map String.toList) := by
  simp [flatten, joined, separator]

/-- What follows the first segment of a join. -/
def following : List (List Char) → List Char
  | [] => []
  | segment :: rest => separator ++ joined (segment :: rest)

theorem joined_cons (segment : List Char) (rest : List (List Char)) :
    joined (segment :: rest) = segment ++ following rest := by
  cases rest <;> simp [joined, following]

/-! Reading from the left. In a closed segment another character follows every
underscore, so the first two underscores in a row are the first join. -/

def Closed (segment : List Char) : Prop :=
  ∀ before after, segment = before ++ '_' :: after → ∃ c rest, after = c :: rest ∧ c ≠ '_'

theorem Closed.tail {c : Char} {segment : List Char} (closed : Closed (c :: segment)) :
    Closed segment := by
  intro before after split
  exact closed (c :: before) after (by rw [split, List.cons_append])

theorem closed_of_unbroken (segment : List Char) (unbroken : ¬ separator <:+: segment)
    (shut : segment.getLast? ≠ some '_') : Closed segment := by
  rintro before after rfl
  cases after with
  | nil => exact absurd (by simp) shut
  | cons c rest =>
      refine ⟨c, rest, rfl, ?_⟩
      rintro rfl
      exact unbroken ⟨before, rest, by simp [separator]⟩

theorem closed_reverse (segment : List Char) (unbroken : ¬ separator <:+: segment)
    (unopened : segment.head? ≠ some '_') : Closed segment.reverse := by
  apply closed_of_unbroken
  · rwa [← List.reverse_infix, List.reverse_reverse]
  · rwa [List.getLast?_reverse]

/-- The end of a join, or the next join. -/
def Border (text : List Char) : Prop := text = [] ∨ ∃ rest, text = '_' :: '_' :: rest

theorem border_following (segments : List (List Char)) : Border (following segments) := by
  cases segments with
  | nil => exact .inl rfl
  | cons segment rest => exact .inr ⟨joined (segment :: rest), rfl⟩

theorem Closed.not_border {segment : List Char} (closed : Closed segment)
    (present : segment ≠ []) (text : List Char) : ¬ Border (segment ++ text) := by
  rintro (empty | ⟨rest, opened⟩)
  · exact present (List.append_eq_nil_iff.mp empty).1
  · cases segment with
    | nil => exact present rfl
    | cons c segment =>
        simp only [List.cons_append, List.cons.injEq] at opened
        obtain ⟨rfl, second⟩ := opened
        obtain ⟨d, more, rfl, different⟩ := closed [] segment rfl
        simp only [List.cons_append, List.cons.injEq] at second
        exact different second.1

theorem cut_unique (first second rest others : List Char) (firstClosed : Closed first)
    (secondClosed : Closed second) (border : Border rest) (otherBorder : Border others)
    (same : first ++ rest = second ++ others) : first = second ∧ rest = others := by
  -- If one segment ends before the other, the longer one goes on where a join should be.
  induction first generalizing second with
  | nil =>
      by_cases empty : second = []
      · subst empty
        exact ⟨rfl, same⟩
      · rw [List.nil_append] at same
        rw [same] at border
        exact absurd border (secondClosed.not_border empty others)
  | cons c first ih =>
      cases second with
      | nil =>
          rw [List.nil_append] at same
          rw [← same] at otherBorder
          exact absurd otherBorder (firstClosed.not_border (by simp) rest)
      | cons d second =>
          simp only [List.cons_append, List.cons.injEq] at same
          obtain ⟨rfl, same⟩ := same
          obtain ⟨rfl, remaining⟩ := ih second firstClosed.tail secondClosed.tail same
          exact ⟨rfl, remaining⟩

theorem joined_injective (first second : List (List Char)) (firstPresent : first ≠ [])
    (secondPresent : second ≠ []) (firstClosed : ∀ segment ∈ first, Closed segment)
    (secondClosed : ∀ segment ∈ second, Closed segment) (same : joined first = joined second) :
    first = second := by
  induction first generalizing second with
  | nil => exact absurd rfl firstPresent
  | cons segment rest ih =>
      cases second with
      | nil => exact absurd rfl secondPresent
      | cons other others =>
          rw [joined_cons, joined_cons] at same
          obtain ⟨rfl, remaining⟩ := cut_unique _ _ _ _
            (firstClosed segment List.mem_cons_self) (secondClosed other List.mem_cons_self)
            (border_following rest) (border_following others) same
          cases rest with
          | nil =>
              cases others with
              | nil => rfl
              | cons _ _ => cases remaining
          | cons next rest =>
              cases others with
              | nil => cases remaining
              | cons _ _ =>
                  have tails := ih _ (by simp) (by simp)
                    (fun s member => firstClosed s (List.mem_cons_of_mem _ member))
                    (fun s member => secondClosed s (List.mem_cons_of_mem _ member))
                    (List.append_cancel_left remaining)
                  rw [tails]

/-! Reading from the right is reading the mirror image from the left, because the
separator is its own mirror image. -/

def mirror (segments : List (List Char)) : List (List Char) :=
  (segments.map List.reverse).reverse

theorem joined_append (segments : List (List Char)) (last : List Char)
    (present : segments ≠ []) :
    joined (segments ++ [last]) = joined segments ++ separator ++ last := by
  induction segments with
  | nil => exact absurd rfl present
  | cons segment rest ih =>
      cases rest with
      | nil => simp [joined]
      | cons next rest =>
          rw [List.cons_append, joined_cons, joined_cons]
          have tails := ih (by simp)
          simp only [List.cons_append] at tails
          simp [following, tails]

theorem joined_mirror (segments : List (List Char)) :
    joined (mirror segments) = (joined segments).reverse := by
  induction segments with
  | nil => rfl
  | cons segment rest ih =>
      cases rest with
      | nil => simp [mirror, joined]
      | cons next rest =>
          have split : mirror (segment :: next :: rest) =
              mirror (next :: rest) ++ [segment.reverse] := by simp [mirror]
          rw [split, joined_append _ _ (by simp [mirror]), ih, joined_cons segment]
          simp [following, separator]

theorem mem_mirror (segments : List (List Char)) (image : List Char)
    (member : image ∈ mirror segments) : ∃ segment ∈ segments, image = segment.reverse := by
  obtain ⟨segment, inside, rfl⟩ := List.mem_map.mp (List.mem_reverse.mp member)
  exact ⟨segment, inside, rfl⟩

theorem mirror_injective (first second : List (List Char)) (same : mirror first = mirror second) :
    first = second := by
  have images := List.reverse_injective same
  exact List.map_injective_iff.mpr List.reverse_injective images

/-- No segment holds the separator, and no join can shift by an underscore. -/
structure Separable (segments : List String) : Prop where
  unbroken : ∀ segment ∈ segments, ¬ separator <:+: segment.toList
  shut : (∀ segment ∈ segments, segment.toList.getLast? ≠ some '_') ∨
    (∀ segment ∈ segments, segment.toList.head? ≠ some '_')

theorem closed_path (path : List String)
    (unbroken : ∀ segment ∈ path, ¬ separator <:+: segment.toList)
    (shut : ∀ segment ∈ path, segment.toList.getLast? ≠ some '_') :
    ∀ segment ∈ path.map String.toList, Closed segment := by
  intro segment member
  obtain ⟨name, inside, rfl⟩ := List.mem_map.mp member
  exact closed_of_unbroken _ (unbroken name inside) (shut name inside)

theorem closed_mirror (path : List String)
    (unbroken : ∀ segment ∈ path, ¬ separator <:+: segment.toList)
    (unopened : ∀ segment ∈ path, segment.toList.head? ≠ some '_') :
    ∀ image ∈ mirror (path.map String.toList), Closed image := by
  intro image member
  obtain ⟨segment, inside, rfl⟩ := mem_mirror _ image member
  obtain ⟨name, inPath, rfl⟩ := List.mem_map.mp inside
  exact closed_reverse _ (unbroken name inPath) (unopened name inPath)

theorem flatten_cancel (first second : List String) (firstPresent : first ≠ [])
    (secondPresent : second ≠ []) (separable : Separable (first ++ second))
    (sameName : flatten first = flatten second) : first = second := by
  have same : joined (first.map String.toList) = joined (second.map String.toList) := by
    rw [← flatten_toList, ← flatten_toList, sameName]
  obtain ⟨unbroken, shut⟩ := separable
  simp only [List.forall_mem_append] at unbroken shut
  have segments : first.map String.toList = second.map String.toList := by
    rcases shut with ⟨firstShut, secondShut⟩ | ⟨firstUnopened, secondUnopened⟩
    · exact joined_injective _ _ (by simpa using firstPresent) (by simpa using secondPresent)
        (closed_path first unbroken.1 firstShut) (closed_path second unbroken.2 secondShut) same
    · apply mirror_injective
      apply joined_injective _ _ (by simpa [mirror] using firstPresent)
        (by simpa [mirror] using secondPresent)
        (closed_mirror first unbroken.1 firstUnopened)
        (closed_mirror second unbroken.2 secondUnopened)
      rw [joined_mirror, joined_mirror, same]
  exact List.map_injective_iff.mpr (fun _ _ => String.toList_injective) segments

theorem walk_ne_nil (catalog : Catalog) (model : String) (path : List String)
    (walked : walk catalog model path = .ok ()) : path ≠ [] := by
  rintro rfl
  cases walked

theorem column_ok (scope : Scope) (path : List String) (name : String) :
    (scope.column path).1 = .ok name ↔
      walk scope.catalog scope.model path = .ok () ∧ name = flatten path := by
  unfold column
  cases walk scope.catalog scope.model path <;> simp [eq_comm]

end Scope

namespace Registry

def ambiguousSchema : Registry :=
  { models := [{ name := "Object", fields := [⟨"host", .relation "Object"⟩, ⟨"name", .text⟩,
      ⟨"host__name", .text⟩, ⟨"host_", .relation "Object"⟩, ⟨"_name", .text⟩] }] }

def ambiguousScope : Scope := { catalog := ambiguousSchema.catalog, model := "Object" }

/-- A name that holds the separator passes for a path, and an underscore at a join can belong to
either side of it. -/
theorem flatten_ambiguous :
    ofModels ambiguousSchema.models = .ok ambiguousSchema ∧
    (ambiguousScope.column ["host", "name"]).1 = .ok "host__name" ∧
    (ambiguousScope.column ["host__name"]).1 = .ok "host__name" ∧
    (ambiguousScope.column ["host_", "name"]).1 = .ok "host___name" ∧
    (ambiguousScope.column ["host", "_name"]).1 = .ok "host___name" :=
  ⟨rfl, rfl, rfl, rfl, rfl⟩

/-- Different paths have different names if their segments can be told apart in a join. -/
theorem flatten_injective (registry : Registry) (model firstName secondName : String)
    (first second : List String) (separable : Scope.Separable (first ++ second))
    (firstFound : (Scope.column { catalog := registry.catalog, model } first).1 = .ok firstName)
    (secondFound : (Scope.column { catalog := registry.catalog, model } second).1 = .ok secondName)
    (different : first ≠ second) : firstName ≠ secondName := by
  obtain ⟨firstWalked, rfl⟩ := (Scope.column_ok _ _ _).mp firstFound
  obtain ⟨secondWalked, rfl⟩ := (Scope.column_ok _ _ _).mp secondFound
  intro same
  exact different (Scope.flatten_cancel first second (Scope.walk_ne_nil _ _ _ firstWalked)
    (Scope.walk_ne_nil _ _ _ secondWalked) separable same)

def cyclicSchema : Registry :=
  { models := [
      { name := "Galaxy", fields := [⟨"member_", .relation "Object"⟩, ⟨"name_", .text⟩] },
      { name := "Object", fields := [⟨"host", .relation "Galaxy"⟩, ⟨"name", .text⟩] }] }

def cyclicScope : Scope := { catalog := cyclicSchema.catalog, model := "Object" }

theorem flatten_injective_cycle :
    Scope.Separable (["host", "name_"] ++ ["host", "member_", "host", "name_"]) ∧
    (cyclicScope.column ["host", "name_"]).1 = .ok "host__name_" ∧
    (cyclicScope.column ["host", "member_", "host", "name_"]).1 =
      .ok "host__member___host__name_" ∧
    ["host", "name_"] ≠ ["host", "member_", "host", "name_"] ∧
    "host__name_" ≠ "host__member___host__name_" := by
  have separable : Scope.Separable (["host", "name_"] ++ ["host", "member_", "host", "name_"]) :=
    ⟨by decide, .inr (by decide)⟩
  have direct : (cyclicScope.column ["host", "name_"]).1 = .ok "host__name_" := rfl
  have around : (cyclicScope.column ["host", "member_", "host", "name_"]).1 =
    .ok "host__member___host__name_" := rfl
  have different : ["host", "name_"] ≠ ["host", "member_", "host", "name_"] := by decide
  exact ⟨separable, direct, around, different,
    flatten_injective cyclicSchema "Object" _ _ _ _ separable direct around different⟩

end Registry

end ConeFilter
