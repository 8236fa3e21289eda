/-!
Dictionaries keyed by text. The entries stand in strictly increasing order of
their keys, so two dictionaries with the same answers are the same list and
the order in which keys were inserted leaves no trace.
-/
namespace ConeFilter

variable {α : Type}

def insertEntry (key : String) (value : α) : List (String × α) → List (String × α)
  | [] => [(key, value)]
  | (other, kept) :: rest =>
      if key < other then (key, value) :: (other, kept) :: rest
      else if key = other then (key, value) :: rest
      else (other, kept) :: insertEntry key value rest

def SortedKeys (entries : List (String × α)) : Prop :=
  entries.Pairwise fun first second => first.1 < second.1

theorem sortedKeys_nil : SortedKeys ([] : List (String × α)) := List.Pairwise.nil

theorem mem_insertEntry_key (key : String) (value : α) (entries : List (String × α))
    (entry : String × α) (found : entry ∈ insertEntry key value entries) :
    entry.1 = key ∨ entry ∈ entries := by
  induction entries with
  | nil => simp_all [insertEntry]
  | cons head rest ih =>
    unfold insertEntry at found
    split at found
    · rcases List.mem_cons.mp found with same | old
      · exact .inl (by rw [same])
      · exact .inr old
    · split at found
      · rcases List.mem_cons.mp found with same | old
        · exact .inl (by rw [same])
        · exact .inr (List.mem_cons_of_mem _ old)
      · rcases List.mem_cons.mp found with same | later
        · exact .inr (by rw [same]; exact List.mem_cons_self)
        · rcases ih later with fresh | old
          · exact .inl fresh
          · exact .inr (List.mem_cons_of_mem _ old)

theorem sortedKeys_insertEntry (key : String) (value : α) (entries : List (String × α))
    (sorted : SortedKeys entries) : SortedKeys (insertEntry key value entries) := by
  induction entries with
  | nil => simp [insertEntry, SortedKeys]
  | cons head rest ih =>
    obtain ⟨later, tail⟩ := List.pairwise_cons.mp sorted
    unfold insertEntry
    split
    · rename_i before
      refine List.pairwise_cons.mpr ⟨fun entry found => ?_, sorted⟩
      rcases List.mem_cons.mp found with same | old
      · rw [same]; exact before
      · exact String.lt_trans before (later entry old)
    · rename_i notBefore
      split
      · rename_i same
        exact List.pairwise_cons.mpr ⟨fun entry old => by rw [same]; exact later entry old, tail⟩
      · rename_i different
        refine List.pairwise_cons.mpr ⟨fun entry found => ?_, ih tail⟩
        rcases mem_insertEntry_key key value rest entry found with fresh | old
        · rw [fresh]
          rcases Std.lt_trichotomy head.1 key with smaller | same | larger
          · exact smaller
          · exact absurd same.symm different
          · exact absurd larger notBefore
        · exact later entry old

/-! What stands under a key. Behind an entry all keys are larger than its own. -/

def entryAt (entries : List (String × α)) (key : String) : Option α :=
  (entries.find? fun entry => entry.1 == key).map (·.2)

theorem entryAt_cons (head : String × α) (rest : List (String × α)) (key : String) :
    entryAt (head :: rest) key = if head.1 = key then some head.2 else entryAt rest key := by
  by_cases same : head.1 = key <;> simp [entryAt, same]

theorem entryAt_of_lt (entries : List (String × α)) (key : String)
    (smaller : ∀ entry ∈ entries, key < entry.1) : entryAt entries key = none := by
  rw [entryAt, Option.map_eq_none_iff, List.find?_eq_none]
  intro entry stands same
  have less := smaller entry stands
  rw [beq_iff_eq.mp same] at less
  exact String.lt_irrefl key less

theorem entryAt_insertEntry (key : String) (value : α) (entries : List (String × α))
    (other : String) : entryAt (insertEntry key value entries) other =
      if key = other then some value else entryAt entries other := by
  induction entries with
  | nil => simp [insertEntry, entryAt_cons]
  | cons head rest ih =>
    unfold insertEntry
    split
    · rw [entryAt_cons]
    · split
      · rename_i same
        rw [entryAt_cons, entryAt_cons, ← same]
        split <;> rfl
      · rename_i different
        rw [entryAt_cons, entryAt_cons, ih]
        by_cases found : head.1 = other
        · have absent : key ≠ other := fun same => different (same.trans found.symm)
          simp [found, absent]
        · simp [found]

theorem entryAt_eq_some_iff (entries : List (String × α)) (sorted : SortedKeys entries)
    (key : String) (value : α) : entryAt entries key = some value ↔ (key, value) ∈ entries := by
  induction entries with
  | nil => simp [entryAt]
  | cons head rest ih =>
    obtain ⟨later, tail⟩ := List.pairwise_cons.mp sorted
    rw [entryAt_cons, List.mem_cons]
    by_cases found : head.1 = key
    · rw [if_pos found]
      constructor
      · intro same
        exact .inl (Prod.ext found.symm (Option.some.inj same).symm)
      · rintro (same | stands)
        · rw [← same]
        · exact absurd (found ▸ later (key, value) stands) (String.lt_irrefl key)
    · have other : (key, value) ≠ head := fun same => found (same ▸ rfl)
      simp [found, other, ih tail]

/-- Sorted entries are the same list when they answer the same. -/
theorem eq_of_entryAt (left right : List (String × α)) (leftSorted : SortedKeys left)
    (rightSorted : SortedKeys right) (same : ∀ key, entryAt left key = entryAt right key) :
    left = right := by
  induction left generalizing right with
  | nil =>
    cases right with
    | nil => rfl
    | cons head rest =>
      have found := same head.1
      simp [entryAt] at found
  | cons head rest ih =>
    cases right with
    | nil =>
      have found := same head.1
      simp [entryAt] at found
    | cons first others =>
      obtain ⟨later, restSorted⟩ := List.pairwise_cons.mp leftSorted
      obtain ⟨further, othersSorted⟩ := List.pairwise_cons.mp rightSorted
      have heads : head.1 = first.1 := by
        rcases Std.lt_trichotomy head.1 first.1 with smaller | equal | larger
        · have absent := entryAt_of_lt (first :: others) head.1 (List.forall_mem_cons.mpr
            ⟨smaller, fun entry stands => String.lt_trans smaller (further entry stands)⟩)
          rw [← same, entryAt_cons, if_pos rfl] at absent
          cases absent
        · exact equal
        · have absent := entryAt_of_lt (head :: rest) first.1 (List.forall_mem_cons.mpr
            ⟨larger, fun entry stands => String.lt_trans larger (later entry stands)⟩)
          rw [same, entryAt_cons, if_pos rfl] at absent
          cases absent
      have values : head.2 = first.2 := by
        have found := same head.1
        rw [entryAt_cons, entryAt_cons, if_pos rfl, if_pos heads.symm] at found
        exact Option.some.inj found
      have tails : rest = others := by
        refine ih others restSorted othersSorted fun key => ?_
        by_cases at_head : head.1 = key
        · rw [← at_head, entryAt_of_lt rest head.1 later, heads,
            entryAt_of_lt others first.1 further]
        · have found := same key
          rwa [entryAt_cons, entryAt_cons, if_neg at_head, if_neg (heads ▸ at_head)] at found
      rw [tails, Prod.ext heads values]

structure Dictionary (α : Type) where
  entries : List (String × α) := []
  sorted : SortedKeys entries := by exact sortedKeys_nil

namespace Dictionary

def empty : Dictionary α := {}

def isEmpty (dictionary : Dictionary α) : Bool := dictionary.entries.isEmpty

/-- A key that is there already gets the new value. -/
def insert (key : String) (value : α) (dictionary : Dictionary α) : Dictionary α :=
  { entries := insertEntry key value dictionary.entries
    sorted := sortedKeys_insertEntry key value dictionary.entries dictionary.sorted }

def get? (dictionary : Dictionary α) (key : String) : Option α :=
  entryAt dictionary.entries key

theorem get?_insert (key : String) (value : α) (dictionary : Dictionary α) (other : String) :
    (dictionary.insert key value).get? other =
      if key = other then some value else dictionary.get? other :=
  entryAt_insertEntry key value dictionary.entries other

theorem get?_eq_some_iff (dictionary : Dictionary α) (key : String) (value : α) :
    dictionary.get? key = some value ↔ (key, value) ∈ dictionary.entries :=
  entryAt_eq_some_iff dictionary.entries dictionary.sorted key value

theorem nodup_keys (dictionary : Dictionary α) : (dictionary.entries.map (·.1)).Nodup :=
  List.pairwise_map.mpr (dictionary.sorted.imp String.ne_of_lt)

theorem ext_get? {left right : Dictionary α} (same : ∀ key, left.get? key = right.get? key) :
    left = right := by
  obtain ⟨entries, sorted⟩ := left
  obtain ⟨others, alsoSorted⟩ := right
  obtain rfl : entries = others := eq_of_entryAt entries others sorted alsoSorted same
  rfl

/-- Of two entries with one key the later one stays. -/
def ofList (entries : List (String × α)) : Dictionary α :=
  entries.foldl (fun dictionary entry => dictionary.insert entry.1 entry.2) empty

theorem get?_foldl_insert (entries : List (String × α)) (sorted : SortedKeys entries)
    (start : Dictionary α) (key : String) :
    (entries.foldl (fun dictionary entry => dictionary.insert entry.1 entry.2) start).get? key =
      (entryAt entries key).or (start.get? key) := by
  induction entries generalizing start with
  | nil => rfl
  | cons head rest ih =>
    obtain ⟨later, tail⟩ := List.pairwise_cons.mp sorted
    rw [List.foldl_cons, ih tail, get?_insert, entryAt_cons]
    by_cases found : head.1 = key
    · rw [if_pos found, if_pos found, entryAt_of_lt rest key (found ▸ later)]
      rfl
    · rw [if_neg found, if_neg found]

theorem ofList_entries (dictionary : Dictionary α) : ofList dictionary.entries = dictionary := by
  refine ext_get? fun key => ?_
  rw [ofList, get?_foldl_insert _ dictionary.sorted]
  exact Option.or_none

instance : Inhabited (Dictionary α) := ⟨empty⟩

instance [BEq α] : BEq (Dictionary α) := ⟨fun left right => left.entries == right.entries⟩

end Dictionary

end ConeFilter
