import ConeFilter.Metrics
import Mathlib.Algebra.BigOperators.Group.List.Lemmas
import Mathlib.Algebra.Order.Ring.Nat

/-!
What the counters say about the events they have seen. A report is told in closed
form by its events: every counter is the number of events of its sort, cut off at
the largest word, and a name has as much as there were events that name it. The
order of the events leaves no trace in a report.
-/
namespace ConeFilter

/-! Sorts of events, and the names they are counted under. -/

namespace Event

def isStart : Event → Bool
  | .started _ => true
  | _ => false

def isFinish : Event → Bool
  | .finished _ _ => true
  | _ => false

def isFailure : Event → Bool
  | .failed _ _ => true
  | _ => false

def isField : Event → Bool
  | .fieldResolved _ => true
  | _ => false

def isCone : Event → Bool
  | .coneRecorded _ => true
  | _ => false

/-- The relations that were followed to reach a column. -/
def hops : Event → Nat
  | .fieldResolved depth => depth
  | _ => 0

def startedModel? : Event → Option String
  | .started model => some model
  | _ => none

def failureName? : Event → Option String
  | .failed _ kind => some kind.name
  | _ => none

/-- Every pass that was started has ended, in one way or the other. -/
def Balanced (events : List Event) : Prop :=
  events.countP isStart = events.countP isFinish + events.countP isFailure

theorem Balanced.append {events more : List Event} (first : Balanced events)
    (second : Balanced more) : Balanced (events ++ more) := by
  unfold Balanced at *
  simp only [List.countP_append]
  omega

theorem length_models (events : List Event) :
    (events.filterMap startedModel?).length = events.countP isStart := by
  rw [List.length_filterMap_eq_countP]
  exact List.countP_congr fun event _ => by cases event <;> simp [startedModel?, isStart]

theorem length_failures (events : List Event) :
    (events.filterMap failureName?).length = events.countP isFailure := by
  rw [List.length_filterMap_eq_countP]
  exact List.countP_congr fun event _ => by cases event <;> simp [failureName?, isFailure]

end Event

/-! Names and how often they were counted. -/

/-- Cutting off along the way comes to the same as cutting off at the end. -/
theorem plus_capped (count amount : Nat) :
    plus (min countLimit count) amount = min countLimit (count + amount) := by
  unfold plus
  omega

/-- What a dictionary of counts has under a name when `names` were counted. -/
def tally (names : List String) (name : String) : Option Nat :=
  if name ∈ names then some (min countLimit (names.count name)) else none

theorem tally_append (names : List String) (key name : String) :
    tally (names ++ [key]) name =
      if key = name then some (plus ((tally names key).getD 0) 1) else tally names name := by
  by_cases same : key = name
  · subst same
    have before : (tally names key).getD 0 = min countLimit (names.count key) := by
      by_cases present : key ∈ names
      · simp [tally, present]
      · simp [tally, present, List.count_eq_zero_of_not_mem present]
    rw [before, plus_capped, if_pos rfl]
    simp [tally, List.count_append]
  · have other : name ≠ key := fun equal => same equal.symm
    simp [tally, List.count_append, same, other]

namespace Dictionary

def Tallies (counts : Dictionary Nat) (names : List String) : Prop :=
  ∀ name, counts.get? name = tally names name

def total (counts : Dictionary Nat) : Nat := (counts.entries.map (·.2)).sum

theorem tallies_count {counts : Dictionary Nat} {names : List String}
    (told : counts.Tallies names) (key : String) :
    (counts.count key).Tallies (names ++ [key]) := by
  intro name
  rw [count, get?_insert, told key, told name, tally_append]

variable {counts : Dictionary Nat} {names : List String}

theorem Tallies.entry (told : counts.Tallies names) (entry : String × Nat)
    (stands : entry ∈ counts.entries) :
    entry.1 ∈ names ∧ entry.2 = min countLimit (names.count entry.1) := by
  have found := told entry.1
  rw [(get?_eq_some_iff counts entry.1 entry.2).mpr stands, tally] at found
  split at found
  · exact ⟨‹_›, Option.some.inj found⟩
  · cases found

theorem Tallies.positive (told : counts.Tallies names) (entry : String × Nat)
    (stands : entry ∈ counts.entries) : 0 < entry.2 := by
  obtain ⟨present, counted⟩ := told.entry entry stands
  have often := List.count_pos_iff.mpr present
  rw [counted]
  exact lt_min (by decide) often

theorem Tallies.mem_keys (told : counts.Tallies names) (name : String) :
    name ∈ counts.entries.map (·.1) ↔ name ∈ names := by
  constructor
  · intro listed
    obtain ⟨entry, stands, rfl⟩ := List.mem_map.mp listed
    exact (told.entry entry stands).1
  · intro present
    have found := told name
    rw [tally, if_pos present, get?_eq_some_iff] at found
    exact List.mem_map_of_mem found

theorem Tallies.perm {others : List String} (told : counts.Tallies names)
    (reordered : names.Perm others) : counts.Tallies others := fun name => by
  rw [told name, tally, tally, reordered.count_eq]
  simp only [reordered.mem_iff]

/-- Below the limit nothing was cut off, and every name was counted under some key. -/
theorem Tallies.total (told : counts.Tallies names) (few : names.length ≤ countLimit) :
    counts.total = names.length := by
  have values : counts.entries.map (·.2) =
      (counts.entries.map (·.1)).map fun name => names.count name := by
    rw [List.map_map]
    refine List.map_congr_left fun entry stands => ?_
    rw [(told.entry entry stands).2]
    exact min_eq_right (List.count_le_length.trans few)
  have keys : (counts.entries.map (·.1)).Perm names.dedup :=
    (List.perm_ext_iff_of_nodup counts.nodup_keys names.nodup_dedup).mpr fun name => by
      rw [told.mem_keys, List.mem_dedup]
  calc counts.total
      = ((counts.entries.map (·.1)).map fun name => names.count name).sum := by
        rw [Dictionary.total, values]
    _ = (names.dedup.map fun name => names.count name).sum := (keys.map _).sum_eq
    _ = names.length := List.sum_map_count_dedup_eq_length names

end Dictionary

namespace Report

structure Tallies (report : Report) (events : List Event) : Prop where
  calls : report.counters.calls = min countLimit (events.countP Event.isStart)
  succeeded : report.counters.succeeded = min countLimit (events.countP Event.isFinish)
  failed : report.counters.failed = min countLimit (events.countP Event.isFailure)
  fields : report.counters.fields = min countLimit (events.countP Event.isField)
  hops : report.counters.hops = min countLimit (events.map Event.hops).sum
  cones : report.counters.cones = min countLimit (events.countP Event.isCone)
  failures : report.counters.failures.Tallies (events.filterMap Event.failureName?)
  models : report.models.Tallies (events.filterMap Event.startedModel?)

def ofEvents (events : List Event) : Report := events.foldl record {}

variable {report other : Report} {events : List Event}

theorem Tallies.record (told : report.Tallies events) (event : Event) :
    (report.record event).Tallies (events ++ [event]) where
  calls := by
    cases event <;> simp [Report.record, told.calls, plus_capped, List.countP_append, Event.isStart]
  succeeded := by
    cases event <;>
      simp [Report.record, told.succeeded, plus_capped, List.countP_append, Event.isFinish]
  failed := by
    cases event <;>
      simp [Report.record, told.failed, plus_capped, List.countP_append, Event.isFailure]
  fields := by
    cases event <;>
      simp [Report.record, told.fields, plus_capped, List.countP_append, Event.isField]
  hops := by
    cases event <;> simp [Report.record, told.hops, plus_capped, Event.hops]
  cones := by
    cases event <;> simp [Report.record, told.cones, plus_capped, List.countP_append, Event.isCone]
  failures := by
    rw [List.filterMap_append]
    cases event with
    | failed model kind => exact Dictionary.tallies_count told.failures kind.name
    | _ =>
        change report.counters.failures.Tallies (_ ++ [])
        rw [List.append_nil]
        exact told.failures
  models := by
    rw [List.filterMap_append]
    cases event with
    | started model => exact Dictionary.tallies_count told.models model
    | _ =>
        change report.models.Tallies (_ ++ [])
        rw [List.append_nil]
        exact told.models

theorem Tallies.recordAll (told : report.Tallies events) (more : List Event) :
    (more.foldl Report.record report).Tallies (events ++ more) := by
  induction more generalizing report events with
  | nil => rwa [List.append_nil]
  | cons event rest ih =>
      rw [List.append_cons]
      exact ih (told.record event)

theorem tallies_nothing : ({} : Report).Tallies [] := by
  constructor <;> first | rfl | exact fun _ => rfl

theorem tallies_ofEvents (events : List Event) : (ofEvents events).Tallies events :=
  tallies_nothing.recordAll events

theorem Tallies.unique (told : report.Tallies events) (also : other.Tallies events) :
    report = other := by
  obtain ⟨⟨calls, succeeded, failed, fields, hops, cones, failures⟩, models⟩ := report
  obtain ⟨⟨calls', succeeded', failed', fields', hops', cones', failures'⟩, models'⟩ := other
  obtain rfl : failures = failures' :=
    Dictionary.ext_get? fun kind => (told.failures kind).trans (also.failures kind).symm
  obtain rfl : models = models' :=
    Dictionary.ext_get? fun model => (told.models model).trans (also.models model).symm
  obtain rfl : calls = calls' := told.calls.trans also.calls.symm
  obtain rfl : succeeded = succeeded' := told.succeeded.trans also.succeeded.symm
  obtain rfl : failed = failed' := told.failed.trans also.failed.symm
  obtain rfl : fields = fields' := told.fields.trans also.fields.symm
  obtain rfl : hops = hops' := told.hops.trans also.hops.symm
  obtain rfl : cones = cones' := told.cones.trans also.cones.symm
  rfl

theorem Tallies.perm {others : List Event} (told : report.Tallies events)
    (reordered : events.Perm others) : report.Tallies others where
  calls := by rw [told.calls, reordered.countP_eq]
  succeeded := by rw [told.succeeded, reordered.countP_eq]
  failed := by rw [told.failed, reordered.countP_eq]
  fields := by rw [told.fields, reordered.countP_eq]
  hops := by rw [told.hops, (reordered.map Event.hops).sum_eq]
  cones := by rw [told.cones, reordered.countP_eq]
  failures := told.failures.perm (reordered.filterMap Event.failureName?)
  models := told.models.perm (reordered.filterMap Event.startedModel?)

theorem ofEvents_perm {others : List Event} (reordered : events.Perm others) :
    ofEvents events = ofEvents others :=
  (tallies_ofEvents events).perm reordered |>.unique (tallies_ofEvents others)

/-- The counters of passes fit together when each pass that was started has ended. -/
def Balanced (report : Report) : Prop :=
  report.counters.calls = report.counters.succeeded + report.counters.failed ∧
    report.models.total = report.counters.calls ∧
    report.counters.failures.total = report.counters.failed

theorem Tallies.balanced (told : report.Tallies events) (ended : Event.Balanced events)
    (few : events.length ≤ countLimit) : report.Balanced := by
  have capped (sort : Event → Bool) : min countLimit (events.countP sort) = events.countP sort :=
    min_eq_right (List.countP_le_length.trans few)
  have namesFew {names : Event → Option String} : (events.filterMap names).length ≤ countLimit :=
    (List.length_filterMap_le names events).trans few
  refine ⟨?_, ?_, ?_⟩
  · rw [told.calls, told.succeeded, told.failed, capped, capped, capped]
    exact ended
  · rw [told.models.total namesFew, told.calls, capped, Event.length_models]
  · rw [told.failures.total namesFew, told.failed, capped, Event.length_failures]

end Report

end ConeFilter
