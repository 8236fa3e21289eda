import ConeFilter.Dictionary
import ConeFilter.Json.Basic
import ConeFilter.Resolution.Event

/-!
Counters over events. A counter stops at the largest unsigned word instead of
starting over. Failures are counted by the name of their kind and passes by
the name of their model, and a name that was never counted has no entry.
-/
namespace ConeFilter

structure Counters where
  calls : Nat := 0
  succeeded : Nat := 0
  failed : Nat := 0
  fields : Nat := 0
  hops : Nat := 0
  cones : Nat := 0
  failures : Dictionary Nat := {}
deriving Inhabited

structure Report where
  counters : Counters := {}
  models : Dictionary Nat := {}
deriving Inhabited

def countLimit : Nat := 0xffffffffffffffff

def plus (count amount : Nat) : Nat := min countLimit (count + amount)

namespace Dictionary

def count (key : String) (dictionary : Dictionary Nat) : Dictionary Nat :=
  dictionary.insert key (plus ((dictionary.get? key).getD 0) 1)

end Dictionary

namespace Report

def record (report : Report) (event : Event) : Report :=
  let counters := report.counters
  match event with
  | .started model =>
      { counters := { counters with calls := plus counters.calls 1 }
        models := report.models.count model }
  | .finished _ _ =>
      { report with counters := { counters with succeeded := plus counters.succeeded 1 } }
  | .failed _ kind =>
      { report with
        counters :=
          { counters with
            failed := plus counters.failed 1
            failures := counters.failures.count kind.name } }
  | .fieldResolved depth =>
      { report with
        counters :=
          { counters with fields := plus counters.fields 1, hops := plus counters.hops depth } }
  | .coneRecorded _ => { report with counters := { counters with cones := plus counters.cones 1 } }

end Report

/-! The JSON form. -/

def countsJson (counts : Dictionary Nat) : Json := .table (fun (n : Nat) => .int n) counts

namespace Counters

def toJson (counters : Counters) : Json :=
  .object
    [("cones_recorded", .int counters.cones), ("failures", countsJson counters.failures),
      ("fields_resolved", .int counters.fields), ("relation_hops", .int counters.hops),
      ("resolve_calls", .int counters.calls), ("resolve_failed", .int counters.failed),
      ("resolve_ok", .int counters.succeeded)]

def ofJson (json : Json) : Option Counters :=
  match json.record? ["resolve_calls", "resolve_ok", "resolve_failed", "fields_resolved",
    "relation_hops", "cones_recorded", "failures"] with
  | some [calls, succeeded, failed, fields, hops, cones, failures] => do
      pure
        { calls := ← calls.toCount?
          succeeded := ← succeeded.toCount?
          failed := ← failed.toCount?
          fields := ← fields.toCount?
          hops := ← hops.toCount?
          cones := ← cones.toCount?
          failures := ← failures.table? Json.toCount? }
  | _ => none

end Counters

namespace Report

def toJson (report : Report) : Json :=
  .object
    [("counters", report.counters.toJson),
      ("models", countsJson report.models)]

def ofJson (json : Json) : Option Report :=
  match json.record? ["counters", "models"] with
  | some [counters, models] => do
      pure { counters := ← Counters.ofJson counters, models := ← models.table? Json.toCount? }
  | _ => none

end Report

end ConeFilter
