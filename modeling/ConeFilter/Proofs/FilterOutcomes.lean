import ConeFilter.Filter
import ConeFilter.Proofs.PassTrails

/-!
How reading a filter ends. A front end may fail to find a dialect, and it may
fail to read a text with one. Whatever the front end is, there are four ways to
end, and the error and the events together tell which of them it was. A tree
that amounts to a value ends like a filter: its pass has finished before the
value is refused.
-/
namespace ConeFilter

namespace FrontEnd

section
variable (front : FrontEnd) (config : Config) (scope : Scope) (text : String)

theorem parse_unread {fault : FilterError} (unread : front.readNode config text = .error fault) :
    front.parse config scope text = (.error fault, []) := by
  rw [parse, unread]

theorem parse_refused {node : Node} {failure : Failure} {events : List Event}
    (read : front.readNode config text = .ok node)
    (refused : scope.resolve node = (.error failure, events)) :
    front.parse config scope text = (.error (.unresolved failure), events) := by
  simp only [parse, read, refused]

theorem parse_finished {node : Node} {resolution : Resolution} {events : List Event}
    (read : front.readNode config text = .ok node)
    (finished : scope.resolve node = (.ok resolution, events)) :
    front.parse config scope text = (resolution.toFilter, events) := by
  simp only [parse, read, finished]

/-- A filter is what a pass returned for some tree. -/
theorem parse_resolves (filter : Filter)
    (parsed : (front.parse config scope text).1 = .ok filter) :
    ∃ node, (scope.resolve node).1 =
      .ok { value := .condition filter.predicate, extra := filter.extra } := by
  cases read : front.readNode config text with
  | error fault =>
      rw [front.parse_unread config scope text read] at parsed
      cases parsed
  | ok node =>
      cases resolved : scope.resolve node with
      | mk outcome events =>
          cases outcome with
          | error failure =>
              rw [front.parse_refused config scope text read resolved] at parsed
              cases parsed
          | ok resolution =>
              rw [front.parse_finished config scope text read resolved] at parsed
              obtain ⟨value, extra⟩ := resolution
              cases value with
              | operand operand => cases parsed
              | condition predicate =>
                  cases parsed
                  exact ⟨node, by rw [resolved]⟩

end

end FrontEnd

/-- The events of a whole pass over a model, up to the one that says how it ended. -/
def Event.Frames (model : String) (last : Event) (events : List Event) : Prop :=
  ∃ body, (∀ event ∈ body, event.isField ∨ event.isCone) ∧
    events = .started model :: body ++ [last]

theorem Scope.resolve_frames (scope : Scope) (node : Node) :
    match scope.resolve node with
    | (.ok resolution, events) =>
        Event.Frames scope.model (.finished scope.model resolution.extra.cones.length) events
    | (.error failure, events) =>
        Event.Frames scope.model (.failed scope.model failure.kind) events := by
  have inner := node.events_inner scope
  unfold resolve
  unfold Pass.runFrom at inner
  generalize (node.resolve scope).run.run {} = outcome at inner ⊢
  rcases outcome with ⟨failure | value, progress⟩ <;> exact ⟨progress.events, inner, rfl⟩

/-- An error that passes a failure of a tree on. -/
structure FilterError.Reports (error : FilterError) (failure : Failure) : Prop where
  kind : error.kind = .unresolved failure.kind
  origin : error.origin = .resolver
  detail : error.failure? = some failure
  message : error.message? = some failure.message

theorem FilterError.reports_unresolved (failure : Failure) :
    (unresolved failure).Reports failure := ⟨rfl, rfl, rfl, rfl⟩

/-! The four endings. -/

inductive Ending where
  | unknownDialect
  | unreadable
  | refused
  | finished
deriving DecidableEq

/-- What is seen from outside when reading a text ends one way or another. -/
def Ending.Seen (front : FrontEnd) (config : Config) (scope : Scope) (text : String) :
    Ending → Except FilterError Filter × List Event → Prop
  | .unknownDialect, (result, events) => front.named config.dialect = none ∧ events = [] ∧
      ∃ error, result = .error error ∧
        error.kind = .unknownDialect ∧ error.origin = .config ∧ error.failure? = none
  | .unreadable, (result, events) =>
      (∃ dialect fault, front.named config.dialect = some dialect ∧
        front.read dialect text = .error fault) ∧ events = [] ∧
      ∃ error, result = .error error ∧
        error.kind = .unreadable ∧ error.origin = .text ∧ error.failure? = none
  | .refused, (result, events) => ∃ node failure, front.readNode config text = .ok node ∧
      (scope.resolve node).1 = .error failure ∧
      Event.Frames scope.model (.failed scope.model failure.kind) events ∧
      ∃ error, result = .error error ∧ error.Reports failure
  | .finished, (result, events) => ∃ node resolution, front.readNode config text = .ok node ∧
      (scope.resolve node).1 = .ok resolution ∧
      Event.Frames scope.model (.finished scope.model resolution.extra.cones.length) events ∧
      match resolution.value with
      | .condition predicate => result = .ok { predicate, extra := resolution.extra }
      | .operand operand => ∃ error, result = .error error ∧
          error.Reports (.misuse (.valueAsCondition operand))

/-- The ending that an outcome shows. Events tell a text that became no tree, a refused tree and
a finished pass apart, and for a text that became no tree the kind of the error decides. -/
def Ending.shown (outcome : Except FilterError Filter × List Event) : Ending :=
  match outcome.2.getLast?, outcome.1 with
  | some (.failed _ _), _ => .refused
  | some _, _ => .finished
  | none, .error error =>
      if error.kind = .unknownDialect then .unknownDialect else .unreadable
  | none, .ok _ => .unreadable

section Endings
variable (front : FrontEnd) (config : Config) (scope : Scope) (text : String)

theorem Ending.seen_unread {fault : FilterError}
    (unread : front.readNode config text = .error fault) :
    ∃ ending : Ending, ending.Seen front config scope text (.error fault, []) := by
  unfold FrontEnd.readNode FrontEnd.findDialect at unread
  cases known : front.named config.dialect with
  | none =>
      rw [known] at unread
      cases unread
      exact ⟨.unknownDialect, known, rfl, _, rfl, rfl, rfl, rfl⟩
  | some dialect =>
      rw [known] at unread
      cases faulty : front.read dialect text with
      | error fault =>
          simp only [faulty] at unread
          cases unread
          exact ⟨.unreadable, ⟨dialect, fault, known, faulty⟩, rfl, _, rfl, rfl, rfl, rfl⟩
      | ok expr =>
          simp only [faulty] at unread
          cases unread

theorem Ending.exists_seen : ∃ ending : Ending,
    ending.Seen front config scope text (front.parse config scope text) := by
  cases read : front.readNode config text with
  | error fault =>
      rw [front.parse_unread config scope text read]
      exact Ending.seen_unread front config scope text read
  | ok node =>
      have framed := scope.resolve_frames node
      cases resolved : scope.resolve node with
      | mk outcome events =>
          rw [resolved] at framed
          cases outcome with
          | error failure =>
              rw [front.parse_refused config scope text read resolved]
              exact ⟨.refused, node, failure, read, by rw [resolved], framed, _, rfl,
                FilterError.reports_unresolved failure⟩
          | ok resolution =>
              rw [front.parse_finished config scope text read resolved]
              refine ⟨.finished, node, resolution, read, by rw [resolved], framed, ?_⟩
              obtain ⟨value, extra⟩ := resolution
              cases value with
              | condition predicate => rfl
              | operand operand => exact ⟨_, rfl, FilterError.reports_unresolved _⟩

theorem Event.Frames.getLast {model : String} {last : Event} {events : List Event}
    (framed : Event.Frames model last events) : events.getLast? = some last := by
  obtain ⟨body, -, rfl⟩ := framed
  exact List.getLast?_concat

theorem Ending.seen_shown (ending : Ending) (outcome : Except FilterError Filter × List Event)
    (seen : ending.Seen front config scope text outcome) : ending = Ending.shown outcome := by
  obtain ⟨result, events⟩ := outcome
  cases ending with
  | unknownDialect =>
      obtain ⟨-, rfl, error, rfl, kind, -⟩ := seen
      simp [shown, kind]
  | unreadable =>
      obtain ⟨-, rfl, error, rfl, kind, -⟩ := seen
      simp [shown, kind]
  | refused =>
      obtain ⟨node, failure, -, -, framed, -⟩ := seen
      simp [shown, framed.getLast]
  | finished =>
      obtain ⟨node, resolution, -, -, framed, -⟩ := seen
      simp [shown, framed.getLast]

end Endings

/-- An error has a detail when it comes from the tree, and then its kind is that of the detail. -/
theorem FilterError.detailed (error : FilterError) :
    (error.failure?.isSome ↔ error.origin = .resolver) ∧
      (error.origin = .resolver ↔
        ∃ failure, error.failure? = some failure ∧ error.kind = .unresolved failure.kind) := by
  cases error <;> simp [failure?, origin, kind]

/-- Reading a text ends in exactly one of four ways, whatever the front end is. -/
theorem filter_endings (front : FrontEnd) (config : Config) (scope : Scope) (text : String) :
    (∃! ending : Ending,
      ending.Seen front config scope text (front.parse config scope text)) ∧
    (∀ error : FilterError, (error.failure?.isSome ↔ error.origin = .resolver) ∧
      (error.origin = .resolver ↔
        ∃ failure, error.failure? = some failure ∧ error.kind = .unresolved failure.kind)) ∧
    FrontEnd.sql.parse = Filter.parse := by
  obtain ⟨ending, seen⟩ := Ending.exists_seen front config scope text
  refine ⟨⟨ending, seen, fun other alsoSeen => ?_⟩, FilterError.detailed, rfl⟩
  rw [Ending.seen_shown front config scope text other _ alsoSeen,
    Ending.seen_shown front config scope text ending _ seen]

/-! A column alone is refused behind a finished pass, and a column that is missing before. -/

example : Ending.shown (Filter.parse {} starScope "mag") = .finished ∧
    (Filter.parse {} starScope "mag").1.toOption.isNone = true := by decide +kernel

example : Ending.shown (Filter.parse {} starScope "age = 1") = .refused := by decide +kernel

end ConeFilter
