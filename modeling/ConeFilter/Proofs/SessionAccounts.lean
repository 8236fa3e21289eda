import ConeFilter.Proofs.PassTrails
import ConeFilter.Session
import Mathlib.Data.List.DropRight

/-!
Where the events of a session go. The history of a session lists what happens
in it without looking at any recorder: every event with the number of scopes
around its step, and the resets. A recorder that goes through the session
stands, after every step, where the history says. What the counters hold was
reported outside every scope after the last reset, and what a scope captures
was reported by its own steps.
-/
namespace ConeFilter

inductive LogEntry where
  | event (depth : Nat) (event : Event)
  | reset

namespace LogEntry

def isEvent : LogEntry → Bool
  | .event _ _ => true
  | .reset => false

def outside? : LogEntry → Option Event
  | .event 0 reported => some reported
  | _ => none

end LogEntry

/-- The events outside every scope since the last reset, wherever the reset was. -/
def counted (history : List LogEntry) : List Event :=
  (history.rtakeWhile LogEntry.isEvent).filterMap LogEntry.outside?

theorem counted_reset (past : List LogEntry) : counted (past ++ [.reset]) = [] := by
  rw [counted, List.rtakeWhile_concat_neg LogEntry.isEvent past .reset (by decide)]
  rfl

theorem counted_events (past : List LogEntry) (depth : Nat) (events : List Event) :
    counted (past ++ events.map (.event depth)) =
      if depth = 0 then counted past ++ events else counted past := by
  induction events generalizing past with
  | nil => simp
  | cons event rest ih =>
      have added : counted (past ++ [.event depth event]) =
          if depth = 0 then counted past ++ [event] else counted past := by
        rw [counted, List.rtakeWhile_concat_pos LogEntry.isEvent past (.event depth event) rfl,
          List.filterMap_append]
        cases depth with
        | zero => rw [if_pos rfl]; rfl
        | succ depth => rw [if_neg (Nat.succ_ne_zero depth)]; exact List.append_nil _
      rw [List.map_cons, List.append_cons, ih, added]
      split
      · rw [← List.append_cons]
      · rfl

/-! The history of steps, and what they answer, told without a recorder. -/

namespace Step
variable (front : FrontEnd) (scope : Scope)

/-- What a step reports itself. The steps inside a scope report for themselves. -/
def events : Step → List Event
  | .resolve model node => ((scope.withModel model).resolve node).2
  | .parse model dialect text => (front.parse (configOf dialect) (scope.withModel model) text).2
  | .column model path => ((scope.withModel model).column path).2
  | .reset | .report | .scope _ => []

mutual

def history (depth : Nat) : Step → List LogEntry
  | .reset => [.reset]
  | .scope steps => historyAll (depth + 1) steps
  | step => (step.events front scope).map (.event depth)

def historyAll (depth : Nat) : List Step → List LogEntry
  | [] => []
  | step :: rest => step.history depth ++ historyAll depth rest

end

mutual

def account (depth : Nat) (past : List LogEntry) : Step → Outcome
  | .resolve model node => .resolved ((scope.withModel model).resolve node).1
  | .parse model dialect text =>
      .parsed (front.parse (configOf dialect) (scope.withModel model) text).1
  | .column model path => .column ((scope.withModel model).column path).1
  | .reset | .report => .done
  | .scope steps =>
      .scope (accountAll (depth + 1) past steps) (steps.flatMap (events front scope))

def accountAll (depth : Nat) (past : List LogEntry) : List Step → List (Outcome × Report)
  | [] => []
  | step :: rest =>
      let now := past ++ step.history front scope depth
      (step.account depth past, Report.ofEvents (counted now)) :: accountAll depth now rest

end

mutual

/-- The histories up to every boundary between steps, those inside a scope first. -/
def boundaries (depth : Nat) (past : List LogEntry) : Step → List (List LogEntry)
  | .scope steps => boundariesAll (depth + 1) past steps
  | _ => []

def boundariesAll (depth : Nat) (past : List LogEntry) : List Step → List (List LogEntry)
  | [] => []
  | step :: rest =>
      let now := past ++ step.history front scope depth
      step.boundaries depth past ++ now :: boundariesAll depth now rest

end

end Step

mutual

def Outcome.reports : Outcome → List Report
  | .scope answers _ => reportsOf answers
  | _ => []

def reportsOf : List (Outcome × Report) → List Report
  | [] => []
  | (outcome, report) :: rest => outcome.reports ++ report :: reportsOf rest

end

/-! A recorder goes through a session. -/

namespace Recorder

/-- The recorder behind a history, with what its open scopes have captured. -/
def after (past : List LogEntry) (scopes : List (List Event)) : Recorder :=
  { report := Report.ofEvents (counted past), scopes }

/-- Only the innermost scope captures. -/
def capture (events : List Event) : List (List Event) → List (List Event)
  | [] => []
  | captured :: outer => (captured ++ events) :: outer

theorem capture_nothing (scopes : List (List Event)) : capture [] scopes = scopes := by
  cases scopes with
  | nil => rfl
  | cons captured outer => rw [capture, List.append_nil]

theorem capture_append (events more : List Event) (scopes : List (List Event)) :
    capture more (capture events scopes) = capture (events ++ more) scopes := by
  cases scopes with
  | nil => rfl
  | cons captured outer => rw [capture, capture, capture, List.append_assoc]

theorem length_capture (events : List Event) (scopes : List (List Event)) :
    (capture events scopes).length = scopes.length := by
  cases scopes <;> rfl

theorem recordAll_captured (report : Report) (captured : List Event) (outer : List (List Event))
    (events : List Event) : recordAll { report, scopes := captured :: outer } events =
      { report, scopes := (captured ++ events) :: outer } := by
  induction events generalizing captured with
  | nil => rw [List.append_nil]; rfl
  | cons event rest ih =>
      rw [List.append_cons]
      exact ih (captured ++ [event])

theorem recordAll_counted (report : Report) (events : List Event) :
    recordAll { report, scopes := [] } events =
      { report := events.foldl Report.record report, scopes := [] } := by
  induction events generalizing report with
  | nil => rfl
  | cons event rest ih => exact ih (report.record event)

theorem recordAll_after (past : List LogEntry) (scopes : List (List Event))
    (events : List Event) : (after past scopes).recordAll events =
      after (past ++ events.map (.event scopes.length)) (capture events scopes) := by
  rw [after, after, counted_events]
  cases scopes with
  | nil => rw [recordAll_counted, Report.ofEvents, ← List.foldl_append]; rfl
  | cons captured outer => rw [recordAll_captured]; rfl

end Recorder

open Recorder (after capture)

namespace Step
variable (front : FrontEnd) (scope : Scope)

mutual

theorem run_after (past : List LogEntry) (scopes : List (List Event)) (step : Step) :
    step.run front scope (after past scopes) =
      (step.account front scope scopes.length past,
        after (past ++ step.history front scope scopes.length)
          (capture (step.events front scope) scopes)) := by
  cases step with
  | reset =>
      rw [events, Recorder.capture_nothing, history, after, after, counted_reset]
      rfl
  | scope steps =>
      have inner := runAll_after past ([] :: scopes) steps
      have opened : (after past scopes).openScope = after past ([] :: scopes) := rfl
      rw [events, Recorder.capture_nothing, run, opened, inner, account, history]
      rfl
  | report => exact Prod.ext rfl (Recorder.recordAll_after past scopes [])
  | _ => exact Prod.ext rfl (Recorder.recordAll_after past scopes _)

theorem runAll_after (past : List LogEntry) (scopes : List (List Event)) (steps : List Step) :
    runAll front scope (after past scopes) steps =
      (accountAll front scope scopes.length past steps,
        after (past ++ historyAll front scope scopes.length steps)
          (capture (steps.flatMap (events front scope)) scopes)) := by
  cases steps with
  | nil =>
      rw [runAll, accountAll, historyAll, List.append_nil, List.flatMap_nil,
        Recorder.capture_nothing]
  | cons step rest =>
      have later := runAll_after (past ++ step.history front scope scopes.length)
        (capture (step.events front scope) scopes) rest
      rw [Recorder.length_capture, Recorder.capture_append, List.append_assoc] at later
      rw [runAll, run_after past scopes step]
      dsimp only
      rw [later, accountAll, historyAll, List.flatMap_cons]
      rfl

end

end Step

/-! The reports of the account are those at the boundaries. -/

namespace Step
variable (front : FrontEnd) (scope : Scope)

mutual

theorem reports_account (depth : Nat) (past : List LogEntry) (step : Step) :
    (step.account front scope depth past).reports =
      (step.boundaries front scope depth past).map fun history =>
        Report.ofEvents (counted history) := by
  cases step with
  | scope steps =>
      rw [account, Outcome.reports, boundaries]
      exact reports_accountAll (depth + 1) past steps
  | _ => rfl

theorem reports_accountAll (depth : Nat) (past : List LogEntry) (steps : List Step) :
    reportsOf (accountAll front scope depth past steps) =
      (boundariesAll front scope depth past steps).map fun history =>
        Report.ofEvents (counted history) := by
  cases steps with
  | nil => rfl
  | cons step rest =>
      have inside := reports_account depth past step
      have later := reports_accountAll depth (past ++ step.history front scope depth) rest
      rw [accountAll, reportsOf, boundariesAll, inside, later, List.map_append, List.map_cons]

end

end Step

/-! Passes that were started have ended when their step is done. -/

namespace Event

theorem balanced_of_inner (events : List Event)
    (inner : ∀ event ∈ events, event.isField ∨ event.isCone) : Balanced events := by
  induction events with
  | nil => rfl
  | cons event rest ih =>
      obtain ⟨here, later⟩ := List.forall_mem_cons.mp inner
      have own : Balanced [event] := by
        cases event <;> first | rfl | cases here <;> contradiction
      exact own.append (ih later)

theorem Balanced.between {first last : Event} {events : List Event} (inner : Balanced events)
    (ends : Balanced [first, last]) : Balanced (first :: events ++ [last]) := by
  simp only [Balanced, List.cons_append, List.countP_cons, List.countP_append,
    List.countP_nil] at inner ends ⊢
  omega

end Event

namespace Scope

theorem resolve_balanced (scope : Scope) (node : Node) :
    Event.Balanced (scope.resolve node).2 := by
  have inner := Event.balanced_of_inner _ (node.events_inner scope)
  unfold resolve
  unfold Pass.runFrom at inner
  generalize (node.resolve scope).run.run {} = outcome at inner ⊢
  rcases outcome with ⟨failure | value, progress⟩
  · exact inner.between rfl
  · exact inner.between rfl

theorem column_balanced (scope : Scope) (path : List String) :
    Event.Balanced (scope.column path).2 := by
  unfold column
  split <;> rfl

end Scope

theorem FrontEnd.parse_balanced (front : FrontEnd) (config : Config) (scope : Scope)
    (text : String) : Event.Balanced (front.parse config scope text).2 := by
  unfold parse
  split
  · rfl
  · rename_i node read
    have passed := scope.resolve_balanced node
    generalize scope.resolve node = outcome at passed ⊢
    rcases outcome with ⟨failure | resolution, events⟩ <;> exact passed

namespace Step
variable (front : FrontEnd) (scope : Scope)

theorem events_balanced (step : Step) : Event.Balanced (step.events front scope) := by
  cases step with
  | resolve model node => exact (scope.withModel model).resolve_balanced node
  | parse model dialect text =>
      exact front.parse_balanced (configOf dialect) (scope.withModel model) text
  | column model path => exact (scope.withModel model).column_balanced path
  | reset | report | scope steps => rfl

theorem reported_balanced (depth : Nat) (past : List LogEntry) (step : Step)
    (settled : Event.Balanced (counted past)) :
    Event.Balanced (counted (past ++ (step.events front scope).map (.event depth))) := by
  rw [counted_events]
  split
  · exact settled.append (step.events_balanced front scope)
  · exact settled

mutual

theorem history_balanced (depth : Nat) (past : List LogEntry) (step : Step)
    (settled : Event.Balanced (counted past)) :
    Event.Balanced (counted (past ++ step.history front scope depth)) := by
  cases step with
  | reset =>
      rw [history, counted_reset]
      rfl
  | scope steps => exact historyAll_balanced (depth + 1) past steps settled
  | _ => exact reported_balanced front scope depth past _ settled

theorem historyAll_balanced (depth : Nat) (past : List LogEntry) (steps : List Step)
    (settled : Event.Balanced (counted past)) :
    Event.Balanced (counted (past ++ historyAll front scope depth steps)) := by
  cases steps with
  | nil => rwa [historyAll, List.append_nil]
  | cons step rest =>
      rw [historyAll, ← List.append_assoc]
      exact historyAll_balanced depth _ rest (history_balanced depth past step settled)

end

mutual

theorem boundaries_balanced (depth : Nat) (past : List LogEntry) (step : Step)
    (settled : Event.Balanced (counted past)) :
    ∀ boundary ∈ step.boundaries front scope depth past, Event.Balanced (counted boundary) := by
  cases step with
  | scope steps => exact boundariesAll_balanced (depth + 1) past steps settled
  | _ => exact fun _ absent => by cases absent

theorem boundariesAll_balanced (depth : Nat) (past : List LogEntry) (steps : List Step)
    (settled : Event.Balanced (counted past)) :
    ∀ boundary ∈ boundariesAll front scope depth past steps, Event.Balanced (counted boundary) := by
  cases steps with
  | nil => exact fun _ absent => by cases absent
  | cons step rest =>
      have now := history_balanced front scope depth past step settled
      intro boundary reached
      rcases List.mem_append.mp reached with inside | behind
      · exact boundaries_balanced depth past step settled boundary inside
      · rcases List.mem_cons.mp behind with here | later
        · exact here ▸ now
        · exact boundariesAll_balanced depth _ rest now boundary later

end

/-! Steps that only report. -/

def isPlain : Step → Bool
  | .resolve _ _ | .parse _ _ _ | .column _ _ | .report => true
  | .reset | .scope _ => false

theorem historyAll_plain (depth : Nat) (steps : List Step) (plain : steps.all isPlain) :
    historyAll front scope depth steps =
      (steps.flatMap (events front scope)).map (.event depth) := by
  induction steps with
  | nil => rfl
  | cons step rest ih =>
      obtain ⟨here, later⟩ := Bool.and_eq_true_iff.mp plain
      have own : step.history front scope depth = (step.events front scope).map (.event depth) := by
        cases step with
        | reset | scope steps => cases here
        | _ => rfl
      rw [historyAll, own, ih later, List.flatMap_cons, List.map_append]

variable {front scope}

theorem runAll_plain (past : List LogEntry) (steps : List Step) (plain : steps.all isPlain) :
    (runAll front scope (after past []) steps).2 =
      { report := Report.ofEvents (counted past ++ steps.flatMap (events front scope)) } := by
  rw [runAll_after]
  change after (past ++ historyAll front scope 0 steps) [] = _
  rw [after, historyAll_plain front scope 0 steps plain, counted_events, if_pos rfl]

/-- A scope around such steps holds their events back from the counters. -/
theorem run_scope_plain (past : List LogEntry) (scopes : List (List Event)) (steps : List Step)
    (plain : steps.all isPlain) : (Step.scope steps).run front scope (after past scopes) =
      (.scope (accountAll front scope (scopes.length + 1) past steps)
        (steps.flatMap (events front scope)), after past scopes) := by
  rw [run_after, events, Recorder.capture_nothing, account, history,
    historyAll_plain front scope (scopes.length + 1) steps plain, after, counted_events,
    if_neg (Nat.succ_ne_zero _), after]

end Step

/-- Sessions, told without their recorder. What a step reports is captured by the innermost
scope, or else counted, and behind a scope the scopes around it go on. -/
theorem session_accounted (front : FrontEnd) (scope : Scope) (steps : List Step) :
    runSession scope steps front = Step.accountAll front scope 0 [] steps ∧
    (∀ past scopes (step : Step), (step.run front scope (after past scopes)).2 =
      after (past ++ step.history front scope scopes.length)
        (capture (step.events front scope) scopes)) ∧
    (∀ past scopes inner,
      ((Step.scope inner).run front scope (after past scopes)).2.scopes = scopes) ∧
    -- The reports at all boundaries, and what a report says about its events.
    (reportsOf (runSession scope steps front) =
      (Step.boundariesAll front scope 0 [] steps).map fun history =>
        Report.ofEvents (counted history)) ∧
    (∀ events, (Report.ofEvents events).Tallies events ∧
      (∀ entry ∈ (Report.ofEvents events).counters.failures.entries, 0 < entry.2) ∧
      ∀ entry ∈ (Report.ofEvents events).models.entries, 0 < entry.2) ∧
    (∀ boundary ∈ Step.boundariesAll front scope 0 [] steps,
      (counted boundary).length ≤ countLimit →
        (Report.ofEvents (counted boundary)).Balanced) ∧
    -- Steps that only report may be reordered, and a scope only redirects their events.
    ∀ past plain, plain.all Step.isPlain →
      (Step.runAll front scope (after past []) plain).2.report =
        Report.ofEvents (counted past ++ plain.flatMap (Step.events front scope)) ∧
      (∀ others, plain.Perm others →
        (Step.runAll front scope (after past []) others).2 =
          (Step.runAll front scope (after past []) plain).2) ∧
      ∀ scopes, (Step.scope plain).run front scope (after past scopes) =
        (.scope (Step.accountAll front scope (scopes.length + 1) past plain)
          (plain.flatMap (Step.events front scope)), after past scopes) := by
  have run : runSession scope steps front = Step.accountAll front scope 0 [] steps :=
    congrArg Prod.fst (Step.runAll_after front scope [] [] steps)
  refine ⟨run, ?_, ?_, ?_, ?_, ?_, ?_⟩
  · intro past scopes step
    rw [Step.run_after]
  · intro past scopes inner
    rw [Step.run_after, Step.events, Recorder.capture_nothing]
    rfl
  · rw [run, Step.reports_accountAll]
  · intro events
    have told := Report.tallies_ofEvents events
    exact ⟨told, told.failures.positive, told.models.positive⟩
  · intro boundary reached few
    have ended := Step.boundariesAll_balanced front scope 0 [] steps rfl boundary reached
    exact (Report.tallies_ofEvents _).balanced ended few
  · intro past plain only
    refine ⟨by rw [Step.runAll_plain past plain only], ?_, ?_⟩
    · intro others reordered
      have alsoOnly : others.all Step.isPlain := by
        rw [List.all_eq_true] at only ⊢
        exact fun step stands => only step (reordered.mem_iff.mpr stands)
      have same := Report.ofEvents_perm
        ((reordered.flatMap_right (Step.events front scope)).append_left (counted past))
      rw [Step.runAll_plain past others alsoOnly, Step.runAll_plain past plain only, same]
    · exact fun scopes => Step.run_scope_plain past scopes plain only

def failingStep : Step := .resolve none .null

def columnStep : Step := .column none ["mag"]

theorem failingStep_accounted :
    (Step.runAll .sql starScope {} [columnStep, failingStep]).2 =
        (Step.runAll .sql starScope {} [failingStep, columnStep]).2 ∧
      (Report.ofEvents (counted (failingStep.history .sql starScope 0))).Balanced := by
  obtain ⟨-, -, -, -, -, balanced, plain⟩ :=
    session_accounted .sql starScope [failingStep, .scope [columnStep, .reset]]
  constructor
  · exact (plain [] [failingStep, columnStep] rfl).2.1 _ (List.Perm.swap _ _ _)
  · exact balanced (failingStep.history .sql starScope 0) List.mem_cons_self (by decide)

example : counted (Step.historyAll .sql starScope 0
    [.resolve none .null, .scope [.column none ["mag"], .reset], .column none ["mag"]]) =
    [.fieldResolved 0] := by decide

end ConeFilter
