import ConeFilter.Filter
import ConeFilter.Metrics

/-!
Sessions: steps that resolve, read or look up, one after another, while events
are counted. Inside a scope the events are captured instead, and only by the
innermost scope. The counters can be read and reset from everywhere. All texts
of a session are read by one front end.
-/
namespace ConeFilter

/-- A step may name a model of its own, and a dialect for its text. -/
inductive Step where
  | resolve (model : Option String) (node : Node)
  | parse (model : Option String) (dialect : Option String) (text : String)
  | column (model : Option String) (path : List String)
  | reset
  | report
  | scope (steps : List Step)
deriving Inhabited

inductive Outcome where
  | resolved (result : Except Failure Resolution)
  | parsed (result : Except FilterError Filter)
  | column (result : Except Failure String)
  | done
  | scope (answers : List (Outcome × Report)) (captured : List Event)
deriving Inhabited

/-- The events that open scopes have captured, the innermost scope first. -/
structure Recorder where
  report : Report := {}
  scopes : List (List Event) := []
deriving Inhabited

namespace Recorder

def record (recorder : Recorder) (event : Event) : Recorder :=
  match recorder.scopes with
  | [] => { recorder with report := recorder.report.record event }
  | captured :: outer => { recorder with scopes := (captured ++ [event]) :: outer }

def recordAll (recorder : Recorder) (events : List Event) : Recorder :=
  events.foldl record recorder

def reset (recorder : Recorder) : Recorder := { recorder with report := {} }

def openScope (recorder : Recorder) : Recorder :=
  { recorder with scopes := [] :: recorder.scopes }

def closeScope (recorder : Recorder) : List Event × Recorder :=
  match recorder.scopes with
  | [] => ([], recorder)
  | captured :: outer => (captured, { recorder with scopes := outer })

end Recorder

namespace Scope

def withModel (scope : Scope) (model : Option String) : Scope :=
  { scope with model := model.getD scope.model }

end Scope

def configOf (dialect : Option String) : Config :=
  match dialect with
  | some name => { dialect := name }
  | none => {}

section
variable (front : FrontEnd)

mutual

def Step.run (scope : Scope) (recorder : Recorder) : Step → Outcome × Recorder
  | .resolve model node =>
      let (result, events) := (scope.withModel model).resolve node
      (.resolved result, recorder.recordAll events)
  | .parse model dialect text =>
      let (result, events) := front.parse (configOf dialect) (scope.withModel model) text
      (.parsed result, recorder.recordAll events)
  | .column model path =>
      let (result, events) := (scope.withModel model).column path
      (.column result, recorder.recordAll events)
  | .reset => (.done, recorder.reset)
  | .report => (.done, recorder)
  | .scope steps =>
      let (answers, recorder) := Step.runAll scope recorder.openScope steps
      let (captured, recorder) := recorder.closeScope
      (.scope answers captured, recorder)

/-- Every answer comes with the counters as they stand after its step. -/
def Step.runAll (scope : Scope) (recorder : Recorder) :
    List Step → List (Outcome × Report) × Recorder
  | [] => ([], recorder)
  | step :: rest =>
      let (outcome, recorder) := Step.run scope recorder step
      let (answers, last) := Step.runAll scope recorder rest
      ((outcome, recorder.report) :: answers, last)

end

end

def runSession (scope : Scope) (steps : List Step) (front : FrontEnd := .sql) :
    List (Outcome × Report) :=
  (Step.runAll front scope {} steps).1

end ConeFilter
