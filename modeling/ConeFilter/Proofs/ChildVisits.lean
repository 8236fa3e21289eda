import ConeFilter.Proofs.ExpressionTrees
import ConeFilter.Proofs.ReturningPasses
import Mathlib.Data.List.Basic

/-!
Visits to the children of a node. A pass goes through the children from left to right, and goes
on to the next only when the one before it was resolved and what came out of it has the sort
that the node demands. Every node begins with its visits: it fails in the first that fails, or
it makes them all and then does what is left to do in its own step.
-/
namespace ConeFilter

/-! What a node demands of a child that it has resolved. -/

inductive Demand where
  | whole
  | value
  | truth
  | listed
  | measure (argument : ConeArgument)

namespace Demand

def Answer : Demand → Type
  | .whole => Resolved
  | .value => Operand
  | .truth => Predicate
  | .listed => Value
  | .measure _ => Float

def check : (demand : Demand) → Resolved → Except Failure demand.Answer
  | .whole => .ok
  | .value => Resolved.toOperand
  | .truth => Resolved.toPredicate
  | .listed => Resolved.toListed
  | .measure argument => Resolved.toConeArgument argument

end Demand

structure Visit where
  demand : Demand
  child : Node

namespace Node

/-- One demand for each child that is resolved. A literal under a minus sign, a NULL on the right
of an equality and the arguments of a call that is no cone search are only looked at. -/
def demands : Node → List Demand
  | .literal _ _ | .column _ | .quoted _ | .null | .unsupported _ | .negate (.literal _ _) => []
  | .negate _ | .nested _ => [.whole]
  | .not _ => [.truth]
  | .connect _ _ _ => [.truth, .truth]
  | .equality _ _ .null => [.value]
  | .equality _ _ _ | .relate _ _ _ | .arithmetic _ _ _ => [.value, .value]
  | .between _ _ _ => [.value, .value, .value]
  | .member _ items => .value :: List.replicate items.length .listed
  | .call name arguments =>
      if isConeName name = true ∧ arguments.length = 3 then
        [.measure .ra, .measure .dec, .measure .radius]
      else []

def visits (node : Node) : List Visit := List.zipWith Visit.mk node.demands node.children

theorem mem_visits {node : Node} {visit : Visit} {index : Nat}
    (found : node.visits[index]? = some visit) :
    node.children[index]? = some visit.child ∧ node.demands[index]? = some visit.demand := by
  obtain ⟨demand, child, demanded, below, rfl⟩ := List.getElem?_zipWith_eq_some.mp found
  exact ⟨below, demanded⟩

theorem demands_negate {operand : Node} (unread : ∀ kind raw, operand ≠ .literal kind raw) :
    (negate operand).demands = [.whole] := by
  cases operand with
  | literal kind raw => exact absurd rfl (unread kind raw)
  | _ => rfl

theorem demands_equality (op : Equality) (left : Node) {right : Node} (stated : right ≠ .null) :
    (equality op left right).demands = [.value, .value] := by
  cases right with
  | null => exact absurd rfl stated
  | _ => rfl

theorem demands_call {name : String} {arguments : List Node}
    (plain : ¬(isConeName name = true ∧ arguments.length = 3)) :
    (call name arguments).demands = [] := if_neg plain

end Node

/-! Visits one after the other. -/

section Visiting
variable {scope : Scope} {visit : Visit} {visits rest : List Visit} {index : Nat}
  {before between after : Progress} {failure : Failure}

def Visit.pass (scope : Scope) (visit : Visit) : Pass visit.demand.Answer := do
  let resolved ← visit.child.resolve scope
  Pass.require (visit.demand.check resolved)

/-- A visit fails if its child fails, or if the child returns and its result is refused. -/
theorem Visit.fails_iff : (visit.pass scope).runFrom before = (.error failure, after) ↔
    (visit.child.resolve scope).runFrom before = (.error failure, after) ∨
    ∃ resolved, (visit.child.resolve scope).Returns before resolved after ∧
      visit.demand.check resolved = .error failure := by
  unfold pass Pass.Returns
  rw [Pass.runFrom_bind]
  rcases (visit.child.resolve scope).runFrom before with ⟨stopped | resolved, between⟩
  · simp
  · change (visit.demand.check resolved, between) = (.error failure, after) ↔ _
    simp [and_comm]

/-- All visits are accepted, each in the progress that the one before it left. -/
inductive Accepts (scope : Scope) : List Visit → Progress → Progress → Prop where
  | nil {progress : Progress} : Accepts scope [] progress progress
  | cons {visit : Visit} {rest : List Visit} {before between after : Progress}
      {answer : visit.demand.Answer} (accepted : (visit.pass scope).Returns before answer between)
      (later : Accepts scope rest between after) : Accepts scope (visit :: rest) before after

/-- The visits in front of the one at the index are accepted, and it is the next. -/
inductive Reaches (scope : Scope) : List Visit → Nat → Visit → Progress → Progress → Prop where
  | here {visit : Visit} {rest : List Visit} {progress : Progress} :
      Reaches scope (visit :: rest) 0 visit progress progress
  | later {first visit : Visit} {rest : List Visit} {index : Nat}
      {before between after : Progress} {answer : first.demand.Answer}
      (accepted : (first.pass scope).Returns before answer between)
      (reached : Reaches scope rest index visit between after) :
      Reaches scope (first :: rest) (index + 1) visit before after

theorem Reaches.found (reached : Reaches scope visits index visit before after) :
    visits[index]? = some visit := by
  induction reached with
  | here => rfl
  | later _ _ ih => exact ih

/-- What comes behind the visit does not matter. -/
theorem Reaches.transfer {others : List Visit} {other : Visit}
    (reached : Reaches scope visits index visit before after)
    (same : others.take index = visits.take index) (found : others[index]? = some other) :
    Reaches scope others index other before after := by
  induction reached generalizing others with
  | here =>
      cases others with
      | nil => cases found
      | cons first rest =>
          cases found
          exact .here
  | later accepted _ ih =>
      cases others with
      | nil => cases found
      | cons first rest =>
          rw [List.take_succ_cons, List.take_succ_cons, List.cons.injEq] at same
          obtain ⟨rfl, same⟩ := same
          exact .later accepted (ih same found)

theorem Pass.returns_unique {α : Type} {pass : Pass α} {result other : α} {last : Progress}
    (returned : pass.Returns before result after) (again : pass.Returns before other last) :
    result = other ∧ after = last := by
  unfold Returns at returned again
  rw [returned] at again
  cases again
  exact ⟨rfl, rfl⟩

theorem Accepts.not_fails {cause : Failure} {last : Progress}
    (all : Accepts scope visits before after)
    (reached : Reaches scope visits index visit before between) :
    (visit.pass scope).runFrom between ≠ (.error cause, last) := by
  induction all generalizing index with
  | nil => cases reached
  | cons accepted _ ih =>
      cases reached with
      | here =>
          rw [accepted]
          simp
      | later again reached =>
          obtain ⟨-, rfl⟩ := Pass.returns_unique accepted again
          exact ih reached

/-- Visits stop at most once, because a visit that was accepted did not fail. -/
theorem Reaches.unique {other : Visit} {later : Nat} {begun last : Progress} {cause : Failure}
    (reached : Reaches scope visits index visit before between)
    (fails : (visit.pass scope).runFrom between = (.error failure, after))
    (reachedToo : Reaches scope visits later other before begun)
    (failsToo : (other.pass scope).runFrom begun = (.error cause, last)) :
    index = later ∧ visit = other ∧ between = begun := by
  induction reached generalizing later with
  | here =>
      cases reachedToo with
      | here => exact ⟨rfl, rfl, rfl⟩
      | later accepted _ =>
          rw [accepted] at fails
          cases fails
  | later accepted _ ih =>
      cases reachedToo with
      | here =>
          rw [accepted] at failsToo
          cases failsToo
      | later again reachedToo =>
          obtain ⟨-, rfl⟩ := Pass.returns_unique accepted again
          obtain ⟨rfl, same⟩ := ih fails reachedToo
          exact ⟨rfl, same⟩

/-- The pass makes these visits before it does anything else. -/
def Pass.Begins {α : Type} (scope : Scope) : List Visit → Pass α → Prop
  | [], _ => True
  | visit :: rest, pass => ∃ next : visit.demand.Answer → Pass α,
      pass = visit.pass scope >>= next ∧ ∀ answer, Begins scope rest (next answer)

namespace Pass
variable {α : Type} {pass : Pass α}

theorem begins_visit (visit : Visit) {next : visit.demand.Answer → Pass α}
    (later : ∀ answer, Begins scope rest (next answer)) :
    Begins scope (visit :: rest) (visit.child.resolve scope >>= fun resolved =>
      require (visit.demand.check resolved) >>= next) :=
  ⟨next, (bind_assoc _ _ _).symm, later⟩

theorem begins_fails (begins : Begins scope visits pass)
    (reached : Reaches scope visits index visit before between)
    (fails : (visit.pass scope).runFrom between = (.error failure, after)) :
    pass.runFrom before = (.error failure, after) := by
  induction reached generalizing pass with
  | here =>
      obtain ⟨next, rfl, -⟩ := begins
      rw [runFrom_bind, fails]
  | later accepted _ ih =>
      obtain ⟨next, rfl, later⟩ := begins
      unfold Returns at accepted
      rw [runFrom_bind, accepted]
      exact ih (later _) fails

/-- A pass that fails has made all its visits, or has failed in one that it reached. -/
theorem begins_cases (begins : Begins scope visits pass)
    (failed : pass.runFrom before = (.error failure, after)) :
    (∃ between, Accepts scope visits before between) ∨
    ∃ index visit between, Reaches scope visits index visit before between ∧
      (visit.pass scope).runFrom between = (.error failure, after) := by
  induction visits generalizing pass before with
  | nil => exact .inl ⟨before, .nil⟩
  | cons first rest ih =>
      obtain ⟨next, rfl, later⟩ := begins
      rw [runFrom_bind] at failed
      cases outcome : (first.pass scope).runFrom before with
      | mk result between =>
          rw [outcome] at failed
          cases result with
          | error stopped =>
              cases failed
              exact .inr ⟨0, first, before, .here, outcome⟩
          | ok answer =>
              rcases ih (later answer) failed with ⟨last, all⟩ | ⟨index, visit, last, reached, stop⟩
              · exact .inl ⟨last, .cons outcome all⟩
              · exact .inr ⟨index + 1, visit, last, .later outcome reached, stop⟩

end Pass

/-! Every node begins with its visits. -/

namespace Node

theorem resolveItems_begins {α : Type} (items : List Node) (next : List Value → Pass α) :
    Pass.Begins scope (List.zipWith Visit.mk (List.replicate items.length .listed) items)
      (resolveItems scope items >>= next) := by
  induction items generalizing next with
  | nil => trivial
  | cons item rest ih =>
      have unfolded : resolveItems scope (item :: rest) >>= next =
          item.resolve scope >>= fun resolved => Pass.require resolved.toListed >>= fun value =>
            resolveItems scope rest >>= fun values => next (value :: values) := by
        simp [resolveItems]
      rw [unfolded]
      exact Pass.begins_visit ⟨.listed, item⟩ fun value => ih fun values => next (value :: values)

theorem negate_begins (operand : Node) :
    Pass.Begins scope (negate operand).visits ((negate operand).resolve scope) := by
  by_cases read : ∃ kind raw, operand = .literal kind raw
  · obtain ⟨kind, raw, rfl⟩ := read
    trivial
  · have unread : ∀ kind raw, operand ≠ .literal kind raw :=
      fun kind raw same => read ⟨kind, raw, same⟩
    rw [visits, demands_negate unread, resolve_negate scope operand unread]
    exact Pass.begins_visit ⟨.whole, operand⟩ fun _ => trivial

theorem equality_begins (op : Equality) (left right : Node) :
    Pass.Begins scope (equality op left right).visits ((equality op left right).resolve scope) := by
  by_cases bare : right = .null
  · subst bare
    exact Pass.begins_visit ⟨.value, left⟩ fun _ => trivial
  · rw [visits, demands_equality op left bare, resolve_equality scope op left right bare]
    exact Pass.begins_visit ⟨.value, left⟩ fun _ =>
      Pass.begins_visit ⟨.value, right⟩ fun _ => trivial

theorem call_begins (name : String) (arguments : List Node) :
    Pass.Begins scope (call name arguments).visits ((call name arguments).resolve scope) := by
  by_cases search : isConeName name = true ∧ arguments.length = 3
  · obtain ⟨named, three⟩ := search
    obtain ⟨ra, dec, radius, rfl⟩ := List.length_eq_three.mp three
    have demanded : (call name [ra, dec, radius]).visits =
        [⟨.measure .ra, ra⟩, ⟨.measure .dec, dec⟩, ⟨.measure .radius, radius⟩] := by
      simp [visits, demands, named]
    rw [demanded]
    simp only [resolve, named, if_true]
    exact Pass.begins_visit ⟨.measure .ra, ra⟩ fun _ =>
      Pass.begins_visit ⟨.measure .dec, dec⟩ fun _ =>
        Pass.begins_visit ⟨.measure .radius, radius⟩ fun _ => trivial
  · rw [visits, demands_call search]
    trivial

theorem resolve_begins (node : Node) : Pass.Begins scope node.visits (node.resolve scope) := by
  cases node with
  | literal _ _ | column _ | quoted _ | null | unsupported _ => trivial
  | negate operand => exact negate_begins operand
  | not condition => exact Pass.begins_visit ⟨.truth, condition⟩ fun _ => trivial
  | nested inner =>
      -- The pass of the inner node is the whole pass, so a check that refuses nothing is put in.
      have whole : inner.resolve scope = inner.resolve scope >>= fun resolved =>
          Pass.require (.ok resolved) >>= pure := (bind_pure _).symm
      change Pass.Begins scope [⟨.whole, inner⟩] (inner.resolve scope)
      rw [whole]
      exact Pass.begins_visit ⟨.whole, inner⟩ fun _ => trivial
  | connect op left right =>
      exact Pass.begins_visit ⟨.truth, left⟩ fun _ =>
        Pass.begins_visit ⟨.truth, right⟩ fun _ => trivial
  | equality op left right => exact equality_begins op left right
  | relate op left right =>
      exact Pass.begins_visit ⟨.value, left⟩ fun _ =>
        Pass.begins_visit ⟨.value, right⟩ fun _ => trivial
  | arithmetic op left right =>
      exact Pass.begins_visit ⟨.value, left⟩ fun _ =>
        Pass.begins_visit ⟨.value, right⟩ fun _ => trivial
  | between subject low high =>
      exact Pass.begins_visit ⟨.value, subject⟩ fun _ =>
        Pass.begins_visit ⟨.value, low⟩ fun _ =>
          Pass.begins_visit ⟨.value, high⟩ fun _ => trivial
  | member subject items =>
      exact Pass.begins_visit ⟨.value, subject⟩ fun _ => resolveItems_begins items _
  | call name arguments => exact call_begins name arguments

end Node

end Visiting

end ConeFilter
