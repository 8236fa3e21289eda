import ConeFilter.Proofs.ChildVisits
import ConeFilter.Proofs.ConeAccounting
import ConeFilter.Proofs.TreePositions

/-!
Where a failure comes from. It has one origin: a node that fails in its own step after all its
visits, or a child whose result is refused. What stands to the right of the origin was never
looked at, and may be exchanged for anything. Two nodes look at a child without visiting it, and
neither depends on it for what it demands of the children in front.
-/
namespace ConeFilter

/-! Origins. A failure is passed up as it is, so the origin in a child is one in its parent. -/

inductive FailsAt (scope : Scope) : Progress → Node → Position → Failure → Progress → Prop where
  -- The node has what it needs from its children, and fails all the same.
  | own {before between after : Progress} {node : Node} {failure : Failure}
      (visited : Accepts scope node.visits before between)
      (failed : (node.resolve scope).runFrom before = (.error failure, after)) :
      FailsAt scope before node [] failure after
  -- The child is resolved, and the node refuses what came out of it.
  | refused {before between after : Progress} {node : Node} {index : Nat} {visit : Visit}
      {resolved : Resolved} {failure : Failure}
      (reached : Reaches scope node.visits index visit before between)
      (returned : (visit.child.resolve scope).Returns between resolved after)
      (refused : visit.demand.check resolved = .error failure) :
      FailsAt scope before node [index] failure after
  | inside {before between after : Progress} {node : Node} {index : Nat} {visit : Visit}
      {position : Position} {failure : Failure}
      (reached : Reaches scope node.visits index visit before between)
      (origin : FailsAt scope between visit.child position failure after) :
      FailsAt scope before node (index :: position) failure after

section Origins
variable {scope : Scope} {node : Node} {position : Position} {before after : Progress}
  {failure : Failure}

/-- Every node on the way up passes the failure on. -/
theorem FailsAt.fails (origin : FailsAt scope before node position failure after) :
    (node.resolve scope).runFrom before = (.error failure, after) := by
  induction origin with
  | own _ failed => exact failed
  | @refused _ _ _ node _ _ resolved _ reached returned refused =>
      have stopped := Visit.fails_iff.mpr (.inr ⟨resolved, returned, refused⟩)
      exact Pass.begins_fails node.resolve_begins reached stopped
  | @inside _ _ _ node _ _ _ _ reached _ failed =>
      exact Pass.begins_fails node.resolve_begins reached (Visit.fails_iff.mpr (.inl failed))

/-- The failing child is found by going down the visits that fail. -/
theorem Node.exists_failsAt (node : Node)
    (failed : (node.resolve scope).runFrom before = (.error failure, after)) :
    ∃ position, FailsAt scope before node position failure after := by
  induction node using Node.child_induction generalizing before with
  | step node ih =>
      rcases Pass.begins_cases node.resolve_begins failed with
        ⟨between, all⟩ | ⟨index, visit, between, reached, stopped⟩
      · exact ⟨[], .own all failed⟩
      · rcases Visit.fails_iff.mp stopped with below | ⟨resolved, returned, refused⟩
        · have child := List.mem_of_getElem? (Node.mem_visits reached.found).1
          obtain ⟨position, origin⟩ := ih visit.child child below
          exact ⟨index :: position, .inside reached origin⟩
        · exact ⟨[index], .refused reached returned refused⟩

/-- An origin below the root lies in a visit that is reached and fails. -/
theorem FailsAt.stops {index : Nat}
    (origin : FailsAt scope before node (index :: position) failure after) :
    ∃ visit between, Reaches scope node.visits index visit before between ∧
      (visit.pass scope).runFrom between = (.error failure, after) := by
  cases origin with
  | refused reached returned refused =>
      exact ⟨_, _, reached, Visit.fails_iff.mpr (.inr ⟨_, returned, refused⟩)⟩
  | inside reached origin => exact ⟨_, _, reached, Visit.fails_iff.mpr (.inl origin.fails)⟩

/-- Both go down into the one visit that stops, and there its child has failed or returned. -/
theorem FailsAt.unique {other : Position} {cause : Failure} {last : Progress}
    (origin : FailsAt scope before node position failure after)
    (again : FailsAt scope before node other cause last) : position = other := by
  induction origin generalizing other with
  | own visited _ =>
      cases other with
      | nil => rfl
      | cons index rest =>
          obtain ⟨visit, between, reached, stopped⟩ := again.stops
          exact absurd stopped (visited.not_fails reached)
  | refused reached returned refused =>
      have stopped := Visit.fails_iff.mpr (.inr ⟨_, returned, refused⟩)
      cases again with
      | own visited _ => exact absurd stopped (visited.not_fails reached)
      | refused reachedToo returnedToo refusedToo =>
          have stoppedToo := Visit.fails_iff.mpr (.inr ⟨_, returnedToo, refusedToo⟩)
          obtain ⟨rfl, -⟩ := reached.unique stopped reachedToo stoppedToo
          rfl
      | inside reachedToo originToo =>
          have stoppedToo := Visit.fails_iff.mpr (.inl originToo.fails)
          obtain ⟨rfl, rfl, rfl⟩ := reached.unique stopped reachedToo stoppedToo
          exact absurd (returned.symm.trans originToo.fails) (by simp)
  | inside reached origin ih =>
      have stopped := Visit.fails_iff.mpr (.inl origin.fails)
      cases again with
      | own visited _ => exact absurd stopped (visited.not_fails reached)
      | refused reachedToo returnedToo refusedToo =>
          have stoppedToo := Visit.fails_iff.mpr (.inr ⟨_, returnedToo, refusedToo⟩)
          obtain ⟨rfl, rfl, rfl⟩ := reached.unique stopped reachedToo stoppedToo
          exact absurd (returnedToo.symm.trans origin.fails) (by simp)
      | inside reachedToo originToo =>
          have stoppedToo := Visit.fails_iff.mpr (.inl originToo.fails)
          obtain ⟨rfl, rfl, rfl⟩ := reached.unique stopped reachedToo stoppedToo
          rw [ih originToo]

end Origins

/-! Replacements to the right of an origin. -/

namespace Node

/-- What a parent sees of a child without resolving it is the same. -/
def Resembles (child other : Node) : Prop :=
  (other = .null ↔ child = .null) ∧
    ∀ kind raw, other = .literal kind raw ↔ child = .literal kind raw

theorem resembles_refl (node : Node) : node.Resembles node := ⟨Iff.rfl, fun _ _ => Iff.rfl⟩

theorem resembles_replaceAt (node new : Node) (index : Nat) (rest : Position) :
    node.Resembles (node.replaceAt (index :: rest) new) :=
  ⟨node.withChildren_null _, node.withChildren_literal _⟩

theorem demands_negate_congr {inner other : Node} (alike : inner.Resembles other) :
    (negate other).demands = (negate inner).demands := by
  by_cases read : ∃ kind raw, inner = .literal kind raw
  · obtain ⟨kind, raw, literal⟩ := read
    rw [literal, (alike.2 kind raw).mpr literal]
  · have unread : ∀ kind raw, inner ≠ .literal kind raw :=
      fun kind raw same => read ⟨kind, raw, same⟩
    have unreadToo : ∀ kind raw, other ≠ .literal kind raw :=
      fun kind raw => (alike.2 kind raw).not.mpr (unread kind raw)
    rw [demands_negate unread, demands_negate unreadToo]

theorem demands_equality_congr (op : Equality) (left other : Node) {right later : Node}
    (alike : right.Resembles later) :
    (equality op other later).demands = (equality op left right).demands := by
  by_cases bare : right = .null
  · rw [bare, alike.1.mpr bare]
    rfl
  · rw [demands_equality op left bare, demands_equality op other (alike.1.not.mpr bare)]

/-- The left side has to be a value, whether or not the right side is NULL. -/
theorem demands_equality_first (op : Equality) (left right : Node) :
    (equality op left right).demands.take 1 = [.value] := by
  by_cases bare : right = .null
  · rw [bare]
    rfl
  · rw [demands_equality op left bare]
    rfl

/-- What is demanded of a child does not depend on the children behind it. -/
theorem demands_withChildren (node : Node) (others : List Node)
    (fits : others.length = node.children.length) (index : Nat)
    (same : others.take index = node.children.take index)
    (alike : ∀ child other, node.children[index]? = some child → others[index]? = some other →
      child.Resembles other) :
    (node.withChildren others).demands.take (index + 1) = node.demands.take (index + 1) := by
  cases node with
  | literal _ _ | column _ | quoted _ | null | unsupported _ =>
      rw [List.length_eq_zero_iff.mp fits]
      rfl
  | negate inner =>
      obtain ⟨other, rfl⟩ := List.length_eq_one_iff.mp fits
      cases index with
      | zero => exact congrArg _ (demands_negate_congr (alike inner other rfl rfl))
      | succ index =>
          obtain ⟨rfl, -⟩ := List.cons.inj same
          rfl
  | not _ | nested _ =>
      obtain ⟨other, rfl⟩ := List.length_eq_one_iff.mp fits
      rfl
  | equality op left right =>
      obtain ⟨other, later, rfl⟩ := List.length_eq_two.mp fits
      -- A NULL on the right changes the sort of test, but not what the left side has to be.
      cases index with
      | zero =>
          exact (demands_equality_first op other later).trans
            (demands_equality_first op left right).symm
      | succ index =>
          cases index with
          | zero =>
              exact congrArg _ (demands_equality_congr op left other (alike right later rfl rfl))
          | succ index =>
              cases same
              rfl
  | connect _ _ _ | relate _ _ _ | arithmetic _ _ _ =>
      obtain ⟨other, later, rfl⟩ := List.length_eq_two.mp fits
      rfl
  | between _ _ _ =>
      obtain ⟨subject, low, high, rfl⟩ := List.length_eq_three.mp fits
      rfl
  | member _ items =>
      obtain ⟨subject, others, rfl⟩ := List.exists_cons_of_length_eq_add_one fits
      have counted : others.length = items.length := Nat.succ.inj fits
      simp [withChildren, demands, counted]
  | call name arguments =>
      have counted : others.length = arguments.length := fits
      simp [withChildren, demands, counted]

end Node

section Replacing
variable {scope : Scope} {node : Node} {position : Position} {before between after : Progress}
  {failure : Failure} {index : Nat} {visit : Visit}

/-- Other children from the index on leave the visits in front of it as they were. -/
theorem Reaches.withChildren {others : List Node} {other : Node}
    (reached : Reaches scope node.visits index visit before between)
    (fits : others.length = node.children.length)
    (same : others.take index = node.children.take index) (found : others[index]? = some other)
    (alike : visit.child.Resembles other) :
    Reaches scope (node.withChildren others).visits index ⟨visit.demand, other⟩ before between := by
  obtain ⟨below, demanded⟩ := Node.mem_visits reached.found
  have demands : (node.withChildren others).demands.take (index + 1) =
      node.demands.take (index + 1) := by
    refine node.demands_withChildren others fits index same fun child new childFound newFound => ?_
    cases below.symm.trans childFound
    cases found.symm.trans newFound
    exact alike
  have visits : (node.withChildren others).visits =
      List.zipWith Visit.mk (node.withChildren others).demands others := by
    rw [Node.visits, node.children_withChildren others fits]
  have front : (node.withChildren others).demands.take index = node.demands.take index := by
    have shorter := congrArg (List.take index) demands
    rwa [List.take_take, List.take_take, Nat.min_eq_left (Nat.le_succ index)] at shorter
  refine reached.transfer ?_ ?_
  · rw [visits, List.take_zipWith, front, same, Node.visits, List.take_zipWith]
  · have here : (node.withChildren others).demands[index]? = some visit.demand := by
      rw [← List.getElem?_take_of_lt (Nat.lt_succ_self index), demands,
        List.getElem?_take_of_lt (Nat.lt_succ_self index), demanded]
    rw [visits]
    exact List.getElem?_zipWith_eq_some.mpr ⟨_, _, here, found, rfl⟩

/-- A replacement behind the child leaves the child and its visit alone. -/
theorem Reaches.behind (new : Node) {later : Nat} (rest : Position)
    (reached : Reaches scope node.visits index visit before between) (order : index < later) :
    Reaches scope (node.replaceAt (later :: rest) new).visits index visit before between := by
  have found : node.children[index]? = some visit.child := (Node.mem_visits reached.found).1
  refine reached.withChildren (List.length_modify ..) ?_ ?_ visit.child.resembles_refl
  · rw [List.take_modify, List.modify_eq_self]
    exact Nat.le_trans (List.length_take_le ..) (Nat.le_of_lt order)
  · rw [List.getElem?_modify, found]
    simp [Nat.ne_of_gt order]

theorem Reaches.within (new : Node) {rest more : Position}
    (reached : Reaches scope node.visits index visit before between)
    (below : rest.Precedes more) :
    Reaches scope (node.replaceAt (index :: more) new).visits index
      ⟨visit.demand, visit.child.replaceAt more new⟩ before between := by
  have found : node.children[index]? = some visit.child := (Node.mem_visits reached.found).1
  refine reached.withChildren (List.length_modify ..) ?_ ?_ ?_
  · rw [List.take_modify, List.modify_eq_self]
    exact List.length_take_le ..
  · rw [List.getElem?_modify, found]
    simp
  -- The place lies below the child, which therefore keeps its kind.
  · cases below with
    | parts _ | shares _ => exact visit.child.resembles_replaceAt new _ _

/-- The step: one replacement, in a later child or deeper in the child of the origin. -/
theorem FailsAt.replaceAt {place : Position} (new : Node)
    (origin : FailsAt scope before node position failure after)
    (precedes : position.Precedes place) :
    FailsAt scope before (node.replaceAt place new) position failure after := by
  induction origin generalizing place with
  | own _ _ => cases precedes
  | @refused _ _ _ node index visit _ _ reached returned refused =>
      cases precedes with
      | parts order => exact .refused (reached.behind new _ order) returned refused
      | shares below => cases below
  | @inside _ _ _ node index visit _ _ reached origin ih =>
      cases precedes with
      | parts order => exact .inside (reached.behind new _ order) origin
      | shares below => exact .inside (reached.within new below) (ih below)

/-- The run: the origin stays where it is under every replacement in turn. -/
theorem FailsAt.replaceAll (replacements : List (Position × Node))
    (origin : FailsAt scope before node position failure after)
    (behind : ∀ replaced ∈ replacements, position.Precedes replaced.1) :
    FailsAt scope before (node.replaceAll replacements) position failure after := by
  induction replacements generalizing node with
  | nil => exact origin
  | cons replaced rest ih =>
      obtain ⟨first, later⟩ := List.forall_mem_cons.mp behind
      exact ih (origin.replaceAt replaced.2 first) later

end Replacing

namespace Scope

/-- A whole pass over the tree fails, and the failure comes from the position. -/
def Originates (scope : Scope) (node : Node) (position : Position) (failure : Failure) : Prop :=
  ∃ after, FailsAt scope {} node position failure after

theorem resolve_failed (scope : Scope) (node : Node) (failure : Failure) (after : Progress)
    (failed : (node.resolve scope).runFrom {} = (.error failure, after)) :
    scope.resolve node = (.error failure,
      .started scope.model :: after.events ++ [.failed scope.model failure.kind]) := by
  unfold Pass.runFrom at failed
  rw [resolve, failed]

theorem exists_failed (scope : Scope) (node : Node) (failure : Failure)
    (failed : (scope.resolve node).1 = .error failure) :
    ∃ after, (node.resolve scope).runFrom {} = (.error failure, after) := by
  unfold resolve at failed
  unfold Pass.runFrom
  rcases outcome : (node.resolve scope).run.run {} with ⟨cause | resolved, after⟩
  · rw [outcome] at failed
    cases failed
    exact ⟨after, rfl⟩
  · rw [outcome] at failed
    cases failed

/-- A failed pass fails at one position, and sees nothing to the right of it. -/
theorem leftmost_failure_wins (scope : Scope) (node : Node) (failure : Failure)
    (failed : (scope.resolve node).1 = .error failure) :
    ∃ position, (∀ other cause,
        scope.Originates node other cause ↔ other = position ∧ cause = failure) ∧
      ∀ replacements : List (Position × Node),
        (∀ replaced ∈ replacements, position.Precedes replaced.1) →
        scope.resolve (node.replaceAll replacements) = scope.resolve node := by
  obtain ⟨after, stopped⟩ := scope.exists_failed node failure failed
  obtain ⟨position, origin⟩ := node.exists_failsAt stopped
  refine ⟨position, fun other cause => ⟨?_, ?_⟩, fun replacements behind => ?_⟩
  · rintro ⟨last, again⟩
    have same := again.fails.symm.trans stopped
    cases same
    exact ⟨again.unique origin, rfl⟩
  · rintro ⟨rfl, rfl⟩
    exact ⟨after, origin⟩
  · have replaced := (origin.replaceAll replacements behind).fails
    rw [scope.resolve_failed _ failure after replaced, scope.resolve_failed _ failure after stopped]

end Scope

/-! A list with a column that the model lacks, between a cone and more that cannot be resolved. -/

def listedColumn : Node :=
  .connect .or
    (.connect .and (.call "cone" (integers ["1", "2", "3"]))
      (.member (.column ["mag"]) [.literal .integer "1", .column ["nope"], .null]))
    (.call "cone" (integers ["1", "2"]))

def listedColumnReplaced : Node :=
  .connect .or
    (.connect .and (.call "cone" (integers ["1", "2", "3"]))
      (.member (.column ["mag"])
        [.literal .integer "1", .column ["nope"], .call "cone" (integers ["4", "5", "6"])]))
    (.unsupported "x")

def listedColumnFailed : Except Failure Resolution × List Event :=
  (.error (.unknownField "nope"),
    [.started "Star", .coneRecorded 0, .fieldResolved 0, .failed "Star" .unknownField])

theorem listedColumn_resolve : starScope.resolve listedColumn = listedColumnFailed := rfl

theorem listedColumn_originates :
    starScope.Originates listedColumn [0, 1, 2] (.unknownField "nope") := by
  constructor
  apply FailsAt.inside .here
  apply FailsAt.inside
  · exact .later rfl .here
  apply FailsAt.inside
  · exact .later rfl (.later rfl .here)
  exact .own .nil rfl

theorem listedColumn_unseen :
    starScope.resolve listedColumnReplaced = listedColumnFailed := by
  obtain ⟨position, origins, unseen⟩ := starScope.leftmost_failure_wins listedColumn
    (.unknownField "nope") (congrArg Prod.fst listedColumn_resolve)
  obtain ⟨rfl, -⟩ := (origins _ _).mp listedColumn_originates
  rw [← listedColumn_resolve]
  refine unseen [([0, 1, 3], .call "cone" (integers ["4", "5", "6"])), ([1], .unsupported "x")] ?_
  rintro replaced (_ | ⟨_, _ | ⟨_, ⟨⟩⟩⟩)
  · exact .shares (.shares (.parts (by decide)))
  · exact .parts (by decide)

end ConeFilter
