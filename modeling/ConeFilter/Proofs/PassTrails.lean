import ConeFilter.Proofs.ConeAccounting
import ConeFilter.Proofs.EventTallies

/-!
The events of a pass. The trail of a tree lists what there is to report about it
in the order of its nodes: the depth of every column and the number of every
cone call. A pass goes along the trail of its tree. When it returns it has
reported the whole trail, and when it fails it has stopped somewhere on it, so
two passes over one tree never disagree about what comes next.
-/
namespace ConeFilter

namespace Node

def isConeCall : Node → Bool
  | .call name _ => isConeName name
  | _ => false

/-- What a node reports when the nodes below it are done and `first` cones were recorded. -/
def mark (first : Nat) : Node → List Event
  | .column path => [.fieldResolved (path.length - 1)]
  | .call name _ => if isConeName name then [.coneRecorded first] else []
  | _ => []

/-- The reports of several nodes; cone calls are numbered from `first` on. -/
def trailFrom (first : Nat) : List Node → List Event
  | [] => []
  | node :: rest => node.mark first ++ trailFrom (first + [node].countP isConeCall) rest

def trail (node : Node) : List Event := trailFrom 0 node.subtrees

theorem trailFrom_append (first : Nat) (nodes rest : List Node) :
    trailFrom first (nodes ++ rest) =
      trailFrom first nodes ++ trailFrom (first + nodes.countP isConeCall) rest := by
  induction nodes generalizing first with
  | nil => rfl
  | cons node nodes ih =>
      have counted : (node :: nodes).countP isConeCall =
          [node].countP isConeCall + nodes.countP isConeCall := by
        rw [← List.countP_append]
        rfl
      rw [List.cons_append, trailFrom, trailFrom, ih, counted, List.append_assoc, Nat.add_assoc]

/-- Nodes that report nothing may stand anywhere on the way. -/
def Silent (node : Node) : Prop := node.isConeCall = false ∧ ∀ first, node.mark first = []

theorem trailFrom_silent {node : Node} (silent : node.Silent) (first : Nat) (nodes : List Node) :
    trailFrom first (nodes ++ [node]) = trailFrom first nodes := by
  rw [trailFrom_append, trailFrom, trailFrom, silent.2, List.append_nil, List.append_nil]

theorem countP_silent {node : Node} (silent : node.Silent) (nodes : List Node) :
    (nodes ++ [node]).countP isConeCall = nodes.countP isConeCall := by
  simp [List.countP_append, silent.1]

end Node

/-! Passes along the trail of a list of nodes. -/

section Following
variable {α β : Type}

/-- What a pass that returns has added is the whole trail, and what one that fails has added
is a beginning of it. -/
def Progress.Along (before : Progress) (nodes : List Node) :
    Except Failure α × Progress → Prop
  | (.ok _, after) =>
      after.events = before.events ++ Node.trailFrom before.cones.length nodes ∧
        after.cones.length = before.cones.length + nodes.countP Node.isConeCall
  | (.error _, after) => ∃ events, after.events = before.events ++ events ∧
      events <+: Node.trailFrom before.cones.length nodes

def Pass.Follows (pass : Pass α) (nodes : List Node) : Prop :=
  ∀ before : Progress, before.Along nodes (pass.runFrom before)

namespace Pass

theorem follows_pure (value : α) : (pure value : Pass α).Follows [] :=
  fun _ => ⟨(List.append_nil _).symm, rfl⟩

theorem follows_throw (failure : Failure) (nodes : List Node) :
    (throw failure : Pass α).Follows nodes :=
  fun _ => ⟨[], (List.append_nil _).symm, List.nil_prefix⟩

theorem follows_require (outcome : Except Failure α) : (require outcome).Follows [] := by
  cases outcome with
  | ok value => exact follows_pure value
  | error failure => exact follows_throw failure []

theorem follows_bind {pass : Pass α} {next : α → Pass β} {nodes rest : List Node}
    (first : pass.Follows nodes) (later : ∀ value, (next value).Follows rest) :
    (pass >>= next).Follows (nodes ++ rest) := by
  intro before
  have begun := first before
  rw [runFrom_bind]
  generalize pass.runFrom before = outcome at begun ⊢
  rcases outcome with ⟨failure | value, between⟩
  · obtain ⟨events, added, along⟩ := begun
    refine ⟨events, added, along.trans ?_⟩
    rw [Node.trailFrom_append]
    exact List.prefix_append _ _
  · obtain ⟨added, counted⟩ := begun
    have continued := later value between
    -- The second pass numbers its cones behind those of the first.
    simp only [Progress.Along, Node.trailFrom_append, List.countP_append, ← Nat.add_assoc,
      ← List.append_assoc, ← counted, ← added]
    generalize (next value).runFrom between = outcome at continued ⊢
    rcases outcome with ⟨failure | result, after⟩
    · obtain ⟨events, joined, onward⟩ := continued
      refine ⟨Node.trailFrom before.cones.length nodes ++ events, ?_, ?_⟩
      · rw [joined, added, List.append_assoc]
      · exact (List.prefix_append_right_inj _).mpr onward
    · exact continued

theorem follows_silent {pass : Pass α} {nodes : List Node} {node : Node}
    (follows : pass.Follows nodes) (silent : node.Silent) : pass.Follows (nodes ++ [node]) := by
  intro before
  simp only [Progress.Along, Node.trailFrom_silent silent, Node.countP_silent silent]
  exact follows before

theorem follows_column (scope : Scope) (path : List String) :
    (column scope path).Follows [.column path] := by
  intro before
  change before.Along _ ((scope.column path).1,
    { before with events := before.events ++ (scope.column path).2 })
  unfold Scope.column
  cases Scope.walk scope.catalog scope.model path with
  | ok _ => exact ⟨rfl, rfl⟩
  | error failure => exact ⟨[], rfl, List.nil_prefix⟩

theorem follows_recordCone (cone : Cone) (name : String) (arguments : List Node)
    (named : isConeName name = true) : (recordCone cone).Follows [.call name arguments] := by
  intro before
  have reported : Node.trailFrom before.cones.length [.call name arguments] =
      [.coneRecorded before.cones.length] := by
    simp [Node.trailFrom, Node.mark, named]
  have counted : [Node.call name arguments].countP Node.isConeCall = 1 := by
    simp [Node.isConeCall, named]
  constructor
  · rw [reported]
  · rw [counted]
    exact List.length_append

/-- A child is resolved and checked before the rest of the pass goes on. -/
theorem follows_checked {pass : Pass α} {nodes rest : List Node} {γ : Type}
    (child : pass.Follows nodes) (check : α → Except Failure γ) {next : γ → Pass β}
    (later : ∀ checked, (next checked).Follows rest) :
    (pass >>= fun value => require (check value) >>= next).Follows (nodes ++ rest) :=
  follows_bind child fun value => follows_bind (follows_require (check value)) later

theorem follows_last {pass : Pass α} {nodes : List Node} {γ : Type}
    (child : pass.Follows nodes) (check : α → Except Failure γ) {next : γ → Pass β}
    (later : ∀ checked, (next checked).Follows []) :
    (pass >>= fun value => require (check value) >>= next).Follows nodes := by
  have checked := follows_checked child check later
  rwa [List.append_nil] at checked

end Pass

end Following

/-! Nodes one by one. All but columns and cone calls are silent. -/

namespace Node
variable (scope : Scope)

theorem resolveItems_follows (items : List Node)
    (along : ∀ item ∈ items, (item.resolve scope).Follows item.subtrees) :
    (resolveItems scope items).Follows (forest items) := by
  induction items with
  | nil => exact Pass.follows_pure []
  | cons item rest ih =>
      obtain ⟨head, tail⟩ := List.forall_mem_cons.mp along
      refine Pass.follows_checked head Resolved.toListed fun value => ?_
      rw [← List.append_nil (forest rest)]
      exact Pass.follows_bind (ih tail) fun values => Pass.follows_pure (value :: values)

/-- A literal below a minus sign is read in place, and reports as little as it would alone. -/
theorem negate_follows (operand : Node) (along : (operand.resolve scope).Follows operand.subtrees) :
    ((negate operand).resolve scope).Follows operand.subtrees := by
  by_cases read : ∃ kind raw, operand = .literal kind raw
  · obtain ⟨kind, raw, rfl⟩ := read
    have typed : ((negate (.literal kind raw)).resolve scope).Follows [] := by
      unfold resolve
      split
      · exact Pass.follows_bind (Pass.follows_require _) fun value => Pass.follows_require _
      · exact Pass.follows_bind (Pass.follows_require _) fun value => Pass.follows_pure _
    exact Pass.follows_silent typed ⟨rfl, fun _ => rfl⟩
  · have unread : ∀ kind raw, operand ≠ .literal kind raw :=
      fun kind raw same => read ⟨kind, raw, same⟩
    rw [resolve_negate scope operand unread, ← List.append_nil operand.subtrees]
    exact Pass.follows_bind along fun resolved => Pass.follows_require resolved.negate

theorem equality_follows (op : Equality) (left right : Node)
    (leftAlong : (left.resolve scope).Follows left.subtrees)
    (rightAlong : (right.resolve scope).Follows right.subtrees) :
    ((equality op left right).resolve scope).Follows (left.subtrees ++ right.subtrees) := by
  by_cases bare : right = .null
  · subst bare
    refine Pass.follows_silent ?_ ⟨rfl, fun _ => rfl⟩
    exact Pass.follows_last leftAlong Resolved.toOperand fun _ => Pass.follows_pure _
  · rw [resolve_equality scope op left right bare]
    refine Pass.follows_checked leftAlong Resolved.toOperand fun _ => ?_
    exact Pass.follows_last rightAlong Resolved.toOperand fun _ => Pass.follows_pure _

/-- The number of arguments is checked first, so a call that fails there has reported nothing. -/
theorem call_follows (name : String) (arguments : List Node)
    (along : ∀ argument ∈ arguments, (argument.resolve scope).Follows argument.subtrees) :
    ((call name arguments).resolve scope).Follows (call name arguments).subtrees := by
  unfold resolve
  split
  · rename_i named
    split
    · rename_i ra dec radius
      have laid : (call name [ra, dec, radius]).subtrees =
          ra.subtrees ++ (dec.subtrees ++ (radius.subtrees ++ [call name [ra, dec, radius]])) := by
        simp [subtrees, forest]
      rw [laid]
      refine Pass.follows_checked (along ra (by simp)) (Resolved.toConeArgument .ra) fun _ => ?_
      refine Pass.follows_checked (along dec (by simp)) (Resolved.toConeArgument .dec) fun _ => ?_
      refine Pass.follows_checked (along radius (by simp)) (Resolved.toConeArgument .radius)
        fun _ => ?_
      exact Pass.follows_bind (Pass.follows_recordCone _ name _ named) fun _ => Pass.follows_pure _
    · exact Pass.follows_throw _ _
  · exact Pass.follows_throw _ _

theorem resolve_follows (node : Node) : (node.resolve scope).Follows node.subtrees := by
  induction node with
  | literal kind raw =>
      have typed := Pass.follows_bind (Pass.follows_require (typeLiteral kind raw)) fun value =>
        Pass.follows_pure (Resolved.operand (.literal value))
      exact Pass.follows_silent typed ⟨rfl, fun _ => rfl⟩
  | column path =>
      exact Pass.follows_bind (Pass.follows_column scope path) fun name =>
        Pass.follows_pure (Resolved.operand (.field name))
  | quoted path =>
      have named : ((quoted path).resolve scope).Follows [] := by
        unfold resolve
        split
        · exact Pass.follows_pure _
        · exact Pass.follows_throw _ []
      exact Pass.follows_silent named ⟨rfl, fun _ => rfl⟩
  | null => exact Pass.follows_throw _ _
  | negate operand ih =>
      exact Pass.follows_silent (negate_follows scope operand ih) ⟨rfl, fun _ => rfl⟩
  | not condition ih =>
      refine Pass.follows_silent ?_ ⟨rfl, fun _ => rfl⟩
      exact Pass.follows_last ih Resolved.toPredicate fun _ => Pass.follows_pure _
  | nested inner ih => exact Pass.follows_silent ih ⟨rfl, fun _ => rfl⟩
  | connect op left right leftAlong rightAlong =>
      refine Pass.follows_silent ?_ ⟨rfl, fun _ => rfl⟩
      refine Pass.follows_checked leftAlong Resolved.toPredicate fun _ => ?_
      exact Pass.follows_last rightAlong Resolved.toPredicate fun _ => Pass.follows_pure _
  | equality op left right leftAlong rightAlong =>
      refine Pass.follows_silent ?_ ⟨rfl, fun _ => rfl⟩
      exact equality_follows scope op left right leftAlong rightAlong
  | relate op left right leftAlong rightAlong =>
      refine Pass.follows_silent ?_ ⟨rfl, fun _ => rfl⟩
      refine Pass.follows_checked leftAlong Resolved.toOperand fun _ => ?_
      exact Pass.follows_last rightAlong Resolved.toOperand fun _ => Pass.follows_pure _
  | arithmetic op left right leftAlong rightAlong =>
      refine Pass.follows_silent ?_ ⟨rfl, fun _ => rfl⟩
      refine Pass.follows_checked leftAlong Resolved.toOperand fun _ => ?_
      refine Pass.follows_last rightAlong Resolved.toOperand fun _ => ?_
      exact Pass.follows_bind (Pass.follows_require _) fun _ => Pass.follows_pure _
  | between subject low high subjectAlong lowAlong highAlong =>
      refine Pass.follows_silent ?_ ⟨rfl, fun _ => rfl⟩
      rw [List.append_assoc]
      refine Pass.follows_checked subjectAlong Resolved.toOperand fun _ => ?_
      refine Pass.follows_checked lowAlong Resolved.toOperand fun _ => ?_
      exact Pass.follows_last highAlong Resolved.toOperand fun _ => Pass.follows_pure _
  | member subject items subjectAlong itemsAlong =>
      refine Pass.follows_silent ?_ ⟨rfl, fun _ => rfl⟩
      refine Pass.follows_checked subjectAlong Resolved.toOperand fun _ => ?_
      rw [← List.append_nil (forest items)]
      exact Pass.follows_bind (resolveItems_follows scope items itemsAlong) fun _ =>
        Pass.follows_pure _
  | call name arguments along => exact call_follows scope name arguments along
  | unsupported text => exact Pass.follows_throw _ _

end Node

namespace Node

theorem countP_mark (node : Node) (first : Nat) :
    (node.mark first).countP Event.isCone = [node].countP isConeCall := by
  cases node with
  | call name arguments =>
      cases named : isConeName name <;> simp [mark, isConeCall, named, Event.isCone]
  | _ => rfl

theorem countP_trailFrom (first : Nat) (nodes : List Node) :
    (trailFrom first nodes).countP Event.isCone = nodes.countP isConeCall := by
  induction nodes generalizing first with
  | nil => rfl
  | cons node rest ih =>
      rw [trailFrom, List.countP_append, countP_mark, ih, ← List.countP_append]
      rfl

/-- Whether it returns or fails, a pass has kept to the trail of its tree. -/
theorem events_prefix (scope : Scope) (node : Node) :
    ((node.resolve scope).runFrom {}).2.events <+: node.trail := by
  have along := node.resolve_follows scope {}
  generalize (node.resolve scope).runFrom {} = outcome at along ⊢
  rcases outcome with ⟨failure | value, after⟩
  · obtain ⟨events, added, onward⟩ := along
    rw [added]
    exact onward
  · rw [along.1]
    exact List.prefix_rfl

theorem mem_trailFrom (first : Nat) (nodes : List Node) (event : Event)
    (reported : event ∈ trailFrom first nodes) : event.isField ∨ event.isCone := by
  induction nodes generalizing first with
  | nil => cases reported
  | cons node rest ih =>
      rcases List.mem_append.mp reported with here | later
      · unfold mark at here
        split at here
        · exact .inl (List.mem_singleton.mp here ▸ rfl)
        · split at here
          · exact .inr (List.mem_singleton.mp here ▸ rfl)
          · cases here
        · cases here
      · exact ih _ later

/-- Between its start and its end a pass reports columns and cones, and nothing else. -/
theorem events_inner (scope : Scope) (node : Node) :
    ∀ event ∈ ((node.resolve scope).runFrom {}).2.events, event.isField ∨ event.isCone :=
  fun event reported =>
    mem_trailFrom 0 node.subtrees event ((node.events_prefix scope).subset reported)

end Node

namespace Scope

/-- A pass reports its start, the trail of its tree as far as it came, and how it ended. -/
theorem events_follow_trail (scope : Scope) (node : Node) :
    match scope.resolve node with
    | (.ok resolution, events) =>
        events = .started scope.model :: node.trail ++
            [.finished scope.model resolution.extra.cones.length] ∧
          resolution.extra.cones.length = node.trail.countP Event.isCone
    | (.error failure, events) => ∃ body, body <+: node.trail ∧
        events = .started scope.model :: body ++ [.failed scope.model failure.kind] := by
  have along := node.resolve_follows scope {}
  unfold resolve
  unfold Pass.runFrom at along
  generalize (node.resolve scope).run.run {} = outcome at along ⊢
  rcases outcome with ⟨failure | value, after⟩
  · obtain ⟨events, added, onward⟩ := along
    have body : after.events = events := added
    exact ⟨events, onward, by rw [body]⟩
  · obtain ⟨added, counted⟩ := along
    have body : after.events = node.trail := added
    refine ⟨by rw [body], ?_⟩
    rw [Node.trail, Node.countP_trailFrom, counted]
    exact Nat.zero_add _

end Scope

example : twoCones.trail = [.coneRecorded 0, .fieldResolved 0, .coneRecorded 1] := by decide

end ConeFilter
