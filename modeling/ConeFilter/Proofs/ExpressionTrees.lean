import ConeFilter.Resolution.Pass

/-!
Trees as a whole. The nodes of a tree are listed in the order in which a pass
finishes with them: from left to right, and each after the nodes below it. What
a property reads off a tree (its columns, its cone calls) is picked from that
list, so one law of the list serves them all.
-/
namespace ConeFilter.Node

/-- Induction that hands over the items of a list and the arguments of a call one by one. -/
@[induction_eliminator]
theorem childwise_induction {motive : Node → Prop}
    (literal : ∀ kind raw, motive (.literal kind raw))
    (column : ∀ path, motive (.column path))
    (quoted : ∀ path, motive (.quoted path))
    (null : motive .null)
    (negate : ∀ operand, motive operand → motive (.negate operand))
    (not : ∀ condition, motive condition → motive (.not condition))
    (nested : ∀ inner, motive inner → motive (.nested inner))
    (connect : ∀ op left right, motive left → motive right → motive (.connect op left right))
    (equality : ∀ op left right, motive left → motive right → motive (.equality op left right))
    (relate : ∀ op left right, motive left → motive right → motive (.relate op left right))
    (arithmetic : ∀ op left right, motive left → motive right →
      motive (.arithmetic op left right))
    (between : ∀ subject low high, motive subject → motive low → motive high →
      motive (.between subject low high))
    (member : ∀ subject items, motive subject → (∀ item ∈ items, motive item) →
      motive (.member subject items))
    (call : ∀ name arguments, (∀ argument ∈ arguments, motive argument) →
      motive (.call name arguments))
    (unsupported : ∀ text, motive (.unsupported text)) (node : Node) : motive node :=
  @Node.rec motive (fun nodes => ∀ node ∈ nodes, motive node)
    literal column quoted null negate not nested connect equality relate arithmetic between
    member call unsupported (fun _ absent => by cases absent)
    (fun _ _ head tail => List.forall_mem_cons.mpr ⟨head, tail⟩) node

@[simp] def children : Node → List Node
  | .literal _ _ | .column _ | .quoted _ | .null | .unsupported _ => []
  | .negate inner | .not inner | .nested inner => [inner]
  | .connect _ left right | .equality _ left right | .relate _ left right
  | .arithmetic _ left right => [left, right]
  | .between subject low high => [subject, low, high]
  | .member subject items => subject :: items
  | .call _ arguments => arguments

mutual

def subtrees : Node → List Node
  | .negate inner => inner.subtrees ++ [.negate inner]
  | .not inner => inner.subtrees ++ [.not inner]
  | .nested inner => inner.subtrees ++ [.nested inner]
  | .connect op left right => left.subtrees ++ right.subtrees ++ [.connect op left right]
  | .equality op left right => left.subtrees ++ right.subtrees ++ [.equality op left right]
  | .relate op left right => left.subtrees ++ right.subtrees ++ [.relate op left right]
  | .arithmetic op left right => left.subtrees ++ right.subtrees ++ [.arithmetic op left right]
  | .between subject low high =>
      subject.subtrees ++ low.subtrees ++ high.subtrees ++ [.between subject low high]
  | .member subject items => subject.subtrees ++ forest items ++ [.member subject items]
  | .call name arguments => forest arguments ++ [.call name arguments]
  | leaf => [leaf]

def forest : List Node → List Node
  | [] => []
  | node :: rest => node.subtrees ++ forest rest

end

theorem forest_flat (nodes : List Node) : forest nodes = nodes.flatMap subtrees := by
  induction nodes with
  | nil => rfl
  | cons node rest ih => simp [forest, ih]

/-- The nodes below the children, then the node itself. -/
theorem subtrees_children (node : Node) :
    node.subtrees = node.children.flatMap subtrees ++ [node] := by
  cases node <;> simp [subtrees, children, forest_flat]

section Collection
variable {α : Type}

def collect (pick : Node → Option α) (node : Node) : List α := node.subtrees.filterMap pick

theorem collect_children (pick : Node → Option α) (node : Node) :
    node.collect pick = node.children.flatMap (collect pick) ++ (pick node).toList := by
  have below : (node.children.flatMap subtrees).filterMap pick =
      node.children.flatMap (collect pick) := List.filterMap_flatMap
  rw [collect, subtrees_children, List.filterMap_append, below]
  cases picked : pick node <;> simp [picked]

end Collection

/-! Columns and cone calls. A quoted identifier is no column, and a function of
another name is no cone call, but both may stand above or below one. -/

@[simp] def column? : Node → Option (List String)
  | .column path => some path
  | _ => none

@[simp] def coneArguments? : Node → Option (List Node)
  | .call name arguments => if isConeName name then some arguments else none
  | _ => none

def columns (node : Node) : List (List String) := node.collect column?

/-- The arguments of each cone call of the tree, in the order of the calls. -/
def coneCalls (node : Node) : List (List Node) := node.collect coneArguments?

theorem columns_children (node : Node) :
    node.columns = node.children.flatMap columns ++ (column? node).toList :=
  collect_children column? node

theorem coneCalls_children (node : Node) : node.coneCalls =
    node.children.flatMap coneCalls ++ (coneArguments? node).toList :=
  collect_children coneArguments? node

theorem columns_null : null.columns = [] := rfl

theorem coneCalls_null : null.coneCalls = [] := rfl

end ConeFilter.Node
