import ConeFilter.Lowering
import ConeFilter.Proofs.ExpressionTrees
import Mathlib.Data.List.Basic

/-!
What lowering keeps of an expression. Trees and expressions are both written out from left to
right, each node behind its operands, by the names, values and texts they hold and by the labels
of the nodes between them. A tree says exactly what its expression says, apart from plus signs
and from what a call has besides its name and its arguments, which no node has a place for.
-/
namespace ConeFilter

open Sql

inductive Entry where
  | names (path : List String)
  | value (raw : String)
  | null
  | kept (text : String)
  | inner (label : String)
  | clause (keywords : String)
deriving DecidableEq

namespace Node

@[simp] def entry : Node → Entry
  | .literal _ raw => .value raw
  | .column path | .quoted path => .names path
  | .null => .null
  | .unsupported text => .kept text
  | node => .inner node.label

def entries (node : Node) : List Entry := node.collect fun part => some part.entry

theorem entries_children (node : Node) :
    node.entries = node.children.flatMap entries ++ [node.entry] := collect_children _ node

end Node

/-! Expressions. Those without a counterpart are kept as their text and not looked into. -/

namespace Sql

def BinaryOp.label? : BinaryOp → Option String
  | .and => some "AND"
  | .or => some "OR"
  | .equal => some "="
  | .unequal => some "!="
  | .less => some "<"
  | .lessEqual => some "<="
  | .greater => some ">"
  | .greaterEqual => some ">="
  | .plus => some "+"
  | .minus => some "-"
  | .times => some "*"
  | .divide => some "/"
  | .matches _ | .matchesNot _ => some "pattern match"
  | .like _ | .other _ => none

def Literal.entry : Literal → Entry
  | .number digits _ => .value (withoutSeparators digits)
  | .string _ content | .national content | .escaped content => .value content
  | .null => .null
  | .verbatim text => .value text

namespace Expr

def isValue : Expr → Bool
  | .star _ | .named _ _ => false
  | _ => true

def values? : Arguments → Option (List Expr)
  | .absent => some []
  | .selection _ => none
  | .list _ values _ => if values.all isValue then some values else none

def operands? : Expr → Option (List Expr)
  | .identifier _ | .path _ | .literal _ => some []
  | .nested inner => some [inner]
  | .unary .minus operand | .unary .plus operand | .unary .not operand => some [operand]
  | .binary op left right => op.label?.map fun _ => [left, right]
  | .isNull operand | .isNotNull operand => some [operand]
  | .between _ subject low high => some [subject, low, high]
  | .inList _ subject elements => some (subject :: elements)
  | .regexp _ _ subject pattern => some [subject, pattern]
  | .call _ _ _ arguments _ => values? arguments
  | _ => none

@[simp] def negatedEntry (negated : Bool) : List Entry := if negated then [.inner "NOT"] else []

/-- What an expression with a counterpart says besides its operands. A plus sign says nothing,
and a null test and the negated forms say two things. -/
def ownEntries : Expr → List Entry
  | .identifier name => [.names [name.name]]
  | .path names => [.names (names.map Identifier.name)]
  | .literal value => [value.entry]
  | .nested _ => [.inner "parenthesized expression"]
  | .unary .minus _ => [.inner "negation"]
  | .unary .not _ => [.inner "NOT"]
  | .binary (.matchesNot _) _ _ => .inner "pattern match" :: negatedEntry true
  | .binary op _ _ => op.label?.toList.map .inner
  | .isNull _ => [.null, .inner "IS"]
  | .isNotNull _ => [.null, .inner "!="]
  | .between negated _ _ _ => .inner "BETWEEN" :: negatedEntry negated
  | .inList negated _ _ => .inner "IN" :: negatedEntry negated
  | .regexp negated _ _ _ => .inner "pattern match" :: negatedEntry negated
  | .call _ name _ _ _ => [.inner ("function '" ++ renderPath name ++ "'")]
  | _ => []

def entries (expr : Expr) : List Entry :=
  match expr.operands? with
  | none => [.kept expr.render]
  | some _ => expr.ownEntries

/-! All that is said, with the clauses of calls. Words of clauses are said as well, so a clause
says something even where no name or value stands in it. -/

def wrap (expr : Expr) (inside : List Entry) : List Entry :=
  match expr.operands? with
  | none => [.kept expr.render]
  | some _ => inside ++ expr.ownEntries

def choice {α : Type} (keyword : α → String) (chosen : Option α) : List Entry :=
  chosen.toList.map fun choice => .clause (keyword choice)

def titled (keywords : String) (entries : List Entry) : List Entry :=
  if entries.isEmpty then [] else .clause keywords :: entries

def modeEntries : CallMode → List Entry
  | .plain => []
  | .all => [.clause "ALL"]
  | .distinct => [.clause "DISTINCT"]

mutual

def inside : Expr → List Entry
  | .nested inner | .unary _ inner | .isNull inner | .isNotNull inner => inner.wrap inner.inside
  | .binary _ left right | .regexp _ _ left right =>
      left.wrap left.inside ++ right.wrap right.inside
  | .between _ subject low high =>
      subject.wrap subject.inside ++ low.wrap low.inside ++ high.wrap high.inside
  | .inList _ subject elements => subject.wrap subject.inside ++ insideList elements
  | .call _ _ parameters arguments clauses =>
      insideArguments parameters ++ insideArguments arguments ++ insideCall clauses
  | _ => []

def insideList : List Expr → List Entry
  | [] => []
  | element :: rest => element.wrap element.inside ++ insideList rest

def insideOption : Option Expr → List Entry
  | none => []
  | some expr => expr.wrap expr.inside

def insideArguments : Arguments → List Entry
  | .absent => []
  | .selection selected => selected.wrap selected.inside
  | .list mode values clauses => modeEntries mode ++ insideList values ++ insideClauses clauses

def insideClauses : List ArgumentClause → List Entry
  | [] => []
  | clause :: rest => insideClause clause ++ insideClauses rest

def insideClause : ArgumentClause → List Entry
  | .nulls treatment => [.clause treatment.keyword]
  | .orderBy keys => .clause "ORDER BY" :: insideKeys keys
  | .limit count => .clause "LIMIT" :: count.wrap count.inside
  | .having extreme value => .clause ("HAVING " ++ extreme.keyword) :: value.wrap value.inside
  | .separator value => [.clause "SEPARATOR", value.entry]
  | .overflowError => [.clause "ON OVERFLOW ERROR"]
  | .overflowTruncate filler counted =>
      .clause "ON OVERFLOW TRUNCATE" :: insideOption filler ++ [.clause (countKeyword counted)]
  | .jsonNulls kept => [.clause kept.keyword]

def insideKeys : List SortKey → List Entry
  | [] => []
  | ⟨key, direction, nulls, fill⟩ :: rest =>
      key.wrap key.inside ++ choice Direction.keyword direction ++
        choice NullsPlace.keyword nulls ++ insideFill fill ++ insideKeys rest

def insideFill : Option Fill → List Entry
  | none => []
  | some ⟨start, stop, step⟩ =>
      .clause "WITH FILL" :: insideOption start ++ insideOption stop ++ insideOption step

def insideBound : FrameBound → List Entry
  | .currentRow => [.clause "CURRENT ROW"]
  | .preceding distance => insideOption distance ++ [.clause "PRECEDING"]
  | .following distance => insideOption distance ++ [.clause "FOLLOWING"]

def insideFrame : Option Frame → List Entry
  | none => []
  | some ⟨unit, start, none⟩ => .clause unit.keyword :: insideBound start
  | some ⟨unit, start, some stop⟩ =>
      .clause unit.keyword :: insideBound start ++ insideBound stop

def insideWindow : Option Window → List Entry
  | none => []
  | some (.named name) => [.clause "OVER", .names [name.name]]
  | some (.defined base partitions keys frame) =>
      .clause "OVER" :: base.toList.map (fun name => .names [name.name]) ++
        titled "PARTITION BY" (insideList partitions) ++ titled "ORDER BY" (insideKeys keys) ++
        insideFrame frame

def insideCall : CallClauses → List Entry
  | ⟨withinGroup, filter, nulls, window⟩ =>
      titled "WITHIN GROUP" (insideKeys withinGroup) ++ titled "FILTER" (insideOption filter) ++
        choice NullTreatment.keyword nulls ++ insideWindow window

end

def said (expr : Expr) : List Entry := expr.wrap expr.inside

/-! A call has something in front of its values and something behind them. -/

def before : Expr → List Entry
  | .call _ _ parameters (.list mode _ _) _ => insideArguments parameters ++ modeEntries mode
  | .call _ _ parameters _ _ => insideArguments parameters
  | _ => []

def behind : Expr → List Entry
  | .call _ _ _ (.list _ _ clauses) behind => insideClauses clauses ++ insideCall behind
  | .call _ _ _ _ behind => insideCall behind
  | _ => []

/-- What is neither lowered nor kept in a text. -/
def dropped (expr : Expr) : List Entry :=
  match expr.operands? with
  | none => []
  | some _ => expr.before ++ expr.behind

theorem insideList_flatMap (elements : List Expr) :
    insideList elements = elements.flatMap said := by
  induction elements with
  | nil => rfl
  | cons element rest ih =>
      rw [insideList, ih]
      rfl

theorem said_kept (expr : Expr) (kept : expr.operands? = none) :
    expr.said = [.kept expr.render] := by
  rw [said, wrap, kept]

theorem inside_read (expr : Expr) (operands : List Expr) (read : expr.operands? = some operands) :
    expr.inside = expr.before ++ operands.flatMap said ++ expr.behind := by
  cases expr with
  | call braced name parameters arguments clauses =>
      cases arguments with
      | absent =>
          cases read
          simp [inside, insideArguments, before, behind]
      | selection selected => cases read
      | list mode values inner =>
          obtain ⟨-, ⟨rfl⟩⟩ := (Option.ite_none_right_eq_some ..).mp read
          simp [inside, insideArguments, insideList_flatMap, before, behind]
  | unary op operand => cases op <;> cases read <;> simp [inside, before, behind, said]
  | binary op left right =>
      obtain ⟨-, -, rfl⟩ := Option.map_eq_some_iff.mp read
      simp [inside, before, behind, said]
  | inList negated subject elements =>
      cases read
      simp [inside, insideList_flatMap, before, behind, said]
  | _ =>
      cases read <;> simp [inside, before, behind, said]

theorem said_read (expr : Expr) (operands : List Expr) (read : expr.operands? = some operands) :
    expr.said = expr.before ++ operands.flatMap said ++ expr.behind ++ expr.ownEntries := by
  rw [said, wrap, read, inside_read expr operands read]

/-! The expressions that are looked into, and what is left when the clauses are not. -/

theorem sizeOf_operand (expr part : Expr) (operands : List Expr)
    (read : expr.operands? = some operands) (within : part ∈ operands) :
    sizeOf part < sizeOf expr := by
  cases expr with
  | inList negated subject elements =>
      cases read
      rcases List.mem_cons.mp within with rfl | listed
      · simp only [inList.sizeOf_spec]
        omega
      · have smaller := List.sizeOf_lt_of_mem listed
        simp only [inList.sizeOf_spec]
        omega
  | call braced name parameters arguments clauses =>
      cases arguments with
      | absent =>
          cases read
          cases within
      | selection selected => cases read
      | list mode values inner =>
          obtain ⟨-, ⟨rfl⟩⟩ := (Option.ite_none_right_eq_some ..).mp read
          have smaller := List.sizeOf_lt_of_mem within
          simp only [call.sizeOf_spec, Arguments.list.sizeOf_spec]
          omega
  | binary op left right =>
      obtain ⟨-, -, rfl⟩ := Option.map_eq_some_iff.mp read
      simp only [List.mem_cons, List.not_mem_nil, or_false] at within
      simp only [binary.sizeOf_spec]
      rcases within with rfl | rfl <;> omega
  | unary op operand => cases op <;> cases read <;> simp_all
  | _ =>
      cases read <;> simp only [List.mem_cons, List.not_mem_nil, or_false] at within <;>
        rcases within with rfl | rfl | rfl <;> simp <;> omega

/-- Each expression stands behind its operands. -/
def reads (expr : Expr) : List Expr :=
  match _ : expr.operands? with
  | none => [expr]
  | some operands => operands.attach.flatMap (fun operand => operand.val.reads) ++ [expr]
termination_by expr
decreasing_by exact sizeOf_operand expr operand.val operands ‹_› operand.property

theorem reads_kept (expr : Expr) (kept : expr.operands? = none) : expr.reads = [expr] := by
  rw [reads]
  split
  · rfl
  · next read =>
      rw [kept] at read
      cases read

theorem reads_read (expr : Expr) (operands : List Expr) (read : expr.operands? = some operands) :
    expr.reads = operands.flatMap reads ++ [expr] := by
  rw [reads]
  split
  · next unread =>
      rw [unread] at read
      cases read
  · next same =>
      rw [same] at read
      cases read
      simp [List.flatMap_subtype]

theorem mem_reads (expr : Expr) (operands : List Expr) (read : expr.operands? = some operands)
    (part : Expr) : part ∈ expr.reads ↔
      (∃ operand ∈ operands, part ∈ operand.reads) ∨ part = expr := by
  rw [reads_read expr operands read, List.mem_append, List.mem_flatMap, List.mem_singleton]

theorem operand_induction {motive : Expr → Prop}
    (kept : ∀ expr, expr.operands? = none → motive expr)
    (read : ∀ expr operands, expr.operands? = some operands →
      (∀ operand ∈ operands, motive operand) → motive expr) (expr : Expr) : motive expr := by
  cases operandsRead : expr.operands? with
  | none => exact kept expr operandsRead
  | some operands =>
      exact read expr operands operandsRead fun operand _ => operand_induction kept read operand
termination_by expr
decreasing_by exact sizeOf_operand expr operand operands operandsRead ‹_›

def keeps (expr : Expr) : List Entry := expr.reads.flatMap entries

theorem keeps_kept (expr : Expr) (kept : expr.operands? = none) :
    expr.keeps = [.kept expr.render] := by
  simp [keeps, reads_kept expr kept, entries, kept]

theorem keeps_read (expr : Expr) (operands : List Expr) (read : expr.operands? = some operands) :
    expr.keeps = operands.flatMap keeps ++ expr.ownEntries := by
  have own : [expr].flatMap entries = expr.ownEntries := by simp [entries, read]
  rw [keeps, reads_read expr operands read, List.flatMap_append, own, List.flatMap_assoc]
  rfl

/-- What is kept is in order within all that is said, and as long as it only if nothing that is
looked into drops anything. -/
def Grows (expr : Expr) : Prop :=
  expr.keeps.Sublist expr.said ∧
    (expr.said.length ≤ expr.keeps.length → ∀ part ∈ expr.reads, part.dropped = [])

theorem grows_all (operands : List Expr) (all : ∀ operand ∈ operands, operand.Grows) :
    (operands.flatMap keeps).Sublist (operands.flatMap said) ∧
      ((operands.flatMap said).length ≤ (operands.flatMap keeps).length →
        ∀ operand ∈ operands, ∀ part ∈ operand.reads, part.dropped = []) := by
  induction operands with
  | nil => simp
  | cons first rest ih =>
      obtain ⟨⟨within, whole⟩, others⟩ := List.forall_mem_cons.mp all
      obtain ⟨restWithin, restWhole⟩ := ih others
      have longer := within.length_le
      have restLonger := restWithin.length_le
      simp only [List.flatMap_cons, List.length_append]
      constructor
      · exact within.append restWithin
      · intro same
        exact List.forall_mem_cons.mpr ⟨whole (by omega), restWhole (by omega)⟩

theorem grows (expr : Expr) : expr.Grows := by
  induction expr using operand_induction with
  | kept expr kept =>
      constructor
      · rw [keeps_kept expr kept, said_kept expr kept]
      · intro _ part listed
        rw [reads_kept expr kept, List.mem_singleton] at listed
        rw [listed, dropped, kept]
  | read expr operands read ih =>
      obtain ⟨within, whole⟩ := grows_all operands ih
      have longer := within.length_le
      have kept := keeps_read expr operands read
      have all := said_read expr operands read
      constructor
      · rw [kept, all]
        have around := (List.sublist_append_right expr.before _).trans
          (List.sublist_append_left (expr.before ++ operands.flatMap said) expr.behind)
        exact (within.trans around).append (List.Sublist.refl _)
      · intro same part listed
        simp only [kept, all, List.length_append] at same
        rcases (mem_reads expr operands read part).mp listed with ⟨operand, among, deeper⟩ | rfl
        · exact whole (by omega) operand among part deeper
        · -- No room is left for what the clauses say.
          rw [dropped, read]
          exact List.eq_nil_of_length_eq_zero (by rw [List.length_append]; omega)

theorem said_whole (expr : Expr) (whole : ∀ part ∈ expr.reads, part.dropped = []) :
    expr.keeps = expr.said := by
  induction expr using operand_induction with
  | kept expr kept => rw [keeps_kept expr kept, said_kept expr kept]
  | read expr operands read ih =>
      have plain := whole expr ((mem_reads expr operands read expr).mpr (.inr rfl))
      rw [dropped, read] at plain
      have below : operands.flatMap keeps = operands.flatMap said := by
        refine List.flatMap_congr fun operand among => ih operand among fun part deeper => ?_
        exact whole part ((mem_reads expr operands read part).mpr (.inl ⟨operand, among, deeper⟩))
      obtain ⟨before, behind⟩ := List.append_eq_nil_iff.mp plain
      simp [keeps_read expr operands read, said_read expr operands read, below, before, behind]

end Expr

end Sql

theorem lowerList_map (elements : List Expr) : lowerList elements = elements.map lower := by
  induction elements with
  | nil => rfl
  | cons element rest ih => rw [lowerList, ih, List.map_cons]

theorem lowerValues_map (values : List Expr) : lowerValues values =
    if values.all Expr.isValue then some (values.map lower) else none := by
  induction values with
  | nil => rfl
  | cons value rest ih =>
      cases value <;> simp [lowerValues, ih, Expr.isValue]

theorem lowerArguments_values (arguments : Arguments) :
    lowerArguments arguments = (Expr.values? arguments).map (List.map lower) := by
  cases arguments with
  | absent => rfl
  | selection selected => rfl
  | list mode values clauses =>
      rw [lowerArguments, lowerValues_map, Expr.values?]
      split <;> rfl

theorem lower_kept (expr : Expr) (kept : expr.operands? = none) :
    lower expr = .unsupported expr.render := by
  cases expr with
  | unary op operand => cases op <;> first | rfl | cases kept
  | binary op left right => cases op <;> first | rfl | cases kept
  | call braced name parameters arguments clauses =>
      have unread : Expr.values? arguments = none := kept
      rw [lower, lowerArguments_values, unread]
      rfl
  | _ => first | rfl | cases kept

theorem entries_lowerName (name : Identifier) :
    (lowerName name).entries = [.names [name.name]] := by
  unfold lowerName
  split <;> simp [Node.entries_children]

/-- A negated form says what the plain one says, and NOT. -/
theorem entries_negateIf (negated : Bool) (node : Node) :
    (negateIf negated node).entries = node.entries ++ Expr.negatedEntry negated := by
  cases negated <;> simp [negateIf, Node.entries_children (.not node), Node.label]

theorem lower_read (expr : Expr) (operands : List Expr) (read : expr.operands? = some operands) :
    (lower expr).entries =
      operands.flatMap (fun operand => (lower operand).entries) ++ expr.ownEntries := by
  have entries_node := Node.entries_children
  cases expr with
  | unary op operand =>
      cases op <;> cases read <;>
        simp [lower, entries_node (.negate _), entries_node (.not _), Node.label, Expr.ownEntries]
  | binary op left right =>
      obtain ⟨label, labelled, rfl⟩ := Option.map_eq_some_iff.mp read
      cases op <;> cases labelled <;>
        simp [lower, lowerOperator, entries_node (.connect ..), entries_node (.equality ..),
          entries_node (.relate ..), entries_node (.arithmetic ..), entries_node (.not _),
          Expr.ownEntries, BinaryOp.label?, Node.label, Connective.label, Equality.label,
          Relation.label, ArithOp.symbol]
  | call braced name parameters arguments clauses =>
      have values : Expr.values? arguments = some operands := read
      rw [lower, lowerArguments_values, values, Option.map_some, entries_node]
      simp [Node.label, Expr.ownEntries, List.flatMap_map]
  | inList negated subject elements =>
      cases read
      rw [lower, entries_negateIf, entries_node, lowerList_map]
      simp [Node.label, Expr.ownEntries, List.flatMap_map]
  | between negated subject low high =>
      cases read
      rw [lower, entries_negateIf, entries_node]
      simp [Node.label, Expr.ownEntries]
  | regexp negated form subject pattern =>
      cases read
      rw [lower, entries_negateIf, entries_node]
      simp [Node.label, Relation.label, Expr.ownEntries]
  | identifier name =>
      cases read
      exact entries_lowerName name
  | path names =>
      cases read
      rcases names with _ | ⟨name, _ | ⟨second, rest⟩⟩
      · rfl
      · exact entries_lowerName name
      · rfl
  | literal value =>
      cases read
      cases value <;> rfl
  | isNull operand | isNotNull operand =>
      cases read
      rw [lower, entries_node]
      simp [entries_node .null, Node.label, Equality.label, Expr.ownEntries]
  | nested inner =>
      cases read
      rw [lower, entries_node]
      simp [Node.label, Expr.ownEntries]
  | _ => cases read

theorem lower_keeps (expr : Expr) : (lower expr).entries = expr.keeps := by
  induction expr using Expr.operand_induction with
  | kept expr kept =>
      rw [lower_kept expr kept, Expr.keeps_kept expr kept]
      simp [Node.entries_children]
  | read expr operands read ih =>
      rw [lower_read expr operands read, Expr.keeps_read expr operands read, List.flatMap_congr ih]

/-- A tree says what is left of its expression without the clauses of calls, in the same order,
and that is everything unless a call that it keeps as a call has something to drop. -/
theorem lowering_keeps_all_but_clauses (expr : Expr) :
    (lower expr).entries = expr.reads.flatMap Expr.entries ∧
    (lower expr).entries.Sublist expr.said ∧
    ((lower expr).entries = expr.said ↔ ∀ part ∈ expr.reads, part.dropped = []) := by
  have kept := lower_keeps expr
  obtain ⟨within, whole⟩ := expr.grows
  rw [kept]
  refine ⟨rfl, within, ?_, expr.said_whole⟩
  intro same
  exact whole (Nat.le_of_eq (congrArg List.length same.symm))

/-! A cone with a clause is the cone without it, and the columns of the clause are lost. -/

def wholeNumber (digits : String) : Expr := .literal (.number digits false)

def columnNamed (name : String) : Expr := .identifier ⟨none, name⟩

def coneWith (inner : List ArgumentClause) (clauses : CallClauses) : Expr :=
  .call false [⟨none, "cone"⟩] .absent
    (.list .plain [wholeNumber "1", wholeNumber "2", wholeNumber "3"] inner) clauses

def filteredCone : Expr :=
  coneWith [] { filter := some (.binary .equal (columnNamed "flag") (wholeNumber "1")) }

def windowedCone : Expr :=
  coneWith [.orderBy [{ key := columnNamed "mag" }]]
    { withinGroup := [{ key := columnNamed "age" }]
      window := some (.defined none [columnNamed "host"] [] none) }

theorem clause_not_lowered :
    lower filteredCone = lower (coneWith [] {}) ∧ lower windowedCone = lower (coneWith [] {}) ∧
    (lower filteredCone).entries =
      [.value "1", .value "2", .value "3", .inner "function 'cone'"] ∧
    filteredCone.said = [.value "1", .value "2", .value "3", .clause "FILTER", .names ["flag"],
      .value "1", .inner "=", .inner "function 'cone'"] ∧
    windowedCone.said = [.value "1", .value "2", .value "3", .clause "ORDER BY", .names ["mag"],
      .clause "WITHIN GROUP", .names ["age"], .clause "OVER", .clause "PARTITION BY",
      .names ["host"], .inner "function 'cone'"] := by
  refine ⟨rfl, rfl, ?_, ?_, ?_⟩ <;> decide +kernel

end ConeFilter
