import ConeFilter.Proofs.AcceptedTrees

/-!
Texts under arithmetic. Two literals have to be numbers before anything is
computed from them, and so has a literal behind a minus sign. A literal beside an
operand that waits for the row is not looked at, so a text may stand there, and
then it stays in the result. Nothing else lets one in: a result has a text under
arithmetic exactly when the tree has one, and the other side of it is open.
-/
namespace ConeFilter

namespace Operand

def IsText (operand : Operand) : Prop := ∃ content, operand = .literal (.text content)

/-- Whatever arithmetic is applied to, at any depth. -/
def terms : Operand → List Operand
  | .literal _ | .field _ => []
  | .binary _ left right => left :: right :: (left.terms ++ right.terms)
  | .negation operand => operand :: operand.terms

def MixesText (operand : Operand) : Prop := ∃ term ∈ operand.terms, term.IsText

/-- Texts stand only beside operands that are no literals, and never behind a minus sign. -/
def TextBesideOpen : Operand → Prop
  | .literal _ | .field _ => True
  | .binary _ left right =>
      left.TextBesideOpen ∧ right.TextBesideOpen ∧
        (left.IsText → right.literal? = none) ∧ (right.IsText → left.literal? = none)
  | .negation operand => operand.TextBesideOpen ∧ ¬ operand.IsText

theorem not_isText_of_numeric (value : Value) (numeric : value.isNumeric = true) :
    ¬ (literal value).IsText := by
  rintro ⟨content, ⟨rfl⟩⟩
  cases numeric

theorem not_mixesText_literal (value : Value) : ¬ (literal value).MixesText := by
  simp [MixesText, terms]

theorem mixesText_binary (op : ArithOp) (left right : Operand) :
    (binary op left right).MixesText ↔
      left.IsText ∨ right.IsText ∨ left.MixesText ∨ right.MixesText := by
  simp [MixesText, terms, or_and_right, exists_or]

theorem mixesText_negation (operand : Operand) :
    (negation operand).MixesText ↔ operand.IsText ∨ operand.MixesText := by
  simp [MixesText, terms]

/-- What is computed was computed from numbers, and what is not keeps its texts. -/
theorem combine_mixesText (op : ArithOp) (left right combined : Operand)
    (result : combine op left right = .ok combined) :
    combined.MixesText ↔ left.IsText ∨ right.IsText ∨ left.MixesText ∨ right.MixesText := by
  have numbers := (combine_succeeds_iff op left right).mp ⟨combined, result⟩
  obtain ⟨a, b, value, rfl, rfl, _, rfl⟩ | ⟨rfl, _⟩ := combine_cases _ _ _ _ result
  · obtain ⟨leftNumeric, rightNumeric⟩ := numbers a b rfl rfl
    simp [not_mixesText_literal, not_isText_of_numeric a leftNumeric,
      not_isText_of_numeric b rightNumeric]
  · exact mixesText_binary op left right

theorem negate_mixesText (operand negated : Operand) (result : operand.negate = .ok negated) :
    negated.MixesText ↔ operand.MixesText := by
  have number := (negate_succeeds_iff operand).mp ⟨negated, result⟩
  have untext : ¬ operand.IsText := by
    rintro ⟨content, rfl⟩
    cases number _ rfl
  obtain ⟨value, opposite, rfl, _, rfl⟩ | ⟨rfl, _⟩ := negate_cases _ _ result
  · simp [not_mixesText_literal]
  · simp [mixesText_negation, untext]

/-- The first of two literals that is no number is the one named. -/
theorem combine_refuses (op : ArithOp) (a b : Value)
    (text : ¬ (a.isNumeric = true ∧ b.isNumeric = true)) :
    combine op (.literal a) (.literal b) =
      .error (.invalidLiteral (if a.isNumeric then b else a).render) := by
  cases leftNumeric : a.isNumeric with
  | false => simp [combine, requireNumeric, leftNumeric, bind, Except.bind]
  | true =>
      have rightNumeric : b.isNumeric = false := by simpa [leftNumeric] using text
      simp [combine, requireNumeric, leftNumeric, rightNumeric, bind, Except.bind]

theorem beside_open_of_folded (operand : Operand) (folded : operand.Folded) :
    operand.TextBesideOpen := by
  induction operand with
  | literal value => trivial
  | field name => trivial
  | binary op left right leftBeside rightBeside =>
      obtain ⟨leftFolded, rightFolded, numbers⟩ := folded
      refine ⟨leftBeside leftFolded, rightBeside rightFolded, ?_, ?_⟩
      · rintro ⟨content, rfl⟩
        cases right with
        | literal value => cases (numbers _ value rfl rfl).1
        | _ => rfl
      · rintro ⟨content, rfl⟩
        cases left with
        | literal value => cases (numbers value _ rfl rfl).2.1
        | _ => rfl
  | negation operand ih =>
      obtain ⟨inner, least⟩ := folded
      refine ⟨ih inner, ?_⟩
      rintro ⟨content, rfl⟩
      cases least _ rfl

/-- The values of a term are among the values of the operand. -/
theorem values_of_term (operand term : Operand) (stands : term ∈ operand.terms) :
    ∀ value ∈ term.values, value ∈ operand.values := by
  induction operand with
  | literal value => cases stands
  | field name => cases stands
  | binary op left right leftValues rightValues =>
      intro value written
      rw [values, List.mem_append]
      simp only [terms, List.mem_cons, List.mem_append] at stands
      rcases stands with rfl | rfl | before | after
      · exact .inl written
      · exact .inr written
      · exact .inl (leftValues before value written)
      · exact .inr (rightValues after value written)
  | negation operand ih =>
      intro value written
      simp only [terms, List.mem_cons] at stands
      rcases stands with rfl | below
      · exact written
      · exact ih below value written

end Operand

namespace Node

def operation? : Node → Option (Node × Node)
  | .arithmetic _ left right => some (left, right)
  | _ => none

/-- The two sides of every operation of the tree. -/
def operations (node : Node) : List (Node × Node) := node.collect operation?

def MixesText (node : Node) : Prop := ∃ sides ∈ node.operations, sides.1.IsText ∨ sides.2.IsText

theorem mixesText_children (node : Node) : node.MixesText ↔
    (∃ child ∈ node.children, child.MixesText) ∨
      ∃ sides, node.operation? = some sides ∧ (sides.1.IsText ∨ sides.2.IsText) := by
  unfold MixesText operations
  rw [collect_children]
  constructor
  · rintro ⟨sides, stands, text⟩
    rcases List.mem_append.mp stands with below | here
    · obtain ⟨child, member, inside⟩ := List.mem_flatMap.mp below
      exact .inl ⟨child, member, sides, inside, text⟩
    · exact .inr ⟨sides, Option.mem_toList.mp here, text⟩
  · rintro (⟨child, member, sides, inside, text⟩ | ⟨sides, here, text⟩)
    · exact ⟨sides, List.mem_append_left _ (List.mem_flatMap.mpr ⟨child, member, inside⟩), text⟩
    · exact ⟨sides, List.mem_append_right _ (Option.mem_toList.mpr here), text⟩

/-- Nodes other than operations only pass on what their children have. -/
theorem mixesText_of_children {node : Node} (plain : node.operation? = none) :
    node.MixesText ↔ ∃ child ∈ node.children, child.MixesText := by
  simp [mixesText_children node, plain]

theorem unmixed_leaf {node : Node} (plain : node.operation? = none) (leaf : node.children = []) :
    ¬ node.MixesText := by
  rw [mixesText_of_children plain, leaf]
  simp

end Node

section Derivations
variable {scope : Scope} {first : Nat} {node argument : Node} {items : List Node}
  {operand : Operand} {values : List Value} {number : Float}
  {predicate : Predicate} {cones : List Cone} {events : List Event}

theorem Denotes.isText_iff (denoted : Denotes scope node operand events) :
    node.IsText ↔ operand.IsText := by
  simp only [Node.IsText, Operand.IsText, denoted.constant_iff]

theorem Denotes.mixesText (denoted : Denotes scope node operand events) :
    operand.MixesText ↔ node.MixesText := by
  induction denoted with
  | literal _ | quoted _ =>
      exact iff_of_false (Operand.not_mixesText_literal _) (Node.unmixed_leaf rfl rfl)
  | column _ =>
      exact iff_of_false (by simp [Operand.MixesText, Operand.terms]) (Node.unmixed_leaf rfl rfl)
  | @negateLiteral kind raw _ _ =>
      have leaf : ¬ (Node.literal kind raw).MixesText := Node.unmixed_leaf rfl rfl
      rw [Node.mixesText_of_children rfl]
      simp [Operand.not_mixesText_literal, leaf]
  | negate _ _ result ih =>
      rw [Node.mixesText_of_children rfl, Operand.negate_mixesText _ _ result, ih]
      simp
  | nested _ ih =>
      rw [Node.mixesText_of_children rfl, ih]
      simp
  | @arithmetic _ left right _ _ _ _ _ leftDenoted rightDenoted result leftMixes rightMixes =>
      have children : (∃ child ∈ [left, right], child.MixesText) ↔
          left.MixesText ∨ right.MixesText := by simp
      have sides : (∃ sides, some (left, right) = some sides ∧
          (sides.1.IsText ∨ sides.2.IsText)) ↔ left.IsText ∨ right.IsText := by simp
      rw [Operand.combine_mixesText _ _ _ _ result, Node.mixesText_children, leftMixes, rightMixes,
        ← leftDenoted.isText_iff, ← rightDenoted.isText_iff, Node.children, Node.operation?,
        children, sides, ← or_assoc]
      exact or_comm

/-- An operand that came out as a literal was computed from numbers throughout. -/
theorem Denotes.unmixed {value : Value} (denoted : Denotes scope node (.literal value) events) :
    ¬ node.MixesText := by
  rw [← denoted.mixesText]
  exact Operand.not_mixesText_literal value

theorem Lists.unmixed (listed : Lists scope items values events) :
    ¬ ∃ item ∈ items, item.MixesText := by
  induction listed with
  | nil => simp
  | cons head _ ih =>
      rw [List.exists_mem_cons_iff, not_or]
      exact ⟨head.unmixed, ih⟩

theorem Measures.unmixed (measured : Measures scope argument number events) :
    ¬ argument.MixesText := by
  obtain ⟨_, denoted, _⟩ := measured
  exact denoted.unmixed

end Derivations

namespace Predicate

def MixesText (predicate : Predicate) : Prop := ∃ operand ∈ predicate.operands, operand.MixesText

theorem mixesText_compare (op : CompareOp) (left right : Operand) :
    (compare op left right).MixesText ↔ left.MixesText ∨ right.MixesText := by
  simp [MixesText, operands]

theorem mixesText_join (op : Connective) (left right : Predicate) :
    (op.join left right).MixesText ↔ left.MixesText ∨ right.MixesText := by
  cases op <;> simp [Connective.join, MixesText, operands, or_and_right, exists_or]

end Predicate

theorem Asserts.mixesText {scope : Scope} {first : Nat} {node : Node} {predicate : Predicate}
    {cones : List Cone} {events : List Event}
    (asserted : Asserts scope first node predicate cones events) :
    predicate.MixesText ↔ node.MixesText := by
  induction asserted with
  | not _ ih | nested _ ih =>
      rw [Node.mixesText_of_children rfl]
      simpa [Predicate.MixesText, Predicate.operands] using ih
  | connect _ _ leftMixes rightMixes =>
      rw [Node.mixesText_of_children rfl, Predicate.mixesText_join, leftMixes, rightMixes]
      simp
  | isNull denoted =>
      rw [Node.mixesText_of_children rfl]
      have bare : ¬ Node.null.MixesText := Node.unmixed_leaf rfl rfl
      simp [Predicate.MixesText, Predicate.operands, denoted.mixesText, bare]
  | @equality _ op left right before after _ _ leftDenoted rightDenoted =>
      have compared : (op.compare before after).MixesText ↔ before.MixesText ∨ after.MixesText := by
        cases op <;> exact Predicate.mixesText_compare .equal before after
      rw [Node.mixesText_of_children rfl, compared, leftDenoted.mixesText, rightDenoted.mixesText]
      simp
  | relate leftDenoted rightDenoted =>
      rw [Node.mixesText_of_children rfl, Predicate.mixesText_compare, leftDenoted.mixesText,
        rightDenoted.mixesText]
      simp
  | between denoted lowDenoted highDenoted =>
      rw [Node.mixesText_of_children rfl]
      have both := Predicate.mixesText_join .and
      simp only [Connective.join] at both
      rw [both, Predicate.mixesText_compare, Predicate.mixesText_compare, denoted.mixesText,
        lowDenoted.mixesText, highDenoted.mixesText]
      simp only [Node.children, List.mem_cons, List.not_mem_nil, or_false, exists_eq_or_imp,
        exists_eq_left]
      tauto
  | member denoted listed =>
      rw [Node.mixesText_of_children rfl]
      simp only [Node.children, List.exists_mem_cons_iff, listed.unmixed, or_false,
        ← denoted.mixesText]
      simp [Predicate.MixesText, Predicate.operands]
  | cone named raMeasured decMeasured radiusMeasured =>
      rw [Node.mixesText_of_children rfl]
      simp [Predicate.MixesText, Predicate.operands, Operand.MixesText, Operand.terms,
        raMeasured.unmixed, decMeasured.unmixed, radiusMeasured.unmixed]

namespace Resolved

def MixesText (resolved : Resolved) : Prop := ∃ operand ∈ resolved.operands, operand.MixesText

/-- No arithmetic is applied to a truth value. -/
def Truthless (resolved : Resolved) : Prop :=
  ∀ operand ∈ resolved.operands, ∀ term ∈ operand.terms, ∀ truth, term ≠ .literal (.bool truth)

theorem mixesText_iff (scope : Scope) (node : Node) (resolution : Resolution)
    (returned : (scope.resolve node).1 = .ok resolution) :
    resolution.value.MixesText ↔ node.MixesText := by
  obtain ⟨value, extra⟩ := resolution
  cases value with
  | operand operand =>
      obtain ⟨-, events, denoted⟩ := (scope.resolve_operand_iff _ _ _).mp returned
      rw [← denoted.mixesText]
      simp [MixesText, operands]
  | condition predicate =>
      obtain ⟨-, events, asserted⟩ := (scope.resolve_condition_iff _ _ _).mp returned
      exact asserted.mixesText

end Resolved

namespace Predicate

theorem values_of_operand (predicate : Predicate) (operand : Operand)
    (stands : operand ∈ predicate.operands) :
    ∀ value ∈ operand.values, value ∈ predicate.values := by
  induction predicate with
  | compare op left right =>
      intro value written
      simp only [operands, List.mem_cons, List.not_mem_nil, or_false] at stands
      rcases stands with rfl | rfl
      · exact List.mem_append_left _ written
      · exact List.mem_append_right _ written
  | isNull subject expected =>
      obtain rfl := List.mem_singleton.mp stands
      exact fun _ written => written
  | and left right leftValues rightValues | or left right leftValues rightValues =>
      intro value written
      rcases List.mem_append.mp stands with before | after
      · exact List.mem_append_left _ (leftValues before value written)
      · exact List.mem_append_right _ (rightValues after value written)
  | not inner ih => exact ih stands
  | member subject listed =>
      obtain rfl := List.mem_singleton.mp stands
      exact fun _ written => List.mem_append_left _ written

end Predicate

namespace Resolution.Canonical
variable {resolution : Resolution}

theorem beside_open (canonical : resolution.Canonical) :
    ∀ operand ∈ resolution.value.operands, operand.TextBesideOpen :=
  fun operand stands => operand.beside_open_of_folded (canonical.folded operand stands)

/-- A truth value would be written in an operand that has terms, and slots have none. -/
theorem truthless (canonical : resolution.Canonical) : resolution.value.Truthless := by
  rintro operand stands term inside truth rfl
  have written := operand.values_of_term _ inside (.bool truth) List.mem_cons_self
  have truths := canonical.truths
  obtain ⟨value, extra⟩ := resolution
  cases value with
  | operand whole =>
      obtain rfl := List.mem_singleton.mp stands
      exact truths truth written
  | condition predicate =>
      obtain ⟨leaf, member, below⟩ := (predicate.mem_operands_leaves operand).mp stands
      obtain free | ⟨index, _, rfl⟩ := truths leaf member
      · exact free truth (leaf.values_of_operand operand below _ written)
      · have flat : operand = .field (Cone.slotName index) ∨ operand = .literal (.bool true) := by
          simpa [Predicate.slotTest, Predicate.operands] using below
        rcases flat with rfl | rfl <;> cases inside

end Resolution.Canonical

/-! Whole passes. -/

theorem Pass.runFrom_require {α : Type} (outcome : Except Failure α) (before : Progress) :
    (require outcome).runFrom before = (outcome, before) := rfl

namespace Scope

/-- Two literals of which one is no number are refused wherever they meet. -/
theorem refuses_arithmetic (scope : Scope) (op : ArithOp) (left right : Node) (a b : Value)
    (leftExtra rightExtra : Extra)
    (leftReturned : (scope.resolve left).1 = .ok ⟨.operand (.literal a), leftExtra⟩)
    (rightReturned : (scope.resolve right).1 = .ok ⟨.operand (.literal b), rightExtra⟩)
    (text : ¬ (a.isNumeric = true ∧ b.isNumeric = true)) :
    (scope.resolve (.arithmetic op left right)).1 =
      .error (.invalidLiteral (if a.isNumeric then b else a).render) := by
  obtain ⟨-, events, leftDenoted⟩ := (scope.resolve_operand_iff _ _ _).mp leftReturned
  obtain ⟨-, later, rightDenoted⟩ := (scope.resolve_operand_iff _ _ _).mp rightReturned
  have first := Node.returns_of_denotes leftDenoted {}
  have second := Node.returns_of_denotes rightDenoted (Progress.extend {} [] events)
  have run : ((Node.arithmetic op left right).resolve scope).runFrom {} =
      (.error (.invalidLiteral (if a.isNumeric then b else a).render),
        (Progress.extend {} [] events).extend [] later) := by
    unfold Pass.Returns at first second
    simp only [Node.resolve, Pass.runFrom_bind, first, second, Resolved.toOperand,
      Pass.runFrom_require, Operand.combine_refuses op a b text]
  unfold Pass.runFrom at run
  simp only [resolve, run]

theorem refuses_negation (scope : Scope) (inner : Node) (content : String) (extra : Extra)
    (returned : (scope.resolve inner).1 = .ok ⟨.operand (.literal (.text content)), extra⟩) :
    (scope.resolve (.negate inner)).1 =
      .error (.invalidLiteral ("-" ++ (Value.text content).render)) := by
  obtain ⟨-, events, denoted⟩ := (scope.resolve_operand_iff _ _ _).mp returned
  have run : ((Node.negate inner).resolve scope).runFrom {} =
      (.error (.invalidLiteral ("-" ++ (Value.text content).render)),
        Progress.extend {} [] events) := by
    by_cases read : ∃ kind raw, inner = .literal kind raw
    · obtain ⟨kind, raw, rfl⟩ := read
      cases denoted with
      | literal typed =>
          cases kind with
          | string =>
              cases typed
              rfl
          | integer =>
              obtain ⟨word, _, absurd⟩ := Option.map_eq_some_iff.mp typed
              cases absurd
          | decimal =>
              obtain ⟨number, _, absurd⟩ := Option.map_eq_some_iff.mp typed
              cases absurd
          | other => cases typed
    · have unread : ∀ kind raw, inner ≠ .literal kind raw :=
        fun kind raw same => read ⟨kind, raw, same⟩
      have first := Node.returns_of_denotes denoted {}
      unfold Pass.Returns at first
      rw [Node.resolve_negate scope inner unread, Pass.runFrom_bind, first]
      rfl
  unfold Pass.runFrom at run
  simp only [resolve, run]

/-- Arithmetic on text. Between literals and behind a minus sign it is refused. Beside any other
operand it goes through, so results have as much of it as their trees. -/
theorem text_beside_open_operands (scope : Scope) :
    (∀ node resolution, (scope.resolve node).1 = .ok resolution →
      (resolution.value.MixesText ↔ node.MixesText) ∧
      (∀ operand ∈ resolution.value.operands, operand.TextBesideOpen) ∧
      resolution.value.Truthless) ∧
    (∀ op left right a b leftExtra rightExtra,
      (scope.resolve left).1 = .ok ⟨.operand (.literal a), leftExtra⟩ →
      (scope.resolve right).1 = .ok ⟨.operand (.literal b), rightExtra⟩ →
      ¬ (a.isNumeric = true ∧ b.isNumeric = true) →
        (scope.resolve (.arithmetic op left right)).1 =
          .error (.invalidLiteral (if a.isNumeric then b else a).render)) ∧
    ∀ inner content extra,
      (scope.resolve inner).1 = .ok ⟨.operand (.literal (.text content)), extra⟩ →
        (scope.resolve (.negate inner)).1 =
          .error (.invalidLiteral ("-" ++ (Value.text content).render)) := by
  refine ⟨fun node resolution returned => ?_, scope.refuses_arithmetic, scope.refuses_negation⟩
  have mixed := Resolved.mixesText_iff scope node resolution returned
  suffices canonical : resolution.Canonical from
    ⟨mixed, canonical.beside_open, canonical.truthless⟩
  obtain ⟨value, extra⟩ := resolution
  cases value with
  | operand operand =>
      obtain ⟨rfl, events, denoted⟩ := (scope.resolve_operand_iff _ _ _).mp returned
      exact denoted.canonical.resolution
  | condition predicate =>
      obtain ⟨-, events, asserted⟩ := (scope.resolve_condition_iff _ _ _).mp returned
      exact asserted.resolution

end Scope

/-! A text is added to a column, and one to a quotient that has no value. -/

def shiftedByText : Node :=
  .relate .greater (.arithmetic .add (.column ["mag"]) (.literal .string "x"))
    (.arithmetic .sub (.arithmetic .div (.literal .integer "1") (.literal .integer "0"))
      (.quoted ["y"]))

def shiftedResolution : Resolution where
  value := .condition (.compare .greater
    (.binary .add (.field "mag") (.literal (.text "x")))
    (.binary .sub (.binary .div (.literal (.int 1)) (.literal (.int 0))) (.literal (.text "y"))))
  extra := {}

theorem shiftedByText_resolve :
    (starScope.resolve shiftedByText).1 = .ok shiftedResolution := rfl

theorem text_beside_column :
    shiftedByText.MixesText ∧
    (starScope.resolve (.arithmetic .add (.literal .string "x") (.literal .integer "1"))).1 =
      .error (.invalidLiteral "'x'") ∧
    (starScope.resolve (.negate (.quoted ["y"]))).1 = .error (.invalidLiteral "-'y'") := by
  obtain ⟨accepted, refused, unsigned⟩ := Scope.text_beside_open_operands starScope
  refine ⟨?_, ?_, unsigned (.quoted ["y"]) "y" {} rfl⟩
  · refine (accepted _ _ shiftedByText_resolve).1.mp ?_
    exact ⟨.binary .add (.field "mag") (.literal (.text "x")), List.mem_cons_self,
      .literal (.text "x"), by simp [Operand.terms], "x", rfl⟩
  · exact refused .add (.literal .string "x") (.literal .integer "1") (.text "x") (.int 1) {} {}
      rfl rfl (by decide)

/-- Text is left under arithmetic in a result, beside a column and beside other arithmetic. -/
theorem text_kept_in_arithmetic :
    (starScope.resolve shiftedByText).1 = .ok shiftedResolution ∧
      shiftedResolution.value.MixesText :=
  ⟨rfl, .binary .add (.field "mag") (.literal (.text "x")), List.mem_cons_self,
    .literal (.text "x"), by simp [Operand.terms], "x", rfl⟩

end ConeFilter
