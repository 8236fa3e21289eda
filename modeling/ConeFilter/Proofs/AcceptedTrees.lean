import ConeFilter.Proofs.CanonicalResults
import ConeFilter.Proofs.FilterMeaning
import ConeFilter.Proofs.FlattenedPaths

/-!
Which trees are accepted. Two grammars say which trees are operands and which
are conditions, in terms of the tree, of the texts of its literals and of the
columns of the schema; what a pass does along the way is not mentioned. A pass
returns an operand for the trees of the one grammar and a predicate for those of
the other, and fails for all others.
-/
namespace ConeFilter

namespace Node

/-- What a tree amounts to without a row. -/
def constant? (node : Node) : Option Value := node.value fun _ => none

def IsLiteral (node : Node) : Prop := ∃ value, node.constant? = some value

def IsText (node : Node) : Prop := ∃ content, node.constant? = some (.text content)

def IsNumber (node : Node) : Prop :=
  ∃ value, node.constant? = some value ∧ value.isNumeric = true

/-! The grammars. A minus sign in front of a numeric literal is read with its text, so that
such a pair has rules of its own. -/

inductive IsOperand (scope : Scope) : Node → Prop where
  | string (raw : String) : IsOperand scope (.literal .string raw)
  | integer {raw : String} {word : Int64} (read : Numeral.readWord raw = some word) :
      IsOperand scope (.literal .integer raw)
  | decimal {raw : String} {number : Float} (read : Numeral.readFinite raw = some number) :
      IsOperand scope (.literal .decimal raw)
  | quoted {path : List String} (named : path ≠ []) : IsOperand scope (.quoted path)
  | column {path : List String} {name : String} (known : (scope.column path).1 = .ok name) :
      IsOperand scope (.column path)
  | nested {inner : Node} (operand : IsOperand scope inner) : IsOperand scope (.nested inner)
  | negateInteger {raw : String} {word : Int64} (read : Numeral.readWord ("-" ++ raw) = some word) :
      IsOperand scope (.negate (.literal .integer raw))
  | negateDecimal {raw : String} {number : Float} (read : Numeral.readFinite raw = some number) :
      IsOperand scope (.negate (.literal .decimal raw))
  | negate {inner : Node}
      (unsigned : ∀ raw, inner ≠ .literal .integer raw ∧ inner ≠ .literal .decimal raw)
      (operand : IsOperand scope inner) (untext : ¬ inner.IsText) : IsOperand scope (.negate inner)
  | arithmetic {op : ArithOp} {left right : Node} (leftOperand : IsOperand scope left)
      (rightOperand : IsOperand scope right)
      (numbers : left.IsLiteral → right.IsLiteral → left.IsNumber ∧ right.IsNumber) :
      IsOperand scope (.arithmetic op left right)

inductive IsCondition (scope : Scope) : Node → Prop where
  | not {condition : Node} (inner : IsCondition scope condition) :
      IsCondition scope (.not condition)
  | nested {condition : Node} (inner : IsCondition scope condition) :
      IsCondition scope (.nested condition)
  | connect {op : Connective} {left right : Node} (leftCondition : IsCondition scope left)
      (rightCondition : IsCondition scope right) : IsCondition scope (.connect op left right)
  | isNull {op : Equality} {subject : Node} (operand : IsOperand scope subject) :
      IsCondition scope (.equality op subject .null)
  | equality {op : Equality} {left right : Node} (leftOperand : IsOperand scope left)
      (rightOperand : IsOperand scope right) : IsCondition scope (.equality op left right)
  | relate {op : Relation} {left right : Node} (leftOperand : IsOperand scope left)
      (rightOperand : IsOperand scope right) : IsCondition scope (.relate op left right)
  | between {subject low high : Node} (operand : IsOperand scope subject)
      (lowOperand : IsOperand scope low) (highOperand : IsOperand scope high) :
      IsCondition scope (.between subject low high)
  | member {subject : Node} {items : List Node} (operand : IsOperand scope subject)
      (literals : ∀ item ∈ items, IsOperand scope item ∧ item.IsLiteral) :
      IsCondition scope (.member subject items)
  | cone {name : String} {arguments : List Node} (named : isConeName name = true)
      (three : arguments.length = 3)
      (numbers : ∀ argument ∈ arguments, IsOperand scope argument ∧ argument.IsNumber) :
      IsCondition scope (.call name arguments)

end Node

/-! An operand without anything left to compute has a value without a row only when it is
that value. -/

namespace Operand

theorem value_folded (operand : Operand) (folded : operand.Folded) :
    operand.value (fun _ => none) = operand.literal? := by
  induction operand with
  | literal value => rfl
  | field name => rfl
  | binary op left right leftValue rightValue =>
      obtain ⟨leftFolded, rightFolded, stuck⟩ := folded
      rw [Operand.value, leftValue leftFolded, rightValue rightFolded]
      cases left with
      | literal a =>
          cases right with
          | literal b => exact (stuck a b rfl rfl).2.2
          | _ => rfl
      | _ => rfl
  | negation operand ih =>
      obtain ⟨innerFolded, stuck⟩ := folded
      rw [Operand.value, ih innerFolded]
      cases operand with
      | literal value =>
          rw [stuck value rfl]
          rfl
      | _ => rfl

theorem literal_eq_some (operand : Operand) (value : Value) :
    operand.literal? = some value ↔ operand = .literal value := by
  cases operand <;> simp [literal?]

end Operand

section Derivations
variable {scope : Scope} {first : Nat} {node argument : Node} {items : List Node}
  {operand : Operand} {value : Value} {values : List Value} {number : Float}
  {predicate : Predicate} {cones : List Cone} {events : List Event}

theorem Denotes.constant (denoted : Denotes scope node operand events) :
    node.constant? = operand.literal? := by
  rw [Node.constant?, ← denoted.value, operand.value_folded denoted.canonical.2]

theorem Denotes.constant_iff (denoted : Denotes scope node operand events) (value : Value) :
    node.constant? = some value ↔ operand = .literal value := by
  rw [denoted.constant, operand.literal_eq_some]

theorem Denotes.isLiteral_iff (denoted : Denotes scope node operand events) :
    node.IsLiteral ↔ ∃ value, operand = .literal value := by
  simp only [Node.IsLiteral, denoted.constant_iff]

theorem Denotes.isNumber_iff (denoted : Denotes scope node operand events) :
    node.IsNumber ↔ ∃ value, operand = .literal value ∧ value.isNumeric = true := by
  simp only [Node.IsNumber, denoted.constant_iff]

/-- An operand holds no truth value, so one that is no number is a text. -/
theorem Denotes.untext_iff (denoted : Denotes scope node operand events) :
    ¬ node.IsText ↔ ∀ value, operand = .literal value → value.isNumeric = true := by
  simp only [Node.IsText, denoted.constant_iff]
  constructor
  · rintro untext value rfl
    cases value with
    | text content => exact absurd ⟨content, rfl⟩ untext
    | int word => rfl
    | float number => rfl
    | bool truth => exact absurd rfl (denoted.ne_bool truth)
  · rintro number ⟨content, rfl⟩
    cases number _ rfl

/-- A literal that is neither a number nor a text denotes nothing. -/
theorem Denotes.unread (denoted : Denotes scope node operand events)
    (unsigned : ∀ raw, node ≠ .literal .integer raw ∧ node ≠ .literal .decimal raw)
    (untext : ¬ node.IsText) (kind : LiteralKind) (raw : String) : node ≠ .literal kind raw := by
  rintro rfl
  cases kind with
  | string => exact untext ⟨raw, rfl⟩
  | integer => exact (unsigned raw).1 rfl
  | decimal => exact (unsigned raw).2 rfl
  | other =>
      cases denoted with
      | literal typed => cases typed

/-! What is returned is in the grammar. -/

theorem Denotes.isOperand (denoted : Denotes scope node operand events) :
    node.IsOperand scope := by
  induction denoted with
  | @literal kind raw value typed =>
      cases kind with
      | string => exact .string raw
      | integer =>
          obtain ⟨word, read, -⟩ := Option.map_eq_some_iff.mp typed
          exact .integer read
      | decimal =>
          obtain ⟨number, read, -⟩ := Option.map_eq_some_iff.mp typed
          exact .decimal read
      | other => cases typed
  | column walked => exact .column ((scope.column_ok _ _).mpr ⟨walked, rfl⟩)
  | quoted last =>
      refine .quoted ?_
      rintro rfl
      cases last
  | @negateLiteral kind raw value typed =>
      cases kind with
      | string => cases typed
      | integer =>
          obtain ⟨word, read, -⟩ := Option.map_eq_some_iff.mp typed
          exact .negateInteger read
      | decimal =>
          obtain ⟨number, read, -⟩ := Option.map_eq_some_iff.mp typed
          exact .negateDecimal read
      | other => cases typed
  | negate unread inner result ih =>
      refine .negate (fun raw => ⟨unread _ raw, unread _ raw⟩) ih ?_
      exact inner.untext_iff.mpr ((Operand.negate_succeeds_iff _).mp ⟨_, result⟩)
  | nested _ ih => exact .nested ih
  | arithmetic left right result leftOperand rightOperand =>
      refine .arithmetic leftOperand rightOperand ?_
      rw [left.isLiteral_iff, right.isLiteral_iff, left.isNumber_iff, right.isNumber_iff]
      rintro ⟨a, rfl⟩ ⟨b, rfl⟩
      obtain ⟨leftNumeric, rightNumeric⟩ :=
        (Operand.combine_succeeds_iff _ _ _).mp ⟨_, result⟩ a b rfl rfl
      exact ⟨⟨a, rfl, leftNumeric⟩, ⟨b, rfl, rightNumeric⟩⟩

theorem Lists.literals (listed : Lists scope items values events) :
    ∀ item ∈ items, item.IsOperand scope ∧ item.IsLiteral := by
  induction listed with
  | nil => simp
  | cons head _ ih =>
      exact List.forall_mem_cons.mpr ⟨⟨head.isOperand, head.isLiteral_iff.mpr ⟨_, rfl⟩⟩, ih⟩

theorem Measures.isNumber (measured : Measures scope argument number events) :
    argument.IsOperand scope ∧ argument.IsNumber := by
  obtain ⟨value, denoted, read⟩ := measured
  refine ⟨denoted.isOperand, denoted.isNumber_iff.mpr ⟨value, rfl, ?_⟩⟩
  cases value with
  | int word => rfl
  | float number => rfl
  | text content => cases read
  | bool truth => cases read

theorem Asserts.isCondition (asserted : Asserts scope first node predicate cones events) :
    node.IsCondition scope := by
  induction asserted with
  | not _ ih => exact .not ih
  | nested _ ih => exact .nested ih
  | connect _ _ leftCondition rightCondition => exact .connect leftCondition rightCondition
  | isNull denoted => exact .isNull denoted.isOperand
  | equality leftDenoted rightDenoted =>
      exact .equality leftDenoted.isOperand rightDenoted.isOperand
  | relate leftDenoted rightDenoted => exact .relate leftDenoted.isOperand rightDenoted.isOperand
  | between denoted lowDenoted highDenoted =>
      exact .between denoted.isOperand lowDenoted.isOperand highDenoted.isOperand
  | member denoted listed => exact .member denoted.isOperand listed.literals
  | cone named raMeasured decMeasured radiusMeasured =>
      refine .cone named rfl ?_
      simp only [List.mem_cons, List.not_mem_nil, or_false, forall_eq_or_imp, forall_eq]
      exact ⟨raMeasured.isNumber, decMeasured.isNumber, radiusMeasured.isNumber⟩

end Derivations

/-! What is in the grammar is returned. -/

namespace Node
variable {scope : Scope}

theorem IsOperand.denotes {node : Node} (operand : node.IsOperand scope) :
    ∃ result events, Denotes scope node result events := by
  induction operand with
  | string raw => exact ⟨_, _, .literal rfl⟩
  | integer read => exact ⟨_, _, .literal (by rw [LiteralKind.read?, read]; rfl)⟩
  | decimal read => exact ⟨_, _, .literal (by rw [LiteralKind.read?, read]; rfl)⟩
  | quoted named => exact ⟨_, _, .quoted (List.getLast?_eq_some_getLast named)⟩
  | column known =>
      obtain ⟨walked, -⟩ := (scope.column_ok _ _).mp known
      exact ⟨_, _, .column walked⟩
  | nested _ ih =>
      obtain ⟨result, events, denoted⟩ := ih
      exact ⟨result, events, .nested denoted⟩
  | negateInteger read =>
      exact ⟨_, _, .negateLiteral (by rw [LiteralKind.readNegative?, read]; rfl)⟩
  | negateDecimal read =>
      exact ⟨_, _, .negateLiteral (by rw [LiteralKind.readNegative?, read]; rfl)⟩
  | negate unsigned _ untext ih =>
      obtain ⟨result, events, denoted⟩ := ih
      have unread := denoted.unread unsigned untext
      obtain ⟨negated, opposite⟩ :=
        (Operand.negate_succeeds_iff result).mpr (denoted.untext_iff.mp untext)
      exact ⟨negated, events, .negate unread denoted opposite⟩
  | arithmetic _ _ numbers leftDenotes rightDenotes =>
      obtain ⟨first, events, leftDenoted⟩ := leftDenotes
      obtain ⟨second, rest, rightDenoted⟩ := rightDenotes
      rw [leftDenoted.isLiteral_iff, rightDenoted.isLiteral_iff, leftDenoted.isNumber_iff,
        rightDenoted.isNumber_iff] at numbers
      obtain ⟨combined, result⟩ := (Operand.combine_succeeds_iff _ first second).mpr (by
        rintro a b rfl rfl
        obtain ⟨⟨_, ⟨rfl⟩, leftNumeric⟩, ⟨_, ⟨rfl⟩, rightNumeric⟩⟩ := numbers ⟨a, rfl⟩ ⟨b, rfl⟩
        exact ⟨leftNumeric, rightNumeric⟩)
      exact ⟨combined, _, .arithmetic leftDenoted rightDenoted result⟩

/-- An operand with a value of its own denotes that value. -/
theorem IsOperand.denotes_literal {node : Node} (operand : node.IsOperand scope) {value : Value}
    (constant : node.constant? = some value) :
    ∃ events, Denotes scope node (.literal value) events := by
  obtain ⟨result, events, denoted⟩ := operand.denotes
  obtain rfl := (denoted.constant_iff value).mp constant
  exact ⟨events, denoted⟩

theorem IsOperand.measures {node : Node} (operand : node.IsOperand scope) (number : node.IsNumber) :
    ∃ measured events, Measures scope node measured events := by
  obtain ⟨value, constant, numeric⟩ := number
  obtain ⟨events, denoted⟩ := operand.denotes_literal constant
  cases value with
  | int word => exact ⟨_, events, .intro _ denoted rfl⟩
  | float number => exact ⟨_, events, .intro _ denoted rfl⟩
  | text content => cases numeric
  | bool truth => cases numeric

theorem lists_of_literals {items : List Node}
    (literals : ∀ item ∈ items, item.IsOperand scope ∧ item.IsLiteral) :
    ∃ values events, Lists scope items values events := by
  induction items with
  | nil => exact ⟨[], [], .nil⟩
  | cons item rest ih =>
      obtain ⟨⟨operand, value, constant⟩, later⟩ := List.forall_mem_cons.mp literals
      obtain ⟨events, denoted⟩ := operand.denotes_literal constant
      obtain ⟨values, others, listed⟩ := ih later
      exact ⟨value :: values, events ++ others, .cons denoted listed⟩

/-- The cones in front of a condition only number its slots. -/
theorem IsCondition.asserts {node : Node} (condition : node.IsCondition scope) (first : Nat) :
    ∃ predicate cones events, Asserts scope first node predicate cones events := by
  induction condition generalizing first with
  | not _ ih =>
      obtain ⟨_, _, _, asserted⟩ := ih first
      exact ⟨_, _, _, .not asserted⟩
  | nested _ ih =>
      obtain ⟨_, _, _, asserted⟩ := ih first
      exact ⟨_, _, _, .nested asserted⟩
  | connect _ _ leftAsserts rightAsserts =>
      obtain ⟨_, cones, _, leftAsserted⟩ := leftAsserts first
      obtain ⟨_, _, _, rightAsserted⟩ := rightAsserts (first + cones.length)
      exact ⟨_, _, _, .connect leftAsserted rightAsserted⟩
  | isNull operand =>
      obtain ⟨_, _, denoted⟩ := operand.denotes
      exact ⟨_, _, _, .isNull denoted⟩
  | equality leftOperand rightOperand =>
      obtain ⟨_, _, leftDenoted⟩ := leftOperand.denotes
      obtain ⟨_, _, rightDenoted⟩ := rightOperand.denotes
      exact ⟨_, _, _, .equality leftDenoted rightDenoted⟩
  | relate leftOperand rightOperand =>
      obtain ⟨_, _, leftDenoted⟩ := leftOperand.denotes
      obtain ⟨_, _, rightDenoted⟩ := rightOperand.denotes
      exact ⟨_, _, _, .relate leftDenoted rightDenoted⟩
  | between operand lowOperand highOperand =>
      obtain ⟨_, _, denoted⟩ := operand.denotes
      obtain ⟨_, _, lowDenoted⟩ := lowOperand.denotes
      obtain ⟨_, _, highDenoted⟩ := highOperand.denotes
      exact ⟨_, _, _, .between denoted lowDenoted highDenoted⟩
  | member operand literals =>
      obtain ⟨_, _, denoted⟩ := operand.denotes
      obtain ⟨_, _, listed⟩ := lists_of_literals literals
      exact ⟨_, _, _, .member denoted listed⟩
  | cone named three numbers =>
      obtain ⟨ra, dec, radius, rfl⟩ := List.length_eq_three.mp three
      simp only [List.mem_cons, List.not_mem_nil, or_false, forall_eq_or_imp, forall_eq] at numbers
      obtain ⟨⟨raOperand, raNumber⟩, ⟨decOperand, decNumber⟩, radiusOperand, radiusNumber⟩ :=
        numbers
      obtain ⟨alpha, _, raMeasured⟩ := raOperand.measures raNumber
      obtain ⟨delta, _, decMeasured⟩ := decOperand.measures decNumber
      obtain ⟨rho, _, radiusMeasured⟩ := radiusOperand.measures radiusNumber
      exact ⟨_, [⟨alpha, delta, rho⟩], _, .cone named raMeasured decMeasured radiusMeasured⟩

end Node

/-! Both grammars, read off whole passes. -/

namespace Scope

theorem operand_iff (scope : Scope) (node : Node) :
    (∃ operand extra, (scope.resolve node).1 = .ok { value := .operand operand, extra }) ↔
      node.IsOperand scope := by
  simp only [resolve_operand_iff]
  constructor
  · rintro ⟨operand, extra, -, events, denoted⟩
    exact denoted.isOperand
  · intro accepted
    obtain ⟨operand, events, denoted⟩ := accepted.denotes
    exact ⟨operand, {}, rfl, events, denoted⟩

theorem condition_iff (scope : Scope) (node : Node) :
    (∃ predicate extra, (scope.resolve node).1 = .ok { value := .condition predicate, extra }) ↔
      node.IsCondition scope := by
  simp only [resolve_condition_iff]
  constructor
  · rintro ⟨predicate, extra, -, events, asserted⟩
    exact asserted.isCondition
  · intro accepted
    obtain ⟨predicate, cones, events, asserted⟩ := accepted.asserts 0
    exact ⟨predicate, { cones }, rfl, events, asserted⟩

/-- A pass succeeds exactly on the trees of the two grammars, and it returns a predicate
exactly on those of the second. -/
theorem accepts_exactly (scope : Scope) (node : Node) :
    ((∃ resolution, (scope.resolve node).1 = .ok resolution) ↔
      node.IsOperand scope ∨ node.IsCondition scope) ∧
    ((∃ operand extra, (scope.resolve node).1 = .ok { value := .operand operand, extra }) ↔
      node.IsOperand scope) ∧
    ((∃ predicate extra,
        (scope.resolve node).1 = .ok { value := .condition predicate, extra }) ↔
      node.IsCondition scope) := by
  refine ⟨?_, scope.operand_iff node, scope.condition_iff node⟩
  rw [← operand_iff, ← condition_iff]
  constructor
  · rintro ⟨⟨value, extra⟩, resolved⟩
    cases value with
    | operand operand => exact .inl ⟨operand, extra, resolved⟩
    | condition predicate => exact .inr ⟨predicate, extra, resolved⟩
  · rintro (⟨_, _, resolved⟩ | ⟨_, _, resolved⟩)
    · exact ⟨_, resolved⟩
    · exact ⟨_, resolved⟩

end Scope

end ConeFilter
