import ConeFilter.Proofs.Parentheses

/-!
Arithmetic on integer literals. Its value over all integers is computed by the pass exactly if
every step on the way is a word; a division by zero has no value at all. From the first step that
leaves the words, whatever stands above waits too, and a factor of zero does not bring it back.
-/
namespace ConeFilter

namespace Node

/-- Integer literals under signs, parentheses and the four operations. Each literal is a word, and
directly behind a minus it may be the least word without its sign. -/
inductive IntegerArithmetic : Node → Prop where
  | literal {raw : String} (digits : Numeral.Unsigned raw)
      (small : Numeral.natOfDigits raw.toList ≤ 0x7FFFFFFFFFFFFFFF) :
      IntegerArithmetic (.literal .integer raw)
  | negateLiteral {raw : String} (digits : Numeral.Unsigned raw)
      (small : Numeral.natOfDigits raw.toList ≤ 0x8000000000000000) :
      IntegerArithmetic (.negate (.literal .integer raw))
  | negate {inner : Node} (unread : ∀ kind raw, inner ≠ .literal kind raw)
      (integers : IntegerArithmetic inner) : IntegerArithmetic (.negate inner)
  | nested {inner : Node} (integers : IntegerArithmetic inner) :
      IntegerArithmetic (.nested inner)
  | arithmetic {op : ArithOp} {left right : Node} (leftIntegers : IntegerArithmetic left)
      (rightIntegers : IntegerArithmetic right) : IntegerArithmetic (.arithmetic op left right)

/-- The value over all integers. Division truncates toward zero. -/
def integer? : Node → Option Int
  | .literal .integer raw => some (Numeral.natOfDigits raw.toList)
  | .nested inner => inner.integer?
  | .negate inner => inner.integer?.map fun n => -n
  | .arithmetic op left right => do
      let a ← left.integer?
      let b ← right.integer?
      match op with
      | .add => some (a + b)
      | .sub => some (a - b)
      | .mul => some (a * b)
      | .div => if b = 0 then none else some (a.tdiv b)
  | _ => none

/-- The subexpressions. A literal directly behind a minus is one step together with its sign. -/
def steps : Node → List Node
  | .nested inner => .nested inner :: inner.steps
  | .negate (.literal kind raw) => [.negate (.literal kind raw)]
  | .negate inner => .negate inner :: inner.steps
  | .arithmetic op left right => .arithmetic op left right :: (left.steps ++ right.steps)
  | node => [node]

def IsWord (node : Node) : Prop :=
  ∃ n ∈ node.integer?, -0x8000000000000000 ≤ n ∧ n ≤ 0x7FFFFFFFFFFFFFFF

instance : DecidablePred IsWord := fun node =>
  inferInstanceAs (Decidable (∃ n ∈ node.integer?, -0x8000000000000000 ≤ n ∧ n ≤ 0x7FFFFFFFFFFFFFFF))

/-- Every divisor differs from zero, and no subexpression leaves the words. -/
def StaysInWords (node : Node) : Prop := ∀ step ∈ node.steps, step.IsWord

instance : DecidablePred StaysInWords := fun node =>
  inferInstanceAs (Decidable (∀ step ∈ node.steps, step.IsWord))

/-! Steps that stay in the words, one law for each way to build a step from others. -/

theorem isWord_iff (node : Node) :
    node.IsWord ↔ ∃ word : Int64, node.integer? = some word.toInt := by
  constructor
  · rintro ⟨n, value, range⟩
    obtain ⟨word, rfl⟩ := (Numeral.exists_word_iff n).mpr range
    exact ⟨word, value⟩
  · rintro ⟨word, value⟩
    exact ⟨word.toInt, value, (Numeral.exists_word_iff _).mp ⟨word, rfl⟩⟩

theorem mem_steps_self (node : Node) : node ∈ node.steps := by
  fun_cases steps node <;> exact List.mem_cons_self

theorem StaysInWords.isWord {node : Node} (stays : node.StaysInWords) : node.IsWord :=
  stays node node.mem_steps_self

theorem staysInWords_nested (inner : Node) :
    (nested inner).StaysInWords ↔ inner.StaysInWords := by
  have root : inner.StaysInWords → (nested inner).IsWord := StaysInWords.isWord
  exact List.forall_mem_cons.trans (and_iff_right_of_imp root)

theorem staysInWords_negate (inner : Node) (unread : ∀ kind raw, inner ≠ .literal kind raw) :
    (negate inner).StaysInWords ↔ (negate inner).IsWord ∧ inner.StaysInWords := by
  unfold StaysInWords
  rw [steps]
  · exact List.forall_mem_cons
  · exact unread

theorem staysInWords_arithmetic (op : ArithOp) (left right : Node) :
    (arithmetic op left right).StaysInWords ↔
      (arithmetic op left right).IsWord ∧ left.StaysInWords ∧ right.StaysInWords := by
  unfold StaysInWords
  rw [steps, List.forall_mem_cons, List.forall_mem_append]

theorem integer_arithmetic (op : ArithOp) (left right : Node) (a b : Int)
    (leftValue : left.integer? = some a) (rightValue : right.integer? = some b) :
    (arithmetic op left right).integer? = op.onInt a b := by
  rw [integer?, leftValue, rightValue]
  cases op <;> rfl

end Node

/-! What the operations do with words and with operands that wait. -/

namespace Operand

theorem combine_words (op : ArithOp) (a b : Int64) :
    combine op (.literal (.int a)) (.literal (.int b)) =
      match (op.onInt a.toInt b.toInt).bind Value.ofInt? with
      | some folded => .ok (.literal folded)
      | none => .ok (.binary op (.literal (.int a)) (.literal (.int b))) := by
  have computed : Value.compute? op (.int a) (.int b) =
      (op.onInt a.toInt b.toInt).bind Value.ofInt? := rfl
  rw [← computed]
  rfl

theorem combine_waiting (op : ArithOp) (left right : Operand)
    (waiting : left.isExpression = true ∨ right.isExpression = true) :
    combine op left right = .ok (.binary op left right) := by
  unfold combine
  split
  · rcases waiting with waiting | waiting <;> cases waiting
  · rfl

theorem negate_word (word : Int64) :
    (Operand.literal (.int word)).negate =
      match Value.ofInt? (-word.toInt) with
      | some negated => .ok (.literal negated)
      | none => .ok (.negation (.literal (.int word))) := rfl

theorem negate_waiting (operand : Operand) (waiting : operand.isExpression = true) :
    operand.negate = .ok (.negation operand) := by
  cases operand with
  | literal _ | field _ => cases waiting
  | binary _ _ _ | negation _ => rfl

end Operand

/-- What is left of integer arithmetic: the word that is its value, or an expression. -/
inductive Folds (node : Node) : Operand → Prop where
  | word {word : Int64} (stays : node.StaysInWords) (value : node.integer? = some word.toInt) :
      Folds node (.literal (.int word))
  | waits {operand : Operand} (leaves : ¬ node.StaysInWords)
      (waiting : operand.isExpression = true) : Folds node operand

namespace Folds

/-- A single step with a value that is a word. -/
theorem leaf (node : Node) (n : Int) (alone : node.steps = [node]) (value : node.integer? = some n)
    (range : -0x8000000000000000 ≤ n ∧ n ≤ 0x7FFFFFFFFFFFFFFF) :
    ∃ word : Int64, Value.ofInt? n = some (.int word) ∧ Folds node (.literal (.int word)) := by
  obtain ⟨word, rfl⟩ := (Numeral.exists_word_iff n).mpr range
  refine ⟨word, Value.ofInt_toInt word, .word ?_ value⟩
  rw [Node.StaysInWords, alone]
  exact List.forall_mem_singleton.mpr ((Node.isWord_iff node).mpr ⟨word, value⟩)

theorem nested {inner : Node} {operand : Operand} (folds : Folds inner operand) :
    Folds (.nested inner) operand := by
  cases folds with
  | word stays value => exact .word ((Node.staysInWords_nested inner).mpr stays) value
  | waits leaves waiting =>
      exact .waits (fun stays => leaves ((Node.staysInWords_nested inner).mp stays)) waiting

theorem negate {inner : Node} {operand : Operand} (unread : ∀ kind raw, inner ≠ .literal kind raw)
    (folds : Folds inner operand) :
    ∃ negated, operand.negate = .ok negated ∧ Folds (.negate inner) negated := by
  cases folds with
  | @word word stays value =>
      have opposite : (Node.negate inner).integer? = some (-word.toInt) := by
        rw [Node.integer?, value]
        rfl
      by_cases fits : ∃ result : Int64, result.toInt = -word.toInt
      · obtain ⟨result, same⟩ := fits
        rw [← same] at opposite
        refine ⟨.literal (.int result), ?_, .word ?_ opposite⟩
        · rw [Operand.negate_word, ← same, Value.ofInt_toInt]
        · exact (Node.staysInWords_negate inner unread).mpr
            ⟨(Node.isWord_iff _).mpr ⟨result, opposite⟩, stays⟩
      · refine ⟨.negation (.literal (.int word)), ?_, .waits (fun within => ?_) rfl⟩
        · rw [Operand.negate_word, Value.ofInt_eq_none _ fits]
        · obtain ⟨result, found⟩ := (Node.isWord_iff _).mp within.isWord
          exact fits ⟨result, Option.some.inj (found.symm.trans opposite)⟩
  | waits leaves waiting =>
      refine ⟨.negation operand, operand.negate_waiting waiting, .waits (fun within => ?_) rfl⟩
      exact leaves ((Node.staysInWords_negate inner unread).mp within).2

theorem arithmetic {left right : Node} {first second : Operand} (op : ArithOp)
    (leftFolds : Folds left first) (rightFolds : Folds right second) :
    ∃ combined, Operand.combine op first second = .ok combined ∧
      Folds (.arithmetic op left right) combined := by
  -- One operand that waits keeps the whole operation waiting, whatever the other one is.
  have waits (waiting : first.isExpression = true ∨ second.isExpression = true)
      (leaves : left.StaysInWords → ¬ right.StaysInWords) : ∃ combined,
      Operand.combine op first second = .ok combined ∧
        Folds (.arithmetic op left right) combined := by
    refine ⟨_, Operand.combine_waiting op first second waiting, .waits (fun within => ?_) rfl⟩
    obtain ⟨-, leftStays, rightStays⟩ := (Node.staysInWords_arithmetic op left right).mp within
    exact leaves leftStays rightStays
  cases leftFolds with
  | waits leaves waiting => exact waits (.inl waiting) fun stays => absurd stays leaves
  | @word a leftStays leftValue =>
      cases rightFolds with
      | waits leaves waiting => exact waits (.inr waiting) fun _ => leaves
      | @word b rightStays rightValue =>
          have value := Node.integer_arithmetic op left right _ _ leftValue rightValue
          by_cases fits : (Node.arithmetic op left right).IsWord
          · obtain ⟨word, same⟩ := (Node.isWord_iff _).mp fits
            refine ⟨.literal (.int word), ?_, .word ?_ same⟩
            · rw [Operand.combine_words, ← value, same, Option.bind_some, Value.ofInt_toInt]
            · exact (Node.staysInWords_arithmetic op left right).mpr ⟨fits, leftStays, rightStays⟩
          · have unfolded : (op.onInt a.toInt b.toInt).bind Value.ofInt? = none := by
              refine Option.bind_eq_none_iff.mpr fun n computed => Value.ofInt_eq_none n ?_
              rintro ⟨word, rfl⟩
              exact fits ((Node.isWord_iff _).mpr ⟨word, value.trans computed⟩)
            refine ⟨.binary op (.literal (.int a)) (.literal (.int b)), ?_, .waits ?_ rfl⟩
            · rw [Operand.combine_words, unfolded]
            · exact fun within => fits within.isWord

end Folds

/-! Literals. Behind a minus there is one integer more to read than without it. -/

namespace LiteralKind

theorem read_digits (raw : String) (n : Nat) (digits : Numeral.readNat raw.toList = some n) :
    LiteralKind.integer.read? raw = Value.ofInt? n := by
  rw [read?, Numeral.readWord, Numeral.readInt_digits _ n digits, Option.bind_some, Value.ofInt?]

end LiteralKind

namespace Node

theorem IntegerArithmetic.denotes {node : Node} (scope : Scope)
    (integers : node.IntegerArithmetic) :
    ∃ operand events, Denotes scope node operand events ∧ Folds node operand := by
  induction integers with
  | @literal raw digits small =>
      obtain ⟨word, exact, folds⟩ := Folds.leaf (.literal .integer raw)
        (Numeral.natOfDigits raw.toList) rfl rfl ⟨by omega, by omega⟩
      refine ⟨_, [], .literal ?_, folds⟩
      rw [LiteralKind.read_digits raw _ digits.readNat, exact]
  | @negateLiteral raw digits small =>
      obtain ⟨word, exact, folds⟩ := Folds.leaf (.negate (.literal .integer raw))
        (-Numeral.natOfDigits raw.toList) rfl rfl ⟨by omega, by omega⟩
      refine ⟨_, [], .negateLiteral ?_, folds⟩
      rw [LiteralKind.readNegative_digits raw _ digits.readNat, exact]
  | negate unread _ ih =>
      obtain ⟨operand, events, denoted, folds⟩ := ih
      obtain ⟨negated, result, folded⟩ := folds.negate unread
      exact ⟨negated, events, .negate unread denoted result, folded⟩
  | nested _ ih =>
      obtain ⟨operand, events, denoted, folds⟩ := ih
      exact ⟨operand, events, .nested denoted, folds.nested⟩
  | @arithmetic op _ _ _ _ leftIh rightIh =>
      obtain ⟨first, events, leftDenoted, leftFolds⟩ := leftIh
      obtain ⟨second, rest, rightDenoted, rightFolds⟩ := rightIh
      obtain ⟨combined, result, folded⟩ := leftFolds.arithmetic op rightFolds
      exact ⟨combined, _, .arithmetic leftDenoted rightDenoted result, folded⟩

end Node

/-- Integer arithmetic is always accepted. It is computed exactly if it stays in the words, and
then to its value over all integers; if not, it is left as an expression. -/
theorem Scope.integers_fold_exactly (scope : Scope) (node : Node)
    (integers : node.IntegerArithmetic) :
    ∃ operand, (scope.resolve node).1 = .ok { value := .operand operand, extra := {} } ∧
      ((∃ word, operand = .literal (.int word)) ↔ node.StaysInWords) ∧
      (∀ word, operand = .literal (.int word) → node.integer? = some word.toInt) ∧
      (¬ node.StaysInWords → operand.isExpression = true) := by
  obtain ⟨operand, events, denoted, folds⟩ := integers.denotes scope
  refine ⟨operand, (scope.resolve_operand_iff _ _ _).mpr ⟨rfl, events, denoted⟩, ?_⟩
  cases folds with
  | word stays value =>
      refine ⟨iff_of_true ⟨_, rfl⟩ stays, ?_, fun leaves => absurd stays leaves⟩
      rintro _ ⟨rfl⟩
      exact value
  | waits leaves waiting =>
      have unfolded : ∀ word, operand ≠ .literal (.int word) := by
        rintro word rfl
        cases waiting
      refine ⟨iff_of_false ?_ leaves, ?_, fun _ => waiting⟩
      · rintro ⟨word, same⟩
        exact unfolded word same
      · intro word same
        exact absurd same (unfolded word)

/-! Two steps from the least word. The first quotient is truncated toward zero, so that the
difference is the greatest word, and the second one leaves the words. -/

def integerLiteral (raw : String) : Node := .literal .integer raw

def leastWord : Node := .negate (integerLiteral "9223372036854775808")

def greatestDifference : Node :=
  .arithmetic .sub
    (.nested (.arithmetic .div
      (.nested (.arithmetic .sub (integerLiteral "7") (integerLiteral "010"))) (integerLiteral "2")))
    leastWord

def leastQuotient : Node :=
  .arithmetic .mul (integerLiteral "0")
    (.nested (.arithmetic .div leastWord (.negate (integerLiteral "1"))))

theorem greatest_difference_folds :
    greatestDifference.IntegerArithmetic ∧ greatestDifference.StaysInWords ∧
    (starScope.resolve greatestDifference).1 =
      .ok { value := .operand (.literal (.int 9223372036854775807)), extra := {} } ∧
    leastQuotient.IntegerArithmetic ∧ ¬ leastQuotient.StaysInWords ∧
    ∃ operand, (starScope.resolve leastQuotient).1 =
        .ok { value := .operand operand, extra := {} } ∧ operand.isExpression = true := by
  have digits {raw : String} {n : Nat} (read : Numeral.readNat raw.toList = some n) :
      Numeral.Unsigned raw := (Numeral.unsigned_iff raw).mpr ⟨n, read⟩
  have least : leastWord.IntegerArithmetic := .negateLiteral (digits rfl) (by decide)
  have difference : greatestDifference.IntegerArithmetic :=
    .arithmetic (.nested (.arithmetic (.nested (.arithmetic (.literal (digits rfl) (by decide))
      (.literal (digits rfl) (by decide)))) (.literal (digits rfl) (by decide)))) least
  have quotient : leastQuotient.IntegerArithmetic :=
    .arithmetic (.literal (digits rfl) (by decide))
      (.nested (.arithmetic least (.negateLiteral (digits rfl) (by decide))))
  have stays : greatestDifference.StaysInWords := by decide
  have leaves : ¬ leastQuotient.StaysInWords := by decide
  obtain ⟨computed, resolved, folded, value, -⟩ :=
    Scope.integers_fold_exactly starScope greatestDifference difference
  obtain ⟨left, accepted, -, -, waiting⟩ :=
    Scope.integers_fold_exactly starScope leastQuotient quotient
  obtain ⟨word, rfl⟩ := folded.mpr stays
  have greatest : word.toInt = (9223372036854775807 : Int64).toInt :=
    (Option.some.inj (value word rfl)).symm
  obtain rfl := Int64.toInt_inj.mp greatest
  exact ⟨difference, stays, resolved, quotient, leaves, left, accepted, waiting leaves⟩

end ConeFilter
