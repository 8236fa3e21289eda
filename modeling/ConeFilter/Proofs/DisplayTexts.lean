import ConeFilter.Proofs.FlattenedPaths
import ConeFilter.Proofs.OperandTexts
import ConeFilter.Proofs.ReferencedFields
import ConeFilter.Proofs.SlotNames

/-!
The written form of predicates identifies the predicate. A condition in parentheses and arithmetic
in parentheses begin alike, and are told apart by the operator behind what they begin with: no
text is both a condition and an operand in front of an arithmetic operator. The results of passes
meet what that needs, if the columns of their trees have the names of identifiers.
-/
namespace ConeFilter

/-! Lists of values. -/

namespace Value

theorem render_start {value : Value} (finite : value.Finite) :
    ∃ c more, value.render.toList = c :: more ∧ isDelimiter c = false := by
  have number {text : List Char} (starts : StartsNumber text) :
      ∃ c more, text = c :: more ∧ isDelimiter c = false := by
    obtain ⟨c, more, rfl | rfl, digit⟩ := starts
    · refine ⟨c, more, rfl, ?_⟩
      by_contra delimiter
      rcases delimiter_cases c (by simpa using delimiter) with rfl | rfl | rfl <;> cases digit
    · exact ⟨'-', c :: more, rfl, rfl⟩
  cases value with
  | text content => exact ⟨'\'', _, Operand.render_text content, rfl⟩
  | int n => exact number (intText_starts n.toInt)
  | float x => exact number (floatText_starts x finite)
  | bool truth => cases truth <;> exact ⟨_, _, rfl, rfl⟩

def laterTexts (values : List Value) : List Char :=
  values.flatMap fun value => ',' :: ' ' :: value.render.toList

theorem ends_later (values : List Value) (rest : List Char) :
    Ends (laterTexts values ++ ')' :: rest) := by
  cases values with
  | nil => exact ends_closing rest
  | cons value values => exact (ends_cons _ _).mpr rfl

theorem renderValues_nil : (renderValues []).toList = ['(', ')'] := by simp [renderValues]

theorem intercalate_later (first : Value) (values : List Value) :
    [',', ' '].intercalate ((first :: values).map (String.toList ∘ render)) =
      first.render.toList ++ laterTexts values := by
  induction values generalizing first with
  | nil => simp [laterTexts]
  | cons second values ih =>
      rw [List.map_cons, List.map_cons, List.intercalate_cons_cons, ← List.map_cons, ih second]
      simp [laterTexts]

theorem renderValues_cons (value : Value) (values : List Value) :
    (renderValues (value :: values)).toList =
      '(' :: (value.render.toList ++ (laterTexts values ++ [')'])) := by
  have later := intercalate_later value values
  rw [List.map_cons, Function.comp_apply] at later
  simp [renderValues, later]

theorem literal_append_injective {first second : Value} {rest others : List Char}
    (finite : first.Finite) (alsoFinite : second.Finite) (ends : Ends rest)
    (otherEnds : Ends others) (same : first.render.toList ++ rest = second.render.toList ++ others) :
    first = second ∧ rest = others := by
  obtain ⟨literals, rests⟩ := @Operand.render_append_injective (.literal first) (.literal second)
    rest others finite alsoFinite ends otherEnds same
  exact ⟨Operand.literal.inj literals, rests⟩

theorem later_append_injective {first second : List Value} {rest others : List Char}
    (finite : ∀ value ∈ first, value.Finite) (alsoFinite : ∀ value ∈ second, value.Finite)
    (same : laterTexts first ++ ')' :: rest = laterTexts second ++ ')' :: others) :
    first = second ∧ rest = others := by
  induction first generalizing second with
  | nil =>
      cases second with
      | nil => exact ⟨rfl, (List.cons.inj same).2⟩
      | cons value values => exact absurd (List.cons.inj same).1 (by decide)
  | cons value values ih =>
      cases second with
      | nil => exact absurd (List.cons.inj same).1 (by decide)
      | cons other later =>
          obtain ⟨valueFinite, valuesFinite⟩ := List.forall_mem_cons.mp finite
          obtain ⟨otherFinite, laterFinite⟩ := List.forall_mem_cons.mp alsoFinite
          have texts : value.render.toList ++ (laterTexts values ++ ')' :: rest) =
              other.render.toList ++ (laterTexts later ++ ')' :: others) := by
            simpa [laterTexts] using same
          obtain ⟨heads, tails⟩ := literal_append_injective valueFinite otherFinite
            (ends_later values rest) (ends_later later others) texts
          obtain ⟨rfl, rests⟩ := ih valuesFinite laterFinite tails
          exact ⟨by rw [heads], rests⟩

theorem renderValues_append_injective {first second : List Value} {rest others : List Char}
    (finite : ∀ value ∈ first, value.Finite) (alsoFinite : ∀ value ∈ second, value.Finite)
    (same : (renderValues first).toList ++ rest = (renderValues second).toList ++ others) :
    first = second ∧ rest = others := by
  -- No value begins with the parenthesis that closes the empty list.
  have nonempty {value : Value} {later text : List Char} (valueFinite : value.Finite) :
      ')' :: text ≠ value.render.toList ++ later := by
    obtain ⟨c, more, shown, free⟩ := render_start valueFinite
    intro closed
    rw [shown] at closed
    obtain ⟨rfl, -⟩ := List.cons.inj closed
    cases free
  cases first with
  | nil =>
      cases second with
      | nil => exact ⟨rfl, by simpa [renderValues_nil] using same⟩
      | cons other later =>
          simp only [renderValues_nil, renderValues_cons, List.cons_append, List.cons.injEq,
            true_and, List.append_assoc, List.nil_append] at same
          exact absurd same (nonempty (alsoFinite other List.mem_cons_self))
  | cons value values =>
      cases second with
      | nil =>
          simp only [renderValues_nil, renderValues_cons, List.cons_append, List.cons.injEq,
            true_and, List.append_assoc, List.nil_append] at same
          exact absurd same.symm (nonempty (finite value List.mem_cons_self))
      | cons other later =>
          obtain ⟨valueFinite, valuesFinite⟩ := List.forall_mem_cons.mp finite
          obtain ⟨otherFinite, laterFinite⟩ := List.forall_mem_cons.mp alsoFinite
          simp only [renderValues_cons, List.cons_append, List.cons.injEq, true_and,
            List.append_assoc, List.nil_append] at same
          obtain ⟨rfl, tails⟩ := literal_append_injective valueFinite otherFinite
            (ends_later _ _) (ends_later _ _) same
          obtain ⟨rfl, rests⟩ := later_append_injective valuesFinite laterFinite tails
          exact ⟨rfl, rests⟩

end Value

/-! Conditions. A test has a subject, a keyword and a rest. -/

namespace Predicate

def Readable (predicate : Predicate) : Prop :=
  (∀ operand ∈ predicate.operands, operand.Readable) ∧ ∀ value ∈ predicate.values, value.Finite

def test? : Predicate → Option (Operand × String × String)
  | .compare op left right => some (left, op.symbol, right.render)
  | .isNull operand true => some (operand, "IS", "NULL")
  | .isNull operand false => some (operand, "IS", "NOT NULL")
  | .member operand values => some (operand, "IN", renderValues values)
  | .and _ _ | .or _ _ | .not _ => none

def keywords : List String := ["=", "<", "<=", ">", ">=", "ICONTAINS", "IS", "IN"]

/-- What a condition is made of: a test, or other conditions. -/
theorem forms_induction {motive : Predicate → Prop}
    (test : ∀ predicate subject keyword rest,
      predicate.test? = some (subject, keyword, rest) → motive predicate)
    (join : ∀ op left right, motive left → motive right → motive (Connective.join op left right))
    (not : ∀ inner, motive inner → motive (.not inner)) (predicate : Predicate) :
    motive predicate := by
  induction predicate with
  | compare op left right => exact test _ _ _ _ rfl
  | isNull operand expected => cases expected <;> exact test _ _ _ _ rfl
  | and left right leftIh rightIh => exact join .and left right leftIh rightIh
  | or left right leftIh rightIh => exact join .or left right leftIh rightIh
  | not inner ih => exact not inner ih
  | member operand values => exact test _ _ _ _ rfl

section
variable {predicate : Predicate} {subject : Operand} {keyword rest : String}
  (tested : predicate.test? = some (subject, keyword, rest))
include tested

theorem test_cases :
    (∃ op right, predicate = .compare op subject right ∧ keyword = op.symbol ∧
      rest = right.render) ∨
    (∃ expected, predicate = .isNull subject expected ∧ keyword = "IS" ∧
      rest = if expected then "NULL" else "NOT NULL") ∨
    ∃ values, predicate = .member subject values ∧ keyword = "IN" ∧ rest = renderValues values := by
  cases predicate with
  | compare op left right =>
      cases tested
      exact .inl ⟨op, right, rfl, rfl, rfl⟩
  | isNull operand expected =>
      cases expected <;> cases tested <;> exact .inr (.inl ⟨_, rfl, rfl, rfl⟩)
  | member operand values =>
      cases tested
      exact .inr (.inr ⟨values, rfl, rfl, rfl⟩)
  | and _ _ | or _ _ | not _ => cases tested

theorem render_test : predicate.render.toList =
    subject.render.toList ++ ' ' :: (keyword.toList ++ ' ' :: rest.toList) := by
  rcases test_cases tested with ⟨op, right, rfl, rfl, rfl⟩ | ⟨expected, rfl, rfl, rfl⟩ |
    ⟨values, rfl, rfl, rfl⟩
  · simp [render]
  · cases expected <;> simp [render]
  · simp [render]

theorem readable_subject (readable : predicate.Readable) : subject.Readable := by
  rcases test_cases tested with ⟨op, right, rfl, -, -⟩ | ⟨expected, rfl, -, -⟩ |
    ⟨values, rfl, -, -⟩ <;> exact readable.1 _ List.mem_cons_self

/-! A keyword is a word, and neither an operator of arithmetic nor a parenthesis. -/

theorem keyword_listed : keyword ∈ keywords := by
  rcases test_cases tested with ⟨op, -, -, rfl, -⟩ | ⟨-, -, rfl, -⟩ | ⟨-, -, rfl, -⟩
  · cases op <;> simp [CompareOp.symbol, keywords]
  · simp [keywords]
  · simp [keywords]

theorem keyword_unbroken : Unbroken keyword.toList := by
  have all : ∀ word ∈ keywords, Unbroken word.toList := by simp [keywords, Unbroken, isDelimiter]
  exact all keyword (keyword_listed tested)

theorem keyword_ne_symbol (op : ArithOp) : keyword ≠ op.symbol := by
  rintro rfl
  have absent := keyword_listed tested
  cases op <;> simp [ArithOp.symbol, keywords] at absent

theorem keyword_ne_parenthesis (first second : List Char) :
    keyword.toList ++ first ≠ '(' :: second := by
  have all : ∀ word ∈ keywords, word.toList ++ first ≠ '(' :: second := by simp [keywords]
  exact all keyword (keyword_listed tested)

end

theorem render_join (op : Connective) (left right : Predicate) :
    (op.join left right).render.toList = '(' :: (left.render.toList ++
      ' ' :: (op.label.toList ++ ' ' :: (right.render.toList ++ [')']))) := by
  cases op <;> simp [Connective.join, render, Connective.label]

theorem render_not (inner : Predicate) : (Predicate.not inner).render.toList =
    (Operand.field "NOT").render.toList ++ ' ' :: '(' :: (inner.render.toList ++ [')']) := by
  simp [render, Operand.render]

theorem readable_join {op : Connective} {left right : Predicate}
    (readable : (op.join left right).Readable) : left.Readable ∧ right.Readable := by
  have operands : (op.join left right).operands = left.operands ++ right.operands := by
    cases op <;> rfl
  have values : (op.join left right).values = left.values ++ right.values := by cases op <;> rfl
  unfold Readable at readable
  rw [operands, values, List.forall_mem_append, List.forall_mem_append] at readable
  obtain ⟨⟨leftOperands, rightOperands⟩, leftValues, rightValues⟩ := readable
  exact ⟨⟨leftOperands, leftValues⟩, rightOperands, rightValues⟩

/-- The word in front of a negated condition could be a name. -/
theorem not_readable : (Operand.field "NOT").Readable where
  first := ⟨'N', ['O', 'T'], by simp, .inl rfl⟩
  parts := by simp
  not_true := by decide
  not_false := by decide

/-- No condition can be read where an operand of arithmetic stands. -/
theorem condition_ne_operand {predicate : Predicate} {subject : Operand} {op : ArithOp}
    {rest others : List Char} (readable : predicate.Readable)
    (subjectReadable : subject.Readable) :
    predicate.render.toList ++ rest ≠
      subject.render.toList ++ ' ' :: (op.symbol.toList ++ ' ' :: others) := by
  induction predicate using forms_induction generalizing subject op rest others with
  | test predicate other keyword tail tested =>
      intro same
      rw [render_test tested] at same
      simp only [List.append_assoc, List.cons_append] at same
      obtain ⟨-, behind⟩ := Operand.render_append_injective (readable_subject tested readable)
        subjectReadable (ends_blank _) (ends_blank _) same
      have symbol : Unbroken op.symbol.toList := by
        cases op <;> simp [ArithOp.symbol, Unbroken, isDelimiter]
      obtain ⟨keywords, -⟩ := unbroken_append_injective (keyword_unbroken tested) symbol
        (ends_blank _) (ends_blank _) (List.cons.inj behind).2
      exact keyword_ne_symbol tested op (String.toList_inj.mp keywords)
  | join connective left right leftIh rightIh =>
      intro same
      rw [render_join] at same
      -- The operand is arithmetic in parentheses, and what they begin with is a shorter clash.
      have opened := congrArg opening same
      rw [Operand.opening_render subjectReadable] at opened
      obtain ⟨inner, first, second, rfl⟩ := Operand.opening_parenthesis opened.symm
      simp only [Operand.render_binary, List.cons_append, List.cons.injEq, true_and,
        List.append_assoc, List.nil_append] at same
      exact leftIh (readable_join readable).1 subjectReadable.1 same
  | not inner ih =>
      intro same
      rw [render_not] at same
      simp only [List.append_assoc, List.cons_append] at same
      obtain ⟨-, behind⟩ := Operand.render_append_injective not_readable subjectReadable
        (ends_blank _) (ends_blank _) same
      cases op <;> simp [ArithOp.symbol] at behind

theorem symbol_injective (op other : CompareOp) (same : op.symbol = other.symbol) : op = other := by
  cases op <;> cases other <;> first | rfl | exact absurd same (by decide)

theorem symbol_ne_word (op : CompareOp) : op.symbol ≠ "IS" ∧ op.symbol ≠ "IN" := by
  cases op <;> decide

theorem null_append_injective {expected other : Bool} {rest others : List Char}
    (same : (if expected then "NULL" else "NOT NULL").toList ++ rest =
      (if other then "NULL" else "NOT NULL").toList ++ others) :
    expected = other ∧ rest = others := by
  cases expected <;> cases other <;> simp_all

theorem test_injective {first second : Predicate} {subject : Operand} {keyword tail later : String}
    {rest others : List Char} (readable : first.Readable) (alsoReadable : second.Readable)
    (tested : first.test? = some (subject, keyword, tail))
    (alsoTested : second.test? = some (subject, keyword, later)) (ends : Ends rest)
    (otherEnds : Ends others) (same : tail.toList ++ rest = later.toList ++ others) :
    first = second ∧ rest = others := by
  rcases test_cases tested with ⟨op, right, rfl, word, rfl⟩ | ⟨expected, rfl, word, rfl⟩ |
    ⟨values, rfl, word, rfl⟩ <;>
  rcases test_cases alsoTested with ⟨other, otherRight, rfl, otherWord, rfl⟩ |
    ⟨other, rfl, otherWord, rfl⟩ | ⟨otherValues, rfl, otherWord, rfl⟩
  case inl.inl =>
    obtain rfl := symbol_injective op other (word.symm.trans otherWord)
    obtain ⟨rfl, rests⟩ := Operand.render_append_injective
      (readable.1 right (by simp [operands])) (alsoReadable.1 otherRight (by simp [operands]))
      ends otherEnds same
    exact ⟨rfl, rests⟩
  case inr.inl.inr.inl =>
    obtain ⟨rfl, rests⟩ := null_append_injective same
    exact ⟨rfl, rests⟩
  case inr.inr.inr.inr =>
    obtain ⟨rfl, rests⟩ := Value.renderValues_append_injective
      (fun value listed => readable.2 value (List.mem_append_right _ listed))
      (fun value listed => alsoReadable.2 value (List.mem_append_right _ listed)) same
    exact ⟨rfl, rests⟩
  case inl.inr.inl => exact absurd (word.symm.trans otherWord) (symbol_ne_word op).1
  case inl.inr.inr => exact absurd (word.symm.trans otherWord) (symbol_ne_word op).2
  case inr.inl.inl => exact absurd (otherWord.symm.trans word) (symbol_ne_word other).1
  case inr.inr.inl => exact absurd (otherWord.symm.trans word) (symbol_ne_word other).2
  all_goals exact absurd (word.symm.trans otherWord) (by decide)

/-! The three forms of conditions begin differently. -/

section
variable {predicate inner left right : Predicate} {subject : Operand} {keyword tail : String}
  {rest others : List Char}

theorem test_ne_join (op : Connective)
    (tested : predicate.test? = some (subject, keyword, tail)) (readable : predicate.Readable)
    (leftReadable : left.Readable) :
    predicate.render.toList ++ rest ≠ (op.join left right).render.toList ++ others := by
  intro same
  rw [render_test tested, render_join] at same
  simp only [List.append_assoc, List.cons_append] at same
  have subjectReadable := readable_subject tested readable
  have opened := congrArg opening same
  rw [Operand.opening_render subjectReadable] at opened
  obtain ⟨_, first, second, rfl⟩ := Operand.opening_parenthesis opened
  simp only [Operand.render_binary, List.cons_append, List.cons.injEq, true_and,
    List.append_assoc, List.nil_append] at same
  exact condition_ne_operand leftReadable subjectReadable.1 same.symm

theorem test_ne_not (tested : predicate.test? = some (subject, keyword, tail))
    (readable : predicate.Readable) :
    predicate.render.toList ++ rest ≠ (Predicate.not inner).render.toList ++ others := by
  intro same
  rw [render_test tested, render_not] at same
  simp only [List.append_assoc, List.cons_append] at same
  obtain ⟨-, behind⟩ := Operand.render_append_injective (readable_subject tested readable)
    not_readable (ends_blank _) (ends_blank _) same
  exact keyword_ne_parenthesis tested _ _ (List.cons.inj behind).2

theorem join_ne_not (op : Connective) :
    (op.join left right).render.toList ++ rest ≠ (Predicate.not inner).render.toList ++ others := by
  intro same
  rw [render_join, render_not] at same
  exact absurd (List.cons.inj same).1 (by decide)

theorem label_append_injective {op other : Connective}
    (same : op.label.toList ++ ' ' :: rest = other.label.toList ++ ' ' :: others) :
    op = other ∧ rest = others := by
  cases op <;> cases other <;> simp_all [Connective.label]

end

/-- A condition and its end are read off any text that it begins, up to a delimiter. -/
theorem render_append_injective {first second : Predicate} {rest others : List Char}
    (readable : first.Readable) (alsoReadable : second.Readable) (ends : Ends rest)
    (otherEnds : Ends others)
    (same : first.render.toList ++ rest = second.render.toList ++ others) :
    first = second ∧ rest = others := by
  induction first using forms_induction generalizing second rest others with
  | test predicate subject keyword tail tested =>
      cases second using forms_induction with
      | test second other word later alsoTested =>
          rw [render_test tested, render_test alsoTested] at same
          simp only [List.append_assoc, List.cons_append] at same
          obtain ⟨rfl, behind⟩ := Operand.render_append_injective (readable_subject tested readable)
            (readable_subject alsoTested alsoReadable) (ends_blank _) (ends_blank _) same
          obtain ⟨words, tails⟩ := unbroken_append_injective (keyword_unbroken tested)
            (keyword_unbroken alsoTested) (ends_blank _) (ends_blank _) (List.cons.inj behind).2
          obtain rfl := String.toList_inj.mp words
          exact test_injective readable alsoReadable tested alsoTested ends otherEnds
            (List.cons.inj tails).2
      | join op left right =>
          exact absurd same (test_ne_join op tested readable (readable_join alsoReadable).1)
      | not inner => exact absurd same (test_ne_not tested readable)
  | join op left right leftIh rightIh =>
      obtain ⟨leftReadable, rightReadable⟩ := readable_join readable
      cases second using forms_induction with
      | test second subject keyword tail tested =>
          exact absurd same.symm (test_ne_join op tested alsoReadable leftReadable)
      | join other otherLeft otherRight =>
          obtain ⟨otherLeftReadable, otherRightReadable⟩ := readable_join alsoReadable
          rw [render_join, render_join] at same
          simp only [List.cons_append, List.cons.injEq, true_and, List.append_assoc,
            List.nil_append] at same
          obtain ⟨rfl, afterLeft⟩ := leftIh leftReadable otherLeftReadable (ends_blank _)
            (ends_blank _) same
          obtain ⟨rfl, afterLabel⟩ := label_append_injective (List.cons.inj afterLeft).2
          obtain ⟨rfl, afterRight⟩ := rightIh rightReadable otherRightReadable (ends_closing _)
            (ends_closing _) afterLabel
          exact ⟨rfl, (List.cons.inj afterRight).2⟩
      | not inner => exact absurd same (join_ne_not op)
  | not inner ih =>
      cases second using forms_induction with
      | test second subject keyword tail tested =>
          exact absurd same.symm (test_ne_not tested alsoReadable)
      | join op left right => exact absurd same.symm (join_ne_not op)
      | not other =>
          rw [render_not, render_not] at same
          simp only [List.append_assoc, List.cons_append, List.append_cancel_left_eq,
            List.cons.injEq, true_and, List.nil_append] at same
          have otherReadable : other.Readable := alsoReadable
          obtain ⟨rfl, behind⟩ := ih readable otherReadable (ends_closing _) (ends_closing _) same
          exact ⟨rfl, (List.cons.inj behind).2⟩

end Predicate

/-! Results. Their values are finite, their constants are folded, and their fields are columns of
the tree or slots. -/

namespace Operand

theorem readable_of_folded (operand : Operand) (folded : operand.Folded)
    (finite : ∀ value ∈ operand.values, value.Finite)
    (named : ∀ field ∈ operand.fields, IsName field) : operand.Readable := by
  induction operand with
  | literal value => exact finite value List.mem_cons_self
  | field name => exact named name List.mem_cons_self
  | binary op left right leftIh rightIh =>
      obtain ⟨leftFolded, rightFolded, -⟩ := folded
      obtain ⟨leftFinite, rightFinite⟩ := List.forall_mem_append.mp finite
      obtain ⟨leftNamed, rightNamed⟩ := List.forall_mem_append.mp named
      exact ⟨leftIh leftFolded leftFinite leftNamed, rightIh rightFolded rightFinite rightNamed⟩
  | negation inner ih => exact ⟨ih folded.1 finite named, folded.2⟩

end Operand

namespace Predicate

theorem fields_of_operand (predicate : Predicate) (operand : Operand)
    (inside : operand ∈ predicate.operands) :
    (∀ field ∈ operand.fields, field ∈ predicate.fields) ∧
      ∀ value ∈ operand.values, value ∈ predicate.values := by
  induction predicate with
  | compare op left right =>
      simp only [operands, List.mem_cons, List.not_mem_nil, or_false] at inside
      rcases inside with rfl | rfl <;> simp_all [fields, values]
  | isNull subject expected =>
      obtain rfl := List.mem_singleton.mp inside
      exact ⟨fun _ => id, fun _ => id⟩
  | and left right leftIh rightIh | or left right leftIh rightIh =>
      rcases List.mem_append.mp inside with before | after
      · exact ⟨fun field used => List.mem_append_left _ ((leftIh before).1 field used),
          fun value used => List.mem_append_left _ ((leftIh before).2 value used)⟩
      · exact ⟨fun field used => List.mem_append_right _ ((rightIh after).1 field used),
          fun value used => List.mem_append_right _ ((rightIh after).2 value used)⟩
  | not inner ih => exact ih inside
  | member subject listed =>
      obtain rfl := List.mem_singleton.mp inside
      exact ⟨fun _ => id, fun value used => List.mem_append_left _ used⟩

theorem readable_of_canonical {predicate : Predicate} {extra : Extra}
    (canonical : Resolution.Canonical { value := .condition predicate, extra })
    (named : ∀ field ∈ predicate.fields, IsName field) : predicate.Readable := by
  refine ⟨fun operand inside => ?_, canonical.finite_values⟩
  obtain ⟨fields, values⟩ := predicate.fields_of_operand operand inside
  exact operand.readable_of_folded (canonical.folded operand inside)
    (fun value used => canonical.finite_values value (values value used))
    fun field used => named field (fields field used)

end Predicate

/-! Names that passes make. Those that join names hold an underscore, as no truth value does. -/

theorem IsName.of_underscore {name : String}
    (first : ∃ c rest, name.toList = c :: rest ∧ (c.isAlpha = true ∨ c = '_'))
    (parts : ∀ c ∈ name.toList, c.isAlphanum = true ∨ c = '_') (joined : '_' ∈ name.toList) :
    IsName name where
  first := first
  parts := parts
  not_true := by
    rintro rfl
    simp at joined
  not_false := by
    rintro rfl
    simp at joined

theorem following_parts (segments : List (List Char))
    (parts : ∀ segment ∈ segments, ∀ c ∈ segment, c.isAlphanum = true ∨ c = '_') :
    ∀ c ∈ Scope.following segments, c.isAlphanum = true ∨ c = '_' := by
  induction segments with
  | nil => simp [Scope.following]
  | cons segment rest ih =>
      obtain ⟨segmentParts, restParts⟩ := List.forall_mem_cons.mp parts
      rw [Scope.following, Scope.joined_cons]
      refine List.forall_mem_append.mpr ⟨by simp [Scope.separator], ?_⟩
      exact List.forall_mem_append.mpr ⟨segmentParts, ih restParts⟩

theorem flatten_isName (path : List String) (present : path ≠ [])
    (named : ∀ segment ∈ path, IsName segment) : IsName (Scope.flatten path) := by
  obtain ⟨segment, rest, rfl⟩ := List.exists_cons_of_ne_nil present
  obtain ⟨segmentNamed, restNamed⟩ := List.forall_mem_cons.mp named
  cases rest with
  | nil => simpa [Scope.flatten] using segmentNamed
  | cons second rest =>
      have text : (Scope.flatten (segment :: second :: rest)).toList =
          segment.toList ++ Scope.following ((second :: rest).map String.toList) := by
        rw [Scope.flatten_toList, List.map_cons, Scope.joined_cons]
      obtain ⟨c, more, shown, start⟩ := segmentNamed.first
      apply IsName.of_underscore
      · exact ⟨c, _, by rw [text, shown]; rfl, start⟩
      · rw [text]
        refine List.forall_mem_append.mpr ⟨segmentNamed.parts, following_parts _ ?_⟩
        intro characters listed
        obtain ⟨other, inside, rfl⟩ := List.mem_map.mp listed
        exact (restNamed other inside).parts
      · rw [text]
        simp [Scope.following, Scope.separator]

theorem slotName_isName (index : Nat) : IsName (Cone.slotName index) := by
  have text := Cone.slotName_toList index
  apply IsName.of_underscore
  · exact ⟨'c', _, by rw [text]; rfl, .inl rfl⟩
  · rw [text]
    refine List.forall_mem_append.mpr ⟨by simp [Cone.slotStem], fun c inside => .inl ?_⟩
    unfold Cone.slotSuffix at inside
    split at inside
    · cases inside
    · have digit := Numeral.digitsOf_digits index c inside
      simp [Char.isAlphanum, digit]
  · rw [text]
    simp [Cone.slotStem]

/-- The fields of a result are names if the segments of all columns are. -/
theorem Predicate.readable_of_resolved {scope : Scope} {node : Node} {predicate : Predicate}
    {extra : Extra}
    (resolved : (scope.resolve node).1 = .ok { value := .condition predicate, extra })
    (named : ∀ path ∈ node.columns, ∀ segment ∈ path, IsName segment) : predicate.Readable := by
  refine readable_of_canonical (resolution_canonical scope node _ resolved) fun field used => ?_
  obtain ⟨-, events, asserted⟩ := (scope.resolve_condition_iff _ _ _).mp resolved
  rcases (asserted.mem_fields field).mp used with column | slot
  · obtain ⟨path, mentioned, rfl⟩ := List.mem_map.mp column
    refine flatten_isName path ?_ (named path mentioned)
    rintro rfl
    exact absurd (asserted.walked [] mentioned) (by simp [Scope.walk])
  · obtain ⟨index, -, rfl⟩ := List.mem_map.mp slot
    exact slotName_isName index

/-- Results with one written form are the same predicate, whatever catalogs they come from. -/
theorem Predicate.written_form_identifies (scope other : Scope) (node tree : Node)
    (first second : Predicate) (extra more : Extra)
    (resolved : (scope.resolve node).1 = .ok { value := .condition first, extra })
    (alsoResolved : (other.resolve tree).1 = .ok { value := .condition second, extra := more })
    (named : ∀ path ∈ node.columns, ∀ segment ∈ path, IsName segment)
    (alsoNamed : ∀ path ∈ tree.columns, ∀ segment ∈ path, IsName segment)
    (same : first.render = second.render) : first = second := by
  have texts : first.render.toList ++ [] = second.render.toList ++ [] := by rw [same]
  exact (render_append_injective (readable_of_resolved resolved named)
    (readable_of_resolved alsoResolved alsoNamed) ends_nil ends_nil texts).1

/-! Two trees for `-mag > -1`, one with a constant to compute, the other with a signed one. -/

def computedBound : Node :=
  .relate .greater (.negate (.nested (.column ["mag"])))
    (.arithmetic .sub (.literal .integer "1") (.literal .integer "2"))

def signedBound : Node :=
  .nested (.relate .greater (.negate (.column ["mag"])) (.negate (.literal .integer "1")))

def brightStars : Predicate :=
  .compare .greater (.negation (.field "mag")) (.literal (.int (-1)))

theorem brightStars_identified :
    ∃ first second, (starScope.resolve computedBound).1 =
        .ok { value := .condition first, extra := {} } ∧
      (starScope.resolve signedBound).1 = .ok { value := .condition second, extra := {} } ∧
      first.render = "-mag > -1" ∧ second.render = "-mag > -1" ∧ first = second := by
  have name : IsName "mag" := ⟨⟨'m', ['a', 'g'], by simp, .inl rfl⟩, by simp, by decide, by decide⟩
  have columns : computedBound.columns = [["mag"]] ∧ signedBound.columns = [["mag"]] := by decide
  have named : ∀ path ∈ [["mag"]], ∀ segment ∈ path, IsName segment := by simpa using name
  have shown : brightStars.render = "-mag > -1" := by decide +kernel
  exact ⟨brightStars, brightStars, rfl, rfl, shown, shown,
    Predicate.written_form_identifies starScope starScope computedBound signedBound brightStars
      brightStars {} {} rfl rfl (by rw [columns.1]; exact named) (by rw [columns.2]; exact named)
      rfl⟩

end ConeFilter
