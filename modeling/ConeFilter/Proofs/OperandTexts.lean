import ConeFilter.Predicate
import ConeFilter.Proofs.CanonicalResults
import ConeFilter.Proofs.NumberTexts
import ConeFilter.Sql.Scanner

/-!
The written form of operands can be read back. How an operand begins tells whether it is a text,
arithmetic, a sign or a single word, and where it ends is told by the delimiter behind it, unless
it brings quotes or parentheses of its own. Names must not look like anything else for that: they
are identifiers and not the two words for truth values.
-/
namespace ConeFilter

/-! Words end at the first delimiter. -/

def isDelimiter (c : Char) : Bool := c = ' ' || c = ')' || c = ','

def Ends (rest : List Char) : Prop := ∀ c ∈ rest.head?, isDelimiter c = true

@[simp] theorem ends_nil : Ends [] := by simp [Ends]

@[simp] theorem ends_cons (c : Char) (rest : List Char) :
    Ends (c :: rest) ↔ isDelimiter c = true := by
  simp [Ends]

def Unbroken (text : List Char) : Prop := ∀ c ∈ text, isDelimiter c = false

theorem ends_blank (rest : List Char) : Ends (' ' :: rest) := (ends_cons _ _).mpr rfl

theorem ends_closing (rest : List Char) : Ends (')' :: rest) := (ends_cons _ _).mpr rfl

theorem unbroken_append_injective {first second rest others : List Char}
    (firstUnbroken : Unbroken first) (secondUnbroken : Unbroken second) (ends : Ends rest)
    (otherEnds : Ends others) (same : first ++ rest = second ++ others) :
    first = second ∧ rest = others := by
  induction first generalizing second with
  | nil =>
      cases second with
      | nil => exact ⟨rfl, same⟩
      | cons d second =>
          obtain rfl : rest = d :: (second ++ others) := same
          have free := secondUnbroken d List.mem_cons_self
          rw [(ends_cons d _).mp ends] at free
          cases free
  | cons c first ih =>
      obtain ⟨free, restUnbroken⟩ := List.forall_mem_cons.mp firstUnbroken
      cases second with
      | nil =>
          obtain rfl : c :: (first ++ rest) = others := same
          rw [(ends_cons c _).mp otherEnds] at free
          cases free
      | cons d second =>
          obtain ⟨rfl, tails⟩ := List.cons.inj same
          obtain ⟨rfl, rests⟩ := ih restUnbroken (List.forall_mem_cons.mp secondUnbroken).2 tails
          exact ⟨rfl, rests⟩

/-! Quoted texts end at the first quote that is not doubled, so they are read back as the
scanner reads strings. -/

theorem quotedBody_doubleQuotes (content rest : List Char) (ends : Ends rest) :
    Sql.quotedBody '\'' false false (Value.doubleQuotes content ++ '\'' :: rest) =
      some (content, rest) := by
  induction content with
  | nil =>
      cases rest with
      | nil => rfl
      | cons d rest =>
          have open' : d ≠ '\'' := by
            rintro rfl
            cases (ends_cons _ _).mp ends
          simp [Value.doubleQuotes, Sql.quotedBody, open']
  | cons c content ih =>
      by_cases quote : c = '\''
      · simp [Value.doubleQuotes, Sql.quotedBody, quote, ih, Sql.before]
      · rw [Value.doubleQuotes, if_neg quote]
        obtain ⟨d, more, shown⟩ := List.exists_cons_of_ne_nil
          (List.append_ne_nil_of_right_ne_nil (Value.doubleQuotes content)
            (List.cons_ne_nil '\'' rest))
        rw [List.cons_append, shown, Sql.quotedBody, if_neg quote, ← shown, ih]
        simp [Sql.before]

theorem quoted_append_injective {first second rest others : List Char} (ends : Ends rest)
    (otherEnds : Ends others) (same : Value.doubleQuotes first ++ '\'' :: rest =
      Value.doubleQuotes second ++ '\'' :: others) : first = second ∧ rest = others := by
  have read := quotedBody_doubleQuotes first rest ends
  rw [same, quotedBody_doubleQuotes second others otherEnds] at read
  cases read
  exact ⟨rfl, rfl⟩

/-! Words: names, truth values and numbers. Each kind is known by its characters. -/

structure IsName (name : String) : Prop where
  first : ∃ c rest, name.toList = c :: rest ∧ (c.isAlpha = true ∨ c = '_')
  parts : ∀ c ∈ name.toList, c.isAlphanum = true ∨ c = '_'
  not_true : name ≠ "TRUE"
  not_false : name ≠ "FALSE"

def StartsNumber (text : List Char) : Prop :=
  ∃ c rest, (text = c :: rest ∨ text = '-' :: c :: rest) ∧ c.isDigit = true

inductive WordKind where
  | name
  | truth
  | integer
  | fraction
deriving DecidableEq

def wordKind (text : List Char) : WordKind :=
  if text = "TRUE".toList ∨ text = "FALSE".toList then .truth
  else if text.head?.any (fun c => c.isAlpha || c = '_') then .name
  else if '.' ∈ text ∨ 'e' ∈ text then .fraction
  else .integer

theorem delimiter_cases (c : Char) (delimiter : isDelimiter c = true) :
    c = ' ' ∨ c = ')' ∨ c = ',' := by
  simpa [isDelimiter, or_assoc] using delimiter

theorem IsName.unbroken {name : String} (named : IsName name) : Unbroken name.toList := by
  intro c inside
  by_contra delimiter
  rcases delimiter_cases c (by simpa using delimiter) with rfl | rfl | rfl <;>
    rcases named.parts _ inside with part | part <;> cases part

theorem IsName.wordKind {name : String} (named : IsName name) :
    wordKind name.toList = .name := by
  obtain ⟨c, rest, text, start⟩ := named.first
  have truthless : ¬ (name.toList = "TRUE".toList ∨ name.toList = "FALSE".toList) := by
    rw [String.toList_inj, String.toList_inj]
    exact not_or.mpr ⟨named.not_true, named.not_false⟩
  have begins : name.toList.head?.any (fun c => c.isAlpha || c = '_') = true := by
    rw [text]
    simpa using start
  rw [ConeFilter.wordKind, if_neg truthless, if_pos begins]

theorem not_alpha_of_digit (c : Char) (digit : c.isDigit = true) : c.isAlpha = false := by
  simp only [Char.isDigit, Char.isAlpha, Char.isUpper, Char.isLower] at digit ⊢
  grind

/-- A number begins with no letter, so neither does it spell a truth value. -/
theorem StartsNumber.wordKind {text : List Char} (number : StartsNumber text) :
    wordKind text = if '.' ∈ text ∨ 'e' ∈ text then .fraction else .integer := by
  obtain ⟨c, rest, shown, digit⟩ := number
  have letterless := not_alpha_of_digit c digit
  have other : c ≠ '_' ∧ c ≠ 'T' ∧ c ≠ 'F' := by
    refine ⟨?_, ?_, ?_⟩ <;>
      · rintro rfl
        cases digit
  unfold ConeFilter.wordKind
  rcases shown with rfl | rfl
  · simp [letterless, other]
  · simp

theorem number_unbroken {text : List Char} (parts : ∀ c ∈ text, Numeral.isNumberPart c = true) :
    Unbroken text := by
  intro c inside
  by_contra delimiter
  rcases delimiter_cases c (by simpa using delimiter) with rfl | rfl | rfl <;>
    cases parts _ inside

/-! Numbers in front of a delimiter. -/

theorem intText_starts (n : Int) : StartsNumber (Numeral.intText n).toList := by
  obtain ⟨c, rest, shown⟩ := List.exists_cons_of_ne_nil (Numeral.digitsOf_ne_nil n.natAbs)
  have digit : c.isDigit = true :=
    Numeral.digitsOf_digits n.natAbs c (shown ▸ List.mem_cons_self)
  refine ⟨c, rest, ?_, digit⟩
  rw [← shown]
  exact (Numeral.intText_cases n).symm.imp And.right And.right

theorem intText_pointless (n : Int) :
    ¬ ('.' ∈ (Numeral.intText n).toList ∨ 'e' ∈ (Numeral.intText n).toList) := by
  have absent (c : Char) (other : c.isDigit = false) (sign : c ≠ '-') :
      c ∉ (Numeral.intText n).toList := by
    intro inside
    have written : c ∈ Numeral.digitsOf n.natAbs := by
      rcases Numeral.intText_cases n with ⟨-, text⟩ | ⟨-, text⟩ <;> rw [text] at inside
      · exact (List.mem_cons.mp inside).resolve_left sign
      · exact inside
    rw [Numeral.digitsOf_digits _ c written] at other
    cases other
  exact not_or.mpr ⟨absent '.' rfl (by decide), absent 'e' rfl (by decide)⟩

theorem intText_injective (m n : Int) (same : Numeral.intText m = Numeral.intText n) : m = n := by
  have read := Numeral.readInt_intText m
  rw [same, Numeral.readInt_intText n] at read
  exact (Option.some.inj read).symm

theorem floatText_starts (number : Float) (finite : number.isFinite = true) :
    StartsNumber (Value.floatText number).toList := by
  obtain ⟨c, rest, shown, digit⟩ := (Numeral.magnitude_fractioned Value.layout number finite).digit
  refine ⟨c, rest, ?_, digit⟩
  rw [Value.floatText, Numeral.text_signed _ number finite, shown]
  rcases Numeral.signText_cases number with plain | minus
  · exact .inl (by rw [plain, List.nil_append])
  · exact .inr (by rw [minus, List.singleton_append])

theorem floatText_parts (number : Float) (finite : number.isFinite = true) :
    ∀ c ∈ (Value.floatText number).toList, Numeral.isNumberPart c = true := by
  rw [Value.floatText, Numeral.text_signed _ number finite]
  refine List.forall_mem_append.mpr ⟨?_, (Numeral.magnitude_fractioned _ number finite).parts⟩
  rcases Numeral.signText_cases number with plain | minus
  · simp [plain]
  · rw [minus]
    exact List.forall_mem_singleton.mpr rfl

theorem floatText_marked (number : Float) (finite : number.isFinite = true) :
    '.' ∈ (Value.floatText number).toList ∨ 'e' ∈ (Value.floatText number).toList := by
  rw [Value.floatText, Numeral.text_signed _ number finite, List.mem_append, List.mem_append]
  exact (Numeral.magnitude_fractioned _ number finite).marked.imp .inr .inr

/-! Operands. -/

namespace Operand

/-- What a result guarantees of its operands, and what is asked of the names in them. -/
def Readable : Operand → Prop
  | .literal value => value.Finite
  | .field name => IsName name
  | .binary _ left right => left.Readable ∧ right.Readable
  | .negation operand =>
      operand.Readable ∧ ∀ value, operand = .literal value → value = .int Int64.minValue

def wordKind? : Operand → Option WordKind
  | .field _ => some .name
  | .literal (.bool _) => some .truth
  | .literal (.int _) => some .integer
  | .literal (.float _) => some .fraction
  | .literal (.text _) | .binary _ _ _ | .negation _ => none

end Operand

/-- How a text begins. A minus in front of a digit belongs to the number. -/
inductive Opening where
  | word
  | quote
  | parenthesis
  | sign
deriving DecidableEq

def opening : List Char → Opening
  | '\'' :: _ => .quote
  | '(' :: _ => .parenthesis
  | '-' :: c :: _ => if c.isDigit then .word else .sign
  | _ => .word

theorem opening_other {c : Char} {rest : List Char} (quote : c ≠ '\'') (parenthesis : c ≠ '(')
    (sign : c ≠ '-') : opening (c :: rest) = .word := by
  unfold opening
  split
  · next same => exact absurd (List.cons.inj same).1 quote
  · next same => exact absurd (List.cons.inj same).1 parenthesis
  · next same => exact absurd (List.cons.inj same).1 sign
  · rfl

theorem opening_number {text : List Char} (number : StartsNumber text) (rest : List Char) :
    opening (text ++ rest) = .word := by
  obtain ⟨c, more, rfl | rfl, digit⟩ := number
  · apply opening_other <;>
      · rintro rfl
        cases digit
  · simp [opening, digit]

theorem opening_name {name : String} (named : IsName name) (rest : List Char) :
    opening (name.toList ++ rest) = .word := by
  obtain ⟨c, more, shown, start⟩ := named.first
  rw [shown]
  apply opening_other <;>
    · rintro rfl
      simp at start

namespace Operand

def opening : Operand → Opening
  | .literal (.text _) => .quote
  | .binary _ _ _ => .parenthesis
  | .negation _ => .sign
  | _ => .word

theorem render_text (content : String) : (literal (.text content)).render.toList =
    '\'' :: (Value.doubleQuotes content.toList ++ ['\'']) := by
  simp [render, Value.render, Value.quoted]

theorem render_binary (op : ArithOp) (left right : Operand) :
    (binary op left right).render.toList = '(' :: (left.render.toList ++
      ' ' :: (op.symbol.toList ++ ' ' :: (right.render.toList ++ [')']))) := by
  simp [render]

theorem render_negation (operand : Operand) :
    (negation operand).render.toList = '-' :: operand.render.toList := by
  rw [render, Numeral.minus_toList]

/-- The operands of one kind of word. -/
def ofWord : WordKind → Operand → Prop
  | .name, operand => ∃ name, operand = .field name
  | .truth, operand => ∃ truth, operand = .literal (.bool truth)
  | .integer, operand => ∃ n, operand = .literal (.int n)
  | .fraction, operand => ∃ number, operand = .literal (.float number)

theorem ofWord_kind {operand : Operand} {kind : WordKind}
    (word : operand.wordKind? = some kind) : ofWord kind operand := by
  cases operand with
  | field name =>
      cases word
      exact ⟨name, rfl⟩
  | literal value => cases value <;> cases word <;> exact ⟨_, rfl⟩
  | binary op left right => cases word
  | negation inner => cases word

theorem word_unbroken {operand : Operand} (readable : operand.Readable) {kind : WordKind}
    (word : operand.wordKind? = some kind) :
    Unbroken operand.render.toList ∧ wordKind operand.render.toList = kind ∧
      ∀ rest, ConeFilter.opening (operand.render.toList ++ rest) = .word := by
  cases operand with
  | field name =>
      cases word
      exact ⟨readable.unbroken, readable.wordKind, opening_name readable⟩
  | literal value =>
      cases value with
      | text content => cases word
      | bool truth =>
          cases word
          cases truth <;>
            exact ⟨by simp [render, Value.render, Unbroken, isDelimiter],
              by simp [render, Value.render, wordKind], fun rest => rfl⟩
      | int n =>
          cases word
          have starts := intText_starts n.toInt
          refine ⟨number_unbroken (Numeral.intText_parts _), ?_, opening_number starts⟩
          exact starts.wordKind.trans (if_neg (intText_pointless _))
      | float number =>
          cases word
          have starts := floatText_starts number readable
          refine ⟨number_unbroken (floatText_parts number readable), ?_, opening_number starts⟩
          exact starts.wordKind.trans (if_pos (floatText_marked number readable))
  | binary op left right => cases word
  | negation inner => cases word

theorem word_injective {first second : Operand} (readable : first.Readable)
    (alsoReadable : second.Readable) {kind : WordKind} (word : first.wordKind? = some kind)
    (alsoWord : second.wordKind? = some kind) (same : first.render = second.render) :
    first = second := by
  cases kind with
  | name =>
      obtain ⟨name, rfl⟩ := ofWord_kind word
      obtain ⟨other, rfl⟩ := ofWord_kind alsoWord
      exact congrArg field same
  | truth =>
      obtain ⟨truth, rfl⟩ := ofWord_kind word
      obtain ⟨other, rfl⟩ := ofWord_kind alsoWord
      cases truth <;> cases other <;> first | rfl | exact absurd same (by decide)
  | integer =>
      obtain ⟨n, rfl⟩ := ofWord_kind word
      obtain ⟨m, rfl⟩ := ofWord_kind alsoWord
      rw [Int64.toInt_inj.mp (intText_injective _ _ same)]
  | fraction =>
      obtain ⟨number, rfl⟩ := ofWord_kind word
      obtain ⟨other, rfl⟩ := ofWord_kind alsoWord
      rw [Numeral.text_injective Value.layout number other readable alsoReadable same]

theorem opening_quote {operand : Operand} (opened : operand.opening = .quote) :
    ∃ content, operand = .literal (.text content) := by
  cases operand with
  | literal value =>
      cases value <;> cases opened
      exact ⟨_, rfl⟩
  | field _ | binary _ _ _ | negation _ => cases opened

theorem opening_parenthesis {operand : Operand} (opened : operand.opening = .parenthesis) :
    ∃ op left right, operand = .binary op left right := by
  cases operand with
  | binary op left right => exact ⟨op, left, right, rfl⟩
  | literal value => cases value <;> cases opened
  | field _ | negation _ => cases opened

theorem opening_sign {operand : Operand} (opened : operand.opening = .sign) :
    ∃ inner, operand = .negation inner := by
  cases operand with
  | negation inner => exact ⟨inner, rfl⟩
  | literal value => cases value <;> cases opened
  | field _ | binary _ _ _ => cases opened

theorem opening_word {operand : Operand} (opened : operand.opening = .word) :
    ∃ kind, operand.wordKind? = some kind := by
  cases operand with
  | field name => exact ⟨_, rfl⟩
  | literal value =>
      cases value with
      | text content => cases opened
      | int _ | float _ | bool _ => exact ⟨_, rfl⟩
  | binary op left right => cases opened
  | negation inner => cases opened

/-- What stands behind a sign that is no part of a number does not begin with a digit. -/
theorem opening_negation {operand : Operand} (readable : (negation operand).Readable)
    (rest : List Char) : ConeFilter.opening ('-' :: (operand.render.toList ++ rest)) = .sign := by
  have signed {c : Char} {more : List Char} (other : c.isDigit = false) :
      ConeFilter.opening ('-' :: c :: more) = .sign := by
    simp [ConeFilter.opening, other]
  cases operand with
  | field name =>
      obtain ⟨c, more, shown, start⟩ := IsName.first readable.1
      change ConeFilter.opening ('-' :: (name.toList ++ rest)) = .sign
      rw [shown]
      apply signed
      by_contra digit
      rw [Bool.not_eq_false] at digit
      rcases start with letter | rfl
      · rw [not_alpha_of_digit c digit] at letter
        cases letter
      · cases digit
  | literal value =>
      obtain rfl := readable.2 value rfl
      have negative : Int64.minValue.toInt < 0 := by decide
      rw [render, Value.render, Numeral.wordText, Numeral.intText, if_pos negative,
        Numeral.minus_toList]
      exact signed rfl
  | binary op left right =>
      rw [render_binary]
      exact signed rfl
  | negation inner =>
      rw [render_negation]
      exact signed rfl

theorem opening_render {operand : Operand} (readable : operand.Readable) (rest : List Char) :
    ConeFilter.opening (operand.render.toList ++ rest) = operand.opening := by
  cases operand with
  | field name => exact (word_unbroken readable rfl).2.2 rest
  | literal value =>
      cases value with
      | text content =>
          rw [render_text]
          rfl
      | int _ | float _ | bool _ => exact (word_unbroken readable rfl).2.2 rest
  | binary op left right =>
      rw [render_binary]
      rfl
  | negation inner =>
      rw [render_negation]
      exact opening_negation readable rest

theorem opening_eq {first second : Operand} {rest others : List Char} (readable : first.Readable)
    (alsoReadable : second.Readable)
    (same : first.render.toList ++ rest = second.render.toList ++ others) :
    first.opening = second.opening := by
  rw [← opening_render readable rest, same, opening_render alsoReadable]

theorem word_append_injective {first second : Operand} {rest others : List Char}
    (readable : first.Readable) (alsoReadable : second.Readable) (ends : Ends rest)
    (otherEnds : Ends others) (opened : first.opening = .word)
    (same : first.render.toList ++ rest = second.render.toList ++ others) :
    first = second ∧ rest = others := by
  obtain ⟨kind, word⟩ := opening_word opened
  have alsoOpened := (opening_eq readable alsoReadable same).symm.trans opened
  obtain ⟨other, alsoWord⟩ := opening_word alsoOpened
  obtain ⟨unbroken, kinded, -⟩ := word_unbroken readable word
  obtain ⟨alsoUnbroken, alsoKinded, -⟩ := word_unbroken alsoReadable alsoWord
  obtain ⟨texts, rests⟩ := unbroken_append_injective unbroken alsoUnbroken ends otherEnds same
  rw [← texts, kinded] at alsoKinded
  rw [← alsoKinded] at alsoWord
  exact ⟨word_injective readable alsoReadable word alsoWord (String.toList_inj.mp texts), rests⟩

end Operand

theorem symbol_append_injective {op other : ArithOp} {rest others : List Char}
    (same : op.symbol.toList ++ ' ' :: rest = other.symbol.toList ++ ' ' :: others) :
    op = other ∧ rest = others := by
  cases op <;> cases other <;> simp [ArithOp.symbol] at same <;> exact ⟨rfl, same⟩

/-- An operand and its end are read off any text that it begins, up to a delimiter. -/
theorem Operand.render_append_injective {first second : Operand} {rest others : List Char}
    (readable : first.Readable) (alsoReadable : second.Readable) (ends : Ends rest)
    (otherEnds : Ends others)
    (same : first.render.toList ++ rest = second.render.toList ++ others) :
    first = second ∧ rest = others := by
  induction first generalizing second rest others with
  | field name => exact word_append_injective readable alsoReadable ends otherEnds rfl same
  | literal value =>
      cases value with
      | text content =>
          obtain ⟨other, rfl⟩ := opening_quote (opening_eq readable alsoReadable same).symm
          simp only [render_text, List.cons_append, List.cons.injEq, true_and,
            List.append_assoc, List.nil_append] at same
          obtain ⟨contents, rests⟩ := quoted_append_injective ends otherEnds same
          exact ⟨by rw [String.toList_inj.mp contents], rests⟩
      | int _ | float _ | bool _ =>
          exact word_append_injective readable alsoReadable ends otherEnds rfl same
  | binary op left right leftIh rightIh =>
      obtain ⟨_, otherLeft, otherRight, rfl⟩ :=
        opening_parenthesis (opening_eq readable alsoReadable same).symm
      simp only [render_binary, List.cons_append, List.cons.injEq, true_and,
        List.append_assoc, List.nil_append] at same
      -- A blank follows the left side and a parenthesis the right, so both sides end there.
      obtain ⟨rfl, afterLeft⟩ := leftIh readable.1 alsoReadable.1 (ends_blank _) (ends_blank _) same
      obtain ⟨rfl, afterSymbol⟩ := symbol_append_injective (List.cons.inj afterLeft).2
      obtain ⟨rfl, afterRight⟩ := rightIh readable.2 alsoReadable.2 (ends_closing _)
        (ends_closing _) afterSymbol
      exact ⟨rfl, (List.cons.inj afterRight).2⟩
  | negation inner ih =>
      obtain ⟨other, rfl⟩ := opening_sign (opening_eq readable alsoReadable same).symm
      simp only [render_negation, List.cons_append, List.cons.injEq, true_and] at same
      obtain ⟨rfl, rests⟩ := ih readable.1 alsoReadable.1 ends otherEnds same
      exact ⟨rfl, rests⟩

end ConeFilter
