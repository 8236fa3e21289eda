import ConeFilter.Json.Text
import ConeFilter.Proofs.NumberTokens

/-!
Numbers in JSON text. The grammar has a minus at most, digits of which a leading
zero stands alone, a fraction and an exponent. The reader takes exactly the
texts of the grammar and keeps their parts, and a word of either kind is read
back from its digits.
-/
namespace ConeFilter.Json

/-! The grammar. Each part is related to what is kept of it. -/

def Digits (text : List Char) : Prop := text ≠ [] ∧ ∀ c ∈ text, c.isDigit = true

inductive Whole : List Char → Prop where
  | zero : Whole ['0']
  | digits {text : List Char} (run : Digits text) (leading : text.head? ≠ some '0') : Whole text

inductive Fraction : List Char → List Char → Prop where
  | absent : Fraction [] []
  | present {digits : List Char} (run : Digits digits) : Fraction ('.' :: digits) digits

inductive Exponent : List Char → Option Int → Prop where
  | absent : Exponent [] none
  | positive {mark : Char} {sign digits : List Char} (marked : mark = 'e' ∨ mark = 'E')
      (signed : sign = [] ∨ sign = ['+']) (run : Digits digits) :
      Exponent (mark :: (sign ++ digits)) (some (Numeral.natOfDigits digits))
  | negative {mark : Char} {digits : List Char} (marked : mark = 'e' ∨ mark = 'E')
      (run : Digits digits) :
      Exponent (mark :: '-' :: digits) (some (-(Numeral.natOfDigits digits : Int)))

inductive NumberText : List Char → Number → Prop where
  | natural {whole point fraction scale : List Char} {exponent : Option Int}
      (leading : Whole whole) (middle : Fraction point fraction) (last : Exponent scale exponent) :
      NumberText (whole ++ (point ++ scale)) { negative := false, whole, fraction, exponent }
  | negative {whole point fraction scale : List Char} {exponent : Option Int}
      (leading : Whole whole) (middle : Fraction point fraction) (last : Exponent scale exponent) :
      NumberText ('-' :: (whole ++ (point ++ scale)))
        { negative := true, whole, fraction, exponent }

/-! Every part is read up to where the next one starts. -/

theorem readNat_eq_some_iff (text : List Char) (n : Nat) :
    Numeral.readNat text = some n ↔ Digits text ∧ Numeral.natOfDigits text = n := by
  simp [Numeral.readNat, Digits]

theorem readExponent_sound (text : List Char) (exponent : Option Int)
    (read : readExponent text = some exponent) : Exponent text exponent := by
  cases text with
  | nil =>
      cases read
      exact .absent
  | cons mark rest =>
      rw [readExponent] at read
      split at read
      · rename_i marked
        obtain ⟨n, value, rfl⟩ := Option.map_eq_some_iff.mp read
        unfold Numeral.readInt at value
        split at value <;> obtain ⟨m, digits, rfl⟩ := Option.map_eq_some_iff.mp value <;>
          obtain ⟨run, rfl⟩ := (readNat_eq_some_iff _ _).mp digits
        · exact .negative marked run
        · exact .positive marked (.inr rfl) run
        · exact .positive marked (.inl rfl) run
      · cases read

theorem readExponent_complete {text : List Char} {exponent : Option Int}
    (scaled : Exponent text exponent) : readExponent text = some exponent := by
  cases scaled with
  | absent => rfl
  | positive marked signed run =>
      have digits := (readNat_eq_some_iff _ _).mpr ⟨run, rfl⟩
      rw [readExponent, if_pos marked]
      rcases signed with rfl | rfl
      · rw [List.nil_append, Numeral.readInt_digits _ _ digits]
        rfl
      · rw [List.singleton_append, Numeral.readInt, digits]
        rfl
  | negative marked run =>
      have digits := (readNat_eq_some_iff _ _).mpr ⟨run, rfl⟩
      rw [readExponent, if_pos marked, Numeral.readInt_minus, digits]
      rfl

theorem readFraction_sound (text fraction rest : List Char)
    (read : readFraction text = some (fraction, rest)) :
    ∃ point, Fraction point fraction ∧ text = point ++ rest := by
  unfold readFraction at read
  split at read
  · dsimp only at read
    split at read
    · cases read
    · rename_i present
      cases read
      refine ⟨_, .present ⟨present, List.all_eq_true.mp List.all_takeWhile⟩, ?_⟩
      rw [List.cons_append, List.takeWhile_append_dropWhile]
  · cases read
    exact ⟨[], .absent, rfl⟩

theorem Exponent.ends {text : List Char} {exponent : Option Int}
    (scaled : Exponent text exponent) :
    text.takeWhile Char.isDigit = [] ∧ text.head? ≠ some '.' := by
  cases scaled with
  | absent => exact ⟨rfl, by simp⟩
  | positive marked | negative marked => rcases marked with rfl | rfl <;> exact ⟨rfl, by simp⟩

theorem readFraction_complete {point fraction scale : List Char} {exponent : Option Int}
    (middle : Fraction point fraction) (last : Exponent scale exponent) :
    readFraction (point ++ scale) = some (fraction, scale) := by
  obtain ⟨ends, pointless⟩ := last.ends
  cases middle with
  | absent =>
      rw [List.nil_append]
      unfold readFraction
      split
      · exact absurd rfl pointless
      · rfl
  | present run =>
      obtain ⟨taken, dropped⟩ := Numeral.digits_then _ scale run.2 ends
      rw [List.cons_append, readFraction, taken, dropped, if_neg run.1]

theorem Fraction.ends {point fraction scale : List Char} {exponent : Option Int}
    (middle : Fraction point fraction) (last : Exponent scale exponent) :
    (point ++ scale).takeWhile Char.isDigit = [] := by
  cases middle with
  | absent => exact last.ends.1
  | present run => rfl

theorem readWhole_sound (text whole rest : List Char)
    (read : readWhole text = some (whole, rest)) : Whole whole ∧ text = whole ++ rest := by
  unfold readWhole at read
  dsimp only at read
  split at read
  · rename_i shaped
    cases read
    refine ⟨?_, List.takeWhile_append_dropWhile.symm⟩
    rcases shaped with zero | ⟨present, leading⟩
    · rw [zero]
      exact .zero
    · exact .digits ⟨present, List.all_eq_true.mp List.all_takeWhile⟩ leading
  · cases read

theorem readWhole_complete {whole rest : List Char} (leading : Whole whole)
    (ends : rest.takeWhile Char.isDigit = []) : readWhole (whole ++ rest) = some (whole, rest) := by
  have run : ∀ c ∈ whole, c.isDigit = true := by
    cases leading with
    | zero => exact List.forall_mem_singleton.mpr rfl
    | digits run => exact run.2
  have shaped : whole = ['0'] ∨ whole ≠ [] ∧ whole.head? ≠ some '0' := by
    cases leading with
    | zero => exact .inl rfl
    | digits run leading => exact .inr ⟨run.1, leading⟩
  obtain ⟨taken, dropped⟩ := Numeral.digits_then whole rest run ends
  unfold readWhole
  dsimp only
  rw [taken, dropped, if_pos shaped]

/-! The whole number. -/

theorem readUnsigned_sound (negative : Bool) (text : List Char) (number : Number)
    (built : readUnsigned negative text = some number) :
    ∃ whole point fraction scale exponent, Whole whole ∧ Fraction point fraction ∧
      Exponent scale exponent ∧ text = whole ++ (point ++ scale) ∧
      number = { negative, whole, fraction, exponent } := by
  obtain ⟨⟨whole, behind⟩, first, built⟩ := Option.bind_eq_some_iff.mp built
  obtain ⟨⟨fraction, scale⟩, second, built⟩ := Option.bind_eq_some_iff.mp built
  obtain ⟨exponent, third, built⟩ := Option.bind_eq_some_iff.mp built
  cases built
  obtain ⟨leading, rfl⟩ := readWhole_sound _ _ _ first
  obtain ⟨point, middle, rfl⟩ := readFraction_sound _ _ _ second
  exact ⟨whole, point, fraction, scale, exponent, leading, middle,
    readExponent_sound _ _ third, rfl, rfl⟩

theorem readUnsigned_complete (negative : Bool) {whole point fraction scale : List Char}
    {exponent : Option Int} (leading : Whole whole) (middle : Fraction point fraction)
    (last : Exponent scale exponent) : readUnsigned negative (whole ++ (point ++ scale)) =
      some { negative, whole, fraction, exponent } := by
  simp [readUnsigned, readWhole_complete leading (middle.ends last),
    readFraction_complete middle last, readExponent_complete last]

theorem Whole.not_minus {whole : List Char} (leading : Whole whole) (rest : List Char) :
    (whole ++ rest).head? ≠ some '-' := by
  cases leading with
  | zero => simp
  | digits run =>
      obtain ⟨present, all⟩ := run
      cases whole with
      | nil => exact absurd rfl present
      | cons c others =>
          intro minus
          obtain rfl : c = '-' := Option.some.inj minus
          cases all '-' List.mem_cons_self

/-- The reader takes the texts of the grammar and keeps their parts. -/
theorem readParts_iff (text : List Char) (number : Number) :
    readParts text = some number ↔ NumberText text number := by
  constructor
  · intro read
    unfold readParts at read
    split at read
    · obtain ⟨_, _, _, _, _, leading, middle, last, rfl, rfl⟩ := readUnsigned_sound _ _ _ read
      exact .negative leading middle last
    · obtain ⟨_, _, _, _, _, leading, middle, last, rfl, rfl⟩ := readUnsigned_sound _ _ _ read
      exact .natural leading middle last
  · intro spelled
    cases spelled with
    | natural leading middle last =>
        unfold readParts
        split
        · rename_i minus
          exact absurd (by rw [minus]; rfl) (leading.not_minus _)
        · exact readUnsigned_complete false leading middle last
    | negative leading middle last => exact readUnsigned_complete true leading middle last

-- What other readers of decimals allow.
example : readParts "+5".toList = none ∧ readParts "007".toList = none ∧
    readParts ".5".toList = none ∧ readParts "1.".toList = none := by decide

/-! Printed integers. -/

theorem whole_digitsOf (n : Nat) : Whole (Numeral.digitsOf n) := by
  rcases Nat.eq_zero_or_pos n with rfl | positive
  · rw [Numeral.digitsOf, if_pos (by decide)]
    exact .zero
  · exact .digits ⟨Numeral.digitsOf_ne_nil n, Numeral.digitsOf_digits n⟩
      (Numeral.digitsOf_head n positive)

/-- The parts of an integer as it is printed. -/
def Number.ofInt (n : Int) : Number :=
  { negative := n < 0, whole := Numeral.digitsOf n.natAbs, fraction := [], exponent := none }

theorem numberText_intText (n : Int) :
    NumberText (Numeral.intText n).toList (Number.ofInt n) := by
  have leading := whole_digitsOf n.natAbs
  rcases Numeral.intText_cases n with ⟨negative, text⟩ | ⟨natural, text⟩
  · have spelled := NumberText.negative leading .absent .absent
    simpa [Number.ofInt, text, negative] using spelled
  · have spelled := NumberText.natural leading .absent .absent
    simpa [Number.ofInt, text, Int.not_lt.mpr natural] using spelled

/-- An integer that a signed or an unsigned word can hold is read back from its digits. -/
theorem readNumber_intText (n : Int) (least : -0x8000000000000000 ≤ n)
    (most : n < 0x10000000000000000) :
    readNumber (Numeral.intText n).toList = some (.int n) := by
  have digits := Numeral.natOfDigits_digitsOf n.natAbs
  have value : (if n < 0 then -(n.natAbs : Int) else n.natAbs) = n := by split <;> omega
  have integer : (Number.ofInt n).integer? = some n := by
    simp only [Number.integer?, Number.ofInt, digits, decide_eq_true_eq, value]
    exact if_pos ⟨trivial, trivial, by omega, least, most⟩
  have parts := (readParts_iff _ _).mpr (numberText_intText n)
  rw [readNumber, parts, Option.bind_some, Number.toJson?, integer]

end ConeFilter.Json
