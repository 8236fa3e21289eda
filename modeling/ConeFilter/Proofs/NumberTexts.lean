import ConeFilter.Proofs.NumberTokens
import ConeFilter.Proofs.ShortestDecimals
import ConeFilter.Value

/-!
The written form of doubles. It is read back as a decimal in the interval of the double that was
written, so that two finite doubles with one text are the same double. A text of a double holds a
point or an exponent, which no text of an integer does.
-/
namespace ConeFilter.Numeral

/-! What an unsigned text says, as a rational. -/

def Reads (text : List Char) (value : ℚ) : Prop :=
  ∃ significand exponent, readUnsigned false text = some (.finite false significand exponent) ∧
    significand * 10 ^ exponent = value

theorem Reads.unique {text : List Char} {first second : ℚ} (reads : Reads text first)
    (also : Reads text second) : first = second := by
  obtain ⟨m, e, read, rfl⟩ := reads
  obtain ⟨n, f, readAgain, rfl⟩ := also
  rw [read] at readAgain
  cases readAgain
  rfl

theorem natOfDigits_zeros (digits : List Char) (count : Nat) :
    natOfDigits (digits ++ zeros count) = natOfDigits digits * 10 ^ count := by
  induction count with
  | zero => simp [zeros]
  | succ count ih =>
      have zero : digitValue '0' = 0 := rfl
      rw [zeros, List.replicate_succ', ← List.append_assoc, natOfDigits_append, zero]
      unfold zeros at ih
      rw [ih, Nat.pow_succ]
      ring

theorem readInt_intText (n : Int) : readInt (intText n).toList = some n := by
  have digits := readNat_digitsOf n.natAbs
  rcases intText_cases n with ⟨negative, text⟩ | ⟨natural, text⟩
  · rw [text, readInt_minus, digits, Option.map_some]
    congr 1
    omega
  · rw [text, readInt_digits _ _ digits]
    congr 1
    omega

theorem reads_point (whole fraction : List Char) (all : ∀ c ∈ whole ++ fraction, c.isDigit = true)
    (present : whole ++ fraction ≠ []) :
    Reads (whole ++ '.' :: fraction)
      (natOfDigits (whole ++ fraction) * 10 ^ (-fraction.length : ℤ)) := by
  have read := readUnsigned_point false whole fraction [] 0 all present rfl rfl
  rw [List.append_nil, zero_sub] at read
  exact ⟨_, _, read, rfl⟩

theorem zeros_digits (count : Nat) : ∀ c ∈ zeros count, c.isDigit = true := by
  intro c inside
  rw [(List.mem_replicate.mp inside).2]
  rfl

theorem length_zeros (count : Nat) : (zeros count).length = count := List.length_replicate

/-- The three ways to place the point: in front of the digits, behind them and between them. -/
theorem positional_reads (digits : List Char) (exponent : ℤ)
    (all : ∀ c ∈ digits, c.isDigit = true) (present : digits ≠ []) :
    Reads (positional digits exponent)
      (natOfDigits digits * 10 ^ (exponent + 1 - digits.length)) := by
  have zero : ∀ c ∈ ['0'], c.isDigit = true := by simp
  unfold positional
  split
  · have value (count : Nat) :
        natOfDigits (['0'] ++ (zeros count ++ digits)) = natOfDigits digits :=
      natOfDigits_padded (count + 1) digits
    have reads := reads_point ['0'] (zeros (-exponent - 1).toNat ++ digits)
      (List.forall_mem_append.mpr ⟨zero, List.forall_mem_append.mpr ⟨zeros_digits _, all⟩⟩)
      (by simp)
    rw [value, List.length_append, length_zeros] at reads
    have shift : exponent + 1 - digits.length =
        -(((-exponent - 1).toNat + digits.length : Nat) : ℤ) := by omega
    rw [shift]
    exact reads
  · dsimp only
    by_cases short : digits.length ≤ exponent.toNat + 1
    · have reads := reads_point (digits ++ zeros (exponent.toNat + 1 - digits.length)) ['0']
        (List.forall_mem_append.mpr ⟨List.forall_mem_append.mpr ⟨all, zeros_digits _⟩, zero⟩)
        (by simp)
      have value := natOfDigits_zeros digits (exponent.toNat + 1 - digits.length + 1)
      rw [zeros, List.replicate_succ', ← List.append_assoc, ← zeros] at value
      rw [value, Nat.cast_mul, Nat.cast_pow, Nat.cast_ofNat, mul_assoc, ← zpow_natCast,
        ← zpow_add₀ (by norm_num), List.length_singleton] at reads
      have shift : exponent + 1 - digits.length =
          ((exponent.toNat + 1 - digits.length + 1 : Nat) : ℤ) + -((1 : Nat) : ℤ) := by omega
      rw [List.take_of_length_le short, List.drop_of_length_le short, shift]
      exact reads
    · have reads := reads_point (digits.take (exponent.toNat + 1))
        (digits.drop (exponent.toNat + 1)) (by simpa using all) (by simpa using present)
      have rest : (digits.drop (exponent.toNat + 1)).isEmpty = false := by simpa using short
      have none : exponent.toNat + 1 - digits.length = 0 := by omega
      rw [List.take_append_drop, List.length_drop] at reads
      have shift : exponent + 1 - digits.length =
          -((digits.length - (exponent.toNat + 1) : Nat) : ℤ) := by omega
      rw [rest, none, zeros, List.replicate_zero, List.append_nil, shift]
      exact reads

theorem scientific_reads (digits : List Char) (exponent : ℤ)
    (all : ∀ c ∈ digits, c.isDigit = true) (present : digits ≠ []) :
    Reads (scientific digits exponent)
      (natOfDigits digits * 10 ^ (exponent + 1 - digits.length)) := by
  have scaled : readExponent ('e' :: (intText exponent).toList) = some exponent := by
    rw [readExponent, if_pos (.inl rfl), readInt_intText]
  rcases digits with _ | ⟨first, _ | ⟨second, rest⟩⟩
  · exact absurd rfl present
  · have read := readUnsigned_whole false [first] _ exponent all present rfl (by simp) scaled
    exact ⟨_, _, read, by simp⟩
  · have read := readUnsigned_point false [first] (second :: rest) _ exponent all present rfl scaled
    refine ⟨_, _, read, ?_⟩
    congr 2
    simp

theorem place_reads (layout : Layout) (digits : List Char) (exponent : ℤ)
    (all : ∀ c ∈ digits, c.isDigit = true) (present : digits ≠ []) :
    Reads (layout.place digits exponent)
      (natOfDigits digits * 10 ^ (exponent + 1 - digits.length)) := by
  unfold Layout.place
  split
  · exact positional_reads digits exponent all present
  · exact scientific_reads digits exponent all present

/-! The digits of a double. Zeros at the end are dropped, and only move the point. -/

theorem dropTrailingZeros_append (digits : List Char) :
    ∃ count, digits = dropTrailingZeros digits ++ zeros count := by
  have split := List.takeWhile_append_dropWhile (p := (· = '0')) (l := digits.reverse)
  refine ⟨(digits.reverse.takeWhile (· = '0')).length, ?_⟩
  have same : (digits.reverse.takeWhile (· = '0')).reverse =
      zeros (digits.reverse.takeWhile (· = '0')).length := by
    rw [zeros, List.eq_replicate_iff, List.length_reverse]
    refine ⟨rfl, fun c inside => ?_⟩
    simpa using List.mem_takeWhile_imp (List.mem_reverse.mp inside)
  rw [dropTrailingZeros, ← same, ← List.reverse_append, split, List.reverse_reverse]

theorem dropTrailingZeros_digits (digits : List Char) (all : ∀ c ∈ digits, c.isDigit = true) :
    ∀ c ∈ dropTrailingZeros digits, c.isDigit = true := by
  obtain ⟨count, split⟩ := dropTrailingZeros_append digits
  rw [split] at all
  exact (List.forall_mem_append.mp all).1

theorem dropTrailingZeros_ne_nil (digits : List Char) (positive : natOfDigits digits ≠ 0) :
    dropTrailingZeros digits ≠ [] := by
  intro empty
  obtain ⟨count, split⟩ := dropTrailingZeros_append digits
  rw [split, natOfDigits_zeros, empty] at positive
  exact positive (Nat.zero_mul _)

section
variable (layout : Layout) (bits : Nat) (positive : (shortest bits).1 ≠ 0)
include positive

theorem scientificDigits_run : (scientificDigits bits).1 ≠ [] ∧
    ∀ c ∈ (scientificDigits bits).1, c.isDigit = true := by
  have all := digitsOf_digits (shortest bits).1
  refine ⟨dropTrailingZeros_ne_nil _ ?_, dropTrailingZeros_digits _ all⟩
  rwa [natOfDigits_digitsOf]

theorem scientificDigits_reads :
    Reads (layout.place (scientificDigits bits).1 (scientificDigits bits).2)
      ((shortest bits).1 * 10 ^ (shortest bits).2) := by
  obtain ⟨present, all⟩ := scientificDigits_run bits positive
  have value := natOfDigits_digitsOf (shortest bits).1
  obtain ⟨count, split⟩ := dropTrailingZeros_append (digitsOf (shortest bits).1)
  have length := congrArg List.length split
  rw [List.length_append, length_zeros] at length
  rw [split, natOfDigits_zeros] at value
  have reads := place_reads layout _ (scientificDigits bits).2 all present
  have shift : (scientificDigits bits).2 + 1 - (scientificDigits bits).1.length =
      (count : ℤ) + (shortest bits).2 := by
    simp only [scientificDigits]
    omega
  rw [shift, zpow_add₀ (by norm_num), zpow_natCast, ← mul_assoc] at reads
  rw [← value]
  push_cast
  exact reads

end

/-! Doubles. A finite one is neither infinite nor without a value. -/

theorem special_of_finite (number : Float) (finite : number.isFinite = true) :
    number.isNaN = false ∧ number.isInf = false := by
  unfold Float.isFinite Float.Model.isFinite at finite
  unfold Float.isNaN Float.Model.isNaN Float.isInf Float.Model.isInf
  cases unpacked : number.toModel.unpack with
  | zero sign | finite sign mantissa exponent positive => exact ⟨rfl, rfl⟩
  | infinity sign | notANumber =>
      rw [unpacked] at finite
      cases finite

def magnitudeBits (number : Float) : Nat := number.toBits.toNat % 0x8000000000000000

theorem zero_holds : (Interval.ofBits 0).Holds 0 := by
  have closed : (Interval.ofBits 0).closed = true := rfl
  rw [Interval.Holds, if_pos closed]
  norm_num [Interval.start, Interval.stop, Interval.ofBits]

theorem shortest_pos (bits : Nat) (nonzero : bits ≠ 0) (inside : bits < 0x8000000000000000) :
    (shortest bits).1 ≠ 0 := by
  intro none
  have held := shortest_holds bits
  rw [none, Nat.cast_zero, zero_mul] at held
  exact nonzero (held.unique zero_holds inside (by decide))

theorem magnitudeBits_lt (number : Float) : magnitudeBits number < 0x8000000000000000 :=
  Nat.mod_lt _ (by decide)

theorem magnitude_cases (layout : Layout) (number : Float) (finite : number.isFinite = true) :
    (magnitudeBits number = 0 ∧ layout.magnitude number = ['0', '.', '0']) ∨
      (shortest (magnitudeBits number)).1 ≠ 0 ∧ layout.magnitude number =
        layout.place (scientificDigits (magnitudeBits number)).1
          (scientificDigits (magnitudeBits number)).2 := by
  obtain ⟨-, bounded⟩ := special_of_finite number finite
  have magnitude : layout.magnitude number = if magnitudeBits number = 0 then ['0', '.', '0']
      else layout.place (scientificDigits (magnitudeBits number)).1
        (scientificDigits (magnitudeBits number)).2 := by
    simp only [Layout.magnitude, bounded, Bool.false_eq_true, if_false]
    rfl
  rw [magnitude]
  by_cases zero : magnitudeBits number = 0
  · exact .inl ⟨zero, if_pos zero⟩
  · exact .inr ⟨shortest_pos _ zero (magnitudeBits_lt number), if_neg zero⟩

theorem magnitude_reads (layout : Layout) (number : Float) (finite : number.isFinite = true) :
    ∃ value, Reads (layout.magnitude number) value ∧
      (Interval.ofBits (magnitudeBits number)).Holds value := by
  rcases magnitude_cases layout number finite with ⟨zero, text⟩ | ⟨positive, text⟩
  · have reads := reads_point ['0'] ['0'] (by simp) (by simp)
    have value : natOfDigits (['0'] ++ ['0']) = 0 := rfl
    rw [value, Nat.cast_zero, zero_mul] at reads
    rw [zero, text]
    exact ⟨0, reads, zero_holds⟩
  · rw [text]
    exact ⟨_, scientificDigits_reads layout _ positive, shortest_holds _⟩

theorem magnitude_injective (layout : Layout) (first second : Float)
    (firstFinite : first.isFinite = true) (secondFinite : second.isFinite = true)
    (same : layout.magnitude first = layout.magnitude second) :
    magnitudeBits first = magnitudeBits second := by
  obtain ⟨value, reads, held⟩ := magnitude_reads layout first firstFinite
  obtain ⟨other, readsOther, heldOther⟩ := magnitude_reads layout second secondFinite
  rw [same] at reads
  rw [readsOther.unique reads] at heldOther
  exact held.unique heldOther (magnitudeBits_lt first) (magnitudeBits_lt second)

/-! The characters of a text. -/

def isNumberPart (c : Char) : Bool := c.isDigit || c = '.' || c = 'e' || c = '-'

/-- A digit comes first, and a point or an exponent follows. -/
structure Fractioned (text : List Char) : Prop where
  digit : ∃ c rest, text = c :: rest ∧ c.isDigit = true
  parts : ∀ c ∈ text, isNumberPart c = true
  marked : '.' ∈ text ∨ 'e' ∈ text

theorem part_of_digit (c : Char) (digit : c.isDigit = true) : isNumberPart c = true := by
  simp [isNumberPart, digit]

theorem parts_of_digits {digits : List Char} (all : ∀ c ∈ digits, c.isDigit = true) :
    ∀ c ∈ digits, isNumberPart c = true := fun c inside => part_of_digit c (all c inside)

theorem intText_parts (n : Int) : ∀ c ∈ (intText n).toList, isNumberPart c = true := by
  have parts := parts_of_digits (digitsOf_digits n.natAbs)
  rcases intText_cases n with ⟨-, text⟩ | ⟨-, text⟩
  · rw [text]
    exact List.forall_mem_cons.mpr ⟨rfl, parts⟩
  · rwa [text]

theorem positional_fractioned (digits : List Char) (exponent : ℤ)
    (all : ∀ c ∈ digits, c.isDigit = true) (present : digits ≠ []) :
    Fractioned (positional digits exponent) := by
  obtain ⟨first, others, rfl⟩ := List.exists_cons_of_ne_nil present
  have parts := parts_of_digits all
  have zeroParts (count : Nat) := parts_of_digits (zeros_digits count)
  unfold positional
  split
  · refine ⟨⟨_, _, rfl, rfl⟩, ?_, .inl (by simp)⟩
    exact List.forall_mem_cons.mpr ⟨rfl, List.forall_mem_cons.mpr ⟨rfl,
      List.forall_mem_append.mpr ⟨zeroParts _, parts⟩⟩⟩
  · dsimp only
    refine ⟨⟨first, _, by rw [List.take_succ_cons]; rfl, all first List.mem_cons_self⟩, ?_,
      .inl (by simp)⟩
    refine List.forall_mem_append.mpr ⟨List.forall_mem_append.mpr ⟨?_, zeroParts _⟩, ?_⟩
    · exact fun c inside => parts c (List.mem_of_mem_take inside)
    · refine List.forall_mem_cons.mpr ⟨rfl, ?_⟩
      split
      · exact List.forall_mem_singleton.mpr rfl
      · exact fun c inside => parts c (List.mem_of_mem_drop inside)

theorem scientific_fractioned (digits : List Char) (exponent : ℤ)
    (all : ∀ c ∈ digits, c.isDigit = true) (present : digits ≠ []) :
    Fractioned (scientific digits exponent) := by
  have parts := parts_of_digits all
  have scaled : ∀ c ∈ 'e' :: (intText exponent).toList, isNumberPart c = true :=
    List.forall_mem_cons.mpr ⟨rfl, intText_parts exponent⟩
  rcases digits with _ | ⟨first, _ | ⟨second, rest⟩⟩
  · exact absurd rfl present
  · exact ⟨⟨first, _, rfl, all first List.mem_cons_self⟩,
      List.forall_mem_append.mpr ⟨parts, scaled⟩, .inr (by simp [scientific])⟩
  · refine ⟨⟨first, _, rfl, all first List.mem_cons_self⟩,
      List.forall_mem_append.mpr ⟨?_, scaled⟩, .inr (by simp [scientific])⟩
    obtain ⟨head, tail⟩ := List.forall_mem_cons.mp parts
    exact List.forall_mem_cons.mpr ⟨head, List.forall_mem_cons.mpr ⟨rfl, tail⟩⟩

theorem magnitude_fractioned (layout : Layout) (number : Float)
    (finite : number.isFinite = true) : Fractioned (layout.magnitude number) := by
  rcases magnitude_cases layout number finite with ⟨-, text⟩ | ⟨positive, text⟩
  · rw [text]
    exact ⟨⟨_, _, rfl, rfl⟩, by simp [isNumberPart], .inl (by simp)⟩
  · obtain ⟨present, all⟩ := scientificDigits_run _ positive
    rw [text]
    unfold Layout.place
    split
    · exact positional_fractioned _ _ all present
    · exact scientific_fractioned _ _ all present

/-! Whole texts. -/

def signText (number : Float) : List Char :=
  if number.toBits.toNat < 0x8000000000000000 then [] else ['-']

theorem signText_cases (number : Float) : signText number = [] ∨ signText number = ['-'] := by
  unfold signText
  split <;> simp

theorem text_signed (layout : Layout) (number : Float) (finite : number.isFinite = true) :
    (layout.text number).toList = signText number ++ layout.magnitude number := by
  obtain ⟨valued, -⟩ := special_of_finite number finite
  simp only [Layout.text, valued, Bool.false_eq_true, if_false, signText]
  split <;> simp

theorem bits_of_sign (number : Float) : number.toBits.toNat =
    magnitudeBits number + if signText number = [] then 0 else 0x8000000000000000 := by
  have inside := number.toBits.toNat_lt
  unfold magnitudeBits signText
  split <;> simp <;> omega

theorem text_injective (layout : Layout) (first second : Float)
    (firstFinite : first.isFinite = true) (secondFinite : second.isFinite = true)
    (same : layout.text first = layout.text second) : first = second := by
  have texts := congrArg String.toList same
  rw [text_signed layout first firstFinite, text_signed layout second secondFinite] at texts
  obtain ⟨c, rest, firstText, firstDigit⟩ := (magnitude_fractioned layout first firstFinite).digit
  obtain ⟨d, others, secondText, secondDigit⟩ :=
    (magnitude_fractioned layout second secondFinite).digit
  have parts : signText first = signText second ∧
      layout.magnitude first = layout.magnitude second := by
    -- A sign is no digit, so either both texts have one or neither has.
    rw [firstText, secondText] at texts ⊢
    rcases signText_cases first with plain | minus <;>
      rcases signText_cases second with other | other
    · exact ⟨plain.trans other.symm, by simpa [plain, other] using texts⟩
    · rw [plain, other] at texts
      cases texts
      cases firstDigit
    · rw [minus, other] at texts
      cases texts
      cases secondDigit
    · exact ⟨minus.trans other.symm, by simpa [minus, other] using texts⟩
  have magnitudes := magnitude_injective layout first second firstFinite secondFinite parts.2
  apply Float.toBits_inj.mp
  rw [← UInt64.toNat_inj, bits_of_sign, bits_of_sign, parts.1, magnitudes]

end ConeFilter.Numeral
