import ConeFilter.Numeral.Shortest
import Mathlib.Algebra.Order.Field.Power
import Mathlib.Algebra.Order.Field.Rat
import Mathlib.Tactic.Linarith
import Mathlib.Tactic.NormNum
import Mathlib.Tactic.Positivity
import Mathlib.Tactic.Ring

/-!
Shortest decimals stand for one double each. The decimal that is found for a double lies in the
interval of the double, because the finest grid that is tried is fine enough for every interval.
The intervals follow each other without overlap: where one ends the next begins, and of two
neighbours only one owns the point between them.
-/
namespace ConeFilter.Numeral

/-! Intervals of rationals. -/

namespace Interval

def start (interval : Interval) : ℚ := interval.lower * 2 ^ interval.exponent

def stop (interval : Interval) : ℚ := interval.upper * 2 ^ interval.exponent

def Holds (interval : Interval) (point : ℚ) : Prop :=
  if interval.closed then interval.start ≤ point ∧ point ≤ interval.stop
  else interval.start < point ∧ point < interval.stop

theorem Holds.between {interval : Interval} {point : ℚ} (held : interval.Holds point) :
    interval.start ≤ point ∧ point ≤ interval.stop := by
  unfold Holds at held
  split at held
  · exact held
  · exact ⟨held.1.le, held.2.le⟩

theorem Holds.closed_of_start {interval : Interval} {point : ℚ} (held : interval.Holds point)
    (first : point ≤ interval.start) : interval.closed = true := by
  by_contra opened
  rw [Holds, if_neg opened] at held
  exact absurd held.1 (not_lt.mpr first)

theorem Holds.closed_of_stop {interval : Interval} {point : ℚ} (held : interval.Holds point)
    (last : interval.stop ≤ point) : interval.closed = true := by
  by_contra opened
  rw [Holds, if_neg opened] at held
  exact absurd held.2 (not_lt.mpr last)

end Interval

/-! Measuring in units of a grid multiplies everything by one factor. -/

theorem zpow_split (base : ℚ) (nonzero : base ≠ 0) (power : ℤ) :
    base ^ power * base ^ (-power).toNat = base ^ power.toNat := by
  rw [← zpow_natCast, ← zpow_natCast, ← zpow_add₀ nonzero]
  congr 1
  omega

namespace Interval

def factor (interval : Interval) (power : ℤ) : ℚ :=
  2 ^ (-interval.exponent).toNat * 10 ^ (-power).toNat

theorem factor_pos (interval : Interval) (power : ℤ) : 0 < interval.factor power := by
  unfold factor
  positivity

def scale (interval : Interval) (power : ℤ) : Nat :=
  Nat.pow 2 interval.exponent.toNat * Nat.pow 10 (-power).toNat

theorem cast_scaled (interval : Interval) (power : ℤ) (numerator : Nat) :
    ((numerator * interval.scale power : Nat) : ℚ) =
      numerator * 2 ^ interval.exponent * interval.factor power := by
  have split := zpow_split 2 (by norm_num) interval.exponent
  simp only [scale, Nat.pow_eq, factor]
  push_cast
  rw [← split]
  ring

theorem cast_place (interval : Interval) (power : ℤ) (point : Nat) :
    ((point * (interval.inUnits power).unit : Nat) : ℚ) =
      point * 10 ^ power * interval.factor power := by
  have split := zpow_split 10 (by norm_num) power
  simp only [inUnits, Nat.pow_eq, factor]
  push_cast
  rw [← split]
  ring

section
variable (interval : Interval) (power : ℤ) (numerator point : Nat)

theorem scaled_lt : numerator * interval.scale power < point * (interval.inUnits power).unit ↔
    (numerator * 2 ^ interval.exponent : ℚ) < point * 10 ^ power := by
  rw [← Nat.cast_lt (α := ℚ), cast_scaled, cast_place]
  exact mul_lt_mul_iff_of_pos_right (interval.factor_pos power)

theorem lt_scaled : point * (interval.inUnits power).unit < numerator * interval.scale power ↔
    (point * 10 ^ power : ℚ) < numerator * 2 ^ interval.exponent := by
  rw [← Nat.cast_lt (α := ℚ), cast_scaled, cast_place]
  exact mul_lt_mul_iff_of_pos_right (interval.factor_pos power)

theorem admits_iff : (interval.inUnits power).admits point = true ↔
    interval.Holds (point * 10 ^ power) := by
  have low := scaled_lt interval power interval.lower point
  have high := lt_scaled interval power interval.upper point
  have low' := not_congr (lt_scaled interval power interval.lower point)
  have high' := not_congr (scaled_lt interval power interval.upper point)
  rw [not_lt, not_lt] at low' high'
  unfold Measured.admits Holds start stop
  rw [← low, ← high, ← low', ← high']
  cases closed : interval.closed <;> simp [inUnits, closed, scale]

end

end Interval

/-! Grids. The point above the value is admitted once the unit is small enough. -/

namespace Measured

theorem admits_nearest (measured : Measured) (point : Nat)
    (found : measured.nearest = some point) : measured.admits point = true := by
  simp only [nearest] at found
  split at found
  · split at found <;> cases found <;> assumption
  · cases found
    assumption
  · cases found
    assumption
  · cases found

theorem nearest_isSome (measured : Measured) (positive : 0 < measured.unit)
    (low : measured.lower ≤ measured.value)
    (high : measured.value + measured.unit < measured.upper) :
    ∃ point, measured.nearest = some point := by
  have above : measured.admits (measured.value / measured.unit + 1) = true := by
    have place := Nat.div_add_mod measured.value measured.unit
    have rest := Nat.mod_lt measured.value positive
    unfold admits
    rw [Nat.add_mul, Nat.one_mul, Nat.mul_comm (measured.value / measured.unit)]
    split <;> simp <;> omega
  simp only [nearest, above]
  split
  · split <;> exact ⟨_, rfl⟩
  · next other => cases other
  · exact ⟨_, rfl⟩
  · next other => cases other

end Measured

namespace Interval

/-- What every interval of a double has. -/
structure Regular (interval : Interval) : Prop where
  exponent_ge : -1076 ≤ interval.exponent
  lower_le : interval.lower ≤ interval.value
  upper_eq : interval.value + 2 = interval.upper

theorem ofBits_regular (bits : Nat) : (ofBits bits).Regular where
  exponent_ge := by
    simp only [ofBits]
    split <;> omega
  lower_le := by simp [ofBits]
  upper_eq := rfl

theorem Regular.nearest_isSome {interval : Interval} (regular : interval.Regular) (power : ℤ)
    (fine : power ≤ -344) : ∃ point, (interval.inUnits power).nearest = some point := by
  have least := regular.exponent_ge
  have unit : (interval.inUnits power).unit = 2 ^ (-interval.exponent).toNat := by
    have none : power.toNat = 0 := by omega
    simp [inUnits, none]
  have deep : 344 ≤ (-power).toNat := by omega
  have narrow : 2 ^ (-interval.exponent).toNat < interval.scale power := calc
    _ ≤ 2 ^ 1076 := Nat.pow_le_pow_right Nat.zero_lt_two (by omega)
    _ < 10 ^ 344 := by decide +kernel
    _ ≤ 10 ^ (-power).toNat := pow_le_pow_right₀ (by norm_num) deep
    _ ≤ interval.scale power := Nat.le_mul_of_pos_left _ (Nat.two_pow_pos _)
  apply Measured.nearest_isSome
  · rw [unit]
    exact Nat.two_pow_pos _
  · exact Nat.mul_le_mul_right _ regular.lower_le
  · rw [unit]
    change interval.value * interval.scale power + _ < interval.upper * interval.scale power
    rw [← regular.upper_eq, Nat.add_mul]
    omega

theorem Regular.coarsest_holds {interval : Interval} (regular : interval.Regular) (steps : Nat)
    (power : ℤ) (fine : power - steps ≤ -344) :
    interval.Holds ((coarsest interval power (steps + 1)).1 *
      10 ^ (coarsest interval power (steps + 1)).2) := by
  induction steps generalizing power with
  | zero =>
      obtain ⟨point, found⟩ := regular.nearest_isSome power (by omega)
      rw [coarsest, found]
      exact (admits_iff interval power point).mp (Measured.admits_nearest _ _ found)
  | succ steps ih =>
      rw [coarsest]
      split
      · next point found =>
          exact (admits_iff interval power point).mp (Measured.admits_nearest _ _ found)
      · exact ih (power - 1) (by push_cast at fine; omega)

end Interval

theorem shortest_holds (bits : Nat) :
    (Interval.ofBits bits).Holds ((shortest bits).1 * 10 ^ (shortest bits).2) :=
  (Interval.ofBits_regular bits).coarsest_holds _ _ (by push_cast; omega)

/-! The intervals of the doubles in the order of their bits. -/

namespace Interval

theorem start_lt_stop (bits : Nat) : (ofBits bits).start < (ofBits bits).stop := by
  have regular := ofBits_regular bits
  have below : (ofBits bits).lower < (ofBits bits).upper := by
    have := regular.lower_le
    have := regular.upper_eq
    omega
  exact mul_lt_mul_of_pos_right (Nat.cast_lt.mpr below) (by positivity)

/-- The next significand of the same exponent begins where this one ends. -/
theorem meets_inside (bits : Nat) (room : bits % 0x10000000000000 + 1 < 0x10000000000000) :
    (ofBits bits).upper = (ofBits (bits + 1)).lower ∧
      (ofBits bits).exponent = (ofBits (bits + 1)).exponent := by
  have fraction : (bits + 1) % 0x10000000000000 = bits % 0x10000000000000 + 1 := by omega
  have biased : (bits + 1) / 0x10000000000000 = bits / 0x10000000000000 := by omega
  simp only [ofBits, fraction, biased, and_true, Nat.add_one_ne_zero, if_false]
  split <;> omega

/-- At a power of two the next exponent is reached, except from the numbers that have none. -/
theorem meets_carried (bits : Nat) (full : bits % 0x10000000000000 + 1 = 0x10000000000000)
    (inside : bits + 1 < 0x8000000000000000) :
    (ofBits bits).upper ≤ (ofBits (bits + 1)).lower ∧
        (ofBits bits).exponent = (ofBits (bits + 1)).exponent ∨
      (ofBits bits).upper = 2 * (ofBits (bits + 1)).lower ∧
        (ofBits bits).exponent + 1 = (ofBits (bits + 1)).exponent := by
  have fraction : (bits + 1) % 0x10000000000000 = 0 := by omega
  have biased : (bits + 1) / 0x10000000000000 % 0x800 =
      bits / 0x10000000000000 % 0x800 + 1 := by omega
  simp only [ofBits, fraction, biased, Nat.add_one_ne_zero, if_true, if_false]
  split <;> omega

theorem stop_le_start (bits : Nat) (inside : bits + 1 < 0x8000000000000000) :
    (ofBits bits).stop ≤ (ofBits (bits + 1)).start := by
  unfold stop start
  have full := Nat.mod_lt bits (by decide : 0x10000000000000 > 0)
  rcases Nat.lt_or_eq_of_le (Nat.succ_le_of_lt full) with room | full
  · obtain ⟨ends, exponent⟩ := meets_inside bits room
    rw [ends, exponent]
  · rcases meets_carried bits full inside with ⟨ends, exponent⟩ | ⟨ends, exponent⟩
    · rw [exponent]
      exact mul_le_mul_of_nonneg_right (Nat.cast_le.mpr ends) (by positivity)
    · rw [ends, ← exponent, zpow_add_one₀ (by norm_num)]
      push_cast
      linarith

theorem closed_ofBits (bits : Nat) : (ofBits bits).closed = true ↔ bits % 2 = 0 := by
  simp only [ofBits, beq_iff_eq]
  split <;> omega

theorem stop_before (bits steps : Nat) (inside : bits + 1 + steps < 0x8000000000000000) :
    (ofBits bits).stop ≤ (ofBits (bits + 1 + steps)).start ∧
      (0 < steps → (ofBits bits).stop < (ofBits (bits + 1 + steps)).start) := by
  -- Neighbours may meet in a point. The interval between two others has a length.
  induction steps with
  | zero => exact ⟨stop_le_start bits inside, fun absent => absurd absent (Nat.lt_irrefl 0)⟩
  | succ steps ih =>
      have before : (ofBits bits).stop < (ofBits (bits + 1 + (steps + 1))).start := calc
        _ ≤ (ofBits (bits + 1 + steps)).start := (ih (by omega)).1
        _ < (ofBits (bits + 1 + steps)).stop := start_lt_stop _
        _ ≤ _ := stop_le_start _ inside
      exact ⟨before.le, fun _ => before⟩

theorem Holds.not_before {first second : Nat} {point : ℚ} (held : (ofBits first).Holds point)
    (also : (ofBits second).Holds point) (inside : second < 0x8000000000000000) :
    ¬ first < second := by
  intro before
  obtain ⟨steps, rfl⟩ := Nat.exists_eq_add_of_le before
  obtain ⟨meet, apart⟩ := stop_before first steps inside
  have reached := held.between.2
  have passed := also.between.1
  rcases Nat.eq_zero_or_pos steps with rfl | more
  · have even := (closed_ofBits first).mp (held.closed_of_stop (meet.trans passed))
    have next := (closed_ofBits (first + 1)).mp (also.closed_of_start (reached.trans meet))
    omega
  · exact absurd (apart more) (not_lt.mpr (passed.trans reached))

theorem Holds.unique {first second : Nat} {point : ℚ} (held : (ofBits first).Holds point)
    (also : (ofBits second).Holds point) (firstInside : first < 0x8000000000000000)
    (secondInside : second < 0x8000000000000000) : first = second :=
  Nat.le_antisymm (Nat.not_lt.mp (also.not_before held firstInside))
    (Nat.not_lt.mp (held.not_before also secondInside))

end Interval

end ConeFilter.Numeral
