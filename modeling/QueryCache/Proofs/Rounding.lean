import Mathlib.Algebra.Order.Field.Power
import Mathlib.Data.Rat.Cast.Order
import Mathlib.Tactic.Linarith
import Mathlib.Tactic.Positivity
import Mathlib.Tactic.FieldSimp
import Mathlib.Tactic.Ring
import QueryCache.Decimal.Float

/-!
# Shortest decimals round back

The decimal that is chosen for a binary floating-point number lies in the interval of the reals
that round to it. The intervals of different numbers of one format have no point in common, so
the decimal tells the number, although it need not be equal to it.
-/

namespace QueryCache.Decimal

/-- The rational number that a decimal stands for. -/
def value (decimal : Decimal) : ℚ := decimal.coefficient * (10 : ℚ) ^ decimal.exponent

/-! ## Rounding intervals -/

/-- A power with an integer exponent as a quotient of two with natural exponents. -/
theorem zpow_eq_div {base : ℚ} (nonzero : base ≠ 0) (e : ℤ) :
    base ^ e = base ^ e.toNat / base ^ (-e).toNat := by
  calc
    base ^ e = base ^ ((e.toNat : ℤ) - ((-e).toNat : ℤ)) := by
      rw [Int.toNat_sub_toNat_neg]
    _ = base ^ e.toNat / base ^ (-e).toNat := by
      rw [zpow_sub₀ nonzero, zpow_natCast, zpow_natCast]

/-- The scales of both sides of a comparison are the two powers up to one common factor. -/
theorem exists_common_factor (e k : ℤ) :
    ∃ factor : ℚ, 0 < factor ∧ (2 : ℚ) ^ e = binaryScale e k * factor ∧
      (10 : ℚ) ^ k = decimalScale e k * factor := by
  refine ⟨((2 : ℚ) ^ (-e).toNat * (10 : ℚ) ^ (-k).toNat)⁻¹, by positivity, ?_, ?_⟩
  · rw [zpow_eq_div (by norm_num) e, binaryScale, Nat.pow_eq, Nat.pow_eq]
    push_cast
    field_simp
  · rw [zpow_eq_div (by norm_num) k, decimalScale, Nat.pow_eq, Nat.pow_eq]
    push_cast
    field_simp

namespace Binary

variable {b c : Binary}

/-- A quarter of a unit of the last place. -/
def quarter (b : Binary) : ℚ := (2 : ℚ) ^ (b.exponent - 2)

theorem quarter_pos (b : Binary) : 0 < b.quarter :=
  zpow_pos (by norm_num) _

/-- The point rounds to the number. -/
def Covers (b : Binary) (point : ℚ) : Prop :=
  b.lower * b.quarter ≤ point ∧ point ≤ b.upper * b.quarter ∧
    (b.mantissa % 2 = 1 → b.lower * b.quarter < point ∧ point < b.upper * b.quarter)

/-- What rounds to a number is decided in whole numbers. -/
theorem covers_of_admits {k : ℤ} {n : ℕ} (admitted : b.admits k n) :
    b.Covers (n * (10 : ℚ) ^ k) := by
  obtain ⟨factor, positive, two, ten⟩ := exists_common_factor (b.exponent - 2) k
  have scaled (m : ℕ) : (m : ℚ) * b.quarter =
      ((m * binaryScale (b.exponent - 2) k : ℕ) : ℚ) * factor := by
    rw [quarter, two, Nat.cast_mul, mul_assoc]
  have point : (n : ℚ) * (10 : ℚ) ^ k =
      ((n * decimalScale (b.exponent - 2) k : ℕ) : ℚ) * factor := by
    rw [ten, Nat.cast_mul, mul_assoc]
  rw [Covers, point, scaled, scaled]
  simp only [mul_le_mul_iff_left₀ positive, mul_lt_mul_iff_left₀ positive, Nat.cast_le,
    Nat.cast_lt]
  simp only [admits] at admitted
  split at admitted
  · rename_i even
    rw [Bool.and_eq_true, decide_eq_true_eq, decide_eq_true_eq] at admitted
    exact ⟨admitted.1, admitted.2, fun odd => by omega⟩
  · rw [Bool.and_eq_true, decide_eq_true_eq, decide_eq_true_eq] at admitted
    exact ⟨admitted.1.le, admitted.2.le, fun _ => admitted⟩

theorem admits_of_nearestOn? {k : ℤ} {n : ℕ} (found : b.nearestOn? k = some n) :
    b.admits k n := by
  simp only [nearestOn?] at found
  split at found
  · split at found
    · rwa [← Option.some.inj found]
    · rwa [← Option.some.inj found]
  · rwa [← Option.some.inj found]
  · rwa [← Option.some.inj found]
  · cases found

/-- The number itself lies inside its interval. -/
theorem covers_self (positive : 0 < b.mantissa) :
    b.Covers (b.mantissa * (2 : ℚ) ^ b.exponent) := by
  have four : (2 : ℚ) ^ b.exponent = 4 * b.quarter := by
    rw [quarter, zpow_sub₀ (by norm_num)]
    norm_num
    field_simp
  have quarters : (b.mantissa : ℚ) * (2 : ℚ) ^ b.exponent = (b.quarters : ℚ) * b.quarter := by
    rw [four, Binary.quarters]
    push_cast
    ring
  have below : b.lower < b.quarters := by
    unfold lower Binary.quarters
    split <;> omega
  have above : b.quarters < b.upper := Nat.lt_add_of_pos_right (by decide)
  have low : (b.lower : ℚ) * b.quarter < b.quarters * b.quarter :=
    mul_lt_mul_of_pos_right (Nat.cast_lt.mpr below) b.quarter_pos
  have high : (b.quarters : ℚ) * b.quarter < b.upper * b.quarter :=
    mul_lt_mul_of_pos_right (Nat.cast_lt.mpr above) b.quarter_pos
  rw [quarters]
  exact ⟨low.le, high.le, fun _ => ⟨low, high⟩⟩

/-- Below the grids that are tried the number is written out exactly. -/
theorem value_exact (b : Binary) (k : ℤ) :
    (b.search 0 k).value = b.mantissa * (2 : ℚ) ^ b.exponent := by
  unfold search
  split
  · rename_i whole
    obtain ⟨n, same⟩ := Int.eq_ofNat_of_zero_le whole
    rw [same]
    simp [value]
  · rename_i broken
    obtain ⟨n, same⟩ := Int.eq_ofNat_of_zero_le (a := -b.exponent) (by omega)
    rw [same, show b.exponent = -(n : ℤ) by omega]
    simp only [value, Int.toNat_natCast, Nat.pow_eq, Nat.cast_mul, Nat.cast_pow, zpow_neg,
      zpow_natCast]
    rw [show ((10 : ℚ) = 2 * 5) by norm_num, mul_pow]
    push_cast
    field_simp

/-- The search ends on a point that rounds to the number. -/
theorem covers_search (positive : 0 < b.mantissa) (steps : ℕ) (k : ℤ) :
    b.Covers (b.search steps k).value := by
  induction steps generalizing k with
  | zero =>
      rw [value_exact]
      exact covers_self positive
  | succ steps inductionHypothesis =>
      unfold search
      split
      · rename_i n found
        exact covers_of_admits (admits_of_nearestOn? found)
      · exact inductionHypothesis (k - 1)

/-! ## Numbers of one format -/

/-- The number belongs to a format: its mantissa stays below twice the `hidden` bit, a mantissa
without that bit needs the `least` exponent, and the gap below the number is narrow where the
exponent changes. -/
structure Regular (hidden : ℕ) (least : ℤ) (b : Binary) : Prop where
  mantissa_lt : b.mantissa < 2 * hidden
  least_le : least ≤ b.exponent
  hidden_le : least < b.exponent → hidden ≤ b.mantissa
  narrow_iff : b.narrow ↔ b.mantissa = hidden ∧ least < b.exponent

section Format

variable {hidden : ℕ} {least : ℤ} {point : ℚ}

/-- With one exponent, the smaller mantissa has the lower interval: both ends are shared by
numbers of different parity only. -/
theorem mantissa_le_of_covers (regular : c.Regular hidden least) (same : b.exponent = c.exponent)
    (other : b.Regular hidden least)
    (low : b.Covers point) (high : c.Covers point) : c.mantissa ≤ b.mantissa := by
  by_contra larger
  have wide : ¬ c.narrow := by
    intro narrow
    obtain ⟨smallest, above⟩ := regular.narrow_iff.mp narrow
    have := other.hidden_le (same ▸ above)
    omega
  have upper : b.upper = 4 * b.mantissa + 2 := rfl
  have lower : c.lower = 4 * c.mantissa - 2 := by
    rw [Binary.lower, if_neg wide, Binary.quarters]
  have quarter : b.quarter = c.quarter := by rw [Binary.quarter, same, ← Binary.quarter]
  obtain ⟨-, beneath, strictly⟩ := low
  obtain ⟨beyond, -, strictly'⟩ := high
  rw [quarter] at beneath strictly
  have ends : c.lower ≤ b.upper := by
    exact_mod_cast le_of_mul_le_mul_right (beyond.trans beneath) c.quarter_pos
  -- what lies in both intervals is their common end, which belongs to even mantissas only
  have touching : c.lower = b.upper := by omega
  rcases Nat.mod_two_eq_zero_or_one b.mantissa with even | odd
  · have odd : c.mantissa % 2 = 1 := by omega
    have := (strictly' odd).1
    rw [touching] at this
    exact absurd beneath (not_le.mpr this)
  · have := (strictly odd).2
    rw [← touching] at this
    exact absurd beyond (not_le.mpr this)

/-- The number with the smaller exponent lies below all with a larger one. -/
theorem exponent_le_of_covers (regular : b.Regular hidden least) (other : c.Regular hidden least)
    (low : b.Covers point) (high : c.Covers point) : c.exponent ≤ b.exponent := by
  by_contra larger
  have larger : b.exponent < c.exponent := not_le.mp larger
  have above : least < c.exponent := lt_of_le_of_lt regular.least_le larger
  have hiddenBit := other.hidden_le above
  have small := regular.mantissa_lt
  have double : 2 * b.quarter ≤ c.quarter := by
    rw [Binary.quarter, Binary.quarter, ← zpow_one_add₀ (by norm_num)]
    exact zpow_le_zpow_right₀ (by norm_num) (by omega)
  have upper : b.upper = 4 * b.mantissa + 2 := rfl
  have lower : 4 * hidden - 1 ≤ c.lower := by
    unfold Binary.lower Binary.quarters
    split
    · omega
    · rename_i wide
      have : c.mantissa ≠ hidden := fun least => wide (other.narrow_iff.mpr ⟨least, above⟩)
      omega
  obtain ⟨-, beneath, strictly⟩ := low
  have beyond : ((2 * c.lower : ℕ) : ℚ) * b.quarter ≤ point :=
    calc
      ((2 * c.lower : ℕ) : ℚ) * b.quarter = c.lower * (2 * b.quarter) := by push_cast; ring
      _ ≤ c.lower * c.quarter := mul_le_mul_of_nonneg_left double (Nat.cast_nonneg _)
      _ ≤ point := high.1
  have ends : 2 * c.lower ≤ b.upper := by
    exact_mod_cast le_of_mul_le_mul_right (beyond.trans beneath) b.quarter_pos
  -- only the largest mantissa reaches the next exponent, and it is odd
  have odd : b.mantissa % 2 = 1 := by omega
  have touching : 2 * c.lower = b.upper := by omega
  rw [touching] at beyond
  exact absurd beyond (not_le.mpr (strictly odd).2)

/-- A point rounds to one number of a format only. -/
theorem eq_of_covers (regular : b.Regular hidden least) (other : c.Regular hidden least)
    (low : b.Covers point) (high : c.Covers point) : b = c := by
  have exponent : b.exponent = c.exponent :=
    le_antisymm (exponent_le_of_covers other regular high low)
      (exponent_le_of_covers regular other low high)
  have mantissa : b.mantissa = c.mantissa :=
    le_antisymm (mantissa_le_of_covers regular exponent.symm other high low)
      (mantissa_le_of_covers other exponent regular low high)
  have narrow : b.narrow = c.narrow := by
    rw [Bool.eq_iff_iff, regular.narrow_iff, other.narrow_iff, mantissa, exponent]
  cases b
  cases c
  simp_all

end Format

/-- Only what is positive rounds to a positive number. -/
theorem Covers.pos {point : ℚ} (covers : b.Covers point) (positive : 0 < b.mantissa) :
    0 < point := by
  have lower : 0 < b.lower := by
    unfold lower quarters
    split <;> omega
  exact lt_of_lt_of_le (mul_pos (Nat.cast_pos.mpr lower) b.quarter_pos) covers.1

/-- Zero rounds to zero. -/
theorem covers_zero (zero : b.mantissa = 0) : b.Covers 0 := by
  have lower : b.lower = 0 := by
    unfold lower quarters
    omega
  have upper : 0 ≤ (b.upper : ℚ) * b.quarter :=
    mul_nonneg (Nat.cast_nonneg _) b.quarter_pos.le
  exact ⟨by simp [lower], upper, fun odd => by omega⟩

/-- The shortest decimal of a number rounds to it. -/
theorem covers_shortest (positive : 0 < b.mantissa) : b.Covers b.shortest.value :=
  covers_search positive _ _

end Binary

/-! ## The numbers of 64 bits -/

/-- The weight of the hidden bit in the mantissa of a number of 64 bits. -/
def hidden64 : ℕ := 4503599627370496

/-- The least exponent of a number of 64 bits. -/
def least64 : ℤ := -1074

/-- What a finite number of 64 bits is made of. The smallest exponent is shared by the numbers
with and without the hidden bit. -/
theorem readFloat64_eq_finite {bits : UInt64} {negative : Bool} {b : Binary}
    (read : readFloat64 bits = .finite negative b) :
    negative = decide (bits.toNat / (hidden64 * 2048) % 2 = 1) ∧
      b.mantissa = (if bits.toNat / hidden64 % 2048 = 0 then 0 else hidden64) +
        bits.toNat % hidden64 ∧
      b.exponent = max ((bits.toNat / hidden64 % 2048 : ℕ) : ℤ) 1 - 1075 ∧
      b.narrow = (bits.toNat % hidden64 = 0 && 1 < bits.toNat / hidden64 % 2048) := by
  have hidden : Nat.pow 2 52 = hidden64 := rfl
  have exponents : Nat.pow 2 11 = 2048 := rfl
  simp only [readFloat64, readBits, hidden, exponents] at read
  split at read
  · split at read <;> cases read
  · split at read
    · rename_i zero
      cases read
      simp [zero]
    · rename_i positive
      cases read
      refine ⟨rfl, by rw [if_neg positive], ?_, rfl⟩
      dsimp only
      omega

/-- A finite number of 64 bits belongs to the format. -/
theorem regular_of_readFloat64 {bits : UInt64} {negative : Bool} {b : Binary}
    (read : readFloat64 bits = .finite negative b) : b.Regular hidden64 least64 := by
  obtain ⟨-, mantissa, exponent, narrow⟩ := readFloat64_eq_finite read
  have below : bits.toNat % hidden64 < hidden64 := Nat.mod_lt _ (by decide)
  have least : least64 = -1074 := rfl
  refine ⟨?_, ?_, ?_, ?_⟩
  · split at mantissa <;> omega
  · omega
  · intro above
    rw [mantissa, if_neg (by omega)]
    exact Nat.le_add_right _ _
  · rw [narrow, Bool.and_eq_true, decide_eq_true_eq, decide_eq_true_eq]
    split at mantissa <;> omega

/-- A finite number of 64 bits determines its bits. -/
theorem eq_of_readFloat64 {bits other : UInt64} {negative : Bool} {b : Binary}
    (read : readFloat64 bits = .finite negative b)
    (again : readFloat64 other = .finite negative b) : bits = other := by
  obtain ⟨sign, mantissa, exponent, -⟩ := readFloat64_eq_finite read
  obtain ⟨sign', mantissa', exponent', -⟩ := readFloat64_eq_finite again
  rw [sign, decide_eq_decide] at sign'
  have small : bits.toNat < 18446744073709551616 := bits.toNat_lt
  have small' : other.toNat < 18446744073709551616 := other.toNat_lt
  apply UInt64.toNat.inj
  split at mantissa <;> split at mantissa' <;> simp only [hidden64] at * <;> omega

end QueryCache.Decimal
