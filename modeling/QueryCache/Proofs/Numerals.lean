import Mathlib.Data.List.TakeWhile
import QueryCache.Proofs.Rounding
import QueryCache.Datum.Json
import QueryCache.Json.Reader

/-!
# A written number is read back

A number in JSON text is a numeral, and the reader of numerals finds exactly that numeral in front
of anything that does not continue it. The numeral tells the number: an integer by its sign and
digits, a floating-point number by its sign and by the rational number that the numeral stands
for, since this rounds to no other number of 64 bits. A point or an exponent tells the one kind
from the other.
-/

namespace QueryCache.Json

/-! ## Digits -/

theorem digitsValue_eq_ofDigitChars (digits : List Char) :
    digitsValue digits = Nat.ofDigitChars 10 digits 0 :=
  Nat.ofDigitChars_eq_foldl.symm

theorem digitsValue_append (digits others : List Char) :
    digitsValue (digits ++ others) =
      Nat.pow 10 others.length * digitsValue digits + digitsValue others := by
  rw [digitsValue_eq_ofDigitChars, digitsValue_eq_ofDigitChars, digitsValue_eq_ofDigitChars,
    Nat.ofDigitChars_append, Nat.ofDigitChars_eq_ofDigitChars_zero, Nat.pow_eq]

theorem digitsValue_replicate_zero (count : ℕ) : digitsValue (List.replicate count '0') = 0 := by
  rw [digitsValue_eq_ofDigitChars, Nat.ofDigitChars_replicate_zero, Nat.mul_zero]

theorem digitsValue_toDigits (value : ℕ) : digitsValue (Nat.toDigits 10 value) = value := by
  rw [digitsValue_eq_ofDigitChars, Nat.ofDigitChars_ten_toDigits]

theorem toDigits_injective {value other : ℕ}
    (same : Nat.toDigits 10 value = Nat.toDigits 10 other) : value = other := by
  rw [← digitsValue_toDigits value, same, digitsValue_toDigits]

theorem isDigit_of_mem_toDigits {value : ℕ} {c : Char} (present : c ∈ Nat.toDigits 10 value) :
    c.isDigit :=
  Nat.isDigit_of_mem_toDigits (by decide) (by decide) present

/-- No positive number begins with a zero. -/
theorem head?_toDigits_ne_zero {value : ℕ} (positive : 0 < value) :
    (Nat.toDigits 10 value).head? ≠ some '0' := by
  induction value using Nat.strong_induction_on with
  | h value inductionHypothesis =>
      by_cases small : value < 10
      · rw [Nat.toDigits_of_lt_base small, List.head?_cons, ne_eq, Option.some.injEq,
          Nat.digitChar_eq_zero]
        exact positive.ne'
      · rw [Nat.toDigits_of_base_le (by decide) (not_lt.mp small),
          List.head?_append_of_ne_nil _ Nat.toDigits_ne_nil]
        exact inductionHypothesis (value / 10) (by omega) (by omega)

/-- What is removed from the end of digits are zeros. -/
theorem exists_trailingZeros (digits : List Char) :
    ∃ count, digits = Decimal.dropTrailingZeros digits ++ List.replicate count '0' := by
  refine ⟨(digits.reverse.takeWhile (· = '0')).length, ?_⟩
  have zeros : digits.reverse.takeWhile (· = '0') =
      List.replicate (digits.reverse.takeWhile (· = '0')).length '0' :=
    List.eq_replicate_of_mem fun c present =>
      of_decide_eq_true (List.mem_takeWhile_imp (p := (· = '0')) present)
  have parts := List.takeWhile_append_dropWhile (p := (· = '0')) (l := digits.reverse)
  rw [Decimal.dropTrailingZeros, ← List.reverse_replicate, ← zeros, ← List.reverse_append, parts,
    List.reverse_reverse]

/-- The digits of a positive number without the zeros at its end: the number is theirs times a
power of ten, and they begin with no zero. -/
theorem exists_significant {value : ℕ} (positive : 0 < value) {digits : List Char}
    (trimmed : Decimal.dropTrailingZeros (Nat.toDigits 10 value) = digits) :
    ∃ count, (Nat.toDigits 10 value).length = digits.length + count ∧
      value = Nat.pow 10 count * digitsValue digits ∧ (∀ c ∈ digits, c.isDigit) ∧
      digits ≠ [] ∧ digits.head? ≠ some '0' := by
  obtain ⟨count, whole⟩ := exists_trailingZeros (Nat.toDigits 10 value)
  have leading := head?_toDigits_ne_zero positive
  have worth := digitsValue_toDigits value
  have digit : ∀ c ∈ Nat.toDigits 10 value, c.isDigit := fun _ => isDigit_of_mem_toDigits
  rw [trimmed] at whole
  rw [whole] at leading worth digit ⊢
  have present : digits ≠ [] := by
    rintro rfl
    rw [List.nil_append, digitsValue_replicate_zero] at worth
    exact positive.ne worth
  rw [List.head?_append_of_ne_nil _ present] at leading
  rw [digitsValue_append, digitsValue_replicate_zero, List.length_replicate, Nat.add_zero] at worth
  exact ⟨count, by simp, worth.symm, fun c member => digit c (List.mem_append_left _ member),
    present, leading⟩

/-! ## Numerals as text -/

/-- The text does not continue a numeral. -/
def EndsNumeral (rest : List Char) : Prop :=
  ∀ c ∈ rest.head?, c.isDigit = false ∧ c ≠ '.' ∧ c ≠ 'e' ∧ c ≠ 'E'

theorem spanDigits_append {digits rest : List Char} (all : ∀ d ∈ digits, d.isDigit)
    (ends : ∀ c ∈ rest.head?, c.isDigit = false) :
    spanDigits (digits ++ rest) = (digits, rest) := by
  rw [spanDigits, List.takeWhile_append_of_pos all, List.dropWhile_append_of_pos all]
  cases rest with
  | nil => simp
  | cons c rest =>
      have other : c.isDigit = false := ends c rfl
      simp [other]

namespace Numeral

/-- The exponent of a numeral as it is written. -/
def exponentChars : Option ℤ → List Char
  | none => []
  | some exponent =>
      'e' :: (if exponent < 0 then '-' else '+') :: Nat.toDigits 10 exponent.natAbs

/-- The fraction of a numeral as it is written. -/
def fractionChars : Option (List Char) → List Char
  | none => []
  | some fraction => '.' :: fraction

/-- A numeral as it is written. -/
def chars (numeral : Numeral) : List Char :=
  (if numeral.negative then ['-'] else []) ++
    (numeral.whole ++ (fractionChars numeral.fraction ++ exponentChars numeral.exponent))

/-- The numeral can be written: digits stand on both sides of a point, and no zero stands before
another digit in front of it. -/
structure IsWritable (numeral : Numeral) : Prop where
  whole_digits : ∀ c ∈ numeral.whole, c.isDigit
  whole_ne_nil : numeral.whole ≠ []
  whole_trimmed : numeral.whole = ['0'] ∨ numeral.whole.head? ≠ some '0'
  fraction_digits : ∀ digits ∈ numeral.fraction, ∀ c ∈ digits, c.isDigit
  fraction_ne_nil : ∀ digits ∈ numeral.fraction, digits ≠ []

theorem IsWritable.not_padded {numeral : Numeral} (writable : numeral.IsWritable) (c : Char)
    (cs : List Char) : numeral.whole ≠ '0' :: c :: cs := by
  intro padded
  rcases writable.whole_trimmed with zero | other
  · rw [padded] at zero
    cases zero
  · rw [padded] at other
    exact other rfl

theorem readExponent_append (exponent : Option ℤ) {rest : List Char} (ends : EndsNumeral rest) :
    readExponent (exponentChars exponent ++ rest) = .ok (exponent, rest) := by
  cases exponent with
  | none =>
      cases rest with
      | nil => rfl
      | cons c rest =>
          obtain ⟨-, -, lower, upper⟩ := ends c rfl
          simp [exponentChars, readExponent, lower, upper]
  | some exponent =>
      have all : ∀ c ∈ Nat.toDigits 10 exponent.natAbs, c.isDigit := fun _ =>
        isDigit_of_mem_toDigits
      have span := spanDigits_append all fun c first => (ends c first).1
      obtain ⟨digit, digits, whole⟩ :=
        List.exists_cons_of_ne_nil (Nat.toDigits_ne_nil (n := exponent.natAbs) (b := 10))
      have value := digitsValue_toDigits exponent.natAbs
      rw [whole] at span value
      rw [List.cons_append] at span
      by_cases negative : exponent < 0
      · simp [exponentChars, readExponent, negative, whole, span, value, abs_of_neg negative]
      · simp [exponentChars, readExponent, negative, whole, span, value,
          abs_of_nonneg (not_lt.mp negative)]

/-- An exponent, or what stands behind a numeral without one, continues no digits. -/
theorem head?_exponentChars_append (exponent : Option ℤ) {rest : List Char}
    (ends : EndsNumeral rest) :
    ∀ c ∈ (exponentChars exponent ++ rest).head?, c.isDigit = false ∧ c ≠ '.' := by
  intro c first
  cases exponent with
  | none => exact ⟨(ends c first).1, (ends c first).2.1⟩
  | some exponent =>
      cases first
      exact ⟨rfl, by decide⟩

theorem readUnsigned_pointed {negative : Bool} {whole digits : List Char} {exponent : Option ℤ}
    (writable : IsWritable ⟨negative, whole, some digits, exponent⟩) {rest : List Char}
    (ends : EndsNumeral rest) :
    readUnsigned negative (whole ++ '.' :: (digits ++ (exponentChars exponent ++ rest))) =
      .ok (⟨negative, whole, some digits, exponent⟩, rest) := by
  have span : spanDigits (whole ++ '.' :: (digits ++ (exponentChars exponent ++ rest))) =
      (whole, '.' :: (digits ++ (exponentChars exponent ++ rest))) :=
    spanDigits_append writable.whole_digits (by rintro c ⟨⟩; rfl)
  have fraction := spanDigits_append (writable.fraction_digits digits rfl)
    fun c first => (head?_exponentChars_append exponent ends c first).1
  have power := readExponent_append exponent ends
  obtain ⟨d, ds, rfl⟩ := List.exists_cons_of_ne_nil (writable.fraction_ne_nil digits rfl)
  unfold readUnsigned
  rw [span]
  split
  · rename_i empty
    exact absurd (Prod.mk.inj empty).1 writable.whole_ne_nil
  · rename_i padded
    exact absurd (Prod.mk.inj padded).1 (writable.not_padded _ _)
  · rename_i pointed
    obtain ⟨rfl, same⟩ := Prod.mk.inj pointed
    obtain ⟨-, rfl⟩ := List.cons.inj same
    rw [fraction]
    simp [power, bind, Except.bind, pure, Except.pure]
  · rename_i unpointed same
    exact absurd (Prod.mk.inj same).2.symm (unpointed _)

theorem readUnsigned_unpointed {negative : Bool} {whole : List Char} {exponent : Option ℤ}
    (writable : IsWritable ⟨negative, whole, none, exponent⟩) {rest : List Char}
    (ends : EndsNumeral rest) :
    readUnsigned negative (whole ++ (exponentChars exponent ++ rest)) =
      .ok (⟨negative, whole, none, exponent⟩, rest) := by
  have behind := head?_exponentChars_append exponent ends
  have span := spanDigits_append writable.whole_digits fun c first => (behind c first).1
  have power := readExponent_append exponent ends
  unfold readUnsigned
  rw [span]
  split
  · rename_i empty
    exact absurd (Prod.mk.inj empty).1 writable.whole_ne_nil
  · rename_i padded
    exact absurd (Prod.mk.inj padded).1 (writable.not_padded _ _)
  · rename_i pointed
    have first := (Prod.mk.inj pointed).2
    exact absurd rfl (behind '.' (by rw [first]; rfl)).2
  · rename_i same
    obtain ⟨rfl, rfl⟩ := Prod.mk.inj same
    simp [power, bind, Except.bind, pure, Except.pure]

/-- A numeral is read back up to what does not continue it. -/
theorem readNumeral_chars_append {numeral : Numeral} (writable : numeral.IsWritable)
    {rest : List Char} (ends : EndsNumeral rest) :
    readNumeral (numeral.chars ++ rest) = .ok (numeral, rest) := by
  have read : readUnsigned numeral.negative (numeral.whole ++
      (fractionChars numeral.fraction ++ (exponentChars numeral.exponent ++ rest))) =
        .ok (numeral, rest) := by
    obtain ⟨negative, whole, fraction, exponent⟩ := numeral
    cases fraction with
    | none => exact readUnsigned_unpointed writable ends
    | some digits => exact readUnsigned_pointed writable ends
  rw [chars, List.append_assoc, List.append_assoc, List.append_assoc]
  cases sign : numeral.negative with
  | true =>
      rw [sign] at read
      exact read
  | false =>
      rw [sign] at read
      obtain ⟨digit, digits, whole⟩ := List.exists_cons_of_ne_nil writable.whole_ne_nil
      have first : digit ≠ '-' := by
        rintro rfl
        exact absurd (writable.whole_digits '-' (whole ▸ List.mem_cons_self ..)) (by decide)
      rw [whole] at read ⊢
      rw [readNumeral.eq_def]
      simpa [first] using read

/-! ## Integers -/

/-- The numeral of an integer. -/
def ofInt (value : ℤ) : Numeral :=
  ⟨value < 0, Nat.toDigits 10 value.natAbs, none, none⟩

theorem chars_ofInt (value : ℤ) : (ofInt value).chars = intChars value := by
  simp [chars, ofInt, intChars, fractionChars, exponentChars]

theorem isWritable_ofInt (value : ℤ) : (ofInt value).IsWritable where
  whole_digits _ := isDigit_of_mem_toDigits
  whole_ne_nil := Nat.toDigits_ne_nil
  whole_trimmed := by
    rcases Nat.eq_zero_or_pos value.natAbs with zero | positive
    · left
      simp [ofInt, zero]
    · exact .inr (head?_toDigits_ne_zero positive)
  fraction_digits _ present := by cases present
  fraction_ne_nil _ present := by cases present

theorem ofInt_injective {value other : ℤ} (same : ofInt value = ofInt other) : value = other := by
  have sign := congrArg Numeral.negative same
  have magnitude := toDigits_injective (congrArg Numeral.whole same)
  simp only [ofInt, decide_eq_decide] at sign
  omega

/-! ## Floating-point numbers -/

/-- The rational number that a numeral stands for, its sign apart. -/
def rational (numeral : Numeral) : ℚ :=
  digitsValue (numeral.whole ++ numeral.fraction.getD []) *
    (10 : ℚ) ^ (numeral.exponent.getD 0 - ((numeral.fraction.getD []).length : ℤ))

/-- A text is what a numeral writes behind its sign; the numeral stands for a number and is not
mistaken for an integer. -/
structure Writes (numeral : Numeral) (negative : Bool) (number : ℚ) (text : List Char) : Prop where
  writable : numeral.IsWritable
  chars_eq : numeral.chars = (if negative then ['-'] else []) ++ text
  negative_eq : numeral.negative = negative
  not_integer : numeral.isInteger = false
  rational_eq : numeral.rational = number

/-- Zeros behind the digits and a smaller power of ten are the same number. -/
theorem shift_eq (n count : ℕ) {e f : ℤ} (shifted : e + count = f) :
    ((Nat.pow 10 count * n : ℕ) : ℚ) * (10 : ℚ) ^ e = n * (10 : ℚ) ^ f := by
  rw [← shifted, zpow_add₀ (by norm_num), zpow_natCast, Nat.pow_eq]
  push_cast
  ring

variable {digits : List Char} {negative : Bool} {exponent : ℤ}

/-- A small number: zeros between the point and the digits. -/
theorem writes_zeros_before (count : ℕ) (all : ∀ c ∈ digits, c.isDigit) (present : digits ≠ []) :
    Writes ⟨negative, ['0'], some (List.replicate count '0' ++ digits), none⟩
      negative (digitsValue digits * (10 : ℚ) ^ (-(count : ℤ) - digits.length))
      (['0', '.'] ++ List.replicate count '0' ++ digits) where
  writable :=
    { whole_digits := by simp
      whole_ne_nil := by simp
      whole_trimmed := .inl rfl
      fraction_digits := by
        rintro _ ⟨⟩ c member
        rcases List.mem_append.mp member with zero | digit
        · rw [List.eq_of_mem_replicate zero]
          rfl
        · exact all c digit
      fraction_ne_nil := by
        rintro _ ⟨⟩
        exact List.append_ne_nil_of_right_ne_nil _ present }
  chars_eq := by simp [chars, fractionChars, exponentChars]
  negative_eq := rfl
  not_integer := rfl
  rational_eq := by
    have zeros : ['0'] ++ List.replicate count '0' = List.replicate (count + 1) '0' := rfl
    simp only [rational, Option.getD_some, Option.getD_none, List.length_append,
      List.length_replicate]
    rw [← List.append_assoc, zeros, digitsValue_append, digitsValue_replicate_zero, Nat.mul_zero,
      Nat.zero_add]
    congr 2
    push_cast
    ring

/-- A number with the point among its digits. -/
theorem writes_point_inside {places : ℕ} (some_before : 0 < places)
    (some_behind : places < digits.length) (all : ∀ c ∈ digits, c.isDigit)
    (leading : digits.head? ≠ some '0') :
    Writes ⟨negative, digits.take places, some (digits.drop places), none⟩
      negative (digitsValue digits * (10 : ℚ) ^ ((places : ℤ) - digits.length))
      (digits.take places ++ '.' :: digits.drop places) where
  writable :=
    { whole_digits := fun c member => all c (List.mem_of_mem_take member)
      whole_ne_nil := by
        have positive : 0 < (digits.take places).length := by
          rw [List.length_take]
          omega
        exact List.ne_nil_of_length_pos positive
      whole_trimmed := .inr (by rwa [List.head?_take, if_neg some_before.ne'])
      fraction_digits := by
        rintro _ ⟨⟩ c member
        exact all c (List.mem_of_mem_drop member)
      fraction_ne_nil := by
        rintro _ ⟨⟩
        simpa using some_behind }
  chars_eq := by simp [chars, fractionChars, exponentChars]
  negative_eq := rfl
  not_integer := rfl
  rational_eq := by
    simp only [rational, Option.getD_some, Option.getD_none, List.take_append_drop,
      List.length_drop]
    congr 2
    omega

/-- A number with the point behind its digits. -/
theorem writes_zeros_behind (count : ℕ) (all : ∀ c ∈ digits, c.isDigit) (present : digits ≠ [])
    (leading : digits.head? ≠ some '0') :
    Writes ⟨negative, digits ++ List.replicate count '0', some ['0'], none⟩
      negative (digitsValue digits * (10 : ℚ) ^ (count : ℤ))
      (digits ++ List.replicate count '0' ++ '.' :: ['0']) where
  writable :=
    { whole_digits := by
        intro c member
        rcases List.mem_append.mp member with digit | zero
        · exact all c digit
        · rw [List.eq_of_mem_replicate zero]
          rfl
      whole_ne_nil := List.append_ne_nil_of_left_ne_nil present _
      whole_trimmed := .inr (by rwa [List.head?_append_of_ne_nil _ present])
      fraction_digits := by
        rintro _ ⟨⟩
        simp
      fraction_ne_nil := by
        rintro _ ⟨⟩
        simp }
  chars_eq := by simp [chars, fractionChars, exponentChars]
  negative_eq := rfl
  not_integer := rfl
  rational_eq := by
    have zeros : List.replicate count '0' ++ ['0'] = List.replicate (count + 1) '0' :=
      List.replicate_succ'.symm
    simp only [rational, Option.getD_some, Option.getD_none]
    rw [List.append_assoc, zeros, digitsValue_append, digitsValue_replicate_zero,
      List.length_replicate, Nat.add_zero]
    exact shift_eq _ _ (by simp)

/-- A number with the power of ten behind its only digit. -/
theorem writes_digit_power {digit : Char} (isDigit : digit.isDigit) :
    Writes ⟨negative, [digit], none, some exponent⟩
      negative (digitsValue [digit] * (10 : ℚ) ^ exponent)
      ([digit] ++ ['e', if exponent < 0 then '-' else '+'] ++ Nat.toDigits 10 exponent.natAbs) where
  writable :=
    { whole_digits := by simpa using isDigit
      whole_ne_nil := by simp
      whole_trimmed := by
        by_cases zero : digit = '0'
        · simp [zero]
        · simp [zero]
      fraction_digits _ present := by cases present
      fraction_ne_nil _ present := by cases present }
  chars_eq := by simp [chars, fractionChars, exponentChars]
  negative_eq := rfl
  not_integer := rfl
  rational_eq := by simp [rational]

/-- A number with the power of ten behind its digits, the point after the first. -/
theorem writes_digits_power {digit : Char} (all : ∀ c ∈ digit :: digits, c.isDigit)
    (present : digits ≠ []) :
    Writes ⟨negative, [digit], some digits, some exponent⟩
      negative (digitsValue (digit :: digits) * (10 : ℚ) ^ (exponent - digits.length))
      ([digit] ++ '.' :: digits ++ ['e', if exponent < 0 then '-' else '+'] ++
        Nat.toDigits 10 exponent.natAbs) where
  writable :=
    { whole_digits := by simpa using (List.forall_mem_cons.mp all).1
      whole_ne_nil := by simp
      whole_trimmed := by
        by_cases zero : digit = '0'
        · simp [zero]
        · simp [zero]
      fraction_digits := by
        rintro _ ⟨⟩
        exact (List.forall_mem_cons.mp all).2
      fraction_ne_nil := by
        rintro _ ⟨⟩
        exact present }
  chars_eq := by simp [chars, fractionChars, exponentChars]
  negative_eq := rfl
  not_integer := rfl
  rational_eq := by simp [rational]

/-- Significant digits are written by a numeral that stands for them, whatever the notation. -/
theorem exists_numeral_writeDigits (range : Decimal.PositionalRange) (negative : Bool)
    (all : ∀ c ∈ digits, c.isDigit) (present : digits ≠ []) (leading : digits.head? ≠ some '0')
    (exponent : ℤ) :
    ∃ numeral : Numeral, numeral.Writes negative
      (digitsValue digits * (10 : ℚ) ^ (exponent + 1 - digits.length))
      (Decimal.writeDigits range digits exponent) := by
  have nonempty : 0 < digits.length := List.length_pos_iff.mpr present
  unfold Decimal.writeDigits
  split
  · split
    · rename_i small
      have power : exponent + 1 - digits.length =
          -((-exponent - 1).toNat : ℤ) - digits.length := by omega
      rw [power]
      exact ⟨_, writes_zeros_before _ all present⟩
    · rename_i large
      -- the point stands among the digits, or zeros fill the room up to it
      by_cases inside : exponent.toNat + 1 < digits.length
      · have power : exponent + 1 - digits.length =
          ((exponent.toNat + 1 : ℕ) : ℤ) - digits.length := by omega
        have behind : digits.drop (exponent.toNat + 1) ≠ [] := by simpa using inside
        have none : exponent.toNat + 1 - digits.length = 0 := by omega
        rw [power]
        exact ⟨_, by simpa [behind, none] using
          writes_point_inside (Nat.succ_pos _) inside all leading⟩
      · have power : exponent + 1 - digits.length =
          ((exponent.toNat + 1 - digits.length : ℕ) : ℤ) := by omega
        have nothing : digits.drop (exponent.toNat + 1) = [] := by simpa using inside
        have whole : digits.take (exponent.toNat + 1) = digits :=
          List.take_of_length_le (not_lt.mp inside)
        rw [power]
        exact ⟨_, by simpa [nothing, whole] using writes_zeros_behind _ all present leading⟩
  · obtain ⟨digit, others, rfl⟩ := List.exists_cons_of_ne_nil present
    by_cases single : others = []
    · subst single
      exact ⟨_, by simpa using writes_digit_power (all digit (List.mem_cons_self ..))⟩
    · exact ⟨_, by simpa [single] using writes_digits_power all single⟩

/-- The text of a magnitude is written by a numeral that rounds to the magnitude. -/
theorem exists_numeral_magnitudeText (range : Decimal.PositionalRange) (negative : Bool)
    (magnitude : Decimal.Binary) :
    ∃ (numeral : Numeral) (number : ℚ), magnitude.Covers number ∧
      numeral.Writes negative number (Decimal.magnitudeText range magnitude) := by
  by_cases zero : magnitude.mantissa = 0
  · rw [Decimal.magnitudeText, if_pos zero]
    have isDigit : ∀ c ∈ ['0'], c.isDigit := by simp
    refine ⟨_, _, ?_, writes_zeros_before 0 isDigit (List.cons_ne_nil _ _)⟩
    have nothing : digitsValue ['0'] = 0 := by decide
    rw [nothing, Nat.cast_zero, zero_mul]
    exact Decimal.Binary.covers_zero zero
  · have positive : 0 < magnitude.mantissa := Nat.pos_of_ne_zero zero
    have covers := Decimal.Binary.covers_shortest positive
    have digit : 0 < magnitude.shortest.coefficient := by
      have point := covers.pos positive
      rw [Decimal.value] at point
      exact_mod_cast pos_of_mul_pos_left point (zpow_nonneg (by norm_num) _)
    rw [Decimal.magnitudeText, if_neg zero]
    dsimp only
    generalize trimmed : Decimal.dropTrailingZeros
      (Nat.toDigits 10 magnitude.shortest.coefficient) = digits
    obtain ⟨count, length, worth, all, present, leading⟩ := exists_significant digit trimmed
    obtain ⟨numeral, writes⟩ := exists_numeral_writeDigits range negative all present leading
      (magnitude.shortest.exponent + (Nat.toDigits 10 magnitude.shortest.coefficient).length - 1)
    have power : magnitude.shortest.exponent + (count : ℤ) = magnitude.shortest.exponent +
        (Nat.toDigits 10 magnitude.shortest.coefficient).length - 1 + 1 - digits.length := by
      omega
    rw [← shift_eq _ count power, ← worth] at writes
    exact ⟨numeral, magnitude.shortest.value, covers, writes⟩

/-! ## Numbers -/

/-- The numeral is the text of the number. -/
def Tells (numeral : Numeral) : Number → Prop
  | .int value => numeral = ofInt value
  | .float bits => numeral.isInteger = false ∧ ∃ magnitude,
      Decimal.readFloat64 bits = .finite numeral.negative magnitude ∧
        magnitude.Covers numeral.rational

/-- A numeral tells one number only. -/
theorem Tells.unique {numeral : Numeral} {number other : Number} (first : numeral.Tells number)
    (second : numeral.Tells other) : number = other := by
  cases number with
  | int value =>
      cases other with
      | int value' => rw [ofInt_injective (first.symm.trans second)]
      | float bits =>
          rw [first] at second
          exact absurd second.1 Bool.noConfusion
  | float bits =>
      cases other with
      | int value' =>
          rw [second] at first
          exact absurd first.1 Bool.noConfusion
      | float bits' =>
          obtain ⟨-, magnitude, read, covers⟩ := first
          obtain ⟨-, magnitude', read', covers'⟩ := second
          have same : magnitude = magnitude' :=
            Decimal.Binary.eq_of_covers (Decimal.regular_of_readFloat64 read)
              (Decimal.regular_of_readFloat64 read') covers covers'
          rw [Decimal.eq_of_readFloat64 read (same ▸ read')]

end Numeral

end Json

namespace Number

/-- The number has a text of its own: an integer takes 64 bits at most, and a floating-point number
is finite. -/
def Fits : Number → Prop
  | .int value => -(Width.w64.signedLimit : ℤ) ≤ value ∧ value < Width.w64.limit
  | .float bits => ∃ negative magnitude, Decimal.readFloat64 bits = .finite negative magnitude

/-- A number is written as a numeral that tells it. -/
theorem exists_numeral {number : Number} (fits : number.Fits) :
    ∃ numeral : Json.Numeral, numeral.IsWritable ∧ numeral.chars = Json.numberChars number ∧
      numeral.Tells number := by
  cases number with
  | int value =>
      exact ⟨.ofInt value, Json.Numeral.isWritable_ofInt value, Json.Numeral.chars_ofInt value, rfl⟩
  | float bits =>
      obtain ⟨negative, magnitude, read⟩ := fits
      obtain ⟨numeral, number, covers, writes⟩ :=
        Json.Numeral.exists_numeral_magnitudeText Decimal.positional64 negative magnitude
      refine ⟨numeral, writes.writable, ?_, writes.not_integer, magnitude, ?_, ?_⟩
      · rw [writes.chars_eq, Json.numberChars, Decimal.text64?, read]
        rfl
      · rw [writes.negative_eq, read]
      · rw [writes.rational_eq]
        exact covers

/-- A number in front of what does not continue it is told by the text. -/
theorem chars_append_inj {number other : Number} (fits : number.Fits) (fits' : other.Fits)
    {rest rest' : List Char} (ends : Json.EndsNumeral rest) (ends' : Json.EndsNumeral rest')
    (same : Json.numberChars number ++ rest = Json.numberChars other ++ rest') :
    number = other ∧ rest = rest' := by
  obtain ⟨numeral, writable, chars, tells⟩ := exists_numeral fits
  obtain ⟨numeral', writable', chars', tells'⟩ := exists_numeral fits'
  have read := Json.Numeral.readNumeral_chars_append writable ends
  rw [chars, same, ← chars', Json.Numeral.readNumeral_chars_append writable' ends'] at read
  obtain ⟨rfl, rfl⟩ := Prod.mk.inj (Except.ok.inj read)
  exact ⟨tells.unique tells', rfl⟩

end Number

end QueryCache
