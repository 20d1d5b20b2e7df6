import QueryCache.Proofs.Dates
import QueryCache.Time.Timestamp

/-!
# The text of a moment tells the moment

A timestamp is read back from its text: each part is a number filled up to its width, so the
reader takes exactly the digits of the part, and the parts determine the moment. A year that
four digits cannot tell is found by its sign, the width of a fraction by the letter behind it,
and a leap second by the sixtieth second. Only a leap second that does not stand at the end of a
minute is read as another moment, the second behind it.
-/

namespace QueryCache.Time

/-! ## Digits -/

theorem isDigit_of_mem_padded {width value : Nat} {c : Char} (present : c ∈ padded width value) :
    c.isDigit := by
  rw [padded, List.mem_append] at present
  rcases present with filler | digit
  · rw [List.eq_of_mem_replicate filler]
    rfl
  · exact Nat.isDigit_of_mem_toDigits (by decide) (by decide) digit

theorem padded_ne_nil (width value : Nat) : padded width value ≠ [] :=
  List.append_ne_nil_of_right_ne_nil _ Nat.toDigits_ne_nil

theorem ofDigitChars_padded (width value : Nat) :
    Nat.ofDigitChars 10 (padded width value) 0 = value := by
  rw [padded, Nat.ofDigitChars_append, Nat.ofDigitChars_replicate_zero, Nat.mul_zero,
    Nat.ofDigitChars_ten_toDigits]

/-- A number is filled up to its width, and no further. -/
theorem length_padded_le {width room value : Nat} (positive : 0 < room) (wide : width ≤ room)
    (fits : value < Nat.pow 10 room) : (padded width value).length ≤ room := by
  have short := (Nat.length_toDigits_le_iff (by decide : 1 < 10) positive).mpr fits
  rw [padded, List.length_append, List.length_replicate]
  omega

/-- A number that fits is filled up to exactly the width. -/
theorem length_padded {width value : Nat} (positive : 0 < width)
    (fits : value < Nat.pow 10 width) : (padded width value).length = width := by
  have short := length_padded_le positive (Nat.le_refl width) fits
  rw [padded, List.length_append, List.length_replicate] at short ⊢
  omega

/-- A year begins with a digit or with its sign, neither of which is white space. -/
theorem isGap_of_isDigit {c : Char} (digit : c.isDigit) : isGap c = false := by
  rw [Char.isDigit, Bool.and_eq_true, decide_eq_true_eq, decide_eq_true_eq] at digit
  obtain ⟨low, high⟩ := digit
  have low : 48 ≤ c.toNat := low
  have high : c.toNat ≤ 57 := high
  unfold isGap
  simp only [Bool.or_eq_false_iff, Bool.and_eq_false_iff, decide_eq_false_iff_not]
  omega

theorem skipGaps_padded (width value : Nat) (rest : List Char) :
    skipGaps (padded width value ++ rest) = padded width value ++ rest := by
  obtain ⟨c, digits, whole⟩ := List.exists_cons_of_ne_nil (padded_ne_nil width value)
  have digit : c.isDigit := isDigit_of_mem_padded (whole ▸ List.mem_cons_self ..)
  rw [whole, List.cons_append, skipGaps, List.dropWhile_cons_of_neg]
  rw [isGap_of_isDigit digit]
  exact Bool.false_ne_true

/-- Digits are read up to the character behind them. -/
theorem readDigits_append {most : Nat} {digits rest : List Char} {c : Char}
    (all : ∀ d ∈ digits, d.isDigit) (present : digits ≠ []) (fits : digits.length ≤ most)
    (small : Nat.ofDigitChars 10 digits 0 ≤ largestNumber) (ends : c.isDigit = false) :
    readDigits most (digits ++ c :: rest) = some (Nat.ofDigitChars 10 digits 0, c :: rest) := by
  have taken : ((digits ++ c :: rest).take most).takeWhile Char.isDigit = digits := by
    rw [List.take_append, List.take_of_length_le fits, List.takeWhile_append_of_pos all]
    cases most - digits.length <;> simp [ends]
  rw [Nat.ofDigitChars_eq_foldl] at small ⊢
  have readable : ¬ (digits.isEmpty ∨ largestNumber <
      digits.foldl (fun value c => 10 * value + (c.toNat - '0'.toNat)) 0) := by
    rw [List.isEmpty_iff]
    exact fun refused => refused.elim present (Nat.not_lt.mpr small)
  simp only [readDigits, taken, if_neg readable, List.drop_left]

theorem readDigits_padded {most width value : Nat} {c : Char} {rest : List Char}
    (fits : (padded width value).length ≤ most) (small : value ≤ largestNumber)
    (ends : c.isDigit = false) :
    readDigits most (padded width value ++ c :: rest) = some (value, c :: rest) := by
  rw [readDigits_append (fun _ => isDigit_of_mem_padded) (padded_ne_nil width value) fits
    (by rwa [ofDigitChars_padded]) ends, ofDigitChars_padded]

theorem readInRange_padded {low high value : Nat} {c : Char} (least : low ≤ value)
    (greatest : value ≤ high) (two : high < 100) (ends : c.isDigit = false) (rest : List Char) :
    readInRange 2 low high (padded 2 value ++ c :: rest) = some (value, c :: rest) := by
  have fits : (padded 2 value).length ≤ 2 :=
    Nat.le_of_eq (length_padded (by decide) (Nat.lt_of_le_of_lt greatest two))
  have small : value ≤ largestNumber := by
    have bound : 100 ≤ largestNumber := by decide
    omega
  rw [readInRange, skipGaps_padded, readDigits_padded fits small ends]
  exact if_pos ⟨least, greatest⟩

theorem readMark_cons {mark : Char} (plain : isGap mark = false) (rest : List Char) :
    readMark mark (mark :: rest) = some ((), rest) := by
  rw [readMark, skipGaps, List.dropWhile_cons_of_neg (by rw [plain]; exact Bool.false_ne_true)]
  exact if_pos rfl

/-! ## Dates -/

theorem readSignedYear_padded {width value : Nat} {rest : List Char} :
    readSignedYear (padded width value ++ rest) =
      (readDigits 4 (padded width value ++ rest)).map fun read => ((read.1 : Int), read.2) := by
  obtain ⟨c, digits, whole⟩ := List.exists_cons_of_ne_nil (padded_ne_nil width value)
  have digit : c.isDigit := isDigit_of_mem_padded (whole ▸ List.mem_cons_self ..)
  rw [whole, List.cons_append]
  unfold readSignedYear
  split
  · rename_i same
    cases same
    cases digit
  · rename_i same
    cases same
    cases digit
  · rfl

theorem readYear_yearChars {year : Int} (low : Int32.minValue.toInt ≤ year)
    (high : year ≤ Int32.maxValue.toInt) {c : Char} (ends : c.isDigit = false)
    (rest : List Char) :
    readYear (yearChars year ++ c :: rest) = some (year, c :: rest) := by
  have least : Int32.minValue.toInt = -2147483648 := by decide
  have greatest : Int32.maxValue.toInt = 2147483647 := by decide
  have largest : largestNumber = 9223372036854775807 := by decide
  have found : readSignedYear (skipGaps (yearChars year ++ c :: rest)) =
      some (year, c :: rest) := by
    unfold yearChars
    split
    · rename_i four
      have below : year.toNat < Nat.pow 10 4 := by
        have bound : Nat.pow 10 4 = 10000 := by decide
        omega
      have fits : (padded 4 year.toNat).length ≤ 4 :=
        Nat.le_of_eq (length_padded (by decide) below)
      rw [skipGaps_padded, readSignedYear_padded, readDigits_padded fits (by omega) ends]
      simp only [Option.map_some, Int.toNat_of_nonneg four.1]
    · have digits : readDigits (padded 4 year.natAbs ++ c :: rest).length
          (padded 4 year.natAbs ++ c :: rest) = some (year.natAbs, c :: rest) :=
        readDigits_padded (by rw [List.length_append]; exact Nat.le_add_right _ _) (by omega) ends
      split
      · have minus : readSignedYear (skipGaps ('-' :: padded 4 year.natAbs ++ c :: rest)) =
            (readDigits (padded 4 year.natAbs ++ c :: rest).length
              (padded 4 year.natAbs ++ c :: rest)).map
              fun read => (-(read.1 : Int), read.2) := rfl
        rw [minus, digits, Option.map_some]
        simp only [Option.some.injEq, Prod.mk.injEq, and_true]
        omega
      · have plus : readSignedYear (skipGaps ('+' :: padded 4 year.natAbs ++ c :: rest)) =
            (readDigits (padded 4 year.natAbs ++ c :: rest).length
              (padded 4 year.natAbs ++ c :: rest)).map
              fun read => ((read.1 : Int), read.2) := rfl
        rw [plus, digits, Option.map_some]
        simp only [Option.some.injEq, Prod.mk.injEq, and_true]
        omega
  rw [readYear, found]
  exact if_pos ⟨low, high⟩

/-- The date of a moment is read from its text. -/
theorem readDate_chars {date : Date} (valid : date.isValid) (low : firstYear ≤ date.year)
    (high : date.year ≤ lastYear) {c : Char} (ends : c.isDigit = false) (rest : List Char) :
    readDate (yearChars date.year ++ '-' :: (padded 2 date.month ++ '-' ::
      (padded 2 date.day ++ c :: rest))) = some (date, c :: rest) := by
  obtain ⟨firstMonth, lastMonth, firstDay, lastDay⟩ := Date.bounds_of_isValid valid
  have dash : ('-').isDigit = false := by decide
  have year := readYear_yearChars
    (Int.le_trans (by decide : Int32.minValue.toInt ≤ firstYear) low)
    (Int.le_trans high (by decide : lastYear ≤ Int32.maxValue.toInt)) dash
    (padded 2 date.month ++ '-' :: (padded 2 date.day ++ c :: rest))
  have month := readInRange_padded firstMonth lastMonth (by decide) dash
    (padded 2 date.day ++ c :: rest)
  have day := readInRange_padded firstDay lastDay (by decide) ends rest
  simp only [readDate, year, month, day, readMark_cons (by decide : isGap '-' = false),
    Option.bind_eq_bind, Option.bind_some, Option.pure_def]

/-! ## Times of day -/

/-- A fraction of so many digits is read as the nanoseconds of these digits. -/
theorem readFraction_padded {width value : Nat} (positive : 0 < width) (nine : width ≤ 9)
    (fits : value < Nat.pow 10 width) (rest : List Char) :
    readFraction ('.' :: padded width value ++ 'Z' :: rest) =
      some (value * Nat.pow 10 (9 - width), 'Z' :: rest) := by
  have length := length_padded positive fits
  have small : value ≤ largestNumber := by
    have bound : Nat.pow 10 width ≤ Nat.pow 10 9 := Nat.pow_le_pow_right (by decide) nine
    have large : Nat.pow 10 9 ≤ largestNumber := by decide
    omega
  have digits : readDigits 9 (padded width value ++ 'Z' :: rest) = some (value, 'Z' :: rest) :=
    readDigits_padded (by omega) small rfl
  rw [List.cons_append, readFraction, digits]
  simp only [Option.bind_eq_bind, Option.bind_some, Option.pure_def, List.length_append, length,
    Nat.add_sub_cancel]
  rfl

theorem readFraction_fractionChars {nanos : Nat} (below : nanos < 1000000000)
    (rest : List Char) :
    readFraction (fractionChars nanos ++ 'Z' :: rest) = some (nanos, 'Z' :: rest) := by
  have three : Nat.pow 10 3 = 1000 := rfl
  have six : Nat.pow 10 6 = 1000000 := rfl
  have nine : Nat.pow 10 9 = 1000000000 := rfl
  unfold fractionChars
  split
  · rename_i none
    rw [none]
    rfl
  split
  · rename_i whole
    rw [readFraction_padded (by decide) (by decide) (by omega)]
    exact congrArg (fun nanos => some (nanos, _))
      (Nat.div_mul_cancel (Nat.dvd_of_mod_eq_zero whole))
  split
  · rename_i whole
    rw [readFraction_padded (by decide) (by decide) (by omega)]
    exact congrArg (fun nanos => some (nanos, _))
      (Nat.div_mul_cancel (Nat.dvd_of_mod_eq_zero whole))
  · rw [readFraction_padded (by decide) (by decide) (by omega)]
    exact congrArg (fun nanos => some (nanos, _)) (Nat.mul_one nanos)

/-- Behind the seconds there is no further digit. -/
theorem fractionChars_append (nanos : Nat) (rest : List Char) :
    ∃ c tail, fractionChars nanos ++ 'Z' :: rest = c :: tail ∧ c.isDigit = false := by
  unfold fractionChars
  split
  · exact ⟨_, _, rfl, rfl⟩
  split
  · exact ⟨_, _, rfl, rfl⟩
  split <;> exact ⟨_, _, rfl, rfl⟩

/-- The time of day of a moment is read from its text. -/
theorem readTimeOfDay_chars {time : TimeOfDay} (hour : time.hour ≤ 23) (minute : time.minute ≤ 59)
    (second : time.second ≤ 60) (nanos : time.nanos < 1000000000) (rest : List Char) :
    readTimeOfDay (padded 2 time.hour ++ ':' :: (padded 2 time.minute ++ ':' ::
      (padded 2 time.second ++ (fractionChars time.nanos ++ 'Z' :: rest)))) =
      some (time, 'Z' :: rest) := by
  obtain ⟨c, tail, whole, ends⟩ := fractionChars_append time.nanos rest
  have fraction := readFraction_fractionChars nanos rest
  rw [whole] at fraction ⊢
  have colon : (':').isDigit = false := by decide
  have hours := readInRange_padded (Nat.zero_le _) hour (by decide) colon
    (padded 2 time.minute ++ ':' :: (padded 2 time.second ++ c :: tail))
  have minutes := readInRange_padded (Nat.zero_le _) minute (by decide) colon
    (padded 2 time.second ++ c :: tail)
  have seconds := readInRange_padded (Nat.zero_le _) second (by decide) ends tail
  simp only [readTimeOfDay, hours, minutes, seconds, fraction,
    readMark_cons (by decide : isGap ':' = false), Option.bind_eq_bind, Option.bind_some,
    Option.pure_def]

theorem length_fractionChars_le {nanos : Nat} (below : nanos < 1000000000) :
    (fractionChars nanos).length ≤ 10 := by
  have nine : Nat.pow 10 9 = 1000000000 := rfl
  unfold fractionChars
  split
  · exact Nat.zero_le 10
  split
  · exact Nat.succ_le_succ (length_padded_le (by decide) (by decide) (by omega))
  split
  · exact Nat.succ_le_succ (length_padded_le (by decide) (by decide) (by omega))
  · exact Nat.succ_le_succ (length_padded_le (by decide) (by decide) (by omega))

/-! ## Moments -/

namespace Timestamp

/-- The date of a moment. -/
def date (moment : Timestamp) : Date := .ofDays moment.days

/-- The time of day that the text of a moment tells. -/
def timeOfDay (moment : Timestamp) : TimeOfDay where
  hour := moment.secondOfDay / 3600
  minute := moment.secondOfDay / 60 % 60
  second := moment.secondOfDay % 60 + moment.nanos / 1000000000
  nanos := moment.nanos % 1000000000

theorem secondOfDay_lt (moment : Timestamp) : moment.secondOfDay < 86400 := by
  unfold secondOfDay secondsPerDay
  omega

/-- What the text of a moment tells lies in the day of the moment. -/
theorem days_told (moment : Timestamp) : moment.told.days = moment.days := by
  unfold told
  split
  · rename_i stray
    have inMinute := stray.2
    unfold days secondsPerDay
    simp only
    omega
  · rfl

/-- The seconds and nanoseconds of a time of day are those of which the text tells. -/
theorem told_eq {moment : Timestamp} (below : moment.nanos < 2000000000) :
    let time := moment.timeOfDay
    let second := if time.second = 60 then 59 else time.second
    moment.told =
      ⟨moment.seconds / secondsPerDay * secondsPerDay +
          (time.hour * 3600 + time.minute * 60 + second : Nat),
        time.nanos + if time.second = 60 then 1000000000 else 0⟩ := by
  intro time second
  have day : secondsPerDay = 86400 := rfl
  have inDay : (moment.secondOfDay : Int) = moment.seconds % 86400 := by
    unfold secondOfDay secondsPerDay
    omega
  have clock : time.hour * 3600 + time.minute * 60 + moment.secondOfDay % 60 =
      moment.secondOfDay := by
    simp only [time, timeOfDay]
    omega
  have parts : time.second = moment.secondOfDay % 60 + moment.nanos / 1000000000 ∧
      time.nanos = moment.nanos % 1000000000 := ⟨rfl, rfl⟩
  have isSecond : second = if time.second = 60 then 59 else time.second := rfl
  clear_value second time
  rw [day, told]
  by_cases stray : moment.IsStray
  · obtain ⟨leap, aside⟩ := id stray
    have notLast : time.second ≠ 60 := by omega
    rw [if_neg notLast] at isSecond
    rw [if_pos stray, if_neg notLast, Timestamp.mk.injEq]
    constructor <;> omega
  · have regular : 1000000000 ≤ moment.nanos → moment.seconds % 60 = 59 := fun leap =>
      Decidable.byContradiction fun aside => stray ⟨leap, aside⟩
    have seconds : moment.seconds = moment.seconds / 86400 * 86400 +
        (time.hour * 3600 + time.minute * 60 + second : Nat) := by
      split at isSecond <;> omega
    have nanoseconds : time.nanos + (if time.second = 60 then 1000000000 else 0) =
        moment.nanos := by
      split <;> omega
    rw [if_neg stray, nanoseconds, ← seconds]

/-- From the date and time of day of a moment that moment is found of which its text tells. -/
theorem momentOf_eq_told {moment : Timestamp} (valid : moment.IsValid) :
    momentOf moment.date moment.timeOfDay 0 = some moment.told := by
  obtain ⟨low, high, nanos⟩ := valid
  obtain ⟨year, dated, day⟩ := Date.ofDays_spec moment.days
  have found := told_eq nanos
  have seconds : (moment.date.toDays - epochDay) * secondsPerDay =
      moment.seconds / secondsPerDay * secondsPerDay := by
    rw [date, day, days, Int.add_sub_cancel]
  have same : momentOf moment.date moment.timeOfDay 0 =
      if moment.date.isValid ∧ (firstYear ≤ moment.date.year && moment.date.year ≤ lastYear) ∧
          -secondsPerDay < 0 ∧ (0 : Int) < secondsPerDay ∧
          (firstYear ≤ yearOf moment.told.days && yearOf moment.told.days ≤ lastYear) then
        some moment.told
      else none := by
    simp only [momentOf, seconds, Int.sub_zero]
    rw [found]
  rw [same, days_told, date, year]
  refine if_pos ⟨dated, ?_, by decide, by decide, ?_⟩ <;>
    simp only [low, high, decide_true, Bool.and_self]

/-- The parts of the text of a moment. -/
theorem chars_eq (moment : Timestamp) :
    moment.chars = yearChars moment.date.year ++ '-' :: (padded 2 moment.date.month ++
      '-' :: (padded 2 moment.date.day ++ 'T' :: (padded 2 moment.timeOfDay.hour ++ ':' ::
      (padded 2 moment.timeOfDay.minute ++ ':' :: (padded 2 moment.timeOfDay.second ++
      (fractionChars moment.timeOfDay.nanos ++ 'Z' :: [])))))) := by
  simp only [chars, date, timeOfDay, List.append_assoc, List.cons_append]

/-- The times of day that the texts of moments tell are those that are read. -/
theorem timeOfDay_bounds {moment : Timestamp} (valid : moment.IsValid) :
    moment.timeOfDay.hour ≤ 23 ∧ moment.timeOfDay.minute ≤ 59 ∧ moment.timeOfDay.second ≤ 60 ∧
      moment.timeOfDay.nanos < 1000000000 := by
  have inDay := moment.secondOfDay_lt
  have nanos := valid.2.2
  simp only [timeOfDay]
  omega

/-- The text of a moment tells the moment, or the second behind it. -/
theorem ofText?_text {moment : Timestamp} (valid : moment.IsValid) :
    ofText? moment.text = some moment.told := by
  obtain ⟨year, dated, -⟩ := Date.ofDays_spec moment.days
  obtain ⟨hour, minute, second, nanos⟩ := timeOfDay_bounds valid
  have timeRead := readTimeOfDay_chars hour minute second nanos []
  have letter : ('T').isDigit = false := by decide
  have low : firstYear ≤ (Date.ofDays moment.days).year := year ▸ valid.1
  have high : (Date.ofDays moment.days).year ≤ lastYear := year ▸ valid.2.1
  have dateRead := readDate_chars dated low high letter (padded 2 moment.timeOfDay.hour ++ ':' ::
      (padded 2 moment.timeOfDay.minute ++ ':' :: (padded 2 moment.timeOfDay.second ++
      (fractionChars moment.timeOfDay.nanos ++ 'Z' :: []))))
  rw [← date] at dateRead
  rw [ofText?, text, String.toList_ofList, chars_eq]
  simp only [dateRead, timeRead, Option.bind_eq_bind, Option.bind_some]
  exact momentOf_eq_told valid

/-- The text of a moment is short. -/
theorem length_chars_le {moment : Timestamp} (valid : moment.IsValid) :
    moment.chars.length ≤ 40 := by
  obtain ⟨year, dated, -⟩ := Date.ofDays_spec moment.days
  obtain ⟨-, lastMonth, -, lastDay⟩ := Date.bounds_of_isValid dated
  obtain ⟨lastHour, lastMinute, lastSecond, below⟩ := timeOfDay_bounds valid
  have two {value : Nat} (small : value ≤ 60) : (padded 2 value).length = 2 :=
    length_padded (by decide) (Nat.lt_of_le_of_lt small (by decide))
  have years : (yearChars moment.date.year).length ≤ 7 := by
    have within : moment.date.year.natAbs < Nat.pow 10 6 := by
      have bound : Nat.pow 10 6 = 1000000 := rfl
      have low : -262143 ≤ moment.date.year := year ▸ valid.1
      have high : moment.date.year ≤ 262142 := year ▸ valid.2.1
      omega
    unfold yearChars
    split
    · exact Nat.le_succ_of_le (length_padded_le (by decide) (by decide) (by omega))
    · exact Nat.succ_le_succ (length_padded_le (by decide) (by decide) within)
  have fraction := length_fractionChars_le below
  have month := two (Nat.le_trans lastMonth (by decide))
  have day := two (Nat.le_trans lastDay (by decide))
  have hour := two (Nat.le_trans lastHour (by decide))
  have minute := two (Nat.le_trans lastMinute (by decide))
  have second := two lastSecond
  rw [← date] at month day
  rw [chars_eq]
  simp only [List.length_append, List.length_cons, List.length_nil, month, day, hour, minute,
    second]
  omega

end Timestamp

end QueryCache.Time
