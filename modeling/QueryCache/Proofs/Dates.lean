import QueryCache.Time.Calendar

/-!
# Days and dates

Every day has exactly the date that names it: its year is the one whose first day it does not
precede and whose successor it precedes, the walk through the months ends within a month, and
the day of the date so found is the day one began with.
-/

namespace QueryCache.Time

/-- The number of days of a year. -/
theorem daysBeforeYear_succ (year : Int) :
    daysBeforeYear (year + 1) = daysBeforeYear year + if isLeap year then 366 else 365 := by
  unfold daysBeforeYear isLeap
  by_cases fourth : year % 4 = 0 <;> by_cases hundredth : year % 100 = 0 <;>
    by_cases last : year % 400 = 0 <;> simp [fourth, hundredth, last] <;> omega

/-- A day is neither before its year nor after it. -/
theorem daysBeforeYear_yearOf (days : Int) :
    daysBeforeYear (yearOf days) ≤ days ∧ days < daysBeforeYear (yearOf days + 1) := by
  unfold yearOf
  simp only
  split
  · rw [Int.sub_add_cancel]
    unfold daysBeforeYear at *
    omega
  · split
    · unfold daysBeforeYear at *
      omega
    · omega

theorem length_monthLengths (leap : Bool) : (monthLengths leap).length = 12 := rfl

theorem foldr_monthLengths (leap : Bool) :
    (monthLengths leap).foldr (· + ·) 0 = if leap then 366 else 365 := by
  cases leap <;> rfl

/-- No month has more than 31 days. -/
theorem le_31_of_mem_monthLengths :
    ∀ leap, ∀ length ∈ monthLengths leap, length ≤ 31 := by
  decide

/-- The walk through the months ends in the month that holds the day, unless the day is behind
all of them. -/
theorem monthAndDay_spec (first : Nat) {day : Nat} {lengths : List Nat}
    (within : day < lengths.foldr (· + ·) 0) :
    ∃ passed length dayOfMonth, lengths[passed]? = some length ∧
      monthAndDay first lengths day = (first + passed, dayOfMonth) ∧ 1 ≤ dayOfMonth ∧
      dayOfMonth ≤ length ∧ (lengths.take passed).foldr (· + ·) 0 + dayOfMonth = day + 1 := by
  induction lengths generalizing first day with
  | nil => exact absurd within (Nat.not_lt_zero day)
  | cons length lengths inductionHypothesis =>
      rw [monthAndDay]
      split
      · rename_i here
        exact ⟨0, length, day + 1, rfl, rfl, Nat.le_add_left 1 day, here, Nat.zero_add _⟩
      · rename_i further
        rw [List.foldr_cons] at within
        have left : day - length < lengths.foldr (· + ·) 0 := by omega
        obtain ⟨passed, found, dayOfMonth, present, walked, positive, bounded, whole⟩ :=
          inductionHypothesis (first + 1) left
        refine ⟨passed + 1, found, dayOfMonth, present, ?_, positive, bounded, ?_⟩
        · rw [walked]
          simp only [Prod.mk.injEq, and_true]
          omega
        · rw [List.take_succ_cons, List.foldr_cons]
          omega

/-- What is known of the date of a day. -/
theorem Date.ofDays_spec (days : Int) :
    (Date.ofDays days).year = yearOf days ∧ (Date.ofDays days).isValid ∧
      (Date.ofDays days).toDays = days := by
  obtain ⟨low, high⟩ := daysBeforeYear_yearOf days
  rw [daysBeforeYear_succ] at high
  have within : (days - daysBeforeYear (yearOf days)).toNat <
      (monthLengths (isLeap (yearOf days))).foldr (· + ·) 0 := by
    rw [foldr_monthLengths]
    split at high <;> split <;> omega
  obtain ⟨passed, length, dayOfMonth, present, walked, positive, bounded, whole⟩ :=
    monthAndDay_spec 1 within
  have date : Date.ofDays days = ⟨yearOf days, 1 + passed, dayOfMonth⟩ := by
    rw [Date.ofDays, walked]
  have place : 1 + passed - 1 = passed := Nat.add_sub_cancel_left 1 passed
  rw [date]
  refine ⟨rfl, ?_, ?_⟩
  · simp only [isValid, place, present, positive, bounded, decide_true, Bool.and_true]
    exact decide_eq_true (Nat.le_add_right 1 passed)
  · simp only [toDays, daysBeforeMonth, place]
    omega

/-- The months and the days of months of existing dates. -/
theorem Date.bounds_of_isValid {date : Date} (valid : date.isValid) :
    1 ≤ date.month ∧ date.month ≤ 12 ∧ 1 ≤ date.day ∧ date.day ≤ 31 := by
  unfold isValid at valid
  split at valid
  · rename_i length present
    simp only [Bool.and_eq_true, decide_eq_true_eq] at valid
    obtain ⟨⟨firstMonth, firstDay⟩, lastDay⟩ := valid
    have place : date.month - 1 < 12 := by
      have bounded := (List.getElem?_eq_some_iff.mp present).1
      rwa [length_monthLengths] at bounded
    have lastLength := le_31_of_mem_monthLengths _ _ (List.mem_of_getElem? present)
    omega
  · simp at valid

end QueryCache.Time
