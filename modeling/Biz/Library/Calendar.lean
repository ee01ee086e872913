import Biz.Library.Time

/-!
# The civil calendar

The proleptic Gregorian date and time of day of an instant in UTC, as `time.Time`
computes them: cycles of 400, 100, 4 and 1 years, then the months of the year.
The day number of a date is the inverse, so a date determines its instant.
-/

namespace Biz.Calendar

open Time

def day : Int := 24 * hour

def leap (year : Int) : Bool := year % 4 = 0 && (year % 100 ≠ 0 || year % 400 = 0)

/-- The lengths of the months of a year. -/
def monthLengths (leapYear : Bool) : List Nat :=
  [31, if leapYear then 29 else 28, 31, 30, 31, 30, 31, 31, 30, 31, 30, 31]

/-- The number of days from the first of January of year one to that of a year. -/
def yearStart (year : Int) : Int :=
  365 * (year - 1) + (year - 1) / 4 - (year - 1) / 100 + (year - 1) / 400

/-- The year of a day number and the number of the day within the year. -/
def yearOf (number : Int) : Int × Int :=
  let cycle := number / 146097
  let rest := number % 146097
  let century := min (rest / 36524) 3
  let rest := rest - 36524 * century
  let quad := rest / 1461
  let rest := rest - 1461 * quad
  let single := min (rest / 365) 3
  (400 * cycle + 100 * century + 4 * quad + single + 1, rest - 365 * single)

/-- The month and the day of the month, from the lengths of the months to come,
the number of the first of them and the number of the day within them. -/
def monthOf : List Nat → Nat → Nat → Nat × Nat
  | [], month, rest => (month, rest + 1)
  | length :: later, month, rest =>
    if rest < length then (month, rest + 1) else monthOf later (month + 1) (rest - length)

structure Date where
  year : Int
  month : Nat
  day : Nat
  hour : Nat
  minute : Nat
  second : Nat
  nanosecond : Nat

/-- The date and time of day of an instant. -/
def date (instant : Instant) : Date :=
  let number := instant / day
  let rest := instant % day
  let (year, yearDay) := yearOf number
  let (month, monthDay) := monthOf (monthLengths (leap year)) 1 yearDay.toNat
  { year := year, month := month, day := monthDay, hour := (rest / hour).toNat,
    minute := (rest % hour / minute).toNat, second := (rest % minute / second).toNat,
    nanosecond := (rest % second).toNat }

/-- `Time.Year`. -/
def year (instant : Instant) : Int := (date instant).year

/-- The number of days before a month of a year. -/
def monthStart (leapYear : Bool) (month : Nat) : Nat :=
  ((monthLengths leapYear).take (month - 1)).sum

/-- The instant of a date, `time.Date` for values within their ranges. -/
def instant (d : Date) : Instant :=
  (yearStart d.year + monthStart (leap d.year) d.month + d.day - 1) * day + (d.hour : Int) * hour +
    (d.minute : Int) * minute + (d.second : Int) * second + d.nanosecond

/-- The cycles that `yearOf` finds, with their bounds. -/
theorem yearOf_parts (number : Int) : ∃ cycle century quad single rest,
    yearOf number = (400 * cycle + 100 * century + 4 * quad + single + 1, rest) ∧
      number = 146097 * cycle + 36524 * century + 1461 * quad + 365 * single + rest ∧
      0 ≤ century ∧ century ≤ 3 ∧ 0 ≤ quad ∧ quad ≤ 24 ∧ 0 ≤ single ∧ single ≤ 3 ∧ 0 ≤ rest ∧
      (rest < 365 ∨ (rest = 365 ∧ single = 3 ∧ (quad < 24 ∨ century = 3))) := by
  refine ⟨_, _, _, _, _, rfl, ?_⟩
  omega

/-- The year and the day within it give the day number back, and the day lies
within the year. -/
theorem yearOf_spec (number : Int) :
    yearStart (yearOf number).1 + (yearOf number).2 = number ∧ 0 ≤ (yearOf number).2 ∧
      (yearOf number).2 < 365 + if leap (yearOf number).1 then 1 else 0 := by
  obtain ⟨cycle, century, quad, single, rest, parts, total, bounds⟩ := yearOf_parts number
  rw [parts]
  refine ⟨?_, by omega, ?_⟩
  · have fours : (400 * cycle + 100 * century + 4 * quad + single + 1 - 1) / 4 =
        100 * cycle + 25 * century + quad := by omega
    have hundreds : (400 * cycle + 100 * century + 4 * quad + single + 1 - 1) / 100 =
        4 * cycle + century := by omega
    have cycles :
      (400 * cycle + 100 * century + 4 * quad + single + 1 - 1) / 400 = cycle := by omega
    simp only [yearStart, fours, hundreds, cycles]
    omega
  · by_cases short : rest < 365
    · split <;> omega
    · have isLeap : leap (400 * cycle + 100 * century + 4 * quad + single + 1) = true := by
        simp only [leap, Bool.and_eq_true, Bool.or_eq_true, decide_eq_true_eq, ne_eq]
        omega
      simp only [isLeap, if_true]
      omega

/-- The month and day give the day within the year back. -/
theorem monthOf_spec (lengths : List Nat) (month rest : Nat) (inside : rest < lengths.sum) :
    month ≤ (monthOf lengths month rest).1 ∧
      (monthOf lengths month rest).1 < month + lengths.length ∧
      1 ≤ (monthOf lengths month rest).2 ∧
      (lengths.take ((monthOf lengths month rest).1 - month)).sum +
        (monthOf lengths month rest).2 = rest + 1 ∧
      ∃ length, lengths[(monthOf lengths month rest).1 - month]? = some length ∧
        (monthOf lengths month rest).2 ≤ length := by
  induction lengths generalizing month rest with
  | nil => simp at inside
  | cons length later ih =>
    unfold monthOf
    split
    · simp
      omega
    · simp only [List.sum_cons] at inside
      obtain ⟨low, high, first, total, last, found, within⟩ :=
        ih (month + 1) (rest - length) (by omega)
      generalize monthOf later (month + 1) (rest - length) = result
        at low high first total found within
      have shift : result.1 - month = (result.1 - (month + 1)) + 1 := by omega
      refine ⟨by omega, by simp only [List.length_cons]; omega, first, ?_, last, ?_, within⟩
      · rw [shift, List.take_succ_cons, List.sum_cons]
        omega
      · rw [shift, List.getElem?_cons_succ]
        exact found

theorem monthLengths_sum (leapYear : Bool) :
    (monthLengths leapYear).sum = 365 + if leapYear then 1 else 0 := by
  cases leapYear <;> rfl

/-- The day within the year lies within the months of that year. -/
theorem yearDay_lt (number : Int) :
    (yearOf number).2.toNat < (monthLengths (leap (yearOf number).1)).sum := by
  obtain ⟨-, low, high⟩ := yearOf_spec number
  rw [monthLengths_sum]
  split at high <;> simp_all

/-- The bounds of the parts of a date. -/
theorem date_bounds (t : Instant) :
    1 ≤ (date t).month ∧ (date t).month ≤ 12 ∧ 1 ≤ (date t).day ∧
      (∃ length, (monthLengths (leap (date t).year))[(date t).month - 1]? = some length ∧
        (date t).day ≤ length) ∧
      (date t).hour < 24 ∧ (date t).minute < 60 ∧ (date t).second < 60 ∧
      (date t).nanosecond < 1000000000 := by
  have inside := yearDay_lt (t / day)
  obtain ⟨low, high, first, -, length, found, within⟩ := monthOf_spec _ 1 _ inside
  simp only [date]
  refine ⟨low, ?_, first, ⟨length, found, within⟩, ?_⟩
  · have twelve : (monthLengths (leap (yearOf (t / day)).1)).length = 12 := rfl
    omega
  · simp only [day, hour, minute, second]
    omega

/-- A date determines its instant. -/
theorem instant_date (t : Instant) : instant (date t) = t := by
  obtain ⟨total, low, -⟩ := yearOf_spec (t / day)
  have inside := yearDay_lt (t / day)
  obtain ⟨-, -, first, sum, -⟩ := monthOf_spec _ 1 _ inside
  have days : yearStart (date t).year + monthStart (leap (date t).year) (date t).month +
      (date t).day - 1 = t / day := by
    simp only [date, monthStart]
    omega
  have rest : ((date t).hour : Int) * hour + ((date t).minute : Int) * minute +
      ((date t).second : Int) * second + (date t).nanosecond = t % day := by
    have dayLength : day = 86400000000000 := rfl
    have hourLength : hour = 3600000000000 := rfl
    have minuteLength : minute = 60000000000 := rfl
    simp only [date, dayLength, hourLength, minuteLength, second]
    omega
  unfold instant
  rw [days]
  have whole := Int.mul_ediv_add_emod t day
  linarith

end Biz.Calendar
