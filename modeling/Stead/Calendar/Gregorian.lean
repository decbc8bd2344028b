import Mathlib.Data.Nat.Find
import Mathlib.Data.Prod.Lex
import Mathlib.Order.SuccPred.Basic
import Mathlib.Order.Monotone.Basic
import Mathlib.Algebra.Order.Group.Int
import Mathlib.Data.Int.ConditionallyCompleteOrder

/-!
# The Gregorian calendar

Days of the calendar, extended to all years. A day is a year, a month and a day of the month that
the month has, and `next` is the day after it.

## Numbers of days

Days are numbered from 1 January of the year 1, which is day 1 and a Monday, in such a way that
`next` adds one (`dayNumber_next`) and the order of the days is the order of their numbers
(`dayNumber_strictMono`); every number is the number of a day (`dayNumber_ofDayNumber`). So the days
are the integers, and whatever is said of days can be said of numbers, where it is arithmetic.

The way back from a number finds the year first, by a first guess that is off by one at most
(`yearOf`), then the month, then the day.

## Weeks

A week begins with a Sunday. The weekday of a day is the remainder of its number by seven, and the
Sunday of its week lies that many days before it. Two days are of one week when they are at most six
days from one Sunday (`SameWeek`), which is when their Sundays agree (`sameWeek_iff`).

Nothing here mentions a clock, a zone or a text.
-/

namespace Calendar

/-- Whether a year has a leap day. -/
def leap (year : ℤ) : Bool := year % 4 = 0 && (year % 100 ≠ 0 || year % 400 = 0)

/-- The number of days of a month. -/
def monthLength (year : ℤ) (month : ℕ) : ℕ :=
  if month = 2 then if leap year then 29 else 28
  else if month = 4 ∨ month = 6 ∨ month = 9 ∨ month = 11 then 30
  else 31

/-- A day of the calendar. -/
@[ext] structure Date where
  year : ℤ
  month : ℕ
  day : ℕ
  month_mem : 1 ≤ month ∧ month ≤ 12
  day_mem : 1 ≤ day ∧ day ≤ monthLength year month
  deriving DecidableEq

/-- Every month has a first day. -/
theorem one_le_monthLength (year : ℤ) (month : ℕ) : 1 ≤ monthLength year month := by
  unfold monthLength
  split_ifs <;> omega

/-- The days of the first months of a year. -/
def daysBefore (year : ℤ) : ℕ → ℕ
  | 0 => 0
  | months + 1 => daysBefore year months + monthLength year (months + 1)

/-- The number of the last day before a year. -/
def yearStart (year : ℤ) : ℤ :=
  365 * (year - 1) + (year - 1) / 4 - (year - 1) / 100 + (year - 1) / 400

/-- Months follow one another. -/
theorem daysBefore_mono (year : ℤ) : Monotone (daysBefore year) :=
  monotone_nat_of_le_succ fun _ ↦ Nat.le_add_right _ _

theorem daysBefore_twelve (year : ℤ) :
    daysBefore year 12 = if leap year then 366 else 365 := by
  cases h : leap year <;> simp [daysBefore, monthLength, h]

/-- A year begins after all the days of the one before. -/
theorem yearStart_succ (year : ℤ) : yearStart (year + 1) = yearStart year + daysBefore year 12 := by
  rw [daysBefore_twelve]
  simp only [yearStart, leap, Bool.and_eq_true, Bool.or_eq_true, decide_eq_true_eq]
  split_ifs <;> omega

/-- Years follow one another. -/
theorem yearStart_mono : Monotone yearStart :=
  monotone_int_of_le_succ fun year ↦ by
    rw [yearStart_succ]
    omega

namespace Date

/-- The days in the order of the calendar. -/
instance : LinearOrder Date :=
  LinearOrder.lift' (fun date : Date ↦ toLex (date.year, toLex (date.month, date.day)))
    fun a b h ↦ by
      simp only [EmbeddingLike.apply_eq_iff_eq, Prod.mk.injEq] at h
      exact Date.ext h.1 h.2.1 h.2.2

/-- Days are ordered by year, month and day. -/
theorem lt_def {a b : Date} : a < b ↔ a.year < b.year ∨
    a.year = b.year ∧ (a.month < b.month ∨ a.month = b.month ∧ a.day < b.day) := by
  show toLex (a.year, toLex (a.month, a.day)) < toLex (b.year, toLex (b.month, b.day)) ↔ _
  rw [Prod.Lex.lt_iff, Prod.Lex.lt_iff]
  rfl

/-- The day after. -/
def next (date : Date) : Date :=
  if h : date.day < monthLength date.year date.month then
    ⟨date.year, date.month, date.day + 1, date.month_mem, Nat.le_add_left _ _, h⟩
  else if h : date.month < 12 then
    ⟨date.year, date.month + 1, 1, ⟨Nat.le_add_left _ _, h⟩, le_rfl, one_le_monthLength _ _⟩
  else ⟨date.year + 1, 1, 1, ⟨le_rfl, by decide⟩, le_rfl, one_le_monthLength _ _⟩

/-- The number of a day. -/
def dayNumber (date : Date) : ℤ :=
  yearStart date.year + daysBefore date.year (date.month - 1) + date.day

/-- The days up to the end of the month. -/
theorem daysBefore_month (date : Date) : daysBefore date.year date.month =
    daysBefore date.year (date.month - 1) + monthLength date.year date.month := by
  obtain ⟨month, hmonth⟩ := Nat.exists_eq_add_of_le' date.month_mem.1
  rw [hmonth]
  rfl

/-- **The day after** has the next number. -/
theorem dayNumber_next (date : Date) : date.next.dayNumber = date.dayNumber + 1 := by
  have hday := date.day_mem
  have hmonth := date.month_mem
  have hend := date.daysBefore_month
  unfold next
  split_ifs with hlast hdecember
  · simp only [dayNumber]
    omega
  · simp only [dayNumber, Nat.add_sub_cancel]
    omega
  · have htwelve : date.month = 12 := by omega
    rw [htwelve] at hend hlast hday
    simp only [dayNumber, htwelve, yearStart_succ, Nat.sub_self, hend]
    show _ + ((daysBefore date.year (12 - 1) + monthLength date.year 12 : ℕ) : ℤ) +
      ((0 : ℕ) : ℤ) + _ = _
    omega

theorem yearStart_lt (date : Date) : yearStart date.year < date.dayNumber := by
  have hday := date.day_mem
  unfold dayNumber
  omega

theorem dayNumber_le (date : Date) : date.dayNumber ≤ yearStart (date.year + 1) := by
  have hday := date.day_mem
  have hend := date.daysBefore_month
  have hyear := daysBefore_mono date.year date.month_mem.2
  rw [yearStart_succ]
  unfold dayNumber
  omega

/-- **The order of the days** is the order of their numbers. -/
theorem dayNumber_strictMono : StrictMono dayNumber := by
  intro a b h
  rcases lt_def.1 h with hyear | ⟨hyear, hmonth | ⟨hmonth, hday⟩⟩
  · calc a.dayNumber ≤ yearStart (a.year + 1) := a.dayNumber_le
      _ ≤ yearStart b.year := yearStart_mono (by omega)
      _ < b.dayNumber := b.yearStart_lt
  · have hend := a.daysBefore_month
    have hmonths : daysBefore a.year a.month ≤ daysBefore a.year (b.month - 1) :=
      daysBefore_mono _ (by omega)
    have ha := a.day_mem
    have hb := b.day_mem
    unfold dayNumber
    rw [← hyear]
    omega
  · unfold dayNumber
    rw [hyear, hmonth]
    omega

/-- Different days have different numbers. -/
theorem dayNumber_injective : Function.Injective dayNumber := dayNumber_strictMono.injective

end Date

/-! ### The day with a number -/

/-- The year in which the day with a number lies. -/
def yearOf (n : ℤ) : ℤ :=
  let year := 400 * n / 146097 + 1
  if n ≤ yearStart year then year - 1 else if yearStart (year + 1) < n then year + 1 else year

/-- A year has, up to two days, the length it has on average. -/
theorem yearStart_bounds (year : ℤ) : 146097 * (year - 1) - 600 ≤ 400 * yearStart year ∧
    400 * yearStart year ≤ 146097 * (year - 1) + 600 := by
  unfold yearStart
  omega

/-- The year of a number is the one it lies in. -/
theorem yearOf_spec (n : ℤ) : yearStart (yearOf n) < n ∧ n ≤ yearStart (yearOf n + 1) := by
  have hbefore := yearStart_bounds (400 * n / 146097)
  have hafter := yearStart_bounds (400 * n / 146097 + 3)
  simp only [yearOf]
  split_ifs with hlow hhigh
  · refine ⟨?_, by simpa using hlow⟩
    rw [Int.add_sub_cancel]
    omega
  · refine ⟨hhigh, ?_⟩
    have hthree : 400 * n / 146097 + 1 + 1 + 1 = 400 * n / 146097 + 3 := by omega
    rw [hthree]
    omega
  · exact ⟨by omega, by omega⟩

/-- The months of a year that have ended before a day of it. -/
def monthsBefore (year : ℤ) (n : ℕ) : ℕ := Nat.findGreatest (fun m ↦ daysBefore year m < n) 11

/-- The month of a day of the year is the one it lies in. -/
theorem monthsBefore_spec {year : ℤ} {n : ℕ} (hlow : 1 ≤ n) (hhigh : n ≤ daysBefore year 12) :
    monthsBefore year n ≤ 11 ∧ daysBefore year (monthsBefore year n) < n ∧
      n ≤ daysBefore year (monthsBefore year n + 1) := by
  have hle : monthsBefore year n ≤ 11 := Nat.findGreatest_le 11
  refine ⟨hle, ?_, ?_⟩
  · exact Nat.findGreatest_spec (P := fun m ↦ daysBefore year m < n) (Nat.zero_le 11) hlow
  · rcases hle.lt_or_eq with hlt | heq
    · exact not_lt.1 (Nat.findGreatest_is_greatest (P := fun m ↦ daysBefore year m < n)
        (Nat.lt_succ_self (monthsBefore year n)) hlt)
    · rw [heq]
      exact hhigh

/-- The place of a day in its year. -/
def dayOfYear (n : ℤ) : ℕ := (n - yearStart (yearOf n)).toNat

/-- The day of the year is one that the year has. -/
theorem dayOfYear_spec (n : ℤ) : 1 ≤ dayOfYear n ∧ dayOfYear n ≤ daysBefore (yearOf n) 12 ∧
    yearStart (yearOf n) + dayOfYear n = n := by
  have hspec := yearOf_spec n
  rw [yearStart_succ] at hspec
  unfold dayOfYear
  omega

namespace Date

/-- The day with a number. -/
def ofDayNumber (n : ℤ) : Date where
  year := yearOf n
  month := monthsBefore (yearOf n) (dayOfYear n) + 1
  day := dayOfYear n - daysBefore (yearOf n) (monthsBefore (yearOf n) (dayOfYear n))
  month_mem := by
    have hspec := monthsBefore_spec (dayOfYear_spec n).1 (dayOfYear_spec n).2.1
    omega
  day_mem := by
    obtain ⟨-, hlow, hhigh⟩ := monthsBefore_spec (dayOfYear_spec n).1 (dayOfYear_spec n).2.1
    rw [daysBefore] at hhigh
    omega

/-- **Every number** is the number of a day. -/
@[simp] theorem dayNumber_ofDayNumber (n : ℤ) : (ofDayNumber n).dayNumber = n := by
  obtain ⟨hlow, hhigh, hn⟩ := dayOfYear_spec n
  have hmonth := (monthsBefore_spec hlow hhigh).2.1
  simp only [dayNumber, ofDayNumber, Nat.add_sub_cancel]
  omega

/-- A day is the day of its number. -/
@[simp] theorem ofDayNumber_dayNumber (date : Date) : ofDayNumber date.dayNumber = date :=
  dayNumber_injective (dayNumber_ofDayNumber _)

/-- Going on by `k` days adds `k`. -/
theorem dayNumber_iterate_next (date : Date) (k : ℕ) :
    (next^[k] date).dayNumber = date.dayNumber + k := by
  induction k with
  | zero => simp
  | succ k ih =>
    rw [Function.iterate_succ_apply', dayNumber_next, ih]
    omega

/-! ### Weeks -/

/-- The day of the week. Sunday is 0. -/
def weekday (date : Date) : ℕ := (date.dayNumber % 7).toNat

theorem weekday_lt (date : Date) : date.weekday < 7 := by
  unfold weekday
  omega

/-- The Sunday with which the week of a day begins. -/
def sunday (date : Date) : Date := ofDayNumber (date.dayNumber - date.weekday)

/-- The Sunday of a week lies as many days back as the weekday says. -/
@[simp] theorem dayNumber_sunday (date : Date) :
    date.sunday.dayNumber = date.dayNumber - date.weekday :=
  dayNumber_ofDayNumber _

theorem weekday_sunday (date : Date) : date.sunday.weekday = 0 := by
  rw [weekday, dayNumber_sunday]
  unfold weekday
  omega

/-- A day is as many days after its Sunday as its place in the week says. -/
theorem iterate_next_sunday (date : Date) : next^[date.weekday] date.sunday = date := by
  refine dayNumber_injective ?_
  rw [dayNumber_iterate_next, dayNumber_sunday]
  omega

/-- Both days are among the seven from one Sunday on. -/
def SameWeek (a b : Date) : Prop :=
  ∃ s : Date, s.weekday = 0 ∧ (∃ i < 7, a = next^[i] s) ∧ ∃ j < 7, b = next^[j] s

/-- The six days after a Sunday are of its week. -/
theorem sunday_iterate_next {s : Date} (hs : s.weekday = 0) {i : ℕ} (hi : i < 7) :
    (next^[i] s).sunday = s := by
  refine dayNumber_injective ?_
  unfold weekday at hs
  rw [dayNumber_sunday, weekday, dayNumber_iterate_next]
  omega

/-- **A week** is known by its Sunday. -/
theorem sameWeek_iff {a b : Date} : SameWeek a b ↔ a.sunday = b.sunday := by
  constructor
  · rintro ⟨s, hs, ⟨i, hi, rfl⟩, j, hj, rfl⟩
    rw [sunday_iterate_next hs hi, sunday_iterate_next hs hj]
  · intro h
    exact ⟨a.sunday, a.weekday_sunday, ⟨_, a.weekday_lt, a.iterate_next_sunday.symm⟩,
      _, b.weekday_lt, h ▸ b.iterate_next_sunday.symm⟩

/-- The week begins on the day or before it. -/
theorem sunday_le (date : Date) : date.sunday ≤ date := by
  rw [← dayNumber_strictMono.le_iff_le, dayNumber_sunday]
  omega

/-- A later day has no earlier Sunday. -/
theorem sunday_mono : Monotone sunday := by
  intro a b h
  rw [← dayNumber_strictMono.le_iff_le] at h ⊢
  rw [dayNumber_sunday, dayNumber_sunday]
  unfold weekday
  omega

/-- The Sunday lies in the year of the day or in the one before. -/
theorem year_sunday (date : Date) :
    date.year - 1 ≤ date.sunday.year ∧ date.sunday.year ≤ date.year := by
  refine ⟨?_, ?_⟩
  · by_contra hlt
    have hearlier : yearStart (date.sunday.year + 1) ≤ yearStart (date.year - 1) :=
      yearStart_mono (by omega)
    have hyear := yearStart_succ (date.year - 1)
    have hlength := daysBefore_twelve (date.year - 1)
    have hend := date.sunday.dayNumber_le
    have hstart := date.yearStart_lt
    have hweekday := date.weekday_lt
    rw [Int.sub_add_cancel] at hyear
    rw [dayNumber_sunday] at hend
    split_ifs at hlength <;> omega
  · by_contra hlt
    exact absurd (lt_def.2 (.inl (not_le.1 hlt))) (not_lt.2 date.sunday_le)

end Date

end Calendar
