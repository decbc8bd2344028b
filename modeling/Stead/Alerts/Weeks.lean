import Mathlib.Data.List.Lex
import Mathlib.Tactic.IntervalCases
import Stead.Alerts.Rules
import Stead.Calendar.Gregorian
import Stead.Import.Notation

/-!
# The weeks of the weekly summary

`weeklySchedule` takes the weekday off the day of the month and leaves it to `Date.UTC` to roll back
over the beginning of a month or a year. In terms of the calendar that is the Sunday with which the
week of the local date begins (`dateUTC_sunday`), so the key of a week is the ISO text of its Sunday
(`weeklySchedule_weeks`).

## Texts of days

The text of a key is ten characters: four digits of the year, two of the month, two of the day. For
years of four digits the order of the texts is the order of the days (`isoDate_lt`), since every
part has a fixed number of digits (`fixedDigits_lt`).

## What is assumed of `Intl`

What `Intl` says about an instant is taken to be right: a local date and an hour of a zone
(`Intl.Correct`). Nothing is assumed about the zone: its clock may skip hours or repeat them, and an
instant may have any local date.

The years are those of four digits whose Sundays are, too. Before the year 1000 the text would have
leading zeros that the source does not write the same way, and after 9999 more than four digits.
-/

namespace Stead

open Calendar

/-! ### Texts in order -/

/-- Texts of one length are compared before what follows them. -/
theorem append_lt_append {α : Type} [LT α] {s t : List α} (hlength : s.length = t.length)
    (h : s < t) (s' t' : List α) : s ++ s' < t ++ t' := by
  induction h with
  | nil => cases hlength
  | rel h => exact .rel h
  | cons h ih => exact .cons (ih (Nat.succ.inj hlength))

theorem digitChar_lt {n m : ℕ} (h : n < m) (hm : m < 10) : n.digitChar < m.digitChar := by
  show n.digitChar.toNat < m.digitChar.toNat
  rw [Nat.toNat_digitChar_of_lt_ten hm, Nat.toNat_digitChar_of_lt_ten (h.trans hm)]
  omega

/-- Numbers of one width are in the order of their texts. -/
theorem fixedDigits_lt {width n m : ℕ} (h : n < m) (hm : m < 10 ^ width) :
    fixedDigits width n < fixedDigits width m := by
  induction width generalizing n m with
  | zero => omega
  | succ width ih =>
    rw [Nat.pow_succ] at hm
    simp only [fixedDigits]
    rcases Nat.lt_or_ge (n / 10) (m / 10) with htens | htens
    · refine append_lt_append ?_ (ih htens (by omega)) _ _
      rw [length_fixedDigits, length_fixedDigits]
    · have heq : n / 10 = m / 10 := by omega
      rw [heq]
      exact List.append_left_lt (.rel (digitChar_lt (by omega) (by omega)))

/-- A day, as `YYYY-MM-DD`. -/
def isoDate (date : Date) : Text :=
  fixedDigits 4 date.year.toNat ++
    ('-' :: fixedDigits 2 date.month ++ ('-' :: fixedDigits 2 date.day))

/-- No month has more than 31 days. -/
theorem day_le (date : Date) : date.day ≤ 31 := by
  have hday := date.day_mem.2
  have hlength : monthLength date.year date.month ≤ 31 := by
    unfold monthLength
    split_ifs <;> omega
  omega

/-- **ISO texts** are in the order of their days. -/
theorem isoDate_lt {a b : Date} (ha : 0 ≤ a.year) (hb : b.year ≤ 9999) (h : a < b) :
    isoDate a < isoDate b := by
  have hmonth := b.month_mem.2
  have hday := day_le b
  unfold isoDate
  rcases Date.lt_def.1 h with hyear | ⟨hyear, hmonth' | ⟨hmonth', hday'⟩⟩
  · refine append_lt_append ?_ (fixedDigits_lt (by omega) (by omega)) _ _
    rw [length_fixedDigits, length_fixedDigits]
  · rw [hyear]
    refine List.append_left_lt (append_lt_append ?_
      (.cons (fixedDigits_lt hmonth' (by omega))) _ _)
    rw [List.length_cons, List.length_cons, length_fixedDigits, length_fixedDigits]
  · rw [hyear, hmonth']
    exact List.append_left_lt (List.append_left_lt (.cons (fixedDigits_lt hday' (by omega))))

/-- The text of a day determines it. -/
theorem isoDate_inj {a b : Date} (ha : 0 ≤ a.year ∧ a.year ≤ 9999)
    (hb : 0 ≤ b.year ∧ b.year ≤ 9999) (h : isoDate a = isoDate b) : a = b := by
  rcases lt_trichotomy a b with hlt | heq | hlt
  · exact absurd (h ▸ isoDate_lt ha.1 hb.2 hlt) (List.lt_irrefl _)
  · exact heq
  · exact absurd (h ▸ isoDate_lt hb.1 ha.2 hlt) (List.lt_irrefl _)

/-! ### The key -/

/-- 1 January 1970, counted from 1 January of the year 1. -/
def EPOCH_DAY : ℤ := 719163

/-- The year of an ISO text: four digits, or a sign and six. -/
def isoYear (year : ℤ) : Text :=
  if 0 ≤ year ∧ year ≤ 9999 then fixedDigits 4 year.toNat
  else (if 0 ≤ year then '+' else '-') :: fixedDigits 6 year.natAbs

/-- `toISOString()` of the first instant of a day that is counted from the epoch. -/
def toISOString (day : ℤ) : Text :=
  let date := Date.ofDayNumber (day + EPOCH_DAY)
  isoYear date.year ++ ('-' :: fixedDigits 2 date.month ++ ('-' :: fixedDigits 2 date.day)) ++
    "T00:00:00.000Z".toList

/-- `weekStart.toISOString().slice(0, 10)` -/
def WeeklySchedule.keyText (schedule : WeeklySchedule) : Text := (toISOString schedule.key).take 10

theorem dayFromYear_eq (year : ℤ) : dayFromYear year = yearStart year + 1 - EPOCH_DAY := by
  unfold dayFromYear yearStart EPOCH_DAY
  omega

theorem daysBeforeMonth_eq (year : ℤ) {month : ℕ} (h : 1 ≤ month ∧ month ≤ 12) :
    daysBeforeMonth year month = daysBefore year (month - 1) := by
  have hleap : (if year % 4 = 0 ∧ (year % 100 ≠ 0 ∨ year % 400 = 0) then 1 else 0 : ℤ) =
      if leap year then 1 else 0 := by
    simp [leap]
  obtain ⟨hlow, hhigh⟩ := h
  unfold daysBeforeMonth
  rw [hleap]
  cases hyear : leap year <;> interval_cases month <;>
    simp [daysBefore, monthLength, hyear]

/-- `Date.UTC` counts on from the day it is given, over the beginning of a month or a year. -/
theorem dateUTC_eq (date : Date) (back : ℤ) : dateUTC date.year date.month (date.day - back) =
    date.dayNumber - back - EPOCH_DAY := by
  rw [dateUTC, dayFromYear_eq, daysBeforeMonth_eq date.year date.month_mem, Date.dayNumber]
  omega

/-- **The week start** is the Sunday of the week. -/
theorem dateUTC_sunday (date : Date) :
    Date.ofDayNumber (dateUTC date.year date.month (date.day - date.weekday) + EPOCH_DAY) =
      date.sunday := by
  rw [dateUTC_eq, Int.sub_add_cancel, Date.sunday]

/-- The first ten characters of the text of an instant are those of its day. -/
theorem take_toISOString {day : ℤ} (hyear : 0 ≤ (Date.ofDayNumber (day + EPOCH_DAY)).year ∧
    (Date.ofDayNumber (day + EPOCH_DAY)).year ≤ 9999) :
    (toISOString day).take 10 = isoDate (Date.ofDayNumber (day + EPOCH_DAY)) := by
  rw [toISOString, isoYear, if_pos hyear]
  refine List.take_left' ?_
  simp [length_fixedDigits]

/-! ### The schedule -/

/-- The parts of a local date and hour. -/
def LocalTime.of (date : Date) (hour : ℕ) : LocalTime :=
  ⟨date.weekday, date.year, date.month, date.day, hour⟩

/-- `Intl` says which date and hour it is in a zone. -/
structure Intl.Correct (intl : Intl) (zone : String → ℤ → Option (Date × ℕ)) : Prop where
  formatToParts : ∀ timeZone now, intl.formatToParts timeZone now =
    (zone timeZone now).map fun time ↦ LocalTime.of time.1 time.2

/-- A schedule computed at some instant in some zone, with the local date and hour there. -/
structure Scheduled (intl : Intl) (zone : String → ℤ → Option (Date × ℕ))
    (scheduledDay scheduledHour : ℕ) (date : Date) (hour : ℕ) (schedule : WeeklySchedule) :
    Prop where
  computed : ∃ timeZone now, zone timeZone now = some (date, hour) ∧
    weeklySchedule intl now timeZone scheduledDay scheduledHour = some schedule
  year_mem : 1000 ≤ date.year ∧ date.year ≤ 9998

section Schedules

variable {intl : Intl} {zone : String → ℤ → Option (Date × ℕ)} {scheduledDay scheduledHour : ℕ}
  {date : Date} {hour : ℕ} {schedule : WeeklySchedule}

/-- The schedule in terms of the local time. -/
theorem weeklySchedule_eq (hintl : intl.Correct zone) (timeZone : String) (now : ℤ) :
    weeklySchedule intl now timeZone scheduledDay scheduledHour =
      (zone timeZone now).map fun time ↦
        { due := scheduledDay < time.1.weekday ||
            (time.1.weekday = scheduledDay && decide (scheduledHour ≤ time.2))
          key := dateUTC time.1.year time.1.month (time.1.day - time.1.weekday) } := by
  rw [weeklySchedule, hintl.formatToParts, Option.map_map]
  rfl

/-- What a schedule says is determined by the local time. -/
theorem Scheduled.eq (hintl : intl.Correct zone)
    (h : Scheduled intl zone scheduledDay scheduledHour date hour schedule) : schedule =
      { due := scheduledDay < date.weekday ||
          (date.weekday = scheduledDay && decide (scheduledHour ≤ hour))
        key := dateUTC date.year date.month (date.day - date.weekday) } := by
  obtain ⟨⟨timeZone, now, hzone, hschedule⟩, -⟩ := h
  rw [weeklySchedule_eq hintl, hzone] at hschedule
  exact (Option.some.inj hschedule).symm

/-- **The key** is the text of the Sunday. -/
theorem Scheduled.keyText_eq (hintl : intl.Correct zone)
    (h : Scheduled intl zone scheduledDay scheduledHour date hour schedule) :
    schedule.keyText = isoDate date.sunday := by
  have hyear := date.year_sunday
  have hmem := h.year_mem
  rw [WeeklySchedule.keyText, h.eq hintl, take_toISOString, dateUTC_sunday]
  rw [dateUTC_sunday]
  omega

/-- The Sunday of a scheduled week has a year of four digits as well. -/
theorem Scheduled.year_sunday (h : Scheduled intl zone scheduledDay scheduledHour date hour schedule) :
    0 ≤ date.sunday.year ∧ date.sunday.year ≤ 9999 := by
  have hyear := date.year_sunday
  have hmem := h.year_mem
  omega

/-- Once a week is due it stays due to its end. -/
theorem Scheduled.due_of_le (hintl : intl.Correct zone)
    (h : Scheduled intl zone scheduledDay scheduledHour date hour schedule) {date' : Date}
    {hour' : ℕ} {schedule' : WeeklySchedule}
    (h' : Scheduled intl zone scheduledDay scheduledHour date' hour' schedule')
    (hle : date.weekday < date'.weekday ∨ date.weekday = date'.weekday ∧ hour ≤ hour')
    (hdue : schedule.due = true) : schedule'.due = true := by
  rw [h.eq hintl] at hdue
  rw [h'.eq hintl]
  simp only [Bool.or_eq_true, Bool.and_eq_true, decide_eq_true_eq] at hdue ⊢
  omega

end Schedules

/-- **Calendar weeks.** Where `Intl` says the local date and hour of an instant: a schedule is
computed whenever the zone is known; its key is the text of the Sunday from which the local date is
less than seven days away; two schedules have one key exactly when their dates are in one week, and a
later date has no earlier key; and within a week a schedule that is due stays due. -/
theorem weeklySchedule_weeks {intl : Intl} {zone : String → ℤ → Option (Date × ℕ)}
    (hintl : intl.Correct zone) (scheduledDay scheduledHour : ℕ) :
    (∀ timeZone now, (weeklySchedule intl now timeZone scheduledDay scheduledHour).isSome =
      (zone timeZone now).isSome) ∧
    ∀ date hour schedule, Scheduled intl zone scheduledDay scheduledHour date hour schedule →
      (∃ sunday : Date, sunday.weekday = 0 ∧ (∃ i < 7, date = Date.next^[i] sunday) ∧
        schedule.keyText = isoDate sunday) ∧
      ∀ date' hour' schedule',
        Scheduled intl zone scheduledDay scheduledHour date' hour' schedule' →
          (schedule.keyText = schedule'.keyText ↔ date.SameWeek date') ∧
          (date ≤ date' → ¬ schedule'.keyText < schedule.keyText) ∧
          (date.SameWeek date' →
            date.weekday < date'.weekday ∨ date.weekday = date'.weekday ∧ hour ≤ hour' →
              schedule.due = true → schedule'.due = true) := by
  refine ⟨fun timeZone now ↦ ?_, fun date hour schedule h ↦ ⟨?_, fun date' hour' schedule' h' ↦ ?_⟩⟩
  · rw [weeklySchedule_eq hintl, Option.isSome_map]
  · exact ⟨date.sunday, date.weekday_sunday, ⟨_, date.weekday_lt, date.iterate_next_sunday.symm⟩,
      h.keyText_eq hintl⟩
  · rw [h.keyText_eq hintl, h'.keyText_eq hintl, Date.sameWeek_iff]
    refine ⟨⟨isoDate_inj h.year_sunday h'.year_sunday, congrArg isoDate⟩, fun hle hlt ↦ ?_,
      fun _ ↦ h.due_of_le hintl h'⟩
    rcases (Date.sunday_mono hle).lt_or_eq with hsunday | hsunday
    · exact List.lt_asymm hlt (isoDate_lt h.year_sunday.1 h'.year_sunday.2 hsunday)
    · rw [hsunday] at hlt
      exact List.lt_irrefl _ hlt

/-! ### A week with a leap day -/

namespace Demo

/-- Universal time is the one zone there is. -/
def utc (timeZone : String) (now : ℤ) : Option (Date × ℕ) :=
  if timeZone = "UTC" then
    some (Date.ofDayNumber (now / 86400000 + EPOCH_DAY), (now % 86400000 / 3600000).toNat)
  else none

/-- `Intl` where it knows nothing but UTC. -/
def utcIntl : Intl := ⟨fun timeZone now ↦ (utc timeZone now).map fun time ↦ .of time.1 time.2⟩

theorem utcIntl_correct : utcIntl.Correct utc := ⟨fun _ _ ↦ rfl⟩

/-- The first of March 2024. -/
def friday : Date := ⟨2024, 3, 1, by decide, by decide⟩

/-- The day after `friday`, the last of its week. -/
def saturday : Date := ⟨2024, 3, 2, by decide, by decide⟩

/-- The schedule of a week that is due on Friday at nine. -/
def leapWeek : WeeklySchedule := ⟨true, 19778⟩

/-- Both days of it have the schedule of `leapWeek`. -/
theorem leapWeek_scheduled : Scheduled utcIntl utc 5 9 friday 10 leapWeek ∧
    Scheduled utcIntl utc 5 9 saturday 0 leapWeek :=
  ⟨⟨⟨"UTC", 1709287200000, by decide +kernel, by decide +kernel⟩, by decide⟩,
    ⟨⟨"UTC", 1709337600000, by decide +kernel, by decide +kernel⟩, by decide⟩⟩

end Demo

open Demo

/-- The week of the first of March 2024 begins in February, before the leap day. -/
theorem weeklySchedule_weeks_leap_day : leapWeek.keyText = "2024-02-25".toList ∧
    (leapWeek.keyText = leapWeek.keyText ↔ friday.SameWeek saturday) ∧
    ∃ sunday : Date, sunday.weekday = 0 ∧ (∃ i < 7, friday = Date.next^[i] sunday) ∧
      leapWeek.keyText = isoDate sunday := by
  have hweeks := (weeklySchedule_weeks utcIntl_correct 5 9).2 friday 10 leapWeek
    leapWeek_scheduled.1
  exact ⟨by decide +kernel, (hweeks.2 saturday 0 leapWeek leapWeek_scheduled.2).1, hweeks.1⟩

end Stead
