import Stead.Calendar.Gregorian

/-!
# Instants that are written as texts

The date time format of the language: a day as `YYYY`, `YYYY-MM` or `YYYY-MM-DD`, and after it,
where it is given, a `T` with the time of day as `hh:mm`, `hh:mm:ss` or `hh:mm:ss.sss` and an offset
from universal time, `Z` or `±hh:mm`. An instant is counted in milliseconds from the beginning of
1970 in universal time.

## What a text of the format stands for

Parts of a day that are left out are 1, and a day without a time is its midnight in universal time.
A time without an offset is a reading of a clock somewhere, and which instant that is depends on
where; the function from readings to instants is a parameter of `instant?`. Midnight may be written
as the end of a day, `24:00`.

## What the format leaves open

A text of another form may still be accepted by a program that reads dates, and then its meaning is
that program's own. One thing can be said about it from outside: a text that begins with a year, a
month and a day does not stand for an instant if the calendar has no such day (`NamesDay`). That
matters because programs count on from the end of the month: a thirtieth of February becomes a day
in March.
-/

namespace Calendar

/-- The milliseconds of a day. -/
def DAY : ℤ := 86400000

/-- The number of 1 January 1970. -/
def EPOCH_DAY : ℤ := 719163

/-- The day of a year with a month and a day of the month, if the calendar has it. -/
def Date.ofParts? (year month day : ℕ) : Option Date :=
  if h : (1 ≤ month ∧ month ≤ 12) ∧ 1 ≤ day ∧ day ≤ monthLength year month then
    some ⟨year, month, day, h.1, h.2⟩
  else none

/-! ### Reading from the front of a text -/

/-- A number of so many digits, and what follows it. -/
def digits? (width : ℕ) (text : List Char) : Option (ℕ × List Char) :=
  if width ≤ text.length ∧ (text.take width).all Char.isDigit then
    some (Nat.ofDigitChars 10 (text.take width) 0, text.drop width)
  else none

/-- A character and then a number of so many digits. -/
def after? (c : Char) (width : ℕ) : List Char → Option (ℕ × List Char)
  | d :: text => if d = c then digits? width text else none
  | [] => none

/-- The year, the month and the day at the front of a text. -/
def day? (text : List Char) : Option ((ℕ × ℕ × ℕ) × List Char) := do
  let (year, rest) ← digits? 4 text
  match after? '-' 2 rest with
  | none => some ((year, 1, 1), rest)
  | some (month, rest) =>
    match after? '-' 2 rest with
    | none => some ((year, month, 1), rest)
    | some (day, rest) => some ((year, month, day), rest)

/-- The time of day at the front of a text, in milliseconds. -/
def time? (text : List Char) : Option (ℤ × List Char) := do
  let (hour, rest) ← digits? 2 text
  let (minute, rest) ← after? ':' 2 rest
  let (second, millisecond, rest) :=
    match after? ':' 2 rest with
    | none => (0, 0, rest)
    | some (second, rest) =>
      match after? '.' 3 rest with
      | none => (second, 0, rest)
      | some (millisecond, rest) => (second, millisecond, rest)
  let time := 3600000 * hour + 60000 * minute + 1000 * second + millisecond
  if minute < 60 ∧ second < 60 ∧ (hour < 24 ∨ time = 86400000) then some (time, rest) else none

/-- The offset at the end of a text, in milliseconds. -/
def offset? : List Char → Option ℤ
  | ['Z'] => some 0
  | sign :: text => do
    let (hour, rest) ← digits? 2 text
    let (minute, rest) ← after? ':' 2 rest
    let offset : ℤ := 3600000 * hour + 60000 * minute
    if rest ≠ [] ∨ 24 ≤ hour ∨ 60 ≤ minute then none
    else if sign = '+' then some offset
    else if sign = '-' then some (-offset)
    else none
  | [] => none

/-! ### Texts of the format -/

/-- **The instant** that a text of the format stands for. A reading of a clock without an offset is
turned into an instant by `utc`. -/
def instant? (utc : ℤ → ℤ) (text : List Char) : Option ℤ := do
  let ((year, month, day), rest) ← day? text
  let date ← Date.ofParts? year month day
  let midnight := (date.dayNumber - EPOCH_DAY) * DAY
  match rest with
  | [] => some midnight
  | 'T' :: rest =>
    let (time, rest) ← time? rest
    if rest = [] then some (utc (midnight + time))
    else (offset? rest).map fun offset ↦ midnight + time - offset
  | _ => none

/-- A text that does not begin with a day which the calendar does not have. What begins with the
digits of a day but goes on with a digit or a dash is no day but a week or a number. -/
def NamesDay (text : List Char) : Prop :=
  ∀ year month day rest, day? text = some ((year, month, day), rest) →
    (rest.head?.all fun c ↦ !c.isDigit && c ≠ '-') = true →
      (Date.ofParts? year month day).isSome = true

instance (text : List Char) : Decidable (NamesDay text) :=
  decidable_of_iff ((day? text).all fun w ↦
      !(w.2.head?.all fun c ↦ !c.isDigit && c ≠ '-') ||
        (Date.ofParts? w.1.1 w.1.2.1 w.1.2.2).isSome) <| by
    unfold NamesDay
    cases day? text with
    | none => simp
    | some w =>
      obtain ⟨⟨year, month, day⟩, rest⟩ := w
      rw [Option.all_some, Bool.or_eq_true, Bool.not_eq_true', ← Bool.not_eq_true]
      constructor
      · rintro h _ _ _ _ ⟨⟩ hrest
        exact h.resolve_left (not_not_intro hrest)
      · exact fun h ↦ or_iff_not_imp_left.2 fun hrest ↦ h _ _ _ _ rfl (not_not.1 hrest)

/-- The texts that stand for an instant, as far as that can be said without the program that reads
them: one of the format stands for its instant alone, and no text for a day that is not. -/
def DenotesInstant (utc : ℤ → ℤ) (text : List Char) (t : ℤ) : Prop :=
  NamesDay text ∧ ∀ t', instant? utc text = some t' → t = t'

example : instant? id "2026-09-01T01:30:00.000+01:00".toList = some 1788222600000 := by decide

example : ¬ NamesDay "2026-02-30".toList := by decide

end Calendar
