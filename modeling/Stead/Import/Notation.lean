import Mathlib.Algebra.Group.Nat.Defs
import Mathlib.Data.List.Induction
import Stead.Import.Parser

/-!
# What cells mean

The dates, amounts and notes that a cell of a statement may hold, as they are written
(`DateForm`, `AmountForm`, `words`) and as what they stand for (`DenotesDate`, `DenotesAmount`). The
parsing functions compute just that: `parseDate_toIsoDate`, `parseAmountKobo_eq_some`,
`collapseSpaces_trim`.

## Digits

A number of a fixed number of digits is `fixedDigits`, which `digitsValue` reads back, and both are
inverse on texts of digits of that length. The functions of the source test texts of digits by
their lengths (`digits_iff`).

## Dates

Three forms: year, month, day with dashes, and day, month, year with slashes or with dashes. The
first has two digits for month and day, the others one or two. No text has two of the forms, since
the first begins with four digits and a dash.

## Amounts

Whole naira are digits, or groups of three digits after one to three; an amount may have one or two
digits of kobo after a point and a currency in front, and is positive.

## Notes

A note denotes its words, joined by single spaces. Nothing else in it counts, and a note that is
its own denotation is left alone (`normalizeNote_idem`).

In the other direction a date and an amount have a text that denotes them, for a cell of Stead's own
layout (`CalendarDate.iso`, `amountText`).
-/

namespace Stead

variable {text rest : Text} {c : Char}

/-! ### Decimal digits -/

section Digits

/-- The value of digits, in terms of the library. -/
theorem digitsValue_eq (text : Text) : digitsValue text = Nat.ofDigitChars 10 text 0 :=
  Nat.ofDigitChars_eq_foldl.symm

/-- The digits that follow count less. -/
theorem digitsValue_append (text rest : Text) :
    digitsValue (text ++ rest) = 10 ^ rest.length * digitsValue text + digitsValue rest := by
  simp only [digitsValue_eq]
  rw [Nat.ofDigitChars_append, Nat.ofDigitChars_eq_ofDigitChars_zero]

theorem digitsValue_zeros (n : ℕ) : digitsValue (List.replicate n '0') = 0 := by
  rw [digitsValue_eq, Nat.ofDigitChars_replicate_zero, Nat.mul_zero]

theorem digitsValue_padTwo (text : Text) : digitsValue (padTwo text) = digitsValue text := by
  rw [padTwo, digitsValue_append, digitsValue_zeros, Nat.mul_zero, Nat.zero_add]

theorem digitsValue_padEndTwo (text : Text) :
    digitsValue (padEndTwo text) = digitsValue text * 10 ^ (2 - text.length) := by
  rw [padEndTwo, digitsValue_append, digitsValue_zeros, List.length_replicate, Nat.add_zero,
    Nat.mul_comm]

/-- A text of digits, of a length in the range. -/
theorem digits_iff {lo hi : ℕ} : digits lo hi text = true ↔
    (∀ c ∈ text, c.isDigit = true) ∧ lo ≤ text.length ∧ text.length ≤ hi := by
  simp only [digits, Bool.and_eq_true, List.all_eq_true, decide_eq_true_eq, and_assoc]

theorem digit_value (hc : c.isDigit = true) : c.toNat - 48 < 10 ∧ (c.toNat - 48).digitChar = c := by
  obtain ⟨hlow, hhigh⟩ := Char.isDigit_iff_toNat.1 hc
  have hzero : '0'.toNat = 48 := rfl
  have hnine : '9'.toNat = 57 := rfl
  have hlt : c.toNat - 48 < 10 := by omega
  refine ⟨hlt, Char.toNat_inj.1 ?_⟩
  rw [Nat.toNat_digitChar_of_lt_ten hlt]
  omega

/-- A number in as many digits as are asked for. -/
def fixedDigits : ℕ → ℕ → Text
  | 0, _ => []
  | width + 1, n => fixedDigits width (n / 10) ++ [(n % 10).digitChar]

@[simp] theorem length_fixedDigits (width n : ℕ) : (fixedDigits width n).length = width := by
  induction width generalizing n with
  | zero => rfl
  | succ width ih => rw [fixedDigits, List.length_append, ih, List.length_singleton]

theorem isDigit_of_mem_fixedDigits {width n : ℕ} (h : c ∈ fixedDigits width n) :
    c.isDigit = true := by
  induction width generalizing n with
  | zero => cases h
  | succ width ih =>
    rcases List.mem_append.1 h with h | h
    · exact ih h
    · rw [List.mem_singleton.1 h, Nat.isDigit_digitChar]
      exact decide_eq_true (Nat.mod_lt n (by decide))

theorem digits_fixedDigits (width n : ℕ) : digits width width (fixedDigits width n) = true :=
  digits_iff.2 ⟨fun _ ↦ isDigit_of_mem_fixedDigits, (length_fixedDigits width n).ge,
    (length_fixedDigits width n).le⟩

theorem digitsValue_singleton {n : ℕ} (h : n < 10) : digitsValue [n.digitChar] = n := by
  rw [digitsValue, List.foldl_cons, List.foldl_nil, Nat.toNat_digitChar_sub_48_of_lt_ten h,
    Nat.mul_zero, Nat.zero_add]

/-- A number that has room is read back. -/
theorem digitsValue_fixedDigits {width n : ℕ} (h : n < 10 ^ width) :
    digitsValue (fixedDigits width n) = n := by
  induction width generalizing n with
  | zero =>
    rw [Nat.pow_zero, Nat.lt_one_iff] at h
    exact h.symm
  | succ width ih =>
    have hdiv : n / 10 < 10 ^ width := by
      rw [Nat.div_lt_iff_lt_mul (by decide)]
      rwa [Nat.pow_succ] at h
    rw [fixedDigits, digitsValue_append, ih hdiv, digitsValue_singleton (Nat.mod_lt n (by decide)),
      List.length_singleton, Nat.pow_one, Nat.div_add_mod]

/-- Digits are determined by their number and their value. -/
theorem fixedDigits_digitsValue (h : ∀ c ∈ text, c.isDigit = true) :
    fixedDigits text.length (digitsValue text) = text := by
  induction text using List.reverseRecOn with
  | nil => rfl
  | append_singleton text c ih =>
    obtain ⟨hlt, hchar⟩ := digit_value (h c (List.mem_append_right _ (List.mem_singleton_self c)))
    have hvalue : digitsValue (text ++ [c]) = 10 * digitsValue text + (c.toNat - 48) := by
      rw [digitsValue, List.foldl_append]
      rfl
    have hdiv : digitsValue (text ++ [c]) / 10 = digitsValue text := by omega
    have hmod : digitsValue (text ++ [c]) % 10 = c.toNat - 48 := by omega
    rw [List.length_append, List.length_singleton, fixedDigits, hdiv, hmod, hchar,
      ih fun d hd ↦ h d (List.mem_append_left _ hd)]

/-- Digits have room for their value. -/
theorem digitsValue_lt (h : ∀ c ∈ text, c.isDigit = true) :
    digitsValue text < 10 ^ text.length := by
  induction text using List.reverseRecOn with
  | nil => decide
  | append_singleton text c ih =>
    obtain ⟨hlt, hchar⟩ := digit_value (h c (List.mem_append_right _ (List.mem_singleton_self c)))
    have hsmall := ih fun d hd ↦ h d (List.mem_append_left _ hd)
    rw [digitsValue_append, ← hchar, digitsValue_singleton hlt, List.length_append,
      List.length_singleton, Nat.pow_succ]
    omega

/-- A part of a date, in two digits. -/
theorem padTwo_eq (h : digits 1 2 text = true) :
    padTwo text = fixedDigits 2 (digitsValue text) := by
  obtain ⟨hdigits, -, hlength⟩ := digits_iff.1 h
  have hpadded : ∀ c ∈ padTwo text, c.isDigit = true := by
    intro c hc
    rcases List.mem_append.1 hc with hc | hc
    · rw [List.eq_of_mem_replicate hc]
      rfl
    · exact hdigits c hc
  have htwo : (padTwo text).length = 2 := by
    rw [padTwo, List.length_append, List.length_replicate]
    omega
  rw [← digitsValue_padTwo text, ← htwo, fixedDigits_digitsValue hpadded]

end Digits

/-! ### White space -/

section Spaces

/-- A digit is no white space. -/
theorem isTrimmed_of_isDigit (hc : c.isDigit = true) : isTrimmed c = false := by
  obtain ⟨hlow, hhigh⟩ := Char.isDigit_iff_toNat.1 hc
  have hzero : '0'.toNat = 48 := rfl
  have hnine : '9'.toNat = 57 := rfl
  rw [hzero] at hlow
  rw [hnine] at hhigh
  rw [Bool.eq_false_iff]
  intro h
  simp only [isTrimmed, Bool.or_eq_true, Bool.and_eq_true, decide_eq_true_eq, List.mem_cons,
    List.not_mem_nil, or_false] at h
  omega

/-- Without white space at its ends. -/
def Trimmed (text : Text) : Prop :=
  (∀ c ∈ text.head?, isTrimmed c = false) ∧ ∀ c ∈ text.getLast?, isTrimmed c = false

/-- What is left begins without white space. -/
theorem head_of_dropWhile {c : Char} (h : c ∈ (text.dropWhile isTrimmed).head?) :
    isTrimmed c = false := by
  have hnot := List.head?_dropWhile_not isTrimmed text
  rw [Option.mem_def.1 h] at hnot
  simpa using hnot

/-- What is removed at the end is white space. -/
theorem dropWhile_eq_trim_append (text : Text) :
    ∃ spaces : Text, (∀ c ∈ spaces, isTrimmed c = true) ∧
      text.dropWhile isTrimmed = trim text ++ spaces := by
  set back := (text.dropWhile isTrimmed).reverse with hback
  refine ⟨(back.takeWhile isTrimmed).reverse, fun c hc ↦ ?_, ?_⟩
  · exact List.mem_takeWhile_imp (List.mem_reverse.1 hc)
  · rw [trim, ← hback, ← List.reverse_append, List.takeWhile_append_dropWhile, hback,
      List.reverse_reverse]

theorem trimmed_trim (text : Text) : Trimmed (trim text) := by
  have hlast : ∀ c ∈ (trim text).getLast?, isTrimmed c = false := by
    intro c hc
    rw [trim, List.getLast?_reverse] at hc
    exact head_of_dropWhile hc
  refine ⟨fun c hc ↦ ?_, hlast⟩
  obtain ⟨spaces, -, hspaces⟩ := dropWhile_eq_trim_append text
  have hfirst : c ∈ (text.dropWhile isTrimmed).head? := by
    rw [hspaces]
    cases htrim : trim text with
    | nil =>
      rw [htrim] at hc
      cases hc
    | cons d rest =>
      rw [htrim] at hc
      exact hc
  exact head_of_dropWhile hfirst

theorem trim_of_trimmed (h : Trimmed text) : trim text = text := by
  cases text with
  | nil => rfl
  | cons c rest =>
    have hc : isTrimmed c = false := h.1 c rfl
    have hdrop : (c :: rest).dropWhile isTrimmed = c :: rest := by
      rw [List.dropWhile_cons_of_neg (by rw [hc]; exact Bool.false_ne_true)]
    rw [trim, hdrop]
    cases hlast : (c :: rest).reverse with
    | nil => exact absurd hlast (by simp)
    | cons d back =>
      have hd : isTrimmed d = false := h.2 d (by
        rw [Option.mem_def, ← List.head?_reverse, hlast]
        rfl)
      rw [List.dropWhile_cons_of_neg (by rw [hd]; exact Bool.false_ne_true), ← hlast,
        List.reverse_reverse]

theorem trim_trim (text : Text) : trim (trim text) = trim text :=
  trim_of_trimmed (trimmed_trim text)

/-- A text without white space has none at its ends. -/
theorem trimmed_of_forall (h : ∀ c ∈ text, isTrimmed c = false) : Trimmed text :=
  ⟨fun c hc ↦ h c (List.mem_of_mem_head? hc), fun c hc ↦ h c (List.mem_of_mem_getLast? hc)⟩

end Spaces

/-! ### Dates -/

/-- A day of the calendar, in a year of four digits. -/
structure CalendarDate where
  year : ℕ
  month : ℕ
  day : ℕ
  year_lt : year < 10000
  month_mem : 1 ≤ month ∧ month ≤ 12
  day_mem : 1 ≤ day ∧ day ≤ daysInMonth year month

namespace CalendarDate

/-- The text of a date, as Stead writes it. -/
def iso (date : CalendarDate) : Text :=
  fixedDigits 4 date.year ++ '-' :: fixedDigits 2 date.month ++ '-' :: fixedDigits 2 date.day

/-- Noon of the day, in universal time. -/
def noon (date : CalendarDate) : Text := date.iso ++ "T12:00:00.000Z".toList

end CalendarDate

/-- The forms in which a date may be written, with the year, the month and the day. -/
inductive DateForm : Text → Text → Text → Text → Prop
  | iso {year month day : Text} (hyear : digits 4 4 year = true) (hmonth : digits 2 2 month = true)
      (hday : digits 2 2 day = true) :
      DateForm (year ++ '-' :: month ++ '-' :: day) year month day
  | slash {year month day : Text} (hyear : digits 4 4 year = true)
      (hmonth : digits 1 2 month = true) (hday : digits 1 2 day = true) :
      DateForm (day ++ '/' :: month ++ '/' :: year) year month day
  | dash {year month day : Text} (hyear : digits 4 4 year = true)
      (hmonth : digits 1 2 month = true) (hday : digits 1 2 day = true) :
      DateForm (day ++ '-' :: month ++ '-' :: year) year month day

/-- What is written in the cell is the date. -/
def DenotesDate (cell : Text) (date : CalendarDate) : Prop :=
  ∃ year month day, DateForm (trim cell) year month day ∧ digitsValue year = date.year ∧
    digitsValue month = date.month ∧ digitsValue day = date.day

section Dates

variable {separator : Char} {value year month day written : Text}

theorem isDigit_dash : '-'.isDigit = false := rfl

theorem isDigit_slash : '/'.isDigit = false := rfl

/-- The characters of a joined text. -/
theorem mem_joined {x y z : Text} (hx : ∀ c ∈ x, c.isDigit = true) (hy : ∀ c ∈ y, c.isDigit = true)
    (hz : ∀ c ∈ z, c.isDigit = true) (h : c ∈ x ++ separator :: y ++ separator :: z) :
    c = separator ∨ c.isDigit = true := by
  simp only [List.append_assoc, List.mem_append, List.cons_append, List.mem_cons] at h
  rcases h with h | h | h | h | h
  · exact .inr (hx c h)
  · exact .inl h
  · exact .inr (hy c h)
  · exact .inl h
  · exact .inr (hz c h)

theorem splitOn_joined (hseparator : separator.isDigit = false) {x y z : Text}
    (hx : ∀ c ∈ x, c.isDigit = true) (hy : ∀ c ∈ y, c.isDigit = true)
    (hz : ∀ c ∈ z, c.isDigit = true) :
    (x ++ separator :: y ++ separator :: z).splitOn separator = [x, y, z] := by
  have hnot : ∀ {t : Text}, (∀ c ∈ t, c.isDigit = true) → separator ∉ t := fun ht hmem ↦ by
    rw [ht separator hmem] at hseparator
    cases hseparator
  have hjoined : x ++ separator :: y ++ separator :: z = [separator].intercalate [x, y, z] := by
    simp
  rw [hjoined, List.splitOn_intercalate separator _ (List.cons_ne_nil _ _)]
  simp only [List.mem_cons, List.not_mem_nil, or_false, forall_eq_or_imp, forall_eq]
  exact ⟨hnot hx, hnot hy, hnot hz⟩

theorem joined_of_splitOn {x y z : Text} (h : text.splitOn separator = [x, y, z]) :
    text = x ++ separator :: y ++ separator :: z := by
  have hjoin : [separator].intercalate (text.splitOn separator) = text :=
    List.intercalate_splitOn separator
  rw [← hjoin, h]
  simp

theorem isoParts_eq_some : isoParts text = some (year, month, day) ↔
    text = year ++ '-' :: month ++ '-' :: day ∧ digits 4 4 year = true ∧
      digits 2 2 month = true ∧ digits 2 2 day = true := by
  constructor
  · intro h
    unfold isoParts at h
    split at h
    · next hsplit =>
      split at h
      · next hdigits =>
        cases h
        simp only [Bool.and_eq_true, and_assoc] at hdigits
        exact ⟨joined_of_splitOn hsplit, hdigits⟩
      · cases h
    · cases h
  · rintro ⟨rfl, hyear, hmonth, hday⟩
    have hsplit := splitOn_joined isDigit_dash (digits_iff.1 hyear).1
      (digits_iff.1 hmonth).1 (digits_iff.1 hday).1
    simp only [isoParts, hsplit, hyear, hmonth, hday, Bool.and_self, if_true]

theorem dayFirst_eq_some (hseparator : separator.isDigit = false) :
    dayFirst separator text = some written ↔
      ∃ year month day, text = day ++ separator :: month ++ separator :: year ∧
        digits 4 4 year = true ∧ digits 1 2 month = true ∧ digits 1 2 day = true ∧
          written = year ++ '-' :: padTwo month ++ '-' :: padTwo day := by
  constructor
  · intro h
    unfold dayFirst at h
    split at h
    · next day month year hsplit =>
      split at h
      · next hdigits =>
        cases h
        simp only [Bool.and_eq_true] at hdigits
        exact ⟨year, month, day, joined_of_splitOn hsplit, hdigits.2, hdigits.1.2, hdigits.1.1, rfl⟩
      · cases h
    · cases h
  · rintro ⟨year, month, day, rfl, hyear, hmonth, hday, rfl⟩
    have hsplit := splitOn_joined hseparator (digits_iff.1 hday).1 (digits_iff.1 hmonth).1
      (digits_iff.1 hyear).1
    simp only [dayFirst, hsplit, hyear, hmonth, hday, Bool.and_self, if_true]

/-- Two digits need no padding. -/
theorem padTwo_of_two (h : digits 2 2 text = true) : padTwo text = text := by
  obtain ⟨-, hlow, -⟩ := digits_iff.1 h
  rw [padTwo, Nat.sub_eq_zero_of_le hlow]
  rfl

theorem digits_one_two (h : digits 2 2 text = true) : digits 1 2 text = true := by
  obtain ⟨hdigits, hlow, hhigh⟩ := digits_iff.1 h
  exact digits_iff.2 ⟨hdigits, hlow.trans' (by decide), hhigh⟩

theorem digits_padTwo (h : digits 1 2 text = true) : digits 2 2 (padTwo text) = true := by
  rw [padTwo_eq h]
  exact digits_fixedDigits 2 _

/-- The parts of a form are digits. -/
theorem DateForm.digits (h : DateForm text year month day) :
    digits 4 4 year = true ∧ digits 1 2 month = true ∧ digits 1 2 day = true := by
  cases h with
  | iso hyear hmonth hday => exact ⟨hyear, digits_one_two hmonth, digits_one_two hday⟩
  | slash hyear hmonth hday => exact ⟨hyear, hmonth, hday⟩
  | dash hyear hmonth hday => exact ⟨hyear, hmonth, hday⟩

/-- Without a slash there is no form with slashes. -/
theorem dayFirst_slash_eq_none (h : '/' ∉ text) : dayFirst '/' text = none := by
  cases hsome : dayFirst '/' text with
  | none => rfl
  | some written =>
    obtain ⟨y, m, d, rfl, -⟩ := (dayFirst_eq_some (by decide)).1 hsome
    exact absurd (by simp) h

/-- **The forms of a date** are rewritten to the first one. -/
theorem toIsoDate_of_form (h : DateForm (trim value) year month day) :
    toIsoDate value = year ++ '-' :: padTwo month ++ '-' :: padTwo day := by
  unfold toIsoDate
  dsimp only
  generalize trim value = text at h ⊢
  have hnotIso : ∀ {text : Text}, isoParts text = none → (isoParts text).isSome ≠ true := by
    intro text hnone
    rw [hnone]
    exact Bool.false_ne_true
  cases h with
  | iso hyear hmonth hday =>
    have hiso := isoParts_eq_some.2 ⟨rfl, hyear, hmonth, hday⟩
    rw [hiso, Option.isSome_some, if_pos rfl, padTwo_of_two hmonth, padTwo_of_two hday]
  | slash hyear hmonth hday =>
    have hiso : isoParts (day ++ '/' :: month ++ '/' :: year) = none := by
      cases hsome : isoParts (day ++ '/' :: month ++ '/' :: year) with
      | none => rfl
      | some parts =>
        obtain ⟨heq, hy, hm, hd⟩ := isoParts_eq_some.1 hsome
        have hmem : '/' ∈ day ++ '/' :: month ++ '/' :: year := by simp
        rw [heq] at hmem
        rcases mem_joined (digits_iff.1 hy).1 (digits_iff.1 hm).1 (digits_iff.1 hd).1 hmem
          with h | h
        · exact absurd h (by decide)
        · exact absurd h (by decide)
    have hslash := (dayFirst_eq_some isDigit_slash).2
      ⟨year, month, day, rfl, hyear, hmonth, hday, rfl⟩
    rw [if_neg (hnotIso hiso), hslash]
    rfl
  | dash hyear hmonth hday =>
    have hsplit := splitOn_joined isDigit_dash (digits_iff.1 hday).1
      (digits_iff.1 hmonth).1 (digits_iff.1 hyear).1
    -- The first part of the ISO form has four digits.
    have hiso : isoParts (day ++ '-' :: month ++ '-' :: year) = none := by
      have hday' : digits 4 4 day = false := by
        rw [Bool.eq_false_iff]
        intro hfour
        have hlow := (digits_iff.1 hfour).2.1
        have hhigh := (digits_iff.1 hday).2.2
        omega
      simp only [isoParts, hsplit, hday', Bool.false_and, Bool.false_eq_true, if_false]
    have hslash : dayFirst '/' (day ++ '-' :: month ++ '-' :: year) = none := by
      refine dayFirst_slash_eq_none fun hmem ↦ ?_
      rcases mem_joined (digits_iff.1 hday).1 (digits_iff.1 hmonth).1 (digits_iff.1 hyear).1 hmem
        with h | h
      · exact absurd h (by decide)
      · exact absurd h (by decide)
    have hdash := (dayFirst_eq_some isDigit_dash).2
      ⟨year, month, day, rfl, hyear, hmonth, hday, rfl⟩
    rw [if_neg (hnotIso hiso), hslash, hdash]
    rfl

/-- What is rewritten to the ISO form was written in one of the forms. -/
theorem form_of_isoParts {month' day' : Text}
    (h : isoParts (toIsoDate value) = some (year, month', day')) :
    ∃ month day, DateForm (trim value) year month day ∧ month' = padTwo month ∧
      day' = padTwo day := by
  have hrewritten : ∀ {separator : Char} {text written : Text}, separator.isDigit = false →
      dayFirst separator text = some written → isoParts written = some (year, month', day') →
        ∃ month day, text = day ++ separator :: month ++ separator :: year ∧
          (digits 4 4 year = true ∧ digits 1 2 month = true ∧ digits 1 2 day = true) ∧
            month' = padTwo month ∧ day' = padTwo day := by
    intro separator text written hseparator hsome hparts
    obtain ⟨y, m, d, rfl, hy, hm, hd, rfl⟩ := (dayFirst_eq_some hseparator).1 hsome
    have hiso := isoParts_eq_some.2 ⟨rfl, hy, digits_padTwo hm, digits_padTwo hd⟩
    cases hparts.symm.trans hiso
    exact ⟨m, d, rfl, ⟨hy, hm, hd⟩, rfl, rfl⟩
  unfold toIsoDate at h
  dsimp only at h
  generalize trim value = text at h ⊢
  split at h
  · obtain ⟨rfl, hyear, hmonth, hday⟩ := isoParts_eq_some.1 h
    exact ⟨month', day', .iso hyear hmonth hday, (padTwo_of_two hmonth).symm,
      (padTwo_of_two hday).symm⟩
  · next hiso =>
    cases hslash : dayFirst '/' text with
    | some written =>
      rw [hslash] at h
      obtain ⟨m, d, rfl, ⟨hy, hm, hd⟩, hm', hd'⟩ := hrewritten (by decide) hslash h
      exact ⟨m, d, .slash hy hm hd, hm', hd'⟩
    | none =>
      rw [hslash] at h
      cases hdash : dayFirst '-' text with
      | some written =>
        rw [hdash] at h
        obtain ⟨m, d, rfl, ⟨hy, hm, hd⟩, hm', hd'⟩ := hrewritten (by decide) hdash h
        exact ⟨m, d, .dash hy hm hd, hm', hd'⟩
      | none =>
        rw [hdash] at h
        exact absurd (by rw [show isoParts text = _ from h]; rfl) hiso

theorem trim_joined {x y z : Text} (hx : ∀ c ∈ x, c.isDigit = true)
    (hy : ∀ c ∈ y, c.isDigit = true) (hz : ∀ c ∈ z, c.isDigit = true) :
    trim (x ++ '-' :: y ++ '-' :: z) = x ++ '-' :: y ++ '-' :: z := by
  refine trim_of_trimmed (trimmed_of_forall fun c hc ↦ ?_)
  rcases mem_joined hx hy hz hc with rfl | hdigit
  · decide
  · exact isTrimmed_of_isDigit hdigit

theorem trim_toIsoDate (value : Text) : trim (toIsoDate value) = toIsoDate value := by
  have hwritten : ∀ {separator : Char} {text written : Text}, separator.isDigit = false →
      dayFirst separator text = some written → trim written = written := by
    intro separator text written hseparator hsome
    obtain ⟨y, m, d, -, hy, hm, hd, rfl⟩ := (dayFirst_eq_some hseparator).1 hsome
    exact trim_joined (digits_iff.1 hy).1 (digits_iff.1 (digits_padTwo hm)).1
      (digits_iff.1 (digits_padTwo hd)).1
  unfold toIsoDate
  dsimp only
  split
  · exact trim_trim value
  · cases hslash : dayFirst '/' (trim value) with
    | some written => exact hwritten (by decide) hslash
    | none =>
      cases hdash : dayFirst '-' (trim value) with
      | some written => exact hwritten (by decide) hdash
      | none => exact trim_trim value

/-- The text of a date is determined by its numbers. -/
theorem DateForm.iso_eq (h : DateForm text year month day) {date : CalendarDate}
    (hyear : digitsValue year = date.year) (hmonth : digitsValue month = date.month)
    (hday : digitsValue day = date.day) :
    year ++ '-' :: padTwo month ++ '-' :: padTwo day = date.iso := by
  obtain ⟨hy, hm, hd⟩ := h.digits
  obtain ⟨hdigits, hlow, hhigh⟩ := digits_iff.1 hy
  have hyear' : year = fixedDigits 4 (digitsValue year) := by
    conv_lhs => rw [← fixedDigits_digitsValue hdigits, le_antisymm hhigh hlow]
  rw [padTwo_eq hm, padTwo_eq hd, hyear', CalendarDate.iso, ← hyear, ← hmonth, ← hday]

/-- **A date is read** as what it denotes, whatever its form. -/
theorem parseDate_toIsoDate :
    parseDate (toIsoDate value) = some written ↔
      ∃ date, DenotesDate value date ∧ written = CalendarDate.noon date := by
  constructor
  · intro h
    unfold parseDate at h
    split at h
    · cases h
    · next year month' day' hparts =>
      split at h
      · next hvalid =>
        rw [trim_toIsoDate] at hparts h
        obtain ⟨month, day, hform, rfl, rfl⟩ := form_of_isoParts hparts
        rw [digitsValue_padTwo, digitsValue_padTwo] at hvalid
        obtain ⟨hdigits, -, hlength⟩ := digits_iff.1 hform.digits.1
        have hlt : digitsValue year < 10000 := (digitsValue_lt hdigits).trans_le
          (Nat.pow_le_pow_right (by decide) hlength)
        let date : CalendarDate := ⟨digitsValue year, digitsValue month, digitsValue day, hlt,
          ⟨hvalid.1, hvalid.2.1⟩, hvalid.2.2⟩
        refine ⟨date, ⟨year, month, day, hform, rfl, rfl, rfl⟩, ?_⟩
        have hsame : year ++ '-' :: padTwo month ++ '-' :: padTwo day = date.iso :=
          hform.iso_eq rfl rfl rfl
        rw [← Option.some.inj h, toIsoDate_of_form hform, hsame]
        rfl
      · cases h
  · rintro ⟨date, ⟨year, month, day, hform, hyear, hmonth, hday⟩, rfl⟩
    obtain ⟨hy, hm, hd⟩ := hform.digits
    have hiso := toIsoDate_of_form hform
    have hparts := isoParts_eq_some.2 ⟨rfl, hy, digits_padTwo hm, digits_padTwo hd⟩
    have htrim := trim_joined (digits_iff.1 hy).1 (digits_iff.1 (digits_padTwo hm)).1
      (digits_iff.1 (digits_padTwo hd)).1
    rw [hiso, parseDate, htrim, hparts]
    dsimp only
    rw [digitsValue_padTwo, digitsValue_padTwo, hyear, hmonth, hday,
      if_pos ⟨date.month_mem.1, date.month_mem.2, date.day_mem⟩, hform.iso_eq hyear hmonth hday]
    rfl

/-- A date is written in the first form. -/
theorem denotesDate_iso (date : CalendarDate) : DenotesDate date.iso date := by
  have hform : DateForm date.iso (fixedDigits 4 date.year) (fixedDigits 2 date.month)
      (fixedDigits 2 date.day) :=
    .iso (digits_fixedDigits 4 _) (digits_fixedDigits 2 _) (digits_fixedDigits 2 _)
  have htrim : trim date.iso = date.iso := trim_joined (digits_iff.1 (digits_fixedDigits 4 _)).1
    (digits_iff.1 (digits_fixedDigits 2 _)).1 (digits_iff.1 (digits_fixedDigits 2 _)).1
  have hmonth : date.month < 10 ^ 2 := date.month_mem.2.trans_lt (by decide)
  have hday : date.day < 10 ^ 2 := by
    refine (date.day_mem.2.trans ?_).trans_lt (by decide : 31 < 10 ^ 2)
    unfold daysInMonth
    split_ifs <;> decide
  exact ⟨_, _, _, htrim ▸ hform, digitsValue_fixedDigits date.year_lt,
    digitsValue_fixedDigits hmonth, digitsValue_fixedDigits hday⟩

end Dates

/-! ### Amounts -/

/-- Whole naira as they are written, plain or in groups of thousands, and their digits. -/
inductive WholeNaira : Text → Text → Prop
  | plain {naira : Text} (hne : naira ≠ []) (h : ∀ c ∈ naira, c.isDigit = true) :
      WholeNaira naira naira
  | grouped {group : Text} {groups : List Text} (hgroup : digits 1 3 group = true)
      (hne : groups ≠ []) (h : ∀ group ∈ groups, digits 3 3 group = true) :
      WholeNaira ([','].intercalate (group :: groups)) (group ++ groups.flatten)

/-- An amount as it is written, with at most two decimal places, and its value in kobo. -/
inductive AmountForm : Text → ℕ → Prop
  | whole {written naira : Text} (h : WholeNaira written naira) :
      AmountForm written (digitsValue naira * 100)
  | kobo {written naira fraction : Text} (h : WholeNaira written naira)
      (hfraction : digits 1 2 fraction = true) :
      AmountForm (written ++ '.' :: fraction)
        (digitsValue naira * 100 + digitsValue fraction * 10 ^ (2 - fraction.length))

/-- A currency before an amount. -/
inductive CurrencyPrefix : Text → Prop
  | ngn {currency : Text} (h : currency.map Char.toLower = "ngn".toList) : CurrencyPrefix currency
  | naira : CurrencyPrefix ['₦']

/-- What is written in the cell is the amount, with or without a currency. -/
def DenotesAmount (cell : Text) (amountKobo : ℕ) : Prop :=
  ∃ written, AmountForm written amountKobo ∧
    (trim cell = written ∨ ∃ currency spaces, CurrencyPrefix currency ∧
      (∀ c ∈ spaces, isTrimmed c = true) ∧ trim cell = currency ++ (spaces ++ written))

/-- The cell is not blank once a currency is removed. -/
def Filled (cell : Text) : Prop := nonblank (stripCurrency (trim cell)) = true

section Amounts

variable {value written naira : Text} {amountKobo : ℕ}

theorem WholeNaira.head (h : WholeNaira written naira) :
    ∃ c rest, written = c :: rest ∧ c.isDigit = true := by
  cases h with
  | plain hne h =>
    obtain ⟨c, rest, rfl⟩ := List.exists_cons_of_ne_nil hne
    exact ⟨c, rest, rfl, h c (List.mem_cons_self ..)⟩
  | @grouped group groups hgroup hne h =>
    obtain ⟨hdigits, hlow, -⟩ := digits_iff.1 hgroup
    obtain ⟨c, rest, rfl⟩ := List.exists_cons_of_length_pos hlow
    obtain ⟨group', groups', rfl⟩ := List.exists_cons_of_ne_nil hne
    rw [List.intercalate_cons_cons]
    exact ⟨c, _, rfl, hdigits c (List.mem_cons_self ..)⟩

/-- An amount begins with a digit. -/
theorem AmountForm.head (h : AmountForm written amountKobo) :
    ∃ c rest, written = c :: rest ∧ c.isDigit = true := by
  cases h with
  | whole h => exact h.head
  | kobo h _ =>
    obtain ⟨c, rest, rfl, hc⟩ := h.head
    exact ⟨c, _, rfl, hc⟩

/-- The characters of joined parts. -/
theorem mem_intercalate {separator c : Char} {parts : List Text}
    (h : c ∈ [separator].intercalate parts) : c = separator ∨ ∃ part ∈ parts, c ∈ part := by
  induction parts with
  | nil => cases h
  | cons part parts ih =>
    cases parts with
    | nil =>
      rw [List.intercalate_singleton] at h
      exact .inr ⟨part, List.mem_cons_self .., h⟩
    | cons part' parts =>
      rw [List.intercalate_cons_cons] at h
      simp only [List.mem_append, List.mem_singleton] at h
      rcases h with (h | h) | h
      · exact .inr ⟨part, List.mem_cons_self .., h⟩
      · exact .inl h
      · exact (ih h).imp id fun ⟨p, hp, hc⟩ ↦ ⟨p, List.mem_cons_of_mem _ hp, hc⟩

theorem WholeNaira.mem (h : WholeNaira written naira) {c : Char} (hc : c ∈ written) :
    c = ',' ∨ c.isDigit = true := by
  cases h with
  | plain _ h => exact .inr (h c hc)
  | grouped hgroup _ h =>
    refine (mem_intercalate hc).imp id fun ⟨part, hpart, hcpart⟩ ↦ ?_
    rcases List.mem_cons.1 hpart with rfl | hpart
    · exact (digits_iff.1 hgroup).1 c hcpart
    · exact (digits_iff.1 (h part hpart)).1 c hcpart

theorem filter_comma_of_digits {text : Text} (h : ∀ c ∈ text, c.isDigit = true) :
    text.filter (· ≠ ',') = text := by
  refine List.filter_eq_self.2 fun c hc ↦ decide_eq_true fun he ↦ ?_
  rw [he] at hc
  exact absurd (h ',' hc) (by decide)

theorem filter_comma_intercalate {parts : List Text}
    (h : ∀ part ∈ parts, ∀ c ∈ part, c.isDigit = true) :
    ([','].intercalate parts).filter (· ≠ ',') = parts.flatten := by
  induction parts with
  | nil => rfl
  | cons part parts ih =>
    have hpart := filter_comma_of_digits (h part (List.mem_cons_self ..))
    have hparts := ih fun p hp ↦ h p (List.mem_cons_of_mem _ hp)
    cases parts with
    | nil => rw [List.intercalate_singleton, hpart, List.flatten_singleton]
    | cons part' parts =>
      have hcomma : [','].filter (· ≠ ',') = [] := rfl
      rw [List.intercalate_cons_cons, List.filter_append, List.filter_append, hpart, hparts,
        hcomma, List.append_nil]
      rfl

/-- The digits of whole naira are what is written without the commas. -/
theorem WholeNaira.filter_comma (h : WholeNaira written naira) :
    written.filter (· ≠ ',') = naira := by
  cases h with
  | plain _ h => exact filter_comma_of_digits h
  | grouped hgroup _ h =>
    refine filter_comma_intercalate fun part hpart ↦ ?_
    rcases List.mem_cons.1 hpart with rfl | hpart
    · exact (digits_iff.1 hgroup).1
    · exact (digits_iff.1 (h part hpart)).1

theorem not_mem_of_digits {separator : Char} {text : Text} (hseparator : separator.isDigit = false)
    (h : ∀ c ∈ text, c.isDigit = true) : separator ∉ text := fun hmem ↦ by
  rw [h separator hmem] at hseparator
  cases hseparator

/-- **Whole naira** are what the source tests for. -/
theorem isWholeAmount_iff : isWholeAmount written = true ↔ ∃ naira, WholeNaira written naira := by
  constructor
  · intro h
    have hjoin : [','].intercalate (written.splitOn ',') = written := List.intercalate_splitOn ','
    unfold isWholeAmount at h
    split at h
    · next whole hsplit =>
      rw [hsplit, List.intercalate_singleton] at hjoin
      simp only [Bool.and_eq_true, List.all_eq_true, decide_eq_true_eq] at h
      exact ⟨whole, hjoin ▸ .plain (List.ne_nil_of_length_pos h.2) h.1⟩
    · next group groups hmore hsplit =>
      rw [hsplit] at hjoin
      subst hjoin
      simp only [Bool.and_eq_true, List.all_eq_true] at h
      exact ⟨_, .grouped h.1 hmore h.2⟩
    · cases h
  · rintro ⟨naira, h⟩
    cases h with
    | plain hne h =>
      rw [isWholeAmount, List.splitOn_eq_singleton (not_mem_of_digits (by decide) h)]
      simp only [Bool.and_eq_true, List.all_eq_true, decide_eq_true_eq]
      exact ⟨h, List.length_pos_iff.2 hne⟩
    | @grouped group groups hgroup hne h =>
      have hsplit : ([','].intercalate (group :: groups)).splitOn ',' = group :: groups := by
        refine List.splitOn_intercalate ',' (fun part hpart ↦ ?_) (List.cons_ne_nil _ _)
        rcases List.mem_cons.1 hpart with rfl | hpart
        · exact not_mem_of_digits (by decide) (digits_iff.1 hgroup).1
        · exact not_mem_of_digits (by decide) (digits_iff.1 (h part hpart)).1
      obtain ⟨group', groups', rfl⟩ := List.exists_cons_of_ne_nil hne
      rw [isWholeAmount, hsplit]
      simp only [Bool.and_eq_true, List.all_eq_true]
      exact ⟨hgroup, h⟩

theorem WholeNaira.not_mem_dot (h : WholeNaira written naira) : '.' ∉ written := fun hmem ↦ by
  rcases h.mem hmem with h | h
  · exact absurd h (by decide)
  · exact absurd h (by decide)

/-- What `parseAmountKobo` looks for. -/
theorem parseAmountKobo_eq_some : parseAmountKobo value = some amountKobo ↔
    (∃ whole fractions, (stripCurrency (trim value)).splitOn '.' = whole :: fractions ∧
      isWholeAmount whole = true ∧ fractions.length ≤ 1 ∧
      (∀ fraction ∈ fractions, digits 1 2 fraction = true) ∧
      amountKobo = digitsValue (whole.filter (· ≠ ',')) * 100 +
        digitsValue (padEndTwo (fractions.headD []))) ∧
      0 < amountKobo ∧ amountKobo ≤ MAX_SAFE_INTEGER := by
  unfold parseAmountKobo
  generalize MAX_SAFE_INTEGER = greatest
  cases hsplit : (stripCurrency (trim value)).splitOn '.' with
  | nil =>
    constructor
    · intro h
      cases h
    · rintro ⟨⟨_, _, h, -⟩, -⟩
      cases h
  | cons whole fractions =>
    dsimp only
    constructor
    · intro h
      split at h
      · next hform =>
        simp only [Bool.and_eq_true, decide_eq_true_eq, List.all_eq_true] at hform
        split at h
        · cases h
        · next hbounds =>
          rw [Option.some.injEq] at h
          rw [not_or, not_le, gt_iff_lt, not_lt, h] at hbounds
          exact ⟨⟨whole, fractions, rfl, hform.1.1, hform.1.2, hform.2, h.symm⟩, hbounds⟩
      · cases h
    · rintro ⟨⟨whole', fractions', heq, hwhole, hlength, hfractions, rfl⟩, hpos, hle⟩
      cases heq
      rw [if_pos, if_neg]
      · rw [not_or, not_le, gt_iff_lt, not_lt]
        exact ⟨hpos, hle⟩
      · simp only [Bool.and_eq_true, decide_eq_true_eq, List.all_eq_true]
        exact ⟨⟨hwhole, hlength⟩, hfractions⟩

/-- The forms of an amount are what is split and checked. -/
theorem amountForm_iff : AmountForm written amountKobo ↔
    ∃ whole fractions, written.splitOn '.' = whole :: fractions ∧
      isWholeAmount whole = true ∧ fractions.length ≤ 1 ∧
      (∀ fraction ∈ fractions, digits 1 2 fraction = true) ∧
      amountKobo = digitsValue (whole.filter (· ≠ ',')) * 100 +
        digitsValue (padEndTwo (fractions.headD [])) := by
  have hnone : digitsValue (padEndTwo []) = 0 := rfl
  constructor
  · intro h
    cases h with
    | @whole _ naira h =>
      refine ⟨written, [], List.splitOn_eq_singleton h.not_mem_dot, isWholeAmount_iff.2 ⟨naira, h⟩,
        Nat.zero_le _, fun _ hmem ↦ absurd hmem List.not_mem_nil, ?_⟩
      rw [h.filter_comma, List.headD_nil, hnone, Nat.add_zero]
    | @kobo whole naira fraction h hfraction =>
      refine ⟨whole, [fraction], ?_, isWholeAmount_iff.2 ⟨naira, h⟩, le_rfl, ?_, ?_⟩
      · rw [List.splitOn_append_cons_self_of_not_mem h.not_mem_dot,
          List.splitOn_eq_singleton (not_mem_of_digits (by decide) (digits_iff.1 hfraction).1)]
      · exact fun _ hmem ↦ List.mem_singleton.1 hmem ▸ hfraction
      · rw [h.filter_comma, List.headD_cons, digitsValue_padEndTwo]
  · rintro ⟨whole, fractions, hsplit, hwhole, hlength, hfractions, rfl⟩
    have hjoin : ['.'].intercalate (written.splitOn '.') = written := List.intercalate_splitOn '.'
    rw [hsplit] at hjoin
    obtain ⟨naira, h⟩ := isWholeAmount_iff.1 hwhole
    rw [h.filter_comma]
    match fractions, hlength with
    | [], _ =>
      rw [List.intercalate_singleton] at hjoin
      subst hjoin
      rw [List.headD_nil, hnone, Nat.add_zero]
      exact .whole h
    | [fraction], _ =>
      rw [List.intercalate_cons_cons, List.intercalate_singleton, List.append_assoc] at hjoin
      subst hjoin
      rw [List.headD_cons, digitsValue_padEndTwo]
      exact .kobo h (hfractions fraction (List.mem_singleton_self _))

/-- A digit begins no currency. -/
theorem digit_toLower (hc : c.isDigit = true) : c.toLower ≠ 'n' ∧ c ≠ '₦' := by
  have hdigits : ∀ n < 10, n.digitChar.toLower ≠ 'n' ∧ n.digitChar ≠ '₦' := by decide
  obtain ⟨hlt, hchar⟩ := digit_value hc
  rw [← hchar]
  exact hdigits _ hlt

/-- White space in front, and the rest. -/
theorem takeWhile_dropWhile (text : Text) :
    (∀ c ∈ text.takeWhile isTrimmed, isTrimmed c = true) ∧
      text = text.takeWhile isTrimmed ++ text.dropWhile isTrimmed :=
  ⟨fun _ h ↦ List.mem_takeWhile_imp h, List.takeWhile_append_dropWhile.symm⟩

/-- **A currency is removed** with the white space behind it. -/
theorem stripCurrency_eq (hhead : ∃ c rest, written = c :: rest ∧ c.isDigit = true) :
    stripCurrency text = written ↔ text = written ∨ ∃ currency spaces, CurrencyPrefix currency ∧
      (∀ c ∈ spaces, isTrimmed c = true) ∧ text = currency ++ (spaces ++ written) := by
  constructor
  · intro h
    unfold stripCurrency at h
    split at h
    · next hngn =>
      obtain ⟨hspaces, heq⟩ := takeWhile_dropWhile (text.drop 3)
      refine .inr ⟨text.take 3, _, .ngn hngn, hspaces, ?_⟩
      rw [← h, ← heq, List.take_append_drop]
    · split at h
      · next hnaira =>
        obtain ⟨rest, rfl⟩ := List.head?_eq_some_iff.1 hnaira
        obtain ⟨hspaces, heq⟩ := takeWhile_dropWhile rest
        refine .inr ⟨['₦'], _, .naira, hspaces, ?_⟩
        rw [← h, List.tail_cons, ← heq]
        rfl
      · exact .inl h
  · obtain ⟨c, rest, hwritten, hc⟩ := hhead
    -- The amount begins with a digit, so the spaces are dropped and nothing else.
    have hdrop : ∀ {spaces : Text}, (∀ c ∈ spaces, isTrimmed c = true) →
        (spaces ++ written).dropWhile isTrimmed = written := fun hspaces ↦ by
      rw [List.dropWhile_append_of_pos hspaces, hwritten, List.dropWhile_cons_of_neg]
      rw [isTrimmed_of_isDigit hc]
      exact Bool.false_ne_true
    rintro (rfl | ⟨currency, spaces, hcurrency, hspaces, rfl⟩)
    -- A digit is neither a letter nor the sign, so nothing is stripped.
    · subst hwritten
      obtain ⟨hlower, hnaira⟩ := digit_toLower hc
      have hngn : ¬ ((c :: rest).take 3).map Char.toLower = "ngn".toList := fun h ↦
        hlower (List.cons.inj h).1
      have hsign : ¬ (c :: rest).head? = some '₦' := fun h ↦ hnaira (Option.some.inj h)
      rw [stripCurrency, if_neg hngn, if_neg hsign]
    · cases hcurrency with
      | ngn hngn =>
        have hlength : currency.length = 3 := by
          rw [← List.length_map (f := Char.toLower), hngn]
          rfl
        rw [stripCurrency, List.take_left' hlength, if_pos hngn, List.drop_left' hlength,
          hdrop hspaces]
      | naira =>
        have hngn : ¬ ((['₦'] ++ (spaces ++ written)).take 3).map Char.toLower = "ngn".toList :=
          fun h ↦ absurd (List.cons.inj h).1 (by decide)
        rw [stripCurrency, if_neg hngn, if_pos (by rfl)]
        exact hdrop hspaces

/-- **An amount is read** as what it denotes, within its bounds. -/
theorem parseAmountKobo_iff : parseAmountKobo value = some amountKobo ↔
    DenotesAmount value amountKobo ∧ 0 < amountKobo ∧ amountKobo ≤ MAX_SAFE_INTEGER := by
  rw [parseAmountKobo_eq_some, ← amountForm_iff]
  refine and_congr_left' ⟨fun h ↦ ⟨_, h, (stripCurrency_eq h.head).1 rfl⟩, ?_⟩
  rintro ⟨written, hform, h⟩
  rw [(stripCurrency_eq hform.head).2 h]
  exact hform

/-- The currency stands in front. -/
theorem stripCurrency_suffix (text : Text) : stripCurrency text <:+ text := by
  unfold stripCurrency
  split_ifs
  · exact (List.dropWhile_suffix _).trans (List.drop_suffix 3 text)
  · exact (List.dropWhile_suffix _).trans (List.tail_suffix text)
  · exact List.suffix_rfl

/-- What ends a text without white space at its ends is not blank. -/
theorem Trimmed.nonblank_of_suffix (h : Trimmed text) {back : Text} (hback : back <:+ text)
    (hne : back ≠ []) : nonblank back = true := by
  obtain ⟨front, rfl⟩ := hback
  have hlast : back.getLast hne ∈ (front ++ back).getLast? := by
    rw [List.getLast?_append_of_ne_nil _ hne, List.getLast?_eq_some_getLast hne]
    rfl
  refine List.any_eq_true.2 ⟨_, List.getLast_mem hne, ?_⟩
  rw [h.2 _ hlast]
  rfl

/-- The cell is filled when the adapter finds an amount in it. -/
theorem amountPresent_iff (cell : Text) : amountPresent cell = true ↔ Filled cell := by
  rw [amountPresent, decide_eq_true_eq, Filled]
  refine ⟨(trimmed_trim cell).nonblank_of_suffix (stripCurrency_suffix _), fun h hnil ↦ ?_⟩
  rw [hnil] at h
  cases h

/-- An amount as it is written in a cell of Stead's own layout. -/
def amountText (amountKobo : ℕ) : Text :=
  Nat.toDigits 10 (amountKobo / 100) ++ '.' :: fixedDigits 2 (amountKobo % 100)

/-- The text of an amount denotes it. -/
theorem denotesAmount_amountText (amountKobo : ℕ) :
    DenotesAmount (amountText amountKobo) amountKobo := by
  have hwhole : ∀ c ∈ Nat.toDigits 10 (amountKobo / 100), c.isDigit = true := fun _ hc ↦
    Nat.isDigit_of_mem_toDigits (by decide) (by decide) hc
  have hvalue : digitsValue (Nat.toDigits 10 (amountKobo / 100)) = amountKobo / 100 := by
    rw [digitsValue_eq, Nat.ofDigitChars_ten_toDigits]
  have hfraction := digits_fixedDigits 2 (amountKobo % 100)
  have hlt : amountKobo % 100 < 10 ^ 2 := Nat.mod_lt _ (by decide)
  have hsum : amountKobo / 100 * 100 + amountKobo % 100 = amountKobo := Nat.div_add_mod' ..
  refine ⟨amountText amountKobo, ?_, .inl (trim_of_trimmed (trimmed_of_forall fun c hc ↦ ?_))⟩
  · have hform := AmountForm.kobo (.plain Nat.toDigits_ne_nil hwhole) (digits_one_two hfraction)
    rwa [hvalue, length_fixedDigits, Nat.sub_self, Nat.pow_zero, Nat.mul_one,
      digitsValue_fixedDigits hlt, hsum] at hform
  · rcases List.mem_append.1 hc with hc | hc
    · exact isTrimmed_of_isDigit (hwhole c hc)
    · rcases List.mem_cons.1 hc with rfl | hc
      · decide
      · exact isTrimmed_of_isDigit (isDigit_of_mem_fixedDigits hc)

end Amounts

/-! ### Notes -/

/-- What is between white space. -/
def words (text : Text) : List Text := (text.splitOnP isTrimmed).filter (· ≠ [])

/-- The words with single spaces between them. -/
def normalizeNote (text : Text) : Text := [' '].intercalate (words text)

section Notes

variable {word : Text}

theorem words_append_space (hc : isTrimmed c = true) (text rest : Text) :
    words (text ++ c :: rest) = words text ++ words rest := by
  rw [words, List.splitOnP_append_cons _ _ hc, List.filter_append]
  rfl

theorem words_space (hc : isTrimmed c = true) (text : Text) : words (c :: text) = words text :=
  words_append_space hc [] text

/-- A word is read as one. -/
theorem words_word (hne : word ≠ []) (h : ∀ c ∈ word, isTrimmed c = false) :
    words word = [word] := by
  rw [words, List.splitOnP_eq_singleton h, List.filter_cons_of_pos (by simpa using hne)]
  rfl

/-- A letter before a word belongs to it. -/
theorem words_letter {d : Char} (hc : isTrimmed c = false) (hd : isTrimmed d = false)
    (text : Text) : ∃ word rest, words (d :: text) = word :: rest ∧
      words (c :: d :: text) = (c :: word) :: rest := by
  obtain ⟨first, others, hsplit⟩ :=
    List.exists_cons_of_ne_nil (List.splitOnP_ne_nil isTrimmed text)
  refine ⟨d :: first, others.filter (· ≠ []), ?_, ?_⟩
  · rw [words, List.splitOnP_cons_eq_if_modifyHead, hd, hsplit]
    rfl
  · rw [words, List.splitOnP_cons_eq_if_modifyHead, List.splitOnP_cons_eq_if_modifyHead, hc, hd,
      hsplit]
    rfl

/-- A text that is not blank has a word. -/
theorem words_ne_nil (h : nonblank text = true) : words text ≠ [] := by
  induction text with
  | nil => cases h
  | cons c text ih =>
    cases hc : isTrimmed c with
    | true =>
      rw [words_space hc]
      refine ih ?_
      rwa [nonblank, List.any_cons, hc] at h
    | false =>
      obtain ⟨first, others, hsplit⟩ :=
        List.exists_cons_of_ne_nil (List.splitOnP_ne_nil isTrimmed text)
      rw [words, List.splitOnP_cons_eq_if_modifyHead, hc, hsplit]
      exact List.cons_ne_nil (c :: first) _

/-- Nothing after the last word. -/
def EndsInWord (text : Text) : Prop := ∀ c ∈ text.getLast?, isTrimmed c = false

/-- What ends in a word does so from any place on. -/
theorem EndsInWord.tail (h : EndsInWord (c :: text)) : EndsInWord text := by
  intro d hd
  refine h d ?_
  cases text with
  | nil => cases hd
  | cons e text => exact hd

/-- White space is followed by a word then. -/
theorem EndsInWord.nonblank (h : EndsInWord (c :: text)) (hc : isTrimmed c = true) :
    nonblank text = true := by
  cases text with
  | nil => rw [h c rfl] at hc; cases hc
  | cons d text =>
    have hne := List.cons_ne_nil d text
    have hlast : (d :: text).getLast hne ∈ (c :: d :: text).getLast? := by
      rw [List.getLast?_cons_cons, List.getLast?_eq_some_getLast hne]
      rfl
    refine List.any_eq_true.2 ⟨_, List.getLast_mem hne, ?_⟩
    rw [h _ hlast]
    rfl

/-- **White space is collapsed** to single spaces between the words: after white space (on the left)
and after a letter. -/
theorem collapseSpaces_eq (h : EndsInWord text) :
    collapseSpaces true text = normalizeNote text ∧
      ∀ c, isTrimmed c = false → c :: collapseSpaces false text = normalizeNote (c :: text) := by
  induction text with
  | nil =>
    refine ⟨rfl, fun c hc ↦ ?_⟩
    rw [normalizeNote, words_word (List.cons_ne_nil _ _) (List.forall_mem_singleton.2 hc)]
    rfl
  | cons d text ih =>
    obtain ⟨hspace, hletter⟩ := ih h.tail
    cases hd : isTrimmed d with
    | true =>
      refine ⟨?_, fun c hc ↦ ?_⟩
      · rw [collapseSpaces, if_pos hd, if_pos rfl, hspace, normalizeNote, normalizeNote,
          words_space hd]
      · obtain ⟨first, others, hwords⟩ := List.exists_cons_of_ne_nil (words_ne_nil (h.nonblank hd))
        have hfirst : words (c :: d :: text) = [c] :: words text := by
          rw [← List.singleton_append, words_append_space hd,
            words_word (List.cons_ne_nil _ _) (List.forall_mem_singleton.2 hc)]
          rfl
        rw [collapseSpaces, if_pos hd, if_neg Bool.false_ne_true, hspace, normalizeNote,
          normalizeNote, hfirst, hwords, List.intercalate_cons_cons]
        rfl
    | false =>
      have hword : collapseSpaces true (d :: text) = normalizeNote (d :: text) := by
        rw [collapseSpaces, hd, if_neg Bool.false_ne_true]
        exact hletter d hd
      refine ⟨hword, fun c hc ↦ ?_⟩
      obtain ⟨first, others, hwords, hwords'⟩ := words_letter hc hd text
      have hsame : collapseSpaces false (d :: text) = normalizeNote (d :: text) := by
        rw [collapseSpaces, hd, if_neg Bool.false_ne_true]
        exact hletter d hd
      rw [hsame, normalizeNote, normalizeNote, hwords, hwords']
      cases others <;> rfl

theorem words_dropWhile (text : Text) : words (text.dropWhile isTrimmed) = words text := by
  induction text with
  | nil => rfl
  | cons c text ih =>
    rw [List.dropWhile_cons]
    split
    · next hc => rw [ih, words_space hc]
    · rfl

theorem words_append_spaces {spaces : Text} (h : ∀ c ∈ spaces, isTrimmed c = true) (text : Text) :
    words (text ++ spaces) = words text := by
  have hnone : words spaces = [] := by
    induction spaces with
    | nil => rfl
    | cons c spaces ih =>
      rw [words_space (h c (List.mem_cons_self ..))]
      exact ih fun d hd ↦ h d (List.mem_cons_of_mem _ hd)
  cases spaces with
  | nil => rw [List.append_nil]
  | cons c spaces =>
    have hc := h c (List.mem_cons_self ..)
    rw [words_space hc] at hnone
    rw [words_append_space hc, hnone, List.append_nil]

theorem words_trim (text : Text) : words (trim text) = words text := by
  obtain ⟨spaces, hspaces, heq⟩ := dropWhile_eq_trim_append text
  rw [← words_append_spaces hspaces, ← heq, words_dropWhile]

/-- **A note is read** as its words with single spaces between them. -/
theorem collapseSpaces_trim (text : Text) :
    collapseSpaces false (trim text) = normalizeNote text := by
  obtain ⟨hhead, hlast⟩ := trimmed_trim text
  rw [normalizeNote, ← words_trim]
  cases htrim : trim text with
  | nil => rfl
  | cons c rest =>
    rw [htrim] at hhead hlast
    have hc : isTrimmed c = false := hhead c rfl
    rw [collapseSpaces, hc, if_neg Bool.false_ne_true]
    exact (collapseSpaces_eq (EndsInWord.tail hlast)).2 c hc

/-- A word has no white space in it. -/
theorem not_of_mem_splitOnP {text word : Text} (h : word ∈ text.splitOnP isTrimmed) :
    ∀ c ∈ word, isTrimmed c = false := by
  induction text generalizing word with
  | nil =>
    rw [List.splitOnP_nil, List.mem_singleton] at h
    subst h
    exact fun _ hc ↦ absurd hc List.not_mem_nil
  | cons d text ih =>
    rw [List.splitOnP_cons_eq_if_modifyHead] at h
    split at h
    · rcases List.mem_cons.1 h with rfl | h
      · exact fun _ hc ↦ absurd hc List.not_mem_nil
      · exact ih h
    · next hd =>
      obtain ⟨first, others, hsplit⟩ :=
        List.exists_cons_of_ne_nil (List.splitOnP_ne_nil isTrimmed text)
      rw [hsplit, List.modifyHead_cons] at h
      rw [hsplit] at ih
      rcases List.mem_cons.1 h with rfl | h
      · exact List.forall_mem_cons.2 ⟨by simpa using hd, ih (List.mem_cons_self ..)⟩
      · exact ih (List.mem_cons_of_mem _ h)

/-- Words that are joined by spaces are found again. -/
theorem words_join {list : List Text}
    (h : ∀ word ∈ list, word ≠ [] ∧ ∀ c ∈ word, isTrimmed c = false) :
    words ([' '].intercalate list) = list := by
  induction list with
  | nil => rfl
  | cons word list ih =>
    obtain ⟨hne, hword⟩ := h word (List.mem_cons_self ..)
    have hlist := ih fun w hw ↦ h w (List.mem_cons_of_mem _ hw)
    cases list with
    | nil => rw [List.intercalate_singleton, words_word hne hword]
    | cons word' list =>
      rw [List.intercalate_cons_cons, List.append_assoc, List.singleton_append,
        words_append_space (by decide), words_word hne hword, hlist]
      rfl

/-- A note that has been read is read as itself. -/
theorem normalizeNote_idem (text : Text) :
    normalizeNote (normalizeNote text) = normalizeNote text := by
  rw [normalizeNote, normalizeNote, words_join]
  intro word hword
  obtain ⟨hmem, hne⟩ := List.mem_filter.1 hword
  exact ⟨of_decide_eq_true hne, not_of_mem_splitOnP hmem⟩

end Notes

end Stead
