import Stead.Import.Notation
import Stead.Numbers.Binary64

/-!
# Amounts in the forms of the app

`koboToNairaInput` and `nairaInputToKobo` write and read the amount field of a form.

## Division

The division by 100 is that of the language, rounded to double precision; for a safe integer it is
cut to the right whole number all the same (`trunc_div_hundred`), so that what is written is read
back as it was (`nairaInputToKobo_koboToNairaInput`). The remainder is exact in any case.

## Two grammars

The app and the importer read amounts by grammars of their own: the app takes commas wherever they
stand, the importer in groups of thousands only, and a currency before the amount. An amount without
a currency that the importer reads, the app reads alike (`nairaInputToKobo_of_form`). The grammar of
the importer is stated here once more with the naira it stands for (`NairaForm`).
-/

namespace Stead

/-! ### Reading and writing -/

/-- `Math.trunc` -/
def mathTrunc (x : ℚ) : ℤ := if 0 ≤ x then ⌊x⌋ else ⌈x⌉

/-- `String` of a safe integer. -/
def stringOfInteger (n : ℤ) : Text :=
  (if n < 0 then ['-'] else []) ++ Nat.toDigits 10 n.natAbs

/-- The text of an amount, which is a safe integer. The remainder of a division is exact. -/
def koboToNairaInput (amountKobo : ℤ) : Text :=
  let whole := mathTrunc (Binary64.round (amountKobo / 100))
  let fraction := |amountKobo.tmod 100|
  if fraction = 0 then stringOfInteger whole
  else stringOfInteger whole ++ '.' :: padTwo (stringOfInteger fraction)

/-- `value.trim().replace(/,/g, '')` -/
def normalizedInput (value : Text) : Text := (trim value).filter (· ≠ ',')

/-- `/^\d+(?:\.\d{1,2})?$/` and the kobo that the matched text stands for, as a `BigInt`. -/
def plainAmount (normalized : Text) : Option ℕ :=
  match normalized.splitOn '.' with
  | whole :: fractions =>
    if whole.all Char.isDigit && decide (0 < whole.length) && decide (fractions.length ≤ 1) &&
        fractions.all (digits 1 2) then
      some (digitsValue whole * 100 + digitsValue (padEndTwo (fractions.headD [])))
    else none
  | [] => none

/-- The kobo of an amount field: more than none and a safe integer. -/
def nairaInputToKobo (value : Text) : Option ℕ :=
  match plainAmount (normalizedInput value) with
  | none => none
  | some amount => if amount ≤ 0 ∨ amount > MAX_SAFE_INTEGER then none else some amount

/-- The same for a field that may be left blank, where zero is an amount. It is `none` for an input
that is refused and `some none` for a blank one, `null` and `undefined` in the source. -/
def optionalNairaInputToKobo (value : Text) : Option (Option ℕ) :=
  let normalized := normalizedInput value
  if normalized = [] then some none
  else
    match plainAmount normalized with
    | none => none
    | some amount => if amount > MAX_SAFE_INTEGER then none else some (some amount)

section

variable {value written naira fraction : Text} {amountKobo : ℕ}

/-- What is read of a field, in terms of the plain amount. -/
theorem nairaInputToKobo_eq_some : nairaInputToKobo value = some amountKobo ↔
    plainAmount (normalizedInput value) = some amountKobo ∧
      0 < amountKobo ∧ amountKobo ≤ MAX_SAFE_INTEGER := by
  unfold nairaInputToKobo
  generalize MAX_SAFE_INTEGER = greatest
  cases plainAmount (normalizedInput value) with
  | none => simp
  | some amount =>
    dsimp only
    rw [Option.some.injEq]
    split_ifs with h
    · rw [false_iff]
      rintro ⟨rfl, hpos, hle⟩
      exact h.elim (not_le.2 hpos) (not_lt.2 hle)
    · rw [not_or, not_le, gt_iff_lt, not_lt] at h
      rw [Option.some.injEq]
      exact ⟨fun heq ↦ ⟨heq, heq ▸ h⟩, fun heq ↦ heq.1⟩

/-- The characters of a plain amount. -/
theorem isDigit_or_dot_of_plainAmount (h : plainAmount written = some amountKobo) {c : Char}
    (hc : c ∈ written) : c.isDigit = true ∨ c = '.' := by
  have hjoin : ['.'].intercalate (written.splitOn '.') = written := List.intercalate_splitOn '.'
  unfold plainAmount at h
  split at h
  · next whole fractions hsplit =>
    split at h
    · next hform =>
      simp only [Bool.and_eq_true, decide_eq_true_eq, List.all_eq_true] at hform
      obtain ⟨⟨⟨hwhole, -⟩, -⟩, hfractions⟩ := hform
      rw [hsplit] at hjoin
      rcases mem_intercalate (hjoin ▸ hc) with rfl | ⟨part, hpart, hcpart⟩
      · exact .inr rfl
      · rcases List.mem_cons.1 hpart with rfl | hpart
        · exact .inl (hwhole c hcpart)
        · exact .inl ((digits_iff.1 (hfractions part hpart)).1 c hcpart)
    · cases h
  · cases h

theorem plainAmount_whole (h : ∀ c ∈ naira, c.isDigit = true) (hne : naira ≠ []) :
    plainAmount naira = some (digitsValue naira * 100) := by
  have hdigits : naira.all Char.isDigit = true := List.all_eq_true.2 h
  have hnone : digitsValue (padEndTwo []) = 0 := rfl
  rw [plainAmount, List.splitOn_eq_singleton (not_mem_of_digits (by decide) h)]
  simp [hdigits, List.length_pos_of_ne_nil hne, hnone]

theorem plainAmount_kobo (h : ∀ c ∈ naira, c.isDigit = true) (hne : naira ≠ [])
    (hfraction : digits 1 2 fraction = true) : plainAmount (naira ++ '.' :: fraction) =
      some (digitsValue naira * 100 + digitsValue fraction * 10 ^ (2 - fraction.length)) := by
  have hdigits : naira.all Char.isDigit = true := List.all_eq_true.2 h
  rw [plainAmount, List.splitOn_append_cons_self_of_not_mem (not_mem_of_digits (by decide) h),
    List.splitOn_eq_singleton (not_mem_of_digits (by decide) (digits_iff.1 hfraction).1)]
  simp [hdigits, List.length_pos_of_ne_nil hne, hfraction, digitsValue_padEndTwo]

/-! ### Both grammars -/

/-- The digits of whole naira. -/
theorem WholeNaira.digits (h : WholeNaira written naira) :
    (∀ c ∈ naira, c.isDigit = true) ∧ naira ≠ [] := by
  cases h with
  | plain hne h => exact ⟨h, hne⟩
  | @grouped group groups hgroup _ h =>
    obtain ⟨hdigits, hlow, -⟩ := digits_iff.1 hgroup
    refine ⟨fun c hc ↦ ?_, List.append_ne_nil_of_left_ne_nil (List.ne_nil_of_length_pos hlow) _⟩
    rcases List.mem_append.1 hc with hc | hc
    · exact hdigits c hc
    · obtain ⟨part, hpart, hcpart⟩ := List.mem_flatten.1 hc
      exact (digits_iff.1 (h part hpart)).1 c hcpart

/-- Without its commas an amount of the importer is an amount of the app. -/
theorem AmountForm.plainAmount (h : AmountForm written amountKobo) :
    plainAmount (written.filter (· ≠ ',')) = some amountKobo := by
  cases h with
  | whole h =>
    obtain ⟨hdigits, hne⟩ := h.digits
    rw [h.filter_comma, plainAmount_whole hdigits hne]
  | @kobo written naira fraction h hfraction =>
    obtain ⟨hdigits, hne⟩ := h.digits
    have hrest := filter_comma_of_digits (digits_iff.1 hfraction).1
    rw [List.filter_append, h.filter_comma, List.filter_cons_of_pos (by decide), hrest,
      plainAmount_kobo hdigits hne hfraction]

/-- An amount that is written without a currency and that the importer reads, the app reads alike. -/
theorem nairaInputToKobo_of_form (h : AmountForm (trim value) amountKobo) (hpos : 0 < amountKobo)
    (hle : amountKobo ≤ MAX_SAFE_INTEGER) : nairaInputToKobo value = some amountKobo :=
  nairaInputToKobo_eq_some.2 ⟨h.plainAmount, hpos, hle⟩

/-- A currency is not an amount of the app. -/
theorem CurrencyPrefix.exists_mem {currency : Text} (h : CurrencyPrefix currency) :
    ∃ c ∈ currency, c ≠ ',' ∧ ¬ (c.isDigit = true ∨ c = '.') := by
  cases h with
  | naira => exact ⟨'₦', List.mem_singleton_self _, by decide, by decide⟩
  | ngn h =>
    obtain ⟨c, rest, rfl, hc, -⟩ := List.map_eq_cons_iff.1 h
    refine ⟨c, List.mem_cons_self, ?_, ?_⟩
    · rintro rfl
      exact absurd hc (by decide)
    · rintro (hdigit | rfl)
      · exact (digit_toLower hdigit).1 hc
      · exact absurd hc (by decide)

/-- What both read, both read alike. -/
theorem nairaInputToKobo_eq {amountKobo' : ℕ} (h : parseAmountKobo value = some amountKobo)
    (h' : nairaInputToKobo value = some amountKobo') : amountKobo = amountKobo' := by
  obtain ⟨⟨written, hform, hwritten | ⟨currency, spaces, hcurrency, -, hwritten⟩⟩, hpos, hle⟩ :=
    parseAmountKobo_iff.1 h
  · subst hwritten
    exact Option.some.inj ((nairaInputToKobo_of_form hform hpos hle).symm.trans h')
  · obtain ⟨c, hc, hcomma, hneither⟩ := hcurrency.exists_mem
    have hin : c ∈ normalizedInput value := by
      rw [normalizedInput, hwritten]
      exact List.mem_filter.2 ⟨List.mem_append_left _ hc, decide_eq_true hcomma⟩
    exact absurd (isDigit_or_dot_of_plainAmount (nairaInputToKobo_eq_some.1 h').1 hin) hneither

/-! ### The naira of an amount -/

/-- An amount as the importer takes it, and the naira it stands for. -/
inductive NairaForm : Text → ℚ → Prop
  | whole {written naira : Text} (h : WholeNaira written naira) :
      NairaForm written (digitsValue naira)
  | decimal {written naira fraction : Text} (h : WholeNaira written naira)
      (hfraction : digits 1 2 fraction = true) :
      NairaForm (written ++ '.' :: fraction)
        (digitsValue naira + digitsValue fraction / 10 ^ fraction.length)

theorem nairaForm_iff : NairaForm written (amountKobo / 100) ↔ AmountForm written amountKobo := by
  -- One or two digits of a fraction, in kobo.
  have hcents : ∀ {fraction : Text}, digits 1 2 fraction = true → (digitsValue fraction : ℚ) /
      10 ^ fraction.length * 100 = (digitsValue fraction * 10 ^ (2 - fraction.length) : ℕ) := by
    intro fraction hfraction
    obtain ⟨-, hlow, hhigh⟩ := digits_iff.1 hfraction
    obtain h | h : fraction.length = 1 ∨ fraction.length = 2 := by omega
    · rw [h]
      push_cast
      ring
    · rw [h]
      push_cast
      ring
  constructor
  · intro h
    generalize hq : (amountKobo / 100 : ℚ) = q at h
    rw [div_eq_iff (by norm_num)] at hq
    cases h with
    | @whole _ naira h =>
      obtain rfl : amountKobo = digitsValue naira * 100 := by exact_mod_cast hq
      exact .whole h
    | @decimal written naira fraction h hfraction =>
      rw [add_mul, hcents hfraction] at hq
      obtain rfl : amountKobo = digitsValue naira * 100 +
          digitsValue fraction * 10 ^ (2 - fraction.length) := by exact_mod_cast hq
      exact .kobo h hfraction
  · intro h
    cases h with
    | @whole _ naira h =>
      have hq : ((digitsValue naira * 100 : ℕ) : ℚ) / 100 = digitsValue naira := by
        push_cast
        ring
      exact hq ▸ .whole h
    | @kobo written naira fraction h hfraction =>
      have hq : ((digitsValue naira * 100 + digitsValue fraction * 10 ^ (2 - fraction.length) : ℕ) :
          ℚ) / 100 = digitsValue naira + digitsValue fraction / 10 ^ fraction.length := by
        rw [Nat.cast_add, ← hcents hfraction]
        push_cast
        ring
      exact hq ▸ .decimal h hfraction

/-- What is written in the cell, but for white space around it and a currency before it, is an amount
of so many naira. -/
def DenotesNaira (cell : Text) (naira : ℚ) : Prop :=
  ∃ written, NairaForm written naira ∧
    (trim cell = written ∨ ∃ currency spaces, CurrencyPrefix currency ∧
      (∀ c ∈ spaces, isTrimmed c = true) ∧ trim cell = currency ++ (spaces ++ written))

theorem denotesNaira_iff : DenotesNaira value (amountKobo / 100) ↔ DenotesAmount value amountKobo := by
  simp only [DenotesNaira, DenotesAmount, nairaForm_iff]

/-- What the importer reads, by naira. -/
theorem parseAmountKobo_naira : parseAmountKobo value = some amountKobo ↔
    DenotesNaira value (amountKobo / 100) ∧ 1 ≤ amountKobo ∧ amountKobo ≤ 2 ^ 53 - 1 := by
  rw [parseAmountKobo_iff, denotesNaira_iff]
  exact Iff.rfl

/-- The importer reports an amount that it has not read. -/
theorem invalidAmount_iff (cells : ImportCells) :
    "Amount must be a positive naira value" ∈ cells.errors ↔ cells.amountKobo = none := by
  simp [ImportCells.errors]

/-- **Amounts are read exactly.** The importer reads an amount as the number of kobo that it denotes
and reports every cell that denotes none within the bounds; what the app reads as well, it reads as
the same number. -/
theorem parseAmountKobo_exact :
    (∀ (value : Text) (amountKobo : ℕ), parseAmountKobo value = some amountKobo ↔
      DenotesNaira value (amountKobo / 100) ∧ 1 ≤ amountKobo ∧ amountKobo ≤ 2 ^ 53 - 1) ∧
    (∀ (platform : Platform) (columns : ImportColumns) (record : List Text),
      "Amount must be a positive naira value" ∈ (readRecord platform columns record).errors ↔
        ¬ ∃ amountKobo : ℕ, DenotesNaira (cellAt record columns.amount) (amountKobo / 100) ∧
          1 ≤ amountKobo ∧ amountKobo ≤ 2 ^ 53 - 1) ∧
    (∀ (value : Text) (amountKobo amountKobo' : ℕ), parseAmountKobo value = some amountKobo →
      nairaInputToKobo value = some amountKobo' → amountKobo = amountKobo') := by
  refine ⟨fun _ _ ↦ parseAmountKobo_naira, fun platform columns record ↦ ?_,
    fun _ _ _ ↦ nairaInputToKobo_eq⟩
  rw [invalidAmount_iff, readRecord, Option.eq_none_iff_forall_ne_some, not_exists]
  exact forall_congr' fun _ ↦ not_congr parseAmountKobo_naira

/-- An amount in groups of thousands. -/
theorem parseAmountKobo_exact_grouped :
    parseAmountKobo "1,234.5".toList = some 123450 ∧
      nairaInputToKobo "1,234.5".toList = some 123450 ∧ (123450 : ℕ) = 123450 :=
  ⟨by decide +kernel, by decide +kernel,
    parseAmountKobo_exact.2.2 "1,234.5".toList _ _ (by decide +kernel) (by decide +kernel)⟩

/-! ### Writing and reading back -/

/-- A number that is not negative is cut to its floor. -/
theorem mathTrunc_of_floor {x : ℚ} {m : ℕ} (h : ⌊x⌋ = m) : mathTrunc x = m := by
  rw [mathTrunc, if_pos (Int.floor_nonneg.1 (h ▸ Int.natCast_nonneg m)), h]

/-- **The division is cut right.** Off a whole number by a hundredth at least, a quotient stays on its
side of it: the rounding is off by `2 ^ -7` at most. -/
theorem trunc_div_hundred (h : amountKobo ≤ MAX_SAFE_INTEGER) :
    mathTrunc (Binary64.round (amountKobo / 100)) = (amountKobo / 100 : ℕ) := by
  have hgreatest : MAX_SAFE_INTEGER = 2 ^ 53 - 1 := rfl
  have hsplit : 100 * (amountKobo / 100) + amountKobo % 100 = amountKobo := Nat.div_add_mod ..
  generalize amountKobo / 100 = whole at hsplit ⊢
  have hquotient : (amountKobo : ℚ) / 100 = whole + (amountKobo % 100 : ℕ) / 100 := by
    have hcast : (amountKobo : ℚ) = 100 * whole + (amountKobo % 100 : ℕ) := by exact_mod_cast hsplit.symm
    rw [hcast]
    ring
  have hlt : amountKobo % 100 < 100 := Nat.mod_lt _ (by decide)
  rw [hquotient]
  generalize amountKobo % 100 = rest at hsplit hlt ⊢
  refine mathTrunc_of_floor ?_
  rcases Nat.eq_zero_or_pos rest with rfl | hpos
  · have hsmall : |(whole : ℤ)| < 2 ^ 53 := by
      rw [Nat.abs_cast]
      exact_mod_cast (by omega : whole < 2 ^ 53)
    have hround := Binary64.round_intCast hsmall
    rw [Int.cast_natCast] at hround
    rw [Nat.cast_zero, zero_div, add_zero, hround, Int.floor_natCast]
  · have hfirst : (1 : ℚ) ≤ rest := by exact_mod_cast hpos
    have hlast : (rest : ℚ) ≤ 99 := by exact_mod_cast (by omega : rest ≤ 99)
    have hwhole : (whole : ℚ) ≤ 2 ^ 53 / 100 := by
      rw [le_div_iff₀ (by norm_num)]
      exact_mod_cast (by omega : whole * 100 ≤ 2 ^ 53)
    have hnonneg : (0 : ℚ) ≤ whole := Nat.cast_nonneg _
    refine Binary64.floor_round (n := 47) ?_ (by decide) ?_ ?_
    · rw [abs_of_nonneg (by positivity)]
      norm_num
      linarith
    · norm_num
      linarith
    · norm_num
      linarith

theorem digitsValue_toDigits (n : ℕ) : digitsValue (Nat.toDigits 10 n) = n := by
  rw [digitsValue_eq, Nat.ofDigitChars_ten_toDigits]

theorem isDigit_of_mem_toDigits {n : ℕ} {c : Char} (h : c ∈ Nat.toDigits 10 n) :
    c.isDigit = true :=
  Nat.isDigit_of_mem_toDigits (by decide) (by decide) h

theorem stringOfInteger_natCast (n : ℕ) : stringOfInteger n = Nat.toDigits 10 n := by
  rw [stringOfInteger, if_neg (Int.natCast_nonneg n).not_gt, Int.natAbs_natCast]
  rfl

/-- Kobo are two digits when they are padded. -/
theorem digits_padTwo_toDigits {n : ℕ} (h : n < 100) :
    digits 2 2 (padTwo (Nat.toDigits 10 n)) = true := by
  have hall : ∀ n < 100, digits 2 2 (padTwo (Nat.toDigits 10 n)) = true := by decide +kernel
  exact hall n h

/-- The text of an amount. -/
theorem koboToNairaInput_eq (h : amountKobo ≤ MAX_SAFE_INTEGER) :
    koboToNairaInput amountKobo =
      if amountKobo % 100 = 0 then Nat.toDigits 10 (amountKobo / 100)
      else Nat.toDigits 10 (amountKobo / 100) ++ '.' :: padTwo (Nat.toDigits 10 (amountKobo % 100)) := by
  have hfraction : |(amountKobo : ℤ).tmod 100| = (amountKobo % 100 : ℕ) := by
    rw [Int.tmod_eq_emod_of_nonneg (Int.natCast_nonneg _),
      abs_of_nonneg (Int.emod_nonneg _ (by decide))]
    rfl
  have hwhole := trunc_div_hundred h
  simp only [koboToNairaInput, Int.cast_natCast, hwhole, hfraction, stringOfInteger_natCast,
    Nat.cast_eq_zero]

/-- What is written is read back. -/
theorem plainAmount_koboToNairaInput (h : amountKobo ≤ MAX_SAFE_INTEGER) :
    plainAmount (koboToNairaInput amountKobo) = some amountKobo := by
  have hsplit : amountKobo / 100 * 100 + amountKobo % 100 = amountKobo := Nat.div_add_mod' ..
  rw [koboToNairaInput_eq h]
  split_ifs with hzero
  · rw [plainAmount_whole (fun _ ↦ isDigit_of_mem_toDigits) Nat.toDigits_ne_nil,
      digitsValue_toDigits]
    rw [hzero, Nat.add_zero] at hsplit
    rw [hsplit]
  · have hfraction := digits_padTwo_toDigits (Nat.mod_lt amountKobo (by decide : 0 < 100))
    obtain ⟨-, hlow, hhigh⟩ := digits_iff.1 hfraction
    rw [plainAmount_kobo (fun _ ↦ isDigit_of_mem_toDigits) Nat.toDigits_ne_nil
      (digits_one_two hfraction), digitsValue_padTwo, digitsValue_toDigits, digitsValue_toDigits,
      le_antisymm hhigh hlow, Nat.sub_self, Nat.pow_zero, Nat.mul_one, hsplit]

/-- What is written has neither white space nor commas. -/
theorem normalizedInput_koboToNairaInput (h : amountKobo ≤ MAX_SAFE_INTEGER) :
    normalizedInput (koboToNairaInput amountKobo) = koboToNairaInput amountKobo := by
  have hchars : ∀ c ∈ koboToNairaInput amountKobo, c.isDigit = true ∨ c = '.' := fun _ ↦
    isDigit_or_dot_of_plainAmount (plainAmount_koboToNairaInput h)
  have htrim : trim (koboToNairaInput amountKobo) = koboToNairaInput amountKobo := by
    refine trim_of_trimmed (trimmed_of_forall fun c hc ↦ ?_)
    rcases hchars c hc with hdigit | rfl
    · exact isTrimmed_of_isDigit hdigit
    · rfl
  rw [normalizedInput, htrim]
  refine List.filter_eq_self.2 fun c hc ↦ decide_eq_true fun heq ↦ ?_
  rcases hchars c hc with hdigit | hdot
  · rw [heq] at hdigit
    exact absurd hdigit (by decide)
  · rw [heq] at hdot
    exact absurd hdot (by decide)

/-- **An amount is read back** as it was written. -/
theorem nairaInputToKobo_koboToNairaInput (hpos : 0 < amountKobo)
    (h : amountKobo ≤ MAX_SAFE_INTEGER) :
    nairaInputToKobo (koboToNairaInput amountKobo) = some amountKobo := by
  rw [nairaInputToKobo_eq_some, normalizedInput_koboToNairaInput h]
  exact ⟨plainAmount_koboToNairaInput h, hpos, h⟩

/-- In the optional field zero is read back as well. -/
theorem optionalNairaInputToKobo_koboToNairaInput (h : amountKobo ≤ MAX_SAFE_INTEGER) :
    optionalNairaInputToKobo (koboToNairaInput amountKobo) = some (some amountKobo) := by
  have hamount := plainAmount_koboToNairaInput h
  have hne : koboToNairaInput amountKobo ≠ [] := by
    intro hnil
    rw [hnil] at hamount
    cases hamount
  simp only [optionalNairaInputToKobo, normalizedInput_koboToNairaInput h, hamount, if_neg hne]
  rw [if_neg h.not_gt]

end

end Stead
