import Stead.Dashboard.Stability

/-!
# The range of the score

What holds of `computeStability` on all inputs: its results lie in their ranges, it never divides by
zero, and the score does not fall when the balance or the income rises.

## No division by zero

In the rationals a quotient by zero is zero, so that a division by zero would not show.
`computeStability?` is the same function with every division tested; one lemma for each of the
intermediate values says that the test succeeds, and together that the function has its value
(`computeStability?_eq`).

## Income

An income that is `null` counts as none at all, and so does an income of zero or less: the ratio is
clamped at zero. So the support is that of the positive part of the income (`supportOf_eq`), and
monotone in it (`supportOf_mono`).

## The balance

A higher balance raises the coverage and the buffer and leaves the other two terms alone. The score
is monotone in each of the four terms.
-/

namespace Stead

/-- A quotient, unless the divisor is zero. -/
def div? (a b : ℚ) : Option ℚ := if b = 0 then none else some (a / b)

/-- A positive divisor passes the test. -/
theorem div?_of_pos {a b : ℚ} (h : 0 < b) : div? a b = some (a / b) := if_neg h.ne'

namespace StabilityInputs

variable (input : StabilityInputs)

/-! ### Every division tested -/

/-- `daysRemaining`, with its division tested; -/
def daysRemaining? : Option ℤ :=
  (div? ((input.dueDate - input.today : ℤ) : ℚ) (DAY_MS : ℚ)).map fun q ↦ max 0 ⌈q⌉

/-- `readinessRatio`, -/
def readinessRatio? : Option ℚ :=
  if 0 < input.goalTotal then (div? input.saved input.goalTotal).map fun q ↦ clamp q 0 1
  else some 0

/-- `readinessPct`, -/
def readinessPct? (readinessRatio : ℚ) : Option ℚ := div? (mathRound (readinessRatio * 1000)) 10

/-- `paceRequiredMonthlyKobo`, which divides three times, -/
def paceRequiredMonthlyKobo? (daysRemaining : ℤ) : Option ℤ :=
  if 0 < daysRemaining then
    (div? daysRemaining 30).bind fun months ↦ (div? 1 30).bind fun least ↦
      (div? input.remainingObligationKobo (max months least)).map Int.ceil
  else some input.remainingObligationKobo

/-- `coverageRatio`, -/
def coverageRatio? : Option ℚ :=
  if input.remainingObligationKobo = 0 then some 1
  else
    (div? input.estimatedBalanceKobo (max (input.remainingObligationKobo : ℚ) 1)).map
      fun q ↦ clamp q 0 1

/-- `supportOf`, -/
def supportOf? (monthlyIncomeKobo : Option ℤ) (paceRequiredMonthlyKobo : ℤ) : Option ℚ :=
  match monthlyIncomeKobo with
  | some income =>
    if income ≠ 0 ∧ 0 < paceRequiredMonthlyKobo then
      (div? income paceRequiredMonthlyKobo).map fun q ↦ clamp q 0 1
    else some 0
  | none => some 0

/-- and `bufferRatio`. -/
def bufferRatio? : Option ℚ :=
  if 0 < input.remainingObligationKobo then
    (div? input.safeToSpendKobo input.remainingObligationKobo).map fun q ↦ clamp q 0 1
  else some 1

end StabilityInputs

/-- `computeStability`, unless it divides by zero. -/
def computeStability? (input : StabilityInputs) : Option StabilityOutput := do
  let daysRemaining ← input.daysRemaining?
  let readinessRatio ← input.readinessRatio?
  let readinessPct ← StabilityInputs.readinessPct? readinessRatio
  let paceRequiredMonthlyKobo ← input.paceRequiredMonthlyKobo? daysRemaining
  let coverageRatio ← input.coverageRatio?
  let incomeSupportRatio ←
    StabilityInputs.supportOf? input.monthlyIncomeKobo paceRequiredMonthlyKobo
  let bufferRatio ← input.bufferRatio?
  let stabilityScore := mathRound
    (readinessRatio * 40 + coverageRatio * 30 + incomeSupportRatio * 20 + bufferRatio * 10)
  pure
    { daysRemaining
      remainingObligationKobo := input.remainingObligationKobo
      readinessPct
      paceRequiredMonthlyKobo
      safeToSpendKobo := input.safeToSpendKobo
      stabilityScore
      status := statusOf stabilityScore }

namespace StabilityInputs

variable (input : StabilityInputs)

theorem daysRemaining?_eq : input.daysRemaining? = some input.daysRemaining := by
  rw [daysRemaining?, div?_of_pos (by norm_num [DAY_MS])]
  rfl

/-- The total is tested before it divides. -/
theorem readinessRatio?_eq : input.readinessRatio? = some input.readinessRatio := by
  unfold readinessRatio? readinessRatio
  split
  · next hpos =>
    have hpos' : (0 : ℚ) < input.goalTotal := by exact_mod_cast hpos
    rw [div?_of_pos hpos', Option.map_some]
  · rfl

theorem readinessPct?_eq : readinessPct? input.readinessRatio = some input.readinessPct :=
  div?_of_pos (by norm_num)

/-- The months are at least a thirtieth. -/
theorem paceRequiredMonthlyKobo?_eq : input.paceRequiredMonthlyKobo? input.daysRemaining =
    some input.paceRequiredMonthlyKobo := by
  unfold paceRequiredMonthlyKobo? paceRequiredMonthlyKobo
  split
  · rw [div?_of_pos (by norm_num), div?_of_pos (by norm_num), Option.bind_some, Option.bind_some,
      div?_of_pos (months_pos _), Option.map_some]
  · rfl

/-- The obligation counts as one kobo at least. -/
theorem coverageRatio?_eq : input.coverageRatio? = some input.coverageRatio := by
  unfold coverageRatio? coverageRatio
  split
  · rfl
  · rw [div?_of_pos (lt_max_of_lt_right one_pos), Option.map_some]

/-- The pace is tested before it divides. -/
theorem supportOf?_eq (income : Option ℤ) (pace : ℤ) :
    supportOf? income pace = some (supportOf income pace) := by
  cases income with
  | none => rfl
  | some income =>
    simp only [supportOf?, supportOf]
    split
    · next h =>
      have hpos : (0 : ℚ) < pace := by exact_mod_cast h.2
      rw [div?_of_pos hpos, Option.map_some]
    · rfl

/-- The obligation is tested before it divides. -/
theorem bufferRatio?_eq : input.bufferRatio? = some input.bufferRatio := by
  unfold bufferRatio? bufferRatio
  split
  · next hpos =>
    have hpos' : (0 : ℚ) < input.remainingObligationKobo := by exact_mod_cast hpos
    rw [div?_of_pos hpos', Option.map_some]
  · rfl

end StabilityInputs

/-- **No division by zero.** -/
theorem computeStability?_eq (input : StabilityInputs) :
    computeStability? input = some (computeStability input) := by
  rw [computeStability?, input.daysRemaining?_eq, input.readinessRatio?_eq,
    input.coverageRatio?_eq, input.bufferRatio?_eq]
  simp only [Option.bind_eq_bind, Option.bind_some, input.readinessPct?_eq,
    input.paceRequiredMonthlyKobo?_eq, StabilityInputs.supportOf?_eq]
  rfl

/-! ### Ranges -/

/-- Rounding keeps to an interval with integer ends. -/
theorem mathRound_mem {x : ℚ} {n : ℤ} (hlow : 0 ≤ x) (hhigh : x ≤ n) :
    0 ≤ mathRound x ∧ mathRound x ≤ n := by
  have hzero := mathRound_mono hlow
  have hn := mathRound_mono hhigh
  rw [mathRound_intCast] at hn
  have hround : mathRound 0 = 0 := by simpa using mathRound_intCast 0
  exact ⟨hround ▸ hzero, hn⟩

namespace StabilityInputs

variable (input : StabilityInputs)

theorem readinessRatio_mem : 0 ≤ input.readinessRatio ∧ input.readinessRatio ≤ 1 := by
  unfold readinessRatio
  split
  · exact ⟨clamp_nonneg _, clamp_le_one _⟩
  · exact ⟨le_rfl, zero_le_one⟩

theorem coverageRatio_mem : 0 ≤ input.coverageRatio ∧ input.coverageRatio ≤ 1 := by
  unfold coverageRatio
  split
  · exact ⟨zero_le_one, le_rfl⟩
  · exact ⟨clamp_nonneg _, clamp_le_one _⟩

theorem readinessPct_mem : 0 ≤ input.readinessPct ∧ input.readinessPct ≤ 100 := by
  obtain ⟨hlow, hhigh⟩ := input.readinessRatio_mem
  have hround := mathRound_mem (x := input.readinessRatio * 1000) (n := 1000) (by linarith)
    (by push_cast; linarith)
  have hlow' : (0 : ℚ) ≤ mathRound (input.readinessRatio * 1000) := by exact_mod_cast hround.1
  have hhigh' : (mathRound (input.readinessRatio * 1000) : ℚ) ≤ 1000 := by
    exact_mod_cast hround.2
  unfold readinessPct
  constructor <;> linarith

/-- **The range of the score**: the four weights come to a hundred. -/
theorem stabilityScore_mem : 0 ≤ input.stabilityScore ∧ input.stabilityScore ≤ 100 := by
  have hready := input.readinessRatio_mem
  have hcover := input.coverageRatio_mem
  have hsupport := supportOf_nonneg input.monthlyIncomeKobo input.paceRequiredMonthlyKobo
  have hsupport' := supportOf_le_one input.monthlyIncomeKobo input.paceRequiredMonthlyKobo
  have hbuffer : 0 ≤ input.bufferRatio := bufferRatio_nonneg
  have hbuffer' : input.bufferRatio ≤ 1 := bufferRatio_le_one
  refine mathRound_mem ?_ ?_ <;> unfold rawScore incomeSupportRatio
  · linarith
  · push_cast
    linarith

/-! ### Income -/

variable {input} {input' : StabilityInputs}

/-- No income is an income of zero. -/
theorem supportOf_eq (income : Option ℤ) (pace : ℤ) : supportOf income pace =
    if 0 < pace then clamp (income.getD 0 / pace) 0 1 else 0 := by
  have hzero : clamp 0 0 1 = 0 := clamp_of_nonpos le_rfl
  cases income with
  | none => split <;> simp [supportOf, hzero]
  | some income =>
    by_cases hincome : income = 0
    · subst hincome
      split <;> simp [supportOf, hzero]
    · simp [supportOf, hincome]

/-- A higher income supports a pace better. -/
theorem supportOf_mono {income income' : Option ℤ} (h : income.getD 0 ≤ income'.getD 0)
    (pace : ℤ) : supportOf income pace ≤ supportOf income' pace := by
  rw [supportOf_eq, supportOf_eq]
  split
  · next hpos => exact clamp_div_mono (by exact_mod_cast h) (by exact_mod_cast hpos) le_rfl
  · exact le_rfl

/-- **A higher income** gives no lower score. -/
theorem stabilityScore_income {income : Option ℤ}
    (h : input.monthlyIncomeKobo.getD 0 ≤ income.getD 0) :
    input.stabilityScore ≤ { input with monthlyIncomeKobo := income }.stabilityScore := by
  have hsupport := supportOf_mono h input.paceRequiredMonthlyKobo
  refine stabilityScore_mono ?_
  show input.readinessRatio * 40 + input.coverageRatio * 30 +
      supportOf input.monthlyIncomeKobo input.paceRequiredMonthlyKobo * 20 +
        input.bufferRatio * 10 ≤
    input.readinessRatio * 40 + input.coverageRatio * 30 +
      supportOf income input.paceRequiredMonthlyKobo * 20 + input.bufferRatio * 10
  linarith

/-- **A higher balance** gives no lower score. -/
theorem stabilityScore_balance {balance : ℤ} (h : input.estimatedBalanceKobo ≤ balance) :
    input.stabilityScore ≤ { input with estimatedBalanceKobo := balance }.stabilityScore :=
  Eased.stabilityScore ⟨rfl, le_rfl, h, rfl, rfl, rfl⟩ id

end StabilityInputs

/-- **The range of the score**, and how it depends on the balance and the income: on all inputs the
results lie in their ranges and nothing is divided by zero, and with the other inputs fixed a higher
balance or a higher income gives no lower score. -/
theorem computeStability_monotone (input : StabilityInputs) :
    (0 ≤ (computeStability input).stabilityScore ∧ (computeStability input).stabilityScore ≤ 100) ∧
    (0 ≤ (computeStability input).readinessPct ∧ (computeStability input).readinessPct ≤ 100) ∧
    0 ≤ (computeStability input).safeToSpendKobo ∧
    computeStability? input = some (computeStability input) ∧
    (∀ balance, input.estimatedBalanceKobo ≤ balance → (computeStability input).stabilityScore ≤
      (computeStability { input with estimatedBalanceKobo := balance }).stabilityScore) ∧
    ∀ income : Option ℤ, input.monthlyIncomeKobo.getD 0 ≤ income.getD 0 →
      (computeStability input).stabilityScore ≤
        (computeStability { input with monthlyIncomeKobo := income }).stabilityScore :=
  ⟨input.stabilityScore_mem, input.readinessPct_mem, StabilityInputs.safeToSpendKobo_nonneg,
    computeStability?_eq input, fun _ ↦ StabilityInputs.stabilityScore_balance,
    fun _ ↦ StabilityInputs.stabilityScore_income⟩

namespace Demo

/-- A goal that is a quarter saved for, a month ahead. -/
def quarterSaved : StabilityInputs := ⟨100000, 25000, 30 * DAY_MS, 0, -50000, none⟩

end Demo

open Demo

/-- A debt is paid off, or an income found. -/
theorem computeStability_monotone_quarter :
    (computeStability quarterSaved).stabilityScore ≤
        (computeStability { quarterSaved with estimatedBalanceKobo := 60000 }).stabilityScore ∧
      (computeStability quarterSaved).stabilityScore ≤
        (computeStability { quarterSaved with monthlyIncomeKobo := some 20000 }).stabilityScore :=
  have h := (computeStability_monotone quarterSaved).2.2.2.2
  ⟨h.1 60000 (by decide), h.2 (some 20000) (by decide)⟩

end Stead
