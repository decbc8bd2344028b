import Mathlib.Data.Rat.Floor
import Mathlib.Tactic.GCongr
import Mathlib.Tactic.Linarith
import Mathlib.Tactic.Positivity
import Mathlib.Tactic.FieldSimp
import Mathlib.Tactic.NormNum

/-!
# The stability engine

`computeStability`, with each of its intermediate values as a function of the inputs. Amounts are
whole kobo and instants whole milliseconds; quotients are exact rationals, and so is what is
rounded. `Dashboard.Doubles` has the same functions with every operation rounded.

## The score

It is the rounded sum of four terms, each a ratio between zero and one times its weight:

* the readiness, the part of the total that is saved (40);
* the coverage, the part of the remaining obligation that the balance covers (30);
* the income support, the income in terms of the required monthly pace (20);
* the buffer, safe-to-spend in terms of the obligation (10).

Each ratio has one lemma that says in which of the inputs it is monotone. The score is monotone in
the ratios (`stabilityScore_mono`), and the status in the score (`severity_statusOf`).

## The pace

The pace is the obligation over the months that remain, rounded up, and at least a thirtieth of a
month counts. It rises while the due date comes nearer (`paceRequiredMonthlyKobo_of_waiting`) and
drops to the obligation itself when the date is there, which is less than what the last day asked
for (`paceRequiredMonthlyKobo_of_due`). A goal without an obligation has no pace and so no income
support.
-/

namespace Stead

/-- The status, from the best to the worst. -/
inductive StabilityStatus where
  | stable
  | warning
  | critical
  deriving DecidableEq

/-- The order of the statuses, the best one first. -/
def StabilityStatus.severity : StabilityStatus → ℕ
  | stable => 0
  | warning => 1
  | critical => 2

/-- What the engine reads of a goal, its transactions and the clock. -/
structure StabilityInputs where
  goalTotalKobo : ℤ
  goalSavedKobo : ℤ
  dueDate : ℤ
  today : ℤ
  estimatedBalanceKobo : ℤ
  monthlyIncomeKobo : Option ℤ

/-- What it computes. -/
structure StabilityOutput where
  daysRemaining : ℤ
  remainingObligationKobo : ℤ
  readinessPct : ℚ
  paceRequiredMonthlyKobo : ℤ
  safeToSpendKobo : ℤ
  stabilityScore : ℤ
  status : StabilityStatus
  deriving DecidableEq

/-- `Math.max(low, Math.min(high, value))` -/
def clamp (value low high : ℚ) : ℚ := min high (max low value)

/-- `Math.round`: to the nearest integer, halves up. -/
def mathRound (x : ℚ) : ℤ := ⌊x + 1 / 2⌋

/-- The milliseconds of a day. -/
def DAY_MS : ℤ := 1000 * 60 * 60 * 24

/-- The status of a score: stable from 70, a warning from 40. -/
def statusOf (stabilityScore : ℤ) : StabilityStatus :=
  if 70 ≤ stabilityScore then .stable
  else if 40 ≤ stabilityScore then .warning
  else .critical

namespace StabilityInputs

variable (input : StabilityInputs)

/-- A negative total counts as none, -/
def goalTotal : ℤ := max 0 input.goalTotalKobo

/-- and so do negative savings. -/
def saved : ℤ := max 0 input.goalSavedKobo

/-- Whole days to the due date, rounded up; none after it. -/
def daysRemaining : ℤ := max 0 ⌈((input.dueDate - input.today : ℤ) : ℚ) / (DAY_MS : ℚ)⌉

/-- What the goal still needs. -/
def remainingObligationKobo : ℤ := max 0 (input.goalTotal - input.saved)

/-- The part of the total that is saved, clamped to the unit interval. -/
def readinessRatio : ℚ :=
  if 0 < input.goalTotal then clamp (input.saved / input.goalTotal) 0 1 else 0

/-- `Number((readinessRatio * 100).toFixed(1))` -/
def readinessPct : ℚ := mathRound (input.readinessRatio * 1000) / 10

/-- What has to be saved in a month, rounded up to a kobo; all of it where the goal is due. -/
def paceRequiredMonthlyKobo : ℤ :=
  if 0 < input.daysRemaining then
    ⌈(input.remainingObligationKobo : ℚ) / max ((input.daysRemaining : ℚ) / 30) (1 / 30)⌉
  else input.remainingObligationKobo

/-- What the balance has beyond the obligation. -/
def safeToSpendKobo : ℤ := max 0 (input.estimatedBalanceKobo - input.remainingObligationKobo)

/-- The part of the obligation that the balance covers. -/
def coverageRatio : ℚ :=
  if input.remainingObligationKobo = 0 then 1
  else clamp (input.estimatedBalanceKobo / max (input.remainingObligationKobo : ℚ) 1) 0 1

/-- The income support for a pace; `monthlyIncomeKobo` counts when it is there and not zero. -/
def supportOf (monthlyIncomeKobo : Option ℤ) (paceRequiredMonthlyKobo : ℤ) : ℚ :=
  match monthlyIncomeKobo with
  | some income =>
    if income ≠ 0 ∧ 0 < paceRequiredMonthlyKobo then
      clamp (income / paceRequiredMonthlyKobo) 0 1
    else 0
  | none => 0

/-- The income support at the required pace. -/
def incomeSupportRatio : ℚ := supportOf input.monthlyIncomeKobo input.paceRequiredMonthlyKobo

/-- Safe-to-spend in terms of the obligation; full where there is none. -/
def bufferRatio : ℚ :=
  if 0 < input.remainingObligationKobo then
    clamp (input.safeToSpendKobo / input.remainingObligationKobo) 0 1
  else 1

/-- The score before it is rounded. -/
def rawScore : ℚ :=
  input.readinessRatio * 40 + input.coverageRatio * 30 + input.incomeSupportRatio * 20 +
    input.bufferRatio * 10

/-- The score, rounded to an integer. -/
def stabilityScore : ℤ := mathRound input.rawScore

end StabilityInputs

/-- `computeStability`, over exact quotients. -/
def computeStability (input : StabilityInputs) : StabilityOutput where
  daysRemaining := input.daysRemaining
  remainingObligationKobo := input.remainingObligationKobo
  readinessPct := input.readinessPct
  paceRequiredMonthlyKobo := input.paceRequiredMonthlyKobo
  safeToSpendKobo := input.safeToSpendKobo
  stabilityScore := input.stabilityScore
  status := statusOf input.stabilityScore

/-! ### Clamping and rounding -/

theorem clamp_nonneg (x : ℚ) : 0 ≤ clamp x 0 1 := le_min zero_le_one (le_max_left _ _)

theorem clamp_le_one (x : ℚ) : clamp x 0 1 ≤ 1 := min_le_left _ _

/-- Clamping keeps the order. -/
theorem clamp_mono {x y : ℚ} (h : x ≤ y) : clamp x 0 1 ≤ clamp y 0 1 :=
  min_le_min_left _ (max_le_max_left _ h)

theorem clamp_of_nonpos {x : ℚ} (h : x ≤ 0) : clamp x 0 1 = 0 := by
  rw [clamp, max_eq_left h, min_eq_right zero_le_one]

theorem clamp_of_one_le {x : ℚ} (h : 1 ≤ x) : clamp x 0 1 = 1 := by
  rw [clamp, max_eq_right (zero_le_one.trans h), min_eq_left h]

/-- A share grows when what is shared grows and what it is a share of shrinks. -/
theorem clamp_div_mono {a a' b b' : ℚ} (ha : a ≤ a') (hb' : 0 < b') (hb : b' ≤ b) :
    clamp (a / b) 0 1 ≤ clamp (a' / b') 0 1 := by
  rcases le_total a 0 with hneg | hpos
  · rw [clamp_of_nonpos (div_nonpos_of_nonpos_of_nonneg hneg (hb'.le.trans hb))]
    exact clamp_nonneg _
  · exact clamp_mono (div_le_div₀ (hpos.trans ha) ha hb' hb)

theorem mathRound_mono {x y : ℚ} (h : x ≤ y) : mathRound x ≤ mathRound y :=
  Int.floor_le_floor (by linarith)

theorem mathRound_add_int (x : ℚ) (n : ℤ) : mathRound (x + n) = mathRound x + n := by
  rw [mathRound, add_right_comm, Int.floor_add_intCast, mathRound]

theorem mathRound_intCast (n : ℤ) : mathRound n = n := by
  rw [mathRound, Int.floor_eq_iff]
  constructor <;> norm_num

/-- A better score has no worse status. -/
theorem severity_statusOf {score score' : ℤ} (h : score ≤ score') :
    (statusOf score').severity ≤ (statusOf score).severity := by
  unfold statusOf
  split_ifs <;> first | omega | decide

namespace StabilityInputs

variable {input input' : StabilityInputs}

/-! ### The ratios -/

theorem remainingObligationKobo_nonneg : 0 ≤ input.remainingObligationKobo := le_max_left _ _

theorem safeToSpendKobo_nonneg : 0 ≤ input.safeToSpendKobo := le_max_left _ _

theorem daysRemaining_nonneg : 0 ≤ input.daysRemaining := le_max_left _ _

theorem readinessRatio_mono (ht : input'.goalTotalKobo = input.goalTotalKobo)
    (hs : input.goalSavedKobo ≤ input'.goalSavedKobo) :
    input.readinessRatio ≤ input'.readinessRatio := by
  have htotal : input'.goalTotal = input.goalTotal := by rw [goalTotal, goalTotal, ht]
  have hsaved : input.saved ≤ input'.saved := max_le_max_left _ hs
  rw [readinessRatio, readinessRatio, htotal]
  split
  · next hpos => exact clamp_div_mono (by exact_mod_cast hsaved) (by exact_mod_cast hpos) le_rfl
  · exact le_rfl

theorem remainingObligationKobo_anti (ht : input'.goalTotalKobo = input.goalTotalKobo)
    (hs : input.goalSavedKobo ≤ input'.goalSavedKobo) :
    input'.remainingObligationKobo ≤ input.remainingObligationKobo := by
  have htotal : input'.goalTotal = input.goalTotal := by rw [goalTotal, goalTotal, ht]
  have hsaved : input.saved ≤ input'.saved := max_le_max_left _ hs
  exact max_le_max_left _ (by omega)

/-- A higher balance covers more, and so does a lower obligation. -/
theorem coverageRatio_mono (hb : input.estimatedBalanceKobo ≤ input'.estimatedBalanceKobo)
    (hr : input'.remainingObligationKobo ≤ input.remainingObligationKobo) :
    input.coverageRatio ≤ input'.coverageRatio := by
  have hnonneg : 0 ≤ input'.remainingObligationKobo := remainingObligationKobo_nonneg
  rw [coverageRatio, coverageRatio]
  split_ifs with hzero hzero' hzero'
  · exact le_rfl
  · omega
  · exact clamp_le_one _
  · exact clamp_div_mono (by exact_mod_cast hb) (lt_max_of_lt_right one_pos)
      (max_le_max_right _ (by exact_mod_cast hr))

theorem safeToSpendKobo_mono (hb : input.estimatedBalanceKobo ≤ input'.estimatedBalanceKobo)
    (hr : input'.remainingObligationKobo ≤ input.remainingObligationKobo) :
    input.safeToSpendKobo ≤ input'.safeToSpendKobo :=
  max_le_max_left _ (by omega)

theorem bufferRatio_nonneg : 0 ≤ input.bufferRatio := by
  unfold bufferRatio
  split
  · exact clamp_nonneg _
  · exact zero_le_one

theorem bufferRatio_le_one : input.bufferRatio ≤ 1 := by
  unfold bufferRatio
  split
  · exact clamp_le_one _
  · exact le_rfl

theorem bufferRatio_mono (hb : input.estimatedBalanceKobo ≤ input'.estimatedBalanceKobo)
    (hr : input'.remainingObligationKobo ≤ input.remainingObligationKobo) :
    input.bufferRatio ≤ input'.bufferRatio := by
  by_cases hpos : 0 < input'.remainingObligationKobo
  · rw [bufferRatio, bufferRatio, if_pos (hpos.trans_le hr), if_pos hpos]
    exact clamp_div_mono (by exact_mod_cast safeToSpendKobo_mono hb hr) (by exact_mod_cast hpos)
      (by exact_mod_cast hr)
  · rw [bufferRatio.eq_1 input', if_neg hpos]
    exact bufferRatio_le_one

theorem supportOf_nonneg (income : Option ℤ) (pace : ℤ) : 0 ≤ supportOf income pace := by
  unfold supportOf
  split
  · split
    · exact clamp_nonneg _
    · exact le_rfl
  · exact le_rfl

theorem supportOf_le_one (income : Option ℤ) (pace : ℤ) : supportOf income pace ≤ 1 := by
  unfold supportOf
  split
  · split
    · exact clamp_le_one _
    · exact zero_le_one
  · exact zero_le_one

/-- An income supports a smaller pace better, as long as there is one. -/
theorem supportOf_anti (income : Option ℤ) {pace pace' : ℤ} (hpos : 0 < pace') (h : pace' ≤ pace) :
    supportOf income pace ≤ supportOf income pace' := by
  cases income with
  | none => exact le_rfl
  | some income =>
    simp only [supportOf]
    by_cases hzero : income = 0
    · simp [hzero]
    · rw [if_pos ⟨hzero, hpos.trans_le h⟩, if_pos ⟨hzero, hpos⟩]
      exact clamp_div_mono le_rfl (by exact_mod_cast hpos) (by exact_mod_cast h)

/-! ### The pace -/

/-- The months that are left, a day at least. -/
theorem months_pos (n : ℤ) : 0 < max ((n : ℚ) / 30) (1 / 30) := lt_max_of_lt_right (by norm_num)

theorem paceRequiredMonthlyKobo_pos (h : 0 < input.remainingObligationKobo) :
    0 < input.paceRequiredMonthlyKobo := by
  unfold paceRequiredMonthlyKobo
  split
  · exact Int.ceil_pos.2 (div_pos (by exact_mod_cast h) (months_pos _))
  · exact h

theorem paceRequiredMonthlyKobo_of_zero (h : input.remainingObligationKobo = 0) :
    input.paceRequiredMonthlyKobo = 0 := by
  unfold paceRequiredMonthlyKobo
  split <;> simp [h]

/-- The pace grows with the obligation. -/
theorem paceRequiredMonthlyKobo_mono (hd : input'.daysRemaining = input.daysRemaining)
    (hr : input'.remainingObligationKobo ≤ input.remainingObligationKobo) :
    input'.paceRequiredMonthlyKobo ≤ input.paceRequiredMonthlyKobo := by
  unfold paceRequiredMonthlyKobo
  rw [hd]
  split
  · exact Int.ceil_le_ceil (div_le_div_of_nonneg_right (by exact_mod_cast hr) (months_pos _).le)
  · exact hr

/-- The pace grows as the days go by, as long as there is one left. -/
theorem paceRequiredMonthlyKobo_of_waiting
    (hr : input'.remainingObligationKobo = input.remainingObligationKobo)
    (hpos : 0 < input'.daysRemaining) (hd : input'.daysRemaining ≤ input.daysRemaining) :
    input.paceRequiredMonthlyKobo ≤ input'.paceRequiredMonthlyKobo := by
  have hnonneg : 0 ≤ input.remainingObligationKobo := remainingObligationKobo_nonneg
  rw [paceRequiredMonthlyKobo, paceRequiredMonthlyKobo, if_pos hpos, if_pos (hpos.trans_le hd), hr]
  refine Int.ceil_le_ceil (div_le_div_of_nonneg_left (by exact_mod_cast hnonneg) (months_pos _) ?_)
  exact max_le_max_right _ (div_le_div_of_nonneg_right (by exact_mod_cast hd) (by norm_num))

/-- A month or more ahead the pace is within the obligation. -/
theorem paceRequiredMonthlyKobo_le (h : 30 ≤ input.daysRemaining) :
    input.paceRequiredMonthlyKobo ≤ input.remainingObligationKobo := by
  have hnonneg : 0 ≤ input.remainingObligationKobo := remainingObligationKobo_nonneg
  rw [paceRequiredMonthlyKobo, if_pos (by omega), Int.ceil_le]
  refine div_le_self (by exact_mod_cast hnonneg) (le_max_of_le_left ?_)
  rw [le_div_iff₀ (by norm_num), one_mul]
  exact_mod_cast h

/-- Where the goal is due, the pace is the obligation. -/
theorem paceRequiredMonthlyKobo_of_due (h : input.daysRemaining = 0) :
    input.paceRequiredMonthlyKobo = input.remainingObligationKobo := by
  rw [paceRequiredMonthlyKobo, if_neg (by omega)]

/-! ### The score -/

/-- The score follows the sum of the terms. -/
theorem stabilityScore_mono (h : input.rawScore ≤ input'.rawScore) :
    input.stabilityScore ≤ input'.stabilityScore :=
  mathRound_mono h

/-- A raw score that is at most `n` higher is at most `n` higher when it is rounded. -/
theorem stabilityScore_le_add (n : ℤ) (h : input.rawScore ≤ input'.rawScore + n) :
    input.stabilityScore ≤ input'.stabilityScore + n := by
  rw [stabilityScore, stabilityScore, ← mathRound_add_int]
  exact mathRound_mono h

end StabilityInputs

end Stead
