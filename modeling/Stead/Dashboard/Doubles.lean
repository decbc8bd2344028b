import Stead.Dashboard.Stability
import Stead.Numbers.Binary64

/-!
# The dashboard in double precision

The numbers of the dashboard are doubles: `Number` of a stored amount, sums of these, and the
quotients and products of the engine. `Dashboard.Engine` takes the quotients as exact; here every
operation is rounded. Whether the score falls by ten or by eleven is a matter of the last digit.

## Whole amounts

Sums and differences of whole kobo are exact as long as they stay below `2 ^ 53`. Where the amounts
of a user and the total of the goal come to less than `2 ^ 52` kobo together (`Moderate`), all sums
that the engine forms do, and the obligation and safe-to-spend are those of the exact engine
(`remainingObligationKobo_ofExact`, `safeToSpendKobo_ofExact`). Beyond that an expense can be
lost in a sum altogether (`spending_worsens_status`).

## The score

An expense within safe-to-spend changes the last of the four terms only. The term is at most ten,
and it is added last: before the expense the score is that of `round (S + 10)` at most, and after it
that of `S` at least, where `S` is the rounded sum of the other terms.

* The sum `S + 10` is rounded where it is of a later binade than `S`. So a fall of eleven points is
  possible, from just below a half to a half.
* Around the thresholds of the status `S` and `S + 10` are of the same binade, `S + 10` is not
  rounded (`Binary64.round_round_add`), and a score of 80 or 50 does not fall below 70 or 40
  (`le_of_le_round_add_ten`).
-/

namespace Stead

namespace Doubles

open Binary64 (add sub mul div)

/-! ### The engine -/

/-- `StabilityInputs`, with amounts that are doubles. -/
structure StabilityInputs where
  goalTotalKobo : ℚ
  goalSavedKobo : ℚ
  /-- `dueDate.getTime()` -/
  dueDate : ℤ
  today : ℤ
  estimatedBalanceKobo : ℚ
  monthlyIncomeKobo : Option ℚ

/-- `StabilityOutput`, with amounts that are doubles. -/
structure StabilityOutput where
  daysRemaining : ℤ
  remainingObligationKobo : ℚ
  readinessPct : ℚ
  paceRequiredMonthlyKobo : ℚ
  safeToSpendKobo : ℚ
  stabilityScore : ℤ
  status : StabilityStatus
  deriving DecidableEq

namespace StabilityInputs

variable (input : StabilityInputs)

/-- A negative total counts as none, -/
def goalTotal : ℚ := max 0 input.goalTotalKobo

/-- and so do negative savings. -/
def saved : ℚ := max 0 input.goalSavedKobo

/-- Whole days to the due date, rounded up; none after it. -/
def daysRemaining : ℤ := max 0 ⌈div (sub input.dueDate input.today) DAY_MS⌉

/-- What the goal still needs. -/
def remainingObligationKobo : ℚ := max 0 (sub input.goalTotal input.saved)

/-- The part of the total that is saved, clamped to the unit interval. -/
def readinessRatio : ℚ :=
  if 0 < input.goalTotal then clamp (div input.saved input.goalTotal) 0 1 else 0

/-- `Number((readinessRatio * 100).toFixed(1))`: the nearest tenth, halves up, as a double. -/
def readinessPct : ℚ := div (mathRound (mul input.readinessRatio 100 * 10)) 10

/-- What has to be saved in a month, rounded up to a kobo; all of it where the goal is due. -/
def paceRequiredMonthlyKobo : ℚ :=
  if 0 < input.daysRemaining then
    ⌈div input.remainingObligationKobo (max (div input.daysRemaining 30) (div 1 30))⌉
  else input.remainingObligationKobo

/-- What the balance has beyond the obligation. -/
def safeToSpendKobo : ℚ := max 0 (sub input.estimatedBalanceKobo input.remainingObligationKobo)

/-- The part of the obligation that the balance covers. -/
def coverageRatio : ℚ :=
  if input.remainingObligationKobo = 0 then 1
  else clamp (div input.estimatedBalanceKobo (max input.remainingObligationKobo 1)) 0 1

/-- The income support for a pace; `monthlyIncomeKobo` counts when it is there and not zero. -/
def supportOf (monthlyIncomeKobo : Option ℚ) (paceRequiredMonthlyKobo : ℚ) : ℚ :=
  match monthlyIncomeKobo with
  | some income =>
    if income ≠ 0 ∧ 0 < paceRequiredMonthlyKobo then
      clamp (div income paceRequiredMonthlyKobo) 0 1
    else 0
  | none => 0

/-- The income support at the required pace. -/
def incomeSupportRatio : ℚ := supportOf input.monthlyIncomeKobo input.paceRequiredMonthlyKobo

/-- Safe-to-spend in terms of the obligation; full where there is none. -/
def bufferRatio : ℚ :=
  if 0 < input.remainingObligationKobo then
    clamp (div input.safeToSpendKobo input.remainingObligationKobo) 0 1
  else 1

/-- The first two terms of the score. -/
def fundingScore : ℚ := add (mul input.readinessRatio 40) (mul input.coverageRatio 30)

/-- The score before it is rounded to an integer; the terms are added from left to right. -/
def rawScore : ℚ :=
  add (add input.fundingScore (mul input.incomeSupportRatio 20)) (mul input.bufferRatio 10)

/-- `Math.round` of the sum of the four terms. -/
def stabilityScore : ℤ := mathRound input.rawScore

end StabilityInputs

/-- `computeStability`, every operation rounded. -/
def computeStability (input : StabilityInputs) : StabilityOutput where
  daysRemaining := input.daysRemaining
  remainingObligationKobo := input.remainingObligationKobo
  readinessPct := input.readinessPct
  paceRequiredMonthlyKobo := input.paceRequiredMonthlyKobo
  safeToSpendKobo := input.safeToSpendKobo
  stabilityScore := input.stabilityScore
  status := statusOf input.stabilityScore

/-! ### The dashboard -/

/-- `Number(amountKobo)` -/
def number (amountKobo : ℤ) : ℚ := Binary64.round amountKobo

/-- `direction === 'in' ? sum + amount : sum - amount` -/
def addSigned (sum : ℚ) (tx : LedgerEntry) : ℚ :=
  if tx.direction = "in" then add sum (number tx.amountKobo) else sub sum (number tx.amountKobo)

/-- The sum over all transactions, from the first to the last. -/
def estimatedBalance (transactions : List LedgerEntry) : ℚ := transactions.foldl addSigned 0

/-- The sum over those that are linked to the goal. -/
def goalSaved (goalId : ℕ) (transactions : List LedgerEntry) : ℚ :=
  transactions.foldl (fun sum tx ↦ if tx.goalId ≠ some goalId then sum else addSigned sum tx) 0

/-- The inputs of the engine for a goal and the transactions of its user. -/
def stabilityInputs (goal : Goal) (transactions : List LedgerEntry) (today : ℤ) :
    StabilityInputs where
  goalTotalKobo := number goal.amountTotalKobo
  goalSavedKobo := goalSaved goal.id transactions
  dueDate := goal.dueDate
  today := today
  estimatedBalanceKobo := estimatedBalance transactions
  monthlyIncomeKobo := goal.income.map number

/-- `metrics` of the answer. -/
structure StabilityMetrics extends StabilityOutput where
  goalSavedKobo : ℚ
  estimatedBalanceKobo : ℚ
  deriving DecidableEq

/-- `goal` of the answer. -/
structure StabilityGoal where
  id : ℕ
  name : String
  amountTotalKobo : ℚ
  dueDate : ℤ
  monthlyIncomeKobo : Option ℚ
  deriving DecidableEq

/-- The answer: no goal, or a goal with its metrics. -/
inductive DashboardStabilityResponse where
  | notOk (message : String)
  | ok (goal : StabilityGoal) (metrics : StabilityMetrics)
  deriving DecidableEq

/-- The goal of the answer. -/
def stabilityGoal (goal : Goal) : StabilityGoal :=
  ⟨goal.id, goal.name, number goal.amountTotalKobo, goal.dueDate, goal.income.map number⟩

/-- The metrics of the answer. -/
def stabilityMetrics (goal : Goal) (transactions : List LedgerEntry) (today : ℤ) :
    StabilityMetrics where
  toStabilityOutput := computeStability (stabilityInputs goal transactions today)
  goalSavedKobo := goalSaved goal.id transactions
  estimatedBalanceKobo := estimatedBalance transactions

/-- `getStability`, on the tables it reads. -/
def getStability (goals : List Goal) (ledger : List LedgerEntry) (userId : ℕ) (today : ℤ) :
    DashboardStabilityResponse :=
  match activeGoal goals userId with
  | none => .notOk "No active goal found"
  | some goal =>
    .ok (stabilityGoal goal) (stabilityMetrics goal (transactionsOf ledger userId) today)

/-- An answer with metrics is about the active goal. -/
theorem getStability_eq_ok {goals : List Goal} {ledger : List LedgerEntry} {userId : ℕ} {today : ℤ}
    {g : StabilityGoal} {m : StabilityMetrics}
    (h : getStability goals ledger userId today = .ok g m) :
    ∃ goal, activeGoal goals userId = some goal ∧ g = stabilityGoal goal ∧
      m = stabilityMetrics goal (transactionsOf ledger userId) today := by
  unfold getStability at h
  split at h
  · cases h
  · next goal hgoal =>
    cases h
    exact ⟨goal, hgoal, rfl, rfl⟩

/-! ### Whole amounts -/

/-- The amounts of a list of transactions, whatever their direction. -/
def turnover (transactions : List LedgerEntry) : ℤ :=
  (transactions.map fun tx ↦ |tx.amountKobo|).sum

/-- The transactions of the user and the total of the goal come to less than `2 ^ 52` kobo. -/
def Moderate (goals : List Goal) (ledger : List LedgerEntry) (userId : ℕ) : Prop :=
  ∀ goal, activeGoal goals userId = some goal →
    |goal.amountTotalKobo| + turnover (transactionsOf ledger userId) < 2 ^ 52

/-- The turnover is a sum of absolute values. -/
theorem turnover_nonneg (transactions : List LedgerEntry) : 0 ≤ turnover transactions :=
  List.sum_nonneg fun n hn ↦ by
    obtain ⟨tx, -, rfl⟩ := List.mem_map.1 hn
    exact abs_nonneg _

/-- Fewer transactions have a smaller one. -/
theorem turnover_sublist {transactions transactions' : List LedgerEntry}
    (h : transactions.Sublist transactions') : turnover transactions ≤ turnover transactions' := by
  refine (h.map _).sum_le_sum fun n hn ↦ ?_
  obtain ⟨tx, -, rfl⟩ := List.mem_map.1 hn
  exact abs_nonneg _

/-- The sign of a transaction is its direction. -/
theorem abs_signed (tx : LedgerEntry) : |tx.signed| = |tx.amountKobo| := by
  unfold LedgerEntry.signed
  split
  · rfl
  · exact abs_neg _

/-- A step of the sums is exact below `2 ^ 53`. -/
theorem addSigned_intCast {sum : ℤ} {tx : LedgerEntry} (h : |sum| + |tx.amountKobo| < 2 ^ 53) :
    addSigned sum tx = (sum + tx.signed : ℤ) := by
  have hamount : number tx.amountKobo = tx.amountKobo :=
    Binary64.round_intCast (by have := abs_nonneg sum; omega)
  have hsum : |sum + tx.signed| < 2 ^ 53 := by
    have := abs_add_le sum tx.signed
    rw [abs_signed] at this
    omega
  have hround := Binary64.round_intCast hsum
  unfold addSigned
  rw [hamount]
  unfold LedgerEntry.signed at hround ⊢
  split at hround <;> next hin =>
    simp only [hin, if_true, if_false] at hround ⊢
    rw [← hround]
    simp only [add, sub]
    push_cast
    ring_nf

/-- **The sums are exact** as long as all amounts together are. -/
theorem foldl_addSigned (transactions : List LedgerEntry) (sum : ℤ)
    (h : |sum| + turnover transactions < 2 ^ 53) : transactions.foldl addSigned (sum : ℚ) =
      (transactions.foldl (fun sum tx ↦ sum + tx.signed) sum : ℤ) := by
  induction transactions generalizing sum with
  | nil => rfl
  | cons tx rest ih =>
    have hturnover : turnover (tx :: rest) = |tx.amountKobo| + turnover rest := by
      simp [turnover]
    have hrest := turnover_nonneg rest
    rw [List.foldl_cons, List.foldl_cons, addSigned_intCast (by omega)]
    refine ih _ ?_
    have := abs_add_le sum tx.signed
    rw [abs_signed] at this
    omega

/-- **The balance** is exact below `2 ^ 53`. -/
theorem estimatedBalance_eq_cast {transactions : List LedgerEntry}
    (h : turnover transactions < 2 ^ 53) :
    estimatedBalance transactions = Stead.estimatedBalance transactions :=
  foldl_addSigned transactions 0 (by simpa using h)

theorem goalSaved_eq_cast {goalId : ℕ} {transactions : List LedgerEntry}
    (h : turnover transactions < 2 ^ 53) :
    goalSaved goalId transactions = Stead.goalSaved goalId transactions := by
  have hlinked : ∀ {β : Type} (f : β → LedgerEntry → β) (b : β),
      transactions.foldl (fun sum tx ↦ if tx.goalId ≠ some goalId then sum else f sum tx) b =
        (transactions.filter (·.goalId = some goalId)).foldl f b := by
    intro β f b
    rw [List.foldl_filter]
    congr 1
    funext sum tx
    by_cases htx : tx.goalId = some goalId <;> simp [htx]
  rw [goalSaved, Stead.goalSaved, hlinked, hlinked]
  have hle := turnover_sublist (List.filter_sublist (l := transactions)
    (p := fun tx ↦ decide (tx.goalId = some goalId)))
  exact foldl_addSigned _ 0 (by rw [abs_zero, zero_add]; omega)

/-- The estimated balance does not exceed the turnover. -/
theorem abs_estimatedBalance_le (transactions : List LedgerEntry) :
    |Stead.estimatedBalance transactions| ≤ turnover transactions := by
  rw [Stead.estimatedBalance_eq]
  induction transactions with
  | nil => simp [turnover]
  | cons tx rest ih =>
    have := abs_add_le tx.signed (rest.map LedgerEntry.signed).sum
    rw [abs_signed] at this
    simp only [List.map_cons, List.sum_cons, turnover] at ih ⊢
    omega

/-- The savings are a part of the turnover. -/
theorem abs_goalSaved_le (goalId : ℕ) (transactions : List LedgerEntry) :
    |Stead.goalSaved goalId transactions| ≤ turnover transactions := by
  rw [Stead.goalSaved_eq, ← Stead.estimatedBalance_eq]
  exact (abs_estimatedBalance_le _).trans (turnover_sublist List.filter_sublist)

/-! ### The exact engine and this one -/

/-- The inputs of the exact engine as doubles. -/
def ofExact (input : Stead.StabilityInputs) : StabilityInputs where
  goalTotalKobo := input.goalTotalKobo
  goalSavedKobo := input.goalSavedKobo
  dueDate := input.dueDate
  today := input.today
  estimatedBalanceKobo := input.estimatedBalanceKobo
  monthlyIncomeKobo := input.monthlyIncomeKobo.map number

/-- The amounts of the inputs come to less than `2 ^ 53` kobo. -/
def Small (input : Stead.StabilityInputs) : Prop :=
  |input.goalTotalKobo| + |input.goalSavedKobo| + |input.estimatedBalanceKobo| < 2 ^ 53

/-- Moderate amounts are inputs that leave room for a difference. -/
theorem stabilityInputs_small {goal : Goal} {transactions : List LedgerEntry}
    (h : |goal.amountTotalKobo| + turnover transactions < 2 ^ 52) (today : ℤ) :
    Small (Stead.stabilityInputs goal transactions today) := by
  have hsaved := abs_goalSaved_le goal.id transactions
  have hbalance := abs_estimatedBalance_le transactions
  have htotal := abs_nonneg goal.amountTotalKobo
  show |goal.amountTotalKobo| + |Stead.goalSaved goal.id transactions| +
    |Stead.estimatedBalance transactions| < 2 ^ 53
  omega

/-- **Moderate inputs** are those of the exact engine. -/
theorem stabilityInputs_eq {goal : Goal} {transactions : List LedgerEntry}
    (h : |goal.amountTotalKobo| + turnover transactions < 2 ^ 52) (today : ℤ) :
    stabilityInputs goal transactions today =
      ofExact (Stead.stabilityInputs goal transactions today) := by
  have hturnover := turnover_nonneg transactions
  have htotal := abs_nonneg goal.amountTotalKobo
  rw [stabilityInputs, ofExact, estimatedBalance_eq_cast (by omega), goalSaved_eq_cast (by omega),
    number, Binary64.round_intCast (by omega)]
  rfl

section Exact

variable {input : Stead.StabilityInputs}

theorem goalTotal_ofExact : (ofExact input).goalTotal = input.goalTotal := by
  unfold StabilityInputs.goalTotal Stead.StabilityInputs.goalTotal
  push_cast
  rfl

theorem saved_ofExact : (ofExact input).saved = input.saved := by
  unfold StabilityInputs.saved Stead.StabilityInputs.saved
  push_cast
  rfl

/-- **The obligation** is that of the exact engine. -/
theorem remainingObligationKobo_ofExact (h : Small input) :
    (ofExact input).remainingObligationKobo = input.remainingObligationKobo := by
  have hsmall : |input.goalTotal - input.saved| < 2 ^ 53 := by
    have hbalance := abs_nonneg input.estimatedBalanceKobo
    have htotal := abs_le.1 (le_refl |input.goalTotalKobo|)
    have hsaved := abs_le.1 (le_refl |input.goalSavedKobo|)
    unfold Small at h
    unfold Stead.StabilityInputs.goalTotal Stead.StabilityInputs.saved
    rw [abs_lt]
    omega
  rw [StabilityInputs.remainingObligationKobo, Stead.StabilityInputs.remainingObligationKobo,
    goalTotal_ofExact, saved_ofExact, sub, ← Int.cast_sub, Binary64.round_intCast hsmall]
  push_cast
  rfl

/-- **Safe-to-spend** is that of the exact engine. -/
theorem safeToSpendKobo_ofExact (h : Small input) :
    (ofExact input).safeToSpendKobo = input.safeToSpendKobo := by
  have hsmall : |input.estimatedBalanceKobo - input.remainingObligationKobo| < 2 ^ 53 := by
    have hbalance := abs_le.1 (le_refl |input.estimatedBalanceKobo|)
    have htotal := abs_le.1 (le_refl |input.goalTotalKobo|)
    have hsaved := abs_nonneg input.goalSavedKobo
    unfold Small at h
    unfold Stead.StabilityInputs.remainingObligationKobo Stead.StabilityInputs.goalTotal
      Stead.StabilityInputs.saved
    rw [abs_lt]
    omega
  rw [StabilityInputs.safeToSpendKobo, Stead.StabilityInputs.safeToSpendKobo,
    remainingObligationKobo_ofExact h, sub,
    show (ofExact input).estimatedBalanceKobo = input.estimatedBalanceKobo from rfl,
    ← Int.cast_sub, Binary64.round_intCast hsmall]
  push_cast
  rfl

end Exact

/-! ### The terms of the score -/

section Score

/-- A share of at least one is one. -/
theorem clamp_div_of_le {x y : ℚ} (hy : 0 < y) (h : y ≤ x) : clamp (div x y) 0 1 = 1 := by
  refine clamp_of_one_le ?_
  have hone : Binary64.round 1 = 1 := by
    simpa using Binary64.round_intCast (n := 1) (by decide)
  rw [← hone]
  exact Binary64.round_mono zero_le_one ((one_le_div₀ hy).2 h)

/-- A weighted ratio lies between nought and its weight. -/
theorem mul_clamped {x : ℚ} {n : ℤ} (h : 0 ≤ x ∧ x ≤ 1) (hn : 0 ≤ n) (hn' : n < 2 ^ 53) :
    0 ≤ mul x n ∧ mul x n ≤ n := by
  have hn0 : (0 : ℚ) ≤ n := by exact_mod_cast hn
  have hround := Binary64.round_intCast (n := n) (by rwa [abs_of_nonneg hn])
  refine ⟨Binary64.round_nonneg (mul_nonneg h.1 hn0), ?_⟩
  calc mul x n ≤ Binary64.round n :=
        Binary64.round_mono (mul_nonneg h.1 hn0) (mul_le_of_le_one_left hn0 h.2)
    _ = n := hround

/-- Bounds that are integers survive a rounded sum. -/
theorem add_bounded {x y : ℚ} {n m : ℤ} (hx : 0 ≤ x ∧ x ≤ n) (hy : 0 ≤ y ∧ y ≤ m)
    (hsum : n + m < 2 ^ 53) : 0 ≤ add x y ∧ add x y ≤ (n + m : ℤ) := by
  have hnonneg : (0 : ℚ) ≤ (n + m : ℤ) := by
    push_cast
    linarith [hx.1, hx.2, hy.1, hy.2]
  have hround := Binary64.round_intCast (n := n + m)
    (by rwa [abs_of_nonneg (by exact_mod_cast hnonneg)])
  refine ⟨Binary64.round_nonneg (add_nonneg hx.1 hy.1), ?_⟩
  calc add x y ≤ Binary64.round (n + m : ℤ) := by
        refine Binary64.round_mono (add_nonneg hx.1 hy.1) ?_
        push_cast
        linarith [hx.2, hy.2]
    _ = (n + m : ℤ) := hround

variable {input : StabilityInputs}

/-- What is clamped lies in the unit interval. -/
theorem clamped (x : ℚ) : 0 ≤ clamp x 0 1 ∧ clamp x 0 1 ≤ 1 := ⟨clamp_nonneg x, clamp_le_one x⟩

theorem readinessRatio_clamped (input : StabilityInputs) :
    0 ≤ input.readinessRatio ∧ input.readinessRatio ≤ 1 := by
  unfold StabilityInputs.readinessRatio
  split
  · exact clamped _
  · exact ⟨le_rfl, zero_le_one⟩

theorem coverageRatio_clamped (input : StabilityInputs) :
    0 ≤ input.coverageRatio ∧ input.coverageRatio ≤ 1 := by
  unfold StabilityInputs.coverageRatio
  split
  · exact ⟨zero_le_one, le_rfl⟩
  · exact clamped _

theorem incomeSupportRatio_clamped (input : StabilityInputs) :
    0 ≤ input.incomeSupportRatio ∧ input.incomeSupportRatio ≤ 1 := by
  unfold StabilityInputs.incomeSupportRatio StabilityInputs.supportOf
  split
  · split
    · exact clamped _
    · exact ⟨le_rfl, zero_le_one⟩
  · exact ⟨le_rfl, zero_le_one⟩

theorem bufferRatio_clamped (input : StabilityInputs) :
    0 ≤ input.bufferRatio ∧ input.bufferRatio ≤ 1 := by
  unfold StabilityInputs.bufferRatio
  split
  · exact clamped _
  · exact ⟨zero_le_one, le_rfl⟩

/-- The terms of the score other than the buffer, before their sum is rounded. -/
def exceptBuffer (input : StabilityInputs) : ℚ :=
  input.fundingScore + mul input.incomeSupportRatio 20

/-- The first three terms come to ninety at most. -/
theorem exceptBuffer_bounded (input : StabilityInputs) :
    0 ≤ exceptBuffer input ∧ exceptBuffer input ≤ 90 := by
  have hready := mul_clamped (n := 40) (readinessRatio_clamped input) (by decide)
    (by decide)
  have hcover := mul_clamped (n := 30) (coverageRatio_clamped input) (by decide)
    (by decide)
  have hsupport := mul_clamped (n := 20) (incomeSupportRatio_clamped input) (by decide)
    (by decide)
  have hfunding := add_bounded hready hcover (by decide)
  push_cast at hfunding hsupport
  unfold exceptBuffer StabilityInputs.fundingScore
  constructor <;> linarith [hfunding.1, hfunding.2, hsupport.1, hsupport.2]

/-- The last term is added to the rounded sum of the others. -/
theorem rawScore_eq : input.rawScore =
    add (Binary64.round (exceptBuffer input)) (mul input.bufferRatio 10) := rfl

/-- The sum of the other terms is at most 90. -/
theorem round_exceptBuffer_bounded (input : StabilityInputs) :
    0 ≤ Binary64.round (exceptBuffer input) ∧ Binary64.round (exceptBuffer input) ≤ 90 := by
  have h := exceptBuffer_bounded input
  have hround : Binary64.round 90 = 90 := by
    simpa using Binary64.round_intCast (n := 90) (by decide)
  exact ⟨Binary64.round_nonneg h.1, hround ▸ Binary64.round_mono h.1 h.2⟩

/-- The score is at most the one with a full buffer. -/
theorem rawScore_le : input.rawScore ≤ Binary64.round (Binary64.round (exceptBuffer input) + 10) := by
  have hbuffer := mul_clamped (n := 10) (bufferRatio_clamped input) (by decide)
    (by decide)
  have hother := round_exceptBuffer_bounded input
  push_cast at hbuffer
  rw [rawScore_eq]
  exact Binary64.round_mono (add_nonneg hother.1 hbuffer.1) (add_le_add_right hbuffer.2 _)

/-- A number that the other terms reach is reached by the score. -/
theorem le_rawScore {t : ℚ} (h0 : 0 ≤ t) (ht : Binary64.round t = t)
    (h : t ≤ Binary64.round (exceptBuffer input)) : t ≤ input.rawScore := by
  have hbuffer := mul_clamped (n := 10) (bufferRatio_clamped input) (by decide)
    (by decide)
  push_cast at hbuffer
  rw [rawScore_eq]
  calc t = Binary64.round t := ht.symm
    _ ≤ add (Binary64.round (exceptBuffer input)) (mul input.bufferRatio 10) :=
      Binary64.round_mono h0 (h.trans (le_add_of_nonneg_right hbuffer.1))

/-- The last sum is off by much less than a half. -/
theorem abs_rawScore_sub_le (input : StabilityInputs) :
    |input.rawScore - (Binary64.round (exceptBuffer input) +
      mul input.bufferRatio 10)| ≤ 1 / 2 := by
  have hbuffer := mul_clamped (n := 10) (bufferRatio_clamped input) (by decide)
    (by decide)
  have hother := round_exceptBuffer_bounded input
  push_cast at hbuffer
  rw [rawScore_eq]
  refine (Binary64.abs_round_sub_le (n := 7) ?_ (by decide)).trans (by norm_num)
  rw [abs_of_nonneg (add_nonneg hother.1 hbuffer.1)]
  norm_num
  linarith [hother.2, hbuffer.2]

/-- **Around a threshold ten is added without an error.** When `t` is at most ten below the end of
a binade, ten more than a rounded sum below `t` stays below `t + 10`. -/
theorem le_of_le_round_add_ten {z t : ℚ} {k : ℕ} (hk : k ≤ 52) (hz : 0 ≤ z) (hlow : 2 ^ k < t)
    (hhigh : t + 10 ≤ 2 ^ (k + 1)) (h : t + 10 ≤ Binary64.round (Binary64.round z + 10)) :
    t ≤ Binary64.round z := by
  by_contra hlt
  rw [not_le] at hlt
  have hpow : (2 : ℤ) ^ k ≤ 2 ^ 52 := pow_le_pow_right₀ one_le_two hk
  have hpos : (0 : ℤ) < 2 ^ k := pow_pos two_pos k
  rcases le_or_gt (2 ^ k) z with hbinade | hbinade
  · have hexact := Binary64.round_round_add (x := z) (k := k) (n := 10) (by omega) (by omega)
      (by exact_mod_cast hbinade) (by decide) (by
        push_cast
        exact (add_lt_add_left hlt 10).trans_le (by exact_mod_cast hhigh))
    push_cast at hexact
    rw [hexact] at h
    linarith
  · -- The sum is of an earlier binade, so it is not even near.
    have hz' : Binary64.round z ≤ 2 ^ k := by
      have hround := Binary64.round_intCast (n := 2 ^ k) (by rw [abs_of_pos hpos]; omega)
      push_cast at hround
      exact hround ▸ Binary64.round_mono hz hbinade.le
    have hround := Binary64.round_intCast (n := 2 ^ k + 10)
      (by rw [abs_of_pos (by omega)]; omega)
    push_cast at hround
    have hle := Binary64.round_mono (add_nonneg (Binary64.round_nonneg hz) (by norm_num))
      (add_le_add_left hz' 10)
    rw [hround] at hle
    linarith

/-- A score of `n` needs half a point less than `n`. -/
theorem le_stabilityScore_iff {n : ℤ} :
    n ≤ input.stabilityScore ↔ (n : ℚ) - 1 / 2 ≤ input.rawScore := by
  rw [StabilityInputs.stabilityScore, mathRound, Int.le_floor]
  constructor <;> intro h <;> linarith

/-- Around a threshold a score that is ten above it does not fall below it when the buffer is
spent. -/
theorem le_stabilityScore_of_add_ten {input' : StabilityInputs} {n : ℤ} {k : ℕ} (hk : k ≤ 51)
    (hrest : exceptBuffer input' = exceptBuffer input) (hlow : (2 : ℤ) ^ k < n)
    (hhigh : n + 10 ≤ 2 ^ (k + 1)) (h : n + 10 ≤ input.stabilityScore) :
    n ≤ input'.stabilityScore := by
  have hpow : (2 : ℤ) ^ (k + 1) ≤ 2 ^ 52 := pow_le_pow_right₀ one_le_two (by omega)
  have hpos : (0 : ℤ) < 2 ^ k := pow_pos two_pos k
  have hlow' : (2 : ℚ) ^ k + 1 ≤ n := by exact_mod_cast hlow
  have hhigh' : (n : ℚ) + 10 ≤ 2 ^ (k + 1) := by exact_mod_cast hhigh
  rw [le_stabilityScore_iff] at h ⊢
  push_cast at h
  have hreach : (n : ℚ) - 1 / 2 ≤ Binary64.round (exceptBuffer input) :=
    le_of_le_round_add_ten (k := k) (by omega) (exceptBuffer_bounded input).1 (by linarith)
      (by linarith) ((by linarith : (n : ℚ) - 1 / 2 + 10 ≤ input.rawScore).trans rawScore_le)
  have hpos' : (0 : ℚ) < 2 ^ k := pow_pos two_pos k
  refine le_rawScore (by linarith) ?_ (hrest.symm ▸ hreach)
  have hhalf := Binary64.round_intMul (n := 2 * n - 1) (e := -1)
    (by rw [abs_of_pos (by omega)]; omega) (by decide)
  have heq : ((2 * n - 1 : ℤ) : ℚ) * 2 ^ (-1 : ℤ) = n - 1 / 2 := by
    push_cast
    rw [zpow_neg_one]
    ring
  rwa [heq] at hhalf

/-- Spending the buffer takes eleven points at most: ten, and one for the rounding. -/
theorem stabilityScore_le_add_eleven {input' : StabilityInputs}
    (hrest : exceptBuffer input' = exceptBuffer input) :
    input.stabilityScore ≤ input'.stabilityScore + 11 := by
  have hbuffer := mul_clamped (n := 10) (bufferRatio_clamped input) (by decide)
    (by decide)
  have hbuffer' := mul_clamped (n := 10) (bufferRatio_clamped input') (by decide)
    (by decide)
  push_cast at hbuffer hbuffer'
  have hraw := abs_le.1 (abs_rawScore_sub_le input)
  have hraw' := abs_le.1 (abs_rawScore_sub_le input')
  rw [hrest] at hraw'
  rw [StabilityInputs.stabilityScore, StabilityInputs.stabilityScore, ← mathRound_add_int]
  refine mathRound_mono ?_
  push_cast
  linarith [hraw.2, hraw'.1, hbuffer.2, hbuffer'.1]

end Score

/-! ### Spending -/

section Spending

variable {input input' : Stead.StabilityInputs} {amount : ℤ}

/-- An expense within safe-to-spend leaves the other terms of the score as they are. -/
theorem exceptBuffer_spent (h : input.Spent input' amount) (hpos : 0 < amount)
    (hsmall : Small input) (hsmall' : Small input') (hsafe : amount ≤ input.safeToSpendKobo) :
    exceptBuffer (ofExact input') = exceptBuffer (ofExact input) := by
  have htotal : (ofExact input').goalTotal = (ofExact input).goalTotal := by
    rw [goalTotal_ofExact, goalTotal_ofExact, Stead.StabilityInputs.goalTotal,
      Stead.StabilityInputs.goalTotal, h.total]
  have hsaved : (ofExact input').saved = (ofExact input).saved := by
    rw [saved_ofExact, saved_ofExact, Stead.StabilityInputs.saved, Stead.StabilityInputs.saved,
      h.saved]
  have hremaining : (ofExact input').remainingObligationKobo =
      (ofExact input).remainingObligationKobo := by
    rw [remainingObligationKobo_ofExact hsmall, remainingObligationKobo_ofExact hsmall',
      h.remaining]
  have hready : (ofExact input').readinessRatio = (ofExact input).readinessRatio := by
    rw [StabilityInputs.readinessRatio, StabilityInputs.readinessRatio, htotal, hsaved]
  have hdays : (ofExact input').daysRemaining = (ofExact input).daysRemaining := by
    unfold StabilityInputs.daysRemaining ofExact
    rw [h.due, h.today]
  have hpace : (ofExact input').paceRequiredMonthlyKobo =
      (ofExact input).paceRequiredMonthlyKobo := by
    rw [StabilityInputs.paceRequiredMonthlyKobo, StabilityInputs.paceRequiredMonthlyKobo, hdays,
      hremaining]
  have hincome : (ofExact input').monthlyIncomeKobo = (ofExact input).monthlyIncomeKobo :=
    congrArg (Option.map number) h.income
  have hsupport : (ofExact input').incomeSupportRatio = (ofExact input).incomeSupportRatio := by
    rw [StabilityInputs.incomeSupportRatio, StabilityInputs.incomeSupportRatio, hincome, hpace]
  have hcover : (ofExact input').coverageRatio = (ofExact input).coverageRatio := by
    rw [StabilityInputs.coverageRatio, StabilityInputs.coverageRatio, hremaining]
    split
    · rfl
    · next hne =>
      -- What is spent is beyond the obligation, before and after.
      rw [remainingObligationKobo_ofExact hsmall] at hne ⊢
      have howed : 0 < input.remainingObligationKobo :=
        lt_of_le_of_ne Stead.StabilityInputs.remainingObligationKobo_nonneg
          fun h0 ↦ hne (by rw [← h0, Int.cast_zero])
      have hbalance := h.balance
      have hcovers : input.remainingObligationKobo ≤ input.estimatedBalanceKobo - amount := by
        unfold Stead.StabilityInputs.safeToSpendKobo at hsafe
        omega
      have hone : (1 : ℚ) ≤ input.remainingObligationKobo := by exact_mod_cast howed
      rw [max_eq_left hone, clamp_div_of_le (one_pos.trans_le hone), clamp_div_of_le
        (one_pos.trans_le hone)]
      · show (input.remainingObligationKobo : ℚ) ≤ input.estimatedBalanceKobo
        exact_mod_cast (by omega : input.remainingObligationKobo ≤ input.estimatedBalanceKobo)
      · show (input.remainingObligationKobo : ℚ) ≤ input'.estimatedBalanceKobo
        rw [hbalance]
        exact_mod_cast hcovers
  rw [exceptBuffer, exceptBuffer, StabilityInputs.fundingScore, StabilityInputs.fundingScore,
    hready, hcover, hsupport]

/-- While safe-to-spend covers the obligation as well, the buffer is full. -/
theorem bufferRatio_full (hsmall : Small input)
    (h : input.remainingObligationKobo ≤ input.safeToSpendKobo) :
    (ofExact input).bufferRatio = 1 := by
  unfold StabilityInputs.bufferRatio
  rw [remainingObligationKobo_ofExact hsmall, safeToSpendKobo_ofExact hsmall]
  split
  · next hpos => exact clamp_div_of_le hpos (by exact_mod_cast h)
  · rfl

/-- While the buffer lasts the score stays. -/
theorem stabilityScore_spent (h : input.Spent input' amount) (hpos : 0 < amount)
    (hsmall : Small input) (hsmall' : Small input') (hsafe : amount ≤ input.safeToSpendKobo)
    (hbuffer : input.remainingObligationKobo ≤ input.safeToSpendKobo - amount) :
    (ofExact input').stabilityScore = (ofExact input).stabilityScore := by
  have hfull : (ofExact input').bufferRatio = 1 := by
    refine bufferRatio_full hsmall' ?_
    rw [h.remaining, h.safeToSpendKobo hpos.le hsafe]
    exact hbuffer
  rw [StabilityInputs.stabilityScore, StabilityInputs.stabilityScore, rawScore_eq, rawScore_eq,
    exceptBuffer_spent h hpos hsmall hsmall' hsafe, hfull, bufferRatio_full hsmall (by omega)]

end Spending

section Ledger

variable {goals : List Goal} {before after : List LedgerEntry} {userId : ℕ} {today : ℤ}
  {tx : LedgerEntry}

/-- **Spending within safe-to-spend.** The balance still covers the obligation, what was spent comes
out of safe-to-spend, and the score falls by eleven at most: not at all while the rest of
safe-to-spend is at least the obligation. So the status is not worse unless the score was less than
ten above its threshold. -/
theorem spending_within_safe_to_spend (huser : tx.userId = userId) (hunlinked : tx.goalId = none)
    (hout : tx.direction = "out") (hpos : 0 < tx.amountKobo)
    (hmoderate : Moderate goals (before ++ tx :: after) userId) {g : StabilityGoal}
    {m m' : StabilityMetrics} (h : getStability goals (before ++ after) userId today = .ok g m)
    (hsafe : tx.amountKobo ≤ m.safeToSpendKobo)
    (h' : getStability goals (before ++ tx :: after) userId today = .ok g m') :
    (m.remainingObligationKobo ≤ m.estimatedBalanceKobo →
      m'.remainingObligationKobo ≤ m'.estimatedBalanceKobo) ∧
      m'.safeToSpendKobo = m.safeToSpendKobo - tx.amountKobo ∧
        m.stabilityScore ≤ m'.stabilityScore + 11 ∧
          (m.remainingObligationKobo ≤ m.safeToSpendKobo - tx.amountKobo →
            m'.stabilityScore = m.stabilityScore) ∧
            (¬ (70 ≤ m.stabilityScore ∧ m.stabilityScore < 80) →
              ¬ (40 ≤ m.stabilityScore ∧ m.stabilityScore < 50) →
                m'.status.severity ≤ m.status.severity) := by
  obtain ⟨goal, hgoal, -, rfl⟩ := getStability_eq_ok h
  obtain ⟨goal', hgoal', -, rfl⟩ := getStability_eq_ok h'
  obtain rfl : goal = goal' := Option.some.inj (hgoal.symm.trans hgoal')
  set input := Stead.stabilityInputs goal (transactionsOf (before ++ after) userId) today with hin
  set input' := Stead.stabilityInputs goal (transactionsOf (before ++ tx :: after) userId) today
    with hin'
  have hbound' := hmoderate goal hgoal
  have hbound : |goal.amountTotalKobo| + turnover (transactionsOf (before ++ after) userId) <
      2 ^ 52 := by
    have hle := turnover_sublist (((List.sublist_cons_self tx after).append_left before).filter
      fun tx ↦ decide (tx.userId = userId))
    exact (add_le_add_right hle _).trans_lt hbound'
  have hsmall : Small input := stabilityInputs_small hbound today
  have hsmall' : Small input' := stabilityInputs_small hbound' today
  have hspent : input.Spent input' tx.amountKobo :=
    stabilityInputs_spent tx goal before after today huser hout hunlinked
  -- The metrics are those of the inputs of the exact engine.
  simp only [stabilityMetrics, computeStability, stabilityInputs_eq hbound,
    stabilityInputs_eq hbound', ← hin, ← hin', remainingObligationKobo_ofExact hsmall,
    remainingObligationKobo_ofExact hsmall', safeToSpendKobo_ofExact hsmall,
    safeToSpendKobo_ofExact hsmall'] at hsafe ⊢
  have hbalance : estimatedBalance (transactionsOf (before ++ after) userId) =
      input.estimatedBalanceKobo :=
    congrArg StabilityInputs.estimatedBalanceKobo (stabilityInputs_eq hbound today)
  have hbalance' : estimatedBalance (transactionsOf (before ++ tx :: after) userId) =
      input'.estimatedBalanceKobo :=
    congrArg StabilityInputs.estimatedBalanceKobo (stabilityInputs_eq hbound' today)
  rw [hbalance, hbalance']
  have hsafe' : tx.amountKobo ≤ input.safeToSpendKobo := by exact_mod_cast hsafe
  have hrest := exceptBuffer_spent hspent hpos hsmall hsmall' hsafe'
  refine ⟨fun hcovers ↦ ?_, ?_, stabilityScore_le_add_eleven hrest, fun hbuffer ↦ ?_,
    fun hstable hwarning ↦ ?_⟩
  · exact_mod_cast hspent.covers hsafe' (by exact_mod_cast hcovers)
  · exact_mod_cast hspent.safeToSpendKobo hpos.le hsafe'
  · exact stabilityScore_spent hspent hpos hsmall hsmall' hsafe' (by exact_mod_cast hbuffer)
  · have hstable' := le_stabilityScore_of_add_ten (n := 70) (k := 6) (by decide) hrest (by decide)
      (by decide)
    have hwarning' := le_stabilityScore_of_add_ten (n := 40) (k := 5) (by decide) hrest (by decide)
      (by decide)
    unfold statusOf
    split_ifs <;> first | decide | omega

end Ledger

/-! ### Goals a month away -/

namespace Demo

open Stead.Demo

/-- What the dashboard says on day zero of a goal and a ledger. -/
def metricsOf (goal : Goal) (ledger : List LedgerEntry) : StabilityMetrics :=
  stabilityMetrics goal (transactionsOf ledger 0) 0

/-- A saving of seven tenths and more, all of which the balance can lose. -/
def savings : List LedgerEntry := [saving 66000]

/-- A deposit that is a double, of which a single kobo cannot be taken. -/
def fortune : List LedgerEntry := [saving 2000, deposit (2 ^ 54)]

/-- What the two examples below are about, evaluated. -/
theorem metricsOf_examples :
    (metricsOf (goalOf 2000 500) [deposit 1000, saving 1000]).safeToSpendKobo = 1000 ∧
    ¬ (metricsOf (goalOf 2000 500) [deposit 1000, saving 1000, expense 1000]).status.severity ≤
      (metricsOf (goalOf 2000 500) [deposit 1000, saving 1000]).status.severity ∧
    (metricsOf (goalOf 90000 5000) savings).safeToSpendKobo = 42000 ∧
    (metricsOf (goalOf 90000 5000) savings).stabilityScore = 74 ∧
    (metricsOf (goalOf 90000 5000) (savings ++ [expense 42000])).stabilityScore = 63 ∧
    1 ≤ (metricsOf (goalOf 2000 500) fortune).safeToSpendKobo ∧
    (metricsOf (goalOf 2000 500) (fortune ++ [expense 1])).safeToSpendKobo =
      (metricsOf (goalOf 2000 500) fortune).safeToSpendKobo := by
  decide +kernel

/-- The savings of the example are moderate. -/
theorem moderate_savings :
    Moderate [goalOf 90000 5000] (savings ++ expense 42000 :: []) 0 := by
  intro goal hgoal
  obtain rfl : goalOf 90000 5000 = goal := Option.some.inj hgoal
  decide

end Demo

section Examples

open Stead.Demo Demo

/-- All of safe-to-spend is spent; the score falls from 74 to 63. -/
theorem spending_within_safe_to_spend_all :
    (metricsOf (goalOf 90000 5000) (savings ++ [expense 42000])).safeToSpendKobo = 0 := by
  obtain ⟨-, -, hsafe, -⟩ := metricsOf_examples
  refine (@spending_within_safe_to_spend [goalOf 90000 5000] savings [] 0 0 (expense 42000) rfl rfl
    rfl (by decide) moderate_savings (stabilityGoal (goalOf 90000 5000)) _ _ rfl
    (hsafe.ge.trans' (by decide)) rfl).2.1.trans ?_
  rw [show savings ++ [] = savings from rfl]
  exact (congrArg (· - 42000) hsafe).trans (sub_self _)

/-- **Spending all of safe-to-spend costs the status.** The score falls from 70 to 60, because the
buffer counts for ten. It can also fall by eleven. And of a balance of `2 ^ 54` kobo an expense of
one kobo takes nothing. -/
theorem spending_worsens_status :
    (¬ ∀ (goals : List Goal) (ledger : List LedgerEntry) (userId : ℕ) (today : ℤ) (tx : LedgerEntry)
      (g : StabilityGoal) (m m' : StabilityMetrics), tx.userId = userId → tx.goalId = none →
        tx.direction = "out" → 0 < tx.amountKobo → tx.amountKobo ≤ m.safeToSpendKobo →
          getStability goals ledger userId today = .ok g m →
            getStability goals (ledger ++ [tx]) userId today = .ok g m' →
              m'.status.severity ≤ m.status.severity) ∧
    (¬ ∀ (goals : List Goal) (ledger : List LedgerEntry) (userId : ℕ) (today : ℤ) (tx : LedgerEntry)
      (g : StabilityGoal) (m m' : StabilityMetrics), tx.userId = userId → tx.goalId = none →
        tx.direction = "out" → 0 < tx.amountKobo → tx.amountKobo ≤ m.safeToSpendKobo →
          getStability goals ledger userId today = .ok g m →
            getStability goals (ledger ++ [tx]) userId today = .ok g m' →
              m'.safeToSpendKobo = m.safeToSpendKobo - tx.amountKobo) ∧
    ∃ goals ledger tx g m m', tx.goalId = none ∧ tx.direction = "out" ∧ 0 < tx.amountKobo ∧
      (tx.amountKobo : ℚ) ≤ m.safeToSpendKobo ∧ getStability goals ledger 0 0 = .ok g m ∧
        getStability goals (ledger ++ [tx]) 0 0 = .ok g m' ∧
          m.stabilityScore = m'.stabilityScore + 11 := by
  obtain ⟨hsafe, hworse, hsafe', hbefore, hafter, hkobo, hlost⟩ := metricsOf_examples
  refine ⟨fun h ↦ ?_, fun h ↦ ?_, ?_⟩
  · exact hworse (h [goalOf 2000 500] [deposit 1000, saving 1000] 0 0 (expense 1000)
      (stabilityGoal (goalOf 2000 500)) _ _ rfl rfl rfl (by decide) (hsafe.ge.trans' (by decide))
      rfl rfl)
  -- The balance is no integer that doubles tell from the next one.
  · have heq := h [goalOf 2000 500] fortune 0 0 (expense 1) (stabilityGoal (goalOf 2000 500)) _ _
      rfl rfl rfl (by decide) (by exact_mod_cast hkobo) rfl rfl
    have heq' := hlost.symm.trans heq
    rw [show (expense 1).amountKobo = 1 from rfl, Int.cast_one] at heq'
    exact absurd heq' (ne_of_gt (sub_one_lt _))
  · exact ⟨[goalOf 90000 5000], savings, expense 42000, stabilityGoal (goalOf 90000 5000), _, _, rfl,
      rfl, by decide, hsafe'.ge.trans' (by decide), rfl, rfl,
      hbefore.trans (congrArg (· + 11) hafter).symm⟩

end Examples

end Doubles

end Stead
