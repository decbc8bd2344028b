import Stead.Dashboard.Service

/-!
# What the score does when the ledger or the date changes

## Earning

Money that comes in never makes the status worse, and the score falls only where the last of the
obligation is paid, which takes the income support away (`earning_never_worsens`). `Eased` says of
two inputs that the second has a higher balance or more savings and nothing else; one lemma serves
the linked and the unlinked transaction.

## Waiting

Waiting lowers the score, except that the pace that is required drops at the due date: the months
that remain count as a thirtieth at least, but a goal that is due needs its obligation once, and not
thirty times in a month (`waiting_never_improves`). `Later` says of two inputs that only time has
passed.

## Spending

An expense within safe-to-spend is covered and comes out of it (`Spent.covers`,
`Spent.safeToSpendKobo`); what it costs in points is a matter of rounding, for which see
`Dashboard.Doubles`. What is saved for the goal is part of the balance, so safe-to-spend offers it
(`safe_to_spend_keeps_goal_iff`).
-/

namespace Stead

namespace StabilityInputs

variable {input input' : StabilityInputs}

/-- No pace, no support. -/
theorem supportOf_zero (income : Option ℤ) : supportOf income 0 = 0 := by
  cases income <;> simp [supportOf]

/-- The score of a goal that is funded. -/
theorem rawScore_of_funded (ht : 0 < input.goalTotal) (h : input.remainingObligationKobo = 0) :
    input.rawScore = 80 := by
  have hsaved : input.goalTotal ≤ input.saved := by
    unfold remainingObligationKobo at h
    omega
  have hready : input.readinessRatio = 1 := by
    rw [readinessRatio, if_pos ht]
    exact clamp_of_one_le ((one_le_div₀ (by exact_mod_cast ht)).2 (by exact_mod_cast hsaved))
  have hcover : input.coverageRatio = 1 := if_pos h
  have hsupport : input.incomeSupportRatio = 0 := by
    rw [incomeSupportRatio, paceRequiredMonthlyKobo_of_zero h, supportOf_zero]
  have hbuffer : input.bufferRatio = 1 := if_neg (by omega)
  rw [rawScore, hready, hcover, hsupport, hbuffer]
  norm_num

/-- The inputs with no less saved and no less balance. -/
structure Eased (input input' : StabilityInputs) : Prop where
  total : input'.goalTotalKobo = input.goalTotalKobo
  saved : input.goalSavedKobo ≤ input'.goalSavedKobo
  balance : input.estimatedBalanceKobo ≤ input'.estimatedBalanceKobo
  income : input'.monthlyIncomeKobo = input.monthlyIncomeKobo
  due : input'.dueDate = input.dueDate
  today : input'.today = input.today

/-- **More savings and more balance** give no lower score, as long as the obligation that there was
is not all paid. -/
theorem Eased.stabilityScore (h : Eased input input')
    (hstill : 0 < input.remainingObligationKobo → 0 < input'.remainingObligationKobo) :
    input.stabilityScore ≤ input'.stabilityScore := by
  have hr := remainingObligationKobo_anti h.total h.saved
  have hready := readinessRatio_mono h.total h.saved
  have hcover := coverageRatio_mono h.balance hr
  have hbuffer := bufferRatio_mono h.balance hr
  have hdays : input'.daysRemaining = input.daysRemaining := by
    rw [daysRemaining, daysRemaining, h.due, h.today]
  have hsupport : input.incomeSupportRatio ≤ input'.incomeSupportRatio := by
    rw [incomeSupportRatio, incomeSupportRatio, h.income]
    by_cases hpos : 0 < input'.remainingObligationKobo
    · exact supportOf_anti _ (paceRequiredMonthlyKobo_pos hpos)
        (paceRequiredMonthlyKobo_mono hdays hr)
    · have hnonneg : 0 ≤ input.remainingObligationKobo := remainingObligationKobo_nonneg
      have hnonneg' : 0 ≤ input'.remainingObligationKobo := remainingObligationKobo_nonneg
      rw [paceRequiredMonthlyKobo_of_zero (by omega),
        paceRequiredMonthlyKobo_of_zero (by omega)]
  refine stabilityScore_mono ?_
  unfold StabilityInputs.rawScore
  linarith

/-- Where the last of the obligation is paid, the score is 80. -/
theorem Eased.stabilityScore_or_funded (h : Eased input input') :
    input.stabilityScore ≤ input'.stabilityScore ∨ 0 < input.remainingObligationKobo ∧
      input'.remainingObligationKobo = 0 ∧ input'.stabilityScore = 80 := by
  have hnonneg : 0 ≤ input'.remainingObligationKobo := remainingObligationKobo_nonneg
  by_cases howed : 0 < input.remainingObligationKobo
  · rcases hnonneg.eq_or_lt with hpaid | hstill
    · refine .inr ⟨howed, hpaid.symm, ?_⟩
      have htotal : 0 < input'.goalTotal := by
        have ht := h.total
        unfold remainingObligationKobo goalTotal StabilityInputs.saved at howed
        unfold goalTotal
        omega
      rw [StabilityInputs.stabilityScore, rawScore_of_funded htotal hpaid.symm]
      exact mathRound_intCast 80
    · exact .inl (h.stabilityScore fun _ ↦ hstill)
  · exact .inl (h.stabilityScore fun hpos ↦ absurd hpos howed)

/-! #### Waiting -/

/-- A goal is due when its date is there. -/
theorem daysRemaining_eq_zero : input.daysRemaining = 0 ↔ input.dueDate ≤ input.today := by
  have hday : (0 : ℚ) < DAY_MS := by norm_num [DAY_MS]
  rw [daysRemaining, max_eq_left_iff, Int.ceil_le, Int.cast_zero, div_le_iff₀ hday, zero_mul,
    ← Int.cast_zero, Int.cast_le]
  omega

/-- The days only become fewer. -/
theorem daysRemaining_anti (hdue : input'.dueDate = input.dueDate)
    (ht : input.today ≤ input'.today) : input'.daysRemaining ≤ input.daysRemaining := by
  have hday : (0 : ℚ) ≤ DAY_MS := by norm_num [DAY_MS]
  refine max_le_max_left _ (Int.ceil_le_ceil (div_le_div_of_nonneg_right ?_ hday))
  exact_mod_cast (by omega : input'.dueDate - input'.today ≤ input.dueDate - input.today)

/-- The inputs at another time. -/
structure Later (input input' : StabilityInputs) : Prop where
  total : input'.goalTotalKobo = input.goalTotalKobo
  saved : input'.goalSavedKobo = input.goalSavedKobo
  balance : input'.estimatedBalanceKobo = input.estimatedBalanceKobo
  income : input'.monthlyIncomeKobo = input.monthlyIncomeKobo
  due : input'.dueDate = input.dueDate
  today : input.today ≤ input'.today

/-- Time does not pay anything. -/
theorem Later.remaining (h : Later input input') :
    input'.remainingObligationKobo = input.remainingObligationKobo := by
  rw [remainingObligationKobo, remainingObligationKobo, goalTotal, goalTotal, StabilityInputs.saved,
    StabilityInputs.saved, h.total, h.saved]

/-- Time changes the income support only. -/
theorem Later.rawScore (h : Later input input') : input'.rawScore - input.rawScore =
    (input'.incomeSupportRatio - input.incomeSupportRatio) * 20 := by
  have hready : input'.readinessRatio = input.readinessRatio :=
    le_antisymm (readinessRatio_mono h.total.symm h.saved.le)
      (readinessRatio_mono h.total h.saved.ge)
  have hcover : input'.coverageRatio = input.coverageRatio :=
    le_antisymm (coverageRatio_mono h.balance.le h.remaining.ge)
      (coverageRatio_mono h.balance.ge h.remaining.le)
  have hbuffer : input'.bufferRatio = input.bufferRatio :=
    le_antisymm (bufferRatio_mono h.balance.le h.remaining.ge)
      (bufferRatio_mono h.balance.ge h.remaining.le)
  rw [StabilityInputs.rawScore, StabilityInputs.rawScore, hready, hcover, hbuffer]
  ring

/-- The pace does not fall while time passes, except from the last month to the due date. -/
theorem Later.pace (h : Later input input') :
    input.paceRequiredMonthlyKobo ≤ input'.paceRequiredMonthlyKobo ∨
      (0 < input.daysRemaining ∧ input.daysRemaining < 30) ∧ input'.daysRemaining = 0 := by
  have hdays := daysRemaining_anti h.due h.today
  have hnonneg : 0 ≤ input'.daysRemaining := daysRemaining_nonneg
  rcases hnonneg.eq_or_lt with hdue | hpos
  · rw [paceRequiredMonthlyKobo_of_due hdue.symm, h.remaining]
    by_cases hzero : input.daysRemaining = 0
    · exact .inl (paceRequiredMonthlyKobo_of_due hzero).le
    · by_cases hmonth : 30 ≤ input.daysRemaining
      · exact .inl (paceRequiredMonthlyKobo_le hmonth)
      · exact .inr ⟨⟨by omega, by omega⟩, hdue.symm⟩
  · exact .inl (paceRequiredMonthlyKobo_of_waiting h.remaining hpos hdays)

/-- An income that supports a pace in full, or not at all, supports no other one better. -/
theorem supportOf_le_of_not_between {income : Option ℤ} {pace pace' : ℤ} (hpos : 0 < pace)
    (h : ∀ n, income = some n → 0 < n → pace ≤ n) :
    supportOf income pace' ≤ supportOf income pace := by
  cases income with
  | none => exact le_rfl
  | some n =>
    rcases lt_trichotomy n 0 with hneg | rfl | hn
    · refine le_trans (b := 0) ?_ (supportOf_nonneg _ _)
      simp only [supportOf]
      split
      · next hand =>
        refine (clamp_of_nonpos (div_nonpos_of_nonpos_of_nonneg ?_ ?_)).le
        · exact_mod_cast hneg.le
        · exact_mod_cast hand.2.le
      · exact le_rfl
    · simp [supportOf]
    · refine (supportOf_le_one _ _).trans ?_
      simp only [supportOf]
      rw [if_pos ⟨hn.ne', hpos⟩, clamp_of_one_le]
      rw [one_le_div₀ (by exact_mod_cast hpos)]
      exact_mod_cast h n rfl hn

/-- **Waiting** lowers the score, unless the due date is reached within the last month, with an
income that was below the pace; then the score rises by twenty at most. -/
theorem Later.stabilityScore (h : Later input input') :
    input'.stabilityScore ≤ input.stabilityScore ∨
      ((0 < input.daysRemaining ∧ input.daysRemaining < 30) ∧ input'.daysRemaining = 0) ∧
        (∃ n, input.monthlyIncomeKobo = some n ∧ 0 < n ∧ n < input.paceRequiredMonthlyKobo) ∧
          input'.stabilityScore ≤ input.stabilityScore + 20 := by
  have hraw := h.rawScore
  have hlower : input'.incomeSupportRatio ≤ input.incomeSupportRatio →
      input'.stabilityScore ≤ input.stabilityScore := fun hle ↦
    stabilityScore_mono (by linarith)
  have hnonneg : 0 ≤ input.remainingObligationKobo := remainingObligationKobo_nonneg
  rcases hnonneg.eq_or_lt with hfunded | howed
  · -- Nothing is owed, so there is no pace to support.
    refine .inl (hlower (le_of_eq ?_))
    rw [incomeSupportRatio, incomeSupportRatio, paceRequiredMonthlyKobo_of_zero hfunded.symm,
      paceRequiredMonthlyKobo_of_zero (h.remaining.trans hfunded.symm), h.income]
  have hpos := paceRequiredMonthlyKobo_pos howed
  rcases h.pace with hpace | hdays
  · refine .inl (hlower ?_)
    rw [incomeSupportRatio, incomeSupportRatio, h.income]
    exact supportOf_anti _ hpos hpace
  · by_cases hincome : ∃ n, input.monthlyIncomeKobo = some n ∧ 0 < n ∧
        n < input.paceRequiredMonthlyKobo
    · refine .inr ⟨hdays, hincome, stabilityScore_le_add 20 ?_⟩
      have hone : input'.incomeSupportRatio ≤ 1 := supportOf_le_one _ _
      have hzero : 0 ≤ input.incomeSupportRatio := supportOf_nonneg _ _
      push_cast
      linarith
    · refine .inl (hlower ?_)
      rw [incomeSupportRatio, incomeSupportRatio, h.income]
      refine supportOf_le_of_not_between hpos fun n hn hn' ↦ ?_
      by_contra hlt
      exact hincome ⟨n, hn, hn', by omega⟩

/-! #### Spending -/

/-- The inputs after an expense that is not linked to the goal. -/
structure Spent (input input' : StabilityInputs) (amount : ℤ) : Prop where
  total : input'.goalTotalKobo = input.goalTotalKobo
  saved : input'.goalSavedKobo = input.goalSavedKobo
  balance : input'.estimatedBalanceKobo = input.estimatedBalanceKobo - amount
  income : input'.monthlyIncomeKobo = input.monthlyIncomeKobo
  due : input'.dueDate = input.dueDate
  today : input'.today = input.today

variable {amount : ℤ}

/-- An expense that is not linked to the goal leaves what the goal still needs. -/
theorem Spent.remaining (h : Spent input input' amount) :
    input'.remainingObligationKobo = input.remainingObligationKobo := by
  rw [remainingObligationKobo, remainingObligationKobo, goalTotal, goalTotal, StabilityInputs.saved,
    StabilityInputs.saved, h.total, h.saved]

/-- An expense within safe-to-spend comes out of it. -/
theorem Spent.safeToSpendKobo (h : Spent input input' amount) (hnonneg : 0 ≤ amount)
    (hsafe : amount ≤ input.safeToSpendKobo) :
    input'.safeToSpendKobo = input.safeToSpendKobo - amount := by
  have hr := h.remaining
  have hb := h.balance
  unfold StabilityInputs.safeToSpendKobo at hsafe ⊢
  omega

/-- What covered the obligation still covers it. -/
theorem Spent.covers (h : Spent input input' amount) (hsafe : amount ≤ input.safeToSpendKobo)
    (hcovers : input.remainingObligationKobo ≤ input.estimatedBalanceKobo) :
    input'.remainingObligationKobo ≤ input'.estimatedBalanceKobo := by
  have hr := h.remaining
  have hb := h.balance
  unfold StabilityInputs.safeToSpendKobo at hsafe
  omega

end StabilityInputs

section Ledger

variable {goals : List Goal} {before after : List LedgerEntry} {userId : ℕ} {today : ℤ}
  {tx : LedgerEntry}

/-- A transaction of the user that adds to the sums eases the inputs. -/
theorem stabilityInputs_eased (goal : Goal) (before after : List LedgerEntry) (today : ℤ)
    (huser : tx.userId = userId) (hsigned : 0 ≤ tx.signed) :
    (stabilityInputs goal (transactionsOf (before ++ after) userId) today).Eased
      (stabilityInputs goal (transactionsOf (before ++ tx :: after) userId) today) where
  total := rfl
  saved := by
    show goalSaved _ _ ≤ goalSaved _ _
    rw [goalSaved_insert before after huser]
    split <;> omega
  balance := by
    show estimatedBalance _ ≤ estimatedBalance _
    rw [estimatedBalance_insert before after huser]
    omega
  income := rfl
  due := rfl
  today := rfl

/-- An expense of the user that is not linked to the goal. -/
theorem stabilityInputs_spent (tx : LedgerEntry) (goal : Goal) (before after : List LedgerEntry) (today : ℤ)
    (huser : tx.userId = userId)
    (hout : tx.direction = "out") (hunlinked : tx.goalId = none) :
    (stabilityInputs goal (transactionsOf (before ++ after) userId) today).Spent
      (stabilityInputs goal (transactionsOf (before ++ tx :: after) userId) today)
        tx.amountKobo where
  total := rfl
  saved := by
    show goalSaved _ _ = goalSaved _ _
    rw [goalSaved_insert before after huser, hunlinked, if_neg (by simp), add_zero]
  balance := by
    show estimatedBalance _ = estimatedBalance _ - _
    rw [estimatedBalance_insert before after huser, LedgerEntry.signed, hout, if_neg (by decide)]
    omega
  income := rfl
  due := rfl
  today := rfl

/-- **Money that comes in** never makes the status worse, and lowers the score only where it pays
the last of the obligation, down to 80. An expense that is not linked to the goal and is taken back
never lowers the score. -/
theorem earning_never_worsens (huser : tx.userId = userId) (hpos : 0 < tx.amountKobo)
    {g : StabilityGoal} {m m' : StabilityMetrics}
    (h : getStability goals (before ++ after) userId today = .ok g m)
    (h' : getStability goals (before ++ tx :: after) userId today = .ok g m') :
    (tx.direction = "in" → m'.status.severity ≤ m.status.severity ∧
      (m.stabilityScore ≤ m'.stabilityScore ∨
        0 < m.remainingObligationKobo ∧ m'.remainingObligationKobo = 0 ∧
          m'.stabilityScore = 80)) ∧
      (tx.direction = "out" → tx.goalId = none → m'.stabilityScore ≤ m.stabilityScore) := by
  obtain ⟨goal, hgoal, -, rfl⟩ := getStability_eq_ok h
  rw [getStability_of_active hgoal] at h'
  cases h'
  refine ⟨fun hin ↦ ?_, fun hout hunlinked ↦ ?_⟩
  · have hsigned : 0 ≤ tx.signed := by
      rw [LedgerEntry.signed, if_pos hin]
      exact hpos.le
    have hscore := (stabilityInputs_eased goal before after today huser
      hsigned).stabilityScore_or_funded
    refine ⟨?_, hscore⟩
    rcases hscore with hle | ⟨-, -, hfunded⟩
    · exact severity_statusOf hle
    · show (statusOf _).severity ≤ _
      rw [hfunded]
      exact Nat.zero_le _
  · have hspent := stabilityInputs_spent tx goal before after today huser hout hunlinked
    have heased : StabilityInputs.Eased _ _ := ⟨hspent.total.symm, hspent.saved.le,
      by rw [hspent.balance]; omega, hspent.income.symm, hspent.due.symm, hspent.today.symm⟩
    exact heased.stabilityScore fun howed ↦ hspent.remaining ▸ howed

/-- **Waiting** never improves the score, unless it reaches the due date from within the last
thirty days while money is owed and the income was below the pace; the score then rises by twenty
at most. -/
theorem waiting_never_improves {ledger : List LedgerEntry} {t₁ t₂ : ℤ} (ht : t₁ ≤ t₂)
    {g : StabilityGoal} {m₁ m₂ : StabilityMetrics}
    (h₁ : getStability goals ledger userId t₁ = .ok g m₁)
    (h₂ : getStability goals ledger userId t₂ = .ok g m₂) :
    m₂.stabilityScore ≤ m₁.stabilityScore ∨
      (t₁ < g.dueDate ∧ m₁.daysRemaining < 30 ∧ g.dueDate ≤ t₂) ∧
        (∃ n, g.monthlyIncomeKobo = some n ∧ 0 < n ∧ n < m₁.paceRequiredMonthlyKobo) ∧
          m₂.stabilityScore ≤ m₁.stabilityScore + 20 := by
  obtain ⟨goal, hgoal, rfl, rfl⟩ := getStability_eq_ok h₁
  rw [getStability_of_active hgoal] at h₂
  cases h₂
  have hlater : (stabilityInputs goal (transactionsOf ledger userId) t₁).Later
    (stabilityInputs goal (transactionsOf ledger userId) t₂) := ⟨rfl, rfl, rfl, rfl, rfl, ht⟩
  refine hlater.stabilityScore.imp id ?_
  rintro ⟨⟨⟨hpos, hmonth⟩, hdue⟩, hincome, hrise⟩
  refine ⟨⟨?_, hmonth, StabilityInputs.daysRemaining_eq_zero.1 hdue⟩, hincome, hrise⟩
  by_contra hpast
  have := StabilityInputs.daysRemaining_eq_zero.2
    (not_lt.1 hpast : (stabilityInputs goal (transactionsOf ledger userId) t₁).dueDate ≤ t₁)
  omega

/-- The sum of what the user's transactions that are linked to a goal come to. -/
def linkedSum (goalId : ℕ) (ledger : List LedgerEntry) (userId : ℕ) : ℤ :=
  ((ledger.filter fun tx ↦ tx.userId = userId && tx.goalId = some goalId).map
    LedgerEntry.signed).sum

/-- The savings toward a goal, read off the ledger. -/
theorem goalSaved_transactionsOf (goalId : ℕ) (ledger : List LedgerEntry) :
    goalSaved goalId (transactionsOf ledger userId) = linkedSum goalId ledger userId := by
  rw [goalSaved_eq, transactionsOf, List.filter_filter, linkedSum]
  congr 2
  exact List.filter_congr fun tx _ ↦ Bool.and_comm _ _

end Ledger

/-! ### A goal a month away -/

namespace Demo

/-- The instant `n` days into the example. -/
def goalDay (n : ℤ) : ℤ := n * DAY_MS

/-- A goal that is due on day thirty, with an income. -/
def goalOf (amountTotalKobo monthlyIncomeKobo : ℤ) : Goal :=
  ⟨0, 0, "Rent", amountTotalKobo, goalDay 30, some monthlyIncomeKobo, true, 0⟩

/-- What the answer says of a goal. -/
def viewOf (goal : Goal) : StabilityGoal :=
  ⟨goal.id, goal.name, goal.amountTotalKobo, goal.dueDate, goal.income⟩

/-- Money that comes in, -/
def deposit (amountKobo : ℤ) : LedgerEntry := ⟨0, none, amountKobo, "in"⟩

/-- money that comes in for the goal, -/
def saving (amountKobo : ℤ) : LedgerEntry := ⟨0, some 0, amountKobo, "in"⟩

/-- and money that goes out. -/
def expense (amountKobo : ℤ) : LedgerEntry := ⟨0, none, amountKobo, "out"⟩

/-- What the dashboard says of a goal and a ledger on a day. -/
def metricsOn (day : ℤ) (goal : Goal) (ledger : List LedgerEntry) : StabilityMetrics :=
  stabilityMetrics goal (transactionsOf ledger 0) (goalDay day)

end Demo

section Examples

open Demo

/-- What the dashboard says in the examples below. -/
theorem metricsOn_examples :
    (metricsOn 0 (goalOf 100000 5000) [deposit 100, deposit 50000]).remainingObligationKobo ≠ 0 ∧
    (metricsOn 0 (goalOf 100000 5000000) [deposit 200000, saving 99999]).stabilityScore = 100 ∧
    (metricsOn 0 (goalOf 100000 5000000) [deposit 200000, saving 99999, saving 1]).stabilityScore =
      80 ∧
    (metricsOn 29 (goalOf 60000 60000) []).stabilityScore = 1 ∧
    (metricsOn 30 (goalOf 60000 60000) []).stabilityScore = 20 ∧
    (metricsOn 0 (goalOf 100000 5000) [deposit 50000, saving 50000]).safeToSpendKobo = 50000 := by
  decide +kernel

/-- A deposit while the goal is not funded. -/
theorem earning_never_worsens_deposit :
    (metricsOn 0 (goalOf 100000 5000) [deposit 100]).stabilityScore ≤
      (metricsOn 0 (goalOf 100000 5000) [deposit 100, deposit 50000]).stabilityScore := by
  have howed := metricsOn_examples.1
  refine ((@earning_never_worsens [goalOf 100000 5000] [deposit 100] [] 0 (goalDay 0)
    (deposit 50000) rfl (by decide) (viewOf (goalOf 100000 5000)) _ _ rfl rfl).1 rfl).2.resolve_right
      fun h ↦ howed h.2.1

/-- **The last deposit lowers the score.** A goal that lacks one kobo scores 100, and 80 when it is
paid: the income no longer has a pace to support. -/
theorem last_saving_lowers_score :
    ¬ ∀ (goals : List Goal) (ledger : List LedgerEntry) (userId : ℕ) (today : ℤ) (tx : LedgerEntry)
      (g : StabilityGoal) (m m' : StabilityMetrics), tx.userId = userId → tx.direction = "in" →
        0 < tx.amountKobo → getStability goals ledger userId today = .ok g m →
          getStability goals (ledger ++ [tx]) userId today = .ok g m' →
            m.stabilityScore ≤ m'.stabilityScore := by
  intro h
  have hle := h [goalOf 100000 5000000] [deposit 200000, saving 99999] 0 (goalDay 0) (saving 1)
    (viewOf (goalOf 100000 5000000)) _ _ rfl rfl (by decide) rfl rfl
  obtain ⟨-, hbefore, hafter, -⟩ := metricsOn_examples
  have hle' : (100 : ℤ) ≤ 80 := hbefore ▸ hafter ▸ hle
  omega

/-- Ten days of waiting with a due date far ahead. -/
theorem waiting_never_improves_ten_days :
    (metricsOn 10 (goalOf 60000 60000) []).stabilityScore ≤
      (metricsOn 0 (goalOf 60000 60000) []).stabilityScore :=
  (@waiting_never_improves [goalOf 60000 60000] 0 [] (goalDay 0) (goalDay 10) (by decide)
    (viewOf (goalOf 60000 60000)) _ _ rfl rfl).resolve_right fun h ↦
      absurd h.1.2.2 (by decide)

/-- **The deadline improves the score.** With nothing saved, the day before the due date the
required pace is thirty times what is owed, and on the due date it is what is owed: the score rises
from 1 to 20. -/
theorem deadline_improves_score :
    ¬ ∀ (goals : List Goal) (ledger : List LedgerEntry) (userId : ℕ) (t₁ t₂ : ℤ)
      (g : StabilityGoal) (m₁ m₂ : StabilityMetrics), t₁ ≤ t₂ →
        getStability goals ledger userId t₁ = .ok g m₁ →
          getStability goals ledger userId t₂ = .ok g m₂ →
            m₂.stabilityScore ≤ m₁.stabilityScore := by
  intro h
  have hle := h [goalOf 60000 60000] [] 0 (goalDay 29) (goalDay 30) (viewOf (goalOf 60000 60000)) _ _
    (by decide) rfl rfl
  obtain ⟨-, -, -, hbefore, hafter, -⟩ := metricsOn_examples
  have hle' : (20 : ℤ) ≤ 1 := hbefore ▸ hafter ▸ hle
  omega

end Examples

end Stead
