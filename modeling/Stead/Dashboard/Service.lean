import Stead.Dashboard.Engine

/-!
# The dashboard

`DashboardService.getStability`: the latest active goal of the user, the balance and the savings
toward the goal as two sums over the same transactions, and the engine on what they come to. A
transaction that is linked to the goal counts in both sums.

## Reads

The two queries are functions of the tables: the goals and the ledger are lists of rows, in the
order in which the database answers them. `activeGoal` takes the latest active goal of a user and
`transactionsOf` their transactions. An amount is a decimal string in the answer of the database and
a whole number of kobo here; a direction is a text, and everything but `in` is subtracted.

## Sums

`estimatedBalance_insert` and `goalSaved_insert` say what one more transaction, wherever it comes in
the list, does to the two sums. With these the results about the ledger reduce to the engine.
-/

namespace Stead

/-- A row of `Goal`, as far as the dashboard reads it. -/
structure Goal where
  id : ℕ
  userId : ℕ
  name : String
  amountTotalKobo : ℤ
  dueDate : ℤ
  monthlyIncomeKobo : Option ℤ
  isActive : Bool
  createdAt : ℤ
  deriving DecidableEq

/-- A row of `Transaction`, as far as the dashboard reads it. -/
structure LedgerEntry where
  userId : ℕ
  goalId : Option ℕ
  amountKobo : ℤ
  direction : String
  deriving DecidableEq

/-- What a transaction adds to a sum. -/
def LedgerEntry.signed (tx : LedgerEntry) : ℤ :=
  if tx.direction = "in" then tx.amountKobo else -tx.amountKobo

/-- `metrics` of the answer. -/
structure StabilityMetrics extends StabilityOutput where
  goalSavedKobo : ℤ
  estimatedBalanceKobo : ℤ
  deriving DecidableEq

/-- `goal` of the answer. -/
structure StabilityGoal where
  id : ℕ
  name : String
  amountTotalKobo : ℤ
  dueDate : ℤ
  monthlyIncomeKobo : Option ℤ
  deriving DecidableEq

/-- The answer: no goal, or a goal with its metrics. -/
inductive DashboardStabilityResponse where
  | notOk (message : String)
  | ok (goal : StabilityGoal) (metrics : StabilityMetrics)
  deriving DecidableEq

/-- `goal.findFirst({ where: { userId, isActive: true }, orderBy: { createdAt: 'desc' } })` -/
def activeGoal (goals : List Goal) (userId : ℕ) : Option Goal :=
  (goals.filter fun goal ↦ goal.userId = userId && goal.isActive).maxOn? Goal.createdAt

/-- `transaction.findMany({ where: { userId } })` -/
def transactionsOf (ledger : List LedgerEntry) (userId : ℕ) : List LedgerEntry :=
  ledger.filter fun tx ↦ tx.userId = userId

/-- The sum over all transactions. -/
def estimatedBalance (transactions : List LedgerEntry) : ℤ :=
  transactions.foldl (fun sum tx ↦ sum + tx.signed) 0

/-- The sum over those that are linked to the goal. -/
def goalSaved (goalId : ℕ) (transactions : List LedgerEntry) : ℤ :=
  transactions.foldl (fun sum tx ↦ if tx.goalId ≠ some goalId then sum else sum + tx.signed) 0

/-- `monthlyIncomeKobo ? Number(monthlyIncomeKobo) : null` -/
def Goal.income (goal : Goal) : Option ℤ := goal.monthlyIncomeKobo.filter (· ≠ 0)

/-- The inputs of the engine for a goal and the transactions of its user. -/
def stabilityInputs (goal : Goal) (transactions : List LedgerEntry) (today : ℤ) :
    StabilityInputs where
  goalTotalKobo := goal.amountTotalKobo
  goalSavedKobo := goalSaved goal.id transactions
  dueDate := goal.dueDate
  today := today
  estimatedBalanceKobo := estimatedBalance transactions
  monthlyIncomeKobo := goal.income

/-- The metrics of the answer. -/
def stabilityMetrics (goal : Goal) (transactions : List LedgerEntry) (today : ℤ) :
    StabilityMetrics where
  toStabilityOutput := computeStability (stabilityInputs goal transactions today)
  goalSavedKobo := goalSaved goal.id transactions
  estimatedBalanceKobo := estimatedBalance transactions

/-- `getStability`, on the tables it reads. -/
def getStability (goals : List Goal) (ledger : List LedgerEntry) (userId : ℕ) (today : ℤ) :
    DashboardStabilityResponse :=
  match activeGoal goals userId with
  | none => .notOk "No active goal found"
  | some goal =>
    .ok ⟨goal.id, goal.name, goal.amountTotalKobo, goal.dueDate, goal.income⟩
      (stabilityMetrics goal (transactionsOf ledger userId) today)

/-! ### The two sums -/

theorem estimatedBalance_eq (transactions : List LedgerEntry) :
    estimatedBalance transactions = (transactions.map LedgerEntry.signed).sum := by
  rw [estimatedBalance, List.sum_eq_foldl, List.foldl_map]

theorem goalSaved_eq (goalId : ℕ) (transactions : List LedgerEntry) :
    goalSaved goalId transactions =
      ((transactions.filter (·.goalId = some goalId)).map LedgerEntry.signed).sum := by
  rw [goalSaved, List.sum_eq_foldl, List.foldl_map, List.foldl_filter]
  congr 1
  funext sum tx
  by_cases h : tx.goalId = some goalId <;> simp [h]

/-- A transaction of the user adds its signed amount to the balance, wherever it stands. -/
theorem estimatedBalance_insert {userId : ℕ} (before after : List LedgerEntry) {tx : LedgerEntry}
    (h : tx.userId = userId) :
    estimatedBalance (transactionsOf (before ++ tx :: after) userId) =
      estimatedBalance (transactionsOf (before ++ after) userId) + tx.signed := by
  simp only [estimatedBalance_eq, transactionsOf, List.filter_append, List.filter_cons, h,
    List.map_append, List.sum_append, decide_true, if_true, List.map_cons, List.sum_cons]
  omega

/-- And to the savings when it is linked to the goal. -/
theorem goalSaved_insert {userId goalId : ℕ} (before after : List LedgerEntry) {tx : LedgerEntry}
    (h : tx.userId = userId) :
    goalSaved goalId (transactionsOf (before ++ tx :: after) userId) =
      goalSaved goalId (transactionsOf (before ++ after) userId) +
        if tx.goalId = some goalId then tx.signed else 0 := by
  by_cases hgoal : tx.goalId = some goalId
  · simp only [goalSaved_eq, transactionsOf, List.filter_append, List.filter_cons, h, hgoal,
      List.map_append, List.sum_append, decide_true, if_true, List.map_cons, List.sum_cons]
    omega
  · simp [goalSaved_eq, transactionsOf, List.filter_append, h, hgoal]

/-- An answer is for the active goal. -/
theorem getStability_eq_ok {goals : List Goal} {ledger : List LedgerEntry} {userId : ℕ} {today : ℤ}
    {g : StabilityGoal} {m : StabilityMetrics}
    (h : getStability goals ledger userId today = .ok g m) :
    ∃ goal, activeGoal goals userId = some goal ∧
      g = ⟨goal.id, goal.name, goal.amountTotalKobo, goal.dueDate, goal.income⟩ ∧
        m = stabilityMetrics goal (transactionsOf ledger userId) today := by
  unfold getStability at h
  split at h
  · cases h
  · next goal hgoal =>
    cases h
    exact ⟨goal, hgoal, rfl, rfl⟩

/-- The same goal is active whatever the ledger and the date. -/
theorem getStability_of_active {goals : List Goal} {userId : ℕ} {goal : Goal}
    (h : activeGoal goals userId = some goal) (ledger : List LedgerEntry) (today : ℤ) :
    getStability goals ledger userId today =
      .ok ⟨goal.id, goal.name, goal.amountTotalKobo, goal.dueDate, goal.income⟩
        (stabilityMetrics goal (transactionsOf ledger userId) today) := by
  rw [getStability, h]

end Stead
