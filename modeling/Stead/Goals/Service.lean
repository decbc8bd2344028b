import Stead.Dashboard.Service

/-!
# Goals

`GoalsService`. Each call that writes is one transaction, whose statements run against the partial
unique index on active goals: a statement that leaves a user with two active goals fails, and the
transaction is undone.

## A call

A call is a function of the table, with the answer and the table it leaves, or the failure; it is
written statement by statement, with the test of the index after each one that writes (`indexed`).
The identifier of a new goal and what the clock says are given to a call from outside.

A call runs alone here. `Goals.Transactions` has the same calls as programs whose statements
interleave, for what depends on that.
-/

namespace Stead

/-- `GoalStatus` -/
inductive GoalStatus where
  | active
  | completed
  | cancelled
  | replaced
  deriving DecidableEq

/-- A row of `Goal`. -/
structure GoalRow extends Goal where
  status : GoalStatus
  endedAt : Option ℤ
  deriving DecidableEq

/-- What a call of the service fails with. -/
inductive GoalFailure where
  | notFound (message : String)
  | badRequest (message : String)
  /-- The partial unique index is violated. -/
  | oneActivePerUser
  /-- The primary key is violated. -/
  | idTaken
  deriving DecidableEq

/-- What the body of `POST /goals` brings, after its validation. -/
structure CreateGoalDto where
  name : String
  amountTotalKobo : ℤ
  dueDate : ℤ
  monthlyIncomeKobo : Option ℤ
  deriving DecidableEq

/-- `none` for a field that is left out. -/
structure UpdateGoalDto where
  name : Option String
  amountTotalKobo : Option ℤ
  dueDate : Option ℤ
  monthlyIncomeKobo : Option (Option ℤ)
  isActive : Option Bool
  deriving DecidableEq

/-- The statuses `EndGoalDto` allows. -/
inductive EndStatus where
  | completed
  | cancelled
  deriving DecidableEq

/-- The status a goal ends with. -/
def EndStatus.status : EndStatus → GoalStatus
  | .completed => .completed
  | .cancelled => .cancelled

namespace GoalsService

/-- The index `Goal_one_active_per_user_idx`. -/
def oneActive (goals : List GoalRow) : Prop :=
  goals.Pairwise fun a b ↦ ¬ (a.userId = b.userId ∧ a.isActive = true ∧ b.isActive = true)

instance (goals : List GoalRow) : Decidable (oneActive goals) :=
  inferInstanceAs (Decidable (goals.Pairwise _))

/-- What a statement leaves, if the index allows it. -/
def indexed (goals : List GoalRow) : Except GoalFailure (List GoalRow) :=
  if oneActive goals then .ok goals else .error .oneActivePerUser

/-- Whether the goal has the number and is the user's. -/
def owned (goalId userId : ℕ) (goal : GoalRow) : Bool := goal.id = goalId && goal.userId = userId

/-- `{ isActive: false, status: replaced, endedAt }` -/
def replace (endedAt : ℤ) (goal : GoalRow) : GoalRow :=
  { goal with isActive := false, status := .replaced, endedAt := some endedAt }

/-- `updateMany({ where, data: { isActive: false, status: replaced, endedAt } })` -/
def replaceWhere (p : GoalRow → Bool) (endedAt : ℤ) (goals : List GoalRow) : List GoalRow :=
  goals.map fun goal ↦ if p goal then replace endedAt goal else goal

/-- The row `create` inserts. -/
def newGoal (userId id : ℕ) (createdAt : ℤ) (dto : CreateGoalDto) : GoalRow where
  id := id
  userId := userId
  name := dto.name
  amountTotalKobo := dto.amountTotalKobo
  dueDate := dto.dueDate
  monthlyIncomeKobo := dto.monthlyIncomeKobo
  isActive := true
  createdAt := createdAt
  status := .active
  endedAt := none

/-- `goal.create`, under the primary key and the index. -/
def insertGoal (goal : GoalRow) (goals : List GoalRow) : Except GoalFailure (List GoalRow) :=
  if goals.any fun g ↦ g.id = goal.id then .error .idTaken else indexed (goals ++ [goal])

/-- `create`: the active goals are retired, then the new one is inserted. -/
def create (userId : ℕ) (dto : CreateGoalDto) (id : ℕ) (now : ℤ) (goals : List GoalRow) :
    Except GoalFailure (GoalRow × List GoalRow) := do
  let goals ← indexed (replaceWhere (fun g ↦ g.userId = userId && g.isActive) now goals)
  let goal := newGoal userId id now dto
  let goals ← insertGoal goal goals
  pure (goal, goals)

/-- `data` of the update, for the goal as it was read. -/
def applyUpdate (dto : UpdateGoalDto) (existing : GoalRow) (now : ℤ) (goal : GoalRow) : GoalRow :=
  { goal with
    name := dto.name.getD goal.name
    amountTotalKobo := dto.amountTotalKobo.getD goal.amountTotalKobo
    dueDate := dto.dueDate.getD goal.dueDate
    monthlyIncomeKobo := dto.monthlyIncomeKobo.getD goal.monthlyIncomeKobo
    isActive := dto.isActive.getD goal.isActive
    status :=
      if dto.isActive = some true then .active
      else if dto.isActive = some false && existing.isActive then .cancelled
      else goal.status
    endedAt :=
      if dto.isActive = some true then none
      else if dto.isActive = some false && existing.isActive then some now
      else goal.endedAt }

/-- `goal.update({ where: { id } })`, with the row after it. -/
def updateRow (id : ℕ) (f : GoalRow → GoalRow) (goals : List GoalRow) : List GoalRow :=
  goals.map fun goal ↦ if goal.id = id then f goal else goal

/-- `update`: the goal must be the user's, and one that is activated retires the others. -/
def update (userId goalId : ℕ) (dto : UpdateGoalDto) (now : ℤ) (goals : List GoalRow) :
    Except GoalFailure (GoalRow × List GoalRow) :=
  match goals.find? (owned goalId userId) with
  | none => .error (.notFound "Goal not found")
  | some existing => do
    let goals ←
      if dto.isActive = some true then
        indexed (replaceWhere (fun g ↦ g.userId = userId && g.isActive && g.id ≠ goalId) now goals)
      else .ok goals
    let goals ← indexed (updateRow goalId (applyUpdate dto existing now) goals)
    match goals.find? fun g ↦ g.id = goalId with
    | none => .error (.notFound "Goal not found")
    | some goal => pure (goal, goals)

/-- The rows the update of `end` finds. -/
def endable (goalId userId : ℕ) (goal : GoalRow) : Bool :=
  owned goalId userId goal && goal.isActive && goal.status = .active

/-- `end`: only an active goal ends, which is tested before the update and by it. -/
def end_ (userId goalId : ℕ) (status : EndStatus) (now : ℤ) (goals : List GoalRow) :
    Except GoalFailure (GoalRow × List GoalRow) :=
  match goals.find? (owned goalId userId) with
  | none => .error (.notFound "Goal not found")
  | some existing =>
    if !existing.isActive || existing.status ≠ .active then
      .error (.badRequest "Only the active goal can be ended")
    else do
      let count := goals.countP (endable goalId userId)
      let goals ← indexed (goals.map fun goal ↦
        if endable goalId userId goal then
          { goal with isActive := false, status := status.status, endedAt := some now }
        else goal)
      if count ≠ 1 then .error (.badRequest "Only the active goal can be ended")
      else
        match goals.find? (owned goalId userId) with
        | none => .error (.notFound "Goal not found")
        | some goal => pure (goal, goals)

/-- `findFirst({ where: { userId, isActive: true, status: active }, orderBy: 'desc' })` -/
def getActive (goals : List GoalRow) (userId : ℕ) : Except GoalFailure GoalRow :=
  match (goals.filter fun g ↦ g.userId = userId && g.isActive && g.status = .active).maxOn?
      fun g ↦ g.createdAt with
  | none => .error (.notFound "No active goal found")
  | some goal => .ok goal

/-- A call that writes goals. -/
inductive GoalCall where
  | create (userId : ℕ) (dto : CreateGoalDto) (id : ℕ) (now : ℤ)
  | update (userId goalId : ℕ) (dto : UpdateGoalDto) (now : ℤ)
  | end_ (userId goalId : ℕ) (status : EndStatus) (now : ℤ)

/-- What a call answers, with the goals after it. -/
def GoalCall.exec : GoalCall → List GoalRow → Except GoalFailure (GoalRow × List GoalRow)
  | .create userId dto id now => GoalsService.create userId dto id now
  | .update userId goalId dto now => GoalsService.update userId goalId dto now
  | .end_ userId goalId status now => GoalsService.end_ userId goalId status now

/-- The goals after a call: those of before when it fails. -/
def GoalCall.after (call : GoalCall) (goals : List GoalRow) : List GoalRow :=
  match call.exec goals with
  | .ok (_, goals') => goals'
  | .error _ => goals

/-- The goals after calls, one after the other, from none. -/
def goalsAfter (calls : List GoalCall) : List GoalRow :=
  calls.foldl (fun goals call ↦ call.after goals) []

end GoalsService

end Stead
