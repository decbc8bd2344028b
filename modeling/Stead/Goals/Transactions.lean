import Stead.Concurrency.System
import Stead.Concurrency.Table
import Stead.Goals.Service
import Stead.Model.Statement

/-!
# Goals, statement by statement

The transactions of `GoalsService` as programs over the statements they issue, for calls that
interleave at READ COMMITTED.

## The database

A write waits for a row that another transaction has written, and for the partial unique index when
another transaction decides on it. An `updateMany` picks its rows when it starts and tests each of
them again when it writes; so it is two statements here, the second for the rows that the first has
found. A transaction sees what it has written itself and otherwise what is committed
(`Concurrency.Table`).

## Failures

Any statement may fail, before or after it took effect, and a thread may stop at any point; the
transaction is then undone. A commit may take effect without its answer arriving.

Goals are numbered; the number of a row is its identifier.
-/

namespace Stead

open Concurrency

/-- The statements of a call. -/
inductive GoalStatement where
  | now
  /-- `findFirst({ where: { id, userId } })` -/
  | findFirst (goalId userId : ℕ)
  /-- What the `updateMany` of active goals finds when it starts: the user's, but for one. -/
  | findActive (userId : ℕ) (except : Option ℕ)
  /-- The same `updateMany`, for the rows found. -/
  | replaceFound (found : List ℕ) (userId : ℕ) (except : Option ℕ) (endedAt : ℤ)
  | create (userId : ℕ) (dto : CreateGoalDto)
  /-- `goal.update`, with the goal as it was read -/
  | update (goalId : ℕ) (dto : UpdateGoalDto) (existing : GoalRow) (now : ℤ)
  /-- `updateMany({ where: { id, userId, isActive: true, status: active } })` -/
  | endActive (goalId userId : ℕ) (status : EndStatus) (endedAt : ℤ)
  | commit
  | rollback

/-- The answer to a statement that does not fail. -/
def GoalStatement.Ret : GoalStatement → Type
  | .now => ℤ
  | .findFirst _ _ => Option GoalRow
  | .findActive _ _ => List ℕ
  | .replaceFound _ _ _ _ => ℕ
  | .create _ _ => GoalRow
  | .update _ _ _ _ => GoalRow
  | .endActive _ _ _ _ => Bool
  | .commit | .rollback => Unit

/-- The statements of a call, with their answers. -/
abbrev goalStatements : Interface := ⟨GoalStatement, fun op ↦ Except StatementError op.Ret⟩

/-- The clock and the table. -/
structure GoalWorld (ι : Type) where
  now : ℤ
  goals : Table ι GoalRow

/-- What is decided outside. -/
structure GoalChoice where
  elapse : ℕ
  fault : Fault

namespace GoalWorld

variable {ι : Type} [DecidableEq ι] (w : GoalWorld ι)

/-- The user's active goals. -/
def activeOf (userId : ℕ) (goal : GoalRow) : Bool := goal.userId = userId && goal.isActive

/-- Another transaction decides whether the user has an active goal besides number `k`. -/
def awaitsIndex (i : ι) (k userId : ℕ) : Bool :=
  (List.range w.goals.next).any fun id ↦ id ≠ k && (w.goals.cell id).lockedFor (some i) &&
    ((w.goals.stored id).any (activeOf userId) ||
      (w.goals.pending id).any fun written ↦ activeOf userId written.2)

/-- The user has an active goal besides number `k`. -/
def violatesIndex (i : ι) (k userId : ℕ) : Bool :=
  (List.range w.goals.next).any fun id ↦
    id ≠ k && ((w.goals.cell id).view (some i)).any (activeOf userId)

/-- What a statement does when it does not fail by accident, unless it has to wait. -/
def perform (i : ι) : (op : GoalStatement) → Option (Except StatementError op.Ret × GoalWorld ι)
  | .now => some (.ok w.now, w)
  | .findFirst goalId userId =>
    some (.ok (w.goals.selectId (some i) goalId fun g ↦ g.userId = userId), w)
  | .findActive userId except =>
    some (.ok (((w.goals.select (some i) (activeOf userId)).map Keyed.id).filter fun id ↦
      some id ≠ except), w)
  | .replaceFound found userId except endedAt =>
    match w.goals.updateMany (some i) (found.filter fun id ↦ some id ≠ except) (activeOf userId)
        (GoalsService.replace endedAt) with
    | some (count, goals) => some (.ok count, { w with goals })
    | none => none
  | .create userId dto =>
    if w.awaitsIndex i w.goals.next userId then none
    else if w.violatesIndex i w.goals.next userId then some (.error .uniqueViolation, w)
    else
      let goal := GoalsService.newGoal userId w.goals.next w.now dto
      some (.ok goal, { w with goals := (w.goals.insert (some i) goal).2 })
  | .update goalId dto existing now =>
    match w.goals.updateId (some i) goalId (fun _ ↦ true)
        (GoalsService.applyUpdate dto existing now) with
    | none => none
    | some (false, _) => some (.error .recordNotFound, w)
    | some (true, goals) =>
      match (goals.cell goalId).view (some i) with
      | none => some (.error .recordNotFound, w)
      | some goal =>
        if goal.isActive && w.awaitsIndex i goalId goal.userId then none
        else if goal.isActive && w.violatesIndex i goalId goal.userId then
          some (.error .uniqueViolation, w)
        else some (.ok goal, { w with goals })
  | .endActive goalId userId status endedAt =>
    match w.goals.updateId (some i) goalId
        (fun g ↦ g.userId = userId && g.isActive && g.status = .active)
        (fun g ↦ { g with isActive := false, status := status.status, endedAt := some endedAt }) with
    | some (updated, goals) => some (.ok updated, { w with goals })
    | none => none
  | .commit => some (.ok (), { w with goals := w.goals.commit i })
  | .rollback => some (.ok (), { w with goals := w.goals.rollback i })

/-- What is left of a statement that fails before it is executed. -/
def lost (i : ι) (op : GoalStatement) : GoalWorld ι :=
  match op with
  | .commit => { w with goals := w.goals.rollback i }
  | _ => w

/-- A statement that can fail by accident. -/
def faulty (i : ι) (x : GoalChoice) (op : GoalStatement) :
    Option (Except StatementError op.Ret × GoalWorld ι) :=
  match x.fault with
  | .none => w.perform i op
  | .before => some (.error .unavailable, w.lost i op)
  | .after => (w.perform i op).map fun out ↦ (.error .unavailable, out.2)

/-- A statement under what is decided outside. The clock and a rollback do not fail. -/
def exec (i : ι) (x : GoalChoice) (op : GoalStatement) :
    Option (Except StatementError op.Ret × GoalWorld ι) :=
  let w := { w with now := w.now + x.elapse }
  match op with
  | .now => w.perform i .now
  | .rollback => w.perform i .rollback
  | op => w.faulty i x op

end GoalWorld

/-- The goals as a machine. A lost call's transaction is rolled back. -/
def goalMachine (ι : Type) [DecidableEq ι] :
    Machine goalStatements ι GoalChoice (GoalWorld ι) where
  exec i x op w := w.exec i x op
  crash i w := { w with goals := w.goals.rollback i }

/-! ### The calls -/

/-- What a call is rejected with. -/
inductive GoalRejection where
  | failure (e : GoalFailure)
  | statement (e : StatementError)
  deriving DecidableEq

/-- A part of a call. -/
abbrev GoalProg (α : Type) := Prog goalStatements GoalRejection α

/-- Issue a statement; its error is thrown. -/
def goalRun (op : GoalStatement) : GoalProg op.Ret :=
  .stmt op fun
    | .ok a => .pure a
    | .error e => .throw (.statement e)

/-- `prisma.$transaction(body)` -/
def goalTransaction {α : Type} (body : GoalProg α) : GoalProg α := do
  let a ← tryCatch body fun e ↦ do
    goalRun .rollback
    throw e
  goalRun .commit
  pure a

/-- `updateMany({ where: { userId, isActive: true }, data: { status: replaced } })`, but for a
goal. -/
def replaceActive (userId : ℕ) (except : Option ℕ) : GoalProg Unit := do
  let endedAt ← goalRun .now
  let found ← goalRun (.findActive userId except)
  let _ ← goalRun (.replaceFound found userId except endedAt)
  pure ()

/-- `GoalsService.create` -/
def GoalProg.create (userId : ℕ) (dto : CreateGoalDto) : GoalProg GoalRow :=
  goalTransaction do
    replaceActive userId none
    goalRun (.create userId dto)

/-- `GoalsService.update` -/
def GoalProg.update (userId goalId : ℕ) (dto : UpdateGoalDto) : GoalProg GoalRow :=
  goalTransaction do
    match ← goalRun (.findFirst goalId userId) with
    | none => throw (.failure (.notFound "Goal not found"))
    | some existing =>
      if dto.isActive = some true then replaceActive userId (some goalId)
      let now ← goalRun .now
      goalRun (.update goalId dto existing now)

/-- `GoalsService.end` -/
def GoalProg.end_ (userId goalId : ℕ) (status : EndStatus) : GoalProg GoalRow :=
  goalTransaction do
    match ← goalRun (.findFirst goalId userId) with
    | none => throw (.failure (.notFound "Goal not found"))
    | some existing =>
      if !existing.isActive || existing.status ≠ .active then
        throw (.failure (.badRequest "Only the active goal can be ended"))
      let endedAt ← goalRun .now
      let updated : Bool ← goalRun (.endActive goalId userId status endedAt)
      if !updated then throw (.failure (.badRequest "Only the active goal can be ended"))
      match ← goalRun (.findFirst goalId userId) with
      | none => throw (.failure (.notFound "Goal not found"))
      | some goal => pure goal

/-- The calls that write. -/
inductive GoalRequest where
  | create (userId : ℕ) (dto : CreateGoalDto)
  | update (userId goalId : ℕ) (dto : UpdateGoalDto)
  | end_ (userId goalId : ℕ) (status : EndStatus)

/-- The program of a call. -/
def GoalRequest.run : GoalRequest → GoalProg GoalRow
  | .create userId dto => GoalProg.create userId dto
  | .update userId goalId dto => GoalProg.update userId goalId dto
  | .end_ userId goalId status => GoalProg.end_ userId goalId status

end Stead
