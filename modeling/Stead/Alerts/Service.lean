import Stead.Alerts.Rules
import Stead.Dashboard.Stability
import Stead.Concurrency.Trace
import Stead.Model.Call

/-!
# The alerts service

`AlertsService.evaluateUser` as a program over the statements it issues, with the machine that
executes them.

## What is shared

The world holds what the alerts own: the states of the alerts, the jobs, and the clock. What
customers change elsewhere (preferences, goals, transactions) is not part of the store: every
statement is executed under a choice that says what these tables hold at the time, so that anything
may have happened to them since the statement before. The choice also says whether the statement
fails, before or after it took effect.

## The evaluation

`readStability`, `publishWeekly`, `publishDecision` and the update of the state follow one another
as in the source; `decisionJob` and `observedUpdate` are the values they are called with. The
insertion of a job is answered by the row, by the refusal of a duplicate, or by a failure;
`enqueueAlert` takes the refusal for done.

The payload of an alert is kept as the values its text is made of. An error on the way to the
insertion of a job (a payload that cannot be encrypted) is one of the insertion.

## What a statement changes

`AlertOp.exec_jobs`, `AlertOp.exec_alertStates` and `AlertOp.exec_now` say of each part of the world
which statements touch it. The invariants of the alerts are proved from these three, without
unfolding the execution.
-/

namespace Stead

open Concurrency

/-- The message of an alert, as the values in it. -/
inductive ReadinessAlertBody where
  | weeklySummary (goalName : String) (readinessPct : ℚ) (status : StabilityStatus)
      (stabilityScore paceRequiredMonthlyKobo : ℤ)
  | risk (goalName : String) (status : StabilityStatus) (score : ℤ)
  | recovery (goalName : String) (score : ℤ)
  deriving DecidableEq

/-- What an alert is enqueued with. -/
structure NewReadinessJob where
  type : ReadinessAlertType
  userId : ℕ
  goalId : ℕ
  dedupeKey : AlertKey
  phone : String
  body : ReadinessAlertBody
  deriving DecidableEq

/-- An alert in the queue, with the instant of its insertion. -/
structure ReadinessJob extends NewReadinessJob where
  createdAt : ℤ
  deriving DecidableEq

/-- The fields an evaluation writes. -/
structure AlertStateUpdate where
  lastObservedStatus : StabilityStatus
  lastObservedScore : ℤ
  lastNotified : Option (StabilityStatus × ℤ)
  lastRiskAlertAt : Option ℤ
  lastRecoveryAlertAt : Option ℤ
  /-- `lastWeeklySummaryAt` and `lastWeeklySummaryKey` -/
  lastWeeklySummary : Option (ℤ × ℤ)
  deriving DecidableEq

/-- The row an upsert leaves. -/
def AlertStateUpdate.apply (update : AlertStateUpdate) (state : Option AlertState) :
    AlertState where
  lastObservedStatus := update.lastObservedStatus
  lastObservedScore := update.lastObservedScore
  lastNotifiedStatus := (update.lastNotified.map Prod.fst).orElse fun _ ↦
    state.bind AlertState.lastNotifiedStatus
  lastNotifiedScore := (update.lastNotified.map Prod.snd).orElse fun _ ↦
    state.bind AlertState.lastNotifiedScore
  lastRiskAlertAt := update.lastRiskAlertAt.orElse fun _ ↦ state.bind AlertState.lastRiskAlertAt
  lastRecoveryAlertAt := update.lastRecoveryAlertAt.orElse fun _ ↦
    state.bind AlertState.lastRecoveryAlertAt
  lastWeeklySummaryAt := (update.lastWeeklySummary.map Prod.fst).orElse fun _ ↦
    state.bind AlertState.lastWeeklySummaryAt
  lastWeeklySummaryKey := (update.lastWeeklySummary.map Prod.snd).orElse fun _ ↦
    state.bind AlertState.lastWeeklySummaryKey

/-! ### Statements -/

/-- The statements of an evaluation. -/
inductive AlertOp where
  /-- `new Date()` -/
  | now
  /-- `alertPreference.findUnique({ where: { userId } })`, with the phone of the user -/
  | findPreference (userId : ℕ)
  /-- `goal.findFirst({ where: { userId, isActive: true } })` -/
  | findActiveGoal (userId : ℕ)
  /-- `transaction.findMany({ where: { userId } })` -/
  | findTransactions (userId : ℕ)
  /-- `alertState.findUnique({ where: { userId_goalId } })` -/
  | findState (userId goalId : ℕ)
  /-- `notificationJob.create` -/
  | createJob (data : NewReadinessJob)
  /-- `alertState.upsert` -/
  | upsertState (userId goalId : ℕ) (update : AlertStateUpdate)
  deriving DecidableEq

/-- What a statement returns. -/
abbrev AlertOp.Ret : AlertOp → Type
  | now => ℤ
  | findPreference _ => Option (AlertPreference × String)
  | findActiveGoal _ => Option Goal
  | findTransactions _ => List LedgerEntry
  | findState _ _ => Option AlertState
  | createJob _ => Unit
  | upsertState _ _ _ => Unit

instance (op : AlertOp) : DecidableEq op.Ret :=
  match op with
  | .now => inferInstanceAs (DecidableEq ℤ)
  | .findPreference _ => inferInstanceAs (DecidableEq (Option (AlertPreference × String)))
  | .findActiveGoal _ => inferInstanceAs (DecidableEq (Option Goal))
  | .findTransactions _ => inferInstanceAs (DecidableEq (List LedgerEntry))
  | .findState _ _ => inferInstanceAs (DecidableEq (Option AlertState))
  | .createJob _ | .upsertState _ _ _ => inferInstanceAs (DecidableEq Unit)

/-- A statement that writes nothing. -/
def AlertOp.reads : AlertOp → Bool
  | createJob _ | upsertState _ _ _ => false
  | _ => true

/-- The statements of an evaluation, with their answers. -/
abbrev AlertStatements : Interface where
  Op := AlertOp
  Resp op := Except StatementError op.Ret

instance (op : AlertOp) : DecidableEq (AlertStatements.Resp op) :=
  inferInstanceAs (DecidableEq (Except StatementError op.Ret))

instance : DecidableEq AlertStatements.Op := inferInstanceAs (DecidableEq AlertOp)

/-- The store of the alerts. -/
structure AlertWorld where
  now : ℤ
  alertStates : ℕ → ℕ → Option AlertState
  jobs : List ReadinessJob

/-- No alert has been sent yet. -/
def AlertWorld.empty (now : ℤ) : AlertWorld := ⟨now, fun _ _ ↦ none, []⟩

/-- What customers have entered. -/
structure Customers where
  preferences : ℕ → Option (AlertPreference × String)
  goals : List Goal
  ledger : List LedgerEntry

/-- What the outside world decides about the execution of one statement. -/
structure AlertChoice where
  elapse : ℕ
  fault : Fault
  customers : Customers

namespace AlertOp

/-- What a statement does when nothing goes wrong. -/
def perform (customers : Customers) (w : AlertWorld) :
    (op : AlertOp) → Except StatementError op.Ret × AlertWorld
  | now => (.ok w.now, w)
  | findPreference userId => (.ok (customers.preferences userId), w)
  | findActiveGoal userId => (.ok (activeGoal customers.goals userId), w)
  | findTransactions userId => (.ok (transactionsOf customers.ledger userId), w)
  | findState userId goalId => (.ok (w.alertStates userId goalId), w)
  | createJob data =>
    if w.jobs.any fun job ↦ job.dedupeKey = data.dedupeKey then (.error .uniqueViolation, w)
    else (.ok (), { w with jobs := w.jobs ++ [⟨data, w.now⟩] })
  | upsertState userId goalId update =>
    (.ok (), { w with
      alertStates := fun u g ↦
        if u = userId ∧ g = goalId then some (update.apply (w.alertStates userId goalId))
        else w.alertStates u g })

/-- Execute a statement. Reading the clock does not fail. -/
def exec (x : AlertChoice) (op : AlertOp) (w : AlertWorld) :
    Except StatementError op.Ret × AlertWorld :=
  let w := { w with now := w.now + x.elapse }
  match op, x.fault with
  | now, _ => perform x.customers w now
  | op, .none => perform x.customers w op
  | _, .before => (.error .unavailable, w)
  | op, .after => (.error .unavailable, (perform x.customers w op).2)

end AlertOp

/-- The store as a machine. A lost evaluator leaves it as it is. -/
def alertMachine (ι : Type) : Machine AlertStatements ι AlertChoice AlertWorld where
  exec _ x op w := some (op.exec x w)
  crash _ w := w

/-! ### The program -/

/-- A part of an evaluation. -/
abbrev AlertCall (α : Type) := Prog AlertStatements Failure α

/-- Issue a statement; an error of the statement is thrown. -/
def ask (op : AlertOp) : AlertCall op.Ret :=
  .stmt op fun
    | .ok a => .pure a
    | .error e => .throw (.statement e)

/-- `NotificationQueueService.enqueueReadinessAlert`: whether it was not enqueued before. -/
def enqueueAlert (data : NewReadinessJob) : AlertCall Bool :=
  .stmt (.createJob data) fun
    | .ok _ => .pure true
    | .error .uniqueViolation => .pure false
    | .error e => .throw (.statement e)

/-- `DashboardService.getStability`, statement by statement. -/
def readStability (userId : ℕ) (now : ℤ) : AlertCall DashboardStabilityResponse := do
  match ← ask (.findActiveGoal userId) with
  | none => pure (.notOk "No active goal found")
  | some goal =>
    let transactions ← ask (.findTransactions userId)
    pure (.ok ⟨goal.id, goal.name, goal.amountTotalKobo, goal.dueDate, goal.income⟩
      (stabilityMetrics goal transactions now))

section Evaluation

variable (intl : Intl) (userId : ℕ) (now : ℤ) (preference : AlertPreference) (phone : String)
  (goal : StabilityGoal) (metrics : StabilityMetrics) (state : Option AlertState)

/-- The weekly summary of `evaluateUser`: what is to be remembered of it. -/
def publishWeekly : AlertCall (Option (ℤ × ℤ)) :=
  if preference.weeklySummaryEnabled then
    match weeklySchedule intl now preference.timeZone preference.weeklyDay
        preference.weeklyHourLocal with
    | none => throw (.error "Invalid time zone specified")
    | some schedule =>
      if schedule.due ∧ state.bind AlertState.lastWeeklySummaryKey ≠ some schedule.key then do
        let _ ← enqueueAlert
          { type := .weeklySummary, userId, goalId := goal.id
            dedupeKey := .weekly userId goal.id schedule.key
            phone
            body := .weeklySummary goal.name metrics.readinessPct metrics.status
              metrics.stabilityScore metrics.paceRequiredMonthlyKobo }
        pure (some (now, schedule.key))
      else pure none
  else pure none

/-- The message of a decision. -/
def decisionBody : RiskDecision → ReadinessAlertBody
  | .risk => .risk goal.name metrics.status metrics.stabilityScore
  | .recovery => .recovery goal.name metrics.stabilityScore

/-- The alert a decision publishes. -/
def decisionJob (decision : RiskDecision) : NewReadinessJob where
  type := decision.type
  userId := userId
  goalId := goal.id
  dedupeKey := alertOccurrenceKey decision userId goal.id state metrics.status
    metrics.stabilityScore
  phone := phone
  body := decisionBody goal metrics decision

/-- What an evaluation always writes. -/
def observedUpdate (weekly : Option (ℤ × ℤ)) : AlertStateUpdate :=
  ⟨metrics.status, metrics.stabilityScore, none, none, none, weekly⟩

/-- What is written after a decision. -/
def decisionUpdate (weekly : Option (ℤ × ℤ)) : RiskDecision → AlertStateUpdate
  | .risk =>
    { observedUpdate metrics weekly with
      lastNotified := some (metrics.status, metrics.stabilityScore), lastRiskAlertAt := some now }
  | .recovery =>
    { observedUpdate metrics weekly with
      lastNotified := some (metrics.status, metrics.stabilityScore)
      lastRecoveryAlertAt := some now }

/-- The risk and recovery alerts of `evaluateUser`: what is to be written. -/
def publishDecision (weekly : Option (ℤ × ℤ)) : AlertCall AlertStateUpdate :=
  if preference.riskAlertsEnabled then
    match riskDecision metrics.status metrics.stabilityScore state now with
    | some decision => do
      let _ ← enqueueAlert (decisionJob userId phone goal metrics state decision)
      pure (decisionUpdate now metrics weekly decision)
    | none =>
      -- the first stable observation is the baseline of later ones
      if state = none ∧ metrics.status = .stable then
        pure { observedUpdate metrics weekly with
          lastNotified := some (metrics.status, metrics.stabilityScore) }
      else pure (observedUpdate metrics weekly)
  else pure (observedUpdate metrics weekly)

/-- `evaluateUser` from the stability of the goal on. -/
def evaluateGoal : AlertCall Unit := do
  let state ← ask (.findState userId goal.id)
  let weekly ← publishWeekly intl userId now preference phone goal metrics state
  let update ← publishDecision userId now preference phone goal metrics state weekly
  ask (.upsertState userId goal.id update)

end Evaluation

/-- `evaluateUser`: nothing without a preference that wants alerts or without an active goal. -/
def evaluateUser (intl : Intl) (userId : ℕ) : AlertCall Unit := do
  let now ← ask .now
  match ← ask (.findPreference userId) with
  | none => pure ()
  | some (preference, phone) =>
    if !preference.weeklySummaryEnabled && !preference.riskAlertsEnabled then pure ()
    else
      match ← readStability userId now with
      | .notOk _ => pure ()
      | .ok goal metrics => evaluateGoal intl userId now preference phone goal metrics

/-! ### What the statements do -/

section Effects

variable {x : AlertChoice} {w : AlertWorld}

/-- A statement leaves the queue alone or inserts a job whose key is new. -/
theorem AlertOp.exec_jobs (op : AlertOp) (x : AlertChoice) (w : AlertWorld) :
    (op.exec x w).2.jobs = w.jobs ∨ ∃ data, op = .createJob data ∧
    (∀ job ∈ w.jobs, job.dedupeKey ≠ data.dedupeKey) ∧
      (op.exec x w).2.jobs = w.jobs ++ [⟨data, w.now + x.elapse⟩] := by
  cases op with
  | createJob data =>
    by_cases hfree : ∀ job ∈ w.jobs, job.dedupeKey ≠ data.dedupeKey
    · have hany : (w.jobs.any fun job ↦ job.dedupeKey = data.dedupeKey) = false := by
        rw [List.any_eq_false]
        exact fun job hjob heq ↦ hfree job hjob (of_decide_eq_true heq)
      cases hfault : x.fault with
      | none => exact .inr ⟨data, rfl, hfree, by simp [AlertOp.exec, hfault, AlertOp.perform, hany]⟩
      | before => exact .inl (by simp [AlertOp.exec, hfault])
      | after => exact .inr ⟨data, rfl, hfree, by simp [AlertOp.exec, hfault, AlertOp.perform, hany]⟩
    · have hany : (w.jobs.any fun job ↦ job.dedupeKey = data.dedupeKey) = true := by
        rw [List.any_eq_true]
        simpa using hfree
      cases hfault : x.fault with
      | none => exact .inl (by simp [AlertOp.exec, hfault, AlertOp.perform, hany])
      | before => exact .inl (by simp [AlertOp.exec, hfault])
      | after => exact .inl (by simp [AlertOp.exec, hfault, AlertOp.perform, hany])
  | _ => cases hfault : x.fault <;> exact .inl (by simp [AlertOp.exec, hfault, AlertOp.perform])

/-- Every statement takes its time, and nothing else moves the clock. -/
theorem AlertOp.exec_now (op : AlertOp) (x : AlertChoice) (w : AlertWorld) :
    (op.exec x w).2.now = w.now + x.elapse := by
  cases op with
  | createJob data => cases hfault : x.fault <;> simp [AlertOp.exec, hfault, AlertOp.perform] <;>
      split <;> rfl
  | _ => cases hfault : x.fault <;> simp [AlertOp.exec, hfault, AlertOp.perform]

/-- A statement leaves the states alone or writes one of them. -/
theorem AlertOp.exec_alertStates (op : AlertOp) (x : AlertChoice) (w : AlertWorld) :
    (op.exec x w).2.alertStates = w.alertStates ∨
    ∃ userId goalId update, op = .upsertState userId goalId update ∧
      (op.exec x w).2.alertStates = fun u g ↦
        if u = userId ∧ g = goalId then some (update.apply (w.alertStates userId goalId))
        else w.alertStates u g := by
  cases op with
  | upsertState userId goalId update =>
    cases hfault : x.fault with
    | none => exact .inr ⟨userId, goalId, update, rfl, by simp [AlertOp.exec, hfault, AlertOp.perform]⟩
    | before => exact .inl (by simp [AlertOp.exec, hfault])
    | after => exact .inr ⟨userId, goalId, update, rfl, by simp [AlertOp.exec, hfault, AlertOp.perform]⟩
  | createJob data =>
    refine .inl ?_
    cases hfault : x.fault <;> simp only [AlertOp.exec, hfault, AlertOp.perform] <;>
      first | rfl | (split <;> rfl)
  | _ => cases hfault : x.fault <;> exact .inl (by simp [AlertOp.exec, hfault, AlertOp.perform])

/-- What is read of a state is what is stored. -/
theorem AlertOp.exec_findState {userId goalId : ℕ} {state : Option AlertState}
    (h : ((AlertOp.findState userId goalId).exec x w).1 = .ok state) :
    state = w.alertStates userId goalId := by
  cases hfault : x.fault <;> simp only [AlertOp.exec, hfault, AlertOp.perform] at h <;> cases h
  rfl

/-- The answers that say a job is in the queue. -/
def Enqueued (r : Except StatementError Unit) : Prop := r = .ok () ∨ r = .error .uniqueViolation

/-- **An answered insertion**: the job is there, whether it was inserted now or before. -/
theorem AlertOp.exec_enqueued {data : NewReadinessJob} (h : Enqueued ((AlertOp.createJob data).exec x w).1) :
    ∃ job ∈ ((AlertOp.createJob data).exec x w).2.jobs, job.dedupeKey = data.dedupeKey := by
  cases hfault : x.fault with
  | none =>
    simp only [AlertOp.exec, hfault, AlertOp.perform]
    split
    · next hany =>
      obtain ⟨job, hjob, hkey⟩ := List.any_eq_true.1 hany
      exact ⟨job, hjob, of_decide_eq_true hkey⟩
    · exact ⟨_, List.mem_append_right _ (List.mem_singleton_self _), rfl⟩
  | before =>
    simp only [AlertOp.exec, hfault] at h
    rcases h with h | h <;> cases h
  | after =>
    simp only [AlertOp.exec, hfault] at h
    rcases h with h | h <;> cases h

end Effects

/-! ### Rules for programs -/

section Programs

variable {α : Type} {P : List (Exchange AlertStatements) → AlertOp → Prop}
  {Q : List (Exchange AlertStatements) → α → Prop} {trace : List (Exchange AlertStatements)}

theorem keeps_ask {op : AlertOp} {Q : List (Exchange AlertStatements) → op.Ret → Prop}
    (hP : P trace op) (h : ∀ a, Q (trace ++ [⟨op, .ok a⟩]) a) :
    (ask op).Keeps P Q (fun _ _ ↦ True) trace := by
  refine ⟨hP, fun r ↦ ?_⟩
  cases r with
  | ok a => exact h a
  | error e => trivial

theorem keeps_ask_bind {op : AlertOp} {f : op.Ret → AlertCall α} (hP : P trace op)
    (h : ∀ a, (f a).Keeps P Q (fun _ _ ↦ True) (trace ++ [⟨op, .ok a⟩])) :
    (ask op >>= f).Keeps P Q (fun _ _ ↦ True) trace :=
  .bind (keeps_ask (Q := fun trace' a ↦ trace' = trace ++ [⟨op, .ok a⟩]) hP fun _ ↦ rfl)
    fun _ a h' ↦ h' ▸ h a

/-- An insertion with a continuation, which sees that the job is there. -/
theorem keeps_enqueueAlert_bind {data : NewReadinessJob} {f : Bool → AlertCall α}
    (hP : P trace (.createJob data))
    (h : ∀ b r, Enqueued r →
      (f b).Keeps P Q (fun _ _ ↦ True) (trace ++ [⟨.createJob data, r⟩])) :
    (enqueueAlert data >>= f).Keeps P Q (fun _ _ ↦ True) trace := by
  refine ⟨hP, fun r ↦ ?_⟩
  cases r with
  | ok a => exact h true _ (.inl rfl)
  | error e =>
    cases e with
    | uniqueViolation => exact h false _ (.inr rfl)
    | foreignKeyViolation => trivial
    | recordNotFound => trivial
    | checkViolation => trivial
    | unavailable => trivial

/-- The statements of `readStability`, in sequence. -/
theorem readStability_bind (userId : ℕ) (now : ℤ) (f : DashboardStabilityResponse → AlertCall α) :
    (readStability userId now >>= f) = ask (.findActiveGoal userId) >>= fun
      | none => f (.notOk "No active goal found")
      | some goal => ask (.findTransactions userId) >>= fun transactions ↦
        f (.ok ⟨goal.id, goal.name, goal.amountTotalKobo, goal.dueDate, goal.income⟩
          (stabilityMetrics goal transactions now)) := by
  rw [readStability, Prog.bind_assoc]
  congr 1
  funext answer
  cases answer with
  | none => rfl
  | some goal => exact Prog.bind_assoc _ _ _

end Programs

/-! ### Runs -/

/-- Evaluators at work. -/
abbrev Evaluators (ι : Type) := Concurrency.Config AlertStatements ι AlertWorld Failure Unit

/-- Evaluations of users, about to start on an empty queue. -/
def Evaluators.start {ι : Type} (intl : Intl) (now : ℤ) (users : ι → ℕ) : Evaluators ι :=
  Concurrency.Config.start (.empty now) fun i ↦ evaluateUser intl (users i)

/-! ### Evaluators to run schedules on -/

namespace Demo

/-- Monday, ten o'clock, everywhere. -/
def monday : Intl := ⟨fun _ _ ↦ some ⟨1, 2026, 9, 7, 10⟩⟩

/-- All alerts at any hour, a summary on Monday mornings. -/
def alertPreference : AlertPreference := ⟨true, true, "UTC", 1, 9⟩

/-- An active goal. -/
def rent : Goal := ⟨0, 0, "Rent", 100000, 30 * DAY_MS, none, true, 0⟩

/-- Customers who want all alerts and save for the rent. -/
def customersWith (ledger : List LedgerEntry) : Customers :=
  ⟨fun _ ↦ some (alertPreference, "+1"), [rent], ledger⟩

/-- `n` statements of evaluator `i`, one after the other, with nothing going wrong. -/
def alertSteps (i n : ℕ) (ledger : List LedgerEntry) : List (Turn ℕ AlertChoice) :=
  List.replicate n ⟨i, 0, .none, customersWith ledger⟩

/-- The condition that allows everything. -/
def anyStatement : ℕ → AlertOp → State AlertStatements ℕ AlertWorld → Bool := fun _ _ _ ↦ true

end Demo

end Stead
