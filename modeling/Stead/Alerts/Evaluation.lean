import Stead.Alerts.Weekly

/-!
# One evaluation at a time

An evaluation that runs alone, with every statement succeeding, is a function from store to store
(`AlertWorld.evaluate`). It is the program of `Alerts.Service` executed by itself, so what is proved
here is about that program, under the one schedule in which nobody comes in between.

## What it does

What an evaluation does is said once, in `Evaluated`: nothing, or the summary of the week at most
together with what the risk rules decide, and the row of the alert state that goes with it. The
parts are taken one by one, each with the store before and after: the summary
(`execute_publishWeekly`), the decision (`execute_publishDecision`), and the two with the write of
the state (`execute_evaluateGoal`).

An alert whose key is in the queue already is not enqueued again, which the evaluation takes for a
success (`enqueue_cases`): the state is written all the same.

## Where a decision is made

`Decides` are the inputs on which an evaluation comes to a decision: preferences with risk alerts,
an active goal, and metrics the rules decide on. `evaluate_of_decides` says what such an evaluation
leaves.
-/

namespace Stead

open Concurrency

/-- An evaluation of a user, by what the customers have entered at the time. -/
structure Evaluation where
  userId : ℕ
  now : ℤ
  customers : Customers

namespace Evaluation

/-- A statement of the evaluation. -/
def exec (e : Evaluation) : (op : AlertStatements.Op) → AlertWorld →
    AlertStatements.Resp op × AlertWorld :=
  AlertOp.exec ⟨0, .none, e.customers⟩

/-- Nothing fails, and no time passes. -/
theorem exec_eq (e : Evaluation) (op : AlertOp) (w : AlertWorld) :
    e.exec op w = op.perform e.customers w := by
  show AlertOp.exec ⟨0, .none, e.customers⟩ op w = _
  cases op <;> simp [AlertOp.exec]

end Evaluation

/-- Evaluate a user, at an instant. -/
def AlertWorld.evaluate (intl : Intl) (w : AlertWorld) (e : Evaluation) : AlertWorld :=
  ((evaluateUser intl e.userId).execute e.exec { w with now := e.now }).2

/-- Insert an alert, unless its key is in the queue. -/
def AlertWorld.enqueue (w : AlertWorld) (data : NewReadinessJob) : AlertWorld :=
  if w.jobs.any fun job ↦ job.dedupeKey = data.dedupeKey then w
  else { w with jobs := w.jobs ++ [⟨data, w.now⟩] }

namespace AlertWorld

variable {w : AlertWorld} {data : NewReadinessJob}

/-- An alert with a new key is enqueued. -/
theorem enqueue_of_fresh (h : ∀ job ∈ w.jobs, job.dedupeKey ≠ data.dedupeKey) :
    w.enqueue data = { w with jobs := w.jobs ++ [⟨data, w.now⟩] } := by
  refine if_neg ?_
  simpa using h

/-- An alert is enqueued, or its key was there. -/
theorem enqueue_cases (w : AlertWorld) (data : NewReadinessJob) : w.enqueue data = w ∨
    w.enqueue data = { w with jobs := w.jobs ++ [⟨data, w.now⟩] } := by
  unfold enqueue
  split
  · exact .inl rfl
  · exact .inr rfl

/-- Write the alert state of a goal. -/
def upsertState (w : AlertWorld) (userId goalId : ℕ) (update : AlertStateUpdate) : AlertWorld :=
  { w with
    alertStates := fun u g ↦
      if u = userId ∧ g = goalId then some (update.apply (w.alertStates userId goalId))
      else w.alertStates u g }

end AlertWorld

/-! ### Its parts -/

section Parts

variable {α : Type} {e : Evaluation} {intl : Intl} {userId : ℕ} {now : ℤ}
  {preference : AlertPreference} {phone : String} {goal : StabilityGoal}
  {metrics : StabilityMetrics} {state : Option AlertState} {w : AlertWorld}

/-- A statement that is answered by a value. -/
theorem execute_ask {op : AlertOp} {a : op.Ret} {w' : AlertWorld} (f : op.Ret → AlertCall α)
    (h : op.perform e.customers w = (.ok a, w')) :
    (ask op >>= f).execute e.exec w = (f a).execute e.exec w' := by
  rw [Prog.execute_bind]
  simp only [ask, Prog.execute, e.exec_eq, h]

/-- Enqueuing tells the evaluation whether the key was new. -/
theorem execute_enqueueAlert (data : NewReadinessJob) (f : Bool → AlertCall α) :
    (enqueueAlert data >>= f).execute e.exec w =
      (f !(w.jobs.any fun job ↦ job.dedupeKey = data.dedupeKey)).execute e.exec
        (w.enqueue data) := by
  rw [Prog.execute_bind]
  cases hany : w.jobs.any fun job ↦ job.dedupeKey = data.dedupeKey <;>
    simp [enqueueAlert, Prog.execute, e.exec_eq, AlertOp.perform, AlertWorld.enqueue, hany]

/-- The jobs of a week's summary: one at most, under the key of the week. -/
def WeeklyJobs (userId goalId : ℕ) (now : ℤ) (jobs : List ReadinessJob) : Prop :=
  ∀ job ∈ jobs, job.type = .weeklySummary ∧ job.userId = userId ∧ job.goalId = goalId ∧
    job.createdAt = now ∧ job.toNewReadinessJob.WellKeyed

/-- **The summary** is refused for a zone that does not exist, or is in the queue when it is due. -/
theorem execute_publishWeekly (hnow : w.now = now) :
    ((publishWeekly intl userId now preference phone goal metrics state).execute e.exec w =
        (.error (.error "Invalid time zone specified"), w) ∧
      preference.weeklySummaryEnabled = true ∧
      weeklySchedule intl now preference.timeZone preference.weeklyDay
        preference.weeklyHourLocal = none) ∨
    ∃ weekly jobs, WeeklyJobs userId goal.id now jobs ∧
      (publishWeekly intl userId now preference phone goal metrics state).execute e.exec w =
        (.ok weekly, { w with jobs := w.jobs ++ jobs }) := by
  have hempty : WeeklyJobs userId goal.id now [] := fun _ hjob ↦ absurd hjob List.not_mem_nil
  have hsame : w = { w with jobs := w.jobs ++ [] } := by simp
  unfold publishWeekly
  split
  · next henabled =>
    split
    · next hschedule => exact .inl ⟨rfl, henabled, hschedule⟩
    · refine .inr ?_
      split
      · rw [execute_enqueueAlert]
        rcases AlertWorld.enqueue_cases w _ with h | h
        · rw [h]
          exact ⟨_, [], hempty, congrArg _ hsame⟩
        · rw [h]
          refine ⟨_, _, fun job hjob ↦ ?_, rfl⟩
          rw [List.mem_singleton.1 hjob]
          exact ⟨rfl, rfl, rfl, hnow, rfl, rfl, rfl⟩
      · exact ⟨none, [], hempty, congrArg _ hsame⟩
  · exact .inr ⟨none, [], hempty, congrArg _ hsame⟩

/-- What is written when no alert is published. -/
def calmUpdate (preference : AlertPreference) (metrics : StabilityMetrics)
    (state : Option AlertState) (weekly : Option (ℤ × ℤ)) : AlertStateUpdate :=
  if preference.riskAlertsEnabled ∧ state = none ∧ metrics.status = .stable then
    { observedUpdate metrics weekly with
      lastNotified := some (metrics.status, metrics.stabilityScore) }
  else observedUpdate metrics weekly

/-- **The decision** is enqueued, with what is to be written for it. -/
theorem execute_publishDecision (weekly : Option (ℤ × ℤ)) :
    (publishDecision userId now preference phone goal metrics state weekly).execute e.exec w =
      match if preference.riskAlertsEnabled then
        riskDecision metrics.status metrics.stabilityScore state now else none with
      | none => (.ok (calmUpdate preference metrics state weekly), w)
      | some decision => (.ok (decisionUpdate now metrics weekly decision),
          w.enqueue (decisionJob userId phone goal metrics state decision)) := by
  unfold publishDecision calmUpdate
  split
  · next henabled =>
    cases hdecision : riskDecision metrics.status metrics.stabilityScore state now with
    | none =>
      simp only [henabled, true_and]
      split <;> rfl
    | some decision =>
      rw [execute_enqueueAlert]
      rfl
  · next hdisabled =>
    simp only [hdisabled]
    rfl

variable (e intl userId preference phone goal metrics) in
/-- **A goal is evaluated**: the summary, the decision and the state. -/
theorem execute_evaluateGoal (hnow : w.now = now) :
    (((evaluateGoal intl userId now preference phone goal metrics).execute e.exec w).2 = w ∧
      preference.weeklySummaryEnabled = true ∧
      weeklySchedule intl now preference.timeZone preference.weeklyDay
        preference.weeklyHourLocal = none) ∨
    ∃ weekly jobs, WeeklyJobs userId goal.id now jobs ∧
      ((evaluateGoal intl userId now preference phone goal metrics).execute e.exec w).2 =
        match if preference.riskAlertsEnabled then
          riskDecision metrics.status metrics.stabilityScore (w.alertStates userId goal.id) now
          else none with
        | none => AlertWorld.upsertState { w with jobs := w.jobs ++ jobs } userId goal.id
          (calmUpdate preference metrics (w.alertStates userId goal.id) weekly)
        | some decision => (AlertWorld.enqueue { w with jobs := w.jobs ++ jobs }
          (decisionJob userId phone goal metrics (w.alertStates userId goal.id) decision)).upsertState
            userId goal.id (decisionUpdate now metrics weekly decision) := by
  have hupsert : ∀ (w : AlertWorld) update, ((ask (.upsertState userId goal.id update) :
      AlertCall Unit).execute e.exec w).2 = w.upsertState userId goal.id update := by
    intro w update
    simp only [ask, Prog.execute, e.exec_eq, AlertOp.perform, AlertWorld.upsertState]
  rw [evaluateGoal, execute_ask _ (by rfl), Prog.execute_bind]
  rcases execute_publishWeekly hnow with ⟨h, hweek⟩ | ⟨weekly, jobs, hjobs, h⟩
  · rw [h]
    exact .inl ⟨rfl, hweek⟩
  · rw [h]
    refine .inr ⟨weekly, jobs, hjobs, ?_⟩
    dsimp only
    rw [Prog.execute_bind, execute_publishDecision]
    generalize (if preference.riskAlertsEnabled then
      riskDecision metrics.status metrics.stabilityScore (w.alertStates userId goal.id) now
      else none) = decided
    cases decided with
    | none => exact hupsert _ _
    | some decision => exact hupsert _ _

end Parts

/-! ### The whole -/

namespace Evaluation

/-- What the evaluation reads of the stability of a goal. -/
def metrics (e : Evaluation) (goal : Goal) : StabilityMetrics :=
  stabilityMetrics goal (transactionsOf e.customers.ledger e.userId) e.now

/-- The status is that of the score. -/
theorem status_metrics (e : Evaluation) (goal : Goal) :
    (e.metrics goal).status = statusOf (e.metrics goal).stabilityScore := rfl

end Evaluation

/-- The goal as the dashboard returns it. -/
def Goal.response (goal : Goal) : StabilityGoal :=
  ⟨goal.id, goal.name, goal.amountTotalKobo, goal.dueDate, goal.income⟩

/-- The evaluation reaches the risk rules, and they decide on an alert. -/
structure Decides (intl : Intl) (w : AlertWorld) (e : Evaluation) (preference : AlertPreference)
    (phone : String) (goal : Goal) (decision : RiskDecision) : Prop where
  found : e.customers.preferences e.userId = some (preference, phone)
  active : activeGoal e.customers.goals e.userId = some goal
  /-- The summary of the week, which comes first, does not throw. -/
  week : preference.weeklySummaryEnabled = true → weeklySchedule intl e.now preference.timeZone
    preference.weeklyDay preference.weeklyHourLocal ≠ none
  enabled : preference.riskAlertsEnabled = true
  decided : riskDecision (e.metrics goal).status (e.metrics goal).stabilityScore
    (w.alertStates e.userId goal.id) e.now = some decision

section Whole

variable {intl : Intl} {w : AlertWorld} {e : Evaluation} {preference : AlertPreference}
  {phone : String} {goal : Goal}

/-- With preferences and an active goal it is the goal that is evaluated. -/
theorem evaluate_of_goal (hpreference : e.customers.preferences e.userId = some (preference, phone))
    (henabled : (!preference.weeklySummaryEnabled && !preference.riskAlertsEnabled) = false)
    (hgoal : activeGoal e.customers.goals e.userId = some goal) :
    w.evaluate intl e = ((evaluateGoal intl e.userId e.now preference phone goal.response
      (e.metrics goal)).execute e.exec { w with now := e.now }).2 := by
  unfold AlertWorld.evaluate evaluateUser
  rw [execute_ask _ (by rfl), execute_ask _ (by rfl), hpreference]
  simp only [henabled, Bool.false_eq_true, if_false]
  rw [readStability_bind, execute_ask _ (by rfl), hgoal]
  dsimp only
  rw [execute_ask _ (by rfl)]
  rfl

/-- **What one evaluation does.** -/
inductive Evaluated (e : Evaluation) (w : AlertWorld) : AlertWorld → Prop
  /-- It ends, or throws, before it has written anything. -/
  | idle : Evaluated e w { w with now := e.now }
  /-- It publishes the summary of the week at most. -/
  | calm (goal : Goal) (jobs : List ReadinessJob) (preference : AlertPreference)
      (weekly : Option (ℤ × ℤ)) (hjobs : WeeklyJobs e.userId goal.id e.now jobs) :
      Evaluated e w (AlertWorld.upsertState { w with now := e.now, jobs := w.jobs ++ jobs }
        e.userId goal.id
        (calmUpdate preference (e.metrics goal) (w.alertStates e.userId goal.id) weekly))
  /-- It publishes a decision, after the summary of the week at most. -/
  | decided (goal : Goal) (jobs : List ReadinessJob) (phone : String) (decision : RiskDecision)
      (weekly : Option (ℤ × ℤ)) (hjobs : WeeklyJobs e.userId goal.id e.now jobs)
      (hdecision : riskDecision (e.metrics goal).status (e.metrics goal).stabilityScore
        (w.alertStates e.userId goal.id) e.now = some decision) :
      Evaluated e w ((AlertWorld.enqueue { w with now := e.now, jobs := w.jobs ++ jobs }
        (decisionJob e.userId phone goal.response (e.metrics goal)
          (w.alertStates e.userId goal.id) decision)).upsertState e.userId goal.id
          (decisionUpdate e.now (e.metrics goal) weekly decision))

/-- **Every evaluation** does nothing, or what `Evaluated` says. -/
theorem evaluated (intl : Intl) (w : AlertWorld) (e : Evaluation) :
    Evaluated e w (w.evaluate intl e) := by
  -- The early returns of the source: no preference, nothing enabled, no active goal.
  cases hfound : e.customers.preferences e.userId with
  | none =>
    have hidle : w.evaluate intl e = { w with now := e.now } := by
      unfold AlertWorld.evaluate evaluateUser
      rw [execute_ask _ (by rfl), execute_ask _ (by rfl), hfound]
      rfl
    exact hidle ▸ .idle
  | some found =>
    obtain ⟨preference, phone⟩ := found
    cases henabled : !preference.weeklySummaryEnabled && !preference.riskAlertsEnabled with
    | true =>
      have hidle : w.evaluate intl e = { w with now := e.now } := by
        unfold AlertWorld.evaluate evaluateUser
        rw [execute_ask _ (by rfl), execute_ask _ (by rfl), hfound]
        simp only [henabled, if_true]
        rfl
      exact hidle ▸ .idle
    | false =>
      cases hgoal : activeGoal e.customers.goals e.userId with
      | none =>
        have hidle : w.evaluate intl e = { w with now := e.now } := by
          unfold AlertWorld.evaluate evaluateUser
          rw [execute_ask _ (by rfl), execute_ask _ (by rfl), hfound]
          simp only [henabled, Bool.false_eq_true, if_false]
          rw [readStability_bind, execute_ask _ (by rfl), hgoal]
          rfl
        exact hidle ▸ .idle
      | some goal =>
        rw [evaluate_of_goal hfound henabled hgoal]
        have hrest := execute_evaluateGoal e intl e.userId preference phone goal.response
          (e.metrics goal) (show { w with now := e.now }.now = e.now from rfl)
        rcases hrest with ⟨h, -⟩ | ⟨weekly, jobs, hjobs, h⟩
        · rw [h]
          exact .idle
        · rw [h]
          split
          · exact .calm goal jobs preference weekly hjobs
          · next decision hdecided =>
            split at hdecided
            · exact .decided goal jobs phone decision weekly hjobs hdecided
            · cases hdecided

/-- **An alert that is decided on is enqueued**, unless its key is there already. -/
theorem evaluate_of_decides {decision : RiskDecision}
    (h : Decides intl w e preference phone goal decision) :
    ∃ jobs, WeeklyJobs e.userId goal.id e.now jobs ∧ (w.evaluate intl e).jobs =
      (AlertWorld.enqueue { w with now := e.now, jobs := w.jobs ++ jobs }
        (decisionJob e.userId phone goal.response (e.metrics goal)
          (w.alertStates e.userId goal.id) decision)).jobs := by
  have hnot : (!preference.weeklySummaryEnabled && !preference.riskAlertsEnabled) = false := by
    simp [h.enabled]
  rw [evaluate_of_goal h.found hnot h.active]
  have hrest := execute_evaluateGoal e intl e.userId preference phone goal.response
    (e.metrics goal) (show { w with now := e.now }.now = e.now from rfl)
  rcases hrest with ⟨-, hsummary, hweek⟩ | ⟨weekly, jobs, hjobs, heq⟩
  · exact absurd hweek (h.week hsummary)
  · refine ⟨jobs, hjobs, ?_⟩
    have hdecided : riskDecision (e.metrics goal).status (e.metrics goal).stabilityScore
        (w.alertStates e.userId goal.response.id) e.now = some decision := h.decided
    rw [heq, h.enabled, hdecided]
    rfl

end Whole

end Stead
