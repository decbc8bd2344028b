import Stead.Alerts.Service

/-!
# The cooldown of risk alerts

After a risk alert further ones of the same goal are to wait for a day. An evaluation decides on
that by the alert state it has read, and what it publishes gets into the state by a statement of its
own, later. So the queue and the state may disagree: the state may not have been written, or it may
have been read before another evaluator wrote it.

What an evaluation goes by is its `Basis`: the instant it has read off the clock and the state it
has found. The text of `evaluateUser` gives the rule `CooldownStatement` for every statement that
publishes a risk alert (`evaluateUser_keepsCooldown`), whatever the statements before it were
answered.

## The condition

The cooldown is `Remembered` at an insertion when each risk alert of the goal that is in the queue,
and that was less than a cooldown old when the evaluation read its clock, is in the state the
evaluation has found. Alerts that are older ask nothing: the clock does not run backwards
(`Clocked`), so the new alert is a cooldown after them whatever the state says. Nor does an
evaluation that publishes no risk alert, or one whose alert the queue has already.

`cooldown_survives` is for every run whose insertions meet the condition, over any number of
evaluators that overlap, fail, are lost, or take the evaluation up again.

## What breaks it

When the state could not be written after an alert was published, the next evaluation decides anew,
and as soon as the score has changed its alert has another dedupe key, so that the queue takes it
(`retry_breaks_cooldown`).
-/

namespace Stead

open Concurrency

/-- Risk alerts of one goal are a cooldown apart, in the order in which they were enqueued. -/
def Spaced (jobs : List ReadinessJob) : Prop :=
  jobs.Pairwise fun job job' ↦ job.type = .riskAlert → job'.type = .riskAlert →
    job.userId = job'.userId → job.goalId = job'.goalId →
      job.createdAt + RISK_COOLDOWN_MS ≤ job'.createdAt

instance (jobs : List ReadinessJob) : Decidable (Spaced jobs) :=
  inferInstanceAs (Decidable (List.Pairwise _ _))

/-! ### What an evaluation decides by -/

/-- The clock and the state an evaluation has read. -/
structure Basis (trace : List (Exchange AlertStatements)) (userId goalId : ℕ) (now : ℤ)
    (state : Option AlertState) : Prop where
  now : (⟨.now, .ok now⟩ : Exchange AlertStatements) ∈ trace
  state : (⟨.findState userId goalId, .ok state⟩ : Exchange AlertStatements) ∈ trace

/-- A risk alert is published when the state read has no alert within the cooldown. -/
def CooldownStatement (trace : List (Exchange AlertStatements)) (op : AlertOp) : Prop :=
  ∀ data, op = .createJob data → data.type = .riskAlert →
    ∃ now state, Basis trace data.userId data.goalId now state ∧ ∀ lastRiskAlertAt,
      state.bind AlertState.lastRiskAlertAt = some lastRiskAlertAt →
        lastRiskAlertAt + RISK_COOLDOWN_MS ≤ now

/-- A statement that publishes no risk alert keeps the rule. -/
theorem CooldownStatement.of_ne {trace : List (Exchange AlertStatements)} {op : AlertOp}
    (h : ∀ data, op = .createJob data → data.type ≠ .riskAlert) : CooldownStatement trace op :=
  fun data hop hrisk ↦ absurd hrisk (h data hop)

/-- A statement that writes nothing keeps to the cooldown. -/
theorem CooldownStatement.of_reads {trace : List (Exchange AlertStatements)} {op : AlertOp}
    (h : op.reads = true) : CooldownStatement trace op := by
  refine .of_ne fun data hop ↦ ?_
  rw [hop] at h
  cases h

section Evaluation

variable {intl : Intl} {userId : ℕ} {now : ℤ} {preference : AlertPreference} {phone : String}
  {goal : StabilityGoal} {metrics : StabilityMetrics} {state : Option AlertState}
  {trace : List (Exchange AlertStatements)}

/-- The weekly summary is no risk alert. -/
theorem publishWeekly_keepsCooldown :
    (publishWeekly intl userId now preference phone goal metrics state).Keeps CooldownStatement
      (fun trace' _ ↦ trace <+: trace') (fun _ _ ↦ True) trace := by
  refine .ite (fun _ ↦ ?_) fun _ ↦ List.prefix_rfl
  cases weeklySchedule intl now preference.timeZone preference.weeklyDay
    preference.weeklyHourLocal with
  | none => trivial
  | some schedule =>
    refine .ite (fun _ ↦ ?_) fun _ ↦ List.prefix_rfl
    refine keeps_enqueueAlert_bind (.of_ne fun data hop hrisk ↦ ?_) fun _ _ _ ↦
      List.prefix_append _ _
    obtain rfl := AlertOp.createJob.inj hop
    cases hrisk

/-- A decision for a risk alert is one against the cooldown of the state that was read. -/
theorem publishDecision_keepsCooldown (weekly : Option (ℤ × ℤ))
    (hbasis : Basis trace userId goal.id now state) :
    (publishDecision userId now preference phone goal metrics state weekly).Keeps
      CooldownStatement (fun _ _ ↦ True) (fun _ _ ↦ True) trace := by
  refine .ite (fun _ ↦ ?_) fun _ ↦ trivial
  cases hdecision : riskDecision metrics.status metrics.stabilityScore state now with
  | none => exact .ite (fun _ ↦ trivial) fun _ ↦ trivial
  | some decision =>
    refine keeps_enqueueAlert_bind (fun data hop hrisk ↦ ?_) fun _ _ _ ↦ trivial
    obtain rfl := AlertOp.createJob.inj hop
    cases decision with
    | risk => exact ⟨now, state, hbasis, (cooldown_of_risk hdecision).2⟩
    | recovery => cases hrisk

/-- From the reading of the state on: what the decision rests on is in the trace by then. -/
theorem evaluateGoal_keepsCooldown
    (hnow : (⟨.now, .ok now⟩ : Exchange AlertStatements) ∈ trace) :
    (evaluateGoal intl userId now preference phone goal metrics).Keeps CooldownStatement
      (fun _ _ ↦ True) (fun _ _ ↦ True) trace := by
  refine keeps_ask_bind (.of_reads rfl) fun state ↦ ?_
  refine .bind publishWeekly_keepsCooldown fun trace₁ weekly hext ↦ ?_
  have hbasis : Basis trace₁ userId goal.id now state :=
    ⟨hext.mem (List.mem_append_left _ hnow),
      hext.mem (List.mem_append_right _ (List.mem_singleton_self _))⟩
  refine .bind (publishDecision_keepsCooldown weekly hbasis) fun trace₂ update _ ↦ ?_
  exact keeps_ask (.of_ne fun _ hop ↦ (by cases hop)) fun _ ↦ trivial

end Evaluation

/-- **Every evaluation keeps the rule**, whatever its statements are answered. -/
theorem evaluateUser_keepsCooldown (intl : Intl) (userId : ℕ) :
    (evaluateUser intl userId).Keeps CooldownStatement (fun _ _ ↦ True) (fun _ _ ↦ True) [] := by
  refine keeps_ask_bind (.of_reads rfl) fun now ↦ ?_
  refine keeps_ask_bind (.of_reads rfl) fun found ↦ ?_
  cases found with
  | none => trivial
  | some found =>
    refine .ite (fun _ ↦ trivial) fun _ ↦ ?_
    rw [readStability_bind]
    refine keeps_ask_bind (.of_reads rfl) fun answer ↦ ?_
    cases answer with
    | none => trivial
    | some goal =>
      refine keeps_ask_bind (.of_reads rfl) fun transactions ↦ ?_
      exact evaluateGoal_keepsCooldown (by simp)

/-! ### Runs in which alerts are remembered -/

variable {ι : Type} [DecidableEq ι]

/-- The statement puts a job into the queue. -/
def Inserts (x : AlertChoice) (data : NewReadinessJob) (w : AlertWorld) : Prop :=
  x.fault ≠ .before ∧ ∀ job ∈ w.jobs, job.dedupeKey ≠ data.dedupeKey

/-- When a risk alert is put into the queue, the state its evaluation has read has every risk alert
of the goal that is there and was less than a cooldown old by the evaluation's clock: the alert was
enqueued no later after the instant remembered than the new one is after the reading of the clock. -/
def Remembered : Restriction AlertStatements ι AlertChoice AlertWorld where
  stmt i x op s := ∀ data, op = .createJob data → data.type = .riskAlert →
    Inserts x data s.shared → ∀ now state, Basis (s.trace i) data.userId data.goalId now state →
      ∀ job ∈ s.shared.jobs, job.type = .riskAlert → job.userId = data.userId →
        job.goalId = data.goalId → now < job.createdAt + RISK_COOLDOWN_MS → ∃ lastRiskAlertAt,
          state.bind AlertState.lastRiskAlertAt = some lastRiskAlertAt ∧
            job.createdAt - lastRiskAlertAt ≤ s.shared.now + x.elapse - now
  crash _ _ := True

/-- What a call has read of the clock is in the past. -/
def Clocked (s : State AlertStatements ι AlertWorld) : Prop :=
  ∀ (i : ι) (now : ℤ), (⟨.now, .ok now⟩ : Exchange AlertStatements) ∈ s.trace i →
    now ≤ s.shared.now

/-- The clock moves on with every statement, and what a call reads of it is what it shows. -/
theorem Clocked.after {s : State AlertStatements ι AlertWorld} (hs : Clocked s) (i : ι)
    (x : AlertChoice) (op : AlertOp) :
    Clocked (s.after i op (op.exec x s.shared).1 (op.exec x s.shared).2) := by
  intro j now hmem
  show now ≤ (op.exec x s.shared).2.now
  rw [AlertOp.exec_now]
  rcases State.mem_trace_after hmem with hearlier | ⟨-, hread⟩
  · have hpast := hs j now hearlier
    omega
  · -- the statement itself is the reading of the clock
    cases hread
    exact le_rfl

/-- **One step.** An alert that is a cooldown old when the clock is read needs no remembering; a
younger one is remembered, and then the rule of the evaluation puts the new one far enough off. -/
theorem Spaced.after {s : State AlertStatements ι AlertWorld} (hs : Spaced s.shared.jobs)
    (hclock : Clocked s) {i : ι} {x : AlertChoice} {op : AlertOp}
    (hop : CooldownStatement (s.trace i) op) (ha : Remembered.stmt i x op s) :
    Spaced (op.exec x s.shared).2.jobs := by
  rcases op.exec_jobs x s.shared with h | ⟨data, rfl, hfree, h⟩
  · exact h ▸ hs
  by_cases hfault : x.fault = .before
  · have hsame : ((AlertOp.createJob data).exec x s.shared).2.jobs = s.shared.jobs := by
      simp [AlertOp.exec, hfault]
    exact hsame ▸ hs
  · rw [h]
    refine List.pairwise_append.2 ⟨hs, List.pairwise_singleton _ _, ?_⟩
    intro job hjob job' hjob' hrisk hrisk' huser hgoal
    obtain rfl := List.mem_singleton.1 hjob'
    obtain ⟨now, state, hbasis, hcooldown⟩ := hop data rfl hrisk'
    show job.createdAt + RISK_COOLDOWN_MS ≤ s.shared.now + x.elapse
    by_cases hyoung : now < job.createdAt + RISK_COOLDOWN_MS
    · obtain ⟨lastRiskAlertAt, hlast, hdelay⟩ := ha data rfl hrisk' ⟨hfault, hfree⟩ now state
        hbasis job hjob hrisk huser hgoal hyoung
      have hover := hcooldown lastRiskAlertAt hlast
      omega
    · have hpast := hclock i now hbasis.now
      omega

/-- **The cooldown survives** failures, retries and overlapping evaluations in every run in which
the risk alerts of the last day are remembered when the next one is put into the queue. -/
theorem cooldown_survives (intl : Intl) (now : ℤ) (users : ι → ℕ) {c : Evaluators ι}
    (hc : Run (alertMachine ι) Remembered (Evaluators.start intl now users) c) :
    Spaced c.state.shared.jobs := by
  have hstart : Spaced (Evaluators.start intl now users).state.shared.jobs ∧
      Clocked (Evaluators.start intl now users).state :=
    ⟨List.Pairwise.nil, fun _ _ hmem ↦ absurd hmem List.not_mem_nil⟩
  refine (hc.invariant_keeps (I := fun s ↦ Spaced s.shared.jobs ∧ Clocked s)
    (Config.keeps_start fun i ↦ evaluateUser_keepsCooldown intl (users i)) hstart
    (fun s i x op r t hs hop ha hx ↦ ?_) fun s i hs _ ↦ hs).1.1
  obtain ⟨rfl, rfl⟩ : (op.exec x s.shared).1 = r ∧ (op.exec x s.shared).2 = t :=
    Prod.mk.inj (Option.some.inj hx)
  exact ⟨hs.1.after hs.2 hop ha, hs.2.after i x op⟩

/-! ### Schedules -/

namespace Demo

/-- The condition that lets alerts be published when the earlier ones are remembered. -/
def remembers (i : ℕ) (op : AlertOp) (s : State AlertStatements ℕ AlertWorld) : Bool :=
  match op with
  | .createJob _ => s.shared.jobs.all fun job ↦ (s.trace i).all fun
    | ⟨.now, .ok now⟩ => (s.trace i).all fun
      | ⟨.findState _ _, .ok state⟩ => job.type ≠ .riskAlert ||
        (state.bind AlertState.lastRiskAlertAt).any fun lastRiskAlertAt ↦
          job.createdAt - lastRiskAlertAt ≤ s.shared.now - now
      | _ => true
    | _ => true
  | _ => true

/-- What the schedules below check at each insertion is enough for the condition. -/
theorem remembered_of_remembers (i : ℕ) (x : AlertChoice) (op : AlertOp)
    (s : State AlertStatements ℕ AlertWorld) (h : remembers i op s = true) :
    Remembered.stmt i x op s := by
  rintro data rfl - - now state hbasis job hjob hrisk - - -
  have hall := List.all_eq_true.1 (List.all_eq_true.1 (List.all_eq_true.1 h job hjob) _ hbasis.now)
    _ hbasis.state
  simp only [hrisk, ne_eq, not_true_eq_false, decide_false, Bool.false_or, Option.any_eq_true,
    decide_eq_true_eq] at hall
  obtain ⟨lastRiskAlertAt, hlast, hdelay⟩ := hall
  exact ⟨lastRiskAlertAt, hlast, by omega⟩

/-- Evaluations of one user, a turn of one of them after some time. -/
def waitFor (i elapse : ℕ) (fault : Fault) (ledger : List LedgerEntry) :
    List (Turn ℕ AlertChoice) := [⟨i, elapse, fault, customersWith ledger⟩]

/-- Any number of evaluators of one user, before the first step. -/
def evaluators : Evaluators ℕ := Evaluators.start monday 0 fun _ ↦ 0

/-- Half of the rent is saved, and a day later it is gone. -/
theorem nextDay_runs : (evaluators.turns (alertMachine ℕ) remembers
    (alertSteps 0 8 [saving 50000] ++ waitFor 1 86400000 .none [] ++ alertSteps 1 6 [])).isSome := by
  decide +kernel

/-- What the schedule leads to. -/
def nextDay : Evaluators ℕ := evaluators.afterTurns _ _ _ nextDay_runs

/-- The state cannot be written after the first alert, and a minute later a little is spent. -/
theorem retried_runs : (evaluators.turns (alertMachine ℕ) anyStatement
    (alertSteps 0 7 [deposit 20000] ++ waitFor 0 0 .before [deposit 20000] ++
      waitFor 1 60000 .none [] ++ alertSteps 1 7 [])).isSome := by
  decide +kernel

/-- What the schedule leads to. -/
def retried : Evaluators ℕ := evaluators.afterTurns _ _ _ retried_runs

end Demo

open Demo

/-- The day after, the second alert of the goal is published. -/
theorem cooldown_survives_next_day :
    Spaced nextDay.state.shared.jobs ∧
      nextDay.state.shared.jobs.countP (fun job ↦ job.type = .riskAlert) = 2 := by
  have hrun : Run (alertMachine ℕ) Remembered (Evaluators.start monday 0 fun _ ↦ 0) nextDay :=
    Config.run_afterTurns remembered_of_remembers nextDay_runs
  exact ⟨cooldown_survives monday 0 (fun _ ↦ 0) hrun, by decide +kernel⟩

/-- A retry that sees another score publishes a second risk alert a minute after the first. -/
theorem retry_breaks_cooldown : ¬ ∀ (intl : Intl) (now : ℤ) (users : ℕ → ℕ) (c : Evaluators ℕ),
    Run (alertMachine ℕ) .all (Evaluators.start intl now users) c →
      Spaced c.state.shared.jobs := by
  intro h
  have hspaced := h monday 0 (fun _ ↦ 0) retried
    (Config.run_afterTurns (fun _ _ _ _ _ ↦ trivial) retried_runs)
  revert hspaced
  decide +kernel

end Stead
