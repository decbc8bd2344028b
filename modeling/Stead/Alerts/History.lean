import Stead.Alerts.Evaluation
import Mathlib.Computability.RegularExpressions

/-!
# The history of alerts

What the risk and recovery alerts of a goal may be is said without the state the rules go by
(`AlertHistory`): a risk alert comes a cooldown after the others and is worse than the one before,
a recovery follows a risk. The shape, the falling scores and the cooldown are read off it
(`AlertHistory.shape`, `falling`, `spaced`).

## Memory

Evaluations produce such histories because the alert state remembers enough of them (`Remembers`):
which alert came last, with its status and score, and when the last risk and the last recovery were.
The rules decide by that, and `Remembers.decided` is the step: what is decided continues the
history, and what is written then remembers it.

A dedupe key carries the instant of an alert that came before (its *anchor*), so that it cannot be
older than that alert; and as long as the anchor stays what it is, scores fall. So no alert that is
to be published is taken for one that is there (`fresh_risk`, `fresh_recovery`).

## Runs

`Recorded` is the invariant of the store: for each user and goal, the alerts in the queue are a
history that the state remembers. An evaluation keeps it (`Recorded.evaluated`), whatever it
publishes, and so do any number of them in the order of their clocks (`recorded_evaluations`).
`alert_history_law` says what follows for the queue.
-/

namespace Stead

open Concurrency
open scoped Computability

/-! ### Histories -/

/-- The score an alert tells. -/
def ReadinessAlertBody.score : ReadinessAlertBody → ℤ
  | weeklySummary _ _ _ stabilityScore _ => stabilityScore
  | risk _ _ score => score
  | recovery _ score => score

/-- `risk*` -/
def riskShape : RegularExpression ReadinessAlertType := .star (.char .riskAlert)

/-- `(risk+ recovery)*` -/
def settledShape : RegularExpression ReadinessAlertType :=
  .star (.char .riskAlert * riskShape * .char .riskRecovery)

/-- `(risk+ recovery)* risk*` -/
def alertShape : RegularExpression ReadinessAlertType := settledShape * riskShape

/-- The newest alert is one of a risk. -/
def Alarmed (alerts : List ReadinessJob) (last : ReadinessJob) : Prop :=
  alerts.getLast? = some last ∧ last.type = .riskAlert

/-- What the alerts of a goal may be. -/
inductive AlertHistory : List ReadinessJob → Prop
  | nil : AlertHistory []
  | risk {alerts : List ReadinessJob} {job : ReadinessJob} (h : AlertHistory alerts)
      (htype : job.type = .riskAlert)
      (hcooldown : ∀ earlier ∈ alerts, earlier.type = .riskAlert →
        earlier.createdAt + RISK_COOLDOWN_MS ≤ job.createdAt)
      (hworse : ∀ last, Alarmed alerts last → job.body.score < last.body.score) :
      AlertHistory (alerts ++ [job])
  | recovery {alerts : List ReadinessJob} {job last : ReadinessJob} (h : AlertHistory alerts)
      (htype : job.type = .riskRecovery) (hlast : Alarmed alerts last) :
      AlertHistory (alerts ++ [job])

/-- One more word of a language. -/
theorem append_mem_kstar {α : Type} {l : Language α} {x y : List α} (hx : x ∈ l∗) (hy : y ∈ l) :
    x ++ y ∈ l∗ :=
  Set.mem_of_mem_of_subset (Language.append_mem_mul hx hy) (kstar_mul_le_kstar (a := l))

namespace AlertHistory

variable {alerts : List ReadinessJob}

/-- Blocks that ended with a recovery, and one of risks that has not. -/
theorem blocks (h : AlertHistory alerts) : ∃ settled block,
    alerts.map (fun job ↦ job.type) = settled ++ block ∧ settled ∈ settledShape.matches' ∧
      block ∈ riskShape.matches' ∧ ∀ last, Alarmed alerts last → block ≠ [] := by
  have hnil : ([] : List ReadinessAlertType) ∈ riskShape.matches' := Language.nil_mem_kstar _
  have hrisk : [.riskAlert] ∈ (RegularExpression.char ReadinessAlertType.riskAlert).matches' := rfl
  induction h with
  | nil => exact ⟨[], [], rfl, Language.nil_mem_kstar _, hnil, fun _ h ↦ (by cases h.1)⟩
  | @risk alerts job _ htype _ _ ih =>
    obtain ⟨settled, block, heq, hsettled, hblock, -⟩ := ih
    refine ⟨settled, block ++ [.riskAlert], ?_, hsettled, ?_, fun _ _ ↦ by simp⟩
    · simp [heq, htype]
    · exact append_mem_kstar hblock hrisk
  | @recovery alerts job last _ htype hlast ih =>
    obtain ⟨settled, block, heq, hsettled, hblock, hnonempty⟩ := ih
    refine ⟨settled ++ (block ++ [.riskRecovery]), [], ?_, ?_, hnil, fun last' hlast' ↦ ?_⟩
    · simp [heq, htype]
    · refine append_mem_kstar hsettled ?_
      refine Language.append_mem_mul ?_ (show [.riskRecovery] ∈
        (RegularExpression.char ReadinessAlertType.riskRecovery).matches' from rfl)
      have hsplit : block ∈ 1 + (RegularExpression.char ReadinessAlertType.riskAlert).matches' *
          riskShape.matches' := by
        rw [riskShape, RegularExpression.matches'_star,
          Language.one_add_self_mul_kstar_eq_kstar]
        exact hblock
      exact hsplit.resolve_left (hnonempty last hlast)
    · have hsame : job = last' := by simpa [Alarmed] using hlast'.1
      rw [← hsame] at hlast'
      exact absurd (htype.symm.trans hlast'.2) nofun

/-- The alerts have the shape `(risk+ recovery)* risk*`. -/
theorem shape (h : AlertHistory alerts) :
    alerts.map (fun job ↦ job.type) ∈ alertShape.matches' := by
  obtain ⟨settled, block, heq, hsettled, hblock, -⟩ := h.blocks
  rw [heq]
  exact Language.append_mem_mul hsettled hblock

/-- Risk alerts are a cooldown apart. -/
theorem spaced (h : AlertHistory alerts) : alerts.Pairwise fun job job' ↦
    job.type = .riskAlert → job'.type = .riskAlert →
      job.createdAt + RISK_COOLDOWN_MS ≤ job'.createdAt := by
  induction h with
  | nil => exact .nil
  | risk _ _ hcooldown _ ih =>
    refine List.pairwise_append.2 ⟨ih, List.pairwise_singleton _ _, ?_⟩
    intro job hjob job' hjob' hrisk _
    rw [List.mem_singleton.1 hjob']
    exact hcooldown job hjob hrisk
  | recovery _ htype _ ih =>
    refine List.pairwise_append.2 ⟨ih, List.pairwise_singleton _ _, ?_⟩
    intro job _ job' hjob' _ hrisk
    rw [List.mem_singleton.1 hjob', htype] at hrisk
    cases hrisk

/-- A risk alert right after another tells a lower score. -/
theorem chain (h : AlertHistory alerts) : alerts.IsChain fun job job' ↦
    job.type = .riskAlert → job'.type = .riskAlert → job'.body.score < job.body.score := by
  induction h with
  | nil => exact .nil
  | risk _ _ _ hworse ih =>
    refine List.isChain_append.2 ⟨ih, .singleton _, ?_⟩
    intro last hlast job hjob hrisk _
    obtain rfl : _ = job := by simpa using hjob
    exact hworse last ⟨hlast, hrisk⟩
  | recovery _ htype _ ih =>
    refine List.isChain_append.2 ⟨ih, .singleton _, ?_⟩
    intro last _ job hjob _ hrisk
    obtain rfl : _ = job := by simpa using hjob
    rw [htype] at hrisk
    cases hrisk

/-- In a block of risk alerts the scores fall. -/
theorem falling (h : AlertHistory alerts) {block : List ReadinessJob} (hblock : block <:+: alerts)
    (hrisk : ∀ job ∈ block, job.type = .riskAlert) :
    block.Pairwise fun job job' ↦ job'.body.score < job.body.score := by
  have hinside := List.IsChain.infix h.chain hblock
  have hchain : block.IsChain fun job job' ↦ job.body.score > job'.body.score :=
    hinside.imp_of_mem_imp fun job job' hjob hjob' hlt ↦
      hlt (hrisk job hjob) (hrisk job' hjob')
  have hscores : (block.map fun job ↦ job.body.score).Pairwise (· > ·) :=
    List.isChain_iff_pairwise.1 ((List.isChain_map _).2 hchain)
  exact List.pairwise_map.1 hscores

end AlertHistory

/-! ### What an alert state remembers -/

/-- The instant a key carries, of an alert that came before. -/
def AlertKey.anchor : AlertKey → Option ℤ
  | weekly _ _ _ => none
  | occurrence _ _ _ anchor _ _ _ _ => anchor

/-- The parts of a row that may not be there. -/
structure Memory where
  status : Option StabilityStatus
  score : Option ℤ
  riskAt : Option ℤ
  recoveryAt : Option ℤ

/-- What a state remembers. -/
def memoryOf (state : Option AlertState) : Memory where
  status := state.bind AlertState.lastNotifiedStatus
  score := state.bind AlertState.lastNotifiedScore
  riskAt := state.bind AlertState.lastRiskAlertAt
  recoveryAt := state.bind AlertState.lastRecoveryAlertAt

/-- What an alert state remembers of the alerts of its goal. -/
structure Remembers (memory : Memory) (alerts : List ReadinessJob) : Prop where
  status : memory.status = memory.score.map statusOf
  /-- While there is an alarm, the score is the one notified last and the last instant is its. -/
  alarmed : ∀ last, Alarmed alerts last → memory.score = some last.body.score ∧
    ∃ riskAt, memory.riskAt = some riskAt ∧ ∀ job ∈ alerts, job.createdAt ≤ riskAt
  calm : ∀ status, memory.status = some status → status ≠ .stable → ∃ last, Alarmed alerts last
  risks : ∀ job ∈ alerts, job.type = .riskAlert →
    ∃ riskAt, memory.riskAt = some riskAt ∧ job.createdAt ≤ riskAt
  recoveries : ∀ job ∈ alerts, job.type ≠ .riskAlert → memory.recoveryAt ≠ none
  instants : ∀ at_, memory.riskAt = some at_ ∨ memory.recoveryAt = some at_ →
    ∃ job ∈ alerts, job.createdAt = at_
  /-- A key names what came before. -/
  anchors : ∀ job ∈ alerts, ∀ at_, job.dedupeKey.anchor = some at_ → at_ < job.createdAt
  /-- Under the present anchor of risk alerts, scores have not risen. -/
  present : ∀ job ∈ alerts, job.type = .riskAlert → ∀ at_, memory.recoveryAt = some at_ →
    job.dedupeKey.anchor = some at_ →
      ∃ last, Alarmed alerts last ∧ last.body.score ≤ job.body.score

namespace Remembers

variable {memory : Memory} {alerts : List ReadinessJob} {job : ReadinessJob} {now : ℤ}

theorem nil : Remembers ⟨none, none, none, none⟩ [] where
  status := rfl
  alarmed := fun _ h ↦ (by cases h.1)
  calm := fun _ h ↦ (by cases h)
  risks := fun _ h ↦ absurd h List.not_mem_nil
  recoveries := fun _ h ↦ absurd h List.not_mem_nil
  instants := fun _ h ↦ (by rcases h with h | h <;> cases h)
  anchors := fun _ h ↦ absurd h List.not_mem_nil
  present := fun _ h ↦ absurd h List.not_mem_nil

/-- The newest alert of a list with a risk alert at its end. -/
theorem alarmed_append (htype : job.type = .riskAlert) : Alarmed (alerts ++ [job]) job :=
  ⟨List.getLast?_concat, htype⟩

/-- The last alarm after an alert is that alert. -/
theorem eq_of_alarmed_append {last : ReadinessJob} (h : Alarmed (alerts ++ [job]) last) :
    last = job := by
  have hlast := h.1
  rw [List.getLast?_concat] at hlast
  exact (Option.some.inj hlast).symm

/-- An instant that is remembered is over. -/
theorem lt_now (h : Remembers memory alerts) (hpast : ∀ job ∈ alerts, job.createdAt < now)
    {at_ : ℤ} (hat : memory.riskAt = some at_ ∨ memory.recoveryAt = some at_) : at_ < now := by
  obtain ⟨job, hjob, rfl⟩ := h.instants at_ hat
  exact hpast job hjob

/-- A risk alert is published. -/
theorem risk (h : Remembers memory alerts) (hpast : ∀ job ∈ alerts, job.createdAt < now)
    (hworse : ∀ last, Alarmed alerts last → job.body.score < last.body.score)
    (htype : job.type = .riskAlert) (hnow : job.createdAt = now)
    (hanchor : job.dedupeKey.anchor = memory.recoveryAt.orElse fun _ ↦ memory.riskAt) :
    Remembers ⟨some (statusOf job.body.score), some job.body.score, some now, memory.recoveryAt⟩
      (alerts ++ [job]) where
  status := rfl
  alarmed := by
    intro last hlast
    obtain rfl := eq_of_alarmed_append hlast
    refine ⟨rfl, now, rfl, fun other hother ↦ ?_⟩
    rcases List.mem_append.1 hother with hother | hother
    · exact (hpast other hother).le
    · rw [List.mem_singleton.1 hother, hnow]
  calm := fun _ _ _ ↦ ⟨job, alarmed_append htype⟩
  risks := by
    intro other hother _
    refine ⟨now, rfl, ?_⟩
    rcases List.mem_append.1 hother with hother | hother
    · exact (hpast other hother).le
    · rw [List.mem_singleton.1 hother, hnow]
  recoveries := by
    intro other hother hrisk
    rcases List.mem_append.1 hother with hother | hother
    · exact h.recoveries other hother hrisk
    · exact absurd (List.mem_singleton.1 hother ▸ htype) hrisk
  instants := by
    rintro at_ (hat | hat)
    · obtain rfl : now = at_ := Option.some.inj hat
      exact ⟨job, List.mem_append_right _ (List.mem_singleton_self _), hnow⟩
    · obtain ⟨other, hother, heq⟩ := h.instants at_ (.inr hat)
      exact ⟨other, List.mem_append_left _ hother, heq⟩
  -- The key of the alert is made of what was remembered: the recovery, else the last risk.
  anchors := by
    intro other hother at_ hat
    rcases List.mem_append.1 hother with hother | hother
    · exact h.anchors other hother at_ hat
    · obtain rfl := List.mem_singleton.1 hother
      rw [hnow]
      rw [hanchor] at hat
      cases hrecovery : memory.recoveryAt with
      | none =>
        rw [hrecovery] at hat
        exact h.lt_now hpast (.inl hat)
      | some recoveryAt =>
        rw [hrecovery] at hat
        exact h.lt_now hpast (.inr (hrecovery.trans hat))
  -- Since the last recovery the scores fall, so the new alert is the lowest.
  present := by
    intro other hother hrisk at_ hrecovery hat
    refine ⟨job, alarmed_append htype, ?_⟩
    rcases List.mem_append.1 hother with hother | hother
    · obtain ⟨last, hlast, hle⟩ := h.present other hother hrisk at_ hrecovery hat
      exact (hworse last hlast).le.trans hle
    · rw [List.mem_singleton.1 hother]

/-- A recovery is published. -/
theorem recovery (h : Remembers memory alerts) (hpast : ∀ job ∈ alerts, job.createdAt < now)
    (htype : job.type = .riskRecovery) (hnow : job.createdAt = now)
    (hstable : statusOf job.body.score = .stable)
    (hanchor : job.dedupeKey.anchor = memory.riskAt.orElse fun _ ↦ memory.recoveryAt) :
    Remembers ⟨some (statusOf job.body.score), some job.body.score, memory.riskAt, some now⟩
      (alerts ++ [job]) where
  status := rfl
  alarmed := by
    intro last hlast
    have hrisk := hlast.2
    rw [eq_of_alarmed_append hlast, htype] at hrisk
    cases hrisk
  calm := by
    intro status hstatus hne
    exact absurd ((Option.some.inj hstatus).symm.trans hstable) hne
  risks := by
    intro other hother hrisk
    rcases List.mem_append.1 hother with hother | hother
    · exact h.risks other hother hrisk
    · rw [List.mem_singleton.1 hother, htype] at hrisk
      cases hrisk
  recoveries := fun _ _ _ ↦ (by simp)
  instants := by
    rintro at_ (hat | hat)
    · obtain ⟨other, hother, heq⟩ := h.instants at_ (.inl hat)
      exact ⟨other, List.mem_append_left _ hother, heq⟩
    · obtain rfl : now = at_ := Option.some.inj hat
      exact ⟨job, List.mem_append_right _ (List.mem_singleton_self _), hnow⟩
  anchors := by
    intro other hother at_ hat
    rcases List.mem_append.1 hother with hother | hother
    · exact h.anchors other hother at_ hat
    · obtain rfl := List.mem_singleton.1 hother
      rw [hnow]
      rw [hanchor] at hat
      cases hrisk : memory.riskAt with
      | none =>
        rw [hrisk] at hat
        exact h.lt_now hpast (.inr hat)
      | some riskAt =>
        rw [hrisk] at hat
        exact h.lt_now hpast (.inl (hrisk.trans hat))
  present := by
    -- the recovery is an anchor that no key has had
    intro other hother hrisk at_ hrecovery hat
    obtain rfl : now = at_ := Option.some.inj hrecovery
    rcases List.mem_append.1 hother with hother | hother
    · exact absurd (h.anchors other hother now hat) (hpast other hother).not_gt
    · rw [List.mem_singleton.1 hother, htype] at hrisk
      cases hrisk

/-- The first observation of a stable goal is remembered as a notification. -/
theorem baseline {score : ℤ} (h : Remembers ⟨none, none, none, none⟩ alerts)
    (hstable : statusOf score = .stable) :
    Remembers ⟨some (statusOf score), some score, none, none⟩ alerts where
  status := rfl
  alarmed := by
    intro last hlast
    obtain ⟨hscore, -⟩ := h.alarmed last hlast
    cases hscore
  calm := by
    intro status hstatus hne
    exact absurd ((Option.some.inj hstatus).symm.trans hstable) hne
  risks := h.risks
  recoveries := h.recoveries
  instants := h.instants
  anchors := h.anchors
  present := fun _ _ _ _ hrecovery ↦ (by cases hrecovery)

section Decisions

variable {state : Option AlertState} {score : ℤ}

/-- The risk rules only decide on an alert in an alarm when the score has fallen. -/
theorem worse (h : Remembers (memoryOf state) alerts)
    (hdecision : riskDecision (statusOf score) score state now = some .risk)
    {last : ReadinessJob} (hlast : Alarmed alerts last) : score < last.body.score := by
  obtain ⟨hscore, -⟩ := h.alarmed last hlast
  have hstatus : state.bind AlertState.lastNotifiedStatus = some (statusOf last.body.score) := by
    have hmap := h.status
    rw [hscore] at hmap
    exact hmap
  rcases worse_of_risk hdecision hstatus hscore with hseverity | hdrop
  · by_contra hle
    exact absurd (severity_statusOf (not_lt.1 hle)) hseverity.not_ge
  · unfold RISK_SCORE_DROP at hdrop
    omega

/-- A risk alert has another anchor than those before it, or another score. -/
theorem fresh_risk (h : Remembers (memoryOf state) alerts)
    (hdecision : riskDecision (statusOf score) score state now = some .risk)
    (hjob : job ∈ alerts) (htype : job.type = .riskAlert)
    (hanchor : job.dedupeKey.anchor =
      (memoryOf state).recoveryAt.orElse fun _ ↦ (memoryOf state).riskAt) :
    job.body.score ≠ score := by
  obtain ⟨riskAt, hriskAt, hle⟩ := h.risks job hjob htype
  cases hrecovery : (memoryOf state).recoveryAt with
  | none =>
    -- the anchor would be the alert itself, or one after it
    rw [hrecovery, hriskAt] at hanchor
    exact absurd (h.anchors job hjob riskAt hanchor) hle.not_gt
  | some recoveryAt =>
    rw [hrecovery] at hanchor
    obtain ⟨last, hlast, hfallen⟩ := h.present job hjob htype recoveryAt hrecovery hanchor
    have hlt := h.worse hdecision hlast
    omega

/-- A recovery has another anchor than the alerts before it. -/
theorem fresh_recovery (h : Remembers (memoryOf state) alerts) {status : StabilityStatus}
    (hdecision : riskDecision status score state now = some .recovery) (hjob : job ∈ alerts) :
    job.dedupeKey.anchor ≠
      (memoryOf state).riskAt.orElse fun _ ↦ (memoryOf state).recoveryAt := by
  obtain ⟨-, previousStatus, hprevious, hne⟩ := risk_of_recovery hdecision
  obtain ⟨last, hlast⟩ := h.calm previousStatus hprevious hne
  obtain ⟨-, riskAt, hriskAt, hle⟩ := h.alarmed last hlast
  intro hanchor
  rw [hriskAt] at hanchor
  exact absurd (h.anchors job hjob riskAt hanchor) (hle job hjob).not_gt

/-- **One decision**, for its goal. -/
theorem decided (h : Remembers (memoryOf state) alerts) (hhistory : AlertHistory alerts)
    {metrics : StabilityMetrics} {decision : RiskDecision}
    (hstatus : metrics.status = statusOf metrics.stabilityScore)
    (hdecision : riskDecision metrics.status metrics.stabilityScore state now = some decision)
    (hpast : ∀ job ∈ alerts, job.createdAt < now) (userId : ℕ) (goal : StabilityGoal)
    (phone : String) (week : Option (ℤ × ℤ)) :
    AlertHistory (alerts ++ [⟨decisionJob userId phone goal metrics state decision, now⟩]) ∧
      Remembers (memoryOf (some ((decisionUpdate now metrics week decision).apply state)))
        (alerts ++ [⟨decisionJob userId phone goal metrics state decision, now⟩]) := by
  rw [hstatus] at hdecision
  cases decision with
  | risk =>
    have hworse := fun last (hlast : Alarmed alerts last) ↦ h.worse hdecision hlast
    refine ⟨.risk hhistory rfl (fun earlier hearlier hrisk ↦ ?_) hworse, ?_⟩
    · obtain ⟨riskAt, hriskAt, hle⟩ := h.risks earlier hearlier hrisk
      have hover := (cooldown_of_risk hdecision).2 riskAt hriskAt
      show earlier.createdAt + RISK_COOLDOWN_MS ≤ now
      omega
    · have hnext : Remembers ⟨some (statusOf metrics.stabilityScore),
          some metrics.stabilityScore, some now, (memoryOf state).recoveryAt⟩ _ :=
        @risk _ _ ⟨decisionJob userId phone goal metrics state .risk, now⟩ now h hpast hworse
          rfl rfl rfl
      rw [← hstatus] at hnext
      exact hnext
  | recovery =>
    obtain ⟨hstable, previousStatus, hprevious, hne⟩ := risk_of_recovery hdecision
    obtain ⟨last, hlast⟩ := h.calm previousStatus hprevious hne
    refine ⟨.recovery hhistory rfl hlast, ?_⟩
    have hnext : Remembers ⟨some (statusOf metrics.stabilityScore),
        some metrics.stabilityScore, (memoryOf state).riskAt, some now⟩ _ :=
      @recovery _ _ ⟨decisionJob userId phone goal metrics state .recovery, now⟩ now h hpast
        rfl rfl hstable rfl
    rw [← hstatus] at hnext
    exact hnext

end Decisions

end Remembers

/-! ### What the store holds -/

/-- The risk and recovery alerts of a goal. -/
def alertsOf (userId goalId : ℕ) (jobs : List ReadinessJob) : List ReadinessJob :=
  jobs.filter fun job ↦ job.type ≠ .weeklySummary ∧ job.userId = userId ∧ job.goalId = goalId

section AlertsOf

variable {userId goalId u g : ℕ} {now : ℤ} {jobs jobs' : List ReadinessJob} {job : ReadinessJob}

/-- The alerts of a goal are the jobs that are no summaries. -/
theorem mem_alertsOf : job ∈ alertsOf userId goalId jobs ↔ job ∈ jobs ∧
    job.type ≠ .weeklySummary ∧ job.userId = userId ∧ job.goalId = goalId := by
  rw [alertsOf, List.mem_filter, decide_eq_true_eq]

/-- Later jobs have later alerts. -/
theorem alertsOf_append : alertsOf userId goalId (jobs ++ jobs') =
    alertsOf userId goalId jobs ++ alertsOf userId goalId jobs' := List.filter_append ..

theorem alertsOf_weeklyJobs (h : WeeklyJobs u g now jobs') :
    alertsOf userId goalId (jobs ++ jobs') = alertsOf userId goalId jobs := by
  have hnone : alertsOf userId goalId jobs' = [] :=
    List.filter_eq_nil_iff.2 fun job hjob ↦ by simp [(h job hjob).1]
  rw [alertsOf_append, hnone, List.append_nil]

theorem alertsOf_concat_self (h : job.type ≠ .weeklySummary) :
    alertsOf job.userId job.goalId (jobs ++ [job]) =
      alertsOf job.userId job.goalId jobs ++ [job] := by
  rw [alertsOf_append]
  simp [alertsOf, h]

theorem alertsOf_concat_of_ne (h : ¬ (userId = job.userId ∧ goalId = job.goalId)) :
    alertsOf userId goalId (jobs ++ [job]) = alertsOf userId goalId jobs := by
  have hnone : alertsOf userId goalId [job] = [] :=
    List.filter_eq_nil_iff.2 fun other hother ↦ by
      rw [List.mem_singleton.1 hother, decide_eq_true_eq]
      exact fun hsame ↦ h ⟨hsame.2.1.symm, hsame.2.2.symm⟩
  rw [alertsOf_append, hnone, List.append_nil]

end AlertsOf

/-- The alert states remember the queue. -/
structure Recorded (w : AlertWorld) : Prop where
  wellKeyed : ∀ job ∈ w.jobs, job.toNewReadinessJob.WellKeyed
  /-- The score in a key is the one the alert tells. -/
  told : ∀ job ∈ w.jobs, ∀ type userId goalId anchor previousStatus previousScore currentStatus
    currentScore, job.dedupeKey = .occurrence type userId goalId anchor previousStatus
      previousScore currentStatus currentScore → job.body.score = currentScore
  history : ∀ userId goalId, AlertHistory (alertsOf userId goalId w.jobs)
  remembers : ∀ userId goalId,
    Remembers (memoryOf (w.alertStates userId goalId)) (alertsOf userId goalId w.jobs)

theorem recorded_empty (now : ℤ) : Recorded (.empty now) where
  wellKeyed := fun _ h ↦ absurd h List.not_mem_nil
  told := fun _ h ↦ absurd h List.not_mem_nil
  history := fun _ _ ↦ .nil
  remembers := fun _ _ ↦ .nil

namespace Recorded

variable {w : AlertWorld} {userId : ℕ} {goal : StabilityGoal} {now : ℤ} {phone : String}
  {metrics : StabilityMetrics} {jobs : List ReadinessJob} {decision : RiskDecision}

/-- A weekly summary is none of the alerts. -/
theorem weekly (h : Recorded w) {goalId : ℕ} (hjobs : WeeklyJobs userId goalId now jobs) :
    Recorded { w with now := now, jobs := w.jobs ++ jobs } where
  wellKeyed := by
    intro job hjob
    rcases List.mem_append.1 hjob with hjob | hjob
    · exact h.wellKeyed job hjob
    · exact (hjobs job hjob).2.2.2.2
  told := by
    intro job hjob type u g _ _ _ _ _ hkey
    rcases List.mem_append.1 hjob with hjob | hjob
    · exact h.told job hjob _ _ _ _ _ _ _ _ hkey
    · obtain ⟨htype, -, -, -, hkeyed⟩ := hjobs job hjob
      rw [NewReadinessJob.WellKeyed, hkey] at hkeyed
      exact absurd (hkeyed.1.symm.trans htype) hkeyed.2.1
  history := by
    intro u g
    rw [alertsOf_weeklyJobs hjobs]
    exact h.history u g
  remembers := by
    intro u g
    rw [alertsOf_weeklyJobs hjobs]
    exact h.remembers u g

/-- Nothing is published. -/
theorem calm (h : Recorded w) {goalId : ℕ} (hstatus : metrics.status = statusOf metrics.stabilityScore)
    (preference : AlertPreference) (week : Option (ℤ × ℤ)) :
    Recorded (w.upsertState userId goalId
      (calmUpdate preference metrics (w.alertStates userId goalId) week)) where
  wellKeyed := h.wellKeyed
  told := h.told
  history := h.history
  remembers := by
    intro u g
    have hsame := h.remembers u g
    unfold AlertWorld.upsertState
    dsimp only
    split
    · next heq =>
      obtain ⟨rfl, rfl⟩ := heq
      unfold calmUpdate
      split
      · next hfirst =>
        obtain ⟨-, hnone, hstable⟩ := hfirst
        rw [hnone] at hsame ⊢
        rw [hstatus] at hstable
        have hbaseline := hsame.baseline hstable
        rw [← hstatus] at hbaseline
        exact hbaseline
      · exact hsame
    · exact hsame

variable (userId goal phone) in
/-- An alert that is decided on has a key of its own. -/
theorem fresh (h : Recorded w) (hstatus : metrics.status = statusOf metrics.stabilityScore)
    (hdecision : riskDecision metrics.status metrics.stabilityScore
      (w.alertStates userId goal.id) now = some decision)
    {job : ReadinessJob} (hjob : job ∈ w.jobs) : job.dedupeKey ≠
      (decisionJob userId phone goal metrics (w.alertStates userId goal.id) decision).dedupeKey := by
  intro hkey
  have hkeyed := h.wellKeyed job hjob
  rw [NewReadinessJob.WellKeyed, hkey] at hkeyed
  obtain ⟨htype, hne, huser, hgoal⟩ := hkeyed
  have hmem : job ∈ alertsOf userId goal.id w.jobs :=
    mem_alertsOf.2 ⟨hjob, fun hweekly ↦ hne (htype.symm.trans hweekly), huser, hgoal⟩
  have hremembers := h.remembers userId goal.id
  have hanchor := congrArg AlertKey.anchor hkey
  cases decision with
  | risk =>
    rw [hstatus] at hdecision
    exact hremembers.fresh_risk hdecision hmem htype hanchor
      (h.told job hjob _ _ _ _ _ _ _ _ hkey)
  | recovery => exact hremembers.fresh_recovery hdecision hmem hanchor

/-- A decision is published. -/
theorem decided (h : Recorded w) (hstatus : metrics.status = statusOf metrics.stabilityScore)
    (hdecision : riskDecision metrics.status metrics.stabilityScore
      (w.alertStates userId goal.id) w.now = some decision)
    (hpast : ∀ job ∈ alertsOf userId goal.id w.jobs, job.createdAt < w.now)
    (week : Option (ℤ × ℤ)) :
    Recorded ((w.enqueue (decisionJob userId phone goal metrics (w.alertStates userId goal.id)
      decision)).upsertState userId goal.id (decisionUpdate w.now metrics week decision)) := by
  rw [AlertWorld.enqueue_of_fresh fun job hjob ↦
    h.fresh userId goal phone hstatus hdecision hjob]
  have htype : decision.type ≠ .weeklySummary := by cases decision <;> exact nofun
  have hconcat := @alertsOf_concat_self w.jobs ⟨decisionJob userId phone goal metrics
    (w.alertStates userId goal.id) decision, w.now⟩ htype
  have hnext := (h.remembers userId goal.id).decided (h.history userId goal.id) hstatus hdecision
    hpast userId goal phone week
  refine ⟨fun job hjob ↦ ?_, fun job hjob type u g _ _ _ _ _ hkey ↦ ?_, fun u g ↦ ?_,
    fun u g ↦ ?_⟩
  · rcases List.mem_append.1 hjob with hjob | hjob
    · exact h.wellKeyed job hjob
    · rw [List.mem_singleton.1 hjob]
      exact decisionJob_wellKeyed decision
  · rcases List.mem_append.1 hjob with hjob | hjob
    · exact h.told job hjob _ _ _ _ _ _ _ _ hkey
    · rw [List.mem_singleton.1 hjob] at hkey ⊢
      cases hkey
      cases decision <;> rfl
  · by_cases hsame : u = userId ∧ g = goal.id
    · obtain ⟨rfl, rfl⟩ := hsame
      exact hconcat ▸ hnext.1
    · show AlertHistory (alertsOf u g (w.jobs ++ [_]))
      rw [alertsOf_concat_of_ne hsame]
      exact h.history u g
  · by_cases hsame : u = userId ∧ g = goal.id
    · obtain ⟨rfl, rfl⟩ := hsame
      have hstate : (AlertWorld.upsertState { w with jobs := w.jobs ++ [⟨decisionJob u phone goal
          metrics (w.alertStates u goal.id) decision, w.now⟩] } u goal.id
          (decisionUpdate w.now metrics week decision)).alertStates u goal.id =
          some ((decisionUpdate w.now metrics week decision).apply (w.alertStates u goal.id)) :=
        if_pos ⟨rfl, rfl⟩
      rw [hstate]
      exact hconcat ▸ hnext.2
    · show Remembers (memoryOf (if u = userId ∧ g = goal.id then _ else w.alertStates u g))
        (alertsOf u g (w.jobs ++ [_]))
      rw [if_neg hsame, alertsOf_concat_of_ne hsame]
      exact h.remembers u g

/-- **One evaluation.** -/
theorem evaluated (h : Recorded w) {e : Evaluation} {w' : AlertWorld}
    (hpast : ∀ job ∈ w.jobs, job.userId = e.userId → job.createdAt < e.now)
    (hw' : Evaluated e w w') : Recorded w' := by
  cases hw' with
  | idle => exact ⟨h.wellKeyed, h.told, h.history, h.remembers⟩
  | calm goal jobs preference week hjobs =>
    exact (h.weekly hjobs).calm (e.status_metrics goal) preference week
  | decided goal jobs phone decision week hjobs hdecision =>
    refine (h.weekly hjobs).decided (e.status_metrics goal) hdecision (fun job hjob ↦ ?_) week
    rw [alertsOf_weeklyJobs hjobs] at hjob
    obtain ⟨hmem, -, huser, -⟩ := mem_alertsOf.1 hjob
    exact hpast job hmem huser

end Recorded

/-! ### Runs -/

/-- Evaluate one after the other, from the start. -/
def AlertWorld.evaluations (intl : Intl) (start : ℤ) (evaluations : List Evaluation) :
    AlertWorld :=
  evaluations.foldl (evaluate intl) (.empty start)

/-- The evaluations of a user come one after the other. -/
def Increasing (evaluations : List Evaluation) : Prop :=
  evaluations.Pairwise fun e e' ↦ e.userId = e'.userId → e.now < e'.now

/-- What an evaluation adds is its user's, at its instant. -/
theorem Evaluated.mem_jobs {e : Evaluation} {w w' : AlertWorld} (h : Evaluated e w w')
    {job : ReadinessJob} (hjob : job ∈ w'.jobs) :
    job ∈ w.jobs ∨ job.userId = e.userId ∧ job.createdAt = e.now := by
  have hweekly : ∀ {goalId jobs}, WeeklyJobs e.userId goalId e.now jobs → job ∈ w.jobs ++ jobs →
      job ∈ w.jobs ∨ job.userId = e.userId ∧ job.createdAt = e.now := fun hjobs hmem ↦
    (List.mem_append.1 hmem).imp_right fun hmem ↦ ⟨(hjobs job hmem).2.1, (hjobs job hmem).2.2.2.1⟩
  cases h with
  | idle => exact .inl hjob
  | calm goal jobs preference week hjobs => exact hweekly hjobs hjob
  | decided goal jobs phone decision week hjobs hdecision =>
    rcases AlertWorld.enqueue_cases { w with now := e.now, jobs := w.jobs ++ jobs }
      (decisionJob e.userId phone goal.response (e.metrics goal)
        (w.alertStates e.userId goal.id) decision) with heq | heq
    · rw [heq] at hjob
      exact hweekly hjobs hjob
    · rw [heq] at hjob
      rcases List.mem_append.1 hjob with hjob | hjob
      · exact hweekly hjobs hjob
      · rw [List.mem_singleton.1 hjob]
        exact .inr ⟨rfl, rfl⟩

/-- **The run.** -/
theorem recorded_evaluations (intl : Intl) (start : ℤ) {evaluations : List Evaluation}
    (h : Increasing evaluations) :
    Recorded (.evaluations intl start evaluations) ∧
      ∀ job ∈ (AlertWorld.evaluations intl start evaluations).jobs,
        ∃ e ∈ evaluations, job.userId = e.userId ∧ job.createdAt = e.now := by
  induction evaluations using List.reverseRecOn with
  | nil => exact ⟨recorded_empty start, fun _ hjob ↦ absurd hjob List.not_mem_nil⟩
  | append_singleton evaluations e ih =>
    obtain ⟨hbefore, -, hlater⟩ := List.pairwise_append.1 h
    obtain ⟨hrecorded, hjobs⟩ := ih hbefore
    have hstep : AlertWorld.evaluations intl start (evaluations ++ [e]) =
        (AlertWorld.evaluations intl start evaluations).evaluate intl e := by
      simp [AlertWorld.evaluations]
    have heval := evaluated intl (.evaluations intl start evaluations) e
    rw [hstep]
    refine ⟨hrecorded.evaluated (fun job hjob huser ↦ ?_) heval, fun job hjob ↦ ?_⟩
    · obtain ⟨e', he', huser', hnow⟩ := hjobs job hjob
      rw [hnow]
      exact hlater e' he' e (List.mem_singleton_self _) (huser'.symm.trans huser)
    · rcases heval.mem_jobs hjob with hjob | hown
      · obtain ⟨e', he', hsame⟩ := hjobs job hjob
        exact ⟨e', List.mem_append_left _ he', hsame⟩
      · exact ⟨e, List.mem_append_right _ (List.mem_singleton_self _), hown⟩

/-- **The history of alerts.** One evaluation at a time, whatever the scores and the preferences:
every decision of the risk rules publishes an alert under a key that was not used before; the
alerts of a goal have the shape `(risk+ recovery)* risk*`, with falling scores in each block of
risk alerts, and risk alerts a cooldown apart. -/
theorem alert_history_law (intl : Intl) (start : ℤ) {evaluations : List Evaluation}
    (h : Increasing evaluations) :
    (∀ before e after preference phone goal decision, evaluations = before ++ e :: after →
      Decides intl (.evaluations intl start before) e preference phone goal decision →
        ∃ weekly job, WeeklyJobs e.userId goal.id e.now weekly ∧
          job.toNewReadinessJob = decisionJob e.userId phone goal.response (e.metrics goal)
            ((AlertWorld.evaluations intl start before).alertStates e.userId goal.id) decision ∧
          (AlertWorld.evaluations intl start (before ++ [e])).jobs =
            (AlertWorld.evaluations intl start before).jobs ++ weekly ++ [job] ∧
          ∀ other ∈ (AlertWorld.evaluations intl start before).jobs ++ weekly,
            other.dedupeKey ≠ job.dedupeKey) ∧
    ∀ userId goalId alerts,
      alerts = alertsOf userId goalId (AlertWorld.evaluations intl start evaluations).jobs →
        alerts.map (fun job ↦ job.type) ∈ alertShape.matches' ∧
        (∀ block, block <:+: alerts → (∀ job ∈ block, job.type = .riskAlert) →
          block.Pairwise fun job job' ↦ job'.body.score < job.body.score) ∧
        alerts.Pairwise fun job job' ↦ job.type = .riskAlert → job'.type = .riskAlert →
          job.createdAt + RISK_COOLDOWN_MS ≤ job'.createdAt := by
  refine ⟨?_, ?_⟩
  · rintro before e after preference phone goal decision rfl hdecides
    have hbefore : Increasing before := (List.pairwise_append.1 h).1
    obtain ⟨hrecorded, -⟩ := recorded_evaluations intl start hbefore
    obtain ⟨weekly, hweekly, hjobs⟩ := evaluate_of_decides hdecides
    have hfresh : ∀ job ∈ _ ++ weekly, job.dedupeKey ≠ _ := fun job hjob ↦
      (hrecorded.weekly hweekly).fresh e.userId goal.response phone (e.status_metrics goal)
        hdecides.decided hjob
    have hstep : AlertWorld.evaluations intl start (before ++ [e]) =
        (AlertWorld.evaluations intl start before).evaluate intl e := by
      simp [AlertWorld.evaluations]
    rw [AlertWorld.enqueue_of_fresh hfresh] at hjobs
    exact ⟨weekly, _, hweekly, rfl, hstep ▸ hjobs, hfresh⟩
  · rintro userId goalId _ rfl
    have hhistory := (recorded_evaluations intl start h).1.history userId goalId
    exact ⟨hhistory.shape, fun _ hblock ↦ hhistory.falling hblock, hhistory.spaced⟩

namespace Demo

/-- Half of the rent is saved, spent, and all of it saved. -/
def threeDays : List Evaluation :=
  [⟨0, 0, customersWith [saving 50000]⟩, ⟨0, DAY_MS, customersWith []⟩,
    ⟨0, 2 * DAY_MS, customersWith [saving 100000]⟩]

end Demo

open Demo

/-- Two risk alerts and a recovery, and their scores. -/
theorem alert_history_law_three_days :
    (alertsOf 0 0 (AlertWorld.evaluations monday 0 threeDays).jobs).map
        (fun job ↦ (job.type, job.body.score)) =
      [(.riskAlert, 50), (.riskAlert, 0), (.riskRecovery, 80)] ∧
    [.riskAlert, .riskAlert, .riskRecovery] ∈ alertShape.matches' := by
  have hincreasing : Increasing threeDays := by
    simp [Increasing, threeDays, DAY_MS]
  have htypes : (alertsOf 0 0 (AlertWorld.evaluations monday 0 threeDays).jobs).map
      (fun job ↦ job.type) = [.riskAlert, .riskAlert, .riskRecovery] := by decide +kernel
  refine ⟨by decide +kernel, ?_⟩
  rw [← htypes]
  exact ((alert_history_law monday 0 hincreasing).2 0 0 _ rfl).1

end Stead
