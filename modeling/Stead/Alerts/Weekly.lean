import Stead.Alerts.Service

/-!
# One summary a week

The unique dedupe key lets at most one summary of a week be enqueued. That a week is not lost needs
the other half: the week an alert state remembers has its summary in the queue (`WeeklySound`).

## What an evaluation knows

An evaluation writes a week only after its insertion was answered, by success or by the refusal of
a duplicate (`Published`), and either answer says that the summary is there. An evaluation that ends
without inserting it has read the week from the state of the alerts. So an evaluation that ends
while the summary is due knows of it (`EndsKnowing`), and `evaluateUser_keeps` follows the program
to say so.

## What holds in every state

`WeeklySound` is kept by every statement that an evaluation issues, whoever else is between
(`WeeklySound.after`), and with it what is known of a week is true. The two halves together are one
summary: no more by the key, no fewer by what the evaluation knows (`weekly_summary_once`).
-/

namespace Stead

open Concurrency

/-! ### What an evaluation does -/

/-- An insertion under the key was answered. -/
def Published (trace : List (Exchange AlertStatements)) (key : AlertKey) : Prop :=
  ∃ data r, (⟨.createJob data, r⟩ : Exchange AlertStatements) ∈ trace ∧ data.dedupeKey = key ∧
    Enqueued r

/-- What was published stays so. -/
theorem Published.mono {trace trace' : List (Exchange AlertStatements)} {key : AlertKey}
    (h : Published trace key) (hext : trace <+: trace') : Published trace' key := by
  obtain ⟨data, r, hmem, hkey, hr⟩ := h
  exact ⟨data, r, hext.mem hmem, hkey, hr⟩

/-- A job says itself what its key says. -/
def NewReadinessJob.WellKeyed (data : NewReadinessJob) : Prop :=
  match data.dedupeKey with
  | .weekly userId goalId _ =>
    data.type = .weeklySummary ∧ data.userId = userId ∧ data.goalId = goalId
  | .occurrence type userId goalId _ _ _ _ _ =>
    data.type = type ∧ type ≠ .weeklySummary ∧ data.userId = userId ∧ data.goalId = goalId

/-- A week is only written after its summary was enqueued. -/
def WeeklyStatement (trace : List (Exchange AlertStatements)) (op : AlertOp) : Prop :=
  (∀ data, op = .createJob data → data.WellKeyed) ∧
    ∀ userId goalId update at_ key, op = .upsertState userId goalId update →
      update.lastWeeklySummary = some (at_, key) → Published trace (.weekly userId goalId key)

theorem WeeklyStatement.of_reads {trace : List (Exchange AlertStatements)} {op : AlertOp}
    (h : op.reads = true) : WeeklyStatement trace op := by
  constructor
  · rintro _ rfl
    cases h
  · rintro _ _ _ _ _ rfl
    cases h

theorem WeeklyStatement.of_create {trace : List (Exchange AlertStatements)}
    {data : NewReadinessJob} (h : data.WellKeyed) : WeeklyStatement trace (.createJob data) :=
  ⟨fun _ heq ↦ AlertOp.createJob.inj heq ▸ h, fun _ _ _ _ _ heq ↦ (by cases heq)⟩

/-- The week has its summary, as far as the evaluation knows. -/
def KnowsWeek (trace : List (Exchange AlertStatements)) (userId goalId : ℕ) (key : ℤ) : Prop :=
  Published trace (.weekly userId goalId key) ∨
    ∃ state : AlertState, (⟨.findState userId goalId, .ok (some state)⟩ :
      Exchange AlertStatements) ∈ trace ∧ state.lastWeeklySummaryKey = some key

/-- What was known stays so. -/
theorem KnowsWeek.mono {trace trace' : List (Exchange AlertStatements)} {userId goalId : ℕ}
    {key : ℤ} (h : KnowsWeek trace userId goalId key) (hext : trace <+: trace') :
    KnowsWeek trace' userId goalId key := by
  rcases h with h | ⟨state, hmem, hkey⟩
  · exact .inl (h.mono hext)
  · exact .inr ⟨state, hext.mem hmem, hkey⟩

section Evaluation

variable {intl : Intl} {userId : ℕ} {now : ℤ} {preference : AlertPreference} {phone : String}
  {goal : StabilityGoal} {metrics : StabilityMetrics} {state : Option AlertState}
  {trace : List (Exchange AlertStatements)}

/-- **The summary**: the week is returned only when it was published, and a due one is known. -/
theorem publishWeekly_keeps
    (hstate : (⟨.findState userId goal.id, .ok state⟩ : Exchange AlertStatements) ∈ trace) :
    (publishWeekly intl userId now preference phone goal metrics state).Keeps WeeklyStatement
      (fun trace' weekly ↦ trace <+: trace' ∧
        (∀ at_ key, weekly = some (at_, key) → Published trace' (.weekly userId goal.id key)) ∧
        (preference.weeklySummaryEnabled = true → ∀ schedule,
          weeklySchedule intl now preference.timeZone preference.weeklyDay
            preference.weeklyHourLocal = some schedule → schedule.due = true →
              KnowsWeek trace' userId goal.id schedule.key)) (fun _ _ ↦ True) trace := by
  refine .ite (fun henabled ↦ ?_) fun hdisabled ↦ ?_
  · cases hschedule : weeklySchedule intl now preference.timeZone preference.weeklyDay
      preference.weeklyHourLocal with
    | none => trivial
    | some schedule =>
      refine .ite (fun hdue ↦ ?_) fun hnot ↦ ?_
      · refine keeps_enqueueAlert_bind (.of_create ⟨rfl, rfl, rfl⟩) fun _ r hr ↦ ?_
        have hpublished : ∀ data : NewReadinessJob, Published (trace ++ [⟨.createJob data, r⟩])
            data.dedupeKey := fun data ↦
          ⟨data, r, List.mem_append_right _ (List.mem_singleton_self _), rfl, hr⟩
        refine ⟨List.prefix_append _ _, fun at_ key hkey ↦ ?_, fun _ schedule' hschedule' _ ↦ ?_⟩
        · cases hkey
          exact hpublished _
        · cases hschedule'
          exact .inl (hpublished _)
      · refine ⟨List.prefix_rfl, fun _ _ hnone ↦ (by cases hnone), ?_⟩
        intro _ schedule' hschedule' hdue
        cases hschedule'
        have hknown : state.bind AlertState.lastWeeklySummaryKey = some schedule.key := by
          by_contra hne
          exact hnot ⟨hdue, hne⟩
        obtain ⟨row, rfl, hkey⟩ := Option.bind_eq_some_iff.1 hknown
        exact .inr ⟨row, hstate, hkey⟩
  · exact ⟨List.prefix_rfl, fun _ _ hnone ↦ (by cases hnone), fun h ↦ absurd h hdisabled⟩

/-- The job of a decision has a key of its own type. -/
theorem decisionJob_wellKeyed (decision : RiskDecision) :
    (decisionJob userId phone goal metrics state decision).WellKeyed := by
  cases decision <;> exact ⟨rfl, nofun, rfl, rfl⟩

/-- **The decision** does not touch the week it is given. -/
theorem publishDecision_keeps (weekly : Option (ℤ × ℤ)) :
    (publishDecision userId now preference phone goal metrics state weekly).Keeps WeeklyStatement
      (fun trace' update ↦ trace <+: trace' ∧ update.lastWeeklySummary = weekly)
      (fun _ _ ↦ True) trace := by
  refine .ite (fun _ ↦ ?_) fun _ ↦ ⟨List.prefix_rfl, rfl⟩
  cases riskDecision metrics.status metrics.stabilityScore state now with
  | none =>
    refine .ite (fun _ ↦ ?_) fun _ ↦ ?_
    · exact ⟨List.prefix_rfl, rfl⟩
    · exact ⟨List.prefix_rfl, rfl⟩
  | some decision =>
    refine keeps_enqueueAlert_bind (.of_create (decisionJob_wellKeyed decision)) fun _ _ _ ↦
      ⟨List.prefix_append _ _, ?_⟩
    cases decision <;> rfl

/-- **One goal**: the week is written after it was published. -/
theorem evaluateGoal_keeps :
    (evaluateGoal intl userId now preference phone goal metrics).Keeps WeeklyStatement
      (fun trace' _ ↦ trace <+: trace' ∧
        (preference.weeklySummaryEnabled = true → ∀ schedule,
          weeklySchedule intl now preference.timeZone preference.weeklyDay
            preference.weeklyHourLocal = some schedule → schedule.due = true →
              KnowsWeek trace' userId goal.id schedule.key)) (fun _ _ ↦ True) trace := by
  refine keeps_ask_bind (.of_reads rfl) fun state ↦ ?_
  have hstate : (⟨.findState userId goal.id, .ok state⟩ : Exchange AlertStatements) ∈
      trace ++ [⟨.findState userId goal.id, .ok state⟩] :=
    List.mem_append_right _ (List.mem_singleton_self _)
  refine .bind (publishWeekly_keeps hstate) ?_
  rintro trace₁ weekly ⟨hext₁, hwritten, hknows⟩
  refine .bind (publishDecision_keeps weekly) ?_
  rintro trace₂ update ⟨hext₂, hweekly⟩
  have hupsert : WeeklyStatement trace₂ (.upsertState userId goal.id update) := by
    refine ⟨fun _ hop ↦ (by cases hop), fun u g update' at_ key hop hkey ↦ ?_⟩
    cases hop
    exact (hwritten at_ key (hweekly.symm.trans hkey)).mono hext₂
  refine keeps_ask hupsert fun a ↦ ?_
  have hext₃ : trace₁ <+: trace₂ ++ [⟨.upsertState userId goal.id update, .ok a⟩] :=
    hext₂.trans (List.prefix_append _ _)
  refine ⟨((List.prefix_append _ _).trans hext₁).trans hext₃, ?_⟩
  exact fun henabled schedule hschedule hdue ↦
    (hknows henabled schedule hschedule hdue).mono hext₃

end Evaluation

/-- The opening of an evaluation that finds a preference and an active goal. -/
def opening (userId : ℕ) (now : ℤ) (preference : AlertPreference) (phone : String) (goal : Goal) :
    List (Exchange AlertStatements) :=
  [⟨.now, .ok now⟩, ⟨.findPreference userId, .ok (some (preference, phone))⟩,
    ⟨.findActiveGoal userId, .ok (some goal)⟩]

/-- What an evaluation that ends knows. -/
def EndsKnowing (intl : Intl) (userId : ℕ) (trace : List (Exchange AlertStatements)) : Prop :=
  ∀ now preference phone goal rest schedule,
    trace = opening userId now preference phone goal ++ rest →
      preference.weeklySummaryEnabled = true →
      weeklySchedule intl now preference.timeZone preference.weeklyDay
        preference.weeklyHourLocal = some schedule → schedule.due = true →
          KnowsWeek trace userId goal.id schedule.key

/-- **An evaluation** writes what was published, and ends knowing of a week that is due. -/
theorem evaluateUser_keeps (intl : Intl) (userId : ℕ) :
    (evaluateUser intl userId).Keeps WeeklyStatement (fun trace _ ↦ EndsKnowing intl userId trace)
      (fun _ _ ↦ True) [] := by
  refine keeps_ask_bind (.of_reads rfl) fun now ↦ ?_
  refine keeps_ask_bind (.of_reads rfl) fun found ↦ ?_
  cases found with
  | none =>
    rintro _ _ _ _ _ _ htrace
    simp [opening] at htrace
  | some found =>
    obtain ⟨preference, phone⟩ := found
    refine .ite (fun hdisabled ↦ ?_) fun _ ↦ ?_
    · rintro _ _ _ _ _ _ htrace
      simp [opening] at htrace
    · rw [readStability_bind]
      refine keeps_ask_bind (.of_reads rfl) fun answer ↦ ?_
      cases answer with
      | none =>
        rintro _ _ _ _ _ _ htrace
        simp [opening] at htrace
      | some goal =>
        refine keeps_ask_bind (.of_reads rfl) fun transactions ↦ ?_
        refine evaluateGoal_keeps.mono (fun trace _ h ↦ ?_) fun _ _ _ ↦ trivial
        obtain ⟨⟨more, rfl⟩, hknows⟩ := h
        rintro _ _ _ _ _ schedule htrace henabled hschedule hdue
        simp only [opening, List.nil_append, List.cons_append, List.cons.injEq, Sigma.mk.injEq,
          heq_eq_eq, Except.ok.injEq, Option.some.injEq, Prod.mk.injEq, true_and] at htrace
        obtain ⟨rfl, ⟨rfl, rfl⟩, rfl, rfl⟩ := htrace
        exact hknows henabled schedule hschedule hdue

/-! ### What the store holds -/

variable {ι : Type} [DecidableEq ι]

/-- The state of a run: what an evaluator has been told of the queue, and what the alert states
remember, is there. -/
structure WeeklySound (s : State AlertStatements ι AlertWorld) : Prop where
  keys : (s.shared.jobs.map fun job ↦ job.dedupeKey).Nodup
  wellKeyed : ∀ job ∈ s.shared.jobs, job.toNewReadinessJob.WellKeyed
  published : ∀ i key, Published (s.trace i) key → ∃ job ∈ s.shared.jobs, job.dedupeKey = key
  remembered : ∀ userId goalId state key, s.shared.alertStates userId goalId = some state →
    state.lastWeeklySummaryKey = some key →
      ∃ job ∈ s.shared.jobs, job.dedupeKey = .weekly userId goalId key
  seen : ∀ i userId goalId (state : AlertState) key,
    (⟨.findState userId goalId, .ok (some state)⟩ : Exchange AlertStatements) ∈ s.trace i →
      state.lastWeeklySummaryKey = some key →
        ∃ job ∈ s.shared.jobs, job.dedupeKey = .weekly userId goalId key

/-- **One step.** -/
theorem WeeklySound.after {s : State AlertStatements ι AlertWorld} (hs : WeeklySound s) {i : ι}
    {x : AlertChoice} {op : AlertOp} (hop : WeeklyStatement (s.trace i) op) :
    WeeklySound (s.after i op (op.exec x s.shared).1 (op.exec x s.shared).2) := by
  -- jobs are never removed
  have hgrow : ∀ key, (∃ job ∈ s.shared.jobs, job.dedupeKey = key) →
      ∃ job ∈ (op.exec x s.shared).2.jobs, job.dedupeKey = key := by
    rintro key ⟨job, hjob, hkey⟩
    rcases op.exec_jobs x s.shared with h | ⟨data, -, -, h⟩
    · exact ⟨job, h ▸ hjob, hkey⟩
    · exact ⟨job, h ▸ List.mem_append_left _ hjob, hkey⟩
  have hjobs := op.exec_jobs x s.shared
  refine ⟨?_, fun job hjob ↦ ?_, fun j key hpublished ↦ ?_, fun u g state key hstate hkey ↦ ?_,
    fun j u g state key hseen hkey ↦ ?_⟩
  · rw [State.after_shared]
    rcases hjobs with h | ⟨data, -, hfree, h⟩
    · exact h ▸ hs.keys
    · rw [h, List.map_append, List.nodup_append]
      refine ⟨hs.keys, List.nodup_singleton _, fun key hkey key' hkey' ↦ ?_⟩
      obtain ⟨job, hjob, rfl⟩ := List.mem_map.1 hkey
      rw [List.mem_singleton.1 hkey']
      exact hfree job hjob
  · rw [State.after_shared] at hjob
    rcases hjobs with h | ⟨data, rfl, -, h⟩
    · exact hs.wellKeyed job (h ▸ hjob)
    · rw [h] at hjob
      rcases List.mem_append.1 hjob with hjob | hjob
      · exact hs.wellKeyed job hjob
      · rw [List.mem_singleton.1 hjob]
        exact hop.1 data rfl
  · obtain ⟨data, r, hmem, rfl, hr⟩ := hpublished
    rcases State.mem_trace_after hmem with hmem | ⟨-, heq⟩
    · exact hgrow _ (hs.published j _ ⟨data, r, hmem, rfl, hr⟩)
    · cases heq
      exact AlertOp.exec_enqueued hr
  · rw [State.after_shared] at hstate
    rcases op.exec_alertStates x s.shared with h | ⟨u', g', update, hupsert, h⟩
    · exact hgrow _ (hs.remembered u g state key (h ▸ hstate) hkey)
    · rw [h] at hstate
      dsimp only at hstate
      split at hstate
      · next hsame =>
        obtain ⟨rfl, rfl⟩ := hsame
        cases hstate
        cases hweekly : update.lastWeeklySummary with
        | none =>
          rw [AlertStateUpdate.apply, hweekly] at hkey
          obtain ⟨row, hrow, hkey⟩ := Option.bind_eq_some_iff.1 hkey
          exact hgrow _ (hs.remembered u g row key hrow hkey)
        | some weekly =>
          obtain ⟨at_, key'⟩ := weekly
          rw [AlertStateUpdate.apply, hweekly] at hkey
          obtain rfl : key' = key := Option.some.inj hkey
          exact hgrow _ (hs.published i _ (hop.2 u g update at_ key' hupsert hweekly))
      · exact hgrow _ (hs.remembered u g state key hstate hkey)
  · rcases State.mem_trace_after hseen with hseen | ⟨-, heq⟩
    · exact hgrow _ (hs.seen j u g state key hseen hkey)
    · obtain ⟨rfl, hr⟩ := Sigma.mk.inj_iff.1 heq
      have hread := AlertOp.exec_findState (eq_of_heq hr).symm
      exact hgrow _ (hs.remembered u g state key hread.symm hkey)

/-- Nothing is remembered at the beginning. -/
theorem weeklySound_empty (now : ℤ) :
    WeeklySound (⟨.empty now, []⟩ : State AlertStatements ι AlertWorld) where
  keys := List.nodup_nil
  wellKeyed := fun _ hjob ↦ absurd hjob List.not_mem_nil
  published := fun _ _ ⟨_, _, hmem, _⟩ ↦ absurd hmem List.not_mem_nil
  remembered := fun _ _ _ _ hstate ↦ (by cases hstate)
  seen := fun _ _ _ _ _ hseen ↦ absurd hseen List.not_mem_nil

/-! ### Runs -/

/-- The summaries of a week for a goal. -/
def AlertWorld.weeklySummaries (w : AlertWorld) (userId goalId : ℕ) (key : ℤ) :
    List ReadinessJob :=
  w.jobs.filter fun job ↦ job.type = .weeklySummary ∧ job.userId = userId ∧
    job.goalId = goalId ∧ job.dedupeKey = .weekly userId goalId key

/-- **Every run** of evaluations keeps `WeeklySound`, and every evaluation its statements. -/
theorem run_weeklySound {intl : Intl} {now : ℤ} {users : ι → ℕ} {c : Evaluators ι}
    (hc : Run (alertMachine ι) .all (Evaluators.start intl now users) c) :
    WeeklySound c.state ∧
      c.Keeps (fun _ ↦ WeeklyStatement) (fun i trace _ ↦ EndsKnowing intl (users i) trace)
        (fun _ _ _ ↦ True) := by
  refine hc.invariant_keeps (Config.keeps_start fun i ↦ evaluateUser_keeps intl (users i))
    (weeklySound_empty now) (fun s i x op r t hs hop _ hx ↦ ?_) fun s i hs _ ↦ ?_
  · have hexec : op.exec x s.shared = (r, t) := Option.some.inj hx
    obtain ⟨rfl, rfl⟩ : r = (op.exec x s.shared).1 ∧ t = (op.exec x s.shared).2 := by simp [hexec]
    exact hs.after hop
  · exact ⟨hs.keys, hs.wellKeyed, hs.published, hs.remembered, hs.seen⟩

/-- Not two summaries of a week, since their keys would agree. -/
theorem WeeklySound.length_le_one {s : State AlertStatements ι AlertWorld} (hs : WeeklySound s)
    (userId goalId : ℕ) (key : ℤ) :
    (s.shared.weeklySummaries userId goalId key).length ≤ 1 := by
  have hkeys : ((s.shared.weeklySummaries userId goalId key).map fun job ↦ job.dedupeKey).Nodup :=
    hs.keys.sublist (List.filter_sublist.map _)
  have hsame : ((s.shared.weeklySummaries userId goalId key).map fun job ↦ job.dedupeKey) =
      List.replicate (s.shared.weeklySummaries userId goalId key).length
        (.weekly userId goalId key) := by
    refine List.eq_replicate_iff.2 ⟨List.length_map _, fun k hk ↦ ?_⟩
    obtain ⟨job, hjob, rfl⟩ := List.mem_map.1 hk
    exact (of_decide_eq_true (List.mem_filter.1 hjob).2).2.2.2
  rw [hsame] at hkeys
  exact List.nodup_replicate.1 hkeys

/-- One summary, where a job has the key of the week. -/
theorem WeeklySound.summary_of_key {s : State AlertStatements ι AlertWorld} (hs : WeeklySound s)
    {userId goalId : ℕ} {key : ℤ}
    (h : ∃ job ∈ s.shared.jobs, job.dedupeKey = .weekly userId goalId key) :
    (s.shared.weeklySummaries userId goalId key).length = 1 := by
  obtain ⟨job, hjob, hkey⟩ := h
  have hkeyed := hs.wellKeyed job hjob
  rw [NewReadinessJob.WellKeyed, hkey] at hkeyed
  have hmem : job ∈ s.shared.weeklySummaries userId goalId key :=
    List.mem_filter.2 ⟨hjob, decide_eq_true ⟨hkeyed.1, hkeyed.2.1, hkeyed.2.2, hkey⟩⟩
  exact Nat.le_antisymm (hs.length_le_one ..) (List.length_pos_of_mem hmem)

/-- **One summary a week.** However evaluations interleave, fail, are lost or repeated, and
whatever customers change in between, there is at most one summary for a user, goal and week; and
once an evaluation has ended that found the summaries enabled, the goal active and the week due,
there is exactly one. -/
theorem weekly_summary_once (intl : Intl) (now : ℤ) (users : ι → ℕ) {c : Evaluators ι}
    (hc : Run (alertMachine ι) .all (Evaluators.start intl now users) c) :
    (∀ userId goalId key, (c.state.shared.weeklySummaries userId goalId key).length ≤ 1) ∧
    ∀ i started preference phone goal rest schedule, c.Answered i (.ok ()) →
      c.state.trace i = opening (users i) started preference phone goal ++ rest →
      preference.weeklySummaryEnabled = true →
      weeklySchedule intl started preference.timeZone preference.weeklyDay
        preference.weeklyHourLocal = some schedule → schedule.due = true →
      (c.state.shared.weeklySummaries (users i) goal.id schedule.key).length = 1 := by
  obtain ⟨hsound, hkeeps⟩ := run_weeklySound hc
  refine ⟨hsound.length_le_one, fun i started preference phone goal rest schedule hanswered htrace
    henabled hschedule hdue ↦ hsound.summary_of_key ?_⟩
  rcases hkeeps.answer hanswered _ _ _ _ _ _ htrace henabled hschedule hdue with
    hpublished | ⟨state, hseen, hkey⟩
  · exact hsound.published i _ hpublished
  · exact hsound.seen i _ _ state _ hseen hkey

namespace Demo

/-- Two evaluations of one user. -/
def twoEvaluators : Evaluators ℕ := Evaluators.start monday 0 fun _ ↦ 0

/-- Both find no summary, and publish one. -/
theorem overlap_runs : (twoEvaluators.turns (alertMachine ℕ) anyStatement
    (alertSteps 0 5 [] ++ alertSteps 1 5 [] ++ alertSteps 0 3 [] ++ alertSteps 1 3 [])).isSome := by
  decide +kernel

/-- The two evaluations after their turns. -/
def overlapped : Evaluators ℕ := twoEvaluators.afterTurns _ _ _ overlap_runs

/-- The second of them finds the preference and the goal. -/
theorem overlapped_trace :
    (overlapped.state.trace 1).take 3 = opening 0 0 alertPreference "+1" rent := by
  decide +kernel

end Demo

open Demo

/-- Two evaluations that overlap leave one summary. -/
theorem weekly_summary_once_overlapped :
    (overlapped.state.shared.weeklySummaries 0 0 (dateUTC 2026 9 6)).length = 1 := by
  have hrun : Run (alertMachine ℕ) .all (Evaluators.start monday 0 fun _ ↦ 0) overlapped :=
    Config.run_afterTurns (fun _ _ _ _ _ ↦ trivial) overlap_runs
  have hanswered : overlapped.Answered 1 (.ok ()) := by
    rw [Config.answered_iff]
    decide +kernel
  have htrace : overlapped.state.trace 1 = opening 0 0 alertPreference "+1" rent ++
      (overlapped.state.trace 1).drop 3 := by
    rw [← overlapped_trace, List.take_append_drop]
  exact (weekly_summary_once monday 0 (fun _ ↦ 0) hrun).2 1 0 alertPreference "+1" rent _
    ⟨true, dateUTC 2026 9 6⟩ hanswered htrace rfl (by decide +kernel) rfl

end Stead
