import Stead.Alerts.Service

/-!
# The scheduler of the alerts

`AlertsScheduler.tick`, which a timer starts once per minute, whether or not an earlier tick has
ended. Ticks are threads over one process; an evaluation of a user is one statement of a tick,
executed as the program `evaluateUserAt`. Other processes evaluate users as well, so anything may
happen to the store between two statements of an evaluation.

## What a run leaves

The batch is one loop inside one `try`: the first evaluation that throws ends it. `Batch` says what
the evaluations of a list of users leave in a trace: one success after another, to the end of the
list or to the first failure. `Ran` and `Ticked` say the same of a run and of a tick, with the
statements around it.

## Who is served

A user is evaluated when everyone before them in the list is (`Batch.evaluation_of_mem`). So a run
evaluates every user who does not throw exactly when none of them follows one who does
(`tick_serves_iff`). The list names nobody twice, since the preferences have a unique user
(`nodup_optedIn`), and the flag is down again when a tick ends, whatever it met (`ReadyAfter`).
-/

namespace Stead

open Concurrency

/-- `evaluateUser` at a given instant. -/
def evaluateUserAt (intl : Intl) (userId : ℕ) (now : ℤ) : AlertCall Unit := do
  match ← ask (.findPreference userId) with
  | none => pure ()
  | some (preference, phone) =>
    if !preference.weeklySummaryEnabled && !preference.riskAlertsEnabled then pure ()
    else
      match ← readStability userId now with
      | .notOk _ => pure ()
      | .ok goal metrics => evaluateGoal intl userId now preference phone goal metrics

/-- The instant is `new Date()` where none is given. -/
theorem evaluateUser_eq (intl : Intl) (userId : ℕ) :
    evaluateUser intl userId = ask .now >>= evaluateUserAt intl userId := rfl

/-- The table of the preferences. A user has at most one row. -/
structure AlertPreferenceTable where
  rows : List (ℕ × AlertPreference)
  unique_userId : (rows.map Prod.fst).Nodup

namespace AlertPreferenceTable

variable (preferences : AlertPreferenceTable)

/-- `findMany({ where: { OR: [{ weeklySummaryEnabled: true }, { riskAlertsEnabled: true }] } })`,
the users of it. -/
def optedIn : List ℕ :=
  (preferences.rows.filter fun row ↦ row.2.weeklySummaryEnabled || row.2.riskAlertsEnabled).map
    Prod.fst

theorem nodup_optedIn : preferences.optedIn.Nodup :=
  (List.filter_sublist.map Prod.fst).nodup preferences.unique_userId

end AlertPreferenceTable

/-! ### Statements -/

/-- What `recordSchedulerRun` is told. -/
inductive SchedulerOutcome where
  | skipped
  | success
  | error
  deriving DecidableEq

/-- What a tick does, statement by statement. -/
inductive SchedulerOp where
  /-- `if (this.running)`, with `this.running = true` where it was not: whether it was -/
  | testAndSet
  /-- `metrics.recordSchedulerRun` -/
  | recordSchedulerRun (outcome : SchedulerOutcome)
  /-- `this.running = false` -/
  | release
  /-- `new Date()` -/
  | now
  /-- `alertPreference.findMany` -/
  | findOptedIn
  /-- `alerts.evaluateUser`, from its start to its end -/
  | evaluateUser (userId : ℕ) (now : ℤ)
  deriving DecidableEq

/-- What a statement answers. -/
abbrev SchedulerOp.Ret : SchedulerOp → Type
  | testAndSet => Bool
  | recordSchedulerRun _ | release => Unit
  | now => ℤ
  | findOptedIn => Except StatementError (List ℕ)
  | evaluateUser _ _ => Except Failure Unit

/-- The statements of a tick, with their answers. -/
abbrev SchedulerStatements : Interface where
  Op := SchedulerOp
  Resp := SchedulerOp.Ret

instance (op : SchedulerOp) : DecidableEq (SchedulerStatements.Resp op) :=
  match op with
  | .testAndSet => inferInstanceAs (DecidableEq Bool)
  | .recordSchedulerRun _ | .release => inferInstanceAs (DecidableEq Unit)
  | .now => inferInstanceAs (DecidableEq ℤ)
  | .findOptedIn => inferInstanceAs (DecidableEq (Except StatementError (List ℕ)))
  | .evaluateUser _ _ => inferInstanceAs (DecidableEq (Except Failure Unit))

instance : DecidableEq SchedulerStatements.Op := inferInstanceAs (DecidableEq SchedulerOp)

/-- The process of the scheduler and the store. -/
structure SchedulerWorld where
  running : Bool
  /-- the recorded runs -/
  runs : List SchedulerOutcome
  alerts : AlertWorld

/-- What the outside world decides about one statement of a tick. -/
structure SchedulerChoice where
  preferences : AlertPreferenceTable
  fault : Fault
  /-- what it decides about the statements of an evaluation -/
  statements : ℕ → AlertChoice
  /-- what others do to the store before each of them -/
  others : ℕ → AlertWorld → AlertWorld

/-- One statement of an evaluation, after so many. -/
def SchedulerChoice.exec (x : SchedulerChoice) (op : AlertOp) (s : ℕ × AlertWorld) :
    Except StatementError op.Ret × ℕ × AlertWorld :=
  let out := op.exec (x.statements s.1) (x.others s.1 s.2)
  (out.1, s.1 + 1, out.2)

/-- Execute a statement of a tick. -/
def SchedulerOp.exec (intl : Intl) (x : SchedulerChoice) (w : SchedulerWorld) :
    (op : SchedulerOp) → op.Ret × SchedulerWorld
  | testAndSet => (w.running, { w with running := true })
  | recordSchedulerRun outcome => ((), { w with runs := w.runs ++ [outcome] })
  | release => ((), { w with running := false })
  | now => (w.alerts.now, w)
  | findOptedIn =>
    match x.fault with
    | .none => (.ok x.preferences.optedIn, w)
    | .before | .after => (.error .unavailable, w)
  | evaluateUser userId instant =>
    let out := (evaluateUserAt intl userId instant).execute x.exec (0, w.alerts)
    (out.1, { w with alerts := out.2.2 })

/-- The scheduler as a machine. -/
def schedulerMachine (intl : Intl) (ι : Type) :
    Machine SchedulerStatements ι SchedulerChoice SchedulerWorld where
  exec _ x op w := some (op.exec intl x w)
  crash _ w := w

/-! ### The program -/

/-- A part of a tick. -/
abbrev SchedulerCall (α : Type) := Prog SchedulerStatements Failure α

namespace AlertsScheduler

/-- Issue a statement that does not throw. -/
def answerOf (op : SchedulerOp) : SchedulerCall op.Ret := .stmt op .pure

/-- `alertPreference.findMany`, which throws where the database does. -/
def findOptedIn : SchedulerCall (List ℕ) :=
  .stmt .findOptedIn fun
    | .ok users => .pure users
    | .error e => .throw (.statement e)

/-- `await this.alerts.evaluateUser(userId, now)`: what it throws is thrown. -/
def evaluateUser (userId : ℕ) (now : ℤ) : SchedulerCall Unit :=
  .stmt (.evaluateUser userId now) fun
    | .ok _ => .pure ()
    | .error e => .throw e

/-- `run`: everyone who is opted in, one after another, under one instant. -/
def run : SchedulerCall ℕ := do
  let now ← answerOf .now
  let preferences ← findOptedIn
  Prog.forEach preferences fun userId ↦ evaluateUser userId now
  pure preferences.length

/-- `tick`: nothing while another runs, and otherwise one run whose failure is recorded. -/
def tick : SchedulerCall Unit := do
  if ← answerOf .testAndSet then answerOf (.recordSchedulerRun .skipped)
  else
    let outcome ← Prog.tryCatch (run >>= fun _ ↦ .pure SchedulerOutcome.success) fun _ ↦
      .pure .error
    answerOf (.recordSchedulerRun outcome)
    answerOf .release

end AlertsScheduler

/-! ### What a tick does -/

/-- A record of statements of a tick. -/
abbrev SchedulerTrace := List (Exchange SchedulerStatements)

/-- How often a user has been evaluated. -/
def evaluations (userId : ℕ) (trace : SchedulerTrace) : ℕ :=
  trace.countP fun e ↦ match e.1 with
    | .evaluateUser u _ => u = userId
    | _ => false

@[simp] theorem evaluations_nil (userId : ℕ) : evaluations userId [] = 0 := rfl

/-- Evaluations add up. -/
@[simp] theorem evaluations_append (userId : ℕ) (trace trace' : SchedulerTrace) :
    evaluations userId (trace ++ trace') = evaluations userId trace + evaluations userId trace' :=
  List.countP_append

/-- An evaluation counts for its user. -/
theorem evaluations_evaluateUser (userId u : ℕ) (now : ℤ) (r : Except Failure Unit)
    (trace : SchedulerTrace) : evaluations userId (⟨.evaluateUser u now, r⟩ :: trace) =
      evaluations userId trace + if u = userId then 1 else 0 := by
  simp [evaluations, List.countP_cons]

/-- The evaluations of a batch: the users in turn, up to the first whose evaluation throws. -/
inductive Batch (now : ℤ) : List ℕ → SchedulerTrace → SchedulerOutcome → Prop
  | done : Batch now [] [] .success
  | evaluated {userId : ℕ} {users : List ℕ} {trace : SchedulerTrace} {outcome : SchedulerOutcome}
      (rest : Batch now users trace outcome) :
      Batch now (userId :: users) (⟨.evaluateUser userId now, .ok ()⟩ :: trace) outcome
  | thrown {userId : ℕ} {users : List ℕ} (e : Failure) :
      Batch now (userId :: users) [⟨.evaluateUser userId now, .error e⟩] .error

/-- What `run` does, and whether it returns. -/
inductive Ran : SchedulerTrace → SchedulerOutcome → Prop
  | unread (now : ℤ) (e : StatementError) : Ran [⟨.now, now⟩, ⟨.findOptedIn, .error e⟩] .error
  | batch {now : ℤ} {users : List ℕ} {trace : SchedulerTrace} {outcome : SchedulerOutcome}
      (h : Batch now users trace outcome) :
      Ran (⟨.now, now⟩ :: ⟨.findOptedIn, .ok users⟩ :: trace) outcome

/-- What a tick has done when it ends. -/
inductive Ticked : SchedulerTrace → Prop
  | skipped : Ticked [⟨.testAndSet, true⟩, ⟨.recordSchedulerRun .skipped, ()⟩]
  | ran {trace : SchedulerTrace} {outcome : SchedulerOutcome} (h : Ran trace outcome) :
      Ticked (⟨.testAndSet, false⟩ :: trace ++
        [⟨.recordSchedulerRun outcome, ()⟩, ⟨.release, ()⟩])

section Ticks

variable {now : ℤ} {users : List ℕ} {trace : SchedulerTrace} {outcome : SchedulerOutcome}

/-- The condition that holds of every statement. -/
abbrev AnyOp : SchedulerTrace → SchedulerOp → Prop := fun _ _ ↦ True

/-- The loop of `run`. -/
theorem evaluateAll_keeps (users : List ℕ) (before : SchedulerTrace) :
    (Prog.forEach users fun userId ↦ AlertsScheduler.evaluateUser userId now).Keeps AnyOp
      (fun trace' _ ↦ ∃ trace, trace' = before ++ trace ∧ Batch now users trace .success)
      (fun trace' _ ↦ ∃ trace, trace' = before ++ trace ∧ Batch now users trace .error)
      before := by
  induction users generalizing before with
  | nil => exact ⟨[], (List.append_nil before).symm, .done⟩
  | cons userId users ih =>
    refine ⟨trivial, fun r ↦ ?_⟩
    cases r with
    | error e => exact ⟨_, rfl, .thrown e⟩
    | ok a =>
      refine (ih (before ++ [⟨.evaluateUser userId now, .ok a⟩])).mono ?_ ?_
      all_goals
        rintro trace' _ ⟨trace, rfl, hbatch⟩
        exact ⟨_, List.append_assoc .., .evaluated hbatch⟩

/-- A statement that does not throw leaves one entry in the trace. -/
theorem keeps_answerOf_bind {α : Type} {op : SchedulerOp} {f : op.Ret → SchedulerCall α}
    {Q : SchedulerTrace → α → Prop} {E : SchedulerTrace → Failure → Prop} {before : SchedulerTrace}
    (h : ∀ r, (f r).Keeps AnyOp Q E (before ++ [⟨op, r⟩])) :
    (AlertsScheduler.answerOf op >>= f).Keeps AnyOp Q E before :=
  ⟨trivial, h⟩

/-- What a program adds to the record is a run of `run` that ends like this. -/
abbrev Extends (before : SchedulerTrace) (outcome : SchedulerOutcome) (trace' : SchedulerTrace) :
    Prop :=
  ∃ trace, trace' = before ++ trace ∧ Ran trace outcome

/-- **A run**: its statements extend the trace as `Ran` says, by success or by a failure. -/
theorem schedulerRun_keeps (before : SchedulerTrace) : AlertsScheduler.run.Keeps AnyOp
    (fun trace' _ ↦ Extends before .success trace') (fun trace' _ ↦ Extends before .error trace')
    before := by
  refine keeps_answerOf_bind fun now ↦ .bind (R := fun trace' users ↦
    trace' = before ++ [⟨.now, now⟩, ⟨.findOptedIn, .ok users⟩]) ⟨trivial, fun r ↦ ?_⟩ ?_
  · cases r with
    | error e => exact ⟨_, List.append_assoc .., .unread now e⟩
    | ok users => exact List.append_assoc ..
  · rintro _ users rfl
    refine .bind ((evaluateAll_keeps users _).mono ?_ ?_) fun trace' _ h ↦ h
    all_goals
      rintro trace' _ ⟨trace, rfl, hbatch⟩
      exact ⟨_, List.append_assoc .., .batch hbatch⟩

/-- **A tick** does what `Ticked` says, and does not throw. -/
theorem schedulerTick_keeps : AlertsScheduler.tick.Keeps AnyOp (fun trace _ ↦ Ticked trace)
    (fun _ _ ↦ False) [] := by
  refine keeps_answerOf_bind fun running ↦ ?_
  cases running with
  | true => exact ⟨trivial, fun _ ↦ .skipped⟩
  | false =>
    refine .bind (R := fun trace' outcome ↦ Extends [⟨.testAndSet, false⟩] outcome trace')
      (.tryCatch (.bind (schedulerRun_keeps _) fun _ _ h ↦ h) fun _ _ h ↦ h) ?_
    rintro _ outcome ⟨trace, rfl, hran⟩
    refine keeps_answerOf_bind fun _ ↦ ⟨trivial, fun _ ↦ ?_⟩
    rw [List.append_assoc]
    exact .ran hran

/-- A batch consists of evaluations. -/
theorem Batch.evaluation_of_mem (h : Batch now users trace outcome)
    {e : Exchange SchedulerStatements} (he : e ∈ trace) :
    ∃ userId r, e = ⟨.evaluateUser userId now, r⟩ := by
  induction h with
  | done => cases he
  | evaluated rest ih =>
    rcases List.mem_cons.1 he with rfl | he
    · exact ⟨_, _, rfl⟩
    · exact ih he
  | thrown err => exact ⟨_, _, List.mem_singleton.1 he⟩

/-- Who is not in the batch is not evaluated. -/
theorem Batch.evaluations_of_notMem (h : Batch now users trace outcome) {userId : ℕ}
    (hu : userId ∉ users) : evaluations userId trace = 0 := by
  induction h with
  | done => rfl
  | evaluated rest ih =>
    rw [List.mem_cons, not_or] at hu
    rw [evaluations_evaluateUser, ih hu.2, if_neg (Ne.symm hu.1)]
  | thrown e =>
    rw [List.mem_cons, not_or] at hu
    rw [evaluations_evaluateUser, evaluations_nil, if_neg (Ne.symm hu.1)]

/-- An evaluation on the record has thrown exactly when it is one of these users. -/
def ThrowsFor (Throws : ℕ → Prop) (trace : SchedulerTrace) : Prop :=
  ∀ userId now r, ⟨.evaluateUser userId now, r⟩ ∈ trace → ((∃ e, r = .error e) ↔ Throws userId)

/-- **The users of a batch.** All those who do not throw are evaluated exactly once if and only if
none of them comes after one who does. -/
theorem Batch.serves_iff (h : Batch now users trace outcome) (hnodup : users.Nodup)
    {Throws : ℕ → Prop} (hthrows : ThrowsFor Throws trace) :
    (∀ userId ∈ users, ¬ Throws userId → evaluations userId trace = 1) ↔
      users.Pairwise fun earlier later ↦ Throws earlier → Throws later := by
  induction h with
  | done => simp
  | @evaluated userId users trace outcome rest ih =>
    rw [List.nodup_cons] at hnodup
    have hok : ¬ Throws userId := fun hthrow ↦ by
      obtain ⟨e, he⟩ := (hthrows userId now (.ok ()) List.mem_cons_self).2 hthrow
      cases he
    have hrest := ih hnodup.2 fun u instant r hr ↦ hthrows u instant r (List.mem_cons_of_mem _ hr)
    have hone : evaluations userId trace = 0 := rest.evaluations_of_notMem hnodup.1
    rw [List.pairwise_cons, ← hrest, List.forall_mem_cons]
    refine and_congr ⟨fun _ _ _ hthrow ↦ absurd hthrow hok, fun _ _ ↦ ?_⟩
      (forall₂_congr fun u hu ↦ ?_)
    · rw [evaluations_evaluateUser, hone, if_pos rfl]
    · have hne : userId ≠ u := ne_of_mem_of_not_mem hu hnodup.1 |>.symm
      rw [evaluations_evaluateUser, if_neg hne, add_zero]
  | @thrown userId users e =>
    rw [List.nodup_cons] at hnodup
    have hthrow : Throws userId := (hthrows userId now (.error e) List.mem_cons_self).1 ⟨e, rfl⟩
    -- nobody after the user who throws is evaluated
    have hskipped : ∀ u ∈ users, evaluations u [⟨.evaluateUser userId now, .error e⟩] = 0 := by
      intro u hu
      have hne : userId ≠ u := ne_of_mem_of_not_mem hu hnodup.1 |>.symm
      rw [evaluations_evaluateUser, evaluations_nil, if_neg hne]
    rw [List.pairwise_cons]
    refine ⟨fun hserved ↦ ?_, fun hpairwise u hu hok ↦ ?_⟩
    · have hall : ∀ u ∈ users, Throws u := fun u hu ↦ by
        by_contra hok
        cases (hskipped u hu).symm.trans (hserved u (List.mem_cons_of_mem _ hu) hok)
      exact ⟨fun u hu _ ↦ hall u hu, List.pairwise_of_forall_mem_list fun _ _ u hu _ ↦ hall u hu⟩
    · rcases List.mem_cons.1 hu with rfl | hu
      · exact absurd hthrow hok
      · exact absurd (hpairwise.1 u hu hthrow) hok

end Ticks

/-! ### Runs -/

/-- Ticks of a scheduler. -/
abbrev Scheduler (ι : Type) :=
  Concurrency.Config SchedulerStatements ι SchedulerWorld Failure Unit

section Runs

variable {ι : Type} [DecidableEq ι] {intl : Intl} {w : SchedulerWorld} {c : Scheduler ι} {i : ι}

/-- The last statement of a tick has left the scheduler ready for the next. -/
def ReadyAfter (s : State SchedulerStatements ι SchedulerWorld) (i : ι) : Prop :=
  ∃ e, (s.history i).getLast? = some e ∧ e.after.running = false

/-- The table gives every user once. -/
theorem nodup_of_findOptedIn (hc : Run (schedulerMachine intl ι) .all
    (.start w fun _ ↦ AlertsScheduler.tick) c) {users : List ℕ}
    (hread : ⟨.findOptedIn, .ok users⟩ ∈ c.state.trace i) : users.Nodup := by
  obtain ⟨⟨_, _, op, r, _⟩, he, heq⟩ := List.mem_map.1 hread
  cases heq
  obtain ⟨x, hx⟩ := hc.exec_of_mem (State.mem_history.1 he).1
  cases hfault : x.fault <;>
    simp only [schedulerMachine, SchedulerOp.exec, hfault] at hx <;> cases hx
  exact x.preferences.nodup_optedIn

/-- The flag is down after its release. -/
theorem readyAfter_of_release (hc : Run (schedulerMachine intl ι) .all
    (.start w fun _ ↦ AlertsScheduler.tick) c) {trace : SchedulerTrace}
    (htrace : c.state.trace i = trace ++ [⟨.release, ()⟩]) : ReadyAfter c.state i := by
  have hlast := congrArg List.getLast? htrace
  rw [State.trace, List.getLast?_map, List.getLast?_concat, Option.map_eq_some_iff] at hlast
  obtain ⟨⟨_, before, op, r, t⟩, he, heq⟩ := hlast
  cases heq
  obtain ⟨x, hx⟩ := hc.exec_of_mem (State.mem_history.1 (List.mem_of_getLast? he)).1
  have ht : t = { before with running := false } :=
    (congrArg Prod.snd (Option.some.inj hx)).symm
  exact ⟨_, he, congrArg SchedulerWorld.running ht⟩

/-- **One user's failure** silences those that follow in the batch: a tick evaluates every user
whose evaluation does not throw exactly once, and leaves the scheduler ready, if and only if none
of these users comes after one whose evaluation throws. -/
theorem tick_serves_iff (hc : Run (schedulerMachine intl ι) .all
    (.start w fun _ ↦ AlertsScheduler.tick) c) {o : Except Failure Unit}
    (hanswered : c.Answered i o) {users : List ℕ}
    (hread : ⟨.findOptedIn, .ok users⟩ ∈ c.state.trace i) {Throws : ℕ → Prop}
    (hthrows : ThrowsFor Throws (c.state.trace i)) :
    ((∀ userId ∈ users, ¬ Throws userId → evaluations userId (c.state.trace i) = 1) ∧
        ReadyAfter c.state i) ↔
      users.Pairwise fun earlier later ↦ Throws earlier → Throws later := by
  have hkeeps : c.Keeps (fun _ ↦ AnyOp) (fun _ trace _ ↦ Ticked trace) (fun _ _ _ ↦ False) :=
    (hc.invariant_keeps (I := fun _ ↦ True) (Config.keeps_start fun _ ↦ schedulerTick_keeps) trivial
      (fun _ _ _ _ _ _ _ _ _ _ ↦ trivial) fun _ _ _ _ ↦ trivial).2
  have hticked : Ticked (c.state.trace i) := by
    cases o with
    -- The trace of the call that ended is one of a tick, so the batch in it can be taken apart.
    | ok a => exact hkeeps.answer hanswered
    | error e => exact (hkeeps.thrown hanswered).elim
  have hnodup := nodup_of_findOptedIn hc hread
  generalize htrace : c.state.trace i = trace at *
  cases hticked with
  | skipped => simp at hread
  | @ran trace outcome hran =>
    have hready : ReadyAfter c.state i := readyAfter_of_release hc
      (htrace.trans (List.append_assoc _ [_] [_]).symm)
    cases hran with
    | unread now e => simp at hread
    | @batch now found trace outcome hbatch =>
      have hfound : users = found := by
        simp only [List.cons_append, List.mem_cons, List.mem_append] at hread
        rcases hread with h | h | h | h | h | h | h
        · cases h
        · cases h
        · cases h
          rfl
        · obtain ⟨_, _, heq⟩ := hbatch.evaluation_of_mem h
          cases heq
        · cases h
        · cases h
        · cases h
      subst hfound
      have hcount : ∀ userId, evaluations userId (⟨.testAndSet, false⟩ ::
          (⟨.now, now⟩ :: ⟨.findOptedIn, .ok users⟩ :: trace) ++
            [⟨.recordSchedulerRun outcome, ()⟩, ⟨.release, ()⟩]) = evaluations userId trace := by
        intro userId
        simp [evaluations, List.countP_append]
      rw [← hbatch.serves_iff hnodup fun userId instant r hr ↦ hthrows userId instant r
        (List.mem_append_left _ (List.mem_cons_of_mem _ (List.mem_cons_of_mem _
          (List.mem_cons_of_mem _ hr))))]
      simp only [hcount, hready, and_true]

end Runs

/-! ### A database that is away for one user -/

namespace Demo

/-- Two users who want all alerts. -/
def bothOptedIn (first second : ℕ) (h : first ≠ second) : AlertPreferenceTable where
  rows := [(first, alertPreference), (second, alertPreference)]
  unique_userId := by simpa using h

/-- The first statement of an evaluation fails like this, the rest does not. -/
def schedulerTurn (preferences : AlertPreferenceTable) (fault : Fault) :
    Turn ℕ SchedulerChoice where
  thread := 0
  choice :=
    { preferences, fault := .none
      statements := fun n ↦ ⟨0, if n = 0 then fault else .none, customersWith []⟩
      others := fun _ w ↦ w }

/-- A scheduler that has not run. -/
def idleScheduler : Scheduler ℕ := .start ⟨false, [], .empty 0⟩ fun _ ↦ AlertsScheduler.tick

/-- A batch in which the evaluation of user 0 throws. -/
def failedFor0 (trace : SchedulerTrace) : List (Exchange SchedulerStatements) :=
  [⟨.testAndSet, false⟩, ⟨.now, 0⟩] ++ trace ++
    [⟨.evaluateUser 0 0, .error (.statement .unavailable)⟩,
      ⟨.recordSchedulerRun .error, ()⟩, ⟨.release, ()⟩]

/-- The user whose evaluation throws comes last. -/
theorem lastFails_runs : (idleScheduler.turns (schedulerMachine monday ℕ) (fun _ _ _ ↦ true)
    (List.replicate 4 (schedulerTurn (bothOptedIn 1 0 (by decide)) .none) ++
      List.replicate 3 (schedulerTurn (bothOptedIn 1 0 (by decide)) .before))).any (fun c ↦
        (c.progs 0).bind Prog.outcome = some (.ok ()) ∧ c.state.trace 0 =
          failedFor0 [⟨.findOptedIn, .ok [1, 0]⟩, ⟨.evaluateUser 1 0, .ok ()⟩]) = true := by
  decide +kernel

/-- The scheduler after the batch whose last evaluation throws. -/
def lastFails : Scheduler ℕ := Config.afterTurns _ _ _ _ (Option.isSome_of_any lastFails_runs)

/-- The user whose evaluation throws comes first. -/
theorem firstFails_runs : (idleScheduler.turns (schedulerMachine monday ℕ) (fun _ _ _ ↦ true)
    (List.replicate 3 (schedulerTurn (bothOptedIn 0 1 (by decide)) .none) ++
      List.replicate 3 (schedulerTurn (bothOptedIn 0 1 (by decide)) .before))).any (fun c ↦
        (c.progs 0).bind Prog.outcome = some (.ok ()) ∧ c.state.trace 0 =
          failedFor0 [⟨.findOptedIn, .ok [0, 1]⟩]) = true := by
  decide +kernel

/-- The scheduler after the batch whose first evaluation throws. -/
def firstFails : Scheduler ℕ := Config.afterTurns _ _ _ _ (Option.isSome_of_any firstFails_runs)

/-- In both of them it is user 0 who throws, and nobody else. -/
theorem throwsFor_failedFor0 {trace : SchedulerTrace}
    (h : ∀ e ∈ trace, (∃ users, e = ⟨.findOptedIn, .ok users⟩) ∨ e = ⟨.evaluateUser 1 0, .ok ()⟩) :
    ThrowsFor (· = 0) (failedFor0 trace) := by
  intro userId now r hr
  simp only [failedFor0, List.mem_append, List.mem_cons, List.not_mem_nil, or_false] at hr
  rcases hr with ((hr | hr) | hr) | hr | hr | hr
  · cases hr
  · cases hr
  · rcases h _ hr with ⟨users, heq⟩ | heq
    · cases heq
    · cases heq
      simp
  · cases hr
    simp
  · cases hr
  · cases hr

end Demo

open Demo

/-- A user who comes before the one whose evaluation throws is evaluated. -/
theorem tick_serves_iff_last :
    (∀ userId ∈ [1, 0], ¬ userId = 0 → evaluations userId (lastFails.state.trace 0) = 1) ∧
      ReadyAfter lastFails.state 0 := by
  have hfacts : (lastFails.progs 0).bind Prog.outcome = some (.ok ()) ∧
      lastFails.state.trace 0 =
        failedFor0 [⟨.findOptedIn, .ok [1, 0]⟩, ⟨.evaluateUser 1 0, .ok ()⟩] :=
    of_decide_eq_true (Config.afterTurns_of_any lastFails_runs)
  have hrun : Run (schedulerMachine monday ℕ) .all idleScheduler lastFails :=
    Config.run_afterTurns (fun _ _ _ _ _ ↦ trivial) _
  have hread : ⟨.findOptedIn, .ok [1, 0]⟩ ∈ lastFails.state.trace 0 := by
    rw [hfacts.2]
    simp [failedFor0]
  have hthrows : ThrowsFor (· = 0) (lastFails.state.trace 0) := by
    rw [hfacts.2]
    exact throwsFor_failedFor0 (by simp)
  exact (tick_serves_iff hrun (Config.answered_iff.2 hfacts.1) hread hthrows).2 (by decide)

/-- A user who comes after the one whose evaluation throws is not evaluated. -/
theorem tick_skips_user :
    Run (schedulerMachine monday ℕ) .all idleScheduler firstFails ∧
    firstFails.Answered 0 (.ok ()) ∧
    ⟨.findOptedIn, .ok [0, 1]⟩ ∈ firstFails.state.trace 0 ∧
    ThrowsFor (· = 0) (firstFails.state.trace 0) ∧
    ¬ ∀ userId ∈ [0, 1], ¬ userId = 0 → evaluations userId (firstFails.state.trace 0) = 1 := by
  have hfacts : (firstFails.progs 0).bind Prog.outcome = some (.ok ()) ∧
      firstFails.state.trace 0 = failedFor0 [⟨.findOptedIn, .ok [0, 1]⟩] :=
    of_decide_eq_true (Config.afterTurns_of_any firstFails_runs)
  refine ⟨Config.run_afterTurns (fun _ _ _ _ _ ↦ trivial) _, Config.answered_iff.2 hfacts.1, ?_⟩
  rw [hfacts.2]
  refine ⟨by simp [failedFor0], throwsFor_failedFor0 (by simp), fun h ↦ ?_⟩
  exact absurd (h 1 (by decide) (by decide)) (by decide)

end Stead
