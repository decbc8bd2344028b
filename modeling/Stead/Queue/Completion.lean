import Stead.Queue.Fencing

/-!
# Finished jobs and late completions

A completion writes a job by its number, whatever has become of the job since the worker claimed
it. So a job that is finished does not stay finished: a worker whose success was recorded but whose
answer was lost goes on to record a failure, and so does a worker that was overtaken. The failure
makes the job wait again, with its payload already erased.

## The condition: what a worker may have missed

`firstCompletions` picks the runs in which a worker completes a job only as long as nobody has
completed it since the worker claimed it. That is a condition on leases and on lost answers, not on
what the completion finds or writes:

* a worker whose lease has ended, and whose job another one has claimed and completed since, does
  not complete the job any more;
* a worker whose own success was recorded, but not acknowledged, does not record a failure.

A success may come after other successes. It writes what they have written, so only a failure that
was recorded since the claim stands in its way. Leases may end, and jobs may be claimed again and
again, as long as the worker that was overtaken comes first or not at all.

## The invariant

For every claim there has been of a job that is finished, a completion with the outcome the job has
was recorded after the claim (`CompletedSince`). Whoever still has a claim on such a job has
therefore missed a completion; in the runs of `firstCompletions` the only completion left to it is
another success of a job that is sent (`repeats_of_firstCompletions`). The invariant is of the whole
record, so the clock and the length of the lease do not enter.
-/

namespace Stead

open Concurrency Protocol

variable {ι : Type}

/-- The thread recorded an outcome of job `id`, whether or not it was told so. -/
def CompletesAs (id : ℕ) (status : NotificationJobStatus) (e : Happening ι) : Prop :=
  ∃ data j, e.op = .notificationJob (.update id data) ∧
    e.before.notificationJobs.stored id = some j ∧
      e.after.notificationJobs.stored id = some (data.apply j) ∧ data.outcome = status

/-- The thread recorded a failed attempt of job `id`, whether or not it was told so. -/
def RecordsFailure (id : ℕ) (e : Happening ι) : Prop :=
  ∃ data j, e.op = .notificationJob (.update id data) ∧ data.failureAttempt ≠ none ∧
    e.before.notificationJobs.stored id = some j ∧
      e.after.notificationJobs.stored id = some (data.apply j)

/-- Thread `i` has claimed job `id`, and nothing that `P` describes has happened since. -/
def ClaimedSince (s : History ι) (id : ℕ) (i : ι) (P : Happening ι → Prop) : Prop :=
  ∃ (p : ℕ) (e : Happening ι) (now : ℤ), s.log[p]? = some e ∧ e.thread = i ∧
    Claims id now e ∧ ∀ q d, p < q → s.log[q]? = some d → ¬ P d

/-- A worker completes a job only before anybody else has completed it since its claim, and before
its own success was recorded: it records a failure only if no completion was recorded since, and a
success only if no failure was. -/
def firstCompletions : Weather ι where
  stmt i _ op s := ∀ id data, op = .notificationJob (.update id data) →
    (data.failureAttempt ≠ none → ClaimedSince s id i (Completes id)) ∧
      (data.failureAttempt = none → ClaimedSince s id i (RecordsFailure id))
  crash _ _ := True

/-- A completion with an outcome is one. -/
theorem CompletesAs.completes {id : ℕ} {status : NotificationJobStatus} {e : Happening ι}
    (h : CompletesAs id status e) : Completes id e := by
  obtain ⟨data, j, hop, hj, hnew, -⟩ := h
  exact ⟨data, j, hop, hj, hnew⟩

/-- Only a failure gives a job up. -/
theorem CompletesAs.recordsFailure {id : ℕ} {e : Happening ι}
    (h : CompletesAs id .deadLetter e) : RecordsFailure id e := by
  obtain ⟨data, j, hop, hj, hnew, houtcome⟩ := h
  refine ⟨data, j, hop, fun hnone ↦ ?_, hj, hnew⟩
  rw [NotificationJobUpdate.outcome, hnone] at houtcome
  cases houtcome

variable [DecidableEq ι]

/-- The jobs that are not finished have their payload. -/
def HoldsPayloads (w : World ι) : Prop :=
  ∀ id j, w.notificationJobs.stored id = some j → j.status.terminal = false →
    j.payloadJson ≠ REDACTED_PAYLOAD_JSON

/-- The jobs finished in `w` are finished in `w'`, in the same way. -/
def StaysFinished (w w' : World ι) : Prop :=
  ∀ id j, w.notificationJobs.stored id = some j → j.status = .sent ∨ j.status = .deadLetter →
    ∃ j', w'.notificationJobs.stored id = some j' ∧ j'.status = j.status

omit [DecidableEq ι] in
theorem StaysFinished.refl (w : World ι) : StaysFinished w w := fun _ j hj _ ↦ ⟨j, hj, rfl⟩

omit [DecidableEq ι] in
theorem StaysFinished.trans {u v w : World ι} (h : StaysFinished u v) (h' : StaysFinished v w) :
    StaysFinished u w := by
  intro id j hj hs
  obtain ⟨k, hk, hkj⟩ := h id j hj hs
  obtain ⟨l, hl, hlk⟩ := h' id k hk (hkj ▸ hs)
  exact ⟨l, hl, hlk.trans hkj⟩

/-- **What is finished was finished since every claim of it**, with the outcome it has. -/
def CompletedSince (s : History ι) : Prop :=
  ∀ (p : ℕ) (e : Happening ι) (id : ℕ) (now : ℤ) (j : NotificationJob), s.log[p]? = some e →
    Claims id now e → s.shared.notificationJobs.stored id = some j → j.status.terminal = true →
      ∃ q d, p < q ∧ s.log[q]? = some d ∧ CompletesAs id j.status d

/-- A completion that finds its job finished repeats the outcome. -/
def Repeats (op : Op) (w : World ι) : Prop :=
  ∀ id data, op = .notificationJob (.update id data) →
    ∀ j, w.notificationJobs.stored id = some j → j.status.terminal = true →
      data.outcome = j.status

omit [DecidableEq ι] in
/-- The only completion that is left of a finished job is another success. -/
theorem repeats_of_firstCompletions {i : ι} {x : Choice} {op : Op} {s : History ι}
    (hs : CompletedSince s) (hfirst : firstCompletions.stmt i x op s) : Repeats op s.shared := by
  intro id data hop j hj hterminal
  obtain ⟨hfailure, hsuccess⟩ := hfirst id data hop
  cases hdata : data.failureAttempt with
  | some f =>
    -- The failure is ruled out by the completion that finished the job.
    obtain ⟨p, e, now, hp, -, hclaims, hsince⟩ := hfailure (by simp [hdata])
    obtain ⟨q, d, hpq, hq, hd⟩ := hs p e id now j hp hclaims hj hterminal
    exact absurd hd.completes (hsince q d hpq hq)
  | none =>
    obtain ⟨p, e, now, hp, -, hclaims, hsince⟩ := hsuccess hdata
    obtain ⟨q, d, hpq, hq, hd⟩ := hs p e id now j hp hclaims hj hterminal
    rw [NotificationJobUpdate.outcome, hdata]
    cases hstatus : j.status with
    | sent => rfl
    | deadLetter =>
      rw [hstatus] at hd
      exact absurd hd.recordsFailure (hsince q d hpq hq)
    | pending | processing | failed => simp [hstatus, NotificationJobStatus.terminal] at hterminal

section Step

variable {crypto : Crypto} {i : ι} {x : Choice} {op : Op} {s : History ι} {t : World ι}
  {r : Except StatementError op.Ret}

/-- A completion that repeats the outcome, like every other statement, leaves finished jobs
finished. -/
theorem exec_staysFinished (hop : op.WellFormed) (hrep : Repeats op s.shared)
    (h : exec crypto i x op s.shared = some (r, t)) : StaysFinished s.shared t := by
  intro id j hj hs
  cases exec_notificationJobs h id with
  | same he => exact ⟨j, he.trans hj, rfl⟩
  | create _ _ _ _ _ hold => cases hold.symm.trans hj
  | edit hopeq hj₀ he hnew =>
    subst hopeq
    obtain rfl : _ = j := Option.some.inj (hj₀.symm.trans hj)
    refine ⟨_, hnew, ?_⟩
    cases he with
    | adopt => rfl
    | claim k now hready =>
      rcases hs with hs | hs <;> simp [NotificationJob.ready, hs] at hready
    | update k data =>
      rw [NotificationJobUpdate.Completes.apply_status hop]
      exact hrep id data rfl _ hj (by rcases hs with hs | hs <;> rw [hs] <;> rfl)
    | redactTerminal => rfl

/-- It also leaves the payload of unfinished jobs alone. -/
theorem exec_holdsPayloads (hop : op.WellFormed) (hrep : Repeats op s.shared)
    (h : exec crypto i x op s.shared = some (r, t)) (hs : HoldsPayloads s.shared) :
    HoldsPayloads t := by
  intro id j hj hwaits
  cases exec_notificationJobs h id with
  | same he => exact hs id j (he ▸ hj) hwaits
  | create hopeq _ _ _ _ _ hnew =>
    subst hopeq
    obtain rfl : j = _ := Option.some.inj (hj.symm.trans hnew)
    exact NewNotificationJob.Initial.payload hop
  | @edit s₀ j₀ j' hopeq hj₀ he hnew =>
    subst hopeq
    obtain rfl : j = j' := Option.some.inj (hj.symm.trans hnew)
    cases he with
    | adopt => exact hs id j₀ hj₀ hwaits
    | claim k now hready =>
      refine hs id j₀ hj₀ ?_
      cases hstatus : j₀.status <;> simp_all [NotificationJob.ready, NotificationJobStatus.terminal]
    | update k data =>
      rw [NotificationJobUpdate.Completes.apply_status hop] at hwaits
      rw [NotificationJobUpdate.Completes.apply_payload hop, hwaits]
      refine hs id j₀ hj₀ ?_
      by_contra hfinished
      -- The job was finished, so the update repeats its status and leaves it finished.
      rw [hrep id data rfl j₀ hj₀ (by simpa using hfinished)] at hwaits
      exact hfinished hwaits
    | redactTerminal found k hk hstale =>
      simp [NotificationJob.unredacted, show j₀.status.terminal = false from hwaits] at hstale

omit [DecidableEq ι] in
/-- What was recorded since a claim stays recorded. -/
theorem CompletedSince.at_ {r : Statements.Resp op} (hs : CompletedSince s) {p : ℕ}
    {e : Happening ι} {id : ℕ} {now : ℤ} {j j' : NotificationJob} (hp : s.log[p]? = some e)
    (he : Claims id now e) (hj : s.shared.notificationJobs.stored id = some j)
    (hstatus : j'.status = j.status) (hterminal : j'.status.terminal = true) :
    ∃ q d, p < q ∧ (s.after i op r t).log[q]? = some d ∧ CompletesAs id j'.status d := by
  rw [hstatus] at hterminal ⊢
  obtain ⟨q, d, hpq, hq, hd⟩ := hs p e id now j hp he hj hterminal
  exact ⟨q, d, hpq, State.getElem?_after_of_some hq, hd⟩

/-- **Every statement keeps the record of completions in step with the jobs.** A job becomes
finished by a completion, which comes after every claim of it there has been; and a job that is
claimed is not finished. -/
theorem exec_completedSince (hop : op.WellFormed) (hs : CompletedSince s)
    (h : exec crypto i x op s.shared = some (r, t)) : CompletedSince (s.after i op r t) := by
  intro p e id now j hp he hj hterminal
  rcases State.getElem?_after hp with hbefore | ⟨rfl, rfl⟩
  · have hlen : p < s.log.length := (List.getElem?_eq_some_iff.1 hbefore).1
    cases exec_notificationJobs h id with
    | same hsame => exact hs.at_ hbefore he (hsame ▸ hj) rfl hterminal
    | create hopeq _ _ _ _ _ hnew =>
      subst hopeq
      obtain rfl : j = _ := Option.some.inj (hj.symm.trans hnew)
      simp [NewNotificationJob.row, NewNotificationJob.Initial.status hop,
        NotificationJobStatus.terminal] at hterminal
    | @edit s₀ j₀ j' hopeq hj₀ hedit hnew =>
      subst hopeq
      obtain rfl : j = j' := Option.some.inj (hj.symm.trans hnew)
      cases hedit with
      | adopt | redactTerminal => exact hs.at_ hbefore he hj₀ rfl hterminal
      | claim => cases hterminal
      | update k data =>
        refine ⟨_, _, hlen, State.getElem?_after_last, data, j₀, rfl, hj₀, hnew, ?_⟩
        exact (NotificationJobUpdate.Completes.apply_status hop).symm
  · -- The step is the claim itself, which leaves the job being processed.
    obtain ⟨rfl, hr⟩ := he.eq
    obtain rfl : r = .ok true := hr
    obtain ⟨j', -, -, hnew⟩ := exec_claim h
    obtain rfl : j = _ := Option.some.inj (hj.symm.trans hnew)
    cases hterminal

end Step

/-- The property the queue is meant to have, of two states of one run: what is finished in the
first is finished in the second, and what is still to be delivered there has its payload. -/
def FinishedForGood (c c' : System ι) : Prop :=
  StaysFinished c.state.shared c'.state.shared ∧
    ∀ id j, c'.state.shared.notificationJobs.stored id = some j →
      j.status = .pending ∨ j.status = .processing → j.payloadJson ≠ REDACTED_PAYLOAD_JSON

/-- **Finished jobs stay finished where no completion comes late.** On any database whose unfinished
jobs have their payload, with any number of consumers and other calls, lost answers, ended leases
and crashes included. -/
theorem finishedForGood_of_firstCompletions (env : Env) (w : World ι) (hw : HoldsPayloads w)
    (calls : ι → ApiCall) {c c' : System ι}
    (hc : System.Reaches env firstCompletions (System.start env w calls) c)
    (hc' : System.Reaches env firstCompletions c c') : FinishedForGood c c' := by
  have hstart : (System.start env w calls).Issues fun _ ↦ Op.WellFormed :=
    Config.issues_start fun i ↦ (calls i).wellFormed env
  have hnone : CompletedSince (⟨w, []⟩ : History ι) := fun _ _ _ _ _ h ↦ nomatch h
  have hreached := Run.invariant (I := fun s ↦ CompletedSince s ∧ HoldsPayloads s.shared) hc hstart
    ⟨hnone, hw⟩ (fun _ _ _ _ _ _ hs hop hfirst hx ↦ ⟨exec_completedSince hop hs.1 hx,
      exec_holdsPayloads hop (repeats_of_firstCompletions hs.1 hfirst) hx hs.2⟩)
    fun _ _ hs _ ↦ hs
  have hrun := Run.invariant (I := fun s ↦ (CompletedSince s ∧ HoldsPayloads s.shared) ∧
      StaysFinished c.state.shared s.shared) hc' hreached.2 ⟨hreached.1, .refl _⟩
    (fun _ _ _ _ _ _ hs hop hfirst hx ↦
      have hrep := repeats_of_firstCompletions hs.1.1 hfirst
      ⟨⟨exec_completedSince hop hs.1.1 hx, exec_holdsPayloads hop hrep hx hs.1.2⟩,
        hs.2.trans (exec_staysFinished hop hrep hx)⟩)
    fun _ _ hs _ ↦ hs
  refine ⟨hrun.1.2, fun id j hj hs ↦ hrun.1.1.2 id j hj ?_⟩
  rcases hs with hs | hs <;> rw [hs] <;> rfl

namespace Demo

/-- Whether an event is an answered claim of job `id` by thread `i`. -/
def claimedBy (id i : ℕ) (e : Happening ℕ) : Bool :=
  e.thread = i && (claimOf e).any fun c ↦ c.1 = id

/-- Of the completions of jobs and the claims of job `id` by thread `i`, the last one is a claim. -/
def claimedSince (s : History ℕ) (id i : ℕ) : Bool :=
  (s.log.reverse.find? fun e ↦ endsClaim e.op || claimedBy id i e).any (claimedBy id i)

/-- No completion comes late, as a test. -/
def allowFirst : ℕ → Op → History ℕ → Bool
  | i, .notificationJob (.update id _), s => claimedSince s id i
  | _, _, _ => true

/-- The test finds a claim. -/
theorem claimedSince_of_test {s : History ℕ} {id i : ℕ} (h : claimedSince s id i = true)
    {P : Happening ℕ → Prop} (hP : ∀ d, P d → endsClaim d.op = true) : ClaimedSince s id i P := by
  obtain ⟨e, hfind, hmine⟩ := (Option.any_eq_true _ _).1 h
  obtain ⟨n, hn, hlater⟩ := getElem?_of_find?_reverse hfind
  rw [claimedBy, Bool.and_eq_true, decide_eq_true_iff] at hmine
  obtain ⟨⟨id', now⟩, hnow, hid⟩ := (Option.any_eq_true _ _).1 hmine.2
  obtain rfl : id' = id := by simpa using hid
  refine ⟨n, e, now, hn, hmine.1, claims_iff.2 hnow, fun q d hq hd hPd ↦ ?_⟩
  have hends := hlater q d hq hd
  simp [hP d hPd] at hends

theorem allowFirst_stmt (i : ℕ) (x : Choice) (op : Op) (s : History ℕ)
    (h : allowFirst i op s = true) : firstCompletions.stmt i x op s := by
  rintro id data rfl
  refine ⟨fun _ ↦ claimedSince_of_test h fun d hd ↦ ?_, fun _ ↦ claimedSince_of_test h fun d hd ↦ ?_⟩
  · obtain ⟨_, _, hop, -⟩ := hd
    rw [hop]
    rfl
  · obtain ⟨_, _, hop, -⟩ := hd
    rw [hop]
    rfl

/-- The lease of a consumer ends before it has sent the code. Another one claims the job and sends
it. -/
theorem takenOver_runs : ((System.start env world consumers).turns (machine ℕ crypto) allowFirst
    (claimed ++ claimsAfter 2 300000 ++ steps 2 6)).isSome := by
  decide +kernel

end Demo

/-- A job that is taken over and completed by both workers, the overtaken one first, stays sent. -/
theorem finishedForGood_of_firstCompletions_takenOver :
    FinishedForGood (System.start Demo.env Demo.world Demo.consumers)
      (Demo.after (System.start Demo.env Demo.world Demo.consumers) _ _ Demo.takenOver_runs) :=
  finishedForGood_of_firstCompletions Demo.env Demo.world (fun _ _ h ↦ nomatch h) Demo.consumers
    .refl (Config.run_afterTurns Demo.allowFirst_stmt Demo.takenOver_runs)

/-! ### A success whose answer is lost -/

namespace Demo

/-- A request for a code, and a consumer that delivers it. -/
def deliverCalls : ℕ → ApiCall
  | 0 => requestOtp '0'
  | _ => .tick

/-- The status of the first job. -/
def jobStatus (c : System ℕ) : Option NotificationJobStatus :=
  (c.state.shared.notificationJobs.stored 0).map NotificationJob.status

/-- The code is requested and sent. The last statement records the success, but the consumer gets
an error for it, and records a failure. -/
theorem lose_runs : ((System.start env world deliverCalls).turns (machine ℕ crypto)
    anything (steps 0 18 ++ steps 1 8 ++ [⟨1, { fault := .after }⟩])).any (fun c ↦
      jobStatus c = some .sent ∧ (c.turns (machine ℕ crypto) anything (steps 1 3)).any (fun c' ↦
        jobStatus c' = some .pending) = true) = true := by
  decide +kernel

/-- The job is sent. -/
def delivered : System ℕ :=
  after (System.start env world deliverCalls) _ _ (Option.isSome_of_any lose_runs)

theorem delivered_tests : jobStatus delivered = some .sent ∧
    (delivered.turns (machine ℕ crypto) anything (steps 1 3)).any (fun c' ↦
      jobStatus c' = some .pending) = true :=
  of_decide_eq_true (Config.afterTurns_of_any lose_runs)

/-- The failure is recorded. -/
def returned : System ℕ := after delivered _ _ (Option.isSome_of_any delivered_tests.2)

end Demo

/-- **A delivered job comes back, without its payload.** One consumer delivers one job; its success
is recorded, but the answer to the statement is lost. -/
theorem delivered_job_comes_back : ∃ c c' : System ℕ,
    System.Reaches Demo.env .all (System.start Demo.env Demo.world Demo.deliverCalls) c ∧
      System.Reaches Demo.env .all c c' ∧ ¬ FinishedForGood c c' := by
  refine ⟨Demo.delivered, Demo.returned, Demo.reaches_after _ _ _, Demo.reaches_after _ _ _,
    fun h ↦ ?_⟩
  have hback := of_decide_eq_true (Config.afterTurns_of_any Demo.delivered_tests.2)
  obtain ⟨j, hj, hjs⟩ := Option.map_eq_some_iff.1 Demo.delivered_tests.1
  obtain ⟨j', hj', heq⟩ := Option.map_eq_some_iff.1 hback
  obtain ⟨j'', hj'', hkept⟩ := h.1 0 j hj (.inl hjs)
  cases hj'.symm.trans hj''
  rw [hkept, hjs] at heq
  cases heq

end Stead
