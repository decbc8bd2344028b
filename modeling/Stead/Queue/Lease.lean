import Stead.Model.Logic

/-!
# The lease of a claimed job

A claim gives a worker the job until it completes it, or until the lease of five minutes ends. The
lease is a timestamp: a completion does not check it, so a worker that was overtaken still writes
the job, from the snapshot it took when it claimed it.

What such a write does depends on what it records:

* a success makes the job sent. Nobody claims a sent job, so the worker that overtook keeps what it
  has claimed, and the counter is as it was;
* a failure makes the job wait again, under the lease of the worker that overtook, and counts from
  a number that may be out of date.

## The condition

`fenced` picks the runs in which every failure is recorded by the worker that claimed the job last
(`LastClaim`). Successes are recorded by whoever sent the job, overtaken or not. A run in which no
failure is late may have any number of leases run out, of jobs taken over and delivered twice, and
of calls that are lost or cut off.

## The invariant

In these runs no job is claimed under a lease that is held (`Fenced`). The invariant behind it is
`Leased`: a claim that its worker has not completed, and whose lease has not ended, still keeps the
others from the job (`NotificationJob.Barred`). A step of the queue can lift that in two ways only:
by another claim, which finds the job ready and so comes after the lease (`Barred.expired`), or by a
failure, which then is of the worker itself or of one that has claimed the job later, after the
lease. That the counter of a job is the number of its failed attempts is for `Queue.Fencing`.
-/

namespace Stead

open Concurrency Protocol

variable {ι : Type}

/-- The thread claimed job `id`, with a lease from `now`. -/
def Claims (id : ℕ) (now : ℤ) : Happening ι → Prop
  | ⟨_, _, .notificationJob (.claim id' now'), .ok true, _⟩ => id' = id ∧ now' = now
  | _ => False

/-- The thread completed job `id`, whether or not it was told so. -/
def Completes (id : ℕ) (e : Happening ι) : Prop :=
  ∃ data j, e.op = .notificationJob (.update id data) ∧
    e.before.notificationJobs.stored id = some j ∧
      e.after.notificationJobs.stored id = some (data.apply j)

/-- A claim is an answered statement. -/
theorem Claims.eq {id : ℕ} {now : ℤ} {i : ι} {w t : World ι} {op : Op}
    {r : Statements.Resp op} (h : Claims id now ⟨i, w, op, r, t⟩) :
    ∃ hop : op = .notificationJob (.claim id now), hop ▸ r = .ok true := by
  unfold Claims at h
  split at h
  · next heq =>
    cases heq
    obtain ⟨rfl, rfl⟩ := h
    exact ⟨rfl, rfl⟩
  · exact h.elim

/-- Thread `i` is the one that claimed job `id` last. -/
def LastClaim (s : History ι) (id : ℕ) (i : ι) : Prop :=
  ∃ (p : ℕ) (e : Happening ι) (now : ℤ), s.log[p]? = some e ∧ e.thread = i ∧
    Claims id now e ∧ ∀ q d n, p < q → s.log[q]? = some d → ¬ Claims id n d

/-- Only the worker that claimed a job last records a failure of it. -/
def fenced : Weather ι where
  stmt i _ op s := ∀ id data, op = .notificationJob (.update id data) →
    data.failureAttempt ≠ none → LastClaim s id i
  crash _ _ := True

/-- **A claim fences its job.** When a worker has claimed a job and another one claims it later,
the first has completed it in between or its lease has ended. -/
def Fenced (s : History ι) : Prop :=
  ∀ (p q : ℕ) (e e' : Happening ι) (id : ℕ) (now now' : ℤ), p < q →
    s.log[p]? = some e → s.log[q]? = some e' → Claims id now e → Claims id now' e' →
    e'.thread ≠ e.thread →
      (∃ n d, p < n ∧ n < q ∧ s.log[n]? = some d ∧ d.thread = e.thread ∧ Completes id d) ∨
        now + JOB_LOCK_TIMEOUT_MS ≤ e'.after.now

section Log

variable {s : History ι} {i : ι} {op : Op} {r : Statements.Resp op} {t : World ι}

/-- Whoever claimed a job last has claimed it before another thread's step. -/
theorem LastClaim.of_after {id : ℕ} {k : ι} (h : LastClaim (s.after i op r t) id k)
    (hk : k ≠ i ∨ ∀ now, op ≠ .notificationJob (.claim id now)) : LastClaim s id k := by
  obtain ⟨p, e, now, hp, he, hclaims, hlast⟩ := h
  rcases State.getElem?_after hp with hp | ⟨rfl, rfl⟩
  · exact ⟨p, e, now, hp, he, hclaims, fun q d n hpq hq ↦ hlast q d n hpq (State.getElem?_after_of_some hq)⟩
  · rcases hk with hk | hk
    · exact absurd he.symm hk
    · exact absurd hclaims.eq.choose (hk now)

/-- One thread at most is the last one. -/
theorem LastClaim.unique {id : ℕ} {j k : ι} (hj : LastClaim s id j) (hk : LastClaim s id k) :
    j = k := by
  obtain ⟨p, e, now, hp, rfl, hc, hlast⟩ := hj
  obtain ⟨q, e', now', hq, rfl, hc', hlast'⟩ := hk
  rcases lt_trichotomy p q with h | rfl | h
  · exact absurd hc' (hlast q e' now' h hq)
  · rw [Option.some.inj (hp.symm.trans hq)]
  · exact absurd hc (hlast' p e now h hp)

end Log

/-! ### Leases -/

section Leases

variable [DecidableEq ι]

/-- The job keeps others from claiming it on behalf of a claim at `since`: it is being processed
under a lease from then or later, or it was sent. -/
def NotificationJob.Barred (j : NotificationJob) (since : ℤ) : Prop :=
  j.status = .sent ∨ j.status = .processing ∧ ∃ lockedAt, j.lockedAt = some lockedAt ∧
    since ≤ lockedAt

/-- When a barred job is ready its lease has run out. -/
theorem NotificationJob.Barred.expired {j : NotificationJob} {since now : ℤ} (h : j.Barred since)
    (hready : j.ready now = true) : since + JOB_LOCK_TIMEOUT_MS ≤ now := by
  rcases h with hsent | ⟨hprocessing, lockedAt, hlocked, hle⟩
  · simp [NotificationJob.ready, hsent] at hready
  · have hstale : lockedAt ≤ now - JOB_LOCK_TIMEOUT_MS := by
      simpa [NotificationJob.ready, hprocessing, hlocked] using hready
    omega

/-- What does not touch the status and the lock of a job leaves it barred. -/
theorem NotificationJob.Barred.congr {j j' : NotificationJob} {since : ℤ} (h : j.Barred since)
    (hstatus : j'.status = j.status) (hlocked : j'.lockedAt = j.lockedAt) : j'.Barred since := by
  rwa [NotificationJob.Barred, hstatus, hlocked]

/-- What holds of the leases in the runs of `fenced`: a claim that its worker has not completed and
whose lease has not ended still keeps others from the job. -/
structure Leased (s : History ι) : Prop where
  fences : Fenced s
  holds : ∀ (p : ℕ) (e : Happening ι) (id : ℕ) (now : ℤ), s.log[p]? = some e →
    Claims id now e →
      (∃ n d, p < n ∧ s.log[n]? = some d ∧ d.thread = e.thread ∧ Completes id d) ∨
        now + JOB_LOCK_TIMEOUT_MS ≤ s.shared.now ∨
          ∃ j, s.shared.notificationJobs.stored id = some j ∧ j.Barred now
  past : ∀ e ∈ s.log, e.after.now ≤ s.shared.now

variable {crypto : Crypto} {i : ι} {x : Choice} {op : Op} {s : History ι} {t : World ι}
  {r : Except StatementError op.Ret}

omit [DecidableEq ι] in
/-- An executed completion that lands is a completion. -/
theorem completes_of_edit {id : ℕ} {data : NotificationJobUpdate} {j : NotificationJob}
    {r : Statements.Resp (.notificationJob (.update id data))}
    (hj : s.shared.notificationJobs.stored id = some j)
    (hnew : t.notificationJobs.stored id = some (data.apply j)) :
    Completes id ⟨i, s.shared, .notificationJob (.update id data), r, t⟩ :=
  ⟨data, j, rfl, hj, hnew⟩

/-- **One step keeps every lease**, unless it ends it or completes the job. -/
theorem Leased.holds_step (hs : Leased s) (hfenced : fenced.stmt i x op s) (hop : op.WellFormed)
    (hclock : ∀ id now, op = .notificationJob (.claim id now) → now ≤ s.shared.now)
    (h : exec crypto i x op s.shared = some (r, t)) {p : ℕ} {e : Happening ι} {id : ℕ}
    {now : ℤ} (hp : s.log[p]? = some e) (he : Claims id now e) :
    (∃ n d, p < n ∧ (s.after i op r t).log[n]? = some d ∧ d.thread = e.thread ∧
        Completes id d) ∨
      now + JOB_LOCK_TIMEOUT_MS ≤ t.now ∨
        ∃ j, t.notificationJobs.stored id = some j ∧ j.Barred now := by
  have hnow : s.shared.now ≤ t.now := by
    rw [exec_now h]
    omega
  have hlen : p < s.log.length := (List.getElem?_eq_some_iff.1 hp).1
  rcases hs.holds p e id now hp he with ⟨n, d, hpn, hn, hd⟩ | hended | ⟨j, hj, hbarred⟩
  · exact .inl ⟨n, d, hpn, State.getElem?_after_of_some hn, hd⟩
  · exact .inr (.inl (hended.trans hnow))
  cases exec_notificationJobs h id with
  | same hsame => exact .inr (.inr ⟨j, hsame.trans hj, hbarred⟩)
  | create _ _ _ _ _ hnone => cases hnone.symm.trans hj
  | @edit s₀ j₀ j' hopeq hj₀ hedit hnew =>
    obtain rfl : j₀ = j := Option.some.inj (hj₀.symm.trans hj)
    subst hopeq
    cases hedit with
    | adopt => exact .inr (.inr ⟨_, hnew, hbarred.congr rfl rfl⟩)
    | redactTerminal => exact .inr (.inr ⟨_, hnew, hbarred.congr rfl rfl⟩)
    | claim k now' hready =>
      have hexpired := hbarred.expired hready
      have hpast := hclock id now' rfl
      exact .inr (.inl (by omega))
    | update k data =>
      cases hfailure : data.failureAttempt with
      | none =>
        -- A success, of whatever worker, leaves a job that nobody claims.
        refine .inr (.inr ⟨_, hnew, .inl ?_⟩)
        rw [NotificationJobUpdate.Completes.apply_status hop, NotificationJobUpdate.outcome,
          hfailure]
      | some failure =>
        -- The worker that records a failure claimed last: it is this one, or it came later.
        have hcomp : Completes id ⟨i, s.shared, .notificationJob (.update id data), r, t⟩ :=
          completes_of_edit hj hnew
        obtain ⟨q, e', now', hq, rfl, he', hlast⟩ := hfenced id data rfl (by simp [hfailure])
        by_cases hthread : e'.thread = e.thread
        · exact .inl ⟨_, _, hlen, State.getElem?_after_last, hthread, hcomp⟩
        have hpq : p < q := by
          by_contra hqp
          rcases eq_or_lt_of_le (not_lt.1 hqp) with rfl | hqp
          · exact hthread (congrArg _ (Option.some.inj (hq.symm.trans hp)))
          · exact hlast p e now hqp hp he
        rcases hs.fences p q e e' id now now' hpq hp hq he he' hthread with
          ⟨n, d, hpn, -, hn, hd⟩ | hended
        · exact .inl ⟨n, d, hpn, State.getElem?_after_of_some hn, hd⟩
        · have hpast := hs.past e' (List.mem_of_getElem? hq)
          exact .inr (.inl (by omega))

/-- **The leases are kept by every statement** of a run in which failures are fenced and claims do
not run ahead of the clock. -/
theorem exec_leased (hs : Leased s) (hfenced : fenced.stmt i x op s) (hop : op.WellFormed)
    (hclock : ∀ id now, op = .notificationJob (.claim id now) → now ≤ s.shared.now)
    (h : exec crypto i x op s.shared = some (r, t)) : Leased (s.after i op r t) := by
  have hnow : s.shared.now ≤ t.now := by
    rw [exec_now h]
    omega
  refine ⟨fun p q e e' id now now' hpq hp hq he he' hne ↦ ?_, fun p e id now hp he ↦ ?_, ?_⟩
  -- Of two claims of a job the later one is new, or both are old; so the cases.
  · rcases State.getElem?_after hp with hp' | ⟨rfl, rfl⟩
    · rcases State.getElem?_after hq with hq | ⟨rfl, rfl⟩
      · rcases hs.fences p q e e' id now now' hpq hp' hq he he' hne with ⟨n, d, hpn, hnq, hn, hd⟩ | hd
        · exact .inl ⟨n, d, hpn, hnq, State.getElem?_after_of_some hn, hd⟩
        · exact .inr hd
      · obtain ⟨rfl, hr⟩ := he'.eq
        obtain rfl : r = .ok true := hr
        -- The new claim found the job ready: its last lease is over, or its completion is logged.
        obtain ⟨j, hj, hready, -⟩ := exec_claim h
        have hclaim := hclock id now' rfl
        rcases hs.holds p e id now hp' he with
          ⟨n, d, hpn, hn, hd⟩ | hend | ⟨j', hj', hbarred⟩
        · exact .inl ⟨n, d, hpn, (List.getElem?_eq_some_iff.1 hn).1,
            State.getElem?_after_of_some hn, hd⟩
        · exact .inr (hend.trans hnow)
        · obtain rfl : j = j' := Option.some.inj (hj.symm.trans hj')
          have hexpired := hbarred.expired hready
          exact .inr (show now + _ ≤ t.now by omega)
    · have hlt := (List.getElem?_eq_some_iff.1 hq).1
      rw [State.after_log, List.length_append, List.length_singleton] at hlt
      omega
  · rcases State.getElem?_after hp with hp | ⟨rfl, rfl⟩
    · exact hs.holds_step hfenced hop hclock h hp he
    · obtain ⟨rfl, hr⟩ := he.eq
      obtain rfl : r = .ok true := hr
      obtain ⟨j, -, -, hnew⟩ := exec_claim h
      exact .inr (.inr ⟨_, hnew, .inr ⟨rfl, now, rfl, le_rfl⟩⟩)
  · intro e he
    rw [State.after_log, List.mem_append, List.mem_singleton] at he
    rcases he with he | rfl
    · exact (hs.past e he).trans hnow
    · exact le_rfl

end Leases

end Stead
