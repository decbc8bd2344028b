import Stead.Queue.Lease

/-!
# A claim fences its job

The counter of a job is written from the snapshot its worker took when it claimed it. As long as
only the worker that claimed a job last records a failure of it, the snapshot is up to date: nobody
else writes the counter meanwhile, a success does not. So every failure counts one more than the
failures before it (`QueueSound`), and the last one gives the job up.

## The protocol

`fencing` is the protocol of the workers, in the sense of rely and guarantee. Its invariant has the
counters (`QueueSound`) and the leases (`Leased`, from `Queue.Lease`). What each step guarantees the
others is that the worker that claimed a job last finds its counter as it was (`KeepsJob`); a step
that would break it is a failure recorded by another worker, which `fenced` excludes. Under this
protocol the worker of a claimed job knows something that stays right until it is overtaken: there
are attempts left (`Claimed`), and, once it has read the row, the counter is the one it has read
(`Snapshot`). The triples for the parts of `tick` carry that from the claim to the completion.

## The results

* `fencedQueue_of_fenced`: in every run of `fenced`, no worker claims a job under a lease that is
  held, and the counter of each job is the number of its recorded failures and within its attempts.
* `fencedQueue_of_fenced_overtaken`: a run in which a worker that was overtaken still sends the job
  and says so, and the one that overtook it fails.
* `overtaken_worker_breaks_fence`: without fencing both parts fail, with three workers on one job.
-/

namespace Stead

open Concurrency Protocol

variable {ι : Type} [DecidableEq ι]

/-- How many failed attempts are recorded for a job. -/
def World.failures (w : World ι) (id : ℕ) : ℕ :=
  (w.failureAttempts.select none fun f ↦ f.notificationJobId = id).length

/-- The counter of each job is the number of its failed attempts, and a job that can still be tried
has attempts left. -/
structure QueueSound (w : World ι) : Prop where
  counted : ∀ id j, w.notificationJobs.stored id = some j → j.attempts = w.failures id
  bounded : ∀ id j, w.notificationJobs.stored id = some j → j.attempts ≤ j.maxAttempts
  left : ∀ id j, w.notificationJobs.stored id = some j → j.status.terminal = false →
    j.attempts < j.maxAttempts
  jobs : ∀ id, w.notificationJobs.stored id = none → w.failures id = 0

/-- Failures are counted in their own table. -/
theorem World.failures_congr {w t : World ι} (h : t.failureAttempts = w.failureAttempts) (id : ℕ) :
    t.failures id = w.failures id := by
  rw [failures, failures, h]

/-- One more is recorded for the job it names. -/
theorem World.failures_insert {w t : World ι} {f : NotificationFailureAttempt}
    (h : t.failureAttempts = (w.failureAttempts.insert none f).2) (id : ℕ) :
    t.failures id = w.failures id + if f.notificationJobId = id then 1 else 0 := by
  rw [failures, h, Table.select_insert, List.length_append, failures]
  by_cases hid : f.notificationJobId = id <;> simp [hid]

/-- What is ready to be claimed is not finished. -/
theorem NotificationJob.not_terminal_of_ready {j : NotificationJob} {now : ℤ}
    (h : j.ready now = true) : j.status.terminal = false := by
  cases hstatus : j.status <;> simp_all [NotificationJob.ready, NotificationJobStatus.terminal]

/-- A completion that records a failure counts one more than the job has, and gives the job up on
the last attempt. -/
def NotificationJobUpdate.Counts (data : NotificationJobUpdate) (j : NotificationJob) : Prop :=
  ∀ f, data.failureAttempt = some f → f.attemptNumber = j.attempts + 1 ∧
    j.attempts < j.maxAttempts ∧ (f.terminal = true ↔ j.maxAttempts ≤ f.attemptNumber)

section Step

variable {crypto : Crypto} {i : ι} {x : Choice} {op : Op} {w t : World ι}
  {r : Except StatementError op.Ret}

/-- The counters across a completion that counts. -/
theorem exec_update_queueSound {id : ℕ} {data : NotificationJobUpdate}
    {r : Except StatementError Unit} (hw : QueueSound w) (hdata : data.Completes)
    (hcounts : ∀ j, w.notificationJobs.stored id = some j → data.Counts j)
    (h : exec crypto i x (.notificationJob (.update id data)) w = some (r, t)) : QueueSound t := by
  -- Without an effect nothing has moved.
  rcases exec_update h with ⟨hjobs, hfail⟩ | ⟨j, hj, hnew, hothers, hfail⟩
  · refine ⟨fun k l hl ↦ ?_, fun k l hl ↦ ?_, fun k l hl ↦ ?_, fun k hk ↦ ?_⟩
    all_goals rw [hjobs] at *
    · rw [World.failures_congr hfail]
      exact hw.counted k l hl
    · exact hw.bounded k l hl
    · exact hw.left k l hl
    · rw [World.failures_congr hfail]
      exact hw.jobs k hk
  -- A completion with a failure adds one attempt to its job and none to the others.
  have hfailures : ∀ k, t.failures k = w.failures k +
      if data.failureAttempt.isSome ∧ k = id then 1 else 0 := by
    intro k
    cases hf : data.failureAttempt with
    | none =>
      rw [hf] at hfail
      simpa using World.failures_congr hfail k
    | some f =>
      rw [hf] at hfail
      rw [World.failures_insert hfail]
      simp [eq_comm]
  have hfinal : (data.apply j).attempts = t.failures id ∧
      (data.apply j).attempts ≤ j.maxAttempts ∧
        ((data.apply j).status.terminal = false → (data.apply j).attempts < j.maxAttempts) := by
    have hcount := hw.counted id j hj
    rw [hfailures, hdata.apply_status, NotificationJobUpdate.outcome,
      NotificationJobUpdate.apply, hdata.attempts]
    -- A success counts nothing; a failure has the number of the attempt that follows.
    cases hf : data.failureAttempt with
    | none => simpa [NotificationJobStatus.terminal, hcount] using hcount ▸ hw.bounded id j hj
    | some f =>
      obtain ⟨hnumber, hlt, hterm⟩ := hcounts j hj f hf
      refine ⟨by simp [hnumber, hcount], by simp [hnumber]; omega, fun hstatus ↦ ?_⟩
      have hnot : ¬ f.terminal = true := by
        intro hlast
        simp [hlast, NotificationJobStatus.terminal] at hstatus
      rw [hterm] at hnot
      simpa using hnot
  have hjobs : ∀ k l, t.notificationJobs.stored k = some l → k = id ∧ l = data.apply j ∨
      k ≠ id ∧ w.notificationJobs.stored k = some l := by
    intro k l hl
    by_cases hkid : k = id
    · subst hkid
      exact .inl ⟨rfl, Option.some.inj (hl.symm.trans hnew)⟩
    · exact .inr ⟨hkid, hothers k hkid ▸ hl⟩
  refine ⟨fun k l hl ↦ ?_, fun k l hl ↦ ?_, fun k l hl hs ↦ ?_, fun k hk ↦ ?_⟩
  · rcases hjobs k l hl with ⟨rfl, rfl⟩ | ⟨hkid, hl⟩
    · exact hfinal.1
    · simpa [hfailures, hkid] using hw.counted k l hl
  · rcases hjobs k l hl with ⟨rfl, rfl⟩ | ⟨-, hl⟩
    · exact hfinal.2.1
    · exact hw.bounded k l hl
  · rcases hjobs k l hl with ⟨rfl, rfl⟩ | ⟨-, hl⟩
    · exact hfinal.2.2 hs
    · exact hw.left k l hl hs
  · have hkid : k ≠ id := by
      rintro rfl
      cases hk.symm.trans hnew
    simpa [hfailures, hkid] using hw.jobs k (hothers k hkid ▸ hk)

/-- **The counters are kept by every statement** whose completions count. -/
theorem exec_queueSound (hw : QueueSound w) (hop : op.WellFormed)
    (hcounts : ∀ id data, op = .notificationJob (.update id data) →
      ∀ j, w.notificationJobs.stored id = some j → data.Counts j)
    (h : exec crypto i x op w = some (r, t)) : QueueSound t := by
  by_cases hupdate : ∃ id data, op = .notificationJob (.update id data)
  · obtain ⟨id, data, rfl⟩ := hupdate
    exact exec_update_queueSound hw hop (hcounts id data rfl) h
  push Not at hupdate
  have hfail := World.failures_congr (exec_failureAttempts h hupdate)
  -- Every job there is now is a new one or one of before with its counter.
  have hjobs : ∀ id j, t.notificationJobs.stored id = some j →
      (w.notificationJobs.stored id = none ∧ j.attempts = 0 ∧ j.maxAttempts = 3) ∨
        ∃ j₀, w.notificationJobs.stored id = some j₀ ∧ j₀.attempts = j.attempts ∧
          j₀.maxAttempts = j.maxAttempts ∧ (j.status.terminal = false → j₀.status.terminal = false) := by
    intro id j hj
    cases exec_notificationJobs h id with
    | same he => exact .inr ⟨j, he ▸ hj, rfl, rfl, fun h ↦ h⟩
    | create hopeq _ _ _ _ hold hnew =>
      subst hopeq
      obtain rfl := Option.some.inj (hj.symm.trans hnew)
      exact .inl ⟨hold, NewNotificationJob.Initial.attempts hop,
        NewNotificationJob.Initial.maxAttempts hop⟩
    | @edit s j₀ j' hopeq hj₀ he hnew =>
      obtain rfl := Option.some.inj (hj.symm.trans hnew)
      refine .inr ⟨j₀, hj₀, ?_⟩
      cases he with
      | adopt => exact ⟨rfl, rfl, fun h ↦ h⟩
      | claim k now hready =>
        exact ⟨rfl, rfl, fun _ ↦ NotificationJob.not_terminal_of_ready hready⟩
      | update k data => exact absurd hopeq (hupdate _ _)
      | redactTerminal => exact ⟨rfl, rfl, fun h ↦ h⟩
  refine ⟨fun id j hj ↦ ?_, fun id j hj ↦ ?_, fun id j hj hs ↦ ?_, fun id hid ↦ ?_⟩
  · rcases hjobs id j hj with ⟨hold, hzero, -⟩ | ⟨j₀, hj₀, ha, -, -⟩
    · rw [hfail, hw.jobs id hold, hzero]
    · rw [hfail, ← ha]
      exact hw.counted id j₀ hj₀
  · rcases hjobs id j hj with ⟨-, hzero, -⟩ | ⟨j₀, hj₀, ha, hm, -⟩
    · omega
    · have := hw.bounded id j₀ hj₀
      omega
  · rcases hjobs id j hj with ⟨-, hzero, hthree⟩ | ⟨j₀, hj₀, ha, hm, hstatus⟩
    · omega
    · have := hw.left id j₀ hj₀ (hstatus hs)
      omega
  · rw [hfail]
    refine hw.jobs id ?_
    cases exec_notificationJobs h id with
    | same he => exact he ▸ hid
    | create _ _ _ _ _ hold _ => exact hold
    | edit _ _ _ hnew => cases hid.symm.trans hnew

end Step

/-! ### The worker that claimed the job last -/

/-- A job as it was, as far as its worker has to know: the same counter and the same bound. -/
def NotificationJob.Kept (j j' : NotificationJob) : Prop :=
  j'.attempts = j.attempts ∧ j'.maxAttempts = j.maxAttempts

/-- What a step leaves to the worker that claimed job `id` last. -/
def KeepsJob (s s' : History ι) (id : ℕ) : Prop :=
  ∀ j, s.shared.notificationJobs.stored id = some j →
    ∃ j', s'.shared.notificationJobs.stored id = some j' ∧ j.Kept j'

/-- The protocol of the workers: the counters are right, the leases are held, and a worker that is
the last to have claimed a job finds it as it left it. -/
def fencing (crypto : Crypto) : Protocol (machine ι crypto) fenced where
  Inv s := QueueSound s.shared ∧ Leased s
  Guar j s s' := ∀ k, k ≠ j → ∀ id, LastClaim s' id k → LastClaim s id k ∧ KeepsJob s s' id
  crash_ok _ _ hs _ := ⟨⟨⟨hs.1.1, hs.1.2, hs.1.3, hs.1.4⟩, ⟨hs.2.1, hs.2.2, hs.2.3⟩⟩,
    fun _ _ _ h ↦ ⟨h, fun j hj ↦ ⟨j, hj, rfl, rfl⟩⟩⟩

section Fencing

variable {crypto : Crypto} {i : ι} {x : Choice} {op : Op} {s : History ι} {t : World ι}
  {r : Except StatementError op.Ret}

/-- A statement that records no failure of the job keeps its counter. -/
theorem exec_keepsJob {id : ℕ} (hop : op.WellFormed)
    (hfail : ∀ data, op = .notificationJob (.update id data) → data.failureAttempt = none)
    (h : exec crypto i x op s.shared = some (r, t)) : KeepsJob s (s.after i op r t) id := by
  intro j hj
  cases exec_notificationJobs h id with
  | same he => exact ⟨j, he.trans hj, rfl, rfl⟩
  | create _ _ _ _ _ hold => cases hold.symm.trans hj
  | @edit s₀ j₀ j' hopeq hj₀ he hnew =>
    obtain rfl := Option.some.inj (hj₀.symm.trans hj)
    refine ⟨j', hnew, ?_⟩
    cases he with
    | adopt => exact ⟨rfl, rfl⟩
    | claim => exact ⟨rfl, rfl⟩
    | redactTerminal => exact ⟨rfl, rfl⟩
    | update k data =>
      subst hopeq
      refine ⟨?_, rfl⟩
      rw [NotificationJobUpdate.apply, NotificationJobUpdate.Completes.attempts hop, hfail data rfl]
      rfl

/-- **One statement under the protocol.** A claim must not run ahead of the clock, and a failure
must count. -/
theorem fencing_stmt (hs : (fencing crypto).Inv s) (hfenced : fenced.stmt i x op s)
    (hop : op.WellFormed)
    (hclock : ∀ id now, op = .notificationJob (.claim id now) → now ≤ s.shared.now)
    (hcounts : ∀ id data, op = .notificationJob (.update id data) →
      ∀ j, s.shared.notificationJobs.stored id = some j → data.Counts j)
    (h : exec crypto i x op s.shared = some (r, t)) :
    (fencing crypto).Inv (s.after i op r t) ∧ (fencing crypto).Guar i s (s.after i op r t) := by
  refine ⟨⟨exec_queueSound hs.1 hop hcounts h, exec_leased hs.2 hfenced hop hclock h⟩,
    fun k hk id hlast ↦ ?_⟩
  have hlast' : LastClaim s id k := hlast.of_after (.inl hk)
  refine ⟨hlast', exec_keepsJob hop (fun data hdata ↦ ?_) h⟩
  by_contra hfailure
  exact hk (hlast'.unique (hfenced id data hdata hfailure))

/-- The time a thread has read is past. -/
theorem clock_stable (now : ℤ) : (fencing crypto).Stable i fun s ↦ now ≤ s.shared.now := by
  intro s s' hr hs
  obtain ⟨j, -, hm, -⟩ := hr.move
  cases hm with
  | stmt ha hx =>
    have := exec_now hx
    show now ≤ _
    rw [State.after_shared]
    omega
  | crash ha => exact hs

/-- What the worker of a claimed job knows: unless it was overtaken, the counter is the one of the
row it has read, and attempts are left. -/
def Snapshot (i : ι) (id : ℕ) (row : NotificationJob) (s : History ι) : Prop :=
  LastClaim s id i → ∃ j, s.shared.notificationJobs.stored id = some j ∧
    j.attempts = row.attempts ∧ j.maxAttempts = row.maxAttempts ∧ row.attempts < row.maxAttempts

/-- The worker that has claimed a job finds attempts left, unless it was overtaken. -/
def Claimed (i : ι) (id : ℕ) (s : History ι) : Prop :=
  LastClaim s id i → ∃ j, s.shared.notificationJobs.stored id = some j ∧
    j.attempts < j.maxAttempts

/-- Nobody else takes an attempt away from it. -/
theorem claimed_stable (id : ℕ) : (fencing crypto).Stable i (Claimed i id) := by
  intro s s' hr hs hlast
  obtain ⟨k, hk, -, hg⟩ := hr.move
  obtain ⟨hlast, hkeeps⟩ := hg i hk.symm id hlast
  obtain ⟨j, hj, hlt⟩ := hs hlast
  obtain ⟨j', hj', ha, hm⟩ := hkeeps j hj
  exact ⟨j', hj', ha ▸ hm ▸ hlt⟩

/-- Nobody else changes what it has read of the counter. -/
theorem snapshot_stable (id : ℕ) (row : NotificationJob) :
    (fencing crypto).Stable i (Snapshot i id row) := by
  intro s s' hr hs hlast
  obtain ⟨k, hk, -, hg⟩ := hr.move
  obtain ⟨hlast, hkeeps⟩ := hg i hk.symm id hlast
  obtain ⟨j, hj, ha, hm, hlt⟩ := hs hlast
  obtain ⟨j', hj', ha', hm'⟩ := hkeeps j hj
  exact ⟨j', hj', ha'.trans ha, hm'.trans hm, hlt⟩

/-- The worker's own statements, other than a failure, keep what it knows. -/
theorem Snapshot.after {id : ℕ} {row : NotificationJob} (hs : Snapshot i id row s)
    (hop : op.WellFormed) (hclaim : ∀ now, op ≠ .notificationJob (.claim id now))
    (hfail : ∀ data, op = .notificationJob (.update id data) → data.failureAttempt = none)
    (h : exec crypto i x op s.shared = some (r, t)) : Snapshot i id row (s.after i op r t) := by
  intro hlast
  obtain ⟨j, hj, ha, hm, hlt⟩ := hs (hlast.of_after (.inr hclaim))
  obtain ⟨j', hj', ha', hm'⟩ := exec_keepsJob hop hfail h j hj
  exact ⟨j', hj', ha'.trans ha, hm'.trans hm, hlt⟩

/-- The answer to a read of the job that was claimed is a snapshot of it. -/
theorem Claimed.snapshot {id : ℕ} {row : NotificationJob} (hs : Claimed i id s)
    (h : exec crypto i x (.notificationJob (.findById id)) s.shared = some (.ok row, t)) :
    Snapshot i id row (s.after i (.notificationJob (.findById id)) (.ok row) t) := by
  intro hlast
  obtain ⟨j, hj, hlt⟩ := hs (hlast.of_after (.inr fun _ ↦ nofun))
  have hp := perform_of_exec_ok h
  simp only [perform, NotificationJobStatement.perform] at hp
  have hj' : (s.shared.elapse x.elapse).notificationJobs.stored id = some j := hj
  rw [hj'] at hp
  cases hp
  exact ⟨row, hj, rfl, rfl, hlt⟩

end Fencing

/-! ### The calls under the protocol -/

/-- A statement that neither claims nor completes a job. -/
structure Op.Leaves (op : Op) : Prop where
  wellFormed : op.WellFormed
  claim : ∀ id now, op ≠ .notificationJob (.claim id now)
  update : ∀ id data, op ≠ .notificationJob (.update id data)

/-- Reads leave the jobs alone. -/
theorem Op.Leaves.of_reads {op : Op} (h : op.reads = true) : op.Leaves := by
  refine ⟨(Op.Consumes.of_reads h).wellFormed, ?_, ?_⟩
  · rintro id now rfl
    cases h
  · rintro id data rfl
    cases h

/-- A request for a code leaves the jobs of the workers. -/
theorem Op.Requests.leaves {op : Op} (h : op.Requests) : op.Leaves := by
  refine ⟨h.wellFormed, ?_, ?_⟩
  · rintro id now rfl
    cases h
  · rintro id data rfl
    cases h

/-- Issuing a session leaves the jobs of the workers. -/
theorem Op.Issues.leaves {op : Op} (h : op.Issues) : op.Leaves := by
  refine ⟨h.wellFormed, ?_, ?_⟩
  · rintro id now rfl
    cases h
  · rintro id data rfl
    cases h

section Calls

variable (env : Env) {i : ι}

/-- A program that leaves the jobs alone. -/
theorem leaves_triple {α : Type} {p : Call α} (hp : p.All Op.Leaves) :
    (fencing env.crypto).Triple i (fun _ ↦ True) p (fun _ _ ↦ True) fun _ _ ↦ True :=
  .of_all hp .const fun _ hop _ _ _ _ hs _ ha hx ↦
    have := fencing_stmt hs ha hop.wellFormed (fun _ _ h ↦ absurd h (hop.claim _ _))
      (fun _ _ h ↦ absurd h (hop.update _ _)) hx
    ⟨this.1, this.2, trivial⟩

/-- It also keeps what the worker knows of its job. -/
theorem leaves_triple_snapshot {α : Type} {p : Call α} (hp : p.All Op.Leaves) {id : ℕ}
    {row : NotificationJob} :
    (fencing env.crypto).Triple i (Snapshot i id row) p (fun _ ↦ Snapshot i id row)
      fun _ ↦ Snapshot i id row :=
  .of_all hp (snapshot_stable id row) fun _ hop _ _ _ _ hs hsnap ha hx ↦
    have := fencing_stmt hs ha hop.wellFormed (fun _ _ h ↦ absurd h (hop.claim _ _))
      (fun _ _ h ↦ absurd h (hop.update _ _)) hx
    ⟨this.1, this.2, hsnap.after hop.wellFormed (hop.claim id)
      (fun _ h ↦ absurd h (hop.update _ _)) hx⟩

/-- The failure a worker records counts one more than the job has. -/
theorem failedUpdate_counts {j row : NotificationJob} (ha : j.attempts = row.attempts)
    (hm : j.maxAttempts = row.maxAttempts) (hlt : row.attempts < row.maxAttempts)
    (nextRunAt failedAt : ℤ) (lastError : String) :
    (failedUpdate row (row.attempts + 1) nextRunAt failedAt lastError).Counts j := by
  intro f hf
  cases hf
  exact ⟨by rw [ha], by omega, by simp [hm]⟩

/-- A completion that counts wherever its worker was not overtaken. -/
theorem updateJob_triple {id : ℕ} {data : NotificationJobUpdate} {Pre Post : History ι → Prop}
    (hpre : (fencing env.crypto).Stable i Pre) (hpost : (fencing env.crypto).Stable i Post)
    (hdata : data.Completes)
    (hcounts : ∀ s : History ι, (data.failureAttempt ≠ none → LastClaim s id i) → Pre s → ∀ j,
      s.shared.notificationJobs.stored id = some j → data.Counts j)
    (hafter : ∀ s x r t, Pre s →
      exec env.crypto i x (.notificationJob (.update id data)) s.shared = some (r, t) →
        Post (s.after i (.notificationJob (.update id data)) r t)) :
    (fencing env.crypto).Triple i Pre (updateJob id data) (fun _ ↦ Post) fun _ ↦ Post := by
  have hrun : (fencing env.crypto).Triple i Pre (run (.notificationJob (.update id data)))
      (fun _ ↦ Post) fun _ ↦ Post := by
    refine triple_run (fun _ ↦ Post) (fun _ ↦ Post) hpre (fun s x r t hs hp ha hx ↦ ?_)
      (fun _ ↦ .pure hpost fun _ _ h ↦ h) fun _ ↦ .throw hpost fun _ _ h ↦ h
    have hstmt := fencing_stmt hs ha hdata (fun _ _ h ↦ nomatch h)
      (fun id' data' heq ↦ by cases heq; exact hcounts s (ha id data rfl) hp) hx
    exact ⟨hstmt.1, hstmt.2, fun _ _ ↦ hafter s x r t hp hx, fun _ _ ↦ hafter s x r t hp hx⟩
  exact .tryCatch hrun fun e ↦ .ite (fun _ ↦ .pure hpost fun _ _ h ↦ h)
    fun _ ↦ .throw hpost fun _ _ h ↦ h

/-- **A failure** is recorded on the counter the worker has read. -/
theorem markFailed_triple (job : ClaimedJob) (error : Failure) :
    (fencing env.crypto).Triple i (Snapshot i job.id job.row) (markFailed env job error)
      (fun _ _ ↦ True) fun _ _ ↦ True := by
  have hread : ∀ {α : Type} {p : Call α}, p.All (Op.reads · = true) →
      (fencing env.crypto).Triple i (Snapshot i job.id job.row) p
        (fun _ ↦ Snapshot i job.id job.row) fun _ _ ↦ True :=
    fun hp ↦ (leaves_triple_snapshot env (hp.mono fun _ ↦ .of_reads)).post (fun _ _ _ h ↦ h)
      fun _ _ _ _ ↦ trivial
  refine .bind (hread (.run rfl)) fun now ↦ .bind (hread ?_) fun nextRunAt ↦
    updateJob_triple env (snapshot_stable _ _) .const (failedUpdate_completes _ _ _ _ _)
      (fun s hlast hsnap j hj ↦ ?_) fun _ _ _ _ _ _ ↦ trivial
  · exact .ite (fun _ ↦ trivial) fun _ ↦ .run_bind rfl fun _ ↦ trivial
  · obtain ⟨j', hj', ha, hm, hlt⟩ := hsnap (hlast nofun)
    obtain rfl := Option.some.inj (hj'.symm.trans hj)
    exact failedUpdate_counts ha hm hlt _ _ _

/-- A success leaves the counter alone: when its answer is lost, the failure that follows counts
from the same number. -/
theorem markSucceeded_triple (job : ClaimedJob) (provider : String)
    (providerMessageId : Option String) :
    (fencing env.crypto).Triple i (Snapshot i job.id job.row)
      (markSucceeded job provider providerMessageId)
      (fun _ ↦ Snapshot i job.id job.row) fun _ ↦ Snapshot i job.id job.row := by
  refine .bind (leaves_triple_snapshot env (.run (.of_reads rfl))) fun sentAt ↦
    updateJob_triple env (snapshot_stable _ _) (snapshot_stable _ _)
      (succeededUpdate_completes _ _ _) (fun _ _ _ _ _ f hf ↦ nomatch hf)
      fun s x r t hsnap hx ↦ ?_
  exact hsnap.after (succeededUpdate_completes _ _ _) (fun _ ↦ nofun)
    (fun data hdata ↦ by cases hdata; rfl) hx

/-- **A claimed job** is sent or its failure is recorded, from the snapshot of the claim. -/
theorem processClaimedJob_triple (job : ClaimedJob) :
    (fencing env.crypto).Triple i (Snapshot i job.id job.row) (processClaimedJob env job)
      (fun _ _ ↦ True) fun _ _ ↦ True := by
  refine .tryCatch (R := fun _ ↦ Snapshot i job.id job.row) ?_
    fun e ↦ markFailed_triple env job e
  refine .bind (leaves_triple_snapshot env ?_) fun deliverable ↦ .ite (fun _ ↦ ?_)
    fun _ ↦ .pure (snapshot_stable _ _) fun _ _ _ ↦ trivial
  · exact .run_bind (.of_reads rfl) fun _ ↦ .ite (fun _ ↦ trivial) fun _ ↦ .run (.of_reads rfl)
  · refine .bind (leaves_triple_snapshot env ((processJob_all job).mono fun _ h ↦ .of_reads (Op.reads_of_looks h)))
      fun result ↦ (markSucceeded_triple env job _ _).post (fun _ _ _ _ ↦ trivial)
        fun _ _ _ h ↦ h

/-- **A claim** gives the worker a snapshot that stays right until it is overtaken. -/
theorem claimReadyJob_triple :
    (fencing env.crypto).Triple i (fun _ ↦ True) (claimReadyJob env)
      (fun job s ↦ ∀ j, job = some j → Snapshot i j.id j.row s) fun _ _ ↦ True := by
  have hnone : ∀ {R : History ι → Prop}, (fencing env.crypto).Stable i R →
      (fencing env.crypto).Triple i R (.pure none : Call (Option ClaimedJob))
        (fun job s ↦ ∀ j, job = some j → Snapshot i j.id j.row s) fun _ _ ↦ True :=
    fun hst ↦ .pure hst fun _ _ _ _ h ↦ nomatch h
  refine triple_run_bind (fun now s ↦ now ≤ s.shared.now) (fun _ _ ↦ True) .const ?_
    (fun now ↦ ?_) fun _ ↦ .throw .const fun _ _ h ↦ h
  · intro s x r t hs _ ha hx
    have hop : (Op.host .now).Leaves := .of_reads rfl
    have hstmt := fencing_stmt hs ha hop.wellFormed (fun _ _ h ↦ nomatch h)
      (fun _ _ h ↦ nomatch h) hx
    refine ⟨hstmt.1, hstmt.2, fun now hr ↦ ?_, fun _ _ ↦ trivial⟩
    subst hr
    cases perform_of_exec_ok hx
    exact le_rfl
  refine triple_run_bind (fun _ s ↦ now ≤ s.shared.now) (fun _ _ ↦ True) (clock_stable now) ?_
    (fun candidate ↦ ?_) fun _ ↦ .throw .const fun _ _ h ↦ h
  · intro s x r t hs hnow ha hx
    have hop : (Op.notificationJob (.findReady now)).Leaves := .of_reads rfl
    have hstmt := fencing_stmt hs ha hop.wellFormed (fun _ _ h ↦ nomatch h)
      (fun _ _ h ↦ nomatch h) hx
    refine ⟨hstmt.1, hstmt.2, fun _ _ ↦ hnow.trans ?_, fun _ _ ↦ trivial⟩
    show s.shared.now ≤ t.now
    rw [exec_now hx]
    omega
  cases candidate with
  | none => exact hnone (clock_stable now)
  | some candidate =>
    refine triple_run_bind (fun claimed s ↦ claimed = true → Claimed i candidate.id s)
      (fun _ _ ↦ True) (clock_stable now) ?_ (fun claimed ↦ .ite (fun hclaimed ↦ ?_) fun _ ↦ ?_)
      fun _ ↦ .throw .const fun _ _ h ↦ h
    · intro s x r t hs hnow ha hx
      have hstmt := fencing_stmt hs ha trivial (fun _ _ h ↦ by cases h; exact hnow)
        (fun _ _ h ↦ nomatch h) hx
      refine ⟨hstmt.1, hstmt.2, fun a hr hclaimed _ ↦ ?_, fun _ _ ↦ trivial⟩
      subst hr hclaimed
      -- What is ready to be claimed has attempts left.
      obtain ⟨j, hj, hready, hnew⟩ := exec_claim hx
      exact ⟨_, hnew, hs.1.left _ j hj (NotificationJob.not_terminal_of_ready hready)⟩
    · refine triple_run_bind (fun locked s ↦ Snapshot i candidate.id locked s) (fun _ _ ↦ True)
        (.all fun _ ↦ claimed_stable _) ?_ (fun locked ↦ ?_)
        fun _ ↦ .throw .const fun _ _ h ↦ h
      · intro s x r t hs hmine ha hx
        have hop : (Op.notificationJob (.findById candidate.id)).Leaves := .of_reads rfl
        have hstmt := fencing_stmt hs ha hop.wellFormed (fun _ _ h ↦ nomatch h)
          (fun _ _ h ↦ nomatch h) hx
        refine ⟨hstmt.1, hstmt.2, fun locked hr ↦ ?_, fun _ _ ↦ trivial⟩
        subst hr
        exact (hmine hclaimed).snapshot hx
      · split
        · next payload _ =>
          refine .pure (snapshot_stable _ _) fun _ _ hsnap j hj ↦ ?_
          cases hj
          exact hsnap
        · next error _ =>
          exact .bind (markFailed_triple env ⟨candidate.id, locked, REDACTED_PAYLOAD⟩ error)
            fun _ ↦ hnone .const
    · exact hnone (.all fun _ ↦ claimed_stable _)

/-- **One poll** of a consumer. -/
theorem tick_triple : (fencing env.crypto).Triple i (fun _ ↦ True) (tick env)
    (fun _ _ ↦ True) fun _ _ ↦ True := by
  refine .tryCatch (.bind (claimReadyJob_triple env) fun job ↦ ?_)
    fun _ ↦ .pure .const fun _ _ h ↦ h
  cases job with
  | none => exact .pure (.all fun _ ↦ fun _ _ _ _ h ↦ nomatch h) fun _ _ _ ↦ trivial
  | some job => exact (processClaimedJob_triple env job).pre fun _ _ h ↦ h job rfl

/-- **Every call** follows the protocol; only a poll has to do with claims. -/
theorem call_fencing_triple (call : ApiCall) :
    (fencing env.crypto).Triple i (fun _ ↦ True) (call.program env) (fun _ _ ↦ True)
      fun _ _ ↦ True := by
  cases call with
  | requestOtp phone countryIso context =>
    exact leaves_triple env (.map _ ((requestOtp_all env phone countryIso context).mono
      fun _ h ↦ h.requests.leaves))
  | verifyOtp phone countryIso otp context =>
    exact leaves_triple env (.map _ ((verifyOtp_all env phone countryIso otp context).mono
      fun _ ↦ Op.Issues.leaves))
  | refreshSession refreshToken context =>
    exact leaves_triple env (.map _ ((refreshSession_all env refreshToken context).mono
      fun _ h ↦ h.issues.leaves))
  | revokeSession input =>
    exact leaves_triple env (.map _ ((revokeSession_all env input).mono
      fun _ h ↦ h.issues.leaves))
  | enqueueReadinessAlert input =>
    exact leaves_triple env (.map _ ((enqueueReadinessAlert_all env input).mono
      fun _ h ↦ Op.Requests.leaves (.of_replays h)))
  | redactTerminalPayloads =>
    refine leaves_triple env (.map _ (.run_bind (.of_reads rfl) fun _ ↦
      .run_bind ⟨trivial, ?_, ?_⟩ fun _ ↦ trivial))
    · exact fun _ _ h ↦ nomatch h
    · exact fun _ _ h ↦ nomatch h
  | tick => exact .bind (tick_triple env) fun _ ↦ .pure .const fun _ _ h ↦ h

end Calls

/-- The property the queue is meant to have in a state. -/
structure FencedQueue (s : History ι) : Prop where
  fenced : Fenced s
  counted : ∀ id j, s.shared.notificationJobs.stored id = some j →
    j.attempts = s.shared.failures id ∧ j.attempts ≤ j.maxAttempts

/-- **A claim fences its job where only the last worker to claim it records a failure.** On any
database with the right counters, with any number of consumers and other calls, lost answers and
crashes included. -/
theorem fencedQueue_of_fenced (env : Env) (w : World ι) (hw : QueueSound w) (calls : ι → ApiCall)
    {c : System ι} (hc : System.Reaches env fenced (System.start env w calls) c) :
    FencedQueue c.state := by
  have hstart : Leased (⟨w, []⟩ : History ι) :=
    ⟨fun _ _ _ _ _ _ _ _ h ↦ (nomatch h), fun _ _ _ _ h ↦ (nomatch h), fun _ h ↦ (nomatch h)⟩
  have hsafe : (fencing env.crypto).AllSafe (fun _ _ _ ↦ True) (fun _ _ _ ↦ True)
      (System.start env w calls) :=
    .start (fun _ _ ↦ True) ⟨hw, hstart⟩ (fun _ ↦ trivial) fun i ↦ call_fencing_triple env (calls i)
  obtain ⟨⟨hsound, hleased⟩, -⟩ := hsafe.run hc
  exact ⟨hleased.fences, fun id j hj ↦ ⟨hsound.counted id j hj, hsound.bounded id j hj⟩⟩

namespace Demo

/-- Whether an event is an answered claim of a job. -/
def claimOf : Happening ℕ → Option (ℕ × ℤ)
  | ⟨_, _, .notificationJob (.claim id now), .ok true, _⟩ => some (id, now)
  | _ => none

/-- What the test sees is a claim. -/
theorem claims_iff {id : ℕ} {now : ℤ} {e : Happening ℕ} :
    Claims id now e ↔ claimOf e = some (id, now) := by
  unfold Claims claimOf
  split <;> simp

/-- The last worker to claim a job. -/
def lastClaim (s : History ℕ) (id : ℕ) : Option ℕ :=
  (s.log.reverse.find? fun e ↦ (claimOf e).any fun c ↦ c.1 = id).map Event.thread

/-- Fencing, as a test. -/
def allowFenced : ℕ → Op → History ℕ → Bool
  | i, .notificationJob (.update id data), s =>
    data.failureAttempt.isNone || lastClaim s id = some i
  | _, _, _ => true

/-- What a search from the end of a list finds is the last of its kind. -/
theorem getElem?_of_find?_reverse {α : Type} {l : List α} {test : α → Bool} {a : α}
    (h : l.reverse.find? test = some a) :
    ∃ n : ℕ, l[n]? = some a ∧ ∀ q b, n < q → l[q]? = some b → test b = false := by
  obtain ⟨-, later, earlier, hl, hlater⟩ := List.find?_eq_some_iff_append.1 h
  rw [List.reverse_eq_iff, List.reverse_append, List.reverse_cons, List.append_assoc,
    List.singleton_append] at hl
  refine ⟨earlier.reverse.length, by simp [hl], fun q b hq hb ↦ ?_⟩
  have hmem : b ∈ later := by
    rw [hl, List.getElem?_append_right hq.le] at hb
    obtain ⟨m, hm⟩ := Nat.exists_eq_add_of_lt hq
    rw [show q - earlier.reverse.length = m + 1 by omega, List.getElem?_cons_succ] at hb
    simpa using List.mem_of_getElem? hb
  simpa using hlater b hmem

/-- The one found by searching the log from its end claimed last. -/
theorem lastClaim_of_eq {s : History ℕ} {id i : ℕ} (h : lastClaim s id = some i) :
    LastClaim s id i := by
  obtain ⟨e, he, rfl⟩ := Option.map_eq_some_iff.1 h
  have hclaim := List.find?_some (p := fun e ↦ (claimOf e).any fun c ↦ c.1 = id) he
  obtain ⟨n, hn, hlater⟩ := getElem?_of_find?_reverse he
  obtain ⟨⟨id', now⟩, hnow, hid⟩ := (Option.any_eq_true _ _).1 hclaim
  obtain rfl : id' = id := by simpa using hid
  refine ⟨n, e, now, hn, rfl, claims_iff.2 hnow, fun q d m hq hd hc ↦ ?_⟩
  have hnone := hlater q d hq hd
  simp [claims_iff.1 hc] at hnone

/-- What passes the test is fenced. -/
theorem allowFenced_stmt (i : ℕ) (x : Choice) (op : Op) (s : History ℕ)
    (h : allowFenced i op s = true) : fenced.stmt i x op s := by
  rintro id data rfl hfailure
  refine lastClaim_of_eq ?_
  simpa [allowFenced, hfailure] using h

/-- A request for a code, and consumers. -/
def consumers : ℕ → ApiCall
  | 0 => requestOtp '0'
  | _ => .tick

/-- The code is requested, and a consumer claims the job. -/
def claimed : List (Turn ℕ Choice) := steps 0 18 ++ steps 1 4

/-- The consumer fails to send the code and records the failure. -/
def fails (i : ℕ) : List (Turn ℕ Choice) := steps i 2 ++ [⟨i, { fault := .before }⟩] ++ steps i 3

/-- Another consumer claims the job after a time. -/
def claimsAfter (i elapse : ℕ) : List (Turn ℕ Choice) := ⟨i, { elapse }⟩ :: steps i 2

/-- The first consumer is overtaken, and sends the code all the same. The second one fails to send
it and records the failure, which makes the job wait again. A third one claims it, finds that the
payload was erased when the job was sent, and fails as well. -/
def overtakenSuccess : List (Turn ℕ Choice) :=
  claimed ++ claimsAfter 2 300000 ++ steps 2 1 ++ steps 1 5 ++ fails 2 ++ claimsAfter 3 2000 ++
    steps 3 6

/-- All failures of the schedule are fenced. -/
theorem overtakenSuccess_runs : ((System.start env world consumers).turns (machine ℕ crypto)
    allowFenced overtakenSuccess).any (fun c ↦
      (c.state.shared.notificationJobs.stored 0).map NotificationJob.attempts = some 2 ∧
        c.state.shared.failures 0 = 2) = true := by
  decide +kernel

/-- Nothing is in the queue. -/
theorem queueSound_world : QueueSound world :=
  ⟨fun _ _ h ↦ (nomatch h), fun _ _ h ↦ (nomatch h), fun _ _ h ↦ (nomatch h), fun _ _ ↦ rfl⟩

end Demo

/-- A run with a late success: two failures are recorded, and the counter says two. -/
theorem fencedQueue_of_fenced_overtaken :
    let c := Demo.after (System.start Demo.env Demo.world Demo.consumers) _ _
      (Option.isSome_of_any Demo.overtakenSuccess_runs)
    FencedQueue c.state ∧
      (c.state.shared.notificationJobs.stored 0).map NotificationJob.attempts = some 2 ∧
        c.state.shared.failures 0 = 2 :=
  ⟨fencedQueue_of_fenced Demo.env Demo.world Demo.queueSound_world Demo.consumers
      (Config.run_afterTurns Demo.allowFenced_stmt (Option.isSome_of_any Demo.overtakenSuccess_runs)),
    of_decide_eq_true (Config.afterTurns_of_any Demo.overtakenSuccess_runs)⟩

/-! ### Three consumers on one job -/

namespace Demo

/-- The statement that ends a claim. -/
def endsClaim : Op → Bool
  | .notificationJob (.update _ _) => true
  | _ => false

/-- Two claims, the third consumer's two seconds after the second's, which is not completed. -/
def Overtaken (log : List (Happening ℕ)) : Prop :=
  log[24]?.map (fun e ↦ (e.thread, claimOf e)) = some (2, some (0, 300000)) ∧
    log[34]?.map (fun e ↦ (e.thread, claimOf e, e.after.now)) =
      some (3, some (0, 302000), 302000) ∧
    ∀ e ∈ log.drop 25, e.thread = 2 → endsClaim e.op = false

instance (log : List (Happening ℕ)) : Decidable (Overtaken log) :=
  inferInstanceAs (Decidable (_ ∧ _ ∧ _))

/-- The lease of the first consumer ends and a second one claims the job. The first records a
failure, which makes the job wait again, and two seconds later a third one claims it. Then the
second consumer records a failure as well. -/
theorem overtaken_runs : ((System.start env world consumers).turns (machine ℕ crypto) anything
    (claimed ++ claimsAfter 2 300000 ++ steps 2 1 ++ fails 1 ++ claimsAfter 3 2000)).any (fun c ↦
      Overtaken c.state.log ∧ (c.turns (machine ℕ crypto) anything (fails 2)).any (fun c' ↦
        (c'.state.shared.notificationJobs.stored 0).map NotificationJob.attempts = some 1 ∧
          c'.state.shared.failures 0 = 2) = true) = true := by
  decide +kernel

/-- The third consumer has claimed the job. -/
def overtaken : System ℕ :=
  after (System.start env world consumers) _ _ (Option.isSome_of_any overtaken_runs)

/-- What the schedule leads to, and what follows when the second consumer fails too. -/
theorem overtaken_tests : Overtaken overtaken.state.log ∧
    (overtaken.turns (machine ℕ crypto) anything (fails 2)).any (fun c' ↦
      (c'.state.shared.notificationJobs.stored 0).map NotificationJob.attempts = some 1 ∧
        c'.state.shared.failures 0 = 2) = true :=
  of_decide_eq_true (Config.afterTurns_of_any overtaken_runs)

/-- Two failures are recorded. -/
def miscounted : System ℕ := after overtaken _ _ (Option.isSome_of_any overtaken_tests.2)

/-- The third claim comes two seconds after the second one, which was not completed. -/
theorem overtaken_not_fenced : ¬ Fenced overtaken.state := by
  obtain ⟨hsecond, hthird, hbetween⟩ := overtaken_tests.1
  obtain ⟨e, he, hes⟩ := Option.map_eq_some_iff.1 hsecond
  obtain ⟨e', he', hes'⟩ := Option.map_eq_some_iff.1 hthird
  simp only [Prod.mk.injEq] at hes hes'
  intro hfenced
  rcases hfenced 24 34 e e' 0 300000 302000 (by omega) he he' (claims_iff.2 hes.2)
    (claims_iff.2 hes'.2.1) (by omega) with ⟨n, d, hn, -, hd, hthread, data, j, hop, -⟩ | hended
  · have hmem : d ∈ overtaken.state.log.drop 25 := by
      refine List.mem_of_getElem? (i := n - 25) ?_
      rwa [List.getElem?_drop, show 25 + (n - 25) = n by omega]
    have := hbetween d hmem (hthread.trans hes.1)
    simp [hop, endsClaim] at this
  · rw [hes'.2.2] at hended
    exact absurd hended (by decide)

end Demo

/-- **An overtaken worker breaks the fence.** The third consumer claims the job under the lease of
the second; and when the second one fails as well, the counter of the job says one failure, where
two are recorded. -/
theorem overtaken_worker_breaks_fence : ∃ c c' : System ℕ,
    System.Reaches Demo.env .all (System.start Demo.env Demo.world Demo.consumers) c ∧
      System.Reaches Demo.env .all c c' ∧ ¬ FencedQueue c.state ∧ ¬ FencedQueue c'.state ∧
        (c'.state.shared.notificationJobs.stored 0).map NotificationJob.attempts = some 1 ∧
          c'.state.shared.failures 0 = 2 := by
  obtain ⟨hattempts, hfailures⟩ : (Demo.miscounted.state.shared.notificationJobs.stored 0).map
      NotificationJob.attempts = some 1 ∧ Demo.miscounted.state.shared.failures 0 = 2 :=
    of_decide_eq_true (Config.afterTurns_of_any Demo.overtaken_tests.2)
  refine ⟨Demo.overtaken, Demo.miscounted, Demo.reaches_after _ _ _, Demo.reaches_after _ _ _,
    fun h ↦ Demo.overtaken_not_fenced h.fenced, fun h ↦ ?_, hattempts, hfailures⟩
  obtain ⟨j, hj, hone⟩ := Option.map_eq_some_iff.1 hattempts
  have := (h.counted 0 j hj).1
  omega

end Stead
