import Stead.Otp.Sent

/-!
# One job for a key

However often a request is repeated under its idempotency key, by calls that overlap, take each other
over or are lost at any point, one job is enqueued for it: the job that an answer is about.

## Which job

The jobs of a key are those that have its dedupe key (`World.JobOf`). The unique index refuses a
second one while the first is there, and no call removes a job, so two jobs of a key that are in the
table at any two moments of a run are one (`World.JobOf.stays`). What the job encloses when it is
enqueued is the code whose hash is in the row it is linked to (`EnqueuesCode`): the call that
enqueues it has created the row itself, and a row that is taken over is deleted first, whereupon the
foreign key refuses the job.

## Answers

That the job is there when a request is answered is the invariant of `Otp.Sent`. What is added here
is about the whole run: `EnqueuedJobs` keeps the jobs that were there at the beginning, and what each
statement has enqueued.
-/

namespace Stead

open Concurrency

variable {ι : Type}

/-- The job is one of the request with this key. -/
def World.JobOf (w : World ι) (requestKeyHash : Digest) (id : ℕ) : Prop :=
  ∃ job, w.notificationJobs.stored id = some job ∧ job.type = .otpRequested ∧
    job.dedupeKey = some (otpNotificationDedupeKey requestKeyHash)

/-- The job has been in the table, at the beginning or after a statement. -/
def EverJobOf (w : World ι) (s : History ι) (requestKeyHash : Digest) (id : ℕ) : Prop :=
  w.JobOf requestKeyHash id ∨ ∃ e ∈ s.log, e.after.JobOf requestKeyHash id

/-- If the statement has enqueued a code, the code is that of the row the job is linked to. -/
def EnqueuesCode (env : Env) (e : Happening ι) : Prop :=
  ∀ id job, e.before.notificationJobs.stored id = none →
    e.after.notificationJobs.stored id = some job → job.type = .otpRequested →
      ∃ k row, e.after.otpCodes.stored k = some row ∧ job.SendsCode k row.requestKeyHash ∧
        e.after.Encloses env row job.payloadJson

variable [DecidableEq ι]

/-- The jobs of a run, those it began with and those it has enqueued. -/
structure EnqueuedJobs (env : Env) (w : World ι) (s : History ι) : Prop where
  requested : Requested env s
  stays : ∀ id job, w.notificationJobs.stored id = some job →
    ∃ job', s.shared.notificationJobs.stored id = some job' ∧ job.Passes job'
  encloses : ∀ e ∈ s.log, EnqueuesCode env e

section Steps

variable {env : Env} {w t : World ι} {i : ι} {x : Choice} {op : Op} {s : History ι}
  {r : Except StatementError op.Ret}

/-- What a statement enqueues is a code with its row. -/
theorem Requested.enqueuesCode (hs : Requested env s) (hop : RequestStatement env (s.trace i) op)
    (hwf : op.WellFormed) (h : exec env.crypto i x op s.shared = some (r, t)) :
    EnqueuesCode env ⟨i, s.shared, op, r, t⟩ := by
  intro id job hnone hjob htype
  rcases hs.codes.job_from hwf h hjob with ⟨job₀, hjob₀, -⟩ | ⟨data, rfl, -, rfl, -, hotp, hlinked⟩
  · cases hnone.symm.trans hjob₀
  · exact hs.encloses_created hop h htype hotp hlinked

omit [DecidableEq ι] in
theorem NotificationJob.Passes.trans {job job' job'' : NotificationJob} (h : job.Passes job')
    (h' : job'.Passes job'') : job.Passes job'' where
  type := h'.type.trans h.type
  otpCodeId := h'.otpCodeId.trans h.otpCodeId
  dedupeKey := h'.dedupeKey.trans h.dedupeKey
  payload := h'.payload.elim (fun heq ↦ h.payload.imp heq.trans heq.trans) .inr

/-- **A statement** adds to the jobs, and takes none away. -/
theorem EnqueuedJobs.after (hs : EnqueuedJobs env w s) (hop : RequestStatement env (s.trace i) op)
    (hwf : op.WellFormed) (h : exec env.crypto i x op s.shared = some (r, t)) :
    EnqueuedJobs env w (s.after i op r t) where
  requested := hs.requested.after hop hwf h
  stays id job hjob := by
    obtain ⟨job', hjob', hpass⟩ := hs.stays id job hjob
    obtain ⟨job'', hjob'', hpass'⟩ := hs.requested.codes.job_passes hwf h hjob'
    exact ⟨job'', hjob'', hpass.trans hpass'⟩
  encloses e he := by
    rw [State.after_log, List.mem_append, List.mem_singleton] at he
    rcases he with he | rfl
    · exact hs.encloses e he
    · exact hs.requested.enqueuesCode hop hwf h

/-- Two jobs of a key that were ever in the table are one. -/
theorem EnqueuedJobs.unique (hs : EnqueuedJobs env w s) {requestKeyHash : Digest} {id id' : ℕ}
    (h : EverJobOf w s requestKeyHash id) (h' : EverJobOf w s requestKeyHash id') : id = id' := by
  have hstored : ∀ {id}, EverJobOf w s requestKeyHash id → ∃ job,
      s.shared.notificationJobs.stored id = some job ∧
        job.dedupeKey = some (otpNotificationDedupeKey requestKeyHash) := by
    rintro id (⟨job, hjob, -, hkey⟩ | ⟨e, he, job, hjob, -, hkey⟩)
    · obtain ⟨job', hjob', hpass⟩ := hs.stays id job hjob
      exact ⟨job', hjob', hpass.dedupeKey.trans hkey⟩
    · exact hs.requested.kept e he id job _ hjob hkey
  obtain ⟨job, hjob, hkey⟩ := hstored h
  obtain ⟨job', hjob', hkey'⟩ := hstored h'
  exact hs.requested.codes.once id id' job job' _ hjob hjob' hkey hkey'

end Steps

/-- **The jobs of every run.** -/
theorem enqueued_run (env : Env) {w : World ι} (hw : CodesSent env w) (calls : ι → ApiCall)
    {c : System ι} (hc : System.Reaches env .all (System.start env w calls) c) :
    EnqueuedJobs env w c.state := by
  have hstart : EnqueuedJobs env w (⟨w, []⟩ : History ι) :=
    ⟨(requested_run env hw calls .refl).1, fun id job hjob ↦ ⟨job, hjob, rfl, rfl, rfl, .inl rfl⟩,
      fun e he ↦ absurd he List.not_mem_nil⟩
  exact (Run.invariant_keeps (I := EnqueuedJobs env w) hc
    (Config.keeps_start fun i ↦ (@program_requests env (calls i)).and_all
      ((calls i).wellFormed env)) hstart (fun s i x op r t hs hop _ hx ↦ hs.after hop.1 hop.2 hx)
    fun s i hs _ ↦ ⟨hs.requested.lost i, hs.stays, hs.encloses⟩).1

/-- **Requests under one key enqueue one job.** In every run from a database in which every job of a
code is linked to its row and carries the code of it: for each idempotency key there is at most one
job that is ever in the table; a job is enqueued with the code whose hash is in the row it is linked
to; and once any call under the key has been answered, this job is there, linked to the row that has
the key, with its payload as it was enqueued, or redacted since. -/
theorem requests_enqueue_one_job (env : Env) {w : World ι} (hw : CodesSent env w)
    (calls : ι → ApiCall) {c : System ι}
    (hc : System.Reaches env .all (System.start env w calls) c) :
    (∀ requestKeyHash id id', EverJobOf w c.state requestKeyHash id →
      EverJobOf w c.state requestKeyHash id' → id = id') ∧
    (∀ e ∈ c.state.log, EnqueuesCode env e) ∧
    ∀ i phone countryIso context idempotencyKey response,
      calls i = .requestOtp phone countryIso context →
        idempotencyKeyOf context.idempotencyKey = .ok idempotencyKey →
          c.Answered i (.ok response) → ∃ normalizedPhone k id row job,
            (∃ country, normalizePhoneNumber env phone country = .ok normalizedPhone) ∧
              CodeSent env c.state normalizedPhone (env.crypto.sha256 idempotencyKey) k id row job := by
  have hs := enqueued_run env hw calls hc
  refine ⟨fun _ _ _ ↦ hs.unique, hs.encloses,
    fun i phone countryIso context idempotencyKey response hcall hkey ha ↦ ?_⟩
  obtain ⟨normalizedPhone, requestKeyHash, hrequests, k, hpromised, hphone⟩ :=
    (requested_run env hw calls hc).2 i response ha phone countryIso context hcall
  obtain ⟨_, _, _, hsame, hnormal, idempotencyKey', hkey', rfl⟩ := hrequests
  cases hcall.symm.trans hsame
  obtain rfl := Except.ok.inj (hkey.symm.trans hkey')
  obtain ⟨id, row, job, hsent⟩ := hs.requested.codeSent hpromised hphone
  exact ⟨normalizedPhone, k, id, row, job, hnormal, hsent⟩

namespace Demo

theorem idempotencyKeyOf_key : idempotencyKeyOf (key '0') = .ok (key '0') := by
  decide +kernel

end Demo

/-- The request that is repeated is answered with the job of the first. -/
theorem requests_enqueue_one_job_again : ∃ normalizedPhone k id row job,
    (∃ country, normalizePhoneNumber Demo.env "+1" country = .ok normalizedPhone) ∧
      CodeSent Demo.env Demo.sentAgain.state normalizedPhone
        (Demo.env.crypto.sha256 (Demo.key '0')) k id row job :=
  (requests_enqueue_one_job Demo.env Demo.codesSent_world Demo.sentAgainCalls
    (Demo.reaches_after _ _ _)).2.2 1 _ _ _ _ _ rfl Demo.idempotencyKeyOf_key
      (Config.answered_iff.2 Demo.sentAgain_tests)

end Stead
