import Stead.Model.Effects

/-!
# Which statements a call can issue

For each function of the services, the kinds of statements it can issue. Most of what an argument
about one table has to know of the calls that do not touch it is here.

## The kinds

`Op.reads` are the statements that change no table, and `Op.looks` those of them that do not look
for a live code either. The other kinds are named for what their calls are about: `Op.Requests` and
`Op.Orders` for `requestOtp`, `Op.Replays` for its parts that store no code, `Op.Guesses` for
`verifyOtp` outside its transaction and `Op.Issues` with it, `Op.Grants` for the calls on refresh
tokens, `Op.Opens` for the transactions that begin and end sessions, and `Op.Consumes` and
`Op.Delivers` for the consumer. Those that exclude `findLive` are there for the budget of a code:
only a call that has looked for a live code can count an attempt.

## The lemmas

There is one lemma for each function, named after it, in the order of the source; a kind is weakened
to a larger one where functions meet (`of_reads`, `of_replays`, `Op.Grants.issues`). The lemmas that
end in `_all_of` are for any predicate that holds of the kinds: a transaction is walked through
once, for all that is proved of it.

What all calls have in common is `Op.WellFormed`: jobs are enqueued waiting, and completed by an
update that erases the payload exactly when it finishes the job (`ApiCall.wellFormed`).
-/

namespace Concurrency.Prog

open Stead

variable {α β : Type} {P : Op → Prop}

@[simp] theorem tryCatch_eq {S : Interface} {ε α : Type} (p : Prog S ε α) (h : ε → Prog S ε α) :
    (tryCatch p h : Prog S ε α) = Prog.tryCatch p h := rfl

theorem All.run {op : Op} (h : P op) : (Stead.run op).All P := by
  refine ⟨h, fun r ↦ ?_⟩
  cases r <;> trivial

theorem All.run_bind {op : Op} {f : op.Ret → Call α} (h : P op) (hf : ∀ a, (f a).All P) :
    (Stead.run op >>= f).All P :=
  .bind (.run h) hf

theorem All.lift (x : Except Failure α) : (Stead.lift x).All P := by
  cases x <;> trivial

/-- A computation that issues nothing, and what follows it. -/
theorem All.lift_bind {x : Except Failure α} {f : α → Call β} (hf : ∀ a, (f a).All P) :
    (Stead.lift x >>= f).All P :=
  .bind (.lift x) hf

theorem All.map {p : Call α} (g : α → β) (h : p.All P) : (g <$> p).All P :=
  .bind h fun _ ↦ trivial

/-- A transaction issues what its body does, and its end. -/
theorem All.transaction {body : Call α} (h : body.All P) (hc : P .commit) (hr : P .rollback) :
    (Stead.transaction body).All P :=
  .bind (.tryCatch h fun _ ↦ .run_bind hr fun _ ↦ trivial) fun _ ↦ .run_bind hc fun _ ↦ trivial

end Concurrency.Prog

namespace Stead

open Concurrency Prog

/-- Statements that change no table. -/
def Op.reads : Op → Bool
  | .country _ | .user (.findByPhone _) | .host _ => true
  | .otpCode (.findByRequestKey _) | .otpCode (.findByVerificationKey _) => true
  | .otpCode (.countSince _ _) | .otpCode (.findLatestAfter _ _) | .otpCode (.findLive _ _) => true
  | .authEvent (.countSince _ _ _ _) => true
  | .refreshToken (.findByHash _) | .refreshToken (.familiesOfDevice _ _) => true
  | .refreshToken (.liveFamilies _) => true
  | .notificationJob (.findByDedupeKey _) | .notificationJob (.findLegacyOtp _ _ _) => true
  | .notificationJob (.findReady _) | .notificationJob (.findById _) => true
  | .notificationJob (.exists _) => true
  | .otpCode (.findUnconsumed _ _) | .refreshToken (.findUnrevoked _) => true
  | .notificationJob .findUnredacted => true
  | _ => false

/-- Reading statements that do not look for a live code. -/
def Op.looks : Op → Bool
  | .otpCode (.findLive _ _) => false
  | op => op.reads

/-- A job as it is enqueued: waiting, never tried, with a payload. -/
structure NewNotificationJob.Initial (data : NewNotificationJob) : Prop where
  status : data.status = .pending
  attempts : data.attempts = 0
  maxAttempts : data.maxAttempts = 3
  payload : data.payloadJson ≠ REDACTED_PAYLOAD_JSON

/-- The status an update gives that completes an attempt: sent when it records no failure, given up
on the last failure, waiting on an earlier one. -/
def NotificationJobUpdate.outcome (data : NotificationJobUpdate) : NotificationJobStatus :=
  match data.failureAttempt with
  | none => .sent
  | some f => if f.terminal then .deadLetter else .pending

/-- An update that completes an attempt: it sets the status of its outcome, erases the payload
exactly when it finishes the job, counts the attempt exactly when it failed, and gives up the
lease. -/
structure NotificationJobUpdate.Completes (data : NotificationJobUpdate) : Prop where
  status : data.status = some data.outcome
  payload : data.payloadJson = if data.outcome.terminal then some REDACTED_PAYLOAD_JSON else none
  attempts : data.attempts = data.failureAttempt.map NewFailureAttempt.attemptNumber
  lockedAt : data.lockedAt = some none

namespace NotificationJobUpdate.Completes

variable {data : NotificationJobUpdate} (h : data.Completes) {j : NotificationJob}

include h

/-- The status after a completion is its outcome. -/
theorem apply_status : (data.apply j).status = data.outcome := by
  simp [apply, h.status]

/-- The payload goes exactly when the job is finished. -/
theorem apply_payload : (data.apply j).payloadJson =
    if data.outcome.terminal then REDACTED_PAYLOAD_JSON else j.payloadJson := by
  rw [apply, h.payload]
  split <;> rfl

/-- A finished job has no payload. -/
theorem payload_of_terminal (ht : (data.apply j).status.terminal = true) :
    (data.apply j).payloadJson = REDACTED_PAYLOAD_JSON := by
  rw [h.apply_status] at ht
  rw [h.apply_payload, if_pos ht]

end NotificationJobUpdate.Completes

/-- Statements of `requestOtp` before and after it stores a code. -/
def Op.Replays : Op → Prop
  | .authEvent (.create false _) => True
  | .otpCode (.complete _ _) | .otpCode (.deleteUncompleted _ _) => True
  | .notificationJob (.create data) => data.Initial
  | .notificationJob (.adopt _ _ _ _ _) => True
  | op => op.looks

/-- Statements of `requestOtp`, which does not look for a live code. -/
def Op.Orders : Op → Prop
  | .user (.upsert _) | .otpCode (.create _) => True
  | op => op.Replays

/-- Statements of `requestOtp`. -/
def Op.Requests : Op → Prop
  | .user (.upsert _) | .authEvent (.create false _) => True
  | .otpCode (.create _) | .otpCode (.complete _ _) | .otpCode (.deleteUncompleted _ _) => True
  | .notificationJob (.create data) => data.Initial
  | .notificationJob (.adopt _ _ _ _ _) => True
  | op => op.reads

/-- Statements of `verifyOtp` outside its transaction. -/
def Op.Guesses : Op → Prop
  | .authEvent (.create false _) => True
  | .otpCode (.recordAttempt _ _ _) | .otpCode (.retireLive false _ _ _) => True
  | op => op.reads

/-- Statements on refresh tokens and those of transactions. -/
def Op.Issues : Op → Prop
  | .authEvent (.create _ _) | .refreshToken _ | .lockRefreshUser _ | .commit | .rollback => True
  | .otpCode (.retireLive _ _ _ _) | .otpCode (.consume _ _) => True
  | .otpCode (.storeVerification _ _) | .otpCode (.recordAttempt _ _ _) => True
  | op => op.reads

/-- Statements on refresh tokens and those of transactions. None looks for a live code or counts an
attempt. -/
def Op.Grants : Op → Prop
  | .authEvent (.create _ _) | .refreshToken _ | .lockRefreshUser _ | .commit | .rollback => True
  | .otpCode (.retireLive _ _ _ _) | .otpCode (.consume _ _) => True
  | .otpCode (.storeVerification _ _) => True
  | op => op.looks

/-- Statements of the transactions that begin and end sessions, but for the one that consumes a
code. -/
def Op.Opens : Op → Prop
  | .refreshToken (.revoke _ _ _) | .refreshToken (.create _) | .lockRefreshUser _ => True
  | .authEvent (.create _ _) | .otpCode (.retireLive true _ _ _) => True
  | .otpCode (.storeVerification _ _) => True
  | op => op.reads

/-- Statements of the consumer. -/
def Op.Consumes : Op → Prop
  | .notificationJob (.claim _ _) | .notificationJob (.redactTerminal _) => True
  | .notificationJob (.update _ data) => data.Completes
  | op => op.reads

/-- Statements of the consumer, which does not look for a live code. -/
def Op.Delivers : Op → Prop
  | .notificationJob (.claim _ _) | .notificationJob (.redactTerminal _) => True
  | .notificationJob (.update _ data) => data.Completes
  | op => op.looks

/-- Who does not look for a live code may still read. -/
theorem Op.reads_of_looks {op : Op} (h : op.looks = true) : op.reads = true := by
  unfold Op.looks at h
  split at h
  · cases h
  · exact h

theorem Op.Requests.of_reads {op : Op} (h : op.reads = true) : op.Requests := by
  unfold Op.Requests
  split <;> trivial

theorem Op.Guesses.of_reads {op : Op} (h : op.reads = true) : op.Guesses := by
  unfold Op.Guesses
  split <;> trivial

theorem Op.Issues.of_reads {op : Op} (h : op.reads = true) : op.Issues := by
  unfold Op.Issues
  split <;> trivial

theorem Op.Opens.of_reads {op : Op} (h : op.reads = true) : op.Opens := by
  unfold Op.Opens
  split <;> trivial

theorem Op.Consumes.of_reads {op : Op} (h : op.reads = true) : op.Consumes := by
  unfold Op.Consumes
  split <;> trivial

theorem Op.Replays.of_looks {op : Op} (h : op.looks = true) : op.Replays := by
  unfold Op.Replays
  split <;> trivial

theorem Op.Grants.of_looks {op : Op} (h : op.looks = true) : op.Grants := by
  unfold Op.Grants
  split <;> trivial

theorem Op.Delivers.of_looks {op : Op} (h : op.looks = true) : op.Delivers := by
  unfold Op.Delivers
  split <;> trivial

theorem Op.Orders.of_replays {op : Op} (h : op.Replays) : op.Orders := by
  unfold Op.Orders
  split <;> trivial

theorem Op.Requests.of_replays {op : Op} (h : op.Replays) : op.Requests := by
  unfold Op.Replays at h
  split at h
  case h_4 => exact h
  case h_6 => exact .of_reads (Op.reads_of_looks h)
  all_goals trivial

/-- A request is one whether or not it looks for a live code. -/
theorem Op.Orders.requests {op : Op} (h : op.Orders) : op.Requests := by
  unfold Op.Orders at h
  split at h
  case h_3 => exact .of_replays h
  all_goals trivial

/-- Outside its transaction a sign-in does no more than inside and outside it. -/
theorem Op.Guesses.issues {op : Op} (h : op.Guesses) : op.Issues := by
  unfold Op.Guesses at h
  split at h
  case h_4 => exact .of_reads h
  all_goals trivial

/-- What is done to refresh tokens is part of what a sign-in may do. -/
theorem Op.Grants.issues {op : Op} (h : op.Grants) : op.Issues := by
  unfold Op.Grants at h
  split at h
  case h_9 => exact .of_reads (Op.reads_of_looks h)
  all_goals trivial

/-- The consumer is one whether or not it looks for a live code. -/
theorem Op.Delivers.consumes {op : Op} (h : op.Delivers) : op.Consumes := by
  unfold Op.Delivers at h
  split at h
  case h_3 => exact h
  case h_4 => exact .of_reads (Op.reads_of_looks h)
  all_goals trivial

/-! ### The notification queue -/

section Queue

variable (env : Env)

/-- Encryption draws an initialisation vector, and that is all. -/
theorem encryptPayload_all (payload : PayloadRecord) :
    (encryptPayload env payload).All (Op.looks · = true) :=
  .run_bind rfl fun _ ↦ .lift_bind fun _ ↦ trivial

/-- An encrypted payload is never the redacted one. -/
theorem encryptPayload_gives (payload : PayloadRecord) :
    (encryptPayload env payload).Gives (· ≠ REDACTED_PAYLOAD_JSON) := by
  intro r
  cases r with
  | error e => trivial
  | ok iv =>
    show Gives _ (lift (encryptionKey env) >>= _)
    cases encryptionKey env with
    | error e => trivial
    | ok secret => simp [lift, Gives, REDACTED_PAYLOAD_JSON]

/-- Whether a request is enqueued is only looked up. -/
theorem isOtpRequestEnqueued_all (dedupeKey : DedupeKey) (otpCodeId : ℕ) :
    (isOtpRequestEnqueued dedupeKey otpCodeId).All (Op.looks · = true) :=
  .run_bind rfl fun existing ↦ by cases existing <;> trivial

/-- Adoption links a job that is there. -/
theorem adoptLegacyOtpRequest_all (userId otpCodeId : ℕ) (dedupeKey : DedupeKey)
    (requestedAt expiresAt : ℤ) :
    (adoptLegacyOtpRequest userId otpCodeId dedupeKey requestedAt expiresAt).All Op.Replays := by
  have henqueued : (isOtpRequestEnqueued dedupeKey otpCodeId).All Op.Replays :=
    (isOtpRequestEnqueued_all dedupeKey otpCodeId).mono fun _ ↦ .of_looks
  refine .run_bind rfl fun legacyJob ↦ ?_
  cases legacyJob with
  | none => trivial
  | some legacyJob =>
    refine .run_bind rfl fun correlationId ↦ .bind (.tryCatch (.run trivial) fun e ↦ ?_) fun b ↦ ?_
    · exact .ite (fun _ ↦ trivial) fun _ ↦ trivial
    · exact .ite (fun _ ↦ trivial) fun _ ↦ henqueued

/-- A job is enqueued with its payload, never tried. -/
theorem enqueueOtpRequested_all (payload : PayloadRecord) (userId otpCodeId : ℕ)
    (dedupeKey : DedupeKey) :
    (enqueueOtpRequested env payload userId otpCodeId dedupeKey).All Op.Replays := by
  refine .bind_gives ((encryptPayload_all env payload).mono fun _ ↦ .of_looks)
    (encryptPayload_gives env payload) fun payloadJson hpayload ↦ ?_
  refine .run_bind rfl fun correlationId ↦ .run_bind rfl fun nextRunAt ↦
    .tryCatch (.run ⟨rfl, rfl, rfl, hpayload⟩) fun e ↦ .ite (fun _ ↦ ?_) fun _ ↦ trivial
  refine .run_bind rfl fun existing ↦ ?_
  cases existing with
  | none => trivial
  | some existing => exact .ite (fun _ ↦ trivial) fun _ ↦ trivial

theorem enqueueReadinessAlert_all (input : ReadinessAlertInput) :
    (enqueueReadinessAlert env input).All Op.Replays := by
  refine .bind_gives ((encryptPayload_all env input.payload).mono fun _ ↦ .of_looks)
    (encryptPayload_gives env input.payload) fun payloadJson hpayload ↦ ?_
  refine .run_bind rfl fun correlationId ↦ .run_bind rfl fun nextRunAt ↦
    .tryCatch (.run_bind ⟨rfl, rfl, rfl, hpayload⟩ fun _ ↦ trivial) fun e ↦ ?_
  exact .ite (fun _ ↦ trivial) fun _ ↦ trivial

/-- A success is recorded by a completion. -/
theorem succeededUpdate_completes (sentAt : ℤ) (provider : String)
    (providerMessageId : Option String) :
    (succeededUpdate sentAt provider providerMessageId).Completes :=
  ⟨rfl, rfl, rfl, rfl⟩

/-- A failure is recorded by a completion, the last one and the others. -/
theorem failedUpdate_completes (job : NotificationJob) (attempts : ℕ)
    (nextRunAt failedAt : ℤ) (lastError : String) :
    (failedUpdate job attempts nextRunAt failedAt lastError).Completes := by
  refine ⟨?_, ?_, rfl, rfl⟩
  all_goals
    by_cases h : job.maxAttempts ≤ attempts <;>
      simp [failedUpdate, NotificationJobUpdate.outcome, h, NotificationJobStatus.terminal]

/-- The write of a completion, the error of a job that is gone included. -/
theorem updateJob_all {id : ℕ} {data : NotificationJobUpdate} (h : data.Completes) :
    (updateJob id data).All Op.Delivers :=
  .tryCatch (.run h) fun _ ↦ .ite (fun _ ↦ trivial) fun _ ↦ trivial

theorem markSucceeded_all (job : ClaimedJob) (provider : String)
    (providerMessageId : Option String) :
    (markSucceeded job provider providerMessageId).All Op.Delivers :=
  .run_bind rfl fun _ ↦ updateJob_all (succeededUpdate_completes _ _ _)

theorem markFailed_all (job : ClaimedJob) (error : Failure) :
    (markFailed env job error).All Op.Delivers := by
  refine .run_bind rfl fun now ↦ .bind ?_ fun nextRunAt ↦
    updateJob_all (failedUpdate_completes _ _ _ _ _)
  exact .ite (fun _ ↦ trivial) fun _ ↦ .run_bind rfl fun _ ↦ trivial

/-- A claim writes the job, and completes it when its payload cannot be read. -/
theorem claimReadyJob_all : (claimReadyJob env).All Op.Delivers := by
  refine .run_bind rfl fun now ↦ .run_bind rfl fun candidate ↦ ?_
  cases candidate with
  | none => trivial
  | some candidate =>
    refine .run_bind trivial fun claimed ↦ .ite (fun _ ↦ ?_) fun _ ↦ trivial
    refine .run_bind rfl fun locked ↦ ?_
    split
    · trivial
    · exact .bind (markFailed_all env _ _) fun _ ↦ trivial

theorem processJob_all (job : ClaimedJob) : (processJob job).All (Op.looks · = true) := by
  unfold processJob
  split <;> exact .ite (fun _ ↦ trivial) fun _ ↦ .run rfl

/-- A claimed job is delivered and completed. -/
theorem processClaimedJob_all (job : ClaimedJob) :
    (processClaimedJob env job).All Op.Delivers := by
  refine .tryCatch (.bind ?_ fun deliverable ↦ .ite (fun _ ↦ ?_) fun _ ↦ trivial) fun e ↦
    markFailed_all env job e
  · exact .run_bind rfl fun _ ↦ .ite (fun _ ↦ trivial) fun _ ↦ .run rfl
  · exact .bind ((processJob_all job).mono fun _ ↦ .of_looks) fun _ ↦ markSucceeded_all _ _ _

/-- One poll of a consumer. -/
theorem tick_all : (tick env).All Op.Delivers := by
  refine .tryCatch (.bind (claimReadyJob_all env) fun job ↦ ?_) fun _ ↦ trivial
  cases job with
  | none => trivial
  | some job => exact processClaimedJob_all env job

theorem redactTerminalPayloads_all : redactTerminalPayloads.All Op.Delivers :=
  .run_bind rfl fun _ ↦ .run_bind trivial fun _ ↦ trivial

end Queue

/-! ### Requesting an OTP -/

-- Unification would evaluate the pattern on a key it does not know.
attribute [local irreducible] isUuidV4

section Request

variable (env : Env)

/-- A check is made when there is something to check. -/
theorem present_all {α : Type} {P : Op → Prop} (key : Option α) (check : α → Call Unit)
    (h : ∀ k, (check k).All P) : (present key check).All P := by
  cases key with
  | none => trivial
  | some k => exact h k

theorem requireAuthCountry_all (countryIso : String) :
    (requireAuthCountry env countryIso).All (Op.looks · = true) :=
  .run_bind rfl fun country ↦ by cases country <;> trivial

/-- A request is marked completed in its own row. -/
theorem completeOtpRequest_all (existing : Keyed OtpCode) :
    (completeOtpRequest env existing).All Op.Replays :=
  .run_bind rfl fun _ ↦ .run_bind trivial fun _ ↦ trivial

/-- A request that never got its job is deleted, as long as it is not completed. -/
theorem removeStaleOtpRequest_all (requestKeyHash : Digest) (existing : Keyed OtpCode)
    (processingDeadline : ℤ) :
    (removeStaleOtpRequest env requestKeyHash existing processingDeadline).All Op.Replays := by
  refine .tryCatch (.run_bind trivial fun _ ↦ .ite (fun _ ↦ trivial) fun _ ↦ trivial) fun e ↦
    .ite (fun _ ↦ ?_) fun _ ↦ trivial
  refine .bind ((isOtpRequestEnqueued_all _ _).mono fun _ ↦ .of_looks) fun enqueued ↦
    .ite (fun _ ↦ ?_) fun _ ↦ trivial
  exact .bind (completeOtpRequest_all env existing) fun _ ↦ trivial

/-- A row without a job may get one from before jobs were linked. -/
theorem isEnqueuedOrAdopted_all (existing : Keyed OtpCode) (dedupeKey : DedupeKey) :
    (isEnqueuedOrAdopted existing dedupeKey).All Op.Replays :=
  .bind ((isOtpRequestEnqueued_all _ _).mono fun _ ↦ .of_looks) fun _ ↦
    .ite (fun _ ↦ trivial) fun _ ↦ adoptLegacyOtpRequest_all _ _ _ _ _

/-- **A repeated request** stores no code. -/
theorem replayOtpRequest_all (requestKeyHash : Digest) (normalizedPhone : String) :
    (replayOtpRequest env requestKeyHash normalizedPhone).All Op.Replays := by
  refine .run_bind rfl fun existing ↦ ?_
  match existing with
  | none => trivial
  | some (existing, phone) =>
    refine .ite (fun _ ↦ trivial) fun _ ↦ .ite (fun _ ↦ trivial) fun _ ↦
      .bind (isEnqueuedOrAdopted_all existing _) fun enqueued ↦ .ite (fun _ ↦ ?_) fun _ ↦ ?_
    · exact .bind (completeOtpRequest_all env existing) fun _ ↦ trivial
    · exact .run_bind rfl fun now ↦
        .ite (fun _ ↦ removeStaleOtpRequest_all env _ _ _) fun _ ↦ trivial

theorem recordEvent_all (data : NewAuthEvent) : (recordEvent data).All Op.Replays :=
  .run trivial

/-- A limit that is reached leaves an event. -/
theorem checkRequestLimit_all (limit : ℕ) (oneHourAgo : ℤ) (ip : Option String)
    (deviceHash : Option Digest) (limited : NewAuthEvent) (message : String) :
    (checkRequestLimit limit oneHourAgo ip deviceHash limited message).All Op.Replays :=
  .run_bind rfl fun _ ↦
    .ite (fun _ ↦ .bind (recordEvent_all limited) fun _ ↦ trivial) fun _ ↦ trivial

/-- The code is handed over through the queue, and the row is completed. -/
theorem publishOtpCode_all (normalizedPhone : String) (ip : Option String)
    (deviceHash : Option Digest) (requestKeyHash : Digest) (userId otpCodeId : ℕ) (otp : String)
    (developmentOtp : Option String) :
    (publishOtpCode env normalizedPhone ip deviceHash requestKeyHash userId otpCodeId otp
      developmentOtp).All Op.Replays := by
  refine .bind (.tryCatch (recordEvent_all _) fun e ↦ ?_) fun _ ↦
    .bind (enqueueOtpRequested_all env _ _ _ _) fun _ ↦ .run_bind rfl fun _ ↦
      .run_bind trivial fun _ ↦ trivial
  exact .bind (.tryCatch (.run_bind trivial fun _ ↦ trivial) fun _ ↦ trivial) fun _ ↦ trivial

/-- A new code comes with its user. -/
theorem createOtpCode_all (normalizedPhone : String) (ip : Option String)
    (deviceHash : Option Digest) (requestKeyHash : Digest) (userId : ℕ) :
    (createOtpCode env normalizedPhone ip deviceHash requestKeyHash userId).All Op.Orders := by
  refine .run_bind rfl fun otp ↦ .run_bind rfl fun codeHash ↦ .run_bind rfl fun now ↦
    .bind (.tryCatch (.run_bind trivial fun _ ↦ trivial) fun e ↦
      .ite (fun _ ↦ .bind ((replayOtpRequest_all env _ _).mono fun _ ↦ .of_replays) fun replay ↦ ?_) fun _ ↦ trivial)
      fun created ↦ ?_
  · cases replay <;> trivial
  · cases created with
    | inl otpCodeId => exact (publishOtpCode_all env _ _ _ _ _ _ _ _).mono fun _ ↦ .of_replays
    | inr replay => trivial

/-- A request that is not a repetition: limits, code, job. -/
theorem issueOtpCode_all (normalizedPhone : String) (ip : Option String)
    (deviceHash : Option Digest) (requestKeyHash : Digest) (oneHourAgo : ℤ) :
    (issueOtpCode env normalizedPhone ip deviceHash requestKeyHash oneHourAgo).All
      Op.Orders := by
  refine .run_bind rfl fun recent ↦
    .ite (fun _ ↦ .bind ((recordEvent_all _).mono fun _ ↦ .of_replays) fun _ ↦ trivial) fun _ ↦ ?_
  refine .run_bind trivial fun user ↦ .run_bind rfl fun now ↦ .run_bind rfl fun latestOtp ↦ ?_
  cases latestOtp with
  | none => exact createOtpCode_all env _ _ _ _ _
  | some latestOtp =>
    refine .ite (fun _ ↦ .ite (fun _ ↦ trivial) fun _ ↦ trivial) fun _ ↦ ?_
    exact .bind ((recordEvent_all _).mono fun _ ↦ .of_replays) fun _ ↦ trivial

/-- **All of** `requestOtp`. -/
theorem requestOtp_all (phone countryIso : String) (context : OtpRequestContext) :
    (requestOtp env phone countryIso context).All Op.Orders := by
  refine .bind ((requireAuthCountry_all env countryIso).mono fun _ h ↦ .of_replays (.of_looks h))
    fun country ↦ ?_
  refine .lift_bind fun normalizedPhone ↦ .lift_bind fun idempotencyKey ↦ ?_
  refine .bind ((replayOtpRequest_all env _ _).mono fun _ ↦ .of_replays) fun replay ↦ ?_
  cases replay with
  | some replay => trivial
  | none =>
    refine .lift_bind fun deviceHash ↦ .run_bind rfl fun now ↦ ?_
    refine .bind (present_all _ _ fun _ ↦
      (checkRequestLimit_all _ _ _ _ _ _).mono fun _ ↦ .of_replays) fun _ ↦ ?_
    refine .bind (present_all _ _ fun _ ↦
      (checkRequestLimit_all _ _ _ _ _ _).mono fun _ ↦ .of_replays) fun _ ↦ ?_
    exact issueOtpCode_all env _ _ _ _ _

end Request

/-! ### Sessions -/

section Sessions

variable (env : Env)

/-- What was answered before is read and opened. -/
theorem replayFrom_all (v : VerificationRequest) (existing : Keyed OtpCode) (phone : String) :
    (replayFrom env v existing phone).All (Op.looks · = true) := by
  refine .ite (fun _ ↦ trivial) fun _ ↦ .ite (fun _ ↦ trivial) fun _ ↦ .run_bind rfl fun ok ↦
    .ite (fun _ ↦ ?_) fun _ ↦ trivial
  split
  · exact .run_bind rfl fun now ↦ .ite (fun _ ↦ trivial) fun _ ↦ .lift _
  · trivial

/-- **A repeated sign-in** is answered from what is stored. -/
theorem replayOtpVerification_all (v : VerificationRequest) :
    (replayOtpVerification env v).All (Op.looks · = true) := by
  refine .run_bind rfl fun existing ↦ ?_
  match existing with
  | none => trivial
  | some (existing, phone) => exact .bind (replayFrom_all env v existing phone) fun _ ↦ trivial

/-- A limit that is reached retires the codes of the user. -/
theorem checkVerifyFailureLimit_all (limit : ℕ) (ip : Option String) (deviceHash : Option Digest)
    (locked : NewAuthEvent) (message : String) :
    (checkVerifyFailureLimit env limit ip deviceHash locked message).All Op.Guesses :=
  .run_bind rfl fun _ ↦ .run_bind rfl fun _ ↦
    .ite (fun _ ↦ .run_bind trivial fun _ ↦ trivial) fun _ ↦ trivial

theorem checkVerifyFailureLimit_grants (limit : ℕ) (ip : Option String)
    (deviceHash : Option Digest) (locked : NewAuthEvent) (message : String) :
    (checkVerifyFailureLimit env limit ip deviceHash locked message).All Op.Grants :=
  .run_bind rfl fun _ ↦ .run_bind rfl fun _ ↦
    .ite (fun _ ↦ .run_bind trivial fun _ ↦ trivial) fun _ ↦ trivial

/-- Outside a transaction codes are retired for good at once. -/
theorem retireLiveOtps_guesses (userId : ℕ) (consumedAt : ℤ) :
    (retireLiveOtps false userId consumedAt).All Op.Guesses :=
  .run_bind rfl fun _ ↦ .run trivial

theorem retireLiveOtps_all (tx : Bool) (userId : ℕ) (consumedAt : ℤ) :
    (retireLiveOtps tx userId consumedAt).All Op.Grants :=
  .run_bind rfl fun _ ↦ .run trivial

theorem revokeUnrevoked_all (scope : RevokeWhere) (revokedAt : ℤ) :
    (revokeUnrevoked scope revokedAt).All Op.Grants :=
  .run_bind trivial fun _ ↦ .run trivial

theorem recordWrongCode_all (user : Keyed User) (record : Keyed OtpCode)
    (normalizedPhone : String) (ip : Option String) (deviceHash : Option Digest) :
    (recordWrongCode env user record normalizedPhone ip deviceHash).All Op.Guesses := by
  refine .ite (fun _ ↦ ?_) fun _ ↦ ?_
  · exact .run_bind rfl fun _ ↦ .run_bind trivial fun _ ↦
      .bind (retireLiveOtps_guesses _ _) fun _ ↦ .run_bind trivial fun _ ↦ trivial
  · exact .run_bind trivial fun _ ↦ .run_bind trivial fun _ ↦ trivial

theorem signAccessToken_all (userId : ℕ) (phone : String) :
    (signAccessToken env userId phone).All (Op.looks · = true) :=
  .lift_bind fun _ ↦ .run rfl

theorem createRefreshTokenRow_all (userId familyId : ℕ) (deviceHash : Option Digest)
    (familyCreatedAt : ℤ) (rawToken : ℕ) :
    (createRefreshTokenRow env userId familyId deviceHash familyCreatedAt rawToken).All
      Op.Grants :=
  .run_bind rfl fun _ ↦ .lift_bind fun _ ↦ .run trivial

/-- One family is revoked. -/
theorem revokeFamilyOf_all (userId familyId : ℕ) :
    (revokeFamilyOf userId familyId).All Op.Grants :=
  .run_bind rfl fun _ ↦ .bind (revokeUnrevoked_all _ _) fun _ ↦ trivial

/-- Families are revoked to make room for one more. -/
theorem prepareRefreshFamilySlot_all (userId : ℕ) (deviceHash : Option Digest) :
    (prepareRefreshFamilySlot env userId deviceHash).All Op.Grants := by
  refine .bind (present_all _ _ fun deviceHash ↦ .run_bind trivial fun families ↦
    .forEach fun family _ ↦ revokeFamilyOf_all userId family) fun _ ↦ ?_
  exact .run_bind trivial fun families ↦ .forEach fun family _ ↦ revokeFamilyOf_all userId family.1

theorem encryptOtpVerificationResponse_all (v : VerificationRequest)
    (response : VerifyOtpResponse) :
    (encryptOtpVerificationResponse env v response).All (Op.looks · = true) :=
  .run_bind rfl fun _ ↦ trivial

/-- The transaction of a sign-in, from the code to the stored response. -/
theorem verifiedSessionBody_all (input : VerifiedSession) (familyId : ℕ)
    (familyCreatedAt : ℤ) (rawRefreshToken : ℕ) (consumedAt : ℤ) :
    (verifiedSessionBody env input familyId familyCreatedAt rawRefreshToken consumedAt).All
      Op.Grants := by
  refine .run_bind trivial fun consumed ↦ .ite (fun _ ↦ ?_) fun _ ↦ trivial
  refine .bind (retireLiveOtps_all _ _ _) fun _ ↦ .run_bind trivial fun _ ↦
    .run_bind trivial fun _ ↦ .bind (prepareRefreshFamilySlot_all env _ _) fun _ ↦
      .bind (createRefreshTokenRow_all env _ _ _ _ _) fun _ ↦
        .bind ((signAccessToken_all env _ _).mono fun _ ↦ .of_looks) fun token ↦
          .lift_bind fun expiresIn ↦
            .bind ((encryptOtpVerificationResponse_all env _ _).mono fun _ ↦ .of_looks) fun _ ↦
              .run_bind trivial fun _ ↦ trivial

/-- The transaction, and the answer of another sign-in when it lost its code to that. -/
theorem issueVerifiedSession_all (input : VerifiedSession) :
    (issueVerifiedSession env input).All Op.Grants := by
  refine .run_bind rfl fun familyId ↦ .run_bind rfl fun familyCreatedAt ↦ .run_bind rfl fun raw ↦
    .run_bind rfl fun consumedAt ↦
      .tryCatch (.transaction (verifiedSessionBody_all env _ _ _ _ _) trivial trivial) fun e ↦
        .bind ((replayOtpVerification_all env _).mono fun _ ↦ .of_looks) fun replay ↦ ?_
  cases replay <;> trivial

/-- A code is compared, and used or counted. -/
theorem verifyLiveOtp_all (v : VerificationRequest) (ip : Option String)
    (deviceHash : Option Digest) : (verifyLiveOtp env v ip deviceHash).All Op.Issues := by
  refine .run_bind rfl fun user ↦ ?_
  cases user with
  | none => trivial
  | some user =>
    refine .run_bind rfl fun now ↦ .run_bind rfl fun record ↦ ?_
    cases record with
    | none =>
      refine .bind ((replayOtpVerification_all env v).mono fun _ h ↦ .of_reads (Op.reads_of_looks h)) fun replay ↦ ?_
      cases replay <;> trivial
    | some record =>
      refine .ite (fun _ ↦ .run_bind trivial fun _ ↦ trivial) fun _ ↦ .run_bind rfl fun ok ↦
        .ite (fun _ ↦ (issueVerifiedSession_all env _).mono fun _ ↦ Op.Grants.issues) fun _ ↦ ?_
      exact (recordWrongCode_all env _ _ _ _ _).mono fun _ ↦ Op.Guesses.issues

/-- **All of** `verifyOtp`. -/
theorem verifyOtp_all (phone countryIso otp : String) (context : OtpVerificationContext) :
    (verifyOtp env phone countryIso otp context).All Op.Issues := by
  have hkey : (verificationKey env context).All Op.Issues := by
    unfold verificationKey
    split
    · trivial
    · exact .run_bind rfl fun _ ↦ trivial
  refine .bind ((requireAuthCountry_all env countryIso).mono fun _ h ↦ .of_reads (Op.reads_of_looks h)) fun country ↦ ?_
  refine .lift_bind fun normalizedPhone ↦ .lift_bind fun deviceHash ↦ .bind hkey fun key ↦ ?_
  refine .lift_bind fun idempotencyKey ↦ .lift_bind fun secret ↦ ?_
  refine .bind ((replayOtpVerification_all env _).mono fun _ h ↦ .of_reads (Op.reads_of_looks h)) fun replay ↦ ?_
  cases replay with
  | some replay => trivial
  | none =>
    have hlimit : ∀ limit ip deviceHash locked message,
        (checkVerifyFailureLimit env limit ip deviceHash locked message).All Op.Issues :=
      fun _ _ _ _ _ ↦ (checkVerifyFailureLimit_all env _ _ _ _ _).mono fun _ ↦ Op.Guesses.issues
    refine .bind (present_all _ _ fun _ ↦ hlimit _ _ _ _ _) fun _ ↦ ?_
    refine .bind (present_all _ _ fun _ ↦ hlimit _ _ _ _ _) fun _ ↦ ?_
    exact verifyLiveOtp_all env _ _ _

/-- A revocation runs under the lock of its user. -/
theorem revokeRefreshTokens_all (userId : ℕ) (scope : RevokeWhere) :
    (revokeRefreshTokens userId scope).All Op.Grants :=
  .transaction (.run_bind trivial fun _ ↦ .run_bind rfl fun _ ↦ revokeUnrevoked_all _ _)
    trivial trivial

/-- The transaction of a rotation. -/
theorem rotateBody_all (existing : Keyed RefreshToken) (phone : String) (familyMaxAgeMs : ℕ)
    (deviceHash : Option Digest) :
    (rotateBody env existing phone familyMaxAgeMs deviceHash).All Op.Grants := by
  refine .run_bind trivial fun _ ↦ .run_bind rfl fun now ↦ .run_bind trivial fun claimed ↦
    .ite (fun _ ↦ ?_) fun _ ↦ trivial
  exact .run_bind rfl fun raw ↦ .bind (createRefreshTokenRow_all env _ _ _ _ _) fun created ↦
    .run_bind trivial fun _ ↦ .bind ((signAccessToken_all env _ _).mono fun _ ↦ .of_looks) fun _ ↦
      .lift_bind fun _ ↦ trivial

/-- The transaction, and the revocation of a family whose token was used twice. -/
theorem rotate_all (tokenHash : Digest) (existing : Keyed RefreshToken) (phone : String)
    (familyMaxAgeMs : ℕ) (deviceHash : Option Digest) :
    (rotate env tokenHash existing phone familyMaxAgeMs deviceHash).All Op.Grants := by
  refine .bind (.transaction (rotateBody_all env _ _ _ _) trivial trivial) fun session ↦ ?_
  cases session with
  | some session => trivial
  | none =>
    refine .run_bind trivial fun current ↦ ?_
    match current with
    | none => trivial
    | some (current, _) =>
      refine .ite (fun _ ↦ ?_) fun _ ↦ trivial
      exact .bind (revokeRefreshTokens_all _ _) fun _ ↦ trivial

/-- **All of** `refreshSession`. -/
theorem refreshSession_all (refreshToken : ℕ) (context : AuthRequestContext) :
    (refreshSession env refreshToken context).All Op.Grants := by
  refine .run_bind trivial fun existing ↦ ?_
  match existing with
  | none => trivial
  | some (existing, phone) =>
    have hrevoke : ∀ f u : ℕ, (do
        let _ ← revokeRefreshFamily f u
        MonadExcept.throw INVALID_REFRESH_TOKEN : Call VerifyOtpResponse).All Op.Grants :=
      fun _ _ ↦ .bind (revokeRefreshTokens_all _ _) fun _ ↦ trivial
    refine .ite (fun _ ↦ hrevoke _ _) fun _ ↦ .run_bind rfl fun now ↦ .ite (fun _ ↦ ?_) fun _ ↦ ?_
    · exact .run_bind rfl fun _ ↦ .run_bind trivial fun _ ↦ trivial
    · refine .lift_bind fun familyMaxAgeMs ↦ .run_bind rfl fun now ↦
        .ite (fun _ ↦ hrevoke _ _) fun _ ↦ .lift_bind fun deviceHash ↦
          .ite (fun _ ↦ rotate_all env _ _ _ _ _) fun _ ↦ trivial

theorem verifiedSubject_all (accessToken : ℕ) :
    (verifiedSubject accessToken).All (Op.looks · = true) :=
  .tryCatch (.run rfl) fun _ ↦ trivial

theorem userOfRefreshToken_all (refreshToken : Option ℕ) :
    (userOfRefreshToken env refreshToken).All (Op.looks · = true) := by
  cases refreshToken with
  | none => trivial
  | some token => exact .run_bind rfl fun _ ↦ trivial

/-- Whose sessions a logout is about is only looked up. -/
theorem resolveUserIdForLogout_all (input : RevokeSessionInput) :
    (resolveUserIdForLogout env input).All (Op.looks · = true) := by
  unfold resolveUserIdForLogout
  split
  · refine .ite (fun _ ↦ trivial) fun _ ↦ .bind (verifiedSubject_all _) fun subject ↦ ?_
    cases subject with
    | none => exact userOfRefreshToken_all env _
    | some userId => trivial
  · exact userOfRefreshToken_all env _

/-- **All of** `revokeSession`. -/
theorem revokeSession_all (input : RevokeSessionInput) :
    (revokeSession env input).All Op.Grants := by
  refine .ite (fun _ ↦ ?_) fun _ ↦ ?_
  · refine .bind ((resolveUserIdForLogout_all env input).mono fun _ ↦ .of_looks) fun userId ↦ ?_
    cases userId with
    | none => trivial
    | some userId => exact .bind (revokeRefreshTokens_all _ _) fun _ ↦ trivial
  · split
    · refine .run_bind trivial fun existing ↦ ?_
      match existing with
      | none => trivial
      | some (existing, _) => exact .bind (revokeRefreshTokens_all _ _) fun _ ↦ trivial
    · refine .ite (fun _ ↦ ?_) fun _ ↦ trivial
      exact .bind ((verifiedSubject_all _).mono fun _ ↦ .of_looks) fun _ ↦ trivial
    · trivial

/-! #### Without rotation -/

/-- The revocation of a family claims no token. -/
theorem revokeFamilyOf_opens (userId familyId : ℕ) :
    (revokeFamilyOf userId familyId).All Op.Opens :=
  .run_bind (.of_reads rfl) fun _ ↦
    .bind (.run_bind (.of_reads rfl) fun _ ↦ .run trivial) fun _ ↦ trivial

theorem prepareRefreshFamilySlot_opens (userId : ℕ) (deviceHash : Option Digest) :
    (prepareRefreshFamilySlot env userId deviceHash).All Op.Opens := by
  refine .bind (present_all _ _ fun deviceHash ↦ .run_bind (.of_reads rfl) fun families ↦
    .forEach fun family _ ↦ revokeFamilyOf_opens userId family) fun _ ↦ ?_
  exact .run_bind (.of_reads rfl) fun families ↦
    .forEach fun family _ ↦ revokeFamilyOf_opens userId family.1

theorem createRefreshTokenRow_opens (userId familyId : ℕ) (deviceHash : Option Digest)
    (familyCreatedAt : ℤ) (rawToken : ℕ) :
    (createRefreshTokenRow env userId familyId deviceHash familyCreatedAt rawToken).All
      Op.Opens :=
  .run_bind (.of_reads rfl) fun _ ↦ .lift_bind fun _ ↦ .run trivial

section Opens

variable {P : Op → Prop} (hopens : ∀ op : Op, op.Opens → P op)

include hopens

/-- The transaction of a sign-in, for anything that holds of what it issues besides the consumption
of its code. -/
theorem verifiedSessionBody_all_of {input : VerifiedSession} {familyId : ℕ} {familyCreatedAt : ℤ}
    {rawRefreshToken : ℕ} {consumedAt : ℤ} (hconsume : P (.otpCode (.consume input.record.id consumedAt))) :
    (verifiedSessionBody env input familyId familyCreatedAt rawRefreshToken consumedAt).All P := by
  have hlooks : ∀ op : Op, op.looks = true → P op := fun op h ↦
    hopens op (.of_reads (Op.reads_of_looks h))
  refine .run_bind hconsume fun consumed ↦ .ite (fun _ ↦ ?_) fun _ ↦ trivial
  refine .bind (.run_bind (hopens _ (.of_reads rfl)) fun _ ↦ .run (hopens _ trivial)) fun _ ↦
    .run_bind (hopens _ trivial) fun _ ↦ .run_bind (hopens _ trivial) fun _ ↦ ?_
  refine .bind ((prepareRefreshFamilySlot_opens env _ _).mono hopens) fun _ ↦
    .bind ((createRefreshTokenRow_opens env _ _ _ _ _).mono hopens) fun _ ↦
      .bind ((signAccessToken_all env _ _).mono hlooks) fun token ↦ .lift_bind fun expiresIn ↦ ?_
  exact .bind ((encryptOtpVerificationResponse_all env _ _).mono hlooks) fun _ ↦
    .run_bind (hopens _ trivial) fun _ ↦ trivial

variable (hcommit : P .commit) (hrollback : P .rollback)

include hcommit hrollback

/-- A revocation, for anything that holds of the statements of transactions. -/
theorem revokeRefreshTokens_all_of (userId : ℕ) (scope : RevokeWhere) :
    (revokeRefreshTokens userId scope).All P :=
  .transaction (.run_bind (hopens _ trivial) fun _ ↦ .run_bind (hopens _ (.of_reads rfl)) fun _ ↦
    .run_bind (hopens _ (.of_reads rfl)) fun _ ↦ .run (hopens _ trivial)) hcommit hrollback

/-- **A logout** issues no more than that. -/
theorem revokeSession_all_of (input : RevokeSessionInput) : (revokeSession env input).All P := by
  have hlooks : ∀ op : Op, op.looks = true → P op := fun op h ↦
    hopens op (.of_reads (Op.reads_of_looks h))
  have hrevoke := revokeRefreshTokens_all_of hopens hcommit hrollback
  refine .ite (fun _ ↦ ?_) fun _ ↦ ?_
  · refine .bind ((resolveUserIdForLogout_all env input).mono hlooks) fun userId ↦ ?_
    cases userId with
    | none => trivial
    | some userId => exact .bind (hrevoke _ _) fun _ ↦ trivial
  · split
    · refine .run_bind (hopens _ (.of_reads rfl)) fun existing ↦ ?_
      match existing with
      | none => trivial
      | some (existing, _) => exact .bind (hrevoke _ _) fun _ ↦ trivial
    · refine .ite (fun _ ↦ ?_) fun _ ↦ trivial
      exact .bind ((verifiedSubject_all _).mono hlooks) fun _ ↦ trivial
    · trivial

variable (hguesses : ∀ op : Op, op.Guesses → P op)
  (hconsume : ∀ id at_, P (.otpCode (.consume id at_)))

include hguesses hconsume

/-- **A sign-in** issues that, and what it does outside its transaction. -/
theorem verifyOtp_all_of (phone countryIso otp : String) (context : OtpVerificationContext) :
    (verifyOtp env phone countryIso otp context).All P := by
  have hlooks : ∀ op : Op, op.looks = true → P op := fun op h ↦
    hopens op (.of_reads (Op.reads_of_looks h))
  have hreads : ∀ op : Op, op.reads = true → P op := fun op h ↦ hopens op (.of_reads h)
  have hreplay : ∀ v, (replayOtpVerification env v).All P := fun v ↦
    (replayOtpVerification_all env v).mono hlooks
  have hissue : ∀ input, (issueVerifiedSession env input).All P := by
    refine fun input ↦ .run_bind (hreads _ rfl) fun _ ↦ .run_bind (hreads _ rfl) fun _ ↦
      .run_bind (hreads _ rfl) fun _ ↦ .run_bind (hreads _ rfl) fun _ ↦
        .tryCatch (.transaction (verifiedSessionBody_all_of env hopens (hconsume _ _)) hcommit
          hrollback) fun e ↦ .bind (hreplay _) fun replay ↦ ?_
    cases replay <;> trivial
  have hlive : ∀ v ip deviceHash, (verifyLiveOtp env v ip deviceHash).All P := by
    refine fun v ip deviceHash ↦ .run_bind (hreads _ rfl) fun user ↦ ?_
    cases user with
    | none => trivial
    | some user =>
      refine .run_bind (hreads _ rfl) fun now ↦ .run_bind (hreads _ rfl) fun record ↦ ?_
      cases record with
      | none =>
        refine .bind (hreplay _) fun replay ↦ ?_
        cases replay <;> trivial
      | some record =>
        refine .ite (fun _ ↦ .run_bind (hguesses _ trivial) fun _ ↦ trivial) fun _ ↦
          .run_bind (hreads _ rfl) fun ok ↦ .ite (fun _ ↦ hissue _) fun _ ↦ ?_
        exact (recordWrongCode_all env _ _ _ _ _).mono hguesses
  have hkey : (verificationKey env context).All P := by
    unfold verificationKey
    split
    · trivial
    · exact .run_bind (hreads _ rfl) fun _ ↦ trivial
  have hlimit : ∀ limit ip deviceHash locked message,
      (checkVerifyFailureLimit env limit ip deviceHash locked message).All P :=
    fun _ _ _ _ _ ↦ (checkVerifyFailureLimit_all env _ _ _ _ _).mono hguesses
  refine .bind ((requireAuthCountry_all env countryIso).mono hlooks) fun country ↦
    .lift_bind fun normalizedPhone ↦ .lift_bind fun deviceHash ↦ .bind hkey fun key ↦
      .lift_bind fun idempotencyKey ↦ .lift_bind fun secret ↦ .bind (hreplay _) fun replay ↦ ?_
  cases replay with
  | some replay => trivial
  | none =>
    exact .bind (present_all _ _ fun _ ↦ hlimit _ _ _ _ _) fun _ ↦
      .bind (present_all _ _ fun _ ↦ hlimit _ _ _ _ _) fun _ ↦ hlive _ _ _

end Opens

end Sessions

/-! ### All calls -/

/-- What every statement of every call has: jobs are enqueued waiting, and completed by an update
that erases the payload exactly when it finishes the job. -/
def Op.WellFormed : Op → Prop
  | .notificationJob (.create data) => data.Initial
  | .notificationJob (.update _ data) => data.Completes
  | _ => True

theorem Op.Requests.wellFormed {op : Op} (h : op.Requests) : op.WellFormed := by
  unfold Op.WellFormed
  split
  · exact h
  · cases h
  · trivial

theorem Op.Issues.wellFormed {op : Op} (h : op.Issues) : op.WellFormed := by
  unfold Op.WellFormed
  split
  · cases h
  · cases h
  · trivial

theorem Op.Consumes.wellFormed {op : Op} (h : op.Consumes) : op.WellFormed := by
  unfold Op.WellFormed
  split
  · cases h
  · exact h
  · trivial

/-- **Every call** enqueues and completes jobs as it should. -/
theorem ApiCall.wellFormed (env : Env) (call : ApiCall) :
    (call.program env).All Op.WellFormed := by
  cases call with
  | requestOtp phone countryIso context =>
    exact .map _ ((requestOtp_all env phone countryIso context).mono fun _ h ↦
      h.requests.wellFormed)
  | verifyOtp phone countryIso otp context =>
    exact .map _ ((verifyOtp_all env phone countryIso otp context).mono fun _ ↦ Op.Issues.wellFormed)
  | refreshSession refreshToken context =>
    exact .map _ ((refreshSession_all env refreshToken context).mono fun _ h ↦
      h.issues.wellFormed)
  | revokeSession input =>
    exact .map _ ((revokeSession_all env input).mono fun _ h ↦ h.issues.wellFormed)
  | enqueueReadinessAlert input =>
    exact .map _ ((enqueueReadinessAlert_all env input).mono fun _ h ↦
      Op.Requests.wellFormed (.of_replays h))
  | redactTerminalPayloads =>
    exact .map _ (redactTerminalPayloads_all.mono fun _ h ↦ h.consumes.wellFormed)
  | tick => exact .map _ ((tick_all env).mono fun _ h ↦ h.consumes.wellFormed)

end Stead
