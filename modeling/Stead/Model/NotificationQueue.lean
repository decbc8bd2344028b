import Stead.Model.Call

/-!
# The notification queue and its consumer

`NotificationQueueService`, `NotificationConsumerService` and the publisher between the queue and
the authentication service, as programs over the statements. The publisher only passes its
arguments on, and is left out.

## Payloads

A payload is a record of texts, stored plain, redacted or in an envelope; sealing and opening are
those of the environment. A payload that cannot be read is rejected with the message that the
platform has for it, and the failure is recorded with the job.

## Jobs

A job is inserted under a dedupe key, and who finds the key taken reads the job that has it. A
consumer claims a ready job by a lease, tests whether it may be delivered, sends it, and marks it as
succeeded or failed (`tick`). Either is written whatever the job says by then (`updateJob`), and a
failure counts the attempts from the row that was claimed (`failedUpdate`).

## Ticks

A tick of the consumer is one call. That a consumer skips a tick while it processes another only
takes interleavings away.
-/

namespace Stead

open Concurrency

variable (env : Env)

/-! ### Payloads -/

/-- What is left of a payload once it is redacted. -/
def REDACTED_PAYLOAD : PayloadRecord := ⟨some true, some "<redacted>", none, none, none⟩

/-- A payload with a code, -/
def isOtpPayload (value : PayloadRecord) : Bool := value.phone.isSome && value.otp.isSome

/-- one with a text, -/
def isReadinessPayload (value : PayloadRecord) : Bool := value.phone.isSome && value.body.isSome

/-- and either of them. -/
def isNotificationPayload (value : PayloadRecord) : Bool :=
  isOtpPayload value || isReadinessPayload value

/-- The configured secret of the payload key. -/
def encryptionKey : Except Failure String :=
  match env.config.NOTIFICATION_PAYLOAD_ENCRYPTION_KEY with
  | some secret =>
    if secret = "" then .error (.error "Notification payload encryption key is not configured")
    else .ok secret
  | none => .error (.error "Notification payload encryption key is not configured")

/-- The payload as it is stored. -/
def encryptPayload (payload : PayloadRecord) : Call PayloadJson := do
  let iv ← run (.host .randomBytes)
  let secret ← lift (encryptionKey env)
  let (ciphertext, authTag) := env.crypto.sealPayload secret iv payload
  pure (.record ⟨none, none, none, none, some ⟨iv, authTag, ciphertext⟩⟩)

/-- The payload of what is stored. -/
def decryptPayload : PayloadJson → Except Failure PayloadRecord
  | .other text => .error (.error (env.unreadableMessage text))
  | .record stored =>
    if stored.redacted = some true then .ok REDACTED_PAYLOAD
    else if isNotificationPayload stored then .ok stored
    else
      match stored.envelope with
      | none => .error (.error "Invalid notification payload")
      | some envelope =>
        match encryptionKey env with
        | .error _ => .error (.error "Unable to decrypt notification payload")
        | .ok secret =>
          match env.crypto.openPayload secret envelope.iv envelope.ciphertext envelope.authTag with
          | some payload =>
            if isNotificationPayload payload then .ok payload
            else .error (.error "Unable to decrypt notification payload")
          | none => .error (.error "Unable to decrypt notification payload")

/-! ### Enqueueing -/

/-- The payload of an `otp.requested` job. -/
def otpPayload (phone otp : String) : PayloadRecord := ⟨none, some phone, some otp, none, none⟩

/-- The job of a request: inserted, or the one that has its key. -/
def enqueueOtpRequested (payload : PayloadRecord) (userId otpCodeId : ℕ)
    (dedupeKey : DedupeKey) : Call ℕ := do
  let payloadJson ← encryptPayload env payload
  let correlationId ← run (.host .correlationId)
  let nextRunAt ← run (.host .now)
  tryCatch
    (run (.notificationJob (.create
      { type := .otpRequested
        payloadJson
        userId := some userId
        otpCodeId := some otpCodeId
        goalId := none
        dedupeKey := some dedupeKey
        correlationId
        status := .pending
        attempts := 0
        maxAttempts := 3
        nextRunAt })))
    fun e ↦ do
      if e = .statement .uniqueViolation then
        match ← run (.notificationJob (.findByDedupeKey dedupeKey)) with
        | some existing =>
          if existing.row.type = .otpRequested && existing.row.otpCodeId = some otpCodeId then
            pure existing.id
          else throw e
        | none => throw e
      else throw e

/-- Whether the job of a row is there. -/
def isOtpRequestEnqueued (dedupeKey : DedupeKey) (otpCodeId : ℕ) : Call Bool := do
  match ← run (.notificationJob (.findByDedupeKey dedupeKey)) with
  | some existing =>
    pure (existing.row.type = .otpRequested && existing.row.otpCodeId = some otpCodeId)
  | none => pure false

/-- A job from before jobs were linked is linked to the row it was for. -/
def adoptLegacyOtpRequest (userId otpCodeId : ℕ) (dedupeKey : DedupeKey)
    (requestedAt expiresAt : ℤ) : Call Bool := do
  match ← run (.notificationJob (.findLegacyOtp userId requestedAt expiresAt)) with
  | none => pure false
  | some legacyJob =>
    let correlationId ← run (.host .correlationId)
    let adopted ← tryCatch
      (run (.notificationJob (.adopt legacyJob userId otpCodeId dedupeKey correlationId)))
      fun e ↦ if e = .statement .uniqueViolation then pure false else throw e
    if adopted then pure true else isOtpRequestEnqueued dedupeKey otpCodeId

/-- The event a readiness alert tells a user of. -/
structure ReadinessAlertInput where
  type : NotificationType
  payload : PayloadRecord
  userId : ℕ
  goalId : ℕ
  dedupeKey : String

/-- Enqueue an alert; whether it was not enqueued before. -/
def enqueueReadinessAlert (input : ReadinessAlertInput) : Call Bool := do
  let payloadJson ← encryptPayload env input.payload
  let correlationId ← run (.host .correlationId)
  let nextRunAt ← run (.host .now)
  tryCatch
    (do
      let _ ← run (.notificationJob (.create
        { type := input.type
          payloadJson
          userId := some input.userId
          otpCodeId := none
          goalId := some input.goalId
          dedupeKey := some (.readiness input.dedupeKey)
          correlationId
          status := .pending
          attempts := 0
          maxAttempts := 3
          nextRunAt }))
      pure true)
    fun e ↦ if e = .statement .uniqueViolation then pure false else throw e

/-! ### Claiming and completing -/

/-- A job as the consumer has it: the row it was read from, and the payload. -/
structure ClaimedJob where
  id : ℕ
  row : NotificationJob
  payload : PayloadRecord

/-- The message of an error. -/
def Failure.message (env : Env) : Failure → String
  | .badRequest message | .unauthorized message | .conflict message => message
  | .tooManyRequests message | .serviceUnavailable message | .error message => message
  | .statement e => env.statementMessage e

/-- The delay after a failed attempt: it doubles each time, up to half a minute. -/
def backoffMs (attempt : ℕ) : ℕ := min 30000 (1000 * 2 ^ attempt)

/-- An update of a job that may be gone. -/
def updateJob (id : ℕ) (data : NotificationJobUpdate) : Call Unit :=
  tryCatch (run (.notificationJob (.update id data))) fun e ↦
    if e = .statement .recordNotFound then pure () else throw e

/-- `data` of the update in `markSucceeded`. -/
def succeededUpdate (sentAt : ℤ) (provider : String) (providerMessageId : Option String) :
    NotificationJobUpdate where
  payloadJson := some REDACTED_PAYLOAD_JSON
  status := some .sent
  sentAt := some (some sentAt)
  provider := (some provider).filter (· ≠ "")
  providerMessageId := providerMessageId.filter (· ≠ "")
  lastError := some none
  failedAt := some none
  lockedAt := some none

/-- `markSucceeded` -/
def markSucceeded (job : ClaimedJob) (provider : String) (providerMessageId : Option String) :
    Call Unit := do
  let sentAt ← run (.host .now)
  updateJob job.id (succeededUpdate sentAt provider providerMessageId)

/-- `data` of the update in `markFailed`, for a job that has failed `attempts` times. -/
def failedUpdate (job : NotificationJob) (attempts : ℕ) (nextRunAt failedAt : ℤ)
    (lastError : String) : NotificationJobUpdate :=
  let terminal := job.maxAttempts ≤ attempts
  { payloadJson := if terminal then some REDACTED_PAYLOAD_JSON else none
    attempts := some attempts
    status := some (if terminal then .deadLetter else .pending)
    nextRunAt := some nextRunAt
    failedAt := some (some failedAt)
    lastError := some (some lastError)
    lockedAt := some none
    failureAttempt := some ⟨attempts, terminal, failedAt⟩ }

/-- `nextRunAt` of the update in `markFailed`: unchanged for a job that is given up. -/
def nextRunAtAfter (job : NotificationJob) (attempts : ℕ) : Call ℤ :=
  if job.maxAttempts ≤ attempts then pure job.nextRunAt
  else do
    let now ← run (.host .now)
    pure (now + (backoffMs attempts : ℤ))

/-- `markFailed` -/
def markFailed (job : ClaimedJob) (error : Failure) : Call Unit := do
  let attempts := job.row.attempts + 1
  let now ← run (.host .now)
  let nextRunAt ← nextRunAtAfter job.row attempts
  updateJob job.id (failedUpdate job.row attempts nextRunAt now (error.message env))

/-- Claim the oldest job that is ready. A job whose payload cannot be read has failed. -/
def claimReadyJob : Call (Option ClaimedJob) := do
  let now ← run (.host .now)
  match ← run (.notificationJob (.findReady now)) with
  | none => pure none
  | some candidate =>
    if ← run (.notificationJob (.claim candidate.id now)) then
      let locked ← run (.notificationJob (.findById candidate.id))
      match decryptPayload env locked.payloadJson with
      | .ok payload => pure (some ⟨candidate.id, locked, payload⟩)
      | .error error =>
        markFailed env ⟨candidate.id, locked, REDACTED_PAYLOAD⟩ error
        pure none
    else pure none

/-- Whether the job is still there and nobody blocks it. -/
def canDeliver (job : ClaimedJob) : Call Bool := do
  if ← run (.host (.deliveryBlocked job.id)) then pure false
  else run (.notificationJob (.exists job.id))

/-- The payloads of finished jobs are redacted at the start of a process. -/
def redactTerminalPayloads : Call Unit := do
  let found ← run (.notificationJob .findUnredacted)
  let _ ← run (.notificationJob (.redactTerminal found))
  pure ()

/-! ### The consumer -/

/-- The first identifier that the provider answers. -/
def extractProviderMessageId (result : SmsResult) : Option String :=
  result.sid.orElse fun _ ↦ result.message_id

/-- Send a job. The recipient's number is part of every payload. -/
def processJob (job : ClaimedJob) : Call SmsResult :=
  match job.row.type with
  | .otpRequested =>
    if job.payload.redacted.isSome then throw (.error "OTP notification payload has been redacted")
    else run (.host (.sendOtp (job.payload.phone.getD "") job.payload.otp))
  | .weeklySummary | .riskAlert | .riskRecovery =>
    if job.payload.redacted.isSome then
      throw (.error "Readiness notification payload has been redacted")
    else run (.host (.sendMessage (job.payload.phone.getD "") job.payload.body))

/-- Deliver a claimed job. Whatever goes wrong on the way, the success of the delivery not being
recorded included, is a failed attempt. -/
def processClaimedJob (job : ClaimedJob) : Call Unit :=
  tryCatch
    (do
      if ← canDeliver job then
        let result ← processJob job
        markSucceeded job result.provider (extractProviderMessageId result)
      else pure ())
    fun error ↦ markFailed env job error

/-- A poll of the queue. An error of the poll is only logged. -/
def tick : Call Unit :=
  tryCatch
    (do
      match ← claimReadyJob env with
      | some job => processClaimedJob env job
      | none => pure ())
    fun _ ↦ pure ()

end Stead
