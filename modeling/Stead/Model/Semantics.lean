import Mathlib.Data.List.Sort
import Stead.Model.Statement

/-!
# What the statements do

The semantics of each statement on the world, for the thread that issues it. `none` is a statement
that has to wait for a transaction of another thread.

## Reading and writing

A statement inside a transaction sees the committed rows and what the transaction has written
itself; any other sees the committed rows. An update picks the rows that match, waits for those that
another transaction has written, and writes them for its transaction or at once. An insertion is
refused where a unique column or a foreign key forbids it.

## Filters and rows

The conditions of `where` clauses are predicates on rows, each under the name of what it finds
(`OtpCode.live`, `RefreshToken.claimable`, `NotificationJob.ready`), and an insertion adds the row
that its data and the defaults of the schema make (`NewOtpCode.row`).

## The machine

`perform` is a statement to which nothing happens. `exec` lets time pass before it and has it fail,
before its effect or after it. `machine` is the whole as a machine in the sense of
`Concurrency.System`: a thread that is lost has its transaction rolled back.
-/

namespace Stead

open Concurrency

variable {ι : Type}

/-- The result of a statement: its response and the world after it, unless it has to wait. -/
abbrev Outcome (ι α : Type) := Option (Except StatementError α × World ι)

/-- Answer, without an effect. -/
def reply {α : Type} (w : World ι) (a : α) : Outcome ι α := some (.ok a, w)

/-- Fail, without an effect. -/
def refuse {α : Type} (w : World ι) (e : StatementError) : Outcome ι α := some (.error e, w)

/-- How a thread looks at a table: through its transaction or outside it. -/
def viewer (i : ι) (tx : Bool) : Option ι := if tx then some i else none

/-- One of the rows with the greatest instant, by the luck of the draw. -/
def latest {ρ : Type} (at_ : ρ → ℤ) (pick : ℕ) (rows : List (Keyed ρ)) :
    Option (Keyed ρ) :=
  let top := rows.filter fun r ↦ rows.all fun s ↦ decide (at_ s.row ≤ at_ r.row)
  top[pick % top.length]?

/-- One of the rows with the least instant, by the luck of the draw. -/
def earliest {ρ : Type} (at_ : ρ → ℤ) (pick : ℕ) (rows : List (Keyed ρ)) :
    Option (Keyed ρ) :=
  let top := rows.filter fun r ↦ rows.all fun s ↦ decide (at_ r.row ≤ at_ s.row)
  top[pick % top.length]?

/-- A lease lasts for five minutes. -/
def JOB_LOCK_TIMEOUT_MS : ℤ := 5 * 60 * 1000

/-- `readyWhere` of `claimReadyJob`: due, or processing under a lock that is gone or stale. -/
def NotificationJob.ready (now : ℤ) (job : NotificationJob) : Bool :=
  (job.status = .pending && decide (job.nextRunAt ≤ now)) ||
    (job.status = .processing &&
      match job.lockedAt with
      | none => true
      | some lockedAt => decide (lockedAt ≤ now - JOB_LOCK_TIMEOUT_MS))

/-- The check constraint `NotificationJob_otp_requested_linked`. -/
def NotificationJob.linked (job : NotificationJob) : Bool :=
  job.type ≠ .otpRequested || (job.otpCodeId.isSome && job.dedupeKey.isSome)

/-- The row an update leaves. -/
def NotificationJobUpdate.apply (u : NotificationJobUpdate) (job : NotificationJob) :
    NotificationJob :=
  { job with
    payloadJson := u.payloadJson.getD job.payloadJson
    attempts := u.attempts.getD job.attempts
    status := u.status.getD job.status
    nextRunAt := u.nextRunAt.getD job.nextRunAt
    sentAt := u.sentAt.getD job.sentAt
    failedAt := u.failedAt.getD job.failedAt
    lastError := u.lastError.getD job.lastError
    provider := u.provider.orElse fun _ ↦ job.provider
    providerMessageId := u.providerMessageId.orElse fun _ ↦ job.providerMessageId
    lockedAt := u.lockedAt.getD job.lockedAt }

/-- Whether a revocation names the row; revoked rows are never named. -/
def RevokeWhere.covers (scope : RevokeWhere) (row : RefreshToken) : Bool :=
  row.revokedAt.isNone && (scope.userId.all fun u ↦ u = row.userId) &&
    (scope.familyId.all fun f ↦ f = row.familyId)

/-- The row a request creates. -/
def NewOtpCode.row (data : NewOtpCode) (createdAt : ℤ) : OtpCode where
  userId := data.userId
  codeHash := data.codeHash
  requestKeyHash := data.requestKeyHash
  requestCompletedAt := none
  developmentOtp := data.developmentOtp
  verificationKeyHash := none
  verificationRequestHash := none
  verificationResponseJson := none
  verifiedAt := none
  verifyAttempts := 0
  expiresAt := data.expiresAt
  consumedAt := none
  createdAt := createdAt

/-- The row of a new token, -/
def NewRefreshToken.row (data : NewRefreshToken) : RefreshToken where
  userId := data.userId
  tokenHash := data.tokenHash
  familyId := data.familyId
  familyCreatedAt := data.familyCreatedAt
  deviceHash := data.deviceHash
  expiresAt := data.expiresAt
  revokedAt := none
  replacedById := none

/-- and of a new job, with the defaults of the schema. -/
def NewNotificationJob.row (data : NewNotificationJob) (createdAt : ℤ) :
    NotificationJob where
  type := data.type
  payloadJson := data.payloadJson
  status := data.status
  attempts := data.attempts
  maxAttempts := data.maxAttempts
  nextRunAt := data.nextRunAt
  lockedAt := none
  sentAt := none
  failedAt := none
  lastError := none
  provider := none
  providerMessageId := none
  correlationId := data.correlationId
  userId := data.userId
  otpCodeId := data.otpCodeId
  goalId := data.goalId
  dedupeKey := data.dedupeKey
  createdAt := createdAt

/-- A code that can be consumed at `now`: unconsumed and not expired. -/
def OtpCode.live (now : ℤ) (row : OtpCode) : Bool :=
  row.consumedAt.isNone && decide (now < row.expiresAt)

/-- A code of a user that has not been consumed. -/
def OtpCode.unconsumedOf (userId : ℕ) (row : OtpCode) : Bool :=
  row.userId = userId && row.consumedAt.isNone

/-- A request that is not completed, of an age. -/
def OtpCode.uncompleted (createdUntil : Option ℤ) (row : OtpCode) : Bool :=
  row.requestCompletedAt.isNone && createdUntil.all fun t ↦ row.createdAt ≤ t

/-- A token that can be rotated: unrevoked, not expired, its family not too old. -/
def RefreshToken.claimable (now familyCreatedAfter : ℤ) (row : RefreshToken) : Bool :=
  row.revokedAt.isNone && decide (now < row.expiresAt) &&
    decide (familyCreatedAfter < row.familyCreatedAt)

/-- A job of a user from before jobs were linked to their code. -/
def NotificationJob.legacyOtpOf (userId : ℕ) (job : NotificationJob) : Bool :=
  job.type = .otpRequested && job.userId = some userId && job.otpCodeId.isNone &&
    job.dedupeKey.isNone

/-- A finished job whose payload is still there. -/
def NotificationJob.unredacted (job : NotificationJob) : Bool :=
  job.status.terminal && job.payloadJson ≠ REDACTED_PAYLOAD_JSON

/-- Another job has one of the unique keys of the job. -/
def NotificationJob.clashes (job other : NotificationJob) : Bool :=
  (other.dedupeKey.isSome && decide (other.dedupeKey = job.dedupeKey)) ||
    (other.otpCodeId.isSome && decide (other.otpCodeId = job.otpCodeId))

/-- Link a job to its code. -/
def NotificationJob.link (otpCodeId : ℕ) (dedupeKey : DedupeKey) (correlationId : ℕ)
    (job : NotificationJob) : NotificationJob :=
  { job with
    otpCodeId := some otpCodeId
    dedupeKey := some dedupeKey
    correlationId := correlationId }

/-- Record a verification in a row. -/
def Verification.apply (v : Verification) (row : OtpCode) : OtpCode :=
  { row with
    verificationKeyHash := some v.verificationKeyHash
    verificationRequestHash := some v.verificationRequestHash
    verificationResponseJson := some v.verificationResponseJson
    verifiedAt := some v.verifiedAt }

/-- A row with the phone number of its user. -/
def World.withPhone (w : World ι) {ρ : Type} (userId : ρ → ℕ) (r : Keyed ρ) : Keyed ρ × String :=
  (r, (w.phoneOf (userId r.row)).getD "")

variable [DecidableEq ι]

/-- Statements on users, -/
def UserStatement.perform (w : World ι) : (s : UserStatement) → Outcome ι s.Ret
  | .findByPhone phone => reply w (w.userByPhone phone)
  | .upsert phone =>
    match w.userByPhone phone with
    | some user => reply w user
    | none =>
      let (id, users) := w.users.insert none ⟨phone⟩
      reply { w with users } (⟨id, ⟨phone⟩⟩ : Keyed User)

/-- on codes, -/
def OtpCodeStatement.perform (i : ι) (x : Choice) (w : World ι) :
    (s : OtpCodeStatement) → Outcome ι s.Ret
  | .findByRequestKey key =>
    reply w (((w.otpCodes.select none fun r ↦ r.requestKeyHash = key).head?).map
      (w.withPhone OtpCode.userId))
  | .findByVerificationKey key =>
    reply w (((w.otpCodes.select none fun r ↦ r.verificationKeyHash = some key).head?).map
      (w.withPhone OtpCode.userId))
  | .countSince phone since =>
    reply w (w.otpCodes.select none fun r ↦
      w.phoneOf r.userId = some phone && decide (since ≤ r.createdAt)).length
  | .findLatestAfter userId after =>
    reply w (latest OtpCode.createdAt x.pick (w.otpCodes.select none fun r ↦
      r.userId = userId && decide (after < r.createdAt)))
  | .findLive userId now =>
    reply w (latest OtpCode.createdAt x.pick (w.otpCodes.select none fun r ↦
      r.userId = userId && r.live now))
  | .create data =>
    if w.otpCodes.contended none fun r ↦ r.requestKeyHash = data.requestKeyHash then none
    else if (w.otpCodes.select none fun r ↦ r.requestKeyHash = data.requestKeyHash) ≠ [] then
      refuse w .uniqueViolation
    else if (w.users.stored data.userId).isNone then refuse w .foreignKeyViolation
    else
      let (id, otpCodes) := w.otpCodes.insert none (data.row w.now)
      reply { w with otpCodes } id
  | .complete id at_ =>
    match w.otpCodes.updateId none id (fun _ ↦ true) fun r ↦
        { r with requestCompletedAt := some at_ } with
    | some (true, otpCodes) => reply { w with otpCodes } ()
    | some (false, _) => refuse w .recordNotFound
    | none => none
  | .recordAttempt id verifyAttempts consumedAt =>
    match w.otpCodes.updateId none id (fun _ ↦ true) fun r ↦
        { r with
          verifyAttempts := verifyAttempts
          consumedAt := consumedAt.orElse fun _ ↦ r.consumedAt } with
    | some (true, otpCodes) => reply { w with otpCodes } ()
    | some (false, _) => refuse w .recordNotFound
    | none => none
  | .findUnconsumed tx userId =>
    reply w ((w.otpCodes.select (viewer i tx) (OtpCode.unconsumedOf userId)).map Keyed.id)
  | .retireLive tx found userId consumedAt =>
    match w.otpCodes.updateMany (viewer i tx) found (OtpCode.unconsumedOf userId)
        fun r ↦ { r with consumedAt := some consumedAt } with
    | some (count, otpCodes) => reply { w with otpCodes } count
    | none => none
  | .consume id consumedAt =>
    match w.otpCodes.updateId (some i) id (OtpCode.live consumedAt) fun r ↦
        { r with consumedAt := some consumedAt } with
    | some (updated, otpCodes) => reply { w with otpCodes } updated
    | none => none
  | .storeVerification id data =>
    let taken : OtpCode → Bool := fun r ↦ r.verificationKeyHash = some data.verificationKeyHash
    if w.otpCodes.contended (some i) taken then none
    else if (w.otpCodes.select (some i) taken).any fun r ↦ r.id ≠ id then
      refuse w .uniqueViolation
    else
      match w.otpCodes.updateId (some i) id (fun _ ↦ true) data.apply with
      | some (true, otpCodes) => reply { w with otpCodes } ()
      | some (false, _) => refuse w .recordNotFound
      | none => none
  | .deleteUncompleted id createdUntil =>
    if (w.otpCodes.selectId none id (OtpCode.uncompleted createdUntil)).isSome &&
        (w.notificationJobs.select none fun j ↦ j.otpCodeId = some id) ≠ [] then
      refuse w .foreignKeyViolation
    else
      match w.otpCodes.deleteId id (OtpCode.uncompleted createdUntil) with
      | some (deleted, otpCodes) => reply { w with otpCodes } deleted
      | none => none

/-- on events, -/
def AuthEventStatement.perform (i : ι) (w : World ι) :
    (s : AuthEventStatement) → Outcome ι s.Ret
  | .create tx data =>
    if data.otpCodeId.any fun id ↦ ((w.otpCodes.cell id).view (viewer i tx)).isNone then
      refuse w .foreignKeyViolation
    else
      reply { w with
        authEvents := (w.authEvents.insert (viewer i tx)
          ⟨data.type, data.phone, data.ip, data.deviceHash, w.now⟩).2 } ()
  | .countSince types since ip deviceHash =>
    reply w (w.authEvents.select none fun e ↦
      e.type ∈ types && decide (since ≤ e.createdAt) && (ip.all fun a ↦ e.ip = some a) &&
        (deviceHash.all fun d ↦ e.deviceHash = some d)).length

/-- on refresh tokens -/
def RefreshTokenStatement.perform (i : ι) (x : Choice) (w : World ι) :
    (s : RefreshTokenStatement) → Outcome ι s.Ret
  | .findByHash tokenHash =>
    reply w (((w.refreshTokens.select none fun r ↦ r.tokenHash = tokenHash).head?).map
      (w.withPhone RefreshToken.userId))
  | .expire id revokedAt =>
    match w.refreshTokens.updateId none id (fun _ ↦ true) fun r ↦
        { r with revokedAt := some revokedAt } with
    | some (true, refreshTokens) => reply { w with refreshTokens } ()
    | some (false, _) => refuse w .recordNotFound
    | none => none
  | .claim id now familyCreatedAfter =>
    match w.refreshTokens.updateId (some i) id (RefreshToken.claimable now familyCreatedAfter)
        fun r ↦ { r with revokedAt := some now } with
    | some (claimed, refreshTokens) => reply { w with refreshTokens } claimed
    | none => none
  | .create data =>
    let taken : RefreshToken → Bool := fun r ↦ r.tokenHash = data.tokenHash
    if w.refreshTokens.contended (some i) taken then none
    else if w.refreshTokens.select (some i) taken ≠ [] then refuse w .uniqueViolation
    else if (w.users.stored data.userId).isNone then refuse w .foreignKeyViolation
    else
      let (id, refreshTokens) := w.refreshTokens.insert (some i) data.row
      reply { w with refreshTokens } id
  | .link id replacedById =>
    match w.refreshTokens.updateId (some i) id (fun _ ↦ true) fun r ↦
        { r with replacedById := some replacedById } with
    | some (true, refreshTokens) => reply { w with refreshTokens } ()
    | some (false, _) => refuse w .recordNotFound
    | none => none
  | .findUnrevoked scope =>
    reply w ((w.refreshTokens.select (some i) scope.covers).map Keyed.id)
  | .revoke found scope revokedAt =>
    match w.refreshTokens.updateMany (some i) found scope.covers fun r ↦
        { r with revokedAt := some revokedAt } with
    | some (count, refreshTokens) => reply { w with refreshTokens } count
    | none => none
  | .familiesOfDevice userId deviceHash =>
    reply w (((w.refreshTokens.select (some i) fun r ↦
      r.userId = userId && r.deviceHash = some deviceHash && r.revokedAt.isNone).map
        fun r ↦ r.row.familyId).dedup)
  | .liveFamilies userId =>
    let live := w.refreshTokens.select (some i) fun r ↦ r.userId = userId && r.revokedAt.isNone
    let families := (live.map fun r ↦ r.row.familyId).dedup
    reply w ((families.insertionSort fun a b ↦ x.rank a ≤ x.rank b).map fun familyId ↦
      (familyId, ((live.filter fun r ↦ r.row.familyId = familyId).map
        fun r ↦ r.row.familyCreatedAt).min?))

/-- and on jobs, -/
def NotificationJobStatement.perform (x : Choice) (w : World ι) :
    (s : NotificationJobStatement) → Outcome ι s.Ret
  | .create data =>
    let job := data.row w.now
    if !job.linked then refuse w .checkViolation
    else if (w.notificationJobs.select none job.clashes) ≠ [] then refuse w .uniqueViolation
    else if (job.userId.any fun id ↦ (w.users.stored id).isNone) ||
        job.otpCodeId.any fun id ↦ (w.otpCodes.stored id).isNone then
      refuse w .foreignKeyViolation
    else
      let (id, notificationJobs) := w.notificationJobs.insert none job
      reply { w with notificationJobs } id
  | .findByDedupeKey dedupeKey =>
    reply w (w.notificationJobs.select none fun j ↦ j.dedupeKey = some dedupeKey).head?
  | .findLegacyOtp userId since until_ =>
    reply w ((earliest NotificationJob.createdAt x.pick (w.notificationJobs.select none fun j ↦
      j.legacyOtpOf userId && decide (since ≤ j.createdAt) &&
        decide (j.createdAt ≤ until_))).map Keyed.id)
  | .adopt id userId otpCodeId dedupeKey correlationId =>
    if (w.notificationJobs.selectId none id (NotificationJob.legacyOtpOf userId)).isSome &&
        (w.notificationJobs.select none fun j ↦
          j.dedupeKey = some dedupeKey || j.otpCodeId = some otpCodeId) ≠ [] then
      refuse w .uniqueViolation
    else if (w.notificationJobs.selectId none id (NotificationJob.legacyOtpOf userId)).isSome &&
        (w.otpCodes.stored otpCodeId).isNone then
      refuse w .foreignKeyViolation
    else
      match w.notificationJobs.updateId none id (NotificationJob.legacyOtpOf userId)
          (NotificationJob.link otpCodeId dedupeKey correlationId) with
      | some (adopted, notificationJobs) => reply { w with notificationJobs } adopted
      | none => none
  | .findReady now =>
    reply w (earliest NotificationJob.createdAt x.pick
      (w.notificationJobs.select none (NotificationJob.ready now)))
  | .claim id now =>
    if (w.notificationJobs.selectId none id fun j ↦ j.ready now && !j.linked).isSome then
      refuse w .checkViolation
    else
      match w.notificationJobs.updateId none id (NotificationJob.ready now) fun j ↦
          { j with status := .processing, lockedAt := some now } with
      | some (claimed, notificationJobs) => reply { w with notificationJobs } claimed
      | none => none
  | .findById id =>
    match w.notificationJobs.stored id with
    | some job => reply w job
    | none => refuse w .recordNotFound
  | .exists id => reply w (w.notificationJobs.stored id).isSome
  | .update id data =>
    if (w.notificationJobs.selectId none id fun j ↦ !(data.apply j).linked).isSome then
      refuse w .checkViolation
    else
      match w.notificationJobs.updateId none id (fun _ ↦ true) data.apply with
      | some (true, notificationJobs) =>
        match data.failureAttempt with
        | some f =>
          reply { w with
            notificationJobs
            failureAttempts := (w.failureAttempts.insert none
              ⟨id, f.attemptNumber, f.terminal, f.failedAt⟩).2 } ()
        | none => reply { w with notificationJobs } ()
      | some (false, _) => refuse w .recordNotFound
      | none => none
  | .findUnredacted =>
    reply w ((w.notificationJobs.select none NotificationJob.unredacted).map Keyed.id)
  | .redactTerminal found =>
    if found.any fun id ↦
        (w.notificationJobs.selectId none id fun j ↦ j.unredacted && !j.linked).isSome then
      refuse w .checkViolation
    else
      match w.notificationJobs.updateMany none found NotificationJob.unredacted fun j ↦
          { j with payloadJson := REDACTED_PAYLOAD_JSON } with
      | some (count, notificationJobs) => reply { w with notificationJobs } count
      | none => none

/-- and what is asked of the host. -/
def HostStatement.perform (crypto : Crypto) (x : Choice) (w : World ι) :
    (s : HostStatement) → Outcome ι s.Ret
  | .now => reply w w.now
  | .randomUUID => reply { w with fresh := w.fresh + 1 } w.fresh
  | .generateRefreshToken => reply { w with fresh := w.fresh + 1 } w.fresh
  | .generateOtp => reply w x.code
  | .randomBytes => reply w x.pick
  | .bcryptHash otp => reply w (crypto.bcryptHash otp x.pick)
  | .bcryptCompare _ otp codeHash => reply w (crypto.bcryptCompare otp codeHash)
  | .signAccessToken _ _ => reply w x.pick
  | .verifyAccessToken _ => reply w x.subject
  | .deliveryBlocked _ => reply w x.blocked
  | .correlationId => reply w x.pick
  | .sendOtp _ _ => reply w x.sms
  | .sendMessage _ _ => reply w x.sms

/-- What a statement does when nothing goes wrong. -/
def perform (crypto : Crypto) (i : ι) (x : Choice) (w : World ι) : (op : Op) → Outcome ι op.Ret
  | .country isoCode =>
    reply w (w.countries.find? fun c ↦ c.isoCode = isoCode && c.authEnabled)
  | .user s => s.perform w
  | .otpCode s => s.perform i x w
  | .authEvent s => s.perform i w
  | .refreshToken s => s.perform i x w
  | .notificationJob s => s.perform x w
  | .host s => s.perform crypto x w
  | .lockRefreshUser userId =>
    match w.advisoryLocks userId with
    | none =>
      reply { w with advisoryLocks := fun u ↦ if u = userId then some i else w.advisoryLocks u } ()
    | some j => if j = i then reply w () else none
  | .commit => reply (w.commit i) ()
  | .rollback => reply (w.rollback i) ()

/-- Whether the weather can spoil a statement. What a process does by itself cannot fail, and a
rollback happens also when nobody hears of it. -/
def Op.fragile : Op → Bool
  | .host (.signAccessToken _ _) | .host (.verifyAccessToken _) | .host (.sendOtp _ _)
  | .host (.sendMessage _ _) => true
  | .host _ | .rollback => false
  | _ => true

/-- The effect of a statement that fails before it is executed. -/
def Op.lost (i : ι) (w : World ι) : Op → World ι
  | .commit => w.rollback i
  | _ => w

/-- Execute a statement of thread `i`. -/
def exec (crypto : Crypto) (i : ι) (x : Choice) (op : Op) (w : World ι) :
    Option (Statements.Resp op × World ι) :=
  if op.fragile then
    match x.fault with
    | .none => perform crypto i x (w.elapse x.elapse) op
    | .before => some (.error .unavailable, op.lost i (w.elapse x.elapse))
    | .after =>
      (perform crypto i x (w.elapse x.elapse) op).map fun out ↦ (.error .unavailable, out.2)
  else perform crypto i x (w.elapse x.elapse) op

/-- The services' shared store as a machine. A lost thread's transaction is rolled back. -/
def machine (ι : Type) [DecidableEq ι] (crypto : Crypto) :
    Machine Statements ι Choice (World ι) where
  exec := exec crypto
  crash i w := w.rollback i

end Stead
