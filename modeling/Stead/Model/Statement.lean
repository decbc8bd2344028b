import Stead.Concurrency.System
import Stead.Model.Schema

/-!
# The statements

Everything a call of the services asks of the outside: statements on the database, the clock, the
random sources, password hashing, signing and sending. Each is one step of an interleaving.

## The weather

`perform` is what a statement does when nothing goes wrong with it. `exec` adds the weather: time
passes before a statement, and a statement can fail, either before it has an effect or with its
effect in place and only the answer lost. A commit that fails before it has an effect is a
rollback. The random sources, the order among rows of one instant and the outcome of token
verification are left to the `Choice` a statement is executed under.

## Statements on tables

There is one type of statements for each table, with the methods of the client that the services
call. An `updateMany` with a condition that matters under concurrency is two statements: what it
finds when it starts, and the update of what it has found, which tests the condition again.

Statements of an interactive transaction carry the `tx` of their transaction implicitly, by the
thread: a thread has at most one transaction open.
-/

namespace Stead

open Concurrency

/-- How a statement can fail. The first three are Prisma's `P2002`, `P2003` and `P2025`. -/
inductive StatementError where
  | uniqueViolation
  | foreignKeyViolation
  | recordNotFound
  | checkViolation
  | unavailable
  deriving DecidableEq

/-- `data` of `otpCode.create`. -/
structure NewOtpCode where
  userId : ℕ
  codeHash : Digest
  requestKeyHash : Digest
  developmentOtp : Option String
  expiresAt : ℤ

/-- `data` of the update that records a verification. -/
structure Verification where
  verificationKeyHash : Digest
  verificationRequestHash : Digest
  verificationResponseJson : ResponseJson
  verifiedAt : ℤ

/-- Statements on codes. -/
inductive OtpCodeStatement where
  /-- `findUnique({ where: { requestKeyHash }, include: { user } })` -/
  | findByRequestKey (requestKeyHash : Digest)
  /-- `findUnique({ where: { verificationKeyHash } })` with the phone of the user -/
  | findByVerificationKey (verificationKeyHash : Digest)
  /-- `count({ where: { user: { phone }, createdAt: { gte: since } } })` -/
  | countSince (phone : String) (since : ℤ)
  /-- `findFirst({ where: { userId, createdAt: { gt } }, orderBy: { createdAt: 'desc' } })` -/
  | findLatestAfter (userId : ℕ) (after : ℤ)
  /-- `findFirst({ where: { userId, consumedAt: null, expiresAt: { gt } }, orderBy: 'desc' })` -/
  | findLive (userId : ℕ) (now : ℤ)
  | create (data : NewOtpCode)
  /-- `update({ where: { id }, data: { requestCompletedAt } })` -/
  | complete (id : ℕ) (requestCompletedAt : ℤ)
  /-- `update({ where: { id }, data: { verifyAttempts, consumedAt } })`, `none` for `undefined` -/
  | recordAttempt (id : ℕ) (verifyAttempts : ℕ) (consumedAt : Option ℤ)
  /-- The rows of `updateMany({ where: { userId, consumedAt: null }, data: { consumedAt } })` -/
  | findUnconsumed (tx : Bool) (userId : ℕ)
  /-- That update of the rows found -/
  | retireLive (tx : Bool) (found : List ℕ) (userId : ℕ) (consumedAt : ℤ)
  /-- `updateMany({ where: { id, consumedAt: null, expiresAt: { gt } }, data: { consumedAt } })` -/
  | consume (id : ℕ) (consumedAt : ℤ)
  /-- `update({ where: { id }, data: verification })` -/
  | storeVerification (id : ℕ) (data : Verification)
  /-- `deleteMany({ where: { id, requestCompletedAt: null, createdAt: { lte } } })` -/
  | deleteUncompleted (id : ℕ) (createdUntil : Option ℤ)

/-- `data` of `authEvent.create`. -/
structure NewAuthEvent where
  type : AuthEventType
  phone : String
  ip : Option String
  deviceHash : Option Digest
  otpCodeId : Option ℕ

/-- Statements on events. -/
inductive AuthEventStatement where
  | create (tx : Bool) (data : NewAuthEvent)
  /-- `count({ where: { type: { in: types }, createdAt: { gte: since }, ip, deviceHash } })` -/
  | countSince (types : List AuthEventType) (since : ℤ) (ip : Option String)
      (deviceHash : Option Digest)

/-- `data` of `refreshToken.create`. -/
structure NewRefreshToken where
  userId : ℕ
  tokenHash : Digest
  familyId : ℕ
  familyCreatedAt : ℤ
  deviceHash : Option Digest
  expiresAt : ℤ

/-- `where` of a revocation: the columns it names. -/
structure RevokeWhere where
  userId : Option ℕ
  familyId : Option ℕ

/-- Statements on refresh tokens. -/
inductive RefreshTokenStatement where
  /-- `findUnique({ where: { tokenHash }, include: { user } })` -/
  | findByHash (tokenHash : Digest)
  /-- `update({ where: { id }, data: { revokedAt } })`, outside a transaction -/
  | expire (id : ℕ) (revokedAt : ℤ)
  /-- `updateMany` of one unrevoked token that expires after `now`, in a family created after -/
  | claim (id : ℕ) (now : ℤ) (familyCreatedAfter : ℤ)
  | create (data : NewRefreshToken)
  /-- `update({ where: { id }, data: { replacedById } })` -/
  | link (id : ℕ) (replacedById : ℕ)
  /-- The rows of `updateMany({ where: { ...where, revokedAt: null }, data: { revokedAt } })` -/
  | findUnrevoked (scope : RevokeWhere)
  /-- That update of the rows found -/
  | revoke (found : List ℕ) (scope : RevokeWhere) (revokedAt : ℤ)
  /-- `findMany({ where: { userId, deviceHash, revokedAt: null }, distinct: ['familyId'] })` -/
  | familiesOfDevice (userId : ℕ) (deviceHash : Digest)
  /-- `groupBy({ by: ['familyId'], where: { userId, revokedAt: null }, _min: … })` -/
  | liveFamilies (userId : ℕ)

/-- `data` of `notificationJob.create`. -/
structure NewNotificationJob where
  type : NotificationType
  payloadJson : PayloadJson
  userId : Option ℕ
  otpCodeId : Option ℕ
  goalId : Option ℕ
  dedupeKey : Option DedupeKey
  correlationId : ℕ
  status : NotificationJobStatus
  attempts : ℕ
  maxAttempts : ℕ
  nextRunAt : ℤ

/-- `failureAttempts: { create }`. -/
structure NewFailureAttempt where
  attemptNumber : ℕ
  terminal : Bool
  failedAt : ℤ

/-- `data` of `notificationJob.update`; `none` for a column the update leaves alone. -/
structure NotificationJobUpdate where
  payloadJson : Option PayloadJson := none
  attempts : Option ℕ := none
  status : Option NotificationJobStatus := none
  nextRunAt : Option ℤ := none
  sentAt : Option (Option ℤ) := none
  failedAt : Option (Option ℤ) := none
  lastError : Option (Option String) := none
  provider : Option String := none
  providerMessageId : Option String := none
  lockedAt : Option (Option ℤ) := none
  failureAttempt : Option NewFailureAttempt := none

/-- Statements on jobs. -/
inductive NotificationJobStatement where
  | create (data : NewNotificationJob)
  /-- `findUnique({ where: { dedupeKey } })` -/
  | findByDedupeKey (dedupeKey : DedupeKey)
  /-- `findFirst` of the oldest unlinked OTP job of the user created in the interval -/
  | findLegacyOtp (userId : ℕ) (since until_ : ℤ)
  /-- `updateMany` of that job, if it is still unlinked -/
  | adopt (id userId otpCodeId : ℕ) (dedupeKey : DedupeKey) (correlationId : ℕ)
  /-- `findFirst({ where: readyWhere, orderBy: { createdAt: 'asc' } })` -/
  | findReady (now : ℤ)
  /-- `updateMany({ where: { id, ...readyWhere }, data: { status: 'processing', lockedAt } })` -/
  | claim (id : ℕ) (now : ℤ)
  /-- `findUniqueOrThrow({ where: { id } })` -/
  | findById (id : ℕ)
  /-- `findUnique({ where: { id } })`, of which only the presence is used -/
  | exists (id : ℕ)
  | update (id : ℕ) (data : NotificationJobUpdate)
  /-- The rows of the `updateMany` of the finished jobs whose payload is not the redacted one -/
  | findUnredacted
  /-- That update of the rows found -/
  | redactTerminal (found : List ℕ)

/-- Statements on users. -/
inductive UserStatement where
  | findByPhone (phone : String)
  /-- `upsert({ where: { phone }, update: {}, create: { phone } })` -/
  | upsert (phone : String)

/-- What a call asks of its process and of other services. -/
inductive HostStatement where
  | now
  | randomUUID
  | generateRefreshToken
  | generateOtp
  | randomBytes
  /-- `bcrypt.hash(otp, 10)` -/
  | bcryptHash (otp : String)
  /-- `bcrypt.compare(otp, codeHash)`; the row the hash was read from is for the record only -/
  | bcryptCompare (otpCodeId : ℕ) (otp : String) (codeHash : Digest)
  | signAccessToken (userId : ℕ) (phone : String)
  /-- `jwt.verifyAsync(accessToken)`: the subject, if the token verifies -/
  | verifyAccessToken (accessToken : ℕ)
  /-- whether an account deletion in this process blocks the delivery of a job -/
  | deliveryBlocked (id : ℕ)
  /-- `getCorrelationId() ?? randomUUID()` -/
  | correlationId
  /-- `sms.sendOtp(phone, otp)`, `none` for `undefined` -/
  | sendOtp (phone : String) (otp : Option String)
  /-- `sms.sendMessage(phone, body)`, `none` for `undefined` -/
  | sendMessage (phone : String) (body : Option String)

/-- A statement. -/
inductive Op where
  | country (isoCode : String)
  | user (s : UserStatement)
  | otpCode (s : OtpCodeStatement)
  | authEvent (s : AuthEventStatement)
  | refreshToken (s : RefreshTokenStatement)
  | notificationJob (s : NotificationJobStatement)
  | host (s : HostStatement)
  /-- `SELECT pg_advisory_xact_lock(…)` for the user -/
  | lockRefreshUser (userId : ℕ)
  | commit
  | rollback

/-- What a provider answers to a message, with the fields `sid` and `message_id` of its response
where they are strings. -/
structure SmsResult where
  provider : String
  sid : Option String
  message_id : Option String
  deriving DecidableEq

/-- What is answered to statements on users, -/
@[reducible] def UserStatement.Ret : UserStatement → Type
  | .findByPhone _ => Option (Keyed User)
  | .upsert _ => Keyed User

/-- on codes, -/
@[reducible] def OtpCodeStatement.Ret : OtpCodeStatement → Type
  | .findByRequestKey _ => Option (Keyed OtpCode × String)
  | .findByVerificationKey _ => Option (Keyed OtpCode × String)
  | .countSince _ _ => ℕ
  | .findLatestAfter _ _ => Option (Keyed OtpCode)
  | .findLive _ _ => Option (Keyed OtpCode)
  | .create _ => ℕ
  | .complete _ _ => Unit
  | .recordAttempt _ _ _ => Unit
  | .findUnconsumed _ _ => List ℕ
  | .retireLive _ _ _ _ => ℕ
  | .consume _ _ => Bool
  | .storeVerification _ _ => Unit
  | .deleteUncompleted _ _ => Bool

/-- on events, -/
@[reducible] def AuthEventStatement.Ret : AuthEventStatement → Type
  | .create _ _ => Unit
  | .countSince _ _ _ _ => ℕ

/-- on refresh tokens -/
@[reducible] def RefreshTokenStatement.Ret : RefreshTokenStatement → Type
  | .findByHash _ => Option (Keyed RefreshToken × String)
  | .expire _ _ => Unit
  | .claim _ _ _ => Bool
  | .create _ => ℕ
  | .link _ _ => Unit
  | .findUnrevoked _ => List ℕ
  | .revoke _ _ _ => ℕ
  | .familiesOfDevice _ _ => List ℕ
  | .liveFamilies _ => List (ℕ × Option ℤ)

/-- and on jobs, -/
@[reducible] def NotificationJobStatement.Ret : NotificationJobStatement → Type
  | .create _ => ℕ
  | .findByDedupeKey _ => Option (Keyed NotificationJob)
  | .findLegacyOtp _ _ _ => Option ℕ
  | .adopt _ _ _ _ _ => Bool
  | .findReady _ => Option (Keyed NotificationJob)
  | .claim _ _ => Bool
  | .findById _ => NotificationJob
  | .exists _ => Bool
  | .update _ _ => Unit
  | .findUnredacted => List ℕ
  | .redactTerminal _ => ℕ

/-- and to what is asked of the host. -/
@[reducible] def HostStatement.Ret : HostStatement → Type
  | .now => ℤ
  | .randomUUID => ℕ
  | .generateRefreshToken => ℕ
  | .generateOtp => String
  | .randomBytes => ℕ
  | .bcryptHash _ => Digest
  | .bcryptCompare _ _ _ => Bool
  | .signAccessToken _ _ => ℕ
  | .verifyAccessToken _ => Option ℕ
  | .deliveryBlocked _ => Bool
  | .correlationId => ℕ
  | .sendOtp _ _ => SmsResult
  | .sendMessage _ _ => SmsResult

/-- What a statement answers when it succeeds. -/
@[reducible] def Op.Ret : Op → Type
  | .country _ => Option Country
  | .user s => s.Ret
  | .otpCode s => s.Ret
  | .authEvent s => s.Ret
  | .refreshToken s => s.Ret
  | .notificationJob s => s.Ret
  | .host s => s.Ret
  | .lockRefreshUser _ => Unit
  | .commit => Unit
  | .rollback => Unit

/-- The interface between the calls and the outside. -/
abbrev Statements : Interface where
  Op := Op
  Resp op := Except StatementError op.Ret

/-- How the weather treats a statement. -/
inductive Fault where
  /-- The statement is executed and answered. -/
  | none
  /-- It fails before it has an effect. -/
  | before
  /-- It takes effect and the answer is lost. -/
  | after
  deriving DecidableEq

/-- What the outside world decides about the execution of one statement. -/
structure Choice where
  /-- The milliseconds that pass before the statement. -/
  elapse : ℕ := 0
  fault : Fault := .none
  /-- Which of several rows, a salt, or a random value that may repeat. -/
  pick : ℕ := 0
  /-- The order in which groups without an order come. -/
  rank : ℕ → ℕ := id
  /-- The code `generateOtp` draws. -/
  code : String := ""
  /-- The subject of an access token, if it verifies. -/
  subject : Option ℕ := Option.none
  /-- Whether a delivery is blocked. -/
  blocked : Bool := false
  /-- What the provider answers. -/
  sms : SmsResult := ⟨"dev", Option.none, Option.none⟩

/-- The cryptographic primitives of the platform. -/
structure Crypto where
  /-- SHA-256 of a text. -/
  sha256 : String → Digest
  /-- SHA-256 of a refresh token. -/
  hashRefreshToken : ℕ → Digest
  /-- HMAC-SHA-256 of a device identifier under the device secret. -/
  hmacDevice : String → String → Digest
  /-- HMAC-SHA-256 of the request fingerprint under a key derived from the secret. -/
  hmacRequest : String → Option Digest → Digest
  /-- The text of a UUIDv4. -/
  uuidText : ℕ → String
  bcryptHash : String → ℕ → Digest
  bcryptCompare : String → Digest → Bool
  /-- AES-256-GCM of a verification response under a key derived from the secret: from the secret,
  the initialisation vector and the associated data to the ciphertext and the tag. -/
  sealResponse : String → ℕ → Digest × Digest → VerifyOtpResponse → List ℕ × List ℕ
  openResponse : String → ℕ → Digest × Digest → List ℕ → List ℕ → Option VerifyOtpResponse
  /-- AES-256-GCM of a notification payload, without associated data. -/
  sealPayload : String → ℕ → PayloadRecord → List ℕ × List ℕ
  openPayload : String → ℕ → List ℕ → List ℕ → Option PayloadRecord

end Stead
