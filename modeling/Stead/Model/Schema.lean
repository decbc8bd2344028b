import Mathlib.Data.Int.Notation
import Stead.Concurrency.Table

/-!
# The database

The tables the authentication and notification services read and write, with the columns those
services use.

## Values

Instants are integers, in milliseconds since the epoch. Identifiers, random tokens and byte strings
(digests, hashes, ciphertexts) are natural numbers: they are only ever compared. `fresh` numbers the
values drawn from random sources, no two of which coincide.

The column `payloadJson` holds JSON text. The code tells such texts apart only by what they parse
to, so the model stores that: `PayloadRecord` has one entry for each test the code makes, and
`PayloadJson` says whether the text is an envelope, a record in the clear or neither.

## Transactions

Each table has, besides the committed rows, what the transactions that are open have written
(`Concurrency.Table`). `World.commit` and `World.rollback` end the transaction of one thread in all
tables that transactions of the services write; the jobs and the failures are written outside of
them, or at once with them. Advisory locks are part of the world because transactions hold them, and
are released by both.

Time passes in every statement (`World.elapse`), and changes nothing else: the simp lemmas here say
so for each table, and for each table what the end of a transaction does.
-/

namespace Stead

open Concurrency

/-- A digest, a password hash or another opaque byte string. -/
abbrev Digest := ℕ

/-- A country a customer can sign in from. -/
structure Country where
  isoCode : String
  authEnabled : Bool
  deriving DecidableEq

/-- A user, known by the phone number. -/
structure User where
  phone : String
  deriving DecidableEq

/-- What a successful verification or refresh answers. -/
structure VerifyOtpResponse where
  token : ℕ
  refreshToken : ℕ
  expiresIn : ℕ
  deriving DecidableEq

/-- The stored form of a verification response: the encrypted envelope, or a text that does not
parse to one. -/
inductive ResponseJson where
  | envelope (v : ℕ) (iv : ℕ) (tag ciphertext : List ℕ)
  | other (text : String)
  deriving DecidableEq

/-- A code that was requested, with the verification it was used in. -/
structure OtpCode where
  userId : ℕ
  codeHash : Digest
  requestKeyHash : Digest
  requestCompletedAt : Option ℤ
  developmentOtp : Option String
  verificationKeyHash : Option Digest
  verificationRequestHash : Option Digest
  verificationResponseJson : Option ResponseJson
  verifiedAt : Option ℤ
  verifyAttempts : ℕ
  expiresAt : ℤ
  consumedAt : Option ℤ
  createdAt : ℤ
  deriving DecidableEq

/-- What is recorded of requests and sign-ins. -/
inductive AuthEventType where
  | otpRequested
  | otpRequestRateLimited
  | otpResendBlocked
  | otpVerifyFailed
  | otpVerifyLocked
  | otpVerifySucceeded
  deriving DecidableEq

/-- An event that limits are counted by. -/
structure AuthEvent where
  type : AuthEventType
  phone : String
  ip : Option String
  deviceHash : Option Digest
  createdAt : ℤ
  deriving DecidableEq

/-- A refresh token, by the hash of it, in the family of its session. -/
structure RefreshToken where
  userId : ℕ
  tokenHash : Digest
  familyId : ℕ
  familyCreatedAt : ℤ
  deviceHash : Option Digest
  expiresAt : ℤ
  revokedAt : Option ℤ
  replacedById : Option ℕ
  deriving DecidableEq

/-- The type of a job, as `normalizeType` reads the column. -/
inductive NotificationType where
  | otpRequested
  | weeklySummary
  | riskAlert
  | riskRecovery
  deriving DecidableEq

/-- Where a job is on its way. -/
inductive NotificationJobStatus where
  | pending
  | processing
  | sent
  | failed
  | deadLetter
  deriving DecidableEq

/-- A job in one of these states is finished: it has been delivered or given up. -/
def NotificationJobStatus.terminal : NotificationJobStatus → Bool
  | .sent | .deadLetter => true
  | _ => false

/-- The envelope around an encrypted payload, of version 1. -/
structure EncryptedPayloadEnvelope where
  iv : ℕ
  authTag : List ℕ
  ciphertext : List ℕ
  deriving DecidableEq

/-- What the code finds in a JSON object stored as a payload: whether `redacted` is there and
`true`, the fields `phone`, `otp` and `body` where they are strings, and the encrypted envelope
where its fields are there. -/
structure PayloadRecord where
  redacted : Option Bool
  phone : Option String
  otp : Option String
  body : Option String
  envelope : Option EncryptedPayloadEnvelope
  deriving DecidableEq

/-- A stored payload: a JSON object, or a text that is not one. -/
inductive PayloadJson where
  | record (fields : PayloadRecord)
  | other (text : String)
  deriving DecidableEq

/-- `JSON.stringify({ redacted: true })`. -/
def REDACTED_PAYLOAD_JSON : PayloadJson :=
  .record ⟨some true, none, none, none, none⟩

/-- The key under which a job is enqueued at most once. -/
inductive DedupeKey where
  | otpRequested (requestKeyHash : Digest)
  | readiness (key : String)
  deriving DecidableEq

/-- A message to be delivered, with its lease and its attempts. -/
structure NotificationJob where
  type : NotificationType
  payloadJson : PayloadJson
  status : NotificationJobStatus
  attempts : ℕ
  maxAttempts : ℕ
  nextRunAt : ℤ
  lockedAt : Option ℤ
  sentAt : Option ℤ
  failedAt : Option ℤ
  lastError : Option String
  provider : Option String
  providerMessageId : Option String
  correlationId : ℕ
  userId : Option ℕ
  otpCodeId : Option ℕ
  goalId : Option ℕ
  dedupeKey : Option DedupeKey
  createdAt : ℤ
  deriving DecidableEq

/-- A failed attempt to deliver a job. -/
structure NotificationFailureAttempt where
  notificationJobId : ℕ
  attemptNumber : ℕ
  terminal : Bool
  failedAt : ℤ
  deriving DecidableEq

/-- The database with its clock, as the threads of the API processes share it. -/
structure World (ι : Type) where
  now : ℤ
  /-- The number the next value drawn from a random source gets. -/
  fresh : ℕ
  countries : List Country
  users : Table ι User
  otpCodes : Table ι OtpCode
  authEvents : Table ι AuthEvent
  refreshTokens : Table ι RefreshToken
  notificationJobs : Table ι NotificationJob
  failureAttempts : Table ι NotificationFailureAttempt
  /-- The transaction that holds a user's advisory lock. -/
  advisoryLocks : ℕ → Option ι

namespace World

variable {ι : Type}

/-- The empty database of a market with the given countries. -/
def empty (now : ℤ) (countries : List Country) : World ι where
  now := now
  fresh := 0
  countries := countries
  users := .empty
  otpCodes := .empty
  authEvents := .empty
  refreshTokens := .empty
  notificationJobs := .empty
  failureAttempts := .empty
  advisoryLocks _ := none

/-- Time passes. -/
def elapse (w : World ι) (ms : ℕ) : World ι := { w with now := w.now + ms }

@[simp] theorem elapse_otpCodes (w : World ι) (n : ℕ) :
    (w.elapse n).otpCodes = w.otpCodes := rfl

@[simp] theorem elapse_refreshTokens (w : World ι) (n : ℕ) :
    (w.elapse n).refreshTokens = w.refreshTokens := rfl

@[simp] theorem elapse_notificationJobs (w : World ι) (n : ℕ) :
    (w.elapse n).notificationJobs = w.notificationJobs := rfl

@[simp] theorem elapse_failureAttempts (w : World ι) (n : ℕ) :
    (w.elapse n).failureAttempts = w.failureAttempts := rfl

@[simp] theorem elapse_users (w : World ι) (n : ℕ) : (w.elapse n).users = w.users := rfl

@[simp] theorem elapse_now (w : World ι) (n : ℕ) : (w.elapse n).now = w.now + n := rfl

@[simp] theorem elapse_fresh (w : World ι) (n : ℕ) : (w.elapse n).fresh = w.fresh := rfl

@[simp] theorem elapse_advisoryLocks (w : World ι) (n : ℕ) :
    (w.elapse n).advisoryLocks = w.advisoryLocks := rfl

variable [DecidableEq ι]

/-- The user with a phone number. -/
def userByPhone (w : World ι) (phone : String) : Option (Keyed User) :=
  (w.users.select none fun u ↦ u.phone = phone).head?

/-- The phone number of a user. -/
def phoneOf (w : World ι) (userId : ℕ) : Option String :=
  (w.users.stored userId).map User.phone

/-- Release the advisory locks of transaction `i`. -/
def releaseLocks (w : World ι) (i : ι) : World ι :=
  { w with advisoryLocks := fun u ↦ if w.advisoryLocks u = some i then none else w.advisoryLocks u }

/-- Commit transaction `i`. -/
def commit (w : World ι) (i : ι) : World ι :=
  releaseLocks { w with
    otpCodes := w.otpCodes.commit i
    authEvents := w.authEvents.commit i
    refreshTokens := w.refreshTokens.commit i } i

/-- Roll transaction `i` back. -/
def rollback (w : World ι) (i : ι) : World ι :=
  releaseLocks { w with
    otpCodes := w.otpCodes.rollback i
    authEvents := w.authEvents.rollback i
    refreshTokens := w.refreshTokens.rollback i } i

@[simp] theorem commit_otpCodes (w : World ι) (i : ι) :
    (w.commit i).otpCodes = w.otpCodes.commit i := rfl

@[simp] theorem rollback_otpCodes (w : World ι) (i : ι) :
    (w.rollback i).otpCodes = w.otpCodes.rollback i := rfl

@[simp] theorem commit_refreshTokens (w : World ι) (i : ι) :
    (w.commit i).refreshTokens = w.refreshTokens.commit i := rfl

@[simp] theorem rollback_refreshTokens (w : World ι) (i : ι) :
    (w.rollback i).refreshTokens = w.refreshTokens.rollback i := rfl

@[simp] theorem rollback_notificationJobs (w : World ι) (i : ι) :
    (w.rollback i).notificationJobs = w.notificationJobs := rfl

@[simp] theorem rollback_failureAttempts (w : World ι) (i : ι) :
    (w.rollback i).failureAttempts = w.failureAttempts := rfl

@[simp] theorem rollback_users (w : World ι) (i : ι) : (w.rollback i).users = w.users := rfl

@[simp] theorem rollback_now (w : World ι) (i : ι) : (w.rollback i).now = w.now := rfl

@[simp] theorem rollback_fresh (w : World ι) (i : ι) : (w.rollback i).fresh = w.fresh := rfl

end World

end Stead
