import Stead.Model.AuthService

/-!
# The running system

All the calls the API processes serve at the same time: requests of customers, polls of the
notification consumers, alerts and the redaction at start-up.

## Threads

Each thread has its call (`System.start`); nothing bounds the number of threads or fixes the order
of their statements. How many processes there are does not matter: what processes share is the
database, and a process that stops is the end of its threads.

## Examples

The platform of the examples hashes different texts to different numbers (`textCode`) and seals a
response as it stands. A run is a list of turns, each of which says whose statement is
executed and under which choice; `after` is the state it leads to, and `reaches_after` that the
system reaches it.
-/

namespace Stead

open Concurrency

/-- A call of the services. -/
inductive ApiCall where
  | requestOtp (phone countryIso : String) (context : OtpRequestContext)
  | verifyOtp (phone countryIso otp : String) (context : OtpVerificationContext)
  | refreshSession (refreshToken : ℕ) (context : AuthRequestContext)
  | revokeSession (input : RevokeSessionInput)
  | enqueueReadinessAlert (input : ReadinessAlertInput)
  | redactTerminalPayloads
  | tick

/-- What a call answers. -/
inductive ApiResponse where
  | requested (response : RequestOtpResponse)
  | session (response : VerifyOtpResponse)
  | enqueued (isNew : Bool)
  | done
  deriving DecidableEq

namespace ApiCall

/-- What a call does. -/
def program (env : Env) : ApiCall → Call ApiResponse
  | requestOtp phone countryIso context =>
    .requested <$> Stead.requestOtp env phone countryIso context
  | verifyOtp phone countryIso otp context =>
    .session <$> Stead.verifyOtp env phone countryIso otp context
  | refreshSession refreshToken context =>
    .session <$> Stead.refreshSession env refreshToken context
  | revokeSession input => (fun _ ↦ .done) <$> Stead.revokeSession env input
  | enqueueReadinessAlert input => .enqueued <$> Stead.enqueueReadinessAlert env input
  | redactTerminalPayloads => (fun _ ↦ .done) <$> Stead.redactTerminalPayloads
  | tick => (fun _ ↦ .done) <$> Stead.tick env

end ApiCall

/-- An executed statement of the system. -/
abbrev Happening (ι : Type) := Event Statements ι (World ι)

/-- The store and the log of a run. -/
abbrev History (ι : Type) := State Statements ι (World ι)

/-- A state of the system: the store, the log, and what is left of each call. -/
abbrev System (ι : Type) := Concurrency.Config Statements ι (World ι) Failure ApiResponse

/-- A condition on the steps of a run of the system. -/
abbrev Weather (ι : Type) := Restriction Statements ι Choice (World ι)

variable {ι : Type} [DecidableEq ι]

/-- The system about to serve the calls on a database. -/
def System.start (env : Env) (w : World ι) (calls : ι → ApiCall) : System ι :=
  Concurrency.Config.start w fun i ↦ (calls i).program env

/-- The states the system can reach, over the steps that meet a condition. -/
def System.Reaches (env : Env) (A : Weather ι) : System ι → System ι → Prop :=
  Run (machine ι env.crypto) A

/-! ### A deployment to run schedules on

The cryptography of the deployment keeps nothing secret and confuses nothing. -/

namespace Demo

/-- Texts as numbers, one to one. -/
def textCode (text : String) : ℕ := text.toList.foldl (fun n c ↦ 1114112 * n + c.toNat + 1) 0

/-- It is the number of the text read backwards. -/
theorem textCode_eq (text : String) : textCode text = textNumber text.toList.reverse :=
  List.foldl_eq_foldr_reverse ..

/-- Different texts have different codes. -/
theorem textCode_injective : Function.Injective textCode := fun text text' h ↦
  String.toList_inj.1 (List.reverse_injective (textNumber_injective
    ((textCode_eq text).symm.trans (h.trans (textCode_eq text')))))

/-- The primitives of the examples. -/
def crypto : Crypto where
  sha256 := textCode
  hashRefreshToken token := token
  hmacDevice _ deviceId := textCode deviceId
  hmacRequest _ deviceHash := deviceHash.elim 0 (· + 1)
  uuidText _ := ""
  bcryptHash otp _ := textCode otp
  bcryptCompare otp codeHash := textCode otp = codeHash
  sealResponse _ _ aad response :=
    ([response.token, response.refreshToken, response.expiresIn], [aad.1, aad.2])
  openResponse _ _ aad ciphertext tag :=
    match ciphertext with
    | [token, refreshToken, expiresIn] =>
      if tag = [aad.1, aad.2] then some ⟨token, refreshToken, expiresIn⟩ else none
    | _ => none
  sealPayload _ _ _ := ([], [])
  openPayload _ _ _ _ := some ⟨none, some "+1", some "000000", none, none⟩

/-- An environment where nothing is configured but the secrets. -/
def env : Env where
  config :=
    { AUTH_OTP_VERIFICATION_ENCRYPTION_KEY := some "secret"
      NOTIFICATION_PAYLOAD_ENCRYPTION_KEY := some "secret" }
  crypto := crypto
  normalizePhoneNumber phone _ := .ok phone
  toUpperCase text := text
  statementMessage _ := ""
  unreadableMessage _ := ""

/-- A database with one country to sign in from. -/
def world : World ℕ := .empty 0 [⟨"NG", true⟩]

/-- An idempotency key for each digit. -/
def key (digit : Char) : String :=
  String.ofList ("00000000-0000-4000-8000-00000000000".toList ++ [digit])

/-- A request for a code, under a key of its own. -/
def requestOtp (digit : Char) : ApiCall := .requestOtp "+1" "NG" { idempotencyKey := key digit }

/-- The system after a schedule, all of whose statements the condition allows. -/
def after (c : System ℕ) (as : List (Turn ℕ Choice)) (allow : ℕ → Op → History ℕ → Bool)
    (h : (c.turns (machine ℕ crypto) allow as).isSome) : System ℕ :=
  c.afterTurns (machine ℕ crypto) allow as h

/-- The condition that allows everything. -/
def anything : ℕ → Op → History ℕ → Bool := fun _ _ _ ↦ true

/-- What a list of turns leads to is reached. -/
theorem reaches_after (c : System ℕ) (as : List (Turn ℕ Choice))
    (h : (c.turns (machine ℕ crypto) anything as).isSome) :
    System.Reaches env .all c (after c as anything h) :=
  Config.run_afterTurns (fun _ _ _ _ _ ↦ trivial) h

/-- `n` statements of thread `i`, one after the other, with nothing going wrong. -/
def steps (i n : ℕ) : List (Turn ℕ Choice) := List.replicate n ⟨i, {}⟩

end Demo

end Stead
