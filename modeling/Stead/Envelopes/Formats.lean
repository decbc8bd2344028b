import Stead.Model.NotificationQueue
import Stead.Node.Runtime

/-!
# Stored envelopes

Two kinds of records are stored encrypted, each in an envelope of its own: the payload of a
notification (`notification-queue.service.ts`) and the response of an OTP verification
(`otp-verification-idempotency.ts`). An envelope is a JSON text with a version, the initialisation
vector, the tag and the ciphertext. The texts of payloads are read here as they are stored, beside
the plain payloads of before the encryption and the marker of a redacted one.

## The platform

JSON, the digests, the encodings of bytes and AES-GCM are those of the platform, a parameter of
everything here (`Node.Runtime`). The definitions use nothing of it but its functions; what is known
about these is a hypothesis of the theorems.

## Failures

The two decoders fail in different ways. A response that cannot be read is `none`, whatever the
reason, and the verification is executed anew. A payload that cannot be read throws an error, which
is recorded with the job as a failed attempt (`claimLocked`); the error of an envelope that does not
open says nothing about the reason.

## Results

What an encoder has written, the decoder reads back (`claimLocked_encryptPayload`,
`decrypt_encryptOtpVerificationResponse`). What a decoder reads from any text was written by an
encoder, if the envelope in it is no forgery: a notification from an envelope of that notification
(`claimLocked_cases`), a response under exactly the secret and the hashes it is read with
(`mem_of_decryptOtpVerificationResponse`).
-/

namespace Stead

open Node

namespace Envelopes

variable (node : Runtime)

/-! ### Envelopes -/

/-- Both envelopes, but for the encoding of the bytes and the name of the tag. -/
def envelope (encode : Bytes → JsString) (tagName : String) (parts : Parts) : Json :=
  .object
    [("v", .number ⟨(1 : ℤ), Binary64.round_intCast (by decide)⟩),
      ("iv", .string (encode parts.iv)),
      (tagName, .string (encode parts.tag)),
      ("ciphertext", .string (encode parts.ciphertext))]

/-- What is read of an envelope, if it is one. -/
def envelopeParts (decode : JsString → Bytes) (tagName : String) (value : Json) : Option Parts :=
  match value.get "v" with
  | some (.number v) =>
    if v.1 = 1 then do
      let iv ← value.getString "iv"
      let tag ← value.getString tagName
      let ciphertext ← value.getString "ciphertext"
      some ⟨decode iv, decode tag, decode ciphertext⟩
    else none
  | _ => none

/-- An initialisation vector, as `randomBytes(12)` draws it. -/
abbrev Iv := {iv : Bytes // iv.length = 12}

/-! ### Notifications -/

/-- What is enqueued. -/
inductive NotificationPayload
  | otp (phone otp : JsString)
  | readiness (phone body : JsString)

/-- The payload as the value that is written. -/
def NotificationPayload.json : NotificationPayload → Json
  | .otp phone code => .object [("phone", .string phone), ("otp", .string code)]
  | .readiness phone body => .object [("phone", .string phone), ("body", .string body)]

/-- What the reading of a payload throws: what the platform throws at a text that is no JSON and at
the fields of `null`, or an error with a message. -/
inductive ReadError
  | syntaxError
  | typeError
  | error (message : String)
  deriving DecidableEq

/-- What is delivered of a redacted payload. -/
def REDACTED_PAYLOAD : Json :=
  .object [("phone", .string (js "<redacted>")), ("redacted", .bool true)]

/-- The text that is stored in its place. -/
def REDACTED_PAYLOAD_JSON : JsString := node.stringify (.object [("redacted", .bool true)])

/-- The key of payloads: the digest of the configured secret, which must not be empty. -/
def encryptionKey (secret : Option JsString) : Except ReadError Bytes :=
  match secret with
  | some secret =>
    if secret = [] then .error (.error "Notification payload encryption key is not configured")
    else .ok (node.sha256 (node.utf8 secret))
  | none => .error (.error "Notification payload encryption key is not configured")

/-- The sealing of a payload, which has no associated data. -/
def payloadSealing (key : Bytes) (iv : Iv) (payload : NotificationPayload) : Sealing :=
  ⟨key, iv, [], node.utf8 (node.stringify payload.json)⟩

/-- The text that is stored for a payload. -/
def encryptPayload (secret : Option JsString) (iv : Iv) (payload : NotificationPayload) :
    Except ReadError JsString := do
  let key ← encryptionKey node secret
  pure (node.stringify (envelope node.base64 "authTag"
    (node.aes256gcm.parts (payloadSealing node key iv payload))))

/-- A payload with a code, -/
def isOtpPayload (value : Json) : Bool :=
  (value.getString "phone").isSome && (value.getString "otp").isSome

/-- one with a text, -/
def isReadinessPayload (value : Json) : Bool :=
  (value.getString "phone").isSome && (value.getString "body").isSome

/-- and either of them. -/
def isNotificationPayload (value : Json) : Bool := isOtpPayload value || isReadinessPayload value

/-- `stored.redacted === true` -/
def isRedacted (value : Json) : Bool :=
  match value.get "redacted" with
  | some (.bool redacted) => redacted
  | _ => false

/-- The parts of an envelope, where the value is one. -/
def isEncryptedEnvelope (value : Json) : Option Parts := envelopeParts node.ofBase64 "authTag" value

/-- The payload in an envelope. Whatever fails is one error. -/
def openEnvelope (secret : Option JsString) (parts : Parts) : Except ReadError Json :=
  match encryptionKey node secret with
  | .error _ => .error (.error "Unable to decrypt notification payload")
  | .ok key =>
    match (node.aes256gcm.decrypt key [] parts).bind fun plaintext ↦
        node.parse (node.ofUtf8 plaintext) with
    | some payload =>
      if isNotificationPayload payload then .ok payload
      else .error (.error "Unable to decrypt notification payload")
    | none => .error (.error "Unable to decrypt notification payload")

/-- The payload of a stored text: a redacted one, a plain one or one in an envelope. -/
def decryptPayload (secret : Option JsString) (payloadJson : JsString) : Except ReadError Json :=
  match node.parse payloadJson with
  | none => .error .syntaxError
  | some .null => .error .typeError
  | some stored =>
    if isRedacted stored then .ok REDACTED_PAYLOAD
    else if isNotificationPayload stored then .ok stored
    else
      match isEncryptedEnvelope node stored with
      | none => .error (.error "Invalid notification payload")
      | some parts => openEnvelope node secret parts

/-- The columns of a job that a claim and its failure touch, with the attempts that have failed. -/
structure StoredJob where
  payloadJson : JsString
  status : NotificationJobStatus
  attempts : ℕ
  maxAttempts : ℕ
  nextRunAt : ℤ
  lockedAt : Option ℤ
  failedAt : Option ℤ
  lastError : Option ReadError
  failureAttempts : List NewFailureAttempt

/-- The update of `markFailed`, between two readings of the clock. -/
def markFailed (now later : ℤ) (error : ReadError) (job : StoredJob) : StoredJob :=
  let attempts := job.attempts + 1
  let terminal : Bool := job.maxAttempts ≤ attempts
  { job with
    payloadJson := if terminal then REDACTED_PAYLOAD_JSON node else job.payloadJson
    attempts
    status := if terminal then .deadLetter else .pending
    nextRunAt := if terminal then job.nextRunAt else later + backoffMs attempts
    failedAt := some now
    lastError := some error
    lockedAt := none
    failureAttempts := job.failureAttempts ++ [⟨attempts, terminal, now⟩] }

/-- The end of `claimReadyJob`, for the job that it has locked: the payload that is handed to the
consumer, and the job. -/
def claimLocked (secret : Option JsString) (now later : ℤ) (job : StoredJob) :
    Option Json × StoredJob :=
  match decryptPayload node secret job.payloadJson with
  | .ok payload => (some payload, job)
  | .error error => (none, markFailed node now later error job)

/-! ### Responses of OTP verifications -/

/-- What a verification answers. -/
structure VerifyOtpResponse where
  token : JsString
  refreshToken : JsString
  expiresIn : Number

/-- The response as the value that is written. -/
def VerifyOtpResponse.json (response : VerifyOtpResponse) : Json :=
  .object
    [("token", .string response.token), ("refreshToken", .string response.refreshToken),
      ("expiresIn", .number response.expiresIn)]

/-- A digest in hexadecimal digits, as `digest('hex')` writes it. -/
@[ext] structure HexDigest where
  text : JsString
  hex : ∀ u ∈ text, u ∈ js "0123456789abcdef"

/-- A key for one purpose, derived from the secret. -/
def deriveKey (secret : JsString) (purpose : String) : Bytes :=
  node.hmacSha256 (node.utf8 secret) (node.utf8 (js ("stead:otp-verification:" ++ purpose ++ ":v1")))

/-- The two hashes that a response is bound to. -/
def associatedData (keyHash requestHash : HexDigest) : Bytes :=
  node.utf8 (keyHash.text ++ js ":" ++ requestHash.text)

/-- The sealing of a response, under its own key and its own hashes. -/
def responseSealing (secret : JsString) (keyHash requestHash : HexDigest) (iv : Iv)
    (response : VerifyOtpResponse) : Sealing :=
  ⟨deriveKey node secret "response-encryption", iv, associatedData node keyHash requestHash,
    node.utf8 (node.stringify response.json)⟩

/-- The text that is stored for a response. -/
def encryptOtpVerificationResponse (secret : JsString) (keyHash requestHash : HexDigest) (iv : Iv)
    (response : VerifyOtpResponse) : JsString :=
  node.stringify (envelope node.base64url "tag"
    (node.aes256gcm.parts (responseSealing node secret keyHash requestHash iv response)))

/-- A response has its tokens and a lifetime. -/
def isVerifyOtpResponse (response : Json) : Bool :=
  (response.getString "token").isSome && (response.getString "refreshToken").isSome &&
    match response.get "expiresIn" with
    | some (.number expiresIn) => isSafeInteger expiresIn && decide (0 < expiresIn.1)
    | _ => false

/-- Whatever fails is one error, `none`. -/
def decryptOtpVerificationResponse (secret : JsString) (keyHash requestHash : HexDigest)
    (value : JsString) : Option Json := do
  let stored ← node.parse value
  let parts ← envelopeParts node.ofBase64url "tag" stored
  let plaintext ← node.aes256gcm.decrypt (deriveKey node secret "response-encryption")
    (associatedData node keyHash requestHash) parts
  let response ← node.parse (node.ofUtf8 plaintext)
  if isVerifyOtpResponse response then some response else none

/-! ### What has been encrypted -/

/-- An encryption: of a payload under the configured secret, or of a response under a secret and two
hashes. -/
inductive Encryption
  | notification (key : Bytes) (iv : Iv) (payload : NotificationPayload)
  | response (secret : JsString) (keyHash requestHash : HexDigest) (iv : Iv)
      (response : VerifyOtpResponse)

/-- What an encryption seals. -/
def Encryption.sealing : Encryption → Sealing
  | .notification key iv payload => payloadSealing node key iv payload
  | .response secret keyHash requestHash iv answer =>
    responseSealing node secret keyHash requestHash iv answer

end Envelopes

end Stead
