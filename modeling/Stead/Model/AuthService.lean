import Stead.Model.NotificationQueue
import Stead.Model.Text

/-!
# The authentication service

`AuthService`, as programs over the statements. Names, order of statements, conditions, messages
and error kinds are the service's; an early return of the source is the last branch of a `match`,
and a block that only throws is a function of its own.

## Texts and configuration

What the environment configures is parsed where the source parses it: durations like `15m`, limits
with a default, device identifiers and idempotency keys that are UUIDs.

## Requesting and verifying

A request is identified by its idempotency key. It is answered from the row that was created for the
key where there is one (`replayOtpRequest`), and otherwise creates a row, publishes its code and
marks the row completed (`createOtpCode`). A verification is likewise answered from the row it was
made with (`replayOtpVerification`) and otherwise tested against the latest live row of its user
(`verifyLiveOtp`); the session it begins and the response that is stored for replays come from one
transaction (`verifiedSessionBody`).

## Sessions

A session is a family of refresh tokens. `refreshSession` replaces the token of a family by a new
one, and takes the reuse of a replaced token for a theft: the family is revoked. Every transaction
on the tokens of a user takes the advisory lock of the user first; the revocation of an expired
token in `refreshSession` is a single statement and takes none.
-/

namespace Stead

open Concurrency

/-! ### Constants and configuration -/

/-- How many codes a phone may request in an hour. -/
def DEFAULT_OTP_REQUEST_LIMIT_PER_HOUR : ℕ := 5

/-- The time between two requests of a phone. -/
def DEFAULT_OTP_RESEND_COOLDOWN_MS : ℕ := 60000

/-- How many wrong codes lock a row. -/
def DEFAULT_OTP_MAX_VERIFY_ATTEMPTS : ℕ := 5

/-- How many codes a network may request in an hour, -/
def DEFAULT_OTP_REQUEST_LIMIT_PER_IP_PER_HOUR : ℕ := 20

/-- and a device. -/
def DEFAULT_OTP_REQUEST_LIMIT_PER_DEVICE_PER_HOUR : ℕ := 5

/-- How often a network may fail within the window, -/
def DEFAULT_OTP_VERIFY_FAILURE_LIMIT_PER_IP_WINDOW : ℕ := 10

/-- and a device. -/
def DEFAULT_OTP_VERIFY_FAILURE_LIMIT_PER_DEVICE_WINDOW : ℕ := 8

/-- The window: a quarter of an hour. -/
def DEFAULT_OTP_VERIFY_FAILURE_WINDOW_MS : ℕ := 15 * 60 * 1000

/-- A request that is pending for this long may be taken over. -/
def OTP_REQUEST_PROCESSING_TIMEOUT_MS : ℤ := 30000

/-- A verification is replayed for this long. -/
def OTP_VERIFICATION_REPLAY_WINDOW_MS : ℤ := 10 * 60 * 1000

/-- A code lives for this long. -/
def OTP_LIFETIME_MS : ℤ := 10 * 60 * 1000

/-- An hour, in milliseconds. -/
def ONE_HOUR_MS : ℤ := 60 * 60 * 1000

/-- The lifetime of an access token, -/
def DEFAULT_JWT_EXPIRES_IN : String := "15m"

/-- of a refresh token -/
def DEFAULT_REFRESH_TOKEN_EXPIRES_IN : String := "30d"

/-- and of a family. -/
def DEFAULT_REFRESH_FAMILY_MAX_AGE : String := "90d"

/-- How many families a user may have. -/
def DEFAULT_REFRESH_MAX_FAMILIES_PER_USER : ℕ := 5

/-- The version of the envelopes of responses. -/
def ENVELOPE_VERSION : ℕ := 1

namespace Config

variable (config : Config)

/-- The limits as they are configured, or else the defaults: requests of a phone, -/
def otpRequestLimitPerHour : ℕ :=
  config.AUTH_OTP_REQUEST_LIMIT_PER_HOUR.getD DEFAULT_OTP_REQUEST_LIMIT_PER_HOUR

/-- the time between them, -/
def otpResendCooldownMs : ℕ :=
  config.AUTH_OTP_RESEND_COOLDOWN_MS.getD DEFAULT_OTP_RESEND_COOLDOWN_MS

/-- the wrong codes of a row, -/
def otpMaxVerifyAttempts : ℕ :=
  config.AUTH_OTP_MAX_VERIFY_ATTEMPTS.getD DEFAULT_OTP_MAX_VERIFY_ATTEMPTS

/-- the requests of a network -/
def otpRequestLimitPerIpPerHour : ℕ :=
  config.AUTH_OTP_REQUEST_LIMIT_PER_IP_PER_HOUR.getD DEFAULT_OTP_REQUEST_LIMIT_PER_IP_PER_HOUR

/-- and of a device, -/
def otpRequestLimitPerDevicePerHour : ℕ :=
  config.AUTH_OTP_REQUEST_LIMIT_PER_DEVICE_PER_HOUR.getD
    DEFAULT_OTP_REQUEST_LIMIT_PER_DEVICE_PER_HOUR

/-- the failures of a network -/
def otpVerifyFailureLimitPerIpWindow : ℕ :=
  config.AUTH_OTP_VERIFY_FAILURE_LIMIT_PER_IP_WINDOW.getD
    DEFAULT_OTP_VERIFY_FAILURE_LIMIT_PER_IP_WINDOW

/-- and of a device, -/
def otpVerifyFailureLimitPerDeviceWindow : ℕ :=
  config.AUTH_OTP_VERIFY_FAILURE_LIMIT_PER_DEVICE_WINDOW.getD
    DEFAULT_OTP_VERIFY_FAILURE_LIMIT_PER_DEVICE_WINDOW

/-- within the window. -/
def otpVerifyFailureWindowMs : ℕ :=
  config.AUTH_OTP_VERIFY_FAILURE_WINDOW_MS.getD DEFAULT_OTP_VERIFY_FAILURE_WINDOW_MS

/-- `value || fallback` for a configured text. -/
def orDefault (value : Option String) (fallback : String) : String :=
  match value with
  | some text => if text = "" then fallback else text
  | none => fallback

/-- The lifetimes as they are configured, or else the defaults: of an access token, -/
def accessTokenExpiresIn : String := orDefault config.JWT_EXPIRES_IN DEFAULT_JWT_EXPIRES_IN

/-- of a refresh token -/
def refreshTokenExpiresIn : String :=
  orDefault config.AUTH_REFRESH_TOKEN_EXPIRES_IN DEFAULT_REFRESH_TOKEN_EXPIRES_IN

/-- and of a family. -/
def refreshFamilyMaxAge : String :=
  orDefault config.AUTH_REFRESH_FAMILY_MAX_AGE DEFAULT_REFRESH_FAMILY_MAX_AGE

/-- The cap on the families of a user; what is less than one counts as not configured. -/
def maxRefreshFamiliesPerUser : ℕ :=
  match config.AUTH_REFRESH_MAX_FAMILIES_PER_USER with
  | some parsed => if 1 ≤ parsed then ⌊parsed⌋₊ else DEFAULT_REFRESH_MAX_FAMILIES_PER_USER
  | none => DEFAULT_REFRESH_MAX_FAMILIES_PER_USER

end Config

/-! ### Texts -/

/-- The multiplier of a unit in `parseDurationToMs`. -/
def durationUnit (c : Char) : Option ℕ :=
  match c.toLower with
  | 's' => some 1000
  | 'm' => some 60000
  | 'h' => some 3600000
  | 'd' => some 86400000
  | _ => none

/-- Durations like `15m`, `30d`, `7d` in milliseconds: digits and one unit. -/
def parseDurationToMs (value : String) : Except Failure ℕ :=
  match (trim value.toList).reverse with
  | unit :: digit :: rest =>
    match durationUnit unit with
    | some multiplier =>
      if (digit :: rest).all Char.isDigit then
        .ok ((rest.reverse ++ [digit]).foldl (fun n c ↦ 10 * n + (c.toNat - 48)) 0 * multiplier)
      else .error (.error ("Unsupported duration: " ++ value))
    | none => .error (.error ("Unsupported duration: " ++ value))
  | _ => .error (.error ("Unsupported duration: " ++ value))

/-- The same in whole seconds. -/
def parseDurationToSeconds (value : String) : Except Failure ℕ :=
  (parseDurationToMs value).map (· / 1000)

/-- A lower-case or upper-case hexadecimal digit. -/
def isHex (c : Char) : Bool :=
  c.isDigit || ('a' ≤ c && c ≤ 'f') || ('A' ≤ c && c ≤ 'F')

/-- `/^[0-9a-f]{8}-[0-9a-f]{4}-4[0-9a-f]{3}-[89ab][0-9a-f]{3}-[0-9a-f]{12}$/i`, a UUIDv4. -/
def isUuidV4 (text : List Char) : Bool :=
  text.length = 36 && (text.zipIdx.all fun (c, n) ↦
    if n ∈ [8, 13, 18, 23] then c = '-'
    else if n = 14 then c = '4'
    else if n = 19 then c ∈ ['8', '9', 'a', 'b', 'A', 'B']
    else isHex c)

/-- `context.idempotencyKey.trim().toLowerCase()`, as far as a key that is accepted can tell. -/
def normalizeIdempotencyKey (key : String) : String :=
  String.ofList ((trim key.toList).map Char.toLower)

/-- The rejection of a key that is no UUID. -/
def INVALID_IDEMPOTENCY_KEY : Failure := .badRequest "Idempotency-Key must be a UUIDv4 value."

variable (env : Env)

/-- `hashDeviceIdentifier` -/
def hashDeviceIdentifier (deviceId : Option String) : Except Failure (Option Digest) :=
  match deviceId with
  | none => .ok none
  | some deviceId =>
    if deviceId = "" then .ok none
    else if !isUuidV4 deviceId.toList then
      .error (.badRequest "X-Stead-Device-Id must be a valid UUIDv4 identifier")
    else
      match env.config.AUTH_DEVICE_IDENTIFIER_SECRET with
      | none => .error (.error "Auth device identifier secret is not configured")
      | some secret =>
        if secret = "" then .error (.error "Auth device identifier secret is not configured")
        else .ok (some (env.crypto.hmacDevice secret
          (String.ofList (deviceId.toList.map Char.toLower))))

/-- `requireAuthCountry`, which looks the country up. -/
def requireAuthCountry (countryIso : String) : Call String := do
  match ← run (.country (env.toUpperCase countryIso)) with
  | some country => pure country.isoCode
  | none => throw (.badRequest "countryIso must be supported")

/-- `normalizePhoneNumber`; what the library rejects is a bad request. -/
def normalizePhoneNumber (phone countryIso : String) : Except Failure String :=
  (env.normalizePhoneNumber phone countryIso).mapError .badRequest

/-- What the controller hands over besides the body. -/
structure AuthRequestContext where
  ip : Option String := none
  deviceId : Option String := none

/-- The same for a request of a code -/
structure OtpRequestContext extends AuthRequestContext where
  idempotencyKey : String

/-- and for its verification, whose key is optional. -/
structure OtpVerificationContext extends AuthRequestContext where
  idempotencyKey : Option String := none

/-- `countRecentEvents` is skipped, like the check it is for, for a key that is absent. -/
def present {α : Type} (key : Option α) (check : α → Call Unit) : Call Unit :=
  match key with
  | some k => check k
  | none => .pure ()

/-! ### Requesting an OTP -/

/-- The answer to a request. -/
structure RequestOtpResponse where
  ok : Bool
  otp : Option String
  deriving DecidableEq

/-- The answer shows the code in development only. -/
def buildOtpRequestResponse (developmentOtp : Option String) : RequestOtpResponse :=
  ⟨true, if env.config.DEV_EXPOSE_OTP then developmentOtp.filter (· ≠ "") else none⟩

/-- The dedupe key of the job of a request. -/
def otpNotificationDedupeKey (requestKeyHash : Digest) : DedupeKey := .otpRequested requestKeyHash

/-- The rejection while the first request of a key is under way. -/
def STILL_PROCESSING : Failure :=
  .serviceUnavailable "The matching OTP request is still processing. Retry shortly."

/-- Mark the request of a row completed and answer it. -/
def completeOtpRequest (existing : Keyed OtpCode) : Call RequestOtpResponse := do
  let requestCompletedAt ← run (.host .now)
  run (.otpCode (.complete existing.id requestCompletedAt))
  pure (buildOtpRequestResponse env existing.row.developmentOtp)

/-- Take a stale pending request over by deleting its row. A row whose job is there after all is
completed instead. -/
def removeStaleOtpRequest (requestKeyHash : Digest) (existing : Keyed OtpCode)
    (processingDeadline : ℤ) : Call (Option RequestOtpResponse) :=
  tryCatch
    (do
      if ← run (.otpCode (.deleteUncompleted existing.id (some processingDeadline))) then
        pure none
      else throw STILL_PROCESSING)
    fun e ↦ do
      if e = .statement .foreignKeyViolation then
        if ← isOtpRequestEnqueued (otpNotificationDedupeKey requestKeyHash) existing.id then
          pure (some (← completeOtpRequest env existing))
        else throw e
      else throw e

/-- Whether the job of a row is enqueued, after looking for one from before jobs were linked. -/
def isEnqueuedOrAdopted (existing : Keyed OtpCode) (dedupeKey : DedupeKey) : Call Bool := do
  if ← isOtpRequestEnqueued dedupeKey existing.id then pure true
  else
    adoptLegacyOtpRequest existing.row.userId existing.id dedupeKey existing.row.createdAt
      existing.row.expiresAt

/-- `replayOtpRequest`: the answer for a key that has been used, if it has been. -/
def replayOtpRequest (requestKeyHash : Digest) (normalizedPhone : String) :
    Call (Option RequestOtpResponse) := do
  match ← run (.otpCode (.findByRequestKey requestKeyHash)) with
  | none => pure none
  | some (existing, phone) =>
    if phone ≠ normalizedPhone then
      throw (.conflict "Idempotency-Key was already used for another OTP request.")
    else if existing.row.requestCompletedAt.isSome then
      pure (some (buildOtpRequestResponse env existing.row.developmentOtp))
    else
      if ← isEnqueuedOrAdopted existing (otpNotificationDedupeKey requestKeyHash) then
        pure (some (← completeOtpRequest env existing))
      else
        let now ← run (.host .now)
        let processingDeadline := now - OTP_REQUEST_PROCESSING_TIMEOUT_MS
        if existing.row.createdAt ≤ processingDeadline then
          removeStaleOtpRequest env requestKeyHash existing processingDeadline
        else throw STILL_PROCESSING

/-- `telemetry.recordEvent` outside a transaction. -/
def recordEvent (data : NewAuthEvent) : Call Unit := run (.authEvent (.create false data))

/-- Reject a request when a network or a device has made too many in the last hour. -/
def checkRequestLimit (limit : ℕ) (oneHourAgo : ℤ) (ip : Option String)
    (deviceHash : Option Digest) (limited : NewAuthEvent) (message : String) : Call Unit := do
  let recent ← run (.authEvent (.countSince [.otpRequested] oneHourAgo ip deviceHash))
  if limit ≤ recent then
    recordEvent limited
    throw (.tooManyRequests message)

/-- Create the row of a request and publish its code. A failure to record the event takes the row
back. -/
def publishOtpCode (normalizedPhone : String) (ip : Option String) (deviceHash : Option Digest)
    (requestKeyHash : Digest) (userId otpCodeId : ℕ) (otp : String)
    (developmentOtp : Option String) : Call RequestOtpResponse := do
  tryCatch
    (recordEvent ⟨.otpRequested, normalizedPhone, ip, deviceHash, some otpCodeId⟩)
    fun e ↦ do
      tryCatch (do
          let _ ← run (.otpCode (.deleteUncompleted otpCodeId none))
          pure ())
        fun _ ↦ pure ()
      throw e
  let _ ← enqueueOtpRequested env (otpPayload normalizedPhone otp) userId otpCodeId
    (otpNotificationDedupeKey requestKeyHash)
  let requestCompletedAt ← run (.host .now)
  run (.otpCode (.complete otpCodeId requestCompletedAt))
  pure (buildOtpRequestResponse env developmentOtp)

/-- Draw a code, store its row and publish it. A row of the same key that got there first is
replayed. -/
def createOtpCode (normalizedPhone : String) (ip : Option String) (deviceHash : Option Digest)
    (requestKeyHash : Digest) (userId : ℕ) : Call RequestOtpResponse := do
  let otp ← run (.host .generateOtp)
  let codeHash ← run (.host (.bcryptHash otp))
  let now ← run (.host .now)
  let expiresAt := now + OTP_LIFETIME_MS
  let developmentOtp := if env.config.DEV_EXPOSE_OTP then some otp else none
  let created ← tryCatch
    (do
      let otpCodeId ← run (.otpCode (.create
        ⟨userId, codeHash, requestKeyHash, developmentOtp, expiresAt⟩))
      pure (Sum.inl otpCodeId))
    fun e ↦ do
      if e = .statement .uniqueViolation then
        match ← replayOtpRequest env requestKeyHash normalizedPhone with
        | some replay => pure (Sum.inr replay)
        | none => throw e
      else throw e
  match created with
  | .inr replay => pure replay
  | .inl otpCodeId =>
    publishOtpCode env normalizedPhone ip deviceHash requestKeyHash userId otpCodeId otp
      developmentOtp

/-- The checks a request for a new code has to pass: the hourly limit of the phone and the
cooldown, then the code itself. -/
def issueOtpCode (normalizedPhone : String) (ip : Option String) (deviceHash : Option Digest)
    (requestKeyHash : Digest) (oneHourAgo : ℤ) : Call RequestOtpResponse := do
  let recent ← run (.otpCode (.countSince normalizedPhone oneHourAgo))
  if env.config.otpRequestLimitPerHour ≤ recent then
    recordEvent ⟨.otpRequestRateLimited, normalizedPhone, ip, deviceHash, none⟩
    throw (.tooManyRequests "Too many OTP requests. Try again later.")
  else
    let user ← run (.user (.upsert normalizedPhone))
    let now ← run (.host .now)
    match ← run (.otpCode (.findLatestAfter user.id
        (now - (env.config.otpResendCooldownMs : ℤ)))) with
    | some latestOtp =>
      if latestOtp.row.requestKeyHash = requestKeyHash then
        if latestOtp.row.requestCompletedAt.isSome then
          pure (buildOtpRequestResponse env latestOtp.row.developmentOtp)
        else throw STILL_PROCESSING
      else
        recordEvent ⟨.otpResendBlocked, normalizedPhone, ip, deviceHash, some latestOtp.id⟩
        throw (.tooManyRequests "Please wait before requesting another OTP.")
    | none => createOtpCode env normalizedPhone ip deviceHash requestKeyHash user.id

/-- The idempotency key of a context, normalised, if it is a UUIDv4. -/
def idempotencyKeyOf (key : String) : Except Failure String :=
  if isUuidV4 (normalizeIdempotencyKey key).toList then .ok (normalizeIdempotencyKey key)
  else .error INVALID_IDEMPOTENCY_KEY

/-- `requestOtp` -/
def requestOtp (phone countryIso : String) (context : OtpRequestContext) :
    Call RequestOtpResponse := do
  let country ← requireAuthCountry env countryIso
  let normalizedPhone ← lift (normalizePhoneNumber env phone country)
  let idempotencyKey ← lift (idempotencyKeyOf context.idempotencyKey)
  let requestKeyHash := env.crypto.sha256 idempotencyKey
  match ← replayOtpRequest env requestKeyHash normalizedPhone with
  | some replay => pure replay
  | none =>
    let deviceHash ← lift (hashDeviceIdentifier env context.deviceId)
    let now ← run (.host .now)
    let oneHourAgo := now - ONE_HOUR_MS
    let ip := context.ip.filter (· ≠ "")
    let limited : NewAuthEvent := ⟨.otpRequestRateLimited, normalizedPhone, ip, deviceHash, none⟩
    present ip fun ip ↦
      checkRequestLimit env.config.otpRequestLimitPerIpPerHour oneHourAgo (some ip) none limited
        "Too many OTP requests from this network. Try again later."
    present deviceHash fun deviceHash ↦
      checkRequestLimit env.config.otpRequestLimitPerDevicePerHour oneHourAgo none
        (some deviceHash) limited "Too many OTP requests from this device. Try again later."
    issueOtpCode env normalizedPhone ip deviceHash requestKeyHash oneHourAgo

/-! ### Verifying an OTP -/

/-- The rejections of a verification: a wrong code, -/
def INVALID_PHONE_OR_CODE : Failure := .badRequest "Invalid phone or code"

/-- no live code, -/
def OTP_EXPIRED : Failure := .badRequest "OTP expired or not found"

/-- a key of another verification, -/
def ALREADY_USED : Failure :=
  .conflict "Idempotency-Key was already used for another OTP verification."

/-- a replay that comes too late, -/
def REPLAY_WINDOW_EXPIRED : Failure := .conflict "The OTP verification replay window has expired."

/-- a stored response that does not open, -/
def UNABLE_TO_DECRYPT : Failure := .error "Unable to decrypt OTP verification response"

/-- and a code that is locked. -/
def TOO_MANY_ATTEMPTS : Failure :=
  .tooManyRequests "Too many invalid OTP attempts. Request a new code."

/-- The secret under which responses are stored; it must be configured. -/
def otpVerificationEncryptionKey : Except Failure String :=
  match env.config.AUTH_OTP_VERIFICATION_ENCRYPTION_KEY with
  | some secret =>
    if secret = "" then .error (.error "OTP verification encryption key is not configured")
    else .ok secret
  | none => .error (.error "OTP verification encryption key is not configured")

/-- A verification as the replay of it is looked up: the secret, the digests of the idempotency
key and of the request, the phone and the code. -/
structure VerificationRequest where
  secret : String
  verificationKeyHash : Digest
  verificationRequestHash : Digest
  normalizedPhone : String
  otp : String

/-- `encryptOtpVerificationResponse` -/
def encryptOtpVerificationResponse (v : VerificationRequest) (response : VerifyOtpResponse) :
    Call ResponseJson := do
  let iv ← run (.host .randomBytes)
  let (ciphertext, tag) := env.crypto.sealResponse v.secret iv
    (v.verificationKeyHash, v.verificationRequestHash) response
  pure (.envelope ENVELOPE_VERSION iv tag ciphertext)

/-- `decryptOtpVerificationResponse` -/
def decryptOtpVerificationResponse (v : VerificationRequest) :
    ResponseJson → Except Failure VerifyOtpResponse
  | .envelope version iv tag ciphertext =>
    if version ≠ ENVELOPE_VERSION then .error UNABLE_TO_DECRYPT
    else
      match env.crypto.openResponse v.secret iv
        (v.verificationKeyHash, v.verificationRequestHash) ciphertext tag with
      | some response =>
        if 0 < response.expiresIn ∧ response.expiresIn ≤ MAX_SAFE_INTEGER then .ok response
        else .error UNABLE_TO_DECRYPT
      | none => .error UNABLE_TO_DECRYPT
  | .other _ => .error UNABLE_TO_DECRYPT

/-- The stored response, unless it is missing or empty. -/
def storedResponse (row : OtpCode) : Option ResponseJson :=
  row.verificationResponseJson.filter (· ≠ .other "")

/-- Answer a verification that was already made from the row it was made with. -/
def replayFrom (v : VerificationRequest) (existing : Keyed OtpCode) (phone : String) :
    Call VerifyOtpResponse := do
  if phone ≠ v.normalizedPhone then throw ALREADY_USED
  else if existing.row.verificationRequestHash ≠ some v.verificationRequestHash then
    throw ALREADY_USED
  else if ← run (.host (.bcryptCompare existing.id v.otp existing.row.codeHash)) then
    match existing.row.verifiedAt, storedResponse existing.row with
    | some verifiedAt, some verificationResponseJson =>
      let now ← run (.host .now)
      if OTP_VERIFICATION_REPLAY_WINDOW_MS < now - verifiedAt then throw REPLAY_WINDOW_EXPIRED
      else lift (decryptOtpVerificationResponse env v verificationResponseJson)
    | _, _ => throw REPLAY_WINDOW_EXPIRED
  else throw ALREADY_USED

/-- `replayOtpVerification`: the answer for a key that has been used, if it has been. -/
def replayOtpVerification (v : VerificationRequest) : Call (Option VerifyOtpResponse) := do
  match ← run (.otpCode (.findByVerificationKey v.verificationKeyHash)) with
  | none => pure none
  | some (existing, phone) => pure (some (← replayFrom env v existing phone))

/-- Reject a verification when a network or a device has failed too often of late. -/
def checkVerifyFailureLimit (limit : ℕ) (ip : Option String) (deviceHash : Option Digest)
    (locked : NewAuthEvent) (message : String) : Call Unit := do
  let now ← run (.host .now)
  let recent ← run (.authEvent (.countSince [.otpVerifyFailed, .otpVerifyLocked]
    (now - (env.config.otpVerifyFailureWindowMs : ℤ)) ip deviceHash))
  if limit ≤ recent then
    recordEvent locked
    throw (.tooManyRequests message)

/-- An access token, as its number. -/
def signAccessToken (userId : ℕ) (phone : String) : Call ℕ := do
  let _ ← lift (parseDurationToSeconds env.config.accessTokenExpiresIn)
  run (.host (.signAccessToken userId phone))

/-- Insert a refresh token; its number. -/
def createRefreshTokenRow (userId familyId : ℕ) (deviceHash : Option Digest)
    (familyCreatedAt : ℤ) (rawToken : ℕ) : Call ℕ := do
  let now ← run (.host .now)
  let lifetime ← lift (parseDurationToMs env.config.refreshTokenExpiresIn)
  run (.refreshToken (.create
    ⟨userId, env.crypto.hashRefreshToken rawToken, familyId, familyCreatedAt, deviceHash,
      now + (lifetime : ℤ)⟩))

/-- `refreshToken.updateMany` of the unrevoked tokens of a scope, inside a transaction. -/
def revokeUnrevoked (scope : RevokeWhere) (revokedAt : ℤ) : Call ℕ := do
  let found ← run (.refreshToken (.findUnrevoked scope))
  run (.refreshToken (.revoke found scope revokedAt))

/-- Revoke what is live of a family of the user, inside a transaction. -/
def revokeFamilyOf (userId familyId : ℕ) : Call Unit := do
  let revokedAt ← run (.host .now)
  let _ ← revokeUnrevoked ⟨some userId, some familyId⟩ revokedAt
  pure ()

/-- `retireLiveOtpsForUser`, and the same inside a transaction. -/
def retireLiveOtps (tx : Bool) (userId : ℕ) (consumedAt : ℤ) : Call ℕ := do
  let found ← run (.otpCode (.findUnconsumed tx userId))
  run (.otpCode (.retireLive tx found userId consumedAt))

/-- The families in the order in which they are evicted: the oldest first. -/
def oldestFirst (liveFamilies : List (ℕ × Option ℤ)) : List (ℕ × Option ℤ) :=
  liveFamilies.insertionSort fun a b ↦ a.2.getD 0 ≤ b.2.getD 0

/-- Keep the live families of a user within the limit: a sign-in on the same device replaces that
device's family, and at the limit the oldest families give way. -/
def prepareRefreshFamilySlot (userId : ℕ) (deviceHash : Option Digest) : Call Unit := do
  present deviceHash fun deviceHash ↦ do
    let sameDeviceFamilies ← run (.refreshToken (.familiesOfDevice userId deviceHash))
    Prog.forEach sameDeviceFamilies fun familyId ↦ revokeFamilyOf userId familyId
  let liveFamilies ← run (.refreshToken (.liveFamilies userId))
  let overflow := liveFamilies.length - (env.config.maxRefreshFamiliesPerUser - 1)
  Prog.forEach ((oldestFirst liveFamilies).take overflow) fun family ↦
    revokeFamilyOf userId family.1

/-- What a successful verification issues a session for. -/
structure VerifiedSession where
  user : Keyed User
  record : Keyed OtpCode
  ip : Option String
  deviceHash : Option Digest
  verification : VerificationRequest

/-- The transaction of `issueVerifiedSession`. -/
def verifiedSessionBody (input : VerifiedSession) (familyId : ℕ) (familyCreatedAt : ℤ)
    (rawRefreshToken : ℕ) (consumedAt : ℤ) : Call VerifyOtpResponse := do
  let v := input.verification
  if ← run (.otpCode (.consume input.record.id consumedAt)) then
    let _ ← retireLiveOtps true input.user.id consumedAt
    run (.authEvent (.create true
      ⟨.otpVerifySucceeded, v.normalizedPhone, input.ip, input.deviceHash, some input.record.id⟩))
    run (.lockRefreshUser input.user.id)
    prepareRefreshFamilySlot env input.user.id input.deviceHash
    let _ ← createRefreshTokenRow env input.user.id familyId input.deviceHash familyCreatedAt
      rawRefreshToken
    let token ← signAccessToken env input.user.id input.user.row.phone
    let expiresIn ← lift (parseDurationToSeconds env.config.accessTokenExpiresIn)
    let response : VerifyOtpResponse := ⟨token, rawRefreshToken, expiresIn⟩
    let verificationResponseJson ← encryptOtpVerificationResponse env v response
    run (.otpCode (.storeVerification input.record.id
      ⟨v.verificationKeyHash, v.verificationRequestHash, verificationResponseJson, consumedAt⟩))
    pure response
  else throw OTP_EXPIRED

/-- `issueVerifiedSession`: a transaction that fails is looked for among the replays. -/
def issueVerifiedSession (input : VerifiedSession) : Call VerifyOtpResponse := do
  let familyId ← run (.host .randomUUID)
  let familyCreatedAt ← run (.host .now)
  let rawRefreshToken ← run (.host .generateRefreshToken)
  let consumedAt ← run (.host .now)
  tryCatch
    (transaction
      (verifiedSessionBody env input familyId familyCreatedAt rawRefreshToken consumedAt))
    fun e ↦ do
      match ← replayOtpVerification env input.verification with
      | some replay => pure replay
      | none => throw e

/-- Count a wrong code against its row. The last one permitted locks the row, and retires what
else is live of the user. -/
def recordWrongCode (user : Keyed User) (record : Keyed OtpCode) (normalizedPhone : String)
    (ip : Option String) (deviceHash : Option Digest) : Call VerifyOtpResponse := do
  let verifyAttempts := record.row.verifyAttempts + 1
  if env.config.otpMaxVerifyAttempts ≤ verifyAttempts then
    let lockConsumedAt ← run (.host .now)
    run (.otpCode (.recordAttempt record.id verifyAttempts (some lockConsumedAt)))
    let _ ← retireLiveOtps false user.id lockConsumedAt
    recordEvent ⟨.otpVerifyLocked, normalizedPhone, ip, deviceHash, some record.id⟩
    throw TOO_MANY_ATTEMPTS
  else
    run (.otpCode (.recordAttempt record.id verifyAttempts none))
    recordEvent ⟨.otpVerifyFailed, normalizedPhone, ip, deviceHash, some record.id⟩
    throw INVALID_PHONE_OR_CODE

/-- Verify a code against the latest live row of its user. -/
def verifyLiveOtp (v : VerificationRequest) (ip : Option String) (deviceHash : Option Digest) :
    Call VerifyOtpResponse := do
  match ← run (.user (.findByPhone v.normalizedPhone)) with
  | none => throw INVALID_PHONE_OR_CODE
  | some user =>
    let now ← run (.host .now)
    match ← run (.otpCode (.findLive user.id now)) with
    | none =>
      -- The winning verification can commit after the first lookup of the key, so look again.
      match ← replayOtpVerification env v with
      | some concurrentReplay => pure concurrentReplay
      | none => throw OTP_EXPIRED
    | some record =>
      if env.config.otpMaxVerifyAttempts ≤ record.row.verifyAttempts then
        recordEvent ⟨.otpVerifyLocked, v.normalizedPhone, ip, deviceHash, some record.id⟩
        throw TOO_MANY_ATTEMPTS
      else if ← run (.host (.bcryptCompare record.id v.otp record.row.codeHash)) then
        issueVerifiedSession env ⟨user, record, ip, deviceHash, v⟩
      else recordWrongCode env user record v.normalizedPhone ip deviceHash

/-- The idempotency key of a verification: the one of the context, or a new one. -/
def verificationKey (context : OtpVerificationContext) : Call String :=
  match context.idempotencyKey with
  | some key => pure key
  | none => do
    let uuid ← run (.host .randomUUID)
    pure (env.crypto.uuidText uuid)

/-- `verifyOtp` -/
def verifyOtp (phone countryIso otp : String) (context : OtpVerificationContext) :
    Call VerifyOtpResponse := do
  let country ← requireAuthCountry env countryIso
  let normalizedPhone ← lift (normalizePhoneNumber env phone country)
  let deviceHash ← lift (hashDeviceIdentifier env context.deviceId)
  let key ← verificationKey env context
  let idempotencyKey ← lift (idempotencyKeyOf key)
  let secret ← lift (otpVerificationEncryptionKey env)
  let v : VerificationRequest :=
    ⟨secret, env.crypto.sha256 idempotencyKey, env.crypto.hmacRequest secret deviceHash,
      normalizedPhone, otp⟩
  match ← replayOtpVerification env v with
  | some replay => pure replay
  | none =>
    let ip := context.ip.filter (· ≠ "")
    let locked : NewAuthEvent := ⟨.otpVerifyLocked, normalizedPhone, ip, deviceHash, none⟩
    present ip fun ip ↦
      checkVerifyFailureLimit env env.config.otpVerifyFailureLimitPerIpWindow (some ip) none locked
        "Too many invalid OTP attempts from this network. Try again later."
    present deviceHash fun deviceHash ↦
      checkVerifyFailureLimit env env.config.otpVerifyFailureLimitPerDeviceWindow none
        (some deviceHash) locked
        "Too many invalid OTP attempts from this device. Try again later."
    verifyLiveOtp env v ip deviceHash

/-! ### Refreshing and revoking sessions -/

/-- The one rejection of refreshes, whatever the reason. -/
def INVALID_REFRESH_TOKEN : Failure := .unauthorized "Invalid refresh token"

/-- `revokeRefreshTokens`: revoke what is live within the scope, under the lock of the user. -/
def revokeRefreshTokens (userId : ℕ) (scope : RevokeWhere) : Call ℕ :=
  transaction do
    run (.lockRefreshUser userId)
    let revokedAt ← run (.host .now)
    revokeUnrevoked scope revokedAt

/-- `revokeRefreshFamily` -/
def revokeRefreshFamily (familyId userId : ℕ) : Call ℕ :=
  revokeRefreshTokens userId ⟨none, some familyId⟩

/-- The transaction of `refreshSession`: claim the token, and replace it. -/
def rotateBody (existing : Keyed RefreshToken) (phone : String) (familyMaxAgeMs : ℕ)
    (deviceHash : Option Digest) : Call (Option VerifyOtpResponse) := do
  run (.lockRefreshUser existing.row.userId)
  let now ← run (.host .now)
  if ← run (.refreshToken (.claim existing.id now (now - (familyMaxAgeMs : ℤ)))) then
    let rawToken ← run (.host .generateRefreshToken)
    let created ← createRefreshTokenRow env existing.row.userId existing.row.familyId
      (deviceHash.orElse fun _ ↦ existing.row.deviceHash) existing.row.familyCreatedAt rawToken
    run (.refreshToken (.link existing.id created))
    let token ← signAccessToken env existing.row.userId phone
    let expiresIn ← lift (parseDurationToSeconds env.config.accessTokenExpiresIn)
    pure (some ⟨token, rawToken, expiresIn⟩)
  else pure none

/-- Replace a token that was live when it was read. A token another call got to first is a reused
one. -/
def rotate (tokenHash : Digest) (existing : Keyed RefreshToken) (phone : String)
    (familyMaxAgeMs : ℕ) (deviceHash : Option Digest) : Call VerifyOtpResponse := do
  match ← transaction (rotateBody env existing phone familyMaxAgeMs deviceHash) with
  | some session => pure session
  | none =>
    match ← run (.refreshToken (.findByHash tokenHash)) with
    | some (current, _) =>
      if current.row.revokedAt.isSome then
        let _ ← revokeRefreshFamily existing.row.familyId existing.row.userId
        throw INVALID_REFRESH_TOKEN
      else throw INVALID_REFRESH_TOKEN
    | none => throw INVALID_REFRESH_TOKEN

/-- Whether the device of the call may use the token. -/
def deviceMayUse (deviceHash : Option Digest) (existing : RefreshToken) : Bool :=
  existing.deviceHash.isNone || deviceHash = existing.deviceHash

/-- `refreshSession` -/
def refreshSession (refreshToken : ℕ) (context : AuthRequestContext) :
    Call VerifyOtpResponse := do
  let tokenHash := env.crypto.hashRefreshToken refreshToken
  match ← run (.refreshToken (.findByHash tokenHash)) with
  | none => throw INVALID_REFRESH_TOKEN
  | some (existing, phone) =>
    if existing.row.revokedAt.isSome then
      let _ ← revokeRefreshFamily existing.row.familyId existing.row.userId
      throw INVALID_REFRESH_TOKEN
    else
      let now ← run (.host .now)
      if existing.row.expiresAt ≤ now then
        let revokedAt ← run (.host .now)
        run (.refreshToken (.expire existing.id revokedAt))
        throw INVALID_REFRESH_TOKEN
      else
        let familyMaxAgeMs ← lift (parseDurationToMs env.config.refreshFamilyMaxAge)
        let now ← run (.host .now)
        if existing.row.familyCreatedAt + (familyMaxAgeMs : ℤ) ≤ now then
          let _ ← revokeRefreshFamily existing.row.familyId existing.row.userId
          throw INVALID_REFRESH_TOKEN
        else
          let deviceHash ← lift (hashDeviceIdentifier env context.deviceId)
          if deviceMayUse deviceHash existing.row then
            rotate env tokenHash existing phone familyMaxAgeMs deviceHash
          else throw INVALID_REFRESH_TOKEN

/-- The credentials a logout brings. -/
structure RevokeSessionInput where
  refreshToken : Option ℕ := none
  accessToken : Option ℕ := none
  allDevices : Bool := false

/-- `jwt.verifyAsync` with its error caught: whether it verified, and the subject. -/
def verifiedSubject (accessToken : ℕ) : Call (Option ℕ) :=
  tryCatch (run (.host (.verifyAccessToken accessToken))) fun _ ↦ pure none

/-- The configured signing secret, unless it is empty. -/
def jwtSecret : Option String := env.config.JWT_SECRET.filter (· ≠ "")

/-- The user of the refresh token a logout brings. -/
def userOfRefreshToken (refreshToken : Option ℕ) : Call (Option ℕ) :=
  match refreshToken with
  | some token => do
    let existing ← run (.refreshToken (.findByHash (env.crypto.hashRefreshToken token)))
    pure (existing.map fun r ↦ r.1.row.userId)
  | none => pure none

/-- Whose sessions a logout of all devices ends. -/
def resolveUserIdForLogout (input : RevokeSessionInput) : Call (Option ℕ) :=
  match input.accessToken with
  | some accessToken =>
    if (jwtSecret env).isNone then pure none
    else do
      match ← verifiedSubject accessToken with
      | some userId => pure (some userId)
      | none => userOfRefreshToken env input.refreshToken
  | none => userOfRefreshToken env input.refreshToken

/-- Log out. The answer is `{ ok: true }` unless no credential is given or a statement fails. -/
def revokeSession (input : RevokeSessionInput) : Call Unit := do
  if input.allDevices then
    match ← resolveUserIdForLogout env input with
    | some userId =>
      let _ ← revokeRefreshTokens userId ⟨some userId, none⟩
      pure ()
    | none => pure ()
  else
    match input.refreshToken, input.accessToken with
    | some token, _ =>
      match ← run (.refreshToken (.findByHash (env.crypto.hashRefreshToken token))) with
      | some (existing, _) =>
        let _ ← revokeRefreshFamily existing.row.familyId existing.row.userId
        pure ()
      | none => pure ()
    | none, some accessToken =>
      if (jwtSecret env).isSome then
        let _ ← verifiedSubject accessToken
        pure ()
    | none, none => throw (.unauthorized "Missing session credential")

end Stead
