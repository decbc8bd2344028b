import Mathlib.Data.List.Basic
import Stead.Envelopes.RoundTrip
import Stead.Node.Observations

/-!
# What is read of stored envelopes

The texts here are any texts, and the log is what has been encrypted.

## Genuine envelopes

An envelope that opens and is no forgery was sealed with the data it opens with, none for a payload
and the two hashes for a response, so that the two kinds are never mistaken for each other
(`associatedData_ne_nil`), nor the hashes (`associatedData_inj`). The assumption is made of each
text under the key that it is opened with; what an encoder has written satisfies it
(`genuinePayload_encryptPayload`, `genuineResponse_encryptOtpVerificationResponse`).

That no two secrets of the log derive one key is assumed as well (`DistinctKey`): a digest has
collisions, but nobody has stored two of them.

## What is not read

A text that is neither redacted nor a plain payload nor an envelope that opens fails its job
(`claimLocked_cases`): the attempt is counted and the error kept. There is no fourth case, and in
particular a text that is no JSON at all fails in the same way.

## The example

A platform that knows a handful of texts, keys and sealings (`Node.Observations`), with the values
that the real one has for them, and one envelope of each kind. The envelope of the payload without
its tag is the text that is not read.
-/

namespace Stead

open Node

namespace Envelopes

variable {node : Runtime}

section Forms

variable {secret : Option JsString} {text : JsString} {delivered : Json}

/-! ### Which payloads are delivered -/

/-- The marker of a redacted payload. -/
def RedactedForm (node : Runtime) (text : JsString) : Prop :=
  ∃ stored, node.parse text = some stored ∧ isRedacted stored = true

/-- A payload that is not encrypted. -/
def PlainForm (node : Runtime) (text : JsString) (payload : Json) : Prop :=
  node.parse text = some payload ∧ isNotificationPayload payload = true

/-- The parts are those of a payload that was sealed: its vector and its ciphertext, and a tag that
the cipher takes for them. (The platform takes a tag that is cut short, too.) -/
structure PartsOf (node : Runtime) (parts : Parts) (s : Sealing) : Prop where
  iv : parts.iv = s.iv
  ciphertext : parts.ciphertext = (node.aes256gcm.encrypt s).1
  tag : node.aes256gcm.decrypt s.key s.associated parts = some s.plaintext

/-- An envelope of a payload that was enqueued. -/
def EnvelopeOf (node : Runtime) (log : List Encryption) (text : JsString)
    (payload : NotificationPayload) : Prop :=
  ∃ parts key iv, payloadParts node text = some parts ∧ .notification key iv payload ∈ log ∧
    PartsOf node parts (payloadSealing node key iv payload)

/-- What opens was decrypted under the configured key and parsed. -/
theorem openEnvelope_eq_ok {parts : Parts} (h : openEnvelope node secret parts = .ok delivered) :
    ∃ key plaintext, encryptionKey node secret = .ok key ∧
      node.aes256gcm.decrypt key [] parts = some plaintext ∧
      node.parse (node.ofUtf8 plaintext) = some delivered := by
  unfold openEnvelope at h
  split at h
  · cases h
  · next key hkey =>
    split at h
    · next payload hpayload =>
      obtain ⟨plaintext, hopen, hparse⟩ := Option.bind_eq_some_iff.1 hpayload
      split at h
      · obtain rfl := Except.ok.inj h
        exact ⟨key, plaintext, hkey, hopen, hparse⟩
      · cases h
    · cases h

/-- The forms are told apart in their order. -/
theorem decryptPayload_eq_ok (h : decryptPayload node secret text = .ok delivered) :
    (RedactedForm node text ∧ delivered = REDACTED_PAYLOAD) ∨ PlainForm node text delivered ∨
      ∃ parts, payloadParts node text = some parts ∧
        openEnvelope node secret parts = .ok delivered := by
  unfold decryptPayload at h
  split at h
  · cases h
  · cases h
  · next stored _ hparse =>
    split at h
    · next hredacted => exact .inl ⟨⟨stored, hparse, hredacted⟩, (Except.ok.inj h).symm⟩
    · split at h
      · next hplain =>
        obtain rfl := Except.ok.inj h
        exact .inr (.inl ⟨hparse, hplain⟩)
      · split at h
        · cases h
        · next parts hparts =>
          refine .inr (.inr ⟨parts, ?_, h⟩)
          rw [payloadParts, hparse]
          exact hparts

end Forms

/-! ### Associated data -/

section Associated

variable {keyHash keyHash' requestHash requestHash' : HexDigest}

/-- The test of each unit of a text. -/
theorem forall_of_all {text : JsString} {p : UInt16 → Prop} [DecidablePred p]
    (h : (text.all fun u ↦ p u) = true) : ∀ u ∈ text, p u :=
  fun u hu ↦ of_decide_eq_true (List.all_eq_true.1 h u hu)

theorem HexDigest.ascii (digest : HexDigest) : ∀ u ∈ digest.text, u < 128 := by
  have hdigits : ∀ u ∈ js "0123456789abcdef", u < 128 := forall_of_all (by decide)
  exact fun u hu ↦ hdigits u (digest.hex u hu)

theorem HexDigest.not_mem_colon (digest : HexDigest) : 58 ∉ digest.text := fun h ↦ by
  have hcolon : (58 : UInt16) ∉ js "0123456789abcdef" := by decide
  exact hcolon (digest.hex 58 h)

theorem ascii_joined (keyHash requestHash : HexDigest) :
    ∀ u ∈ keyHash.text ++ 58 :: requestHash.text, u < 128 := by
  intro u hu
  rcases List.mem_append.1 hu with hu | hu
  · exact keyHash.ascii u hu
  · rcases List.mem_cons.1 hu with rfl | hu
    · decide
    · exact requestHash.ascii u hu

theorem associatedData_eq (h : node.Lawful) (keyHash requestHash : HexDigest) :
    associatedData node keyHash requestHash =
      (keyHash.text ++ 58 :: requestHash.text).map UInt16.toUInt8 := by
  have hcolon : js ":" = [58] := by decide
  rw [associatedData, hcolon, List.append_assoc, List.singleton_append,
    h.utf8_ascii _ (ascii_joined keyHash requestHash)]

/-- A response has associated data, and a payload has none. -/
theorem associatedData_ne_nil (h : node.Lawful) : associatedData node keyHash requestHash ≠ [] := by
  rw [associatedData_eq h]
  simp

/-- The two hashes can be told from the data. -/
theorem associatedData_inj (h : node.Lawful) (heq : associatedData node keyHash requestHash =
    associatedData node keyHash' requestHash') : keyHash = keyHash' ∧ requestHash = requestHash' := by
  rw [associatedData_eq h, associatedData_eq h] at heq
  have htext := congrArg (List.map UInt8.toUInt16) heq
  rw [toUInt16_toUInt8 (ascii_joined keyHash requestHash),
    toUInt16_toUInt8 (ascii_joined keyHash' requestHash')] at htext
  -- Digits are no colons, so that there is one in each text.
  obtain ⟨hkeyHash, -, hrequestHash⟩ := (List.append_cons_inj_of_notMem
    keyHash.not_mem_colon requestHash.not_mem_colon).1 htext
  exact ⟨HexDigest.ext hkeyHash, HexDigest.ext hrequestHash⟩

end Associated

/-! ### Notifications are delivered as they were enqueued -/

section Claim

variable {log : List Encryption} {secret : Option JsString} {now later : ℤ} {job : StoredJob}

/-- Opening the payload that is stored is no forgery. -/
def GenuinePayload (node : Runtime) (log : List Encryption) (secret : Option JsString)
    (text : JsString) : Prop :=
  ∀ key parts, encryptionKey node secret = .ok key → payloadParts node text = some parts →
    node.aes256gcm.Genuine (log.map (Encryption.sealing node)) key [] parts

/-- What has been enqueued is no forgery. -/
theorem genuinePayload_encryptPayload (h : node.Lawful) {iv : Iv} {payload : NotificationPayload}
    {text : JsString} (henqueue : encryptPayload node secret iv payload = .ok text)
    (hlog : ∀ key, encryptionKey node secret = .ok key → .notification key iv payload ∈ log) :
    GenuinePayload node log secret text := by
  intro key parts hkey hparts
  obtain ⟨key', hkey', rfl⟩ := encryptPayload_eq_ok henqueue
  obtain rfl := Except.ok.inj (hkey.symm.trans hkey')
  obtain rfl := Option.some.inj
    (hparts.symm.trans (bind_parse_envelope h h.ofBase64_base64 (.inl rfl)))
  exact h.aes256gcm.genuine (length_encryptionKey h hkey) iv.2
    (List.mem_map.2 ⟨_, hlog key hkey, rfl⟩)

/-- What opens without associated data is a payload. -/
theorem payload_of_genuine (h : node.Lawful) {key plaintext : Bytes} {parts : Parts}
    (hgenuine : node.aes256gcm.Genuine (log.map (Encryption.sealing node)) key [] parts)
    (hopen : node.aes256gcm.decrypt key [] parts = some plaintext) :
    ∃ iv payload, .notification key iv payload ∈ log ∧
      PartsOf node parts (payloadSealing node key iv payload) ∧
      plaintext = node.utf8 (node.stringify payload.json) := by
  obtain ⟨s, hs, heq, hciphertext⟩ := hgenuine plaintext hopen
  obtain ⟨e, he, rfl⟩ := List.mem_map.1 hs
  cases e with
  | notification key' iv payload =>
    obtain ⟨rfl, hiv, -, rfl⟩ := Sealing.mk.inj heq
    exact ⟨iv, payload, he, ⟨hiv.symm, hciphertext.symm, hopen⟩, rfl⟩
  | response secret keyHash requestHash iv answer =>
    obtain ⟨-, -, hassociated, -⟩ := Sealing.mk.inj heq
    exact absurd hassociated (associatedData_ne_nil h)

/-- The payload of an envelope that opens. -/
theorem openEnvelope_genuine (h : node.Lawful) {text : JsString} {parts : Parts} {delivered : Json}
    (hgenuine : GenuinePayload node log secret text) (hparts : payloadParts node text = some parts)
    (hopen : openEnvelope node secret parts = .ok delivered) :
    ∃ payload, EnvelopeOf node log text payload ∧ delivered = payload.json := by
  obtain ⟨key, plaintext, hkey, hplaintext, hparse⟩ := openEnvelope_eq_ok hopen
  obtain ⟨iv, payload, hlog, hpartsOf, rfl⟩ :=
    payload_of_genuine h (hgenuine key parts hkey hparts) hplaintext
  rw [h.parse_ofUtf8 payload.plain] at hparse
  exact ⟨payload, ⟨parts, key, iv, hparts, hlog, hpartsOf⟩, (Option.some.inj hparse).symm⟩

/-- **A claim hands over the payload** that was enqueued. -/
theorem claimLocked_encryptPayload (h : node.Lawful) {iv : Iv} {payload : NotificationPayload}
    (henqueue : encryptPayload node secret iv payload = .ok job.payloadJson) :
    claimLocked node secret now later job = (some payload.json, job) := by
  rw [claimLocked, decryptPayload_encryptPayload h henqueue]

/-- The claim has counted a failed attempt, and hands over nothing. -/
structure Failed (node : Runtime) (now later : ℤ) (job : StoredJob)
    (result : Option Json × StoredJob) : Prop where
  delivered : result.1 = none
  attempts : result.2.attempts = job.attempts + 1
  failureAttempts : result.2.failureAttempts =
    job.failureAttempts ++ [⟨job.attempts + 1, job.maxAttempts ≤ job.attempts + 1, now⟩]
  lockedAt : result.2.lockedAt = none

/-- A failure that is recorded is a failed attempt. -/
theorem failed_markFailed {error : ReadError} :
    Failed node now later job (none, markFailed node now later error job) :=
  ⟨rfl, rfl, rfl, rfl⟩

/-- **What a claim hands over** was enqueued, or is stored as it is. -/
theorem claimLocked_cases (h : node.Lawful)
    (hgenuine : GenuinePayload node log secret job.payloadJson) :
    Failed node now later job (claimLocked node secret now later job) ∨
    ∃ delivered, claimLocked node secret now later job = (some delivered, job) ∧
      ((RedactedForm node job.payloadJson ∧ delivered = REDACTED_PAYLOAD) ∨
        PlainForm node job.payloadJson delivered ∨
        ∃ payload, EnvelopeOf node log job.payloadJson payload ∧ delivered = payload.json) := by
  unfold claimLocked
  cases hread : decryptPayload node secret job.payloadJson with
  | error error => exact .inl failed_markFailed
  | ok delivered =>
    refine .inr ⟨delivered, rfl, ?_⟩
    rcases decryptPayload_eq_ok hread with hredacted | hplain | ⟨parts, hparts, hopen⟩
    · exact .inl hredacted
    · exact .inr (.inl hplain)
    · exact .inr (.inr (openEnvelope_genuine h hgenuine hparts hopen))

end Claim

/-! ### Responses are read as they were encrypted -/

section Responses

variable {log : List Encryption} {secret : JsString} {keyHash requestHash : HexDigest} {iv : Iv}
  {answer : VerifyOtpResponse} {text : JsString} {response : Json}

/-- Opening the response that is stored, under the secret and with the hashes, is no forgery. -/
def GenuineResponse (node : Runtime) (log : List Encryption) (secret : JsString)
    (keyHash requestHash : HexDigest) (text : JsString) : Prop :=
  ∀ parts, responseParts node text = some parts →
    node.aes256gcm.Genuine (log.map (Encryption.sealing node))
      (deriveKey node secret "response-encryption") (associatedData node keyHash requestHash) parts

/-- What has been encrypted is no forgery. -/
theorem genuineResponse_encryptOtpVerificationResponse (h : node.Lawful)
    (hlog : .response secret keyHash requestHash iv answer ∈ log) :
    GenuineResponse node log secret keyHash requestHash
      (encryptOtpVerificationResponse node secret keyHash requestHash iv answer) := by
  intro parts hparts
  obtain rfl := Option.some.inj
    (hparts.symm.trans (bind_parse_envelope h h.ofBase64url_base64url (.inr rfl)))
  exact h.aes256gcm.genuine (h.length_hmacSha256 _ _) iv.2 (List.mem_map.2 ⟨_, hlog, rfl⟩)

/-- No other secret of the log has the key that is derived from the secret. -/
def DistinctKey (node : Runtime) (log : List Encryption) (secret : JsString) : Prop :=
  ∀ secret' keyHash requestHash iv answer, .response secret' keyHash requestHash iv answer ∈ log →
    deriveKey node secret' "response-encryption" = deriveKey node secret "response-encryption" →
      secret' = secret

/-- What opens with the data of two hashes is a response under them. -/
theorem response_of_genuine (h : node.Lawful) {key plaintext : Bytes} {parts : Parts}
    (hgenuine : node.aes256gcm.Genuine (log.map (Encryption.sealing node)) key
      (associatedData node keyHash requestHash) parts)
    (hopen : node.aes256gcm.decrypt key (associatedData node keyHash requestHash) parts =
      some plaintext) :
    ∃ secret iv answer, .response secret keyHash requestHash iv answer ∈ log ∧
      deriveKey node secret "response-encryption" = key ∧
      plaintext = node.utf8 (node.stringify answer.json) := by
  obtain ⟨s, hs, heq, -⟩ := hgenuine plaintext hopen
  obtain ⟨e, he, rfl⟩ := List.mem_map.1 hs
  cases e with
  | notification key' iv payload =>
    obtain ⟨-, -, hassociated, -⟩ := Sealing.mk.inj heq
    exact absurd hassociated.symm (associatedData_ne_nil h)
  | response secret keyHash' requestHash' iv answer =>
    obtain ⟨hkey, -, hassociated, hplaintext⟩ := Sealing.mk.inj heq
    obtain ⟨rfl, rfl⟩ := associatedData_inj h hassociated
    exact ⟨secret, iv, answer, he, hkey, hplaintext.symm⟩

/-- What is read of a response was decrypted under its hashes and parsed. -/
theorem decryptOtpVerificationResponse_eq_some
    (hread : decryptOtpVerificationResponse node secret keyHash requestHash text = some response) :
    ∃ parts plaintext, responseParts node text = some parts ∧
      node.aes256gcm.decrypt (deriveKey node secret "response-encryption")
        (associatedData node keyHash requestHash) parts = some plaintext ∧
      node.parse (node.ofUtf8 plaintext) = some response := by
  simp only [decryptOtpVerificationResponse, Option.bind_eq_bind, Option.bind_eq_some_iff,
    Option.ite_none_right_eq_some] at hread
  obtain ⟨stored, hstored, parts, hparts, plaintext, hopen, response', hparse, -, hresponse⟩ := hread
  obtain rfl := Option.some.inj hresponse
  exact ⟨parts, plaintext, by rw [responseParts, hstored]; exact hparts, hopen, hparse⟩

/-- **What is read of a stored response** was encrypted with the same hashes under the derived
key. -/
theorem mem_of_decryptOtpVerificationResponse (h : node.Lawful)
    (hgenuine : GenuineResponse node log secret keyHash requestHash text)
    (hread : decryptOtpVerificationResponse node secret keyHash requestHash text = some response) :
    ∃ secret' iv answer, .response secret' keyHash requestHash iv answer ∈ log ∧
      deriveKey node secret' "response-encryption" = deriveKey node secret "response-encryption" ∧
      response = answer.json := by
  obtain ⟨parts, plaintext, hparts, hopen, hparse⟩ := decryptOtpVerificationResponse_eq_some hread
  obtain ⟨secret', iv, answer, hlog, hkey, rfl⟩ :=
    response_of_genuine h (hgenuine parts hparts) hopen
  rw [h.parse_ofUtf8 answer.plain] at hparse
  exact ⟨secret', iv, answer, hlog, hkey, (Option.some.inj hparse).symm⟩

end Responses

/-! ### Stored envelopes -/

/-- **Stored envelopes are read as they were written**, and nothing else is read from one. -/
theorem stored_envelopes (h : node.Lawful) :
    (∀ secret iv payload now later job,
      encryptPayload node secret iv payload = .ok job.payloadJson →
        claimLocked node secret now later job = (some payload.json, job)) ∧
    (∀ log secret now later job, GenuinePayload node log secret job.payloadJson →
      (¬∃ payload, EnvelopeOf node log job.payloadJson payload) →
      (¬∃ payload, PlainForm node job.payloadJson payload) →
      ¬RedactedForm node job.payloadJson →
        Failed node now later job (claimLocked node secret now later job)) ∧
    (∀ secret keyHash requestHash iv answer,
      isSafeInteger answer.expiresIn = true ∧ 0 < answer.expiresIn.1 →
        decryptOtpVerificationResponse node secret keyHash requestHash
          (encryptOtpVerificationResponse node secret keyHash requestHash iv answer) =
            some answer.json) ∧
    ∀ log secret keyHash requestHash text response,
      GenuineResponse node log secret keyHash requestHash text → DistinctKey node log secret →
      decryptOtpVerificationResponse node secret keyHash requestHash text = some response →
        ∃ iv answer, .response secret keyHash requestHash iv answer ∈ log ∧
          response = answer.json := by
  refine ⟨fun secret iv payload now later job ↦ claimLocked_encryptPayload h,
    fun log secret now later job hgenuine henvelope hplain hredacted ↦ ?_,
    fun secret keyHash requestHash iv answer ↦ decrypt_encryptOtpVerificationResponse h,
    fun log secret keyHash requestHash text response hgenuine hdistinct hread ↦ ?_⟩
  -- What is read has one of three forms, and each is excluded.
  · rcases claimLocked_cases h hgenuine with hfailed | ⟨delivered, -, hform⟩
    · exact hfailed
    · rcases hform with ⟨hform, -⟩ | hform | ⟨payload, hform, -⟩
      · exact absurd hform hredacted
      · exact absurd ⟨delivered, hform⟩ hplain
      · exact absurd ⟨payload, hform⟩ henvelope
  · obtain ⟨secret', iv, answer, hlog, hkey, rfl⟩ :=
      mem_of_decryptOtpVerificationResponse h hgenuine hread
    obtain rfl := hdistinct secret' keyHash requestHash iv answer hlog hkey
    exact ⟨iv, answer, hlog, rfl⟩

namespace Demo

/-! #### An observed platform -/

/-- The initialisation vector of both envelopes, -/
def iv : Iv := ⟨[0, 1, 2, 3, 4, 5, 6, 7, 8, 9, 10, 11], rfl⟩

/-- and its text. -/
def ivText : String := "AAECAwQFBgcICQoL"

/-- One is a double. -/
theorem round_version : Binary64.round (1 : ℤ) = (1 : ℤ) := Binary64.round_intCast (by decide)

/-- The version of the envelopes. -/
def version : JsString ⊕ Number := .inr ⟨(1 : ℤ), round_version⟩

/-- A code for a customer, -/
def payload : NotificationPayload := .otp (js "+1") (js "2")

/-- as the text that is sealed, -/
def payloadPlaintext : JsString := js "\x7b\"phone\":\"+1\",\"otp\":\"2\"\x7d"

/-- The digest of `k`. -/
def payloadKey : Bytes :=
  [130, 84, 195, 41, 169, 40, 80, 246, 213, 57, 221, 55, 111, 72, 22, 238, 39, 100, 81, 125, 165,
    224, 35, 85, 20, 175, 67, 49, 100, 72, 13, 122]

/-- with its tag, -/
def payloadTag : Bytes :=
  [184, 151, 241, 97, 219, 5, 148, 99, 140, 249, 132, 61, 146, 15, 109, 82]

/-- in base64, -/
def payloadTagText : String := "uJfxYdsFlGOM+YQ9kg9tUg=="

/-- and its ciphertext, -/
def payloadCiphertext : Bytes :=
  [150, 82, 175, 73, 169, 210, 182, 88, 166, 123, 126, 245, 21, 183, 226, 70, 12, 157, 41, 143, 62,
    158, 63, 149]

/-- in base64 as well: -/
def payloadCiphertextText : String := "llKvSanStlime371FbfiRgydKY8+nj+V"

/-- the text that is stored. -/
def payloadJson : JsString :=
  js ("\x7b\"v\":1,\"iv\":\"" ++ ivText ++ "\",\"authTag\":\"" ++ payloadTagText ++
    "\",\"ciphertext\":\"" ++ payloadCiphertextText ++ "\"\x7d")

/-- The envelope without its tag. -/
def truncatedJson : JsString :=
  js ("\x7b\"v\":1,\"iv\":\"" ++ ivText ++ "\",\"ciphertext\":\"" ++ payloadCiphertextText ++ "\"\x7d")

/-- The hash of an idempotency key -/
def keyHash : HexDigest := ⟨js "0a", forall_of_all (by decide)⟩

/-- and of a request. -/
def requestHash : HexDigest := ⟨js "0b", forall_of_all (by decide)⟩

/-- A response to it, -/
def response : VerifyOtpResponse :=
  ⟨js "a", js "b", ⟨(900 : ℤ), Binary64.round_intCast (by decide)⟩⟩

/-- as the text that is sealed, -/
def responsePlaintext : JsString :=
  js "\x7b\"token\":\"a\",\"refreshToken\":\"b\",\"expiresIn\":900\x7d"

/-- The key that is derived from `s`. -/
def responseKey : Bytes :=
  [116, 56, 226, 200, 71, 60, 25, 37, 33, 104, 142, 72, 186, 209, 120, 170, 214, 252, 18, 87, 103,
    91, 125, 137, 219, 183, 77, 220, 175, 115, 147, 125]

/-- with its tag, -/
def responseTag : Bytes := [45, 222, 231, 75, 105, 70, 101, 26, 124, 195, 193, 8, 240, 87, 214, 31]

/-- in base64url, -/
def responseTagText : String := "Ld7nS2lGZRp8w8EI8FfWHw"

/-- and its ciphertext, -/
def responseCiphertext : Bytes :=
  [111, 53, 10, 186, 113, 58, 97, 217, 53, 115, 153, 119, 147, 188, 234, 231, 175, 228, 180, 181,
    178, 236, 206, 218, 105, 201, 146, 181, 170, 113, 160, 123, 27, 54, 33, 228, 130, 63, 164, 85,
    213, 170, 59, 97, 36, 115, 34, 70]

/-- in base64url as well: -/
def responseCiphertextText : String :=
  "bzUKunE6Ydk1c5l3k7zq56_ktLWy7M7aacmStapxoHsbNiHkgj-kVdWqO2EkcyJG"

/-- the text that is stored. -/
def responseJson : JsString :=
  js ("\x7b\"v\":1,\"iv\":\"" ++ ivText ++ "\",\"tag\":\"" ++ responseTagText ++
    "\",\"ciphertext\":\"" ++ responseCiphertextText ++ "\"\x7d")

/-- The values and the texts that the platform knows. -/
def rows : List (Record × JsString) :=
  [(payload.json.record, payloadPlaintext),
    ([("v", version), ("iv", .inl (js ivText)), ("authTag", .inl (js payloadTagText)),
      ("ciphertext", .inl (js payloadCiphertextText))], payloadJson),
    ([("v", version), ("iv", .inl (js ivText)), ("ciphertext", .inl (js payloadCiphertextText))],
      truncatedJson),
    (response.json.record, responsePlaintext),
    ([("v", version), ("iv", .inl (js ivText)), ("tag", .inl (js responseTagText)),
      ("ciphertext", .inl (js responseCiphertextText))], responseJson)]

/-- What has been observed of the platform. -/
def observations : Observations where
  json :=
    { rows := rows
      nodup := by decide +kernel
      nonzero := by decide +kernel }
  base64 :=
    { rows :=
        [(iv, js ivText), (payloadTag, js payloadTagText),
          (payloadCiphertext, js payloadCiphertextText)]
      nodup := by decide +kernel
      nonzero := by decide +kernel }
  base64url :=
    { rows :=
        [(iv, js ivText), (responseTag, js responseTagText),
          (responseCiphertext, js responseCiphertextText)]
      nodup := by decide +kernel
      nonzero := by decide +kernel }
  sha256 := [([107], payloadKey)]
  hmacSha256 :=
    [(([115], (js "stead:otp-verification:response-encryption:v1").map UInt16.toUInt8), responseKey)]
  aes256gcm :=
    [(⟨payloadKey, iv, [], payloadPlaintext.map UInt16.toUInt8⟩, payloadCiphertext, payloadTag),
      (⟨responseKey, iv, (js "0a:0b").map UInt16.toUInt8, responsePlaintext.map UInt16.toUInt8⟩,
        responseCiphertext, responseTag)]
  ascii row hrow := by
    have hascii : (rows.all fun row ↦ row.2.all fun u ↦ u < 128) = true := by decide +kernel
    exact forall_of_all (List.all_eq_true.1 hascii row hrow)
  length_sha256 := by decide +kernel
  length_hmacSha256 := by decide +kernel
  nodup := by decide +kernel
  length_tag := by decide +kernel

/-- The two encryptions. -/
def log : List Encryption :=
  [.notification payloadKey iv payload, .response (js "s") keyHash requestHash iv response]

/-- A job in hand, with the text as its payload. -/
def job (payloadJson : JsString) : StoredJob :=
  ⟨payloadJson, .processing, 0, 3, 0, some 0, none, none, []⟩

theorem encryptPayload_payload :
    encryptPayload observations.runtime (some (js "k")) iv payload =
      .ok (job payloadJson).payloadJson := by
  decide +kernel

theorem encryptOtpVerificationResponse_response :
    encryptOtpVerificationResponse observations.runtime (js "s") keyHash requestHash iv response =
      responseJson := by
  decide +kernel

/-- The truncated envelope is a record, and none of the forms that are read. -/
theorem truncatedJson_tests :
    payloadParts observations.runtime (job truncatedJson).payloadJson = none ∧
    ((observations.runtime.parse (job truncatedJson).payloadJson).all fun stored ↦
      !isRedacted stored && !isNotificationPayload stored) = true := by
  decide +kernel

/-- No other secret of the log has the key of `s`. -/
theorem distinctKey : DistinctKey observations.runtime log (js "s") := by
  intro secret' keyHash requestHash iv answer hlog _
  simp only [log, List.mem_cons, List.not_mem_nil, or_false, reduceCtorEq, false_or] at hlog
  exact (Encryption.response.inj hlog).1

end Demo

/-- The envelope of the payload is read, the truncated one fails, and the response is read under its
hashes alone. -/
theorem stored_envelopes_observed :
    claimLocked Demo.observations.runtime (some (js "k")) 0 0 (Demo.job Demo.payloadJson) =
      (some Demo.payload.json, Demo.job Demo.payloadJson) ∧
    Failed Demo.observations.runtime 0 0 (Demo.job Demo.truncatedJson)
      (claimLocked Demo.observations.runtime (some (js "k")) 0 0 (Demo.job Demo.truncatedJson)) ∧
    decryptOtpVerificationResponse Demo.observations.runtime (js "s") Demo.keyHash Demo.requestHash
      Demo.responseJson = some Demo.response.json ∧
    ∃ iv answer, .response (js "s") Demo.keyHash Demo.requestHash iv answer ∈ Demo.log ∧
      Demo.response.json = answer.json := by
  obtain ⟨hclaim, hfail, hread, hwritten⟩ := stored_envelopes Demo.observations.lawful
  obtain ⟨hparts, hforms⟩ := Demo.truncatedJson_tests
  have hlog : .response (js "s") Demo.keyHash Demo.requestHash Demo.iv Demo.response ∈ Demo.log :=
    .tail _ (.head _)
  have hgenuine := genuineResponse_encryptOtpVerificationResponse Demo.observations.lawful hlog
  have hresponse := hread (js "s") Demo.keyHash Demo.requestHash Demo.iv Demo.response
    ⟨by decide +kernel, by decide +kernel⟩
  refine ⟨hclaim (some (js "k")) Demo.iv Demo.payload 0 0 (Demo.job Demo.payloadJson)
      Demo.encryptPayload_payload,
    hfail Demo.log (some (js "k")) 0 0 (Demo.job Demo.truncatedJson) ?_ ?_ ?_ ?_, ?_,
    hwritten Demo.log _ _ _ _ _ hgenuine Demo.distinctKey hresponse⟩
  · rintro key parts - hsome
    rw [hparts] at hsome
    cases hsome
  · rintro ⟨payload, parts, key, iv, hsome, -⟩
    rw [hparts] at hsome
    cases hsome
  · rintro ⟨payload, hparse, hplain⟩
    rw [hparse, Option.all_some, hplain] at hforms
    simp at hforms
  · rintro ⟨stored, hparse, hredacted⟩
    rw [hparse, Option.all_some, hredacted] at hforms
    simp at hforms
  · rw [← Demo.encryptOtpVerificationResponse_response]
    exact hresponse

end Envelopes

end Stead
