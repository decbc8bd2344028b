import Stead.Envelopes.Formats

/-!
# Envelopes are read as they were written

What an encoder of `Envelopes.Formats` writes, its decoder reads back: the parts of the envelope
(`bind_parse_envelope`), and the payload or the response that was sealed in them.

## Layers

A stored text is a value, written as JSON; its parts are bytes, written in an encoding; the
ciphertext is the encryption of a text that is JSON again. Each layer has its own round trip:
`parse` after `stringify` for plain values (`plain_envelope`, `NotificationPayload.plain`,
`VerifyOtpResponse.plain`), the decoding after the encoding of bytes, and `decrypt` after `encrypt`
under the same key and the same associated data. They are hypotheses on the platform
(`Runtime.Lawful`).

What is read back also passes the test of its kind (`NotificationPayload.isNotificationPayload`,
`VerifyOtpResponse.isVerifyOtpResponse`). For a response that needs a lifetime that is a positive
safe integer, as the configuration has it.
-/

namespace Stead

open Node

namespace Envelopes

variable {node : Runtime}

/-! ### Envelopes -/

section Envelope

variable {encode : Bytes → JsString} {decode : JsString → Bytes} {tagName : String} {parts : Parts}

/-- An envelope is a plain value, which survives JSON. -/
theorem plain_envelope (htag : tagName = "authTag" ∨ tagName = "tag") :
    (envelope encode tagName parts).Plain := by
  refine ⟨by rcases htag with rfl | rfl <;> simp, fun field hfield ↦ ?_⟩
  simp only [List.mem_cons, List.not_mem_nil, or_false] at hfield
  rcases hfield with rfl | rfl | rfl | rfl
  · exact ⟨by simp, .inr ⟨_, rfl⟩⟩
  · exact ⟨by simp, .inl ⟨_, rfl⟩⟩
  · exact ⟨by rcases htag with rfl | rfl <;> simp, .inl ⟨_, rfl⟩⟩
  · exact ⟨by simp, .inl ⟨_, rfl⟩⟩

/-- The parts of an envelope are read back, whatever the name of the tag. -/
theorem envelopeParts_envelope (hdecode : ∀ bytes, decode (encode bytes) = bytes)
    (htag : tagName = "authTag" ∨ tagName = "tag") :
    envelopeParts decode tagName (envelope encode tagName parts) = some parts := by
  rcases htag with rfl | rfl <;>
    simp [envelope, envelopeParts, Json.getString, Json.get, hdecode, List.lookup_cons]

/-- The parts of a stored envelope of a payload. -/
def payloadParts (node : Runtime) (text : JsString) : Option Parts :=
  (node.parse text).bind (isEncryptedEnvelope node)

/-- The parts of a stored envelope of a response. -/
def responseParts (node : Runtime) (text : JsString) : Option Parts :=
  (node.parse text).bind (envelopeParts node.ofBase64url "tag")

/-- **The envelope** is read back from its text. -/
theorem bind_parse_envelope (h : node.Lawful) (hdecode : ∀ bytes, decode (encode bytes) = bytes)
    (htag : tagName = "authTag" ∨ tagName = "tag") :
    (node.parse (node.stringify (envelope encode tagName parts))).bind
      (envelopeParts decode tagName) = some parts := by
  rw [h.parse_stringify _ (plain_envelope htag), Option.bind_some,
    envelopeParts_envelope hdecode htag]

end Envelope

/-! ### Notifications -/

section Notifications

variable {secret : Option JsString} {iv : Iv} {payload : NotificationPayload} {text : JsString}
  {delivered : Json}

theorem NotificationPayload.plain (payload : NotificationPayload) : payload.json.Plain := by
  cases payload <;> simp [NotificationPayload.json, Json.Plain]

/-- The key has the length that the cipher asks for. -/
theorem length_encryptionKey (h : node.Lawful) {key : Bytes}
    (hkey : encryptionKey node secret = .ok key) : key.length = 32 := by
  unfold encryptionKey at hkey
  split at hkey
  · split at hkey
    · cases hkey
    · obtain rfl := Except.ok.inj hkey
      exact h.length_sha256 _
  · cases hkey

theorem NotificationPayload.isNotificationPayload (payload : NotificationPayload) :
    isNotificationPayload payload.json = true := by
  cases payload <;> rfl

/-- The opened envelope of a payload. -/
theorem openEnvelope_payload (h : node.Lawful) {key : Bytes} {parts : Parts}
    (hkey : encryptionKey node secret = .ok key)
    (hopen : node.aes256gcm.decrypt key [] parts = some (payloadSealing node key iv payload).plaintext) :
    openEnvelope node secret parts = .ok payload.json := by
  have hparse : (some (payloadSealing node key iv payload).plaintext).bind (fun plaintext ↦
      node.parse (node.ofUtf8 plaintext)) = some payload.json := h.parse_ofUtf8 payload.plain
  rw [openEnvelope, hkey]
  simp only [hopen, hparse, payload.isNotificationPayload, if_true]

/-- A payload that is encrypted has been sealed under the configured key. -/
theorem encryptPayload_eq_ok (henqueue : encryptPayload node secret iv payload = .ok text) :
    ∃ key, encryptionKey node secret = .ok key ∧ text = node.stringify (envelope node.base64 "authTag"
      (node.aes256gcm.parts (payloadSealing node key iv payload))) := by
  unfold encryptPayload at henqueue
  cases hkey : encryptionKey node secret with
  | error e =>
    rw [hkey] at henqueue
    cases henqueue
  | ok key =>
    rw [hkey] at henqueue
    exact ⟨key, rfl, (Except.ok.inj henqueue).symm⟩

/-- **A payload is read** as it was enqueued. -/
theorem decryptPayload_encryptPayload (h : node.Lawful)
    (henqueue : encryptPayload node secret iv payload = .ok text) :
    decryptPayload node secret text = .ok payload.json := by
  obtain ⟨key, hkey, rfl⟩ := encryptPayload_eq_ok henqueue
  have hopen := h.aes256gcm (payloadSealing node key iv payload) (length_encryptionKey h hkey) iv.2
  have hparts : isEncryptedEnvelope node (envelope node.base64 "authTag"
      (node.aes256gcm.parts (payloadSealing node key iv payload))) =
      some (node.aes256gcm.parts (payloadSealing node key iv payload)) :=
    envelopeParts_envelope h.ofBase64_base64 (.inl rfl)
  rw [decryptPayload, h.parse_stringify _ (plain_envelope (.inl rfl))]
  generalize node.aes256gcm.parts (payloadSealing node key iv payload) = parts at hopen hparts ⊢
  have hredacted : isRedacted (envelope node.base64 "authTag" parts) = false := rfl
  have hplain : isNotificationPayload (envelope node.base64 "authTag" parts) = false := rfl
  change (if _ then _ else if _ then _ else _) = _
  rw [hredacted, hplain, hparts]
  exact openEnvelope_payload h hkey hopen

end Notifications

/-! ### Responses -/

section Responses

variable {secret : JsString} {keyHash requestHash : HexDigest} {iv : Iv} {answer : VerifyOtpResponse}

theorem VerifyOtpResponse.plain (answer : VerifyOtpResponse) : answer.json.Plain := by
  refine ⟨by simp, fun field hfield ↦ ?_⟩
  simp only [List.mem_cons, List.not_mem_nil, or_false] at hfield
  rcases hfield with rfl | rfl | rfl
  · exact ⟨by simp, .inl ⟨_, rfl⟩⟩
  · exact ⟨by simp, .inl ⟨_, rfl⟩⟩
  · exact ⟨by simp, .inr ⟨_, rfl⟩⟩

theorem VerifyOtpResponse.isVerifyOtpResponse
    (hexpires : isSafeInteger answer.expiresIn = true ∧ 0 < answer.expiresIn.1) :
    isVerifyOtpResponse answer.json = true := by
  change (isSafeInteger answer.expiresIn && decide (0 < answer.expiresIn.1)) = true
  rw [hexpires.1, Bool.true_and, decide_eq_true hexpires.2]

/-- **A response is read** under the material that it was encrypted under. -/
theorem decrypt_encryptOtpVerificationResponse (h : node.Lawful)
    (hexpires : isSafeInteger answer.expiresIn = true ∧ 0 < answer.expiresIn.1) :
    decryptOtpVerificationResponse node secret keyHash requestHash
      (encryptOtpVerificationResponse node secret keyHash requestHash iv answer) =
        some answer.json := by
  have hopen := h.aes256gcm (responseSealing node secret keyHash requestHash iv answer)
    (h.length_hmacSha256 _ _) iv.2
  rw [decryptOtpVerificationResponse, encryptOtpVerificationResponse,
    h.parse_stringify _ (plain_envelope (.inr rfl))]
  simp only [Option.bind_eq_bind, Option.bind_some,
    envelopeParts_envelope h.ofBase64url_base64url (.inr rfl)]
  have hopened : node.aes256gcm.decrypt (deriveKey node secret "response-encryption")
      (associatedData node keyHash requestHash)
      (node.aes256gcm.parts (responseSealing node secret keyHash requestHash iv answer)) =
        some (node.utf8 (node.stringify answer.json)) := hopen
  rw [hopened, Option.bind_some, h.parse_ofUtf8 answer.plain, Option.bind_some,
    answer.isVerifyOtpResponse hexpires, if_pos rfl]

end Responses

end Envelopes

end Stead
