import Mathlib.Data.List.Nodup
import Stead.Numbers.Binary64

/-!
# Texts, bytes and sealed bytes

What a program takes from its platform to store a record under a key: JSON, encodings of bytes as
texts, hashes and authenticated encryption. The functions are given from outside (`Runtime`), with
the laws that a program may rely on (`Runtime.Lawful`).

## Texts

A text is a sequence of UTF-16 code units, whether or not it is well formed. The encoding in UTF-8
replaces what is not well formed, so it is only known to be undone for what JSON writes, which is
always well formed.

## Encryption

Authenticated encryption opens what was sealed (`Cipher.Correct`). That it opens nothing else is a
statement about what is stored, not a law of two functions: under a key and with associated data,
the parts are genuine with respect to a log of sealings if what opens is one of them
(`Cipher.Genuine`). What was sealed is genuine with respect to any log that has it
(`Cipher.Correct.genuine`).
-/

namespace Node

/-- A text. -/
abbrev JsString := List UInt16

/-- A sequence of bytes. -/
abbrev Bytes := List UInt8

/-- A text of the source. -/
def js (text : String) : JsString := text.toList.map fun c ↦ UInt16.ofNat c.toNat

/-- A finite number. -/
abbrev Number := {x : ℚ // Binary64.round x = x}

/-- `Number.isSafeInteger` -/
def isSafeInteger (x : ℚ) : Bool := x.den = 1 ∧ |x| ≤ 2 ^ 53 - 1

/-! ### JSON -/

/-- A value that a JSON text stands for. Its numbers may lie beyond the finite ones. -/
inductive Json
  | null
  | bool (value : Bool)
  | number (value : Number)
  | infinity (negative : Bool)
  | string (value : JsString)
  | array (items : List Json)
  | object (fields : List (String × Json))

namespace Json

/-- `value.name`, for a value other than `null`; `none` is `undefined`. -/
def get (name : String) : Json → Option Json
  | .object fields => fields.lookup name
  | _ => none

/-- `typeof value.name === 'string'`, with the string. -/
def getString (name : String) (value : Json) : Option JsString :=
  match value.get name with
  | some (.string text) => some text
  | _ => none

/-- A record of strings and numbers. Its names begin with letters: names that are array indices would
change their place. -/
def Plain : Json → Prop
  | .object fields => (fields.map Prod.fst).Nodup ∧
      ∀ field ∈ fields, field.1.toList.head?.any Char.isAlpha = true ∧
        ((∃ text, field.2 = .string text) ∨ ∃ x, field.2 = .number x)
  | _ => False

end Json

/-! ### Authenticated encryption -/

/-- What is sealed: a plaintext with the data that is authenticated with it. -/
structure Sealing where
  key : Bytes
  iv : Bytes
  associated : Bytes
  plaintext : Bytes
  deriving DecidableEq

/-- What is stored of a sealing. -/
structure Parts where
  iv : Bytes
  tag : Bytes
  ciphertext : Bytes
  deriving DecidableEq

/-- An authenticated cipher. Where the platform throws, at an initialisation vector or a tag that it
does not take or at a tag that does not match, nothing is opened. -/
structure Cipher where
  /-- The ciphertext and the tag. -/
  encrypt : Sealing → Bytes × Bytes
  /-- Under a key and with associated data. -/
  decrypt : Bytes → Bytes → Parts → Option Bytes

namespace Cipher

variable (c : Cipher)

/-- What a sealing is stored as. -/
def parts (s : Sealing) : Parts := ⟨s.iv, (c.encrypt s).2, (c.encrypt s).1⟩

/-- What was sealed opens, under a key of 32 bytes with an initialisation vector of 12. -/
def Correct : Prop :=
  ∀ s, s.key.length = 32 → s.iv.length = 12 →
    c.decrypt s.key s.associated (c.parts s) = some s.plaintext

/-- Under the key and with the associated data, the parts are no forgery: if they open, they carry
the ciphertext of a logged sealing of what they open to, with the same key, vector and data. -/
def Genuine (log : List Sealing) (key associated : Bytes) (parts : Parts) : Prop :=
  ∀ plaintext, c.decrypt key associated parts = some plaintext →
    ∃ s ∈ log, s = ⟨key, parts.iv, associated, plaintext⟩ ∧ (c.encrypt s).1 = parts.ciphertext

variable {c} {s : Sealing} {log : List Sealing}

/-- What was sealed is no forgery. -/
theorem Correct.genuine (h : c.Correct) (hkey : s.key.length = 32) (hiv : s.iv.length = 12)
    (hs : s ∈ log) : c.Genuine log s.key s.associated (c.parts s) := by
  intro plaintext hopen
  rw [h s hkey hiv] at hopen
  obtain rfl := Option.some.inj hopen
  exact ⟨s, hs, rfl, rfl⟩

end Cipher

/-! ### The platform -/

/-- The functions of the platform. -/
structure Runtime where
  /-- `JSON.parse`, which throws at what is no JSON. -/
  parse : JsString → Option Json
  /-- `JSON.stringify` -/
  stringify : Json → JsString
  /-- UTF-8, with replacements for what is not well formed. -/
  utf8 : JsString → Bytes
  ofUtf8 : Bytes → JsString
  base64 : Bytes → JsString
  /-- `Buffer.from(text, 'base64')`, which passes over what is no digit. -/
  ofBase64 : JsString → Bytes
  base64url : Bytes → JsString
  ofBase64url : JsString → Bytes
  sha256 : Bytes → Bytes
  hmacSha256 : Bytes → Bytes → Bytes
  aes256gcm : Cipher

/-- The laws of the platform. -/
structure Runtime.Lawful (node : Runtime) : Prop where
  parse_stringify : ∀ record, record.Plain → node.parse (node.stringify record) = some record
  /-- The text that is written for a record is well formed. -/
  ofUtf8_utf8 : ∀ record, record.Plain →
    node.ofUtf8 (node.utf8 (node.stringify record)) = node.stringify record
  utf8_ascii : ∀ text, (∀ u ∈ text, u < 128) → node.utf8 text = text.map UInt16.toUInt8
  ofBase64_base64 : ∀ bytes, node.ofBase64 (node.base64 bytes) = bytes
  ofBase64url_base64url : ∀ bytes, node.ofBase64url (node.base64url bytes) = bytes
  length_sha256 : ∀ bytes, (node.sha256 bytes).length = 32
  length_hmacSha256 : ∀ key bytes, (node.hmacSha256 key bytes).length = 32
  aes256gcm : node.aes256gcm.Correct

/-- ASCII survives the narrowing to bytes. -/
theorem toUInt16_toUInt8 {text : JsString} (h : ∀ u ∈ text, u < 128) :
    (text.map UInt16.toUInt8).map UInt8.toUInt16 = text := by
  rw [List.map_map]
  conv_rhs => rw [← List.map_id text]
  refine List.map_congr_left fun u hu ↦ UInt16.toNat_inj.1 ?_
  have hlt : u.toNat < 128 := UInt16.lt_iff_toNat_lt.1 (h u hu)
  simp only [Function.comp_apply, UInt8.toNat_toUInt16, UInt16.toNat_toUInt8, id_eq]
  omega

/-- A plain record is read back from its bytes. -/
theorem Runtime.Lawful.parse_ofUtf8 {node : Runtime} (h : node.Lawful) {record : Json}
    (hplain : record.Plain) :
    node.parse (node.ofUtf8 (node.utf8 (node.stringify record))) = some record := by
  rw [h.ofUtf8_utf8 record hplain, h.parse_stringify record hplain]

end Node
