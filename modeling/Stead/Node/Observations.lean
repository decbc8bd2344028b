import Mathlib.Data.Rat.Encodable
import Mathlib.Logic.Equiv.List
import Stead.Node.Runtime

/-!
# Platforms with given observations

The laws of a platform hold of some platform, and whatever has been observed of one (a text that it
has written for a record, a digest, a ciphertext) may be among its values: `Observations.lawful`.

## What has not been observed

Where nothing has been observed a record is written as zeros, as many as its number, and a sealing
is its plaintext with the key and the data for a tag. The tag is longer than an observed one, so
that the two kinds of sealings cannot be confused.

## Codings

A coding (`Coding`) is a finite table of observed pairs with both columns without repetition, and
the zeros for the rest; decoding looks the text up in the table first. That decoding is the inverse
of encoding is one lemma (`Coding.decode_encode`), used for JSON and for both encodings of bytes.
-/

namespace Node

/-! ### Tables -/

section Tables

variable {α β γ δ : Type} [BEq α] [LawfulBEq α] [BEq γ] [LawfulBEq γ]

/-- A table is read backwards, where no two of its rows have the same key then. -/
theorem lookup_map {rows : List (α × β)} {back : α × β → γ × δ} {x : α} {y : β}
    (hnodup : (rows.map fun row ↦ (back row).1).Nodup) (h : rows.lookup x = some y) :
    (rows.map back).lookup (back (x, y)).1 = some (back (x, y)).2 := by
  obtain ⟨before, after, rfl, -⟩ := List.lookup_eq_some_iff.1 h
  rw [List.map_append, List.map_cons, List.nodup_append] at hnodup
  refine List.lookup_eq_some_iff.2 ⟨before.map back, after.map back, by simp, fun row hrow ↦ ?_⟩
  obtain ⟨row, hmem, rfl⟩ := List.mem_map.1 hrow
  have hne := hnodup.2.2 _ (List.mem_map_of_mem hmem) _ (List.mem_cons_self ..)
  exact bne_iff_ne.2 hne.symm

end Tables

/-! ### Codings -/

/-- Texts for some values, none of them of zeros only. -/
structure Coding (α : Type) where
  rows : List (α × JsString)
  nodup : (rows.map fun row ↦ row.swap.1).Nodup
  nonzero : ∀ row ∈ rows, row.2.any (· ≠ 0) = true

namespace Coding

variable {α : Type} [DecidableEq α] [Encodable α] (c : Coding α)

/-- The observed text of a value, or else zeros. -/
def encode (x : α) : JsString := (c.rows.lookup x).getD (List.replicate (Encodable.encode x) 0)

/-- The value of an observed text, or else the number of zeros. -/
def decode (text : JsString) : Option α :=
  if text.any (· ≠ 0) then (c.rows.map Prod.swap).lookup text else Encodable.decode text.length

/-- **A coding** decodes what it encodes. -/
theorem decode_encode (x : α) : c.decode (c.encode x) = some x := by
  unfold encode
  cases h : c.rows.lookup x with
  | none =>
    have hzeros : (List.replicate (Encodable.encode x) (0 : UInt16)).any (· ≠ 0) = false := by simp
    rw [Option.getD_none, decode, if_neg (by rw [hzeros]; exact Bool.false_ne_true),
      List.length_replicate, Encodable.encodek]
  | some text =>
    obtain ⟨before, after, hrows, -⟩ := List.lookup_eq_some_iff.1 h
    have hmem : (x, text) ∈ c.rows := by rw [hrows]; simp
    rw [Option.getD_some, decode, if_pos (c.nonzero _ hmem)]
    exact lookup_map c.nodup h

/-- Every unit that is written is one of the rows, or a zero. -/
theorem forall_encode {p : UInt16 → Prop} (hrows : ∀ row ∈ c.rows, ∀ u ∈ row.2, p u) (hzero : p 0)
    (x : α) : ∀ u ∈ c.encode x, p u := by
  unfold encode
  cases h : c.rows.lookup x with
  | none =>
    intro u hu
    exact List.eq_of_mem_replicate hu ▸ hzero
  | some text =>
    obtain ⟨before, after, hsplit, -⟩ := List.lookup_eq_some_iff.1 h
    exact hrows (x, text) (by rw [hsplit]; simp)

end Coding

/-! ### Records -/

/-- What a record of strings and numbers holds. -/
abbrev Record := List (String × (JsString ⊕ Number))

/-- A record as a value, -/
def Record.json (record : Record) : Json :=
  .object (record.map fun field ↦ (field.1, field.2.elim .string .number))

/-- The strings and numbers of a value. -/
def Json.record : Json → Record
  | .object fields => fields.filterMap fun field ↦
      match field.2 with
      | .string text => some (field.1, .inl text)
      | .number x => some (field.1, .inr x)
      | _ => none
  | _ => []

/-- A plain value is the record that it is made of. -/
theorem Json.Plain.json_record {value : Json} (h : value.Plain) : value.record.json = value := by
  cases value with
  | object fields =>
    refine congrArg Json.object ?_
    have hfields := h.2
    clear h
    induction fields with
    | nil => rfl
    | cons field fields ih =>
      obtain ⟨name, value⟩ := field
      have ih' := ih fun field hfield ↦ hfields field (List.mem_cons_of_mem _ hfield)
      obtain ⟨-, ⟨text, rfl⟩ | ⟨x, rfl⟩⟩ := hfields (name, value) (List.mem_cons_self ..)
      · exact congrArg ((name, Json.string text) :: ·) ih'
      · exact congrArg ((name, Json.number x) :: ·) ih'
  | _ => exact h.elim

/-! ### Numbers of values -/

instance encodableUInt8 : Encodable UInt8 :=
  Encodable.ofLeftInverse UInt8.toNat UInt8.ofNat fun _ ↦ UInt8.ofNat_toNat

instance encodableUInt16 : Encodable UInt16 :=
  Encodable.ofLeftInverse UInt16.toNat UInt16.ofNat fun _ ↦ UInt16.ofNat_toNat

instance encodableChar : Encodable Char :=
  Encodable.ofLeftInverse Char.toNat Char.ofNat fun c ↦ Char.ofNat_toNat c

instance encodableString : Encodable String :=
  Encodable.ofLeftInverse String.toList String.ofList fun _ ↦ String.ofList_toList

/-! ### Ciphers -/

/-- A tag that is longer than those of the platform. -/
def longTag (key associated : Bytes) : Bytes := List.replicate 17 0 ++ key ++ associated

/-- What has been observed of a sealing, as it is opened. -/
def opening (row : Sealing × Bytes × Bytes) : (Bytes × Bytes × Parts) × Bytes :=
  ((row.1.key, row.1.associated, ⟨row.1.iv, row.2.2, row.2.1⟩), row.1.plaintext)

/-- A cipher with ciphertexts and tags of some sealings. -/
def Cipher.ofRows (rows : List (Sealing × Bytes × Bytes)) : Cipher where
  encrypt s := (rows.lookup s).getD (s.plaintext, longTag s.key s.associated)
  decrypt key associated parts :=
    ((rows.map opening).lookup (key, associated, parts)).or
      (if parts.tag = longTag key associated then some parts.ciphertext else none)

/-- A cipher with observed sealings opens what it seals. -/
theorem Cipher.correct_ofRows {rows : List (Sealing × Bytes × Bytes)}
    (hnodup : (rows.map fun row ↦ (opening row).1).Nodup)
    (htag : ∀ row ∈ rows, row.2.2.length ≤ 16) : (Cipher.ofRows rows).Correct := by
  rintro s - -
  cases h : rows.lookup s with
  | some sealed =>
    have hencrypt : (ofRows rows).encrypt s = sealed := congrArg (Option.getD · _) h
    rw [parts, hencrypt]
    have hopening : (rows.map opening).lookup (opening (s, sealed)).1 = some s.plaintext :=
      lookup_map hnodup h
    exact (congrArg (Option.or · _) hopening).trans Option.some_or
  | none =>
    have hencrypt : (ofRows rows).encrypt s = (s.plaintext, longTag s.key s.associated) :=
      congrArg (Option.getD · _) h
    have hnone : (rows.map opening).lookup
        (s.key, s.associated, ⟨s.iv, longTag s.key s.associated, s.plaintext⟩) = none := by
      refine List.lookup_eq_none_iff.2 fun row hrow ↦ ?_
      obtain ⟨row, hmem, rfl⟩ := List.mem_map.1 hrow
      have hle := htag row hmem
      refine bne_iff_ne.2 fun heq ↦ ?_
      have hlong := congrArg (fun key ↦ key.2.2.tag.length) heq
      simp only [opening, longTag, List.length_append, List.length_replicate] at hlong
      omega
    rw [parts, hencrypt]
    change ((rows.map opening).lookup (s.key, s.associated, ⟨_, _, _⟩)).or
      (if longTag s.key s.associated = longTag s.key s.associated then some s.plaintext else none) = _
    rw [hnone, Option.none_or, if_pos rfl]

/-! ### Observations -/

/-- What has been observed of a platform. The texts of the records are in ASCII, and a sealing is
opened in one way. -/
structure Observations where
  json : Coding Record
  base64 : Coding Bytes
  base64url : Coding Bytes
  sha256 : List (Bytes × Bytes)
  hmacSha256 : List ((Bytes × Bytes) × Bytes)
  aes256gcm : List (Sealing × Bytes × Bytes)
  ascii : ∀ row ∈ json.rows, ∀ u ∈ row.2, u < 128
  length_sha256 : ∀ row ∈ sha256, row.2.length = 32
  length_hmacSha256 : ∀ row ∈ hmacSha256, row.2.length = 32
  nodup : (aes256gcm.map fun row ↦ (opening row).1).Nodup
  length_tag : ∀ row ∈ aes256gcm, row.2.2.length ≤ 16

namespace Observations

variable (o : Observations)

/-- The platform that has the observations. -/
def runtime : Runtime where
  parse text := (o.json.decode text).map Record.json
  stringify value := o.json.encode value.record
  utf8 text := text.map UInt16.toUInt8
  ofUtf8 bytes := bytes.map UInt8.toUInt16
  base64 := o.base64.encode
  ofBase64 text := (o.base64.decode text).getD []
  base64url := o.base64url.encode
  ofBase64url text := (o.base64url.decode text).getD []
  sha256 bytes := (o.sha256.lookup bytes).getD (List.replicate 32 0)
  hmacSha256 key bytes := (o.hmacSha256.lookup (key, bytes)).getD (List.replicate 32 0)
  aes256gcm := .ofRows o.aes256gcm

/-- Observed digests have the length of a digest, and the others as well. -/
theorem length_lookup {α : Type} [BEq α] [LawfulBEq α] {rows : List (α × Bytes)} (x : α)
    (h : ∀ row ∈ rows, row.2.length = 32) :
    ((rows.lookup x).getD (List.replicate 32 0)).length = 32 := by
  cases hx : rows.lookup x with
  | none => rfl
  | some bytes =>
    obtain ⟨before, after, hrows, -⟩ := List.lookup_eq_some_iff.1 hx
    exact h (x, bytes) (by rw [hrows]; simp)

theorem lawful : o.runtime.Lawful where
  parse_stringify value h := by
    change (o.json.decode (o.json.encode value.record)).map Record.json = some value
    rw [Coding.decode_encode, Option.map_some, h.json_record]
  ofUtf8_utf8 value _ := toUInt16_toUInt8 (o.json.forall_encode o.ascii (by decide) value.record)
  utf8_ascii _ _ := rfl
  ofBase64_base64 bytes := congrArg (Option.getD · []) (o.base64.decode_encode bytes)
  ofBase64url_base64url bytes := congrArg (Option.getD · []) (o.base64url.decode_encode bytes)
  length_sha256 bytes := length_lookup bytes o.length_sha256
  length_hmacSha256 key bytes := length_lookup (key, bytes) o.length_hmacSha256
  aes256gcm := Cipher.correct_ofRows o.nodup o.length_tag

end Observations

end Node
