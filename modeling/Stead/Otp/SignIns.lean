import Stead.Otp.Lifecycle
import Stead.Sessions.Attributes

/-!
# What a sign-in does

The statements of a call and their answers say what its transaction has done (`SignIn`): which code
it has consumed, which codes of the user it has listed and retired, which verification it has stored
and which session it has begun. `SignInStatement` is what each statement owes to this record, and
`program_signIn` that every call keeps to it.

## Parts without a record

Most parts of a call do not touch the record (`Op.Unrecorded`), and others only draw and end what is
not begun (`Op.Modest`). Both are known of whole parts by their footprints, so that the programs
need to be followed in two places: `verifiedSessionBody`, where a sign-in is made, and `verifyOtp`
around it, where it is matched with the code and the key of the call.

## Answers

`Verified` says what an answer rests on: the session the call has begun and committed, or the row
that it found under its key. A call that throws in its transaction has rolled back, and may then
find the row of another call.
-/

namespace Stead

open Concurrency

variable {ι : Type}

/-! ### The record -/

/-- What a call has done so far towards a session. All but the last two is forgotten at the end of its
transaction. -/
structure SignIn where
  /-- The code the open transaction has consumed. -/
  consumed : Option ℕ := none
  /-- The unconsumed codes of a user that it has found. -/
  found : Option (ℕ × List ℕ) := none
  /-- The user whose codes it has retired. -/
  retired : Option ℕ := none
  /-- The verification it has stored, and the code it was stored with. -/
  verified : Option (ℕ × Verification) := none
  /-- The first token of a session, and the code the session was begun with. -/
  begun : Option (ℕ × NewRefreshToken) := none
  /-- The verification of a transaction that was committed. -/
  kept : Option (ℕ × Verification) := none

/-- The answer to an attempt to consume a code. -/
def isConsumed : Except StatementError Bool → Bool
  | .ok ok => ok
  | .error _ => false

/-- What a statement adds to the record. -/
def SignIn.after (a : SignIn) : Exchange Statements → SignIn
  | ⟨.otpCode (.consume id _), r⟩ => if isConsumed r then { a with consumed := some id } else a
  | ⟨.otpCode (.findUnconsumed true userId), .ok found⟩ => { a with found := some (userId, found) }
  | ⟨.otpCode (.retireLive true found userId _), .ok _⟩ =>
    if a.found = some (userId, found) then { a with retired := some userId } else a
  | ⟨.otpCode (.storeVerification id data), .ok _⟩ => { a with verified := some (id, data) }
  | ⟨.refreshToken (.create data), _⟩ => { a with begun := (a.consumed.map (·, data)).or a.begun }
  | ⟨.commit, .ok _⟩ => { begun := a.begun, kept := a.verified.or a.kept }
  | ⟨.commit, .error _⟩ | ⟨.rollback, _⟩ => { begun := a.begun, kept := a.kept }
  | _ => a

/-- What a call has done after a trace. -/
def signIn (trace : List (Exchange Statements)) : SignIn := trace.foldl SignIn.after {}

@[simp] theorem signIn_nil : signIn [] = {} := rfl

/-- The record is brought up by one statement after another. -/
@[simp] theorem signIn_append (trace : List (Exchange Statements)) (e : Exchange Statements) :
    signIn (trace ++ [e]) = (signIn trace).after e := by
  simp [signIn]

/-- Statements a sign-in does not record. -/
def Op.Unrecorded : Op → Prop
  | .otpCode (.consume _ _) | .otpCode (.findUnconsumed true _) => False
  | .otpCode (.retireLive true _ _ _) | .otpCode (.storeVerification _ _) => False
  | .refreshToken (.create _) | .commit | .rollback => False
  | _ => True

/-- What is not recorded changes nothing. -/
theorem SignIn.after_unrecorded (a : SignIn) {op : Op} (h : op.Unrecorded)
    (r : Statements.Resp op) : a.after ⟨op, r⟩ = a := by
  unfold SignIn.after
  split <;> first | rfl | (next heq => cases heq; cases h)

/-- A call that has consumed no code, stored no verification and begun no session. -/
structure SignIn.Idle (a : SignIn) : Prop where
  consumed : a.consumed = none
  verified : a.verified = none
  begun : a.begun = none
  kept : a.kept = none

theorem SignIn.idle_empty : ({} : SignIn).Idle := ⟨rfl, rfl, rfl, rfl⟩

/-- Statements that neither consume a code nor store a verification. -/
def Op.Modest : Op → Prop
  | .otpCode (.consume _ _) | .otpCode (.storeVerification _ _) => False
  | _ => True

/-- Modest statements begin nothing. -/
theorem SignIn.Idle.after {a : SignIn} (ha : a.Idle) {op : Op} (h : op.Modest)
    (r : Statements.Resp op) : (a.after ⟨op, r⟩).Idle := by
  obtain ⟨hconsumed, hverified, hbegun, hkept⟩ := ha
  unfold SignIn.after
  split <;> try (next heq => cases heq; cases h)
  · exact ⟨hconsumed, hverified, hbegun, hkept⟩
  · split <;> exact ⟨hconsumed, hverified, hbegun, hkept⟩
  · exact ⟨hconsumed, hverified, by simp [hconsumed, hbegun], hkept⟩
  · exact ⟨rfl, rfl, hbegun, by simp [hverified, hkept]⟩
  · exact ⟨rfl, rfl, hbegun, hkept⟩
  · exact ⟨rfl, rfl, hbegun, hkept⟩
  · exact ⟨hconsumed, hverified, hbegun, hkept⟩

/-- Statements of a kind that neither consumes a code nor stores a verification. -/
theorem Op.modest_of {C : Op → Prop} (hconsume : ∀ k at_, ¬ C (.otpCode (.consume k at_)))
    (hstore : ∀ k data, ¬ C (.otpCode (.storeVerification k data))) {op : Op} (h : C op) :
    op.Modest := by
  unfold Op.Modest
  split
  · exact hconsume _ _ h
  · exact hstore _ _ h
  · trivial

theorem Op.Replays.modest {op : Op} (h : op.Replays) : op.Modest :=
  Op.modest_of (C := Op.Replays) nofun nofun h

theorem Op.Orders.modest {op : Op} (h : op.Orders) : op.Modest :=
  Op.modest_of (C := Op.Orders) nofun nofun h

theorem Op.Delivers.modest {op : Op} (h : op.Delivers) : op.Modest :=
  Op.modest_of (C := Op.Delivers) nofun nofun h

/-- A token that is created. -/
def Op.Creates (op : Op) : Prop := ∃ data, op = .refreshToken (.create data)

/-! ### What statements owe to the record -/

/-- The verification a call of `verifyOtp` makes: of its phone and its code, under the digests of its
idempotency key, if it has one, and of its device. -/
structure ApiCall.Verifies (env : Env) (call : ApiCall) (v : VerificationRequest) : Prop where
  call : ∃ phone countryIso context, call = .verifyOtp phone countryIso v.otp context ∧
    (∃ country, normalizePhoneNumber env phone country = .ok v.normalizedPhone) ∧
    (∀ key, context.idempotencyKey = some key → ∃ idempotencyKey,
      idempotencyKeyOf key = .ok idempotencyKey ∧
        v.verificationKeyHash = env.crypto.sha256 idempotencyKey) ∧
    ∃ deviceHash, hashDeviceIdentifier env context.deviceId = .ok deviceHash ∧
      v.verificationRequestHash = env.crypto.hmacRequest v.secret deviceHash
  secret : otpVerificationEncryptionKey env = .ok v.secret

/-- The number that a phone has in the country that the call has looked up. -/
def Dials (env : Env) (phone countryIso normalizedPhone : String)
    (trace : List (Exchange Statements)) : Prop :=
  ∃ country, (⟨.country (env.toUpperCase countryIso), .ok (some country)⟩ : Exchange Statements) ∈
    trace ∧ normalizePhoneNumber env phone country.isoCode = .ok normalizedPhone

/-- The user of the phone number has been found. -/
def foundUser (phone : String) (user : Keyed User) : Exchange Statements :=
  ⟨.user (.findByPhone phone), .ok (some user)⟩

/-- A live code of the user has been found. -/
def foundLive (userId : ℕ) (now : ℤ) (record : Keyed OtpCode) : Exchange Statements :=
  ⟨.otpCode (.findLive userId now), .ok (some record)⟩

/-- A code has been compared with the hash of a row, and matched. -/
def comparedEqual (id : ℕ) (otp : String) (codeHash : Digest) : Exchange Statements :=
  ⟨.host (.bcryptCompare id otp codeHash), .ok true⟩

/-- A family has been drawn. -/
def drewFamily (familyId : ℕ) : Exchange Statements := ⟨.host .randomUUID, .ok familyId⟩

/-- The code matched the live code `id` of user `u`, who has the phone number. -/
inductive Matched (phone otp : String) (u id : ℕ) (trace : List (Exchange Statements)) : Prop
  | intro (user : Keyed User) (now : ℤ) (record : Keyed OtpCode) (huser : user.id = u)
      (hphone : foundUser phone user ∈ trace) (hlive : foundLive u now record ∈ trace)
      (hid : record.id = id) (hequal : comparedEqual id otp record.row.codeHash ∈ trace)

theorem Matched.append {phone otp : String} {u id : ℕ} {trace trace' : List (Exchange Statements)}
    (h : Matched phone otp u id trace) (hext : trace <+: trace') :
    Matched phone otp u id trace' := by
  obtain ⟨user, now, record, huser, hphone, hlive, hid, hequal⟩ := h
  exact ⟨user, now, record, huser, hext.subset hphone, hext.subset hlive, hid, hext.subset hequal⟩

/-- The verification is stored with the response, sealed under its digests. -/
structure Verification.Seals (env : Env) (v : VerificationRequest) (response : VerifyOtpResponse)
    (data : Verification) : Prop where
  key : data.verificationKeyHash = v.verificationKeyHash
  request : data.verificationRequestHash = v.verificationRequestHash
  response : ∃ iv ciphertext tag, env.crypto.sealResponse v.secret iv
      (v.verificationKeyHash, v.verificationRequestHash) response = (ciphertext, tag) ∧
    data.verificationResponseJson = .envelope ENVELOPE_VERSION iv tag ciphertext

/-- The transaction of a sign-in is ready to be committed: it has consumed the code, retired what else
was live of the user, begun a session with the token of the response, and stored the response,
sealed. -/
structure SignIn.Ready (env : Env) (v : VerificationRequest) (response : VerifyOtpResponse)
    (u id : ℕ) (a : SignIn) : Prop where
  consumed : a.consumed = some id
  retired : a.retired = some u
  begun : ∃ first, a.begun = some (id, first) ∧ first.userId = u ∧
    first.tokenHash = env.crypto.hashRefreshToken response.refreshToken
  verified : ∃ data, a.verified = some (id, data) ∧ data.Seals env v response

/-- What a statement of a call owes to the record. A code is consumed first; a session is begun once,
with the code that was consumed and that matched, in a family the call drew, or continues a token the
call looked up; a verification is stored once, with the code that was consumed; and the transaction
that has consumed a code commits only when it is ready. -/
structure SignInStatement (env : Env) (call : ApiCall) (trace : List (Exchange Statements))
    (op : Op) : Prop where
  consumed : ∀ id at_, op = .otpCode (.consume id at_) → signIn trace = {}
  begun : ∀ data, op = .refreshToken (.create data) →
    (∃ id v, (signIn trace).consumed = some id ∧ (signIn trace).begun = none ∧
      call.Verifies env v ∧ Matched v.normalizedPhone v.otp data.userId id trace ∧
        drewFamily data.familyId ∈ trace) ∨
    (signIn trace).consumed = none ∧ ∃ hash existing phone, lookup hash existing phone ∈ trace ∧
      existing.row.userId = data.userId ∧ existing.row.familyId = data.familyId
  verified : ∀ id data, op = .otpCode (.storeVerification id data) →
    (signIn trace).consumed = some id ∧ (signIn trace).verified = none ∧
      ∃ v response, call.Verifies env v ∧ data.Seals env v response
  committed : op = .commit → ∀ id, (signIn trace).consumed = some id →
    ∃ v response u, call.Verifies env v ∧ (signIn trace).Ready env v response u id

/-- How a call came by the response it gives: it has committed it with the code that matched, or it
has read it from the row that has its key. -/
inductive Verified (env : Env) (v : VerificationRequest) (response : VerifyOtpResponse)
    (trace : List (Exchange Statements)) : Prop
  | issued {u id : ℕ} {data : Verification} (hmatched : Matched v.normalizedPhone v.otp u id trace)
      (hkept : (signIn trace).kept = some (id, data)) (hseals : data.Seals env v response)
  | replayed (existing : Keyed OtpCode) (json : ResponseJson)
      (hfound : (⟨.otpCode (.findByVerificationKey v.verificationKeyHash),
        .ok (some (existing, v.normalizedPhone))⟩ : Exchange Statements) ∈ trace)
      (hrequest : existing.row.verificationRequestHash = some v.verificationRequestHash)
      (hequal : comparedEqual existing.id v.otp existing.row.codeHash ∈ trace)
      (hjson : storedResponse existing.row = some json)
      (hopened : decryptOtpVerificationResponse env v json = .ok response)

/-- What a call of `verifyOtp` answers. -/
def ApiCall.VerifiedBy (env : Env) (call : ApiCall) (trace : List (Exchange Statements))
    (a : ApiResponse) : Prop :=
  ∀ phone countryIso otp context, call = .verifyOtp phone countryIso otp context →
    ∃ v response, a = .session response ∧ call.Verifies env v ∧
      Dials env phone countryIso v.normalizedPhone trace ∧ Verified env v response trace

section Programs

variable {env : Env} {call : ApiCall} {trace : List (Exchange Statements)} {α : Type}

theorem SignInStatement.of_unrecorded {op : Op} (h : op.Unrecorded) :
    SignInStatement env call trace op where
  consumed := by
    rintro id at_ rfl
    cases h
  begun := by
    rintro data rfl
    cases h
  verified := by
    rintro id data rfl
    cases h
  committed := by
    rintro rfl
    cases h

/-- What unrecorded statements leave behind. -/
theorem keeps_of_unrecorded {p : Call α} (h : p.All Op.Unrecorded) :
    p.Keeps (SignInStatement env call)
      (fun trace' _ ↦ trace <+: trace' ∧ signIn trace' = signIn trace)
      (fun trace' _ ↦ trace <+: trace' ∧ signIn trace' = signIn trace) trace := by
  suffices hp : ∀ trace₀, trace <+: trace₀ → signIn trace₀ = signIn trace →
      p.Keeps (SignInStatement env call)
        (fun trace' _ ↦ trace <+: trace' ∧ signIn trace' = signIn trace)
        (fun trace' _ ↦ trace <+: trace' ∧ signIn trace' = signIn trace) trace₀ from
    hp trace (List.prefix_refl _) rfl
  induction p with
  | pure a => exact fun _ hext hsame ↦ ⟨hext, hsame⟩
  | throw e => exact fun _ hext hsame ↦ ⟨hext, hsame⟩
  | stmt op k ih =>
    refine fun trace₀ hext hsame ↦ ⟨.of_unrecorded h.1, fun r ↦ ih r (h.2 r) _ ?_ ?_⟩
    · exact hext.trans (List.prefix_append _ _)
    · rw [signIn_append, SignIn.after_unrecorded _ h.1, hsame]

/-- What follows unrecorded statements. -/
theorem unrecorded_bind {β : Type} {p : Call β} {f : β → Call α}
    {Q : List (Exchange Statements) → α → Prop} {F : List (Exchange Statements) → Failure → Prop}
    (h : p.All Op.Unrecorded)
    (hf : ∀ trace' b, trace <+: trace' → signIn trace' = signIn trace →
      (f b).Keeps (SignInStatement env call) Q F trace')
    (hF : ∀ trace' e, trace <+: trace' → signIn trace' = signIn trace → F trace' e) :
    (p >>= f).Keeps (SignInStatement env call) Q F trace :=
  .bind ((keeps_of_unrecorded h).mono (fun _ _ h ↦ h) fun _ e h ↦ hF _ e h.1 h.2)
    fun _ b h ↦ hf _ b h.1 h.2

/-- A modest statement other than the creation of a token. -/
theorem SignInStatement.of_modest {op : Op} (h : op.Modest) (hcreate : ¬ op.Creates)
    (htrace : (signIn trace).Idle) : SignInStatement env call trace op where
  consumed := by
    rintro id at_ rfl
    cases h
  begun data hop := absurd ⟨data, hop⟩ hcreate
  verified := by
    rintro id data rfl
    cases h
  committed := by
    rintro rfl id hid
    cases hid.symm.trans htrace.consumed

/-- Programs of a call that consumes no code and creates no token. -/
theorem keeps_of_modest {p : Call α} {C : Op → Prop} (h : p.All C)
    (hC : ∀ op, C op → op.Modest ∧ ¬ op.Creates) (htrace : (signIn trace).Idle) :
    p.Keeps (SignInStatement env call)
      (fun trace' _ ↦ trace <+: trace' ∧ (signIn trace').Idle)
      (fun trace' _ ↦ trace <+: trace' ∧ (signIn trace').Idle) trace := by
  suffices hp : ∀ trace₀, trace <+: trace₀ → (signIn trace₀).Idle →
      p.Keeps (SignInStatement env call) (fun trace' _ ↦ trace <+: trace' ∧ (signIn trace').Idle)
        (fun trace' _ ↦ trace <+: trace' ∧ (signIn trace').Idle) trace₀ from
    hp trace (List.prefix_refl _) htrace
  induction p with
  | pure a => exact fun _ hext hsame ↦ ⟨hext, hsame⟩
  | throw e => exact fun _ hext hsame ↦ ⟨hext, hsame⟩
  | stmt op k ih =>
    intro trace₀ hext hidle
    obtain ⟨hmodest, hcreate⟩ := hC op h.1
    refine ⟨.of_modest hmodest hcreate hidle, fun r ↦
      ih r (h.2 r) _ (hext.trans (List.prefix_append _ _)) ?_⟩
    rw [signIn_append]
    exact hidle.after hmodest r

/-- What follows such a program. -/
theorem modest_bind {β : Type} {p : Call β} {f : β → Call α} {C : Op → Prop}
    {Q : List (Exchange Statements) → α → Prop} (h : p.All C)
    (hC : ∀ op, C op → op.Modest ∧ ¬ op.Creates) (htrace : (signIn trace).Idle)
    (hf : ∀ trace' b, trace <+: trace' → (signIn trace').Idle →
      (f b).Keeps (SignInStatement env call) Q (fun _ _ ↦ True) trace') :
    (p >>= f).Keeps (SignInStatement env call) Q (fun _ _ ↦ True) trace :=
  .bind ((keeps_of_modest h hC htrace).mono (fun _ _ h ↦ h) fun _ _ _ ↦ trivial)
    fun _ b h ↦ hf _ b h.1 h.2

/-! ### Unrecorded programs -/

theorem checkVerifyFailureLimit_unrecorded (limit : ℕ) (ip : Option String)
    (deviceHash : Option Digest) (locked : NewAuthEvent) (message : String) :
    (checkVerifyFailureLimit env limit ip deviceHash locked message).All Op.Unrecorded :=
  .run_bind trivial fun _ ↦ .run_bind trivial fun _ ↦
    .ite (fun _ ↦ .run_bind trivial fun _ ↦ trivial) fun _ ↦ trivial

/-- A wrong code is never answered. -/
theorem recordWrongCode_keeps {Q : List (Exchange Statements) → VerifyOtpResponse → Prop}
    (user : Keyed User) (record : Keyed OtpCode) (normalizedPhone : String) (ip : Option String)
    (deviceHash : Option Digest) :
    (recordWrongCode env user record normalizedPhone ip deviceHash).Keeps
      (SignInStatement env call) Q (fun _ _ ↦ True) trace := by
  refine .ite (fun _ ↦ ?_) fun _ ↦ ?_
  · refine keeps_run_bind (.of_unrecorded trivial) (fun _ ↦ ?_) fun _ ↦ trivial
    refine keeps_run_bind (.of_unrecorded trivial) (fun _ ↦ ?_) fun _ ↦ trivial
    refine unrecorded_bind (.run_bind trivial fun _ ↦ .run trivial) (fun _ _ _ _ ↦ ?_)
      fun _ _ _ _ ↦ trivial
    exact unrecorded_bind (.run trivial) (fun _ _ _ _ ↦ trivial) fun _ _ _ _ ↦ trivial
  · refine keeps_run_bind (.of_unrecorded trivial) (fun _ ↦ ?_) fun _ ↦ trivial
    exact unrecorded_bind (.run trivial) (fun _ _ _ _ ↦ trivial) fun _ _ _ _ ↦ trivial

theorem revokeFamilyOf_unrecorded (userId familyId : ℕ) :
    (revokeFamilyOf userId familyId).All Op.Unrecorded :=
  .run_bind trivial fun _ ↦ .bind (.run_bind trivial fun _ ↦ .run trivial) fun _ ↦ trivial

theorem signAccessToken_unrecorded (userId : ℕ) (phone : String) :
    (signAccessToken env userId phone).All Op.Unrecorded :=
  .lift_bind fun _ ↦ .run trivial

theorem prepareRefreshFamilySlot_unrecorded (userId : ℕ) (deviceHash : Option Digest) :
    (prepareRefreshFamilySlot env userId deviceHash).All Op.Unrecorded := by
  refine .bind (present_all _ _ fun deviceHash ↦ .run_bind trivial fun families ↦
    .forEach fun family _ ↦ revokeFamilyOf_unrecorded userId family) fun _ ↦ ?_
  exact .run_bind trivial fun families ↦
    .forEach fun family _ ↦ revokeFamilyOf_unrecorded userId family.1

/-! ### Signing in -/

variable {v : VerificationRequest}

/-- A replay answers from the row it found. -/
theorem replayOtpVerification_keeps : (replayOtpVerification env v).Keeps
    (SignInStatement env call)
    (fun trace' replay ↦ (trace <+: trace' ∧ signIn trace' = signIn trace) ∧
      ∀ response, replay = some response → Verified env v response trace')
    (fun _ _ ↦ True) trace := by
  refine keeps_run_bind (.of_unrecorded trivial) (fun found ↦ ?_) fun _ ↦ trivial
  match found with
  | none =>
    refine ⟨⟨List.prefix_append _ _, ?_⟩, nofun⟩
    rw [signIn_append]
    rfl
  | some (existing, phone) =>
    refine .bind (R := fun trace' response ↦ (trace <+: trace' ∧ signIn trace' = signIn trace) ∧
      Verified env v response trace') ?_ fun trace' response h ↦ ⟨h.1, fun _ hr ↦ ?_⟩
    · refine .ite (fun _ ↦ trivial) fun hphone ↦ .ite (fun _ ↦ trivial) fun hrequest ↦ ?_
      refine keeps_run_bind (.of_unrecorded trivial) (fun ok ↦ .ite (fun hok ↦ ?_) fun _ ↦ trivial)
        fun _ ↦ trivial
      cases hverified : existing.row.verifiedAt with
      | none => trivial
      | some verifiedAt =>
        cases hjson : storedResponse existing.row with
        | none => trivial
        | some json =>
          refine keeps_run_bind (.of_unrecorded trivial)
            (fun now ↦ .ite (fun _ ↦ trivial) fun _ ↦ ?_) fun _ ↦ trivial
          cases hopened : decryptOtpVerificationResponse env v json with
          | error e => trivial
          | ok response =>
            obtain rfl : phone = v.normalizedPhone := not_not.1 hphone
            obtain rfl : ok = true := hok
            refine ⟨⟨?_, ?_⟩, .replayed existing json ?_ (not_not.1 hrequest) ?_ hjson hopened⟩
            · simp only [List.append_assoc]
              exact List.prefix_append _ _
            · simp only [signIn_append]
              rfl
            · simp
            · simp [comparedEqual]
    · cases hr
      exact h.2

/-- **The transaction of a sign-in** begins a session with the code it has consumed. -/
theorem verifiedSessionBody_keeps {input : VerifiedSession} {familyId : ℕ} {familyCreatedAt : ℤ}
    {rawRefreshToken : ℕ} {consumedAt : ℤ} (htrace : signIn trace = {})
    (hcall : call.Verifies env input.verification)
    (hmatched : Matched input.verification.normalizedPhone input.verification.otp input.user.id
      input.record.id trace) (hdrew : drewFamily familyId ∈ trace) :
    (verifiedSessionBody env input familyId familyCreatedAt rawRefreshToken consumedAt).Keeps
      (SignInStatement env call)
      (fun trace' response ↦ trace <+: trace' ∧
        (signIn trace').Ready env input.verification response input.user.id input.record.id)
      (fun trace' _ ↦ trace <+: trace') trace := by
  have hlift : ∀ {trace' : List (Exchange Statements)} {e : Exchange Statements},
      trace <+: trace' → trace <+: trace' ++ [e] := fun h ↦ h.trans (List.prefix_append _ _)
  refine keeps_run_bind ⟨fun _ _ _ ↦ htrace, nofun, nofun, nofun⟩
    (fun consumed ↦ .ite (fun hconsumed ↦ ?_) fun _ ↦ hlift (List.prefix_refl _))
    fun _ ↦ hlift (List.prefix_refl _)
  obtain rfl : consumed = true := hconsumed
  set trace₁ := trace ++ [⟨.otpCode (.consume input.record.id consumedAt), .ok true⟩] with h₁
  have hext₁ : trace <+: trace₁ := List.prefix_append _ _
  have hstate₁ : signIn trace₁ = { consumed := some input.record.id } := by
    rw [h₁, signIn_append, htrace]
    rfl
  -- The other live codes of the user are listed and retired.
  refine .bind (R := fun trace₂ _ ↦ trace <+: trace₂ ∧ (signIn trace₂).consumed =
    some input.record.id ∧ (signIn trace₂).retired = some input.user.id ∧
      (signIn trace₂).begun = none ∧ (signIn trace₂).verified = none) ?_ fun trace₂ _ h₂ ↦ ?_
  · refine keeps_run_bind ⟨nofun, nofun, nofun, nofun⟩ (fun found ↦ ?_) fun _ ↦ hlift hext₁
    refine ⟨⟨nofun, nofun, nofun, nofun⟩, fun r ↦ ?_⟩
    cases r with
    | error e => exact hlift (hlift hext₁)
    | ok n =>
      refine ⟨hlift (hlift hext₁), ?_⟩
      rw [signIn_append, signIn_append, hstate₁]
      simp [SignIn.after]
  obtain ⟨hext₂, hconsumed₂, hretired₂, hbegun₂, hverified₂⟩ := h₂
  refine unrecorded_bind (.run trivial) (fun trace₃ _ hext₃ hsame₃ ↦ ?_)
    fun _ _ hext _ ↦ hext₂.trans hext
  refine unrecorded_bind (.run trivial) (fun trace₄ _ hext₄ hsame₄ ↦ ?_)
    fun _ _ hext _ ↦ hext₂.trans (hext₃.trans hext)
  have hto₄ := hext₂.trans (hext₃.trans hext₄)
  refine unrecorded_bind (prepareRefreshFamilySlot_unrecorded _ _)
    (fun trace₅ _ hext₅ hsame₅ ↦ ?_) fun _ _ hext _ ↦ hto₄.trans hext
  have hto₅ := hto₄.trans hext₅
  have hstate₅ : signIn trace₅ = signIn trace₂ := hsame₅.trans (hsame₄.trans hsame₃)
  -- The first token of the family.
  refine .bind (R := fun trace₆ _ ↦ trace <+: trace₆ ∧ ∃ first : NewRefreshToken,
    first.userId = input.user.id ∧ first.tokenHash = env.crypto.hashRefreshToken rawRefreshToken ∧
      signIn trace₆ = { signIn trace₂ with begun := some (input.record.id, first) }) ?_ fun trace₆ _ h₆ ↦ ?_
  · refine keeps_run_bind (.of_unrecorded trivial) (fun now ↦ ?_) fun _ ↦ hlift hto₅
    refine keeps_lift_bind (fun lifetime _ ↦ ?_) fun _ ↦ hlift hto₅
    have hnow : signIn (trace₅ ++ [reading now]) = signIn trace₂ := by
      rw [signIn_append, hstate₅]
      rfl
    refine ⟨⟨nofun, fun data hop ↦ .inl ?_, nofun, nofun⟩, fun r ↦ ?_⟩
    · cases hop
      rw [← reading, hnow]
      exact ⟨_, _, hconsumed₂, hbegun₂, hcall, hmatched.append (hlift hto₅),
        (hlift hto₅).subset hdrew⟩
    · have hstate : ∀ (data : NewRefreshToken) (r : Except StatementError ℕ),
          signIn (trace₅ ++ [reading now] ++ [⟨.refreshToken (.create data), r⟩]) =
            { signIn trace₂ with begun := some (input.record.id, data) } := fun data r ↦ by
        rw [signIn_append, hnow]
        simp [SignIn.after, hconsumed₂]
      cases r with
      | error e => exact hlift (hlift hto₅)
      | ok n => exact ⟨hlift (hlift hto₅), _, rfl, rfl, hstate _ _⟩
  obtain ⟨hto₆, first, huser, htoken, hstate₆⟩ := h₆
  refine unrecorded_bind (signAccessToken_unrecorded _ _) (fun trace₇ token hext₇ hsame₇ ↦ ?_)
    fun _ _ hext _ ↦ hto₆.trans hext
  refine keeps_lift_bind (fun expiresIn _ ↦ ?_) fun _ ↦ hto₆.trans hext₇
  -- The response is sealed and stored.
  refine .bind (R := fun trace₈ json ↦ (trace₇ <+: trace₈ ∧ signIn trace₈ = signIn trace₇) ∧
    ∃ iv ciphertext tag, env.crypto.sealResponse input.verification.secret iv
        (input.verification.verificationKeyHash, input.verification.verificationRequestHash)
          ⟨token, rawRefreshToken, expiresIn⟩ = (ciphertext, tag) ∧
      json = .envelope ENVELOPE_VERSION iv tag ciphertext) ?_ fun trace₈ json h₈ ↦ ?_
  · refine keeps_run_bind (.of_unrecorded trivial) (fun iv ↦ ?_)
      fun _ ↦ hlift (hto₆.trans hext₇)
    refine ⟨⟨List.prefix_append _ _, ?_⟩, iv, _, _, rfl, rfl⟩
    rw [signIn_append]
    rfl
  obtain ⟨⟨hext₈, hsame₈⟩, hsealed⟩ := h₈
  have hto₈ := hto₆.trans (hext₇.trans hext₈)
  have hstate₈ : signIn trace₈ = { signIn trace₂ with
      begun := some (input.record.id, first) } := hsame₈.trans (hsame₇.trans hstate₆)
  refine keeps_run_bind ⟨nofun, nofun, fun id data hop ↦ ?_, nofun⟩ (fun _ ↦ ?_)
    fun _ ↦ hlift hto₈
  · cases hop
    rw [hstate₈]
    exact ⟨hconsumed₂, hverified₂, _, _, hcall, rfl, rfl, hsealed⟩
  · refine ⟨hlift hto₈, ?_⟩
    rw [signIn_append, hstate₈]
    exact ⟨hconsumed₂, hretired₂, ⟨first, rfl, huser, htoken⟩, _, rfl, rfl, rfl, hsealed⟩

/-- An answer rests on what it rested on. -/
theorem Verified.append {response : VerifyOtpResponse} {trace' : List (Exchange Statements)}
    (h : Verified env v response trace) (hext : trace <+: trace')
    (hkept : (signIn trace').kept = (signIn trace).kept) : Verified env v response trace' := by
  cases h with
  | issued hmatched hk hseals => exact .issued (hmatched.append hext) (hkept.trans hk) hseals
  | replayed existing json hfound hrequest hequal hjson hopened =>
    exact .replayed existing json (hext.subset hfound) hrequest (hext.subset hequal) hjson hopened

/-- **A sign-in** is made in one transaction, or replayed. -/
theorem issueVerifiedSession_keeps (input : VerifiedSession) (htrace : signIn trace = {})
    (hcall : call.Verifies env input.verification)
    (hmatched : Matched input.verification.normalizedPhone input.verification.otp input.user.id
      input.record.id trace) :
    (issueVerifiedSession env input).Keeps (SignInStatement env call)
      (fun trace' response ↦ Verified env input.verification response trace') (fun _ _ ↦ True)
      trace := by
  refine keeps_run_bind (.of_unrecorded trivial) (fun familyId ↦ ?_) fun _ ↦ trivial
  refine keeps_run_bind (.of_unrecorded trivial) (fun familyCreatedAt ↦ ?_) fun _ ↦ trivial
  refine keeps_run_bind (.of_unrecorded trivial) (fun raw ↦ ?_) fun _ ↦ trivial
  refine keeps_run_bind (.of_unrecorded trivial) (fun consumedAt ↦ ?_) fun _ ↦ trivial
  set drawn := trace ++ [drewFamily familyId] ++ [reading familyCreatedAt] ++
    [⟨.host .generateRefreshToken, .ok raw⟩] ++ [reading consumedAt] with hdrawn
  have hext : trace <+: drawn := by
    simp only [hdrawn, List.append_assoc]
    exact List.prefix_append _ _
  have hstate : signIn drawn = {} := by
    simp only [hdrawn, signIn_append, htrace]
    rfl
  have hfamily : drewFamily familyId ∈ drawn := by simp [hdrawn]
  refine .tryCatch (F := fun _ _ ↦ True) (.bind (R := fun trace' response ↦ drawn <+: trace' ∧
    (signIn trace').Ready env input.verification response input.user.id input.record.id)
      (.tryCatch (F := fun _ _ ↦ True) ((verifiedSessionBody_keeps hstate hcall
        (hmatched.append hext) hfamily).mono (fun _ _ h ↦ h) fun _ _ _ ↦ trivial) fun _ e _ ↦ ?_)
      fun trace' response h ↦ ?_) fun trace' e _ ↦ ?_
  · exact keeps_run_bind ⟨nofun, nofun, nofun, nofun⟩ (fun _ ↦ trivial) fun _ ↦ trivial
  · obtain ⟨hext', hready⟩ := h
    obtain ⟨data, hverified, hseals⟩ := hready.verified
    refine keeps_run_bind ⟨nofun, nofun, nofun, fun _ id hid ↦ ?_⟩ (fun _ ↦ ?_) fun _ ↦ trivial
    · cases hid.symm.trans hready.consumed
      exact ⟨_, response, _, hcall, hready⟩
    · refine .issued (hmatched.append (hext.trans (hext'.trans (List.prefix_append _ _)))) ?_ hseals
      rw [signIn_append]
      simp [SignIn.after, hverified]
  · refine .bind (replayOtpVerification_keeps.mono (fun _ _ h ↦ h.2) fun _ _ _ ↦ trivial)
      fun trace'' replay h ↦ ?_
    cases replay with
    | none => trivial
    | some response => exact h response rfl

/-- **A verification** signs in with the live code it has matched. -/
theorem verifyLiveOtp_keeps (htrace : signIn trace = {}) (hcall : call.Verifies env v)
    (ip : Option String) (deviceHash : Option Digest) :
    (verifyLiveOtp env v ip deviceHash).Keeps (SignInStatement env call)
      (fun trace' response ↦ Verified env v response trace') (fun _ _ ↦ True) trace := by
  refine keeps_run_bind (.of_unrecorded trivial) (fun user ↦ ?_) fun _ ↦ trivial
  cases user with
  | none => trivial
  | some user =>
    refine keeps_run_bind (.of_unrecorded trivial) (fun now ↦ ?_) fun _ ↦ trivial
    refine keeps_run_bind (.of_unrecorded trivial) (fun record ↦ ?_) fun _ ↦ trivial
    cases record with
    | none =>
      refine .bind (replayOtpVerification_keeps.mono (fun _ _ h ↦ h.2) fun _ _ _ ↦ trivial)
        fun trace'' replay h ↦ ?_
      cases replay with
      | none => trivial
      | some response => exact h response rfl
    | some record =>
      refine .ite (fun _ ↦ ?_) fun _ ↦ ?_
      · exact keeps_run_bind (.of_unrecorded trivial) (fun _ ↦ trivial) fun _ ↦ trivial
      refine keeps_run_bind (.of_unrecorded trivial) (fun ok ↦ .ite (fun hok ↦ ?_) fun _ ↦ ?_)
        fun _ ↦ trivial
      · obtain rfl : ok = true := hok
        refine issueVerifiedSession_keeps ⟨user, record, ip, deviceHash, v⟩ ?_ hcall ?_
        · simp only [signIn_append, htrace]
          rfl
        · refine .intro user now record rfl ?_ ?_ rfl ?_
          · simp [foundUser]
          · simp [foundLive]
          · simp [comparedEqual]
      · exact recordWrongCode_keeps _ _ _ _ _

/-- The key is that of the context, where it has one. -/
theorem verificationKey_keeps (context : OtpVerificationContext) (htrace : signIn trace = {}) :
    (verificationKey env context).Keeps (SignInStatement env call)
      (fun trace' key ↦ signIn trace' = {} ∧
        ∀ key', context.idempotencyKey = some key' → key = key') (fun _ _ ↦ True) trace := by
  unfold verificationKey
  split
  · next key hkey => exact ⟨htrace, fun _ h ↦ Option.some.inj (hkey.symm.trans h)⟩
  · next hkey =>
    refine keeps_run_bind (.of_unrecorded trivial) (fun uuid ↦ ⟨?_, fun _ h ↦ ?_⟩) fun _ ↦ trivial
    · rw [signIn_append, htrace]
      rfl
    · cases hkey.symm.trans h

/-- The country that is looked up. -/
theorem requireAuthCountry_keeps (countryIso : String) :
    (requireAuthCountry env countryIso).Keeps (SignInStatement env call)
      (fun trace' isoCode ↦ signIn trace' = signIn trace ∧ ∃ country : Country,
        (⟨.country (env.toUpperCase countryIso), .ok (some country)⟩ : Exchange Statements) ∈ trace' ∧
          country.isoCode = isoCode) (fun _ _ ↦ True) trace := by
  refine keeps_run_bind (.of_unrecorded trivial) (fun country ↦ ?_) fun _ ↦ trivial
  cases country with
  | none => trivial
  | some country =>
    exact ⟨signIn_append _ _, country, List.mem_append_right _ (List.mem_singleton_self _), rfl⟩

/-- **The call** rests on its own key and phone. -/
theorem verifyOtp_keeps (phone countryIso otp : String) (context : OtpVerificationContext)
    (hcall : call = .verifyOtp phone countryIso otp context) (htrace : signIn trace = {}) :
    (verifyOtp env phone countryIso otp context).Keeps (SignInStatement env call)
      (fun trace' response ↦ ∃ v, call.Verifies env v ∧
        Dials env phone countryIso v.normalizedPhone trace' ∧ Verified env v response trace')
      (fun _ _ ↦ True) trace := by
  have hlimit : ∀ limit ip deviceHash locked message,
      (checkVerifyFailureLimit env limit ip deviceHash locked message).All Op.Unrecorded :=
    checkVerifyFailureLimit_unrecorded
  unfold verifyOtp
  refine .bind (requireAuthCountry_keeps countryIso) fun trace₁ isoCode ⟨h₁, country, hmem, hiso⟩ ↦ ?_
  refine keeps_lift_bind (fun normalizedPhone hphone ↦ ?_) fun _ ↦ trivial
  -- The number is the one that was dialled, whatever the call does from here on.
  refine Prog.Keeps.mono_prefix (F := fun trace' response ↦ ∃ v, call.Verifies env v ∧
    v.normalizedPhone = normalizedPhone ∧ Verified env v response trace') (G := fun _ _ ↦ True) ?_
      (fun trace' response hext ⟨v, hv, hsame, hverified⟩ ↦
        ⟨v, hv, ⟨country, hext.subset hmem, hsame ▸ hiso ▸ hphone⟩, hverified⟩) fun _ _ _ _ ↦ trivial
  refine keeps_lift_bind (fun deviceHash hdevice ↦ ?_) fun _ ↦ trivial
  refine .bind (verificationKey_keeps context (h₁.trans htrace)) fun trace₂ key h₂ ↦ ?_
  generalize hchecked : idempotencyKeyOf key = checkedKey
  obtain ⟨hstate₂, hkey⟩ := h₂
  refine keeps_lift_bind (fun idempotencyKey hidempotency ↦ ?_) fun _ ↦ trivial
  refine keeps_lift_bind (fun secret hsecret ↦ ?_) fun _ ↦ trivial
  have hkeyed : ∀ key', context.idempotencyKey = some key' → ∃ idempotencyKey',
      idempotencyKeyOf key' = .ok idempotencyKey' ∧
        env.crypto.sha256 idempotencyKey = env.crypto.sha256 idempotencyKey' := by
    intro key' hkey'
    obtain rfl := hkey key' hkey'
    exact ⟨idempotencyKey, hchecked.trans hidempotency, rfl⟩
  have hverifies : call.Verifies env ⟨secret, env.crypto.sha256 idempotencyKey,
      env.crypto.hmacRequest secret deviceHash, normalizedPhone, otp⟩ :=
    ⟨⟨phone, countryIso, context, hcall, ⟨isoCode, hphone⟩, hkeyed, deviceHash, hdevice, rfl⟩,
      hsecret⟩
  refine .bind replayOtpVerification_keeps fun trace₃ replay h₃ ↦ ?_
  cases replay with
  | some response => exact ⟨_, hverifies, rfl, h₃.2 response rfl⟩
  | none =>
    refine unrecorded_bind (present_all _ _ fun _ ↦ hlimit _ _ _ _ _) (fun trace₄ _ _ h₄ ↦ ?_)
      fun _ _ _ _ ↦ trivial
    refine unrecorded_bind (present_all _ _ fun _ ↦ hlimit _ _ _ _ _) (fun trace₅ _ _ h₅ ↦ ?_)
      fun _ _ _ _ ↦ trivial
    have hstate₅ : signIn trace₅ = {} := h₅.trans (h₄.trans (h₃.1.2.trans hstate₂))
    exact (verifyLiveOtp_keeps hstate₅ hverifies _ _).mono (fun _ _ h ↦ ⟨_, hverifies, rfl, h⟩)
      fun _ _ h ↦ h

/-! ### The other calls -/

/-- Statements of refreshes and logouts, but for the creation of a token. -/
def Op.Renews : Op → Prop
  | .refreshToken (.create _) => False
  | .refreshToken _ | .host _ | .lockRefreshUser _ | .commit | .rollback => True
  | _ => False

/-- Refreshes and logouts are modest and create no first token. -/
theorem Op.Renews.modest {op : Op} (h : op.Renews) : op.Modest ∧ ¬ op.Creates := by
  refine ⟨Op.modest_of (C := Op.Renews) nofun nofun h, ?_⟩
  rintro ⟨data, rfl⟩
  cases h

theorem revokeRefreshTokens_renews (userId : ℕ) (scope : RevokeWhere) :
    (revokeRefreshTokens userId scope).All Op.Renews :=
  .transaction (.run_bind trivial fun _ ↦ .run_bind trivial fun _ ↦ .run_bind trivial fun _ ↦
    .run trivial) trivial trivial

theorem verifiedSubject_renews (accessToken : ℕ) : (verifiedSubject accessToken).All Op.Renews :=
  .tryCatch (.run trivial) fun _ ↦ trivial

theorem userOfRefreshToken_renews (refreshToken : Option ℕ) :
    (userOfRefreshToken env refreshToken).All Op.Renews := by
  cases refreshToken with
  | none => trivial
  | some token => exact .run_bind trivial fun _ ↦ trivial

theorem resolveUserIdForLogout_renews (input : RevokeSessionInput) :
    (resolveUserIdForLogout env input).All Op.Renews := by
  unfold resolveUserIdForLogout
  split
  · refine .ite (fun _ ↦ trivial) fun _ ↦ .bind (verifiedSubject_renews _) fun subject ↦ ?_
    cases subject with
    | none => exact userOfRefreshToken_renews _
    | some userId => trivial
  · exact userOfRefreshToken_renews _

theorem revokeSession_renews (input : RevokeSessionInput) :
    (revokeSession env input).All Op.Renews := by
  refine .ite (fun _ ↦ ?_) fun _ ↦ ?_
  · refine .bind (resolveUserIdForLogout_renews input) fun userId ↦ ?_
    cases userId with
    | none => trivial
    | some userId => exact .bind (revokeRefreshTokens_renews _ _) fun _ ↦ trivial
  · split
    · refine .run_bind trivial fun existing ↦ ?_
      match existing with
      | none => trivial
      | some (existing, _) => exact .bind (revokeRefreshTokens_renews _ _) fun _ ↦ trivial
    · refine .ite (fun _ ↦ ?_) fun _ ↦ trivial
      exact .bind (verifiedSubject_renews _) fun _ ↦ trivial
    · trivial

/-- The first token of a rotation is created for a token that was looked up. -/
theorem createRefreshTokenRow_signIn {hash : Digest} {existing : Keyed RefreshToken}
    {phone : String} {deviceHash : Option Digest} {familyCreatedAt : ℤ} {rawToken : ℕ}
    (htrace : (signIn trace).Idle) (hlookup : lookup hash existing phone ∈ trace) :
    (createRefreshTokenRow env existing.row.userId existing.row.familyId deviceHash familyCreatedAt
      rawToken).Keeps (SignInStatement env call) (fun trace' _ ↦ (signIn trace').Idle)
      (fun _ _ ↦ True) trace := by
  refine modest_bind (C := Op.Renews) (.run trivial) (fun _ h ↦ h.modest) htrace
    fun trace' now hext hidle ↦ ?_
  refine keeps_lift_bind (fun lifetime _ ↦ ?_) fun _ ↦ trivial
  refine ⟨⟨nofun, fun data hop ↦ .inr ?_, nofun, nofun⟩, fun r ↦ ?_⟩
  · cases hop
    exact ⟨hidle.consumed, hash, existing, phone, hext.subset hlookup, rfl, rfl⟩
  · cases r with
    | ok n =>
      show (signIn (_ ++ [_])).Idle
      rw [signIn_append]
      exact @SignIn.Idle.after _ hidle (.refreshToken (.create _)) trivial _
    | error e => trivial

/-- **The transaction of a rotation** continues the family of the token that was looked up. -/
theorem rotateBody_signIn {hash : Digest} {existing : Keyed RefreshToken} {phone : String}
    {familyMaxAgeMs : ℕ} {deviceHash : Option Digest} (htrace : (signIn trace).Idle)
    (hlookup : lookup hash existing phone ∈ trace) :
    (rotateBody env existing phone familyMaxAgeMs deviceHash).Keeps (SignInStatement env call)
      (fun trace' _ ↦ (signIn trace').Idle) (fun _ _ ↦ True) trace := by
  have hrenews : ∀ op : Op, op.Renews → op.Modest ∧ ¬ op.Creates := fun _ h ↦ h.modest
  refine modest_bind (C := Op.Renews) (.run trivial) hrenews htrace fun trace₁ _ hext₁ h₁ ↦ ?_
  refine modest_bind (C := Op.Renews) (.run trivial) hrenews h₁ fun trace₂ _ hext₂ h₂ ↦ ?_
  refine modest_bind (C := Op.Renews) (.run trivial) hrenews h₂ fun trace₃ hit hext₃ h₃ ↦
    .ite (fun _ ↦ ?_) fun _ ↦ h₃
  refine modest_bind (C := Op.Renews) (.run trivial) hrenews h₃ fun trace₄ raw hext₄ h₄ ↦ ?_
  have hlookup₄ := (hext₁.trans (hext₂.trans (hext₃.trans hext₄))).subset hlookup
  refine .bind (createRefreshTokenRow_signIn h₄ hlookup₄) fun trace₅ created h₅ ↦ ?_
  refine modest_bind (C := Op.Renews) (.run trivial) hrenews h₅ fun trace₆ _ _ h₆ ↦ ?_
  refine modest_bind (C := Op.Renews) (.lift_bind fun _ ↦ .run trivial) hrenews h₆
    fun trace₇ _ _ h₇ ↦ ?_
  exact keeps_lift_bind (fun _ _ ↦ h₇) fun _ ↦ trivial

/-- A refresh goes on with a family that it has looked up. -/
theorem refreshSession_signIn (refreshToken : ℕ) (context : AuthRequestContext)
    (htrace : (signIn trace).Idle) : (refreshSession env refreshToken context).Keeps
      (SignInStatement env call) (fun _ _ ↦ True) (fun _ _ ↦ True) trace := by
  have hrenews : ∀ op : Op, op.Renews → op.Modest ∧ ¬ op.Creates := fun _ h ↦ h.modest
  have hrevoke : ∀ {trace' : List (Exchange Statements)} {e : Failure} (F u : ℕ),
      (signIn trace').Idle → (do
        let _ ← revokeRefreshFamily F u
        throw e : Call VerifyOtpResponse).Keeps (SignInStatement env call) (fun _ _ ↦ True)
          (fun _ _ ↦ True) trace' := fun F u h ↦
    modest_bind (revokeRefreshTokens_renews _ _) hrenews h fun _ _ _ _ ↦ trivial
  refine keeps_run_bind (.of_unrecorded trivial) (fun found ↦ ?_) fun _ ↦ trivial
  have hidle : (signIn (trace ++ [⟨.refreshToken (.findByHash
      (env.crypto.hashRefreshToken refreshToken)), .ok found⟩])).Idle := by
    rw [signIn_append]
    exact @SignIn.Idle.after _ htrace (.refreshToken (.findByHash _)) trivial _
  match found with
  | none => trivial
  | some (existing, phone) =>
    refine .ite (fun _ ↦ hrevoke _ _ hidle) fun _ ↦ ?_
    refine modest_bind (C := Op.Renews) (.run trivial) hrenews hidle fun trace₁ now hext₁ h₁ ↦
      .ite (fun _ ↦ ?_) fun _ ↦ ?_
    · exact modest_bind (C := Op.Renews) (.run trivial) hrenews h₁ fun trace₂ _ _ h₂ ↦
        modest_bind (C := Op.Renews) (.run trivial) hrenews h₂ fun _ _ _ _ ↦ trivial
    · refine keeps_lift_bind (fun maxAge _ ↦ ?_) fun _ ↦ trivial
      refine modest_bind (C := Op.Renews) (.run trivial) hrenews h₁ fun trace₂ now hext₂ h₂ ↦
        .ite (fun _ ↦ hrevoke _ _ h₂) fun _ ↦ ?_
      refine keeps_lift_bind (fun deviceHash _ ↦ .ite (fun _ ↦ ?_) fun _ ↦ trivial) fun _ ↦ trivial
      have hlookup : lookup (env.crypto.hashRefreshToken refreshToken) existing phone ∈ trace₂ :=
        (hext₁.trans hext₂).subset (List.mem_append_right _ (List.mem_singleton_self _))
      refine .bind (.bind (.tryCatch (F := fun _ _ ↦ True) (rotateBody_signIn h₂ hlookup)
        fun _ _ _ ↦ ?_) fun trace₃ a h₃ ↦ ?_) (R := fun trace' _ ↦ (signIn trace').Idle)
          fun trace₄ session h₄ ↦ ?_
      · exact keeps_run_bind ⟨nofun, nofun, nofun, nofun⟩ (fun _ ↦ trivial) fun _ ↦ trivial
      · exact modest_bind (C := Op.Renews) (.run trivial) hrenews h₃ fun _ _ _ h ↦ h
      · cases session with
        | some session => trivial
        | none =>
          refine modest_bind (C := Op.Renews) (.run trivial) hrenews h₄
            fun trace₅ current _ h₅ ↦ ?_
          match current with
          | none => trivial
          | some (current, _) => exact .ite (fun _ ↦ hrevoke _ _ h₅) fun _ ↦ trivial

/-- **Every call** keeps to the record. -/
theorem program_signIn (call : ApiCall) : (call.program env).Keeps (SignInStatement env call)
    (fun trace' a ↦ call.VerifiedBy env trace' a) (fun _ _ ↦ True) [] := by
  have hreply : ∀ {α : Type} {p : Call α} {C : Op → Prop} (g : α → ApiResponse),
      (∀ phone countryIso otp context, call ≠ .verifyOtp phone countryIso otp context) → p.All C →
      (∀ op, C op → op.Modest ∧ ¬ op.Creates) → (g <$> p).Keeps (SignInStatement env call)
        (fun trace' a ↦ call.VerifiedBy env trace' a) (fun _ _ ↦ True) [] := fun g hcall hp hC ↦
    modest_bind hp hC SignIn.idle_empty fun _ _ _ _ _ _ _ _ h ↦ absurd h (hcall _ _ _ _)
  cases call with
  | requestOtp phone countryIso context =>
    refine hreply _ (fun _ _ _ _ ↦ nofun) (requestOtp_all env _ _ _) fun op h ↦ ⟨h.modest, ?_⟩
    rintro ⟨data, rfl⟩
    cases h
  | verifyOtp phone countryIso otp context =>
    refine .bind (verifyOtp_keeps phone countryIso otp context rfl rfl)
      fun trace' response h ↦ fun _ _ _ _ hcall ↦ ?_
    cases hcall
    obtain ⟨v, hv, hdials, hverified⟩ := h
    exact ⟨v, response, rfl, hv, hdials, hverified⟩
  | refreshSession refreshToken context =>
    refine .bind (refreshSession_signIn refreshToken context SignIn.idle_empty)
      fun _ _ _ ↦ fun _ _ _ _ hcall ↦ ?_
    cases hcall
  | revokeSession input =>
    exact hreply _ (fun _ _ _ _ ↦ nofun) (revokeSession_renews input) fun op h ↦ h.modest
  | enqueueReadinessAlert input =>
    refine hreply _ (fun _ _ _ _ ↦ nofun) (enqueueReadinessAlert_all env input)
      fun op h ↦ ⟨h.modest, ?_⟩
    rintro ⟨data, rfl⟩
    cases h
  | redactTerminalPayloads =>
    refine hreply _ (fun _ _ _ _ ↦ nofun) redactTerminalPayloads_all fun op h ↦ ⟨h.modest, ?_⟩
    rintro ⟨data, rfl⟩
    cases h
  | tick =>
    refine hreply _ (fun _ _ _ _ ↦ nofun) (tick_all env) fun op h ↦ ⟨h.modest, ?_⟩
    rintro ⟨data, rfl⟩
    cases h

end Programs

end Stead
