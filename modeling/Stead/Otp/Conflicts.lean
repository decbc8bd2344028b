import Stead.Otp.Retries

/-!
# Other verifications under a key

Once a response is stored under an idempotency key, the key is taken: a call that starts later under
it is given this response, or is rejected with a conflict. Together with `Otp.OneSession`,
`Otp.Replays` and `Otp.Retries` this says all there is about a code and a key
(`one_session_per_key`): one session from the code, one session under the key, one answer to all who
succeed, and conflicts for whoever asks for something else or too late.

## What a call asks for

A call asks under a key for the session of a phone, a code and a device (`Subject`,
`ApiCall.Asks`). The number of the phone is the one in the country of the call, so it depends on the
countries that are configured; the device is the identifier in lower case, or none.

## The first lookup

A call looks its key up before anything else, and what it finds settles the call (`KeySettled`): if
it finds the row of the key, it ends in a conflict, or it repeats the verification of this row for
the same number, the same device and the same code, in time (`RepeatsStored`). This is read off the
statements of the call alone (`verifyOtp_settles`), without regard to what is stored. The cases in
which a call does not come as far are all listed in `KeyedEnd`.

## What a later call finds

A row with a verification keeps it as long as it is there (`StoredAs`), and no other row has its key
(`KeysUnique`), so the lookup of a call that starts later finds this row (`TakenSince`). It reads the
clock later, too, so a call that starts after the time for replays is over is too late.
-/

namespace Stead

open Concurrency

variable {ι : Type}

/-! ### What a call asks for -/

/-- The country of a code, if it is one to sign in from. -/
def World.authCountry (w : World ι) (isoCode : String) : Option Country :=
  w.countries.find? fun c ↦ c.isoCode = isoCode && c.authEnabled

/-- The device that an identifier names. -/
def deviceOf (deviceId : Option String) : Option String :=
  (deviceId.filter (· ≠ "")).map fun text ↦ String.ofList (text.toList.map Char.toLower)

/-- What a session is asked for: a phone number, the code that was sent to it, and a device. -/
structure Subject where
  phone : String
  otp : String
  device : Option String
deriving DecidableEq

/-- The call carries the idempotency key. -/
def ApiCall.Carries (call : ApiCall) (key : String) : Prop :=
  ∃ phone countryIso otp context key', call = .verifyOtp phone countryIso otp context ∧
    context.idempotencyKey = some key' ∧ idempotencyKeyOf key' = .ok key

/-- The call asks for a session of the subject, under the key: its phone has this number in its
country, and its device identifier is a valid one of the device. -/
def ApiCall.Asks (env : Env) (w : World ι) (call : ApiCall) (key : String) (about : Subject) :
    Prop :=
  ∃ phone countryIso context key' country deviceHash,
    call = .verifyOtp phone countryIso about.otp context ∧
      context.idempotencyKey = some key' ∧ idempotencyKeyOf key' = .ok key ∧
        w.authCountry (env.toUpperCase countryIso) = some country ∧
          normalizePhoneNumber env phone country.isoCode = .ok about.phone ∧
            hashDeviceIdentifier env context.deviceId = .ok deviceHash ∧
              deviceOf context.deviceId = about.device

/-- The row is verified for the subject: it is a row of the user with the number, for the code, and
the digest of the request is that of the device. -/
structure OtpCode.VerifiedFor (env : Env) (w : World ι) (row : OtpCode) (about : Subject) :
    Prop where
  phone : w.phoneOf row.userId = some about.phone
  code : env.crypto.bcryptCompare about.otp row.codeHash = true
  device : ∃ secret deviceId deviceHash, otpVerificationEncryptionKey env = .ok secret ∧
    hashDeviceIdentifier env deviceId = .ok deviceHash ∧ deviceOf deviceId = about.device ∧
      row.verificationRequestHash = some (env.crypto.hmacRequest secret deviceHash)

/-- What is assumed of the cryptography: a hash is of one code, devices have digests of their own,
and what was sealed is opened under the same secret and the same associated data. -/
structure TellsApart (env : Env) : Prop where
  codes : ∀ otp otp' codeHash, env.crypto.bcryptCompare otp codeHash = true →
    env.crypto.bcryptCompare otp' codeHash = true → otp = otp'
  devices : ∀ secret deviceId deviceId' deviceHash deviceHash',
    hashDeviceIdentifier env deviceId = .ok deviceHash →
      hashDeviceIdentifier env deviceId' = .ok deviceHash' →
        env.crypto.hmacRequest secret deviceHash = env.crypto.hmacRequest secret deviceHash' →
          deviceOf deviceId = deviceOf deviceId'
  opens : ∀ secret iv aad response,
    env.crypto.openResponse secret iv aad (env.crypto.sealResponse secret iv aad response).1
      (env.crypto.sealResponse secret iv aad response).2 = some response

/-- A row is verified for one subject. -/
theorem OtpCode.VerifiedFor.unique {env : Env} (henv : TellsApart env) {w : World ι} {row : OtpCode}
    {a b : Subject} (ha : row.VerifiedFor env w a) (hb : row.VerifiedFor env w b) : a = b := by
  obtain ⟨phone, otp, device⟩ := a
  obtain ⟨phone', otp', device'⟩ := b
  obtain ⟨hphone, hcode, secret, deviceId, deviceHash, hsecret, hhash, hdevice, hrow⟩ := ha
  obtain ⟨hphone', hcode', secret', deviceId', deviceHash', hsecret', hhash', hdevice', hrow'⟩ := hb
  obtain rfl := Except.ok.inj (hsecret.symm.trans hsecret')
  have hdevices := henv.devices secret deviceId deviceId' deviceHash deviceHash' hhash hhash'
    (Option.some.inj (hrow.symm.trans hrow'))
  obtain rfl : phone = phone' := Option.some.inj (hphone.symm.trans hphone')
  obtain rfl : otp = otp' := henv.codes otp otp' row.codeHash hcode hcode'
  obtain rfl : device = device' := hdevice.symm.trans (hdevices.trans hdevice')
  rfl

theorem ApiCall.Asks.carries {env : Env} {w : World ι} {call : ApiCall} {key : String}
    {about : Subject} (h : call.Asks env w key about) : call.Carries key := by
  obtain ⟨_, _, _, _, _, _, hcall, hcarries, hkey, -⟩ := h
  exact ⟨_, _, _, _, _, hcall, hcarries, hkey⟩

/-- A call asks for one subject. -/
theorem ApiCall.Asks.unique {env : Env} {w : World ι} {call : ApiCall} {key : String} {a b : Subject}
    (ha : call.Asks env w key a) (hb : call.Asks env w key b) : a = b := by
  obtain ⟨phone, otp, device⟩ := a
  obtain ⟨phone', otp', device'⟩ := b
  obtain ⟨_, _, context, _, country, _, hcall, -, -, hcountry, hphone, -, hdevice⟩ := ha
  obtain ⟨_, _, context', _, country', _, hcall', -, -, hcountry', hphone', -, hdevice'⟩ := hb
  cases hcall.symm.trans hcall'
  obtain rfl := Option.some.inj (hcountry.symm.trans hcountry')
  obtain rfl : phone = phone' := Except.ok.inj (hphone.symm.trans hphone')
  obtain rfl : device = device' := hdevice.symm.trans hdevice'
  rfl

/-! ### What a lookup settles -/

/-- The key of a verification has been looked up, with this answer. -/
def lookedUp (key : Digest) (found : Option (Keyed OtpCode × String)) : Exchange Statements :=
  ⟨.otpCode (.findByVerificationKey key), .ok found⟩

/-- The clock has been read. -/
def readClock (now : ℤ) : Exchange Statements := ⟨.host .now, .ok now⟩

/-- The call repeats the verification of the row it has found: for its number, its device and its
code, within the time a replay is allowed. -/
structure RepeatsStored (v : VerificationRequest) (existing : Keyed OtpCode) (phone : String)
    (trace : List (Exchange Statements)) : Prop where
  phone : phone = v.normalizedPhone
  request : existing.row.verificationRequestHash = some v.verificationRequestHash
  code : comparedEqual existing.id v.otp existing.row.codeHash ∈ trace
  inTime : ∃ verifiedAt now, existing.row.verifiedAt = some verifiedAt ∧ readClock now ∈ trace ∧
    now - verifiedAt ≤ OTP_VERIFICATION_REPLAY_WINDOW_MS

/-- The failures of a key that is taken: it is of another verification, or the time is over. -/
def Failure.TakenKey (e : Failure) : Prop := e = ALREADY_USED ∨ e = REPLAY_WINDOW_EXPIRED

/-- A statement of the call has failed. -/
def Interrupted (trace : List (Exchange Statements)) : Prop :=
  ∃ op e, (⟨op, .error e⟩ : Exchange Statements) ∈ trace

/-- What the first lookup of its key makes of a call, with its failure if it fails. -/
inductive KeySettled (v : VerificationRequest) (trace : List (Exchange Statements)) :
    Option Failure → Prop
  | free {failure : Option Failure} (h : lookedUp v.verificationKeyHash none ∈ trace) :
      KeySettled v trace failure
  | interrupted {e : Failure} (h : Interrupted trace) : KeySettled v trace (some e)
  | conflict {e : Failure} (h : e.TakenKey) : KeySettled v trace (some e)
  | repeated {failure : Option Failure} {existing : Keyed OtpCode} {phone : String}
      (hfound : foundVerified v.verificationKeyHash existing phone ∈ trace)
      (h : RepeatsStored v existing phone trace) : KeySettled v trace failure

/-- How a call ends whose key and device are valid: a statement before the lookup failed, its phone
was refused, or the lookup has settled it. -/
inductive KeyedEnd (env : Env) (phone countryIso : String) (v : String → VerificationRequest)
    (trace : List (Exchange Statements)) : Option Failure → Prop
  | interrupted {e : Failure} (h : Interrupted trace) : KeyedEnd env phone countryIso v trace (some e)
  | refused {e : Failure} {answer : Option Country}
      (h : (⟨.country (env.toUpperCase countryIso), .ok answer⟩ : Exchange Statements) ∈ trace)
      (hphone : ∀ country ∈ answer, ∀ normalizedPhone,
        normalizePhoneNumber env phone country.isoCode ≠ .ok normalizedPhone) :
      KeyedEnd env phone countryIso v trace (some e)
  | settled {failure : Option Failure} {normalizedPhone : String}
      (hdials : Dials env phone countryIso normalizedPhone trace)
      (h : KeySettled (v normalizedPhone) trace failure) : KeyedEnd env phone countryIso v trace failure

section Programs

variable {env : Env} {trace : List (Exchange Statements)} {α : Type} {v : VerificationRequest}

/-- The statement that has failed last. -/
theorem Interrupted.last {op : Op} {e : StatementError} :
    Interrupted (trace ++ [(⟨op, .error e⟩ : Exchange Statements)]) :=
  ⟨op, e, List.mem_append_right _ (List.mem_singleton_self _)⟩

/-- A check that is passed. -/
theorem keeps_lift_ok {β : Type} {x : Except Failure β} {b : β} {f : β → Call α}
    {Q : List (Exchange Statements) → α → Prop} {E : List (Exchange Statements) → Failure → Prop}
    (hx : x = .ok b) (h : (f b).Keeps (fun _ _ ↦ True) Q E trace) :
    (lift x >>= f).Keeps (fun _ _ ↦ True) Q E trace := by
  subst hx
  exact h

/-- What follows a lookup that has found nothing is settled by it. -/
theorem settles_of_free {p : Call α} (h : lookedUp v.verificationKeyHash none ∈ trace) :
    p.Keeps (fun _ _ ↦ True) (fun trace' _ ↦ KeySettled v trace' none)
      (fun trace' e ↦ KeySettled v trace' (some e)) trace :=
  ((Prog.all_true p).keeps fun _ _ _ _ ↦ trivial).mono (fun _ _ hext ↦ .free (hext.subset h))
    fun _ _ hext ↦ .free (hext.subset h)

/-- Answering from the row that was found. -/
theorem replayFrom_settles {existing : Keyed OtpCode} {phone : String}
    (hfound : foundVerified v.verificationKeyHash existing phone ∈ trace) :
    (replayFrom env v existing phone).Keeps (fun _ _ ↦ True)
      (fun trace' _ ↦ KeySettled v trace' none) (fun trace' e ↦ KeySettled v trace' (some e))
      trace := by
  have hused : ∀ trace', KeySettled v trace' (some ALREADY_USED) := fun _ ↦ .conflict (.inl rfl)
  have hlate : ∀ trace', KeySettled v trace' (some REPLAY_WINDOW_EXPIRED) :=
    fun _ ↦ .conflict (.inr rfl)
  refine .ite (fun _ ↦ hused _) fun hphone ↦ .ite (fun _ ↦ hused _) fun hrequest ↦ ?_
  refine keeps_run_bind trivial (fun ok ↦ .ite (fun hok ↦ ?_) fun _ ↦ hused _)
    fun _ ↦ .interrupted .last
  obtain rfl : ok = true := hok
  cases hverified : existing.row.verifiedAt with
  | none => exact hlate _
  | some verifiedAt =>
    cases storedResponse existing.row with
    | none => exact hlate _
    | some json =>
      refine keeps_run_bind trivial (fun now ↦ .ite (fun _ ↦ hlate _) fun hnow ↦ ?_)
        fun _ ↦ .interrupted .last
      have hrepeated : ∀ failure, KeySettled v (trace ++ [comparedEqual existing.id v.otp
          existing.row.codeHash] ++ [readClock now]) failure := fun failure ↦
        .repeated (by simp [hfound]) ⟨not_not.1 hphone, not_not.1 hrequest, by simp, verifiedAt, now,
          hverified, by simp, not_lt.1 hnow⟩
      cases decryptOtpVerificationResponse env v json with
      | ok response => exact hrepeated none
      | error e => exact hrepeated (some e)

/-- **The lookup** of a key. -/
theorem replayOtpVerification_settles :
    (replayOtpVerification env v).Keeps (fun _ _ ↦ True)
      (fun trace' replay ↦ (replay = none → lookedUp v.verificationKeyHash none ∈ trace') ∧
        (replay.isSome → KeySettled v trace' none))
      (fun trace' e ↦ KeySettled v trace' (some e)) trace := by
  refine keeps_run_bind trivial (fun found ↦ ?_) fun _ ↦ .interrupted .last
  match found with
  | none =>
    exact ⟨fun _ ↦ List.mem_append_right _ (List.mem_singleton_self _), fun h ↦ by cases h⟩
  | some (existing, phone) =>
    exact .bind (replayFrom_settles (List.mem_append_right _ (List.mem_singleton_self _)))
      fun _ _ h ↦ ⟨fun hnone ↦ absurd hnone (Option.some_ne_none _), fun _ ↦ h⟩

/-- **A call** is settled by its first lookup, if it comes as far. -/
theorem verifyOtp_settles {phone countryIso otp key key' secret : String}
    {context : OtpVerificationContext} {deviceHash : Option Digest}
    (hcarries : context.idempotencyKey = some key') (hkey : idempotencyKeyOf key' = .ok key)
    (hdevice : hashDeviceIdentifier env context.deviceId = .ok deviceHash)
    (hsecret : otpVerificationEncryptionKey env = .ok secret) :
    (verifyOtp env phone countryIso otp context).Keeps (fun _ _ ↦ True)
      (fun trace' _ ↦ KeyedEnd env phone countryIso (⟨secret, env.crypto.sha256 key,
        env.crypto.hmacRequest secret deviceHash, ·, otp⟩) trace' none)
      (fun trace' e ↦ KeyedEnd env phone countryIso (⟨secret, env.crypto.sha256 key,
        env.crypto.hmacRequest secret deviceHash, ·, otp⟩) trace' (some e)) [] := by
  have hchecked : verificationKey env context = pure key' := by rw [verificationKey, hcarries]
  unfold verifyOtp
  refine .bind (R := fun trace' isoCode ↦ ∃ country : Country, country.isoCode = isoCode ∧
    (⟨.country (env.toUpperCase countryIso), .ok (some country)⟩ : Exchange Statements) ∈ trace')
    ?_ fun trace₁ isoCode ⟨country, hiso, hcountry⟩ ↦ ?_
  · refine keeps_run_bind trivial (fun answer ↦ ?_) fun _ ↦ .interrupted .last
    cases answer with
    | none => exact .refused (List.mem_singleton_self _) fun _ h ↦ by cases h
    | some country => exact ⟨country, rfl, List.mem_singleton_self _⟩
  cases hphone : normalizePhoneNumber env phone isoCode with
  | error e =>
    refine .refused hcountry fun country' hsame normalizedPhone hok ↦ ?_
    obtain rfl := Option.some.inj hsame
    cases (hiso ▸ hphone).symm.trans hok
  | ok normalizedPhone =>
    have hdials : ∀ trace', trace₁ <+: trace' → Dials env phone countryIso normalizedPhone trace' :=
      fun _ hext ↦ ⟨country, hext.subset hcountry, hiso ▸ hphone⟩
    refine keeps_lift_ok rfl ?_
    refine keeps_lift_ok hdevice ?_
    rw [hchecked]
    generalize idempotencyKeyOf = checkedKeyOf at hkey ⊢
    refine keeps_lift_ok hkey ?_
    refine keeps_lift_ok hsecret ?_
    refine Prog.Keeps.mono_prefix (F := fun trace' _ ↦ KeySettled ⟨secret, env.crypto.sha256 key,
      env.crypto.hmacRequest secret deviceHash, normalizedPhone, otp⟩ trace' none) (G := fun trace' e ↦
        KeySettled ⟨secret, env.crypto.sha256 key, env.crypto.hmacRequest secret deviceHash,
          normalizedPhone, otp⟩ trace' (some e)) ?_ (fun trace' _ hext h ↦ .settled (hdials trace' hext) h)
            fun trace' _ hext h ↦ .settled (hdials trace' hext) h
    refine .bind replayOtpVerification_settles fun trace₂ replay h ↦ ?_
    cases replay with
    | some response => exact h.2 rfl
    | none => exact settles_of_free (h.1 rfl)

/-- How a call ends that carries the key and has a valid device. -/
def ApiCall.KeyedBy (env : Env) (key : String) (call : ApiCall) (trace : List (Exchange Statements))
    (failure : Option Failure) : Prop :=
  ∀ phone countryIso otp context key' deviceHash secret,
    call = .verifyOtp phone countryIso otp context → context.idempotencyKey = some key' →
      idempotencyKeyOf key' = .ok key → hashDeviceIdentifier env context.deviceId = .ok deviceHash →
        otpVerificationEncryptionKey env = .ok secret → KeyedEnd env phone countryIso
          (⟨secret, env.crypto.sha256 key, env.crypto.hmacRequest secret deviceHash, ·, otp⟩) trace
            failure

variable (env) in
/-- **Every call** that carries the key is settled by its first lookup. -/
theorem program_settles (key : String) (call : ApiCall) : (call.program env).Keeps (fun _ _ ↦ True)
    (fun trace _ ↦ call.KeyedBy env key trace none)
    (fun trace e ↦ call.KeyedBy env key trace (some e)) [] := by
  by_cases h : ∃ phone countryIso otp context key' deviceHash secret,
      call = .verifyOtp phone countryIso otp context ∧ context.idempotencyKey = some key' ∧
        idempotencyKeyOf key' = .ok key ∧ hashDeviceIdentifier env context.deviceId = .ok deviceHash ∧
          otpVerificationEncryptionKey env = .ok secret
  · obtain ⟨phone, countryIso, otp, context, key', deviceHash, secret, rfl, hcarries, hkey, hdevice,
      hsecret⟩ := h
    -- What the call is of is determined by its arguments.
    have hkeyed : ∀ trace failure, KeyedEnd env phone countryIso (⟨secret, env.crypto.sha256 key,
        env.crypto.hmacRequest secret deviceHash, ·, otp⟩) trace failure →
          (ApiCall.verifyOtp phone countryIso otp context).KeyedBy env key trace failure := by
      intro trace failure h phone' countryIso' otp' context' key'' deviceHash' secret' hcall _ _
        hdevice' hsecret'
      cases hcall
      obtain rfl := Except.ok.inj (hdevice.symm.trans hdevice')
      obtain rfl := Except.ok.inj (hsecret.symm.trans hsecret')
      exact h
    exact .bind ((verifyOtp_settles hcarries hkey hdevice hsecret).mono (fun _ _ h ↦ hkeyed _ _ h)
      fun _ _ h ↦ hkeyed _ _ h) fun _ _ h ↦ h
  · refine ((Prog.all_true _).keeps fun _ _ _ _ ↦ trivial).mono (fun _ _ _ ↦ ?_) fun _ _ _ ↦ ?_ <;>
      exact fun _ _ _ _ _ _ _ hcall hcarries hkey hdevice hsecret ↦
        absurd ⟨_, _, _, _, _, _, _, hcall, hcarries, hkey, hdevice, hsecret⟩ h

end Programs

/-! ### What a later call finds -/

variable [DecidableEq ι]

/-- Countries are looked up as they were at the beginning. -/
structure Dialled (w : World ι) (s : History ι) : Prop where
  countries : s.shared.countries = w.countries
  answers : ∀ i isoCode answer, (⟨.country isoCode, .ok answer⟩ : Exchange Statements) ∈ s.trace i →
    answer = w.authCountry isoCode

/-- Row `k` has kept its verification since this time, and thread `j` has found it and has come
later. -/
structure TakenSince (j : ι) (k : ℕ) (row : OtpCode) (key : Digest) (now : ℤ) (s : History ι) :
    Prop where
  stored : StoredAs s k row.verification
  born : s.shared.Born k row.birth
  found : lookedUp key none ∈ s.trace j → ∃ e ∈ s.log, DeletesVerified e
  clock : now ≤ s.shared.now
  late : ∀ read, readClock read ∈ s.trace j → now ≤ read

section Steps

variable {crypto : Crypto} {i j : ι} {x : Choice} {op : Op} {w t : World ι} {s : History ι}
  {r : Except StatementError op.Ret} {k : ℕ} {row : OtpCode} {key : Digest} {now : ℤ}

theorem exec_country {isoCode : String} {answer : Option Country}
    (h : exec crypto i x (.country isoCode) w = some (.ok answer, t)) :
    answer = w.authCountry isoCode := by
  cases perform_of_exec_ok h
  rfl

theorem Dialled.after (hs : Dialled w s) (h : exec crypto i x op s.shared = some (r, t)) :
    Dialled w (s.after i op r t) where
  countries := (exec_countries h).trans hs.countries
  answers j isoCode answer he := by
    rcases State.mem_trace_after he with hbefore | ⟨rfl, heq⟩
    · exact hs.answers j isoCode answer hbefore
    · cases heq
      rw [exec_country h, World.authCountry, hs.countries, World.authCountry]

/-- A lookup that finds nothing finds no row that is stored. -/
theorem exec_findByVerificationKey_none
    (h : exec crypto i x (.otpCode (.findByVerificationKey key)) w = some (.ok none, t))
    (hrow : w.otpCodes.stored k = some row) : row.verificationKeyHash ≠ some key := by
  have hp := perform_of_exec_ok h
  simp only [perform, OtpCodeStatement.perform, reply, Option.some.injEq, Prod.mk.injEq,
    Except.ok.injEq, Option.map_eq_none_iff, List.head?_eq_none_iff] at hp
  intro hkey
  have hmem : (⟨k, row⟩ : Keyed OtpCode) ∈
      w.otpCodes.select none fun r ↦ decide (r.verificationKeyHash = some key) :=
    Table.mem_select.2 ⟨(Cell.view_none (w.otpCodes.cell k)).trans hrow, decide_eq_true hkey⟩
  exact List.not_mem_nil (hp.1 ▸ hmem)

theorem exec_readClock {read : ℤ} (h : exec crypto i x (.host .now) w = some (.ok read, t)) :
    w.now ≤ read := by
  cases h
  exact Int.le_add_of_nonneg_right (Int.natCast_nonneg _)

theorem TakenSince.after (hs : TakenSince j k row key now s) (hcodes : CodesSound s.shared)
    (hkey : row.verificationKeyHash = some key) (h : exec crypto i x op s.shared = some (r, t)) :
    TakenSince j k row key now (s.after i op r t) where
  stored := hs.stored.after hcodes (Option.isSome_of_eq_some hkey) h
  born := hcodes.born_after h hs.born
  found he := by
    have hlog : (∃ e ∈ s.log, DeletesVerified e) → ∃ e ∈ (s.after i op r t).log, DeletesVerified e :=
      fun ⟨e, he, hdeletes⟩ ↦ ⟨e, by rw [State.after_log]; exact List.mem_append_left _ he, hdeletes⟩
    rcases State.mem_trace_after he with hbefore | ⟨rfl, heq⟩
    · exact hlog (hs.found hbefore)
    · cases heq
      rcases hs.stored with ⟨row', hrow', hsame⟩ | hdeleted
      · exact absurd ((congrArg Prod.fst hsame).trans hkey) (exec_findByVerificationKey_none h hrow')
      · exact hlog hdeleted
  clock := by
    have := exec_now h
    have := hs.clock
    rw [State.after_shared]
    omega
  late read he := by
    rcases State.mem_trace_after he with hbefore | ⟨rfl, heq⟩
    · exact hs.late read hbefore
    · cases heq
      exact hs.clock.trans (exec_readClock h)

end Steps

/-! ### Runs -/

/-- **The countries of every run.** -/
theorem dialled_run (env : Env) {w : World ι} (calls : ι → ApiCall) {c : System ι}
    (hc : System.Reaches env .all (System.start env w calls) c) : Dialled w c.state :=
  (Run.invariant (C := fun _ _ ↦ True) hc (Config.issues_start fun _ ↦ Prog.all_true _)
    ⟨rfl, fun _ _ _ he ↦ absurd he List.not_mem_nil⟩ (fun _ _ _ _ _ _ hs _ _ hx ↦ hs.after hx)
    fun _ _ hs _ ↦ ⟨hs.countries, hs.answers⟩).1

/-- **A key that is taken** stays taken. -/
theorem takenSince_run (env : Env) {w : World ι} (hw : TokensSound w)
    (hlocks : ∀ u, w.advisoryLocks u = none) (hcodes : CodesSound w) (calls : ι → ApiCall)
    {c₁ c : System ι} (hc₁ : System.Reaches env .all (System.start env w calls) c₁)
    (hc : System.Reaches env .all c₁ c) {j : ι} {k : ℕ} {row : OtpCode} {key : Digest}
    (hrow : c₁.state.shared.otpCodes.stored k = some row) (hkey : row.verificationKeyHash = some key)
    (hj : c₁.state.trace j = []) : TakenSince j k row key c₁.state.shared.now c.state := by
  have hsound : ∀ c, System.Reaches env .all c₁ c → CodesSound c.state.shared := fun c hc ↦
    (signedIn_run env hw hlocks hcodes calls (hc₁.trans hc)).1.codes
  have hwithin := Run.within (C := fun s ↦ CodesSound s.shared) hsound hc
  have hstart : TakenSince j k row key c₁.state.shared.now c₁.state :=
    ⟨.inl ⟨row, hrow, rfl⟩, World.born_of_stored hrow, fun he ↦ absurd (hj ▸ he) List.not_mem_nil,
      le_rfl, fun _ he ↦ absurd (hj ▸ he) List.not_mem_nil⟩
  exact (Run.invariant (C := fun _ _ ↦ True) hwithin (fun _ _ _ ↦ Prog.all_true _) hstart
    (fun _ _ _ _ _ _ hs _ ha hx ↦ hs.after ha.2 hkey hx)
    fun _ i hs _ ↦ ⟨hs.stored.rollback, hs.born.rollback, hs.found, hs.clock, hs.late⟩).1

/-- The number a call has dialled is that of its phone. -/
theorem Dialled.country {env : Env} {w : World ι} {s : History ι} (hs : Dialled w s) {i : ι}
    {phone countryIso normalizedPhone : String}
    (h : Dials env phone countryIso normalizedPhone (s.trace i)) : ∃ country,
      w.authCountry (env.toUpperCase countryIso) = some country ∧
        normalizePhoneNumber env phone country.isoCode = .ok normalizedPhone :=
  h.imp fun _ h ↦ ⟨(hs.answers i _ _ h.1).symm, h.2⟩

/-! ### One session under a key -/

/-- Row `k` has the key and the response, sealed. -/
structure ResponseStored (env : Env) (w : World ι) (key : String) (k : ℕ) (row : OtpCode)
    (response : VerifyOtpResponse) : Prop where
  stored : w.otpCodes.stored k = some row
  hash : row.verificationKeyHash = some (env.crypto.sha256 key)
  response : ∃ secret request version iv tag ciphertext,
    otpVerificationEncryptionKey env = .ok secret ∧ row.verificationRequestHash = some request ∧
      row.verificationResponseJson = some (.envelope version iv tag ciphertext) ∧
        env.crypto.openResponse secret iv (env.crypto.sha256 key, request) ciphertext tag =
          some response

omit [DecidableEq ι] in
/-- One key, one row, one response. -/
theorem ResponseStored.unique {env : Env} {w : World ι} (hkeys : KeysUnique w) {key : String}
    {k k' : ℕ} {row row' : OtpCode} {response response' : VerifyOtpResponse}
    (h : ResponseStored env w key k row response) (h' : ResponseStored env w key k' row' response') :
    k = k' ∧ row = row' ∧ response = response' := by
  obtain rfl := hkeys k k' row row' _ (.inl h.stored) (.inl h'.stored) h.hash h'.hash
  obtain rfl := Option.some.inj (h.stored.symm.trans h'.stored)
  obtain ⟨secret, request, _, _, _, _, hsecret, hrequest, hjson, hopens⟩ := h.response
  obtain ⟨secret', request', _, _, _, _, hsecret', hrequest', hjson', hopens'⟩ := h'.response
  obtain rfl := Except.ok.inj (hsecret.symm.trans hsecret')
  obtain rfl := Option.some.inj (hrequest.symm.trans hrequest')
  cases hjson.symm.trans hjson'
  exact ⟨rfl, rfl, Option.some.inj (hopens.symm.trans hopens')⟩

/-- The family has been begun with row `id`. -/
def CreatedFrom (env : Env) (calls : ι → ApiCall) (s : History ι) (id F : ℕ) : Prop :=
  ∃ i u, SignedInWith env calls s i id u F

/-- A call has answered with the response that is stored under its key, in a row that is verified for
what the call has asked for. -/
structure AnsweredUnder (env : Env) (w : World ι) (call : ApiCall) (s : World ι) (key : String)
    (a : ApiResponse) (k : ℕ) (row : OtpCode) (response : VerifyOtpResponse) (about : Subject) :
    Prop where
  answer : a = .session response
  stored : ResponseStored env s key k row response
  asks : call.Asks env w key about
  verified : row.VerifiedFor env s about

/-- The key is stored, in some row. -/
def World.Takes (w : World ι) (key : Digest) : Prop :=
  ∃ k row, w.otpCodes.stored k = some row ∧ row.verificationKeyHash = some key

/-- The key is stored in a row that was verified for the subject, at this time. -/
def TakenBy (env : Env) (w : World ι) (key : Digest) (about : Subject) (verifiedAt : ℤ) : Prop :=
  ∃ k row, w.otpCodes.stored k = some row ∧ row.verificationKeyHash = some key ∧
    row.VerifiedFor env w about ∧ row.verifiedAt = some verifiedAt

/-- The call asks for the subject under the key, and starts after `c₁`, where the key is taken. -/
structure StartsLate (env : Env) (w : World ι) (calls : ι → ApiCall) (c₁ c : System ι) (key : String)
    (j : ι) (about : Subject) : Prop where
  reaches : System.Reaches env .all (System.start env w calls) c₁
  later : System.Reaches env .all c₁ c
  takes : c₁.state.shared.Takes (env.crypto.sha256 key)
  configured : ∃ secret, otpVerificationEncryptionKey env = .ok secret
  asks : (calls j).Asks env w key about
  new : c₁.state.trace j = []

/-- The call is rejected with a conflict, unless one of its statements fails. -/
def Rejected (s : History ι) (i : ι) (o : Except Failure ApiResponse) : Prop :=
  ∃ e, o = .error e ∧ (e.TakenKey ∨ Interrupted (s.trace i))

section Reached

variable {env : Env} {w : World ι} {calls : ι → ApiCall} {c : System ι} (henv : TellsApart env)
  (hw : TokensSound w) (hlocks : ∀ u, w.advisoryLocks u = none) (hcodes : CodesSound w)
  (hkeys : KeysUnique w) (hconsistent : Consistent w)
  (hc : System.Reaches env .all (System.start env w calls) c)
  (hdeleted : ∀ e ∈ c.state.log, ¬ DeletesVerified e) {key : String} {i j : ι}

include henv hw hlocks hcodes hkeys hconsistent hc hdeleted

/-- **An answer** is the one that is stored under the key. -/
theorem answeredUnder_of_answered (hi : (calls i).Carries key) {a : ApiResponse}
    (ha : c.Answered i (.ok a)) : ∃ k row response about,
      AnsweredUnder env w (calls i) c.state.shared key a k row response about := by
  obtain ⟨phone, countryIso, otp, context, key', hcall, hcarries, hkey⟩ := hi
  obtain ⟨hs, hkeeps⟩ := signedIn_run env hw hlocks hcodes calls hc
  have hr := remembering_run env hw hlocks hcodes hkeys hconsistent calls hc
  obtain ⟨v, response, rfl, ⟨⟨_, _, _, hsame, -, hhash, deviceHash, hdevice, hrequest⟩, hsecret⟩,
    hdials, hverified⟩ := hkeeps.answer ha phone countryIso otp context hcall
  cases hcall.symm.trans hsame
  obtain ⟨country, hcountry, hphone⟩ := (dialled_run env calls hc).country hdials
  obtain ⟨idempotencyKey, hkey₂, hdigest⟩ := hhash key' hcarries
  obtain rfl := Except.ok.inj (hkey.symm.trans hkey₂)
  obtain ⟨k, row, h⟩ := answeredFrom_of_verified henv.opens hc hs hr hdeleted hverified
  obtain ⟨version, iv, tag, ciphertext, hjson, hopens⟩ := h.response
  exact ⟨k, row, response, ⟨v.normalizedPhone, v.otp, deviceOf context.deviceId⟩, rfl,
    ⟨h.stored, hdigest ▸ h.key, v.secret, v.verificationRequestHash, version, iv, tag, ciphertext,
      hsecret, h.request, hjson, hdigest ▸ hopens⟩,
    ⟨phone, countryIso, context, key', country, deviceHash, hcall, hcarries, hkey, hcountry, hphone,
      hdevice, rfl⟩,
    h.phone, h.code, v.secret, context.deviceId, deviceHash, hsecret, hdevice, rfl,
      hrequest ▸ h.request⟩

omit hkeys hconsistent in
/-- **A session** is stored with its response under the key. -/
theorem responseStored_of_signedInWith (hi : (calls i).Carries key) {id u F : ℕ}
    (h : SignedInWith env calls c.state i id u F) : ∃ row response,
      ResponseStored env c.state.shared key id row response ∧ ∃ k token,
        c.state.shared.refreshTokens.stored k = some token ∧ token.userId = u ∧ token.familyId = F ∧
          token.tokenHash = env.crypto.hashRefreshToken response.refreshToken := by
  obtain ⟨phone, countryIso, otp, context, key', hcall, hcarries, hkey⟩ := hi
  obtain ⟨v, data, response, ⟨⟨_, _, _, hsame, -, hhash, -⟩, hsecret⟩, ⟨hdataKey, hdataRequest, iv,
    ciphertext, tag, hsealed, hjson⟩, hsaved, k, token, htoken, hu, hF, -, htokenHash⟩ :=
    sessionsStored_run env hw hlocks hcodes calls hc i id u F ⟨h.begins, h.family⟩
  cases hcall.symm.trans hsame
  obtain ⟨idempotencyKey, hkey₂, hdigest⟩ := hhash key' hcarries
  obtain rfl := Except.ok.inj (hkey.symm.trans hkey₂)
  obtain ⟨row, hrow, hdata⟩ := hsaved.resolve_right fun ⟨e, he, hdel⟩ ↦ hdeleted e he hdel
  simp only [OtpCode.verification, Verification.columns, Prod.mk.injEq] at hdata
  have hopened := henv.opens v.secret iv (v.verificationKeyHash, v.verificationRequestHash) response
  rw [hsealed] at hopened
  exact ⟨row, response, ⟨hrow, hdata.1.trans (congrArg some (hdataKey.trans hdigest)), v.secret,
    v.verificationRequestHash, _, iv, tag, ciphertext, hsecret,
      hdata.2.1.trans (congrArg some hdataRequest), hdata.2.2.1.trans (congrArg some hjson),
        hdigest ▸ hopened⟩, k, token, htoken, hu, hF, htokenHash⟩

omit henv in
/-- **A later call** repeats the verification that is stored under its key, in time, or is
rejected. -/
theorem takenBy_or_rejected {c₁ : System ι} {about : Subject}
    (hlate : StartsLate env w calls c₁ c key j about) {o : Except Failure ApiResponse}
    (ho : c.Answered j o) :
    (∃ verifiedAt, TakenBy env c.state.shared (env.crypto.sha256 key) about verifiedAt ∧
      c₁.state.shared.now - verifiedAt ≤ OTP_VERIFICATION_REPLAY_WINDOW_MS) ∨
        Rejected c.state j o := by
  obtain ⟨hc₁, hlater, ⟨k, row, hrow, hkey⟩, ⟨secret, hsecret⟩, hj, hnew⟩ := hlate
  obtain ⟨phone, countryIso, context, key', country, deviceHash, hcall, hcarries, hvalid, hcountry,
    hphone, hdevice, habout⟩ := hj
  have hr := remembering_run env hw hlocks hcodes hkeys hconsistent calls hc
  have hdialled := dialled_run env calls hc
  have htaken := takenSince_run env hw hlocks hcodes calls hc₁ hlater hrow hkey hnew
  obtain ⟨row', hrow', hsame⟩ := htaken.stored.resolve_right fun ⟨e, he, hdel⟩ ↦ hdeleted e he hdel
  -- How the call has ended, read off its own statements.
  have hkeeps := (Run.invariant_keeps (I := fun _ ↦ True) hc
    (Config.keeps_start fun i ↦ program_settles env key (calls i)) trivial
    (fun _ _ _ _ _ _ _ _ _ _ ↦ trivial) fun _ _ _ _ ↦ trivial).2
  have hended : ∃ failure, (∀ e, o = .error e ↔ failure = some e) ∧ KeyedEnd env phone countryIso
      (⟨secret, env.crypto.sha256 key, env.crypto.hmacRequest secret deviceHash, ·, about.otp⟩)
        (c.state.trace j) failure := by
    cases o with
    | ok a =>
      exact ⟨none, fun e ↦ ⟨fun h ↦ (by cases h), fun h ↦ (by cases h)⟩, hkeeps.answer ho phone
        countryIso about.otp context key' deviceHash secret hcall hcarries hvalid hdevice hsecret⟩
    | error e =>
      exact ⟨some e, fun e' ↦ ⟨fun h ↦ congrArg some (Except.error.inj h), fun h ↦
        congrArg Except.error (Option.some.inj h)⟩, hkeeps.thrown ho phone countryIso about.otp
          context key' deviceHash secret hcall hcarries hvalid hdevice hsecret⟩
  obtain ⟨failure, hfailure, hended⟩ := hended
  cases hended with
  | @interrupted e h => exact .inr ⟨e, (hfailure e).2 rfl, .inr h⟩
  | refused h hrefused =>
    have hanswer := (hdialled.answers j _ _ h).trans hcountry
    exact absurd hphone (hrefused country hanswer about.phone)
  | @settled _ normalizedPhone hdials h =>
    obtain ⟨country', hcountry', hphone'⟩ := hdialled.country hdials
    obtain rfl := Option.some.inj (hcountry.symm.trans hcountry')
    obtain rfl : about.phone = normalizedPhone := Except.ok.inj (hphone.symm.trans hphone')
    cases h with
    | free h =>
      obtain ⟨e, he, hdeletes⟩ := htaken.found h
      exact absurd hdeletes (hdeleted e he)
    | @interrupted e h => exact .inr ⟨e, (hfailure e).2 rfl, .inr h⟩
    | @conflict e h => exact .inr ⟨e, (hfailure e).2 rfl, .inl h⟩
    | @repeated _ existing phone' hfound h =>
      obtain ⟨hfoundKey, hfoundStored, hfoundBorn, hfoundPhone⟩ := hr.seen j _ existing _ hfound
      obtain ⟨row'', hrow'', hsame''⟩ :=
        hfoundStored.resolve_right fun ⟨e, he, hdel⟩ ↦ hdeleted e he hdel
      -- The row that was found is the one that has taken the key.
      obtain rfl : k = existing.id := hr.keys k existing.id row' row'' _ (.inl hrow') (.inl hrow'')
        ((congrArg Prod.fst hsame).trans hkey) ((congrArg Prod.fst hsame'').trans hfoundKey)
      obtain rfl := Option.some.inj (hrow'.symm.trans hrow'')
      have hbirth' := hfoundBorn.stored row' hrow'
      obtain ⟨verifiedAt, now, hverifiedAt, hread, hintime⟩ := h.inTime
      have hlate := htaken.late now hread
      simp only [OtpCode.verification, Prod.mk.injEq] at hsame''
      refine .inl ⟨verifiedAt, ⟨existing.id, row', hrow', hsame''.1.trans hfoundKey, ⟨?_, ?_, secret,
        context.deviceId, deviceHash, hsecret, hdevice, habout, hsame''.2.1.trans h.request⟩,
          hsame''.2.2.2.trans hverifiedAt⟩, by omega⟩
      · rw [OtpCode.userId_of_birth hbirth', hfoundPhone, h.phone]
      · rw [OtpCode.codeHash_of_birth hbirth']
        exact bcryptCompare_of_compared hc h.code

end Reached

/-- What holds of an idempotency key in a state that is reached from `w`. -/
structure OneSession (env : Env) (w : World ι) (calls : ι → ApiCall) (c : System ι) (key : String) :
    Prop where
  /-- The calls under the key have begun one family. -/
  family : ∀ i j id id' u u' F F', (calls i).Carries key → (calls j).Carries key →
    SignedInWith env calls c.state i id u F → SignedInWith env calls c.state j id' u' F' → F = F'
  /-- The calls that succeed have the same answer, and have asked for the same. -/
  answers : ∀ i j a b, (calls i).Carries key → (calls j).Carries key → c.Answered i (.ok a) →
    c.Answered j (.ok b) → a = b ∧ ∃ about, (calls i).Asks env w key about ∧
      (calls j).Asks env w key about
  /-- The answer is the response that is stored in the row the family was begun with. -/
  stored : ∀ i id u F, (calls i).Carries key → SignedInWith env calls c.state i id u F →
    ∃ row response, ResponseStored env c.state.shared key id row response ∧
      (∃ k token, c.state.shared.refreshTokens.stored k = some token ∧ token.userId = u ∧
        token.familyId = F ∧ token.tokenHash = env.crypto.hashRefreshToken response.refreshToken) ∧
          ∀ j a, (calls j).Carries key → c.Answered j (.ok a) → a = .session response
  /-- Who starts when the key is taken repeats the verification it is taken by, in time, or is
  rejected. -/
  late : ∀ c₁ j about o, StartsLate env w calls c₁ c key j about → c.Answered j o →
    (∃ verifiedAt, TakenBy env c.state.shared (env.crypto.sha256 key) about verifiedAt ∧
      c₁.state.shared.now - verifiedAt ≤ OTP_VERIFICATION_REPLAY_WINDOW_MS) ∨ Rejected c.state j o
  /-- Who starts then and asks for something else than a call that succeeds is rejected. -/
  other : ∀ c₁ i j a about about' o, StartsLate env w calls c₁ c key j about → c.Answered j o →
    (calls i).Asks env w key about' → c.Answered i (.ok a) → about' ≠ about → Rejected c.state j o

/-- **One session.** When a hash is of one code, devices have digests of their own and sealed responses
open to what was sealed, then in every state that is reached from a sound database without open
transactions, and as long as no row with a verification has been deleted: with each code at most one
family is begun; and for each idempotency key, the calls that carry it begin at most one family, all
who succeed get the response that is stored with it and have asked for the same phone, code and
device, and a call that starts once the key is taken and asks for something else, or comes too late,
is rejected with a conflict. -/
theorem one_session_per_key (env : Env) (henv : TellsApart env) {w : World ι} (hw : TokensSound w)
    (hlocks : ∀ u, w.advisoryLocks u = none) (hcodes : CodesSound w) (hkeys : KeysUnique w)
    (hconsistent : Consistent w) (calls : ι → ApiCall) {c : System ι}
    (hc : System.Reaches env .all (System.start env w calls) c)
    (hdeleted : ∀ e ∈ c.state.log, ¬ DeletesVerified e) :
    (∀ id F F', CreatedFrom env calls c.state id F → CreatedFrom env calls c.state id F' → F = F') ∧
      ∀ key, OneSession env w calls c key := by
  obtain ⟨hs, -⟩ := signedIn_run env hw hlocks hcodes calls hc
  have hr := remembering_run env hw hlocks hcodes hkeys hconsistent calls hc
  have hcode : ∀ i j id u u' F F', SignedInWith env calls c.state i id u F →
      SignedInWith env calls c.state j id u' F' → F = F' := by
    intro i j id u u' F F' h h'
    obtain rfl := hs.alone i j id u u' F F' ⟨h.begins, h.family⟩ ⟨h'.begins, h'.family⟩
    exact (h.begins.unique h'.begins).2.2
  have hanswer := fun {key i a} (hi : (calls i).Carries key) (ha : c.Answered i (.ok a)) ↦
    answeredUnder_of_answered henv hw hlocks hcodes hkeys hconsistent hc hdeleted hi ha
  have hsession := fun {key i id u F} (hi : (calls i).Carries key)
      (h : SignedInWith env calls c.state i id u F) ↦
    responseStored_of_signedInWith henv hw hlocks hcodes hc hdeleted hi h
  have hlater := fun {key c₁ j about o} (hlate : StartsLate env w calls c₁ c key j about)
      (ho : c.Answered j o) ↦
    takenBy_or_rejected hw hlocks hcodes hkeys hconsistent hc hdeleted hlate ho
  refine ⟨fun id F F' ⟨i, u, h⟩ ⟨j, u', h'⟩ ↦ hcode i j id u u' F F' h h', fun key ↦
    ⟨fun i j id id' u u' F F' hi hj h h' ↦ ?_, fun i j a b hi hj ha hb ↦ ?_,
      fun i id u F hi h ↦ ?_, fun c₁ j about o hlate ho ↦ hlater hlate ho,
        fun c₁ i j a about about' o hlate ho hasks ha hne ↦ ?_⟩⟩
  · obtain ⟨row, response, hstored, -⟩ := hsession hi h
    obtain ⟨row', response', hstored', -⟩ := hsession hj h'
    obtain ⟨rfl, -, -⟩ := hstored.unique hr.keys hstored'
    exact hcode i j id u u' F F' h h'
  · obtain ⟨k, row, response, about, rfl, hstored, hasks, hverified⟩ := hanswer hi ha
    obtain ⟨k', row', response', about', rfl, hstored', hasks', hverified'⟩ := hanswer hj hb
    obtain ⟨rfl, rfl, rfl⟩ := hstored.unique hr.keys hstored'
    obtain rfl := hverified.unique henv hverified'
    exact ⟨rfl, about, hasks, hasks'⟩
  · obtain ⟨row, response, hstored, htoken⟩ := hsession hi h
    refine ⟨row, response, hstored, htoken, fun j a hj ha ↦ ?_⟩
    obtain ⟨k, row', response', _, rfl, hstored', -, -⟩ := hanswer hj ha
    obtain ⟨-, -, rfl⟩ := hstored.unique hr.keys hstored'
    rfl
  · refine (hlater hlate ho).resolve_left fun ⟨_, ⟨k, row, hrow, hkey, hverified, _⟩, _⟩ ↦ hne ?_
    -- The subject the key is taken by is the one that the call has asked for.
    obtain ⟨k', row', response, about'', rfl, hstored, hasks', hverified'⟩ := hanswer hasks.carries ha
    obtain rfl := hr.keys k k' row row' _ (.inl hrow) (.inl hstored.stored) hkey hstored.hash
    obtain rfl := Option.some.inj (hrow.symm.trans hstored.stored)
    rw [hverified.unique henv hverified', hasks.unique hasks']

namespace Demo

/-- A code, a verification of it, and one for another phone under the same key. -/
def lateCalls : ℕ → ApiCall
  | 0 => requestOtp '0'
  | 1 => .verifyOtp "+1" "NG" "" { idempotencyKey := some (key '1') }
  | _ => .verifyOtp "+2" "NG" "" { idempotencyKey := some (key '1') }

theorem tellsApart_env : TellsApart env where
  codes otp otp' codeHash h h' :=
    textCode_injective ((of_decide_eq_true h).trans (of_decide_eq_true h').symm)
  devices secret deviceId deviceId' deviceHash deviceHash' h h' _ := by
    -- No device secret is configured, so only the absent device is accepted.
    have hnone : ∀ {deviceId deviceHash}, hashDeviceIdentifier env deviceId = .ok deviceHash →
        deviceOf deviceId = none := by
      intro deviceId deviceHash h
      cases deviceId with
      | none => rfl
      | some text =>
        by_cases hempty : text = ""
        · rw [hempty]
          decide
        · simp [hashDeviceIdentifier, env, hempty] at h
          split at h <;> cases h
    rw [hnone h, hnone h']
  opens := openResponse_sealResponse

/-- The key is taken, and thread 2 has not begun. -/
def Taken (c : System ℕ) : Prop :=
  c.state.trace 2 = [] ∧ (c.state.shared.otpCodes.stored 0).bind OtpCode.verificationKeyHash =
    some (crypto.sha256 (key '1'))

instance (c : System ℕ) : Decidable (Taken c) :=
  haveI : Decidable (c.state.trace 2 = []) := decidable_of_iff _ List.isEmpty_iff
  inferInstanceAs (Decidable (_ ∧ _))

/-- Thread 1 has signed in. -/
theorem taken_runs : ((System.start env world lateCalls).turns (machine ℕ crypto) anything
    (steps 0 18 ++ steps 1 22)).any (fun c ↦ Taken c) = true := by
  decide +kernel

/-- The system in which the key is taken. -/
def taken : System ℕ :=
  after (System.start env world lateCalls) _ _ (Option.isSome_of_any taken_runs)

/-- Threads 1 and 2 have both ended, and no row with a verification has been removed. -/
def TurnedAway (c : System ℕ) : Prop :=
  (c.state.log.all fun e ↦ !removesVerified e) = true ∧
    (c.progs 1).bind Prog.outcome = some (.ok (.session ⟨0, 1, 900⟩)) ∧
      (c.progs 2).bind Prog.outcome = some (.error ALREADY_USED)

instance (c : System ℕ) : Decidable (TurnedAway c) := inferInstanceAs (Decidable (_ ∧ _))

/-- Thread 2 asks under the key that is taken. -/
theorem turnedAway_runs : (taken.turns (machine ℕ crypto) anything (steps 2 2)).any
    (fun c ↦ TurnedAway c) = true := by
  decide +kernel

/-- The system in which thread 2 is turned away. -/
def turnedAway : System ℕ := after taken _ _ (Option.isSome_of_any turnedAway_runs)

theorem turnedAway_tests : TurnedAway turnedAway :=
  of_decide_eq_true (Config.afterTurns_of_any turnedAway_runs)

/-- What the calls of threads 1 and 2 ask for. -/
theorem asks_lateCalls : (lateCalls 1).Asks env world (key '1') ⟨"+1", "", none⟩ ∧
    (lateCalls 2).Asks env world (key '1') ⟨"+2", "", none⟩ := by
  have hkey : idempotencyKeyOf (key '1') = .ok (key '1') := by decide +kernel
  exact ⟨⟨"+1", "NG", _, _, ⟨"NG", true⟩, none, rfl, rfl, hkey, rfl, rfl, rfl, rfl⟩,
    ⟨"+2", "NG", _, _, ⟨"NG", true⟩, none, rfl, rfl, hkey, rfl, rfl, rfl, rfl⟩⟩

/-- Thread 2 starts when the key is taken. -/
theorem startsLate_turnedAway :
    StartsLate env world lateCalls taken turnedAway (key '1') 2 ⟨"+2", "", none⟩ := by
  obtain ⟨hnew, htaken⟩ : Taken taken := of_decide_eq_true (Config.afterTurns_of_any taken_runs)
  obtain ⟨row, hrow, hkey⟩ := Option.bind_eq_some_iff.1 htaken
  exact ⟨reaches_after _ _ _, reaches_after _ _ _, ⟨0, row, hrow, hkey⟩, ⟨"secret", rfl⟩,
    asks_lateCalls.2, hnew⟩

end Demo

/-- Thread 2, which asks for another phone than thread 1, is rejected. -/
theorem one_session_per_key_turnedAway : Rejected Demo.turnedAway.state 2 (.error ALREADY_USED) :=
  ((one_session_per_key Demo.env Demo.tellsApart_env Demo.tokensSound_world (fun _ ↦ rfl)
    Demo.codesSound_world Demo.keysUnique_world Demo.consistent_world Demo.lateCalls
    ((Demo.reaches_after _ _ _).trans (Demo.reaches_after _ _ _))
    (Demo.not_deletesVerified_of_all Demo.turnedAway_tests.1)).2 (Demo.key '1')).other _ 1 2 _ _ _ _
      Demo.startsLate_turnedAway (Config.answered_iff.2 Demo.turnedAway_tests.2.2)
        Demo.asks_lateCalls.1 (Config.answered_iff.2 Demo.turnedAway_tests.2.1) (by decide)

end Stead
