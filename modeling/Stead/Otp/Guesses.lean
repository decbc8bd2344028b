import Stead.Model.Logic

/-!
# Codes that are guessed

A call that compares a wrong code with the row it has just found owes the row an attempt, until it
records it (`Debt`). What a call owes can be read off its statements and their answers, and a call
owes nothing when it ends (`program_guesses`).

## Statements

Most statements neither compare nor record (`Op.Silent`), and the footprints of `Model.Footprint`
say so of whole parts of the calls. What is left is `verifyLiveOtp`, which reads the latest live
row, compares one code with it and records the failure at once: it compares when the count it has
read is below the limit, and records one more than this count.

A call that is rejected on the way has ended as well: what it owed, if it was lost, is still owed
(`Ended`).
-/

namespace Stead

open Concurrency

variable {ι : Type} [DecidableEq ι]

/-! ### What a call owes -/

/-- The row a call has just found live, and the attempt it has to record: the row and its count. -/
structure Debt where
  read : Option (Keyed OtpCode) := none
  owed : Option (ℕ × ℕ) := none

/-- The row in the answer to a search. -/
def foundRow : Except StatementError (Option (Keyed OtpCode)) → Option (Keyed OtpCode)
  | .ok record => record
  | .error _ => none

/-- The answer to a comparison with another code. -/
def isWrong : Except StatementError Bool → Bool
  | .ok ok => !ok
  | .error _ => false

/-- What a statement makes of a debt. -/
def Debt.after (d : Debt) : Exchange Statements → Debt
  | ⟨.otpCode (.findLive _ _), r⟩ => { d with read := foundRow r }
  | ⟨.host (.bcryptCompare id _ _), r⟩ =>
    { read := none
      owed := if isWrong r then
          (d.read.map fun record ↦ (id, record.row.verifyAttempts + 1)).or d.owed
        else d.owed }
  | ⟨.otpCode (.recordAttempt _ _ _), _⟩ => {}
  | _ => { d with read := none }

/-- What is owed after a trace. -/
def debt (trace : List (Exchange Statements)) : Debt := trace.foldl Debt.after {}

@[simp] theorem debt_nil : debt [] = {} := rfl

/-- A debt is brought up by one statement after another. -/
@[simp] theorem debt_append (trace : List (Exchange Statements)) (e : Exchange Statements) :
    debt (trace ++ [e]) = (debt trace).after e := by
  simp [debt]

/-- Statements that neither look for a live code nor record an attempt. -/
def Op.Silent : Op → Prop
  | .otpCode (.findLive _ _) | .otpCode (.recordAttempt _ _ _) => False
  | _ => True

/-- A call that has read nothing and owes nothing goes on so. -/
theorem Debt.after_silent {op : Op} (h : op.Silent) (r : Statements.Resp op) :
    ({} : Debt).after ⟨op, r⟩ = {} := by
  unfold Debt.after
  split
  · next heq =>
    cases heq
    cases h
  · simp
  · rfl
  · rfl

theorem Op.silent_of_looks {op : Op} (h : op.looks = true) : op.Silent := by
  unfold Op.Silent
  split
  · cases h
  · cases h
  · trivial

theorem Op.Replays.silent {op : Op} (h : op.Replays) : op.Silent := by
  unfold Op.Silent
  split
  · cases h
  · cases h
  · trivial

theorem Op.Orders.silent {op : Op} (h : op.Orders) : op.Silent := by
  unfold Op.Silent
  split
  · cases h
  · cases h
  · trivial

theorem Op.Grants.silent {op : Op} (h : op.Grants) : op.Silent := by
  unfold Op.Silent
  split
  · cases h
  · cases h
  · trivial

theorem Op.Delivers.silent {op : Op} (h : op.Delivers) : op.Silent := by
  unfold Op.Silent
  split
  · cases h
  · cases h
  · trivial

/-! ### What calls do -/

/-- An attempt that is recorded is the one owed. A row is compared with a code, after it was found
live, while nothing is owed, and below the limit of attempts. -/
structure GuessStatement (config : Config) (trace : List (Exchange Statements)) (op : Op) :
    Prop where
  recorded : ∀ id n c, op = .otpCode (.recordAttempt id n c) → (debt trace).owed = some (id, n)
  compared : ∀ id otp codeHash record, op = .host (.bcryptCompare id otp codeHash) →
    (debt trace).read = some record → (debt trace).owed = none ∧
      record.row.verifyAttempts < config.otpMaxVerifyAttempts

/-- A call that ends owes nothing, unless the clock has failed it. -/
def Ended (trace : List (Exchange Statements)) : Prop :=
  (debt trace).owed = none ∨
    ∃ e, (⟨.host .now, .error e⟩ : Exchange Statements) ∈ trace

section Programs

variable {env : Env} {trace : List (Exchange Statements)} {α : Type}

/-- Silent statements are allowed when nothing has been read. -/
theorem GuessStatement.of_silent {config : Config} {op : Op} (h : op.Silent)
    (htrace : (debt trace).read = none) : GuessStatement config trace op where
  recorded := by
    rintro id n c rfl
    cases h
  compared := by
    intro id otp codeHash record _ hread
    rw [htrace] at hread
    cases hread

/-- A program of silent statements owes nothing. -/
theorem keeps_of_silent {C : Op → Prop} {p : Call α} (h : p.All C) (hC : ∀ op, C op → op.Silent)
    (htrace : debt trace = {}) : p.Keeps (GuessStatement env.config)
      (fun trace' _ ↦ debt trace' = {}) (fun trace' _ ↦ debt trace' = {}) trace := by
  induction p generalizing trace with
  | pure a => exact htrace
  | throw e => exact htrace
  | stmt op k ih =>
    refine ⟨.of_silent (hC op h.1) (by rw [htrace]), fun r ↦ ih r (h.2 r) ?_⟩
    rw [debt_append, htrace, Debt.after_silent (hC op h.1)]

/-- What a call ends with. -/
theorem ended_of_silent {C : Op → Prop} {p : Call α} (h : p.All C) (hC : ∀ op, C op → op.Silent)
    (htrace : debt trace = {}) : p.Keeps (GuessStatement env.config)
      (fun trace' _ ↦ Ended trace') (fun trace' _ ↦ Ended trace') trace :=
  (keeps_of_silent h hC htrace).mono (fun _ _ h ↦ .inl (by rw [h])) fun _ _ h ↦ .inl (by rw [h])

/-- What follows silent statements. -/
theorem silent_bind {β : Type} {C : Op → Prop} {p : Call β} {f : β → Call α} (h : p.All C)
    (hC : ∀ op, C op → op.Silent) (htrace : debt trace = {})
    (hf : ∀ trace' b, debt trace' = {} → (f b).Keeps (GuessStatement env.config)
      (fun trace' _ ↦ Ended trace') (fun trace' _ ↦ Ended trace') trace') :
    (p >>= f).Keeps (GuessStatement env.config) (fun trace' _ ↦ Ended trace')
      (fun trace' _ ↦ Ended trace') trace :=
  .bind ((keeps_of_silent h hC htrace).mono (fun _ _ h ↦ h) fun _ _ h ↦ .inl (by rw [h])) hf

/-- **A wrong code** is recorded, with one attempt more than was read. -/
theorem recordWrongCode_guesses {user : Keyed User} {record : Keyed OtpCode}
    {normalizedPhone : String} {ip : Option String} {deviceHash : Option Digest}
    (htrace : debt trace = { owed := some (record.id, record.row.verifyAttempts + 1) }) :
    (recordWrongCode env user record normalizedPhone ip deviceHash).Keeps
      (GuessStatement env.config) (fun trace' _ ↦ Ended trace') (fun trace' _ ↦ Ended trace')
      trace := by
  have hrecord : ∀ {trace'} c, (debt trace').owed = some (record.id, record.row.verifyAttempts + 1) →
      (debt trace').read = none → GuessStatement env.config trace'
        (.otpCode (.recordAttempt record.id (record.row.verifyAttempts + 1) c)) :=
    fun c howed hread ↦ ⟨fun id n c' hop ↦ by
      cases hop
      exact howed, fun _ _ _ _ hop ↦ (by cases hop)⟩
  refine .ite (fun _ ↦ ?_) fun _ ↦ ?_
  · refine keeps_run_bind (.of_silent trivial (by rw [htrace])) (fun now ↦ ?_) fun e ↦
      .inr ⟨e, by simp⟩
    refine keeps_run_bind (hrecord _ ?_ ?_) (fun _ ↦ ?_) fun e ↦ .inl ?_
    · rw [debt_append, htrace]; rfl
    · rw [debt_append, htrace]; rfl
    · refine silent_bind (retireLiveOtps_all _ _ _) (fun _ ↦ Op.Grants.silent) (by
        rw [debt_append]; rfl) fun trace₁ _ h₁ ↦ ?_
      exact silent_bind (recordEvent_all _) (fun _ ↦ Op.Replays.silent) h₁ fun trace₂ _ h₂ ↦
        .inl (by rw [h₂])
    · rw [debt_append]; rfl
  · refine keeps_run_bind (hrecord _ ?_ ?_) (fun _ ↦ ?_) fun e ↦ .inl ?_
    · rw [htrace]
    · rw [htrace]
    · exact silent_bind (recordEvent_all _) (fun _ ↦ Op.Replays.silent) (by rw [debt_append]; rfl)
        fun trace₂ _ h₂ ↦ .inl (by rw [h₂])
    · rw [debt_append]; rfl

/-- **A verification** compares one code and records a failure. -/
theorem verifyLiveOtp_guesses (v : VerificationRequest) (ip : Option String)
    (deviceHash : Option Digest) (htrace : debt trace = {}) :
    (verifyLiveOtp env v ip deviceHash).Keeps (GuessStatement env.config)
      (fun trace' _ ↦ Ended trace') (fun trace' _ ↦ Ended trace') trace := by
  refine keeps_run_bind (.of_silent trivial (by rw [htrace])) (fun user ↦ ?_) fun e ↦
    .inl (by rw [debt_append, htrace]; rfl)
  -- The lookups leave nothing to pay; finding the code puts the row on the record.
  have huser : debt (trace ++ [⟨.user (.findByPhone v.normalizedPhone), .ok user⟩]) = {} := by
    rw [debt_append, htrace]; rfl
  cases user with
  | none => exact .inl (by rw [huser])
  | some user =>
    refine keeps_run_bind (.of_silent trivial (by rw [huser])) (fun now ↦ ?_) fun e ↦
      .inr ⟨e, by simp⟩
    refine keeps_run_bind ⟨fun _ _ _ hop ↦ (by cases hop), fun _ _ _ _ hop ↦ (by cases hop)⟩
      (fun record ↦ ?_) fun e ↦ .inl (by rw [debt_append, debt_append, huser]; rfl)
    have hfound : debt (trace ++ [⟨.user (.findByPhone v.normalizedPhone), .ok (some user)⟩] ++
        [⟨.host .now, .ok now⟩] ++ [⟨.otpCode (.findLive user.id now), .ok record⟩]) =
          { read := record } := by
      rw [debt_append, debt_append, huser]; rfl
    cases record with
    | none =>
      refine silent_bind (replayOtpVerification_all env v) (fun _ ↦ Op.silent_of_looks) hfound
        fun trace₁ replay h₁ ↦ ?_
      cases replay <;> exact .inl (by rw [h₁])
    | some record =>
      -- A row that is out of attempts is answered with an event, and no comparison is made.
      refine .ite (fun _ ↦ ?_) fun hbelow ↦ ?_
      · refine keeps_run_bind ⟨fun _ _ _ hop ↦ (by cases hop), fun _ _ _ _ hop ↦ (by cases hop)⟩
          (fun _ ↦ .inl ?_) fun e ↦ .inl ?_
        · rw [debt_append, hfound]; rfl
        · rw [debt_append, hfound]; rfl
      -- The comparison is of the row read last, which had an attempt left.
      · refine keeps_run_bind ⟨fun _ _ _ hop ↦ (by cases hop), fun _ _ _ record' _ hread ↦ ?_⟩
          (fun ok ↦ ?_) fun e ↦ .inl ?_
        · rw [hfound] at hread ⊢
          obtain rfl := Option.some.inj hread
          exact ⟨rfl, not_le.1 hbelow⟩
        -- A right code ends in the sign-in, which is silent; a wrong one is paid for.
        · refine .ite (fun hok ↦ ?_) fun hok ↦ ?_
          · obtain rfl : ok = true := hok
            exact ended_of_silent (issueVerifiedSession_all env _) (fun _ ↦ Op.Grants.silent)
              (by rw [debt_append, hfound]; rfl)
          · obtain rfl : ok = false := Bool.eq_false_iff.2 hok
            exact recordWrongCode_guesses (by rw [debt_append, hfound]; rfl)
        · rw [debt_append, hfound]; rfl

/-- Around that, it is silent. -/
theorem verifyOtp_guesses (phone countryIso otp : String) (context : OtpVerificationContext)
    (htrace : debt trace = {}) : (verifyOtp env phone countryIso otp context).Keeps
      (GuessStatement env.config) (fun trace' _ ↦ Ended trace') (fun trace' _ ↦ Ended trace')
      trace := by
  have hkey : (verificationKey env context).All Op.Silent := by
    unfold verificationKey
    split
    · trivial
    · exact .run_bind trivial fun _ ↦ trivial
  have hlimit : ∀ limit ip deviceHash locked message,
      (checkVerifyFailureLimit env limit ip deviceHash locked message).All Op.Grants :=
    checkVerifyFailureLimit_grants env
  have hlift : ∀ {β : Type} {x : Except Failure β} {f : β → Call VerifyOtpResponse}
      {trace' : List (Exchange Statements)}, debt trace' = {} →
      (∀ b, (f b).Keeps (GuessStatement env.config) (fun trace' _ ↦ Ended trace')
        (fun trace' _ ↦ Ended trace') trace') →
      (lift x >>= f).Keeps (GuessStatement env.config) (fun trace' _ ↦ Ended trace')
        (fun trace' _ ↦ Ended trace') trace' :=
    fun htrace' hf ↦ keeps_lift_bind (fun a _ ↦ hf a) fun _ ↦ .inl (by rw [htrace'])
  unfold verifyOtp
  refine silent_bind (requireAuthCountry_all env countryIso) (fun _ ↦ Op.silent_of_looks) htrace
    fun trace₁ country h₁ ↦ ?_
  refine hlift h₁ fun normalizedPhone ↦ ?_
  refine hlift h₁ fun deviceHash ↦ ?_
  refine silent_bind hkey (fun _ h ↦ h) h₁ fun trace₂ key h₂ ↦ ?_
  generalize idempotencyKeyOf key = checkedKey
  refine hlift h₂ fun idempotencyKey ↦ ?_
  refine hlift h₂ fun secret ↦ ?_
  refine silent_bind (replayOtpVerification_all env _) (fun _ ↦ Op.silent_of_looks) h₂
    fun trace₃ replay h₃ ↦ ?_
  cases replay with
  | some replay => exact .inl (by rw [h₃])
  | none =>
    refine silent_bind (present_all _ _ fun _ ↦ hlimit _ _ _ _ _) (fun _ ↦ Op.Grants.silent) h₃
      fun trace₄ _ h₄ ↦ ?_
    refine silent_bind (present_all _ _ fun _ ↦ hlimit _ _ _ _ _) (fun _ ↦ Op.Grants.silent) h₄
      fun trace₅ _ h₅ ↦ ?_
    exact verifyLiveOtp_guesses _ _ _ h₅

/-- **Every call** records what it owes before it ends. -/
theorem program_guesses (call : ApiCall) : (call.program env).Keeps (GuessStatement env.config)
    (fun trace' _ ↦ Ended trace') (fun trace' _ ↦ Ended trace') [] := by
  cases call with
  | requestOtp phone countryIso context =>
    exact ended_of_silent (.map _ (requestOtp_all env _ _ _)) (fun _ ↦ Op.Orders.silent) rfl
  | verifyOtp phone countryIso otp context =>
    exact .bind (verifyOtp_guesses phone countryIso otp context rfl) fun _ _ h ↦ h
  | refreshSession refreshToken context =>
    exact ended_of_silent (.map _ (refreshSession_all env _ _)) (fun _ ↦ Op.Grants.silent) rfl
  | revokeSession input =>
    exact ended_of_silent (.map _ (revokeSession_all env input)) (fun _ ↦ Op.Grants.silent) rfl
  | enqueueReadinessAlert input =>
    exact ended_of_silent (.map _ (enqueueReadinessAlert_all env input))
      (fun _ ↦ Op.Replays.silent) rfl
  | redactTerminalPayloads =>
    exact ended_of_silent (.map _ redactTerminalPayloads_all) (fun _ ↦ Op.Delivers.silent) rfl
  | tick => exact ended_of_silent (.map _ (tick_all env)) (fun _ ↦ Op.Delivers.silent) rfl

end Programs

end Stead
