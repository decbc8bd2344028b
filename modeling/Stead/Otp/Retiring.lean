import Stead.Otp.SignIns

/-!
# How codes are retired

A code is used up by a sign-in, by a last wrong code, or because the codes of its user are retired.
What the calls owe to the order of these statements is `RetireStatement`, and `program_retires` that
every call keeps to it.

## The order

Codes are retired right after they were listed, inside the transaction of a sign-in and outside it.
A call that locks a code out has retired none before, so that whatever it retires it has listed
afterwards. And a transaction in which the use of a code has failed is not committed: a statement
may fail and have taken effect all the same, and then the call does not know what it has written.

## Steady statements

Most statements do not use up codes (`Op.Steady`). A part of a call that issues no others is known
by the trace it started from, and by any property of exchanges that holds of the steady ones
(`keeps_of_steady`); the three statements that remain are in `verifiedSessionBody` and
`recordWrongCode`.
-/

namespace Stead

open Concurrency

/-! ### Statements -/

/-- Statements that use up no code. -/
def Op.Steady : Op → Prop
  | .otpCode (.recordAttempt _ _ (some _)) | .otpCode (.retireLive _ _ _ _) => False
  | .otpCode (.consume _ _) => False
  | _ => True

/-- Statements of a kind that does not use up codes. -/
theorem Op.steady_of {C : Op → Prop} (hrecord : ∀ k n at_, ¬ C (.otpCode (.recordAttempt k n at_)))
    (hretire : ∀ tx found u at_, ¬ C (.otpCode (.retireLive tx found u at_)))
    (hconsume : ∀ k at_, ¬ C (.otpCode (.consume k at_))) {op : Op} (h : C op) : op.Steady := by
  unfold Op.Steady
  split
  · exact hrecord _ _ _ h
  · exact hretire _ _ _ _ h
  · exact hconsume _ _ h
  · trivial

theorem Op.steady_of_looks {op : Op} (h : op.looks = true) : op.Steady :=
  Op.steady_of (C := (Op.looks · = true)) (fun _ _ _ h ↦ Bool.false_ne_true h)
    (fun _ _ _ _ h ↦ Bool.false_ne_true h) (fun _ _ h ↦ Bool.false_ne_true h) h

theorem Op.Replays.steady {op : Op} (h : op.Replays) : op.Steady :=
  Op.steady_of (C := Op.Replays) (fun _ _ _ h ↦ Bool.false_ne_true h)
    (fun _ _ _ _ h ↦ Bool.false_ne_true h) (fun _ _ h ↦ Bool.false_ne_true h) h

theorem Op.Orders.steady {op : Op} (h : op.Orders) : op.Steady :=
  Op.steady_of (C := Op.Orders) (fun _ _ _ h ↦ Bool.false_ne_true h)
    (fun _ _ _ _ h ↦ Bool.false_ne_true h) (fun _ _ h ↦ Bool.false_ne_true h) h

theorem Op.Delivers.steady {op : Op} (h : op.Delivers) : op.Steady :=
  Op.steady_of (C := Op.Delivers) (fun _ _ _ h ↦ Bool.false_ne_true h)
    (fun _ _ _ _ h ↦ Bool.false_ne_true h) (fun _ _ h ↦ Bool.false_ne_true h) h

theorem Op.Renews.steady {op : Op} (h : op.Renews) : op.Steady :=
  Op.steady_of (C := Op.Renews) (fun _ _ _ h ↦ h) (fun _ _ _ _ h ↦ h) (fun _ _ h ↦ h) h

/-- The use of a code in a transaction has failed; it may have taken effect all the same. -/
def Falters (e : Exchange Statements) : Prop :=
  (∃ k at_ f, e = ⟨.otpCode (.consume k at_), .error f⟩) ∨
    ∃ found u at_ f, e = ⟨.otpCode (.retireLive true found u at_), .error f⟩

/-- What a statement of a call owes to the codes. A code is locked out before any are retired; what
is retired was listed just before; and nothing is committed when the use of a code has failed. -/
structure RetireStatement (trace : List (Exchange Statements)) (op : Op) : Prop where
  locks : ∀ k n at_, op = .otpCode (.recordAttempt k n (some at_)) → ∀ e ∈ trace, ∀ found u at_',
    e.1 ≠ .otpCode (.retireLive false found u at_')
  retires : ∀ tx found u at_, op = .otpCode (.retireLive tx found u at_) →
    trace.getLast? = some ⟨.otpCode (.findUnconsumed tx u), .ok found⟩
  commits : op = .commit → ∀ e ∈ trace, ¬ Falters e

section Programs

variable {env : Env} {trace : List (Exchange Statements)} {α : Type}

/-- A steady statement owes something only if it commits. -/
theorem RetireStatement.of_steady {op : Op} (h : op.Steady)
    (hcommit : op = .commit → ∀ e ∈ trace, ¬ Falters e) : RetireStatement trace op where
  locks := by
    rintro k n at_ rfl
    cases h
  retires := by
    rintro tx found u at_ rfl
    cases h
  commits := hcommit

/-- What is steady has not failed to use a code. -/
theorem Op.Steady.not_falters {e : Exchange Statements} (h : e.1.Steady) : ¬ Falters e := by
  rintro (⟨k, at_, f, rfl⟩ | ⟨found, u, at_, f, rfl⟩) <;> cases h

/-- **Steady programs**, and what holds of every exchange so far. -/
theorem keeps_of_steady {p : Call α} (h : p.All Op.Steady) {T : Exchange Statements → Prop}
    (hsteady : ∀ e, e.1.Steady → T e) (hT : ∀ e, T e → ¬ Falters e) (htrace : ∀ e ∈ trace, T e) :
    p.Keeps RetireStatement (fun trace' _ ↦ ∀ e ∈ trace', T e) (fun trace' _ ↦ ∀ e ∈ trace', T e)
      trace := by
  have hrest : ∀ rest : List (Exchange Statements), (∀ e ∈ rest, e.1.Steady) →
      ∀ e ∈ trace ++ rest, T e := fun rest hrest ↦
    List.forall_mem_append.2 ⟨htrace, fun e he ↦ hsteady e (hrest e he)⟩
  refine (h.keeps_append fun rest op hr hop ↦ .of_steady hop fun _ e he ↦
    hT e (hrest rest hr e he)).mono ?_ ?_
  · rintro _ _ ⟨rest, rfl, hr⟩
    exact hrest rest hr
  · rintro _ _ ⟨rest, rfl, hr⟩
    exact hrest rest hr

/-- What follows a steady program. -/
theorem steady_bind {β : Type} {p : Call β} {f : β → Call α} (h : p.All Op.Steady)
    (htrace : ∀ e ∈ trace, e.1.Steady)
    (hf : ∀ trace' b, (∀ e ∈ trace', e.1.Steady) →
      (f b).Keeps RetireStatement (fun _ _ ↦ True) (fun _ _ ↦ True) trace') :
    (p >>= f).Keeps RetireStatement (fun _ _ ↦ True) (fun _ _ ↦ True) trace :=
  .bind ((keeps_of_steady h (fun _ h ↦ h) (fun _ h ↦ h.not_falters) htrace).mono (fun _ _ h ↦ h)
    fun _ _ _ ↦ trivial) hf

/-- Programs that do not commit either. -/
theorem keeps_of_looks {p : Call α} (h : p.All (Op.looks · = true)) :
    p.Keeps RetireStatement (fun _ _ ↦ True) (fun _ _ ↦ True) trace :=
  (h.keeps fun _ op _ hop ↦ .of_steady (Op.steady_of_looks hop) (by rintro rfl; cases hop)).mono
    (fun _ _ _ ↦ trivial) fun _ _ _ ↦ trivial

/-! ### Signing in -/

theorem revokeFamilyOf_steady (userId familyId : ℕ) :
    (revokeFamilyOf userId familyId).All Op.Steady :=
  .run_bind trivial fun _ ↦ .bind (.run_bind trivial fun _ ↦ .run trivial) fun _ ↦ trivial

theorem prepareRefreshFamilySlot_steady (userId : ℕ) (deviceHash : Option Digest) :
    (prepareRefreshFamilySlot env userId deviceHash).All Op.Steady := by
  refine .bind (present_all _ _ fun deviceHash ↦ .run_bind trivial fun families ↦
    .forEach fun family _ ↦ revokeFamilyOf_steady userId family) fun _ ↦ ?_
  exact .run_bind trivial fun families ↦
    .forEach fun family _ ↦ revokeFamilyOf_steady userId family.1

/-- Codes are retired when they have been listed. -/
theorem retireLiveOtps_retires (tx : Bool) (userId : ℕ) (consumedAt : ℤ) :
    (retireLiveOtps tx userId consumedAt).Keeps RetireStatement
      (fun trace' _ ↦ (∀ e ∈ trace, ¬ Falters e) → ∀ e ∈ trace', ¬ Falters e) (fun _ _ ↦ True)
      trace := by
  refine keeps_run_bind (.of_steady trivial fun h ↦ (by cases h)) (fun found ↦ ?_) fun _ ↦ trivial
  refine ⟨⟨fun _ _ _ h ↦ (by cases h), fun tx' found' u at_ hop ↦ ?_, fun h ↦ (by cases h)⟩,
    fun r ↦ ?_⟩
  · cases hop
    exact List.getLast?_concat
  · cases r with
    | error e => trivial
    | ok n =>
      intro htrace e he
      simp only [List.mem_append, List.mem_singleton, or_assoc] at he
      rcases he with he | rfl | rfl
      · exact htrace e he
      all_goals rintro (⟨_, _, _, heq⟩ | ⟨_, _, _, _, heq⟩) <;> cases heq

/-- **The transaction of a sign-in** goes on only while no use of a code has failed. -/
theorem verifiedSessionBody_retires {input : VerifiedSession} {familyId : ℕ} {familyCreatedAt : ℤ}
    {rawRefreshToken : ℕ} {consumedAt : ℤ} (htrace : ∀ e ∈ trace, e.1.Steady) :
    (verifiedSessionBody env input familyId familyCreatedAt rawRefreshToken consumedAt).Keeps
      RetireStatement (fun trace' _ ↦ ∀ e ∈ trace', ¬ Falters e) (fun _ _ ↦ True) trace := by
  refine keeps_run_bind
    ⟨fun _ _ _ h ↦ (by cases h), fun _ _ _ _ h ↦ (by cases h), fun h ↦ (by cases h)⟩
    (fun consumed ↦ .ite (fun _ ↦ ?_) fun _ ↦ trivial) fun _ ↦ trivial
  refine .bind (retireLiveOtps_retires _ _ _) fun trace₁ _ h₁ ↦ ?_
  refine (keeps_of_steady ?_ (fun _ h ↦ h.not_falters) (fun _ h ↦ h) (h₁ fun e he ↦ ?_)).mono
    (fun _ _ h ↦ h) fun _ _ _ ↦ trivial
  · refine .run_bind trivial fun _ ↦ .run_bind trivial fun _ ↦
      .bind (prepareRefreshFamilySlot_steady _ _) fun _ ↦
        .bind (.run_bind trivial fun _ ↦ .lift_bind fun _ ↦ .run trivial) fun _ ↦
          .bind (.lift_bind fun _ ↦ .run trivial) fun _ ↦ .lift_bind fun _ ↦
            .bind (.run_bind trivial fun _ ↦ trivial) fun _ ↦ .run_bind trivial fun _ ↦ trivial
  · simp only [List.mem_append, List.mem_singleton] at he
    rcases he with he | rfl
    · exact (htrace e he).not_falters
    · rintro (⟨_, _, _, heq⟩ | ⟨_, _, _, _, heq⟩) <;> cases heq

/-- A sign-in commits once, or is rolled back. -/
theorem issueVerifiedSession_retires (input : VerifiedSession) (htrace : ∀ e ∈ trace, e.1.Steady) :
    (issueVerifiedSession env input).Keeps RetireStatement (fun _ _ ↦ True) (fun _ _ ↦ True)
      trace := by
  refine steady_bind (.run trivial) htrace fun _ familyId h₁ ↦ ?_
  refine steady_bind (.run trivial) h₁ fun _ familyCreatedAt h₂ ↦ ?_
  refine steady_bind (.run trivial) h₂ fun _ raw h₃ ↦ ?_
  refine steady_bind (.run trivial) h₃ fun _ consumedAt h₄ ↦ ?_
  refine .tryCatch (F := fun _ _ ↦ True) (.bind (R := fun trace' _ ↦ ∀ e ∈ trace', ¬ Falters e)
    (.tryCatch (F := fun _ _ ↦ True) (verifiedSessionBody_retires h₄) fun _ e _ ↦ ?_)
      fun trace' response h ↦ ?_) fun trace' e _ ↦ ?_
  · exact keeps_run_bind (.of_steady trivial fun h ↦ (by cases h)) (fun _ ↦ trivial) fun _ ↦ trivial
  · exact keeps_run_bind (.of_steady trivial fun _ ↦ h) (fun _ ↦ trivial) fun _ ↦ trivial
  · refine .bind (keeps_of_looks (replayOtpVerification_all env _)) fun trace'' replay _ ↦ ?_
    cases replay <;> trivial

/-- **A last wrong code** locks its row before the codes of the user are retired. -/
theorem recordWrongCode_retires (user : Keyed User) (record : Keyed OtpCode)
    (normalizedPhone : String) (ip : Option String) (deviceHash : Option Digest)
    (htrace : ∀ e ∈ trace, e.1.Steady) :
    (recordWrongCode env user record normalizedPhone ip deviceHash).Keeps RetireStatement
      (fun _ _ ↦ True) (fun _ _ ↦ True) trace := by
  have hevent : ∀ {trace' : List (Exchange Statements)} {data : NewAuthEvent} {e : Failure}, (do
      recordEvent data
      throw e : Call VerifyOtpResponse).Keeps RetireStatement (fun _ _ ↦ True) (fun _ _ ↦ True)
        trace' :=
    keeps_run_bind (.of_steady trivial fun h ↦ (by cases h)) (fun _ ↦ trivial) fun _ ↦ trivial
  refine .ite (fun _ ↦ ?_) fun _ ↦ ?_
  · refine steady_bind (.run trivial) htrace fun trace₁ now h₁ ↦ ?_
    refine keeps_run_bind ⟨fun k n at_ _ e he found u at_' heq ↦ ?_, fun _ _ _ _ h ↦ (by cases h),
      fun h ↦ (by cases h)⟩ (fun _ ↦ ?_) fun _ ↦ trivial
    · have := h₁ e he
      rw [heq] at this
      cases this
    · exact .bind (retireLiveOtps_retires _ _ _) fun _ _ _ ↦ hevent
  · exact keeps_run_bind (.of_steady trivial fun h ↦ (by cases h)) (fun _ ↦ hevent) fun _ ↦ trivial

theorem verifyLiveOtp_retires (v : VerificationRequest) (ip : Option String)
    (deviceHash : Option Digest) (htrace : ∀ e ∈ trace, e.1.Steady) :
    (verifyLiveOtp env v ip deviceHash).Keeps RetireStatement (fun _ _ ↦ True) (fun _ _ ↦ True)
      trace := by
  refine steady_bind (.run trivial) htrace fun trace₁ user h₁ ↦ ?_
  cases user with
  | none => trivial
  | some user =>
    refine steady_bind (.run trivial) h₁ fun trace₂ now h₂ ↦ ?_
    refine steady_bind (.run trivial) h₂ fun trace₃ record h₃ ↦ ?_
    cases record with
    | none =>
      refine .bind (keeps_of_looks (replayOtpVerification_all env v)) fun _ replay _ ↦ ?_
      cases replay <;> trivial
    | some record =>
      refine .ite (fun _ ↦ ?_) fun _ ↦ ?_
      · exact steady_bind (.run trivial) h₃ fun _ _ _ ↦ trivial
      refine steady_bind (.run trivial) h₃ fun trace₄ ok h₄ ↦ .ite (fun _ ↦ ?_) fun _ ↦ ?_
      · exact issueVerifiedSession_retires _ h₄
      · exact recordWrongCode_retires _ _ _ _ _ h₄

/-- Before it looks for a live code a verification uses up none. -/
theorem verifyOtp_retires (phone countryIso otp : String) (context : OtpVerificationContext)
    (htrace : ∀ e ∈ trace, e.1.Steady) : (verifyOtp env phone countryIso otp context).Keeps
      RetireStatement (fun _ _ ↦ True) (fun _ _ ↦ True) trace := by
  have hkey : (verificationKey env context).All Op.Steady := by
    unfold verificationKey
    split
    · trivial
    · exact .run_bind trivial fun _ ↦ trivial
  have hlimit : ∀ limit ip deviceHash locked message,
      (checkVerifyFailureLimit env limit ip deviceHash locked message).All Op.Steady :=
    fun _ _ _ _ _ ↦ .run_bind trivial fun _ ↦ .run_bind trivial fun _ ↦
      .ite (fun _ ↦ .run_bind trivial fun _ ↦ trivial) fun _ ↦ trivial
  unfold verifyOtp
  refine steady_bind ((requireAuthCountry_all env countryIso).mono fun _ ↦ Op.steady_of_looks)
    htrace fun trace₁ country h₁ ↦ ?_
  refine keeps_lift_bind (fun normalizedPhone _ ↦ ?_) fun _ ↦ trivial
  refine keeps_lift_bind (fun deviceHash _ ↦ ?_) fun _ ↦ trivial
  refine steady_bind hkey h₁ fun trace₂ key h₂ ↦ ?_
  generalize idempotencyKeyOf key = checkedKey
  refine keeps_lift_bind (fun idempotencyKey _ ↦ ?_) fun _ ↦ trivial
  refine keeps_lift_bind (fun secret _ ↦ ?_) fun _ ↦ trivial
  refine steady_bind ((replayOtpVerification_all env _).mono fun _ ↦ Op.steady_of_looks) h₂
    fun trace₃ replay h₃ ↦ ?_
  cases replay with
  | some replay => trivial
  | none =>
    refine steady_bind (present_all _ _ fun _ ↦ hlimit _ _ _ _ _) h₃ fun trace₄ _ h₄ ↦ ?_
    refine steady_bind (present_all _ _ fun _ ↦ hlimit _ _ _ _ _) h₄ fun trace₅ _ h₅ ↦ ?_
    exact verifyLiveOtp_retires _ _ _ h₅

/-! ### The other calls -/

/-- A refresh uses up no code. -/
theorem refreshSession_steady (refreshToken : ℕ) (context : AuthRequestContext) :
    (refreshSession env refreshToken context).All Op.Steady := by
  have hrevoke : ∀ {e : Failure} (F u : ℕ), (do
      let _ ← revokeRefreshFamily F u
      throw e : Call VerifyOtpResponse).All Op.Steady := fun _ _ ↦
    .bind ((revokeRefreshTokens_renews _ _).mono fun _ ↦ Op.Renews.steady) fun _ ↦ trivial
  refine .run_bind trivial fun existing ↦ ?_
  match existing with
  | none => trivial
  | some (existing, phone) =>
    refine .ite (fun _ ↦ hrevoke _ _) fun _ ↦ .run_bind trivial fun now ↦
      .ite (fun _ ↦ ?_) fun _ ↦ ?_
    · exact .run_bind trivial fun _ ↦ .run_bind trivial fun _ ↦ trivial
    refine .lift_bind fun familyMaxAgeMs ↦ .run_bind trivial fun now ↦
      .ite (fun _ ↦ hrevoke _ _) fun _ ↦ .lift_bind fun deviceHash ↦
        .ite (fun _ ↦ ?_) fun _ ↦ trivial
    refine .bind (.transaction (.run_bind trivial fun _ ↦ .run_bind trivial fun now ↦
      .run_bind trivial fun claimed ↦ .ite (fun _ ↦ ?_) fun _ ↦ trivial) trivial trivial)
        fun session ↦ ?_
    · exact .run_bind trivial fun raw ↦ .bind (.run_bind trivial fun _ ↦ .lift_bind fun _ ↦
        .run trivial) fun _ ↦ .run_bind trivial fun _ ↦
          .bind (.lift_bind fun _ ↦ .run trivial) fun _ ↦ .lift_bind fun _ ↦ trivial
    · cases session with
      | some session => trivial
      | none =>
        refine .run_bind trivial fun current ↦ ?_
        match current with
        | none => trivial
        | some (current, _) => exact .ite (fun _ ↦ hrevoke _ _) fun _ ↦ trivial

/-- **Every call** keeps to the order in which codes are used up. -/
theorem program_retires (call : ApiCall) : (call.program env).Keeps RetireStatement
    (fun _ _ ↦ True) (fun _ _ ↦ True) [] := by
  have hsteady : ∀ {p : Call ApiResponse}, p.All Op.Steady →
      p.Keeps RetireStatement (fun _ _ ↦ True) (fun _ _ ↦ True) [] := fun h ↦
    (keeps_of_steady h (fun _ h ↦ h) (fun _ h ↦ h.not_falters) fun _ he ↦
      absurd he List.not_mem_nil).mono (fun _ _ _ ↦ trivial) fun _ _ _ ↦ trivial
  cases call with
  | requestOtp phone countryIso context =>
    exact hsteady (.map _ ((requestOtp_all env _ _ _).mono fun _ ↦ Op.Orders.steady))
  | verifyOtp phone countryIso otp context =>
    exact .bind (verifyOtp_retires phone countryIso otp context fun _ he ↦
      absurd he List.not_mem_nil) fun _ _ _ ↦ trivial
  | refreshSession refreshToken context =>
    exact hsteady (.map _ (refreshSession_steady refreshToken context))
  | revokeSession input =>
    exact hsteady (.map _ ((revokeSession_renews input).mono fun _ ↦ Op.Renews.steady))
  | enqueueReadinessAlert input =>
    exact hsteady (.map _ ((enqueueReadinessAlert_all env input).mono fun _ ↦ Op.Replays.steady))
  | redactTerminalPayloads =>
    exact hsteady (.map _ (redactTerminalPayloads_all.mono fun _ ↦ Op.Delivers.steady))
  | tick => exact hsteady (.map _ ((tick_all env).mono fun _ ↦ Op.Delivers.steady))

end Programs

end Stead
