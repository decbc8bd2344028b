import Stead.Sessions.Families

/-!
# Issuing and rotating sessions, all or nothing

One call alone, any of whose statements may fail. Until its transaction commits a call changes no
committed row (`Untouched`): what it writes is pending, and a failure rolls it back. Nothing comes
after the commit that could fail. So a sign-in that fails once it has begun to issue a session
(`issueVerifiedSession_spared`), and a refresh that fails for another reason than what it read of
the token (`refreshSession_refused`), leave the tokens and the codes as they were.

## The exception

One failure is different. A commit may take effect and its answer be lost; the call fails then,
with its transaction committed. It is the only statement of which that matters: any other that took
effect without an answer is rolled back with its transaction.

## Alone

`alone` is the protocol of a thread to which nothing happens from outside. A triple in it follows
one call, with all the failures its statements may meet; what the other threads do before and after
is not restricted, since the result is about the state in which the call begins (`Solo`).

## What a refresh has read

A refresh that is refused because of its token may change rows: it revokes an expired token, and the
family of one that was used before. `Detected` says that a trace shows a reason of this kind, so the
result is about the failures of which the trace shows none.
-/

namespace Stead

open Concurrency Protocol

variable {ι : Type}

/-- The committed tokens and codes are those of `w`. -/
structure Untouched (w : World ι) (s : History ι) : Prop where
  refreshTokens : s.shared.refreshTokens.stored = w.refreshTokens.stored
  otpCodes : s.shared.otpCodes.stored = w.otpCodes.stored

/-- No transaction of the thread has written a token or a code. -/
def World.NothingPending (w : World ι) (i : ι) : Prop :=
  ∀ k r, w.refreshTokens.pending k ≠ some (i, r)

/-- Statements that leave the committed tokens and codes alone, but for the one that consumes a
code. -/
def Op.Drafts : Op → Prop
  | .refreshToken (.expire _ _) => False
  | .refreshToken _ | .authEvent _ | .lockRefreshUser _ | .rollback => True
  | .otpCode (.retireLive true _ _ _) | .otpCode (.storeVerification _ _) => True
  | op => op.reads

theorem Op.Drafts.of_reads {op : Op} (h : op.reads = true) : op.Drafts := by
  unfold Op.Drafts
  split <;> trivial

theorem Op.Drafts.of_looks {op : Op} (h : op.looks = true) : op.Drafts :=
  .of_reads (Op.reads_of_looks h)

theorem Op.Opens.drafts {op : Op} (h : op.Opens) : op.Drafts := by
  unfold Op.Opens at h
  split at h
  case h_7 => exact .of_reads h
  all_goals trivial

variable [DecidableEq ι]

/-- Only thread `i` takes steps, and the answer of a commit is not lost. -/
def Alone (i : ι) : Weather ι where
  stmt j x op _ := j = i ∧ (op = .commit → x.fault ≠ .after)
  crash _ _ := False

/-- Nothing is to be agreed on with others. -/
def alone (crypto : Crypto) (i : ι) : Protocol (machine ι crypto) (Alone i) where
  Inv _ := True
  Guar _ _ _ := True
  crash_ok _ _ _ h := h.elim

section Statements

variable {crypto : Crypto} {i : ι} {x : Choice} {op : Op} {w t : World ι}
  {r : Except StatementError op.Ret}

theorem alone_stable {R : History ι → Prop} : (alone crypto i).Stable i R := by
  intro s s' hr
  obtain ⟨j, hj, hm, -⟩ := hr.move
  cases hm with
  | stmt ha _ => exact absurd ha.1 hj
  | crash ha => exact ha.elim

/-- **A draft** leaves the committed tokens alone. -/
theorem exec_stored_refreshTokens (hop : op.Drafts ∨ ∃ k at_, op = .otpCode (.consume k at_))
    (h : exec crypto i x op w = some (r, t)) :
    t.refreshTokens.stored = w.refreshTokens.stored := by
  funext k
  cases exec_refreshTokens h k with
  | same h => exact congrArg Cell.stored h
  | @edit st _ _ hs _ he _ h =>
    subst hs
    rcases hop with hop | ⟨_, _, hop⟩
    · cases he with
      | expire => exact hop.elim
      | claim => exact (congrArg Cell.stored h).trans rfl
      | link => exact (congrArg Cell.stored h).trans rfl
      | revoke => exact (congrArg Cell.stored h).trans rfl
    · cases hop
  | create _ _ _ _ hc h =>
    rw [Table.stored, Table.stored, h, hc]
    rfl
  | commit hs =>
    subst hs
    rcases hop with hop | ⟨_, _, hop⟩ <;> cases hop
  | rollback _ h => exact (congrArg Cell.stored h).trans (Cell.rollback_stored _ _)

/-- And the committed codes. -/
theorem exec_stored_otpCodes (hop : op.Drafts ∨ ∃ k at_, op = .otpCode (.consume k at_))
    (h : exec crypto i x op w = some (r, t)) :
    t.otpCodes.stored = w.otpCodes.stored := by
  funext k
  cases exec_otpCodes h k with
  | same h => exact congrArg Cell.stored h
  | @edit st _ _ hs _ he _ h =>
    subst hs
    rcases hop with hop | ⟨_, _, hop⟩
    · cases he with
      | complete => cases hop
      | recordAttempt => cases hop
      | retireLive tx =>
        cases tx with
        | true => exact (congrArg Cell.stored h).trans rfl
        | false => cases hop
      | consume => cases hop
      | storeVerification => exact (congrArg Cell.stored h).trans rfl
    · cases hop
      cases he
      exact (congrArg Cell.stored h).trans rfl
  | create hs =>
    subst hs
    rcases hop with hop | ⟨_, _, hop⟩ <;> cases hop
  | delete hs =>
    subst hs
    rcases hop with hop | ⟨_, _, hop⟩ <;> cases hop
  | commit hs =>
    subst hs
    rcases hop with hop | ⟨_, _, hop⟩ <;> cases hop
  | rollback _ h => exact (congrArg Cell.stored h).trans (Cell.rollback_stored _ _)

/-- A draft changes no committed row. -/
theorem Untouched.after {s : History ι} (hs : Untouched w s)
    (hop : op.Drafts ∨ ∃ k at_, op = .otpCode (.consume k at_))
    (h : exec crypto i x op s.shared = some (r, t)) : Untouched w (s.after i op r t) :=
  ⟨(exec_stored_refreshTokens hop h).trans hs.refreshTokens,
    (exec_stored_otpCodes hop h).trans hs.otpCodes⟩

/-- **A commit that fails** is a rollback. -/
theorem Untouched.commit_error {s : History ι} (hs : Untouched w s) {e : StatementError}
    (hx : (Alone i).stmt i x .commit s)
    (h : exec crypto i x .commit s.shared = some (.error e, t)) :
    Untouched w (s.after i .commit (.error e) t) := by
  have hfault : x.fault ≠ .after := hx.2 rfl
  have hrollback : t = (s.shared.elapse x.elapse).rollback i := by
    unfold exec at h
    cases hx : x.fault with
    | none =>
      rw [hx] at h
      cases h
    | before =>
      rw [hx] at h
      cases h
      rfl
    | after => exact absurd hx hfault
  subst hrollback
  exact ⟨(funext (World.rollback_stored _ i)).trans hs.refreshTokens,
    (funext fun k ↦ Cell.rollback_stored _ _).trans hs.otpCodes⟩

end Statements

/-! ### One call alone -/

section Rules

variable {crypto : Crypto} {i : ι} {α : Type} {Pre R : History ι → Prop}
  {Q : α → History ι → Prop} {E : Failure → History ι → Prop}

/-- A statement and what follows it. -/
theorem alone_run_bind {op : Op} {f : op.Ret → Call α} (Mid : op.Ret → History ι → Prop)
    (hok : ∀ s x a t, Pre s → exec crypto i x op s.shared = some (.ok a, t) →
      Mid a (s.after i op (.ok a) t))
    (herror : ∀ s x e t, Pre s → (Alone i).stmt i x op s →
      exec crypto i x op s.shared = some (.error e, t) →
        E (.statement e) (s.after i op (.error e) t))
    (hk : ∀ a, (alone crypto i).Triple i (Mid a) (f a) Q E) :
    (alone crypto i).Triple i Pre (run op >>= f) Q E := by
  refine triple_run_bind Mid (fun e ↦ E (.statement e)) alone_stable
    (fun s x r t _ hp ha hx ↦ ⟨trivial, trivial, fun a hr ↦ ?_, fun e hr ↦ ?_⟩) hk
    fun e ↦ .throw alone_stable fun _ _ h ↦ h
  · subst hr
    exact hok s x a t hp hx
  · subst hr
    exact herror s x e t hp ha hx

/-- A program all of whose statements keep an assertion. -/
theorem alone_all {p : Call α} {C : Op → Prop} (hp : p.All C)
    (hop : ∀ op, C op → ∀ s x r t, R s → exec crypto i x op s.shared = some (r, t) →
      R (s.after i op r t)) :
    (alone crypto i).Triple i R p (fun _ ↦ R) fun _ ↦ R :=
  .of_all hp alone_stable fun op hC s x r t _ hs _ hx ↦ ⟨trivial, trivial, hop op hC s x r t hs hx⟩

/-- **A transaction.** Where its body fails, or the commit does, `R` is left. -/
theorem alone_transaction {body : Call α} {X : α → History ι → Prop}
    (hbody : (alone crypto i).Triple i Pre body X fun _ ↦ R)
    (hrollback : ∀ s x r t, R s → exec crypto i x .rollback s.shared = some (r, t) →
      R (s.after i .rollback r t))
    (hcommit : ∀ a s x t, X a s → exec crypto i x .commit s.shared = some (.ok (), t) →
      Q a (s.after i .commit (.ok ()) t))
    (hfailed : ∀ a s x e t, X a s → (Alone i).stmt i x .commit s →
      exec crypto i x .commit s.shared = some (.error e, t) → R (s.after i .commit (.error e) t)) :
    (alone crypto i).Triple i Pre (transaction body) Q fun _ ↦ R := by
  refine .bind (R := X) (.tryCatch (R := fun _ ↦ R) hbody fun e ↦ ?_) fun a ↦ ?_
  · exact alone_run_bind (fun _ ↦ R) (fun s x a t h hx ↦ hrollback s x _ t h hx)
      (fun s x e t h _ hx ↦ hrollback s x _ t h hx) fun _ ↦ .throw alone_stable fun _ _ h ↦ h
  · exact alone_run_bind (fun _ ↦ Q a) (fun s x _ t h hx ↦ hcommit a s x t h hx)
      (fun s x e t h ha hx ↦ hfailed a s x e t h ha hx) fun _ ↦ .pure alone_stable fun _ _ h ↦ h

theorem alone_reply {p : Call α} {g : α → ApiResponse}
    (h : (alone crypto i).Triple i Pre p (fun _ _ ↦ True) E) :
    (alone crypto i).Triple i Pre (g <$> p) (fun _ _ ↦ True) E :=
  .bind h fun _ ↦ .pure alone_stable fun _ _ _ ↦ trivial

end Rules

/-! ### Issuing -/

/-- Nothing is committed, and no code but `id` has been consumed. -/
structure Issuing (w : World ι) (i : ι) (id : Option ℕ) (s : History ι) : Prop extends
    Untouched w s where
  consumes : ∀ e ∈ s.history i, ∀ k at_, e.op = .otpCode (.consume k at_) → id = some k

/-- The thread has begun to issue a session for code `k`. -/
def Consumes (i : ι) (k : ℕ) (s : History ι) : Prop :=
  ∃ e ∈ s.history i, ∃ at_, e.op = .otpCode (.consume k at_)

/-- If the thread has begun to issue a session, nothing is committed, and the code is not
consumed. -/
def Spared (w : World ι) (i : ι) (s : History ι) : Prop :=
  ∀ k, Consumes i k s → Untouched w s ∧
    ∃ row, s.shared.otpCodes.stored k = some row ∧ row.consumedAt = none

section Issue

variable {crypto : Crypto} {i : ι} {w : World ι} {s : History ι}

/-- What is on the record was there or is the last statement. -/
theorem mem_history_after {op : Op} {r : Statements.Resp op} {t : World ι} {e : Happening ι}
    (he : e ∈ (s.after i op r t).history i) :
    e ∈ s.history i ∨ e = ⟨i, s.shared, op, r, t⟩ := by
  rwa [State.after_history_self, List.mem_append, List.mem_singleton] at he

/-- A sign-in that has not committed has spared the rows. -/
theorem Issuing.spared {id : Option ℕ} (hs : Issuing w i id s)
    (hid : ∀ k, id = some k → ∃ row, w.otpCodes.stored k = some row ∧ row.consumedAt = none) :
    Spared w i s := by
  rintro k ⟨e, he, at_, hop⟩
  refine ⟨hs.toUntouched, ?_⟩
  rw [hs.otpCodes]
  exact hid k (hs.consumes e he k at_ hop)

theorem Issuing.drafts {id : Option ℕ} {x : Choice} {op : Op} {r : Except StatementError op.Ret}
    {t : World ι} (hs : Issuing w i id s) (hop : op.Drafts)
    (hx : exec crypto i x op s.shared = some (r, t)) : Issuing w i id (s.after i op r t) := by
  refine ⟨hs.toUntouched.after (.inl hop) hx, fun e he k at_ heq ↦ ?_⟩
  rcases mem_history_after he with he | rfl
  · exact hs.consumes e he k at_ heq
  · have heq : op = .otpCode (.consume k at_) := heq
    subst heq
    cases hop

theorem Issuing.consume {k : ℕ} {at_ : ℤ} {x : Choice} {r : Except StatementError Bool}
    {t : World ι} (hs : Issuing w i none s)
    (hx : exec crypto i x (.otpCode (.consume k at_)) s.shared = some (r, t)) :
    Issuing w i (some k) (s.after i (.otpCode (.consume k at_)) r t) := by
  refine ⟨hs.toUntouched.after (.inr ⟨k, at_, rfl⟩) hx, fun e he k' at_' heq ↦ ?_⟩
  rcases mem_history_after he with he | rfl
  · cases hs.consumes e he k' at_' heq
  · cases heq
    rfl

/-- What a lookup of a live code finds is not consumed. -/
theorem findLive_unconsumed {userId : ℕ} {now : ℤ} {x : Choice} {record : Keyed OtpCode}
    {t : World ι} (hs : Untouched w s)
    (hx : exec crypto i x (.otpCode (.findLive userId now)) s.shared = some (.ok (some record), t)) :
    ∃ row, w.otpCodes.stored record.id = some row ∧ row.consumedAt = none := by
  have hp := perform_of_exec_ok hx
  simp only [perform, OtpCodeStatement.perform, reply, Option.some.injEq, Prod.mk.injEq,
    Except.ok.injEq] at hp
  have hmem := (List.mem_filter.1 (List.mem_of_getElem? hp.1)).1
  rw [Table.mem_select, Cell.view_none, Bool.and_eq_true] at hmem
  have hlive : record.row.consumedAt.isNone && decide (now < record.row.expiresAt) := hmem.2.2
  refine ⟨record.row, hs.otpCodes ▸ hmem.1, ?_⟩
  simpa using (Bool.and_eq_true_iff.1 hlive).1

end Issue

/-! #### The programs -/

section Issue

variable (env : Env) {i : ι} {w : World ι}

theorem checkVerifyFailureLimit_drafts (limit : ℕ) (ip : Option String)
    (deviceHash : Option Digest) (locked : NewAuthEvent) (message : String) :
    (checkVerifyFailureLimit env limit ip deviceHash locked message).All Op.Drafts :=
  .run_bind (.of_reads rfl) fun _ ↦ .run_bind trivial fun _ ↦
    .ite (fun _ ↦ .run_bind trivial fun _ ↦ trivial) fun _ ↦ trivial

theorem issuing_all {α : Type} {id : Option ℕ} {p : Call α} (hp : p.All Op.Drafts) :
    (alone env.crypto i).Triple i (Issuing w i id) p (fun _ ↦ Issuing w i id)
      fun _ ↦ Issuing w i id :=
  alone_all hp fun _ hop _ _ _ _ hs hx ↦ hs.drafts hop hx

/-- **The transaction of a sign-in** commits nothing. -/
theorem verifiedSessionBody_issuing {input : VerifiedSession} {F : ℕ} {familyCreatedAt : ℤ}
    {raw : ℕ} {consumedAt : ℤ} :
    (alone env.crypto i).Triple i (Issuing w i none)
      (verifiedSessionBody env input F familyCreatedAt raw consumedAt)
      (fun _ ↦ Issuing w i (some input.record.id)) fun _ ↦ Issuing w i (some input.record.id) := by
  refine alone_run_bind (fun _ ↦ Issuing w i (some input.record.id))
    (fun s x a t h hx ↦ h.consume hx) (fun s x e t h _ hx ↦ h.consume hx) fun consumed ↦ ?_
  have hopens : ∀ op : Op, op.Opens → op.Drafts := fun _ ↦ Op.Opens.drafts
  refine issuing_all env (.ite (fun _ ↦ ?_) fun _ ↦ trivial)
  refine .bind (.run_bind (.of_reads rfl) fun _ ↦ .run trivial) fun _ ↦ .run_bind trivial fun _ ↦
    .run_bind trivial fun _ ↦ ?_
  refine .bind ((prepareRefreshFamilySlot_opens env _ _).mono hopens) fun _ ↦
    .bind ((createRefreshTokenRow_opens env _ _ _ _ _).mono hopens) fun _ ↦ ?_
  refine .bind ((signAccessToken_all env _ _).mono fun _ ↦ .of_looks) fun token ↦
    .lift_bind fun expiresIn ↦ ?_
  exact .bind ((encryptOtpVerificationResponse_all env _ _).mono fun _ ↦ .of_looks) fun _ ↦
    .run_bind trivial fun _ ↦ trivial

/-- **Issuing a session** leaves nothing behind where it fails. -/
theorem issueVerifiedSession_spared {input : VerifiedSession}
    (hrow : ∃ row, w.otpCodes.stored input.record.id = some row ∧ row.consumedAt = none) :
    (alone env.crypto i).Triple i (Issuing w i none) (issueVerifiedSession env input)
      (fun _ _ ↦ True) fun _ ↦ Spared w i := by
  have hspared : ∀ s, Issuing w i (some input.record.id) s → Spared w i s := by
    refine fun s h ↦ h.spared fun k hk ↦ ?_
    cases hk
    exact hrow
  have hhost : ∀ {α : Type} {st : HostStatement} {f : st.Ret → Call α} {Q : α → History ι → Prop},
      (∀ a, (alone env.crypto i).Triple i (Issuing w i none) (f a) Q fun _ ↦ Spared w i) →
        (alone env.crypto i).Triple i (Issuing w i none) (run (.host st) >>= f) Q
          fun _ ↦ Spared w i := fun hk ↦
    alone_run_bind (fun _ ↦ Issuing w i none) (fun s x a t h hx ↦ h.drafts (.of_reads rfl) hx)
      (fun s x e t h _ hx ↦ (h.drafts (.of_reads rfl) hx).spared nofun) hk
  refine hhost fun F ↦ hhost fun familyCreatedAt ↦ hhost fun raw ↦ hhost fun consumedAt ↦ ?_
  refine .tryCatch (R := fun _ ↦ Issuing w i (some input.record.id)) ?_ fun e ↦ ?_
  · refine alone_transaction (verifiedSessionBody_issuing env)
      (fun s x r t h hx ↦ h.drafts trivial hx) (fun _ _ _ _ _ _ ↦ trivial)
      fun a s x e t h ha hx ↦ ⟨h.toUntouched.commit_error ha hx, fun e' he k at_ hop ↦ ?_⟩
    rcases mem_history_after he with he | rfl
    · exact h.consumes e' he k at_ hop
    · cases hop
  · refine (issuing_all env (.bind ((replayOtpVerification_all env _).mono fun _ ↦ .of_looks)
      fun replay ↦ ?_)).post (fun _ _ _ _ ↦ trivial) fun _ s _ h ↦ hspared s h
    cases replay <;> trivial

/-- A wrong code spares the rows until it has been compared. -/
theorem recordWrongCode_spared {user : Keyed User} {record : Keyed OtpCode} {phone : String}
    {ip : Option String} {deviceHash : Option Digest} :
    (alone env.crypto i).Triple i (Issuing w i none)
      (recordWrongCode env user record phone ip deviceHash) (fun _ _ ↦ True)
      fun _ ↦ Spared w i := by
  refine ((alone_all (R := fun s ↦ ∀ k, ¬ Consumes i k s) (recordWrongCode_all env _ _ _ _ _)
    fun op hop s x r t hs hx k ↦ ?_).conseq (fun s _ hs k hk ↦ ?_) (fun _ _ _ _ ↦ trivial)
    fun _ _ _ hs k hk ↦ absurd hk (hs k))
  · rintro ⟨e, he, at_, heq⟩
    rcases mem_history_after he with he | rfl
    · exact hs k ⟨e, he, at_, heq⟩
    · have heq : op = .otpCode (.consume k at_) := heq
      subst heq
      cases hop
  · obtain ⟨e, he, at_, heq⟩ := hk
    cases hs.consumes e he k at_ heq

/-- **A verification** that fails in its sign-in has spared the rows. -/
theorem verifyLiveOtp_spared (v : VerificationRequest) (ip : Option String)
    (deviceHash : Option Digest) :
    (alone env.crypto i).Triple i (Issuing w i none) (verifyLiveOtp env v ip deviceHash)
      (fun _ _ ↦ True) fun _ ↦ Spared w i := by
  have hall : ∀ {α : Type} {p : Call α} {Q : α → History ι → Prop}, p.All Op.Drafts →
      (∀ a s, Issuing w i none s → Q a s) →
      (alone env.crypto i).Triple i (Issuing w i none) p Q fun _ ↦ Spared w i := fun hp hQ ↦
    (issuing_all env hp).post (fun a s _ h ↦ hQ a s h) fun _ _ _ h ↦ h.spared nofun
  refine .bind (R := fun _ ↦ Issuing w i none) (hall (.run (.of_reads rfl)) fun _ _ h ↦ h)
    fun user ↦ ?_
  cases user with
  | none => exact hall trivial fun _ _ _ ↦ trivial
  | some user =>
    refine .bind (R := fun _ ↦ Issuing w i none) (hall (.run (.of_reads rfl)) fun _ _ h ↦ h)
      fun now ↦ ?_
    refine alone_run_bind (fun record s ↦ (∀ r ∈ record, ∃ row, w.otpCodes.stored r.id = some row ∧
        row.consumedAt = none) ∧ Issuing w i none s) (fun s x record t h hx ↦ ⟨?_, ?_⟩)
      (fun s x e t h _ hx ↦ (h.drafts (.of_reads rfl) hx).spared nofun) fun record ↦ ?_
    · rintro r hr
      cases hr
      exact findLive_unconsumed h.toUntouched hx
    · exact h.drafts (.of_reads rfl) hx
    refine .assume fun hrecord ↦ ?_
    cases record with
    | none =>
      refine hall (.bind ((replayOtpVerification_all env v).mono fun _ ↦ .of_looks)
        fun replay ↦ ?_) fun _ _ _ ↦ trivial
      cases replay <;> trivial
    | some record =>
      refine .ite (fun _ ↦ hall (.run_bind trivial fun _ ↦ trivial) fun _ _ _ ↦ trivial) fun _ ↦
        .bind (R := fun _ ↦ Issuing w i none) (hall (.run (.of_reads rfl)) fun _ _ h ↦ h) fun ok ↦
          .ite (fun _ ↦ issueVerifiedSession_spared env (hrecord record rfl))
            fun _ ↦ recordWrongCode_spared env

attribute [local irreducible] isUuidV4 in

theorem verifyOtp_spared (phone countryIso otp : String) (context : OtpVerificationContext) :
    (alone env.crypto i).Triple i (Issuing w i none) (verifyOtp env phone countryIso otp context)
      (fun _ _ ↦ True) fun _ ↦ Spared w i := by
  have hall : ∀ {α : Type} {p : Call α}, p.All Op.Drafts →
      (alone env.crypto i).Triple i (Issuing w i none) p (fun _ ↦ Issuing w i none)
        fun _ ↦ Spared w i := fun hp ↦
    (issuing_all env hp).post (fun _ _ _ h ↦ h) fun _ _ _ h ↦ h.spared nofun
  have hthrow : ∀ {α : Type} {e : Failure}, (alone env.crypto i).Triple i (Issuing w i none)
      (.throw e : Call α) (fun _ _ ↦ True) fun _ ↦ Spared w i :=
    .throw alone_stable fun _ _ h ↦ h.spared nofun
  refine .bind (hall ((requireAuthCountry_all env countryIso).mono fun _ ↦ .of_looks))
    fun country ↦ ?_
  refine triple_lift_bind (fun normalizedPhone _ ↦ ?_) fun _ _ ↦ hthrow
  refine triple_lift_bind (fun deviceHash _ ↦ ?_) fun _ _ ↦ hthrow
  refine .bind (R := fun _ ↦ Issuing w i none) (hall ?_) fun key ↦ ?_
  · unfold verificationKey
    split
    · trivial
    · exact .run_bind (.of_reads rfl) fun _ ↦ trivial
  refine triple_lift_bind (fun idempotencyKey _ ↦ ?_) fun _ _ ↦ hthrow
  refine triple_lift_bind (fun secret _ ↦ ?_) fun _ _ ↦ hthrow
  refine .bind (hall ((replayOtpVerification_all env _).mono fun _ ↦ .of_looks)) fun replay ↦ ?_
  cases replay with
  | some replay => exact .pure alone_stable fun _ _ _ ↦ trivial
  | none =>
    refine .bind (hall (present_all _ _ fun _ ↦ checkVerifyFailureLimit_drafts env _ _ _ _ _))
      fun _ ↦ .bind (hall (present_all _ _ fun _ ↦ checkVerifyFailureLimit_drafts env _ _ _ _ _))
        fun _ ↦ verifyLiveOtp_spared env _ _ _

end Issue

/-! ### Rotating -/

/-- A lookup that finds a token. -/
def lookup (hash : Digest) (existing : Keyed RefreshToken) (phone : String) : Exchange Statements :=
  ⟨.refreshToken (.findByHash hash), .ok (some (existing, phone))⟩

/-- A reading of the clock. -/
def reading (now : ℤ) : Exchange Statements := ⟨.host .now, .ok now⟩

/-- The reasons for which a refresh revokes: it found its token revoked, or the token had expired,
or the family was too old, when it read the clock for that. -/
inductive Detected (env : Env) (hash : Digest) (trace : List (Exchange Statements)) : Prop
  | reuse {existing : Keyed RefreshToken} {phone : String} (h : lookup hash existing phone ∈ trace)
      (hrevoked : existing.row.revokedAt.isSome)
  | expiry {existing : Keyed RefreshToken} {phone : String} {now : ℤ}
      (h : [lookup hash existing phone, reading now] <+: trace)
      (hexpired : existing.row.expiresAt ≤ now)
  | overAge {existing : Keyed RefreshToken} {phone : String} {earlier now : ℤ} {maxAge : ℕ}
      (h : [lookup hash existing phone, reading earlier, reading now] <+: trace)
      (hmaxAge : parseDurationToMs env.config.refreshFamilyMaxAge = .ok maxAge)
      (hage : existing.row.familyCreatedAt + (maxAge : ℤ) ≤ now)

omit [DecidableEq ι] in
/-- What a trace shows it goes on showing. -/
theorem Detected.append {env : Env} {hash : Digest} {trace : List (Exchange Statements)}
    (h : Detected env hash trace) (rest : List (Exchange Statements)) :
    Detected env hash (trace ++ rest) := by
  cases h with
  | reuse h hrevoked => exact .reuse (List.mem_append_left _ h) hrevoked
  | expiry h hexpired => exact .expiry (h.trans (List.prefix_append _ _)) hexpired
  | overAge h hmaxAge hage => exact .overAge (h.trans (List.prefix_append _ _)) hmaxAge hage

/-- The committed tokens are those of `w`, and what lookups of the thread have found is among
them. -/
structure Unrotated (w : World ι) (hash : Digest) (i : ι) (s : History ι) : Prop where
  refreshTokens : s.shared.refreshTokens.stored = w.refreshTokens.stored
  found : ∀ existing phone, lookup hash existing phone ∈ s.trace i →
    w.refreshTokens.stored existing.id = some existing.row

/-- And no transaction of the thread has written a token. -/
structure Resting (w : World ι) (hash : Digest) (i : ι) (s : History ι) : Prop extends
    Unrotated w hash i s where
  nothing : s.shared.NothingPending i

section Rotate

variable {crypto : Crypto} {i : ι} {w : World ι} {hash : Digest} {s : History ι} {x : Choice}
  {op : Op} {r : Except StatementError op.Ret} {t : World ι}

/-- A refresh has rotated nothing as long as the tokens are as they were. -/
theorem Unrotated.after (hs : Unrotated w hash i s)
    (htokens : t.refreshTokens.stored = s.shared.refreshTokens.stored)
    (hfound : ∀ existing phone, (⟨op, r⟩ : Exchange Statements) = lookup hash existing phone →
      w.refreshTokens.stored existing.id = some existing.row) :
    Unrotated w hash i (s.after i op r t) := by
  refine ⟨htokens.trans hs.refreshTokens, fun existing phone h ↦ ?_⟩
  rw [State.after_trace_self, List.mem_append, List.mem_singleton] at h
  rcases h with h | h
  · exact hs.found existing phone h
  · exact hfound existing phone h.symm

/-- What does not look a token up shows nothing of it. -/
theorem not_lookup_of_blind (hop : op.blind = true) {existing : Keyed RefreshToken}
    {phone : String} : (⟨op, r⟩ : Exchange Statements) ≠ lookup hash existing phone := by
  intro h
  cases h
  cases hop

theorem Unrotated.drafts (hs : Unrotated w hash i s) (hop : op.Drafts) (hblind : op.blind = true)
    (hx : exec crypto i x op s.shared = some (r, t)) : Unrotated w hash i (s.after i op r t) :=
  hs.after (exec_stored_refreshTokens (.inl hop) hx)
    fun _ _ h ↦ absurd h (not_lookup_of_blind hblind)

theorem nothingPending_of_spares (hs : s.shared.NothingPending i) (hop : op.Spares)
    (hx : exec crypto i x op s.shared = some (r, t)) : t.NothingPending i := by
  intro k r hr
  exact hs k r ((exec_sameTokens hop hx).pending ▸ hr)

theorem Resting.spares (hs : Resting w hash i s) (hop : op.Spares) (hblind : op.blind = true)
    (hx : exec crypto i x op s.shared = some (r, t)) : Resting w hash i (s.after i op r t) :=
  ⟨hs.toUnrotated.after (exec_sameTokens hop hx).stored
    fun _ _ h ↦ absurd h (not_lookup_of_blind hblind), nothingPending_of_spares hs.nothing hop hx⟩

/-- A lookup finds what is committed. -/
theorem Resting.findByHash {a : Option (Keyed RefreshToken × String)} (hs : Resting w hash i s)
    (hx : exec crypto i x (.refreshToken (.findByHash hash)) s.shared = some (.ok a, t)) :
    Resting w hash i (s.after i (.refreshToken (.findByHash hash)) (.ok a) t) := by
  obtain ⟨htokens, hfound⟩ := findByHash_cases hx
  refine ⟨hs.toUnrotated.after (congrArg Table.stored htokens) fun existing phone h ↦ ?_, ?_⟩
  · obtain rfl : a = some (existing, phone) := by
      cases h
      rfl
    rcases hfound with ⟨hnone, -⟩ | ⟨existing', phone', heq, hrow, -⟩
    · cases hnone
    · cases heq
      rw [← hs.refreshTokens]
      exact hrow
  · intro k r hr
    rw [State.after_shared, htokens] at hr
    exact hs.nothing k r hr

/-- A claim that comes too late writes nothing. -/
theorem nothingPending_claim {id : ℕ} {now after : ℤ} (hs : s.shared.NothingPending i)
    (hx : exec crypto i x (.refreshToken (.claim id now after)) s.shared = some (.ok false, t)) :
    t.NothingPending i := by
  have hp := perform_of_exec_ok hx
  simp only [perform, RefreshTokenStatement.perform] at hp
  split at hp
  · next hupd =>
    cases hp
    rcases Table.updateId_cases hupd with ⟨-, rfl, -⟩ | ⟨htrue, -⟩
    · exact hs
    · cases htrue
  · cases hp

/-- A commit of nothing. -/
theorem Resting.commit (hs : Resting w hash i s)
    (hx : exec crypto i x .commit s.shared = some (.ok (), t)) :
    Resting w hash i (s.after i .commit (.ok ()) t) := by
  cases perform_of_exec_ok hx
  refine ⟨hs.toUnrotated.after (funext fun k ↦ ?_) fun _ _ h ↦ absurd h (not_lookup_of_blind rfl),
    fun k r hr ↦ ?_⟩
  · exact (Cell.commit_stored _ i).trans (Cell.view_of_not_pending (hs.nothing k))
  · exact Cell.commit_pending_ne _ i r hr

/-- A commit that fails. -/
theorem Unrotated.commit_error (hs : Unrotated w hash i s) {e : StatementError}
    (ha : (Alone i).stmt i x .commit s)
    (hx : exec crypto i x .commit s.shared = some (.error e, t)) :
    Unrotated w hash i (s.after i .commit (.error e) t) := by
  have hsame : Untouched s.shared s := ⟨rfl, rfl⟩
  exact hs.after (hsame.commit_error ha hx).refreshTokens
    fun _ _ h ↦ absurd h (not_lookup_of_blind rfl)

end Rotate

section Rotation

variable (env : Env) {i : ι} {w : World ι} {hash : Digest}

/-- **The transaction of a rotation** has written nothing when it does not rotate. -/
theorem rotateBody_unrotated (existing : Keyed RefreshToken) (phone : String)
    (familyMaxAgeMs : ℕ) (deviceHash : Option Digest) :
    (alone env.crypto i).Triple i (Resting w hash i)
      (rotateBody env existing phone familyMaxAgeMs deviceHash)
      (fun a s ↦ Unrotated w hash i s ∧ (a = none → s.shared.NothingPending i))
      fun _ ↦ Unrotated w hash i := by
  have hspares : ∀ (op : Op) {f : op.Ret → Call (Option VerifyOtpResponse)}
      {Q : Option VerifyOtpResponse → History ι → Prop}, op.Spares → op.blind = true →
      (∀ a, (alone env.crypto i).Triple i (Resting w hash i) (f a) Q
        fun _ ↦ Unrotated w hash i) →
      (alone env.crypto i).Triple i (Resting w hash i) (run op >>= f) Q
        fun _ ↦ Unrotated w hash i := fun op _ _ hop hblind hk ↦
    alone_run_bind (fun _ ↦ Resting w hash i) (fun s x a t h hx ↦ h.spares hop hblind hx)
      (fun s x e t h _ hx ↦ (h.spares hop hblind hx).toUnrotated) hk
  refine hspares (.lockRefreshUser existing.row.userId) trivial rfl fun _ ↦
    hspares (.host .now) trivial rfl fun now ↦ ?_
  -- Even a claim that takes effect is a draft: the committed rows are as they were.
  have hclaim : ∀ {s : History ι} {x : Choice} {t : World ι} {r : Except StatementError Bool}
      {id : ℕ} {now after : ℤ}, Resting w hash i s →
      exec env.crypto i x (.refreshToken (.claim id now after)) s.shared = some (r, t) →
        Unrotated w hash i (s.after i (.refreshToken (.claim id now after)) r t) := by
    intro s x t r id now after h hx
    have hop : (Op.refreshToken (.claim id now after)).Drafts := trivial
    refine h.toUnrotated.after (exec_stored_refreshTokens (.inl hop) hx) fun _ _ heq ↦ ?_
    cases heq
  refine alone_run_bind (fun claimed s ↦ Unrotated w hash i s ∧
      (claimed = false → s.shared.NothingPending i)) (fun s x a t h hx ↦ ⟨hclaim h hx, ?_⟩)
    (fun s x e t h _ hx ↦ hclaim h hx) fun claimed ↦ ?_
  · rintro rfl
    exact nothingPending_claim h.nothing hx
  cases claimed with
  | false => exact .pure alone_stable fun s _ h ↦ ⟨h.1, fun _ ↦ h.2 rfl⟩
  -- From the claim on every statement is a draft, until the transaction is committed.
  | true =>
    have hall : ∀ {α β : Type} {p : Call α} {f : α → Call β} {Q : β → History ι → Prop},
        p.All (fun op : Op ↦ op.Drafts ∧ op.blind = true) →
        (∀ a, (alone env.crypto i).Triple i (Unrotated w hash i) (f a) Q
          fun _ ↦ Unrotated w hash i) →
        (alone env.crypto i).Triple i (Unrotated w hash i) (p >>= f) Q
          fun _ ↦ Unrotated w hash i := fun hp hf ↦
      .bind (alone_all hp fun op hop s x r t hs hx ↦ hs.drafts hop.1 hop.2 hx) hf
    suffices hrest : (alone env.crypto i).Triple i (Unrotated w hash i) _ _ _ from
      hrest.pre fun _ _ h ↦ h.1
    refine hall (.run ⟨.of_reads rfl, rfl⟩) fun rawToken ↦ hall ?_ fun created ↦
      hall (.run ⟨trivial, rfl⟩) fun _ ↦ hall (.lift_bind fun _ ↦ .run ⟨.of_reads rfl, rfl⟩)
        fun token ↦ triple_lift_bind (fun expiresIn _ ↦ ?_) fun _ _ ↦
          .throw alone_stable fun _ _ h ↦ h
    · exact .run_bind ⟨.of_reads rfl, rfl⟩ fun _ ↦ .lift_bind fun _ ↦ .run ⟨trivial, rfl⟩
    · exact .pure alone_stable fun s _ h ↦ ⟨h, nofun⟩

/-- The tokens are as they were, and those the thread has looked up are not revoked. -/
def TokensKept (w : World ι) (hash : Digest) (i : ι) (s : History ι) : Prop :=
  s.shared.refreshTokens.stored = w.refreshTokens.stored ∧
    ∀ existing phone, lookup hash existing phone ∈ s.trace i →
      s.shared.refreshTokens.stored existing.id = some existing.row ∧
        existing.row.revokedAt = none

/-- How a refresh fails: with the tokens as they were, or for what it read of its token. -/
def Refused (w : World ι) (hash : Digest) (i : ι) (s : History ι) : Prop :=
  Unrotated w hash i s ∨ Detected env hash (s.trace i)

/-- What was detected stays so, whatever fails then. -/
theorem detected_all {α : Type} {p : Call α} :
    (alone env.crypto i).Triple i (fun s ↦ Detected env hash (s.trace i)) p (fun _ _ ↦ True)
      fun _ ↦ Refused env w hash i := by
  refine (alone_all (Prog.all_true p) fun op _ s x r t hs _ ↦ ?_).post (fun _ _ _ _ ↦ trivial)
    fun _ _ _ h ↦ .inr h
  rw [State.after_trace_self]
  exact hs.append _

/-- **A rotation** that fails has rotated nothing, or has detected something. -/
theorem rotate_unrotated (existing : Keyed RefreshToken) (phone : String)
    (familyMaxAgeMs : ℕ) (deviceHash : Option Digest) :
    (alone env.crypto i).Triple i (Resting w hash i)
      (rotate env hash existing phone familyMaxAgeMs deviceHash) (fun _ _ ↦ True)
      fun _ ↦ Refused env w hash i := by
  refine .bind (R := fun a s ↦ a = none → Resting w hash i s)
    ((alone_transaction (rotateBody_unrotated env existing phone familyMaxAgeMs deviceHash)
      (fun s x r t h hx ↦ h.drafts trivial rfl hx) (fun a s x t h hx ha ↦ ?_)
      fun a s x e t h ha hx ↦ h.1.commit_error ha hx).post (fun _ _ _ h ↦ h) fun _ _ _ h ↦ .inl h)
    fun a ↦ ?_
  · exact Resting.commit ⟨h.1, h.2 ha⟩ hx
  cases a with
  | some session => exact .pure alone_stable fun _ _ _ ↦ trivial
  | none =>
    suffices hrest : (alone env.crypto i).Triple i (Resting w hash i) _ _ _ from
      hrest.pre fun _ _ h ↦ h rfl
    have hop : (Op.refreshToken (.findByHash hash)).Spares := rfl
    refine alone_run_bind (fun current s ↦ (∀ c ∈ current, c.1.row.revokedAt.isSome →
        Detected env hash (s.trace i)) ∧ Unrotated w hash i s) (fun s x current t h hx ↦ ⟨?_, ?_⟩)
      (fun s x e t h _ hx ↦ .inl (h.toUnrotated.after (exec_sameTokens hop hx).stored nofun))
      fun current ↦ ?_
    · rintro ⟨existing', phone'⟩ hc hrevoked
      cases hc
      refine .reuse (?_ : lookup hash existing' phone' ∈ _) hrevoked
      rw [State.after_trace_self]
      exact List.mem_append_right _ (List.mem_singleton_self _)
    · exact (h.findByHash hx).toUnrotated
    match current with
    | none => exact .throw alone_stable fun _ _ h ↦ .inl h.2
    | some (current, _) =>
      refine .ite (fun hrevoked ↦ ?_) fun _ ↦ .throw alone_stable fun _ _ h ↦ .inl h.2
      exact (detected_all env).pre fun _ _ h ↦ h.1 _ rfl hrevoked

/-- **A refresh** that fails has changed no token, or failed for what it read of its token. -/
theorem refreshSession_refused (refreshToken : ℕ) (context : AuthRequestContext) :
    (alone env.crypto i).Triple i
      (fun s ↦ Resting w (env.crypto.hashRefreshToken refreshToken) i s ∧ s.trace i = [])
      (refreshSession env refreshToken context) (fun _ _ ↦ True)
      fun _ ↦ Refused env w (env.crypto.hashRefreshToken refreshToken) i := by
  set hash := env.crypto.hashRefreshToken refreshToken
  have hop : (Op.refreshToken (.findByHash hash)).Spares := rfl
  refine alone_run_bind
    (fun found s ↦ Resting w hash i s ∧ s.trace i = [⟨.refreshToken (.findByHash hash), .ok found⟩])
    (fun s x found t h hx ↦ ⟨h.1.findByHash hx, ?_⟩)
    (fun s x e t h _ hx ↦ .inl (h.1.toUnrotated.after (exec_sameTokens hop hx).stored nofun))
    fun found ↦ ?_
  · rw [State.after_trace_self, h.2]
    rfl
  match found with
  | none => exact .throw alone_stable fun _ _ h ↦ .inl h.1.toUnrotated
  | some (existing, phone) =>
    -- The next statement reads the clock.
    have hnow : ∀ {α : Type} {trace : List (Exchange Statements)} {f : ℤ → Call α}
        {Q : α → History ι → Prop},
        (∀ now, (alone env.crypto i).Triple i
          (fun s ↦ Resting w hash i s ∧ s.trace i = trace ++ [reading now]) (f now) Q
          fun _ ↦ Refused env w hash i) →
        (alone env.crypto i).Triple i (fun s ↦ Resting w hash i s ∧ s.trace i = trace)
          (run (.host .now) >>= f) Q fun _ ↦ Refused env w hash i := by
      intro α trace f Q hk
      have hreads : (Op.host .now).Spares := trivial
      refine alone_run_bind
        (fun now s ↦ Resting w hash i s ∧ s.trace i = trace ++ [reading now])
        (fun s x now t h hx ↦ ⟨h.1.spares hreads rfl hx, ?_⟩)
        (fun s x e t h _ hx ↦ .inl (h.1.spares hreads rfl hx).toUnrotated) hk
      rw [State.after_trace_self, h.2]
      rfl
    have hdetected : ∀ {α : Type} {trace : List (Exchange Statements)} {p : Call α},
        Detected env hash trace →
        (alone env.crypto i).Triple i (fun s ↦ Resting w hash i s ∧ s.trace i = trace) p
          (fun _ _ ↦ True) fun _ ↦ Refused env w hash i := fun hdet ↦
      (detected_all env).pre fun _ _ h ↦ h.2 ▸ hdet
    have hthrow : ∀ {α : Type} {trace : List (Exchange Statements)} {e : Failure},
        (alone env.crypto i).Triple i (fun s ↦ Resting w hash i s ∧ s.trace i = trace)
          (.throw e : Call α) (fun _ _ ↦ True) fun _ ↦ Refused env w hash i :=
      .throw alone_stable fun _ _ h ↦ .inl h.1.toUnrotated
    refine .ite (fun hrevoked ↦ hdetected (.reuse (List.mem_singleton_self _) hrevoked))
      fun _ ↦ hnow fun now ↦ .ite (fun hexpired ↦ ?_) fun _ ↦ ?_
    · exact hdetected (.expiry (List.prefix_refl _) hexpired)
    · refine triple_lift_bind (fun maxAge hmaxAge ↦ hnow fun now' ↦ .ite (fun hage ↦ ?_) fun _ ↦ ?_)
        fun _ _ ↦ hthrow
      · exact hdetected (.overAge (List.prefix_refl _) hmaxAge hage)
      · refine triple_lift_bind (fun deviceHash _ ↦ .ite (fun _ ↦ ?_) fun _ ↦ hthrow)
          fun _ _ ↦ hthrow
        exact (rotate_unrotated env existing phone maxAge deviceHash).pre fun _ _ h ↦ h.1

end Rotation

/-! ### All or nothing -/

section AllOrNothing

variable (env : Env) {i : ι} {w : World ι}

/-- The other calls take no step. -/
theorem alone_others {j : ι} (hj : j ≠ i) (call : ApiCall) {Q : ApiResponse → History ι → Prop}
    {E : Failure → History ι → Prop} (hQ : ∀ a s, Q a s) (hE : ∀ e s, E e s) :
    (alone env.crypto i).Triple j (fun _ ↦ True) (call.program env) Q E := by
  have hstable : (alone env.crypto i).Stable j fun _ ↦ True := .const
  refine (Triple.of_all (Prog.all_true _) hstable
    fun op _ s x r t _ _ ha _ ↦ absurd ha.1 hj).post (fun a s _ _ ↦ hQ a s) fun e s _ _ ↦ hE e s

/-- A call alone ends in an error as its triple has it. -/
theorem alone_error {calls : ι → ApiCall} {E : History ι → Prop} (Pre : History ι → Prop)
    (hpre : Pre ⟨w, []⟩)
    (h : (alone env.crypto i).Triple i Pre ((calls i).program env) (fun _ _ ↦ True) fun _ ↦ E)
    {c : System ι} (hc : System.Reaches env (Alone i) (System.start env w calls) c) {e : Failure}
    (he : c.Answered i (.error e)) : E c.state := by
  have hsafe : (alone env.crypto i).AllSafe (fun _ _ _ ↦ True) (fun j _ s ↦ j = i → E s)
      (System.start env w calls) := by
    refine .start (fun j s ↦ j = i → Pre s) trivial (fun j _ ↦ hpre) fun j ↦ ?_
    by_cases hj : j = i
    · subst hj
      exact h.conseq (fun _ _ h ↦ h rfl) (fun _ _ _ h ↦ h) fun _ _ _ h _ ↦ h
    · exact (alone_others env hj _ (fun _ _ ↦ trivial) fun _ _ h ↦ absurd h hj).pre
        fun _ _ _ ↦ trivial
  exact (hsafe.run hc).error he rfl

/-- **A sign-in that fails while it issues a session** leaves the code unconsumed, and no token and
no code other than it was. -/
theorem verifyOtp_alone {calls : ι → ApiCall} {phone countryIso otp : String}
    {context : OtpVerificationContext} (hi : calls i = .verifyOtp phone countryIso otp context)
    {c : System ι} (hc : System.Reaches env (Alone i) (System.start env w calls) c) {e : Failure}
    (he : c.Answered i (.error e)) : Spared w i c.state := by
  refine alone_error env (Issuing w i none)
    ⟨⟨rfl, rfl⟩, fun e he ↦ absurd he List.not_mem_nil⟩ ?_ hc he
  rw [hi]
  exact alone_reply (verifyOtp_spared env phone countryIso otp context)

/-- **A refresh that fails** for another reason than reuse, expiry or age leaves the tokens as they
were, its own among them and not revoked. -/
theorem refreshSession_alone (hnothing : w.NothingPending i) {calls : ι → ApiCall}
    {refreshToken : ℕ} {context : AuthRequestContext}
    (hi : calls i = .refreshSession refreshToken context) {c : System ι}
    (hc : System.Reaches env (Alone i) (System.start env w calls) c) {e : Failure}
    (he : c.Answered i (.error e))
    (hnone : ¬ Detected env (env.crypto.hashRefreshToken refreshToken) (c.state.trace i)) :
    TokensKept w (env.crypto.hashRefreshToken refreshToken) i c.state := by
  set hash := env.crypto.hashRefreshToken refreshToken
  have hrefused : Refused env w hash i c.state := by
    refine alone_error env (fun s ↦ Resting w hash i s ∧ s.trace i = [])
      ⟨⟨⟨rfl, fun _ _ h ↦ absurd h List.not_mem_nil⟩, hnothing⟩, rfl⟩ ?_ hc he
    rw [hi]
    exact alone_reply (refreshSession_refused env refreshToken context)
  obtain ⟨hstored, hfound⟩ := hrefused.resolve_right hnone
  refine ⟨hstored, fun existing phone hlookup ↦ ⟨?_, ?_⟩⟩
  · rw [hstored]
    exact hfound existing phone hlookup
  · by_contra hrevoked
    exact hnone (.reuse hlookup (Option.isSome_iff_ne_none.2 hrevoked))

/-- **All or nothing.** A call alone that fails, unless the answer of its commit is lost: a sign-in
that has begun to issue a session leaves the code unconsumed and adds nothing, and a refresh that has
not found its token reused, expired or too old leaves all tokens as they were. -/
theorem all_or_nothing (w : World ι) (i : ι) (calls : ι → ApiCall) (hnothing : w.NothingPending i)
    {c : System ι} (hc : System.Reaches env (Alone i) (System.start env w calls) c) {e : Failure}
    (he : c.Answered i (.error e)) :
    (∀ phone countryIso otp context, calls i = .verifyOtp phone countryIso otp context →
      Spared w i c.state) ∧
    ∀ refreshToken context, calls i = .refreshSession refreshToken context →
      ¬ Detected env (env.crypto.hashRefreshToken refreshToken) (c.state.trace i) →
        TokensKept w (env.crypto.hashRefreshToken refreshToken) i c.state :=
  ⟨fun _ _ _ _ hi ↦ verifyOtp_alone env hi hc he,
    fun _ _ hi hnone ↦ refreshSession_alone env hnothing hi hc he hnone⟩

end AllOrNothing

/-! ### A commit whose answer is lost -/

/-- Only thread `i` takes steps. -/
def Solo (i : ι) : Weather ι := ⟨fun j _ _ _ ↦ j = i, fun _ _ ↦ False⟩

namespace Demo

/-- The token an exchange has found. -/
def foundToken : Exchange Statements → Option RefreshToken
  | ⟨.refreshToken (.findByHash _), .ok (some (existing, _))⟩ => some existing.row
  | _ => none

/-- The time an exchange has read. -/
def clockRead : Exchange Statements → Option ℤ
  | ⟨.host .now, .ok now⟩ => some now
  | _ => none

/-- The test finds the row that was looked up. -/
theorem foundToken_lookup (hash : Digest) (existing : Keyed RefreshToken) (phone : String) :
    foundToken (lookup hash existing phone) = some existing.row := rfl

/-- The default age limit. -/
theorem maxAge_default {maxAge : ℕ}
    (h : parseDurationToMs env.config.refreshFamilyMaxAge = .ok maxAge) : maxAge = 7776000000 := by
  have hdefault : parseDurationToMs env.config.refreshFamilyMaxAge = .ok 7776000000 := by
    decide +kernel
  exact Except.ok.inj (h.symm.trans hdefault)

/-- What the refresh reads first: its token, not revoked, and the clock. -/
def Reads (read : List (Exchange Statements)) : Prop :=
  (∀ e ∈ read, (foundToken e).all fun r ↦ r.revokedAt.isNone) ∧
    (read[0]?.bind foundToken).map (fun r ↦ (r.expiresAt, r.familyCreatedAt)) =
      some (2592000000, 0) ∧
    read[1]?.bind clockRead = some 0 ∧ read[2]?.bind clockRead = some 0

instance (read : List (Exchange Statements)) : Decidable (Reads read) :=
  inferInstanceAs (Decidable (_ ∧ _ ∧ _ ∧ _))

/-- A call that has read such a trace finds that the token may be used. -/
theorem not_detected {hash : Digest} {read : List (Exchange Statements)} (hread : Reads read) :
    ¬ Detected env hash read := by
  obtain ⟨hlive, hfirst, hnow, hnow'⟩ := hread
  intro h
  cases h with
  | reuse h hrevoked =>
    have := hlive _ h
    rw [foundToken_lookup, Option.all_some, Option.isNone_iff_eq_none] at this
    rw [this] at hrevoked
    cases hrevoked
  | @expiry existing phone now h hexpired =>
    obtain ⟨rest, rfl⟩ := h
    have hlimits := Option.some.inj hfirst
    have hexpires : existing.row.expiresAt = 2592000000 := congrArg Prod.fst hlimits
    have hzero : now = 0 := Option.some.inj hnow
    omega
  | @overAge existing phone earlier now maxAge h hmaxAge hold =>
    obtain ⟨rest, rfl⟩ := h
    have hlimits := Option.some.inj hfirst
    have hcreated : existing.row.familyCreatedAt = 0 := congrArg Prod.snd hlimits
    have hzero : now = 0 := Option.some.inj hnow'
    have := maxAge_default hmaxAge
    omega

/-- The next `n` statements of the refresh, the last of which fails. -/
def failing (n : ℕ) (fault : Fault) : List (Turn ℕ Choice) :=
  steps 2 n ++ [⟨2, { fault := fault }⟩]

/-- The refresh reads its token and fails. -/
def FailsAfterRead (c : System ℕ) : Prop :=
  Reads (c.state.trace 2) ∧
    (c.progs 2).bind Prog.outcome = some (.error (.statement .unavailable))

instance (c : System ℕ) : Decidable (FailsAfterRead c) := inferInstanceAs (Decidable (_ ∧ _))

/-- One token, which is not revoked. The access token cannot be signed (`unsigned`), or the answer
of the commit is lost (`unheard`). -/
def BothFail (w : World ℕ) : Prop :=
  ((w.refreshTokens.stored 0).map (fun r ↦ r.revokedAt) = some none ∧
    w.refreshTokens.pending 0 = none ∧ w.refreshTokens.next = 1) ∧
  ((System.start env w sessionCalls).turns (machine ℕ crypto) anything
    (failing 10 .before ++ steps 2 1)).any (fun c ↦ FailsAfterRead c) = true ∧
  ((System.start env w sessionCalls).turns (machine ℕ crypto) anything
    (failing 11 .after)).any (fun c ↦ FailsAfterRead c ∧
      (c.state.shared.refreshTokens.stored 0).map (fun r ↦ r.revokedAt) = some (some 0)) = true

instance (w : World ℕ) : Decidable (BothFail w) := inferInstanceAs (Decidable (_ ∧ _ ∧ _))

/-- A user has signed in. -/
theorem oneSession_runs : ((System.start env world sessionCalls).turns (machine ℕ crypto) anything
    (steps 0 18 ++ steps 1 22)).any (fun c ↦ BothFail c.state.shared) = true := by
  decide +kernel

/-- The state with one session. -/
def oneSession : World ℕ :=
  (after (System.start env world sessionCalls) _ _
    (Option.isSome_of_any oneSession_runs)).state.shared

theorem oneSession_tests : BothFail oneSession :=
  of_decide_eq_true (Config.afterTurns_of_any oneSession_runs)

/-- the signing of the access token fails, -/
def unsigned : System ℕ :=
  after (System.start env oneSession sessionCalls) _ _ (Option.isSome_of_any oneSession_tests.2.1)

/-- or the answer to the commit is lost. -/
def unheard : System ℕ :=
  after (System.start env oneSession sessionCalls) _ _ (Option.isSome_of_any oneSession_tests.2.2)

theorem oneSession_token : (oneSession.refreshTokens.stored 0).map (fun r ↦ r.revokedAt) = some none ∧
    oneSession.refreshTokens.pending 0 = none ∧ oneSession.refreshTokens.next = 1 :=
  oneSession_tests.1

theorem nothingPending_oneSession : oneSession.NothingPending 2 := by
  intro k r hr
  by_cases hk : k = 0
  · subst hk
    cases oneSession_token.2.1.symm.trans hr
  · have hempty := oneSession.refreshTokens.fresh k (by have := oneSession_token.2.2; omega)
    rw [Table.pending, hempty] at hr
    cases hr

theorem unsigned_fails : FailsAfterRead unsigned :=
  of_decide_eq_true (Config.afterTurns_of_any oneSession_tests.2.1)

theorem unheard_fails : FailsAfterRead unheard ∧
    (unheard.state.shared.refreshTokens.stored 0).map (fun r ↦ r.revokedAt) = some (some 0) :=
  of_decide_eq_true (Config.afterTurns_of_any oneSession_tests.2.2)

end Demo

open Demo

/-- The rotation is undone when the access token cannot be signed. -/
theorem all_or_nothing_unsigned :
    TokensKept oneSession (crypto.hashRefreshToken 1) 2 unsigned.state := by
  have hruns : System.Reaches env (Alone 2) (System.start env oneSession sessionCalls) unsigned := by
    refine Config.run_schedule (fun a ha op s _ ↦ ?_) (Option.isSome_of_any oneSession_tests.2.1)
    simp only [failing, steps, List.mem_append, List.mem_replicate, List.mem_singleton] at ha
    obtain (⟨-, rfl⟩ | rfl) | ⟨-, rfl⟩ := ha <;> exact ⟨rfl, fun _ ↦ nofun⟩
  exact (all_or_nothing env oneSession 2 sessionCalls nothingPending_oneSession hruns
    (Config.answered_iff.2 unsigned_fails.2)).2 1 {} rfl (not_detected unsigned_fails.1)

/-- The commit of a rotation takes effect and its answer is lost: the refresh fails, and its token
is revoked. -/
theorem lost_answer_rotates : ¬ ∀ (env : Env) (w : World ℕ) (i : ℕ) (calls : ℕ → ApiCall)
    (c : System ℕ) (e : Failure) (refreshToken : ℕ) (context : AuthRequestContext),
    w.NothingPending i → System.Reaches env (Solo i) (System.start env w calls) c →
      c.Answered i (.error e) → calls i = .refreshSession refreshToken context →
        ¬ Detected env (env.crypto.hashRefreshToken refreshToken) (c.state.trace i) →
          TokensKept w (env.crypto.hashRefreshToken refreshToken) i c.state := by
  intro h
  have hruns : System.Reaches env (Solo 2) (System.start env oneSession sessionCalls) unheard := by
    refine Config.run_schedule (fun a ha op s _ ↦ ?_) (Option.isSome_of_any oneSession_tests.2.2)
    simp only [failing, steps, List.mem_append, List.mem_replicate, List.mem_singleton] at ha
    obtain ⟨-, rfl⟩ | rfl := ha <;> rfl
  obtain ⟨⟨hread, houtcome⟩, hafter⟩ := unheard_fails
  have hkept := (h env oneSession 2 sessionCalls unheard _ 1 {} nothingPending_oneSession hruns
    (Config.answered_iff.2 houtcome) rfl (not_detected hread)).1
  rw [hkept, oneSession_token.1] at hafter
  cases hafter

end Stead
