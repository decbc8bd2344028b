import Stead.Sessions.Rotation

/-!
# Families of refresh tokens are linear

Every call of the services follows the protocol of `Sessions.Protocol` (`sessions_safe`). So in
every run the committed tokens of each family form one chain, with at most one live token, its last;
and a family without a live token stays without one (`families_linear`).

## Reuse

A refresh that sees its token revoked, in the lookup or after a claim that came too late, leaves no
live token in the family (`reuse_kills_family`): it revokes the family, and a family without a live
token is dead. What the call has seen is on the record (`ShowsRevoked`), and the conclusion is about
every state after its answer.

## The example

Two refreshes of one token, the second after the first: the family has a live token in between, and
none after the second has been answered.
-/

namespace Stead

open Concurrency Protocol

variable {ι : Type} [DecidableEq ι]

/-- A call that refreshes a session. -/
def ApiCall.Refreshes : ApiCall → Prop
  | .refreshSession _ _ => True
  | _ => False

section Calls

variable (env : Env) {i : ι}

/-- A logout keeps to the protocol. -/
theorem revokeSession_triple (input : RevokeSessionInput) :
    (sessions env.crypto).Triple i (Idle i) (revokeSession env input) (fun _ _ ↦ True)
      fun _ _ ↦ True := by
  have hdone : ∀ {α : Type} {p : Call α}, p.All (Op.looks · = true) →
      (sessions env.crypto).Triple i (Idle i) p (fun _ ↦ Idle i) fun _ _ ↦ True :=
    fun hp ↦ idle_triple env (hp.mono fun _ h ↦ .of_reads (Op.reads_of_looks h))
  have hrevoke : ∀ (userId : ℕ) (scope : RevokeWhere),
      (sessions env.crypto).Triple i (fun s ↦ Idle i s ∧ Scoped scope userId s)
        (do let _ ← revokeRefreshTokens userId scope
            pure ()) (fun _ _ ↦ True) fun _ _ ↦ True := fun userId scope ↦
    .bind ((revokeRefreshTokens_triple env _).post (fun _ _ _ h ↦ h.1) fun _ _ _ _ ↦ trivial)
      fun _ ↦ .pure idle_stable fun _ _ _ ↦ trivial
  have hpure : (sessions env.crypto).Triple i (Idle i) (.pure () : Call Unit) (fun _ _ ↦ True)
      fun _ _ ↦ True := .pure idle_stable fun _ _ _ ↦ trivial
  -- A logout of all devices, and one of the device of the token.
  refine .ite (fun _ ↦ .bind (hdone (resolveUserIdForLogout_all env input)) fun userId ↦ ?_)
    fun _ ↦ ?_
  · cases userId with
    | none => exact hpure
    | some userId => exact (hrevoke userId _).pre fun _ _ h ↦ ⟨h, .inl rfl⟩
  · obtain ⟨refreshToken, accessToken, allDevices⟩ := input
    cases refreshToken with
    | some token =>
      refine sessions_run_bind (.inl rfl) (fun found s ↦ ∀ c ∈ found, Idle i s ∧
          Owner c.1.row.familyId c.1.row.userId s) idle_stable (fun s x r t hs hp hx ↦ ?_)
        (fun _ _ _ ↦ trivial) fun found ↦ ?_
      · have hop : (Op.refreshToken (.findByHash
          (env.crypto.hashRefreshToken token))).Abstains := .of_reads rfl
        have h := sessions_spares hs hop.spares hx
        have hidle : Settled env.crypto i (Idle i) := settled_idle
        refine ⟨h.1, h.2, fun found hr c hc ↦ ⟨hidle.quiet s _ (exec_quiet hop hx) hp, ?_⟩⟩
        subst hr
        -- The row that is found names its owner, whose lock the revocation takes.
        obtain ⟨htokens, ⟨rfl, -⟩ | ⟨existing, phone, rfl, hrow, -⟩⟩ := findByHash_cases hx
        · cases hc
        · cases hc
          exact ⟨existing.id, existing.row, by rw [State.after_shared, htokens]; exact hrow, rfl, rfl⟩
      · match found with
        | none => exact .pure (fun _ _ _ _ _ hc ↦ nomatch hc) fun _ _ _ ↦ trivial
        | some (existing, phone) =>
          exact (hrevoke _ _).pre fun _ _ h ↦ ⟨(h _ rfl).1, .inr ⟨_, rfl, (h _ rfl).2⟩⟩
    | none =>
      cases accessToken with
      | some accessToken =>
        -- An access token alone resolves the user, and nothing is revoked.
        exact .ite (fun _ ↦ .bind (hdone (verifiedSubject_all _)) fun _ ↦ hpure) fun _ ↦ hpure
      | none => exact .throw idle_stable fun _ _ _ ↦ trivial

/-- **Every call** follows the protocol. -/
theorem program_triple (call : ApiCall) :
    (sessions env.crypto).Triple i (fun s ↦ Idle i s ∧ SawNone i s) (call.program env)
      (fun _ s ↦ call.Refreshes → SawNone i s) fun e s ↦ call.Refreshes → Punished i e s := by
  have hreply : ∀ {α : Type} {p : Call α} (g : α → ApiResponse), ¬ call.Refreshes →
      (sessions env.crypto).Triple i (Idle i) p (fun _ _ ↦ True) (fun _ _ ↦ True) →
        (sessions env.crypto).Triple i (fun s ↦ Idle i s ∧ SawNone i s) (g <$> p)
          (fun _ s ↦ call.Refreshes → SawNone i s)
          fun e s ↦ call.Refreshes → Punished i e s := fun g hcall h ↦
    .bind (h.conseq (fun _ _ h ↦ h.1) (fun _ _ _ h ↦ h) fun _ _ _ _ h ↦ absurd h hcall)
      fun _ ↦ .pure .const fun _ _ _ h ↦ absurd h hcall
  have hidle : ∀ {α : Type} {p : Call α}, p.All Op.Abstains →
      (sessions env.crypto).Triple i (Idle i) p (fun _ _ ↦ True) fun _ _ ↦ True :=
    fun hp ↦ (idle_triple env hp).post (fun _ _ _ _ ↦ trivial) fun _ _ _ h ↦ h
  cases call with
  | requestOtp phone countryIso context =>
    exact hreply _ id (hidle ((requestOtp_all env _ _ _).mono fun _ h ↦ h.requests.abstains))
  | verifyOtp phone countryIso otp context => exact hreply _ id (verifyOtp_triple env _ _ _ _)
  | refreshSession refreshToken context =>
    exact .bind ((refreshSession_triple env refreshToken context).post (fun _ _ _ h ↦ h)
      fun _ _ _ h _ ↦ h) fun _ ↦ .pure saw_stable fun _ _ h _ ↦ h
  | revokeSession input => exact hreply _ id (revokeSession_triple env input)
  | enqueueReadinessAlert input =>
    exact hreply _ id (hidle ((enqueueReadinessAlert_all env _).mono
      fun _ h ↦ Op.Requests.abstains (.of_replays h)))
  | redactTerminalPayloads =>
    exact hreply _ id (hidle (redactTerminalPayloads_all.mono fun _ h ↦ h.consumes.abstains))
  | tick => exact hreply _ id (hidle ((tick_all env).mono fun _ h ↦ h.consumes.abstains))

/-- **Every call** keeps to the protocol, and a refresh punishes what it has seen. -/
theorem sessions_safe {w : World ι} (hw : TokensSound w) (hlocks : ∀ u, w.advisoryLocks u = none)
    (calls : ι → ApiCall) : (sessions env.crypto).AllSafe
      (fun i _ s ↦ (calls i).Refreshes → SawNone i s)
      (fun i e s ↦ (calls i).Refreshes → Punished i e s) (System.start env w calls) :=
  .start (fun i s ↦ Idle i s ∧ SawNone i s) ⟨hw, fun _ _ he ↦ nomatch he⟩
    (fun _ ↦ ⟨fun u hu ↦ (nomatch (hlocks u).symm.trans hu), fun _ he ↦ nomatch he⟩)
    fun i ↦ program_triple env (calls i)

end Calls

/-! ### Linear families -/

/-- The committed tokens of each family form a chain: at most one is live, a token that has been
replaced is revoked and names a later token of its family, no two tokens name the same one, and of
two tokens of a family the earlier one has been replaced by one that is not after the later. -/
structure World.LinearFamilies (w : World ι) : Prop where
  live_unique : ∀ a b r r', w.refreshTokens.stored a = some r → w.refreshTokens.stored b = some r' →
    r.familyId = r'.familyId → r.revokedAt = none → r'.revokedAt = none → a = b
  replaced : ∀ a r n, w.refreshTokens.stored a = some r → r.replacedById = some n →
    r.revokedAt.isSome ∧ a < n ∧
      ∃ r', w.refreshTokens.stored n = some r' ∧ r'.familyId = r.familyId
  predecessor_unique : ∀ a b r r' n, w.refreshTokens.stored a = some r →
    w.refreshTokens.stored b = some r' → r.replacedById = some n → r'.replacedById = some n → a = b
  ordered : ∀ a b r r', a < b → w.refreshTokens.stored a = some r →
    w.refreshTokens.stored b = some r' → r.familyId = r'.familyId →
      ∃ n, r.replacedById = some n ∧ n ≤ b

omit [DecidableEq ι] in
/-- Sound tokens form chains. -/
theorem TokensSound.linearFamilies {w : World ι} (hw : TokensSound w) : w.LinearFamilies := by
  have huser : ∀ {a b r r'}, w.refreshTokens.stored a = some r →
      w.refreshTokens.stored b = some r' → r.familyId = r'.familyId → r.userId = r'.userId :=
    fun ha hb hF ↦ hw.families _ _ _ _ (.inl ha) (.inl hb) hF
  have hordered : ∀ a b r r', a < b → w.refreshTokens.stored a = some r →
      w.refreshTokens.stored b = some r' → r.familyId = r'.familyId →
        ∃ n, r.replacedById = some n ∧ n ≤ b := fun a b r r' hab ha hb hF ↦
    (hw.linear r.userId).ordered a b r r' hab ha hb rfl (huser ha hb hF).symm hF.symm
  have hreplaced : ∀ a r n, w.refreshTokens.stored a = some r → r.replacedById = some n →
      r.revokedAt.isSome ∧ a < n ∧
        ∃ r', w.refreshTokens.stored n = some r' ∧ r'.familyId = r.familyId := by
    intro a r n ha hn
    obtain ⟨hrev, hlt, r', hr', -, hF⟩ := (hw.linear r.userId).replaced a r n ha rfl hn
    exact ⟨hrev, hlt, r', hr', hF⟩
  have hbefore : ∀ a b r r' n, a < b → w.refreshTokens.stored a = some r →
      w.refreshTokens.stored b = some r' → r.replacedById = some n →
        r'.replacedById ≠ some n := by
    intro a b r r' n hab ha hb hn hn'
    obtain ⟨-, -, q, hq, hqF⟩ := hreplaced a r n ha hn
    obtain ⟨-, hlt, q', hq', hqF'⟩ := hreplaced b r' n hb hn'
    cases hq.symm.trans hq'
    obtain ⟨m, hm, hle⟩ := hordered a b r r' hab ha hb (hqF.symm.trans hqF')
    cases hn.symm.trans hm
    omega
  refine ⟨fun a b r r' ha hb hF hr hr' ↦ ?_, hreplaced, fun a b r r' n ha hb hn hn' ↦ ?_, hordered⟩
  · exact (hw.linear r.userId).live_unique ha hb rfl (huser ha hb hF).symm hF.symm hr hr'
  · rcases lt_trichotomy a b with hab | hab | hba
    · exact absurd hn' (hbefore a b r r' n hab ha hb hn)
    · exact hab
    · exact absurd hn (hbefore b a r' r n hba hb ha hn')

/-- **Families stay linear, and dead families stay dead.** From a sound database without open
transactions, in every state that is reached the families are linear; and in every state reached
from it a family that had no live token has none, and a token that was replaced is replaced by the
same one. -/
theorem families_linear (env : Env) {w : World ι} (hw : TokensSound w)
    (hlocks : ∀ u, w.advisoryLocks u = none) (calls : ι → ApiCall) {c c' : System ι}
    (hc : System.Reaches env .all (System.start env w calls) c)
    (hc' : System.Reaches env .all c c') :
    c.state.shared.LinearFamilies ∧
      (∀ F, c.state.shared.Dead F → c'.state.shared.Dead F) ∧
        ∀ k r n, c.state.shared.refreshTokens.stored k = some r → r.replacedById = some n →
          ∃ r', c'.state.shared.refreshTokens.stored k = some r' ∧ r'.replacedById = some n := by
  have hsafe := (sessions_safe env hw hlocks calls).run hc
  refine ⟨hsafe.1.1.linearFamilies, ?_, fun k r n hr hn ↦ ?_⟩
  · exact hsafe.along (P := sessions env.crypto)
      (R := fun s s' ↦ ∀ F, s.shared.Dead F → s'.shared.Dead F) (fun _ _ h ↦ h)
      (fun _ _ _ h h' F hF ↦ h' F (h F hF)) (fun _ _ _ _ _ _ hg ↦ hg.1) hc'
  · have hkept := hsafe.along (P := sessions env.crypto)
      (R := fun s s' ↦ ∀ k r, s.shared.refreshTokens.stored k = some r →
        ∃ r', s'.shared.refreshTokens.stored k = some r' ∧ r.Leads r')
      (fun _ _ r h ↦ ⟨r, h, .refl r⟩) (fun _ _ _ h h' k r hr ↦ by
        obtain ⟨r', hr', hle⟩ := h k r hr
        obtain ⟨r'', hr'', hle'⟩ := h' k r' hr'
        exact ⟨r'', hr'', hle.trans hle'⟩)
      (fun _ _ _ hs _ hm _ _ _ hr ↦ hs.1.move_stored hm hr) hc'
    obtain ⟨r', hr', hle⟩ := hkept k r hr
    exact ⟨r', hr', hle.replaced n hn⟩

namespace Demo

/-- A request for a code, its verification, and two refreshes of the session. -/
def sessionCalls : ℕ → ApiCall
  | 0 => requestOtp '0'
  | 1 => .verifyOtp "+1" "NG" "" { idempotencyKey := some (key '1') }
  | _ => .refreshSession 1 {}

/-- The family of a revoked token that a lookup finds. -/
def revokedFamily : Happening ι → Option ℕ
  | ⟨_, _, .refreshToken (.findByHash _), .ok (some (existing, _)), _⟩ =>
    if existing.row.revokedAt.isSome then some existing.row.familyId else none
  | _ => none

/-- Whether a statement was answered without an error. -/
def succeeded (e : Happening ι) : Bool :=
  match e.resp with
  | .ok _ => true
  | .error _ => false

/-- Thread 3 finds its token revoked and is rejected, and no statement fails. -/
def Rejected (c : System ℕ) : Prop :=
  (c.state.history 3)[0]?.bind revokedFamily = some 0 ∧
    (∀ e ∈ c.state.history 3, succeeded e = true) ∧
    (c.progs 3).bind Prog.outcome = some (.error (.unauthorized "Invalid refresh token"))

instance (c : System ℕ) : Decidable (Rejected c) := inferInstanceAs (Decidable (_ ∧ _ ∧ _))

/-- The session begins and is refreshed, and the token that was replaced is used again. -/
theorem refreshed_runs : ((System.start env world sessionCalls).turns (machine ℕ crypto) anything
    (steps 0 18 ++ steps 1 22 ++ steps 2 12)).any (fun c ↦
      (c.state.shared.refreshTokens.stored 0).bind RefreshToken.replacedById = some 1 ∧
        (c.turns (machine ℕ crypto) anything (steps 3 6)).any (fun c' ↦ Rejected c') = true) =
          true := by
  decide +kernel

/-- The system after a refresh. -/
def refreshed : System ℕ :=
  after (System.start env world sessionCalls) _ _ (Option.isSome_of_any refreshed_runs)

theorem refreshed_tests :
    (refreshed.state.shared.refreshTokens.stored 0).bind RefreshToken.replacedById = some 1 ∧
      (refreshed.turns (machine ℕ crypto) anything (steps 3 6)).any (fun c' ↦ Rejected c') = true :=
  of_decide_eq_true (Config.afterTurns_of_any refreshed_runs)

/-- The system after its reuse. -/
def reused : System ℕ := after refreshed _ _ (Option.isSome_of_any refreshed_tests.2)

theorem reused_rejected : Rejected reused :=
  of_decide_eq_true (Config.afterTurns_of_any refreshed_tests.2)

theorem tokensSound_world : TokensSound world := .of_empty fun _ ↦ rfl

end Demo

/-- The families are linear before and after the reuse, and what is dead stays dead. -/
theorem families_linear_refreshed :
    (Demo.refreshed.state.shared.refreshTokens.stored 0).bind RefreshToken.replacedById = some 1 ∧
      Demo.refreshed.state.shared.LinearFamilies ∧
        (∀ F, Demo.refreshed.state.shared.Dead F → Demo.reused.state.shared.Dead F) ∧
          ∀ k r n, Demo.refreshed.state.shared.refreshTokens.stored k = some r →
            r.replacedById = some n → ∃ r', Demo.reused.state.shared.refreshTokens.stored k =
              some r' ∧ r'.replacedById = some n :=
  ⟨Demo.refreshed_tests.1, families_linear Demo.env Demo.tokensSound_world (fun _ ↦ rfl)
    Demo.sessionCalls (Demo.reaches_after _ _ _) (Demo.reaches_after _ _ _)⟩

/-! ### Reuse -/

/-- **Reuse of a token kills its family.** A refresh that was shown a token of the family revoked,
by its lookup or because its claim came after the revocation, and none of whose own statements on
the database failed, is rejected as unauthorised; and once it has answered, every committed token of
the family is revoked. -/
theorem reuse_kills_family (env : Env) {w : World ι} (hw : TokensSound w)
    (hlocks : ∀ u, w.advisoryLocks u = none) (calls : ι → ApiCall) (i : ι) (refreshToken : ℕ)
    (context : AuthRequestContext) (hi : calls i = .refreshSession refreshToken context)
    {c : System ι} (hc : System.Reaches env .all (System.start env w calls) c) {F : ℕ}
    (hshown : ∃ e ∈ c.state.history i, ShowsRevoked F e)
    (hok : ∀ e ∈ c.state.history i, e.op.onDatabase = true → ∀ err, e.resp ≠ .error err)
    {o : Except Failure ApiResponse} (ho : c.Answered i o) :
    o = .error (.unauthorized "Invalid refresh token") ∧
      ∀ k r, c.state.shared.refreshTokens.stored k = some r → r.familyId = F →
        r.revokedAt.isSome := by
  have hsafe := (sessions_safe env hw hlocks calls).run hc
  have hcall : (calls i).Refreshes := by
    rw [hi]
    trivial
  obtain ⟨e, he, hF⟩ := hshown
  cases o with
  | ok a => exact (hsafe.answer ho hcall e he F hF).elim
  | error err =>
    rcases hsafe.error ho hcall with ⟨e', he', hdb, err', hfailed⟩ | hnone | ⟨F', hsaw, rfl, hdead⟩
    · exact absurd hfailed (hok e' he' hdb err')
    · exact (hnone e he F hF).elim
    · obtain rfl := hsaw e he F hF
      exact ⟨rfl, hdead.2⟩

namespace Demo

omit [DecidableEq ι] in
theorem showsRevoked_of_revokedFamily {e : Happening ι} {F : ℕ} (h : revokedFamily e = some F) :
    ShowsRevoked F e := by
  unfold revokedFamily at h
  split at h
  · split at h
    · next hrevoked => exact .lookup hrevoked (Option.some.inj h)
    · cases h
  · cases h

/-- The second refresh looks the token up and finds it revoked. -/
theorem reused_shown : ∃ e ∈ reused.state.history 3, ShowsRevoked 0 e := by
  obtain ⟨e, he, hF⟩ := Option.bind_eq_some_iff.1 reused_rejected.1
  exact ⟨e, List.mem_of_getElem? he, showsRevoked_of_revokedFamily hF⟩

end Demo

theorem reuse_kills_family_reused :
    (∃ e ∈ Demo.reused.state.history 3, ShowsRevoked 0 e) ∧
      ∀ k r, Demo.reused.state.shared.refreshTokens.stored k = some r → r.familyId = 0 →
        r.revokedAt.isSome := by
  have hreaches : System.Reaches Demo.env .all
      (System.start Demo.env Demo.world Demo.sessionCalls) Demo.reused :=
    (Demo.reaches_after _ _ _).trans (Demo.reaches_after _ _ _)
  obtain ⟨-, hsucceeded, hanswered⟩ := Demo.reused_rejected
  refine ⟨Demo.reused_shown, (reuse_kills_family Demo.env Demo.tokensSound_world (fun _ ↦ rfl)
    Demo.sessionCalls 3 1 {} rfl hreaches Demo.reused_shown (fun e he _ err herr ↦ ?_)
    (Config.answered_iff.2 hanswered)).2⟩
  have := hsucceeded e he
  simp [Demo.succeeded, herr] at this

end Stead
