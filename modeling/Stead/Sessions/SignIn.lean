import Stead.Sessions.Rules

/-!
# Revoking and issuing sessions

What the transactions that revoke tokens and the transaction of a sign-in do under the protocol of
`Sessions.Protocol`.

## Revoking

An `updateMany` of the live tokens of a scope is two statements, what it finds and what it writes.
Under the lock nobody else revives or inserts a token of the user in between, so when it is done no
token within the scope is live (`revokeUnrevoked_triple_of`). A revocation of a family by its name
kills it (`revokeRefreshTokens_triple`); the lock that is taken is that of the user of the token,
and the scope covers no tokens of others.

## Issuing

A sign-in begins one family, which it drew (`verifiedSessionBody_triple`): the family is nobody
else's, so its first token begins a chain. Before that it revokes the families that give way. The
rest of the call neither writes tokens nor takes locks, as its footprints say.
-/

namespace Stead

open Concurrency Protocol

variable {ι : Type} [DecidableEq ι]

section Transactions

variable (env : Env) {i : ι}

theorem settled_scoped {crypto : Crypto} (scope : RevokeWhere) (u : ℕ) :
    Settled crypto i (Scoped scope u) := by
  refine ⟨(scoped_lasting scope u).stable, fun s s' hq hs ↦ hs.imp id ?_⟩
  rintro ⟨F, hF, h⟩
  have hR : Settled crypto i (Owner F u) := settled_owner F u
  exact ⟨F, hF, hR.quiet s s' hq h⟩

/-- **A revocation** within a transaction leaves nothing live within its scope. `R` is what else is
known before it, and `R'` what that comes to. -/
theorem revokeUnrevoked_triple_of {u : ℕ} {scope : RevokeWhere} {at_ : ℤ} {R R' : History ι → Prop}
    {E : Failure → History ι → Prop} (hE : ∀ e s, DbFailed i s → E e s)
    (hR : (sessions env.crypto).Stable i fun s ↦ InTx i u s ∧ R s)
    (hR' : (sessions env.crypto).Stable i fun s ↦ InTx i u s ∧ R' s)
    (hfind : ∀ s x found t, R s →
      exec env.crypto i x (.refreshToken (.findUnrevoked scope)) s.shared = some (.ok found, t) →
        R (s.after i (.refreshToken (.findUnrevoked scope)) (.ok found) t))
    (hrevoke : ∀ s x found n t, R s → Within i u scope found s →
      exec env.crypto i x (.refreshToken (.revoke found scope at_)) s.shared = some (.ok n, t) →
        R' (s.after i (.refreshToken (.revoke found scope at_)) (.ok n) t)) :
    (sessions env.crypto).Triple i (fun s ↦ (InTx i u s ∧ R s) ∧ Scoped scope u s)
      (revokeUnrevoked scope at_)
      (fun _ s ↦ (InTx i u s ∧ R' s) ∧ Within i u scope [] s) E := by
  have hscoped : Settled env.crypto i (Scoped scope u) := settled_scoped scope u
  have hwithin : ∀ found s s', (sessions env.crypto).Rely i s s' → InTx i u s →
      Within i u scope found s → Within i u scope found s' := fun found s s' hr htx h ↦
    (within_stable u scope found s s' hr ⟨htx.1, h⟩).2
  refine sessions_run_bind (.inl rfl)
    (fun found s ↦ ((InTx i u s ∧ R s) ∧ Within i u scope found s) ∧ Scoped scope u s)
    (hR.and hscoped.stable) (fun s x r t hs hp hx ↦ ?_) hE fun found ↦ ?_
  · have hop : (Op.refreshToken (.findUnrevoked scope)).Abstains := ⟨rfl, fun _ ↦ nofun⟩
    have h := sessions_spares hs hop.spares hx
    have hpre : Settled env.crypto i fun s ↦ InTx i u s ∧ Scoped scope u s :=
      (settled_inTx u).and hscoped
    have hq := hpre.quiet s _ (exec_quiet hop hx) ⟨hp.1.1, hp.2⟩
    refine ⟨h.1, h.2, fun found hr ↦ ⟨⟨⟨hq.1, ?_⟩, ?_⟩, hq.2⟩⟩
    · subst hr
      exact hfind s x found t hp.1.2 hx
    · subst hr
      exact within_findUnrevoked hx
  · refine sessions_run (.inl rfl)
      (fun _ s s' hr hs ↦ ⟨hR' s s' hr hs.1, hwithin [] s s' hr hs.1.1 hs.2⟩)
      (fun s s' hr hs ↦ ⟨⟨hR s s' hr hs.1.1, hwithin found s s' hr hs.1.1.1 hs.1.2⟩,
        hscoped.stable s s' hr hs.2⟩) (fun s x r t hs hp hx ↦ ?_) hE
    obtain ⟨⟨⟨⟨hholds, hlin⟩, hrest⟩, hfound⟩, hscope⟩ := hp
    obtain ⟨hi, hg, hholds'⟩ := sessions_write hs hholds
      (mayWrite_revoke fun k r hr hc ↦ hscope.userId hs.1 hr hc) hx
    refine ⟨hi, hg, fun n hr ↦ ⟨⟨⟨hholds', hlin.aged (revoke_agedOn hx)⟩, ?_⟩, ?_⟩⟩
    · subst hr
      exact hrevoke s x found n t hrest hfound hx
    · subst hr
      exact within_revoke hfound hx

/-- **A revocation** keeps to the protocol. -/
theorem revokeUnrevoked_triple {u : ℕ} {scope : RevokeWhere} {at_ : ℤ}
    {E : Failure → History ι → Prop} (hE : ∀ e s, DbFailed i s → E e s) :
    (sessions env.crypto).Triple i (fun s ↦ InTx i u s ∧ Scoped scope u s)
      (revokeUnrevoked scope at_) (fun _ s ↦ InTx i u s ∧ Within i u scope [] s) E := by
  have hst : (sessions env.crypto).Stable i fun s ↦ InTx i u s ∧ True :=
    (settled_inTx u).stable.and .const
  exact (revokeUnrevoked_triple_of env hE hst hst (fun _ _ _ _ _ _ ↦ trivial)
    fun _ _ _ _ _ _ _ _ ↦ trivial).conseq (fun _ _ h ↦ ⟨⟨h.1, trivial⟩, h.2⟩)
    (fun _ _ _ h ↦ ⟨h.1.1, h.2⟩) fun _ _ _ h ↦ h

theorem revokeFamilyOf_triple {u F : ℕ} {E : Failure → History ι → Prop}
    (hE : ∀ e s, DbFailed i s → E e s) :
    (sessions env.crypto).Triple i (InTx i u) (revokeFamilyOf u F) (fun _ ↦ InTx i u) E := by
  refine spare_bind (settled_inTx u) ⟨trivial, fun _ ↦ nofun⟩ (.inr rfl) hE fun at_ ↦ ?_
  refine .bind (R := fun _ ↦ InTx i u) ?_ fun _ ↦ .pure (settled_inTx u).stable fun _ _ h ↦ h
  exact (revokeUnrevoked_triple env hE).conseq (fun _ _ h ↦ ⟨h, .inl rfl⟩) (fun _ _ _ h ↦ h.1)
    fun _ _ _ h ↦ h

/-- **A revocation.** `R` is what is known once the lock is taken, `Y` what that comes to when the
transaction commits. -/
theorem revokeRefreshTokens_triple_of {u : ℕ} {scope : RevokeWhere} {B R Y : History ι → Prop}
    (hB : (sessions env.crypto).Stable i B) (hR : (sessions env.crypto).Stable i R)
    (hlock : ∀ s x a t, (sessions env.crypto).Inv s → Idle i s → B s →
      exec env.crypto i x (.lockRefreshUser u) s.shared = some (.ok a, t) →
        R (s.after i (.lockRefreshUser u) (.ok a) t))
    (hkeep : ∀ op : Op, (∀ v, op ≠ .lockRefreshUser v) → ∀ s r t, (sessions env.crypto).Inv s →
      (sessions env.crypto).Inv (s.after i op r t) →
        Move (machine ι env.crypto) .all i s (s.after i op r t) → R s → R (s.after i op r t))
    (hY : (sessions env.crypto).Stable i Y)
    (hcommit : ∀ s t, (sessions env.crypto).Inv s → Within i u scope [] s → Scoped scope u s →
      R s → t.refreshTokens.stored = s.shared.tokens i → Y (s.after i .commit (.ok ()) t)) :
    (sessions env.crypto).Triple i (fun s ↦ (Idle i s ∧ Scoped scope u s) ∧ B s)
      (revokeRefreshTokens u scope) (fun _ s ↦ Idle i s ∧ Y s) fun _ ↦ DbFailed i := by
  have hwithin : (sessions env.crypto).Stable i fun s ↦
      InTx i u s ∧ (Within i u scope [] s ∧ Scoped scope u s) ∧ R s := fun s s' hr hs ↦
    ⟨linearOn_stable u s s' hr hs.1, ⟨(within_stable u scope [] s s' hr ⟨hs.1.1, hs.2.1.1⟩).2,
      (settled_scoped scope u).stable s s' hr hs.2.1.2⟩, hR s s' hr hs.2.2⟩
  refine transaction_triple (u := u)
    (X := fun _ s ↦ (Within i u scope [] s ∧ Scoped scope u s) ∧ R s) (Y := fun _ ↦ Y) ?_
    (fun _ ↦ hwithin) (fun _ ↦ dbFailed_stable) (fun e s t h ↦ ?_) (fun _ _ h ↦ h) (fun _ ↦ hY)
    fun n s t htx hx hstored hs _ _ _ ↦ hcommit s t hs hx.1.1 hx.1.2 hx.2 hstored
  -- The lock comes first: from then on the thread is in a transaction of the user's.
  · refine sessions_run_bind (.inl rfl) (fun _ s ↦ (InTx i u s ∧ Scoped scope u s) ∧ R s)
      ((idle_stable.and (settled_scoped scope u).stable).and hB) (fun s x r t hs hp hx ↦ ?_)
      (fun _ _ h ↦ h) fun _ ↦ ?_
    · have hop : (Op.lockRefreshUser u).Spares := trivial
      have h := sessions_spares hs hop hx
      refine ⟨h.1, h.2, fun a hr ↦ ⟨⟨holds_lock hs.1 hp.1.1 hx hr, ?_⟩, ?_⟩⟩
      · exact scoped_lasting scope u i s _ hs h.1 (.stmt trivial hx) h.2 hp.1.2
      · subst hr
        exact hlock s x a t hs hp.1.1 hp.2 hx
    -- What only the lock establishes is framed around the revocation itself.
    · have hbody : (sessions env.crypto).Triple i (fun s ↦ InTx i u s ∧ Scoped scope u s)
          (do let revokedAt ← run (.host .now)
              revokeUnrevoked scope revokedAt)
          (fun _ s ↦ (InTx i u s ∧ Within i u scope [] s) ∧ Scoped scope u s)
          fun _ ↦ DbFailed i := by
        refine spare_bind ((settled_inTx u).and (settled_scoped scope u)) ⟨trivial, fun _ ↦ nofun⟩
          (.inr rfl) (fun _ _ h ↦ h) fun at_ ↦ ?_
        exact ((revokeUnrevoked_triple env (fun _ _ h ↦ h)).lasting
          (scoped_lasting scope u)).conseq (fun _ _ h ↦ ⟨h, h.2⟩) (fun _ _ _ h ↦ h)
          fun _ _ _ h ↦ h.1
      refine (hbody.frame (C := fun op : Op ↦ ∀ v, op ≠ .lockRefreshUser v)
        (.run_bind (fun _ ↦ nofun) fun _ ↦ .run_bind (fun _ ↦ nofun) fun _ ↦
          .run fun _ ↦ nofun) hR
        fun op hop s x r t hs hs' _ _ hx h ↦ hkeep op hop s r t hs hs' (.stmt trivial hx) h).post
        (fun _ _ _ h ↦ ⟨h.1.1.1, ⟨h.1.1.2, h.1.2⟩, h.2⟩) fun _ _ _ h ↦ h.1
  -- A failure that was on the record stays there through the rollback.
  · obtain ⟨ev, hev, hfailed⟩ := h
    refine ⟨ev, ?_, hfailed⟩
    rw [State.after_history_self]
    exact List.mem_append_left _ hev

/-- **A revocation of a family** by its name kills it. -/
theorem revokeRefreshTokens_triple {u : ℕ} (scope : RevokeWhere) :
    (sessions env.crypto).Triple i (fun s ↦ Idle i s ∧ Scoped scope u s)
      (revokeRefreshTokens u scope)
      (fun _ s ↦ Idle i s ∧ ∀ F, scope = ⟨none, some F⟩ → s.shared.Dead F) fun _ ↦ DbFailed i := by
  refine (revokeRefreshTokens_triple_of env (B := fun _ ↦ True) (R := fun _ ↦ True) .const .const
    (fun _ _ _ _ _ _ _ _ ↦ trivial) (fun _ _ _ _ _ _ _ _ _ ↦ trivial)
    (.all fun F ↦ .all fun _ ↦ (dead_lasting F).stable)
    fun s t hs hwithin hscope _ hstored F hF ↦ ?_).pre fun _ _ h ↦ ⟨h, trivial⟩
  subst hF
  rcases hscope with h | ⟨F', hF', howner⟩
  · cases h
  cases hF'
  have hdead : ∀ k r, s.shared.tokens i k = some r → r.familyId = F → r.revokedAt.isSome := by
    intro k r hr hrF
    by_contra hlive
    have huser := hs.1.userId_of_owner howner (World.version_of_tokens hr) hrF
    refine List.not_mem_nil (hwithin k r hr huser ?_)
    simp [RevokeWhere.covers, hrF, Option.not_isSome_iff_eq_none.1 hlive]
  refine ⟨?_, fun k r hr ↦ hdead k r (hstored ▸ hr)⟩
  obtain ⟨k, r, hr, hrF, -⟩ := howner
  obtain ⟨r', hr', hle⟩ := hs.1.tokens_of_stored i hr
  exact ⟨k, r', (congrFun hstored k).trans hr', hle.familyId.trans hrF⟩

end Transactions

/-! ### Signing in -/

section SignIn

variable {crypto : Crypto} {i : ι}

/-- A version of a token goes back to one before, or to an insertion. -/
theorem version_of_exec_cases {x : Choice} {op : Op} {s : History ι} {t : World ι}
    {r : Except StatementError op.Ret} (h : exec crypto i x op s.shared = some (r, t)) {k : ℕ}
    {r' : RefreshToken} (hr' : t.Version k r') :
    (∃ r, s.shared.Version k r ∧ r.familyId = r'.familyId ∧ r.userId = r'.userId) ∨
      ∃ data, op = .refreshToken (.create data) ∧ k = s.shared.refreshTokens.next := by
  cases exec_refreshTokens h k with
  | same h =>
    refine .inl ⟨r', ?_, rfl, rfl⟩
    rwa [World.Version, Table.stored, Table.pending, h] at hr'
  | @edit st r₀ r₁ hop' hv he hl h =>
    have hF : r₁.familyId = r₀.familyId ∧ r₁.userId = r₀.userId := by
      cases he <;> exact ⟨rfl, rfl⟩
    rw [World.Version, Table.stored, Table.pending, h] at hr'
    cases hw : st.writer i with
    | none =>
      rw [hw] at hr' hv
      rcases hr' with hr' | hr'
      · cases hr'
        exact .inl ⟨r₀, .inl ((Cell.view_none _).symm.trans hv), hF.1.symm, hF.2.symm⟩
      · exact .inl ⟨r', .inr hr', rfl, rfl⟩
    | some j =>
      rw [hw] at hr' hv
      rcases hr' with hr' | ⟨l, hr'⟩
      · exact .inl ⟨r', .inl hr', rfl, rfl⟩
      · cases hr'
        exact .inl ⟨r₀, World.version_of_tokens hv, hF.1.symm, hF.2.symm⟩
  | create hop hk => exact .inr ⟨_, hop, hk⟩
  | commit _ h =>
    refine .inl ⟨r', World.version_of_commit (w := s.shared) (i := i) ?_, rfl, rfl⟩
    rwa [World.Version, Table.stored, Table.pending, h] at hr'
  | rollback _ h =>
    refine .inl ⟨r', World.version_of_rollback (w := s.shared) (i := i) ?_, rfl, rfl⟩
    rwa [World.Version, Table.stored, Table.pending, h] at hr'

/-- Only an insertion brings a token into a family. -/
theorem version_of_exec {x : Choice} {op : Op} {s : History ι} {t : World ι}
    {r : Except StatementError op.Ret} (hop : ∀ data, op ≠ .refreshToken (.create data))
    (h : exec crypto i x op s.shared = some (r, t)) {k : ℕ} {r' : RefreshToken}
    (hr' : t.Version k r') : ∃ r, s.shared.Version k r ∧ r.familyId = r'.familyId := by
  rcases version_of_exec_cases h hr' with ⟨r, hr, hF, -⟩ | ⟨data, hcreate, -⟩
  · exact ⟨r, hr, hF⟩
  · exact absurd hcreate (hop data)

/-- A family that was drawn is nobody's until its first token. -/
theorem Drew.after {x : Choice} {op : Op} {s : History ι} {t : World ι}
    {r : Except StatementError op.Ret} {F : ℕ} (hs : Drew i F s)
    (hop : ∀ data, op ≠ .refreshToken (.create data))
    (h : exec crypto i x op s.shared = some (r, t)) : Drew i F (s.after i op r t) := by
  obtain ⟨⟨e, he, hdraw⟩, hnone⟩ := hs
  refine ⟨⟨e, ?_, hdraw⟩, fun k r' hr' hF ↦ ?_⟩
  · rw [State.after_history_self]
    exact List.mem_append_left _ he
  · obtain ⟨r, hr, hrF⟩ := version_of_exec hop h hr'
    exact hnone k r hr (hrF.trans hF)

end SignIn

theorem Op.Abstains.of_reads {op : Op} (h : op.reads = true) : op.Abstains := by
  refine ⟨?_, ?_⟩
  · unfold Op.Spares
    split
    · exact h
    · cases h
    · cases h
    · trivial
  · rintro u rfl
    cases h

theorem Op.Guesses.abstains {op : Op} (h : op.Guesses) : op.Abstains := by
  unfold Op.Guesses at h
  split at h
  case h_4 => exact .of_reads h
  all_goals exact ⟨trivial, fun _ ↦ nofun⟩

theorem Op.Requests.abstains {op : Op} (h : op.Requests) : op.Abstains := by
  unfold Op.Requests at h
  split at h
  case h_8 => exact .of_reads h
  all_goals exact ⟨trivial, fun _ ↦ nofun⟩

theorem Op.Consumes.abstains {op : Op} (h : op.Consumes) : op.Abstains := by
  unfold Op.Consumes at h
  split at h
  case h_4 => exact .of_reads h
  all_goals exact ⟨trivial, fun _ ↦ nofun⟩

section SignInCalls

variable (env : Env) {i : ι}

/-- Outside a transaction, a program that abstains from tokens and locks. -/
theorem idle_triple {α : Type} {p : Call α} (hp : p.All Op.Abstains) :
    (sessions env.crypto).Triple i (Idle i) p (fun _ ↦ Idle i) fun _ _ ↦ True :=
  (spares_triple settled_idle hp).post (fun _ _ _ h ↦ h) fun _ _ _ _ ↦ trivial

/-- Revoking a family leaves the one that is about to begin alone. -/
theorem revokeFamilyOf_triple_drew {u F F' : ℕ} :
    (sessions env.crypto).Triple i (fun s ↦ InTx i u s ∧ Drew i F s) (revokeFamilyOf u F')
      (fun _ s ↦ InTx i u s ∧ Drew i F s) fun _ _ ↦ True := by
  refine ((revokeFamilyOf_triple env (E := fun _ _ ↦ True) fun _ _ _ ↦ trivial).frame
    (C := fun op : Op ↦ ∀ data, op ≠ .refreshToken (.create data)) ?_ (drew_stable F)
    fun op hop s _ _ _ _ _ _ _ hx hs ↦ hs.after hop hx).post (fun _ _ _ h ↦ h)
    fun _ _ _ _ ↦ trivial
  exact .run_bind (fun _ ↦ nofun) fun _ ↦ .bind (.run_bind (fun _ ↦ nofun) fun _ ↦
    .run (fun _ ↦ nofun)) fun _ ↦ trivial

/-- Making room keeps to the protocol. -/
theorem prepareRefreshFamilySlot_triple {u F : ℕ} {deviceHash : Option Digest} :
    (sessions env.crypto).Triple i (fun s ↦ InTx i u s ∧ Drew i F s)
      (prepareRefreshFamilySlot env u deviceHash) (fun _ s ↦ InTx i u s ∧ Drew i F s)
      fun _ _ ↦ True := by
  have hR : Settled env.crypto i fun s ↦ InTx i u s ∧ Drew i F s :=
    (settled_inTx u).and (settled_drew F)
  have hE : ∀ (e : Failure) (s : History ι), DbFailed i s → True := fun _ _ _ ↦ trivial
  refine .bind (R := fun _ s ↦ InTx i u s ∧ Drew i F s) ?_ fun _ ↦ ?_
  · cases deviceHash with
    | none => exact .pure hR.stable fun _ _ h ↦ h
    | some deviceHash =>
      exact spare_bind hR ⟨rfl, fun _ ↦ nofun⟩ (.inl rfl) hE fun families ↦
        .forEach hR.stable fun F' _ ↦ revokeFamilyOf_triple_drew env
  · exact spare_bind hR ⟨rfl, fun _ ↦ nofun⟩ (.inl rfl) hE fun families ↦
      .forEach hR.stable fun family _ ↦ revokeFamilyOf_triple_drew env

/-- The first token of a family that the thread drew. -/
theorem createRefreshTokenRow_triple_begin {u F : ℕ} {deviceHash : Option Digest}
    {familyCreatedAt : ℤ} {rawToken : ℕ} :
    (sessions env.crypto).Triple i (fun s ↦ InTx i u s ∧ Drew i F s)
      (createRefreshTokenRow env u F deviceHash familyCreatedAt rawToken)
      (fun _ ↦ InTx i u) fun _ _ ↦ True := by
  have hR : Settled env.crypto i fun s ↦ InTx i u s ∧ Drew i F s :=
    (settled_inTx u).and (settled_drew F)
  have hE : ∀ (e : Failure) (s : History ι), DbFailed i s → True := fun _ _ _ ↦ trivial
  refine spare_bind hR ⟨trivial, fun _ ↦ nofun⟩ (.inr rfl) hE fun now ↦
    triple_lift_bind (fun lifetime _ ↦ ?_) fun _ _ ↦ .throw hR.stable fun _ _ _ ↦ trivial
  refine sessions_run (.inl rfl) (fun _ ↦ (settled_inTx u).stable) hR.stable
    (fun s x r t hs hp hx ↦ ?_) hE
  obtain ⟨hi, hg, hholds⟩ := sessions_write hs hp.1.1 (mayWrite_create rfl (.inl hp.2)) hx
  refine ⟨hi, hg, fun id hr ↦ ⟨hholds, ?_⟩⟩
  subst hr
  exact linearOn_begin hp.1.2 hp.2 hx

/-- **The transaction of a sign-in** begins one family, which it drew. -/
theorem verifiedSessionBody_triple {input : VerifiedSession} {F : ℕ} {familyCreatedAt : ℤ}
    {raw : ℕ} {consumedAt : ℤ} :
    (sessions env.crypto).Triple i (fun s ↦ Idle i s ∧ Drew i F s)
      (verifiedSessionBody env input F familyCreatedAt raw consumedAt)
      (fun _ s ↦ InTx i input.user.id s ∧ True) fun _ _ ↦ True := by
  have hbefore : Settled env.crypto i fun s ↦ Idle i s ∧ Drew i F s :=
    settled_idle.and (settled_drew F)
  have hafter : Settled env.crypto i (InTx i input.user.id) := settled_inTx _
  have hE : ∀ (e : Failure) (s : History ι), DbFailed i s → True := fun _ _ _ ↦ trivial
  refine spare_bind hbefore ⟨trivial, fun _ ↦ nofun⟩ (.inl rfl) hE fun consumed ↦
    .ite (fun _ ↦ ?_) fun _ ↦ .throw hbefore.stable fun _ _ _ ↦ trivial
  refine .bind (R := fun _ s ↦ Idle i s ∧ Drew i F s) ((spares_triple hbefore ?_).post
    (fun _ _ _ h ↦ h) fun _ _ _ _ ↦ trivial) fun _ ↦ ?_
  · exact .run_bind (.of_reads rfl) fun _ ↦ .run ⟨trivial, fun _ ↦ nofun⟩
  refine spare_bind hbefore ⟨trivial, fun _ ↦ nofun⟩ (.inl rfl) hE fun _ ↦ ?_
  refine sessions_run_bind (.inl rfl) (fun _ s ↦ InTx i input.user.id s ∧ Drew i F s)
    hbefore.stable (fun s x r t hs hp hx ↦ ?_) hE fun _ ↦ ?_
  · have hop : (Op.lockRefreshUser input.user.id).Spares := trivial
    have h := sessions_spares hs hop hx
    exact ⟨h.1, h.2, fun a hr ↦ ⟨holds_lock hs.1 hp.1 hx hr, hp.2.after (fun _ ↦ nofun) hx⟩⟩
  refine .bind (prepareRefreshFamilySlot_triple env) fun _ ↦
    .bind (createRefreshTokenRow_triple_begin env) fun _ ↦ ?_
  refine .bind (R := fun _ ↦ InTx i input.user.id) ((spares_triple hafter
    ((signAccessToken_all env _ _).mono fun _ h ↦ .of_reads (Op.reads_of_looks h))).post (fun _ _ _ h ↦ h)
    fun _ _ _ _ ↦ trivial) fun token ↦
      triple_lift_bind (fun expiresIn _ ↦ ?_) fun _ _ ↦ .throw hafter.stable fun _ _ _ ↦ trivial
  refine .bind (R := fun _ ↦ InTx i input.user.id) ((spares_triple hafter
    ((encryptOtpVerificationResponse_all env _ _).mono fun _ h ↦ .of_reads (Op.reads_of_looks h))).post
    (fun _ _ _ h ↦ h) fun _ _ _ _ ↦ trivial) fun _ ↦ ?_
  exact spare_bind hafter ⟨trivial, fun _ ↦ nofun⟩ (.inl rfl) hE fun _ ↦
    .pure hafter.stable fun _ _ h ↦ ⟨h, trivial⟩

/-- The family of a sign-in is one that nothing carries yet. -/
theorem drawFamily_triple :
    (sessions env.crypto).Triple i (Idle i) (run (.host .randomUUID))
      (fun F s ↦ Idle i s ∧ Drew i F s) fun _ _ ↦ True := by
  have hstable : ∀ F, (sessions env.crypto).Stable i fun s ↦ Idle i s ∧ Drew i F s := fun F ↦
    idle_stable.and (drew_stable F)
  refine sessions_run (.inr rfl) hstable idle_stable (fun s x r t hs hp hx ↦ ?_)
    fun _ _ _ ↦ trivial
  have hop : (Op.host .randomUUID).Abstains := .of_reads rfl
  have h := sessions_spares hs hop.spares hx
  have hidle : Settled env.crypto i (Idle i) := settled_idle
  refine ⟨h.1, h.2, fun F hr ↦ ⟨hidle.quiet s _ (exec_quiet hop hx) hp, ?_⟩⟩
  subst hr
  refine ⟨⟨⟨i, s.shared, .host .randomUUID, .ok F, t⟩, ?_, rfl⟩, fun k r hr hF ↦ ?_⟩
  · rw [State.after_history_self]
    exact List.mem_append_right _ (List.mem_singleton_self _)
  · cases perform_of_exec_ok hx
    exact absurd hF (hs.1.fresh k r hr).ne

/-- **A sign-in** keeps to the protocol. -/
theorem issueVerifiedSession_triple {input : VerifiedSession} :
    (sessions env.crypto).Triple i (Idle i) (issueVerifiedSession env input) (fun _ _ ↦ True)
      fun _ _ ↦ True := by
  have hE : ∀ (e : Failure) (s : History ι), DbFailed i s → True := fun _ _ _ ↦ trivial
  refine .bind (drawFamily_triple env) fun F ↦ ?_
  have hR : Settled env.crypto i fun s ↦ Idle i s ∧ Drew i F s :=
    settled_idle.and (settled_drew F)
  refine spare_bind hR (.of_reads rfl) (.inr rfl) hE fun familyCreatedAt ↦
    spare_bind hR (.of_reads rfl) (.inr rfl) hE fun raw ↦
      spare_bind hR (.of_reads rfl) (.inr rfl) hE fun consumedAt ↦ ?_
  refine .tryCatch (R := fun _ _ ↦ True) ?_ fun e ↦ ?_
  · exact (transaction_triple (u := input.user.id) (X := fun _ _ ↦ True) (Y := fun _ _ ↦ True)
      (verifiedSessionBody_triple env)
      (fun _ ↦ (settled_inTx _).stable.and .const) (fun _ ↦ .const) (fun _ _ _ h ↦ h) hE
      (fun _ ↦ .const) fun _ _ _ _ _ _ _ _ _ _ ↦ trivial).post (fun _ _ _ _ ↦ trivial) fun _ _ _ h ↦ h
  · refine (spares_triple settled_true ?_)
    refine .bind ((replayOtpVerification_all env _).mono fun _ h ↦
      .of_reads (Op.reads_of_looks h)) fun replay ↦ ?_
    cases replay <;> trivial

section Guessing

variable {A : Weather ι} {P : Protocol (machine ι env.crypto) A} {R : History ι → Prop}
  {Q : VerifyOtpResponse → History ι → Prop} {E : Failure → History ι → Prop}

attribute [local irreducible] isUuidV4 in
/-- **A verification**, whatever is to be shown: all that matters is what issuing a session does, and
that the statements before leave what is known. -/
theorem verifyOtp_triple_of {phone countryIso otp : String} {context : OtpVerificationContext}
    (hst : P.Stable i R)
    (hR : ∀ {α : Type} {p : Call α}, p.All Op.Guesses → P.Triple i R p (fun _ ↦ R) E)
    (hQ : ∀ a s, P.Inv s → R s → Q a s) (hE : ∀ e s, P.Inv s → R s → E e s)
    (hissue : ∀ input : VerifiedSession,
      hashDeviceIdentifier env context.deviceId = .ok input.deviceHash →
        P.Triple i R (issueVerifiedSession env input) Q E) :
    P.Triple i R (verifyOtp env phone countryIso otp context) Q E := by
  -- The parts that only look, and those that only guess, keep to `R` by `hR`.
  have hreads : ∀ {α : Type} {p : Call α}, p.All (Op.looks · = true) →
      P.Triple i R p (fun _ ↦ R) E := fun hp ↦
    hR (hp.mono fun _ h ↦ .of_reads (Op.reads_of_looks h))
  have hdone : ∀ {p : Call VerifyOtpResponse}, p.All Op.Guesses → P.Triple i R p Q E := fun hp ↦
    (hR hp).post hQ fun _ _ _ h ↦ h
  have hthrow : ∀ {α : Type} {e : Failure} {Q : α → History ι → Prop},
      P.Triple i R (.throw e : Call α) Q E := .throw hst (hE _)
  -- Behind the checks: the code is compared, and the session is issued if it is right.
  have hlive : ∀ v ip deviceHash, hashDeviceIdentifier env context.deviceId = .ok deviceHash →
      P.Triple i R (verifyLiveOtp env v ip deviceHash) Q E := by
    intro v ip deviceHash hdevice
    refine .bind (hR (.run (.of_reads rfl))) fun user ↦ ?_
    cases user with
    | none => exact hdone trivial
    | some user =>
      refine .bind (hR (.run (.of_reads rfl))) fun now ↦
        .bind (hR (.run (.of_reads rfl))) fun record ↦ ?_
      cases record with
      | none =>
        refine hdone (.bind ((replayOtpVerification_all env v).mono fun _ h ↦
          .of_reads (Op.reads_of_looks h)) fun replay ↦ ?_)
        cases replay <;> trivial
      | some record =>
        refine .ite (fun _ ↦ hdone (.run_bind trivial fun _ ↦ trivial)) fun _ ↦
          .bind (hR (.run (.of_reads rfl))) fun ok ↦ .ite (fun _ ↦ hissue _ hdevice) fun _ ↦ ?_
        exact hdone (recordWrongCode_all env _ _ _ _ _)
  -- The texts of the request are normalized first; each step may refuse them.
  refine .bind (hreads (requireAuthCountry_all env countryIso)) fun country ↦ ?_
  refine triple_lift_bind (fun normalizedPhone _ ↦ ?_) fun _ _ ↦ hthrow
  refine triple_lift_bind (fun deviceHash hdevice ↦ ?_) fun _ _ ↦ hthrow
  refine .bind (R := fun _ ↦ R) (hreads ?_) fun key ↦ ?_
  · unfold verificationKey
    split
    · trivial
    · exact .run_bind rfl fun _ ↦ trivial
  refine triple_lift_bind (fun idempotencyKey _ ↦ ?_) fun _ _ ↦ hthrow
  refine triple_lift_bind (fun secret _ ↦ ?_) fun _ _ ↦ hthrow
  refine .bind (hreads (replayOtpVerification_all env _)) fun replay ↦ ?_
  cases replay with
  | some replay => exact .pure hst (hQ _)
  | none =>
    -- The two limits are checked for the keys that the request has.
    have hlimit : ∀ limit ip deviceHash locked message, P.Triple i R
        (checkVerifyFailureLimit env limit ip deviceHash locked message) (fun _ ↦ R) E :=
      fun _ _ _ _ _ ↦ hR (checkVerifyFailureLimit_all env _ _ _ _ _)
    have hpresent : ∀ {α : Type} (key : Option α) (check : α → Call Unit),
        (∀ k, P.Triple i R (check k) (fun _ ↦ R) E) →
          P.Triple i R (present key check) (fun _ ↦ R) E := by
      intro α key check h
      cases key with
      | none => exact .pure hst fun _ _ h ↦ h
      | some k => exact h k
    exact .bind (hpresent _ _ fun _ ↦ hlimit _ _ _ _ _) fun _ ↦
      .bind (hpresent _ _ fun _ ↦ hlimit _ _ _ _ _) fun _ ↦ hlive _ _ _ hdevice

end Guessing

theorem verifyOtp_triple (phone countryIso otp : String) (context : OtpVerificationContext) :
    (sessions env.crypto).Triple i (Idle i) (verifyOtp env phone countryIso otp context)
      (fun _ _ ↦ True) fun _ _ ↦ True :=
  verifyOtp_triple_of env idle_stable
    (fun hp ↦ idle_triple env (hp.mono fun _ ↦ Op.Guesses.abstains))
    (fun _ _ _ _ ↦ trivial) (fun _ _ _ _ ↦ trivial) fun _ _ ↦ issueVerifiedSession_triple env

end SignInCalls

end Stead
