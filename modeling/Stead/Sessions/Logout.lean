import Stead.Sessions.Families

/-!
# Logging out

What a logout leaves behind, in whatever order it and the rotations of the same session take the
lock of the user (`logout_ends_sessions`).

## The lock

A transaction that took the lock before the logout did has ended by then (`LocksHeld`), so its
tokens are committed or gone, and the logout revokes what is committed (`LoggedOut`). A transaction
that takes the lock later finds the family dead, or none of the tokens that were there live, and
creates no token for it. So the tokens that are created before the logout took the lock are revoked
when it has been answered, those of a rotation in flight included.

## Two modes

A logout of all devices resolves the user, by the access token or by the refresh token (`Resolves`),
and revokes all tokens of the user. A logout of one device resolves the family of the refresh token
and revokes that. `Heard` is what a call has learnt of its user on the way; if it has learnt nothing
there is nothing to revoke.
-/

namespace Stead

open Concurrency Protocol

variable {ι : Type}

/-- The statement took the lock of the user. -/
inductive TakesLock (u : ℕ) : Happening ι → Prop
  | intro {i : ι} {w t : World ι} : TakesLock u ⟨i, w, .lockRefreshUser u, .ok (), t⟩

/-- The statement created token `k`. -/
inductive CreatesToken (k : ℕ) : Happening ι → Prop
  | intro {i : ι} {w t : World ι} {data : NewRefreshToken} :
      CreatesToken k ⟨i, w, .refreshToken (.create data), .ok k, t⟩

/-- The statement showed the thread whose credential it has: it verified an access token, or found a
refresh token. -/
inductive Resolves (u : ℕ) : Happening ι → Prop
  | access {i : ι} {w t : World ι} {accessToken : ℕ} :
      Resolves u ⟨i, w, .host (.verifyAccessToken accessToken), .ok (some u), t⟩
  | refresh {i : ι} {w t : World ι} {hash : Digest} {existing : Keyed RefreshToken}
      {phone : String} (huser : existing.row.userId = u) :
      Resolves u ⟨i, w, .refreshToken (.findByHash hash), .ok (some (existing, phone)), t⟩

/-- The end of a transaction. -/
def Op.ends : Op → Bool
  | .commit | .rollback => true
  | _ => false

/-- The transaction that took the lock of the user at position `p` of the record created token `k`
at position `q`. -/
structure CreatedUnder (u p q k : ℕ) (s : History ι) : Prop where
  order : p < q
  created : ∃ e d, s.log[p]? = some e ∧ TakesLock u e ∧ s.log[q]? = some d ∧ CreatesToken k d ∧
    d.thread = e.thread ∧ ∀ (m : ℕ) (f : Happening ι), p < m → m < q → s.log[m]? = some f →
      f.thread = e.thread → f.op.ends = false

/-- Token `k` was created by a transaction that took the lock of the user before thread `i` did. -/
def CreatedBefore (i : ι) (u k : ℕ) (s : History ι) : Prop :=
  ∃ p q a b, CreatedUnder u p q k s ∧ p < a ∧ s.log[a]? = some b ∧ TakesLock u b ∧ b.thread = i

variable [DecidableEq ι]

/-! ### Who holds the lock -/

/-- A transaction holds the lock it has taken until it ends or its thread is lost. -/
def LocksHeld (c : System ι) : Prop :=
  ∀ (p : ℕ) (e : Happening ι) (u : ℕ), c.state.log[p]? = some e → TakesLock u e →
    (∀ (m : ℕ) (f : Happening ι), p < m → c.state.log[m]? = some f → f.thread = e.thread →
      f.op.ends = false) →
      c.state.shared.advisoryLocks u = some e.thread ∨ c.progs e.thread = none

section Locks

variable {crypto : Crypto} {i : ι} {x : Choice} {w t : World ι}

/-- A lock that is taken was free, or the thread's own. -/
theorem advisoryLocks_of_lock {u : ℕ} {a : Unit}
    (h : exec crypto i x (.lockRefreshUser u) w = some (.ok a, t)) :
    t.advisoryLocks u = some i ∧ (w.advisoryLocks u = none ∨ w.advisoryLocks u = some i) := by
  have hp := perform_of_exec_ok h
  simp only [perform] at hp
  split at hp
  · next hfree =>
    cases hp
    exact ⟨by simp, .inl hfree⟩
  · split at hp
    · next j hj hji =>
      cases hp
      exact ⟨hji ▸ hj, .inr (hji ▸ hj)⟩
    · cases hp

theorem LocksHeld.step {c c' : System ι} (hc : LocksHeld c)
    (h : Step (machine ι crypto) .all c c') : LocksHeld c' := by
  intro p e u he htakes hopen
  -- A lock is given up at the end of its transaction or by the crash of its thread.
  cases h with
  | @stmt i x op k r t hp ha hx =>
    rcases State.getElem?_after he with hold | ⟨rfl, rfl⟩
    · have hlast := hopen _ _ (List.getElem?_eq_some_iff.1 hold).1 State.getElem?_after_last
      rcases hc p e u hold htakes fun m f hm hf ↦ hopen m f hm (State.getElem?_after_of_some hf) with
        hheld | hlost
      · left
        -- Another thread cannot take a lock that is held.
        rcases exec_advisoryLocks hx u with hsame | ⟨-, htaken, hbefore⟩ | ⟨hbefore, -, hend⟩
        · exact hsame.trans hheld
        · rcases hbefore with hbefore | hbefore
          · cases hbefore.symm.trans hheld
          · exact htaken.trans (hbefore.symm.trans hheld)
        · have hthread : i = e.thread := Option.some.inj (hbefore.symm.trans hheld)
          rcases hend with rfl | rfl <;> cases hlast hthread
      · right
        have hne : e.thread ≠ i := by
          rintro rfl
          cases hlost.symm.trans hp
        rw [Config.after_progs_of_ne _ hne]
        exact hlost
    · cases htakes with
      | intro => exact .inl (advisoryLocks_of_lock hx).1
  | @crash i op k hp ha =>
    rcases hc p e u he htakes hopen with hheld | hlost
    -- The crash of the holder releases the lock, and its program is gone.
    · by_cases hi : e.thread = i
      · right
        rw [hi]
        exact Config.lose_progs_self _ _ _
      · exact .inl (World.releaseLocks_of_ne hi hheld)
    · right
      have hne : e.thread ≠ i := by
        intro hi
        cases (hi ▸ hlost).symm.trans hp
      rw [Config.lose_progs_of_ne _ hne]
      exact hlost

theorem LocksHeld.run {c c' : System ι} (hc : LocksHeld c)
    (h : Run (machine ι crypto) .all c c') : LocksHeld c' := by
  induction h with
  | refl => exact hc
  | tail _ hs ih => exact ih.step hs

end Locks

/-! ### What becomes of the tokens of a user -/

section Versions

variable {crypto : Crypto} {i : ι} {x : Choice} {op : Op} {w t : World ι}
  {r : Except StatementError op.Ret}

/-- Numbers are given out once. -/
theorem exec_refreshTokens_next (h : exec crypto i x op w = some (r, t)) :
    w.refreshTokens.next ≤ t.refreshTokens.next := by
  refine exec_of_perform (fun t ↦ w.refreshTokens.next ≤ t.refreshTokens.next) h
    (fun r t h ↦ ?_) ?_
  · by_cases hop : ∃ s, op = .refreshToken s
    · obtain ⟨s, rfl⟩ := hop
      have hframe : ∀ {v : Option ι} {id : ℕ} {p f b} {rows : Table ι RefreshToken},
          (w.elapse x.elapse).refreshTokens.updateId v id p f = some (b, rows) →
            (w.elapse x.elapse).refreshTokens.next ≤ rows.next := by
        intro v id p f b rows hu
        rcases Table.updateId_cases hu with ⟨-, rfl, -⟩ | ⟨-, hn, -⟩
        · exact le_rfl
        · exact hn.ge
      cases s <;> simp only [perform, RefreshTokenStatement.perform] at h <;>
        (repeat' split at h) <;> cases h <;>
        first
          | exact le_rfl
          | exact hframe (by assumption)
          | exact (Table.updateMany_next (by assumption)).ge
          | exact Nat.le_succ _
    · cases perform_effect h with
      | refreshToken hs => exact absurd ⟨_, hs⟩ hop
      | _ => subst_vars; exact le_rfl
  · cases op <;> exact le_rfl

/-- The second store is one after the first: every version of a token that had its number goes back
to one with the same user. -/
structure TokensLater (w w' : World ι) : Prop where
  next : w.refreshTokens.next ≤ w'.refreshTokens.next
  version : ∀ k r', w'.Version k r' → k < w.refreshTokens.next →
    ∃ r, w.Version k r ∧ r.userId = r'.userId

omit [DecidableEq ι] in
theorem TokensLater.refl (w : World ι) : TokensLater w w := ⟨le_rfl, fun _ r h _ ↦ ⟨r, h, rfl⟩⟩

omit [DecidableEq ι] in
theorem TokensLater.trans {w w' w'' : World ι} (h : TokensLater w w') (h' : TokensLater w' w'') :
    TokensLater w w'' := by
  refine ⟨h.next.trans h'.next, fun k r'' hr'' hk ↦ ?_⟩
  obtain ⟨r', hr', hu'⟩ := h'.version k r'' hr'' (hk.trans_le h.next)
  obtain ⟨r, hr, hu⟩ := h.version k r' hr' hk
  exact ⟨r, hr, hu.trans hu'⟩

theorem tokensLater_of_move {s s' : History ι} (h : Move (machine ι crypto) .all i s s') :
    TokensLater s.shared s'.shared := by
  cases h with
  | crash => exact ⟨le_rfl, fun k r hr _ ↦ ⟨r, World.version_of_rollback hr, rfl⟩⟩
  | stmt ha hx =>
    refine ⟨exec_refreshTokens_next hx, fun k r hr hk ↦ ?_⟩
    rcases version_of_exec_cases hx hr with ⟨r₀, hr₀, -, hu⟩ | ⟨data, -, hnew⟩
    · exact ⟨r₀, hr₀, hu⟩
    · exact absurd hnew hk.ne

theorem tokensLater_of_run {c c' : System ι} (h : Run (machine ι crypto) .all c c') :
    TokensLater c.state.shared c'.state.shared := by
  induction h with
  | refl => exact .refl _
  | tail _ hs ih =>
    obtain ⟨j, hm⟩ := hs.move
    exact ih.trans (tokensLater_of_move hm)

end Versions

/-! ### What the credential shows -/

/-- The thread has only looked things up, and what it has seen names the user, or nobody. -/
def Heard (i : ι) (user : Option ℕ) (s : History ι) : Prop :=
  (∀ e ∈ s.history i, e.op.looks = true) ∧ ∀ e ∈ s.history i, ∀ u, Resolves u e → user = some u

section Heard

variable {crypto : Crypto} {i : ι} {user : Option ℕ} {s : History ι}

theorem heard_stable : (sessions crypto).Stable i fun s ↦ Idle i s ∧ Heard i user s :=
  idle_stable.and (Stable.history (H := fun h : List (Happening ι) ↦
    (∀ e ∈ h, e.op.looks = true) ∧ ∀ e ∈ h, ∀ u, Resolves u e → user = some u))

/-- A statement that looks tells the call what it resolves. -/
theorem Heard.after (hs : Heard i none s) {op : Op} (hop : op.looks = true)
    {r : Statements.Resp op} {t : World ι}
    (h : ∀ u, Resolves u ⟨i, s.shared, op, r, t⟩ → user = some u) :
    Heard i user (s.after i op r t) := by
  rw [Heard, State.after_history_self]
  refine ⟨fun e he ↦ ?_, fun e he u hu ↦ ?_⟩
  · rcases List.mem_append.1 he with he | he
    · exact hs.1 e he
    · exact List.mem_singleton.1 he ▸ hop
  · rcases List.mem_append.1 he with he | he
    · cases hs.2 e he u hu
    · exact h u (List.mem_singleton.1 he ▸ hu)

/-- A statement that looks something up. -/
theorem heard_exec {x : Choice} {op : Op} {r : Except StatementError op.Ret} {t : World ι}
    (hp : Idle i s ∧ Heard i none s) (hop : op.looks = true)
    (hx : exec crypto i x op s.shared = some (r, t))
    (h : ∀ u, Resolves u ⟨i, s.shared, op, r, t⟩ → user = some u) :
    (Idle i (s.after i op r t)) ∧ Heard i user (s.after i op r t) := by
  have hidle : Settled crypto i (Idle i) := settled_idle
  exact ⟨hidle.quiet s _ (exec_quiet (.of_reads (Op.reads_of_looks hop)) hx) hp.1,
    hp.2.after hop h⟩

end Heard

section Calls

variable (env : Env) {i : ι}

theorem verifiedSubject_triple (accessToken : ℕ) :
    (sessions env.crypto).Triple i (fun s ↦ Idle i s ∧ Heard i none s)
      (verifiedSubject accessToken) (fun user s ↦ Idle i s ∧ Heard i user s) fun _ _ ↦ True := by
  refine .tryCatch (R := fun _ s ↦ Idle i s ∧ Heard i none s)
    (triple_run (fun user s ↦ Idle i s ∧ Heard i user s) (fun _ s ↦ Idle i s ∧ Heard i none s)
      heard_stable (fun s x r t hs hp _ hx ↦ ?_) (fun _ ↦ .pure heard_stable fun _ _ h ↦ h)
      fun _ ↦ .throw heard_stable fun _ _ h ↦ h) fun _ ↦ .pure heard_stable fun _ _ h ↦ h
  have hop : (Op.host (.verifyAccessToken accessToken)).Abstains := .of_reads rfl
  have h := sessions_spares hs hop.spares hx
  refine ⟨h.1, h.2, fun user hr ↦ heard_exec hp rfl hx fun u hu ↦ ?_,
    fun e hr ↦ heard_exec hp rfl hx fun u hu ↦ ?_⟩
  · subst hr
    cases hu
    rfl
  · subst hr
    cases hu

theorem userOfRefreshToken_triple (refreshToken : Option ℕ) :
    (sessions env.crypto).Triple i (fun s ↦ Idle i s ∧ Heard i none s)
      (userOfRefreshToken env refreshToken) (fun user s ↦ Idle i s ∧ Heard i user s)
      fun _ _ ↦ True := by
  cases refreshToken with
  | none => exact .pure heard_stable fun _ _ h ↦ h
  | some token =>
    refine sessions_run_bind (.inl rfl)
      (fun found s ↦ Idle i s ∧ Heard i (found.map fun r ↦ r.1.row.userId) s) heard_stable
      (fun s x r t hs hp hx ↦ ?_) (fun _ _ _ ↦ trivial)
      fun _ ↦ .pure heard_stable fun _ _ h ↦ h
    have hop : (Op.refreshToken (.findByHash (env.crypto.hashRefreshToken token))).Abstains :=
      .of_reads rfl
    have h := sessions_spares hs hop.spares hx
    refine ⟨h.1, h.2, fun found hr ↦ heard_exec hp rfl hx fun u hu ↦ ?_⟩
    subst hr
    cases hu with
    | refresh huser => exact congrArg some huser

/-- The user of a logout is the one it has heard of. -/
theorem resolveUserIdForLogout_triple (input : RevokeSessionInput) :
    (sessions env.crypto).Triple i (fun s ↦ Idle i s ∧ Heard i none s)
      (resolveUserIdForLogout env input) (fun user s ↦ Idle i s ∧ Heard i user s)
      fun _ _ ↦ True := by
  unfold resolveUserIdForLogout
  split
  · refine .ite (fun _ ↦ .pure heard_stable fun _ _ h ↦ h) fun _ ↦
      .bind (verifiedSubject_triple env _) fun subject ↦ ?_
    cases subject with
    | none => exact userOfRefreshToken_triple env _
    | some userId => exact .pure heard_stable fun _ _ h ↦ h
  · exact userOfRefreshToken_triple env _

/-- What is known of the tokens of the user that were committed when the thread took the lock. -/
def SinceLock (i : ι) (u : ℕ) (P : ℕ → RefreshToken → History ι → Prop) (s : History ι) : Prop :=
  (∃ e ∈ s.history i, TakesLock u e) ∧ ∀ e ∈ s.history i, TakesLock u e →
    e.before.advisoryLocks u ≠ some i ∧
      ∀ k r, e.before.refreshTokens.stored k = some r → r.userId = u → P k r s

section SinceLock

variable {crypto : Crypto} {u : ℕ} {P P' : ℕ → RefreshToken → History ι → Prop} {s s' : History ι}

theorem sinceLock_stable (hP : ∀ k r, (sessions crypto).Stable i (P k r)) :
    (sessions crypto).Stable i (SinceLock i u P) := by
  intro s s' hr hs
  rw [SinceLock, hr.history]
  exact ⟨hs.1, fun e he htakes ↦ ⟨(hs.2 e he htakes).1, fun k r hk hu ↦
    hP k r s s' hr ((hs.2 e he htakes).2 k r hk hu)⟩⟩

theorem SinceLock.after (hs : SinceLock i u P s) {op : Op} (hop : ∀ v, op ≠ .lockRefreshUser v)
    {r : Statements.Resp op} {t : World ι}
    (hP : ∀ k row, row.userId = u → P k row s → P' k row (s.after i op r t)) :
    SinceLock i u P' (s.after i op r t) := by
  rw [SinceLock, State.after_history_self]
  refine ⟨?_, fun e he htakes ↦ ?_⟩
  · obtain ⟨e, he, htakes⟩ := hs.1
    exact ⟨e, List.mem_append_left _ he, htakes⟩
  · rcases List.mem_append.1 he with he | he
    · exact ⟨(hs.2 e he htakes).1, fun k row hk hu ↦
        hP k row hu ((hs.2 e he htakes).2 k row hk hu)⟩
    · rw [List.mem_singleton.1 he] at htakes
      cases htakes
      exact absurd rfl (hop u)

end SinceLock

/-- The families of the tokens are dead. -/
abbrev FamilyDead (_ : ℕ) (r : RefreshToken) (s : History ι) : Prop := s.shared.Dead r.familyId

/-- A statement that cannot show whose a credential is. -/
def Op.mute : Op → Bool
  | .host (.verifyAccessToken _) | .refreshToken (.findByHash _) => false
  | _ => true

omit [DecidableEq ι] in
/-- A mute statement resolves nobody. -/
theorem not_resolves {i : ι} {op : Op} {r : Statements.Resp op} {w t : World ι} {u : ℕ}
    (hop : op.mute = true) : ¬ Resolves u ⟨i, w, op, r, t⟩ := by
  intro h
  cases h <;> cases hop

/-- **The revocation of all tokens of the user** kills the families that it finds. -/
theorem revokeAll_triple (u : ℕ) :
    (sessions env.crypto).Triple i (fun s ↦ Idle i s ∧ Heard i (some u) s)
      (revokeRefreshTokens u ⟨some u, none⟩) (fun _ ↦ SinceLock i u FamilyDead)
      fun _ ↦ DbFailed i := by
  refine ((revokeRefreshTokens_triple_of env (B := fun s ↦ Idle i s ∧ Heard i (some u) s)
    (R := SinceLock i u Since) (Y := SinceLock i u FamilyDead) heard_stable
    (sinceLock_stable fun k r ↦ (since_lasting k r).stable) (fun s x a t hs hidle hp hx ↦ ?_)
    (fun op hop s r t hs hs' hm h ↦ h.after hop fun k row _ hk ↦ ?_)
    (sinceLock_stable fun k r ↦ (dead_lasting r.familyId).stable)
    fun s t hs hwithin hscope hR hstored ↦
      hR.after (fun _ ↦ Op.noConfusion) fun k r hu hk ↦ ?_)).conseq
    (fun _ _ h ↦ ⟨⟨h.1, .inl rfl⟩, h⟩) (fun _ _ _ h ↦ h.2) fun _ _ _ h ↦ h
  · rw [SinceLock, State.after_history_self]
    refine ⟨⟨_, List.mem_append_right _ (List.mem_singleton_self _), .intro⟩, fun e he htakes ↦ ?_⟩
    rcases List.mem_append.1 he with he | he
    · cases htakes with
      | intro => cases hp.2.1 _ he
    · rw [List.mem_singleton.1 he]
      refine ⟨hidle u, fun k r hr _ ↦ ⟨r, ?_, .refl r⟩⟩
      have hspares : (Op.lockRefreshUser u).Spares := trivial
      have hsame : SameTokens s.shared t := exec_sameTokens hspares hx
      exact hsame.stored ▸ hr
  · obtain ⟨r', hr', hle⟩ := hk
    obtain ⟨r'', hr'', hle'⟩ := hs.1.move_stored hm hr'
    exact ⟨r'', hr'', hle.trans hle'⟩
  · obtain ⟨r', hr', hle⟩ := hk
    have howner : Owner r.familyId u s := ⟨k, r', hr', hle.familyId, hle.userId.trans hu⟩
    refine ⟨?_, fun l p hp hF ↦ ?_⟩
    · obtain ⟨p, hp, hle'⟩ := hs.1.tokens_of_stored i hr'
      exact ⟨k, p, (congrFun hstored k).trans hp, (hle.trans hle').familyId⟩
    · have hp' : s.shared.tokens i l = some p := (congrFun hstored l).symm.trans hp
      have huser := hs.1.userId_of_owner howner (World.version_of_tokens hp') hF
      by_contra hlive
      refine List.not_mem_nil (hwithin l p hp' huser ?_)
      simp [RevokeWhere.covers, huser, Option.not_isSome_iff_eq_none.1 hlive]

/-- **A logout from all devices** kills the families that its revocation finds, of the user that its
credential resolves to. -/
theorem allDevices_triple {input : RevokeSessionInput} (hall : input.allDevices = true) :
    (sessions env.crypto).Triple i (fun s ↦ Idle i s ∧ Heard i none s) (revokeSession env input)
      (fun _ s ↦ ∀ u, (∃ e ∈ s.history i, Resolves u e) → SinceLock i u FamilyDead s)
      fun _ _ ↦ True := by
  have hmute : ∀ {user : Option ℕ} {op : Op}, op.mute = true → ∀ (s : History ι) x r t,
      exec env.crypto i x op s.shared = some (r, t) →
        (∀ e ∈ s.history i, ∀ u, Resolves u e → user = some u) →
          ∀ e ∈ (s.after i op r t).history i, ∀ u, Resolves u e → user = some u := by
    intro user op hop s x r t _ h e he u hu
    rw [State.after_history_self] at he
    rcases List.mem_append.1 he with he | he
    · exact h e he u hu
    · exact absurd (List.mem_singleton.1 he ▸ hu) (not_resolves hop)
  unfold revokeSession
  rw [if_pos hall]
  refine .bind (resolveUserIdForLogout_triple env input) fun user ↦ ?_
  cases user with
  | none =>
    exact .pure heard_stable fun s _ hp u ⟨e, he, hu⟩ ↦ nomatch hp.2.2 e he u hu
  | some userId =>
    have hnamed : (sessions env.crypto).Stable i fun s : History ι ↦
        ∀ e ∈ s.history i, ∀ u, Resolves u e → some userId = some u :=
      Stable.history (H := fun h : List (Happening ι) ↦
        ∀ e ∈ h, ∀ u, Resolves u e → some userId = some u)
    have hframe := (revokeAll_triple env userId).frame (C := fun op : Op ↦ op.mute = true)
      (.transaction (.run_bind rfl fun _ ↦ .run_bind rfl fun _ ↦ .run_bind rfl fun _ ↦ .run rfl)
        rfl rfl) hnamed fun op hop s x r t _ _ _ _ hx h ↦ hmute hop s x r t hx h
    refine .bind (R := fun _ s ↦ SinceLock i userId FamilyDead s ∧
        ∀ e ∈ s.history i, ∀ u, Resolves u e → some userId = some u)
      (hframe.conseq (fun _ _ h ↦ ⟨h, h.2.2⟩) (fun _ _ _ h ↦ h) fun _ _ _ _ ↦ trivial) fun _ ↦ ?_
    refine .pure ((sinceLock_stable fun k r ↦ (dead_lasting r.familyId).stable).and hnamed)
      fun s _ hp u ⟨e, he, hu⟩ ↦ ?_
    obtain rfl := Option.some.inj (hp.2 e he u hu)
    exact hp.1

/-- The thread looked the token up, and what it found then tells the family of the token. -/
def Presented (i : ι) (hash : Digest) (P : RefreshToken → Prop) (s : History ι) : Prop :=
  ∃ e ∈ s.history i, e.op = .refreshToken (.findByHash hash) ∧
    ∀ k r, e.before.refreshTokens.stored k = some r → r.tokenHash = hash → P r

/-- **A logout from one device** kills the family of its token. -/
theorem oneDevice_triple {input : RevokeSessionInput} (hall : input.allDevices = false) {token : ℕ}
    (htoken : input.refreshToken = some token) :
    (sessions env.crypto).Triple i (Idle i) (revokeSession env input)
      (fun _ s ↦ Presented i (env.crypto.hashRefreshToken token) (fun r ↦ s.shared.Dead r.familyId) s)
      fun _ _ ↦ True := by
  obtain ⟨refreshToken, accessToken, allDevices⟩ := input
  obtain rfl : refreshToken = some token := htoken
  obtain rfl : allDevices = false := hall
  set hash := env.crypto.hashRefreshToken token with hhash
  have hlooked : ∀ P : RefreshToken → Prop,
      (sessions env.crypto).Stable i (Presented i hash P) := fun P ↦
    Stable.history (H := fun h : List (Happening ι) ↦ ∃ e ∈ h,
      e.op = .refreshToken (.findByHash hash) ∧
        ∀ k r, e.before.refreshTokens.stored k = some r → r.tokenHash = hash → P r)
  let found_family : Option (Keyed RefreshToken × String) → RefreshToken → Prop :=
    fun found r ↦ ∃ c ∈ found, c.1.row.familyId = r.familyId
  refine sessions_run_bind (.inl rfl) (fun found s ↦ (Idle i s ∧
      ∀ c ∈ found, Owner c.1.row.familyId c.1.row.userId s) ∧
        Presented i hash (found_family found) s) idle_stable (fun s x r t hs hp hx ↦ ?_)
    (fun _ _ _ ↦ trivial) fun found ↦ ?_
  -- The lookup: what it answers is the row with the hash, whose owner it names.
  · have hop : (Op.refreshToken (.findByHash hash)).Abstains := .of_reads rfl
    have h := sessions_spares hs hop.spares hx
    have hidle : Settled env.crypto i (Idle i) := settled_idle
    refine ⟨h.1, h.2, fun found hr ↦ ⟨⟨hidle.quiet s _ (exec_quiet hop hx) hp, ?_⟩, ?_⟩⟩
    · rintro c hc
      subst hr
      obtain ⟨htokens, ⟨rfl, -⟩ | ⟨existing, phone, rfl, hrow, -⟩⟩ := findByHash_cases hx
      · cases hc
      · cases hc
        refine ⟨existing.id, existing.row, ?_, rfl, rfl⟩
        rw [State.after_shared, htokens]
        exact hrow
    · subst hr
      refine ⟨⟨i, s.shared, .refreshToken (.findByHash hash), .ok found, t⟩, ?_, rfl,
        fun k r hr hh ↦ ?_⟩
      · rw [State.after_history_self]
        exact List.mem_append_right _ (List.mem_singleton_self _)
      · obtain ⟨-, ⟨rfl, habsent⟩ | ⟨existing, phone, rfl, hrow, hfound⟩⟩ := findByHash_cases hx
        · exact absurd hh (habsent k r hr)
        · have hid := hs.1.hashes _ _ _ _ (.inl hrow) (.inl hr) (hfound.trans hh.symm)
          refine ⟨_, rfl, ?_⟩
          rw [hid] at hrow
          rw [Option.some.inj (hrow.symm.trans hr)]
  · match found with
    | none =>
      refine .pure (.and (.and idle_stable fun _ _ _ _ _ hc ↦ nomatch hc) (hlooked _))
        fun s _ ⟨_, e, he, hop, hrow⟩ ↦ ⟨e, he, hop, fun k r hr hh ↦ ?_⟩
      obtain ⟨c, hc, -⟩ := hrow k r hr hh
      cases hc
    | some (existing, phone) =>
      -- The family that was found is revoked under the lock of its owner.
      have hframe := (revokeRefreshTokens_triple env (u := existing.row.userId)
          ⟨none, some existing.row.familyId⟩).frame (C := fun _ : Op ↦ True)
        (Prog.all_true _) (hlooked (found_family (some (existing, phone))))
        fun op _ s x r t _ _ _ _ _ ⟨e, he, h⟩ ↦ ⟨e, by
          rw [State.after_history_self]
          exact List.mem_append_left _ he, h⟩
      refine .bind (R := fun _ s ↦ s.shared.Dead existing.row.familyId ∧
          Presented i hash (found_family (some (existing, phone))) s)
        (hframe.conseq (fun s _ h ↦ ⟨⟨h.1.1, .inr ⟨_, rfl, h.1.2 _ rfl⟩⟩, h.2⟩)
          (fun _ _ _ h ↦ ⟨h.1.2 _ rfl, h.2⟩) fun _ _ _ _ ↦ trivial) fun _ ↦ ?_
      refine .pure ((dead_lasting _).stable.and (hlooked _))
        fun s _ ⟨hdead, e, he, hop, hrow⟩ ↦ ⟨e, he, hop, fun k r hr hh ↦ ?_⟩
      obtain ⟨c, hc, hF⟩ := hrow k r hr hh
      cases hc
      exact hF ▸ hdead

/-- What a logout has ended when it returns. -/
structure LoggedOut (input : RevokeSessionInput) (i : ι) (s : History ι) : Prop where
  oneDevice : input.allDevices = false → ∀ token ∈ input.refreshToken,
    Presented i (env.crypto.hashRefreshToken token) (fun r ↦ s.shared.Dead r.familyId) s
  allDevices : input.allDevices = true → ∀ u, (∃ e ∈ s.history i, Resolves u e) →
    SinceLock i u FamilyDead s

/-- Who is logged out stays so. -/
theorem loggedOut_stable (input : RevokeSessionInput) :
    (sessions env.crypto).Stable i (LoggedOut env input i) := by
  rintro s s' hr ⟨hone, hall⟩
  refine ⟨fun h token htoken ↦ ?_, fun h u hu ↦ ?_⟩
  · obtain ⟨e, he, hop, hrow⟩ := hone h token htoken
    exact ⟨e, hr.history ▸ he, hop, fun k r hk hh ↦
      (dead_lasting r.familyId).stable s s' hr (hrow k r hk hh)⟩
  · rw [hr.history] at hu
    exact sinceLock_stable (fun k r ↦ (dead_lasting r.familyId).stable) s s' hr (hall h u hu)

/-- **A logout** of either kind has revoked what it should when it is answered. -/
theorem logout_triple (input : RevokeSessionInput) :
    (sessions env.crypto).Triple i (fun s ↦ Idle i s ∧ Heard i none s)
      ((ApiCall.revokeSession input).program env) (fun _ ↦ LoggedOut env input i) fun _ _ ↦ True := by
  refine .bind (R := fun _ ↦ LoggedOut env input i) ?_
    fun _ ↦ .pure (loggedOut_stable env input) fun _ _ h ↦ h
  cases hall : input.allDevices with
  | true =>
    refine (allDevices_triple env hall).post (fun _ s _ h ↦ ⟨fun hone ↦ ?_, fun _ ↦ h⟩)
      fun _ _ _ h ↦ h
    cases hall.symm.trans hone
  | false =>
    have hnone : ∀ {s : History ι}, input.allDevices = true → ∀ u,
        (∃ e ∈ s.history i, Resolves u e) → SinceLock i u FamilyDead s :=
      fun h ↦ by cases hall.symm.trans h
    cases htoken : input.refreshToken with
    | some token =>
      refine ((oneDevice_triple env hall htoken).pre fun _ _ h ↦ h.1).post
        (fun _ s _ h ↦ ⟨fun _ token' htoken' ↦ ?_, hnone⟩) fun _ _ _ h ↦ h
      cases htoken.symm.trans htoken'
      exact h
    | none =>
      refine ((revokeSession_triple env input).pre fun _ _ h ↦ h.1).post
        (fun _ s _ _ ↦ ⟨fun _ token htoken' ↦ ?_, hnone⟩) fun _ _ _ h ↦ h
      cases htoken.symm.trans htoken'

theorem logout_safe {w : World ι} (hw : TokensSound w) (hlocks : ∀ u, w.advisoryLocks u = none)
    (calls : ι → ApiCall) {input : RevokeSessionInput} (hi : calls i = .revokeSession input) :
    (sessions env.crypto).AllSafe (fun j _ s ↦ j = i → LoggedOut env input i s) (fun _ _ _ ↦ True)
      (System.start env w calls) := by
  have hidle : ∀ j, Idle j (⟨w, []⟩ : History ι) := fun j u hu ↦ nomatch (hlocks u).symm.trans hu
  refine .start (fun j s ↦ (Idle j s ∧ Heard j none s) ∧ SawNone j s)
    ⟨hw, fun _ _ he ↦ nomatch he⟩ (fun j ↦ ⟨⟨hidle j, fun _ he ↦ (nomatch he), fun _ he ↦ nomatch he⟩,
      fun _ he ↦ nomatch he⟩) fun j ↦ ?_
  by_cases hj : j = i
  · subst hj
    rw [hi]
    exact (logout_triple env input).conseq (fun _ _ h ↦ h.1) (fun _ _ _ h _ ↦ h) fun _ _ _ h ↦ h
  · exact (program_triple env (calls j)).conseq (fun _ _ h ↦ ⟨h.1.1, h.2⟩)
      (fun _ _ _ _ h ↦ absurd h hj) fun _ _ _ _ ↦ trivial

end Calls

/-! ### The moment of the lock -/

section Moments

variable {crypto : Crypto} {i : ι} {c₀ c : System ι}

/-- What a thread has executed since a state in which it had executed nothing. -/
theorem moment_of_history (h : Run (machine ι crypto) .all c₀ c) (hstart : c₀.state.history i = [])
    {e : Happening ι} (he : e ∈ c.state.history i) :
    ∃ p c₁ c₂, Moment (machine ι crypto) .all c₀ c p e c₁ c₂ := by
  obtain ⟨before, rest, he⟩ := List.append_of_mem he
  obtain ⟨p, c₁, c₂, hm, -⟩ := h.moment_history hstart he
  exact ⟨p, c₁, c₂, hm⟩

theorem lt_next_of_creates {k : ℕ} {d : Happening ι} (hcreates : CreatesToken k d) {x : Choice}
    (hx : exec crypto d.thread x d.op d.before = some (d.resp, d.after)) :
    k < d.after.refreshTokens.next := by
  cases hcreates with
  | @intro j w t data =>
    have htoken : t.tokens j k = some data.row := (tokens_create (s := ⟨w, []⟩) hx).2.1
    have hcell : t.refreshTokens.cell k ≠ .empty := fun hempty ↦ by
      rw [World.tokens, hempty] at htoken
      cases htoken
    exact Table.lt_next_of_cell hcell

/-- **The transactions that took the lock before have ended.** A token that one of them created, if
it is ever committed, is committed when the lock is taken again. -/
theorem committed_of_createdUnder {w : World ι} {progs : ι → Call ApiResponse}
    (hrun : Run (machine ι crypto) .all (Config.start w progs) c) {u p q k a : ℕ}
    (hcreated : CreatedUnder u p q k c.state) (hpa : p < a) {b : Happening ι}
    (hb : c.state.log[a]? = some b) (htakes : TakesLock u b)
    (hfree : b.before.advisoryLocks u ≠ some b.thread) (hsound : TokensSound b.before)
    {r : RefreshToken} (hr : c.state.shared.refreshTokens.stored k = some r) (hu : r.userId = u) :
    ∃ r₀, b.before.refreshTokens.stored k = some r₀ ∧ r₀.userId = u := by
  obtain ⟨e, d, he, hlock, hd, hcreates, hthread, hopen⟩ := hcreated.created
  have htaken : b.before.advisoryLocks u = none := by
    cases htakes with
    | intro =>
      obtain ⟨c₁, c₂, hm⟩ := hrun.moment hb (Nat.zero_le _)
      obtain ⟨x, hx⟩ := hm.exec
      exact ((advisoryLocks_of_lock hx).2).resolve_right hfree
  -- Nobody else holds the lock when it is taken, so the token was created before.
  have hqa : q < a := by
    rcases lt_trichotomy q a with hlt | rfl | hgt
    · exact hlt
    · cases hd.symm.trans hb
      cases hcreates
      cases htakes
    · obtain ⟨d₁, d₂, hmd⟩ := hrun.moment hd (Nat.zero_le _)
      obtain ⟨b₁, b₂, hmb⟩ := hmd.before.moment (hmd.getElem?_log hb hgt) (Nat.zero_le _)
      have hback : Run (machine ι crypto) .all b₁ c := hmb.run.trans hmd.run
      have hheld : LocksHeld b₁ := LocksHeld.run (fun p e u he ↦ by cases he) hmb.before
      have hep : b₁.state.log[p]? = some e :=
        hmb.getElem?_log (hmd.getElem?_log he (hpa.trans hgt)) hpa
      rcases hheld p e u hep hlock fun m f hm hf hft ↦
        hopen m f hm ((hmb.log_lt hf).trans hgt) (hback.getElem?_log hf) hft with hheld | hlost
      · rw [hmb.shared, htaken] at hheld
        cases hheld
      · exact absurd (hthread ▸ hmb.run.lost hlost) hmd.running
  obtain ⟨b₁, b₂, hmb⟩ := hrun.moment hb (Nat.zero_le _)
  obtain ⟨d₁, d₂, hmd⟩ := hmb.before.moment (hmb.getElem?_log hd hqa) (Nat.zero_le _)
  have hnext : k < b₁.state.shared.refreshTokens.next := by
    obtain ⟨x, hx⟩ := hmd.exec
    have hk := lt_next_of_creates hcreates hx
    rw [← State.after_shared d₁.state d.thread d.op d.resp d.after, ← hmd.state] at hk
    exact hk.trans_le (tokensLater_of_run hmd.after).next
  obtain ⟨r₀, hr₀, hu₀⟩ :=
    (tokensLater_of_run hmb.run).version k r (.inl hr) hnext
  rw [hmb.shared] at hr₀
  rcases hr₀ with hr₀ | ⟨j, hr₀⟩
  · exact ⟨r₀, hr₀, hu₀.trans hu⟩
  · have hlocked := hsound.locked k j r₀ hr₀
    rw [hu₀, hu, htaken] at hlocked
    cases hlocked

end Moments

/-! ### Logging out -/

/-- **Logout ends sessions.** When a logout that had not begun in `c₀` has returned: no token is live
in the family of the refresh token it brought, if that token was committed in `c₀` (a logout from all
devices may resolve to another user; then this does not concern it). And a logout from all devices
whose credential resolved to a user has taken the lock of the user, and has revoked every token of
the user that was created by a transaction that took the lock before. -/
theorem logout_ends_sessions (env : Env) {w : World ι} (hw : TokensSound w)
    (hlocks : ∀ u, w.advisoryLocks u = none) (calls : ι → ApiCall) {i : ι}
    {input : RevokeSessionInput} (hi : calls i = .revokeSession input) {c₀ c : System ι}
    (hc₀ : System.Reaches env .all (System.start env w calls) c₀) (hstart : c₀.state.history i = [])
    (hc : System.Reaches env .all c₀ c) {a : ApiResponse} (ha : c.Answered i (.ok a)) :
    (∀ token k r, input.refreshToken = some token →
      c₀.state.shared.refreshTokens.stored k = some r →
        r.tokenHash = env.crypto.hashRefreshToken token →
          (input.allDevices = true → ∃ e ∈ c.state.history i, Resolves r.userId e) →
            ∀ l r', c.state.shared.refreshTokens.stored l = some r' → r'.familyId = r.familyId →
              r'.revokedAt.isSome) ∧
      (input.allDevices = true → ∀ u, (∃ e ∈ c.state.history i, Resolves u e) →
        (∃ e ∈ c.state.history i, TakesLock u e) ∧
          ∀ k r, CreatedBefore i u k c.state → c.state.shared.refreshTokens.stored k = some r →
            r.userId = u → r.revokedAt.isSome) := by
  have hsafe₀ := (logout_safe env hw hlocks calls hi).run hc₀
  have hsafe := hsafe₀.run hc
  obtain ⟨hone, hall⟩ := hsafe.answer ha rfl
  -- A token of `c₀` is still there, in this version or a later one, when the logout looks.
  have hkept : ∀ {k r e}, c₀.state.shared.refreshTokens.stored k = some r →
      e ∈ c.state.history i → ∃ r', e.before.refreshTokens.stored k = some r' ∧ r.Leads r' := by
    intro k r e hr he
    obtain ⟨p, c₁, c₂, hm⟩ := moment_of_history hc hstart he
    have hsince := hsafe₀.lasting (since_lasting k r) hm.before ⟨r, hr, .refl r⟩
    rw [Since, hm.shared] at hsince
    exact hsince
  refine ⟨fun token k r htoken hr hhash hother l r' hr' hF ↦ ?_, fun hdevices u hresolves ↦
    ⟨(hall hdevices u hresolves).1, fun k r hcreated hr hu ↦ ?_⟩⟩
  · cases hdevices : input.allDevices with
    | false =>
      obtain ⟨e, he, -, hdead⟩ := hone hdevices token htoken
      obtain ⟨r₁, hr₁, hle⟩ := hkept hr he
      have hdead := hdead k r₁ hr₁ (hle.tokenHash.trans hhash)
      exact hdead.2 l r' hr' (hF.trans hle.familyId.symm)
    | true =>
      obtain ⟨⟨e, he, htakes⟩, hdead⟩ := hall hdevices r.userId (hother hdevices)
      obtain ⟨r₁, hr₁, hle⟩ := hkept hr he
      exact ((hdead e he htakes).2 k r₁ hr₁ hle.userId).2 l r' hr' (hF.trans hle.familyId.symm)
  · obtain ⟨p, q, a, b, hunder, hpa, hb, htakes, hthread⟩ := hcreated
    have hbmem : b ∈ c.state.history i := State.mem_history.2 ⟨List.mem_of_getElem? hb, hthread⟩
    obtain ⟨hfree, hdead⟩ := (hall hdevices u hresolves).2 b hbmem htakes
    have hrun := Relation.ReflTransGen.trans hc₀ hc
    obtain ⟨b₁, b₂, hm⟩ := Run.moment hrun hb (Nat.zero_le _)
    have hsafe₁ := (logout_safe env hw hlocks calls hi).run hm.before
    have hsound : TokensSound b.before := hm.shared ▸ hsafe₁.1.1
    obtain ⟨r₀, hr₀, hu₀⟩ := committed_of_createdUnder hrun hunder hpa hb htakes
      (hthread.symm ▸ hfree) hsound hr hu
    obtain ⟨r₁, hr₁, hle⟩ := hsafe₁.lasting (since_lasting k r₀) hm.run
      ⟨r₀, hm.shared.symm ▸ hr₀, .refl r₀⟩
    cases hr.symm.trans hr₁
    exact (hdead k r₀ hr₀ hu₀).2 k r hr hle.familyId

namespace Demo

/-- A sign-in, a refresh of its session, and logouts from one device and from all. -/
def logoutCalls : ℕ → ApiCall
  | 0 => requestOtp '0'
  | 1 => .verifyOtp "+1" "NG" "" { idempotencyKey := some (key '1') }
  | 2 => .refreshSession 1 {}
  | 3 => .revokeSession { refreshToken := some 1 }
  | _ => .revokeSession { refreshToken := some 1, allDevices := true }

/-- The user of a refresh token that a lookup finds. -/
def foundUser : Happening ι → Option ℕ
  | ⟨_, _, .refreshToken (.findByHash _), .ok (some (existing, _)), _⟩ => some existing.row.userId
  | _ => none

/-- Thread 4 finds the user and returns, and a second token exists. -/
def LoggedOut (c : System ℕ) : Prop :=
  (c.state.history 4)[0]?.bind foundUser = some 0 ∧
    (c.progs 4).bind Prog.outcome = some (.ok .done) ∧
    (c.state.shared.refreshTokens.stored 1).isSome

instance (c : System ℕ) : Decidable (LoggedOut c) := inferInstanceAs (Decidable (_ ∧ _ ∧ _))

/-- The session begins. Two logouts look the token up while a rotation holds the lock, and return
after it. -/
theorem signedIn_runs : ((System.start env world logoutCalls).turns (machine ℕ crypto) anything
    (steps 0 18 ++ steps 1 22)).any (fun c ↦ (c.state.history 4).isEmpty = true ∧
      (c.turns (machine ℕ crypto) anything (steps 2 6 ++ steps 3 1 ++ steps 4 1 ++ steps 2 6 ++
        steps 4 5 ++ steps 3 5)).any (fun c' ↦ LoggedOut c') = true) = true := by
  decide +kernel

/-- The system after a sign-in. -/
def signedIn : System ℕ :=
  after (System.start env world logoutCalls) _ _ (Option.isSome_of_any signedIn_runs)

theorem signedIn_tests : (signedIn.state.history 4).isEmpty = true ∧
    (signedIn.turns (machine ℕ crypto) anything (steps 2 6 ++ steps 3 1 ++ steps 4 1 ++ steps 2 6 ++
      steps 4 5 ++ steps 3 5)).any (fun c' ↦ LoggedOut c') = true :=
  of_decide_eq_true (Config.afterTurns_of_any signedIn_runs)

/-- The system after both. -/
def loggedOut : System ℕ := after signedIn _ _ (Option.isSome_of_any signedIn_tests.2)

theorem loggedOut_tests : LoggedOut loggedOut :=
  of_decide_eq_true (Config.afterTurns_of_any signedIn_tests.2)

omit [DecidableEq ι] in
theorem resolves_of_foundUser {e : Happening ι} {u : ℕ} (h : foundUser e = some u) :
    Resolves u e := by
  unfold foundUser at h
  split at h
  · exact .refresh (Option.some.inj h)
  · cases h

/-- The lookup of the logout from all devices finds the user. -/
theorem loggedOut_resolves : ∃ e ∈ loggedOut.state.history 4, Resolves 0 e := by
  obtain ⟨e, he, hu⟩ := Option.bind_eq_some_iff.1 loggedOut_tests.1
  exact ⟨e, List.mem_of_getElem? he, resolves_of_foundUser hu⟩

end Demo

/-- The token of the refresh in flight is revoked by the logout. -/
theorem logout_ends_sessions_rotated :
    (Demo.loggedOut.state.shared.refreshTokens.stored 1).isSome ∧
      (∃ e ∈ Demo.loggedOut.state.history 4, TakesLock 0 e) ∧
        ∀ k r, CreatedBefore 4 0 k Demo.loggedOut.state →
          Demo.loggedOut.state.shared.refreshTokens.stored k = some r → r.userId = 0 →
            r.revokedAt.isSome := by
  obtain ⟨-, hanswered, hsecond⟩ := Demo.loggedOut_tests
  exact ⟨hsecond, (logout_ends_sessions Demo.env Demo.tokensSound_world (fun _ ↦ rfl)
    Demo.logoutCalls rfl (Demo.reaches_after _ _ _) (List.isEmpty_iff.1 Demo.signedIn_tests.1)
    (Demo.reaches_after _ _ _) (Config.answered_iff.2 hanswered)).2 rfl 0
      Demo.loggedOut_resolves⟩

end Stead
