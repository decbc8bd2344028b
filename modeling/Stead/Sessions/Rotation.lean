import Stead.Sessions.SignIn

/-!
# Refreshing a session

`refreshSession` replaces a live token, and kills the family of a token that it sees revoked: by its
lookup, or by a claim that comes too late. What a call has seen is read off its record
(`ShowsRevoked`), so the postcondition speaks of the call's own view and not of the branch it took.

## What a call owes

`Saw` says that every family of which the call has seen a revoked token has a property, and
`Punished` that it is dead. Most statements show nothing (`Op.blind`), and what was seen stays seen.

## The transaction

The claim of the old token is conditional on its being live, under the lock of its user, so at most
one transaction replaces a token (`rotateBody_triple`). The new token is inserted, then the old one
is linked to it, and the chain is linear with the link from the insertion on. Who comes too late
looks the token up again, finds it revoked and kills the family (`rotate_triple`).
-/

namespace Stead

open Concurrency Protocol

variable {ι : Type}

/-- A statement that shows a token of the family revoked: a lookup that finds it so, or a claim that
comes after its revocation. -/
inductive ShowsRevoked (F : ℕ) : Happening ι → Prop
  | lookup {i : ι} {w t : World ι} {hash : Digest} {existing : Keyed RefreshToken} {phone : String}
      (hrevoked : existing.row.revokedAt.isSome) (hF : existing.row.familyId = F) :
      ShowsRevoked F ⟨i, w, .refreshToken (.findByHash hash), .ok (some (existing, phone)), t⟩
  | claim {i : ι} {w t : World ι} {id : ℕ} {now after : ℤ} {row : RefreshToken}
      {r : Except StatementError Bool} (hrow : w.refreshTokens.stored id = some row)
      (hrevoked : row.revokedAt.isSome) (hF : row.familyId = F) :
      ShowsRevoked F ⟨i, w, .refreshToken (.claim id now after), r, t⟩

/-- A statement that shows nothing of the kind. -/
def Op.blind : Op → Bool
  | .refreshToken (.findByHash _) | .refreshToken (.claim _ _ _) => false
  | _ => true

/-- A blind statement shows nothing. -/
theorem not_showsRevoked {i : ι} {op : Op} {r : Statements.Resp op} {w t : World ι} {F : ℕ}
    (hop : op.blind = true) : ¬ ShowsRevoked F ⟨i, w, op, r, t⟩ := by
  intro h
  cases h <;> cases hop

/-- Token `k` is committed as revoked. -/
def Revoked (k : ℕ) (s : History ι) : Prop :=
  ∃ r, s.shared.refreshTokens.stored k = some r ∧ r.revokedAt.isSome

variable [DecidableEq ι]

/-- The families of which the thread has seen revoked tokens meet `p`. -/
def Saw (i : ι) (p : ℕ → Prop) (s : History ι) : Prop :=
  ∀ e ∈ s.history i, ∀ F, ShowsRevoked F e → p F

/-- The thread has seen no revoked token. -/
abbrev SawNone (i : ι) (s : History ι) : Prop := Saw i (fun _ ↦ False) s

/-- How a refresh ends in an error that has seen a revoked token: a statement of its own failed, or
it is rejected as unauthorised and the family is dead. -/
def Punished (i : ι) (e : Failure) (s : History ι) : Prop :=
  DbFailed i s ∨ SawNone i s ∨
    ∃ F, Saw i (· = F) s ∧ e = INVALID_REFRESH_TOKEN ∧ s.shared.Dead F

section Saw

variable {crypto : Crypto} {i : ι} {p q : ℕ → Prop} {s : History ι}

theorem Saw.mono (hs : Saw i p s) (hpq : ∀ F, p F → q F) : Saw i q s :=
  fun e he F hF ↦ hpq F (hs e he F hF)

theorem Saw.of_none (hs : SawNone i s) : Saw i p s := hs.mono fun _ ↦ False.elim

theorem Saw.after {op : Op} {r : Statements.Resp op} {t : World ι} (hs : Saw i p s)
    (h : ∀ F, ShowsRevoked F ⟨i, s.shared, op, r, t⟩ → p F) : Saw i p (s.after i op r t) := by
  intro e he F hF
  rw [State.after_history_self, List.mem_append, List.mem_singleton] at he
  rcases he with he | rfl
  · exact hs e he F hF
  · exact h F hF

theorem Saw.after_blind {op : Op} {r : Statements.Resp op} {t : World ι} (hs : Saw i p s)
    (hop : op.blind = true) : Saw i p (s.after i op r t) :=
  hs.after fun _ hF ↦ absurd hF (not_showsRevoked hop)

theorem saw_stable : (sessions crypto).Stable i (Saw i p) :=
  Stable.history (H := fun h ↦ ∀ e ∈ h, ∀ F, ShowsRevoked F e → p F)

/-- A program that looks up and claims nothing sees nothing. -/
theorem saw_frame {α : Type} {prog : Call α} {Pre : History ι → Prop} {Q : α → History ι → Prop}
    {E : Failure → History ι → Prop} (h : (sessions crypto).Triple i Pre prog Q E)
    (hprog : prog.All (Op.blind · = true)) :
    (sessions crypto).Triple i (fun s ↦ Pre s ∧ Saw i p s) prog (fun a s ↦ Q a s ∧ Saw i p s)
      fun e s ↦ E e s ∧ Saw i p s :=
  h.frame hprog saw_stable fun _ hop _ _ _ _ _ _ _ _ _ hs ↦ hs.after_blind hop

/-- A statement that sees nothing and spares tokens and locks. -/
theorem blind_bind {α : Type} {op : Op} {f : op.Ret → Call α} {R : History ι → Prop}
    {Q : α → History ι → Prop} {E : Failure → History ι → Prop} (hR : Settled crypto i R)
    (hop : op.Abstains) (hblind : op.blind = true)
    (hsure : op.onDatabase = true ∨ op.fragile = false) (hE : ∀ e s, DbFailed i s → E e s)
    (hk : ∀ a, (sessions crypto).Triple i (fun s ↦ R s ∧ Saw i p s) (f a) Q E) :
    (sessions crypto).Triple i (fun s ↦ R s ∧ Saw i p s) (run op >>= f) Q E :=
  sessions_run_bind hsure (fun _ s ↦ R s ∧ Saw i p s) (hR.stable.and saw_stable)
    (fun s _ _ _ hs hp hx ↦
      have h := sessions_spares hs hop.spares hx
      ⟨h.1, h.2, fun _ _ ↦ ⟨hR.quiet s _ (exec_quiet hop hx) hp.1, hp.2.after_blind hblind⟩⟩) hE hk

/-- What is revoked stays so. -/
theorem revoked_lasting (k : ℕ) : (sessions crypto).Lasting (Revoked k : History ι → Prop) := by
  rintro j s s' hs - hm - ⟨r, hr, hrev⟩
  obtain ⟨r', hr', hle⟩ := hs.1.move_stored hm hr
  exact ⟨r', hr', hle.revoked hrev⟩

end Saw

section Lookup

variable {crypto : Crypto} {i : ι} {x : Choice} {s : History ι} {t : World ι}

/-- **A lookup** finds the token with the hash, as it is committed. -/
theorem findByHash_cases {hash : Digest} {a : Option (Keyed RefreshToken × String)}
    (h : exec crypto i x (.refreshToken (.findByHash hash)) s.shared = some (.ok a, t)) :
    t.refreshTokens = s.shared.refreshTokens ∧
      ((a = none ∧ ∀ k r, s.shared.refreshTokens.stored k = some r → r.tokenHash ≠ hash) ∨
        ∃ existing phone, a = some (existing, phone) ∧
          s.shared.refreshTokens.stored existing.id = some existing.row ∧
            existing.row.tokenHash = hash) := by
  cases perform_of_exec_ok h
  refine ⟨rfl, ?_⟩
  set rows := s.shared.refreshTokens.select none fun r ↦ r.tokenHash = hash with hrows
  have hmem : ∀ r, r ∈ rows ↔ s.shared.refreshTokens.stored r.id = some r.row ∧
      r.row.tokenHash = hash := by
    intro r
    rw [hrows, Table.mem_select, Cell.view_none, decide_eq_true_iff]
    rfl
  cases hhead : rows.head? with
  | none =>
    refine .inl ⟨by simp [World.elapse, ← hrows, hhead], fun k r hr hh ↦ ?_⟩
    have := (hmem ⟨k, r⟩).2 ⟨hr, hh⟩
    rw [List.head?_eq_none_iff.1 hhead] at this
    cases this
  | some existing =>
    refine .inr ⟨existing, _, by simp [World.elapse, ← hrows, hhead]; rfl, ?_⟩
    exact (hmem existing).1 (List.mem_of_head? hhead)

end Lookup

/-- The outcome of the transaction of a rotation: the token was live, or what is known of it without
that. -/
def Rotated (i : ι) (existing : Keyed RefreshToken) : Option VerifyOtpResponse → History ι → Prop
  | some _, s => SawNone i s
  | none, s => (Since existing.id existing.row s ∧ Saw i (· = existing.row.familyId) s) ∧
      (SawNone i s ∨ Revoked existing.id s)

omit [DecidableEq ι] in
/-- A token has been of its family's owner since it was read. -/
theorem Since.owner {k : ℕ} {r : RefreshToken} {s : History ι} (h : Since k r s) :
    Owner r.familyId r.userId s := by
  obtain ⟨r', hr', hle⟩ := h
  exact ⟨k, r', hr', hle.familyId, hle.userId⟩

section Rotation

variable (env : Env) {i : ι}

/-- What has been rotated stays so. -/
theorem rotated_stable (existing : Keyed RefreshToken) (a : Option VerifyOtpResponse) :
    (sessions env.crypto).Stable i (Rotated i existing a) := by
  cases a with
  | some a => exact saw_stable
  | none =>
    rintro s s' hr ⟨⟨hsince, hsaw⟩, h⟩
    refine ⟨⟨(since_lasting _ _).stable s s' hr hsince, saw_stable s s' hr hsaw⟩, ?_⟩
    exact h.imp (saw_stable s s' hr) ((revoked_lasting _).stable s s' hr)

/-- The successor of a token that the thread has claimed. -/
theorem createRefreshTokenRow_triple_replace {u a F : ℕ} {deviceHash : Option Digest}
    {familyCreatedAt : ℤ} {rawToken : ℕ} :
    (sessions env.crypto).Triple i (fun s ↦ InTx i u s ∧ Claiming i u a F s)
      (createRefreshTokenRow env u F deviceHash familyCreatedAt rawToken)
      (fun n s ↦ (Holds i u s ∧ LinearOn u (linked a n (s.shared.tokens i))) ∧ Claiming i u a F s)
      fun _ _ ↦ True := by
  have hR : Settled env.crypto i fun s ↦ InTx i u s ∧ Claiming i u a F s :=
    (settled_inTx u).and (settled_claiming u a F)
  have hE : ∀ (e : Failure) (s : History ι), DbFailed i s → True := fun _ _ _ ↦ trivial
  refine spare_bind hR ⟨trivial, fun _ ↦ nofun⟩ (.inr rfl) hE fun now ↦
    triple_lift_bind (fun lifetime _ ↦ ?_) fun _ _ ↦ .throw hR.stable fun _ _ _ ↦ trivial
  refine sessions_run (.inl rfl)
    (fun n ↦ (linked_stable u a n).and (claiming_stable u a F)) hR.stable
    (fun s x r t hs hp hx ↦ ?_) hE
  obtain ⟨hi, hg, hholds⟩ := sessions_write hs hp.1.1 (mayWrite_create rfl (.inr ⟨a, hp.2⟩)) hx
  refine ⟨hi, hg, fun n hr ↦ ⟨⟨hholds, ?_⟩, claiming_create hp.2 hx⟩⟩
  subst hr
  exact linearOn_replace hp.1.2 hp.2 rfl hx

/-- **The transaction of a rotation.** -/
theorem rotateBody_triple (existing : Keyed RefreshToken) (phone : String) (familyMaxAgeMs : ℕ)
    (deviceHash : Option Digest) :
    (sessions env.crypto).Triple i
      (fun s ↦ (Idle i s ∧ Since existing.id existing.row s) ∧ SawNone i s)
      (rotateBody env existing phone familyMaxAgeMs deviceHash)
      (fun a s ↦ InTx i existing.row.userId s ∧ Rotated i existing a s)
      fun _ s ↦ DbFailed i s ∨ SawNone i s := by
  set u := existing.row.userId with hu
  set F := existing.row.familyId with hF
  have hE : ∀ (e : Failure) (s : History ι), DbFailed i s → DbFailed i s ∨ SawNone i s :=
    fun _ _ ↦ .inl
  have hidle : Settled env.crypto i fun s ↦ Idle i s ∧ Since existing.id existing.row s :=
    settled_idle.and (settled_since _ _)
  have hin : Settled env.crypto i fun s ↦ InTx i u s ∧ Since existing.id existing.row s :=
    (settled_inTx u).and (settled_since _ _)
  have hclaimed : Settled env.crypto i fun s ↦ InTx i u s ∧ Claiming i u existing.id F s :=
    (settled_inTx u).and (settled_claiming _ _ _)
  refine sessions_run_bind (.inl rfl)
    (fun _ s ↦ (InTx i u s ∧ Since existing.id existing.row s) ∧ SawNone i s)
    (hidle.stable.and saw_stable) (fun s x r t hs hp hx ↦ ?_) hE fun _ ↦ ?_
  · have hop : (Op.lockRefreshUser u).Spares := trivial
    have h := sessions_spares hs hop hx
    refine ⟨h.1, h.2, fun a hr ↦ ⟨⟨holds_lock hs.1 hp.1.1 hx hr, ?_⟩, hp.2.after_blind rfl⟩⟩
    exact since_lasting _ _ i s _ hs h.1 (.stmt trivial hx) h.2 hp.1.2
  refine blind_bind hin ⟨trivial, fun _ ↦ nofun⟩ rfl (.inr rfl) hE fun now ↦ ?_
  refine sessions_run_bind (.inl rfl)
    (fun claimed s ↦ if claimed = true then
        (InTx i u s ∧ Claiming i u existing.id F s) ∧ SawNone i s
      else InTx i u s ∧ Rotated i existing none s)
    (hin.stable.and saw_stable) (fun s x r t hs hp hx ↦ ?_) hE fun claimed ↦ ?_
  · obtain ⟨⟨⟨hholds, hlin⟩, hsince⟩, hsaw⟩ := hp
    obtain ⟨hi, hg, hholds'⟩ := sessions_write hs hholds (mayWrite_claim hs.1 hsince rfl) hx
    have hlin' := hlin.aged (claim_agedOn hx)
    refine ⟨hi, hg, fun claimed hr ↦ ?_⟩
    subst hr
    cases claimed with
    | true =>
      rw [if_pos rfl]
      have hclaim := claiming_claim hs.1 hlin hsince rfl hx
      refine ⟨⟨⟨hholds', hlin'⟩, hclaim⟩, hsaw.after fun F' hF' ↦ ?_⟩
      -- The claim found the token live.
      obtain ⟨-, row, hrow, hlive⟩ := hclaim
      rw [State.after_shared, exec_write_stored rfl hx] at hrow
      cases hF' with
      | claim hrow' hrevoked _ =>
        cases hrow.symm.trans hrow'
        simp [hlive] at hrevoked
    | false =>
      rw [if_neg Bool.false_ne_true]
      obtain ⟨row, hrow, hle⟩ := hsince
      have hsince' := since_lasting existing.id existing.row i s _ hs hi (.stmt trivial hx) hg
        ⟨row, hrow, hle⟩
      refine ⟨⟨hholds', hlin'⟩, ⟨hsince', (Saw.of_none hsaw).after fun F' hF' ↦ ?_⟩, ?_⟩
      · cases hF' with
        | claim hrow' _ hfamily =>
          cases hrow.symm.trans hrow'
          exact hfamily.symm.trans hle.familyId
      · by_cases hrevoked : row.revokedAt.isSome
        · refine .inr ⟨row, ?_, hrevoked⟩
          rw [State.after_shared, exec_write_stored rfl hx]
          exact hrow
        · refine .inl (hsaw.after fun F' hF' ↦ ?_)
          cases hF' with
          | claim hrow' hrevoked' _ =>
            cases hrow.symm.trans hrow'
            exact hrevoked hrevoked'
  · cases claimed with
    | false =>
      simp only [Bool.false_eq_true, if_false]
      exact .pure ((settled_inTx u).stable.and (rotated_stable env existing none))
        fun _ _ h ↦ h
    | true =>
      simp only [if_true]
      refine (saw_frame (E := fun _ _ ↦ True) (Q := fun a s ↦ InTx i u s ∧ a.isSome) ?_ ?_).post
        (fun a s _ h ↦ ?_) fun _ _ _ h ↦ .inr h.2
      · have htrue : ∀ (e : Failure) (s : History ι), DbFailed i s → True := fun _ _ _ ↦ trivial
        have hafter : Settled env.crypto i (InTx i u) := settled_inTx u
        refine spare_bind hclaimed ⟨trivial, fun _ ↦ nofun⟩ (.inr rfl) htrue fun rawToken ↦
          .bind (createRefreshTokenRow_triple_replace env) fun created ↦ ?_
        refine sessions_run_bind (.inl rfl) (fun _ ↦ InTx i u)
          ((linked_stable u existing.id created).and (claiming_stable u existing.id F))
          (fun s x r t hs hp hx ↦ ?_) htrue fun _ ↦ ?_
        · obtain ⟨hi, hg, hholds⟩ := sessions_write hs hp.1.1 (mayWrite_link hp.2) hx
          refine ⟨hi, hg, fun _ hr ↦ ⟨hholds, ?_⟩⟩
          subst hr
          exact linearOn_link hp.1.2 hx
        refine .bind (R := fun _ ↦ InTx i u) ((spares_triple hafter
          ((signAccessToken_all env _ _).mono fun _ h ↦ .of_reads (Op.reads_of_looks h))).post (fun _ _ _ h ↦ h)
          fun _ _ _ _ ↦ trivial) fun token ↦
            triple_lift_bind (fun expiresIn _ ↦ ?_) fun _ _ ↦ .throw hafter.stable fun _ _ _ ↦ trivial
        exact .pure hafter.stable fun _ _ h ↦ ⟨h, rfl⟩
      · refine .run_bind rfl fun _ ↦ .bind (.run_bind rfl fun _ ↦ .lift_bind fun _ ↦ .run rfl)
          fun _ ↦ .run_bind rfl fun _ ↦ .bind (.lift_bind fun _ ↦ .run rfl) fun _ ↦
            .lift_bind fun _ ↦ trivial
      · cases a with
        | none => exact absurd h.1.2 Bool.false_ne_true
        | some a => exact ⟨h.1.1, h.2⟩

/-- Killing the family of a token that was seen revoked, and rejecting the call. -/
theorem punish_triple {α : Type} {u F : ℕ} {Q : α → History ι → Prop} :
    (sessions env.crypto).Triple i (fun s ↦ (Idle i s ∧ Owner F u s) ∧ Saw i (· = F) s)
      (do let _ ← revokeRefreshFamily F u
          throw INVALID_REFRESH_TOKEN) Q (Punished i) := by
  refine .bind (R := fun _ s ↦ (Idle i s ∧ s.shared.Dead F) ∧ Saw i (· = F) s)
    ((saw_frame (p := (· = F)) (revokeRefreshTokens_triple env _) ?_).conseq ?_ ?_ ?_) fun _ ↦
      .throw ((idle_stable.and (dead_lasting F).stable).and saw_stable) fun s _ h ↦
        .inr (.inr ⟨F, h.2, rfl, h.1.2⟩)
  · exact .transaction (.run_bind rfl fun _ ↦ .run_bind rfl fun _ ↦
      .run_bind rfl fun _ ↦ .run rfl) rfl rfl
  · exact fun s _ h ↦ ⟨⟨h.1.1, .inr ⟨F, rfl, h.1.2⟩⟩, h.2⟩
  · exact fun _ s _ h ↦ ⟨⟨h.1.1, h.1.2 F rfl⟩, h.2⟩
  · exact fun _ _ _ h ↦ .inl h.1

/-- What a lookup of a token of the family tells. -/
theorem saw_lookup {s : History ι} {t : World ι} {hash : Digest}
    {a : Option (Keyed RefreshToken × String)} {p : ℕ → Prop}
    (hs : Saw i p s) (hp : ∀ c ∈ a, c.1.row.revokedAt.isSome → p c.1.row.familyId) :
    Saw i p (s.after i (.refreshToken (.findByHash hash)) (.ok a) t) := by
  refine hs.after fun F hF ↦ ?_
  cases hF with
  | lookup hrevoked hfamily => exact hfamily ▸ hp _ rfl hrevoked

/-- **A rotation** of a token that was live when it was read. -/
theorem rotate_triple (existing : Keyed RefreshToken) (phone : String) (familyMaxAgeMs : ℕ)
    (deviceHash : Option Digest) :
    (sessions env.crypto).Triple i
      (fun s ↦ (Idle i s ∧ Since existing.id existing.row s) ∧ SawNone i s)
      (rotate env existing.row.tokenHash existing phone familyMaxAgeMs deviceHash)
      (fun _ ↦ SawNone i) (Punished i) := by
  set F := existing.row.familyId with hF
  refine .bind (R := fun a s ↦ Idle i s ∧ Rotated i existing a s) ((transaction_triple
    (X := Rotated i existing) (Y := Rotated i existing) (rotateBody_triple env existing phone
      familyMaxAgeMs deviceHash) (fun a ↦ (settled_inTx _).stable.and (rotated_stable env existing a))
    (fun _ ↦ ?_) (fun e s t h ↦ ?_) (fun _ _ ↦ .inl) (rotated_stable env existing)
    fun a s t _ h _ hs hs' hm hg ↦ ?_).post (fun _ _ _ h ↦ h) fun _ _ _ h ↦ h.imp id .inl)
    fun a ↦ ?_
  · rintro s s' hr (h | h)
    · exact .inl (dbFailed_stable s s' hr h)
    · exact .inr (saw_stable s s' hr h)
  · refine h.imp ?_ fun h ↦ h.after_blind rfl
    rintro ⟨ev, hev, hfailed⟩
    refine ⟨ev, ?_, hfailed⟩
    rw [State.after_history_self]
    exact List.mem_append_left _ hev
  · cases a with
    | some a => exact h.after_blind rfl
    | none =>
      exact ⟨⟨since_lasting _ _ i s _ hs hs' hm hg h.1.1, h.1.2.after_blind rfl⟩,
        h.2.imp (fun h ↦ h.after_blind rfl) (revoked_lasting _ i s _ hs hs' hm hg)⟩
  cases a with
  | some session => exact .pure (idle_stable.and saw_stable) fun _ _ h ↦ h.2
  | none =>
    refine sessions_run_bind (.inl rfl) (fun current s ↦
        ((Idle i s ∧ Owner F existing.row.userId s) ∧ Saw i (· = F) s) ∧
          (SawNone i s ∨ ∃ c ∈ current, c.1.row.revokedAt.isSome))
      (idle_stable.and (rotated_stable env existing none)) (fun s x r t hs hp hx ↦ ?_)
      (fun _ _ ↦ .inl) fun current ↦ ?_
    · obtain ⟨hidle, ⟨⟨row, hrow, hle⟩, hsaw⟩, hknown⟩ := hp
      have hop : (Op.refreshToken (.findByHash existing.row.tokenHash)).Abstains := .of_reads rfl
      have h := sessions_spares hs hop.spares hx
      refine ⟨h.1, h.2, fun current hr ↦ ?_⟩
      subst hr
      have hq := exec_quiet hop hx
      have howner : Owner F existing.row.userId s := Since.owner ⟨row, hrow, hle⟩
      have hidle' : Settled env.crypto i fun s ↦ Idle i s ∧ Owner F existing.row.userId s :=
        settled_idle.and (settled_owner _ _)
      -- What the lookup finds is the token that was read first.
      have hsame : (current = none → False) ∧ ∀ c ∈ current, c.1.row = row := by
        rcases (findByHash_cases hx).2 with ⟨hnone, habsent⟩ | ⟨c, phone, rfl, hc, hhash⟩
        · exact (habsent _ row hrow hle.tokenHash).elim
        · refine ⟨nofun, fun c' hc' ↦ ?_⟩
          cases hc'
          have hid := hs.1.hashes c.id existing.id c.row row (.inl hc) (.inl hrow)
            (hhash.trans hle.tokenHash.symm)
          exact Option.some.inj (hc.symm.trans (hid ▸ hrow))
      refine ⟨⟨hidle'.quiet s _ hq ⟨hidle, howner⟩, saw_lookup hsaw fun c hc _ ↦
        (congrArg RefreshToken.familyId (hsame.2 c hc)).trans hle.familyId⟩, ?_⟩
      by_cases hrevoked : row.revokedAt.isSome
      · cases current with
        | none => exact (hsame.1 rfl).elim
        | some c => exact .inr ⟨c, rfl, (hsame.2 c rfl).symm ▸ hrevoked⟩
      · rcases hknown with hnone | ⟨row', hrow', hrevoked'⟩
        · exact .inl (saw_lookup hnone fun c hc hrevoked' ↦ hrevoked (hsame.2 c hc ▸ hrevoked'))
        · cases hrow.symm.trans hrow'
          exact absurd hrevoked' hrevoked
    · have hstable : (sessions env.crypto).Stable i fun s ↦
          ((Idle i s ∧ Owner F existing.row.userId s) ∧ Saw i (· = F) s) ∧
            (SawNone i s ∨ ∃ c ∈ current, c.1.row.revokedAt.isSome) := fun s s' hr hs ↦
        ⟨((idle_stable.and (owner_lasting _ _).stable).and saw_stable) s s' hr hs.1,
          hs.2.imp (saw_stable s s' hr) id⟩
      match current with
      | none =>
        exact .throw hstable fun s _ h ↦ .inr (.inl (h.2.resolve_right fun ⟨_, hc, _⟩ ↦ nomatch hc))
      | some (current, phone) =>
        refine .ite (fun _ ↦ (punish_triple env).pre fun _ _ h ↦ h.1) fun hlive ↦
          .throw hstable fun s _ h ↦ .inr (.inl (h.2.resolve_right ?_))
        rintro ⟨c, hc, hrevoked⟩
        cases hc
        exact hlive hrevoked

/-- What a refresh knows after it has looked its token up. -/
def LookedUp (i : ι) (found : Option (Keyed RefreshToken × String)) (s : History ι) : Prop :=
  match found with
  | none => SawNone i s
  | some (existing, _) => (Idle i s ∧ Since existing.id existing.row s) ∧
      Saw i (fun F ↦ F = existing.row.familyId ∧ existing.row.revokedAt.isSome) s

/-- **A refresh** that sees its token revoked is rejected, and the family is dead. -/
theorem refreshSession_triple (refreshToken : ℕ) (context : AuthRequestContext) :
    (sessions env.crypto).Triple i (fun s ↦ Idle i s ∧ SawNone i s)
      (refreshSession env refreshToken context) (fun _ ↦ SawNone i) (Punished i) := by
  have hE : ∀ (e : Failure) (s : History ι), DbFailed i s → Punished i e s := fun _ _ ↦ .inl
  have hnone : ∀ {α : Type} {e : Failure} {Q : α → History ι → Prop},
      (sessions env.crypto).Triple i (SawNone i) (.throw e : Call α) Q (Punished i) :=
    .throw saw_stable fun _ _ h ↦ .inr (.inl h)
  refine sessions_run_bind (.inl rfl) (fun found s ↦ (∀ c ∈ found, c.1.row.tokenHash =
      env.crypto.hashRefreshToken refreshToken) ∧ LookedUp i found s)
    (idle_stable.and saw_stable) (fun s x r t hs hp hx ↦ ?_) hE fun found ↦ .assume fun hhash ↦ ?_
  · have hop : (Op.refreshToken (.findByHash
      (env.crypto.hashRefreshToken refreshToken))).Abstains := .of_reads rfl
    have h := sessions_spares hs hop.spares hx
    have hidle : Settled env.crypto i (Idle i) := settled_idle
    have hidle' := hidle.quiet s _ (exec_quiet hop hx) hp.1
    refine ⟨h.1, h.2, fun found hr ↦ ?_⟩
    subst hr
    obtain ⟨htokens, ⟨rfl, -⟩ | ⟨existing, phone, rfl, hrow, hhash⟩⟩ := findByHash_cases hx
    · exact ⟨nofun, saw_lookup hp.2 nofun⟩
    · refine ⟨fun c hc ↦ ?_, ⟨hidle', existing.row, ?_, .refl _⟩, ?_⟩
      · cases hc
        exact hhash
      · rw [State.after_shared, htokens]
        exact hrow
      · refine saw_lookup (Saw.of_none hp.2) fun c hc hrevoked ↦ ?_
        cases hc
        exact ⟨rfl, hrevoked⟩
  match found with
  | none => exact hnone
  | some (existing, phone) =>
    have hidle : Settled env.crypto i fun s ↦ Idle i s ∧ Since existing.id existing.row s :=
      settled_idle.and (settled_since _ _)
    have hpunish : ∀ {α : Type} {p : ℕ → Prop} {Q : α → History ι → Prop},
        (∀ F, p F → F = existing.row.familyId) → (sessions env.crypto).Triple i
          (fun s ↦ (Idle i s ∧ Since existing.id existing.row s) ∧ Saw i p s)
          (do let _ ← revokeRefreshFamily existing.row.familyId existing.row.userId
              throw INVALID_REFRESH_TOKEN) Q (Punished i) := fun hp ↦
      (punish_triple env).pre fun _ _ h ↦ ⟨⟨h.1.1, Since.owner h.1.2⟩, h.2.mono hp⟩
    refine .ite (fun _ ↦ hpunish fun _ h ↦ h.1) fun hlive ↦ ?_
    -- From here on the token was live when it was read, and nothing else has been seen.
    suffices hfrom : (sessions env.crypto).Triple i
        (fun s ↦ (Idle i s ∧ Since existing.id existing.row s) ∧ SawNone i s) _
        (fun _ ↦ SawNone i) (Punished i) from
      hfrom.pre fun _ _ h ↦ ⟨h.1, h.2.mono fun _ hF ↦ hlive hF.2⟩
    have hthrow : ∀ {α : Type} {e : Failure} {Q : α → History ι → Prop},
        (sessions env.crypto).Triple i
          (fun s ↦ (Idle i s ∧ Since existing.id existing.row s) ∧ SawNone i s)
          (.throw e : Call α) Q (Punished i) := hnone.pre fun _ _ h ↦ h.2
    have hnow : (Op.host .now).Abstains := .of_reads rfl
    refine blind_bind hidle hnow rfl (.inr rfl) hE fun now ↦ .ite (fun _ ↦ ?_) fun _ ↦ ?_
    · refine blind_bind hidle hnow rfl (.inr rfl) hE fun revokedAt ↦ ?_
      refine sessions_run_bind (.inl rfl) (fun _ ↦ SawNone i) (hidle.stable.and saw_stable)
        (fun s x r t hs hp hx ↦ ?_) hE fun _ ↦ hnone
      have h := sessions_expire hs hx
      exact ⟨h.1, h.2, fun _ _ ↦ hp.2.after_blind rfl⟩
    refine triple_lift_bind (fun familyMaxAgeMs _ ↦ ?_) fun _ _ ↦ hthrow
    refine blind_bind hidle hnow rfl (.inr rfl) hE fun now ↦
      .ite (fun _ ↦ hpunish fun _ ↦ False.elim) fun _ ↦ ?_
    refine triple_lift_bind (fun deviceHash _ ↦ ?_) fun _ _ ↦ hthrow
    refine .ite (fun _ ↦ ?_) fun _ ↦ hthrow
    rw [← hhash _ rfl]
    exact rotate_triple env existing phone familyMaxAgeMs deviceHash

end Rotation

end Stead
