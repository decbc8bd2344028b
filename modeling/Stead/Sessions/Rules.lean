import Stead.Sessions.Transactions

/-!
# Rules for the calls on sessions

The rules of `Model.Logic` for the protocol of `Sessions.Protocol`: a statement, a statement that
touches neither tokens nor locks, and a transaction under the lock of a user.

## Assertions

The assertions of `Sessions.Transactions` are `Settled`: neither other threads nor statements that
keep off the tokens falsify them. For each of them that is one lemma here, and the rules ask for it
as a hypothesis, so that the programs are followed without a thought about interference.

## Errors

An error of a statement on the database is on the record (`DbFailed`). A transaction that fails is
rolled back by the call (`transaction_triple`) or with its thread; after the rollback the thread
holds no lock and has nothing pending, whatever it failed at.
-/

namespace Stead

open Concurrency Protocol

variable {ι : Type} [DecidableEq ι]

/-- Statements on the database, as opposed to what the process does by itself. -/
def Op.onDatabase : Op → Bool
  | .host _ => false
  | _ => true

/-- A statement that touches neither tokens nor locks. -/
structure Op.Abstains (op : Op) : Prop where
  spares : op.Spares
  lock : ∀ u, op ≠ .lockRefreshUser u

/-- A database statement that failed. -/
def FailedOnDatabase (e : Happening ι) : Prop :=
  Op.onDatabase e.op = true ∧ ∃ err, e.resp = Except.error err

/-- A database statement of the thread has failed. -/
def DbFailed (i : ι) (s : History ι) : Prop := ∃ e ∈ s.history i, FailedOnDatabase e

/-- Nothing has happened to the tokens and locks; what the thread has executed is still there. -/
structure Quiet (i : ι) (s s' : History ι) : Prop where
  same : SameTokens s.shared s'.shared
  locks : s'.shared.advisoryLocks = s.shared.advisoryLocks
  history : ∀ e ∈ s.history i, e ∈ s'.history i

/-- An assertion about tokens and locks that others leave alone. -/
structure Settled (crypto : Crypto) (i : ι) (R : History ι → Prop) : Prop where
  stable : (sessions crypto).Stable i R
  quiet : ∀ s s', Quiet i s s' → R s → R s'

/-- The transaction of the thread holds the lock of user `u` and sees the user's chains linear. -/
def InTx (i : ι) (u : ℕ) (s : History ι) : Prop :=
  Holds i u s ∧ LinearOn u (s.shared.tokens i)

/-- The scope of a revocation lies within the tokens of the user. -/
def Scoped (scope : RevokeWhere) (u : ℕ) (s : History ι) : Prop :=
  scope.userId = some u ∨ ∃ F, scope.familyId = some F ∧ Owner F u s

section Settled

variable {crypto : Crypto} {i : ι} {s s' : History ι}

theorem Settled.and {R R' : History ι → Prop} (h : Settled crypto i R)
    (h' : Settled crypto i R') : Settled crypto i fun s ↦ R s ∧ R' s :=
  ⟨h.stable.and h'.stable, fun s s' hq hs ↦ ⟨h.quiet s s' hq hs.1, h'.quiet s s' hq hs.2⟩⟩

theorem settled_true : Settled crypto i fun _ ↦ True := ⟨.const, fun _ _ _ h ↦ h⟩

theorem settled_idle : Settled crypto i (Idle i) :=
  ⟨idle_stable, fun _ _ hq hs u ↦ hq.locks ▸ hs u⟩

theorem Quiet.holds (hq : Quiet i s s') {u : ℕ} (hs : Holds i u s) : Holds i u s' := by
  refine ⟨fun v ↦ hq.locks ▸ hs.lock v, fun k r hp hlive ↦ ?_⟩
  rw [hq.same.pending] at hp ⊢
  rw [hq.same.stored]
  exact hs.live k r hp hlive

theorem settled_inTx (u : ℕ) : Settled crypto i (InTx i u) :=
  ⟨linearOn_stable u, fun _ _ hq hs ↦ ⟨hq.holds hs.1, (hq.same.tokens i).symm ▸ hs.2⟩⟩

theorem settled_claiming (u a F : ℕ) : Settled crypto i (Claiming i u a F) := by
  refine ⟨claiming_stable u a F, fun s s' hq hs ↦ ?_⟩
  rw [Claiming, hq.same.pending, hq.same.stored]
  exact hs

theorem settled_drew (F : ℕ) : Settled crypto i (Drew i F) := by
  refine ⟨drew_stable F, fun s s' hq hs ↦ ⟨?_, fun k r hv ↦ hs.2 k r (hq.same.version.1 hv)⟩⟩
  obtain ⟨e, he, hdraw⟩ := hs.1
  exact ⟨e, hq.history e he, hdraw⟩

theorem settled_owner (F u : ℕ) : Settled crypto i (Owner F u) := by
  refine ⟨(owner_lasting F u).stable, fun s s' hq hs ↦ ?_⟩
  rw [Owner, hq.same.stored]
  exact hs

theorem settled_since (k : ℕ) (r : RefreshToken) : Settled crypto i (Since k r) := by
  refine ⟨(since_lasting k r).stable, fun s s' hq hs ↦ ?_⟩
  rw [Since, hq.same.stored]
  exact hs

theorem scoped_lasting (scope : RevokeWhere) (u : ℕ) :
    (sessions crypto).Lasting (Scoped scope u : History ι → Prop) := by
  rintro j s s' hs hs' hm hg (h | ⟨F, hF, h⟩)
  · exact .inl h
  · exact .inr ⟨F, hF, owner_lasting F u j s s' hs hs' hm hg h⟩

omit [DecidableEq ι] in
theorem Scoped.userId {scope : RevokeWhere} {u : ℕ} (h : Scoped scope u s)
    (hs : TokensSound s.shared) {k : ℕ} {r : RefreshToken} (hr : s.shared.Version k r)
    (hc : scope.covers r = true) : r.userId = u := by
  simp only [RevokeWhere.covers, Bool.and_eq_true] at hc
  rcases h with h | ⟨F, hF, h⟩
  · have := hc.1.2
    rw [h] at this
    simpa [eq_comm] using this
  · have := hc.2
    rw [hF] at this
    exact hs.userId_of_owner h hr (by simpa [eq_comm] using this)

end Settled

/-! ### Rules for the statements -/

section Rules

variable {crypto : Crypto} {i : ι} {α : Type} {Pre : History ι → Prop}
  {Q : α → History ι → Prop} {E : Failure → History ι → Prop}

/-- A failure is on the record for good. -/
theorem dbFailed_stable : (sessions crypto).Stable i (DbFailed i) :=
  Stable.history (H := fun h ↦ ∃ e ∈ h, FailedOnDatabase e)

/-- A statement that abstains is quiet. -/
theorem exec_quiet {x : Choice} {op : Op} {s : History ι} {t : World ι}
    {r : Except StatementError op.Ret} (hop : op.Abstains)
    (h : exec crypto i x op s.shared = some (r, t)) : Quiet i s (s.after i op r t) := by
  refine ⟨exec_sameTokens hop.spares h, exec_advisoryLocks_eq h hop.lock ?_ ?_, fun e he ↦ ?_⟩
  · rintro rfl
    exact hop.spares
  · rintro rfl
    exact hop.spares
  · rw [State.after_history_self]
    exact List.mem_append_left _ he

/-- What a process does by itself does not fail. -/
theorem exec_host_ok {x : Choice} {st : HostStatement} {w t : World ι}
    {r : Except StatementError st.Ret} (hop : (Op.host st).fragile = false)
    (h : exec crypto i x (.host st) w = some (r, t)) : ∃ a, r = .ok a := by
  rw [exec, hop] at h
  cases st <;> cases h <;> exact ⟨_, rfl⟩

/-- The error of a statement that can fail only on the database is on the record. -/
theorem dbFailed_of_error {x : Choice} {op : Op} {s : History ι} {t : World ι}
    {r : Except StatementError op.Ret} (hsure : op.onDatabase = true ∨ op.fragile = false)
    (h : exec crypto i x op s.shared = some (r, t)) {e : StatementError} (hr : r = .error e) :
    DbFailed i (s.after i op r t) := by
  refine ⟨⟨i, s.shared, op, r, t⟩, ?_, ?_, e, hr⟩
  · rw [State.after_history_self]
    exact List.mem_append_right _ (List.mem_singleton_self _)
  · rcases hsure with hsure | hsure
    · exact hsure
    · cases op with
      | host st =>
        obtain ⟨a, ha⟩ := exec_host_ok hsure h
        cases hr.symm.trans ha
      | _ => rfl

/-- **A statement and what follows it**, where it can fail only on the database. -/
theorem sessions_run_bind {op : Op} {f : op.Ret → Call α}
    (hsure : op.onDatabase = true ∨ op.fragile = false) (Mid : op.Ret → History ι → Prop)
    (hst : (sessions crypto).Stable i Pre)
    (hstep : ∀ s x r t, (sessions crypto).Inv s → Pre s →
      exec crypto i x op s.shared = some (r, t) →
        (sessions crypto).Inv (s.after i op r t) ∧ (sessions crypto).Guar i s (s.after i op r t) ∧
          ∀ a, r = .ok a → Mid a (s.after i op r t))
    (hE : ∀ e s, DbFailed i s → E e s)
    (hk : ∀ a, (sessions crypto).Triple i (Mid a) (f a) Q E) :
    (sessions crypto).Triple i Pre (run op >>= f) Q E :=
  triple_run_bind Mid (fun _ ↦ DbFailed i) hst (fun s x r t hs hp _ hx ↦
    have h := hstep s x r t hs hp hx
    ⟨h.1, h.2.1, h.2.2, fun _ ↦ dbFailed_of_error hsure hx⟩) hk
    fun _ ↦ .throw dbFailed_stable fun s _ h ↦ hE _ s h

/-- The same of a statement whose answer is the value. -/
theorem sessions_run {op : Op} {Q : op.Ret → History ι → Prop}
    (hsure : op.onDatabase = true ∨ op.fragile = false) (hQ : ∀ a, (sessions crypto).Stable i (Q a))
    (hst : (sessions crypto).Stable i Pre)
    (hstep : ∀ s x r t, (sessions crypto).Inv s → Pre s →
      exec crypto i x op s.shared = some (r, t) →
        (sessions crypto).Inv (s.after i op r t) ∧ (sessions crypto).Guar i s (s.after i op r t) ∧
          ∀ a, r = .ok a → Q a (s.after i op r t))
    (hE : ∀ e s, DbFailed i s → E e s) :
    (sessions crypto).Triple i Pre (run op) Q E :=
  triple_run Q (fun _ ↦ DbFailed i) hst (fun s x r t hs hp _ hx ↦
    have h := hstep s x r t hs hp hx
    ⟨h.1, h.2.1, h.2.2, fun _ ↦ dbFailed_of_error hsure hx⟩)
    (fun a ↦ .pure (hQ a) fun _ _ h ↦ h) fun _ ↦ .throw dbFailed_stable fun s _ h ↦ hE _ s h

/-- A statement that spares tokens and locks, whose answer does not matter. -/
theorem spare_bind {op : Op} {f : op.Ret → Call α} {R : History ι → Prop}
    (hR : Settled crypto i R) (hop : op.Abstains)
    (hsure : op.onDatabase = true ∨ op.fragile = false) (hE : ∀ e s, DbFailed i s → E e s)
    (hk : ∀ a, (sessions crypto).Triple i R (f a) Q E) :
    (sessions crypto).Triple i R (run op >>= f) Q E :=
  sessions_run_bind hsure (fun _ ↦ R) hR.stable (fun s _ _ _ hs hp hx ↦
    have h := sessions_spares hs hop.spares hx
    ⟨h.1, h.2, fun _ _ ↦ hR.quiet s _ (exec_quiet hop hx) hp⟩) hE hk

/-- A program that spares tokens and locks. -/
theorem spares_triple {p : Call α} {R : History ι → Prop} (hR : Settled crypto i R)
    (hp : p.All Op.Abstains) :
    (sessions crypto).Triple i R p (fun _ ↦ R) fun _ ↦ R :=
  .of_all hp hR.stable fun _ hop s _ _ _ hs hp _ hx ↦
    have h := sessions_spares hs hop.spares hx
    ⟨h.1, h.2, hR.quiet s _ (exec_quiet hop hx) hp⟩

/-- **A transaction.** Its body ends with the chains of the user linear; its errors roll it back. -/
theorem transaction_triple {body : Call α} {u : ℕ} {X Y : α → History ι → Prop}
    (hbody : (sessions crypto).Triple i Pre body (fun a s ↦ InTx i u s ∧ X a s) E)
    (hX : ∀ a, (sessions crypto).Stable i fun s ↦ InTx i u s ∧ X a s)
    (hE : ∀ e, (sessions crypto).Stable i (E e))
    (hrollback : ∀ e s t, E e s → E e (s.after i .rollback (.ok ()) t))
    (hfail : ∀ e s, DbFailed i s → E e s)
    (hY : ∀ a, (sessions crypto).Stable i (Y a))
    (hcommit : ∀ a s t, InTx i u s → X a s → t.refreshTokens.stored = s.shared.tokens i →
      (sessions crypto).Inv s → (sessions crypto).Inv (s.after i .commit (.ok ()) t) →
        Move (machine ι crypto) .all i s (s.after i .commit (.ok ()) t) →
          (sessions crypto).Guar i s (s.after i .commit (.ok ()) t) →
            Y a (s.after i .commit (.ok ()) t)) :
    (sessions crypto).Triple i Pre (transaction body) (fun a s ↦ Idle i s ∧ Y a s) E := by
  refine .bind (R := fun a s ↦ InTx i u s ∧ X a s) (.tryCatch (R := E) hbody fun e ↦ ?_)
    fun a ↦ ?_
  · refine triple_run_bind (fun _ ↦ E e) (fun _ _ ↦ False) (hE e)
      (fun s x r t hs he _ hx ↦ ?_) (fun _ ↦ .throw (hE e) fun _ _ h ↦ h)
      fun _ _ _ h ↦ h.elim
    obtain ⟨rfl, -⟩ := exec_rollback hx
    have h := sessions_rollback hs hx
    exact ⟨h.1, h.2, fun _ _ ↦ hrollback e s t he, fun _ hr ↦ nomatch hr⟩
  · refine sessions_run_bind (.inl rfl) (fun _ s ↦ Idle i s ∧ Y a s) (hX a)
      (fun s x r t hs hp hx ↦ ?_) hfail
      fun _ ↦ .pure (idle_stable.and (hY a)) fun _ _ h ↦ h
    obtain ⟨hi, hg, hidle, hstored⟩ := sessions_commit hs hp.1.1 hp.1.2 hx
    refine ⟨hi, hg, fun b hr ↦ ⟨hidle, ?_⟩⟩
    subst hr
    exact hcommit a s t hp.1 hp.2 (hstored _ rfl) hs hi (.stmt trivial hx) hg

end Rules

end Stead
