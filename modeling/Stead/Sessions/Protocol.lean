import Stead.Model.Logic
import Stead.Sessions.Chain

/-!
# Who may write the refresh tokens of a user

The protocol the session calls follow. A transaction writes tokens of a user only while it holds
the advisory lock of that user, so the tokens of the user that a transaction sees change, apart
from its own writes, in one way only: a token that has expired is revoked without the lock. A chain
that is linear in a transaction therefore stays linear for it (`linearOn_stable`), and when it
commits, the committed chains are linear (`TokensSound.commit`).

## Soundness

`TokensSound` is the invariant of the store: committed chains are linear, a family has one user, a
hash one row, and a version that a transaction has written belongs to a user whose lock it holds and
continues the committed one. `sessions` is the protocol with this invariant, in which a step of
another thread is one that keeps it (`move_others` says what it can do to the tokens of a user).

## Dead families

A family that has no live token is dead, and stays dead: the new token of a rotation is only
committed together with the revocation of the live token it replaces (`Holds.live`), and the family
of a new session is drawn by the call that begins it (`Draws`).

## Statements that spare the tokens

Most statements of the services leave tokens and locks alone (`Op.Spares`). One lemma says that they
keep to the protocol, whatever else they do (`sessions_spares`).
-/

namespace Stead

open Concurrency Protocol

variable {ι : Type}

/-- A version of token `k`: the committed one, or one that an open transaction has written. -/
def World.Version (w : World ι) (k : ℕ) (r : RefreshToken) : Prop :=
  w.refreshTokens.stored k = some r ∨ ∃ j, w.refreshTokens.pending k = some (j, r)

/-- The family has tokens, and none of them is live. -/
def World.Dead (w : World ι) (F : ℕ) : Prop :=
  (∃ k r, w.refreshTokens.stored k = some r ∧ r.familyId = F) ∧
    ∀ k r, w.refreshTokens.stored k = some r → r.familyId = F → r.revokedAt.isSome

/-- The thread drew `F` as the name of a family. -/
def Draws (F : ℕ) : Happening ι → Prop
  | ⟨_, _, .host .randomUUID, .ok n, _⟩ => n = F
  | _ => False

/-- A family is drawn as a random number. -/
theorem Draws.eq {F : ℕ} {i : ι} {w t : World ι} {op : Op} {r : Statements.Resp op}
    (h : Draws F ⟨i, w, op, r, t⟩) : ∃ hop : op = .host .randomUUID, hop ▸ r = .ok F := by
  unfold Draws at h
  split at h
  · next heq =>
    cases heq
    exact ⟨rfl, congrArg _ h⟩
  · exact h.elim

/-- The tokens of the database, with what is pending: the committed chains are linear, a family has
one user, no two tokens share a hash, a row is written under the lock of its user, and a pending
version continues the committed one. -/
structure TokensSound (w : World ι) : Prop where
  linear : ∀ u, LinearOn u w.refreshTokens.stored
  families : ∀ a b r r', w.Version a r → w.Version b r' → r.familyId = r'.familyId →
    r.userId = r'.userId
  hashes : ∀ a b r r', w.Version a r → w.Version b r' → r.tokenHash = r'.tokenHash → a = b
  locked : ∀ k j r, w.refreshTokens.pending k = some (j, r) → w.advisoryLocks r.userId = some j
  continues : ∀ k j r r', w.refreshTokens.stored k = some r →
    w.refreshTokens.pending k = some (j, r') → r.Leads r'
  fresh : ∀ k r, w.Version k r → r.familyId < w.fresh

/-- A family name is drawn once. -/
def DrawnOnce (s : History ι) : Prop :=
  ∀ F, ∀ e ∈ s.log, Draws F e → F < s.shared.fresh ∧ ∀ e' ∈ s.log, Draws F e' → e'.thread = e.thread

/-- A database is sound when each of its versions continues one of a sound database. -/
theorem TokensSound.of_versions {w t : World ι} (hw : TokensSound w)
    (hlinear : ∀ u, LinearOn u t.refreshTokens.stored)
    (hversion : ∀ k r', t.Version k r' → ∃ r, w.Version k r ∧ r.Leads r')
    (hlocked : ∀ k j r, t.refreshTokens.pending k = some (j, r) →
      t.advisoryLocks r.userId = some j)
    (hcontinues : ∀ k j r r', t.refreshTokens.stored k = some r →
      t.refreshTokens.pending k = some (j, r') → r.Leads r')
    (hfresh : w.fresh ≤ t.fresh) : TokensSound t where
  linear := hlinear
  families a b r r' h h' hF := by
    obtain ⟨r₀, hr₀, hle⟩ := hversion a r h
    obtain ⟨r₀', hr₀', hle'⟩ := hversion b r' h'
    rw [hle.userId, hle'.userId]
    exact hw.families a b r₀ r₀' hr₀ hr₀' (hle.familyId.symm.trans (hF.trans hle'.familyId))
  hashes a b r r' h h' hhash := by
    obtain ⟨r₀, hr₀, hle⟩ := hversion a r h
    obtain ⟨r₀', hr₀', hle'⟩ := hversion b r' h'
    exact hw.hashes a b r₀ r₀' hr₀ hr₀' (hle.tokenHash.symm.trans (hhash.trans hle'.tokenHash))
  locked := hlocked
  continues := hcontinues
  fresh k r h := by
    obtain ⟨r₀, hr₀, hle⟩ := hversion k r h
    exact hle.familyId ▸ (hw.fresh k r₀ hr₀).trans_le hfresh

/-- A database without open transactions is sound when its chains are linear, and in particular when
it has no tokens. -/
theorem TokensSound.of_empty {w : World ι} (h : ∀ k, w.refreshTokens.cell k = .empty) :
    TokensSound w := by
  have hversion : ∀ k r, ¬ w.Version k r := by
    rintro k r (hr | ⟨j, hr⟩)
    · rw [Table.stored, h] at hr
      cases hr
    · rw [Table.pending, h] at hr
      cases hr
  exact ⟨fun u ↦ ⟨fun a r _ hr ↦ absurd (.inl hr) (hversion a r),
      fun a _ r _ _ hr ↦ absurd (.inl hr) (hversion a r)⟩,
    fun a _ r _ hr ↦ absurd hr (hversion a r), fun a _ r _ hr ↦ absurd hr (hversion a r),
    fun k j r hr ↦ absurd (.inr ⟨j, hr⟩) (hversion k r),
    fun k _ r _ hr ↦ absurd (.inl hr) (hversion k r), fun k r hr ↦ absurd hr (hversion k r)⟩

variable [DecidableEq ι]

/-- The tokens as a transaction sees them. -/
def World.tokens (w : World ι) (i : ι) (k : ℕ) : Option RefreshToken :=
  (w.refreshTokens.cell k).view (some i)

/-- What a thread sees of a token is a version. -/
theorem World.version_of_tokens {w : World ι} {i : ι} {k : ℕ} {r : RefreshToken}
    (h : w.tokens i k = some r) : w.Version k r := by
  by_cases hp : ∃ r', w.refreshTokens.pending k = some (i, r')
  · obtain ⟨r', hp⟩ := hp
    rw [tokens, Cell.view_of_pending hp] at h
    exact .inr ⟨i, Option.some.inj h ▸ hp⟩
  · rw [tokens, Cell.view_of_not_pending fun r hr ↦ hp ⟨r, hr⟩] at h
    exact .inl h

/-- Where a transaction has written nothing it sees what is committed. -/
theorem World.tokens_of_not_pending {w : World ι} {i : ι} {k : ℕ}
    (h : ∀ r, w.refreshTokens.pending k ≠ some (i, r)) :
    w.tokens i k = w.refreshTokens.stored k :=
  Cell.view_of_not_pending h

theorem World.tokens_of_pending {w : World ι} {i : ι} {k : ℕ} {r : RefreshToken}
    (h : w.refreshTokens.pending k = some (i, r)) : w.tokens i k = some r :=
  Cell.view_of_pending h

/-- A committed token is seen by every transaction, in this version or a later one. -/
theorem TokensSound.tokens_of_stored {w : World ι} (hw : TokensSound w) (i : ι) {k : ℕ}
    {r : RefreshToken} (h : w.refreshTokens.stored k = some r) :
    ∃ r', w.tokens i k = some r' ∧ r.Leads r' := by
  by_cases hp : ∃ r', w.refreshTokens.pending k = some (i, r')
  · obtain ⟨r', hp⟩ := hp
    exact ⟨r', World.tokens_of_pending hp, hw.continues k i r r' h hp⟩
  · exact ⟨r, (World.tokens_of_not_pending fun r hr ↦ hp ⟨r, hr⟩).trans h, .refl r⟩

/-! ### The end of a transaction -/

theorem World.commit_stored (w : World ι) (i : ι) (k : ℕ) :
    (w.commit i).refreshTokens.stored k = w.tokens i k :=
  Cell.commit_stored ..

theorem World.rollback_stored (w : World ι) (i : ι) (k : ℕ) :
    (w.rollback i).refreshTokens.stored k = w.refreshTokens.stored k :=
  Cell.rollback_stored ..

/-- The locks of others stay. -/
theorem World.releaseLocks_of_ne {w : World ι} {i j : ι} {u : ℕ} (hj : j ≠ i)
    (h : w.advisoryLocks u = some j) : (w.releaseLocks i).advisoryLocks u = some j := by
  simp [releaseLocks, h, hj]

theorem World.version_of_commit {w : World ι} {i : ι} {k : ℕ} {r : RefreshToken}
    (h : (w.commit i).Version k r) : w.Version k r := by
  rcases h with h | ⟨j, h⟩
  · exact version_of_tokens (w.commit_stored i k ▸ h)
  · exact .inr ⟨j, (Cell.pending_of_commit h).2⟩

theorem World.version_of_rollback {w : World ι} {i : ι} {k : ℕ} {r : RefreshToken}
    (h : (w.rollback i).Version k r) : w.Version k r := by
  rcases h with h | ⟨j, h⟩
  · exact .inl (w.rollback_stored i k ▸ h)
  · exact .inr ⟨j, (Cell.pending_of_rollback h).2⟩

/-- A rollback revives no family and kills none. -/
theorem World.dead_rollback {w : World ι} {i : ι} {F : ℕ} : (w.rollback i).Dead F ↔ w.Dead F := by
  have hstored : (w.rollback i).refreshTokens.stored = w.refreshTokens.stored :=
    funext (w.rollback_stored i)
  rw [Dead, Dead, hstored]

/-- **A rollback** leaves the database sound. -/
theorem TokensSound.rollback {w : World ι} (hw : TokensSound w) (i : ι) :
    TokensSound (w.rollback i) := by
  have hpending : ∀ {k j r}, (w.rollback i).refreshTokens.pending k = some (j, r) →
      j ≠ i ∧ w.refreshTokens.pending k = some (j, r) := Cell.pending_of_rollback
  refine hw.of_versions ?_ ?_ ?_ ?_ le_rfl
  · intro u
    have : (w.rollback i).refreshTokens.stored = w.refreshTokens.stored :=
      funext (w.rollback_stored i)
    exact this ▸ hw.linear u
  · exact fun k r hr ↦ ⟨r, World.version_of_rollback hr, .refl r⟩
  · intro k j r hr
    exact World.releaseLocks_of_ne (hpending hr).1 (hw.locked k j r (hpending hr).2)
  · intro k j r r' hr hr'
    exact hw.continues k j r r' (w.rollback_stored i k ▸ hr) (hpending hr').2

/-- **A commit** leaves the database sound when the chains are linear as the transaction sees
them. -/
theorem TokensSound.commit {w : World ι} (hw : TokensSound w) {i : ι}
    (hlinear : ∀ u, LinearOn u (w.tokens i)) : TokensSound (w.commit i) := by
  have hpending : ∀ {k j r}, (w.commit i).refreshTokens.pending k = some (j, r) →
      j ≠ i ∧ w.refreshTokens.pending k = some (j, r) := Cell.pending_of_commit
  refine hw.of_versions ?_ ?_ ?_ ?_ le_rfl
  · intro u
    have : (w.commit i).refreshTokens.stored = w.tokens i := funext (w.commit_stored i)
    exact this ▸ hlinear u
  · exact fun k r hr ↦ ⟨r, World.version_of_commit hr, .refl r⟩
  · intro k j r hr
    exact World.releaseLocks_of_ne (hpending hr).1 (hw.locked k j r (hpending hr).2)
  · intro k j r r' hr hr'
    obtain ⟨hj, hp⟩ := hpending hr'
    rw [w.commit_stored i k, World.tokens_of_not_pending fun s hs ↦ ?_] at hr
    · exact hw.continues k j r r' hr hp
    · exact hj (congrArg Prod.fst (Option.some.inj (hp.symm.trans hs)))

/-! ### The protocol -/

/-- The protocol of the session calls. -/
def sessions (crypto : Crypto) : Protocol (machine ι crypto) .all where
  Inv s := TokensSound s.shared ∧ DrawnOnce s
  Guar j s s' := (∀ F, s.shared.Dead F → s'.shared.Dead F) ∧
    ∀ k r, s'.shared.Version k r →
      (∃ l r', s.shared.Version l r' ∧ r'.familyId = r.familyId) ∨
        ∃ e ∈ s.history j, Draws r.familyId e
  crash_ok i _ hs _ := ⟨⟨hs.1.rollback i, hs.2⟩, fun _ ↦ World.dead_rollback.2,
    fun k r hr ↦ .inl ⟨k, r, World.version_of_rollback hr, rfl⟩⟩

section Moves

variable {crypto : Crypto} {A : Weather ι} {i j : ι} {s s' : History ι}

/-- **Committed tokens stay.** A step replaces the committed version of a token by a later one. -/
theorem TokensSound.move_stored (hs : TokensSound s.shared)
    (hm : Move (machine ι crypto) A j s s') {k : ℕ} {r : RefreshToken}
    (hr : s.shared.refreshTokens.stored k = some r) :
    ∃ r', s'.shared.refreshTokens.stored k = some r' ∧ r.Leads r' := by
  cases hm with
  | crash => exact ⟨r, (s.shared.rollback_stored j k).trans hr, .refl r⟩
  | @stmt x op resp t ha hx =>
    cases exec_refreshTokens hx k with
    | same h => exact ⟨r, (congrArg Cell.stored h).trans hr, .refl r⟩
    | @edit st r₀ r' hop hv he hl h =>
      cases st with
      | expire id at_ =>
        cases he
        rw [RefreshTokenStatement.writer, Cell.view_none] at hv
        obtain rfl := Option.some.inj (hv.symm.trans hr)
        exact ⟨_, congrArg Cell.stored h, (RefreshToken.Aged.revoke _ _).toLeads⟩
      | _ => exact ⟨r, (congrArg Cell.stored h).trans hr, .refl r⟩
    | create _ _ _ _ hc _ =>
      rw [Table.stored, hc] at hr
      cases hr
    | commit hop h =>
      obtain ⟨r', hr', hle⟩ := hs.tokens_of_stored j hr
      exact ⟨r', (congrArg Cell.stored h).trans ((Cell.commit_stored _ _).trans hr'), hle⟩
    | rollback hop h =>
      exact ⟨r, (congrArg Cell.stored h).trans ((Cell.rollback_stored _ _).trans hr), .refl r⟩

/-- What a step of thread `j` does to a token, for another thread `i`: nothing it could notice, or
a revocation without a transaction, or a commit. -/
inductive OthersEdit (i j : ι) (c c' : Cell ι RefreshToken) : Prop
  | unnoticed (hs : c'.stored = c.stored)
      (hp : ∀ r, c'.pending = some (i, r) ↔ c.pending = some (i, r))
  | expired {r : RefreshToken} {at_ : ℤ} (hp : c.pending = none) (hs : c.stored = some r)
      (h : c' = ⟨some { r with revokedAt := some at_ }, none⟩)
  | committed {r : RefreshToken} (hp : c.pending = some (j, r)) (h : c' = ⟨some r, none⟩)

/-- The end of another transaction. -/
theorem OthersEdit.of_rollback (hij : j ≠ i) (c : Cell ι RefreshToken) :
    OthersEdit i j c (c.rollback j) := by
  refine .unnoticed (Cell.rollback_stored _ _) fun r ↦
    ⟨fun h ↦ (Cell.pending_of_rollback h).2, fun h ↦ ?_⟩
  rwa [Cell.rollback_of_not_pending fun r' h' ↦ ?_]
  exact hij (congrArg Prod.fst (Option.some.inj (h'.symm.trans h)))

/-- **What others do to a token.** -/
theorem move_others (hij : j ≠ i) (hm : Move (machine ι crypto) A j s s') (k : ℕ) :
    OthersEdit i j (s.shared.refreshTokens.cell k) (s'.shared.refreshTokens.cell k) := by
  cases hm with
  | crash => exact .of_rollback hij _
  | @stmt x op resp t ha hx =>
    cases exec_refreshTokens hx k with
    | same h => exact h ▸ .unnoticed rfl fun r ↦ Iff.rfl
    | @edit st r₀ r' hop hv he hl h =>
      have hfree : (s.shared.refreshTokens.cell k).pending = none ∨
          ∃ l p, st.writer j = some l ∧ (s.shared.refreshTokens.cell k).pending = some (l, p) :=
        Cell.pending_of_not_locked hl
      cases st with
      | expire id at_ =>
        cases he
        rw [RefreshTokenStatement.writer, Cell.view_none] at hv
        rcases hfree with hfree | ⟨l, p, hl, -⟩
        · exact .expired hfree hv (h.trans (congrArg (Cell.mk _) hfree))
        · cases hl
      | _ =>
        refine .unnoticed ((congrArg Cell.stored h).trans rfl) fun r ↦ ?_
        rw [State.after_shared, h]
        refine ⟨fun hp ↦ absurd (congrArg Prod.fst (Option.some.inj hp)) hij, fun hp ↦ ?_⟩
        rcases hfree with hfree | ⟨l, p, hl, hfree⟩
        · cases hfree.symm.trans hp
        · cases hl
          exact absurd (congrArg Prod.fst (Option.some.inj (hfree.symm.trans hp))) hij
    | create _ _ _ _ hc h =>
      rw [State.after_shared, h, hc]
      refine .unnoticed rfl fun r ↦ ⟨fun hp ↦ ?_, fun hp ↦ nomatch hp⟩
      exact absurd (congrArg Prod.fst (Option.some.inj hp)) hij
    | commit hop h =>
      rw [State.after_shared, h]
      by_cases hp : ∃ r, (s.shared.refreshTokens.cell k).pending = some (j, r)
      · obtain ⟨r, hp⟩ := hp
        exact .committed hp (Cell.commit_of_pending hp)
      · rw [Cell.commit_of_not_pending fun r hr ↦ hp ⟨r, hr⟩]
        exact .unnoticed rfl fun r ↦ Iff.rfl
    | rollback hop h =>
      rw [State.after_shared, h]
      exact .of_rollback hij _

/-- A thread keeps its own locks and takes no others while another one moves. -/
theorem move_locks (hij : j ≠ i) (hm : Move (machine ι crypto) A j s s') (v : ℕ) :
    s'.shared.advisoryLocks v = some i ↔ s.shared.advisoryLocks v = some i := by
  cases hm with
  | crash =>
    show ((s.shared.rollback j).advisoryLocks v = _) ↔ _
    by_cases hv : s.shared.advisoryLocks v = some j
    · simp [World.rollback, World.releaseLocks, hv, hij]
    · simp [World.rollback, World.releaseLocks, hv]
  | @stmt x op resp t ha hx =>
    rw [State.after_shared]
    rcases exec_advisoryLocks hx v with h | ⟨-, h, hold⟩ | ⟨hold, h, -⟩
    · rw [h]
    · rcases hold with hold | hold <;> simp [h, hold, hij]
    · simp [h, hold, hij]

end Moves

/-- Token `k` has been committed in version `r` or a later one. -/
def Since (k : ℕ) (r : RefreshToken) (s : History ι) : Prop :=
  ∃ r', s.shared.refreshTokens.stored k = some r' ∧ r.Leads r'

section Rely

variable {crypto : Crypto} {i : ι} {s s' : History ι}

/-- What others do to a token as transaction `i` sees it. -/
theorem OthersEdit.tokens {j : ι} {c c' : Cell ι RefreshToken} (h : OthersEdit i j c c') :
    c'.view (some i) = c.view (some i) ∨
      (∃ r r', c.view (some i) = some r ∧ c'.view (some i) = some r' ∧ r.Aged r') ∨
        ∃ r, c.pending = some (j, r) ∧ c'.view (some i) = some r := by
  cases h with
  | unnoticed hs hp => exact .inl (Cell.view_congr hs hp)
  | @expired r at_ hp hs h =>
    refine .inr (.inl ⟨r, _, ?_, ?_, .revoke r at_⟩)
    · rw [Cell.view_of_not_pending fun r hr ↦ (nomatch hp.symm.trans hr), hs]
    · rw [h]
      rfl
  | @committed r hp h => exact .inr (.inr ⟨r, hp, h ▸ rfl⟩)

/-- **The tokens of a user whose lock a thread holds** only age while others move. -/
theorem rely_agedOn (hr : (sessions crypto).Rely i s s') {u : ℕ}
    (hlock : s.shared.advisoryLocks u = some i) :
    AgedOn u (s.shared.tokens i) (s'.shared.tokens i) := by
  obtain ⟨j, hj, hm, -⟩ := hr.move
  -- What another thread commits belongs to a user whose lock it holds.
  have hother : ∀ {k r}, s.shared.refreshTokens.pending k = some (j, r) → r.userId ≠ u := by
    rintro k r hp rfl
    exact hj (Option.some.inj ((hr.inv.1.locked k j r hp).symm.trans hlock))
  refine ⟨fun k r hk hu ↦ ?_, fun k r' hk hu ↦ ?_⟩
  · rcases (move_others hj hm k).tokens with h | ⟨r₀, r', h₀, h', ha⟩ | ⟨r', hp, -⟩
    · exact ⟨r, h.trans hk, .refl r⟩
    · exact ⟨r', h', Option.some.inj (h₀.symm.trans hk) ▸ ha⟩
    · have hk' : s.shared.refreshTokens.stored k = some r := by
        rwa [World.tokens_of_not_pending fun r'' hr'' ↦ ?_] at hk
        exact hj (congrArg Prod.fst (Option.some.inj (hp.symm.trans hr'')))
      exact absurd ((hr.inv.1.continues k j r r' hk' hp).userId.trans hu) (hother hp)
  · rcases (move_others hj hm k).tokens with h | ⟨r, r₀', h, h₀', ha⟩ | ⟨r, hp, h⟩
    · exact ⟨r', h.symm.trans hk, .refl r'⟩
    · exact ⟨r, h, Option.some.inj (h₀'.symm.trans hk) ▸ ha⟩
    · obtain rfl := Option.some.inj (h.symm.trans hk)
      exact absurd hu (hother hp)

end Rely

/-! ### Steps of the thread itself -/

/-- A statement that writes no refresh token and ends no transaction. -/
def Op.Spares : Op → Prop
  | .refreshToken s => (Op.refreshToken s).reads = true
  | .commit | .rollback => False
  | _ => True

/-- The tokens are the same. -/
def SameTokens (w t : World ι) : Prop :=
  ∀ k, t.refreshTokens.cell k = w.refreshTokens.cell k

namespace SameTokens

variable {w t : World ι} (h : SameTokens w t)

include h

omit [DecidableEq ι] in
theorem stored : t.refreshTokens.stored = w.refreshTokens.stored :=
  funext fun k ↦ congrArg Cell.stored (h k)

omit [DecidableEq ι] in
theorem pending : t.refreshTokens.pending = w.refreshTokens.pending :=
  funext fun k ↦ congrArg Cell.pending (h k)

theorem tokens (i : ι) : t.tokens i = w.tokens i :=
  funext fun k ↦ congrArg (Cell.view (some i)) (h k)

omit [DecidableEq ι] in
theorem version {k : ℕ} {r : RefreshToken} : t.Version k r ↔ w.Version k r := by
  rw [World.Version, World.Version, h.stored, h.pending]

omit [DecidableEq ι] in
theorem dead {F : ℕ} : t.Dead F ↔ w.Dead F := by
  rw [World.Dead, World.Dead, h.stored]

end SameTokens

section Own

variable {crypto : Crypto} {i : ι} {x : Choice} {op : Op} {s : History ι} {t : World ι}
  {r : Except StatementError op.Ret}

/-- What spares the tokens leaves them the same. -/
theorem exec_sameTokens (hop : op.Spares) (h : exec crypto i x op s.shared = some (r, t)) :
    SameTokens s.shared t := by
  intro k
  cases exec_refreshTokens h k with
  | same h => exact h
  | edit hs hv he _ _ =>
    subst hs
    cases he <;> cases hop
  | create hs =>
    subst hs
    cases hop
  | commit hs =>
    subst hs
    exact hop.elim
  | rollback hs => rcases hs with rfl | rfl <;> exact hop.elim

/-- The names of families are drawn once: each draw gives a new one. -/
theorem DrawnOnce.after (hs : DrawnOnce s) (h : exec crypto i x op s.shared = some (r, t)) :
    DrawnOnce (s.after i op r t) := by
  have hfresh := exec_fresh h
  -- What is drawn now has not been drawn before.
  have hnew : ∀ F, Draws F ⟨i, s.shared, op, r, t⟩ → F = s.shared.fresh ∧ F < t.fresh := by
    intro F hF
    obtain ⟨rfl, hr⟩ := hF.eq
    obtain rfl : r = .ok F := hr
    cases perform_of_exec_ok h
    exact ⟨rfl, Nat.lt_succ_self _⟩
  intro F e he hF
  rw [State.after_log, List.mem_append, List.mem_singleton] at he
  rcases he with he | rfl
  · refine ⟨(hs F e he hF).1.trans_le hfresh, fun e' he' hF' ↦ ?_⟩
    rw [State.after_log, List.mem_append, List.mem_singleton] at he'
    rcases he' with he' | rfl
    · exact (hs F e he hF).2 e' he' hF'
    · have := (hs F e he hF).1
      exact absurd (hnew F hF').1 (by omega)
  · refine ⟨(hnew F hF).2, fun e' he' hF' ↦ ?_⟩
    rw [State.after_log, List.mem_append, List.mem_singleton] at he'
    rcases he' with he' | rfl
    · have := (hs F e' he' hF').1
      exact absurd (hnew F hF).1 (by omega)
    · rfl

/-- **A statement that spares the tokens**, the taking of a lock included. -/
theorem sessions_spares (hs : (sessions crypto).Inv s) (hop : op.Spares)
    (h : exec crypto i x op s.shared = some (r, t)) :
    (sessions crypto).Inv (s.after i op r t) ∧ (sessions crypto).Guar i s (s.after i op r t) := by
  have hsame := exec_sameTokens hop h
  refine ⟨⟨hs.1.of_versions ?_ ?_ ?_ ?_ (exec_fresh h), hs.2.after h⟩, ?_, ?_⟩
  · exact fun u ↦ hsame.stored ▸ hs.1.linear u
  · exact fun k r hr ↦ ⟨r, hsame.version.1 hr, .refl r⟩
  · intro k j r hr
    have hlock := hs.1.locked k j r (hsame.pending ▸ hr)
    rcases exec_advisoryLocks h r.userId with he | ⟨-, he, hold⟩ | ⟨-, -, rfl | rfl⟩
    · exact he.trans hlock
    · rcases hold with hold | hold
      · cases hold.symm.trans hlock
      · exact he.trans (hold.symm.trans hlock)
    · exact hop.elim
    · exact hop.elim
  · exact fun k j r r' hr hr' ↦
      hs.1.continues k j r r' (hsame.stored ▸ hr) (hsame.pending ▸ hr')
  · exact fun F ↦ hsame.dead.2
  · exact fun k r hr ↦ .inl ⟨k, r, hsame.version.1 hr, rfl⟩

/-- **A rollback.** -/
theorem sessions_rollback {r : Except StatementError Unit} (hs : (sessions crypto).Inv s)
    (h : exec crypto i x .rollback s.shared = some (r, t)) :
    (sessions crypto).Inv (s.after i .rollback r t) ∧
      (sessions crypto).Guar i s (s.after i .rollback r t) := by
  obtain ⟨-, rfl⟩ := exec_rollback h
  have hsound : TokensSound (s.shared.elapse x.elapse) := hs.1.of_versions hs.1.linear
    (fun k r hr ↦ ⟨r, hr, .refl r⟩) hs.1.locked hs.1.continues le_rfl
  exact ⟨⟨hsound.rollback i, hs.2.after h⟩, fun F ↦ World.dead_rollback.2,
    fun k r hr ↦ .inl ⟨k, r, World.version_of_rollback hr, rfl⟩⟩

end Own

end Stead
