import Stead.Sessions.Protocol

/-!
# Transactions on the refresh tokens of a user

What holds of a transaction between taking the lock of a user and its end (`Holds`), what each of
its writes does to the chains it sees, and that a commit brings the chains it sees to the database
without reviving a dead family (`sessions_commit`).

## Assertions

`Holds` is that the transaction has the lock of one user, and that a live token it has written is of
a new family or stands for a live one; `Within` is what an `updateMany` has found; `Claiming` that
the thread has revoked the live token of a family and not yet replaced it; `Drew` and `Owner` whose
a family is. Each is stable: no other thread falsifies it while the lock is held.

## Writes

A write in a transaction is of tokens of the user whose lock it holds (`MayWrite`), and leaves the
committed rows as they are (`exec_write_stored`). What it does to the chains is one of three things,
which are the lemmas of `Sessions.Chain`: tokens are revoked, a family begins, or the last token of
a family is replaced. `sessions_write` is the guarantee that a write gives to the other threads.

## The commit

The commit makes the chains of the transaction the committed ones. A family that was dead before is
dead after it, since its new token stands for one that was live (`Holds.live`) or the family is new.
-/

namespace Stead

open Concurrency Protocol

variable {ι : Type}

/-- The thread holds no lock: it has no transaction on tokens open. -/
def Idle (i : ι) (s : History ι) : Prop := ∀ u, s.shared.advisoryLocks u ≠ some i

/-- The transaction of the thread holds the lock of one user, and commits a live token only in a
family that has no committed token yet or that has a live one, which it has written as well. -/
structure Holds (i : ι) (u : ℕ) (s : History ι) : Prop where
  lock : ∀ v, s.shared.advisoryLocks v = some i ↔ v = u
  live : ∀ k r, s.shared.refreshTokens.pending k = some (i, r) → r.revokedAt = none →
    (∀ l r', s.shared.refreshTokens.stored l = some r' → r'.familyId ≠ r.familyId) ∨
      ∃ l r' p, s.shared.refreshTokens.stored l = some r' ∧ r'.familyId = r.familyId ∧
        r'.revokedAt = none ∧ s.shared.refreshTokens.pending l = some (i, p)

/-- The user of a family: a committed token says so. -/
def Owner (F u : ℕ) (s : History ι) : Prop :=
  ∃ k r, s.shared.refreshTokens.stored k = some r ∧ r.familyId = F ∧ r.userId = u

/-- Every version of a token of the family is the user's. -/
theorem TokensSound.userId_of_owner {s : History ι} (hs : TokensSound s.shared) {F u : ℕ}
    (h : Owner F u s) {k : ℕ} {r : RefreshToken} (hr : s.shared.Version k r)
    (hF : r.familyId = F) : r.userId = u := by
  obtain ⟨l, r', hr', hF', rfl⟩ := h
  exact hs.families k l r r' hr (.inl hr') (hF.trans hF'.symm)

variable [DecidableEq ι]

/-- The thread drew the family, and no token is in it yet. -/
def Drew (i : ι) (F : ℕ) (s : History ι) : Prop :=
  (∃ e ∈ s.history i, Draws F e) ∧ ∀ k r, s.shared.Version k r → r.familyId ≠ F

/-- The tokens of the user within the scope, as the transaction sees them, are in the list. -/
def Within (i : ι) (u : ℕ) (scope : RevokeWhere) (found : List ℕ) (s : History ι) : Prop :=
  ∀ k r, s.shared.tokens i k = some r → r.userId = u → scope.covers r = true → k ∈ found

/-- A version of token `k` that the transaction has written, revoked and not yet replaced. -/
def Claiming (i : ι) (u k : ℕ) (F : ℕ) (s : History ι) : Prop :=
  (∃ p, s.shared.refreshTokens.pending k = some (i, p) ∧ p.userId = u ∧ p.familyId = F ∧
    p.revokedAt.isSome ∧ p.replacedById = none) ∧
    ∃ r, s.shared.refreshTokens.stored k = some r ∧ r.revokedAt = none

/-- A scope covers a token however old it is. -/
theorem RevokeWhere.covers_of_aged {scope : RevokeWhere} {r r' : RefreshToken} (h : r.Aged r')
    (hr : scope.covers r' = true) : scope.covers r = true := by
  simp only [covers, Bool.and_eq_true, Option.isNone_iff_eq_none] at hr ⊢
  refine ⟨⟨?_, h.userId ▸ hr.1.2⟩, h.familyId ▸ hr.2⟩
  by_contra hne
  have := h.revoked (Option.isSome_iff_ne_none.2 hne)
  simp [hr.1.1] at this

/-! ### What others leave to a transaction -/

section Stable

variable {crypto : Crypto} {i : ι} {s s' : History ι}

theorem idle_stable : (sessions crypto).Stable i (Idle i) := by
  intro s s' hr hs u hu
  obtain ⟨j, hj, hm, -⟩ := hr.move
  exact hs u ((move_locks hj hm u).1 hu)

theorem owner_lasting (F u : ℕ) : (sessions crypto).Lasting (Owner F u : History ι → Prop) := by
  rintro j s s' hs - hm - ⟨k, r, hr, hF, hu⟩
  obtain ⟨r', hr', hle⟩ := hs.1.move_stored hm hr
  exact ⟨k, r', hr', hle.familyId.trans hF, hle.userId.trans hu⟩

theorem since_lasting (k : ℕ) (r : RefreshToken) :
    (sessions crypto).Lasting (Since k r : History ι → Prop) := by
  rintro j s s' hs - hm - ⟨r', hr', hle⟩
  obtain ⟨r'', hr'', hle'⟩ := hs.1.move_stored hm hr'
  exact ⟨r'', hr'', hle.trans hle'⟩

theorem dead_lasting (F : ℕ) : (sessions crypto).Lasting fun s : History ι ↦ s.shared.Dead F :=
  fun _ _ _ _ _ _ hg hs ↦ hg.1 F hs

/-- What a transaction has written is left to it. -/
theorem rely_pending (hr : (sessions crypto).Rely i s s') {k : ℕ} {r : RefreshToken} :
    s'.shared.refreshTokens.pending k = some (i, r) ↔
      s.shared.refreshTokens.pending k = some (i, r) := by
  obtain ⟨j, hj, hm, -⟩ := hr.move
  cases move_others hj hm k with
  | unnoticed hs hp => exact hp r
  | expired hp hs h =>
    rw [Table.pending, Table.pending, h, hp]
  | committed hp h =>
    rw [Table.pending, Table.pending, h, hp]
    exact ⟨fun he ↦ (by cases he), fun he ↦ absurd (congrArg Prod.fst (Option.some.inj he)) hj⟩

/-- And so is what is committed under it. -/
theorem rely_stored (hr : (sessions crypto).Rely i s s') {k : ℕ} {r : RefreshToken}
    (hp : s.shared.refreshTokens.pending k = some (i, r)) :
    s'.shared.refreshTokens.stored k = s.shared.refreshTokens.stored k := by
  obtain ⟨j, hj, hm, -⟩ := hr.move
  cases move_others hj hm k with
  | unnoticed hs _ => exact hs
  | expired hfree _ _ => cases hfree.symm.trans hp
  | committed hother _ =>
    exact absurd (congrArg Prod.fst (Option.some.inj (hother.symm.trans hp))) hj

/-- Another thread commits no token in a family of the user. -/
theorem rely_family (hr : (sessions crypto).Rely i s s') {u : ℕ}
    (hlock : s.shared.advisoryLocks u = some i) {k l : ℕ} {r p : RefreshToken}
    (hp : s.shared.refreshTokens.pending k = some (i, p)) (hu : p.userId = u)
    (hr' : s'.shared.refreshTokens.stored l = some r) (hF : r.familyId = p.familyId) :
    ∃ r₀, s.shared.refreshTokens.stored l = some r₀ ∧ r₀.familyId = p.familyId := by
  obtain ⟨j, hj, hm, -⟩ := hr.move
  cases move_others hj hm l with
  | unnoticed hs _ => exact ⟨r, hs.symm.trans hr', hF⟩
  | @expired r₀ _ _ hs h =>
    rw [Table.stored, h] at hr'
    cases hr'
    exact ⟨r₀, hs, hF⟩
  | @committed r₀ hother h =>
    rw [Table.stored, h] at hr'
    cases hr'
    have huser := hr.inv.1.families l k r p (.inr ⟨j, hother⟩) (.inr ⟨i, hp⟩) hF
    have := hr.inv.1.locked l j r hother
    rw [huser, hu, hlock, Option.some.injEq] at this
    exact absurd this.symm hj

theorem holds_stable (u : ℕ) : (sessions crypto).Stable i (Holds i u) := by
  intro s s' hr hs
  have hm := hr.move
  obtain ⟨j, hj, hm, -⟩ := hm
  refine ⟨fun v ↦ (move_locks hj hm v).trans (hs.lock v), fun k r hp hlive ↦ ?_⟩
  have hp₀ := (rely_pending hr).1 hp
  have huser : r.userId = u := (hs.lock _).1 (hr.inv.1.locked k i r hp₀)
  rcases hs.live k r hp₀ hlive with hnone | ⟨l, r', p, hr', hF, hlive', hp'⟩
  · refine .inl fun l r' hr' hF ↦ ?_
    obtain ⟨r₀, hr₀, hF₀⟩ := rely_family hr ((hs.lock u).2 rfl) hp₀ huser hr' hF
    exact hnone l r₀ hr₀ hF₀
  · exact .inr ⟨l, r', p, (rely_stored hr hp').trans hr', hF, hlive', (rely_pending hr).2 hp'⟩

/-- Chains that are linear for a transaction stay linear for it. -/
theorem linearOn_stable (u : ℕ) :
    (sessions crypto).Stable i fun s ↦ Holds i u s ∧ LinearOn u (s.shared.tokens i) :=
  fun _ _ hr hs ↦ ⟨holds_stable u _ _ hr hs.1, hs.2.aged (rely_agedOn hr ((hs.1.lock u).2 rfl))⟩

theorem linked_stable (u a n : ℕ) : (sessions crypto).Stable i fun s ↦
    Holds i u s ∧ LinearOn u (linked a n (s.shared.tokens i)) :=
  fun _ _ hr hs ↦
    ⟨holds_stable u _ _ hr hs.1, hs.2.aged ((rely_agedOn hr ((hs.1.lock u).2 rfl)).linked a n)⟩

theorem within_stable (u : ℕ) (scope : RevokeWhere) (found : List ℕ) :
    (sessions crypto).Stable i fun s ↦ Holds i u s ∧ Within i u scope found s := by
  intro s s' hr hs
  refine ⟨holds_stable u _ _ hr hs.1, fun k r' hr' hu hc ↦ ?_⟩
  obtain ⟨r, hr₀, ha⟩ := (rely_agedOn hr ((hs.1.lock u).2 rfl)).earlier k r' hr' hu
  exact hs.2 k r hr₀ (ha.userId.symm.trans hu) (RevokeWhere.covers_of_aged ha hc)

theorem claiming_stable (u k F : ℕ) : (sessions crypto).Stable i (Claiming i u k F) := by
  rintro s s' hr ⟨⟨p, hp, hpF⟩, r, hr', hlive⟩
  exact ⟨⟨p, (rely_pending hr).2 hp, hpF⟩, r, (rely_stored hr hp).trans hr', hlive⟩

theorem drew_stable (F : ℕ) : (sessions crypto).Stable i (Drew i F) := by
  rintro s s' hr ⟨⟨e, he, hdraw⟩, hnone⟩
  refine ⟨⟨e, hr.history ▸ he, hdraw⟩, fun k r hv hF ↦ ?_⟩
  obtain ⟨j, hj, -, hg⟩ := hr.move
  rcases hg.2 k r hv with ⟨l, r', hv', hF'⟩ | ⟨e', he', hdraw'⟩
  · exact hnone l r' hv' (hF'.trans hF)
  · rw [State.mem_history] at he he'
    have := (hr.inv.2 F e he.1 hdraw).2 e' he'.1 (hF ▸ hdraw')
    exact hj (he'.2.symm.trans (this.trans he.2))

end Stable

/-! ### What a transaction writes -/

/-- What a statement may write in a transaction that holds the lock of user `u`: revoked versions of
the user's tokens, and a new token in a family that the thread drew or in that of a live token it
has claimed. -/
structure MayWrite (i : ι) (u : ℕ) (st : RefreshTokenStatement) (s : History ι) : Prop where
  inside : st.writer i = some i
  edits : ∀ k r r', s.shared.tokens i k = some r → RefreshTokenEdit r st k r' →
    r.userId = u ∧ r.Leads r' ∧ r'.revokedAt.isSome
  creates : ∀ data, st = .create data → data.userId = u ∧
    (Drew i data.familyId s ∨ ∃ l, Claiming i u l data.familyId s)

section Write

variable {crypto : Crypto} {i : ι} {u : ℕ} {x : Choice} {st : RefreshTokenStatement}
  {s : History ι} {t : World ι} {r : Except StatementError st.Ret}

/-- What a statement of a transaction makes of a token. -/
inductive WritesCell (i : ι) (w : World ι) (st : RefreshTokenStatement) (k : ℕ)
    (c' : Cell ι RefreshToken) : Prop
  | same (h : c' = w.refreshTokens.cell k)
  | edit {r r' : RefreshToken} (hr : w.tokens i k = some r) (he : RefreshTokenEdit r st k r')
      (h : c' = ⟨w.refreshTokens.stored k, some (i, r')⟩)
  | create {data : NewRefreshToken} (hst : st = .create data)
      (hk : k = w.refreshTokens.next) (hempty : w.refreshTokens.cell k = .empty)
      (hfree : ∀ l r, w.tokens i l = some r → r.tokenHash ≠ data.tokenHash)
      (hothers : ∀ l j r, w.refreshTokens.pending l = some (j, r) → j ≠ i →
        r.tokenHash ≠ data.tokenHash)
      (h : c' = ⟨none, some (i, data.row)⟩)

/-- A write in a transaction writes for the transaction. -/
theorem exec_writesCell (hst : st.writer i = some i)
    (h : exec crypto i x (.refreshToken st) s.shared = some (r, t)) (k : ℕ) :
    WritesCell i s.shared st k (t.refreshTokens.cell k) := by
  cases exec_refreshTokens h k with
  | same h => exact .same h
  | edit hop hv he hl hcell =>
    cases hop
    rw [hst] at hv hcell
    exact .edit hv he hcell
  | create hop hk hfree hothers hc hcell =>
    cases hop
    exact .create rfl hk hc hfree hothers hcell
  | commit hop => cases hop
  | rollback hop => rcases hop with hop | hop <;> cases hop

/-- The committed rows are as they were. -/
theorem exec_write_stored (hst : st.writer i = some i)
    (h : exec crypto i x (.refreshToken st) s.shared = some (r, t)) :
    t.refreshTokens.stored = s.shared.refreshTokens.stored := by
  funext k
  cases exec_writesCell hst h k with
  | same h => exact congrArg Cell.stored h
  | edit _ _ h => exact (congrArg Cell.stored h).trans rfl
  | create _ _ hc _ _ h =>
    rw [Table.stored, Table.stored, h, hc]
    rfl

/-- The version a statement writes goes back to one that was there, or is that of a new token, whose
hash is new as well. -/
theorem version_of_write (hs : TokensSound s.shared) (hmay : MayWrite i u st s)
    (h : exec crypto i x (.refreshToken st) s.shared = some (r, t)) {k : ℕ} {r' : RefreshToken}
    (hr' : t.Version k r') : (∃ r, s.shared.Version k r ∧ r.Leads r') ∨
      ∃ data, st = .create data ∧ k = s.shared.refreshTokens.next ∧ r' = data.row ∧
        ∀ l r, s.shared.Version l r → r.tokenHash ≠ data.tokenHash := by
  rcases hr' with hr' | ⟨j, hr'⟩
  · rw [exec_write_stored hmay.inside h] at hr'
    exact .inl ⟨r', .inl hr', .refl r'⟩
  cases exec_writesCell hmay.inside h k with
  | same h => exact .inl ⟨r', .inr ⟨j, (congrArg Cell.pending h).symm.trans hr'⟩, .refl r'⟩
  | edit hr he h =>
    rw [Table.pending, h] at hr'
    cases hr'
    exact .inl ⟨_, World.version_of_tokens hr, (hmay.edits k _ _ hr he).2.1⟩
  | @create data hst hk _ hfree hothers h =>
    rw [Table.pending, h] at hr'
    cases hr'
    refine .inr ⟨data, hst, hk, rfl, ?_⟩
    rintro l r (hr | ⟨j, hr⟩)
    · obtain ⟨p, hp, hle⟩ := hs.tokens_of_stored i hr
      exact hle.tokenHash ▸ hfree l p hp
    · by_cases hj : j = i
      · exact hfree l r (World.tokens_of_pending (hj ▸ hr))
      · exact hothers l j r hr hj

/-- **A write of a transaction** that holds the lock keeps the database sound, brings no family
back to life and leaves the lock where it is. -/
theorem sessions_write (hs : (sessions crypto).Inv s) (hholds : Holds i u s)
    (hmay : MayWrite i u st s)
    (h : exec crypto i x (.refreshToken st) s.shared = some (r, t)) :
    (sessions crypto).Inv (s.after i (.refreshToken st) r t) ∧
      (sessions crypto).Guar i s (s.after i (.refreshToken st) r t) ∧
        Holds i u (s.after i (.refreshToken st) r t) := by
  have hstored := exec_write_stored hmay.inside h
  have hlocks : t.advisoryLocks = s.shared.advisoryLocks :=
    exec_advisoryLocks_eq h (fun _ ↦ nofun) nofun nofun
  have hversion := fun k r' (hr' : t.Version k r') ↦ version_of_write hs.1 hmay h hr'
  -- A new token is in a family of the user, or in one of its own.
  have hnew : ∀ data, st = .create data → data.userId = u ∧ data.familyId < s.shared.fresh ∧
      ∀ l r', s.shared.Version l r' → r'.familyId = data.familyId → r'.userId = u := by
    intro data hst
    obtain ⟨hu, ⟨⟨e, he, hdraw⟩, hnone⟩ | ⟨l, ⟨p, hp, hpu, hpF, -⟩, -⟩⟩ := hmay.creates data hst
    · exact ⟨hu, (hs.2 _ e (State.mem_history.1 he).1 hdraw).1,
        fun l r' hr' hF ↦ absurd hF (hnone l r' hr')⟩
    · exact ⟨hu, hpF ▸ hs.1.fresh l p (.inr ⟨i, hp⟩), fun l' r' hr' hF ↦
        (hs.1.families l' l r' p hr' (.inr ⟨i, hp⟩) (hF.trans hpF.symm)).trans hpu⟩
  refine ⟨⟨⟨fun v ↦ hstored ▸ hs.1.linear v, fun a b r r' hr hr' hF ↦ ?_,
    fun a b r r' hr hr' hhash ↦ ?_, fun k j r hr ↦ ?_, fun k j r r' hr hr' ↦ ?_,
    fun k r hr ↦ ?_⟩, hs.2.after h⟩, ⟨fun F hF ↦ ?_, fun k r hr ↦ ?_⟩,
    ⟨fun v ↦ hlocks ▸ hholds.lock v, fun k r hr hlive ↦ ?_⟩⟩
  · rcases hversion a r hr with ⟨r₀, hr₀, hle⟩ | ⟨data, hst, -, rfl, -⟩ <;>
      rcases hversion b r' hr' with ⟨r₀', hr₀', hle'⟩ | ⟨data', hst', -, rfl, -⟩
    · rw [hle.userId, hle'.userId]
      exact hs.1.families a b r₀ r₀' hr₀ hr₀' (hle.familyId.symm.trans (hF.trans hle'.familyId))
    · obtain ⟨hu, -, hfam⟩ := hnew data' hst'
      rw [hle.userId, hfam a r₀ hr₀ (hle.familyId.symm.trans hF)]
      exact hu.symm
    · obtain ⟨hu, -, hfam⟩ := hnew data hst
      rw [hle'.userId, hfam b r₀' hr₀' (hle'.familyId.symm.trans hF.symm)]
      exact hu
    · exact (hnew data hst).1.trans (hnew data' hst').1.symm
  · rcases hversion a r hr with ⟨r₀, hr₀, hle⟩ | ⟨data, hst, hk, rfl, hfree⟩ <;>
      rcases hversion b r' hr' with ⟨r₀', hr₀', hle'⟩ | ⟨data', hst', hk', rfl, hfree'⟩
    · exact hs.1.hashes a b r₀ r₀' hr₀ hr₀'
        (hle.tokenHash.symm.trans (hhash.trans hle'.tokenHash))
    · exact absurd (hle.tokenHash.symm.trans hhash) (hfree' a r₀ hr₀)
    · exact absurd (hle'.tokenHash.symm.trans hhash.symm) (hfree b r₀' hr₀')
    · exact hk.trans hk'.symm
  · rw [State.after_shared, hlocks]
    cases exec_writesCell hmay.inside h k with
    | same h => exact hs.1.locked k j r ((congrArg Cell.pending h).symm.trans hr)
    | edit hr₀ he h =>
      cases (congrArg Cell.pending h).symm.trans hr
      obtain ⟨hu, hle, -⟩ := hmay.edits k _ _ hr₀ he
      exact (hholds.lock _).2 (hle.userId.trans hu)
    | create hst _ _ _ _ h =>
      cases (congrArg Cell.pending h).symm.trans hr
      exact (hholds.lock _).2 (hnew _ hst).1
  · rw [State.after_shared, hstored] at hr
    cases exec_writesCell hmay.inside h k with
    | same h => exact hs.1.continues k j r r' hr ((congrArg Cell.pending h).symm.trans hr')
    | edit hr₀ he h =>
      cases (congrArg Cell.pending h).symm.trans hr'
      obtain ⟨p, hp, hle⟩ := hs.1.tokens_of_stored i hr
      obtain rfl := Option.some.inj (hr₀.symm.trans hp)
      exact hle.trans (hmay.edits k _ _ hr₀ he).2.1
    | create _ _ hc _ _ _ =>
      rw [Table.stored, hc] at hr
      cases hr
  · have hfresh := exec_fresh h
    rcases hversion k r hr with ⟨r₀, hr₀, hle⟩ | ⟨data, hst, -, rfl, -⟩
    · exact hle.familyId ▸ (hs.1.fresh k r₀ hr₀).trans_le hfresh
    · exact (hnew data hst).2.1.trans_le hfresh
  · rw [State.after_shared, World.Dead, hstored]
    exact hF
  · rcases hversion k r hr with ⟨r₀, hr₀, hle⟩ | ⟨data, hst, -, rfl, -⟩
    · exact .inl ⟨k, r₀, hr₀, hle.familyId.symm⟩
    · obtain ⟨-, ⟨⟨e, he, hdraw⟩, -⟩ | ⟨l, ⟨p, hp, -, hpF, -⟩, -⟩⟩ := hmay.creates data hst
      · exact .inr ⟨e, he, hdraw⟩
      · exact .inl ⟨l, p, .inr ⟨i, hp⟩, hpF⟩
  · -- The transaction still has written what it has written.
    have hpending : ∀ {l p}, s.shared.refreshTokens.pending l = some (i, p) →
        ∃ p', t.refreshTokens.pending l = some (i, p') := by
      intro l p hp
      cases exec_writesCell hmay.inside h l with
      | same h => exact ⟨p, (congrArg Cell.pending h).trans hp⟩
      | edit _ _ h => exact ⟨_, congrArg Cell.pending h⟩
      | create _ _ hc _ _ _ =>
        rw [Table.pending, hc] at hp
        cases hp
    rw [State.after_shared, hstored]
    cases exec_writesCell hmay.inside h k with
    | same h =>
      rcases hholds.live k r ((congrArg Cell.pending h).symm.trans hr) hlive with
        hnone | ⟨l, r', p, hr', hF, hlive', hp⟩
      · exact .inl hnone
      · obtain ⟨p', hp'⟩ := hpending hp
        exact .inr ⟨l, r', p', hr', hF, hlive', hp'⟩
    | edit hr₀ he h =>
      cases (congrArg Cell.pending h).symm.trans hr
      have := (hmay.edits k _ _ hr₀ he).2.2
      simp [hlive] at this
    | @create data hst _ _ _ _ h =>
      cases (congrArg Cell.pending h).symm.trans hr
      obtain ⟨-, ⟨-, hnone⟩ | ⟨l, ⟨p, hp, -, hpF, -⟩, r', hr', hlive'⟩⟩ := hmay.creates data hst
      · exact .inl fun l r' hr' ↦ hnone l r' (.inl hr')
      · obtain ⟨p', hp'⟩ := hpending hp
        exact .inr ⟨l, r', p', hr',
          (hs.1.continues l i r' p hr' hp).familyId.symm.trans hpF, hlive', hp'⟩

/-- The tokens a transaction sees across a write of its own that only revokes. -/
theorem write_agedOn (hst : st.writer i = some i) (hcreate : ∀ data, st ≠ .create data)
    (haged : ∀ k r r', s.shared.tokens i k = some r → RefreshTokenEdit r st k r' → r.Aged r')
    (h : exec crypto i x (.refreshToken st) s.shared = some (r, t)) :
    AgedOn u (s.shared.tokens i) (t.tokens i) := by
  refine .of_forall fun k ↦ ?_
  cases exec_writesCell hst h k with
  | same h => exact .inl (congrArg (Cell.view (some i)) h)
  | edit hr he h =>
    refine .inr ⟨_, _, hr, ?_, haged k _ _ hr he⟩
    exact World.tokens_of_pending (congrArg Cell.pending h)
  | create hst => exact absurd hst (hcreate _)

end Write

section Statements

variable {crypto : Crypto} {i : ι} {u : ℕ} {x : Choice} {s : History ι} {t : World ι}

/-! #### Revoking -/

/-- A revocation may be issued when every token in its scope is the user's. -/
theorem mayWrite_revoke {scope : RevokeWhere} {found : List ℕ} {at_ : ℤ}
    (hscope : ∀ k r, s.shared.Version k r → scope.covers r = true → r.userId = u) :
    MayWrite i u (.revoke found scope at_) s where
  inside := rfl
  edits k r r' hr he := by
    cases he with
    | revoke _ _ _ _ hk hc =>
      exact ⟨hscope k r (World.version_of_tokens hr) hc, (RefreshToken.Aged.revoke r at_).toLeads, rfl⟩
  creates _ h := by cases h

theorem revoke_agedOn {scope : RevokeWhere} {found : List ℕ} {at_ : ℤ}
    {r : Except StatementError ℕ}
    (h : exec crypto i x (.refreshToken (.revoke found scope at_)) s.shared = some (r, t)) :
    AgedOn u (s.shared.tokens i) (t.tokens i) :=
  write_agedOn rfl (fun _ h ↦ by cases h) (fun _ r _ _ he ↦ by cases he; exact .revoke r at_) h

/-- What is within the scope is found. -/
theorem within_findUnrevoked {scope : RevokeWhere} {found : List ℕ}
    (h : exec crypto i x (.refreshToken (.findUnrevoked scope)) s.shared = some (.ok found, t)) :
    Within i u scope found (s.after i (.refreshToken (.findUnrevoked scope)) (.ok found) t) := by
  cases perform_of_exec_ok h
  exact fun k r hr _ hc ↦ List.mem_map.2 ⟨⟨k, r⟩, Table.mem_select.2 ⟨hr, hc⟩, rfl⟩

/-- An answered revocation has revoked what was found. -/
theorem within_revoke {scope : RevokeWhere} {found : List ℕ} {at_ : ℤ} {n : ℕ}
    (hs : Within i u scope found s)
    (h : exec crypto i x (.refreshToken (.revoke found scope at_)) s.shared = some (.ok n, t)) :
    Within i u scope [] (s.after i (.refreshToken (.revoke found scope at_)) (.ok n) t) := by
  have hp := perform_of_exec_ok h
  simp only [perform, RefreshTokenStatement.perform] at hp
  split at hp
  · next hu =>
    cases hp
    intro k r hr hru hc
    rcases Table.updateMany_cell hu k with ⟨hsame, hclean⟩ | ⟨-, r₀, -, -, -, hwrote⟩
    · have hr₀ : s.shared.tokens i k = some r := (congrArg (Cell.view (some i)) hsame).symm.trans hr
      cases (hclean (hs k r hr₀ hru hc) r hr₀).symm.trans hc
    · have hnew := (congrArg (Cell.view (some i)) hwrote).trans (Cell.view_write ..)
      obtain rfl := Option.some.inj (hnew.symm.trans hr)
      simp [RevokeWhere.covers] at hc
  · cases hp

/-! #### Rotating -/

/-- A claim may be issued for a token of the user. -/
theorem mayWrite_claim (hs : TokensSound s.shared) {id : ℕ} {row : RefreshToken}
    (hsince : Since id row s) (hu : row.userId = u) {now after : ℤ} :
    MayWrite i u (.claim id now after) s where
  inside := rfl
  edits k r r' hr he := by
    cases he with
    | claim _ _ _ hc =>
      obtain ⟨r₀, hr₀, hle₀⟩ := hsince
      obtain ⟨p, hp, hle⟩ := hs.tokens_of_stored i hr₀
      obtain rfl := Option.some.inj (hr.symm.trans hp)
      exact ⟨(hle₀.trans hle).userId.trans hu, (RefreshToken.Aged.revoke r now).toLeads, rfl⟩
  creates _ h := by cases h

theorem claim_agedOn {id : ℕ} {now after : ℤ} {r : Except StatementError Bool}
    (h : exec crypto i x (.refreshToken (.claim id now after)) s.shared = some (r, t)) :
    AgedOn u (s.shared.tokens i) (t.tokens i) :=
  write_agedOn rfl (fun _ h ↦ by cases h) (fun _ r _ _ he ↦ by cases he; exact .revoke r now) h

/-- A successful claim found the token unrevoked and in time, and has revoked it. -/
theorem claim_found {id : ℕ} {now after : ℤ}
    (h : exec crypto i x (.refreshToken (.claim id now after)) s.shared = some (.ok true, t)) :
    ∃ r, s.shared.tokens i id = some r ∧ r.claimable now after = true ∧
      t.refreshTokens.cell id =
        (s.shared.refreshTokens.cell id).write (some i) { r with revokedAt := some now } := by
  have hp := perform_of_exec_ok h
  simp only [perform, RefreshTokenStatement.perform] at hp
  split at hp
  · next hupd =>
    cases hp
    rcases Table.updateId_cases hupd with ⟨hb, -, -⟩ | ⟨-, -, -, r, hr, hc, -, hcell⟩
    · cases hb
    · exact ⟨r, hr, hc, hcell⟩
  · cases hp

/-- A successful claim found the token live, and holds it. -/
theorem claiming_claim (hs : TokensSound s.shared) (hlin : LinearOn u (s.shared.tokens i))
    {id : ℕ} {row : RefreshToken} (hsince : Since id row s) (hu : row.userId = u) {now after : ℤ}
    (h : exec crypto i x (.refreshToken (.claim id now after)) s.shared = some (.ok true, t)) :
    Claiming i u id row.familyId
      (s.after i (.refreshToken (.claim id now after)) (.ok true) t) := by
  obtain ⟨r, hr, hc, hcell⟩ := claim_found h
  obtain ⟨r₀, hr₀, hle₀⟩ := hsince
  obtain ⟨p, hp, hle⟩ := hs.tokens_of_stored i hr₀
  obtain rfl : r = p := Option.some.inj (hr.symm.trans hp)
  have hlive : r.revokedAt = none := by
    simp only [RefreshToken.claimable, Bool.and_eq_true, Option.isNone_iff_eq_none] at hc
    exact hc.1.1
  have hru : r.userId = u := (hle₀.trans hle).userId.trans hu
  have hlast : r.replacedById = none := hlin.replacedById_of_live hp hru hlive
  refine ⟨⟨_, congrArg Cell.pending hcell, hru, (hle₀.trans hle).familyId, rfl, hlast⟩, r₀, ?_, ?_⟩
  · exact (congrArg Cell.stored hcell).trans hr₀
  · by_contra hne
    have := hle.revoked (Option.isSome_iff_ne_none.2 hne)
    simp [hlive] at this

/-- A token may be created in a family that the thread drew or in that of a token it has claimed. -/
theorem mayWrite_create {data : NewRefreshToken} (hu : data.userId = u)
    (h : Drew i data.familyId s ∨ ∃ l, Claiming i u l data.familyId s) :
    MayWrite i u (.create data) s where
  inside := rfl
  edits _ _ _ _ he := by cases he
  creates data' h' := by
    cases h'
    exact ⟨hu, h⟩

/-- A token that is created gets the next number. -/
theorem tokens_create {data : NewRefreshToken} {id : ℕ}
    (h : exec crypto i x (.refreshToken (.create data)) s.shared = some (.ok id, t)) :
    id = s.shared.refreshTokens.next ∧ t.tokens i id = some data.row ∧
      ∀ k, k ≠ id → t.tokens i k = s.shared.tokens i k := by
  have hp := perform_of_exec_ok h
  simp only [perform, RefreshTokenStatement.perform] at hp
  split at hp
  · cases hp
  split at hp
  · cases hp
  split at hp
  · cases hp
  cases hp
  refine ⟨rfl, ?_, fun k hk ↦ congrArg (Cell.view (some i)) (Table.insert_cell_of_ne _ _ _ hk)⟩
  exact World.tokens_of_pending (congrArg Cell.pending (Table.insert_cell_self _ _ _))

/-- The first token of a family. -/
theorem linearOn_begin (hlin : LinearOn u (s.shared.tokens i)) {data : NewRefreshToken}
    (hdrew : Drew i data.familyId s) {id : ℕ}
    (h : exec crypto i x (.refreshToken (.create data)) s.shared = some (.ok id, t)) :
    LinearOn u (t.tokens i) := by
  obtain ⟨rfl, hself, hother⟩ := tokens_create h
  refine hlin.begin ?_ hself hother rfl fun k r hr ↦ hdrew.2 k r (World.version_of_tokens hr)
  rw [World.tokens, s.shared.refreshTokens.fresh _ le_rfl]
  rfl

/-- The successor of a claimed token. -/
theorem linearOn_replace (hlin : LinearOn u (s.shared.tokens i)) {a : ℕ}
    {data : NewRefreshToken} (hclaim : Claiming i u a data.familyId s) (hu : data.userId = u)
    {id : ℕ} (h : exec crypto i x (.refreshToken (.create data)) s.shared = some (.ok id, t)) :
    LinearOn u (linked a id (t.tokens i)) := by
  obtain ⟨rfl, hself, hother⟩ := tokens_create h
  obtain ⟨⟨p, hp, hpu, hpF, hrev, hlast⟩, -⟩ := hclaim
  refine hlin.replace (World.tokens_of_pending hp) hpu hrev hlast ?_ ?_ hself hother hu
    hpF.symm rfl
  · rw [World.tokens, s.shared.refreshTokens.fresh _ le_rfl]
    rfl
  · intro k r hr
    refine Table.lt_next_of_cell fun he ↦ ?_
    rw [World.tokens, he] at hr
    cases hr

/-- A token that is created leaves the claim to the thread. -/
theorem claiming_create {data : NewRefreshToken} {a F : ℕ} (hclaim : Claiming i u a F s)
    {r : Except StatementError ℕ}
    (h : exec crypto i x (.refreshToken (.create data)) s.shared = some (r, t)) :
    Claiming i u a F (s.after i (.refreshToken (.create data)) r t) := by
  obtain ⟨⟨p, hp, hclaimed⟩, r₀, hr₀, hlive⟩ := hclaim
  have hcell : t.refreshTokens.cell a = s.shared.refreshTokens.cell a := by
    cases exec_writesCell rfl h a with
    | same h => exact h
    | edit _ he _ => cases he
    | create _ _ hc _ _ _ =>
      rw [Table.stored, hc] at hr₀
      cases hr₀
  exact ⟨⟨p, (congrArg Cell.pending hcell).trans hp, hclaimed⟩, r₀,
    (congrArg Cell.stored hcell).trans hr₀, hlive⟩

/-- The link to the successor may be written where the token is claimed. -/
theorem mayWrite_link {a n F : ℕ} (hclaim : Claiming i u a F s) :
    MayWrite i u (.link a n) s where
  inside := rfl
  edits k r r' hr he := by
    cases he with
    | link =>
      obtain ⟨⟨p, hp, hpu, -, hrev, hlast⟩, -⟩ := hclaim
      obtain rfl := Option.some.inj ((World.tokens_of_pending hp).symm.trans hr)
      exact ⟨hpu, ⟨rfl, rfl, rfl, fun h ↦ h, fun m hm ↦ nomatch hlast.symm.trans hm⟩, hrev⟩
  creates _ h := by cases h

/-- With the link the chain is linear. -/
theorem linearOn_link {a n : ℕ} (hlin : LinearOn u (linked a n (s.shared.tokens i)))
    (h : exec crypto i x (.refreshToken (.link a n)) s.shared = some (.ok (), t)) :
    LinearOn u (t.tokens i) := by
  have hp := perform_of_exec_ok h
  simp only [perform, RefreshTokenStatement.perform] at hp
  split at hp
  · next rows hupd =>
    cases hp
    rcases Table.updateId_cases hupd with ⟨hb, -⟩ | ⟨-, -, hother, r, hr, -, -, hcell⟩
    · cases hb
    have htokens : linked a n (s.shared.tokens i) = fun k ↦ (rows.cell k).view (some i) := by
      funext k
      by_cases hk : k = a
      · subst hk
        rw [linked_self, show s.shared.tokens i k = some r from hr, hcell, Cell.view_write]
        rfl
      · rw [linked_of_ne hk, hother k hk]
        rfl
    rw [htokens] at hlin
    exact hlin
  · cases hp
  · cases hp

/-! #### Ending a transaction -/

/-- Where a transaction holds the lock of one user only, all chains it sees are linear when those of
this user are. -/
theorem linearOn_all (hs : TokensSound s.shared) (hholds : Holds i u s)
    (hlin : LinearOn u (s.shared.tokens i)) (v : ℕ) : LinearOn v (s.shared.tokens i) := by
  by_cases hv : v = u
  · exact hv ▸ hlin
  have hother : ∀ {k r}, s.shared.refreshTokens.pending k = some (i, r) → r.userId ≠ v :=
    fun hp hr ↦ hv (hr ▸ (hholds.lock _).1 (hs.locked _ i _ hp))
  refine (hs.linear v).aged ⟨fun k r hr hrv ↦ ⟨r, ?_, .refl r⟩, fun k r hr hrv ↦ ⟨r, ?_, .refl r⟩⟩
  · rw [World.tokens_of_not_pending fun p hp ↦ ?_]
    · exact hr
    · exact hother hp ((hs.continues k i r p hr hp).userId.trans hrv)
  · rwa [World.tokens_of_not_pending fun p hp ↦ ?_] at hr
    obtain rfl := Option.some.inj ((World.tokens_of_pending hp).symm.trans hr)
    exact hother hp hrv

/-- What a transaction commits brings no family back to life. -/
theorem dead_commit (hs : TokensSound s.shared) (hholds : Holds i u s) {F : ℕ}
    (hF : s.shared.Dead F) : (s.shared.commit i).Dead F := by
  obtain ⟨⟨k, r, hr, hrF⟩, hdead⟩ := hF
  refine ⟨?_, fun l r' hr' hrF' ↦ ?_⟩
  · obtain ⟨p, hp, hle⟩ := hs.tokens_of_stored i hr
    exact ⟨k, p, (s.shared.commit_stored i k).trans hp, hle.familyId.trans hrF⟩
  rw [World.commit_stored] at hr'
  by_cases hp : ∃ p, s.shared.refreshTokens.pending l = some (i, p)
  · obtain ⟨p, hp⟩ := hp
    obtain rfl := Option.some.inj ((World.tokens_of_pending hp).symm.trans hr')
    by_contra hlive
    rw [Option.isSome_iff_ne_none, not_not] at hlive
    rcases hholds.live l p hp hlive with hnone | ⟨m, r', -, hr', hmF, hlive', -⟩
    · exact hnone k r hr (hrF.trans hrF'.symm)
    · have := hdead m r' hr' (hmF.trans hrF')
      simp [hlive'] at this
  · rw [World.tokens_of_not_pending fun r hr ↦ hp ⟨r, hr⟩] at hr'
    exact hdead l r' hr' hrF'

omit [DecidableEq ι] in
/-- Time makes no difference to the tokens. -/
theorem TokensSound.elapse {w : World ι} (hw : TokensSound w) (n : ℕ) : TokensSound (w.elapse n) :=
  ⟨hw.linear, hw.families, hw.hashes, hw.locked, hw.continues, hw.fresh⟩

theorem idle_of_releaseLocks {w : World ι} {v : ℕ} : (w.releaseLocks i).advisoryLocks v ≠ some i := by
  by_cases hv : w.advisoryLocks v = some i <;> simp [World.releaseLocks, hv]

/-- **A commit** of a transaction that holds the lock and sees the user's chains linear. -/
theorem sessions_commit {r : Except StatementError Unit} (hs : (sessions crypto).Inv s)
    (hholds : Holds i u s) (hlin : LinearOn u (s.shared.tokens i))
    (h : exec crypto i x .commit s.shared = some (r, t)) :
    (sessions crypto).Inv (s.after i .commit r t) ∧
      (sessions crypto).Guar i s (s.after i .commit r t) ∧ Idle i (s.after i .commit r t) ∧
        ∀ a, r = .ok a → t.refreshTokens.stored = s.shared.tokens i := by
  rcases exec_commit h with rfl | ⟨rfl, rfl⟩
  · refine ⟨⟨(hs.1.elapse _).commit (linearOn_all hs.1 hholds hlin), hs.2.after h⟩,
      ⟨fun F hF ↦ dead_commit hs.1 hholds hF, fun k r hr ↦ ?_⟩,
      fun v ↦ idle_of_releaseLocks, fun _ _ ↦ funext fun k ↦ World.commit_stored _ i k⟩
    exact .inl ⟨k, r, World.version_of_commit hr, rfl⟩
  · refine ⟨⟨(hs.1.elapse _).rollback i, hs.2.after h⟩, ⟨fun F ↦ World.dead_rollback.2,
      fun k r hr ↦ ?_⟩, fun v ↦ idle_of_releaseLocks, fun _ ha ↦ nomatch ha⟩
    exact .inl ⟨k, r, World.version_of_rollback hr, rfl⟩

/-- A lock that is taken is the only one of a thread that held none. -/
theorem holds_lock {r : Except StatementError Unit} (hs : TokensSound s.shared)
    (hidle : Idle i s) (h : exec crypto i x (.lockRefreshUser u) s.shared = some (r, t)) {a : Unit}
    (hr : r = .ok a) : Holds i u (s.after i (.lockRefreshUser u) r t) ∧
      LinearOn u (t.tokens i) := by
  have hspares : (Op.lockRefreshUser u).Spares := trivial
  have hsame := exec_sameTokens hspares h
  have hfree : ∀ k r, s.shared.refreshTokens.pending k ≠ some (i, r) :=
    fun k r hp ↦ hidle _ (hs.locked k i r hp)
  refine ⟨⟨fun v ↦ ?_, fun k r hp ↦ absurd (hsame.pending ▸ hp) (hfree k r)⟩, ?_⟩
  · subst hr
    have hlock : t.advisoryLocks u = some i := by
      have hp := perform_of_exec_ok h
      simp only [perform] at hp
      split at hp
      · cases hp
        simp
      · split at hp
        · next j hj hji =>
          cases hp
          exact hji ▸ hj
        · cases hp
    refine ⟨fun hv ↦ ?_, fun hv ↦ hv ▸ hlock⟩
    rcases exec_advisoryLocks h v with he | ⟨he, -⟩ | ⟨-, he, -⟩
    · exact absurd (he.symm.trans hv) (hidle v)
    · cases he
      rfl
    · cases he.symm.trans hv
  · have htokens : t.tokens i = s.shared.refreshTokens.stored := by
      rw [hsame.tokens]
      exact funext fun k ↦ World.tokens_of_not_pending (hfree k)
    exact htokens ▸ hs.linear u

/-! #### Revoking an expired token -/

/-- **A token that has expired is revoked** without a lock. -/
theorem sessions_expire {id : ℕ} {at_ : ℤ} {r : Except StatementError Unit}
    (hs : (sessions crypto).Inv s)
    (h : exec crypto i x (.refreshToken (.expire id at_)) s.shared = some (r, t)) :
    (sessions crypto).Inv (s.after i (.refreshToken (.expire id at_)) r t) ∧
      (sessions crypto).Guar i s (s.after i (.refreshToken (.expire id at_)) r t) := by
  have hlocks : t.advisoryLocks = s.shared.advisoryLocks :=
    exec_advisoryLocks_eq h (fun _ ↦ nofun) nofun nofun
  -- The statement marks one row, in no transaction, so a row with a draft refuses it.
  have hcell : ∀ k, t.refreshTokens.cell k = s.shared.refreshTokens.cell k ∨
      ∃ r, s.shared.refreshTokens.cell k = ⟨some r, none⟩ ∧
        t.refreshTokens.cell k = ⟨some { r with revokedAt := some at_ }, none⟩ := by
    intro k
    cases exec_refreshTokens h k with
    | same h => exact .inl h
    | @edit st r₀ r' hop hv he hl hcell =>
      cases hop
      cases he
      rw [RefreshTokenStatement.writer, Cell.view_none] at hv
      rcases Cell.pending_of_not_locked hl with hfree | ⟨_, _, hw, -⟩
      · refine .inr ⟨r₀, ?_, hcell.trans (congrArg (Cell.mk _) hfree)⟩
        rw [← hv]
        exact congrArg (Cell.mk _) hfree
      · cases hw
    | create hop => cases hop
    | commit hop => cases hop
    | rollback hop => rcases hop with hop | hop <;> cases hop
  have hpending : t.refreshTokens.pending = s.shared.refreshTokens.pending := by
    funext k
    rcases hcell k with h | ⟨r, h, h'⟩
    · exact congrArg Cell.pending h
    · rw [Table.pending, Table.pending, h, h']
  -- Revoking is a way to age, so the chains stay linear.
  have haged : ∀ v, AgedOn v s.shared.refreshTokens.stored t.refreshTokens.stored := by
    refine fun v ↦ .of_forall fun k ↦ ?_
    rcases hcell k with h | ⟨r, h, h'⟩
    · exact .inl (congrArg Cell.stored h)
    · exact .inr ⟨r, _, congrArg Cell.stored h, congrArg Cell.stored h', .revoke r at_⟩
  have hversion : ∀ k r', t.Version k r' → ∃ r, s.shared.Version k r ∧ r.Leads r' := by
    rintro k r' (hr' | ⟨j, hr'⟩)
    · obtain ⟨r, hr, ha⟩ := (haged r'.userId).earlier k r' hr' rfl
      exact ⟨r, .inl hr, ha.toLeads⟩
    · exact ⟨r', .inr ⟨j, hpending ▸ hr'⟩, .refl r'⟩
  refine ⟨⟨hs.1.of_versions (fun v ↦ (hs.1.linear v).aged (haged v)) hversion ?_ ?_ (exec_fresh h),
    hs.2.after h⟩, fun F hF ↦ ?_, fun k r' hr' ↦ ?_⟩
  · intro k j r hr
    rw [State.after_shared, hlocks]
    exact hs.1.locked k j r (hpending ▸ hr)
  · intro k j r r' hr hr'
    rw [State.after_shared, hpending] at hr'
    rcases hcell k with h | ⟨r₀, h, -⟩
    · exact hs.1.continues k j r r' ((congrArg Cell.stored h).symm.trans hr) hr'
    · rw [Table.pending, h] at hr'
      cases hr'
  · obtain ⟨⟨k, r, hr, hrF⟩, hdead⟩ := hF
    refine ⟨?_, fun l r' hr' hrF' ↦ ?_⟩
    · obtain ⟨r', hr', ha⟩ := (haged r.userId).later k r hr rfl
      exact ⟨k, r', hr', ha.familyId.trans hrF⟩
    · obtain ⟨r₀, hr₀, ha⟩ := (haged r'.userId).earlier l r' hr' rfl
      exact ha.revoked (hdead l r₀ hr₀ (ha.familyId.symm.trans hrF'))
  · obtain ⟨r, hr, hle⟩ := hversion k r' hr'
    exact .inl ⟨k, r, hr, hle.familyId.symm⟩

end Statements

end Stead
