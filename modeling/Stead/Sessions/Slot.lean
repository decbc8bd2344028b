import Stead.Collections.Newest
import Stead.Sessions.Families

/-!
# Making room for a family

What a sign-in knows of the families of its user from taking the lock to its commit (`Slot`): a
token that is live for it was live when it took the lock, and is of none of the families it has
revoked; and what was live then still is, unless the sign-in has revoked it or a refresh has revoked
it because it had expired.

## Expiry

That is the one thing another call can do to the tokens of a user whose lock is held, and the record
shows it (`Disturbs`). The record from the lock on is `Calm` if it shows none; then the sign-in
counts what there is.

## Preparation

`prepareRefreshFamilySlot` revokes the families bound to the device, lists the others with their
ages, and revokes the oldest of these until there is room for one more. `Prepared` says what is left
at its end, and `prepareRefreshFamilySlot_prepared` that it is so; each revocation moves one family
from those that may be live to those that are gone (`revokeFamilies_slot`).
-/

namespace Stead

open Concurrency Protocol Collections

variable {ι : Type}

/-- A token of the user in the family that is not revoked. -/
def LiveToken (f : ℕ → Option RefreshToken) (u F : ℕ) (r : RefreshToken) : Prop :=
  (∃ k, f k = some r) ∧ r.userId = u ∧ r.familyId = F ∧ r.revokedAt = none

/-- The user has an unrevoked token in the family. -/
def Live (f : ℕ → Option RefreshToken) (u F : ℕ) : Prop := ∃ r, LiveToken f u F r

/-- The family is bound to the device; none is where there is no device. -/
def Bound (f : ℕ → Option RefreshToken) (u : ℕ) (device : Option Digest) (F : ℕ) : Prop :=
  ∃ h r, device = some h ∧ LiveToken f u F r ∧ r.deviceHash = some h

/-- The families of the user with an unrevoked token that are not bound to the device. -/
def Others (f : ℕ → Option RefreshToken) (u : ℕ) (device : Option Digest) : Set ℕ :=
  {F | Live f u F ∧ ¬ Bound f u device F}

/-- Family `F` began no later than `G`. -/
def Older (f : ℕ → Option RefreshToken) (u F G : ℕ) : Prop :=
  ∀ r r', LiveToken f u F r → LiveToken f u G r' → r.familyCreatedAt ≤ r'.familyCreatedAt

/-- A live token of the user is revoked because it has expired, which is done without the lock. -/
def Disturbs (u : ℕ) (e : Happening ι) : Prop :=
  ∃ k at_ r, e.op = .refreshToken (.expire k at_) ∧
    e.before.refreshTokens.stored k = some r ∧ r.userId = u ∧ r.revokedAt = none

/-- After position `p` no token of the user is revoked because it has expired. -/
def Calm (u p : ℕ) (log : List (Happening ι)) : Prop :=
  ∀ m e, p < m → log[m]? = some e → ¬ Disturbs u e

/-- A family has one live token at most. -/
theorem LinearOn.liveToken_unique {f : ℕ → Option RefreshToken} {u F : ℕ} {r r' : RefreshToken}
    (hf : LinearOn u f) (h : LiveToken f u F r) (h' : LiveToken f u F r') : r' = r := by
  obtain ⟨⟨k, hk⟩, hu, hF, hlive⟩ := h
  obtain ⟨⟨k', hk'⟩, hu', hF', hlive'⟩ := h'
  obtain rfl := hf.live_unique hk hk' hu hu' (hF'.trans hF.symm) hlive hlive'
  exact Option.some.inj (hk'.symm.trans hk)

/-- A record is calm in its beginning. -/
theorem Calm.of_append {u p : ℕ} {log rest : List (Happening ι)} (h : Calm u p (log ++ rest)) :
    Calm u p log := by
  intro m e hm he
  refine h m e hm ?_
  rw [List.getElem?_append_left (List.getElem?_eq_some_iff.1 he).1]
  exact he

variable [DecidableEq ι]

/-! ### What others do -/

section Others

variable {crypto : Crypto} {i j : ι} {s s' : History ι}

/-- What is live for a transaction after the step of another was live before, or the other had
written it. -/
theorem OthersEdit.live {c c' : Cell ι RefreshToken} (h : OthersEdit i j c c') {r : RefreshToken}
    (hr : c'.view (some i) = some r) (hlive : r.revokedAt = none) :
    c.view (some i) = some r ∨ c.pending = some (j, r) := by
  cases h with
  | unnoticed hs hp => exact .inl ((Cell.view_congr hs hp).symm.trans hr)
  | @expired r₀ at_ _ _ h =>
    subst h
    cases hr
    cases hlive
  | committed hp h =>
    subst h
    cases hr
    exact .inr hp

/-- What was live before still is, or it has expired, or the other had written it. -/
theorem OthersEdit.live_or {c c' : Cell ι RefreshToken} (h : OthersEdit i j c c') {r : RefreshToken}
    (hr : c.view (some i) = some r) (hlive : r.revokedAt = none) :
    c'.view (some i) = some r ∨ (c.pending = none ∧ c.stored = some r ∧ c'.stored ≠ some r) ∨
      ∃ r', c.pending = some (j, r') := by
  cases h with
  | unnoticed hs hp => exact .inl ((Cell.view_congr hs hp).trans hr)
  | @expired r₀ at_ hp hs h =>
    rw [Cell.view_of_not_pending fun _ hr' ↦ nomatch hp.symm.trans hr'] at hr
    obtain rfl := Option.some.inj (hs.symm.trans hr)
    subst h
    refine .inr (.inl ⟨hp, hs, fun he ↦ ?_⟩)
    cases (congrArg RefreshToken.revokedAt (Option.some.inj he)).trans hlive
  | committed hp _ => exact .inr (.inr ⟨_, hp⟩)

/-- **Only an expiry** changes the committed version of a live token that no transaction has
written. -/
theorem expire_of_move (hm : Move (machine ι crypto) .all j s s') {k : ℕ} {r : RefreshToken}
    (hp : s.shared.refreshTokens.pending k = none)
    (hs : s.shared.refreshTokens.stored k = some r) (hlive : r.revokedAt = none)
    (hs' : s'.shared.refreshTokens.stored k ≠ some r) :
    ∃ e, s'.log = s.log ++ [e] ∧ Disturbs r.userId e := by
  cases hm with
  | crash => exact absurd ((World.rollback_stored _ j k).trans hs) hs'
  | @stmt x op resp t ha hx =>
    have hsame : t.refreshTokens.stored k = s.shared.refreshTokens.stored k → False :=
      fun h ↦ hs' (h.trans hs)
    cases exec_refreshTokens hx k with
    | same h => exact (hsame (congrArg Cell.stored h)).elim
    | @edit st r₀ r' hop hv he hl h =>
      cases st with
      | expire id at_ =>
        cases he
        subst hop
        exact ⟨_, rfl, k, at_, r, rfl, hs, rfl, hlive⟩
      | _ => exact (hsame ((congrArg Cell.stored h).trans rfl)).elim
    | create _ _ _ _ hc _ =>
      rw [Table.stored, hc] at hs
      cases hs
    | commit hop h =>
      rw [Cell.commit_of_not_pending fun r' hr' ↦ Option.some_ne_none _ (hr'.symm.trans hp)] at h
      exact (hsame (congrArg Cell.stored h)).elim
    | rollback hop h =>
      exact (hsame ((congrArg Cell.stored h).trans (Cell.rollback_stored _ _))).elim

/-- A token of a user whose lock the thread holds has not been written by another. -/
theorem not_pending_of_lock (hs : TokensSound s.shared) {u k : ℕ}
    (hlock : s.shared.advisoryLocks u = some i) (hj : j ≠ i) {r p : RefreshToken}
    (hr : s.shared.tokens i k = some r) (hu : r.userId = u) :
    s.shared.refreshTokens.pending k ≠ some (j, p) := by
  intro hp
  have hstored : s.shared.refreshTokens.stored k = some r := by
    rwa [World.tokens_of_not_pending fun r' hr' ↦ ?_] at hr
    exact hj (congrArg Prod.fst (Option.some.inj (hp.symm.trans hr')))
  have hlocked := hs.locked k j p hp
  rw [(hs.continues k j r p hstored hp).userId, hu, hlock, Option.some.injEq] at hlocked
  exact hj hlocked.symm

end Others

/-! ### The slot -/

/-- What a sign-in that begins family `F` knows after taking the lock of the user in `d`, at position
`p` of the record: a token live for it was live then, meets `may` and is of no family it has revoked,
the new one apart; and what was live then is live for it, unless a token has expired meanwhile. -/
structure Slot (i : ι) (u F p : ℕ) (d : Happening ι) (may : RefreshToken → Prop) (gone : ℕ → Prop)
    (s : History ι) : Prop where
  placed : s.log[p]? = some d
  linear : LinearOn u d.after.refreshTokens.stored
  fresh : ∀ k r, d.after.refreshTokens.stored k = some r → r.familyId ≠ F
  live : ∀ k r, s.shared.tokens i k = some r → r.userId = u → r.familyId ≠ F →
    r.revokedAt = none → d.after.refreshTokens.stored k = some r ∧ may r ∧ ¬ gone r.familyId
  stays : Calm u p s.log → ∀ k r, d.after.refreshTokens.stored k = some r → r.userId = u →
    r.revokedAt = none → ¬ gone r.familyId → s.shared.tokens i k = some r
  wrote : ∀ k r, s.shared.refreshTokens.pending k = some (i, r) → gone r.familyId ∨ r.familyId = F

section Slot

variable {crypto : Crypto} {i : ι} {u F p : ℕ} {d : Happening ι} {may : RefreshToken → Prop}
  {gone : ℕ → Prop} {s s' : History ι}

/-- What a sign-in knows of the families stays so, whatever others do. -/
theorem slot_stable : (sessions crypto).Stable i fun s ↦ InTx i u s ∧ Slot i u F p d may gone s := by
  intro s s' hr hs
  obtain ⟨htx, hslot⟩ := hs
  have hlock := (htx.1.lock u).2 rfl
  obtain ⟨j, hj, hm, -⟩ := hr.move
  -- The record only grows.
  obtain ⟨rest, hlog⟩ : ∃ rest, s'.log = s.log ++ rest := by
    cases hm with
    | stmt => exact ⟨_, rfl⟩
    | crash => exact ⟨[], (List.append_nil _).symm⟩
  have hplaced := (List.getElem?_eq_some_iff.1 hslot.placed).1
  refine ⟨linearOn_stable u s s' hr htx, ?_, hslot.linear, hslot.fresh,
    fun k r hk hu hF hlive ↦ ?_, fun hcalm k r hk hu hlive hgone ↦ ?_, fun k r hk ↦ ?_⟩
  · rw [hlog, List.getElem?_append_left hplaced]
    exact hslot.placed
  · rcases (move_others hj hm k).live hk hlive with hold | hother
    · exact hslot.live k r hold hu hF hlive
    · have hlocked := hr.inv.1.locked k j r hother
      rw [hu, hlock, Option.some.injEq] at hlocked
      exact absurd hlocked.symm hj
  · have hold := hslot.stays (hlog ▸ hcalm : Calm u p (s.log ++ rest)).of_append k r hk hu hlive hgone
    rcases (move_others hj hm k).live_or hold hlive with h | ⟨hp, hs₀, hne⟩ | ⟨r', hother⟩
    · exact h
    · obtain ⟨e, he, hdisturbs⟩ := expire_of_move hm hp hs₀ hlive hne
      refine absurd (hu ▸ hdisturbs) (hcalm s.log.length e hplaced ?_)
      rw [he, List.getElem?_append_right le_rfl, Nat.sub_self]
      rfl
    · exact absurd hother (not_pending_of_lock hr.inv.1 hlock hj hold hu)
  · exact hslot.wrote k r ((rely_pending hr).1 hk)

variable {x : Choice} {op : Op} {r : Except StatementError op.Ret} {t : World ι}

/-- What a statement of the thread leaves to be shown. -/
theorem Slot.after {may' : RefreshToken → Prop} {gone' : ℕ → Prop}
    (hs : Slot i u F p d may gone s)
    (hlive : ∀ k r, t.tokens i k = some r → r.userId = u → r.familyId ≠ F → r.revokedAt = none →
      s.shared.tokens i k = some r ∧ may' r ∧ (gone' r.familyId → gone r.familyId))
    (hstays : ∀ k r, s.shared.tokens i k = some r → r.userId = u → r.revokedAt = none →
      ¬ gone' r.familyId → t.tokens i k = some r)
    (hgone : ∀ G, gone G → gone' G)
    (hwrote : ∀ k r, t.refreshTokens.pending k = some (i, r) →
      s.shared.refreshTokens.pending k = some (i, r) ∨ gone' r.familyId ∨ r.familyId = F) :
    Slot i u F p d may' gone' (s.after i op r t) := by
  have hplaced := (List.getElem?_eq_some_iff.1 hs.placed).1
  refine ⟨State.getElem?_after_of_some hs.placed, hs.linear, hs.fresh,
    fun k r hk hu hF hl ↦ ?_, fun hcalm k r hk hu hl hg ↦ ?_, fun k r hk ↦ ?_⟩
  · obtain ⟨hold, hmay, hback⟩ := hlive k r hk hu hF hl
    obtain ⟨hd, -, hg⟩ := hs.live k r hold hu hF hl
    exact ⟨hd, hmay, fun h ↦ hg (hback h)⟩
  · exact hstays k r (hs.stays hcalm.of_append k r hk hu hl fun h ↦ hg (hgone _ h)) hu hl hg
  · rcases hwrote k r hk with hold | h
    · exact (hs.wrote k r hold).imp_left (hgone _)
    · exact h

/-- **A statement that spares the tokens**, with what its answer says of them. -/
theorem Slot.spares {may' : RefreshToken → Prop} (hs : Slot i u F p d may gone s) (hop : op.Spares)
    (h : exec crypto i x op s.shared = some (r, t))
    (hmay : ∀ k r, s.shared.tokens i k = some r → r.userId = u → r.familyId ≠ F →
      r.revokedAt = none → may r → may' r) : Slot i u F p d may' gone (s.after i op r t) := by
  have hsame := exec_sameTokens hop h
  refine hs.after (fun k r hk hu hF hl ↦ ?_) (fun k r hk _ _ _ ↦ (congrFun (hsame.tokens i) k).trans hk)
    (fun _ h ↦ h) fun k r hk ↦ .inl ((congrFun hsame.pending k).symm.trans hk)
  have hold := (congrFun (hsame.tokens i) k).symm.trans hk
  exact ⟨hold, hmay k r hold hu hF hl (hs.live k r hold hu hF hl).2.1, fun h ↦ h⟩

/-- **A revocation** of a family whose live tokens have been found. -/
theorem Slot.revoke {G : ℕ} {found : List ℕ} {at_ : ℤ} {n : ℕ} (hs : Slot i u F p d may gone s)
    (hfound : Within i u ⟨some u, some G⟩ found s)
    (h : exec crypto i x (.refreshToken (.revoke found ⟨some u, some G⟩ at_)) s.shared =
      some (.ok n, t)) :
    Slot i u F p d may (fun H ↦ gone H ∨ H = G)
      (s.after i (.refreshToken (.revoke found ⟨some u, some G⟩ at_)) (.ok n) t) := by
  have hnone := within_revoke hfound h
  -- A token is as it was, or the revocation covers it.
  have hcell : ∀ k, t.refreshTokens.cell k = s.shared.refreshTokens.cell k ∨
      ∃ r, s.shared.tokens i k = some r ∧ r.familyId = G ∧
        t.refreshTokens.cell k =
          ⟨s.shared.refreshTokens.stored k, some (i, { r with revokedAt := some at_ })⟩ := by
    intro k
    cases exec_writesCell rfl h k with
    | same h => exact .inl h
    | edit hr he hcell =>
      cases he with
      | revoke _ _ _ _ hk hc =>
        refine .inr ⟨_, hr, ?_, hcell⟩
        simp only [RevokeWhere.covers, Bool.and_eq_true] at hc
        simpa [eq_comm] using hc.2
    | create hst => cases hst
  refine hs.after (fun k r hk hu hF hl ↦ ?_) (fun k r hk hu hl hg ↦ ?_) (fun _ ↦ .inl)
    fun k r hk ↦ ?_
  · rcases hcell k with hsame | ⟨r₀, hr₀, hG, hnew⟩
    · have hold : s.shared.tokens i k = some r :=
        (congrArg (Cell.view (some i)) hsame).symm.trans hk
      refine ⟨hold, (hs.live k r hold hu hF hl).2.1, ?_⟩
      rintro (h | rfl)
      · exact h
      · refine (List.not_mem_nil (hnone k r hk hu ?_)).elim
        simp [RevokeWhere.covers, hl, hu]
    · have hview : t.tokens i k = some { r₀ with revokedAt := some at_ } :=
        World.tokens_of_pending (congrArg Cell.pending hnew)
      cases hview.symm.trans hk
      cases hl
  · rcases hcell k with hsame | ⟨r₀, hr₀, hG, -⟩
    · exact (congrArg (Cell.view (some i)) hsame).trans hk
    · cases hr₀.symm.trans hk
      exact absurd (.inr hG) hg
  · rcases hcell k with hsame | ⟨r₀, hr₀, hG, hnew⟩
    · exact .inl ((congrArg Cell.pending hsame).symm.trans hk)
    · cases (congrArg Cell.pending hnew).symm.trans hk
      exact .inr (.inl (.inr hG))

/-- **The first token of the new family.** -/
theorem Slot.create {data : NewRefreshToken} {n : ℕ} (hs : Slot i u F p d may gone s)
    (hF : data.familyId = F)
    (h : exec crypto i x (.refreshToken (.create data)) s.shared = some (.ok n, t)) :
    Slot i u F p d may gone (s.after i (.refreshToken (.create data)) (.ok n) t) := by
  have hcell : ∀ k, t.refreshTokens.cell k = s.shared.refreshTokens.cell k ∨
      s.shared.refreshTokens.cell k = .empty ∧
        t.refreshTokens.cell k = ⟨none, some (i, data.row)⟩ := by
    intro k
    cases exec_writesCell rfl h k with
    | same h => exact .inl h
    | edit _ he _ => cases he
    | create hst _ hempty _ _ hcell =>
      cases hst
      exact .inr ⟨hempty, hcell⟩
  refine hs.after (fun k r hk hu hne hl ↦ ?_) (fun k r hk hu hl hg ↦ ?_) (fun _ h ↦ h)
    fun k r hk ↦ ?_
  · rcases hcell k with hsame | ⟨-, hnew⟩
    · have hold : s.shared.tokens i k = some r :=
        (congrArg (Cell.view (some i)) hsame).symm.trans hk
      exact ⟨hold, (hs.live k r hold hu hne hl).2.1, fun h ↦ h⟩
    · have hview : t.tokens i k = some data.row :=
        World.tokens_of_pending (congrArg Cell.pending hnew)
      cases hview.symm.trans hk
      exact absurd hF hne
  · rcases hcell k with hsame | ⟨hempty, -⟩
    · exact (congrArg (Cell.view (some i)) hsame).trans hk
    · rw [World.tokens, hempty] at hk
      cases hk
  · rcases hcell k with hsame | ⟨-, hnew⟩
    · exact .inl ((congrArg Cell.pending hsame).symm.trans hk)
    · cases (congrArg Cell.pending hnew).symm.trans hk
      exact .inr (.inr hF)

end Slot

/-! ### Taking the lock -/

section Lock

variable {crypto : Crypto} {i : ι} {u F : ℕ} {s : History ι} {t : World ι} {x : Choice}

/-- Where nothing is pending of the thread it sees what is committed. -/
theorem tokens_of_idle (hs : TokensSound s.shared) (hidle : Idle i s) :
    (∀ k r, s.shared.refreshTokens.pending k ≠ some (i, r)) ∧
      s.shared.tokens i = s.shared.refreshTokens.stored := by
  have hnone : ∀ k r, s.shared.refreshTokens.pending k ≠ some (i, r) := fun k r hr ↦
    hidle _ (hs.locked k i r hr)
  exact ⟨hnone, funext fun k ↦ World.tokens_of_not_pending (hnone k)⟩

/-- **The slot begins** with the lock. -/
theorem slot_lock (hs : (sessions crypto).Inv s) (hidle : Idle i s) (hdrew : Drew i F s)
    (h : exec crypto i x (.lockRefreshUser u) s.shared = some (.ok (), t)) :
    Slot i u F s.log.length ⟨i, s.shared, .lockRefreshUser u, .ok (), t⟩ (fun _ ↦ True)
      (fun _ ↦ False) (s.after i (.lockRefreshUser u) (.ok ()) t) := by
  have hop : (Op.lockRefreshUser u).Spares := trivial
  have hsame := exec_sameTokens hop h
  have hsound := (sessions_spares hs hop h).1.1
  obtain ⟨hnone, htokens⟩ := tokens_of_idle hs.1 hidle
  have hview : t.tokens i = t.refreshTokens.stored :=
    (hsame.tokens i).trans (htokens.trans hsame.stored.symm)
  refine ⟨?_, hsound.linear u, fun k r hk hF ↦ ?_, fun k r hk _ _ _ ↦ ⟨?_, trivial, fun h ↦ h⟩,
    fun _ k r hk _ _ _ ↦ (congrFun hview k).trans hk, fun k r hk ↦ ?_⟩
  · rw [State.after_log, List.getElem?_append_right le_rfl, Nat.sub_self]
    rfl
  · exact hdrew.2 k r (hsame.version.1 (.inl hk)) hF
  · exact (congrFun hview k).symm.trans hk
  · exact absurd ((congrFun hsame.pending k).symm.trans hk) (hnone k r)

end Lock

/-! ### Making room -/

/-- The families in the order in which they are evicted. -/
def evictionOrder (families : List (ℕ × Option ℤ)) : List ℕ := (oldestFirst families).map Prod.fst

/-- What a sign-in knows when it has made room: it has revoked the families `same` that it found
bound to its device, counted the `families` left, and revoked as many of the oldest as leave room for
one more. -/
structure Prepared (cap : ℕ) (i : ι) (u F p : ℕ) (d : Happening ι) (device : Option Digest)
    (same : List ℕ) (families : List (ℕ × Option ℤ)) (s : History ι) : Prop where
  slot : Slot i u F p d
    (fun r ↦ (∀ h, device = some h → r.deviceHash = some h → r.familyId ∈ same) ∧
      r.familyId ∈ families.map Prod.fst)
    (fun G ↦ G ∈ same ∨ G ∈ (evictionOrder families).take (families.length - (cap - 1))) s
  bound : ∀ G ∈ same, Bound d.after.refreshTokens.stored u device G
  nodup : (families.map Prod.fst).Nodup
  counted : ∀ G c, (G, c) ∈ families → ∃ r, LiveToken d.after.refreshTokens.stored u G r ∧
    c = some r.familyCreatedAt ∧ ∀ h, device = some h → r.deviceHash ≠ some h
  complete : Calm u p s.log → ∀ G, Live d.after.refreshTokens.stored u G →
    G ∈ same ∨ G ∈ families.map Prod.fst

/-! #### What is read -/

section Reads

variable {crypto : Crypto} {i : ι} {u : ℕ} {w t : World ι} {x : Choice}

/-- A live token of a transaction is a row it selects. -/
theorem mem_select_live {p : RefreshToken → Bool} {r : Keyed RefreshToken} :
    r ∈ w.refreshTokens.select (some i) p ↔ w.tokens i r.id = some r.row ∧ p r.row = true :=
  Table.mem_select

/-- The families found for a device are those with a live token bound to it. -/
theorem mem_familiesOfDevice {hash : Digest} {same : List ℕ}
    (h : exec crypto i x (.refreshToken (.familiesOfDevice u hash)) w = some (.ok same, t)) {G : ℕ} :
    G ∈ same ↔ ∃ r, LiveToken (w.tokens i) u G r ∧ r.deviceHash = some hash := by
  cases perform_of_exec_ok h
  simp only [List.mem_dedup, List.mem_map, mem_select_live, Bool.and_eq_true,
    Option.isNone_iff_eq_none, decide_eq_true_eq]
  constructor
  · rintro ⟨r, ⟨hr, ⟨hu, hd⟩, hl⟩, rfl⟩
    exact ⟨r.row, ⟨⟨r.id, hr⟩, hu, rfl, hl⟩, hd⟩
  · rintro ⟨r, ⟨⟨k, hr⟩, hu, rfl, hl⟩, hd⟩
    exact ⟨⟨k, r⟩, ⟨hr, ⟨hu, hd⟩, hl⟩, rfl⟩

/-- The families that are counted are those with a live token, each once, with the time it began. -/
theorem liveFamilies_cases {families : List (ℕ × Option ℤ)} (hlinear : LinearOn u (w.tokens i))
    (h : exec crypto i x (.refreshToken (.liveFamilies u)) w = some (.ok families, t)) :
    (families.map Prod.fst).Nodup ∧
      (∀ G, G ∈ families.map Prod.fst ↔ Live (w.tokens i) u G) ∧
        ∀ G c, (G, c) ∈ families →
          ∃ r, LiveToken (w.tokens i) u G r ∧ c = some r.familyCreatedAt := by
  cases perform_of_exec_ok h
  have hmem : ∀ r : Keyed RefreshToken,
      (r ∈ w.refreshTokens.select (some i) fun r ↦ r.userId = u && r.revokedAt.isNone) ↔
        w.tokens i r.id = some r.row ∧ r.row.userId = u ∧ r.row.revokedAt = none := by
    intro r
    rw [mem_select_live]
    simp
  have hfst : ∀ (l : List ℕ) (f : ℕ → Option ℤ), (l.map fun F ↦ (F, f F)).map Prod.fst = l := by
    intro l f
    rw [List.map_map]
    exact List.map_id l
  have hfamily : ∀ G, G ∈ ((w.refreshTokens.select (some i) fun r ↦
      r.userId = u && r.revokedAt.isNone).map fun r ↦ r.row.familyId) ↔ Live (w.tokens i) u G := by
    intro G
    rw [List.mem_map]
    constructor
    · rintro ⟨r, hr, rfl⟩
      obtain ⟨hr, hu, hl⟩ := (hmem r).1 hr
      exact ⟨r.row, ⟨r.id, hr⟩, hu, rfl, hl⟩
    · rintro ⟨r, ⟨k, hr⟩, hu, rfl, hl⟩
      exact ⟨⟨k, r⟩, (hmem _).2 ⟨hr, hu, hl⟩, rfl⟩
  refine ⟨?_, fun G ↦ ?_, fun G c hc ↦ ?_⟩
  · rw [hfst, (List.perm_insertionSort _ _).nodup_iff]
    exact List.nodup_dedup _
  · rw [hfst, List.mem_insertionSort, List.mem_dedup]
    exact hfamily G
  · obtain ⟨G', hG', heq⟩ := List.mem_map.1 hc
    cases heq
    rw [List.mem_insertionSort, List.mem_dedup] at hG'
    obtain ⟨r, hr⟩ := (hfamily G).1 hG'
    refine ⟨r, hr, ?_⟩
    -- The family has one live token, so the least of its times is that token's.
    have honly : ∀ r', r' ∈ (w.refreshTokens.select (some i) fun r ↦
        r.userId = u && r.revokedAt.isNone) → r'.row.familyId = G → r'.row = r := by
      intro r' hr' hF
      obtain ⟨hk, hu, hl⟩ := (hmem r').1 hr'
      exact hlinear.liveToken_unique hr ⟨⟨r'.id, hk⟩, hu, hF, hl⟩
    obtain ⟨⟨k, hk⟩, hu, hF, hl⟩ := hr
    rw [List.min?_eq_some_iff]
    refine ⟨List.mem_map.2 ⟨⟨k, r⟩, List.mem_filter.2 ⟨(hmem _).2 ⟨hk, hu, hl⟩, by simpa using hF⟩,
      rfl⟩, fun b hb ↦ ?_⟩
    obtain ⟨r', hr', rfl⟩ := List.mem_map.1 hb
    obtain ⟨hmem', hF'⟩ := List.mem_filter.1 hr'
    rw [honly r' hmem' (by simpa using hF')]

end Reads

/-! #### The programs -/

/-- A slot may be described by less. -/
theorem Slot.mono {i : ι} {u F p : ℕ} {d : Happening ι} {may may' : RefreshToken → Prop}
    {gone gone' : ℕ → Prop} {s : History ι} (hs : Slot i u F p d may gone s)
    (hmay : ∀ r, may r → may' r) (hgone : ∀ G, gone G ↔ gone' G) :
    Slot i u F p d may' gone' s := by
  obtain rfl : gone = gone' := funext fun G ↦ propext (hgone G)
  exact ⟨hs.placed, hs.linear, hs.fresh, fun k r hk hu hF hl ↦
    ⟨(hs.live k r hk hu hF hl).1, hmay r (hs.live k r hk hu hF hl).2.1,
      (hs.live k r hk hu hF hl).2.2⟩, hs.stays, hs.wrote⟩

section Programs

variable (env : Env) {i : ι} {u F p : ℕ} {d : Happening ι} {may : RefreshToken → Prop}
  {gone : ℕ → Prop}

omit env in
theorem slot_quiet {crypto : Crypto} {s : History ι} {op : Op} {x : Choice}
    {r : Except StatementError op.Ret} {t : World ι} (hop : op.Abstains)
    (hs : InTx i u s ∧ Slot i u F p d may gone s)
    (hx : exec crypto i x op s.shared = some (r, t)) :
    InTx i u (s.after i op r t) ∧ Slot i u F p d may gone (s.after i op r t) := by
  have htx : Settled crypto i (InTx i u) := settled_inTx u
  exact ⟨htx.quiet s _ (exec_quiet hop hx) hs.1,
    hs.2.spares hop.spares hx fun _ _ _ _ _ _ h ↦ h⟩

/-- A program that spares tokens and locks. -/
theorem slot_spares {α : Type} {prog : Call α} (hprog : prog.All Op.Abstains) :
    (sessions env.crypto).Triple i (fun s ↦ InTx i u s ∧ Slot i u F p d may gone s) prog
      (fun _ s ↦ InTx i u s ∧ Slot i u F p d may gone s) fun _ _ ↦ True :=
  (Triple.of_all hprog slot_stable fun _ hop _ _ _ _ hs hp _ hx ↦
    have h := sessions_spares hs hop.spares hx
    ⟨h.1, h.2, slot_quiet hop hp hx⟩).post (fun _ _ _ h ↦ h) fun _ _ _ _ ↦ trivial

/-- A family that is revoked is gone. -/
theorem revokeFamilyOf_slot {G : ℕ} :
    (sessions env.crypto).Triple i
      (fun s ↦ (InTx i u s ∧ Slot i u F p d may gone s) ∧ Drew i F s) (revokeFamilyOf u G)
      (fun _ s ↦ (InTx i u s ∧ Slot i u F p d may (fun H ↦ gone H ∨ H = G) s) ∧ Drew i F s)
      fun _ _ ↦ True := by
  have hE : ∀ (e : Failure) (s : History ι), DbFailed i s → True := fun _ _ _ ↦ trivial
  refine (Triple.frame (C := fun op : Op ↦ ∀ data, op ≠ .refreshToken (.create data))
    (R := Drew i F) (E := fun _ _ ↦ True) ?_ ?_ (drew_stable F)
    fun op hop s _ _ _ _ _ _ _ hx hs ↦ hs.after hop hx).post (fun _ _ _ h ↦ h)
    fun _ _ _ _ ↦ trivial
  · refine .bind (slot_spares env (.run ⟨trivial, fun _ ↦ nofun⟩)) fun at_ ↦ ?_
    refine .bind (R := fun _ s ↦ InTx i u s ∧ Slot i u F p d may (fun H ↦ gone H ∨ H = G) s) ?_
      fun _ ↦ .pure slot_stable fun _ _ h ↦ h
    refine (revokeUnrevoked_triple_of env hE slot_stable slot_stable
      (fun s x found t h hx ↦ ?_) fun s x found n t h hfound hx ↦ h.revoke hfound hx).conseq
      (fun _ _ h ↦ ⟨h, .inl rfl⟩) (fun _ _ _ h ↦ h.1) fun _ _ _ h ↦ h
    exact h.spares rfl hx fun _ _ _ _ _ _ h ↦ h
  · exact .run_bind (fun _ ↦ nofun) fun _ ↦ .bind (.run_bind (fun _ ↦ nofun) fun _ ↦
      .run (fun _ ↦ nofun)) fun _ ↦ trivial

/-- **A loop of revocations.** -/
theorem revokeFamilies_slot {γ : Type} (g : γ → ℕ) (xs : List γ) :
    (sessions env.crypto).Triple i
      (fun s ↦ (InTx i u s ∧ Slot i u F p d may gone s) ∧ Drew i F s)
      (Prog.forEach xs fun x ↦ revokeFamilyOf u (g x))
      (fun _ s ↦ (InTx i u s ∧ Slot i u F p d may (fun G ↦ gone G ∨ G ∈ xs.map g) s) ∧ Drew i F s)
      fun _ _ ↦ True := by
  induction xs generalizing gone with
  | nil =>
    exact .pure (slot_stable.and (drew_stable F)) fun s _ h ↦
      ⟨⟨h.1.1, h.1.2.mono (fun _ h ↦ h) fun G ↦ by simp⟩, h.2⟩
  | cons x rest ih =>
    refine .bind (revokeFamilyOf_slot env) fun _ ↦ ih.post (fun _ s _ h ↦
      ⟨⟨h.1.1, h.1.2.mono (fun _ h ↦ h) fun G ↦ ?_⟩, h.2⟩) fun _ _ _ h ↦ h
    rw [List.map_cons, List.mem_cons, or_assoc]

omit env in
/-- What follows from calm is not lost. -/
theorem calm_lasting {crypto : Crypto} (c : Prop) :
    (sessions crypto).Lasting fun s : History ι ↦ Calm u p s.log → c := by
  intro j s s' _ _ hm _ h hcalm
  cases hm with
  | stmt => exact h hcalm.of_append
  | crash => exact h hcalm

/-- The families bound to the device of the sign-in are revoked. -/
theorem revokeDevice_slot {device : Option Digest} :
    (sessions env.crypto).Triple i
      (fun s ↦ (InTx i u s ∧ Slot i u F p d (fun _ ↦ True) (fun _ ↦ False) s) ∧ Drew i F s)
      (present device fun hash ↦ do
        let same ← run (.refreshToken (.familiesOfDevice u hash))
        Prog.forEach same fun familyId ↦ revokeFamilyOf u familyId)
      (fun _ s ↦ ∃ same : List ℕ, (∀ G ∈ same, Bound d.after.refreshTokens.stored u device G) ∧
        (InTx i u s ∧ Slot i u F p d (fun r ↦ ∀ h, device = some h → r.deviceHash = some h →
          r.familyId ∈ same) (· ∈ same) s) ∧ Drew i F s) fun _ _ ↦ True := by
  have hstable : (sessions env.crypto).Stable i fun s ↦
      (InTx i u s ∧ Slot i u F p d (fun _ ↦ True) (fun _ ↦ False) s) ∧ Drew i F s :=
    slot_stable.and (drew_stable F)
  cases device with
  | none =>
    refine .pure hstable fun s _ h ↦ ⟨[], fun _ hG ↦ absurd hG List.not_mem_nil, ⟨h.1.1, ?_⟩, h.2⟩
    exact h.1.2.mono (fun _ _ _ ↦ nofun) fun G ↦ by simp
  | some hash =>
    refine sessions_run_bind (.inl rfl) (fun same s ↦
      (∀ G ∈ same, Bound d.after.refreshTokens.stored u (some hash) G) ∧
        (InTx i u s ∧ Slot i u F p d (fun r ↦ ∀ h, some hash = some h → r.deviceHash = some h →
          r.familyId ∈ same) (fun _ ↦ False) s) ∧ Drew i F s) hstable
      (fun s x r t hs hp hx ↦ ?_) (fun _ _ _ ↦ trivial) fun same ↦ .assume fun hbound ↦ ?_
    · have hop : (Op.refreshToken (.familiesOfDevice u hash)).Abstains := ⟨rfl, fun _ ↦ nofun⟩
      have h := sessions_spares hs hop.spares hx
      refine ⟨h.1, h.2, fun same hr ↦ ?_⟩
      subst hr
      have hsame := fun G ↦ mem_familiesOfDevice (G := G) hx
      refine ⟨fun G hG ↦ ?_, ⟨(slot_quiet hop hp.1 hx).1, ?_⟩, hp.2.after (fun _ ↦ nofun) hx⟩
      · obtain ⟨r, ⟨⟨k, hk⟩, hu, hF, hl⟩, hdevice⟩ := (hsame G).1 hG
        have hne : r.familyId ≠ F := hp.2.2 k r (World.version_of_tokens hk)
        have hd := (hp.1.2.live k r hk hu hne hl).1
        exact ⟨hash, r, rfl, ⟨⟨k, hd⟩, hu, hF, hl⟩, hdevice⟩
      · refine hp.1.2.spares hop.spares hx fun k r hk hu _ hl _ h hh hdevice ↦ ?_
        cases hh
        exact (hsame _).2 ⟨r, ⟨⟨k, hk⟩, hu, rfl, hl⟩, hdevice⟩
    · refine (revokeFamilies_slot env id same).post (fun _ s _ h ↦
        ⟨same, hbound, ⟨h.1.1, h.1.2.mono (fun _ h ↦ h) fun G ↦ ?_⟩, h.2⟩) fun _ _ _ h ↦ h
      simp

/-- **Making room.** -/
theorem prepareRefreshFamilySlot_prepared {device : Option Digest} :
    (sessions env.crypto).Triple i
      (fun s ↦ (InTx i u s ∧ Slot i u F p d (fun _ ↦ True) (fun _ ↦ False) s) ∧ Drew i F s)
      (prepareRefreshFamilySlot env u device)
      (fun _ s ↦ ∃ same families, (InTx i u s ∧ Drew i F s) ∧
        Prepared env.config.maxRefreshFamiliesPerUser i u F p d device same families s)
      fun _ _ ↦ True := by
  refine .bind (revokeDevice_slot env) fun _ ↦ .exists fun same ↦ .assume fun hbound ↦ ?_
  refine sessions_run_bind (.inl rfl) (fun families s ↦
    ((families.map Prod.fst).Nodup ∧ ∀ G c, (G, c) ∈ families →
      ∃ r, LiveToken d.after.refreshTokens.stored u G r ∧ c = some r.familyCreatedAt ∧
        ∀ h, device = some h → r.deviceHash ≠ some h) ∧
    ((InTx i u s ∧ Slot i u F p d (fun r ↦ (∀ h, device = some h → r.deviceHash = some h →
      r.familyId ∈ same) ∧ r.familyId ∈ families.map Prod.fst) (· ∈ same) s) ∧ Drew i F s) ∧
      (Calm u p s.log → ∀ G, Live d.after.refreshTokens.stored u G →
        G ∈ same ∨ G ∈ families.map Prod.fst))
    (slot_stable.and (drew_stable F)) (fun s x r t hs hp hx ↦ ?_) (fun _ _ _ ↦ trivial)
    fun families ↦ .assume fun hfamilies ↦ ?_
  -- The lookup of the families abstains, so it leaves the slot and only narrows it.
  · have hop : (Op.refreshToken (.liveFamilies u)).Abstains := ⟨rfl, fun _ ↦ nofun⟩
    have h := sessions_spares hs hop.spares hx
    refine ⟨h.1, h.2, fun families hr ↦ ?_⟩
    subst hr
    obtain ⟨hnodup, hmem, hcounted⟩ := liveFamilies_cases hp.1.1.2 hx
    refine ⟨⟨hnodup, fun G c hc ↦ ?_⟩, ⟨⟨(slot_quiet hop hp.1 hx).1, ?_⟩,
      hp.2.after (fun _ ↦ nofun) hx⟩, fun hcalm G hG ↦ ?_⟩
    · obtain ⟨r, ⟨⟨k, hk⟩, hu, hF, hl⟩, hcreated⟩ := hcounted G c hc
      have hne : r.familyId ≠ F := hp.2.2 k r (World.version_of_tokens hk)
      obtain ⟨hd, hmay, hgone⟩ := hp.1.2.live k r hk hu hne hl
      exact ⟨r, ⟨⟨k, hd⟩, hu, hF, hl⟩, hcreated, fun h hh hdevice ↦ hgone (hmay h hh hdevice)⟩
    · exact hp.1.2.spares hop.spares hx fun k r hk hu _ hl hmay ↦
        ⟨hmay, (hmem _).2 ⟨r, ⟨k, hk⟩, hu, rfl, hl⟩⟩
    -- A family that was live at the lock is live still unless it was the device's.
    · by_cases hsame : G ∈ same
      · exact .inl hsame
      · obtain ⟨r, ⟨k, hk⟩, hu, rfl, hl⟩ := hG
        have hview := hp.1.2.stays hcalm.of_append k r hk hu hl hsame
        exact .inr ((hmem _).2 ⟨r, ⟨k, hview⟩, hu, rfl, hl⟩)
  -- The oldest of the families are revoked, as many as the cap requires.
  · refine ((revokeFamilies_slot env Prod.fst _).lasting (calm_lasting _)).post
      (fun _ s _ h ↦ ⟨same, families, ⟨h.1.1.1, h.1.2⟩, ?_, hbound, hfamilies.1, hfamilies.2, h.2⟩)
      fun _ _ _ h ↦ h.1
    refine h.1.1.2.mono (fun _ h ↦ h) fun G ↦ ?_
    rw [evictionOrder, List.map_take]

end Programs

end Stead
