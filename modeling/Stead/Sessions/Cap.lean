import Stead.Sessions.Logout
import Stead.Sessions.Slot

/-!
# The family cap

At the commit of a sign-in its user has at most the permitted number of families (`RoomMade`). What
`Sessions.Slot` knows of the families at that moment is a statement about the commit, so it is an
invariant of the record (`RoomKept`), and the protocol of the session calls is strengthened by it.

## Which families are left

Without an expiry in between, the families that are left are the newest of those there were when the
sign-in took the lock (`Prepared.evicted`). The order of eviction is that of the families' ages
(`evictionOrder`), and a family bound to the device of the sign-in is replaced before others are
counted.

## Expiry

An expiry is not under the lock, and can take a family away that the sign-in has counted, or one
that it would have counted. So with an expiry in between there may be fewer families than permitted,
and an older one may be left where a newer one was evicted (`family_cap_uncounted`); there are never
more.

Whether a family is live is the column `revokedAt`. A token that has expired and is not revoked
counts (`Usable` says what could still be used), so a family that nobody can use any more may take
the place of one that could be (`evicts_at_cap_expired`).
-/

namespace Stead

open Concurrency Protocol Collections

variable {ι : Type}

/-- The commit has revoked a live token of the family. -/
def Evicts (e : Happening ι) (G : ℕ) : Prop :=
  ∃ k r r', e.before.refreshTokens.stored k = some r ∧ r.familyId = G ∧ r.revokedAt = none ∧
    e.after.refreshTokens.stored k = some r' ∧ r'.revokedAt.isSome

/-- What a sign-in has made of the families of its user. In `d` it took the lock of user `u`, in `e`
it commits, and `F` is the family it begins. -/
structure RoomMade (cap u F : ℕ) (device : Option Digest) (p q : ℕ) (d e : Happening ι)
    (log : List (Happening ι)) : Prop where
  order : p < q
  lock : log[p]? = some d
  thread : d.thread = e.thread
  takes : TakesLock u d
  fresh : ¬ Live d.after.refreshTokens.stored u F
  begun : Live e.after.refreshTokens.stored u F
  count : {G | Live e.after.refreshTokens.stored u G}.encard ≤ cap
  earlier : {G | G ≠ F ∧ Live e.after.refreshTokens.stored u G} ⊆
    Others d.after.refreshTokens.stored u device
  newest : (∀ m f, p < m → m < q → log[m]? = some f → ¬ Disturbs u f) →
    Newest (Older d.after.refreshTokens.stored u) (cap - 1)
      (Others d.after.refreshTokens.stored u device)
      {G | G ≠ F ∧ Live e.after.refreshTokens.stored u G}
  evicted : ∀ G ∈ Others d.after.refreshTokens.stored u device, Evicts e G →
    (cap : ℕ∞) ≤ (Others d.after.refreshTokens.stored u device).encard ∧
      ∀ H, H ≠ F → Live e.after.refreshTokens.stored u H →
        Older d.after.refreshTokens.stored u G H

/-- What a commit has left it has left. -/
theorem RoomMade.append {cap u F : ℕ} {device : Option Digest} {p q : ℕ} {d e : Happening ι}
    {log : List (Happening ι)} (h : RoomMade cap u F device p q d e log)
    (rest : List (Happening ι)) : RoomMade cap u F device p q d e (log ++ rest) := by
  have hget : ∀ {m f}, log[m]? = some f → (log ++ rest)[m]? = some f := fun hf ↦ by
    rw [List.getElem?_append_left (List.getElem?_eq_some_iff.1 hf).1]
    exact hf
  exact { h with
    lock := hget h.lock
    newest := fun hcalm ↦ h.newest fun m f hpm hmq hf ↦ hcalm m f hpm hmq (hget hf) }

/-- What the transaction has written is committed. -/
def Commits [DecidableEq ι] (e : Happening ι) : Prop :=
  e.op = .commit ∧ e.after.refreshTokens.stored = e.before.tokens e.thread

/-! ### The families that are left -/

section Eviction

variable {families : List (ℕ × Option ℤ)}

theorem perm_evictionOrder : (evictionOrder families).Perm (families.map Prod.fst) :=
  (List.perm_insertionSort _ _).map _

theorem length_evictionOrder : (evictionOrder families).length = families.length := by
  rw [perm_evictionOrder.length_eq, List.length_map]

/-- Families counted with the time they began are evicted the oldest first. -/
theorem pairwise_evictionOrder {f : ℕ → Option RefreshToken} {u : ℕ} (hf : LinearOn u f)
    (hcounted : ∀ G c, (G, c) ∈ families → ∃ r, LiveToken f u G r ∧ c = some r.familyCreatedAt) :
    (evictionOrder families).Pairwise (Older f u) := by
  rw [evictionOrder, List.pairwise_map]
  have hsorted : (oldestFirst families).Pairwise fun a b ↦ a.2.getD 0 ≤ b.2.getD 0 :=
    List.pairwise_insertionSort _ _
  refine hsorted.imp_of_mem fun {a b} ha hb hle r r' hr hr' ↦ ?_
  obtain ⟨ra, hra, hca⟩ := hcounted a.1 a.2 ((List.perm_insertionSort _ _).subset ha)
  obtain ⟨rb, hrb, hcb⟩ := hcounted b.1 b.2 ((List.perm_insertionSort _ _).subset hb)
  rw [hf.liveToken_unique hra hr, hf.liveToken_unique hrb hr'] at *
  simpa [hca, hcb] using hle

end Eviction

section Prepared

variable [DecidableEq ι] {cap : ℕ} {i : ι} {u F p : ℕ} {d : Happening ι} {device : Option Digest}
  {same : List ℕ} {families : List (ℕ × Option ℤ)} {s : History ι}

/-- The families that were counted are those of other devices. -/
theorem Prepared.mem_others (h : Prepared cap i u F p d device same families s) {G : ℕ}
    (hG : G ∈ families.map Prod.fst) : G ∈ Others d.after.refreshTokens.stored u device := by
  obtain ⟨⟨G', c⟩, hc, rfl⟩ := List.mem_map.1 hG
  obtain ⟨r, hr, -, hdevice⟩ := h.counted G' c hc
  refine ⟨⟨r, hr⟩, ?_⟩
  rintro ⟨hash, r', hh, hr', hbound⟩
  rw [h.slot.linear.liveToken_unique hr hr'] at hbound
  exact hdevice hash hh hbound

/-- A family that is still live has been counted, and not evicted. -/
theorem Prepared.mem_left (h : Prepared cap i u F p d device same families s) {G : ℕ}
    (hne : G ≠ F) (hG : Live (s.shared.tokens i) u G) :
    G ∈ (evictionOrder families).drop (families.length - (cap - 1)) := by
  obtain ⟨r, ⟨k, hk⟩, hu, rfl, hl⟩ := hG
  obtain ⟨-, ⟨-, hcounted⟩, hgone⟩ := h.slot.live k r hk hu hne hl
  have hmem := perm_evictionOrder.mem_iff.2 hcounted
  rw [← List.take_append_drop (families.length - (cap - 1)) (evictionOrder families),
    List.mem_append] at hmem
  exact hmem.resolve_left fun htaken ↦ hgone (.inr htaken)

/-- Where no token has expired, the families of other devices have been counted. -/
theorem Prepared.mem_counted (h : Prepared cap i u F p d device same families s)
    (hcalm : Calm u p s.log) {G : ℕ} (hG : G ∈ Others d.after.refreshTokens.stored u device) :
    G ∈ families.map Prod.fst :=
  (h.complete hcalm G hG.1).resolve_left fun hsame ↦ hG.2 (h.bound G hsame)

/-- And those that were not evicted are still live. -/
theorem Prepared.live_left (h : Prepared cap i u F p d device same families s)
    (hcalm : Calm u p s.log) {G : ℕ}
    (hG : G ∈ (evictionOrder families).drop (families.length - (cap - 1))) :
    G ≠ F ∧ Live (s.shared.tokens i) u G := by
  have hcounted := perm_evictionOrder.mem_iff.1 (List.mem_of_mem_drop hG)
  have hothers := h.mem_others hcounted
  obtain ⟨r, ⟨k, hk⟩, hu, rfl, hl⟩ := hothers.1
  refine ⟨h.slot.fresh k r hk, r, ⟨k, h.slot.stays hcalm k r hk hu hl ?_⟩, hu, rfl, hl⟩
  rintro (hsame | htaken)
  · exact hothers.2 (h.bound _ hsame)
  · have hnodup := perm_evictionOrder.nodup_iff.2 h.nodup
    rw [← List.take_append_drop (families.length - (cap - 1)) (evictionOrder families),
      List.nodup_append] at hnodup
    exact hnodup.2.2 _ htaken _ hG rfl

/-- The older ones come first. -/
theorem Prepared.pairwise (h : Prepared cap i u F p d device same families s) :
    (evictionOrder families).Pairwise (Older d.after.refreshTokens.stored u) :=
  pairwise_evictionOrder h.slot.linear fun G c hc ↦
    (h.counted G c hc).imp fun _ hr ↦ ⟨hr.1, hr.2.1⟩

/-- The first token of the new family, which the transaction has written. -/
def FirstToken (i : ι) (u F : ℕ) (s : History ι) : Prop :=
  ∃ n r, s.shared.refreshTokens.pending n = some (i, r) ∧ r.userId = u ∧ r.familyId = F ∧
    r.revokedAt = none

/-- What a commit has revoked, the transaction has revoked. -/
theorem Prepared.evicted (h : Prepared cap i u F p d device same families s)
    (hs : TokensSound s.shared) {r : Except StatementError Unit} {t : World ι}
    (ht : t.refreshTokens.stored = s.shared.tokens i) {G : ℕ}
    (hG : G ∈ Others d.after.refreshTokens.stored u device)
    (hevicts : Evicts ⟨i, s.shared, .commit, r, t⟩ G) :
    G ∈ (evictionOrder families).take (families.length - (cap - 1)) := by
  obtain ⟨k, r₀, r', hr, hF, hlive, hr', hrevoked⟩ := hevicts
  have hview : s.shared.tokens i k = some r' := (congrFun ht k).symm.trans hr'
  have hpending : s.shared.refreshTokens.pending k = some (i, r') := by
    by_contra hne
    rw [World.tokens_of_not_pending fun p hp ↦ ?_, hr] at hview
    · cases hview
      simp [hlive] at hrevoked
    · rw [World.tokens_of_pending hp] at hview
      cases hview
      exact hne hp
  have hfamily : r'.familyId = G := (hs.continues k i r₀ r' hr hpending).familyId.trans hF
  rcases h.slot.wrote k r' hpending with (hsame | htaken) | hnew
  · exact absurd (h.bound _ (hfamily ▸ hsame)) hG.2
  · exact hfamily ▸ htaken
  · obtain ⟨_, ⟨l, hl⟩, _, rfl, _⟩ := hG.1
    exact absurd (hfamily.symm.trans hnew) (h.slot.fresh l _ hl)

/-- **Room has been made** when the transaction commits. -/
theorem Prepared.roomMade (h : Prepared cap i u F p d device same families s) (hcap : 1 ≤ cap)
    (hs : TokensSound s.shared) (hbegun : FirstToken i u F s) (hthread : d.thread = i)
    (htakes : TakesLock u d) {r : Except StatementError Unit} {t : World ι}
    (ht : t.refreshTokens.stored = s.shared.tokens i) :
    RoomMade cap u F device p s.log.length d ⟨i, s.shared, .commit, r, t⟩
      (s.after i .commit r t).log := by
  have hplaced := (List.getElem?_eq_some_iff.1 h.slot.placed).1
  have hnodup : (evictionOrder families).Nodup := perm_evictionOrder.nodup_iff.2 h.nodup
  have hlength : (evictionOrder families).length - (families.length - (cap - 1)) ≤ cap - 1 := by
    rw [length_evictionOrder]
    omega
  -- What is live at the commit is the new family or one that the eviction has left.
  have hleft : {G | G ≠ F ∧ Live t.refreshTokens.stored u G} ⊆
      {G | G ∈ (evictionOrder families).drop (families.length - (cap - 1))} := by
    rintro G ⟨hne, hG⟩
    exact h.mem_left hne (ht ▸ hG)
  have hothers : {G | G ∈ evictionOrder families} ⊆
      Others d.after.refreshTokens.stored u device :=
    fun G hG ↦ h.mem_others (perm_evictionOrder.mem_iff.1 hG)
  refine
    { order := hplaced
      lock := State.getElem?_after_of_some h.slot.placed
      thread := hthread
      takes := htakes
      fresh := ?_
      begun := ?_
      count := ?_
      earlier := fun G hG ↦ hothers (List.mem_of_mem_drop (hleft hG))
      newest := fun hcalm ↦ ?_
      evicted := fun G hG hevicts ↦ ?_ }
  · rintro ⟨r, ⟨k, hk⟩, _, hF, _⟩
    exact h.slot.fresh k r hk hF
  · obtain ⟨n, r, hn, hu, hF, hl⟩ := hbegun
    exact ⟨r, ⟨n, (congrFun ht n).trans (World.tokens_of_pending hn)⟩, hu, hF, hl⟩
  · -- The new family, and those that are left of the others.
    have hsubset : {G | Live t.refreshTokens.stored u G} ⊆
        insert F {G | G ∈ (evictionOrder families).drop (families.length - (cap - 1))} := by
      intro G hG
      by_cases hne : G = F
      · exact .inl hne
      · exact .inr (hleft ⟨hne, hG⟩)
    have hdrop := encard_mem (hnodup.sublist (List.drop_sublist (families.length - (cap - 1)) _))
    calc {G | Live t.refreshTokens.stored u G}.encard
        ≤ _ := Set.encard_le_encard hsubset
      _ ≤ _ := Set.encard_insert_le _ _
      _ ≤ ((cap - 1 : ℕ) : ℕ∞) + 1 := by
          rw [hdrop, List.length_drop]
          exact add_le_add_left (Nat.cast_le.2 hlength) 1
      _ = cap := by
          rw [← Nat.cast_succ, Nat.succ_eq_add_one, Nat.sub_add_cancel hcap]
  · have hcalm' : Calm u p s.log := fun m f hpm hf ↦
      hcalm m f hpm (List.getElem?_eq_some_iff.1 hf).1 (State.getElem?_after_of_some hf)
    have hall : Others d.after.refreshTokens.stored u device = {G | G ∈ evictionOrder families} :=
      Set.Subset.antisymm
        (fun G hG ↦ perm_evictionOrder.mem_iff.2 (h.mem_counted hcalm' hG)) hothers
    have hrest : {G | G ≠ F ∧ Live t.refreshTokens.stored u G} =
        {G | G ∈ (evictionOrder families).drop (families.length - (cap - 1))} :=
      Set.Subset.antisymm hleft fun G hG ↦ by
        have hlive := h.live_left hcalm' hG
        exact ⟨hlive.1, ht ▸ hlive.2⟩
    rw [hall, hrest, ← length_evictionOrder]
    exact newest_drop hnodup h.pairwise
  -- A family is evicted only if the others reach the cap, and the oldest of them first.
  · have htaken := h.evicted hs ht hG hevicts
    refine ⟨?_, fun H hne hH ↦ older_of_take_drop h.pairwise htaken (hleft ⟨hne, hH⟩)⟩
    have hpositive : 0 < families.length - (cap - 1) := by
      refine Nat.pos_of_ne_zero fun hzero ↦ ?_
      rw [hzero, List.take_zero] at htaken
      cases htaken
    calc (cap : ℕ∞) ≤ ((evictionOrder families).length : ℕ∞) := by
          rw [length_evictionOrder]
          exact Nat.cast_le.2 (by omega)
      _ = _ := (encard_mem hnodup).symm
      _ ≤ _ := Set.encard_le_encard hothers

end Prepared

/-! ### The transaction of a sign-in -/

section Transaction

variable [DecidableEq ι] (env : Env) {i : ι} {u F p : ℕ} {d : Happening ι}
  {device : Option Digest} {same : List ℕ} {families : List (ℕ × Option ℤ)}

theorem firstToken_stable {crypto : Crypto} : (sessions crypto).Stable i (FirstToken i u F) := by
  rintro s s' hr ⟨n, r, hn, h⟩
  exact ⟨n, r, (rely_pending hr).2 hn, h⟩

/-- What a sign-in knows once room has been made is kept, if what it knows of the slot is. -/
theorem Prepared.of_slot {cap : ℕ} {s s' : History ι} {rest : List (Happening ι)}
    (h : Prepared cap i u F p d device same families s) (hlog : s'.log = s.log ++ rest)
    (hslot : ∀ may gone, Slot i u F p d may gone s → Slot i u F p d may gone s') :
    Prepared cap i u F p d device same families s' :=
  { h with
    slot := hslot _ _ h.slot
    complete := fun hcalm ↦ h.complete (hlog ▸ hcalm : Calm u p (s.log ++ rest)).of_append }

theorem prepared_stable {crypto : Crypto} {cap : ℕ} : (sessions crypto).Stable i fun s ↦
    InTx i u s ∧ Prepared cap i u F p d device same families s := by
  intro s s' hr hs
  obtain ⟨j, -, hm, -⟩ := hr.move
  obtain ⟨rest, hlog⟩ : ∃ rest, s'.log = s.log ++ rest := by
    cases hm with
    | stmt => exact ⟨_, rfl⟩
    | crash => exact ⟨[], (List.append_nil _).symm⟩
  exact ⟨linearOn_stable u s s' hr hs.1, hs.2.of_slot hlog fun may gone h ↦
    (slot_stable s s' hr ⟨hs.1, h⟩).2⟩

/-- The state of a sign-in whose transaction is about to commit. -/
def RoomReady (cap : ℕ) (i : ι) (u F : ℕ) (device : Option Digest) (s : History ι) : Prop :=
  ∃ p d same families, (d.thread = i ∧ TakesLock u d) ∧
    (InTx i u s ∧ Prepared cap i u F p d device same families s) ∧ FirstToken i u F s

theorem roomReady_stable {crypto : Crypto} {cap : ℕ} :
    (sessions crypto).Stable i (RoomReady cap i u F device) := by
  rintro s s' hr ⟨p, d, same, families, hd, hprepared, hbegun⟩
  exact ⟨p, d, same, families, hd, prepared_stable s s' hr hprepared,
    firstToken_stable s s' hr hbegun⟩

/-- A program that spares tokens and locks. -/
theorem roomReady_spares {α : Type} {cap : ℕ} {prog : Call α} (hprog : prog.All Op.Abstains) :
    (sessions env.crypto).Triple i (RoomReady cap i u F device) prog
      (fun _ ↦ RoomReady cap i u F device) fun _ _ ↦ True := by
  refine (Triple.of_all hprog roomReady_stable fun op hop s x r t hs hp _ hx ↦ ?_).post
    (fun _ _ _ h ↦ h) fun _ _ _ _ ↦ trivial
  obtain ⟨p, d, same, families, hd, ⟨htx, hprepared⟩, n, r', hn, hrow⟩ := hp
  have h := sessions_spares hs hop.spares hx
  refine ⟨h.1, h.2, p, d, same, families, hd, ⟨?_, ?_⟩, n, r', ?_, hrow⟩
  · exact (slot_quiet hop ⟨htx, hprepared.slot⟩ hx).1
  · exact hprepared.of_slot rfl fun may gone hslot ↦ (slot_quiet hop ⟨htx, hslot⟩ hx).2
  · exact (congrFun (exec_sameTokens hop.spares hx).pending n).trans hn

/-- A token that is inserted is written by the transaction. -/
theorem pending_create {crypto : Crypto} {s : History ι} {x : Choice} {t : World ι}
    {data : NewRefreshToken} {n : ℕ}
    (h : exec crypto i x (.refreshToken (.create data)) s.shared = some (.ok n, t)) :
    t.refreshTokens.pending n = some (i, data.row) := by
  obtain ⟨hn, htoken, -⟩ := tokens_create h
  cases exec_writesCell rfl h n with
  | same hsame =>
    rw [World.tokens, hsame, s.shared.refreshTokens.fresh n hn.ge] at htoken
    cases htoken
  | edit _ he _ => cases he
  | create hst _ _ _ _ hcell =>
    cases hst
    exact congrArg Cell.pending hcell

/-- **The first token of the family.** -/
theorem createRefreshTokenRow_ready {cap : ℕ} {familyCreatedAt : ℤ} {rawToken : ℕ}
    (hthread : d.thread = i) (htakes : TakesLock u d) :
    (sessions env.crypto).Triple i
      (fun s ↦ (InTx i u s ∧ Prepared cap i u F p d device same families s) ∧ Drew i F s)
      (createRefreshTokenRow env u F device familyCreatedAt rawToken)
      (fun _ ↦ RoomReady cap i u F device) fun _ _ ↦ True := by
  have hE : ∀ (e : Failure) (s : History ι), DbFailed i s → True := fun _ _ _ ↦ trivial
  have hst : (sessions env.crypto).Stable i fun s ↦
      (InTx i u s ∧ Prepared cap i u F p d device same families s) ∧ Drew i F s :=
    prepared_stable.and (drew_stable F)
  refine sessions_run_bind (.inr rfl) (fun _ s ↦
    (InTx i u s ∧ Prepared cap i u F p d device same families s) ∧ Drew i F s) hst
    (fun s x r t hs hp hx ↦ ?_) hE fun now ↦
      triple_lift_bind (fun lifetime _ ↦ ?_) fun _ _ ↦ .throw hst fun _ _ _ ↦ trivial
  · have hop : (Op.host .now).Abstains := ⟨trivial, fun _ ↦ nofun⟩
    have h := sessions_spares hs hop.spares hx
    refine ⟨h.1, h.2, fun _ _ ↦ ⟨⟨(slot_quiet hop ⟨hp.1.1, hp.1.2.slot⟩ hx).1, ?_⟩,
      hp.2.after (fun _ ↦ nofun) hx⟩⟩
    exact hp.1.2.of_slot rfl fun may gone hslot ↦ (slot_quiet hop ⟨hp.1.1, hslot⟩ hx).2
  · refine sessions_run (.inl rfl) (fun _ ↦ roomReady_stable) hst (fun s x r t hs hp hx ↦ ?_) hE
    obtain ⟨hi, hg, hholds⟩ := sessions_write hs hp.1.1.1 (mayWrite_create rfl (.inl hp.2)) hx
    refine ⟨hi, hg, fun id hr ↦ ?_⟩
    subst hr
    refine ⟨p, d, same, families, ⟨hthread, htakes⟩,
      ⟨⟨hholds, linearOn_begin hp.1.1.2 hp.2 hx⟩,
        hp.1.2.of_slot rfl fun may gone hslot ↦ hslot.create rfl hx⟩, id, _, pending_create hx, ?_⟩
    exact ⟨rfl, rfl, rfl⟩

/-- **The transaction of a sign-in** makes room under the lock. -/
theorem verifiedSessionBody_ready {input : VerifiedSession} {familyCreatedAt : ℤ} {raw : ℕ}
    {consumedAt : ℤ} :
    (sessions env.crypto).Triple i (fun s ↦ Idle i s ∧ Drew i F s)
      (verifiedSessionBody env input F familyCreatedAt raw consumedAt)
      (fun _ ↦ RoomReady env.config.maxRefreshFamiliesPerUser i input.user.id F input.deviceHash)
      fun _ _ ↦ True := by
  have hbefore : Settled env.crypto i fun s ↦ Idle i s ∧ Drew i F s :=
    settled_idle.and (settled_drew F)
  have hE : ∀ (e : Failure) (s : History ι), DbFailed i s → True := fun _ _ _ ↦ trivial
  have hlooks : ∀ op : Op, op.looks = true → op.Abstains := fun op h ↦
    .of_reads (Op.reads_of_looks h)
  refine spare_bind hbefore ⟨trivial, fun _ ↦ nofun⟩ (.inl rfl) hE fun consumed ↦
    .ite (fun _ ↦ ?_) fun _ ↦ .throw hbefore.stable fun _ _ _ ↦ trivial
  refine .bind (R := fun _ s ↦ Idle i s ∧ Drew i F s) ((spares_triple hbefore ?_).post
    (fun _ _ _ h ↦ h) fun _ _ _ _ ↦ trivial) fun _ ↦ ?_
  · exact .run_bind (.of_reads rfl) fun _ ↦ .run ⟨trivial, fun _ ↦ nofun⟩
  refine spare_bind hbefore ⟨trivial, fun _ ↦ nofun⟩ (.inl rfl) hE fun _ ↦ ?_
  -- From here on the transaction holds the lock.
  refine sessions_run_bind (.inl rfl) (fun _ s ↦ ∃ p d, (d.thread = i ∧ TakesLock input.user.id d) ∧
    (InTx i input.user.id s ∧
      Slot i input.user.id F p d (fun _ ↦ True) (fun _ ↦ False) s) ∧ Drew i F s)
    hbefore.stable (fun s x r t hs hp hx ↦ ?_) hE fun _ ↦
      .exists fun p ↦ .exists fun d ↦ .assume fun hd ↦ ?_
  · have hop : (Op.lockRefreshUser input.user.id).Spares := trivial
    have h := sessions_spares hs hop hx
    refine ⟨h.1, h.2, fun a hr ↦ ?_⟩
    have hlock := holds_lock hs.1 hp.1 hx hr
    subst hr
    exact ⟨_, _, ⟨rfl, .intro⟩, ⟨hlock, slot_lock hs hp.1 hp.2 hx⟩, hp.2.after (fun _ ↦ nofun) hx⟩
  refine .bind (prepareRefreshFamilySlot_prepared env) fun _ ↦
    .exists fun same ↦ .exists fun families ↦ ?_
  refine .bind ((createRefreshTokenRow_ready env hd.1 hd.2).pre fun _ _ h ↦ ⟨⟨h.1.1, h.2⟩, h.1.2⟩)
    fun _ ↦ ?_
  refine .bind (roomReady_spares env ((signAccessToken_all env _ _).mono hlooks)) fun token ↦
    triple_lift_bind (fun expiresIn _ ↦ ?_) fun _ _ ↦ .throw roomReady_stable fun _ _ _ ↦ trivial
  refine .bind (roomReady_spares env ((encryptOtpVerificationResponse_all env _ _).mono hlooks))
    fun _ ↦ .bind (roomReady_spares env (.run ⟨trivial, fun _ ↦ nofun⟩)) fun _ ↦
      .pure roomReady_stable fun _ _ h ↦ h

end Transaction

/-! ### Every sign-in -/

section Calls

variable [DecidableEq ι] (env : Env) (calls : ι → ApiCall) {i : ι}

/-- Every commit of a sign-in on the record has made room. -/
def RoomKept (log : List (Happening ι)) : Prop :=
  ∀ q e phone countryIso otp context, log[q]? = some e →
    calls e.thread = .verifyOtp phone countryIso otp context → Commits e →
      ∃ p d u F device, hashDeviceIdentifier env context.deviceId = .ok device ∧
        RoomMade env.config.maxRefreshFamiliesPerUser u F device p q d e log

/-- The protocol of the session calls, which keep making room. -/
def capped : Protocol (machine ι env.crypto) .all :=
  (sessions env.crypto).strengthen (fun s ↦ RoomKept env calls s.log) fun _ _ h _ ↦ h

variable {env calls}

/-- A statement that is no commit of a sign-in. -/
theorem RoomKept.after {s : History ι} (hs : RoomKept env calls s.log) {op : Op}
    {r : Except StatementError op.Ret} {t : World ι}
    (hnew : ∀ phone countryIso otp context, calls i = .verifyOtp phone countryIso otp context →
      Commits ⟨i, s.shared, op, r, t⟩ →
        ∃ p d u F device, hashDeviceIdentifier env context.deviceId = .ok device ∧
          RoomMade env.config.maxRefreshFamiliesPerUser u F device p s.log.length d
            ⟨i, s.shared, op, r, t⟩ (s.after i op r t).log) :
    RoomKept env calls (s.after i op r t).log := by
  intro q e phone countryIso otp context he hcall hcommits
  rcases State.getElem?_after he with hold | ⟨rfl, rfl⟩
  · obtain ⟨p, d, u, F, device, hdevice, hroom⟩ :=
      hs q e phone countryIso otp context hold hcall hcommits
    exact ⟨p, d, u, F, device, hdevice, hroom.append _⟩
  · exact hnew phone countryIso otp context hcall hcommits

/-- Programs without a commit. -/
theorem capped_of_sessions {α : Type} {prog : Call α} {Pre : History ι → Prop}
    {Q : α → History ι → Prop} {E : Failure → History ι → Prop} {C : Op → Prop}
    (h : (sessions env.crypto).Triple i Pre prog Q E) (hprog : prog.All C)
    (hC : ∀ op, C op → op ≠ .commit) : (capped env calls).Triple i Pre prog Q E :=
  h.strengthen hprog fun op hop _ _ _ _ hs _ _ ↦
    hs.after fun _ _ _ _ _ hcommits ↦ absurd hcommits.1 (hC op hop)

variable {phone countryIso otp : String} {context : OtpVerificationContext}

/-- **The commit of a sign-in.** -/
theorem capped_transaction {input : VerifiedSession} {F : ℕ} {familyCreatedAt : ℤ} {raw : ℕ}
    {consumedAt : ℤ} (hcap : 1 ≤ env.config.maxRefreshFamiliesPerUser)
    (hi : calls i = .verifyOtp phone countryIso otp context)
    (hdevice : hashDeviceIdentifier env context.deviceId = .ok input.deviceHash) :
    (capped env calls).Triple i (fun s ↦ Idle i s ∧ Drew i F s)
      (transaction (verifiedSessionBody env input F familyCreatedAt raw consumedAt))
      (fun _ _ ↦ True) fun _ _ ↦ True := by
  have hopens : ∀ op : Op, op.Opens → op ≠ .commit := by
    rintro _ h rfl
    cases h
  refine .bind (.tryCatch (R := fun _ _ ↦ True) (capped_of_sessions
    (verifiedSessionBody_ready env) (verifiedSessionBody_all_of env hopens nofun) fun _ h ↦ h)
    fun e ↦ ?_) fun response ↦ ?_
  · refine triple_run_bind (fun _ _ ↦ True) (fun _ _ ↦ True) .const (fun s x r t hs _ _ hx ↦ ?_)
      (fun _ ↦ .throw .const fun _ _ h ↦ h) fun _ ↦ .throw .const fun _ _ h ↦ h
    have h := sessions_rollback hs.1 hx
    exact ⟨⟨h.1, hs.2.after fun _ _ _ _ _ hcommits ↦ nomatch hcommits.1⟩, h.2,
      fun _ _ ↦ trivial, fun _ _ ↦ trivial⟩
  · refine triple_run_bind (fun _ _ ↦ True) (fun _ _ ↦ True) roomReady_stable.strengthen
      (fun s x r t hs hp _ hx ↦ ?_) (fun _ ↦ .pure .const fun _ _ h ↦ h)
      fun _ ↦ .throw .const fun _ _ h ↦ h
    obtain ⟨p, d, same, families, ⟨hthread, htakes⟩, ⟨htx, hprepared⟩, hbegun⟩ := hp
    obtain ⟨hinv, hguar, -, -⟩ := sessions_commit hs.1 htx.1 htx.2 hx
    refine ⟨⟨hinv, hs.2.after fun _ _ _ _ hcall hcommits ↦ ?_⟩, hguar, fun _ _ ↦ trivial,
      fun _ _ ↦ trivial⟩
    cases hi.symm.trans hcall
    exact ⟨p, d, input.user.id, F, input.deviceHash, hdevice,
      hprepared.roomMade hcap hs.1.1 hbegun hthread htakes hcommits.2⟩

/-- **A sign-in** commits with room made. -/
theorem issueVerifiedSession_capped {input : VerifiedSession}
    (hcap : 1 ≤ env.config.maxRefreshFamiliesPerUser)
    (hi : calls i = .verifyOtp phone countryIso otp context)
    (hdevice : hashDeviceIdentifier env context.deviceId = .ok input.deviceHash) :
    (capped env calls).Triple i (Idle i) (issueVerifiedSession env input) (fun _ _ ↦ True)
      fun _ _ ↦ True := by
  have hreads : ∀ op : Op, op.reads = true → op ≠ .commit := by
    rintro _ h rfl
    cases h
  have hhost : ∀ {st : HostStatement} {R : History ι → Prop}, Settled env.crypto i R →
      Op.reads (.host st) = true → (capped env calls).Triple i R (run (.host st)) (fun _ ↦ R)
        fun _ _ ↦ True := fun hR hst ↦
    capped_of_sessions ((spares_triple hR (.run (.of_reads hst))).post (fun _ _ _ h ↦ h)
      fun _ _ _ _ ↦ trivial) (.run hst) hreads
  have hR : ∀ F, Settled env.crypto i fun s ↦ Idle i s ∧ Drew i F s := fun F ↦
    settled_idle.and (settled_drew F)
  refine .bind (capped_of_sessions (C := fun op ↦ op.reads = true) (drawFamily_triple env)
    (.run rfl) hreads) fun F ↦
    .bind (hhost (hR F) rfl) fun familyCreatedAt ↦ .bind (hhost (hR F) rfl) fun raw ↦
      .bind (hhost (hR F) rfl) fun consumedAt ↦
        .tryCatch (R := fun _ _ ↦ True) (capped_transaction hcap hi hdevice) fun e ↦ ?_
  -- The handler looks a replay up and writes nothing.
  refine capped_of_sessions (spares_triple settled_true ?_) ?_ hreads
  · refine .bind ((replayOtpVerification_all env _).mono fun _ h ↦
      .of_reads (Op.reads_of_looks h)) fun replay ↦ ?_
    cases replay <;> trivial
  · refine .bind ((replayOtpVerification_all env _).mono fun _ h ↦
      Op.reads_of_looks h) fun replay ↦ ?_
    cases replay <;> trivial

/-- **Every call** keeps the room. -/
theorem program_capped (hcap : 1 ≤ env.config.maxRefreshFamiliesPerUser) :
    (capped env calls).Triple i (fun s ↦ Idle i s ∧ SawNone i s) ((calls i).program env)
      (fun _ _ ↦ True) fun _ _ ↦ True := by
  by_cases hcall : ∃ phone countryIso otp context,
      calls i = .verifyOtp phone countryIso otp context
  · obtain ⟨phone, countryIso, otp, context, hi⟩ := hcall
    have hguesses : ∀ op : Op, op.Guesses → op ≠ .commit := by
      rintro _ h rfl
      cases h
    rw [hi]
    have hverify : (capped env calls).Triple i (Idle i)
        (verifyOtp env phone countryIso otp context) (fun _ _ ↦ True) fun _ _ ↦ True :=
      verifyOtp_triple_of env idle_stable.strengthen
        (fun hp ↦ capped_of_sessions (idle_triple env (hp.mono fun _ ↦ Op.Guesses.abstains)) hp
          hguesses) (fun _ _ _ _ ↦ trivial) (fun _ _ _ _ ↦ trivial)
        fun input hdevice ↦ issueVerifiedSession_capped hcap hi hdevice
    exact .bind (hverify.pre fun _ _ h ↦ h.1) fun _ ↦ .pure .const fun _ _ h ↦ h
  · refine ((program_triple env (calls i)).strengthen (Prog.all_true _)
      fun op _ s x r t hs _ _ ↦ hs.after fun phone countryIso otp context h _ ↦ ?_).post
      (fun _ _ _ _ ↦ trivial) fun _ _ _ _ ↦ trivial
    exact absurd ⟨phone, countryIso, otp, context, h⟩ hcall

variable (calls) in
/-- **Every run** keeps the room. -/
theorem capped_safe {w : World ι} (hw : TokensSound w) (hlocks : ∀ u, w.advisoryLocks u = none)
    (hcap : 1 ≤ env.config.maxRefreshFamiliesPerUser) :
    (capped env calls).AllSafe (fun _ _ _ ↦ True) (fun _ _ _ ↦ True)
      (System.start env w calls) := by
  have hidle : ∀ j, Idle j (⟨w, []⟩ : History ι) := fun j u hu ↦ nomatch (hlocks u).symm.trans hu
  exact .start (fun j s ↦ Idle j s ∧ SawNone j s)
    ⟨⟨hw, fun _ _ he ↦ nomatch he⟩, fun _ _ _ _ _ _ he ↦ nomatch he⟩
    (fun j ↦ ⟨hidle j, fun _ he ↦ nomatch he⟩) fun j ↦ program_capped hcap

end Calls

/-- The cap permits one family at least. -/
theorem Config.one_le_maxRefreshFamiliesPerUser (config : Config) :
    1 ≤ config.maxRefreshFamiliesPerUser := by
  unfold Config.maxRefreshFamiliesPerUser
  split
  · split
    · next h => exact Nat.le_floor (by simpa using h)
    · decide
  · decide

/-! ### Reading the families of a table -/

/-- The user has a token in the family that can still be refreshed: it is not revoked and has not
expired, and the family is not past its age. -/
def Usable (familyMaxAgeMs : ℕ) (now : ℤ) (f : ℕ → Option RefreshToken) (u F : ℕ) : Prop :=
  ∃ r, LiveToken f u F r ∧ now < r.expiresAt ∧ now < r.familyCreatedAt + familyMaxAgeMs

section Tables

variable [DecidableEq ι] {t : Table ι RefreshToken} {u F G : ℕ}

/-- The live tokens of a family. -/
def liveRows (t : Table ι RefreshToken) (u F : ℕ) : List (Keyed RefreshToken) :=
  t.select none fun r ↦ r.userId = u ∧ r.familyId = F ∧ r.revokedAt = none

theorem exists_liveToken {P : RefreshToken → Prop} :
    (∃ r, LiveToken t.stored u F r ∧ P r) ↔ ∃ k ∈ liveRows t u F, P k.row := by
  constructor
  · rintro ⟨r, ⟨⟨k, hk⟩, h⟩, hP⟩
    exact ⟨⟨k, r⟩, Table.mem_select.2 ⟨(Cell.view_none _).trans hk, decide_eq_true h⟩, hP⟩
  · rintro ⟨k, hk, hP⟩
    obtain ⟨hrow, h⟩ := Table.mem_select.1 hk
    exact ⟨k.row, ⟨⟨k.id, (Cell.view_none _).symm.trans hrow⟩, of_decide_eq_true h⟩, hP⟩

theorem forall_liveToken {P : RefreshToken → Prop} :
    (∀ r, LiveToken t.stored u F r → P r) ↔ ∀ k ∈ liveRows t u F, P k.row := by
  have h := not_congr (exists_liveToken (t := t) (u := u) (F := F) (P := fun r ↦ ¬ P r))
  simpa using h

instance : Decidable (Live t.stored u F) :=
  decidable_of_iff (∃ k ∈ liveRows t u F, True) <|
    (exists_liveToken (P := fun _ ↦ True)).symm.trans (by simp only [and_true, Live])

/-- The families with a usable token. -/
def usableFamilies (familyMaxAgeMs : ℕ) (now : ℤ) (t : Table ι RefreshToken) (u : ℕ) : List ℕ :=
  (t.select none fun r ↦ r.userId = u ∧ r.revokedAt = none ∧ now < r.expiresAt ∧
    now < r.familyCreatedAt + familyMaxAgeMs).map (·.row.familyId)

theorem mem_usableFamilies {familyMaxAgeMs : ℕ} {now : ℤ} :
    F ∈ usableFamilies familyMaxAgeMs now t u ↔ Usable familyMaxAgeMs now t.stored u F := by
  rw [usableFamilies, List.mem_map]
  constructor
  · rintro ⟨k, hk, rfl⟩
    obtain ⟨hrow, h⟩ := Table.mem_select.1 hk
    obtain ⟨hu, hlive, h⟩ := of_decide_eq_true h
    exact ⟨k.row, ⟨⟨k.id, (Cell.view_none _).symm.trans hrow⟩, hu, rfl, hlive⟩, h⟩
  · rintro ⟨r, ⟨⟨k, hk⟩, hu, hF, hlive⟩, h⟩
    exact ⟨⟨k, r⟩, Table.mem_select.2 ⟨(Cell.view_none _).trans hk,
      decide_eq_true ⟨hu, hlive, h⟩⟩, hF⟩

/-- The families of the tokens that a statement has revoked. -/
def evictedFamilies (e : Happening ι) : List ℕ :=
  ((e.before.refreshTokens.select none fun r ↦ r.revokedAt = none).filter fun k ↦
    (e.after.refreshTokens.stored k.id).any fun r ↦ r.revokedAt.isSome).map (·.row.familyId)

theorem evicts_of_mem {e : Happening ι} (h : G ∈ evictedFamilies e) : Evicts e G := by
  obtain ⟨k, hk, rfl⟩ := List.mem_map.1 h
  obtain ⟨hk, hrevoked⟩ := List.mem_filter.1 hk
  obtain ⟨hrow, hlive⟩ := Table.mem_select.1 hk
  obtain ⟨r', hr', hrevoked⟩ := (Option.any_eq_true ..).1 hrevoked
  exact ⟨k.id, k.row, r', (Cell.view_none _).symm.trans hrow, rfl, of_decide_eq_true hlive, hr',
    hrevoked⟩

instance : Decidable (Older t.stored u F G) :=
  decidable_of_iff
    (∀ k ∈ liveRows t u F, ∀ l ∈ liveRows t u G, k.row.familyCreatedAt ≤ l.row.familyCreatedAt) <|
    (forall_liveToken (P := fun r ↦ ∀ l ∈ liveRows t u G,
      r.familyCreatedAt ≤ l.row.familyCreatedAt)).symm.trans <| forall_congr' fun r ↦
        have h := forall_liveToken (t := t) (u := u) (F := G)
          (P := fun r' ↦ r.familyCreatedAt ≤ r'.familyCreatedAt)
        ⟨fun hrows r' hr hr' ↦ h.2 (hrows hr) r' hr', fun holder hr ↦ h.1 fun r' ↦ holder r' hr⟩

/-- Where no device is given, all families are others. -/
theorem mem_others_none {f : ℕ → Option RefreshToken} : F ∈ Others f u none ↔ Live f u F :=
  ⟨fun h ↦ h.1, fun h ↦ ⟨h, fun ⟨_, _, hnone, _⟩ ↦ nomatch hnone⟩⟩

end Tables

namespace Demo

/-- Two families at most. -/
def capEnv : Env :=
  { env with config := { env.config with AUTH_REFRESH_MAX_FAMILIES_PER_USER := some 2 } }

/-- A day, in milliseconds. -/
def DAY_MS : ℕ := 86400000

/-- Three sign-ins, and a refresh of each of the first two sessions. -/
def capCalls : ℕ → ApiCall
  | 0 => requestOtp '0'
  | 1 => .verifyOtp "+1" "NG" "" { idempotencyKey := some (key '1') }
  | 2 => requestOtp '2'
  | 3 => .verifyOtp "+1" "NG" "" { idempotencyKey := some (key '3') }
  | 4 => .refreshSession 1 {}
  | 5 => requestOtp '5'
  | 6 => .verifyOtp "+1" "NG" "" { idempotencyKey := some (key '6') }
  | _ => .refreshSession 3 {}

/-- Thread `i` waits for some days before the first of `n` statements. -/
def stepsAfter (i days n : ℕ) : List (Turn ℕ Choice) :=
  ⟨i, { elapse := days * DAY_MS }⟩ :: steps i (n - 1)

/-- The user whose lock a statement takes. -/
def lockTaken : Happening ι → Option ℕ
  | ⟨_, _, .lockRefreshUser u, .ok _, _⟩ => some u
  | _ => none

theorem takesLock_of_lockTaken {e : Happening ι} {u : ℕ} (h : lockTaken e = some u) :
    TakesLock u e := by
  unfold lockTaken at h
  split at h
  · cases h
    exact .intro
  · cases h

/-- A commit that succeeded. -/
def committed : Happening ι → Bool
  | ⟨_, _, .commit, .ok _, _⟩ => true
  | _ => false

theorem commits_of_committed [DecidableEq ι] {crypto : Crypto} {c₀ c : System ι}
    (h : Run (machine ι crypto) .all c₀ c) {q : ℕ} {e : Happening ι}
    (he : c.state.log[q]? = some e) (hq : c₀.state.log.length ≤ q)
    (hcommitted : committed e = true) :
    Commits e := by
  obtain ⟨c₁, c₂, hm⟩ := h.moment he hq
  obtain ⟨x, hx⟩ := hm.exec
  unfold committed at hcommitted
  split at hcommitted
  · rcases exec_commit hx with ht | ⟨hr, -⟩
    · refine ⟨rfl, funext fun k ↦ ?_⟩
      rw [ht]
      exact World.commit_stored _ _ k
    · cases hr
  · cases hcommitted

/-- Two statements on a record, and what is decided about them. -/
theorem exists_of_any (log : List (Happening ι)) (p q : ℕ) {P : Happening ι → Happening ι → Bool}
    (h : (log[p]?.any fun d ↦ log[q]?.any (P d)) = true) :
    ∃ d e, log[p]? = some d ∧ log[q]? = some e ∧ P d e = true := by
  obtain ⟨d, hd, h⟩ := (Option.any_eq_true ..).1 h
  obtain ⟨e, he, h⟩ := (Option.any_eq_true ..).1 h
  exact ⟨d, e, hd, he, h⟩

/-- Thread 6 takes the lock of the user in one statement, and commits in the other. -/
def signsIn (d e : Happening ℕ) : Bool :=
  d.thread = 6 && e.thread = 6 && lockTaken d = some 0 && committed e

/-- The maximal age of a family, ninety days. -/
def FAMILY_MAX_AGE_MS : ℕ := 90 * DAY_MS

/-- The first session is the only one that could be refreshed, and is evicted. -/
def EvictsFirst (d e : Happening ℕ) : Prop :=
  signsIn d e = true ∧
    usableFamilies FAMILY_MAX_AGE_MS d.after.now d.after.refreshTokens 0 = [0] ∧
    evictedFamilies e = [0]

instance (d e : Happening ℕ) : Decidable (EvictsFirst d e) := inferInstanceAs (Decidable (_ ∧ _ ∧ _))

/-- The first session stays, although the second is not older and does not. -/
def KeepsFirst (d e : Happening ℕ) : Prop :=
  signsIn d e = true ∧
    (¬ Live d.after.refreshTokens.stored 0 5 ∧ Live e.after.refreshTokens.stored 0 5) ∧
    Live e.after.refreshTokens.stored 0 0 ∧
    (Live d.after.refreshTokens.stored 0 2 ∧ ¬ Live e.after.refreshTokens.stored 0 2) ∧
    ¬ Older d.after.refreshTokens.stored 0 2 0

instance (d e : Happening ℕ) : Decidable (KeepsFirst d e) :=
  inferInstanceAs (Decidable (_ ∧ _ ∧ _ ∧ _ ∧ _))

/-- The third sign-in goes on; or a refresh finds the second session expired before the families are
counted. -/
def BothEnds (c : System ℕ) : Prop :=
  (c.turns (machine ℕ crypto) anything (steps 6 10)).any (fun c' ↦
    c'.state.log[124]?.any fun d ↦ c'.state.log[134]?.any fun e ↦ EvictsFirst d e) = true ∧
  (c.turns (machine ℕ crypto) anything (steps 7 4 ++ steps 6 7)).any (fun c' ↦
    c'.state.log[124]?.any fun d ↦ c'.state.log[135]?.any fun e ↦ KeepsFirst d e) = true

instance (c : System ℕ) : Decidable (BothEnds c) := inferInstanceAs (Decidable (_ ∧ _))

/-- The second session begins a day after the first, which alone is refreshed. Forty days after the
first began, a third sign-in takes the lock. -/
theorem thirdSignIn_runs : ((System.start capEnv world capCalls).turns (machine ℕ crypto) anything
    (steps 0 18 ++ steps 1 22 ++ stepsAfter 2 1 18 ++ steps 3 22 ++ stepsAfter 4 28 12 ++
      stepsAfter 5 11 18 ++ steps 6 15)).any (fun c ↦ BothEnds c) = true := by
  decide +kernel

/-- Two sessions, and a third sign-in on its way. -/
def thirdSignIn : System ℕ :=
  after (System.start capEnv world capCalls) _ _ (Option.isSome_of_any thirdSignIn_runs)

theorem thirdSignIn_ends : BothEnds thirdSignIn :=
  of_decide_eq_true (Config.afterTurns_of_any thirdSignIn_runs)

/-- It evicts the first session. -/
def evicted : System ℕ := after thirdSignIn _ _ (Option.isSome_of_any thirdSignIn_ends.1)

/-- A refresh finds the second session expired before the families are counted. -/
def uncounted : System ℕ := after thirdSignIn _ _ (Option.isSome_of_any thirdSignIn_ends.2)

theorem reaches_evicted :
    System.Reaches capEnv .all (System.start capEnv world capCalls) evicted :=
  (reaches_after _ _ _).trans (reaches_after _ _ _)

theorem reaches_uncounted :
    System.Reaches capEnv .all (System.start capEnv world capCalls) uncounted :=
  (reaches_after _ _ _).trans (reaches_after _ _ _)

theorem BothEnds.evicts {c : System ℕ} (h : BothEnds c) :
    ∃ d e, (after c _ _ (Option.isSome_of_any h.1)).state.log[124]? = some d ∧
      (after c _ _ (Option.isSome_of_any h.1)).state.log[134]? = some e ∧ EvictsFirst d e := by
  obtain ⟨d, e, hd, he, hends⟩ := exists_of_any _ 124 134 (Config.afterTurns_of_any h.1)
  exact ⟨d, e, hd, he, of_decide_eq_true hends⟩

theorem BothEnds.keeps {c : System ℕ} (h : BothEnds c) :
    ∃ d e, (after c _ _ (Option.isSome_of_any h.2)).state.log[124]? = some d ∧
      (after c _ _ (Option.isSome_of_any h.2)).state.log[135]? = some e ∧ KeepsFirst d e := by
  obtain ⟨d, e, hd, he, hends⟩ := exists_of_any _ 124 135 (Config.afterTurns_of_any h.2)
  exact ⟨d, e, hd, he, of_decide_eq_true hends⟩

theorem evicted_log : ∃ d e, evicted.state.log[124]? = some d ∧ evicted.state.log[134]? = some e ∧
    EvictsFirst d e := by
  have heq : evicted = after thirdSignIn _ _ (Option.isSome_of_any thirdSignIn_ends.1) := rfl
  rw [heq]
  exact thirdSignIn_ends.evicts

theorem uncounted_log : ∃ d e, uncounted.state.log[124]? = some d ∧
    uncounted.state.log[135]? = some e ∧ KeepsFirst d e := by
  have heq : uncounted = after thirdSignIn _ _ (Option.isSome_of_any thirdSignIn_ends.2) := rfl
  rw [heq]
  exact thirdSignIn_ends.keeps

theorem signsIn_iff {d e : Happening ℕ} : signsIn d e = true ↔
    d.thread = 6 ∧ e.thread = 6 ∧ lockTaken d = some 0 ∧ committed e = true := by
  simp [signsIn, and_assoc]

theorem capCalls_six : capCalls 6 =
    .verifyOtp "+1" "NG" "" { idempotencyKey := some (key '6') } := rfl

end Demo

section Claims

variable [DecidableEq ι]

/-- **The family cap.** Immediately after a sign-in commits, its user has at most the permitted
number of families with an unrevoked token; the new one is among them, and the others had one when
the sign-in took the lock and were not bound to its device. No family that it has evicted is newer
than one of these; and if no unrevoked token of the user has been revoked for its expiry since the
lock was taken, they are the newest of all there were. The eviction never looks beyond its list. -/
theorem family_cap (env : Env) {w : World ι} (hw : TokensSound w)
    (hlocks : ∀ u, w.advisoryLocks u = none) (calls : ι → ApiCall) {c : System ι}
    (hc : System.Reaches env .all (System.start env w calls) c) {q : ℕ} {e : Happening ι}
    (he : c.state.log[q]? = some e) {phone countryIso otp : String}
    {context : OtpVerificationContext}
    (hcall : calls e.thread = .verifyOtp phone countryIso otp context) (hcommits : Commits e) :
    (∃ p d u F device, hashDeviceIdentifier env context.deviceId = .ok device ∧
      p < q ∧ c.state.log[p]? = some d ∧ d.thread = e.thread ∧ TakesLock u d ∧
      {G | Live e.after.refreshTokens.stored u G}.encard ≤ env.config.maxRefreshFamiliesPerUser ∧
      ¬ Live d.after.refreshTokens.stored u F ∧ Live e.after.refreshTokens.stored u F ∧
      {G | G ≠ F ∧ Live e.after.refreshTokens.stored u G} ⊆
        Others d.after.refreshTokens.stored u device ∧
      (∀ G ∈ Others d.after.refreshTokens.stored u device, Evicts e G →
        ∀ H, H ≠ F → Live e.after.refreshTokens.stored u H →
          Older d.after.refreshTokens.stored u G H) ∧
      ((∀ m f, p < m → m < q → c.state.log[m]? = some f → ¬ Disturbs u f) →
        Newest (Older d.after.refreshTokens.stored u) (env.config.maxRefreshFamiliesPerUser - 1)
          (Others d.after.refreshTokens.stored u device)
          {G | G ≠ F ∧ Live e.after.refreshTokens.stored u G})) ∧
      ∀ (liveFamilies : List (ℕ × Option ℤ)) (index : ℕ),
        (index : ℤ) < liveFamilies.length - ((env.config.maxRefreshFamiliesPerUser : ℤ) - 1) →
          index < (oldestFirst liveFamilies).length := by
  have hcap := env.config.one_le_maxRefreshFamiliesPerUser
  obtain ⟨p, d, u, F, device, hdevice, hroom⟩ :=
    ((capped_safe calls hw hlocks hcap).run hc).1.2 q e _ _ _ _ he hcall hcommits
  refine ⟨⟨p, d, u, F, device, hdevice, hroom.order, hroom.lock, hroom.thread, hroom.takes,
    hroom.count, hroom.fresh, hroom.begun, hroom.earlier,
    fun G hG hevicts ↦ (hroom.evicted G hG hevicts).2, hroom.newest⟩, fun families index h ↦ ?_⟩
  rw [oldestFirst, List.length_insertionSort]
  omega

/-- Two families are left, as the cap permits. -/
theorem family_cap_evicted : ∃ e, Demo.evicted.state.log[134]? = some e ∧
    ∃ u, {G | Live e.after.refreshTokens.stored u G}.encard ≤
      Demo.capEnv.config.maxRefreshFamiliesPerUser := by
  obtain ⟨d, e, hd, he, hsigns, -⟩ := Demo.evicted_log
  obtain ⟨-, hthread, -, hcommitted⟩ := Demo.signsIn_iff.1 hsigns
  have hcommits := Demo.commits_of_committed Demo.reaches_evicted he (Nat.zero_le _) hcommitted
  obtain ⟨⟨p, d, u, F, device, -, -, -, -, -, hcount, -⟩, -⟩ :=
    family_cap Demo.capEnv Demo.tokensSound_world (fun _ ↦ rfl) Demo.capCalls Demo.reaches_evicted
      he (hthread ▸ Demo.capCalls_six) hcommits
  exact ⟨e, he, u, hcount⟩

/-- A refresh of the second session finds it expired after the third sign-in has taken the lock, and
before it counts the families. Then the first session stays, although the second is the newer one of
those there were. -/
theorem family_cap_uncounted :
    System.Reaches Demo.capEnv .all (System.start Demo.capEnv Demo.world Demo.capCalls)
      Demo.uncounted ∧
    Demo.capCalls 6 = .verifyOtp "+1" "NG" "" { idempotencyKey := some (Demo.key '6') } ∧
    hashDeviceIdentifier Demo.capEnv none = .ok none ∧
    ∃ d e F, Demo.uncounted.state.log[124]? = some d ∧ Demo.uncounted.state.log[135]? = some e ∧
      d.thread = 6 ∧ e.thread = 6 ∧ TakesLock 0 d ∧ Commits e ∧
      ¬ Live d.after.refreshTokens.stored 0 F ∧ Live e.after.refreshTokens.stored 0 F ∧
      ¬ Newest (Older d.after.refreshTokens.stored 0)
        (Demo.capEnv.config.maxRefreshFamiliesPerUser - 1)
        (Others d.after.refreshTokens.stored 0 none)
        {G | G ≠ F ∧ Live e.after.refreshTokens.stored 0 G} := by
  obtain ⟨d, e, hd, he, hsigns, hnew, hfirst, hsecond, holder⟩ := Demo.uncounted_log
  obtain ⟨hd6, he6, htakes, hcommitted⟩ := Demo.signsIn_iff.1 hsigns
  refine ⟨Demo.reaches_uncounted, rfl, rfl, d, e, 5, hd, he, hd6, he6,
    Demo.takesLock_of_lockTaken htakes,
    Demo.commits_of_committed Demo.reaches_uncounted he (Nat.zero_le _) hcommitted,
    hnew.1, hnew.2, fun hnewest ↦ holder ?_⟩
  exact hnewest.newest 0 ⟨by decide, hfirst⟩ 2 (mem_others_none.2 hsecond.1)
    fun h ↦ hsecond.2 h.2

/-- **An eviction is due to the cap.** A sign-in revokes a family of another device only if, when it
took the lock, the families of the user with an unrevoked token that were not bound to its device
were already as many as the cap permits: those that cannot be refreshed any more count as well. -/
theorem evicts_at_cap (env : Env) {w : World ι} (hw : TokensSound w)
    (hlocks : ∀ u, w.advisoryLocks u = none) (calls : ι → ApiCall) {c : System ι}
    (hc : System.Reaches env .all (System.start env w calls) c) {q : ℕ} {e : Happening ι}
    (he : c.state.log[q]? = some e) {phone countryIso otp : String}
    {context : OtpVerificationContext}
    (hcall : calls e.thread = .verifyOtp phone countryIso otp context) (hcommits : Commits e) :
    ∃ p d u device, hashDeviceIdentifier env context.deviceId = .ok device ∧
      p < q ∧ c.state.log[p]? = some d ∧ d.thread = e.thread ∧ TakesLock u d ∧
      ∀ G ∈ Others d.after.refreshTokens.stored u device, Evicts e G →
        (env.config.maxRefreshFamiliesPerUser : ℕ∞) ≤
          (Others d.after.refreshTokens.stored u device).encard := by
  have hcap := env.config.one_le_maxRefreshFamiliesPerUser
  obtain ⟨p, d, u, F, device, hdevice, hroom⟩ :=
    ((capped_safe calls hw hlocks hcap).run hc).1.2 q e _ _ _ _ he hcall hcommits
  exact ⟨p, d, u, device, hdevice, hroom.order, hroom.lock, hroom.thread, hroom.takes,
    fun G hG hevicts ↦ (hroom.evicted G hG hevicts).1⟩

/-- The oldest of the families was evicted. -/
theorem evicts_at_cap_evicted : ∃ e, Demo.evicted.state.log[134]? = some e ∧
    ∃ (p : ℕ) (d : Happening ℕ) (u : ℕ) (device : Option Digest),
      Demo.evicted.state.log[p]? = some d ∧ d.thread = e.thread ∧
      ∀ G ∈ Others d.after.refreshTokens.stored u device, Evicts e G →
        (Demo.capEnv.config.maxRefreshFamiliesPerUser : ℕ∞) ≤
          (Others d.after.refreshTokens.stored u device).encard := by
  obtain ⟨d, e, hd, he, hsigns, -⟩ := Demo.evicted_log
  obtain ⟨-, hthread, -, hcommitted⟩ := Demo.signsIn_iff.1 hsigns
  have hcommits := Demo.commits_of_committed Demo.reaches_evicted he (Nat.zero_le _) hcommitted
  obtain ⟨p, d, u, device, -, -, hd, hlocked, -, hevicts⟩ :=
    evicts_at_cap Demo.capEnv Demo.tokensSound_world (fun _ ↦ rfl) Demo.capCalls
      Demo.reaches_evicted he (hthread ▸ Demo.capCalls_six) hcommits
  exact ⟨e, he, p, d, u, device, hd, hlocked, hevicts⟩

/-- With two families at most, the third sign-in evicts the first session, which has been refreshed,
for the sake of the second, which has expired: it is the only one that could still be refreshed. -/
theorem evicts_at_cap_expired :
    System.Reaches Demo.capEnv .all (System.start Demo.capEnv Demo.world Demo.capCalls)
      Demo.evicted ∧
    Demo.capCalls 6 = .verifyOtp "+1" "NG" "" { idempotencyKey := some (Demo.key '6') } ∧
    hashDeviceIdentifier Demo.capEnv none = .ok none ∧
    parseDurationToMs Demo.capEnv.config.refreshFamilyMaxAge = .ok Demo.FAMILY_MAX_AGE_MS ∧
    ∃ d e G, Demo.evicted.state.log[124]? = some d ∧ Demo.evicted.state.log[134]? = some e ∧
      d.thread = 6 ∧ e.thread = 6 ∧ TakesLock 0 d ∧ Commits e ∧
      G ∈ Others d.after.refreshTokens.stored 0 none ∧
      Usable Demo.FAMILY_MAX_AGE_MS d.after.now d.after.refreshTokens.stored 0 G ∧ Evicts e G ∧
      {H | H ∈ Others d.after.refreshTokens.stored 0 none ∧
          Usable Demo.FAMILY_MAX_AGE_MS d.after.now d.after.refreshTokens.stored 0 H}.encard <
        Demo.capEnv.config.maxRefreshFamiliesPerUser := by
  obtain ⟨d, e, hd, he, hsigns, husable, hevicted⟩ := Demo.evicted_log
  obtain ⟨hd6, he6, htakes, hcommitted⟩ := Demo.signsIn_iff.1 hsigns
  have hfirst : Usable Demo.FAMILY_MAX_AGE_MS d.after.now d.after.refreshTokens.stored 0 0 :=
    mem_usableFamilies.1 (husable ▸ List.mem_singleton_self 0)
  have honly : {H | H ∈ Others d.after.refreshTokens.stored 0 none ∧
      Usable Demo.FAMILY_MAX_AGE_MS d.after.now d.after.refreshTokens.stored 0 H} ⊆ {0} := by
    rintro H ⟨-, hH⟩
    have hmem := mem_usableFamilies.2 hH
    rw [husable] at hmem
    exact List.mem_singleton.1 hmem
  refine ⟨Demo.reaches_evicted, rfl, rfl, by decide +kernel, d, e, 0, hd, he, hd6, he6,
    Demo.takesLock_of_lockTaken htakes,
    Demo.commits_of_committed Demo.reaches_evicted he (Nat.zero_le _) hcommitted,
    mem_others_none.2 (hfirst.imp fun _ h ↦ h.1), hfirst,
    evicts_of_mem (hevicted ▸ List.mem_singleton_self 0), ?_⟩
  calc _ ≤ ({0} : Set ℕ).encard := Set.encard_le_encard honly
    _ = ((1 : ℕ) : ℕ∞) := Set.encard_singleton 0
    _ < _ := Nat.cast_lt.2 (by decide +kernel)

end Claims

end Stead
