import Stead.Mobile.Client

/-!
# A logout is final

A refresh is started when none is in flight, so there is one call of it at most (`SingleFlight`). A
logout forbids refreshes and waits for the one in flight; from then on only a sign-in writes tokens
(`Closed`), and what the logout clears stays cleared (`logout_is_final`).

## Rely and guarantee

What is said about a logout is said up to a sign-in that comes after it (`SinceLogout`). A flow
issues a statement only when it is permitted, and so keeps a guarantee to the others
(`exec_permitted`). Two kinds of statements make up most of the flows: the plain ones read, delete
or wait (`exec_plain`), and those of a refresh after its response leave it in flight
(`exec_persists`).

`mobileSession` is the rely and the guarantee of all flows; what a flow does is a triple in it.

## Clearing

`Erases` says that a statement only takes tokens away. A fact that such statements keep is `Erased`,
and a logout establishes one after another: the memory, the device, the provider. `Sealed` puts such
a fact together with `Closed`, since only both together stay.
-/

namespace Stead

open Concurrency Protocol

variable {ι : Type}

/-- The client and what its flows have done. -/
abbrev ClientState (ι : Type) := State (clientInterface ι) ι (MobileClient ι)

/-- The flows in progress. -/
abbrev ClientConfig (ι : Type) := Config (clientInterface ι) ι (MobileClient ι) Unit Unit

/-- The refresh of the client, if it is there, is the last one started and has one call at most. -/
structure SingleFlight (w : MobileClient ι) : Prop where
  calls : w.refreshCalls ≤ 1
  idle : w.refreshInFlight = none → w.refreshCalls = 0
  started : ∀ p, w.refreshInFlight = some p → p.2 < w.refreshes
  settled : ∀ entry ∈ w.settled, entry.1.2 < w.refreshes ∧ w.refreshInFlight ≠ some entry.1

/-- Each token is the one of before, or erased. -/
structure Erases (w t : MobileClient ι) : Prop where
  accessToken : t.accessToken = w.accessToken ∨ t.accessToken = none
  refreshToken : t.refreshToken = w.refreshToken ∨ t.refreshToken = none
  accessStored : t.accessStored = w.accessStored ∨ t.accessStored = none
  refreshStored : t.refreshStored = w.refreshStored ∨ t.refreshStored = none
  sessionToken : t.sessionToken = w.sessionToken ∨ t.sessionToken = none

theorem Erases.refl (w : MobileClient ι) : Erases w w :=
  ⟨.inl rfl, .inl rfl, .inl rfl, .inl rfl, .inl rfl⟩

/-- Refreshes are forbidden. -/
structure Forbidden (w : MobileClient ι) : Prop where
  refreshAllowed : w.refreshAllowed = false
  sessionLive : w.sessionLive = false

/-- Refreshes are forbidden and none is in flight. -/
structure Closed (w : MobileClient ι) : Prop extends Forbidden w where
  refreshInFlight : w.refreshInFlight = none

/-- What a flow guarantees to the others. -/
structure Guarantees (login : Bool) (i : ι) (w t : MobileClient ι) : Prop where
  others : ∀ p, w.refreshInFlight = some p → p.1 ≠ i →
    t.refreshInFlight = some p ∧ t.refreshCalls = w.refreshCalls
  forbidden : login = false → Forbidden w → Forbidden t ∧
    (t.refreshInFlight = w.refreshInFlight ∨ t.refreshInFlight = none)
  erases : login = false → Closed w → Erases w t

/-- The flow runs the refresh in flight. -/
def Refreshing (i : ι) (w : MobileClient ι) : Prop := ∃ n, w.refreshInFlight = some (i, n)

/-- When a flow may issue a statement. -/
def ClientOp.Permitted (login : Bool) (i : ι) (w : MobileClient ι) : ClientOp ι → Prop
  | .postRefresh _ _ => Refreshing i w ∧ w.refreshCalls = 0
  | .refreshResponse | .persistInMemory _ _ | .exposeRefreshed _ => Refreshing i w
  | .settle p _ => w.refreshInFlight = some p ∧ p.1 = i ∧ w.refreshCalls = 0
  | .writeAccess _ | .writeRefresh _ => login = true ∨ Refreshing i w
  | .publish _ | .exposeSession _ => login = true
  | _ => True

/-- The statement reads, deletes or waits. -/
def ClientOp.Plain : ClientOp ι → Prop
  | .accessInMemory | .readAccess | .readRefresh | .deletesAccessFirst | .deleteAccess
  | .deleteRefresh | .send _ | .receive | .stillCurrent _ | .awaitRefresh _ | .clearInMemory
  | .postLogout _ _ | .clearQueryCache => True
  | _ => False

theorem not_closed_of_refreshing {i : ι} {w : MobileClient ι} (h : Refreshing i w) : ¬ Closed w := by
  rintro ⟨-, hnone⟩
  obtain ⟨n, hn⟩ := h
  cases hn.symm.trans hnone

/-- A statement that leaves the refresh alone. -/
theorem Guarantees.of_same {login : Bool} {i : ι} {w t : MobileClient ι}
    (hflight : t.refreshInFlight = w.refreshInFlight) (hcalls : t.refreshCalls = w.refreshCalls)
    (hforbidden : login = false → Forbidden w → Forbidden t)
    (herases : login = false → Closed w → Erases w t) : Guarantees login i w t :=
  ⟨fun _ hp _ ↦ ⟨hflight.trans hp, hcalls⟩, fun hlogin h ↦ ⟨hforbidden hlogin h, .inl hflight⟩, herases⟩

/-- A statement of the flow whose refresh is in flight. -/
theorem Guarantees.of_refreshing {login : Bool} {i : ι} {w t : MobileClient ι} (h : Refreshing i w)
    (hforbidden : Forbidden w → Forbidden t)
    (hflight : t.refreshInFlight = w.refreshInFlight ∨ t.refreshInFlight = none) :
    Guarantees login i w t := by
  refine ⟨fun p hp hne ↦ ?_, fun _ hw ↦ ⟨hforbidden hw, hflight⟩,
    fun _ hw ↦ absurd hw (not_closed_of_refreshing h)⟩
  obtain ⟨n, hn⟩ := h
  cases hp.symm.trans hn
  exact absurd rfl hne

/-- One refresh at most, where its variables are as before. -/
theorem SingleFlight.of_same {w t : MobileClient ι} (h : SingleFlight w)
    (hflight : t.refreshInFlight = w.refreshInFlight) (hcalls : t.refreshCalls = w.refreshCalls)
    (hrefreshes : t.refreshes = w.refreshes) (hsettled : t.settled = w.settled) :
    SingleFlight t := by
  refine ⟨hcalls ▸ h.calls, ?_, ?_, ?_⟩
  · rw [hflight, hcalls]
    exact h.idle
  · rw [hflight, hrefreshes]
    exact h.started
  · rw [hflight, hrefreshes, hsettled]
    exact h.settled

variable [DecidableEq ι]

section Statements

variable {login : Bool} {i : ι} {x : ClientChoice} {op : ClientOp ι} {w t : MobileClient ι}
  {r : op.Resp}

/-- What a plain statement does. -/
theorem exec_plain (hop : op.Plain) (h : op.exec i x w = some (r, t)) :
    Erases w t ∧ t = { w with
      accessToken := t.accessToken
      refreshToken := t.refreshToken
      accessStored := t.accessStored
      refreshStored := t.refreshStored
      sessionToken := t.sessionToken } := by
  cases op with
  | awaitRefresh p =>
    simp only [ClientOp.exec] at h
    split at h <;> cases h
    exact ⟨.refl w, rfl⟩
  | deleteAccess =>
    cases h
    exact ⟨⟨.inl rfl, .inl rfl, .inr rfl, .inl rfl, .inl rfl⟩, rfl⟩
  | deleteRefresh =>
    cases h
    exact ⟨⟨.inl rfl, .inl rfl, .inl rfl, .inr rfl, .inl rfl⟩, rfl⟩
  | clearInMemory =>
    cases h
    exact ⟨⟨.inr rfl, .inr rfl, .inl rfl, .inl rfl, .inr rfl⟩, rfl⟩
  | writeAccess | writeRefresh | rotate | postRefresh | refreshResponse | persistInMemory
  | exposeRefreshed | settle | beginLogout | publish | exposeSession => exact hop.elim
  | _ =>
    cases h
    exact ⟨.refl w, rfl⟩

/-- **One statement** keeps a single refresh in flight and gives the guarantee. -/
theorem exec_permitted (hw : SingleFlight w) (hp : op.Permitted login i w)
    (h : op.exec i x w = some (r, t)) : SingleFlight t ∧ Guarantees login i w t := by
  -- A plain operation leaves the flags of the guarantee as they were; the others are cased.
  by_cases hplain : op.Plain
  · obtain ⟨herases, heq⟩ := exec_plain hplain h
    rw [heq]
    exact ⟨hw.of_same rfl rfl rfl rfl, .of_same rfl rfl (fun _ hf ↦ ⟨hf.1, hf.2⟩) fun _ _ ↦ heq ▸ herases⟩
  cases op with
  | writeAccess token | writeRefresh token =>
    cases h
    refine ⟨hw.of_same rfl rfl rfl rfl, ?_⟩
    rcases hp with hlogin | hp
    · subst hlogin
      exact .of_same rfl rfl (fun hlogin ↦ by cases hlogin) fun hlogin ↦ by cases hlogin
    · exact .of_refreshing hp (fun hf ↦ ⟨hf.1, hf.2⟩) (.inl rfl)
  | rotate =>
    simp only [ClientOp.exec] at h
    split at h
    · cases h
      exact ⟨hw, .of_same rfl rfl (fun _ hf ↦ hf) fun _ _ ↦ .refl w⟩
    · next hallowed =>
      split at h
      · cases h
        exact ⟨hw, .of_same rfl rfl (fun _ hf ↦ hf) fun _ _ ↦ .refl w⟩
      · next hnone =>
        cases h
        -- No logout is under way here: a rotation is refused while one is.
        have hnot : ¬ Forbidden w := fun hf ↦ hallowed (by rw [hf.1]; rfl)
        refine ⟨⟨hw.calls, fun hsome ↦ (by cases hsome), fun p hp ↦ ?_, fun entry hentry ↦ ?_⟩,
          fun p hp ↦ ?_, fun _ hf ↦ absurd hf hnot, fun _ hc ↦ absurd hc.toForbidden hnot⟩
        · cases hp
          exact Nat.lt_succ_self _
        · have hlt := (hw.settled entry hentry).1
          refine ⟨Nat.lt_succ_of_lt hlt, fun heq ↦ ?_⟩
          rw [← Option.some.inj heq] at hlt
          exact absurd hlt (Nat.lt_irrefl _)
        · cases hnone.symm.trans hp
  | postRefresh epoch token =>
    simp only [ClientOp.exec] at h
    -- The call is counted once, since its flow is the only one that refreshes.
    split at h
    · cases h
      obtain ⟨n, hn⟩ := hp.1
      refine ⟨⟨?_, fun hnone ↦ ?_, hw.started, hw.settled⟩,
        .of_refreshing hp.1 (fun hf ↦ ⟨hf.1, hf.2⟩) (.inl rfl)⟩
      · show w.refreshCalls + 1 ≤ 1
        rw [hp.2]
      · cases hn.symm.trans hnone
    · cases h
      exact ⟨hw, .of_refreshing hp.1 (fun hf ↦ hf) (.inl rfl)⟩
  | refreshResponse =>
    cases h
    obtain ⟨n, hn⟩ := hp
    refine ⟨⟨(Nat.sub_le _ _).trans hw.calls, fun hnone ↦ ?_, hw.started, hw.settled⟩,
      .of_refreshing ⟨n, hn⟩ (fun hf ↦ ⟨hf.1, hf.2⟩) (.inl rfl)⟩
    cases hn.symm.trans hnone
  | persistInMemory epoch session =>
    simp only [ClientOp.exec] at h
    split at h
    · cases h
      exact ⟨hw, .of_refreshing hp (fun hf ↦ hf) (.inl rfl)⟩
    · split at h <;> cases h
      · exact ⟨hw, .of_refreshing hp (fun hf ↦ hf) (.inl rfl)⟩
      · exact ⟨hw.of_same rfl rfl rfl rfl, .of_refreshing hp (fun hf ↦ ⟨hf.1, hf.2⟩) (.inl rfl)⟩
  | exposeRefreshed token =>
    simp only [ClientOp.exec] at h
    split at h <;> cases h <;>
      exact ⟨hw.of_same rfl rfl rfl rfl, .of_refreshing hp (fun hf ↦ ⟨hf.1, hf.2⟩) (.inl rfl)⟩
  | settle p token =>
    cases h
    obtain ⟨hp, hi, hcalls⟩ := hp
    refine ⟨⟨hw.calls, fun _ ↦ hcalls, fun _ hnone ↦ (by cases hnone), fun entry hentry ↦ ?_⟩,
      .of_refreshing ⟨p.2, hi ▸ hp⟩ (fun hf ↦ ⟨hf.1, hf.2⟩) (.inr rfl)⟩
    -- The entry just settled was started, as the earlier ones were.
    refine ⟨?_, fun hnone ↦ by cases hnone⟩
    rcases List.mem_cons.1 hentry with rfl | hentry
    · exact hw.started _ hp
    · exact (hw.settled entry hentry).1
  | beginLogout =>
    cases h
    exact ⟨hw.of_same rfl rfl rfl rfl, .of_same rfl rfl (fun _ _ ↦ ⟨rfl, rfl⟩)
      fun _ _ ↦ ⟨.inl rfl, .inl rfl, .inl rfl, .inl rfl, .inl rfl⟩⟩
  | publish session | exposeSession token =>
    cases h
    have hlogin : login = true := hp
    subst hlogin
    exact ⟨hw.of_same rfl rfl rfl rfl,
      .of_same rfl rfl (fun hlogin ↦ by cases hlogin) fun hlogin ↦ by cases hlogin⟩
  | _ => exact absurd trivial hplain

end Statements

/-! ### What is said about a logout -/

/-- The flow has not begun to log out. -/
def NotBegun (i : ι) (s : ClientState ι) : Prop := ∀ e ∈ s.history i, e.op ≠ ClientOp.beginLogout

/-- A sign-in takes a step after position `p` of the record. -/
def LoginAfter (flows : ι → Flow) (p : ℕ) (s : ClientState ι) : Prop :=
  ∃ q d, p < q ∧ s.log[q]? = some d ∧ (flows d.thread).isCompleteAuth = true

/-- Since the flow began to log out, a sign-in took a step, or the client is as described. -/
def SinceLogout (flows : ι → Flow) (i : ι) (F : MobileClient ι → Prop) (s : ClientState ι) : Prop :=
  ∀ p e, s.log[p]? = some e → e.thread = i → e.op = ClientOp.beginLogout →
    LoginAfter flows p s ∨ F s.shared

/-- What flows that are no sign-in keep. -/
def Kept (F : MobileClient ι → Prop) : Prop :=
  ∀ (j : ι) (w t : MobileClient ι), Guarantees false j w t → F w → F t

/-- A logout waits for the refresh that it found in flight. -/
def Waiting (pending : Option (RefreshPromise ι)) (w : MobileClient ι) : Prop :=
  Forbidden w ∧ (w.refreshInFlight = none ∨ w.refreshInFlight = pending)

/-- No refresh is left, and a fact about the tokens. -/
def Sealed (E : MobileClient ι → Prop) (w : MobileClient ι) : Prop := Closed w ∧ E w

/-- What erasing keeps. -/
def Erased (E : MobileClient ι → Prop) : Prop := ∀ w t, Erases w t → E w → E t

omit [DecidableEq ι] in
theorem waiting_kept (pending : Option (RefreshPromise ι)) : Kept (Waiting pending) := by
  rintro j w t hg ⟨hf, hflight⟩
  obtain ⟨hf', hsame | hnone⟩ := hg.forbidden rfl hf
  · exact ⟨hf', hsame ▸ hflight⟩
  · exact ⟨hf', .inl hnone⟩

omit [DecidableEq ι] in
theorem sealed_kept {E : MobileClient ι → Prop} (hE : Erased E) : Kept (Sealed E) := by
  rintro j w t hg ⟨hc, hw⟩
  obtain ⟨hf, hflight⟩ := hg.forbidden rfl hc.toForbidden
  exact ⟨⟨hf, hflight.elim (·.trans hc.refreshInFlight) fun hnone ↦ hnone⟩,
    hE w t (hg.erases rfl hc) hw⟩

section Records

variable {flows : ι → Flow} {i : ι} {op : ClientOp ι} {r : op.Resp} {s : ClientState ι}
  {t : MobileClient ι} {F F' : MobileClient ι → Prop} {p : ℕ}

/-- A statement other than its first begins no logout. -/
theorem NotBegun.after (h : NotBegun i s) (hop : op ≠ .beginLogout) :
    NotBegun i (s.after i op r t) := by
  intro e he
  rw [State.after_history_self] at he
  rcases List.mem_append.1 he with he | he
  · exact h e he
  · rw [List.mem_singleton.1 he]
    exact hop

/-- What has not begun is trivially since. -/
theorem NotBegun.sinceLogout (h : NotBegun i s) : SinceLogout flows i F s := fun _ e he hthread hop ↦
  absurd hop (h e (State.mem_history.2 ⟨List.mem_of_getElem? he, hthread⟩))

omit [DecidableEq ι] in
theorem LoginAfter.after {j : ι} (h : LoginAfter flows p s) :
    LoginAfter flows p (s.after j op r t) := by
  obtain ⟨q, d, hq, hd, hlogin⟩ := h
  exact ⟨q, d, hq, State.getElem?_after_of_some hd, hlogin⟩

omit [DecidableEq ι] in
/-- A step of the flow after it began to log out. -/
theorem SinceLogout.after (h : SinceLogout flows i F s) (hop : op ≠ .beginLogout) (hF : F s.shared → F' t) :
    SinceLogout flows i F' (s.after i op r t) := by
  intro p e he hthread hbegin
  rcases State.getElem?_after he with hold | ⟨rfl, rfl⟩
  · exact (h p e hold hthread hbegin).imp LoginAfter.after hF
  · exact absurd hbegin hop

/-- The flow begins to log out. -/
theorem NotBegun.begin {r : (ClientOp.beginLogout : ClientOp ι).Resp} (h : NotBegun i s) (hF : F t) :
    SinceLogout flows i F (s.after i (.beginLogout : ClientOp ι) r t) := by
  intro p e he hthread hbegin
  rcases State.getElem?_after he with hold | ⟨rfl, rfl⟩
  · exact absurd hbegin (h e (State.mem_history.2 ⟨List.mem_of_getElem? hold, hthread⟩))
  · exact .inr hF

end Records

/-! ### The protocol -/

section Protocol

variable (flows : ι → Flow)

/-- What the flows agree on. -/
def mobileSession : Protocol (mobile ι) NoFlowLost where
  Inv s := SingleFlight s.shared
  Guar i s s' := Guarantees (flows i).isCompleteAuth i s.shared s'.shared
  crash_ok _ _ _ h := h.elim

variable {flows} {i : ι} {F : MobileClient ι → Prop}

/-- Other flows do not begin this one. -/
theorem notBegun_stable : (mobileSession flows).Stable i (NotBegun i) := by
  intro s s' hr h e he
  rw [hr.history] at he
  exact h e he

/-- What is said about a logout is stable: the other flows keep it, or sign in. -/
theorem sinceLogout_stable (hF : Kept F) : (mobileSession flows).Stable i (SinceLogout flows i F) := by
  intro s s' hr h
  obtain ⟨j, hj, hm, hg⟩ := hr.move
  cases hm with
  | @stmt x op r t ha hx =>
    intro p e he hthread hbegin
    rcases State.getElem?_after he with hold | ⟨rfl, rfl⟩
    · rcases h p e hold hthread hbegin with hlogin | hw
      · exact .inl hlogin.after
      · cases hlogin : (flows j).isCompleteAuth with
        | true =>
          exact .inl ⟨_, _, (List.getElem?_eq_some_iff.1 hold).1, State.getElem?_after_last, hlogin⟩
        | false =>
          have hkeeps : Guarantees (flows j).isCompleteAuth j s.shared t := hg
          rw [hlogin] at hkeeps
          exact .inr (hF j _ _ hkeeps hw)
    · exact absurd hthread hj
  | crash ha => exact ha.elim

/-- **One statement** of a flow. -/
theorem issue_triple (op : ClientOp ι) {Pre : ClientState ι → Prop}
    {Q : op.Resp → ClientState ι → Prop} {E : Unit → ClientState ι → Prop}
    (hpre : (mobileSession flows).Stable i Pre) (hQ : ∀ r, (mobileSession flows).Stable i (Q r))
    (hpermitted : ∀ s : ClientState ι, Pre s → op.Permitted (flows i).isCompleteAuth i s.shared)
    (h : ∀ (s : ClientState ι) x r t, SingleFlight s.shared → Pre s →
      op.exec i x s.shared = some (r, t) → Q r (s.after i op r t)) :
    (mobileSession flows).Triple i Pre (issue op) Q E := by
  refine .stmt Q hpre (fun s x r t hs hp _ hx ↦ ?_) fun r ↦ .pure (hQ r) fun _ _ h ↦ h
  obtain ⟨hs', hg⟩ := exec_permitted hs (hpermitted s hp) hx
  exact ⟨hs', hg, h s x r t hs hp hx⟩

omit [DecidableEq ι] in
theorem ClientOp.Plain.ne_beginLogout {op : ClientOp ι} (h : op.Plain) : op ≠ .beginLogout := by
  rintro rfl
  exact h

omit [DecidableEq ι] in
theorem ClientOp.Plain.permitted {op : ClientOp ι} (h : op.Plain) (login : Bool)
    (w : MobileClient ι) : op.Permitted login i w := by
  cases op <;> first | exact h.elim | trivial

/-- A program of plain statements keeps what is said about a logout. -/
theorem plain_triple {α : Type} {p : ClientProg ι α} (hp : p.All ClientOp.Plain) (hF : Kept F) :
    (mobileSession flows).Triple i (SinceLogout flows i F) p (fun _ ↦ SinceLogout flows i F)
      fun _ ↦ SinceLogout flows i F := by
  refine .of_all hp (sinceLogout_stable hF) fun op hop s x r t hs hpre _ hx ↦ ?_
  obtain ⟨hs', hg⟩ := exec_permitted hs (hop.permitted (flows i).isCompleteAuth _) hx
  refine ⟨hs', hg, hpre.after hop.ne_beginLogout fun hw ↦ ?_⟩
  exact hF i _ _ (exec_permitted hs (hop.permitted false _) hx).2 hw

/-- A program of plain statements does not begin to log out. -/
theorem plain_notBegun {α : Type} {p : ClientProg ι α} (hp : p.All ClientOp.Plain) :
    (mobileSession flows).Triple i (NotBegun i) p (fun _ ↦ NotBegun i) fun _ ↦ NotBegun i := by
  refine .of_all hp notBegun_stable fun op hop s x r t hs hpre _ hx ↦ ?_
  obtain ⟨hs', hg⟩ := exec_permitted hs (hop.permitted (flows i).isCompleteAuth _) hx
  exact ⟨hs', hg, hpre.after hop.ne_beginLogout⟩

end Protocol

/-! ### Plain programs -/

section Plain

omit [DecidableEq ι] in
theorem plain_issue {op : ClientOp ι} (h : op.Plain) : (issue op).All ClientOp.Plain :=
  ⟨h, fun _ ↦ trivial⟩

omit [DecidableEq ι] in
theorem plain_getToken : (getToken (ι := ι)).All ClientOp.Plain :=
  .bind (plain_issue trivial) fun inMemory ↦ by
    cases inMemory with
    | none => exact plain_issue trivial
    | some token => trivial

omit [DecidableEq ι] in
theorem plain_getRefreshToken (inMemory : Option Token) :
    (getRefreshToken (ι := ι) inMemory).All ClientOp.Plain := by
  cases inMemory with
  | none => exact plain_issue trivial
  | some token => trivial

omit [DecidableEq ι] in
theorem plain_deleteStored : (deleteStored (ι := ι)).All ClientOp.Plain :=
  .bind (plain_issue trivial) fun _ ↦
    .ite (fun _ ↦ .bind (plain_issue trivial) fun _ ↦ plain_issue trivial)
      fun _ ↦ .bind (plain_issue trivial) fun _ ↦ plain_issue trivial

omit [DecidableEq ι] in
theorem plain_clearSessionQueryCache : (clearSessionQueryCache (ι := ι)).All ClientOp.Plain :=
  .bind (plain_issue trivial) fun _ ↦ .ite (fun _ ↦ trivial) fun _ ↦ trivial

omit [DecidableEq ι] in
theorem plain_attempt (authorization : Option Token) :
    (attempt (ι := ι) authorization).All ClientOp.Plain :=
  .bind plain_getToken fun _ ↦ .bind (plain_issue trivial) fun _ ↦ plain_issue trivial

end Plain

/-! ### A refresh -/

section Refresh

variable {flows : ι → Flow} {i : ι}

/-- The statement belongs to a refresh after its response. -/
def ClientOp.Persists (op : ClientOp ι) : Prop :=
  op.Plain ∨ (∃ token, op = .writeAccess token) ∨ (∃ token, op = .writeRefresh token) ∨
    (∃ epoch session, op = .persistInMemory epoch session) ∨ ∃ token, op = .exposeRefreshed token

/-- The flow runs refresh `n`, which has `k` calls. -/
def Rotating (i : ι) (n k : ℕ) (s : ClientState ι) : Prop :=
  s.shared.refreshInFlight = some (i, n) ∧ s.shared.refreshCalls = k ∧ NotBegun i s

/-- Other flows leave a refresh in flight alone. -/
theorem rotating_stable (n k : ℕ) : (mobileSession flows).Stable i (Rotating i n k) := by
  rintro s s' hr ⟨hflight, hcalls, hnot⟩
  obtain ⟨j, hj, hm, hg⟩ := hr.move
  have hkeeps : Guarantees (flows j).isCompleteAuth j s.shared s'.shared := hg
  obtain ⟨hflight', hcalls'⟩ := hkeeps.others (i, n) hflight (Ne.symm hj)
  have hstable : (mobileSession flows).Stable i (NotBegun i) := notBegun_stable
  exact ⟨hflight', hcalls'.trans hcalls, hstable s s' hr hnot⟩

omit [DecidableEq ι] in
theorem ClientOp.Persists.permitted {op : ClientOp ι} {login : Bool} {w : MobileClient ι}
    (h : op.Persists) (hw : Refreshing i w) : op.Permitted login i w := by
  rcases h with h | ⟨_, rfl⟩ | ⟨_, rfl⟩ | ⟨_, _, rfl⟩ | ⟨_, rfl⟩
  · exact h.permitted login w
  · exact .inr hw
  · exact .inr hw
  · exact hw
  · exact hw

omit [DecidableEq ι] in
theorem ClientOp.Persists.ne_beginLogout {op : ClientOp ι} (h : op.Persists) :
    op ≠ .beginLogout := by
  rintro rfl
  rcases h with h | ⟨_, h⟩ | ⟨_, h⟩ | ⟨_, _, h⟩ | ⟨_, h⟩
  · exact h
  · cases h
  · cases h
  · cases h
  · cases h

/-- A statement after the response leaves the refresh in flight. -/
theorem exec_persists {op : ClientOp ι} {x : ClientChoice} {w t : MobileClient ι} {r : op.Resp}
    (hop : op.Persists) (h : op.exec i x w = some (r, t)) :
    t.refreshInFlight = w.refreshInFlight ∧ t.refreshCalls = w.refreshCalls := by
  rcases hop with hop | ⟨_, rfl⟩ | ⟨_, rfl⟩ | ⟨_, _, rfl⟩ | ⟨_, rfl⟩
  · rw [(exec_plain hop h).2]
    exact ⟨rfl, rfl⟩
  · cases h
    exact ⟨rfl, rfl⟩
  · cases h
    exact ⟨rfl, rfl⟩
  · simp only [ClientOp.exec] at h
    split at h
    · cases h
      exact ⟨rfl, rfl⟩
    · split at h <;> cases h <;> exact ⟨rfl, rfl⟩
  · simp only [ClientOp.exec] at h
    split at h <;> cases h <;> exact ⟨rfl, rfl⟩

/-- **A part of a refresh** keeps it in flight. -/
theorem persists_triple {α : Type} {p : ClientProg ι α} (hp : p.All ClientOp.Persists) (n k : ℕ) :
    (mobileSession flows).Triple i (Rotating i n k) p (fun _ ↦ Rotating i n k)
      fun _ ↦ Rotating i n k := by
  refine .of_all hp (rotating_stable n k) fun op hop s x r t hs ⟨hflight, hcalls, hnot⟩ _ hx ↦ ?_
  obtain ⟨hs', hg⟩ := exec_permitted hs (hop.permitted ⟨n, hflight⟩) hx
  obtain ⟨hflight', hcalls'⟩ := exec_persists hop hx
  exact ⟨hs', hg, hflight'.trans hflight, hcalls'.trans hcalls, hnot.after hop.ne_beginLogout⟩

omit [DecidableEq ι] in
theorem persists_issue {op : ClientOp ι} (h : op.Persists) : (issue op).All ClientOp.Persists :=
  ⟨h, fun _ ↦ trivial⟩

omit [DecidableEq ι] in
theorem persists_of_plain {α : Type} {p : ClientProg ι α} (h : p.All ClientOp.Plain) :
    p.All ClientOp.Persists := h.mono fun _ ↦ .inl

omit [DecidableEq ι] in
theorem persists_persistRefreshed (epoch : ℕ) (session : AuthSessionTokens) :
    (persistRefreshed (ι := ι) epoch session).All ClientOp.Persists := by
  have hcurrent : (currentToken (ι := ι) epoch session.token).All ClientOp.Persists :=
    .bind (persists_issue (.inl trivial)) fun _ ↦ .ite (fun _ ↦ trivial) fun _ ↦ trivial
  have hwrite : (writeStored (ι := ι) session).All ClientOp.Persists :=
    .bind (persists_issue (.inr (.inl ⟨_, rfl⟩))) fun _ ↦
      persists_issue (.inr (.inr (.inl ⟨_, rfl⟩)))
  have hstore : (persistStored (ι := ι) session).All ClientOp.Persists :=
    .bind hwrite fun _ ↦ .bind (persists_issue (.inr (.inr (.inr (.inr ⟨_, rfl⟩))))) fun _ ↦
      .ite (fun _ ↦ trivial) fun _ ↦ persists_of_plain plain_deleteStored
  refine .bind (persists_issue (.inr (.inr (.inr (.inl ⟨_, _, rfl⟩))))) fun persisting ↦ ?_
  cases persisting with
  | abandoned => trivial
  | notLive => exact hcurrent
  | inMemory => exact .bind hstore fun _ ↦ hcurrent

/-- A refresh has its call while it waits for the response. -/
theorem refreshWith_triple (n epoch : ℕ) (refreshToken : Token) :
    (mobileSession flows).Triple i (Rotating i n 0) (refreshWith epoch refreshToken)
      (fun _ ↦ Rotating i n 0) fun _ ↦ Rotating i n 0 := by
  refine .bind (issue_triple (.postRefresh epoch refreshToken) (Q := fun (posted : Bool) ↦ Rotating i n (if posted then 1 else 0))
    (rotating_stable n 0) (fun _ ↦ rotating_stable n _) (fun s h ↦ ⟨⟨n, h.1⟩, h.2.1⟩)
    fun s x r t hs ⟨hflight, hcalls, hnot⟩ hx ↦ ?_) fun posted ↦ ?_
  · have hafter := hnot.after (r := r) (t := t) (fun h ↦ by cases h)
    simp only [ClientOp.exec] at hx
    split at hx <;> cases hx
    · exact ⟨hflight, congrArg (· + 1) hcalls, hafter⟩
    · exact ⟨hflight, hcalls, hafter⟩
  · cases posted with
    | false => exact .pure (rotating_stable n 0) fun _ _ h ↦ h
    | true =>
      refine .bind (issue_triple .refreshResponse (Q := fun _ ↦ Rotating i n 0) (rotating_stable n 1)
        (fun _ ↦ rotating_stable n 0) (fun s h ↦ ⟨n, h.1⟩)
        fun s x r t hs ⟨hflight, hcalls, hnot⟩ hx ↦ ?_) fun session ↦ ?_
      · have hafter := hnot.after (r := r) (t := t) (fun h ↦ by cases h)
        cases hx
        exact ⟨hflight, congrArg (· - 1) hcalls, hafter⟩
      · cases session with
        | none => exact .pure (rotating_stable n 0) fun _ _ h ↦ h
        | some session => exact persists_triple (persists_persistRefreshed epoch session) n 0

/-- A refresh is in flight to its end. -/
theorem refresh_triple (n epoch : ℕ) (inMemory : Option Token) :
    (mobileSession flows).Triple i (Rotating i n 0) (refresh epoch inMemory)
      (fun _ ↦ Rotating i n 0) fun _ ↦ Rotating i n 0 := by
  refine .bind (persists_triple (persists_of_plain (plain_getRefreshToken inMemory)) n 0)
    fun refreshToken ↦ ?_
  cases refreshToken with
  | none => exact .pure (rotating_stable n 0) fun _ _ h ↦ h
  | some refreshToken => exact refreshWith_triple n epoch refreshToken

/-- What a flow knows once it asked for a rotation. -/
def AfterRotate (i : ι) (rotation : Rotation ι) (s : ClientState ι) : Prop :=
  NotBegun i s ∧ ∀ p epoch inMemory, rotation = .started p epoch inMemory →
    ∃ n, p = (i, n) ∧ Rotating i n 0 s

/-- What a flow found of refreshes stays so. -/
theorem afterRotate_stable (rotation : Rotation ι) :
    (mobileSession flows).Stable i (AfterRotate i rotation) :=
  .and notBegun_stable (.all fun _ ↦ .all fun _ ↦ .all fun _ ↦ fun s s' hr h hstarted ↦ by
    obtain ⟨n, hp, hrotating⟩ := h hstarted
    have hstable : (mobileSession flows).Stable i (Rotating i n 0) := rotating_stable n 0
    exact ⟨n, hp, hstable s s' hr hrotating⟩)

/-- **A rotation** starts a refresh when none is in flight, and waits for it. -/
theorem rotateAccessToken_triple : (mobileSession flows).Triple i (NotBegun i) rotateAccessToken
    (fun _ ↦ NotBegun i) fun _ ↦ NotBegun i := by
  refine .bind (issue_triple .rotate (Q := AfterRotate i) notBegun_stable afterRotate_stable (fun _ _ ↦ trivial)
    fun s x r t hs hnot hx ↦ ?_) fun rotation ↦ ?_
  · have hafter := hnot.after (r := r) (t := t) (fun h ↦ by cases h)
    refine ⟨hafter, fun p epoch inMemory hstarted ↦ ?_⟩
    subst hstarted
    simp only [ClientOp.exec] at hx
    split at hx
    · cases hx
    · split at hx
      · cases hx
      · next hnone =>
        cases hx
        exact ⟨_, rfl, rfl, hs.idle hnone, hafter⟩
  · cases rotation with
    | notAllowed => exact .pure (afterRotate_stable _) fun _ _ h ↦ h.1
    | joined p =>
      have hplain : (issue (ClientOp.awaitRefresh p)).All ClientOp.Plain := plain_issue trivial
      exact (plain_notBegun hplain).pre fun _ _ h ↦ h.1
    | started p epoch inMemory =>
      refine .pre (?_ : (mobileSession flows).Triple i
        (fun s ↦ ∃ n, p = (i, n) ∧ Rotating i n 0 s) _ _ _) fun _ _ h ↦ h.2 p epoch inMemory rfl
      refine .exists fun n ↦ .assume ?_
      rintro rfl
      have hplain : (issue (ClientOp.awaitRefresh (i, n))).All ClientOp.Plain := plain_issue trivial
      refine .bind ((refresh_triple n epoch inMemory).conseq (fun _ _ h ↦ h) (fun _ _ _ h ↦ h)
        fun _ _ _ h ↦ h.2.2) fun token ↦ .bind ?_ fun _ ↦ plain_notBegun hplain
      exact issue_triple (.settle (i, n) token) (rotating_stable n 0) (fun _ ↦ notBegun_stable)
        (fun s h ↦ ⟨h.1, rfl, h.2.1⟩) fun s x r t hs h hx ↦ h.2.2.after fun h ↦ by cases h

end Refresh

/-! ### A logout -/

section Logout

variable {flows : ι → Flow} {i : ι}

/-- A plain statement after the flow began to log out. -/
theorem sinceLogout_issue (op : ClientOp ι) {F F' : MobileClient ι → Prop} {X : Unit → ClientState ι → Prop}
    (hop : op.Plain) (hF : Kept F) (hF' : Kept F')
    (h : ∀ (w t : MobileClient ι) x r, SingleFlight w → F w → op.exec i x w = some (r, t) → F t → F' t) :
    (mobileSession flows).Triple i (SinceLogout flows i F) (issue op)
      (fun _ ↦ SinceLogout flows i F') X := by
  refine issue_triple op (sinceLogout_stable hF) (fun _ ↦ sinceLogout_stable hF')
    (fun s _ ↦ hop.permitted _ _) fun s x r t hs hpre hx ↦ ?_
  refine hpre.after hop.ne_beginLogout fun hw ↦ h _ t x r hs hw hx ?_
  exact hF i _ _ (exec_permitted hs (hop.permitted false _) hx).2 hw

omit [DecidableEq ι] in
theorem Erased.and {E E' : MobileClient ι → Prop} (h : Erased E) (h' : Erased E') :
    Erased fun w ↦ E w ∧ E' w := fun w t hwt hw ↦ ⟨h w t hwt hw.1, h' w t hwt hw.2⟩

omit [DecidableEq ι] in
theorem erased_accessStored : Erased (ι := ι) fun w ↦ w.accessStored = none :=
  fun _ _ h hw ↦ h.accessStored.elim (·.trans hw) fun hnone ↦ hnone

omit [DecidableEq ι] in
theorem erased_refreshStored : Erased (ι := ι) fun w ↦ w.refreshStored = none :=
  fun _ _ h hw ↦ h.refreshStored.elim (·.trans hw) fun hnone ↦ hnone

/-- No token is left in memory or in the state of the provider. -/
def Forgotten (w : MobileClient ι) : Prop :=
  w.accessToken = none ∧ w.refreshToken = none ∧ w.sessionToken = none

omit [DecidableEq ι] in
theorem erased_forgotten : Erased (ι := ι) Forgotten := fun _ _ h hw ↦
  ⟨h.accessToken.elim (·.trans hw.1) fun hnone ↦ hnone,
    h.refreshToken.elim (·.trans hw.2.1) fun hnone ↦ hnone,
    h.sessionToken.elim (·.trans hw.2.2) fun hnone ↦ hnone⟩

omit [DecidableEq ι] in
theorem erased_signedOut : Erased (ι := ι) MobileClient.SignedOut := fun w t h hw ↦ by
  have hforgotten := erased_forgotten w t h ⟨hw.accessToken, hw.refreshToken, hw.sessionToken⟩
  exact ⟨hforgotten.1, hforgotten.2.1, erased_accessStored w t h hw.accessStored,
    erased_refreshStored w t h hw.refreshStored, hforgotten.2.2⟩

/-- The deletions of a logout, in either order. -/
theorem deleteStored_triple {X : Unit → ClientState ι → Prop} :
    (mobileSession flows).Triple i (SinceLogout flows i (Sealed Forgotten)) deleteStored
      (fun _ ↦ SinceLogout flows i (Sealed MobileClient.SignedOut)) X := by
  have hforgotten : Kept (ι := ι) (Sealed Forgotten) := sealed_kept erased_forgotten
  have hsignedOut : Kept (ι := ι) (Sealed MobileClient.SignedOut) := sealed_kept erased_signedOut
  refine .bind (sinceLogout_issue .deletesAccessFirst trivial hforgotten hforgotten
    fun _ _ _ _ _ _ _ h ↦ h) fun accessFirst ↦ .ite (fun _ ↦ ?_) fun _ ↦ ?_
  · refine .bind (sinceLogout_issue .deleteAccess trivial hforgotten
      (sealed_kept (erased_forgotten.and erased_accessStored)) ?_) fun _ ↦
        sinceLogout_issue .deleteRefresh trivial
          (sealed_kept (erased_forgotten.and erased_accessStored)) hsignedOut ?_
    · rintro w t x r - - hx ⟨hc, hf⟩
      cases hx
      exact ⟨hc, hf, rfl⟩
    · rintro w t x r - - hx ⟨hc, hf, haccess⟩
      cases hx
      exact ⟨hc, hf.1, hf.2.1, haccess, rfl, hf.2.2⟩
  · refine .bind (sinceLogout_issue .deleteRefresh trivial hforgotten
      (sealed_kept (erased_forgotten.and erased_refreshStored)) ?_) fun _ ↦
        sinceLogout_issue .deleteAccess trivial
          (sealed_kept (erased_forgotten.and erased_refreshStored)) hsignedOut ?_
    · rintro w t x r - - hx ⟨hc, hf⟩
      cases hx
      exact ⟨hc, hf, rfl⟩
    · rintro w t x r - - hx ⟨hc, hf, hrefresh⟩
      cases hx
      exact ⟨hc, hf.1, hf.2.1, rfl, hrefresh, hf.2.2⟩

/-- After the wait no refresh is in flight: the one that was is settled. -/
theorem awaitPending_triple (pending : Option (RefreshPromise ι)) {X : Unit → ClientState ι → Prop} :
    (mobileSession flows).Triple i (SinceLogout flows i (Waiting pending)) (awaitPending pending)
      (fun _ ↦ SinceLogout flows i (Sealed fun _ ↦ True)) X := by
  have hclosed : Kept (ι := ι) (Sealed fun _ ↦ True) := sealed_kept fun _ _ _ _ ↦ trivial
  cases pending with
  | none =>
    refine .pure (sinceLogout_stable (waiting_kept none)) fun s _ h p e he hthread hop ↦ ?_
    exact (h p e he hthread hop).imp (fun h ↦ h) fun hw ↦ ⟨⟨hw.1, hw.2.elim id id⟩, trivial⟩
  | some p =>
    refine sinceLogout_issue (.awaitRefresh p) trivial (waiting_kept _) hclosed ?_
    rintro w t x r hw - hx ⟨hf, hflight⟩
    simp only [ClientOp.exec] at hx
    split at hx <;> cases hx
    next entry hfind =>
      have hentry : entry.1 = p := by simpa using List.find?_some hfind
      have hsettled := (hw.settled entry (List.mem_of_find?_eq_some hfind)).2
      rw [hentry] at hsettled
      exact ⟨⟨hf, hflight.resolve_right hsettled⟩, trivial⟩

omit [DecidableEq ι] in
/-- What a logout tells the server is plain. -/
theorem plain_postLogout (refreshToken : Option Token) : (do
    let token ← getToken (ι := ι)
    issue (.postLogout token refreshToken)
    clearSessionQueryCache).All ClientOp.Plain :=
  .bind plain_getToken fun _ ↦ .bind (plain_issue trivial) fun _ ↦ plain_clearSessionQueryCache

/-- **A logout** leaves no token, unless a sign-in takes a step after it began. -/
theorem logoutFlow_triple : (mobileSession flows).Triple i (NotBegun i) logoutFlow
    (fun _ ↦ SinceLogout flows i (Sealed MobileClient.SignedOut))
    fun _ ↦ SinceLogout flows i (Sealed MobileClient.SignedOut) := by
  refine .bind (issue_triple .beginLogout
    (Q := fun answer s ↦ SinceLogout flows i (Waiting answer.1) s) notBegun_stable
    (fun answer ↦ sinceLogout_stable (waiting_kept answer.1)) (fun _ _ ↦ trivial)
    fun s x r t _ hnot hx ↦ ?_) fun answer ↦ ?_
  · cases hx
    exact hnot.begin ⟨⟨rfl, rfl⟩, .inr rfl⟩
  · obtain ⟨pending, inMemory⟩ := answer
    have hread : (mobileSession flows).Triple i (SinceLogout flows i (Waiting pending))
        (getRefreshToken inMemory) (fun _ ↦ SinceLogout flows i (Waiting pending))
        fun _ ↦ SinceLogout flows i (Sealed MobileClient.SignedOut) := by
      cases inMemory with
      | none =>
        exact sinceLogout_issue .readRefresh trivial (waiting_kept _) (waiting_kept _)
          fun _ _ _ _ _ _ _ h ↦ h
      | some token => exact .pure (sinceLogout_stable (waiting_kept _)) fun _ _ h ↦ h
    refine .bind hread fun refreshToken ↦ .bind (awaitPending_triple pending) fun _ ↦
      .bind ?_ fun _ ↦ .bind deleteStored_triple fun _ ↦
        plain_triple (plain_postLogout refreshToken) (sealed_kept erased_signedOut)
    refine sinceLogout_issue .clearInMemory trivial (sealed_kept fun _ _ _ _ ↦ trivial)
      (sealed_kept erased_forgotten) ?_
    rintro w t x r - - hx ⟨hc, -⟩
    cases hx
    exact ⟨hc, rfl, rfl, rfl⟩

end Logout

/-! ### Every flow -/

section Runs

variable {flows : ι → Flow} {i : ι}

/-- A sign-in begins no logout. -/
theorem completeAuth_triple (session : AuthSessionTokens) (h : (flows i).isCompleteAuth = true) :
    (mobileSession flows).Triple i (NotBegun i) (completeAuth session) (fun _ ↦ NotBegun i)
      fun _ ↦ NotBegun i := by
  have hissue : ∀ op : ClientOp ι, op ≠ .beginLogout → (∀ w, op.Permitted true i w) →
      (mobileSession flows).Triple i (NotBegun i) (issue op) (fun _ ↦ NotBegun i)
        fun _ ↦ NotBegun i := fun op hop hpermitted ↦
    issue_triple op notBegun_stable (fun _ ↦ notBegun_stable) (fun s _ ↦ h ▸ hpermitted s.shared)
      fun s x r t _ hnot _ ↦ hnot.after hop
  refine .bind (plain_notBegun plain_clearSessionQueryCache) fun _ ↦ .bind
    (hissue _ (fun h ↦ by cases h) fun _ ↦ rfl) fun _ ↦ .bind (.bind
      (hissue _ (fun h ↦ by cases h) fun _ ↦ .inl rfl) fun _ ↦
        hissue _ (fun h ↦ by cases h) fun _ ↦ .inl rfl) fun _ ↦
          hissue _ (fun h ↦ by cases h) fun _ ↦ rfl

/-- A request that has begun a logout has cleared everything. -/
theorem authenticatedRequest_triple :
    (mobileSession flows).Triple i (NotBegun i) authenticatedRequest
      (fun _ ↦ SinceLogout flows i (Sealed MobileClient.SignedOut))
      fun _ ↦ SinceLogout flows i (Sealed MobileClient.SignedOut) := by
  have hdone : (mobileSession flows).Triple i (NotBegun i) (.pure () : ClientProg ι Unit)
      (fun _ ↦ SinceLogout flows i (Sealed MobileClient.SignedOut))
      fun _ ↦ SinceLogout flows i (Sealed MobileClient.SignedOut) :=
    .pure notBegun_stable fun _ _ h ↦ h.sinceLogout
  have hattempt : ∀ authorization, (mobileSession flows).Triple i (NotBegun i)
      (attempt authorization) (fun _ ↦ NotBegun i)
      fun _ ↦ SinceLogout flows i (Sealed MobileClient.SignedOut) := fun authorization ↦
    (plain_notBegun (plain_attempt authorization)).conseq (fun _ _ h ↦ h) (fun _ _ _ h ↦ h)
      fun _ _ _ h ↦ h.sinceLogout
  refine .bind (hattempt none) fun status ↦ .ite (fun _ ↦ .bind (rotateAccessToken_triple.conseq
    (fun _ _ h ↦ h) (fun _ _ _ h ↦ h) fun _ _ _ h ↦ h.sinceLogout) fun nextToken ↦ ?_) fun _ ↦ hdone
  cases nextToken with
  | none => exact logoutFlow_triple
  | some token =>
    exact .bind (hattempt (some token)) fun status ↦ .ite (fun _ ↦ logoutFlow_triple) fun _ ↦ hdone

/-- **Every flow**: if it has begun a logout, then all is cleared since, up to a sign-in. -/
theorem flow_triple : (mobileSession flows).Triple i (NotBegun i) (flows i).run
    (fun _ ↦ SinceLogout flows i (Sealed MobileClient.SignedOut))
    fun _ ↦ SinceLogout flows i (Sealed MobileClient.SignedOut) := by
  cases hflow : flows i with
  | request => exact authenticatedRequest_triple
  | logout => exact logoutFlow_triple
  | completeAuth session =>
    exact (completeAuth_triple session (by rw [hflow]; rfl)).conseq (fun _ _ h ↦ h)
      (fun _ _ _ h ↦ h.sinceLogout) fun _ _ _ h ↦ h.sinceLogout

/-- Every flow that took a step has ended. -/
def AllEnded (c : ClientConfig ι) : Prop :=
  ∀ i, c.state.history i = [] ∨ ∃ o, c.Answered i o

/-- **A logout is final.** One refresh call is in flight at most. When a logout has begun, no sign-in
takes a step afterwards and every flow has ended, no token is left: in memory, on the device or in the
state of the provider. -/
theorem logout_is_final {w : MobileClient ι} (hw : w.Mounted) (flows : ι → Flow) {c : ClientConfig ι}
    (hc : Run (mobile ι) NoFlowLost (.start w fun i ↦ (flows i).run) c) :
    c.state.shared.refreshCalls ≤ 1 ∧
    ∀ p e, c.state.log[p]? = some e → e.op = ClientOp.beginLogout → ¬ LoginAfter flows p c.state →
      AllEnded c → c.state.shared.SignedOut := by
  have hstart : (mobileSession flows).AllSafe
      (fun i _ ↦ SinceLogout flows i (Sealed MobileClient.SignedOut))
      (fun i _ ↦ SinceLogout flows i (Sealed MobileClient.SignedOut))
      (Config.start w fun i ↦ (flows i).run) := by
    -- The client begins signed in or out, but with no refresh in flight.
    refine .start NotBegun ⟨?_, fun _ ↦ hw.refreshCalls, ?_, ?_⟩ (fun i e he ↦ absurd he ?_)
      fun i ↦ flow_triple
    · show w.refreshCalls ≤ 1
      rw [hw.refreshCalls]
      exact Nat.zero_le 1
    · intro p (hp : w.refreshInFlight = some p)
      cases hw.refreshInFlight.symm.trans hp
    · intro entry (hentry : entry ∈ w.settled)
      rw [hw.settled] at hentry
      exact absurd hentry List.not_mem_nil
    · exact List.not_mem_nil
  have hsafe := hstart.run hc
  refine ⟨hsafe.1.calls, fun p e he hop hno hended ↦ ?_⟩
  -- The flow that began the logout has ended, so its postcondition holds.
  have hsince : SinceLogout flows e.thread (Sealed MobileClient.SignedOut) c.state := by
    rcases hended e.thread with hnone | ⟨o, ho⟩
    · have hmem : e ∈ c.state.history e.thread :=
        State.mem_history.2 ⟨List.mem_of_getElem? he, rfl⟩
      rw [hnone] at hmem
      exact absurd hmem List.not_mem_nil
    · cases o with
      | ok a => exact hsafe.answer ho
      | error e => exact hsafe.error ho
  exact ((hsince p e he rfl hop).resolve_left hno).2

end Runs

namespace Demo

/-- A client with a session, just mounted. -/
def mountedClient : MobileClient ℕ where
  accessToken := some ⟨0, 0⟩
  refreshToken := some ⟨0, 1⟩
  accessStored := some ⟨0, 0⟩
  refreshStored := some ⟨0, 1⟩
  sessionToken := some ⟨0, 0⟩
  sessionLive := true
  refreshEpoch := 0
  refreshAllowed := true
  refreshInFlight := none
  refreshes := 0
  settled := []
  refreshCalls := 0

/-- The first flow is a request and the others are logouts. -/
def oneRequest (i : ℕ) : Flow := if i = 0 then .request else .logout

/-- Turns of a flow. The server answers with 401, and to refreshes with a new session. -/
def clientTurns (i n : ℕ) : List (Turn ℕ ClientChoice) :=
  List.replicate n ⟨i, .unauthorized, some ⟨⟨0, 2⟩, ⟨0, 3⟩⟩, true⟩

/-- Everything is allowed. -/
def anyClientStatement (_ : ℕ) (_ : ClientOp ℕ) (_ : ClientState ℕ) : Bool := true

/-- The logout begins while the refreshed session is written to the device. -/
theorem lateLogout_runs : ((Config.start mountedClient fun i ↦ (oneRequest i).run).turns (mobile ℕ)
    anyClientStatement (clientTurns 0 8 ++ clientTurns 1 1 ++ clientTurns 0 18 ++
      clientTurns 1 9)).isSome := by
  decide +kernel

/-- The client after a logout that comes in the midst of a refresh. -/
def lateLogout : ClientConfig ℕ := Config.afterTurns _ _ _ _ lateLogout_runs

/-- All its flows have ended. -/
theorem lateLogout_ended : AllEnded lateLogout := by
  intro i
  have houtcomes : ∀ i < 2, ((lateLogout.progs i).bind Prog.outcome).isSome = true := by
    decide +kernel
  have hthreads : ∀ e ∈ lateLogout.state.log, e.thread < 2 := by decide +kernel
  by_cases hi : i < 2
  · obtain ⟨o, ho⟩ := Option.isSome_iff_exists.1 (houtcomes i hi)
    exact .inr ⟨o, Config.answered_iff.2 ho⟩
  · refine .inl (List.filter_eq_nil_iff.2 fun e he hthread ↦ hi ?_)
    exact of_decide_eq_true hthread ▸ hthreads e he

end Demo

open Demo

/-- The refresh has written a token during the logout, and nothing of it is left. -/
theorem logout_is_final_during_refresh :
    (lateLogout.state.log[7]?.map fun e ↦ e.op) = some (.writeAccess ⟨0, 2⟩) ∧
      lateLogout.state.shared.SignedOut := by
  have hrun : Run (mobile ℕ) NoFlowLost (.start mountedClient fun i ↦ (oneRequest i).run) lateLogout :=
    Config.run_afterTurns (fun _ _ _ _ _ ↦ trivial) lateLogout_runs
  have hbegun : (lateLogout.state.log[8]?.map fun e ↦ e.op) = some .beginLogout := by
    decide +kernel
  obtain ⟨e, he, hop⟩ := Option.map_eq_some_iff.1 hbegun
  refine ⟨by decide +kernel, (logout_is_final ⟨rfl, rfl, rfl, rfl, rfl⟩ oneRequest hrun).2 8 e he hop
    ?_ lateLogout_ended⟩
  rintro ⟨q, d, -, -, hlogin⟩
  unfold oneRequest at hlogin
  split at hlogin <;> cases hlogin

end Stead
