import Stead.Otp.Consuming

/-!
# One session from one code

Every session comes from a code of its own.

## Beginnings

A call begins a session when it creates the first token of a family in the transaction that has
consumed the code (`Begins`, `BeginsAt`). The family is drawn at random and by one call only, so
that a row of a family leads to the call that began it (`SignedIn.origins_after`): the tokens that
replaced the first one are of the same family.

## Codes are used in turn

While a sign-in holds the row of its code no other can have committed a session begun with it, since
a committed session spends its code (`SignedIn.spent_after`), and so it spends the codes of the user
that the sign-in found when it retired them. The codes two sessions of a user were begun with
therefore followed one another (`SignedIn.apart_after`): the later one was not there yet when the
sign-in with the earlier one looked for codes to retire.

## The invariant

`SignedIn` collects this for every reachable state. Each of its fields has one lemma for a
statement, and `SignedIn.after` puts them together; `signedIn_run` is the induction over the run.
-/

namespace Stead

open Concurrency

variable {ι : Type} [DecidableEq ι]

/-! ### Sessions that have been begun -/

/-- The thread has begun family `F` of user `u`, with code `id`. -/
def Begins (s : History ι) (i : ι) (id u F : ℕ) : Prop :=
  ∃ first, (signIn (s.trace i)).begun = some (id, first) ∧ first.userId = u ∧ first.familyId = F

/-- A call begins one session. -/
theorem Begins.unique {s : History ι} {i : ι} {id id' u u' F F' : ℕ} (h : Begins s i id u F)
    (h' : Begins s i id' u' F') : id = id' ∧ u = u' ∧ F = F' := by
  obtain ⟨first, hfirst, rfl, rfl⟩ := h
  obtain ⟨first', hfirst', rfl, rfl⟩ := h'
  cases hfirst.symm.trans hfirst'
  exact ⟨rfl, rfl, rfl⟩

/-- The thread has begun a session with code `id`, and the token is its first. -/
def BeginsAt (s : History ι) (i : ι) (id : ℕ) (row : RefreshToken) : Prop :=
  ∃ first, (signIn (s.trace i)).begun = some (id, first) ∧ first.userId = row.userId ∧
    first.familyId = row.familyId ∧ first.tokenHash = row.tokenHash

/-- The first token is of the session that is begun. -/
theorem BeginsAt.begins {s : History ι} {i : ι} {id : ℕ} {row : RefreshToken}
    (h : BeginsAt s i id row) : Begins s i id row.userId row.familyId :=
  let ⟨first, hfirst, hu, hF, _⟩ := h
  ⟨first, hfirst, hu, hF⟩

/-- Revoking a token or linking it does not change where it comes from. -/
theorem BeginsAt.of_same {s : History ι} {i : ι} {id : ℕ} {row row' : RefreshToken}
    (h : BeginsAt s i id row) (hattr : row'.attributes = row.attributes)
    (htoken : row'.tokenHash = row.tokenHash) : BeginsAt s i id row' := by
  obtain ⟨first, hfirst, hu, hF, hfirstToken⟩ := h
  exact ⟨first, hfirst, hu.trans (congrArg Prod.fst hattr).symm,
    hF.trans (congrArg (fun a ↦ a.2.1) hattr).symm, hfirstToken.trans htoken.symm⟩

/-- The thread has drawn the family. -/
theorem drawn_of_mem_trace {s : History ι} {i : ι} {F : ℕ} (h : drewFamily F ∈ s.trace i) :
    ∃ e ∈ s.log, e.thread = i ∧ Draws F e := by
  obtain ⟨⟨j, before, op, resp, after⟩, he, heq⟩ := List.mem_map.1 h
  obtain ⟨hlog, hthread⟩ := State.mem_history.1 he
  cases heq
  exact ⟨_, hlog, hthread, rfl⟩

/-- No two threads draw the same family. -/
theorem DrawnOnce.thread_eq {s : History ι} (hs : DrawnOnce s) {i j : ι} {F : ℕ}
    (hi : drewFamily F ∈ s.trace i) (hj : drewFamily F ∈ s.trace j) : i = j := by
  obtain ⟨e, he, rfl, hdraw⟩ := drawn_of_mem_trace hi
  obtain ⟨e', he', rfl, hdraw'⟩ := drawn_of_mem_trace hj
  exact ((hs F e he hdraw).2 e' he' hdraw').symm

section Statements

variable {crypto : Crypto} {i j : ι} {x : Choice} {op : Op} {w t : World ι}
  {r : Except StatementError op.Ret}

/-- Only a commit brings a family in, and only one that the transaction has written. -/
theorem hasFamily_after (h : exec crypto i x op w = some (r, t)) {F : ℕ} (hF : t.HasFamily F) :
    w.HasFamily F ∨ op = .commit ∧ (∃ n, t = (w.elapse n).commit i) ∧
      ∃ k r', w.refreshTokens.pending k = some (i, r') ∧ r'.familyId = F := by
  obtain ⟨k, r', hr', hrF⟩ := hF
  have hsame : t.refreshTokens.stored k = w.refreshTokens.stored k → w.HasFamily F := fun h ↦
    ⟨k, r', h.symm.trans hr', hrF⟩
  cases exec_refreshTokens h k with
  | same heq => exact .inl (hsame (congrArg Cell.stored heq))
  | @edit st r₀ r₁ hop hv he hl heq =>
    cases hwriter : st.writer i with
    | none =>
      rw [hwriter] at hv heq
      -- A statement outside of transactions edits a row in its place and leaves the family.
      rw [Cell.view_none] at hv
      have hstored : t.refreshTokens.stored k = some r₁ := congrArg Cell.stored heq
      obtain rfl := Option.some.inj (hstored.symm.trans hr')
      refine .inl ⟨k, r₀, hv, ?_⟩
      rw [← hrF]
      cases he <;> rfl
    | some l =>
      rw [hwriter] at heq
      exact .inl (hsame ((congrArg Cell.stored heq).trans rfl))
  | create _ _ _ _ _ heq =>
    have hstored : t.refreshTokens.stored k = none := congrArg Cell.stored heq
    cases hstored.symm.trans hr'
  | commit hop _ =>
    subst hop
    -- A commit whose effect is lost is a rollback.
    rcases exec_commit h with rfl | ⟨rfl, rfl⟩
    · by_cases hp : ∃ p, w.refreshTokens.pending k = some (i, p)
      · obtain ⟨p, hp⟩ := hp
        have hstored := (World.commit_stored _ i k).trans (World.tokens_of_pending hp)
        obtain rfl := Option.some.inj (hstored.symm.trans hr')
        exact .inr ⟨rfl, ⟨_, rfl⟩, k, p, hp, hrF⟩
      · exact .inl (hsame ((World.commit_stored _ i k).trans
          (World.tokens_of_not_pending fun p hp' ↦ hp ⟨p, hp'⟩)))
    · exact .inl (hsame (World.rollback_stored _ i k))
  | rollback _ heq => exact .inl (hsame ((congrArg Cell.stored heq).trans (Cell.rollback_stored _ _)))

/-- The end of a transaction leaves nothing of it pending. -/
theorem pending_of_ends (h : exec crypto i x op w = some (r, t)) (hends : op.Ends) {k : ℕ}
    {r' : RefreshToken} (hr' : t.refreshTokens.pending k = some (j, r')) :
    j ≠ i ∧ w.refreshTokens.pending k = some (j, r') := by
  rcases hends with rfl | rfl
  · rcases exec_commit h with rfl | ⟨-, rfl⟩
    · exact Cell.pending_of_commit hr'
    · exact Cell.pending_of_rollback hr'
  · obtain ⟨-, rfl⟩ := exec_rollback h
    exact Cell.pending_of_rollback hr'

/-- Where a version of a token that a transaction has written comes from: the transaction had written
one before, or it was the committed one, or the token is new. -/
inductive WrittenFrom (w : World ι) (i : ι) (op : Op) (k : ℕ) (j : ι) (r' : RefreshToken) : Prop
  | version {r : RefreshToken} (h : w.refreshTokens.pending k = some (j, r))
      (hattr : r'.attributes = r.attributes) (htoken : r'.tokenHash = r.tokenHash)
      (hend : j = i → ¬ op.Ends)
  | stored {r : RefreshToken} (h : w.refreshTokens.stored k = some r)
      (hattr : r'.attributes = r.attributes)
  | created {data : NewRefreshToken} (hj : j = i) (hop : op = .refreshToken (.create data))
      (h : r' = data.row)

/-- A token that a transaction has written was there, or is created or edited now. -/
theorem exec_written (h : exec crypto i x op w = some (r, t)) {k : ℕ} {r' : RefreshToken}
    (hr' : t.refreshTokens.pending k = some (j, r')) : WrittenFrom w i op k j r' := by
  by_cases hends : op.Ends
  · obtain ⟨hne, hbefore⟩ := pending_of_ends h hends hr'
    exact .version hbefore rfl rfl fun hj ↦ absurd hj hne
  have hpending : (t.refreshTokens.cell k).pending = some (j, r') := hr'
  cases exec_refreshTokens h k with
  | same heq =>
    rw [heq] at hpending
    exact .version hpending rfl rfl fun _ ↦ hends
  | @edit st r₀ r₁ hop hv he hl heq =>
    rw [heq] at hpending
    have hattr : r₁.attributes = r₀.attributes := by cases he <;> rfl
    have htoken : r₁.tokenHash = r₀.tokenHash := by cases he <;> rfl
    cases hwriter : st.writer i with
    | none =>
      rw [hwriter] at hpending
      exact .version hpending rfl rfl fun _ ↦ hends
    | some l =>
      rw [hwriter] at hpending hv
      cases hpending
      by_cases hp : ∃ p, w.refreshTokens.pending k = some (j, p)
      · obtain ⟨p, hp⟩ := hp
        obtain rfl := Option.some.inj ((World.tokens_of_pending hp).symm.trans hv)
        exact .version hp hattr htoken fun _ ↦ hends
      · exact .stored ((World.tokens_of_not_pending fun p hp' ↦ hp ⟨p, hp'⟩).symm.trans hv) hattr
  | create hop _ _ _ _ heq =>
    rw [heq] at hpending
    cases hpending
    exact .created rfl hop rfl
  | commit hop => exact absurd (.inl hop) hends
  | rollback hop heq =>
    rw [heq] at hpending
    obtain ⟨hne, hbefore⟩ := Cell.pending_of_rollback hpending
    exact .version hbefore rfl rfl fun hj ↦ absurd hj hne

/-- The row of a live code that is found is the user's. -/
theorem exec_findLive {userId : ℕ} {now : ℤ} {record : Keyed OtpCode}
    (h : exec crypto i x (.otpCode (.findLive userId now)) w = some (.ok (some record), t)) :
    w.otpCodes.stored record.id = some record.row ∧ record.row.userId = userId ∧
      t.otpCodes = w.otpCodes := by
  have hp := perform_of_exec_ok h
  simp only [perform, OtpCodeStatement.perform, reply, Option.some.injEq, Prod.mk.injEq,
    Except.ok.injEq] at hp
  obtain ⟨hlatest, rfl⟩ := hp
  have hmem := (List.mem_filter.1 (List.mem_of_getElem? hlatest)).1
  rw [Table.mem_select, Cell.view_none, Bool.and_eq_true, decide_eq_true_eq] at hmem
  exact ⟨hmem.1, hmem.2.1, rfl⟩

end Statements

/-! ### The invariant -/

/-- The session that the thread has begun with code `id`, family `F` of user `u`, is committed. -/
structure Committed (s : History ι) (i : ι) (id u F : ℕ) : Prop where
  begins : Begins s i id u F
  family : s.shared.HasFamily F

/-- What holds of the sign-ins of a run that starts with `w`. -/
structure SignedIn (env : Env) (w : World ι) (calls : ι → ApiCall) (s : History ι) : Prop where
  codes : CodesSound s.shared
  fresh : w.fresh ≤ s.shared.fresh
  drawn : ∀ F, ∀ e ∈ s.log, Draws F e → w.fresh ≤ F
  /-- What the sign-ins have read. -/
  lives : ∀ i u now record, foundLive u now record ∈ s.trace i → record.row.userId = u ∧
    s.shared.Born record.id record.row.birth
  looked : ∀ i hash existing phone, lookup hash existing phone ∈ s.trace i →
    Owner existing.row.familyId existing.row.userId s
  /-- Where the sessions come from. -/
  matched : ∀ i id u F, Begins s i id u F → ∃ v, (calls i).Verifies env v ∧
    Matched v.normalizedPhone v.otp u id (s.trace i) ∧ drewFamily F ∈ s.trace i
  origins : ∀ k r, s.shared.Version k r → w.HasFamily r.familyId ∨
    ∃ i id, Begins s i id r.userId r.familyId
  pending : ∀ k i r, s.shared.refreshTokens.pending k = some (i, r) →
    Owner r.familyId r.userId s ∨
      ∃ id, BeginsAt s i id r ∧ (signIn (s.trace i)).consumed = some id
  /-- What the committed ones have used up. -/
  spent : ∀ i id u F, Committed s i id u F → s.shared.Spent id ∧ ∃ e, Sweeps s i u e ∧
    id < e.before.otpCodes.next ∧ s.shared.SpentBelow u e.before.otpCodes.next
  alone : ∀ i j id u u' F F', Committed s i id u F → Committed s j id u' F' → i = j
  apart : ∀ i j id id' u F F', i ≠ j → Committed s i id u F → Committed s j id' u F' →
    (∃ e, Sweeps s i u e ∧ id < e.before.otpCodes.next ∧ e.before.otpCodes.next ≤ id') ∨
      ∃ e, Sweeps s j u e ∧ id' < e.before.otpCodes.next ∧ e.before.otpCodes.next ≤ id

section Invariant

variable {env : Env} {crypto : Crypto} {w t : World ι} {calls : ι → ApiCall} {i j : ι} {x : Choice}
  {op : Op} {s : History ι} {r : Except StatementError op.Ret} {id u F : ℕ}

/-- A session that is begun is the thread's first and only one, with the code it has consumed. -/
theorem begins_after (hop : SignInStatement env (calls i) (s.trace i) op)
    (h : Begins (s.after i op r t) j id u F) : Begins s j id u F ∨ j = i ∧
      ∃ data, op = .refreshToken (.create data) ∧ data.userId = u ∧ data.familyId = F ∧
        (signIn (s.trace i)).consumed = some id := by
  by_cases hij : i = j
  · subst hij
    obtain ⟨first, hfirst, rfl, rfl⟩ := h
    rw [State.after_trace_self, signIn_append] at hfirst
    rcases SignIn.after_begun hfirst with ⟨rfl, hconsumed⟩ | hbefore
    · exact .inr ⟨rfl, first, rfl, rfl, rfl, hconsumed⟩
    · exact .inl ⟨first, hbefore, rfl, rfl⟩
  · rw [Begins, State.after_trace_of_ne _ hij] at h
    exact .inl h

theorem begun_after (hop : SignInStatement env (calls i) (s.trace i) op)
    {first : NewRefreshToken} (hfirst : (signIn (s.trace j)).begun = some (id, first)) :
    (signIn ((s.after i op r t).trace j)).begun = some (id, first) := by
  by_cases hij : i = j
  · subst hij
    rw [State.after_trace_self, signIn_append]
    refine SignIn.after_of_begun hfirst fun data hcreate ↦ ?_
    rcases hop.begun data hcreate with ⟨_, _, -, hnone, -⟩ | ⟨hnone, -⟩
    · cases hnone.symm.trans hfirst
    · exact hnone
  · rw [State.after_trace_of_ne _ hij]
    exact hfirst

theorem Begins.after (hop : SignInStatement env (calls i) (s.trace i) op)
    (h : Begins s j id u F) : Begins (s.after i op r t) j id u F :=
  let ⟨first, hfirst, hu⟩ := h
  ⟨first, begun_after hop hfirst, hu⟩

theorem BeginsAt.after {row : RefreshToken} (hop : SignInStatement env (calls i) (s.trace i) op)
    (h : BeginsAt s j id row) : BeginsAt (s.after i op r t) j id row :=
  let ⟨first, hfirst, hrow⟩ := h
  ⟨first, begun_after hop hfirst, hrow⟩

/-- A family that the thread has drawn is not one of those the run started with, and no other thread
begins it. -/
theorem SignedIn.drew {s : History ι} (hs : SignedIn env w calls s) (hw : TokensSound w)
    (hdrawn : DrawnOnce s) (h : drewFamily F ∈ s.trace i) : ¬ w.HasFamily F ∧
      ∀ j id u, Begins s j id u F → j = i := by
  refine ⟨?_, fun j id u hj ↦ ?_⟩
  · rintro ⟨k, r, hr, rfl⟩
    obtain ⟨e, he, -, hdraw⟩ := drawn_of_mem_trace h
    have := hs.drawn _ e he hdraw
    have := hw.fresh k r (.inl hr)
    omega
  · obtain ⟨_, _, _, hdrew⟩ := hs.matched j id u F hj
    exact hdrawn.thread_eq hdrew h

/-- The step commits the session that the thread has begun. -/
structure CommitsSession (s : History ι) (i : ι) (op : Op) (t : World ι) (id u F : ℕ) : Prop where
  commit : op = .commit
  after : ∃ n, t = (s.shared.elapse n).commit i
  begins : Begins s i id u F
  consumed : (signIn (s.trace i)).consumed = some id
  first : ∃ k row, s.shared.refreshTokens.pending k = some (i, row) ∧ row.familyId = F ∧
    BeginsAt s i id row

/-- **A step commits** no session, or the one that its thread has begun. -/
theorem SignedIn.committed_after (hs : SignedIn env w calls s) (hw : TokensSound w)
    (hdrawn : DrawnOnce s) (hop : SignInStatement env (calls i) (s.trace i) op)
    (h : exec crypto i x op s.shared = some (r, t)) (hc : Committed (s.after i op r t) j id u F) :
    Committed s j id u F ∨ j = i ∧ CommitsSession s i op t id u F := by
  obtain ⟨hbegins, hfamily⟩ := hc
  rcases hasFamily_after h hfamily with hbefore | ⟨rfl, hafter, k, r', hp, rfl⟩
  · rcases begins_after hop hbegins with hbegins | ⟨rfl, data, hcreate, rfl, rfl, hconsumed⟩
    · exact .inl ⟨hbegins, hbefore⟩
    · -- The family of a session that is only begun now has no committed token.
      exfalso
      rcases hop.begun data hcreate with ⟨_, _, -, hnone, -, -, hdrew⟩ | ⟨hnone, -⟩
      · obtain ⟨hfresh, honly⟩ := hs.drew hw hdrawn hdrew
        obtain ⟨k, r', hr', hF⟩ := hbefore
        rcases hs.origins k r' (.inl hr') with hold | ⟨l, id', hl⟩
        · exact hfresh (hF ▸ hold)
        · rw [hF] at hl
          obtain rfl := honly _ _ _ hl
          obtain ⟨first, hfirst, -⟩ := hl
          cases hnone.symm.trans hfirst
      · cases hnone.symm.trans hconsumed
  · have hbegan : Begins s j id u r'.familyId := by
      rcases begins_after hop hbegins with hbegan | ⟨-, data, hcreate, -⟩
      · exact hbegan
      · cases hcreate
    rcases hs.pending k i r' hp with ⟨k', r'', hr'', hF, -⟩ | ⟨id', hfirst, hconsumed⟩
    · exact .inl ⟨hbegan, k', r'', hr'', hF⟩
    · obtain ⟨_, _, _, hdrew⟩ := hs.matched _ _ _ _ hfirst.begins
      obtain rfl := (hs.drew hw hdrawn hdrew).2 _ _ _ hbegan
      obtain ⟨rfl, rfl, -⟩ := hbegan.unique hfirst.begins
      exact .inr ⟨rfl, rfl, hafter, hbegan, hconsumed, k, r', hp, rfl, hfirst⟩

/-- **The code of a session that is committed** was held, and is spent, with what else the thread has
found of the user. -/
theorem CommitsSession.spends (hcommits : CommitsSession s i op t id u F) (hs : SignedIn env w calls s)
    (hJ : InTransaction i s) (hop : SignInStatement env (calls i) (s.trace i) op) :
    s.shared.Holding i id ∧ t.Spent id ∧ ∃ e, Sweeps s i u e ∧ id < e.before.otpCodes.next ∧
      t.SpentBelow u e.before.otpCodes.next := by
  obtain ⟨rfl, ⟨n, rfl⟩, ⟨first, hfirst, hu, -⟩, hconsumed, -⟩ := hcommits
  obtain ⟨_, _, u', -, hready⟩ := hop.committed rfl id hconsumed
  obtain ⟨data, hdata, hu', -⟩ := hready.begun
  cases hfirst.symm.trans hdata
  obtain rfl : u' = u := hu'.symm.trans hu
  obtain ⟨e, he, hid, hspent⟩ := hJ.retired u' hready.retired
  have hheld := hJ.held id hconsumed
  refine ⟨hheld, ?_, e, he, hid id hconsumed, ?_⟩
  · exact CodesSound.spent_commit (w := s.shared.elapse n) ⟨hs.codes.consumed, hs.codes.held,
      hs.codes.verified⟩ hheld
  · exact World.SpentFor.commit (w := s.shared.elapse n) hspent

/-- A code that is held is none of those that are spent. -/
theorem SignedIn.le_of_holding (hs : SignedIn env w calls s) (hbegins : Begins s i id u F)
    (hheld : s.shared.Holding i id) {n : ℕ} (hn : s.shared.SpentBelow u n) : n ≤ id := by
  by_contra hlt
  obtain ⟨row, hrow⟩ := hheld
  obtain ⟨row₀, hrow₀, hlive, -⟩ := hs.codes.held id i row hrow
  obtain ⟨v, -, ⟨user, now, record, -, -, hfound, rfl, -⟩, -⟩ := hs.matched i id u F hbegins
  obtain ⟨hu, hborn⟩ := hs.lives i u now record hfound
  have huser : row₀.userId = u := (OtpCode.userId_of_birth (hborn.stored row₀ hrow₀)).trans hu
  have := hn.2 _ row₀ (not_le.1 hlt) hrow₀ huser
  simp [hlive] at this

/-- A family has one owner. -/
theorem Owner.move {A : Weather ι} {s' : History ι} (hs : TokensSound s.shared)
    (hm : Move (machine ι crypto) A j s s') (h : Owner F u s) : Owner F u s' := by
  obtain ⟨k, r, hr, hF, hu⟩ := h
  obtain ⟨r', hr', hle⟩ := hs.move_stored hm hr
  exact ⟨k, r', hr', hle.familyId.trans hF, hle.userId.trans hu⟩

/-- What a call has consumed stays on its record until the end of its transaction. -/
theorem consumed_after (hop : SignInStatement env (calls i) (s.trace i) op)
    (hend : j = i → ¬ op.Ends) (h : (signIn (s.trace j)).consumed = some id) :
    (signIn ((s.after i op r t).trace j)).consumed = some id := by
  by_cases hij : i = j
  · subst hij
    rw [State.after_trace_self, signIn_append]
    refine SignIn.after_of_consumed h (hend rfl) fun id' at_ hc ↦ ?_
    rw [hop.consumed id' at_ hc] at h
    cases h
  · rw [State.after_trace_of_ne _ hij]
    exact h

/-- The session of a token that is created is begun, or the token continues one. -/
theorem SignedIn.created (hs : SignedIn env w calls s)
    (hop : SignInStatement env (calls i) (s.trace i) op) {data : NewRefreshToken}
    (hcreate : op = .refreshToken (.create data)) :
    (∃ id, (signIn (s.trace i)).consumed = some id ∧
      BeginsAt (s.after i op r t) i id data.row) ∨ Owner data.familyId data.userId s := by
  rcases hop.begun data hcreate with ⟨id, _, hconsumed, -⟩ | ⟨-, hash, existing, phone, hlook, hu, hF⟩
  · refine .inl ⟨id, hconsumed, data, ?_, rfl, rfl, rfl⟩
    subst hcreate
    rw [State.after_trace_self, signIn_append]
    simp [SignIn.after, hconsumed]
  · exact .inr (hu ▸ hF ▸ hs.looked i hash existing phone hlook)

section Steps

variable (hs : SignedIn env w calls s) (h : exec crypto i x op s.shared = some (r, t))

include hs h

/-- Families are drawn in order. -/
theorem SignedIn.drawn_after (F : ℕ) : ∀ e ∈ (s.after i op r t).log, Draws F e → w.fresh ≤ F := by
  intro e he hdraw
  rw [State.after_log, List.mem_append, List.mem_singleton] at he
  rcases he with he | rfl
  · exact hs.drawn F e he hdraw
  · obtain ⟨rfl, hr⟩ := hdraw.eq
    obtain rfl : r = .ok F := hr
    cases perform_of_exec_ok h
    exact hs.fresh

/-- A code that was found live is the user's. -/
theorem SignedIn.lives_after {now : ℤ} {record : Keyed OtpCode}
    (hfound : foundLive u now record ∈ (s.after i op r t).trace j) :
    record.row.userId = u ∧ t.Born record.id record.row.birth := by
  rcases State.mem_trace_after hfound with hbefore | ⟨rfl, heq⟩
  · exact (hs.lives j u now record hbefore).imp_right (hs.codes.born_after h)
  · cases heq
    obtain ⟨hrow, hu, hsame⟩ := exec_findLive h
    exact ⟨hu, World.born_of_stored (hsame ▸ hrow)⟩

/-- A token that was looked up is its owner's. -/
theorem SignedIn.looked_after (hsound : TokensSound s.shared) {hash : Digest}
    {existing : Keyed RefreshToken} {phone : String}
    (hlook : lookup hash existing phone ∈ (s.after i op r t).trace j) :
    Owner existing.row.familyId existing.row.userId (s.after i op r t) := by
  have hm : Move (machine ι crypto) .all i s (s.after i op r t) := .stmt trivial h
  rcases State.mem_trace_after hlook with hbefore | ⟨rfl, heq⟩
  · exact (hs.looked j hash existing phone hbefore).move hsound hm
  · cases heq
    obtain ⟨-, ⟨hnone, -⟩ | ⟨found, phone', hfound, hrow, -⟩⟩ := findByHash_cases h
    · cases hnone
    · cases hfound
      exact Owner.move hsound hm ⟨_, _, hrow, rfl, rfl⟩

variable (hop : SignInStatement env (calls i) (s.trace i) op)

include hop

/-- **Origins**: every version of a token is of a family from the start or from a sign-in. -/
theorem SignedIn.origins_after {k : ℕ} {r' : RefreshToken} (hr' : t.Version k r') :
    w.HasFamily r'.familyId ∨ ∃ j id, Begins (s.after i op r t) j id r'.userId r'.familyId := by
  have hknown : ∀ k r₀, s.shared.Version k r₀ → r₀.userId = r'.userId →
      r₀.familyId = r'.familyId → w.HasFamily r'.familyId ∨
        ∃ j id, Begins (s.after i op r t) j id r'.userId r'.familyId := fun k r₀ hr₀ hu hF ↦ by
    rw [← hu, ← hF]
    exact (hs.origins k r₀ hr₀).imp_right fun ⟨j, id, hj⟩ ↦ ⟨j, id, hj.after hop⟩
  cases exec_version h hr' with
  | version hr hattr =>
    exact hknown k _ hr (congrArg Prod.fst hattr.symm) (congrArg (fun a ↦ a.2.1) hattr.symm)
  | create hcreate _ hrow =>
    subst hrow
    rcases hs.created hop hcreate with ⟨id, -, hbegins⟩ | ⟨k', r₀, hr₀, hF, hu⟩
    · exact .inr ⟨i, id, hbegins.begins⟩
    · exact hknown k' r₀ (.inl hr₀) hu hF

variable (hsound : TokensSound s.shared)

include hsound

/-- A token that is not committed is of a committed family, or the first of its own. -/
theorem SignedIn.pending_after {k : ℕ} {r' : RefreshToken}
    (hp : t.refreshTokens.pending k = some (j, r')) :
    Owner r'.familyId r'.userId (s.after i op r t) ∨
      ∃ id, BeginsAt (s.after i op r t) j id r' ∧
        (signIn ((s.after i op r t).trace j)).consumed = some id := by
  have hm : Move (machine ι crypto) .all i s (s.after i op r t) := .stmt trivial h
  cases exec_written h hp with
  | @version r₀ hp₀ hattr htoken hend =>
    have hu : r'.userId = r₀.userId := congrArg Prod.fst hattr
    have hF : r'.familyId = r₀.familyId := congrArg (fun a ↦ a.2.1) hattr
    rw [hu, hF]
    exact (hs.pending k j r₀ hp₀).imp (Owner.move hsound hm) fun ⟨id, hj, hconsumed⟩ ↦
      ⟨id, (hj.of_same hattr htoken).after hop, consumed_after hop hend hconsumed⟩
  | @stored r₀ hr₀ hattr =>
    have hu : r'.userId = r₀.userId := congrArg Prod.fst hattr
    have hF : r'.familyId = r₀.familyId := congrArg (fun a ↦ a.2.1) hattr
    exact .inl (Owner.move hsound hm ⟨k, r₀, hr₀, hF.symm, hu.symm⟩)
  | created hj hcreate hrow =>
    subst hj hrow
    rcases hs.created hop hcreate with ⟨id, hconsumed, hbegins⟩ | howner
    · refine .inr ⟨id, hbegins, consumed_after hop (fun _ hend ↦ ?_) hconsumed⟩
      rcases hend with hend | hend <;> cases hcreate.symm.trans hend
    · exact .inl (howner.move hsound hm)

variable (hw : TokensSound w) (hdrawn : DrawnOnce s) (hJ : InTransaction i s)

include hw hdrawn hJ
omit hsound

/-- **A committed session** has spent its code and those that were there. -/
theorem SignedIn.spent_after (hc : Committed (s.after i op r t) j id u F) : t.Spent id ∧
    ∃ e, Sweeps (s.after i op r t) j u e ∧ id < e.before.otpCodes.next ∧
      t.SpentBelow u e.before.otpCodes.next := by
  rcases hs.committed_after hw hdrawn hop h hc with hold | ⟨rfl, hcommits⟩
  · obtain ⟨hspent, e, he, hid, hbelow⟩ := hs.spent j id u F hold
    exact ⟨hs.codes.spent_after h hspent, e, he.after, hid, hs.codes.spentBelow_after h hbelow⟩
  · obtain ⟨-, hspent, e, he, hbelow⟩ := hcommits.spends hs hJ hop
    exact ⟨hspent, e, he.after, hbelow⟩

/-- A code begins one session. -/
theorem SignedIn.alone_after {u' F' : ℕ} {j' : ι} (hc : Committed (s.after i op r t) j id u F)
    (hc' : Committed (s.after i op r t) j' id u' F') : j = j' := by
  rcases hs.committed_after hw hdrawn hop h hc with hold | ⟨rfl, hcommits⟩ <;>
    rcases hs.committed_after hw hdrawn hop h hc' with hold' | ⟨rfl, hcommits'⟩
  · exact hs.alone j j' id u u' F F' hold hold'
  · exact absurd (hs.spent j id u F hold).1 (hs.codes.not_spent (hcommits'.spends hs hJ hop).1)
  · exact absurd (hs.spent j' id u' F' hold').1 (hs.codes.not_spent (hcommits.spends hs hJ hop).1)
  · rfl

/-- **Two sessions** of a user: one swept before the other's code was there. -/
theorem SignedIn.apart_after {id' F' : ℕ} {j' : ι} (hne : j ≠ j')
    (hc : Committed (s.after i op r t) j id u F) (hc' : Committed (s.after i op r t) j' id' u F') :
    (∃ e, Sweeps (s.after i op r t) j u e ∧ id < e.before.otpCodes.next ∧
      e.before.otpCodes.next ≤ id') ∨ ∃ e, Sweeps (s.after i op r t) j' u e ∧
        id' < e.before.otpCodes.next ∧ e.before.otpCodes.next ≤ id := by
  rcases hs.committed_after hw hdrawn hop h hc with hold | ⟨rfl, hcommits⟩ <;>
    rcases hs.committed_after hw hdrawn hop h hc' with hold' | ⟨rfl, hcommits'⟩
  · exact (hs.apart j j' id id' u F F' hne hold hold').imp (fun ⟨e, he, hle⟩ ↦ ⟨e, he.after, hle⟩)
      fun ⟨e, he, hle⟩ ↦ ⟨e, he.after, hle⟩
  · obtain ⟨-, e, he, hid, hbelow⟩ := hs.spent j id u F hold
    have hheld := (hcommits'.spends hs hJ hop).1
    exact .inl ⟨e, he.after, hid, hs.le_of_holding hcommits'.begins hheld hbelow⟩
  · obtain ⟨-, e, he, hid, hbelow⟩ := hs.spent j' id' u F' hold'
    have hheld := (hcommits.spends hs hJ hop).1
    exact .inr ⟨e, he.after, hid, hs.le_of_holding hcommits.begins hheld hbelow⟩
  · exact absurd rfl hne

include hsound

/-- **A statement** keeps what holds of the sign-ins. -/
theorem SignedIn.after : SignedIn env w calls (s.after i op r t) where
  codes := hs.codes.after (hJ.storesHeld hop) h
  fresh := hs.fresh.trans (exec_fresh h)
  drawn := hs.drawn_after h
  lives _ _ _ _ hfound := hs.lives_after h hfound
  looked _ _ _ _ hlook := hs.looked_after h hsound hlook
  matched j id u F hbegins := by
    rcases begins_after hop hbegins with hbefore | ⟨rfl, data, hcreate, rfl, rfl, hconsumed⟩
    · obtain ⟨v, hv, hmatched, hdrew⟩ := hs.matched j id u F hbefore
      exact ⟨v, hv, hmatched.append (s.trace_prefix_after ..), (s.trace_prefix_after ..).subset hdrew⟩
    · rcases hop.begun data hcreate with ⟨id', v, hconsumed', -, hv, hmatched, hdrew⟩ | ⟨hnone, -⟩
      · cases hconsumed.symm.trans hconsumed'
        exact ⟨v, hv, hmatched.append (s.trace_prefix_after ..),
          (s.trace_prefix_after ..).subset hdrew⟩
      · cases hnone.symm.trans hconsumed
  origins _ _ hr := hs.origins_after h hop hr
  pending _ _ _ hp := hs.pending_after h hop hsound hp
  spent _ _ _ _ hc := hs.spent_after h hop hw hdrawn hJ hc
  alone _ _ _ _ _ _ _ hc hc' := hs.alone_after h hop hw hdrawn hJ hc hc'
  apart _ _ _ _ _ _ _ hne hc hc' := hs.apart_after h hop hw hdrawn hJ hne hc hc'

end Steps

/-- **The loss of a thread** keeps what holds of the sign-ins. -/
theorem SignedIn.lost (hs : SignedIn env w calls s) (i : ι) :
    SignedIn env w calls (s.setShared (s.shared.rollback i)) := by
  have hstored : (s.shared.rollback i).refreshTokens.stored = s.shared.refreshTokens.stored :=
    funext (s.shared.rollback_stored i)
  have howner : ∀ {F u}, Owner F u s → Owner F u (s.setShared (s.shared.rollback i)) := by
    rintro F u ⟨k, r, hr, hF, hu⟩
    exact ⟨k, r, (congrFun hstored k).trans hr, hF, hu⟩
  have hcommitted : ∀ {j id u F}, Committed (s.setShared (s.shared.rollback i)) j id u F →
      Committed s j id u F := by
    rintro j id u F ⟨hbegins, k, r, hr, hF⟩
    exact ⟨hbegins, k, r, (congrFun hstored k).symm.trans hr, hF⟩
  constructor
  · exact hs.codes.rollback i
  · exact hs.fresh
  · exact hs.drawn
  · exact fun j u now record hfound ↦ (hs.lives j u now record hfound).imp_right .rollback
  · exact fun j hash existing phone hlook ↦ howner (hs.looked j hash existing phone hlook)
  · exact hs.matched
  · exact fun k r hr ↦ hs.origins k r (World.version_of_rollback hr)
  · exact fun k j r hp ↦ (hs.pending k j r (Cell.pending_of_rollback hp).2).imp_left howner
  · intro j id u F hc
    obtain ⟨hspent, e, he, hid, hbelow⟩ := hs.spent j id u F (hcommitted hc)
    exact ⟨hspent.rollback, e, he, hid, hbelow.rollback⟩
  · exact fun j j' id u u' F F' hc hc' ↦ hs.alone j j' id u u' F F' (hcommitted hc) (hcommitted hc')
  · exact fun j j' id id' u F F' hne hc hc' ↦
      hs.apart j j' id id' u F F' hne (hcommitted hc) (hcommitted hc')

end Invariant

/-! ### Runs -/

theorem not_begins_nil {s : History ι} {i : ι} {id u F : ℕ} (h : s.trace i = []) :
    ¬ Begins s i id u F := by
  rintro ⟨first, hfirst, -⟩
  rw [h] at hfirst
  cases hfirst

/-- Every sound state is a beginning. -/
theorem signedIn_start (env : Env) {w : World ι} (hw : TokensSound w)
    (hlocks : ∀ u, w.advisoryLocks u = none) (hcodes : CodesSound w) (calls : ι → ApiCall) :
    SignedIn env w calls ⟨w, []⟩ := by
  have hpending : ∀ k i r, w.refreshTokens.pending k ≠ some (i, r) := fun k i r hp ↦ by
    cases (hlocks _).symm.trans (hw.locked k i r hp)
  have hbegins : ∀ {i id u F}, ¬ Begins (⟨w, []⟩ : History ι) i id u F := not_begins_nil rfl
  refine ⟨hcodes, le_rfl, fun F e he ↦ absurd he List.not_mem_nil,
    fun i u now record he ↦ absurd he List.not_mem_nil,
    fun i hash existing phone he ↦ absurd he List.not_mem_nil,
    fun i id u F h ↦ absurd h hbegins, fun k r hr ↦ ?_,
    fun k i r hp ↦ absurd hp (hpending k i r), fun i id u F h ↦ absurd h.begins hbegins,
    fun i j id u u' F F' h ↦ absurd h.begins hbegins,
    fun i j id id' u F F' _ h ↦ absurd h.begins hbegins⟩
  rcases hr with hr | ⟨i, hr⟩
  · exact .inl ⟨k, r, hr, rfl⟩
  · exact absurd hr (hpending k i r)

/-- **The sign-ins of every run.** -/
theorem signedIn_run (env : Env) {w : World ι} (hw : TokensSound w)
    (hlocks : ∀ u, w.advisoryLocks u = none) (hcodes : CodesSound w) (calls : ι → ApiCall)
    {c : System ι} (hc : System.Reaches env .all (System.start env w calls) c) :
    SignedIn env w calls c.state ∧
      c.Keeps (fun i ↦ SignInStatement env (calls i)) (fun i ↦ (calls i).VerifiedBy env)
        fun _ _ _ ↦ True := by
  have hsafe : ∀ c, System.Reaches env .all (System.start env w calls) c →
      TokensSound c.state.shared ∧ DrawnOnce c.state := fun c hc ↦
    ((sessions_safe env hw hlocks calls).run hc).1
  have hwithin := Run.within (C := fun s ↦ TokensSound s.shared ∧ DrawnOnce s) hsafe hc
  have h := hwithin.invariant_running (I := SignedIn env w calls) (J := InTransaction)
    (Config.keeps_start fun i ↦ program_signIn (calls i))
    (signedIn_start env hw hlocks hcodes calls) (fun _ _ ↦ inTransaction_nil rfl)
    (fun s i x op r t hs hJ hop ha hx ↦
      ⟨hs.after hx hop ha.2.1 hw ha.2.2 hJ, hJ.after hs.codes hop hx⟩)
    (fun s s' i j hij hs hm hJ ↦ hJ.others hs.codes hij hm) fun s i hs _ ↦ hs.lost i
  exact ⟨h.1.1, h.2⟩

/-- The call of the thread has begun family `F` of user `u`, and committed it: it is a verification
of a code that matched row `id`, a live row of the user, and this row cannot be used any more. -/
structure SignedInWith (env : Env) (calls : ι → ApiCall) (s : History ι) (i : ι) (id u F : ℕ) :
    Prop where
  matched : ∃ v, (calls i).Verifies env v ∧ Matched v.normalizedPhone v.otp u id (s.trace i)
  begins : Begins s i id u F
  family : s.shared.HasFamily F
  spent : s.shared.Spent id

/-- A committed session was begun by a verification of its code. -/
theorem SignedIn.signedInWith {env : Env} {w : World ι} {calls : ι → ApiCall} {s : History ι}
    (hs : SignedIn env w calls s) {i : ι} {id u F : ℕ} (h : Committed s i id u F) :
    SignedInWith env calls s i id u F := by
  obtain ⟨v, hv, hmatched, -⟩ := hs.matched i id u F h.begins
  exact ⟨⟨v, hv, hmatched⟩, h.begins, h.family, (hs.spent i id u F h).1⟩

/-- **Every session has a code of its own.** From a sound database without open transactions, in
every state that is reached, every committed token of a family that was not there at the start is of
a family that some call of `verifyOtp` has begun with a code that matched a live row of the user; and
two calls that have begun sessions with the same code are one. -/
theorem sessions_have_codes (env : Env) {w : World ι} (hw : TokensSound w)
    (hlocks : ∀ u, w.advisoryLocks u = none) (hcodes : CodesSound w) (calls : ι → ApiCall)
    {c : System ι} (hc : System.Reaches env .all (System.start env w calls) c) :
    (∀ k r, c.state.shared.refreshTokens.stored k = some r → ¬ w.HasFamily r.familyId →
      ∃ i id, SignedInWith env calls c.state i id r.userId r.familyId) ∧
    ∀ i j id u u' F F', SignedInWith env calls c.state i id u F →
      SignedInWith env calls c.state j id u' F' → i = j ∧ u = u' ∧ F = F' := by
  obtain ⟨hs, -⟩ := signedIn_run env hw hlocks hcodes calls hc
  refine ⟨fun k r hr hnew ↦ ?_, fun i j id u u' F F' h h' ↦ ?_⟩
  · obtain ⟨i, id, hbegins⟩ := (hs.origins k r (.inl hr)).resolve_left hnew
    exact ⟨i, id, hs.signedInWith ⟨hbegins, k, r, hr, rfl⟩⟩
  · obtain rfl := hs.alone i j id u u' F F' ⟨h.begins, h.family⟩ ⟨h'.begins, h'.family⟩
    exact ⟨rfl, (h.begins.unique h'.begins).2⟩

namespace Demo

theorem codesSound_world : CodesSound world := .of_not_pending (fun _ ↦ rfl) nofun

theorem not_hasFamily_world (F : ℕ) : ¬ world.HasFamily F := by
  rintro ⟨k, r, hr, -⟩
  cases hr

end Demo

/-- The session that is refreshed was begun with a code. -/
theorem sessions_have_codes_refreshed : ∃ k r, Demo.refreshed.state.shared.refreshTokens.stored k =
    some r ∧ ∃ i id, SignedInWith Demo.env Demo.sessionCalls Demo.refreshed.state i id r.userId
      r.familyId := by
  obtain ⟨r, hr, -⟩ := Option.bind_eq_some_iff.1 Demo.refreshed_tests.1
  exact ⟨0, r, hr, (sessions_have_codes Demo.env Demo.tokensSound_world (fun _ ↦ rfl)
    Demo.codesSound_world Demo.sessionCalls (Demo.reaches_after _ _ _)).1 0 r hr
      (Demo.not_hasFamily_world _)⟩

/-- **Codes are used in turn.** Of two sessions of a user that were begun with different codes, in
every state that is reached, the later code was not there yet when the sign-in with the earlier one
looked for the codes of the user it had to retire. -/
theorem codes_used_in_turn (env : Env) {w : World ι} (hw : TokensSound w)
    (hlocks : ∀ u, w.advisoryLocks u = none) (hcodes : CodesSound w) (calls : ι → ApiCall)
    {c : System ι} (hc : System.Reaches env .all (System.start env w calls) c) {i j : ι}
    {id id' u F F' : ℕ} (hi : SignedInWith env calls c.state i id u F)
    (hj : SignedInWith env calls c.state j id' u F') (hlt : id < id') :
    ∃ e ∈ c.state.history i, e.op = .otpCode (.findUnconsumed true u) ∧
      id < e.before.otpCodes.next ∧ e.before.otpCodes.next ≤ id' := by
  obtain ⟨hs, -⟩ := signedIn_run env hw hlocks hcodes calls hc
  have hne : i ≠ j := by
    rintro rfl
    exact hlt.ne (hi.begins.unique hj.begins).1
  rcases hs.apart i j id id' u F F' hne ⟨hi.begins, hi.family⟩ ⟨hj.begins, hj.family⟩ with
    ⟨e, ⟨he, hop⟩, hbetween⟩ | ⟨e, -, hid', hid⟩
  · exact ⟨e, he, hop, hbetween⟩
  · omega

namespace Demo

/-- Two codes for a phone, and a sign-in with each. -/
def signInCalls : ℕ → ApiCall
  | 0 => requestOtp '0'
  | 1 => .verifyOtp "+1" "NG" "" { idempotencyKey := some (key '1') }
  | 2 => requestOtp '2'
  | _ => .verifyOtp "+1" "NG" "" { idempotencyKey := some (key '3') }

/-- The session a thread has begun: the code, the user and the family. -/
def begunBy (c : System ℕ) (i : ℕ) : Option (ℕ × ℕ × ℕ) :=
  (signIn (c.state.trace i)).begun.map fun b ↦ (b.1, b.2.userId, b.2.familyId)

theorem begins_of_begunBy {c : System ℕ} {i id u F : ℕ} (h : begunBy c i = some (id, u, F)) :
    Begins c.state i id u F := by
  obtain ⟨⟨id', first⟩, hbegun, heq⟩ := Option.map_eq_some_iff.1 h
  cases heq
  exact ⟨first, hbegun, rfl, rfl⟩

/-- Threads 1 and 3 have signed in, with codes 0 and 1. -/
def SignedInTwice (c : System ℕ) : Prop :=
  (begunBy c 1 = some (0, 0, 0) ∧ begunBy c 3 = some (1, 0, 2)) ∧
    (c.state.shared.refreshTokens.stored 0).map RefreshToken.familyId = some 0 ∧
      (c.state.shared.refreshTokens.stored 1).map RefreshToken.familyId = some 2

instance (c : System ℕ) : Decidable (SignedInTwice c) := inferInstanceAs (Decidable (_ ∧ _))

/-- The second code is requested after the cooldown of the first. -/
theorem signedInTwice_runs : ((System.start env world signInCalls).turns (machine ℕ crypto) anything
    (steps 0 18 ++ steps 1 22 ++ [⟨2, { elapse := 60000 }⟩] ++ steps 2 17 ++ steps 3 22)).any
      (fun c ↦ SignedInTwice c) = true := by
  decide +kernel

/-- A customer who signs in twice, with a code each time. -/
def signedInTwice : System ℕ :=
  after (System.start env world signInCalls) _ _ (Option.isSome_of_any signedInTwice_runs)

theorem signedInTwice_tests : SignedInTwice signedInTwice :=
  of_decide_eq_true (Config.afterTurns_of_any signedInTwice_runs)

theorem hasFamily_of_map {c : System ℕ} {k F : ℕ}
    (h : (c.state.shared.refreshTokens.stored k).map RefreshToken.familyId = some F) :
    c.state.shared.HasFamily F :=
  let ⟨r, hr, hF⟩ := Option.map_eq_some_iff.1 h
  ⟨k, r, hr, hF⟩

theorem signedInWith_signedInTwice : SignedInWith env signInCalls signedInTwice.state 1 0 0 0 ∧
    SignedInWith env signInCalls signedInTwice.state 3 1 0 2 := by
  obtain ⟨⟨hfirst, hsecond⟩, hfamily, hfamily'⟩ := signedInTwice_tests
  obtain ⟨hs, -⟩ := signedIn_run env tokensSound_world (fun _ ↦ rfl) codesSound_world signInCalls
    (reaches_after _ _ (Option.isSome_of_any signedInTwice_runs))
  exact ⟨hs.signedInWith ⟨begins_of_begunBy hfirst, hasFamily_of_map hfamily⟩,
    hs.signedInWith ⟨begins_of_begunBy hsecond, hasFamily_of_map hfamily'⟩⟩

end Demo

/-- The first sign-in swept before the second code was there. -/
theorem codes_used_in_turn_signedInTwice : ∃ e ∈ Demo.signedInTwice.state.history 1,
    e.op = .otpCode (.findUnconsumed true 0) ∧ 0 < e.before.otpCodes.next ∧
      e.before.otpCodes.next ≤ 1 :=
  codes_used_in_turn Demo.env Demo.tokensSound_world (fun _ ↦ rfl) Demo.codesSound_world
    Demo.signInCalls (Demo.reaches_after _ _ _) Demo.signedInWith_signedInTwice.1
    Demo.signedInWith_signedInTwice.2 Nat.zero_lt_one

end Stead
