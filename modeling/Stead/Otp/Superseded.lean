import Stead.Otp.OneSession
import Stead.Otp.Retiring
import Stead.Otp.Sent

/-!
# Superseded codes

Whoever asks for a second code has no more use for the first: `verifyOtp` compares with the latest
live code of the user only, and as soon as that is used up, by a sign-in or by too many wrong codes,
the others are retired. `superseded_signs_nobody_in` says that a code which is older than a
completed one signs nobody in who begins later.

## When it holds

A sign-in consumes its code and retires the others in one transaction. A lock-out does it in two
statements of their own, and a call that comes between them finds the older code live: it signs in
with it (`superseded_code_signs_in`). The same happens when the second statement fails, or when the
server stops before it. So the theorem asks that a live code is looked for only when all lock-outs
are completed by a retirement, or have left no code that is still live (`superseding`).

It also asks that codes are created in the order in which they expire. A request takes the time
before it creates the row, so two requests at a time may not keep to this; then the older code
outlives the later one.

## Which codes are used up

`Superseding` is the invariant. A code is used up in one of three ways (`UsedUp`): it is locked out,
and then the statement is on the record; it is retired, and then the list it is on was made by the
statement before and names all the unused codes below it; or a transaction is committed that has
written it. The versions an open transaction has written are accounted for in the same way
(`Superseding.pending`), with one difference: a statement may fail after it has taken effect, and
such a transaction is never committed (`Falters`).

In all cases but the first the older codes of the user are used up with the code. So when a code is
found live, a later one that is not found is expired, which the order of the codes excludes, or was
locked out and its call has retired the older ones since (`Superseding.newest_after`).
-/

namespace Stead

open Concurrency

variable {ι : Type}

/-! ### Lock-outs -/

/-- The statement locks code `k` of the user out. -/
structure LocksOut (u k : ℕ) (e : Happening ι) : Prop where
  op : ∃ n at_, e.op = .otpCode (.recordAttempt k n (some at_))
  before : ∃ row, e.before.otpCodes.stored k = some row ∧ row.userId = u ∧ row.consumedAt = none
  after : ∃ row, e.after.otpCodes.stored k = some row ∧ row.consumedAt.isSome

/-- The statement retires the codes of the user that its thread has listed. -/
def Retires (u : ℕ) (e : Happening ι) : Prop :=
  ∃ found at_, e.op = .otpCode (.retireLive false found u at_) ∧ ∀ k ∈ found, e.after.Spent k

/-- A live code is looked for only when every call that has locked a code of the user out has
retired the codes of the user, unless no older one is live any more; and a code is created to expire
no earlier than the unused codes that its user has. -/
def superseding : Weather ι where
  stmt _ _ op s :=
    (∀ u now, op = .otpCode (.findLive u now) → ∀ e ∈ s.log, ∀ k, LocksOut u k e →
      (∃ e' ∈ s.log, e'.thread = e.thread ∧ Retires u e') ∨
        ∀ k' row, k' < k → s.shared.otpCodes.stored k' = some row → row.userId = u →
          row.live now = false) ∧
    ∀ data, op = .otpCode (.create data) → ∀ k row, s.shared.otpCodes.stored k = some row →
      row.userId = data.userId → row.consumedAt = none → row.expiresAt ≤ data.expiresAt
  crash _ _ := True

/-! ### Codes in order -/

/-- The codes in the order of their numbers: the later is not created before the earlier, and does
not expire before it as long as the earlier is not used up. -/
structure CodesOrdered (w : World ι) : Prop where
  created : ∀ k k' row row', k < k' → w.otpCodes.stored k = some row →
    w.otpCodes.stored k' = some row' → row.createdAt ≤ row'.createdAt
  past : ∀ k row, w.otpCodes.stored k = some row → row.createdAt ≤ w.now
  expires : ∀ k k' row row', k < k' → w.otpCodes.stored k = some row →
    w.otpCodes.stored k' = some row' → row.userId = row'.userId → row.consumedAt = none →
      row.expiresAt ≤ row'.expiresAt

/-- Codes that are used up one after the other, while nobody uses one: with a code the older ones of
its user are used up. -/
structure CodesInTurn (w : World ι) : Prop where
  ordered : CodesOrdered w
  closed : ∀ k, w.otpCodes.pending k = none
  used : ∀ k row, w.otpCodes.stored k = some row → row.consumedAt.isSome →
    w.SpentBelow row.userId k

/-- Codes below a number are below a greater one. -/
theorem World.SpentBelow.mono {w : World ι} {u m n : ℕ} (h : w.SpentBelow u n) (hm : m ≤ n) :
    w.SpentBelow u m :=
  ⟨hm.trans h.1, fun k row hk ↦ h.2 k row (hk.trans_le hm)⟩

/-- An unused code is not below. -/
theorem World.SpentBelow.le {w : World ι} {u k n : ℕ} {row : OtpCode} (h : w.SpentBelow u n)
    (hrow : w.otpCodes.stored k = some row) (hu : row.userId = u) (hc : row.consumedAt = none) :
    n ≤ k := by
  by_contra hlt
  have := h.2 k row (not_le.1 hlt) hrow hu
  simp [hc] at this

/-- Of the codes of the user with a number below `n`, the unconsumed ones are listed; and no others
than codes below `n` are. -/
def World.Listed (w : World ι) (u n : ℕ) (found : List ℕ) : Prop :=
  (n ≤ w.otpCodes.next ∧ ∀ k ∈ found, k < n) ∧ ∀ k row, k < n → w.otpCodes.stored k = some row →
    row.userId = u → row.consumedAt = none → k ∈ found

/-- Code `k` is superseded: a later code of its user is there, and the request for that one is
completed. -/
def World.Superseded (w : World ι) (k : ℕ) : Prop :=
  ∃ k' row row', w.otpCodes.stored k = some row ∧ w.otpCodes.stored k' = some row' ∧
    row.userId = row'.userId ∧ row.createdAt < row'.createdAt ∧ row'.requestCompletedAt.isSome

/-- What is listed and used up leaves none. -/
theorem World.Listed.spentBelow {w : World ι} {u n : ℕ} {found : List ℕ} (h : w.Listed u n found)
    (hspent : ∀ k ∈ found, w.Spent k) : w.SpentBelow u n := by
  refine ⟨h.1.1, fun k row hk hrow hu ↦ ?_⟩
  by_contra hc
  exact hc ((hspent k (h.2 k row hk hrow hu (Option.not_isSome_iff_eq_none.1 hc))).2 row hrow)

variable [DecidableEq ι]

section Statements

variable {crypto : Crypto} {i j : ι} {x : Choice} {op : Op} {w t : World ι}
  {r : Except StatementError op.Ret} {k : ℕ} {row row' : OtpCode}

/-- A committed row was there before, or is new. -/
theorem CodesSound.stored_from (hw : CodesSound w) (h : exec crypto i x op w = some (r, t))
    (hrow' : t.otpCodes.stored k = some row') :
    (∃ row, w.otpCodes.stored k = some row ∧ row.Ages row') ∨ ∃ data,
      op = .otpCode (.create data) ∧ k = w.otpCodes.next ∧ row' = data.row t.now := by
  cases hw.step h k with
  | absent _ h' => cases h'.symm.trans hrow'
  | aged h₀ h₁ ha =>
    obtain rfl := Option.some.inj (h₁.symm.trans hrow')
    exact .inl ⟨_, h₀, ha⟩
  | created hop hk _ h' => exact .inr ⟨_, hop, hk, Option.some.inj (hrow'.symm.trans h')⟩
  | deleted _ _ h' => cases h'.symm.trans hrow'

theorem OtpCode.Ages.createdAt (h : row.Ages row') : row'.createdAt = row.createdAt :=
  OtpCode.createdAt_of_birth h.birth

theorem OtpCode.Ages.userId (h : row.Ages row') : row'.userId = row.userId :=
  OtpCode.userId_of_birth h.birth

theorem OtpCode.Ages.expiresAt (h : row.Ages row') : row'.expiresAt = row.expiresAt :=
  congrArg (fun birth ↦ birth.1.expiresAt) h.birth

/-- **A statement** keeps the codes in order, if what it creates is in order. -/
theorem CodesOrdered.after (ho : CodesOrdered w) (hw : CodesSound w)
    (h : exec crypto i x op w = some (r, t))
    (hcreate : ∀ data, op = .otpCode (.create data) → ∀ k row, w.otpCodes.stored k = some row →
      row.userId = data.userId → row.consumedAt = none → row.expiresAt ≤ data.expiresAt) :
    CodesOrdered t := by
  have hnow : w.now ≤ t.now := by
    rw [exec_now h]
    omega
  have hlt : ∀ {k row}, w.otpCodes.stored k = some row → k < w.otpCodes.next := fun hrow ↦
    (World.born_of_stored hrow).lt_next
  constructor
  · intro k k' row row' hk hrow hrow'
    rcases hw.stored_from h hrow with ⟨row₀, hrow₀, ha⟩ | ⟨data, hop, rfl, rfl⟩ <;>
      rcases hw.stored_from h hrow' with ⟨row₁, hrow₁, ha'⟩ | ⟨data', hop', rfl, rfl⟩
    · rw [ha.createdAt, ha'.createdAt]
      exact ho.created k k' row₀ row₁ hk hrow₀ hrow₁
    · rw [ha.createdAt]
      exact (ho.past k row₀ hrow₀).trans hnow
    · exact absurd (hk.trans (hlt hrow₁)) (lt_irrefl _)
    · exact absurd hk (lt_irrefl _)
  · intro k row hrow
    rcases hw.stored_from h hrow with ⟨row₀, hrow₀, ha⟩ | ⟨data, -, -, rfl⟩
    · rw [ha.createdAt]
      exact (ho.past k row₀ hrow₀).trans hnow
    · exact le_rfl
  · intro k k' row row' hk hrow hrow' hu hc
    rcases hw.stored_from h hrow with ⟨row₀, hrow₀, ha⟩ | ⟨data, hop, rfl, rfl⟩ <;>
      rcases hw.stored_from h hrow' with ⟨row₁, hrow₁, ha'⟩ | ⟨data', hop', rfl, rfl⟩
    · rw [ha.expiresAt, ha'.expiresAt]
      exact ho.expires k k' row₀ row₁ hk hrow₀ hrow₁ (ha.userId ▸ ha'.userId ▸ hu)
        (ha.unconsumed hc)
    · rw [ha.expiresAt]
      exact hcreate data' hop' k row₀ hrow₀ (ha.userId ▸ hu) (ha.unconsumed hc)
    · exact absurd (hk.trans (hlt hrow₁)) (lt_irrefl _)
    · exact absurd hk (lt_irrefl _)

/-- A loss keeps them in order. -/
theorem CodesOrdered.rollback (ho : CodesOrdered w) (i : ι) : CodesOrdered (w.rollback i) := by
  have hsame := w.rollback_codes_stored i
  refine ⟨fun k k' row row' hk hrow hrow' ↦ ?_, fun k row hrow ↦ ?_,
    fun k k' row row' hk hrow hrow' ↦ ?_⟩
  · exact ho.created k k' row row' hk (hsame k ▸ hrow) (hsame k' ▸ hrow')
  · exact ho.past k row (hsame k ▸ hrow)
  · exact ho.expires k k' row row' hk (hsame k ▸ hrow) (hsame k' ▸ hrow')

/-- What is listed stays listed. -/
theorem CodesSound.listed_after (hw : CodesSound w) (h : exec crypto i x op w = some (r, t))
    {u n : ℕ} {found : List ℕ} (hn : w.Listed u n found) : t.Listed u n found := by
  refine ⟨hn.1.imp_left fun hle ↦ hle.trans (exec_otpCodes_next h), fun k row hk hrow hu hc ↦ ?_⟩
  rcases hw.stored_from h hrow with ⟨row₀, hrow₀, ha⟩ | ⟨_, -, rfl, -⟩
  · exact hn.2 k row₀ hk hrow₀ (ha.userId ▸ hu) (ha.unconsumed hc)
  · exact absurd (hk.trans_le hn.1.1) (lt_irrefl _)

/-- What is listed outside a transaction. -/
theorem listed_findUnconsumed {u : ℕ} {found : List ℕ}
    (h : exec crypto i x (.otpCode (.findUnconsumed false u)) w = some (.ok found, t)) :
    t.Listed u w.otpCodes.next found := by
  cases perform_of_exec_ok h
  refine ⟨⟨le_rfl, fun k hk ↦ ?_⟩, fun k row _ hrow hu hc ↦
    List.mem_map.2 ⟨⟨k, row⟩, Table.mem_select.2 ⟨(Cell.view_none _).trans hrow, ?_⟩, rfl⟩⟩
  · obtain ⟨⟨k, row⟩, hmem, rfl⟩ := List.mem_map.1 hk
    have hrow : w.otpCodes.stored k = some row :=
      (Cell.view_none _).symm.trans (Table.mem_select.1 hmem).1
    exact (World.born_of_stored hrow).lt_next
  · simp [OtpCode.unconsumedOf, hu, hc]

/-- **Retiring** what was listed leaves none, if it takes effect. -/
theorem spentBelow_retireLive {u n : ℕ} {found : List ℕ} {at_ : ℤ} {r : Except StatementError ℕ}
    (hn : w.Listed u n found)
    (h : exec crypto i x (.otpCode (.retireLive false found u at_)) w = some (r, t)) :
    t.otpCodes = w.otpCodes ∨ t.SpentBelow u n := by
  refine exec_of_perform (fun t ↦ t.otpCodes = w.otpCodes ∨ t.SpentBelow u n) h
    (fun r t hp ↦ .inr ?_) (.inl rfl)
  simp only [perform, OtpCodeStatement.perform] at hp
  split at hp <;> cases hp
  next hupd =>
  refine ⟨hn.1.1.trans (Table.updateMany_next hupd).ge, fun k row hk hrow hu ↦ ?_⟩
  rcases Table.updateMany_cell hupd k with ⟨hsame, hclean⟩ | ⟨-, row₀, -, -, -, hwrote⟩
  · have hrow₀ : w.otpCodes.stored k = some row := (congrArg Cell.stored hsame).symm.trans hrow
    by_contra hc
    have hnone := Option.not_isSome_iff_eq_none.1 hc
    have := hclean (hn.2 k row hk hrow₀ hu hnone) row ((Cell.view_none _).trans hrow₀)
    simp [OtpCode.unconsumedOf, hu, hnone] at this
  · obtain rfl := Option.some.inj ((congrArg Cell.stored hwrote).symm.trans hrow)
    rfl

/-- **A live code that is found** is the latest of those that are live. -/
theorem findLive_newest {u : ℕ} {now : ℤ} {record : Keyed OtpCode}
    (h : exec crypto i x (.otpCode (.findLive u now)) w = some (.ok (some record), t)) :
    record.row.live now = true ∧ ∀ k row, w.otpCodes.stored k = some row → row.userId = u →
      row.live now = true → row.createdAt ≤ record.row.createdAt := by
  have hp := perform_of_exec_ok h
  simp only [perform, OtpCodeStatement.perform, reply, Option.some.injEq, Prod.mk.injEq,
    Except.ok.injEq] at hp
  obtain ⟨hmem, hmax⟩ := List.mem_filter.1 (List.mem_of_getElem? hp.1)
  rw [Table.mem_select, Bool.and_eq_true] at hmem
  refine ⟨hmem.2.2, fun k row hrow hu hl ↦ ?_⟩
  exact of_decide_eq_true (List.all_eq_true.1 hmax ⟨k, row⟩
    (Table.mem_select.2 ⟨(Cell.view_none _).trans hrow, by simp [hu, hl]⟩))

/-- A completed row stays. -/
theorem completed_stays (hw : w.Rooted OtpCode.request) (h : exec crypto i x op w = some (r, t))
    (hrow : w.otpCodes.stored k = some row) (hc : row.requestCompletedAt.isSome) :
    ∃ row', t.otpCodes.stored k = some row' ∧ row'.birth = row.birth ∧
      row'.requestCompletedAt.isSome := by
  obtain ⟨row', hrow', hsame | ⟨s, -, he⟩⟩ := row_stays h hw hrow fun until_ hr ↦ by
    simp only [OtpCode.uncompleted, Bool.and_eq_true, Option.isNone_iff_eq_none] at hr
    simp [hr.1] at hc
  · have hcompleted : row'.requestCompletedAt = row.requestCompletedAt := congrArg Prod.snd hsame
    exact ⟨row', hrow', congrArg Prod.fst hsame, hcompleted ▸ hc⟩
  · refine ⟨row', hrow', he.birth, ?_⟩
    cases he <;> first | exact hc | rfl

/-- The row of a code that a call has written is that of another call after the end of its
transaction. -/
theorem codes_pending_of_ends (h : exec crypto i x op w = some (r, t)) (hends : op.Ends)
    (hrow : t.otpCodes.pending k = some (j, row)) : j ≠ i := by
  rcases hends with rfl | rfl
  · rcases exec_commit h with rfl | ⟨-, rfl⟩
    · exact (Cell.pending_of_commit hrow).1
    · exact (Cell.pending_of_rollback hrow).1
  · obtain ⟨-, rfl⟩ := exec_rollback h
    exact (Cell.pending_of_rollback hrow).1

/-- A version is written first by a statement that writes for its transaction. -/
theorem writer_of_pending (h : exec crypto i x op w = some (r, t)) (hfree : ¬ w.Holding i k)
    (hrow : t.otpCodes.pending k = some (i, row)) :
    ∃ s : OtpCodeStatement, op = .otpCode s ∧ s.writer i = some i := by
  have hpending : (t.otpCodes.cell k).pending = some (i, row) := hrow
  have hsame : (w.otpCodes.cell k).pending ≠ some (i, row) := fun hp ↦ hfree ⟨row, hp⟩
  cases exec_otpCodes h k with
  | same heq => exact absurd (heq ▸ hpending) hsame
  | @edit s row₀ row₁ hop hv he hl heq =>
    cases hwriter : s.writer i with
    | none =>
      rw [hwriter] at heq
      exact absurd ((congrArg Cell.pending heq).symm.trans hpending) hsame
    | some l => exact ⟨s, hop, hwriter.trans (congrArg some (s.writer_eq hwriter))⟩
  | create _ _ _ _ _ heq => cases (congrArg Cell.pending heq).symm.trans hpending
  | delete _ _ _ _ _ heq => cases (congrArg Cell.pending heq).symm.trans hpending
  | commit _ heq => exact absurd rfl (Cell.pending_of_commit (heq ▸ hpending)).1
  | rollback _ heq => exact absurd rfl (Cell.pending_of_rollback (heq ▸ hpending)).1

/-- A code that could not be consumed is not written. -/
theorem consume_false {at_ : ℤ}
    (h : exec crypto i x (.otpCode (.consume k at_)) w = some (.ok false, t)) :
    t.otpCodes = w.otpCodes := by
  have hp := perform_of_exec_ok h
  simp only [perform, OtpCodeStatement.perform] at hp
  split at hp <;> cases hp
  next hupd =>
  rcases Table.updateId_cases hupd with ⟨-, hsame, -⟩ | ⟨hb, -⟩
  · exact hsame
  · cases hb

/-- How a committed code comes to be used up. -/
inductive UsedUp (w t : World ι) (i : ι) (op : Op) (k : ℕ) (row : OtpCode) : Prop
  | locked (n : ℕ) (at_ : ℤ) (hop : op = .otpCode (.recordAttempt k n (some at_)))
  | retired (found : List ℕ) (at_ : ℤ) (hk : k ∈ found)
      (hop : op = .otpCode (.retireLive false found row.userId at_))
  | committed {version : OtpCode} (hop : op = .commit) (ht : ∃ n, t = (w.elapse n).commit i)
      (hp : w.otpCodes.pending k = some (i, version))

/-- **How a code is used up**: by a last wrong code, by a retirement, or by the commit of what its
transaction has written. -/
theorem usedUp_of_consumed (h : exec crypto i x op w = some (r, t))
    (hrow : w.otpCodes.stored k = some row) (hc : row.consumedAt = none)
    (hrow' : t.otpCodes.stored k = some row') (hc' : row'.consumedAt.isSome) :
    UsedUp w t i op k row := by
  have hsame : t.otpCodes.stored k ≠ w.otpCodes.stored k := fun hsame ↦ by
    obtain rfl := Option.some.inj ((hrow.symm.trans hsame.symm).trans hrow')
    simp [hc] at hc'
  cases exec_otpCodes h k with
  | same heq => exact absurd (congrArg Cell.stored heq) hsame
  | @edit s row₀ row₁ hop hv he hl heq =>
    cases hwriter : s.writer i with
    | some l =>
      rw [hwriter] at heq
      exact absurd (congrArg Cell.stored heq) hsame
    | none =>
      rw [hwriter] at hv heq
      rw [Cell.view_none] at hv
      obtain rfl := Option.some.inj (hv.symm.trans hrow)
      obtain rfl := Option.some.inj ((congrArg Cell.stored heq).symm.trans hrow')
      cases he with
      | complete => simp [hc] at hc'
      | recordAttempt k n c =>
        cases c with
        | none => simp [hc] at hc'
        | some c => exact .locked n c hop
      | retireLive tx found u at_ k hk hu hnone =>
        cases tx with
        | true => cases hwriter
        | false =>
          subst hu
          exact .retired found at_ hk hop
      | consume => cases hwriter
      | storeVerification => cases hwriter
  | create _ _ _ _ hempty _ =>
    have hcell : (w.otpCodes.cell k).stored = some row := hrow
    rw [hempty] at hcell
    cases hcell
  | delete _ _ _ _ _ heq => cases (congrArg Cell.stored heq).symm.trans hrow'
  | commit hop heq =>
    subst hop
    rcases exec_commit h with ht | ⟨-, ht⟩
    · by_cases hp : ∃ version, w.otpCodes.pending k = some (i, version)
      · obtain ⟨version, hp⟩ := hp
        exact .committed rfl ⟨_, ht⟩ hp
      · rw [Cell.commit_of_not_pending fun version hv ↦ hp ⟨version, hv⟩] at heq
        exact absurd (congrArg Cell.stored heq) hsame
    · subst ht
      exact absurd (World.rollback_codes_stored _ i k) hsame
  | rollback _ heq =>
    exact absurd ((congrArg Cell.stored heq).trans (Cell.rollback_stored _ _)) hsame

end Statements

/-! ### The invariant -/

/-- What holds of the codes of a run: which of them are used up, and by whom. -/
structure Superseding (s : History ι) : Prop where
  ordered : CodesOrdered s.shared
  /-- What a transaction has written of a code: it has consumed the code, or the codes up to it are
  spent for it, or it will not commit. -/
  pending : ∀ k i row, s.shared.otpCodes.pending k = some (i, row) →
    (signIn (s.trace i)).consumed = some k ∨ s.shared.SpentFor i row.userId (k + 1) ∨
      ∃ e ∈ s.trace i, Falters e
  /-- A code that is used up was locked out, unless the older ones are used up. -/
  used : ∀ k row, s.shared.otpCodes.stored k = some row → row.consumedAt.isSome →
    s.shared.SpentBelow row.userId k ∨ ∃ e ∈ s.log, LocksOut row.userId k e
  /-- What a call has just listed is more than it has locked out. -/
  listed : ∀ i u found,
    (s.trace i).getLast? = some ⟨.otpCode (.findUnconsumed false u), .ok found⟩ →
      ∃ n, s.shared.Listed u n found ∧ ∀ e ∈ s.log, e.thread = i → ∀ k, LocksOut u k e → k < n
  /-- A code that is locked out is there. -/
  locked : ∀ e ∈ s.log, ∀ u k, LocksOut u k e → k < s.shared.otpCodes.next
  /-- A call that has locked a code out and retired the codes of the user has left none older. -/
  retired : ∀ e ∈ s.log, ∀ e' ∈ s.log, e'.thread = e.thread → ∀ u k, LocksOut u k e → Retires u e' →
    s.shared.SpentBelow u k
  /-- What is found live is the latest code of the user. -/
  newest : ∀ e ∈ s.log, ∀ u now record,
    (⟨e.op, e.resp⟩ : Exchange Statements) = foundLive u now record → ∀ k row,
      e.before.otpCodes.stored k = some row → row.userId = u → row.createdAt ≤ record.row.createdAt

section Invariant

variable {env : Env} {crypto : Crypto} {w t : World ι} {calls : ι → ApiCall} {i j : ι} {x : Choice}
  {op : Op} {s : History ι} {r : Except StatementError op.Ret} {k u : ℕ} {row : OtpCode}

variable (hs : Superseding s) (h : exec crypto i x op s.shared = some (r, t))

include hs h

/-- A code that is locked out has been there. -/
theorem Superseding.locked_after {e : Happening ι} (he : e ∈ (s.after i op r t).log)
    (hlocks : LocksOut u k e) : k < t.otpCodes.next := by
  rw [State.after_log, List.mem_append, List.mem_singleton] at he
  rcases he with he | rfl
  · exact (hs.locked e he u k hlocks).trans_le (exec_otpCodes_next h)
  · obtain ⟨row₀, hrow₀, -⟩ := hlocks.before
    exact (World.born_of_stored hrow₀).lt_next.trans_le (exec_otpCodes_next h)

/-- **What is found live** is the latest code: the later ones would be found, unless they are used
up, and then the older ones are used up too. -/
theorem Superseding.newest_after (ha : superseding.stmt i x op s) {e : Happening ι}
    (he : e ∈ (s.after i op r t).log) {now : ℤ} {record : Keyed OtpCode}
    (hfound : (⟨e.op, e.resp⟩ : Exchange Statements) = foundLive u now record)
    (hrow : e.before.otpCodes.stored k = some row) (hu : row.userId = u) :
    row.createdAt ≤ record.row.createdAt := by
  rw [State.after_log, List.mem_append, List.mem_singleton] at he
  rcases he with he | rfl
  · exact hs.newest e he u now record hfound k row hrow hu
  cases hfound
  obtain ⟨hrecord, huser, -⟩ := exec_findLive h
  obtain ⟨hlive, hnewest⟩ := findLive_newest h
  simp only [OtpCode.live, Bool.and_eq_true, Option.isNone_iff_eq_none, decide_eq_true_eq] at hlive
  by_contra hlt
  have hlater : record.id < k := by
    rcases lt_trichotomy record.id k with hlt' | heq | hgt
    · exact hlt'
    · subst heq
      obtain rfl := Option.some.inj (hrecord.symm.trans hrow)
      exact absurd le_rfl hlt
    · exact absurd (hs.ordered.created k record.id row record.row hgt hrow hrecord) hlt
  have hnot : ¬ s.shared.SpentBelow u k := fun hspent ↦
    absurd (hspent.le hrecord huser hlive.1) (not_le.2 hlater)
  cases hc : row.consumedAt with
  | none =>
    refine hlt (hnewest k row hrow hu ?_)
    have := hs.ordered.expires record.id k record.row row hlater hrecord hrow (huser.trans hu.symm)
      hlive.1
    simp [OtpCode.live, hc, hlive.2.trans_le this]
  | some c =>
    subst hu
    rcases hs.used k row hrow (Option.isSome_of_eq_some hc) with hspent | ⟨e, he, hlocks⟩
    · exact hnot hspent
    · rcases ha.1 _ now rfl e he k hlocks with ⟨e', he', hthread, hretires⟩ | hdead
      · exact hnot (hs.retired e he e' he' hthread _ k hlocks hretires)
      · have := hdead record.id record.row hlater hrecord huser
        simp [OtpCode.live, hlive] at this

variable (hin : SignedIn env w calls s)

include hin

/-- **What a call lists** is more than it has locked out. -/
theorem Superseding.listed_after {found : List ℕ}
    (hlast : ((s.after i op r t).trace j).getLast? =
      some ⟨.otpCode (.findUnconsumed false u), .ok found⟩) :
    ∃ n, t.Listed u n found ∧ ∀ e ∈ (s.after i op r t).log, e.thread = j → ∀ k, LocksOut u k e →
      k < n := by
  by_cases hij : i = j
  · subst hij
    rw [State.after_trace_self, List.getLast?_concat] at hlast
    cases hlast
    refine ⟨_, listed_findUnconsumed h, fun e he _ k hlocks ↦ ?_⟩
    rw [State.after_log, List.mem_append, List.mem_singleton] at he
    rcases he with he | rfl
    · exact hs.locked e he u k hlocks
    · obtain ⟨n, at_, hlock⟩ := hlocks.op
      cases hlock
  · rw [State.after_trace_of_ne _ hij] at hlast
    obtain ⟨n, hlisted, hlocked⟩ := hs.listed j u found hlast
    refine ⟨n, hin.codes.listed_after h hlisted, fun e he hthread k hlocks ↦ ?_⟩
    rw [State.after_log, List.mem_append, List.mem_singleton] at he
    rcases he with he | rfl
    · exact hlocked e he hthread k hlocks
    · exact absurd hthread hij

variable (hret : RetireStatement (s.trace i) op)

include hret

/-- **A call that has retired** the codes of a user has left none that are older than the code it
has locked out. -/
theorem Superseding.retired_after {e e' : Happening ι} (he : e ∈ (s.after i op r t).log)
    (he' : e' ∈ (s.after i op r t).log) (hthread : e'.thread = e.thread) (hlocks : LocksOut u k e)
    (hretires : Retires u e') : t.SpentBelow u k := by
  rw [State.after_log, List.mem_append, List.mem_singleton] at he he'
  obtain ⟨n, at_, hlock⟩ := hlocks.op
  obtain ⟨found, at_', hretire, hspent⟩ := hretires
  rcases he with he | rfl <;> rcases he' with he' | rfl
  · exact hin.codes.spentBelow_after h (hs.retired e he e' he' hthread u k hlocks
      ⟨found, at_', hretire, hspent⟩)
  · obtain ⟨n, hlisted, hlocked⟩ := hs.listed i u found (hret.retires _ _ _ _ hretire)
    exact ((hin.codes.listed_after h hlisted).spentBelow hspent).mono
      (hlocked e he hthread.symm k hlocks).le
  · refine absurd hretire (hret.locks k n at_ hlock ⟨e'.op, e'.resp⟩ ?_ found u at_')
    exact List.mem_map.2 ⟨e', State.mem_history.2 ⟨he', hthread⟩, rfl⟩
  · cases hlock.symm.trans hretire

variable (hop : SignInStatement env (calls i) (s.trace i) op) (hJ : InTransaction i s)

include hop hJ

/-- **What a transaction has written** is a code it has consumed, or one of those that it
retires. -/
theorem Superseding.pending_after (hp : t.otpCodes.pending k = some (j, row)) :
    (signIn ((s.after i op r t).trace j)).consumed = some k ∨ t.SpentFor j row.userId (k + 1) ∨
      ∃ e ∈ (s.after i op r t).trace j, Falters e := by
  have hends : i = j → op ≠ .commit ∧ op ≠ .rollback := fun hij ↦
    not_or.1 fun hends ↦ codes_pending_of_ends h hends hp hij.symm
  -- What was written before goes on.
  have hbefore : ∀ row₀, s.shared.otpCodes.pending k = some (j, row₀) → row.userId = row₀.userId →
      (signIn ((s.after i op r t).trace j)).consumed = some k ∨ t.SpentFor j row.userId (k + 1) ∨
        ∃ e ∈ (s.after i op r t).trace j, Falters e := by
    intro row₀ hp₀ hu
    rcases hs.pending k j row₀ hp₀ with hc | hspent | ⟨e, he, hf⟩
    · exact .inl (consumed_after hop (fun hij ↦ not_or.2 (hends hij.symm)) hc)
    · exact .inr (.inl (hin.codes.spentFor_after h hends (hu ▸ hspent)))
    · exact .inr (.inr ⟨e, (s.trace_prefix_after ..).subset he, hf⟩)
  have hstored := hJ.storesHeld hop
  cases (hin.codes.pending_step hstored h hp).2 with
  | same hp₀ => exact hbefore row hp₀ rfl
  | @wrote st row₀ hj hst he hc hfrom =>
    subst hj
    rcases hfrom with hp₀ | ⟨hfree, hrow₀, hnone⟩
    · exact hbefore row₀ hp₀ (OtpCode.userId_of_birth he.birth)
    obtain ⟨st', hst', hwriter⟩ := writer_of_pending h hfree hp
    obtain rfl : st' = st := Op.otpCode.inj (hst'.symm.trans hst)
    have hlast : (⟨op, r⟩ : Exchange Statements) ∈ (s.after j op r t).trace j := by
      rw [State.after_trace_self]
      exact List.mem_append_right _ (List.mem_singleton_self _)
    cases he with
    | complete => simp [hnone] at hc
    | recordAttempt => cases hwriter
    | storeVerification k data => cases hc.symm.trans (congrArg Option.isSome hnone)
    | consume k at_ hlive =>
      subst hst
      match r with
      | .error f => exact .inr (.inr ⟨_, hlast, .inl ⟨k, at_, f, rfl⟩⟩)
      | .ok true =>
        left
        rw [State.after_trace_self, signIn_append, hop.consumed k at_ rfl]
        rfl
      | .ok false => exact absurd ⟨_, consume_false h ▸ hp⟩ hfree
    | retireLive tx found u at_ k hk hu hnone' =>
      subst hst
      cases tx with
      | false => cases hwriter
      | true =>
        match r with
        | .error f => exact .inr (.inr ⟨_, hlast, .inr ⟨found, u, at_, f, rfl⟩⟩)
        | .ok n =>
          -- The codes were listed just before.
          obtain ⟨pre, hpre⟩ := List.getLast?_eq_some_iff.1 (hret.retires true found u at_ rfl)
          have hfound : (signIn (s.trace j)).found = some (u, found) := by
            rw [hpre, signIn_append]
            rfl
          obtain ⟨e, -, -, hlists⟩ := hJ.found u found hfound
          have hspent := spentFor_retireLive hlists h
          have hle : k + 1 ≤ e.before.otpCodes.next := hlists.1.2 k hk
          exact .inr (.inl ⟨hle.trans hspent.1, fun k' row' hk' hrow' hu' ↦
            hspent.2 k' row' (hk'.trans_le hle) hrow' (hu'.trans hu)⟩)

/-- **A commit** uses up the older codes of the user of each code it has written. -/
theorem Superseding.spentBelow_commit {version : OtpCode}
    (hrow : s.shared.otpCodes.stored k = some row)
    (hp : s.shared.otpCodes.pending k = some (i, version)) (hcommit : op = .commit)
    (ht : ∃ n, t = (s.shared.elapse n).commit i) : t.SpentBelow row.userId k := by
  obtain ⟨n, rfl⟩ := ht
  obtain ⟨row₀, hrow₀, -, hbirth⟩ := hin.codes.held k i version hp
  obtain rfl := Option.some.inj (hrow₀.symm.trans hrow)
  have hcommitted : ∀ {u m : ℕ}, s.shared.SpentFor i u m → k ≤ m →
      ((s.shared.elapse n).commit i).SpentBelow u k := fun hspent hle ↦
    (World.SpentFor.commit (w := s.shared.elapse n) hspent).mono hle
  rcases hs.pending k i version hp with hc | hspent | ⟨e, he, hf⟩
  · -- The transaction of a sign-in is complete, and the code is of the user whose codes it retires.
    obtain ⟨_, _, u, -, hready⟩ := hop.committed hcommit k hc
    obtain ⟨e, -, hlt, hspent⟩ := hJ.retired u hready.retired
    obtain ⟨first, hbegun, hu, -⟩ := hready.begun
    obtain ⟨v, -, ⟨user, now, record, -, -, hfound, hid, -⟩, -⟩ :=
      hin.matched i k u first.familyId ⟨first, hbegun, hu, rfl⟩
    obtain ⟨huser, hborn⟩ := hin.lives i u now record hfound
    subst hid
    have hsame : row₀.userId = u :=
      (OtpCode.userId_of_birth (hborn.stored row₀ hrow)).trans huser
    exact hsame ▸ hcommitted hspent (hlt _ hc).le
  · rw [← OtpCode.userId_of_birth hbirth]
    exact hcommitted hspent (Nat.le_succ k)
  · exact absurd hf (hret.commits hcommit e he)

/-- **A code that is used up** leaves no older one, unless it is locked out. -/
theorem Superseding.used_after (hrow' : t.otpCodes.stored k = some row)
    (hc' : row.consumedAt.isSome) :
    t.SpentBelow row.userId k ∨ ∃ e ∈ (s.after i op r t).log, LocksOut row.userId k e := by
  rcases hin.codes.stored_from h hrow' with ⟨row₀, hrow₀, ha⟩ | ⟨data, -, -, rfl⟩
  swap
  · cases hc'
  cases hc : row₀.consumedAt with
  | some c =>
    rw [ha.userId]
    refine (hs.used k row₀ hrow₀ (Option.isSome_of_eq_some hc)).imp (hin.codes.spentBelow_after h)
      fun ⟨e, he, hlocks⟩ ↦ ⟨e, ?_, hlocks⟩
    rw [State.after_log]
    exact List.mem_append_left _ he
  | none =>
    rw [ha.userId]
    cases usedUp_of_consumed h hrow₀ hc hrow' hc' with
    | locked n at_ hlock =>
      refine .inr ⟨⟨i, s.shared, op, r, t⟩, ?_, ⟨n, at_, hlock⟩, ⟨row₀, hrow₀, rfl, hc⟩,
        row, hrow', hc'⟩
      rw [State.after_log]
      exact List.mem_append_right _ (List.mem_singleton_self _)
    | retired found at_ hk hretire =>
      obtain ⟨n, hlisted, -⟩ := hs.listed i row₀.userId found (hret.retires _ _ _ _ hretire)
      subst hretire
      rcases spentBelow_retireLive hlisted h with hsame | hspent
      · rw [Table.stored, hsame, ← Table.stored, hrow₀] at hrow'
        obtain rfl := Option.some.inj hrow'
        simp [hc] at hc'
      · exact .inl (hspent.mono (hlisted.1.2 k hk).le)
    | committed hcommit ht hp =>
      exact .inl (hs.spentBelow_commit h hin hret hop hJ hrow₀ hp hcommit ht)

/-- **A statement** keeps the invariant. -/
theorem Superseding.after (ha : superseding.stmt i x op s) : Superseding (s.after i op r t) where
  ordered := hs.ordered.after hin.codes h ha.2
  pending _ _ _ hp := hs.pending_after h hin hret hop hJ hp
  used _ _ hrow hc := hs.used_after h hin hret hop hJ hrow hc
  listed _ _ _ hlast := hs.listed_after h hin hlast
  locked _ he _ _ hlocks := hs.locked_after h he hlocks
  retired _ he _ he' hthread _ _ hlocks hretires :=
    hs.retired_after h hin hret he he' hthread hlocks hretires
  newest _ he _ _ _ hfound _ _ hrow hu := hs.newest_after h ha he hfound hrow hu

omit hs h hin hret hop hJ in
/-- **The loss of a thread** keeps the invariant. -/
theorem Superseding.lost (hs : Superseding s) (i : ι) :
    Superseding (s.setShared (s.shared.rollback i)) := by
  have hsame := s.shared.rollback_codes_stored i
  refine ⟨hs.ordered.rollback i, fun k j row hp ↦ ?_, fun k row hrow hc ↦ ?_,
    fun j u found hlast ↦ ?_, hs.locked, fun e he e' he' hthread u k hlocks hretires ↦ ?_,
    hs.newest⟩
  · obtain ⟨hij, hp⟩ := Cell.pending_of_rollback hp
    exact (hs.pending k j row hp).imp_right fun h ↦ h.imp_left (World.SpentFor.rollback hij.symm)
  · exact (hs.used k row (hsame k ▸ hrow) hc).imp_left .rollback
  · obtain ⟨n, hlisted, hlocked⟩ := hs.listed j u found hlast
    exact ⟨n, ⟨hlisted.1, fun k row hk hrow ↦ hlisted.2 k row hk (hsame k ▸ hrow)⟩, hlocked⟩
  · exact (hs.retired e he e' he' hthread u k hlocks hretires).rollback

end Invariant

/-! ### Runs -/

theorem superseding_start {w : World ι} (hw : CodesInTurn w) :
    Superseding (⟨w, []⟩ : History ι) where
  ordered := hw.ordered
  pending k _ _ hp := by cases (hw.closed k).symm.trans hp
  used k row hrow hc := .inl (hw.used k row hrow hc)
  listed _ _ _ hlast := by cases hlast
  locked _ he := absurd he List.not_mem_nil
  retired _ he := absurd he List.not_mem_nil
  newest _ he := absurd he List.not_mem_nil

/-- **The codes of every run** in which codes are superseded as they should. -/
theorem superseding_run (env : Env) {w : World ι} (hw : TokensSound w)
    (hlocks : ∀ u, w.advisoryLocks u = none) (hcodes : CodesSound w) (hturn : CodesInTurn w)
    (calls : ι → ApiCall) {c : System ι}
    (hc : System.Reaches env superseding (System.start env w calls) c) : Superseding c.state := by
  have hwithin := Run.within (C := fun s ↦ TokensSound s.shared ∧ DrawnOnce s)
    (fun c hc ↦ ((sessions_safe env hw hlocks calls).run (Run.all hc)).1) hc
  exact (hwithin.invariant_running (I := fun s ↦ SignedIn env w calls s ∧ Superseding s)
    (J := InTransaction)
    (Config.keeps_start fun i ↦ (program_signIn (calls i)).and (program_retires (calls i)))
    ⟨signedIn_start env hw hlocks hcodes calls, superseding_start hturn⟩
    (fun _ _ ↦ inTransaction_nil rfl)
    (fun s i x op r t hs hJ hop ha hx ↦ ⟨⟨hs.1.after hx hop.1 ha.2.1 hw ha.2.2 hJ,
      hs.2.after hx hs.1 hop.2 hop.1 hJ ha.1⟩, hJ.after hs.1.codes hop.1 hx⟩)
    (fun s s' i j hij hs hm hJ ↦ hJ.others hs.1.codes hij hm)
    fun s i hs _ ↦ ⟨hs.1.lost i, hs.2.lost i⟩).1.1.2

/-- What becomes of the codes, whatever is done: a completed one stays, as it was created. -/
theorem codes_of_reaches {env : Env} {c₁ c : System ι} (hc : System.Reaches env .all c₁ c)
    (hroot : c₁.state.shared.Rooted OtpCode.request) : c.state.shared.Rooted OtpCode.request ∧
      Later c₁.state.shared c.state.shared ∧ ∀ k row, c₁.state.shared.otpCodes.stored k = some row →
        row.requestCompletedAt.isSome → ∃ row', c.state.shared.otpCodes.stored k = some row' ∧
          row'.birth = row.birth ∧ row'.requestCompletedAt.isSome := by
  refine (Run.invariant (C := fun _ _ ↦ True) (I := fun s : History ι ↦
    s.shared.Rooted OtpCode.request ∧ Later c₁.state.shared s.shared ∧ ∀ k row,
      c₁.state.shared.otpCodes.stored k = some row → row.requestCompletedAt.isSome →
        ∃ row', s.shared.otpCodes.stored k = some row' ∧ row'.birth = row.birth ∧
          row'.requestCompletedAt.isSome) hc (fun _ p _ ↦ p.all_true)
    ⟨hroot, .refl _, fun k row hrow hdone ↦ ⟨row, hrow, rfl, hdone⟩⟩
    (fun s i x op r t hs _ _ hx ↦ ?_) fun s i hs _ ↦ ?_).1
  · obtain ⟨hroot, hlater, hkept⟩ := hs
    have hbirth : s.shared.Rooted OtpCode.birth := fun k j row hp ↦
      (hroot k j row hp).imp fun _ h ↦ ⟨h.1, congrArg Prod.fst h.2⟩
    refine ⟨exec_rooted request_keptInTx hx hroot, hlater.trans (exec_later hx hbirth),
      fun k row hrow hdone ↦ ?_⟩
    obtain ⟨row', hrow', hbirth', hdone'⟩ := hkept k row hrow hdone
    obtain ⟨row'', hrow'', hbirth'', hdone''⟩ := completed_stays hroot hx hrow' hdone'
    exact ⟨row'', hrow'', hbirth''.trans hbirth', hdone''⟩
  · obtain ⟨hroot, hlater, hkept⟩ := hs
    refine ⟨rollback_rooted hroot i, hlater.trans (rollback_later _ i), fun k row hrow hdone ↦ ?_⟩
    obtain ⟨row', hrow', hrest⟩ := hkept k row hrow hdone
    exact ⟨row', (s.shared.rollback_codes_stored i k).trans hrow', hrest⟩

/-- **Superseded codes sign nobody in**, in every run in which a live code is looked for only when
every call that has locked a code of the user out has retired the others, and later codes do not
expire before earlier ones: once a code of a user is there whose request is completed, no call that
begins later signs in with an older code of the user. -/
theorem superseded_signs_nobody_in (env : Env) {w : World ι} (hw : TokensSound w)
    (hlocks : ∀ u, w.advisoryLocks u = none) (hcodes : CodesSound w) (hturn : CodesInTurn w)
    (calls : ι → ApiCall) {c₁ c : System ι}
    (hc₁ : System.Reaches env superseding (System.start env w calls) c₁)
    (hc : System.Reaches env superseding c₁ c) {k : ℕ} (hk : c₁.state.shared.Superseded k) {j : ι}
    (hj : c₁.state.trace j = []) (u F : ℕ) : ¬ SignedInWith env calls c.state j k u F := by
  intro h
  obtain ⟨k', row, row', hrow, hrow', hu, hlt, hcompleted⟩ := hk
  obtain ⟨v, -, user, now, record, -, -, hfound, rfl, -⟩ := h.matched
  obtain ⟨e, he, heq⟩ := List.mem_map.1 hfound
  -- The code was found by a statement of the call, later than `c₁`.
  have hnew : c₁.state.history j = [] := List.map_eq_nil_iff.1 hj
  obtain ⟨before, rest, hsplit⟩ := List.append_of_mem he
  obtain ⟨p, d, _, hm, -⟩ := Run.moment_history hc hnew hsplit
  have hnewest := (superseding_run env hw hlocks hcodes hturn calls (hc₁.trans hc)).newest e
    (State.mem_history.1 he).1 u now record heq
  -- By then the later code was there, and the older one was as it had been created.
  obtain ⟨hroot, -, -⟩ := codes_of_reaches (Run.all hc₁) fun k _ _ hp ↦ by
    cases (hturn.closed k).symm.trans hp
  obtain ⟨-, hlater, hkept⟩ := codes_of_reaches (Run.all hm.before) hroot
  obtain ⟨row₁, hrow₁, hbirth₁, -⟩ := hkept k' row' hrow' hcompleted
  rw [hm.shared] at hlater hrow₁
  obtain ⟨x, hx⟩ := hm.exec
  obtain ⟨thread, w₁, op, resp, t₁⟩ := e
  cases heq
  obtain ⟨hrecord, huser, -⟩ := exec_findLive hx
  obtain ⟨row₀, hrow₀, hbirth₀⟩ := hlater.rows record.id record.row hrecord
    (World.born_of_stored hrow).lt_next
  obtain rfl := Option.some.inj (hrow₀.symm.trans hrow)
  have hle := hnewest k' row₁ hrow₁ ((OtpCode.userId_of_birth hbirth₁).trans
    (hu.symm.trans ((OtpCode.userId_of_birth hbirth₀).symm.trans huser)))
  rw [OtpCode.createdAt_of_birth hbirth₁, OtpCode.createdAt_of_birth hbirth₀] at hle
  exact absurd hlt (not_lt.2 hle)

namespace Demo

/-- Two codes for a phone, five calls that try another one, and a call that has the first. -/
def supersededCalls : ℕ → ApiCall
  | 0 => requestOtp '0'
  | 1 => requestOtp '1'
  | 7 => .verifyOtp "+1" "NG" "" { idempotencyKey := some (key '7') }
  | n => .verifyOtp "+1" "NG" "2" { idempotencyKey := some (key n.digitChar) }

/-- Whether a statement retires the listed codes of the user for good. -/
def retires (u : ℕ) : Happening ℕ → Bool
  | ⟨_, _, .otpCode (.retireLive false found u' _), _, t⟩ =>
    u' = u && found.all fun k ↦
      k < t.otpCodes.next && (t.otpCodes.stored k).all fun row ↦ row.consumedAt.isSome
  | _ => false

/-- Whether a statement locks a code out. -/
def locksOut : Op → Bool
  | .otpCode (.recordAttempt _ _ (some _)) => true
  | _ => false

/-- Superseding, as a test. -/
def allowSuperseding : ℕ → Op → History ℕ → Bool
  | _, .otpCode (.findLive u _), s =>
    s.log.all fun e ↦ !locksOut e.op || s.log.any fun e' ↦ e'.thread = e.thread && retires u e'
  | _, .otpCode (.create data), s =>
    (List.range s.shared.otpCodes.next).all fun k ↦ (s.shared.otpCodes.stored k).all fun row ↦
      row.userId ≠ data.userId || row.consumedAt.isSome || row.expiresAt ≤ data.expiresAt
  | _, _, _ => true

/-- What the test sees is a retirement. -/
theorem retires_of_test {u : ℕ} {e : Happening ℕ} (h : retires u e = true) : Retires u e := by
  unfold retires at h
  split at h
  · rw [Bool.and_eq_true, decide_eq_true_iff, List.all_eq_true] at h
    obtain ⟨rfl, hspent⟩ := h
    refine ⟨_, _, rfl, fun k hk ↦ ?_⟩
    have hboth := hspent k hk
    rw [Bool.and_eq_true, decide_eq_true_iff, Option.all_eq_true] at hboth
    exact hboth
  · cases h

/-- What passes the test supersedes codes as it should. -/
theorem allowSuperseding_stmt (i : ℕ) (x : Choice) (op : Op) (s : History ℕ)
    (h : allowSuperseding i op s = true) : superseding.stmt i x op s := by
  constructor
  · rintro u now rfl e he k hlocks
    obtain ⟨n, at_, hop⟩ := hlocks.op
    have hany := List.all_eq_true.1 h e he
    rw [hop] at hany
    obtain ⟨e', he', hboth⟩ := List.any_eq_true.1 hany
    rw [Bool.and_eq_true, decide_eq_true_iff] at hboth
    exact .inl ⟨e', he', hboth.1, retires_of_test hboth.2⟩
  · rintro data rfl k row hrow hu hc
    have hall := List.all_eq_true.1 h k (List.mem_range.2 (World.born_of_stored hrow).lt_next)
    rw [hrow] at hall
    simpa [hu, hc] using hall

/-- Both codes are there, and thread 7 has not begun. -/
def TwoCodes (c : System ℕ) : Prop :=
  (c.state.shared.otpCodes.stored 0).map (fun row ↦ (row.userId, row.createdAt)) = some (0, 0) ∧
    (c.state.shared.otpCodes.stored 1).map (fun row ↦ (row.userId, row.createdAt,
      row.requestCompletedAt.isSome)) = some (0, 60000, true) ∧ (c.state.trace 7).isEmpty = true

instance (c : System ℕ) : Decidable (TwoCodes c) := inferInstanceAs (Decidable (_ ∧ _))

/-- The second code is requested after the cooldown of the first. -/
theorem twoCodes_runs : ((System.start env world supersededCalls).turns (machine ℕ crypto)
    allowSuperseding (steps 0 18 ++ [⟨1, { elapse := 60000 }⟩] ++
      List.replicate 17 ⟨1, { code := "1" }⟩)).any (fun c ↦ TwoCodes c) = true := by
  decide +kernel

/-- The first code is superseded. -/
def twoCodes : System ℕ :=
  after (System.start env world supersededCalls) _ _ (Option.isSome_of_any twoCodes_runs)

theorem reaches_twoCodes :
    System.Reaches env superseding (System.start env world supersededCalls) twoCodes :=
  Config.run_afterTurns allowSuperseding_stmt (Option.isSome_of_any twoCodes_runs)

theorem superseded_twoCodes : twoCodes.state.shared.Superseded 0 ∧ twoCodes.state.trace 7 = [] := by
  obtain ⟨hfirst, hsecond, hnew⟩ : TwoCodes twoCodes :=
    of_decide_eq_true (Config.afterTurns_of_any twoCodes_runs)
  obtain ⟨row, hrow, heq⟩ := Option.map_eq_some_iff.1 hfirst
  obtain ⟨row', hrow', heq'⟩ := Option.map_eq_some_iff.1 hsecond
  simp only [Prod.mk.injEq] at heq heq'
  refine ⟨⟨1, row, row', hrow, hrow', heq.1.trans heq'.1.symm, ?_, heq'.2.2⟩,
    List.isEmpty_iff.1 hnew⟩
  rw [heq.2, heq'.2.1]
  norm_num

/-- Four wrong codes, and a fifth up to the lock-out. -/
def lockOut : List (Turn ℕ Choice) := [2, 3, 4, 5].flatMap (steps · 8) ++ steps 6 8

/-- The fifth call retires the codes, and thread 7 finds none. -/
theorem turnedDown_runs : (twoCodes.turns (machine ℕ crypto) allowSuperseding
    (lockOut ++ steps 6 3 ++ steps 7 6)).any
      (fun c ↦ (c.progs 7).bind Prog.outcome = some (.error OTP_EXPIRED)) = true := by
  decide +kernel

/-- The first code is turned down. -/
def turnedDown : System ℕ := after twoCodes _ _ (Option.isSome_of_any turnedDown_runs)

/-- No code is there. -/
theorem codesInTurn_world : CodesInTurn world :=
  ⟨⟨fun _ _ _ _ _ h ↦ (by cases h), fun _ _ h ↦ (by cases h), fun _ _ _ _ _ h ↦ (by cases h)⟩,
    fun _ ↦ rfl, fun _ _ h ↦ (by cases h)⟩

end Demo

/-- After five wrong codes the first code signs thread 7 in as little as the second. -/
theorem superseded_signs_nobody_in_turnedDown :
    Demo.turnedDown.Answered 7 (.error OTP_EXPIRED) ∧
      ¬ SignedInWith Demo.env Demo.supersededCalls Demo.turnedDown.state 7 0 0 0 :=
  ⟨Config.answered_iff.2 (of_decide_eq_true (Config.afterTurns_of_any Demo.turnedDown_runs)),
    superseded_signs_nobody_in Demo.env Demo.tokensSound_world (fun _ ↦ rfl) Demo.codesSound_world
      Demo.codesInTurn_world Demo.supersededCalls Demo.reaches_twoCodes
      (Config.run_afterTurns Demo.allowSuperseding_stmt _) Demo.superseded_twoCodes.1
      Demo.superseded_twoCodes.2 0 0⟩

namespace Demo

/-- Thread 7 has signed in, with the first code. -/
def SignedInLate (c : System ℕ) : Prop :=
  begunBy c 7 = some (0, 0, 0) ∧
    (c.state.shared.refreshTokens.stored 0).map RefreshToken.familyId = some 0

instance (c : System ℕ) : Decidable (SignedInLate c) := inferInstanceAs (Decidable (_ ∧ _))

/-- Thread 7 comes between the lock-out and the retirement. -/
theorem signedInLate_runs : (twoCodes.turns (machine ℕ crypto) anything
    (lockOut ++ steps 7 22)).any (fun c ↦ SignedInLate c) = true := by
  decide +kernel

/-- The second code is locked out, and the first has signed thread 7 in. -/
def signedInLate : System ℕ := after twoCodes _ _ (Option.isSome_of_any signedInLate_runs)

theorem signedInWith_signedInLate :
    SignedInWith env supersededCalls signedInLate.state 7 0 0 0 := by
  obtain ⟨hbegun, hfamily⟩ : SignedInLate signedInLate :=
    of_decide_eq_true (Config.afterTurns_of_any signedInLate_runs)
  obtain ⟨hs, -⟩ := signedIn_run env tokensSound_world (fun _ ↦ rfl) codesSound_world
    supersededCalls ((Run.all reaches_twoCodes).trans
      (reaches_after _ _ (Option.isSome_of_any signedInLate_runs)))
  exact hs.signedInWith ⟨begins_of_begunBy hbegun, hasFamily_of_map hfamily⟩

end Demo

/-- **A superseded code signs in.** The lock-out of the later code is there, and the codes are not
retired yet. -/
theorem superseded_code_signs_in : ∃ c₁ c : System ℕ,
    System.Reaches Demo.env .all (System.start Demo.env Demo.world Demo.supersededCalls) c₁ ∧
      System.Reaches Demo.env .all c₁ c ∧ c₁.state.shared.Superseded 0 ∧ c₁.state.trace 7 = [] ∧
        SignedInWith Demo.env Demo.supersededCalls c.state 7 0 0 0 :=
  ⟨Demo.twoCodes, Demo.signedInLate, Run.all Demo.reaches_twoCodes, Demo.reaches_after _ _ _,
    Demo.superseded_twoCodes.1, Demo.superseded_twoCodes.2, Demo.signedInWith_signedInLate⟩

end Stead
