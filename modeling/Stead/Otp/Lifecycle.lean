import Stead.Otp.Rows

/-!
# The life of an OTP code

A code is consumed in a transaction, or retired, and never comes back.

## Two versions

A version that a transaction has written is consumed, and the committed one below it is not
(`CodesSound`), so at most one transaction that consumes a row can commit. A thread sees its own
version where it has one (`World.codes`), and the lemmas about a step say of each version what
becomes of it: of the committed one (`CodesSound.step`), of the written one
(`CodesSound.pending_step`), and of what a thread sees (`CodesSound.codes_step`).

## From outside

A committed row ages (`OtpCode.Ages`): it keeps its birth, stays consumed, and takes a verification
only at the moment it is consumed. What is spent stays spent, also below a number (`SpentBelow`) and
for a thread (`SpentFor`), so that retiring the codes of a user needs no second look at them.
-/

namespace Stead

open Concurrency

variable {ι : Type}

/-- What a row says of the verification it was used for. -/
def OtpCode.verification (row : OtpCode) :
    Option Digest × Option Digest × Option ResponseJson × Option ℤ :=
  (row.verificationKeyHash, row.verificationRequestHash, row.verificationResponseJson,
    row.verifiedAt)

/-- The second version is the same row later. -/
structure OtpCode.Ages (r r' : OtpCode) : Prop where
  birth : r'.birth = r.birth
  consumed : r.consumedAt.isSome → r'.consumedAt.isSome
  verification : r.consumedAt.isSome ∨ r'.consumedAt = none → r'.verification = r.verification

theorem OtpCode.Ages.refl (r : OtpCode) : r.Ages r := ⟨rfl, id, fun _ ↦ rfl⟩

/-- What is unconsumed was unconsumed before. -/
theorem OtpCode.Ages.unconsumed {r r' : OtpCode} (h : r.Ages r') (hc : r'.consumedAt = none) :
    r.consumedAt = none := by
  by_contra hsome
  have := h.consumed (Option.isSome_iff_ne_none.2 hsome)
  simp [hc] at this

theorem OtpCode.Ages.trans {r r' r'' : OtpCode} (h : r.Ages r') (h' : r'.Ages r'') :
    r.Ages r'' :=
  ⟨h'.birth.trans h.birth, fun hc ↦ h'.consumed (h.consumed hc), fun hc ↦
    (h'.verification (hc.imp_left h.consumed)).trans (h.verification (hc.imp_right h'.unconsumed))⟩

/-- The OTP codes of the database, with what is pending: what a transaction has written of a row is
consumed, while the committed row is not; and a row with a verification is consumed. -/
structure CodesSound (w : World ι) : Prop where
  consumed : ∀ k j row, w.otpCodes.pending k = some (j, row) → row.consumedAt.isSome
  held : ∀ k j row, w.otpCodes.pending k = some (j, row) →
    ∃ row₀, w.otpCodes.stored k = some row₀ ∧ row₀.consumedAt = none ∧ row.birth = row₀.birth
  verified : ∀ k row, w.otpCodes.stored k = some row → row.verificationKeyHash.isSome →
    row.consumedAt.isSome

/-- Code number `k` has been there, and no sign-in can use it any more. -/
def World.Spent (w : World ι) (k : ℕ) : Prop :=
  k < w.otpCodes.next ∧ ∀ row, w.otpCodes.stored k = some row → row.consumedAt.isSome

/-- Code number `k` has been there, as it was created. -/
structure World.Born (w : World ι) (k : ℕ) (birth : NewOtpCode × ℤ) : Prop where
  lt_next : k < w.otpCodes.next
  stored : ∀ row, w.otpCodes.stored k = some row → row.birth = birth

/-- A row that is there was born so. -/
theorem World.born_of_stored {w : World ι} {k : ℕ} {row : OtpCode}
    (h : w.otpCodes.stored k = some row) : w.Born k row.birth := by
  refine ⟨Table.lt_next_of_cell fun hempty ↦ ?_, fun row' hrow' ↦ ?_⟩
  · rw [Table.stored, hempty] at h
    cases h
  · obtain rfl := Option.some.inj (h.symm.trans hrow')
    rfl

/-- No code of the user with a number below `n` can be used any more. -/
def World.SpentBelow (w : World ι) (u n : ℕ) : Prop :=
  n ≤ w.otpCodes.next ∧
    ∀ k row, k < n → w.otpCodes.stored k = some row → row.userId = u → row.consumedAt.isSome

/-- A transaction has written the row. -/
def World.Holding (w : World ι) (i : ι) (k : ℕ) : Prop :=
  ∃ row, w.otpCodes.pending k = some (i, row)

/-- What is held is there. -/
theorem World.Holding.lt_next {w : World ι} {i : ι} {k : ℕ} (h : w.Holding i k) :
    k < w.otpCodes.next := by
  obtain ⟨row, hrow⟩ := h
  refine Table.lt_next_of_cell fun hempty ↦ ?_
  rw [Table.pending, hempty] at hrow
  cases hrow

/-- A row that a transaction has written is unconsumed until the transaction commits. -/
theorem CodesSound.not_spent {w : World ι} (hw : CodesSound w) {i : ι} {k : ℕ}
    (h : w.Holding i k) : ¬ w.Spent k := by
  rintro ⟨-, hspent⟩
  obtain ⟨row, hrow⟩ := h
  obtain ⟨row₀, hrow₀, hlive, -⟩ := hw.held k i row hrow
  have := hspent row₀ hrow₀
  simp [hlive] at this

/-- A database without open transactions. -/
theorem CodesSound.of_not_pending {w : World ι} (h : ∀ k, w.otpCodes.pending k = none)
    (hverified : ∀ k row, w.otpCodes.stored k = some row → row.verificationKeyHash.isSome →
      row.consumedAt.isSome) : CodesSound w where
  consumed k _ _ hp := by cases (h k).symm.trans hp
  held k _ _ hp := by cases (h k).symm.trans hp
  verified := hverified

/-! ### What a statement makes of a row -/

section Edits

variable {row row' : OtpCode} {s : OtpCodeStatement} {k : ℕ}

/-- An edit never makes a row unconsumed. -/
theorem OtpCodeEdit.consumedAt (h : OtpCodeEdit row s k row') (hc : row.consumedAt.isSome) :
    row'.consumedAt.isSome := by
  cases h with
  | recordAttempt k n c =>
    cases c with
    | none => exact hc
    | some c => rfl
  | complete | storeVerification => exact hc
  | retireLive | consume => rfl

/-- What is edited outside a transaction ages. -/
theorem OtpCodeEdit.ages {i : ι} (h : OtpCodeEdit row s k row') (hw : s.writer i = none) :
    row.Ages row' := by
  refine ⟨h.birth, h.consumedAt, fun _ ↦ ?_⟩
  cases h with
  | storeVerification => cases hw
  | _ => rfl

/-- The key of a verification is written by one statement only. -/
theorem OtpCodeEdit.verification (h : OtpCodeEdit row s k row') :
    row'.verification = row.verification ∨ ∃ data, s = .storeVerification k data ∧
      row' = data.apply row := by
  cases h with
  | storeVerification k data => exact .inr ⟨data, rfl, rfl⟩
  | _ => exact .inl rfl

/-- Who writes is who issues the statement. -/
theorem OtpCodeStatement.writer_eq {i j : ι} (h : s.writer i = some j) : j = i := by
  cases s with
  | retireLive tx =>
    cases tx with
    | false => cases h
    | true => exact (Option.some.inj h).symm
  | consume | storeVerification => exact (Option.some.inj h).symm
  | _ => cases h

end Edits

variable [DecidableEq ι]

/-- The codes as a transaction sees them. -/
def World.codes (w : World ι) (i : ι) (k : ℕ) : Option OtpCode :=
  (w.otpCodes.cell k).view (some i)

/-- A thread sees what it has written. -/
theorem World.codes_of_pending {w : World ι} {i : ι} {k : ℕ} {row : OtpCode}
    (h : w.otpCodes.pending k = some (i, row)) : w.codes i k = some row :=
  Cell.view_of_pending h

/-- Every code a transaction sees that has no version of its own is committed. -/
theorem World.codes_cases {w : World ι} {i : ι} {k : ℕ} {row : OtpCode}
    (h : w.codes i k = some row) :
    w.otpCodes.pending k = some (i, row) ∨
      ¬ w.Holding i k ∧ w.otpCodes.stored k = some row := by
  by_cases hp : w.Holding i k
  · obtain ⟨row', hp⟩ := hp
    rw [World.codes_of_pending hp] at h
    exact .inl (Option.some.inj h ▸ hp)
  · exact .inr (.intro hp <| (Cell.view_of_not_pending fun row hr ↦ hp ⟨row, hr⟩).symm.trans h)

theorem World.rollback_codes_stored (w : World ι) (i : ι) (k : ℕ) :
    (w.rollback i).otpCodes.stored k = w.otpCodes.stored k :=
  Cell.rollback_stored _ _

theorem codes_rollback_of_ne {w : World ι} {i j : ι} (hij : j ≠ i) {k : ℕ} :
    (w.rollback j).codes i k = w.codes i k := by
  refine Cell.view_congr (Cell.rollback_stored _ _) fun row ↦
    ⟨fun h ↦ (Cell.pending_of_rollback h).2, fun h ↦ ?_⟩
  have hcell : (w.otpCodes.cell k).rollback j = w.otpCodes.cell k :=
    Cell.rollback_of_not_pending fun row' h' ↦
      hij (congrArg Prod.fst (Option.some.inj (h'.symm.trans h)))
  exact (congrArg Cell.pending hcell).trans h

/-- A commit makes what the thread sees the committed row. -/
theorem World.commit_codes_stored (w : World ι) (i : ι) (k : ℕ) :
    (w.commit i).otpCodes.stored k = w.codes i k :=
  Cell.commit_stored _ _

section Statements

variable {crypto : Crypto} {i : ι} {x : Choice} {op : Op} {w t : World ι}
  {r : Except StatementError op.Ret} {k : ℕ}

/-- A verification is stored in a row its transaction has consumed. -/
def StoresHeld (w : World ι) (i : ι) (op : Op) : Prop :=
  ∀ id data, op = .otpCode (.storeVerification id data) → w.Holding i id

/-- What a step makes of a committed row. -/
inductive CodeStep (w t : World ι) (op : Op) (k : ℕ) : Prop
  | absent (h : w.otpCodes.stored k = none) (h' : t.otpCodes.stored k = none)
  | aged {row row' : OtpCode} (h : w.otpCodes.stored k = some row)
      (h' : t.otpCodes.stored k = some row') (ha : row.Ages row')
  | created {data : NewOtpCode} (hop : op = .otpCode (.create data)) (hk : k = w.otpCodes.next)
      (h : w.otpCodes.stored k = none) (h' : t.otpCodes.stored k = some (data.row t.now))
  | deleted {until_ : Option ℤ} {row : OtpCode} (hop : op = .otpCode (.deleteUncompleted k until_))
      (h : w.otpCodes.stored k = some row) (h' : t.otpCodes.stored k = none)

omit [DecidableEq ι] in
theorem CodeStep.of_eq (h : t.otpCodes.stored k = w.otpCodes.stored k) : CodeStep w t op k := by
  cases hrow : w.otpCodes.stored k with
  | none => exact .absent hrow (h.trans hrow)
  | some row => exact .aged hrow (h.trans hrow) (.refl row)

/-- **One step, for one committed row.** -/
theorem CodesSound.step (hw : CodesSound w) (h : exec crypto i x op w = some (r, t)) (k : ℕ) :
    CodeStep w t op k := by
  cases exec_otpCodes h k with
  | same heq => exact .of_eq (congrArg Cell.stored heq)
  | @edit s row row' hop hv he hl heq =>
    cases hwriter : s.writer i with
    | none =>
      rw [hwriter] at hv heq
      rw [Cell.view_none] at hv
      exact .aged hv (congrArg Cell.stored heq) (he.ages hwriter)
    | some j =>
      rw [hwriter] at heq
      exact .of_eq ((congrArg Cell.stored heq).trans rfl)
  | @create data hop hk hu hfresh hc heq =>
    refine .created hop hk (congrArg Cell.stored hc) ((congrArg Cell.stored heq).trans ?_)
    rw [exec_now h]
    rfl
  | delete hop hs hr hp hj heq => exact .deleted hop hs (congrArg Cell.stored heq)
  | commit hop heq =>
    by_cases hp : ∃ row, w.otpCodes.pending k = some (i, row)
    · -- What was committed before was unconsumed, so nothing is asked of its verification.
      obtain ⟨row, hp⟩ := hp
      obtain ⟨row₀, hrow₀, hlive, hbirth⟩ := hw.held k i row hp
      rw [Cell.commit_of_pending hp] at heq
      have hconsumed := hw.consumed k i row hp
      refine .aged hrow₀ (congrArg Cell.stored heq) ⟨hbirth, fun _ ↦ hconsumed, fun hc ↦ ?_⟩
      rcases hc with hc | hc
      · simp [hlive] at hc
      · simp [hc] at hconsumed
    · rw [Cell.commit_of_not_pending fun row hr ↦ hp ⟨row, hr⟩] at heq
      exact .of_eq (congrArg Cell.stored heq)
  | rollback hop heq =>
    exact .of_eq ((congrArg Cell.stored heq).trans (Cell.rollback_stored _ _))

/-- **One step, for what a transaction has written of a row**: it had written it before, or writes it
now, over a version of its own or over a committed row that is unconsumed. -/
inductive PendingStep (w : World ι) (i : ι) (op : Op) (k : ℕ) (j : ι) (row' : OtpCode) : Prop
  | same (h : w.otpCodes.pending k = some (j, row'))
  | wrote {s : OtpCodeStatement} {row : OtpCode} (hj : j = i) (hop : op = .otpCode s)
      (he : OtpCodeEdit row s k row') (hc : row'.consumedAt.isSome)
      (h : w.otpCodes.pending k = some (i, row) ∨
        ¬ w.Holding i k ∧ w.otpCodes.stored k = some row ∧ row.consumedAt = none)

/-- **A version that is written** was there before, or is written now by the statement. -/
theorem CodesSound.pending_step (hw : CodesSound w) (hop : StoresHeld w i op)
    (h : exec crypto i x op w = some (r, t)) {j : ι} {row' : OtpCode}
    (hp : t.otpCodes.pending k = some (j, row')) :
    t.otpCodes.stored k = w.otpCodes.stored k ∧ PendingStep w i op k j row' := by
  have hpending : (t.otpCodes.cell k).pending = some (j, row') := hp
  -- A thread sees its own write, and the committed row where it has none.
  cases exec_otpCodes h k with
  | same heq =>
    rw [heq] at hpending
    exact ⟨congrArg Cell.stored heq, .same hpending⟩
  | @edit s row₁ row₂ hs hv he hl heq =>
    cases hwriter : s.writer i with
    | none =>
      rw [hwriter] at heq hl
      rw [heq] at hpending
      rcases Cell.pending_of_not_locked hl with hfree | ⟨_, _, hnone, -⟩
      · cases hfree.symm.trans hpending
      · cases hnone
    | some l =>
      obtain rfl : l = i := s.writer_eq hwriter
      rw [hwriter] at heq hv
      rw [heq] at hpending
      cases hpending
      refine ⟨(congrArg Cell.stored heq).trans rfl, ?_⟩
      cases he with
      -- The statements outside of transactions see and write the committed row.
      | complete | recordAttempt => cases hwriter
      | retireLive tx found u at_ k hk hu hnone =>
        exact .wrote rfl hs (.retireLive tx found u at_ k hk hu hnone) rfl
          ((World.codes_cases hv).imp_right fun hrow ↦ ⟨hrow.1, hrow.2, hnone⟩)
      -- A row that is consumed in the transaction was open when it was read.
      | consume k at_ hlive =>
        have hnone : row₁.consumedAt = none := by
          simp only [OtpCode.live, Bool.and_eq_true, Option.isNone_iff_eq_none] at hlive
          exact hlive.1
        exact .wrote rfl hs (.consume k at_ hlive) rfl
          ((World.codes_cases hv).imp_right fun hrow ↦ ⟨hrow.1, hrow.2, hnone⟩)
      -- An answer is stored on the row that this thread holds consumed.
      | storeVerification k data =>
        obtain ⟨row, hrow⟩ := hop _ _ hs
        obtain rfl := Option.some.inj ((World.codes_of_pending hrow).symm.trans hv)
        exact .wrote rfl hs (.storeVerification k data) (hw.consumed _ _ row hrow) (.inl hrow)
  | create hs hk hu hfresh hc heq =>
    rw [heq] at hpending
    cases hpending
  | delete hs hst hr hpn hj heq =>
    rw [heq] at hpending
    cases hpending
  | commit hs heq =>
    rw [heq] at hpending
    -- A commit is the end of the drafts of its own thread only.
    obtain ⟨hne, hbefore⟩ := Cell.pending_of_commit hpending
    rw [Cell.commit_of_not_pending fun row hr ↦
      hne (congrArg Prod.fst (Option.some.inj (hbefore.symm.trans hr)))] at heq
    exact ⟨congrArg Cell.stored heq, .same hbefore⟩
  | rollback hs heq =>
    rw [heq] at hpending
    exact ⟨(congrArg Cell.stored heq).trans (Cell.rollback_stored _ _),
      .same (Cell.pending_of_rollback hpending).2⟩

/-- **A statement** keeps the codes sound. -/
theorem CodesSound.after (hw : CodesSound w) (hop : StoresHeld w i op)
    (h : exec crypto i x op w = some (r, t)) : CodesSound t where
  consumed k j row hp := by
    cases (hw.pending_step hop h hp).2 with
    | same hbefore => exact hw.consumed k j row hbefore
    | wrote _ _ _ hc => exact hc
  held k j row hp := by
    obtain ⟨hsame, hstep⟩ := hw.pending_step hop h hp
    rw [hsame]
    cases hstep with
    | same hbefore => exact hw.held k j row hbefore
    | @wrote s row₁ _ _ he _ hbefore =>
      rcases hbefore with hpending | ⟨-, hstored, hnone⟩
      · obtain ⟨row₀, hrow₀, hlive, hbirth⟩ := hw.held k i row₁ hpending
        exact ⟨row₀, hrow₀, hlive, he.birth.trans hbirth⟩
      · exact ⟨row₁, hstored, hnone, he.birth⟩
  verified k row hrow hv := by
    cases hw.step h k with
    | absent _ h' => cases h'.symm.trans hrow
    | @aged row₀ row₁ h₀ h₁ ha =>
      obtain rfl := Option.some.inj (h₁.symm.trans hrow)
      by_contra hc
      have hsame := ha.verification (.inr (Option.not_isSome_iff_eq_none.1 hc))
      have hkey : row₁.verificationKeyHash = row₀.verificationKeyHash := congrArg Prod.fst hsame
      exact hc (ha.consumed (hw.verified k row₀ h₀ (hkey ▸ hv)))
    | created _ _ _ h' =>
      cases h'.symm.trans hrow
      cases hv
    | deleted _ _ h' => cases h'.symm.trans hrow

/-- A rollback keeps the rows sound. -/
theorem CodesSound.rollback (hw : CodesSound w) (i : ι) : CodesSound (w.rollback i) where
  consumed k j row hp := hw.consumed k j row (Cell.pending_of_rollback hp).2
  held k j row hp := by
    rw [World.rollback_codes_stored]
    exact hw.held k j row (Cell.pending_of_rollback hp).2
  verified k row hrow := hw.verified k row (by rwa [World.rollback_codes_stored] at hrow)

/-! ### What is used up stays used up -/

/-- What a transaction sees of a row goes back to what it saw before the step of any thread, its own
end aside. -/
theorem CodesSound.codes_step (hw : CodesSound w) {j : ι} (h : exec crypto j x op w = some (r, t))
    (hend : j = i → op ≠ .commit ∧ op ≠ .rollback) (hk : k < w.otpCodes.next) {row' : OtpCode}
    (hrow' : t.codes i k = some row') : ∃ row, w.codes i k = some row ∧ row'.birth = row.birth ∧
      (row.consumedAt.isSome → row'.consumedAt.isSome) := by
  have hsame : t.codes i k = w.codes i k → ∃ row, w.codes i k = some row ∧
      row'.birth = row.birth ∧ (row.consumedAt.isSome → row'.consumedAt.isSome) := fun h ↦
    ⟨row', h.symm.trans hrow', rfl, id⟩
  cases exec_otpCodes h k with
  | same heq => exact hsame (congrArg (Cell.view (some i)) heq)
  | @edit s row₁ row₂ hs hv he hl heq =>
    have hview := congrArg (Cell.view (some i)) heq
    -- A write outside of transactions is seen unless this thread has a draft of the row.
    cases hwriter : s.writer j with
    | none =>
      rw [hwriter] at hv hl hview
      rw [Cell.view_none] at hv
      rcases Cell.pending_of_not_locked hl with hfree | ⟨_, _, hnone, -⟩
      · have hno : ∀ row, (w.otpCodes.cell k).pending ≠ some (i, row) := fun row hr ↦ by
          cases hfree.symm.trans hr
        have hno' : ∀ row, ((w.otpCodes.cell k).write none row₂).pending ≠ some (i, row) := hno
        rw [Cell.view_of_not_pending hno'] at hview
        cases hview.symm.trans hrow'
        exact ⟨row₁, (Cell.view_of_not_pending hno).trans hv, he.birth, he.consumedAt⟩
      · cases hnone
    | some l =>
      obtain rfl : l = j := s.writer_eq hwriter
      rw [hwriter] at hv hl hview
      by_cases hij : l = i
      · subst hij
        rw [Cell.view_write] at hview
        cases hview.symm.trans hrow'
        exact ⟨row₁, hv, he.birth, he.consumedAt⟩
      · -- Another transaction can only write what this one has not written.
        refine hsame (hview.trans (Cell.view_congr rfl fun row ↦ ⟨fun hp ↦ ?_, fun hp ↦ ?_⟩))
        · exact absurd (congrArg Prod.fst (Option.some.inj hp)) hij
        · rcases Cell.pending_of_not_locked hl with hfree | ⟨m, p, hm, hfree⟩
          · cases hfree.symm.trans hp
          · cases hm
            exact absurd (congrArg Prod.fst (Option.some.inj (hfree.symm.trans hp))) hij
  | create _ hnext => exact absurd hnext hk.ne
  | delete _ _ _ _ _ heq =>
    have hview : t.codes i k = none := congrArg (Cell.view (some i)) heq
    cases hview.symm.trans hrow'
  | commit hop heq =>
    -- The commit of another thread shows its draft, which keeps the birth of the row.
    have hij : j ≠ i := fun hij ↦ (hend hij).1 hop
    by_cases hp : ∃ row, w.otpCodes.pending k = some (j, row)
    · obtain ⟨row, hp⟩ := hp
      obtain ⟨row₀, hrow₀, hlive, hbirth⟩ := hw.held k j row hp
      rw [Cell.commit_of_pending hp] at heq
      have hview : t.codes i k = some row := congrArg (Cell.view (some i)) heq
      obtain rfl := Option.some.inj (hview.symm.trans hrow')
      refine ⟨row₀, (Cell.view_of_not_pending fun p hp' ↦ ?_).trans hrow₀, hbirth, fun hc ↦ ?_⟩
      · exact hij (congrArg Prod.fst (Option.some.inj (hp.symm.trans hp')))
      · simp [hlive] at hc
    · rw [Cell.commit_of_not_pending fun row hr ↦ hp ⟨row, hr⟩] at heq
      exact hsame (congrArg (Cell.view (some i)) heq)
  | rollback hop heq =>
    have hij : j ≠ i := fun hij ↦ hop.elim (hend hij).2 (hend hij).1
    refine hsame ((congrArg (Cell.view (some i)) heq).trans (codes_rollback_of_ne hij))

/-- What a transaction sees has no unconsumed code of the user with a number below `n`. -/
def World.SpentFor (w : World ι) (i : ι) (u n : ℕ) : Prop :=
  n ≤ w.otpCodes.next ∧
    ∀ k row, k < n → w.codes i k = some row → row.userId = u → row.consumedAt.isSome

/-- Of the codes of the user with a number below `n`, the unconsumed ones a transaction sees are
listed; and no others than codes below `n` are. -/
def World.Lists (w : World ι) (i : ι) (u n : ℕ) (found : List ℕ) : Prop :=
  (n ≤ w.otpCodes.next ∧ ∀ k ∈ found, k < n) ∧ ∀ k row, k < n → w.codes i k = some row →
    row.userId = u → row.consumedAt = none → k ∈ found

theorem CodesSound.spentFor_after (hw : CodesSound w) {j : ι}
    (h : exec crypto j x op w = some (r, t)) (hend : j = i → op ≠ .commit ∧ op ≠ .rollback)
    {u n : ℕ} (hn : w.SpentFor i u n) : t.SpentFor i u n := by
  refine ⟨hn.1.trans (exec_otpCodes_next h), fun k row' hk hrow' hu ↦ ?_⟩
  obtain ⟨row, hrow, hbirth, hc⟩ := hw.codes_step h hend (hk.trans_le hn.1) hrow'
  exact hc (hn.2 k row hk hrow ((OtpCode.userId_of_birth hbirth).symm.trans hu))

theorem CodesSound.lists_after (hw : CodesSound w) {j : ι}
    (h : exec crypto j x op w = some (r, t)) (hend : j = i → op ≠ .commit ∧ op ≠ .rollback)
    {u n : ℕ} {found : List ℕ} (hn : w.Lists i u n found) : t.Lists i u n found := by
  refine ⟨hn.1.imp_left fun hle ↦ hle.trans (exec_otpCodes_next h), fun k row' hk hrow' hu hc' ↦ ?_⟩
  obtain ⟨row, hrow, hbirth, hc⟩ := hw.codes_step h hend (hk.trans_le hn.1.1) hrow'
  refine hn.2 k row hk hrow ((OtpCode.userId_of_birth hbirth).symm.trans hu) ?_
  by_contra hsome
  have := hc (Option.isSome_iff_ne_none.2 hsome)
  simp [hc'] at this

/-- What a transaction has written stays written until the transaction ends. -/
theorem World.Holding.after {j : ι} (h : exec crypto j x op w = some (r, t))
    (hend : j = i → op ≠ .commit ∧ op ≠ .rollback) (hk : w.Holding i k) : t.Holding i k := by
  obtain ⟨row, hrow⟩ := hk
  have hpending : (w.otpCodes.cell k).pending = some (i, row) := hrow
  have hsame : t.otpCodes.cell k = w.otpCodes.cell k → t.Holding i k := fun h ↦
    ⟨row, (congrArg Cell.pending h).trans hrow⟩
  have hother : j ≠ i → ∀ row', (w.otpCodes.cell k).pending ≠ some (j, row') := fun hij row' h' ↦
    hij (congrArg Prod.fst (Option.some.inj (h'.symm.trans hrow)))
  cases exec_otpCodes h k with
  | same heq => exact hsame heq
  | @edit s row₁ row₂ hs hv he hl heq =>
    rcases Cell.pending_of_not_locked hl with hfree | ⟨l, p, hwriter, hp⟩
    · cases hfree.symm.trans hrow
    · cases hp.symm.trans hrow
      rw [hwriter] at heq
      exact ⟨row₂, congrArg Cell.pending heq⟩
  | create _ _ _ _ hc _ =>
    rw [hc] at hpending
    cases hpending
  | delete _ _ _ hp _ _ => cases hp.symm.trans hrow
  | commit hop heq =>
    exact hsame (heq.trans (Cell.commit_of_not_pending (hother fun hij ↦ (hend hij).1 hop)))
  | rollback hop heq =>
    exact hsame (heq.trans (Cell.rollback_of_not_pending
      (hother fun hij ↦ hop.elim (hend hij).2 (hend hij).1)))

/-- **A commit** uses up the codes the transaction has written. -/
theorem CodesSound.spent_commit (hw : CodesSound w) (hk : w.Holding i k) : (w.commit i).Spent k := by
  refine ⟨hk.lt_next, fun row hrow ↦ ?_⟩
  obtain ⟨row₀, hrow₀⟩ := hk
  rw [World.commit_codes_stored, World.codes_of_pending hrow₀] at hrow
  exact Option.some.inj hrow ▸ hw.consumed k i row₀ hrow₀

/-- What is spent for a thread is spent when it commits. -/
theorem World.SpentFor.commit {u n : ℕ} (hn : w.SpentFor i u n) : (w.commit i).SpentBelow u n :=
  ⟨hn.1, fun k row hk hrow ↦ hn.2 k row hk (by rwa [World.commit_codes_stored] at hrow)⟩

/-- What a transaction lists when it looks. -/
theorem lists_findUnconsumed {u : ℕ} {found : List ℕ}
    (h : exec crypto i x (.otpCode (.findUnconsumed true u)) w = some (.ok found, t)) :
    t.Lists i u w.otpCodes.next found := by
  cases perform_of_exec_ok h
  refine ⟨⟨le_rfl, fun k hk ↦ ?_⟩, fun k row _ hrow hu hc ↦
    List.mem_map.2 ⟨⟨k, row⟩, Table.mem_select.2 ⟨hrow, ?_⟩, rfl⟩⟩
  · obtain ⟨⟨k, row⟩, hmem, rfl⟩ := List.mem_map.1 hk
    refine Table.lt_next_of_cell fun hempty ↦ ?_
    have hview := (Table.mem_select.1 hmem).1
    rw [show (w.elapse x.elapse).otpCodes.cell k = .empty from hempty] at hview
    cases hview
  · simp [OtpCode.unconsumedOf, hu, hc]

/-- **Retiring** what was listed leaves none. -/
theorem spentFor_retireLive {u n m : ℕ} {found : List ℕ} {at_ : ℤ} (hn : w.Lists i u n found)
    (h : exec crypto i x (.otpCode (.retireLive true found u at_)) w = some (.ok m, t)) :
    t.SpentFor i u n := by
  have hp := perform_of_exec_ok h
  simp only [perform, OtpCodeStatement.perform] at hp
  split at hp <;> cases hp
  next hupd =>
  refine ⟨hn.1.1.trans (Table.updateMany_next hupd).ge, fun k row hk hrow hu ↦ ?_⟩
  rcases Table.updateMany_cell hupd k with ⟨hsame, hclean⟩ | ⟨-, row₀, -, -, -, hwrote⟩
  · have hrow₀ : w.codes i k = some row := (congrArg (Cell.view (some i)) hsame).symm.trans hrow
    by_contra hc
    have hnone := Option.not_isSome_iff_eq_none.1 hc
    have := hclean (hn.2 k row hk hrow₀ hu hnone) row hrow₀
    simp [OtpCode.unconsumedOf, hu, hnone] at this
  · have hview := (congrArg (Cell.view (some i)) hwrote).trans (Cell.view_write ..)
    obtain rfl := Option.some.inj (hview.symm.trans hrow)
    rfl

theorem World.SpentFor.rollback {j : ι} (hij : j ≠ i) {u n : ℕ} (hn : w.SpentFor i u n) :
    (w.rollback j).SpentFor i u n :=
  ⟨hn.1, fun k row hk hrow ↦ hn.2 k row hk ((codes_rollback_of_ne hij).symm.trans hrow)⟩

theorem World.Lists.rollback {j : ι} (hij : j ≠ i) {u n : ℕ} {found : List ℕ}
    (hn : w.Lists i u n found) : (w.rollback j).Lists i u n found :=
  ⟨hn.1, fun k row hk hrow ↦ hn.2 k row hk ((codes_rollback_of_ne hij).symm.trans hrow)⟩

theorem World.Holding.rollback {j : ι} (hij : j ≠ i) {k : ℕ} (h : w.Holding i k) :
    (w.rollback j).Holding i k := by
  obtain ⟨row, hrow⟩ := h
  have hcell : (w.rollback j).otpCodes.cell k = w.otpCodes.cell k :=
    Cell.rollback_of_not_pending fun row' hr' ↦
      hij (congrArg Prod.fst (Option.some.inj (hr'.symm.trans hrow)))
  exact ⟨row, (congrArg Cell.pending hcell).trans hrow⟩

theorem CodesSound.spentBelow_after (hw : CodesSound w) (h : exec crypto i x op w = some (r, t))
    {u n : ℕ} (hn : w.SpentBelow u n) : t.SpentBelow u n := by
  refine ⟨hn.1.trans (exec_otpCodes_next h), fun k row hk hrow hu ↦ ?_⟩
  cases hw.step h k with
  | absent _ h' => cases h'.symm.trans hrow
  | @aged row₀ row₁ h₀ h₁ ha =>
    obtain rfl := Option.some.inj (h₁.symm.trans hrow)
    exact ha.consumed (hn.2 k row₀ hk h₀ ((OtpCode.userId_of_birth ha.birth).symm.trans hu))
  | created _ hnext => exact absurd (hk.trans_le hn.1) (by omega)
  | deleted _ _ h' => cases h'.symm.trans hrow

theorem CodesSound.spent_after (hw : CodesSound w) (h : exec crypto i x op w = some (r, t))
    {k : ℕ} (hk : w.Spent k) : t.Spent k := by
  refine ⟨hk.1.trans_le (exec_otpCodes_next h), fun row hrow ↦ ?_⟩
  cases hw.step h k with
  | absent _ h' => cases h'.symm.trans hrow
  | @aged row₀ row₁ h₀ h₁ ha =>
    obtain rfl := Option.some.inj (h₁.symm.trans hrow)
    exact ha.consumed (hk.2 row₀ h₀)
  | created _ hnext => exact absurd hk.1 (by omega)
  | deleted _ _ h' => cases h'.symm.trans hrow

/-- A birth is for good. -/
theorem CodesSound.born_after (hw : CodesSound w) (h : exec crypto i x op w = some (r, t))
    {birth : NewOtpCode × ℤ} (hk : w.Born k birth) : t.Born k birth := by
  refine ⟨hk.lt_next.trans_le (exec_otpCodes_next h), fun row hrow ↦ ?_⟩
  cases hw.step h k with
  | absent _ h' => cases h'.symm.trans hrow
  | aged h₀ h₁ ha =>
    obtain rfl := Option.some.inj (h₁.symm.trans hrow)
    exact ha.birth.trans (hk.stored _ h₀)
  | created _ hnext => exact absurd hnext hk.lt_next.ne
  | deleted _ _ h' => cases h'.symm.trans hrow

theorem World.Born.rollback {k : ℕ} {birth : NewOtpCode × ℤ} (hk : w.Born k birth) :
    (w.rollback i).Born k birth :=
  ⟨hk.lt_next, fun row hrow ↦ hk.stored row (by rwa [World.rollback_codes_stored] at hrow)⟩

theorem World.Spent.rollback {k : ℕ} (hk : w.Spent k) : (w.rollback i).Spent k :=
  ⟨hk.1, fun row hrow ↦ hk.2 row (by rwa [World.rollback_codes_stored] at hrow)⟩

theorem World.SpentBelow.rollback {u n : ℕ} (hn : w.SpentBelow u n) :
    (w.rollback i).SpentBelow u n :=
  ⟨hn.1, fun k row hk hrow ↦ hn.2 k row hk (by rwa [World.rollback_codes_stored] at hrow)⟩

end Statements

end Stead
