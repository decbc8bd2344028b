import Stead.Concurrency.Trace
import Stead.Model.Effects

/-!
# The rows of OTP codes over time

A row keeps what it was created with, its *birth*, and its number is never given out again, so a
row that is there now and has an old number was there all along, and was the same (`Later`).

## Versions with one root

A column that no statement changes in a transaction has the same value in both versions of a row
(`World.Rooted`). That holds of the birth and of the attempts, and is a general fact about columns
that are `KeptInTx`; both follow by one induction over the statement.

## Statements and their stores

Statements are recorded with the store they left, and every such store is earlier (`Chronicle`). So
what a statement of a trace was answered can be said of the present store, as far as it is about
births: `Chronicle.exchange` turns an exchange into a fact about some earlier store, and `Later`
brings the fact up to now.
-/

namespace Stead

open Concurrency

variable {ι : Type} [DecidableEq ι] {crypto : Crypto} {i : ι} {x : Choice} {op : Op}
  {w w' w'' t : World ι} {r : Except StatementError op.Ret}

/-- What a row is created with. -/
def OtpCode.birth (row : OtpCode) : NewOtpCode × ℤ :=
  (⟨row.userId, row.codeHash, row.requestKeyHash, row.developmentOtp, row.expiresAt⟩,
    row.createdAt)

theorem OtpCode.userId_of_birth {row row' : OtpCode} (h : row.birth = row'.birth) :
    row.userId = row'.userId :=
  congrArg (fun birth ↦ birth.1.userId) h

theorem OtpCode.codeHash_of_birth {row row' : OtpCode} (h : row.birth = row'.birth) :
    row.codeHash = row'.codeHash :=
  congrArg (fun birth ↦ birth.1.codeHash) h

theorem OtpCode.requestKeyHash_of_birth {row row' : OtpCode} (h : row.birth = row'.birth) :
    row.requestKeyHash = row'.requestKeyHash :=
  congrArg (fun birth ↦ birth.1.requestKeyHash) h

theorem OtpCode.createdAt_of_birth {row row' : OtpCode} (h : row.birth = row'.birth) :
    row.createdAt = row'.createdAt :=
  congrArg Prod.snd h

/-- An edit keeps the birth. -/
theorem OtpCodeEdit.birth {row row' : OtpCode} {s : OtpCodeStatement} {k : ℕ}
    (h : OtpCodeEdit row s k row') : row'.birth = row.birth := by
  cases h <;> rfl

/-- A transaction changes rows that are committed, and leaves `f` of them as it is. -/
def World.Rooted {β : Type} (f : OtpCode → β) (w : World ι) : Prop :=
  ∀ k j row, w.otpCodes.pending k = some (j, row) →
    ∃ row₀, w.otpCodes.stored k = some row₀ ∧ f row = f row₀

/-- What transactions do not touch of a row. -/
def KeptInTx (ι : Type) {β : Type} (f : OtpCode → β) : Prop :=
  ∀ {row row' : OtpCode} {s : OtpCodeStatement} {k : ℕ} {i j : ι}, OtpCodeEdit row s k row' →
    s.writer i = some j → f row' = f row

omit [DecidableEq ι] in
/-- No transaction touches what a row was created with. -/
theorem birth_keptInTx : KeptInTx ι OtpCode.birth := fun h _ ↦ h.birth

omit [DecidableEq ι] in
/-- No transaction counts an attempt. -/
theorem verifyAttempts_keptInTx : KeptInTx ι OtpCode.verifyAttempts := by
  intro row row' s k i j h hw
  cases h <;> first | rfl | cases hw

section Rooted

variable {β : Type} {f : OtpCode → β}

/-- What a viewer sees of a row is what it is of the committed row. -/
theorem World.Rooted.view (hw : w.Rooted f) {v : Option ι} {k : ℕ} {row : OtpCode}
    (h : (w.otpCodes.cell k).view v = some row) :
    ∃ row₀, w.otpCodes.stored k = some row₀ ∧ f row = f row₀ := by
  unfold Cell.view at h
  split at h
  · next j row' hp =>
    split at h
    · cases h
      exact hw k j row hp
    · exact ⟨row, h, rfl⟩
  · exact ⟨row, h, rfl⟩

/-- **One step, for one row**: what is committed after it was committed before, or a statement
outside a transaction changed it, or created it. -/
theorem exec_row (h : exec crypto i x op w = some (r, t)) (hw : w.Rooted f) {k : ℕ}
    {row : OtpCode} (hrow : t.otpCodes.stored k = some row) :
    (∃ row₀, w.otpCodes.stored k = some row₀ ∧ f row = f row₀) ∨
      (∃ s row₀, op = .otpCode s ∧ w.otpCodes.stored k = some row₀ ∧ OtpCodeEdit row₀ s k row) ∨
      ∃ data, op = .otpCode (.create data) ∧ k = w.otpCodes.next ∧ row = data.row t.now ∧
        (w.users.stored data.userId).isSome ∧
        ∀ id row, w.otpCodes.stored id = some row → row.requestKeyHash ≠ data.requestKeyHash := by
  have hsaved : (t.otpCodes.cell k).stored = some row := hrow
  -- The committed row after the statement: an edit, a new row, or a version that was there.
  cases exec_otpCodes h k with
  | same heq =>
    rw [heq] at hsaved
    exact .inl ⟨row, hsaved, rfl⟩
  | edit hop hv he hl heq =>
    rename_i s row₁ row₂
    rw [heq] at hsaved
    cases hwriter : s.writer i with
    | none =>
      rw [hwriter] at hsaved hv
      obtain rfl : row₂ = row := Option.some.inj hsaved
      rw [Cell.view_none] at hv
      exact .inr (.inl ⟨s, row₁, hop, hv, he⟩)
    | some j =>
      rw [hwriter] at hsaved
      exact .inl ⟨row, hsaved, rfl⟩
  | create hop hk hu hfresh hc heq =>
    rename_i data
    rw [heq] at hsaved
    refine .inr (.inr ⟨data, hop, hk, ?_, hu, hfresh⟩)
    rw [exec_now h]
    exact (Option.some.inj hsaved).symm
  | delete hop hs hr hp hj heq =>
    rw [heq] at hsaved
    cases hsaved
  | commit hop heq =>
    -- What is committed is the draft, which has kept what `f` reads.
    rw [heq, Cell.commit_stored] at hsaved
    exact .inl (hw.view hsaved)
  | rollback hop heq =>
    rw [heq, Cell.rollback_stored] at hsaved
    exact .inl ⟨row, hsaved, rfl⟩

/-- **A committed row stays**, unless the statement may delete it: it is what it was, or a statement
outside a transaction has changed it. -/
theorem row_stays (h : exec crypto i x op w = some (r, t)) (hw : w.Rooted f) {k : ℕ} {row : OtpCode}
    (hrow : w.otpCodes.stored k = some row)
    (hstays : ∀ until_, row.uncompleted until_ = true →
      ∃ id job, w.notificationJobs.stored id = some job ∧ job.otpCodeId = some k) :
    ∃ row', t.otpCodes.stored k = some row' ∧
      (f row' = f row ∨ ∃ s, op = .otpCode s ∧ OtpCodeEdit row s k row') := by
  show ∃ row', (t.otpCodes.cell k).stored = some row' ∧ _
  have hcell : (w.otpCodes.cell k).stored = some row := hrow
  cases exec_otpCodes h k with
  | same heq => exact ⟨row, heq ▸ hcell, .inl rfl⟩
  | @edit s row₀ row₁ hop hv he hl heq =>
    cases hwriter : s.writer i with
    | none =>
      rw [hwriter] at hv heq
      rw [Cell.view_none] at hv
      obtain rfl := Option.some.inj (hv.symm.trans hcell)
      exact ⟨row₁, congrArg Cell.stored heq, .inr ⟨s, hop, he⟩⟩
    | some j =>
      rw [hwriter] at heq
      exact ⟨row, (congrArg Cell.stored heq).trans hcell, .inl rfl⟩
  | create _ _ _ _ hempty _ =>
    rw [hempty] at hcell
    cases hcell
  | delete hop hs hr hp hnone heq =>
    obtain rfl := Option.some.inj (hs.symm.trans hcell)
    obtain ⟨id, job, hjob, hlink⟩ := hstays _ hr
    exact absurd hlink (hnone id job hjob)
  | commit hop heq =>
    -- A transaction does not delete rows, so it sees a version of this one.
    rw [heq, Cell.commit_stored]
    obtain ⟨row', hview⟩ := Option.isSome_iff_exists.1
      (Cell.view_isSome (Option.isSome_of_eq_some hcell) (some i))
    obtain ⟨row₀, hrow₀, hsame⟩ := hw.view hview
    obtain rfl := Option.some.inj (hrow₀.symm.trans hrow)
    exact ⟨row', hview, .inl hsame⟩
  | rollback hop heq =>
    exact ⟨row, (congrArg Cell.stored heq).trans ((Cell.rollback_stored _ _).trans hcell), .inl rfl⟩

theorem exec_rooted (hf : KeptInTx ι f) (h : exec crypto i x op w = some (r, t))
    (hw : w.Rooted f) : t.Rooted f := by
  intro k j row hp
  have hpending : (t.otpCodes.cell k).pending = some (j, row) := hp
  show ∃ row₀, (t.otpCodes.cell k).stored = some row₀ ∧ _
  cases exec_otpCodes h k with
  | same heq =>
    rw [heq] at hpending ⊢
    exact hw k j row hpending
  | edit hop hv he hl heq =>
    rename_i s row₁ row₂
    obtain ⟨row₀, hrow₀, hbirth⟩ := hw.view hv
    rw [heq] at hpending ⊢
    cases hwriter : s.writer i with
    | none =>
      rw [hwriter] at hpending hl
      rcases Cell.pending_of_not_locked hl with hfree | ⟨_, _, hnone, -⟩
      · exact absurd (hfree.symm.trans hpending) nofun
      · cases hnone
    | some j' =>
      rw [hwriter] at hpending
      cases hpending
      exact ⟨row₀, hrow₀, (hf he hwriter).trans hbirth⟩
  | create hop hk hu hfresh hc heq =>
    rw [heq] at hpending
    cases hpending
  | delete hop hs hr hp hj heq =>
    rw [heq] at hpending
    cases hpending
  | commit hop heq =>
    rw [heq] at hpending ⊢
    obtain ⟨hne, hbefore⟩ := Cell.pending_of_commit hpending
    have hother : ∀ row, (w.otpCodes.cell k).pending ≠ some (i, row) := fun row' h' ↦
      hne (congrArg Prod.fst (Option.some.inj (hbefore.symm.trans h')))
    rw [Cell.commit_of_not_pending hother]
    exact hw k j row hbefore
  | rollback hop heq =>
    rw [heq] at hpending ⊢
    rw [Cell.rollback_stored]
    exact hw k j row (Cell.pending_of_rollback hpending).2

theorem rollback_rooted (hw : w.Rooted f) (i : ι) : (w.rollback i).Rooted f := by
  intro k j row hp
  rw [World.rollback_otpCodes] at hp ⊢
  show ∃ row₀, ((w.otpCodes.rollback i).cell k).stored = some row₀ ∧ _
  rw [Table.rollback_cell, Cell.rollback_stored]
  exact hw k j row (Cell.pending_of_rollback hp).2

end Rooted

/-- What is committed after a step was committed before, with the same birth, or created. -/
theorem exec_birth (h : exec crypto i x op w = some (r, t)) (hw : w.Rooted OtpCode.birth) {k : ℕ}
    {row : OtpCode} (hrow : t.otpCodes.stored k = some row) :
    (∃ row₀, w.otpCodes.stored k = some row₀ ∧ row.birth = row₀.birth) ∨
      ∃ data, op = .otpCode (.create data) ∧ k = w.otpCodes.next ∧ row = data.row t.now ∧
        (w.users.stored data.userId).isSome ∧
        ∀ id row, w.otpCodes.stored id = some row → row.requestKeyHash ≠ data.requestKeyHash := by
  rcases exec_row h hw hrow with hsame | ⟨s, row₀, -, hrow₀, he⟩ | hcreated
  · exact .inl hsame
  · exact .inl ⟨row₀, hrow₀, he.birth⟩
  · exact .inr hcreated

/-- The number of attempts of a row is kept, or recorded, or the row is new. -/
theorem exec_verifyAttempts (h : exec crypto i x op w = some (r, t))
    (hw : w.Rooted OtpCode.verifyAttempts) {k : ℕ} {row : OtpCode}
    (hrow : t.otpCodes.stored k = some row) :
    (∃ row₀, w.otpCodes.stored k = some row₀ ∧ row.verifyAttempts = row₀.verifyAttempts) ∨
      (∃ n c row₀, op = .otpCode (.recordAttempt k n c) ∧ w.otpCodes.stored k = some row₀ ∧
        row.verifyAttempts = n) ∨ k = w.otpCodes.next ∧ row.verifyAttempts = 0 := by
  rcases exec_row h hw hrow with hsame | ⟨s, row₀, hop, hrow₀, he⟩ | ⟨data, -, hk, rfl, -⟩
  · exact .inl hsame
  · cases he with
    | recordAttempt k n c => exact .inr (.inl ⟨n, c, row₀, hop, hrow₀, rfl⟩)
    | _ => exact .inl ⟨row₀, hrow₀, rfl⟩
  · exact .inr (.inr ⟨hk, rfl⟩)

omit [DecidableEq ι] in
theorem phoneOf_eq_some {u : ℕ} {phone : String} : w.phoneOf u = some phone ↔
    ∃ user, w.users.stored u = some user ∧ user.phone = phone :=
  Option.map_eq_some_iff

/-- Users keep their phone numbers. -/
theorem phoneOf_after (h : exec crypto i x op w = some (r, t)) {u : ℕ} {phone : String}
    (hu : w.phoneOf u = some phone) : t.phoneOf u = some phone := by
  obtain ⟨user, huser, hphone⟩ := phoneOf_eq_some.1 hu
  exact phoneOf_eq_some.2 ⟨user, exec_users h huser, hphone⟩

/-- Numbers are given out once. -/
theorem exec_otpCodes_next (h : exec crypto i x op w = some (r, t)) :
    w.otpCodes.next ≤ t.otpCodes.next := by
  refine exec_of_perform (fun t ↦ w.otpCodes.next ≤ t.otpCodes.next) h (fun r t h ↦ ?_) ?_
  · by_cases hop : ∃ s, op = .otpCode s
    · obtain ⟨s, rfl⟩ := hop
      have hframe : ∀ {v : Option ι} {id : ℕ} {p f b} {otpCodes : Table ι OtpCode},
          (w.elapse x.elapse).otpCodes.updateId v id p f = some (b, otpCodes) →
            (w.elapse x.elapse).otpCodes.next ≤ otpCodes.next := by
        intro v id p f b otpCodes hu
        rcases Table.updateId_cases hu with ⟨-, rfl, -⟩ | ⟨-, hn, -⟩
        · exact le_rfl
        · exact hn.ge
      cases s <;> simp only [perform, OtpCodeStatement.perform] at h <;>
        (repeat' split at h) <;> cases h <;>
        first
          | exact le_rfl
          | exact hframe (by assumption)
          | exact (Table.updateMany_next (by assumption)).ge
          | exact Nat.le_succ _
          | skip
      all_goals
        rcases Table.deleteId_cases (by assumption) with ⟨-, rfl⟩ | ⟨-, hn, -⟩
        · exact le_rfl
        · exact hn.ge
    · cases perform_effect h with
      | otpCode hs => exact absurd ⟨_, hs⟩ hop
      | _ => subst_vars; exact le_rfl
  · cases op <;> exact le_rfl

/-- The second store is one after the first. -/
structure Later (w w' : World ι) : Prop where
  now : w.now ≤ w'.now
  users : ∀ id u, w.users.stored id = some u → w'.users.stored id = some u
  next : w.otpCodes.next ≤ w'.otpCodes.next
  rows : ∀ k row', w'.otpCodes.stored k = some row' → k < w.otpCodes.next →
    ∃ row, w.otpCodes.stored k = some row ∧ row'.birth = row.birth

omit [DecidableEq ι] in
theorem Later.refl (w : World ι) : Later w w :=
  ⟨le_rfl, fun _ _ h ↦ h, le_rfl, fun _ row h _ ↦ ⟨row, h, rfl⟩⟩

omit [DecidableEq ι] in
theorem Later.trans (h : Later w w') (h' : Later w' w'') : Later w w'' where
  now := h.now.trans h'.now
  users := fun id u hu ↦ h'.users id u (h.users id u hu)
  next := h.next.trans h'.next
  rows := by
    intro k row'' hrow'' hk
    obtain ⟨row', hrow', hbirth'⟩ := h'.rows k row'' hrow'' (hk.trans_le h.next)
    obtain ⟨row, hrow, hbirth⟩ := h.rows k row' hrow' hk
    exact ⟨row, hrow, hbirth'.trans hbirth⟩

/-- **Every statement** leaves a later store. -/
theorem exec_later (h : exec crypto i x op w = some (r, t)) (hw : w.Rooted OtpCode.birth) : Later w t where
  now := by
    rw [exec_now h]
    omega
  users := fun id u hu ↦ exec_users h hu
  next := exec_otpCodes_next h
  rows := by
    intro k row' hrow' hk
    rcases exec_birth h hw hrow' with hsame | ⟨data, -, rfl, -⟩
    · exact hsame
    · exact absurd hk (lt_irrefl _)

theorem rollback_later (w : World ι) (i : ι) : Later w (w.rollback i) where
  now := le_rfl
  users := fun _ _ hu ↦ hu
  next := le_rfl
  rows := by
    intro k row hrow _
    have hsaved : ((w.otpCodes.rollback i).cell k).stored = some row := hrow
    rw [Table.rollback_cell, Cell.rollback_stored] at hsaved
    exact ⟨row, hsaved, rfl⟩

/-- What was executed is in the record, as it was executed. -/
structure Chronicle (crypto : Crypto) (s : State Statements ι (World ι)) : Prop where
  rooted : s.shared.Rooted OtpCode.birth
  executed : ∀ e ∈ s.log, ∃ x, exec crypto e.thread x e.op e.before = some (e.resp, e.after)
  later : ∀ e ∈ s.log, Later e.after s.shared

/-- Nothing has been recorded at the beginning. -/
theorem chronicle_start (now : ℤ) (countries : List Country) :
    Chronicle crypto (⟨.empty now countries, []⟩ : State Statements ι (World ι)) where
  rooted := fun _ _ _ h ↦ (by cases h)
  executed := fun _ h ↦ absurd h List.not_mem_nil
  later := fun _ h ↦ absurd h List.not_mem_nil

/-- A statement is recorded with its store. -/
theorem Chronicle.after {s : State Statements ι (World ι)} (hs : Chronicle crypto s)
    (h : exec crypto i x op s.shared = some (r, t)) : Chronicle crypto (s.after i op r t) where
  rooted := exec_rooted birth_keptInTx h hs.rooted
  executed := by
    intro e he
    rw [State.after_log, List.mem_append, List.mem_singleton] at he
    rcases he with he | rfl
    · exact hs.executed e he
    · exact ⟨x, h⟩
  later := by
    intro e he
    rw [State.after_log, List.mem_append, List.mem_singleton] at he
    rcases he with he | rfl
    · exact (hs.later e he).trans (exec_later h hs.rooted)
    · exact .refl t

/-- A thread that is lost leaves its record. -/
theorem Chronicle.lost {s : State Statements ι (World ι)} (hs : Chronicle crypto s) (i : ι) :
    Chronicle crypto (s.setShared (s.shared.rollback i)) where
  rooted := rollback_rooted hs.rooted i
  executed := hs.executed
  later := fun e he ↦ (hs.later e he).trans (rollback_later s.shared i)

/-- What a thread was answered was answered by a statement. -/
theorem Chronicle.exchange {s : State Statements ι (World ι)} (hs : Chronicle crypto s)
    {op : Op} {a : op.Ret} (h : (⟨op, .ok a⟩ : Exchange Statements) ∈ s.trace i) :
    ∃ e ∈ s.history i, e.op = op ∧ ∃ x, Later e.after s.shared ∧
      perform crypto i x (e.before.elapse x.elapse) op = some (.ok a, e.after) := by
  obtain ⟨e, he, heq⟩ := List.mem_map.1 h
  obtain ⟨hlog, rfl⟩ := State.mem_history.1 he
  obtain ⟨x, hx⟩ := hs.executed e hlog
  obtain ⟨hop, hresp⟩ := Sigma.mk.inj_iff.1 heq
  subst hop
  have hanswer : e.resp = .ok a := eq_of_heq hresp
  rw [hanswer] at hx
  exact ⟨e, he, rfl, x, hs.later e hlog, perform_of_exec_ok hx⟩

end Stead
