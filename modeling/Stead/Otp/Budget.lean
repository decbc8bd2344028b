import Stead.Otp.Guesses
import Stead.Otp.Rows

/-!
# The budget of guesses

The wrong codes that are compared with a row, and the attempts stored in it. They agree where a call
compares a code only while the count it has read is the one stored and nobody owes the row an
attempt (`withinBudget_of_accounted`). Calls that read the same count break the budget
(`guesses_race`).

## Accounts

A call that has compared a wrong code owes the row an attempt until it records it (`owes`). Of a row
`Accounts` says that the wrong codes are the attempts stored and those owed, and that one call owes
at most; so a call that reads a count below the limit compares the next code within the budget. An
attempt that is recorded is one more than what the call has read, which the condition makes one more
than what is stored.

## The condition

`accounted` allows a comparison when nothing is owed and the count is current, in the state before
the comparison. Beyond that an attempt is not lost, by a statement that fails or by a call that
stops while it owes one: the wrong code would have been compared without being counted.
-/

namespace Stead

open Concurrency

section Budget

variable {ι : Type} [DecidableEq ι] {crypto : Crypto} {i j : ι} {x : Choice} {op : Op}
  {w t : World ι} {r : Except StatementError op.Ret} {config : Config} {s : History ι} {k : ℕ}

/-! ### Wrong codes -/

/-- A comparison of row `k` with another code. -/
def comparesWrong (k : ℕ) : Exchange Statements → Bool
  | ⟨.host (.bcryptCompare id _ _), r⟩ => id = k && isWrong r
  | _ => false

/-- How many wrong codes were compared with row `k`. -/
def wrongCodes (s : History ι) (k : ℕ) : ℕ :=
  s.log.countP fun e ↦ comparesWrong k ⟨e.op, e.resp⟩

/-- The attempt thread `i` owes. -/
def owes (s : History ι) (i : ι) : Option (ℕ × ℕ) := (debt (s.trace i)).owed

omit [DecidableEq ι] in
/-- A comparison with a wrong code counts. -/
theorem wrongCodes_after (s : History ι) (i : ι) (op : Op) (r : Except StatementError op.Ret)
    (t : World ι) (k : ℕ) : wrongCodes (s.after i op r t) k =
      wrongCodes s k + if comparesWrong k ⟨op, r⟩ then 1 else 0 := by
  rw [wrongCodes, State.after_log, List.countP_append, List.countP_singleton]
  rfl

theorem owes_after_self (s : History ι) (i : ι) (op : Op) (r : Except StatementError op.Ret)
    (t : World ι) : owes (s.after i op r t) i = ((debt (s.trace i)).after ⟨op, r⟩).owed := by
  rw [owes, State.after_trace_self, debt_append]

theorem owes_after_of_ne (s : History ι) (h : j ≠ i) (op : Op) (r : Except StatementError op.Ret)
    (t : World ι) : owes (s.after i op r t) j = owes s j := by
  rw [owes, State.after_trace_of_ne _ (Ne.symm h), owes]

/-- Only a comparison and a record change what is owed. -/
theorem Debt.after_owed {d : Debt} {e : Exchange Statements}
    (hcompare : ∀ id, comparesWrong id e = false)
    (hrecord : ∀ id n c, e.1 ≠ .otpCode (.recordAttempt id n c)) : (d.after e).owed = d.owed := by
  unfold Debt.after
  split
  · rfl
  · next id otp codeHash r =>
    have hright : isWrong r = false := by simpa [comparesWrong] using hcompare id
    simp [hright]
  · exact absurd rfl (hrecord _ _ _)
  · rfl

/-! ### What the statements of a guess do -/

theorem exec_bcryptCompare {id : ℕ} {otp : String} {codeHash : Digest}
    {r : Except StatementError Bool}
    (h : exec crypto i x (.host (.bcryptCompare id otp codeHash)) w = some (r, t)) :
    r = .ok (crypto.bcryptCompare otp codeHash) ∧ t = w.elapse x.elapse := by
  cases h
  exact ⟨rfl, rfl⟩

/-- An attempt that is recorded is stored. -/
theorem exec_recordAttempt {n : ℕ} {c : Option ℤ} {r : Except StatementError Unit}
    (h : exec crypto i x (.otpCode (.recordAttempt k n c)) w = some (r, t))
    (hx : x.fault ≠ .before) {row : OtpCode} (hrow : t.otpCodes.stored k = some row) :
    row.verifyAttempts = n := by
  have hperform : ∃ r, perform crypto i x (w.elapse x.elapse) (.otpCode (.recordAttempt k n c)) =
      some (r, t) := by
    simp only [exec, Op.fragile, if_true] at h
    cases hf : x.fault with
    | none =>
      rw [hf] at h
      exact ⟨_, h⟩
    | before => exact absurd hf hx
    | after =>
      rw [hf] at h
      obtain ⟨out, hout, heq⟩ := Option.map_eq_some_iff.1 h
      cases heq
      exact ⟨_, hout⟩
  obtain ⟨r', hp⟩ := hperform
  have hcell : (t.otpCodes.cell k).stored = some row := hrow
  simp only [perform, OtpCodeStatement.perform] at hp
  split at hp
  · next otpCodes hu =>
    cases hp
    rcases Table.updateId_cases hu with ⟨hb, -⟩ | ⟨-, -, -, row₀, -, -, -, heq⟩
    · cases hb
    · rw [heq] at hcell
      obtain rfl := Option.some.inj hcell
      rfl
  · next otpCodes hu =>
    cases hp
    rcases Table.updateId_cases hu with ⟨-, -, hnone⟩ | ⟨hb, -⟩
    · have hfound : (w.elapse x.elapse).otpCodes.selectId none k (fun _ ↦ true) = some row :=
        Table.selectId_eq_some.2 ⟨(Cell.view_none _).trans hcell, rfl⟩
      rw [hnone] at hfound
      cases hfound
    · cases hb
  · cases hp

/-! ### The books -/

/-- The books on row `k`: the stored count is the number of wrong codes, or one call owes the row
the last of them, and nobody else owes it any. -/
def Balanced (s : History ι) (k : ℕ) (row : OtpCode) : Prop :=
  (wrongCodes s k = row.verifyAttempts ∧ ∀ i n, owes s i ≠ some (k, n)) ∨
    ∃ i, owes s i = some (k, row.verifyAttempts + 1) ∧
      wrongCodes s k = row.verifyAttempts + 1 ∧ ∀ j, j ≠ i → ∀ n, owes s j ≠ some (k, n)

/-- The books on all rows. A row that is yet to be created has none, and no row has had more wrong
codes than the limit. -/
structure Accounts (config : Config) (s : History ι) : Prop where
  rooted : s.shared.Rooted OtpCode.verifyAttempts
  balanced : ∀ k row, s.shared.otpCodes.stored k = some row → Balanced s k row
  unborn : ∀ k, s.shared.otpCodes.next ≤ k → wrongCodes s k = 0 ∧ ∀ i n, owes s i ≠ some (k, n)
  bounded : ∀ k, wrongCodes s k ≤ config.otpMaxVerifyAttempts

/-- A code is compared with a row right after the row was found live, while the count found is the
one stored and nobody owes the row an attempt. An attempt is not lost, and a call that owes one
does not crash. -/
def accounted (crypto : Crypto) : Weather ι where
  stmt i x op s :=
    (∀ k otp codeHash, op = .host (.bcryptCompare k otp codeHash) →
      crypto.bcryptCompare otp codeHash = false → ∃ record row,
        (debt (s.trace i)).read = some record ∧ s.shared.otpCodes.stored k = some row ∧
          record.row.verifyAttempts = row.verifyAttempts ∧ ∀ j n, owes s j ≠ some (k, n)) ∧
      ∀ k n c, op = .otpCode (.recordAttempt k n c) → x.fault ≠ .before
  crash i s := owes s i = none

/-- The stored counts of a state are no greater in another. -/
def NoFewer (w t : World ι) : Prop :=
  ∀ k row row', w.otpCodes.stored k = some row → t.otpCodes.stored k = some row' →
    row.verifyAttempts ≤ row'.verifyAttempts

/-- The books of a row that a step leaves alone, and of one it creates. -/
theorem Accounts.carry (hs : Accounts config s) {s' : History ι} (touched : ℕ → Prop)
    (hrooted : s'.shared.Rooted OtpCode.verifyAttempts)
    (hnext : s.shared.otpCodes.next ≤ s'.shared.otpCodes.next)
    (hsame : ∀ k, ¬ touched k → wrongCodes s' k = wrongCodes s k ∧
      ∀ j n, owes s' j = some (k, n) ↔ owes s j = some (k, n))
    (hrows : ∀ k row, ¬ touched k → s'.shared.otpCodes.stored k = some row →
      (∃ row₀, s.shared.otpCodes.stored k = some row₀ ∧
        row.verifyAttempts = row₀.verifyAttempts) ∨
          k = s.shared.otpCodes.next ∧ row.verifyAttempts = 0)
    (htouched : ∀ k, touched k → k < s.shared.otpCodes.next ∧
      wrongCodes s' k ≤ config.otpMaxVerifyAttempts ∧
        ∀ row, s'.shared.otpCodes.stored k = some row → Balanced s' k row) :
    Accounts config s' where
  rooted := hrooted
  balanced := by
    intro k row hrow
    by_cases hk : touched k
    · exact (htouched k hk).2.2 row hrow
    obtain ⟨hcodes, howes⟩ := hsame k hk
    rcases hrows k row hk hrow with ⟨row₀, hrow₀, hcount⟩ | ⟨hnew, hcount⟩
    · rcases hs.balanced k row₀ hrow₀ with ⟨hpaid, hfree⟩ | ⟨j, hj, hpaid, hfree⟩
      · exact .inl ⟨by rw [hcodes, hpaid, hcount], fun j n h ↦ hfree j n ((howes j n).1 h)⟩
      · exact .inr ⟨j, by rw [hcount]; exact (howes j _).2 hj, by rw [hcodes, hpaid, hcount],
          fun j' hj' n h ↦ hfree j' hj' n ((howes j' n).1 h)⟩
    · obtain ⟨hzero, hfree⟩ := hs.unborn k hnew.ge
      exact .inl ⟨by rw [hcodes, hzero, hcount], fun j n h ↦ hfree j n ((howes j n).1 h)⟩
  unborn := by
    intro k hk
    have hle : s.shared.otpCodes.next ≤ k := hnext.trans hk
    have hnot : ¬ touched k := fun h ↦ absurd (htouched k h).1 (not_lt.2 hle)
    obtain ⟨hzero, hfree⟩ := hs.unborn k hle
    obtain ⟨hcodes, howes⟩ := hsame k hnot
    exact ⟨hcodes.trans hzero, fun j n h ↦ hfree j n ((howes j n).1 h)⟩
  bounded := by
    intro k
    by_cases hk : touched k
    · exact (htouched k hk).2.1
    · exact (hsame k hk).1.trans_le (hs.bounded k)

/-- A row that is owed an attempt has been created. -/
theorem Accounts.lt_next (hs : Accounts config s) {n : ℕ} (h : owes s i = some (k, n)) :
    k < s.shared.otpCodes.next := by
  by_contra hlt
  exact (hs.unborn k (not_lt.1 hlt)).2 i n h

/-- **A wrong code.** The call owes the row the attempt. -/
theorem Accounts.compared (hs : Accounts config s) {otp : String} {codeHash : Digest}
    (hop : GuessStatement config (s.trace i) (.host (.bcryptCompare k otp codeHash)))
    (ha : ∃ record row, (debt (s.trace i)).read = some record ∧
      s.shared.otpCodes.stored k = some row ∧ record.row.verifyAttempts = row.verifyAttempts ∧
        ∀ j n, owes s j ≠ some (k, n)) :
    Accounts config (s.after i (.host (.bcryptCompare k otp codeHash)) (.ok false)
      (s.shared.elapse x.elapse)) := by
  obtain ⟨record, row, hread, hrow, hcount, hfree⟩ := ha
  obtain ⟨howes, hbelow⟩ := hop.compared k otp codeHash record rfl hread
  have hlt : k < s.shared.otpCodes.next := Table.lt_next_of_cell fun hempty ↦ by
    rw [Table.stored, hempty] at hrow
    cases hrow
  have hcodes : wrongCodes s k = row.verifyAttempts := by
    rcases hs.balanced k row hrow with ⟨hcodes, -⟩ | ⟨j, hj, -⟩
    · exact hcodes
    · exact absurd hj (hfree j _)
  set s' := s.after i (.host (.bcryptCompare k otp codeHash)) (.ok false)
    (s.shared.elapse x.elapse) with hs'
  have howed : owes s' i = some (k, row.verifyAttempts + 1) := by
    rw [hs', owes_after_self, ← hcount]
    simp [Debt.after, isWrong, hread]
  have hafter : ∀ k', wrongCodes s' k' = wrongCodes s k' + if k = k' then 1 else 0 := by
    intro k'
    rw [hs', wrongCodes_after]
    simp [comparesWrong, isWrong]
  refine hs.carry (· = k) hs.rooted le_rfl (fun k' hne ↦ ⟨?_, fun j n ↦ ?_⟩)
    (fun k' row' _ hrow' ↦ .inl ⟨row', hrow', rfl⟩) fun k' hk' ↦ ?_
  · rw [hafter, if_neg (Ne.symm hne), Nat.add_zero]
  · by_cases hj : j = i
    · subst hj
      have hnone : owes s j = none := howes
      rw [howed, hnone]
      simp [Ne.symm hne]
    · rw [hs', owes_after_of_ne _ hj]
  · subst hk'
    have hnow : wrongCodes s' k' = row.verifyAttempts + 1 := by rw [hafter, if_pos rfl, hcodes]
    refine ⟨hlt, ?_, fun row' hrow' ↦ ?_⟩
    · omega
    · obtain rfl := Option.some.inj (hrow.symm.trans hrow')
      refine .inr ⟨i, howed, hnow, fun j hj n ↦ ?_⟩
      rw [hs', owes_after_of_ne _ hj]
      exact hfree j n

/-- **An attempt that is recorded.** -/
theorem Accounts.recorded (hs : Accounts config s) {n : ℕ} {c : Option ℤ}
    {r : Except StatementError Unit} (howes : owes s i = some (k, n)) (hx : x.fault ≠ .before)
    (h : exec crypto i x (.otpCode (.recordAttempt k n c)) s.shared = some (r, t)) :
    Accounts config (s.after i (.otpCode (.recordAttempt k n c)) r t) ∧ NoFewer s.shared t := by
  have hlt := hs.lt_next howes
  -- The attempt is owed by this call alone, and it carries the number that the row lacks.
  have hcount : ∀ row, s.shared.otpCodes.stored k = some row →
      n = row.verifyAttempts + 1 ∧ wrongCodes s k = n ∧ ∀ j, j ≠ i → ∀ m, owes s j ≠ some (k, m) := by
    intro row hrow
    rcases hs.balanced k row hrow with ⟨-, hfree⟩ | ⟨j, hj, hpaid, hfree⟩
    · exact absurd howes (hfree i n)
    · obtain rfl : i = j := by
        by_contra hne
        exact hfree i hne n howes
      have hn : n = row.verifyAttempts + 1 :=
        congrArg Prod.snd (Option.some.inj (howes.symm.trans hj))
      exact ⟨hn, hn ▸ hpaid, hfree⟩
  -- The statement moves the count of its own row only; a new row begins at nought.
  have hrows : ∀ k' row, t.otpCodes.stored k' = some row →
      (∃ row₀, s.shared.otpCodes.stored k' = some row₀ ∧
        row.verifyAttempts = if k' = k then n else row₀.verifyAttempts) ∨
          k' = s.shared.otpCodes.next ∧ row.verifyAttempts = 0 := by
    intro k' row hrow
    rcases exec_verifyAttempts h hs.rooted hrow with
      ⟨row₀, hrow₀, heq⟩ | ⟨n', c', row₀, hop, hrow₀, heq⟩ | hnew
    · refine .inl ⟨row₀, hrow₀, ?_⟩
      split
      · next hk =>
        subst hk
        exact exec_recordAttempt h hx hrow
      · exact heq
    · cases hop
      exact .inl ⟨row₀, hrow₀, by rw [if_pos rfl, heq]⟩
    · exact .inr hnew
  set s' := s.after i (.otpCode (.recordAttempt k n c)) r t with hs'
  have howed : owes s' i = none := by
    rw [hs', owes_after_self]
    rfl
  have hafter : ∀ k', wrongCodes s' k' = wrongCodes s k' := by
    intro k'
    rw [hs', wrongCodes_after]
    simp [comparesWrong]
  refine ⟨hs.carry (· = k) (exec_rooted verifyAttempts_keptInTx h hs.rooted)
    (exec_otpCodes_next h) (fun k' hne ↦ ⟨hafter k', fun j m ↦ ?_⟩) (fun k' row hne hrow ↦ ?_)
    fun k' hk' ↦ ?_, fun k' row row' hrow hrow' ↦ ?_⟩
  -- At the other rows nobody's debts have changed.
  · by_cases hj : j = i
    · subst hj
      rw [howed, howes]
      simp [Ne.symm hne]
    · rw [hs', owes_after_of_ne _ hj]
  · rcases hrows k' row hrow with ⟨row₀, hrow₀, heq⟩ | hnew
    · exact .inl ⟨row₀, hrow₀, by rw [heq, if_neg hne]⟩
    · exact .inr hnew
  -- At the row itself the debt is paid: the count has caught up with the comparisons.
  · subst hk'
    refine ⟨hlt, (hafter k').trans_le (hs.bounded k'), fun row hrow ↦ ?_⟩
    rcases hrows k' row hrow with ⟨row₀, hrow₀, heq⟩ | ⟨hnew, -⟩
    · obtain ⟨-, hpaid, hfree⟩ := hcount row₀ hrow₀
      refine .inl ⟨by rw [hafter, hpaid, heq, if_pos rfl], fun j m ↦ ?_⟩
      by_cases hj : j = i
      · subst hj
        rw [howed]
        simp
      · rw [hs', owes_after_of_ne _ hj]
        exact hfree j hj m
    · exact absurd hnew hlt.ne
  · rcases hrows k' row' hrow' with ⟨row₀, hrow₀, heq⟩ | ⟨hnew, -⟩
    · obtain rfl := Option.some.inj (hrow.symm.trans hrow₀)
      by_cases hk : k' = k
      · subst hk
        rw [heq, if_pos rfl, (hcount row hrow).1]
        omega
      · rw [heq, if_neg hk]
    · have hempty : s.shared.otpCodes.stored k' = none :=
        congrArg Cell.stored (s.shared.otpCodes.fresh k' hnew.ge)
      rw [hempty] at hrow
      cases hrow

/-- **Every other statement.** -/
theorem Accounts.others (hs : Accounts config s)
    (hcompare : ∀ id, comparesWrong id ⟨op, r⟩ = false)
    (hrecord : ∀ id n c, op ≠ .otpCode (.recordAttempt id n c))
    (h : exec crypto i x op s.shared = some (r, t)) :
    Accounts config (s.after i op r t) ∧ NoFewer s.shared t := by
  have hrows : ∀ k row, t.otpCodes.stored k = some row →
      (∃ row₀, s.shared.otpCodes.stored k = some row₀ ∧
        row.verifyAttempts = row₀.verifyAttempts) ∨
          k = s.shared.otpCodes.next ∧ row.verifyAttempts = 0 := by
    intro k row hrow
    rcases exec_verifyAttempts h hs.rooted hrow with hsame | ⟨n, c, -, hop, -⟩ | hnew
    · exact .inl hsame
    · exact absurd hop (hrecord k n c)
    · exact .inr hnew
  refine ⟨hs.carry (fun _ ↦ False) (exec_rooted verifyAttempts_keptInTx h hs.rooted)
    (exec_otpCodes_next h) (fun k _ ↦ ⟨?_, fun j n ↦ ?_⟩) (fun k row _ hrow ↦ hrows k row hrow)
    fun _ hk ↦ hk.elim, fun k row row' hrow hrow' ↦ ?_⟩
  · rw [wrongCodes_after, hcompare k]
    simp
  · by_cases hj : j = i
    · subst hj
      rw [owes_after_self, Debt.after_owed hcompare hrecord, owes]
    · rw [owes_after_of_ne _ hj]
  · rcases hrows k row' hrow' with ⟨row₀, hrow₀, heq⟩ | ⟨hnew, -⟩
    · obtain rfl := Option.some.inj (hrow.symm.trans hrow₀)
      exact heq.ge
    · have hempty : s.shared.otpCodes.stored k = none :=
        congrArg Cell.stored (s.shared.otpCodes.fresh k hnew.ge)
      rw [hempty] at hrow
      cases hrow

/-- What counts is a comparison that was answered `false`. -/
theorem eq_of_comparesWrong {e : Exchange Statements} (h : comparesWrong k e = true) :
    ∃ otp codeHash, e = ⟨.host (.bcryptCompare k otp codeHash), .ok false⟩ := by
  unfold comparesWrong at h
  split at h
  · next id otp codeHash r =>
    simp only [Bool.and_eq_true, decide_eq_true_eq] at h
    obtain ⟨rfl, hr⟩ := h
    cases r with
    | ok ok =>
      cases ok with
      | true => cases hr
      | false => exact ⟨otp, codeHash, rfl⟩
    | error e => cases hr
  · cases h

/-- **One statement.** -/
theorem Accounts.after (hs : Accounts config s) (hop : GuessStatement config (s.trace i) op)
    (ha : (accounted crypto).stmt i x op s) (hx : exec crypto i x op s.shared = some (r, t)) :
    Accounts config (s.after i op r t) ∧ NoFewer s.shared t := by
  by_cases hwrong : ∃ k, comparesWrong k ⟨op, r⟩ = true
  · obtain ⟨k, hk⟩ := hwrong
    obtain ⟨otp, codeHash, heq⟩ := eq_of_comparesWrong hk
    cases heq
    obtain ⟨hanswer, rfl⟩ := exec_bcryptCompare hx
    refine ⟨hs.compared hop (ha.1 k otp codeHash rfl (Except.ok.inj hanswer).symm), ?_⟩
    intro k' row row' hrow hrow'
    have heq : s.shared.otpCodes.stored k' = some row' := hrow'
    obtain rfl := Option.some.inj (hrow.symm.trans heq)
    exact le_rfl
  by_cases hrecord : ∃ k n c, op = .otpCode (.recordAttempt k n c)
  · obtain ⟨k, n, c, rfl⟩ := hrecord
    exact hs.recorded (hop.recorded k n c rfl) (ha.2 k n c rfl) hx
  · exact hs.others (fun id ↦ Bool.eq_false_iff.2 fun h ↦ hwrong ⟨id, h⟩)
      (fun id n c h ↦ hrecord ⟨id, n, c, h⟩) hx

/-- A thread that is lost changes no books. -/
theorem Accounts.lost (hs : Accounts config s) (i : ι) :
    Accounts config (s.setShared (s.shared.rollback i)) ∧
      NoFewer s.shared (s.shared.rollback i) := by
  have hrows : ∀ k row, (s.shared.rollback i).otpCodes.stored k = some row →
      s.shared.otpCodes.stored k = some row := by
    intro k row hrow
    have hsaved : ((s.shared.otpCodes.rollback i).cell k).stored = some row := hrow
    rwa [Table.rollback_cell, Cell.rollback_stored] at hsaved
  refine ⟨hs.carry (fun _ ↦ False) (rollback_rooted hs.rooted i) le_rfl
    (fun _ _ ↦ ⟨rfl, fun _ _ ↦ .rfl⟩) (fun k row _ hrow ↦ .inl ⟨row, hrows k row hrow, rfl⟩)
    fun _ hk ↦ hk.elim, fun k row row' hrow hrow' ↦ ?_⟩
  obtain rfl := Option.some.inj (hrow.symm.trans (hrows k row' hrow'))
  exact le_rfl

/-- At the beginning there are no rows and no debts. -/
theorem accounts_start (now : ℤ) (countries : List Country) :
    Accounts config (⟨.empty now countries, []⟩ : History ι) where
  rooted := fun _ _ _ h ↦ (by cases h)
  balanced := fun _ _ h ↦ (by cases h)
  unborn := fun _ _ ↦ ⟨rfl, fun _ _ h ↦ (by cases h)⟩
  bounded := fun _ ↦ Nat.zero_le _

/-! ### Runs -/

omit [DecidableEq ι] in
theorem NoFewer.trans {w' : World ι} (h : NoFewer w w') (h' : NoFewer w' t) (hl : Later w w')
    (hl' : Later w' t) : NoFewer w t := by
  intro k row row'' hrow hrow''
  have hlt : k < w.otpCodes.next := Table.lt_next_of_cell fun hempty ↦ by
    rw [Table.stored, hempty] at hrow
    cases hrow
  obtain ⟨row', hrow', -⟩ := hl'.rows k row'' hrow'' (hlt.trans_le hl.next)
  exact (h k row row' hrow hrow').trans (h' k row' row'' hrow' hrow'')

/-- No call is under way. -/
def NoneUnderWay (c : System ι) : Prop := ∀ i op p, c.progs i ≠ some (.stmt op p)

/-- The budget of guesses, of two states of one run: no row has had more wrong codes than the limit,
the stored counts have not gone down, and when no call is under way they are the numbers of wrong
codes. -/
structure WithinBudget (config : Config) (c c' : System ι) : Prop where
  bounded : ∀ k, wrongCodes c'.state k ≤ config.otpMaxVerifyAttempts
  monotone : NoFewer c.state.shared c'.state.shared
  settled : NoneUnderWay c' → ∀ k row, c'.state.shared.otpCodes.stored k = some row →
    row.verifyAttempts = min (wrongCodes c'.state k) config.otpMaxVerifyAttempts

/-- The system between two statements, since `w₀`. -/
structure Booked (crypto : Crypto) (config : Config) (w₀ : World ι) (s : History ι) : Prop where
  chronicle : Chronicle crypto s
  accounts : Accounts config s
  later : Later w₀ s.shared
  noFewer : NoFewer w₀ s.shared

theorem Booked.after {w₀ : World ι} (hs : Booked crypto config w₀ s)
    (hop : GuessStatement config (s.trace i) op) (ha : (accounted crypto).stmt i x op s)
    (hx : exec crypto i x op s.shared = some (r, t)) :
    Booked crypto config w₀ (s.after i op r t) := by
  have hlater := exec_later hx hs.chronicle.rooted
  obtain ⟨haccounts, hfewer⟩ := hs.accounts.after hop ha hx
  exact ⟨hs.chronicle.after hx, haccounts, hs.later.trans hlater,
    hs.noFewer.trans hfewer hs.later hlater⟩

theorem Booked.lost {w₀ : World ι} (hs : Booked crypto config w₀ s) (i : ι) :
    Booked crypto config w₀ (s.setShared (s.shared.rollback i)) := by
  have hlater := rollback_later s.shared i
  obtain ⟨haccounts, hfewer⟩ := hs.accounts.lost i
  exact ⟨hs.chronicle.lost i, haccounts, hs.later.trans hlater,
    hs.noFewer.trans hfewer hs.later hlater⟩

/-- The clock never fails. -/
theorem Chronicle.now_ok (hs : Chronicle crypto s) {e : StatementError} :
    (⟨.host .now, .error e⟩ : Exchange Statements) ∉ s.trace i := by
  intro h
  obtain ⟨event, he, heq⟩ := List.mem_map.1 h
  obtain ⟨hlog, rfl⟩ := State.mem_history.1 he
  obtain ⟨x, hx⟩ := hs.executed event hlog
  obtain ⟨j, before, op, resp, after⟩ := event
  cases heq
  cases hx

/-- A call that has crashed owes nothing. -/
theorem owes_of_crashed {env : Env} {c c' : System ι}
    (h : System.Reaches env (accounted env.crypto) c c')
    (hc : ∀ i, c.progs i = none → owes c.state i = none) :
    ∀ i, c'.progs i = none → owes c'.state i = none := by
  induction h with
  | refl => exact hc
  | tail _ hstep ih =>
    intro j hj
    cases hstep with
    | @stmt i x op k r t hp ha hx =>
      by_cases hji : j = i
      · subst hji
        rw [Config.after_progs_self] at hj
        cases hj
      · rw [Config.after_progs_of_ne _ hji] at hj
        rw [Config.after_state, owes_after_of_ne _ hji]
        exact ih j hj
    | @crash i op k hp ha =>
      by_cases hji : j = i
      · subst hji
        exact ha
      · rw [Config.lose_progs_of_ne _ hji] at hj
        exact ih j hj

/-- **The budget holds where the books are kept.** In every run, with any calls, in which a wrong
code is compared with a row only right after the row was found live, with a count that is the one
stored, and while nobody owes the row an attempt, and in which no attempt is lost. -/
theorem withinBudget_of_accounted (env : Env) (now : ℤ) (countries : List Country)
    (calls : ι → ApiCall) {c c' : System ι}
    (hc : System.Reaches env (accounted env.crypto)
      (System.start env (.empty now countries) calls) c)
    (hc' : System.Reaches env (accounted env.crypto) c c') :
    WithinBudget env.config c c' := by
  have hstart : (System.start env (.empty now countries) calls).Keeps
      (fun _ ↦ GuessStatement env.config) (fun _ trace _ ↦ Ended trace)
      fun _ trace _ ↦ Ended trace := Config.keeps_start fun i ↦ program_guesses (calls i)
  -- The run is cut at `c`: the books are opened at the beginning, and again there.
  have hfirst := Run.invariant_keeps
    (I := fun s ↦ Booked env.crypto env.config (.empty now countries) s) hc hstart
    ⟨chronicle_start now countries, accounts_start now countries, .refl _,
      fun _ _ _ h ↦ (by cases h)⟩
    (fun _ _ _ _ _ _ hs hop ha hx ↦ hs.after hop ha hx) fun _ i hs _ ↦ hs.lost i
  have hsecond := Run.invariant_keeps
    (I := fun s ↦ Booked env.crypto env.config c.state.shared s) hc' hfirst.2
    ⟨hfirst.1.chronicle, hfirst.1.accounts, .refl _, fun k row row' hrow hrow' ↦ by
      obtain rfl := Option.some.inj (hrow.symm.trans hrow')
      exact le_rfl⟩
    (fun _ _ _ _ _ _ hs hop ha hx ↦ hs.after hop ha hx) fun _ i hs _ ↦ hs.lost i
  obtain ⟨hbooked, hkeeps⟩ := hsecond
  refine ⟨hbooked.accounts.bounded, hbooked.noFewer, fun hquiet k row hrow ↦ ?_⟩
  -- A thread that has ended, or crashed, owes nothing.
  have hpaid : ∀ i, owes c'.state i = none := by
    intro i
    have hended : ∀ {p : Call ApiResponse}, c'.progs i = some p → Ended (c'.state.trace i) := by
      intro p hp
      have hp' := hkeeps i p hp
      cases p with
      | pure a => exact hp'
      | throw e => exact hp'
      | stmt op k => exact absurd hp (hquiet i op k)
    cases hp : c'.progs i with
    | none => exact owes_of_crashed (hc.trans hc') (fun _ h ↦ (by cases h)) i hp
    | some p =>
      rcases hended hp with howed | ⟨e, he⟩
      · exact howed
      · exact absurd he hbooked.chronicle.now_ok
  rcases hbooked.accounts.balanced k row hrow with ⟨hcodes, -⟩ | ⟨i, hi, -⟩
  · rw [min_eq_left (hbooked.accounts.bounded k), hcodes]
  · rw [hpaid i] at hi
    cases hi

end Budget

namespace Demo

/-- A request for a code, and a call that tries another code. -/
def guessCalls : Bool → ApiCall
  | false => requestOtp '0'
  | true => .verifyOtp "+1" "NG" "0" { idempotencyKey := some (key '1') }

/-- Two verifications of one code. -/
def guessStart : System Bool := System.start env (.empty 0 [⟨"NG", true⟩]) guessCalls

/-- The request, and then the guess. -/
def guessTurns : List (Turn Bool Choice) :=
  List.replicate 18 ⟨false, {}⟩ ++ List.replicate 8 ⟨true, {}⟩

/-- A comparison while the books are kept, as a test. -/
def allowAccounted : Bool → Op → History Bool → Bool
  | i, .host (.bcryptCompare k otp codeHash), s =>
    crypto.bcryptCompare otp codeHash ||
      ((debt (s.trace i)).read.any fun record ↦ (s.shared.otpCodes.stored k).any fun row ↦
        record.row.verifyAttempts = row.verifyAttempts) &&
      [false, true].all fun j ↦ (owes s j).all fun d ↦ d.1 ≠ k
  | _, _, _ => true

theorem allowAccounted_stmt {i : Bool} {x : Choice} {op : Op} {s : History Bool}
    (h : allowAccounted i op s = true) (hx : x.fault ≠ .before) :
    (accounted crypto).stmt i x op s := by
  refine ⟨?_, fun _ _ _ _ ↦ hx⟩
  rintro k otp codeHash rfl hwrong
  simp only [allowAccounted, hwrong, Bool.false_or, Bool.and_eq_true, List.all_eq_true] at h
  obtain ⟨hread, hfree⟩ := h
  obtain ⟨record, hrecord, hread⟩ := (Option.any_eq_true _ _).1 hread
  obtain ⟨row, hrow, hcount⟩ := (Option.any_eq_true _ _).1 hread
  refine ⟨record, row, hrecord, hrow, of_decide_eq_true hcount, fun j n hj ↦ ?_⟩
  have hnot := hfree j (by cases j <;> simp)
  rw [hj] at hnot
  simp at hnot

theorem guess_runs : (guessStart.turns (machine Bool crypto) allowAccounted guessTurns).isSome := by
  decide +kernel

end Demo

/-- The row has two wrong codes and two attempts. -/
theorem withinBudget_of_accounted_guess : WithinBudget Demo.env.config Demo.guessStart
    (Demo.guessStart.afterTurns (machine Bool Demo.crypto) Demo.allowAccounted _
      Demo.guess_runs) :=
  withinBudget_of_accounted Demo.env 0 [⟨"NG", true⟩] Demo.guessCalls .refl
    (Config.run_schedule (fun a ha _ _ h ↦ Demo.allowAccounted_stmt h (by
      rcases List.mem_append.1 ha with ha | ha <;>
        rw [List.eq_of_mem_replicate ha] <;> exact (fun h ↦ (by cases h)))) Demo.guess_runs)

namespace Demo

/-- A request for a code, and any number of calls that try another one. -/
def manyGuesses : ℕ → ApiCall
  | 0 => requestOtp '0'
  | n => .verifyOtp "+1" "NG" "0" { idempotencyKey := some (key n.digitChar) }

/-- After the request six calls find the row, and each of them compares its code. -/
theorem guesses_run : ((System.start env world manyGuesses).turns (machine ℕ crypto) anything
    (steps 0 18 ++ [1, 2, 3, 4, 5, 6].flatMap (steps · 5) ++
      [1, 2, 3, 4, 5, 6].flatMap (steps · 1))).any (fun c ↦ wrongCodes c.state 0 = 6) = true := by
  decide +kernel

/-- Six wrong codes have been compared. -/
def guessed : System ℕ :=
  after (System.start env world manyGuesses) _ _ (Option.isSome_of_any guesses_run)

end Demo

/-- **Calls that find the row at the same time break the budget.** The limit is five wrong codes. -/
theorem guesses_race : ∃ c, System.Reaches Demo.env .all
    (System.start Demo.env Demo.world Demo.manyGuesses) c ∧
      ¬ WithinBudget Demo.env.config (System.start Demo.env Demo.world Demo.manyGuesses) c := by
  refine ⟨Demo.guessed, Demo.reaches_after _ _ _, fun h ↦ ?_⟩
  have hsix : wrongCodes Demo.guessed.state 0 = 6 :=
    of_decide_eq_true (Config.afterTurns_of_any Demo.guesses_run)
  have hbounded := h.bounded 0
  rw [hsix] at hbounded
  exact absurd hbounded (by decide)

end Stead
