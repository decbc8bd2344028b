import Stead.Model.Api

/-!
# What a step changes

For each table, everything one executed statement can make of one of its cells. These are the
inversion lemmas of the semantics: invariants are proved from them, and no later proof unfolds
`perform`.

## Cells

A statement that updates rows is described by who writes (`writer`) and by what it makes of a row
it sees (`OtpCodeEdit` and its like). `OtpCodeEffect`, `RefreshTokenEffect` and
`NotificationJobEffect` list the ways a cell can change; a failing statement, a lost answer and a
commit that turns into a rollback are covered.

## Statements

Each kind of statement has two lemmas: what it does to the cells of its own table
(`perform_otpCodes` and its like), and that it leaves the others alone (`perform_frame`).
`WorldEffect` puts them together, and `exec_cases` adds the weather: the statement waits, fails
before its effect, fails after it, or does what it does.

## What invariants use

The last section says for one executed statement of any kind what becomes of a cell of each table
(`exec_otpCodes`, `exec_refreshTokens`, `exec_notificationJobs`), of the locks, of the clock and of
the counters from which tokens and keys are drawn.
-/

namespace Stead

open Concurrency

variable {ι : Type}

/-- Who writes a row in a statement that takes part in a transaction or not. -/
def OtpCodeStatement.writer (i : ι) : OtpCodeStatement → Option ι
  | .retireLive tx _ _ _ => viewer i tx
  | .consume _ _ | .storeVerification _ _ => some i
  | _ => none

/-- What a statement makes of row number `k`, where it changes it. -/
inductive OtpCodeEdit (r : OtpCode) : OtpCodeStatement → ℕ → OtpCode → Prop
  | complete (k : ℕ) (at_ : ℤ) :
      OtpCodeEdit r (.complete k at_) k { r with requestCompletedAt := some at_ }
  | recordAttempt (k verifyAttempts : ℕ) (consumedAt : Option ℤ) :
      OtpCodeEdit r (.recordAttempt k verifyAttempts consumedAt) k
        { r with
          verifyAttempts := verifyAttempts
          consumedAt := consumedAt.orElse fun _ ↦ r.consumedAt }
  | retireLive (tx : Bool) (found : List ℕ) (userId : ℕ) (at_ : ℤ) (k : ℕ) (hk : k ∈ found)
      (hu : r.userId = userId) (hc : r.consumedAt = none) :
      OtpCodeEdit r (.retireLive tx found userId at_) k { r with consumedAt := some at_ }
  | consume (k : ℕ) (at_ : ℤ) (hl : r.live at_ = true) :
      OtpCodeEdit r (.consume k at_) k { r with consumedAt := some at_ }
  | storeVerification (k : ℕ) (data : Verification) :
      OtpCodeEdit r (.storeVerification k data) k (data.apply r)

/-- Who writes the rows a statement updates; an expired token is revoked outside transactions. -/
def RefreshTokenStatement.writer (i : ι) : RefreshTokenStatement → Option ι
  | .expire _ _ => none
  | _ => some i

/-- What a statement makes of row number `k`, where it changes it. -/
inductive RefreshTokenEdit (r : RefreshToken) : RefreshTokenStatement → ℕ → RefreshToken → Prop
  | expire (k : ℕ) (at_ : ℤ) :
      RefreshTokenEdit r (.expire k at_) k { r with revokedAt := some at_ }
  | claim (k : ℕ) (now familyCreatedAfter : ℤ)
      (hc : r.claimable now familyCreatedAfter = true) :
      RefreshTokenEdit r (.claim k now familyCreatedAfter) k { r with revokedAt := some now }
  | link (k replacedById : ℕ) :
      RefreshTokenEdit r (.link k replacedById) k { r with replacedById := some replacedById }
  | revoke (found : List ℕ) (scope : RevokeWhere) (at_ : ℤ) (k : ℕ) (hk : k ∈ found)
      (hc : scope.covers r = true) :
      RefreshTokenEdit r (.revoke found scope at_) k { r with revokedAt := some at_ }

/-- What a statement makes of row number `k`, where it changes it. -/
inductive NotificationJobEdit (j : NotificationJob) :
    NotificationJobStatement → ℕ → NotificationJob → Prop
  | adopt (k userId otpCodeId : ℕ) (dedupeKey : DedupeKey) (correlationId : ℕ)
      (hj : j.legacyOtpOf userId = true) :
      NotificationJobEdit j (.adopt k userId otpCodeId dedupeKey correlationId) k
        (j.link otpCodeId dedupeKey correlationId)
  | claim (k : ℕ) (now : ℤ) (hj : j.ready now = true) :
      NotificationJobEdit j (.claim k now) k { j with status := .processing, lockedAt := some now }
  | update (k : ℕ) (data : NotificationJobUpdate) :
      NotificationJobEdit j (.update k data) k (data.apply j)
  | redactTerminal (found : List ℕ) (k : ℕ) (hk : k ∈ found) (hj : j.unredacted = true) :
      NotificationJobEdit j (.redactTerminal found) k
        { j with payloadJson := REDACTED_PAYLOAD_JSON }

variable [DecidableEq ι]

/-- How a statement of thread `i` can change cell `k` of the OTP codes. -/
inductive OtpCodeEffect (i : ι) (w : World ι) (op : Op) (k : ℕ) (c c' : Cell ι OtpCode) : Prop
  | same (h : c' = c)
  | edit {s : OtpCodeStatement} {r r' : OtpCode} (hop : op = .otpCode s)
      (hv : c.view (s.writer i) = some r) (he : OtpCodeEdit r s k r')
      (hl : c.lockedFor (s.writer i) = false) (h : c' = c.write (s.writer i) r')
  | create {data : NewOtpCode} (hop : op = .otpCode (.create data)) (hk : k = w.otpCodes.next)
      (hu : (w.users.stored data.userId).isSome)
      (hfresh : ∀ id r, w.otpCodes.stored id = some r → r.requestKeyHash ≠ data.requestKeyHash)
      (hc : c = .empty) (h : c' = ⟨some (data.row w.now), none⟩)
  | delete {until_ : Option ℤ} {r : OtpCode}
      (hop : op = .otpCode (.deleteUncompleted k until_)) (hs : c.stored = some r)
      (hr : r.uncompleted until_ = true) (hp : c.pending = none)
      (hj : ∀ id j, w.notificationJobs.stored id = some j → j.otpCodeId ≠ some k)
      (h : c' = .empty)
  | commit (hop : op = .commit) (h : c' = c.commit i)
  | rollback (hop : op = .rollback ∨ op = .commit) (h : c' = c.rollback i)

/-- How a statement of thread `i` can change cell `k` of the refresh tokens. -/
inductive RefreshTokenEffect (i : ι) (w : World ι) (op : Op) (k : ℕ)
    (c c' : Cell ι RefreshToken) : Prop
  | same (h : c' = c)
  | edit {s : RefreshTokenStatement} {r r' : RefreshToken} (hop : op = .refreshToken s)
      (hv : c.view (s.writer i) = some r) (he : RefreshTokenEdit r s k r')
      (hl : c.lockedFor (s.writer i) = false) (h : c' = c.write (s.writer i) r')
  | create {data : NewRefreshToken} (hop : op = .refreshToken (.create data))
      (hk : k = w.refreshTokens.next)
      (hfree : ∀ id r, (w.refreshTokens.cell id).view (some i) = some r →
        r.tokenHash ≠ data.tokenHash)
      (hothers : ∀ id j r, w.refreshTokens.pending id = some (j, r) → j ≠ i →
        r.tokenHash ≠ data.tokenHash)
      (hc : c = .empty) (h : c' = ⟨none, some (i, data.row)⟩)
  | commit (hop : op = .commit) (h : c' = c.commit i)
  | rollback (hop : op = .rollback ∨ op = .commit) (h : c' = c.rollback i)

/-- How a statement can change row `k` of the notification jobs. Jobs are written outside
transactions only. -/
inductive NotificationJobEffect (w : World ι) (op : Op) (k : ℕ)
    (old new : Option NotificationJob) : Prop
  | same (h : new = old)
  | edit {s : NotificationJobStatement} {j j' : NotificationJob} (hop : op = .notificationJob s)
      (hj : old = some j) (he : NotificationJobEdit j s k j') (h : new = some j')
  | create {data : NewNotificationJob} (hop : op = .notificationJob (.create data))
      (hk : k = w.notificationJobs.next)
      (hfree : ∀ id j, w.notificationJobs.stored id = some j → (data.row w.now).clashes j = false)
      (hotp : ∀ id, data.otpCodeId = some id → (w.otpCodes.stored id).isSome)
      (hlinked : (data.row w.now).linked = true) (hold : old = none)
      (h : new = some (data.row w.now))

/-- What a statement that is executed without failing can change of the world: its own table only,
a commit and a rollback aside. -/
inductive WorldEffect (i : ι) (w : World ι) (op : Op) (t : World ι) : Prop
  | user {s users} (hop : op = .user s) (ht : t = { w with users })
      (hu : ∀ id u, w.users.stored id = some u → users.stored id = some u)
  | otpCode {s otpCodes} (hop : op = .otpCode s) (ht : t = { w with otpCodes })
  | authEvent {s authEvents} (hop : op = .authEvent s) (ht : t = { w with authEvents })
  | refreshToken {s refreshTokens} (hop : op = .refreshToken s) (ht : t = { w with refreshTokens })
  | notificationJob {s notificationJobs failureAttempts} (hop : op = .notificationJob s)
      (ht : t = { w with notificationJobs, failureAttempts })
  | host {s fresh} (hop : op = .host s) (hf : w.fresh ≤ fresh) (ht : t = { w with fresh })
  | lock {u} (hop : op = .lockRefreshUser u)
      (hu : w.advisoryLocks u = none ∨ w.advisoryLocks u = some i)
      (ht : t = { w with
        advisoryLocks := fun v ↦ if v = u then some i else w.advisoryLocks v })
  | commit (hop : op = .commit) (ht : t = w.commit i)
  | rollback (hop : op = .rollback) (ht : t = w.rollback i)
  | country {c} (hop : op = .country c) (ht : t = w)

/-! ### Statements that write one table -/

section Tables

variable {ρ : Type} {t t' : Table ι ρ} {w : Option ι} {p : ρ → Bool} {f : ρ → ρ}

/-- An update by number, cell by cell: each is as before or written. -/
theorem updateId_cell {id : ℕ} {b : Bool} (h : t.updateId w id p f = some (b, t')) (k : ℕ) :
    t'.cell k = t.cell k ∨ k = id ∧ Table.Wrote w p f (t.cell k) (t'.cell k) := by
  rcases Table.updateId_cases h with ⟨-, rfl, -⟩ | ⟨-, -, hk, hw⟩
  · exact .inl rfl
  · by_cases hkid : k = id
    · subst hkid
      exact .inr ⟨rfl, hw⟩
    · exact .inl (hk k hkid)

/-- What an `updateMany` leaves of a cell: the cell, or what it has written of a row it picked. -/
theorem updateMany_wrote {ids : List ℕ} {n : ℕ} (h : t.updateMany w ids p f = some (n, t'))
    (k : ℕ) : t'.cell k = t.cell k ∨ k ∈ ids ∧ Table.Wrote w p f (t.cell k) (t'.cell k) :=
  (Table.updateMany_cell h k).imp_left And.left

end Tables

section OtpCodes

variable {i : ι} {w : World ι} {t : World ι} {k : ℕ}

/-- An update of one OTP code is an edit. -/
theorem OtpCodeEffect.of_updateId {s : OtpCodeStatement} {v : Option ι} {id : ℕ}
    {p : OtpCode → Bool} {f : OtpCode → OtpCode} {b : Bool} {otpCodes : Table ι OtpCode}
    (h : w.otpCodes.updateId v id p f = some (b, otpCodes)) (hv : s.writer i = v)
    (he : ∀ r, p r = true → OtpCodeEdit r s id (f r)) :
    OtpCodeEffect i w (.otpCode s) k (w.otpCodes.cell k) (otpCodes.cell k) := by
  rcases updateId_cell h k with hk | ⟨rfl, r, hr, hp, hl, hc⟩
  · exact .same hk
  · subst hv
    exact .edit rfl hr (he r hp) hl hc

/-- **Statements on codes** change a code as `OtpCodeEdit` says. -/
theorem OtpCodeStatement.perform_otpCodes {s : OtpCodeStatement} {x : Choice}
    {r : Except StatementError s.Ret} (h : s.perform i x w = some (r, t)) :
    OtpCodeEffect i w (.otpCode s) k (w.otpCodes.cell k) (t.otpCodes.cell k) := by
  cases s with
  | findByRequestKey | findByVerificationKey | countSince | findLatestAfter | findLive
  | findUnconsumed =>
    cases h
    exact .same rfl
  | create data =>
    simp only [OtpCodeStatement.perform] at h
    split at h
    · cases h
    split at h
    · cases h
      exact .same rfl
    next hfree =>
    split at h
    · cases h
      exact .same rfl
    next hu =>
    cases h
    -- Only the row with the next number is new; the constraints were tested for it.
    by_cases hk : k = w.otpCodes.next
    · subst hk
      refine .create rfl rfl (by simpa [Option.isSome_iff_ne_none] using hu)
        (fun id r hr hkey ↦ hfree ?_) (w.otpCodes.fresh _ le_rfl) ?_
      · refine List.ne_nil_of_mem (a := ⟨id, r⟩) (Table.mem_select.2 ⟨?_, by simpa using hkey⟩)
        rwa [Cell.view_none]
      · rw [Table.insert_cell_self]
        rfl
    · exact .same (Table.insert_cell_of_ne _ _ _ hk)
  | complete id at_ =>
    simp only [OtpCodeStatement.perform] at h
    split at h <;> cases h
    · next hu => exact .of_updateId hu rfl fun r _ ↦ .complete _ _
    · exact .same rfl
  | recordAttempt id n c =>
    simp only [OtpCodeStatement.perform] at h
    split at h <;> cases h
    · next hu => exact .of_updateId hu rfl fun r _ ↦ .recordAttempt _ _ _
    · exact .same rfl
  | retireLive tx found u c =>
    simp only [OtpCodeStatement.perform] at h
    split at h <;> cases h
    -- Each row that the filter selects is edited under the lock of the transaction.
    next hu =>
    rcases updateMany_wrote hu k with hk | ⟨hk, r, hr, hp, hl, hc⟩
    · exact .same hk
    · rw [OtpCode.unconsumedOf, Bool.and_eq_true, decide_eq_true_eq,
        Option.isNone_iff_eq_none] at hp
      exact .edit rfl hr (.retireLive _ _ _ _ _ hk hp.1 hp.2) hl hc
  | consume id c =>
    simp only [OtpCodeStatement.perform] at h
    split at h <;> cases h
    next hu => exact .of_updateId hu rfl fun r hr ↦ .consume _ _ hr
  | storeVerification id data =>
    simp only [OtpCodeStatement.perform] at h
    split at h
    · cases h
    split at h
    · cases h
      exact .same rfl
    split at h <;> cases h
    · next hu => exact .of_updateId hu rfl fun r _ ↦ .storeVerification _ _
    · exact .same rfl
  | deleteUncompleted id u =>
    simp only [OtpCodeStatement.perform] at h
    split at h
    · cases h
      exact .same rfl
    next hj =>
    split at h <;> cases h
    next hd =>
    -- The deletion takes effect only where the subquery finds no job of the row.
    rcases Table.deleteId_cases hd with ⟨-, rfl⟩ | ⟨-, -, hk, hc, hl, r, hs, hr⟩
    · exact .same rfl
    · by_cases hkid : k = id
      · subst hkid
        refine .delete rfl hs hr ?_ (fun jid j hj' hcode ↦ hj ?_) hc
        · simpa using Cell.pending_of_not_locked hl
        · simp only [Bool.and_eq_true, decide_eq_true_eq]
          refine ⟨?_, List.ne_nil_of_mem (a := ⟨jid, j⟩) (Table.mem_select.2 ⟨?_, by simpa using hcode⟩)⟩
          · rw [Table.selectId, Cell.view_none]
            simp [hs, hr, Option.filter]
          · rwa [Cell.view_none]
      · exact .same (hk k hkid)

end OtpCodes

section RefreshTokens

variable {i : ι} {w : World ι} {t : World ι} {k : ℕ}

/-- An update of one refresh token is an edit. -/
theorem RefreshTokenEffect.of_updateId {s : RefreshTokenStatement} {v : Option ι} {id : ℕ}
    {p : RefreshToken → Bool} {f : RefreshToken → RefreshToken} {b : Bool}
    {refreshTokens : Table ι RefreshToken}
    (h : w.refreshTokens.updateId v id p f = some (b, refreshTokens)) (hv : s.writer i = v)
    (he : ∀ r, p r = true → RefreshTokenEdit r s id (f r)) :
    RefreshTokenEffect i w (.refreshToken s) k (w.refreshTokens.cell k)
      (refreshTokens.cell k) := by
  rcases updateId_cell h k with hk | ⟨rfl, r, hr, hp, hl, hc⟩
  · exact .same hk
  · subst hv
    exact .edit rfl hr (he r hp) hl hc

/-- **Statements on tokens** change a token as `RefreshTokenEdit` says. -/
theorem RefreshTokenStatement.perform_refreshTokens {s : RefreshTokenStatement} {x : Choice}
    {r : Except StatementError s.Ret} (h : s.perform i x w = some (r, t)) :
    RefreshTokenEffect i w (.refreshToken s) k (w.refreshTokens.cell k)
      (t.refreshTokens.cell k) := by
  cases s with
  | findByHash | familiesOfDevice | liveFamilies | findUnrevoked =>
    cases h
    exact .same rfl
  | expire id at_ =>
    simp only [RefreshTokenStatement.perform] at h
    split at h <;> cases h
    · next hu => exact .of_updateId hu rfl fun r _ ↦ .expire _ _
    · exact .same rfl
  | claim id now after =>
    simp only [RefreshTokenStatement.perform] at h
    split at h <;> cases h
    next hu => exact .of_updateId hu rfl fun r hr ↦ .claim _ _ _ hr
  | create data =>
    simp only [RefreshTokenStatement.perform] at h
    split at h
    · cases h
    next hcontended =>
    split at h
    · cases h
      exact .same rfl
    next hfree =>
    split at h
    · cases h
      exact .same rfl
    cases h
    by_cases hk : k = w.refreshTokens.next
    · subst hk
      refine .create rfl rfl (fun id r hr hhash ↦ hfree ?_) (fun id j r hr hj hhash ↦ ?_)
        (w.refreshTokens.fresh _ le_rfl) ?_
      · exact List.ne_nil_of_mem (a := ⟨id, r⟩) (Table.mem_select.2 ⟨hr, by simpa using hhash⟩)
      · have := Table.not_contended (by simpa using hcontended) hr (by simpa using hj)
        simp [hhash] at this
      · rw [Table.insert_cell_self]
        rfl
    · exact .same (Table.insert_cell_of_ne _ _ _ hk)
  | link id n =>
    simp only [RefreshTokenStatement.perform] at h
    split at h <;> cases h
    · next hu => exact .of_updateId hu rfl fun r _ ↦ .link _ _
    · exact .same rfl
  | revoke found scope at_ =>
    simp only [RefreshTokenStatement.perform] at h
    split at h <;> cases h
    next hu =>
    rcases updateMany_wrote hu k with hk | ⟨hk, r, hr, hp, hl, hc⟩
    · exact .same hk
    · exact .edit rfl hr (.revoke _ _ _ _ hk hp) hl hc

end RefreshTokens

section NotificationJobs

variable {w : World ι} {t : World ι} {k : ℕ}

/-- An update of one job is an edit. -/
theorem NotificationJobEffect.of_updateId {s : NotificationJobStatement} {id : ℕ}
    {p : NotificationJob → Bool} {f : NotificationJob → NotificationJob} {b : Bool}
    {notificationJobs : Table ι NotificationJob}
    (h : w.notificationJobs.updateId none id p f = some (b, notificationJobs))
    (he : ∀ j, p j = true → NotificationJobEdit j s id (f j)) :
    NotificationJobEffect w (.notificationJob s) k (w.notificationJobs.stored k)
      (notificationJobs.stored k) := by
  rcases updateId_cell h k with hk | ⟨rfl, j, hj, hp, -, hc⟩
  · exact .same (congrArg Cell.stored hk)
  · exact .edit rfl (by rwa [Cell.view_none] at hj) (he j hp) (congrArg Cell.stored hc)

/-- **Statements on jobs** change a job as `NotificationJobEdit` says. -/
theorem NotificationJobStatement.perform_notificationJobs {s : NotificationJobStatement}
    {x : Choice} {r : Except StatementError s.Ret} (h : s.perform x w = some (r, t)) :
    NotificationJobEffect w (.notificationJob s) k (w.notificationJobs.stored k)
      (t.notificationJobs.stored k) := by
  cases s with
  | findByDedupeKey | findLegacyOtp | findReady | «exists» | findUnredacted =>
    cases h
    exact .same rfl
  | findById id =>
    simp only [NotificationJobStatement.perform] at h
    split at h <;> cases h <;> exact .same rfl
  | create data =>
    simp only [NotificationJobStatement.perform] at h
    split at h
    · cases h
      exact .same rfl
    next hlinked =>
    split at h
    · cases h
      exact .same rfl
    next hfree =>
    split at h
    · cases h
      exact .same rfl
    next hkeys =>
    cases h
    -- The row is new: its key was tested against those of all the committed jobs.
    by_cases hk : k = w.notificationJobs.next
    · subst hk
      refine .create rfl rfl (fun id j hj ↦ ?_) (fun id hid ↦ ?_) (by simpa using hlinked) ?_ ?_
      · by_contra hc
        refine hfree (List.ne_nil_of_mem (a := ⟨id, j⟩) (Table.mem_select.2 ⟨?_, by simpa using hc⟩))
        rwa [Cell.view_none]
      · simp only [Bool.or_eq_true, not_or] at hkeys
        have hid' : (data.row w.now).otpCodeId = some id := hid
        simpa [hid', Option.isSome_iff_ne_none] using hkeys.2
      · rw [Table.stored, w.notificationJobs.fresh _ le_rfl]
        rfl
      · rw [Table.stored, Table.insert_cell_self]
        rfl
    · exact .same (congrArg Cell.stored (Table.insert_cell_of_ne _ _ _ hk))
  | adopt id u o d c =>
    simp only [NotificationJobStatement.perform] at h
    split at h
    · cases h
      exact .same rfl
    split at h
    · cases h
      exact .same rfl
    split at h <;> cases h
    next hu => exact .of_updateId hu fun j hj ↦ .adopt _ _ _ _ _ hj
  | claim id now =>
    simp only [NotificationJobStatement.perform] at h
    split at h
    · cases h
      exact .same rfl
    split at h <;> cases h
    next hu => exact .of_updateId hu fun j hj ↦ .claim _ _ hj
  | update id data =>
    simp only [NotificationJobStatement.perform] at h
    split at h
    · cases h
      exact .same rfl
    split at h
    · next hu =>
      have he := NotificationJobEffect.of_updateId (k := k) (s := .update id data) hu
        fun j _ ↦ .update _ _
      split at h <;> cases h <;> exact he
    · cases h
      exact .same rfl
    · cases h
  | redactTerminal found =>
    simp only [NotificationJobStatement.perform] at h
    split at h
    · cases h
      exact .same rfl
    split at h <;> cases h
    next hu =>
    rcases updateMany_wrote hu k with hk | ⟨hk, j, hj, hp, -, hc⟩
    · exact .same (congrArg Cell.stored hk)
    · exact .edit rfl (by rwa [Cell.view_none] at hj)
        (.redactTerminal _ _ hk hp) (congrArg Cell.stored hc)

end NotificationJobs

/-! ### Statements leave the other tables alone -/

section Frames

variable {i : ι} {x : Choice} {w t : World ι}

/-- A statement on users changes no other table, and no user that is there. -/
theorem UserStatement.perform_frame {s : UserStatement} {r : Except StatementError s.Ret}
    (h : s.perform w = some (r, t)) : ∃ users, t = { w with users } ∧
      ∀ id u, w.users.stored id = some u → users.stored id = some u := by
  cases s with
  | findByPhone phone =>
    cases h
    exact ⟨_, rfl, fun _ _ h ↦ h⟩
  | upsert phone =>
    simp only [UserStatement.perform] at h
    split at h
    · cases h
      exact ⟨_, rfl, fun _ _ h ↦ h⟩
    · cases h
      refine ⟨_, rfl, fun id u hu ↦ ?_⟩
      have hid : id ≠ w.users.next := by
        rintro rfl
        simp [Table.stored, w.users.fresh _ le_rfl, Cell.empty] at hu
      rw [Table.stored, Table.insert_cell_of_ne _ _ _ hid]
      exact hu

theorem OtpCodeStatement.perform_frame {s : OtpCodeStatement} {r : Except StatementError s.Ret}
    (h : s.perform i x w = some (r, t)) : ∃ otpCodes, t = { w with otpCodes } := by
  cases s <;> simp only [OtpCodeStatement.perform] at h <;> (repeat' split at h) <;> cases h <;>
    exact ⟨_, rfl⟩

theorem AuthEventStatement.perform_frame {s : AuthEventStatement}
    {r : Except StatementError s.Ret} (h : s.perform i w = some (r, t)) :
    ∃ authEvents, t = { w with authEvents } := by
  cases s <;> simp only [AuthEventStatement.perform] at h <;> (repeat' split at h) <;> cases h <;>
    exact ⟨_, rfl⟩

theorem RefreshTokenStatement.perform_frame {s : RefreshTokenStatement}
    {r : Except StatementError s.Ret} (h : s.perform i x w = some (r, t)) :
    ∃ refreshTokens, t = { w with refreshTokens } := by
  cases s <;> simp only [RefreshTokenStatement.perform] at h <;> (repeat' split at h) <;>
    cases h <;> exact ⟨_, rfl⟩

theorem NotificationJobStatement.perform_frame {s : NotificationJobStatement}
    {r : Except StatementError s.Ret} (h : s.perform x w = some (r, t)) :
    ∃ notificationJobs failureAttempts, t = { w with notificationJobs, failureAttempts } := by
  cases s <;> simp only [NotificationJobStatement.perform] at h <;> (repeat' split at h) <;>
    cases h <;> exact ⟨_, _, rfl⟩

omit [DecidableEq ι] in
/-- What is asked of the host moves the counter only. -/
theorem HostStatement.perform_frame {crypto : Crypto} {s : HostStatement}
    {r : Except StatementError s.Ret} (h : s.perform crypto x w = some (r, t)) :
    ∃ fresh, w.fresh ≤ fresh ∧ t = { w with fresh } := by
  cases s <;> simp only [HostStatement.perform] at h <;> cases h
  case randomUUID | generateRefreshToken => exact ⟨_, Nat.le_succ _, rfl⟩
  all_goals exact ⟨_, le_rfl, rfl⟩

end Frames

/-! ### One executed statement

What `exec` can do to each part of the world. Time has passed before the statement. -/

section Exec

variable {crypto : Crypto} {i : ι} {x : Choice} {op : Op} {w t : World ι}
  {r : Except StatementError op.Ret} {k : ℕ}

/-- A statement is executed, or lost, or executed with its answer lost. -/
theorem exec_cases (h : exec crypto i x op w = some (r, t)) :
    perform crypto i x (w.elapse x.elapse) op = some (r, t) ∨
      r = .error .unavailable ∧ (t = op.lost i (w.elapse x.elapse) ∨
        ∃ r', perform crypto i x (w.elapse x.elapse) op = some (r', t)) := by
  unfold exec at h
  split at h
  · split at h
    · exact .inl h
    · cases h
      exact .inr ⟨rfl, .inl rfl⟩
    · obtain ⟨⟨r', t'⟩, hp, he⟩ := Option.map_eq_some_iff.1 h
      cases he
      exact .inr ⟨rfl, .inr ⟨r', hp⟩⟩
  · exact .inl h

/-- A statement that answers was executed. -/
theorem perform_of_exec_ok {a : op.Ret} (h : exec crypto i x op w = some (.ok a, t)) :
    perform crypto i x (w.elapse x.elapse) op = some (.ok a, t) := by
  rcases exec_cases h with h | ⟨h, -⟩
  · exact h
  · cases h

/-- What every way of executing a statement has, the statement has. -/
theorem exec_of_perform (P : World ι → Prop) (h : exec crypto i x op w = some (r, t))
    (hperform : ∀ r t, perform crypto i x (w.elapse x.elapse) op = some (r, t) → P t)
    (hlost : P (op.lost i (w.elapse x.elapse))) : P t := by
  rcases exec_cases h with h | ⟨-, rfl | ⟨r', h⟩⟩
  · exact hperform _ _ h
  · exact hlost
  · exact hperform _ _ h

/-- **Every statement** changes the world as `WorldEffect` says. -/
theorem perform_effect (h : perform crypto i x w op = some (r, t)) : WorldEffect i w op t := by
  cases op with
  | country c =>
    cases h
    exact .country rfl rfl
  | user s =>
    have hs : s.perform w = some (r, t) := h
    obtain ⟨users, ht, hu⟩ := UserStatement.perform_frame hs
    exact .user rfl ht hu
  | otpCode s =>
    obtain ⟨otpCodes, ht⟩ := OtpCodeStatement.perform_frame h
    exact .otpCode rfl ht
  | authEvent s =>
    obtain ⟨authEvents, ht⟩ := AuthEventStatement.perform_frame h
    exact .authEvent rfl ht
  | refreshToken s =>
    obtain ⟨refreshTokens, ht⟩ := RefreshTokenStatement.perform_frame h
    exact .refreshToken rfl ht
  | notificationJob s =>
    have hs : s.perform x w = some (r, t) := h
    obtain ⟨notificationJobs, failureAttempts, ht⟩ := NotificationJobStatement.perform_frame hs
    exact .notificationJob rfl ht
  | host s =>
    have hs : s.perform crypto x w = some (r, t) := h
    obtain ⟨fresh, hf, ht⟩ := HostStatement.perform_frame hs
    exact .host rfl hf ht
  | lockRefreshUser u =>
    simp only [perform] at h
    split at h
    · next hu =>
      cases h
      exact .lock rfl (.inl hu) rfl
    · next j hu =>
      split at h
      · next hj =>
        cases h
        subst hj
        refine .lock rfl (.inr hu) ?_
        have hl : (fun v ↦ if v = u then some j else w.advisoryLocks v) = w.advisoryLocks := by
          funext v
          split
          · next hv => rw [hv, hu]
          · rfl
        rw [hl]
      · cases h
  | commit =>
    cases h
    exact .commit rfl rfl
  | rollback =>
    cases h
    exact .rollback rfl rfl

/-- **The OTP codes** across one executed statement. -/
theorem exec_otpCodes (h : exec crypto i x op w = some (r, t)) (k : ℕ) :
    OtpCodeEffect i (w.elapse x.elapse) op k (w.otpCodes.cell k) (t.otpCodes.cell k) := by
  refine exec_of_perform (fun t ↦ OtpCodeEffect i (w.elapse x.elapse) op k (w.otpCodes.cell k) (t.otpCodes.cell k))
    h (fun r t h ↦ ?_) ?_
  · by_cases hop : ∃ s, op = .otpCode s
    · obtain ⟨s, rfl⟩ := hop
      exact OtpCodeStatement.perform_otpCodes h
    · cases perform_effect h with
      | otpCode hs => exact absurd ⟨_, hs⟩ hop
      | commit hop ht => exact .commit hop (by rw [ht]; rfl)
      | rollback hop ht => exact .rollback (.inl hop) (by rw [ht]; rfl)
      | _ => subst_vars; exact .same rfl
  · cases op with
    | commit => exact .rollback (.inr rfl) rfl
    | _ => exact .same rfl

/-- **The refresh tokens** across one executed statement. -/
theorem exec_refreshTokens (h : exec crypto i x op w = some (r, t)) (k : ℕ) :
    RefreshTokenEffect i (w.elapse x.elapse) op k (w.refreshTokens.cell k)
      (t.refreshTokens.cell k) := by
  refine exec_of_perform (fun t ↦ RefreshTokenEffect i (w.elapse x.elapse) op k (w.refreshTokens.cell k)
      (t.refreshTokens.cell k))
    h (fun r t h ↦ ?_) ?_
  · by_cases hop : ∃ s, op = .refreshToken s
    · obtain ⟨s, rfl⟩ := hop
      exact RefreshTokenStatement.perform_refreshTokens h
    · cases perform_effect h with
      | refreshToken hs => exact absurd ⟨_, hs⟩ hop
      | commit hop ht => exact .commit hop (by rw [ht]; rfl)
      | rollback hop ht => exact .rollback (.inl hop) (by rw [ht]; rfl)
      | _ => subst_vars; exact .same rfl
  · cases op with
    | commit => exact .rollback (.inr rfl) rfl
    | _ => exact .same rfl

/-- **The notification jobs** across one executed statement. -/
theorem exec_notificationJobs (h : exec crypto i x op w = some (r, t)) (k : ℕ) :
    NotificationJobEffect (w.elapse x.elapse) op k (w.notificationJobs.stored k)
      (t.notificationJobs.stored k) := by
  refine exec_of_perform (fun t ↦ NotificationJobEffect (w.elapse x.elapse) op k
      (w.notificationJobs.stored k) (t.notificationJobs.stored k))
    h (fun r t h ↦ ?_) ?_
  · by_cases hop : ∃ s, op = .notificationJob s
    · obtain ⟨s, rfl⟩ := hop
      exact NotificationJobStatement.perform_notificationJobs h
    · cases perform_effect h with
      | notificationJob hs => exact absurd ⟨_, hs⟩ hop
      | _ => subst_vars; exact .same rfl
  · cases op <;> exact .same rfl

/-- **A completion** either does nothing or updates the job and records the failed attempt. -/
theorem exec_update {id : ℕ} {data : NotificationJobUpdate} {r : Except StatementError Unit}
    (h : exec crypto i x (.notificationJob (.update id data)) w = some (r, t)) :
    (t.notificationJobs = w.notificationJobs ∧ t.failureAttempts = w.failureAttempts) ∨
      ∃ j, w.notificationJobs.stored id = some j ∧
        t.notificationJobs.stored id = some (data.apply j) ∧
        (∀ k, k ≠ id → t.notificationJobs.stored k = w.notificationJobs.stored k) ∧
        t.failureAttempts =
          match data.failureAttempt with
          | some f =>
            (w.failureAttempts.insert none ⟨id, f.attemptNumber, f.terminal, f.failedAt⟩).2
          | none => w.failureAttempts := by
  refine exec_of_perform (fun t ↦ (t.notificationJobs = w.notificationJobs ∧
    t.failureAttempts = w.failureAttempts) ∨ ∃ j, w.notificationJobs.stored id = some j ∧
      t.notificationJobs.stored id = some (data.apply j) ∧
      (∀ k, k ≠ id → t.notificationJobs.stored k = w.notificationJobs.stored k) ∧
      t.failureAttempts = match data.failureAttempt with
        | some f => (w.failureAttempts.insert none ⟨id, f.attemptNumber, f.terminal, f.failedAt⟩).2
        | none => w.failureAttempts) h (fun r t h ↦ ?_) (.inl ⟨rfl, rfl⟩)
  simp only [perform, NotificationJobStatement.perform] at h
  split at h
  · cases h
    exact .inl ⟨rfl, rfl⟩
  split at h
  · next hu =>
    rcases Table.updateId_cases hu with ⟨hb, -, -⟩ | ⟨-, -, hk, j, hj, -, -, hcell⟩
    · cases hb
    · rw [Cell.view_none] at hj
      cases hf : data.failureAttempt with
      | some f =>
        rw [hf] at h
        cases h
        exact .inr ⟨j, hj, congrArg Cell.stored hcell,
          fun k hkid ↦ congrArg Cell.stored (hk k hkid), rfl⟩
      | none =>
        rw [hf] at h
        cases h
        exact .inr ⟨j, hj, congrArg Cell.stored hcell,
          fun k hkid ↦ congrArg Cell.stored (hk k hkid), rfl⟩
  · cases h
    exact .inl ⟨rfl, rfl⟩
  · cases h

/-- Only completions record failed attempts. -/
theorem exec_failureAttempts (h : exec crypto i x op w = some (r, t))
    (hop : ∀ id data, op ≠ .notificationJob (.update id data)) :
    t.failureAttempts = w.failureAttempts := by
  refine exec_of_perform (fun t ↦ t.failureAttempts = w.failureAttempts) h (fun r t h ↦ ?_) ?_
  · by_cases hjob : ∃ s, op = .notificationJob s
    · obtain ⟨s, rfl⟩ := hjob
      cases s with
      | update id data => exact absurd rfl (hop id data)
      | _ =>
        simp only [perform, NotificationJobStatement.perform] at h
        (repeat' split at h) <;> cases h <;> rfl
    · cases perform_effect h with
      | notificationJob hs => exact absurd ⟨_, hs⟩ hjob
      | _ => subst_vars; rfl
  · cases op <;> rfl

/-- A claim that is answered with success took a ready job. -/
theorem exec_claim {id : ℕ} {now : ℤ}
    (h : exec crypto i x (.notificationJob (.claim id now)) w = some (.ok true, t)) :
    ∃ j, w.notificationJobs.stored id = some j ∧ j.ready now = true ∧
      t.notificationJobs.stored id = some { j with status := .processing, lockedAt := some now } := by
  have hp := perform_of_exec_ok h
  simp only [perform, NotificationJobStatement.perform] at hp
  split at hp
  · cases hp
  split at hp <;> cases hp
  next hu =>
  rcases Table.updateId_cases hu with ⟨hb, -, -⟩ | ⟨-, -, -, j, hj, hready, -, hcell⟩
  · cases hb
  · rw [Cell.view_none] at hj
    exact ⟨j, hj, hready, congrArg Cell.stored hcell⟩

/-- Time never runs backwards. -/
theorem exec_now (h : exec crypto i x op w = some (r, t)) : t.now = w.now + x.elapse := by
  refine exec_of_perform (fun t ↦ t.now = w.now + x.elapse)
    h (fun r t h ↦ ?_) ?_
  · cases perform_effect h <;> subst_vars <;> rfl
  · cases op <;> rfl

/-- The countries stay as they are. -/
theorem exec_countries (h : exec crypto i x op w = some (r, t)) : t.countries = w.countries := by
  refine exec_of_perform (fun t ↦ t.countries = w.countries)
    h (fun r t h ↦ ?_) ?_
  · cases perform_effect h <;> subst_vars <;> rfl
  · cases op <;> rfl

/-- Users are never removed, and keep their phone numbers. -/
theorem exec_users (h : exec crypto i x op w = some (r, t)) {id : ℕ} {u : User}
    (hu : w.users.stored id = some u) : t.users.stored id = some u := by
  refine exec_of_perform (fun t ↦ t.users.stored id = some u)
    h (fun r t h ↦ ?_) ?_
  · cases perform_effect h with
    | user hop ht hk => exact ht ▸ hk id u hu
    | _ => subst_vars; exact hu
  · cases op <;> exact hu

/-- The counter does not go back. -/
theorem exec_fresh (h : exec crypto i x op w = some (r, t)) : w.fresh ≤ t.fresh := by
  refine exec_of_perform (fun t ↦ w.fresh ≤ t.fresh)
    h (fun r t h ↦ ?_) ?_
  · cases perform_effect h with
    | host hop hf ht => exact ht ▸ hf
    | _ => subst_vars; exact le_rfl
  · cases op <;> exact le_rfl

/-- **The advisory locks** across one executed statement: the thread takes one that is free or its
own, or releases its own. -/
theorem exec_advisoryLocks (h : exec crypto i x op w = some (r, t)) (u : ℕ) :
    t.advisoryLocks u = w.advisoryLocks u ∨
      op = .lockRefreshUser u ∧ t.advisoryLocks u = some i ∧
        (w.advisoryLocks u = none ∨ w.advisoryLocks u = some i) ∨
      w.advisoryLocks u = some i ∧ t.advisoryLocks u = none ∧ (op = .commit ∨ op = .rollback) := by
  have hrel : ∀ w : World ι, (w.releaseLocks i).advisoryLocks u = w.advisoryLocks u ∨
      w.advisoryLocks u = some i ∧ (w.releaseLocks i).advisoryLocks u = none := by
    intro w
    by_cases hu : w.advisoryLocks u = some i
    · exact .inr ⟨hu, by simp [World.releaseLocks, hu]⟩
    · exact .inl (by simp [World.releaseLocks, hu])
  refine exec_of_perform (fun t ↦ t.advisoryLocks u = w.advisoryLocks u ∨
      op = .lockRefreshUser u ∧ t.advisoryLocks u = some i ∧
        (w.advisoryLocks u = none ∨ w.advisoryLocks u = some i) ∨
      w.advisoryLocks u = some i ∧ t.advisoryLocks u = none ∧ (op = .commit ∨ op = .rollback))
    h (fun r t h ↦ ?_) ?_
  · cases perform_effect h with
    | @lock v hop hv ht =>
      subst ht
      by_cases huv : u = v
      · subst huv
        exact .inr (.inl ⟨hop, by simp, hv⟩)
      · exact .inl (by simp [huv])
    | commit hop ht =>
      subst ht
      exact (hrel _).imp id fun h ↦ .inr ⟨h.1, h.2, .inl hop⟩
    | rollback hop ht =>
      subst ht
      exact (hrel _).imp id fun h ↦ .inr ⟨h.1, h.2, .inr hop⟩
    | _ => subst_vars; exact .inl rfl
  · cases op with
    | commit => exact (hrel _).imp id fun h ↦ .inr ⟨h.1, h.2, .inl rfl⟩
    | _ => exact .inl rfl

/-- Other statements leave the advisory locks alone. -/
theorem exec_advisoryLocks_eq (h : exec crypto i x op w = some (r, t))
    (hop : ∀ u, op ≠ .lockRefreshUser u) (hc : op ≠ .commit) (hr : op ≠ .rollback) :
    t.advisoryLocks = w.advisoryLocks := by
  funext u
  rcases exec_advisoryLocks h u with h | ⟨h, -⟩ | ⟨-, -, h | h⟩
  · exact h
  · exact absurd h (hop u)
  · exact absurd h hc
  · exact absurd h hr

/-- A commit commits or rolls back; when it is answered, it has committed. -/
theorem exec_commit {r : Except StatementError Unit} (h : exec crypto i x .commit w = some (r, t)) :
    t = (w.elapse x.elapse).commit i ∨ r = .error .unavailable ∧ t = (w.elapse x.elapse).rollback i := by
  rcases exec_cases h with h | ⟨rfl, rfl | ⟨r', h⟩⟩
  · cases h
    exact .inl rfl
  · exact .inr ⟨rfl, rfl⟩
  · cases h
    exact .inl rfl

theorem exec_rollback {r : Except StatementError Unit}
    (h : exec crypto i x .rollback w = some (r, t)) :
    r = .ok () ∧ t = (w.elapse x.elapse).rollback i := by
  cases h
  exact ⟨rfl, rfl⟩

end Exec

end Stead
