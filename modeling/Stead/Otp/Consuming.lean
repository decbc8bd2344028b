import Stead.Otp.SignIns

/-!
# What a sign-in holds

A thread whose transaction has consumed a code holds the row of it until the transaction ends, and
what it has listed and retired of the other codes of the user stays listed and retired for it,
whatever the others do (`InTransaction`).

## The record and the store

`SignIn` is read off the statements of a call, and `InTransaction` says what it means for the store:
the consumed code is held, the codes that were found and retired are spent for the thread, the
verification that was stored is that of the version the thread has written. Statements of other
threads do not change it, since the row is locked (`InTransaction.others`); statements of the thread
itself change it as the record does (`InTransaction.after`).

What the record of a call keeps of all this is forgotten with the end of the transaction
(`after_ends`), by a commit or by a rollback.
-/

namespace Stead

open Concurrency

variable {ι : Type}

/-! ### How the record changes -/

/-- Statements that end a transaction. -/
def Op.Ends (op : Op) : Prop := op = .commit ∨ op = .rollback

namespace SignIn

variable {a : SignIn} {op : Op} {r : Statements.Resp op}

/-- What the record keeps after the end of a transaction. -/
theorem after_ends (h : op.Ends) : (a.after ⟨op, r⟩).consumed = none ∧
    (a.after ⟨op, r⟩).found = none ∧ (a.after ⟨op, r⟩).retired = none ∧
      (a.after ⟨op, r⟩).verified = none := by
  rcases h with rfl | rfl
  · cases r <;> exact ⟨rfl, rfl, rfl, rfl⟩
  · exact ⟨rfl, rfl, rfl, rfl⟩

/-- How a code comes to be consumed. -/
theorem after_consumed {id : ℕ} (h : (a.after ⟨op, r⟩).consumed = some id) :
    (∃ at_, (⟨op, r⟩ : Exchange Statements) = ⟨.otpCode (.consume id at_), .ok true⟩) ∨
      a.consumed = some id ∧ ¬ op.Ends := by
  have hend : ¬ op.Ends := fun hend ↦ by cases (after_ends hend).1.symm.trans h
  unfold SignIn.after at h
  split at h <;> first | exact .inr ⟨h, hend⟩ | (split at h) | skip
  · next id' at_ r' heq hr =>
    rw [heq]
    cases h
    cases r' with
    | ok b =>
      obtain rfl : b = true := hr
      exact .inl ⟨_, rfl⟩
    | error e => cases hr
  all_goals first | exact .inr ⟨h, hend⟩ | cases h

/-- What was consumed stays so until the end of the transaction. -/
theorem after_of_consumed {id : ℕ} (h : a.consumed = some id) (hend : ¬ op.Ends)
    (hop : ∀ id at_, op ≠ .otpCode (.consume id at_)) : (a.after ⟨op, r⟩).consumed = some id := by
  unfold SignIn.after
  split <;> first | exact h | (split) | skip
  all_goals first | exact h | skip
  · next id' at_ r' heq _ => exact absurd (congrArg Sigma.fst heq) (hop id' at_)
  · next heq => exact absurd (.inl (congrArg Sigma.fst heq)) hend
  · next heq => exact absurd (.inl (congrArg Sigma.fst heq)) hend
  · next heq => exact absurd (.inr (congrArg Sigma.fst heq)) hend

/-- How codes come to be found. -/
theorem after_found {u : ℕ} {found : List ℕ} (h : (a.after ⟨op, r⟩).found = some (u, found)) :
    (⟨op, r⟩ : Exchange Statements) = ⟨.otpCode (.findUnconsumed true u), .ok found⟩ ∨
      a.found = some (u, found) ∧ ¬ op.Ends := by
  have hend : ¬ op.Ends := fun hend ↦ by cases (after_ends hend).2.1.symm.trans h
  unfold SignIn.after at h
  split at h <;> first | exact .inr ⟨h, hend⟩ | (split at h) | skip
  · exact .inr ⟨h, hend⟩
  · exact .inr ⟨h, hend⟩
  · next heq =>
    cases h
    exact .inl heq
  all_goals first | exact .inr ⟨h, hend⟩ | cases h

/-- How the codes of a user come to be retired. -/
theorem after_retired {u : ℕ} (h : (a.after ⟨op, r⟩).retired = some u) :
    (∃ found at_ n, (⟨op, r⟩ : Exchange Statements) =
      ⟨.otpCode (.retireLive true found u at_), .ok n⟩ ∧ a.found = some (u, found)) ∨
      a.retired = some u ∧ ¬ op.Ends := by
  have hend : ¬ op.Ends := fun hend ↦ by cases (after_ends hend).2.2.1.symm.trans h
  unfold SignIn.after at h
  split at h <;> first | exact .inr ⟨h, hend⟩ | (split at h) | skip
  · exact .inr ⟨h, hend⟩
  · exact .inr ⟨h, hend⟩
  · next heq hfound =>
    cases h
    exact .inl ⟨_, _, _, heq, hfound⟩
  all_goals first | exact .inr ⟨h, hend⟩ | cases h

/-- How a verification comes to be stored. -/
theorem after_verified {id : ℕ} {data : Verification}
    (h : (a.after ⟨op, r⟩).verified = some (id, data)) :
    (⟨op, r⟩ : Exchange Statements) = ⟨.otpCode (.storeVerification id data), .ok ()⟩ ∨
      a.verified = some (id, data) ∧ ¬ op.Ends := by
  have hend : ¬ op.Ends := fun hend ↦ by cases (after_ends hend).2.2.2.symm.trans h
  unfold SignIn.after at h
  split at h <;> first | exact .inr ⟨h, hend⟩ | (split at h) | skip
  all_goals first | exact .inr ⟨h, hend⟩ | cases h
  next heq => exact .inl heq

/-- How a session comes to be begun. -/
theorem after_begun {id : ℕ} {first : NewRefreshToken}
    (h : (a.after ⟨op, r⟩).begun = some (id, first)) :
    op = .refreshToken (.create first) ∧ a.consumed = some id ∨ a.begun = some (id, first) := by
  unfold SignIn.after at h
  split at h <;> first | exact .inr h | (split at h) | skip
  all_goals first | exact .inr h | skip
  next data r' heq =>
    cases hconsumed : a.consumed with
    | none =>
      rw [hconsumed] at h
      exact .inr h
    | some id' =>
      rw [hconsumed] at h
      cases h
      cases heq
      exact .inl ⟨rfl, rfl⟩

/-- A session that is begun stays begun, as long as no other is. -/
theorem after_of_begun {id : ℕ} {first : NewRefreshToken} (h : a.begun = some (id, first))
    (hop : ∀ data, op = .refreshToken (.create data) → a.consumed = none) :
    (a.after ⟨op, r⟩).begun = some (id, first) := by
  unfold SignIn.after
  split <;> first | exact h | (split) | skip
  all_goals first | exact h | skip
  next heq =>
    rw [hop _ (congrArg Sigma.fst heq)]
    exact h

/-- How a verification comes to be committed. -/
theorem after_kept {id : ℕ} {data : Verification} (h : (a.after ⟨op, r⟩).kept = some (id, data)) :
    (⟨op, r⟩ : Exchange Statements) = ⟨.commit, .ok ()⟩ ∧ a.verified = some (id, data) ∨
      a.kept = some (id, data) := by
  unfold SignIn.after at h
  split at h <;> first | exact .inr h | (split at h) | skip
  all_goals first | exact .inr h | skip
  next heq =>
    cases hverified : a.verified with
    | none =>
      rw [hverified] at h
      exact .inr h
    | some verified =>
      rw [hverified] at h
      cases h
      exact .inl ⟨heq, rfl⟩

end SignIn

/-- The verification a row records. -/
def Verification.columns (data : Verification) :
    Option Digest × Option Digest × Option ResponseJson × Option ℤ :=
  (some data.verificationKeyHash, some data.verificationRequestHash,
    some data.verificationResponseJson, some data.verifiedAt)

/-- A family has a committed token. -/
def World.HasFamily (w : World ι) (F : ℕ) : Prop :=
  ∃ k r, w.refreshTokens.stored k = some r ∧ r.familyId = F

/-- The statement removes the row of a code that a verification was committed with. -/
def DeletesVerified (e : Happening ι) : Prop :=
  ∃ k row, e.before.otpCodes.stored k = some row ∧ row.verificationKeyHash.isSome ∧
    e.after.otpCodes.stored k = none

variable [DecidableEq ι]

/-- In `e` the thread looked for the unconsumed codes of the user. -/
def Sweeps (s : History ι) (i : ι) (u : ℕ) (e : Happening ι) : Prop :=
  e ∈ s.history i ∧ e.op = .otpCode (.findUnconsumed true u)

/-! ### What a sign-in knows inside its transaction -/

/-- What the open transaction of a thread has done, and no other can undo. -/
structure InTransaction (i : ι) (s : History ι) : Prop where
  held : ∀ id, (signIn (s.trace i)).consumed = some id → s.shared.Holding i id
  found : ∀ u found, (signIn (s.trace i)).found = some (u, found) → ∃ e, Sweeps s i u e ∧
    (∀ id, (signIn (s.trace i)).consumed = some id → id < e.before.otpCodes.next) ∧
      s.shared.Lists i u e.before.otpCodes.next found
  retired : ∀ u, (signIn (s.trace i)).retired = some u → ∃ e, Sweeps s i u e ∧
    (∀ id, (signIn (s.trace i)).consumed = some id → id < e.before.otpCodes.next) ∧
      s.shared.SpentFor i u e.before.otpCodes.next
  verified : ∀ id data, (signIn (s.trace i)).verified = some (id, data) →
    (signIn (s.trace i)).consumed = some id ∧
      ∃ row, s.shared.otpCodes.pending id = some (i, row) ∧ row.verification = data.columns

theorem inTransaction_nil {i : ι} {s : History ι} (h : s.trace i = []) : InTransaction i s := by
  constructor <;> rw [h] <;> nofun

section Steps

variable {A : Weather ι} {crypto : Crypto} {i j : ι} {x : Choice} {op : Op} {s s' : History ι} {t : World ι}
  {r : Except StatementError op.Ret}

theorem Sweeps.after {u : ℕ} {e : Happening ι} (h : Sweeps s i u e) :
    Sweeps (s.after j op r t) i u e := by
  refine ⟨?_, h.2⟩
  by_cases hij : j = i
  · subst hij
    rw [State.after_history_self]
    exact List.mem_append_left _ h.1
  · rw [State.after_history_of_ne _ hij]
    exact h.1

/-- A code that was consumed is held. -/
theorem holding_consume {id : ℕ} {at_ : ℤ} {w : World ι}
    (h : exec crypto i x (.otpCode (.consume id at_)) w = some (.ok true, t)) :
    t.Holding i id := by
  have hp := perform_of_exec_ok h
  simp only [perform, OtpCodeStatement.perform] at hp
  split at hp <;> cases hp
  next hupd =>
  rcases Table.updateId_cases hupd with ⟨hb, -⟩ | ⟨-, -, -, r, -, -, -, hcell⟩
  · cases hb
  · exact ⟨_, congrArg Cell.pending hcell⟩

/-- A verification that was stored is pending. -/
theorem pending_storeVerification {id : ℕ} {data : Verification} {w : World ι}
    (h : exec crypto i x (.otpCode (.storeVerification id data)) w = some (.ok (), t)) :
    ∃ row, t.otpCodes.pending id = some (i, row) ∧ row.verification = data.columns := by
  have hp := perform_of_exec_ok h
  simp only [perform, OtpCodeStatement.perform] at hp
  split at hp
  · cases hp
  split at hp
  · cases hp
  split at hp <;> cases hp
  next hupd =>
  rcases Table.updateId_cases hupd with ⟨hb, -⟩ | ⟨-, -, -, r, -, -, -, hcell⟩
  · cases hb
  · exact ⟨_, congrArg Cell.pending hcell, rfl⟩

/-- What a transaction has written no other changes. -/
theorem pending_of_other {k : ℕ} {row : OtpCode} (hij : j ≠ i)
    (h : exec crypto j x op s.shared = some (r, t))
    (hp : s.shared.otpCodes.pending k = some (i, row)) : t.otpCodes.pending k = some (i, row) := by
  have hpending : (s.shared.otpCodes.cell k).pending = some (i, row) := hp
  have hother : ∀ row', (s.shared.otpCodes.cell k).pending ≠ some (j, row') := fun row' h' ↦
    hij (congrArg Prod.fst (Option.some.inj (h'.symm.trans hp)))
  have hsame : t.otpCodes.cell k = s.shared.otpCodes.cell k →
      t.otpCodes.pending k = some (i, row) := fun h ↦ (congrArg Cell.pending h).trans hp
  cases exec_otpCodes h k with
  | same heq => exact hsame heq
  | edit _ _ _ hl _ =>
    rcases Cell.pending_of_not_locked hl with hfree | ⟨l, p, hwriter, hp'⟩
    · cases hfree.symm.trans hp
    · obtain rfl := OtpCodeStatement.writer_eq hwriter
      exact absurd hp' (hother p)
  | create _ _ _ _ hc _ =>
    rw [hc] at hpending
    cases hpending
  | delete _ _ _ hfree _ _ => cases hfree.symm.trans hp
  | commit _ heq => exact hsame (heq.trans (Cell.commit_of_not_pending hother))
  | rollback _ heq => exact hsame (heq.trans (Cell.rollback_of_not_pending hother))

/-- **The steps of others** leave what a sign-in knows. -/
theorem InTransaction.others (hJ : InTransaction i s) (hs : CodesSound s.shared) (hij : j ≠ i)
    (hm : Move (machine ι crypto) A j s s') : InTransaction i s' := by
  cases hm with
  | crash =>
    refine ⟨fun id h ↦ (hJ.held id h).rollback hij, fun u found h ↦ ?_, fun u h ↦ ?_,
      fun id data h ↦ ?_⟩
    · obtain ⟨e, he, hid, hlists⟩ := hJ.found u found h
      exact ⟨e, he, hid, hlists.rollback hij⟩
    · obtain ⟨e, he, hid, hspent⟩ := hJ.retired u h
      exact ⟨e, he, hid, hspent.rollback hij⟩
    · obtain ⟨hid, row, hrow, hdata⟩ := hJ.verified id data h
      have hcell : (s.shared.otpCodes.cell id).rollback j = s.shared.otpCodes.cell id :=
        Cell.rollback_of_not_pending fun row' h' ↦
          hij (congrArg Prod.fst (Option.some.inj (h'.symm.trans hrow)))
      exact ⟨hid, row, (congrArg Cell.pending hcell).trans hrow, hdata⟩
  | @stmt x op r t ha hx =>
    have hne : j = i → op ≠ .commit ∧ op ≠ .rollback := fun h ↦ absurd h hij
    have htrace := s.after_trace_of_ne hij op r t
    constructor
    · intro id h
      rw [htrace] at h
      exact (hJ.held id h).after hx hne
    · intro u found h
      rw [htrace] at h ⊢
      obtain ⟨e, he, hid, hlists⟩ := hJ.found u found h
      exact ⟨e, he.after, hid, hs.lists_after hx hne hlists⟩
    · intro u h
      rw [htrace] at h ⊢
      obtain ⟨e, he, hid, hspent⟩ := hJ.retired u h
      exact ⟨e, he.after, hid, hs.spentFor_after hx hne hspent⟩
    · intro id data h
      rw [htrace] at h ⊢
      obtain ⟨hid, row, hrow, hdata⟩ := hJ.verified id data h
      exact ⟨hid, row, pending_of_other hij hx hrow, hdata⟩

/-- A statement that stores a verification stores it in a row its transaction holds. -/
theorem InTransaction.storesHeld {env : Env} {call : ApiCall} (hJ : InTransaction i s)
    (hop : SignInStatement env call (s.trace i) op) : StoresHeld s.shared i op :=
  fun id data h ↦ hJ.held id (hop.verified id data h).1

/-- **Its own steps** keep what a sign-in knows. -/
theorem InTransaction.after {env : Env} {call : ApiCall} (hJ : InTransaction i s)
    (hs : CodesSound s.shared) (hop : SignInStatement env call (s.trace i) op)
    (h : exec crypto i x op s.shared = some (r, t)) : InTransaction i (s.after i op r t) := by
  have htrace : (s.after i op r t).trace i = s.trace i ++ [⟨op, r⟩] := State.after_trace_self ..
  have hlast : ⟨i, s.shared, op, r, t⟩ ∈ (s.after i op r t).history i := by
    rw [State.after_history_self]
    exact List.mem_append_right _ (List.mem_singleton_self _)
  have hnever : ∀ {id : ℕ} {at_ : ℤ}, op = .otpCode (.consume id at_) → ∀ {β : Type} {o : Option β}
      {b : β}, (signIn (s.trace i) = {} → o = none) → o ≠ some b := fun hc _ _ _ ho hb ↦ by
    cases (ho (hop.consumed _ _ hc)).symm.trans hb
  -- While something has been found, no code is consumed.
  have hconsumed : ∀ {β : Type} {o : Option β} {b : β}, (signIn (s.trace i) = {} → o = none) →
      o = some b → ∀ id, ((signIn (s.trace i)).after ⟨op, r⟩).consumed = some id →
        (signIn (s.trace i)).consumed = some id := by
    intro β o b ho hb id hid
    rcases SignIn.after_consumed hid with ⟨at_, heq⟩ | ⟨hid, -⟩
    · cases heq
      exact absurd hb (hnever rfl ho)
    · exact hid
  constructor
  · intro id hid
    rw [htrace, signIn_append] at hid
    rcases SignIn.after_consumed hid with ⟨at_, heq⟩ | ⟨hid, hend⟩
    · cases heq
      exact holding_consume h
    · exact (hJ.held id hid).after h fun _ ↦ not_or.1 hend
  · intro u found hfound
    rw [htrace, signIn_append] at hfound ⊢
    rcases SignIn.after_found hfound with heq | ⟨hfound, hend⟩
    · cases heq
      refine ⟨_, ⟨hlast, rfl⟩, fun id hid ↦ ?_, lists_findUnconsumed h⟩
      rcases SignIn.after_consumed hid with ⟨at_, heq⟩ | ⟨hid, -⟩
      · cases heq
      · exact (hJ.held id hid).lt_next
    · obtain ⟨e, he, hid, hlists⟩ := hJ.found u found hfound
      exact ⟨e, he.after, fun id hid' ↦ hid id (hconsumed (fun h ↦ by rw [h]) hfound id hid'),
        hs.lists_after h (fun _ ↦ not_or.1 hend) hlists⟩
  · intro u hretired
    rw [htrace, signIn_append] at hretired ⊢
    rcases SignIn.after_retired hretired with ⟨found, at_, n, heq, hfound⟩ | ⟨hretired, hend⟩
    · obtain ⟨e, he, hid, hlists⟩ := hJ.found u found hfound
      have hbefore := hconsumed (fun h ↦ by rw [h]) hfound
      cases heq
      exact ⟨e, he.after, fun id hid' ↦ hid id (hbefore id hid'), spentFor_retireLive hlists h⟩
    · obtain ⟨e, he, hid, hspent⟩ := hJ.retired u hretired
      exact ⟨e, he.after, fun id hid' ↦ hid id (hconsumed (fun h ↦ by rw [h]) hretired id hid'),
        hs.spentFor_after h (fun _ ↦ not_or.1 hend) hspent⟩
  · intro id data hverified
    rw [htrace, signIn_append] at hverified ⊢
    rcases SignIn.after_verified hverified with heq | ⟨hverified, hend⟩
    · cases heq
      exact ⟨(hop.verified _ _ rfl).1, pending_storeVerification h⟩
    · obtain ⟨hid, row, hrow, hdata⟩ := hJ.verified id data hverified
      refine ⟨SignIn.after_of_consumed hid hend fun id' at_ hc ↦
        hnever hc (fun h ↦ by rw [h]) hverified, ?_⟩
      · obtain ⟨row', hrow'⟩ := World.Holding.after h (fun _ ↦ not_or.1 hend) ⟨row, hrow⟩
        refine ⟨row', hrow', ?_⟩
        have hsome := hs.consumed _ _ _ hrow
        cases (hs.pending_step (hJ.storesHeld hop) h hrow').2 with
        | same hsame =>
          cases hsame.symm.trans hrow
          exact hdata
        | @wrote st row₁ _ heq he _ hbefore =>
          rcases hbefore with hpending | hstored
          · cases hpending.symm.trans hrow
            rcases he.verification with hsame | ⟨data', rfl, -⟩
            · exact hsame.trans hdata
            · cases (hop.verified _ _ heq).2.1.symm.trans hverified
          · exact absurd ⟨row, hrow⟩ hstored.1

end Steps

end Stead
