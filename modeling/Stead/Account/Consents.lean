import Stead.Concurrency.RelyGuarantee
import Stead.Model.Statement
import Stead.Tenants.Services

/-!
# The history of the consents

`AccountService.updateConsents`, statement by statement, for calls that interleave at READ
COMMITTED. A call appends a record for each choice that differs from the preference it has read, and
writes the preference.

## Faithful logs

The records of a category, in order, are a faithful log of its choices (`FaithfulConsents`): the
first is the first choice, each one changes the one before, and the last is the preference. This is
a property of two tables that no statement keeps by itself, since the preference is written before
the records are; so what is proved is about the tables as a transaction that has written sees them
(`HasWritten`), and about the committed ones when no transaction has.

## The condition

The log is faithful in every run in which the preference is still the one that was read when it is
written (`FreshConsents`). Writing it locks it, so from there to the end of the transaction nobody
else adds a record (`ConsentsSound`). Two calls that read the same preference at the same time both
append the same choice (`consents_granted_twice`).

## The proof

What one statement may do to the rows of a user is `ConsentMoves`. A call is `Idle`, then has read
the preference (`HasRead`), then has written it (`HasWritten`), and is `Ready` to commit when its
records are there too; each of these is kept by the statements of the others (`Unbroken`), and the
triples for the parts of the call carry one to the next. `consent_history_faithful` is the result.
-/

namespace Stead

open Concurrency

/-! ### Logs of changes -/

section Changes

variable {α : Type} {a b c : α} {log : List α}

/-- A log of the changes of a value from `a` to `b`: no entry repeats what was before it. -/
def Changes (a : α) (log : List α) (b : α) : Prop :=
  (a :: log).IsChain (· ≠ ·) ∧ log.getLastD a = b

/-- One more change at the end. -/
theorem Changes.concat (h : Changes a log b) (hne : b ≠ c) : Changes a (log ++ [c]) c := by
  obtain ⟨hchain, rfl⟩ := h
  refine ⟨?_, by simp⟩
  rw [← List.cons_append, List.isChain_append]
  refine ⟨hchain, List.isChain_singleton c, fun x hx y hy ↦ ?_⟩
  rw [List.getLast?_cons, Option.mem_some_iff] at hx
  rw [List.head?_singleton, Option.mem_some_iff] at hy
  rw [← hx, ← hy, ← List.getLastD_eq_getLast?]
  exact hne

end Changes

/-! ### Statements -/

/-- `CONSENT_CATEGORIES` -/
def CONSENT_CATEGORIES : List ConsentCategory := [.analytics, .productResearch]

/-- `input[preferenceKey]` -/
def UpdateConsentsDto.given (input : UpdateConsentsDto) : ConsentCategory → Option Bool
  | .analytics => input.analyticsEnabled
  | .productResearch => input.productResearchEnabled

/-- `currentConsents[preferenceKey]` -/
def currentConsent (current : Option ConsentPreferenceRow) : ConsentCategory → Bool
  | .analytics => (current.map ConsentPreferenceRow.analyticsEnabled).getD false
  | .productResearch => (current.map ConsentPreferenceRow.productResearchEnabled).getD false

/-- The records of a call, before they are created. -/
def changedConsents (current : Option ConsentPreferenceRow) (input : UpdateConsentsDto) :
    List (ConsentCategory × Bool) :=
  CONSENT_CATEGORIES.filterMap fun category ↦
    match input.given category with
    | some granted =>
      if currentConsent current category = granted then none else some (category, granted)
    | none => none

/-- The statements of a call. -/
inductive ConsentStatement where
  /-- `user.findUnique({ select: { id: true } })` -/
  | findUser (userId : ℕ)
  /-- `consentPreference.findUnique` -/
  | findPreference (userId : ℕ)
  /-- `consentPreference.upsert`, with the preference as it was read -/
  | upsert (userId : ℕ) (input : UpdateConsentsDto) (current : Option ConsentPreferenceRow)
  /-- `consentRecord.createMany` -/
  | createMany (userId : ℕ) (records : List (ConsentCategory × Bool))
  /-- `user.findUnique({ include: { consentPreference: true } })` -/
  | findAccount (userId : ℕ)
  | commit
  | rollback

/-- The answer to a statement that does not fail. -/
def ConsentStatement.Ret : ConsentStatement → Type
  | .findUser _ => Bool
  | .findPreference _ => Option ConsentPreferenceRow
  | .findAccount _ => Option (AccountUser × Option ConsentPreferenceRow)
  | _ => Unit

/-- What a statement returns, or the error of it. -/
abbrev consentStatements : Interface := ⟨ConsentStatement, fun op ↦ Except StatementError op.Ret⟩

/-- The tables. No call writes a user, and a user has one preference at most. -/
structure ConsentWorld (ι : Type) where
  now : ℤ
  users : List AccountUser
  preferences : ℕ → Cell ι ConsentPreferenceRow
  records : Table ι ConsentRecordRow

/-- What is decided outside. -/
structure ConsentChoice where
  elapse : ℕ
  fault : Fault

namespace ConsentWorld

variable {ι : Type} [DecidableEq ι] (w : ConsentWorld ι)

/-- What the upsert makes of a preference. -/
def upserted (userId : ℕ) (input : UpdateConsentsDto) (current : Option ConsentPreferenceRow) :
    Option ConsentPreferenceRow → ConsentPreferenceRow
  | some row =>
    { row with
      analyticsEnabled := input.analyticsEnabled.getD row.analyticsEnabled
      productResearchEnabled := input.productResearchEnabled.getD row.productResearchEnabled
      updatedAt := w.now }
  | none =>
    ⟨userId, input.analyticsEnabled.getD (currentConsent current .analytics),
      input.productResearchEnabled.getD (currentConsent current .productResearch), w.now⟩

/-- The rows of records that are created. -/
def recordRows (userId : ℕ) (records : List (ConsentCategory × Bool)) : List ConsentRecordRow :=
  records.map fun record ↦ ⟨userId, record.1, record.2, w.now⟩

/-- The end of a transaction. -/
def ended (f : ∀ {ρ : Type}, Cell ι ρ → Cell ι ρ) (records : Table ι ConsentRecordRow) :
    ConsentWorld ι :=
  { w with preferences := fun userId ↦ f (w.preferences userId), records }

/-- What a thread has written is committed. -/
def commit (i : ι) : ConsentWorld ι := w.ended (Cell.commit i) (w.records.commit i)

/-- What a thread has written is forgotten. -/
def rollback (i : ι) : ConsentWorld ι := w.ended (Cell.rollback i) (w.records.rollback i)

/-- What a statement does when it does not fail by accident, unless it has to wait. -/
def perform (i : ι) : (op : ConsentStatement) →
    Option (Except StatementError op.Ret × ConsentWorld ι)
  | .findUser userId => some (.ok (w.users.any fun user ↦ user.id = userId), w)
  | .findPreference userId => some (.ok ((w.preferences userId).view (some i)), w)
  | .upsert userId input current =>
    if (w.preferences userId).lockedFor (some i) then none
    else
      let row := w.upserted userId input current ((w.preferences userId).view (some i))
      some (.ok (), { w with
        preferences := Function.update w.preferences userId
          ((w.preferences userId).write (some i) row) })
  | .createMany userId records =>
    some (.ok (), { w with
      records := w.records.insertMany (some i) (w.recordRows userId records) })
  | .findAccount userId =>
    some (.ok ((w.users.find? fun user ↦ user.id = userId).map fun user ↦
      (user, (w.preferences userId).view none)), w)
  | .commit => some (.ok (), w.commit i)
  | .rollback => some (.ok (), w.rollback i)

/-- What is left of a statement that fails before it is executed. -/
def lost (i : ι) (op : ConsentStatement) : ConsentWorld ι :=
  match op with
  | .commit => w.rollback i
  | _ => w

/-- A statement that can fail by accident. -/
def faulty (i : ι) (x : ConsentChoice) (op : ConsentStatement) :
    Option (Except StatementError op.Ret × ConsentWorld ι) :=
  match x.fault with
  | .none => w.perform i op
  | .before => some (.error .unavailable, w.lost i op)
  | .after => (w.perform i op).map fun out ↦ (.error .unavailable, out.2)

/-- A statement under what is decided outside. A rollback does not fail. -/
def exec (i : ι) (x : ConsentChoice) (op : ConsentStatement) :
    Option (Except StatementError op.Ret × ConsentWorld ι) :=
  let w := { w with now := w.now + x.elapse }
  match op with
  | .rollback => w.perform i .rollback
  | op => w.faulty i x op

end ConsentWorld

/-- The consents as a machine. A lost call's transaction is rolled back. -/
def consentMachine (ι : Type) [DecidableEq ι] :
    Machine consentStatements ι ConsentChoice (ConsentWorld ι) where
  exec i x op w := w.exec i x op
  crash i w := w.rollback i

/-! ### The call -/

/-- What a call is rejected with. -/
inductive ConsentRejection where
  | failure (e : TenantFailure)
  | statement (e : StatementError)

/-- A call of the account service on consents. -/
abbrev ConsentProg (α : Type) := Prog consentStatements ConsentRejection α

/-- Issue a statement; its error is thrown. -/
def consentRun (op : ConsentStatement) : ConsentProg op.Ret :=
  .stmt op fun
    | .ok a => .pure a
    | .error e => .throw (.statement e)

/-- `AccountService.getAccount` -/
def ConsentProg.getAccount (userId : ℕ) : ConsentProg AccountResponse := do
  match ← consentRun (.findAccount userId) with
  | none => throw (.failure (.notFound "Account not found"))
  | some (user, preference) =>
    pure ⟨user, currentConsent preference .analytics, currentConsent preference .productResearch,
      preference.map ConsentPreferenceRow.updatedAt⟩

/-- What `updateConsents` does in its transaction. -/
def ConsentProg.changeConsents (userId : ℕ) (input : UpdateConsentsDto) : ConsentProg Unit := do
  let found : Bool ← consentRun (.findUser userId)
  if !found then throw (.failure (.notFound "Account not found"))
  else
    let current ← consentRun (.findPreference userId)
    let records := changedConsents current input
    if records = [] then pure ()
    else
      consentRun (.upsert userId input current)
      consentRun (.createMany userId records)

/-- `AccountService.updateConsents` -/
def ConsentProg.updateConsents (userId : ℕ) (input : UpdateConsentsDto) :
    ConsentProg AccountResponse := do
  if input.analyticsEnabled.isNone && input.productResearchEnabled.isNone then
    throw (.failure (.badRequest "At least one consent is required"))
  else
    tryCatch (ConsentProg.changeConsents userId input) fun e ↦ do
      consentRun .rollback
      throw e
    consentRun .commit
    ConsentProg.getAccount userId

variable {ι : Type}

/-- The store of the consents with its log. -/
abbrev ConsentState (ι : Type) := State consentStatements ι (ConsentWorld ι)

/-- The calls, with the store. -/
abbrev ConsentConfig (ι : Type) :=
  Concurrency.Config consentStatements ι (ConsentWorld ι) ConsentRejection AccountResponse

/-! ### The log of a category -/

/-- The choice that a record is about, if it is one of the user and the category. -/
def chosen (userId : ℕ) (category : ConsentCategory) (row : ConsentRecordRow) : Option Bool :=
  if row.userId = userId ∧ row.category = category then some row.granted else none

namespace ConsentWorld

variable [DecidableEq ι] (w t : ConsentWorld ι)

/-- The choices of a category in the order of their records, as a viewer sees them. -/
def consentLog (viewer : Option ι) (userId : ℕ) (category : ConsentCategory) : List Bool :=
  ((w.records.rows viewer).map Keyed.row).filterMap (chosen userId category)

/-- **The history is faithful**: the stored records of a category are a log of the changes of the
choice from its default to the stored preference. -/
def FaithfulConsents : Prop :=
  ∀ userId category, Changes false (w.consentLog none userId category)
    (currentConsent (w.preferences userId).stored category)

variable {w t} {viewer viewer' : Option ι} {userId : ℕ} {category : ConsentCategory}

/-- The log, row by row. -/
theorem consentLog_eq : w.consentLog viewer userId category =
    (List.range w.records.next).filterMap fun id ↦
      ((w.records.cell id).view viewer).bind (chosen userId category) := by
  simp [consentLog, Table.rows, List.map_filterMap, List.filterMap_filterMap, Option.map_map,
    Function.comp_def]

/-- The log is what the viewer sees, row by row. -/
theorem consentLog_congr (hnext : w.records.next ≤ t.records.next)
    (h : ∀ id, ((t.records.cell id).view viewer').bind (chosen userId category) =
      ((w.records.cell id).view viewer).bind (chosen userId category)) :
    t.consentLog viewer' userId category = w.consentLog viewer userId category := by
  obtain ⟨n, hn⟩ := Nat.exists_eq_add_of_le hnext
  have hfresh : ∀ id ∈ (List.range n).map (w.records.next + ·),
      ((w.records.cell id).view viewer).bind (chosen userId category) = none := by
    intro id hid
    obtain ⟨k, -, rfl⟩ := List.mem_map.1 hid
    rw [w.records.fresh _ (Nat.le_add_right ..)]
    rfl
  rw [consentLog_eq, consentLog_eq, hn, List.range_add, List.filterMap_append,
    List.filterMap_congr fun id _ ↦ h id, List.filterMap_congr fun id _ ↦ h id,
    List.filterMap_eq_nil_iff.2 hfresh, List.append_nil]

end ConsentWorld

variable [DecidableEq ι]

/-- The runs in which an upsert writes over the preference that its call has read, as far as the call
was given a choice. -/
def FreshConsents : Restriction consentStatements ι ConsentChoice (ConsentWorld ι) where
  stmt _ _ op s := ∀ userId input current, op = ConsentStatement.upsert userId input current →
    ∀ category, (input.given category).isSome →
      currentConsent current category =
        currentConsent (s.shared.preferences userId).stored category
  crash _ _ := True

/-- What is known of the tables: the history is faithful, and a record that is not committed is new
and its transaction has written the preference of its user. -/
structure ConsentsSound (w : ConsentWorld ι) : Prop where
  faithful : w.FaithfulConsents
  appended : ∀ id i row, w.records.pending id = some (i, row) →
    w.records.stored id = none ∧ ∃ p, (w.preferences row.userId).pending = some (i, p)

/-! ### What a statement writes -/

/-- What a statement of thread `j` can make of the tables. -/
structure ConsentMoves (j : ι) (w t : ConsentWorld ι) : Prop where
  preferences : ∀ userId, (w.preferences userId).Moves j (t.preferences userId)
  records : ∀ id, (w.records.cell id).Moves j (t.records.cell id)
  next : w.records.next ≤ t.records.next

namespace ConsentMoves

variable {i j : ι} {w t : ConsentWorld ι} {op : ConsentStatement}

/-- A rollback is a move of the thread's own. -/
theorem rollback : ConsentMoves j w (w.rollback j) := ⟨fun _ ↦ .rollback, fun _ ↦ .rollback, le_rfl⟩

theorem of_perform {r : Except StatementError op.Ret} (h : w.perform j op = some (r, t)) :
    ConsentMoves j w t := by
  cases op with
  | findUser | findPreference | findAccount =>
    cases h
    exact ⟨fun _ ↦ .same, fun _ ↦ .same, le_rfl⟩
  | upsert userId input current =>
    simp only [ConsentWorld.perform] at h
    split at h
    · cases h
    · next hl =>
      cases h
      refine ⟨fun u ↦ ?_, fun _ ↦ .same, le_rfl⟩
      dsimp only
      by_cases hu : u = userId
      · subst hu
        rw [Function.update_self]
        exact .write _ (Bool.eq_false_iff.2 hl)
      · rw [Function.update_of_ne hu]
        exact .same
  | createMany userId records =>
    cases h
    refine ⟨fun _ ↦ .same, fun id ↦ ?_, Table.next_le_insertMany _ _ _⟩
    rcases Table.insertMany_cell w.records (some j) (w.recordRows userId records) id with
      hsame | ⟨hempty, row, -, hwritten⟩
    · exact hsame ▸ .same
    · rw [hwritten, ← hempty]
      exact .write row (by rw [hempty]; rfl)
  | commit =>
    cases h
    exact ⟨fun _ ↦ .commit, fun _ ↦ .commit, le_rfl⟩
  | rollback =>
    cases h
    exact rollback

theorem of_faulty {x : ConsentChoice} {r : Except StatementError op.Ret}
    (h : w.faulty j x op = some (r, t)) : ConsentMoves j w t := by
  unfold ConsentWorld.faulty at h
  split at h
  · exact of_perform h
  · cases h
    unfold ConsentWorld.lost
    split
    · exact rollback
    · exact ⟨fun _ ↦ .same, fun _ ↦ .same, le_rfl⟩
  · obtain ⟨out, hout, heq⟩ := Option.map_eq_some_iff.1 h
    cases heq
    exact of_perform hout

theorem of_exec {x : ConsentChoice} {r : Except StatementError op.Ret}
    (h : w.exec j x op = some (r, t)) : ConsentMoves j w t := by
  -- The clock moves first; it changes no table.
  let later : ConsentWorld ι := { w with now := w.now + x.elapse }
  have hlater : ConsentMoves j later t := by
    cases op with
    | rollback =>
      have h : later.perform j .rollback = some (r, t) := h
      exact of_perform h
    | _ => exact of_faulty h
  exact ⟨hlater.preferences, hlater.records, hlater.next⟩

end ConsentMoves

/-! ### What the others leave alone -/

section Others

variable {i j : ι} {w t : ConsentWorld ι} {userId : ℕ} {category : ConsentCategory}
  {p : ConsentPreferenceRow}

/-- A transaction that has written no record of the user sees the stored ones. -/
theorem ConsentsSound.consentLog_unwritten (h : ConsentsSound w)
    (hnone : ∀ id row, w.records.pending id = some (i, row) → row.userId ≠ userId) :
    w.consentLog (some i) userId category = w.consentLog none userId category := by
  refine ConsentWorld.consentLog_congr le_rfl fun id ↦ ?_
  rw [Cell.view_none]
  by_cases hp : ∃ row, w.records.pending id = some (i, row)
  · obtain ⟨row, hp⟩ := hp
    have hstored : (w.records.cell id).stored = none := (h.appended id i row hp).1
    rw [Cell.view_of_pending hp, hstored]
    exact if_neg fun heq ↦ hnone id row hp heq.1
  · rw [Cell.view_of_not_pending fun row hrow ↦ hp ⟨row, hrow⟩]

/-- **Who has written the preference** has the records of the user for itself: what others do it does
not see. -/
theorem ConsentMoves.consentLog (h : ConsentMoves j w t) (hj : i ≠ j) (hw : ConsentsSound w)
    (ht : ConsentsSound t) (hp : (w.preferences userId).pending = some (i, p)) :
    t.consentLog (some i) userId category = w.consentLog (some i) userId category := by
  refine ConsentWorld.consentLog_congr h.next fun id ↦ ?_
  -- This thread does not see the draft of another one.
  have hview : ∀ {c : Cell ι ConsentRecordRow} {row}, c.pending = some (j, row) →
      c.view (some i) = c.stored := by
    intro c row hrow
    refine Cell.view_of_not_pending fun row' hrow' ↦ ?_
    cases hrow.symm.trans hrow'
    exact hj rfl
  have hmoves := h.records id
  generalize htcell : t.records.cell id = c' at hmoves ⊢
  cases hmoves with
  | same => rfl
  | write row hl =>
    have hpending : t.records.pending id = some (j, row) := by
      rw [Table.pending, htcell]
      rfl
    have hstored : (w.records.cell id).stored = none := by
      have hstored := (ht.appended id j row hpending).1
      rw [Table.stored, htcell] at hstored
      exact hstored
    rw [hview rfl]
    rcases Cell.pending_of_not_locked hl with hnone | ⟨k, row', hk, hrow'⟩
    · rw [Cell.view_of_not_pending (by rw [hnone]; exact fun _ h ↦ Option.some_ne_none _ h.symm)]
      rfl
    · cases hk
      rw [hview hrow']
      rfl
  | commit =>
    -- The records that `j` commits are of its own user, whose preference it holds locked.
    by_cases hpending : ∃ row, (w.records.cell id).pending = some (j, row)
    · obtain ⟨row, hpending⟩ := hpending
      obtain ⟨hnew, p', hp'⟩ := hw.appended id j row hpending
      have hstored : (w.records.cell id).stored = none := hnew
      have hother : row.userId ≠ userId := by
        rintro rfl
        cases hp.symm.trans hp'
        exact hj rfl
      rw [Cell.commit_of_pending hpending, hview hpending, hstored]
      exact if_neg fun heq ↦ hother heq.1
    · rw [Cell.commit_of_not_pending fun row hrow ↦ hpending ⟨row, hrow⟩]
  | rollback =>
    by_cases hpending : ∃ row, (w.records.cell id).pending = some (j, row)
    · obtain ⟨row, hpending⟩ := hpending
      rw [Cell.rollback_of_pending hpending, hview hpending]
      rfl
    · rw [Cell.rollback_of_not_pending fun row hrow ↦ hpending ⟨row, hrow⟩]

end Others

/-! ### What is known of the tables -/

section Sound

variable {i : ι} {w t : ConsentWorld ι}

/-- A statement keeps what is known of the tables if the history stays faithful and its own records
belong to a preference it has written. -/
theorem ConsentMoves.sound (h : ConsentMoves i w t) (hw : ConsentsSound w)
    (hfaithful : t.FaithfulConsents)
    (hown : ∀ id row, t.records.pending id = some (i, row) →
      t.records.stored id = none ∧ ∃ p, (t.preferences row.userId).pending = some (i, p)) :
    ConsentsSound t := by
  refine ⟨hfaithful, fun id j row hp ↦ ?_⟩
  by_cases hj : j = i
  · subst hj
    exact hown id row hp
  · have hcell := (h.records id).of_pending_after hj hp
    obtain ⟨hstored, p, hpreference⟩ := hw.appended id j row (by rw [Table.pending, ← hcell]; exact hp)
    refine ⟨by rw [Table.stored, hcell]; exact hstored, p, ?_⟩
    rw [(h.preferences row.userId).of_pending hj hpreference]
    exact hpreference

/-- What commits nothing leaves the history as it was. -/
theorem ConsentWorld.FaithfulConsents.of_stored (h : w.FaithfulConsents)
    (hnext : w.records.next ≤ t.records.next)
    (hrecords : ∀ id, t.records.stored id = w.records.stored id)
    (hpreferences : ∀ userId, (t.preferences userId).stored = (w.preferences userId).stored) :
    t.FaithfulConsents := by
  intro userId category
  have hlog : t.consentLog none userId category = w.consentLog none userId category := by
    refine ConsentWorld.consentLog_congr hnext fun id ↦ ?_
    have hstored : (t.records.cell id).stored = (w.records.cell id).stored := hrecords id
    rw [Cell.view_none, Cell.view_none, hstored]
  rw [hlog, hpreferences]
  exact h userId category

theorem ConsentsSound.rollback (h : ConsentsSound w) (i : ι) : ConsentsSound (w.rollback i) := by
  refine ConsentMoves.rollback.sound h (h.faithful.of_stored le_rfl
    (fun id ↦ Cell.rollback_stored _ _) fun u ↦ Cell.rollback_stored _ _) fun id row hp ↦ ?_
  exact absurd hp (Cell.rollback_pending_ne _ _ _)

end Sound

/-! ### The stages of a call -/

/-- Transaction `i` has written no preference. -/
def ConsentWorld.Idle (w : ConsentWorld ι) (i : ι) : Prop :=
  ∀ userId p, (w.preferences userId).pending ≠ some (i, p)

/-- It has read the preference; one that was there stays. -/
def ConsentWorld.HasRead (w : ConsentWorld ι) (i : ι) (userId : ℕ)
    (current : Option ConsentPreferenceRow) : Prop :=
  w.Idle i ∧ (current.isSome → (w.preferences userId).stored.isSome)

/-- It has written the preference, over what it had read, and no record. -/
structure ConsentWorld.HasWritten (w : ConsentWorld ι) (i : ι) (userId : ℕ)
    (input : UpdateConsentsDto) (current : Option ConsentPreferenceRow) : Prop where
  locked : ∃ p, (w.preferences userId).pending = some (i, p) ∧ ∀ category,
    currentConsent (some p) category =
      (input.given category).getD (currentConsent (w.preferences userId).stored category)
  fresh : ∀ category, (input.given category).isSome →
    currentConsent current category = currentConsent (w.preferences userId).stored category
  alone : ∀ u, u ≠ userId → ∀ p, (w.preferences u).pending ≠ some (i, p)
  unwritten : ∀ id row, w.records.pending id ≠ some (i, row)

/-- It may commit: what it sees of a user whose preference it has written is faithful. -/
def ConsentWorld.Ready (w : ConsentWorld ι) (i : ι) : Prop :=
  ∀ userId p, (w.preferences userId).pending = some (i, p) → ∀ category,
    Changes false (w.consentLog (some i) userId category) (currentConsent (some p) category)

section Stages

variable {i j : ι} {w t : ConsentWorld ι} {userId : ℕ} {input : UpdateConsentsDto}
  {current : Option ConsentPreferenceRow}

/-- Who has written nothing has written nothing after another's statement. -/
theorem ConsentMoves.idle (h : ConsentMoves j w t) (hj : i ≠ j) (hi : w.Idle i) : t.Idle i := by
  intro u p hp
  rw [(h.preferences u).of_pending_after hj hp] at hp
  exact hi u p hp

/-- A preference that is there stays. -/
theorem ConsentMoves.stored_isSome (h : ConsentMoves j w t)
    (hs : (w.preferences userId).stored.isSome) : (t.preferences userId).stored.isSome := by
  have hmoves := h.preferences userId
  generalize t.preferences userId = c' at hmoves
  cases hmoves with
  | same | write => exact hs
  | commit =>
    rw [Cell.commit_stored, Cell.view]
    split
    · split
      · rfl
      · exact hs
    · exact hs
  | rollback => rwa [Cell.rollback_stored]

theorem ConsentMoves.hasRead (h : ConsentMoves j w t) (hj : i ≠ j)
    (hi : w.HasRead i userId current) : t.HasRead i userId current :=
  ⟨h.idle hj hi.1, fun hcurrent ↦ h.stored_isSome (hi.2 hcurrent)⟩

/-- **What is written is locked**: nobody else touches it, or adds a record. -/
theorem ConsentMoves.hasWritten (h : ConsentMoves j w t) (hj : i ≠ j)
    (hi : w.HasWritten i userId input current) : t.HasWritten i userId input current := by
  obtain ⟨p, hp, hvalues⟩ := hi.locked
  have hsame : t.preferences userId = w.preferences userId := (h.preferences userId).of_pending hj hp
  refine ⟨⟨p, hsame ▸ hp, hsame ▸ hvalues⟩, hsame ▸ hi.fresh, fun u hu p hp ↦ ?_,
    fun id row hp ↦ ?_⟩
  · rw [(h.preferences u).of_pending_after hj hp] at hp
    exact hi.alone u hu p hp
  · have hcell := (h.records id).of_pending_after hj hp
    rw [Table.pending, hcell] at hp
    exact hi.unwritten id row hp

theorem ConsentMoves.ready (h : ConsentMoves j w t) (hj : i ≠ j) (hw : ConsentsSound w)
    (ht : ConsentsSound t) (hi : w.Ready i) : t.Ready i := by
  intro u p hp category
  have hcell := (h.preferences u).of_pending_after hj hp
  rw [hcell] at hp
  rw [h.consentLog hj hw ht hp]
  exact hi u p hp category

/-- A thread that has not written has no record pending. -/
theorem ConsentWorld.Idle.unwritten (h : w.Idle i) (hw : ConsentsSound w) (id : ℕ)
    (row : ConsentRecordRow) : w.records.pending id ≠ some (i, row) := by
  intro hp
  obtain ⟨-, p, hp⟩ := hw.appended id i row hp
  exact h row.userId p hp

/-- Who has written nothing may commit. -/
theorem ConsentWorld.Idle.ready (h : w.Idle i) : w.Ready i :=
  fun u p hp ↦ absurd hp (h u p)

/-- **The upsert** writes what was read, changed as the call was given. -/
theorem ConsentWorld.HasRead.upserted (h : w.HasRead i userId current)
    (hfresh : ∀ category, (input.given category).isSome →
      currentConsent current category = currentConsent (w.preferences userId).stored category)
    (category : ConsentCategory) :
    currentConsent (some (w.upserted userId input current ((w.preferences userId).view (some i))))
      category =
        (input.given category).getD (currentConsent (w.preferences userId).stored category) := by
  rw [Cell.view_of_not_pending fun p ↦ h.1 userId p]
  cases hstored : (w.preferences userId).stored with
  | some row => cases category <;> rfl
  | none =>
    have hnone : current = none := by
      by_contra hcurrent
      have := h.2 (Option.isSome_iff_ne_none.2 hcurrent)
      rw [hstored] at this
      cases this
    subst hnone
    cases category <;> rfl

omit [DecidableEq ι] in
/-- The records of a category that a call creates. -/
theorem recordRows_chosen (category : ConsentCategory) :
    (w.recordRows userId (changedConsents current input)).filterMap (chosen userId category) =
      match input.given category with
      | some granted => if currentConsent current category = granted then [] else [granted]
      | none => [] := by
  cases category <;> cases hanalytics : input.given .analytics <;>
    cases hresearch : input.given .productResearch <;>
    simp [ConsentWorld.recordRows, changedConsents, CONSENT_CATEGORIES, hanalytics, hresearch]
  all_goals grind [chosen]

end Stages

/-! ### One statement -/

section Statements

variable {i : ι} {w t : ConsentWorld ι} {userId : ℕ} {input : UpdateConsentsDto}
  {current : Option ConsentPreferenceRow}

/-- A statement that writes nothing. -/
theorem ConsentsSound.of_eq (h : ConsentsSound w) (hp : t.preferences = w.preferences)
    (hr : t.records = w.records) : ConsentsSound t := by
  obtain ⟨now, users, preferences, records⟩ := t
  cases hp
  cases hr
  exact ⟨h.faithful, h.appended⟩

/-- Writing the preference keeps the tables sound. -/
theorem ConsentsSound.upsert (h : ConsentsSound w) {r : Except StatementError Unit}
    (hx : w.perform i (.upsert userId input current) = some (r, t)) : ConsentsSound t := by
  have hmoves := ConsentMoves.of_perform hx
  simp only [ConsentWorld.perform] at hx
  split at hx
  · cases hx
  cases hx
  refine hmoves.sound h (h.faithful.of_stored le_rfl (fun _ ↦ rfl) fun u ↦ ?_) fun id row hp ↦ ?_
  · dsimp only
    by_cases hu : u = userId
    · subst hu
      rw [Function.update_self]
      rfl
    · rw [Function.update_of_ne hu]
  · obtain ⟨hstored, p, hp⟩ := h.appended id i row hp
    refine ⟨hstored, ?_⟩
    dsimp only
    by_cases hu : row.userId = userId
    · rw [hu, Function.update_self]
      exact ⟨_, rfl⟩
    · rw [Function.update_of_ne hu]
      exact ⟨p, hp⟩

/-- **Writing the preference** that was read: from now on it is the thread's own. -/
theorem ConsentWorld.HasRead.upsert (h : w.HasRead i userId current) (hw : ConsentsSound w)
    (hfresh : ∀ category, (input.given category).isSome →
      currentConsent current category = currentConsent (w.preferences userId).stored category)
    {r : Except StatementError Unit}
    (hx : w.perform i (.upsert userId input current) = some (r, t)) :
    t.HasWritten i userId input current := by
  simp only [ConsentWorld.perform] at hx
  split at hx
  · cases hx
  cases hx
  have hself : Function.update w.preferences userId ((w.preferences userId).write (some i)
      (w.upserted userId input current ((w.preferences userId).view (some i)))) userId = _ :=
    Function.update_self ..
  refine ⟨?_, ?_, fun u hu ↦ ?_, h.1.unwritten hw⟩ <;> dsimp only
  · rw [hself]
    exact ⟨_, rfl, h.upserted hfresh⟩
  · rw [hself]
    exact hfresh
  · rw [Function.update_of_ne hu]
    exact h.1 u

/-- **The records** are created under the lock of the preference. -/
theorem ConsentWorld.HasWritten.createMany (h : w.HasWritten i userId input current)
    (hw : ConsentsSound w) {r : Except StatementError Unit}
    (hx : w.perform i (.createMany userId (changedConsents current input)) = some (r, t)) :
    ConsentsSound t ∧ t.Ready i := by
  have hmoves := ConsentMoves.of_perform hx
  cases hx
  obtain ⟨p, hp, hvalues⟩ := h.locked
  set rows := w.recordRows userId (changedConsents current input) with hrows
  have hcell := Table.insertMany_cell w.records (some i) rows
  constructor
  · refine hmoves.sound hw (hw.faithful.of_stored hmoves.next (fun id ↦ ?_) fun _ ↦ rfl)
      fun id row hpending ↦ ?_
    · rcases hcell id with hsame | ⟨hempty, row, -, hwritten⟩
      · exact congrArg Cell.stored hsame
      · exact (congrArg Cell.stored hwritten).trans (congrArg Cell.stored hempty).symm
    · rcases hcell id with hsame | ⟨hempty, row', hrow', hwritten⟩
      · exact absurd ((congrArg Cell.pending hsame).symm.trans hpending) (h.unwritten id row)
      · cases (congrArg Cell.pending hwritten).symm.trans hpending
        obtain ⟨record, -, rfl⟩ := List.mem_map.1 hrow'
        exact ⟨congrArg Cell.stored hwritten, p, hp⟩
  · intro u p' hp' category
    by_cases hu : u = userId
    · subst hu
      cases hp.symm.trans hp'
      have hlog : ConsentWorld.consentLog { w with records := w.records.insertMany (some i) rows }
          (some i) u category = w.consentLog (some i) u category ++
            rows.filterMap (chosen u category) := by
        rw [ConsentWorld.consentLog, Table.rows_insertMany, List.filterMap_append]
        rfl
      rw [hlog, hw.consentLog_unwritten fun id row hpending ↦
        absurd hpending (h.unwritten id row), hrows, recordRows_chosen, hvalues category]
      have hfaithful := hw.faithful u category
      cases hgiven : input.given category with
      | none => simpa using hfaithful
      | some granted =>
        rw [h.fresh category (by rw [hgiven]; rfl)]
        by_cases hsame : currentConsent (w.preferences u).stored category = granted
        · simpa [hsame] using hfaithful
        · simpa [hsame] using hfaithful.concat hsame
    · exact absurd hp' (h.alone u hu p')

/-- **The commit** makes the history what the transaction sees. -/
theorem ConsentWorld.Ready.commit (h : w.Ready i) (hw : ConsentsSound w) :
    ConsentsSound (w.commit i) := by
  have hmoves : ConsentMoves i w (w.commit i) := ⟨fun _ ↦ .commit, fun _ ↦ .commit, le_rfl⟩
  refine hmoves.sound hw (fun u category ↦ ?_) fun id row hp ↦
    absurd hp (Cell.commit_pending_ne _ _ _)
  have hlog : (w.commit i).consentLog none u category = w.consentLog (some i) u category := by
    refine ConsentWorld.consentLog_congr le_rfl fun id ↦ ?_
    have hstored : ((w.commit i).records.cell id).stored = (w.records.cell id).view (some i) :=
      Cell.commit_stored _ _
    rw [Cell.view_none, hstored]
  have hstored : ((w.commit i).preferences u).stored = (w.preferences u).view (some i) :=
    Cell.commit_stored _ _
  rw [hlog, hstored]
  by_cases hp : ∃ p, (w.preferences u).pending = some (i, p)
  · obtain ⟨p, hp⟩ := hp
    rw [Cell.view_of_pending hp]
    exact h u p hp category
  · have hnone : ∀ id row, w.records.pending id = some (i, row) → row.userId ≠ u := by
      rintro id row hrow rfl
      exact hp (hw.appended id i row hrow).2
    rw [Cell.view_of_not_pending fun p hpending ↦ hp ⟨p, hpending⟩, hw.consentLog_unwritten hnone]
    exact hw.faithful u category

end Statements

/-! ### Calls -/

/-- What the calls keep. -/
def consentProtocol (ι : Type) [DecidableEq ι] : Protocol (consentMachine ι) FreshConsents where
  Inv s := ConsentsSound s.shared
  Guar _ _ _ := True
  crash_ok i _ hs _ := ⟨hs.rollback i, trivial⟩

/-- An assertion of transaction `i` that neither the others nor the clock can break. -/
structure Unbroken (i : ι) (R : ConsentWorld ι → Prop) : Prop where
  others : ∀ j w t, i ≠ j → ConsentMoves j w t → ConsentsSound w → ConsentsSound t → R w → R t
  clock : ∀ (w : ConsentWorld ι) (now : ℤ), R w → R { w with now }

section Calls

variable {i : ι} {R : ConsentWorld ι → Prop} {userId : ℕ} {input : UpdateConsentsDto}
  {current : Option ConsentPreferenceRow}

/-- What no other thread breaks is stable. -/
theorem Unbroken.stable (h : Unbroken i R) :
    (consentProtocol ι).Stable i fun s ↦ R s.shared := by
  intro s s' hr hs
  obtain ⟨j, hj, hm, -⟩ := hr.move
  refine h.others j _ _ hj.symm ?_ hr.inv hr.inv' hs
  cases hm with
  | stmt _ hx => exact .of_exec hx
  | crash => exact .rollback

/-- There may be nothing to break. -/
theorem unbroken_true : Unbroken i fun _ ↦ True :=
  ⟨fun _ _ _ _ _ _ _ _ ↦ trivial, fun _ _ _ ↦ trivial⟩

theorem unbroken_idle : Unbroken i fun w ↦ w.Idle i :=
  ⟨fun _ _ _ hj h _ _ ↦ h.idle hj, fun _ _ h ↦ h⟩

theorem unbroken_hasRead : Unbroken i fun w ↦ w.HasRead i userId current :=
  ⟨fun _ _ _ hj h _ _ ↦ h.hasRead hj, fun _ _ h ↦ h⟩

/-- What is written is locked. -/
theorem unbroken_hasWritten : Unbroken i fun w ↦ w.HasWritten i userId input current :=
  ⟨fun _ _ _ hj h _ _ ↦ h.hasWritten hj,
    fun _ _ h ↦ ⟨h.locked, h.fresh, h.alone, h.unwritten⟩⟩

theorem unbroken_ready : Unbroken i fun w ↦ w.Ready i :=
  ⟨fun _ _ _ hj h hw ht ↦ h.ready hj hw ht, fun _ _ h ↦ h⟩

/-- **A statement** is judged by what it does when it does not fail by accident. -/
theorem consentRun_triple {op : ConsentStatement} {Mid : op.Ret → ConsentWorld ι → Prop}
    (hR : Unbroken i R) (hMid : ∀ a, Unbroken i (Mid a))
    (hop : ∀ (w : ConsentWorld ι) r t, ConsentsSound w → R w →
      (∀ userId input current, op = .upsert userId input current →
        ∀ category, (input.given category).isSome →
          currentConsent current category =
            currentConsent (w.preferences userId).stored category) →
      w.perform i op = some (r, t) → ConsentsSound t ∧ ∀ a, r = .ok a → Mid a t) :
    (consentProtocol ι).Triple i (fun s ↦ R s.shared) (consentRun op)
      (fun a s ↦ Mid a s.shared) fun _ _ ↦ True := by
  refine .stmt (fun r s ↦ ∀ a, r = .ok a → Mid a s.shared) hR.stable ?_ fun r ↦ ?_
  · intro s x r t hs hpre hfresh hx
    let later : ConsentWorld ι := { s.shared with now := s.shared.now + x.elapse }
    have hlater : ConsentsSound later := ConsentsSound.of_eq hs rfl rfl
    have hop := fun r t ↦ hop later r t hlater (hR.clock _ _ hpre) hfresh
    have hfaulty : later.faulty i x op = some (r, t) →
        ConsentsSound t ∧ ∀ a, r = .ok a → Mid a t := by
      intro hx
      unfold ConsentWorld.faulty at hx
      split at hx
      · exact hop r t hx
      · cases hx
        refine ⟨?_, nofun⟩
        unfold ConsentWorld.lost
        split
        · exact hlater.rollback i
        · exact hlater
      · obtain ⟨out, hout, heq⟩ := Option.map_eq_some_iff.1 hx
        cases heq
        exact ⟨(hop out.1 out.2 hout).1, nofun⟩
    have hresult : ConsentsSound t ∧ ∀ a, r = .ok a → Mid a t := by
      cases op with
      | rollback => exact hop r t hx
      | _ => exact hfaulty hx
    exact ⟨hresult.1, trivial, hresult.2⟩
  · cases r with
    | error e => exact .throw (fun _ _ _ h ↦ nofun) fun _ _ _ ↦ trivial
    | ok a =>
      exact .pre (.pure (hMid a).stable fun _ _ h ↦ h) fun s _ h ↦ h a rfl

/-- A statement that writes nothing and whose answer does not matter. -/
theorem consentRun_reads {op : ConsentStatement} (hR : Unbroken i R)
    (hop : ∀ (w : ConsentWorld ι) r t, w.perform i op = some (r, t) → t = w) :
    (consentProtocol ι).Triple i (fun s ↦ R s.shared) (consentRun op) (fun _ s ↦ R s.shared)
      fun _ _ ↦ True :=
  consentRun_triple hR (fun _ ↦ hR) fun w r t hw hpre _ hx ↦ by
    rw [hop w r t hx]
    exact ⟨hw, fun _ _ ↦ hpre⟩

/-- **The body of the transaction**, from its first statement to the records. -/
theorem changeConsents_triple (userId : ℕ) (input : UpdateConsentsDto) :
    (consentProtocol ι).Triple i (fun s ↦ s.shared.Idle i)
      (ConsentProg.changeConsents userId input) (fun _ s ↦ s.shared.Ready i) fun _ _ ↦ True := by
  refine .bind (consentRun_reads unbroken_idle fun w r t hx ↦ ?_) fun found ↦ ?_
  · cases hx
    rfl
  refine .ite (fun _ ↦ .throw unbroken_idle.stable fun _ _ _ ↦ trivial) fun _ ↦ ?_
  refine .bind (R := fun current s ↦ s.shared.HasRead i userId current)
    (consentRun_triple unbroken_idle (fun _ ↦ unbroken_hasRead) fun w r t hw hidle _ hx ↦ ?_)
    fun current ↦ .ite (fun _ ↦ ?_) fun _ ↦ ?_
  · cases hx
    refine ⟨hw, fun current hcurrent ↦ ⟨hidle, fun hsome ↦ ?_⟩⟩
    cases hcurrent
    rwa [Cell.view_of_not_pending fun p ↦ hidle userId p] at hsome
  · exact .pure unbroken_hasRead.stable fun _ _ h ↦ h.1.ready
  · refine .bind (R := fun _ s ↦ s.shared.HasWritten i userId input current)
      (consentRun_triple unbroken_hasRead (fun _ ↦ unbroken_hasWritten)
        fun w r t hw hread hfresh hx ↦ ?_) fun _ ↦
      consentRun_triple unbroken_hasWritten (fun _ ↦ unbroken_ready)
        fun w r t hw hwritten _ hx ↦ ?_
    · exact ⟨hw.upsert hx, fun _ _ ↦ hread.upsert hw (hfresh _ _ _ rfl) hx⟩
    · obtain ⟨ht, hready⟩ := hwritten.createMany hw hx
      exact ⟨ht, fun _ _ ↦ hready⟩

/-- **The call**, with its transaction and the answer it reads at the end. -/
theorem updateConsents_triple (userId : ℕ) (input : UpdateConsentsDto) :
    (consentProtocol ι).Triple i (fun s ↦ s.shared.Idle i)
      (ConsentProg.updateConsents userId input) (fun _ _ ↦ True) fun _ _ ↦ True := by
  refine .ite (fun _ ↦ .throw unbroken_idle.stable fun _ _ _ ↦ trivial) fun _ ↦
    .bind (R := fun _ s ↦ s.shared.Ready i) ?_ fun _ ↦ .bind (R := fun _ _ ↦ True) ?_ fun _ ↦ ?_
  · refine .tryCatch (changeConsents_triple userId input) fun e ↦ .bind (R := fun _ _ ↦ True)
      (consentRun_triple unbroken_true (fun _ ↦ unbroken_true) fun w r t hw _ _ hx ↦ ?_)
      fun _ ↦ .throw unbroken_true.stable fun _ _ _ ↦ trivial
    cases hx
    exact ⟨hw.rollback i, fun _ _ ↦ trivial⟩
  · refine consentRun_triple unbroken_ready (fun _ ↦ unbroken_true) fun w r t hw hready _ hx ↦ ?_
    cases hx
    exact ⟨hready.commit hw, fun _ _ ↦ trivial⟩
  · refine .bind (R := fun _ _ ↦ True) (consentRun_reads unbroken_true fun w r t hx ↦ ?_)
      fun account ↦ ?_
    · cases hx
      rfl
    · cases account with
      | none => exact .throw unbroken_true.stable fun _ _ _ ↦ trivial
      | some account => exact .pure unbroken_true.stable fun _ _ _ ↦ trivial

/-- **The history of the consents is faithful** in every run in which each upsert writes over the
preference that its call has read. -/
theorem consent_history_faithful {w : ConsentWorld ι} (hw : w.FaithfulConsents)
    (hpreferences : ∀ userId, (w.preferences userId).pending = none)
    (hrecords : ∀ id, w.records.pending id = none) (requests : ι → ℕ × UpdateConsentsDto)
    {c : ConsentConfig ι} (hc : Run (consentMachine ι) FreshConsents
      (.start w fun i ↦ ConsentProg.updateConsents (requests i).1 (requests i).2) c) :
    c.state.shared.FaithfulConsents := by
  have hsound : ConsentsSound w := ⟨hw, fun id i row hp ↦ nomatch (hrecords id).symm.trans hp⟩
  have hsafe : (consentProtocol ι).AllSafe (fun _ _ _ ↦ True) (fun _ _ _ ↦ True)
      (.start w fun i ↦ ConsentProg.updateConsents (requests i).1 (requests i).2) :=
    .start (fun i s ↦ s.shared.Idle i) hsound
      (fun i userId p hp ↦ nomatch (hpreferences userId).symm.trans hp)
      fun i ↦ updateConsents_triple (requests i).1 (requests i).2
  exact (hsafe.run hc).1.faithful

end Calls

/-! ### One user -/

namespace Demo

/-- One user, who has been asked nothing. -/
def askedNothing : ConsentWorld ℕ := ⟨0, [⟨7, "+1", none, 0, 0⟩], fun _ ↦ .empty, .empty⟩

theorem askedNothing_faithful : askedNothing.FaithfulConsents :=
  fun _ category ↦ ⟨List.isChain_singleton _, by cases category <;> rfl⟩

/-- So many turns of a call. -/
def consentTurns (i n : ℕ) : List (Turn ℕ ConsentChoice) := List.replicate n ⟨i, 1, .none⟩

/-- The first call grants both, the others withdraw one. -/
def grantThenWithdraw (i : ℕ) : ℕ × UpdateConsentsDto :=
  (7, if i = 0 then ⟨some true, some true⟩ else ⟨some false, none⟩)

/-- An upsert that writes over what was read, as a test. -/
def writesOverRead (_ : ℕ) (op : ConsentStatement) (s : ConsentState ℕ) : Bool :=
  match op with
  | .upsert userId input current => CONSENT_CATEGORIES.all fun category ↦
      (input.given category).isNone ||
        currentConsent current category =
          currentConsent (s.shared.preferences userId).stored category
  | _ => true

theorem writesOverRead_stmt (i : ℕ) (x : ConsentChoice) (op : ConsentStatement)
    (s : ConsentState ℕ) (h : writesOverRead i op s = true) : FreshConsents.stmt i x op s := by
  rintro userId input current rfl category hgiven
  have hcategory : category ∈ CONSENT_CATEGORIES := by cases category <;> decide
  have htest := List.all_eq_true.1 h category hcategory
  rw [Bool.or_eq_true, decide_eq_true_iff, Option.isNone_iff_eq_none] at htest
  exact htest.resolve_left (Option.isSome_iff_ne_none.1 hgiven)

/-- The consents are granted, and one is withdrawn. -/
theorem grantThenWithdraw_runs : ((Config.start askedNothing fun i ↦ ConsentProg.updateConsents
    (grantThenWithdraw i).1 (grantThenWithdraw i).2).turns (consentMachine ℕ) writesOverRead
      (consentTurns 0 6 ++ consentTurns 1 6)).any (fun c ↦
        c.state.shared.consentLog none 7 .analytics = [true, false]) = true := by
  decide +kernel

/-- What the schedule leads to. -/
def withdrawn : ConsentConfig ℕ :=
  Config.afterTurns _ _ _ _ (Option.isSome_of_any grantThenWithdraw_runs)

/-- Every call grants one consent. -/
def grants (_ : ℕ) : ℕ × UpdateConsentsDto := (7, ⟨some true, none⟩)

/-- Two calls read the preference before one of them writes it. -/
theorem grants_run : ((Config.start askedNothing fun i ↦ ConsentProg.updateConsents
    (grants i).1 (grants i).2).turns (consentMachine ℕ) (fun _ _ _ ↦ true)
      (consentTurns 0 2 ++ consentTurns 1 2 ++ consentTurns 0 3 ++ consentTurns 1 3)).any (fun c ↦
        c.state.shared.consentLog none 7 .analytics = [true, true]) = true := by
  decide +kernel

/-- What the schedule leads to. -/
def grantedTwice : ConsentConfig ℕ := Config.afterTurns _ _ _ _ (Option.isSome_of_any grants_run)

end Demo

open Demo

/-- Granted and withdrawn, one call after the other. -/
theorem consent_history_faithful_withdrawn :
    withdrawn.state.shared.consentLog none 7 .analytics = [true, false] ∧
      withdrawn.state.shared.FaithfulConsents :=
  ⟨of_decide_eq_true (Config.afterTurns_of_any grantThenWithdraw_runs),
    consent_history_faithful askedNothing_faithful (fun _ ↦ rfl) (fun _ ↦ rfl) grantThenWithdraw
      (Config.run_afterTurns writesOverRead_stmt _)⟩

/-- Both calls append that the consent is granted. -/
theorem consents_granted_twice : ¬ ∀ (w : ConsentWorld ℕ), w.FaithfulConsents →
    (∀ userId, (w.preferences userId).pending = none) → (∀ id, w.records.pending id = none) →
      ∀ (requests : ℕ → ℕ × UpdateConsentsDto) (c : ConsentConfig ℕ),
        Run (consentMachine ℕ) .all
          (.start w fun i ↦ ConsentProg.updateConsents (requests i).1 (requests i).2) c →
            c.state.shared.FaithfulConsents := by
  intro h
  have hfaithful := (h askedNothing askedNothing_faithful (fun _ ↦ rfl) (fun _ ↦ rfl) grants
    grantedTwice (Config.run_afterTurns (fun _ _ _ _ _ ↦ trivial) _) 7 .analytics).1
  have hlog : grantedTwice.state.shared.consentLog none 7 .analytics = [true, true] :=
    of_decide_eq_true (Config.afterTurns_of_any grants_run)
  rw [hlog] at hfaithful
  exact absurd hfaithful (by decide)

end Stead
