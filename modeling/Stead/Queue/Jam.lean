import Stead.Model.Logic
import Stead.Relational.Rows

/-!
# Rows from before the check constraint

The constraint `NotificationJob_otp_requested_linked` was added `NOT VALID`, to keep the jobs for a
code that were enqueued before jobs were linked to their code; they were to be adopted while the
application runs. But PostgreSQL enforces such a constraint on every row that is written later,
whatever the write is about.

## The next write of every row

A later migration, `20261026000100_notification_correlation_id`, adds a column to the table, fills
it in every row there is, and makes it `NOT NULL` (`CorrelationMigration`). So the first write that
meets an unlinked row is that of the migration, and it is refused, whatever state the job is in: a
pending one that could still be adopted, and a delivered one whose payload has long been erased. A
refused migration leaves the table without the column. Every read of a job reads it, the one with
which `claimReadyJob` looks for a ready job first of all, so there is no queue then, for the linked
jobs either.

## The rows that come through

Where the migration succeeds all rows are linked (`migrate_eq_ok`), and they stay linked: a new row
is checked when it is inserted, an adoption links its row, and no other write touches the link
(`Linked.exec`). So no claim, completion, adoption or redaction is ever refused, and every job that
is ready can be claimed (`never_jams_of_linked`).

Both directions together are `queueFlows_iff`: the queue runs, and no statement of it is ever
refused, exactly if there was no unlinked row.
-/

namespace Stead

open Concurrency Relational

variable {ι : Type}

/-! ### The migration -/

/-- A row of `NotificationJob` before `correlationId` was added. -/
structure UncorrelatedJob where
  type : NotificationType
  payloadJson : PayloadJson
  status : NotificationJobStatus
  attempts : ℕ
  maxAttempts : ℕ
  nextRunAt : ℤ
  lockedAt : Option ℤ
  sentAt : Option ℤ
  failedAt : Option ℤ
  lastError : Option String
  provider : Option String
  providerMessageId : Option String
  userId : Option ℕ
  otpCodeId : Option ℕ
  goalId : Option ℕ
  dedupeKey : Option DedupeKey
  createdAt : ℤ
  deriving DecidableEq

namespace UncorrelatedJob

/-- The check constraint `NotificationJob_otp_requested_linked`. -/
def linked (job : UncorrelatedJob) : Bool :=
  job.type ≠ .otpRequested || (job.otpCodeId.isSome && job.dedupeKey.isSome)

/-- The row with the new column. -/
def withCorrelationId (job : UncorrelatedJob) (correlationId : ℕ) : NotificationJob where
  type := job.type
  payloadJson := job.payloadJson
  status := job.status
  attempts := job.attempts
  maxAttempts := job.maxAttempts
  nextRunAt := job.nextRunAt
  lockedAt := job.lockedAt
  sentAt := job.sentAt
  failedAt := job.failedAt
  lastError := job.lastError
  provider := job.provider
  providerMessageId := job.providerMessageId
  correlationId := correlationId
  userId := job.userId
  otpCodeId := job.otpCodeId
  goalId := job.goalId
  dedupeKey := job.dedupeKey
  createdAt := job.createdAt

/-- A correlation does not link a job. -/
@[simp] theorem linked_withCorrelationId (job : UncorrelatedJob) (correlationId : ℕ) :
    (job.withCorrelationId correlationId).linked = job.linked := rfl

end UncorrelatedJob

namespace CorrelationMigration

/-- What a migration is refused with. -/
inductive MigrationFailure where
  | checkViolation
  | notNullViolation
  deriving DecidableEq

/-- A row while the column is nullable. -/
structure Row extends UncorrelatedJob where
  id : ℕ
  correlationId : Option ℕ

/-- `ADD COLUMN "correlationId" TEXT`. The rows are numbered in their order. -/
def addColumn (jobs : List UncorrelatedJob) : List Row :=
  jobs.mapIdx fun id job ↦ ⟨job, id, none⟩

/-- `SET "correlationId" = "id" WHERE "correlationId" IS NULL` -/
def fillColumn (rows : List Row) : Except MigrationFailure (List Row) :=
  updateChecked (fun row ↦ row.linked = true) .checkViolation (fun row ↦ row.correlationId = none)
    (fun row ↦ { row with correlationId := some row.id }) rows

/-- `ALTER COLUMN "correlationId" SET NOT NULL` -/
def setNotNull (rows : List Row) : Except MigrationFailure (List NotificationJob) :=
  if ∀ row ∈ rows, row.correlationId ≠ none then
    .ok (rows.filterMap fun row ↦ row.correlationId.map row.withCorrelationId)
  else .error .notNullViolation

/-- The migration, in one transaction. -/
def migrate (jobs : List UncorrelatedJob) : Except MigrationFailure (List NotificationJob) := do
  let rows ← fillColumn (addColumn jobs)
  setNotNull rows

/-- The rows with the column filled. -/
theorem update_addColumn (jobs : List UncorrelatedJob) :
    update (fun row : Row ↦ row.correlationId = none)
      (fun row ↦ { row with correlationId := some row.id }) (addColumn jobs) =
        jobs.mapIdx fun id job ↦ ⟨job, id, some id⟩ := by
  refine List.ext_getElem? fun n ↦ ?_
  rw [update, addColumn, List.getElem?_map, List.getElem?_mapIdx, List.getElem?_mapIdx]
  cases jobs[n]? <;> rfl

/-- A filled column can be made `NOT NULL`. -/
theorem setNotNull_filled (jobs : List UncorrelatedJob) :
    setNotNull (jobs.mapIdx fun id job ↦ ⟨job, id, some id⟩) =
      .ok (jobs.mapIdx fun id job ↦ job.withCorrelationId id) := by
  have hfilled : ∀ row ∈ jobs.mapIdx fun id job ↦ (⟨job, id, some id⟩ : Row),
      row.correlationId ≠ none := by
    intro row hrow
    obtain ⟨id, h, rfl⟩ := List.mem_mapIdx.1 hrow
    exact Option.some_ne_none _
  rw [setNotNull, if_pos hfilled]
  rw [List.mapIdx_eq_zipIdx_map, List.mapIdx_eq_zipIdx_map, List.filterMap_map,
    ← List.filterMap_eq_map]
  rfl

/-- **The migration succeeds exactly on linked rows**, and changes nothing but the new column. -/
theorem migrate_eq_ok {jobs : List UncorrelatedJob} {rows : List NotificationJob} :
    migrate jobs = .ok rows ↔ (∀ job ∈ jobs, job.linked = true) ∧
      rows = jobs.mapIdx fun id job ↦ job.withCorrelationId id := by
  have hlinked : (∀ row ∈ addColumn jobs, row.correlationId = none → row.linked = true) ↔
      ∀ job ∈ jobs, job.linked = true := by
    constructor
    · intro h job hjob
      obtain ⟨id, hid, rfl⟩ := List.mem_iff_getElem.1 hjob
      exact h ⟨jobs[id], id, none⟩ (List.mem_mapIdx.2 ⟨id, hid, rfl⟩) rfl
    · intro h row hrow _
      obtain ⟨id, hid, rfl⟩ := List.mem_mapIdx.1 hrow
      exact h _ (List.getElem_mem hid)
  rw [migrate]
  cases hfill : fillColumn (addColumn jobs) with
  | ok filled =>
    obtain ⟨hchecked, rfl⟩ := updateChecked_eq_ok.1 hfill
    rw [update_addColumn]
    show setNotNull _ = .ok rows ↔ _
    rw [setNotNull_filled, Except.ok.injEq, and_iff_right (hlinked.1 hchecked), eq_comm]
  | error e =>
    refine iff_of_false nofun fun h ↦ ?_
    have hok : fillColumn (addColumn jobs) = .ok _ := updateChecked_eq_ok.2 ⟨hlinked.2 h.1, rfl⟩
    cases hfill.symm.trans hok

/-- An unlinked row is refused by the constraint. -/
theorem migrate_eq_error {jobs : List UncorrelatedJob} {job : UncorrelatedJob} (hjob : job ∈ jobs)
    (h : job.linked = false) : migrate jobs = .error .checkViolation := by
  have hrefused : ¬ ∀ row ∈ addColumn jobs, row.correlationId = none → row.linked = true := by
    intro hall
    obtain ⟨id, hid, rfl⟩ := List.mem_iff_getElem.1 hjob
    have hlinked := hall ⟨jobs[id], id, none⟩ (List.mem_mapIdx.2 ⟨id, hid, rfl⟩) rfl
    cases hlinked.symm.trans h
  rw [migrate, fillColumn, updateChecked, if_neg hrefused]
  rfl

end CorrelationMigration

/-! ### Linked rows -/

/-- All rows of the table are linked. -/
def Linked (w : World ι) : Prop :=
  ∀ id j, w.notificationJobs.stored id = some j → j.linked = true

/-- Every update of a linked row leaves it linked. -/
theorem NotificationJobEdit.linked {s : NotificationJobStatement} {k : ℕ}
    {j j' : NotificationJob} (he : NotificationJobEdit j s k j') (hj : j.linked = true) :
    j'.linked = true := by
  cases he with
  | adopt => simp [NotificationJob.link, NotificationJob.linked]
  | claim | update | redactTerminal => exact hj

variable [DecidableEq ι]

section Step

variable {crypto : Crypto} {i : ι} {x : Choice} {op : Op} {w t : World ι}
  {r : Except StatementError op.Ret}

/-- **Every statement keeps the constraint.** -/
theorem Linked.exec (hw : Linked w) (h : exec crypto i x op w = some (r, t)) : Linked t := by
  intro id j hj
  cases exec_notificationJobs h id with
  | same he => exact hw id j (he ▸ hj)
  | create _ _ _ _ hlinked _ hnew =>
    obtain rfl := Option.some.inj (hj.symm.trans hnew)
    exact hlinked
  | @edit s j₀ j' hs hj₀ he hnew =>
    obtain rfl := Option.some.inj (hj.symm.trans hnew)
    exact he.linked (hw id j₀ hj₀)

/-- **What the constraint refuses**: a job that is not linked, when it is created, or as it is
claimed, completed or redacted. -/
theorem NotificationJobStatement.perform_checkViolation {s : NotificationJobStatement}
    (h : s.perform x w = some (.error .checkViolation, t)) :
    (∃ data, s = .create data) ∨ ∃ id j, w.notificationJobs.stored id = some j ∧
      j.linked = false := by
  cases s with
  | create data => exact .inl ⟨data, rfl⟩
  | claim id now =>
    simp only [perform] at h
    split at h
    · next hs =>
      obtain ⟨j, hj⟩ := Option.isSome_iff_exists.1 hs
      rw [Table.selectId_eq_some, Cell.view_none, Bool.and_eq_true, Bool.not_eq_true'] at hj
      exact .inr ⟨id, j, hj.1, hj.2.2⟩
    · split at h <;> cases h
  | update id data =>
    simp only [perform] at h
    split at h
    · next hs =>
      obtain ⟨j, hj⟩ := Option.isSome_iff_exists.1 hs
      rw [Table.selectId_eq_some, Cell.view_none, Bool.not_eq_true'] at hj
      exact .inr ⟨id, j, hj⟩
    · (repeat' split at h) <;> cases h
  | redactTerminal found =>
    simp only [perform] at h
    split at h
    · next hs =>
      obtain ⟨id, -, hid⟩ := List.any_eq_true.1 hs
      obtain ⟨j, hj⟩ := Option.isSome_iff_exists.1 hid
      rw [Table.selectId_eq_some, Cell.view_none, Bool.and_eq_true, Bool.not_eq_true'] at hj
      exact .inr ⟨id, j, hj.1, hj.2.2⟩
    · split at h <;> cases h
  | _ =>
    simp only [perform] at h
    (repeat' split at h) <;> cases h

/-- Where all rows are linked, only a creation is refused. -/
theorem exec_checkViolation (hw : Linked w) (hcreate : ∀ data, op ≠ .notificationJob (.create data))
    (h : exec crypto i x op w = some (r, t)) : r ≠ .error .checkViolation := by
  rintro rfl
  rcases exec_cases h with hp | ⟨hr, -⟩
  swap
  · cases hr
  cases op with
  | notificationJob s =>
    rcases NotificationJobStatement.perform_checkViolation hp with ⟨data, rfl⟩ | ⟨id, j, hj, hl⟩
    · exact hcreate data rfl
    · cases hl.symm.trans (hw id j hj)
  | user s => cases s <;> simp only [perform, UserStatement.perform] at hp <;>
      (repeat' split at hp) <;> cases hp
  | otpCode s => cases s <;> simp only [perform, OtpCodeStatement.perform] at hp <;>
      (repeat' split at hp) <;> cases hp
  | authEvent s => cases s <;> simp only [perform, AuthEventStatement.perform] at hp <;>
      (repeat' split at hp) <;> cases hp
  | refreshToken s => cases s <;> simp only [perform, RefreshTokenStatement.perform] at hp <;>
      (repeat' split at hp) <;> cases hp
  | host s => cases s <;> cases hp
  | lockRefreshUser u => simp only [perform] at hp; (repeat' split at hp) <;> cases hp
  | country c => cases hp
  | commit => cases hp
  | rollback => cases hp

end Step

/-! ### The queue goes on -/

/-- An update of stored jobs that the constraint refused. -/
def refusedUpdate (e : Happening ι) : Bool :=
  match e.op, e.resp with
  | .notificationJob (.create _), _ => false
  | _, .error .checkViolation => true
  | _, _ => false

omit [DecidableEq ι] in
theorem refusedUpdate_eq_false {e : Happening ι}
    (h : (∀ data, e.op ≠ .notificationJob (.create data)) → e.resp ≠ .error .checkViolation) :
    refusedUpdate e = false := by
  obtain ⟨thread, before, op, resp, after⟩ := e
  unfold refusedUpdate
  split
  · rfl
  · next hcreate hr =>
    refine absurd hr (h fun data hop ↦ ?_)
    cases hop
    exact hcreate data resp rfl (heq_of_eq hr.symm)
  · rfl

/-- No claim, completion, adoption or redaction has been refused by the constraint. -/
def NeverRefused (s : History ι) : Prop := ∀ e ∈ s.log, refusedUpdate e = false

/-- A job that is ready can be claimed, the weather permitting. -/
def ReadyClaimable (crypto : Crypto) (w : World ι) : Prop :=
  ∀ (i : ι) (x : Choice) (id : ℕ) (now : ℤ) (j : NotificationJob) (r : Except StatementError Bool)
    (t : World ι), w.notificationJobs.stored id = some j → j.ready now = true → x.fault = .none →
      exec crypto i x (.notificationJob (.claim id now)) w = some (r, t) → r = .ok true

/-- **Linked jobs** can be claimed when they are ready. -/
theorem Linked.readyClaimable {crypto : Crypto} {w : World ι} (hw : Linked w) :
    ReadyClaimable crypto w := by
  intro i x id now j r t hj hready hfault h
  have hlinked : j.linked = true := hw id j hj
  have hp : perform crypto i x (w.elapse x.elapse) (.notificationJob (.claim id now)) =
      some (r, t) := by simpa [Stead.exec, Op.fragile, hfault] using h
  simp only [perform, NotificationJobStatement.perform] at hp
  split at hp
  · next hs =>
    obtain ⟨j', hj'⟩ := Option.isSome_iff_exists.1 hs
    rw [Table.selectId_eq_some, Cell.view_none, Bool.and_eq_true, Bool.not_eq_true'] at hj'
    obtain rfl : j' = j := Option.some.inj (hj'.1.symm.trans hj)
    rw [hj'.2.2] at hlinked
    cases hlinked
  split at hp
  · next hu =>
    cases hp
    rcases Table.updateId_cases hu with ⟨rfl, -, hnone⟩ | ⟨rfl, -⟩
    · have hsel : w.notificationJobs.selectId none id (NotificationJob.ready now) = some j :=
        Table.selectId_eq_some.2 ⟨(Cell.view_none _).trans hj, hready⟩
      cases hsel.symm.trans hnone
    · rfl
  · cases hp

/-- **A table of linked rows never jams.** Next to any other calls, lost answers and crashes
included, no claim, completion, adoption or redaction is refused by the check constraint, and every
job that is ready can be claimed. -/
theorem never_jams_of_linked (env : Env) (w : World ι) (hw : Linked w) (calls : ι → ApiCall)
    {c : System ι} (hc : System.Reaches env .all (System.start env w calls) c) :
    NeverRefused c.state ∧ ReadyClaimable env.crypto c.state.shared := by
  have hstart : (System.start env w calls).Issues fun _ ↦ Op.WellFormed :=
    Config.issues_start fun i ↦ (calls i).wellFormed env
  have hrun := (Run.invariant (I := fun s ↦ Linked s.shared ∧ NeverRefused s) hc hstart
    ⟨hw, fun _ he ↦ absurd he List.not_mem_nil⟩ (fun s i x op r t hs _ _ hx ↦ ?_)
    fun s i hs _ ↦ hs).1
  · exact ⟨hrun.2, hrun.1.readyClaimable⟩
  · refine ⟨hs.1.exec hx, fun e he ↦ ?_⟩
    rw [State.after_log, List.mem_append, List.mem_singleton] at he
    rcases he with he | rfl
    · exact hs.2 e he
    · exact refusedUpdate_eq_false fun hcreate ↦ exec_checkViolation hs.1 hcreate hx

/-! ### From the constraint on -/

/-- The database after the constraint was added: the jobs in the order they were inserted, and the
other tables. -/
structure ConstrainedDb (ι : Type) where
  jobs : List UncorrelatedJob
  others : World ι

/-- The database with the migrated table. -/
def ConstrainedDb.migrated (db : ConstrainedDb ι) (rows : List NotificationJob) : World ι :=
  { db.others with notificationJobs := .ofList rows }

/-- The property the queue is meant to have: the jobs that are there when the constraint is added
do not keep the queue from running, and from then on no claim, completion, adoption or redaction is
refused and every ready job can be claimed, next to any calls, failures and crashes. -/
def QueueFlows (env : Env) (db : ConstrainedDb ι) : Prop :=
  ∃ rows, CorrelationMigration.migrate db.jobs = .ok rows ∧
    ∀ (calls : ι → ApiCall) (c : System ι),
      System.Reaches env .all (System.start env (db.migrated rows) calls) c →
        NeverRefused c.state ∧ ReadyClaimable env.crypto c.state.shared

omit [DecidableEq ι] in
theorem linked_migrated {db : ConstrainedDb ι} {rows : List NotificationJob}
    (h : CorrelationMigration.migrate db.jobs = .ok rows) : Linked (db.migrated rows) := by
  obtain ⟨hlinked, rfl⟩ := CorrelationMigration.migrate_eq_ok.1 h
  intro id j hj
  have hget : (db.jobs.mapIdx fun id job ↦ job.withCorrelationId id)[id]? = some j := hj
  rw [List.getElem?_mapIdx] at hget
  obtain ⟨job, hjob, rfl⟩ := Option.map_eq_some_iff.1 hget
  exact hlinked job (List.mem_of_getElem? hjob)

/-- **The queue flows exactly if every row was linked.** -/
theorem queueFlows_iff (env : Env) (db : ConstrainedDb ι) :
    QueueFlows env db ↔ ∀ job ∈ db.jobs, job.linked = true := by
  constructor
  · rintro ⟨rows, h, -⟩
    exact (CorrelationMigration.migrate_eq_ok.1 h).1
  · intro h
    have hok := CorrelationMigration.migrate_eq_ok.2 ⟨h, rfl⟩
    exact ⟨_, hok, fun calls c hc ↦ never_jams_of_linked env _ (linked_migrated hok) calls hc⟩

namespace Demo

/-- A job for a code, from before jobs were linked to their code. -/
def legacyJob (status : NotificationJobStatus) (payloadJson : PayloadJson) : UncorrelatedJob where
  type := .otpRequested
  payloadJson := payloadJson
  status := status
  attempts := 0
  maxAttempts := 3
  nextRunAt := 0
  lockedAt := none
  sentAt := none
  failedAt := none
  lastError := none
  provider := none
  providerMessageId := none
  userId := none
  otpCodeId := none
  goalId := none
  dedupeKey := none
  createdAt := 0

/-- A job for a code that is linked to it, and ready. -/
def linkedJob : UncorrelatedJob :=
  { legacyJob .pending (.record ⟨none, some "+1", some "000000", none, none⟩) with
    otpCodeId := some 0, dedupeKey := some (.otpRequested 0) }

/-- Of two jobs that are still to be sent the older one is not linked. -/
def legacyPending : ConstrainedDb ℕ :=
  ⟨[legacyJob .pending (.record ⟨none, some "+1", some "000000", none, none⟩), linkedJob], world⟩

/-- The job that is not linked was sent, and its payload is erased. -/
def legacySettled : ConstrainedDb ℕ :=
  ⟨[legacyJob .sent REDACTED_PAYLOAD_JSON, linkedJob], world⟩

end Demo

/-- **A legacy row jams the queue**, whether it is still to be sent or done with: the migration is
refused, and a linked job that is ready is not claimed by anybody. -/
theorem legacyRow_jams : ¬ QueueFlows Demo.env Demo.legacyPending ∧
    ¬ QueueFlows Demo.env Demo.legacySettled ∧
      CorrelationMigration.migrate Demo.legacyPending.jobs = .error .checkViolation ∧
        CorrelationMigration.migrate Demo.legacySettled.jobs = .error .checkViolation := by
  have hpending : CorrelationMigration.migrate Demo.legacyPending.jobs = .error .checkViolation :=
    CorrelationMigration.migrate_eq_error List.mem_cons_self rfl
  have hsettled : CorrelationMigration.migrate Demo.legacySettled.jobs = .error .checkViolation :=
    CorrelationMigration.migrate_eq_error List.mem_cons_self rfl
  refine ⟨?_, ?_, hpending, hsettled⟩
  · rintro ⟨rows, h, -⟩
    cases hpending.symm.trans h
  · rintro ⟨rows, h, -⟩
    cases hsettled.symm.trans h

end Stead
