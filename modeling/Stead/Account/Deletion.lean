import Mathlib.Data.Finset.Basic
import Stead.Concurrency.Trace
import Stead.Model.Footprint

/-!
# Deleting an account next to a consumer

`AccountService.deleteAccount`, the part of `NotificationQueueService` that keeps the jobs of an
account that is being deleted from being delivered, and the polls of the consumer, in one API
process.

## The process

The blocks live in the memory of the process: what the code does between two awaits is one
statement on it (`MemoryStatement`). The database is the one of the other calls, with the statements
of the deletion added (`AccountStatement`). The flag that keeps two polls of one process apart is in
the memory as well.

The deletion transaction is one statement: its rows are gone at once, or it fails and nothing has
happened, or its effect is there and the answer is lost. The timer of `finalizeAccountDeletion` is a
statement that may come at any time after the return.

## The calls

The consumer is that of `Model.NotificationQueue`, with the blocks of the process in place of a
choice. Its statements on the database are the same ones, embedded (`embed`), so what is known of
them there can be used here. A process has any number of deletions and polls in it
(`ProcessCall`), and other processes change the database only by calls of the same kinds.
-/

namespace Stead

open Concurrency

/-! ### The memory of the process -/

/-- The deletion blocks of the queue service. -/
structure DeletionBlocks where
  deletingAccountIds : Finset ℕ
  discoveringAccountPhones : Finset String
  deletingNotificationIds : Finset ℕ
  deletingNotificationIdsByAccount : ℕ → Option (List ℕ)

namespace DeletionBlocks

/-- Nothing is blocked. -/
def empty : DeletionBlocks := ⟨∅, ∅, ∅, fun _ ↦ none⟩

/-- Up to the lookup in `beginAccountDeletion`. -/
def raise (userId : ℕ) (phone : String) (b : DeletionBlocks) : DeletionBlocks :=
  { b with
    deletingAccountIds := insert userId b.deletingAccountIds
    discoveringAccountPhones := insert phone b.discoveringAccountPhones }

/-- What `beginAccountDeletion` does when the lookup fails. -/
def dropPhone (phone : String) (b : DeletionBlocks) : DeletionBlocks :=
  { b with discoveringAccountPhones := b.discoveringAccountPhones.erase phone }

/-- After the lookup in `beginAccountDeletion`. -/
def record (userId : ℕ) (phone : String) (ids : List ℕ) (b : DeletionBlocks) : DeletionBlocks where
  deletingAccountIds := b.deletingAccountIds
  discoveringAccountPhones := b.discoveringAccountPhones.erase phone
  deletingNotificationIds := b.deletingNotificationIds ∪ ids.toFinset
  deletingNotificationIdsByAccount :=
    Function.update b.deletingNotificationIdsByAccount userId (some ids)

/-- `clearAccountDeletionBlock` -/
def clear (userId : ℕ) (b : DeletionBlocks) : DeletionBlocks where
  deletingAccountIds := b.deletingAccountIds.erase userId
  discoveringAccountPhones := b.discoveringAccountPhones
  deletingNotificationIds := b.deletingNotificationIds \
    ((b.deletingNotificationIdsByAccount userId).getD []).toFinset
  deletingNotificationIdsByAccount :=
    Function.update b.deletingNotificationIdsByAccount userId none

/-- The blocks `canDeliver` looks at. -/
def blocks (b : DeletionBlocks) (job : ClaimedJob) : Bool :=
  job.id ∈ b.deletingNotificationIds || (job.row.userId.any fun u ↦ u ∈ b.deletingAccountIds) ||
    (job.payload.phone.any fun p ↦ p ∈ b.discoveringAccountPhones)

end DeletionBlocks

/-- A process with its database. -/
structure Process (ι : Type) where
  blocks : DeletionBlocks
  isProcessing : Bool
  world : World ι

/-! ### The statements -/

/-- What the code does on the memory of the process between two awaits. -/
inductive MemoryStatement where
  /-- `beginAccountDeletion`, up to its lookup -/
  | beginBlock (userId : ℕ) (phone : String)
  /-- `beginAccountDeletion`, when its lookup has failed -/
  | dropPhone (userId : ℕ) (phone : String)
  /-- `beginAccountDeletion`, after its lookup -/
  | recordIds (userId : ℕ) (phone : String) (ids : List ℕ)
  /-- `finalizeAccountDeletion`, after which `deleteAccount` returns -/
  | finalize (userId : ℕ)
  /-- `restoreForAccount`, after which `deleteAccount` throws -/
  | restore (userId : ℕ)
  /-- The timer set by `finalizeAccountDeletion` fires. -/
  | timeout (userId : ℕ)
  /-- The test of `isProcessing` by a poll, which sets it -/
  | startTick
  | endTick
  /-- The test of the blocks in `canDeliver` -/
  | isBlocked (job : ClaimedJob)

/-- The statements of a deletion, and the delivery of a message. -/
inductive AccountStatement where
  /-- `user.findUnique({ where: { id: userId }, select: { phone } })` -/
  | findUser (userId : ℕ)
  /-- `notificationJob.findMany({ where: { OR: [{ userId }, { userId: null }] } })` -/
  | findCandidates (userId : ℕ)
  /-- The transaction of `deleteAccount` -/
  | deleteRows (userId : ℕ) (phone : String) (legacyNotificationIds : List ℕ)
  /-- `sms.sendOtp` or `sms.sendMessage` for a job -/
  | send (job : ClaimedJob)

/-- A statement on the database, of a deletion, or on the memory. -/
inductive ProcessOp where
  | statement (op : Op)
  | account (s : AccountStatement)
  | memory (s : MemoryStatement)

/-- What the memory answers. -/
@[reducible] def MemoryStatement.Ret : MemoryStatement → Type
  | .startTick => Bool
  | .isBlocked _ => Bool
  | _ => Unit

/-- What the statements of a deletion return. -/
@[reducible] def AccountStatement.Ret : AccountStatement → Type
  | .findUser _ => Option String
  | .findCandidates _ => List (Keyed NotificationJob)
  | .deleteRows _ _ _ => Unit
  | .send _ => SmsResult

/-- What comes back; only the database can fail. -/
@[reducible] def ProcessOp.Resp : ProcessOp → Type
  | .statement op => Except StatementError op.Ret
  | .account s => Except StatementError s.Ret
  | .memory s => s.Ret

/-- The statements of a process. -/
abbrev ProcessStatements : Interface := ⟨ProcessOp, ProcessOp.Resp⟩

/-- What a statement on the memory makes of the blocks. -/
def MemoryStatement.act : MemoryStatement → DeletionBlocks → DeletionBlocks
  | .beginBlock userId phone => .raise userId phone
  | .dropPhone _ phone => .dropPhone phone
  | .recordIds userId phone ids => .record userId phone ids
  | .restore userId | .timeout userId => .clear userId
  | _ => id

/-- The flag of the consumer after a statement. -/
def MemoryStatement.processing : MemoryStatement → Bool → Bool
  | .startTick, _ => true
  | .endTick, _ => false
  | _, isProcessing => isProcessing

variable {ι : Type}

/-- What the memory answers, as it is at the time. -/
def MemoryStatement.answer (p : Process ι) : (s : MemoryStatement) → s.Ret
  | .startTick => !p.isProcessing
  | .isBlocked job => p.blocks.blocks job
  | .beginBlock _ _ | .dropPhone _ _ | .recordIds _ _ _ | .finalize _ | .restore _ | .timeout _
  | .endTick => ()

variable [DecidableEq ι]

/-- The database without the rows of an account; the tables of other modules are left out. The
statements of the transaction fail when a job that stays is linked to a code that goes, and when
there is no user to delete. -/
def World.deleteAccountRows (w : World ι) (userId : ℕ) (phone : String)
    (legacyNotificationIds : List ℕ) : Except StatementError (World ι) :=
  let notificationJobs := w.notificationJobs.deleteWhere fun id j ↦
    j.userId = some userId || id ∈ legacyNotificationIds
  if (notificationJobs.select none fun j ↦ j.otpCodeId.any fun c ↦
      (w.otpCodes.stored c).any fun r ↦ r.userId = userId) ≠ [] then
    .error .foreignKeyViolation
  else if (w.users.stored userId).isNone then .error .recordNotFound
  else
    .ok { w with
      notificationJobs
      failureAttempts := w.failureAttempts.deleteWhere fun _ f ↦
        (notificationJobs.stored f.notificationJobId).isNone
      authEvents := w.authEvents.deleteWhere fun _ e ↦ e.phone = phone
      otpCodes := w.otpCodes.deleteWhere fun _ r ↦ r.userId = userId
      refreshTokens := w.refreshTokens.deleteWhere fun _ r ↦ r.userId = userId
      users := w.users.deleteWhere fun id _ ↦ id = userId }

/-- What a statement does to the database. -/
def AccountStatement.perform (x : Choice) (w : World ι) :
    (s : AccountStatement) → Except StatementError s.Ret × World ι
  | .findUser userId => (.ok (w.phoneOf userId), w)
  | .findCandidates userId =>
    (.ok (w.notificationJobs.select none fun j ↦ j.userId = some userId || j.userId = none), w)
  | .deleteRows userId phone ids =>
    match w.deleteAccountRows userId phone ids with
    | .ok w' => (.ok (), w')
    | .error e => (.error e, w)
  | .send _ => (.ok x.sms, w)

/-- Execute a statement of thread `i`. -/
def ProcessOp.exec (crypto : Crypto) (i : ι) (x : Choice) :
    (op : ProcessOp) → Process ι → Option (op.Resp × Process ι)
  | .statement op, p =>
    (Stead.exec crypto i x op p.world).map fun out ↦ (out.1, { p with world := out.2 })
  | .account s, p =>
    match x.fault with
    | .none => some ((s.perform x p.world).1, { p with world := (s.perform x p.world).2 })
    | .before => some (.error .unavailable, p)
    | .after => some (.error .unavailable, { p with world := (s.perform x p.world).2 })
  | .memory s, p =>
    some (s.answer p,
      { p with blocks := s.act p.blocks, isProcessing := s.processing p.isProcessing })

/-- The process as a machine. A thread that is lost has just stopped. -/
def processMachine (ι : Type) [DecidableEq ι] (crypto : Crypto) :
    Machine ProcessStatements ι Choice (Process ι) where
  exec := ProcessOp.exec crypto
  crash _ p := p

/-! ### The calls -/

/-- A call in the process. -/
abbrev Task (α : Type) := Prog ProcessStatements Failure α

/-- A call that only issues statements on the database. -/
def embed {α : Type} (p : Call α) : Task α := p.translate ProcessOp.statement fun _ r ↦ r

/-- A statement of a deletion; an error is thrown. -/
def query (s : AccountStatement) : Task s.Ret :=
  .stmt (.account s) fun
    | .ok a => .pure a
    | .error e => .throw (.statement e)

/-- A statement on the memory. -/
def memory (s : MemoryStatement) : Task s.Ret := .stmt (.memory s) fun a ↦ .pure a

variable (env : Env)

/-- The jobs of an account among the candidates: its own, and those of nobody for its phone. -/
def accountJobIds (userId : ℕ) (phone : String) (candidates : List (Keyed NotificationJob)) :
    List ℕ :=
  candidates.flatMap fun job ↦
    if job.row.userId = some userId then [job.id]
    else
      match decryptPayload env job.row.payloadJson with
      | .ok payload => if payload.phone = some phone then [job.id] else []
      | .error _ => []

/-- `beginAccountDeletion`: the jobs of nobody that are to go with the account. -/
def beginAccountDeletion (userId : ℕ) (phone : String) : Task (List ℕ) := do
  memory (.beginBlock userId phone)
  let candidates ← tryCatch (query (.findCandidates userId)) fun error ↦ do
    memory (.dropPhone userId phone)
    throw error
  let ids := accountJobIds env userId phone candidates
  memory (.recordIds userId phone ids)
  pure ids

/-- `AccountService.deleteAccount`. -/
def deleteAccount (userId : ℕ) : Task Unit := do
  match ← query (.findUser userId) with
  | none => throw (.error "Account not found")
  | some phone =>
    tryCatch
      (do
        let legacyNotificationIds ← beginAccountDeletion env userId phone
        query (.deleteRows userId phone legacyNotificationIds)
        memory (.finalize userId))
      fun error ↦ do
        memory (.restore userId)
        throw error

namespace Consumer

/-- `canDeliver`: the blocks are looked at once, before the database is asked. -/
def canDeliver (job : ClaimedJob) : Task Bool := do
  if ← memory (.isBlocked job) then pure false
  else embed (run (.notificationJob (.exists job.id)))

/-- `processJob`: the message of a job is handed to the provider. -/
def processJob (job : ClaimedJob) : Task SmsResult :=
  match job.row.type with
  | .otpRequested =>
    if job.payload.redacted.isSome then throw (.error "OTP notification payload has been redacted")
    else query (.send job)
  | .weeklySummary | .riskAlert | .riskRecovery =>
    if job.payload.redacted.isSome then
      throw (.error "Readiness notification payload has been redacted")
    else query (.send job)

/-- `processClaimedJob`. -/
def processClaimedJob (job : ClaimedJob) : Task Unit :=
  tryCatch
    (do
      if ← canDeliver job then
        let result ← processJob job
        embed (markSucceeded job result.provider (extractProviderMessageId result))
      else pure ())
    fun error ↦ embed (markFailed env job error)

/-- A poll of the queue, unless another is under way. -/
def tick : Task Unit := do
  if ← memory .startTick then
    tryCatch
      (do
        match ← embed (claimReadyJob env) with
        | some job => processClaimedJob env job
        | none => pure ())
      fun _ ↦ pure ()
    memory .endTick
  else pure ()

end Consumer

/-- A call the process serves. -/
inductive ProcessCall where
  | deleteAccount (userId : ℕ)
  | tick

/-- What a call does. A deletion that has returned goes on with its timer. -/
def ProcessCall.program : ProcessCall → Task Unit
  | .deleteAccount userId => do
    Stead.deleteAccount env userId
    memory (.timeout userId)
  | .tick => Consumer.tick env

/-- The store and the log of a run of the process. -/
abbrev ProcessHistory (ι : Type) := State ProcessStatements ι (Process ι)

/-- Calls in a process, on a database. -/
abbrev ProcessSystem (ι : Type) := Concurrency.Config ProcessStatements ι (Process ι) Failure Unit

/-- Conditions on the steps of a process. -/
abbrev ProcessWeather (ι : Type) := Restriction ProcessStatements ι Choice (Process ι)

/-- The process about to serve the calls on a database. -/
def ProcessSystem.start (w : World ι) (calls : ι → ProcessCall) : ProcessSystem ι :=
  Concurrency.Config.start ⟨.empty, false, w⟩ fun i ↦ (calls i).program env

/-- The states the process can reach, over the steps that meet a condition. -/
def ProcessSystem.Reaches (A : ProcessWeather ι) : ProcessSystem ι → ProcessSystem ι → Prop :=
  Run (processMachine ι env.crypto) A

end Stead
