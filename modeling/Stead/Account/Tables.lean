import Mathlib.Data.List.Nodup

/-!
# The tables of an account

Every table that refers to a user, with the columns that refer to something, and the operations that
write them, one after the other. The tables have the foreign keys of the schema: a deletion is
refused, sets a column to null, or deletes further rows (`deleteOtpCodes`, `deleteGoals`,
`deleteUser`).

## What is left out

What a call does depends on times, counters and codes that no deletion looks at; a call brings its
course instead (`RequestCourse`, `ReplayCourse`, `VerifyCourse`). Rows that refer to a user and to
nothing else are all of one form (`UserDetailRow`). The payload of a job is opaque: which phone it
is for is a parameter, since a deletion reads that off the payloads it can decrypt.

## Calls and deletions

`AccountOp` are the calls of the API that write these tables, each executed as a whole. A deletion
has its statements one by one (`deletionStatements`), any of which may fail, and is undone when one
does. How deletions and the consumer interleave is for `Account.Deletion`; here it is what the
statements leave that matters.

The tables of the migrations (`Migrated`) may have users and jobs of nobody in them, from before
jobs had users.
-/

namespace Stead

/-- The text of a payload, as it is stored. -/
abbrev StoredPayload := ℕ

/-- `User` -/
structure UserRow where
  id : ℕ
  phone : String
  deriving DecidableEq

/-- `OtpCode` -/
structure OtpCodeRow where
  id : ℕ
  userId : ℕ
  deriving DecidableEq

/-- `AuthEvent`, of a user or of a phone alone -/
structure AuthEventRow where
  id : ℕ
  phone : String
  userId : Option ℕ
  otpCodeId : Option ℕ
  deriving DecidableEq

/-- `Goal` -/
structure SavingsGoalRow where
  id : ℕ
  userId : ℕ
  deriving DecidableEq

/-- `Transaction` -/
structure LedgerRow where
  id : ℕ
  userId : ℕ
  goalId : Option ℕ
  deriving DecidableEq

/-- `NotificationJob` -/
structure JobRow where
  id : ℕ
  payloadJson : StoredPayload
  userId : Option ℕ
  otpCodeId : Option ℕ
  deriving DecidableEq

/-- `NotificationFailureAttempt` -/
structure FailureAttemptRow where
  id : ℕ
  notificationJobId : ℕ
  deriving DecidableEq

/-- `AlertState` -/
structure AlertStateRow where
  id : ℕ
  userId : ℕ
  goalId : ℕ
  deriving DecidableEq

/-- A row of `RefreshToken`, `AlertPreference`, `ConsentPreference` or `ConsentRecord`: it refers to
its user, and nothing refers to it. -/
structure UserDetailRow where
  id : ℕ
  userId : ℕ
  deriving DecidableEq

/-- The tables, and the next key. -/
structure AccountDb where
  /-- the identifier that is generated next -/
  next : ℕ
  users : List UserRow
  otpCodes : List OtpCodeRow
  authEvents : List AuthEventRow
  refreshTokens : List UserDetailRow
  goals : List SavingsGoalRow
  transactions : List LedgerRow
  jobs : List JobRow
  failureAttempts : List FailureAttemptRow
  alertPreferences : List UserDetailRow
  alertStates : List AlertStateRow
  consentPreferences : List UserDetailRow
  consentRecords : List UserDetailRow
  deriving DecidableEq

/-- How a deletion fails. -/
inductive DeletionFailure where
  /-- `NotFoundException('Account not found')` -/
  | notFound
  | foreignKey
  /-- A statement fails for another reason. -/
  | database
  deriving DecidableEq

namespace AccountDb

variable (db : AccountDb)

/-! ### Insertions -/

/-- `user.create` -/
def addUser (phone : String) : AccountDb :=
  { db with next := db.next + 1, users := db.users ++ [⟨db.next, phone⟩] }

/-- `otpCode.create` -/
def addOtpCode (userId : ℕ) : AccountDb :=
  { db with next := db.next + 1, otpCodes := db.otpCodes ++ [⟨db.next, userId⟩] }

/-- `recordEvent` -/
def addAuthEvent (phone : String) (userId otpCodeId : Option ℕ) : AccountDb :=
  { db with
    next := db.next + 1
    authEvents := db.authEvents ++ [⟨db.next, phone, userId, otpCodeId⟩] }

/-- `notificationJob.create` -/
def addJob (payload : StoredPayload) (userId otpCodeId : Option ℕ) : AccountDb :=
  { db with next := db.next + 1, jobs := db.jobs ++ [⟨db.next, payload, userId, otpCodeId⟩] }

/-- `notificationFailureAttempt.create` -/
def addFailureAttempt (notificationJobId : ℕ) : AccountDb :=
  { db with
    next := db.next + 1
    failureAttempts := db.failureAttempts ++ [⟨db.next, notificationJobId⟩] }

/-- `goal.create` -/
def addGoal (userId : ℕ) : AccountDb :=
  { db with next := db.next + 1, goals := db.goals ++ [⟨db.next, userId⟩] }

/-- `transaction.create` -/
def addTransaction (userId : ℕ) (goalId : Option ℕ) : AccountDb :=
  { db with
    next := db.next + 1
    transactions := db.transactions ++ [⟨db.next, userId, goalId⟩] }

/-- `alertState.create` -/
def addAlertState (userId goalId : ℕ) : AccountDb :=
  { db with next := db.next + 1, alertStates := db.alertStates ++ [⟨db.next, userId, goalId⟩] }

/-- `refreshToken.create` -/
def addRefreshToken (userId : ℕ) : AccountDb :=
  { db with next := db.next + 1, refreshTokens := db.refreshTokens ++ [⟨db.next, userId⟩] }

/-- `alertPreference.create` -/
def addAlertPreference (userId : ℕ) : AccountDb :=
  { db with next := db.next + 1, alertPreferences := db.alertPreferences ++ [⟨db.next, userId⟩] }

/-- `consentPreference.create` -/
def addConsentPreference (userId : ℕ) : AccountDb :=
  { db with
    next := db.next + 1
    consentPreferences := db.consentPreferences ++ [⟨db.next, userId⟩] }

/-- `consentRecord.create` -/
def addConsentRecord (userId : ℕ) : AccountDb :=
  { db with next := db.next + 1, consentRecords := db.consentRecords ++ [⟨db.next, userId⟩] }

/-! ### Deletions -/

/-- The failure attempts of a job go with it. -/
def deleteJobs (p : JobRow → Bool) : AccountDb :=
  { db with
    jobs := db.jobs.filter fun j ↦ !p j
    failureAttempts := db.failureAttempts.filter fun a ↦
      !db.jobs.any fun j ↦ p j && decide (j.id = a.notificationJobId) }

/-- `authEvent.deleteMany` -/
def deleteAuthEvents (p : AuthEventRow → Bool) : AccountDb :=
  { db with authEvents := db.authEvents.filter fun e ↦ !p e }

/-- A code that a job refers to cannot be deleted, and events lose their reference. -/
def deleteOtpCodes (p : OtpCodeRow → Bool) : Except DeletionFailure AccountDb :=
  if db.jobs.any fun j ↦ db.otpCodes.any fun o ↦ p o && decide (j.otpCodeId = some o.id) then
    .error .foreignKey
  else .ok { db with
    otpCodes := db.otpCodes.filter fun o ↦ !p o
    authEvents := db.authEvents.map fun e ↦
      if db.otpCodes.any fun o ↦ p o && decide (e.otpCodeId = some o.id) then
        { e with otpCodeId := none }
      else e }

/-- `transaction.deleteMany` -/
def deleteTransactions (p : LedgerRow → Bool) : AccountDb :=
  { db with transactions := db.transactions.filter fun tx ↦ !p tx }

/-- `alertState.deleteMany` -/
def deleteAlertStates (p : AlertStateRow → Bool) : AccountDb :=
  { db with alertStates := db.alertStates.filter fun state ↦ !p state }

/-- The alert states of a goal go with it, and transactions lose their reference. -/
def deleteGoals (p : SavingsGoalRow → Bool) : AccountDb :=
  { db with
    goals := db.goals.filter fun g ↦ !p g
    transactions := db.transactions.map fun tx ↦
      if db.goals.any fun g ↦ p g && decide (tx.goalId = some g.id) then { tx with goalId := none }
      else tx
    alertStates := db.alertStates.filter fun state ↦
      !db.goals.any fun g ↦ p g && decide (state.goalId = g.id) }

/-- A user with codes, goals or transactions cannot be deleted; events lose their reference, and the
other rows go with the user. -/
def deleteUser (userId : ℕ) : Except DeletionFailure AccountDb :=
  if db.otpCodes.any (fun o ↦ o.userId = userId) || db.goals.any (fun g ↦ g.userId = userId) ||
      db.transactions.any (fun tx ↦ tx.userId = userId) then .error .foreignKey
  else .ok { db.deleteJobs (fun j ↦ j.userId = some userId) with
    users := db.users.filter fun user ↦ user.id ≠ userId
    authEvents := db.authEvents.map fun e ↦
      if e.userId = some userId then { e with userId := none } else e
    refreshTokens := db.refreshTokens.filter fun row ↦ row.userId ≠ userId
    alertPreferences := db.alertPreferences.filter fun row ↦ row.userId ≠ userId
    alertStates := db.alertStates.filter fun state ↦ state.userId ≠ userId
    consentPreferences := db.consentPreferences.filter fun row ↦ row.userId ≠ userId
    consentRecords := db.consentRecords.filter fun row ↦ row.userId ≠ userId }

/-- `if (deleted.count !== 1) throw new NotFoundException('Account not found')` -/
def deleteOneUser (userId : ℕ) : Except DeletionFailure AccountDb :=
  match db.deleteUser userId with
  | .error e => .error e
  | .ok db' =>
    if db.users.countP (fun user ↦ user.id = userId) = 1 then .ok db' else .error .notFound

/-! ### Deleting an account -/

section Deletion

variable (phoneOf : StoredPayload → Option String) (userId : ℕ) (phone : String)

/-- The jobs `beginAccountDeletion` returns: those of the user, and those of nobody whose payload can
be decrypted and has the phone. -/
def legacyNotificationIds : List ℕ :=
  db.jobs.filterMap fun j ↦
    if j.userId = some userId then some j.id
    else if j.userId = none && phoneOf j.payloadJson = some phone then some j.id
    else none

/-- The statements of the deletion transaction. -/
def deletionStatements (ids : List ℕ) : List (AccountDb → Except DeletionFailure AccountDb) :=
  [fun db ↦ .ok (db.deleteJobs fun j ↦ j.userId = some userId || ids.contains j.id),
    fun db ↦ .ok (db.deleteAuthEvents fun e ↦ e.userId = some userId || e.phone = phone),
    fun db ↦ db.deleteOtpCodes fun o ↦ o.userId = userId,
    fun db ↦ .ok (db.deleteTransactions fun tx ↦ tx.userId = userId),
    fun db ↦ .ok (db.deleteAlertStates fun state ↦ state.userId = userId),
    fun db ↦ .ok { db with
      alertPreferences := db.alertPreferences.filter fun row ↦ row.userId ≠ userId },
    fun db ↦ .ok { db with
      consentPreferences := db.consentPreferences.filter fun row ↦ row.userId ≠ userId },
    fun db ↦ .ok { db with
      consentRecords := db.consentRecords.filter fun row ↦ row.userId ≠ userId },
    fun db ↦ .ok (db.deleteGoals fun g ↦ g.userId = userId),
    fun db ↦ db.deleteOneUser userId]

/-- Statements one after the other, until one fails. -/
def runStatements (fails : ℕ → Bool) :
    ℕ → List (AccountDb → Except DeletionFailure AccountDb) → AccountDb →
      Except DeletionFailure AccountDb
  | _, [], db => .ok db
  | k, statement :: statements, db =>
    if fails k then .error .database
    else
      match statement db with
      | .error e => .error e
      | .ok db' => runStatements fails (k + 1) statements db'

/-- `deleteAccount`; the lookups are the first two statements that may fail. When the transaction
fails it is rolled back. -/
def deleteAccount (fails : ℕ → Bool) : Except DeletionFailure Unit × AccountDb :=
  if fails 0 then (.error .database, db)
  else
    match db.users.find? fun user ↦ user.id = userId with
    | none => (.error .notFound, db)
    | some user =>
      if fails 1 then (.error .database, db)
      else
        match runStatements fails 2
            (deletionStatements userId user.phone (db.legacyNotificationIds phoneOf userId user.phone))
            db with
        | .ok db' => (.ok (), db')
        | .error e => (.error e, db)

end Deletion

end AccountDb

/-! ### The other operations -/

/-- How a request for a code goes. -/
inductive RequestCourse where
  | rateLimited
  /-- A failure after the upsert, or a replay. -/
  | stopped
  | resendBlocked (latestOtp : ℕ)
  /-- The event of the new code cannot be written; then the code is deleted, or stays. -/
  | eventFailed (deleted : Bool)
  | enqueueFailed
  | requested

/-- How the replay of a request goes, for a code that is not complete. -/
inductive ReplayCourse where
  | adoptLegacyOtpRequest (jobId : ℕ)
  /-- The processing deadline has passed. -/
  | deleteStale

/-- How a verification goes. -/
inductive VerifyCourse where
  /-- The window of the address or the device is used up. -/
  | windowLocked
  /-- The code is wrong or locked. -/
  | rejected (otpCodeId : ℕ)
  | verified (otpCodeId : ℕ)

/-- The calls that write these tables. -/
inductive AccountOp where
  | requestOtp (phone : String) (payload : StoredPayload) (course : RequestCourse)
  | replayOtpRequest (otpCodeId : ℕ) (course : ReplayCourse)
  | verifyOtp (phone : String) (course : VerifyCourse)
  /-- A token of the user is rotated. -/
  | refreshSession (userId : ℕ)
  /-- A job is completed or given up. -/
  | settleJob (id : ℕ) (payload : StoredPayload) (failed : Bool)
  | createGoal (userId : ℕ)
  | createTransaction (userId : ℕ) (goalId : Option ℕ)
  | importTransactions (userId : ℕ) (goalId : Option ℕ) (rows : ℕ)
  | updateTransaction (userId id : ℕ) (goalId : Option ℕ)
  | removeTransaction (userId id : ℕ)
  | updateAlertPreferences (userId : ℕ)
  /-- The records are one for each consent that changes. -/
  | updateConsents (userId records : ℕ)
  /-- The alerts that are due are published, and then the state is written. -/
  | evaluateUser (userId goalId : ℕ) (alerts : List StoredPayload) (stateWritten : Bool)
  | deleteAccount (userId : ℕ) (fails : ℕ → Bool)

namespace AccountDb

variable (db : AccountDb)

/-- The user of a phone. -/
def userWithPhone (phone : String) : Option UserRow := db.users.find? fun user ↦ user.phone = phone

/-- The user is there. -/
def hasUser (userId : ℕ) : Bool := db.users.any fun user ↦ user.id = userId

/-- The goal is there, and is the user's. -/
def hasGoal (userId goalId : ℕ) : Bool := db.goals.any fun g ↦ g.id = goalId && g.userId = userId

/-- A code of a user. -/
def otpCodeOf (userId otpCodeId : ℕ) : Option OtpCodeRow :=
  db.otpCodes.find? fun o ↦ o.id = otpCodeId && o.userId = userId

/-- `user.upsert` -/
def upsertUser (phone : String) : UserRow × AccountDb :=
  match db.userWithPhone phone with
  | some user => (user, db)
  | none => (⟨db.next, phone⟩, db.addUser phone)

/-- The tables, or those of before when a deletion is refused. -/
def orKeep (result : Except DeletionFailure AccountDb) : AccountDb :=
  match result with
  | .ok db' => db'
  | .error _ => db

/-- `AuthService.requestOtp` -/
def requestOtp (phone : String) (payload : StoredPayload) (course : RequestCourse) : AccountDb :=
  match course with
  | .rateLimited => db.addAuthEvent phone none none
  | .stopped => (db.upsertUser phone).2
  | .resendBlocked latestOtp =>
    let (user, db) := db.upsertUser phone
    match db.otpCodeOf user.id latestOtp with
    | none => db
    | some otp => db.addAuthEvent phone (some user.id) (some otp.id)
  | .eventFailed deleted =>
    let (user, db) := db.upsertUser phone
    let otpCodeId := db.next
    let db := db.addOtpCode user.id
    if deleted then db.orKeep (db.deleteOtpCodes fun o ↦ o.id = otpCodeId) else db
  | .enqueueFailed =>
    let (user, db) := db.upsertUser phone
    let otpCodeId := db.next
    (db.addOtpCode user.id).addAuthEvent phone (some user.id) (some otpCodeId)
  | .requested =>
    let (user, db) := db.upsertUser phone
    let otpCodeId := db.next
    ((db.addOtpCode user.id).addAuthEvent phone (some user.id) (some otpCodeId)).addJob payload
      (some user.id) (some otpCodeId)

/-- `AuthService.replayOtpRequest` -/
def replayOtpRequest (otpCodeId : ℕ) (course : ReplayCourse) : AccountDb :=
  match db.otpCodes.find? fun o ↦ o.id = otpCodeId with
  | none => db
  | some existing =>
    match course with
    | .adoptLegacyOtpRequest jobId => { db with
        jobs := db.jobs.map fun j ↦
          if j.id = jobId ∧ j.userId = some existing.userId ∧ j.otpCodeId = none then
            { j with otpCodeId := some existing.id }
          else j }
    | .deleteStale => db.orKeep (db.deleteOtpCodes fun o ↦ o.id = existing.id)

/-- `AuthService.verifyOtp` -/
def verifyOtp (phone : String) (course : VerifyCourse) : AccountDb :=
  match course with
  | .windowLocked => db.addAuthEvent phone none none
  | .rejected otpCodeId =>
    match db.userWithPhone phone with
    | none => db
    | some user =>
      match db.otpCodeOf user.id otpCodeId with
      | none => db
      | some record => db.addAuthEvent phone (some user.id) (some record.id)
  | .verified otpCodeId =>
    match db.userWithPhone phone with
    | none => db
    | some user =>
      match db.otpCodeOf user.id otpCodeId with
      | none => db
      | some record =>
        (db.addAuthEvent phone (some user.id) (some record.id)).addRefreshToken user.id

/-- `markSucceeded` and `markFailed`: what becomes of a job, with the attempt that failed. -/
def settleJob (id : ℕ) (payload : StoredPayload) (failed : Bool) : AccountDb :=
  if db.jobs.any fun j ↦ j.id = id then
    let db := { db with
      jobs := db.jobs.map fun j ↦ if j.id = id then { j with payloadJson := payload } else j }
    if failed then db.addFailureAttempt id else db
  else db

/-- A row for a user whom the foreign key finds. -/
def forUser (userId : ℕ) (write : AccountDb → AccountDb) : AccountDb :=
  if db.hasUser userId then write db else db

/-- `TransactionsService.update` -/
def updateTransaction (userId id : ℕ) (goalId : Option ℕ) : AccountDb :=
  if goalId.all (db.hasGoal userId) then { db with
    transactions := db.transactions.map fun tx ↦
      if tx.id = id ∧ tx.userId = userId then { tx with goalId := goalId } else tx }
  else db

/-- Rows of the same kind. -/
def addMany (add : AccountDb → AccountDb) : ℕ → AccountDb → AccountDb
  | 0, db => db
  | n + 1, db => addMany add n (add db)

/-- `AlertsService.evaluateUser` -/
def evaluateUser (userId goalId : ℕ) (alerts : List StoredPayload) (stateWritten : Bool) :
    AccountDb :=
  if db.alertPreferences.any (fun row ↦ row.userId = userId) && db.hasGoal userId goalId then
    let db := alerts.foldl (fun db payload ↦ db.addJob payload (some userId) none) db
    if stateWritten then
      if db.alertStates.any fun state ↦ state.userId = userId && state.goalId = goalId then db
      else db.addAlertState userId goalId
    else db
  else db

end AccountDb

/-- The tables after an operation. -/
def AccountOp.run (phoneOf : StoredPayload → Option String) (op : AccountOp) (db : AccountDb) :
    AccountDb :=
  match op with
  | .requestOtp phone payload course => db.requestOtp phone payload course
  | .replayOtpRequest otpCodeId course => db.replayOtpRequest otpCodeId course
  | .verifyOtp phone course => db.verifyOtp phone course
  | .refreshSession userId =>
    if db.refreshTokens.any fun row ↦ row.userId = userId then db.addRefreshToken userId else db
  | .settleJob id payload failed => db.settleJob id payload failed
  | .createGoal userId => db.forUser userId fun db ↦ db.addGoal userId
  | .createTransaction userId goalId =>
    if goalId.all (db.hasGoal userId) then
      db.forUser userId fun db ↦ db.addTransaction userId goalId
    else db
  | .importTransactions userId goalId rows =>
    if goalId.all (db.hasGoal userId) then
      db.forUser userId (AccountDb.addMany (fun db ↦ db.addTransaction userId goalId) rows)
    else db
  | .updateTransaction userId id goalId => db.updateTransaction userId id goalId
  | .removeTransaction userId id =>
    db.deleteTransactions fun tx ↦ tx.id = id && tx.userId = userId
  | .updateAlertPreferences userId =>
    if db.alertPreferences.any fun row ↦ row.userId = userId then db
    else db.forUser userId fun db ↦ db.addAlertPreference userId
  | .updateConsents userId records =>
    db.forUser userId fun db ↦ AccountDb.addMany (fun db ↦ db.addConsentRecord userId) records
      (if db.consentPreferences.any fun row ↦ row.userId = userId then db
        else db.addConsentPreference userId)
  | .evaluateUser userId goalId alerts stateWritten => db.evaluateUser userId goalId alerts stateWritten
  | .deleteAccount userId fails => (db.deleteAccount phoneOf userId fails).2

/-- Tables that the migrations left behind: users, and notification jobs without codes. -/
structure Migrated (db : AccountDb) : Prop where
  userIds : (db.users.map fun user ↦ user.id).Nodup
  phones : (db.users.map fun user ↦ user.phone).Nodup
  jobIds : (db.jobs.map fun j ↦ j.id).Nodup
  unlinked : ∀ j ∈ db.jobs, j.otpCodeId = none
  usersBelow : ∀ user ∈ db.users, user.id < db.next
  jobsBelow : ∀ j ∈ db.jobs, j.id < db.next
  otpCodes : db.otpCodes = []
  authEvents : db.authEvents = []
  goals : db.goals = []
  transactions : db.transactions = []
  alertStates : db.alertStates = []

/-- The tables after operations. -/
def accountAfter (phoneOf : StoredPayload → Option String) (db : AccountDb) (ops : List AccountOp) :
    AccountDb := ops.foldl (fun db op ↦ op.run phoneOf db) db

end Stead
