import Stead.Goals.Lifecycle
import Stead.Import.Service

/-!
# The operations of a user

The operations on goals, transactions, imports, the dashboard, alert preferences and consents, as
the services carry them out for the user of a request, on tables that all users share. They run one
after the other.

## Lookups and writes

An operation looks rows up with their owner, and writes by the identifier of what it has found, as
the source does; that the two are of one row is not built in. Rows of others are in the same lists,
and an operation on the wrong row would change them.

## Failures

An operation answers, with the tables after it, or fails and leaves them as they were. It fails by a
check of its own, by a check of the goals or the import, or because the database refuses the write:
a foreign key, an identifier that is taken, a value that a column cannot hold.

## Requests

A request brings the identifiers that it may draw and what its clock says. Where no result and no
lookup uses the identifier of a row it is left out. Dates are texts in the form in which they are
stored, and what the platform makes of other texts is given from outside (`Runtime`).
-/

namespace Stead

/-- What the services take from the language runtime and the database. -/
structure Runtime where
  platform : Platform
  storable : Storable
  /-- `new Date(value).toISOString()`, for a date -/
  isoDate : Text → Option Text
  /-- `date.getTime()` -/
  time : Text → ℤ
  /-- Whether `Intl.DateTimeFormat` knows the time zone. -/
  knowsTimeZone : String → Bool

/-- A row of `User`, as far as an account shows it. -/
structure AccountUser where
  id : ℕ
  phone : String
  displayName : Option String
  createdAt : ℤ
  updatedAt : ℤ
  deriving DecidableEq

/-- A row of `Transaction`, -/
structure TransactionRow extends StoredTransaction where
  id : ℕ
  createdAt : ℤ
  deriving DecidableEq

/-- of `AlertPreference`, with the defaults of the schema, -/
structure AlertPreferenceRow where
  userId : ℕ
  weeklySummaryEnabled : Bool := false
  riskAlertsEnabled : Bool := false
  timeZone : String := "UTC"
  weeklyDay : ℕ := 1
  weeklyHourLocal : ℕ := 9
  updatedAt : ℤ
  deriving DecidableEq

/-- and of `ConsentPreference`. -/
structure ConsentPreferenceRow where
  userId : ℕ
  analyticsEnabled : Bool
  productResearchEnabled : Bool
  updatedAt : ℤ
  deriving DecidableEq

/-- What a consent is to. -/
inductive ConsentCategory where
  | analytics
  | productResearch
  deriving DecidableEq

/-- A row of `ConsentRecord`. -/
structure ConsentRecordRow where
  userId : ℕ
  category : ConsentCategory
  granted : Bool
  createdAt : ℤ
  deriving DecidableEq

/-- The tables. -/
structure TenantStore where
  users : List AccountUser
  goals : List GoalRow
  transactions : List TransactionRow
  alertPreferences : List AlertPreferenceRow
  consentPreferences : List ConsentPreferenceRow
  consentRecords : List ConsentRecordRow
  deriving DecidableEq

/-! ### Requests and answers -/

/-- The body of `POST /transactions`, -/
structure CreateTransactionDto where
  direction : Direction
  amountKobo : ℕ
  occurredAt : Text
  /-- `none` also for an empty text -/
  goalId : Option ℕ
  note : Option Text

/-- What an update does to the goal of a transaction. -/
inductive GoalLink where
  | keep
  | clear
  /-- an empty text, which is written without a check -/
  | blank
  | link (goalId : ℕ)
  deriving DecidableEq

/-- of `PATCH /transactions/:id`, -/
structure UpdateTransactionDto where
  direction : Option Direction
  amountKobo : Option ℕ
  occurredAt : Option Text
  goalId : GoalLink
  note : Option (Option Text)

/-- of an update of the alert preferences -/
structure UpdateAlertPreferencesDto where
  weeklySummaryEnabled : Option Bool
  riskAlertsEnabled : Option Bool
  timeZone : Option String
  weeklyDay : Option ℕ
  weeklyHourLocal : Option ℕ

/-- and of one of the consents. -/
structure UpdateConsentsDto where
  analyticsEnabled : Option Bool
  productResearchEnabled : Option Bool

/-- The operations. -/
inductive TenantOp where
  | createGoal (dto : CreateGoalDto)
  | listGoals
  | getActiveGoal
  | updateGoal (goalId : ℕ) (dto : UpdateGoalDto)
  | endGoal (goalId : ℕ) (status : EndStatus)
  | createTransaction (dto : CreateTransactionDto)
  | listTransactions (after before : Option Text)
  | previewImport (dto : PreviewTransactionImportDto)
  | confirmImport (dto : ConfirmTransactionImportDto)
  | updateTransaction (id : ℕ) (dto : UpdateTransactionDto)
  | removeTransaction (id : ℕ)
  | getStability
  | getAlertPreferences
  | updateAlertPreferences (dto : UpdateAlertPreferencesDto)
  | getAccount
  | updateConsents (dto : UpdateConsentsDto)

/-- An operation that a user asks for. -/
structure TenantRequest where
  userId : ℕ
  op : TenantOp
  now : ℤ
  /-- The identifiers it draws. -/
  uuid : ℕ → ℕ

/-- `serializeTransaction` -/
structure TransactionResponse where
  id : ℕ
  userId : ℕ
  goalId : Option ℕ
  amountKobo : ℕ
  direction : Direction
  occurredAt : Text
  note : Option Text
  createdAt : ℤ
  deriving DecidableEq

/-- The alert preferences of an answer; the defaults where there is no row. -/
structure AlertPreferencesResponse where
  weeklySummaryEnabled : Bool := false
  riskAlertsEnabled : Bool := false
  timeZone : String := "UTC"
  weeklyDay : ℕ := 1
  weeklyHourLocal : ℕ := 9
  updatedAt : Option ℤ := none
  deriving DecidableEq

/-- The account of an answer. -/
structure AccountResponse where
  profile : AccountUser
  analyticsEnabled : Bool
  productResearchEnabled : Bool
  consentsUpdatedAt : Option ℤ
  deriving DecidableEq

/-- What is answered. -/
inductive TenantResponse where
  | goal (goal : GoalRow)
  | goals (goals : List GoalRow)
  | transaction (transaction : TransactionResponse)
  | transactions (transactions : List TransactionResponse)
  | preview (preview : TransactionImportPreview)
  | imported (result : TransactionImportResult)
  | stability (response : DashboardStabilityResponse)
  | alertPreferences (preferences : AlertPreferencesResponse)
  | account (account : AccountResponse)
  | done
  deriving DecidableEq

/-- How an operation fails. -/
inductive TenantFailure where
  | notFound (message : String)
  | badRequest (message : String)
  | goal (e : GoalFailure)
  | importing (e : ImportFailure)
  /-- A foreign key is violated. -/
  | foreignKey
  /-- The primary key is violated. -/
  | idTaken
  /-- The database cannot store a value. -/
  | database
  deriving DecidableEq

/-- What an operation answers, with the tables after it. -/
abbrev TenantOutcome := Except TenantFailure (TenantResponse × TenantStore)

namespace TenantStore

variable (s : TenantStore) (userId : ℕ)

/-- The user is there. -/
def hasUser : Bool := s.users.any fun user ↦ user.id = userId

/-- The tables with new rows of a user, whom the foreign keys must find. -/
def written (response : TenantResponse) (s' : TenantStore) : TenantOutcome :=
  if s.hasUser userId then .ok (response, s') else .error .foreignKey

/-- The user has the goal. -/
def hasGoal (goalId : ℕ) : Bool := s.goals.any fun goal ↦ goal.id = goalId && goal.userId = userId

end TenantStore

/-! ### Goals -/

section Operations

variable (runtime : Runtime) (userId : ℕ) (s : TenantStore) (now : ℤ)

/-- `create` of the goals -/
def createGoal (dto : CreateGoalDto) (id : ℕ) : TenantOutcome :=
  match GoalsService.create userId dto id now s.goals with
  | .error e => .error (.goal e)
  | .ok (goal, goals) => s.written userId (.goal goal) { s with goals }

/-- `orderBy: [{ createdAt: 'desc' }, { id: 'desc' }]` -/
def listGoals : TenantResponse :=
  .goals ((s.goals.filter fun g ↦ g.userId = userId).mergeSort fun a b ↦
    decide (b.createdAt < a.createdAt) || (decide (b.createdAt = a.createdAt) && decide (b.id ≤ a.id)))

/-- `getActive` of the goals -/
def getActiveGoal : TenantOutcome :=
  match GoalsService.getActive s.goals userId with
  | .error e => .error (.goal e)
  | .ok goal => .ok (.goal goal, s)

/-- `update` of the goals -/
def updateGoal (goalId : ℕ) (dto : UpdateGoalDto) : TenantOutcome :=
  match GoalsService.update userId goalId dto now s.goals with
  | .error e => .error (.goal e)
  | .ok (goal, goals) => .ok (.goal goal, { s with goals })

/-- `end` of the goals -/
def endGoal (goalId : ℕ) (status : EndStatus) : TenantOutcome :=
  match GoalsService.end_ userId goalId status now s.goals with
  | .error e => .error (.goal e)
  | .ok (goal, goals) => .ok (.goal goal, { s with goals })

/-! ### Transactions -/

/-- The transaction of an answer. -/
def serializeTransaction (tx : TransactionRow) : TransactionResponse where
  id := tx.id
  userId := tx.userId
  goalId := tx.goalId
  amountKobo := tx.amountKobo
  direction := tx.direction
  occurredAt := tx.occurredAt
  note := tx.note
  createdAt := tx.createdAt

/-- `where: { id, userId }` -/
def ownedTransaction (id : ℕ) (tx : TransactionRow) : Bool := tx.id = id && tx.userId = userId

/-- The row `create` inserts. -/
def newTransaction (dto : CreateTransactionDto) (occurredAt : Text) (id : ℕ) : TransactionRow where
  userId := userId
  goalId := dto.goalId
  direction := dto.direction
  amountKobo := dto.amountKobo
  occurredAt := occurredAt
  note := dto.note.filter (· ≠ [])
  importFingerprint := none
  id := id
  createdAt := now

/-- `create`, for a goal of the user if for any. -/
def createTransaction (dto : CreateTransactionDto) (id : ℕ) : TenantOutcome :=
  if dto.goalId.all (s.hasGoal userId) then
    match runtime.isoDate dto.occurredAt with
    | none => .error .database
    | some occurredAt =>
      let tx := newTransaction userId now dto occurredAt id
      if !runtime.storable.note tx.note then .error .database
      else if s.transactions.any fun t ↦ t.id = id then .error .idTaken
      else s.written userId (.transaction (serializeTransaction tx))
        { s with transactions := s.transactions ++ [tx] }
  else .error (.notFound "Goal not found")

/-- `new Date(value)` of a bound that is given; an error for one that is no date. -/
def dateBound (value : Option Text) : Except TenantFailure (Option ℤ) :=
  match value with
  | none => .ok none
  | some text =>
    match runtime.isoDate text with
    | none => .error .database
    | some date => .ok (some (runtime.time date))

/-- `findAll`, within the bounds that are given. -/
def listTransactions (after before : Option Text) : TenantOutcome :=
  match dateBound runtime after, dateBound runtime before with
  | .ok gte, .ok lte =>
    let found := s.transactions.filter fun tx ↦ tx.userId = userId &&
      (gte.all fun t ↦ decide (t ≤ runtime.time tx.occurredAt)) &&
        lte.all fun t ↦ decide (runtime.time tx.occurredAt ≤ t)
    .ok (.transactions ((found.mergeSort fun a b ↦
      decide (runtime.time b.occurredAt ≤ runtime.time a.occurredAt)).map serializeTransaction), s)
  | _, _ => .error .database

/-- What the import reads. -/
def importStore : ImportStore where
  goals := s.goals.map fun g ↦ g.toGoal
  transactions := s.transactions.map fun tx ↦ tx.toStoredTransaction

/-- `previewImport` -/
def previewImportOf (dto : PreviewTransactionImportDto) : TenantOutcome :=
  match previewImport runtime.platform (importStore s) userId dto with
  | .error e => .error (.importing e)
  | .ok preview => .ok (.preview preview, s)

/-- `@@unique([userId, importFingerprint])` -/
def transactionKey (tx : TransactionRow) : Option (ℕ × ℕ) := importKey tx.toStoredTransaction

/-- The rows of a batch, with the identifiers it draws. -/
def importedRows (uuid : ℕ → ℕ) (data : List StoredTransaction) : List TransactionRow :=
  data.mapIdx fun k tx ↦ { tx with id := uuid k, createdAt := now }

/-- `confirmImport`, which skips what is stored already. -/
def confirmImportOf (uuid : ℕ → ℕ) (dto : ConfirmTransactionImportDto) : TenantOutcome :=
  match importBatch runtime.platform (importStore s).goals userId dto with
  | .error e => .error (.importing e)
  | .ok rows =>
    let data := importedRows now uuid (rows.filterMap (importData userId dto.goalId))
    if data.all fun tx ↦ runtime.storable.note tx.note && runtime.storable.occurredAt tx.occurredAt
    then
      let added := Collections.inserted transactionKey s.transactions
        (data.filter fun tx ↦ s.transactions.all fun t ↦ t.id ≠ tx.id)
      if added = [] then .ok (.imported ⟨0, rows.length⟩, s)
      else s.written userId (.imported ⟨added.length, rows.length - added.length⟩)
        { s with transactions := s.transactions ++ added }
    else .error (.importing .database)

/-- `data` of the update. -/
def applyTransactionUpdate (dto : UpdateTransactionDto) (occurredAt : Option Text)
    (tx : TransactionRow) : TransactionRow :=
  { tx with
    direction := dto.direction.getD tx.direction
    amountKobo := dto.amountKobo.getD tx.amountKobo
    occurredAt := occurredAt.getD tx.occurredAt
    goalId :=
      match dto.goalId with
      | .link goalId => some goalId
      | .clear | .blank => none
      | .keep => tx.goalId
    note := dto.note.getD tx.note }

/-- The goal an update links to, if it is checked. -/
def GoalLink.checked : GoalLink → Option ℕ
  | .link goalId => some goalId
  | _ => none

/-- The date an update writes, if it is a date. -/
def updateDate (dto : UpdateTransactionDto) : Option (Option Text) :=
  match dto.occurredAt with
  | none => some none
  | some text => (runtime.isoDate text).map some

/-- `update`: looked up with the owner, written by the identifier. -/
def updateTransaction (id : ℕ) (dto : UpdateTransactionDto) : TenantOutcome :=
  match s.transactions.find? (ownedTransaction userId id) with
  | none => .error (.notFound "Transaction not found")
  | some tx =>
    if dto.goalId.checked.all (s.hasGoal userId) then
      match updateDate runtime dto with
      | none => .error .database
      | some occurredAt =>
        if !(dto.note.all runtime.storable.note) then .error .database
        else if dto.goalId = .blank then .error .foreignKey
        else
          .ok (.transaction (serializeTransaction (applyTransactionUpdate dto occurredAt tx)),
            { s with transactions := s.transactions.map fun t ↦
                if t.id = id then applyTransactionUpdate dto occurredAt t else t })
    else .error (.notFound "Goal not found")

/-- `remove`: looked up with the owner, deleted by the identifier. -/
def removeTransaction (id : ℕ) : TenantOutcome :=
  match s.transactions.find? (ownedTransaction userId id) with
  | none => .error (.notFound "Transaction not found")
  | some _ => .ok (.done, { s with transactions := s.transactions.filter fun t ↦ t.id ≠ id })

/-! ### Dashboard, preferences and consents -/

/-- A transaction as the dashboard reads it. -/
def TransactionRow.ledgerEntry (tx : TransactionRow) : LedgerEntry where
  userId := tx.userId
  goalId := tx.goalId
  amountKobo := tx.amountKobo
  direction := if tx.direction = .in then "in" else "out"

/-- `getStability` of the dashboard -/
def stabilityOfUser : TenantResponse :=
  .stability (getStability (GoalsService.dashboardGoals s.goals)
    (s.transactions.map TransactionRow.ledgerEntry) userId now)

/-- The alert preferences of a row. -/
def toPreferences (row : AlertPreferenceRow) : AlertPreferencesResponse where
  weeklySummaryEnabled := row.weeklySummaryEnabled
  riskAlertsEnabled := row.riskAlertsEnabled
  timeZone := row.timeZone
  weeklyDay := row.weeklyDay
  weeklyHourLocal := row.weeklyHourLocal
  updatedAt := some row.updatedAt

/-- `getPreferences` of the alerts -/
def getAlertPreferences : TenantResponse :=
  match s.alertPreferences.find? fun row ↦ row.userId = userId with
  | some row => .alertPreferences (toPreferences row)
  | none => .alertPreferences {}

/-- The row with what the body gives. -/
def applyPreferences (dto : UpdateAlertPreferencesDto) (row : AlertPreferenceRow) :
    AlertPreferenceRow :=
  { row with
    weeklySummaryEnabled := dto.weeklySummaryEnabled.getD row.weeklySummaryEnabled
    riskAlertsEnabled := dto.riskAlertsEnabled.getD row.riskAlertsEnabled
    timeZone := dto.timeZone.getD row.timeZone
    weeklyDay := dto.weeklyDay.getD row.weeklyDay
    weeklyHourLocal := dto.weeklyHourLocal.getD row.weeklyHourLocal
    updatedAt := now }

/-- `Object.keys(input).length === 0` -/
def UpdateAlertPreferencesDto.isEmpty (dto : UpdateAlertPreferencesDto) : Bool :=
  dto.weeklySummaryEnabled.isNone && dto.riskAlertsEnabled.isNone && dto.timeZone.isNone &&
    dto.weeklyDay.isNone && dto.weeklyHourLocal.isNone

/-- `updatePreferences` of the alerts: an upsert. -/
def updateAlertPreferences (dto : UpdateAlertPreferencesDto) : TenantOutcome :=
  if dto.isEmpty then .error (.badRequest "At least one preference is required")
  else if !(dto.timeZone.all runtime.knowsTimeZone) then
    .error (.badRequest "timeZone must be a valid IANA time zone")
  else
    match s.alertPreferences.find? fun row ↦ row.userId = userId with
    | some row => .ok (.alertPreferences (toPreferences (applyPreferences now dto row)),
        { s with alertPreferences := s.alertPreferences.map fun row ↦
            if row.userId = userId then applyPreferences now dto row else row })
    | none =>
      let row := applyPreferences now dto { userId := userId, updatedAt := now }
      s.written userId (.alertPreferences (toPreferences row))
        { s with alertPreferences := s.alertPreferences ++ [row] }

/-- `{ profile, consents }` of a user. -/
def accountOf (user : AccountUser) : AccountResponse :=
  match s.consentPreferences.find? fun row ↦ row.userId = user.id with
  | some row => ⟨user, row.analyticsEnabled, row.productResearchEnabled, some row.updatedAt⟩
  | none => ⟨user, false, false, none⟩

/-- `getAccount` -/
def getAccount : TenantOutcome :=
  match s.users.find? fun user ↦ user.id = userId with
  | none => .error (.notFound "Account not found")
  | some user => .ok (.account (accountOf s user), s)

/-- The record of a consent that is given and was another one before. -/
def consentRecord (category : ConsentCategory) (current : Bool) (given : Option Bool) :
    List ConsentRecordRow :=
  match given with
  | some granted => if current = granted then [] else [⟨userId, category, granted, now⟩]
  | none => []

/-- The rows of preferences after the upsert. -/
def upsertConsents (dto : UpdateConsentsDto) : List ConsentPreferenceRow :=
  match s.consentPreferences.find? fun row ↦ row.userId = userId with
  | some _ => s.consentPreferences.map fun row ↦
      if row.userId = userId then
        { row with
          analyticsEnabled := dto.analyticsEnabled.getD row.analyticsEnabled
          productResearchEnabled := dto.productResearchEnabled.getD row.productResearchEnabled
          updatedAt := now }
      else row
  | none => s.consentPreferences ++ [⟨userId, dto.analyticsEnabled.getD false,
      dto.productResearchEnabled.getD false, now⟩]

/-- The records of what an update of the consents changes. -/
def consentRecordsOf (dto : UpdateConsentsDto) : List ConsentRecordRow :=
  let current := s.consentPreferences.find? fun row ↦ row.userId = userId
  consentRecord userId now .analytics (current.elim false fun row ↦ row.analyticsEnabled)
      dto.analyticsEnabled ++
    consentRecord userId now .productResearch
      (current.elim false fun row ↦ row.productResearchEnabled) dto.productResearchEnabled

/-- `updateConsents`, one call at a time. -/
def updateConsents (dto : UpdateConsentsDto) : TenantOutcome :=
  if dto.analyticsEnabled.isNone && dto.productResearchEnabled.isNone then
    .error (.badRequest "At least one consent is required")
  else if !s.hasUser userId then .error (.notFound "Account not found")
  else
    let records := consentRecordsOf userId s now dto
    if records = [] then getAccount userId s
    else getAccount userId { s with
      consentPreferences := upsertConsents userId s now dto
      consentRecords := s.consentRecords ++ records }

end Operations

/-! ### Runs -/

/-- The operation of a request. -/
def TenantRequest.run (runtime : Runtime) (r : TenantRequest) (s : TenantStore) : TenantOutcome :=
  match r.op with
  | .createGoal dto => createGoal r.userId s r.now dto (r.uuid 0)
  | .listGoals => .ok (listGoals r.userId s, s)
  | .getActiveGoal => getActiveGoal r.userId s
  | .updateGoal goalId dto => updateGoal r.userId s r.now goalId dto
  | .endGoal goalId status => endGoal r.userId s r.now goalId status
  | .createTransaction dto => createTransaction runtime r.userId s r.now dto (r.uuid 0)
  | .listTransactions after before => listTransactions runtime r.userId s after before
  | .previewImport dto => previewImportOf runtime r.userId s dto
  | .confirmImport dto => confirmImportOf runtime r.userId s r.now r.uuid dto
  | .updateTransaction id dto => updateTransaction runtime r.userId s id dto
  | .removeTransaction id => removeTransaction r.userId s id
  | .getStability => .ok (stabilityOfUser r.userId s r.now, s)
  | .getAlertPreferences => .ok (getAlertPreferences r.userId s, s)
  | .updateAlertPreferences dto => updateAlertPreferences runtime r.userId s r.now dto
  | .getAccount => getAccount r.userId s
  | .updateConsents dto => updateConsents r.userId s r.now dto

/-- What a request is answered with. -/
def TenantRequest.answer (runtime : Runtime) (r : TenantRequest) (s : TenantStore) :
    Except TenantFailure TenantResponse :=
  (r.run runtime s).map Prod.fst

/-- The tables after a request: those of before when it fails. -/
def TenantRequest.after (runtime : Runtime) (r : TenantRequest) (s : TenantStore) : TenantStore :=
  match r.run runtime s with
  | .ok (_, s') => s'
  | .error _ => s

/-- The tables after requests. -/
def tenantsAfter (runtime : Runtime) (s : TenantStore) (requests : List TenantRequest) :
    TenantStore :=
  requests.foldl (fun s r ↦ r.after runtime s) s

/-- The answers to requests, each with its user. -/
def tenantAnswers (runtime : Runtime) : TenantStore → List TenantRequest →
    List (ℕ × Except TenantFailure TenantResponse)
  | _, [] => []
  | s, r :: requests =>
    (r.userId, r.answer runtime s) :: tenantAnswers runtime (r.after runtime s) requests

/-- The answers to one user. -/
def answersTo (b : ℕ) (answers : List (ℕ × Except TenantFailure TenantResponse)) :
    List (Except TenantFailure TenantResponse) :=
  answers.filterMap fun answer ↦ if answer.1 = b then some answer.2 else none

end Stead
