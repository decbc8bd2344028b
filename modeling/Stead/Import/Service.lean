import Stead.Collections.KeyedRows
import Stead.Dashboard.Service
import Stead.Import.Coverage

/-!
# Preview and confirmation

`previewImport` and `confirmImport` of the transactions service. Both parse the text anew; the
preview compares the fingerprints with the stored ones, the confirmation inserts the selected rows
and leaves the comparison to the unique index on user and fingerprint.

## The store

Of a transaction the columns are kept that an import writes. What a column can hold is a predicate
of the database (`Storable`), which the insertion of a batch depends on: one row that cannot be
stored fails them all. The rows whose key is taken are skipped (`createMany`), and the others are
counted.

## Checks and insertion

A confirmation is its checks (`importBatch`), which do not look at the transactions, and one
insertion (`confirmImport_eq`). So whether a call is accepted does not depend on what is stored.
-/

namespace Stead

open Collections

/-- A row of `Transaction`. -/
structure StoredTransaction where
  userId : ℕ
  goalId : Option ℕ
  direction : Direction
  amountKobo : ℕ
  occurredAt : Text
  note : Option Text
  importFingerprint : Option ℕ
  deriving DecidableEq

/-- The tables the import reads and writes. -/
structure ImportStore where
  goals : List Goal
  transactions : List StoredTransaction
  deriving DecidableEq

/-- Which notes and dates the database can store. -/
structure Storable where
  note : Option Text → Bool
  occurredAt : Text → Bool

/-- `@@unique([userId, importFingerprint])` -/
def importKey (tx : StoredTransaction) : Option (ℕ × ℕ) :=
  tx.importFingerprint.map fun fingerprint ↦ (tx.userId, fingerprint)

/-- `transaction.createMany({ data, skipDuplicates: true })`, with the rows it adds. -/
def createMany (storable : Storable) (transactions data : List StoredTransaction) :
    Except ImportFailure (List StoredTransaction) :=
  if data.all fun tx ↦ storable.note tx.note && storable.occurredAt tx.occurredAt then
    .ok (inserted importKey transactions data)
  else .error .database

/-- The body of a preview, -/
structure PreviewTransactionImportDto where
  csv : Text
  goalId : Option ℕ

/-- and of a confirmation. -/
structure ConfirmTransactionImportDto where
  csv : Text
  rowNumbers : List ℕ
  goalId : Option ℕ

/-- The answer to a preview, -/
structure TransactionImportPreview where
  rows : List ParsedImportRow
  readyCount : ℕ
  duplicateCount : ℕ
  invalidCount : ℕ
  deriving DecidableEq

/-- and to a confirmation. -/
structure TransactionImportResult where
  importedCount : ℕ
  duplicateCount : ℕ
  deriving DecidableEq

/-- A goal of the user has this identifier. -/
def goalBelongsToUser (goals : List Goal) (goalId userId : ℕ) : Bool :=
  goals.any fun goal ↦ goal.id = goalId && goal.userId = userId

/-- `if (dto.goalId) await this.ensureGoalBelongsToUser(dto.goalId, userId)` -/
def ensureGoalBelongsToUser (goals : List Goal) (goalId : Option ℕ) (userId : ℕ) :
    Except ImportFailure Unit :=
  if goalId.all (goalBelongsToUser goals · userId) then .ok ()
  else .error (.notFound "Goal not found")

/-- The stored fingerprints of a user. -/
def storedFingerprints (transactions : List StoredTransaction) (userId : ℕ) : List ℕ :=
  (transactions.filter fun tx ↦ tx.userId = userId).filterMap StoredTransaction.importFingerprint

/-- The row, marked if its fingerprint is stored. -/
def markDuplicate (stored : List ℕ) (row : ParsedImportRow) : ParsedImportRow :=
  { row with duplicate := row.fingerprint.any fun fingerprint ↦ fingerprint ∈ stored }

/-- `previewImport` -/
def previewImport (platform : Platform) (store : ImportStore) (userId : ℕ)
    (dto : PreviewTransactionImportDto) : Except ImportFailure TransactionImportPreview :=
  match ensureGoalBelongsToUser store.goals dto.goalId userId with
  | .error e => .error e
  | .ok () =>
    match parseTransactionImport platform dto.csv with
    | .error e => .error e
    | .ok rows =>
      let fingerprints := fingerprintsOf rows
      let duplicates := (storedFingerprints store.transactions userId).filter (· ∈ fingerprints)
      let previewRows := rows.map (markDuplicate duplicates)
      .ok {
        rows := previewRows
        readyCount := previewRows.countP fun row ↦ row.error.isNone && !row.duplicate
        duplicateCount := previewRows.countP fun row ↦ row.duplicate
        invalidCount := previewRows.countP fun row ↦ row.error.isSome }

/-- A row that cannot be imported. -/
def ParsedImportRow.isInvalid (row : ParsedImportRow) : Bool :=
  row.error.isSome || row.fingerprint.isNone || row.occurredAt.isNone || row.direction.isNone ||
    row.amountKobo.isNone

/-- The row as a transaction. -/
def importData (userId : ℕ) (goalId : Option ℕ) (row : ParsedImportRow) :
    Option StoredTransaction :=
  match row.direction, row.amountKobo, row.occurredAt with
  | some direction, some amountKobo, some occurredAt =>
    some ⟨userId, goalId, direction, amountKobo, occurredAt, row.note, row.fingerprint⟩
  | _, _, _ => none

/-- `parseTransactionImport(dto.csv).filter((row) => selected.has(row.rowNumber))` -/
def selectedRows (rows : List ParsedImportRow) (rowNumbers : List ℕ) : List ParsedImportRow :=
  rows.filter fun row ↦ row.rowNumber ∈ rowNumbers

/-- The checks of `confirmImport`, with the rows that pass. -/
def importBatch (platform : Platform) (goals : List Goal) (userId : ℕ)
    (dto : ConfirmTransactionImportDto) : Except ImportFailure (List ParsedImportRow) :=
  match ensureGoalBelongsToUser goals dto.goalId userId with
  | .error e => .error e
  | .ok () =>
    match parseTransactionImport platform dto.csv with
    | .error e => .error e
    | .ok parsed =>
      let rows := selectedRows parsed dto.rowNumbers
      let found := rows.map ParsedImportRow.rowNumber
      let missingRows := dto.rowNumbers.filter (· ∉ found)
      let invalidRows := rows.filter ParsedImportRow.isInvalid
      if missingRows ≠ [] ∨ invalidRows ≠ [] then
        .error (.badSelection "Only valid rows from the current preview can be imported"
          (missingRows ++ invalidRows.map ParsedImportRow.rowNumber))
      else .ok rows

/-- The answer of a confirmation, with the store after it. -/
def confirmImport (platform : Platform) (storable : Storable) (store : ImportStore) (userId : ℕ)
    (dto : ConfirmTransactionImportDto) :
    Except ImportFailure TransactionImportResult × ImportStore :=
  match importBatch platform store.goals userId dto with
  | .error e => (.error e, store)
  | .ok rows =>
    match createMany storable store.transactions (rows.filterMap (importData userId dto.goalId)) with
    | .error e => (.error e, store)
    | .ok added =>
      (.ok ⟨added.length, rows.length - added.length⟩,
        { store with transactions := store.transactions ++ added })

end Stead
