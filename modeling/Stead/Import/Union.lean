import Stead.Import.Service

/-!
# Imports are set unions

What a confirmation does to the stored fingerprints is the union with those of the selected rows
(`Confirmed`, `confirmed_of_ok`). Whether it succeeds depends on the call and the goals only
(`Importable`), so a sequence of confirmations (`confirmAll`) can be permuted, and a call that is
repeated adds nothing.

## Keys

A row is stored under a user and a fingerprint, and the keys of a call are those of its rows
(`ImportCall.keys`). The rows of one file have distinct keys, so that a confirmation adds as many
transactions as there are keys that were not stored; `Collections.KeyedRows` has what an insertion
that skips taken keys does to a table, and the counts follow from its lemmas.

## Sequences

`AllConfirmed` is `Confirmed` for a sequence, with the counts added up. Since unions commute, the
transactions that are stored after two orders of the same calls have the same keys, and the counts
of what is imported agree in sum though not call by call.

The rows must be sound (`ParsedImportRow.Sound`): a fingerprint is there just if there is no error.
Every row of a parse is.
-/

namespace Stead

open Collections

variable {platform : Platform} {storable : Storable} {store store' : ImportStore} {userId : ℕ}
  {goalId : Option ℕ} {rows : List ParsedImportRow} {row : ParsedImportRow}

/-! ### Rows of a parse -/

/-- A row as the parser makes it: with a fingerprint exactly when it has no error, and then with
all its cells. -/
structure ParsedImportRow.Sound (row : ParsedImportRow) : Prop where
  fingerprint : row.fingerprint.isSome = true ↔ row.error = none
  occurredAt : row.error = none → row.occurredAt.isSome = true
  direction : row.error = none → row.direction.isSome = true
  amountKobo : row.error = none → row.amountKobo.isSome = true

/-- A row that is read is sound if its fingerprint is that of a record without errors. -/
theorem ImportCells.sound_row {cells : ImportCells} {rowNumber : ℕ} {fingerprint : Option ℕ}
    (h : fingerprint.isSome = true ↔ cells.errors = []) :
    (cells.row rowNumber fingerprint).Sound := by
  have herror : (cells.row rowNumber fingerprint).error = none ↔ cells.errors = [] := by
    unfold row
    dsimp only
    split <;> simp_all
  have hcells : cells.errors = [] →
      cells.occurredAt ≠ none ∧ cells.direction ≠ none ∧ cells.amountKobo ≠ none := by
    intro hnone
    refine ⟨fun hc ↦ ?_, fun hc ↦ ?_, fun hc ↦ ?_⟩ <;> simp [errors, hc] at hnone
  exact ⟨h.trans herror.symm, fun he ↦ Option.isSome_iff_ne_none.2 (hcells (herror.1 he)).1,
    fun he ↦ Option.isSome_iff_ne_none.2 (hcells (herror.1 he)).2.1,
    fun he ↦ Option.isSome_iff_ne_none.2 (hcells (herror.1 he)).2.2⟩

/-- **A parse** has sound rows. -/
theorem sound_of_parse {csv : Text} (h : parseTransactionImport platform csv = .ok rows) :
    ∀ row ∈ rows, row.Sound := by
  obtain ⟨_, _, _, -, -, -, rfl⟩ := parseTransactionImport_ok h
  intro row hrow
  obtain ⟨cells, -, k, fingerprint, rfl, hsome⟩ := mem_parseRows hrow
  exact ImportCells.sound_row hsome

/-- The numbers of the rows are distinct. -/
theorem nodup_rowNumbers {csv : Text} (h : parseTransactionImport platform csv = .ok rows) :
    (rows.map ParsedImportRow.rowNumber).Nodup := by
  obtain ⟨_, _, _, -, -, -, rfl⟩ := parseTransactionImport_ok h
  rw [rowNumbers_parseRows]
  exact List.nodup_range' ..

theorem nodup_fingerprints_of_parse {csv : Text} (hsha : Function.Injective platform.sha256)
    (h : parseTransactionImport platform csv = .ok rows) : (fingerprintsOf rows).Nodup := by
  obtain ⟨_, _, _, -, -, -, rfl⟩ := parseTransactionImport_ok h
  exact nodup_fingerprints hsha

namespace ParsedImportRow

/-- The rows a confirmation refuses are those the preview shows with an error. -/
theorem Sound.isInvalid_iff (h : row.Sound) : row.isInvalid = false ↔ row.error = none := by
  simp only [isInvalid, Bool.or_eq_false_iff, Option.isSome_eq_false_iff, Option.isNone_iff_eq_none]
  constructor
  · exact fun hvalid ↦ hvalid.1.1.1.1
  · intro herror
    have hsome : ∀ {α : Type} {o : Option α}, o.isSome = true → o.isNone = false := by
      intro α o ho
      rw [← Option.not_isSome, ho]
      rfl
    exact ⟨⟨⟨⟨herror, hsome (h.fingerprint.2 herror)⟩, hsome (h.occurredAt herror)⟩,
      hsome (h.direction herror)⟩, hsome (h.amountKobo herror)⟩

/-- A row without errors as a transaction. -/
theorem Sound.importData (userId : ℕ) (goalId : Option ℕ) (h : row.Sound) (herror : row.error = none) :
    ∃ tx, importData userId goalId row = some tx ∧ tx.userId = userId ∧
      tx.importFingerprint = row.fingerprint ∧ tx.note = row.note ∧
      row.occurredAt = some tx.occurredAt := by
  obtain ⟨occurredAt, hoccurredAt⟩ := Option.isSome_iff_exists.1 (h.occurredAt herror)
  obtain ⟨direction, hdirection⟩ := Option.isSome_iff_exists.1 (h.direction herror)
  obtain ⟨amountKobo, hamountKobo⟩ := Option.isSome_iff_exists.1 (h.amountKobo herror)
  refine ⟨⟨userId, goalId, direction, amountKobo, occurredAt, row.note, row.fingerprint⟩, ?_, rfl,
    rfl, rfl, hoccurredAt⟩
  rw [Stead.importData, hoccurredAt, hdirection, hamountKobo]

end ParsedImportRow

/-! ### The batch of a confirmation -/

/-- The keys under which rows are stored. -/
def rowKeys (userId : ℕ) (rows : List ParsedImportRow) : List (ℕ × ℕ) :=
  (fingerprintsOf rows).map fun fingerprint ↦ (userId, fingerprint)

/-- The transactions of rows without errors: one for each, under its fingerprint. -/
theorem importData_rows (userId : ℕ) (goalId : Option ℕ) (h : ∀ row ∈ rows, row.Sound ∧ row.error = none) :
    (rows.filterMap (importData userId goalId)).length = rows.length ∧
      keysOf importKey (rows.filterMap (importData userId goalId)) = rowKeys userId rows := by
  induction rows with
  | nil => exact ⟨rfl, rfl⟩
  | cons row rows ih =>
    obtain ⟨hsound, herror⟩ := h row (List.mem_cons_self ..)
    obtain ⟨hlength, hkeys⟩ := ih fun row hrow ↦ h row (List.mem_cons_of_mem _ hrow)
    obtain ⟨tx, hdata, huser, hfingerprint, -, -⟩ :=
      hsound.importData userId goalId herror
    obtain ⟨fingerprint, hsome⟩ := Option.isSome_iff_exists.1 (hsound.fingerprint.2 herror)
    have hkey : importKey tx = some (userId, fingerprint) := by
      rw [importKey, hfingerprint, hsome, huser]
      rfl
    rw [List.filterMap_cons_some hdata]
    refine ⟨by rw [List.length_cons, hlength, List.length_cons], ?_⟩
    have hfingerprints : fingerprintsOf (row :: rows) = fingerprint :: fingerprintsOf rows :=
      List.filterMap_cons_some hsome
    rw [keysOf_cons, hkey, hkeys, rowKeys, rowKeys, hfingerprints]
    rfl

/-- What is stored of rows is the user's, and one of the rows. -/
theorem mem_importData {tx : StoredTransaction}
    (h : tx ∈ rows.filterMap (importData userId goalId)) :
    tx.userId = userId ∧ ∃ row ∈ rows, tx.importFingerprint = row.fingerprint := by
  obtain ⟨row, hrow, hdata⟩ := List.mem_filterMap.1 h
  unfold importData at hdata
  split at hdata
  · cases hdata
    exact ⟨rfl, row, hrow, rfl⟩
  · cases hdata

/-- A call of `confirmImport`. -/
structure ImportCall where
  userId : ℕ
  dto : ConfirmTransactionImportDto

/-- The rows of the text that a call selects. -/
def ImportCall.selected (platform : Platform) (call : ImportCall) : List ParsedImportRow :=
  match parseTransactionImport platform call.dto.csv with
  | .ok rows => selectedRows rows call.dto.rowNumbers
  | .error _ => []

/-- The keys of the selected rows. -/
def ImportCall.keys (platform : Platform) (call : ImportCall) : List (ℕ × ℕ) :=
  rowKeys call.userId (call.selected platform)

/-- The transactions a call inserts. -/
def ImportCall.data (platform : Platform) (call : ImportCall) : List StoredTransaction :=
  (call.selected platform).filterMap (importData call.userId call.dto.goalId)

section Calls

variable {call : ImportCall} {calls calls' : List ImportCall} {goals : List Goal}
  {result : TransactionImportResult} {results : List TransactionImportResult}

/-- The transactions a call adds. -/
def ImportCall.added (platform : Platform) (store : ImportStore) (call : ImportCall) :
    List StoredTransaction :=
  inserted importKey store.transactions (call.data platform)

/-- A call the service and the database accept, whatever transactions are stored. -/
def Importable (platform : Platform) (storable : Storable) (goals : List Goal)
    (call : ImportCall) : Prop :=
  importBatch platform goals call.userId call.dto = .ok (call.selected platform) ∧
    ∀ tx ∈ call.data platform, storable.note tx.note = true ∧
      storable.occurredAt tx.occurredAt = true

/-- What the checks of a confirmation establish. -/
theorem importBatch_ok (h : importBatch platform goals call.userId call.dto = .ok rows) :
    rows = call.selected platform ∧ ∀ row ∈ rows, row.Sound ∧ row.error = none := by
  unfold importBatch at h
  split at h
  · cases h
  · split at h
    · cases h
    · next parsed hparse =>
      dsimp only at h
      split at h
      · cases h
      · next hchecks =>
        cases h
        refine ⟨by rw [ImportCall.selected, hparse], fun row hrow ↦ ?_⟩
        have hsound := sound_of_parse hparse row (List.mem_filter.1 hrow).1
        refine ⟨hsound, hsound.isInvalid_iff.1 ?_⟩
        by_contra hinvalid
        refine hchecks (.inr (List.ne_nil_of_mem (a := row) (List.mem_filter.2 ⟨hrow, ?_⟩)))
        rwa [Bool.not_eq_false] at hinvalid

/-- **A confirmation** is its checks and one insertion. -/
theorem confirmImport_of_importable (h : Importable platform storable store.goals call) :
    confirmImport platform storable store call.userId call.dto =
      (.ok ⟨(call.added platform store).length,
          (call.selected platform).length - (call.added platform store).length⟩,
        ⟨store.goals, store.transactions ++ call.added platform store⟩) := by
  have hall : ((call.data platform).all fun tx ↦
      storable.note tx.note && storable.occurredAt tx.occurredAt) = true :=
    List.all_eq_true.2 fun tx htx ↦ Bool.and_eq_true_iff.2 (h.2 tx htx)
  unfold confirmImport
  rw [h.1]
  dsimp only
  rw [← ImportCall.data, createMany, if_pos hall]
  rfl

/-- What was confirmed can be imported. -/
theorem importable_of_ok
    (h : confirmImport platform storable store call.userId call.dto = (.ok result, store')) :
    Importable platform storable store.goals call := by
  unfold confirmImport at h
  split at h
  · cases h
  · next rows hbatch =>
    obtain ⟨rfl, hrows⟩ := importBatch_ok hbatch
    refine ⟨hbatch, fun tx htx ↦ ?_⟩
    rw [← ImportCall.data, createMany] at h
    by_contra hnot
    rw [if_neg] at h
    · cases h
    · exact fun hall ↦ hnot (Bool.and_eq_true_iff.1 (List.all_eq_true.1 hall tx htx))

/-- The number of a user's transactions. -/
def transactionCount (store : ImportStore) (userId : ℕ) : ℕ :=
  store.transactions.countP fun tx ↦ tx.userId = userId

/-- What a successful confirmation does. -/
structure Confirmed (platform : Platform) (call : ImportCall) (store : ImportStore)
    (result : TransactionImportResult) (store' : ImportStore) : Prop where
  goals : store'.goals = store.goals
  keys : ∀ k, k ∈ keysOf importKey store'.transactions ↔
    k ∈ keysOf importKey store.transactions ∨ k ∈ call.keys platform
  count : ∀ userId, transactionCount store' userId = transactionCount store userId +
    if call.userId = userId then result.importedCount else 0
  total : result.importedCount + result.duplicateCount = (call.selected platform).length

/-- **A confirmation** adds its keys and counts what is new. -/
theorem confirmed_of_ok
    (h : confirmImport platform storable store call.userId call.dto = (.ok result, store')) :
    Confirmed platform call store result store' := by
  have himportable := importable_of_ok h
  rw [confirmImport_of_importable himportable] at h
  cases h
  obtain ⟨hlength, hkeys⟩ := importData_rows call.userId call.dto.goalId
    (importBatch_ok himportable.1).2
  have hsublist : (call.added platform store).Sublist (call.data platform) :=
    inserted_sublist importKey
  refine ⟨rfl, fun k ↦ ?_, fun userId ↦ ?_, ?_⟩
  · rw [ImportCall.added, mem_keysOf_insert, ImportCall.data, hkeys]
    rfl
  · rw [transactionCount, List.countP_append]
    congr 1
    split
    · next huser =>
      refine List.countP_eq_length.2 fun tx htx ↦ ?_
      rw [(mem_importData (hsublist.mem htx)).1, huser]
      exact decide_eq_true rfl
    · next huser =>
      refine List.countP_eq_zero.2 fun tx htx hdecide ↦ huser ?_
      rw [← (mem_importData (hsublist.mem htx)).1]
      exact of_decide_eq_true hdecide
  · have hle := hsublist.length_le
    rw [ImportCall.data, hlength] at hle
    exact Nat.add_sub_cancel' hle

/-- A call whose rows are all stored adds nothing. -/
theorem confirmImport_repeated (h : Importable platform storable store.goals call)
    (hstored : ∀ k ∈ call.keys platform, k ∈ keysOf importKey store.transactions) :
    confirmImport platform storable store call.userId call.dto =
      (.ok ⟨0, (call.selected platform).length⟩, store) := by
  have hrows := (importBatch_ok h.1).2
  obtain ⟨-, hkeys⟩ := importData_rows call.userId call.dto.goalId hrows
  have hnothing : call.added platform store = [] := by
    refine inserted_eq_nil importKey fun tx htx ↦ ?_
    obtain ⟨-, row, hrow, hfingerprint⟩ := mem_importData htx
    obtain ⟨hsound, herror⟩ := hrows row hrow
    obtain ⟨fingerprint, hsome⟩ := Option.isSome_iff_exists.1 (hsound.fingerprint.2 herror)
    have hkey : importKey tx = some (tx.userId, fingerprint) := by
      rw [importKey, hfingerprint, hsome]
      rfl
    refine ⟨_, hstored _ ?_, hkey⟩
    rw [ImportCall.keys, ← hkeys]
    exact (mem_keysOf importKey).2 ⟨tx, htx, hkey⟩
  rw [confirmImport_of_importable h, hnothing, List.append_nil]
  rfl

/-! ### Sequences of confirmations -/

/-- Confirmations one after another, if all succeed, with their answers. -/
def confirmAll (platform : Platform) (storable : Storable) (store : ImportStore) :
    List ImportCall → Option (ImportStore × List TransactionImportResult)
  | [] => some (store, [])
  | call :: calls =>
    match confirmImport platform storable store call.userId call.dto with
    | (.ok result, store') =>
      (confirmAll platform storable store' calls).map fun after ↦ (after.1, result :: after.2)
    | (.error _, _) => none

/-- One confirmation after another. -/
theorem confirmAll_cons_eq_some
    (h : confirmAll platform storable store (call :: calls) = some (store', results)) :
    ∃ result after results', confirmImport platform storable store call.userId call.dto =
        (.ok result, after) ∧
      confirmAll platform storable after calls = some (store', results') ∧
      results = result :: results' := by
  unfold confirmAll at h
  split at h
  · next result after hconfirm =>
    obtain ⟨⟨last, results'⟩, hrest, heq⟩ := Option.map_eq_some_iff.1 h
    cases heq
    exact ⟨result, after, results', hconfirm, hrest, rfl⟩
  · cases h

/-- The imported count of a user over a sequence of calls. -/
def importedCount (userId : ℕ) (calls : List ImportCall) (results : List TransactionImportResult) :
    ℕ :=
  ((calls.zip results).map fun p ↦ if p.1.userId = userId then p.2.importedCount else 0).sum

/-- What a sequence of confirmations does. -/
structure AllConfirmed (platform : Platform) (storable : Storable) (calls : List ImportCall)
    (store : ImportStore) (results : List TransactionImportResult) (store' : ImportStore) :
    Prop where
  goals : store'.goals = store.goals
  keys : ∀ k, k ∈ keysOf importKey store'.transactions ↔
    k ∈ keysOf importKey store.transactions ∨ ∃ call ∈ calls, k ∈ call.keys platform
  count : ∀ userId, transactionCount store' userId =
    transactionCount store userId + importedCount userId calls results
  totals : List.Forall₂ (fun call result ↦
    result.importedCount + result.duplicateCount = (call.selected platform).length) calls results
  importable : ∀ call ∈ calls, Importable platform storable store.goals call

/-- **A sequence of confirmations** adds the keys of all of them. -/
theorem allConfirmed_of_confirmAll
    (h : confirmAll platform storable store calls = some (store', results)) :
    AllConfirmed platform storable calls store results store' := by
  induction calls generalizing store results with
  | nil =>
    cases h
    exact ⟨rfl, fun k ↦ by simp, fun userId ↦ rfl, .nil, fun call hcall ↦ by cases hcall⟩
  | cons call calls ih =>
    obtain ⟨result, after, results', hconfirm, hrest, rfl⟩ := confirmAll_cons_eq_some h
    have hfirst := confirmed_of_ok hconfirm
    have hall := ih hrest
    refine ⟨hall.goals.trans hfirst.goals, fun k ↦ ?_, fun userId ↦ ?_, .cons hfirst.total hall.totals,
      fun call' hcall' ↦ ?_⟩
    · rw [hall.keys, hfirst.keys, or_assoc]
      simp
    · rw [hall.count, hfirst.count, Nat.add_assoc]
      rfl
    · rcases List.mem_cons.1 hcall' with rfl | hcall'
      · exact importable_of_ok hconfirm
      · exact hfirst.goals ▸ hall.importable call' hcall'

/-- Calls that are accepted are accepted one after another. -/
theorem confirmAll_of_importable (h : ∀ call ∈ calls, Importable platform storable store.goals call) :
    ∃ store' results, confirmAll platform storable store calls = some (store', results) := by
  induction calls generalizing store with
  | nil => exact ⟨store, [], rfl⟩
  | cons call calls ih =>
    have hconfirm := confirmImport_of_importable (h call (List.mem_cons_self ..))
    obtain ⟨store', results, hrest⟩ : ∃ store' results, confirmAll platform storable
        ⟨store.goals, store.transactions ++ call.added platform store⟩ calls =
          some (store', results) :=
      ih fun call' hcall' ↦ h call' (List.mem_cons_of_mem _ hcall')
    refine ⟨store', ⟨(call.added platform store).length, (call.selected platform).length -
      (call.added platform store).length⟩ :: results, ?_⟩
    rw [confirmAll, hconfirm]
    simp only [hrest, Option.map_some]

theorem mem_storedFingerprints {transactions : List StoredTransaction} {fingerprint : ℕ} :
    fingerprint ∈ storedFingerprints transactions userId ↔
      (userId, fingerprint) ∈ keysOf importKey transactions := by
  rw [storedFingerprints, List.mem_filterMap, mem_keysOf]
  constructor
  · rintro ⟨tx, htx, hfingerprint⟩
    obtain ⟨hmem, huser⟩ := List.mem_filter.1 htx
    refine ⟨tx, hmem, ?_⟩
    rw [importKey, hfingerprint, of_decide_eq_true huser]
    rfl
  · rintro ⟨tx, hmem, hkey⟩
    obtain ⟨fingerprint', hfingerprint, heq⟩ := Option.map_eq_some_iff.1 hkey
    cases heq
    exact ⟨tx, List.mem_filter.2 ⟨hmem, decide_eq_true rfl⟩, hfingerprint⟩

theorem mem_rowKeys {fingerprint : ℕ} {userId' : ℕ} :
    (userId, fingerprint) ∈ rowKeys userId' rows ↔
      userId' = userId ∧ fingerprint ∈ fingerprintsOf rows := by
  rw [rowKeys, List.mem_map]
  constructor
  · rintro ⟨fingerprint', hmem, heq⟩
    cases heq
    exact ⟨rfl, hmem⟩
  · rintro ⟨rfl, hmem⟩
    exact ⟨fingerprint, hmem, rfl⟩

/-- The stored fingerprints of a user, as a union. -/
theorem AllConfirmed.mem_stored (h : AllConfirmed platform storable calls store results store')
    (fingerprint : ℕ) : fingerprint ∈ storedFingerprints store'.transactions userId ↔
      fingerprint ∈ storedFingerprints store.transactions userId ∨
        ∃ call ∈ calls, call.userId = userId ∧
          fingerprint ∈ fingerprintsOf (call.selected platform) := by
  rw [mem_storedFingerprints, mem_storedFingerprints, h.keys]
  simp only [ImportCall.keys, mem_rowKeys]

/-- Distinct row numbers select as many rows. -/
theorem length_selected (h : Importable platform storable goals call)
    (hnodup : call.dto.rowNumbers.Nodup) :
    (call.selected platform).length = call.dto.rowNumbers.length := by
  have hbatch := h.1
  unfold importBatch at hbatch
  split at hbatch
  · cases hbatch
  · split at hbatch
    · cases hbatch
    · next parsed hparse =>
      dsimp only at hbatch
      split at hbatch
      · cases hbatch
      · next hchecks =>
        have hselected : call.selected platform = selectedRows parsed call.dto.rowNumbers := by
          rw [ImportCall.selected, hparse]
        have hnumbers : ((call.selected platform).map ParsedImportRow.rowNumber).Nodup := by
          rw [hselected]
          exact (nodup_rowNumbers hparse).sublist (List.filter_sublist.map _)
        have hperm : ((call.selected platform).map ParsedImportRow.rowNumber).Perm
            call.dto.rowNumbers := by
          refine (List.perm_ext_iff_of_nodup hnumbers hnodup).2 fun n ↦ ⟨fun hn ↦ ?_, fun hn ↦ ?_⟩
          · rw [hselected] at hn
            obtain ⟨row, hrow, rfl⟩ := List.mem_map.1 hn
            exact of_decide_eq_true (List.mem_filter.1 hrow).2
          · by_contra hmissing
            rw [hselected] at hmissing
            exact hchecks (.inl (List.ne_nil_of_mem (a := n)
              (List.mem_filter.2 ⟨hn, decide_eq_true hmissing⟩)))
        rw [← hperm.length_eq, List.length_map]

end Calls

/-! ### The contents of a parse -/

/-- The fingerprints of two parses with the same contents. -/
theorem fingerprints_of_contents {csv csv' : Text} {rows' : List ParsedImportRow}
    (h : parseTransactionImport platform csv = .ok rows)
    (h' : parseTransactionImport platform csv' = .ok rows')
    (hperm : (rows.filterMap (ParsedImportRow.normalized platform)).Perm
      (rows'.filterMap (ParsedImportRow.normalized platform))) (fingerprint : ℕ) :
    fingerprint ∈ fingerprintsOf rows ↔ fingerprint ∈ fingerprintsOf rows' := by
  obtain ⟨_, _, _, -, -, -, rfl⟩ := parseTransactionImport_ok h
  obtain ⟨_, _, _, -, -, -, rfl⟩ := parseTransactionImport_ok h'
  rw [normalized_parseRows, normalized_parseRows] at hperm
  exact fingerprints_perm hperm 2 fingerprint

/-! ### The union -/

/-- **Imports are set unions.** -/
theorem import_set_union (hsha : Function.Injective platform.sha256) :
    (∀ calls store store' results,
      confirmAll platform storable store calls = some (store', results) →
      (∀ userId fingerprint, fingerprint ∈ storedFingerprints store'.transactions userId ↔
        fingerprint ∈ storedFingerprints store.transactions userId ∨
          ∃ call ∈ calls, call.userId = userId ∧
            fingerprint ∈ fingerprintsOf (call.selected platform)) ∧
      (∀ userId, transactionCount store' userId =
        transactionCount store userId + importedCount userId calls results) ∧
      List.Forall₂ (fun call result ↦
        result.importedCount + result.duplicateCount = (call.selected platform).length ∧
          (call.dto.rowNumbers.Nodup →
            (call.selected platform).length = call.dto.rowNumbers.length)) calls results ∧
      (∀ call ∈ calls, confirmImport platform storable store' call.userId call.dto =
        (.ok ⟨0, (call.selected platform).length⟩, store')) ∧
      ∀ calls', calls'.Perm calls → ∃ store'' results',
        confirmAll platform storable store calls' = some (store'', results') ∧
          ∀ userId fingerprint, fingerprint ∈ storedFingerprints store''.transactions userId ↔
            fingerprint ∈ storedFingerprints store'.transactions userId) ∧
    (∀ csv rows, parseTransactionImport platform csv = .ok rows →
      (∀ row ∈ rows, row.fingerprint.isSome = true ↔ row.error = none) ∧
        (fingerprintsOf rows).Nodup) ∧
    ∀ csv csv' rows rows', parseTransactionImport platform csv = .ok rows →
      parseTransactionImport platform csv' = .ok rows' →
      (rows.filterMap (ParsedImportRow.normalized platform)).Perm
        (rows'.filterMap (ParsedImportRow.normalized platform)) →
      ∀ fingerprint, fingerprint ∈ fingerprintsOf rows ↔ fingerprint ∈ fingerprintsOf rows' := by
  refine ⟨fun calls store store' results h ↦ ?_, fun csv rows hparse ↦
    ⟨fun row hrow ↦ (sound_of_parse hparse row hrow).fingerprint,
      nodup_fingerprints_of_parse hsha hparse⟩,
    fun csv csv' rows rows' hparse hparse' hperm ↦ fingerprints_of_contents hparse hparse' hperm⟩
  -- The calls ran one after the other; what follows is read off the whole sequence.
  have hall := allConfirmed_of_confirmAll h
  refine ⟨fun userId ↦ hall.mem_stored, hall.count, ?_, fun call hcall ↦ ?_, fun calls' hperm ↦ ?_⟩
  · have hselected : ∀ call ∈ calls, call.dto.rowNumbers.Nodup →
        (call.selected platform).length = call.dto.rowNumbers.length :=
      fun call hcall ↦ length_selected (hall.importable call hcall)
    exact ((List.forall₂_and_left calls results).2 ⟨hselected, hall.totals⟩).imp
      fun call result h ↦ ⟨h.2, h.1⟩
  -- All the keys of the call are stored by now, so a repetition inserts nothing.
  · refine confirmImport_repeated (hall.goals ▸ hall.importable call hcall) fun k hk ↦ ?_
    exact (hall.keys k).2 (.inr ⟨call, hcall, hk⟩)
  -- What can be imported does not depend on the transactions, hence not on the order.
  · have himportable : ∀ call ∈ calls', Importable platform storable store.goals call :=
      fun call hcall ↦ hall.importable call (hperm.mem_iff.1 hcall)
    obtain ⟨store'', results', h'⟩ := confirmAll_of_importable himportable
    refine ⟨store'', results', h', fun userId fingerprint ↦ ?_⟩
    rw [(allConfirmed_of_confirmAll h').mem_stored, hall.mem_stored]
    simp only [hperm.mem_iff]

namespace Demo

/-- A database that stores every row. -/
def everyRow : Storable where
  note _ := true
  occurredAt _ := true

/-- Both transfers are imported. -/
def importTransfers : ImportCall := ⟨0, twoTransfers, [2, 3], none⟩

end Demo

open Demo

/-- Two equal transfers are two rows, and importing them again adds none. -/
theorem import_set_union_two_transfers : ∃ store' results,
    confirmAll asciiPlatform everyRow ⟨[], []⟩ [importTransfers] = some (store', results) ∧
      transactionCount store' 0 = importedCount 0 [importTransfers] results ∧
      confirmImport asciiPlatform everyRow store' 0 importTransfers.dto = (.ok ⟨0, 2⟩, store') := by
  have hsome : (confirmAll asciiPlatform everyRow ⟨[], []⟩ [importTransfers]).isSome = true := by
    decide +kernel
  obtain ⟨⟨store', results⟩, hconfirm⟩ := Option.isSome_iff_exists.1 hsome
  obtain ⟨-, hcount, -, hrepeat, -⟩ :=
    (@import_set_union asciiPlatform everyRow textNumber_injective).1 _ _ _ _ hconfirm
  refine ⟨store', results, hconfirm, (hcount 0).trans (Nat.zero_add _), ?_⟩
  have hselected : (importTransfers.selected asciiPlatform).length = 2 := by decide +kernel
  have hagain := hrepeat importTransfers (List.mem_singleton_self _)
  rwa [hselected] at hagain

end Stead
