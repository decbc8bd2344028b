import Stead.Tenants.Transactions

/-!
# Isolation of the import and the other operations

An import inserts transactions of its user: what counts as a duplicate has the user in its key
(`transactionKey`), and the goal they are linked to is checked. Preferences and consents have the
user as their key.

## Checks and insertion

The checks of a confirmation look at the goals of the user (`importBatch_only`), and the insertion
at the keys of the stored transactions: a key of another user is none of the user's, so what is
skipped is the same on the user's rows alone (`transactionKey_userId`). The rows that are inserted
have the user of the request and the goal that was checked (`importRows_owned`), and identifiers
that the request has drawn and nobody else has (`importedRows_nodup`).
-/

namespace Stead

open Collections GoalsService

variable {runtime : Runtime} {r : TenantRequest} {s : TenantStore}

/-! ### Imports -/

theorem goalBelongsToUser_eq {u goalId : ℕ} :
    goalBelongsToUser (importStore s).goals goalId u = s.hasGoal u goalId := by
  rw [goalBelongsToUser, importStore, List.any_map]
  rfl

theorem ensureGoal_eq {u : ℕ} {goalId : Option ℕ} :
    ensureGoalBelongsToUser (importStore s).goals goalId u =
      if goalId.all (s.hasGoal u) then .ok () else .error (.notFound "Goal not found") := by
  unfold ensureGoalBelongsToUser
  have hgoal : (goalBelongsToUser (importStore s).goals · u) = s.hasGoal u :=
    funext fun _ ↦ goalBelongsToUser_eq
  rw [hgoal]

theorem ensureGoal_only {goalId : Option ℕ} :
    ensureGoalBelongsToUser (importStore (s.only r.userId)).goals goalId r.userId =
      ensureGoalBelongsToUser (importStore s).goals goalId r.userId := by
  rw [ensureGoal_eq, ensureGoal_eq, hasGoal_only]

/-- The checks of a confirmation look at no rows of others. -/
theorem importBatch_only {platform : Platform} (dto : ConfirmTransactionImportDto) :
    importBatch platform (importStore (s.only r.userId)).goals r.userId dto =
      importBatch platform (importStore s).goals r.userId dto := by
  rw [importBatch, ensureGoal_only]
  rfl

/-- The goal of a batch is checked. -/
theorem hasGoal_of_importBatch {platform : Platform} {u : ℕ} {dto : ConfirmTransactionImportDto}
    {rows : List ParsedImportRow}
    (h : importBatch platform (importStore s).goals u dto = .ok rows) :
    dto.goalId.all (s.hasGoal u) = true := by
  rw [importBatch, ensureGoal_eq] at h
  by_contra hnot
  rw [if_neg hnot] at h
  cases h

/-- The rows of a batch are the user's, with the goal of the import. -/
theorem importData_owned {u : ℕ} {goalId : Option ℕ} {row : ParsedImportRow}
    {tx : StoredTransaction} (h : importData u goalId row = some tx) :
    tx.userId = u ∧ tx.goalId = goalId := by
  unfold importData at h
  split at h
  · cases h
    exact ⟨rfl, rfl⟩
  · cases h

theorem mem_importedRows {now : ℤ} {uuid : ℕ → ℕ} {data : List StoredTransaction}
    {tx : TransactionRow} (h : tx ∈ importedRows now uuid data) :
    tx.toStoredTransaction ∈ data ∧ ∃ k, tx.id = uuid k := by
  obtain ⟨k, hk, rfl⟩ := List.mem_mapIdx.1 h
  exact ⟨List.getElem_mem hk, k, rfl⟩

theorem importedRows_nodup {now : ℤ} {uuid : ℕ → ℕ} (hinj : Function.Injective uuid)
    (data : List StoredTransaction) : ((importedRows now uuid data).map fun tx ↦ tx.id).Nodup := by
  have hids : (importedRows now uuid data).map (fun tx ↦ tx.id) =
      (List.range data.length).map uuid := by
    refine List.ext_getElem (by simp [importedRows]) fun k hk hk' ↦ ?_
    simp [importedRows]
  rw [hids]
  exact List.nodup_range.map hinj

theorem transactionKey_userId (t t' : TransactionRow) (k : ℕ × ℕ)
    (ht : transactionKey t = some k) (ht' : transactionKey t' = some k) : t.userId = t'.userId := by
  obtain ⟨fingerprint, -, hk⟩ := Option.map_eq_some_iff.1 ht
  obtain ⟨fingerprint', -, hk'⟩ := Option.map_eq_some_iff.1 ht'
  exact congrArg Prod.fst (hk.trans hk'.symm)

/-- The rows an import writes, if its batch is accepted. -/
def importRowsOf (r : TenantRequest) (dto : ConfirmTransactionImportDto)
    (rows : List ParsedImportRow) : List TransactionRow :=
  importedRows r.now r.uuid (rows.filterMap (importData r.userId dto.goalId))

/-- The rows are the user's, and linked to the goal that was checked. -/
theorem importRows_owned {dto : ConfirmTransactionImportDto} {rows : List ParsedImportRow}
    {tx : TransactionRow} (h : tx ∈ importRowsOf r dto rows) :
    tx.userId = r.userId ∧ tx.goalId = dto.goalId := by
  obtain ⟨row, -, hrow⟩ := List.mem_filterMap.1 (mem_importedRows h).1
  exact importData_owned hrow

/-- A confirmation, when the identifiers are new. -/
theorem confirmImport_eq (hfresh : Unused r s) (dto : ConfirmTransactionImportDto) :
    confirmImportOf runtime r.userId s r.now r.uuid dto =
      match importBatch runtime.platform (importStore s).goals r.userId dto with
      | .error e => .error (.importing e)
      | .ok rows =>
        if (importRowsOf r dto rows).all fun tx ↦
            runtime.storable.note tx.note && runtime.storable.occurredAt tx.occurredAt then
          let added := inserted transactionKey s.transactions (importRowsOf r dto rows)
          if added = [] then .ok (.imported ⟨0, rows.length⟩, s)
          else s.written r.userId (.imported ⟨added.length, rows.length - added.length⟩)
            { s with transactions := s.transactions ++ added }
        else .error (.importing .database) := by
  unfold confirmImportOf
  cases importBatch runtime.platform (importStore s).goals r.userId dto with
  | error e => rfl
  | ok rows =>
    have hfree : (importRowsOf r dto rows).filter (fun tx ↦ s.transactions.all fun t ↦ t.id ≠ tx.id) =
        importRowsOf r dto rows := by
      refine List.filter_eq_self.2 fun tx htx ↦ List.all_eq_true.2 fun t ht ↦ decide_eq_true ?_
      obtain ⟨k, hk⟩ := (mem_importedRows htx).2
      rw [hk]
      exact hfresh.transactions t ht k
    simp only
    rw [← importRowsOf, hfree]

/-- **A confirmation** is isolated. -/
theorem isolated_confirmImport (hs : TenantsSound s) (hfresh : Unused r s)
    (dto : ConfirmTransactionImportDto) :
    Isolated r s fun s ↦ confirmImportOf runtime r.userId s r.now r.uuid dto := by
  have hadded : ∀ {transactions rows},
      ∀ tx ∈ inserted transactionKey transactions (importRowsOf r dto rows),
        tx ∈ importRowsOf r dto rows :=
    fun tx htx ↦ (inserted_sublist transactionKey).subset htx
  refine ⟨?_, fun response s' h ↦ ?_⟩
  · have hfresh' : Unused r (s.only r.userId) :=
      ⟨hfresh.distinct, fun g hg ↦ hfresh.goals g ((mem_ownedBy _).1 hg).1,
        fun tx htx ↦ hfresh.transactions tx ((mem_ownedBy _).1 htx).1⟩
    rw [confirmImport_eq hfresh, confirmImport_eq hfresh', importBatch_only]
    cases importBatch runtime.platform (importStore s).goals r.userId dto with
    | error e => rfl
    | ok rows =>
      -- Whether a row of the user is a duplicate is decided by the user's rows.
      have hinserted : inserted transactionKey (s.only r.userId).transactions
          (importRowsOf r dto rows) = inserted transactionKey s.transactions (importRowsOf r dto rows) :=
        inserted_ownedBy (fun tx : TransactionRow ↦ tx.userId) transactionKey_userId
          (fun tx htx ↦ (mem_ownedBy _).trans (and_iff_left htx))
          fun tx htx ↦ (importRows_owned htx).1
      simp only [hinserted]
      split
      · split
        · rfl
        · rw [← written_only, only_append fun tx htx ↦ (importRows_owned (hadded tx htx)).1]
      · rfl
  · rw [confirmImport_eq hfresh] at h
    cases hbatch : importBatch runtime.platform (importStore s).goals r.userId dto with
    | error e =>
      rw [hbatch] at h
      cases h
    | ok rows =>
      simp only [hbatch] at h
      split at h
      · split at h
        · cases h
          exact .refl hs
        · rw [written_ok h]
          refine effect_append hs hfresh (fun tx htx ↦ (importRows_owned (hadded tx htx)).1)
            ((importedRows_nodup hfresh.distinct _).sublist ((inserted_sublist _).map _))
            (fun tx htx ↦ (mem_importedRows (hadded tx htx)).2) fun tx htx g hg ↦ ?_
          rw [(importRows_owned (hadded tx htx)).2] at hg
          exact exists_of_checked (hasGoal_of_importBatch hbatch) hg
      · cases h

end Stead
