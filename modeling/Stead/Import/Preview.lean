import Stead.Import.Union

/-!
# Preview and confirmation agree

A confirmation is accepted when the rows it selects are shown without an error and can be stored
(`importable_of_rows`), and only then (`row_of_importable`). The rows shown as ready are new, so
confirming them adds each of them.

## What a preview shows

The rows are those of the parse, with a mark on what is stored already for the user, and each is in
one of three classes: invalid, duplicate or ready (`countP_classes`). The three counts are those of
the classes.

## What a confirmation does with it

It parses the text again, so it selects from the same rows, and refuses the whole call if a selected
row is invalid, missing or cannot be stored: then nothing is written (`confirmImport_rejected`). A
duplicate that is selected is accepted and adds nothing, since the unique index skips it.

Between the two calls other imports may have been confirmed. The results are about a store and a
preview of that store; `Import.Union` is about what other confirmations add.
-/

namespace Stead

open Collections

variable {platform : Platform} {storable : Storable} {store : ImportStore} {goals : List Goal}
  {userId : ℕ} {goalId : Option ℕ} {csv : Text} {rowNumbers : List ℕ}
  {rows : List ParsedImportRow} {preview : TransactionImportPreview}

/-- A row that can be imported and is not stored yet. -/
def ParsedImportRow.isReady (row : ParsedImportRow) : Bool := row.error.isNone && !row.duplicate

/-- The rows the preview selects by default. -/
def TransactionImportPreview.readyNumbers (preview : TransactionImportPreview) : List ℕ :=
  (preview.rows.filter ParsedImportRow.isReady).map ParsedImportRow.rowNumber

/-- The database can store the notes and dates of the rows without errors. -/
def StoresRows (storable : Storable) (rows : List ParsedImportRow) : Prop :=
  ∀ row ∈ rows, row.error = none →
    storable.note row.note = true ∧ row.occurredAt.all storable.occurredAt = true

/-! ### The preview -/

/-- The fingerprints the preview finds in the store. -/
def storedAmong (store : ImportStore) (userId : ℕ) (rows : List ParsedImportRow) : List ℕ :=
  (storedFingerprints store.transactions userId).filter (· ∈ fingerprintsOf rows)

/-- **A preview** that is answered is of a goal of the user and of rows that were parsed. -/
theorem previewImport_eq_ok
    (h : previewImport platform store userId ⟨csv, goalId⟩ = .ok preview) :
    goalId.all (goalBelongsToUser store.goals · userId) = true ∧
      ∃ rows, parseTransactionImport platform csv = .ok rows ∧
        preview.rows = rows.map (markDuplicate (storedAmong store userId rows)) ∧
        preview.readyCount = preview.rows.countP ParsedImportRow.isReady ∧
        preview.duplicateCount = preview.rows.countP (fun row ↦ row.duplicate) ∧
        preview.invalidCount = preview.rows.countP fun row ↦ row.error.isSome := by
  unfold previewImport ensureGoalBelongsToUser at h
  split at h
  · cases h
  · next hgoal =>
    split at hgoal
    · next hbelongs =>
      cases hparse : parseTransactionImport platform csv with
      | error e => rw [hparse] at h; cases h
      | ok rows =>
        rw [hparse] at h
        cases h
        exact ⟨hbelongs, rows, rfl, rfl, rfl, rfl, rfl⟩
    · cases hgoal

/-- A text that is parsed has a preview. -/
theorem previewImport_of_parse (store : ImportStore)
    (hgoal : goalId.all (goalBelongsToUser store.goals · userId) = true)
    (hparse : parseTransactionImport platform csv = .ok rows) :
    ∃ preview, previewImport platform store userId ⟨csv, goalId⟩ = .ok preview ∧
      preview.rows = rows.map (markDuplicate (storedAmong store userId rows)) := by
  unfold previewImport ensureGoalBelongsToUser
  rw [if_pos hgoal, hparse]
  exact ⟨_, rfl, rfl⟩

/-- A row is marked when its fingerprint is stored. -/
theorem markDuplicate_iff (store : ImportStore) (userId : ℕ) {row : ParsedImportRow} (hrow : row ∈ rows) :
    (markDuplicate (storedAmong store userId rows) row).duplicate = true ↔
      ∃ fingerprint ∈ storedFingerprints store.transactions userId,
        row.fingerprint = some fingerprint := by
  simp only [markDuplicate, Option.any_eq_true, decide_eq_true_eq, storedAmong, List.mem_filter]
  constructor
  · rintro ⟨fingerprint, hsome, hstored, -⟩
    exact ⟨fingerprint, hstored, hsome⟩
  · rintro ⟨fingerprint, hstored, hsome⟩
    exact ⟨fingerprint, hsome, hstored, List.mem_filterMap.2 ⟨row, hrow, hsome⟩⟩

/-- Rows whose duplicates have no error fall into three classes. -/
theorem countP_classes (h : ∀ row ∈ rows, row.duplicate = true → row.error = none) :
    rows.countP ParsedImportRow.isReady + rows.countP (fun row ↦ row.duplicate) +
      rows.countP (fun row ↦ row.error.isSome) = rows.length := by
  induction rows with
  | nil => rfl
  | cons row rows ih =>
    have htail := ih fun row hrow ↦ h row (List.mem_cons_of_mem _ hrow)
    have hhead := h row (List.mem_cons_self ..)
    rw [List.countP_cons, List.countP_cons, List.countP_cons, List.length_cons, ← htail,
      ParsedImportRow.isReady]
    cases hduplicate : row.duplicate with
    | true =>
      rw [hhead hduplicate]
      simp only [Option.isNone_none, Option.isSome_none, Bool.not_true, Bool.and_false,
        Bool.false_eq_true, if_true, if_false]
      omega
    | false =>
      cases row.error <;> simp only [Option.isNone_none, Option.isSome_none, Option.isNone_some,
        Option.isSome_some, Bool.not_false, Bool.and_true, Bool.false_eq_true, if_true, if_false] <;>
        omega

/-! ### Which selections are accepted -/

section Selection

variable {call : ImportCall}

/-- A row is determined by its number. -/
theorem row_unique (hparse : parseTransactionImport platform csv = .ok rows)
    {row row' : ParsedImportRow} (hrow : row ∈ rows) (hrow' : row' ∈ rows)
    (hnumber : row.rowNumber = row'.rowNumber) : row = row' :=
  List.inj_on_of_nodup_map (nodup_rowNumbers hparse) hrow hrow' hnumber

/-- Rows without errors that can be stored are accepted. -/
theorem importable_of_rows (hparse : parseTransactionImport platform call.dto.csv = .ok rows)
    (hgoal : call.dto.goalId.all (goalBelongsToUser goals · call.userId) = true)
    (hrows : ∀ n ∈ call.dto.rowNumbers, ∃ row ∈ rows, row.rowNumber = n ∧ row.error = none)
    (hstores : StoresRows storable rows) : Importable platform storable goals call := by
  have hselected : call.selected platform = selectedRows rows call.dto.rowNumbers := by
    rw [ImportCall.selected, hparse]
  have hvalid : ∀ row ∈ call.selected platform, row ∈ rows ∧ row.Sound ∧ row.error = none := by
    intro row hrow
    rw [hselected] at hrow
    obtain ⟨hmem, hnumber⟩ := List.mem_filter.1 hrow
    obtain ⟨row', hmem', hsame, herror⟩ := hrows _ (of_decide_eq_true hnumber)
    obtain rfl := row_unique hparse hmem' hmem hsame
    exact ⟨hmem, sound_of_parse hparse _ hmem, herror⟩
  constructor
  · have hmissing : call.dto.rowNumbers.filter (· ∉ (selectedRows rows call.dto.rowNumbers).map
        ParsedImportRow.rowNumber) = [] := by
      refine List.filter_eq_nil_iff.2 fun n hn hmissing ↦ of_decide_eq_true hmissing ?_
      obtain ⟨row, hrow, rfl, -⟩ := hrows n hn
      exact List.mem_map_of_mem (List.mem_filter.2 ⟨hrow, decide_eq_true hn⟩)
    have hinvalid : (selectedRows rows call.dto.rowNumbers).filter ParsedImportRow.isInvalid = [] := by
      refine List.filter_eq_nil_iff.2 fun row hrow hbad ↦ ?_
      obtain ⟨-, hsound, herror⟩ := hvalid row (hselected ▸ hrow)
      rw [hsound.isInvalid_iff.2 herror] at hbad
      cases hbad
    unfold importBatch ensureGoalBelongsToUser
    rw [if_pos hgoal]
    dsimp only
    rw [hparse]
    dsimp only
    rw [hmissing, hinvalid, if_neg (by simp), hselected]
  · intro tx htx
    obtain ⟨row, hrow, hdata⟩ := List.mem_filterMap.1 htx
    obtain ⟨hmem, hsound, herror⟩ := hvalid row hrow
    obtain ⟨tx', hdata', -, -, hnote, hdate⟩ := hsound.importData call.userId
      call.dto.goalId herror
    obtain rfl := Option.some.inj (hdata'.symm.trans hdata)
    obtain ⟨hstoresNote, hstoresDate⟩ := hstores row hmem herror
    rw [hdate] at hstoresDate
    exact ⟨hnote ▸ hstoresNote, hstoresDate⟩

/-- What is accepted are rows without errors. -/
theorem row_of_importable (hparse : parseTransactionImport platform call.dto.csv = .ok rows)
    (h : Importable platform storable goals call) :
    ∀ n ∈ call.dto.rowNumbers, ∃ row ∈ rows, row.rowNumber = n ∧ row.error = none := by
  intro n hn
  have hvalid := (importBatch_ok h.1).2
  have hbatch := h.1
  have hselected : call.selected platform = selectedRows rows call.dto.rowNumbers := by
    rw [ImportCall.selected, hparse]
  unfold importBatch at hbatch
  split at hbatch
  · cases hbatch
  · rw [hparse] at hbatch
    dsimp only at hbatch
    split at hbatch
    · cases hbatch
    · next hchecks =>
      have hfound : n ∈ (selectedRows rows call.dto.rowNumbers).map ParsedImportRow.rowNumber := by
        by_contra hmissing
        exact hchecks (.inl (List.ne_nil_of_mem (a := n)
          (List.mem_filter.2 ⟨hn, decide_eq_true hmissing⟩)))
      obtain ⟨row, hrow, rfl⟩ := List.mem_map.1 hfound
      exact ⟨row, (List.mem_filter.1 hrow).1, rfl, (hvalid row (hselected ▸ hrow)).2⟩

/-- A confirmation that is not accepted writes nothing. -/
theorem confirmImport_rejected (h : ¬ Importable platform storable store.goals call) :
    ∃ e, confirmImport platform storable store call.userId call.dto = (.error e, store) := by
  cases hconfirm : confirmImport platform storable store call.userId call.dto with
  | mk answer store' =>
    cases answer with
    | ok result => exact absurd (importable_of_ok hconfirm) h
    | error e =>
      unfold confirmImport at hconfirm
      split at hconfirm
      · cases hconfirm
        exact ⟨e, rfl⟩
      · split at hconfirm
        · cases hconfirm
          exact ⟨e, rfl⟩
        · cases hconfirm

end Selection

/-! ### The rows shown as ready -/

/-- Selecting the numbers of some rows selects these rows. -/
theorem selectedRows_filter (hparse : parseTransactionImport platform csv = .ok rows)
    (p : ParsedImportRow → Bool) :
    selectedRows rows ((rows.filter p).map ParsedImportRow.rowNumber) = rows.filter p := by
  refine List.filter_congr fun row hrow ↦ ?_
  rw [Bool.eq_iff_iff, decide_eq_true_eq, List.mem_map]
  constructor
  · rintro ⟨row', hrow', hnumber⟩
    obtain ⟨hmem', hp⟩ := List.mem_filter.1 hrow'
    rwa [row_unique hparse hmem' hrow hnumber] at hp
  · exact fun hp ↦ ⟨row, List.mem_filter.2 ⟨hrow, hp⟩, rfl⟩

/-- **Confirming the ready rows** adds each of them, and they are duplicates from then on. -/
theorem confirm_ready (hsha : Function.Injective platform.sha256)
    (hpreview : previewImport platform store userId ⟨csv, goalId⟩ = .ok preview)
    (hstores : StoresRows storable preview.rows) :
    ∃ store' preview', confirmImport platform storable store userId
        ⟨csv, preview.readyNumbers, goalId⟩ = (.ok ⟨preview.readyCount, 0⟩, store') ∧
      previewImport platform store' userId ⟨csv, goalId⟩ = .ok preview' ∧
      ∀ row ∈ preview'.rows, row.rowNumber ∈ preview.readyNumbers → row.duplicate = true := by
  obtain ⟨hgoal, rows, hparse, hrows, hready, -, -⟩ := previewImport_eq_ok hpreview
  set stored := storedAmong store userId rows with hstored
  set p : ParsedImportRow → Bool := fun row ↦ (markDuplicate stored row).isReady with hp
  set call : ImportCall := ⟨userId, csv, preview.readyNumbers, goalId⟩ with hcall
  -- what the preview shows as ready are rows of the parse
  have hnumbers : preview.readyNumbers = (rows.filter p).map ParsedImportRow.rowNumber := by
    rw [TransactionImportPreview.readyNumbers, hrows, List.filter_map, List.map_map]
    rfl
  have hselected : call.selected platform = rows.filter p := by
    rw [ImportCall.selected, hcall, hparse, hnumbers]
    exact selectedRows_filter hparse p
  have hvalid : ∀ row ∈ rows.filter p, row ∈ rows ∧ row.error = none ∧
      (markDuplicate stored row).duplicate = false := by
    intro row hrow
    obtain ⟨hmem, hisReady⟩ := List.mem_filter.1 hrow
    obtain ⟨herror, hnew⟩ := Bool.and_eq_true_iff.1 hisReady
    exact ⟨hmem, Option.isNone_iff_eq_none.1 herror, (Bool.not_eq_true' _).mp hnew⟩
  have himportable : Importable platform storable store.goals call := by
    refine importable_of_rows hparse hgoal (fun n hn ↦ ?_) fun row hrow ↦ ?_
    · rw [hcall, hnumbers] at hn
      obtain ⟨row, hrow, rfl⟩ := List.mem_map.1 hn
      exact ⟨row, (hvalid row hrow).1, rfl, (hvalid row hrow).2.1⟩
    · exact hstores (markDuplicate stored row) (hrows ▸ List.mem_map_of_mem hrow)
  -- their keys are new and distinct, so all are added
  obtain ⟨hlength, hkeys⟩ := importData_rows userId goalId
    (importBatch_ok himportable.1).2
  have hadded : call.added platform store = call.data platform := by
    refine inserted_eq_self importKey (fun k hk hmem ↦ ?_) ?_
    · rw [ImportCall.data, hkeys] at hk
      obtain ⟨fingerprint, hfingerprint, rfl⟩ := List.mem_map.1 hk
      rw [hselected] at hfingerprint
      obtain ⟨row, hrow, hsome⟩ := List.mem_filterMap.1 hfingerprint
      obtain ⟨hmem', -, hnew⟩ := hvalid row hrow
      have hduplicate := (markDuplicate_iff store userId hmem').2
        ⟨fingerprint, mem_storedFingerprints.2 hmem, hsome⟩
      rw [← hstored, hnew] at hduplicate
      cases hduplicate
    · rw [ImportCall.data, hkeys, rowKeys, hselected]
      refine List.Nodup.map (fun _ _ h ↦ (Prod.mk.inj h).2) ?_
      exact (nodup_fingerprints_of_parse hsha hparse).sublist (List.filter_sublist.filterMap _)
  have hcount : (call.added platform store).length = preview.readyCount := by
    rw [hadded, ImportCall.data, hlength, hselected, hready, hrows, List.countP_map,
      List.countP_eq_length_filter]
    rfl
  have hselectedCount : (call.selected platform).length = preview.readyCount := by
    rw [← hcount, hadded, ImportCall.data, hlength]
  have hconfirm := confirmImport_of_importable himportable
  rw [hcount, hselectedCount, Nat.sub_self] at hconfirm
  have hkeysAfter := (confirmed_of_ok hconfirm).keys
  obtain ⟨preview', hpreview', hrows'⟩ := previewImport_of_parse
    ⟨store.goals, store.transactions ++ call.added platform store⟩ hgoal hparse
  refine ⟨_, preview', hconfirm, hpreview', fun row' hrow' hnumber ↦ ?_⟩
  rw [hrows'] at hrow'
  obtain ⟨row, hmem, rfl⟩ := List.mem_map.1 hrow'
  rw [hnumbers] at hnumber
  obtain ⟨readyRow, hreadyRow, hsame⟩ := List.mem_map.1 hnumber
  obtain ⟨hmem', herror, -⟩ := hvalid readyRow hreadyRow
  obtain rfl := row_unique hparse hmem' hmem hsame
  obtain ⟨fingerprint, hsome⟩ := Option.isSome_iff_exists.1
    ((sound_of_parse hparse _ hmem).fingerprint.2 herror)
  refine (markDuplicate_iff _ userId hmem).2 ⟨fingerprint, mem_storedFingerprints.2 ?_, hsome⟩
  refine (hkeysAfter _).2 (.inr (mem_rowKeys.2 ⟨rfl, ?_⟩))
  rw [hselected]
  exact List.mem_filterMap.2 ⟨readyRow, hreadyRow, hsome⟩

/-- **Preview and confirmation agree**: the three counts sum up; what is shown without an error can
be confirmed; the ready rows are imported, each once; nothing else can be confirmed. -/
theorem preview_confirm_agree (hsha : Function.Injective platform.sha256)
    (hpreview : previewImport platform store userId ⟨csv, goalId⟩ = .ok preview) :
    preview.readyCount + preview.duplicateCount + preview.invalidCount = preview.rows.length ∧
    (∀ rowNumbers, (∀ n ∈ rowNumbers, ∃ row ∈ preview.rows, row.rowNumber = n ∧ row.error = none) →
      ∀ storable store', goalId.all (goalBelongsToUser store'.goals · userId) = true →
        StoresRows storable preview.rows →
        ∃ result store'', confirmImport platform storable store' userId ⟨csv, rowNumbers, goalId⟩ =
          (.ok result, store'')) ∧
    (∀ storable, StoresRows storable preview.rows →
      ∃ store' preview', confirmImport platform storable store userId
          ⟨csv, preview.readyNumbers, goalId⟩ = (.ok ⟨preview.readyCount, 0⟩, store') ∧
        previewImport platform store' userId ⟨csv, goalId⟩ = .ok preview' ∧
        ∀ row ∈ preview'.rows, row.rowNumber ∈ preview.readyNumbers → row.duplicate = true) ∧
    ∀ rowNumbers,
      (∃ n ∈ rowNumbers, ∀ row ∈ preview.rows, row.rowNumber = n → row.error ≠ none) →
      ∀ storable store' goalId', ∃ e, confirmImport platform storable store' userId
        ⟨csv, rowNumbers, goalId'⟩ = (.error e, store') := by
  obtain ⟨hgoal, rows, hparse, hrows, hready, hduplicate, hinvalid⟩ := previewImport_eq_ok hpreview
  -- Marking the duplicates changes neither numbers nor errors.
  have hshown : ∀ n, (∃ row ∈ preview.rows, row.rowNumber = n ∧ row.error = none) ↔
      ∃ row ∈ rows, row.rowNumber = n ∧ row.error = none := by
    intro n
    rw [hrows]
    constructor
    · rintro ⟨_, hmarked, hnumber, herror⟩
      obtain ⟨row, hrow, rfl⟩ := List.mem_map.1 hmarked
      exact ⟨row, hrow, hnumber, herror⟩
    · rintro ⟨row, hrow, hnumber, herror⟩
      exact ⟨_, List.mem_map_of_mem hrow, hnumber, herror⟩
  refine ⟨?_, fun rowNumbers hselection storable store' hgoal' hstores ↦ ?_,
    fun storable hstores ↦ confirm_ready hsha hpreview hstores,
    fun rowNumbers ⟨n, hn, hbad⟩ storable store' goalId' ↦ ?_⟩
  -- The three counts are of disjoint kinds of rows, since a duplicate has no error.
  · rw [hready, hduplicate, hinvalid]
    refine countP_classes fun row hrow hmarked ↦ ?_
    rw [hrows] at hrow
    obtain ⟨row, hmem, rfl⟩ := List.mem_map.1 hrow
    obtain ⟨fingerprint, -, hsome⟩ := (markDuplicate_iff store userId hmem).1 hmarked
    exact (sound_of_parse hparse row hmem).fingerprint.1 (by rw [hsome]; rfl)
  · have hstores' : StoresRows storable rows := fun row hrow ↦
      hstores (markDuplicate _ row) (hrows ▸ List.mem_map_of_mem hrow)
    have himportable : Importable platform storable store'.goals
        ⟨userId, csv, rowNumbers, goalId⟩ :=
      importable_of_rows hparse hgoal' (fun n hn ↦ (hshown n).1 (hselection n hn)) hstores'
    exact ⟨_, _, confirmImport_of_importable himportable⟩
  -- A row with an error that is selected is one that nothing importable has.
  · have hrefused : ¬ Importable platform storable store'.goals
        ⟨userId, csv, rowNumbers, goalId'⟩ := by
      intro h
      obtain ⟨row, hrow, hnumber, herror⟩ := (hshown n).2 (row_of_importable hparse h n hn)
      exact hbad row hrow hnumber herror
    exact confirmImport_rejected hrefused

open Demo

/-- A statement of two transfers, previewed before anything is stored. -/
theorem preview_confirm_two_transfers : ∃ preview,
    previewImport asciiPlatform ⟨[], []⟩ 0 ⟨twoTransfers, none⟩ = .ok preview ∧
      preview.readyCount + preview.duplicateCount + preview.invalidCount = preview.rows.length ∧
      ∃ store', confirmImport asciiPlatform everyRow ⟨[], []⟩ 0
        ⟨twoTransfers, preview.readyNumbers, none⟩ = (.ok ⟨2, 0⟩, store') := by
  obtain ⟨preview, hpreview⟩ := exists_of_isOk (by decide +kernel :
    (previewImport asciiPlatform ⟨[], []⟩ 0 ⟨twoTransfers, none⟩).isOk = true)
  have hready : ((previewImport asciiPlatform ⟨[], []⟩ 0 ⟨twoTransfers, none⟩).toOption.map
      TransactionImportPreview.readyCount) = some 2 := by decide +kernel
  rw [hpreview] at hready
  have hcount : preview.readyCount = 2 := Option.some.inj hready
  obtain ⟨hsum, -, hconfirm, -⟩ := preview_confirm_agree textNumber_injective hpreview
  obtain ⟨store', -, hstored, -⟩ := hconfirm everyRow fun row _ _ ↦ ⟨rfl, by
    cases row.occurredAt <;> rfl⟩
  rw [hcount] at hstored
  exact ⟨preview, hpreview, hsum, store', hstored⟩

end Stead
