import Stead.Tenants.Imports

/-!
# Isolation of the other operations

The operations of the tenants that change no goal and no transaction, and what another tenant's
requests can make of them: nothing.

## Lookups

A lookup reads the rows of its user and leaves the store alone. It is isolated as soon as it answers
the same from the rows of its user as from the whole store (`isolated_answer`), and for the lists
that is what the lemmas on the tables give: a selection by the user, in the order of the store, does
not see the rows of others. The preview of an import has the fingerprints of the stored rows in
between (`storedFingerprints_only`), the stability has the active goal and the transactions.

## Preferences and consents

Both have the user as their key, so a write is an upsert of the one row of the user
(`effect_preferences`, `upsertConsents_owned`), and the records of consents are appended with the
user in them (`consentRecords_owned`). What is appended depends on the row that was there, which is
the same row in both stores.

Every operation together is `isolated_run`.
-/

namespace Stead

open Collections GoalsService

variable {runtime : Runtime} {r : TenantRequest} {s : TenantStore}

/-! ### Lookups -/

/-- A lookup is isolated when it answers from the rows of its user and changes nothing. -/
theorem isolated_lookup (hs : TenantsSound s) {run : TenantStore → TenantOutcome}
    (halone : run (s.only r.userId) = TenantOutcome.only r.userId (run s))
    (hsame : ∀ response s', run s = .ok (response, s') → s' = s) : Isolated r s run := by
  refine ⟨halone, fun response s' h ↦ ?_⟩
  rw [hsame response s' h]
  exact .refl hs

/-- An answer with the tables as they are. -/
theorem isolated_answer (hs : TenantsSound s) {answer : TenantStore → TenantResponse}
    (h : answer (s.only r.userId) = answer s) : Isolated r s fun s ↦ .ok (answer s, s) :=
  isolated_lookup hs (congrArg (fun response ↦ Except.ok (response, s.only r.userId)) h)
    fun _ _ hok ↦ by
      cases hok
      rfl

theorem isolated_listGoals (hs : TenantsSound s) :
    Isolated r s fun s ↦ .ok (listGoals r.userId s, s) := by
  refine isolated_answer hs ?_
  rw [listGoals, listGoals]
  congr 2
  exact filter_ownedBy _ fun g hg ↦ of_decide_eq_true hg

/-- The active goal of the user: no goal of another user is in the way. -/
theorem isolated_getActiveGoal (hs : TenantsSound s) :
    Isolated r s fun s ↦ getActiveGoal r.userId s := by
  have hactive : getActive (s.only r.userId).goals r.userId = getActive s.goals r.userId := by
    have hfilter : (goalsOf r.userId s.goals).filter
        (fun g ↦ g.userId = r.userId && g.isActive && g.status = .active) =
          s.goals.filter fun g ↦ g.userId = r.userId && g.isActive && g.status = .active := by
      refine filter_ownedBy _ fun g hg ↦ ?_
      simp only [Bool.and_eq_true, decide_eq_true_eq] at hg
      exact hg.1.1
    rw [getActive, TenantStore.only, hfilter]
    rfl
  refine isolated_lookup hs ?_ fun response s' h ↦ ?_
  · rw [getActiveGoal, getActiveGoal, hactive]
    cases getActive s.goals r.userId <;> rfl
  · unfold getActiveGoal at h
    split at h <;> cases h
    rfl

/-- The transactions of the user, between the dates that are given. -/
theorem isolated_listTransactions (hs : TenantsSound s) (after before : Option Text) :
    Isolated r s fun s ↦ listTransactions runtime r.userId s after before := by
  refine isolated_lookup hs ?_ fun response s' h ↦ ?_
  · unfold listTransactions
    cases dateBound runtime after with
    | error e => rfl
    | ok gte =>
      cases dateBound runtime before with
      | error e => rfl
      | ok lte =>
        have hfilter : (s.only r.userId).transactions.filter (fun tx ↦ tx.userId = r.userId &&
            (gte.all fun t ↦ decide (t ≤ runtime.time tx.occurredAt)) &&
              lte.all fun t ↦ decide (runtime.time tx.occurredAt ≤ t)) =
            s.transactions.filter fun tx ↦ tx.userId = r.userId &&
              (gte.all fun t ↦ decide (t ≤ runtime.time tx.occurredAt)) &&
                lte.all fun t ↦ decide (runtime.time tx.occurredAt ≤ t) := by
          refine filter_ownedBy _ fun tx htx ↦ ?_
          simp only [Bool.and_eq_true, decide_eq_true_eq] at htx
          exact htx.1.1
        simp only [hfilter]
        rfl
  · unfold listTransactions at h
    split at h <;> cases h
    rfl

/-- The fingerprints an import is compared with are those of the user's rows. -/
theorem storedFingerprints_only :
    storedFingerprints (importStore (s.only r.userId)).transactions r.userId =
      storedFingerprints (importStore s).transactions r.userId := by
  rw [storedFingerprints, storedFingerprints, importStore, importStore, List.filter_map,
    List.filter_map]
  congr 2
  exact filter_ownedBy _ fun tx htx ↦ of_decide_eq_true htx

/-- **The preview of an import** marks duplicates among the user's own rows. -/
theorem isolated_previewImport (hs : TenantsSound s) (dto : PreviewTransactionImportDto) :
    Isolated r s fun s ↦ previewImportOf runtime r.userId s dto := by
  have hpreview : previewImport runtime.platform (importStore (s.only r.userId)) r.userId dto =
      previewImport runtime.platform (importStore s) r.userId dto := by
    rw [previewImport, ensureGoal_only, storedFingerprints_only]
    rfl
  refine isolated_lookup hs ?_ fun response s' h ↦ ?_
  · rw [previewImportOf, previewImportOf, hpreview]
    cases previewImport runtime.platform (importStore s) r.userId dto <;> rfl
  · unfold previewImportOf at h
    split at h <;> cases h
    rfl

/-- **The stability** is computed from the user's goal and transactions. -/
theorem isolated_getStability (hs : TenantsSound s) :
    Isolated r s fun s ↦ .ok (stabilityOfUser r.userId s r.now, s) := by
  refine isolated_answer hs ?_
  have hactive : activeGoal (dashboardGoals (s.only r.userId).goals) r.userId =
      activeGoal (dashboardGoals s.goals) r.userId := by
    rw [activeGoal, activeGoal, dashboardGoals, dashboardGoals, List.filter_map, List.filter_map]
    congr 2
    refine filter_ownedBy _ fun g hg ↦ ?_
    rw [Function.comp_apply, Bool.and_eq_true, decide_eq_true_iff] at hg
    exact hg.1
  have hledger : transactionsOf ((s.only r.userId).transactions.map TransactionRow.ledgerEntry)
      r.userId = transactionsOf (s.transactions.map TransactionRow.ledgerEntry) r.userId := by
    rw [transactionsOf, transactionsOf, List.filter_map, List.filter_map]
    congr 1
    exact filter_ownedBy _ fun tx htx ↦ of_decide_eq_true htx
  rw [stabilityOfUser, getStability, hactive, hledger]
  rfl

/-! ### Preferences -/

/-- Preferences and consents are written. -/
theorem effect_preferences (hs : TenantsSound s) {s' : TenantStore} (husers : s'.users = s.users)
    (hgoals : s'.goals = s.goals) (htransactions : s'.transactions = s.transactions)
    (hothers : ∀ b, b ≠ r.userId → s'.only b = s.only b) : Effect r s s' where
  users := husers
  others := hothers
  sound := by
    refine ⟨hgoals ▸ hs.goals, htransactions ▸ hs.ids, ?_⟩
    rw [TenantStore.Linked, hgoals, htransactions]
    exact hs.linked
  goalIds g hg := .inl ⟨g, hgoals ▸ hg, rfl⟩
  transactionIds tx htx := .inl ⟨tx, htransactions ▸ htx, rfl⟩

/-- The row of the user is found among the user's rows. -/
theorem find?_preferences : ((s.only r.userId).alertPreferences.find? fun row ↦
    row.userId = r.userId) = s.alertPreferences.find? fun row ↦ row.userId = r.userId :=
  find?_ownedBy _ fun _ hrow ↦ of_decide_eq_true hrow

/-- The preferences, or the defaults where there are none. -/
theorem isolated_getAlertPreferences (hs : TenantsSound s) :
    Isolated r s fun s ↦ .ok (getAlertPreferences r.userId s, s) := by
  refine isolated_answer hs ?_
  rw [getAlertPreferences, find?_preferences]
  rfl

/-- Rows of preferences are written. -/
theorem effect_alertPreferences (hs : TenantsSound s) {rows : List AlertPreferenceRow}
    (hothers : ∀ b, b ≠ r.userId → ownedBy (fun row : AlertPreferenceRow ↦ row.userId) b rows =
      ownedBy (fun row : AlertPreferenceRow ↦ row.userId) b s.alertPreferences) :
    Effect r s { s with alertPreferences := rows } := by
  refine effect_preferences hs rfl rfl rfl fun b hb ↦ ?_
  rw [TenantStore.only, TenantStore.only, hothers b hb]

/-- **Changing preferences** writes the row of the user. -/
theorem isolated_updateAlertPreferences (hs : TenantsSound s) (dto : UpdateAlertPreferencesDto) :
    Isolated r s fun s ↦ updateAlertPreferences runtime r.userId s r.now dto := by
  have huser : ∀ row : AlertPreferenceRow,
      (if row.userId = r.userId then applyPreferences r.now dto row else row).userId =
        row.userId := by
    intro row
    split <;> rfl
  have hnew : ∀ row ∈ [applyPreferences r.now dto { userId := r.userId, updatedAt := r.now }],
      row.userId = r.userId := by
    intro row hrow
    rw [List.mem_singleton.1 hrow]
    rfl
  refine ⟨?_, fun response s' h ↦ ?_⟩
  · simp only [updateAlertPreferences, find?_preferences]
    split
    · rfl
    · split
      · rfl
      · cases s.alertPreferences.find? fun row ↦ row.userId = r.userId with
        | some row =>
          refine congrArg Except.ok (Prod.ext rfl ?_)
          exact congrArg (fun rows ↦ { s.only r.userId with alertPreferences := rows })
            (ownedBy_map _ huser).symm
        | none =>
          simp only
          rw [← written_only]
          refine congrArg ((s.only r.userId).written r.userId _) ?_
          refine congrArg (fun rows ↦ { s.only r.userId with alertPreferences := rows }) ?_
          show ownedBy _ _ _ ++ _ = ownedBy _ _ (_ ++ _)
          rw [ownedBy_append, ownedBy_self _ hnew]
  · unfold updateAlertPreferences at h
    split at h
    · cases h
    · split at h
      · cases h
      · cases hfind : s.alertPreferences.find? fun row ↦ row.userId = r.userId with
        | some row =>
          simp only [hfind] at h
          cases h
          refine effect_alertPreferences hs fun b hb ↦ ?_
          exact ownedBy_map_other _ huser fun row _ hrow ↦ if_neg fun hid ↦ hb (hrow.symm.trans hid)
        | none =>
          simp only [hfind] at h
          rw [written_ok h]
          refine effect_alertPreferences hs fun b hb ↦ ?_
          rw [ownedBy_append, ownedBy_other _ hnew hb, List.append_nil]

/-! ### Consents -/

/-- The consents of the user are found among the user's rows. -/
theorem find?_consents : ((s.only r.userId).consentPreferences.find? fun row ↦
    row.userId = r.userId) = s.consentPreferences.find? fun row ↦ row.userId = r.userId :=
  find?_ownedBy _ fun _ hrow ↦ of_decide_eq_true hrow

/-- The account is the same from the rows of the user. -/
theorem getAccount_only : getAccount r.userId (s.only r.userId) =
    TenantOutcome.only r.userId (getAccount r.userId s) := by
  unfold getAccount
  rw [show (s.only r.userId).users = s.users from rfl]
  cases hfind : s.users.find? fun user ↦ user.id = r.userId with
  | none => rfl
  | some user =>
    have hid : user.id = r.userId := by simpa using List.find?_some hfind
    refine congrArg Except.ok (Prod.ext (congrArg TenantResponse.account ?_) rfl)
    show accountOf (s.only r.userId) user = accountOf s user
    rw [accountOf, hid, find?_consents, accountOf, hid]

theorem getAccount_ok {u : ℕ} {response : TenantResponse} {s' : TenantStore}
    (h : getAccount u s = .ok (response, s')) : s' = s := by
  unfold getAccount at h
  split at h <;> cases h
  rfl

/-- **The account** of the user. -/
theorem isolated_getAccount (hs : TenantsSound s) :
    Isolated r s fun s ↦ getAccount r.userId s :=
  isolated_lookup hs getAccount_only fun _ _ ↦ getAccount_ok

/-- The records of a change are the user's. -/
theorem consentRecords_owned {s : TenantStore} {u : ℕ} {now : ℤ} {dto : UpdateConsentsDto} :
    ∀ row ∈ consentRecordsOf u s now dto, row.userId = u := by
  have hrecord : ∀ category current given,
      ∀ row ∈ consentRecord u now category current given, row.userId = u := by
    intro category current given row hrow
    unfold consentRecord at hrow
    split at hrow
    · split at hrow
      · exact absurd hrow List.not_mem_nil
      · rw [List.mem_singleton.1 hrow]
    · exact absurd hrow List.not_mem_nil
  intro row hrow
  rcases List.mem_append.1 hrow with hrow | hrow
  · exact hrecord _ _ _ row hrow
  · exact hrecord _ _ _ row hrow

/-- What a change appends depends on the row of the user. -/
theorem consentRecordsOf_only {dto : UpdateConsentsDto} :
    consentRecordsOf r.userId (s.only r.userId) r.now dto =
      consentRecordsOf r.userId s r.now dto := by
  rw [consentRecordsOf, find?_consents]
  rfl

/-- The consents that are written have the user of the request. -/
theorem upsertConsents_owned {dto : UpdateConsentsDto} :
    upsertConsents r.userId (s.only r.userId) r.now dto =
        ownedBy (fun row : ConsentPreferenceRow ↦ row.userId) r.userId
          (upsertConsents r.userId s r.now dto) ∧
      ∀ b, b ≠ r.userId → ownedBy (fun row : ConsentPreferenceRow ↦ row.userId) b
        (upsertConsents r.userId s r.now dto) =
          ownedBy (fun row : ConsentPreferenceRow ↦ row.userId) b s.consentPreferences := by
  unfold upsertConsents
  rw [find?_consents]
  cases s.consentPreferences.find? fun row ↦ row.userId = r.userId with
  | some row =>
    refine ⟨(ownedBy_map _ fun row ↦ ?_).symm, fun b hb ↦ ownedBy_map_other _ (fun row ↦ ?_)
      fun row _ hrow ↦ if_neg fun hid ↦ hb (hrow.symm.trans hid)⟩
    · split <;> rfl
    · split <;> rfl
  | none =>
    have hnew : ∀ row ∈ [(⟨r.userId, dto.analyticsEnabled.getD false,
        dto.productResearchEnabled.getD false, r.now⟩ : ConsentPreferenceRow)],
        row.userId = r.userId := by
      intro row hrow
      rw [List.mem_singleton.1 hrow]
    refine ⟨?_, fun b hb ↦ ?_⟩
    · rw [ownedBy_append, ownedBy_self _ hnew]
      rfl
    · rw [ownedBy_append, ownedBy_other _ hnew hb, List.append_nil]

/-- **Changing consents** writes the row of the user and appends to the user's records. -/
theorem isolated_updateConsents (hs : TenantsSound s) (dto : UpdateConsentsDto) :
    Isolated r s fun s ↦ updateConsents r.userId s r.now dto := by
  refine ⟨?_, fun response s' h ↦ ?_⟩
  · simp only [updateConsents, consentRecordsOf_only]
    split
    · rfl
    · rw [show (s.only r.userId).hasUser r.userId = s.hasUser r.userId from rfl]
      split
      · rfl
      · split
        · exact getAccount_only
        · rw [← getAccount_only, upsertConsents_owned.1]
          refine congrArg (getAccount r.userId) ?_
          have hrecords : (s.only r.userId).consentRecords ++ consentRecordsOf r.userId s r.now dto =
              ownedBy (fun row : ConsentRecordRow ↦ row.userId) r.userId
                (s.consentRecords ++ consentRecordsOf r.userId s r.now dto) := by
            rw [ownedBy_append, ownedBy_self _ consentRecords_owned]
            rfl
          rw [hrecords]
          rfl
  · unfold updateConsents at h
    split at h
    · cases h
    · split at h
      · cases h
      · dsimp only at h
        split at h
        · rw [getAccount_ok h]
          exact .refl hs
        · rw [getAccount_ok h]
          refine effect_preferences hs rfl rfl rfl fun b hb ↦ ?_
          rw [TenantStore.only, TenantStore.only, upsertConsents_owned.2 b hb, ownedBy_append,
            ownedBy_other _ consentRecords_owned hb, List.append_nil]

/-! ### All operations -/

/-- **Every operation is isolated.** -/
theorem isolated_run (hs : TenantsSound s) (hunused : Unused r s) :
    Isolated r s (r.run runtime) := by
  obtain ⟨userId, op, now, uuid⟩ := r
  cases op with
  | createGoal dto => exact isolated_createGoal hs hunused dto
  | listGoals => exact isolated_listGoals hs
  | getActiveGoal => exact isolated_getActiveGoal hs
  | updateGoal goalId dto => exact isolated_updateGoal hs goalId dto
  | endGoal goalId status => exact isolated_endGoal hs goalId status
  | createTransaction dto => exact isolated_createTransaction hs hunused dto
  | listTransactions after before => exact isolated_listTransactions hs after before
  | previewImport dto => exact isolated_previewImport hs dto
  | confirmImport dto => exact isolated_confirmImport hs hunused dto
  | updateTransaction id dto => exact isolated_updateTransaction hs id dto
  | removeTransaction id => exact isolated_removeTransaction hs id
  | getStability => exact isolated_getStability hs
  | getAlertPreferences => exact isolated_getAlertPreferences hs
  | updateAlertPreferences dto => exact isolated_updateAlertPreferences hs dto
  | getAccount => exact isolated_getAccount hs
  | updateConsents dto => exact isolated_updateConsents hs dto

end Stead
