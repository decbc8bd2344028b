import Stead.Tenants.Isolation

/-!
# Isolation of the transactions

The operations on transactions and the import are isolated. Each looks a goal or a transaction up
with its owner before it writes by the identifier alone; as no two transactions have one identifier,
the row that is written is the row that was found.

## Three kinds of changes

A transaction is added, rewritten in place, or removed. For each there is a lemma on the selection
of the user's rows (`only_append`, `only_map`, `only_filter`), and the effect on the tables is that
the transactions of others are as they were and the links are still to goals of the owner
(`effect_transactions`). The goal of a link is looked up with its owner (`exists_of_hasGoal`), so
the answer of the lookup does not depend on the goals of others (`hasGoal_only`).
-/

namespace Stead

open Collections GoalsService

variable {runtime : Runtime} {r : TenantRequest} {s : TenantStore}

/-- The transactions of a user. -/
abbrev transactionsOwnedBy (userId : ℕ) (transactions : List TransactionRow) :
    List TransactionRow :=
  ownedBy (fun tx : TransactionRow ↦ tx.userId) userId transactions

/-- The user's goals are found among the user's rows. -/
theorem hasGoal_only : (s.only r.userId).hasGoal r.userId = s.hasGoal r.userId := by
  funext goalId
  refine any_ownedBy _ fun g hg ↦ ?_
  rw [Bool.and_eq_true, decide_eq_true_iff, decide_eq_true_iff] at hg
  exact hg.2

theorem exists_of_hasGoal {u goalId : ℕ} (h : s.hasGoal u goalId = true) :
    ∃ goal ∈ s.goals, goal.id = goalId ∧ goal.userId = u := by
  obtain ⟨goal, hgoal, h⟩ := List.any_eq_true.1 h
  rw [Bool.and_eq_true, decide_eq_true_iff, decide_eq_true_iff] at h
  exact ⟨goal, hgoal, h⟩

theorem exists_of_checked {u : ℕ} {link : Option ℕ} (h : link.all (s.hasGoal u) = true) {g : ℕ}
    (hg : link = some g) : ∃ goal ∈ s.goals, goal.id = g ∧ goal.userId = u := by
  rw [hg, Option.all_some] at h
  exact exists_of_hasGoal h

theorem ownedTransaction_userId {u id : ℕ} (tx : TransactionRow)
    (h : ownedTransaction u id tx = true) : tx.userId = u := by
  rw [ownedTransaction, Bool.and_eq_true, decide_eq_true_iff, decide_eq_true_iff] at h
  exact h.2

theorem find?_transaction {id : ℕ} :
    (s.only r.userId).transactions.find? (ownedTransaction r.userId id) =
      s.transactions.find? (ownedTransaction r.userId id) :=
  find?_ownedBy _ ownedTransaction_userId

/-- A transaction with the number of one of the user's is that one. -/
theorem transaction_unique (hs : TenantsSound s) {id : ℕ} {tx : TransactionRow}
    (hfind : s.transactions.find? (ownedTransaction r.userId id) = some tx) :
    ∀ t ∈ s.transactions, t.id = id → t = tx ∧ t.userId = r.userId := by
  intro t ht hid
  have htx := List.find?_some hfind
  have hmem := List.mem_of_find?_eq_some hfind
  have huser := ownedTransaction_userId tx htx
  rw [ownedTransaction, Bool.and_eq_true, decide_eq_true_iff, decide_eq_true_iff] at htx
  have heq : t = tx := List.inj_on_of_nodup_map hs.ids ht hmem (hid.trans htx.1.symm)
  exact ⟨heq, heq ▸ huser⟩

theorem only_transactions {u : ℕ} {transactions : List TransactionRow} :
    TenantStore.only u { s with transactions := transactions } =
      { s.only u with transactions := transactionsOwnedBy u transactions } := rfl

/-- The rows of a user, with new rows of the user. -/
theorem only_append {u : ℕ} {added : List TransactionRow} (h : ∀ tx ∈ added, tx.userId = u) :
    TenantStore.only u { s with transactions := s.transactions ++ added } =
      { s.only u with transactions := (s.only u).transactions ++ added } := by
  have hrows : transactionsOwnedBy u (s.transactions ++ added) =
      transactionsOwnedBy u s.transactions ++ added := by
    rw [transactionsOwnedBy, ownedBy_append, ownedBy_self _ h]
  exact only_transactions.trans (congrArg (fun rows ↦ { s.only u with transactions := rows }) hrows)

/-- The rows of a user, when rows are updated and keep their users. -/
theorem only_map {u : ℕ} {f : TransactionRow → TransactionRow} (h : ∀ tx, (f tx).userId = tx.userId) :
    TenantStore.only u { s with transactions := s.transactions.map f } =
      { s.only u with transactions := (s.only u).transactions.map f } :=
  only_transactions.trans
    (congrArg (fun rows ↦ { s.only u with transactions := rows }) (ownedBy_map _ h))

/-- The rows of a user, when rows are deleted. -/
theorem only_filter {u : ℕ} {p : TransactionRow → Bool} :
    TenantStore.only u { s with transactions := s.transactions.filter p } =
      { s.only u with transactions := (s.only u).transactions.filter p } :=
  only_transactions.trans
    (congrArg (fun rows ↦ { s.only u with transactions := rows }) (ownedBy_filter _))

/-- Transactions are written. -/
theorem effect_transactions (hs : TenantsSound s) {transactions : List TransactionRow}
    (hothers : ∀ b, b ≠ r.userId →
      transactionsOwnedBy b transactions = transactionsOwnedBy b s.transactions)
    (hids : (transactions.map fun tx ↦ tx.id).Nodup)
    (hlinked : ∀ tx ∈ transactions, ∀ g, tx.goalId = some g → ∃ goal ∈ s.goals, goal.id = g ∧
      goal.userId = tx.userId)
    (hdrawn : ∀ tx ∈ transactions,
      (∃ tx₀ ∈ s.transactions, tx₀.id = tx.id) ∨ ∃ k, tx.id = r.uuid k) :
    Effect r s { s with transactions := transactions } where
  users := rfl
  others b hb := by
    rw [only_transactions, hothers b hb]
    rfl
  sound := ⟨hs.goals, hids, hlinked⟩
  goalIds g hg := .inl ⟨g, hg, rfl⟩
  transactionIds := hdrawn

/-- New transactions of the user. -/
theorem effect_append (hs : TenantsSound s) (hfresh : Unused r s) {added : List TransactionRow}
    (huser : ∀ tx ∈ added, tx.userId = r.userId) (hids : (added.map fun tx ↦ tx.id).Nodup)
    (hdrawn : ∀ tx ∈ added, ∃ k, tx.id = r.uuid k)
    (hlinked : ∀ tx ∈ added, ∀ g, tx.goalId = some g → ∃ goal ∈ s.goals, goal.id = g ∧
      goal.userId = r.userId) :
    Effect r s { s with transactions := s.transactions ++ added } := by
  refine effect_transactions hs (fun b hb ↦ ?_) ?_ (fun tx htx g hg ↦ ?_) fun tx htx ↦ ?_
  · rw [transactionsOwnedBy, ownedBy_append, ownedBy_other _ huser hb, List.append_nil]
  · rw [List.map_append, List.nodup_append]
    refine ⟨hs.ids, hids, ?_⟩
    rintro _ hold _ hnew heq
    obtain ⟨tx₀, htx₀, rfl⟩ := List.mem_map.1 hold
    obtain ⟨tx, htx, rfl⟩ := List.mem_map.1 hnew
    obtain ⟨k, hk⟩ := hdrawn tx htx
    exact hfresh.transactions tx₀ htx₀ k (heq.trans hk)
  · rcases List.mem_append.1 htx with htx | htx
    · exact hs.linked tx htx g hg
    · rw [huser tx htx]
      exact hlinked tx htx g hg
  · rcases List.mem_append.1 htx with htx | htx
    · exact .inl ⟨tx, htx, rfl⟩
    · exact .inr (hdrawn tx htx)

/-- **Creating a transaction** is isolated. -/
theorem isolated_createTransaction (hs : TenantsSound s) (hfresh : Unused r s)
    (dto : CreateTransactionDto) :
    Isolated r s fun s ↦ createTransaction runtime r.userId s r.now dto (r.uuid 0) := by
  have hfree : ∀ {transactions : List TransactionRow}, (∀ t ∈ transactions, t ∈ s.transactions) →
      (transactions.any fun t ↦ t.id = r.uuid 0) = false := by
    intro transactions hsub
    rw [← Bool.not_eq_true, List.any_eq_true]
    rintro ⟨t, ht, hid⟩
    exact hfresh.transactions t (hsub t ht) 0 (of_decide_eq_true hid)
  have huser : ∀ date, ∀ tx ∈ [newTransaction r.userId r.now dto date (r.uuid 0)],
      tx.userId = r.userId := by
    intro date tx htx
    rw [List.mem_singleton.1 htx]
    rfl
  refine ⟨?_, fun response s' h ↦ ?_⟩
  · simp only [createTransaction, hasGoal_only]
    have hfree' : ((s.only r.userId).transactions.any fun t ↦ t.id = r.uuid 0) = false :=
      hfree fun t ht ↦ ((mem_ownedBy _).1 ht).1
    rw [hfree fun t ht ↦ ht, hfree']
    split
    · cases runtime.isoDate dto.occurredAt with
      | none => rfl
      | some date =>
        simp only
        split
        · rfl
        · rw [if_neg Bool.false_ne_true, if_neg Bool.false_ne_true, ← written_only,
            only_append (huser date)]
    · rfl
  · unfold createTransaction at h
    split at h
    · next hgoal =>
      split at h
      · cases h
      · next date hdate =>
        dsimp only at h
        rw [hfree fun t ht ↦ ht, if_neg Bool.false_ne_true] at h
        split at h
        · cases h
        · rw [written_ok h]
          refine effect_append hs hfresh (huser date) (List.nodup_singleton _) (fun tx htx ↦ ⟨0, ?_⟩)
            fun tx htx g hg ↦ ?_
          · rw [List.mem_singleton.1 htx]
            rfl
          · rw [List.mem_singleton.1 htx] at hg
            exact exists_of_checked hgoal hg
    · cases h

/-- **Updating a transaction** is isolated. -/
theorem isolated_updateTransaction (hs : TenantsSound s) (id : ℕ) (dto : UpdateTransactionDto) :
    Isolated r s fun s ↦ updateTransaction runtime r.userId s id dto := by
  refine ⟨?_, fun response s' h ↦ ?_⟩
  -- The lookups of the call select by the user, so the user's rows decide them.
  · simp only [updateTransaction, hasGoal_only, find?_transaction]
    cases s.transactions.find? (ownedTransaction r.userId id) with
    | none => rfl
    | some tx =>
      simp only
      split
      · cases updateDate runtime dto with
        | none => rfl
        | some date =>
          simp only
          split
          · rfl
          · split
            · rfl
            · refine congrArg Except.ok (Prod.ext rfl (only_map fun t ↦ ?_).symm)
              split <;> rfl
      · rfl
  · unfold updateTransaction at h
    cases hfind : s.transactions.find? (ownedTransaction r.userId id) with
    | none =>
      rw [hfind] at h
      cases h
    | some tx =>
      -- The write is by identifier alone; that the row is the user's was found by the lookup.
      have hunique := transaction_unique hs hfind
      simp only [hfind] at h
      split at h
      · next hgoal =>
        split at h
        · cases h
        · next date hdate =>
          split at h
          · cases h
          · split at h
            · cases h
            · next hblank =>
              cases h
              refine effect_transactions hs (fun b hb ↦ ?_) ?_ (fun t ht g hg ↦ ?_) fun t ht ↦ ?_
              -- A row of another user has another identifier, so the update passes it by.
              · refine ownedBy_map_other _ (fun t ↦ ?_) fun t ht htb ↦ if_neg fun hid ↦ ?_
                · split <;> rfl
                · exact hb (htb.symm.trans (hunique t ht hid).2)
              · have hsame : (fun tx : TransactionRow ↦ tx.id) ∘ (fun t : TransactionRow ↦
                    if t.id = id then applyTransactionUpdate dto date t else t) = fun tx ↦ tx.id := by
                  funext t
                  show (if t.id = id then applyTransactionUpdate dto date t else t).id = t.id
                  split <;> rfl
                rw [List.map_map, hsame]
                exact hs.ids
              · obtain ⟨t₀, ht₀, rfl⟩ := List.mem_map.1 ht
                split at hg
                · next hid =>
                  have huser := (hunique t₀ ht₀ hid).2
                  rw [if_pos hid]
                  show ∃ goal ∈ s.goals, goal.id = g ∧ goal.userId = t₀.userId
                  -- The link of the row is kept, removed, or checked against the goals of the same
                  -- user.
                  cases hlink : dto.goalId with
                  | keep =>
                    simp only [applyTransactionUpdate, hlink] at hg
                    exact hs.linked t₀ ht₀ g hg
                  | clear =>
                    simp only [applyTransactionUpdate, hlink] at hg
                    cases hg
                  | blank => exact absurd hlink hblank
                  | link goalId =>
                    simp only [applyTransactionUpdate, hlink] at hg
                    rw [hlink] at hgoal
                    rw [huser]
                    exact exists_of_checked hgoal hg
                · next hid =>
                  rw [if_neg hid]
                  exact hs.linked t₀ ht₀ g hg
              · obtain ⟨t₀, ht₀, rfl⟩ := List.mem_map.1 ht
                refine .inl ⟨t₀, ht₀, ?_⟩
                split <;> rfl
      · cases h

/-- **Removing a transaction** is isolated. -/
theorem isolated_removeTransaction (hs : TenantsSound s) (id : ℕ) :
    Isolated r s fun s ↦ removeTransaction r.userId s id := by
  refine ⟨?_, fun response s' h ↦ ?_⟩
  · simp only [removeTransaction, find?_transaction]
    cases s.transactions.find? (ownedTransaction r.userId id) with
    | none => rfl
    | some tx => exact congrArg Except.ok (Prod.ext rfl only_filter.symm)
  · unfold removeTransaction at h
    cases hfind : s.transactions.find? (ownedTransaction r.userId id) with
    | none =>
      rw [hfind] at h
      cases h
    | some tx =>
      have hunique := transaction_unique hs hfind
      rw [hfind] at h
      cases h
      refine effect_transactions hs (fun b hb ↦ ?_)
        (hs.ids.sublist (List.filter_sublist.map _))
        (fun t ht g hg ↦ hs.linked t (List.mem_filter.1 ht).1 g hg)
        fun t ht ↦ .inl ⟨t, (List.mem_filter.1 ht).1, rfl⟩
      refine ownedBy_filter_other _ fun t ht htb ↦ decide_eq_true fun hid ↦ ?_
      exact hb (htb.symm.trans (hunique t ht hid).2)

end Stead
