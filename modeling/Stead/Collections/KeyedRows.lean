import Mathlib.Data.List.Perm.Basic
import Mathlib.Data.List.Nodup

/-!
# Inserting rows with unique keys

A table whose rows may have a key, no two rows the same one. `inserted` are the rows of a batch that
an insertion which skips conflicts adds: those whose key neither the table nor an earlier row of the
batch has. A row without a key never conflicts.

## Keys as a set

The keys of the table become the union of both (`mem_keysOf_insert`). So a batch whose keys are all
there adds nothing (`inserted_eq_nil`), and one with new, distinct keys is added whole
(`inserted_eq_self`). What is added is a part of the batch in its order (`inserted_sublist`), so the
two say what a repetition of the insertion does, and what the first one does.
-/

namespace Collections

variable {α κ : Type*} (key : α → Option κ) {rows batch : List α} {k : κ}

/-- The keys of rows. -/
def keysOf (rows : List α) : List κ := rows.filterMap key

theorem keysOf_append (rows batch : List α) :
    keysOf key (rows ++ batch) = keysOf key rows ++ keysOf key batch := List.filterMap_append

theorem mem_keysOf : k ∈ keysOf key rows ↔ ∃ a ∈ rows, key a = some k := List.mem_filterMap

/-- The key of the first row comes first, if it has one. -/
theorem keysOf_cons (a : α) :
    keysOf key (a :: batch) = (key a).toList ++ keysOf key batch := by
  cases h : key a <;> simp [keysOf, h]

variable [DecidableEq κ]

/-- The rows of a batch that an insertion skipping conflicts adds. -/
def inserted (rows : List α) : List α → List α
  | [] => []
  | a :: batch =>
    if ∃ k ∈ keysOf key rows, key a = some k then inserted rows batch
    else a :: inserted (rows ++ [a]) batch

/-- What is added is part of the batch, in its order. -/
theorem inserted_sublist : (inserted key rows batch).Sublist batch := by
  induction batch generalizing rows with
  | nil => exact List.Sublist.refl []
  | cons a batch ih =>
    unfold inserted
    split
    · exact ih.cons a
    · exact ih.cons_cons a

/-- **The keys of the table** after an insertion are those of the table and of the batch. -/
theorem mem_keysOf_insert : k ∈ keysOf key (rows ++ inserted key rows batch) ↔
    k ∈ keysOf key rows ∨ k ∈ keysOf key batch := by
  induction batch generalizing rows with
  | nil => simp [inserted, keysOf]
  | cons a batch ih =>
    have hcons : k ∈ keysOf key (a :: batch) ↔ key a = some k ∨ k ∈ keysOf key batch := by
      rw [keysOf_cons, List.mem_append, Option.mem_toList]
    unfold inserted
    split
    · next h =>
      obtain ⟨k', hk', ha⟩ := h
      rw [ih, hcons, ha, Option.some.injEq]
      constructor
      · rintro (h | h)
        · exact .inl h
        · exact .inr (.inr h)
      · rintro (h | rfl | h)
        · exact .inl h
        · exact .inl hk'
        · exact .inr h
    · rw [List.append_cons, ih, keysOf_append, List.mem_append, hcons, or_assoc]
      simp [mem_keysOf]

/-- A batch adds nothing when its keys are all there. -/
theorem inserted_eq_nil (h : ∀ a ∈ batch, ∃ k ∈ keysOf key rows, key a = some k) :
    inserted key rows batch = [] := by
  induction batch with
  | nil => rfl
  | cons a batch ih =>
    rw [inserted, if_pos (h a (List.mem_cons_self ..))]
    exact ih fun b hb ↦ h b (List.mem_cons_of_mem _ hb)

/-- A batch is added whole when its keys are new and distinct. -/
theorem inserted_eq_self (hnew : ∀ k ∈ keysOf key batch, k ∉ keysOf key rows)
    (hnodup : (keysOf key batch).Nodup) : inserted key rows batch = batch := by
  induction batch generalizing rows with
  | nil => rfl
  | cons a batch ih =>
    have hfree : ¬ ∃ k ∈ keysOf key rows, key a = some k := by
      rintro ⟨k, hk, ha⟩
      exact hnew k ((mem_keysOf key).2 ⟨a, List.mem_cons_self .., ha⟩) hk
    rw [keysOf_cons, List.nodup_append] at hnodup
    obtain ⟨-, hbatch, hdisjoint⟩ := hnodup
    rw [inserted, if_neg hfree, ih (fun k hk hmem ↦ ?_) hbatch]
    rw [keysOf_append, List.mem_append, keysOf_cons, List.mem_append, Option.mem_toList] at hmem
    rcases hmem with hold | ha | hnil
    · exact hnew k (by rw [keysOf_cons]; exact List.mem_append_right _ hk) hold
    · exact hdisjoint k (Option.mem_toList.2 ha) k hk rfl
    · cases hnil

end Collections
