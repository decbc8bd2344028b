import Mathlib.Data.List.Count
import Mathlib.Data.List.Nodup
import Mathlib.Logic.Function.Basic

/-!
# Numbered occurrences

`numbered` pairs each element of a list with the number of times it has occurred so far. The
occurrences before the list are given by a counter, which the recursion carries.

## What numbering is for

The pairs are distinct even where the elements are not (`nodup_numbered`), and which pairs there are
depends only on how often each element occurs (`mem_numbered`), so not on the order
(`mem_numbered_perm`). So the pairs can serve as keys for the elements of a multiset: they tell
equal elements apart, and they are the same keys whichever way the multiset is listed.
-/

namespace Collections

variable {α : Type*} [DecidableEq α] {seen : α → ℕ} {a b : α} {as bs : List α} {k : ℕ}

/-- The elements of a list with the numbers of their occurrences, those `seen` counts included. -/
def numbered (seen : α → ℕ) : List α → List (α × ℕ)
  | [] => []
  | a :: as => (a, seen a + 1) :: numbered (Function.update seen a (seen a + 1)) as

@[simp] theorem numbered_nil : numbered seen [] = [] := rfl

/-- The first element is counted once more, and so are the later ones like it. -/
theorem numbered_cons : numbered seen (a :: as) =
    (a, seen a + 1) :: numbered (Function.update seen a (seen a + 1)) as := rfl

/-- **The occurrences of an element** are numbered without a gap. -/
theorem mem_numbered : (b, k) ∈ numbered seen as ↔ seen b < k ∧ k ≤ seen b + as.count b := by
  induction as generalizing seen with
  | nil => simp only [numbered_nil, List.not_mem_nil, List.count_nil, false_iff]; omega
  | cons a as ih =>
    rw [numbered_cons, List.mem_cons, ih]
    by_cases hb : b = a
    · subst hb
      simp only [Function.update_self, List.count_cons_self, Prod.mk.injEq, true_and]
      omega
    · rw [Function.update_of_ne hb, List.count_cons_of_ne (Ne.symm hb), Prod.mk.injEq]
      simp [hb]

/-- **Numbered occurrences are distinct.** -/
theorem nodup_numbered : (numbered seen as).Nodup := by
  induction as generalizing seen with
  | nil => exact List.nodup_nil
  | cons a as ih =>
    refine List.nodup_cons.2 ⟨fun hmem ↦ ?_, ih⟩
    have hlater := (mem_numbered.1 hmem).1
    rw [Function.update_self] at hlater
    exact Nat.lt_irrefl _ hlater

/-- The order of the elements does not matter. -/
theorem mem_numbered_perm (h : as.Perm bs) (p : α × ℕ) :
    p ∈ numbered seen as ↔ p ∈ numbered seen bs := by
  obtain ⟨b, k⟩ := p
  rw [mem_numbered, mem_numbered, h.count_eq]

end Collections
