import Mathlib.Data.ENat.Lattice
import Mathlib.Data.Set.Card
import Mathlib.Data.List.Nodup

/-!
# The greatest elements of a set

A choice of the `n` greatest elements of a set under a relation that may hold both ways between
different elements: what is chosen is nowhere below what is not (`Newest`).

## Where it comes from

Leaving out a first part of a sorted list is such a choice of the rest (`newest_drop`). The elements
of the list are distinct, so what is left has as many elements as places (`encard_mem`); and what is
left out comes before what is left, so it is below it or tied with it (`older_of_take_drop`). Ties
are why this is a choice and not a function: which of two equal elements is left out is up to the
order of the list.
-/

namespace Collections

variable {α : Type*} {older : α → α → Prop}

/-- `S` is a choice of the `n` newest elements of `N`, or of all if there are fewer. -/
structure Newest (older : α → α → Prop) (n : ℕ) (N S : Set α) : Prop where
  subset : S ⊆ N
  encard : S.encard = min (n : ℕ∞) N.encard
  newest : ∀ a ∈ S, ∀ b ∈ N, b ∉ S → older b a

/-- The elements of a list without duplicates. -/
theorem encard_mem {l : List α} (hl : l.Nodup) : {a | a ∈ l}.encard = (l.length : ℕ∞) := by
  classical
  have hset : {a | a ∈ l} = (l.toFinset : Set α) := by
    ext a
    simp
  rw [hset, Set.encard_coe_eq_coe_finsetCard, List.toFinset_card_of_nodup hl]

/-- What comes first in a sorted list is older than what is left. -/
theorem older_of_take_drop {l : List α} (hsorted : l.Pairwise older) {k : ℕ} {a b : α}
    (hb : b ∈ l.take k) (ha : a ∈ l.drop k) : older b a := by
  rw [← List.take_append_drop k l, List.pairwise_append] at hsorted
  exact hsorted.2.2 b hb a ha

/-- **Leaving out the oldest** leaves the newest. -/
theorem newest_drop {l : List α} (hl : l.Nodup) (hsorted : l.Pairwise older) {n : ℕ} :
    Newest older n {a | a ∈ l} {a | a ∈ l.drop (l.length - n)} where
  subset _ h := List.mem_of_mem_drop h
  encard := by
    have hlength : l.length - (l.length - n) = min n l.length := by omega
    rw [encard_mem (hl.sublist (List.drop_sublist _ _)), encard_mem hl, List.length_drop, hlength]
    norm_cast
  newest a ha b hb hdropped := by
    refine older_of_take_drop hsorted (k := l.length - n) ?_ ha
    rw [Set.mem_ofPred_eq, ← List.take_append_drop (l.length - n) l, List.mem_append] at hb
    exact hb.resolve_right hdropped

end Collections
