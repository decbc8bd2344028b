import Stead.Collections.KeyedRows

/-!
# Rows with owners

A table whose rows have an owner. `ownedBy` are the rows of one owner, in order.

## Lookups and updates

A lookup for rows of the owner finds the same in those as in the whole table (`filter_ownedBy`,
`find?_ownedBy`, `any_ownedBy`). An update that changes no owner can be carried out there
(`ownedBy_map`, `ownedBy_filter`), and the rows of the other owners are what an update for one
leaves alone (`ownedBy_map_other`, `ownedBy_filter_other`). An insertion adds the rows of each owner
to those of the owner (`ownedBy_append`).

Insertions that skip conflicts are decided by the keys; when keys of different owners differ, the
rows of an owner are inserted as if the other rows were not there (`inserted_ownedBy`).
-/

namespace Collections

variable {α κ μ : Type*} [DecidableEq κ] (owner : α → κ)

/-- The rows of an owner. -/
def ownedBy (u : κ) (rows : List α) : List α := rows.filter fun r ↦ owner r = u

variable {u b : κ} {rows batch : List α} {p : α → Bool} {f : α → α}

/-- The rows of an owner are the rows with that owner. -/
theorem mem_ownedBy {r : α} : r ∈ ownedBy owner u rows ↔ r ∈ rows ∧ owner r = u := by
  rw [ownedBy, List.mem_filter, decide_eq_true_iff]

theorem ownedBy_sublist : (ownedBy owner u rows).Sublist rows := List.filter_sublist

/-- Rows that are added come after those of the same owner. -/
theorem ownedBy_append : ownedBy owner u (rows ++ batch) =
    ownedBy owner u rows ++ ownedBy owner u batch := List.filter_append ..

theorem ownedBy_self (h : ∀ r ∈ batch, owner r = u) : ownedBy owner u batch = batch :=
  List.filter_eq_self.2 fun r hr ↦ decide_eq_true (h r hr)

theorem ownedBy_other (h : ∀ r ∈ batch, owner r = u) (hb : b ≠ u) : ownedBy owner b batch = [] :=
  List.filter_eq_nil_iff.2 fun r hr hrb ↦ hb ((of_decide_eq_true hrb).symm.trans (h r hr))

/-! ### Lookups -/

/-- **A selection for the owner** is made from the rows of the owner. -/
theorem filter_ownedBy (h : ∀ r, p r = true → owner r = u) :
    (ownedBy owner u rows).filter p = rows.filter p := by
  rw [ownedBy, List.filter_filter]
  refine List.filter_congr fun r _ ↦ ?_
  cases hp : p r with
  | true => rw [Bool.true_and, decide_eq_true (h r hp)]
  | false => rw [Bool.false_and]

theorem find?_ownedBy (h : ∀ r, p r = true → owner r = u) :
    (ownedBy owner u rows).find? p = rows.find? p := by
  rw [← List.head?_filter, ← List.head?_filter, filter_ownedBy owner h]

theorem any_ownedBy (h : ∀ r, p r = true → owner r = u) :
    (ownedBy owner u rows).any p = rows.any p := by
  rw [Bool.eq_iff_iff, List.any_eq_true, List.any_eq_true]
  constructor
  · rintro ⟨r, hr, hp⟩
    exact ⟨r, ((mem_ownedBy owner).1 hr).1, hp⟩
  · rintro ⟨r, hr, hp⟩
    exact ⟨r, (mem_ownedBy owner).2 ⟨hr, h r hp⟩, hp⟩

/-! ### Updates -/

/-- An update that changes no owner is one of the rows of the owner. -/
theorem ownedBy_map (h : ∀ r, owner (f r) = owner r) :
    ownedBy owner u (rows.map f) = (ownedBy owner u rows).map f := by
  rw [ownedBy, List.filter_map, ownedBy]
  congr 1
  refine List.filter_congr fun r _ ↦ ?_
  rw [Function.comp_apply, h]

/-- An update that finds no row of an owner leaves the owner's rows alone. -/
theorem ownedBy_map_other (h : ∀ r, owner (f r) = owner r)
    (hb : ∀ r ∈ rows, owner r = b → f r = r) :
    ownedBy owner b (rows.map f) = ownedBy owner b rows := by
  rw [ownedBy_map owner h]
  conv_rhs => rw [← List.map_id (ownedBy owner b rows)]
  refine List.map_congr_left fun r hr ↦ ?_
  obtain ⟨hr, hrb⟩ := (mem_ownedBy owner).1 hr
  exact hb r hr hrb

theorem ownedBy_filter : ownedBy owner u (rows.filter p) = (ownedBy owner u rows).filter p := by
  rw [ownedBy, ownedBy, List.filter_filter, List.filter_filter]
  exact List.filter_congr fun r _ ↦ Bool.and_comm _ _

/-- A deletion that finds no row of an owner leaves the owner's rows alone. -/
theorem ownedBy_filter_other (hb : ∀ r ∈ rows, owner r = b → p r = true) :
    ownedBy owner b (rows.filter p) = ownedBy owner b rows := by
  rw [ownedBy_filter]
  refine List.filter_eq_self.2 fun r hr ↦ ?_
  obtain ⟨hr, hrb⟩ := (mem_ownedBy owner).1 hr
  exact hb r hr hrb

omit [DecidableEq κ] in
/-- **An insertion for an owner** under a key that tells the owner conflicts with rows of the owner
only. -/
theorem inserted_ownedBy [DecidableEq μ] {key : α → Option μ} {rows rows' : List α}
    (hkey : ∀ r r' k, key r = some k → key r' = some k → owner r = owner r')
    (hrows : ∀ r, owner r = u → (r ∈ rows' ↔ r ∈ rows)) (hbatch : ∀ r ∈ batch, owner r = u) :
    inserted key rows' batch = inserted key rows batch := by
  induction batch generalizing rows rows' with
  | nil => rfl
  | cons a batch ih =>
    have ha : owner a = u := hbatch a (List.mem_cons_self ..)
    have hrest : ∀ r ∈ batch, owner r = u := fun r hr ↦ hbatch r (List.mem_cons_of_mem _ hr)
    have htaken : (∃ k ∈ keysOf key rows', key a = some k) ↔
        ∃ k ∈ keysOf key rows, key a = some k := by
      refine exists_congr fun k ↦ and_congr_left fun hk ↦ ?_
      rw [mem_keysOf, mem_keysOf]
      refine exists_congr fun r ↦ and_congr_left fun hr ↦ hrows r ?_
      exact (hkey r a k hr hk).trans ha
    unfold inserted
    by_cases h : ∃ k ∈ keysOf key rows, key a = some k
    · rw [if_pos h, if_pos (htaken.2 h)]
      exact ih hrows hrest
    · rw [if_neg h, if_neg (mt htaken.1 h), ih (fun r hr ↦ ?_) hrest]
      rw [List.mem_append, List.mem_append, hrows r hr]

end Collections
