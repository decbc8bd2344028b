import Mathlib.Data.List.MinMax
import Mathlib.Order.Lex
import Mathlib.Data.Prod.Lex

/-!
# Statements over the rows of a table

A table is the list of its rows, and a statement is a function of the table: an update in place, the
number that `ROW_NUMBER()` gives a row in its partition, a partial unique index, and the aggregate
`MIN` over the rows above a given one.

## Updates and constraints

An update sets the rows that meet a condition (`update`). With a check constraint it succeeds when
the rows it leaves meet that (`updateChecked_eq_ok`). An index can be created when no two of its
rows have the same key (`createUniqueIndex_of_indexed`), and is violated otherwise.

## Row numbers

The rows of a partition are numbered from the one with the greatest key. Equal keys leave the order
of the numbers open; where a key belongs to one row only, the first number is that of the greatest
row (`rowNumber_eq_one_iff`), a greater number that of a row with a greater one above it
(`one_lt_rowNumber_iff`), and the row above a given one has the least of the values that grow with
the key (`min?_above`).
-/

namespace Relational

variable {α β κ τ : Type*}

/-! ### Updates and indexes -/

/-- `UPDATE … SET … WHERE …`. -/
def update (p : α → Prop) [DecidablePred p] (set : α → α) (rows : List α) : List α :=
  rows.map fun row ↦ if p row then set row else row

/-- `UPDATE … SET … WHERE …` under a check constraint, which is enforced on the rows that are
written. A constraint that was added `NOT VALID` may be broken by the others. -/
def updateChecked {ε : Type*} (check : α → Prop) [DecidablePred check] (violation : ε)
    (p : α → Prop) [DecidablePred p] (set : α → α) (rows : List α) : Except ε (List α) :=
  if ∀ row ∈ rows, p row → check (set row) then .ok (update p set rows) else .error violation

/-- An update succeeds when every row it sets meets the constraint. -/
theorem updateChecked_eq_ok {ε : Type*} {check p : α → Prop} [DecidablePred check]
    [DecidablePred p] {violation : ε} {set : α → α} {rows rows' : List α} :
    updateChecked check violation p set rows = .ok rows' ↔
      (∀ row ∈ rows, p row → check (set row)) ∧ update p set rows = rows' := by
  unfold updateChecked
  split
  · next h => rw [Except.ok.injEq, and_iff_right h]
  · next h => exact iff_of_false nofun fun hok ↦ h hok.1

/-- No two rows that a partial index covers have the same key. -/
def Indexed (key : α → κ) (p : α → Prop) (rows : List α) : Prop :=
  rows.Pairwise fun a b ↦ ¬ (key a = key b ∧ p a ∧ p b)

instance [DecidableEq κ] (key : α → κ) (p : α → Prop) [DecidablePred p] (rows : List α) :
    Decidable (Indexed key p rows) :=
  inferInstanceAs (Decidable (rows.Pairwise _))

/-- `CREATE UNIQUE INDEX … ON … WHERE …`, which fails on the table that violates it. -/
def createUniqueIndex {ε : Type*} [DecidableEq κ] (key : α → κ) (p : α → Prop) [DecidablePred p]
    (violation : ε) (rows : List α) : Except ε (List α) :=
  if Indexed key p rows then .ok rows else .error violation

/-- Where no two rows have the same key the index can be created. -/
theorem createUniqueIndex_of_indexed {ε : Type*} [DecidableEq κ] {key : α → κ} {p : α → Prop}
    [DecidablePred p] {violation : ε} {rows : List α} (h : Indexed key p rows) :
    createUniqueIndex key p violation rows = .ok rows :=
  if_pos h

/-- Rows that a key tells apart meet an index if no two of them stand under it together. -/
theorem indexed_of_forall {ι : Type*} {key : α → κ} {p : α → Prop} (id : α → ι) {rows : List α}
    (hids : (rows.map id).Nodup)
    (h : ∀ a ∈ rows, ∀ b ∈ rows, key a = key b → p a → p b → id a = id b) :
    Indexed key p rows := by
  have hne : rows.Pairwise fun a b ↦ id a ≠ id b := List.pairwise_map.1 hids
  exact hne.imp_of_mem fun ha hb hab hboth ↦ hab (h _ ha _ hb hboth.1 hboth.2.1 hboth.2.2)

/-! ### Row numbers -/

section RowNumber

variable [DecidableEq α] [DecidableEq κ] [LinearOrder τ] {part : α → κ} {key : α → τ}
  {rows : List α} {row : α}

/-- `ROW_NUMBER() OVER (PARTITION BY part ORDER BY key DESC)` of a row. -/
def rowNumber (part : α → κ) (key : α → τ) (rows : List α) (row : α) : ℕ :=
  ((rows.filter fun other ↦ part other = part row).mergeSort fun a b ↦ key b ≤ key a).idxOf row + 1

omit [DecidableEq α] in
/-- Sorting by the key puts the greatest first. -/
theorem pairwise_mergeSort_desc (key : α → τ) (rows : List α) :
    (rows.mergeSort fun a b ↦ key b ≤ key a).Pairwise fun a b ↦ key b ≤ key a := by
  have hsorted : (rows.mergeSort fun a b ↦ key b ≤ key a).Pairwise
      fun a b ↦ decide (key b ≤ key a) = true := by
    refine List.pairwise_mergeSort (fun a b c hab hbc ↦ ?_) (fun a b ↦ ?_) rows
    · simp only [decide_eq_true_eq] at hab hbc ⊢
      exact hbc.trans hab
    · simpa using le_total (key b) (key a)
  exact hsorted.imp of_decide_eq_true

/-- The row of a partition with the number 1 is the one with the greatest key. -/
theorem rowNumber_eq_one_iff (hinj : ∀ a ∈ rows, ∀ b ∈ rows, key a = key b → a = b)
    (hrow : row ∈ rows) :
    rowNumber part key rows row = 1 ↔ ∀ other ∈ rows, part other = part row → key other ≤ key row := by
  set sorted := (rows.filter fun other ↦ part other = part row).mergeSort fun a b ↦ key b ≤ key a
    with hsorted
  have hmem : ∀ other, other ∈ sorted ↔ other ∈ rows ∧ part other = part row := by
    simp [hsorted]
  have hpairwise : sorted.Pairwise fun a b ↦ key b ≤ key a := pairwise_mergeSort_desc key _
  have hhere : row ∈ sorted := (hmem row).2 ⟨hrow, rfl⟩
  obtain ⟨first, rest, hcons⟩ := List.exists_cons_of_ne_nil (List.ne_nil_of_mem hhere)
  have hnumber : rowNumber part key rows row = 1 ↔ first = row := by
    rw [rowNumber, ← hsorted, hcons, Nat.add_eq_right, List.idxOf_eq_zero_iff_head_eq (by simp),
      List.head_cons]
  rw [hcons, List.pairwise_cons] at hpairwise
  have hfirst := (hmem first).1 (hcons ▸ List.mem_cons_self)
  rw [hnumber]
  constructor
  · rintro rfl other hother hpart
    have hin := (hmem other).2 ⟨hother, hpart⟩
    rw [hcons, List.mem_cons] at hin
    rcases hin with rfl | hin
    · exact le_rfl
    · exact hpairwise.1 other hin
  · intro hgreatest
    rw [hcons, List.mem_cons] at hhere
    rcases hhere with hhere | hhere
    · exact hhere.symm
    -- Two rows that are each the greatest have the same key, so they are one row.
    · exact hinj first hfirst.1 row hrow
        (le_antisymm (hgreatest first hfirst.1 hfirst.2) (hpairwise.1 row hhere))

/-- The other numbers are those of rows with a greater one in their partition. -/
theorem one_lt_rowNumber_iff (hinj : ∀ a ∈ rows, ∀ b ∈ rows, key a = key b → a = b)
    (hrow : row ∈ rows) :
    1 < rowNumber part key rows row ↔ ∃ other ∈ rows, part other = part row ∧ key row < key other := by
  have hpos : 1 ≤ rowNumber part key rows row := Nat.succ_pos _
  rw [lt_iff_le_and_ne, and_iff_right hpos, ne_comm, Ne, rowNumber_eq_one_iff hinj hrow]
  push Not
  rfl

end RowNumber

/-! ### The row above -/

section Above

variable [LinearOrder τ] [LinearOrder β] {key : α → τ} {value : α → β} {rows : List α}

/-- A row with the least key. -/
theorem exists_least (key : α → τ) {rows : List α} (h : rows ≠ []) :
    ∃ least ∈ rows, ∀ row ∈ rows, key least ≤ key row := by
  obtain ⟨least, hleast⟩ := Option.ne_none_iff_exists'.1 (mt (List.argmin_eq_none (f := key)).1 h)
  exact ⟨least, List.argmin_mem hleast, fun row hrow ↦ List.le_of_mem_argmin hrow hleast⟩

/-- `MIN` of a value that grows with the key is the value of the row with the least key. -/
theorem min?_above (hmono : ∀ a ∈ rows, ∀ b ∈ rows, key a ≤ key b → value a ≤ value b) {least : α}
    (hleast : least ∈ rows) (h : ∀ row ∈ rows, key least ≤ key row) :
    (rows.map value).min? = some (value least) := by
  rw [List.min?_eq_some_iff]
  refine ⟨List.mem_map_of_mem hleast, fun v hv ↦ ?_⟩
  obtain ⟨row, hrow, rfl⟩ := List.mem_map.1 hv
  exact hmono least hleast row hrow (h row hrow)

end Above

end Relational
