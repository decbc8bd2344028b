import Mathlib.Data.List.Basic
import Mathlib.Data.List.Nodup
import Mathlib.Data.List.Perm.Subperm
import Mathlib.Order.Nat
import Mathlib.Data.Option.Basic
import Mathlib.Tactic.TypeStar

/-!
# Tables under READ COMMITTED

A table of a store with transactions at the isolation level READ COMMITTED. A row lives in a
*cell*, which holds the committed version of the row and, while a transaction has changed it, the
version that transaction wrote. A statement is executed for a *viewer*: a transaction sees its own
writes over the committed rows, a statement outside a transaction (`none`) sees the committed rows
only and commits what it writes.

## Locks

Writing a row locks it. An update of a row that another transaction has written waits until that
transaction ends, and then looks at the row again; here the statement is simply not executable
until then. An update of several rows looks for them only once, when it starts: rows that are
committed while it waits are not among them. So it is two statements here, one that finds the rows
and one that updates those found.

## Keys

Rows are numbered in the order of their insertion, over all transactions. The numbers stand for
generated keys: all that is used of them is that no two rows share one, and that they record the
order of insertion.

## The lemmas

The lemmas on cells say what each operation does to the committed version and to the pending one,
and the lemmas on tables reduce to them, cell by cell (`mem_rows`, `updateMany_cell`,
`updateId_cases`, `deleteId_cases`). `Cell.Moves` collects what a single statement may do to a cell.
A table that no open transaction has written is `Committed`, and statements outside a transaction
keep it so.
-/

namespace Concurrency

/-- The versions of one row. -/
structure Cell (ι ρ : Type) where
  /-- The committed version. -/
  stored : Option ρ
  /-- The version an open transaction has written, with that transaction. -/
  pending : Option (ι × ρ)

namespace Cell

variable {ι ρ : Type}

/-- No row. -/
def empty : Cell ι ρ := ⟨none, none⟩

/-- What ending transaction `i` by a commit does to a cell. -/
def commit [DecidableEq ι] (i : ι) (c : Cell ι ρ) : Cell ι ρ :=
  match c.pending with
  | some (j, r) => if j = i then ⟨some r, none⟩ else c
  | none => c

/-- What ending transaction `i` by a rollback does to a cell. -/
def rollback [DecidableEq ι] (i : ι) (c : Cell ι ρ) : Cell ι ρ :=
  match c.pending with
  | some (j, _) => if j = i then ⟨c.stored, none⟩ else c
  | none => c

/-- The version a viewer sees. -/
def view [DecidableEq ι] (w : Option ι) (c : Cell ι ρ) : Option ρ :=
  match c.pending with
  | some (j, r) => if some j = w then some r else c.stored
  | none => c.stored

/-- Another transaction has written the row. -/
def lockedFor [DecidableEq ι] (w : Option ι) (c : Cell ι ρ) : Bool :=
  match c.pending with
  | some (j, _) => !decide (some j = w)
  | none => false

/-- The viewer writes a version. -/
def write (w : Option ι) (r : ρ) (c : Cell ι ρ) : Cell ι ρ :=
  match w with
  | some i => { c with pending := some (i, r) }
  | none => { c with stored := some r }

/-- The viewer updates the row if the version it sees meets the condition. -/
def update [DecidableEq ι] (w : Option ι) (p : ρ → Bool) (f : ρ → ρ) (c : Cell ι ρ) :
    Cell ι ρ :=
  match c.view w with
  | some r => if p r then c.write w (f r) else c
  | none => c

variable [DecidableEq ι]

@[simp] theorem commit_empty (i : ι) : (empty : Cell ι ρ).commit i = empty := rfl

@[simp] theorem rollback_empty (i : ι) : (empty : Cell ι ρ).rollback i = empty := rfl

@[simp] theorem view_empty (w : Option ι) : (empty : Cell ι ρ).view w = none := rfl

@[simp] theorem update_empty (w : Option ι) (p : ρ → Bool) (f : ρ → ρ) :
    (empty : Cell ι ρ).update w p f = empty := rfl

/-- A statement outside a transaction sees what is committed. -/
theorem view_none (c : Cell ι ρ) : c.view none = c.stored := by
  unfold view
  split <;> simp

/-- Where a version is committed, everyone sees one. -/
theorem view_isSome {c : Cell ι ρ} (h : c.stored.isSome) (w : Option ι) : (c.view w).isSome := by
  unfold view
  split
  · split
    · rfl
    · exact h
  · exact h

/-- A transaction sees what it has written. -/
theorem view_of_pending {c : Cell ι ρ} {i : ι} {r : ρ} (h : c.pending = some (i, r)) :
    c.view (some i) = some r := by
  simp [view, h]

/-- A writer sees what it has written. -/
@[simp] theorem view_write (w : Option ι) (r : ρ) (c : Cell ι ρ) :
    (c.write w r).view w = some r := by
  cases w with
  | none => exact view_none _
  | some i => exact view_of_pending rfl

/-- A transaction that has not written the row sees what is committed. -/
theorem view_of_not_pending {c : Cell ι ρ} {i : ι} (h : ∀ r, c.pending ≠ some (i, r)) :
    c.view (some i) = c.stored := by
  unfold view
  split
  · next j r hp =>
    split
    · next hj => exact absurd (Option.some.inj hj ▸ hp) (h r)
    · rfl
  · rfl

/-- What a writer sees depends on what is committed and on what it has written itself. -/
theorem view_congr {c c' : Cell ι ρ} {i : ι} (hs : c'.stored = c.stored)
    (hp : ∀ r, c'.pending = some (i, r) ↔ c.pending = some (i, r)) :
    c'.view (some i) = c.view (some i) := by
  by_cases hpending : ∃ r, c.pending = some (i, r)
  · obtain ⟨r, hr⟩ := hpending
    rw [view_of_pending hr, view_of_pending ((hp r).2 hr)]
  · rw [view_of_not_pending fun r hr ↦ hpending ⟨r, hr⟩,
      view_of_not_pending fun r hr ↦ hpending ⟨r, (hp r).1 hr⟩, hs]

/-- A row that is not locked is seen as written by oneself, or as committed and unwritten. -/
theorem pending_of_not_locked {c : Cell ι ρ} {w : Option ι} (h : c.lockedFor w = false) :
    c.pending = none ∨ ∃ i r, w = some i ∧ c.pending = some (i, r) := by
  unfold lockedFor at h
  split at h
  · next j r hp => exact .inr ⟨j, r, by simpa using (by simpa using h : some j = w).symm, hp⟩
  · next hp => exact .inl hp

/-- A commit makes the version that was written the committed one. -/
theorem commit_of_pending {c : Cell ι ρ} {i : ι} {r : ρ} (h : c.pending = some (i, r)) :
    c.commit i = ⟨some r, none⟩ := by
  simp [commit, h]

/-- A commit leaves the rows that the transaction has not written. -/
theorem commit_of_not_pending {c : Cell ι ρ} {i : ι} (h : ∀ r, c.pending ≠ some (i, r)) :
    c.commit i = c := by
  unfold commit
  split
  · next j r hp =>
    split
    · next hj => exact absurd (hj ▸ hp) (h r)
    · rfl
  · rfl

/-- A rollback forgets the version that was written. -/
theorem rollback_of_pending {c : Cell ι ρ} {i : ι} {r : ρ} (h : c.pending = some (i, r)) :
    c.rollback i = ⟨c.stored, none⟩ := by
  simp [rollback, h]

/-- A rollback leaves the rows that the transaction has not written. -/
theorem rollback_of_not_pending {c : Cell ι ρ} {i : ι} (h : ∀ r, c.pending ≠ some (i, r)) :
    c.rollback i = c := by
  unfold rollback
  split
  · next j r hp =>
    split
    · next hj => exact absurd (hj ▸ hp) (h r)
    · rfl
  · rfl

@[simp] theorem rollback_stored (c : Cell ι ρ) (i : ι) : (c.rollback i).stored = c.stored := by
  unfold rollback
  split
  · split <;> rfl
  · rfl

/-- A commit makes what the transaction sees the committed version. -/
@[simp] theorem commit_stored (c : Cell ι ρ) (i : ι) :
    (c.commit i).stored = c.view (some i) := by
  unfold commit view
  split
  · next j r hp =>
    by_cases hj : j = i <;> simp [hj]
  · rfl

/-- After the end of a transaction none of its writes are pending. -/
theorem commit_pending_ne (c : Cell ι ρ) (i : ι) (r : ρ) : (c.commit i).pending ≠ some (i, r) := by
  by_cases h : ∃ r, c.pending = some (i, r)
  · obtain ⟨r', h⟩ := h
    simp [commit_of_pending h]
  · rw [commit_of_not_pending fun r hr ↦ h ⟨r, hr⟩]
    exact fun hr ↦ h ⟨r, hr⟩

/-- After a rollback nothing of the transaction is pending. -/
theorem rollback_pending_ne (c : Cell ι ρ) (i : ι) (r : ρ) :
    (c.rollback i).pending ≠ some (i, r) := by
  by_cases h : ∃ r, c.pending = some (i, r)
  · obtain ⟨r', h⟩ := h
    simp [rollback_of_pending h]
  · rw [rollback_of_not_pending fun r hr ↦ h ⟨r, hr⟩]
    exact fun hr ↦ h ⟨r, hr⟩

/-- What is pending after the end of a transaction was pending before, of another one. -/
theorem pending_of_commit {c : Cell ι ρ} {i j : ι} {r : ρ}
    (h : (c.commit i).pending = some (j, r)) : j ≠ i ∧ c.pending = some (j, r) := by
  refine ⟨fun hj ↦ commit_pending_ne c i r (hj ▸ h), ?_⟩
  by_cases hp : ∃ r, c.pending = some (i, r)
  · obtain ⟨r', hp⟩ := hp
    rw [commit_of_pending hp] at h
    cases h
  · rwa [commit_of_not_pending fun r hr ↦ hp ⟨r, hr⟩] at h

/-- What is pending after a rollback was pending before, of another transaction. -/
theorem pending_of_rollback {c : Cell ι ρ} {i j : ι} {r : ρ}
    (h : (c.rollback i).pending = some (j, r)) : j ≠ i ∧ c.pending = some (j, r) := by
  refine ⟨fun hj ↦ rollback_pending_ne c i r (hj ▸ h), ?_⟩
  by_cases hp : ∃ r, c.pending = some (i, r)
  · obtain ⟨r', hp⟩ := hp
    rw [rollback_of_pending hp] at h
    cases h
  · rwa [rollback_of_not_pending fun r hr ↦ hp ⟨r, hr⟩] at h

/-- What transaction `i` can make of a cell: it writes it, unless another one has, or it ends. -/
inductive Moves (i : ι) (c : Cell ι ρ) : Cell ι ρ → Prop
  | same : Moves i c c
  | write (r : ρ) (hl : c.lockedFor (some i) = false) : Moves i c (c.write (some i) r)
  | commit : Moves i c (c.commit i)
  | rollback : Moves i c (c.rollback i)

/-- What a transaction has written no other one changes. -/
theorem Moves.of_pending {c c' : Cell ι ρ} {i j : ι} {r : ρ} (h : Moves i c c') (hj : j ≠ i)
    (hp : c.pending = some (j, r)) : c' = c := by
  have hnot : ∀ r', c.pending ≠ some (i, r') := by
    intro r' hr'
    cases hp.symm.trans hr'
    exact hj rfl
  cases h with
  | same => rfl
  | write r' hl =>
    rcases pending_of_not_locked hl with hnone | ⟨k, r'', hk, hr''⟩
    · cases hnone.symm.trans hp
    · cases hk
      exact absurd hr'' (hnot r'')
  | commit => exact commit_of_not_pending hnot
  | rollback => exact rollback_of_not_pending hnot

/-- What another transaction has written it had written before. -/
theorem Moves.of_pending_after {c c' : Cell ι ρ} {i j : ι} {r : ρ} (h : Moves i c c') (hj : j ≠ i)
    (hp : c'.pending = some (j, r)) : c' = c := by
  refine h.of_pending hj (r := r) ?_
  cases h with
  | same => exact hp
  | write r' hl =>
    cases hp
    exact absurd rfl hj
  | commit => exact (pending_of_commit hp).2
  | rollback => exact (pending_of_rollback hp).2

end Cell

/-- A table: the cells of its rows, by number, and the number of the next row. -/
structure Table (ι ρ : Type) where
  /-- The number the next row gets. -/
  next : ℕ
  /-- The cell of each number. -/
  cell : ℕ → Cell ι ρ
  /-- Numbers not given out yet have no row. -/
  fresh : ∀ id, next ≤ id → cell id = Cell.empty

/-- A row with its number. -/
structure Keyed (ρ : Type) where
  /-- The number of the row. -/
  id : ℕ
  /-- The row. -/
  row : ρ
  deriving DecidableEq

namespace Table

variable {ι ρ : Type}

/-- The table without rows. -/
def empty : Table ι ρ := ⟨0, fun _ ↦ .empty, fun _ _ ↦ rfl⟩

/-- The row numbered `id`, as committed. -/
def stored (t : Table ι ρ) (id : ℕ) : Option ρ := (t.cell id).stored

/-- The row numbered `id` as some open transaction has written it. -/
def pending (t : Table ι ρ) (id : ℕ) : Option (ι × ρ) := (t.cell id).pending

/-- Change every cell. -/
def mapCells (f : Cell ι ρ → Cell ι ρ) (hf : f .empty = .empty) (t : Table ι ρ) : Table ι ρ where
  next := t.next
  cell id := f (t.cell id)
  fresh id h := by rw [t.fresh id h, hf]

@[simp] theorem mapCells_next (f : Cell ι ρ → Cell ι ρ) (hf) (t : Table ι ρ) :
    (t.mapCells f hf).next = t.next := rfl

@[simp] theorem mapCells_cell (f : Cell ι ρ → Cell ι ρ) (hf) (t : Table ι ρ) (id : ℕ) :
    (t.mapCells f hf).cell id = f (t.cell id) := rfl

/-- A number that has a version of a row has been given out. -/
theorem lt_next_of_cell {t : Table ι ρ} {id : ℕ} (h : t.cell id ≠ .empty) : id < t.next := by
  by_contra hlt
  exact h (t.fresh id (by omega))

/-- Insert a row; its number. -/
def insert (t : Table ι ρ) (w : Option ι) (r : ρ) : ℕ × Table ι ρ :=
  (t.next,
    { next := t.next + 1
      cell := fun k ↦ if k = t.next then Cell.empty.write w r else t.cell k
      fresh := fun k hk ↦ by
        rw [if_neg (by omega)]
        exact t.fresh k (by omega) })

@[simp] theorem insert_fst (t : Table ι ρ) (w : Option ι) (r : ρ) :
    (t.insert w r).1 = t.next := rfl

@[simp] theorem insert_next (t : Table ι ρ) (w : Option ι) (r : ρ) :
    (t.insert w r).2.next = t.next + 1 := rfl

/-- The row that is inserted has the next number. -/
theorem insert_cell_self (t : Table ι ρ) (w : Option ι) (r : ρ) :
    (t.insert w r).2.cell t.next = Cell.empty.write w r := by
  simp [insert]

theorem insert_cell_of_ne (t : Table ι ρ) (w : Option ι) (r : ρ) {id : ℕ} (h : id ≠ t.next) :
    (t.insert w r).2.cell id = t.cell id := by
  simp [insert, h]

section Statements

variable [DecidableEq ι]

/-- The rows a viewer sees, in the order of insertion. -/
def rows (t : Table ι ρ) (w : Option ι) : List (Keyed ρ) :=
  (List.range t.next).filterMap fun id ↦ ((t.cell id).view w).map (Keyed.mk id)

/-- The rows a viewer sees that meet a condition. -/
def select (t : Table ι ρ) (w : Option ι) (p : ρ → Bool) : List (Keyed ρ) :=
  (t.rows w).filter fun r ↦ p r.row

/-- The row numbered `id`, if it meets a condition. -/
def selectId (t : Table ι ρ) (w : Option ι) (id : ℕ) (p : ρ → Bool) : Option ρ :=
  ((t.cell id).view w).filter p

/-- Update the rows of a list that meet a condition; the number of rows updated. The list is what
the statement found when it started. It waits for every row that another transaction has written,
and looks at each row again when it gets to it. -/
def updateMany (t : Table ι ρ) (w : Option ι) (ids : List ℕ) (p : ρ → Bool) (f : ρ → ρ) :
    Option (ℕ × Table ι ρ) :=
  let found := ids.filter fun id ↦ (t.selectId w id p).isSome
  if found.any fun id ↦ (t.cell id).lockedFor w then none
  else some (found.length,
    { next := t.next
      cell := fun k ↦ if k ∈ ids then (t.cell k).update w p f else t.cell k
      fresh := fun k hk ↦ by simp [t.fresh k hk] })

/-- Update one row, by its number, if it meets a condition; whether it did. -/
def updateId (t : Table ι ρ) (w : Option ι) (id : ℕ) (p : ρ → Bool) (f : ρ → ρ) :
    Option (Bool × Table ι ρ) :=
  match t.selectId w id p with
  | none => some (false, t)
  | some r =>
    if (t.cell id).lockedFor w then none
    else some (true,
      { next := t.next
        cell := fun k ↦ if k = id ∧ id < t.next then (t.cell id).write w (f r) else t.cell k
        fresh := fun k hk ↦ by
          rw [if_neg (by omega)]
          exact t.fresh k hk })

/-- Delete one row outside a transaction, if it meets a condition; whether it did. -/
def deleteId (t : Table ι ρ) (id : ℕ) (p : ρ → Bool) : Option (Bool × Table ι ρ) :=
  match t.selectId none id p with
  | none => some (false, t)
  | some _ =>
    if (t.cell id).lockedFor none then none
    else some (true,
      { next := t.next
        cell := fun k ↦ if k = id then Cell.empty else t.cell k
        fresh := fun k hk ↦ by
          by_cases h : k = id
          · rw [if_pos h]
          · rw [if_neg h]; exact t.fresh k hk })

/-- The table without the committed rows that meet a condition on number and row. -/
def deleteWhere (t : Table ι ρ) (p : ℕ → ρ → Bool) : Table ι ρ where
  next := t.next
  cell k := if (t.stored k).any (p k) then .empty else t.cell k
  fresh k hk := by
    split
    · rfl
    · exact t.fresh k hk

/-- Another transaction has written a row that meets the condition: a statement that needs the
condition to be unique has to wait for it. -/
def contended (t : Table ι ρ) (w : Option ι) (p : ρ → Bool) : Bool :=
  (List.range t.next).any fun id ↦
    match (t.cell id).pending with
    | some (j, r) => !decide (some j = w) && p r
    | none => false

/-- Commit transaction `i`. -/
def commit (t : Table ι ρ) (i : ι) : Table ι ρ := t.mapCells (Cell.commit i) (Cell.commit_empty i)

/-- Roll transaction `i` back. -/
def rollback (t : Table ι ρ) (i : ι) : Table ι ρ := t.mapCells (Cell.rollback i) (Cell.rollback_empty i)

@[simp] theorem commit_next (t : Table ι ρ) (i : ι) : (t.commit i).next = t.next := rfl

@[simp] theorem commit_cell (t : Table ι ρ) (i : ι) (id : ℕ) :
    (t.commit i).cell id = (t.cell id).commit i := rfl

@[simp] theorem rollback_next (t : Table ι ρ) (i : ι) : (t.rollback i).next = t.next := rfl

@[simp] theorem rollback_cell (t : Table ι ρ) (i : ι) (id : ℕ) :
    (t.rollback i).cell id = (t.cell id).rollback i := rfl

/-! ### What a viewer reads -/

/-- What a viewer sees of a table is what it sees of the cells. -/
theorem mem_rows {t : Table ι ρ} {w : Option ι} {r : Keyed ρ} :
    r ∈ t.rows w ↔ (t.cell r.id).view w = some r.row := by
  simp only [rows, List.mem_filterMap, List.mem_range, Option.map_eq_some_iff]
  constructor
  · rintro ⟨id, -, x, hx, rfl⟩
    exact hx
  · intro h
    refine ⟨r.id, lt_next_of_cell fun he ↦ ?_, r.row, h, rfl⟩
    rw [he] at h
    simp at h

/-- What is selected are the rows the viewer sees that meet the condition. -/
theorem mem_select {t : Table ι ρ} {w : Option ι} {p : ρ → Bool} {r : Keyed ρ} :
    r ∈ t.select w p ↔ (t.cell r.id).view w = some r.row ∧ p r.row = true := by
  rw [select, List.mem_filter, mem_rows]

/-- A row is found once. -/
theorem nodup_select_ids (t : Table ι ρ) (w : Option ι) (p : ρ → Bool) :
    ((t.select w p).map Keyed.id).Nodup := by
  have hrows : ((t.rows w).map Keyed.id).Nodup := by
    rw [rows, List.map_filterMap]
    refine List.nodup_range.filterMap fun id id' k hk hk' ↦ ?_
    obtain ⟨_, h, rfl⟩ := Option.map_eq_some_iff.1 hk
    obtain ⟨_, h', heq⟩ := Option.map_eq_some_iff.1 hk'
    obtain ⟨r, -, rfl⟩ := Option.map_eq_some_iff.1 h
    obtain ⟨r', -, rfl⟩ := Option.map_eq_some_iff.1 h'
    exact heq.symm
  exact hrows.sublist (List.filter_sublist.map _)

/-- Rows that all have their number on a list are no more than the list has. -/
theorem select_length_le {t : Table ι ρ} {w : Option ι} {p : ρ → Bool} {l : List ℕ}
    (h : ∀ id r, (t.cell id).view w = some r → p r = true → id ∈ l) :
    (t.select w p).length ≤ l.length := by
  rw [← List.length_map Keyed.id]
  refine (List.Nodup.subperm (t.nodup_select_ids w p) fun id hid ↦ ?_).length_le
  obtain ⟨r, hr, rfl⟩ := List.mem_map.1 hid
  obtain ⟨hview, hp⟩ := mem_select.1 hr
  exact h r.id r.row hview hp

/-- A lookup by the number. -/
theorem selectId_eq_some {t : Table ι ρ} {w : Option ι} {id : ℕ} {p : ρ → Bool} {r : ρ} :
    t.selectId w id p = some r ↔ (t.cell id).view w = some r ∧ p r = true := by
  rw [selectId, Option.filter_eq_some_iff]

/-- An insertion adds the row at the end of what the writer sees. -/
theorem rows_insert (t : Table ι ρ) (w : Option ι) (r : ρ) :
    (t.insert w r).2.rows w = t.rows w ++ [⟨t.next, r⟩] := by
  have hold : ∀ id ∈ List.range t.next, (((t.insert w r).2.cell id).view w).map (Keyed.mk id) =
      ((t.cell id).view w).map (Keyed.mk id) := by
    intro id hid
    rw [insert_cell_of_ne t w r (List.mem_range.1 hid).ne]
  rw [rows, insert_next, List.range_succ, List.filterMap_append, List.filterMap_congr hold,
    List.filterMap_cons, insert_cell_self, Cell.view_write]
  rfl

/-- An inserted row comes last, if it is selected. -/
theorem select_insert (t : Table ι ρ) (r : ρ) (p : ρ → Bool) :
    (t.insert none r).2.select none p =
      t.select none p ++ if p r then [⟨t.next, r⟩] else [] := by
  rw [select, rows_insert, List.filter_append, select]
  cases h : p r <;> simp [h]

/-! ### Several insertions -/

/-- Insert rows, one after the other. -/
def insertMany (t : Table ι ρ) (w : Option ι) (rows : List ρ) : Table ι ρ :=
  rows.foldl (fun t r ↦ (t.insert w r).2) t

omit [DecidableEq ι] in
@[simp] theorem insertMany_cons (t : Table ι ρ) (w : Option ι) (r : ρ) (rows : List ρ) :
    t.insertMany w (r :: rows) = (t.insert w r).2.insertMany w rows := rfl

omit [DecidableEq ι] in
/-- Insertions only add numbers. -/
theorem next_le_insertMany (t : Table ι ρ) (w : Option ι) (rows : List ρ) :
    t.next ≤ (t.insertMany w rows).next := by
  induction rows generalizing t with
  | nil => exact le_rfl
  | cons r rows ih => exact (Nat.le_succ _).trans (ih (t.insert w r).2)

omit [DecidableEq ι] in
/-- A row is inserted where there was none. -/
theorem insertMany_cell (t : Table ι ρ) (w : Option ι) (rows : List ρ) (id : ℕ) :
    (t.insertMany w rows).cell id = t.cell id ∨
      t.cell id = .empty ∧ ∃ r ∈ rows, (t.insertMany w rows).cell id = Cell.empty.write w r := by
  induction rows generalizing t with
  | nil => exact .inl rfl
  | cons r rows ih =>
    rw [insertMany_cons]
    by_cases hid : id = t.next
    · subst hid
      have hempty : t.cell t.next = .empty := t.fresh _ le_rfl
      rcases ih (t.insert w r).2 with hsame | ⟨hcell, r', hr', hwritten⟩
      · exact .inr ⟨hempty, r, List.mem_cons_self .., hsame.trans (insert_cell_self t w r)⟩
      · exact .inr ⟨hempty, r', List.mem_cons_of_mem _ hr', hwritten⟩
    · have hother := insert_cell_of_ne t w r hid
      rcases ih (t.insert w r).2 with hsame | ⟨hcell, r', hr', hwritten⟩
      · exact .inl (hsame.trans hother)
      · exact .inr ⟨hother ▸ hcell, r', List.mem_cons_of_mem _ hr', hwritten⟩

/-- The writer sees the rows at the end, in their order. -/
theorem rows_insertMany (t : Table ι ρ) (w : Option ι) (rows : List ρ) :
    ((t.insertMany w rows).rows w).map Keyed.row = (t.rows w).map Keyed.row ++ rows := by
  induction rows generalizing t with
  | nil => simp [insertMany]
  | cons r rows ih => rw [insertMany_cons, ih, rows_insert]; simp

/-! ### What a statement writes

Each statement writes a cell or leaves it alone; what it writes, it was allowed to write. -/

/-- The cell `c'` results from the writer seeing and being allowed to write the row in `c`, which
meets the condition. -/
def Wrote (w : Option ι) (p : ρ → Bool) (f : ρ → ρ) (c c' : Cell ι ρ) : Prop :=
  ∃ r, c.view w = some r ∧ p r = true ∧ c.lockedFor w = false ∧ c' = c.write w (f r)

/-- An update adds no row. -/
theorem updateMany_next {t t' : Table ι ρ} {w : Option ι} {ids : List ℕ} {p : ρ → Bool}
    {f : ρ → ρ} {n : ℕ} (h : t.updateMany w ids p f = some (n, t')) : t'.next = t.next := by
  simp only [updateMany] at h
  split at h
  · cases h
  · cases h
    rfl

/-- An update writes exactly the rows of the list the writer sees that meet the condition. -/
theorem updateMany_cell {t t' : Table ι ρ} {w : Option ι} {ids : List ℕ} {p : ρ → Bool}
    {f : ρ → ρ} {n : ℕ} (h : t.updateMany w ids p f = some (n, t')) (id : ℕ) :
    (t'.cell id = t.cell id ∧ (id ∈ ids → ∀ r, (t.cell id).view w = some r → p r = false)) ∨
      id ∈ ids ∧ Wrote w p f (t.cell id) (t'.cell id) := by
  simp only [updateMany] at h
  split at h
  · cases h
  · next hw =>
    cases h
    by_cases hid : id ∈ ids
    · cases hv : (t.cell id).view w with
      | none => exact .inl ⟨by simp [hid, Cell.update, hv], by simp⟩
      | some r =>
        cases hp : p r with
        | false =>
          exact .inl ⟨by simp [hid, Cell.update, hv, hp],
            fun _ r' hr' ↦ by rw [← Option.some.inj hr', hp]⟩
        | true =>
          refine .inr ⟨hid, r, hv, hp, ?_, by simp [hid, Cell.update, hv, hp]⟩
          by_contra hl
          refine hw (List.any_eq_true.2 ⟨id, List.mem_filter.2 ⟨hid, ?_⟩, by simpa using hl⟩)
          rw [selectId_eq_some.2 ⟨hv, hp⟩]
          rfl
    · exact .inl ⟨by simp [hid], fun h ↦ absurd h hid⟩

/-- What an update by number does, with the three ways it can end: no row meets the condition, or
the row is written. -/
theorem updateId_cases {t t' : Table ι ρ} {w : Option ι} {id : ℕ} {p : ρ → Bool} {f : ρ → ρ}
    {b : Bool} (h : t.updateId w id p f = some (b, t')) :
    (b = false ∧ t' = t ∧ t.selectId w id p = none) ∨
      (b = true ∧ t'.next = t.next ∧ (∀ k, k ≠ id → t'.cell k = t.cell k) ∧
        Wrote w p f (t.cell id) (t'.cell id)) := by
  unfold updateId at h
  split at h
  · next hs =>
    cases h
    exact .inl ⟨rfl, rfl, hs⟩
  · next r hs =>
    rw [selectId_eq_some] at hs
    split at h
    · cases h
    · next hl =>
      cases h
      have hid : id < t.next := lt_next_of_cell fun he ↦ by simp [he] at hs
      refine .inr ⟨rfl, rfl, fun k hk ↦ by simp [hk], r, hs.1, hs.2, by simpa using hl, ?_⟩
      simp [hid]

/-- **A deletion** finds no such row, or empties the cell of one that is not locked. -/
theorem deleteId_cases {t t' : Table ι ρ} {id : ℕ} {p : ρ → Bool} {b : Bool}
    (h : t.deleteId id p = some (b, t')) :
    (b = false ∧ t' = t) ∨
      (b = true ∧ t'.next = t.next ∧ (∀ k, k ≠ id → t'.cell k = t.cell k) ∧
        t'.cell id = .empty ∧ (t.cell id).lockedFor none = false ∧
        ∃ r, (t.cell id).stored = some r ∧ p r = true) := by
  unfold deleteId at h
  split at h
  · cases h
    exact .inl ⟨rfl, rfl⟩
  · next r hs =>
    rw [selectId_eq_some, Cell.view_none] at hs
    split at h
    · cases h
    · next hl =>
      cases h
      exact .inr ⟨rfl, rfl, fun k hk ↦ by simp [hk], by simp, by simpa using hl, r, hs⟩

omit [DecidableEq ι] in
@[simp] theorem deleteWhere_next (t : Table ι ρ) (p : ℕ → ρ → Bool) :
    (t.deleteWhere p).next = t.next := rfl

omit [DecidableEq ι] in
/-- A row is there after a deletion if it was there and does not meet the condition. -/
theorem stored_deleteWhere {t : Table ι ρ} {p : ℕ → ρ → Bool} {id : ℕ} {r : ρ} :
    (t.deleteWhere p).stored id = some r ↔ t.stored id = some r ∧ p id r = false := by
  unfold stored deleteWhere
  cases h : (t.cell id).stored with
  | none => simp [stored, h]
  | some r₀ =>
    cases hp : p id r₀ with
    | false =>
      simp only [stored, h, Option.any_some, hp, Bool.false_eq_true, if_false, Option.some.injEq]
      exact ⟨fun he ↦ ⟨he, he ▸ hp⟩, fun he ↦ he.1⟩
    | true =>
      have hgone : ¬ (r₀ = r ∧ p id r = false) := by
        rintro ⟨rfl, hr⟩
        rw [hp] at hr
        cases hr
      simpa [stored, h, hp, Cell.empty] using hgone

/-- Where an insertion does not wait, what others have written is not in its way. -/
theorem not_contended {t : Table ι ρ} {w : Option ι} {p : ρ → Bool}
    (h : t.contended w p = false) {id : ℕ} {j : ι} {r : ρ}
    (hp : (t.cell id).pending = some (j, r)) (hj : some j ≠ w) : p r = false := by
  have hid : id < t.next := lt_next_of_cell fun he ↦ by simp [he, Cell.empty] at hp
  simp only [contended, List.any_eq_false, List.mem_range] at h
  have := h id hid
  simpa [hp, hj] using this

end Statements

/-! ### Tables no transaction writes -/

section Committed

/-- No open transaction has written a row. -/
def Committed (t : Table ι ρ) : Prop := ∀ id, t.pending id = none

/-- Outside a transaction an insertion is committed at once. -/
theorem Committed.insert {t : Table ι ρ} (h : t.Committed) (r : ρ) :
    (t.insert none r).2.Committed := by
  intro id
  by_cases hid : id = t.next
  · subst hid
    show ((t.insert none r).2.cell t.next).pending = none
    rw [insert_cell_self]
    rfl
  · show ((t.insert none r).2.cell id).pending = none
    rw [insert_cell_of_ne _ _ _ hid]
    exact h id

variable [DecidableEq ι] {t t' : Table ι ρ}

/-- Writing a row outside a transaction commits it. -/
theorem Wrote.committed {p : ρ → Bool} {f : ρ → ρ} {c c' : Cell ι ρ} (hw : Wrote none p f c c')
    (h : c.pending = none) : c'.pending = none := by
  obtain ⟨r, -, -, -, rfl⟩ := hw
  exact h

theorem Committed.updateId (h : t.Committed) {id : ℕ} {p : ρ → Bool} {f : ρ → ρ} {b : Bool}
    (hu : t.updateId none id p f = some (b, t')) : t'.Committed := by
  rcases updateId_cases hu with ⟨-, rfl, -⟩ | ⟨-, -, hothers, hwrote⟩
  · exact h
  · intro k
    by_cases hk : k = id
    · exact hk ▸ hwrote.committed (h id)
    · exact (congrArg Cell.pending (hothers k hk)).trans (h k)

theorem Committed.updateMany (h : t.Committed) {ids : List ℕ} {p : ρ → Bool} {f : ρ → ρ} {n : ℕ}
    (hu : t.updateMany none ids p f = some (n, t')) : t'.Committed := by
  intro k
  rcases updateMany_cell hu k with ⟨hsame, -⟩ | ⟨-, hwrote⟩
  · exact (congrArg Cell.pending hsame).trans (h k)
  · exact hwrote.committed (h k)

/-- An update of a row that is there and meets the condition does not have to wait. -/
theorem Committed.updateId_of_stored (h : t.Committed) {id : ℕ} {p : ρ → Bool} {r : ρ}
    (hr : t.stored id = some r) (hp : p r = true) (f : ρ → ρ) :
    ∃ t', t.updateId none id p f = some (true, t') ∧ t'.stored id = some (f r) ∧
      ∀ k, k ≠ id → t'.stored k = t.stored k := by
  have hview : (t.cell id).view none = some r := (Cell.view_none _).trans hr
  have hfree : (t.cell id).lockedFor none = false := by
    rw [Cell.lockedFor, show (t.cell id).pending = none from h id]
  have hsome : (t.updateId none id p f).isSome := by
    rw [Table.updateId, selectId_eq_some.2 ⟨hview, hp⟩]
    simp [hfree]
  obtain ⟨⟨b, t'⟩, hu⟩ := Option.isSome_iff_exists.1 hsome
  rcases updateId_cases hu with ⟨-, -, hnone⟩ | ⟨rfl, -, hothers, r', hr', -, -, hcell⟩
  · rw [selectId_eq_some.2 ⟨hview, hp⟩] at hnone
    cases hnone
  · obtain rfl := Option.some.inj (hview.symm.trans hr')
    exact ⟨t', hu, congrArg Cell.stored hcell, fun k hk ↦ congrArg Cell.stored (hothers k hk)⟩

end Committed

/-! ### The table of a list of rows -/

section OfList

variable {ι ρ : Type}

/-- The table that the rows of a list have been inserted into, in their order. -/
def ofList (rows : List ρ) : Table ι ρ where
  next := rows.length
  cell := fun id ↦ ⟨rows[id]?, none⟩
  fresh := fun id h ↦ by rw [List.getElem?_eq_none h, Cell.empty]

@[simp] theorem stored_ofList (rows : List ρ) (id : ℕ) :
    (ofList rows : Table ι ρ).stored id = rows[id]? := rfl

end OfList

end Table

end Concurrency
