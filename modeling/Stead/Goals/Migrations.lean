import Stead.Goals.Lifecycle
import Stead.Relational.Rows

/-!
# The goal migrations

`20260802000100_one_active_goal` and `20260907000100_goal_lifecycle_history`, one after the other,
on the goals as the schema before them has them.

## One active goal

The first migration ranks the active goals of a user, the newest first, retires all but the first,
and creates the partial unique index. A goal is newer than another by `createdAt`, then by `id`.
Identifiers are compared as texts, in the order that the collation of the database has, whatever it
is: `text` is any injective map of the identifiers to a linear order. The update makes room for the
index (`retire_oneActive`), so the migration succeeds.

## The history

The second migration adds the columns `status` and `endedAt`. A goal that is active stays so. Of the
others, one that a newer goal of its user follows counts as replaced, at the time of the next newer
one; one without a successor counts as cancelled, at no known time.

## The result

`Migrated` says of a row what it was and what it has become, column by column; `migrated_row` is
that the migrations do so, and `goal_migrations` that they succeed with a table of which the
invariant of `Goals.Lifecycle` holds.
-/

namespace Stead

open Relational

/-- The table `Goal` before the migrations, with its primary key. -/
structure LegacyGoals where
  rows : List Goal
  ids : (rows.map fun g ↦ g.id).Nodup

namespace GoalMigrations

section

variable {τ : Type} [LinearOrder τ] (text : ℕ ↪ τ)

/-! ### The statements -/

/-- The columns of `ORDER BY "createdAt", "id"`. -/
def age (goal : Goal) : ℤ ×ₗ τ := toLex (goal.createdAt, text goal.id)

/-- `ranked_active_goals`: the columns `id` and `active_rank`. -/
def rankedActiveGoals (goals : List Goal) : List (ℕ × ℕ) :=
  let active := goals.filter fun goal ↦ goal.isActive = true
  active.map fun goal ↦ (goal.id, rowNumber (fun g ↦ g.userId) (age text) active goal)

/-- The identifiers of the active goals that are not the first of their user. -/
def duplicates (goals : List Goal) : List ℕ :=
  ((rankedActiveGoals text goals).filter fun ranked ↦ 1 < ranked.2).map Prod.fst

/-- The update of the first migration, on a row. -/
def retire (ids : List ℕ) (goal : Goal) : Goal :=
  if goal.id ∈ ids then { goal with isActive := false } else goal

/-- The first migration: retire the duplicates, then create the index. -/
def oneActiveGoal (goals : List Goal) : Except GoalFailure (List Goal) :=
  createUniqueIndex (fun g ↦ g.userId) (fun g ↦ g.isActive = true) .oneActivePerUser
    (update (fun g ↦ g.id ∈ duplicates text goals) (fun g ↦ { g with isActive := false }) goals)

/-- The condition of the subqueries of the second migration. -/
def Newer (newer goal : Goal) : Prop :=
  newer.userId = goal.userId ∧
    (newer.createdAt > goal.createdAt ∨
      newer.createdAt = goal.createdAt ∧ text newer.id > text goal.id)

instance (newer goal : Goal) : Decidable (Newer text newer goal) :=
  inferInstanceAs (Decidable (_ ∧ _))

/-- The row with the columns that `ALTER TABLE` adds. -/
def addColumns (goal : Goal) : GoalRow := ⟨goal, .active, none⟩

/-- The update of the second migration, on a row that is not active. Its subqueries see the table
before the update. -/
def writeHistory (goals : List GoalRow) (goal : GoalRow) : GoalRow :=
  let newer := goals.filter fun newer ↦ Newer text newer.toGoal goal.toGoal
  { goal with
    status := if newer ≠ [] then .replaced else .cancelled
    endedAt := (newer.map fun newer ↦ newer.createdAt).min? }

/-- The second migration: add the columns, then write the history. -/
def goalLifecycleHistory (goals : List Goal) : List GoalRow :=
  let goals := goals.map addColumns
  update (fun goal ↦ goal.isActive = false) (writeHistory text goals) goals

/-- The two migrations in their order. -/
def migrate (goals : List Goal) : Except GoalFailure (List GoalRow) :=
  (oneActiveGoal text goals).map (goalLifecycleHistory text)

/-! ### Newer goals -/

variable {text} {goal other newer : Goal} {legacy : LegacyGoals}

/-- A goal is newer than another of its user by its age. -/
theorem newer_iff : Newer text newer goal ↔
    newer.userId = goal.userId ∧ age text goal < age text newer := by
  rw [Newer, age, age, Prod.Lex.toLex_lt_toLex]
  simp only [gt_iff_lt, eq_comm]

/-- Who is not older was not created later. -/
theorem createdAt_le (h : age text goal ≤ age text other) : goal.createdAt ≤ other.createdAt :=
  Prod.Lex.monotone_fst _ _ h

omit [LinearOrder τ] in
/-- The primary key makes the order strict. -/
theorem eq_of_age (ha : goal ∈ legacy.rows) (hb : other ∈ legacy.rows)
    (h : age text goal = age text other) : goal = other := by
  have hid : goal.id = other.id := text.injective (congrArg (fun k ↦ (ofLex k).2) h)
  exact List.inj_on_of_nodup_map legacy.ids ha hb hid

variable (text) in
/-- Of two goals of a user one is the newer. -/
theorem newer_or_eq_or_newer (ha : goal ∈ legacy.rows) (hb : other ∈ legacy.rows)
    (huser : goal.userId = other.userId) :
    Newer text goal other ∨ goal = other ∨ Newer text other goal := by
  rcases lt_trichotomy (age text goal) (age text other) with h | h | h
  · exact .inr (.inr (newer_iff.2 ⟨huser.symm, h⟩))
  · exact .inr (.inl (eq_of_age ha hb h))
  · exact .inl (newer_iff.2 ⟨huser, h⟩)

/-! ### The first migration -/

@[simp] theorem retire_id (ids : List ℕ) : (retire ids goal).id = goal.id := by
  unfold retire
  split_ifs <;> rfl

@[simp] theorem retire_userId (ids : List ℕ) : (retire ids goal).userId = goal.userId := by
  unfold retire
  split_ifs <;> rfl

@[simp] theorem retire_createdAt (ids : List ℕ) : (retire ids goal).createdAt = goal.createdAt := by
  unfold retire
  split_ifs <;> rfl

/-- Nothing else than `isActive` changes. -/
theorem retire_columns (ids : List ℕ) : { retire ids goal with isActive := goal.isActive } = goal := by
  unfold retire
  split_ifs <;> rfl

/-- An active goal is switched off if its user has a newer active one. -/
theorem mem_duplicates (hgoal : goal ∈ legacy.rows) : goal.id ∈ duplicates text legacy.rows ↔
    goal.isActive = true ∧
      ∃ other ∈ legacy.rows, other.isActive = true ∧ Newer text other goal := by
  set active := legacy.rows.filter fun g ↦ g.isActive = true with hactive
  have hmem : ∀ g, g ∈ active ↔ g ∈ legacy.rows ∧ g.isActive = true := by simp [hactive]
  have hinj : ∀ a ∈ active, ∀ b ∈ active, age text a = age text b → a = b := fun a ha b hb ↦
    eq_of_age ((hmem a).1 ha).1 ((hmem b).1 hb).1
  have hlisted : goal.id ∈ duplicates text legacy.rows ↔ goal ∈ active ∧
      1 < rowNumber (fun g ↦ g.userId) (age text) active goal := by
    simp only [duplicates, rankedActiveGoals, ← hactive, List.mem_map, List.mem_filter,
      decide_eq_true_eq, Prod.exists, exists_and_right, exists_eq_right, Prod.mk.injEq]
    constructor
    · rintro ⟨rank, ⟨g, hg, hid, rfl⟩, hrank⟩
      obtain rfl := List.inj_on_of_nodup_map legacy.ids ((hmem g).1 hg).1 hgoal hid
      exact ⟨hg, hrank⟩
    · rintro ⟨hg, hrank⟩
      exact ⟨_, ⟨goal, hg, rfl, rfl⟩, hrank⟩
  rw [hlisted, hmem, and_iff_right hgoal]
  refine and_congr_right fun hon ↦ ?_
  rw [one_lt_rowNumber_iff hinj ((hmem goal).2 ⟨hgoal, hon⟩)]
  simp only [hmem, newer_iff, and_assoc]

variable (text) in
/-- A goal is active after the first migration if it was and is the newest that was. -/
theorem retire_isActive (hgoal : goal ∈ legacy.rows) :
    (retire (duplicates text legacy.rows) goal).isActive = true ↔
      goal.isActive = true ∧
        ∀ other ∈ legacy.rows, other.isActive = true → ¬ Newer text other goal := by
  unfold retire
  split_ifs with h
  · obtain ⟨_, other, hother, hon, hnewer⟩ := (mem_duplicates hgoal).1 h
    simp only [false_iff, not_and, not_forall, not_not]
    exact fun _ ↦ ⟨other, hother, hon, hnewer⟩
  · rw [mem_duplicates hgoal] at h
    refine ⟨fun hon ↦ ⟨hon, fun other hother hother' hnewer ↦ ?_⟩, fun hon ↦ hon.1⟩
    exact h ⟨hon, other, hother, hother', hnewer⟩

variable (text) in
/-- A user with an active goal has a newest one, and that stays active. -/
theorem exists_kept (hgoal : goal ∈ legacy.rows) (hon : goal.isActive = true) :
    ∃ kept ∈ legacy.rows, kept.userId = goal.userId ∧
      (retire (duplicates text legacy.rows) kept).isActive = true := by
  set active := legacy.rows.filter fun g ↦ g.userId = goal.userId ∧ g.isActive = true with hactive
  have hmem : ∀ g, g ∈ active ↔ g ∈ legacy.rows ∧ g.userId = goal.userId ∧ g.isActive = true := by
    simp [hactive]
  obtain ⟨kept, hkept, hgreatest⟩ := exists_least (fun g ↦ OrderDual.toDual (age text g))
    (List.ne_nil_of_mem ((hmem goal).2 ⟨hgoal, rfl, hon⟩))
  obtain ⟨hin, huser, hkeptOn⟩ := (hmem kept).1 hkept
  refine ⟨kept, hin, huser, (retire_isActive text hin).2 ⟨hkeptOn, fun other hother hotherOn h ↦ ?_⟩⟩
  have hle := hgreatest other ((hmem other).2 ⟨hother, h.1.trans huser, hotherOn⟩)
  exact absurd (newer_iff.1 h).2 (OrderDual.toDual_le_toDual.1 hle).not_gt

/-- **Room for the index**: one active goal of a user at most is left. -/
theorem retire_oneActive : Indexed (fun g ↦ g.userId) (fun g ↦ g.isActive = true)
    (legacy.rows.map (retire (duplicates text legacy.rows))) := by
  refine indexed_of_forall (fun g ↦ g.id) ?_ ?_
  · simpa [Function.comp_def] using legacy.ids
  · simp only [List.forall_mem_map, retire_userId, retire_id]
    intro a ha b hb huser hon hbon
    obtain ⟨hon, hnewest⟩ := (retire_isActive text ha).1 hon
    obtain ⟨hbon, hbnewest⟩ := (retire_isActive text hb).1 hbon
    rcases newer_or_eq_or_newer text ha hb huser with h | rfl | h
    · exact absurd h (hbnewest a ha hon)
    · rfl
    · exact absurd h (hnewest b hb hbon)

/-- The update makes room for the index. -/
theorem oneActiveGoal_ok (legacy : LegacyGoals) : oneActiveGoal text legacy.rows =
    .ok (legacy.rows.map (retire (duplicates text legacy.rows))) :=
  createUniqueIndex_of_indexed retire_oneActive

/-! ### The second migration -/

/-- Retiring goals keeps their order. -/
theorem newer_retire (ids : List ℕ) :
    Newer text (retire ids newer) (retire ids goal) ↔ Newer text newer goal := by
  simp [Newer]

variable (text) in
/-- What the subquery of `endedAt` selects. -/
theorem map_createdAt_newer (ids : List ℕ) (goals : List Goal) (goal : Goal) :
    ((((goals.map (retire ids)).map addColumns).filter fun newer ↦
        Newer text newer.toGoal (addColumns (retire ids goal)).toGoal).map fun g ↦ g.createdAt) =
      (goals.filter fun newer ↦ Newer text newer goal).map fun g ↦ g.createdAt := by
  simp [List.filter_map, Function.comp_def, addColumns, newer_retire]

/-- The history of a goal, in terms of the legacy table. -/
theorem writeHistory_eq (ids : List ℕ) (goals : List Goal) (goal : Goal) :
    writeHistory text ((goals.map (retire ids)).map addColumns) (addColumns (retire ids goal)) =
      ⟨retire ids goal, if ∃ other ∈ goals, Newer text other goal then .replaced else .cancelled,
        ((goals.filter fun newer ↦ Newer text newer goal).map fun g ↦ g.createdAt).min?⟩ := by
  have hselected := map_createdAt_newer text ids goals goal
  have hsome : (((goals.map (retire ids)).map addColumns).filter fun newer ↦
      Newer text newer.toGoal (addColumns (retire ids goal)).toGoal) ≠ [] ↔
        ∃ other ∈ goals, Newer text other goal := by
    rw [Ne, ← List.map_eq_nil_iff (f := fun g : GoalRow ↦ g.createdAt), hselected,
      List.map_eq_nil_iff, List.filter_eq_nil_iff]
    simp
  simp only [writeHistory, hselected, hsome]
  rfl

/-- The goal of the same user that follows a goal: none comes between the two. -/
structure Successor (text : ℕ ↪ τ) (goals : List Goal) (goal successor : Goal) : Prop where
  mem : successor ∈ goals
  newer : Newer text successor goal
  first : ∀ other ∈ goals, Newer text other goal → other = successor ∨ Newer text other successor

/-- A goal that has a newer one has a successor, and the least time is the successor's. -/
theorem exists_successor (goal : Goal) (h : ∃ other ∈ legacy.rows, Newer text other goal) :
    ∃ successor, Successor text legacy.rows goal successor ∧
      ((legacy.rows.filter fun newer ↦ Newer text newer goal).map fun g ↦ g.createdAt).min? =
        some successor.createdAt := by
  set newer := legacy.rows.filter fun newer ↦ Newer text newer goal with hnewer
  have hmem : ∀ g, g ∈ newer ↔ g ∈ legacy.rows ∧ Newer text g goal := by simp [hnewer]
  obtain ⟨other, hother, hnew⟩ := h
  obtain ⟨successor, hsuccessor, hleast⟩ := exists_least (age text)
    (List.ne_nil_of_mem ((hmem other).2 ⟨hother, hnew⟩))
  obtain ⟨hin, hnewer⟩ := (hmem successor).1 hsuccessor
  refine ⟨successor, ⟨hin, hnewer, fun g hg hnew ↦ ?_⟩,
    min?_above (fun a _ b _ hab ↦ createdAt_le hab) hsuccessor hleast⟩
  rcases newer_or_eq_or_newer text hg hin (hnew.1.trans hnewer.1.symm) with h | h | h
  · exact .inr h
  · exact .inl h
  · exact absurd (newer_iff.1 h).2 (hleast g ((hmem g).2 ⟨hg, hnew⟩)).not_gt

/-! ### Both migrations -/

/-- What the migrations make of a goal of the legacy table. -/
structure Migrated (text : ℕ ↪ τ) (goals : List Goal) (old : Goal) (new : GoalRow) : Prop where
  /-- The columns of before are as they were, `isActive` apart. -/
  columns : { new.toGoal with isActive := old.isActive } = old
  isActive : new.isActive = true ↔ old.isActive = true ∧
    ∀ other ∈ goals, other.isActive = true → ¬ Newer text other old
  status : new.isActive = true ↔ new.status = .active
  replaced : new.isActive = false → (∃ other ∈ goals, Newer text other old) →
    new.status = .replaced ∧
      ∃ successor, Successor text goals old successor ∧ new.endedAt = some successor.createdAt
  cancelled : new.isActive = false → (¬ ∃ other ∈ goals, Newer text other old) →
    new.status = .cancelled ∧ new.endedAt = none

/-- The row that the migrations make of a goal. -/
def migratedRow (text : ℕ ↪ τ) (goals : List Goal) (goal : Goal) : GoalRow :=
  let ids := duplicates text goals
  if (retire ids goal).isActive = false then
    writeHistory text ((goals.map (retire ids)).map addColumns) (addColumns (retire ids goal))
  else addColumns (retire ids goal)

/-- The history is written into the new columns. -/
@[simp] theorem migratedRow_toGoal (goals : List Goal) (goal : Goal) :
    (migratedRow text goals goal).toGoal = retire (duplicates text goals) goal := by
  simp only [migratedRow]
  split_ifs <;> rfl

/-- The two migrations, row by row. -/
theorem migrate_eq (legacy : LegacyGoals) :
    migrate text legacy.rows = .ok (legacy.rows.map (migratedRow text legacy.rows)) := by
  have hmap : ∀ goals : List Goal, goalLifecycleHistory text goals = goals.map fun g ↦
      if g.isActive = false then writeHistory text (goals.map addColumns) (addColumns g)
      else addColumns g := fun goals ↦ List.map_map
  rw [migrate, oneActiveGoal_ok, Except.map, hmap, List.map_map]
  rfl

/-- Each row becomes what `Migrated` says. -/
theorem migrated_row (hgoal : goal ∈ legacy.rows) :
    Migrated text legacy.rows goal (migratedRow text legacy.rows goal) := by
  set ids := duplicates text legacy.rows with hids
  have hactive := hids ▸ retire_isActive text hgoal
  rw [migratedRow]
  simp only [← hids]
  split_ifs with hoff
  · rw [writeHistory_eq]
    have hon : ¬ (goal.isActive = true ∧
        ∀ other ∈ legacy.rows, other.isActive = true → ¬ Newer text other goal) := by
      rw [← hactive, hoff]
      exact Bool.false_ne_true
    refine ⟨retire_columns ids, by simpa only [hoff, Bool.false_eq_true, false_iff] using hon, ?_,
      fun _ hnewer ↦ ?_, fun _ hnewest ↦ ?_⟩
    · refine iff_of_false (Bool.eq_false_iff.1 hoff) ?_
      change ¬ (if _ then _ else _) = _
      split <;> decide
    · obtain ⟨successor, hsuccessor, hmin⟩ := exists_successor goal hnewer
      exact ⟨if_pos hnewer, successor, hsuccessor, hmin⟩
    · refine ⟨if_neg hnewest, ?_⟩
      have hnone : (legacy.rows.filter fun newer ↦ Newer text newer goal) = [] := by
        simpa [List.filter_eq_nil_iff] using hnewest
      simp only [hnone, List.map_nil, List.min?_nil]
  · rw [Bool.not_eq_false] at hoff
    have hfalse : ∀ {P : Prop}, (addColumns (retire ids goal)).isActive = false → P :=
      fun h ↦ absurd (hoff.symm.trans h) (by decide)
    exact ⟨retire_columns ids, hactive, iff_of_true hoff rfl, fun h ↦ hfalse h, fun h ↦ hfalse h⟩

/-- **The goal migrations.** On every legacy table both migrations run through, and a row is there
for every row that was, with the columns it had. A goal is active after them if it is the newest of
those of its user that were active, so that a user who had an active goal has one and no other; a
goal is active just if its status says so. A goal that is not active is replaced by the goal that
follows it, and has ended when that was created, or is cancelled where none follows. -/
theorem goal_migrations (text : ℕ ↪ τ) (legacy : LegacyGoals) : ∃ goals,
    migrate text legacy.rows = .ok goals ∧
      List.Forall₂ (Migrated text legacy.rows) legacy.rows goals ∧
      GoalsService.GoalsIndexed goals ∧
      ∀ goal ∈ legacy.rows, goal.isActive = true →
        ∃ kept ∈ goals, kept.userId = goal.userId ∧ kept.isActive = true := by
  refine ⟨_, migrate_eq legacy, ?_, ⟨?_, ?_⟩, fun goal hgoal hon ↦ ?_⟩
  · rw [List.forall₂_map_right_iff, List.forall₂_same]
    exact fun goal hgoal ↦ migrated_row hgoal
  · simpa [Function.comp_def] using legacy.ids
  · have hone : (legacy.rows.map (retire (duplicates text legacy.rows))).Pairwise fun a b ↦
        ¬ (a.userId = b.userId ∧ a.isActive = true ∧ b.isActive = true) := retire_oneActive
    rw [List.pairwise_map] at hone
    rw [GoalsService.oneActive, List.pairwise_map]
    simpa only [migratedRow_toGoal] using hone
  · obtain ⟨kept, hkept, huser, hstays⟩ := exists_kept text hgoal hon
    refine ⟨_, List.mem_map_of_mem hkept, ?_, ?_⟩
    · simpa only [migratedRow_toGoal, retire_userId] using huser
    · simpa only [migratedRow_toGoal] using hstays

end

end GoalMigrations

end Stead
