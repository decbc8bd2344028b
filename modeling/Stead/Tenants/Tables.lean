import Stead.Collections.Owners
import Stead.Tenants.Services

/-!
# What an operation does to the shared tables

Every operation on goals or transactions looks its rows up with their owner, so its outcome on the
rows of the user alone is its outcome on the whole tables, cut down to those rows (`create_owned`,
`update_owned`, `end_owned`). And what it writes is a row of the user: goals are rewritten in place
and added at the end (`Rewrites`).

## Calls in closed form

On a sound table the partial unique index refuses nothing, so each of the three calls is its checks
and then one rewriting of the list (`create_ok`, `update_eq`, `end_eq`). A rewriting that is of rows
of one user commutes with the selection of that user's rows (`goalsOf_replaceWhere` and its like),
which is all that the results need.

An update writes the row by its identifier alone. That it is a row of the user follows from the
lookup, since identifiers are unique (`userId_of_id`).
-/

namespace Stead

open Collections

namespace GoalsService

variable {goals goals' : List GoalRow} {userId goalId : ℕ} {now : ℤ}

/-- The goals of a user. -/
abbrev goalsOf (userId : ℕ) (goals : List GoalRow) : List GoalRow :=
  ownedBy (fun g : GoalRow ↦ g.userId) userId goals

/-- The goals of a user are sound. -/
theorem GoalsSound.owned (h : GoalsSound goals) (userId : ℕ) : GoalsSound (goalsOf userId goals) where
  ids := h.ids.sublist ((ownedBy_sublist _).map _)
  agrees g hg := h.agrees g ((mem_ownedBy _).1 hg).1
  oneActive := h.oneActive.sublist (ownedBy_sublist _)

/-- The goals are rewritten in place, those of other users not at all, and goals of the user may be
added. -/
structure Rewrites (userId : ℕ) (goals added goals' : List GoalRow) : Prop where
  rows : ∃ f : GoalRow → GoalRow, goals' = goals.map f ++ added ∧ (∀ g, (f g).id = g.id) ∧
    (∀ g, (f g).userId = g.userId) ∧ ∀ g ∈ goals, g.userId ≠ userId → f g = g
  added : ∀ g ∈ added, g.userId = userId

theorem Rewrites.refl : Rewrites userId goals [] goals :=
  ⟨⟨fun g ↦ g, by simp, fun _ ↦ rfl, fun _ ↦ rfl, fun _ _ _ ↦ rfl⟩, fun _ hg ↦ absurd hg List.not_mem_nil⟩

/-- The goals of others are as they were. -/
theorem Rewrites.others {added : List GoalRow} (h : Rewrites userId goals added goals') {b : ℕ}
    (hb : b ≠ userId) : goalsOf b goals' = goalsOf b goals := by
  obtain ⟨f, rfl, -, huser, hother⟩ := h.rows
  rw [goalsOf, ownedBy_append, ownedBy_other _ h.added hb, List.append_nil]
  exact ownedBy_map_other _ huser fun g hg hgb ↦ hother g hg (hgb ▸ hb)

theorem Rewrites.kept {added : List GoalRow} (h : Rewrites userId goals added goals') {g : GoalRow}
    (hg : g ∈ goals) : ∃ g' ∈ goals', g'.id = g.id ∧ g'.userId = g.userId := by
  obtain ⟨f, rfl, hid, huser, -⟩ := h.rows
  exact ⟨f g, List.mem_append_left _ (List.mem_map_of_mem hg), hid g, huser g⟩

theorem Rewrites.ids {added : List GoalRow} (h : Rewrites userId goals added goals') {g : GoalRow}
    (hg : g ∈ goals') : (∃ g₀ ∈ goals, g₀.id = g.id) ∨ g ∈ added := by
  obtain ⟨f, rfl, hid, -⟩ := h.rows
  rcases List.mem_append.1 hg with hg | hg
  · obtain ⟨g₀, hg₀, rfl⟩ := List.mem_map.1 hg
    exact .inl ⟨g₀, hg₀, (hid g₀).symm⟩
  · exact .inr hg

/-- Rewriting twice is rewriting. -/
theorem Rewrites.trans {added goals'' : List GoalRow} (h : Rewrites userId goals [] goals')
    (h' : Rewrites userId goals' added goals'') : Rewrites userId goals added goals'' := by
  obtain ⟨f, rfl, hid, huser, hother⟩ := h.rows
  obtain ⟨f', rfl, hid', huser', hother'⟩ := h'.rows
  refine ⟨⟨f' ∘ f, by simp, fun g ↦ (hid' _).trans (hid g), fun g ↦ (huser' _).trans (huser g),
    fun g hg hne ↦ ?_⟩, h'.added⟩
  rw [Function.comp_apply, hother g hg hne]
  exact hother' g (List.mem_append_left _ (hother g hg hne ▸ List.mem_map_of_mem hg)) hne

theorem rewrites_replaceWhere {p : GoalRow → Bool} (hp : ∀ g, p g = true → g.userId = userId) :
    Rewrites userId goals [] (replaceWhere p now goals) := by
  refine ⟨⟨_, (List.append_nil _).symm, fun g ↦ ?_, fun g ↦ ?_, fun g _ hne ↦ ?_⟩,
    fun _ hg ↦ absurd hg List.not_mem_nil⟩
  · split <;> rfl
  · split <;> rfl
  · exact if_neg fun hpg ↦ hne (hp g hpg)

theorem goalsOf_replaceWhere {p : GoalRow → Bool} :
    goalsOf userId (replaceWhere p now goals) = replaceWhere p now (goalsOf userId goals) := by
  refine ownedBy_map _ fun g ↦ ?_
  split <;> rfl

/-- The index refuses nothing. -/
theorem indexed_ok (h : oneActive goals) : indexed goals = .ok goals := if_pos h

/-! ### Creating -/

/-- A goal is created where its identifier is free. -/
theorem create_ok (h : GoalsSound goals) {dto : CreateGoalDto} {id : ℕ}
    (hfree : ∀ g ∈ goals, g.id ≠ id) : create userId dto id now goals =
      .ok (newGoal userId id now dto,
        replaceWhere (fun g ↦ g.userId = userId && g.isActive) now goals ++
          [newGoal userId id now dto]) := by
  have hreplaced := h.replaceWhere now fun g ↦ g.userId = userId && g.isActive
  have hids : ∀ g ∈ replaceWhere (fun g ↦ g.userId = userId && g.isActive) now goals, g.id ≠ id := by
    intro g hg
    obtain ⟨g₀, hg₀, rfl⟩ := List.mem_map.1 hg
    split <;> exact hfree g₀ hg₀
  have hinsert : insertGoal (newGoal userId id now dto)
      (replaceWhere (fun g ↦ g.userId = userId && g.isActive) now goals) =
        .ok (replaceWhere (fun g ↦ g.userId = userId && g.isActive) now goals ++
          [newGoal userId id now dto]) := by
    have hfree' : ¬ (replaceWhere (fun g ↦ g.userId = userId && g.isActive) now goals).any
        (fun g ↦ g.id = (newGoal userId id now dto).id) = true := by
      rw [List.any_eq_true]
      rintro ⟨g, hg, hid⟩
      exact hids g hg (of_decide_eq_true hid)
    rw [insertGoal, if_neg hfree']
    exact indexed_ok (h.insertNew hfree).oneActive
  rw [create, indexed_bind hreplaced.oneActive]
  simp only [hinsert]
  rfl

/-- **Creating a goal**, on the user's rows alone. -/
theorem create_owned (h : GoalsSound goals) {dto : CreateGoalDto} {id : ℕ}
    (hfree : ∀ g ∈ goals, g.id ≠ id) : create userId dto id now (goalsOf userId goals) =
      (create userId dto id now goals).map fun out ↦ (out.1, goalsOf userId out.2) := by
  rw [create_ok h hfree, create_ok (h.owned userId) fun g hg ↦ hfree g ((mem_ownedBy _).1 hg).1]
  have hnew : ∀ g ∈ [newGoal userId id now dto], g.userId = userId := by
    intro g hg
    rw [List.mem_singleton.1 hg]
    rfl
  refine congrArg Except.ok (Prod.ext rfl ?_)
  show _ = ownedBy _ userId (_ ++ _)
  rw [ownedBy_append, ownedBy_self _ hnew]
  exact congrArg (· ++ _) goalsOf_replaceWhere.symm

/-- A goal is added, and the user's others are rewritten. -/
theorem create_rewrites (h : GoalsSound goals) {dto : CreateGoalDto} {id : ℕ}
    (hfree : ∀ g ∈ goals, g.id ≠ id) {goal : GoalRow}
    (hcreate : create userId dto id now goals = .ok (goal, goals')) :
    Rewrites userId goals [newGoal userId id now dto] goals' := by
  rw [create_ok h hfree] at hcreate
  cases hcreate
  refine (rewrites_replaceWhere fun g hg ↦ ?_).trans ⟨⟨fun g ↦ g, by rw [List.map_id'],
    fun _ ↦ rfl, fun _ ↦ rfl, fun _ _ _ ↦ rfl⟩, fun g hg ↦ ?_⟩
  · rw [Bool.and_eq_true, decide_eq_true_iff] at hg
    exact hg.1
  · rw [List.mem_singleton.1 hg]
    rfl

/-! ### Updating and ending -/

theorem owned_userId {goal : GoalRow} (h : owned goalId userId goal = true) :
    goal.userId = userId := (owned_iff.1 h).2

/-- The goal with a number is looked up with its owner, where all goals with the number are the
user's. -/
theorem find?_id (h : ∀ g ∈ goals, g.id = goalId → g.userId = userId) :
    (goals.find? fun g ↦ g.id = goalId) = goals.find? (owned goalId userId) := by
  rw [← List.head?_filter, ← List.head?_filter]
  congr 1
  refine List.filter_congr fun g hg ↦ ?_
  by_cases hid : g.id = goalId
  · simp [owned, hid, h g hg hid]
  · simp [owned, hid]

/-- The rows before the row itself is updated. -/
def cleared (userId goalId : ℕ) (dto : UpdateGoalDto) (now : ℤ) (goals : List GoalRow) :
    List GoalRow :=
  if dto.isActive = some true then
    replaceWhere (fun g ↦ g.userId = userId && g.isActive && g.id ≠ goalId) now goals
  else goals

theorem rewrites_cleared (dto : UpdateGoalDto) :
    Rewrites userId goals [] (cleared userId goalId dto now goals) := by
  unfold cleared
  split
  · refine rewrites_replaceWhere fun g hg ↦ ?_
    simp only [Bool.and_eq_true, decide_eq_true_iff] at hg
    exact hg.1.1
  · exact .refl

theorem goalsOf_cleared (dto : UpdateGoalDto) : goalsOf userId (cleared userId goalId dto now goals) =
    cleared userId goalId dto now (goalsOf userId goals) := by
  unfold cleared
  split
  · exact goalsOf_replaceWhere
  · rfl

/-- The index accepts both statements of an update. -/
theorem indexed_updated (now : ℤ) (h : GoalsIndexed goals) (dto : UpdateGoalDto)
    {existing : GoalRow} (hexisting : existing ∈ goals) :
    GoalsIndexed (cleared existing.userId existing.id dto now goals) ∧
      GoalsIndexed (updateRow existing.id (applyUpdate dto existing now)
        (cleared existing.userId existing.id dto now goals)) := by
  unfold cleared
  split
  · next hset =>
    have hreplaced := h.replaceWhere now
      fun g ↦ g.userId = existing.userId && g.isActive && g.id ≠ existing.id
    refine ⟨hreplaced, hreplaced.updateRow now (List.mem_map.2 ⟨existing, hexisting, by simp⟩)
      fun _ g hg huser hact ↦ ?_⟩
    have hleft := (mem_replaceWhere hg hact).2
    simpa [huser, hact] using hleft
  · next hset => exact ⟨h, h.updateRow now hexisting fun hset' ↦ absurd hset' hset⟩

/-- The goals with the number of a goal of the user are the user's, also after updates. -/
theorem userId_of_id (h : GoalsIndexed goals) {existing : GoalRow} (hexisting : existing ∈ goals)
    {added : List GoalRow} (hrewrites : Rewrites userId goals added goals')
    (hadded : ∀ g ∈ added, g.userId = existing.userId) : ∀ g ∈ goals', g.id = existing.id →
      g.userId = existing.userId := by
  obtain ⟨f, rfl, hid, huser, -⟩ := hrewrites.rows
  intro g hg hgid
  rcases List.mem_append.1 hg with hg | hg
  · obtain ⟨g₀, hg₀, rfl⟩ := List.mem_map.1 hg
    rw [huser, goal_ext h.ids hg₀ hexisting ((hid g₀).symm.trans hgid)]
  · exact hadded g hg

theorem rewrites_updateRow {existing : GoalRow} (dto : UpdateGoalDto)
    (h : ∀ g ∈ goals, g.id = goalId → g.userId = userId) :
    Rewrites userId goals [] (updateRow goalId (applyUpdate dto existing now) goals) := by
  refine ⟨⟨_, (List.append_nil _).symm, fun g ↦ ?_, fun g ↦ ?_, fun g hg hne ↦ ?_⟩,
    fun _ hg ↦ absurd hg List.not_mem_nil⟩
  · split <;> rfl
  · split <;> rfl
  · exact if_neg fun hid ↦ hne (h g hg hid)

/-- **An update** rewrites the goal and, to make it the active one, those that were. -/
theorem rewrites_updated (h : GoalsIndexed goals) (dto : UpdateGoalDto) {existing : GoalRow}
    (hexisting : existing ∈ goals) : Rewrites existing.userId goals []
      (updateRow existing.id (applyUpdate dto existing now)
        (cleared existing.userId existing.id dto now goals)) :=
  (rewrites_cleared dto).trans (rewrites_updateRow dto
    (userId_of_id h hexisting (rewrites_cleared dto) fun _ hg ↦ absurd hg List.not_mem_nil))

theorem goalsOf_updateRow (dto : UpdateGoalDto) (existing : GoalRow) :
    goalsOf userId (updateRow goalId (applyUpdate dto existing now) goals) =
      updateRow goalId (applyUpdate dto existing now) (goalsOf userId goals) := by
  refine ownedBy_map _ fun g ↦ ?_
  split <;> rfl

theorem find?_owned : (goalsOf userId goals).find? (owned goalId userId) =
    goals.find? (owned goalId userId) :=
  find?_ownedBy _ fun _ ↦ owned_userId

/-- The update of a goal, without the index. -/
theorem update_eq (h : GoalsIndexed goals) (dto : UpdateGoalDto) :
    update userId goalId dto now goals =
      match goals.find? (owned goalId userId) with
      | none => .error (.notFound "Goal not found")
      | some existing =>
        match (updateRow goalId (applyUpdate dto existing now)
            (cleared userId goalId dto now goals)).find? (owned goalId userId) with
        | none => .error (.notFound "Goal not found")
        | some goal => .ok (goal, updateRow goalId (applyUpdate dto existing now)
            (cleared userId goalId dto now goals)) := by
  unfold update
  cases hfind : goals.find? (owned goalId userId) with
  | none => rfl
  | some existing =>
    have hexisting := List.mem_of_find?_eq_some hfind
    obtain ⟨rfl, rfl⟩ := owned_iff.1 (List.find?_some hfind)
    obtain ⟨hcleared, hupdated⟩ := indexed_updated now h dto hexisting
    have hids : ∀ g ∈ updateRow existing.id (applyUpdate dto existing now)
        (cleared existing.userId existing.id dto now goals), g.id = existing.id →
          g.userId = existing.userId :=
      userId_of_id h hexisting (rewrites_updated h dto hexisting) fun _ hg ↦
        absurd hg List.not_mem_nil
    simp only
    rw [← find?_id hids]
    split
    · next hset =>
      have hbase : cleared existing.userId existing.id dto now goals = replaceWhere
          (fun g ↦ g.userId = existing.userId && g.isActive && g.id ≠ existing.id) now goals :=
        if_pos hset
      rw [hbase] at hcleared hupdated ⊢
      rw [indexed_bind hcleared.oneActive, indexed_bind hupdated.oneActive]
      rfl
    · next hset =>
      have hbase : cleared existing.userId existing.id dto now goals = goals := if_neg hset
      rw [hbase] at hupdated ⊢
      show (indexed _ >>= _) = _
      rw [indexed_bind hupdated.oneActive]
      rfl

/-- The row that is updated is not among those that are cleared for it. -/
theorem mem_cleared {existing : GoalRow} (hexisting : existing ∈ goals) (dto : UpdateGoalDto) :
    existing ∈ cleared userId existing.id dto now goals := by
  unfold cleared
  split
  · exact List.mem_map.2 ⟨existing, hexisting, by simp⟩
  · exact hexisting

/-- **The update of a goal of the user** succeeds. -/
theorem update_ok (h : GoalsIndexed goals) (dto : UpdateGoalDto) {existing : GoalRow}
    (hfind : goals.find? (owned goalId userId) = some existing) :
    applyUpdate dto existing now existing ∈ updateRow goalId (applyUpdate dto existing now)
        (cleared userId goalId dto now goals) ∧
      update userId goalId dto now goals = .ok (applyUpdate dto existing now existing,
        updateRow goalId (applyUpdate dto existing now) (cleared userId goalId dto now goals)) := by
  have hexisting := List.mem_of_find?_eq_some hfind
  obtain ⟨rfl, rfl⟩ := owned_iff.1 (List.find?_some hfind)
  have hmem : applyUpdate dto existing now existing ∈ updateRow existing.id
      (applyUpdate dto existing now) (cleared existing.userId existing.id dto now goals) :=
    List.mem_map.2 ⟨existing, mem_cleared hexisting dto, if_pos rfl⟩
  have hupdated := (indexed_updated now h dto hexisting).2
  have hfound : (updateRow existing.id (applyUpdate dto existing now)
      (cleared existing.userId existing.id dto now goals)).find?
        (owned existing.id existing.userId) = some (applyUpdate dto existing now existing) := by
    cases hfound : (updateRow existing.id (applyUpdate dto existing now)
        (cleared existing.userId existing.id dto now goals)).find?
          (owned existing.id existing.userId) with
    | none =>
      have howned : owned existing.id existing.userId (applyUpdate dto existing now existing) =
          true := owned_iff.2 ⟨rfl, rfl⟩
      exact absurd howned (List.find?_eq_none.1 hfound _ hmem)
    | some goal =>
      have hid : goal.id = existing.id := (owned_iff.1 (List.find?_some hfound)).1
      rw [goal_ext hupdated.ids (List.mem_of_find?_eq_some hfound) hmem hid]
  refine ⟨hmem, ?_⟩
  rw [update_eq h, hfind]
  simp only [hfound]

/-- **Updating a goal**, on the user's rows alone. -/
theorem update_owned (h : GoalsSound goals) (dto : UpdateGoalDto) :
    update userId goalId dto now (goalsOf userId goals) =
      (update userId goalId dto now goals).map fun out ↦ (out.1, goalsOf userId out.2) := by
  rw [update_eq h.indexed, update_eq (h.owned userId).indexed, find?_owned]
  cases goals.find? (owned goalId userId) with
  | none => rfl
  | some existing =>
    simp only [← goalsOf_cleared, ← goalsOf_updateRow, find?_owned]
    split <;> rfl

theorem update_rewrites (h : GoalsSound goals) {dto : UpdateGoalDto} {goal : GoalRow}
    (hupdate : update userId goalId dto now goals = .ok (goal, goals')) :
    Rewrites userId goals [] goals' := by
  rw [update_eq h.indexed] at hupdate
  cases hfind : goals.find? (owned goalId userId) with
  | none =>
    rw [hfind] at hupdate
    cases hupdate
  | some existing =>
    have hexisting := List.mem_of_find?_eq_some hfind
    obtain ⟨rfl, rfl⟩ := owned_iff.1 (List.find?_some hfind)
    simp only [hfind] at hupdate
    split at hupdate
    · cases hupdate
    · cases hupdate
      exact rewrites_updated h.indexed dto hexisting

/-- The rows after `end`. -/
def ended (userId goalId : ℕ) (status : EndStatus) (now : ℤ) (goals : List GoalRow) :
    List GoalRow :=
  goals.map fun goal ↦
    if endable goalId userId goal then
      { goal with isActive := false, status := status.status, endedAt := some now }
    else goal

theorem rewrites_ended (status : EndStatus) :
    Rewrites userId goals [] (ended userId goalId status now goals) := by
  refine ⟨⟨_, (List.append_nil _).symm, fun g ↦ ?_, fun g ↦ ?_, fun g hg hne ↦ ?_⟩,
    fun _ hg ↦ absurd hg List.not_mem_nil⟩
  · split <;> rfl
  · split <;> rfl
  · refine if_neg fun hend ↦ hne ?_
    simp only [endable, Bool.and_eq_true] at hend
    exact owned_userId hend.1.1

theorem goalsOf_ended (status : EndStatus) : goalsOf userId (ended userId goalId status now goals) =
    ended userId goalId status now (goalsOf userId goals) := by
  refine ownedBy_map _ fun g ↦ ?_
  split <;> rfl

/-- The end of a goal, without the index. -/
theorem end_eq (h : GoalsSound goals) (status : EndStatus) :
    end_ userId goalId status now goals =
      match goals.find? (owned goalId userId) with
      | none => .error (.notFound "Goal not found")
      | some existing =>
        if !existing.isActive || existing.status ≠ .active then
          .error (.badRequest "Only the active goal can be ended")
        else if (goals.filter (endable goalId userId)).length ≠ 1 then
          .error (.badRequest "Only the active goal can be ended")
        else
          match (ended userId goalId status now goals).find? (owned goalId userId) with
          | none => .error (.notFound "Goal not found")
          | some goal => .ok (goal, ended userId goalId status now goals) := by
  unfold end_
  cases goals.find? (owned goalId userId) with
  | none => rfl
  | some existing =>
    simp only
    split
    · rfl
    · show (indexed (ended userId goalId status now goals) >>= _) = _
      have hsound : GoalsSound (ended userId goalId status now goals) := h.ended status
      rw [indexed_bind hsound.oneActive, List.countP_eq_length_filter]
      rfl

/-- **Ending a goal**, on the user's rows alone. -/
theorem end_owned (h : GoalsSound goals) (status : EndStatus) :
    end_ userId goalId status now (goalsOf userId goals) =
      (end_ userId goalId status now goals).map fun out ↦ (out.1, goalsOf userId out.2) := by
  have hfilter : (goalsOf userId goals).filter (endable goalId userId) =
      goals.filter (endable goalId userId) := by
    refine filter_ownedBy _ fun g hg ↦ ?_
    simp only [endable, Bool.and_eq_true] at hg
    exact owned_userId hg.1.1
  rw [end_eq h, end_eq (h.owned userId), find?_owned, hfilter]
  cases goals.find? (owned goalId userId) with
  | none => rfl
  | some existing =>
    simp only [← goalsOf_ended, find?_owned]
    split
    · rfl
    · split
      · rfl
      · split <;> rfl

theorem end_rewrites (h : GoalsSound goals) {status : EndStatus} {goal : GoalRow}
    (hend : end_ userId goalId status now goals = .ok (goal, goals')) :
    Rewrites userId goals [] goals' := by
  rw [end_eq h] at hend
  split at hend
  · cases hend
  · split at hend
    · cases hend
    · split at hend
      · cases hend
      · split at hend
        · cases hend
        · cases hend
          exact rewrites_ended status

end GoalsService

end Stead
