import Mathlib.Data.List.Nodup
import Stead.Goals.Service

/-!
# One active goal

The columns `isActive`, `status` and `endedAt` of a goal say the same thing, and a user has one
active goal at most (`GoalsSound`). The calls of the service keep both, and none of their statements
meets the partial unique index in a state that it forbids (`GoalCall.keeps`). So the two readers of
the active goal, whose filters differ, find the same one.

## Between two statements

The first statement of a call retires the active goals and the second makes one active. Both leave a
table that the index accepts, and the columns of a row agree after each of them, but what the row
that is updated says is not known until it is written. So the invariant is in two parts:
`GoalsIndexed` is what the identifiers and the index say, and `GoalsSound` adds the agreement of
the columns. A statement that rewrites rows one by one keeps the first if the rewriting keeps the
identifiers and the owners and makes nobody active (`GoalsIndexed.map`).

## Accepted calls

`Accepted` says of a call that it succeeds with a sound table or is refused by a check of its own:
it is never refused by the index. There is one lemma for each of the three calls that write.

## Readers

`getStability` asks for an active flag and `getActive` for an active status as well. On a sound
table the two filters agree (`GoalsSound.getActive_filter`), so that the dashboard is about the
goal that the goals service shows (`GoalsSound.getStability`).
-/

namespace Stead

/-- The three columns agree. -/
def GoalRow.Agrees (goal : GoalRow) : Prop :=
  (goal.isActive = true ↔ goal.status = .active) ∧ (goal.isActive = true ↔ goal.endedAt = none)

namespace GoalsService

/-- What the primary key and the index see to. -/
structure GoalsIndexed (goals : List GoalRow) : Prop where
  ids : (goals.map fun g ↦ g.id).Nodup
  oneActive : oneActive goals

/-- What holds of the goals the service has written. -/
structure GoalsSound (goals : List GoalRow) : Prop where
  ids : (goals.map fun g ↦ g.id).Nodup
  agrees : ∀ g ∈ goals, g.Agrees
  oneActive : oneActive goals

/-- A sound table is one that the index accepts. -/
theorem GoalsSound.indexed {goals : List GoalRow} (h : GoalsSound goals) : GoalsIndexed goals :=
  ⟨h.ids, h.oneActive⟩

variable {goals goals' : List GoalRow} {userId goalId : ℕ} {now : ℤ}

/-- Identifiers are unique. -/
theorem goal_ext (hids : (goals.map fun g ↦ g.id).Nodup) {a b : GoalRow} (ha : a ∈ goals)
    (hb : b ∈ goals) (h : a.id = b.id) : a = b :=
  List.inj_on_of_nodup_map hids ha hb h

/-- The index, row against row. -/
theorem oneActive_iff (hids : (goals.map fun g ↦ g.id).Nodup) : oneActive goals ↔
    ∀ a ∈ goals, ∀ b ∈ goals, a.userId = b.userId → a.isActive = true → b.isActive = true →
      a.id = b.id := by
  constructor
  · intro h a ha b hb huser hact hbct
    let R : GoalRow → GoalRow → Prop := fun a b ↦
      a.userId = b.userId → a.isActive = true → b.isActive = true → a.id = b.id
    have hR : goals.Pairwise R := h.imp fun hab huser ha hb ↦ absurd ⟨huser, ha, hb⟩ hab
    have hflip : goals.Pairwise (flip R) :=
      h.imp fun hab huser hb ha ↦ absurd ⟨huser.symm, ha, hb⟩ hab
    exact hR.forall_of_forall_of_flip (fun _ _ _ _ _ ↦ rfl) hflip ha hb huser hact hbct
  · intro h
    have hne : goals.Pairwise fun a b ↦ a.id ≠ b.id := List.pairwise_map.1 hids
    exact hne.imp_of_mem fun ha hb hab hboth ↦ hab (h _ ha _ hb hboth.1 hboth.2.1 hboth.2.2)

/-- A user has one active goal. -/
theorem GoalsSound.eq_of_active (h : GoalsSound goals) {a b : GoalRow} (ha : a ∈ goals)
    (hb : b ∈ goals) (huser : a.userId = b.userId) (hact : a.isActive = true)
    (hbct : b.isActive = true) : a = b :=
  goal_ext h.ids ha hb ((oneActive_iff h.ids).1 h.oneActive a ha b hb huser hact hbct)

/-- A statement that changes rows one by one keeps the index if no two rows of a user become
active. -/
theorem GoalsIndexed.map (h : GoalsIndexed goals) {f : GoalRow → GoalRow}
    (hid : ∀ g, (f g).id = g.id) (huser : ∀ g, (f g).userId = g.userId)
    (hone : ∀ a ∈ goals, ∀ b ∈ goals, a.userId = b.userId → (f a).isActive = true →
      (f b).isActive = true → a.id = b.id) : GoalsIndexed (goals.map f) := by
  have hids : ((goals.map f).map fun g ↦ g.id).Nodup := by
    rw [List.map_map]
    have hsame : (fun g ↦ g.id) ∘ f = fun g ↦ g.id := funext hid
    rw [hsame]
    exact h.ids
  refine ⟨hids, (oneActive_iff hids).2 ?_⟩
  simp only [List.forall_mem_map, huser, hid]
  exact hone

/-- The columns of all rows agree if those of each do. -/
theorem GoalsIndexed.sound (h : GoalsIndexed goals) (hagrees : ∀ g ∈ goals, g.Agrees) :
    GoalsSound goals :=
  ⟨h.ids, hagrees, h.oneActive⟩

/-- A goal that is replaced has ended in all three columns. -/
theorem replace_agrees (g : GoalRow) : (replace now g).Agrees := by
  simp [GoalRow.Agrees, replace]

theorem GoalsIndexed.replaceWhere (h : GoalsIndexed goals) (now : ℤ) (p : GoalRow → Bool) :
    GoalsIndexed (replaceWhere p now goals) := by
  have hactive : ∀ g : GoalRow, (if p g then replace now g else g).isActive = true →
      g.isActive = true := by
    intro g hg
    split at hg
    · cases hg
    · exact hg
  refine h.map (fun g ↦ ?_) (fun g ↦ ?_) fun a ha b hb huser hact hbct ↦
    (oneActive_iff h.ids).1 h.oneActive a ha b hb huser (hactive a hact) (hactive b hbct)
  · split <;> rfl
  · split <;> rfl

theorem GoalsSound.replaceWhere (h : GoalsSound goals) (now : ℤ) (p : GoalRow → Bool) :
    GoalsSound (replaceWhere p now goals) := by
  refine (h.indexed.replaceWhere now p).sound (List.forall_mem_map.2 fun g hg ↦ ?_)
  split
  · exact replace_agrees g
  · exact h.agrees g hg

/-- What is active after a replacement was left alone. -/
theorem mem_replaceWhere {p : GoalRow → Bool} {g : GoalRow}
    (hg : g ∈ replaceWhere p now goals) (hact : g.isActive = true) : g ∈ goals ∧ p g = false := by
  obtain ⟨g₀, hg₀, rfl⟩ := List.mem_map.1 hg
  cases hp : p g₀ with
  | true =>
    rw [hp, if_pos rfl] at hact
    cases hact
  | false =>
    rw [if_neg (by simp)]
    exact ⟨hg₀, hp⟩

/-- A statement that the index accepts goes on. -/
theorem indexed_bind {α : Type} (h : oneActive goals) (f : List GoalRow → Except GoalFailure α) :
    (indexed goals >>= f) = f goals := by
  rw [indexed, if_pos h]
  rfl

/-- The result of a call leaves the goals sound, and is not a refusal of the index. -/
def Accepted : Except GoalFailure (GoalRow × List GoalRow) → Prop
  | .ok (_, goals) => GoalsSound goals
  | .error e => e ≠ .oneActivePerUser

/-- The goal that `create` inserts, after the replacement. -/
theorem GoalsSound.insertNew (h : GoalsSound goals) {dto : CreateGoalDto} {id : ℕ}
    (hfree : ∀ g ∈ goals, g.id ≠ id) : GoalsSound (GoalsService.replaceWhere
      (fun g ↦ g.userId = userId && g.isActive) now goals ++ [newGoal userId id now dto]) := by
  have hreplaced := h.replaceWhere now fun g ↦ g.userId = userId && g.isActive
  refine ⟨?_, ?_, ?_⟩
  · rw [List.map_append, List.nodup_append]
    refine ⟨hreplaced.ids, by simp, ?_⟩
    rintro _ hmem _ hid heq
    obtain ⟨g, hg, rfl⟩ := List.mem_map.1 hmem
    obtain ⟨g₀, hg₀, rfl⟩ := List.mem_map.1 hg
    rw [List.map_singleton, List.mem_singleton] at hid
    refine hfree g₀ hg₀ (Eq.trans ?_ (heq.trans hid))
    split <;> rfl
  · intro g hg
    rcases List.mem_append.1 hg with hg | hg
    · exact hreplaced.agrees g hg
    · rw [List.mem_singleton.1 hg]
      simp [GoalRow.Agrees, newGoal]
  · refine List.pairwise_append.2 ⟨hreplaced.oneActive, List.pairwise_singleton _ _, ?_⟩
    rintro g hg _ hnew ⟨huser, hact, -⟩
    rw [List.mem_singleton.1 hnew] at huser
    have howner : g.userId = userId := huser
    have hleft := (mem_replaceWhere hg hact).2
    rw [hact, decide_eq_true howner] at hleft
    cases hleft

/-- **Creating a goal** retires the active one first. -/
theorem create_accepted (h : GoalsSound goals) (dto : CreateGoalDto) (id : ℕ) :
    Accepted (create userId dto id now goals) := by
  have hreplaced := h.replaceWhere now fun g ↦ g.userId = userId && g.isActive
  rw [create, indexed_bind hreplaced.oneActive]
  simp only [insertGoal]
  split
  · intro h
    cases h
  · next htaken =>
    have hfree : ∀ g ∈ goals, g.id ≠ id := by
      intro g hg hid
      refine htaken (List.any_eq_true.2 ⟨_, List.mem_map_of_mem hg, decide_eq_true ?_⟩)
      split <;> exact hid
    rw [indexed_bind (h.insertNew hfree).oneActive]
    exact h.insertNew hfree

/-- An update writes the three columns together. -/
theorem applyUpdate_agrees {dto : UpdateGoalDto} {goal : GoalRow} (h : goal.Agrees) :
    (applyUpdate dto goal now goal).Agrees := by
  obtain ⟨hstatus, hended⟩ := h
  cases hd : dto.isActive with
  | none => simpa [GoalRow.Agrees, applyUpdate, hd] using ⟨hstatus, hended⟩
  | some active =>
    cases active with
    | true => simp [GoalRow.Agrees, applyUpdate, hd]
    | false =>
      cases ha : goal.isActive with
      | true => simp [GoalRow.Agrees, applyUpdate, hd, ha]
      | false =>
        simp only [ha, Bool.false_eq_true, false_iff] at hstatus hended
        simp [GoalRow.Agrees, applyUpdate, hd, ha, hstatus, hended]

/-- The update of a goal, once no other goal of the user is active if it is to become active. -/
theorem GoalsIndexed.updateRow (h : GoalsIndexed goals) (now : ℤ) {dto : UpdateGoalDto}
    {existing : GoalRow}
    (hexisting : existing ∈ goals)
    (hothers : dto.isActive = some true → ∀ g ∈ goals, g.userId = existing.userId →
      g.isActive = true → g.id = existing.id) :
    GoalsIndexed (updateRow existing.id (applyUpdate dto existing now) goals) := by
  have hsame : ∀ g ∈ goals, g.id = existing.id → g = existing :=
    fun g hg hid ↦ goal_ext h.ids hg hexisting hid
  refine h.map (fun g ↦ ?_) (fun g ↦ ?_) fun a ha b hb huser hact hbct ↦ ?_
  · split <;> rfl
  · split <;> rfl
  -- An update that activates needs the others inactive; any other one activates nothing.
  · by_cases hset : dto.isActive = some true
    · have hcase : ∀ g ∈ goals, g.userId = existing.userId →
          (if g.id = existing.id then applyUpdate dto existing now g else g).isActive = true →
            g.id = existing.id := by
        intro g hg hg' hact
        split at hact
        · assumption
        · exact hothers hset g hg hg' hact
      by_cases hid : a.id = existing.id
      · rw [hid]
        exact (hcase b hb (huser ▸ hsame a ha hid ▸ rfl) hbct).symm
      · by_cases hid' : b.id = existing.id
        · rw [hid']
          exact hcase a ha (huser.trans (hsame b hb hid' ▸ rfl)) hact
        · rw [if_neg hid] at hact
          rw [if_neg hid'] at hbct
          exact (oneActive_iff h.ids).1 h.oneActive a ha b hb huser hact hbct
    · have hactive : ∀ g : GoalRow,
          (if g.id = existing.id then applyUpdate dto existing now g else g).isActive = true →
            g.isActive = true := by
        intro g hg
        split at hg
        · cases hd : dto.isActive with
          | none => simpa [applyUpdate, hd] using hg
          | some active =>
            cases active with
            | true => exact absurd hd hset
            | false => simp [applyUpdate, hd] at hg
        · exact hg
      exact (oneActive_iff h.ids).1 h.oneActive a ha b hb huser (hactive a hact) (hactive b hbct)

/-- An update that activates a goal needs the others retired. -/
theorem GoalsSound.updateRow (h : GoalsSound goals) (now : ℤ) {dto : UpdateGoalDto}
    {existing : GoalRow}
    (hexisting : existing ∈ goals)
    (hothers : dto.isActive = some true → ∀ g ∈ goals, g.userId = existing.userId →
      g.isActive = true → g.id = existing.id) :
    GoalsSound (updateRow existing.id (applyUpdate dto existing now) goals) := by
  refine (h.indexed.updateRow now hexisting hothers).sound (List.forall_mem_map.2 fun g hg ↦ ?_)
  split
  · next hid =>
    rw [goal_ext h.ids hg hexisting hid]
    exact applyUpdate_agrees (h.agrees existing hexisting)
  · exact h.agrees g hg

theorem owned_iff {goal : GoalRow} :
    owned goalId userId goal = true ↔ goal.id = goalId ∧ goal.userId = userId := by
  simp [owned]

/-- **Updating a goal** retires the others when it activates one. -/
theorem update_accepted (h : GoalsSound goals) (dto : UpdateGoalDto) :
    Accepted (update userId goalId dto now goals) := by
  unfold update
  split
  · intro h
    cases h
  next existing hfind =>
  have hexisting := List.mem_of_find?_eq_some hfind
  obtain ⟨rfl, rfl⟩ := owned_iff.1 (List.find?_some hfind)
  have hfinish : ∀ goals₁, GoalsSound goals₁ → existing ∈ goals₁ →
      (dto.isActive = some true → ∀ g ∈ goals₁, g.userId = existing.userId →
        g.isActive = true → g.id = existing.id) →
      ∀ f : List GoalRow → Except GoalFailure (GoalRow × List GoalRow),
        (∀ goals₂, GoalsSound goals₂ → Accepted (f goals₂)) →
          Accepted (indexed (updateRow existing.id (applyUpdate dto existing now) goals₁) >>= f) := by
    intro goals₁ h₁ hmem hothers f hf
    have h₂ := h₁.updateRow now hmem hothers
    rw [indexed_bind h₂.oneActive]
    exact hf _ h₂
  split
  · next hset =>
    have hreplaced := h.replaceWhere now
      fun g ↦ g.userId = existing.userId && g.isActive && g.id ≠ existing.id
    rw [indexed_bind hreplaced.oneActive]
    refine hfinish _ hreplaced (List.mem_map.2 ⟨existing, hexisting, by simp⟩)
      (fun _ g hg huser hact ↦ ?_) _ fun goals₂ h₂ ↦ ?_
    · have hleft := (mem_replaceWhere hg hact).2
      simpa [huser, hact] using hleft
    · split
      · intro h
        cases h
      · exact h₂
  · next hset =>
    refine hfinish goals h hexisting (fun hset' ↦ absurd hset' hset) _ fun goals₂ h₂ ↦ ?_
    split
    · intro h
      cases h
    · exact h₂

/-- Ending a goal keeps the table sound. -/
theorem GoalsSound.ended (h : GoalsSound goals) (status : EndStatus) :
    GoalsSound (goals.map fun goal ↦
      if endable goalId userId goal then
        { goal with isActive := false, status := status.status, endedAt := some now }
      else goal) := by
  have hactive : ∀ g : GoalRow, (if endable goalId userId g then
      { g with isActive := false, status := status.status, endedAt := some now }
      else g).isActive = true → g.isActive = true := by
    intro g hg
    split at hg
    · cases hg
    · exact hg
  refine (h.indexed.map (fun g ↦ ?_) (fun g ↦ ?_) fun a ha b hb huser hact hbct ↦
    (oneActive_iff h.ids).1 h.oneActive a ha b hb huser (hactive a hact) (hactive b hbct)).sound
      (List.forall_mem_map.2 fun g hg ↦ ?_)
  · split <;> rfl
  · split <;> rfl
  · split
    · cases status <;> simp [GoalRow.Agrees, EndStatus.status]
    · exact h.agrees g hg

/-- **Ending a goal** makes none active. -/
theorem end_accepted (h : GoalsSound goals) (status : EndStatus) :
    Accepted (end_ userId goalId status now goals) := by
  unfold end_
  split
  · intro h
    cases h
  split
  · intro h
    cases h
  rw [indexed_bind (h.ended status).oneActive]
  split
  · intro h
    cases h
  split
  · intro h
    cases h
  · exact h.ended status

/-- **No call breaks the goals**, and none is refused by the index. -/
theorem GoalCall.keeps (call : GoalCall) (h : GoalsSound goals) : Accepted (call.exec goals) := by
  cases call with
  | create userId dto id now => exact create_accepted h dto id
  | update userId goalId dto now => exact update_accepted h dto
  | end_ userId goalId status now => exact end_accepted h status

/-- One call after another. -/
theorem GoalsSound.after (h : GoalsSound goals) (call : GoalCall) :
    GoalsSound (call.after goals) := by
  have hkeeps := call.keeps h
  unfold GoalCall.after
  split
  · next hr =>
    rw [hr] at hkeeps
    exact hkeeps
  · exact h

/-- **Every sequence of calls** leaves a sound table. -/
theorem goalsSound (calls : List GoalCall) : GoalsSound (goalsAfter calls) := by
  induction calls using List.reverseRecOn with
  | nil => exact ⟨List.nodup_nil, fun _ h ↦ absurd h List.not_mem_nil, List.Pairwise.nil⟩
  | append_singleton calls call ih =>
    rw [goalsAfter, List.foldl_append]
    exact ih.after call

/-! ### The readers of the active goal -/

/-- The goals as the dashboard reads them. -/
def dashboardGoals (goals : List GoalRow) : List Goal := goals.map fun g ↦ g.toGoal

/-- A user has one active goal or none. -/
theorem GoalsSound.active (h : GoalsSound goals) (userId : ℕ) :
    (goals.filter fun g ↦ g.userId = userId && g.isActive) = [] ∨
      ∃ goal, (goals.filter fun g ↦ g.userId = userId && g.isActive) = [goal] := by
  have hnodup : (goals.filter fun g ↦ g.userId = userId && g.isActive).Nodup :=
    (List.Nodup.of_map _ h.ids).filter _
  have heq : ∀ a ∈ goals.filter fun g ↦ g.userId = userId && g.isActive,
      ∀ b ∈ goals.filter fun g ↦ g.userId = userId && g.isActive, a = b := by
    intro a ha b hb
    simp only [List.mem_filter, Bool.and_eq_true, decide_eq_true_iff] at ha hb
    exact h.eq_of_active ha.1 hb.1 (ha.2.1.trans hb.2.1.symm) ha.2.2 hb.2.2
  match hl : goals.filter fun g ↦ g.userId = userId && g.isActive with
  | [] => exact .inl hl
  | [goal] => exact .inr ⟨goal, hl⟩
  | a :: b :: rest =>
    rw [hl] at hnodup heq
    have hab : a = b := heq a (by simp) b (by simp)
    simp [hab] at hnodup

/-- The two filters pick the same goals. -/
theorem GoalsSound.getActive_filter (h : GoalsSound goals) (userId : ℕ) :
    (goals.filter fun g ↦ g.userId = userId && g.isActive && g.status = .active) =
      goals.filter fun g ↦ g.userId = userId && g.isActive := by
  refine List.filter_congr fun g hg ↦ ?_
  cases ha : g.isActive with
  | false => simp
  | true => simp [(h.agrees g hg).1.1 ha]

/-- The dashboard's answer for what `getActive` returns. -/
def stabilityOf (active : Except GoalFailure GoalRow) (ledger : List LedgerEntry) (userId : ℕ)
    (today : ℤ) : DashboardStabilityResponse :=
  match active with
  | .error _ => .notOk "No active goal found"
  | .ok goal =>
    .ok ⟨goal.id, goal.name, goal.amountTotalKobo, goal.dueDate, goal.toGoal.income⟩
      (stabilityMetrics goal.toGoal (transactionsOf ledger userId) today)

/-- The dashboard is about the goal that `getActive` finds. -/
theorem GoalsSound.getStability (h : GoalsSound goals) (ledger : List LedgerEntry) (userId : ℕ)
    (today : ℤ) : getStability (dashboardGoals goals) ledger userId today =
      stabilityOf (getActive goals userId) ledger userId today := by
  have hfilter : ((dashboardGoals goals).filter fun goal ↦ goal.userId = userId && goal.isActive) =
      (goals.filter fun g ↦ g.userId = userId && g.isActive).map fun g ↦ g.toGoal := by
    rw [dashboardGoals, List.filter_map]
    rfl
  rw [Stead.getStability, activeGoal, hfilter, getActive, h.getActive_filter]
  rcases h.active userId with hnone | ⟨goal, hone⟩
  · rw [hnone]
    rfl
  · rw [hone]
    rfl

/-- **One active goal, seen the same everywhere.** After any calls, each user has one active goal at
most; the columns of every goal agree; no call is refused by the index; and the dashboard evaluates
the goal that `getActive` returns. -/
theorem one_active_goal (calls : List GoalCall) :
    (∀ userId, (goalsAfter calls).countP (fun g ↦ g.userId = userId && g.isActive) ≤ 1) ∧
    (∀ g ∈ goalsAfter calls, g.Agrees) ∧
    (∀ call : GoalCall, call.exec (goalsAfter calls) ≠ .error .oneActivePerUser) ∧
    ∀ ledger userId today, getStability (dashboardGoals (goalsAfter calls)) ledger userId today =
      stabilityOf (getActive (goalsAfter calls) userId) ledger userId today := by
  have hsound := goalsSound calls
  refine ⟨fun userId ↦ ?_, hsound.agrees, fun call hrefused ↦ ?_, hsound.getStability⟩
  · rw [List.countP_eq_length_filter]
    rcases hsound.active userId with hnone | ⟨goal, hone⟩
    · rw [hnone]
      exact Nat.zero_le 1
    · rw [hone]
      exact le_rfl
  · have hkeeps := call.keeps hsound
    rw [hrefused] at hkeeps
    exact hkeeps rfl

end GoalsService

end Stead
