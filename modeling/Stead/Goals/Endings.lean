import Stead.Goals.Transactions

/-!
# The ending of a goal

A goal that has ended stays as it ended until it is reactivated (`EndingsKept`), in every
interleaving in which an update that cancels a goal finds it still active when it writes
(`CancelsActive`). The update reads the goal first and does not look at it again when it writes, so
otherwise it writes over an ending that another call has committed in between
(`completed_goal_is_cancelled`). The ending itself repeats its precondition in the statement that
writes, and so is safe.

## Statements

`GoalEffect` says how a statement can change the cell of one goal: not at all, by an edit of the row
that the transaction sees, by an insertion, by the commit or by the rollback. `GoalEdit` lists the
edits. Both come from one inversion of `GoalWorld.perform`.

## The invariant

What a transaction has written is compared with the committed row as long as it is open
(`CellSound`); the commit makes it the committed row. An edit by an update keeps an ending for one
of three reasons: it reactivates the goal, it does not touch the ending, or the goal was active.
-/

namespace Stead

open Concurrency

variable {ι : Type}

/-- The state of the calls and their tables. -/
abbrev GoalState (ι : Type) := State goalStatements ι (GoalWorld ι)

/-- The calls in progress. -/
abbrev GoalConfig (ι : Type) := Config goalStatements ι (GoalWorld ι) GoalRejection GoalRow

/-- The request reactivates goal number `k`. -/
def GoalRequest.Reactivates (k : ℕ) : GoalRequest → Prop
  | .update _ goalId dto => goalId = k ∧ dto.isActive = some true
  | _ => False

/-- The status and the time of the ending are the same, or the goal is active again by a request
for that. -/
def EndsOrReactivated (request : GoalRequest) (k : ℕ) (goal goal' : GoalRow) : Prop :=
  goal'.status = goal.status ∧ goal'.endedAt = goal.endedAt ∨
    request.Reactivates k ∧ goal'.status = .active

/-- What becomes of goal number `k` by a statement of the request, if it had ended. -/
def KeepsEnding (request : GoalRequest) (k : ℕ) (before after : Option GoalRow) : Prop :=
  ∀ goal, before = some goal → goal.status ≠ .active →
    ∃ goal', after = some goal' ∧ EndsOrReactivated request k goal goal'

/-- **Endings are kept**: what any statement leaves of a goal that had ended before it has the same
ending, or the statement is one of an update that reactivates the goal. -/
def EndingsKept (requests : ι → GoalRequest) (s : GoalState ι) : Prop :=
  ∀ e ∈ s.log, ∀ k, KeepsEnding (requests e.thread) k (e.before.goals.stored k)
    (e.after.goals.stored k)

variable [DecidableEq ι]

/-- The runs in which an update that cancels a goal, as it has read that it is active, does not find
it ended when it writes. -/
def CancelsActive : Restriction goalStatements ι GoalChoice (GoalWorld ι) where
  stmt i _ op s := ∀ goalId dto existing now, op = GoalStatement.update goalId dto existing now →
    dto.isActive = some false → existing.isActive = true →
      ∀ goal, (s.shared.goals.cell goalId).view (some i) = some goal → goal.status = .active
  crash _ _ := True

/-! ### What a statement makes of a goal -/

/-- What a statement makes of goal number `k`, where it changes it. -/
inductive GoalEdit (goal : GoalRow) : GoalStatement → ℕ → GoalRow → Prop
  | replace {found : List ℕ} {userId k : ℕ} {except : Option ℕ} {endedAt : ℤ}
      (hk : some k ≠ except) (hactive : goal.isActive = true) :
      GoalEdit goal (.replaceFound found userId except endedAt) k
        (GoalsService.replace endedAt goal)
  | update {k : ℕ} {dto : UpdateGoalDto} {existing : GoalRow} {now : ℤ} :
      GoalEdit goal (.update k dto existing now) k (GoalsService.applyUpdate dto existing now goal)
  | endActive {k userId : ℕ} {status : EndStatus} {endedAt : ℤ} (hactive : goal.status = .active) :
      GoalEdit goal (.endActive k userId status endedAt) k
        { goal with isActive := false, status := status.status, endedAt := some endedAt }

/-- How a statement of thread `i` can change the cell of a goal. -/
inductive GoalEffect (i : ι) (op : GoalStatement) (k : ℕ) (c c' : Cell ι GoalRow) : Prop
  | same (h : c' = c)
  | edit {goal goal' : GoalRow} (hv : c.view (some i) = some goal) (he : GoalEdit goal op k goal')
      (hl : c.lockedFor (some i) = false) (h : c' = c.write (some i) goal')
  | create {goal : GoalRow} (hactive : goal.status = .active) (hc : c = .empty)
      (h : c' = ⟨none, some (i, goal)⟩)
  | commit (h : c' = c.commit i)
  | rollback (h : c' = c.rollback i)

section Effects

variable {i : ι} {w t : GoalWorld ι} {k : ℕ} {op : GoalStatement}

/-- **One statement** that does not fail changes a cell as `GoalEffect` says. -/
theorem GoalWorld.perform_effect {r : Except StatementError op.Ret}
    (h : w.perform i op = some (r, t)) :
    GoalEffect i op k (w.goals.cell k) (t.goals.cell k) := by
  cases op with
  | now | findFirst | findActive =>
    cases h
    exact .same rfl
  | replaceFound found userId except endedAt =>
    simp only [GoalWorld.perform] at h
    split at h
    · next count goals hu =>
      cases h
      -- The rows of the filter are rewritten, the one that the call excepts left out.
      rcases Table.updateMany_cell hu k with ⟨hk, -⟩ | ⟨hk, goal, hv, hp, hl, hc⟩
      · exact .same hk
      · have hexcept : some k ≠ except := of_decide_eq_true (List.mem_filter.1 hk).2
        exact .edit hv (.replace hexcept (Bool.and_eq_true_iff.1 hp).2) hl hc
    · cases h
  | create userId dto =>
    simp only [GoalWorld.perform] at h
    split at h
    · cases h
    split at h
    · cases h
      exact .same rfl
    · cases h
      -- A created goal is active and has no row in its place.
      by_cases hk : k = w.goals.next
      · subst hk
        have hactive : (GoalsService.newGoal userId w.goals.next w.now dto).status = .active := rfl
        exact .create hactive (w.goals.fresh _ le_rfl) (Table.insert_cell_self _ _ _)
      · exact .same (Table.insert_cell_of_ne _ _ _ hk)
  | update goalId dto existing now =>
    simp only [GoalWorld.perform] at h
    split at h
    · cases h
    · cases h
      exact .same rfl
    · next goals hu =>
      split at h
      · cases h
        exact .same rfl
      split at h
      · cases h
      split at h
      · cases h
        exact .same rfl
      · cases h
        -- The index has accepted the write; it is of the row that was found, by its number.
        rcases Table.updateId_cases hu with ⟨hfalse, -, -⟩ | ⟨-, -, hothers, goal, hv, -, hl, hc⟩
        · cases hfalse
        · by_cases hk : k = goalId
          · subst hk
            exact .edit hv .update hl hc
          · exact .same (hothers k hk)
  | endActive goalId userId status endedAt =>
    simp only [GoalWorld.perform] at h
    split at h
    · next updated goals hu =>
      cases h
      rcases Table.updateId_cases hu with ⟨-, rfl, -⟩ | ⟨-, -, hothers, goal, hv, hp, hl, hc⟩
      · exact .same rfl
      · by_cases hk : k = goalId
        · subst hk
          have hactive : goal.status = .active :=
            of_decide_eq_true (Bool.and_eq_true_iff.1 hp).2
          exact .edit hv (.endActive hactive) hl hc
        · exact .same (hothers k hk)
    · cases h
  | commit =>
    cases h
    exact .commit rfl
  | rollback =>
    cases h
    exact .rollback rfl

/-- The same with the accidents: a statement that fails may have taken effect or not. -/
theorem GoalWorld.exec_effect {x : GoalChoice} {r : Except StatementError op.Ret}
    (h : w.exec i x op = some (r, t)) :
    GoalEffect i op k (w.goals.cell k) (t.goals.cell k) := by
  -- The clock moves first; it changes no goal.
  let later : GoalWorld ι := { w with now := w.now + x.elapse }
  have hperform : ∀ {r : Except StatementError op.Ret}, later.perform i op = some (r, t) →
      GoalEffect i op k (w.goals.cell k) (t.goals.cell k) :=
    fun h ↦ GoalWorld.perform_effect (w := later) h
  have hfault : later.faulty i x op = some (r, t) →
      GoalEffect i op k (w.goals.cell k) (t.goals.cell k) := by
    intro h
    unfold GoalWorld.faulty at h
    split at h
    · exact hperform h
    · cases h
      unfold GoalWorld.lost
      split
      · exact .rollback rfl
      · exact .same rfl
    · obtain ⟨out, hout, heq⟩ := Option.map_eq_some_iff.1 h
      cases heq
      exact hperform hout
  cases op with
  | now | rollback => exact hperform h
  | _ => exact hfault h

end Effects

/-! ### What the calls issue -/

/-- What a request issues, as far as it can reactivate a goal. -/
def GoalRequest.Issues : GoalRequest → GoalStatement → Prop
  | .update _ goalId _, .replaceFound _ _ except _ => except = some goalId
  | .update _ goalId dto, .update goalId' dto' _ _ => goalId' = goalId ∧ dto' = dto
  | .update _ _ _, .endActive _ _ _ _ => False
  | .update _ _ _, _ => True
  | _, .update _ _ _ _ => False
  | _, _ => True

section Issues

variable {P : GoalStatement → Prop}

theorem goalRun_all {op : GoalStatement} (h : P op) : (goalRun op).All P := by
  refine ⟨h, fun r ↦ ?_⟩
  cases r <;> trivial

/-- A transaction adds its commit or its rollback. -/
theorem goalTransaction_all {α : Type} {body : GoalProg α} (hbody : body.All P) (hcommit : P .commit)
    (hrollback : P .rollback) : (goalTransaction body).All P :=
  .bind (.tryCatch hbody fun _ ↦ .bind (goalRun_all hrollback) fun _ ↦ trivial) fun _ ↦
    .bind (goalRun_all hcommit) fun _ ↦ trivial

/-- The replacement of the active goals issues three statements. -/
theorem replaceActive_all {userId : ℕ} {except : Option ℕ} (hnow : P .now)
    (hfind : P (.findActive userId except))
    (hreplace : ∀ found endedAt, P (.replaceFound found userId except endedAt)) :
    (replaceActive userId except).All P :=
  .bind (goalRun_all hnow) fun endedAt ↦ .bind (goalRun_all hfind) fun found ↦
    .bind (goalRun_all (hreplace found endedAt)) fun _ ↦ trivial

/-- **A request** issues the statements that belong to it. -/
theorem GoalRequest.run_all (request : GoalRequest) : request.run.All request.Issues := by
  cases request with
  | create userId dto =>
    exact goalTransaction_all (.bind (replaceActive_all trivial trivial fun _ _ ↦ trivial) fun _ ↦
      goalRun_all trivial) trivial trivial
  | update userId goalId dto =>
    refine goalTransaction_all (.bind (goalRun_all trivial) fun found ↦ ?_) trivial trivial
    cases found with
    | none => trivial
    | some existing =>
      have hwrite : Prog.All (GoalRequest.update userId goalId dto).Issues (do
          let now ← goalRun .now
          goalRun (.update goalId dto existing now)) :=
        .bind (goalRun_all trivial) fun now ↦ goalRun_all ⟨rfl, rfl⟩
      refine .ite (fun _ ↦ .bind ?_ fun _ ↦ hwrite) fun _ ↦ hwrite
      exact replaceActive_all trivial trivial fun _ _ ↦ rfl
  | end_ userId goalId status =>
    refine goalTransaction_all (.bind (goalRun_all trivial) fun found ↦ ?_) trivial trivial
    cases found with
    | none => trivial
    | some existing =>
      refine .ite (fun _ ↦ trivial) fun _ ↦ .bind (goalRun_all trivial) fun endedAt ↦
        .bind (goalRun_all trivial) fun updated ↦ .ite (fun _ ↦ trivial) fun _ ↦
          .bind (goalRun_all trivial) fun found ↦ ?_
      cases found <;> trivial

end Issues

/-! ### The endings -/

/-- A goal that is active has not ended. -/
def GoalRow.Sound (goal : GoalRow) : Prop := goal.isActive = true → goal.status = .active

section Edits

variable {request : GoalRequest} {goal goal' : GoalRow} {op : GoalStatement} {k : ℕ}

/-- An edit keeps what a row says of its ending. -/
theorem GoalEdit.sound (h : GoalEdit goal op k goal') (hgoal : goal.Sound) : goal'.Sound := by
  intro hactive
  cases h with
  | replace => cases hactive
  | endActive => cases hactive
  | @update k dto existing now =>
    have hactive : dto.isActive.getD goal.isActive = true := hactive
    unfold GoalsService.applyUpdate
    rcases hdto : dto.isActive with _ | _ | _
    · rw [hdto] at hactive
      simpa [hdto] using hgoal hactive
    · rw [hdto] at hactive
      cases hactive
    · simp

/-- A request that reactivates a goal makes it nothing but active. -/
theorem GoalEdit.reactivates (h : GoalEdit goal op k goal') (hissues : request.Issues op)
    (hrequest : request.Reactivates k) : goal'.status = .active := by
  cases request with
  | create | end_ => exact hrequest.elim
  | update userId goalId dto =>
    obtain ⟨rfl, hdto⟩ := hrequest
    cases h with
    | replace hk => exact absurd hissues.symm hk
    | endActive => exact hissues.elim
    | update =>
      obtain ⟨-, rfl⟩ := hissues
      exact if_pos hdto

/-- A statement that does not cancel an ended goal keeps its ending. -/
theorem GoalEdit.endsOrReactivated (h : GoalEdit goal op k goal') (hissues : request.Issues op)
    (hgoal : goal.Sound) (hended : goal.status ≠ .active)
    (hcancels : ∀ goalId dto existing now, op = .update goalId dto existing now →
      dto.isActive = some false → existing.isActive = true → goal.status = .active) :
    EndsOrReactivated request k goal goal' := by
  cases h with
  | replace _ hactive => exact absurd (hgoal hactive) hended
  | endActive hactive => exact absurd hactive hended
  | @update k dto existing now =>
    by_cases hreactivates : dto.isActive = some true
    · refine .inr ⟨?_, if_pos hreactivates⟩
      cases request with
      | create | end_ => exact hissues.elim
      | update userId goalId dto' =>
        obtain ⟨rfl, rfl⟩ := hissues
        exact ⟨rfl, hreactivates⟩
    · have hkept : ¬ (decide (dto.isActive = some false) && existing.isActive) = true := by
        intro hcancel
        obtain ⟨hfalse, hexisting⟩ := Bool.and_eq_true_iff.1 hcancel
        exact hended (hcancels _ _ _ _ rfl (of_decide_eq_true hfalse) hexisting)
      refine .inl ⟨?_, ?_⟩
      · exact (if_neg hreactivates).trans (if_neg hkept)
      · exact (if_neg hreactivates).trans (if_neg hkept)

end Edits

/-! ### The cell of a goal -/

/-- What is known of the cell of goal number `k`. -/
structure CellSound (requests : ι → GoalRequest) (k : ℕ) (c : Cell ι GoalRow) : Prop where
  stored : ∀ goal, c.stored = some goal → goal.Sound
  pending : ∀ i goal, c.pending = some (i, goal) → goal.Sound
  continues : ∀ i goal, c.pending = some (i, goal) →
    KeepsEnding (requests i) k c.stored (some goal)

section CellSound

variable {requests : ι → GoalRequest} {i : ι} {op : GoalStatement} {k : ℕ} {c c' : Cell ι GoalRow}
  {goal goal' : GoalRow}

omit [DecidableEq ι] in
theorem keepsEnding_refl (request : GoalRequest) (k : ℕ) (stored : Option GoalRow) :
    KeepsEnding request k stored stored :=
  fun goal hgoal _ ↦ ⟨goal, hgoal, .inl ⟨rfl, rfl⟩⟩

theorem CellSound.view_sound (h : CellSound requests k c) (hv : c.view (some i) = some goal) :
    goal.Sound := by
  by_cases hp : ∃ r, c.pending = some (i, r)
  · obtain ⟨r, hp⟩ := hp
    rw [Cell.view_of_pending hp] at hv
    cases hv
    exact h.pending i _ hp
  · rw [Cell.view_of_not_pending fun r hr ↦ hp ⟨r, hr⟩] at hv
    exact h.stored goal hv

/-- What a thread sees of a goal has the ending of the committed one. -/
theorem CellSound.view_keeps (h : CellSound requests k c) (i : ι) :
    KeepsEnding (requests i) k c.stored (c.view (some i)) := by
  by_cases hp : ∃ r, c.pending = some (i, r)
  · obtain ⟨r, hp⟩ := hp
    rw [Cell.view_of_pending hp]
    exact h.continues i r hp
  · rw [Cell.view_of_not_pending fun r hr ↦ hp ⟨r, hr⟩]
    exact keepsEnding_refl _ _ _

/-- **An edit** keeps the ending of the committed goal as the version it changes does. -/
theorem KeepsEnding.edit {request : GoalRequest} {stored : Option GoalRow}
    (h : KeepsEnding request k stored (some goal)) (he : GoalEdit goal op k goal')
    (hissues : request.Issues op) (hgoal : goal.Sound)
    (hcancels : ∀ goalId dto existing now, op = .update goalId dto existing now →
      dto.isActive = some false → existing.isActive = true → goal.status = .active) :
    KeepsEnding request k stored (some goal') := by
  intro first hfirst hended
  obtain ⟨_, heq, hkept⟩ := h first hfirst hended
  cases heq
  refine ⟨goal', rfl, ?_⟩
  rcases hkept with ⟨hstatus, hendedAt⟩ | ⟨hrequest, -⟩
  · rcases he.endsOrReactivated hissues hgoal (hstatus ▸ hended) hcancels with hsame | hactive
    · exact .inl ⟨hsame.1.trans hstatus, hsame.2.trans hendedAt⟩
    · exact .inr hactive
  · exact .inr ⟨hrequest, he.reactivates hissues hrequest⟩

/-- A rollback leaves the committed row. -/
theorem CellSound.rollback (h : CellSound requests k c) (i : ι) :
    CellSound requests k (c.rollback i) := by
  refine ⟨fun g hg ↦ ?_, fun j g hp ↦ ?_, fun j g hp ↦ ?_⟩
  · rw [Cell.rollback_stored] at hg
    exact h.stored g hg
  · exact h.pending j g (Cell.pending_of_rollback hp).2
  · rw [Cell.rollback_stored]
    exact h.continues j g (Cell.pending_of_rollback hp).2

/-- **One statement** keeps what is known of a cell, and the ending of the goal in it. -/
theorem CellSound.step (h : CellSound requests k c) (he : GoalEffect i op k c c')
    (hissues : (requests i).Issues op)
    (hcancels : ∀ dto existing now, op = .update k dto existing now →
      dto.isActive = some false → existing.isActive = true →
        ∀ goal, c.view (some i) = some goal → goal.status = .active) :
    CellSound requests k c' ∧ KeepsEnding (requests i) k c.stored c'.stored := by
  cases he with
  | same heq =>
    subst heq
    exact ⟨h, keepsEnding_refl _ _ _⟩
  | @edit goal goal' hv he _ heq =>
    subst heq
    -- What the thread sees already keeps to the request, so its edit of it does.
    have hkept : KeepsEnding (requests i) k c.stored (some goal') := by
      refine KeepsEnding.edit (hv ▸ h.view_keeps i) he hissues (h.view_sound hv) ?_
      rintro goalId dto existing now rfl hfalse hexisting
      cases he
      exact hcancels dto existing now rfl hfalse hexisting goal hv
    refine ⟨⟨h.stored, ?_, ?_⟩, keepsEnding_refl _ _ _⟩
    · rintro j g hp
      cases hp
      exact he.sound (h.view_sound hv)
    · rintro j g hp
      cases hp
      exact hkept
  | @create goal hactive hc heq =>
    subst hc heq
    refine ⟨⟨nofun, ?_, fun _ _ _ ↦ nofun⟩, keepsEnding_refl _ _ _⟩
    rintro j g hp
    cases hp
    exact fun _ ↦ hactive
  | commit heq =>
    subst heq
    refine ⟨⟨fun g hg ↦ ?_, fun j g hp ↦ ?_, fun j g hp ↦ ?_⟩, ?_⟩
    · rw [Cell.commit_stored] at hg
      exact h.view_sound hg
    · exact h.pending j g (Cell.pending_of_commit hp).2
    -- A draft that is left is another thread's, so this commit has not touched its row.
    · obtain ⟨hj, hp⟩ := Cell.pending_of_commit hp
      have hother : ∀ r, c.pending ≠ some (i, r) := by
        intro r hr
        rw [hp] at hr
        cases hr
        exact hj rfl
      rw [Cell.commit_of_not_pending hother]
      exact h.continues j g hp
    · rw [Cell.commit_stored]
      exact h.view_keeps i
  | rollback heq =>
    subst heq
    rw [Cell.rollback_stored]
    exact ⟨h.rollback i, keepsEnding_refl _ _ _⟩

end CellSound

/-! ### Runs -/

/-- No transaction is open, and a goal is active only if it has the status. So the migration to the
statuses leaves the goals. -/
def GoalWorld.Settled (w : GoalWorld ι) : Prop :=
  (∀ k, w.goals.pending k = none) ∧ ∀ k goal, w.goals.stored k = some goal → goal.Sound

/-- **No ending is overwritten** in a run in which no update cancels an ended goal; and a call that
is lost changes no goal. -/
theorem endings_kept (w : GoalWorld ι) (requests : ι → GoalRequest) {c : GoalConfig ι}
    (hw : w.Settled) (hc : Run (goalMachine ι) CancelsActive
      (.start w fun i ↦ (requests i).run) c) :
    EndingsKept requests c.state ∧ ∀ i k,
      ((goalMachine ι).crash i c.state.shared).goals.stored k = c.state.shared.goals.stored k := by
  let Inv (s : GoalState ι) : Prop :=
    (∀ k, CellSound requests k (s.shared.goals.cell k)) ∧ EndingsKept requests s
  have hinv : Inv c.state := by
    refine (Run.invariant (C := fun i ↦ (requests i).Issues) (I := Inv) hc
      (Config.issues_start fun i ↦ (requests i).run_all) ?_ ?_ ?_).1
    · refine ⟨fun k ↦ ⟨hw.2 k, fun i goal hp ↦ ?_, fun i goal hp ↦ ?_⟩, fun e he ↦ ?_⟩
      · cases (hw.1 k).symm.trans hp
      · cases (hw.1 k).symm.trans hp
      · cases he
    · intro s i x op r t hs hissues hallowed hx
      have hstep := fun k ↦ (hs.1 k).step (GoalWorld.exec_effect hx) hissues
        fun dto existing now hop ↦ hallowed k dto existing now hop
      refine ⟨fun k ↦ (hstep k).1, fun e he k ↦ ?_⟩
      rw [State.after_log, List.mem_append, List.mem_singleton] at he
      rcases he with he | rfl
      · exact hs.2 e he k
      · exact (hstep k).2
    · intro s i hs _
      exact ⟨fun k ↦ (hs.1 k).rollback i, hs.2⟩
  exact ⟨hinv.2, fun i k ↦ Cell.rollback_stored _ _⟩

namespace Demo

/-- An active goal, number 0. -/
def activeGoal : GoalRow where
  id := 0
  userId := 7
  name := "Rent"
  amountTotalKobo := 100000
  dueDate := 500
  monthlyIncomeKobo := none
  isActive := true
  createdAt := 0
  status := .active
  endedAt := none

/-- One user with an active goal. -/
def oneGoal : GoalWorld ℕ := ⟨1, (Table.empty.insert none activeGoal).2⟩

/-- Nothing is in progress on it. -/
theorem oneGoal_settled : oneGoal.Settled := by
  refine ⟨fun k ↦ ?_, fun k goal hk _ ↦ ?_⟩
  · by_cases hk : k = 0
    · subst hk
      rfl
    · exact congrArg Cell.pending (Table.insert_cell_of_ne Table.empty none activeGoal hk)
  · by_cases h0 : k = 0
    · subst h0
      cases hk
      rfl
    · exact absurd ((congrArg Cell.stored
        (Table.insert_cell_of_ne Table.empty none activeGoal h0)).symm.trans hk) nofun

/-- One call cancels the goal by an update, the other completes it. -/
def cancelAndComplete (i : ℕ) : GoalRequest :=
  if i = 0 then .update 7 0 ⟨none, none, none, none, some false⟩ else .end_ 7 0 .completed

/-- `n` turns of thread `i`, without accidents. -/
def goalTurns (i n : ℕ) : List (Turn ℕ GoalChoice) := List.replicate n ⟨i, 1, .none⟩

/-- The restriction, tested, -/
def cancelsActive (i : ℕ) (op : GoalStatement) (s : GoalState ℕ) : Bool :=
  match op with
  | .update goalId dto existing _ =>
    !(dto.isActive = some false && existing.isActive) ||
      ((s.shared.goals.cell goalId).view (some i)).all fun goal ↦ goal.status = .active
  | _ => true

theorem cancelsActive_stmt (i : ℕ) (x : GoalChoice) (op : GoalStatement) (s : GoalState ℕ)
    (h : cancelsActive i op s = true) : CancelsActive.stmt i x op s := by
  rintro goalId dto existing now rfl hfalse hexisting goal hgoal
  simpa [cancelsActive, hfalse, hexisting, hgoal] using h

/-- The update reads the goal after it is completed. -/
theorem completeThenCancel_runs :
    ((Config.start oneGoal fun i ↦ (cancelAndComplete i).run).turns (goalMachine ℕ) cancelsActive
      (goalTurns 1 5 ++ goalTurns 0 4)).isSome := by
  decide +kernel

/-- The goals after a completion and a cancellation, one after the other. -/
def completeThenCancel : GoalConfig ℕ := Config.afterTurns _ _ _ _ completeThenCancel_runs

/-- The update reads the goal before it is completed, and writes after that. -/
theorem completeMeanwhile_runs :
    ((Config.start oneGoal fun i ↦ (cancelAndComplete i).run).turns (goalMachine ℕ)
      (fun _ _ _ ↦ true) (goalTurns 0 1 ++ goalTurns 1 5 ++ goalTurns 0 3)).isSome := by
  decide +kernel

/-- The goals after a completion between the read and the write of a cancellation. -/
def completeMeanwhile : GoalConfig ℕ := Config.afterTurns _ _ _ _ completeMeanwhile_runs

end Demo

open Demo

/-- The cancellation that comes later finds the goal completed and leaves it so. -/
theorem endings_kept_completeThenCancel :
    completeThenCancel.state.log.length = 9 ∧ EndingsKept cancelAndComplete completeThenCancel.state :=
  ⟨by decide +kernel, (endings_kept oneGoal cancelAndComplete oneGoal_settled
    (Config.run_afterTurns cancelsActive_stmt completeThenCancel_runs)).1⟩

/-- A completed goal is cancelled. -/
theorem completed_goal_is_cancelled : ¬ ∀ (w : GoalWorld ℕ) (requests : ℕ → GoalRequest)
    (c : GoalConfig ℕ), w.Settled → Run (goalMachine ℕ) .all (.start w fun i ↦ (requests i).run) c →
      EndingsKept requests c.state := by
  intro h
  have hkept := h oneGoal cancelAndComplete completeMeanwhile oneGoal_settled
    (Config.run_afterTurns (fun _ _ _ _ _ ↦ trivial) completeMeanwhile_runs)
  obtain ⟨e, he, hcommit⟩ := Option.map_eq_some_iff.1 (by decide +kernel :
    (completeMeanwhile.state.log[8]?.map fun e ↦ (e.thread,
      (e.before.goals.stored 0).map fun g ↦ (g.status, g.endedAt),
      (e.after.goals.stored 0).map fun g ↦ (g.status, g.endedAt))) =
        some (0, some (.completed, some 4), some (.cancelled, some 8)))
  have hthread : e.thread = 0 := congrArg Prod.fst hcommit
  obtain ⟨goal, hgoal, hcompleted⟩ := Option.map_eq_some_iff.1
    (congrArg (fun out ↦ out.2.1) hcommit)
  obtain ⟨goal', hgoal', hcancelled⟩ := Option.map_eq_some_iff.1
    (congrArg (fun out ↦ out.2.2) hcommit)
  have hstatus : goal.status = .completed := congrArg Prod.fst hcompleted
  have hstatus' : goal'.status = .cancelled := congrArg Prod.fst hcancelled
  have hended : goal.status ≠ .active := by rw [hstatus]; decide
  obtain ⟨_, hsame, hending⟩ := hkept e (List.mem_of_getElem? he) 0 goal hgoal hended
  cases hgoal'.symm.trans hsame
  rcases hending with ⟨hsame, -⟩ | ⟨-, hactive⟩
  · rw [hstatus, hstatus'] at hsame
    cases hsame
  · rw [hstatus'] at hactive
    cases hactive

end Stead
