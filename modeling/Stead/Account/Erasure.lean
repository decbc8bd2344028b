import Stead.Account.Tables

/-!
# An account is deleted whole

The tables agree on whose rows refer to whose (`Consistent`): events and jobs refer to codes of
their own user, transactions and alert states to goals of theirs, and an event of a user has the
user's phone. So the rows of a user are referred to by rows of the user only, in the order of the
statements no foreign key is violated, and what is left is exactly what does not belong to the user
(`without`).

## The transaction

The statements of the deletion form a chain (`Chain`): each one is given what the one before leaves,
and `deletion_chain` says what that is after each of them. The tables after the last one are
`db.without phoneOf user`, so that is what a deletion in which nothing fails leaves; a statement
that fails undoes the ones before it (`runStatements_of_chain`).

## The calls

Agreement is kept by every call of the API on these tables (`AccountOp.run_consistent`), with one
lemma for each insertion and one for each call. A call that begins with a foreign key of the user's
has checked it (`Consistent.hasGoal`, `otpCodeOf_spec`), so what it inserts refers to rows of the
user. The tables after the migrations have no rows that refer to anything
(`Migrated.consistent`).

## The result

`account_erased` is for the tables after any calls: no foreign key is violated; the deletion is all
or nothing; nothing that is left refers to the user or has the user's phone (`AccountErased`); and
of the rows of others none is taken (`TakesOnly`).
-/

namespace Stead

/-- The job is the user's, or nobody's with a payload for the user's phone. -/
def JobRow.belongs (phoneOf : StoredPayload → Option String) (user : UserRow) (j : JobRow) : Bool :=
  j.userId = some user.id || (j.userId = none && phoneOf j.payloadJson = some user.phone)

/-- The event is of the user or of the user's phone. -/
def AuthEventRow.belongs (user : UserRow) (e : AuthEventRow) : Bool :=
  e.userId = some user.id || e.phone = user.phone

namespace AccountDb

/-- The tables without what belongs to a user. -/
def without (phoneOf : StoredPayload → Option String) (user : UserRow) (db : AccountDb) :
    AccountDb where
  next := db.next
  users := db.users.filter fun u ↦ u.id ≠ user.id
  otpCodes := db.otpCodes.filter fun o ↦ !decide (o.userId = user.id)
  authEvents := db.authEvents.filter fun e ↦ !e.belongs user
  refreshTokens := db.refreshTokens.filter fun row ↦ row.userId ≠ user.id
  goals := db.goals.filter fun g ↦ !decide (g.userId = user.id)
  transactions := db.transactions.filter fun tx ↦ !decide (tx.userId = user.id)
  jobs := db.jobs.filter fun j ↦ !j.belongs phoneOf user
  failureAttempts := db.failureAttempts.filter fun a ↦
    !db.jobs.any fun j ↦ j.belongs phoneOf user && decide (j.id = a.notificationJobId)
  alertPreferences := db.alertPreferences.filter fun row ↦ row.userId ≠ user.id
  alertStates := db.alertStates.filter fun state ↦ !decide (state.userId = user.id)
  consentPreferences := db.consentPreferences.filter fun row ↦ row.userId ≠ user.id
  consentRecords := db.consentRecords.filter fun row ↦ row.userId ≠ user.id

/-- What is referred to has been generated. -/
structure Below (n : ℕ) (db : AccountDb) : Prop where
  users : ∀ user ∈ db.users, user.id < n
  otpCodes : ∀ o ∈ db.otpCodes, o.id < n
  goals : ∀ g ∈ db.goals, g.id < n
  jobs : ∀ j ∈ db.jobs, j.id < n
  eventCodes : ∀ e ∈ db.authEvents, ∀ o, e.otpCodeId = some o → o < n
  jobCodes : ∀ j ∈ db.jobs, ∀ o, j.otpCodeId = some o → o < n
  transactionGoals : ∀ tx ∈ db.transactions, ∀ g, tx.goalId = some g → g < n
  stateGoals : ∀ state ∈ db.alertStates, state.goalId < n

/-- Rows refer to rows of their own user. -/
structure Consistent (db : AccountDb) : Prop where
  below : db.Below db.next
  userIds : (db.users.map fun user ↦ user.id).Nodup
  phones : (db.users.map fun user ↦ user.phone).Nodup
  otpIds : (db.otpCodes.map fun o ↦ o.id).Nodup
  goalIds : (db.goals.map fun g ↦ g.id).Nodup
  jobIds : (db.jobs.map fun j ↦ j.id).Nodup
  events : ∀ e ∈ db.authEvents, ∀ v, e.userId = some v →
    ∃ user ∈ db.users, user.id = v ∧ user.phone = e.phone
  eventCodes : ∀ e ∈ db.authEvents, ∀ o ∈ db.otpCodes, e.otpCodeId = some o.id →
    e.userId = some o.userId
  jobCodes : ∀ j ∈ db.jobs, ∀ o ∈ db.otpCodes, j.otpCodeId = some o.id → j.userId = some o.userId
  transactionGoals : ∀ tx ∈ db.transactions, ∀ g ∈ db.goals, tx.goalId = some g.id →
    g.userId = tx.userId
  stateGoals : ∀ state ∈ db.alertStates, ∀ g ∈ db.goals, state.goalId = g.id →
    g.userId = state.userId

variable {phoneOf : StoredPayload → Option String} {db : AccountDb} {user : UserRow}

/-! ### The deletion transaction -/

/-- The statements succeed one after the other. -/
def Chain : List (AccountDb → Except DeletionFailure AccountDb) → AccountDb → AccountDb → Prop
  | [], db, db' => db = db'
  | statement :: statements, db, db' =>
    ∃ mid, statement db = .ok mid ∧ Chain statements mid db'

/-- Where the statements form a chain, only a failure of the database stops them. -/
theorem runStatements_of_chain {statements : List (AccountDb → Except DeletionFailure AccountDb)}
    {db' : AccountDb} {fails : ℕ → Bool} {k : ℕ} (h : Chain statements db db') :
    runStatements fails k statements db = .ok db' ∨
      runStatements fails k statements db = .error .database := by
  induction statements generalizing db k with
  | nil => exact .inl (congrArg Except.ok h)
  | cons statement statements ih =>
    obtain ⟨mid, hmid, hrest⟩ := h
    unfold runStatements
    split
    · exact .inr rfl
    · rw [hmid]
      exact ih hrest

/-- When none fails they are all executed. -/
theorem runStatements_all {statements : List (AccountDb → Except DeletionFailure AccountDb)}
    {db' : AccountDb} {k : ℕ} (h : Chain statements db db') :
    runStatements (fun _ ↦ false) k statements db = .ok db' := by
  induction statements generalizing db k with
  | nil => exact congrArg Except.ok h
  | cons statement statements ih =>
    obtain ⟨mid, hmid, hrest⟩ := h
    unfold runStatements
    rw [if_neg Bool.false_ne_true, hmid]
    exact ih hrest

theorem map_eq_self {α : Type} {f : α → α} {l : List α} (h : ∀ a ∈ l, f a = a) : l.map f = l :=
  (List.map_congr_left h).trans (List.map_id' l)

/-- The jobs that are deleted are those that belong to the user. -/
theorem belongs_iff (h : db.Consistent) {j : JobRow} (hj : j ∈ db.jobs) :
    (decide (j.userId = some user.id) ||
      (db.legacyNotificationIds phoneOf user.id user.phone).contains j.id) =
        j.belongs phoneOf user := by
  have hids : (db.legacyNotificationIds phoneOf user.id user.phone).contains j.id = true ↔
      j.belongs phoneOf user = true := by
    rw [List.contains_iff_mem, legacyNotificationIds, List.mem_filterMap]
    constructor
    · rintro ⟨j', hj', hid⟩
      have hsame : j'.id = j.id → j' = j := List.inj_on_of_nodup_map h.jobIds hj' hj
      split at hid
      · next huser =>
        rw [← hsame (Option.some.inj hid), JobRow.belongs, decide_eq_true huser, Bool.true_or]
      · split at hid
        · next hnobody =>
          rw [← hsame (Option.some.inj hid), JobRow.belongs, hnobody, Bool.or_true]
        · cases hid
    · intro hbelongs
      refine ⟨j, hj, ?_⟩
      unfold JobRow.belongs at hbelongs
      split
      · rfl
      · next huser =>
        rw [decide_eq_false huser, Bool.false_or] at hbelongs
        rw [if_pos hbelongs]
  cases hb : j.belongs phoneOf user with
  | true => rw [hids.2 hb, Bool.or_true]
  | false =>
    have hcontains : (db.legacyNotificationIds phoneOf user.id user.phone).contains j.id = false := by
      rw [← Bool.not_eq_true, hids, hb]
      exact Bool.false_ne_true
    rw [hcontains, Bool.or_false]
    unfold JobRow.belongs at hb
    exact (Bool.or_eq_false_iff.1 hb).1

/-- The jobs, with their attempts. -/
theorem deleteJobs_belongs (h : db.Consistent) :
    db.deleteJobs (fun j ↦ j.userId = some user.id ||
      (db.legacyNotificationIds phoneOf user.id user.phone).contains j.id) =
        { db with
          jobs := (db.without phoneOf user).jobs
          failureAttempts := (db.without phoneOf user).failureAttempts } := by
  have hjobs : db.jobs.filter (fun j ↦ !(decide (j.userId = some user.id) ||
      (db.legacyNotificationIds phoneOf user.id user.phone).contains j.id)) =
        (db.without phoneOf user).jobs :=
    List.filter_congr fun j hj ↦ congrArg not (belongs_iff h hj)
  have hattempts : db.failureAttempts.filter (fun a ↦ !db.jobs.any fun j ↦
      (decide (j.userId = some user.id) ||
        (db.legacyNotificationIds phoneOf user.id user.phone).contains j.id) &&
          decide (j.id = a.notificationJobId)) = (db.without phoneOf user).failureAttempts := by
    refine List.filter_congr fun a _ ↦ congrArg not ?_
    rw [Bool.eq_iff_iff, List.any_eq_true, List.any_eq_true]
    refine exists_congr fun j ↦ and_congr_right fun hj ↦ ?_
    rw [belongs_iff h hj]
  rw [deleteJobs, hjobs, hattempts]

/-- No job that is left refers to a code of the user, and no event that is left does. -/
theorem deleteOtpCodes_owned (phoneOf : StoredPayload → Option String) (h : db.Consistent)
    {db' : AccountDb} (hcodes : db'.otpCodes = db.otpCodes)
    (hjobs : ∀ j ∈ db'.jobs, j ∈ db.jobs ∧ j.userId ≠ some user.id)
    (hevents : ∀ e ∈ db'.authEvents, e ∈ db.authEvents ∧ e.userId ≠ some user.id) :
    db'.deleteOtpCodes (fun o ↦ o.userId = user.id) =
      .ok { db' with otpCodes := (db.without phoneOf user).otpCodes } := by
  have hnone : ¬ db'.jobs.any (fun j ↦ db'.otpCodes.any fun o ↦
      decide (o.userId = user.id) && decide (j.otpCodeId = some o.id)) = true := by
    rw [List.any_eq_true]
    rintro ⟨j, hj, hany⟩
    obtain ⟨o, ho, hboth⟩ := List.any_eq_true.1 hany
    rw [Bool.and_eq_true, decide_eq_true_iff, decide_eq_true_iff] at hboth
    refine (hjobs j hj).2 ?_
    rw [h.jobCodes j (hjobs j hj).1 o (hcodes ▸ ho) hboth.2, hboth.1]
  have hsame : db'.authEvents.map (fun e ↦
      if db'.otpCodes.any fun o ↦ decide (o.userId = user.id) && decide (e.otpCodeId = some o.id) then
        { e with otpCodeId := none }
      else e) = db'.authEvents := by
    refine map_eq_self fun e he ↦ if_neg fun hany ↦ ?_
    obtain ⟨o, ho, hboth⟩ := List.any_eq_true.1 hany
    rw [Bool.and_eq_true, decide_eq_true_iff, decide_eq_true_iff] at hboth
    refine (hevents e he).2 ?_
    rw [h.eventCodes e (hevents e he).1 o (hcodes ▸ ho) hboth.2, hboth.1]
  have hleft : db'.otpCodes.filter (fun o ↦ !decide (o.userId = user.id)) =
      (db.without phoneOf user).otpCodes := by
    rw [hcodes]
    rfl
  rw [deleteOtpCodes, if_neg hnone, hsame, hleft]

/-- No transaction that is left refers to a goal of the user, and no alert state that is left does. -/
theorem deleteGoals_owned (phoneOf : StoredPayload → Option String) (h : db.Consistent)
    {db' : AccountDb} (hgoals : db'.goals = db.goals)
    (htransactions : ∀ tx ∈ db'.transactions, tx ∈ db.transactions ∧ tx.userId ≠ user.id)
    (hstates : ∀ state ∈ db'.alertStates, state ∈ db.alertStates ∧ state.userId ≠ user.id) :
    db'.deleteGoals (fun g ↦ g.userId = user.id) =
      { db' with goals := (db.without phoneOf user).goals } := by
  have hsame : db'.transactions.map (fun tx ↦
      if db'.goals.any fun g ↦ decide (g.userId = user.id) && decide (tx.goalId = some g.id) then
        { tx with goalId := none }
      else tx) = db'.transactions := by
    refine map_eq_self fun tx htx ↦ if_neg fun hany ↦ ?_
    obtain ⟨g, hg, hboth⟩ := List.any_eq_true.1 hany
    rw [Bool.and_eq_true, decide_eq_true_iff, decide_eq_true_iff] at hboth
    refine (htransactions tx htx).2 ?_
    rw [← h.transactionGoals tx (htransactions tx htx).1 g (hgoals ▸ hg) hboth.2, hboth.1]
  have hstay : db'.alertStates.filter (fun state ↦
      !db'.goals.any fun g ↦ decide (g.userId = user.id) && decide (state.goalId = g.id)) =
        db'.alertStates := by
    refine List.filter_eq_self.2 fun state hstate ↦ ?_
    rw [Bool.not_eq_true', ← Bool.not_eq_true, List.any_eq_true]
    rintro ⟨g, hg, hboth⟩
    rw [Bool.and_eq_true, decide_eq_true_iff, decide_eq_true_iff] at hboth
    refine (hstates state hstate).2 ?_
    rw [← h.stateGoals state (hstates state hstate).1 g (hgoals ▸ hg) hboth.2, hboth.1]
  have hleft : db'.goals.filter (fun g ↦ !decide (g.userId = user.id)) =
      (db.without phoneOf user).goals := by
    rw [hgoals]
    rfl
  rw [deleteGoals, hsame, hstay, hleft]

/-- When the other rows are gone, the user is deleted with the refresh tokens. -/
theorem deleteUser_last (user : UserRow) (db' : AccountDb)
    (hcodes : ∀ o ∈ db'.otpCodes, o.userId ≠ user.id)
    (hgoals : ∀ g ∈ db'.goals, g.userId ≠ user.id)
    (htransactions : ∀ tx ∈ db'.transactions, tx.userId ≠ user.id)
    (hjobs : ∀ j ∈ db'.jobs, j.userId ≠ some user.id)
    (hevents : ∀ e ∈ db'.authEvents, e.userId ≠ some user.id)
    (halertPreferences : ∀ row ∈ db'.alertPreferences, row.userId ≠ user.id)
    (hstates : ∀ state ∈ db'.alertStates, state.userId ≠ user.id)
    (hconsentPreferences : ∀ row ∈ db'.consentPreferences, row.userId ≠ user.id)
    (hconsentRecords : ∀ row ∈ db'.consentRecords, row.userId ≠ user.id) :
    db'.deleteUser user.id = .ok { db' with
      users := db'.users.filter fun u ↦ u.id ≠ user.id
      refreshTokens := db'.refreshTokens.filter fun row ↦ row.userId ≠ user.id } := by
  -- The three tables that restrict the deletion have no row of the user left.
  have hfree : ¬ (db'.otpCodes.any (fun o ↦ o.userId = user.id) ||
      db'.goals.any (fun g ↦ g.userId = user.id) ||
        db'.transactions.any (fun tx ↦ tx.userId = user.id)) = true := by
    simp only [Bool.or_eq_true, List.any_eq_true, decide_eq_true_eq]
    rintro ((⟨o, ho, heq⟩ | ⟨g, hg, heq⟩) | ⟨tx, htx, heq⟩)
    · exact hcodes o ho heq
    · exact hgoals g hg heq
    · exact htransactions tx htx heq
  have hkeep : ∀ {α : Type} {l : List α} {f : α → ℕ}, (∀ a ∈ l, f a ≠ user.id) →
      (l.filter fun a ↦ f a ≠ user.id) = l := fun h ↦
    List.filter_eq_self.2 fun a ha ↦ decide_eq_true (h a ha)
  -- The remaining actions find nothing to cascade to, nor to set to null.
  have hjobs' : db'.deleteJobs (fun j ↦ j.userId = some user.id) = db' := by
    have hstay : db'.jobs.filter (fun j ↦ !decide (j.userId = some user.id)) = db'.jobs :=
      List.filter_eq_self.2 fun j hj ↦ by rw [decide_eq_false (hjobs j hj), Bool.not_false]
    have hattempts : db'.failureAttempts.filter (fun a ↦ !db'.jobs.any fun j ↦
        decide (j.userId = some user.id) && decide (j.id = a.notificationJobId)) =
          db'.failureAttempts := by
      refine List.filter_eq_self.2 fun a _ ↦ ?_
      rw [Bool.not_eq_true', ← Bool.not_eq_true, List.any_eq_true]
      rintro ⟨j, hj, hboth⟩
      rw [Bool.and_eq_true, decide_eq_true_iff] at hboth
      exact hjobs j hj hboth.1
    rw [deleteJobs, hstay, hattempts]
  have hsame : db'.authEvents.map (fun e ↦
      if e.userId = some user.id then { e with userId := none } else e) = db'.authEvents :=
    map_eq_self fun e he ↦ if_neg (hevents e he)
  rw [deleteUser, if_neg hfree, hjobs', hsame, hkeep halertPreferences, hkeep hstates,
    hkeep hconsentPreferences, hkeep hconsentRecords]

theorem countP_user (h : db.Consistent) (huser : user ∈ db.users) :
    db.users.countP (fun u ↦ u.id = user.id) = 1 := by
  rw [List.countP_eq_length_filter]
  have hcount : (db.users.map fun u ↦ u.id).count user.id = 1 :=
    List.count_eq_one_of_mem h.userIds (List.mem_map_of_mem huser)
  rw [List.count_eq_countP, List.countP_map, List.countP_eq_length_filter] at hcount
  rw [← hcount]
  congr 1

theorem deleteOneUser_eq {db' : AccountDb} {userId : ℕ} (h : db.deleteUser userId = .ok db')
    (hcount : db.users.countP (fun u ↦ u.id = userId) = 1) :
    db.deleteOneUser userId = .ok db' := by
  rw [deleteOneUser, h]
  exact if_pos hcount

/-- The tables before the user is deleted. -/
def withUser (phoneOf : StoredPayload → Option String) (user : UserRow) (db : AccountDb) : AccountDb :=
  { db.without phoneOf user with
    users := db.users
    refreshTokens := db.refreshTokens }

/-- **The deletion transaction succeeds**, and leaves what does not belong to the user. -/
theorem deletion_chain (h : db.Consistent) (huser : user ∈ db.users) :
    Chain (deletionStatements user.id user.phone (db.legacyNotificationIds phoneOf user.id user.phone))
      db (db.without phoneOf user) := by
  have hjobs : ∀ j ∈ (db.without phoneOf user).jobs, j ∈ db.jobs ∧ j.userId ≠ some user.id := by
    intro j hj
    obtain ⟨hj, hnot⟩ := List.mem_filter.1 hj
    refine ⟨hj, fun heq ↦ ?_⟩
    rw [JobRow.belongs, decide_eq_true heq, Bool.true_or] at hnot
    cases hnot
  have hevents : ∀ e ∈ (db.without phoneOf user).authEvents,
      e ∈ db.authEvents ∧ e.userId ≠ some user.id := by
    intro e he
    obtain ⟨he, hnot⟩ := List.mem_filter.1 he
    refine ⟨he, fun heq ↦ ?_⟩
    rw [AuthEventRow.belongs, decide_eq_true heq, Bool.true_or] at hnot
    cases hnot
  have howned : ∀ {α : Type} {l : List α} {f : α → ℕ},
      ∀ a ∈ l.filter (fun a ↦ !decide (f a = user.id)), a ∈ l ∧ f a ≠ user.id := by
    intro α l f a ha
    obtain ⟨ha, hnot⟩ := List.mem_filter.1 ha
    exact ⟨ha, by simpa using hnot⟩
  have hfiltered : ∀ {α : Type} {l : List α} {f : α → ℕ},
      ∀ a ∈ l.filter (fun a ↦ f a ≠ user.id), f a ≠ user.id := fun a ha ↦
    of_decide_eq_true (List.mem_filter.1 ha).2
  refine ⟨_, congrArg Except.ok (deleteJobs_belongs h), _, rfl, _,
    deleteOtpCodes_owned phoneOf h rfl hjobs hevents, _, rfl, _, rfl, _, rfl, _, rfl, _,
    rfl, _, congrArg Except.ok (deleteGoals_owned phoneOf h rfl howned howned), _, ?_,
    rfl⟩
  have hlast := deleteUser_last user (db.withUser phoneOf user)
    (fun o ho ↦ (howned o ho).2) (fun g hg ↦ (howned g hg).2) (fun tx htx ↦ (howned tx htx).2)
    (fun j hj ↦ (hjobs j hj).2) (fun e he ↦ (hevents e he).2) hfiltered
    (fun state hstate ↦ (howned state hstate).2) hfiltered hfiltered
  have hcount := countP_user h huser
  have hone : (db.withUser phoneOf user).deleteOneUser user.id = .ok (db.without phoneOf user) :=
    deleteOneUser_eq hlast hcount
  exact hone

/-! ### What the operations keep -/

/-- What was generated before was generated before later rows. -/
theorem Below.mono {n m : ℕ} (h : db.Below n) (hnm : n ≤ m) : db.Below m where
  users u hu := Nat.lt_of_lt_of_le (h.users u hu) hnm
  otpCodes o ho := Nat.lt_of_lt_of_le (h.otpCodes o ho) hnm
  goals g hg := Nat.lt_of_lt_of_le (h.goals g hg) hnm
  jobs j hj := Nat.lt_of_lt_of_le (h.jobs j hj) hnm
  eventCodes e he o ho := Nat.lt_of_lt_of_le (h.eventCodes e he o ho) hnm
  jobCodes j hj o ho := Nat.lt_of_lt_of_le (h.jobCodes j hj o ho) hnm
  transactionGoals tx htx g hg := Nat.lt_of_lt_of_le (h.transactionGoals tx htx g hg) hnm
  stateGoals state hstate := Nat.lt_of_lt_of_le (h.stateGoals state hstate) hnm

/-- One more row that meets the condition. -/
theorem forall_concat {α : Type} {l : List α} {b : α} {p : α → Prop} (hl : ∀ a ∈ l, p a) (hb : p b) :
    ∀ a ∈ l ++ [b], p a :=
  List.forall_mem_append.2 ⟨hl, List.forall_mem_singleton.2 hb⟩

/-- One more row with a key of its own. -/
theorem nodup_concat {α β : Type} {l : List α} {b : α} {f : α → β} (hl : (l.map f).Nodup)
    (hb : ∀ a ∈ l, f a ≠ f b) : ((l ++ [b]).map f).Nodup := by
  rw [List.map_append, List.map_singleton, List.nodup_append]
  refine ⟨hl, List.nodup_singleton _, ?_⟩
  rintro _ hmem _ hlast
  obtain ⟨a, ha, rfl⟩ := List.mem_map.1 hmem
  rw [List.mem_singleton.1 hlast]
  exact hb a ha

section Insertions

variable (h : db.Consistent)
include h

/-- A new user has a phone that no other one has. -/
theorem Consistent.addUser {phone : String} (hphone : ∀ u ∈ db.users, u.phone ≠ phone) :
    (db.addUser phone).Consistent :=
  { h with
    below := { h.below.mono (Nat.le_succ _) with
      users := forall_concat (h.below.mono (Nat.le_succ _)).users (Nat.lt_succ_self _) }
    userIds := nodup_concat h.userIds fun u hu ↦ Nat.ne_of_lt (h.below.users u hu)
    phones := nodup_concat h.phones hphone
    events := fun e he v hv ↦ by
      obtain ⟨u, hu, hboth⟩ := h.events e he v hv
      exact ⟨u, List.mem_append_left _ hu, hboth⟩ }

theorem Consistent.addOtpCode (userId : ℕ) : (db.addOtpCode userId).Consistent :=
  { h with
    below := { h.below.mono (Nat.le_succ _) with
      otpCodes := forall_concat (h.below.mono (Nat.le_succ _)).otpCodes (Nat.lt_succ_self _) }
    otpIds := nodup_concat h.otpIds fun o ho ↦ Nat.ne_of_lt (h.below.otpCodes o ho)
    eventCodes := fun e he ↦ forall_concat (h.eventCodes e he) fun heq ↦
      absurd (h.below.eventCodes e he _ heq) (Nat.lt_irrefl _)
    jobCodes := fun j hj ↦ forall_concat (h.jobCodes j hj) fun heq ↦
      absurd (h.below.jobCodes j hj _ heq) (Nat.lt_irrefl _) }

/-- An event of a user, with a code of the user. -/
theorem Consistent.addAuthEvent {phone : String} {userId otpCodeId : Option ℕ}
    (huser : ∀ v, userId = some v → ∃ u ∈ db.users, u.id = v ∧ u.phone = phone)
    (hcode : ∀ k, otpCodeId = some k → k < db.next + 1 ∧ ∀ o ∈ db.otpCodes, o.id = k →
      userId = some o.userId) : (db.addAuthEvent phone userId otpCodeId).Consistent :=
  { h with
    below := { h.below.mono (Nat.le_succ _) with
      eventCodes := forall_concat (h.below.mono (Nat.le_succ _)).eventCodes fun k hk ↦ (hcode k hk).1 }
    events := forall_concat h.events huser
    eventCodes := forall_concat h.eventCodes fun o ho heq ↦ (hcode o.id heq).2 o ho rfl }

/-- A new job refers to a code of its user, or to none. -/
theorem Consistent.addJob {payload : StoredPayload} {userId otpCodeId : Option ℕ}
    (hcode : ∀ k, otpCodeId = some k → k < db.next + 1 ∧ ∀ o ∈ db.otpCodes, o.id = k →
      userId = some o.userId) : (db.addJob payload userId otpCodeId).Consistent :=
  { h with
    below := { h.below.mono (Nat.le_succ _) with
      jobs := forall_concat (h.below.mono (Nat.le_succ _)).jobs (Nat.lt_succ_self _)
      jobCodes := forall_concat (h.below.mono (Nat.le_succ _)).jobCodes fun k hk ↦ (hcode k hk).1 }
    jobIds := nodup_concat h.jobIds fun j hj ↦ Nat.ne_of_lt (h.below.jobs j hj)
    jobCodes := forall_concat h.jobCodes fun o ho heq ↦ (hcode o.id heq).2 o ho rfl }

theorem Consistent.addGoal (userId : ℕ) : (db.addGoal userId).Consistent :=
  { h with
    below := { h.below.mono (Nat.le_succ _) with
      goals := forall_concat (h.below.mono (Nat.le_succ _)).goals (Nat.lt_succ_self _) }
    goalIds := nodup_concat h.goalIds fun g hg ↦ Nat.ne_of_lt (h.below.goals g hg)
    transactionGoals := fun tx htx ↦ forall_concat (h.transactionGoals tx htx) fun heq ↦
      absurd (h.below.transactionGoals tx htx _ heq) (Nat.lt_irrefl _)
    stateGoals := fun state hstate ↦ forall_concat (h.stateGoals state hstate) fun heq ↦
      absurd (heq ▸ h.below.stateGoals state hstate) (Nat.lt_irrefl _) }

/-- A goal of a user is the only one with its number. -/
theorem Consistent.hasGoal {userId goalId : ℕ} (hgoal : db.hasGoal userId goalId = true) :
    goalId < db.next ∧ ∀ g ∈ db.goals, g.id = goalId → g.userId = userId := by
  obtain ⟨g, hg, hboth⟩ := List.any_eq_true.1 hgoal
  rw [Bool.and_eq_true, decide_eq_true_iff, decide_eq_true_iff] at hboth
  refine ⟨hboth.1 ▸ h.below.goals g hg, fun g' hg' hid ↦ ?_⟩
  rw [List.inj_on_of_nodup_map h.goalIds hg' hg (hid.trans hboth.1.symm)]
  exact hboth.2

/-- A goal that was checked is the user's, or there is none. -/
theorem Consistent.linked {userId : ℕ} {goalId : Option ℕ}
    (hgoal : goalId.all (db.hasGoal userId) = true) :
    ∀ k, goalId = some k → k < db.next ∧ ∀ g ∈ db.goals, g.id = k → g.userId = userId := by
  rintro k rfl
  exact h.hasGoal hgoal

/-- A new transaction refers to a goal of its user, or to none. -/
theorem Consistent.addTransaction {userId : ℕ} {goalId : Option ℕ}
    (hgoal : ∀ k, goalId = some k → k < db.next ∧ ∀ g ∈ db.goals, g.id = k → g.userId = userId) :
    (db.addTransaction userId goalId).Consistent :=
  { h with
    below := { h.below.mono (Nat.le_succ _) with
      transactionGoals := forall_concat (h.below.mono (Nat.le_succ _)).transactionGoals fun k hk ↦
        Nat.lt_succ_of_lt (hgoal k hk).1 }
    transactionGoals := forall_concat h.transactionGoals fun g hg heq ↦ (hgoal g.id heq).2 g hg rfl }

/-- A new alert state refers to a goal of its user. -/
theorem Consistent.addAlertState {userId goalId : ℕ}
    (hgoal : goalId < db.next ∧ ∀ g ∈ db.goals, g.id = goalId → g.userId = userId) :
    (db.addAlertState userId goalId).Consistent :=
  { h with
    below := { h.below.mono (Nat.le_succ _) with
      stateGoals := forall_concat (h.below.mono (Nat.le_succ _)).stateGoals
        (Nat.lt_succ_of_lt hgoal.1) }
    stateGoals := forall_concat h.stateGoals fun g hg heq ↦ hgoal.2 g hg heq.symm }

/-- Rows that nothing refers to are added. -/
theorem Consistent.addDetail {db' : AccountDb} (hnext : db.next ≤ db'.next)
    (hsame : db' = { db with
      next := db'.next
      refreshTokens := db'.refreshTokens
      failureAttempts := db'.failureAttempts
      alertPreferences := db'.alertPreferences
      consentPreferences := db'.consentPreferences
      consentRecords := db'.consentRecords }) : db'.Consistent := by
  rw [hsame]
  exact { h with below := { h.below.mono hnext with } }

end Insertions

/-- Rows are deleted, and with a user the events of the user. -/
theorem Consistent.of_sublist {db' : AccountDb} (h : db.Consistent) (hnext : db'.next = db.next)
    (husers : List.Sublist db'.users db.users) (hcodes : List.Sublist db'.otpCodes db.otpCodes)
    (hgoals : List.Sublist db'.goals db.goals) (hjobs : List.Sublist db'.jobs db.jobs)
    (hevents : ∀ e ∈ db'.authEvents, e ∈ db.authEvents)
    (htransactions : ∀ tx ∈ db'.transactions, tx ∈ db.transactions)
    (hstates : ∀ state ∈ db'.alertStates, state ∈ db.alertStates)
    (hkept : ∀ e ∈ db'.authEvents, ∀ v, e.userId = some v →
      ∃ user ∈ db'.users, user.id = v ∧ user.phone = e.phone) : db'.Consistent where
  below := {
    users := fun u hu ↦ hnext ▸ h.below.users u (husers.subset hu)
    otpCodes := fun o ho ↦ hnext ▸ h.below.otpCodes o (hcodes.subset ho)
    goals := fun g hg ↦ hnext ▸ h.below.goals g (hgoals.subset hg)
    jobs := fun j hj ↦ hnext ▸ h.below.jobs j (hjobs.subset hj)
    eventCodes := fun e he ↦ hnext ▸ h.below.eventCodes e (hevents e he)
    jobCodes := fun j hj ↦ hnext ▸ h.below.jobCodes j (hjobs.subset hj)
    transactionGoals := fun tx htx ↦ hnext ▸ h.below.transactionGoals tx (htransactions tx htx)
    stateGoals := fun state hstate ↦ hnext ▸ h.below.stateGoals state (hstates state hstate) }
  userIds := h.userIds.sublist (husers.map _)
  phones := h.phones.sublist (husers.map _)
  otpIds := h.otpIds.sublist (hcodes.map _)
  goalIds := h.goalIds.sublist (hgoals.map _)
  jobIds := h.jobIds.sublist (hjobs.map _)
  events := hkept
  eventCodes e he o ho := h.eventCodes e (hevents e he) o (hcodes.subset ho)
  jobCodes j hj o ho := h.jobCodes j (hjobs.subset hj) o (hcodes.subset ho)
  transactionGoals tx htx g hg := h.transactionGoals tx (htransactions tx htx) g (hgoals.subset hg)
  stateGoals state hstate g hg := h.stateGoals state (hstates state hstate) g (hgoals.subset hg)

/-- Transactions may go: nothing refers to them. -/
theorem Consistent.deleteTransactions (h : db.Consistent) (p : LedgerRow → Bool) :
    (db.deleteTransactions p).Consistent :=
  h.of_sublist rfl (List.Sublist.refl _) (List.Sublist.refl _) (List.Sublist.refl _)
    (List.Sublist.refl _) (fun _ he ↦ he) (fun _ htx ↦ (List.mem_filter.1 htx).1)
    (fun _ hstate ↦ hstate) h.events

/-- The events of the user go with the user. -/
theorem Consistent.without (h : db.Consistent) (phoneOf : StoredPayload → Option String)
    (user : UserRow) : (db.without phoneOf user).Consistent := by
  refine h.of_sublist rfl List.filter_sublist List.filter_sublist List.filter_sublist
    List.filter_sublist (fun _ he ↦ (List.mem_filter.1 he).1)
    (fun _ htx ↦ (List.mem_filter.1 htx).1) (fun _ hstate ↦ (List.mem_filter.1 hstate).1) ?_
  intro e he v hv
  obtain ⟨he, hnot⟩ := List.mem_filter.1 he
  obtain ⟨u, hu, hid, hphone⟩ := h.events e he v hv
  refine ⟨u, List.mem_filter.2 ⟨hu, decide_eq_true fun heq ↦ ?_⟩, hid, hphone⟩
  rw [AuthEventRow.belongs, hv, ← hid, heq, decide_eq_true rfl, Bool.true_or] at hnot
  cases hnot

/-- Codes are deleted; the events only lose references. -/
theorem Consistent.deleteOtpCodes (h : db.Consistent) (p : OtpCodeRow → Bool) :
    (db.orKeep (db.deleteOtpCodes p)).Consistent := by
  unfold AccountDb.deleteOtpCodes
  split
  · exact h
  have hevents : ∀ e ∈ db.authEvents.map (fun e ↦
      if db.otpCodes.any fun o ↦ p o && decide (e.otpCodeId = some o.id) then
        { e with otpCodeId := none }
      else e), ∃ e₀ ∈ db.authEvents, e.userId = e₀.userId ∧ e.phone = e₀.phone ∧
        ∀ k, e.otpCodeId = some k → e₀.otpCodeId = some k := by
    intro e he
    obtain ⟨e₀, he₀, rfl⟩ := List.mem_map.1 he
    refine ⟨e₀, he₀, ?_⟩
    split
    · exact ⟨rfl, rfl, fun k hk ↦ nomatch hk⟩
    · exact ⟨rfl, rfl, fun k hk ↦ hk⟩
  exact { h with
    below := { h.below with
      otpCodes := fun o ho ↦ h.below.otpCodes o (List.mem_filter.1 ho).1
      eventCodes := fun e he k hk ↦ by
        obtain ⟨e₀, he₀, -, -, hcode⟩ := hevents e he
        exact h.below.eventCodes e₀ he₀ k (hcode k hk) }
    otpIds := h.otpIds.sublist (List.filter_sublist.map _)
    events := fun e he v hv ↦ by
      obtain ⟨e₀, he₀, huserId, hphone, -⟩ := hevents e he
      rw [hphone]
      exact h.events e₀ he₀ v (huserId ▸ hv)
    eventCodes := fun e he o ho heq ↦ by
      obtain ⟨e₀, he₀, huserId, -, hcode⟩ := hevents e he
      rw [huserId]
      exact h.eventCodes e₀ he₀ o (List.mem_filter.1 ho).1 (hcode _ heq)
    jobCodes := fun j hj o ho ↦ h.jobCodes j hj o (List.mem_filter.1 ho).1 }

/-- Jobs change, but not whose they are; a code they get is one of their user. -/
theorem Consistent.mapJobs (h : db.Consistent) {f : JobRow → JobRow} (hid : ∀ j, (f j).id = j.id)
    (huser : ∀ j, (f j).userId = j.userId)
    (hcode : ∀ j k, (f j).otpCodeId = some k → j.otpCodeId = some k ∨
      k < db.next ∧ ∀ o ∈ db.otpCodes, o.id = k → j.userId = some o.userId) :
    Consistent { db with jobs := db.jobs.map f } :=
  { h with
    below := { h.below with
      jobs := List.forall_mem_map.2 fun j hj ↦ (hid j).symm ▸ h.below.jobs j hj
      jobCodes := List.forall_mem_map.2 fun j hj k hk ↦
        (hcode j k hk).elim (h.below.jobCodes j hj k) And.left }
    jobIds := by
      rw [List.map_map]
      exact (congrArg List.Nodup (List.map_congr_left fun j _ ↦ hid j)).mpr h.jobIds
    jobCodes := List.forall_mem_map.2 fun j hj o ho heq ↦ by
      rw [huser]
      obtain hold | ⟨-, hown⟩ := hcode j o.id heq
      · exact h.jobCodes j hj o ho hold
      · exact hown o ho rfl }

/-- **A repeated request** for a code. -/
theorem Consistent.replayOtpRequest (h : db.Consistent) (otpCodeId : ℕ) (course : ReplayCourse) :
    (db.replayOtpRequest otpCodeId course).Consistent := by
  unfold AccountDb.replayOtpRequest
  split
  · exact h
  · next existing hfind =>
    have hmem : existing ∈ db.otpCodes := List.mem_of_find?_eq_some hfind
    cases course with
    | deleteStale => exact h.deleteOtpCodes _
    | adoptLegacyOtpRequest jobId =>
      refine h.mapJobs (fun j ↦ ?_) (fun j ↦ ?_) (fun j k hk ↦ ?_)
      · split <;> rfl
      · split <;> rfl
      · split at hk
        · next hadopted =>
          cases hk
          refine .inr ⟨h.below.otpCodes existing hmem, fun o ho heq ↦ ?_⟩
          rw [List.inj_on_of_nodup_map h.otpIds ho hmem heq]
          exact hadopted.2.1
        · exact .inl hk

/-- **A completed job** keeps its owner and its code. -/
theorem Consistent.settleJob (h : db.Consistent) (id : ℕ) (payload : StoredPayload) (failed : Bool) :
    (db.settleJob id payload failed).Consistent := by
  unfold AccountDb.settleJob
  split
  · have hmap : Consistent { db with
        jobs := db.jobs.map fun j ↦ if j.id = id then { j with payloadJson := payload } else j } := by
      refine h.mapJobs (fun j ↦ ?_) (fun j ↦ ?_) (fun j k hk ↦ ?_)
      · split <;> rfl
      · split <;> rfl
      · split at hk <;> exact .inl hk
    cases failed with
    | true => exact hmap.addDetail (Nat.le_succ _) rfl
    | false => exact hmap
  · exact h

/-- **A transaction is changed**, to a goal of its user. -/
theorem Consistent.updateTransaction (h : db.Consistent) (userId id : ℕ) (goalId : Option ℕ) :
    (db.updateTransaction userId id goalId).Consistent := by
  unfold AccountDb.updateTransaction
  split
  · next hgoal =>
    have hlinked := h.linked hgoal
    exact { h with
      below := { h.below with
        transactionGoals := List.forall_mem_map.2 fun tx htx k hk ↦ by
          split at hk
          · exact (hlinked k hk).1
          · exact h.below.transactionGoals tx htx k hk }
      transactionGoals := List.forall_mem_map.2 fun tx htx g hg heq ↦ by
        split at heq
        · next hupdated =>
          rw [if_pos hupdated, (hlinked g.id heq).2 g hg rfl]
          exact hupdated.2.symm
        · next hother =>
          rw [if_neg hother]
          exact h.transactionGoals tx htx g hg heq }
  · exact h

/-- Who is found by the phone has it. -/
theorem userWithPhone_spec {phone : String} (hfind : db.userWithPhone phone = some user) :
    user ∈ db.users ∧ user.phone = phone := by
  have hphone := List.find?_some hfind
  exact ⟨List.mem_of_find?_eq_some hfind, of_decide_eq_true hphone⟩

/-- A code that is found for a user is the user's. -/
theorem otpCodeOf_spec {userId otpCodeId : ℕ} {o : OtpCodeRow}
    (hfind : db.otpCodeOf userId otpCodeId = some o) : o ∈ db.otpCodes ∧ o.userId = userId := by
  have hboth := List.find?_some hfind
  rw [Bool.and_eq_true, decide_eq_true_iff, decide_eq_true_iff] at hboth
  exact ⟨List.mem_of_find?_eq_some hfind, hboth.2⟩

/-- The user of a phone is there after an upsert, whether or not before. -/
theorem Consistent.upsertUser (h : db.Consistent) (phone : String) :
    (db.upsertUser phone).2.Consistent ∧ (db.upsertUser phone).1 ∈ (db.upsertUser phone).2.users ∧
      (db.upsertUser phone).1.phone = phone := by
  unfold AccountDb.upsertUser
  split
  · next user hfind => exact ⟨h, userWithPhone_spec hfind⟩
  · next hnone =>
    have hphone : ∀ u ∈ db.users, u.phone ≠ phone := fun u hu ↦ by
      simpa using List.find?_eq_none.1 hnone u hu
    exact ⟨h.addUser hphone, List.mem_append_right _ (List.mem_singleton_self _), rfl⟩

/-- An event of a code of the user. -/
theorem Consistent.addCodeEvent (h : db.Consistent) {phone : String} (huser : user ∈ db.users)
    (hphone : user.phone = phone) {o : OtpCodeRow} (ho : o ∈ db.otpCodes)
    (howner : o.userId = user.id) :
    (db.addAuthEvent phone (some user.id) (some o.id)).Consistent := by
  refine h.addAuthEvent (fun v hv ↦ ?_) (fun k hk ↦ ?_)
  · exact ⟨user, huser, Option.some.inj hv, hphone⟩
  · cases hk
    refine ⟨Nat.lt_succ_of_lt (h.below.otpCodes o ho), fun o' ho' heq ↦ ?_⟩
    rw [List.inj_on_of_nodup_map h.otpIds ho' ho heq, howner]

/-- An event of nobody, for a phone. -/
theorem Consistent.addPhoneEvent (h : db.Consistent) (phone : String) :
    (db.addAuthEvent phone none none).Consistent :=
  h.addAuthEvent (fun _ hv ↦ nomatch hv) (fun _ hk ↦ nomatch hk)

/-- The new code of a request, with its event. -/
theorem Consistent.addCode (h : db.Consistent) {phone : String} (huser : user ∈ db.users)
    (hphone : user.phone = phone) :
    ((db.addOtpCode user.id).addAuthEvent phone (some user.id) (some db.next)).Consistent :=
  (h.addOtpCode user.id).addCodeEvent (o := ⟨db.next, user.id⟩) huser hphone
    (List.mem_append_right _ (List.mem_singleton_self _)) rfl

/-- The notification of the new code. -/
theorem Consistent.addCodeJob (h : db.Consistent) {phone : String} (huser : user ∈ db.users)
    (hphone : user.phone = phone) (payload : StoredPayload) :
    (((db.addOtpCode user.id).addAuthEvent phone (some user.id) (some db.next)).addJob payload
      (some user.id) (some db.next)).Consistent := by
  refine (h.addCode huser hphone).addJob fun k hk ↦ ?_
  cases hk
  refine ⟨Nat.lt_succ_of_lt (Nat.lt_succ_of_lt (Nat.lt_succ_self _)), fun o ho heq ↦ ?_⟩
  have hnew : (⟨db.next, user.id⟩ : OtpCodeRow) ∈ (db.addOtpCode user.id).otpCodes :=
    List.mem_append_right _ (List.mem_singleton_self _)
  rw [List.inj_on_of_nodup_map (h.addOtpCode user.id).otpIds ho hnew heq]

/-- **A request** for a code, on any of its courses. -/
theorem Consistent.requestOtp (h : db.Consistent) (phone : String) (payload : StoredPayload)
    (course : RequestCourse) : (db.requestOtp phone payload course).Consistent := by
  obtain ⟨hupsert, huser, hphone⟩ := h.upsertUser phone
  cases course with
  | rateLimited => exact h.addPhoneEvent phone
  | stopped => exact hupsert
  | resendBlocked latestOtp =>
    simp only [AccountDb.requestOtp]
    split
    · exact hupsert
    · next o hfind =>
      obtain ⟨ho, howner⟩ := otpCodeOf_spec hfind
      exact hupsert.addCodeEvent huser hphone ho howner
  | eventFailed deleted =>
    cases deleted with
    | true => exact (hupsert.addOtpCode _).deleteOtpCodes _
    | false => exact hupsert.addOtpCode _
  | enqueueFailed => exact hupsert.addCode huser hphone
  | requested => exact hupsert.addCodeJob huser hphone payload

/-- **A sign-in**, on any of its courses. -/
theorem Consistent.verifyOtp (h : db.Consistent) (phone : String) (course : VerifyCourse) :
    (db.verifyOtp phone course).Consistent := by
  cases course with
  | windowLocked => exact h.addPhoneEvent phone
  | rejected otpCodeId =>
    simp only [AccountDb.verifyOtp]
    split
    · exact h
    · next user hfind =>
      obtain ⟨huser, hphone⟩ := userWithPhone_spec hfind
      split
      · exact h
      · next record hrecord =>
        obtain ⟨ho, howner⟩ := otpCodeOf_spec hrecord
        exact h.addCodeEvent huser hphone ho howner
  | verified otpCodeId =>
    simp only [AccountDb.verifyOtp]
    split
    · exact h
    · next user hfind =>
      obtain ⟨huser, hphone⟩ := userWithPhone_spec hfind
      split
      · exact h
      · next record hrecord =>
        obtain ⟨ho, howner⟩ := otpCodeOf_spec hrecord
        exact (h.addCodeEvent huser hphone ho howner).addDetail (Nat.le_succ _) rfl

/-- A write for a user who may be gone. -/
theorem Consistent.forUser (h : db.Consistent) (userId : ℕ) (write : AccountDb → AccountDb)
    (hwrite : (write db).Consistent) : (db.forUser userId write).Consistent := by
  unfold AccountDb.forUser
  split
  · exact hwrite
  · exact h

/-- What an insertion keeps, many keep. -/
theorem addMany_inv {I : AccountDb → Prop} (add : AccountDb → AccountDb)
    (hadd : ∀ db, I db → I (add db)) (n : ℕ) : ∀ {db}, I db → I (addMany add n db) := by
  induction n with
  | zero => exact fun h ↦ h
  | succ n ih => exact fun h ↦ ih (hadd _ h)

/-- **An import** adds transactions with one goal. -/
theorem Consistent.importTransactions (h : db.Consistent) {userId : ℕ} {goalId : Option ℕ}
    (hgoal : goalId.all (db.hasGoal userId) = true) (rows : ℕ) :
    (addMany (fun db ↦ db.addTransaction userId goalId) rows db).Consistent := by
  -- the goal stays the user's while the rows are added
  have hmany := addMany_inv (I := fun db ↦ db.Consistent ∧ ∀ k, goalId = some k →
    k < db.next ∧ ∀ g ∈ db.goals, g.id = k → g.userId = userId)
    (fun db ↦ db.addTransaction userId goalId)
    (fun db hdb ↦ ⟨hdb.1.addTransaction hdb.2, fun k hk ↦
      ⟨Nat.lt_succ_of_lt (hdb.2 k hk).1, (hdb.2 k hk).2⟩⟩) rows ⟨h, h.linked hgoal⟩
  exact hmany.1

/-- The alerts of an evaluation are jobs without a code. -/
theorem Consistent.addAlerts (userId : ℕ) (alerts : List StoredPayload) {db : AccountDb}
    (h : db.Consistent) :
    (alerts.foldl (fun db payload ↦ db.addJob payload (some userId) none) db).Consistent ∧
      db.next ≤ (alerts.foldl (fun db payload ↦ db.addJob payload (some userId) none) db).next ∧
      (alerts.foldl (fun db payload ↦ db.addJob payload (some userId) none) db).goals = db.goals := by
  induction alerts generalizing db with
  | nil => exact ⟨h, Nat.le_refl _, rfl⟩
  | cons payload alerts ih =>
    have hjob : (db.addJob payload (some userId) none).Consistent :=
      h.addJob fun _ hk ↦ nomatch hk
    obtain ⟨hlast, hnext, hgoals⟩ := ih hjob
    exact ⟨hlast, Nat.le_trans (Nat.le_succ _) hnext, hgoals⟩

/-- **An evaluation**, with its alerts and its state. -/
theorem Consistent.evaluateUser (h : db.Consistent) (userId goalId : ℕ)
    (alerts : List StoredPayload) (stateWritten : Bool) :
    (db.evaluateUser userId goalId alerts stateWritten).Consistent := by
  unfold AccountDb.evaluateUser
  split
  · next hready =>
    obtain ⟨hbelow, howned⟩ := h.hasGoal (Bool.and_eq_true_iff.1 hready).2
    obtain ⟨hlast, hnext, hgoals⟩ := Consistent.addAlerts userId alerts h
    dsimp only
    split
    · split
      · exact hlast
      · exact hlast.addAlertState ⟨Nat.lt_of_lt_of_le hbelow hnext, hgoals ▸ howned⟩
    · exact hlast
  · exact h

/-- How a deletion ends, for any statements that fail. -/
theorem Consistent.deleteAccount (h : db.Consistent) (phoneOf : StoredPayload → Option String)
    (userId : ℕ) (fails : ℕ → Bool) :
    (∃ user ∈ db.users, user.id = userId ∧
      db.deleteAccount phoneOf userId fails = (.ok (), db.without phoneOf user)) ∨
    ∃ e, e ≠ .foreignKey ∧ db.deleteAccount phoneOf userId fails = (.error e, db) := by
  unfold AccountDb.deleteAccount
  split
  · exact .inr ⟨_, DeletionFailure.noConfusion, rfl⟩
  split
  · exact .inr ⟨_, DeletionFailure.noConfusion, rfl⟩
  · next user hfind =>
    have huser : user ∈ db.users := List.mem_of_find?_eq_some hfind
    have hid := List.find?_some hfind
    obtain rfl : user.id = userId := of_decide_eq_true hid
    split
    · exact .inr ⟨_, DeletionFailure.noConfusion, rfl⟩
    obtain hrun | hrun := runStatements_of_chain (deletion_chain h huser)
    · rw [hrun]
      exact .inl ⟨user, huser, rfl, rfl⟩
    · rw [hrun]
      exact .inr ⟨_, DeletionFailure.noConfusion, rfl⟩

/-- **A deletion in which nothing fails** leaves what does not belong to the user. -/
theorem Consistent.deleteAccount_ok (h : db.Consistent) (phoneOf : StoredPayload → Option String)
    (huser : user ∈ db.users) :
    db.deleteAccount phoneOf user.id (fun _ ↦ false) = (.ok (), db.without phoneOf user) := by
  unfold AccountDb.deleteAccount
  rw [if_neg Bool.false_ne_true]
  split
  · next hnone => exact absurd (decide_eq_true rfl) (List.find?_eq_none.1 hnone user huser)
  · next user' hfind =>
    have hid := List.find?_some hfind
    have hsame : user' = user := List.inj_on_of_nodup_map h.userIds
      (List.mem_of_find?_eq_some hfind) huser (of_decide_eq_true hid)
    rw [if_neg Bool.false_ne_true, hsame, runStatements_all (deletion_chain h huser)]

end AccountDb

open AccountDb

/-- **Every call keeps the tables consistent.** -/
theorem AccountOp.run_consistent {phoneOf : StoredPayload → Option String} {db : AccountDb}
    (h : db.Consistent) (op : AccountOp) : (op.run phoneOf db).Consistent := by
  cases op with
  | requestOtp phone payload course => exact h.requestOtp phone payload course
  | replayOtpRequest otpCodeId course => exact h.replayOtpRequest otpCodeId course
  | verifyOtp phone course => exact h.verifyOtp phone course
  | refreshSession userId =>
    simp only [AccountOp.run]
    split
    · exact h.addDetail (Nat.le_succ _) rfl
    · exact h
  | settleJob id payload failed => exact h.settleJob id payload failed
  | createGoal userId => exact h.forUser userId (fun db ↦ db.addGoal userId) (h.addGoal userId)
  | createTransaction userId goalId =>
    simp only [AccountOp.run]
    split
    · next hgoal => exact h.forUser userId _ (h.addTransaction (h.linked hgoal))
    · exact h
  | importTransactions userId goalId rows =>
    simp only [AccountOp.run]
    split
    · next hgoal => exact h.forUser userId _ (h.importTransactions hgoal rows)
    · exact h
  | updateTransaction userId id goalId => exact h.updateTransaction userId id goalId
  | removeTransaction userId id => exact h.deleteTransactions _
  | updateAlertPreferences userId =>
    simp only [AccountOp.run]
    split
    · exact h
    · exact h.forUser userId _ (h.addDetail (Nat.le_succ _) rfl)
  | updateConsents userId records =>
    refine h.forUser userId (fun db ↦ addMany (fun db ↦ db.addConsentRecord userId) records
      (if db.consentPreferences.any fun row ↦ row.userId = userId then db
        else db.addConsentPreference userId))
      (addMany_inv (I := Consistent) (fun db ↦ db.addConsentRecord userId) (fun db hdb ↦ ?_)
        records ?_)
    · exact hdb.addDetail (Nat.le_succ _) rfl
    · split
      · exact h
      · exact h.addDetail (Nat.le_succ _) rfl
  | evaluateUser userId goalId alerts stateWritten =>
    exact h.evaluateUser userId goalId alerts stateWritten
  | deleteAccount userId fails =>
    change (db.deleteAccount phoneOf userId fails).2.Consistent
    obtain ⟨user, -, -, hdone⟩ | ⟨e, -, hfailed⟩ := h.deleteAccount phoneOf userId fails
    · rw [hdone]
      exact h.without phoneOf user
    · rw [hfailed]
      exact h

/-- The tables after the migrations are consistent. -/
theorem Migrated.consistent {db : AccountDb} (h : Migrated db) : db.Consistent where
  below := {
    users := h.usersBelow
    otpCodes := by rw [h.otpCodes]; exact List.forall_mem_nil _
    goals := by rw [h.goals]; exact List.forall_mem_nil _
    jobs := h.jobsBelow
    eventCodes := by rw [h.authEvents]; exact List.forall_mem_nil _
    jobCodes := fun j hj o ho ↦ nomatch (h.unlinked j hj).symm.trans ho
    transactionGoals := by rw [h.transactions]; exact List.forall_mem_nil _
    stateGoals := by rw [h.alertStates]; exact List.forall_mem_nil _ }
  userIds := h.userIds
  phones := h.phones
  otpIds := by rw [h.otpCodes]; exact List.nodup_nil
  goalIds := by rw [h.goals]; exact List.nodup_nil
  jobIds := h.jobIds
  events := by rw [h.authEvents]; exact List.forall_mem_nil _
  eventCodes := by rw [h.authEvents]; exact List.forall_mem_nil _
  jobCodes := fun j hj o _ heq ↦ nomatch (h.unlinked j hj).symm.trans heq
  transactionGoals := by rw [h.transactions]; exact List.forall_mem_nil _
  stateGoals := by rw [h.alertStates]; exact List.forall_mem_nil _

theorem accountAfter_consistent (phoneOf : StoredPayload → Option String) {db : AccountDb}
    (h : db.Consistent) (ops : List AccountOp) : (accountAfter phoneOf db ops).Consistent := by
  induction ops generalizing db with
  | nil => exact h
  | cons op ops ih => exact ih (op.run_consistent h)

/-! ### What is left of a user -/

/-- No row refers to the user, or is of the user's phone. -/
structure AccountErased (phoneOf : StoredPayload → Option String) (user : UserRow) (db : AccountDb) :
    Prop where
  users : ∀ u ∈ db.users, u.id ≠ user.id ∧ u.phone ≠ user.phone
  otpCodes : ∀ o ∈ db.otpCodes, o.userId ≠ user.id
  authEvents : ∀ e ∈ db.authEvents, e.userId ≠ some user.id ∧ e.phone ≠ user.phone
  refreshTokens : ∀ row ∈ db.refreshTokens, row.userId ≠ user.id
  goals : ∀ g ∈ db.goals, g.userId ≠ user.id
  transactions : ∀ tx ∈ db.transactions, tx.userId ≠ user.id
  jobs : ∀ j ∈ db.jobs, j.userId ≠ some user.id ∧
    (j.userId = none → phoneOf j.payloadJson ≠ some user.phone)
  alertPreferences : ∀ row ∈ db.alertPreferences, row.userId ≠ user.id
  alertStates : ∀ state ∈ db.alertStates, state.userId ≠ user.id
  consentPreferences : ∀ row ∈ db.consentPreferences, row.userId ≠ user.id
  consentRecords : ∀ row ∈ db.consentRecords, row.userId ≠ user.id

/-- What is left has nothing to do with the user. -/
theorem AccountDb.Consistent.erased {phoneOf : StoredPayload → Option String} {db : AccountDb}
    {user : UserRow} (h : db.Consistent) (huser : user ∈ db.users) :
    AccountErased phoneOf user (db.without phoneOf user) where
  users u hu := by
    obtain ⟨hu, hne⟩ := List.mem_filter.1 hu
    have hne := of_decide_eq_true hne
    refine ⟨hne, fun hphone ↦ hne ?_⟩
    rw [List.inj_on_of_nodup_map h.phones hu huser hphone]
  otpCodes o ho := by simpa using (List.mem_filter.1 ho).2
  authEvents e he := by simpa [AuthEventRow.belongs] using (List.mem_filter.1 he).2
  refreshTokens row hrow := of_decide_eq_true (List.mem_filter.1 hrow).2
  goals g hg := by simpa using (List.mem_filter.1 hg).2
  transactions tx htx := by simpa using (List.mem_filter.1 htx).2
  jobs j hj := by simpa [JobRow.belongs, imp_iff_not_or] using (List.mem_filter.1 hj).2
  alertPreferences row hrow := of_decide_eq_true (List.mem_filter.1 hrow).2
  alertStates state hstate := by simpa using (List.mem_filter.1 hstate).2
  consentPreferences row hrow := of_decide_eq_true (List.mem_filter.1 hrow).2
  consentRecords row hrow := of_decide_eq_true (List.mem_filter.1 hrow).2

/-- What the deletion of a user takes from the tables: the rows of the user, and of the rows of nobody
the events and the notifications for the phone of the user, with the attempts of the notifications.
The rows of the other users stay, events and notifications among them. -/
structure TakesOnly (phoneOf : StoredPayload → Option String) (user : UserRow) (db db' : AccountDb) :
    Prop where
  users : ∀ u ∈ db.users, u ∉ db'.users ↔ u.id = user.id
  otpCodes : ∀ o ∈ db.otpCodes, o ∉ db'.otpCodes ↔ o.userId = user.id
  authEvents : ∀ e ∈ db.authEvents, e ∉ db'.authEvents ↔
    e.userId = some user.id ∨ e.userId = none ∧ e.phone = user.phone
  refreshTokens : ∀ row ∈ db.refreshTokens, row ∉ db'.refreshTokens ↔ row.userId = user.id
  goals : ∀ g ∈ db.goals, g ∉ db'.goals ↔ g.userId = user.id
  transactions : ∀ tx ∈ db.transactions, tx ∉ db'.transactions ↔ tx.userId = user.id
  jobs : ∀ j ∈ db.jobs, j ∉ db'.jobs ↔
    j.userId = some user.id ∨ j.userId = none ∧ phoneOf j.payloadJson = some user.phone
  failureAttempts : ∀ a ∈ db.failureAttempts, a ∉ db'.failureAttempts ↔
    ∃ j ∈ db.jobs, j.id = a.notificationJobId ∧ j ∉ db'.jobs
  alertPreferences : ∀ row ∈ db.alertPreferences, row ∉ db'.alertPreferences ↔ row.userId = user.id
  alertStates : ∀ state ∈ db.alertStates, state ∉ db'.alertStates ↔ state.userId = user.id
  consentPreferences : ∀ row ∈ db.consentPreferences,
    row ∉ db'.consentPreferences ↔ row.userId = user.id
  consentRecords : ∀ row ∈ db.consentRecords, row ∉ db'.consentRecords ↔ row.userId = user.id

/-- An event that goes is the user's or nobody's: the events of another user have another phone. -/
theorem AccountDb.Consistent.belongs_event {db : AccountDb} {user : UserRow} (h : db.Consistent)
    (huser : user ∈ db.users) {e : AuthEventRow} (he : e ∈ db.authEvents) :
    e.belongs user = true ↔ e.userId = some user.id ∨ e.userId = none ∧ e.phone = user.phone := by
  rw [AuthEventRow.belongs, Bool.or_eq_true, decide_eq_true_iff, decide_eq_true_iff]
  constructor
  · rintro (hid | hphone)
    · exact .inl hid
    cases hof : e.userId with
    | none => exact .inr ⟨rfl, hphone⟩
    | some v =>
      obtain ⟨owner, howner, rfl, hown⟩ := h.events e he v hof
      rw [List.inj_on_of_nodup_map h.phones howner huser (hown.trans hphone)]
      exact .inl rfl
  · exact Or.imp_right And.right

/-- A row that is left out of a table is one that the filter drops. -/
theorem not_mem_filter_not {α : Type} {l : List α} {p : α → Bool} {a : α} (ha : a ∈ l) :
    a ∉ l.filter (fun a ↦ !p a) ↔ p a = true := by
  simp [List.mem_filter, ha]

/-- **The other users keep their rows.** -/
theorem AccountDb.Consistent.takesOnly {phoneOf : StoredPayload → Option String} {db : AccountDb}
    {user : UserRow} (h : db.Consistent) (huser : user ∈ db.users) :
    TakesOnly phoneOf user db (db.without phoneOf user) where
  users u hu := by simp [AccountDb.without, hu]
  otpCodes o ho := by simp [AccountDb.without, ho]
  authEvents e he := (not_mem_filter_not he).trans (h.belongs_event huser he)
  refreshTokens row hrow := by simp [AccountDb.without, hrow]
  goals g hg := by simp [AccountDb.without, hg]
  transactions tx htx := by simp [AccountDb.without, htx]
  jobs j hj := (not_mem_filter_not hj).trans (by simp [JobRow.belongs])
  failureAttempts a ha := by
    refine (not_mem_filter_not ha).trans (List.any_eq_true.trans (exists_congr fun j ↦ ?_))
    refine and_congr_right fun hj ↦ ?_
    rw [Bool.and_eq_true, decide_eq_true_iff, and_comm]
    exact and_congr_right fun _ ↦ (not_mem_filter_not hj).symm
  alertPreferences row hrow := by simp [AccountDb.without, hrow]
  alertStates state hstate := by simp [AccountDb.without, hstate]
  consentPreferences row hrow := by simp [AccountDb.without, hrow]
  consentRecords row hrow := by simp [AccountDb.without, hrow]

/-- **The deletion of an account** never violates a foreign key. It leaves the tables without
the rows of the user, or, when a statement fails, as they were; when none fails it succeeds, no row
is left that refers to the user or has the user's phone, and no row of another user is gone. -/
theorem account_erased (phoneOf : StoredPayload → Option String) {db₀ : AccountDb}
    (h₀ : Migrated db₀) (ops : List AccountOp) :
    (∀ userId fails,
      (∃ user ∈ (accountAfter phoneOf db₀ ops).users, user.id = userId ∧
        (accountAfter phoneOf db₀ ops).deleteAccount phoneOf userId fails =
          (.ok (), (accountAfter phoneOf db₀ ops).without phoneOf user)) ∨
      ∃ e, e ≠ .foreignKey ∧
        (accountAfter phoneOf db₀ ops).deleteAccount phoneOf userId fails =
          (.error e, accountAfter phoneOf db₀ ops)) ∧
    ∀ user ∈ (accountAfter phoneOf db₀ ops).users,
      (accountAfter phoneOf db₀ ops).deleteAccount phoneOf user.id (fun _ ↦ false) =
        (.ok (), (accountAfter phoneOf db₀ ops).without phoneOf user) ∧
      AccountErased phoneOf user ((accountAfter phoneOf db₀ ops).without phoneOf user) ∧
      TakesOnly phoneOf user (accountAfter phoneOf db₀ ops)
        ((accountAfter phoneOf db₀ ops).without phoneOf user) := by
  have h := accountAfter_consistent phoneOf h₀.consistent ops
  exact ⟨h.deleteAccount phoneOf, fun user huser ↦ ⟨h.deleteAccount_ok phoneOf huser,
    h.erased huser, h.takesOnly huser⟩⟩

namespace Demo

/-- Two users, and two notifications from before they had users: the payload is the number in the
phone. -/
def legacyJobs : AccountDb where
  next := 4
  users := [⟨0, "7"⟩, ⟨1, "8"⟩]
  otpCodes := []
  authEvents := []
  refreshTokens := []
  goals := []
  transactions := []
  jobs := [⟨2, 7, none, none⟩, ⟨3, 8, none, none⟩]
  failureAttempts := []
  alertPreferences := []
  alertStates := []
  consentPreferences := []
  consentRecords := []

/-- The payloads of the two notifications are for the two phones. -/
def phoneInPayload (payload : StoredPayload) : Option String :=
  if payload = 7 then some "7" else if payload = 8 then some "8" else none

/-- They were there before anything referred to them. -/
theorem legacyJobs_migrated : Migrated legacyJobs where
  userIds := by decide
  phones := by decide
  jobIds := by decide
  unlinked := by decide
  usersBelow := by decide
  jobsBelow := by decide
  otpCodes := rfl
  authEvents := rfl
  goals := rfl
  transactions := rfl
  alertStates := rfl

/-- Both users ask for a code and save. -/
def bothSave : List AccountOp :=
  [.requestOtp "7" 7 .requested, .requestOtp "8" 8 .requested, .createGoal 0, .createGoal 1,
    .createTransaction 0 (some 10)]

end Demo

open Demo in
/-- The first user goes; the second user's code, event, goal and notifications stay. -/
theorem account_erased_first :
    (accountAfter phoneInPayload legacyJobs bothSave).deleteAccount phoneInPayload 0
        (fun _ ↦ false) =
      (.ok (), { legacyJobs with
        next := 13
        users := [⟨1, "8"⟩]
        otpCodes := [⟨7, 1⟩]
        authEvents := [⟨8, "8", some 1, some 7⟩]
        goals := [⟨11, 1⟩]
        jobs := [⟨3, 8, none, none⟩, ⟨9, 8, some 1, some 7⟩] }) :=
  ((account_erased phoneInPayload legacyJobs_migrated bothSave).2 ⟨0, "7"⟩ (by decide)).1.trans
    (by decide)

end Stead
