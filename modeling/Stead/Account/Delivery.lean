import Stead.Account.Steps

/-!
# No delivery after the account is gone

A poll looks at the blocks in memory, then asks the database whether the job is there, and when the
answer has come it sends. A deletion that runs between the answer of the database and the send goes
unnoticed: `deleted_account_is_messaged`.

## The condition

`clearWhenDeleted` picks the runs in which no poll stands there, with a job of the account, when
the deletion of the account returns. Polls may stand anywhere else: a poll that has claimed a job
and not asked yet finds it gone, or finds it blocked.

## The argument

After the deletion has returned no job of the account is stored (`Gone`), and none comes back
(`Gone.exec`). A poll of the account that sends later must have been answered that its job exists,
after the deletion; a job that exists is not of the account (`Gone.not_of`). What a single process
adds is that it has one poll at a time (`OnePoll`), so that the poll that stands between the answer
and the send is known from the trace (`cleared_after`).

`Watched` is the invariant: nothing has been sent for the account since, and who is about to send
holds a job of somebody else. `silent_of_clear` is the result.
-/

namespace Stead

open Concurrency

variable {ι : Type}

/-- The job is the account's: it belongs to the user, or to nobody and is for the phone the user
had in the database at the start. -/
def ClaimedJob.Of [DecidableEq ι] (w₀ : World ι) (userId : ℕ) (job : ClaimedJob) : Prop :=
  job.row.userId = some userId ∨ job.row.userId = none ∧ job.payload.redacted = none ∧
    ∃ phone, w₀.phoneOf userId = some phone ∧ job.payload.phone = some phone

variable [DecidableEq ι]

/-- After the deletion of the account has returned, nothing is sent for a job of the account. -/
def Silent (w₀ : World ι) (userId : ℕ) (s : ProcessHistory ι) : Prop :=
  ∀ (p q : ℕ) (e f : Event ProcessStatements ι (Process ι)), s.log[p]? = some e →
    s.log[q]? = some f → p < q → e.op = ProcessOp.memory (.finalize userId) →
      ∀ job : ClaimedJob, f.op = ProcessOp.account (.send job) → ¬ job.Of w₀ userId

/-- The deletion of the account returns. -/
def returnsDeletion (userId : ℕ) (e : Event ProcessStatements ι (Process ι)) : Bool :=
  match e.op with
  | .memory (.finalize u) => u = userId
  | _ => false

/-- A job that belongs to the user is sent. -/
def sendsOwned (userId : ℕ) (e : Event ProcessStatements ι (Process ι)) : Bool :=
  match e.op with
  | .account (.send job) => job.row.userId = some userId
  | _ => false

/-- When the deletion of the account returns, no poll stands between finding a job of the account
present and sending it. -/
def clearWhenDeleted (w₀ : World ι) (userId : ℕ) : ProcessWeather ι where
  stmt _ _ op s := op = .memory (.finalize userId) → ∀ k job, Cleared job (s.trace k) →
    job.payload.redacted = none → ¬ job.Of w₀ userId
  crash _ _ := True

/-- No job of the account is left. -/
def Gone (env : Env) (w₀ : World ι) (userId : ℕ) (w : World ι) : Prop :=
  ∀ id j, w.notificationJobs.stored id = some j → j.userId ≠ some userId ∧
    ∀ payload, decryptPayload env j.payloadJson = .ok payload →
      ¬ (⟨id, j, payload⟩ : ClaimedJob).Of w₀ userId

/-- The marker that is left of a payload is read as such. -/
theorem decryptPayload_redacted (env : Env) :
    decryptPayload env REDACTED_PAYLOAD_JSON = .ok REDACTED_PAYLOAD := rfl

section Steps

variable {env : Env} {call : ProcessCall} {w₀ : World ι} {userId : ℕ} {i : ι} {x : Choice}
  {op : ProcessOp} {s : ProcessHistory ι} {t : Process ι} {r : op.Resp}

/-- **A job that is there is not of the account.** -/
theorem Gone.not_of {w : World ι} (hw : Gone env w₀ userId w) {job : ClaimedJob}
    {j : NotificationJob} (hj : w.notificationJobs.stored job.id = some j)
    (huser : j.userId = job.row.userId) (hjson : j.payloadJson = job.row.payloadJson)
    (hpayload : decryptPayload env job.row.payloadJson = .ok job.payload) :
    ¬ job.Of w₀ userId := by
  intro hof
  refine (hw job.id j hj).2 job.payload (hjson ▸ hpayload) ?_
  exact hof.imp huser.trans fun h ↦ ⟨huser.trans h.1, h.2⟩

/-- What is gone stays gone. -/
theorem Gone.exec {p : Process ι} {trace : ProcessTrace} (hp : Gone env w₀ userId p.world)
    (hop : TaskStatement env call trace op) (h : op.exec env.crypto i x p = some (r, t)) :
    Gone env w₀ userId t.world := by
  intro id j' hj'
  obtain ⟨j, hj, huser, hjson⟩ := exec_job hop h hj'
  refine ⟨huser ▸ (hp id j hj).1, fun payload hpayload hof ↦ ?_⟩
  rcases hof with hown | ⟨hnone, hred, hphone⟩
  · exact (hp id j hj).1 (huser ▸ hown)
  · rcases hjson with hjson | ⟨hjson, -⟩
    · exact (hp id j hj).2 payload (hjson ▸ hpayload) (.inr ⟨huser ▸ hnone, hred, hphone⟩)
    · rw [hjson, decryptPayload_redacted] at hpayload
      cases hpayload
      cases hred

/-- A deletion that succeeds leaves no job of the account. -/
theorem gone_of_deleteRows {phone : String} {ids : List ℕ} (hs : Informed w₀ s)
    (hop : TaskStatement env call (s.trace i) (.account (.deleteRows userId phone ids)))
    (h : (ProcessOp.account (.deleteRows userId phone ids)).exec env.crypto i x s.shared =
      some (.ok (), t)) : Gone env w₀ userId t.world := by
  obtain ⟨-, hfound, rows, hrows, rfl⟩ := hop
  rcases exec_account h with ⟨-, hr⟩ | ⟨ht, hr | hr⟩
  · cases hr
  swap
  · cases hr
  rcases hd : s.shared.world.deleteAccountRows userId phone (accountJobIds env userId phone rows)
    with e | w'
  · simp [AccountStatement.perform, hd] at hr
  rw [ht]
  simp only [AccountStatement.perform, hd]
  intro id j hj
  obtain ⟨hold, huser, hid⟩ := ((deleteAccountRows_ok hd).1 id j).1 hj
  refine ⟨huser, fun payload hpayload hof ↦ ?_⟩
  rcases hof with hown | ⟨hnone, hred, phone', hphone', hpayphone⟩
  · exact huser hown
  obtain rfl : phone' = phone := Option.some.inj (hphone'.symm.trans (hs.found i userId phone hfound))
  have hjson : j.payloadJson ≠ REDACTED_PAYLOAD_JSON := by
    intro hjson
    rw [hjson, decryptPayload_redacted] at hpayload
    cases hpayload
    cases hred
  obtain ⟨row, hrow, hrid, -, hrjson⟩ := hs.listed i userId rows hrows id j hold hnone hjson
  exact hid (hrid ▸ mem_accountJobIds hrow (hrjson ▸ hpayload) hpayphone)

/-- Who is answered that a job exists finds it there. -/
theorem exec_exists {crypto : Crypto} {p : Process ι} {id : ℕ}
    (h : (ProcessOp.statement (.notificationJob (.exists id))).exec crypto i x p =
      some (.ok true, t)) :
    ∃ j, t.world.notificationJobs.stored id = some j := by
  obtain ⟨⟨r, w⟩, hx, hout⟩ := Option.map_eq_some_iff.1 h
  cases hout
  have hp := perform_of_exec_ok hx
  simp only [perform, NotificationJobStatement.perform, reply, Option.some.injEq, Prod.mk.injEq,
    Except.ok.injEq] at hp
  obtain ⟨hj, rfl⟩ := hp
  exact Option.isSome_iff_exists.1 hj

theorem exec_findById {crypto : Crypto} {p : Process ι} {id : ℕ} {row : NotificationJob}
    (h : (ProcessOp.statement (.notificationJob (.findById id))).exec crypto i x p =
      some (.ok row, t)) : t.world.notificationJobs.stored id = some row := by
  obtain ⟨⟨r, w⟩, hx, hout⟩ := Option.map_eq_some_iff.1 h
  cases hout
  have hp := perform_of_exec_ok hx
  simp only [perform, NotificationJobStatement.perform] at hp
  split at hp
  · next hj =>
    cases hp
    exact hj
  · cases hp

/-! ### One poll at a time -/

/-- At most one poll is under way, and what it has in hand is the job as it is stored. -/
structure OnePoll (env : Env) (s : ProcessHistory ι) : Prop where
  processing : ∀ k, Polling (s.trace k) → s.shared.isProcessing = true
  alone : ∀ k l, Polling (s.trace k) → Polling (s.trace l) → k = l
  inHand : ∀ k job, InHand env job (s.trace k) → ∀ j,
    s.shared.world.notificationJobs.stored job.id = some j →
      j.userId = job.row.userId ∧ j.payloadJson = job.row.payloadJson

/-- A poll under way was under way before, or has just started. -/
theorem polling_after {k : ι} (h : Polling ((s.after i op r t).trace k)) :
    Polling (s.trace k) ∨
      k = i ∧ (⟨op, r⟩ : Exchange ProcessStatements) = ⟨.memory .startTick, true⟩ := by
  by_cases hk : i = k
  · subst hk
    rw [State.after_trace_self] at h
    have hend : (⟨.memory .endTick, ()⟩ : Exchange ProcessStatements) ∉ s.trace i :=
      fun hmem ↦ h.2 (List.mem_append_left _ hmem)
    rcases List.mem_append.1 h.1 with hold | hnew
    · exact .inl ⟨hold, hend⟩
    · exact .inr ⟨rfl, (List.mem_singleton.1 hnew).symm⟩
  · rw [State.after_trace_of_ne _ hk] at h
    exact .inl h

/-- **One poll at a time**: the flag of the process keeps the second out. -/
theorem OnePoll.after (hs : OnePoll env s) (hop : TaskStatement env call (s.trace i) op)
    (h : op.exec env.crypto i x s.shared = some (r, t)) : OnePoll env (s.after i op r t) := by
  refine ⟨fun k hk ↦ ?_, fun k l hk hl ↦ ?_, fun k job hin j' hj' ↦ ?_⟩
  · rcases polling_after hk with hold | ⟨rfl, hnew⟩
    -- The flag of the process stays up until the poll that has raised it ends.
    · by_cases hmem : ∃ m, op = .memory m
      · obtain ⟨m, rfl⟩ := hmem
        cases h
        have hp := hs.processing k hold
        cases m with
        | startTick => rfl
        | endTick =>
          obtain rfl := hs.alone k i hold hop
          refine absurd ?_ hk.2
          rw [State.after_trace_self]
          exact List.mem_append_right _ (List.mem_singleton_self _)
        | _ => exact hp
      · push Not at hmem
        exact (exec_memory_same h hmem).2.trans (hs.processing k hold)
    · cases hnew
      simp only [ProcessOp.exec, Option.some.injEq, Prod.mk.injEq] at h
      rw [State.after_shared, ← h.2]
      rfl
  · -- A poll that starts finds no other under way.
    have hstart : ∀ m, Polling (s.trace m) →
        (⟨op, r⟩ : Exchange ProcessStatements) ≠ ⟨.memory .startTick, true⟩ := by
      intro m hm hnew
      cases hnew
      have hp := hs.processing m hm
      simp only [ProcessOp.exec, MemoryStatement.answer, Option.some.injEq, Prod.mk.injEq, hp] at h
      exact absurd h.1 (by decide)
    rcases polling_after hk with hkold | ⟨rfl, hnew⟩
    · rcases polling_after hl with hlold | ⟨-, hnew⟩
      · exact hs.alone k l hkold hlold
      · exact absurd hnew (hstart k hkold)
    · rcases polling_after hl with hlold | ⟨rfl, -⟩
      · exact absurd hnew (hstart l hlold)
      · rfl
  · obtain ⟨j, hj, huser, hjson⟩ := exec_job hop h hj'
    by_cases hk : i = k
    · subst hk
      rw [State.after_trace_self] at hin
      have hmark : ∀ id data, op ≠ .statement (.notificationJob (.update id data)) :=
        hin.unmarked ⟨op, r⟩ (List.mem_append_right _ (List.mem_singleton_self _))
      -- A job in hand has not been marked, so its payload has not been erased.
      have hsame : j'.payloadJson = j.payloadJson :=
        hjson.resolve_right fun herased ↦ herased.2.elim fun data hd ↦ hmark _ data hd
      -- The row was read before, or is read now.
      rcases List.mem_append.1 hin.read with hread | hnew
      · have hpolling : Polling (s.trace i) := by
          refine ⟨(List.mem_append.1 hin.polling.1).resolve_right fun hnew ↦ ?_,
            fun hmem ↦ hin.polling.2 (List.mem_append_left _ hmem)⟩
          cases List.mem_singleton.1 hnew
          rw [show s.trace i = [] from hop] at hread
          cases hread
        obtain ⟨hu, hp⟩ := hs.inHand i job ⟨hpolling, fun e he ↦ hin.unmarked e
          (List.mem_append_left _ he), hread, hin.payload⟩ j hj
        exact ⟨huser.trans hu, hsame.trans hp⟩
      · cases List.mem_singleton.1 hnew
        obtain rfl : job.row = j' := Option.some.inj ((exec_findById h).symm.trans hj')
        exact ⟨rfl, rfl⟩
    · rw [State.after_trace_of_ne _ hk] at hin
      obtain ⟨hu, hp⟩ := hs.inHand k job hin j hj
      -- Another thread may only erase it by a poll of its own, and there is no second one.
      refine ⟨huser.trans hu, (hjson.resolve_right fun herased ↦ ?_).trans hp⟩
      obtain ⟨-, data, rfl⟩ := herased
      exact hk (hs.alone k i hin.polling hop.1).symm

/-! ### The run -/

/-- The deletion of the account has returned. -/
def Deleted (userId : ℕ) (s : ProcessHistory ι) : Prop :=
  ∃ e ∈ s.log, e.op = ProcessOp.memory (.finalize userId)

/-- What holds throughout the runs in which no poll is about to send when the account goes. -/
structure Watched (env : Env) (w₀ : World ι) (userId : ℕ) (s : ProcessHistory ι) : Prop where
  informed : Informed w₀ s
  onePoll : OnePoll env s
  gone : ∀ k phone ids, ⟨.account (.deleteRows userId phone ids), .ok ()⟩ ∈ s.trace k →
    Gone env w₀ userId s.shared.world
  deleted : Deleted userId s → Gone env w₀ userId s.shared.world
  uncleared : Deleted userId s → ∀ k job, InHand env job (s.trace k) → Cleared job (s.trace k) →
    job.payload.redacted = none → ¬ job.Of w₀ userId
  silent : Silent w₀ userId s

omit [DecidableEq ι] in
/-- A deletion returns by its last statement on the memory. -/
theorem deleted_after (h : Deleted userId (s.after i op r t)) :
    Deleted userId s ∨ op = .memory (.finalize userId) := by
  obtain ⟨e, he, hop⟩ := h
  rw [State.after_log, List.mem_append, List.mem_singleton] at he
  rcases he with he | rfl
  · exact .inl ⟨e, he, hop⟩
  · exact .inr hop

/-- A poll that is cleared was cleared before, or has just been told that the job is there. -/
theorem cleared_after {k : ι} {job : ClaimedJob} (h : Cleared job ((s.after i op r t).trace k)) :
    (i ≠ k ∧ (s.after i op r t).trace k = s.trace k) ∨ i = k ∧
      (⟨op, r⟩ : Exchange ProcessStatements) =
        ⟨.statement (.notificationJob (.exists job.id)), .ok true⟩ := by
  by_cases hk : i = k
  · subst hk
    obtain ⟨rest, hrest⟩ := h
    rw [State.after_trace_self] at hrest
    have hlast := congrArg List.getLast? hrest
    simp only [List.getLast?_append, List.getLast?_cons_cons, List.getLast?_singleton,
      Option.some_or, Option.some.injEq] at hlast
    exact .inr ⟨rfl, hlast.symm⟩
  · exact .inl ⟨hk, State.after_trace_of_ne _ hk ..⟩

/-- **One step** after the deletion. -/
theorem Watched.after (hs : Watched env w₀ userId s) (hop : TaskStatement env call (s.trace i) op)
    (hclear : (clearWhenDeleted w₀ userId).stmt i x op s)
    (h : op.exec env.crypto i x s.shared = some (r, t)) :
    Watched env w₀ userId (s.after i op r t) := by
  have hpoll := hs.onePoll.after hop h
  -- Once the rows are deleted no statement of the others brings one back.
  have hgone : ∀ k phone ids,
      ⟨.account (.deleteRows userId phone ids), .ok ()⟩ ∈ (s.after i op r t).trace k →
        Gone env w₀ userId t.world := by
    intro k phone ids hmem
    rcases State.mem_trace_after hmem with hold | ⟨-, hnew⟩
    · exact (hs.gone k phone ids hold).exec hop h
    · cases hnew
      exact gone_of_deleteRows hs.informed hop h
  refine ⟨hs.informed.after hop h, hpoll, hgone, fun hd ↦ ?_, fun hd k job hin hcl hred ↦ ?_, ?_⟩
  · rcases deleted_after hd with hold | rfl
    · exact (hs.deleted hold).exec hop h
    · have hdone := hop
      obtain ⟨-, -, phone, ids, hmem⟩ := hdone
      exact (hs.gone i phone ids hmem).exec hop h
  -- A job that passes the checks now is none of the account's, by the restriction.
  · rcases cleared_after hcl with ⟨-, htrace⟩ | ⟨rfl, hnew⟩
    · rw [htrace] at hin hcl
      rcases deleted_after hd with hold | rfl
      · exact hs.uncleared hold k job hin hcl hred
      · exact hclear rfl k job hcl hred
    · rcases deleted_after hd with hold | rfl
      · have hgone' := (hs.deleted hold).exec hop h
        cases hnew
        obtain ⟨j, hj⟩ := exec_exists h
        obtain ⟨huser, hjson⟩ := hpoll.inHand i job hin j hj
        exact hgone'.not_of hj huser hjson hin.payload
      · cases hnew
  · intro p q e f hp hq hlt he job hf
    have hold : q ≤ s.log.length → s.log[p]? = some e := fun hle ↦
      (State.getElem?_after hp).resolve_right fun hlast ↦ by omega
    rcases State.getElem?_after hq with hq' | ⟨rfl, rfl⟩
    · exact hs.silent p q e f (hold (List.getElem?_eq_some_iff.1 hq').1.le) hq' hlt he job hf
    -- The delivery itself: its job was cleared, after the deletion.
    · obtain rfl : op = .account (.send job) := hf
      obtain ⟨hin, hcl, hred⟩ := hop
      exact hs.uncleared ⟨e, List.mem_of_getElem? (hold le_rfl), he⟩ i job hin hcl hred

end Steps

/-- **No delivery begins after the account is gone**, where no poll is about to send when it goes.
On any database, with any number of deletions and polls, failures and lost answers included. -/
theorem silent_of_clear (env : Env) (w : World ι) (calls : ι → ProcessCall) (userId : ℕ)
    {c : ProcessSystem ι} (hc : ProcessSystem.Reaches env (clearWhenDeleted w userId)
      (ProcessSystem.start env w calls) c) : Silent w userId c.state := by
  have hstart : (ProcessSystem.start env w calls).Keeps (fun i ↦ TaskStatement env (calls i))
      (fun _ _ _ ↦ True) fun _ _ _ ↦ True := Config.keeps_start fun i ↦ (calls i).keeps
  have hwatched : Watched env w userId (ProcessSystem.start env w calls).state :=
    { informed := informed_start env w calls
      onePoll := ⟨fun _ h ↦ absurd h.1 List.not_mem_nil, fun _ _ h ↦ absurd h.1 List.not_mem_nil,
        fun _ _ h ↦ absurd h.read List.not_mem_nil⟩
      gone := fun _ _ _ h ↦ absurd h List.not_mem_nil
      deleted := fun h ↦ h.elim fun _ h ↦ absurd h.1 List.not_mem_nil
      uncleared := fun h ↦ h.elim fun _ h ↦ absurd h.1 List.not_mem_nil
      silent := fun p q e f hp ↦ by cases hp }
  exact (Run.invariant_keeps (I := Watched env w userId) hc hstart hwatched
    (fun s i x op r t hs hop ha hx ↦ hs.after hop ha hx)
    fun s i hs _ ↦ ⟨⟨hs.1.1, hs.1.2, hs.1.3⟩, ⟨hs.2.1, hs.2.2, hs.2.3⟩, hs.3, hs.4, hs.5, hs.6⟩).1.silent

namespace Demo

/-- A job of the user, to be sent. -/
def accountJob : NotificationJob where
  type := .weeklySummary
  payloadJson := .record ⟨none, some "+1", none, some "", none⟩
  status := .pending
  attempts := 0
  maxAttempts := 3
  nextRunAt := 0
  lockedAt := none
  sentAt := none
  failedAt := none
  lastError := none
  provider := none
  providerMessageId := none
  correlationId := 0
  userId := some 0
  otpCodeId := none
  goalId := none
  dedupeKey := none
  createdAt := 0

/-- The user with the job. -/
def accountWorld : World ℕ :=
  { world with
    users := (world.users.insert none ⟨"+1"⟩).2
    notificationJobs := (world.notificationJobs.insert none accountJob).2 }

/-- The user deletes the account, and the consumer polls. -/
def accountCalls : ℕ → ProcessCall
  | 0 => .deleteAccount 0
  | _ => .tick

/-- Before the first step. -/
def accountStart : ProcessSystem ℕ := ProcessSystem.start env accountWorld accountCalls

/-- The execution of a schedule all of whose statements the condition allows. -/
def process (allow : ℕ → ProcessOp → ProcessHistory ℕ → Bool) (as : List (Turn ℕ Choice))
    (h : (accountStart.turns (processMachine ℕ crypto) allow as).isSome) : ProcessSystem ℕ :=
  accountStart.afterTurns (processMachine ℕ crypto) allow as h

/-- Whether the existence of a job has been asked for. -/
def asksExistence (e : Event ProcessStatements ℕ (Process ℕ)) : Bool :=
  match e.op with
  | .statement (.notificationJob (.exists _)) => true
  | _ => false

/-- A deletion returns before any poll has asked for a job. -/
def allowClear : ℕ → ProcessOp → ProcessHistory ℕ → Bool
  | _, .memory (.finalize _), s => s.log.all fun e ↦ !asksExistence e
  | _, _, _ => true

theorem allowClear_stmt (i : ℕ) (x : Choice) (op : ProcessOp) (s : ProcessHistory ℕ)
    (h : allowClear i op s = true) : (clearWhenDeleted accountWorld 0).stmt i x op s := by
  rintro rfl k job ⟨rest, hrest⟩
  have hmem : (⟨.statement (.notificationJob (.exists job.id)), .ok true⟩ :
      Exchange ProcessStatements) ∈ s.trace k := by
    rw [← hrest]
    simp
  obtain ⟨e, he, heq⟩ := List.mem_map.1 hmem
  have hasks : asksExistence e = false := by
    simpa using List.all_eq_true.1 h e (State.mem_history.1 he).1
  have hop : e.op = .statement (.notificationJob (.exists job.id)) := congrArg Sigma.fst heq
  rw [asksExistence, hop] at hasks
  cases hasks

/-- A poll claims the job; the account is deleted; the poll goes on. -/
theorem clear_runs : (accountStart.turns (processMachine ℕ crypto) allowClear
    (steps 1 5 ++ steps 0 6 ++ steps 1 2)).isSome := by
  decide +kernel

end Demo

/-- Nothing is sent for the account after its deletion. -/
theorem silent_of_clear_deleted :
    Silent Demo.accountWorld 0 (Demo.process Demo.allowClear _ Demo.clear_runs).state :=
  silent_of_clear Demo.env Demo.accountWorld Demo.accountCalls 0
    (Config.run_afterTurns Demo.allowClear_stmt Demo.clear_runs)

namespace Demo

/-- A poll claims the job and finds it unblocked and present; the account is deleted; the poll
sends the job. -/
theorem message_runs : (accountStart.turns (processMachine ℕ crypto) (fun _ _ _ ↦ true)
    (steps 1 7 ++ steps 0 6 ++ steps 1 1)).isSome := by
  decide +kernel

/-- What the schedule leads to. -/
def messaged : ProcessSystem ℕ := process _ _ message_runs

end Demo

/-- **A deleted account is messaged.** One deletion and one poll, nothing failing: the deletion
runs between the answer that the job is there and the send. -/
theorem deleted_account_is_messaged :
    ProcessSystem.Reaches Demo.env .all Demo.accountStart Demo.messaged ∧
      ¬ Silent Demo.accountWorld 0 Demo.messaged.state := by
  refine ⟨Config.run_afterTurns (fun _ _ _ _ _ ↦ trivial) Demo.message_runs, fun h ↦ ?_⟩
  have hreturn : (Demo.messaged.state.log[12]?).any (returnsDeletion 0) = true := by
    decide +kernel
  have hsend : (Demo.messaged.state.log[13]?).any (sendsOwned 0) = true := by decide +kernel
  obtain ⟨e, he, hret⟩ := (Option.any_eq_true _ _).1 hreturn
  obtain ⟨f, hf, hsent⟩ := (Option.any_eq_true _ _).1 hsend
  have heop : e.op = ProcessOp.memory (.finalize 0) := by
    unfold returnsDeletion at hret
    split at hret
    · next u hop =>
      rw [hop, of_decide_eq_true hret]
    · cases hret
  unfold sendsOwned at hsent
  split at hsent
  · next job hop => exact h 12 13 e f he hf (by decide) heop job hop (.inl (of_decide_eq_true hsent))
  · cases hsent

end Stead
