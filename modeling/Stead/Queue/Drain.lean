import Mathlib.Data.Finset.Card
import Mathlib.Data.Set.Finite.Lemmas
import Stead.Concurrency.Serial
import Stead.Model.Logic

/-!
# The queue drains

What polls achieve when nothing goes wrong. A poll that runs alone delivers the oldest job that is
ready: it claims it, hands its message to the provider and records the success (`tick_ends`). So a
job that is ready waits for as many polls as there are unfinished jobs as old as itself, and no
longer, however the queue came to be as it is and however much time passes (`queue_drains`).

## Running alone

`EndsAlone` says of a program and a state that the program ends without waiting, whatever is chosen
outside as long as nothing fails (`Undisturbed`), and what holds when it has. It has one rule for a
statement (`ends_run_bind`), so the poll is followed from its beginning to its end; the parts of it
are the lemmas named `ends`.

## The line

The jobs ahead of a job are the unfinished ones that are as old (`ahead`). A poll takes one of them
or the job itself, or finds nothing ready, and new jobs come behind; so the line gets shorter with
every poll (`InLine.polled`), which is the measure of the result.

## Deliverability

The jobs must be deliverable: linked to their codes, and with a payload that can be read. A job
whose payload cannot be read uses a poll up, and a row the constraint refuses uses up every poll.
-/

namespace Stead

open Concurrency

variable {ι : Type} [DecidableEq ι] {crypto : Crypto} {env : Env} {i : ι} {x : Choice} {op : Op}
  {w t : World ι} {s : History ι} {α β : Type} {Q : Except Failure α → History ι → Prop}

/-! ### Nothing goes wrong -/

/-- The statement is executed and answered, and no delivery is blocked. -/
def Undisturbed (x : Choice) : Prop := x.fault = .none ∧ x.blocked = false

theorem undisturbed_default : Undisturbed {} := ⟨rfl, rfl⟩

/-- Nothing but time happens to a statement. -/
theorem exec_undisturbed (hx : Undisturbed x) (op : Op) (w : World ι) :
    exec crypto i x op w = perform crypto i x (w.elapse x.elapse) op := by
  unfold exec
  split
  · rw [hx.1]
  · rfl

/-- The program ends in `Q`, run alone and undisturbed. -/
abbrev EndsAlone (crypto : Crypto) (i : ι) (Q : Except Failure α → History ι → Prop) (p : Call α)
    (s : History ι) : Prop :=
  p.Ends (machine ι crypto) Undisturbed i Q s

/-- **A statement** that is executed and answered, and what its answer leads to. -/
theorem ends_stmt {k : Statements.Resp op → Call α}
    (h : ∀ x, Undisturbed x → ∃ a t,
      perform crypto i x (s.shared.elapse x.elapse) op = some (.ok a, t) ∧
        EndsAlone crypto i Q (k (.ok a)) (s.after i op (.ok a) t)) :
    EndsAlone crypto i Q (.stmt op k) s := by
  refine ⟨?_, fun x r t hx he ↦ ?_⟩
  · obtain ⟨a, t, hp, -⟩ := h {} undisturbed_default
    refine ⟨{}, undisturbed_default, ?_⟩
    show (exec crypto i {} op s.shared).isSome
    rw [exec_undisturbed undisturbed_default, hp]
    rfl
  · obtain ⟨a, t', hp, hk⟩ := h x hx
    have he : exec crypto i x op s.shared = some (r, t) := he
    rw [exec_undisturbed hx, hp] at he
    cases he
    exact hk

/-- **A statement** that succeeds, with a continuation that ends. -/
theorem ends_run_bind {f : op.Ret → Call α}
    (h : ∀ x, Undisturbed x → ∃ a t,
      perform crypto i x (s.shared.elapse x.elapse) op = some (.ok a, t) ∧
        EndsAlone crypto i Q (f a) (s.after i op (.ok a) t)) :
    EndsAlone crypto i Q (run op >>= f) s :=
  ends_stmt h

/-- A statement whose answer is the value. -/
theorem ends_run {Q : Except Failure op.Ret → History ι → Prop}
    (h : ∀ x, Undisturbed x → ∃ a t,
      perform crypto i x (s.shared.elapse x.elapse) op = some (.ok a, t) ∧
        Q (.ok a) (s.after i op (.ok a) t)) : EndsAlone crypto i Q (run op) s :=
  ends_stmt h

/-! ### The jobs, statement by statement -/

/-- Jobs are written outside transactions only. -/
theorem exec_committed {r : Except StatementError op.Ret}
    (h : exec crypto i x op w = some (r, t)) (hw : w.notificationJobs.Committed) :
    t.notificationJobs.Committed := by
  refine exec_of_perform (fun t ↦ t.notificationJobs.Committed) h (fun r t h ↦ ?_) ?_
  · by_cases hop : ∃ s, op = .notificationJob s
    · obtain ⟨s, rfl⟩ := hop
      have hwaited : (w.elapse x.elapse).notificationJobs.Committed := hw
      cases s <;> simp only [perform, NotificationJobStatement.perform] at h
      case create =>
        (repeat' split at h) <;> cases h
        all_goals first | exact hw | exact hwaited.insert _
      case redactTerminal =>
        (repeat' split at h) <;> cases h
        all_goals first | exact hw | exact hwaited.updateMany ‹_›
      all_goals
        (repeat' split at h) <;> cases h
        all_goals first | exact hw | exact hwaited.updateId ‹_›
    · cases perform_effect h with
      | notificationJob hs => exact absurd ⟨_, hs⟩ hop
      | _ => subst_vars; exact hw
  · cases op <;> exact hw

/-- The job numbered `id` becomes `j`, and the others stay as they are. -/
structure PutsJob (w t : World ι) (id : ℕ) (j : NotificationJob) : Prop where
  put : t.notificationJobs.stored id = some j
  others : ∀ k, k ≠ id → t.notificationJobs.stored k = w.notificationJobs.stored k

theorem perform_claim (crypto : Crypto) (i : ι) (x : Choice) (hw : w.notificationJobs.Committed)
    {id : ℕ} {j : NotificationJob} {now : ℤ} (hj : w.notificationJobs.stored id = some j)
    (hready : j.ready now = true) (hlinked : j.linked = true) :
    ∃ t, perform crypto i x w (.notificationJob (.claim id now)) = some (.ok true, t) ∧
      PutsJob w t id { j with status := .processing, lockedAt := some now } := by
  have haccepted :
      w.notificationJobs.selectId none id (fun j ↦ j.ready now && !j.linked) = none := by
    rw [Table.selectId, Cell.view_none]
    show (w.notificationJobs.stored id).filter _ = none
    rw [hj]
    simp [hlinked]
  obtain ⟨t, ht, hput, hothers⟩ := hw.updateId_of_stored hj hready
    fun j ↦ { j with status := .processing, lockedAt := some now }
  refine ⟨{ w with notificationJobs := t }, ?_, hput, hothers⟩
  simp only [perform, NotificationJobStatement.perform, haccepted, ht]
  rfl

theorem perform_update (crypto : Crypto) (i : ι) (x : Choice) (data : NotificationJobUpdate)
    (hw : w.notificationJobs.Committed) {id : ℕ} {j : NotificationJob}
    (hj : w.notificationJobs.stored id = some j) (hlinked : j.linked = true)
    (hdata : data.failureAttempt = none) :
    ∃ t, perform crypto i x w (.notificationJob (.update id data)) = some (.ok (), t) ∧
      PutsJob w t id (data.apply j) := by
  have haccepted : w.notificationJobs.selectId none id (fun j ↦ !(data.apply j).linked) = none := by
    rw [Table.selectId, Cell.view_none]
    show (w.notificationJobs.stored id).filter _ = none
    rw [hj]
    have hstays : (data.apply j).linked = true := hlinked
    simp [hstays]
  obtain ⟨t, ht, hput, hothers⟩ := hw.updateId_of_stored (p := fun _ ↦ true) hj rfl data.apply
  refine ⟨{ w with notificationJobs := t }, ?_, hput, hothers⟩
  simp only [perform, NotificationJobStatement.perform, haccepted, ht, hdata]
  rfl

theorem perform_findById {id : ℕ} {j : NotificationJob}
    (hj : w.notificationJobs.stored id = some j) :
    perform crypto i x w (.notificationJob (.findById id)) = some (.ok j, w) := by
  simp only [perform, NotificationJobStatement.perform, hj]
  rfl

/-- The job is ready, and none that is ready is older. -/
structure NextReady (w : World ι) (now : ℤ) (id : ℕ) (j : NotificationJob) : Prop where
  stored : w.notificationJobs.stored id = some j
  ready : j.ready now = true
  oldest : ∀ k l, w.notificationJobs.stored k = some l → l.ready now = true →
    j.createdAt ≤ l.createdAt

/-- No job is ready. -/
def NothingReady (w : World ι) (now : ℤ) : Prop :=
  ∀ id j, w.notificationJobs.stored id = some j → j.ready now = false

omit [DecidableEq ι] in
theorem earliest_eq_none {ρ : Type} {createdAt : ρ → ℤ} {pick : ℕ} {rows : List (Keyed ρ)}
    (h : earliest createdAt pick rows = none) : rows = [] := by
  by_contra hne
  obtain ⟨row, hrow, hmin⟩ := Set.exists_min_image {r | r ∈ rows} (fun r ↦ createdAt r.row)
    (List.finite_toSet rows) (List.exists_mem_of_ne_nil rows hne)
  have htop : row ∈ rows.filter fun r ↦
      rows.all fun s ↦ decide (createdAt r.row ≤ createdAt s.row) :=
    List.mem_filter.2 ⟨hrow, List.all_eq_true.2 fun s hs ↦ decide_eq_true (hmin s hs)⟩
  rw [earliest, List.getElem?_eq_none_iff] at h
  exact absurd (Nat.mod_lt pick (List.length_pos_of_mem htop)) (not_lt.2 h)

theorem earliest_eq_some {ρ : Type} {createdAt : ρ → ℤ} {pick : ℕ} {rows : List (Keyed ρ)}
    {row : Keyed ρ} (h : earliest createdAt pick rows = some row) :
    row ∈ rows ∧ ∀ r ∈ rows, createdAt row.row ≤ createdAt r.row := by
  obtain ⟨hrow, hleast⟩ := List.mem_filter.1 (List.mem_of_getElem? h)
  exact ⟨hrow, fun r hr ↦ of_decide_eq_true (List.all_eq_true.1 hleast r hr)⟩

theorem mem_readyRows {now : ℤ} {row : Keyed NotificationJob} :
    row ∈ w.notificationJobs.select none (NotificationJob.ready now) ↔
      w.notificationJobs.stored row.id = some row.row ∧ row.row.ready now = true := by
  rw [Table.mem_select, Cell.view_none]
  exact Iff.rfl

/-- What a consumer finds. -/
theorem nextReady_of_earliest {now : ℤ} {pick : ℕ} {row : Keyed NotificationJob}
    (h : earliest NotificationJob.createdAt pick
      (w.notificationJobs.select none (NotificationJob.ready now)) = some row) :
    NextReady w now row.id row.row := by
  obtain ⟨hrow, hleast⟩ := earliest_eq_some h
  obtain ⟨hstored, hready⟩ := mem_readyRows.1 hrow
  exact ⟨hstored, hready, fun k l hl hlready ↦ hleast ⟨k, l⟩ (mem_readyRows.2 ⟨hl, hlready⟩)⟩

theorem nothingReady_of_earliest {now : ℤ} {pick : ℕ}
    (h : earliest NotificationJob.createdAt pick
      (w.notificationJobs.select none (NotificationJob.ready now)) = none) :
    NothingReady w now := by
  intro id j hj
  by_contra hready
  have hrow : (⟨id, j⟩ : Keyed NotificationJob) ∈
      w.notificationJobs.select none (NotificationJob.ready now) :=
    mem_readyRows.2 ⟨hj, by simpa using hready⟩
  rw [earliest_eq_none h] at hrow
  cases hrow

/-- What no statement takes back. -/
structure Onward (s s' : History ι) : Prop where
  log : s.log <+: s'.log
  clock : s.shared.now ≤ s'.shared.now
  committed : s.shared.notificationJobs.Committed → s'.shared.notificationJobs.Committed

/-- A program that ends has gone onward. -/
theorem EndsAlone.onward {p : Call α} (h : EndsAlone crypto i Q p s) :
    EndsAlone crypto i (fun o s' ↦ Q o s' ∧ Onward s s') p s := by
  refine h.keeps ⟨List.prefix_refl _, le_rfl, id⟩ fun s' x op r t hs' hx ↦ ?_
  refine ⟨hs'.log.trans (List.prefix_append _ _), ?_, fun hs ↦ exec_committed hx (hs'.committed hs)⟩
  have hnow : t.now = s'.shared.now + x.elapse := exec_now hx
  have hclock := hs'.clock
  show s.shared.now ≤ t.now
  omega

/-! ### A poll alone -/

/-- The job can be delivered: the database accepts its updates, and its payload can be read. -/
structure Deliverable (env : Env) (j : NotificationJob) (payload : PayloadRecord) : Prop where
  linked : j.linked = true
  readable : decryptPayload env j.payloadJson = .ok payload
  kept : payload.redacted = none

/-- The statement that hands the message of a job to the provider. -/
def deliveryOf (j : NotificationJob) (payload : PayloadRecord) : Op :=
  match j.type with
  | .otpRequested => .host (.sendOtp (payload.phone.getD "") payload.otp)
  | .weeklySummary | .riskAlert | .riskRecovery =>
    .host (.sendMessage (payload.phone.getD "") payload.body)

/-- Since the first `n` statements the statement has been executed. -/
def ExecutedSince (n : ℕ) (s : History ι) (op : Op) : Prop := ∃ e ∈ s.log.drop n, e.op = op

omit [DecidableEq ι] in
theorem ExecutedSince.mono {n m : ℕ} {s' : History ι} (h : ExecutedSince n s op)
    (hlog : s.log <+: s'.log) (hm : m ≤ n) : ExecutedSince m s' op := by
  obtain ⟨e, he, hop⟩ := h
  exact ⟨e, (hlog.drop m).subset ((List.drop_subset_drop_left s.log hm) he), hop⟩

/-- The job has been delivered: the provider has its message, it is sent and its payload gone. -/
structure DeliveredSince (n : ℕ) (s : History ι) (id : ℕ) (j : NotificationJob)
    (payload : PayloadRecord) : Prop where
  handed : ExecutedSince n s (deliveryOf j payload)
  sent : ∃ j', s.shared.notificationJobs.stored id = some j' ∧ j'.status = .sent ∧
    j'.payloadJson = REDACTED_PAYLOAD_JSON

/-- What a poll finds to deliver, and what its claim makes of it. -/
def Takes (env : Env) (s s' : History ι) : Except Failure (Option ClaimedJob) → Prop
  | .ok none => s'.shared.notificationJobs = s.shared.notificationJobs ∧
      ∃ now, s.shared.now ≤ now ∧ NothingReady s.shared now
  | .ok (some job) => ∃ now j, s.shared.now ≤ now ∧ NextReady s.shared now job.id j ∧
      job.row = { j with status := .processing, lockedAt := some now } ∧
        Deliverable env j job.payload ∧ PutsJob s.shared s'.shared job.id job.row
  | .error _ => False

/-- Every job that is not finished can be delivered. -/
def AllDeliverable (env : Env) (w : World ι) : Prop :=
  ∀ id j, w.notificationJobs.stored id = some j → j.status.terminal = false →
    ∃ payload, Deliverable env j payload

/-- A job that is ready is not finished. -/
theorem NotificationJob.waits_of_ready {j : NotificationJob} {now : ℤ} (h : j.ready now = true) :
    j.status.terminal = false := by
  cases hstatus : j.status <;> simp_all [NotificationJob.ready, NotificationJobStatus.terminal]

/-- **The claim of a poll** takes the oldest job that is ready, if there is one. -/
theorem claimReadyJob_ends (hs : s.shared.notificationJobs.Committed)
    (hd : AllDeliverable env s.shared) :
    EndsAlone env.crypto i (fun o s' ↦ Takes env s s' o) (claimReadyJob env) s := by
  refine ends_run_bind fun x hx ↦ ⟨_, _, rfl, ?_⟩
  have hclock : s.shared.now ≤ (s.shared.elapse x.elapse).now := by
    show s.shared.now ≤ s.shared.now + (x.elapse : ℤ)
    omega
  generalize hnow : (s.shared.elapse x.elapse).now = now at hclock
  refine ends_run_bind fun x' hx' ↦ ⟨_, _, rfl, ?_⟩
  generalize hfound : earliest NotificationJob.createdAt x'.pick _ = found
  cases found with
  | none => exact ⟨rfl, now, hclock, nothingReady_of_earliest hfound⟩
  | some candidate =>
    have hnext : NextReady s.shared now candidate.id candidate.row := nextReady_of_earliest hfound
    obtain ⟨payload, hpayload⟩ := hd _ _ hnext.stored (NotificationJob.waits_of_ready hnext.ready)
    refine ends_run_bind fun x₃ hx₃ ↦ ?_
    obtain ⟨t, ht, hputs⟩ := perform_claim env.crypto i x₃
      (w := (((s.shared.elapse x.elapse).elapse x'.elapse).elapse x₃.elapse)) hs hnext.stored
      hnext.ready hpayload.linked
    obtain ⟨locked, hlocked⟩ : ∃ locked, locked =
      { candidate.row with status := .processing, lockedAt := some now } := ⟨_, rfl⟩
    rw [← hlocked] at hputs
    have hread : decryptPayload env locked.payloadJson = .ok payload := hlocked ▸ hpayload.readable
    refine ⟨true, t, ht, ends_run_bind fun x₄ hx₄ ↦
      ⟨locked, t.elapse x₄.elapse, perform_findById hputs.put, ?_⟩⟩
    simp only [hread]
    exact ⟨now, candidate.row, hclock, hnext, hlocked, hpayload, hputs.put, hputs.others⟩

/-- A job that is there is deliverable when nothing blocks it. -/
theorem canDeliver_ends {job : ClaimedJob} {j : NotificationJob}
    (hj : s.shared.notificationJobs.stored job.id = some j) :
    EndsAlone crypto i
      (fun o s' ↦ o = .ok true ∧ s'.shared.notificationJobs = s.shared.notificationJobs)
      (canDeliver job) s := by
  refine ends_run_bind fun x hx ↦ ⟨_, _, rfl, ?_⟩
  rw [hx.2]
  refine ends_run fun x' hx' ↦ ⟨_, _, rfl, ?_⟩
  refine ⟨?_, rfl⟩
  show Except.ok (s.shared.notificationJobs.stored job.id).isSome = _
  rw [hj]
  rfl

/-- **The message** of a job is handed to the provider. -/
theorem processJob_ends {job : ClaimedJob} (hkept : job.payload.redacted = none) :
    EndsAlone crypto i (fun o s' ↦ (∃ result, o = .ok result) ∧
        ExecutedSince s.log.length s' (deliveryOf job.row job.payload) ∧
          s'.shared.notificationJobs = s.shared.notificationJobs) (processJob job) s := by
  have hsent : ∀ op r t, ExecutedSince s.log.length (s.after i op r t) op := by
    intro op r t
    refine ⟨⟨i, s.shared, op, r, t⟩, ?_, rfl⟩
    rw [State.after_log, List.drop_left]
    exact List.mem_singleton_self _
  cases htype : job.row.type
  all_goals
    simp only [processJob, deliveryOf, htype, hkept, Option.isSome_none, Bool.false_eq_true,
      if_false]
    exact ends_run fun x hx ↦ ⟨x.sms, s.shared.elapse x.elapse, rfl, ⟨_, rfl⟩, hsent _ _ _, rfl⟩

/-- **A success** is recorded. -/
theorem markSucceeded_ends {job : ClaimedJob} {j : NotificationJob} {provider : String}
    {providerMessageId : Option String} (hs : s.shared.notificationJobs.Committed)
    (hj : s.shared.notificationJobs.stored job.id = some j) (hlinked : j.linked = true) :
    EndsAlone crypto i (fun o s' ↦ o = .ok () ∧ ∃ j', PutsJob s.shared s'.shared job.id j' ∧
        j'.status = .sent ∧ j'.payloadJson = REDACTED_PAYLOAD_JSON)
      (markSucceeded job provider providerMessageId) s := by
  refine ends_run_bind fun x hx ↦ ⟨_, _, rfl, ?_⟩
  refine .tryCatch_of_ok (ends_run fun x' hx' ↦ ?_) fun _ _ h ↦ nomatch h.1
  obtain ⟨t, ht, hputs⟩ := perform_update crypto i x'
    (succeededUpdate (s.shared.elapse x.elapse).now provider providerMessageId)
    (w := (s.shared.elapse x.elapse).elapse x'.elapse) hs hj hlinked rfl
  exact ⟨(), t, ht, rfl, _, ⟨hputs.put, hputs.others⟩, rfl, rfl⟩

/-- **The delivery** of a claimed job. -/
theorem processClaimedJob_ends {job : ClaimedJob} (hs : s.shared.notificationJobs.Committed)
    (hj : s.shared.notificationJobs.stored job.id = some job.row)
    (hd : Deliverable env job.row job.payload) :
    EndsAlone env.crypto i (fun o s' ↦ o = .ok () ∧
        (∃ j', PutsJob s.shared s'.shared job.id j' ∧ j'.status = .sent ∧
          j'.payloadJson = REDACTED_PAYLOAD_JSON) ∧
        ExecutedSince s.log.length s' (deliveryOf job.row job.payload))
      (processClaimedJob env job) s := by
  refine .tryCatch_of_ok ?_ fun _ _ h ↦ nomatch h.1
  refine (canDeliver_ends hj).onward.bind ?_ fun _ _ h ↦ nomatch h.1.1
  rintro _ s₁ ⟨⟨⟨⟩, hjobs₁⟩, hon₁⟩
  rw [if_pos rfl]
  refine (processJob_ends hd.kept).onward.bind ?_ fun _ _ h ↦ nomatch h.1.1
  rintro result s₂ ⟨⟨-, hexec, hjobs₂⟩, hon₂⟩
  have hjobs : s₂.shared.notificationJobs = s.shared.notificationJobs := hjobs₂.trans hjobs₁
  refine (markSucceeded_ends (hon₂.committed (hon₁.committed hs)) (hjobs ▸ hj)
    hd.linked).onward.mono ?_
  rintro o s₃ ⟨⟨rfl, j', hputs, hsent, hredacted⟩, hon₃⟩
  refine ⟨rfl, ⟨j', ⟨hputs.put, fun k hk ↦ ?_⟩, hsent, hredacted⟩,
    hexec.mono hon₃.log hon₁.log.length_le⟩
  rw [hputs.others k hk, hjobs]

/-- What a poll achieves: it finds nothing that is ready, or delivers the oldest job that is. -/
inductive Polled (env : Env) (s s' : History ι) : Prop
  | idle {now : ℤ} (hclock : s.shared.now ≤ now) (hnothing : NothingReady s.shared now)
      (hjobs : s'.shared.notificationJobs = s.shared.notificationJobs)
  | delivered {now : ℤ} {id : ℕ} {j j' : NotificationJob} {payload : PayloadRecord}
      (hclock : s.shared.now ≤ now) (hnext : NextReady s.shared now id j)
      (hpayload : Deliverable env j payload) (hputs : PutsJob s.shared s'.shared id j')
      (hsent : j'.status = .sent) (hredacted : j'.payloadJson = REDACTED_PAYLOAD_JSON)
      (hexec : ExecutedSince s.log.length s' (deliveryOf j payload))

/-- **A poll alone** delivers the oldest job that is ready. -/
theorem tick_ends (hs : s.shared.notificationJobs.Committed) (hd : AllDeliverable env s.shared) :
    EndsAlone env.crypto i (fun o s' ↦ o = .ok () ∧ Polled env s s') (tick env) s := by
  refine .tryCatch_of_ok ?_ fun _ _ h ↦ nomatch h.1
  refine (claimReadyJob_ends hs hd).onward.bind ?_ fun _ _ h ↦ h.1.elim
  rintro claimed s₁ ⟨htakes, hon₁⟩
  cases claimed with
  | none =>
    obtain ⟨hjobs, now, hclock, hnothing⟩ := htakes
    exact ⟨rfl, .idle hclock hnothing hjobs⟩
  | some job =>
    obtain ⟨now, j, hclock, hnext, hrow, hpayload, hputs⟩ := htakes
    have hrowDeliverable : Deliverable env job.row job.payload := by
      rw [hrow]
      exact ⟨hpayload.linked, hpayload.readable, hpayload.kept⟩
    refine (processClaimedJob_ends (hon₁.committed hs) hputs.put hrowDeliverable).mono ?_
    rintro o s₂ ⟨rfl, ⟨j', hputs₂, hsent, hredacted⟩, hexec⟩
    have hmessage : deliveryOf job.row job.payload = deliveryOf j job.payload := by rw [hrow]; rfl
    refine ⟨rfl, .delivered hclock hnext hpayload ⟨hputs₂.put, fun k hk ↦ ?_⟩ hsent hredacted
      (hmessage ▸ hexec.mono (List.prefix_refl _) hon₁.log.length_le)⟩
    rw [hputs₂.others k hk, hputs.others k hk]

/-- **A poll** takes the next job, or finds nothing ready. -/
theorem poll_ends (hs : s.shared.notificationJobs.Committed) (hd : AllDeliverable env s.shared) :
    EndsAlone env.crypto i (fun o s' ↦ o = .ok .done ∧ Polled env s s' ∧ Onward s s')
      (ApiCall.tick.program env) s := by
  refine (tick_ends hs hd).onward.bind ?_ fun _ _ h ↦ nomatch h.1.1
  rintro _ s' ⟨⟨-, hpolled⟩, hon⟩
  exact ⟨rfl, hpolled, hon⟩

/-! ### Positions in the queue -/

/-- The other jobs that are not finished and no younger than the job. -/
def ahead (w : World ι) (id : ℕ) (j : NotificationJob) : Finset ℕ :=
  (Finset.range w.notificationJobs.next).filter fun k ↦ k ≠ id ∧
    (w.notificationJobs.stored k).any fun l ↦
      !l.status.terminal && decide (l.createdAt ≤ j.createdAt)

omit [DecidableEq ι] in
theorem mem_ahead {id k : ℕ} {j : NotificationJob} : k ∈ ahead w id j ↔ k ≠ id ∧
    ∃ l, w.notificationJobs.stored k = some l ∧ l.status.terminal = false ∧
      l.createdAt ≤ j.createdAt := by
  simp only [ahead, Finset.mem_filter, Finset.mem_range, Option.any_eq_true, Bool.and_eq_true,
    Bool.not_eq_true', decide_eq_true_eq]
  refine ⟨fun h ↦ h.2, fun h ↦ ⟨Table.lt_next_of_cell fun hempty ↦ ?_, h⟩⟩
  obtain ⟨-, l, hl, -⟩ := h
  rw [Table.stored, hempty] at hl
  cases hl

/-- Time only makes jobs ready. -/
theorem NotificationJob.ready_mono {j : NotificationJob} {now now' : ℤ} (hnow : now ≤ now')
    (h : j.ready now = true) : j.ready now' = true := by
  simp only [NotificationJob.ready, Bool.or_eq_true, Bool.and_eq_true, decide_eq_true_eq] at h ⊢
  rcases h with ⟨hstatus, hdue⟩ | ⟨hstatus, hlock⟩
  · exact .inl ⟨hstatus, hdue.trans hnow⟩
  · refine .inr ⟨hstatus, ?_⟩
    cases hlocked : j.lockedAt with
    | none => rfl
    | some lockedAt =>
      simp only [hlocked, decide_eq_true_eq] at hlock ⊢
      omega

/-- The job waits, and fewer than `n` jobs are to come before it. -/
structure Queued (n : ℕ) (s : History ι) (id : ℕ) (j : NotificationJob) : Prop where
  stored : s.shared.notificationJobs.stored id = some j
  ready : j.ready s.shared.now = true
  few : (ahead s.shared id j).card < n

/-- With `n` turns left of those there were in `s₀`: the jobs are in order, and each job that was
ready in `s₀`, with fewer jobs before it than turns, has been delivered or is in time. -/
structure InLine (env : Env) (s₀ : History ι) (turns n : ℕ) (s : History ι) : Prop where
  committed : s.shared.notificationJobs.Committed
  deliverable : AllDeliverable env s.shared
  log : s₀.log.length ≤ s.log.length
  served : ∀ id j payload, Queued turns s₀ id j → Deliverable env j payload →
    DeliveredSince s₀.log.length s id j payload ∨ Queued n s id j

section Served

variable {s s' : History ι} {s₀ : History ι} {turns n id : ℕ} {j : NotificationJob}
  {payload : PayloadRecord}

omit [DecidableEq ι] in
/-- A delivered job stays delivered when another one is written. -/
theorem DeliveredSince.of_puts {m k : ℕ} {l' : NotificationJob}
    (h : DeliveredSince m s id j payload) (hlog : s.log <+: s'.log)
    (hputs : PutsJob s.shared s'.shared k l') (hk : id ≠ k) :
    DeliveredSince m s' id j payload := by
  obtain ⟨hhanded, j', hj', hsent⟩ := h
  exact ⟨hhanded.mono hlog le_rfl, j', (hputs.others id hk).trans hj', hsent⟩

omit [DecidableEq ι] in
/-- **A delivery** of a job that was before another brings that one forward. -/
theorem Queued.of_puts {k : ℕ} {l l' : NotificationJob} (h : Queued (n + 1) s id j)
    (hclock : s.shared.now ≤ s'.shared.now) (hl : s.shared.notificationJobs.stored k = some l)
    (hwaits : l.status.terminal = false) (hage : l.createdAt ≤ j.createdAt)
    (hputs : PutsJob s.shared s'.shared k l') (hsent : l'.status = .sent) (hk : id ≠ k) :
    Queued n s' id j := by
  refine ⟨(hputs.others id hk).trans h.stored, NotificationJob.ready_mono hclock h.ready, ?_⟩
  have hbefore : k ∈ ahead s.shared id j := mem_ahead.2 ⟨hk.symm, l, hl, hwaits, hage⟩
  have hfewer : ahead s'.shared id j ⊆ (ahead s.shared id j).erase k := by
    intro m hm
    obtain ⟨hmid, l₁, hl₁, hterminal, hage₁⟩ := mem_ahead.1 hm
    have hmk : m ≠ k := by
      rintro rfl
      rw [Option.some.inj (hl₁.symm.trans hputs.put), hsent] at hterminal
      cases hterminal
    exact Finset.mem_erase.2 ⟨hmk, mem_ahead.2 ⟨hmid, l₁, (hputs.others m hmk) ▸ hl₁, hterminal,
      hage₁⟩⟩
  have hcard := Finset.card_le_card hfewer
  rw [Finset.card_erase_of_mem hbefore] at hcard
  have hpos : 0 < (ahead s.shared id j).card := Finset.card_pos.2 ⟨k, hbefore⟩
  have hfew := h.few
  omega

omit [DecidableEq ι] in
/-- Deliveries leave what can be delivered. -/
theorem AllDeliverable.of_puts (h : AllDeliverable env s.shared) {k : ℕ} {l' : NotificationJob}
    (hputs : PutsJob s.shared s'.shared k l') (hsent : l'.status = .sent) :
    AllDeliverable env s'.shared := by
  intro m l hl hterminal
  by_cases hm : m = k
  · subst hm
    rw [Option.some.inj (hl.symm.trans hputs.put), hsent] at hterminal
    cases hterminal
  · exact h m l ((hputs.others m hm) ▸ hl) hterminal

omit [DecidableEq ι] in
/-- **A turn.** A poll delivers a job that waits, or one that comes before it. -/
theorem InLine.polled (h : InLine env s₀ turns (n + 1) s) (hpolled : Polled env s s')
    (hon : Onward s s') : InLine env s₀ turns n s' := by
  have hlog : s₀.log.length ≤ s'.log.length := h.log.trans hon.log.length_le
  have hcommitted := hon.committed h.committed
  -- A poll delivers the oldest job that is ready, or it finds nothing to do.
  cases hpolled with
  | @idle now hclock hnothing hjobs =>
    have hd : AllDeliverable env s'.shared := fun k l hl ↦ h.deliverable k l (hjobs ▸ hl)
    refine ⟨hcommitted, hd, hlog, fun id j payload hw hp ↦ .inl ?_⟩
    rcases h.served id j payload hw hp with ⟨hhanded, j', hj', hsent⟩ | hwaiting
    · exact ⟨hhanded.mono hon.log le_rfl, j', hjobs ▸ hj', hsent⟩
    · have hready := NotificationJob.ready_mono hclock hwaiting.ready
      rw [hnothing id j hwaiting.stored] at hready
      cases hready
  | @delivered now k l l' message hclock hnext hpayload hputs hsent hredacted hexec =>
    refine ⟨hcommitted, h.deliverable.of_puts hputs hsent, hlog, fun id j payload hw hp ↦ ?_⟩
    have hwaits := NotificationJob.waits_of_ready hnext.ready
    rcases h.served id j payload hw hp with hdone | hwaiting
    · -- What is delivered is not ready, so this poll delivers something else.
      refine .inl (hdone.of_puts hon.log hputs ?_)
      rintro rfl
      obtain ⟨j', hj', hstatus, -⟩ := hdone.sent
      rw [Option.some.inj (hnext.stored.symm.trans hj'), hstatus] at hwaits
      cases hwaits
    -- The oldest job is this one, or one that was ahead of it.
    · by_cases hk : id = k
      · subst hk
        obtain rfl := Option.some.inj (hnext.stored.symm.trans hwaiting.stored)
        obtain rfl := Except.ok.inj (hpayload.readable.symm.trans hp.readable)
        exact .inl ⟨hexec.mono (List.prefix_refl _) h.log, l', hputs.put, hsent, hredacted⟩
      · have hage := hnext.oldest id j hwaiting.stored
          (NotificationJob.ready_mono hclock hwaiting.ready)
        exact .inr (hwaiting.of_puts hon.clock hnext.stored hwaits hage hputs hsent hk)

end Served

/-! ### Runs -/

/-- No transaction ever holds a job. -/
theorem committed_run (env : Env) {A : Weather ι} {w : World ι} (hw : w.notificationJobs.Committed)
    (calls : ι → ApiCall) {c : System ι} (hc : System.Reaches env A (System.start env w calls) c) :
    c.state.shared.notificationJobs.Committed :=
  (Run.invariant (C := fun _ _ ↦ True) (I := fun s ↦ s.shared.notificationJobs.Committed) hc
    (Config.issues_start fun _ ↦ Prog.all_true _) hw (fun _ _ _ _ _ _ hs _ _ hx ↦
      exec_committed hx hs) fun _ _ hs _ ↦ hs).1

/-- **The queue drains.** Take any state that calls have reached, over any faults and crashes, in
which every job that is not finished can be delivered, and let consumers poll from there, one after
the other and undisturbed. They can, each of them answers, and a job that was ready with fewer jobs
before it than there are polls is handed to the provider and recorded as sent, without its
payload. -/
theorem queue_drains (env : Env) {A : Weather ι} {w : World ι} (hw : w.notificationJobs.Committed)
    (calls : ι → ApiCall) {c : System ι} (hc : System.Reaches env A (System.start env w calls) c)
    (hd : AllDeliverable env c.state.shared) {polls : List ι} (hpolls : polls.Nodup)
    (hbegin : ∀ i ∈ polls, c.progs i = some (ApiCall.tick.program env)) :
    (∃ c', System.Reaches env .all c c' ∧
      InTurn (machine ι env.crypto) Undisturbed polls c c') ∧
    ∀ c', InTurn (machine ι env.crypto) Undisturbed polls c c' →
      (∀ i ∈ polls, c'.Answered i (.ok .done)) ∧
      ∀ id j payload, c.state.shared.notificationJobs.stored id = some j →
        j.ready c.state.shared.now = true → Deliverable env j payload →
          (ahead c.state.shared id j).card < polls.length →
            DeliveredSince c.state.log.length c'.state id j payload := by
  have hstart : InLine env c.state polls.length polls.length c.state :=
    ⟨committed_run env hw calls hc, hd, le_rfl, fun _ _ _ hwaiting _ ↦ .inr hwaiting⟩
  obtain ⟨⟨c', hturns⟩, hall⟩ := inTurn_ends (M := machine ι env.crypto) (F := Undisturbed)
    (I := InLine env c.state polls.length) (P := fun o ↦ o = .ok .done) hpolls hbegin hstart
    fun i _ n s hs ↦ (poll_ends hs.committed hs.deliverable).mono
      fun o s' h ↦ ⟨h.1, hs.polled h.2.1 h.2.2⟩
  refine ⟨⟨c', hturns.run fun _ _ _ _ _ ↦ trivial, hturns⟩, fun c' hc' ↦ ?_⟩
  obtain ⟨hend, hanswers⟩ := hall c' hc'
  refine ⟨fun i hi ↦ ?_, fun id j payload hj hready hp hfew ↦ ?_⟩
  · obtain ⟨o, ho, rfl⟩ := hanswers i hi
    exact ho
  · rcases hend.served id j payload ⟨hj, hready, hfew⟩ hp with hdone | hwaiting
    · exact hdone
    · exact absurd hwaiting.few (Nat.not_lt_zero _)

namespace Demo

/-- A payload with a text. -/
def alertPayload : PayloadRecord := ⟨none, some "+1", none, some "Your plan is at risk", none⟩

/-- An alert that is to be sent. -/
def alertJob (createdAt : ℤ) : NotificationJob where
  type := .riskAlert
  payloadJson := .record alertPayload
  status := .pending
  attempts := 0
  maxAttempts := 3
  nextRunAt := 0
  lockedAt := none
  sentAt := none
  failedAt := none
  lastError := none
  provider := none
  providerMessageId := none
  correlationId := 0
  userId := none
  otpCodeId := none
  goalId := none
  dedupeKey := none
  createdAt := createdAt

/-- Two alerts wait. -/
def alertWorld : World ℕ :=
  { world with
    notificationJobs := ((world.notificationJobs.insert none (alertJob 0)).2.insert none
      (alertJob 1)).2 }

/-- A job with it can be delivered. -/
theorem deliverable_alertJob (createdAt : ℤ) : Deliverable env (alertJob createdAt) alertPayload :=
  ⟨rfl, rfl, rfl⟩

theorem committed_alertWorld : alertWorld.notificationJobs.Committed :=
  .insert (.insert (fun _ ↦ rfl) _) _

theorem allDeliverable_alertWorld : AllDeliverable env alertWorld := by
  intro id j hj _
  match id with
  | 0 =>
    obtain rfl := Option.some.inj hj
    exact ⟨_, deliverable_alertJob 0⟩
  | 1 =>
    obtain rfl := Option.some.inj hj
    exact ⟨_, deliverable_alertJob 1⟩
  | _ + 2 => cases hj

end Demo

/-- The second of two jobs is delivered by the second poll. -/
theorem queue_drains_alerts : ∃ c', InTurn (machine ℕ Demo.crypto) Undisturbed [0, 1]
      (System.start Demo.env Demo.alertWorld fun _ ↦ .tick) c' ∧
    DeliveredSince 0 c'.state 1 (Demo.alertJob 1) Demo.alertPayload := by
  obtain ⟨⟨c', -, hturns⟩, hall⟩ := queue_drains Demo.env (A := .all) Demo.committed_alertWorld
    (fun _ ↦ .tick) .refl Demo.allDeliverable_alertWorld (List.nodup_range (n := 2))
    fun _ _ ↦ rfl
  exact ⟨c', hturns, (hall c' hturns).2 1 _ _ rfl rfl (Demo.deliverable_alertJob 1) (by decide)⟩

end Stead
