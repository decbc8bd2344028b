import Mathlib.Data.Finset.Card
import Stead.Queue.Fencing

/-!
# How often a job is delivered

A poll claims one job, and hands over one message (`OneDelivery`). So a job is handed to the
provider at most once for each claim there has been of it, and the question is how often it is
claimed.

## Claims and attempts

Before a job is claimed again, the worker that claimed it last has recorded a failure, or its lease
has run out and the job is taken over. Where claims fence the failures of their jobs, each failure
uses up an attempt: it counts from the row that was claimed, and nobody else has counted since. So
the claims of a job are bounded by its attempts and the times it was taken over (`Rationed`), and
with them its deliveries (`deliveries_bounded`).

A worker that was overtaken may still record a success, which counts no attempt and ends the job.

## Counting

Claims, takeovers and messages are counted in the record of the run. The counts change by one
statement as that statement says (`claims_after`, `takeovers_after`, `sendsOf_append`), and
`Rationed.after` compares them with the row.
-/

namespace Stead

open Concurrency

variable {ι : Type}

/-! ### Counting claims -/

/-- The job a worker has claimed, if it was told so. -/
def claimedJob : Exchange Statements → Option ℕ
  | ⟨.notificationJob (.claim id _), .ok true⟩ => some id
  | _ => none

/-- A message is handed to the provider. -/
def handsOver : Op → Bool
  | .host (.sendOtp _ _) | .host (.sendMessage _ _) => true
  | _ => false

/-- The statement has claimed the job. -/
def isClaim (id : ℕ) (e : Happening ι) : Bool := claimedJob ⟨e.op, e.resp⟩ = some id

/-- It has taken the job over from a worker that has not completed it. -/
def isTakeover (id : ℕ) (e : Happening ι) : Bool :=
  isClaim id e && (e.before.notificationJobs.stored id).any (·.status = .processing)

/-- How often the job was claimed. -/
def claims (s : History ι) (id : ℕ) : ℕ := s.log.countP (isClaim id)

/-- How often it was taken over. -/
def takeovers (s : History ι) (id : ℕ) : ℕ := s.log.countP (isTakeover id)

/-- The attempts a job has used up, with the one that is under way or was successful. -/
def NotificationJob.used (j : NotificationJob) : ℕ :=
  j.attempts + if j.status = .processing ∨ j.status = .sent then 1 else 0

/-- Every claim of a job was a takeover or has used up an attempt, and the job has no more of them
than it is allowed. -/
structure Rationed (s : History ι) : Prop where
  used : ∀ id j, s.shared.notificationJobs.stored id = some j →
    claims s id ≤ j.used + takeovers s id
  allowed : ∀ id j, s.shared.notificationJobs.stored id = some j →
    claims s id ≤ j.maxAttempts + takeovers s id
  unborn : ∀ id, s.shared.notificationJobs.stored id = none → claims s id = 0

/-- A job is claimed by a claim that succeeds. -/
theorem claimedJob_eq_some {op : Op} {r : Statements.Resp op} {id : ℕ}
    (h : claimedJob ⟨op, r⟩ = some id) : ∃ now,
      (⟨op, r⟩ : Exchange Statements) = ⟨.notificationJob (.claim id now), .ok true⟩ := by
  unfold claimedJob at h
  split at h
  · next heq =>
    cases h
    exact ⟨_, heq⟩
  · cases h

section Counting

variable {s : History ι} {i : ι} {op : Op} {r : Statements.Resp op} {t : World ι} {id : ℕ}

theorem claims_after : claims (s.after i op r t) id =
    claims s id + if isClaim id ⟨i, s.shared, op, r, t⟩ then 1 else 0 := by
  simp [claims, List.countP_append, List.countP_singleton]

theorem takeovers_after : takeovers (s.after i op r t) id =
    takeovers s id + if isTakeover id ⟨i, s.shared, op, r, t⟩ then 1 else 0 := by
  simp [takeovers, List.countP_append, List.countP_singleton]

/-- What is no claim is no takeover. -/
theorem claims_after_of_not (h : isClaim id ⟨i, s.shared, op, r, t⟩ = false) :
    claims (s.after i op r t) id = claims s id ∧
      takeovers (s.after i op r t) id = takeovers s id := by
  rw [claims_after, takeovers_after, isTakeover, h]
  exact ⟨rfl, rfl⟩

end Counting

section Step

variable [DecidableEq ι] {crypto : Crypto} {i : ι} {x : Choice} {op : Op} {s : History ι}
  {w t : World ι} {r : Except StatementError op.Ret}

/-- **A statement** takes no attempt back. -/
theorem used_le (hw : QueueSound w) (ht : QueueSound t) (hop : op.WellFormed)
    (h : exec crypto i x op w = some (r, t)) {id : ℕ} {j' : NotificationJob}
    (hj' : t.notificationJobs.stored id = some j') : w.notificationJobs.stored id = none ∨
      ∃ j, w.notificationJobs.stored id = some j ∧ j.used ≤ j'.used ∧
        j'.maxAttempts = j.maxAttempts := by
  cases exec_notificationJobs h id with
  | same hsame => exact .inr ⟨j', hsame.symm.trans hj', le_rfl, rfl⟩
  | create _ _ _ _ _ hnone => exact .inl hnone
  | @edit s₀ j j₁ hopeq hj hedit hnew =>
    obtain rfl := Option.some.inj (hnew.symm.trans hj')
    refine .inr ⟨j, hj, ?_⟩
    cases hedit with
    | adopt => exact ⟨le_rfl, rfl⟩
    | claim k now hready =>
      refine ⟨?_, rfl⟩
      simp only [NotificationJob.used]
      split <;> simp
    | redactTerminal => exact ⟨le_rfl, rfl⟩
    | update k data =>
      subst hopeq
      refine ⟨?_, rfl⟩
      rcases exec_update h with ⟨hjobs, -⟩ | ⟨j₂, hj₂, -, -, hfail⟩
      · have hsame : some (data.apply j) = some j := by rw [← hnew, hjobs, hj]
        rw [Option.some.inj hsame]
      have hstatus := NotificationJobUpdate.Completes.apply_status hop (j := j)
      cases hf : data.failureAttempt with
      | none =>
        -- A success uses up the attempt it was.
        have hattempts : (data.apply j).attempts = j.attempts := by
          rw [NotificationJobUpdate.apply, NotificationJobUpdate.Completes.attempts hop, hf]
          rfl
        have hsent : (data.apply j).status = .sent := by
          rw [hstatus, NotificationJobUpdate.outcome, hf]
        simp only [NotificationJob.used, hattempts, hsent]
        split <;> simp
      | some f =>
        -- A failure is counted.
        rw [hf] at hfail
        have hcounted : (data.apply j).attempts = j.attempts + 1 := by
          rw [ht.counted _ _ hnew, hw.counted _ j hj, World.failures_insert hfail, if_pos rfl]
        simp only [NotificationJob.used, hcounted]
        split <;> omega

/-- What a claim finds, and what it leaves. -/
theorem exec_isClaim {id : ℕ} (hclaim : isClaim id ⟨i, w, op, r, t⟩ = true)
    (h : exec crypto i x op w = some (r, t)) : ∃ j now, w.notificationJobs.stored id = some j ∧
      (j.status = .pending ∨ j.status = .processing) ∧ t.notificationJobs.stored id =
        some { j with status := .processing, lockedAt := some now } ∧
          isTakeover id ⟨i, w, op, r, t⟩ = decide (j.status = .processing) := by
  obtain ⟨now, heq⟩ := claimedJob_eq_some (of_decide_eq_true hclaim)
  cases heq
  obtain ⟨j, hj, hready, hnew⟩ := exec_claim h
  refine ⟨j, now, hj, ?_, hnew, ?_⟩
  · cases hstatus : j.status <;> simp_all [NotificationJob.ready]
  · rw [isTakeover, hclaim, Bool.true_and]
    show (w.notificationJobs.stored id).any _ = _
    rw [hj, Option.any_some]

/-- **A statement** keeps the claims within the attempts. -/
theorem Rationed.after (hs : Rationed s) (hw : QueueSound s.shared) (ht : QueueSound t)
    (hop : op.WellFormed) (h : exec crypto i x op s.shared = some (r, t)) :
    Rationed (s.after i op r t) := by
  -- At a claim the deliveries go up by one, and so does the allowance or the takeovers.
  have hclaimed : ∀ id j', t.notificationJobs.stored id = some j' →
      isClaim id ⟨i, s.shared, op, r, t⟩ = true →
        claims (s.after i op r t) id ≤ j'.used + takeovers (s.after i op r t) id ∧
          claims (s.after i op r t) id ≤ j'.maxAttempts + takeovers (s.after i op r t) id := by
    intro id j' hj' hclaim
    obtain ⟨j, now, hj, hstatus, hnew, htakeover⟩ := exec_isClaim hclaim h
    obtain rfl := Option.some.inj (hnew.symm.trans hj')
    have hused := hs.used id j hj
    have hallowed := hs.allowed id j hj
    rw [claims_after, takeovers_after, if_pos hclaim, htakeover]
    rcases hstatus with hstatus | hstatus
    · -- A job that waits has an attempt left.
      have hleft := hw.left id j hj (by rw [hstatus]; rfl)
      simp only [NotificationJob.used, hstatus] at hused ⊢
      simp at hused ⊢
      omega
    · simp only [NotificationJob.used, hstatus] at hused ⊢
      simp at hused ⊢
      omega
  -- Any other statement leaves the claims, and only adds to what is used.
  refine ⟨fun id j' hj' ↦ ?_, fun id j' hj' ↦ ?_, fun id hid ↦ ?_⟩ <;>
    cases hclaim : isClaim id ⟨i, s.shared, op, r, t⟩
  · obtain ⟨hsame, hsame'⟩ := claims_after_of_not hclaim
    rw [hsame, hsame']
    rcases used_le hw ht hop h hj' with hnone | ⟨j, hj, hle, -⟩
    · rw [hs.unborn id hnone]
      exact Nat.zero_le _
    · exact (hs.used id j hj).trans (Nat.add_le_add_right hle _)
  · exact (hclaimed id j' hj' hclaim).1
  · obtain ⟨hsame, hsame'⟩ := claims_after_of_not hclaim
    rw [hsame, hsame']
    rcases used_le hw ht hop h hj' with hnone | ⟨j, hj, -, hmax⟩
    · rw [hs.unborn id hnone]
      exact Nat.zero_le _
    · rw [hmax]
      exact hs.allowed id j hj
  · exact (hclaimed id j' hj' hclaim).2
  · rw [(claims_after_of_not hclaim).1]
    refine hs.unborn id ?_
    cases exec_notificationJobs h id with
    | same hsame => exact hsame.symm.trans hid
    | create _ _ _ _ _ hnone => exact hnone
    | edit _ _ _ hnew => cases hid.symm.trans hnew
  · obtain ⟨j, now, -, -, hnew, -⟩ := exec_isClaim hclaim h
    cases hid.symm.trans hnew

end Step

/-! ### What a poll does -/

/-- How many messages a call has handed over. -/
def sendsOf (trace : List (Exchange Statements)) : ℕ := trace.countP fun e ↦ handsOver e.1

/-- How many jobs it has claimed. -/
def claimsOf (trace : List (Exchange Statements)) : ℕ := trace.countP fun e ↦ (claimedJob e).isSome

/-- Statements that neither claim a job nor hand a message over. -/
def Op.Aside : Op → Prop
  | .host (.sendOtp _ _) | .host (.sendMessage _ _) | .notificationJob (.claim _ _) => False
  | _ => True

/-- A call claims a job before it hands anything over, one job and one message. -/
structure DeliverStatement (trace : List (Exchange Statements)) (op : Op) : Prop where
  claim : ∀ id now, op = .notificationJob (.claim id now) → claimsOf trace = 0 ∧ sendsOf trace = 0
  send : handsOver op = true → sendsOf trace = 0 ∧ 0 < claimsOf trace

section Programs

variable {env : Env} {trace : List (Exchange Statements)} {α : Type}

theorem sendsOf_append (e : Exchange Statements) :
    sendsOf (trace ++ [e]) = sendsOf trace + if handsOver e.1 then 1 else 0 := by
  simp [sendsOf, List.countP_append, List.countP_singleton]

theorem claimsOf_append (e : Exchange Statements) :
    claimsOf (trace ++ [e]) = claimsOf trace + if (claimedJob e).isSome then 1 else 0 := by
  simp [claimsOf, List.countP_append, List.countP_singleton]

theorem Op.Aside.handsOver {op : Op} (h : op.Aside) : handsOver op = false := by
  unfold Stead.handsOver
  split
  · cases h
  · cases h
  · rfl

theorem Op.Aside.claimedJob {op : Op} (h : op.Aside) (r : Statements.Resp op) :
    claimedJob ⟨op, r⟩ = none := by
  rw [Option.eq_none_iff_forall_ne_some]
  intro id hid
  obtain ⟨now, heq⟩ := claimedJob_eq_some hid
  cases heq
  exact h

theorem DeliverStatement.of_aside {op : Op} (h : op.Aside) : DeliverStatement trace op where
  claim := by
    rintro id now rfl
    cases h
  send hsend := by
    cases h.handsOver.symm.trans hsend

/-- What statements aside leave. -/
theorem aside_bind {β : Type} {p : Call β} {f : β → Call α}
    {Q : List (Exchange Statements) → α → Prop} (h : p.All Op.Aside)
    (hf : ∀ trace' b, claimsOf trace' = claimsOf trace → sendsOf trace' = sendsOf trace →
      (f b).Keeps DeliverStatement Q (fun _ _ ↦ True) trace') :
    (p >>= f).Keeps DeliverStatement Q (fun _ _ ↦ True) trace := by
  refine .bind ((h.keeps_append fun _ _ _ hop ↦ .of_aside hop).mono
    (fun _ _ h ↦ h) fun _ _ _ ↦ trivial) ?_
  rintro _ b ⟨rest, rfl, hrest⟩
  have hclaims : claimsOf rest = 0 := List.countP_eq_zero.2 fun e he ↦ by
    simp [Op.Aside.claimedJob (hrest e he)]
  have hsends : sendsOf rest = 0 := List.countP_eq_zero.2 fun e he ↦ by
    simp [(hrest e he).handsOver]
  refine hf _ b ?_ ?_
  · rw [claimsOf, List.countP_append]
    exact congrArg (_ + ·) hclaims
  · rw [sendsOf, List.countP_append]
    exact congrArg (_ + ·) hsends

theorem keeps_of_aside {p : Call α} (h : p.All Op.Aside) :
    p.Keeps DeliverStatement (fun _ _ ↦ True) (fun _ _ ↦ True) trace :=
  (h.keeps fun _ _ _ hop ↦ .of_aside hop).mono (fun _ _ _ ↦ trivial) fun _ _ _ ↦ trivial

theorem updateJob_aside (id : ℕ) (data : NotificationJobUpdate) : (updateJob id data).All Op.Aside :=
  .tryCatch (.run trivial) fun _ ↦ .ite (fun _ ↦ trivial) fun _ ↦ trivial

theorem markFailed_aside (job : ClaimedJob) (error : Failure) :
    (markFailed env job error).All Op.Aside := by
  refine .run_bind trivial fun now ↦ .bind ?_ fun nextRunAt ↦ updateJob_aside _ _
  exact .ite (fun _ ↦ trivial) fun _ ↦ .run_bind trivial fun _ ↦ trivial

/-- **A claim** comes before anything else a poll does. -/
theorem claimReadyJob_delivers (hclaims : claimsOf trace = 0) (hsends : sendsOf trace = 0) :
    (claimReadyJob env).Keeps DeliverStatement
      (fun trace' job ↦ sendsOf trace' = 0 ∧ (job.isSome → 0 < claimsOf trace'))
      (fun _ _ ↦ True) trace := by
  refine aside_bind (.run trivial) fun trace₁ now hclaims₁ hsends₁ ↦ ?_
  refine aside_bind (.run trivial) fun trace₂ candidate hclaims₂ hsends₂ ↦ ?_
  have hsends₂ : sendsOf trace₂ = 0 := hsends₂.trans (hsends₁.trans hsends)
  have hclaims₂ : claimsOf trace₂ = 0 := hclaims₂.trans (hclaims₁.trans hclaims)
  cases candidate with
  | none => exact ⟨hsends₂, nofun⟩
  | some candidate =>
    refine keeps_run_bind ⟨fun _ _ _ ↦ ⟨hclaims₂, hsends₂⟩, nofun⟩ (fun claimed ↦ ?_)
      fun _ ↦ trivial
    have hsends₃ : sendsOf (trace₂ ++ [⟨.notificationJob (.claim candidate.id now), .ok claimed⟩])
        = 0 := by
      rw [sendsOf_append, hsends₂]
      rfl
    refine .ite (fun hclaimed ↦ ?_) fun _ ↦ ⟨hsends₃, nofun⟩
    obtain rfl : claimed = true := hclaimed
    have hclaims₃ : 0 < claimsOf
        (trace₂ ++ [⟨.notificationJob (.claim candidate.id now), .ok true⟩]) := by
      rw [claimsOf_append]
      exact Nat.succ_pos _
    refine aside_bind (.run trivial) fun trace₄ locked hclaims₄ hsends₄ ↦ ?_
    split
    · exact ⟨hsends₄.trans hsends₃, fun _ ↦ hclaims₄ ▸ hclaims₃⟩
    · exact aside_bind (markFailed_aside _ _) fun trace₅ _ _ hsends₅ ↦
        ⟨hsends₅.trans (hsends₄.trans hsends₃), nofun⟩

/-- **The delivery** of a job hands over one message. -/
theorem processClaimedJob_delivers (job : ClaimedJob) (hclaims : 0 < claimsOf trace)
    (hsends : sendsOf trace = 0) : (processClaimedJob env job).Keeps DeliverStatement
      (fun _ _ ↦ True) (fun _ _ ↦ True) trace := by
  refine .tryCatch (F := fun _ _ ↦ True) ?_ fun _ e _ ↦ keeps_of_aside (markFailed_aside _ _)
  have hdeliver : (canDeliver job).All Op.Aside :=
    .run_bind trivial fun _ ↦ .ite (fun _ ↦ trivial) fun _ ↦ .run trivial
  refine aside_bind hdeliver fun trace₁ deliverable hclaims₁ hsends₁ ↦
    .ite (fun _ ↦ ?_) fun _ ↦ trivial
  have hready : sendsOf trace₁ = 0 ∧ 0 < claimsOf trace₁ :=
    ⟨hsends₁.trans hsends, hclaims₁ ▸ hclaims⟩
  refine .bind (R := fun _ _ ↦ True) ?_ fun trace₂ result _ ↦
    keeps_of_aside (.run_bind trivial fun _ ↦ updateJob_aside _ _)
  unfold processJob
  split
  all_goals
    refine .ite (fun _ ↦ trivial) fun _ ↦ ⟨⟨nofun, fun _ ↦ hready⟩, fun r ↦ ?_⟩
    cases r <;> trivial

/-- **A poll** claims once, and hands over once after that. -/
theorem tick_delivers (hclaims : claimsOf trace = 0) (hsends : sendsOf trace = 0) :
    (tick env).Keeps DeliverStatement (fun _ _ ↦ True) (fun _ _ ↦ True) trace := by
  refine .tryCatch (F := fun _ _ ↦ True) (.bind (claimReadyJob_delivers hclaims hsends)
    fun trace₁ claimed h ↦ ?_) fun _ _ _ ↦ trivial
  cases claimed with
  | none => trivial
  | some job => exact processClaimedJob_delivers job (h.2 rfl) h.1

/-- **Every poll** claims one job and hands over one message. -/
theorem program_delivers (call : ApiCall) : (call.program env).Keeps
    (fun trace op ↦ call = .tick → DeliverStatement trace op) (fun _ _ ↦ True) (fun _ _ ↦ True)
      [] := by
  by_cases hcall : call = .tick
  · subst hcall
    refine .bind (R := fun _ _ ↦ True) ?_ fun _ _ _ ↦ trivial
    exact (@tick_delivers env [] rfl rfl).weaken fun _ _ h _ ↦ h
  · exact ((Prog.all_true _).keeps fun _ _ _ _ h ↦ absurd h hcall).mono
      (fun _ _ _ ↦ trivial) fun _ _ _ ↦ trivial

end Programs

/-! ### Runs -/

variable [DecidableEq ι]

/-- The thread has claimed one job at most, and handed over one message at most, after that. -/
structure OneDelivery (s : History ι) (i : ι) : Prop where
  claims : claimsOf (s.trace i) ≤ 1
  sends : sendsOf (s.trace i) ≤ 1
  claimed : 0 < sendsOf (s.trace i) → 0 < claimsOf (s.trace i)

/-- The thread has claimed the job and handed a message over. -/
def Delivers (s : History ι) (i : ι) (id : ℕ) : Prop :=
  (∃ e ∈ s.history i, isClaim id e = true) ∧ 0 < sendsOf (s.trace i)

/-- A statement keeps the two counts together. -/
theorem OneDelivery.after {s : History ι} {i j : ι} {op : Op} {r : Statements.Resp op} {t : World ι}
    (hs : OneDelivery s j) (hop : i = j → DeliverStatement (s.trace i) op) :
    OneDelivery (s.after i op r t) j := by
  by_cases hij : i = j
  · subst hij
    -- A claim is the first one of the poll, and a delivery comes after it.
    obtain ⟨hclaim, hsend⟩ := hop rfl
    obtain ⟨hclaims, hsends, hclaimed⟩ := hs
    refine ⟨?_, ?_, ?_⟩ <;> rw [State.after_trace_self]
    · rw [claimsOf_append]
      split
      · next hsome =>
        obtain ⟨id, hid⟩ := Option.isSome_iff_exists.1 hsome
        obtain ⟨now, heq⟩ := claimedJob_eq_some hid
        cases heq
        rw [(hclaim id now rfl).1]
      · exact hclaims
    · rw [sendsOf_append]
      split
      · next h => rw [(hsend h).1]
      · exact hsends
    · intro hpos
      rw [claimsOf_append]
      refine Nat.lt_of_lt_of_le ?_ (Nat.le_add_right _ _)
      rw [sendsOf_append] at hpos
      split at hpos
      · next h => exact (hsend h).2
      · exact hclaimed hpos
  · obtain ⟨hclaims, hsends, hclaimed⟩ := hs
    refine ⟨?_, ?_, ?_⟩ <;> rw [State.after_trace_of_ne _ hij] <;> assumption

/-- The counters stay right where claims fence their jobs. -/
theorem queueSound_run (env : Env) {w : World ι} (hw : QueueSound w) (calls : ι → ApiCall)
    {c : System ι} (hc : System.Reaches env fenced (System.start env w calls) c) :
    QueueSound c.state.shared := by
  have hstart : Leased (⟨w, []⟩ : History ι) :=
    ⟨fun _ _ _ _ _ _ _ _ h ↦ (nomatch h), fun _ _ _ _ h ↦ (nomatch h), fun _ h ↦ (nomatch h)⟩
  have hsafe : (fencing env.crypto).AllSafe (fun _ _ _ ↦ True) (fun _ _ _ ↦ True)
      (System.start env w calls) :=
    .start (fun _ _ ↦ True) ⟨hw, hstart⟩ (fun _ ↦ trivial) fun i ↦ call_fencing_triple env (calls i)
  exact (hsafe.run hc).1.1

/-- **The claims of every run** are within the attempts. -/
theorem rationed_run (env : Env) {w : World ι} (hw : QueueSound w) (calls : ι → ApiCall)
    {c : System ι} (hc : System.Reaches env fenced (System.start env w calls) c) :
    Rationed c.state := by
  have hsound : ∀ c, System.Reaches env fenced (System.start env w calls) c →
      QueueSound c.state.shared := fun _ ↦ queueSound_run env hw calls
  have hstart : Rationed (⟨w, []⟩ : History ι) :=
    ⟨fun _ _ _ ↦ Nat.zero_le _, fun _ _ _ ↦ Nat.zero_le _, fun _ _ ↦ rfl⟩
  -- What a statement leaves is sound as well, so the counters before and after it are right.
  have h := Run.invariant (I := fun s ↦ QueueSound s.shared → Rationed s)
    (Run.within (C := fun s ↦ QueueSound s.shared) hsound hc)
    (Config.issues_start fun i ↦ (calls i).wellFormed env) (fun _ ↦ hstart)
    (fun s i x op r t hs hop ha hx ht ↦ (hs ha.2).after ha.2 ht hop hx)
    fun s i hs ha _ ↦ ⟨(hs ha.2).used, (hs ha.2).allowed, (hs ha.2).unborn⟩
  exact h.1 (hsound c hc)

/-- **Every poll** hands over one message at most. -/
theorem oneDelivery_run (env : Env) {A : Weather ι} {w : World ι} (calls : ι → ApiCall)
    {c : System ι} (hc : System.Reaches env A (System.start env w calls) c) {i : ι}
    (hi : calls i = .tick) : OneDelivery c.state i := by
  have hstart : OneDelivery (⟨w, []⟩ : History ι) i := ⟨Nat.zero_le _, Nat.zero_le _, nofun⟩
  exact (Run.invariant_keeps (I := fun s ↦ OneDelivery s i) hc
    (Config.keeps_start fun j ↦ program_delivers (calls j)) hstart
    (fun s j x op r t hs hop _ _ ↦ hs.after fun hj ↦ hop (hj ▸ hi))
    fun s j hs _ ↦ ⟨hs.claims, hs.sends, hs.claimed⟩).1

/-- **Deliveries are bounded.** Where only the worker that claimed a job last completes it, from any
database with the right counters, in every state that is reached: a poll has handed over one message
at most, after it has claimed a job, and a job was handed over by at most as many polls as it has
attempts, and one more for each time it was taken over from a worker whose lease had run out. -/
theorem deliveries_bounded (env : Env) {w : World ι} (hw : QueueSound w) (calls : ι → ApiCall)
    {c : System ι} (hc : System.Reaches env fenced (System.start env w calls) c) :
    (∀ i, calls i = .tick → OneDelivery c.state i) ∧
      ∀ id j, c.state.shared.notificationJobs.stored id = some j →
        ∀ workers : Finset ι, (∀ i ∈ workers, Delivers c.state i id) →
          workers.card ≤ j.maxAttempts + takeovers c.state id := by
  refine ⟨fun i hi ↦ oneDelivery_run env calls hc hi, fun id j hj workers hworkers ↦ ?_⟩
  refine le_trans ?_ ((rationed_run env hw calls hc).allowed id j hj)
  -- Each of them has made a claim of its own.
  have hthreads : workers ⊆ ((c.state.log.filter (isClaim id)).map Event.thread).toFinset := by
    intro i hi
    obtain ⟨⟨e, he, hclaim⟩, -⟩ := hworkers i hi
    obtain ⟨hlog, rfl⟩ := State.mem_history.1 he
    exact List.mem_toFinset.2 (List.mem_map_of_mem (List.mem_filter.2 ⟨hlog, hclaim⟩))
  refine (Finset.card_le_card hthreads).trans ((List.toFinset_card_le _).trans ?_)
  rw [List.length_map, ← List.countP_eq_length_filter]
  exact le_rfl

namespace Demo

/-- The job has three attempts, and workers 1 and 2 have delivered it. -/
def DeliveredTwice (c : System ℕ) : Prop :=
  (c.state.shared.notificationJobs.stored 0).map NotificationJob.maxAttempts = some 3 ∧
    ((c.state.history 1).any (isClaim 0) = true ∧ 0 < sendsOf (c.state.trace 1)) ∧
      (c.state.history 2).any (isClaim 0) = true ∧ 0 < sendsOf (c.state.trace 2)

instance (c : System ℕ) : Decidable (DeliveredTwice c) := inferInstanceAs (Decidable (_ ∧ _))

/-- The first delivery fails, and two seconds later another worker tries again. -/
theorem deliveredTwice_runs : ((System.start env world consumers).turns (machine ℕ crypto)
    allowFenced (claimed ++ fails 1 ++ claimsAfter 2 2000 ++ steps 2 6)).any
      (fun c ↦ DeliveredTwice c) = true := by
  decide +kernel

/-- The system after two deliveries of one job. -/
def deliveredTwice : System ℕ :=
  after (System.start env world consumers) _ _ (Option.isSome_of_any deliveredTwice_runs)

theorem deliveredTwice_tests : DeliveredTwice deliveredTwice :=
  of_decide_eq_true (Config.afterTurns_of_any deliveredTwice_runs)

theorem delivers_deliveredTwice : ∀ i ∈ ({1, 2} : Finset ℕ), Delivers deliveredTwice.state i 0 := by
  obtain ⟨-, ⟨hclaim, hsend⟩, hclaim', hsend'⟩ := deliveredTwice_tests
  intro i hi
  rcases Finset.mem_insert.1 hi with rfl | hi
  · exact ⟨List.any_eq_true.1 hclaim, hsend⟩
  · obtain rfl := Finset.mem_singleton.1 hi
    exact ⟨List.any_eq_true.1 hclaim', hsend'⟩

end Demo

theorem deliveries_bounded_deliveredTwice :
    ∃ j : NotificationJob, j.maxAttempts = 3 ∧
      ({1, 2} : Finset ℕ).card ≤ j.maxAttempts + takeovers Demo.deliveredTwice.state 0 := by
  obtain ⟨j, hj, hmax⟩ := Option.map_eq_some_iff.1 Demo.deliveredTwice_tests.1
  exact ⟨j, hmax, (deliveries_bounded Demo.env Demo.queueSound_world Demo.consumers
    (Config.run_afterTurns Demo.allowFenced_stmt (Option.isSome_of_any Demo.deliveredTwice_runs))).2
      0 j hj {1, 2} Demo.delivers_deliveredTwice⟩

end Stead
