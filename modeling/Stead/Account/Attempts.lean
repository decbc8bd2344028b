import Stead.Account.Deletion

/-!
# What a call in the process does when

`TaskStatement` says of each statement of a deletion and of a poll what the thread has been
answered before it.

## A deletion

It raises the block of the user it has found, records the jobs of the rows it was given, and drops
the block once. So from its trace one reads whether it has begun (`Begun`), whether its lookup is
over (`Looked`), and whether it has returned or thrown (`Completed`, `Over`); it is `Running` in
between.

## A poll

It sends the job it has read, right after it has found it unblocked and present. What a poll holds
is a job `InHand`: the row it was answered, with the payload it could read, and nothing written
since (`Unmarked`). The two checks before the delivery make it `Cleared`, and the send comes next.

`ProcessCall.keeps` is that every call meets `TaskStatement`. The parts that write a completion are
those of `Model.NotificationQueue`, embedded in the process; nothing of what is said here depends on
them but that they write after the send (`embed_keeps_of_marks`).
-/

namespace Stead

open Concurrency

/-- The statements of a thread with their answers. -/
abbrev ProcessTrace := List (Exchange ProcessStatements)

/-! ### Attempts -/

/-- The thread has begun its block for the account. -/
def Begun (userId : ℕ) (trace : ProcessTrace) : Prop :=
  ∃ phone, ⟨.memory (.beginBlock userId phone), ()⟩ ∈ trace

/-- The deletion of the account has returned. -/
def Completed (userId : ℕ) (trace : ProcessTrace) : Prop :=
  ⟨.memory (.finalize userId), ()⟩ ∈ trace

/-- The deletion of the account has returned or thrown. -/
def Over (userId : ℕ) (trace : ProcessTrace) : Prop :=
  Completed userId trace ∨ ⟨.memory (.restore userId), ()⟩ ∈ trace

/-- The attempt has begun its block and has not ended. -/
def Running (userId : ℕ) (trace : ProcessTrace) : Prop := Begun userId trace ∧ ¬ Over userId trace

/-- The lookup of the attempt is over. -/
def Looked (trace : ProcessTrace) : Prop :=
  (∃ userId phone, ⟨.memory (.dropPhone userId phone), ()⟩ ∈ trace) ∨
    ∃ userId phone ids, ⟨.memory (.recordIds userId phone ids), ()⟩ ∈ trace

/-- The thread has found the user with the phone. -/
def Found (userId : ℕ) (phone : String) (trace : ProcessTrace) : Prop :=
  ⟨.account (.findUser userId), .ok (some phone)⟩ ∈ trace

/-! ### Polls -/

/-- The thread is a poll under way. -/
def Polling (trace : ProcessTrace) : Prop :=
  ⟨.memory .startTick, true⟩ ∈ trace ∧ ⟨.memory .endTick, ()⟩ ∉ trace

/-- The thread has not completed a job. -/
def Unmarked (trace : ProcessTrace) : Prop :=
  ∀ e ∈ trace, ∀ id data, e.1 ≠ .statement (.notificationJob (.update id data))

/-- The poll has the job in hand. -/
structure InHand (env : Env) (job : ClaimedJob) (trace : ProcessTrace) : Prop where
  polling : Polling trace
  unmarked : Unmarked trace
  read : ⟨.statement (.notificationJob (.findById job.id)), .ok job.row⟩ ∈ trace
  payload : decryptPayload env job.row.payloadJson = .ok job.payload

/-- The poll has just found the job unblocked and present. -/
def Cleared (job : ClaimedJob) (trace : ProcessTrace) : Prop :=
  [⟨.memory (.isBlocked job), false⟩,
    ⟨.statement (.notificationJob (.exists job.id)), .ok true⟩] <:+ trace

/-- A statement of a call, after what the thread has been answered. -/
def TaskStatement (env : Env) (call : ProcessCall) (trace : ProcessTrace) : ProcessOp → Prop
  | .memory (.beginBlock userId phone) =>
    call = .deleteAccount userId ∧ Found userId phone trace ∧ ¬ Looked trace ∧
      ¬ Begun userId trace ∧ ¬ Over userId trace
  | .memory (.dropPhone userId phone) =>
    call = .deleteAccount userId ∧ Found userId phone trace ∧ Running userId trace
  | .memory (.recordIds userId phone ids) =>
    call = .deleteAccount userId ∧ Found userId phone trace ∧ Running userId trace ∧
      ¬ Looked trace ∧ ∃ rows, ⟨.account (.findCandidates userId), .ok rows⟩ ∈ trace ∧
        ids = accountJobIds env userId phone rows
  | .memory (.restore userId) =>
    call = .deleteAccount userId ∧ Running userId trace ∧ Looked trace
  | .memory (.finalize userId) =>
    call = .deleteAccount userId ∧ Running userId trace ∧
      ∃ phone ids, ⟨.account (.deleteRows userId phone ids), .ok ()⟩ ∈ trace
  | .memory (.timeout userId) => call = .deleteAccount userId ∧ Completed userId trace
  | .account (.deleteRows userId phone ids) =>
    call = .deleteAccount userId ∧ Found userId phone trace ∧
      ∃ rows, ⟨.account (.findCandidates userId), .ok rows⟩ ∈ trace ∧
        ids = accountJobIds env userId phone rows
  | .memory .startTick => trace = []
  | .memory .endTick => Polling trace
  | .account (.send job) => InHand env job trace ∧ Cleared job trace ∧ job.payload.redacted = none
  | .statement (.notificationJob (.exists id)) =>
    ∃ job, job.id = id ∧ InHand env job trace ∧ [⟨.memory (.isBlocked job), false⟩] <:+ trace
  | .statement (.notificationJob (.findById _)) => Polling trace ∧ Unmarked trace
  | .statement (.notificationJob (.update _ data)) => Polling trace ∧ data.Completes
  | .statement (.notificationJob (.redactTerminal _)) => False
  | .statement op => op.Delivers
  | _ => True

variable {env : Env} {call : ProcessCall} {trace : ProcessTrace}

/-! ### Deletions -/

section Deletion

variable {userId : ℕ} {phone : String}

/-- **The lookup of a deletion**: its trace is the same whenever it succeeds. -/
theorem beginAccountDeletion_keeps :
    (beginAccountDeletion env userId phone).Keeps (TaskStatement env (.deleteAccount userId))
      (fun trace ids ↦ ∃ rows, trace = [⟨.account (.findUser userId), .ok (some phone)⟩,
        ⟨.memory (.beginBlock userId phone), ()⟩,
        ⟨.account (.findCandidates userId), .ok rows⟩,
        ⟨.memory (.recordIds userId phone ids), ()⟩] ∧ ids = accountJobIds env userId phone rows)
      (fun trace _ ↦ ∃ e, trace = [⟨.account (.findUser userId), .ok (some phone)⟩,
        ⟨.memory (.beginBlock userId phone), ()⟩,
        ⟨.account (.findCandidates userId), .error e⟩,
        ⟨.memory (.dropPhone userId phone), ()⟩])
      [⟨.account (.findUser userId), .ok (some phone)⟩] := by
  refine ⟨⟨rfl, by simp [Found], by simp [Looked], by simp [Begun], by simp [Over, Completed]⟩,
    fun _ ↦ ⟨trivial, fun r ↦ ?_⟩⟩
  cases r with
  | error e =>
    exact ⟨⟨rfl, by simp [Found], by simp [Running, Begun, Over, Completed]⟩, fun _ ↦ ⟨e, rfl⟩⟩
  | ok rows =>
    exact ⟨⟨rfl, by simp [Found], by simp [Running, Begun, Over, Completed], by simp [Looked],
      rows, by simp, rfl⟩, fun _ ↦ ⟨rows, rfl, rfl⟩⟩

/-- **A deletion** raises its block once and takes it down once. -/
theorem deleteAccount_keeps :
    (ProcessCall.program env (.deleteAccount userId)).Keeps
      (TaskStatement env (.deleteAccount userId)) (fun _ _ ↦ True) (fun _ _ ↦ True) [] := by
  refine .bind (R := fun trace _ ↦ Completed userId trace) ?_ fun trace _ h ↦ ⟨⟨rfl, h⟩, fun _ ↦ trivial⟩
  refine ⟨trivial, fun r ↦ ?_⟩
  cases r with
  | error e => trivial
  | ok found =>
    cases found with
    | none => trivial
    | some phone =>
      refine .tryCatch (F := fun trace _ ↦ Running userId trace ∧ Looked trace) ?_
        fun trace e h ↦ ⟨⟨rfl, h⟩, fun _ ↦ trivial⟩
      refine .bind (beginAccountDeletion_keeps.mono (fun _ _ h ↦ h) ?_) ?_
      · rintro _ _ ⟨e, rfl⟩
        exact ⟨by simp [Running, Begun, Over, Completed], by simp [Looked]⟩
      · rintro _ ids ⟨rows, rfl, hids⟩
        refine ⟨⟨rfl, by simp [Found], rows, by simp, hids⟩, fun r ↦ ?_⟩
        cases r with
        | error e =>
          exact ⟨by simp [Running, Begun, Over, Completed],
            .inr ⟨userId, phone, ids, by simp⟩⟩
        | ok _ =>
          exact ⟨⟨rfl, by simp [Running, Begun, Over, Completed], phone, ids, by simp⟩,
            fun _ ↦ by simp [Prog.Keeps, Completed]⟩

end Deletion

/-! ### Polls of the consumer -/

/-- Statements that record an outcome. -/
def Op.Marks : Op → Prop
  | .host .now => True
  | .notificationJob (.update _ data) => data.Completes
  | _ => False

/-- A completion marks the job. -/
theorem updateJob_marks {id : ℕ} {data : NotificationJobUpdate} (h : data.Completes) :
    (updateJob id data).All Op.Marks :=
  .tryCatch (.run h) fun _ ↦ .ite (fun _ ↦ trivial) fun _ ↦ trivial

theorem markSucceeded_marks (job : ClaimedJob) (provider : String)
    (providerMessageId : Option String) :
    (markSucceeded job provider providerMessageId).All Op.Marks :=
  .run_bind trivial fun _ ↦ updateJob_marks (succeededUpdate_completes _ _ _)

theorem markFailed_marks (job : ClaimedJob) (error : Failure) :
    (markFailed env job error).All Op.Marks := by
  refine .run_bind trivial fun now ↦ .bind ?_ fun nextRunAt ↦
    updateJob_marks (failedUpdate_completes _ _ _ _ _)
  exact .ite (fun _ ↦ trivial) fun _ ↦ .run_bind trivial fun _ ↦ trivial

/-- A poll goes on as long as it has not ended. -/
theorem Polling.append {rest : ProcessTrace} (h : Polling trace)
    (hrest : ⟨.memory .endTick, ()⟩ ∉ rest) : Polling (trace ++ rest) :=
  ⟨List.mem_append_left _ h.1, fun hmem ↦ (List.mem_append.1 hmem).elim h.2 hrest⟩

/-- A thread that records an outcome is still polling. -/
theorem embed_keeps_of_marks {α : Type} {p : Call α} (hp : p.All Op.Marks) (h : Polling trace) :
    (embed p).Keeps (TaskStatement env call) (fun trace' _ ↦ Polling trace')
      (fun trace' _ ↦ Polling trace') trace := by
  have hall : (embed p).All fun op ↦ ∃ s, op = ProcessOp.statement s ∧ s.Marks :=
    hp.translate fun op hop ↦ ⟨op, rfl, hop⟩
  have hpolling : ∀ rest : ProcessTrace, (∀ e ∈ rest, ∃ s, e.1 = ProcessOp.statement s ∧ s.Marks) →
      Polling (trace ++ rest) := fun rest hrest ↦ h.append fun hmem ↦ by
    obtain ⟨s, hs, -⟩ := hrest _ hmem
    cases hs
  refine (hall.keeps_append fun rest op hrest hop ↦ ?_).mono ?_ ?_
  · obtain ⟨s, rfl, hs⟩ := hop
    unfold Op.Marks at hs
    split at hs
    · trivial
    · exact ⟨hpolling rest hrest, hs⟩
    · cases hs
  · rintro _ _ ⟨rest, rfl, hrest⟩
    exact hpolling rest hrest
  · rintro _ _ ⟨rest, rfl, hrest⟩
    exact hpolling rest hrest

/-- One part of a poll after another, in the process. -/
theorem embed_bind {α β : Type} (p : Call α) (f : α → Call β) :
    embed (p >>= f) = embed p >>= fun a ↦ embed (f a) := by
  induction p with
  | pure a => rfl
  | throw e => rfl
  | stmt op k ih => exact congrArg (Prog.stmt _) (funext fun r ↦ ih r)

/-- One statement of a poll, in the process. -/
theorem keeps_embed_run_bind {α : Type} {op : Op} {f : op.Ret → Call α}
    {P : ProcessTrace → ProcessOp → Prop} {Q : ProcessTrace → α → Prop}
    {E : ProcessTrace → Failure → Prop} (hop : P trace (.statement op))
    (hk : ∀ a, (embed (f a)).Keeps P Q E (trace ++ [⟨.statement op, .ok a⟩]))
    (hE : ∀ e, E (trace ++ [⟨.statement op, .error e⟩]) (.statement e)) :
    (embed (run op >>= f)).Keeps P Q E trace := by
  refine ⟨hop, fun r ↦ ?_⟩
  cases r with
  | ok a => exact hk a
  | error e => exact hE e

/-- A poll that has not completed a job yet. -/
def Fresh (trace : ProcessTrace) : Prop := Polling trace ∧ Unmarked trace

/-- Nothing has been marked or ended yet. -/
theorem Fresh.concat {e : Exchange ProcessStatements} (h : Fresh trace)
    (hend : e.1 ≠ .memory .endTick)
    (hmark : ∀ id data, e.1 ≠ .statement (.notificationJob (.update id data))) :
    Fresh (trace ++ [e]) := by
  refine ⟨h.1.append fun hmem ↦ ?_, fun e' he' ↦ ?_⟩
  · rw [List.mem_singleton] at hmem
    exact hend (congrArg Sigma.fst hmem.symm)
  · rcases List.mem_append.1 he' with he' | he'
    · exact h.2 e' he'
    · rw [List.mem_singleton.1 he']
      exact hmark

/-- The job stays in hand until it is marked. -/
theorem InHand.concat {e : Exchange ProcessStatements} {job : ClaimedJob} (h : InHand env job trace)
    (hend : e.1 ≠ .memory .endTick)
    (hmark : ∀ id data, e.1 ≠ .statement (.notificationJob (.update id data))) :
    InHand env job (trace ++ [e]) :=
  have hfresh : Fresh (trace ++ [e]) := Fresh.concat ⟨h.polling, h.unmarked⟩ hend hmark
  ⟨hfresh.1, hfresh.2, List.mem_append_left _ h.read, h.payload⟩

/-- **A claim** hands the poll the row it has read. -/
theorem claimReadyJob_inHand (h : Fresh trace) :
    (embed (claimReadyJob env)).Keeps (TaskStatement env call)
      (fun trace' job ↦ Polling trace' ∧ ∀ j, job = some j → InHand env j trace')
      (fun trace' _ ↦ Polling trace') trace := by
  have hnext : ∀ {trace : ProcessTrace} {op : Op} (r : Except StatementError op.Ret), Fresh trace →
      (∀ id data, op ≠ .notificationJob (.update id data)) →
        Fresh (trace ++ [⟨.statement op, r⟩]) :=
    fun r h hop ↦ h.concat (fun h ↦ by cases h) fun id data h ↦ hop id data (by cases h; rfl)
  have hnone : ∀ {trace : ProcessTrace}, Polling trace →
      Polling trace ∧ ∀ j : ClaimedJob, none = some j → InHand env j trace :=
    fun h ↦ ⟨h, fun _ h ↦ by cases h⟩
  refine keeps_embed_run_bind rfl (fun now ↦ ?_)
    fun e ↦ (hnext _ h fun _ _ h ↦ by cases h).1
  have h₁ := hnext (.ok now) h fun _ _ h ↦ by cases h
  refine keeps_embed_run_bind rfl (fun candidate ↦ ?_)
    fun e ↦ (hnext _ h₁ fun _ _ h ↦ by cases h).1
  have h₂ := hnext (.ok candidate) h₁ fun _ _ h ↦ by cases h
  cases candidate with
  | none => exact hnone h₂.1
  | some candidate =>
    refine keeps_embed_run_bind trivial (fun claimed ↦ ?_)
      fun e ↦ (hnext _ h₂ fun _ _ h ↦ by cases h).1
    have h₃ := hnext (.ok claimed) h₂ fun _ _ h ↦ by cases h
    cases claimed with
    | false => exact hnone h₃.1
    | true =>
      refine keeps_embed_run_bind h₃ (fun locked ↦ ?_)
        fun e ↦ (hnext _ h₃ fun _ _ h ↦ by cases h).1
      have h₄ := hnext (.ok locked) h₃ fun _ _ h ↦ by cases h
      have hread : ∀ payload, decryptPayload env locked.payloadJson = .ok payload →
          InHand env ⟨candidate.id, locked, payload⟩ _ := fun payload hp ↦
        ⟨h₄.1, h₄.2, List.mem_append_right _ (List.mem_singleton_self _), hp⟩
      split
      · next payload hp =>
        refine ⟨h₄.1, fun j hj ↦ ?_⟩
        cases hj
        exact hread payload hp
      · rw [embed_bind]
        exact .bind ((embed_keeps_of_marks (markFailed_marks _ _) h₄.1).mono (fun _ _ h ↦ h)
          fun _ _ h ↦ h) fun _ _ h ↦ hnone h

/-- **The delivery** comes right after the checks. -/
theorem processJob_inHand {job : ClaimedJob} (h : InHand env job trace) (hc : Cleared job trace) :
    (Consumer.processJob job).Keeps (TaskStatement env call) (fun trace' _ ↦ Polling trace')
      (fun trace' _ ↦ Polling trace') trace := by
  have hsend : job.payload.redacted.isSome ≠ true →
      (query (.send job)).Keeps (TaskStatement env call) (fun trace' _ ↦ Polling trace')
        (fun trace' _ ↦ Polling trace') trace := by
    refine fun hr ↦ ⟨⟨h, hc, by simpa using hr⟩, fun r ↦ ?_⟩
    have hpolling : Polling (trace ++ [⟨.account (.send job), r⟩]) :=
      (h.concat (fun h ↦ by cases h) fun _ _ h ↦ by cases h).polling
    cases r with
    | ok result => exact hpolling
    | error e => exact hpolling
  unfold Consumer.processJob
  split <;> exact .ite (fun _ ↦ h.polling) hsend

/-- A claimed job is checked, delivered and marked. -/
theorem processClaimedJob_inHand {job : ClaimedJob} (h : InHand env job trace) :
    (Consumer.processClaimedJob env job).Keeps (TaskStatement env call)
      (fun trace' _ ↦ Polling trace') (fun trace' _ ↦ Polling trace') trace := by
  refine .tryCatch (F := fun trace' _ ↦ Polling trace') ?_ fun _ _ h ↦
    embed_keeps_of_marks (markFailed_marks _ _) h
  have hdeliver : (Consumer.canDeliver job).Keeps (TaskStatement env call)
      (fun trace' answer ↦ Polling trace' ∧
        (answer = true → InHand env job trace' ∧ Cleared job trace'))
      (fun trace' _ ↦ Polling trace') trace := by
    refine ⟨trivial, fun blocked ↦ ?_⟩
    have h₁ : InHand env job (trace ++ [⟨.memory (.isBlocked job), blocked⟩]) :=
      h.concat (fun h ↦ by cases h) fun _ _ h ↦ by cases h
    cases blocked with
    | true => exact ⟨h₁.polling, fun h ↦ by cases h⟩
    | false =>
      refine ⟨⟨job, rfl, h₁, List.suffix_append _ _⟩, fun r ↦ ?_⟩
      have h₂ : InHand env job (trace ++ [⟨.memory (.isBlocked job), false⟩] ++
          [⟨.statement (.notificationJob (.exists job.id)), r⟩]) :=
        h₁.concat (fun h ↦ by cases h) fun _ _ h ↦ by cases h
      cases r with
      | error e => exact h₂.polling
      | ok present =>
        refine ⟨h₂.polling, fun hp ↦ ⟨h₂, ?_⟩⟩
        subst hp
        rw [List.append_assoc]
        exact List.suffix_append _ _
  refine .bind hdeliver fun trace' answer hanswer ↦ .ite (fun htrue ↦ ?_) fun _ ↦ hanswer.1
  obtain ⟨hin, hcleared⟩ := hanswer.2 htrue
  exact .bind (processJob_inHand hin hcleared) fun _ _ hp ↦
    embed_keeps_of_marks (markSucceeded_marks _ _ _) hp

/-- **A poll** keeps to it from its beginning. -/
theorem tick_polls : (Consumer.tick env).Keeps (TaskStatement env call)
    (fun _ _ ↦ True) (fun _ _ ↦ True) [] := by
  refine ⟨rfl, fun started ↦ .ite (fun hstarted ↦ ?_) fun _ ↦ trivial⟩
  subst hstarted
  have hfresh : Fresh [⟨.memory .startTick, true⟩] :=
    ⟨⟨by simp, by simp⟩, fun e he id data h ↦ by
      rw [List.mem_singleton.1 he] at h
      cases h⟩
  refine .bind (R := fun trace _ ↦ Polling trace) ?_ fun trace _ h ↦ ⟨h, fun _ ↦ trivial⟩
  refine .tryCatch (F := fun trace _ ↦ Polling trace)
    (.bind (claimReadyJob_inHand hfresh) fun trace job hjob ↦ ?_) fun _ _ h ↦ h
  cases job with
  | none => exact hjob.1
  | some job => exact processClaimedJob_inHand (hjob.2 job rfl)

/-- **Every call does its statements in their order.** -/
theorem ProcessCall.keeps (call : ProcessCall) : (call.program env).Keeps (TaskStatement env call)
    (fun _ _ ↦ True) (fun _ _ ↦ True) [] := by
  cases call with
  | deleteAccount userId => exact deleteAccount_keeps
  | tick => exact tick_polls

end Stead
