import Stead.Account.Delivery

/-!
# Overlapping deletions of one account

The blocks of an account are plain sets and one list of jobs, which every attempt to delete the
account shares: `clearAccountDeletionBlock` takes them down for all of them. So the attempt that
fails first lets the jobs of the account through while another still runs
(`failed_attempt_unblocks`).

## The condition

`clearsAlone` picks the runs in which blocks are only taken down when no other attempt has begun
and not ended, and a lookup that fails finds no job of nobody for the phone: between the failure of
the lookup and the end of the attempt only the account itself is blocked. Attempts may overlap in
these runs, as long as the one that clears is the last of them to end.

## The invariant

`Upheld` says what the blocks are in such a run: the account of every running attempt is blocked,
and so are the jobs of nobody for its phone, either by the phone or one by one (`LegacyBlocked`).
When a single attempt runs, and none has returned, the blocks are its own (`OnlyBlock`), so that
they are all taken down when it ends. There is one lemma for each statement on the blocks
(`Upheld.beginBlock` to `Upheld.timeout`), and `Upheld.neutral` is for the statements that leave
them.

The results are `balanced_of_clearsAlone`, for every run of the condition, with two attempts that
overlap as an example.
-/

namespace Stead

open Concurrency

variable {ι : Type} [DecidableEq ι]

/-- What `canDeliver` answers when nothing happens in between. -/
def Process.canDeliver (p : Process ι) (job : ClaimedJob) : Bool :=
  !p.blocks.blocks job && (p.world.notificationJobs.stored job.id).isSome

/-- The job is as it is stored, or is gone. -/
def ClaimedJob.Current (env : Env) (job : ClaimedJob) (w : World ι) : Prop :=
  ∀ j, w.notificationJobs.stored job.id = some j →
    j.userId = job.row.userId ∧ decryptPayload env j.payloadJson = .ok job.payload

/-- While an attempt runs nothing of the account can be delivered, and when all have failed nothing
is blocked. -/
def BlocksBalanced (env : Env) (w₀ : World ι) (userId : ℕ) (s : ProcessHistory ι) : Prop :=
  (∀ i, Running userId (s.trace i) → ∀ job : ClaimedJob, job.Current env s.shared.world →
    job.Of w₀ userId → s.shared.canDeliver job = false) ∧
  ((∀ i, ¬ Running userId (s.trace i)) → (∀ i, ¬ Completed userId (s.trace i)) →
    s.shared.blocks = .empty)

/-- No job of nobody is for the phone. -/
def NoLegacyJobs (env : Env) (phone : String) (w : World ι) : Prop :=
  ∀ id j payload, w.notificationJobs.stored id = some j → j.userId = none →
    decryptPayload env j.payloadJson = .ok payload → payload.redacted = none →
      payload.phone ≠ some phone

/-- Blocks of the account are only taken down when no other attempt runs, and a lookup that fails
finds no job of nobody for the phone. -/
def clearsAlone (env : Env) (userId : ℕ) : ProcessWeather ι where
  stmt i _ op s :=
    (op = .memory (.restore userId) ∨ op = .memory (.timeout userId) →
      ∀ k, k ≠ i → ¬ Running userId (s.trace k)) ∧
    ∀ phone, op = .memory (.dropPhone userId phone) → NoLegacyJobs env phone s.shared.world
  crash _ _ := True

/-- The jobs of nobody for the phone are blocked. -/
def LegacyBlocked (env : Env) (phone : String) (p : Process ι) : Prop :=
  ∀ id j payload, p.world.notificationJobs.stored id = some j → j.userId = none →
    decryptPayload env j.payloadJson = .ok payload → payload.redacted = none →
      payload.phone = some phone → id ∈ p.blocks.deletingNotificationIds

/-- The blocks are those of the one attempt that runs. -/
structure OnlyBlock (w₀ : World ι) (userId : ℕ) (trace : ProcessTrace) (b : DeletionBlocks) :
    Prop where
  accounts : b.deletingAccountIds = {userId}
  ids : b.deletingNotificationIds =
    ((b.deletingNotificationIdsByAccount userId).getD []).toFinset
  others : ∀ v, v ≠ userId → b.deletingNotificationIdsByAccount v = none
  phones : ∀ phone ∈ b.discoveringAccountPhones, w₀.phoneOf userId = some phone
  looked : Looked trace → b.discoveringAccountPhones = ∅
  looking : ¬ Looked trace → b.deletingNotificationIdsByAccount userId = none

/-- What holds of the blocks throughout the runs in which they are taken down alone. -/
structure Upheld (env : Env) (w₀ : World ι) (userId : ℕ) (s : ProcessHistory ι) : Prop where
  informed : Informed w₀ s
  account : ∀ i, Running userId (s.trace i) → userId ∈ s.shared.blocks.deletingAccountIds
  legacy : ∀ i phone, Running userId (s.trace i) → w₀.phoneOf userId = some phone →
    phone ∈ s.shared.blocks.discoveringAccountPhones ∨ LegacyBlocked env phone s.shared
  clean : (∀ i, ¬ Completed userId (s.trace i)) → (∀ i, ¬ Running userId (s.trace i)) →
    s.shared.blocks = .empty
  only : (∀ i, ¬ Completed userId (s.trace i)) → ∀ i, Running userId (s.trace i) →
    (∀ k, Running userId (s.trace k) → k = i) → OnlyBlock w₀ userId (s.trace i) s.shared.blocks

/-- What is upheld is balanced: every job of the account is blocked in one of the ways. -/
theorem Upheld.balanced {env : Env} {w₀ : World ι} {userId : ℕ} {s : ProcessHistory ι}
    (hs : Upheld env w₀ userId s) : BlocksBalanced env w₀ userId s := by
  refine ⟨fun i hrun job hcurrent hof ↦ ?_, fun hrun hdone ↦ hs.clean hdone hrun⟩
  cases hj : s.shared.world.notificationJobs.stored job.id with
  | none => simp [Process.canDeliver, hj]
  | some j =>
    obtain ⟨huser, hpayload⟩ := hcurrent j hj
    have hblocked : s.shared.blocks.blocks job = true := by
      rcases hof with hown | ⟨hnone, hred, phone, hphone, hpay⟩
      · simp [DeletionBlocks.blocks, hown, hs.account i hrun]
      · rcases hs.legacy i phone hrun hphone with hdisc | hleg
        · simp [DeletionBlocks.blocks, hpay, hdisc]
        · simp [DeletionBlocks.blocks,
            hleg job.id j job.payload hj (huser.trans hnone) hpayload hred hpay]
    simp [Process.canDeliver, hblocked]

section Steps

variable {env : Env} {call : ProcessCall} {w₀ : World ι} {userId : ℕ} {i : ι} {x : Choice}
  {op : ProcessOp} {s : ProcessHistory ι} {t : Process ι} {r : op.Resp} {trace : ProcessTrace}
  {e : Exchange ProcessStatements}

omit [DecidableEq ι] in
/-- A trace has begun, or begins with the last statement. -/
theorem begun_concat : Begun userId (trace ++ [e]) ↔
    Begun userId trace ∨ ∃ phone, e = ⟨.memory (.beginBlock userId phone), ()⟩ := by
  simp only [Begun, List.mem_append, List.mem_singleton, exists_or]
  exact or_congr_right (exists_congr fun _ ↦ eq_comm)

omit [DecidableEq ι] in
theorem completed_concat : Completed userId (trace ++ [e]) ↔
    Completed userId trace ∨ e = ⟨.memory (.finalize userId), ()⟩ := by
  simp only [Completed, List.mem_append, List.mem_singleton]
  exact or_congr_right eq_comm

omit [DecidableEq ι] in
theorem over_concat : Over userId (trace ++ [e]) ↔ Over userId trace ∨
    e = ⟨.memory (.finalize userId), ()⟩ ∨ e = ⟨.memory (.restore userId), ()⟩ := by
  simp only [Over, completed_concat, List.mem_append, List.mem_singleton]
  constructor
  · rintro ((h | h) | h | h) <;> simp [h]
  · rintro ((h | h) | h | h) <;> simp [h]

omit [DecidableEq ι] in
/-- Whether the attempt still runs is read off the last statement. -/
theorem running_concat : Running userId (trace ++ [e]) ↔
    (Begun userId trace ∨ ∃ phone, e = ⟨.memory (.beginBlock userId phone), ()⟩) ∧
      ¬ Over userId trace ∧ e ≠ ⟨.memory (.finalize userId), ()⟩ ∧
        e ≠ ⟨.memory (.restore userId), ()⟩ := by
  simp only [Running, begun_concat, over_concat, not_or, ne_eq]

omit [DecidableEq ι] in
theorem looked_concat : Looked (trace ++ [e]) ↔ Looked trace ∨
    (∃ userId phone, e = ⟨.memory (.dropPhone userId phone), ()⟩) ∨
      ∃ userId phone ids, e = ⟨.memory (.recordIds userId phone ids), ()⟩ := by
  simp only [Looked, List.mem_append, List.mem_singleton, exists_or]
  constructor
  · rintro ((h | ⟨u, q, rfl⟩) | h | ⟨u, q, ids, rfl⟩)
    · exact .inl (.inl h)
    · exact .inr (.inl ⟨u, q, rfl⟩)
    · exact .inl (.inr h)
    · exact .inr (.inr ⟨u, q, ids, rfl⟩)
  · rintro ((h | h) | ⟨u, q, rfl⟩ | ⟨u, q, ids, rfl⟩)
    · exact .inl (.inl h)
    · exact .inr (.inl h)
    · exact .inl (.inr ⟨u, q, rfl⟩)
    · exact .inr (.inr ⟨u, q, ids, rfl⟩)

/-- The trace of each thread across a step of thread `i`. -/
theorem trace_after (k : ι) : (s.after i op r t).trace k =
    if k = i then s.trace i ++ [⟨op, r⟩] else s.trace k := by
  by_cases hk : k = i
  · subst hk
    rw [if_pos rfl, State.after_trace_self]
  · rw [if_neg hk, State.after_trace_of_ne _ (Ne.symm hk)]

/-- Blocked jobs stay blocked, and no new one is for nobody. -/
theorem LegacyBlocked.after {phone : String} {p : Process ι} (hop : TaskStatement env call trace op)
    (h : op.exec env.crypto i x p = some (r, t))
    (hids : p.blocks.deletingNotificationIds ⊆ t.blocks.deletingNotificationIds)
    (hp : LegacyBlocked env phone p) : LegacyBlocked env phone t := by
  intro id j' payload hj' hnone hpayload hred hphone
  obtain ⟨j, hj, huser, hjson | ⟨hjson, -⟩⟩ := exec_job hop h hj'
  · exact hids (hp id j payload hj (huser ▸ hnone) (hjson ▸ hpayload) hred hphone)
  · rw [hjson, decryptPayload_redacted] at hpayload
    cases hpayload
    cases hred

/-- A statement that has nothing to do with the blocks. -/
def Neutral (op : ProcessOp) : Prop :=
  ∀ m, op = .memory m → m = .startTick ∨ m = .endTick ∨ ∃ job, m = .isBlocked job

/-- A neutral statement leaves the blocks. -/
theorem Neutral.blocks (hn : Neutral op) (h : op.exec env.crypto i x s.shared = some (r, t)) :
    t.blocks = s.shared.blocks := by
  by_cases hmem : ∃ m, op = .memory m
  · obtain ⟨m, rfl⟩ := hmem
    cases h
    rcases hn m rfl with rfl | rfl | ⟨job, rfl⟩ <;> rfl
  · push Not at hmem
    exact (exec_memory_same h hmem).1

omit [DecidableEq ι] in
/-- A neutral statement neither begins nor ends an attempt. -/
theorem Neutral.running (hn : Neutral op) :
    Running userId (trace ++ [⟨op, r⟩]) ↔ Running userId trace := by
  have hne : ∀ m, m ≠ .startTick → m ≠ .endTick → (∀ job, m ≠ .isBlocked job) → ∀ a,
      (⟨op, r⟩ : Exchange ProcessStatements) ≠ ⟨.memory m, a⟩ := by
    intro m h₁ h₂ h₃ a heq
    rcases hn m (congrArg Sigma.fst heq) with h | h | ⟨job, h⟩
    · exact h₁ h
    · exact h₂ h
    · exact h₃ job h
  rw [running_concat, Running]
  constructor
  · rintro ⟨hb | ⟨phone, hb⟩, hover, -⟩
    · exact ⟨hb, hover⟩
    · exact absurd hb (hne (.beginBlock userId phone) (by simp) (by simp) (by simp) ())
  · rintro ⟨hb, hover⟩
    exact ⟨.inl hb, hover, hne (.finalize userId) (by simp) (by simp) (by simp) (),
      hne (.restore userId) (by simp) (by simp) (by simp) ()⟩

/-- A thread that runs after a step ran before, or has just begun its block. -/
theorem running_after {k : ι} (h : Running userId ((s.after i op r t).trace k)) :
    Running userId (s.trace k) ∨ k = i ∧ ∃ phone, op = .memory (.beginBlock userId phone) := by
  rw [trace_after] at h
  split at h
  · next hk =>
    subst hk
    rw [running_concat] at h
    rcases h.1 with hb | ⟨phone, hb⟩
    · exact .inl ⟨hb, h.2.1⟩
    · exact .inr ⟨rfl, phone, congrArg Sigma.fst hb⟩
  · exact .inl h

/-- A thread that ran before a step still runs, unless its attempt has ended. -/
theorem running_of_before {k : ι} (h : Running userId (s.trace k))
    (hend : k = i → op ≠ .memory (.finalize userId) ∧ op ≠ .memory (.restore userId)) :
    Running userId ((s.after i op r t).trace k) := by
  rw [trace_after]
  split
  · next hk =>
    subst hk
    rw [running_concat]
    exact ⟨.inl h.1, h.2, fun he ↦ (hend rfl).1 (congrArg Sigma.fst he),
      fun he ↦ (hend rfl).2 (congrArg Sigma.fst he)⟩
  · exact h

/-- An attempt that has returned has returned. -/
theorem completed_of_before {k : ι} (h : Completed userId (s.trace k)) :
    Completed userId ((s.after i op r t).trace k) := by
  rw [trace_after]
  split
  · next hk => exact List.mem_append_left _ (hk ▸ h)
  · exact h

/-- **Statements that leave the blocks.** -/
theorem Upheld.neutral (hs : Upheld env w₀ userId s) (hop : TaskStatement env call (s.trace i) op)
    (hn : Neutral op) (h : op.exec env.crypto i x s.shared = some (r, t)) :
    Upheld env w₀ userId (s.after i op r t) := by
  have hblocks := hn.blocks h
  have hbegin : ∀ phone, op ≠ .memory (.beginBlock userId phone) := fun phone he ↦ by
    rcases hn _ he with h | h | ⟨_, h⟩ <;> cases h
  have hback : ∀ k, Running userId ((s.after i op r t).trace k) → Running userId (s.trace k) :=
    fun k hk ↦ (running_after hk).resolve_right fun ⟨_, phone, he⟩ ↦ hbegin phone he
  have hforth : ∀ k, Running userId (s.trace k) → Running userId ((s.after i op r t).trace k) := by
    refine fun k hk ↦ running_of_before hk fun _ ↦ ⟨fun he ↦ ?_, fun he ↦ ?_⟩ <;>
      rcases hn _ he with h | h | ⟨_, h⟩ <;> cases h
  refine ⟨hs.informed.after hop h, fun k hk ↦ ?_, fun k phone hk hphone ↦ ?_, fun hdone hrun ↦ ?_,
    fun hdone k hk honly ↦ ?_⟩
  · rw [State.after_shared, hblocks]
    exact hs.account k (hback k hk)
  · rw [State.after_shared, hblocks]
    exact (hs.legacy k phone (hback k hk) hphone).imp id fun hl ↦
      hl.after hop h (by rw [hblocks])
  · rw [State.after_shared, hblocks]
    exact hs.clean (fun k hk ↦ hdone k (completed_of_before hk))
      fun k hk ↦ hrun k (hforth k hk)
  · rw [State.after_shared, hblocks]
    have hold := hs.only (fun l hl ↦ hdone l (completed_of_before hl)) k (hback k hk)
      fun l hl ↦ honly l (hforth l hl)
    have hlooked : Looked ((s.after i op r t).trace k) ↔ Looked (s.trace k) := by
      rw [trace_after]
      split
      · next hki =>
        subst hki
        rw [looked_concat]
        refine or_iff_left ?_
        rintro (⟨u, q, he⟩ | ⟨u, q, ids, he⟩) <;>
          rcases hn _ (congrArg Sigma.fst he) with h | h | ⟨_, h⟩ <;> cases h
      · rfl
    exact ⟨hold.accounts, hold.ids, hold.others, hold.phones, fun hl ↦ hold.looked (hlooked.1 hl),
      fun hl ↦ hold.looking fun hl' ↦ hl (hlooked.2 hl')⟩

/-- **An attempt begins**: the account and the phone are blocked. -/
theorem Upheld.beginBlock {phone : String} (hs : Upheld env w₀ userId s)
    (hop : TaskStatement env call (s.trace i) (.memory (.beginBlock userId phone)))
    (h : (ProcessOp.memory (.beginBlock userId phone)).exec env.crypto i x s.shared =
      some ((), t)) :
    Upheld env w₀ userId (s.after i (.memory (.beginBlock userId phone)) () t) := by
  have hinformed := hs.informed.after hop h
  cases h
  obtain ⟨-, hfound, hlooked, hbegun, hover⟩ := hop
  have hphone : w₀.phoneOf userId = some phone := hs.informed.found i userId phone hfound
  have hruns : ∀ t, Running userId
      ((s.after i (.memory (.beginBlock userId phone)) () t).trace i) := by
    intro t
    rw [State.after_trace_self, running_concat]
    exact ⟨.inr ⟨phone, rfl⟩, hover, by simp, by simp⟩
  refine ⟨hinformed, fun k _ ↦ Finset.mem_insert_self _ _, fun k phone' _ hphone' ↦ .inl ?_,
    fun _ hrun ↦ absurd (hruns _) (hrun i), fun hdone k _ honly ↦ ?_⟩
  · obtain rfl : phone' = phone := Option.some.inj (hphone'.symm.trans hphone)
    exact Finset.mem_insert_self _ _
  · obtain rfl : i = k := honly i (hruns _)
    -- Nothing ran before, so there were no blocks.
    have hnone : ∀ l, ¬ Running userId (s.trace l) := by
      intro l hl
      have hli : l = i := honly l (running_of_before hl fun _ ↦ ⟨by simp, by simp⟩)
      exact hbegun (hli ▸ hl.1)
    have hempty := hs.clean (fun l hl ↦ hdone l (completed_of_before hl)) hnone
    rw [State.after_trace_self]
    have hlook : ¬ Looked (s.trace i ++ [⟨.memory (.beginBlock userId phone), ()⟩]) := by
      rw [looked_concat]
      rintro (hl | ⟨_, _, he⟩ | ⟨_, _, _, he⟩)
      · exact hlooked hl
      · cases congrArg Sigma.fst he
      · cases congrArg Sigma.fst he
    refine ⟨?_, ?_, fun v _ ↦ ?_, fun q hq ↦ ?_, fun hl ↦ absurd hl hlook, fun _ ↦ ?_⟩
    all_goals simp only [State.after_shared, MemoryStatement.act, DeletionBlocks.raise, hempty,
      DeletionBlocks.empty] at *
    · rfl
    · rfl
    · rw [Finset.mem_insert] at hq
      simpa [hphone, eq_comm] using hq

/-- A step of a running attempt that goes on. -/
theorem running_iff_of_goes_on {k : ι} (hbegin : ∀ phone, op ≠ .memory (.beginBlock userId phone))
    (hend : op ≠ .memory (.finalize userId) ∧ op ≠ .memory (.restore userId)) :
    Running userId ((s.after i op r t).trace k) ↔ Running userId (s.trace k) :=
  ⟨fun h ↦ (running_after h).resolve_right fun ⟨_, phone, he⟩ ↦ hbegin phone he,
    fun h ↦ running_of_before h fun _ ↦ hend⟩

/-- **A lookup fails**: the phone goes, and no job of nobody was for it. -/
theorem Upheld.dropPhone {phone : String} (hs : Upheld env w₀ userId s)
    (hop : TaskStatement env call (s.trace i) (.memory (.dropPhone userId phone)))
    (hlegacy : NoLegacyJobs env phone s.shared.world)
    (h : (ProcessOp.memory (.dropPhone userId phone)).exec env.crypto i x s.shared =
      some ((), t)) :
    Upheld env w₀ userId (s.after i (.memory (.dropPhone userId phone)) () t) := by
  have hinformed := hs.informed.after hop h
  cases h
  obtain ⟨-, hfound, hrunning⟩ := hop
  have hphone : w₀.phoneOf userId = some phone := hs.informed.found i userId phone hfound
  have hruns : ∀ t k, Running userId
      ((s.after i (.memory (.dropPhone userId phone)) () t).trace k) ↔
        Running userId (s.trace k) :=
    fun t k ↦ running_iff_of_goes_on (by simp) (by simp)
  refine ⟨hinformed, fun k hk ↦ hs.account k ((hruns _ k).1 hk), fun k phone' hk hphone' ↦ .inr ?_,
    fun _ hrun ↦ absurd ((hruns _ i).2 hrunning) (hrun i), fun hdone k hk honly ↦ ?_⟩
  · obtain rfl : phone' = phone := Option.some.inj (hphone'.symm.trans hphone)
    intro id j payload hj hnone hpayload hred hpay
    exact absurd hpay (hlegacy id j payload hj hnone hpayload hred)
  · obtain rfl : i = k := honly i ((hruns _ i).2 hrunning)
    have hold := hs.only (fun l hl ↦ hdone l (completed_of_before hl)) i hrunning
      fun l hl ↦ honly l ((hruns _ l).2 hl)
    rw [State.after_trace_self]
    have hlook : Looked (s.trace i ++ [⟨.memory (.dropPhone userId phone), ()⟩]) :=
      looked_concat.2 (.inr (.inl ⟨userId, phone, rfl⟩))
    have hphones : s.shared.blocks.discoveringAccountPhones.erase phone = ∅ := by
      refine Finset.eq_empty_of_forall_notMem fun q hq ↦ ?_
      rw [Finset.mem_erase] at hq
      exact hq.1 (Option.some.inj ((hold.phones q hq.2).symm.trans hphone))
    exact ⟨hold.accounts, hold.ids, hold.others, fun q hq ↦ hold.phones q (Finset.mem_of_mem_erase hq),
      fun _ ↦ hphones, fun hl ↦ absurd hlook hl⟩

/-- **A lookup succeeds**: the jobs of nobody for the phone are blocked one by one. -/
theorem Upheld.recordIds {phone : String} {ids : List ℕ} (hs : Upheld env w₀ userId s)
    (hop : TaskStatement env call (s.trace i) (.memory (.recordIds userId phone ids)))
    (h : (ProcessOp.memory (.recordIds userId phone ids)).exec env.crypto i x s.shared =
      some ((), t)) :
    Upheld env w₀ userId (s.after i (.memory (.recordIds userId phone ids)) () t) := by
  have hinformed := hs.informed.after hop h
  cases h
  obtain ⟨-, hfound, hrunning, hlooked, rows, hrows, rfl⟩ := hop
  have hphone : w₀.phoneOf userId = some phone := hs.informed.found i userId phone hfound
  have hruns : ∀ t k, Running userId ((s.after i (.memory (.recordIds userId phone
      (accountJobIds env userId phone rows))) () t).trace k) ↔ Running userId (s.trace k) :=
    fun t k ↦ running_iff_of_goes_on (by simp) (by simp)
  -- The jobs that the attempt has listed contain every job that can be sent for the account.
  refine ⟨hinformed, fun k hk ↦ hs.account k ((hruns _ k).1 hk), fun k phone' hk hphone' ↦ .inr ?_,
    fun _ hrun ↦ absurd ((hruns _ i).2 hrunning) (hrun i), fun hdone k hk honly ↦ ?_⟩
  · obtain rfl : phone' = phone := Option.some.inj (hphone'.symm.trans hphone)
    intro id j payload hj hnone hpayload hred hpay
    have hjson : j.payloadJson ≠ REDACTED_PAYLOAD_JSON := by
      intro hjson
      rw [hjson, decryptPayload_redacted] at hpayload
      cases hpayload
      cases hred
    obtain ⟨row, hrow, rfl, -, hrjson⟩ :=
      hs.informed.listed i userId rows hrows id j hj hnone hjson
    exact Finset.mem_union_right _ (List.mem_toFinset.2
      (mem_accountJobIds hrow (hrjson ▸ hpayload) hpay))
  -- Alone, the attempt replaces its block of the phone by those of the jobs.
  · obtain rfl : i = k := honly i ((hruns _ i).2 hrunning)
    have hold := hs.only (fun l hl ↦ hdone l (completed_of_before hl)) i hrunning
      fun l hl ↦ honly l ((hruns _ l).2 hl)
    rw [State.after_trace_self]
    have hlook : Looked (s.trace i ++ [⟨.memory (.recordIds userId phone
        (accountJobIds env userId phone rows)), ()⟩]) :=
      looked_concat.2 (.inr (.inr ⟨userId, phone, _, rfl⟩))
    have hphones : s.shared.blocks.discoveringAccountPhones.erase phone = ∅ := by
      refine Finset.eq_empty_of_forall_notMem fun q hq ↦ ?_
      rw [Finset.mem_erase] at hq
      exact hq.1 (Option.some.inj ((hold.phones q hq.2).symm.trans hphone))
    have hids : s.shared.blocks.deletingNotificationIds = ∅ := by
      rw [hold.ids, hold.looking hlooked]
      rfl
    refine ⟨hold.accounts, ?_, fun v hv ↦ ?_, fun q hq ↦ hold.phones q (Finset.mem_of_mem_erase hq),
      fun _ ↦ hphones, fun hl ↦ absurd hlook hl⟩
    · simp [MemoryStatement.act, DeletionBlocks.record, hids]
    · simp [MemoryStatement.act, DeletionBlocks.record, hv, hold.others v hv]

/-- **An attempt returns**: the blocks stay until the timer. -/
theorem Upheld.finalize (hs : Upheld env w₀ userId s)
    (hop : TaskStatement env call (s.trace i) (.memory (.finalize userId)))
    (h : (ProcessOp.memory (.finalize userId)).exec env.crypto i x s.shared = some ((), t)) :
    Upheld env w₀ userId (s.after i (.memory (.finalize userId)) () t) := by
  have hinformed := hs.informed.after hop h
  cases h
  have hback : ∀ t k, Running userId
      ((s.after i (.memory (.finalize userId)) () t).trace k) → Running userId (s.trace k) :=
    fun t k hk ↦ (running_after hk).resolve_right fun ⟨_, _, he⟩ ↦ by cases he
  have hdone : ∀ t, Completed userId
      ((s.after i (.memory (.finalize userId)) () t).trace i) := fun t ↦ by
    rw [State.after_trace_self]
    exact completed_concat.2 (.inr rfl)
  exact ⟨hinformed, fun k hk ↦ hs.account k (hback _ k hk),
    fun k phone hk hphone ↦ hs.legacy k phone (hback _ k hk) hphone,
    fun hnone ↦ absurd (hdone _) (hnone i), fun hnone ↦ absurd (hdone _) (hnone i)⟩

/-- **An attempt fails**, alone: its blocks were the only ones. -/
theorem Upheld.restore (hs : Upheld env w₀ userId s)
    (hop : TaskStatement env call (s.trace i) (.memory (.restore userId)))
    (halone : ∀ k, k ≠ i → ¬ Running userId (s.trace k))
    (h : (ProcessOp.memory (.restore userId)).exec env.crypto i x s.shared = some ((), t)) :
    Upheld env w₀ userId (s.after i (.memory (.restore userId)) () t) := by
  have hinformed := hs.informed.after hop h
  cases h
  obtain ⟨-, hrunning, hlooked⟩ := hop
  have hnone : ∀ t k, ¬ Running userId ((s.after i (.memory (.restore userId)) () t).trace k) := by
    intro t k hk
    rw [trace_after] at hk
    split at hk
    · exact (running_concat.1 hk).2.2.2 rfl
    · next hki => exact halone k hki hk
  refine ⟨hinformed, fun k hk ↦ absurd hk (hnone _ k), fun k _ hk ↦ absurd hk (hnone _ k),
    fun hdone _ ↦ ?_, fun _ k hk ↦ absurd hk (hnone _ k)⟩
  have hold := hs.only (fun l hl ↦ hdone l (completed_of_before hl)) i hrunning fun l hl ↦
    by_contra fun hli ↦ halone l hli hl
  have hothers : Function.update s.shared.blocks.deletingNotificationIdsByAccount userId none =
      fun _ ↦ none := by
    funext v
    by_cases hv : v = userId
    · rw [hv, Function.update_self]
    · rw [Function.update_of_ne hv, hold.others v hv]
  simp only [State.after_shared, MemoryStatement.act, DeletionBlocks.clear, hold.accounts, hold.ids,
    hold.looked hlooked, hothers, DeletionBlocks.empty, Finset.sdiff_self, Finset.erase_singleton]

/-- **The timer of an attempt that has returned**, when no other runs. -/
theorem Upheld.timeout (hs : Upheld env w₀ userId s)
    (hop : TaskStatement env call (s.trace i) (.memory (.timeout userId)))
    (halone : ∀ k, k ≠ i → ¬ Running userId (s.trace k))
    (h : (ProcessOp.memory (.timeout userId)).exec env.crypto i x s.shared = some ((), t)) :
    Upheld env w₀ userId (s.after i (.memory (.timeout userId)) () t) := by
  have hinformed := hs.informed.after hop h
  cases h
  have hcompleted : Completed userId (s.trace i) := hop.2
  have hnone : ∀ t k, ¬ Running userId ((s.after i (.memory (.timeout userId)) () t).trace k) := by
    intro t k hk
    have hold := (running_after hk).resolve_right fun ⟨_, _, he⟩ ↦ by cases he
    by_cases hki : k = i
    · exact (hki ▸ hold).2 (.inl hcompleted)
    · exact halone k hki hold
  exact ⟨hinformed, fun k hk ↦ absurd hk (hnone _ k), fun k _ hk ↦ absurd hk (hnone _ k),
    fun hdone ↦ absurd (completed_of_before hcompleted) (hdone i),
    fun _ k hk ↦ absurd hk (hnone _ k)⟩

/-- **One step.** -/
theorem Upheld.after (hcall : ∀ u, call = .deleteAccount u → u = userId)
    (hs : Upheld env w₀ userId s) (hop : TaskStatement env call (s.trace i) op)
    (hclear : (clearsAlone env userId).stmt i x op s)
    (h : op.exec env.crypto i x s.shared = some (r, t)) :
    Upheld env w₀ userId (s.after i op r t) := by
  cases op with
  | statement op => exact hs.neutral hop (fun m he ↦ by cases he) h
  | account q => exact hs.neutral hop (fun m he ↦ by cases he) h
  | memory m =>
    cases m with
    | beginBlock u phone =>
      obtain rfl := hcall u hop.1
      exact hs.beginBlock hop h
    | dropPhone u phone =>
      obtain rfl := hcall u hop.1
      exact hs.dropPhone hop (hclear.2 phone rfl) h
    | recordIds u phone ids =>
      obtain rfl := hcall u hop.1
      exact hs.recordIds hop h
    | finalize u =>
      obtain rfl := hcall u hop.1
      exact hs.finalize hop h
    | restore u =>
      obtain rfl := hcall u hop.1
      exact hs.restore hop (hclear.1 (.inl rfl)) h
    | timeout u =>
      obtain rfl := hcall u hop.1
      exact hs.timeout hop (hclear.1 (.inr rfl)) h
    | startTick => exact hs.neutral hop (fun m he ↦ by cases he; exact .inl rfl) h
    | endTick => exact hs.neutral hop (fun m he ↦ by cases he; exact .inr (.inl rfl)) h
    | isBlocked job => exact hs.neutral hop (fun m he ↦ by cases he; exact .inr (.inr ⟨job, rfl⟩)) h

end Steps

/-- **Deletion blocks are balanced where they are taken down alone.** On any database, with any
number of attempts for the account and of polls, failures and lost answers included. -/
theorem balanced_of_clearsAlone (env : Env) (w : World ι) (calls : ι → ProcessCall) (userId : ℕ)
    (hcalls : ∀ i u, calls i = .deleteAccount u → u = userId) {c : ProcessSystem ι}
    (hc : ProcessSystem.Reaches env (clearsAlone env userId)
      (ProcessSystem.start env w calls) c) : BlocksBalanced env w userId c.state := by
  have hstart : (ProcessSystem.start env w calls).Keeps (fun i ↦ TaskStatement env (calls i))
      (fun _ _ _ ↦ True) fun _ _ _ ↦ True := Config.keeps_start fun i ↦ (calls i).keeps
  have hnone : ∀ i, ¬ Running userId ((ProcessSystem.start env w calls).state.trace i) :=
    fun i h ↦ h.1.elim fun _ hmem ↦ List.not_mem_nil hmem
  have hupheld : Upheld env w userId (ProcessSystem.start env w calls).state :=
    ⟨informed_start env w calls, fun i h ↦ absurd h (hnone i), fun i _ h ↦ absurd h (hnone i),
      fun _ _ ↦ rfl, fun _ i h ↦ absurd h (hnone i)⟩
  exact (Run.invariant_keeps (I := Upheld env w userId) hc hstart hupheld
    (fun s i x op r t hs hop ha hx ↦ hs.after (hcalls i) hop ha hx)
    fun s i hs _ ↦ ⟨⟨hs.1.1, hs.1.2, hs.1.3⟩, hs.2, hs.3, hs.4, hs.5⟩).1.balanced

/-- The exchange begins a block for the account. -/
def beginsBlock (userId : ℕ) (e : Exchange ProcessStatements) : Bool :=
  match e.1 with
  | .memory (.beginBlock u _) => u = userId
  | _ => false

/-- The exchange ends an attempt for the account. -/
def endsAttempt (userId : ℕ) (e : Exchange ProcessStatements) : Bool :=
  match e.1 with
  | .memory (.finalize u) | .memory (.restore u) => u = userId
  | _ => false

/-- An attempt has begun when its block is in the trace. -/
theorem begun_iff {userId : ℕ} {trace : ProcessTrace} :
    Begun userId trace ↔ trace.any (beginsBlock userId) = true := by
  rw [List.any_eq_true]
  constructor
  · rintro ⟨phone, hmem⟩
    exact ⟨_, hmem, decide_eq_true rfl⟩
  · rintro ⟨⟨op, r⟩, hmem, hb⟩
    unfold beginsBlock at hb
    split at hb
    · next u phone hop =>
      cases hop
      obtain rfl := of_decide_eq_true hb
      exact ⟨phone, hmem⟩
    · cases hb

/-- An attempt is over when it has ended one way or the other. -/
theorem over_iff {userId : ℕ} {trace : ProcessTrace} :
    Over userId trace ↔ trace.any (endsAttempt userId) = true := by
  rw [List.any_eq_true]
  constructor
  · rintro (hmem | hmem) <;> exact ⟨_, hmem, decide_eq_true rfl⟩
  · rintro ⟨⟨op, r⟩, hmem, hends⟩
    unfold endsAttempt at hends
    split at hends
    · next u hop =>
      cases hop
      obtain rfl := of_decide_eq_true hends
      exact .inl hmem
    · next u hop =>
      cases hop
      obtain rfl := of_decide_eq_true hends
      exact .inr hmem
    · cases hends

/-- Whether an attempt runs can be read off its trace. -/
theorem running_iff {userId : ℕ} {trace : ProcessTrace} : Running userId trace ↔
    trace.any (beginsBlock userId) = true ∧ trace.any (endsAttempt userId) = false :=
  and_congr begun_iff (by rw [over_iff, Bool.not_eq_true])

namespace Demo

/-- Attempts to delete the account of the user. -/
def attemptCalls : ℕ → ProcessCall := fun _ ↦ .deleteAccount 0

/-- All of them are for the same user. -/
theorem attemptCalls_user (i u : ℕ) (h : attemptCalls i = .deleteAccount u) : u = 0 := by
  cases h
  rfl

/-- Before the first of them. -/
def attemptStart : ProcessSystem ℕ := ProcessSystem.start env accountWorld attemptCalls

/-- Blocks are taken down when the other attempts that have begun are over, and no lookup fails. -/
def allowAlone : ℕ → ProcessOp → ProcessHistory ℕ → Bool
  | i, .memory (.restore _), s | i, .memory (.timeout _), s =>
    s.log.all fun e ↦ e.thread = i || !beginsBlock 0 ⟨e.op, e.resp⟩ ||
      (s.trace e.thread).any (endsAttempt 0)
  | _, .memory (.dropPhone _ _), _ => false
  | _, _, _ => true

/-- What passes the test takes its blocks down alone. -/
theorem allowAlone_stmt (i : ℕ) (x : Choice) (op : ProcessOp) (s : ProcessHistory ℕ)
    (h : allowAlone i op s = true) : (clearsAlone env 0).stmt i x op s := by
  have halone : (s.log.all fun e ↦ e.thread = i || !beginsBlock 0 ⟨e.op, e.resp⟩ ||
      (s.trace e.thread).any (endsAttempt 0)) = true → ∀ k, k ≠ i → ¬ Running 0 (s.trace k) := by
    intro hall k hk hrun
    obtain ⟨hbegins, hends⟩ := running_iff.1 hrun
    obtain ⟨_, hmem, hb⟩ := List.any_eq_true.1 hbegins
    obtain ⟨e, he, rfl⟩ := List.mem_map.1 hmem
    obtain ⟨helog, rfl⟩ := State.mem_history.1 he
    have hallowed := List.all_eq_true.1 hall e helog
    rw [hb, hends, Bool.not_true, Bool.or_false, Bool.or_false, decide_eq_true_iff] at hallowed
    exact hk hallowed
  refine ⟨?_, ?_⟩
  · rintro (rfl | rfl) <;> exact halone h
  · rintro phone rfl
    cases h

/-- Two attempts run at once: the account is deleted by the second, and the transaction of the first
fails after that. -/
theorem overlap_balanced_runs : (attemptStart.turns (processMachine ℕ crypto) allowAlone
    (steps 0 4 ++ steps 1 4)).any (fun c ↦
      ([0, 1].all fun i ↦ (c.state.trace i).any (beginsBlock 0) &&
        !(c.state.trace i).any (endsAttempt 0)) ∧
      (c.turns (processMachine ℕ crypto) allowAlone
        (steps 1 2 ++ [⟨0, { fault := .before }⟩] ++ steps 0 1)).isSome) = true := by
  decide +kernel

/-- Both attempts have begun their blocks. -/
def bothRunning : ProcessSystem ℕ := attemptStart.afterTurns (processMachine ℕ crypto) _ _
  (Option.isSome_of_any overlap_balanced_runs)

/-- What the schedule leads to, and that it goes on from there. -/
theorem bothRunning_tests : ([0, 1].all fun i ↦ (bothRunning.state.trace i).any (beginsBlock 0) &&
      !(bothRunning.state.trace i).any (endsAttempt 0)) ∧
    (bothRunning.turns (processMachine ℕ crypto) allowAlone
      (steps 1 2 ++ [⟨0, { fault := .before }⟩] ++ steps 0 1)).isSome :=
  of_decide_eq_true (Config.afterTurns_of_any overlap_balanced_runs)

/-- Both attempts are over. -/
def bothOver : ProcessSystem ℕ := bothRunning.afterTurns (processMachine ℕ crypto) _ _
  bothRunning_tests.2

end Demo

/-- The blocks are balanced while both attempts run, and when both are over. -/
theorem balanced_of_clearsAlone_overlapping :
    (∀ i ∈ [0, 1], Running 0 (Demo.bothRunning.state.trace i)) ∧
      BlocksBalanced Demo.env Demo.accountWorld 0 Demo.bothRunning.state ∧
        BlocksBalanced Demo.env Demo.accountWorld 0 Demo.bothOver.state := by
  have hboth : ProcessSystem.Reaches Demo.env (clearsAlone Demo.env 0) Demo.attemptStart
      Demo.bothRunning :=
    Config.run_afterTurns Demo.allowAlone_stmt (Option.isSome_of_any Demo.overlap_balanced_runs)
  have hover : ProcessSystem.Reaches Demo.env (clearsAlone Demo.env 0) Demo.bothRunning
      Demo.bothOver :=
    Config.run_afterTurns Demo.allowAlone_stmt Demo.bothRunning_tests.2
  refine ⟨fun i hi ↦ running_iff.2 ?_, ?_, ?_⟩
  · simpa using List.all_eq_true.1 Demo.bothRunning_tests.1 i hi
  · exact balanced_of_clearsAlone Demo.env Demo.accountWorld Demo.attemptCalls 0
      Demo.attemptCalls_user hboth
  · exact balanced_of_clearsAlone Demo.env Demo.accountWorld Demo.attemptCalls 0
      Demo.attemptCalls_user (hboth.trans hover)

namespace Demo

/-- Two attempts begin; the second has looked its jobs up, when the lookup of the first fails. -/
theorem overlap_attempts_run : (attemptStart.turns (processMachine ℕ crypto) (fun _ _ _ ↦ true)
    (steps 0 2 ++ steps 1 4 ++ [⟨0, { fault := .before }⟩] ++ steps 0 2)).isSome := by
  decide +kernel

/-- The first attempt has ended and the second is about to delete. -/
def overlapping : ProcessSystem ℕ := attemptStart.afterTurns (processMachine ℕ crypto) _ _
  overlap_attempts_run

end Demo

/-- **A failed attempt unblocks the account for another.** Two attempts; the lookup of one fails,
and its end takes down the blocks of the other, which is about to delete. -/
theorem failed_attempt_unblocks :
    ProcessSystem.Reaches Demo.env .all Demo.attemptStart Demo.overlapping ∧
      ¬ BlocksBalanced Demo.env Demo.accountWorld 0 Demo.overlapping.state := by
  refine ⟨Config.run_afterTurns (fun _ _ _ _ _ ↦ trivial) Demo.overlap_attempts_run, fun h ↦ ?_⟩
  have hrun : Running 0 (Demo.overlapping.state.trace 1) :=
    running_iff.2 ⟨by decide +kernel, by decide +kernel⟩
  have hstored : Demo.overlapping.state.shared.world.notificationJobs.stored 0 =
      some Demo.accountJob := by decide +kernel
  have hcan : Demo.overlapping.state.shared.canDeliver
      ⟨0, Demo.accountJob, ⟨none, some "+1", none, some "", none⟩⟩ = true := by decide +kernel
  refine absurd (h.1 1 hrun _ (fun j hj ↦ ?_) (.inl rfl)) (by rw [hcan]; decide)
  obtain rfl : Demo.accountJob = j := Option.some.inj (hstored.symm.trans hj)
  exact ⟨rfl, rfl⟩

end Stead
