import Stead.Account.Attempts
import Stead.Model.Effects

/-!
# What the steps of the process leave

The deletions and polls of a process add no users and no jobs, keep the owner of each job, and
change a payload only to erase it. So what a deletion was told about the user and the jobs stays
true of whatever is still there (`Informed`).

## By kind of statement

Statements on the memory leave the database (`exec_memory_same`); those of a deletion read it or
remove rows (`exec_account`, `deleteAccountRows_ok`); and those of a poll are statements of the
consumer, of which `exec_job` and `exec_user` say what they can do to a job and to a user. Each is
said of the statement when it is executed, whatever comes back: an answer that is lost has the same
effect.

## What a deletion was told

The user it was given had the phone at the start, and still has it if the row is there; the jobs it
was given are as they were, but for their payloads. `Informed.after` is the step and
`informed_start` the beginning; that the jobs a deletion records are those of nobody for its phone
is read off the rows it was given (`mem_accountJobIds`).
-/

namespace Stead

open Concurrency

variable {ι : Type} [DecidableEq ι] {env : Env} {call : ProcessCall} {trace : ProcessTrace}
  {i : ι} {x : Choice} {op : ProcessOp} {p t : Process ι} {r : op.Resp}

/-- Only statements on the memory change it. -/
theorem exec_memory_same {crypto : Crypto} (h : op.exec crypto i x p = some (r, t))
    (hop : ∀ s, op ≠ .memory s) : t.blocks = p.blocks ∧ t.isProcessing = p.isProcessing := by
  cases op with
  | statement op =>
    obtain ⟨out, -, hout⟩ := Option.map_eq_some_iff.1 h
    cases hout
    exact ⟨rfl, rfl⟩
  | account s =>
    simp only [ProcessOp.exec] at h
    split at h <;> cases h <;> exact ⟨rfl, rfl⟩
  | memory s => exact absurd rfl (hop s)

/-- What a statement of the account service makes of the database. -/
theorem exec_account {crypto : Crypto} {s : AccountStatement} {r : Except StatementError s.Ret}
    (h : (ProcessOp.account s).exec crypto i x p = some (r, t)) :
    (t.world = p.world ∧ r = .error .unavailable) ∨
      t.world = (s.perform x p.world).2 ∧
        (r = (s.perform x p.world).1 ∨ r = .error .unavailable) := by
  simp only [ProcessOp.exec] at h
  split at h <;> cases h
  · exact .inr ⟨rfl, .inl rfl⟩
  · exact .inl ⟨rfl, rfl⟩
  · exact .inr ⟨rfl, .inr rfl⟩

/-- The database changes only by the deletion of the rows of an account. -/
theorem perform_account (s : AccountStatement) (x : Choice) (w : World ι) :
    (s.perform x w).2 = w ∨ ∃ userId phone ids w', s = .deleteRows userId phone ids ∧
      w.deleteAccountRows userId phone ids = .ok w' ∧ (s.perform x w).2 = w' := by
  cases s with
  | deleteRows userId phone ids =>
    cases hd : w.deleteAccountRows userId phone ids with
    | ok w' => exact .inr ⟨userId, phone, ids, w', rfl, hd, by simp [AccountStatement.perform, hd]⟩
    | error e => exact .inl (by simp [AccountStatement.perform, hd])
  | _ => exact .inl rfl

/-- **What a deletion leaves**: the jobs of other accounts it was not told of, and the other
users. -/
theorem deleteAccountRows_ok {w w' : World ι} {userId : ℕ} {phone : String} {ids : List ℕ}
    (h : w.deleteAccountRows userId phone ids = .ok w') :
    (∀ id j, w'.notificationJobs.stored id = some j ↔
      w.notificationJobs.stored id = some j ∧ j.userId ≠ some userId ∧ id ∉ ids) ∧
    ∀ u v, w'.users.stored u = some v ↔ w.users.stored u = some v ∧ u ≠ userId := by
  simp only [World.deleteAccountRows] at h
  split at h
  · cases h
  split at h
  · cases h
  · cases h
    exact ⟨fun id j ↦ by simp [Table.stored_deleteWhere], fun u v ↦ by
      simp [Table.stored_deleteWhere]⟩

/-- **One step, for one job**: it was there before, of the same user, with the same payload unless
a completion has erased it. -/
theorem exec_job {crypto : Crypto} (hop : TaskStatement env call trace op)
    (h : op.exec crypto i x p = some (r, t)) {id : ℕ} {j' : NotificationJob}
    (hj' : t.world.notificationJobs.stored id = some j') :
    ∃ j, p.world.notificationJobs.stored id = some j ∧ j'.userId = j.userId ∧
      (j'.payloadJson = j.payloadJson ∨ j'.payloadJson = REDACTED_PAYLOAD_JSON ∧
        ∃ data, op = .statement (.notificationJob (.update id data))) := by
  cases op with
  | statement op =>
    obtain ⟨out, hx, hout⟩ := Option.map_eq_some_iff.1 h
    cases hout
    cases exec_notificationJobs hx id with
    | same he => exact ⟨j', he ▸ hj', rfl, .inl rfl⟩
    | create hcreate =>
      subst hcreate
      cases hop
    | @edit s j j'' hs hj he hnew =>
      subst hs
      obtain rfl : j' = j'' := Option.some.inj (hj'.symm.trans hnew)
      refine ⟨j, hj, ?_⟩
      cases he with
      | adopt => cases hop
      | claim => exact ⟨rfl, .inl rfl⟩
      | update k data =>
        refine ⟨rfl, ?_⟩
        rw [hop.2.apply_payload]
        split
        · exact .inr ⟨rfl, data, rfl⟩
        · exact .inl rfl
      | redactTerminal => exact hop.elim
  | account s =>
    refine ⟨j', ?_, rfl, .inl rfl⟩
    rcases exec_account h with ⟨ht, -⟩ | ⟨ht, -⟩
    · rwa [ht] at hj'
    rw [ht] at hj'
    rcases perform_account s x p.world with hsame | ⟨userId, phone, ids, w', -, hd, hw⟩
    · rwa [hsame] at hj'
    · rw [hw] at hj'
      exact ((deleteAccountRows_ok hd).1 id j' |>.1 hj').1
  | memory s =>
    cases h
    exact ⟨j', hj', rfl, .inl rfl⟩

/-- No user is added or changed. -/
theorem exec_user {crypto : Crypto} (hop : TaskStatement env call trace op)
    (h : op.exec crypto i x p = some (r, t)) {u : ℕ} {v : User}
    (hv : t.world.users.stored u = some v) : p.world.users.stored u = some v := by
  cases op with
  | statement op =>
    obtain ⟨out, hx, hout⟩ := Option.map_eq_some_iff.1 h
    cases hout
    refine (exec_of_perform (fun t ↦ t.users.stored u = some v → p.world.users.stored u = some v)
      hx (fun r t hp ht ↦ ?_) ?_) hv
    · cases perform_effect hp with
      | @user s users hs ht' =>
        subst hs
        cases s with
        | findByPhone phone =>
          cases hp
          exact ht
        | upsert => cases hop
      | _ => subst_vars; exact ht
    · cases op <;> exact id
  | account s =>
    rcases exec_account h with ⟨ht, -⟩ | ⟨ht, -⟩
    · rwa [ht] at hv
    rw [ht] at hv
    rcases perform_account s x p.world with hsame | ⟨userId, phone, ids, w', -, hd, hw⟩
    · rwa [hsame] at hv
    · rw [hw] at hv
      exact ((deleteAccountRows_ok hd).2 u v |>.1 hv).1
  | memory s =>
    cases h
    exact hv

/-- What the deletions have been told of users and jobs is true, of those that are left. -/
structure Informed (w₀ : World ι) (s : ProcessHistory ι) : Prop where
  users : ∀ u v, s.shared.world.users.stored u = some v → w₀.users.stored u = some v
  found : ∀ i u phone, Found u phone (s.trace i) → w₀.phoneOf u = some phone
  listed : ∀ i u rows, ⟨.account (.findCandidates u), .ok rows⟩ ∈ s.trace i → ∀ id j,
    s.shared.world.notificationJobs.stored id = some j → j.userId = none →
      j.payloadJson ≠ REDACTED_PAYLOAD_JSON →
        ∃ r ∈ rows, r.id = id ∧ r.row.userId = none ∧ r.row.payloadJson = j.payloadJson

/-- **One step** leaves true what the deletions were told. -/
theorem Informed.after {s : ProcessHistory ι} {w₀ : World ι} {crypto : Crypto}
    (hs : Informed w₀ s) (hop : TaskStatement env call (s.trace i) op)
    (h : op.exec crypto i x s.shared = some (r, t)) : Informed w₀ (s.after i op r t) := by
  refine ⟨fun u v hv ↦ hs.users u v (exec_user hop h hv), fun k u phone hfound ↦ ?_,
    fun k u rows hrows id j' hj' hnone hpayload ↦ ?_⟩
  · rcases State.mem_trace_after hfound with hold | ⟨-, hnew⟩
    · exact hs.found k u phone hold
    · cases hnew
      rcases exec_account h with ⟨-, hr⟩ | ⟨-, hr | hr⟩
      · cases hr
      · have hphone : s.shared.world.phoneOf u = some phone := (Except.ok.inj hr).symm
        obtain ⟨v, hv, hvp⟩ := Option.map_eq_some_iff.1 hphone
        exact Option.map_eq_some_iff.2 ⟨v, hs.users u v hv, hvp⟩
      · cases hr
  · obtain ⟨j, hj, huser, hp⟩ := exec_job hop h hj'
    have hpj : j'.payloadJson = j.payloadJson := hp.resolve_right fun hred ↦ hpayload hred.1
    rcases State.mem_trace_after hrows with hold | ⟨-, hnew⟩
    · rw [hpj]
      exact hs.listed k u rows hold id j hj (huser ▸ hnone) (hpj ▸ hpayload)
    · cases hnew
      rcases exec_account h with ⟨-, hr⟩ | ⟨-, hr | hr⟩
      · cases hr
      · refine ⟨⟨id, j⟩, ?_, rfl, huser ▸ hnone, hpj.symm⟩
        rw [Except.ok.inj hr]
        refine Table.mem_select.2 ⟨(Cell.view_none _).trans hj, ?_⟩
        simp [← huser, hnone]
      · cases hr

theorem informed_start (env : Env) (w : World ι) (calls : ι → ProcessCall) :
    Informed w (ProcessSystem.start env w calls).state :=
  ⟨fun _ _ h ↦ h, fun _ _ _ h ↦ absurd h List.not_mem_nil, fun _ _ _ h ↦ absurd h List.not_mem_nil⟩

/-- The jobs recorded from the rows of a lookup. -/
theorem mem_accountJobIds {userId : ℕ} {phone : String} {rows : List (Keyed NotificationJob)}
    {job : Keyed NotificationJob} {payload : PayloadRecord} (hjob : job ∈ rows)
    (hpayload : decryptPayload env job.row.payloadJson = .ok payload)
    (hphone : payload.phone = some phone) : job.id ∈ accountJobIds env userId phone rows := by
  refine List.mem_flatMap.2 ⟨job, hjob, ?_⟩
  split
  · exact List.mem_singleton_self _
  · simp [hpayload, hphone]

end Stead
