import Stead.Otp.Lifecycle
import Stead.Otp.Limits
import Stead.Otp.Promises

/-!
# What an answered request has sent

The job of a request is linked to its row for good: a row is not deleted while a job refers to it,
and what the consumer makes of a job leaves the link and the payload alone, but for redacting it
(`CodesSent`). A row is completed, and a request answered, only once this job is there
(`Requested.promised`). So an answered request has sent its code, and no other code is ever sent for
its key (`requests_send_codes`).

## Which calls

The calls are those of `Model.Api`: requests and verifications, refreshes and logouts, polls of the
queue, alerts and the redaction at start-up. The deletion of an account is not among them; it
deletes rows with their jobs. A row that was completed before the calls began must have its job,
which is a premise about the start (`CodesSent.completed`), and there must be no job that is not
linked.

## Two invariants

`CodesSent` is about the store: every completed row has a job with its code, every key has one row
and one job. `Requested` is about the traces: what a call was answered about rows, jobs and users is
still so. A statement keeps the second because the first says what may become of a row and of a
job (`row_kept`, `CodesSent.job_passes`).
-/

namespace Stead

open Concurrency

variable {ι : Type}

/-- The job of a request is there. -/
def World.Sends (w : World ι) (requestKeyHash : Digest) (k : ℕ) : Prop :=
  ∃ id job, w.notificationJobs.stored id = some job ∧ job.SendsCode k requestKeyHash

/-- The payload is the code of the row, sealed with the phone number of its user, or what is left of
it when it has been delivered or given up. -/
def World.Carries (env : Env) (w : World ι) (row : OtpCode) (payloadJson : PayloadJson) : Prop :=
  payloadJson = REDACTED_PAYLOAD_JSON ∨ ∃ phone otp salt secret iv,
    w.phoneOf row.userId = some phone ∧ row.codeHash = env.crypto.bcryptHash otp salt ∧
      encryptionKey env = .ok secret ∧
        payloadJson = sealedPayload env secret iv (otpPayload phone otp)

/-- The payload is the code of the row, sealed with the phone number of its user. -/
def World.Encloses (env : Env) (w : World ι) (row : OtpCode) (payloadJson : PayloadJson) : Prop :=
  ∃ phone otp salt secret iv, w.phoneOf row.userId = some phone ∧
    row.codeHash = env.crypto.bcryptHash otp salt ∧ encryptionKey env = .ok secret ∧
      payloadJson = sealedPayload env secret iv (otpPayload phone otp)

/-- What a row says of its request. -/
def OtpCode.request (row : OtpCode) : (NewOtpCode × ℤ) × Option ℤ :=
  (row.birth, row.requestCompletedAt)

theorem request_keptInTx : KeptInTx ι OtpCode.request := by
  intro row row' s k i j h hw
  cases h <;> first | rfl | cases hw

/-- The codes and the jobs that send them: every job of a code is linked to the row of its request and
carries the code of it, no two jobs have the same key, and a completed row has its job. -/
structure CodesSent (env : Env) (w : World ι) : Prop where
  rooted : w.Rooted OtpCode.request
  owned : ∀ k row, w.otpCodes.stored k = some row → (w.users.stored row.userId).isSome
  once : ∀ id id' job job' key, w.notificationJobs.stored id = some job →
    w.notificationJobs.stored id' = some job' → job.dedupeKey = some key →
      job'.dedupeKey = some key → id = id'
  sent : ∀ id job, w.notificationJobs.stored id = some job → job.type = .otpRequested →
    ∃ k row, w.otpCodes.stored k = some row ∧ job.SendsCode k row.requestKeyHash ∧
      w.Carries env row job.payloadJson
  completed : ∀ k row, w.otpCodes.stored k = some row → row.requestCompletedAt.isSome →
    w.Sends row.requestKeyHash k

/-- Both versions of a row have one birth. -/
theorem CodesSent.rooted_birth {env : Env} {w : World ι} (hw : CodesSent env w) :
    w.Rooted OtpCode.birth :=
  fun k j row hp ↦ (hw.rooted k j row hp).imp fun _ h ↦ ⟨h.1, congrArg Prod.fst h.2⟩

/-- A database without codes and jobs. -/
theorem CodesSent.of_empty {env : Env} {w : World ι} (hcodes : w.otpCodes = .empty)
    (hjobs : w.notificationJobs = .empty) : CodesSent env w := by
  have hrow : ∀ k, w.otpCodes.stored k = none := fun k ↦ by rw [hcodes]; rfl
  have hjob : ∀ id, w.notificationJobs.stored id = none := fun id ↦ by rw [hjobs]; rfl
  refine ⟨fun k j row hp ↦ ?_, fun k row h ↦ ?_, fun id _ job _ _ h ↦ ?_, fun id job h ↦ ?_,
    fun k row h ↦ ?_⟩
  · rw [hcodes] at hp
    cases hp
  · cases (hrow k).symm.trans h
  · cases (hjob id).symm.trans h
  · cases (hjob id).symm.trans h
  · cases (hrow k).symm.trans h

variable [DecidableEq ι]

/-! ### What a step leaves of a job and of its row -/

section Statements

variable {env : Env} {crypto : Crypto} {i : ι} {x : Choice} {op : Op} {w t : World ι}
  {r : Except StatementError op.Ret}

/-- A job of before, later: its link is as it was, and its payload too unless it is redacted. -/
structure NotificationJob.Passes (job job' : NotificationJob) : Prop where
  type : job'.type = job.type
  otpCodeId : job'.otpCodeId = job.otpCodeId
  dedupeKey : job'.dedupeKey = job.dedupeKey
  payload : job'.payloadJson = job.payloadJson ∨ job'.payloadJson = REDACTED_PAYLOAD_JSON

omit [DecidableEq ι] in
/-- No job is from before jobs were linked. -/
theorem CodesSent.not_legacy (hw : CodesSent env w) {id : ℕ} {job : NotificationJob}
    (hjob : w.notificationJobs.stored id = some job) (userId : ℕ) : ¬ job.legacyOtpOf userId = true := by
  intro hlegacy
  simp only [NotificationJob.legacyOtpOf, Bool.and_eq_true, decide_eq_true_eq,
    Option.isNone_iff_eq_none] at hlegacy
  obtain ⟨_, _, -, hsends, -⟩ := hw.sent id job hjob hlegacy.1.1.1
  cases hlegacy.1.2.symm.trans hsends.otpCodeId

omit [DecidableEq ι] in
/-- There is no job to adopt, so an edit leaves the link alone. -/
theorem CodesSent.edit (hw : CodesSent env w) {s : NotificationJobStatement}
    (hop : (Op.notificationJob s).WellFormed) {id k : ℕ} {job job' : NotificationJob}
    (hjob : w.notificationJobs.stored id = some job) (h : NotificationJobEdit job s k job') :
    job.Passes job' := by
  cases h with
  | adopt k userId otpCodeId dedupeKey correlationId hlegacy =>
    exact absurd hlegacy (hw.not_legacy hjob userId)
  | claim => exact ⟨rfl, rfl, rfl, .inl rfl⟩
  | redactTerminal => exact ⟨rfl, rfl, rfl, .inr rfl⟩
  | update k data =>
    refine ⟨rfl, rfl, rfl, ?_⟩
    rw [NotificationJobUpdate.Completes.apply_payload hop]
    split
    · exact .inr rfl
    · exact .inl rfl

/-- **A job stays**, with its link. -/
theorem CodesSent.job_passes (hw : CodesSent env w) (hop : op.WellFormed)
    (h : exec crypto i x op w = some (r, t)) {id : ℕ} {job : NotificationJob}
    (hjob : w.notificationJobs.stored id = some job) :
    ∃ job', t.notificationJobs.stored id = some job' ∧ job.Passes job' := by
  cases exec_notificationJobs h id with
  | same heq => exact ⟨job, heq.trans hjob, rfl, rfl, rfl, .inl rfl⟩
  | edit hs hold he heq =>
    cases hold.symm.trans hjob
    subst hs
    exact ⟨_, heq, hw.edit hop hjob he⟩
  | create _ _ _ _ _ hold => cases hold.symm.trans hjob

/-- Where a job comes from. -/
theorem CodesSent.job_from (hw : CodesSent env w) (hop : op.WellFormed)
    (h : exec crypto i x op w = some (r, t)) {id : ℕ} {job' : NotificationJob}
    (hjob' : t.notificationJobs.stored id = some job') :
    (∃ job, w.notificationJobs.stored id = some job ∧ job.Passes job') ∨
      ∃ data, op = .notificationJob (.create data) ∧ id = w.notificationJobs.next ∧
        job' = data.row (w.elapse x.elapse).now ∧
        (∀ id job, w.notificationJobs.stored id = some job → job'.clashes job = false) ∧
        (∀ k, data.otpCodeId = some k → (w.otpCodes.stored k).isSome) ∧ job'.linked = true := by
  cases exec_notificationJobs h id with
  | same heq => exact .inl ⟨job', heq.symm.trans hjob', rfl, rfl, rfl, .inl rfl⟩
  | edit hs hold he heq =>
    cases heq.symm.trans hjob'
    subst hs
    exact .inl ⟨_, hold, hw.edit hop hold he⟩
  | create hs hk hfree hotp hlinked hold heq =>
    cases heq.symm.trans hjob'
    exact .inr ⟨_, hs, hk, rfl, hfree, hotp, hlinked⟩

/-- **A row stays** as long as a job refers to it. -/
theorem row_kept (hw : w.Rooted OtpCode.birth) (h : exec crypto i x op w = some (r, t)) {k : ℕ}
    {row : OtpCode} (hrow : w.otpCodes.stored k = some row)
    (hjob : ∃ id job, w.notificationJobs.stored id = some job ∧ job.otpCodeId = some k) :
    ∃ row', t.otpCodes.stored k = some row' ∧ row'.birth = row.birth := by
  obtain ⟨row', hrow', hsame | ⟨s, -, he⟩⟩ := row_stays h hw hrow fun _ _ ↦ hjob
  · exact ⟨row', hrow', hsame⟩
  · exact ⟨row', hrow', he.birth⟩

/-- A job goes on sending its row. -/
theorem World.Sends.after {requestKeyHash : Digest} {k : ℕ} (hs : w.Sends requestKeyHash k)
    (hw : CodesSent env w) (hop : op.WellFormed) (h : exec crypto i x op w = some (r, t)) :
    t.Sends requestKeyHash k := by
  obtain ⟨id, job, hjob, htype, hlink, hkey⟩ := hs
  obtain ⟨job', hjob', hpass⟩ := hw.job_passes hop h hjob
  exact ⟨id, job', hjob', hpass.type.trans htype, hpass.otpCodeId.trans hlink,
    hpass.dedupeKey.trans hkey⟩

omit [DecidableEq ι] in
/-- The job of a row is the job of its request. -/
theorem World.Sends.key {requestKeyHash : Digest} {k : ℕ} (hs : w.Sends requestKeyHash k)
    (hw : CodesSent env w) : ∃ row, w.otpCodes.stored k = some row ∧
      row.requestKeyHash = requestKeyHash := by
  obtain ⟨id, job, hjob, htype, hlink, hkey⟩ := hs
  obtain ⟨k', row, hrow, hsends, -⟩ := hw.sent id job hjob htype
  obtain rfl := Option.some.inj (hsends.otpCodeId.symm.trans hlink)
  refine ⟨row, hrow, ?_⟩
  have := Option.some.inj (hsends.dedupeKey.symm.trans hkey)
  exact DedupeKey.otpRequested.inj this

/-- A job goes on carrying the code, or is redacted. -/
theorem World.Carries.after {row row' : OtpCode} {payloadJson payloadJson' : PayloadJson}
    (hc : w.Carries env row payloadJson) (h : exec crypto i x op w = some (r, t))
    (hbirth : row'.birth = row.birth)
    (hpayload : payloadJson' = payloadJson ∨ payloadJson' = REDACTED_PAYLOAD_JSON) :
    t.Carries env row' payloadJson' := by
  rcases hpayload with rfl | rfl
  · refine hc.imp_right fun ⟨phone, otp, salt, secret, iv, hphone, hhash, hrest⟩ ↦
      ⟨phone, otp, salt, secret, iv, ?_, ?_, hrest⟩
    · rw [OtpCode.userId_of_birth hbirth]
      exact phoneOf_after h hphone
    · rw [OtpCode.codeHash_of_birth hbirth, hhash]
  · exact .inl rfl

/-! ### What the lookups find -/

/-- What is found under a key is stored under it, with the phone of its user. -/
theorem perform_foundRequest {requestKeyHash : Digest} {existing : Keyed OtpCode} {phone : String}
    (h : perform crypto i x w (.otpCode (.findByRequestKey requestKeyHash)) =
      some (.ok (some (existing, phone)), t)) :
    w.otpCodes.stored existing.id = some existing.row ∧
      existing.row.requestKeyHash = requestKeyHash ∧
        (w.phoneOf existing.row.userId).getD "" = phone ∧ t = w := by
  simp only [perform, OtpCodeStatement.perform, reply, Option.some.injEq, Prod.mk.injEq,
    Except.ok.injEq] at h
  obtain ⟨hfound, rfl⟩ := h
  obtain ⟨row, hhead, heq⟩ := Option.map_eq_some_iff.1 hfound
  obtain ⟨rfl, hphone⟩ := Prod.mk.inj heq
  obtain ⟨hstored, hkey⟩ := Table.mem_select.1 (List.mem_of_head? hhead)
  rw [Cell.view_none] at hstored
  exact ⟨hstored, of_decide_eq_true hkey, hphone, rfl⟩

theorem perform_foundLatest {userId : ℕ} {after : ℤ} {latestOtp : Keyed OtpCode}
    (h : perform crypto i x w (.otpCode (.findLatestAfter userId after)) =
      some (.ok (some latestOtp), t)) :
    w.otpCodes.stored latestOtp.id = some latestOtp.row ∧ latestOtp.row.userId = userId ∧ t = w := by
  simp only [perform, OtpCodeStatement.perform, reply, Option.some.injEq, Prod.mk.injEq,
    Except.ok.injEq] at h
  obtain ⟨hlatest, rfl⟩ := h
  obtain ⟨hstored, hmatch⟩ := Table.mem_select.1
    (List.mem_filter.1 (List.mem_of_getElem? hlatest)).1
  rw [Cell.view_none] at hstored
  rw [Bool.and_eq_true, decide_eq_true_eq] at hmatch
  exact ⟨hstored, hmatch.1, rfl⟩

theorem perform_foundJob {dedupeKey : DedupeKey} {job : Keyed NotificationJob}
    (h : perform crypto i x w (.notificationJob (.findByDedupeKey dedupeKey)) =
      some (.ok (some job), t)) :
    w.notificationJobs.stored job.id = some job.row ∧ job.row.dedupeKey = some dedupeKey := by
  simp only [perform, NotificationJobStatement.perform, reply, Option.some.injEq, Prod.mk.injEq,
    Except.ok.injEq] at h
  obtain ⟨hstored, hkey⟩ := Table.mem_select.1 (List.mem_of_head? h.1)
  rw [Cell.view_none] at hstored
  exact ⟨hstored, of_decide_eq_true hkey⟩

theorem perform_createdJob {data : NewNotificationJob} {id : ℕ}
    (h : perform crypto i x w (.notificationJob (.create data)) = some (.ok id, t)) :
    t.notificationJobs.stored id = some (data.row w.now) := by
  simp only [perform, NotificationJobStatement.perform] at h
  (repeat' split at h) <;> cases h
  show ((w.notificationJobs.insert none (data.row w.now)).2.cell w.notificationJobs.next).stored = _
  rw [Table.insert_cell_self]
  rfl

/-- A job that is found to adopt is not linked. -/
theorem perform_foundLegacy {userId id : ℕ} {since until_ : ℤ}
    (h : perform crypto i x w (.notificationJob (.findLegacyOtp userId since until_)) =
      some (.ok (some id), t)) :
    ∃ job, w.notificationJobs.stored id = some job ∧ job.legacyOtpOf userId = true := by
  simp only [perform, NotificationJobStatement.perform, reply, Option.some.injEq, Prod.mk.injEq,
    Except.ok.injEq] at h
  obtain ⟨job, hearliest, rfl⟩ := Option.map_eq_some_iff.1 h.1
  obtain ⟨hstored, hmatch⟩ := Table.mem_select.1
    (List.mem_filter.1 (List.mem_of_getElem? hearliest)).1
  rw [Cell.view_none] at hstored
  simp only [Bool.and_eq_true] at hmatch
  exact ⟨job.row, hstored, hmatch.1.1⟩

/-- A statement on jobs leaves the codes alone. -/
theorem otpCodes_of_job {st : NotificationJobStatement}
    {r : Except StatementError (Op.notificationJob st).Ret}
    (h : exec crypto i x (.notificationJob st) w = some (r, t)) : t.otpCodes = w.otpCodes := by
  refine exec_of_perform (fun t ↦ t.otpCodes = w.otpCodes) h (fun r t h ↦ ?_) rfl
  cases perform_effect h with
  | notificationJob hop ht =>
    subst ht
    rfl
  | _ hop => cases hop

end Statements

/-! ### What the answers say -/

section Answers

variable {crypto : Crypto} {i : ι} {s : History ι}

/-- A row that a call has created is as it was created. -/
theorem Chronicle.createdCode (hs : Chronicle crypto s) {data : NewOtpCode} {k : ℕ}
    (h : createdCode data k ∈ s.trace i) {row : OtpCode}
    (hrow : s.shared.otpCodes.stored k = some row) : row.birth.1 = data := by
  obtain ⟨e, -, -, x, hlater, hp⟩ := hs.exchange h
  generalize e.after = t at hlater hp
  generalize e.before.elapse x.elapse = w at hp
  simp only [perform, OtpCodeStatement.perform] at hp
  (repeat' split at hp) <;> cases hp
  have hcell := Table.insert_cell_self (t := w.otpCodes) (none : Option ι) (data.row w.now)
  obtain ⟨row₀, hrow₀, hbirth⟩ := hlater.rows _ row hrow (Nat.lt_succ_self _)
  have hstored : ((w.otpCodes.insert none (data.row w.now)).2.cell w.otpCodes.next).stored =
    some row₀ := hrow₀
  rw [hcell] at hstored
  cases hstored
  rw [hbirth]
  rfl

theorem Chronicle.hashedCode (hs : Chronicle crypto s) {otp : String} {codeHash : Digest}
    (h : hashedCode otp codeHash ∈ s.trace i) : ∃ salt, codeHash = crypto.bcryptHash otp salt := by
  obtain ⟨e, -, -, x, -, hp⟩ := hs.exchange h
  generalize e.after = t at hp
  cases hp
  exact ⟨x.pick, rfl⟩

theorem Chronicle.upserted (hs : Chronicle crypto s) {phone : String} {user : Keyed User}
    (h : upserted phone user ∈ s.trace i) : s.shared.phoneOf user.id = some phone := by
  obtain ⟨e, -, -, x, hlater, hp⟩ := hs.exchange h
  generalize e.after = t at hlater hp
  generalize e.before.elapse x.elapse = w at hp
  have hu : t.users.stored user.id = some user.row ∧ user.row.phone = phone := by
    simp only [perform, UserStatement.perform] at hp
    split at hp
    · next found hfound =>
      cases hp
      exact userByPhone_eq_some hfound
    · cases hp
      refine ⟨?_, rfl⟩
      show ((w.users.insert none ⟨phone⟩).2.cell w.users.next).stored = _
      rw [Table.insert_cell_self]
      rfl
  rw [World.phoneOf, hlater.users user.id user.row hu.1, Option.map_some, hu.2]

/-- The latest row that was found is the user's. -/
theorem Chronicle.foundLatest (hs : Chronicle crypto s) {userId : ℕ} {after : ℤ}
    {latestOtp : Keyed OtpCode} (h : foundLatest userId after latestOtp ∈ s.trace i) {row : OtpCode}
    (hrow : s.shared.otpCodes.stored latestOtp.id = some row) : row.userId = userId := by
  obtain ⟨e, -, -, x, hlater, hp⟩ := hs.exchange h
  generalize e.after = t at hlater hp
  generalize e.before.elapse x.elapse = w at hp
  obtain ⟨hstored, huser, rfl⟩ := perform_foundLatest hp
  obtain ⟨row₀, hrow₀, hbirth⟩ := hlater.rows _ row hrow (World.born_of_stored hstored).lt_next
  cases hrow₀.symm.trans hstored
  exact (OtpCode.userId_of_birth hbirth).trans huser

/-- The row of a request is as it was found. -/
theorem Chronicle.foundRequest (hs : Chronicle crypto s) {requestKeyHash : Digest}
    {existing : Keyed OtpCode} {phone : String}
    (h : foundRequest requestKeyHash existing phone ∈ s.trace i) {row : OtpCode}
    (hrow : s.shared.otpCodes.stored existing.id = some row) : row.birth = existing.row.birth := by
  obtain ⟨e, -, -, x, hlater, hp⟩ := hs.exchange h
  generalize e.after = t at hlater hp
  generalize e.before.elapse x.elapse = w at hp
  obtain ⟨hstored, -, -, rfl⟩ := perform_foundRequest hp
  obtain ⟨row₀, hrow₀, hbirth⟩ := hlater.rows _ row hrow (World.born_of_stored hstored).lt_next
  cases hrow₀.symm.trans hstored
  exact hbirth

end Answers

/-! ### The invariant -/

/-- The requests of a run, between two statements. -/
structure Requested (env : Env) (s : History ι) : Prop where
  chronicle : Chronicle env.crypto s
  codes : CodesSent env s.shared
  promised : ∀ i requestKeyHash k, Promised requestKeyHash k (s.trace i) →
    s.shared.Sends requestKeyHash k
  phones : ∀ i requestKeyHash existing phone,
    foundRequest requestKeyHash existing phone ∈ s.trace i →
      s.shared.phoneOf existing.row.userId = some phone
  kept : ∀ e ∈ s.log, ∀ id job key, e.after.notificationJobs.stored id = some job →
    job.dedupeKey = some key → ∃ job', s.shared.notificationJobs.stored id = some job' ∧
      job'.dedupeKey = some key

section Invariant

variable {env : Env} {i j : ι} {x : Choice} {op : Op} {s : History ι} {t : World ι}
  {r : Except StatementError op.Ret}

/-- A job that is created for a code is that of the row its thread has stored. -/
theorem Requested.encloses_created {data : NewNotificationJob}
    {r : Except StatementError (Op.notificationJob (.create data)).Ret} (hs : Requested env s)
    (hop : RequestStatement env (s.trace i) (.notificationJob (.create data)))
    (h : exec env.crypto i x (.notificationJob (.create data)) s.shared = some (r, t)) {now : ℤ}
    (htype : data.type = .otpRequested)
    (hotp : ∀ k, data.otpCodeId = some k → (s.shared.otpCodes.stored k).isSome)
    (hlinked : (data.row now).linked = true) : ∃ k row, t.otpCodes.stored k = some row ∧
      (data.row now).SendsCode k row.requestKeyHash ∧
        t.Encloses env row (data.row now).payloadJson := by
  have hsome : data.otpCodeId.isSome = true := by
    have : ((data.row now).type ≠ .otpRequested) = False := by simp [NewNotificationJob.row, htype]
    simp only [NotificationJob.linked, this, decide_false, Bool.false_or, Bool.and_eq_true]
      at hlinked
    exact hlinked.1
  obtain ⟨k, hk⟩ := Option.isSome_iff_exists.1 hsome
  obtain ⟨row, otp, phone, secret, iv, hstores, -, hdedupe, hsecret, hpayload⟩ :=
    hop.enqueues data k rfl hk
  obtain ⟨row', hrow'⟩ := Option.isSome_iff_exists.1 (hotp k hk)
  obtain rfl : row'.birth.1 = row := hs.chronicle.createdCode hstores.created hrow'
  obtain ⟨salt, hsalt⟩ := hs.chronicle.hashedCode hstores.hashed
  obtain ⟨user, huser⟩ := hstores.user
  exact ⟨k, row', (otpCodes_of_job h).symm ▸ hrow', ⟨htype, hk, hdedupe⟩, phone, otp, salt,
    secret, iv, phoneOf_after h (hs.chronicle.upserted huser), hsalt, hsecret, hpayload⟩

section Steps

variable (hs : Requested env s) (hop : RequestStatement env (s.trace i) op) (hwf : op.WellFormed)
  (h : exec env.crypto i x op s.shared = some (r, t))

include hs hop hwf h

/-- A job is linked to its row and carries the code of it. -/
theorem Requested.sent_after {id : ℕ} {job' : NotificationJob}
    (hjob' : t.notificationJobs.stored id = some job') (htype : job'.type = .otpRequested) :
    ∃ k row, t.otpCodes.stored k = some row ∧ job'.SendsCode k row.requestKeyHash ∧
      t.Carries env row job'.payloadJson := by
  rcases hs.codes.job_from hwf h hjob' with ⟨job, hjob, hpass⟩ | ⟨data, rfl, -, rfl, -, hotp, hlinked⟩
  · obtain ⟨k, row, hrow, hsends, hcarries⟩ :=
      hs.codes.sent id job hjob (hpass.type.symm.trans htype)
    obtain ⟨row', hrow', hbirth⟩ :=
      row_kept hs.codes.rooted_birth h hrow ⟨id, job, hjob, hsends.otpCodeId⟩
    refine ⟨k, row', hrow', ⟨htype, hpass.otpCodeId.trans hsends.otpCodeId, ?_⟩,
      hcarries.after h hbirth hpass.payload⟩
    rw [OtpCode.requestKeyHash_of_birth hbirth]
    exact hpass.dedupeKey.trans hsends.dedupeKey
  · -- The job is new: it is that of the row its thread has stored.
    obtain ⟨k, row, hrow, hsends, hencloses⟩ := hs.encloses_created hop h htype hotp hlinked
    exact ⟨k, row, hrow, hsends, .inr hencloses⟩

/-- A row is completed when its job is there. -/
theorem Requested.completed_after {k : ℕ} {row' : OtpCode}
    (hrow' : t.otpCodes.stored k = some row') (hdone : row'.requestCompletedAt.isSome) :
    t.Sends row'.requestKeyHash k := by
  rcases exec_row h hs.codes.rooted hrow' with ⟨row, hrow, heq⟩ | ⟨st, row, rfl, hrow, he⟩ |
    ⟨data, -, -, rfl, -⟩
  · obtain ⟨hbirth, hat⟩ := Prod.mk.inj heq
    rw [OtpCode.requestKeyHash_of_birth hbirth]
    exact (hs.codes.completed k row hrow (hat ▸ hdone)).after hs.codes hwf h
  · cases he with
    | complete k at_ =>
      obtain ⟨requestKeyHash, hpromised⟩ := hop.completes k at_ rfl
      have hsends := hs.promised i requestKeyHash k hpromised
      obtain ⟨row₁, hrow₁, hkey⟩ := hsends.key hs.codes
      cases hrow₁.symm.trans hrow
      show t.Sends row.requestKeyHash k
      exact hkey ▸ hsends.after hs.codes hwf h
    | _ => exact (hs.codes.completed k row hrow hdone).after hs.codes hwf h
  · cases hdone

omit hop in
/-- What a call is shown is so. -/
theorem Requested.promised_after {requestKeyHash : Digest} {k : ℕ}
    (hp : Promised requestKeyHash k ((s.after i op r t).trace j)) : t.Sends requestKeyHash k := by
  obtain ⟨e, he, hp⟩ := hp
  rcases State.mem_trace_after he with hold | ⟨-, rfl⟩
  · exact (hs.promised j requestKeyHash k ⟨e, hold, hp⟩).after hs.codes hwf h
  · suffices hnow : s.shared.Sends requestKeyHash k ∨ t.Sends requestKeyHash k from
      hnow.elim (·.after hs.codes hwf h) id
    generalize heq : (⟨op, r⟩ : Exchange Statements) = e at hp
    cases hp with
    | byKey hid hdone =>
      cases heq
      obtain ⟨hstored, hkey, -⟩ := perform_foundRequest (perform_of_exec_ok h)
      exact .inl (hkey ▸ hid ▸ hs.codes.completed _ _ hstored hdone)
    | latest hid hkey hdone =>
      cases heq
      obtain ⟨hstored, -⟩ := perform_foundLatest (perform_of_exec_ok h)
      exact .inl (hkey ▸ hid ▸ hs.codes.completed _ _ hstored hdone)
    | @enqueued job htype hlink =>
      cases heq
      obtain ⟨hstored, hkey⟩ := perform_foundJob (perform_of_exec_ok h)
      exact .inl ⟨job.id, job.row, hstored, htype, hlink, hkey⟩
    | created htype hlink hdedupe =>
      cases heq
      exact .inr ⟨_, _, perform_createdJob (perform_of_exec_ok h), htype, hlink, hdedupe⟩
    | legacy =>
      cases heq
      obtain ⟨job, hstored, hlegacy⟩ := perform_foundLegacy (perform_of_exec_ok h)
      exact absurd hlegacy (hs.codes.not_legacy hstored _)

omit hop hwf in
/-- A row that was found was for the phone of its user. -/
theorem Requested.phones_after {requestKeyHash : Digest} {existing : Keyed OtpCode} {phone : String}
    (hp : Stead.foundRequest requestKeyHash existing phone ∈ (s.after i op r t).trace j) :
    t.phoneOf existing.row.userId = some phone := by
  rcases State.mem_trace_after hp with hold | ⟨-, heq⟩
  · exact phoneOf_after h (hs.phones j requestKeyHash existing phone hold)
  · cases heq
    obtain ⟨hstored, -, hphone, -⟩ := perform_foundRequest (perform_of_exec_ok h)
    obtain ⟨user, huser⟩ := Option.isSome_iff_exists.1 (hs.codes.owned _ _ hstored)
    have hphoneOf : s.shared.phoneOf existing.row.userId = some user.phone :=
      phoneOf_eq_some.2 ⟨user, huser, rfl⟩
    have hanswer : (s.shared.phoneOf existing.row.userId).getD "" = phone := hphone
    rw [hphoneOf] at hanswer
    exact phoneOf_after h (hphoneOf.trans (congrArg some hanswer))

omit hop in
/-- Two jobs have two keys. -/
theorem Requested.once_after {id id' : ℕ} {job job' : NotificationJob} {key : DedupeKey}
    (hjob : t.notificationJobs.stored id = some job)
    (hjob' : t.notificationJobs.stored id' = some job') (hkey : job.dedupeKey = some key)
    (hkey' : job'.dedupeKey = some key) : id = id' := by
  have hclash : ∀ {job job' : NotificationJob}, job.dedupeKey = some key →
      job'.dedupeKey = some key → job.clashes job' ≠ false := fun h h' ↦ by
    simp [NotificationJob.clashes, h, h']
  rcases hs.codes.job_from hwf h hjob with ⟨job₀, hjob₀, hpass⟩ | ⟨_, hcreate, rfl, -, hfree, -⟩ <;>
    rcases hs.codes.job_from hwf h hjob' with ⟨job₁, hjob₁, hpass'⟩ | ⟨_, _, rfl, -, hfree', -⟩
  · exact hs.codes.once id id' job₀ job₁ key hjob₀ hjob₁ (hpass.dedupeKey.symm.trans hkey)
      (hpass'.dedupeKey.symm.trans hkey')
  · exact absurd (hfree' id job₀ hjob₀) (hclash hkey' (hpass.dedupeKey.symm.trans hkey))
  · exact absurd (hfree id' job₁ hjob₁) (hclash hkey (hpass'.dedupeKey.symm.trans hkey'))
  · rfl

/-- **A statement** leaves every code with its job. -/
theorem Requested.after : Requested env (s.after i op r t) where
  chronicle := hs.chronicle.after h
  codes :=
    { rooted := exec_rooted request_keptInTx h hs.codes.rooted
      owned := fun k row hrow ↦ by
        rcases exec_birth h hs.codes.rooted_birth hrow with ⟨row₀, hrow₀, hbirth⟩ |
          ⟨data, -, -, rfl, huser, -⟩
        · obtain ⟨user, huser⟩ := Option.isSome_iff_exists.1 (hs.codes.owned k row₀ hrow₀)
          rw [OtpCode.userId_of_birth hbirth]
          exact Option.isSome_of_eq_some (exec_users h huser)
        · obtain ⟨user, huser⟩ := Option.isSome_iff_exists.1 huser
          exact Option.isSome_of_eq_some (exec_users h huser)
      once := fun _ _ _ _ _ hjob hjob' hkey hkey' ↦ hs.once_after hwf h hjob hjob' hkey hkey'
      sent := fun _ _ hjob htype ↦ hs.sent_after hop hwf h hjob htype
      completed := fun _ _ hrow hdone ↦ hs.completed_after hop hwf h hrow hdone }
  promised _ _ _ hp := hs.promised_after hwf h hp
  phones _ _ _ _ hp := hs.phones_after h hp
  kept e he id job key hjob hkey := by
    rw [State.after_log, List.mem_append, List.mem_singleton] at he
    rcases he with he | rfl
    · obtain ⟨job₀, hjob₀, hkey₀⟩ := hs.kept e he id job key hjob hkey
      obtain ⟨job', hjob', hpass⟩ := hs.codes.job_passes hwf h hjob₀
      exact ⟨job', hjob', hpass.dedupeKey.trans hkey₀⟩
    · exact ⟨job, hjob, hkey⟩

end Steps

/-- **The loss of a thread** leaves every code with its job. -/
theorem Requested.lost (hs : Requested env s) (i : ι) :
    Requested env (s.setShared (s.shared.rollback i)) := by
  have hstored : ∀ {k row}, (s.shared.rollback i).otpCodes.stored k = some row →
      s.shared.otpCodes.stored k = some row :=
    fun {k row} hrow ↦ (s.shared.rollback_codes_stored i k).symm.trans hrow
  refine ⟨hs.chronicle.lost i, ⟨rollback_rooted hs.codes.rooted i, fun k row hrow ↦
    hs.codes.owned k row (hstored hrow), hs.codes.once, fun id job hjob htype ↦ ?_, fun k row hrow ↦
      hs.codes.completed k row (hstored hrow)⟩, hs.promised, hs.phones, hs.kept⟩
  obtain ⟨k, row, hrow, hrest⟩ := hs.codes.sent id job hjob htype
  exact ⟨k, row, (s.shared.rollback_codes_stored i k).trans hrow, hrest⟩

/-- The row that is answered from is of the phone. -/
theorem Requested.forPhone (hs : Requested env s) {phone : String} {k : ℕ}
    (h : ForPhone phone k (s.trace i)) {row : OtpCode}
    (hrow : s.shared.otpCodes.stored k = some row) : s.shared.phoneOf row.userId = some phone := by
  cases h with
  | found h hid =>
    subst hid
    rw [OtpCode.userId_of_birth (hs.chronicle.foundRequest h hrow)]
    exact hs.phones i _ _ phone h
  | latest huser h hid =>
    subst hid
    rw [hs.chronicle.foundLatest h hrow]
    exact hs.chronicle.upserted huser
  | created huser h =>
    have hbirth := hs.chronicle.createdCode h hrow
    have huserId : row.userId = _ := congrArg NewOtpCode.userId hbirth
    rw [huserId]
    exact hs.chronicle.upserted huser

end Invariant

/-! ### Runs -/

/-- **The requests of every run.** -/
theorem requested_run (env : Env) {w : World ι} (hw : CodesSent env w) (calls : ι → ApiCall)
    {c : System ι} (hc : System.Reaches env .all (System.start env w calls) c) :
    Requested env c.state ∧ ∀ i response, c.Answered i (.ok response) →
      (calls i).RequestedBy env (c.state.trace i) response := by
  have hstart : Requested env (⟨w, []⟩ : History ι) := by
    refine ⟨⟨hw.rooted_birth, fun e he ↦ absurd he List.not_mem_nil,
      fun e he ↦ absurd he List.not_mem_nil⟩, hw, fun i requestKeyHash k hp ↦ ?_,
      fun i requestKeyHash existing phone hp ↦ absurd hp List.not_mem_nil,
      fun e he ↦ absurd he List.not_mem_nil⟩
    obtain ⟨e, he, -⟩ := hp
    exact absurd he List.not_mem_nil
  have h := Run.invariant_keeps (I := Requested env) hc
    (Config.keeps_start fun i ↦ (@program_requests env (calls i)).and_all
      ((calls i).wellFormed env)) hstart
    (fun s i x op r t hs hop _ hx ↦ hs.after hop.1 hop.2 hx) fun s i hs _ ↦ hs.lost i
  exact ⟨h.1, fun i response ha ↦ h.2.answer ha⟩

/-- The code of a request has been sent: its job, linked to the row that has the key, carries the code
whose hash is stored there, and there has been no other job with the key. -/
structure CodeSent (env : Env) (s : History ι) (phone : String) (requestKeyHash : Digest) (k id : ℕ)
    (row : OtpCode) (job : NotificationJob) : Prop where
  stored : s.shared.otpCodes.stored k = some row
  keyed : row.requestKeyHash = requestKeyHash
  owned : s.shared.phoneOf row.userId = some phone
  enqueued : s.shared.notificationJobs.stored id = some job
  link : job.SendsCode k requestKeyHash
  carries : s.shared.Carries env row job.payloadJson
  only : ∀ e ∈ s.log, ∀ id' job', e.after.notificationJobs.stored id' = some job' →
    job'.dedupeKey = some (otpNotificationDedupeKey requestKeyHash) → id' = id

/-- What a call was shown of the job of a row, and of the phone of its user, is the code that has
been sent. -/
theorem Requested.codeSent {env : Env} {s : History ι} {i : ι} {phone : String}
    {requestKeyHash : Digest} {k : ℕ} (hs : Requested env s)
    (hpromised : Promised requestKeyHash k (s.trace i)) (hphone : ForPhone phone k (s.trace i)) :
    ∃ id row job, CodeSent env s phone requestKeyHash k id row job := by
  obtain ⟨id, job, hjob, hlink⟩ := hs.promised i requestKeyHash k hpromised
  obtain ⟨k', row, hrow, hsends, hcarries⟩ := hs.codes.sent id job hjob hlink.type
  obtain rfl := Option.some.inj (hsends.otpCodeId.symm.trans hlink.otpCodeId)
  have hkey : row.requestKeyHash = requestKeyHash :=
    DedupeKey.otpRequested.inj (Option.some.inj (hsends.dedupeKey.symm.trans hlink.dedupeKey))
  refine ⟨id, row, job, hrow, hkey, hs.forPhone hphone hrow, hjob, hlink, hcarries,
    fun e he id' job' hjob' hkey' ↦ ?_⟩
  obtain ⟨job'', hjob'', hkey''⟩ := hs.kept e he id' job' _ hjob' hkey'
  exact hs.codes.once id' id job'' job _ hjob'' hjob hkey'' hlink.dedupeKey

/-- **An answered request has sent its code**, once. From a database in which every job of a code is
the one of its row, and every row that is marked completed has its job (`CodesSent.completed`), in
every state that is reached once a request has been answered: there is the row with its key, of a
user with its phone number, and the one job that has ever been enqueued for this key, linked to this
row and with the code whose hash is stored there. The other calls of the run are those of `ApiCall`,
in any number and order, with any failures and crashes; the deletion of accounts, which removes rows
and jobs, is not among them. -/
theorem requests_send_codes (env : Env) {w : World ι} (hw : CodesSent env w) (calls : ι → ApiCall)
    {c : System ι} (hc : System.Reaches env .all (System.start env w calls) c) {i : ι}
    {phone countryIso : String} {context : OtpRequestContext}
    (hcall : calls i = .requestOtp phone countryIso context) {response : ApiResponse}
    (ha : c.Answered i (.ok response)) :
    ∃ normalizedPhone requestKeyHash k id row job,
      (calls i).Requests env normalizedPhone requestKeyHash ∧
        CodeSent env c.state normalizedPhone requestKeyHash k id row job := by
  obtain ⟨hs, hanswered⟩ := requested_run env hw calls hc
  obtain ⟨normalizedPhone, requestKeyHash, hrequests, k, hpromised, hphone⟩ :=
    hanswered i response ha phone countryIso context hcall
  obtain ⟨id, row, job, hsent⟩ := hs.codeSent hpromised hphone
  exact ⟨normalizedPhone, requestKeyHash, k, id, row, job, hrequests, hsent⟩

namespace Demo

theorem codesSent_world : CodesSent env world := .of_empty rfl rfl

/-- A request, and the same again. -/
def sentAgainCalls : ℕ → ApiCall := fun _ ↦ requestOtp '0'

/-- Thread 1 has been answered, from what thread 0 has done before it was lost. -/
theorem sentAgain_runs : ((System.start env world sentAgainCalls).turns (machine ℕ crypto) anything
    (steps 0 17 ++ steps 1 5)).any (fun c ↦
      (c.progs 1).bind Prog.outcome = some (.ok (.requested ⟨true, none⟩))) = true := by
  decide +kernel

/-- The system after a request and its repetition. -/
def sentAgain : System ℕ :=
  after (System.start env world sentAgainCalls) _ _ (Option.isSome_of_any sentAgain_runs)

theorem sentAgain_tests :
    (sentAgain.progs 1).bind Prog.outcome = some (.ok (.requested ⟨true, none⟩)) :=
  of_decide_eq_true (Config.afterTurns_of_any sentAgain_runs)

end Demo

theorem requests_send_codes_sent : ∃ normalizedPhone requestKeyHash k id row job,
    (Demo.sentAgainCalls 1).Requests Demo.env normalizedPhone requestKeyHash ∧
      CodeSent Demo.env Demo.sentAgain.state normalizedPhone requestKeyHash k id row job :=
  requests_send_codes Demo.env Demo.codesSent_world Demo.sentAgainCalls (Demo.reaches_after _ _ _)
    (i := 1) rfl (Config.answered_iff.2 Demo.sentAgain_tests)

end Stead
