import Stead.Model.Logic
import Stead.Otp.Rows

/-!
# What an answered request promises

A request is answered, or its row marked as completed, only when the call has seen the job of the
row or has enqueued it (`Promises`, `RequestStatement`); and a job is enqueued with the code whose
hash the call has stored in the row (`Publishes`). `program_requests` says that every call keeps to
this.

## Three ways to a promise

A call knows of the job of a row because it was answered the row of the job, because it has inserted
or adopted the job, or because it read that the row is completed, which another call has promised
(`Promised`). Each of the parts of a request ends with one of these, and a trace that is extended
keeps it (`Promised.append`).

## Parts of other calls

Most statements are plain: they neither complete a row nor enqueue a job for a code. Whole calls are
plain by their footprints (`Op.plain_of`), so the case split over the statements is made once.
-/

namespace Stead

open Concurrency

/-- The job sends the code of row `k`, to which it is linked under the key of the request. -/
structure NotificationJob.SendsCode (job : NotificationJob) (k : ℕ) (requestKeyHash : Digest) :
    Prop where
  type : job.type = .otpRequested
  otpCodeId : job.otpCodeId = some k
  dedupeKey : job.dedupeKey = some (otpNotificationDedupeKey requestKeyHash)

/-! ### What a call has to go on -/

/-- A row has been created. -/
def createdCode (data : NewOtpCode) (k : ℕ) : Exchange Statements :=
  ⟨.otpCode (.create data), .ok k⟩

/-- A code has been hashed. -/
def hashedCode (otp : String) (codeHash : Digest) : Exchange Statements :=
  ⟨.host (.bcryptHash otp), .ok codeHash⟩

/-- The user of a phone number has been found or created. -/
def upserted (phone : String) (user : Keyed User) : Exchange Statements :=
  ⟨.user (.upsert phone), .ok user⟩

/-- The row of a request has been found. -/
def foundRequest (requestKeyHash : Digest) (existing : Keyed OtpCode) (phone : String) :
    Exchange Statements :=
  ⟨.otpCode (.findByRequestKey requestKeyHash), .ok (some (existing, phone))⟩

/-- The latest row of a user within the cooldown has been found. -/
def foundLatest (userId : ℕ) (after : ℤ) (latestOtp : Keyed OtpCode) : Exchange Statements :=
  ⟨.otpCode (.findLatestAfter userId after), .ok (some latestOtp)⟩

/-- The answer shows that the code of row `k` is on its way, the row of a request with this key: the
row was completed, or its job was there or was enqueued. The last case is of databases with jobs from
before jobs were linked. -/
inductive Promises (requestKeyHash : Digest) (k : ℕ) : Exchange Statements → Prop
  | byKey {existing : Keyed OtpCode} {phone : String} (hid : existing.id = k)
      (hdone : existing.row.requestCompletedAt.isSome) :
      Promises requestKeyHash k (foundRequest requestKeyHash existing phone)
  | latest {userId : ℕ} {after : ℤ} {latestOtp : Keyed OtpCode} (hid : latestOtp.id = k)
      (hkey : latestOtp.row.requestKeyHash = requestKeyHash)
      (hdone : latestOtp.row.requestCompletedAt.isSome) :
      Promises requestKeyHash k (foundLatest userId after latestOtp)
  | enqueued {job : Keyed NotificationJob} (htype : job.row.type = .otpRequested)
      (hlink : job.row.otpCodeId = some k) : Promises requestKeyHash k
        ⟨.notificationJob (.findByDedupeKey (otpNotificationDedupeKey requestKeyHash)),
          .ok (some job)⟩
  | created {data : NewNotificationJob} {id : ℕ} (htype : data.type = .otpRequested)
      (hlink : data.otpCodeId = some k)
      (hdedupe : data.dedupeKey = some (otpNotificationDedupeKey requestKeyHash)) :
      Promises requestKeyHash k ⟨.notificationJob (.create data), .ok id⟩
  | legacy {userId id : ℕ} {since until_ : ℤ} : Promises requestKeyHash k
      ⟨.notificationJob (.findLegacyOtp userId since until_), .ok (some id)⟩

/-- A call has been shown that the code of row `k` is on its way. -/
def Promised (requestKeyHash : Digest) (k : ℕ) (trace : List (Exchange Statements)) : Prop :=
  ∃ e ∈ trace, Promises requestKeyHash k e

theorem Promised.append {requestKeyHash : Digest} {k : ℕ} {trace trace' : List (Exchange Statements)}
    (h : Promised requestKeyHash k trace) (hext : trace <+: trace') :
    Promised requestKeyHash k trace' :=
  h.imp fun _ h ↦ ⟨hext.subset h.1, h.2⟩

/-- Row `k` is of a user with this phone number, as the call has seen it. -/
inductive ForPhone (phone : String) (k : ℕ) (trace : List (Exchange Statements)) : Prop
  | found {requestKeyHash : Digest} {existing : Keyed OtpCode}
      (h : foundRequest requestKeyHash existing phone ∈ trace) (hid : existing.id = k)
  | latest {user : Keyed User} {after : ℤ} {latestOtp : Keyed OtpCode}
      (huser : upserted phone user ∈ trace) (h : foundLatest user.id after latestOtp ∈ trace)
      (hid : latestOtp.id = k)
  | created {data : NewOtpCode} {user : User} (huser : upserted phone ⟨data.userId, user⟩ ∈ trace)
      (h : createdCode data k ∈ trace)

/-- What a request is answered from: a row of the phone with this key, whose code is on its way. -/
def Answers (phone : String) (requestKeyHash : Digest) (trace : List (Exchange Statements)) : Prop :=
  ∃ k, Promised requestKeyHash k trace ∧ ForPhone phone k trace

/-- The payload of a job, sealed. -/
def sealedPayload (env : Env) (secret : String) (iv : ℕ) (payload : PayloadRecord) : PayloadJson :=
  .record ⟨none, none, none, none, some ⟨iv, (env.crypto.sealPayload secret iv payload).2,
    (env.crypto.sealPayload secret iv payload).1⟩⟩

/-- The call has created a row, for the code it has hashed and the user of the phone. -/
structure Stores (row : NewOtpCode) (otp phone : String) (k : ℕ)
    (trace : List (Exchange Statements)) : Prop where
  created : createdCode row k ∈ trace
  hashed : hashedCode otp row.codeHash ∈ trace
  user : ∃ user, upserted phone ⟨row.userId, user⟩ ∈ trace

theorem Stores.append {row : NewOtpCode} {otp phone : String} {k : ℕ}
    {trace trace' : List (Exchange Statements)} (h : Stores row otp phone k trace)
    (hext : trace <+: trace') : Stores row otp phone k trace' :=
  ⟨hext.subset h.created, hext.subset h.hashed, h.user.imp fun _ h ↦ hext.subset h⟩

/-- A job is enqueued for a row that the call has stored, with the code and the phone it has stored
it for. -/
inductive Publishes (env : Env) (trace : List (Exchange Statements)) (data : NewNotificationJob)
    (k : ℕ) : Prop
  | intro (row : NewOtpCode) (otp phone secret : String) (iv : ℕ)
      (hstores : Stores row otp phone k trace) (htype : data.type = .otpRequested)
      (hdedupe : data.dedupeKey = some (otpNotificationDedupeKey row.requestKeyHash))
      (hsecret : encryptionKey env = .ok secret)
      (hpayload : data.payloadJson = sealedPayload env secret iv (otpPayload phone otp))

/-- What a statement of a call has to go on: a row is completed when its code is on its way, and a
job is enqueued for a row with its code. -/
structure RequestStatement (env : Env) (trace : List (Exchange Statements)) (op : Op) : Prop where
  completes : ∀ k at_, op = .otpCode (.complete k at_) →
    ∃ requestKeyHash, Promised requestKeyHash k trace
  enqueues : ∀ data k, op = .notificationJob (.create data) → data.otpCodeId = some k →
    Publishes env trace data k

/-- Statements that neither complete a request nor enqueue a code. -/
def Op.Plain : Op → Prop
  | .otpCode (.complete _ _) => False
  | .notificationJob (.create data) => data.otpCodeId = none
  | _ => True

section Programs

variable {env : Env} {trace : List (Exchange Statements)} {α : Type}

theorem RequestStatement.of_plain {op : Op} (h : op.Plain) : RequestStatement env trace op where
  completes := by
    rintro k at_ rfl
    cases h
  enqueues := by
    rintro data k rfl hlink
    have hnone : data.otpCodeId = none := h
    cases hnone.symm.trans hlink

/-- A row is completed after its promise. -/
theorem RequestStatement.of_complete {k : ℕ} {at_ : ℤ} {requestKeyHash : Digest}
    (h : Promised requestKeyHash k trace) : RequestStatement env trace (.otpCode (.complete k at_)) where
  completes := by
    rintro k' at_' hop
    cases hop
    exact ⟨_, h⟩
  enqueues := by
    rintro data k' hop
    cases hop

/-- Statements of a kind that neither completes a request nor enqueues a job. -/
theorem Op.plain_of {C : Op → Prop} (hcomplete : ∀ k at_, ¬ C (.otpCode (.complete k at_)))
    (henqueue : ∀ data, ¬ C (.notificationJob (.create data))) {op : Op} (h : C op) :
    op.Plain := by
  unfold Op.Plain
  split
  · exact hcomplete _ _ h
  · exact absurd h (henqueue _)
  · trivial

theorem Op.plain_of_looks {op : Op} (h : op.looks = true) : op.Plain :=
  Op.plain_of (C := fun op ↦ op.looks = true) (fun _ _ h ↦ by cases h) (fun _ h ↦ by cases h) h

theorem Op.Issues.plain {op : Op} (h : op.Issues) : op.Plain :=
  Op.plain_of (C := Op.Issues) (fun _ _ h ↦ by cases h) (fun _ h ↦ by cases h) h

theorem Op.Consumes.plain {op : Op} (h : op.Consumes) : op.Plain :=
  Op.plain_of (C := Op.Consumes) (fun _ _ h ↦ by cases h) (fun _ h ↦ by cases h) h

/-- A program that neither completes a request nor enqueues a code. -/
theorem plain_bind {β : Type} {p : Call β} {f : β → Call α}
    {Q : List (Exchange Statements) → α → Prop} (h : p.All Op.Plain)
    (hf : ∀ trace' b, trace <+: trace' →
      (f b).Keeps (RequestStatement env) Q (fun _ _ ↦ True) trace') :
    (p >>= f).Keeps (RequestStatement env) Q (fun _ _ ↦ True) trace :=
  h.keeps_bind (fun _ _ _ hop ↦ .of_plain hop) hf fun _ _ _ ↦ trivial

/-! ### Looking for the job -/

variable {requestKeyHash : Digest}

/-- A job is there for the row only if its code is on its way. -/
theorem isOtpRequestEnqueued_keeps (k : ℕ) :
    (isOtpRequestEnqueued (otpNotificationDedupeKey requestKeyHash) k).Keeps (RequestStatement env)
      (fun trace' found ↦ trace <+: trace' ∧ (found = true → Promised requestKeyHash k trace'))
      (fun _ _ ↦ True) trace := by
  refine keeps_run_bind (.of_plain trivial) (fun job ↦ ?_) fun _ ↦ trivial
  cases job with
  | none => exact ⟨List.prefix_append _ _, nofun⟩
  | some job =>
    refine ⟨List.prefix_append _ _, fun hfound ↦ ⟨_, List.mem_append_right _
      (List.mem_singleton_self _), ?_⟩⟩
    simp only [Bool.and_eq_true, decide_eq_true_eq] at hfound
    exact .enqueued hfound.1 hfound.2

/-- A job that is adopted is the row's from then on. -/
theorem adoptLegacyOtpRequest_keeps (userId k : ℕ) (requestedAt expiresAt : ℤ) :
    (adoptLegacyOtpRequest userId k (otpNotificationDedupeKey requestKeyHash) requestedAt
      expiresAt).Keeps (RequestStatement env)
      (fun trace' found ↦ trace <+: trace' ∧ (found = true → Promised requestKeyHash k trace'))
      (fun _ _ ↦ True) trace := by
  refine keeps_run_bind (.of_plain trivial) (fun legacyJob ↦ ?_) fun _ ↦ trivial
  cases legacyJob with
  | none => exact ⟨List.prefix_append _ _, nofun⟩
  | some legacyJob =>
    have hpromised : Promised requestKeyHash k (trace ++
        [⟨.notificationJob (.findLegacyOtp userId requestedAt expiresAt), .ok (some legacyJob)⟩]) :=
      ⟨_, List.mem_append_right _ (List.mem_singleton_self _), .legacy⟩
    refine plain_bind (.run trivial) fun trace₁ correlationId hext₁ ↦ ?_
    refine plain_bind (.tryCatch (.run trivial) fun e ↦ .ite (fun _ ↦ trivial) fun _ ↦ trivial)
      fun trace₂ adopted hext₂ ↦ .ite (fun _ ↦ ?_) fun _ ↦ ?_
    · exact ⟨(List.prefix_append _ _).trans (hext₁.trans hext₂),
        fun _ ↦ hpromised.append (hext₁.trans hext₂)⟩
    · refine (isOtpRequestEnqueued_keeps k).mono (fun trace₃ b h ↦ ?_) fun _ _ _ ↦ trivial
      exact ⟨(List.prefix_append _ _).trans (hext₁.trans (hext₂.trans h.1)), h.2⟩

/-- Who finds the job, or adopts one, may promise it. -/
theorem isEnqueuedOrAdopted_keeps (existing : Keyed OtpCode) :
    (isEnqueuedOrAdopted existing (otpNotificationDedupeKey requestKeyHash)).Keeps
      (RequestStatement env)
      (fun trace' found ↦ trace <+: trace' ∧
        (found = true → Promised requestKeyHash existing.id trace'))
      (fun _ _ ↦ True) trace := by
  refine .bind (isOtpRequestEnqueued_keeps existing.id) fun trace₁ found h₁ ↦
    .ite (fun hfound ↦ ⟨h₁.1, fun _ ↦ h₁.2 hfound⟩) fun _ ↦ ?_
  exact (adoptLegacyOtpRequest_keeps _ _ _ _).mono (fun _ _ h ↦ ⟨h₁.1.trans h.1, h.2⟩)
    fun _ _ _ ↦ trivial

/-! ### Replaying -/

/-- What is completed was promised. -/
theorem completeOtpRequest_keeps {existing : Keyed OtpCode}
    (h : Promised requestKeyHash existing.id trace) :
    (completeOtpRequest env existing).Keeps (RequestStatement env)
      (fun trace' _ ↦ trace <+: trace' ∧ Promised requestKeyHash existing.id trace')
      (fun _ _ ↦ True) trace := by
  refine keeps_run_bind (.of_plain trivial) (fun now ↦ ?_) fun _ ↦ trivial
  refine keeps_run_bind (.of_complete (h.append (List.prefix_append _ _))) (fun _ ↦ ?_)
    fun _ ↦ trivial
  have hext := (List.prefix_append trace [(⟨.host .now, .ok now⟩ : Exchange Statements)]).trans
    (List.prefix_append _ [⟨.otpCode (.complete existing.id now), .ok ()⟩])
  exact ⟨hext, h.append hext⟩

/-- A row whose job is there after all is completed. -/
theorem removeStaleOtpRequest_keeps (existing : Keyed OtpCode) (processingDeadline : ℤ) :
    (removeStaleOtpRequest env requestKeyHash existing processingDeadline).Keeps
      (RequestStatement env)
      (fun trace' replay ↦ trace <+: trace' ∧
        (replay.isSome → Promised requestKeyHash existing.id trace'))
      (fun _ _ ↦ True) trace := by
  refine .tryCatch (F := fun trace' _ ↦ trace <+: trace') ?_ fun trace₁ e hext₁ ↦
    .ite (fun _ ↦ ?_) fun _ ↦ trivial
  · refine keeps_run_bind (.of_plain trivial) (fun deleted ↦ ?_) fun _ ↦ List.prefix_append _ _
    exact .ite (fun _ ↦ ⟨List.prefix_append _ _, nofun⟩) fun _ ↦ List.prefix_append _ _
  · refine .bind (isOtpRequestEnqueued_keeps existing.id) fun trace₂ found h₂ ↦
      .ite (fun hfound ↦ ?_) fun _ ↦ trivial
    exact .bind (completeOtpRequest_keeps (h₂.2 hfound)) fun trace₃ _ h₃ ↦
      ⟨hext₁.trans (h₂.1.trans h₃.1), fun _ ↦ h₃.2⟩

/-- **A replay** answers from the row that was found. -/
theorem replayOtpRequest_keeps (normalizedPhone : String) :
    (replayOtpRequest env requestKeyHash normalizedPhone).Keeps (RequestStatement env)
      (fun trace' replay ↦ trace <+: trace' ∧
        (replay.isSome → Answers normalizedPhone requestKeyHash trace'))
      (fun _ _ ↦ True) trace := by
  refine keeps_run_bind (.of_plain trivial) (fun found ↦ ?_) fun _ ↦ trivial
  match found with
  | none => exact ⟨List.prefix_append _ _, nofun⟩
  | some (existing, phone) =>
    refine .ite (fun _ ↦ trivial) fun hphone ↦ ?_
    obtain rfl : phone = normalizedPhone := not_not.1 hphone
    -- What is answered from now on is answered from the row that was found.
    have hmem : foundRequest requestKeyHash existing phone ∈ trace ++
        [foundRequest requestKeyHash existing phone] := List.mem_append_right _
      (List.mem_singleton_self _)
    have hanswers : ∀ {trace'}, trace ++ [foundRequest requestKeyHash existing phone] <+: trace' →
        Promised requestKeyHash existing.id trace' → Answers phone requestKeyHash trace' :=
      fun hext hpromised ↦ ⟨_, hpromised, .found (hext.subset hmem) rfl⟩
    have hext₀ := List.prefix_append trace [foundRequest requestKeyHash existing phone]
    refine .ite (fun hdone ↦ ?_) fun _ ↦ ?_
    · exact ⟨hext₀, fun _ ↦ hanswers (List.prefix_refl _) ⟨_, hmem, .byKey rfl hdone⟩⟩
    refine .bind (isEnqueuedOrAdopted_keeps existing) fun trace₁ enqueued h₁ ↦
      .ite (fun henqueued ↦ ?_) fun _ ↦ ?_
    · exact .bind (completeOtpRequest_keeps (h₁.2 henqueued)) fun trace₂ _ h₂ ↦
        ⟨hext₀.trans (h₁.1.trans h₂.1), fun _ ↦ hanswers (h₁.1.trans h₂.1) h₂.2⟩
    · refine plain_bind (.run trivial) fun trace₂ now hext₂ ↦ .ite (fun _ ↦ ?_) fun _ ↦ trivial
      refine (removeStaleOtpRequest_keeps existing _).mono (fun trace₃ replay h₃ ↦ ?_)
        fun _ _ _ ↦ trivial
      have hext := h₁.1.trans (hext₂.trans h₃.1)
      exact ⟨hext₀.trans hext, fun hsome ↦ hanswers hext (h₃.2 hsome)⟩

/-! ### A new code -/

/-- A payload is sealed under the configured secret. -/
theorem encryptPayload_keeps (payload : PayloadRecord) :
    (encryptPayload env payload).Keeps (RequestStatement env)
      (fun trace' json ↦ trace <+: trace' ∧ ∃ secret iv, encryptionKey env = .ok secret ∧
        json = sealedPayload env secret iv payload) (fun _ _ ↦ True) trace := by
  refine keeps_run_bind (.of_plain trivial) (fun iv ↦ ?_) fun _ ↦ trivial
  exact keeps_lift_bind (fun secret hsecret ↦ ⟨List.prefix_append _ _, secret, iv, hsecret, rfl⟩)
    fun _ ↦ trivial

/-- **The job** is inserted with the code of the row, or is found. -/
theorem enqueueOtpRequested_keeps {row : NewOtpCode} {otp phone : String} {userId k : ℕ}
    (h : Stores row otp phone k trace) :
    (enqueueOtpRequested env (otpPayload phone otp) userId k
      (otpNotificationDedupeKey row.requestKeyHash)).Keeps (RequestStatement env)
      (fun trace' _ ↦ trace <+: trace' ∧ Promised row.requestKeyHash k trace')
      (fun _ _ ↦ True) trace := by
  refine .bind (encryptPayload_keeps _) fun trace₁ payloadJson ⟨hext₁, secret, iv, hsecret, hjson⟩ ↦ ?_
  refine plain_bind (.run trivial) fun trace₂ correlationId hext₂ ↦ ?_
  refine plain_bind (.run trivial) fun trace₃ nextRunAt hext₃ ↦ ?_
  have hext := hext₁.trans (hext₂.trans hext₃)
  refine .tryCatch (F := fun trace' _ ↦ trace <+: trace') ⟨⟨nofun, fun data k' hop hlink ↦ ?_⟩,
    fun r ↦ ?_⟩ fun trace₄ e hext₄ ↦ .ite (fun _ ↦ ?_) fun _ ↦ trivial
  · cases hop
    cases hlink
    exact ⟨row, otp, phone, secret, iv, h.append hext, rfl, rfl, hsecret, hjson⟩
  · have hext' := hext.trans (List.prefix_append trace₃ [⟨_, r⟩])
    cases r with
    | error e => exact hext'
    | ok id =>
      exact ⟨hext', _, List.mem_append_right _ (List.mem_singleton_self _), .created rfl rfl rfl⟩
  · refine keeps_run_bind (.of_plain trivial) (fun existing ↦ ?_) fun _ ↦ trivial
    cases existing with
    | none => trivial
    | some existing =>
      refine .ite (fun hfound ↦ ?_) fun _ ↦ trivial
      simp only [Bool.and_eq_true, decide_eq_true_eq] at hfound
      exact ⟨hext₄.trans (List.prefix_append _ _), _, List.mem_append_right _
        (List.mem_singleton_self _), .enqueued hfound.1 hfound.2⟩

/-- **A code** is published before its row is completed. -/
theorem publishOtpCode_keeps {row : NewOtpCode} {otp phone : String} {userId k : ℕ}
    (ip : Option String) (deviceHash : Option Digest) (developmentOtp : Option String)
    (h : Stores row otp phone k trace) :
    (publishOtpCode env phone ip deviceHash row.requestKeyHash userId k otp developmentOtp).Keeps
      (RequestStatement env) (fun trace' _ ↦ Answers phone row.requestKeyHash trace')
      (fun _ _ ↦ True) trace := by
  have hrecord : ∀ data, (recordEvent data).All Op.Plain := fun _ ↦ .run trivial
  refine plain_bind (.tryCatch (hrecord _) fun e ↦ ?_) fun trace₁ _ hext₁ ↦ ?_
  · exact .bind (.tryCatch (.run_bind trivial fun _ ↦ trivial) fun _ ↦ trivial) fun _ ↦ trivial
  refine .bind (enqueueOtpRequested_keeps (h.append hext₁)) fun trace₂ _ ⟨hext₂, hpromised⟩ ↦ ?_
  refine plain_bind (.run trivial) fun trace₃ now hext₃ ↦ ?_
  refine keeps_run_bind (.of_complete (hpromised.append hext₃)) (fun _ ↦ ?_) fun _ ↦ trivial
  have hext := hext₃.trans (List.prefix_append trace₃ [⟨.otpCode (.complete k now), .ok ()⟩])
  obtain ⟨hcreated, -, user, huser⟩ := h.append (hext₁.trans (hext₂.trans hext))
  exact ⟨k, hpromised.append hext, .created huser hcreated⟩

/-- **A row** that is created is published, and one that was there is replayed. -/
theorem createOtpCode_keeps {phone : String} {userId : ℕ} (user : User) (ip : Option String)
    (deviceHash : Option Digest) (huser : upserted phone ⟨userId, user⟩ ∈ trace) :
    (createOtpCode env phone ip deviceHash requestKeyHash userId).Keeps (RequestStatement env)
      (fun trace' _ ↦ Answers phone requestKeyHash trace') (fun _ _ ↦ True) trace := by
  refine plain_bind (.run trivial) fun trace₁ otp hext₁ ↦ ?_
  refine keeps_run_bind (.of_plain trivial) (fun codeHash ↦ ?_) fun _ ↦ trivial
  have hhashed : hashedCode otp codeHash ∈ trace₁ ++ [hashedCode otp codeHash] :=
    List.mem_append_right _ (List.mem_singleton_self _)
  have huser₁ := (hext₁.trans (List.prefix_append _ [hashedCode otp codeHash])).subset huser
  refine plain_bind (.run trivial) fun trace₂ now hext₂ ↦ ?_
  set row : NewOtpCode := ⟨userId, codeHash, requestKeyHash,
    if env.config.DEV_EXPOSE_OTP then some otp else none, now + OTP_LIFETIME_MS⟩ with hrow
  refine .bind (R := fun trace' created ↦ match created with
      | .inl k => Stores row otp phone k trace'
      | .inr _ => Answers phone requestKeyHash trace')
    (.tryCatch (F := fun _ _ ↦ True) ?_ fun trace₃ e _ ↦ .ite (fun _ ↦ ?_) fun _ ↦ trivial)
    fun trace₃ created h₃ ↦ ?_
  · refine keeps_run_bind (.of_plain trivial) (fun k ↦ ?_) fun _ ↦ trivial
    have hext := hext₂.trans (List.prefix_append trace₂ [createdCode row k])
    exact ⟨List.mem_append_right _ (List.mem_singleton_self _), hext.subset hhashed, user,
      hext.subset huser₁⟩
  · refine .bind (replayOtpRequest_keeps phone) fun trace₄ replay h₄ ↦ ?_
    cases replay with
    | none => trivial
    | some replay => exact h₄.2 rfl
  · cases created with
    | inl k => exact publishOtpCode_keeps ip deviceHash _ h₃
    | inr replay => exact h₃

/-- The checks before that promise nothing. -/
theorem issueOtpCode_keeps {phone : String} (ip : Option String) (deviceHash : Option Digest)
    (oneHourAgo : ℤ) :
    (issueOtpCode env phone ip deviceHash requestKeyHash oneHourAgo).Keeps (RequestStatement env)
      (fun trace' _ ↦ Answers phone requestKeyHash trace') (fun _ _ ↦ True) trace := by
  refine plain_bind (.run trivial) fun trace₁ recent hext₁ ↦ .ite (fun _ ↦ ?_) fun _ ↦ ?_
  · exact plain_bind (.run trivial) fun _ _ _ ↦ trivial
  refine keeps_run_bind (.of_plain trivial) (fun user ↦ ?_) fun _ ↦ trivial
  have huser : upserted phone user ∈ trace₁ ++ [upserted phone user] :=
    List.mem_append_right _ (List.mem_singleton_self _)
  refine plain_bind (.run trivial) fun trace₂ now hext₂ ↦ ?_
  refine keeps_run_bind (.of_plain trivial) (fun latestOtp ↦ ?_) fun _ ↦ trivial
  cases latestOtp with
  | none =>
    exact createOtpCode_keeps user.row ip deviceHash
      ((hext₂.trans (List.prefix_append _ _)).subset huser)
  | some latestOtp =>
    refine .ite (fun hkey ↦ .ite (fun hdone ↦ ?_) fun _ ↦ trivial) fun _ ↦ ?_
    · have hmem := List.mem_append_right trace₂ (List.mem_singleton_self (foundLatest user.id
        (now - (env.config.otpResendCooldownMs : ℤ)) latestOtp))
      exact ⟨latestOtp.id, ⟨_, hmem, .latest rfl hkey hdone⟩, .latest
        ((hext₂.trans (List.prefix_append _ _)).subset huser) hmem rfl⟩
    · exact plain_bind (.run trivial) fun _ _ _ ↦ trivial

/-! ### All calls -/

/-- A request for a phone number, under a key. -/
def ApiCall.Requests (env : Env) (call : ApiCall) (phone : String) (requestKeyHash : Digest) : Prop :=
  ∃ phone' countryIso context, call = .requestOtp phone' countryIso context ∧
    (∃ country, normalizePhoneNumber env phone' country = .ok phone) ∧ ∃ idempotencyKey,
      idempotencyKeyOf context.idempotencyKey = .ok idempotencyKey ∧
        requestKeyHash = env.crypto.sha256 idempotencyKey

/-- **A request** is answered after a promise, under its own key and for its own phone. -/
theorem requestOtp_keeps (phone countryIso : String) (context : OtpRequestContext) :
    (requestOtp env phone countryIso context).Keeps (RequestStatement env)
      (fun trace' _ ↦ ∃ normalizedPhone requestKeyHash,
        (ApiCall.requestOtp phone countryIso context).Requests env normalizedPhone requestKeyHash ∧
          Answers normalizedPhone requestKeyHash trace') (fun _ _ ↦ True) trace := by
  unfold requestOtp
  -- the key is of no account here, and is not to be evaluated
  generalize hchecked : idempotencyKeyOf context.idempotencyKey = checkedKey
  refine plain_bind ((requireAuthCountry_all env countryIso).mono fun _ ↦ Op.plain_of_looks)
    fun trace₁ country hext₁ ↦ ?_
  refine keeps_lift_bind (fun normalizedPhone hphone ↦ ?_) fun _ ↦ trivial
  refine keeps_lift_bind (fun idempotencyKey hkey ↦ ?_) fun _ ↦ trivial
  have hrequests : (ApiCall.requestOtp phone countryIso context).Requests env normalizedPhone
      (env.crypto.sha256 idempotencyKey) :=
    ⟨phone, countryIso, context, rfl, ⟨country, hphone⟩, idempotencyKey, hchecked.trans hkey, rfl⟩
  refine .bind (replayOtpRequest_keeps normalizedPhone) fun trace₂ replay h₂ ↦ ?_
  cases replay with
  | some replay => exact ⟨_, _, hrequests, h₂.2 rfl⟩
  | none =>
    have hlimit : ∀ limit oneHourAgo ip deviceHash limited message,
        (checkRequestLimit limit oneHourAgo ip deviceHash limited message).All Op.Plain :=
      fun _ _ _ _ _ _ ↦ .run_bind trivial fun _ ↦ .ite (fun _ ↦ .run_bind trivial
        fun _ ↦ trivial) fun _ ↦ trivial
    refine keeps_lift_bind (fun deviceHash _ ↦ ?_) fun _ ↦ trivial
    refine plain_bind (.run trivial) fun trace₃ now hext₃ ↦ ?_
    refine plain_bind (present_all _ _ fun _ ↦ hlimit _ _ _ _ _ _) fun trace₄ _ hext₄ ↦ ?_
    refine plain_bind (present_all _ _ fun _ ↦ hlimit _ _ _ _ _ _) fun trace₅ _ hext₅ ↦ ?_
    exact (issueOtpCode_keeps _ _ _).mono (fun _ _ h ↦ ⟨_, _, hrequests, h⟩) fun _ _ h ↦ h

/-- The trace of a request that was answered. -/
def ApiCall.RequestedBy (env : Env) (call : ApiCall) (trace : List (Exchange Statements))
    (_ : ApiResponse) : Prop :=
  ∀ phone countryIso context, call = .requestOtp phone countryIso context →
    ∃ normalizedPhone requestKeyHash, call.Requests env normalizedPhone requestKeyHash ∧
      Answers normalizedPhone requestKeyHash trace

/-- **Every call** completes and enqueues only what it has to go on. -/
theorem program_requests (call : ApiCall) : (call.program env).Keeps (RequestStatement env)
    (fun trace' a ↦ call.RequestedBy env trace' a) (fun _ _ ↦ True) [] := by
  have hreply : ∀ {α : Type} {p : Call α} (g : α → ApiResponse),
      (∀ phone countryIso context, call ≠ .requestOtp phone countryIso context) → p.All Op.Plain →
      (g <$> p).Keeps (RequestStatement env) (fun trace' a ↦ call.RequestedBy env trace' a)
        (fun _ _ ↦ True) [] := fun g hcall hp ↦
    plain_bind hp fun _ _ _ _ _ _ h ↦ absurd h (hcall _ _ _)
  cases call with
  | requestOtp phone countryIso context =>
    refine .bind (requestOtp_keeps phone countryIso context) fun trace' response h ↦
      fun _ _ _ hcall ↦ ?_
    cases hcall
    exact h
  | verifyOtp phone countryIso otp context =>
    exact hreply _ (fun _ _ _ ↦ nofun) ((verifyOtp_all env _ _ _ _).mono fun _ ↦ Op.Issues.plain)
  | refreshSession refreshToken context =>
    exact hreply _ (fun _ _ _ ↦ nofun) ((refreshSession_all env _ _).mono fun _ h ↦ h.issues.plain)
  | revokeSession input =>
    exact hreply _ (fun _ _ _ ↦ nofun) ((revokeSession_all env _).mono fun _ h ↦ h.issues.plain)
  | enqueueReadinessAlert input =>
    refine hreply _ (fun _ _ _ ↦ nofun) (.bind ((encryptPayload_all env _).mono
      fun _ ↦ Op.plain_of_looks) fun _ ↦ .run_bind trivial fun _ ↦ .run_bind trivial fun _ ↦ ?_)
    exact .tryCatch (.run_bind rfl fun _ ↦ trivial) fun _ ↦ .ite (fun _ ↦ trivial) fun _ ↦ trivial
  | redactTerminalPayloads =>
    exact hreply _ (fun _ _ _ ↦ nofun) (redactTerminalPayloads_all.mono fun _ h ↦ h.consumes.plain)
  | tick => exact hreply _ (fun _ _ _ ↦ nofun) ((tick_all env).mono fun _ h ↦ h.consumes.plain)

end Programs

end Stead
