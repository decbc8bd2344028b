import Stead.Otp.Sent

/-!
# What the consumer hands over

A consumer hands over what it has read from the job it has claimed (`SendStatement`), and that is
the code of a row, for the phone number of its user (`CodesSent`). So every code that is handed over
to the provider is one whose hash is stored, and goes to the phone number it was requested for
(`codes_reach_owners`), however the requests and the consumers are interleaved.

## From the row to the provider

A code is drawn, hashed and stored; then sealed and enqueued; then claimed, read, opened and sent.
`SentAs` relates a row to the text of its job, and `CodeOf` a row to the phone and the code that the
provider is given. The two are connected by the platform: what opens a sealed payload to is what was
sealed (`OpensCodes`), which is the hypothesis of the result.

A payload that has been redacted in the meantime is not sent, so `HandedOver` has nothing to say of
it.
-/

namespace Stead

open Concurrency

variable {ι : Type} [DecidableEq ι]

/-- The consumer has read a job it has claimed. -/
def readJob (id : ℕ) (locked : NotificationJob) : Exchange Statements :=
  ⟨.notificationJob (.findById id), .ok locked⟩

/-- The text of a code is what a job that was read says it is. -/
inductive TextOf (env : Env) (trace : List (Exchange Statements)) (phone : String)
    (otp : Option String) : Prop
  | intro (id : ℕ) (locked : NotificationJob) (payload : PayloadRecord)
      (hread : readJob id locked ∈ trace) (htype : locked.type = .otpRequested)
      (hpayload : decryptPayload env locked.payloadJson = .ok payload)
      (hredacted : payload.redacted = none) (hphone : phone = payload.phone.getD "")
      (hotp : otp = payload.otp)

/-- A consumer hands over the code of a job that it has read. -/
def SendStatement (env : Env) (call : ApiCall) (trace : List (Exchange Statements)) (op : Op) :
    Prop :=
  call = .tick → ∀ phone otp, op = .host (.sendOtp phone otp) → TextOf env trace phone otp

/-- Statements that hand no code over. -/
def Op.Quiet : Op → Prop
  | .host (.sendOtp _ _) => False
  | _ => True

section Programs

variable {env : Env} {call : ApiCall} {trace : List (Exchange Statements)} {α : Type}

theorem SendStatement.of_quiet {op : Op} (h : op.Quiet) : SendStatement env call trace op := by
  rintro - phone otp rfl
  cases h

theorem updateJob_quiet (id : ℕ) (data : NotificationJobUpdate) : (updateJob id data).All Op.Quiet :=
  .tryCatch (.run trivial) fun _ ↦ .ite (fun _ ↦ trivial) fun _ ↦ trivial

theorem markFailed_quiet (job : ClaimedJob) (error : Failure) :
    (markFailed env job error).All Op.Quiet := by
  refine .run_bind trivial fun now ↦ .bind ?_ fun nextRunAt ↦ updateJob_quiet _ _
  exact .ite (fun _ ↦ trivial) fun _ ↦ .run_bind trivial fun _ ↦ trivial

theorem quiet_bind {β : Type} {p : Call β} {f : β → Call α}
    {Q : List (Exchange Statements) → α → Prop} (h : p.All Op.Quiet)
    (hf : ∀ trace' b, trace <+: trace' →
      (f b).Keeps (SendStatement env call) Q (fun _ _ ↦ True) trace') :
    (p >>= f).Keeps (SendStatement env call) Q (fun _ _ ↦ True) trace :=
  h.keeps_bind (fun _ _ _ hop ↦ .of_quiet hop) hf fun _ _ _ ↦ trivial

theorem keeps_of_quiet {p : Call α} (h : p.All Op.Quiet) : p.Keeps (SendStatement env call)
    (fun _ _ ↦ True) (fun _ _ ↦ True) trace :=
  (h.keeps fun _ _ _ hop ↦ .of_quiet hop).mono (fun _ _ _ ↦ trivial) fun _ _ _ ↦ trivial

/-- A job that is claimed has been read, and its payload too. -/
def ClaimedRead (env : Env) (trace : List (Exchange Statements)) : Option ClaimedJob → Prop
  | none => True
  | some job => readJob job.id job.row ∈ trace ∧
      decryptPayload env job.row.payloadJson = .ok job.payload

/-- What is claimed was read. -/
theorem claimReadyJob_sends : (claimReadyJob env).Keeps (SendStatement env call)
    (ClaimedRead env) (fun _ _ ↦ True) trace := by
  refine quiet_bind (.run trivial) fun trace₁ now _ ↦ ?_
  refine quiet_bind (.run trivial) fun trace₂ candidate _ ↦ ?_
  cases candidate with
  | none => trivial
  | some candidate =>
    refine quiet_bind (.run trivial) fun trace₃ claimed _ ↦ .ite (fun _ ↦ ?_) fun _ ↦ trivial
    refine keeps_run_bind (.of_quiet trivial) (fun locked ↦ ?_) fun _ ↦ trivial
    split
    · next payload hpayload =>
      exact ⟨List.mem_append_right _ (List.mem_singleton_self _), hpayload⟩
    · exact quiet_bind (markFailed_quiet _ _) fun _ _ _ ↦ trivial

/-- **The delivery** of a job that was read. -/
theorem processClaimedJob_sends {job : ClaimedJob} (hread : readJob job.id job.row ∈ trace)
    (hpayload : decryptPayload env job.row.payloadJson = .ok job.payload) :
    (processClaimedJob env job).Keeps (SendStatement env call) (fun _ _ ↦ True) (fun _ _ ↦ True)
      trace := by
  refine .tryCatch (F := fun _ _ ↦ True) ?_ fun trace₁ e _ ↦ keeps_of_quiet (markFailed_quiet _ _)
  have hdeliver : (canDeliver job).All Op.Quiet :=
    .run_bind trivial fun _ ↦ .ite (fun _ ↦ trivial) fun _ ↦ .run trivial
  refine quiet_bind hdeliver fun trace₁ deliverable hext₁ ↦ .ite (fun _ ↦ ?_) fun _ ↦ trivial
  have hsucceed : ∀ {trace' : List (Exchange Statements)} (result : SmsResult),
      (markSucceeded job result.provider (extractProviderMessageId result)).Keeps
        (SendStatement env call) (fun _ _ ↦ True) (fun _ _ ↦ True) trace' := fun result ↦
    keeps_of_quiet (.run_bind trivial fun _ ↦ updateJob_quiet _ _)
  refine .bind (R := fun _ _ ↦ True) ?_ fun trace₂ result _ ↦ hsucceed result
  unfold processJob
  split
  · next htype =>
    refine .ite (fun _ ↦ trivial) fun hredacted ↦ ⟨?_, fun r ↦ by cases r <;> trivial⟩
    rintro - phone otp hop
    cases hop
    exact ⟨job.id, job.row, job.payload, hext₁.subset hread, htype, hpayload,
      Option.not_isSome_iff_eq_none.1 hredacted, rfl, rfl⟩
  all_goals
    exact .ite (fun _ ↦ trivial) fun _ ↦ keeps_of_quiet (.run trivial)

/-- **A poll** sends what it has read. -/
theorem tick_sends : (tick env).Keeps (SendStatement env call) (fun _ _ ↦ True) (fun _ _ ↦ True)
    trace := by
  refine .tryCatch (F := fun _ _ ↦ True) (.bind claimReadyJob_sends fun trace₁ claimed h ↦ ?_)
    fun _ _ _ ↦ trivial
  cases claimed with
  | none => trivial
  | some job => exact processClaimedJob_sends h.1 h.2

theorem program_sends (call : ApiCall) : (call.program env).Keeps (SendStatement env call)
    (fun _ _ ↦ True) (fun _ _ ↦ True) [] := by
  by_cases hcall : call = .tick
  · subst hcall
    exact .bind tick_sends fun _ _ _ ↦ trivial
  · exact ((Prog.all_true _).keeps fun _ _ _ _ h ↦ absurd h hcall).mono
      (fun _ _ _ ↦ trivial) fun _ _ _ ↦ trivial

end Programs

/-! ### The invariant -/

/-- The sealed payload of a code opens to what was sealed. -/
def OpensCodes (env : Env) : Prop := ∀ secret iv phone otp,
  env.crypto.openPayload secret iv (env.crypto.sealPayload secret iv (otpPayload phone otp)).1
    (env.crypto.sealPayload secret iv (otpPayload phone otp)).2 = some (otpPayload phone otp)

/-- A row of a user with this phone number has been sent, and this is its payload. -/
structure SentAs (env : Env) (w : World ι) (k : ℕ) (row : OtpCode) (payloadJson : PayloadJson) :
    Prop where
  stored : w.otpCodes.stored k = some row
  sends : w.Sends row.requestKeyHash k
  carries : w.Carries env row payloadJson

/-- The code is that of a row, one whose hash is stored there, and the phone number is that of its
user. -/
structure CodeOf (env : Env) (w : World ι) (k : ℕ) (row : OtpCode) (phone otp : String) : Prop where
  stored : w.otpCodes.stored k = some row
  sends : w.Sends row.requestKeyHash k
  owned : w.phoneOf row.userId = some phone
  hashed : ∃ salt, row.codeHash = env.crypto.bcryptHash otp salt

/-- What the consumers have read and handed over. -/
structure HandedOver (env : Env) (calls : ι → ApiCall) (s : History ι) : Prop where
  read : ∀ i id locked, readJob id locked ∈ s.trace i → locked.type = .otpRequested →
    ∃ k row, SentAs env s.shared k row locked.payloadJson
  sent : ∀ i phone otp r, calls i = .tick →
    (⟨.host (.sendOtp phone otp), r⟩ : Exchange Statements) ∈ s.trace i →
      ∃ code, otp = some code ∧ ∃ k row, CodeOf env s.shared k row phone code

section Invariant

variable {env : Env} {calls : ι → ApiCall} {i j : ι} {x : Choice} {op : Op} {s : History ι}
  {w t : World ι} {r : Except StatementError op.Ret}

/-- A row that has been sent stays. -/
theorem row_kept_of_sends (hw : CodesSent env w) (hwf : op.WellFormed)
    (h : exec env.crypto i x op w = some (r, t)) {k : ℕ} {row : OtpCode}
    (hrow : w.otpCodes.stored k = some row) (hsends : w.Sends row.requestKeyHash k) :
    ∃ row', t.otpCodes.stored k = some row' ∧ row'.birth = row.birth ∧
      t.Sends row'.requestKeyHash k := by
  obtain ⟨id, job, hjob, hlink⟩ := hsends
  obtain ⟨row', hrow', hbirth⟩ :=
    row_kept hw.rooted_birth h hrow ⟨id, job, hjob, hlink.otpCodeId⟩
  refine ⟨row', hrow', hbirth, ?_⟩
  rw [OtpCode.requestKeyHash_of_birth hbirth]
  exact World.Sends.after ⟨id, job, hjob, hlink⟩ hw hwf h

theorem SentAs.after {k : ℕ} {row : OtpCode} {payloadJson : PayloadJson}
    (hs : SentAs env w k row payloadJson) (hw : CodesSent env w) (hwf : op.WellFormed)
    (h : exec env.crypto i x op w = some (r, t)) : ∃ row', SentAs env t k row' payloadJson := by
  obtain ⟨row', hrow', hbirth, hsends⟩ := row_kept_of_sends hw hwf h hs.stored hs.sends
  exact ⟨row', hrow', hsends, hs.carries.after h hbirth (.inl rfl)⟩

theorem CodeOf.after {k : ℕ} {row : OtpCode} {phone otp : String}
    (hs : CodeOf env w k row phone otp) (hw : CodesSent env w) (hwf : op.WellFormed)
    (h : exec env.crypto i x op w = some (r, t)) : ∃ row', CodeOf env t k row' phone otp := by
  obtain ⟨row', hrow', hbirth, hsends⟩ := row_kept_of_sends hw hwf h hs.stored hs.sends
  refine ⟨row', hrow', hsends, ?_, ?_⟩
  · rw [OtpCode.userId_of_birth hbirth]
    exact phoneOf_after h hs.owned
  · rw [OtpCode.codeHash_of_birth hbirth]
    exact hs.hashed

theorem exec_readJob {id : ℕ} {locked : NotificationJob}
    (h : exec env.crypto i x (.notificationJob (.findById id)) w = some (.ok locked, t)) :
    w.notificationJobs.stored id = some locked := by
  have hp := perform_of_exec_ok h
  simp only [perform, NotificationJobStatement.perform] at hp
  split at hp
  · next job hjob =>
    cases hp
    exact hjob
  · cases hp

omit [DecidableEq ι] in
/-- What a payload of a code opens to. -/
theorem opens_of_carries (hopen : OpensCodes env)
    {row : OtpCode} {payloadJson : PayloadJson} (hc : w.Carries env row payloadJson)
    {payload : PayloadRecord} (h : decryptPayload env payloadJson = .ok payload)
    (hredacted : payload.redacted = none) : ∃ phone otp salt, w.phoneOf row.userId = some phone ∧
      row.codeHash = env.crypto.bcryptHash otp salt ∧ payload = otpPayload phone otp := by
  rcases hc with rfl | ⟨phone, otp, salt, secret, iv, hphone, hhash, hsecret, rfl⟩
  · -- What is left of a redacted payload says so.
    cases h
    cases hredacted
  · refine ⟨phone, otp, salt, hphone, hhash, ?_⟩
    simp only [decryptPayload, sealedPayload, isNotificationPayload, isOtpPayload,
      isReadinessPayload, hsecret, hopen secret iv phone otp] at h
    cases h
    rfl

section Steps

variable (hs : HandedOver env calls s) (hw : CodesSent env s.shared) (hwf : op.WellFormed)
  (h : exec env.crypto i x op s.shared = some (r, t))

include hs hw hwf h

/-- What was read of a job for a code is the text of a row. -/
theorem HandedOver.read_after {id : ℕ} {locked : NotificationJob}
    (hread : readJob id locked ∈ (s.after i op r t).trace j) (htype : locked.type = .otpRequested) :
    ∃ k row, SentAs env t k row locked.payloadJson := by
  suffices hnow : ∃ k row, SentAs env s.shared k row locked.payloadJson from
    hnow.elim fun k ⟨row, hsent⟩ ↦ ⟨k, hsent.after hw hwf h⟩
  rcases State.mem_trace_after hread with hold | ⟨-, heq⟩
  · exact hs.read j id locked hold htype
  · cases heq
    have hjob := exec_readJob h
    obtain ⟨k, row, hrow, hlink, hcarries⟩ := hw.sent id locked hjob htype
    exact ⟨k, row, hrow, ⟨id, locked, hjob, hlink⟩, hcarries⟩

theorem HandedOver.after (hop : SendStatement env (calls i) (s.trace i) op)
    (hopen : OpensCodes env) :
    HandedOver env calls (s.after i op r t) where
  read _ _ _ hread htype := hs.read_after hw hwf h hread htype
  sent j phone otp r' hcall hsend := by
    rcases State.mem_trace_after hsend with hold | ⟨rfl, heq⟩
    · obtain ⟨code, hcode, k, row, hof⟩ := hs.sent j phone otp r' hcall hold
      exact ⟨code, hcode, k, hof.after hw hwf h⟩
    · cases heq
      obtain ⟨id, locked, payload, hread, htype, hpayload, hredacted, rfl, rfl⟩ :=
        hop hcall phone otp rfl
      obtain ⟨k, row, hsent⟩ := hs.read j id locked hread htype
      obtain ⟨phone, code, salt, hphone, hhash, rfl⟩ :=
        opens_of_carries hopen hsent.carries hpayload hredacted
      have hof : CodeOf env s.shared k row phone code := ⟨hsent.stored, hsent.sends, hphone, salt, hhash⟩
      exact ⟨code, rfl, k, hof.after hw hwf h⟩

end Steps

theorem HandedOver.lost (hs : HandedOver env calls s) (i : ι) :
    HandedOver env calls (s.setShared (s.shared.rollback i)) where
  read j id locked hread htype := by
    obtain ⟨k, row, hrow, hsends, hcarries⟩ := hs.read j id locked hread htype
    exact ⟨k, row, (s.shared.rollback_codes_stored i k).trans hrow, hsends, hcarries⟩
  sent j phone otp r hcall hsend := by
    obtain ⟨code, hcode, k, row, hrow, hsends, howned, hhashed⟩ := hs.sent j phone otp r hcall hsend
    exact ⟨code, hcode, k, row, (s.shared.rollback_codes_stored i k).trans hrow, hsends, howned,
      hhashed⟩

end Invariant

/-! ### Runs -/

/-- **Codes reach their owners.** When sealed codes open to what was sealed, then in every state
that is reached from a database in which every code has its job, whatever a consumer has handed over
to the provider as a code is the code of a stored row, whose job is there, and went to the phone number
of the user of this row. -/
theorem codes_reach_owners (env : Env) (hopen : OpensCodes env)
    {w : World ι} (hw : CodesSent env w) (calls : ι → ApiCall) {c : System ι}
    (hc : System.Reaches env .all (System.start env w calls) c) {i : ι} (hcall : calls i = .tick)
    {phone : String} {otp : Option String} {r : Except StatementError SmsResult}
    (hsend : (⟨.host (.sendOtp phone otp), r⟩ : Exchange Statements) ∈ c.state.trace i) :
    ∃ code, otp = some code ∧ ∃ k row, CodeOf env c.state.shared k row phone code := by
  have hrequested : ∀ c, System.Reaches env .all (System.start env w calls) c →
      CodesSent env c.state.shared := fun c hc ↦ (requested_run env hw calls hc).1.codes
  have hstart : HandedOver env calls (⟨w, []⟩ : History ι) :=
    ⟨fun i id locked he ↦ absurd he List.not_mem_nil,
      fun i phone otp r _ he ↦ absurd he List.not_mem_nil⟩
  have h := (Run.within (C := fun s ↦ CodesSent env s.shared) hrequested hc).invariant_keeps
    (I := HandedOver env calls)
    (Config.keeps_start fun i ↦ (@program_sends env (calls i)).and_all
      ((calls i).wellFormed env)) hstart
    (fun s i x op r t hs hop ha hx ↦ hs.after ha.2 hop.2 hx hop.1 hopen)
    fun s i hs _ ↦ hs.lost i
  exact h.1.sent i phone otp r hcall hsend

namespace Demo

/-- A request, and a consumer. -/
def textCalls : ℕ → ApiCall
  | 0 => requestOtp '0'
  | _ => .tick

/-- What is handed over. -/
def handedOver : Exchange Statements → Option (String × Option String)
  | ⟨.host (.sendOtp phone otp), _⟩ => some (phone, otp)
  | _ => none

/-- The test finds a message. -/
theorem mem_of_handedOver {trace : List (Exchange Statements)} {phone : String} {otp : Option String}
    (h : trace.findSome? handedOver = some (phone, otp)) :
    ∃ r, (⟨.host (.sendOtp phone otp), r⟩ : Exchange Statements) ∈ trace := by
  obtain ⟨e, he, hhanded⟩ := List.exists_of_findSome?_eq_some h
  unfold handedOver at hhanded
  split at hhanded
  · cases hhanded
    exact ⟨_, he⟩
  · cases hhanded

/-- The deployment, with payloads that open to what was sealed. -/
def textCrypto : Crypto :=
  { crypto with
    sealPayload := fun _ _ payload ↦ ((payload.phone.getD "").toList.map Char.toNat,
      (payload.otp.getD "").toList.map Char.toNat)
    openPayload := fun _ _ phone otp ↦ some (otpPayload (String.ofList (phone.map Char.ofNat))
      (String.ofList (otp.map Char.ofNat))) }

/-- The environment with a platform that opens payloads. -/
def textEnv : Env := { env with crypto := textCrypto }

theorem ofList_map_toNat (text : String) :
    String.ofList ((text.toList.map Char.toNat).map Char.ofNat) = text := by
  rw [List.map_map, show Char.ofNat ∘ Char.toNat = id from funext Char.ofNat_toNat, List.map_id,
    String.ofList_toList]

theorem opensCodes_textEnv : OpensCodes textEnv := fun _ _ phone otp ↦
  congrArg some (congrArg₂ otpPayload (ofList_map_toNat phone) (ofList_map_toNat otp))

/-- The request draws its code and ends, then the consumer takes its turn. -/
def textTurns : List (Turn ℕ Choice) :=
  List.replicate 18 ⟨0, { code := "482913" }⟩ ++ steps 1 7

theorem texted_runs : ((System.start textEnv world textCalls).turns (machine ℕ textCrypto) anything
    textTurns).any (fun c ↦
      (c.state.trace 1).findSome? handedOver = some ("+1", some "482913")) = true := by
  decide +kernel

/-- The system after both. -/
def texted : System ℕ :=
  (System.start textEnv world textCalls).afterTurns (machine ℕ textCrypto) anything _
    (Option.isSome_of_any texted_runs)

theorem texted_tests :
    (texted.state.trace 1).findSome? handedOver = some ("+1", some "482913") :=
  of_decide_eq_true (Config.afterTurns_of_any texted_runs)

end Demo

/-- What is handed over is the code of a row, for the phone of its user. -/
theorem codes_reach_owners_texted : ∃ code, some "482913" = some code ∧ ∃ k row,
    CodeOf Demo.textEnv Demo.texted.state.shared k row "+1" code :=
  codes_reach_owners Demo.textEnv Demo.opensCodes_textEnv (CodesSent.of_empty rfl rfl) Demo.textCalls
    (Config.run_afterTurns (fun _ _ _ _ _ ↦ trivial) (Option.isSome_of_any Demo.texted_runs))
    (i := 1) rfl (Demo.mem_of_handedOver Demo.texted_tests).choose_spec

end Stead
