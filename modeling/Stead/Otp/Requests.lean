import Stead.Otp.Rows
import Stead.Model.Logic

/-!
# Requests for an OTP

A request counts the codes its phone has of the last hour and looks for one within the cooldown
before it creates its own (`LimitStatement`). No other call creates one.

## The checks in a trace

`Checked` says what a trace has to contain when a row is created: the count of the phone, below the
limit, since an hour before an instant of the call; the user of the phone; and the answer that there
is no row within the cooldown before a later instant. The program reads the clock before each of the
two checks, so that the instants are part of what is checked. Nothing is said about the state at the
time of the creation: what the checks are worth by then is for `Otp.Limits`.

The other calls are covered by their footprints (`keeps_of_all`).
-/

namespace Stead

open Concurrency

/-- A request has passed its checks before it creates a row: it has counted the rows of the phone,
and has found none within the cooldown. -/
structure Checked (config : Config) (trace : List (Exchange Statements)) (data : NewOtpCode)
    (phone : String) (startedAt checkedAt : ℤ) (recent : ℕ) (user : User) : Prop where
  started : (⟨.host .now, .ok startedAt⟩ : Exchange Statements) ∈ trace
  counted : (⟨.otpCode (.countSince phone (startedAt - ONE_HOUR_MS)), .ok recent⟩ :
    Exchange Statements) ∈ trace
  within : recent < config.otpRequestLimitPerHour
  user : (⟨.user (.upsert phone), .ok ⟨data.userId, user⟩⟩ : Exchange Statements) ∈ trace
  checked : (⟨.host .now, .ok checkedAt⟩ : Exchange Statements) ∈ trace
  cooled : (⟨.otpCode (.findLatestAfter data.userId
    (checkedAt - (config.otpResendCooldownMs : ℤ))), .ok none⟩ : Exchange Statements) ∈ trace

/-- A row is created after the checks. -/
def LimitStatement (config : Config) (trace : List (Exchange Statements)) (op : Op) : Prop :=
  ∀ data, op = .otpCode (.create data) → ∃ phone startedAt checkedAt recent user,
    Checked config trace data phone startedAt checkedAt recent user

section Request

variable {env : Env} {trace : List (Exchange Statements)}

theorem LimitStatement.of_ne {config : Config} {op : Op}
    (h : ∀ data, op ≠ .otpCode (.create data)) : LimitStatement config trace op :=
  fun data hop ↦ absurd hop (h data)

theorem Op.Replays.limited {config : Config} {op : Op} (h : op.Replays) :
    LimitStatement config trace op := by
  refine .of_ne fun data hop ↦ ?_
  subst hop
  cases h

theorem Op.Issues.limited {config : Config} {op : Op} (h : op.Issues) :
    LimitStatement config trace op := by
  refine .of_ne fun data hop ↦ ?_
  subst hop
  cases h

theorem Op.Consumes.limited {config : Config} {op : Op} (h : op.Consumes) :
    LimitStatement config trace op := by
  refine .of_ne fun data hop ↦ ?_
  subst hop
  cases h

/-- A program that creates no rows. -/
theorem keeps_of_all {α : Type} {C : Op → Prop} {p : Call α} (h : p.All C)
    (hC : ∀ trace op, C op → LimitStatement env.config trace op) :
    p.Keeps (LimitStatement env.config) (fun _ _ ↦ True) (fun _ _ ↦ True) trace :=
  (h.keeps fun _ _ _ ↦ hC _ _).mono (fun _ _ _ ↦ trivial) fun _ _ _ ↦ trivial

theorem Checked.mono {config : Config} {trace' : List (Exchange Statements)} {data : NewOtpCode}
    {phone : String} {startedAt checkedAt : ℤ} {recent : ℕ} {user : User}
    (h : Checked config trace data phone startedAt checkedAt recent user) (hext : trace <+: trace') :
    Checked config trace' data phone startedAt checkedAt recent user :=
  ⟨hext.mem h.started, hext.mem h.counted, h.within, hext.mem h.user, hext.mem h.checked,
    hext.mem h.cooled⟩

theorem createOtpCode_limited {normalizedPhone : String} {ip : Option String}
    {deviceHash : Option Digest} {requestKeyHash : Digest} {userId : ℕ}
    (h : ∀ data : NewOtpCode, data.userId = userId → ∃ phone startedAt checkedAt recent user,
      Checked env.config trace data phone startedAt checkedAt recent user) :
    (createOtpCode env normalizedPhone ip deviceHash requestKeyHash userId).Keeps
      (LimitStatement env.config) (fun _ _ ↦ True) (fun _ _ ↦ True) trace := by
  refine keeps_run_bind (.of_ne nofun) (fun otp ↦ ?_) fun _ ↦ trivial
  refine keeps_run_bind (.of_ne nofun) (fun codeHash ↦ ?_) fun _ ↦ trivial
  refine keeps_run_bind (.of_ne nofun) (fun now ↦ ?_) fun _ ↦ trivial
  refine .bind (R := fun _ _ ↦ True) (.tryCatch (F := fun _ _ ↦ True) ?_ fun trace₁ e _ ↦ ?_)
    fun trace₁ created _ ↦ ?_
  · refine keeps_run_bind (fun data hop ↦ ?_) (fun _ ↦ trivial) fun _ ↦ trivial
    obtain ⟨phone, startedAt, checkedAt, recent, user, hchecked⟩ :=
      h data (by rw [← OtpCodeStatement.create.inj (Op.otpCode.inj hop)])
    refine ⟨phone, startedAt, checkedAt, recent, user, hchecked.mono ?_⟩
    simp only [List.append_assoc]
    exact List.prefix_append _ _
  · refine .ite (fun _ ↦ ?_) fun _ ↦ trivial
    refine (replayOtpRequest_all env _ _).keeps_bind (fun _ _ _ ↦ Op.Replays.limited)
      (fun trace₂ replay _ ↦ ?_) fun _ _ _ ↦ trivial
    cases replay <;> trivial
  · cases created with
    | inl otpCodeId =>
      exact keeps_of_all (publishOtpCode_all env _ _ _ _ _ _ _ _) fun _ _ ↦ Op.Replays.limited
    | inr replay => trivial

theorem issueOtpCode_limited {normalizedPhone : String} {ip : Option String}
    {deviceHash : Option Digest} {requestKeyHash : Digest} {startedAt : ℤ}
    (hstarted : (⟨.host .now, .ok startedAt⟩ : Exchange Statements) ∈ trace) :
    (issueOtpCode env normalizedPhone ip deviceHash requestKeyHash
      (startedAt - ONE_HOUR_MS)).Keeps
      (LimitStatement env.config) (fun _ _ ↦ True) (fun _ _ ↦ True) trace := by
  refine keeps_run_bind (.of_ne nofun) (fun recent ↦ ?_) fun _ ↦ trivial
  refine .ite (fun _ ↦ ?_) fun hwithin ↦ ?_
  · exact (recordEvent_all _).keeps_bind (fun _ _ _ ↦ Op.Replays.limited) (fun _ _ _ ↦ trivial)
      fun _ _ _ ↦ trivial
  refine keeps_run_bind (.of_ne nofun) (fun user ↦ ?_) fun _ ↦ trivial
  refine keeps_run_bind (.of_ne nofun) (fun checkedAt ↦ ?_) fun _ ↦ trivial
  refine keeps_run_bind (.of_ne nofun) (fun latestOtp ↦ ?_) fun _ ↦ trivial
  cases latestOtp with
  | none =>
    refine createOtpCode_limited fun data huser ↦
      ⟨normalizedPhone, startedAt, checkedAt, recent, user.row, ?_⟩
    obtain ⟨userId, row⟩ := user
    obtain rfl : data.userId = userId := huser
    exact ⟨by simp [hstarted], by simp, not_le.1 hwithin, by simp, by simp, by simp⟩
  | some latestOtp =>
    refine .ite (fun _ ↦ .ite (fun _ ↦ trivial) fun _ ↦ trivial) fun _ ↦ ?_
    exact (recordEvent_all _).keeps_bind (fun _ _ _ ↦ Op.Replays.limited) (fun _ _ _ ↦ trivial)
      fun _ _ _ ↦ trivial

theorem requestOtp_limited (phone countryIso : String) (context : OtpRequestContext) :
    (requestOtp env phone countryIso context).Keeps (LimitStatement env.config)
      (fun _ _ ↦ True) (fun _ _ ↦ True) trace := by
  unfold requestOtp
  -- the key is of no account here, and is not to be evaluated
  generalize idempotencyKeyOf context.idempotencyKey = key
  refine (requireAuthCountry_all env countryIso).keeps_bind
    (fun _ _ _ h ↦ Op.Replays.limited (.of_looks h)) (fun trace₁ country _ ↦ ?_) fun _ _ _ ↦ trivial
  refine keeps_lift_bind (fun normalizedPhone _ ↦ ?_) fun _ ↦ trivial
  refine keeps_lift_bind (fun idempotencyKey _ ↦ ?_) fun _ ↦ trivial
  refine (replayOtpRequest_all env _ _).keeps_bind (fun _ _ _ ↦ Op.Replays.limited)
    (fun trace₂ replay _ ↦ ?_) fun _ _ _ ↦ trivial
  cases replay with
  | some replay => trivial
  | none =>
    refine keeps_lift_bind (fun deviceHash _ ↦ ?_) fun _ ↦ trivial
    refine keeps_run_bind (.of_ne nofun) (fun now ↦ ?_) fun _ ↦ trivial
    refine Prog.All.keeps_bind (present_all _ _ fun _ ↦ checkRequestLimit_all _ _ _ _ _ _)
      (fun _ _ _ ↦ Op.Replays.limited) (fun trace₃ _ hext₃ ↦ ?_) fun _ _ _ ↦ trivial
    refine Prog.All.keeps_bind (present_all _ _ fun _ ↦ checkRequestLimit_all _ _ _ _ _ _)
      (fun _ _ _ ↦ Op.Replays.limited) (fun trace₄ _ hext₄ ↦ ?_) fun _ _ _ ↦ trivial
    exact issueOtpCode_limited (hext₄.mem (hext₃.mem (List.mem_append_right _
      (List.mem_singleton_self _))))

/-- **Every call** creates rows after the checks only. -/
theorem program_limited (call : ApiCall) :
    (call.program env).Keeps (LimitStatement env.config) (fun _ _ ↦ True) (fun _ _ ↦ True) trace := by
  cases call with
  | requestOtp phone countryIso context =>
    exact .bind (requestOtp_limited phone countryIso context) fun _ _ _ ↦ trivial
  | verifyOtp phone countryIso otp context =>
    exact keeps_of_all (.map _ (verifyOtp_all env _ _ _ _)) fun _ _ ↦ Op.Issues.limited
  | refreshSession refreshToken context =>
    exact keeps_of_all (.map _ (refreshSession_all env _ _)) fun _ _ h ↦ h.issues.limited
  | revokeSession input =>
    exact keeps_of_all (.map _ (revokeSession_all env input)) fun _ _ h ↦ h.issues.limited
  | enqueueReadinessAlert input =>
    exact keeps_of_all (.map _ (enqueueReadinessAlert_all env input)) fun _ _ ↦ Op.Replays.limited
  | redactTerminalPayloads =>
    exact keeps_of_all (.map _ redactTerminalPayloads_all) fun _ _ h ↦ h.consumes.limited
  | tick => exact keeps_of_all (.map _ (tick_all env)) fun _ _ h ↦ h.consumes.limited

end Request

end Stead
