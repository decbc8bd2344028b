import Stead.Dashboard.Service

/-!
# Alert rules

`riskDecision`, `alertOccurrenceKey` and `weeklySchedule`, on the rows they read.

## Keys

Identifiers are UUIDs and instants are written in ISO format, so the text of a key determines its
parts; a key is kept as its parts. The key of a week is the number of its Sunday, counted in days;
`Alerts.Weeks` goes back to its text.

## Decisions

A decision reads the baseline, the state of the alerts before the evaluation. A risk alert needs a
worse status or a fall of the score since the last notification, and no risk alert less than a
cooldown ago; the first risk of a goal needs no comparison. A recovery is told when the status is
stable again and the customer was told of a risk. What a decision says about its baseline is
collected in three lemmas: `cooldown_of_risk`, `worse_of_risk` and `risk_of_recovery`. Nothing later
unfolds `riskDecision`.

## The week

`Intl` is a parameter: it says what the local time of an instant is in a zone, or that the zone is
unknown. The week of a summary begins with the Sunday before the local date, and the summary is due
from the scheduled hour of the scheduled day to the end of that week.
-/

namespace Stead

/-- A fall of this many points since the last notification is a risk. -/
def RISK_SCORE_DROP : ℤ := 15
/-- The cooldown of risk alerts: a day, in milliseconds. -/
def RISK_COOLDOWN_MS : ℤ := 24 * 60 * 60 * 1000

/-- A row of `AlertPreference`. -/
structure AlertPreference where
  weeklySummaryEnabled : Bool
  riskAlertsEnabled : Bool
  timeZone : String
  weeklyDay : ℕ
  weeklyHourLocal : ℕ
  deriving DecidableEq

/-- A row of `AlertState`. -/
structure AlertState where
  lastObservedStatus : StabilityStatus
  lastObservedScore : ℤ
  lastNotifiedStatus : Option StabilityStatus
  lastNotifiedScore : Option ℤ
  lastRiskAlertAt : Option ℤ
  lastRecoveryAlertAt : Option ℤ
  lastWeeklySummaryAt : Option ℤ
  lastWeeklySummaryKey : Option ℤ
  deriving DecidableEq

/-- What there is to tell a customer about the state of a goal. -/
inductive RiskDecision where
  | risk
  | recovery
  deriving DecidableEq

/-- Whether the last risk alert is less than a cooldown ago. -/
def cooldownActive (baseline : Option AlertState) (now : ℤ) : Bool :=
  (baseline.bind AlertState.lastRiskAlertAt).any fun lastRiskAlertAt ↦
    now - lastRiskAlertAt < RISK_COOLDOWN_MS

/-- The decision for a status and a score, given the baseline. -/
def riskDecision (status : StabilityStatus) (score : ℤ) (baseline : Option AlertState) (now : ℤ) :
    Option RiskDecision :=
  let previousStatus := baseline.bind AlertState.lastNotifiedStatus
  if status = .stable then
    if previousStatus = some .warning ∨ previousStatus = some .critical then some .recovery
    else none
  else if cooldownActive baseline now then none
  else
    match previousStatus, baseline.bind AlertState.lastNotifiedScore with
    | some previousStatus, some lastNotifiedScore =>
      if previousStatus.severity < status.severity then some .risk
      else if score ≤ lastNotifiedScore - RISK_SCORE_DROP then some .risk
      else none
    | _, _ => some .risk

/-- The types of the jobs the alerts enqueue. -/
inductive ReadinessAlertType where
  | weeklySummary
  | riskAlert
  | riskRecovery
  deriving DecidableEq

/-- The dedupe key of an alert. -/
inductive AlertKey where
  /-- `weekly:${userId}:${goalId}:${key}` -/
  | weekly (userId goalId : ℕ) (key : ℤ)
  /-- `${type}:${userId}:${goalId}:${anchor}:…` -/
  | occurrence (type : ReadinessAlertType) (userId goalId : ℕ) (anchor : Option ℤ)
      (previousStatus : Option StabilityStatus) (previousScore : Option ℤ)
      (currentStatus : StabilityStatus) (currentScore : ℤ)
  deriving DecidableEq

/-- The type of the alert a decision publishes. -/
def RiskDecision.type : RiskDecision → ReadinessAlertType
  | .risk => .riskAlert
  | .recovery => .riskRecovery

/-- The dedupe key of a risk alert or a recovery: it names the last alert of the other kind, so that
a new episode has a new key. -/
def alertOccurrenceKey (decision : RiskDecision) (userId goalId : ℕ) (state : Option AlertState)
    (currentStatus : StabilityStatus) (currentScore : ℤ) : AlertKey :=
  let lastRiskAlertAt := state.bind AlertState.lastRiskAlertAt
  let lastRecoveryAlertAt := state.bind AlertState.lastRecoveryAlertAt
  let occurrence := match decision with
    | .risk => lastRecoveryAlertAt.orElse fun _ ↦ lastRiskAlertAt
    | .recovery => lastRiskAlertAt.orElse fun _ ↦ lastRecoveryAlertAt
  .occurrence decision.type userId goalId occurrence
    (state.bind AlertState.lastNotifiedStatus) (state.bind AlertState.lastNotifiedScore)
    currentStatus currentScore

/-! ### The week -/

/-- The parts of an instant in a time zone. -/
structure LocalTime where
  /-- Sunday is 0. -/
  weekday : ℕ
  year : ℤ
  month : ℕ
  day : ℤ
  hour : ℕ
  deriving DecidableEq

/-- `new Intl.DateTimeFormat('en-US', { timeZone, … }).formatToParts(now)`, which throws on what is
not a time zone. -/
structure Intl where
  formatToParts : String → ℤ → Option LocalTime

/-- The day on which a year starts, counted from the epoch. -/
def dayFromYear (year : ℤ) : ℤ :=
  365 * (year - 1970) + (year - 1969) / 4 - (year - 1901) / 100 + (year - 1601) / 400

/-- The days of a year before a month. -/
def daysBeforeMonth (year : ℤ) (month : ℕ) : ℤ :=
  let leap : ℤ := if year % 4 = 0 ∧ (year % 100 ≠ 0 ∨ year % 400 = 0) then 1 else 0
  ([0, 31, 59 + leap, 90 + leap, 120 + leap, 151 + leap, 181 + leap, 212 + leap, 243 + leap,
    273 + leap, 304 + leap, 334 + leap] : List ℤ).getD (month - 1) 0

/-- `Date.UTC(year, month - 1, day)`, in days. -/
def dateUTC (year : ℤ) (month : ℕ) (day : ℤ) : ℤ :=
  dayFromYear year + daysBeforeMonth year month + day - 1

/-- `due` and `key` of the answer. -/
structure WeeklySchedule where
  due : Bool
  key : ℤ
  deriving DecidableEq

/-- The week an instant lies in, and whether its summary is due by then; `none` where the zone is
unknown. -/
def weeklySchedule (intl : Intl) (now : ℤ) (timeZone : String) (scheduledDay scheduledHour : ℕ) :
    Option WeeklySchedule :=
  (intl.formatToParts timeZone now).map fun parts ↦
    { due := scheduledDay < parts.weekday ||
        (parts.weekday = scheduledDay && decide (scheduledHour ≤ parts.hour))
      key := dateUTC parts.year parts.month (parts.day - parts.weekday) }

/-! ### What a decision rests on -/

section Decision

variable {status : StabilityStatus} {score now : ℤ} {baseline : Option AlertState}

/-- A risk alert is only decided on when the last one is a cooldown ago. -/
theorem cooldown_of_risk (h : riskDecision status score baseline now = some .risk) :
    status ≠ .stable ∧ ∀ lastRiskAlertAt,
      baseline.bind AlertState.lastRiskAlertAt = some lastRiskAlertAt →
        lastRiskAlertAt + RISK_COOLDOWN_MS ≤ now := by
  unfold riskDecision at h
  dsimp only at h
  split at h
  · split at h <;> cases h
  · next hstable =>
    split at h
    · cases h
    · next hcooldown =>
      refine ⟨hstable, fun lastRiskAlertAt hlast ↦ ?_⟩
      rw [cooldownActive, hlast, Option.any_some, decide_eq_true_eq] at hcooldown
      omega

/-- After a notification, a risk alert is only decided on when the status or the score is worse. -/
theorem worse_of_risk (h : riskDecision status score baseline now = some .risk)
    {previousStatus : StabilityStatus} {previousScore : ℤ}
    (hstatus : baseline.bind AlertState.lastNotifiedStatus = some previousStatus)
    (hscore : baseline.bind AlertState.lastNotifiedScore = some previousScore) :
    previousStatus.severity < status.severity ∨ score ≤ previousScore - RISK_SCORE_DROP := by
  unfold riskDecision at h
  dsimp only at h
  split at h
  · split at h <;> cases h
  · split at h
    · cases h
    · rw [hstatus, hscore] at h
      dsimp only at h
      split at h
      · exact .inl ‹_›
      · split at h
        · exact .inr ‹_›
        · cases h

/-- A recovery follows a notified risk. -/
theorem risk_of_recovery (h : riskDecision status score baseline now = some .recovery) :
    status = .stable ∧ ∃ previousStatus,
      baseline.bind AlertState.lastNotifiedStatus = some previousStatus ∧
        previousStatus ≠ .stable := by
  unfold riskDecision at h
  dsimp only at h
  split at h
  · next hstable =>
    split at h
    · next hprevious =>
      rcases hprevious with hprevious | hprevious
      · exact ⟨hstable, .warning, hprevious, nofun⟩
      · exact ⟨hstable, .critical, hprevious, nofun⟩
    · cases h
  · split at h
    · cases h
    · split at h
      · split at h
        · cases h
        · split at h <;> cases h
      · cases h

end Decision

end Stead
