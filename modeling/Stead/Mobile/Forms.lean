import Stead.Mobile.Money

/-!
# The forms of the app

The forms in which a goal and a transaction are edited (`lib/goal-form.ts`, `lib/transactions.ts`).
A form is filled from what is stored and read back into a request. Filled and not touched, it asks
for the values that are stored already, blank fields and zero included:
`buildUpdateGoalPayload_filled` and `buildTransactionUpdatePayload_filled`.

## Fields

A field is a text. An amount is written in naira and read back in kobo (`Mobile.Money`); a blank
income is none. A date field holds the day of a time. The time that `dateInputToIso` makes of it is
noon, so what is stored by a form has its day as its first ten characters (`dateInputToIso_slice`).

## What is stored

`Goal.Stored` and `Transaction.Stored` say what a row has that a form could have written: a name
without white space around it, amounts that are positive safe integers, a date at noon. A row that
was written otherwise may come back changed from a form that nobody touched.
-/

namespace Stead

namespace Forms

/-! ### Dates -/

/-- `/^\d{4}-\d{2}-\d{2}$/`, a day that the calendar has, and its noon as an ISO text. -/
def dateInputToIso (value : Text) : Option Text :=
  match isoParts value with
  | none => none
  | some (year, month, day) =>
    if 1 ≤ digitsValue month ∧ digitsValue month ≤ 12 ∧ 1 ≤ digitsValue day ∧
        digitsValue day ≤ daysInMonth (digitsValue year) (digitsValue month) then
      some (value ++ "T12:00:00.000Z".toList)
    else none

/-- The first ten characters, which are the code units of an ISO text. -/
def isoToDateInput (occurredAt : Text) : Text := occurredAt.take 10

/-- The time of a date field is noon of its day. -/
theorem dateInputToIso_eq_some {value iso : Text} (h : dateInputToIso value = some iso) :
    value.length = 10 ∧ iso = value ++ "T12:00:00.000Z".toList := by
  unfold dateInputToIso at h
  split at h
  · cases h
  · next year month day hparts =>
    split at h
    · obtain ⟨rfl, hyear, hmonth, hday⟩ := isoParts_eq_some.1 hparts
      obtain ⟨-, hyear⟩ := digits_iff.1 hyear
      obtain ⟨-, hmonth⟩ := digits_iff.1 hmonth
      obtain ⟨-, hday⟩ := digits_iff.1 hday
      refine ⟨?_, (Option.some.inj h).symm⟩
      simp only [List.length_append, List.length_cons]
      omega
    · cases h

/-- A time that the field has made is made of its day again. -/
theorem dateInputToIso_slice {value iso : Text} (h : dateInputToIso value = some iso) :
    dateInputToIso (iso.take 10) = some iso := by
  obtain ⟨hlength, hiso⟩ := dateInputToIso_eq_some h
  have htake : iso.take 10 = value := hiso ▸ List.take_left' hlength
  rw [htake, h]

/-! ### Goals -/

/-- A goal as the form shows it. -/
structure Goal where
  name : Text
  amountTotalKobo : ℕ
  dueDate : Text
  monthlyIncomeKobo : Option ℕ

/-- The fields of the goal form. -/
structure GoalFormFields where
  name : Text
  amountNaira : Text
  dueOn : Text
  monthlyIncomeNaira : Text

/-- What `buildGoalFields` returns; a blank income is `none`. -/
structure GoalFields where
  name : Text
  amountTotalKobo : ℕ
  dueDate : Text
  monthlyIncomeKobo : Option ℕ

/-- The fields that the form sends, all of them; an income of `none` is `null`. -/
structure UpdateGoalRequest where
  name : Text
  amountTotalKobo : ℕ
  dueDate : Text
  monthlyIncomeKobo : Option ℕ
  deriving DecidableEq

/-- What the goal form complains about; nothing where it is `""`. -/
def goalFormValidationError (fields : GoalFormFields) : String :=
  if trim fields.name = [] then "Goal name is required"
  else if nairaInputToKobo fields.amountNaira = none then "Enter a goal amount greater than zero"
  else if dateInputToIso fields.dueOn = none then "Enter a valid due date as YYYY-MM-DD"
  else if optionalNairaInputToKobo fields.monthlyIncomeNaira = none then
    "Enter a valid monthly income or leave it blank"
  else ""

/-- The values of a form without complaints. -/
def buildGoalFields (fields : GoalFormFields) : Option GoalFields :=
  if goalFormValidationError fields ≠ "" then none
  else do
    let amountTotalKobo ← nairaInputToKobo fields.amountNaira
    let dueDate ← dateInputToIso fields.dueOn
    let monthlyIncomeKobo ← optionalNairaInputToKobo fields.monthlyIncomeNaira
    some { name := trim fields.name, amountTotalKobo, dueDate, monthlyIncomeKobo }

/-- The request of the goal form. -/
def buildUpdateGoalPayload (fields : GoalFormFields) : Option UpdateGoalRequest :=
  (buildGoalFields fields).map fun parsed ↦
    { name := parsed.name
      amountTotalKobo := parsed.amountTotalKobo
      dueDate := parsed.dueDate
      monthlyIncomeKobo := parsed.monthlyIncomeKobo }

/-- The goal form, filled. -/
def goalToFormFields (goal : Goal) : GoalFormFields where
  name := goal.name
  amountNaira := koboToNairaInput goal.amountTotalKobo
  dueOn := goal.dueDate.take 10
  monthlyIncomeNaira :=
    match goal.monthlyIncomeKobo with
    | none => []
    | some income => koboToNairaInput income

/-- A form without an error has all its fields. -/
theorem buildGoalFields_eq (fields : GoalFormFields) {amountTotalKobo : ℕ} {dueDate : Text}
    {monthlyIncomeKobo : Option ℕ} (hname : trim fields.name ≠ [])
    (hamount : nairaInputToKobo fields.amountNaira = some amountTotalKobo)
    (hdue : dateInputToIso fields.dueOn = some dueDate)
    (hincome : optionalNairaInputToKobo fields.monthlyIncomeNaira = some monthlyIncomeKobo) :
    buildGoalFields fields =
      some { name := trim fields.name, amountTotalKobo, dueDate, monthlyIncomeKobo } := by
  have hvalid : goalFormValidationError fields = "" := by
    rw [goalFormValidationError, if_neg hname, hamount, hdue, hincome]
    rfl
  rw [buildGoalFields, if_neg (not_not.2 hvalid), hamount, hdue, hincome]
  rfl

/-- The field of the income is blank for no income, and for no other. -/
theorem optionalNairaInputToKobo_goalToFormFields {goal : Goal}
    (h : ∀ income ∈ goal.monthlyIncomeKobo, income ≤ MAX_SAFE_INTEGER) :
    optionalNairaInputToKobo (goalToFormFields goal).monthlyIncomeNaira =
      some goal.monthlyIncomeKobo := by
  rw [goalToFormFields]
  cases hincome : goal.monthlyIncomeKobo with
  | none => rfl
  | some income => exact optionalNairaInputToKobo_koboToNairaInput (h income hincome)

/-- What a form has stored, and so shows as it is stored. -/
structure Goal.Stored (goal : Goal) : Prop where
  name : trim goal.name = goal.name ∧ nonblank goal.name = true
  amount : 1 ≤ goal.amountTotalKobo ∧ goal.amountTotalKobo ≤ 2 ^ 53 - 1
  income : ∀ income ∈ goal.monthlyIncomeKobo, income ≤ 2 ^ 53 - 1
  dueDate : ∃ value, dateInputToIso value = some goal.dueDate

/-- **The goal form**, filled and not touched, asks for what is stored. -/
theorem buildUpdateGoalPayload_filled {goal : Goal} (h : goal.Stored) :
    buildUpdateGoalPayload (goalToFormFields goal) =
      some { name := goal.name
             amountTotalKobo := goal.amountTotalKobo
             dueDate := goal.dueDate
             monthlyIncomeKobo := goal.monthlyIncomeKobo } := by
  obtain ⟨htrim, hname⟩ := h.name
  obtain ⟨value, hvalue⟩ := h.dueDate
  have hfields := buildGoalFields_eq (goalToFormFields goal) (trim_ne_nil.2 hname)
    (nairaInputToKobo_koboToNairaInput h.amount.1 h.amount.2) (dateInputToIso_slice hvalue)
    (optionalNairaInputToKobo_goalToFormFields h.income)
  rw [buildUpdateGoalPayload, hfields, Option.map_some]
  exact congrArg some (congrArg (fun name ↦ UpdateGoalRequest.mk name _ _ _) htrim)

/-! ### Transactions -/

/-- A transaction as the form shows it. -/
structure Transaction where
  direction : Direction
  amountKobo : ℕ
  occurredAt : Text
  note : Option Text

/-- The fields of the transaction form. -/
structure TransactionUpdateForm where
  direction : Direction
  amountNaira : Text
  occurredOn : Text
  note : Text
  tagGoal : Bool
  goalSelectionChanged : Bool
  currentGoalId : Option Text
  activeGoalId : Option Text

/-- The fields that the form sends. The goal is sent only if it changes, and then may be `null`. -/
structure UpdateTransactionRequest where
  direction : Direction
  amountKobo : ℕ
  occurredAt : Text
  note : Option Text
  goalId : Option (Option Text)
  deriving DecidableEq

/-- The goal of a transaction, by the choice in the form. -/
def resolveTransactionGoalId (currentGoalId : Option Text) (tagGoal : Bool)
    (activeGoalId : Option Text) : Option Text :=
  if tagGoal then activeGoalId.orElse fun _ ↦ currentGoalId else none

/-- The request of the transaction form. -/
def buildTransactionUpdatePayload (form : TransactionUpdateForm) :
    Option UpdateTransactionRequest := do
  let amountKobo ← nairaInputToKobo form.amountNaira
  let occurredAt ← dateInputToIso form.occurredOn
  if form.goalSelectionChanged && form.tagGoal && form.activeGoalId.getD [] = [] then none
  else
    let note := trim form.note
    let targetGoalId := resolveTransactionGoalId form.currentGoalId form.tagGoal form.activeGoalId
    some
      { direction := form.direction
        amountKobo
        occurredAt
        note := if note = [] then none else some note
        goalId :=
          if form.goalSelectionChanged ∧ targetGoalId ≠ form.currentGoalId then some targetGoalId
          else none }

/-- The form in which a transaction is edited, its goal aside. -/
def TransactionUpdateForm.Shows (form : TransactionUpdateForm) (transaction : Transaction) : Prop :=
  form.direction = transaction.direction ∧
    form.amountNaira = koboToNairaInput transaction.amountKobo ∧
    form.occurredOn = isoToDateInput transaction.occurredAt ∧
    form.note = transaction.note.getD []

/-- A transaction that a form could have written. -/
structure Transaction.Stored (transaction : Transaction) : Prop where
  amount : 1 ≤ transaction.amountKobo ∧ transaction.amountKobo ≤ 2 ^ 53 - 1
  occurredAt : ∃ value, dateInputToIso value = some transaction.occurredAt
  note : ∀ note ∈ transaction.note, trim note = note ∧ nonblank note = true

/-- **The transaction form**, filled and not touched, asks for what is stored. -/
theorem buildTransactionUpdatePayload_filled {transaction : Transaction}
    {form : TransactionUpdateForm} (h : transaction.Stored) (hshows : form.Shows transaction)
    (hgoal : form.goalSelectionChanged = false) :
    buildTransactionUpdatePayload form =
      some { direction := transaction.direction
             amountKobo := transaction.amountKobo
             occurredAt := transaction.occurredAt
             note := transaction.note
             goalId := none } := by
  obtain ⟨value, hvalue⟩ := h.occurredAt
  obtain ⟨hdirection, hamount, hdate, hnote⟩ := hshows
  have hsent : (if trim form.note = [] then none else some (trim form.note)) = transaction.note := by
    rw [hnote]
    cases hstored : transaction.note with
    | none => rfl
    | some note =>
      obtain ⟨htrim, hnonblank⟩ := h.note note hstored
      rw [Option.getD_some, if_neg (trim_ne_nil.2 hnonblank), htrim]
  rw [buildTransactionUpdatePayload, hamount, hdate, isoToDateInput,
    nairaInputToKobo_koboToNairaInput h.amount.1 h.amount.2, dateInputToIso_slice hvalue]
  simp [hgoal, hdirection, hsent]

/-- **Editing without changing anything** changes nothing. -/
theorem edit_unchanged :
    (∀ amountKobo : ℕ, 1 ≤ amountKobo → amountKobo ≤ 2 ^ 53 - 1 →
      nairaInputToKobo (koboToNairaInput amountKobo) = some amountKobo) ∧
    (∀ goal : Goal, goal.Stored → buildUpdateGoalPayload (goalToFormFields goal) =
      some { name := goal.name
             amountTotalKobo := goal.amountTotalKobo
             dueDate := goal.dueDate
             monthlyIncomeKobo := goal.monthlyIncomeKobo }) ∧
    (∀ (transaction : Transaction) (form : TransactionUpdateForm), transaction.Stored →
      form.Shows transaction → form.goalSelectionChanged = false →
        buildTransactionUpdatePayload form =
          some { direction := transaction.direction
                 amountKobo := transaction.amountKobo
                 occurredAt := transaction.occurredAt
                 note := transaction.note
                 goalId := none }) :=
  ⟨fun _ hpos hle ↦ nairaInputToKobo_koboToNairaInput hpos hle,
    fun _ h ↦ buildUpdateGoalPayload_filled h,
    fun _ _ h hshows hgoal ↦ buildTransactionUpdatePayload_filled h hshows hgoal⟩

namespace Demo

/-- A goal without an income, -/
def rent : Goal := ⟨"Rent".toList, 120000050, "2028-02-29T12:00:00.000Z".toList, some 0⟩

/-- a transaction of five kobo -/
def fare : Transaction := ⟨.out, 5, "2026-11-30T12:00:00.000Z".toList, none⟩

/-- and the form that shows it. -/
def fareForm : TransactionUpdateForm :=
  ⟨.out, koboToNairaInput 5, isoToDateInput fare.occurredAt, [], true, false, some "rent".toList, none⟩

end Demo

open Stead.Forms.Demo in
theorem edit_unchanged_kept : nairaInputToKobo (koboToNairaInput 5) = some 5 ∧
    buildUpdateGoalPayload (goalToFormFields rent) =
      some ⟨"Rent".toList, 120000050, "2028-02-29T12:00:00.000Z".toList, some 0⟩ ∧
    buildTransactionUpdatePayload fareForm =
      some ⟨.out, 5, "2026-11-30T12:00:00.000Z".toList, none, none⟩ := by
  refine ⟨edit_unchanged.1 5 (by decide) (by decide), edit_unchanged.2.1 rent ⟨by decide, by decide,
    by decide, "2028-02-29".toList, by decide⟩, edit_unchanged.2.2 fare fareForm
      ⟨by decide, ⟨"2026-11-30".toList, by decide⟩, ?_⟩ ⟨rfl, rfl, rfl, rfl⟩ rfl⟩
  intro note h
  cases h

end Forms

end Stead
