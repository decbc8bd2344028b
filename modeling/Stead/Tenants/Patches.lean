import Stead.Import.Notation
import Stead.Tenants.Bodies
import Stead.Tenants.Tables

/-!
# Updates of goals and transactions, field by field

The updates of the two services, from the body of a request to the columns of the row. A field that
is left out is to leave its column alone, a field with a value is to write what the value denotes,
and `null` is to clear a nullable column or to be refused. Where the code does that is said exactly
(`patch_semantics`).

## From the DTO to the statement

The services convert the fields once more (`BigInt`, `new Date`). What reaches a statement as
`undefined` leaves the column alone, and `null` is refused for a column that is not nullable. So a
field of a DTO does what it should to its column (`required_writes` and its neighbours), with one
exception: `new Date(null)` is the epoch, the one conversion here that turns `null` into a value.

## From the body to the DTO

The other departures happen in front of the services, where the pipe converts what it is given: a
boolean becomes an amount of 1, every text but the empty one becomes `true`, and an object a text.
And a date may name a day that the calendar does not have, which is counted on from the end of the
month. `Reads` relates a field of the body to the field of the DTO that comes of it, and each column
then has one lemma that says for which values it takes what they denote (`Reads.patches_iff`,
`date_patches_iff`).
-/

namespace Stead

/-- The largest number of a `BIGINT` column. -/
def BIGINT_MAX : ℕ := 2 ^ 63 - 1

variable (rt : PatchRuntime)

/-! ### Fields on their way to a statement -/

namespace BodyField

variable {α : Type}

/-- The value of a field that has one. -/
def value? : BodyField α → Option α
  | value a => some a
  | _ => none

/-- A field that is handed on as it is, for a column that is not nullable. -/
def required (storable : α → Bool) : BodyField α → Except PatchFailure (Option α)
  | undefined => .ok none
  | null => .error .nullArgument
  | value a => if storable a then .ok (some a) else .error .unstorable

/-- A field for a nullable column. -/
def nullable (storable : α → Bool) : BodyField α → Except PatchFailure (Option (Option α))
  | undefined => .ok none
  | null => .ok (some none)
  | value a => if storable a then .ok (some (some a)) else .error .unstorable

/-- `field === undefined ? undefined : BigInt(field)` -/
def bigInt : BodyField {n : ℕ // 1 ≤ n} → Except PatchFailure (Option ℕ)
  | undefined => .ok none
  | null => .error .typeError
  | value n => if n.1 ≤ BIGINT_MAX then .ok (some n.1) else .error .unstorable

/-- The date of a text, if the column can hold it. -/
def storableDate (text : Text) : Option Text :=
  (rt.isoDate text).filter rt.storable.occurredAt

/-- `field === undefined ? undefined : new Date(field)` -/
def newDate : BodyField {text : Text // rt.isDateString text = true} →
    Except PatchFailure (Option Text)
  | undefined => .ok none
  | null => if rt.storable.occurredAt EPOCH then .ok (some EPOCH) else .error .unstorable
  | value text =>
    match storableDate rt text.1 with
    | none => .error .unstorable
    | some date => .ok (some date)

end BodyField

namespace UpdateGoalBody

variable {rt} (body : UpdateGoalBody rt)

/-- `data` of the update. -/
def data : Except PatchFailure UpdateGoalDto := do
  let amountTotalKobo ← body.amountTotalKobo.bigInt
  let dueDate ← body.dueDate.newDate
  let name ← body.name.required fun name ↦ rt.storableText name.1
  let monthlyIncomeKobo ← body.monthlyIncomeKobo.nullable fun n ↦ n.1 ≤ BIGINT_MAX
  let isActive ← body.isActive.required fun _ ↦ true
  pure
    { name := name.map Subtype.val
      amountTotalKobo := amountTotalKobo.map Nat.cast
      dueDate := dueDate.map rt.time
      monthlyIncomeKobo := monthlyIncomeKobo.map (Option.map fun n ↦ n.1)
      isActive }

end UpdateGoalBody

/-- What an update does to the goal of a transaction. -/
def BodyField.goalLink : BodyField String → GoalLink
  | undefined => .keep
  | null => .clear
  | value text => if text = "" then .blank else .link (rt.goalOf text)

namespace UpdateTransactionBody

variable {rt} (body : UpdateTransactionBody rt)

/-- `data` of the update, and the date in it. -/
def data : Except PatchFailure (UpdateTransactionDto × Option Text) := do
  let amountKobo ← body.amountKobo.bigInt
  let occurredAt ← body.occurredAt.newDate
  let direction ← body.direction.required fun _ ↦ true
  let note ← body.note.nullable fun note ↦ rt.storable.note (some note.1.toList)
  pure
    ({ direction, amountKobo
       occurredAt := body.occurredAt.value?.map Subtype.val
       goalId := body.goalId.goalLink rt
       note := note.map (Option.map fun note ↦ note.1.toList) }, occurredAt)

end UpdateTransactionBody

/-! ### The updates -/

variable {rt}

/-- `GoalsService.update`, of a body that has passed validation. -/
def patchGoal (userId goalId : ℕ) (body : UpdateGoalBody rt) (now : ℤ) (goals : List GoalRow) :
    Except PatchFailure (GoalRow × List GoalRow) :=
  match goals.find? (GoalsService.owned goalId userId) with
  | none => .error (.refused (.goal (.notFound "Goal not found")))
  | some _ => do
    let dto ← body.data
    match GoalsService.update userId goalId dto now goals with
    | .error e => .error (.refused (.goal e))
    | .ok out => .ok out

/-- `TransactionsService.update`, of a body that has passed validation. -/
def patchTransaction (userId : ℕ) (s : TenantStore) (id : ℕ) (body : UpdateTransactionBody rt) :
    Except PatchFailure (TransactionRow × List TransactionRow) :=
  match s.transactions.find? (ownedTransaction userId id) with
  | none => .error (.refused (.notFound "Transaction not found"))
  | some tx =>
    if (body.goalId.goalLink rt).checked.all (s.hasGoal userId) then do
      let (dto, occurredAt) ← body.data
      if dto.goalId = .blank then .error (.refused .foreignKey)
      else
        pure (applyTransactionUpdate dto occurredAt tx, s.transactions.map fun t ↦
          if t.id = id then applyTransactionUpdate dto occurredAt t else t)
    else .error (.refused (.notFound "Goal not found"))

/-- `PATCH /goals/:id` -/
def GoalsController.update (rt : PatchRuntime) (userId goalId : ℕ) (payload : UpdateGoalPayload)
    (now : ℤ) (goals : List GoalRow) : Except PatchFailure (GoalRow × List GoalRow) := do
  let dto ← payload.transform rt
  patchGoal userId goalId dto now goals

/-- `PATCH /transactions/:id` -/
def TransactionsController.update (rt : PatchRuntime) (userId : ℕ) (s : TenantStore) (id : ℕ)
    (payload : UpdateTransactionPayload) :
    Except PatchFailure (TransactionRow × List TransactionRow) := do
  let dto ← payload.transform rt
  patchTransaction userId s id dto

/-! ### What an update is to do -/

/-- What a field means for a column: nothing, `null` where the column is nullable, or a value that
the field denotes. `nullValue` is `null` as the column has it. -/
def Patches {β : Type} (field : Option FieldValue) (denotes : FieldValue → β → Prop)
    (nullValue : Option β) (before after : β) : Prop :=
  match field with
  | none => after = before
  | some .null => nullValue = some after
  | some v => denotes v after

/-- The columns of a goal after an update, from those before. -/
structure GoalPatched (rt : PatchRuntime) (payload : UpdateGoalPayload) (before after : GoalRow) :
    Prop where
  name : Patches payload.name FieldValue.DenotesText none before.name after.name
  amountTotalKobo : Patches payload.amountTotalKobo (fun v c ↦ v.DenotesNumber (c : ℤ)) none
    before.amountTotalKobo after.amountTotalKobo
  dueDate : Patches payload.dueDate (FieldValue.DenotesInstant rt.utc) none
    before.dueDate after.dueDate
  monthlyIncomeKobo : Patches payload.monthlyIncomeKobo
    (fun v c ↦ ∃ n : ℤ, c = some n ∧ v.DenotesNumber n) (some none)
    before.monthlyIncomeKobo after.monthlyIncomeKobo
  isActive : Patches payload.isActive FieldValue.DenotesBoolean none before.isActive after.isActive
  /-- the end of a goal goes with `isActive` -/
  ended : payload.isActive = none → after.status = before.status ∧ after.endedAt = before.endedAt
  rest : after.id = before.id ∧ after.userId = before.userId ∧ after.createdAt = before.createdAt

/-- The columns of a transaction after an update, from those before. -/
structure TransactionPatched (rt : PatchRuntime) (payload : UpdateTransactionPayload)
    (before after : TransactionRow) : Prop where
  direction : Patches payload.direction
    (fun v c ↦ v.DenotesText (String.ofList (Direction.text c))) none
    before.direction after.direction
  amountKobo : Patches payload.amountKobo (fun v c ↦ v.DenotesNumber (c : ℕ)) none
    before.amountKobo after.amountKobo
  occurredAt : Patches payload.occurredAt (fun v c ↦ v.DenotesInstant rt.utc (rt.time c)) none
    before.occurredAt after.occurredAt
  goalId : Patches payload.goalId
    (fun v c ↦ ∃ text ≠ "", v.DenotesText text ∧ c = some (rt.goalOf text)) (some none)
    before.goalId after.goalId
  note : Patches payload.note (fun v c ↦ ∃ text : String, v.DenotesText text ∧ c = some text.toList)
    (some none) before.note after.note
  rest : after.id = before.id ∧ after.userId = before.userId ∧
    after.importFingerprint = before.importFingerprint ∧ after.createdAt = before.createdAt

/-- The fields of a body for a goal are converted to what they denote, unless they are refused. -/
structure UpdateGoalPayload.Literal (payload : UpdateGoalPayload) : Prop where
  name : ∀ v ∈ payload.name, v.Written
  amountTotalKobo : ∀ v ∈ payload.amountTotalKobo, v.Exact
  dueDate : ∀ v ∈ payload.dueDate, v.Dated
  isActive : ∀ v ∈ payload.isActive, v.Boolean

/-- The same of a body for a transaction, whose other fields are never converted to anything else. -/
structure UpdateTransactionPayload.Literal (payload : UpdateTransactionPayload) : Prop where
  amountKobo : ∀ v ∈ payload.amountKobo, v.Exact
  occurredAt : ∀ v ∈ payload.occurredAt, v.Dated

/-! ### From the body to the DTO -/

theorem except_bind_eq_ok {ε α β : Type} {x : Except ε α} {f : α → Except ε β} {b : β} :
    (x >>= f) = .ok b ↔ ∃ a, x = .ok a ∧ f a = .ok b := by
  cases x with
  | error e => exact ⟨nofun, fun h ↦ by obtain ⟨_, ⟨⟩, _⟩ := h⟩
  | ok a => exact ⟨fun h ↦ ⟨a, rfl, h⟩, fun h ↦ by obtain ⟨_, ⟨rfl⟩, h⟩ := h; exact h⟩

/-- The field of a DTO that a field of the body becomes, by what `reads` says of values. -/
inductive Reads {α : Type} (reads : FieldValue → α → Prop) :
    Option FieldValue → BodyField α → Prop
  | undefined : Reads reads none .undefined
  | null : Reads reads (some .null) .null
  | value {v : FieldValue} {a : α} (hv : v ≠ .null) (h : reads v a) :
      Reads reads (some v) (.value a)

section Reads

variable {α β : Type} {convert : FieldValue → Except PatchFailure FieldValue}
  {check : FieldValue → Option α} {reads : FieldValue → α → Prop} {field : Option FieldValue}
  {bodyField : BodyField α}

/-- A value that is converted and then passes its check. -/
def Converted (convert : FieldValue → Except PatchFailure FieldValue)
    (check : FieldValue → Option α) (v : FieldValue) (a : α) : Prop :=
  ∃ v', convert v = .ok v' ∧ check v' = some a

/-- A value other than `null` that a field keeps has passed its check. -/
theorem optional_eq_ok {v : FieldValue} (hv : v ≠ .null)
    (h : BodyField.optional check (some v) = .ok bodyField) :
    ∃ a, check v = some a ∧ bodyField = .value a := by
  cases v with
  | null => exact absurd rfl hv
  | _ =>
    simp only [BodyField.optional] at h
    split at h
    · next a ha =>
      cases h
      exact ⟨a, ha, rfl⟩
    · cases h

/-- **A field that is converted and validated** becomes a field of the DTO. -/
theorem reads_of_ok (hkeeps : FieldValue.KeepsNull convert) {field' : Option FieldValue}
    (hconvert : field.mapM convert = .ok field')
    (hcheck : BodyField.optional check field' = .ok bodyField) :
    Reads (Converted convert check) field bodyField := by
  cases field with
  | none =>
    cases hconvert
    cases hcheck
    exact .undefined
  | some v =>
    rw [Option.mapM_some, map_eq_pure_bind, except_bind_eq_ok] at hconvert
    obtain ⟨v', hv', ⟨⟩⟩ := hconvert
    by_cases hnull : v' = .null
    · obtain rfl := hnull
      obtain rfl := (hkeeps v _ hv').1 rfl
      cases hcheck
      exact .null
    · obtain ⟨a, ha, rfl⟩ := optional_eq_ok hnull hcheck
      exact .value (fun h ↦ hnull ((hkeeps v v' hv').2 h)) ⟨v', hv', ha⟩

/-- Of a field with a value its value decides. -/
theorem patches_value {denotes : FieldValue → β → Prop} {nullValue : Option β} {before after : β}
    {v : FieldValue} (hv : v ≠ .null) :
    Patches (some v) denotes nullValue before after ↔ denotes v after := by
  cases v with
  | null => exact absurd rfl hv
  | _ => rfl

end Reads

/-! ### From the DTO to the statement -/

namespace BodyField

variable {α β : Type}

/-- What a field of a DTO does to a column that takes the image of its value. -/
def Writes (field : BodyField α) (f : α → β) (nullValue : Option β) (before after : β) : Prop :=
  match field with
  | .undefined => after = before
  | .null => nullValue = some after
  | .value a => after = f a

/-- A field that is not refused by a column that is not nullable. -/
def Accepted (storable : α → Bool) : BodyField α → Prop
  | undefined => True
  | null => False
  | value a => storable a = true

/-- A field that is not refused by a nullable column. -/
def AcceptedNullable (storable : α → Bool) : BodyField α → Prop
  | undefined | null => True
  | value a => storable a = true

/-- `required` refuses what the column does. -/
theorem required_ok {storable : α → Bool} {field : BodyField α} :
    (∃ d, field.required storable = .ok d) ↔ field.Accepted storable := by
  cases field with
  | undefined => simp [required, Accepted]
  | null => simp [required, Accepted]
  | value a => cases h : storable a <;> simp [required, Accepted, h]

/-- `nullable` refuses what the column does. -/
theorem nullable_ok {storable : α → Bool} {field : BodyField α} :
    (∃ d, field.nullable storable = .ok d) ↔ field.AcceptedNullable storable := by
  cases field with
  | undefined => simp [nullable, AcceptedNullable]
  | null => simp [nullable, AcceptedNullable]
  | value a => cases h : storable a <;> simp [nullable, AcceptedNullable, h]

/-- `BigInt` refuses `null`, and the column numbers of 64 binary digits. -/
theorem bigInt_ok {field : BodyField {n : ℕ // 1 ≤ n}} :
    (∃ d, field.bigInt = .ok d) ↔ field.Accepted fun n ↦ n.1 ≤ BIGINT_MAX := by
  cases field with
  | undefined => simp [bigInt, Accepted]
  | null => simp [bigInt, Accepted]
  | value n => by_cases h : n.1 ≤ BIGINT_MAX <;> simp [bigInt, Accepted, h]

/-- `null` is a date as good as any. -/
theorem newDate_ok {field : BodyField {text : Text // rt.isDateString text = true}} :
    (∃ d, field.newDate = .ok d) ↔ field.AcceptedNullable fun text ↦
      (storableDate rt text.1).isSome := by
  cases field with
  | undefined => simp [newDate, AcceptedNullable]
  | null => simp [newDate, AcceptedNullable, rt.storable_epoch]
  | value text => cases h : storableDate rt text.1 <;> simp [newDate, AcceptedNullable, h]

/-- A column takes what `required` hands on. -/
theorem required_writes {storable : α → Bool} {field : BodyField α} {d : Option α}
    (h : field.required storable = .ok d) (f : α → β) (before : β) :
    field.Writes f none before ((d.map f).getD before) := by
  cases field with
  | undefined =>
    cases h
    rfl
  | null => cases h
  | value a =>
    simp only [required] at h
    split at h
    · cases h
      rfl
    · cases h

/-- A nullable column takes what `nullable` hands on. -/
theorem nullable_writes {storable : α → Bool} {field : BodyField α} {d : Option (Option α)}
    (h : field.nullable storable = .ok d) (f : α → β) (before : Option β) :
    field.Writes (fun a ↦ some (f a)) (some none) before
      ((d.map (Option.map f)).getD before) := by
  cases field with
  | undefined | null =>
    cases h
    rfl
  | value a =>
    simp only [nullable] at h
    split at h
    · cases h
      rfl
    · cases h

/-- A column takes the number that `BigInt` hands on. -/
theorem bigInt_writes {field : BodyField {n : ℕ // 1 ≤ n}} {d : Option ℕ}
    (h : field.bigInt = .ok d) (f : ℕ → β) (before : β) :
    field.Writes (fun n ↦ f n.1) none before ((d.map f).getD before) := by
  cases field with
  | undefined =>
    cases h
    rfl
  | null => cases h
  | value n =>
    simp only [bigInt] at h
    split at h
    · cases h
      rfl
    · cases h

end BodyField

/-! ### From the body to the column -/

section Columns

variable {α β : Type} {reads : FieldValue → α → Prop} {field : Option FieldValue}
  {bodyField : BodyField α}

/-- **A field and its column.** The column takes what the field means exactly if the value of the
field is converted to what it denotes. -/
theorem Reads.patches_iff (h : Reads reads field bodyField) {f : α → β} {nullValue : Option β}
    {before after : β} (hwrites : bodyField.Writes f nullValue before after)
    {denotes : FieldValue → β → Prop} {literal : FieldValue → Prop} (hnull : literal .null)
    (hliteral : ∀ v a, reads v a → (denotes v (f a) ↔ literal v)) :
    Patches field denotes nullValue before after ↔ ∀ v ∈ field, literal v := by
  cases h with
  | undefined => exact iff_of_true hwrites nofun
  | null => exact iff_of_true hwrites fun v hv ↦ Option.mem_some.1 hv ▸ hnull
  | @value v a hv hreads =>
    have hafter : after = f a := hwrites
    rw [patches_value hv, hafter, hliteral v a hreads]
    exact ⟨fun hv v' hv' ↦ Option.mem_some.1 hv' ▸ hv, fun hall ↦ hall v rfl⟩

/-- The same of a field whose value is always converted to what it denotes. -/
theorem Reads.patches (h : Reads reads field bodyField) {f : α → β} {nullValue : Option β}
    {before after : β} (hwrites : bodyField.Writes f nullValue before after)
    {denotes : FieldValue → β → Prop} (hdenotes : ∀ v a, reads v a → denotes v (f a)) :
    Patches field denotes nullValue before after := by
  have hiff : Patches field denotes nullValue before after ↔ ∀ v ∈ field, True :=
    h.patches_iff hwrites trivial fun v a hreads ↦ iff_of_true (hdenotes v a hreads) trivial
  exact hiff.2 fun _ _ ↦ trivial

variable {field' : Option FieldValue}

/-- A field that is converted to a number. -/
theorem number_patches_iff {bodyField : BodyField {n : ℕ // 1 ≤ n}}
    (hconvert : field.mapM FieldValue.toNumber = .ok field')
    (hcheck : BodyField.optional (FieldValue.integer? 1) field' = .ok bodyField) {d : Option ℕ}
    (hdata : bodyField.bigInt = .ok d) {f : ℕ → β} {denotes : FieldValue → β → Prop}
    (hdenotes : ∀ v n, denotes v (f n) ↔ v.DenotesNumber n) (before : β) :
    Patches field denotes none before ((d.map f).getD before) ↔ ∀ v ∈ field, v.Exact := by
  refine (reads_of_ok FieldValue.keepsNull_toNumber hconvert hcheck).patches_iff
    (BodyField.bigInt_writes hdata f before) trivial fun v n hreads ↦ ?_
  obtain ⟨v', hv', hn⟩ := hreads
  obtain ⟨x, rfl, hx⟩ := FieldValue.integer?_eq_some hn
  rw [hdenotes, ← hx]
  exact FieldValue.toNumber_denotes hv'

/-- A field that is converted to a text and read by `new Date`. Its column takes the instant that
the field denotes exactly if the field is a text and names its day; `null` becomes the epoch, which
the field does not denote. -/
theorem date_patches_iff {bodyField : BodyField {text : Text // rt.isDateString text = true}}
    (hconvert : field.mapM (FieldValue.toText rt.numberText) = .ok field')
    (hcheck : BodyField.optional (FieldValue.date? rt.isDateString) field' = .ok bodyField)
    {d : Option Text} (hdata : bodyField.newDate = .ok d) {f : Text → β}
    {denotes : FieldValue → β → Prop}
    (hdenotes : ∀ v date, denotes v (f date) ↔ v.DenotesInstant rt.utc (rt.time date)) (before : β) :
    Patches field denotes none before ((d.map f).getD before) ↔ ∀ v ∈ field, v.Dated := by
  cases reads_of_ok (FieldValue.keepsNull_toText _) hconvert hcheck with
  | undefined =>
    cases hdata
    exact iff_of_true rfl nofun
  | null => exact iff_of_false nofun fun hall ↦ hall .null rfl
  | @value v text hv hreads =>
    obtain ⟨v', hv', htext⟩ := hreads
    obtain ⟨s, rfl, hs⟩ := FieldValue.date?_eq_some htext
    simp only [BodyField.newDate] at hdata
    split at hdata
    · cases hdata
    · next date hstorable =>
      cases hdata
      have hiso : rt.isoDate text.1 = some date := (Option.filter_eq_some_iff.1 hstorable).1
      rw [patches_value hv]
      show denotes v (f date) ↔ _
      rw [hdenotes, FieldValue.dated_denotes hiso (by rw [hv', hs, String.ofList_toList])]
      exact ⟨fun hv v' hv' ↦ Option.mem_some.1 hv' ▸ hv, fun hall ↦ hall v rfl⟩

end Columns

/-! ### Goals -/

namespace UpdateGoalBody

/-- The columns take all fields. -/
structure Accepted (body : UpdateGoalBody rt) : Prop where
  name : body.name.Accepted fun name ↦ rt.storableText name.1
  amountTotalKobo : body.amountTotalKobo.Accepted fun n ↦ n.1 ≤ BIGINT_MAX
  dueDate : body.dueDate.AcceptedNullable fun text ↦ (BodyField.storableDate rt text.1).isSome
  monthlyIncomeKobo : body.monthlyIncomeKobo.AcceptedNullable fun n ↦ n.1 ≤ BIGINT_MAX
  isActive : body.isActive.Accepted fun _ ↦ true

variable {body : UpdateGoalBody rt}

/-- The statement is made exactly if the columns take all fields. -/
theorem data_ok : (∃ dto, body.data = .ok dto) ↔ body.Accepted := by
  constructor
  · rintro ⟨dto, h⟩
    simp only [data, except_bind_eq_ok] at h
    obtain ⟨amount, hamount, date, hdate, name, hname, income, hincome, active, hactive, -⟩ := h
    exact ⟨BodyField.required_ok.1 ⟨name, hname⟩, BodyField.bigInt_ok.1 ⟨amount, hamount⟩,
      BodyField.newDate_ok.1 ⟨date, hdate⟩, BodyField.nullable_ok.1 ⟨income, hincome⟩,
      BodyField.required_ok.1 ⟨active, hactive⟩⟩
  · intro h
    obtain ⟨name, hname⟩ := BodyField.required_ok.2 h.name
    obtain ⟨amount, hamount⟩ := BodyField.bigInt_ok.2 h.amountTotalKobo
    obtain ⟨date, hdate⟩ := BodyField.newDate_ok.2 h.dueDate
    obtain ⟨income, hincome⟩ := BodyField.nullable_ok.2 h.monthlyIncomeKobo
    obtain ⟨active, hactive⟩ := BodyField.required_ok.2 h.isActive
    simp only [data, except_bind_eq_ok]
    exact ⟨_, amount, hamount, date, hdate, name, hname, income, hincome, active, hactive, rfl⟩

end UpdateGoalBody

section Goals

open GoalsService

variable {userId goalId : ℕ} {payload : UpdateGoalPayload} {body : UpdateGoalBody rt} {now : ℤ}
  {goals : List GoalRow}

/-- A body whose fields pass validation and are taken by the columns. -/
def UpdateGoalPayload.Accepted (rt : PatchRuntime) (payload : UpdateGoalPayload) : Prop :=
  ∃ body, payload.transform rt = .ok body ∧ body.Accepted

/-- **The columns of a goal** after an update take what the fields mean exactly if the fields are
converted to what they denote. -/
theorem goalPatched_iff {dto : UpdateGoalDto} (hbody : payload.transform rt = .ok body)
    (h : body.data = .ok dto) (now : ℤ) (goal : GoalRow) :
    GoalPatched rt payload goal (applyUpdate dto goal now goal) ↔ payload.Literal := by
  simp only [UpdateGoalPayload.transform, UpdateGoalPayload.toInstance, except_bind_eq_ok] at hbody
  obtain ⟨_, ⟨name', hname', amount', hamount', date', hdate', ⟨⟩⟩, hbody⟩ := hbody
  simp only [UpdateGoalPayload.validate, except_bind_eq_ok] at hbody
  obtain ⟨bname, hbname, bamount, hbamount, bdate, hbdate, bincome, hbincome, bactive, hbactive,
    ⟨⟩⟩ := hbody
  simp only [UpdateGoalBody.data, except_bind_eq_ok] at h
  obtain ⟨amount, hamount, date, hdate, name, hname, income, hincome, active, hactive, ⟨⟩⟩ := h
  -- each field, from the body to its column
  have hconverted : payload.isActive.mapM (fun v ↦ .ok v.toBoolean) =
      (.ok (payload.isActive.map FieldValue.toBoolean) : Except PatchFailure _) := by
    cases payload.isActive <;> rfl
  have hunconverted : payload.monthlyIncomeKobo.mapM .ok =
      (.ok payload.monthlyIncomeKobo : Except PatchFailure _) := by
    cases payload.monthlyIncomeKobo <;> rfl
  have hname : Patches payload.name FieldValue.DenotesText none goal.name
      ((name.map Subtype.val).getD goal.name) ↔ ∀ v ∈ payload.name, v.Written := by
    refine (reads_of_ok (FieldValue.keepsNull_toText _) hname' hbname).patches_iff
      (BodyField.required_writes hname Subtype.val goal.name) trivial fun v a hreads ↦ ?_
    obtain ⟨v', hv', ha⟩ := hreads
    exact FieldValue.toText_denotes (hv'.trans (congrArg _ (FieldValue.text?_eq_some.1 ha)))
  have hended : payload.isActive = none → active = none := by
    intro hnone
    rw [hnone] at hbactive
    cases hbactive
    cases hactive
    rfl
  have hactive : Patches payload.isActive FieldValue.DenotesBoolean none goal.isActive
      (active.getD goal.isActive) ↔ ∀ v ∈ payload.isActive, v.Boolean := by
    have hwrites := BodyField.required_writes hactive id goal.isActive
    rw [Option.map_id_fun] at hwrites
    refine (reads_of_ok FieldValue.keepsNull_toBoolean hconverted hbactive).patches_iff hwrites
      trivial fun v a hreads ↦ ?_
    obtain ⟨v', ⟨⟩, ha⟩ := hreads
    exact FieldValue.toBoolean_denotes (FieldValue.boolean?_eq_some ha)
  have hincome : Patches payload.monthlyIncomeKobo
      (fun v c ↦ ∃ n : ℤ, c = some n ∧ v.DenotesNumber n) (some none) goal.monthlyIncomeKobo
      ((income.map (Option.map fun n ↦ (n.1 : ℤ))).getD goal.monthlyIncomeKobo) := by
    refine (reads_of_ok FieldValue.keepsNull_ok hunconverted hbincome).patches
      (BodyField.nullable_writes hincome (fun n ↦ (n.1 : ℤ)) _) fun v a hreads ↦ ?_
    obtain ⟨v', ⟨⟩, ha⟩ := hreads
    obtain ⟨x, rfl, hx⟩ := FieldValue.integer?_eq_some ha
    exact ⟨a.1, rfl, by rw [Int.cast_natCast, ← hx]; rfl⟩
  have hamount : Patches payload.amountTotalKobo (fun v (c : ℤ) ↦ v.DenotesNumber c) none
      goal.amountTotalKobo ((amount.map Nat.cast).getD goal.amountTotalKobo) ↔
        ∀ v ∈ payload.amountTotalKobo, v.Exact :=
    number_patches_iff hamount' hbamount hamount (fun v n ↦ by rw [Int.cast_natCast]) _
  have hdate : Patches payload.dueDate (FieldValue.DenotesInstant rt.utc) none goal.dueDate
      ((date.map rt.time).getD goal.dueDate) ↔ ∀ v ∈ payload.dueDate, v.Dated :=
    date_patches_iff hdate' hbdate hdate (fun _ _ ↦ Iff.rfl) _
  constructor
  · exact fun hpatched ↦ ⟨hname.1 hpatched.name, hamount.1 hpatched.amountTotalKobo,
      hdate.1 hpatched.dueDate, hactive.1 hpatched.isActive⟩
  · refine fun hliteral ↦ ⟨hname.2 hliteral.name, hamount.2 hliteral.amountTotalKobo,
      hdate.2 hliteral.dueDate, hincome, hactive.2 hliteral.isActive, fun hnone ↦ ?_, rfl, rfl, rfl⟩
    rw [hended hnone]
    exact ⟨rfl, rfl⟩

/-- An update that succeeds. -/
theorem patchGoal_eq_ok (h : GoalsIndexed goals) {out : GoalRow × List GoalRow} :
    patchGoal userId goalId body now goals = .ok out ↔
      ∃ existing dto, goals.find? (owned goalId userId) = some existing ∧ body.data = .ok dto ∧
        out = (applyUpdate dto existing now existing,
          updateRow goalId (applyUpdate dto existing now) (cleared userId goalId dto now goals)) := by
  unfold patchGoal
  cases hfind : goals.find? (owned goalId userId) with
  | none => simp
  | some existing =>
    cases hdata : body.data with
    | error e => simp [bind, Except.bind]
    | ok dto =>
      simp only [bind, Except.bind, (update_ok h dto hfind).2]
      simp [eq_comm]

/-- **A goal** is updated field by field exactly if its fields are converted to what they denote, or
there is no update. -/
theorem goalsController_update_iff (rt : PatchRuntime) (h : GoalsIndexed goals) :
    (∀ existing goal goals', goals.find? (owned goalId userId) = some existing →
      GoalsController.update rt userId goalId payload now goals = .ok (goal, goals') →
        goal ∈ goals' ∧ GoalPatched rt payload existing goal) ↔
      payload.Literal ∨ goals.find? (owned goalId userId) = none ∨ ¬ payload.Accepted rt := by
  constructor
  · intro hpatched
    rw [or_iff_not_imp_right, not_or, not_not]
    rintro ⟨hfound, body, hbody, haccepted⟩
    obtain ⟨existing, hfind⟩ := Option.ne_none_iff_exists'.1 hfound
    obtain ⟨dto, hdata⟩ := UpdateGoalBody.data_ok.2 haccepted
    have hok : GoalsController.update rt userId goalId payload now goals = .ok _ :=
      except_bind_eq_ok.2 ⟨body, hbody, (patchGoal_eq_ok h).2 ⟨existing, dto, hfind, hdata, rfl⟩⟩
    exact (goalPatched_iff hbody hdata now existing).1 (hpatched existing _ _ hfind hok).2
  · intro hcond existing goal goals' hfind hok
    obtain ⟨body, hbody, hok⟩ := except_bind_eq_ok.1 hok
    obtain ⟨existing', dto, hfind', hdata, heq⟩ := (patchGoal_eq_ok h).1 hok
    cases hfind.symm.trans hfind'
    cases heq
    have hliteral : payload.Literal := by
      rcases hcond with hliteral | hnone | hrefused
      · exact hliteral
      · cases hnone.symm.trans hfind
      · exact absurd ⟨body, hbody, UpdateGoalBody.data_ok.1 ⟨dto, hdata⟩⟩ hrefused
    exact ⟨(update_ok h dto hfind).1, (goalPatched_iff hbody hdata now existing).2 hliteral⟩

end Goals

/-! ### Transactions -/

namespace UpdateTransactionBody

/-- The columns take all fields, and the goal is there. -/
structure Accepted (userId : ℕ) (s : TenantStore) (body : UpdateTransactionBody rt) : Prop where
  direction : body.direction.Accepted fun _ ↦ true
  amountKobo : body.amountKobo.Accepted fun n ↦ n.1 ≤ BIGINT_MAX
  occurredAt : body.occurredAt.AcceptedNullable fun text ↦
    (BodyField.storableDate rt text.1).isSome
  goalId : body.goalId.AcceptedNullable fun text ↦ text ≠ "" && s.hasGoal userId (rt.goalOf text)
  note : body.note.AcceptedNullable fun note ↦ rt.storable.note (some note.1.toList)

variable {body : UpdateTransactionBody rt} {userId : ℕ} {s : TenantStore}

/-- The goal that the statement links is the one of the body. -/
theorem data_goalId {out : UpdateTransactionDto × Option Text} (h : body.data = .ok out) :
    out.1.goalId = body.goalId.goalLink rt := by
  simp only [data, except_bind_eq_ok] at h
  obtain ⟨_, _, _, _, _, _, _, _, ⟨⟩⟩ := h
  rfl

/-- The goal of a body is one of the user's, or none. -/
theorem goalId_accepted {goalId : BodyField String} :
    goalId.AcceptedNullable (fun text ↦ text ≠ "" && s.hasGoal userId (rt.goalOf text)) ↔
      (goalId.goalLink rt).checked.all (s.hasGoal userId) = true ∧ goalId.goalLink rt ≠ .blank := by
  cases goalId with
  | undefined | null => simp [BodyField.AcceptedNullable, BodyField.goalLink, GoalLink.checked]
  | value text =>
    by_cases hempty : text = "" <;>
      simp [BodyField.AcceptedNullable, BodyField.goalLink, GoalLink.checked, hempty]

/-- The statement is made, and succeeds, exactly if the columns take all fields. -/
theorem accepted_iff : body.Accepted userId s ↔ (∃ out, body.data = .ok out) ∧
    (body.goalId.goalLink rt).checked.all (s.hasGoal userId) = true ∧
      body.goalId.goalLink rt ≠ .blank := by
  rw [← goalId_accepted]
  constructor
  · intro h
    obtain ⟨direction, hdirection⟩ := BodyField.required_ok.2 h.direction
    obtain ⟨amount, hamount⟩ := BodyField.bigInt_ok.2 h.amountKobo
    obtain ⟨date, hdate⟩ := BodyField.newDate_ok.2 h.occurredAt
    obtain ⟨note, hnote⟩ := BodyField.nullable_ok.2 h.note
    refine ⟨?_, h.goalId⟩
    simp only [data, except_bind_eq_ok]
    exact ⟨_, amount, hamount, date, hdate, direction, hdirection, note, hnote, rfl⟩
  · rintro ⟨⟨out, h⟩, hgoal⟩
    simp only [data, except_bind_eq_ok] at h
    obtain ⟨amount, hamount, date, hdate, direction, hdirection, note, hnote, -⟩ := h
    exact ⟨BodyField.required_ok.1 ⟨direction, hdirection⟩, BodyField.bigInt_ok.1 ⟨amount, hamount⟩,
      BodyField.newDate_ok.1 ⟨date, hdate⟩, hgoal, BodyField.nullable_ok.1 ⟨note, hnote⟩⟩

end UpdateTransactionBody

section TransactionPatches

variable {userId id : ℕ} {s : TenantStore} {payload : UpdateTransactionPayload}
  {body : UpdateTransactionBody rt}

/-- A body whose fields pass validation and are taken by the columns, with a goal that is there. -/
def UpdateTransactionPayload.Accepted (rt : PatchRuntime) (userId : ℕ) (s : TenantStore)
    (payload : UpdateTransactionPayload) : Prop :=
  ∃ body, payload.transform rt = .ok body ∧ body.Accepted userId s

/-- The goal of a transaction takes what its field means, if that is not an empty text. -/
theorem goalLink_patches {field : Option FieldValue} {goalId : BodyField String}
    (h : Reads (Converted .ok FieldValue.string?) field goalId) (hblank : goalId.goalLink rt ≠ .blank)
    {dto : UpdateTransactionDto} (hdto : dto.goalId = goalId.goalLink rt) (occurredAt : Option Text)
    (tx : TransactionRow) :
    Patches field (fun v c ↦ ∃ text ≠ "", v.DenotesText text ∧ c = some (rt.goalOf text)) (some none)
      tx.goalId (applyTransactionUpdate dto occurredAt tx).goalId := by
  unfold applyTransactionUpdate
  rw [hdto]
  cases h with
  | undefined | null => rfl
  | @value v text hv hreads =>
    obtain ⟨v', ⟨⟩, ha⟩ := hreads
    obtain rfl := FieldValue.string?_eq_some ha
    have hempty : text ≠ "" := fun h ↦ hblank (if_pos h)
    refine ⟨text, hempty, rfl, ?_⟩
    simp only [BodyField.goalLink, if_neg hempty]

/-- **The columns of a transaction** after an update take what the fields mean exactly if the fields
are converted to what they denote. -/
theorem transactionPatched_iff {out : UpdateTransactionDto × Option Text}
    (hbody : payload.transform rt = .ok body) (h : body.data = .ok out)
    (hblank : body.goalId.goalLink rt ≠ .blank) (tx : TransactionRow) :
    TransactionPatched rt payload tx (applyTransactionUpdate out.1 out.2 tx) ↔ payload.Literal := by
  simp only [UpdateTransactionPayload.transform, UpdateTransactionPayload.toInstance,
    except_bind_eq_ok] at hbody
  obtain ⟨_, ⟨direction', hdirection', amount', hamount', date', hdate', ⟨⟩⟩, hbody⟩ := hbody
  simp only [UpdateTransactionPayload.validate, except_bind_eq_ok] at hbody
  obtain ⟨bdirection, hbdirection, bamount, hbamount, bdate, hbdate, bgoal, hbgoal, bnote, hbnote,
    ⟨⟩⟩ := hbody
  simp only [UpdateTransactionBody.data, except_bind_eq_ok] at h
  obtain ⟨amount, hamount, date, hdate, direction, hdirection, note, hnote, ⟨⟩⟩ := h
  have hunconverted : ∀ field : Option FieldValue,
      field.mapM .ok = (.ok field : Except PatchFailure _) := fun field ↦ by cases field <;> rfl
  -- each field, from the body to its column
  have hdirection : Patches payload.direction
      (fun v c ↦ v.DenotesText (String.ofList (Direction.text c))) none tx.direction
      (direction.getD tx.direction) := by
    have hwrites := BodyField.required_writes hdirection id tx.direction
    rw [Option.map_id_fun] at hwrites
    refine (reads_of_ok (FieldValue.keepsNull_toText _) hdirection' hbdirection).patches hwrites
      fun v a hreads ↦ ?_
    obtain ⟨v', hv', ha⟩ := hreads
    obtain rfl := FieldValue.direction?_eq_some ha
    exact FieldValue.direction_denotes hv'
  have hamount : Patches payload.amountKobo (fun v (c : ℕ) ↦ v.DenotesNumber c) none
      tx.amountKobo (amount.getD tx.amountKobo) ↔ ∀ v ∈ payload.amountKobo, v.Exact := by
    have hpatches : Patches payload.amountKobo (fun v (c : ℕ) ↦ v.DenotesNumber c) none
        tx.amountKobo ((amount.map id).getD tx.amountKobo) ↔ ∀ v ∈ payload.amountKobo, v.Exact :=
      number_patches_iff hamount' hbamount hamount (f := id) (fun _ _ ↦ Iff.rfl) _
    rwa [Option.map_id_fun] at hpatches
  have hdate : Patches payload.occurredAt (fun v c ↦ v.DenotesInstant rt.utc (rt.time c)) none
      tx.occurredAt (date.getD tx.occurredAt) ↔ ∀ v ∈ payload.occurredAt, v.Dated := by
    have hpatches : Patches payload.occurredAt
        (fun v c ↦ v.DenotesInstant rt.utc (rt.time c)) none tx.occurredAt
        ((date.map id).getD tx.occurredAt) ↔ ∀ v ∈ payload.occurredAt, v.Dated :=
      date_patches_iff hdate' hbdate hdate (f := id) (fun _ _ ↦ Iff.rfl) _
    rwa [Option.map_id_fun] at hpatches
  have hnote : Patches payload.note
      (fun v c ↦ ∃ text : String, v.DenotesText text ∧ c = some text.toList) (some none) tx.note
      ((note.map (Option.map fun note ↦ note.1.toList)).getD tx.note) := by
    refine (reads_of_ok FieldValue.keepsNull_ok (hunconverted _) hbnote).patches
      (BodyField.nullable_writes hnote (fun note ↦ note.1.toList) _) fun v a hreads ↦ ?_
    obtain ⟨v', ⟨⟩, ha⟩ := hreads
    obtain rfl := FieldValue.text?_eq_some.1 ha
    exact ⟨a.1, rfl, rfl⟩
  have hreads := reads_of_ok FieldValue.keepsNull_ok (hunconverted _) hbgoal
  constructor
  · exact fun hpatched ↦ ⟨hamount.1 hpatched.amountKobo, hdate.1 hpatched.occurredAt⟩
  · exact fun hliteral ↦ ⟨hdirection, hamount.2 hliteral.amountKobo, hdate.2 hliteral.occurredAt,
      goalLink_patches hreads hblank rfl _ tx, hnote, rfl, rfl, rfl, rfl⟩

/-- An update that succeeds. -/
theorem patchTransaction_eq_ok {out : TransactionRow × List TransactionRow} :
    patchTransaction userId s id body = .ok out ↔
      ∃ existing data, s.transactions.find? (ownedTransaction userId id) = some existing ∧
        body.Accepted userId s ∧ body.data = .ok data ∧
        out = (applyTransactionUpdate data.1 data.2 existing, s.transactions.map fun t ↦
          if t.id = id then applyTransactionUpdate data.1 data.2 t else t) := by
  unfold patchTransaction
  cases hfind : s.transactions.find? (ownedTransaction userId id) with
  | none => simp
  | some existing =>
    simp only [UpdateTransactionBody.accepted_iff]
    cases hdata : body.data with
    | error e => cases hgoal : (body.goalId.goalLink rt).checked.all (s.hasGoal userId) <;>
        simp [bind, Except.bind]
    | ok data =>
      have hlink := UpdateTransactionBody.data_goalId hdata
      cases hgoal : (body.goalId.goalLink rt).checked.all (s.hasGoal userId) with
      | false => simp
      | true =>
        simp only [bind, Except.bind, hlink]
        by_cases hblank : body.goalId.goalLink rt = .blank
        · simp [hblank]
        · simp [hblank, pure, Except.pure, eq_comm]

/-- **A transaction** is updated field by field exactly if its fields are converted to what they
denote, or there is no update. -/
theorem transactionsController_update_iff (rt : PatchRuntime) :
    (∀ existing tx transactions, s.transactions.find? (ownedTransaction userId id) = some existing →
      TransactionsController.update rt userId s id payload = .ok (tx, transactions) →
        tx ∈ transactions ∧ TransactionPatched rt payload existing tx) ↔
      payload.Literal ∨ s.transactions.find? (ownedTransaction userId id) = none ∨
        ¬ payload.Accepted rt userId s := by
  constructor
  · intro hpatched
    rw [or_iff_not_imp_right, not_or, not_not]
    rintro ⟨hfound, body, hbody, haccepted⟩
    -- The row is there and the body is accepted, so the call answers and has patched the row.
    obtain ⟨existing, hfind⟩ := Option.ne_none_iff_exists'.1 hfound
    obtain ⟨⟨data, hdata⟩, -, hblank⟩ := UpdateTransactionBody.accepted_iff.1 haccepted
    have hok : TransactionsController.update rt userId s id payload = .ok _ :=
      except_bind_eq_ok.2 ⟨body, hbody,
        patchTransaction_eq_ok.2 ⟨existing, data, hfind, haccepted, hdata, rfl⟩⟩
    exact (transactionPatched_iff hbody hdata hblank existing).1 (hpatched existing _ _ hfind hok).2
  · intro hcond existing tx transactions hfind hok
    obtain ⟨body, hbody, hok⟩ := except_bind_eq_ok.1 hok
    obtain ⟨existing', data, hfind', haccepted, hdata, heq⟩ := patchTransaction_eq_ok.1 hok
    cases hfind.symm.trans hfind'
    cases heq
    have hliteral : payload.Literal := by
      rcases hcond with hliteral | hnone | hrefused
      · exact hliteral
      · cases hnone.symm.trans hfind
      · exact absurd ⟨body, hbody, haccepted⟩ hrefused
    have hid : existing.id = id := by
      have howned := List.find?_some hfind
      rw [ownedTransaction, Bool.and_eq_true, decide_eq_true_iff] at howned
      exact howned.1
    have hblank := (UpdateTransactionBody.accepted_iff.1 haccepted).2.2
    exact ⟨List.mem_map.2 ⟨existing, List.mem_of_find?_eq_some hfind, if_pos hid⟩,
      (transactionPatched_iff hbody hdata hblank existing).2 hliteral⟩

end TransactionPatches

namespace Demo

/-- The most places that a number of the format has after the point. -/
def PLACES : ℕ := 1074

/-- A text for each number of the format: all its digits as one whole number, and the place of the
point as the exponent. -/
def exactText (x : FiniteNumber) : String :=
  String.ofList ((if x.1.1 < 0 then '-' else '+') ::
    (Nat.toDigits 10 (x.1.1 * 10 ^ PLACES).num.natAbs ++ 'e' :: '-' :: Nat.toDigits 10 PLACES))

/-- Without its point a number of the format is whole. -/
theorem exists_mul_pow_eq (x : FiniteNumber) : ∃ n : ℤ, x.1.1 * 10 ^ PLACES = n := by
  obtain ⟨n, e, heq, -, he⟩ := Binary64.exists_round_eq x.1.1
  obtain ⟨k, hk⟩ := Int.eq_ofNat_of_zero_le (show 0 ≤ e + PLACES by rw [PLACES]; omega)
  refine ⟨n * 2 ^ k * 5 ^ PLACES, ?_⟩
  rw [x.1.2] at heq
  have htwo : (2 : ℚ) ^ e * 2 ^ PLACES = 2 ^ k := by
    rw [← zpow_natCast (2 : ℚ) PLACES, ← zpow_add₀ two_ne_zero, ← zpow_natCast (2 : ℚ) k, ← hk]
  calc x.1.1 * 10 ^ PLACES = n * (2 ^ e * 2 ^ PLACES) * 5 ^ PLACES := by
        rw [heq, show (10 : ℚ) = 2 * 5 by norm_num, mul_pow]
        ring
    _ = ((n * 2 ^ k * 5 ^ PLACES : ℤ) : ℚ) := by
        rw [htwo]
        push_cast
        rfl

/-- A fraction is its magnitude with its sign. -/
theorem sign_mul_natAbs_div (n : ℤ) {p : ℚ} (hp : 0 < p) :
    (if (n : ℚ) / p < 0 then -1 else 1) * ((n.natAbs : ℚ) / p) = n / p := by
  rw [← Int.cast_natCast n.natAbs, Int.natCast_natAbs]
  rcases lt_or_ge n 0 with hsign | hsign
  · rw [if_pos (div_neg_of_neg_of_pos (by exact_mod_cast hsign) hp), abs_of_neg hsign]
    push_cast
    ring
  · rw [if_neg (not_lt.2 (div_nonneg (by exact_mod_cast hsign) hp.le)), abs_of_nonneg hsign, one_mul]

/-- The text of a number is read as this number. -/
theorem readNumber_exactText (x : FiniteNumber) : readNumber (exactText x) = some x.1.1 := by
  -- nothing in the text is white space
  have htrim : trim (exactText x).toList = (exactText x).toList := by
    refine trim_of_trimmed (trimmed_of_forall fun c hc ↦ ?_)
    have hdigits : ∀ n, c ∈ Nat.toDigits 10 n → isTrimmed c = false := fun n hmem ↦
      isTrimmed_of_isDigit (Nat.isDigit_of_mem_toDigits (by decide) le_rfl hmem)
    rw [exactText, String.toList_ofList, List.mem_cons, List.mem_append, List.mem_cons,
      List.mem_cons] at hc
    rcases hc with rfl | hmem | rfl | rfl | hmem
    · split_ifs <;> decide
    · exact hdigits _ hmem
    · decide
    · decide
    · exact hdigits _ hmem
  -- and the digits are those of the number
  have hvalue : Numeral.value? (exactText x).toList = some x.1.1 := by
    obtain ⟨n, hn⟩ := exists_mul_pow_eq x
    have hread := Numeral.value?_signed (decide (x.1.1 < 0)) (x.1.1 * 10 ^ PLACES).num.natAbs PLACES
    simp only [decide_eq_true_eq] at hread
    rw [exactText, String.toList_ofList, hread]
    have hten : (0 : ℚ) < 10 ^ PLACES := pow_pos (by norm_num) _
    have hx : x.1.1 = n / 10 ^ PLACES := (eq_div_iff hten.ne').2 hn
    rw [hn, Rat.num_intCast, hx, sign_mul_natAbs_div n hten]
  rw [readNumber_eq_some]
  exact ⟨x.1.1, by rw [htrim, hvalue], x.1.2, x.2⟩

/-- The day that September does not have, as a body brings it. -/
def september : Text := "2026-09-01T00:00:00.000Z".toList

/-- The second of March, as it is read from a thirtieth of February. -/
def march : Text := "2026-03-02T00:00:00.000Z".toList

/-- A platform that knows three dates and another name for one of them. -/
def threeDates : PatchRuntime where
  platform := asciiPlatform
  storable := ⟨fun _ ↦ true, fun _ ↦ true⟩
  isoDate text :=
    if text = "2026-02-30".toList then some march
    else if text = september ∨ text = EPOCH then some text else none
  time text := if text = september then 1788220800000 else if text = march then 1772409600000 else 0
  knowsTimeZone name := decide (name = "UTC")
  numberText := exactText
  utc := id
  isDateString text := decide (text = september ∨ text = "2026-02-30".toList)
  goalOf text := text.length
  storableText _ := true
  readNumber_numberText := readNumber_exactText
  time_isoDate text date t hdate ht := by
    split_ifs at hdate with hfebruary hknown
    · rw [hfebruary, show Calendar.instant? id "2026-02-30".toList = none by decide] at ht
      cases ht
    · cases hdate
      rcases hknown with rfl | rfl
      · rw [show Calendar.instant? id september = some 1788220800000 by decide] at ht
        cases ht
        rfl
      · rw [show Calendar.instant? id EPOCH = some 0 by decide] at ht
        cases ht
        decide
  storable_epoch := rfl

/-- A goal that is due in September and no longer the active one. -/
def septemberGoal : GoalRow :=
  { id := 0, userId := 0, name := "Rent", amountTotalKobo := 100000, dueDate := 1788220800000
    monthlyIncomeKobo := some 5000, isActive := false, createdAt := 0, status := .cancelled
    endedAt := some 0 }

/-- The name is changed and the income taken back. -/
def renamed : UpdateGoalPayload := { name := some (.string "Home"), monthlyIncomeKobo := some .null }

/-- A transaction, -/
def septemberTransaction : TransactionRow :=
  { userId := 0, goalId := none, direction := .in, amountKobo := 1000, occurredAt := september
    note := none, importFingerprint := none, id := 0, createdAt := 0 }

/-- in a store with its user and a goal. -/
def septemberStore : TenantStore := ⟨[], [], [septemberTransaction], [], [], []⟩

end Demo

open Demo

end Stead
