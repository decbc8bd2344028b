import Stead.Calendar.Instants
import Stead.Node.Runtime
import Stead.Numbers.Numerals
import Stead.Tenants.Services

/-!
# Bodies of requests that update goals and transactions

The way of a field from the body of a request to the update DTO. The pipe of the application first
converts the fields to the types that the class declares, and then validates the result:
`plainToInstance` with implicit conversion, and the decorators of `UpdateGoalDto` and
`UpdateTransactionDto`.

## Conversion

The type of a field is what the compiler emits for it. A field that is declared `string`, `number`
or `boolean` is converted by `String`, `Number` or `Boolean`, whatever JSON value it is given as,
with the exceptions of `null`, which stays what it is, and of an array, whose items are converted.
So `true` becomes the number 1 and every text but the empty one the boolean `true`. A field that may
be `null` by its declaration has no such type and is not converted (`monthlyIncomeKobo`, `goalId`,
`note`).

## Validation

`IsOptional` skips a field that is `undefined` and one that is `null`, whatever the column, so each
field meets the two services in three forms (`BodyField`). The other decorators refuse arrays and
objects throughout.

## What is taken from outside

The texts of numbers, the reading of dates and the test of `IsDateString` are functions of the
platform and of the libraries (`PatchRuntime`). Two laws are all that is used of them. The text of a
number is read as this number, and a text of the date time format is read as the instant that it
stands for; what the platform makes of other texts is its own.
-/

namespace Stead

/-! ### Values -/

/-- A finite number of the language. -/
abbrev FiniteNumber := {x : Node.Number // |x.1| < 2 ^ 1024}

/-- A whole number of at most 53 binary digits. -/
def FiniteNumber.whole (n : ℤ) (h : |n| < 2 ^ 53) : FiniteNumber :=
  ⟨⟨n, Binary64.round_intCast h⟩, by
    have hsmall : |(n : ℚ)| < 2 ^ 53 := by exact_mod_cast h
    exact hsmall.trans (pow_lt_pow_right₀ one_lt_two (by decide))⟩

/-- The value of a field, as far as the pipe and the validators tell values apart. -/
inductive FieldValue where
  | null
  | boolean (b : Bool)
  | number (x : FiniteNumber)
  /-- a number beyond the finite ones, as JSON may write it -/
  | infinity (negative : Bool)
  /-- what `Number` makes of a text that is no number -/
  | nan
  | string (text : String)
  /-- an array, `printable` unless an item in it has a `toString` of its own -/
  | array (printable : Bool)
  /-- an object, `printable` unless it has a `toString` of its own, which is no function -/
  | object (printable : Bool)

/-- `Number(text)`, if it is a finite number. -/
def readNumber (text : String) : Option ℚ :=
  ((Numeral.value? (trim text.toList)).map Binary64.round).filter fun x ↦ |x| < 2 ^ 1024

/-- The number that a text stands for, rounded, where it is finite. -/
theorem readNumber_eq_some {text : String} {x : ℚ} : readNumber text = some x ↔
    ∃ y, Numeral.value? (trim text.toList) = some y ∧ Binary64.round y = x ∧ |x| < 2 ^ 1024 := by
  rw [readNumber, Option.filter_eq_some_iff, Option.map_eq_some_iff, decide_eq_true_iff]
  constructor
  · rintro ⟨⟨y, hy, hround⟩, hfinite⟩
    exact ⟨y, hy, hround, hfinite⟩
  · rintro ⟨y, hy, hround, hfinite⟩
    exact ⟨⟨y, hy, hround⟩, hfinite⟩

/-- `new Date(0).toISOString()` -/
def EPOCH : Text := "1970-01-01T00:00:00.000Z".toList

/-- What the updates take from the platform and the libraries besides. -/
structure PatchRuntime extends Runtime where
  /-- `String(value)` of a number -/
  numberText : FiniteNumber → String
  /-- The instant at which a clock of the server shows a reading. -/
  utc : ℤ → ℤ
  /-- The test of `@IsDateString()`. -/
  isDateString : Text → Bool
  /-- The goal an id belongs to. -/
  goalOf : String → ℕ
  /-- Whether a text can be stored. -/
  storableText : String → Bool
  readNumber_numberText : ∀ x, readNumber (numberText x) = some x.1.1
  time_isoDate : ∀ text date t, isoDate text = some date → Calendar.instant? utc text = some t →
    time date = t
  storable_epoch : storable.occurredAt EPOCH = true

/-- What an update fails with. -/
inductive PatchFailure where
  /-- a `BadRequestException` of the pipe -/
  | invalid
  | refused (e : TenantFailure)
  /-- `BigInt(null)`, or the text of an object that has none -/
  | typeError
  /-- `null` for a column that is not nullable -/
  | nullArgument
  /-- a value that the column cannot hold -/
  | unstorable
  deriving DecidableEq

/-! ### Conversion -/

namespace FieldValue

/-- `String(value)`. Of the items of an array each is converted, so that the field stays an array. -/
def toText (numberText : FiniteNumber → String) : FieldValue → Except PatchFailure FieldValue
  | null => .ok null
  | boolean b => .ok (string (toString b))
  | number x => .ok (string (numberText x))
  | infinity negative => .ok (string (if negative then "-Infinity" else "Infinity"))
  | nan => .ok (string "NaN")
  | string text => .ok (string text)
  | array printable => if printable then .ok (array true) else .error .typeError
  | object printable => if printable then .ok (string "[object Object]") else .error .typeError

/-- The number that is a text's, if it is a finite one. -/
def ofText (text : String) : FieldValue :=
  match Numeral.value? (trim text.toList) with
  | none => nan
  | some y =>
    if h : |Binary64.round y| < 2 ^ 1024 then number ⟨⟨Binary64.round y, Binary64.round_round y⟩, h⟩
    else infinity (y < 0)

/-- `Number(value)` -/
def toNumber : FieldValue → Except PatchFailure FieldValue
  | null => .ok null
  | boolean b => .ok (number (if b then .whole 1 (by decide) else .whole 0 (by decide)))
  | number x => .ok (number x)
  | infinity negative => .ok (infinity negative)
  | nan => .ok nan
  | string text => .ok (ofText text)
  | array printable => if printable then .ok (array true) else .error .typeError
  | object printable => if printable then .ok nan else .error .typeError

/-- `Boolean(value)` -/
def toBoolean : FieldValue → FieldValue
  | null => null
  | boolean b => boolean b
  | number x => boolean (x.1.1 ≠ 0)
  | infinity _ => boolean true
  | nan => boolean false
  | string text => boolean (text ≠ "")
  | array printable => array printable
  | object _ => boolean true

/-! ### Validation -/

/-- The length that `MaxLength` counts: the characters of a text without the selectors of a
presentation. -/
def textLength (text : String) : ℕ := text.toList.countP fun c ↦ c ≠ '\uFE0E' ∧ c ≠ '\uFE0F'

/-- `@IsString()` -/
def string? : FieldValue → Option String
  | string text => some text
  | _ => none

/-- `@IsString() @MaxLength(max)` -/
def text? (max : ℕ) : FieldValue → Option {text : String // textLength text ≤ max}
  | string text => if h : textLength text ≤ max then some ⟨text, h⟩ else none
  | _ => none

/-- `@IsInt() @Min(min)` -/
def integer? (min : ℕ) : FieldValue → Option {n : ℕ // min ≤ n}
  | number x =>
    if h : x.1.1.den = 1 ∧ min ≤ x.1.1.num.toNat ∧ 0 ≤ x.1.1.num then
      some ⟨x.1.1.num.toNat, h.2.1⟩
    else none
  | _ => none

/-- `@IsDateString()` -/
def date? (isDateString : Text → Bool) :
    FieldValue → Option {text : Text // isDateString text = true}
  | string text => if h : isDateString text.toList then some ⟨text.toList, h⟩ else none
  | _ => none

/-- `@IsBoolean()` -/
def boolean? : FieldValue → Option Bool
  | boolean b => some b
  | _ => none

/-- `@IsIn(['in', 'out'])` -/
def direction? : FieldValue → Option Direction
  | string text => if text = "in" then some .in else if text = "out" then some .out else none
  | _ => none

end FieldValue

/-- A field of a body that has passed validation. -/
inductive BodyField (α : Type) where
  | undefined
  | null
  | value (a : α)
  deriving DecidableEq

/-- `@IsOptional()` before the other decorators of a field. -/
def BodyField.optional {α : Type} (check : FieldValue → Option α) :
    Option FieldValue → Except PatchFailure (BodyField α)
  | none => .ok .undefined
  | some .null => .ok .null
  | some v =>
    match check v with
    | some a => .ok (.value a)
    | none => .error .invalid

/-! ### The two bodies -/

/-- The fields of a body that `UpdateGoalDto` declares; the others are stripped. -/
structure UpdateGoalPayload where
  name : Option FieldValue := none
  amountTotalKobo : Option FieldValue := none
  dueDate : Option FieldValue := none
  monthlyIncomeKobo : Option FieldValue := none
  isActive : Option FieldValue := none

/-- The fields of a body that `UpdateTransactionDto` declares. -/
structure UpdateTransactionPayload where
  direction : Option FieldValue := none
  amountKobo : Option FieldValue := none
  occurredAt : Option FieldValue := none
  goalId : Option FieldValue := none
  note : Option FieldValue := none

variable (rt : PatchRuntime)

/-- `UpdateGoalDto`, validated. -/
structure UpdateGoalBody where
  name : BodyField {name : String // FieldValue.textLength name ≤ 100}
  amountTotalKobo : BodyField {n : ℕ // 1 ≤ n}
  dueDate : BodyField {text : Text // rt.isDateString text = true}
  monthlyIncomeKobo : BodyField {n : ℕ // 0 ≤ n}
  isActive : BodyField Bool

/-- `UpdateTransactionDto`, validated. -/
structure UpdateTransactionBody where
  direction : BodyField Direction
  amountKobo : BodyField {n : ℕ // 1 ≤ n}
  occurredAt : BodyField {text : Text // rt.isDateString text = true}
  goalId : BodyField String
  note : BodyField {note : String // FieldValue.textLength note ≤ 280}

/-- `plainToInstance(UpdateGoalDto, body)` -/
def UpdateGoalPayload.toInstance (payload : UpdateGoalPayload) :
    Except PatchFailure UpdateGoalPayload := do
  let name ← payload.name.mapM (FieldValue.toText rt.numberText)
  let amountTotalKobo ← payload.amountTotalKobo.mapM FieldValue.toNumber
  let dueDate ← payload.dueDate.mapM (FieldValue.toText rt.numberText)
  let isActive := payload.isActive.map FieldValue.toBoolean
  pure { payload with name, amountTotalKobo, dueDate, isActive }

/-- `validate` of a converted body. -/
def UpdateGoalPayload.validate (payload : UpdateGoalPayload) :
    Except PatchFailure (UpdateGoalBody rt) := do
  let name ← BodyField.optional (FieldValue.text? 100) payload.name
  let amountTotalKobo ← BodyField.optional (FieldValue.integer? 1) payload.amountTotalKobo
  let dueDate ← BodyField.optional (FieldValue.date? rt.isDateString) payload.dueDate
  let monthlyIncomeKobo ← BodyField.optional (FieldValue.integer? 0) payload.monthlyIncomeKobo
  let isActive ← BodyField.optional FieldValue.boolean? payload.isActive
  pure { name, amountTotalKobo, dueDate, monthlyIncomeKobo, isActive }

/-- `plainToInstance(UpdateTransactionDto, body)` -/
def UpdateTransactionPayload.toInstance (payload : UpdateTransactionPayload) :
    Except PatchFailure UpdateTransactionPayload := do
  let direction ← payload.direction.mapM (FieldValue.toText rt.numberText)
  let amountKobo ← payload.amountKobo.mapM FieldValue.toNumber
  let occurredAt ← payload.occurredAt.mapM (FieldValue.toText rt.numberText)
  pure { payload with direction, amountKobo, occurredAt }

/-- `validate` of a converted body. -/
def UpdateTransactionPayload.validate (payload : UpdateTransactionPayload) :
    Except PatchFailure (UpdateTransactionBody rt) := do
  let direction ← BodyField.optional FieldValue.direction? payload.direction
  let amountKobo ← BodyField.optional (FieldValue.integer? 1) payload.amountKobo
  let occurredAt ← BodyField.optional (FieldValue.date? rt.isDateString) payload.occurredAt
  let goalId ← BodyField.optional FieldValue.string? payload.goalId
  let note ← BodyField.optional (FieldValue.text? 280) payload.note
  pure { direction, amountKobo, occurredAt, goalId, note }

/-- `ValidationPipe.transform` of a body for a goal. -/
def UpdateGoalPayload.transform (payload : UpdateGoalPayload) :
    Except PatchFailure (UpdateGoalBody rt) :=
  payload.toInstance rt >>= UpdateGoalPayload.validate rt

/-- `ValidationPipe.transform` of a body for a transaction. -/
def UpdateTransactionPayload.transform (payload : UpdateTransactionPayload) :
    Except PatchFailure (UpdateTransactionBody rt) :=
  payload.toInstance rt >>= UpdateTransactionPayload.validate rt

/-! ### What a value denotes -/

namespace FieldValue

/-- The texts a value is written as: a text is written as it is, and a number or a boolean by what is
read as this number or boolean. An object is not written as a text. -/
def DenotesText : FieldValue → String → Prop
  | string text, c => c = text
  | number x, c => readNumber c = some x.1.1
  | boolean b, c => c = toString b
  | _, _ => False

/-- The number of a value: a number is its own, and a text has the one that it is a literal for,
exactly. A boolean is no number. -/
def DenotesNumber : FieldValue → ℚ → Prop
  | number x, c => c = x.1.1
  | string text, c => Numeral.value? (trim text.toList) = some c
  | _, _ => False

/-- The truth value of a boolean or of its name. -/
def DenotesBoolean : FieldValue → Bool → Prop
  | boolean b, c => c = b
  | string text, c => text = toString c
  | _, _ => False

/-- The instant of a date, which is given as a text. -/
def DenotesInstant (utc : ℤ → ℤ) : FieldValue → ℤ → Prop
  | string text, t => Calendar.DenotesInstant utc text.toList t
  | _, _ => False

/-! ### Values that are converted to what they denote -/

/-- Values with a text that denotes them, unless they are refused. -/
def Written : FieldValue → Prop
  | infinity _ | nan | object _ => False
  | _ => True

/-- Values that are converted to the number they denote, unless they are refused: no booleans, and
no text whose number is rounded. -/
def Exact : FieldValue → Prop
  | boolean _ => False
  | string text => ∀ x, Numeral.value? (trim text.toList) = some x → Binary64.round x = x
  | _ => True

/-- Values that are converted to the boolean they denote, unless they are refused. -/
def Boolean : FieldValue → Prop
  | null | boolean _ | array _ => True
  | string text => text = "true"
  | _ => False

/-- Texts that name no day which is not in the calendar. -/
def Dated : FieldValue → Prop
  | string text => Calendar.NamesDay text.toList
  | _ => False

variable {v v' : FieldValue}

/-! ### Conversion keeps `null` -/

/-- `null` stays `null`, and nothing becomes it. -/
def KeepsNull (convert : FieldValue → Except PatchFailure FieldValue) : Prop :=
  ∀ v v', convert v = .ok v' → (v' = null ↔ v = null)

theorem keepsNull_toText (numberText : FiniteNumber → String) : KeepsNull (toText numberText) := by
  intro v v' h
  cases v with
  | array printable | object printable =>
    cases printable <;> cases h
    exact ⟨nofun, nofun⟩
  | _ =>
    cases h
    simp

theorem ofText_ne_null (text : String) : ofText text ≠ null := by
  unfold ofText
  split
  · nofun
  · split_ifs <;> nofun

theorem keepsNull_toNumber : KeepsNull toNumber := by
  intro v v' h
  cases v with
  | array printable | object printable =>
    cases printable <;> cases h
    exact ⟨nofun, nofun⟩
  | string text =>
    cases h
    exact ⟨fun heq ↦ absurd heq (ofText_ne_null text), nofun⟩
  | _ =>
    cases h
    simp

theorem keepsNull_toBoolean : KeepsNull fun v ↦ .ok v.toBoolean := by
  intro v v' h
  cases h
  cases v <;> simp [toBoolean]

theorem keepsNull_ok : KeepsNull .ok := by
  intro v v' h
  cases h
  rfl

/-! ### What the validators let through -/

theorem text?_eq_some {max : ℕ} {text : {text : String // textLength text ≤ max}} :
    text? max v = some text ↔ v = string text.1 := by
  cases v with
  | string text' =>
    simp only [text?, Option.dite_none_right_eq_some, Option.some.injEq, string.injEq]
    exact ⟨fun ⟨_, h⟩ ↦ h ▸ rfl, fun h ↦ ⟨h ▸ text.2, Subtype.ext h⟩⟩
  | _ => simp [text?]

theorem date?_eq_some {isDateString : Text → Bool} {text : {text // isDateString text = true}}
    (h : date? isDateString v = some text) : ∃ s, v = string s ∧ text.1 = s.toList := by
  cases v with
  | string s =>
    simp only [date?, Option.dite_none_right_eq_some, Option.some.injEq] at h
    obtain ⟨_, rfl⟩ := h
    exact ⟨s, rfl, rfl⟩
  | _ => cases h

theorem boolean?_eq_some {b : Bool} (h : boolean? v = some b) : v = boolean b := by
  cases v with
  | boolean b' =>
    cases h
    rfl
  | _ => cases h

theorem string?_eq_some {text : String} (h : string? v = some text) : v = string text := by
  cases v with
  | string text' =>
    cases h
    rfl
  | _ => cases h

/-- An accepted number is whole. -/
theorem integer?_eq_some {min : ℕ} {n : {n : ℕ // min ≤ n}} (h : integer? min v = some n) :
    ∃ x : FiniteNumber, v = number x ∧ x.1.1 = (n.1 : ℚ) := by
  cases v with
  | number x =>
    simp only [integer?, Option.dite_none_right_eq_some, Option.some.injEq] at h
    obtain ⟨⟨hden, _, hsign⟩, rfl⟩ := h
    refine ⟨x, rfl, ?_⟩
    calc x.1.1 = (x.1.1.num : ℚ) := (Rat.coe_int_num_of_den_eq_one hden).symm
      _ = ((x.1.1.num.toNat : ℤ) : ℚ) := by rw [Int.toNat_of_nonneg hsign]
      _ = (x.1.1.num.toNat : ℚ) := Int.cast_natCast _
  | _ => cases h

theorem direction?_eq_some {direction : Direction} (h : direction? v = some direction) :
    v = string (String.ofList direction.text) := by
  cases v with
  | string text =>
    simp only [direction?] at h
    split_ifs at h with hin hout
    · cases h
      rw [hin]
      rfl
    · cases h
      rw [hout]
      rfl
  | _ => cases h

/-! ### What a converted value denotes -/

variable {rt : PatchRuntime}

/-- The text of a value that is written is one that it is written as. -/
theorem toText_denotes {text : String} (h : toText rt.numberText v = .ok (string text)) :
    v.DenotesText text ↔ v.Written := by
  cases v with
  | null => cases h
  | boolean b | string text' =>
    cases h
    exact iff_of_true rfl trivial
  | number x =>
    cases h
    exact iff_of_true (rt.readNumber_numberText x) trivial
  | infinity negative | nan => exact Iff.rfl
  | array printable => cases printable <;> cases h
  | object printable => exact Iff.rfl

/-- The name of a direction is not the text of anything that is not written. -/
theorem direction_denotes {direction : Direction}
    (h : toText rt.numberText v = .ok (string (String.ofList direction.text))) :
    v.DenotesText (String.ofList direction.text) := by
  refine (toText_denotes h).2 ?_
  cases v with
  | infinity negative =>
    have htext : (if negative then "-Infinity" else "Infinity") = String.ofList direction.text :=
      string.inj (Except.ok.inj h)
    cases negative <;> cases direction <;> exact absurd htext (by decide)
  | nan =>
    have htext : "NaN" = String.ofList direction.text := string.inj (Except.ok.inj h)
    cases direction <;> exact absurd htext (by decide)
  | object printable =>
    cases printable with
    | false => cases h
    | true =>
      have htext : "[object Object]" = String.ofList direction.text :=
        string.inj (Except.ok.inj h)
      cases direction <;> exact absurd htext (by decide)
  | _ => trivial

/-- The number a value is converted to is the one it denotes if it is exact. -/
theorem toNumber_denotes {x : FiniteNumber} (h : toNumber v = .ok (number x)) :
    v.DenotesNumber x.1.1 ↔ v.Exact := by
  cases v with
  | boolean b => exact Iff.rfl
  | number x' =>
    cases h
    exact iff_of_true rfl trivial
  | string text =>
    have hnumber : ofText text = number x := Except.ok.inj h
    unfold ofText at hnumber
    split at hnumber
    · cases hnumber
    · next y hy =>
      split_ifs at hnumber
      cases hnumber
      show Numeral.value? (trim text.toList) = some (Binary64.round y) ↔
        ∀ x, Numeral.value? (trim text.toList) = some x → Binary64.round x = x
      rw [hy]
      constructor
      · rintro hround x ⟨⟩
        exact (Option.some.inj hround).symm
      · exact fun hexact ↦ by rw [hexact y rfl]
  | null | infinity negative | nan => cases h
  | array printable | object printable => cases printable <;> cases h

/-- The boolean a value is converted to is the one it denotes if it is a boolean or reads `true`. -/
theorem toBoolean_denotes {b : Bool} (h : v.toBoolean = boolean b) :
    v.DenotesBoolean b ↔ v.Boolean := by
  cases v with
  | boolean b' =>
    cases h
    exact iff_of_true rfl trivial
  | string text =>
    cases h
    show text = toString (decide (text ≠ "")) ↔ text = "true"
    constructor
    · intro heq
      by_cases hempty : text = ""
      · rw [hempty] at heq
        exact absurd heq (by decide)
      · rwa [decide_eq_true hempty] at heq
    · rintro rfl
      rfl
  | null => cases h
  | array printable => cases h
  | _ => exact Iff.rfl

/-- The instant a text is read as is the one it denotes if it names its day. -/
theorem dated_denotes {text date : Text} (h : rt.isoDate text = some date)
    (hv : toText rt.numberText v = .ok (string (String.ofList text))) :
    v.DenotesInstant rt.utc (rt.time date) ↔ v.Dated := by
  cases v with
  | string s =>
    have hs : s.toList = text := by
      cases hv
      exact String.toList_ofList
    show Calendar.DenotesInstant rt.utc s.toList _ ↔ Calendar.NamesDay s.toList
    rw [hs]
    exact ⟨And.left, fun hnames ↦ ⟨hnames, fun t ht ↦ rt.time_isoDate text date t h ht⟩⟩
  | _ => exact Iff.rfl

end FieldValue

end Stead
