import Stead.Collections.Occurrences
import Stead.Import.Adapters

/-!
# Parsing an import

`parseTransactionImport`. A record is read cell by cell (`readRecord`); without errors it amounts to
a normalised row (`ImportCells.normalized`), and the rows of a file are fingerprinted by their
normalised content together with the number of its occurrence in the file (`parseRows`).

## Errors

A cell that cannot be read is `none`, and each of the five checks has its message
(`ImportCells.errors`). A row keeps the cells that could be read beside the errors of the others;
it has a fingerprint just if there is no error (`fingerprintRecord_isSome`).

## Fingerprints

The fingerprints of a file are those of its numbered normalised rows (`fingerprints_parseRows`), and
they are distinct (`nodup_fingerprints`) because the text that is hashed determines the row and the
number (`occurrenceText_inj`): only the note may contain the separator, and it comes last but for
the number. The count of the occurrences is an accumulator of the loop; `Collections.Occurrences`
has what numbering does to a list.

That the digest has no collision is a hypothesis where it is needed.
-/

namespace Stead

open Collections

/-- The direction of a transaction. -/
inductive Direction where
  | in
  | out
  deriving DecidableEq

/-- The direction as it is stored. -/
def Direction.text : Direction → Text
  | .in => "in".toList
  | .out => "out".toList

/-- The most rows of an import. -/
def MAX_ROWS : ℕ := 500

/-- The number decimal digits stand for. -/
def digitsValue (text : Text) : ℕ := text.foldl (fun n c ↦ 10 * n + (c.toNat - 48)) 0

/-- `isLeapYear` -/
def isLeapYear (year : ℕ) : Bool := year % 4 = 0 && (year % 100 ≠ 0 || year % 400 = 0)

/-- The days of a month; what is no month has 31. -/
def daysInMonth (year month : ℕ) : ℕ :=
  if month = 2 then if isLeapYear year then 29 else 28
  else if month = 4 || month = 6 || month = 9 || month = 11 then 30
  else 31

/-- Noon on a day of the calendar, as an ISO text. -/
def parseDate (value : Text) : Option Text :=
  match isoParts (trim value) with
  | none => none
  | some (year, month, day) =>
    if 1 ≤ digitsValue month ∧ digitsValue month ≤ 12 ∧ 1 ≤ digitsValue day ∧
        digitsValue day ≤ daysInMonth (digitsValue year) (digitsValue month) then
      some (trim value ++ "T12:00:00.000Z".toList)
    else none

/-- `parseDirection`, by the words for the two directions. -/
def parseDirection (platform : Platform) (value : Text) : Option Direction :=
  let normalized := platform.toLowerCase (trim value)
  if normalized ∈ ["income".toList, "in".toList, "credit".toList] then some .in
  else if normalized ∈ ["expense".toList, "out".toList, "debit".toList] then some .out
  else none

/-- `\d+|\d{1,3}(?:,\d{3})+` -/
def isWholeAmount (text : Text) : Bool :=
  match text.splitOn ',' with
  | [whole] => whole.all Char.isDigit && decide (0 < whole.length)
  | group :: groups => digits 1 3 group && groups.all (digits 3 3)
  | [] => false

/-- `part.padEnd(2, '0')` -/
def padEndTwo (part : Text) : Text := part ++ List.replicate (2 - part.length) '0'

/-- `parseAmountKobo`: naira with at most two decimals, more than nothing. -/
def parseAmountKobo (value : Text) : Option ℕ :=
  match (stripCurrency (trim value)).splitOn '.' with
  | whole :: fractions =>
    if isWholeAmount whole && decide (fractions.length ≤ 1) && fractions.all (digits 1 2) then
      let kobo := digitsValue (whole.filter (· ≠ ',')) * 100 +
        digitsValue (padEndTwo (fractions.headD []))
      if kobo ≤ 0 ∨ kobo > MAX_SAFE_INTEGER then none else some kobo
    else none
  | [] => none

/-- `text.replace(/\s+/g, ' ')`, after white space or not. -/
def collapseSpaces (afterSpace : Bool) : Text → Text
  | [] => []
  | c :: rest =>
    if isTrimmed c then
      if afterSpace then collapseSpaces true rest else ' ' :: collapseSpaces true rest
    else c :: collapseSpaces false rest

/-- `text.length`, in UTF-16 code units. -/
def utf16Length (text : Text) : ℕ :=
  text.foldl (fun length c ↦ length + if c.toNat < 65536 then 1 else 2) 0

/-! ### One record -/

/-- Where the required columns are. -/
structure ImportColumns where
  date : ℕ
  description : ℕ
  amount : ℕ
  type : ℕ
  deriving DecidableEq

/-- What is read in the cells of a record. -/
structure ImportCells where
  occurredAt : Option Text
  direction : Option Direction
  amountKobo : Option ℕ
  note : Text
  deriving DecidableEq

/-- The cells of a record, each as it is read. -/
def readRecord (platform : Platform) (columns : ImportColumns) (record : List Text) :
    ImportCells where
  occurredAt := parseDate (cellAt record columns.date)
  direction := parseDirection platform (cellAt record columns.type)
  amountKobo := parseAmountKobo (cellAt record columns.amount)
  note := collapseSpaces false (trim (cellAt record columns.description))

/-- What makes two transactions the same: date, direction, amount and lower-cased note. -/
structure NormalizedRow where
  occurredAt : Text
  direction : Direction
  amountKobo : ℕ
  note : Text
  deriving DecidableEq

namespace ImportCells

/-- The errors of a record, in the order of the columns that are tested. -/
def errors (cells : ImportCells) : List String :=
  (if cells.occurredAt = none then ["Date must use YYYY-MM-DD"] else []) ++
  (if cells.direction = none then ["Type must be income, expense, credit, or debit"] else []) ++
  (if cells.amountKobo = none then ["Amount must be a positive naira value"] else []) ++
  (if cells.note = [] then ["Description is required"] else []) ++
  (if 280 < utf16Length cells.note then ["Description cannot exceed 280 characters"] else [])

/-- The content of a record without errors. -/
def normalized (platform : Platform) (cells : ImportCells) : Option NormalizedRow :=
  if cells.errors = [] then
    match cells.occurredAt, cells.direction, cells.amountKobo with
    | some occurredAt, some direction, some amountKobo =>
      some ⟨occurredAt, direction, amountKobo, platform.toLocaleLowerCase cells.note⟩
    | _, _, _ => none
  else none

end ImportCells

/-- `[occurredAt, direction, amountKobo, …].join('|')` -/
def NormalizedRow.canonical (row : NormalizedRow) : Text :=
  ['|'].intercalate [row.occurredAt, row.direction.text, Nat.toDigits 10 row.amountKobo, row.note]

/-- The text that is hashed: canonical text and number of the occurrence. -/
def occurrenceText (occurrence : Text × ℕ) : Text :=
  occurrence.1 ++ '|' :: Nat.toDigits 10 occurrence.2

/-- A row of the answer. -/
structure ParsedImportRow where
  rowNumber : ℕ
  occurredAt : Option Text
  direction : Option Direction
  amountKobo : Option ℕ
  note : Option Text
  fingerprint : Option ℕ
  duplicate : Bool
  error : Option String
  deriving DecidableEq

/-- A row of the result. -/
def ImportCells.row (cells : ImportCells) (rowNumber : ℕ) (fingerprint : Option ℕ) :
    ParsedImportRow where
  rowNumber := rowNumber
  occurredAt := cells.occurredAt
  direction := cells.direction
  amountKobo := cells.amountKobo
  note := if cells.note = [] then none else some cells.note
  fingerprint := fingerprint
  duplicate := false
  error := if cells.errors = [] then none else some ("; ".intercalate cells.errors)

/-- The fingerprint of a record, with the map of occurrences after it. -/
def fingerprintRecord (platform : Platform) (occurrences : Text → ℕ) (cells : ImportCells) :
    Option ℕ × (Text → ℕ) :=
  match cells.normalized platform with
  | none => (none, occurrences)
  | some normalized =>
    let canonical := normalized.canonical
    let occurrence := occurrences canonical + 1
    (some (platform.sha256 (occurrenceText (canonical, occurrence))),
      Function.update occurrences canonical occurrence)

/-- `dataRecords.map(…)`, with the map of occurrences so far. -/
def parseRows (platform : Platform) (occurrences : Text → ℕ) (rowNumber : ℕ) :
    List ImportCells → List ParsedImportRow
  | [] => []
  | cells :: rest =>
    cells.row rowNumber (fingerprintRecord platform occurrences cells).1 ::
      parseRows platform (fingerprintRecord platform occurrences cells).2 (rowNumber + 1) rest

/-! ### The whole text -/

/-- `headers.filter((header, index) => header && headers.indexOf(header) !== index)` -/
def duplicateHeaders (headers : List Text) : List Text :=
  (headers.zipIdx.filter fun p ↦ p.1 ≠ [] ∧ headers.idxOf p.1 ≠ p.2).map Prod.fst

/-- The required columns, unless one is missing. -/
def findColumns (headers : List Text) : Option ImportColumns :=
  match headers.idxOf? "date".toList, headers.idxOf? "description".toList,
    headers.idxOf? "amount".toList, headers.idxOf? "type".toList with
  | some date, some description, some amount, some type => some ⟨date, description, amount, type⟩
  | _, _, _, _ => none

/-- The rows of a text, or the reason of its rejection. -/
def parseTransactionImport (platform : Platform) (csv : Text) :
    Except ImportFailure (List ParsedImportRow) :=
  match toCanonicalImportCsv platform csv with
  | .error e => .error e
  | .ok canonicalCsv =>
    match parseCsvRecords canonicalCsv with
    | .error e => .error e
    | .ok records =>
      let headers := headersOf platform records
      let dataRecords := records.tail
      if records = [] then .error CSV_EMPTY
      else if duplicateHeaders headers ≠ [] then
        .error (.badRequest "CSV contains duplicate column names")
      else
        match findColumns headers with
        | none => .error MISSING_COLUMNS
        | some columns =>
          if dataRecords = [] then .error (.badRequest "CSV has no transaction rows")
          else if dataRecords.length > MAX_ROWS then
            .error (.badRequest "CSV cannot contain more than 500 rows")
          else
            .ok (parseRows platform (fun _ ↦ 0) 2 (dataRecords.map (readRecord platform columns)))

/-! ### Rows and fingerprints -/

section Rows

variable {platform : Platform} {occurrences : Text → ℕ} {rowNumber : ℕ} {cells : ImportCells}
  {records : List ImportCells}

namespace ImportCells

/-- A record without errors has a date, a direction and an amount. -/
theorem normalized_isSome (platform : Platform) (cells : ImportCells) :
    (cells.normalized platform).isSome = true ↔ cells.errors = [] := by
  unfold normalized
  constructor
  · intro h
    by_contra hne
    rw [if_neg hne] at h
    cases h
  · intro h
    rw [if_pos h]
    obtain ⟨occurredAt, direction, amountKobo, note⟩ := cells
    cases occurredAt <;> cases direction <;> cases amountKobo <;>
      first | rfl | simp [errors] at h

end ImportCells

/-- A fingerprint is that of a row without errors. -/
theorem fingerprintRecord_isSome :
    (fingerprintRecord platform occurrences cells).1.isSome = true ↔ cells.errors = [] := by
  rw [← ImportCells.normalized_isSome platform cells, fingerprintRecord]
  cases cells.normalized platform <;> rfl

theorem length_parseRows :
    (parseRows platform occurrences rowNumber records).length = records.length := by
  induction records generalizing occurrences rowNumber with
  | nil => rfl
  | cons cells records ih => rw [parseRows, List.length_cons, List.length_cons, ih]

/-- **A row of the result** is that of the record at its place. -/
theorem getElem?_parseRows (platform : Platform) (occurrences : Text → ℕ) (rowNumber k : ℕ) :
    (∀ cells, records[k]? = some cells → ∃ fingerprint,
      (parseRows platform occurrences rowNumber records)[k]? =
        some (cells.row (rowNumber + k) fingerprint) ∧
      (fingerprint.isSome = true ↔ cells.errors = [])) := by
  induction records generalizing occurrences rowNumber k with
  | nil => exact fun _ h ↦ absurd h (by simp)
  | cons head records ih =>
    intro cells h
    cases k with
    | zero =>
      cases h
      exact ⟨_, rfl, fingerprintRecord_isSome⟩
    | succ k =>
      obtain ⟨fingerprint, hrow, hsome⟩ := ih _ (rowNumber + 1) k cells h
      refine ⟨fingerprint, ?_, hsome⟩
      rw [parseRows, List.getElem?_cons_succ, hrow, Nat.add_right_comm, Nat.add_assoc]

theorem mem_parseRows {row : ParsedImportRow}
    (h : row ∈ parseRows platform occurrences rowNumber records) :
    ∃ cells ∈ records, ∃ k fingerprint, row = cells.row (rowNumber + k) fingerprint ∧
      (fingerprint.isSome = true ↔ cells.errors = []) := by
  obtain ⟨k, hk, rfl⟩ := List.mem_iff_getElem.1 h
  have hk' : k < records.length := by rwa [length_parseRows] at hk
  obtain ⟨fingerprint, hrow, hsome⟩ := getElem?_parseRows platform occurrences
    rowNumber k records[k] (List.getElem?_eq_getElem hk')
  rw [List.getElem?_eq_getElem hk, Option.some.injEq] at hrow
  exact ⟨records[k], List.getElem_mem hk', k, fingerprint, hrow, hsome⟩

/-- The rows are numbered in order. -/
theorem rowNumbers_parseRows :
    (parseRows platform occurrences rowNumber records).map ParsedImportRow.rowNumber =
      List.range' rowNumber records.length := by
  induction records generalizing occurrences rowNumber with
  | nil => rfl
  | cons cells records ih =>
    rw [parseRows, List.map_cons, ih, List.length_cons, List.range'_succ]
    rfl

/-- The fingerprints of the rows, in order. -/
def fingerprintsOf (rows : List ParsedImportRow) : List ℕ :=
  rows.filterMap ParsedImportRow.fingerprint

/-- The contents of the records without errors, in order. -/
def contents (platform : Platform) (records : List ImportCells) : List NormalizedRow :=
  records.filterMap (ImportCells.normalized platform)

/-- The content of a row without errors: date, direction, amount and lower-cased note. -/
def ParsedImportRow.normalized (platform : Platform) (row : ParsedImportRow) :
    Option NormalizedRow :=
  match row.error, row.occurredAt, row.direction, row.amountKobo, row.note with
  | none, some occurredAt, some direction, some amountKobo, some note =>
    some ⟨occurredAt, direction, amountKobo, platform.toLocaleLowerCase note⟩
  | _, _, _, _, _ => none

/-- The content of a row is that of its cells. -/
theorem normalized_row (cells : ImportCells) (rowNumber : ℕ) (fingerprint : Option ℕ) :
    (cells.row rowNumber fingerprint).normalized platform = cells.normalized platform := by
  by_cases herrors : cells.errors = []
  · have hnote : cells.note ≠ [] := fun hnil ↦ by simp [ImportCells.errors, hnil] at herrors
    unfold ParsedImportRow.normalized ImportCells.normalized ImportCells.row
    simp only [if_pos herrors, if_neg hnote]
    cases cells.occurredAt <;> cases cells.direction <;> cases cells.amountKobo <;> rfl
  · unfold ParsedImportRow.normalized ImportCells.normalized ImportCells.row
    simp only [if_neg herrors]

/-- The contents of the rows are those of the records. -/
theorem normalized_parseRows :
    (parseRows platform occurrences rowNumber records).filterMap
      (ParsedImportRow.normalized platform) = contents platform records := by
  induction records generalizing occurrences rowNumber with
  | nil => rfl
  | cons cells records ih =>
    rw [parseRows, contents, List.filterMap_cons, List.filterMap_cons, normalized_row, ih, contents]

/-- **The fingerprints** are those of the numbered contents. -/
theorem fingerprints_parseRows :
    fingerprintsOf (parseRows platform occurrences rowNumber records) =
      (numbered occurrences ((contents platform records).map NormalizedRow.canonical)).map
        fun occurrence ↦ platform.sha256 (occurrenceText occurrence) := by
  induction records generalizing occurrences rowNumber with
  | nil => rfl
  | cons cells records ih =>
    rw [parseRows, fingerprintsOf, contents, fingerprintRecord]
    cases hnormalized : cells.normalized platform with
    | none =>
      rw [List.filterMap_cons_none (by rfl), List.filterMap_cons_none hnormalized]
      exact ih
    | some normalized =>
      rw [List.filterMap_cons_some (by rfl), List.filterMap_cons_some hnormalized, List.map_cons,
        numbered_cons, List.map_cons]
      exact congrArg _ ih

/-- The text that is hashed determines the content and the number. -/
theorem occurrenceText_inj {o o' : Text × ℕ} (h : occurrenceText o = occurrenceText o') :
    o = o' := by
  have hdigits : ∀ n, '|' ∉ Nat.toDigits 10 n := fun n hmem ↦
    absurd (Nat.isDigit_of_mem_toDigits (by decide) (by decide) hmem) (by decide)
  obtain ⟨htext, hnumber⟩ := append_separator_inj (hdigits _) (hdigits _) h
  refine Prod.ext htext ?_
  rw [← Nat.ofDigitChars_ten_toDigits (n := o.2), hnumber, Nat.ofDigitChars_ten_toDigits]

/-- **Rows of one file** have distinct fingerprints. -/
theorem nodup_fingerprints (hsha : Function.Injective platform.sha256) :
    (fingerprintsOf (parseRows platform occurrences rowNumber records)).Nodup := by
  rw [fingerprints_parseRows]
  exact nodup_numbered.map fun _ _ h ↦ occurrenceText_inj (hsha h)

/-- The fingerprints do not depend on the order of the records. -/
theorem fingerprints_perm {records' : List ImportCells}
    (h : (contents platform records).Perm (contents platform records')) (rowNumber' fingerprint : ℕ) :
    fingerprint ∈ fingerprintsOf (parseRows platform occurrences rowNumber records) ↔
      fingerprint ∈ fingerprintsOf (parseRows platform occurrences rowNumber' records') := by
  simp only [fingerprints_parseRows, List.mem_map]
  exact exists_congr fun o ↦ and_congr_left fun _ ↦
    mem_numbered_perm (h.map NormalizedRow.canonical) o

end Rows

end Stead
