import Stead.Model.Text

/-!
# Comma-separated records

`parseCsvRecords` and `csvEscape`. A record is a list of cells; what is parsed are the records with
a cell that is not blank.

## The scanner

`scanCsv` goes through the text once, one character after another, with a state of what it has read
(`CsvState`: complete records, complete cells of the current record, the current cell) and a mode:
outside quotes, inside them, or after a closing quote. The line ends are `\n`, `\r` and `\r\n`. The
simp lemmas say what one character does in one mode; nothing later unfolds the scanner.

## Rendering

`renderCsv` escapes each cell, joins the cells by commas and ends the records by line feeds but for
the last. Rendering and parsing are inverse (`parseCsvRecords_render`): a cell that is escaped is
read back (`scanCsv_cell`), whatever state the scanner is in, and a record is read back cell by
cell. The induction is on the records for any state of the scanner, since a state is all that the
records before have left.
-/

namespace Stead

/-- What an import is rejected with. -/
inductive ImportFailure where
  | badRequest (message : String)
  /-- with the row numbers in the details -/
  | badSelection (message : String) (rowNumbers : List ℕ)
  | notFound (message : String)
  /-- an error of the database -/
  | database
  deriving DecidableEq

/-- Where the scanner is: outside quotes, inside them, or after the closing one. -/
inductive CsvMode where
  | plain
  | quoted
  | closedQuote
  deriving DecidableEq

/-- What the scanner has read: complete records, complete cells of the current record, and the
characters of the current cell. -/
structure CsvState where
  records : List (List Text)
  record : List Text
  field : Text
  deriving DecidableEq

namespace CsvState

/-- One more character of the field. -/
def append (s : CsvState) (c : Char) : CsvState := { s with field := s.field ++ [c] }

/-- The end of a cell. -/
def endField (s : CsvState) : CsvState := ⟨s.records, s.record ++ [s.field], []⟩

/-- The end of a record. -/
def endRecord (s : CsvState) : CsvState := ⟨s.records ++ [s.record ++ [s.field]], [], []⟩

end CsvState

/-- A quote in the wrong place. -/
def MALFORMED_QUOTING : ImportFailure := .badRequest "Malformed CSV quoting"

/-- The loop of `parseCsvRecords`. -/
def scanCsv (mode : CsvMode) (s : CsvState) : Text → Except ImportFailure (List (List Text))
  | [] =>
    if mode = .quoted then .error (.badRequest "CSV contains an unclosed quote")
    else if s.field ≠ [] ∨ s.record ≠ [] then .ok s.endRecord.records
    else .ok s.records
  | c :: rest =>
    match mode with
    | .quoted =>
      if c = '"' then
        match rest with
        | d :: rest' =>
          if d = '"' then scanCsv .quoted (s.append '"') rest'
          else scanCsv .closedQuote s (d :: rest')
        | [] => scanCsv .closedQuote s []
      else scanCsv .quoted (s.append c) rest
    | .closedQuote =>
      if c = ',' then scanCsv .plain s.endField rest
      else if c = '\n' ∨ c = '\r' then
        match rest with
        | d :: rest' =>
          if c = '\r' ∧ d = '\n' then scanCsv .plain s.endRecord rest'
          else scanCsv .plain s.endRecord (d :: rest')
        | [] => scanCsv .plain s.endRecord []
      else if isTrimmed c then scanCsv .closedQuote s rest
      else .error MALFORMED_QUOTING
    | .plain =>
      if c = '"' then
        if s.field ≠ [] then .error MALFORMED_QUOTING else scanCsv .quoted s rest
      else if c = ',' then scanCsv .plain s.endField rest
      else if c = '\n' ∨ c = '\r' then
        match rest with
        | d :: rest' =>
          if c = '\r' ∧ d = '\n' then scanCsv .plain s.endRecord rest'
          else scanCsv .plain s.endRecord (d :: rest')
        | [] => scanCsv .plain s.endRecord []
      else scanCsv .plain (s.append c) rest

/-- A record with a cell that is not blank. -/
def keptRecord (record : List Text) : Bool := record.any nonblank

/-- The records of a text that are not blank. -/
def parseCsvRecords (csv : Text) : Except ImportFailure (List (List Text)) :=
  (scanCsv .plain ⟨[], [], []⟩ csv).map fun records ↦ records.filter keptRecord

/-- A character that a cell has to be quoted for. -/
def isCsvSpecial (c : Char) : Bool := c = '"' || c = ',' || c = '\r' || c = '\n'

/-- `value.replace(/"/g, '""')` -/
def doubleQuotes (value : Text) : Text := value.flatMap fun c ↦ if c = '"' then ['"', '"'] else [c]

/-- A cell as it is written: in quotes where that is needed. -/
def csvEscape (value : Text) : Text :=
  if value.any isCsvSpecial then '"' :: doubleQuotes value ++ ['"'] else value

/-- `record.map(csvEscape).join(',')` -/
def renderRecord (record : List Text) : Text := [','].intercalate (record.map csvEscape)

/-- `records.map(…).join('\n')` -/
def renderCsv (records : List (List Text)) : Text := ['\n'].intercalate (records.map renderRecord)

/-! ### Reading back what was rendered -/

section RoundTrip

variable {s : CsvState} {c : Char} {value rest : Text}

theorem scanCsv_plain_char (hc : isCsvSpecial c = false) :
    scanCsv .plain s (c :: rest) = scanCsv .plain (s.append c) rest := by
  simp only [isCsvSpecial, Bool.or_eq_false_iff, decide_eq_false_iff_not] at hc
  rw [scanCsv.eq_def]
  simp [hc]

theorem scanCsv_plain_comma :
    scanCsv .plain s (',' :: rest) = scanCsv .plain s.endField rest := by
  cases rest <;> rfl

theorem scanCsv_plain_newline :
    scanCsv .plain s ('\n' :: rest) = scanCsv .plain s.endRecord rest := by
  cases rest <;> rfl

theorem scanCsv_plain_quote (h : s.field = []) :
    scanCsv .plain s ('"' :: rest) = scanCsv .quoted s rest := by
  rw [scanCsv.eq_def]
  simp [h]

theorem scanCsv_quoted_char (hc : c ≠ '"') :
    scanCsv .quoted s (c :: rest) = scanCsv .quoted (s.append c) rest := by
  rw [scanCsv.eq_def]
  simp [hc]

theorem scanCsv_quoted_double :
    scanCsv .quoted s ('"' :: '"' :: rest) = scanCsv .quoted (s.append '"') rest := by
  cases rest <;> rfl

/-- A quote that no other one follows closes the cell. -/
theorem scanCsv_quoted_close (hrest : ∀ rest', rest ≠ '"' :: rest') :
    scanCsv .quoted s ('"' :: rest) = scanCsv .closedQuote s rest := by
  rw [scanCsv.eq_def]
  cases rest with
  | nil => rfl
  | cons d rest =>
    have hd : d ≠ '"' := fun hd ↦ hrest rest (hd ▸ rfl)
    simp [hd]

theorem scanCsv_closedQuote_comma :
    scanCsv .closedQuote s (',' :: rest) = scanCsv .plain s.endField rest := by
  cases rest <;> rfl

theorem scanCsv_closedQuote_newline :
    scanCsv .closedQuote s ('\n' :: rest) = scanCsv .plain s.endRecord rest := by
  cases rest <;> rfl

/-- A field grows at its end. -/
theorem CsvState.append_append {s : CsvState} {c : Char} {value : Text} :
    { s.append c with field := (s.append c).field ++ value } =
      { s with field := s.field ++ c :: value } := by
  simp [append]

/-- Characters that need no quotes are appended to the cell. -/
theorem scanCsv_plain_value (h : value.any isCsvSpecial = false) :
    scanCsv .plain s (value ++ rest) = scanCsv .plain { s with field := s.field ++ value } rest := by
  induction value generalizing s with
  | nil => simp
  | cons c value ih =>
    rw [List.any_cons, Bool.or_eq_false_iff] at h
    rw [List.cons_append, scanCsv_plain_char h.1, ih h.2, CsvState.append_append]

/-- What is quoted is read up to the closing quote. -/
theorem scanCsv_quoted_value (hrest : ∀ rest', rest ≠ '"' :: rest') :
    scanCsv .quoted s (doubleQuotes value ++ '"' :: rest) =
      scanCsv .closedQuote { s with field := s.field ++ value } rest := by
  induction value generalizing s with
  | nil =>
    rw [doubleQuotes, List.flatMap_nil, List.nil_append, scanCsv_quoted_close hrest,
      List.append_nil]
  | cons c value ih =>
    by_cases hc : c = '"'
    · subst hc
      have hdouble : doubleQuotes ('"' :: value) ++ '"' :: rest =
        '"' :: '"' :: (doubleQuotes value ++ '"' :: rest) := by simp [doubleQuotes]
      rw [hdouble, scanCsv_quoted_double, ih, CsvState.append_append]
    · have hsingle : doubleQuotes (c :: value) ++ '"' :: rest =
        c :: (doubleQuotes value ++ '"' :: rest) := by simp [doubleQuotes, hc]
      rw [hsingle, scanCsv_quoted_char hc, ih, CsvState.append_append]

/-- The mode in which the scanner comes out of a cell. -/
def cellMode (value : Text) : CsvMode := if value.any isCsvSpecial then .closedQuote else .plain

/-- **A cell** is read back, whatever has been read before it. -/
theorem scanCsv_cell (hfield : s.field = []) (hrest : ∀ rest', rest ≠ '"' :: rest') :
    scanCsv .plain s (csvEscape value ++ rest) =
      scanCsv (cellMode value) { s with field := value } rest := by
  unfold csvEscape cellMode
  split
  · have hquoted : '"' :: doubleQuotes value ++ ['"'] ++ rest =
        '"' :: (doubleQuotes value ++ '"' :: rest) := by simp
    rw [hquoted, scanCsv_plain_quote hfield, scanCsv_quoted_value hrest, hfield, List.nil_append]
  · next h =>
    rw [scanCsv_plain_value (by simpa using h), hfield, List.nil_append]

theorem scanCsv_cell_comma (mode : CsvMode) (h : mode ≠ .quoted) :
    scanCsv mode s (',' :: rest) = scanCsv .plain s.endField rest := by
  cases mode with
  | plain => exact scanCsv_plain_comma
  | quoted => exact absurd rfl h
  | closedQuote => exact scanCsv_closedQuote_comma

theorem scanCsv_cell_newline (mode : CsvMode) (h : mode ≠ .quoted) :
    scanCsv mode s ('\n' :: rest) = scanCsv .plain s.endRecord rest := by
  cases mode with
  | plain => exact scanCsv_plain_newline
  | quoted => exact absurd rfl h
  | closedQuote => exact scanCsv_closedQuote_newline

/-- A cell that has been read is closed. -/
theorem cellMode_ne_quoted (value : Text) : cellMode value ≠ .quoted := by
  unfold cellMode
  split <;> decide

/-- A record with something to read: not a single empty cell. -/
def WrittenRecord (record : List Text) : Prop := record ≠ [] ∧ record ≠ [[]]

/-- **A record** is read back up to its last cell. -/
theorem scanCsv_record {record : List Text} (hne : record ≠ []) (hfield : s.field = [])
    (hrest : ∀ rest', rest ≠ '"' :: rest') :
    scanCsv .plain s (renderRecord record ++ rest) = scanCsv (cellMode (record.getLast hne))
      ⟨s.records, s.record ++ record.dropLast, record.getLast hne⟩ rest := by
  induction record generalizing s with
  | nil => exact absurd rfl hne
  | cons value record ih =>
    cases record with
    | nil =>
      have hone : renderRecord [value] = csvEscape value := by simp [renderRecord]
      rw [hone, scanCsv_cell hfield hrest]
      simp
    | cons value' record =>
      have hcons : renderRecord (value :: value' :: record) ++ rest =
          csvEscape value ++ ',' :: (renderRecord (value' :: record) ++ rest) := by
        simp [renderRecord, List.intercalate_cons_cons]
      rw [hcons, scanCsv_cell hfield (by simp), scanCsv_cell_comma _ (cellMode_ne_quoted _),
        ih (List.cons_ne_nil _ _) rfl]
      simp [CsvState.endField]

/-- The end of the text ends the last record. -/
theorem scanCsv_end (mode : CsvMode) (h : mode ≠ .quoted) (hread : s.field ≠ [] ∨ s.record ≠ []) :
    scanCsv mode s [] = .ok s.endRecord.records := by
  rw [scanCsv.eq_def]
  simp only [if_neg h, if_pos hread]

/-- **Records** are read back. -/
theorem scanCsv_render {records : List (List Text)} (hne : records ≠ [])
    (h : ∀ record ∈ records, WrittenRecord record) (hfield : s.field = []) (hrecord : s.record = []) :
    scanCsv .plain s (renderCsv records) = .ok (s.records ++ records) := by
  -- Induction on the records: one that is read leaves the scanner between records.
  induction records generalizing s with
  | nil => exact absurd rfl hne
  | cons record records ih =>
    obtain ⟨hwritten, hnotEmpty⟩ := h record (List.mem_cons_self ..)
    have hread : record.dropLast ++ [record.getLast hwritten] = record :=
      List.dropLast_concat_getLast hwritten
    cases records with
    | nil =>
      have hone : renderCsv [record] = renderRecord record ++ [] := by simp [renderCsv]
      rw [hone, scanCsv_record hwritten hfield (by simp), scanCsv_end _ (cellMode_ne_quoted _)]
      · simp [CsvState.endRecord, hrecord, hread]
      · by_contra hnothing
        simp only [not_or, not_not, hrecord, List.nil_append] at hnothing
        -- A record of a single blank cell is not written.
        refine hnotEmpty ?_
        rw [← hread, hnothing.1, hnothing.2]
        rfl
    | cons record' records =>
      have hcons : renderCsv (record :: record' :: records) =
          renderRecord record ++ '\n' :: renderCsv (record' :: records) := by
        simp [renderCsv, List.intercalate_cons_cons]
      rw [hcons, scanCsv_record hwritten hfield (by simp),
        scanCsv_cell_newline _ (cellMode_ne_quoted _),
        ih (List.cons_ne_nil _ _) (fun r hr ↦ h r (List.mem_cons_of_mem _ hr)) rfl rfl]
      simp [CsvState.endRecord, hrecord, hread]

/-- **Rendering and parsing** are inverse, up to the records that are blank. -/
theorem parseCsvRecords_render {records : List (List Text)} (hne : records ≠ [])
    (h : ∀ record ∈ records, WrittenRecord record) :
    parseCsvRecords (renderCsv records) = .ok (records.filter keptRecord) := by
  rw [parseCsvRecords, scanCsv_render hne h rfl rfl, List.nil_append]
  rfl

/-- A record that is kept can be written. -/
theorem WrittenRecord.of_kept {record : List Text} (h : keptRecord record = true) :
    WrittenRecord record := by
  constructor <;> rintro rfl <;> exact absurd h (by decide)

/-- No record that is parsed is blank. -/
theorem mem_parseCsvRecords {csv : Text} {records : List (List Text)}
    (h : parseCsvRecords csv = .ok records) : ∀ record ∈ records, keptRecord record = true := by
  unfold parseCsvRecords at h
  cases hscan : scanCsv .plain ⟨[], [], []⟩ csv with
  | error e => rw [hscan] at h; cases h
  | ok scanned =>
    rw [hscan] at h
    cases h
    exact fun record hrecord ↦ (List.mem_filter.1 hrecord).2

end RoundTrip

end Stead
