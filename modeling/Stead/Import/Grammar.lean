import Stead.Import.Csv

/-!
# The grammar of comma-separated records

What `parseCsvRecords` accepts, as a grammar: `CsvFile text records` says that the text is one of
records, and which. A text that is not in the grammar is misquoted or ends inside quotes.

## The grammar

A field is plain (no comma, no line end, and no quote at its beginning) or in quotes, with padding
after the closing quote. Fields follow one another with commas, records with line ends, and the
last record may lack one. The relations say nothing of states or modes.

`Misquoted` and `Unclosed` are the texts with a first error: what comes before the cell in error is
in the grammar (`AfterCells`), and the cell is misquoted or never closed.

## The scanner decides it

Each relation has a lemma about the scanner, for any state it may be in (`CsvFile.scan`,
`Misquoted.scan`, `Unclosed.scan`). That the three cases are all is shown the other way round, by
following the scanner along the text: what has been read of a field is kept as a relation
(`CsvStarted`), and with the rest of the text it is one of the three (`Classified`,
`scanCsv_classified`). So parsing is the denotation of the grammar, up to records that are blank
(`parseCsvRecords_grammar`).
-/

namespace Stead

/-- What stands between quotes, and what it denotes. -/
inductive QuotedText : Text → Text → Prop
  | nil : QuotedText [] []
  | char {c : Char} {written value : Text} (hc : c ≠ '"') (h : QuotedText written value) :
      QuotedText (c :: written) (c :: value)
  | double {written value : Text} (h : QuotedText written value) :
      QuotedText ('"' :: '"' :: written) ('"' :: value)

/-- White space that does not end a line. -/
def isPadding (c : Char) : Bool := isTrimmed c && c ≠ '\r' && c ≠ '\n'

/-- A cell, and what it denotes. -/
inductive CsvField : Text → Text → Prop
  | plain {value : Text} (h : ∀ c ∈ value, isCsvSpecial c = false) : CsvField value value
  | quoted {written value padding : Text} (h : QuotedText written value)
      (hpadding : ∀ c ∈ padding, isPadding c = true) :
      CsvField ('"' :: (written ++ '"' :: padding)) value

/-- Cells with commas between them. -/
inductive CsvRecord : Text → List Text → Prop
  | last {written value : Text} (h : CsvField written value) : CsvRecord written [value]
  | cons {written value rest : Text} {record : List Text} (h : CsvField written value)
      (hrest : CsvRecord rest record) : CsvRecord (written ++ ',' :: rest) (value :: record)

/-- The end of a record, before the rest of the text. CR LF is one end. -/
inductive CsvTerminator : Text → Text → Prop
  | crlf {rest : Text} : CsvTerminator ['\r', '\n'] rest
  | lf {rest : Text} : CsvTerminator ['\n'] rest
  | cr {rest : Text} (h : rest.head? ≠ some '\n') : CsvTerminator ['\r'] rest

/-- Records with ends between them, and perhaps one at the end of the text. -/
inductive CsvFile : Text → List (List Text) → Prop
  | last {written : Text} {record : List Text} (h : CsvRecord written record) :
      CsvFile written [record]
  | terminated {written terminator : Text} {record : List Text} (h : CsvRecord written record)
      (hend : CsvTerminator terminator []) : CsvFile (written ++ terminator) [record]
  | cons {written terminator rest : Text} {record : List Text} {records : List (List Text)}
      (h : CsvRecord written record) (hend : CsvTerminator terminator rest)
      (hrest : CsvFile rest records) : CsvFile (written ++ (terminator ++ rest)) (record :: records)

/-! ### Texts that are no records -/

/-- What stands between two cells. -/
inductive CsvSeparator : Text → Text → Prop
  | comma {rest : Text} : CsvSeparator [','] rest
  | terminator {written rest : Text} (h : CsvTerminator written rest) : CsvSeparator written rest

/-- Some cells, and then a text of a kind. -/
inductive AfterCells (P : Text → Prop) : Text → Prop
  | here {text : Text} (h : P text) : AfterCells P text
  | cell {written value separator rest : Text} (h : CsvField written value)
      (hseparator : CsvSeparator separator rest) (hrest : AfterCells P rest) :
      AfterCells P (written ++ (separator ++ rest))

/-- A quote inside a cell that did not begin with one, or more than white space after the closing
quote. -/
inductive MisquotedCell : Text → Prop
  | inside {value rest : Text} (hne : value ≠ []) (h : ∀ c ∈ value, isCsvSpecial c = false) :
      MisquotedCell (value ++ '"' :: rest)
  | after {written value padding rest : Text} {c : Char} (h : QuotedText written value)
      (hpadding : ∀ c ∈ padding, isPadding c = true) (hc : isTrimmed c = false) (hcomma : c ≠ ',')
      (hquote : c = '"' → padding ≠ []) :
      MisquotedCell ('"' :: (written ++ '"' :: (padding ++ c :: rest)))

/-- A text in which a cell is misquoted. -/
def Misquoted : Text → Prop := AfterCells MisquotedCell

/-- A text that ends inside quotes. -/
def Unclosed : Text → Prop := AfterCells fun text ↦ ∃ written value, QuotedText written value ∧
  text = '"' :: written

/-- A quote that is never closed. -/
def UNCLOSED_QUOTE : ImportFailure := .badRequest "CSV contains an unclosed quote"

/-! ### The scanner reads cells -/

section Reading

variable {s : CsvState} {mode : CsvMode} {c : Char} {written value padding terminator rest : Text}

/-- Inside quotes a text is written with its quotes doubled. -/
theorem QuotedText.written_eq (h : QuotedText written value) : written = doubleQuotes value := by
  induction h with
  | nil => rfl
  | char hc h ih =>
    rw [ih]
    simp [doubleQuotes, hc]
  | double h ih =>
    rw [ih]
    simp [doubleQuotes]

theorem QuotedText.append_char (h : QuotedText written value) (hc : c ≠ '"') :
    QuotedText (written ++ [c]) (value ++ [c]) := by
  induction h with
  | nil => exact .char hc .nil
  | char hc' _ ih => exact .char hc' ih
  | double _ ih => exact .double ih

theorem QuotedText.append_double (h : QuotedText written value) :
    QuotedText (written ++ ['"', '"']) (value ++ ['"']) := by
  induction h with
  | nil => exact .double .nil
  | char hc' _ ih => exact .char hc' ih
  | double _ ih => exact .double ih

/-- Padding is white space that neither ends a record nor is special. -/
theorem isPadding_spec (hc : isPadding c = true) :
    isTrimmed c = true ∧ c ≠ '\r' ∧ c ≠ '\n' ∧ c ≠ ',' ∧ c ≠ '"' := by
  simp only [isPadding, Bool.and_eq_true, decide_eq_true_eq] at hc
  refine ⟨hc.1.1, hc.1.2, hc.2, ?_, ?_⟩
  · rintro rfl
    exact absurd hc.1.1 (by decide)
  · rintro rfl
    exact absurd hc.1.1 (by decide)

/-- White space after the closing quote is skipped. -/
theorem scanCsv_padding (rest : Text) (hpadding : ∀ c ∈ padding, isPadding c = true) :
    scanCsv .closedQuote s (padding ++ rest) = scanCsv .closedQuote s rest := by
  induction padding with
  | nil => rfl
  | cons c padding ih =>
    obtain ⟨htrimmed, hcr, hlf, hcomma, -⟩ := isPadding_spec (hpadding c (List.mem_cons_self ..))
    rw [List.cons_append, scanCsv.eq_def]
    simp only [hcomma, hcr, hlf, htrimmed, if_false, if_true, or_false]
    exact ih fun c hc ↦ hpadding c (List.mem_cons_of_mem _ hc)

/-- What follows a closing quote is no quote. -/
theorem not_quote_of_padding (hpadding : ∀ c ∈ padding, isPadding c = true)
    (hrest : ∀ rest', rest ≠ '"' :: rest') : ∀ rest', padding ++ rest ≠ '"' :: rest' := by
  intro rest' heq
  cases padding with
  | nil => exact hrest rest' heq
  | cons c padding =>
    exact (isPadding_spec (hpadding c (List.mem_cons_self ..))).2.2.2.2 (List.cons.inj heq).1

/-- A quoted text is read, with the white space after it. -/
theorem scanCsv_quoted_field (hfield : s.field = []) (h : QuotedText written value)
    (hpadding : ∀ c ∈ padding, isPadding c = true)
    (hrest : ∀ rest', padding ++ rest ≠ '"' :: rest') :
    scanCsv .plain s ('"' :: (written ++ '"' :: (padding ++ rest))) =
      scanCsv .closedQuote { s with field := value } rest := by
  rw [scanCsv_plain_quote hfield, h.written_eq, scanCsv_quoted_value hrest, hfield,
    List.nil_append, scanCsv_padding rest hpadding]

/-- **A cell of the grammar** is read, whatever has been read before it. -/
theorem CsvField.scan (h : CsvField written value) (hfield : s.field = [])
    (hrest : ∀ rest', rest ≠ '"' :: rest') : ∃ mode, mode ≠ .quoted ∧
      scanCsv .plain s (written ++ rest) = scanCsv mode { s with field := value } rest := by
  cases h with
  | plain h =>
    refine ⟨.plain, CsvMode.noConfusion, ?_⟩
    rw [scanCsv_plain_value (List.any_eq_false.2 fun c hc ↦ by simp [h c hc]), hfield,
      List.nil_append]
  | quoted h hpadding =>
    refine ⟨.closedQuote, CsvMode.noConfusion, ?_⟩
    rw [List.cons_append, List.append_assoc, List.cons_append,
      scanCsv_quoted_field hfield h hpadding (not_quote_of_padding hpadding hrest)]

/-- The end of a record. -/
theorem CsvTerminator.scan (h : CsvTerminator terminator rest) (hmode : mode ≠ .quoted) :
    scanCsv mode s (terminator ++ rest) = scanCsv .plain s.endRecord rest := by
  cases h with
  | lf => exact scanCsv_cell_newline mode hmode
  | crlf =>
    cases mode with
    | quoted => exact absurd rfl hmode
    | plain =>
      rw [scanCsv.eq_def]
      rfl
    | closedQuote =>
      rw [scanCsv.eq_def]
      rfl
  | cr h =>
    cases rest with
    | nil =>
      cases mode with
      | quoted => exact absurd rfl hmode
      | plain =>
        rw [scanCsv.eq_def]
        rfl
      | closedQuote =>
        rw [scanCsv.eq_def]
        rfl
    | cons d rest =>
      -- A lone `\r` ends the record, since no `\n` follows it.
      have hd : d ≠ '\n' := fun hd ↦ h (hd ▸ rfl)
      rw [List.singleton_append, scanCsv.eq_def]
      cases mode with
      | quoted => exact absurd rfl hmode
      | plain => simp [hd]
      | closedQuote => simp [hd]

theorem CsvTerminator.ne_quote (h : CsvTerminator terminator rest) (rest' : Text) :
    terminator ++ rest ≠ '"' :: rest' := by
  cases h <;> simp

theorem CsvSeparator.ne_quote (h : CsvSeparator terminator rest) (rest' : Text) :
    terminator ++ rest ≠ '"' :: rest' := by
  cases h with
  | comma => simp
  | terminator h => exact h.ne_quote rest'

/-- The cell is complete, and perhaps the record. -/
theorem CsvSeparator.scan (h : CsvSeparator terminator rest) (hmode : mode ≠ .quoted) :
    ∃ s', s'.field = [] ∧ scanCsv mode s (terminator ++ rest) = scanCsv .plain s' rest := by
  cases h with
  | comma => exact ⟨s.endField, rfl, scanCsv_cell_comma mode hmode⟩
  | terminator h => exact ⟨s.endRecord, rfl, h.scan hmode⟩

/-- After complete cells the scanner comes to what follows them. -/
theorem AfterCells.scan {P : Text → Prop} {e : ImportFailure} {text : Text}
    (hP : ∀ (s : CsvState) text, P text → s.field = [] → scanCsv .plain s text = .error e)
    (h : AfterCells P text) (hfield : s.field = []) : scanCsv .plain s text = .error e := by
  induction h generalizing s with
  | here h => exact hP s _ h hfield
  | cell h hseparator _ ih =>
    obtain ⟨mode, hmode, hscan⟩ := h.scan hfield hseparator.ne_quote
    obtain ⟨s', hfield', hscan'⟩ := hseparator.scan (s := { s with field := _ }) hmode
    rw [hscan, hscan']
    exact ih hfield'

/-- **A misquoted cell** is rejected as such. -/
theorem MisquotedCell.scan {text : Text} (h : MisquotedCell text) (hfield : s.field = []) :
    scanCsv .plain s text = .error MALFORMED_QUOTING := by
  cases h with
  | inside hne h =>
    rw [scanCsv_plain_value (List.any_eq_false.2 fun c hc ↦ by simp [h c hc]), hfield,
      List.nil_append, scanCsv.eq_def]
    simp [hne]
  | @after _ _ padding rest c h hpadding hc hcomma hquote =>
    have hnotQuote : ∀ rest', padding ++ c :: rest ≠ '"' :: rest' := by
      intro rest' heq
      cases padding with
      | nil => exact hquote (List.cons.inj heq).1 rfl
      | cons d padding =>
        exact (isPadding_spec (hpadding d (List.mem_cons_self ..))).2.2.2.2 (List.cons.inj heq).1
    have hcr : c ≠ '\r' := by
      rintro rfl
      exact absurd hc (by decide)
    have hlf : c ≠ '\n' := by
      rintro rfl
      exact absurd hc (by decide)
    rw [scanCsv_quoted_field hfield h hpadding hnotQuote, scanCsv.eq_def]
    simp [hcomma, hcr, hlf, hc]

/-- Quotes that are never closed are rejected at the end of the text. -/
theorem QuotedText.scan (h : QuotedText written value) :
    scanCsv .quoted s written = .error UNCLOSED_QUOTE := by
  induction h generalizing s with
  | nil => rfl
  | char hc _ ih => rw [scanCsv_quoted_char hc, ih]
  | double _ ih => rw [scanCsv_quoted_double, ih]

/-- **A misquoted text** is rejected where the cell is. -/
theorem Misquoted.scan {text : Text} (h : Misquoted text) (hfield : s.field = []) :
    scanCsv .plain s text = .error MALFORMED_QUOTING :=
  AfterCells.scan (fun _ _ h hfield ↦ h.scan hfield) h hfield

/-- **An unclosed text** is rejected at its end. -/
theorem Unclosed.scan {text : Text} (h : Unclosed text) (hfield : s.field = []) :
    scanCsv .plain s text = .error UNCLOSED_QUOTE := by
  refine AfterCells.scan (fun s text hquoted hfield ↦ ?_) h hfield
  obtain ⟨written, value, hquoted, rfl⟩ := hquoted
  rw [scanCsv_plain_quote hfield, hquoted.scan]

/-- A record is read up to its last cell. -/
theorem CsvRecord.scan {record : List Text} (h : CsvRecord written record) (hfield : s.field = [])
    (rest : Text) (hrest : ∀ rest', rest ≠ '"' :: rest') : ∃ mode s', mode ≠ .quoted ∧
      s'.records = s.records ∧ s'.record ++ [s'.field] = s.record ++ record ∧
      scanCsv .plain s (written ++ rest) = scanCsv mode s' rest := by
  induction h generalizing s with
  | @last _ value h =>
    obtain ⟨mode, hmode, hscan⟩ := h.scan hfield hrest
    exact ⟨mode, { s with field := value }, hmode, rfl, rfl, hscan⟩
  | @cons _ value after _ h _ ih =>
    have hcomma : ∀ rest', ',' :: (after ++ rest) ≠ '"' :: rest' := by simp
    obtain ⟨mode, hmode, hscan⟩ := h.scan hfield hcomma
    have hempty : (CsvState.endField { s with field := value }).field = [] := rfl
    obtain ⟨mode', s', hmode', hrecords, hrecord, hscan'⟩ := ih hempty
    refine ⟨mode', s', hmode', hrecords, ?_, ?_⟩
    · rw [hrecord]
      simp [CsvState.endField]
    · rw [List.append_assoc, List.cons_append, hscan, scanCsv_cell_comma mode hmode, hscan']

/-- The end of the text ends the last record, unless that is blank. -/
theorem scanCsv_nil (s : CsvState) (hmode : mode ≠ .quoted) : ∃ records,
    scanCsv mode s [] = .ok records ∧ records.filter keptRecord = s.endRecord.records.filter keptRecord := by
  rw [scanCsv.eq_def]
  by_cases hread : s.field ≠ [] ∨ s.record ≠ []
  · exact ⟨s.endRecord.records, by simp only [if_neg hmode, if_pos hread], rfl⟩
  · refine ⟨s.records, by simp only [if_neg hmode, if_neg hread], ?_⟩
    simp only [not_or, not_not] at hread
    rw [CsvState.endRecord, hread.1, hread.2, List.filter_append]
    simp [keptRecord, nonblank]

/-- **A text of the grammar** is read. -/
theorem CsvFile.scan {records : List (List Text)} (h : CsvFile written records)
    (hfield : s.field = []) (hrecord : s.record = []) : ∃ records',
      scanCsv .plain s written = .ok records' ∧
      records'.filter keptRecord = (s.records ++ records).filter keptRecord := by
  induction h generalizing s with
  | @last written _ h =>
    obtain ⟨mode, s', hmode, hrecords, hlast, hscan⟩ := h.scan hfield [] (by simp)
    obtain ⟨records', hend, hkept⟩ := scanCsv_nil s' hmode
    refine ⟨records', ?_, ?_⟩
    · rw [← List.append_nil written, hscan, hend]
    · rw [hkept, CsvState.endRecord, hrecords, hlast, hrecord, List.nil_append]
  | @terminated _ terminator _ h hend =>
    obtain ⟨mode, s', hmode, hrecords, hlast, hscan⟩ := h.scan hfield (terminator ++ [])
      (fun rest' ↦ hend.ne_quote rest')
    have hplain : CsvMode.plain ≠ .quoted := CsvMode.noConfusion
    obtain ⟨records', hnil, hkept⟩ := scanCsv_nil s'.endRecord hplain
    refine ⟨records', ?_, ?_⟩
    · rw [← List.append_nil terminator, hscan, hend.scan hmode, hnil]
    · rw [hkept, CsvState.endRecord, CsvState.endRecord, hrecords, hlast, hrecord, List.nil_append,
        List.filter_append]
      simp [keptRecord, nonblank]
  | cons h hend _ ih =>
    obtain ⟨mode, s', hmode, hrecords, hlast, hscan⟩ := h.scan hfield _
      (fun rest' ↦ hend.ne_quote rest')
    obtain ⟨records', hrest, hkept⟩ := ih (s := s'.endRecord) rfl rfl
    refine ⟨records', ?_, ?_⟩
    · rw [hscan, hend.scan hmode, hrest]
    · rw [hkept, CsvState.endRecord, hrecords, hlast, hrecord, List.nil_append, List.append_assoc,
        List.singleton_append]

end Reading

/-! ### What the scanner has read -/

/-- What has been written of a cell, and what it denotes so far. -/
inductive CsvStarted : CsvMode → Text → Text → Prop
  | plain {value : Text} (h : ∀ c ∈ value, isCsvSpecial c = false) : CsvStarted .plain value value
  | quoted {written value : Text} (h : QuotedText written value) :
      CsvStarted .quoted ('"' :: written) value
  | closedQuote {written value padding : Text} (h : QuotedText written value)
      (hpadding : ∀ c ∈ padding, isPadding c = true) :
      CsvStarted .closedQuote ('"' :: (written ++ '"' :: padding)) value

/-- What the result of a scan says about a text of which some has been read. -/
def Classified (s : CsvState) (text : Text) : Except ImportFailure (List (List Text)) → Prop
  | .ok records => ∃ record rest, CsvFile text (record :: rest) ∧
      records.filter keptRecord = (s.records ++ (s.record ++ record) :: rest).filter keptRecord
  | .error e => e = MALFORMED_QUOTING ∧ Misquoted text ∨ e = UNCLOSED_QUOTE ∧ Unclosed text

section Classification

variable {s : CsvState} {mode : CsvMode} {c : Char} {written value separator rest : Text}
  {result : Except ImportFailure (List (List Text))}

/-- A cell that is not inside quotes may end. -/
theorem CsvStarted.field (h : CsvStarted mode written s.field) (hmode : mode ≠ .quoted) :
    CsvField written s.field := by
  generalize s.field = value at h
  cases h with
  | plain h => exact .plain h
  | quoted h => exact absurd rfl hmode
  | closedQuote h hpadding => exact .quoted h hpadding

/-- One more field before a record. -/
theorem CsvFile.cons_field {record : List Text} {records : List (List Text)}
    (h : CsvField written value) (hrest : CsvFile rest (record :: records)) :
    CsvFile (written ++ ',' :: rest) ((value :: record) :: records) := by
  cases hrest with
  | last hrecord => exact .last (.cons h hrecord)
  | terminated hrecord hend =>
    rw [← List.cons_append, ← List.append_assoc]
    exact .terminated (.cons h hrecord) hend
  | cons hrecord hend hrest =>
    rw [← List.cons_append, ← List.append_assoc]
    exact .cons (.cons h hrecord) hend hrest

/-- A cell before a comma. -/
theorem Classified.comma (h : CsvField written s.field) (hrest : Classified s.endField rest result) :
    Classified s (written ++ ',' :: rest) result := by
  cases result with
  | ok records =>
    obtain ⟨record, records', hfile, hkept⟩ := hrest
    refine ⟨_, records', hfile.cons_field h, ?_⟩
    rw [hkept]
    simp [CsvState.endField]
  | error e =>
    have hseparator : CsvSeparator [','] rest := .comma
    exact hrest.imp (.imp_right (.cell h hseparator)) (.imp_right (.cell h hseparator))

/-- A cell before the end of a record. -/
theorem Classified.terminator (h : CsvField written s.field) (hend : CsvTerminator separator rest)
    (hrest : Classified s.endRecord rest result) :
    Classified s (written ++ (separator ++ rest)) result := by
  cases result with
  | ok records =>
    obtain ⟨record, records', hfile, hkept⟩ := hrest
    refine ⟨_, _, .cons (.last h) hend hfile, ?_⟩
    rw [hkept]
    simp [CsvState.endRecord]
  | error e =>
    have hseparator : CsvSeparator separator rest := .terminator hend
    exact hrest.imp (.imp_right (.cell h hseparator)) (.imp_right (.cell h hseparator))

/-- The end of the text. -/
theorem Classified.nil (h : CsvField written s.field) {records : List (List Text)}
    (hkept : records.filter keptRecord = s.endRecord.records.filter keptRecord) :
    Classified s written (.ok records) :=
  ⟨_, _, .last (.last h), hkept⟩

/-- A field begins with nothing. -/
theorem CsvStarted.empty : CsvStarted .plain [] [] := .plain fun _ hc ↦ by cases hc

theorem CsvStarted.append_plain (h : CsvStarted .plain written value) (hc : isCsvSpecial c = false) :
    CsvStarted .plain (written ++ [c]) (value ++ [c]) := by
  cases h with
  | plain h => exact .plain (List.forall_mem_append.2 ⟨h, List.forall_mem_singleton.2 hc⟩)

theorem CsvStarted.append_quoted (h : CsvStarted .quoted written value) (hc : c ≠ '"') :
    CsvStarted .quoted (written ++ [c]) (value ++ [c]) := by
  cases h with
  | quoted h => exact .quoted (h.append_char hc)

theorem CsvStarted.append_double (h : CsvStarted .quoted written value) :
    CsvStarted .quoted (written ++ ['"'] ++ ['"']) (value ++ ['"']) := by
  cases h with
  | quoted h =>
    rw [List.append_assoc]
    exact .quoted h.append_double

theorem CsvStarted.close (h : CsvStarted .quoted written value) :
    CsvStarted .closedQuote (written ++ ['"']) value := by
  cases h with
  | quoted h => exact .closedQuote h fun _ hc ↦ by cases hc

theorem CsvStarted.append_padding (h : CsvStarted .closedQuote written value)
    (hc : isPadding c = true) : CsvStarted .closedQuote (written ++ [c]) value := by
  cases h with
  | closedQuote h hpadding =>
    rw [List.cons_append, List.append_assoc, List.cons_append]
    exact .closedQuote h (List.forall_mem_append.2 ⟨hpadding, List.forall_mem_singleton.2 hc⟩)

/-- A cell before the end of a record, when the scanner is there. -/
theorem classified_terminator (h : CsvStarted mode written s.field) (hmode : mode ≠ .quoted)
    (hend : CsvTerminator separator rest)
    (hrest : Classified s.endRecord rest (scanCsv .plain s.endRecord rest)) :
    Classified s (written ++ (separator ++ rest)) (scanCsv mode s (separator ++ rest)) := by
  rw [hend.scan hmode]
  exact .terminator (h.field hmode) hend hrest

/-- The same, for the character the scanner sees first. -/
theorem classified_line_end (h : CsvStarted mode written s.field)
    (hmode : mode ≠ .quoted) (hc : c = '\n' ∨ c = '\r')
    (hcrlf : c = '\r' → rest.head? ≠ some '\n')
    (hrest : Classified s.endRecord rest (scanCsv .plain s.endRecord rest)) :
    Classified s (written ++ c :: rest) (scanCsv mode s (c :: rest)) := by
  rcases hc with rfl | rfl
  · exact classified_terminator h hmode .lf hrest
  · exact classified_terminator h hmode (.cr (hcrlf rfl)) hrest

/-- **The scanner tells** records, misquoted texts and unclosed quotes apart. -/
theorem scanCsv_classified (mode : CsvMode) (s : CsvState) (text : Text) {written : Text}
    (h : CsvStarted mode written s.field)
    (hclosed : mode = .closedQuote → written.getLast? = some '"' → text.head? ≠ some '"') :
    Classified s (written ++ text) (scanCsv mode s text) := by
  induction mode, s, text using scanCsv.induct generalizing written with
  | case1 s =>
    -- The text ends inside quotes.
    generalize s.field = value at h
    cases h with
    | quoted h =>
      rw [List.append_nil]
      exact .inr ⟨rfl, .here ⟨_, _, h, rfl⟩⟩
  | case2 mode s hmode _ | case3 mode s hmode _ =>
    obtain ⟨records, hscan, hkept⟩ := scanCsv_nil s hmode
    rw [List.append_nil, hscan]
    exact .nil (h.field hmode) hkept
  | case4 s rest ih =>
    rw [scanCsv_quoted_double, List.append_cons, List.append_cons]
    exact ih h.append_double CsvMode.noConfusion
  | case5 s d rest hd ih =>
    rw [scanCsv_quoted_close fun rest' heq ↦ hd (List.cons.inj heq).1, List.append_cons]
    exact ih h.close fun _ _ hquote ↦ hd (Option.some.inj hquote)
  | case6 s ih =>
    rw [scanCsv_quoted_close (by simp), List.append_cons]
    exact ih h.close (by simp)
  | case7 s c rest hc ih =>
    rw [scanCsv_quoted_char hc, List.append_cons]
    exact ih (h.append_quoted hc) CsvMode.noConfusion
  | case8 s rest ih =>
    rw [scanCsv_closedQuote_comma]
    exact .comma (h.field CsvMode.noConfusion) (ih .empty CsvMode.noConfusion)
  | case9 s c _ hend d rest hcrlf ih | case17 s c _ _ hend d rest hcrlf ih =>
    obtain ⟨rfl, rfl⟩ := hcrlf
    exact classified_terminator h CsvMode.noConfusion .crlf (ih .empty CsvMode.noConfusion)
  | case10 s c _ hend d rest hcrlf ih | case18 s c _ _ hend d rest hcrlf ih =>
    refine classified_line_end h CsvMode.noConfusion hend (fun hc hd ↦ ?_) (ih .empty CsvMode.noConfusion)
    exact hcrlf ⟨hc, Option.some.inj hd⟩
  | case11 s c _ hend ih | case19 s c _ _ hend ih =>
    exact classified_line_end h CsvMode.noConfusion hend (fun _ hd ↦ by cases hd) (ih .empty CsvMode.noConfusion)
  | case12 s c rest hcomma hend htrimmed ih =>
    rw [not_or] at hend
    have hpadding : isPadding c = true := by simp [isPadding, htrimmed, hend]
    have hskip := scanCsv_padding (s := s) rest (List.forall_mem_singleton.2 hpadding)
    rw [List.singleton_append] at hskip
    rw [hskip, List.append_cons]
    refine ih (h.append_padding hpadding) fun _ hlast ↦ ?_
    rw [List.getLast?_concat, Option.some.injEq] at hlast
    exact absurd hlast (isPadding_spec hpadding).2.2.2.2
  | case13 s c rest hcomma hend htrimmed =>
    have hscan : scanCsv .closedQuote s (c :: rest) = .error MALFORMED_QUOTING := by
      rw [scanCsv.eq_def]
      simp only [if_neg hcomma, if_neg hend, if_neg htrimmed]
    rw [hscan]
    generalize s.field = value at h
    cases h with
    | @closedQuote written _ padding h hpadding =>
      have hquote : c = '"' → padding ≠ [] := by
        rintro rfl rfl
        exact hclosed rfl (by rw [← List.cons_append, List.getLast?_concat]) rfl
      have hcell : MisquotedCell ('"' :: (written ++ '"' :: (padding ++ c :: rest))) :=
        .after h hpadding (Bool.not_eq_true _ ▸ htrimmed) hcomma hquote
      rw [List.cons_append, List.append_assoc, List.cons_append]
      exact .inl ⟨rfl, .here hcell⟩
  | case14 s rest hfield =>
    have hscan : scanCsv .plain s ('"' :: rest) = .error MALFORMED_QUOTING := by
      rw [scanCsv.eq_def]
      simp only [if_true, if_pos hfield]
    rw [hscan]
    generalize s.field = value at h hfield
    cases h with
    | plain h => exact .inl ⟨rfl, .here (.inside hfield h)⟩
  | case15 s rest hfield ih =>
    rw [not_not] at hfield
    rw [scanCsv_plain_quote hfield, List.append_cons]
    rw [hfield] at h
    cases h with
    | plain h =>
      have hquoted : CsvStarted .quoted ['"'] s.field := by
        rw [hfield]
        exact .quoted .nil
      exact ih hquoted CsvMode.noConfusion
  | case16 s rest _ ih =>
    rw [scanCsv_plain_comma]
    exact .comma (h.field CsvMode.noConfusion) (ih .empty CsvMode.noConfusion)
  | case20 s c rest hquote hcomma hend ih =>
    rw [not_or] at hend
    have hc : isCsvSpecial c = false := by simp [isCsvSpecial, hquote, hcomma, hend]
    rw [scanCsv_plain_char hc, List.append_cons]
    exact ih (h.append_plain hc) CsvMode.noConfusion

end Classification

/-! ### Parsing is the denotation -/

section Parsing

variable {csv : Text} {records : List (List Text)}

theorem parseCsvRecords_of_file (h : CsvFile csv records) :
    parseCsvRecords csv = .ok (records.filter keptRecord) := by
  obtain ⟨records', hscan, hkept⟩ := h.scan (s := ⟨[], [], []⟩) rfl rfl
  rw [parseCsvRecords, hscan]
  exact congrArg Except.ok hkept

theorem parseCsvRecords_of_misquoted (h : Misquoted csv) :
    parseCsvRecords csv = .error MALFORMED_QUOTING := by
  rw [parseCsvRecords, h.scan rfl]
  rfl

theorem parseCsvRecords_of_unclosed (h : Unclosed csv) :
    parseCsvRecords csv = .error UNCLOSED_QUOTE := by
  rw [parseCsvRecords, h.scan rfl]
  rfl

/-- A text is one of records, or misquoted, or ends inside quotes. -/
theorem csv_classified (csv : Text) :
    (∃ records, CsvFile csv records) ∨ Misquoted csv ∨ Unclosed csv := by
  have h := scanCsv_classified .plain ⟨[], [], []⟩ csv .empty nofun
  rw [List.nil_append] at h
  cases hscan : scanCsv .plain ⟨[], [], []⟩ csv with
  | ok records =>
    rw [hscan] at h
    obtain ⟨record, rest, hfile, -⟩ := h
    exact .inl ⟨_, hfile⟩
  | error e =>
    rw [hscan] at h
    exact .inr (h.imp And.right And.right)

/-- **Parsing** returns what the text denotes, without the records that are blank, and throws when
the text is not in the grammar. -/
theorem parseCsvRecords_grammar (csv : Text) :
    (∀ result, parseCsvRecords csv = .ok result ↔
      ∃ records, CsvFile csv records ∧ result = records.filter keptRecord) ∧
    ((∀ records, ¬ CsvFile csv records) → ∃ message,
      parseCsvRecords csv = .error (.badRequest message)) := by
  have hthrows : Misquoted csv ∨ Unclosed csv → ∃ message,
      parseCsvRecords csv = .error (.badRequest message) := by
    rintro (h | h)
    · exact ⟨_, parseCsvRecords_of_misquoted h⟩
    · exact ⟨_, parseCsvRecords_of_unclosed h⟩
  refine ⟨fun result ↦ ⟨fun hresult ↦ ?_, ?_⟩, fun hnone ↦ ?_⟩
  · rcases csv_classified csv with ⟨records, h⟩ | h
    · rw [parseCsvRecords_of_file h] at hresult
      cases hresult
      exact ⟨records, h, rfl⟩
    · obtain ⟨message, herror⟩ := hthrows h
      rw [hresult] at herror
      cases herror
  · rintro ⟨records, h, rfl⟩
    exact parseCsvRecords_of_file h
  · rcases csv_classified csv with ⟨records, h⟩ | h
    · exact absurd h (hnone records)
    · exact hthrows h

end Parsing

end Stead
