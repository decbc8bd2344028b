import Stead.Import.Coverage
import Stead.Import.Grammar

/-!
# Headers

What an import makes of its header record.

## A byte-order mark

A text is imported as its records are (`importRecords`), and of the first cell only what is left of
it without white space counts, so a byte-order mark before it changes nothing
(`parseTransactionImport_mark`). It changes the records themselves where it stands in front of a
quote: the quote then does not begin the field any more, and the text is misquoted
(`bom_transparent_iff`, `bom_before_quote_is_rejected`). The lemmas named `mark` follow the mark
through the grammar.

## Columns of one name

The check for two columns of one name sees the columns of the rendered text. Those are the user's
when the layout is Stead's own, and the canonical ones otherwise, so that of two columns named
`debit` the first is taken and the other ignored (`ambiguous_rejected_iff`).
-/

namespace Stead

variable {platform : Platform} {csv : Text} {headers : List Text} {records : List (List Text)}
  {adapter : TransactionImportAdapter}

/-! ### Importing records -/

/-- `parseTransactionImport`, after its second pass. -/
def importRecords (platform : Platform) (records : List (List Text)) :
    Except ImportFailure (List ParsedImportRow) :=
  if records = [] then .error CSV_EMPTY
  else if duplicateHeaders (headersOf platform records) ≠ [] then
    .error (.badRequest "CSV contains duplicate column names")
  else
    match findColumns (headersOf platform records) with
    | none => .error MISSING_COLUMNS
    | some columns =>
      if records.tail = [] then .error (.badRequest "CSV has no transaction rows")
      else if records.tail.length > MAX_ROWS then
        .error (.badRequest "CSV cannot contain more than 500 rows")
      else
        .ok (parseRows platform (fun _ ↦ 0) 2 (records.tail.map (readRecord platform columns)))

/-- `parseTransactionImport`, after its first pass. -/
def importParsed (platform : Platform) (records : List (List Text)) :
    Except ImportFailure (List ParsedImportRow) :=
  if records = [] then .error CSV_EMPTY
  else
    match findAdapter platform (headersOf platform records) with
    | none => .error MISSING_COLUMNS
    | some adapter =>
      importRecords platform ((adaptedRecords platform records adapter.id).filter keptRecord)

/-- A text that is not parsed is rejected with the error of the parser. -/
theorem parseTransactionImport_error {e : ImportFailure} (h : parseCsvRecords csv = .error e) :
    parseTransactionImport platform csv = .error e := by
  simp only [parseTransactionImport, toCanonicalImportCsv, h]

/-- **A text is imported** as its records are. -/
theorem parseTransactionImport_eq (h : parseCsvRecords csv = .ok records) :
    parseTransactionImport platform csv = importParsed platform records := by
  unfold parseTransactionImport toCanonicalImportCsv importParsed
  simp only [h]
  split_ifs with hne
  · rfl
  · cases hfind : findAdapter platform (headersOf platform records) with
    | none => rfl
    | some adapter =>
      simp only [parseCsvRecords_adapted h hne hfind]
      rfl

/-- What records are rejected with. -/
def IMPORT_REJECTIONS : List ImportFailure :=
  [CSV_EMPTY, MISSING_COLUMNS, .badRequest "CSV contains duplicate column names",
    .badRequest "CSV has no transaction rows",
    .badRequest "CSV cannot contain more than 500 rows"]

theorem importRecords_error {e : ImportFailure} (h : importRecords platform records = .error e) :
    e ∈ IMPORT_REJECTIONS := by
  unfold importRecords at h
  split at h
  · cases h
    decide
  split at h
  · cases h
    decide
  split at h
  · cases h
    decide
  split at h
  · cases h
    decide
  split at h
  · cases h
    decide
  · cases h

theorem importParsed_error {e : ImportFailure} (h : importParsed platform records = .error e) :
    e ∈ IMPORT_REJECTIONS := by
  unfold importParsed at h
  split at h
  · cases h
    decide
  split at h
  · cases h
    decide
  · exact importRecords_error h

/-! ### A byte-order mark -/

/-- A byte-order mark in front of the first cell. -/
def markFirst : List (List Text) → List (List Text)
  | (value :: record) :: records => (('\uFEFF' :: value) :: record) :: records
  | records => records

/-- A mark is white space for `trim`. -/
theorem trim_stripByteOrderMark (header : Text) : trim (stripByteOrderMark header) = trim header := by
  unfold stripByteOrderMark
  split
  · next hmark =>
    obtain ⟨rest, rfl⟩ := List.head?_eq_some_iff.1 hmark
    rw [List.tail_cons, trim, trim, List.dropWhile_cons_of_pos (by decide)]
  · rfl

/-- Of a header only what is not white space at its ends counts. -/
theorem normalizeHeader_eq (index : ℕ) (header : Text) :
    normalizeHeader platform index header = platform.toLowerCase (trim header) := by
  unfold normalizeHeader
  split
  · rw [trim_stripByteOrderMark]
  · rfl

theorem headersOf_mark : headersOf platform (markFirst records) = headersOf platform records := by
  have hmark : ∀ value : Text, trim ('\uFEFF' :: value) = trim value := fun value ↦ by
    rw [trim, trim, List.dropWhile_cons_of_pos (by decide)]
  unfold markFirst headersOf
  split
  · simp only [List.headD_cons, List.mapIdx_cons, normalizeHeader_eq, hmark]
  · rfl

theorem tail_mark : (markFirst records).tail = records.tail := by
  unfold markFirst
  split <;> rfl

theorem mark_eq_nil : markFirst records = [] ↔ records = [] := by
  unfold markFirst
  split <;> simp

/-- The mark is white space. -/
theorem filter_mark (records : List (List Text)) :
    (markFirst records).filter keptRecord = records.filter keptRecord ∨
      (markFirst records).filter keptRecord = markFirst (records.filter keptRecord) := by
  unfold markFirst
  split
  · next value record records =>
    have hkept : keptRecord (('\uFEFF' :: value) :: record) = keptRecord (value :: record) := rfl
    cases hrecord : keptRecord (value :: record) with
    | true =>
      right
      rw [List.filter_cons_of_pos (hkept.trans hrecord), List.filter_cons_of_pos hrecord]
    | false =>
      left
      rw [List.filter_cons_of_neg (by rw [hkept, hrecord]; exact Bool.false_ne_true),
        List.filter_cons_of_neg (by rw [hrecord]; exact Bool.false_ne_true)]
  · exact .inl rfl

/-- **The import** does not see the mark. -/
theorem importRecords_mark : importRecords platform (markFirst records) =
    importRecords platform records := by
  unfold importRecords
  simp only [mark_eq_nil, headersOf_mark, tail_mark]

theorem importParsed_mark (hkept : ∀ record ∈ records, keptRecord record = true) :
    importParsed platform (markFirst records) = importParsed platform records := by
  unfold importParsed
  simp only [mark_eq_nil, headersOf_mark]
  split_ifs
  · rfl
  · cases hfind : findAdapter platform (headersOf platform records) with
    | none => rfl
    | some adapter =>
      dsimp only
      cases hid : adapter.id with
      | steadCanonical =>
        have hsame : records.filter keptRecord = records := List.filter_eq_self.2 hkept
        rcases filter_mark records with heq | heq
        · rw [adaptedRecords, adaptedRecords, heq]
        · rw [adaptedRecords, adaptedRecords, heq, importRecords_mark]
      | provisionalDebitCredit => rw [adaptedRecords, adaptedRecords, headersOf_mark, tail_mark]

/-! ### The mark in a text -/

section Marked

variable {written value : Text} {record : List Text}

/-- What begins a longer text begins its first part. -/
theorem head?_of_append {rest : Text} {c : Char} (h : (written ++ rest).head? ≠ some c) :
    written.head? ≠ some c := fun hwritten ↦ h (by rw [List.head?_append, hwritten]; rfl)

/-- A mark before a field that does not begin with a quote is part of it. -/
theorem CsvField.mark (h : CsvField written value) (hquote : written.head? ≠ some '"') :
    CsvField ('\uFEFF' :: written) ('\uFEFF' :: value) := by
  cases h with
  | plain h => exact .plain (List.forall_mem_cons.2 ⟨by decide, h⟩)
  | quoted => exact absurd rfl hquote

theorem CsvRecord.mark (h : CsvRecord written record) (hquote : written.head? ≠ some '"') :
    ∃ value rest, record = value :: rest ∧
      CsvRecord ('\uFEFF' :: written) (('\uFEFF' :: value) :: rest) := by
  cases h with
  | last h => exact ⟨_, _, rfl, .last (h.mark hquote)⟩
  | cons h hrest => exact ⟨_, _, rfl, .cons (h.mark (head?_of_append hquote)) hrest⟩

theorem CsvFile.mark (h : CsvFile written records) (hquote : written.head? ≠ some '"') :
    CsvFile ('\uFEFF' :: written) (markFirst records) := by
  cases h with
  | last h =>
    obtain ⟨value, rest, rfl, hmarked⟩ := h.mark hquote
    exact .last hmarked
  | terminated h hend =>
    obtain ⟨value, rest, rfl, hmarked⟩ := h.mark (head?_of_append hquote)
    exact .terminated hmarked hend
  | cons h hend hrest =>
    obtain ⟨value, rest, rfl, hmarked⟩ := h.mark (head?_of_append hquote)
    exact .cons hmarked hend hrest

theorem AfterCells.mark {P : Text → Prop}
    (hP : ∀ text, P text → text.head? ≠ some '"' → P ('\uFEFF' :: text)) (h : AfterCells P written)
    (hquote : written.head? ≠ some '"') : AfterCells P ('\uFEFF' :: written) := by
  cases h with
  | here h => exact .here (hP _ h hquote)
  | cell h hseparator hrest => exact .cell (h.mark (head?_of_append hquote)) hseparator hrest

theorem Misquoted.mark (h : Misquoted csv) (hquote : csv.head? ≠ some '"') :
    Misquoted ('\uFEFF' :: csv) := by
  refine AfterCells.mark (fun text hcell hquote ↦ ?_) h hquote
  cases hcell with
  | inside hne h =>
    rw [← List.cons_append]
    exact .inside (List.cons_ne_nil _ _) (List.forall_mem_cons.2 ⟨by decide, h⟩)
  | after => exact absurd rfl hquote

theorem Unclosed.mark (h : Unclosed csv) (hquote : csv.head? ≠ some '"') :
    Unclosed ('\uFEFF' :: csv) := by
  refine AfterCells.mark (fun text hcell hquote ↦ ?_) h hquote
  obtain ⟨written, value, -, rfl⟩ := hcell
  exact absurd rfl hquote

/-- A quote after the mark is one inside a cell. -/
theorem misquoted_mark (hquote : csv.head? = some '"') : Misquoted ('\uFEFF' :: csv) := by
  obtain ⟨rest, rfl⟩ := List.head?_eq_some_iff.1 hquote
  have hcell : MisquotedCell (['\uFEFF'] ++ '"' :: rest) :=
    .inside (List.cons_ne_nil _ _) (List.forall_mem_singleton.2 (by decide))
  exact .here hcell

/-- **A byte-order mark** in front of a text that does not begin with a quote changes nothing. -/
theorem parseTransactionImport_mark (hquote : csv.head? ≠ some '"') :
    parseTransactionImport platform ('\uFEFF' :: csv) = parseTransactionImport platform csv := by
  rcases csv_classified csv with ⟨records, hfile⟩ | hmisquoted | hunclosed
  · have hparse := parseCsvRecords_of_file hfile
    have hparse' := parseCsvRecords_of_file (hfile.mark hquote)
    rw [parseTransactionImport_eq hparse, parseTransactionImport_eq hparse']
    rcases filter_mark records with hsame | hmarked
    · rw [hsame]
    · rw [hmarked, importParsed_mark fun record hrecord ↦ (List.mem_filter.1 hrecord).2]
  · rw [parseTransactionImport_error (parseCsvRecords_of_misquoted hmisquoted),
      parseTransactionImport_error (parseCsvRecords_of_misquoted (hmisquoted.mark hquote))]
  · rw [parseTransactionImport_error (parseCsvRecords_of_unclosed hunclosed),
      parseTransactionImport_error (parseCsvRecords_of_unclosed (hunclosed.mark hquote))]

/-- **A byte-order mark is transparent** unless it stands before a quote, in a text that is not
misquoted anyway. -/
theorem bom_transparent_iff (platform : Platform) (csv : Text) :
    parseTransactionImport platform ('\uFEFF' :: csv) = parseTransactionImport platform csv ↔
      csv.head? ≠ some '"' ∨ Misquoted csv := by
  by_cases hquote : csv.head? = some '"'
  · have hmark : parseTransactionImport platform ('\uFEFF' :: csv) = .error MALFORMED_QUOTING :=
      parseTransactionImport_error (parseCsvRecords_of_misquoted (misquoted_mark hquote))
    rw [hmark]
    constructor
    · intro hsame
      rcases csv_classified csv with ⟨records, hfile⟩ | hmisquoted | hunclosed
      · rw [parseTransactionImport_eq (parseCsvRecords_of_file hfile)] at hsame
        exact absurd (importParsed_error hsame.symm) (by decide)
      · exact .inr hmisquoted
      · rw [parseTransactionImport_error (parseCsvRecords_of_unclosed hunclosed)] at hsame
        exact absurd (Except.error.inj hsame) (by decide)
    · rintro (hnot | hmisquoted)
      · exact absurd hquote hnot
      · rw [parseTransactionImport_error (parseCsvRecords_of_misquoted hmisquoted)]
  · exact iff_of_true (parseTransactionImport_mark hquote) (.inl hquote)

end Marked

namespace Demo

/-- A statement whose first header is quoted. -/
def quotedHeader : Text := "\"date\",description,amount,type\n2026-09-01,Salary,100,income".toList

end Demo

open Demo in
/-- With the mark, a quoted first header is misquoted. -/
theorem bom_before_quote_is_rejected : ¬ ∀ (platform : Platform) (csv : Text),
    csv.head? ≠ some '\uFEFF' →
      parseTransactionImport platform ('\uFEFF' :: csv) = parseTransactionImport platform csv := by
  intro h
  have hchecked : quotedHeader.head? ≠ some '\uFEFF' ∧
      (parseTransactionImport asciiPlatform quotedHeader).isOk = true ∧
      (parseTransactionImport asciiPlatform ('\uFEFF' :: quotedHeader)).isOk = false := by
    decide +kernel
  obtain ⟨hunmarked, haccepted, hrejected⟩ := hchecked
  rw [h asciiPlatform quotedHeader hunmarked, haccepted] at hrejected
  cases hrejected

/-! ### Two columns of one name -/

/-- Two columns have the same name, which is not blank. -/
def SameName (headers : List Text) : Prop :=
  ∃ (i j : ℕ) (name : Text), i < j ∧ headers[i]? = some name ∧ headers[j]? = some name ∧ name ≠ []

/-- The place that is found is the first. -/
theorem idxOf_le_of_getElem? {name : Text} {j : ℕ} (h : headers[j]? = some name) :
    headers.idxOf name ≤ j := by
  induction headers generalizing j with
  | nil => cases h
  | cons header headers ih =>
    rw [List.idxOf_cons, cond_eq_ite]
    split
    · exact Nat.zero_le _
    · next hne =>
      cases j with
      | zero =>
        cases h
        exact absurd (BEq.refl name) hne
      | succ j => exact Nat.succ_le_succ (ih h)

/-- What the check for duplicates finds. -/
theorem duplicateHeaders_ne_nil : duplicateHeaders headers ≠ [] ↔ SameName headers := by
  unfold duplicateHeaders
  rw [ne_eq, List.map_eq_nil_iff, List.filter_eq_nil_iff]
  simp only [decide_eq_true_eq, not_forall, not_not]
  constructor
  · rintro ⟨⟨name, j⟩, hmem, hne, hfirst⟩
    have hj : headers[j]? = some name := List.mem_zipIdx_iff_getElem?.1 hmem
    have hlt : headers.idxOf name < headers.length :=
      List.idxOf_lt_length_of_mem (List.mem_of_getElem? hj)
    have hfound : headers[headers.idxOf name]? = some name := by
      rw [List.getElem?_eq_getElem hlt, List.getElem_idxOf hlt]
    exact ⟨_, j, name, lt_of_le_of_ne (idxOf_le_of_getElem? hj) hfirst, hfound, hj, hne⟩
  · rintro ⟨i, j, name, hij, hi, hj, hne⟩
    exact ⟨(name, j), List.mem_zipIdx_iff_getElem?.2 hj, hne,
      ((idxOf_le_of_getElem? hi).trans_lt hij).ne⟩

/-- The records that the adapter for debits and credits does not leave blank. -/
def visibleRecords (platform : Platform) (csv : Text) : List (List Text) :=
  (dataRecords csv).filter fun record ↦ StaysVisible (csvHeaders platform csv) record

/-- Two columns of one name are rejected where they are seen. -/
theorem importRecords_duplicate (hne : records ≠ []) (h : SameName (headersOf platform records)) :
    importRecords platform records = .error (.badRequest "CSV contains duplicate column names") := by
  rw [importRecords, if_neg hne, if_pos (duplicateHeaders_ne_nil.2 h)]

/-- Records under the columns of Stead are imported up to their number. -/
theorem importRecords_canonical (platform : Platform) (records : List (List Text)) :
    importRecords platform (CANONICAL_HEADERS :: records) =
      if records = [] then .error (.badRequest "CSV has no transaction rows")
      else if records.length > MAX_ROWS then
        .error (.badRequest "CSV cannot contain more than 500 rows")
      else .ok (parseRows platform (fun _ ↦ 0) 2
        (records.map (readRecord platform ⟨0, 1, 2, 3⟩))) := by
  have hdistinct := CANONICAL_HEADERS_read.2.2.2.1
  rw [importRecords, if_neg (List.cons_ne_nil _ _), headersOf_canonical, if_neg (not_not.2 hdistinct),
    findColumns_canonical]
  rfl

/-- Of the records of debits and credits, those that stay visible are imported. -/
theorem importParsed_provisional (hne : records ≠ [])
    (hmatch : (provisionalDebitCreditAdapter platform).matchesHeaders
      (headersOf platform records) = true) :
    importParsed platform records = importRecords platform (CANONICAL_HEADERS ::
      (records.tail.filter fun record ↦ StaysVisible (headersOf platform records) record).map
        (adaptRecord (headersOf platform records))) := by
  have hcanonical : steadCanonicalAdapter.matchesHeaders (headersOf platform records) = false := by
    simp only [provisionalDebitCreditAdapter, Bool.and_eq_true] at hmatch
    exact Bool.not_eq_true' _ ▸ hmatch.1.1.1.1
  have hfind : findAdapter platform (headersOf platform records) =
      some (provisionalDebitCreditAdapter platform) := by
    rw [findAdapter, transactionImportAdapters,
      List.find?_cons_of_neg (by rw [hcanonical]; exact Bool.false_ne_true),
      List.find?_cons_of_pos (by exact hmatch)]
  rw [importParsed, if_neg hne, hfind]
  dsimp only
  have hvisible : (keptRecord ∘ adaptRecord (headersOf platform records)) =
      fun record ↦ decide (StaysVisible (headersOf platform records) record) := by
    funext record
    rw [Bool.eq_iff_iff, decide_eq_true_iff]
    exact keptRecord_adaptRecord_iff _ record
  have hkept : (adaptedRecords platform records .provisionalDebitCredit).filter keptRecord =
      CANONICAL_HEADERS :: (records.tail.filter fun record ↦
        StaysVisible (headersOf platform records) record).map
          (adaptRecord (headersOf platform records)) := by
    rw [adaptedRecords, List.filter_cons_of_pos keptRecord_canonical, List.filter_map, hvisible]
  exact congrArg (importRecords platform) hkept

/-- **Ambiguous headers** are rejected exactly when there are none, or the layout is not the one of
debits and credits, or that has no records or too many. -/
theorem ambiguous_rejected_iff (platform : Platform) (csv : Text) :
    (SameName (csvHeaders platform csv) → ∃ e, parseTransactionImport platform csv = .error e) ↔
      ¬ SameName (csvHeaders platform csv) ∨
        (provisionalDebitCreditAdapter platform).matchesHeaders (csvHeaders platform csv) = false ∨
        visibleRecords platform csv = [] ∨ MAX_ROWS < (visibleRecords platform csv).length := by
  -- A text that is no table has no header, so no name occurs twice.
  cases hparse : parseCsvRecords csv with
  | error e =>
    refine iff_of_true (fun _ ↦ ⟨e, parseTransactionImport_error hparse⟩) (.inl ?_)
    rintro ⟨i, -, name, -, hi, -⟩
    rw [csvHeaders, hparse] at hi
    cases hi
  | ok records =>
    have hheaders : csvHeaders platform csv = headersOf platform records := by
      rw [csvHeaders, hparse]
    have hvisible : visibleRecords platform csv = records.tail.filter fun record ↦
        StaysVisible (headersOf platform records) record := by
      rw [visibleRecords, dataRecords, hparse, hheaders]
    rw [hheaders, hvisible, parseTransactionImport_eq hparse]
    by_cases hsame : SameName (headersOf platform records)
    · have hne : records ≠ [] := by
        rintro rfl
        obtain ⟨i, -, name, -, hi, -⟩ := hsame
        cases hi
      cases hmatch : (provisionalDebitCreditAdapter platform).matchesHeaders
          (headersOf platform records) with
      -- The adapter reads the columns by its own names, and its header replaces the file's.
      | true =>
        rw [importParsed_provisional hne hmatch, importRecords_canonical, List.length_map]
        by_cases hnone : (records.tail.filter fun record ↦
            StaysVisible (headersOf platform records) record) = []
        · rw [if_pos (List.map_eq_nil_iff.2 hnone)]
          exact iff_of_true (fun _ ↦ ⟨_, rfl⟩) (.inr (.inr (.inl hnone)))
        rw [if_neg fun h ↦ hnone (List.map_eq_nil_iff.1 h)]
        by_cases hmany : MAX_ROWS < (records.tail.filter fun record ↦
            StaysVisible (headersOf platform records) record).length
        · rw [if_pos hmany]
          exact iff_of_true (fun _ ↦ ⟨_, rfl⟩) (.inr (.inr (.inr hmany)))
        · rw [if_neg hmany]
          refine iff_of_false (fun h ↦ ?_) ?_
          · obtain ⟨e, he⟩ := h hsame
            cases he
          · rintro (hnot | hnot | hnot | hnot)
            · exact hnot hsame
            · cases hnot
            · exact hnone hnot
            · exact hmany hnot
      | false =>
        -- Any other file is read under its own header, where the repeated name is found.
        refine iff_of_true (fun _ ↦ ?_) (.inr (.inl rfl))
        rw [importParsed, if_neg hne]
        cases hfind : findAdapter platform (headersOf platform records) with
        | none => exact ⟨_, rfl⟩
        | some adapter =>
          rcases mem_adapters_of_find hfind with rfl | rfl
          · have hkept : (adaptedRecords platform records steadCanonicalAdapter.id).filter keptRecord =
                records := List.filter_eq_self.2 (mem_parseCsvRecords hparse)
            dsimp only
            rw [hkept, importRecords_duplicate hne hsame]
            exact ⟨_, rfl⟩
          · exact absurd (List.find?_some hfind) (by rw [hmatch]; exact Bool.false_ne_true)
    · exact iff_of_true (fun h ↦ absurd h hsame) (.inl hsame)

namespace Demo

/-- A statement with two columns of debits. -/
def twoDebits : Text := "date,narration,debit,Debit,credit\n2026-09-01,Rent,50,100,".toList

end Demo

open Demo in
/-- The second debit is ignored. -/
theorem two_debits_are_accepted : ¬ ∀ (platform : Platform) (csv : Text),
    SameName (csvHeaders platform csv) → ∃ e, parseTransactionImport platform csv = .error e := by
  intro h
  have hchecked : (csvHeaders asciiPlatform twoDebits)[2]? = some "debit".toList ∧
      (csvHeaders asciiPlatform twoDebits)[3]? = some "debit".toList ∧
      (parseTransactionImport asciiPlatform twoDebits).isOk = true := by
    decide +kernel
  obtain ⟨hsecond, hthird, haccepted⟩ := hchecked
  obtain ⟨e, he⟩ := h asciiPlatform twoDebits
    ⟨2, 3, "debit".toList, by decide, hsecond, hthird, by decide⟩
  rw [he] at haccepted
  cases haccepted

end Stead
