import Stead.Import.Provisional

/-!
# Cells beyond the header

A record may have more cells than the header. Both layouts read the cells of their columns and
nothing else, so what stands beyond the width of the header is dropped: a record is imported as if
it ended there (`sourceCells_take`). It is turned down only if it happens to say no transaction
within the columns of the header (`no_cell_dropped_iff`), and an amount in the last column that a
comma splits does say one (`salary_is_cut`).

## When a record says a transaction

That is a statement about the texts in its cells, without the functions that read them
(`SaysTransaction`). A date of the calendar is written in the date cell, in Stead's own columns in
the first form only; the type is one of six words, or exactly one of debit and credit is filled; the
amount is one within its bounds; and the note has words, but not too many of them. The functions of
the parser find something in all four cells exactly then (`unreadable_iff`).

## From records to rows

A row comes from a record that is imported, and rows are numbered in the order of these records
(`rows_eq_parseRows`). A record that the adapter leaves blank has no row; its date cell is blank, so
it says no transaction either (`unreadable_of_blank`).
-/

namespace Stead

variable {platform : Platform} {csv : Text} {headers record : List Text}
  {rows : List ParsedImportRow}

/-- The record has a cell that is not blank beyond the width. -/
def overflows (width : ℕ) (record : List Text) : Bool := (record.drop width).any nonblank

/-- The data records that have rows: all of them in the columns of Stead, and those that stay
visible when they are adapted in the other layout. -/
def importedRecords (platform : Platform) (csv : Text) : List (List Text) :=
  (dataRecords csv).filter fun record ↦
    steadCanonicalAdapter.matchesHeaders (csvHeaders platform csv) ||
      decide (StaysVisible (csvHeaders platform csv) record)

/-- No row without an error comes from a record with a cell beyond the header. -/
def NoCellDropped (platform : Platform) (csv : Text) (rows : List ParsedImportRow) : Prop :=
  ∀ (k : ℕ) (row : ParsedImportRow) (record : List Text), rows[k]? = some row →
    (importedRecords platform csv)[k]? = some record → row.error = none →
      overflows (csvHeaders platform csv).length record = false

/-- What is read in the cells makes no transaction. -/
def ImportCells.Unreadable (cells : ImportCells) : Prop :=
  cells.occurredAt = none ∨ cells.direction = none ∨ cells.amountKobo = none ∨ cells.note = [] ∨
    280 < utf16Length cells.note

theorem ImportCells.error_row {cells : ImportCells} {rowNumber : ℕ} {fingerprint : Option ℕ} :
    (cells.row rowNumber fingerprint).error = none ↔ ¬ cells.Unreadable := by
  have herrors : cells.errors = [] ↔ ¬ cells.Unreadable := by
    simp only [errors, Unreadable, List.append_eq_nil_iff, ite_eq_right_iff, not_or, List.cons_ne_nil,
      imp_false, and_assoc]
  rw [← herrors]
  show (if cells.errors = [] then none else some ("; ".intercalate cells.errors)) = none ↔ _
  split
  · next h => exact iff_of_true rfl h
  · next h => exact iff_of_false (Option.some_ne_none _) h

/-! ### Records that say a transaction -/

/-- The amount of a transaction is written in the cell. -/
def SaysAmount (cell : Text) : Prop :=
  ∃ amountKobo, DenotesAmount cell amountKobo ∧ 0 < amountKobo ∧ amountKobo ≤ MAX_SAFE_INTEGER

/-- The note of a transaction is written in the cell. -/
def SaysNote (cell : Text) : Prop := normalizeNote cell ≠ [] ∧ utf16Length (normalizeNote cell) ≤ 280

/-- The words for a direction. -/
def DIRECTION_WORDS : List Text :=
  ["income".toList, "in".toList, "credit".toList, "expense".toList, "out".toList, "debit".toList]

/-- A record says a transaction in Stead's own columns. -/
structure SaysCanonical (platform : Platform) (columns : ImportColumns) (record : List Text) :
    Prop where
  date : ∃ date : CalendarDate, trim (cellAt record columns.date) = date.iso
  type : platform.toLowerCase (trim (cellAt record columns.type)) ∈ DIRECTION_WORDS
  amount : SaysAmount (cellAt record columns.amount)
  note : SaysNote (cellAt record columns.description)

/-- A record says a transaction in the columns of debit and credit. -/
structure SaysProvisional (headers record : List Text) : Prop where
  date : ∃ date, DenotesDate (cellAt record (findHeaderIndex headers DATE_ALIASES)) date
  amount :
    (Filled (cellAt record (headers.idxOf? DEBIT)) ∧
      ¬ Filled (cellAt record (headers.idxOf? CREDIT)) ∧
      SaysAmount (cellAt record (headers.idxOf? DEBIT))) ∨
    (Filled (cellAt record (headers.idxOf? CREDIT)) ∧
      ¬ Filled (cellAt record (headers.idxOf? DEBIT)) ∧
      SaysAmount (cellAt record (headers.idxOf? CREDIT)))
  note : SaysNote (cellAt record (findHeaderIndex headers DESCRIPTION_ALIASES))

/-- **A record says a transaction** in the layout with these headers. -/
def SaysTransaction (platform : Platform) (headers record : List Text) : Prop :=
  if steadCanonicalAdapter.matchesHeaders headers then
    ∃ columns ∈ findColumns headers, SaysCanonical platform columns record
  else SaysProvisional headers record

/-- A date is read in Stead's own columns if it is written in the first form. -/
theorem exists_parseDate_iff {value : Text} :
    parseDate value ≠ none ↔ ∃ date : CalendarDate, trim value = date.iso := by
  constructor
  · intro h
    unfold parseDate at h
    split at h
    · exact absurd rfl h
    · next year month day hparts =>
      split at h
      · next hvalid =>
        obtain ⟨htrim, hyear, hmonth, hday⟩ := isoParts_eq_some.1 hparts
        have hlt : digitsValue year < 10000 := (digitsValue_lt (digits_iff.1 hyear).1).trans_le
          (Nat.pow_le_pow_right (by decide) (digits_iff.1 hyear).2.2)
        have hform : DateForm (year ++ '-' :: month ++ '-' :: day) year month day :=
          .iso hyear hmonth hday
        refine ⟨⟨digitsValue year, digitsValue month, digitsValue day, hlt,
          ⟨hvalid.1, hvalid.2.1⟩, hvalid.2.2⟩, ?_⟩
        rw [htrim, ← hform.iso_eq rfl rfl rfl, padTwo_of_two hmonth, padTwo_of_two hday]
      · exact absurd rfl h
  · rintro ⟨date, htrim⟩
    have hmonth : date.month < 10 ^ 2 := date.month_mem.2.trans_lt (by decide)
    have hday : date.day < 10 ^ 2 := by
      refine (date.day_mem.2.trans ?_).trans_lt (by decide : 31 < 10 ^ 2)
      unfold daysInMonth
      split_ifs <;> decide
    have hparts : isoParts (trim value) =
        some (fixedDigits 4 date.year, fixedDigits 2 date.month, fixedDigits 2 date.day) :=
      isoParts_eq_some.2 ⟨htrim, digits_fixedDigits 4 _, digits_fixedDigits 2 _,
        digits_fixedDigits 2 _⟩
    have hyear : digitsValue (fixedDigits 4 date.year) = date.year :=
      digitsValue_fixedDigits date.year_lt
    rw [parseDate, hparts]
    dsimp only
    rw [hyear, digitsValue_fixedDigits hmonth, digitsValue_fixedDigits hday,
      if_pos ⟨date.month_mem.1, date.month_mem.2, date.day_mem⟩]
    exact Option.some_ne_none _

/-- A direction is read if it is one of the words. -/
theorem exists_parseDirection_iff {value : Text} : parseDirection platform value ≠ none ↔
    platform.toLowerCase (trim value) ∈ DIRECTION_WORDS := by
  have hwords : DIRECTION_WORDS = ["income".toList, "in".toList, "credit".toList] ++
      ["expense".toList, "out".toList, "debit".toList] := rfl
  rw [hwords, List.mem_append, parseDirection]
  generalize platform.toLowerCase (trim value) = normalized
  show (if normalized ∈ ["income".toList, "in".toList, "credit".toList] then some Direction.in
    else if normalized ∈ ["expense".toList, "out".toList, "debit".toList] then some Direction.out
    else none) ≠ none ↔ _
  split_ifs with hin hout
  · exact iff_of_true (Option.some_ne_none _) (.inl hin)
  · exact iff_of_true (Option.some_ne_none _) (.inr hout)
  · exact iff_of_false (fun h ↦ h rfl) fun h ↦ h.elim hin hout

/-- An amount is read if it is written in the cell. -/
theorem exists_parseAmountKobo_iff {value : Text} :
    parseAmountKobo value ≠ none ↔ SaysAmount value := by
  rw [Option.ne_none_iff_exists']
  exact exists_congr fun _ ↦ parseAmountKobo_iff

/-- A date is read in the other layout if one is written in the cell, in any of its forms. -/
theorem exists_toIsoDate_iff {value : Text} :
    parseDate (toIsoDate value) ≠ none ↔ ∃ date, DenotesDate value date := by
  rw [Option.ne_none_iff_exists']
  constructor
  · rintro ⟨_, h⟩
    obtain ⟨date, hdate, -⟩ := parseDate_toIsoDate.1 h
    exact ⟨date, hdate⟩
  · rintro ⟨date, hdate⟩
    exact ⟨_, parseDate_toIsoDate.2 ⟨date, hdate, rfl⟩⟩

/-- The amount and the direction are read if exactly one of debit and credit is filled, with an
amount. -/
theorem adaptAmount_read_iff (platform : Platform) (debit credit : Text) :
    (parseDirection platform (adaptAmount debit credit).2 ≠ none ∧
      parseAmountKobo (adaptAmount debit credit).1 ≠ none) ↔
    (Filled debit ∧ ¬ Filled credit ∧ SaysAmount debit) ∨
      (Filled credit ∧ ¬ Filled debit ∧ SaysAmount credit) := by
  have hnothing : parseAmountKobo [] = none := by decide
  rw [← amountPresent_iff, ← amountPresent_iff, adaptAmount]
  cases hdebit : amountPresent debit <;> cases hcredit : amountPresent credit <;>
    simp [hnothing, parseDirection_debit, parseDirection_credit, parseAmountKobo_trim,
      ← exists_parseAmountKobo_iff]

/-- **A record is unreadable** exactly if it says no transaction. -/
theorem unreadable_iff {cells : ImportCells}
    (hcells : sourceCells platform headers record = some cells) :
    cells.Unreadable ↔ ¬ SaysTransaction platform headers record := by
  have hreads : ¬ cells.Unreadable ↔ cells.occurredAt ≠ none ∧ cells.direction ≠ none ∧
      cells.amountKobo ≠ none ∧ cells.note ≠ [] ∧ utf16Length cells.note ≤ 280 := by
    rw [ImportCells.Unreadable]
    simp only [not_or, not_lt, ne_eq]
  rw [← not_iff_not, not_not, hreads, SaysTransaction]
  unfold sourceCells at hcells
  split at hcells
  -- The file has the columns of the canonical layout.
  · next hmatch =>
    obtain ⟨columns, hcolumns, rfl⟩ := Option.map_eq_some_iff.1 hcells
    rw [if_pos hmatch, hcolumns]
    simp only [readRecord, exists_parseDate_iff, exists_parseDirection_iff,
      exists_parseAmountKobo_iff, collapseSpaces_trim]
    constructor
    · rintro ⟨hdate, htype, hamount, hnote⟩
      exact ⟨columns, rfl, hdate, htype, hamount, hnote⟩
    · rintro ⟨_, ⟨⟩, hdate, htype, hamount, hnote⟩
      exact ⟨hdate, htype, hamount, hnote⟩
  · next hmatch =>
    -- The cells are those of the statement's own columns, adapted.
    cases hcells
    rw [if_neg hmatch]
    have hcells : readRecord platform ⟨0, 1, 2, 3⟩ (adaptRecord headers record) =
        ⟨parseDate (toIsoDate (cellAt record (findHeaderIndex headers DATE_ALIASES))),
          parseDirection platform (adaptAmount (cellAt record (headers.idxOf? DEBIT))
            (cellAt record (headers.idxOf? CREDIT))).2,
          parseAmountKobo (adaptAmount (cellAt record (headers.idxOf? DEBIT))
            (cellAt record (headers.idxOf? CREDIT))).1,
          normalizeNote (cellAt record (findHeaderIndex headers DESCRIPTION_ALIASES))⟩ := by
      rw [readRecord, ← collapseSpaces_trim]
      rfl
    have hamount := adaptAmount_read_iff platform
      (cellAt record (headers.idxOf? DEBIT)) (cellAt record (headers.idxOf? CREDIT))
    rw [hcells]
    dsimp only
    rw [exists_toIsoDate_iff]
    constructor
    · rintro ⟨hdate, hdirection, hkobo, hnote⟩
      exact ⟨hdate, hamount.1 ⟨hdirection, hkobo⟩, hnote⟩
    · rintro ⟨hdate, hsays, hnote⟩
      obtain ⟨hdirection, hkobo⟩ := hamount.2 hsays
      exact ⟨hdate, hdirection, hkobo, hnote⟩

/-! ### What is read of a record -/

theorem cellAt_take {width : ℕ} {index : Option ℕ} (h : ∀ i ∈ index, i < width) :
    cellAt (record.take width) index = cellAt record index := by
  cases index with
  | none => rfl
  | some i =>
    rw [cellAt, cellAt, Option.bind_some, Option.bind_some, List.getElem?_take_of_lt (h i rfl)]

theorem idxOf?_lt {name : Text} {i : ℕ} (h : headers.idxOf? name = some i) : i < headers.length :=
  (List.idxOf?_eq_some_iff.1 h).1

theorem findHeaderIndex_lt {aliases : List Text} {i : ℕ}
    (h : findHeaderIndex headers aliases = some i) : i < headers.length := by
  obtain ⟨name, -, hname⟩ := List.exists_of_findSome?_eq_some h
  exact idxOf?_lt hname

theorem findColumns_lt {columns : ImportColumns} (h : findColumns headers = some columns) :
    columns.date < headers.length ∧ columns.description < headers.length ∧
      columns.amount < headers.length ∧ columns.type < headers.length := by
  unfold findColumns at h
  split at h
  · next hdate hdescription hamount htype =>
    cases h
    exact ⟨idxOf?_lt hdate, idxOf?_lt hdescription, idxOf?_lt hamount, idxOf?_lt htype⟩
  · cases h

/-- **A record is read as if it ended where the header does.** -/
theorem sourceCells_take : sourceCells platform headers (record.take headers.length) =
    sourceCells platform headers record := by
  unfold sourceCells
  split
  · cases hcolumns : findColumns headers with
    | none => rfl
    | some columns =>
      obtain ⟨hdate, hdescription, hamount, htype⟩ := findColumns_lt hcolumns
      have hcell : ∀ i : ℕ, i < headers.length →
          cellAt (record.take headers.length) i = cellAt record i :=
        fun i hi ↦ cellAt_take fun j hj ↦ Option.mem_some_iff.1 hj ▸ hi
      rw [Option.map_some, Option.map_some, readRecord, readRecord, hcell _ hdate,
        hcell _ hdescription, hcell _ hamount, hcell _ htype]
  · have hadapt : adaptRecord headers (record.take headers.length) = adaptRecord headers record := by
      rw [adaptRecord, adaptRecord, cellAt_take fun i (hi : i ∈ headers.idxOf? DEBIT) ↦ idxOf?_lt hi,
        cellAt_take fun i (hi : i ∈ headers.idxOf? CREDIT) ↦ idxOf?_lt hi,
        cellAt_take fun i (hi : i ∈ findHeaderIndex headers DATE_ALIASES) ↦ findHeaderIndex_lt hi,
        cellAt_take fun i (hi : i ∈ findHeaderIndex headers DESCRIPTION_ALIASES) ↦ findHeaderIndex_lt hi]
    rw [hadapt]

/-- **The rows** are those of the imported records, in order. -/
theorem rows_eq_parseRows (h : parseTransactionImport platform csv = .ok rows) :
    ∃ read : List Text → ImportCells,
      (∀ record, sourceCells platform (csvHeaders platform csv) record = some (read record)) ∧
        rows = parseRows platform (fun _ ↦ 0) 2 ((importedRecords platform csv).map read) := by
  obtain ⟨records, adapter, columns, hparse, hfind, hcolumns, rfl⟩ := parseTransactionImport_ok h
  have hheaders : csvHeaders platform csv = headersOf platform records := by
    rw [csvHeaders, hparse]
  have hdata : dataRecords csv = records.tail := by rw [dataRecords, hparse]
  have hadapter := findAdapter_eq_some hfind
  unfold importedRecords
  rw [hheaders, hdata]
  cases hmatch : steadCanonicalAdapter.matchesHeaders (headersOf platform records) with
  | true =>
    rw [hmatch, if_pos rfl] at hadapter
    have hkept : (adaptedRecords platform records adapter.id).filter keptRecord = records := by
      rw [hadapter]
      exact List.filter_eq_self.2 (mem_parseCsvRecords hparse)
    rw [hkept] at hcolumns ⊢
    refine ⟨readRecord platform columns, fun record ↦ ?_, ?_⟩
    · rw [sourceCells, if_pos hmatch, hcolumns]
      rfl
    · rw [List.filter_eq_self.2 fun _ _ ↦ Bool.true_or _]
  | false =>
    rw [hmatch, if_neg Bool.false_ne_true] at hadapter
    have hkept : (adaptedRecords platform records adapter.id).filter keptRecord =
        CANONICAL_HEADERS ::
          (records.tail.map (adaptRecord (headersOf platform records))).filter keptRecord := by
      rw [hadapter]
      exact List.filter_cons_of_pos keptRecord_canonical
    rw [hkept, headersOf_canonical, findColumns_canonical, Option.some.injEq] at hcolumns
    refine ⟨fun record ↦ readRecord platform ⟨0, 1, 2, 3⟩
      (adaptRecord (headersOf platform records) record), fun record ↦ ?_, ?_⟩
    · rw [sourceCells, hmatch, if_neg Bool.false_ne_true]
    · have hvisible : (keptRecord ∘ adaptRecord (headersOf platform records)) =
          fun record ↦ false || decide (StaysVisible (headersOf platform records) record) := by
        funext record
        rw [Bool.false_or, Bool.eq_iff_iff, decide_eq_true_iff]
        exact keptRecord_adaptRecord_iff _ record
      rw [hkept, List.tail_cons, ← hcolumns, List.filter_map, List.map_map, hvisible]
      rfl

/-! ### When no cell is dropped -/

/-- A record that is left blank by the adapter has no readable date. -/
theorem unreadable_of_blank {cells : ImportCells}
    (hmatch : steadCanonicalAdapter.matchesHeaders headers = false)
    (hcells : sourceCells platform headers record = some cells)
    (hvisible : ¬ StaysVisible headers record) : cells.Unreadable := by
  rw [sourceCells, hmatch, if_neg Bool.false_ne_true] at hcells
  cases hcells
  have hdate : nonblank (cellAt record (findHeaderIndex headers DATE_ALIASES)) = false := by
    rw [← Bool.not_eq_true]
    exact fun hdate ↦ hvisible (.inl hdate)
  have hblank : trim (toIsoDate (cellAt record (findHeaderIndex headers DATE_ALIASES))) = [] :=
    trim_eq_nil (by rw [nonblank_toIsoDate, hdate])
  refine .inl ?_
  show parseDate (toIsoDate (cellAt record (findHeaderIndex headers DATE_ALIASES))) = none
  rw [parseDate, hblank]
  rfl

/-- No cell is dropped exactly when nothing can be read in a data record with a cell beyond the
header. -/
theorem no_cell_dropped_iff_unreadable (h : parseTransactionImport platform csv = .ok rows) :
    NoCellDropped platform csv rows ↔ ∀ record ∈ dataRecords csv,
      overflows (csvHeaders platform csv).length record = true →
        ∀ cells, sourceCells platform (csvHeaders platform csv)
          (record.take (csvHeaders platform csv).length) = some cells → cells.Unreadable := by
  obtain ⟨read, hread, rfl⟩ := rows_eq_parseRows h
  have hrow : ∀ {k record}, (importedRecords platform csv)[k]? = some record →
      ∃ fingerprint, (parseRows platform (fun _ ↦ 0) 2
        ((importedRecords platform csv).map read))[k]? =
          some ((read record).row (2 + k) fingerprint) := by
    intro k record hrecord
    have hcells : ((importedRecords platform csv).map read)[k]? = some (read record) := by
      rw [List.getElem?_map, hrecord]
      rfl
    obtain ⟨fingerprint, hrow, -⟩ := getElem?_parseRows platform (fun _ ↦ 0) 2 k _ hcells
    exact ⟨fingerprint, hrow⟩
  constructor
  · intro hnone record hrecord hoverflows cells hcells
    rw [sourceCells_take] at hcells
    by_cases himported : record ∈ importedRecords platform csv
    · obtain ⟨k, hk⟩ := List.mem_iff_getElem?.1 himported
      obtain ⟨fingerprint, hrow⟩ := hrow hk
      cases (hread record).symm.trans hcells
      by_contra hreadable
      have := hnone k _ record hrow hk (ImportCells.error_row.2 hreadable)
      rw [hoverflows] at this
      cases this
    · rw [importedRecords, List.mem_filter, Bool.or_eq_true, decide_eq_true_iff] at himported
      simp only [hrecord, true_and, not_or, Bool.not_eq_true] at himported
      exact unreadable_of_blank himported.1 hcells himported.2
  · intro hunreadable k row record hk hrecord herror
    obtain ⟨fingerprint, hrow⟩ := hrow hrecord
    cases hk.symm.trans hrow
    rw [ImportCells.error_row] at herror
    rw [← Bool.not_eq_true]
    intro hoverflows
    have hmem : record ∈ dataRecords csv :=
      (List.mem_filter.1 (List.mem_of_getElem? hrecord)).1
    exact herror (hunreadable record hmem hoverflows _ (sourceCells_take.trans (hread record)))

/-- **No cell is dropped** exactly when every data record with a cell beyond the header says no
transaction as it stands within the columns of the header. -/
theorem no_cell_dropped_iff (h : parseTransactionImport platform csv = .ok rows) :
    NoCellDropped platform csv rows ↔ ∀ record ∈ dataRecords csv,
      overflows (csvHeaders platform csv).length record = true →
        ¬ SaysTransaction platform (csvHeaders platform csv)
          (record.take (csvHeaders platform csv).length) := by
  obtain ⟨read, hread, -⟩ := rows_eq_parseRows h
  rw [no_cell_dropped_iff_unreadable h]
  refine forall_congr' fun record ↦ forall_congr' fun _ ↦ forall_congr' fun _ ↦ ?_
  have hcells := sourceCells_take.trans (hread record)
  rw [← unreadable_iff hcells]
  refine ⟨fun hall ↦ hall _ hcells, fun hunreadable cells hcells' ↦ ?_⟩
  cases hcells.symm.trans hcells'
  exact hunreadable

namespace Demo

/-- An income of 1,250.50 naira, with the amount in the last column and no quotes around it. -/
def unquotedSalary : Text := "date,description,type,amount\n2026-09-01,Salary,income,1,250.50".toList

/-- The same in the middle of the columns. -/
def shiftedSalary : Text := "date,description,amount,type\n2026-09-01,Salary,1,250.50,income".toList

end Demo

open Demo

/-- Both statements are accepted. -/
theorem salaries_parse :
    (parseTransactionImport asciiPlatform shiftedSalary).isOk = true ∧
    dataRecords shiftedSalary = [["2026-09-01".toList, "Salary".toList, "1".toList,
      "250.50".toList, "income".toList]] ∧
    (sourceCells asciiPlatform (csvHeaders asciiPlatform shiftedSalary)
      (["2026-09-01".toList, "Salary".toList, "1".toList, "250.50".toList, "income".toList].take
        (csvHeaders asciiPlatform shiftedSalary).length)).map ImportCells.direction =
          some none ∧
    (parseTransactionImport asciiPlatform unquotedSalary).isOk = true ∧
    ((parseTransactionImport asciiPlatform unquotedSalary).toOption.bind fun rows ↦
      rows[0]?.map fun row ↦ (row.amountKobo, row.error)) = some (some 100, none) ∧
    (importedRecords asciiPlatform unquotedSalary)[0]? =
      some ["2026-09-01".toList, "Salary".toList, "income".toList, "1".toList,
        "250.50".toList] ∧
    overflows (csvHeaders asciiPlatform unquotedSalary).length
      ["2026-09-01".toList, "Salary".toList, "income".toList, "1".toList, "250.50".toList] =
        true := by
  decide +kernel

theorem no_cell_dropped_shifted : ∃ rows,
    parseTransactionImport asciiPlatform shiftedSalary = .ok rows ∧
      NoCellDropped asciiPlatform shiftedSalary rows := by
  obtain ⟨haccepted, hdata, hdirection, -⟩ := salaries_parse
  obtain ⟨rows, hparse⟩ := exists_of_isOk haccepted
  obtain ⟨read, hread, -⟩ := rows_eq_parseRows hparse
  refine ⟨rows, hparse, (no_cell_dropped_iff hparse).2 fun record hrecord _ ↦ ?_⟩
  rw [hdata, List.mem_singleton] at hrecord
  subst hrecord
  -- the rest of the amount stands where the type is read
  have hcells : sourceCells asciiPlatform (csvHeaders asciiPlatform shiftedSalary)
      (["2026-09-01".toList, "Salary".toList, "1".toList, "250.50".toList, "income".toList].take
        (csvHeaders asciiPlatform shiftedSalary).length) = _ :=
    sourceCells_take.trans (hread _)
  rw [hcells] at hdirection
  exact (unreadable_iff hcells).1 (.inr (.inl (Option.some.inj hdirection)))

/-- A salary of 1,250.50 naira is imported as 1 naira. -/
theorem salary_is_cut : ¬ ∀ (platform : Platform) (csv : Text) rows,
    parseTransactionImport platform csv = .ok rows → NoCellDropped platform csv rows := by
  intro h
  obtain ⟨-, -, -, haccepted, hrow, hrecord, hlonger⟩ := salaries_parse
  obtain ⟨rows, hparse⟩ := exists_of_isOk haccepted
  rw [hparse] at hrow
  obtain ⟨row, hrow, hvalues⟩ := Option.map_eq_some_iff.1 hrow
  have hdropped := h _ _ _ hparse 0 row _ hrow hrecord (congrArg Prod.snd hvalues)
  rw [hlonger] at hdropped
  cases hdropped

end Stead
