import Stead.Import.Parser

/-!
# Rows for records

Whether an import has a row for every record of the file (`Covers`). With Stead's own columns it
does. With debit and credit columns the records that the adapter leaves blank are dropped by the
second parse, and the rows that follow move up (`no_row_lost_iff`).

## Numbers of rows

A row has a number, which a user compares with the lines of the file: the header is the first
record, so the row of data record `k`, counted from nought, should have the number `k + 2`.
The rows are numbered as the second parse finds the records. So a record that is lost leaves no gap:
its number goes to the record that follows, which is why `Covers` speaks of the record in each
place.

## Blank records

A record of which all cells are blank is dropped by the first parse already and is none of the data
records (`dataRecords`). What the theorem is about are records with something in them, such as an
opening balance with both amounts and neither date nor description (`opening_balance_is_lost`).
-/

namespace Stead

variable {platform : Platform} {csv : Text} {headers : List Text} {records : List (List Text)}
  {adapter : TransactionImportAdapter} {rows : List ParsedImportRow}

/-! ### The two layouts -/

/-- Stead's own layout is asked first. -/
theorem findAdapter_eq_some (h : findAdapter platform headers = some adapter) :
    adapter = if steadCanonicalAdapter.matchesHeaders headers then steadCanonicalAdapter
      else provisionalDebitCreditAdapter platform := by
  cases hmatch : steadCanonicalAdapter.matchesHeaders headers with
  | true =>
    rw [findAdapter, transactionImportAdapters, List.find?_cons_of_pos (by exact hmatch)] at h
    exact (Option.some.inj h).symm
  | false =>
    rcases mem_adapters_of_find h with rfl | rfl
    · have hfound := List.find?_some h
      exact absurd hfound (by rw [hmatch]; exact Bool.false_ne_true)
    · rfl

/-- The headers the provisional adapter writes have no upper case, nothing to trim and no repetition,
and the importer finds its columns in them. -/
theorem CANONICAL_HEADERS_read :
    (CANONICAL_HEADERS.all fun header ↦ stripByteOrderMark header == header &&
      trim header == header && header.all fun c ↦ c.toNat < 128 && c.toLower == c) = true ∧
    findColumns CANONICAL_HEADERS = some ⟨0, 1, 2, 3⟩ ∧ keptRecord CANONICAL_HEADERS = true ∧
    duplicateHeaders CANONICAL_HEADERS = [] ∧
    steadCanonicalAdapter.matchesHeaders CANONICAL_HEADERS = true := by
  decide +kernel

/-- They are read as they are. -/
theorem headersOf_canonical : headersOf platform (CANONICAL_HEADERS :: records) =
    CANONICAL_HEADERS := by
  have hheader : ∀ index, ∀ header ∈ CANONICAL_HEADERS,
      normalizeHeader platform index header = header := by
    intro index header hmem
    have hheader := List.all_eq_true.1 CANONICAL_HEADERS_read.1 header hmem
    simp only [Bool.and_eq_true, beq_iff_eq, List.all_eq_true, decide_eq_true_eq] at hheader
    obtain ⟨⟨hstrip, htrim⟩, hchars⟩ := hheader
    have hlower : header.map Char.toLower = header :=
      (List.map_congr_left fun c hc ↦ (hchars c hc).2).trans (List.map_id' header)
    rw [normalizeHeader, hstrip, ite_self, htrim,
      platform.toLowerCase_ascii header fun c hc ↦ (hchars c hc).1, hlower]
  refine List.ext_getElem (List.length_mapIdx ..) fun i hi hi' ↦ ?_
  simp only [headersOf, List.headD_cons, List.getElem_mapIdx]
  exact hheader i _ (List.getElem_mem ..)

theorem findColumns_canonical : findColumns CANONICAL_HEADERS = some ⟨0, 1, 2, 3⟩ :=
  CANONICAL_HEADERS_read.2.1

theorem keptRecord_canonical : keptRecord CANONICAL_HEADERS = true :=
  CANONICAL_HEADERS_read.2.2.1

/-- What a successful parse went through. -/
theorem parseTransactionImport_ok (h : parseTransactionImport platform csv = .ok rows) :
    ∃ records adapter columns, parseCsvRecords csv = .ok records ∧
      findAdapter platform (headersOf platform records) = some adapter ∧
      findColumns (headersOf platform
        ((adaptedRecords platform records adapter.id).filter keptRecord)) = some columns ∧
      rows = parseRows platform (fun _ ↦ 0) 2
        (((adaptedRecords platform records adapter.id).filter keptRecord).tail.map
          (readRecord platform columns)) := by
  unfold parseTransactionImport toCanonicalImportCsv at h
  cases hparse : parseCsvRecords csv with
  | error e => rw [hparse] at h; cases h
  | ok records =>
    simp only [hparse] at h
    split at h
    · cases h
    · next canonicalCsv hcanonical =>
      split at hcanonical
      · cases hcanonical
      · next hne =>
        split at hcanonical
        · cases hcanonical
        · next adapter hfind =>
          cases hcanonical
          rw [parseCsvRecords_adapted hparse hne hfind] at h
          dsimp only at h
          split at h
          · cases h
          · split at h
            · cases h
            · split at h
              · cases h
              · next columns hcolumns =>
                split at h
                · cases h
                · split at h
                  · cases h
                  · cases h
                    exact ⟨records, adapter, columns, rfl, hfind, hcolumns, rfl⟩

/-! ### Coverage -/

/-- The records of a text after its header, without the blank ones. -/
def dataRecords (csv : Text) : List (List Text) :=
  match parseCsvRecords csv with
  | .ok records => records.tail
  | .error _ => []

/-- The headers of a text. -/
def csvHeaders (platform : Platform) (csv : Text) : List Text :=
  match parseCsvRecords csv with
  | .ok records => headersOf platform records
  | .error _ => []

/-- What a record says in the layout with these headers. -/
def sourceCells (platform : Platform) (headers record : List Text) : Option ImportCells :=
  if steadCanonicalAdapter.matchesHeaders headers then
    (findColumns headers).map fun columns ↦ readRecord platform columns record
  else some (readRecord platform ⟨0, 1, 2, 3⟩ (adaptRecord headers record))

/-- There is one row for each data record, in order: the row of the `k`-th record has the number
`k + 1` when records are counted from 1, and says what the record says. -/
def Covers (platform : Platform) (csv : Text) (rows : List ParsedImportRow) : Prop :=
  rows.length = (dataRecords csv).length ∧
    ∀ k record, (dataRecords csv)[k]? = some record →
      ∃ cells fingerprint, sourceCells platform (csvHeaders platform csv) record = some cells ∧
        rows[k]? = some (cells.row (k + 2) fingerprint)

/-- A record of the debit and credit layout that stays visible when it is adapted. -/
def StaysVisible (headers record : List Text) : Prop :=
  nonblank (cellAt record (findHeaderIndex headers DATE_ALIASES)) = true ∨
    nonblank (cellAt record (findHeaderIndex headers DESCRIPTION_ALIASES)) = true ∨
    amountPresent (cellAt record (headers.idxOf? DEBIT)) ≠
      amountPresent (cellAt record (headers.idxOf? CREDIT))

instance (headers record : List Text) : Decidable (StaysVisible headers record) :=
  inferInstanceAs (Decidable (_ ∨ _ ∨ _))

/-- A record stays visible when its adapted form is kept. -/
theorem keptRecord_adaptRecord_iff (headers record : List Text) :
    keptRecord (adaptRecord headers record) = true ↔ StaysVisible headers record := by
  rw [keptRecord_adaptRecord, Bool.or_eq_true, Bool.or_eq_true, bne_iff_ne, or_assoc]
  rfl

/-- The rows of records that are all read cover them. -/
theorem covers_of_rows {dataRecords' : List (List Text)} {read : List Text → ImportCells}
    (hdata : dataRecords csv = dataRecords')
    (hread : ∀ record ∈ dataRecords',
      sourceCells platform (csvHeaders platform csv) record = some (read record)) :
    Covers platform csv (parseRows platform (fun _ ↦ 0) 2 (dataRecords'.map read)) := by
  refine ⟨by rw [length_parseRows, List.length_map, hdata], fun k record hrecord ↦ ?_⟩
  rw [hdata] at hrecord
  have hcells : (dataRecords'.map read)[k]? = some (read record) := by
    rw [List.getElem?_map, hrecord]
    rfl
  obtain ⟨fingerprint, hrow, -⟩ := getElem?_parseRows platform (fun _ ↦ 0) 2 k _
    hcells
  exact ⟨read record, fingerprint, hread record (List.mem_of_getElem? hrecord),
    by rw [hrow, Nat.add_comm]⟩

/-- **No row is lost** exactly when the layout is Stead's own, or every data record has a date, a
description, or one of debit and credit but not both. -/
theorem no_row_lost_iff (h : parseTransactionImport platform csv = .ok rows) :
    Covers platform csv rows ↔
      (steadCanonicalAdapter.matchesHeaders (csvHeaders platform csv) = true ∨
        ∀ record ∈ dataRecords csv, StaysVisible (csvHeaders platform csv) record) := by
  obtain ⟨records, adapter, columns, hparse, hfind, hcolumns, rfl⟩ := parseTransactionImport_ok h
  have hheaders : csvHeaders platform csv = headersOf platform records := by
    rw [csvHeaders, hparse]
  have hdata : dataRecords csv = records.tail := by rw [dataRecords, hparse]
  have hadapter := findAdapter_eq_some hfind
  rw [hheaders]
  cases hmatch : steadCanonicalAdapter.matchesHeaders (headersOf platform records) with
  | true =>
    -- Stead's own layout: what is rendered is what was read, record by record.
    rw [hmatch, if_pos rfl] at hadapter
    have hkept : (adaptedRecords platform records adapter.id).filter keptRecord = records := by
      rw [hadapter]
      exact List.filter_eq_self.2 (mem_parseCsvRecords hparse)
    rw [hkept] at hcolumns ⊢
    refine iff_of_true (covers_of_rows hdata fun record _ ↦ ?_) (.inl rfl)
    rw [sourceCells, hheaders, if_pos hmatch, hcolumns]
    rfl
  | false =>
    -- The other layout: a row is missing just if the adapter left a record blank.
    rw [hmatch, if_neg Bool.false_ne_true] at hadapter
    set adapted := records.tail.map (adaptRecord (headersOf platform records)) with hadapted
    have hkept : (adaptedRecords platform records adapter.id).filter keptRecord =
        CANONICAL_HEADERS :: adapted.filter keptRecord := by
      rw [hadapter]
      exact List.filter_cons_of_pos keptRecord_canonical
    rw [hkept, headersOf_canonical, findColumns_canonical, Option.some.injEq] at hcolumns
    rw [hkept, List.tail_cons, ← hcolumns, hdata]
    have hall : (∀ record ∈ records.tail, StaysVisible (headersOf platform records) record) ↔
        ∀ record ∈ adapted, keptRecord record = true := by
      rw [hadapted, List.forall_mem_map]
      exact forall₂_congr fun record _ ↦ (keptRecord_adaptRecord_iff _ record).symm
    rw [or_iff_right Bool.false_ne_true, hall]
    constructor
    · intro hcovers
      have hlength := hcovers.1
      have hlengths : records.tail.length = adapted.length := by rw [hadapted, List.length_map]
      rw [length_parseRows, List.length_map, hdata, hlengths] at hlength
      exact List.length_filter_eq_length_iff.1 hlength
    · intro hvisible
      rw [List.filter_eq_self.2 hvisible, hadapted, List.map_map]
      refine covers_of_rows hdata fun record _ ↦ ?_
      rw [sourceCells, hheaders, hmatch, if_neg Bool.false_ne_true]
      rfl

namespace Demo

/-- A runtime that knows ASCII only. -/
def asciiPlatform : Platform where
  toLowerCase text := text.map Char.toLower
  toLowerCase_ascii _ _ := rfl
  toLocaleLowerCase text := text.map Char.toLower
  sha256 := textNumber

/-- A statement with two equal credits. -/
def twoTransfers : Text :=
  "date,narration,debit,credit\n2026-09-01,Transfer,,5000\n2026-09-01,Transfer,,5000".toList

/-- A statement whose first record has a balance and nothing else. -/
def openingBalance : Text :=
  "date,narration,debit,credit,balance\n,,,,100\n2026-09-01,Rent,50,,50".toList

end Demo

open Demo

theorem exists_of_isOk {ε α : Type} {result : Except ε α} (h : result.isOk = true) :
    ∃ a, result = .ok a := by
  cases result with
  | error e => cases h
  | ok a => exact ⟨a, rfl⟩

/-- The two statements are accepted. No transfer is left blank; of the records with the balance and
the rent, one has a row. -/
theorem statements_parse :
    (parseTransactionImport asciiPlatform twoTransfers).isOk = true ∧
    (∀ record ∈ dataRecords twoTransfers,
      StaysVisible (csvHeaders asciiPlatform twoTransfers) record) ∧
    (parseTransactionImport asciiPlatform openingBalance).isOk = true ∧
    ((parseTransactionImport asciiPlatform openingBalance).toOption.map List.length) = some 1 ∧
    (dataRecords openingBalance).length = 2 := by
  decide +kernel

/-- Two transfers have two rows. -/
theorem no_row_lost_two_transfers : ∃ rows,
    parseTransactionImport asciiPlatform twoTransfers = .ok rows ∧
      Covers asciiPlatform twoTransfers rows := by
  obtain ⟨haccepted, hvisible, -⟩ := statements_parse
  obtain ⟨rows, hparse⟩ := exists_of_isOk haccepted
  exact ⟨rows, hparse, (no_row_lost_iff hparse).2 (.inr hvisible)⟩

/-- A record with nothing but a balance has no row. -/
theorem opening_balance_is_lost : ¬ ∀ (platform : Platform) (csv : Text) rows,
    parseTransactionImport platform csv = .ok rows → Covers platform csv rows := by
  intro h
  obtain ⟨-, -, haccepted, hlength, hrecords⟩ := statements_parse
  obtain ⟨rows, hparse⟩ := exists_of_isOk haccepted
  rw [hparse] at hlength
  have hcovers := (h _ _ _ hparse).1
  rw [Option.some.inj hlength, hrecords] at hcovers
  exact absurd hcovers (by decide)

end Stead
