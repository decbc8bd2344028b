import Stead.Import.Headers
import Stead.Import.Notation

/-!
# What a statement with debits and credits means

A record of the layout with debit and credit columns denotes an entry (`Denotes`) when exactly one
of the two is filled and the cells denote an amount, a date and a note. The import reads just that
(`Denotes.readRecord`), although a record is rewritten, escaped, parsed once more and only then
validated: what is no entry is not made one on the way (`denotes_of_readRecord`).

## Records, entries and rows

`DenotesAll` says of the records of a file which entries they denote, in order: a record that is no
entry is left out where it stays visible, and its row has an error. `Shows` says that a row shows
an entry. So the rows of a file without errors show the entries of its records, one for one, and
conversely.

The adapter may drop a record, and the rows after it move up. The row of a record is therefore
found by counting the visible records before it (`rowOf`).

## Fingerprints

The fingerprints depend on the entries only (`fingerprints_of_shows`), so the same entries in
Stead's own layout have the same ones (`canonicalCsv_rows`).
-/

namespace Stead

open Collections

variable {platform : Platform} {headers : List Text}

/-! ### Entries -/

/-- A transaction that can be imported. -/
structure StatementEntry where
  date : CalendarDate
  direction : Direction
  amountKobo : ℕ
  note : Text
  amount_mem : 0 < amountKobo ∧ amountKobo ≤ MAX_SAFE_INTEGER
  note_normal : normalizeNote note = note
  note_mem : 1 ≤ utf16Length note ∧ utf16Length note ≤ 280

/-- Where the columns of the layout are. -/
structure ProvisionalLayout (headers : List Text) where
  date : ℕ
  description : ℕ
  debit : ℕ
  credit : ℕ
  distinct : headers.Nodup
  date_alias : ∃ name ∈ DATE_ALIASES, headers[date]? = some name
  date_only : ∀ i, ∀ name ∈ DATE_ALIASES, headers[i]? = some name → i = date
  description_alias : ∃ name ∈ DESCRIPTION_ALIASES, headers[description]? = some name
  description_only : ∀ i, ∀ name ∈ DESCRIPTION_ALIASES, headers[i]? = some name → i = description
  debit_header : headers[debit]? = some DEBIT
  credit_header : headers[credit]? = some CREDIT

/-- **The meaning of a record.** Exactly one of debit and credit is filled, with the amount, and the
other cells hold the date and the note. -/
structure Denotes (layout : ProvisionalLayout headers) (record : List Text)
    (entry : StatementEntry) : Prop where
  amount : (entry.direction = .out ∧ Filled (cellAt record layout.debit) ∧
      ¬ Filled (cellAt record layout.credit) ∧
      DenotesAmount (cellAt record layout.debit) entry.amountKobo) ∨
    (entry.direction = .in ∧ Filled (cellAt record layout.credit) ∧
      ¬ Filled (cellAt record layout.debit) ∧
      DenotesAmount (cellAt record layout.credit) entry.amountKobo)
  date : DenotesDate (cellAt record layout.date) entry.date
  note : entry.note = normalizeNote (cellAt record layout.description)

/-- The entries of records, in order; a record may denote none. -/
inductive DenotesAll (layout : ProvisionalLayout headers) :
    List (List Text) → List StatementEntry → Prop
  | nil : DenotesAll layout [] []
  | entry {record : List Text} {records : List (List Text)} {entry : StatementEntry}
      {entries : List StatementEntry} (h : Denotes layout record entry)
      (hrest : DenotesAll layout records entries) :
      DenotesAll layout (record :: records) (entry :: entries)
  | skip {record : List Text} {records : List (List Text)} {entries : List StatementEntry}
      (h : ∀ entry, ¬ Denotes layout record entry) (hrest : DenotesAll layout records entries) :
      DenotesAll layout (record :: records) entries

/-- A row without error that says what the entry says. -/
structure Shows (entry : StatementEntry) (row : ParsedImportRow) : Prop where
  error : row.error = none
  occurredAt : row.occurredAt = some entry.date.noon
  direction : row.direction = some entry.direction
  amountKobo : row.amountKobo = some entry.amountKobo
  note : row.note = some entry.note

namespace StatementEntry

/-- What is read in a record of the entry. -/
def cells (entry : StatementEntry) : ImportCells :=
  ⟨some entry.date.noon, some entry.direction, some entry.amountKobo, entry.note⟩

/-- A record of the entry in Stead's own layout. -/
def canonicalRecord (entry : StatementEntry) : List Text :=
  [entry.date.iso, entry.note, amountText entry.amountKobo,
    match entry.direction with
    | .in => CREDIT
    | .out => DEBIT]

/-- The content of an entry. -/
def normalizedRow (platform : Platform) (entry : StatementEntry) : NormalizedRow :=
  ⟨entry.date.noon, entry.direction, entry.amountKobo, platform.toLocaleLowerCase entry.note⟩

end StatementEntry

/-- The entries in Stead's own layout. -/
def canonicalCsv (entries : List StatementEntry) : Text :=
  renderCsv (CANONICAL_HEADERS :: entries.map StatementEntry.canonicalRecord)

/-- The row that data record `k` has become, unless the adapter left the record blank. -/
def rowOf (headers : List Text) (records : List (List Text)) (rows : List ParsedImportRow) (k : ℕ) :
    Option ParsedImportRow :=
  records[k]?.bind fun record ↦
    if StaysVisible headers record then
      rows[((records.take k).filter fun record ↦ StaysVisible headers record).length]?
    else none

/-! ### Cells without errors -/

section Cells

variable {cells : ImportCells} {entry : StatementEntry}

theorem length_le_utf16Length (text : Text) : text.length ≤ utf16Length text := by
  have hfold : ∀ (text : Text) (n : ℕ), n + text.length ≤
      text.foldl (fun length c ↦ length + if c.toNat < 65536 then 1 else 2) n := by
    intro text
    induction text with
    | nil => exact fun _ ↦ le_rfl
    | cons c text ih =>
      intro n
      have hstep : n + 1 ≤ n + if c.toNat < 65536 then 1 else 2 := by
        split <;> omega
      rw [List.foldl_cons, List.length_cons]
      exact le_trans (by omega) (ih _)
  exact (Nat.zero_add text.length).ge.trans (hfold text 0)

theorem one_le_utf16Length {text : Text} : 1 ≤ utf16Length text ↔ text ≠ [] := by
  constructor
  · rintro h rfl
    exact absurd h (by decide)
  · exact fun hne ↦ (List.length_pos_iff.2 hne).trans_le (length_le_utf16Length text)

/-- Cells without errors. -/
theorem ImportCells.errors_eq_nil : cells.errors = [] ↔
    cells.occurredAt ≠ none ∧ cells.direction ≠ none ∧ cells.amountKobo ≠ none ∧
      1 ≤ utf16Length cells.note ∧ utf16Length cells.note ≤ 280 := by
  rw [one_le_utf16Length, ← not_lt, ImportCells.errors]
  simp only [List.append_eq_nil_iff, ite_eq_right_iff, List.cons_ne_nil, imp_false, and_assoc,
    ne_eq]

theorem StatementEntry.cells_errors (entry : StatementEntry) : entry.cells.errors = [] :=
  ImportCells.errors_eq_nil.2 ⟨nofun, nofun, nofun, entry.note_mem⟩

theorem StatementEntry.cells_normalized (entry : StatementEntry) :
    entry.cells.normalized platform = some (entry.normalizedRow platform) := by
  rw [ImportCells.normalized, if_pos entry.cells_errors]
  rfl

/-- A row of its cells shows it. -/
theorem StatementEntry.shows_row (entry : StatementEntry) (rowNumber : ℕ) (fingerprint : Option ℕ) :
    Shows entry (entry.cells.row rowNumber fingerprint) where
  error := if_pos entry.cells_errors
  occurredAt := rfl
  direction := rfl
  amountKobo := rfl
  note := if_neg (one_le_utf16Length.1 entry.note_mem.1)

/-- A row has an error just if its cells have one. -/
theorem row_error {rowNumber : ℕ} {fingerprint : Option ℕ} :
    (cells.row rowNumber fingerprint).error = none ↔ cells.errors = [] := by
  have herror : (cells.row rowNumber fingerprint).error =
      if cells.errors = [] then none else some ("; ".intercalate cells.errors) := rfl
  rw [herror]
  split_ifs with h
  · exact iff_of_true rfl h
  · exact iff_of_false nofun h

/-- A row that shows an entry has its content. -/
theorem Shows.normalized {row : ParsedImportRow} (h : Shows entry row) :
    row.normalized platform = some (entry.normalizedRow platform) := by
  rw [ParsedImportRow.normalized, h.error, h.occurredAt, h.direction, h.amountKobo, h.note]
  rfl

/-- A row with an error has no content. -/
theorem ParsedImportRow.normalized_of_error {row : ParsedImportRow} (h : row.error ≠ none) :
    row.normalized platform = none := by
  obtain ⟨error, herror⟩ := Option.ne_none_iff_exists'.1 h
  rw [ParsedImportRow.normalized, herror]

end Cells

/-! ### Columns -/

section Columns

variable {record : List Text} {entry : StatementEntry}

theorem findHeaderIndex_eq_some {aliases : List Text} {i : ℕ}
    (halias : ∃ name ∈ aliases, headers[i]? = some name)
    (honly : ∀ j, ∀ name ∈ aliases, headers[j]? = some name → j = i) :
    findHeaderIndex headers aliases = some i := by
  cases hfind : findHeaderIndex headers aliases with
  | none =>
    obtain ⟨name, hname, hi⟩ := halias
    have hnone := List.findSome?_eq_none_iff.1 hfind name hname
    exact absurd (List.mem_of_getElem? hi) (List.idxOf?_eq_none_iff.1 hnone)
  | some j =>
    obtain ⟨name, hname, hj⟩ := List.exists_of_findSome?_eq_some hfind
    obtain ⟨hlt, hget, -⟩ := List.idxOf?_eq_some_iff.1 hj
    rw [honly j name hname (List.getElem?_eq_some_iff.2 ⟨hlt, by simpa using hget⟩)]

theorem idxOf?_eq_some {name : Text} {i : ℕ} (hdistinct : headers.Nodup)
    (hi : headers[i]? = some name) : headers.idxOf? name = some i := by
  obtain ⟨hlt, hget⟩ := List.getElem?_eq_some_iff.1 hi
  have hsingle : findHeaderIndex headers [name] = some i := by
    refine findHeaderIndex_eq_some ⟨name, List.mem_singleton_self _, hi⟩ fun j name' hname' hj ↦ ?_
    rw [List.mem_singleton.1 hname'] at hj
    obtain ⟨hlt', hget'⟩ := List.getElem?_eq_some_iff.1 hj
    exact (hdistinct.getElem_inj_iff).1 (hget'.trans hget.symm)
  simpa [findHeaderIndex] using hsingle

/-- What is made of a record, in terms of the layout. -/
theorem ProvisionalLayout.adaptRecord_eq (layout : ProvisionalLayout headers) (record : List Text) :
    adaptRecord headers record =
      [toIsoDate (cellAt record layout.date), cellAt record layout.description,
        (adaptAmount (cellAt record layout.debit) (cellAt record layout.credit)).1,
        (adaptAmount (cellAt record layout.debit) (cellAt record layout.credit)).2] := by
  rw [adaptRecord, findHeaderIndex_eq_some layout.date_alias layout.date_only,
    findHeaderIndex_eq_some layout.description_alias layout.description_only,
    idxOf?_eq_some layout.distinct layout.debit_header,
    idxOf?_eq_some layout.distinct layout.credit_header]

/-- An entry has exactly one of debit and credit. -/
theorem Denotes.staysVisible {layout : ProvisionalLayout headers}
    (h : Denotes layout record entry) : StaysVisible headers record := by
  refine .inr (.inr ?_)
  rw [idxOf?_eq_some layout.distinct layout.debit_header,
    idxOf?_eq_some layout.distinct layout.credit_header]
  have hboth : ∀ {cell cell' : Text}, Filled cell → ¬ Filled cell' →
      amountPresent cell ≠ amountPresent cell' := by
    intro cell cell' hfilled hblank hsame
    rw [← amountPresent_iff] at hfilled hblank
    exact hblank (hsame ▸ hfilled)
  rcases h.amount with ⟨-, hdebit, hcredit, -⟩ | ⟨-, hcredit, hdebit, -⟩
  · exact hboth hdebit hcredit
  · exact (hboth hcredit hdebit).symm

end Columns

/-! ### Records -/

section Records

variable {record : List Text} {entry : StatementEntry} {layout : ProvisionalLayout headers}

/-- Small letters of ASCII are read as they are. -/
theorem toLowerCase_small {word : Text}
    (h : (word.all fun c ↦ decide (c.toNat < 128) && c.toLower == c) = true) :
    platform.toLowerCase word = word := by
  simp only [List.all_eq_true, Bool.and_eq_true, decide_eq_true_eq, beq_iff_eq] at h
  have hsame : word.map Char.toLower = word :=
    (List.map_congr_left fun c hc ↦ (h c hc).2).trans (List.map_id' word)
  exact (platform.toLowerCase_ascii word fun c hc ↦ (h c hc).1).trans hsame

theorem parseDirection_debit : parseDirection platform DEBIT = some .out := by
  have htrim : trim DEBIT = DEBIT := by decide
  rw [parseDirection, htrim, toLowerCase_small (by decide)]
  decide

theorem parseDirection_credit : parseDirection platform CREDIT = some .in := by
  have htrim : trim CREDIT = CREDIT := by decide
  rw [parseDirection, htrim, toLowerCase_small (by decide)]
  decide

/-- Amounts are read without the white space around them. -/
theorem parseAmountKobo_trim (value : Text) :
    parseAmountKobo (trim value) = parseAmountKobo value := by
  rw [parseAmountKobo, trim_trim]
  rfl

/-- The cells of the adapted record. -/
theorem readRecord_adaptRecord (layout : ProvisionalLayout headers) (record : List Text) :
    readRecord platform ⟨0, 1, 2, 3⟩ (adaptRecord headers record) =
      ⟨parseDate (toIsoDate (cellAt record layout.date)),
        parseDirection platform
          (adaptAmount (cellAt record layout.debit) (cellAt record layout.credit)).2,
        parseAmountKobo (adaptAmount (cellAt record layout.debit) (cellAt record layout.credit)).1,
        normalizeNote (cellAt record layout.description)⟩ := by
  rw [layout.adaptRecord_eq, readRecord, ← collapseSpaces_trim]
  rfl

/-- **An entry is read** as it is denoted. -/
theorem Denotes.readRecord (h : Denotes layout record entry) :
    readRecord platform ⟨0, 1, 2, 3⟩ (adaptRecord headers record) = entry.cells := by
  have hdate : parseDate (toIsoDate (cellAt record layout.date)) = some entry.date.noon :=
    parseDate_toIsoDate.2 ⟨entry.date, h.date, rfl⟩
  have hamount : ∀ {cell : Text}, DenotesAmount cell entry.amountKobo →
      parseAmountKobo (trim cell) = some entry.amountKobo := fun hcell ↦ by
    rw [parseAmountKobo_trim]
    exact parseAmountKobo_iff.2 ⟨hcell, entry.amount_mem⟩
  rw [readRecord_adaptRecord layout, hdate, StatementEntry.cells, h.note]
  rcases h.amount with ⟨hout, hdebit, hcredit, hcell⟩ | ⟨hin, hcredit, hdebit, hcell⟩
  · rw [← amountPresent_iff] at hdebit hcredit
    have hcredit := Bool.eq_false_iff.2 hcredit
    simp only [adaptAmount, hdebit, hcredit, Bool.false_and, Bool.not_false, Bool.and_self,
      Bool.false_eq_true, if_true, if_false]
    rw [parseDirection_debit, hamount hcell, hout]
  · rw [← amountPresent_iff] at hdebit hcredit
    have hdebit := Bool.eq_false_iff.2 hdebit
    simp only [adaptAmount, hdebit, hcredit, Bool.not_false, Bool.and_self, if_true]
    rw [parseDirection_credit, hamount hcell, hin]

/-- **What is read without error** is denoted. -/
theorem denotes_of_readRecord (layout : ProvisionalLayout headers)
    (h : (Stead.readRecord platform ⟨0, 1, 2, 3⟩ (adaptRecord headers record)).errors = []) :
    ∃ entry, Denotes layout record entry := by
  obtain ⟨hdate, hdirection, hamount, hlow, hhigh⟩ := ImportCells.errors_eq_nil.1 h
  rw [readRecord_adaptRecord layout] at hdate hdirection hamount hlow hhigh
  dsimp only at hdate hdirection hamount hlow hhigh
  obtain ⟨occurredAt, hdate⟩ := Option.ne_none_iff_exists'.1 hdate
  obtain ⟨date, hdate, -⟩ := parseDate_toIsoDate.1 hdate
  obtain ⟨amountKobo, hamount⟩ := Option.ne_none_iff_exists'.1 hamount
  have hnote := normalizeNote_idem (cellAt record layout.description)
  have hread : ∀ {cell : Text}, parseAmountKobo (trim cell) = some amountKobo →
      DenotesAmount cell amountKobo ∧ 0 < amountKobo ∧ amountKobo ≤ MAX_SAFE_INTEGER := fun hcell ↦
    parseAmountKobo_iff.1 (parseAmountKobo_trim _ ▸ hcell)
  have hnothing : parseAmountKobo [] = none := by decide
  unfold adaptAmount at hamount
  split at hamount
  · next hfilled =>
    rw [Bool.and_eq_true, Bool.not_eq_true', amountPresent_iff] at hfilled
    obtain ⟨hcell, hbounds⟩ := hread hamount
    refine ⟨⟨date, .in, amountKobo, _, hbounds, hnote, hlow, hhigh⟩, ?_, hdate, rfl⟩
    refine .inr ⟨rfl, hfilled.1, fun hdebit ↦ ?_, hcell⟩
    exact Bool.false_ne_true (hfilled.2.symm.trans ((amountPresent_iff _).2 hdebit))
  · split at hamount
    · next hfilled =>
      rw [Bool.and_eq_true, Bool.not_eq_true', amountPresent_iff] at hfilled
      obtain ⟨hcell, hbounds⟩ := hread hamount
      refine ⟨⟨date, .out, amountKobo, _, hbounds, hnote, hlow, hhigh⟩, ?_, hdate, rfl⟩
      refine .inl ⟨rfl, hfilled.1, fun hcredit ↦ ?_, hcell⟩
      exact Bool.false_ne_true (hfilled.2.symm.trans ((amountPresent_iff _).2 hcredit))
    · exact absurd (hnothing.symm.trans hamount) nofun

end Records

/-! ### Rows -/

section Rows

variable {records : List (List Text)} {record : List Text} {entry : StatementEntry}
  {entries : List StatementEntry} {layout : ProvisionalLayout headers}
  {rows : List ParsedImportRow}

/-- An element that is kept comes after those kept before it. -/
theorem getElem?_filter_take {α : Type*} {list : List α} {p : α → Bool} {k : ℕ} {a : α}
    (h : list[k]? = some a) (hp : p a = true) :
    (list.filter p)[((list.take k).filter p).length]? = some a := by
  induction list generalizing k with
  | nil => cases h
  | cons b list ih =>
    cases k with
    | zero =>
      cases h
      rw [List.filter_cons_of_pos hp]
      rfl
    | succ k =>
      rw [List.take_succ_cons]
      cases hb : p b with
      | true =>
        rw [List.filter_cons_of_pos hb, List.filter_cons_of_pos hb]
        exact ih h
      | false =>
        have hb' : ¬ p b = true := by
          rw [hb]
          exact Bool.false_ne_true
        rw [List.filter_cons_of_neg hb', List.filter_cons_of_neg hb']
        exact ih h

/-- The cells that are read in the records that stay visible. -/
def visibleCells (platform : Platform) (headers : List Text) (records : List (List Text)) :
    List ImportCells :=
  (records.filter fun record ↦ StaysVisible headers record).map fun record ↦
    readRecord platform ⟨0, 1, 2, 3⟩ (adaptRecord headers record)

/-- **The row of a record** that stays visible shows its cells. -/
theorem rowOf_eq_some (platform : Platform) {k : ℕ} (hk : records[k]? = some record)
    (hvisible : StaysVisible headers record) : ∃ rowNumber fingerprint,
      rowOf headers records
        (parseRows platform (fun _ ↦ 0) 2 (visibleCells platform headers records)) k =
        some ((readRecord platform ⟨0, 1, 2, 3⟩ (adaptRecord headers record)).row rowNumber
          fingerprint) := by
  have hcells : (visibleCells platform headers records)[((records.take k).filter fun record ↦
      StaysVisible headers record).length]? =
        some (readRecord platform ⟨0, 1, 2, 3⟩ (adaptRecord headers record)) := by
    rw [visibleCells, List.getElem?_map, getElem?_filter_take hk (decide_eq_true hvisible)]
    rfl
  obtain ⟨fingerprint, hrow, -⟩ := getElem?_parseRows platform (fun _ ↦ 0) 2 _ _ hcells
  refine ⟨_, fingerprint, Eq.trans ?_ hrow⟩
  rw [rowOf, hk, Option.bind_some, if_pos hvisible]

/-- A record that is dropped has no row. -/
theorem rowOf_eq_none {k : ℕ} (hk : records[k]? = some record)
    (hvisible : ¬ StaysVisible headers record) : rowOf headers records rows k = none := by
  rw [rowOf, hk, Option.bind_some, if_neg hvisible]

/-- The contents of the rows are the entries of the records. -/
theorem DenotesAll.contents (platform : Platform) (h : DenotesAll layout records entries) :
    contents platform (visibleCells platform headers records) =
      entries.map (StatementEntry.normalizedRow platform) := by
  induction h with
  | nil => rfl
  | @entry record records entry entries h hrest ih =>
    have hvisible : decide (StaysVisible headers record) = true := decide_eq_true h.staysVisible
    have hcells : visibleCells platform headers (record :: records) =
        entry.cells :: visibleCells platform headers records := by
      rw [visibleCells, List.filter_cons_of_pos (by exact hvisible), List.map_cons, h.readRecord]
      rfl
    rw [hcells, Stead.contents, List.filterMap_cons_some entry.cells_normalized, List.map_cons]
    exact congrArg _ ih
  | @skip record records entries h hrest ih =>
    by_cases hvisible : StaysVisible headers record
    · have hcells : visibleCells platform headers (record :: records) =
          readRecord platform ⟨0, 1, 2, 3⟩ (adaptRecord headers record) ::
            visibleCells platform headers records := by
        rw [visibleCells, List.filter_cons_of_pos (by exact decide_eq_true hvisible), List.map_cons]
        rfl
      have hnone : (readRecord platform ⟨0, 1, 2, 3⟩ (adaptRecord headers record)).normalized
          platform = none := by
        rw [← Option.not_isSome_iff_eq_none, ImportCells.normalized_isSome]
        intro herrors
        obtain ⟨entry, hentry⟩ := denotes_of_readRecord layout herrors
        exact h entry hentry
      rw [hcells, Stead.contents, List.filterMap_cons_none hnone]
      exact ih
    · have hcells : visibleCells platform headers (record :: records) =
          visibleCells platform headers records := by
        rw [visibleCells, List.filter_cons_of_neg (by simpa using hvisible)]
        rfl
      rw [hcells]
      exact ih

/-- Every list of records has its entries. -/
theorem exists_denotesAll (layout : ProvisionalLayout headers) (records : List (List Text)) :
    ∃ entries, DenotesAll layout records entries := by
  induction records with
  | nil => exact ⟨[], .nil⟩
  | cons record records ih =>
    obtain ⟨entries, hrest⟩ := ih
    by_cases h : ∃ entry, Denotes layout record entry
    · obtain ⟨entry, hentry⟩ := h
      exact ⟨entry :: entries, .entry hentry hrest⟩
    · exact ⟨entries, .skip (fun entry hentry ↦ h ⟨entry, hentry⟩) hrest⟩

/-- Rows that show entries have no errors. -/
theorem error_of_shows (h : List.Forall₂ Shows entries rows) : ∀ row ∈ rows, row.error = none := by
  induction h with
  | nil => exact fun _ hrow ↦ absurd hrow List.not_mem_nil
  | cons hshows _ ih => exact List.forall_mem_cons.2 ⟨hshows.error, ih⟩

/-- The rows of cells that entries are read in show the entries. -/
theorem shows_parseRows (entries : List StatementEntry) (occurrences : Text → ℕ) (rowNumber : ℕ) :
    List.Forall₂ Shows entries
      (parseRows platform occurrences rowNumber (entries.map StatementEntry.cells)) := by
  induction entries generalizing occurrences rowNumber with
  | nil => exact .nil
  | cons entry entries ih => exact .cons (entry.shows_row _ _) (ih _ _)

/-- Rows that show entries have the contents of the entries. -/
theorem normalized_of_shows
    (h : List.Forall₂ Shows entries (rows.filter fun row ↦ row.error = none)) :
    rows.filterMap (ParsedImportRow.normalized platform) =
      entries.map (StatementEntry.normalizedRow platform) := by
  induction rows generalizing entries with
  | nil =>
    cases h
    rfl
  | cons row rows ih =>
    by_cases herror : row.error = none
    · rw [List.filter_cons_of_pos (by exact decide_eq_true herror)] at h
      cases h with
      | cons hshows hrest =>
        rw [List.filterMap_cons_some hshows.normalized, ih hrest, List.map_cons]
    · rw [List.filter_cons_of_neg (by simpa using herror)] at h
      rw [List.filterMap_cons_none (row.normalized_of_error herror), ih h]

end Rows

/-! ### Files -/

section Files

variable {csv : Text} {records : List (List Text)} {rows : List ParsedImportRow}
  {entry : StatementEntry} {entries : List StatementEntry}

/-- The rows of an accepted statement with debits and credits. -/
theorem rows_of_provisional (hparse : parseCsvRecords csv = .ok records)
    (hmatch : (provisionalDebitCreditAdapter platform).matchesHeaders
      (headersOf platform records) = true)
    (h : parseTransactionImport platform csv = .ok rows) :
    rows = parseRows platform (fun _ ↦ 0) 2
        (visibleCells platform (headersOf platform records) records.tail) ∧
      (visibleCells platform (headersOf platform records) records.tail).length ≤ MAX_ROWS := by
  have hne : records ≠ [] := by
    rintro rfl
    simp only [provisionalDebitCreditAdapter, Bool.and_eq_true] at hmatch
    exact Bool.false_ne_true hmatch.2
  rw [parseTransactionImport_eq hparse, importParsed_provisional hne hmatch,
    importRecords_canonical] at h
  split at h
  · cases h
  · split at h
    · cases h
    · next hmany =>
      cases h
      rw [not_lt, List.length_map] at hmany
      rw [visibleCells, List.length_map, List.map_map]
      exact ⟨rfl, hmany⟩

/-- The fingerprints of entries in this order. -/
def entryFingerprints (platform : Platform) (entries : List StatementEntry) : List ℕ :=
  (numbered (fun _ ↦ 0) (entries.map fun entry ↦
    (entry.normalizedRow platform).canonical)).map fun occurrence ↦
      platform.sha256 (occurrenceText occurrence)

/-- Rows with the content of entries have their fingerprints. -/
theorem entryFingerprints_of_contents (rowNumber : ℕ) {cells : List ImportCells}
    (h : contents platform cells = entries.map (StatementEntry.normalizedRow platform)) :
    fingerprintsOf (parseRows platform (fun _ ↦ 0) rowNumber cells) =
      entryFingerprints platform entries := by
  rw [fingerprints_parseRows, h, List.map_map]
  rfl

/-- **The fingerprints of a file** are those of the entries that its rows show, whatever its
layout. -/
theorem fingerprints_of_shows (h : parseTransactionImport platform csv = .ok rows)
    (hshows : List.Forall₂ Shows entries (rows.filter fun row ↦ row.error = none)) :
    fingerprintsOf rows = entryFingerprints platform entries := by
  obtain ⟨records, adapter, columns, -, -, -, rfl⟩ := parseTransactionImport_ok h
  exact entryFingerprints_of_contents 2 (normalized_parseRows.symm.trans (normalized_of_shows hshows))

/-- **A record in Stead's own layout** is read as its entry. -/
theorem StatementEntry.readRecord (entry : StatementEntry) :
    readRecord platform ⟨0, 1, 2, 3⟩ entry.canonicalRecord = entry.cells := by
  have hdate : parseDate entry.date.iso = some entry.date.noon := by
    have hdenotes := denotesDate_iso entry.date
    obtain ⟨year, month, day, hform, hyear, hmonth, hday⟩ := hdenotes
    have hiso : toIsoDate entry.date.iso = entry.date.iso :=
      (toIsoDate_of_form hform).trans (hform.iso_eq hyear hmonth hday)
    rw [← hiso]
    exact parseDate_toIsoDate.2 ⟨entry.date, ⟨year, month, day, hform, hyear, hmonth, hday⟩, rfl⟩
  have hamount : parseAmountKobo (amountText entry.amountKobo) = some entry.amountKobo :=
    parseAmountKobo_iff.2 ⟨denotesAmount_amountText _, entry.amount_mem⟩
  have hnote : collapseSpaces false (trim entry.note) = entry.note := by
    rw [collapseSpaces_trim, entry.note_normal]
  have hdirection : parseDirection platform (match entry.direction with
      | .in => CREDIT
      | .out => DEBIT) = some entry.direction := by
    cases entry.direction with
    | «in» => exact parseDirection_credit
    | out => exact parseDirection_debit
  rw [StatementEntry.cells, ← hdate, ← hdirection, ← hamount]
  conv_rhs => rw [← hnote]
  rfl

/-- A record that is written for an entry is not blank. -/
theorem keptRecord_canonicalRecord (entry : StatementEntry) :
    keptRecord entry.canonicalRecord = true := by
  have hword : nonblank (match entry.direction with
      | .in => CREDIT
      | .out => DEBIT) = true := by
    cases entry.direction <;> decide
  exact List.any_eq_true.2 ⟨_, List.mem_of_mem_getLast? rfl, hword⟩

/-- **The entries in Stead's own layout** are accepted, and are the rows. -/
theorem canonicalCsv_rows (platform : Platform) (hne : entries ≠ [])
    (hmany : entries.length ≤ MAX_ROWS) :
    ∃ rows, parseTransactionImport platform (canonicalCsv entries) = .ok rows ∧
      List.Forall₂ Shows entries rows := by
  have hkept : ∀ record ∈ CANONICAL_HEADERS :: entries.map StatementEntry.canonicalRecord,
      keptRecord record = true := by
    intro record hrecord
    rcases List.mem_cons.1 hrecord with rfl | hrecord
    · exact keptRecord_canonical
    · obtain ⟨entry, -, rfl⟩ := List.mem_map.1 hrecord
      exact keptRecord_canonicalRecord entry
  have hparse := (csv_round_trip platform).1 _ hkept
  have hmatch := CANONICAL_HEADERS_read.2.2.2.2
  have hfind : findAdapter platform (headersOf platform
      (CANONICAL_HEADERS :: entries.map StatementEntry.canonicalRecord)) =
        some steadCanonicalAdapter := by
    rw [headersOf_canonical, findAdapter, transactionImportAdapters,
      List.find?_cons_of_pos (by exact hmatch)]
  have hrows : parseTransactionImport platform (canonicalCsv entries) =
      .ok (parseRows platform (fun _ ↦ 0) 2 (entries.map StatementEntry.cells)) := by
    have hread : (entries.map StatementEntry.canonicalRecord).map
        (readRecord platform ⟨0, 1, 2, 3⟩) = entries.map StatementEntry.cells := by
      rw [List.map_map]
      exact List.map_congr_left fun entry _ ↦ entry.readRecord
    have hadapted : (adaptedRecords platform
        (CANONICAL_HEADERS :: entries.map StatementEntry.canonicalRecord)
        .steadCanonical).filter keptRecord =
          CANONICAL_HEADERS :: entries.map StatementEntry.canonicalRecord :=
      List.filter_eq_self.2 hkept
    rw [canonicalCsv, parseTransactionImport_eq hparse, importParsed, if_neg (List.cons_ne_nil _ _),
      hfind]
    dsimp only
    have hid : steadCanonicalAdapter.id = .steadCanonical := rfl
    rw [hid, hadapted, importRecords_canonical, if_neg (by simpa using hne),
      if_neg (by rwa [List.length_map, not_lt]), hread]
  exact ⟨_, hrows, shows_parseRows entries _ _⟩

/-- There are no more entries than visible records. -/
theorem DenotesAll.length_le (platform : Platform) {layout : ProvisionalLayout headers}
    (h : DenotesAll layout records entries) :
    entries.length ≤ (visibleCells platform headers records).length := by
  rw [← List.length_map (f := StatementEntry.normalizedRow platform), ← h.contents platform]
  exact List.length_filterMap_le _ _

/-- **The layout with debits and credits means what it says.** In an accepted statement with
distinct headers, a data record becomes a row without error exactly when it denotes an entry, and
the row then shows the entry. The fingerprints are those of every accepted file whose rows without
error show the same entries in the same order; the entries in Stead's own layout are such a file. -/
theorem provisional_format_means (platform : Platform) {csv : Text} {records : List (List Text)}
    {rows : List ParsedImportRow} (hparse : parseCsvRecords csv = .ok records)
    (hmatch : (provisionalDebitCreditAdapter platform).matchesHeaders
      (headersOf platform records) = true)
    (h : parseTransactionImport platform csv = .ok rows)
    (layout : ProvisionalLayout (headersOf platform records)) :
    (∀ k record, records.tail[k]? = some record →
      ((∃ row, rowOf (headersOf platform records) records.tail rows k = some row ∧
          row.error = none) ↔ ∃ entry, Denotes layout record entry) ∧
        ∀ entry, Denotes layout record entry →
          ∃ row, rowOf (headersOf platform records) records.tail rows k = some row ∧
            Shows entry row) ∧
      ∃ entries, DenotesAll layout records.tail entries ∧
        (∀ csv' rows', parseTransactionImport platform csv' = .ok rows' →
          List.Forall₂ Shows entries (rows'.filter fun row ↦ row.error = none) →
            fingerprintsOf rows' = fingerprintsOf rows) ∧
        (entries ≠ [] → ∃ rows',
          parseTransactionImport platform (canonicalCsv entries) = .ok rows' ∧
            List.Forall₂ Shows entries rows' ∧ fingerprintsOf rows' = fingerprintsOf rows) := by
  obtain ⟨rfl, hmany⟩ := rows_of_provisional hparse hmatch h
  -- The row of a record that denotes an entry is made of the cells of that entry.
  have hshown : ∀ k record entry, records.tail[k]? = some record → Denotes layout record entry →
      ∃ row, rowOf (headersOf platform records) records.tail (parseRows platform (fun _ ↦ 0) 2
        (visibleCells platform (headersOf platform records) records.tail)) k = some row ∧
          Shows entry row := by
    intro k record entry hk hentry
    obtain ⟨rowNumber, fingerprint, hrow⟩ := rowOf_eq_some platform hk hentry.staysVisible
    rw [hentry.readRecord] at hrow
    exact ⟨_, hrow, entry.shows_row rowNumber fingerprint⟩
  -- The entries of the whole file, in the order of its records.
  obtain ⟨entries, hentries⟩ := exists_denotesAll layout records.tail
  have hfingerprints := entryFingerprints_of_contents 2 (hentries.contents platform)
  refine ⟨fun k record hk ↦ ⟨⟨?_, ?_⟩, fun entry ↦ hshown k record entry hk⟩, entries, hentries,
    fun csv' rows' h' hshows ↦ (fingerprints_of_shows h' hshows).trans hfingerprints.symm,
    fun hne ↦ ?_⟩
  · rintro ⟨row, hrow, herror⟩
    -- A record without visible cells has no row at all.
    by_cases hvisible : StaysVisible (headersOf platform records) record
    · obtain ⟨rowNumber, fingerprint, hrow'⟩ := rowOf_eq_some platform hk hvisible
      cases hrow'.symm.trans hrow
      exact denotes_of_readRecord layout (row_error.1 herror)
    · rw [rowOf_eq_none hk hvisible] at hrow
      cases hrow
  · rintro ⟨entry, hentry⟩
    obtain ⟨row, hrow, hshows⟩ := hshown k record entry hk hentry
    exact ⟨row, hrow, hshows.error⟩
  · obtain ⟨rows', hrows', hshows⟩ := canonicalCsv_rows platform hne
      ((hentries.length_le platform).trans hmany)
    have hall : rows'.filter (fun row ↦ row.error = none) = rows' :=
      List.filter_eq_self.2 fun row hrow ↦ decide_eq_true (error_of_shows hshows row hrow)
    exact ⟨rows', hrows', hshows,
      (fingerprints_of_shows hrows' (hall.symm ▸ hshows)).trans hfingerprints.symm⟩

end Files

namespace Demo

/-- A statement with a leap day, and a record with both amounts. -/
def statement : Text :=
  "Value Date,Narration,Debit,Credit\n29/2/2024,Rent  paid,\"NGN 1,250.5\",\n1-3-2024,Pay,0,9"
    |>.toList

/-- The headers of the statement, -/
def statementHeaders : List Text :=
  ["value date".toList, "narration".toList, DEBIT, CREDIT]

/-- and where its columns are. -/
def statementLayout : ProvisionalLayout statementHeaders where
  date := 0
  description := 1
  debit := 2
  credit := 3
  distinct := by decide +kernel
  date_alias := ⟨"value date".toList, by decide +kernel, rfl⟩
  date_only i name hname hi := by
    have hi' : i < 4 := (List.getElem?_eq_some_iff.1 hi).1
    have hchecked : ∀ i < 4, ∀ name ∈ DATE_ALIASES, statementHeaders[i]? = some name → i = 0 := by
      decide +kernel
    exact hchecked i hi' name hname hi
  description_alias := ⟨"narration".toList, by decide +kernel, rfl⟩
  description_only i name hname hi := by
    have hi' : i < 4 := (List.getElem?_eq_some_iff.1 hi).1
    have hchecked : ∀ i < 4, ∀ name ∈ DESCRIPTION_ALIASES,
        statementHeaders[i]? = some name → i = 1 := by
      decide +kernel
    exact hchecked i hi' name hname hi
  debit_header := rfl
  credit_header := rfl

end Demo

open Demo in
/-- The record of the leap day denotes an entry. -/
theorem provisional_format_means_leap_day :
    ∃ record entry, (dataRecords statement)[0]? = some record ∧
      Denotes statementLayout record entry := by
  have hchecked : (parseCsvRecords statement).isOk = true ∧
      (parseTransactionImport asciiPlatform statement).isOk = true ∧
      csvHeaders asciiPlatform statement = statementHeaders ∧
      (provisionalDebitCreditAdapter asciiPlatform).matchesHeaders statementHeaders = true ∧
      (((parseTransactionImport asciiPlatform statement).toOption.bind fun rows ↦
        rowOf statementHeaders (dataRecords statement) rows 0).map ParsedImportRow.error) =
          some none ∧
      (dataRecords statement)[0]?.isSome = true := by
    decide +kernel
  obtain ⟨hparsed, haccepted, hnames, hmatch, hrow, hrecord⟩ := hchecked
  obtain ⟨records, hparse⟩ := exists_of_isOk hparsed
  obtain ⟨rows, hrows⟩ := exists_of_isOk haccepted
  have hheaders : headersOf asciiPlatform records = statementHeaders := by
    rw [← hnames, csvHeaders, hparse]
  have hdata : dataRecords statement = records.tail := by rw [dataRecords, hparse]
  rw [hrows] at hrow
  obtain ⟨row, hrow, herror⟩ := Option.map_eq_some_iff.1 hrow
  have hmeans := provisional_format_means asciiPlatform hparse (hheaders ▸ hmatch) hrows
  rw [hheaders] at hmeans
  obtain ⟨record, hrecord⟩ := Option.isSome_iff_exists.1 hrecord
  rw [hdata] at hrecord hrow
  obtain ⟨entry, hentry⟩ := ((hmeans statementLayout).1 0 record hrecord).1.1 ⟨row, hrow, herror⟩
  exact ⟨record, entry, hdata ▸ hrecord, hentry⟩

end Stead
