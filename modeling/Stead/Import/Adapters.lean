import Stead.Import.Csv

/-!
# Statement layouts

`toCanonicalImportCsv`: a text with the columns of Stead is rendered as it was read, one with debit
and credit columns is rewritten record by record (`adaptRecord`). Either way the text that comes
out is a rendering of `adaptedRecords`, so parsing it again gives those of them that are not blank
(`parseCsvRecords_adapted`).

## Headers

A header counts without the white space around it and without capitals, the first one also without
a byte-order mark. The layout with debit and credit columns is recognised by these two names and by
one of several names for the date and for the description.

## What is lost

Nothing is lost when Stead's own columns are there. The other layout loses the records that
`adaptRecord` leaves blank, which are the ones `keptRecord_adaptRecord` describes: those with no
date and no description, and with both or none of the amounts.

## The platform

Lower case beyond ASCII, the digest and the locale are those of the platform, of which nothing is
assumed but what it does with the letters of ASCII. White space is that of `String.prototype.trim`.
-/

namespace Stead

/-- What the import takes from the language runtime. -/
structure Platform where
  /-- `String.prototype.toLowerCase` -/
  toLowerCase : Text → Text
  /-- Unicode only adds to what it does with the letters of ASCII. -/
  toLowerCase_ascii : ∀ text : Text, (∀ c ∈ text, c.toNat < 128) →
    toLowerCase text = text.map Char.toLower
  /-- `toLocaleLowerCase('en-NG')` -/
  toLocaleLowerCase : Text → Text
  /-- `createHash('sha256').update(text).digest('hex')` -/
  sha256 : Text → ℕ

/-- The columns of Stead. -/
def CANONICAL_HEADERS : List Text :=
  ["date".toList, "description".toList, "amount".toList, "type".toList]

/-- The names of a date column -/
def DATE_ALIASES : List Text :=
  ["date".toList, "transaction date".toList, "value date".toList, "posting date".toList]

/-- and of a description column. -/
def DESCRIPTION_ALIASES : List Text :=
  ["description".toList, "narration".toList, "particulars".toList, "details".toList]

/-- The name of the column of what goes out, and a type of a transaction. -/
def DEBIT : Text := "debit".toList

/-- The name of the column of what comes in, and a type of a transaction. -/
def CREDIT : Text := "credit".toList

/-- `header.replace(/^\uFEFF/, '')` -/
def stripByteOrderMark (header : Text) : Text :=
  if header.head? = some '\uFEFF' then header.tail else header

/-- A header as it is compared; `index` is its place. -/
def normalizeHeader (platform : Platform) (index : ℕ) (header : Text) : Text :=
  platform.toLowerCase (trim (if index = 0 then stripByteOrderMark header else header))

/-- `records[0].map(normalizeHeader)` -/
def headersOf (platform : Platform) (records : List (List Text)) : List Text :=
  (records.headD []).mapIdx (normalizeHeader platform)

/-- The place of the first alias that is among the headers. -/
def findHeaderIndex (headers aliases : List Text) : Option ℕ :=
  aliases.findSome? fun name ↦ headers.idxOf? name

/-- `record[index] ?? ''` -/
def cellAt (record : List Text) (index : Option ℕ) : Text :=
  (index.bind fun i ↦ record[i]?).getD []

/-! ### Dates and amounts -/

/-- `\d{lo,hi}` -/
def digits (lo hi : ℕ) (text : Text) : Bool :=
  text.all Char.isDigit && decide (lo ≤ text.length) && decide (text.length ≤ hi)

/-- `/^\d{4}-\d{2}-\d{2}$/`, with what it matches. -/
def isoParts (text : Text) : Option (Text × Text × Text) :=
  match text.splitOn '-' with
  | [year, month, day] =>
    if digits 4 4 year && digits 2 2 month && digits 2 2 day then some (year, month, day) else none
  | _ => none

/-- `part.padStart(2, '0')` -/
def padTwo (part : Text) : Text := List.replicate (2 - part.length) '0' ++ part

/-- `/^(\d{1,2})\/(\d{1,2})\/(\d{4})$/` and the same with a dash, as an ISO date. -/
def dayFirst (separator : Char) (text : Text) : Option Text :=
  match text.splitOn separator with
  | [day, month, year] =>
    if digits 1 2 day && digits 1 2 month && digits 4 4 year then
      some (year ++ '-' :: padTwo month ++ '-' :: padTwo day)
    else none
  | _ => none

/-- `toIsoDate`: a date in one of the three forms, in the first of them, and otherwise the text
itself. -/
def toIsoDate (value : Text) : Text :=
  let trimmed := trim value
  if (isoParts trimmed).isSome then trimmed
  else ((dayFirst '/' trimmed).orElse fun _ ↦ dayFirst '-' trimmed).getD trimmed

/-- `text.replace(/^(?:NGN|₦)\s*/i, '')` -/
def stripCurrency (text : Text) : Text :=
  if (text.take 3).map Char.toLower = "ngn".toList then (text.drop 3).dropWhile isTrimmed
  else if text.head? = some '₦' then text.tail.dropWhile isTrimmed
  else text

/-- A cell with an amount: something is left of it without the currency. -/
def amountPresent (value : Text) : Bool := stripCurrency (trim value) ≠ []

/-! ### The adapters -/

/-- The amount and the type of a record with a debit and a credit cell. -/
def adaptAmount (debit credit : Text) : Text × Text :=
  if amountPresent credit && !amountPresent debit then (trim credit, CREDIT)
  else if amountPresent debit && !amountPresent credit then (trim debit, DEBIT)
  -- with both cells filled the amount is left blank for the canonical parser to complain about
  else ([], [])

/-- The cells of a record, as the canonical columns. -/
def adaptRecord (headers record : List Text) : List Text :=
  let amount := adaptAmount (cellAt record (headers.idxOf? DEBIT))
    (cellAt record (headers.idxOf? CREDIT))
  [toIsoDate (cellAt record (findHeaderIndex headers DATE_ALIASES)),
    cellAt record (findHeaderIndex headers DESCRIPTION_ALIASES), amount.1, amount.2]

/-- The layouts that are known. -/
inductive TransactionImportAdapterId where
  | steadCanonical
  | provisionalDebitCredit
  deriving DecidableEq

/-- An adapter: what it recognises and what it makes of the records. -/
structure TransactionImportAdapter where
  id : TransactionImportAdapterId
  matchesHeaders : List Text → Bool
  toCanonicalCsv : List (List Text) → Text

/-- Stead's own layout is rendered as it is. -/
def steadCanonicalAdapter : TransactionImportAdapter where
  id := .steadCanonical
  matchesHeaders headers := CANONICAL_HEADERS.all fun header ↦ headers.contains header
  toCanonicalCsv := renderCsv

/-- The layout with debits and credits is rewritten. -/
def provisionalDebitCreditAdapter (platform : Platform) : TransactionImportAdapter where
  id := .provisionalDebitCredit
  matchesHeaders headers :=
    !steadCanonicalAdapter.matchesHeaders headers &&
      (findHeaderIndex headers DATE_ALIASES).isSome &&
      (findHeaderIndex headers DESCRIPTION_ALIASES).isSome &&
      headers.contains DEBIT && headers.contains CREDIT
  toCanonicalCsv records :=
    ['\n'].intercalate ("date,description,amount,type".toList ::
      records.tail.map fun record ↦ renderRecord (adaptRecord (headersOf platform records) record))

/-- The adapters, in the order in which they are asked. -/
def transactionImportAdapters (platform : Platform) : List TransactionImportAdapter :=
  [steadCanonicalAdapter, provisionalDebitCreditAdapter platform]

/-- The adapter whose layout the headers have. -/
def findAdapter (platform : Platform) (headers : List Text) : Option TransactionImportAdapter :=
  (transactionImportAdapters platform).find? fun candidate ↦ candidate.matchesHeaders headers

/-- The rejection of a text without records, -/
def CSV_EMPTY : ImportFailure := .badRequest "CSV is empty"

/-- and of headers that no adapter knows. -/
def MISSING_COLUMNS : ImportFailure :=
  .badRequest "CSV must include these columns: date, description, amount, type"

/-- The text of an import in Stead's own layout. -/
def toCanonicalImportCsv (platform : Platform) (csv : Text) : Except ImportFailure Text :=
  match parseCsvRecords csv with
  | .error e => .error e
  | .ok records =>
    if records = [] then .error CSV_EMPTY
    else
      match findAdapter platform (headersOf platform records) with
      | none => .error MISSING_COLUMNS
      | some adapter => .ok (adapter.toCanonicalCsv records)

/-! ### What the adapters render -/

section Adapted

variable {platform : Platform} {headers record : List Text} {records : List (List Text)}
  {adapter : TransactionImportAdapter} {csv : Text}

/-- The records whose rendering an adapter returns. -/
def adaptedRecords (platform : Platform) (records : List (List Text)) :
    TransactionImportAdapterId → List (List Text)
  | .steadCanonical => records
  | .provisionalDebitCredit =>
    CANONICAL_HEADERS :: records.tail.map (adaptRecord (headersOf platform records))

/-- The adapter that is found is one of the two. -/
theorem mem_adapters_of_find (h : findAdapter platform headers = some adapter) :
    adapter = steadCanonicalAdapter ∨ adapter = provisionalDebitCreditAdapter platform := by
  have hmem := List.mem_of_find?_eq_some h
  simpa [transactionImportAdapters] using hmem

/-- What an adapter writes is a rendering. -/
theorem toCanonicalCsv_eq_render (h : findAdapter platform headers = some adapter) :
    adapter.toCanonicalCsv records = renderCsv (adaptedRecords platform records adapter.id) := by
  rcases mem_adapters_of_find h with rfl | rfl
  · rfl
  · have hheader : "date,description,amount,type".toList = renderRecord CANONICAL_HEADERS := by
      decide +kernel
    simp only [provisionalDebitCreditAdapter, adaptedRecords, renderCsv, List.map_cons,
      List.map_map, hheader]
    rfl

/-- Every record an adapter renders can be read back. -/
theorem writtenRecord_adapted (h : ∀ record ∈ records, keptRecord record = true)
    (id : TransactionImportAdapterId) :
    ∀ record ∈ adaptedRecords platform records id, WrittenRecord record := by
  intro record hrecord
  cases id with
  | steadCanonical => exact .of_kept (h record hrecord)
  | provisionalDebitCredit =>
    rcases List.mem_cons.1 hrecord with rfl | hmem
    · exact .of_kept (by decide +kernel)
    · obtain ⟨record, -, rfl⟩ := List.mem_map.1 hmem
      constructor <;> simp [adaptRecord]

theorem adaptedRecords_ne_nil (hne : records ≠ []) (id : TransactionImportAdapterId) :
    adaptedRecords platform records id ≠ [] := by
  cases id with
  | steadCanonical => exact hne
  | provisionalDebitCredit => exact List.cons_ne_nil _ _

/-- **The second parse** sees the adapted records that are not blank. -/
theorem parseCsvRecords_adapted (hparse : parseCsvRecords csv = .ok records) (hne : records ≠ [])
    (h : findAdapter platform headers = some adapter) :
    parseCsvRecords (adapter.toCanonicalCsv records) =
      .ok ((adaptedRecords platform records adapter.id).filter keptRecord) := by
  rw [toCanonicalCsv_eq_render h]
  exact parseCsvRecords_render (adaptedRecords_ne_nil hne _)
    (writtenRecord_adapted (mem_parseCsvRecords hparse) _)

/-- What an adapter wrote. -/
theorem toCanonicalImportCsv_ok {text : Text} (h : toCanonicalImportCsv platform csv = .ok text) :
    ∃ records adapter, parseCsvRecords csv = .ok records ∧ records ≠ [] ∧
      findAdapter platform (headersOf platform records) = some adapter ∧
      text = adapter.toCanonicalCsv records := by
  unfold toCanonicalImportCsv at h
  cases hparse : parseCsvRecords csv with
  | error e =>
    rw [hparse] at h
    cases h
  | ok records =>
    simp only [hparse] at h
    split at h
    · cases h
    · next hne =>
      split at h
      · cases h
      · next adapter hfind =>
        cases h
        exact ⟨records, adapter, rfl, hne, hfind, rfl⟩

/-- **Rendering and parsing** lose nothing: records that are not blank are read back, what was parsed
once is parsed again, and the second pass reads what the adapter wrote. -/
theorem csv_round_trip (platform : Platform) :
    (∀ records, (∀ record ∈ records, keptRecord record = true) →
      parseCsvRecords (renderCsv records) = .ok records) ∧
    (∀ csv records, parseCsvRecords csv = .ok records →
      parseCsvRecords (renderCsv records) = .ok records) ∧
    ∀ csv text, toCanonicalImportCsv platform csv = .ok text →
      ∃ records adapter, parseCsvRecords csv = .ok records ∧
        findAdapter platform (headersOf platform records) = some adapter ∧
        text = renderCsv (adaptedRecords platform records adapter.id) ∧
        parseCsvRecords text =
          .ok ((adaptedRecords platform records adapter.id).filter keptRecord) := by
  have hrender : ∀ records, (∀ record ∈ records, keptRecord record = true) →
      parseCsvRecords (renderCsv records) = .ok records := by
    intro records hkept
    cases records with
    | nil => rfl
    | cons record records =>
      rw [parseCsvRecords_render (List.cons_ne_nil _ _) fun r hr ↦ .of_kept (hkept r hr),
        List.filter_eq_self.2 hkept]
  refine ⟨hrender, fun csv records hparse ↦ hrender records (mem_parseCsvRecords hparse), ?_⟩
  intro csv text htext
  obtain ⟨records, adapter, hparse, hne, hfind, rfl⟩ := toCanonicalImportCsv_ok htext
  exact ⟨records, adapter, hparse, hfind, toCanonicalCsv_eq_render hfind,
    parseCsvRecords_adapted hparse hne hfind⟩

/-! ### Which records are left blank -/

theorem trim_eq_nil {value : Text} (h : nonblank value = false) : trim value = [] := by
  by_contra hne
  rw [← ne_eq, trim_ne_nil, h] at hne
  exact absurd hne Bool.false_ne_true

/-- A date that is rewritten is not blank. -/
theorem nonblank_dayFirst {separator : Char} {text date : Text}
    (h : dayFirst separator text = some date) : nonblank date = true := by
  unfold dayFirst at h
  split at h
  · split at h
    · cases h
      have hdash : ∀ rest, nonblank ('-' :: rest) = true := fun rest ↦ rfl
      rw [nonblank_append, hdash, Bool.or_true]
    · cases h
  · cases h

/-- A date is only blank when its cell is. -/
theorem nonblank_toIsoDate (value : Text) : nonblank (toIsoDate value) = nonblank value := by
  cases hvalue : nonblank value with
  | false =>
    rw [toIsoDate, trim_eq_nil hvalue]
    decide
  | true =>
    have htrim : nonblank (trim value) = true := by rw [nonblank_trim, hvalue]
    unfold toIsoDate
    dsimp only
    split
    · exact htrim
    · cases hslash : dayFirst '/' (trim value) with
      | some date => exact nonblank_dayFirst hslash
      | none =>
        cases hdash : dayFirst '-' (trim value) with
        | some date => exact nonblank_dayFirst hdash
        | none => exact htrim

/-- **A record is left blank** when its date and description are blank and not exactly one of its
debit and credit cells is filled. -/
theorem keptRecord_adaptRecord (headers record : List Text) :
    keptRecord (adaptRecord headers record) =
      (nonblank (cellAt record (findHeaderIndex headers DATE_ALIASES)) ||
        nonblank (cellAt record (findHeaderIndex headers DESCRIPTION_ALIASES)) ||
        (amountPresent (cellAt record (headers.idxOf? DEBIT)) ^^
          amountPresent (cellAt record (headers.idxOf? CREDIT)))) := by
  have hcredit : nonblank CREDIT = true := by decide
  have hdebit : nonblank DEBIT = true := by decide
  have hnil : nonblank [] = false := rfl
  simp only [keptRecord, adaptRecord, adaptAmount, List.any_cons, List.any_nil, nonblank_toIsoDate]
  cases amountPresent (cellAt record (headers.idxOf? DEBIT)) <;>
    cases amountPresent (cellAt record (headers.idxOf? CREDIT)) <;>
    simp [hcredit, hdebit, hnil]

end Adapted

end Stead
