import QuantDataCenter.Lib.Selection
import QuantDataCenter.Sources.SpotQuote
import QuantDataCenter.Storage.StoredContent

/-!
The candidates of the financial report module (`sources/akshare/sina/modules/financial_report_sina.py`):
what triggers a report period of a code in the two disclosure datasets, and which trigger of the
period counts.
-/

set_option autoImplicit false
set_option relaxedAutoImplicit false

namespace QuantDataCenter.Sources

open QuantDataCenter.Lib QuantDataCenter.Lib.Checked QuantDataCenter.Lib.Keyed
open QuantDataCenter.Lib.Selection QuantDataCenter.Tabular QuantDataCenter.Quality
open QuantDataCenter.Storage

/-- The settings of the dataset, and what `int` reads in a decimal digit outside ASCII. -/
structure FinancialReportConfig where
  closeAfterTime : ℕ := 18 * usPerHour
  incrementalLookbackDays : Int := 14
  pendingRetentionDays : Int := 30
  decimalValue : Char → ℕ := fun _ => 0

/-- `_effective_disclosure_date`. -/
def effectiveDisclosureDate (cfg : FinancialReportConfig) (now : LocalTime) : Int :=
  if cfg.closeAfterTime ≤ now.time then now.date + 1 else now.date

/-! Report periods -/

def daysBeforeMonth (year month : ℕ) : ℕ :=
  let leap := year % 4 = 0 ∧ (year % 100 ≠ 0 ∨ year % 400 = 0)
  [0, 31, 59, 90, 120, 151, 181, 212, 243, 273, 304, 334].getD (month - 1) 0 +
    if 2 < month ∧ leap then 1 else 0

/-- A date of the Gregorian calendar in days since 1970. -/
def dayOf (year month day : ℕ) : Int :=
  (365 * (year - 1) + (year - 1) / 4 - (year - 1) / 100 + (year - 1) / 400 +
    daysBeforeMonth year month + day : ℕ) - 719163

def reportPeriodEndDates : List (String × ℕ × ℕ) :=
  [("一季", 3, 31), ("半年报", 6, 30), ("三季", 9, 30), ("年报", 12, 31)]

section Candidates

variable (p : Pandas) (cfg : FinancialReportConfig)

/-- `int` of decimal digits. -/
def decimalNumber (digits : List Char) : ℕ :=
  digits.foldl (fun n c => 10 * n + if c.toNat < 128 then c.toNat - 48 else cfg.decimalValue c) 0

/-- `report_period_end_date`; `strptime` wants four decimal digits and a year from 1 on. -/
def reportPeriodEndDate (period : String) : Except StoreError Int :=
  let value := (strip period).toList
  let year := value.take 4
  match reportPeriodEndDates.find? fun e => e.1 == String.ofList (value.drop 4) with
  | some (_, month, day) =>
    if year = [] ∨ year.all p.isDigit = false then
      .error (.valueError ("Unsupported report disclosure period: " ++ period))
    else if year.length = 4 ∧ year.all p.isDecimal = true ∧ 0 < decimalNumber cfg year then
      .ok (dayOf (decimalNumber cfg year) month day)
    else .error (.valueError "time data does not match format '%Y-%m-%d'")
  | none => .error (.valueError ("Unsupported report disclosure period: " ++ period))

/-! Triggers -/

/-- `_datetime_series` on one row. -/
def datetimeSeries (df : Frame) (column : String) (r : Row) : Option Int :=
  if column ∈ df.columns then parsedDate p (r column) else none

/-- The trigger of a disclosure row and its priority: the actual date, the latest change, or the
date that was scheduled first. -/
def disclosureTrigger (df : Frame) (r : Row) : Option (Int × ℕ) :=
  match datetimeSeries p df "actual_disclosure_date" r with
  | some ns => some (ns, 3)
  | none =>
    match ["third_changed_date", "second_changed_date", "first_changed_date"].findSome?
      fun column => datetimeSeries p df column r with
    | some ns => some (ns, 2)
    | none => (datetimeSeries p df "first_scheduled_date" r).map fun ns => (ns, 1)

structure TriggerRecord where
  code : Cell
  reportPeriod : Cell
  triggerDate : Int
  triggerPriority : ℕ

def Triggered (effectiveDate : Int) (triggerStart : Option Int) (ns : Int) : Prop :=
  ns ≤ effectiveDate * nsPerDay ∧ ∀ start ∈ triggerStart, start * nsPerDay ≤ ns

instance (effectiveDate : Int) (triggerStart : Option Int) (ns : Int) :
    Decidable (Triggered effectiveDate triggerStart ns) := by
  unfold Triggered
  infer_instance

def disclosureCandidateRecords (effectiveDate : Int) (triggerStart : Option Int) (df : Frame) :
    List TriggerRecord :=
  df.rows.filterMap fun r =>
    match disclosureTrigger p df r with
    | none => none
    | some (ns, priority) =>
      if Triggered effectiveDate triggerStart ns then
        some ⟨r "code", r "report_period", ns / nsPerDay, priority⟩
      else none

/-- A row of the candidates and of the pending file. Dates are counted in days; their ISO texts,
which the code compares, are ordered in the same way. -/
structure CandidateRow where
  code : String
  reportPeriod : String
  periodEndDate : Int
  triggerDate : Int
  triggerPriority : ℕ
  triggerSource : String
  deriving DecidableEq

def CandidateRow.key (row : CandidateRow) : String ×ₗ String := toLex (row.code, row.reportPeriod)

/-- `_candidate_sort_key`. -/
def CandidateRow.sortKey (row : CandidateRow) : ℕ ×ₗ Int :=
  toLex (row.triggerPriority, row.triggerDate)

def candidateRow (source : String) (record : TriggerRecord) : Except StoreError CandidateRow := do
  let code ← normalizeAkshareCode p record.code
  let periodEnd ← reportPeriodEndDate p cfg (p.str record.reportPeriod)
  .ok ⟨code, p.str record.reportPeriod, periodEnd, record.triggerDate, record.triggerPriority, source⟩

/-- `_merge_candidate_rows`. -/
def mergeCandidateRows (rows : List CandidateRow) : List CandidateRow :=
  stableSort CandidateRow.key ((best CandidateRow.key CandidateRow.sortKey rows).map Prod.snd)

def disclosureDatasets : List (DatasetDefinition × String) :=
  [(akshareReportDisclosureDataset, "stock_report_disclosure"), (akshareYysjEmDataset, "stock_yysj_em")]

section Local

variable (reads : Derived.Reads) (st : Store)

/-- `_read_all_report_period_partitions`. -/
def readAllReportPeriodPartitions (d : DatasetDefinition) : Except StoreError (List Frame) :=
  ((reads.partitions d.id).filter fun value => (st.files d.id value).isSome).mapM
    (Derived.readPartition p reads st d)

variable (effectiveDate : Int) (triggerStart : Option Int)

def sourceCandidates (source : DatasetDefinition × String) : Except StoreError (List CandidateRow) := do
  let frames ← readAllReportPeriodPartitions p reads st source.1
  (frames.flatMap (disclosureCandidateRecords p effectiveDate triggerStart)).mapM
    (candidateRow p cfg source.2)

/-- `_local_disclosure_candidates` up to the merge. -/
def disclosureRows : Except StoreError (List CandidateRow) := do
  let rows ← disclosureDatasets.mapM (sourceCandidates p cfg reads st effectiveDate triggerStart)
  .ok rows.flatten

def localDisclosureCandidates : Except StoreError (List CandidateRow) := do
  let rows ← disclosureRows p cfg reads st effectiveDate triggerStart
  .ok (mergeCandidateRows rows)

end Local

end Candidates

/-! Merged rows -/

section Merge

variable {rows : List CandidateRow} {row : CandidateRow}

private theorem mem_mergeCandidateRows : row ∈ mergeCandidateRows rows ↔
    row ∈ (best CandidateRow.key CandidateRow.sortKey rows).map Prod.snd :=
  (stableSort_perm _ _).mem_iff

theorem mem_of_mem_merge (hrow : row ∈ mergeCandidateRows rows) : row ∈ rows :=
  mem_of_mem_best (mem_mergeCandidateRows.mp hrow)

theorem sortKey_le_of_mem_merge (hrow : row ∈ mergeCandidateRows rows) {other : CandidateRow}
    (hother : other ∈ rows) (hkey : other.key = row.key) : other.sortKey ≤ row.sortKey :=
  rank_le_of_mem_best (mem_mergeCandidateRows.mp hrow) hother hkey

theorem exists_mem_merge (hrow : row ∈ rows) :
    ∃ top ∈ mergeCandidateRows rows, top.key = row.key ∧ row.sortKey ≤ top.sortKey := by
  obtain ⟨top, htop, hkey, hle⟩ :=
    @exists_mem_best _ _ _ _ _ CandidateRow.key CandidateRow.sortKey rows row hrow
  exact ⟨top, mem_mergeCandidateRows.mpr htop, hkey, hle⟩

end Merge

/-! Windows. A window shows the rows of the whole whose trigger lies in it. -/

section Window

variable {p : Pandas} {cfg : FinancialReportConfig} {reads reads' : Derived.Reads} {st st' : Store}

def SameDisclosures (st st' : Store) : Prop :=
  ∀ source ∈ disclosureDatasets, ∀ value, st.files source.1.id value = st'.files source.1.id value

theorem disclosureDatasets_spec : ∀ source ∈ disclosureDatasets,
    source.1 ∈ datasetCatalog ∧ ∀ column ∈ ["actual_disclosure_date", "third_changed_date",
      "second_changed_date", "first_changed_date", "first_scheduled_date"],
      (⟨column, .date32⟩ : Field) ∈ source.1.schema := by
  intro source hsource
  simp only [disclosureDatasets, List.mem_cons, List.not_mem_nil, or_false] at hsource
  rcases hsource with rfl | rfl
  · exact ⟨by simp [datasetCatalog], by decide⟩
  · exact ⟨by simp [datasetCatalog], by decide⟩

theorem readPartition_agree {d : DatasetDefinition} {value : String} {df df' : Frame}
    (hsame : ∀ value, st.files d.id value = st'.files d.id value)
    (h : Derived.readPartition p reads st d value = .ok df)
    (h' : Derived.readPartition p reads' st' d value = .ok df') : df = df' := by
  obtain ⟨v, hv, h⟩ := bind_eq_ok.mp h
  obtain ⟨v', hv', h'⟩ := bind_eq_ok.mp h'
  obtain rfl : v = v' := Except.ok.inj (hv.symm.trans hv')
  unfold readDataset at h h'
  rw [← hsame v] at h'
  cases hfile : st.files d.id v with
  | none =>
    simp only [hfile] at h h'
    exact Except.ok.inj (h.symm.trans h')
  | some rows =>
    simp only [hfile] at h h'
    split at h
    case isTrue =>
      split at h'
      case isTrue => exact Except.ok.inj (h.symm.trans h')
      case isFalse => cases h'
    case isFalse => cases h

private theorem readPartition_date {d : DatasetDefinition} (hmem : d ∈ datasetCatalog)
    (hst : WellStored p st) {value : String} {df : Frame}
    (hread : Derived.readPartition p reads st d value = .ok df) {column : String}
    (hcolumn : (⟨column, .date32⟩ : Field) ∈ d.schema) {r : Row} (hr : r ∈ df.rows) {ns : Int}
    (hparsed : parsedDate p (r column) = some ns) : ∃ day, ns = day * nsPerDay := by
  obtain ⟨v, -, hread⟩ := bind_eq_ok.mp hread
  obtain ⟨hrows, -⟩ := readDataset_rows (wellFormed_of_mem hmem) (hst d hmem v) hread
  rw [hrows] at hr
  have haccepts := (content_stored (hst d hmem v) r hr).1.accepts _ hcolumn
  cases hcell : r column with
  | null =>
    rw [hcell] at hparsed
    cases hparsed
  | date day =>
    rw [hcell] at hparsed
    change p.toDatetime (.date day) = some ns at hparsed
    rw [p.toDatetime_date] at hparsed
    exact ⟨day, (Option.some.inj hparsed).symm⟩
  | _ => simp [FieldType.accepts, hcell] at haccepts

private theorem disclosureTrigger_column {df : Frame} {r : Row} {ns : Int} {priority : ℕ}
    (htrigger : disclosureTrigger p df r = some (ns, priority)) :
    ∃ column ∈ ["actual_disclosure_date", "third_changed_date", "second_changed_date",
      "first_changed_date", "first_scheduled_date"], parsedDate p (r column) = some ns := by
  have hseries : ∀ {column : String} {ns : Int}, datetimeSeries p df column r = some ns →
      parsedDate p (r column) = some ns := by
    intro column ns hcolumn
    unfold datetimeSeries at hcolumn
    split at hcolumn
    · exact hcolumn
    · cases hcolumn
  unfold disclosureTrigger at htrigger
  split at htrigger
  case h_1 hactual =>
    obtain ⟨rfl, -⟩ := Prod.mk.inj (Option.some.inj htrigger)
    exact ⟨_, List.mem_cons_self, hseries hactual⟩
  case h_2 =>
    split at htrigger
    case h_1 hchanged =>
      obtain ⟨rfl, -⟩ := Prod.mk.inj (Option.some.inj htrigger)
      obtain ⟨column, hcolumn, hvalue⟩ := List.exists_of_findSome?_eq_some hchanged
      refine ⟨column, List.mem_cons_of_mem _ ?_, hseries hvalue⟩
      exact List.mem_append_left ["first_scheduled_date"] hcolumn
    case h_2 =>
      obtain ⟨ns', hscheduled, heq⟩ := Option.map_eq_some_iff.mp htrigger
      obtain ⟨rfl, -⟩ := Prod.mk.inj heq
      exact ⟨_, by simp, hseries hscheduled⟩

theorem mem_disclosureCandidateRecords {effectiveDate : Int} {triggerStart : Option Int}
    {df : Frame} {record : TriggerRecord} :
    record ∈ disclosureCandidateRecords p effectiveDate triggerStart df ↔
      ∃ r ∈ df.rows, ∃ ns priority, disclosureTrigger p df r = some (ns, priority) ∧
        Triggered effectiveDate triggerStart ns ∧
        record = ⟨r "code", r "report_period", ns / nsPerDay, priority⟩ := by
  unfold disclosureCandidateRecords
  rw [List.mem_filterMap]
  refine exists_congr fun r => and_congr_right fun _ => ?_
  cases htrigger : disclosureTrigger p df r with
  | none => simp
  | some trigger =>
    obtain ⟨ns, priority⟩ := trigger
    simp only [Option.ite_none_right_eq_some, Option.some.injEq, Prod.mk.injEq]
    constructor
    · rintro ⟨hin, rfl⟩
      exact ⟨ns, priority, ⟨rfl, rfl⟩, hin, rfl⟩
    · rintro ⟨_, _, ⟨rfl, rfl⟩, hin, rfl⟩
      exact ⟨hin, rfl⟩

private theorem mem_records_window {df : Frame}
    (hmidnight : ∀ r ∈ df.rows, ∀ ns priority, disclosureTrigger p df r = some (ns, priority) →
      ∃ day, ns = day * nsPerDay) {date last : Int} {start : Option Int} (hle : date ≤ last)
    {record : TriggerRecord} :
    record ∈ disclosureCandidateRecords p date start df ↔
      record ∈ disclosureCandidateRecords p last none df ∧ record.triggerDate ≤ date ∧
        ∀ s ∈ start, s ≤ record.triggerDate := by
  have hpos : (0 : Int) < nsPerDay := by decide
  rw [mem_disclosureCandidateRecords, mem_disclosureCandidateRecords]
  constructor
  · rintro ⟨r, hr, ns, priority, htrigger, ⟨hdate, hstart⟩, rfl⟩
    obtain ⟨day, rfl⟩ := hmidnight r hr ns priority htrigger
    have hday : day * nsPerDay / nsPerDay = day := Int.mul_ediv_cancel day (by decide)
    have hwhole : Triggered last none (day * nsPerDay) := by
      refine ⟨hdate.trans (Int.mul_le_mul_of_nonneg_right hle hpos.le), fun s hs => ?_⟩
      cases hs
    refine ⟨⟨r, hr, _, priority, htrigger, hwhole, rfl⟩, ?_, fun s hs => ?_⟩
    · rw [hday]
      exact le_of_mul_le_mul_right hdate hpos
    · rw [hday]
      exact le_of_mul_le_mul_right (hstart s hs) hpos
  · rintro ⟨⟨r, hr, ns, priority, htrigger, -, rfl⟩, hdate, hstart⟩
    obtain ⟨day, rfl⟩ := hmidnight r hr ns priority htrigger
    have hday : day * nsPerDay / nsPerDay = day := Int.mul_ediv_cancel day (by decide)
    simp only [hday] at hdate hstart
    refine ⟨r, hr, _, priority, htrigger, ⟨?_, fun s hs => ?_⟩, rfl⟩
    · exact Int.mul_le_mul_of_nonneg_right hdate hpos.le
    · exact Int.mul_le_mul_of_nonneg_right (hstart s hs) hpos.le

private theorem candidateRow_date {source : String} {record : TriggerRecord} {row : CandidateRow}
    (hrow : candidateRow p cfg source record = .ok row) : row.triggerDate = record.triggerDate := by
  obtain ⟨code, -, hrow⟩ := bind_eq_ok.mp hrow
  obtain ⟨periodEnd, -, hrow⟩ := bind_eq_ok.mp hrow
  rw [← Except.ok.inj hrow]

theorem readAll_midnight {d : DatasetDefinition × String} (hd : d ∈ disclosureDatasets)
    (hst : WellStored p st) {frames : List Frame}
    (hframes : readAllReportPeriodPartitions p reads st d.1 = .ok frames) {df : Frame}
    (hdf : df ∈ frames) {r : Row} (hr : r ∈ df.rows) {ns : Int} {priority : ℕ}
    (htrigger : disclosureTrigger p df r = some (ns, priority)) : ∃ day, ns = day * nsPerDay := by
  obtain ⟨hmem, hdates⟩ := disclosureDatasets_spec d hd
  obtain ⟨value, -, hread⟩ := mem_of_mem_mapM_eq_ok hframes hdf
  obtain ⟨column, hcolumn, hparsed⟩ := disclosureTrigger_column htrigger
  exact readPartition_date hmem hst hread (hdates column hcolumn) hr hparsed

private theorem mem_sourceCandidates_window {source : DatasetDefinition × String}
    (hsource : source ∈ disclosureDatasets) (hst : WellStored p st)
    (hsame : SameDisclosures st st') (hlisting : reads.partitions = reads'.partitions)
    {date last : Int} {start : Option Int} (hle : date ≤ last) {rows all : List CandidateRow}
    (hrows : sourceCandidates p cfg reads st date start source = .ok rows)
    (hall : sourceCandidates p cfg reads' st' last none source = .ok all) {row : CandidateRow} :
    row ∈ rows ↔ row ∈ all ∧ row.triggerDate ≤ date ∧ ∀ s ∈ start, s ≤ row.triggerDate := by
  obtain ⟨frames, hframes, hrows⟩ := bind_eq_ok.mp hrows
  obtain ⟨frames', hframes', hall⟩ := bind_eq_ok.mp hall
  obtain rfl : frames = frames' := by
    have hagree := hframes'
    unfold readAllReportPeriodPartitions at hframes hagree
    have hlist : ((reads'.partitions source.1.id).filter fun value =>
        (st'.files source.1.id value).isSome) = (reads.partitions source.1.id).filter fun value =>
          (st.files source.1.id value).isSome := by
      rw [hlisting]
      exact List.filter_congr fun value _ => by rw [hsame source hsource value]
    rw [hlist] at hagree
    exact mapM_agree (fun value _ df df' => readPartition_agree (hsame source hsource)) hframes hagree
  have hrecords : ∀ record,
      record ∈ frames.flatMap (disclosureCandidateRecords p date start) ↔
        record ∈ frames.flatMap (disclosureCandidateRecords p last none) ∧
          record.triggerDate ≤ date ∧ ∀ s ∈ start, s ≤ record.triggerDate := by
    intro record
    simp only [List.mem_flatMap]
    constructor
    · rintro ⟨df, hdf, hrecord⟩
      obtain ⟨hwhole, hin⟩ := (mem_records_window (fun r hr ns priority =>
        readAll_midnight hsource hst hframes hdf hr) hle).mp hrecord
      exact ⟨⟨df, hdf, hwhole⟩, hin⟩
    · rintro ⟨⟨df, hdf, hwhole⟩, hin⟩
      exact ⟨df, hdf, (mem_records_window (fun r hr ns priority =>
        readAll_midnight hsource hst hframes hdf hr) hle).mpr ⟨hwhole, hin⟩⟩
  constructor
  · intro hrow
    obtain ⟨record, hrecord, hmade⟩ := mem_of_mem_mapM_eq_ok hrows hrow
    obtain ⟨hwhole, hin⟩ := (hrecords record).mp hrecord
    obtain ⟨row', hrow', hmade'⟩ := mem_of_mapM_eq_ok hall hwhole
    obtain rfl := Except.ok.inj (hmade.symm.trans hmade')
    rw [candidateRow_date hmade]
    exact ⟨hrow', hin⟩
  · rintro ⟨hrow, hin⟩
    obtain ⟨record, hrecord, hmade⟩ := mem_of_mem_mapM_eq_ok hall hrow
    rw [candidateRow_date hmade] at hin
    obtain ⟨row', hrow', hmade'⟩ := mem_of_mapM_eq_ok hrows ((hrecords record).mpr ⟨hrecord, hin⟩)
    obtain rfl := Except.ok.inj (hmade.symm.trans hmade')
    exact hrow'

/-- The rows that a window shows are those of the whole that lie in it. -/
theorem mem_disclosureRows_window (hst : WellStored p st) (hsame : SameDisclosures st st')
    (hlisting : reads.partitions = reads'.partitions) {date last : Int} {start : Option Int}
    (hle : date ≤ last) {rows all : List CandidateRow}
    (hrows : disclosureRows p cfg reads st date start = .ok rows)
    (hall : disclosureRows p cfg reads' st' last none = .ok all) {row : CandidateRow} :
    row ∈ rows ↔ row ∈ all ∧ row.triggerDate ≤ date ∧ ∀ s ∈ start, s ≤ row.triggerDate := by
  obtain ⟨parts, hparts, hrows⟩ := bind_eq_ok.mp hrows
  obtain ⟨parts', hparts', hall⟩ := bind_eq_ok.mp hall
  obtain rfl := Except.ok.inj hrows
  obtain rfl := Except.ok.inj hall
  simp only [List.mem_flatten]
  constructor
  · rintro ⟨part, hpart, hrow⟩
    obtain ⟨source, hsource, hmade⟩ := mem_of_mem_mapM_eq_ok hparts hpart
    obtain ⟨part', hpart', hmade'⟩ := mem_of_mapM_eq_ok hparts' hsource
    obtain ⟨hrow', hin⟩ :=
      (mem_sourceCandidates_window hsource hst hsame hlisting hle hmade hmade').mp hrow
    exact ⟨⟨part', hpart', hrow'⟩, hin⟩
  · rintro ⟨⟨part, hpart, hrow⟩, hin⟩
    obtain ⟨source, hsource, hmade⟩ := mem_of_mem_mapM_eq_ok hparts' hpart
    obtain ⟨part', hpart', hmade'⟩ := mem_of_mapM_eq_ok hparts hsource
    exact ⟨part', hpart',
      (mem_sourceCandidates_window hsource hst hsame hlisting hle hmade' hmade).mpr ⟨hrow, hin⟩⟩

private theorem sourceCandidates_congr {source : DatasetDefinition × String}
    (hsame : ∀ value, st.files source.1.id value = st'.files source.1.id value) {date : Int}
    {start : Option Int} :
    sourceCandidates p cfg reads st date start source =
      sourceCandidates p cfg reads st' date start source := by
  have hread : Derived.readPartition p reads st source.1 = Derived.readPartition p reads st' source.1 := by
    funext value
    unfold Derived.readPartition readDataset
    simp only [hsame]
  unfold sourceCandidates readAllReportPeriodPartitions
  rw [hread]
  simp only [hsame]

theorem disclosureRows_congr (hsame : SameDisclosures st st') {date : Int} {start : Option Int} :
    disclosureRows p cfg reads st date start = disclosureRows p cfg reads st' date start := by
  unfold disclosureRows
  have hsources : disclosureDatasets.mapM (sourceCandidates p cfg reads st date start) =
      disclosureDatasets.mapM (sourceCandidates p cfg reads st' date start) :=
    mapM_congr fun source hsource => sourceCandidates_congr (hsame source hsource)
  rw [hsources]

/-- If the whole can be read, so can every window of it. -/
theorem disclosureRows_window (hst : WellStored p st) {date last : Int} {start : Option Int}
    (hle : date ≤ last) {all : List CandidateRow}
    (hall : disclosureRows p cfg reads st last none = .ok all) :
    ∃ rows, disclosureRows p cfg reads st date start = .ok rows := by
  obtain ⟨parts, hparts, -⟩ := bind_eq_ok.mp hall
  have hevery : ∀ source ∈ disclosureDatasets,
      ∃ rows, sourceCandidates p cfg reads st date start source = .ok rows := by
    intro source hsource
    obtain ⟨part, -, hmade⟩ := mem_of_mapM_eq_ok hparts hsource
    obtain ⟨frames, hframes, hmade⟩ := bind_eq_ok.mp hmade
    have hrows : ∀ record ∈ frames.flatMap (disclosureCandidateRecords p date start),
        ∃ row, candidateRow p cfg source.2 record = .ok row := by
      intro record hrecord
      obtain ⟨df, hdf, hrecord⟩ := List.mem_flatMap.mp hrecord
      have hwhole := ((mem_records_window (fun r hr ns priority =>
        readAll_midnight hsource hst hframes hdf hr) hle).mp hrecord).1
      obtain ⟨row, -, hrow⟩ := mem_of_mapM_eq_ok hmade (List.mem_flatMap.mpr ⟨df, hdf, hwhole⟩)
      exact ⟨row, hrow⟩
    obtain ⟨rows, hout⟩ := exists_mapM_eq_ok hrows
    exact ⟨rows, bind_eq_ok.mpr ⟨frames, hframes, hout⟩⟩
  obtain ⟨out, hout⟩ := exists_mapM_eq_ok hevery
  exact ⟨out.flatten, bind_eq_ok.mpr ⟨out, hout, rfl⟩⟩

theorem candidateRow_spec {source : String} {record : TriggerRecord} {row : CandidateRow}
    (hrow : candidateRow p cfg source record = .ok row) :
    (∃ c, normalizeAkshareCode p c = .ok row.code) ∧
      reportPeriodEndDate p cfg row.reportPeriod = .ok row.periodEndDate := by
  obtain ⟨code, hcode, hrow⟩ := bind_eq_ok.mp hrow
  obtain ⟨periodEnd, hperiod, hrow⟩ := bind_eq_ok.mp hrow
  obtain rfl := Except.ok.inj hrow
  exact ⟨⟨record.code, hcode⟩, hperiod⟩

theorem disclosureRows_spec {date : Int} {start : Option Int} {rows : List CandidateRow}
    (hrows : disclosureRows p cfg reads st date start = .ok rows) {row : CandidateRow}
    (hrow : row ∈ rows) :
    (∃ c, normalizeAkshareCode p c = .ok row.code) ∧
      reportPeriodEndDate p cfg row.reportPeriod = .ok row.periodEndDate := by
  obtain ⟨parts, hparts, hrows⟩ := bind_eq_ok.mp hrows
  obtain rfl := Except.ok.inj hrows
  obtain ⟨part, hpart, hrow⟩ := List.mem_flatten.mp hrow
  obtain ⟨source, -, hmade⟩ := mem_of_mem_mapM_eq_ok hparts hpart
  obtain ⟨frames, -, hmade⟩ := bind_eq_ok.mp hmade
  obtain ⟨record, -, hmade⟩ := mem_of_mem_mapM_eq_ok hmade hrow
  exact candidateRow_spec hmade

end Window

end QuantDataCenter.Sources
