import QuantDataCenter.Percentile.Pipeline
import QuantDataCenter.Tabular.Text

/-!
The update of the percentiles of many codes. One query over all parquet files of a
dataset directory tells which codes have a source; when the query raises, no code has
one.
-/

set_option autoImplicit false
set_option relaxedAutoImplicit false

namespace QuantDataCenter.Percentile

open QuantDataCenter.Lib QuantDataCenter.Tabular

/-! Directories -/

/-- A row of the source as it is stored; its date may be null. -/
structure StoredBar where
  date : Option CalendarDate
  value : ValuationField → Option ℚ

/-- A file that the pattern of the query matches: the `code=` directory it is in, its name, and its
rows, none if it is not a complete parquet file. -/
structure ParquetFile (ρ : Type) where
  code : String
  name : String
  rows : Option (List ρ)

/-- The directory of a dataset partitioned by code. -/
structure DatasetDir (ρ : Type) where
  present : Bool
  codes : List String
  files : List (ParquetFile ρ)
  absent : present = false → codes = [] ∧ files = []

structure Directories where
  source : DatasetDir StoredBar
  existing : DatasetDir PercentileRow
  checkpoints : String → CalendarDate × CalendarDate → Option Bool

section Files

variable {ρ : Type}

/-- What `read_dataset` finds for a code: no file, or a file that can or cannot be read. -/
def partitionRows (dir : DatasetDir ρ) (code : String) : Option (Option (List ρ)) :=
  (dir.files.find? fun f => f.code = strip code ∧ f.name = "data.parquet").map ParquetFile.rows

def datesOf (date : ρ → Option CalendarDate) (files : List (ParquetFile ρ)) :
    List (ParquetFile (Option CalendarDate)) :=
  files.map fun f => ⟨f.code, f.name, f.rows.map fun rows => rows.map date⟩

/-- `_resolve_source_codes`. -/
def resolveSourceCodes (requested : List String) (dir : DatasetDir ρ) : List String :=
  if requested ≠ [] then requested
  else if dir.present then Keyed.stableSort id dir.codes else []

end Files

/-! The query -/

abbrev DateRange := Option (CalendarDate × CalendarDate)

/-- `MIN(date)` and `MAX(date)` over the rows of a code; nothing for a code without rows. -/
def codeRange (files : List (ParquetFile (Option CalendarDate))) (code : String) :
    Option DateRange :=
  let dates := (files.filter fun f => f.code = code).flatMap fun f => f.rows.getD []
  if dates = [] then none else some (dateRange (dates.filterMap id))

/-- The grouped query over `read_parquet('**/*.parquet', hive_partitioning=true)`: it raises, or
returns the range of every code with rows. It does not return if a file cannot be read. -/
structure DuckDb where
  dateRanges : List (ParquetFile (Option CalendarDate)) → Option (List (String × DateRange))
  grouped : ∀ files out, dateRanges files = some out →
    ∀ code, out.lookup code = codeRange files code
  unreadable : ∀ files, (∃ f ∈ files, f.rows = none) → dateRanges files = none

private theorem codeRange_of_not_mem {files : List (ParquetFile (Option CalendarDate))}
    {code : String}
    (hcode : code ∉ files.map ParquetFile.code) : codeRange files code = none := by
  have hnone : (files.filter fun f => f.code = code) = [] := by
    rw [List.filter_eq_nil_iff]
    intro f hf
    rw [decide_eq_true_iff]
    rintro rfl
    exact hcode (List.mem_map_of_mem hf)
  unfold codeRange
  rw [hnone]
  rfl

private theorem lookup_ranges {ranges : String → Option DateRange} (codes : List String)
    (code : String) :
    (codes.filterMap fun c => (ranges c).map fun range => (c, range)).lookup code =
      if code ∈ codes then ranges code else none := by
  induction codes with
  | nil => rfl
  | cons c codes ih =>
    cases hc : ranges c with
    | none =>
      rw [List.filterMap_cons_none (by rw [hc]; rfl), ih]
      by_cases heq : code = c
      · rw [heq, hc, ite_self, ite_self]
      · simp [heq]
    | some range =>
      rw [List.filterMap_cons_some (by rw [hc]; rfl), List.lookup_cons]
      by_cases heq : code = c
      · simp [heq, hc]
      · have hne : (code == c) = false := beq_false_of_ne heq
        simp only [hne, ih, List.mem_cons, heq, false_or]

/-- A query that raises only if no file matches or one cannot be read. -/
def DuckDb.plain : DuckDb where
  dateRanges files :=
    if files = [] ∨ ∃ f ∈ files, f.rows = none then none
    else some ((files.map ParquetFile.code).dedup.filterMap fun code =>
      (codeRange files code).map fun range => (code, range))
  grouped := by
    intro files out hout code
    split at hout
    case isTrue => cases hout
    case isFalse =>
      obtain rfl := Option.some.inj hout
      rw [lookup_ranges]
      split
      case isTrue => rfl
      case isFalse hcode => exact (codeRange_of_not_mem fun hmem => hcode (List.mem_dedup.mpr hmem)).symm
  unreadable := by
    intro files hfile
    rw [if_pos (Or.inr hfile)]

section Run

structure TaskResult extends RunResult where
  ended : status ≠ .skippedMissingSource

/-- A run over codes: its options, and what the environment does. Bars without a date are outside
the computation of the percentiles; a task that meets them ends in some way. -/
structure BatchRun where
  mode : Mode := .incremental
  start : Option CalendarDate := none
  resume : Bool := true
  force : Bool := false
  today : CalendarDate
  requested : List String := []
  duck : DuckDb
  readable : String → Bool := fun _ => true
  write : String → WriteOutcome := fun _ => .done
  persisted : String → Bool := fun _ => true
  undated : String → TaskResult

/-- `_batch_read_date_ranges`: an exception gives no ranges. -/
def batchReadDateRanges {ρ : Type} (duck : DuckDb) (date : ρ → Option CalendarDate)
    (dir : DatasetDir ρ) : List (String × DateRange) :=
  if dir.present then (duck.dateRanges (datesOf date dir.files)).getD [] else []

/-- The task of a code, from the two ranges. -/
def prefilterCode (run : BatchRun) (w : World) (sourceRange existingRange : Option DateRange) :
    Prefiltered :=
  match sourceRange with
  | some (some (sourceStart, sourceEnd)) =>
    if run.resume = true ∧ run.force = false then
      let latest := existingRange.join.map Prod.snd
      let checkpointStart := checkpointStartDate run.mode run.start sourceStart latest
      if existingCoversSource run.mode run.start latest sourceEnd then .filtered
      else if w.stored.isSome ∧ w.checkpoints (checkpointStart, sourceEnd) = some true then .filtered
      else .task ⟨sourceEnd, some checkpointStart⟩
    else .task ⟨sourceEnd, none⟩
  | _ => .missingSource

/-- The files and checkpoints of the code of a directory. -/
def Directories.world (dirs : Directories) (code : String) : World where
  source := ((partitionRows dirs.source code).join.getD []).filterMap fun bar =>
    bar.date.map fun date => ⟨date, code, bar.value⟩
  stored := (partitionRows dirs.existing code).map fun rows => rows.getD []
  checkpoints := dirs.checkpoints code

/-- `_prefilter_valuation_percentile_tasks`. -/
def prefilterTasks (run : BatchRun) (dirs : Directories) (codes : List String) :
    List (String × Prefiltered) :=
  let sourceRanges := batchReadDateRanges run.duck StoredBar.date dirs.source
  let existingRanges := if run.mode = .full then []
    else batchReadDateRanges run.duck (fun row => some row.date) dirs.existing
  codes.map fun code => (code, prefilterCode run (dirs.world (strip code))
    (sourceRanges.lookup code) (existingRanges.lookup code))

/-- The run as the task of a code sees it. -/
def BatchRun.codeRun (run : BatchRun) (dirs : Directories) (code : String) : Run where
  mode := run.mode
  start := run.start
  resume := run.resume
  force := run.force
  today := run.today
  readable := run.readable code && (partitionRows dirs.source code).all Option.isSome &&
    (partitionRows dirs.existing code).all Option.isSome
  write := run.write code
  persisted := run.persisted code

/-- What happens to a code that the loop comes to; a code that was filtered is not in it. -/
def processCode (run : BatchRun) (dirs : Directories) (code : String) (w : World) :
    Prefiltered → Option RunResult
  | .missingSource =>
    let date := run.start.getD run.today
    some ⟨.skippedMissingSource, w.stored, some ((date, date), false)⟩
  | .filtered => none
  | .task task =>
    if ∀ bar ∈ (partitionRows dirs.source code).join.getD [], bar.date.isSome = true then
      some (runTask (run.codeRun dirs code) task w)
    else some (run.undated code).toRunResult

/-- The loop of `_update_baostock_valuation_percentile_impl`. -/
def processTasks (run : BatchRun) (dirs : Directories) :
    List (String × Prefiltered) → (String → World) → List (String × RunStatus) × (String → World)
  | [], worlds => ([], worlds)
  | (code, pre) :: tasks, worlds =>
    let w := worlds (strip code)
    match processCode run dirs code w pre with
    | none => processTasks run dirs tasks worlds
    | some result =>
      let checkpoints := match result.checkpoint with
        | some (key, success) => if run.persisted code then
            Function.update w.checkpoints key (some success) else w.checkpoints
        | none => w.checkpoints
      let rest := processTasks run dirs tasks (Function.update worlds (strip code)
        { w with stored := result.stored, checkpoints := checkpoints })
      ((code, result.status) :: rest.1, rest.2)

/-- `update_baostock_valuation_percentile`: the status of every code that is recorded, and the
state after the run; nothing if the options are refused. -/
def updateCodes (run : BatchRun) (dirs : Directories) :
    Option (List (String × RunStatus) × (String → World)) :=
  if run.mode = .incremental ∧ run.start.isSome ∧ run.force = false then none
  else some (processTasks run dirs
    (prefilterTasks run dirs (resolveSourceCodes run.requested dirs.source)) dirs.world)

end Run

/-! Which codes are said to have no source -/

section Missing

variable {run : BatchRun} {dirs : Directories}

/-- The code has no source file, or one without rows. -/
def SourceMissing (dirs : Directories) (code : String) : Prop :=
  partitionRows dirs.source code = none ∨ partitionRows dirs.source code = some (some [])

/-- One of the two queries of the run raises. -/
def QueryRaised (run : BatchRun) (dirs : Directories) : Prop :=
  (dirs.source.present = true ∧
    run.duck.dateRanges (datesOf StoredBar.date dirs.source.files) = none) ∨
  (run.mode ≠ .full ∧ dirs.existing.present = true ∧
    run.duck.dateRanges (datesOf (fun row => some row.date) dirs.existing.files) = none)

/-- A code is said to have no source only if it has none, and a query that raises is seen: a task
has failed, or every code with a source has been read on its own. -/
structure NeverHidden (run : BatchRun) (dirs : Directories)
    (records : List (String × RunStatus)) : Prop where
  missing : ∀ code, (code, .skippedMissingSource) ∈ records → SourceMissing dirs code
  reported : QueryRaised run dirs → (∃ code, (code, .failed) ∈ records) ∨
    ∀ code ∈ resolveSourceCodes run.requested dirs.source, ¬SourceMissing dirs code →
      (code, .skippedMissingSource) ∉ records

/-- The query returns, and the code is spelled as its directory, in which a file has a date. -/
def Listed (run : BatchRun) (dirs : Directories) (code : String) : Prop :=
  run.duck.dateRanges (datesOf StoredBar.date dirs.source.files) ≠ none ∧
    ∃ f ∈ dirs.source.files, f.code = code ∧ ∃ bar ∈ f.rows.getD [], bar.date ≠ none

private theorem dateRange_eq_none {dates : List CalendarDate} :
    dateRange dates = none ↔ dates = [] := by
  cases dates with
  | nil => exact ⟨fun _ => rfl, fun _ => rfl⟩
  | cons date dates => simp [dateRange, List.min?_cons, List.max?_cons]

private theorem codeRange_eq_some {files : List (ParquetFile (Option CalendarDate))}
    {code : String} :
    (∃ range, codeRange files code = some (some range)) ↔
      ∃ f ∈ files, f.code = code ∧ ∃ date, some date ∈ f.rows.getD [] := by
  have hdate : ∀ date, some date ∈ (files.filter fun f => f.code = code).flatMap
      (fun f => f.rows.getD []) ↔ ∃ f ∈ files, f.code = code ∧ some date ∈ f.rows.getD [] := by
    intro date
    simp only [List.mem_flatMap, List.mem_filter, decide_eq_true_iff, and_assoc]
  unfold codeRange
  simp only
  constructor
  · rintro ⟨range, hrange⟩
    split at hrange
    case isTrue => cases hrange
    case isFalse =>
      have hne : ((files.filter fun f => f.code = code).flatMap fun f => f.rows.getD []).filterMap id
          ≠ [] := by
        intro hnil
        rw [dateRange_eq_none.mpr hnil] at hrange
        cases hrange
      obtain ⟨date, hmem⟩ := List.exists_mem_of_ne_nil _ hne
      obtain ⟨cell, hcell, rfl⟩ := List.mem_filterMap.mp hmem
      obtain ⟨f, hf, hcode, hrow⟩ := (hdate date).mp hcell
      exact ⟨f, hf, hcode, date, hrow⟩
  · rintro ⟨f, hf, hcode, date, hrow⟩
    have hmem := (hdate date).mpr ⟨f, hf, hcode, hrow⟩
    rw [if_neg (List.ne_nil_of_mem hmem)]
    cases hrange : dateRange (((files.filter fun f => f.code = code).flatMap
      fun f => f.rows.getD []).filterMap id) with
    | some range => exact ⟨range, rfl⟩
    | none =>
      have hdates : date ∈ ((files.filter fun f => f.code = code).flatMap
          fun f => f.rows.getD []).filterMap id := List.mem_filterMap.mpr ⟨some date, hmem, rfl⟩
      rw [dateRange_eq_none.mp hrange] at hdates
      cases hdates

private theorem lookup_batchRead {code : String} :
    (∃ range, (batchReadDateRanges run.duck StoredBar.date dirs.source).lookup code =
      some (some range)) ↔ Listed run dirs code := by
  have hbars : (∃ f ∈ datesOf StoredBar.date dirs.source.files, f.code = code ∧
      ∃ date, some date ∈ f.rows.getD []) ↔
      ∃ f ∈ dirs.source.files, f.code = code ∧ ∃ bar ∈ f.rows.getD [], bar.date ≠ none := by
    unfold datesOf
    simp only [List.mem_map, exists_exists_and_eq_and]
    refine exists_congr fun f => and_congr_right fun _ => and_congr_right fun _ => ?_
    cases f.rows with
    | none => simp
    | some rows =>
      simp only [Option.map_some, Option.getD_some, List.mem_map, Option.ne_none_iff_exists']
      constructor
      · rintro ⟨date, bar, hbar, hdate⟩
        exact ⟨bar, hbar, date, hdate⟩
      · rintro ⟨bar, hbar, date, hdate⟩
        exact ⟨date, bar, hbar, hdate⟩
  unfold batchReadDateRanges Listed
  split
  case isFalse hpresent =>
    obtain ⟨-, hfiles⟩ := dirs.source.absent (by simpa using hpresent)
    simp [hfiles]
  case isTrue =>
    cases hquery : run.duck.dateRanges (datesOf StoredBar.date dirs.source.files) with
    | none => simp
    | some out =>
      rw [Option.getD_some, run.duck.grouped _ out hquery code, codeRange_eq_some, hbars]
      simp

private theorem runTask_ended (run : Run) (task : Task) (w : World) :
    (runTask run task w).status ≠ .skippedMissingSource := by
  unfold runTask
  simp only
  split
  · simp
  · split
    · split
      · simp
      · split <;> simp
    · simp

private theorem mem_processTasks {tasks : List (String × Prefiltered)} {worlds : String → World}
    {code : String} :
    (code, RunStatus.skippedMissingSource) ∈ (processTasks run dirs tasks worlds).1 ↔
      (code, Prefiltered.missingSource) ∈ tasks := by
  induction tasks generalizing worlds with
  | nil => simp [processTasks]
  | cons entry tasks ih =>
    obtain ⟨c, pre⟩ := entry
    unfold processTasks
    simp only
    cases pre with
    | filtered =>
      simp only [processCode, ih, List.mem_cons, Prod.mk.injEq, reduceCtorEq, and_false, false_or]
    | missingSource => simp only [processCode, List.mem_cons, ih, Prod.mk.injEq, and_true]
    | task task =>
      have hended : ∃ result, processCode run dirs c (worlds (strip c)) (.task task) = some result ∧
          result.status ≠ .skippedMissingSource := by
        simp only [processCode]
        split
        · exact ⟨_, rfl, runTask_ended _ _ _⟩
        · exact ⟨_, rfl, (run.undated c).ended⟩
      obtain ⟨result, hresult, hstatus⟩ := hended
      rw [hresult]
      simp only [List.mem_cons, ih, Prod.mk.injEq, reduceCtorEq, and_false, false_or,
        Ne.symm hstatus]

private theorem mem_prefilterTasks {codes : List String} {code : String} :
    (code, Prefiltered.missingSource) ∈ prefilterTasks run dirs codes ↔
      code ∈ codes ∧ ¬Listed run dirs code := by
  unfold prefilterTasks
  simp only [List.mem_map, Prod.mk.injEq]
  rw [← lookup_batchRead]
  constructor
  · rintro ⟨c, hc, rfl, hmissing⟩
    refine ⟨hc, ?_⟩
    rintro ⟨⟨first, last⟩, hrange⟩
    rw [hrange] at hmissing
    unfold prefilterCode at hmissing
    simp only at hmissing
    split_ifs at hmissing
  · rintro ⟨hc, hnone⟩
    refine ⟨code, hc, rfl, ?_⟩
    unfold prefilterCode
    split
    case h_1 first last hrange => exact absurd ⟨_, hrange⟩ hnone
    case h_2 => rfl

/-- Which runs hide no source: those in which every code that has one is listed by the query. -/
theorem missing_source_iff {out : List (String × RunStatus) × (String → World)}
    (accepted : updateCodes run dirs = some out) :
    NeverHidden run dirs out.1 ↔
      ∀ code ∈ resolveSourceCodes run.requested dirs.source, ¬SourceMissing dirs code →
        Listed run dirs code := by
  have hrecords : ∀ code, (code, .skippedMissingSource) ∈ out.1 ↔
      code ∈ resolveSourceCodes run.requested dirs.source ∧ ¬Listed run dirs code := by
    intro code
    unfold updateCodes at accepted
    split at accepted
    case isTrue => cases accepted
    case isFalse =>
      rw [← Option.some.inj accepted, mem_processTasks, mem_prefilterTasks]
  constructor
  · intro hnever code hcode hpresent
    by_contra hunlisted
    exact hpresent (hnever.missing code ((hrecords code).mpr ⟨hcode, hunlisted⟩))
  · intro hlisted
    refine ⟨fun code hrecord => ?_, fun _ => Or.inr fun code hcode hpresent hrecord => ?_⟩
    · by_contra hpresent
      obtain ⟨hcode, hunlisted⟩ := (hrecords code).mp hrecord
      exact hunlisted (hlisted code hcode hpresent)
    · exact ((hrecords code).mp hrecord).2 (hlisted code hcode hpresent)

/-- The tasks of one code on its own come from the ranges of its own rows. -/
theorem prefilter_eq (run : BatchRun) (single : Run) (w : World) (hmode : single.mode = run.mode)
    (hstart : single.start = run.start) (hresume : single.resume = run.resume)
    (hforce : single.force = run.force) :
    prefilter single w = prefilterCode run w
      (if single.sourceRangesRead then some (dateRange (w.source.map SourceRow.date)) else none)
      (if single.mode ≠ .full ∧ single.existingRangesRead = true then
        some (dateRange (storedDates w.stored)) else none) := by
  unfold prefilter prefilterCode
  rw [hmode, hstart, hresume, hforce]
  cases single.sourceRangesRead with
  | false => rfl
  | true =>
    cases dateRange (w.source.map SourceRow.date) with
    | none => rfl
    | some range =>
      by_cases hexisting : run.mode ≠ .full ∧ single.existingRangesRead = true
      · simp only [if_true, if_pos hexisting, Option.join_some]
      · simp only [if_true, if_neg hexisting, Option.join_none]

end Missing

/-! A code with a source, and a torn file of another code beside it -/

private theorem newYear_valid (day : ℕ) (h : 1 ≤ day ∧ day ≤ 31) :
    (1 ≤ 1 ∧ 1 ≤ 12) ∧ 1 ≤ day ∧ day ≤ daysInMonth 2024 1 :=
  ⟨⟨le_rfl, by decide⟩, h⟩

private theorem second_valid : (1 ≤ 1 ∧ 1 ≤ 12) ∧ 1 ≤ 2 ∧ 2 ≤ daysInMonth 2024 1 :=
  newYear_valid 2 ⟨by decide, by decide⟩

private theorem third_valid : (1 ≤ 1 ∧ 1 ≤ 12) ∧ 1 ≤ 3 ∧ 3 ≤ daysInMonth 2024 1 :=
  newYear_valid 3 ⟨by decide, by decide⟩

def plainRun : BatchRun where
  mode := .full
  today := ⟨2024, 1, 3, third_valid⟩
  requested := ["sh.600000"]
  duck := .plain
  undated _ := ⟨⟨.failed, none, none⟩, by simp⟩

def oneBar : StoredBar := ⟨some ⟨2024, 1, 2, second_valid⟩, fun _ => none⟩

/-- A source directory with the bar of one code and further files. -/
def dirsWith (more : List (ParquetFile StoredBar)) : Directories where
  source := ⟨true, ["sh.600000", "sz.000001"], ⟨"sh.600000", "data.parquet", some [oneBar]⟩ :: more,
    by simp⟩
  existing := ⟨false, [], [], by simp⟩
  checkpoints _ _ := none

theorem missing_source_iff_of_one_file :
    ∃ out, updateCodes plainRun (dirsWith []) = some out ∧
      (NeverHidden plainRun (dirsWith []) out.1 ↔
        ∀ code ∈ resolveSourceCodes plainRun.requested (dirsWith []).source,
          ¬SourceMissing (dirsWith []) code → Listed plainRun (dirsWith []) code) :=
  ⟨_, rfl, missing_source_iff rfl⟩

/-- A temporary file of another code that was left torn hides the source of the code. -/
theorem torn_neighbour_hides_source :
    ∃ out, updateCodes plainRun (dirsWith [⟨"sz.000001", "data.0.tmp.parquet", none⟩]) = some out ∧
      out.1 = [("sh.600000", .skippedMissingSource)] ∧
      ¬NeverHidden plainRun (dirsWith [⟨"sz.000001", "data.0.tmp.parquet", none⟩]) out.1 := by
  refine ⟨_, rfl, by decide +kernel, fun hnever => ?_⟩
  have hfound : (partitionRows (dirsWith [⟨"sz.000001", "data.0.tmp.parquet", none⟩]).source
      "sh.600000").map (fun rows => rows.map List.length) = some (some 1) := by decide +kernel
  rcases hnever.missing "sh.600000" (by decide +kernel) with hnone | hempty
  · rw [hnone] at hfound
    cases hfound
  · rw [hempty] at hfound
    cases hfound

end QuantDataCenter.Percentile
