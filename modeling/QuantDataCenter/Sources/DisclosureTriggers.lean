import QuantDataCenter.Sources.FinancialReport

/-!
No trigger is lost over incremental runs of the financial report module. A trigger before the
recorded date has its period stored or waits in the pending file; any other is in the window.
-/

set_option autoImplicit false
set_option relaxedAutoImplicit false

namespace QuantDataCenter.Sources

open QuantDataCenter.Lib.Checked QuantDataCenter.Lib.Transition QuantDataCenter.Tabular
open QuantDataCenter.Storage

def Queued (trigger : CandidateRow) (pending : MetadataFile (List CandidateRow)) : Prop :=
  ∃ rows, pending = .holds rows ∧
    ∃ row ∈ rows, row.key = trigger.key ∧ row.sortKey = trigger.sortKey

/-- The period of the trigger is stored, or the trigger is queued. -/
def SettledTrigger (p : Pandas) (trigger : CandidateRow) (disk : ReportDisk) : Prop :=
  StoredPeriod p disk.store trigger.code trigger.periodEndDate ∨ Queued trigger disk.pending

/-- A task of the run is to fetch the period of the trigger. -/
def OutstandingTrigger (trigger : CandidateRow) (tasks : List FinancialReportTask) : Prop :=
  ∃ task ∈ tasks, task.code = trigger.code ∧ trigger.reportPeriod ∈ task.targetPeriods ∧
    ∃ row ∈ task.triggerRows, row.key = trigger.key ∧ row.sortKey = trigger.sortKey

/-- The run may have left the code out: by its code filter, or by a limit that it reached. -/
def LeavesOut (p : Pandas) (code : String) (run : ActiveReportRun) : Prop :=
  ¬Requests p run.request code ∨ ∃ limit, run.request.maxTasks = some limit ∧
    limit ≤ run.planned.length ∧ code ∉ run.planned.map FinancialReportTask.code

def lookback (cfg : FinancialReportConfig) : Int := max cfg.incrementalLookbackDays 0

def retention (cfg : FinancialReportConfig) : Int := max cfg.pendingRetentionDays 0

def ReportEvent.metadataWrite : ReportEvent → Option MetadataWrite
  | .plan _ _ _ write | .record _ (.response _ _ write _) | .complete _ write => some write
  | _ => none

/-- A run records its date only if it has not left the code out, at most a day ahead of its plan,
and for the first time only with the trigger in its window. -/
def RecordsSafely (p : Pandas) (cfg : FinancialReportConfig) (trigger : CandidateRow)
    (w : ReportWorld) (now : LocalTime) : Prop :=
  ∀ run ∈ w.run, run.failed = 0 →
    ¬LeavesOut p trigger.code run ∧ effectiveDisclosureDate cfg now ≤ run.effectiveDate + 1 ∧
      (w.disk.state = .absent → run.effectiveDate - lookback cfg ≤ trigger.triggerDate)

/-- A response of the code with rows has the period if it is stored. -/
def KeepsPeriod (p : Pandas) (trigger : CandidateRow) (st : Store) (code : String) (data : Frame) :
    Prop :=
  code = trigger.code → StoredPeriod p st trigger.code trigger.periodEndDate →
    (data.rows = [] ∨ data.columns = []) ∨ trigger.periodEndDate ∈ presentPeriodEndDates p data

/-- What an event has to be like for the trigger: no metadata file is torn, the provider does not
take the period back, and dates are recorded safely. -/
def KeepsTrigger (p : Pandas) (cfg : FinancialReportConfig) (trigger : CandidateRow)
    (w : ReportWorld) (event : ReportEvent) : Prop :=
  event.metadataWrite ≠ some .torn ∧
    match event with
    | .record task (.response data _ _ _) => KeepsPeriod p trigger w.disk.store task.code data
    | .complete now _ => RecordsSafely p cfg trigger w now
    | _ => True

def planDate (cfg : FinancialReportConfig) : ReportEvent → Option Int
  | .plan _ now _ _ => some (effectiveDisclosureDate cfg now)
  | _ => none

def freshReports (st : Store) : ReportWorld := ⟨⟨st, .absent, .absent⟩, none⟩

/-! The trigger among the rows of the disclosures -/

/-- The local disclosures and the trigger that counts for its period on the last date; it is not
too old to be kept then. -/
structure Disclosed (p : Pandas) (cfg : FinancialReportConfig) (partitions : String → List String)
    (st : Store) (last : Int) (all : List CandidateRow) (trigger : CandidateRow) : Prop where
  nullLike : ∀ s ∈ nullLikeValues, p.toDatetime (.text s) = none
  stored : WellStored p st
  rows : ∃ io, disclosureRows p cfg ⟨partitions, io⟩ st last none = .ok all
  merged : trigger ∈ mergeCandidateRows all
  recent : last - retention cfg ≤ trigger.triggerDate

/-- Rows that come from the disclosures, with triggers up to the date. -/
def FromDisclosures (all : List CandidateRow) (date : Int) (rows : List CandidateRow) : Prop :=
  ∀ row ∈ rows, row ∈ all ∧ row.triggerDate ≤ date

section Rows

variable {p : Pandas} {cfg : FinancialReportConfig} {partitions : String → List String}
  {st : Store} {last : Int} {all : List CandidateRow} {trigger : CandidateRow}

private theorem key_eq_iff {row row' : CandidateRow} :
    row.key = row'.key ↔ row.code = row'.code ∧ row.reportPeriod = row'.reportPeriod := by
  unfold CandidateRow.key
  rw [EmbeddingLike.apply_eq_iff_eq, Prod.mk.injEq]

private theorem triggerDate_of_sortKey {row row' : CandidateRow}
    (hsort : row.sortKey = row'.sortKey) :
    row.triggerDate = row'.triggerDate := by
  unfold CandidateRow.sortKey at hsort
  rw [EmbeddingLike.apply_eq_iff_eq, Prod.mk.injEq] at hsort
  exact hsort.2

namespace Disclosed

variable (hd : Disclosed p cfg partitions st last all trigger)
include hd

theorem path {row : CandidateRow} (hrow : row ∈ all) : reportPath p row.code = .ok row.code := by
  obtain ⟨io, hrows⟩ := hd.rows
  obtain ⟨⟨c, hcode⟩, -⟩ := disclosureRows_spec hrows hrow
  exact reportPath_of_normalized hcode

theorem period {row : CandidateRow} (hrow : row ∈ all) :
    reportPeriodEndDate p cfg row.reportPeriod = .ok row.periodEndDate := by
  obtain ⟨io, hrows⟩ := hd.rows
  exact (disclosureRows_spec hrows hrow).2

theorem mem : trigger ∈ all := mem_of_mem_merge hd.merged

private theorem sortKey_le {row : CandidateRow} (hrow : row ∈ all) (hkey : row.key = trigger.key) :
    row.sortKey ≤ trigger.sortKey :=
  sortKey_le_of_mem_merge hd.merged hrow hkey

private theorem periodEnd_eq {row : CandidateRow} (hrow : row ∈ all)
    (hkey : row.key = trigger.key) :
    row.periodEndDate = trigger.periodEndDate := by
  have hperiod := hd.period hrow
  rw [(key_eq_iff.mp hkey).2, hd.period hd.mem] at hperiod
  exact (Except.ok.inj hperiod).symm

/-- Merging keeps a row that ranks with the trigger. -/
private theorem exists_merged {rows : List CandidateRow} (hrows : ∀ row ∈ rows, row ∈ all)
    (hrow : ∃ row ∈ rows, row.key = trigger.key ∧ row.sortKey = trigger.sortKey) :
    ∃ row ∈ mergeCandidateRows rows, row.key = trigger.key ∧ row.sortKey = trigger.sortKey := by
  obtain ⟨row, hrow, hkey, hsort⟩ := hrow
  obtain ⟨top, htop, htopkey, hle⟩ := exists_mem_merge hrow
  have htrigger : top.key = trigger.key := htopkey.trans hkey
  refine ⟨top, htop, htrigger, le_antisymm ?_ ?_⟩
  · exact hd.sortKey_le (hrows top (mem_of_mem_merge htop)) htrigger
  · rw [← hsort]
    exact hle

end Disclosed

end Rows

/-! The invariant -/

/-- What holds of the disk between two events, when all plans so far were up to the date. -/
structure DiskInv (p : Pandas) (st : Store) (all : List CandidateRow) (trigger : CandidateRow)
    (date : Int) (disk : ReportDisk) : Prop where
  stored : WellStored p disk.store
  disclosures : SameDisclosures disk.store st
  pending : ∀ rows, disk.pending = .holds rows → FromDisclosures all date rows
  readable : disk.pending ≠ .torn ∧ disk.state ≠ .torn
  recorded : ∀ day, disk.state = .holds day → trigger.triggerDate < day →
    SettledTrigger p trigger disk

/-- What holds of a run. If it can still record its date and has seen the trigger, the trigger is
settled or a task of the run is about it. -/
structure RunInv (p : Pandas) (cfg : FinancialReportConfig) (all : List CandidateRow)
    (trigger : CandidateRow) (date : Int) (disk : ReportDisk) (run : ActiveReportRun) : Prop where
  tasks : ∀ task ∈ run.outstanding, TaskOf p all task ∧ FromDisclosures all date task.triggerRows
  circuit : run.circuitOpen = true → 0 < run.failed
  progress : run.failed = 0 → ¬LeavesOut p trigger.code run →
    (disk.state = .absent → run.effectiveDate - lookback cfg ≤ trigger.triggerDate) →
    trigger.triggerDate ≤ run.effectiveDate →
    SettledTrigger p trigger disk ∨ OutstandingTrigger trigger run.outstanding

structure TriggerInv (p : Pandas) (cfg : FinancialReportConfig) (st : Store)
    (all : List CandidateRow) (trigger : CandidateRow) (date : Int) (w : ReportWorld) : Prop where
  disk : DiskInv p st all trigger date w.disk
  run : ∀ run ∈ w.run, RunInv p cfg all trigger date w.disk run

/-! Plans -/

section Plans

variable {p : Pandas} {cfg : FinancialReportConfig} {partitions : String → List String}
  {st : Store} {last date : Int} {all : List CandidateRow} {trigger : CandidateRow}
  {disk disk' : ReportDisk} {now : LocalTime} {request : ReportRequest}
  {io : String → String → PartitionIo} {write : MetadataWrite}

private theorem mem_activePendingRows {rows : List CandidateRow} {row : CandidateRow} :
    row ∈ activePendingRows cfg rows date ↔
      row ∈ rows ∧ date - retention cfg ≤ row.triggerDate ∧ row.triggerDate ≤ date := by
  unfold activePendingRows retention
  rw [List.mem_filter, decide_eq_true_eq]

private theorem rows_of_written {rows rows' : List CandidateRow}
    (hfile : writeFinancialReportPending rows = .holds rows') : rows' = rows := by
  unfold writeFinancialReportPending at hfile
  split at hfile
  · cases hfile
  · exact (MetadataFile.holds.inj hfile).symm

private theorem queued_of_written {rows : List CandidateRow}
    (hrow : ∃ row ∈ rows, row.key = trigger.key ∧ row.sortKey = trigger.sortKey) :
    Queued trigger (writeFinancialReportPending rows) := by
  obtain ⟨row, hmem, hrow⟩ := hrow
  refine ⟨rows, ?_, row, hmem, hrow⟩
  unfold writeFinancialReportPending
  rw [if_neg (List.ne_nil_of_mem hmem)]

private theorem written_ne_torn (rows : List CandidateRow) :
    writeFinancialReportPending rows ≠ .torn := by
  unfold writeFinancialReportPending
  split <;> simp

private theorem settled_plan (hd : Disclosed p cfg partitions st last all trigger)
    (hinv : DiskInv p st all trigger date disk) (hdate : date ≤ effectiveDisclosureDate cfg now)
    (hlast : effectiveDisclosureDate cfg now ≤ last) {rows : List CandidateRow}
    (hrows : disk.pending = .holds rows) (hsettled : SettledTrigger p trigger disk) :
    SettledTrigger p trigger ⟨disk.store, writeFinancialReportPending
      (activePendingRows cfg rows (effectiveDisclosureDate cfg now)), disk.state⟩ := by
  refine hsettled.imp_right ?_
  rintro ⟨queued, hqueued, row, hrow, hkey, hsort⟩
  rw [hrows] at hqueued
  obtain rfl := MetadataFile.holds.inj hqueued
  refine queued_of_written ⟨row, mem_activePendingRows.mpr ⟨hrow, ?_, ?_⟩, hkey, hsort⟩
  · rw [triggerDate_of_sortKey hsort]
    have hrecent := hd.recent
    omega
  · exact (hinv.pending rows hrows row hrow).2.trans hdate

private theorem diskInv_plan (hd : Disclosed p cfg partitions st last all trigger)
    (hinv : DiskInv p st all trigger date disk) (hdate : date ≤ effectiveDisclosureDate cfg now)
    (hlast : effectiveDisclosureDate cfg now ≤ last) (hwrite : write ≠ .torn)
    {reads : Derived.Reads} {result : Except StoreError (List FinancialReportTask)}
    (hplan : planReports p cfg reads request now write disk = (result, disk')) :
    DiskInv p st all trigger (effectiveDisclosureDate cfg now) disk' ∧
      disk'.store = disk.store ∧ disk'.state = disk.state ∧
      (SettledTrigger p trigger disk → SettledTrigger p trigger disk') := by
  have hsame : DiskInv p st all trigger (effectiveDisclosureDate cfg now) disk := by
    refine ⟨hinv.stored, hinv.disclosures, fun rows hrows row hrow => ?_, hinv.readable,
      hinv.recorded⟩
    obtain ⟨hall, hle⟩ := hinv.pending rows hrows row hrow
    exact ⟨hall, hle.trans hdate⟩
  rcases planReports_disk hplan with rfl | ⟨rows, hrows, -, rfl⟩
  · exact ⟨hsame, rfl, rfl, id⟩
  · cases write with
    | torn => exact absurd rfl hwrite
    | refused => exact ⟨hsame, rfl, rfl, id⟩
    | written =>
      have hkept := fun hsettled => settled_plan hd hinv hdate hlast hrows hsettled
      refine ⟨⟨hinv.stored, hinv.disclosures, fun rows' hrows' row hrow => ?_,
        ⟨written_ne_torn _, hinv.readable.2⟩, fun day hday hlt => hkept (hinv.recorded day hday hlt)⟩,
        rfl, rfl, hkept⟩
      rw [rows_of_written hrows'] at hrow
      exact hsame.pending rows hrows row (mem_activePendingRows.mp hrow).1

private theorem fromDisclosures_inputs (hd : Disclosed p cfg partitions st last all trigger)
    (hinv : DiskInv p st all trigger date disk) (hlast : effectiveDisclosureDate cfg now ≤ last)
    {candidates pending : List CandidateRow}
    (hinputs : planInputs p cfg ⟨partitions, io⟩ now disk = .ok (candidates, pending)) :
    FromDisclosures all (effectiveDisclosureDate cfg now)
      (candidates ++ activePendingRows cfg pending (effectiveDisclosureDate cfg now)) := by
  obtain ⟨start, -, hcandidates, hpending⟩ := planInputs_eq_ok.mp hinputs
  obtain ⟨window, hwindow, hcandidates⟩ := bind_eq_ok.mp hcandidates
  obtain rfl := Except.ok.inj hcandidates
  obtain ⟨io', hall⟩ := hd.rows
  intro row hrow
  rcases List.mem_append.mp hrow with hrow | hrow
  · have hin := (@mem_disclosureRows_window p cfg ⟨partitions, io⟩ ⟨partitions, io'⟩ disk.store st
      hinv.stored hinv.disclosures rfl _ last (some start) hlast window all hwindow hall row).mp
      (mem_of_mem_merge hrow)
    exact ⟨hin.1, hin.2.1⟩
  · obtain ⟨hrow, -, hle⟩ := mem_activePendingRows.mp hrow
    cases hfile : disk.pending with
    | absent =>
      rw [hfile] at hpending
      rw [← Except.ok.inj hpending] at hrow
      cases hrow
    | torn => exact absurd hfile hinv.readable.1
    | holds rows =>
      rw [hfile] at hpending
      obtain rfl := Except.ok.inj hpending
      exact ⟨(hinv.pending _ hfile row hrow).1, hle⟩

private theorem fromDisclosures_planned {candidates pending : List CandidateRow}
    (hrows : FromDisclosures all (effectiveDisclosureDate cfg now)
      (candidates ++ activePendingRows cfg pending (effectiveDisclosureDate cfg now))) :
    FromDisclosures all (effectiveDisclosureDate cfg now)
      (plannedCandidates cfg now candidates pending) := by
  intro row hrow
  unfold plannedCandidates at hrow
  split at hrow
  case isTrue => exact hrows row (List.mem_append_left _ hrow)
  case isFalse => exact hrows row (mem_of_mem_merge hrow)

/-- The trigger is in the window of a plan, or the recorded date lies after it. -/
private theorem start_le_or_recorded (hinv : DiskInv p st all trigger date disk)
    {start effective : Int}
    (hstart : incrementalTriggerStartDate cfg disk.state effective = .ok start)
    (hfirst : disk.state = .absent → effective - lookback cfg ≤ trigger.triggerDate) :
    start ≤ trigger.triggerDate ∨ SettledTrigger p trigger disk := by
  obtain ⟨recorded, hrecorded, hstart⟩ := bind_eq_ok.mp hstart
  obtain rfl := Except.ok.inj hstart
  cases hstate : disk.state with
  | absent =>
    rw [hstate] at hrecorded
    obtain rfl := Except.ok.inj hrecorded
    exact Or.inl (hfirst hstate)
  | torn => exact absurd hstate hinv.readable.2
  | holds day =>
    rw [hstate] at hrecorded
    obtain rfl := Except.ok.inj hrecorded
    by_cases hlt : trigger.triggerDate < day
    · exact Or.inr (hinv.recorded day hstate hlt)
    · exact Or.inl ((min_le_right _ _).trans (not_lt.mp hlt))

/-- What a plan sees of a trigger: it is settled, or a candidate ranks with it. -/
private theorem candidate_of_trigger (hd : Disclosed p cfg partitions st last all trigger)
    (hinv : DiskInv p st all trigger date disk) (hlast : effectiveDisclosureDate cfg now ≤ last)
    {candidates pending : List CandidateRow}
    (hinputs : planInputs p cfg ⟨partitions, io⟩ now disk = .ok (candidates, pending))
    (hfirst : disk.state = .absent →
      effectiveDisclosureDate cfg now - lookback cfg ≤ trigger.triggerDate)
    (hseen : trigger.triggerDate ≤ effectiveDisclosureDate cfg now)
    (huncovered : ¬StoredPeriod p disk.store trigger.code trigger.periodEndDate) :
    ∃ row ∈ plannedCandidates cfg now candidates pending,
      row.key = trigger.key ∧ row.sortKey = trigger.sortKey := by
  have hrows := fromDisclosures_inputs hd hinv hlast hinputs
  obtain ⟨start, hstart, hcandidates, hpending⟩ := planInputs_eq_ok.mp hinputs
  obtain ⟨window, hwindow, hcandidates⟩ := bind_eq_ok.mp hcandidates
  obtain rfl := Except.ok.inj hcandidates
  obtain ⟨io', hall⟩ := hd.rows
  have hmem := fun row => @mem_disclosureRows_window p cfg ⟨partitions, io⟩ ⟨partitions, io'⟩ disk.store
    st hinv.stored hinv.disclosures rfl _ last (some start) hlast window all hwindow hall row
  have hsource : (∃ row ∈ mergeCandidateRows window,
      row.key = trigger.key ∧ row.sortKey = trigger.sortKey) ∨
      (∃ row ∈ activePendingRows cfg pending (effectiveDisclosureDate cfg now),
        row.key = trigger.key ∧ row.sortKey = trigger.sortKey) := by
    rcases start_le_or_recorded hinv hstart hfirst with hin | hsettled
    · left
      have htrigger : trigger ∈ window := by
        refine (hmem trigger).mpr ⟨hd.mem, hseen, fun s hs => ?_⟩
        rw [← Option.some.inj hs]
        exact hin
      exact hd.exists_merged (fun row hrow => ((hmem row).mp hrow).1)
        ⟨trigger, htrigger, rfl, rfl⟩
    · right
      obtain ⟨rows, hrows, row, hrow, hkey, hsort⟩ := hsettled.resolve_left huncovered
      rw [hrows] at hpending
      obtain rfl := Except.ok.inj hpending
      refine ⟨row, mem_activePendingRows.mpr ⟨hrow, ?_, ?_⟩, hkey, hsort⟩
      · rw [triggerDate_of_sortKey hsort]
        have hrecent := hd.recent
        omega
      · rw [triggerDate_of_sortKey hsort]
        exact hseen
  by_cases hnil : pending = []
  · unfold plannedCandidates
    rw [if_pos hnil]
    rcases hsource with hrow | ⟨row, hrow, -⟩
    · exact hrow
    · rw [hnil] at hrow
      cases (mem_activePendingRows.mp hrow).1
  · unfold plannedCandidates
    rw [if_neg hnil]
    apply hd.exists_merged fun row hrow => (hrows row hrow).1
    rcases hsource with ⟨row, hrow, hrank⟩ | ⟨row, hrow, hrank⟩
    · exact ⟨row, List.mem_append_left _ hrow, hrank⟩
    · exact ⟨row, List.mem_append_right _ hrow, hrank⟩

private theorem exists_cutTask {run : ActiveReportRun} {code : String} (hin : ¬LeavesOut p code run)
    {uncut : List FinancialReportTask} (hplanned : run.planned = cutTasks run.request uncut)
    (htask : ∃ task ∈ uncut, task.code = code) : ∃ task ∈ run.planned, task.code = code := by
  unfold LeavesOut at hin
  rw [not_or, not_not] at hin
  cases hmax : run.request.maxTasks with
  | none =>
    rw [hplanned, cutTasks, hmax]
    exact htask
  | some limit =>
    by_cases hlimit : limit ≤ run.planned.length
    · by_contra hnone
      refine hin.2 ⟨limit, hmax, hlimit, fun hcode => hnone ?_⟩
      obtain ⟨task, htask, hcode⟩ := List.mem_map.mp hcode
      exact ⟨task, htask, hcode⟩
    · -- fewer tasks than the limit: nothing was cut
      have hcut : run.planned = uncut.take (max limit 0).toNat := by
        rw [hplanned, cutTasks, hmax]
      have hlength := congrArg List.length hcut
      rw [List.length_take] at hlength
      have hall : uncut.length ≤ (max limit 0).toNat := by omega
      rw [hcut, List.take_of_length_le hall]
      exact htask

private theorem inv_startRun (hd : Disclosed p cfg partitions st last all trigger)
    (hinv : DiskInv p st all trigger date disk) (hdate : date ≤ effectiveDisclosureDate cfg now)
    (hlast : effectiveDisclosureDate cfg now ≤ last) (hwrite : write ≠ .torn) :
    TriggerInv p cfg st all trigger (effectiveDisclosureDate cfg now)
      (startRun p cfg partitions request now io write disk) := by
  unfold startRun
  rcases hplan : planReports p cfg ⟨partitions, io⟩ request now write disk with ⟨result, disk'⟩
  obtain ⟨hdisk, hstore, hstate, hkept⟩ := diskInv_plan hd hinv hdate hlast hwrite hplan
  cases result with
  | error e =>
    refine ⟨hdisk, fun run hrun => ?_⟩
    cases hrun
  | ok tasks =>
    refine ⟨hdisk, fun run hrun => ?_⟩
    obtain rfl := Option.some.inj hrun
    obtain ⟨candidates, pending, uncut, hinputs, huncut, htasks⟩ := planReports_ok hplan
    have hrows := fromDisclosures_planned (fromDisclosures_inputs hd hinv hlast hinputs)
    refine ⟨fun task htask => ?_, fun hopen => ?_, fun _ hin hfirst hseen => ?_⟩
    · have hmem : task ∈ uncut := by
        rw [show tasks = cutTasks request uncut from htasks] at htask
        unfold cutTasks at htask
        split at htask
        · exact htask
        · exact List.mem_of_mem_take htask
      have hof := taskOf_of_mem huncut hmem
      refine ⟨⟨hof.dataset, hof.path, fun row hrow => ?_, hof.nonempty⟩, fun row hrow => ?_⟩
      · exact ⟨(hrows row (hof.rows row hrow).1).1, (hof.rows row hrow).2⟩
      · exact hrows row (hof.rows row hrow).1
    · cases hopen
    · by_cases hcovered : StoredPeriod p disk.store trigger.code trigger.periodEndDate
      · left
        left
        rw [hstore]
        exact hcovered
      · right
        obtain ⟨row, hrow, hkey, hsort⟩ := candidate_of_trigger hd hinv hlast hinputs
          (fun habsent => hfirst (hstate.trans habsent)) hseen hcovered
        obtain ⟨hcode, hperiod⟩ := key_eq_iff.mp hkey
        have hall := (hrows row hrow).1
        have hrequests : Requests p request row.code := by
          rw [hcode]
          exact not_not.mp (not_or.mp hin).1
        have huncovered : ¬StoredPeriod p disk.store row.code row.periodEndDate := by
          rw [hcode, hd.periodEnd_eq hall hkey]
          exact hcovered
        obtain ⟨hexists, hevery⟩ :=
          candidate_in_tasks hinv.stored (hd.path hall) huncut hrow hrequests huncovered
        rw [hcode] at hexists
        obtain ⟨task, htask, htaskcode⟩ := exists_cutTask hin htasks hexists
        have hmem : task ∈ uncut := by
          rw [show tasks = cutTasks request uncut from htasks] at htask
          unfold cutTasks at htask
          split at htask
          · exact htask
          · exact List.mem_of_mem_take htask
        obtain ⟨htarget, hrank⟩ := hevery task hmem (htaskcode.trans hcode.symm)
        rw [hperiod] at htarget
        exact ⟨task, htask, htaskcode, htarget, row, hrank, hkey, hsort⟩

end Plans

/-! Results -/

section Results

variable {p : Pandas} {cfg : FinancialReportConfig} {h : Hashing} {partitions : String → List String}
  {st : Store} {last date : Int} {all : List CandidateRow} {trigger : CandidateRow}
  {disk disk' : ReportDisk} {task : FinancialReportTask} {data : Frame} {env : WriteEnv}
  {write : MetadataWrite} {lifecycle ok : Bool}

/-- What the pending file holds after a success: the rows that were there and the trigger rows, up
to the periods that have come. -/
private theorem updatePending_ok (hreadable : disk.pending ≠ .torn) {missing : List String}
    {next : MetadataFile (List CandidateRow)}
    (hnext : updatePendingAfterSuccess disk.pending task missing = .ok next) :
    ∃ rows, next = writeFinancialReportPending (mergeCandidateRows rows) ∧
      ∀ row, row ∈ rows ↔
        ((∃ existing, disk.pending = .holds existing ∧ row ∈ existing) ∧
          (¬(row.code = task.code ∧ row.reportPeriod ∈ task.targetPeriods) ∨
            row.reportPeriod ∈ missing)) ∨
        (row ∈ task.triggerRows ∧ row.reportPeriod ∈ missing) := by
  obtain ⟨existing, hexisting, hnext⟩ := bind_eq_ok.mp hnext
  obtain rfl := Except.ok.inj hnext
  refine ⟨_, rfl, fun row => ?_⟩
  rw [List.mem_append, List.mem_filter, List.mem_filter, decide_eq_true_eq, decide_eq_true_eq]
  refine or_congr_left (and_congr_left fun _ => ?_)
  cases hfile : disk.pending with
  | absent =>
    rw [hfile] at hexisting
    rw [← Except.ok.inj hexisting]
    simp
  | torn => exact absurd hfile hreadable
  | holds rows =>
    rw [hfile] at hexisting
    obtain rfl := Except.ok.inj hexisting
    simp

private theorem outputPath_eq (hd : Disclosed p cfg partitions st last all trigger)
    (htask : TaskOf p all task) : task.outputPath = task.code := by
  obtain ⟨row, hrow⟩ := List.exists_mem_of_ne_nil _ htask.nonempty
  obtain ⟨hall, hcode⟩ := htask.rows row hrow
  have hpath := hd.path hall
  rw [hcode] at hpath
  exact Except.ok.inj (htask.path.symm.trans hpath)

private theorem rows_fromDisclosures (hinv : DiskInv p st all trigger date disk)
    (hrows : FromDisclosures all date task.triggerRows) {missing : List String}
    {rows : List CandidateRow} (hmem : ∀ row, row ∈ rows ↔
      ((∃ existing, disk.pending = .holds existing ∧ row ∈ existing) ∧
        (¬(row.code = task.code ∧ row.reportPeriod ∈ task.targetPeriods) ∨
          row.reportPeriod ∈ missing)) ∨
      (row ∈ task.triggerRows ∧ row.reportPeriod ∈ missing)) : FromDisclosures all date rows := by
  intro row hrow
  rcases (hmem row).mp hrow with ⟨⟨existing, hfile, hrow⟩, -⟩ | ⟨hrow, -⟩
  · exact hinv.pending existing hfile row hrow
  · exact hrows row hrow

private theorem storedPeriod_kept (hd : Disclosed p cfg partitions st last all trigger)
    (htask : TaskOf p all task) (hkeeps : KeepsPeriod p trigger disk.store task.code data)
    (hstored : StoredPeriod p disk.store trigger.code trigger.periodEndDate) :
    StoredPeriod p (writeTaskData p cfg h env task data disk.store).2 trigger.code
      trigger.periodEndDate := by
  refine storedPeriod_writeTaskData hd.nullLike htask.dataset htask.path (fun hcode => ?_) hstored
  rw [outputPath_eq hd htask] at hcode
  exact hkeeps hcode.symm hstored

/-- A trigger that is settled, or that the task is about, is settled when the task is a success. -/
private theorem settled_of_success (hd : Disclosed p cfg partitions st last all trigger)
    (hinv : DiskInv p st all trigger date disk) (htask : TaskOf p all task)
    (hrows : FromDisclosures all date task.triggerRows) {written : WrittenTask} {st' : Store}
    (hwritten : writeTaskData p cfg h env task data disk.store = (.ok written, st'))
    (hkeeps : KeepsPeriod p trigger disk.store task.code data)
    {next : MetadataFile (List CandidateRow)}
    (hnext : updatePendingAfterSuccess disk.pending task written.missing = .ok next)
    (hbefore : SettledTrigger p trigger disk ∨ OutstandingTrigger trigger [task])
    {state : MetadataFile Int} : SettledTrigger p trigger ⟨st', next, state⟩ := by
  obtain ⟨rows, rfl, hmem⟩ := updatePending_ok hinv.readable.1 hnext
  have hall := rows_fromDisclosures hinv hrows hmem
  have hqueued : (∃ row ∈ rows, row.key = trigger.key ∧ row.sortKey = trigger.sortKey) →
      SettledTrigger p trigger
        ⟨st', writeFinancialReportPending (mergeCandidateRows rows), state⟩ := fun hrow =>
    Or.inr (queued_of_written (hd.exists_merged (fun row hrow => (hall row hrow).1) hrow))
  -- a target period has come, or it is missing and its rows are kept
  have htarget : task.code = trigger.code → trigger.reportPeriod ∈ task.targetPeriods →
      StoredPeriod p st' trigger.code trigger.periodEndDate ∨
        trigger.reportPeriod ∈ written.missing := by
    intro hcode hperiod
    have hcome := writeTaskData_ok hd.nullLike htask.dataset htask.path hwritten hperiod
      (hd.period hd.mem)
    rwa [outputPath_eq hd htask, hcode] at hcome
  rcases hbefore with (hstored | ⟨existing, hfile, row, hrow, hkey, hsort⟩) |
    ⟨task', hmem', hcode, hperiod, row, hrow, hkey, hsort⟩
  · left
    have hkept := @storedPeriod_kept p cfg h partitions st last all trigger disk task data env hd
      htask hkeeps hstored
    rwa [hwritten] at hkept
  · obtain ⟨hcode, hperiod⟩ := key_eq_iff.mp hkey
    have hexisting : ∃ existing, disk.pending = .holds existing ∧ row ∈ existing :=
      ⟨existing, hfile, hrow⟩
    by_cases hof : row.code = task.code ∧ row.reportPeriod ∈ task.targetPeriods
    · obtain ⟨hofcode, hofperiod⟩ := hof
      rw [hcode] at hofcode
      rw [hperiod] at hofperiod
      rcases htarget hofcode.symm hofperiod with hstored | hmissing
      · exact Or.inl hstored
      · rw [← hperiod] at hmissing
        exact hqueued ⟨row, (hmem row).mpr (Or.inl ⟨hexisting, Or.inr hmissing⟩), hkey, hsort⟩
    · exact hqueued ⟨row, (hmem row).mpr (Or.inl ⟨hexisting, Or.inl hof⟩), hkey, hsort⟩
  · obtain rfl := List.mem_singleton.mp hmem'
    rcases htarget hcode hperiod with hstored | hmissing
    · exact Or.inl hstored
    · rw [← (key_eq_iff.mp hkey).2] at hmissing
      exact hqueued ⟨row, (hmem row).mpr (Or.inr ⟨hrow, hmissing⟩), hkey, hsort⟩

private theorem diskInv_response (hd : Disclosed p cfg partitions st last all trigger)
    (hinv : DiskInv p st all trigger date disk) (htask : TaskOf p all task)
    (hrows : FromDisclosures all date task.triggerRows) (hwrite : write ≠ .torn)
    (hkeeps : KeepsPeriod p trigger disk.store task.code data)
    (hrecord : recordReport p cfg h task (.response data env write lifecycle) disk = (ok, disk')) :
    DiskInv p st all trigger date disk' ∧ disk'.state = disk.state ∧
      (SettledTrigger p trigger disk → SettledTrigger p trigger disk') ∧
      (ok = true → OutstandingTrigger trigger [task] → SettledTrigger p trigger disk') := by
  obtain ⟨hstore, hstate, hpending⟩ := recordReport_response hrecord
  obtain ⟨store', pending', state'⟩ := disk'
  simp only at hstore hstate hpending
  subst hstore hstate
  have hwell : WellStored p (writeTaskData p cfg h env task data disk.store).2 :=
    wellStored_writeTaskData htask.dataset hinv.stored
  have hsame : SameDisclosures (writeTaskData p cfg h env task data disk.store).2 st := by
    intro source hsource value
    rw [writeTaskData_files htask.dataset htask.path]
    · exact hinv.disclosures source hsource value
    · intro hid
      have hdiffer : ∀ source ∈ disclosureDatasets, source.1.id ≠ financialReportDataset.id := by
        decide
      exact absurd hid (hdiffer source hsource)
  rcases hpending with ⟨rfl, hpending⟩ | ⟨written, hok, hnext⟩
  · rcases hpending with rfl | htorn
    · have hkept : SettledTrigger p trigger disk → SettledTrigger p trigger
          ⟨(writeTaskData p cfg h env task data disk.store).2, disk.pending, disk.state⟩ := by
        exact Or.imp_left fun hstored => storedPeriod_kept hd htask hkeeps hstored
      refine ⟨⟨hwell, hsame, hinv.pending, hinv.readable, fun day hday hlt => ?_⟩, rfl, hkept, ?_⟩
      · exact hkept (hinv.recorded day hday hlt)
      · intro hfalse
        cases hfalse
    · exact absurd htorn hwrite
  · have hwritten : writeTaskData p cfg h env task data disk.store =
        (.ok written, (writeTaskData p cfg h env task data disk.store).2) := by
      rw [← hok]
    have hsettled := fun hbefore => @settled_of_success p cfg h partitions st last date all trigger
      disk task data env hd hinv htask hrows written _ hwritten hkeeps pending' hnext hbefore
      disk.state
    obtain ⟨rows, hfile, hmem⟩ := updatePending_ok hinv.readable.1 hnext
    refine ⟨⟨hwell, hsame, fun rows' hrows' row hrow => ?_, ⟨?_, hinv.readable.2⟩,
      fun day hday hlt => hsettled (Or.inl (hinv.recorded day hday hlt))⟩, rfl,
      fun hbefore => hsettled (Or.inl hbefore), fun _ hbefore => hsettled (Or.inr hbefore)⟩
    · simp only at hrows'
      rw [hfile] at hrows'
      rw [rows_of_written hrows'] at hrow
      exact rows_fromDisclosures hinv hrows hmem row (mem_of_mem_merge hrow)
    · simp only
      rw [hfile]
      exact written_ne_torn _

private theorem outstanding_erase {tasks : List FinancialReportTask}
    (hout : OutstandingTrigger trigger tasks) :
    OutstandingTrigger trigger [task] ∨ OutstandingTrigger trigger (tasks.erase task) := by
  obtain ⟨task', htask', hrest⟩ := hout
  by_cases heq : task' = task
  · left
    exact ⟨task', List.mem_singleton.mpr heq, hrest⟩
  · right
    exact ⟨task', (List.mem_erase_of_ne heq).mpr htask', hrest⟩

private theorem inv_recordTask (hd : Disclosed p cfg partitions st last all trigger)
    (hinv : DiskInv p st all trigger date disk) {run : ActiveReportRun}
    (hrun : RunInv p cfg all trigger date disk run) (htask : task ∈ run.outstanding)
    {fetched : ReportFetch}
    (hkeeps : KeepsTrigger p cfg trigger ⟨disk, some run⟩ (.record task fetched)) :
    TriggerInv p cfg st all trigger date (recordTask p cfg h task fetched disk run) := by
  obtain ⟨hof, hrows⟩ := hrun.tasks task htask
  have hrest : ∀ task' ∈ run.outstanding.erase task,
      TaskOf p all task' ∧ FromDisclosures all date task'.triggerRows := fun task' htask' =>
    hrun.tasks task' (List.mem_of_mem_erase htask')
  unfold recordTask
  cases fetched with
  | failed circuitOpen =>
    refine ⟨hinv, fun run' hrun' => ?_⟩
    obtain rfl := Option.some.inj hrun'
    exact ⟨hrest, fun _ => Nat.succ_pos _, fun hfailed => absurd hfailed (Nat.succ_ne_zero _)⟩
  | response data env write lifecycle =>
    obtain ⟨hwrite, hperiod⟩ := hkeeps
    rcases hrecord : recordReport p cfg h task (.response data env write lifecycle) disk with
      ⟨ok, disk'⟩
    obtain ⟨hdisk, hstate, hkept, hsuccess⟩ :=
      diskInv_response hd hinv hof hrows (fun htorn => hwrite (congrArg some htorn)) hperiod hrecord
    refine ⟨hdisk, fun run' hrun' => ?_⟩
    obtain rfl := Option.some.inj hrun'
    refine ⟨hrest, fun hopen => ?_, fun hfailed hin hfirst hseen => ?_⟩
    · have hcircuit : run.circuitOpen = true := by simpa [ReportFetch.opensCircuit] using hopen
      have hfailed := hrun.circuit hcircuit
      simp only
      split <;> omega
    · cases ok with
      | false => exact absurd hfailed (Nat.succ_ne_zero _)
      | true =>
        rcases hrun.progress hfailed hin (fun habsent => hfirst (hstate.trans habsent)) hseen with
          hsettled | hout
        · exact Or.inl (hkept hsettled)
        · rcases @outstanding_erase trigger task _ hout with hthis | hother
          · exact Or.inl (hsuccess rfl hthis)
          · exact Or.inr hother

end Results

/-! Runs -/

section Runs

variable {p : Pandas} {cfg : FinancialReportConfig} {h : Hashing} {partitions : String → List String}
  {st : Store} {last date : Int} {all : List CandidateRow} {trigger : CandidateRow}
  {w w' : ReportWorld}

/-- The end of a run. What is recorded then is safe for the trigger. -/
private theorem diskInv_completed (hinv : TriggerInv p cfg st all trigger date w)
    {run : ActiveReportRun}
    (hrun : w.run = some run) (hdone : run.outstanding = []) {now : LocalTime}
    {write : MetadataWrite}
    (hkeeps : KeepsTrigger p cfg trigger w (.complete now write)) :
    DiskInv p st all trigger date (afterCompleted cfg now write run.failed w.disk) := by
  obtain ⟨hwrite, hrecords⟩ := hkeeps
  unfold afterCompleted
  split
  case isFalse => exact hinv.disk
  case isTrue hfailed =>
    obtain ⟨hin, hahead, hfirst⟩ := hrecords run hrun hfailed
    cases write with
    | torn => exact absurd rfl hwrite
    | refused => exact hinv.disk
    | written =>
      refine ⟨hinv.disk.stored, hinv.disk.disclosures, hinv.disk.pending,
        ⟨hinv.disk.readable.1, fun htorn => ?_⟩, fun day hday hlt => ?_⟩
      · cases htorn
      · obtain rfl := MetadataFile.holds.inj hday
        have hseen : trigger.triggerDate ≤ run.effectiveDate := by omega
        rcases (hinv.run run hrun).progress hfailed hin hfirst hseen with hsettled | ⟨task, htask, -⟩
        · exact hsettled
        · rw [hdone] at htask
          cases htask

/-- What one event keeps. -/
private theorem inv_step (hd : Disclosed p cfg partitions st last all trigger)
    (hinv : TriggerInv p cfg st all trigger date w) {event : ReportEvent}
    (hkeeps : KeepsTrigger p cfg trigger w event)
    (hdate : ∀ day ∈ planDate cfg event, date ≤ day ∧ day ≤ last)
    (hstep : reportStep p cfg h partitions w event = some w') :
    TriggerInv p cfg st all trigger ((planDate cfg event).getD date) w' := by
  obtain ⟨disk, active⟩ := w
  have hnone : ∀ {disk' : ReportDisk}, DiskInv p st all trigger date disk' →
      TriggerInv p cfg st all trigger date ⟨disk', none⟩ := by
    intro disk' hdisk
    refine ⟨hdisk, fun run hrun => ?_⟩
    cases hrun
  cases active with
  | none =>
    cases event with
    | plan request now io write =>
      obtain rfl := Option.some.inj hstep
      obtain ⟨hle, hlast⟩ := hdate _ rfl
      exact inv_startRun hd hinv.disk hle hlast fun htorn => hkeeps.1 (congrArg some htorn)
    | _ => cases hstep
  | some run =>
    cases event with
    | plan => cases hstep
    | record task fetched =>
      obtain ⟨htask, hstep⟩ := Option.ite_none_right_eq_some.mp hstep
      obtain rfl := Option.some.inj hstep
      exact inv_recordTask hd hinv.disk (hinv.run run rfl) htask hkeeps
    | skip task =>
      obtain ⟨⟨hopen, htask⟩, hstep⟩ := Option.ite_none_right_eq_some.mp hstep
      obtain rfl := Option.some.inj hstep
      refine ⟨hinv.disk, fun run' hrun' => ?_⟩
      obtain rfl := Option.some.inj hrun'
      have hfailed := (hinv.run run rfl).circuit hopen
      exact ⟨fun task' htask' => (hinv.run run rfl).tasks task' (List.mem_of_mem_erase htask'),
        (hinv.run run rfl).circuit, fun hzero => absurd hzero hfailed.ne'⟩
    | complete now write =>
      obtain ⟨hdone, hstep⟩ := Option.ite_none_right_eq_some.mp hstep
      obtain rfl := Option.some.inj hstep
      exact hnone (diskInv_completed hinv rfl hdone hkeeps)
    | crash =>
      obtain rfl := Option.some.inj hstep
      exact hnone hinv.disk

/-- What whole runs keep; the plans are in the order of their dates. -/
private theorem inv_run (hd : Disclosed p cfg partitions st last all trigger)
    {events : List ReportEvent}
    (hinv : TriggerInv p cfg st all trigger date w)
    (hkeeps : Guarded (reportStep p cfg h partitions) (KeepsTrigger p cfg trigger) w events)
    (hdates : (date :: (events.filterMap (planDate cfg) ++ [last])).Pairwise (· ≤ ·))
    (run : exec (reportStep p cfg h partitions) w events = some w') :
    ∃ day ≤ last, TriggerInv p cfg st all trigger day w' := by
  induction events generalizing w date with
  | nil =>
    obtain rfl := Option.some.inj run
    exact ⟨date, (List.pairwise_cons.mp hdates).1 last (List.mem_append_right _ List.mem_cons_self),
      hinv⟩
  | cons event events ih =>
    obtain ⟨next, hstep, hrest⟩ := exec_cons_some.mp run
    have hlater := hkeeps.2 next hstep
    cases hplan : planDate cfg event with
    | none =>
      rw [List.filterMap_cons_none hplan] at hdates
      have hnext := inv_step hd hinv hkeeps.1 (fun day hday => by rw [hplan] at hday; cases hday) hstep
      rw [hplan] at hnext
      exact ih hnext hlater hdates hrest
    | some day =>
      rw [List.filterMap_cons_some hplan, List.cons_append] at hdates
      obtain ⟨hfirst, hdates⟩ := List.pairwise_cons.mp hdates
      have hday : ∀ d ∈ planDate cfg event, date ≤ d ∧ d ≤ last := by
        intro d hd'
        rw [hplan] at hd'
        obtain rfl := Option.some.inj hd'
        exact ⟨hfirst _ List.mem_cons_self, (List.pairwise_cons.mp hdates).1 last
          (List.mem_append_right _ List.mem_cons_self)⟩
      have hnext := inv_step hd hinv hkeeps.1 hday hstep
      rw [hplan] at hnext
      exact ih hnext hlater hdates hrest

private theorem inv_fresh (hst : WellStored p st) :
    TriggerInv p cfg st all trigger date (freshReports st) where
  disk := {
    stored := hst
    disclosures := fun _ _ _ => rfl
    pending := fun _ hrows => by cases hrows
    readable := by simp [freshReports]
    recorded := fun _ hday => by cases hday }
  run := fun _ hrun => by cases hrun

end Runs

/-- The tasks have one for the period of the code. -/
def PlansPeriod (result : Except StoreError (List FinancialReportTask)) (trigger : CandidateRow) :
    Prop :=
  ∃ tasks, result = .ok tasks ∧
    ∃ task ∈ tasks, task.code = trigger.code ∧ trigger.reportPeriod ∈ task.targetPeriods

private theorem plansPeriod_of_inv {p : Pandas} {cfg : FinancialReportConfig}
    {partitions : String → List String} {st : Store} {disk : ReportDisk} {date : Int}
    {io : String → String → PartitionIo} {now : LocalTime} {all : List CandidateRow}
    {trigger : CandidateRow}
    (hd : Disclosed p cfg partitions st (effectiveDisclosureDate cfg now) all trigger)
    (hinv : DiskInv p st all trigger date disk)
    (hall : disclosureRows p cfg ⟨partitions, io⟩ st (effectiveDisclosureDate cfg now) none = .ok all)
    (hreadable : ∀ value, (io financialReportDataset.id value).readable = true)
    (hfirst : disk.state = .absent →
      effectiveDisclosureDate cfg now - lookback cfg ≤ trigger.triggerDate)
    (huncovered : ¬StoredPeriod p disk.store trigger.code trigger.periodEndDate) :
    PlansPeriod (planReports p cfg ⟨partitions, io⟩ {} now .written disk).1 trigger := by
  have hseen : trigger.triggerDate ≤ effectiveDisclosureDate cfg now :=
    ((mem_disclosureRows_window hd.stored (fun _ _ _ => rfl) rfl (le_refl _) hall hall).mp hd.mem).2.1
  obtain ⟨start, hstart⟩ :
      ∃ start, incrementalTriggerStartDate cfg disk.state (effectiveDisclosureDate cfg now) =
        .ok start := by
    cases hstate : disk.state with
    | torn => exact absurd hstate hinv.readable.2
    | absent => exact ⟨_, rfl⟩
    | holds day => exact ⟨_, rfl⟩
  obtain ⟨pending, hpending⟩ : ∃ pending, readFinancialReportPending disk.pending = .ok pending := by
    cases hfile : disk.pending with
    | torn => exact absurd hfile hinv.readable.1
    | absent => exact ⟨_, rfl⟩
    | holds rows => exact ⟨_, rfl⟩
  have hwhole := hall
  rw [← disclosureRows_congr hinv.disclosures] at hwhole
  obtain ⟨window, hwindow⟩ := @disclosureRows_window p cfg ⟨partitions, io⟩ disk.store hinv.stored
    (effectiveDisclosureDate cfg now) _ (some start) (le_refl _) all hwhole
  have hinputs : planInputs p cfg ⟨partitions, io⟩ now disk =
      .ok (mergeCandidateRows window, pending) :=
    planInputs_eq_ok.mpr ⟨start, hstart, bind_eq_ok.mpr ⟨window, hwindow, rfl⟩, hpending⟩
  have hrows := fromDisclosures_planned (fromDisclosures_inputs hd hinv (le_refl _) hinputs)
  obtain ⟨tasks, htasks⟩ := @candidateTasks_succeeds p ⟨partitions, io⟩ disk.store _ hinv.stored
    (fun row hrow => hd.path (hrows row hrow).1) hreadable
  refine ⟨tasks, planReports_returns hinputs htasks, ?_⟩
  obtain ⟨row, hrow, hkey, hsort⟩ :=
    candidate_of_trigger hd hinv (le_refl _) hinputs hfirst hseen huncovered
  obtain ⟨hcode, hperiod⟩ := key_eq_iff.mp hkey
  have hrowall := (hrows row hrow).1
  have hrowuncovered : ¬StoredPeriod p disk.store row.code row.periodEndDate := by
    rw [hcode, hd.periodEnd_eq hrowall hkey]
    exact huncovered
  obtain ⟨⟨task, htask, htaskcode⟩, hevery⟩ := candidate_in_tasks hinv.stored (hd.path hrowall)
    htasks hrow (Or.inl rfl) hrowuncovered
  refine ⟨task, htask, htaskcode.trans hcode, ?_⟩
  rw [← hperiod]
  exact (hevery task htask htaskcode).1

def disclosureOf (day : Int) : Frame where
  columns := fieldNames akshareReportDisclosureSchema
  dtype _ := .object
  rows := [rowOf [("report_period", .text "2023年报"), ("period_end_date", .date 19722),
    ("market", .text "沪深京"), ("code", .text "600000"), ("name", .text "浦发银行"),
    ("actual_disclosure_date", .date day), ("source_endpoint", .text "stock_report_disclosure")]]

def disclosedOn (day : Int) : Store :=
  (writeDataset .plain .plain (.plain true) "akshare_cn_stock_report_disclosure" (disclosureOf day)
    (some [("report_period", .text "2023年报")]) none false .empty).2

def annualReport (day : Int) : CandidateRow :=
  ⟨"600000", "2023年报", 19722, day, 3, "stock_report_disclosure"⟩

def annualTask (day : Int) : FinancialReportTask :=
  ⟨financialReportDataset.id, "600000", 19722, day, "600000", ["2023年报"], [annualReport day]⟩

def reportListing (dataset : String) : List String :=
  if dataset = "akshare_cn_stock_report_disclosure" then ["2023年报"] else []

def plainIo : String → String → PartitionIo := fun _ _ => (WriteEnv.plain true).io 0

def plainStep : ReportWorld → ReportEvent → Option ReportWorld :=
  reportStep .plain {} .plain reportListing

def planOn (day : Int) (code : List String) : ReportEvent :=
  .plan ⟨code, none⟩ ⟨day, 0⟩ plainIo .written

def noReport : ReportFetch :=
  .response ⟨fieldNames akshareFinancialReportSinaSchema, fun _ => .object, []⟩ (.plain true) .written true

def diskAfter (st : Store) (events : List ReportEvent) : ReportDisk :=
  ((exec plainStep (freshReports st) events).getD (freshReports st)).disk

private theorem exec_diskAfter {st : Store} {events : List ReportEvent}
    (hidle : (exec plainStep (freshReports st) events).map (fun w => w.run.isNone) = some true) :
    exec plainStep (freshReports st) events = some ⟨diskAfter st events, none⟩ := by
  obtain ⟨⟨disk, run⟩, hrun, hnone⟩ := Option.map_eq_some_iff.mp hidle
  obtain rfl := Option.isNone_iff_eq_none.mp hnone
  unfold diskAfter
  rw [hrun, Option.getD_some]

private theorem wellStored_disclosedOn (day : Int) : WellStored .plain (disclosedOn day) := by
  unfold disclosedOn
  rcases hout : writeDataset .plain .plain (.plain true) "akshare_cn_stock_report_disclosure"
    (disclosureOf day) (some [("report_period", .text "2023年报")]) none false .empty with ⟨result, st⟩
  exact wellStored_of_write (wellStored_empty .plain) hout

/-- A run asks for the report in vain, and the next one comes twenty days later. -/
def vainRun : List ReportEvent :=
  [planOn 19730 [], .record (annualTask 19725) noReport, .complete ⟨19730, 0⟩ .written]

private theorem vainRun_keeps :
    Guarded plainStep (KeepsTrigger .plain {} (annualReport 19725)) (freshReports (disclosedOn 19725))
      vainRun := by
  have hplan : plainStep (freshReports (disclosedOn 19725)) (planOn 19730 []) =
      some (startRun .plain {} reportListing {} ⟨19730, 0⟩ plainIo .written
        (freshReports (disclosedOn 19725)).disk) := rfl
  refine Guarded.cons ⟨by decide, trivial⟩ hplan ⟨⟨by decide, fun _ _ => ?_⟩, fun w hrecord => ?_⟩
  · exact Or.inl (Or.inl rfl)
  · have hrun : w.run = some ⟨{}, 19730, [annualTask 19725], [], 0, false⟩ := by
      have hafter : (plainStep (startRun .plain {} reportListing {} ⟨19730, 0⟩ plainIo .written
          (freshReports (disclosedOn 19725)).disk) (.record (annualTask 19725) noReport)).bind
            ReportWorld.run = some ⟨{}, 19730, [annualTask 19725], [], 0, false⟩ := by
        decide +kernel
      rw [hrecord] at hafter
      exact hafter
    refine ⟨⟨by decide, fun run hactive _ => ?_⟩, fun _ _ => trivial⟩
    rw [hrun] at hactive
    obtain rfl := Option.some.inj hactive
    refine ⟨fun hout => ?_, by decide, fun _ => by decide⟩
    rcases hout with hcode | ⟨limit, hlimit, -⟩
    · exact hcode (Or.inl rfl)
    · cases hlimit

private theorem not_storedPeriod {st : Store} {trigger : CandidateRow}
    (hfile : (st.files financialReportDataset.id trigger.code).getD [] = []) :
    ¬StoredPeriod .plain st trigger.code trigger.periodEndDate := by
  rintro ⟨r, hr, -⟩
  unfold content at hr
  rw [hfile] at hr
  cases hr

/-- The trigger is in the disclosures, some run was on its date or later, and the next run without
filters does not plan its period, although it is neither stored nor too old. -/
structure LosesTrigger (st : Store) (events : List ReportEvent) (now : LocalTime)
    (trigger : CandidateRow) : Prop where
  run : exec plainStep (freshReports st) events = some ⟨diskAfter st events, none⟩
  dates : (events.filterMap (planDate {}) ++ [effectiveDisclosureDate {} now]).Pairwise (· ≤ ·)
  merged : localDisclosureCandidates .plain {} ⟨reportListing, plainIo⟩ st
    (effectiveDisclosureDate {} now) none = .ok [trigger]
  seen : ∃ day ∈ events.filterMap (planDate {}), trigger.triggerDate ≤ day
  uncovered : ¬StoredPeriod .plain (diskAfter st events).store trigger.code trigger.periodEndDate
  recent : effectiveDisclosureDate {} now - retention {} ≤ trigger.triggerDate
  lost : ¬PlansPeriod (planReports .plain {} ⟨reportListing, plainIo⟩ {} now .written
    (diskAfter st events)).1 trigger

private theorem not_plansPeriod_nil {result : Except StoreError (List FinancialReportTask)}
    {trigger : CandidateRow} (hresult : result.toOption = some []) :
    ¬PlansPeriod result trigger := by
  rintro ⟨tasks, htasks, task, htask, -⟩
  rw [eq_ok_of_toOption hresult] at htasks
  obtain rfl := Except.ok.inj htasks
  cases htask

end QuantDataCenter.Sources
