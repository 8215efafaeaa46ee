import QuantDataCenter.Lib.Trace
import QuantDataCenter.Percentile.Pipeline

/-!
The stored percentiles are those of an initial part of the history, and an
incremental run without `--start` completes them.
-/

set_option autoImplicit false
set_option relaxedAutoImplicit false

namespace QuantDataCenter.Percentile

open QuantDataCenter.Lib

/-! A result row does not change when the history grows -/

section Growth

variable {source more : List SourceRow} {row : SourceRow}

private theorem exists_min?_le {dates : List CalendarDate} {t : CalendarDate} :
    (∃ first ∈ dates.min?, first ≤ t) ↔ ∃ date ∈ dates, date ≤ t := by
  constructor
  · rintro ⟨first, hfirst, hle⟩
    exact ⟨first, List.min?_mem hfirst, hle⟩
  · rintro ⟨date, hdate, hle⟩
    cases hmin : dates.min? with
    | none =>
      rw [List.min?_eq_none_iff] at hmin
      rw [hmin] at hdate
      cases hdate
    | some first => exact ⟨first, rfl, ((List.min?_eq_some_iff.mp hmin).2 date hdate).trans hle⟩

private theorem later_samples (hlater : ∀ r ∈ more, row.date < r.date) (field : ValuationField) :
    ∀ sample ∈ validSamples more field, row.date < sample.1 := by
  intro sample hsample
  obtain ⟨r, hr, hdate, -⟩ := mem_validSamples hsample
  rw [← hdate]
  exact hlater r hr

private theorem windowSamples_grow (hlater : ∀ r ∈ more, row.date < r.date) (c : Column) :
    windowSamples (source ++ more) c row.date = windowSamples source c row.date := by
  unfold windowSamples
  rw [validSamples_append, List.filter_append, List.map_append]
  refine (congrArg₂ _ rfl ?_).trans (List.append_nil _)
  rw [List.map_eq_nil_iff, List.filter_eq_nil_iff]
  intro sample hsample
  simp [not_le.mpr (later_samples hlater c.1 sample hsample)]

private theorem mature_grow (hlater : ∀ r ∈ more, row.date < r.date) (c : Column) :
    Mature (source ++ more) c row.date ↔ Mature source c row.date := by
  unfold Mature
  cases c.2 with
  | allHistory => exact Iff.rfl
  | years n =>
    show (∃ first ∈ firstValidDate _ _, _) ↔ ∃ first ∈ firstValidDate _ _, _
    unfold firstValidDate
    rw [exists_min?_le, exists_min?_le, validSamples_append, List.map_append]
    constructor
    · rintro ⟨date, hdate, hle⟩
      rcases List.mem_append.mp hdate with hold | hnew
      · exact ⟨date, hold, hle⟩
      · obtain ⟨sample, hsample, rfl⟩ := List.mem_map.mp hnew
        have hlt := later_samples hlater c.1 sample hsample
        exact absurd (hle.trans (subtractYears_le row.date n)) (not_le.mpr hlt)
    · rintro ⟨date, hdate, hle⟩
      exact ⟨date, List.mem_append_left _ hdate, hle⟩

private theorem percentileRow_grow (hlater : ∀ r ∈ more, row.date < r.date) :
    percentileRow (source ++ more) row = percentileRow source row := by
  unfold percentileRow
  congr 1
  funext c
  split
  · unfold cellValue appendCell
    simp only [mature_grow hlater c, windowSamples_grow hlater c]
  · rfl

end Growth

/-! Dates of the rows -/

section Dates

variable {source : List SourceRow}

private theorem date_percentileRow (source rows : List SourceRow) :
    (rows.map (percentileRow source)).map PercentileRow.date = rows.map SourceRow.date := by
  rw [List.map_map]
  rfl

private theorem latestDate_rows (rows : List PercentileRow) :
    latestDate (rows.map fun row => some row.date) = (rows.map PercentileRow.date).max? := by
  unfold latestDate
  rw [List.filterMap_map]
  exact congrArg List.max? (congrFun List.filterMap_eq_map' rows)

private theorem storedRows_eq (hsorted : source.Pairwise fun a b => a.date < b.date)
    (rows : List SourceRow) :
    storedRows (source.map (percentileRow rows)) = source.map (percentileRow rows) := by
  have hlt : (source.map (percentileRow rows)).Pairwise fun a b => a.date < b.date :=
    List.pairwise_map.mpr hsorted
  unfold storedRows
  rw [Keyed.stableSort_eq_self (hlt.imp fun hab => hab.le)]
  exact Keyed.keepLast_eq_self (List.pairwise_map.mpr (hlt.imp fun hab => hab.ne))

private theorem filter_after_max {earlier later : List SourceRow}
    (hsorted : (earlier ++ later).Pairwise fun a b => a.date < b.date) {latest : CalendarDate}
    (hlatest : (earlier.map SourceRow.date).max? = some latest) :
    (earlier ++ later).filter (fun row => latest < row.date) = later := by
  obtain ⟨hmem, hmax⟩ := List.max?_eq_some_iff.mp hlatest
  obtain ⟨last, hlast, rfl⟩ := List.mem_map.mp hmem
  rw [List.filter_append, List.filter_eq_nil_iff.mpr, List.filter_eq_self.mpr, List.nil_append]
  · intro row hrow
    exact decide_eq_true ((List.pairwise_append.mp hsorted).2.2 last hlast row hrow)
  · intro row hrow
    simpa using hmax row.date (List.mem_map_of_mem hrow)

private theorem filter_before_append_from (hsorted : source.Pairwise fun a b => a.date < b.date)
    (date : CalendarDate) :
    source.filter (fun row => row.date < date) ++ source.filter (fun row => date ≤ row.date) =
      source := by
  induction source with
  | nil => rfl
  | cons row source ih =>
    obtain ⟨hfirst, hrest⟩ := List.pairwise_cons.mp hsorted
    by_cases hlt : row.date < date
    · rw [List.filter_cons_of_pos (by simpa using hlt), List.filter_cons_of_neg (by simpa using hlt),
        List.cons_append, ih hrest]
    · have hall : ∀ r ∈ row :: source, date ≤ r.date := by
        intro r hr
        rcases List.mem_cons.mp hr with rfl | hmem
        · exact not_lt.mp hlt
        · exact (not_lt.mp hlt).trans (hfirst r hmem).le
      rw [List.filter_eq_nil_iff.mpr fun r hr => by simpa using hall r hr,
        List.filter_eq_self.mpr fun r hr => decide_eq_true (hall r hr), List.nil_append]

end Dates

/-! The invariant -/

/-- The stored rows are those of an initial part of the history, and a checkpoint of success
ends within it. -/
structure Complete (w : World) : Prop where
  sorted : w.source.Pairwise fun a b => a.date < b.date
  stored : ∃ earlier later, w.source = earlier ++ later ∧
    w.stored.getD [] = earlier.map (percentileRow w.source)
  checkpoints : ∀ start finish, w.checkpoints (start, finish) = some true →
    ∃ date ∈ storedDates w.stored, finish ≤ date

private theorem complete_grow {w : World} (h : Complete w) {rows : List SourceRow}
    (hgrows : Grows w (.grow rows)) : Complete (w.next (.grow rows)) := by
  obtain ⟨earlier, later, hsource, hstored⟩ := h.stored
  refine ⟨hgrows, ⟨earlier, later ++ rows, ?_, ?_⟩, h.checkpoints⟩
  · show w.source ++ rows = _
    rw [hsource, List.append_assoc]
  · show w.stored.getD [] = earlier.map (percentileRow (w.source ++ rows))
    rw [hstored]
    refine List.map_congr_left fun row hrow => (percentileRow_grow fun r hr => ?_).symm
    have hmem : row ∈ w.source := by
      rw [hsource]
      exact List.mem_append_left _ hrow
    exact (List.pairwise_append.mp hgrows).2.2 row hmem r hr

/-- What a task selects is nothing, or completes the stored rows. -/
private theorem selectRows_spec {w : World} (h : Complete w) {run : Run}
    (hcovered : StartCovered run w)
    (task : Task) :
    ∃ selected, selectRows run task w.source (w.stored.getD []) = .ok selected ∧
      (selected ≠ [] → mergeOutputForMode (w.stored.getD []) selected run.mode run.start =
        w.source.map (percentileRow w.source)) ∧
      (selected = [] → run.mode = .incremental → run.start = none → w.source ≠ [] →
        (∀ row ∈ w.source, row.date ≤ task.sourceEnd) →
          w.stored.getD [] = w.source.map (percentileRow w.source)) := by
  obtain ⟨earlier, later, hsource, hstored⟩ := h.stored
  have hlatest : latestDate ((w.stored.getD []).map fun row => some row.date) =
      (earlier.map SourceRow.date).max? := by
    rw [hstored, latestDate_rows, date_percentileRow]
  have hsorted : (earlier ++ later).Pairwise fun a b => a.date < b.date := hsource ▸ h.sorted
  unfold selectRows
  simp only
  rw [hlatest]
  by_cases hcovers : existingCoversSource run.mode run.start (earlier.map SourceRow.date).max?
      task.sourceEnd = true
  · rw [if_pos hcovers]
    refine ⟨[], rfl, fun hne => absurd rfl hne, fun _ _ _ _ hend => ?_⟩
    unfold existingCoversSource at hcovers
    rw [Bool.and_eq_true_iff, Option.any_eq_true] at hcovers
    obtain ⟨-, latest, hlatest', hle⟩ := hcovers
    have hnil : later = [] := by
      rw [← filter_after_max hsorted hlatest', List.filter_eq_nil_iff, ← hsource]
      intro row hrow
      have hle' := (hend row hrow).trans (of_decide_eq_true hle)
      simpa using hle'
    rw [hstored, hsource, hnil, List.append_nil]
  · rw [if_neg hcovers]
    by_cases hplain : run.mode = .incremental ∧ run.start = none ∧ w.stored.getD [] ≠ []
    · rw [if_pos hplain]
      cases hmax : (earlier.map SourceRow.date).max? with
      | none =>
        rw [List.max?_eq_none_iff, List.map_eq_nil_iff] at hmax
        exact absurd (by rw [hstored, hmax, List.map_nil]) hplain.2.2
      | some latest =>
        have happend := computeAppendOnly_eq h.sorted (hlatest.trans hmax)
        have hlater : w.source.filter (fun row => latest < row.date) = later := by
          rw [hsource]
          exact filter_after_max hsorted hmax
        rw [hlater] at happend
        refine ⟨_, happend, fun _ => ?_, fun hnil _ _ _ _ => ?_⟩
        · unfold mergeOutputForMode
          rw [if_neg (by rw [hplain.1]; simpa using hplain.2.2), hplain.2.1]
          simp only
          rw [hstored, ← List.map_append, ← hsource]
        · rw [List.map_eq_nil_iff] at hnil
          rw [hstored, hsource, hnil, List.append_nil]
    · rw [if_neg hplain, computeValuationPercentiles_eq h.sorted]
      refine ⟨_, rfl, ?_⟩
      unfold selectRowsForMode mergeOutputForMode
      by_cases hall : run.mode = .full ∨ w.stored.getD [] = [] ∧ run.start = none
      · rw [if_pos hall, if_pos (hall.imp_right And.left)]
        exact ⟨fun _ => rfl, fun hnil _ _ hne _ => absurd (List.map_eq_nil_iff.mp hnil) hne⟩
      · rw [if_neg hall]
        have hmode : run.mode = .incremental := by
          cases hm : run.mode with
          | full => exact absurd (Or.inl hm) hall
          | incremental => rfl
        cases hstart : run.start with
        | none =>
          exfalso
          by_cases hnil : w.stored.getD [] = []
          · exact hall (Or.inr ⟨hnil, hstart⟩)
          · exact hplain ⟨hmode, hstart, hnil⟩
        | some date =>
          refine ⟨fun hsome => ?_, fun _ _ hnone => by cases hnone⟩
          simp only [List.filter_map] at hsome ⊢
          -- with something to select, every earlier date is stored
          have hearlier : ∀ row ∈ later, date ≤ row.date := by
            rcases hcovered date hstart hmode with hdates | hnothing
            · intro row hrow
              by_contra hlt
              have hmem := hdates row (by rw [hsource]; exact List.mem_append_right _ hrow)
                (not_le.mp hlt)
              unfold storedDates at hmem
              rw [hstored, date_percentileRow] at hmem
              obtain ⟨r, hr, hdate⟩ := List.mem_map.mp hmem
              exact absurd hdate ((List.pairwise_append.mp hsorted).2.2 r hr row hrow).ne
            · refine absurd (List.map_eq_nil_iff.mpr (List.filter_eq_nil_iff.mpr fun row hrow => ?_)) hsome
              rw [Function.comp_apply, decide_eq_true_eq]
              exact not_le.mpr (hnothing row hrow)
          have hbefore : w.source.filter (fun row => row.date < date) =
              earlier.filter fun row => row.date < date := by
            have hnone : later.filter (fun row => row.date < date) = [] := by
              rw [List.filter_eq_nil_iff]
              intro row hrow
              simpa using hearlier row hrow
            rw [hsource, List.filter_append, hnone, List.append_nil]
          have hfrom : (earlier.filter fun row => row.date < date) ++
              w.source.filter (fun row => date ≤ row.date) = w.source := by
            rw [← hbefore]
            exact filter_before_append_from h.sorted date
          by_cases hnil : w.stored.getD [] = []
          · rw [if_pos (Or.inr hnil)]
            have hnone : earlier = [] := by
              rw [hstored, List.map_eq_nil_iff] at hnil
              exact hnil
            rw [hnone] at hfrom
            exact congrArg _ hfrom
          · rw [if_neg (by rw [hmode]; simpa using hnil), hstored, List.filter_map, ← List.map_append]
            exact congrArg _ hfrom

def World.whole (w : World) : List PercentileRow := w.source.map (percentileRow w.source)

/-- A run leaves the stored rows or completes them, and its checkpoint of success ends within
them. -/
structure TaskSpec (run : Run) (w : World) (result : RunResult) : Prop where
  stored : result.stored = w.stored ∨ result.stored.getD [] = w.whole
  checkpoint : ∀ key, result.checkpoint = some (key, true) →
    ∃ date ∈ storedDates result.stored, key.2 ≤ date
  finished : result.status = .success ∨
    result.status = .skippedExisting ∧ run.mode = .incremental ∧ run.start = none →
      result.stored.getD [] = w.whole
  status : result.status ≠ .filtered

private theorem runTask_spec {w : World} (h : Complete w) {run : Run}
    (hcovered : StartCovered run w)
    {task : Task} (hend : (w.source.map SourceRow.date).max? = some task.sourceEnd) :
    TaskSpec run w (runTask run task w) := by
  obtain ⟨selected, hselected, hmerge, hnone⟩ := selectRows_spec h hcovered task
  obtain ⟨hendMem, hendMax⟩ := List.max?_eq_some_iff.mp hend
  have hfailed : ∀ (stored : Option (List PercentileRow)) (date : CalendarDate),
      stored = w.stored ∨ stored.getD [] = w.whole →
        TaskSpec run w ⟨.failed, stored, some ((date, date), false)⟩ :=
    fun stored date hstored => ⟨hstored, fun key hkey => by simp at hkey, fun hdone => by simp at hdone,
      by simp⟩
  unfold runTask
  simp only
  split
  case isTrue => exact hfailed _ _ (Or.inl rfl)
  case isFalse hready =>
    have hne : w.source ≠ [] := fun hnil => hready (Or.inr hnil)
    rw [hselected]
    split
    case h_1 sourceStart sourceLast chosen hrange hchosen =>
      obtain rfl := Except.ok.inj hchosen
      cases hfirst : (selected.map PercentileRow.date).min? with
      | none =>
        have hnil : selected = [] := by
          rw [List.min?_eq_none_iff, List.map_eq_nil_iff] at hfirst
          exact hfirst
        refine ⟨Or.inl rfl, fun key hkey => by simp at hkey, fun hdone => ?_, by simp⟩
        rcases hdone with hsuccess | ⟨-, hmode, hstart⟩
        · cases hsuccess
        · exact hnone hnil hmode hstart hne fun row hrow => hendMax _ (List.mem_map_of_mem hrow)
      | some first =>
        have hsome : selected ≠ [] := by
          rintro rfl
          simp at hfirst
        have houtput : storedRows (mergeOutputForMode (w.stored.getD []) selected run.mode run.start) =
            w.whole := by
          rw [hmerge hsome]
          exact storedRows_eq h.sorted w.source
        rw [houtput]
        cases run.write with
        | done =>
          refine ⟨Or.inr rfl, fun key hkey => ?_, fun _ => rfl, by simp⟩
          rw [← (Prod.mk.inj (Option.some.inj hkey)).1]
          refine ⟨task.sourceEnd, ?_, le_refl _⟩
          show task.sourceEnd ∈ w.whole.map PercentileRow.date
          unfold World.whole
          rw [date_percentileRow]
          exact hendMem
        | raisedBefore => exact hfailed _ _ (Or.inl rfl)
        | raisedAfter => exact hfailed _ _ (Or.inr rfl)
    case h_2 => exact hfailed _ _ (Or.inl rfl)

private theorem prefilter_spec {w : World} (h : Complete w) (run : Run) :
    (∀ task, prefilter run w = .task task →
      (w.source.map SourceRow.date).max? = some task.sourceEnd) ∧
    (prefilter run w = .filtered → run.mode = .incremental → run.start = none →
      w.stored.getD [] = w.whole) := by
  obtain ⟨earlier, later, hsource, hstored⟩ := h.stored
  have hsorted : (earlier ++ later).Pairwise fun a b => a.date < b.date := hsource ▸ h.sorted
  -- a stored date from the end of the source on leaves nothing to add
  have hreach : ∀ sourceEnd date, (w.source.map SourceRow.date).max? = some sourceEnd →
      date ∈ storedDates w.stored → sourceEnd ≤ date → w.stored.getD [] = w.whole := by
    intro sourceEnd date hend hdate hle
    unfold storedDates at hdate
    rw [hstored, date_percentileRow] at hdate
    obtain ⟨row, hrow, rfl⟩ := List.mem_map.mp hdate
    have hnil : later = [] := by
      rw [List.eq_nil_iff_forall_not_mem]
      intro r hr
      have hlt := (List.pairwise_append.mp hsorted).2.2 row hrow r hr
      have hmax := (List.max?_eq_some_iff.mp hend).2 r.date
        (List.mem_map_of_mem (by rw [hsource]; exact List.mem_append_right _ hr))
      exact absurd (hmax.trans hle) (not_le.mpr hlt)
    unfold World.whole
    rw [hstored, ← List.append_nil earlier, ← hnil, ← hsource]
  have hrange : ∀ {dates : List CalendarDate} {first last : CalendarDate},
      dateRange dates = some (first, last) → dates.max? = some last := by
    intro dates first last hdates
    unfold dateRange at hdates
    obtain ⟨low, -, hmap⟩ := Option.bind_eq_some_iff.mp hdates
    obtain ⟨high, hhigh, heq⟩ := Option.map_eq_some_iff.mp hmap
    rw [hhigh, (Prod.mk.inj heq).2]
  unfold prefilter
  split
  case h_1 => exact ⟨fun _ htask => (by cases htask), fun hfiltered => (by cases hfiltered)⟩
  case h_2 sourceStart sourceEnd hfound =>
    have hend : (w.source.map SourceRow.date).max? = some sourceEnd := by
      split at hfound
      · exact hrange hfound
      · cases hfound
    split
    case isFalse =>
      refine ⟨fun task htask => ?_, fun hfiltered => by cases hfiltered⟩
      rw [← Prefiltered.task.inj htask]
      exact hend
    case isTrue =>
      simp only
      generalize hexisting : (if run.mode ≠ .full ∧ run.existingRangesRead = true then
        dateRange (storedDates w.stored) else none) = existing
      split
      case isTrue hcovers =>
        refine ⟨fun _ htask => (by cases htask), fun _ _ _ => ?_⟩
        unfold existingCoversSource at hcovers
        rw [Bool.and_eq_true_iff, Option.any_eq_true] at hcovers
        obtain ⟨-, latest, hlatest, hle⟩ := hcovers
        obtain ⟨range, hdates, rfl⟩ := Option.map_eq_some_iff.mp hlatest
        rw [hdates] at hexisting
        split at hexisting
        · exact hreach sourceEnd range.2 hend (List.max?_mem (hrange hexisting)) (of_decide_eq_true hle)
        · cases hexisting
      case isFalse =>
        split
        case isTrue hcheckpoint =>
          refine ⟨fun _ htask => (by cases htask), fun _ _ _ => ?_⟩
          obtain ⟨date, hdate, hle⟩ := h.checkpoints _ _ hcheckpoint.2
          exact hreach sourceEnd date hend hdate hle
        case isFalse =>
          refine ⟨fun task htask => ?_, fun hfiltered => by cases hfiltered⟩
          rw [← Prefiltered.task.inj htask]
          exact hend

private theorem complete_of_taskSpec {w : World} (h : Complete w) {run : Run} {result : RunResult}
    (hspec : TaskSpec run w result) {checkpoints : CalendarDate × CalendarDate → Option Bool}
    (hcheckpoints : ∀ key, checkpoints key = some true →
      w.checkpoints key = some true ∨ result.checkpoint = some (key, true)) :
    Complete { w with stored := result.stored, checkpoints := checkpoints } := by
  obtain ⟨earlier, later, hsource, hstored⟩ := h.stored
  have hkept : ∀ date ∈ storedDates w.stored, date ∈ storedDates result.stored := by
    rcases hspec.stored with heq | hwhole
    · rw [heq]
      exact fun _ hdate => hdate
    · intro date hdate
      unfold storedDates World.whole at *
      rw [hwhole, date_percentileRow, hsource, List.map_append]
      rw [hstored, date_percentileRow] at hdate
      exact List.mem_append_left _ hdate
  refine ⟨h.sorted, ?_, fun start finish hkey => ?_⟩
  · rcases hspec.stored with heq | hwhole
    · exact ⟨earlier, later, hsource, by rw [← hstored, ← heq]⟩
    · exact ⟨w.source, [], (List.append_nil _).symm, hwhole⟩
  · rcases hcheckpoints _ hkey with hold | hnew
    · obtain ⟨date, hdate, hle⟩ := h.checkpoints start finish hold
      exact ⟨date, hkept date hdate, hle⟩
    · exact hspec.checkpoint _ hnew

private theorem complete_persisted {w : World} (h : Complete w) {run : Run} {result : RunResult}
    (hspec : TaskSpec run w result) :
    Complete { w with
      stored := result.stored
      checkpoints := match result.checkpoint with
        | some (key, success) => if run.persisted then
            Function.update w.checkpoints key (some success) else w.checkpoints
        | none => w.checkpoints } := by
  refine complete_of_taskSpec h hspec fun key hkey => ?_
  cases hcheckpoint : result.checkpoint with
  | none =>
    rw [hcheckpoint] at hkey
    exact Or.inl hkey
  | some entry =>
    rw [hcheckpoint] at hkey
    simp only at hkey
    split at hkey
    · by_cases heq : key = entry.1
      · rw [heq, Function.update_self] at hkey
        rw [heq, ← Option.some.inj hkey]
        exact Or.inr rfl
      · rw [Function.update_of_ne heq] at hkey
        exact Or.inl hkey
    · exact Or.inl hkey

/-- The step lemma: a run keeps the invariant, and one without `--start` completes the rows. -/
private theorem update_spec {w : World} (h : Complete w) {run : Run}
    (hcovered : StartCovered run w) :
    Complete (update run w).2 ∧ (update run w).2.source = w.source ∧
      (run.mode = .incremental → run.start = none →
        (update run w).1 ∈ [RunStatus.success, .skippedExisting, .filtered] →
          (update run w).2.stored.getD [] = w.whole) := by
  obtain ⟨htasks, hfiltered⟩ := prefilter_spec h run
  have hmissing : ∀ date, TaskSpec run w ⟨.skippedMissingSource, w.stored, some ((date, date), false)⟩ :=
    fun date => ⟨Or.inl rfl, fun key hkey => by simp at hkey, fun hdone => by simp at hdone, by simp⟩
  unfold update
  simp only
  split
  case isTrue => exact ⟨h, rfl, fun _ _ hstatus => by simp at hstatus⟩
  case isFalse =>
    split
    case h_1 => exact ⟨complete_persisted h (hmissing _), rfl, fun _ _ hstatus => by simp at hstatus⟩
    case h_2 hfound => exact ⟨h, rfl, fun hmode hstart _ => hfiltered hfound hmode hstart⟩
    case h_3 task hfound =>
      have hspec := runTask_spec h hcovered (htasks task hfound)
      refine ⟨complete_persisted h hspec, rfl, fun hmode hstart hstatus => ?_⟩
      simp only [List.mem_cons, List.not_mem_nil, or_false] at hstatus
      rcases hstatus with hstatus | hstatus | hstatus
      · exact hspec.finished (Or.inl hstatus)
      · exact hspec.finished (Or.inr ⟨hstatus, hmode, hstart⟩)
      · exact absurd hstatus hspec.status

private theorem prefilter_ne_missingSource {run : Run} {w : World}
    (hranges : run.sourceRangesRead = true) (hsource : w.source ≠ []) :
    prefilter run w ≠ .missingSource := by
  obtain ⟨row, rows, hrows⟩ := List.exists_cons_of_ne_nil hsource
  unfold prefilter
  rw [if_pos hranges, hrows, List.map_cons, dateRange, List.min?_cons, List.max?_cons]
  simp only [Option.bind_some, Option.map_some]
  generalize (if run.mode ≠ .full ∧ run.existingRangesRead = true then
    dateRange (storedDates w.stored) else none) = existing
  split
  · split
    · simp
    · split <;> simp
  · simp

/-- A run that can read and write finishes. -/
private theorem update_finishes {w : World} (h : Complete w) {run : Run}
    (hcovered : StartCovered run w)
    (hstart : run.start = none) (hranges : run.sourceRangesRead = true) (hreadable : run.readable = true)
    (hwrite : run.write = .done) (hsource : w.source ≠ []) :
    (update run w).1 ∈ [RunStatus.success, .skippedExisting, .filtered] := by
  obtain ⟨row, rows, hrows⟩ := List.exists_cons_of_ne_nil hsource
  have hrange : ∃ range, dateRange (w.source.map SourceRow.date) = some range := by
    rw [hrows, List.map_cons, dateRange, List.min?_cons, List.max?_cons]
    exact ⟨_, rfl⟩
  obtain ⟨range, hrange⟩ := hrange
  have htask : ∀ task, (runTask run task w).status ∈ [RunStatus.success, .skippedExisting, .filtered] := by
    intro task
    obtain ⟨selected, hselected, -⟩ := selectRows_spec h hcovered task
    unfold runTask
    simp only
    rw [if_neg (by simp [hreadable, hsource]), hrange, hselected]
    simp only
    split
    · simp
    · rw [hwrite]
      simp
  unfold update
  simp only
  rw [if_neg (by simp [hstart])]
  split
  · rename_i hmissing
    exact absurd hmissing (prefilter_ne_missingSource hranges hsource)
  · simp
  · exact htask _

def freshWorld (source : List SourceRow) : World := ⟨source, none, fun _ => none⟩

private theorem complete_freshWorld {source : List SourceRow}
    (hsorted : source.Pairwise fun a b => a.date < b.date) : Complete (freshWorld source) :=
  ⟨hsorted, ⟨[], source, rfl, rfl⟩, fun _ _ hkey => by cases hkey⟩

private theorem complete_next {w : World} (h : Complete w) {step : Step}
    (hstep : Grows w step ∧ Covered w step) :
    Complete (w.next step) := by
  cases step with
  | grow rows => exact complete_grow h hstep.1
  | run run => exact (update_spec h hstep.2).1

def firstBar : SourceRow := bar 2024 1 2 (by decide) (some 10)

def secondBar : SourceRow := bar 2024 1 3 (by decide) (some (-5))

def fromSecond : Run := { start := some secondBar.date, force := true, today := secondBar.date }

private theorem dateRange_bars :
    dateRange ([firstBar, secondBar].map SourceRow.date) = some (firstBar.date, secondBar.date) := by
  decide

/-- The second day is stored alone. -/
def secondStored : World where
  source := [firstBar, secondBar]
  stored := some [percentileRow [firstBar, secondBar] secondBar]
  checkpoints := Function.update (fun _ => none) (secondBar.date, secondBar.date) (some true)

private theorem update_fromSecond :
    (update fromSecond (freshWorld [firstBar, secondBar])).2 = secondStored := by
  have htask : prefilter fromSecond (freshWorld [firstBar, secondBar]) =
      .task ⟨secondBar.date, none⟩ := by
    unfold prefilter
    rw [if_pos (show fromSecond.sourceRangesRead = true from rfl), show (freshWorld [firstBar, secondBar]).source = [firstBar, secondBar] from rfl,
      dateRange_bars]
    rfl
  have hselected : selectRows fromSecond ⟨secondBar.date, none⟩ [firstBar, secondBar] [] =
      .ok [percentileRow [firstBar, secondBar] secondBar] := by
    show (computeValuationPercentiles [firstBar, secondBar] >>= fun computed => _) = _
    rw [computeValuationPercentiles_eq (by decide)]
    rfl
  have hrun : runTask fromSecond ⟨secondBar.date, none⟩ (freshWorld [firstBar, secondBar]) =
      ⟨.success, some [percentileRow [firstBar, secondBar] secondBar],
        some ((secondBar.date, secondBar.date), true)⟩ := by
    unfold runTask
    simp only
    rw [if_neg (by decide), show (freshWorld [firstBar, secondBar]).source = [firstBar, secondBar] from rfl,
      dateRange_bars, show (freshWorld [firstBar, secondBar]).stored.getD [] = [] from rfl, hselected]
    rfl
  unfold update
  simp only
  rw [if_neg (by decide), htask]
  simp only
  rw [hrun]
  rfl

private theorem update_secondStored :
    update { today := secondBar.date } secondStored = (.filtered, secondStored) := by
  have hexisting : dateRange (storedDates secondStored.stored) = some (secondBar.date, secondBar.date) := by
    show dateRange [secondBar.date] = _
    decide
  have hfiltered : prefilter { today := secondBar.date } secondStored = .filtered := by
    unfold prefilter
    simp only [ne_eq, reduceCtorEq, not_false_eq_true, and_self, if_true]
    rw [hexisting, show secondStored.source = [firstBar, secondBar] from rfl, dateRange_bars]
    simp only [Option.map_some]
    rw [if_pos (show existingCoversSource .incremental none (some secondBar.date) secondBar.date = true
      from by decide)]
  unfold update
  simp only
  rw [if_neg (by decide), hfiltered]

end QuantDataCenter.Percentile
