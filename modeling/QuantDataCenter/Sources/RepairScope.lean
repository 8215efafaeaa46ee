import QuantDataCenter.Sources.Repair

/-!
What a repair leaves alone. The bars outside of the window survive the replacement of the
range; the factors of the code survive only as far as the fetch brings them back, and it
ends with the window.
-/

set_option autoImplicit false
set_option relaxedAutoImplicit false

namespace QuantDataCenter.Sources

open QuantDataCenter.Lib.Checked QuantDataCenter.Lib.Keyed QuantDataCenter.Lib.Transition
open QuantDataCenter.Tabular QuantDataCenter.Quality QuantDataCenter.Storage
open QuantDataCenter.Derived.Research

/-- The date of the row lies in the window. -/
def DatedWithin (column : String) (startDate endDate : Int) (r : Row) : Prop :=
  ∃ day ∈ Set.Icc startDate endDate, r column = .date day

def selectedDatasets (dataset : String) : List String :=
  if dataset = "all" then baostockDailyBarDatasetIds else [dataset]

def repairableDatasets : List DatasetDefinition :=
  baostockDailyBarDatasetIds.map dailyBarDataset ++ [baostockCnStockAdjustmentFactorDataset]

/-- What a repair of a partition is to leave as it is. -/
structure RepairKeeps (dataset value : String) (startDate endDate : Int) (st st' : Store) :
    Prop where
  outside : ∀ id ∈ baostockDailyBarDatasetIds, ∀ r, ¬DatedWithin "date" startDate endDate r →
    (r ∈ content st' (dailyBarDataset id) value ↔ r ∈ content st (dailyBarDataset id) value)
  notSelected : ∀ d ∈ repairableDatasets, ∀ v, ¬(d.id ∈ selectedDatasets dataset ∧ v = value) →
    ∀ r ∈ content st d v, r ∈ content st' d v
  factors : ∀ r ∈ content st baostockCnStockAdjustmentFactorDataset value, ∀ day,
    r "dividend_operate_date" = .date day → endDate < day →
      r ∈ content st' baostockCnStockAdjustmentFactorDataset value
  elsewhere : ∀ id v, id ≠ "baostock_cn_trading_calendar" →
    ¬((id ∈ selectedDatasets dataset ∨ id = adjustmentFactorDataset) ∧ v = value) →
      st'.files id v = st.files id v
  calendar : storedDates st ⊆ storedDates st'

/-- The factors that are fetched take no stored factor away that has to stay: after the window
there is none if the factors are selected, and an adjusted selection gets all of them back. -/
structure FactorsSpared (p : Pandas) (provider : RepairProvider p) (code dataset : String)
    (endDate : Int) (st : Store) : Prop where
  selected : dataset = adjustmentFactorDataset →
    ∀ r ∈ content st baostockCnStockAdjustmentFactorDataset (strip code), ∀ day,
      r "dividend_operate_date" = .date day → day ≤ endDate
  adjusted : (∃ target ∈ selectedDatasets dataset, isAdjustedDailyDataset target = true) →
    ∀ factors, provider.queryAdjustmentFactor code fullHistoryStart endDate = .ok factors →
      ∀ r ∈ content st baostockCnStockAdjustmentFactorDataset (strip code),
        r ∈ incomingRows p baostockCnStockAdjustmentFactorDataset factors

/-! Catalog facts -/

section Catalog

variable {p : Pandas} {st : Store}

private theorem factors_mem : baostockCnStockAdjustmentFactorDataset ∈ datasetCatalog := by
  simp [datasetCatalog]

private theorem factors_definition :
    datasetDefinition adjustmentFactorDataset = .ok baostockCnStockAdjustmentFactorDataset := rfl

private theorem calendar_not_repairable : "baostock_cn_trading_calendar" ≠ adjustmentFactorDataset ∧
    "baostock_cn_trading_calendar" ∉ baostockDailyBarDatasetIds := by decide

private theorem factors_not_bars : adjustmentFactorDataset ∉ baostockDailyBarDatasetIds ∧
    adjustmentFactorDataset ≠ "all" := by decide

end Catalog

theorem DatedIn.adjusted {p : Pandas} {df factors out : Frame} {dataset adjustFlag : String}
    {days : Set Int} (hdated : DatedIn p df "date" days)
    (h : calculateAdjustedDailyBar p df factors dataset adjustFlag = .ok out) :
    DatedIn p out "date" days := by
  have hplain : ∀ source columns, source ∈ sourceColumns columns "date" →
      source ≠ "adjust_flag" ∧ source ∉ priceColumns := by
    intro source columns hsource
    unfold sourceColumns at hsource
    split at hsource
    case isTrue =>
      obtain rfl := List.mem_singleton.mp hsource
      decide
    case isFalse =>
      have halias := of_decide_eq_true (List.mem_filter.mp hsource).2
      simp [columnAliases] at halias
  obtain ⟨factorColumn, values, -, -, hcolumns, hrows⟩ := calculate_spec h
  intro source hsource r hr ts hts
  rw [hcolumns] at hsource
  rw [hrows] at hr
  obtain ⟨r0, hr0, rfl⟩ := List.mem_map.mp hr
  obtain ⟨hflag, hprice⟩ := hplain source _ hsource
  rw [adjustedRow_other hflag hprice] at hts
  exact hdated source hsource r0 hr0 ts hts

/-! The steps -/

section Steps

variable {p : Pandas} {h : Hashing} {env : RepairEnv} {provider : RepairProvider p}
  {code dataset : String} {startDate endDate : Int} {st st' : Store}

private theorem ensureCalendarRange_spec (hst : WellStored p st) :
    WellStored p (ensureCalendarRange p h env provider startDate endDate st).2 ∧
      (∀ id, id ≠ "baostock_cn_trading_calendar" →
        (ensureCalendarRange p h env provider startDate endDate st).2.files id = st.files id) ∧
      storedDates st ⊆ storedDates (ensureCalendarRange p h env provider startDate endDate st).2 := by
  unfold ensureCalendarRange
  cases readCalendar p env.calendarRead st with
  | error e => exact ⟨hst, fun _ _ => rfl, subset_rfl⟩
  | ok calendar =>
    simp only
    split
    case isTrue => exact ⟨hst, fun _ _ => rfl, subset_rfl⟩
    case isFalse =>
      cases provider.queryTradeDates with
      | error e => exact ⟨hst, fun _ _ => rfl, subset_rfl⟩
      | ok fetched =>
        have hwell := @wellStored_writeDataset p h st env.calendarWrite
          "baostock_cn_trading_calendar" fetched none hst
        have hfiles : ∀ id, id ≠ "baostock_cn_trading_calendar" →
            (writeDataset p h env.calendarWrite "baostock_cn_trading_calendar" fetched none none
              false st).2.files id = st.files id :=
          fun id hid => funext fun v => writeDataset_files_of_ne hid v
        have hdates : storedDates st ⊆ storedDates (writeDataset p h env.calendarWrite
            "baostock_cn_trading_calendar" fetched none none false st).2 := by
          rw [storedDates_of_merge hst]
          split
          · exact Set.subset_union_left
          · exact subset_rfl
        simp only
        rcases hout : writeDataset p h env.calendarWrite "baostock_cn_trading_calendar" fetched none
          none false st with ⟨result, st1⟩
        rw [hout] at hwell hfiles hdates
        cases result with
        | error e => exact ⟨hwell, hfiles, hdates⟩
        | ok r => exact ⟨hwell, hfiles, hdates⟩

private theorem repairFactors_spec {fresh : Frame} {result : DatasetWriteResult}
    (hst : WellStored p st)
    (hrun : repairFactors p h env provider code endDate st = (.ok (fresh, result), st')) :
    provider.queryAdjustmentFactor code fullHistoryStart endDate = .ok fresh ∧ WellStored p st' ∧
      (∀ id v, ¬(id = adjustmentFactorDataset ∧ v = strip code) →
        st'.files id v = st.files id v) ∧
      ∀ r, r ∈ content st' baostockCnStockAdjustmentFactorDataset (strip code) ↔
        r ∈ incomingRows p baostockCnStockAdjustmentFactorDataset fresh := by
  unfold repairFactors at hrun
  cases hfetch : provider.queryAdjustmentFactor code fullHistoryStart endDate with
  | error e =>
    rw [hfetch] at hrun
    cases (Prod.mk.inj hrun).1
  | ok df =>
    rw [hfetch] at hrun
    simp only at hrun
    rcases hwrite : writeDataset p h env.factorWrite adjustmentFactorDataset df (codePartition code)
      none false st with ⟨out, st1⟩
    rw [hwrite] at hrun
    cases out with
    | error e => cases (Prod.mk.inj hrun).1
    | ok written =>
      obtain ⟨hout, rfl⟩ := Prod.mk.inj hrun
      obtain ⟨rfl, rfl⟩ := Prod.mk.inj (Except.ok.inj hout)
      obtain ⟨hwell, hfiles, coerced, hcoerced, hrows⟩ :=
        replacePartition_spec factors_mem factors_definition rfl rfl rfl hst hwrite
      refine ⟨rfl, hwell, hfiles, fun r => ?_⟩
      rw [incomingRows_of_ok hcoerced, hrows]
      exact (sortValues_perm _ _ _).mem_iff

private theorem repairDailyFrame_days {factors fresh : Frame} {cache cache' : Option Frame}
    (hcache : ∀ df, cache = some df → DatedIn p df "date" (Set.Icc startDate endDate))
    (hfresh : repairDailyFrame p env provider dataset code startDate endDate factors cache =
      .ok (fresh, cache')) :
    DatedIn p fresh "date" (Set.Icc startDate endDate) ∧
      ∀ df, cache' = some df → DatedIn p df "date" (Set.Icc startDate endDate) := by
  have hraw : ∀ df, repairUnadjusted p provider code startDate endDate cache = .ok df →
      DatedIn p df "date" (Set.Icc startDate endDate) := by
    intro df hdf
    unfold repairUnadjusted at hdf
    cases cache with
    | none => exact provider.bar_days _ _ _ _ _ hdf
    | some df' =>
      obtain rfl := Except.ok.inj hdf
      exact hcache df' rfl
  unfold repairDailyFrame at hfresh
  split at hfresh
  case isTrue =>
    obtain ⟨df, hdf, hout⟩ := bind_eq_ok.mp hfresh
    obtain ⟨rfl, rfl⟩ := Prod.mk.inj (Except.ok.inj hout)
    refine ⟨hraw df hdf, fun df' hdf' => ?_⟩
    obtain rfl := Option.some.inj hdf'
    exact hraw df hdf
  case isFalse =>
    split at hfresh
    case isTrue =>
      obtain ⟨df, hdf, hfresh⟩ := bind_eq_ok.mp hfresh
      obtain ⟨flag, -, hfresh⟩ := bind_eq_ok.mp hfresh
      obtain ⟨adjusted, hadjusted, hout⟩ := bind_eq_ok.mp hfresh
      obtain ⟨rfl, rfl⟩ := Prod.mk.inj (Except.ok.inj hout)
      refine ⟨?_, fun df' hdf' => ?_⟩
      · exact (hraw df hdf).adjusted hadjusted
      · obtain rfl := Option.some.inj hdf'
        exact hraw df hdf
    case isFalse =>
      obtain ⟨df, hdf, hout⟩ := bind_eq_ok.mp hfresh
      obtain ⟨rfl, rfl⟩ := Prod.mk.inj (Except.ok.inj hout)
      exact ⟨provider.bar_days _ _ _ _ _ hdf, hcache⟩

private theorem mem_repairedBars {fresh merged coerced : Frame}
    (hid : dataset ∈ baostockDailyBarDatasetIds) (hst : WellStored p st)
    (hdays : DatedIn p fresh "date" (Set.Icc startDate endDate))
    (hbars : repairedBars p env dataset code startDate endDate fresh st = .ok merged)
    (hcoerced : coercedFrame p (dailyBarDataset dataset) merged = .ok coerced) {r : Row}
    (hdated : ∀ r ∈ coerced.rows, ∃ day, r "date" = .date day)
    (hr : ¬DatedWithin "date" startDate endDate r) :
    r ∈ coerced.rows ↔ r ∈ content st (dailyBarDataset dataset) (strip code) := by
  have hmem := dailyBar_mem hid
  have wf := wellFormed_of_mem hmem
  have hdate : (⟨"date", .date32⟩ : Field) ∈ dailyBarSchema := List.mem_cons_self
  have hnames : (fieldNames dailyBarSchema).Nodup := by decide
  obtain ⟨definition, hdef, hbars⟩ := bind_eq_ok.mp hbars
  obtain rfl := Except.ok.inj ((baostockBars_definition hid).symm.trans hdef)
  obtain ⟨value, hvalue, hbars⟩ := bind_eq_ok.mp hbars
  obtain rfl := codePartition_value rfl rfl hvalue
  obtain ⟨existing, hread, hreplace⟩ := bind_eq_ok.mp hbars
  have hstored := hst _ hmem (strip code)
  obtain ⟨hexisting, hcolumns⟩ := readDataset_rows wf hstored hread
  have hsettled : ∀ r ∈ existing.rows, Settled p (dailyBarDataset dataset) r := by
    intro r hr
    rw [hexisting] at hr
    exact (content_stored hstored r hr).1
  obtain ⟨new, hnew, hmerged, hrows⟩ := replaceDailyRange_spec hid hcolumns hsettled hreplace
  rw [coercedFrame_dailyBar] at hcoerced
  obtain ⟨-, hcoercedRows⟩ := clean_dailyBar hcoerced
  obtain ⟨-, hnewRows⟩ := clean_dailyBar hnew
  -- fresh bars lie in the window
  have hfresh : ∀ w ∈ new.rows, ∀ day, w "date" = .date day →
      day ∈ Set.Icc startDate endDate := by
    intro w hw day hday
    rw [hnewRows] at hw
    obtain ⟨r0, hr0, rfl⟩ := List.mem_map.mp hw
    exact hdays.cleanRow hnames hdate hr0 hday
  have hnewDate : ∀ w ∈ new.rows, FieldType.date32.accepts (w "date") = true := by
    intro w hw
    rw [hnewRows] at hw
    obtain ⟨r0, -, rfl⟩ := List.mem_map.mp hw
    exact cleanRow_date32_accepts hnames hdate r0
  have hkeep : ∀ w, Settled p (dailyBarDataset dataset) w → cleanRow p merged dailyBarSchema w = w :=
    fun w hw => cleanRow_of_settled wf hmerged hw
  rw [hcoercedRows, List.mem_map]
  constructor
  · rintro ⟨w, hw, rfl⟩
    rw [hrows] at hw
    rcases mem_of_mem_mergedBars hw with hold | hnewBar
    · obtain ⟨hold, -⟩ := List.mem_filter.mp hold
      rw [hkeep w (hsettled w hold), ← hexisting]
      exact hold
    · exfalso
      have hcell : cleanRow p merged dailyBarSchema w "date" = w "date" :=
        (coercedRow_of_ne wf (by decide)).symm.trans
          (coercedRow_of_accepts wf hmerged hdate (by decide) (hnewDate w hnewBar))
      have hcoercedBar : cleanRow p merged dailyBarSchema w ∈ coerced.rows := by
        rw [hcoercedRows, hrows]
        exact List.mem_map_of_mem hw
      obtain ⟨day, hday⟩ := hdated _ hcoercedBar
      exact hr ⟨day, hfresh w hnewBar day (hcell.symm.trans hday), hday⟩
  · intro hbar
    obtain ⟨haccepted, -⟩ := content_bars hst hid (strip code)
    obtain ⟨day, hday⟩ := haccepted.date r hbar
    have houtside : day < startDate ∨ endDate < day := by
      by_contra hin
      push Not at hin
      exact hr ⟨day, hin, hday⟩
    rw [← hexisting] at hbar
    refine ⟨r, ?_, hkeep r (hsettled r hbar)⟩
    rw [hrows]
    apply mem_mergedBars_of_alone
    · refine List.Nodup.sublist (List.Sublist.map _ List.filter_sublist) ?_
      rw [hexisting]
      exact nodup_frameKey haccepted
    · exact List.mem_filter.mpr ⟨hbar, (outsideWindow_date hday).mpr houtside⟩
    · -- a fresh bar of the same day would lie in the window
      intro hkey
      obtain ⟨w, hw, heq⟩ := List.mem_map.mp hkey
      have hdays := (Prod.mk.inj heq).2
      rw [hday, normalizedDay_date] at hdays
      obtain ⟨day', hday'⟩ : ∃ day', w "date" = .date day' := by
        apply eq_date_of_accepts (hnewDate w hw)
        intro hnull
        rw [hnull] at hdays
        cases hdays
      rw [hday', normalizedDay_date] at hdays
      obtain rfl := Option.some.inj hdays
      exact hr ⟨day', hfresh w hw day' hday', hday⟩

/-- One target: its bars outside of the window stay, and so does every other file. -/
private theorem repairTarget_spec {factors : Frame} {cache cache' : Option Frame}
    {result : RepairResult}
    (hid : dataset ∈ baostockDailyBarDatasetIds) (hst : WellStored p st)
    (hcache : ∀ df, cache = some df → DatedIn p df "date" (Set.Icc startDate endDate))
    (hrun : repairTarget p h env provider dataset code startDate endDate factors cache st =
      (.ok (result, cache'), st')) :
    WellStored p st' ∧
      (∀ df, cache' = some df → DatedIn p df "date" (Set.Icc startDate endDate)) ∧
      (∀ id v, ¬(id = dataset ∧ v = strip code) → st'.files id v = st.files id v) ∧
      ∀ r, ¬DatedWithin "date" startDate endDate r →
        (r ∈ content st' (dailyBarDataset dataset) (strip code) ↔
          r ∈ content st (dailyBarDataset dataset) (strip code)) := by
  have hmem := dailyBar_mem hid
  have wf := wellFormed_of_mem hmem
  unfold repairTarget at hrun
  cases hfresh : repairDailyFrame p env provider dataset code startDate endDate factors cache with
  | error e =>
    rw [hfresh] at hrun
    cases (Prod.mk.inj hrun).1
  | ok out =>
    obtain ⟨fresh, cache1⟩ := out
    rw [hfresh] at hrun
    simp only at hrun
    cases hbars : repairedBars p env dataset code startDate endDate fresh st with
    | error e =>
      rw [hbars] at hrun
      cases (Prod.mk.inj hrun).1
    | ok merged =>
      rw [hbars] at hrun
      simp only at hrun
      rcases hwrite : writeDataset p h (env.writes dataset) dataset merged (codePartition code) none
        false st with ⟨written, st1⟩
      rw [hwrite] at hrun
      cases written with
      | error e => cases (Prod.mk.inj hrun).1
      | ok written =>
        obtain ⟨hout, rfl⟩ := Prod.mk.inj hrun
        obtain ⟨path, -, hpair⟩ := map_eq_ok.mp hout
        obtain ⟨-, rfl⟩ := Prod.mk.inj hpair
        obtain ⟨hdays, hcache'⟩ := repairDailyFrame_days hcache hfresh
        obtain ⟨hwell, hfiles, coerced, hcoerced, hrows⟩ :=
          @replacePartition_spec p h st st1 code (dailyBarDataset dataset) _ merged written hmem
            (baostockBars_definition hid) rfl rfl rfl hst hwrite
        have hwritten : ∀ r, r ∈ content st1 (dailyBarDataset dataset) (strip code) ↔
            r ∈ coerced.rows := by
          intro r
          rw [hrows]
          exact (sortValues_perm _ _ _).mem_iff
        refine ⟨hwell, hcache', hfiles, fun r hr => ?_⟩
        rw [hwritten]
        refine mem_repairedBars hid hst hdays hbars hcoerced (fun w hw => ?_) hr
        exact (content_bars hwell hid (strip code)).1.date w ((hwritten w).mpr hw)

end Steps

/-! Whole repairs -/

section Run

variable {p : Pandas} {h : Hashing} {env : RepairEnv} {provider : RepairProvider p}
  {code dataset : String} {startDate endDate : Int} {st st' : Store}

/-- Only the bars of the targets change, inside of the window. -/
structure BarsKept (targets : List String) (value : String) (startDate endDate : Int)
    (st st' : Store) : Prop where
  outside : ∀ id ∈ baostockDailyBarDatasetIds, ∀ r, ¬DatedWithin "date" startDate endDate r →
    (r ∈ content st' (dailyBarDataset id) value ↔ r ∈ content st (dailyBarDataset id) value)
  files : ∀ id v, ¬(id ∈ targets ∧ v = value) → st'.files id v = st.files id v

private theorem repairTargets_kept {factors : Frame} {targets : List String} {cache : Option Frame}
    {results : List RepairResult} (htargets : ∀ id ∈ targets, id ∈ baostockDailyBarDatasetIds)
    (hst : WellStored p st)
    (hcache : ∀ df, cache = some df → DatedIn p df "date" (Set.Icc startDate endDate))
    (hrun : repairTargets p h env provider code startDate endDate factors targets cache st =
      (.ok results, st')) : BarsKept targets (strip code) startDate endDate st st' := by
  induction targets generalizing cache st results with
  | nil =>
    obtain ⟨-, rfl⟩ := Prod.mk.inj hrun
    exact ⟨fun _ _ _ _ => Iff.rfl, fun _ _ _ => rfl⟩
  | cons target targets ih =>
    unfold repairTargets at hrun
    rcases htarget : repairTarget p h env provider target code startDate endDate factors cache st
      with ⟨out, st1⟩
    rw [htarget] at hrun
    cases out with
    | error e => cases (Prod.mk.inj hrun).1
    | ok out =>
      obtain ⟨result, cache1⟩ := out
      simp only at hrun
      rcases hrest : repairTargets p h env provider code startDate endDate factors targets cache1 st1
        with ⟨out, st2⟩
      rw [hrest] at hrun
      cases out with
      | error e => cases (Prod.mk.inj hrun).1
      | ok rest =>
        obtain ⟨-, rfl⟩ := Prod.mk.inj hrun
        have hid := htargets target List.mem_cons_self
        obtain ⟨hwell, hcache1, hfiles, houtside⟩ := repairTarget_spec hid hst hcache htarget
        have hkept := ih (fun id hid => htargets id (List.mem_cons_of_mem _ hid)) hwell hcache1 hrest
        constructor
        · intro id hid r hr
          rw [hkept.outside id hid r hr]
          by_cases heq : id = target
          · subst heq
            exact houtside r hr
          · rw [content_congr (hfiles id (strip code) fun hsame => heq hsame.1)]
        · intro id v hnot
          rw [hkept.files id v fun hsame => hnot ⟨List.mem_cons_of_mem _ hsame.1, hsame.2⟩]
          exact hfiles id v fun hsame => hnot ⟨by rw [hsame.1]; exact List.mem_cons_self, hsame.2⟩

private theorem factor_day_le {factors : Frame}
    (hfetch : provider.queryAdjustmentFactor code fullHistoryStart endDate = .ok factors)
    {r : Row} (hr : r ∈ incomingRows p baostockCnStockAdjustmentFactorDataset factors) {day : Int}
    (hday : r "dividend_operate_date" = .date day) : day ≤ endDate := by
  have hfield : (⟨"dividend_operate_date", .date32⟩ : Field) ∈
      baostockCnStockAdjustmentFactorSchema := by decide
  unfold incomingRows at hr
  cases hcoerced : coercedFrame p baostockCnStockAdjustmentFactorDataset factors with
  | error e =>
    rw [hcoerced] at hr
    cases hr
  | ok coerced =>
    rw [hcoerced] at hr
    simp only at hr
    rw [coercedFrame_rows hcoerced] at hr
    obtain ⟨r0, hr0, rfl⟩ := List.mem_map.mp hr
    rw [coercedRow_of_ne (wellFormed_of_mem factors_mem) (by decide)] at hday
    exact ((provider.factor_days _ _ _ _ hfetch).cleanRow (by decide) hfield hr0 hday).2

private theorem expandDailyDatasets_eq_ok {targets : List String}
    (hexpand : expandDailyDatasets dataset = .ok targets) :
    targets = selectedDatasets dataset ∧ ∀ id ∈ targets, id ∈ baostockDailyBarDatasetIds := by
  unfold expandDailyDatasets at hexpand
  unfold selectedDatasets
  split at hexpand
  case isTrue hall =>
    obtain rfl := Except.ok.inj hexpand
    exact ⟨(if_pos hall).symm, fun id hid => hid⟩
  case isFalse hall =>
    split at hexpand
    case isTrue hmem =>
      obtain rfl := Except.ok.inj hexpand
      refine ⟨(if_neg hall).symm, fun id hid => ?_⟩
      rw [List.mem_singleton.mp hid]
      exact hmem
    case isFalse => cases hexpand

/-- The ways a repair goes on in its window, once it returns. -/
inductive RepairCourse (p : Pandas) (provider : RepairProvider p) (code dataset : String)
    (startDate endDate : Int) (st st' : Store) : Prop where
  | factors (selected : dataset = adjustmentFactorDataset) (fresh : Frame)
      (fetched : provider.queryAdjustmentFactor code fullHistoryStart endDate = .ok fresh)
      (files : ∀ id v, ¬(id = adjustmentFactorDataset ∧ v = strip code) →
        st'.files id v = st.files id v)
      (rows : ∀ r, r ∈ content st' baostockCnStockAdjustmentFactorDataset (strip code) ↔
        r ∈ incomingRows p baostockCnStockAdjustmentFactorDataset fresh)
  | adjusted (bars : ∀ id ∈ selectedDatasets dataset, id ∈ baostockDailyBarDatasetIds)
      (adjusted : ∃ target ∈ selectedDatasets dataset, isAdjustedDailyDataset target = true)
      (fresh : Frame) (st1 : Store)
      (fetched : provider.queryAdjustmentFactor code fullHistoryStart endDate = .ok fresh)
      (files : ∀ id v, ¬(id = adjustmentFactorDataset ∧ v = strip code) →
        st1.files id v = st.files id v)
      (rows : ∀ r, r ∈ content st1 baostockCnStockAdjustmentFactorDataset (strip code) ↔
        r ∈ incomingRows p baostockCnStockAdjustmentFactorDataset fresh)
      (kept : BarsKept (selectedDatasets dataset) (strip code) startDate endDate st1 st')
  | unadjusted (bars : ∀ id ∈ selectedDatasets dataset, id ∈ baostockDailyBarDatasetIds)
      (unadjusted : ¬∃ target ∈ selectedDatasets dataset, isAdjustedDailyDataset target = true)
      (kept : BarsKept (selectedDatasets dataset) (strip code) startDate endDate st st')

private theorem repairWithin_course {results : List RepairResult} (hst : WellStored p st)
    (hrun : repairWithin p h env provider code dataset startDate endDate st = (.ok results, st')) :
    RepairCourse p provider code dataset startDate endDate st st' := by
  unfold repairWithin at hrun
  split at hrun
  case isTrue hselected =>
    rcases hfactors : repairFactors p h env provider code endDate st with ⟨out, st1⟩
    rw [hfactors] at hrun
    cases out with
    | error e => cases (Prod.mk.inj hrun).1
    | ok out =>
      obtain ⟨-, rfl⟩ := Prod.mk.inj hrun
      obtain ⟨hfetch, -, hfiles, hrows⟩ := repairFactors_spec hst hfactors
      exact .factors hselected out.1 hfetch hfiles hrows
  case isFalse =>
    cases hexpand : expandDailyDatasets dataset with
    | error e =>
      rw [hexpand] at hrun
      cases (Prod.mk.inj hrun).1
    | ok targets =>
      obtain ⟨rfl, hbars⟩ := expandDailyDatasets_eq_ok hexpand
      rw [hexpand] at hrun
      simp only at hrun
      have hnone : ∀ df, (none : Option Frame) = some df →
          DatedIn p df "date" (Set.Icc startDate endDate) := fun df hdf => by cases hdf
      split at hrun
      case isTrue hadjusted =>
        rcases hfactors : repairFactors p h env provider code endDate st with ⟨out, st1⟩
        rw [hfactors] at hrun
        cases out with
        | error e => cases (Prod.mk.inj hrun).1
        | ok out =>
          obtain ⟨hfetch, hwell, hfiles, hrows⟩ := repairFactors_spec hst hfactors
          exact .adjusted hbars (List.any_eq_true.mp hadjusted) out.1 st1 hfetch hfiles hrows
            (repairTargets_kept hbars hwell hnone hrun)
      case isFalse hadjusted =>
        exact .unadjusted hbars (fun hany => hadjusted (List.any_eq_true.mpr hany))
          (repairTargets_kept hbars hst hnone hrun)

private theorem storedDates_congr
    (hfile : st'.files "baostock_cn_trading_calendar" "" = st.files "baostock_cn_trading_calendar" "") :
    storedDates st' = storedDates st := by
  have hcontent : content st' baostockCnTradingCalendarDataset "" =
      content st baostockCnTradingCalendarDataset "" := content_congr hfile
  unfold storedDates
  rw [hcontent]

private theorem repairable_cases {d : DatasetDefinition} (hd : d ∈ repairableDatasets) :
    d.id ∈ baostockDailyBarDatasetIds ∨ d = baostockCnStockAdjustmentFactorDataset := by
  rcases List.mem_append.mp hd with hbar | hfactor
  · obtain ⟨id, hid, rfl⟩ := List.mem_map.mp hbar
    exact Or.inl hid
  · exact Or.inr (List.mem_singleton.mp hfactor)

private theorem selectedDatasets_factors : selectedDatasets adjustmentFactorDataset =
    [adjustmentFactorDataset] := rfl

private theorem not_selected_of_bars
    (bars : ∀ id ∈ selectedDatasets dataset, id ∈ baostockDailyBarDatasetIds) :
    adjustmentFactorDataset ∉ selectedDatasets dataset := fun hmem =>
  factors_not_bars.1 (bars _ hmem)

private theorem ne_factors_of_bars
    (bars : ∀ id ∈ selectedDatasets dataset, id ∈ baostockDailyBarDatasetIds) :
    dataset ≠ adjustmentFactorDataset := by
  intro heq
  apply not_selected_of_bars bars
  rw [heq, selectedDatasets_factors]
  exact List.mem_singleton_self _

theorem RepairCourse.calendar
    (course : RepairCourse p provider code dataset startDate endDate st st') :
    storedDates st' = storedDates st := by
  obtain ⟨hcalendar, hcalendarBars⟩ := calendar_not_repairable
  apply storedDates_congr
  cases course with
  | factors _ _ _ files _ => exact files _ _ fun hsame => hcalendar hsame.1
  | adjusted bars _ _ st1 _ files _ kept =>
    exact (kept.files _ _ fun hsame => hcalendarBars (bars _ hsame.1)).trans
      (files _ _ fun hsame => hcalendar hsame.1)
  | unadjusted bars _ kept => exact kept.files _ _ fun hsame => hcalendarBars (bars _ hsame.1)

private theorem RepairCourse.spared
    (course : RepairCourse p provider code dataset startDate endDate st st')
    (keeps : RepairKeeps dataset (strip code) startDate endDate st st') :
    FactorsSpared p provider code dataset endDate st := by
  constructor
  · intro hselected r hr day hday
    by_contra hlater
    have hkept := keeps.factors r hr day hday (not_le.mp hlater)
    cases course with
    | factors _ fresh fetched _ rows =>
      exact hlater (factor_day_le fetched ((rows r).mp hkept) hday)
    | adjusted bars => exact ne_factors_of_bars bars hselected
    | unadjusted bars => exact ne_factors_of_bars bars hselected
  · intro hadjusted factors hfetch r hr
    cases course with
    | factors selected =>
      obtain ⟨target, htarget, hadjusted⟩ := hadjusted
      rw [selected, selectedDatasets_factors, List.mem_singleton] at htarget
      rw [htarget] at hadjusted
      exact absurd hadjusted (by decide)
    | unadjusted _ unadjusted => exact absurd hadjusted unadjusted
    | adjusted bars _ fresh st1 fetched files rows kept =>
      have hnot := not_selected_of_bars bars
      have hkept := keeps.notSelected _ (List.mem_append_right _ (List.mem_singleton_self _))
        (strip code) (fun hsame => hnot hsame.1) r hr
      have hsame : content st' baostockCnStockAdjustmentFactorDataset (strip code) =
          content st1 baostockCnStockAdjustmentFactorDataset (strip code) :=
        content_congr (kept.files _ _ fun hsame => hnot hsame.1)
      rw [hsame] at hkept
      obtain rfl := Except.ok.inj (fetched.symm.trans hfetch)
      exact (rows r).mp hkept

/-- Where bars are selected it comes down to the factors that are stored before the bars. -/
private theorem repairKeeps_of_bars {st1 : Store} {value : String}
    (bars : ∀ id ∈ selectedDatasets dataset, id ∈ baostockDailyBarDatasetIds)
    (files : ∀ id v, ¬(id = adjustmentFactorDataset ∧ v = value) → st1.files id v = st.files id v)
    (factors : ∀ r ∈ content st baostockCnStockAdjustmentFactorDataset value,
      r ∈ content st1 baostockCnStockAdjustmentFactorDataset value)
    (kept : BarsKept (selectedDatasets dataset) value startDate endDate st1 st') :
    RepairKeeps dataset value startDate endDate st st' := by
  obtain ⟨hcalendar, hcalendarBars⟩ := calendar_not_repairable
  have hnot := not_selected_of_bars bars
  have hfactors : ∀ r ∈ content st baostockCnStockAdjustmentFactorDataset value,
      r ∈ content st' baostockCnStockAdjustmentFactorDataset value := by
    intro r hr
    have hfile : st'.files baostockCnStockAdjustmentFactorDataset.id value =
        st1.files baostockCnStockAdjustmentFactorDataset.id value :=
      kept.files _ _ fun hsame => hnot hsame.1
    rw [content_congr hfile]
    exact factors r hr
  refine ⟨fun id hid r hr => ?_, fun d hd v hother r hr => ?_, fun r hr _ _ _ => hfactors r hr,
    fun id v hid hother => ?_, ?_⟩
  · have hfile : st1.files (dailyBarDataset id).id value = st.files (dailyBarDataset id).id value :=
      files id value fun hsame => factors_not_bars.1 (hsame.1 ▸ hid)
    rw [kept.outside id hid r hr, content_congr hfile]
  · by_cases hfactor : d.id = adjustmentFactorDataset ∧ v = value
    · obtain ⟨hid, rfl⟩ := hfactor
      rcases repairable_cases hd with hbar | rfl
      · rw [hid] at hbar
        exact absurd hbar factors_not_bars.1
      · exact hfactors r hr
    · rw [content_congr ((kept.files d.id v hother).trans (files d.id v hfactor))]
      exact hr
  · rw [kept.files id v fun hsame => hother ⟨Or.inl hsame.1, hsame.2⟩]
    exact files id v fun hsame => hother ⟨Or.inr hsame.1, hsame.2⟩
  · have hsame := (kept.files "baostock_cn_trading_calendar" "" fun hsame =>
      hcalendarBars (bars _ hsame.1)).trans (files _ _ fun hsame => hcalendar hsame.1)
    rw [storedDates_congr hsame]

theorem RepairCourse.keeps (course : RepairCourse p provider code dataset startDate endDate st st')
    (spared : FactorsSpared p provider code dataset endDate st) :
    RepairKeeps dataset (strip code) startDate endDate st st' := by
  cases course with
  | factors selected fresh fetched files rows =>
    have hbars : ∀ id ∈ baostockDailyBarDatasetIds, id ≠ adjustmentFactorDataset :=
      fun id hid heq => factors_not_bars.1 (heq ▸ hid)
    refine ⟨fun id hid r hr => ?_, fun d hd v hnot r hr => ?_, fun r hr day hday hlater => ?_,
      fun id v hid hnot => ?_, ?_⟩
    · have hfile := files id (strip code) fun hsame => hbars id hid hsame.1
      rw [content_congr (d := dailyBarDataset id) hfile]
    · rw [content_congr (files d.id v fun hsame => hnot ⟨?_, hsame.2⟩)]
      · exact hr
      · rw [selected, selectedDatasets_factors, hsame.1]
        exact List.mem_singleton_self _
    · exact absurd (spared.selected selected r hr day hday) (not_le.mpr hlater)
    · exact files id v fun hsame => hnot ⟨Or.inr hsame.1, hsame.2⟩
    · rw [storedDates_congr (files _ _ fun hsame => calendar_not_repairable.1 hsame.1)]
  | adjusted bars adjusted fresh st1 fetched files rows kept =>
    exact repairKeeps_of_bars bars files
      (fun r hr => (rows r).mpr (spared.adjusted adjusted fresh fetched r hr)) kept
  | unadjusted bars unadjusted kept =>
    exact repairKeeps_of_bars bars (fun _ _ _ => rfl) (fun _ hr => hr) kept

theorem FactorsSpared.congr {st1 : Store}
    (hfile : st1.files adjustmentFactorDataset (strip code) =
      st.files adjustmentFactorDataset (strip code)) :
    FactorsSpared p provider code dataset endDate st1 ↔
      FactorsSpared p provider code dataset endDate st := by
  have hcontent : content st1 baostockCnStockAdjustmentFactorDataset (strip code) =
      content st baostockCnStockAdjustmentFactorDataset (strip code) := content_congr hfile
  constructor
  · rintro ⟨selected, adjusted⟩
    rw [hcontent] at selected adjusted
    exact ⟨selected, adjusted⟩
  · rintro ⟨selected, adjusted⟩
    rw [← hcontent] at selected adjusted
    exact ⟨selected, adjusted⟩

/-- What is kept does not depend on days that were added to the calendar before. -/
private theorem RepairKeeps.calendar_first {st1 : Store} {value : String}
    (hfiles : ∀ id, id ≠ "baostock_cn_trading_calendar" → st1.files id = st.files id)
    (hdates : storedDates st ⊆ storedDates st1) (hsame : storedDates st' = storedDates st1) :
    RepairKeeps dataset value startDate endDate st st' ↔
      RepairKeeps dataset value startDate endDate st1 st' := by
  have hcontent : ∀ d ∈ repairableDatasets, ∀ v, content st1 d v = content st d v := by
    intro d hd v
    have hid : d.id ≠ "baostock_cn_trading_calendar" := by
      rcases repairable_cases hd with hbar | rfl
      · exact fun heq => calendar_not_repairable.2 (heq ▸ hbar)
      · exact fun heq => calendar_not_repairable.1 heq.symm
    exact content_congr (congrFun (hfiles d.id hid) v)
  have hbar : ∀ id ∈ baostockDailyBarDatasetIds, dailyBarDataset id ∈ repairableDatasets :=
    fun id hid => List.mem_append_left _ (List.mem_map_of_mem hid)
  have hfactor : baostockCnStockAdjustmentFactorDataset ∈ repairableDatasets :=
    List.mem_append_right _ (List.mem_singleton_self _)
  constructor
  · rintro ⟨outside, notSelected, factors, elsewhere, -⟩
    refine ⟨fun id hid => ?_, fun d hd v => ?_, ?_, fun id v hid => ?_, hsame.symm.subset⟩
    · rw [hcontent _ (hbar id hid)]
      exact outside id hid
    · rw [hcontent d hd]
      exact notSelected d hd v
    · rw [hcontent _ hfactor]
      exact factors
    · rw [hfiles id hid]
      exact elsewhere id v hid
  · rintro ⟨outside, notSelected, factors, elsewhere, -⟩
    refine ⟨fun id hid => ?_, fun d hd v => ?_, ?_, fun id v hid => ?_, ?_⟩
    · rw [← hcontent _ (hbar id hid)]
      exact outside id hid
    · rw [← hcontent d hd]
      exact notSelected d hd v
    · rw [← hcontent _ hfactor]
      exact factors
    · rw [← hfiles id hid]
      exact elsewhere id v hid
    · rw [hsame]
      exact hdates

/-- A repair that returns keeps what it is to keep if and only if its fetch of factors spares the
stored ones. -/
theorem repair_keeps_iff (hst : WellStored p st)
    (hreturned : raised (repair p h env provider code startDate endDate dataset st).1 = false)
    {resolvedStart resolvedEnd : Int}
    (hwindow : repairWindow p h env provider startDate endDate st =
      .ok (resolvedStart, resolvedEnd)) :
    RepairKeeps dataset (strip code) resolvedStart resolvedEnd st
        (repair p h env provider code startDate endDate dataset st).2 ↔
      FactorsSpared p provider code dataset resolvedEnd st := by
  obtain ⟨hwell, hfiles, hdates⟩ :=
    @ensureCalendarRange_spec p h env provider startDate endDate st hst
  unfold repair at hreturned ⊢
  simp only [hwindow] at hreturned ⊢
  revert hreturned hwell hfiles hdates
  generalize (ensureCalendarRange p h env provider startDate endDate st).2 = st1
  intro hwell hfiles hdates hreturned
  rcases hrun : repairWithin p h env provider code dataset resolvedStart resolvedEnd st1
    with ⟨out, st2⟩
  rw [hrun] at hreturned
  cases out with
  | error e => cases hreturned
  | ok results =>
    have course := repairWithin_course hwell hrun
    have hfactors := congrFun (hfiles adjustmentFactorDataset calendar_not_repairable.1.symm)
      (strip code)
    rw [← FactorsSpared.congr hfactors, RepairKeeps.calendar_first hfiles hdates course.calendar]
    exact ⟨course.spared, course.keeps⟩

end Run

/-! A code with two factors is repaired in a window that lies between them. -/

/-- A frame with a row for each day, under a column of the provider. -/
def datedFrame (column : String) (cells : List (String × Cell)) (code : String) (days : List Int) :
    Frame where
  columns := ["code", column] ++ cells.map Prod.fst
  dtype _ := .object
  rows := days.map fun day => rowOf ([("code", .text code), (column, .date day)] ++ cells)

private theorem datedIn_datedFrame {column name code : String} {cells : List (String × Cell)}
    {days : List Int} {asked : Set Int} (hcolumn : column ≠ "code")
    (hsource : sourceColumns (["code", column] ++ cells.map Prod.fst) name = [column])
    (hdays : ∀ day ∈ days, day ∈ asked) :
    DatedIn .plain (datedFrame column cells code days) name asked := by
  intro source hmem r hr ts hts
  obtain ⟨day, hday, rfl⟩ := List.mem_map.mp hr
  have hname : source = column := by
    have hmem' : source ∈ sourceColumns (["code", column] ++ cells.map Prod.fst) name := hmem
    rw [hsource] at hmem'
    exact List.mem_singleton.mp hmem'
  have hcell : rowOf ([("code", .text code), (column, .date day)] ++ cells) source = .date day := by
    rw [hname]
    simp [rowOf, Ne.symm hcolumn]
  rw [hcell, parsedDate_date] at hts
  rw [← Option.some.inj hts, Int.mul_ediv_cancel day (by decide)]
  exact hdays day hday

/-- The days of a list that are asked for. -/
def daysAsked (days : List Int) (startDate endDate : Int) : List Int :=
  days.filter fun day => decide (startDate ≤ day ∧ day ≤ endDate)

private theorem mem_daysAsked {days : List Int} {startDate endDate : Int} :
    ∀ day ∈ daysAsked days startDate endDate, day ∈ Set.Icc startDate endDate :=
  fun _ hday => of_decide_eq_true (List.mem_filter.mp hday).2

def factorFrame (code : String) (days : List Int) : Frame :=
  datedFrame "dividOperateDate" [("foreAdjustFactor", .real 1), ("backAdjustFactor", .real 2),
    ("adjustFactor", .real 2)] code days

/-- Factors of 2024-01-02 and 2024-06-03, and a bar of 2024-01-03. -/
def twoFactors : RepairProvider .plain where
  queryTradeDates := .error .other
  queryAdjustmentFactor code startDate endDate :=
    .ok (factorFrame code (daysAsked [19724, 19877] startDate endDate))
  queryDailyBars _ code startDate endDate :=
    .ok (datedFrame "date" [("close", .real 10), ("preclose", .real 9)] code
      (daysAsked [19725] startDate endDate))
  factor_days := by
    intro code startDate endDate df hdf
    obtain rfl := Except.ok.inj hdf
    exact datedIn_datedFrame (by decide) (by decide +kernel) mem_daysAsked
  bar_days := by
    intro dataset code startDate endDate df hdf
    obtain rfl := Except.ok.inj hdf
    exact datedIn_datedFrame (by decide) (by decide +kernel) mem_daysAsked

def RepairEnv.plain : RepairEnv where
  calendarRead := (WriteEnv.plain true).io 0
  calendarWrite := .plain true
  calendarReread := (WriteEnv.plain true).io 0
  factorWrite := .plain true
  reads _ := (WriteEnv.plain true).io 0
  writes _ := .plain true
  adjustFlagForDataset _ := .ok "2"

/-- The calendar gets 2024-01-02 and 2024-01-03, and both factors are stored. -/
def beforeCalls : List WriteCall :=
  [⟨.plain true, "baostock_cn_trading_calendar", calendarOf 19724 "1", none, none, false⟩,
    ⟨.plain true, "baostock_cn_trading_calendar", calendarOf 19725 "1", none, none, false⟩,
    ⟨.plain true, adjustmentFactorDataset, factorFrame "sh.600000" [19724, 19877],
      codePartition "sh.600000", none, false⟩]

def beforeRepair : Store := (exec (callStep .plain .plain) .empty beforeCalls).getD .empty

private theorem beforeRepair_stored : WellStored .plain beforeRepair :=
  @wellStored_of_calls .plain .plain .empty beforeRepair beforeCalls (fun _ _ => rfl) rfl

/-- The repair of the qfq bars of 2024-01-03. -/
def qfqRepaired : Except StoreError (List RepairResult) × Store :=
  repair .plain .plain .plain twoFactors "sh.600000" 19725 19725 "baostock_cn_stock_daily_bar_qfq"
    beforeRepair

def factorDays (st : Store) : List Cell :=
  (content st baostockCnStockAdjustmentFactorDataset "sh.600000").map fun r =>
    r "dividend_operate_date"

/-- It takes the factor of 2024-06-03 away. -/
theorem repair_drops_later_factor :
    qfqRepaired.1 = .ok [⟨"baostock_cn_stock_daily_bar_qfq", "sh.600000", 1, 1,
      ("baostock_cn_stock_daily_bar_qfq", "sh.600000")⟩] ∧
    repairWindow .plain .plain .plain twoFactors 19725 19725 beforeRepair = .ok (19725, 19725) ∧
    ¬RepairKeeps "baostock_cn_stock_daily_bar_qfq" (strip "sh.600000") 19725 19725 beforeRepair
      qfqRepaired.2 := by
  have hbefore : factorDays beforeRepair = [.date 19724, .date 19877] := by decide +kernel
  have hafter : factorDays qfqRepaired.2 = [.date 19724] := by decide +kernel
  refine ⟨by decide +kernel, by decide +kernel, fun keeps => ?_⟩
  have hlater : Cell.date 19877 ∈ factorDays beforeRepair := by
    rw [hbefore]
    exact List.mem_cons_of_mem _ List.mem_cons_self
  obtain ⟨r, hr, hday⟩ := List.mem_map.mp hlater
  have hkept : r ∈ content qfqRepaired.2 baostockCnStockAdjustmentFactorDataset "sh.600000" :=
    keeps.factors r hr 19877 hday (by decide)
  have hmem : Cell.date 19877 ∈ factorDays qfqRepaired.2 := List.mem_map.mpr ⟨r, hkept, hday⟩
  rw [hafter, List.mem_singleton] at hmem
  exact absurd hmem (by decide)

/-- The repair of the unadjusted bars keeps both. -/
theorem repair_keeps_unadjusted :
    RepairKeeps "baostock_cn_stock_daily_bar_unadjusted" (strip "sh.600000") 19725 19725
      beforeRepair (repair .plain .plain .plain twoFactors "sh.600000" 19725 19725
        "baostock_cn_stock_daily_bar_unadjusted" beforeRepair).2 := by
  refine (repair_keeps_iff beforeRepair_stored (by decide +kernel) (by decide +kernel)).mpr ⟨?_, ?_⟩
  · intro hselected
    exact absurd hselected (by decide)
  · intro hadjusted
    exact absurd hadjusted (by decide)

end QuantDataCenter.Sources
