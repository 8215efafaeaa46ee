import QuantDataCenter.Sources.CalendarCoverage
import QuantDataCenter.Sources.DailyBarTasks
import QuantDataCenter.Storage.PartitionWrites

/-!
What it means that a daily bar task is dropped. Along every history of daily bar runs,
spot runs and other writes, a stored bar of the history endpoint lies in the window of a
fetch that is still stored; the bar a task is dropped for is one of them.
-/

set_option autoImplicit false
set_option relaxedAutoImplicit false

namespace QuantDataCenter.Sources

open QuantDataCenter.Lib.Checked QuantDataCenter.Lib.Keyed QuantDataCenter.Lib.Transition
open QuantDataCenter.Tabular QuantDataCenter.Quality QuantDataCenter.Storage

/-! Spot runs -/

def Historical (r : Row) : Prop := r "source_endpoint" = .text "stock_zh_a_hist"

/-- The bars that are new do not come from the history endpoint. -/
def AddsElsewhere (st st' : Store) : Prop :=
  ∀ value, ∀ r ∈ barsAt st' value, r ∈ barsAt st value ∨ ¬Historical r

theorem AddsElsewhere.refl (st : Store) : AddsElsewhere st st := fun _ _ hr => Or.inl hr

theorem AddsElsewhere.trans {st st' st'' : Store} (first : AddsElsewhere st st')
    (second : AddsElsewhere st' st'') : AddsElsewhere st st'' := by
  intro value r hr
  rcases second value r hr with hr | hr
  · exact first value r hr
  · exact Or.inr hr

private theorem addsElsewhere_of_files {st st' : Store}
    (hfiles : ∀ value, st'.files unadjustedDailyBarDataset.id value =
      st.files unadjustedDailyBarDataset.id value) : AddsElsewhere st st' := by
  intro value r hr
  simp only [barsAt, content, hfiles] at hr
  exact Or.inl hr

/-- Bars of another endpoint, with the columns of the dataset. -/
structure BarsElsewhere (endpoint : String) (bars : Frame) : Prop where
  columns : bars.columns = fieldNames unadjustedDailyBarDataset.schema
  rows : ∀ r ∈ bars.rows, r "source_endpoint" = .text endpoint
  other : endpoint ≠ "stock_zh_a_hist"

section Spot

variable {p : Pandas} {h : Hashing} {env : SpotEnv} {endpoint : String} {bars : Frame} {st : Store}

theorem BarsElsewhere.coerced (hbars : BarsElsewhere endpoint bars) {coerced : Frame}
    (hcoerced : coercedFrame p unadjustedDailyBarDataset bars = .ok coerced) :
    ∀ r ∈ coerced.rows, r "source_endpoint" = .text endpoint := by
  intro r hr
  rw [coercedFrame_rows hcoerced] at hr
  obtain ⟨b, hb, rfl⟩ := List.mem_map.mp hr
  have hendpoint := hbars.rows b hb
  have hsame := @coercedRow_of_accepts p _ bars_wellFormed bars hbars.columns
    ⟨"source_endpoint", .string⟩ (by decide) (by decide) b (by rw [hendpoint]; rfl)
  exact hsame.trans hendpoint

private theorem upsertSpotGroup_elsewhere (hst : WellStored p st)
    (hbars : BarsElsewhere endpoint bars)
    (k : ℕ) (code : Cell) {group : List Row} (hgroup : ∀ r ∈ group, r ∈ bars.rows) :
    WellStored p (upsertSpotGroup p h env k bars code group st).2 ∧
      AddsElsewhere st (upsertSpotGroup p h env k bars code group st).2 := by
  rcases @upsertSpotGroup_cases p h env k bars code group st with heq | ⟨_, skip, -, -, heq⟩
  · rw [heq]
    exact ⟨hst, .refl st⟩
  · rw [heq]
    refine ⟨@wellStored_callStep p h st _ ⟨env.bars k, unadjustedDailyBarDataset.id,
      { bars with rows := group }, some [("code", .text (strip (p.str code)))], some .upsert, skip⟩
      hst rfl, ?_⟩
    have hpart : BarsElsewhere endpoint { bars with rows := group } :=
      ⟨hbars.columns, fun r hr => hbars.rows r (hgroup r hr), hbars.other⟩
    intro value r hr
    unfold writeSpotGroup at hr
    rcases @barsAt_of_upsert p h (env.bars k) { bars with rows := group } (strip (p.str code)) skip
      st hst value with hsame | ⟨coerced, sorted, -, hcoerced, hperm, hrows, -⟩
    · simp only [hsame] at hr
      exact Or.inl hr
    · simp only [hrows] at hr
      rcases mem_of_mem_combinedRows hr with hold | hnew
      · exact Or.inl hold
      · refine Or.inr fun hhistorical => hbars.other ?_
        have hcell := hpart.coerced hcoerced r (hperm.mem_iff.mp hnew)
        rw [Historical, hcell] at hhistorical
        exact Cell.text.inj hhistorical

private theorem upsertSpotGroups_elsewhere (hbars : BarsElsewhere endpoint bars)
    {groups : List (Cell × List Row)} (hgroups : ∀ group ∈ groups, ∀ r ∈ group.2, r ∈ bars.rows)
    (k : ℕ) (hst : WellStored p st) :
    AddsElsewhere st (upsertSpotGroups p h env bars k groups st).2 := by
  induction groups generalizing k st with
  | nil => exact .refl st
  | cons group groups ih =>
    obtain ⟨code, rows⟩ := group
    obtain ⟨hwell, hadds⟩ := @upsertSpotGroup_elsewhere p h env endpoint bars st hst hbars k code rows
      (hgroups _ List.mem_cons_self)
    unfold upsertSpotGroups
    rcases hout : upsertSpotGroup p h env k bars code rows st with ⟨result, st1⟩
    rw [hout] at hwell hadds
    cases result with
    | error e => exact hadds
    | ok u =>
      exact hadds.trans
        (ih (fun group hgroup => hgroups group (List.mem_cons_of_mem _ hgroup)) (k + 1) hwell)

private theorem writeSpotDailyBarRows_elsewhere (hbars : BarsElsewhere endpoint bars)
    (hst : WellStored p st) : AddsElsewhere st (writeSpotDailyBarRows p h env bars st).2 := by
  unfold writeSpotDailyBarRows upsertSpotDailyBarRows
  split
  case isTrue => exact .refl st
  case isFalse =>
    split
    case h_1 => exact .refl st
    case h_2 incoming hprepare =>
      unfold prepareDatasetFrame at hprepare
      obtain ⟨cleaned, hunvalidated, hrest⟩ := bind_eq_ok.mp hprepare
      obtain rfl : cleaned = incoming := Except.ok.inj hrest
      obtain ⟨fixed, hfixed, -, rfl⟩ := (prepareUnvalidated_eq_ok bars_wellFormed).mp hunvalidated
      obtain ⟨hcolumns, -⟩ := coercedFrame_coerced bars_wellFormed hfixed
      have hincoming : BarsElsewhere endpoint { fixed with
          rows := sortValues env.prepare unadjustedDailyBarDataset.sortColumns fixed.rows } := by
        refine ⟨hcolumns, fun r hr => ?_, hbars.other⟩
        have hr' : r ∈ sortValues env.prepare unadjustedDailyBarDataset.sortColumns fixed.rows := hr
        exact hbars.coerced hfixed r ((sortValues_perm _ _ _).mem_iff.mp hr')
      apply upsertSpotGroups_elsewhere hincoming _ 0 hst
      rintro ⟨code, group⟩ hgroup r hr
      obtain ⟨-, rfl⟩ := mem_groups.mp hgroup
      exact (List.mem_filter.mp hr).1

private theorem recordQuotes_elsewhere {d : DatasetDefinition} (hd : d ∈ spotQuoteDatasets)
    (hst : WellStored p st) (task : SpotQuoteTask) (response : Frame)
    {convert : Store → Except StoreError Frame}
    (hconvert : ∀ stored bars, convert stored = .ok bars → BarsElsewhere endpoint bars) :
    AddsElsewhere st (recordQuotes p h env d.id task response convert st).2 := by
  obtain ⟨result, stored, hwrite, hcases⟩ :=
    @recordQuotes_cases p h env d.id task response convert st
  have hwell : WellStored p stored := wellStored_of_write hst hwrite
  have hquotes : AddsElsewhere st stored := by
    apply addsElsewhere_of_files
    intro value
    have hfiles := @writeDataset_files_of_ne p h env.quotes d.id unadjustedDailyBarDataset.id
      response (some [("trade_date", .text (p.repr (.date task.tradeDate)))]) none false st
      (spotQuoteDatasets_spec d hd).2.2.2.symm value
    rw [hwrite] at hfiles
    exact hfiles
  rcases hcases with heq | ⟨ok, -, ⟨e, -, heq⟩ | ⟨bars, hbars, -, heq⟩⟩
  · rw [heq]
    exact hquotes
  · rw [heq]
    exact hquotes
  · rw [heq]
    exact hquotes.trans (writeSpotDailyBarRows_elsewhere (hconvert stored bars hbars) hwell)

private theorem converted_elsewhere {own : List String} {response frame : Frame}
    (hother : endpoint ≠ "stock_zh_a_hist")
    (hconvert : spotToDailyBarUnadjusted p endpoint own response = .ok frame) :
    BarsElsewhere endpoint frame := by
  obtain ⟨hcolumns, quotes, -, hrows, -⟩ := spotToDailyBar_spec hconvert
  refine ⟨hcolumns, fun r hr => ?_, hother⟩
  rw [hrows] at hr
  obtain ⟨q, -, rfl⟩ := List.mem_map.mp hr
  simp [dailyBarCell]

private theorem dropDelisted_elsewhere {reads : Derived.Reads} {frame : Frame}
    (hframe : BarsElsewhere endpoint frame)
    (hdrop : dropDelistedDailyBarRows p reads st frame = .ok bars) : BarsElsewhere endpoint bars := by
  unfold dropDelistedDailyBarRows at hdrop
  split at hdrop
  case isTrue =>
    obtain rfl := Except.ok.inj hdrop
    exact hframe
  case isFalse =>
    obtain ⟨delist, -, hdrop⟩ := bind_eq_ok.mp hdrop
    obtain ⟨delisted, -, hdrop⟩ := bind_eq_ok.mp hdrop
    obtain rfl := Except.ok.inj hdrop
    exact ⟨hframe.columns, fun r hr => hframe.rows r (List.mem_filter.mp hr).1, hframe.other⟩

private theorem runSpotQuote_elsewhere (hst : WellStored p st) (request : SpotRequest)
    (eastmoney sina : Int → Except StoreError Frame) :
    AddsElsewhere st (runSpotQuote p h env request eastmoney sina st).2 := by
  unfold runSpotQuote
  split
  case h_1 => exact .refl st
  case h_2 task hplan =>
    obtain ⟨-, -, -, -, hdataset⟩ := planSpotQuote_spec hplan
    split
    case isTrue => exact .refl st
    case isFalse =>
      unfold recordResult
      split
      case h_1 response _ =>
        unfold recordEastmoney
        rw [hdataset]
        apply @recordQuotes_elsewhere p h env "stock_zh_a_spot_em" st
          akshareSpotQuoteEastmoneyDataset (by simp [spotQuoteDatasets]) hst task response
        intro stored bars hbars
        obtain ⟨frame, hconvert, hdrop⟩ := bind_eq_ok.mp hbars
        exact dropDelisted_elsewhere (converted_elsewhere (by decide) hconvert) hdrop
      case h_2 =>
        unfold runSinaFallback
        split
        case h_1 => exact .refl st
        case h_2 response _ =>
          apply @recordQuotes_elsewhere p h env "stock_zh_a_spot" st
            akshareSpotQuoteSinaDataset (by simp [spotQuoteDatasets]) hst task response
          intro stored bars hbars
          exact converted_elsewhere (by decide) hbars

private theorem runSpotQuote_files_of_ne {dataset : String}
    (hbars : dataset ≠ unadjustedDailyBarDataset.id)
    (hquotes : ∀ d ∈ spotQuoteDatasets, dataset ≠ d.id) (request : SpotRequest)
    (eastmoney sina : Int → Except StoreError Frame) (value : String) :
    (runSpotQuote p h env request eastmoney sina st).2.files dataset value =
      st.files dataset value := by
  have hrecord : ∀ d ∈ spotQuoteDatasets, ∀ task response convert,
      (recordQuotes p h env d.id task response convert st).2.files dataset value =
        st.files dataset value := by
    intro d hd task response convert
    obtain ⟨result, stored, hwrite, hcases⟩ :=
      @recordQuotes_cases p h env d.id task response convert st
    have hstored := @writeDataset_files_of_ne p h env.quotes d.id dataset response
      (some [("trade_date", .text (p.repr (.date task.tradeDate)))]) none false st (hquotes d hd) value
    rw [hwrite] at hstored
    rcases hcases with heq | ⟨ok, -, ⟨e, -, heq⟩ | ⟨bars, -, -, heq⟩⟩
    · rw [heq]
      exact hstored
    · rw [heq]
      exact hstored
    · rw [heq]
      exact (writeSpotDailyBarRows_files_of_ne hbars bars stored value).trans hstored
  unfold runSpotQuote
  split
  case h_1 => rfl
  case h_2 task hplan =>
    obtain ⟨-, -, -, -, hdataset⟩ := planSpotQuote_spec hplan
    split
    case isTrue => rfl
    case isFalse =>
      unfold recordResult
      split
      case h_1 response _ =>
        unfold recordEastmoney
        rw [hdataset]
        exact hrecord akshareSpotQuoteEastmoneyDataset (by simp [spotQuoteDatasets]) task response _
      case h_2 =>
        unfold runSinaFallback
        split
        case h_1 => rfl
        case h_2 response _ =>
          exact hrecord akshareSpotQuoteSinaDataset (by simp [spotQuoteDatasets]) task response _

end Spot

/-! Histories -/

/-- The days of the bars are days of the window that was asked for. -/
def WithinWindow (p : Pandas) (task : DailyBarTask) (fetchedAt : Int) (selected : Frame) : Prop :=
  ∀ r ∈ incomingRows p task.dataset (historicalBars task.adjustment fetchedAt selected),
    ∀ day, r "date" = .date day → task.startDate ≤ day ∧ day ≤ task.endDate

def dailyBarDatasetIds : List String :=
  akshareDailyBarAdjustments.map fun adjustment => (akshareDailyBarDataset adjustment).id

/-- What happens to the store: the result of a task is recorded, a spot run, a write elsewhere. -/
inductive HistoryEvent (p : Pandas) where
  | fetched (env : WriteEnv) (task : DailyBarTask) (planned : task.WellFormed p) (fetchedAt : Int)
      (selected : Frame) (within : WithinWindow p task fetchedAt selected)
  | failed (task : DailyBarTask)
  | spot (env : SpotEnv) (request : SpotRequest) (eastmoney sina : Int → Except StoreError Frame)
  | written (call : WriteCall) (other : call.dataset ∉ dailyBarDatasetIds)

/-- The files, and the fetches whose result was written and has not been removed since. -/
structure BarHistory where
  store : Store
  fetches : List DailyBarTask

/-- The fetches after a result was written: a full one removes what its partition held. -/
def keptFetches (task : DailyBarTask) (fetches : List DailyBarTask) : List DailyBarTask :=
  if task.writeMode = .upsert then fetches
  else fetches.filter fun fetch =>
    ¬(fetch.adjustment = task.adjustment ∧ fetch.code = task.code)

section History

variable (p : Pandas) (h : Hashing)

def historyStep (history : BarHistory) : HistoryEvent p → Option BarHistory
  | .fetched env task _ fetchedAt selected _ =>
    some ⟨(recordDailyBars p h env task fetchedAt selected history.store).2,
      match replacedFile p env task.dataset (historicalBars task.adjustment fetchedAt selected)
        [("code", .text task.code)] task.writeMode history.store with
      | some _ => task :: keptFetches task history.fetches
      | none => history.fetches⟩
  | .failed _ => some history
  | .spot env request eastmoney sina =>
    some ⟨(runSpotQuote p h env request eastmoney sina history.store).2, history.fetches⟩
  | .written call _ => (callStep p h history.store call).map fun st => ⟨st, history.fetches⟩

/-- Every stored bar of the history endpoint lies in the window of a fetch. -/
structure HistoryInv (history : BarHistory) : Prop where
  well : WellStored p history.store
  fetched : ∀ adjustment ∈ akshareDailyBarAdjustments, ∀ value,
    ∀ r ∈ content history.store (akshareDailyBarDataset adjustment) value, Historical r →
      ∀ day, r "date" = .date day → ∃ fetch ∈ history.fetches,
        fetch.adjustment = adjustment ∧ fetch.code = value ∧
          fetch.startDate ≤ day ∧ day ≤ fetch.endDate
  planned : ∀ fetch ∈ history.fetches, fetch.WellFormed p

variable {p h}

private theorem dailyBarDataset_mem {adjustment : String}
    (ha : adjustment ∈ akshareDailyBarAdjustments) :
    akshareDailyBarDataset adjustment ∈ datasetCatalog := by
  simp only [akshareDailyBarAdjustments, List.mem_cons, List.not_mem_nil, or_false] at ha
  rcases ha with rfl | rfl | rfl <;> simp [datasetCatalog, akshareDailyBarAdjustments]

private theorem dailyBarDataset_definition {adjustment : String}
    (ha : adjustment ∈ akshareDailyBarAdjustments) :
    datasetDefinition (akshareDailyBarDataset adjustment).id =
      .ok (akshareDailyBarDataset adjustment) := by
  simp only [akshareDailyBarAdjustments, List.mem_cons, List.not_mem_nil, or_false] at ha
  rcases ha with rfl | rfl | rfl <;> rfl

private theorem dailyBarDataset_injective {a b : String}
    (heq : (akshareDailyBarDataset a).id = (akshareDailyBarDataset b).id) : a = b := by
  have htext : "akshare_cn_stock_daily_bar_" ++ a = "akshare_cn_stock_daily_bar_" ++ b := heq
  have hlist := congrArg String.toList htext
  simp only [String.toList_append] at hlist
  exact String.toList_inj.mp (List.append_cancel_left hlist)

private theorem dailyBar_not_quotes {adjustment : String}
    (ha : adjustment ∈ akshareDailyBarAdjustments) :
    ∀ d ∈ spotQuoteDatasets, (akshareDailyBarDataset adjustment).id ≠ d.id := by
  simp only [akshareDailyBarAdjustments, List.mem_cons, List.not_mem_nil, or_false] at ha
  intro d hd
  simp only [spotQuoteDatasets, List.mem_cons, List.not_mem_nil, or_false] at hd
  rcases ha with rfl | rfl | rfl <;> rcases hd with rfl | rfl <;> decide

private theorem partitionValue_task {task : DailyBarTask} (hplanned : task.WellFormed p)
    {value : String}
    (hvalue : partitionValue p task.dataset (some [("code", .text task.code)]) = .ok value) :
    value = task.code := by
  have hcolumn : task.dataset.partitionColumn = some "code" := rfl
  have hformat : task.dataset.codeFormat = .sixDigit := rfl
  simp only [partitionValue, hcolumn, normalizePartitionValue, hformat, and_self, if_true,
    aksharePartitionCode, Pandas.str, hplanned.stripped, hplanned.digits] at hvalue
  exact (Except.ok.inj hvalue).symm

private theorem inv_of_sameBars {history history' : BarHistory} (inv : HistoryInv p history)
    (hwell : WellStored p history'.store) (hfetches : history'.fetches = history.fetches)
    (hbars : ∀ adjustment ∈ akshareDailyBarAdjustments, ∀ value,
      ∀ r ∈ content history'.store (akshareDailyBarDataset adjustment) value,
        r ∈ content history.store (akshareDailyBarDataset adjustment) value ∨ ¬Historical r) :
    HistoryInv p history' := by
  refine ⟨hwell, ?_, ?_⟩
  · intro adjustment ha value r hr hhistorical
    rw [hfetches]
    rcases hbars adjustment ha value r hr with hold | hnot
    · exact inv.fetched adjustment ha value r hold hhistorical
    · exact absurd hhistorical hnot
  · rw [hfetches]
    exact inv.planned

private theorem inv_fetched {history : BarHistory} (inv : HistoryInv p history) {env : WriteEnv}
    {task : DailyBarTask} (hplanned : task.WellFormed p) {fetchedAt : Int} {selected : Frame}
    (hwithin : WithinWindow p task fetchedAt selected) {fetches : List DailyBarTask}
    (hfetches : fetches = match replacedFile p env task.dataset
        (historicalBars task.adjustment fetchedAt selected) [("code", .text task.code)]
        task.writeMode history.store with
      | some _ => task :: keptFetches task history.fetches
      | none => history.fetches) :
    HistoryInv p ⟨(recordDailyBars p h env task fetchedAt selected history.store).2, fetches⟩ := by
  have hmem := dailyBarDataset_mem hplanned.adjustment
  have hdef := dailyBarDataset_definition hplanned.adjustment
  have hwell : WellStored p (recordDailyBars p h env task fetchedAt selected history.store).2 :=
    @wellStored_callStep p h history.store _ ⟨env, task.dataset.id,
      historicalBars task.adjustment fetchedAt selected, some [("code", .text task.code)],
      some task.writeMode, false⟩ inv.well rfl
  have hother : ∀ adjustment, adjustment ≠ task.adjustment → ∀ value,
      content (recordDailyBars p h env task fetchedAt selected history.store).2
        (akshareDailyBarDataset adjustment) value =
      content history.store (akshareDailyBarDataset adjustment) value := by
    intro adjustment hne value
    have hid : (akshareDailyBarDataset adjustment).id ≠ task.dataset.id :=
      fun heq => hne (dailyBarDataset_injective heq)
    simp only [content, recordDailyBars, writeDataset_files_of_ne hid value]
  have hfiles : ∀ value, (recordDailyBars p h env task fetchedAt selected
      history.store).2.files task.dataset.id value =
        filesAfter (history.store.files task.dataset.id) (replacedFile p env task.dataset
          (historicalBars task.adjustment fetchedAt selected) [("code", .text task.code)]
          task.writeMode history.store) value :=
    (writeDataset_partition hdef).files
  cases hreplaced : replacedFile p env task.dataset
      (historicalBars task.adjustment fetchedAt selected) [("code", .text task.code)]
      task.writeMode history.store with
  | none =>
    simp only [hreplaced, filesAfter] at hfetches hfiles
    refine inv_of_sameBars inv hwell hfetches fun adjustment ha value r hr => Or.inl ?_
    by_cases heq : adjustment = task.adjustment
    · rw [heq] at hr ⊢
      have hfile := hfiles value
      unfold content at hr ⊢
      rw [show (akshareDailyBarDataset task.adjustment).id = task.dataset.id from rfl, hfile] at hr
      exact hr
    · rw [hother adjustment heq value] at hr
      exact hr
  | some file =>
    obtain ⟨written, rows⟩ := file
    have hrows := mem_replacedFile hmem inv.well hreplaced
    obtain rfl := partitionValue_task hplanned (replacedFile_spec hmem inv.well hreplaced).1
    simp only [hreplaced, filesAfter] at hfetches hfiles
    subst hfetches
    -- a fetch that covers an old bar is kept, unless the bar's file was replaced by a full task
    have hkept : ∀ adjustment ∈ akshareDailyBarAdjustments, ∀ value,
        (adjustment = task.adjustment ∧ value = task.code → task.writeMode = .upsert) →
        ∀ r ∈ content history.store (akshareDailyBarDataset adjustment) value, Historical r →
          ∀ day, r "date" = .date day → ∃ fetch ∈ task :: keptFetches task history.fetches,
            fetch.adjustment = adjustment ∧ fetch.code = value ∧
              fetch.startDate ≤ day ∧ day ≤ fetch.endDate := by
      intro adjustment ha value hmode r hr hhistorical day hday
      obtain ⟨fetch, hfetch, rfl, rfl, hcovers⟩ :=
        inv.fetched adjustment ha value r hr hhistorical day hday
      refine ⟨fetch, List.mem_cons_of_mem _ ?_, rfl, rfl, hcovers⟩
      unfold keptFetches
      split
      case isTrue => exact hfetch
      case isFalse hnot =>
        exact List.mem_filter.mpr ⟨hfetch, decide_eq_true fun hsame => hnot (hmode hsame)⟩
    refine ⟨hwell, ?_, ?_⟩
    · intro adjustment ha value r hr hhistorical day hday
      by_cases hsame : adjustment = task.adjustment ∧ value = task.code
      · obtain ⟨rfl, rfl⟩ := hsame
        have hfile := hfiles task.code
        rw [if_pos rfl] at hfile
        have hr' : r ∈ rows := by
          unfold content at hr
          rw [show (akshareDailyBarDataset task.adjustment).id = task.dataset.id from rfl, hfile] at hr
          exact hr
        rcases hrows r hr' with hnew | ⟨hmode, hold⟩
        · exact ⟨task, List.mem_cons_self, rfl, rfl, hwithin r hnew day hday⟩
        · have hupsert : task.writeMode = .upsert := by
            have hmerge := hplanned.mode
            cases hwrite : task.writeMode with
            | upsert => rfl
            | replace => exact absurd hwrite hmode
            | merge => exact absurd hwrite hmerge
          exact hkept _ ha _ (fun _ => hupsert) r hold hhistorical day hday
      · have hold : r ∈ content history.store (akshareDailyBarDataset adjustment) value := by
          by_cases heq : adjustment = task.adjustment
          · subst heq
            have hfile := hfiles value
            rw [if_neg fun hcode => hsame ⟨rfl, hcode⟩] at hfile
            unfold content at hr ⊢
            rw [show (akshareDailyBarDataset task.adjustment).id = task.dataset.id from rfl,
              hfile] at hr
            exact hr
          · rw [hother adjustment heq value] at hr
            exact hr
        exact hkept _ ha _ (fun hboth => absurd hboth hsame) r hold hhistorical day hday
    · intro fetch hfetch
      rcases List.mem_cons.mp hfetch with rfl | hfetch
      · exact hplanned
      · unfold keptFetches at hfetch
        split at hfetch
        · exact inv.planned fetch hfetch
        · exact inv.planned fetch (List.mem_filter.mp hfetch).1

private theorem inv_historyStep {history history' : BarHistory} {event : HistoryEvent p}
    (inv : HistoryInv p history) (hstep : historyStep p h history event = some history') :
    HistoryInv p history' := by
  cases event with
  | fetched env task planned fetchedAt selected within =>
    obtain rfl := Option.some.inj hstep
    exact inv_fetched inv planned within rfl
  | failed task =>
    obtain rfl := Option.some.inj hstep
    exact inv
  | spot env request eastmoney sina =>
    obtain rfl := Option.some.inj hstep
    refine inv_of_sameBars inv (runSpotQuote_onlyAdds inv.well request eastmoney sina).1 rfl ?_
    intro adjustment ha value r hr
    by_cases heq : adjustment = "unadjusted"
    · subst heq
      exact runSpotQuote_elsewhere inv.well request eastmoney sina value r hr
    · have hsame := @runSpotQuote_files_of_ne p h env history.store
        (akshareDailyBarDataset adjustment).id
        (fun hid => heq (dailyBarDataset_injective hid)) (dailyBar_not_quotes ha) request eastmoney
        sina value
      simp only [content, hsame] at hr
      exact Or.inl hr
  | written call other =>
    have hcalled : (callStep p h history.store call).map
        (fun st => (⟨st, history.fetches⟩ : BarHistory)) = some history' := hstep
    obtain ⟨st, hcall, rfl⟩ := Option.map_eq_some_iff.mp hcalled
    refine inv_of_sameBars inv (wellStored_callStep inv.well hcall) rfl ?_
    intro adjustment ha value r hr
    obtain rfl := Option.some.inj hcall
    have hid : (akshareDailyBarDataset adjustment).id ≠ call.dataset := by
      rintro heq
      exact other (List.mem_map.mpr ⟨adjustment, ha, heq⟩)
    simp only [content, writeDataset_files_of_ne hid value] at hr
    exact Or.inl hr

private theorem inv_history {history history' : BarHistory} {events : List (HistoryEvent p)}
    (inv : HistoryInv p history) (run : exec (historyStep p h) history events = some history') :
    HistoryInv p history' :=
  invariant_of_exec (fun _ _ _ inv hstep => inv_historyStep inv hstep) inv run

private theorem inv_empty {st₀ : Store} (hempty : ∀ dataset value, st₀.files dataset value = none) :
    HistoryInv p ⟨st₀, []⟩ := by
  constructor
  · intro d _ value rows hfile
    rw [hempty] at hfile
    cases hfile
  · intro adjustment _ value r hr
    simp only [content, hempty] at hr
    cases hr
  · intro fetch hfetch
    cases hfetch

/-- The fetch speaks for the window of the task from the first day of its own window on: the
trading days of the stored calendar that the task asks for lie in it. -/
structure CoversFrom (st : Store) (fetch task : DailyBarTask) : Prop where
  code : fetch.code = task.code
  adjustment : fetch.adjustment = task.adjustment
  tradingDays : ∀ day ∈ calendarTradingDays st, task.startDate ≤ day → day ≤ task.endDate →
    fetch.startDate ≤ day → day ≤ fetch.endDate

end History

/-! A code of which one day was fetched, with a calendar that ends on that day: a task for the
whole history is dropped. -/

def calendarCall (day : Int) : WriteCall :=
  ⟨.plain true, "baostock_cn_trading_calendar", calendarOf day "1", none, none, false⟩

def recentTask : DailyBarTask := ⟨"600000", "unadjusted", 19725, 19725, .upsert⟩

private theorem recentTask_wellFormed : recentTask.WellFormed .plain :=
  ⟨by decide, by decide +kernel, by decide +kernel, by decide⟩

private theorem recentTask_within :
    WithinWindow .plain recentTask 0 (barSourceOf 19725 "600000") := by
  have hdates : (incomingRows .plain recentTask.dataset
      (historicalBars recentTask.adjustment 0 (barSourceOf 19725 "600000"))).map
        (fun r => r "date") = [.date 19725] := by decide +kernel
  intro r hr day hday
  have hmem := List.mem_map_of_mem (f := fun r : Row => r "date") hr
  rw [hdates, List.mem_singleton, hday] at hmem
  obtain rfl := Cell.date.inj hmem
  exact ⟨le_refl _, le_refl _⟩

def oneDayFetched : List (HistoryEvent .plain) :=
  [.written (calendarCall 19724) (by decide), .written (calendarCall 19725) (by decide),
    .fetched (.plain true) recentTask recentTask_wellFormed 0 (barSourceOf 19725 "600000")
      recentTask_within]

def fullRequest : DailyBarRequest := ⟨"full", "unadjusted", ["600000"], none, some 19726, none⟩

/-- The start of a full task is 1990-01-01. -/
def fullInputs : DailyBarInputs := ⟨7305, 19725, (WriteEnv.plain true).io 0, SpotEnv.plain.reads⟩

def fullTask : DailyBarTask := ⟨"600000", "unadjusted", 7305, 19726, .replace⟩

def oneDayHistory : BarHistory :=
  (exec (historyStep .plain .plain) ⟨.empty, []⟩ oneDayFetched).getD ⟨.empty, []⟩

end QuantDataCenter.Sources
