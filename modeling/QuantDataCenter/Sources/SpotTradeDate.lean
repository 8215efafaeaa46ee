import QuantDataCenter.Sources.CalendarCoverage
import QuantDataCenter.Sources.SpotQuote

/-!
The trade date of spot quotes. Two clocks are read: one decides whether the module
may run, the other which day the quotes belong to, unless `--end` names it.
-/

set_option autoImplicit false
set_option relaxedAutoImplicit false

namespace QuantDataCenter.Sources

open QuantDataCenter.Lib.Checked QuantDataCenter.Tabular QuantDataCenter.Storage

/-- The session of the day is over at the clock reading. -/
def ClosedAt (closing : ℕ) (now : LocalTime) (day : Int) : Prop :=
  day < now.date ∨ day = now.date ∧ closing ≤ now.time

/-- The last session that is over at the clock reading. -/
def LastClosed (sessions : Set Int) (closing : ℕ) (now : LocalTime) (day : Int) : Prop :=
  IsGreatest {d | d ∈ sessions ∧ ClosedAt closing now d} day

/-- The hours in which the module does not run on a trading day. -/
def WithinSession (now : LocalTime) : Prop :=
  8 * usPerHour ≤ now.time ∧ now.time < 18 * usPerHour

def SpotRequest.candidate (request : SpotRequest) : Int :=
  request.endDate.getD (defaultCandidateDate request.systemNow)

section Clock

/-- The default candidate is the last day that is over at 18:00. -/
private theorem closedAt_cutoff_iff {now : LocalTime} {day : Int} :
    ClosedAt marketDateCutoff now day ↔ day ≤ defaultCandidateDate now := by
  unfold ClosedAt defaultCandidateDate
  split <;> omega

/-- Outside the hours of a session an earlier closing time makes no difference. -/
private theorem lastClosed_of_outside {sessions : Set Int} {closing : ℕ} {now : LocalTime}
    {day : Int}
    (hopening : 8 * usPerHour ≤ closing) (hclosing : closing ≤ 18 * usPerHour)
    (houtside : ¬(WithinSession now ∧ now.date ∈ sessions))
    (hlast : LastClosed sessions marketDateCutoff now day) :
    LastClosed sessions closing now day := by
  have hsame : {d | d ∈ sessions ∧ ClosedAt closing now d} =
      {d | d ∈ sessions ∧ ClosedAt marketDateCutoff now d} := by
    ext d
    refine and_congr_right fun hsession => or_congr_right (and_congr_right ?_)
    rintro rfl
    constructor
    · intro hclosed
      by_contra hbefore
      exact houtside ⟨⟨hopening.trans hclosed, not_le.mp hbefore⟩, hsession⟩
    · exact hclosing.trans
  unfold LastClosed
  rw [hsame]
  exact hlast

end Clock

section Plan

variable {p : Pandas} {request : SpotRequest} {calendar : Frame}

private theorem outside_of_window {localNow : LocalTime} {read : Except StoreError Frame}
    (hwindow : ensureSpotQuoteCloseWindow p localNow read = .ok ()) :
    WithinSession localNow →
      ∃ calendar, read = .ok calendar ∧ isTradingDay p calendar localNow.date = false := by
  rintro ⟨hopen, hclose⟩
  unfold ensureSpotQuoteCloseWindow at hwindow
  rw [if_pos hclose, if_neg (not_lt.mpr hopen)] at hwindow
  cases read with
  | error e => cases hwindow
  | ok calendar =>
    refine ⟨calendar, rfl, ?_⟩
    cases htrading : isTradingDay p calendar localNow.date with
    | false => rfl
    | true => simp [htrading] at hwindow

/-- The trade date is the last recorded trading day up to the candidate, or it is
`--end` on an empty calendar. -/
def RecordedTradeDate (p : Pandas) (request : SpotRequest) (calendar : Frame) (day : Int) : Prop :=
  IsGreatest {d | ⟨d, true⟩ ∈ calendarWithKeys p calendar ∧ d ≤ request.candidate} day ∨
    request.endDate = some day ∧ calendarDates p calendar = []

private theorem recorded_of_resolved {day : Int}
    (hresolved : resolveTradeDate p request.systemNow request.endDate (.ok calendar) = .ok day) :
    RecordedTradeDate p request calendar day := by
  unfold resolveTradeDate at hresolved
  simp only at hresolved
  split at hresolved
  case isTrue htrading =>
    obtain rfl := Except.ok.inj hresolved
    exact Or.inl ⟨⟨mem_of_isTradingDay htrading, le_refl _⟩, fun d hd => hd.2⟩
  case isFalse =>
    split at hresolved
    case isTrue hempty =>
      obtain rfl := Except.ok.inj hresolved
      obtain ⟨endDate, hend⟩ := Option.ne_none_iff_exists'.mp hempty.1
      have hkeys : calendarWithKeys p calendar = [] := by
        unfold calendarWithKeys
        rw [if_pos (hempty.2.imp id fun hcolumns => by rw [hcolumns]; exact List.not_mem_nil)]
      exact Or.inr ⟨by rw [hend]; rfl, by rw [calendarDates, hkeys]; rfl⟩
    case isFalse =>
      split at hresolved
      case h_1 found hlatest =>
        obtain rfl := Except.ok.inj hresolved
        exact Or.inl (latestTradingDay_eq_ok.mp hlatest)
      case h_2 => cases hresolved

theorem planSpotQuote_spec {read : Except StoreError Frame} {task : SpotQuoteTask}
    (hplan : planSpotQuote p request read = .ok task) :
    ∃ calendar, read = .ok calendar ∧
      ¬(WithinSession request.localNow ∧
        isTradingDay p calendar request.localNow.date = true) ∧
      RecordedTradeDate p request calendar task.tradeDate ∧
      task.dataset = akshareSpotQuoteEastmoneyDataset.id := by
  unfold planSpotQuote at hplan
  obtain ⟨u, hwindow, hplan⟩ := bind_eq_ok.mp hplan
  obtain ⟨day, hresolved, hplan⟩ := bind_eq_ok.mp hplan
  obtain rfl := Except.ok.inj hplan
  cases read with
  | error e => cases hresolved
  | ok calendar =>
    refine ⟨calendar, rfl, ?_, recorded_of_resolved hresolved, rfl⟩
    rintro ⟨hwithin, htrading⟩
    obtain ⟨calendar', hread, hclosed⟩ := outside_of_window hwindow hwithin
    obtain rfl := Except.ok.inj hread
    rw [htrading] at hclosed
    cases hclosed

end Plan

section Filing

variable {p : Pandas} {h : Hashing} {env : SpotEnv}

def spotQuoteDatasets : List DatasetDefinition :=
  [akshareSpotQuoteEastmoneyDataset, akshareSpotQuoteSinaDataset]

theorem spotQuoteDatasets_spec : ∀ d ∈ spotQuoteDatasets,
    datasetDefinition d.id = .ok d ∧ d.partitionColumn = some "trade_date" ∧
      d.defaultWriteMode = .replace ∧ d.id ≠ unadjustedDailyBarDataset.id := by
  intro d hd
  simp only [spotQuoteDatasets, List.mem_cons, List.not_mem_nil, or_false] at hd
  rcases hd with rfl | rfl
  · exact ⟨rfl, rfl, rfl, by decide⟩
  · exact ⟨rfl, rfl, rfl, by decide⟩

theorem partitionValue_tradeDate {d : DatasetDefinition} (hcolumn : d.partitionColumn = some "trade_date")
    {day : Int} {value : String}
    (hvalue : partitionValue p d (some [("trade_date", .text (p.repr (.date day)))]) = .ok value) :
    value = p.repr (.date day) := by
  simp only [partitionValue, hcolumn, if_true, normalizePartitionValue] at hvalue
  rw [if_neg fun hcode => absurd hcode.1 (by decide)] at hvalue
  simp only [Pandas.str, p.repr_date_strip] at hvalue
  split at hvalue
  · cases hvalue
  · exact (Except.ok.inj hvalue).symm

private theorem recordQuotes_files {d : DatasetDefinition} (hd : d ∈ spotQuoteDatasets)
    {task : SpotQuoteTask} {response : Frame} {convert : Store → Except StoreError Frame}
    {st : Store} {d' : DatasetDefinition} (hd' : d' ∈ spotQuoteDatasets) {value : String}
    (hchanged : (recordQuotes p h env d.id task response convert st).2.files d'.id value ≠
      st.files d'.id value) :
    value = p.repr (.date task.tradeDate) := by
  obtain ⟨hdef, hcolumn, hmode, -⟩ := spotQuoteDatasets_spec d hd
  have hbars := (spotQuoteDatasets_spec d' hd').2.2.2
  obtain ⟨result, stored, hwrite, hcases⟩ :=
    @recordQuotes_cases p h env d.id task response convert st
  have hstored : (recordQuotes p h env d.id task response convert st).2.files d'.id value =
      stored.files d'.id value := by
    rcases hcases with heq | ⟨ok, -, ⟨e, -, heq⟩ | ⟨bars, -, -, heq⟩⟩
    · rw [heq]
    · rw [heq]
    · rw [heq]
      exact writeSpotDailyBarRows_files_of_ne hbars bars stored value
  rw [hstored] at hchanged
  obtain rfl : (writeDataset p h env.quotes d.id response
      (some [("trade_date", .text (p.repr (.date task.tradeDate)))]) none false st).2 = stored := by
    rw [hwrite]
  by_cases hid : d'.id = d.id
  · obtain ⟨n, written, last, hended⟩ := writeDataset_ended p h env.quotes hdef response
      (some [("trade_date", .text (p.repr (.date task.tradeDate)))]) none false st
    rw [hid] at hchanged
    rcases hended.whole value with hsame | ⟨k, frame, hplanned, -⟩
    · exact absurd hsame hchanged
    · cases hplanned with
      | replace _ hvalue _ => exact partitionValue_tradeDate hcolumn hvalue
      | upsert hupsert _ _ =>
        rw [Option.getD_none, hmode] at hupsert
        cases hupsert
      | group hspans _ _ _ _ _ => cases hspans.2.2
  · exact absurd (writeDataset_files_of_ne hid value) hchanged

/-- A partition of quotes that a run changes is the one of the planned trade date. -/
private theorem runSpotQuote_files {request : SpotRequest}
    {eastmoney sina : Int → Except StoreError Frame}
    {st : Store} {d : DatasetDefinition} (hd : d ∈ spotQuoteDatasets) {value : String}
    (hchanged : (runSpotQuote p h env request eastmoney sina st).2.files d.id value ≠
      st.files d.id value) :
    ∃ task, planSpotQuote p request (readCalendar p env.calendar st) = .ok task ∧
      value = p.repr (.date task.tradeDate) := by
  unfold runSpotQuote at hchanged
  split at hchanged
  case h_1 => exact absurd rfl hchanged
  case h_2 task hplan =>
    obtain ⟨-, -, -, -, hdataset⟩ := planSpotQuote_spec hplan
    refine ⟨task, hplan, ?_⟩
    split at hchanged
    case isTrue => exact absurd rfl hchanged
    case isFalse =>
      unfold recordResult at hchanged
      split at hchanged
      case h_1 response _ =>
        unfold recordEastmoney at hchanged
        rw [hdataset] at hchanged
        exact recordQuotes_files (by simp [spotQuoteDatasets]) hd hchanged
      case h_2 =>
        unfold runSinaFallback at hchanged
        split at hchanged
        case h_1 => exact absurd rfl hchanged
        case h_2 response =>
          have hsina : akshareSpotQuoteSinaDataset.id = "akshare_cn_stock_spot_quote_sina" := rfl
          rw [← hsina] at hchanged
          exact recordQuotes_files (by simp [spotQuoteDatasets]) hd hchanged

end Filing

/-- What the calendar and the clocks say of a planned trade date. It is the last trading day
the calendar records up to the candidate, and the module does not run in the hours of a
recorded trading day. Where the calendar is right about its days and has the last closed
session, and `--end` names no other one, it is the last closed session; an earlier closing
time makes no difference when both clocks agree. -/
structure RightlyDated (p : Pandas) (request : SpotRequest) (calendar : Frame) (day : Int) :
    Prop where
  recorded : RecordedTradeDate p request calendar day
  outside : ¬(WithinSession request.localNow ∧
    isTradingDay p calendar request.localNow.date = true)
  outsideSession : ∀ sessions, AgreesWith p calendar sessions →
    (request.localNow.date ∈ sessions → request.localNow.date ∈ calendarDates p calendar) →
    ¬(WithinSession request.localNow ∧ request.localNow.date ∈ sessions)
  lastClosed : ∀ sessions, AgreesWith p calendar sessions →
    ∀ last, LastClosed sessions marketDateCutoff request.systemNow last →
    last ∈ calendarDates p calendar →
    (∀ endDate ∈ request.endDate, IsGreatest {d | d ∈ sessions ∧ d ≤ endDate} last) →
    day = last
  anyClosing : ∀ sessions, AgreesWith p calendar sessions →
    (request.localNow.date ∈ sessions → request.localNow.date ∈ calendarDates p calendar) →
    request.localNow = request.systemNow →
    LastClosed sessions marketDateCutoff request.systemNow day →
    ∀ closing, 8 * usPerHour ≤ closing → closing ≤ 18 * usPerHour →
      LastClosed sessions closing request.systemNow day

private theorem rightlyDated_of_planned {p : Pandas} {request : SpotRequest} {calendar : Frame}
    {day : Int}
    (hrecorded : RecordedTradeDate p request calendar day)
    (hwindow : ¬(WithinSession request.localNow ∧
      isTradingDay p calendar request.localNow.date = true)) :
    RightlyDated p request calendar day := by
  have houtside : ∀ sessions, AgreesWith p calendar sessions →
      (request.localNow.date ∈ sessions → request.localNow.date ∈ calendarDates p calendar) →
      ¬(WithinSession request.localNow ∧ request.localNow.date ∈ sessions) := by
    rintro sessions agrees hrow ⟨hwithin, hsession⟩
    exact hwindow ⟨hwithin, isTradingDay_of_session agrees (hrow hsession) hsession⟩
  refine ⟨hrecorded, hwindow, houtside, ?_, ?_⟩
  · intro sessions agrees last hlast hrow hend
    have hcandidate : IsGreatest {d | d ∈ sessions ∧ d ≤ request.candidate} last := by
      unfold SpotRequest.candidate
      cases hgiven : request.endDate with
      | none =>
        simp only [LastClosed, closedAt_cutoff_iff] at hlast
        exact hlast
      | some endDate => exact hend endDate hgiven
    rcases hrecorded with hgreatest | ⟨-, hempty⟩
    · -- the calendar has the last session, and no other day as a session
      obtain ⟨⟨date, trading⟩, hk, rfl⟩ := mem_calendarDates.mp hrow
      obtain rfl : trading = true := (agrees _ hk).mpr hcandidate.1.1
      apply le_antisymm
      · exact hcandidate.2 ⟨(agrees _ hgreatest.1.1).mp rfl, hgreatest.1.2⟩
      · exact hgreatest.2 ⟨hk, hcandidate.1.2⟩
    · rw [hempty] at hrow
      cases hrow
  · intro sessions agrees hrow hclocks hlast closing hopening hclosing
    have hout := houtside sessions agrees hrow
    rw [hclocks] at hout
    exact lastClosed_of_outside hopening hclosing hout hlast

def quotesOf (day : Int) : Frame :=
  ⟨fieldNames akshareSpotQuoteEastmoneySchema, fun _ => .object,
    [rowOf [("trade_date", .date day), ("code", .text "600000")]]⟩

def SpotEnv.plain : SpotEnv where
  calendar := (WriteEnv.plain true).io 0
  quotes := .plain true
  prepare := .plain true
  reads := ⟨fun _ => [], fun _ _ => (WriteEnv.plain true).io 0⟩
  probe _ := true
  bars _ := .plain true

/-- A request whose clocks both read the day and the hour. -/
def requestAt (day : Int) (hour : ℕ) (endDate : Option Int) : SpotRequest :=
  ⟨fun _ => ⟨day, hour * usPerHour⟩, .naive ⟨day, hour * usPerHour⟩, ⟨day, hour * usPerHour⟩,
    endDate, false, false⟩

end QuantDataCenter.Sources
