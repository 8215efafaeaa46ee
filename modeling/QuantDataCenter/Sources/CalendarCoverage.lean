import Mathlib.Data.Int.ConditionallyCompleteOrder
import Mathlib.Order.Interval.Set.OrdConnected
import QuantDataCenter.Sources.TradingCalendar
import QuantDataCenter.Storage.KeyedWrite

/-!
Coverage of the trading calendar and the market date that is resolved from it
(`resolve_daily_effective_dates`). The stored calendar is the union of the windows
that were fetched and merged; coverage looks at its first and last day only.
-/

set_option autoImplicit false
set_option relaxedAutoImplicit false

namespace QuantDataCenter.Sources

open QuantDataCenter.Lib.Checked QuantDataCenter.Lib.Keyed QuantDataCenter.Lib.Transition
open QuantDataCenter.Tabular QuantDataCenter.Storage QuantDataCenter.Quality

/-! The dates of a daily run -/

structure DailyEffectiveDates where
  naturalDate : Int
  candidateDate : Int
  marketDate : Int
  histStart : Int
  marketDateOverridden : Bool
  deriving DecidableEq

/-- What `resolve_daily_effective_dates` is called with: the day, the clock in the
time zone of the settings (none when they cannot be loaded), whether there is a
`settings.yaml`, and the two dates an operator may give. -/
structure DateRequest where
  naturalDate : Int
  localNow : Option LocalTime
  settings : Bool
  asOfDate : Option Int
  marketDate : Option Int

def DateRequest.candidate (request : DateRequest) : Int :=
  match request.asOfDate, request.localNow with
  | some day, _ => day
  | none, some now => defaultCandidateDate now
  | none, none => request.naturalDate

section Resolution

variable (p : Pandas)

/-- The stored calendar if it covers the candidate, otherwise the one that is read
after the refresh, which must cover it. -/
def acceptedCalendar (stored refreshed : Except StoreError Frame) (candidate : Int) :
    Except StoreError Frame := do
  let calendar ← stored
  let covering := if coversRange p calendar candidate candidate then .ok calendar else refreshed
  let calendar ← covering
  if coversRange p calendar candidate candidate then .ok calendar
  else .error (.valueError ("baostock_cn_trading_calendar does not cover candidate_date " ++
    p.repr (.date candidate) ++ " after preflight refresh"))

def resolveDailyEffectiveDates (request : DateRequest) (stored refreshed : Except StoreError Frame) :
    Except StoreError DailyEffectiveDates :=
  let candidate := request.candidate
  let resolved (marketDate : Int) (overridden : Bool) : DailyEffectiveDates :=
    ⟨request.naturalDate, candidate, marketDate, marketDate - 30, overridden⟩
  match request.marketDate with
  | some marketDate =>
    if candidate < marketDate then
      .error (.valueError ("market_date " ++ p.repr (.date marketDate) ++
        " must be on or before candidate_date " ++ p.repr (.date candidate)))
    else .ok (resolved marketDate true)
  | none =>
    if request.settings then do
      let calendar ← acceptedCalendar p stored refreshed candidate
      let marketDate ← latestTradingDayOnOrBefore p calendar candidate
      .ok (resolved marketDate false)
    else .ok (resolved candidate false)

variable {p} {request : DateRequest} {stored refreshed : Except StoreError Frame} {calendar : Frame}

private theorem covers_of_accepted {candidate : Int}
    (h : acceptedCalendar p stored refreshed candidate = .ok calendar) :
    coversRange p calendar candidate candidate = true := by
  unfold acceptedCalendar at h
  obtain ⟨first, -, h⟩ := bind_eq_ok.mp h
  obtain ⟨second, -, h⟩ := bind_eq_ok.mp h
  split at h
  case isTrue hcovers =>
    obtain rfl := Except.ok.inj h
    exact hcovers
  case isFalse => cases h

private theorem accepted_of_covers {candidate : Int}
    (hcovers : coversRange p calendar candidate candidate = true) :
    acceptedCalendar p (.ok calendar) refreshed candidate = .ok calendar := by
  simp [acceptedCalendar, hcovers, bind, Except.bind]

private theorem resolveDailyEffectiveDates_eq (hmarket : request.marketDate = none)
    (hsettings : request.settings = true)
    (haccepted : acceptedCalendar p stored refreshed request.candidate = .ok calendar) :
    resolveDailyEffectiveDates p request stored refreshed =
      (latestTradingDayOnOrBefore p calendar request.candidate).map fun marketDate =>
        ⟨request.naturalDate, request.candidate, marketDate, marketDate - 30, false⟩ := by
  unfold resolveDailyEffectiveDates
  simp only [hmarket, hsettings, if_true, haccepted, bind, Except.bind]
  cases latestTradingDayOnOrBefore p calendar request.candidate <;> rfl

end Resolution

/-! What coverage promises -/

section Promise

variable (p : Pandas) (calendar : Frame)

/-- Every day of a covered range has a row. -/
def CoverageSound : Prop :=
  ∀ startDate endDate, coversRange p calendar startDate endDate = true →
    ∀ day, startDate ≤ day → day ≤ endDate → day ∈ calendarDates p calendar

/-- Where the calendar is accepted, the market date is the last session up to the candidate. -/
def MarketDatesRight : Prop :=
  ∀ sessions, AgreesWith p calendar sessions →
    ∀ (request : DateRequest) (stored refreshed : Except StoreError Frame)
      (dates : DailyEffectiveDates),
      request.marketDate = none → request.settings = true →
      acceptedCalendar p stored refreshed request.candidate = .ok calendar →
      resolveDailyEffectiveDates p request stored refreshed = .ok dates →
      IsGreatest {d | d ∈ sessions ∧ d ≤ dates.candidateDate} dates.marketDate

variable {p calendar}

private theorem coverageSound_iff :
    CoverageSound p calendar ↔ {d | d ∈ calendarDates p calendar}.OrdConnected := by
  rw [Set.ordConnected_def]
  constructor
  · intro sound first hfirst last hlast day hday
    have hcovers : coversRange p calendar first last = true :=
      coversRange_iff.mpr ⟨⟨first, hfirst, le_refl first⟩, last, hlast, le_refl last⟩
    exact sound first last hcovers day hday.1 hday.2
  · intro connected startDate endDate hcovers day hstart hend
    obtain ⟨⟨first, hfirst, hle⟩, last, hlast, hge⟩ := coversRange_iff.mp hcovers
    exact connected hfirst hlast ⟨hle.trans hstart, hend.trans hge⟩

/-- Without gaps no session between the day that is found and the candidate is missed. -/
private theorem marketDatesRight_of_coverageSound (sound : CoverageSound p calendar) :
    MarketDatesRight p calendar := by
  intro sessions agrees request stored refreshed dates hmarket hsettings haccepted hresolved
  rw [resolveDailyEffectiveDates_eq hmarket hsettings haccepted] at hresolved
  obtain ⟨marketDate, hlatest, rfl⟩ := map_eq_ok.mp hresolved
  have hcovers := covers_of_accepted haccepted
  obtain ⟨⟨hrow, hle⟩, hgreatest⟩ := latestTradingDay_eq_ok.mp hlatest
  refine ⟨⟨(agrees _ hrow).mp rfl, hle⟩, ?_⟩
  rintro session ⟨hsession, hupto⟩
  by_contra hlater
  push Not at hlater
  -- the days from the one that was found to the candidate are covered
  have hrange : coversRange p calendar marketDate request.candidate = true := by
    obtain ⟨-, hlast⟩ := coversRange_iff.mp hcovers
    have hfound : marketDate ∈ calendarDates p calendar := mem_calendarDates.mpr ⟨_, hrow, rfl⟩
    exact coversRange_iff.mpr ⟨⟨_, hfound, le_refl _⟩, hlast⟩
  obtain ⟨⟨day, trading⟩, hk, rfl⟩ :=
    mem_calendarDates.mp (sound _ _ hrange session hlater.le hupto)
  obtain rfl : trading = true := (agrees _ hk).mpr hsession
  exact absurd (hgreatest ⟨hk, hupto⟩) (not_le.mpr hlater)

end Promise

/-! The stored calendar -/

/-- What happens to the store: the calendar is fetched and merged, or another dataset is written. -/
inductive CalendarEvent where
  | fetched (env : WriteEnv) (window : Frame)
  | written (call : WriteCall) (other : call.dataset ≠ "baostock_cn_trading_calendar")

def CalendarEvent.call : CalendarEvent → WriteCall
  | .fetched env window => ⟨env, "baostock_cn_trading_calendar", window, none, none, false⟩
  | .written call _ => call

section Merging

variable (p : Pandas) (h : Hashing)

def calendarStep (st : Store) (event : CalendarEvent) : Option Store := callStep p h st event.call

/-- The window is combined with the stored calendar and the file is replaced. -/
def landed (env : WriteEnv) (window : Frame) (st : Store) : Bool :=
  match replaceFrame p env baostockCnTradingCalendarDataset window none "" true st,
      atomicWrite (env.io 0).attempts with
  | .ok _, .ok () => true
  | _, _ => false

/-- The windows of a run that reached the file. -/
def mergedWindows : Store → List CalendarEvent → List Frame
  | _, [] => []
  | st, .fetched env window :: events =>
    let st' := (writeDataset p h env "baostock_cn_trading_calendar" window none none false st).2
    if landed p env window st then window :: mergedWindows st' events else mergedWindows st' events
  | st, .written call _ :: events =>
    mergedWindows (writeDataset p h call.env call.dataset call.df call.partition call.mode
      call.skipExisting st).2 events

/-- The days of a window, as they are stored. -/
def windowDates (window : Frame) : Set Int :=
  {day | ∃ r ∈ incomingRows p baostockCnTradingCalendarDataset window, r "calendar_date" = .date day}

def storedDates (st : Store) : Set Int :=
  {day | ∃ r ∈ content st baostockCnTradingCalendarDataset "", r "calendar_date" = .date day}

variable {p h}

private theorem calendar_mem : baostockCnTradingCalendarDataset ∈ datasetCatalog := by
  simp [datasetCatalog]

private theorem calendar_definition : datasetDefinition "baostock_cn_trading_calendar" =
    .ok baostockCnTradingCalendarDataset := rfl

theorem writePreparedDataset_files (io : PartitionIo) (d : DatasetDefinition) (df : Frame)
    (value : String) (st : Store) :
    (writePreparedDataset p h io d df value st).2.files d.id value =
      match atomicWrite io.attempts with
      | .ok () => some df.rows
      | .error _ => st.files d.id value := by
  unfold writePreparedDataset
  cases hwrite : atomicWrite io.attempts with
  | error e => rfl
  | ok u =>
    simp only [upsertPartitionManifestAfterWrite]
    split_ifs
    · exact Store.setFile_files_self _ d.id value df.rows
    · exact Store.setFile_files_self _ d.id value df.rows
    · exact Store.setFile_files_self _ d.id value df.rows

private theorem calendar_file_of_merge (env : WriteEnv) (window : Frame) (st : Store) :
    (landed p env window st = true ∧ ∃ frame,
      replaceFrame p env baostockCnTradingCalendarDataset window none "" true st = .ok frame ∧
      (writeDatasetReplace p h env baostockCnTradingCalendarDataset window none true st).2.files
        "baostock_cn_trading_calendar" "" = some frame.rows) ∨
    (landed p env window st = false ∧
      (writeDatasetReplace p h env baostockCnTradingCalendarDataset window none true st).2.files
        "baostock_cn_trading_calendar" "" = st.files "baostock_cn_trading_calendar" "") := by
  have hvalue : partitionValue p baostockCnTradingCalendarDataset none = .ok "" := rfl
  unfold landed writeDatasetReplace
  simp only [hvalue]
  cases hframe : replaceFrame p env baostockCnTradingCalendarDataset window none "" true st with
  | error e => exact Or.inr ⟨rfl, rfl⟩
  | ok frame =>
    simp only
    have hfile := @writePreparedDataset_files p h (env.io 0) baostockCnTradingCalendarDataset frame
      "" st
    rcases hout : writePreparedDataset p h (env.io 0) baostockCnTradingCalendarDataset frame "" st
      with ⟨result, st'⟩
    rw [hout] at hfile
    cases hwrite : atomicWrite (env.io 0).attempts with
    | error e =>
      rw [hwrite] at hfile
      exact Or.inr ⟨rfl, by cases result <;> exact hfile⟩
    | ok u =>
      rw [hwrite] at hfile
      exact Or.inl ⟨rfl, frame, rfl, by cases result <;> exact hfile⟩

private theorem exists_date_combinedRows {env : WriteEnv} {existing incoming : List Row}
    {day : Int} :
    (∃ r ∈ combinedRows env baostockCnTradingCalendarDataset existing incoming,
      r "calendar_date" = .date day) ↔
    (∃ r ∈ existing, r "calendar_date" = .date day) ∨
      ∃ r ∈ incoming, r "calendar_date" = .date day := by
  have hkey : ∀ rows : List Row, (∃ r ∈ rows, r "calendar_date" = .date day) ↔
      [Cell.date day] ∈ rows.map (rowKey ["calendar_date"]) := by
    intro rows
    rw [List.mem_map]
    simp [rowKey]
  rw [hkey, hkey, hkey]
  exact @mem_map_combinedRows env baostockCnTradingCalendarDataset existing incoming _

theorem storedDates_of_merge {env : WriteEnv} {window : Frame} {st : Store}
    (hst : WellStored p st) :
    storedDates (writeDataset p h env "baostock_cn_trading_calendar" window none none false st).2 =
      if landed p env window st then storedDates st ∪ windowDates p window else storedDates st := by
  have hstored := hst _ calendar_mem
  have hid : baostockCnTradingCalendarDataset.id = "baostock_cn_trading_calendar" := rfl
  rw [writeDataset_eq env calendar_definition]
  change storedDates (writeDatasetReplace p h env baostockCnTradingCalendarDataset window none true
    st).2 = _
  rcases @calendar_file_of_merge p h env window st with ⟨hlanded, frame, hframe, hfile⟩ |
    ⟨hlanded, hfile⟩
  · obtain ⟨coerced, hcoerced, -, hrows, -⟩ :=
      replaceFrame_stored (wellFormed_of_mem calendar_mem) rfl (hstored "") hframe
    rw [hlanded, if_pos rfl]
    ext day
    have hsorted : (∃ r ∈ sortValues env baostockCnTradingCalendarDataset.sortColumns coerced.rows,
        r "calendar_date" = .date day) ↔ ∃ r ∈ coerced.rows, r "calendar_date" = .date day := by
      simp only [(sortValues_perm env _ _).mem_iff]
    simp only [storedDates, windowDates, incomingRows_of_ok hcoerced, Set.mem_union,
      Set.mem_ofPred_eq, content, hid, hfile, Option.getD_some, hrows]
    cases hold : st.files "baostock_cn_trading_calendar" "" with
    | none => simpa using hsorted
    | some rows =>
      simp only [Option.isSome_some, and_self, if_true, Option.getD_some]
      rw [exists_date_combinedRows, hsorted]
  · rw [hlanded, if_neg (by decide)]
    simp only [storedDates, content, hid, hfile]

private theorem storedDates_of_other {call : WriteCall} {st : Store}
    (other : call.dataset ≠ "baostock_cn_trading_calendar") :
    storedDates (writeDataset p h call.env call.dataset call.df call.partition call.mode
      call.skipExisting st).2 = storedDates st := by
  have hid : baostockCnTradingCalendarDataset.id = "baostock_cn_trading_calendar" := rfl
  simp only [storedDates, content, hid, writeDataset_files_of_ne other.symm]

/-- The stored calendar is the union of the windows that were merged. -/
private theorem storedDates_of_events {st st' : Store} {events : List CalendarEvent}
    (hst : WellStored p st) (run : exec (calendarStep p h) st events = some st') :
    WellStored p st' ∧ storedDates st' =
      storedDates st ∪ ⋃ window ∈ mergedWindows p h st events, windowDates p window := by
  induction events generalizing st with
  | nil =>
    obtain rfl := Option.some.inj run
    exact ⟨hst, by simp [mergedWindows]⟩
  | cons event events ih =>
    obtain ⟨st1, hstep, hrest⟩ := exec_cons_some.mp run
    obtain ⟨hwell, hdates⟩ := ih (wellStored_callStep hst hstep) hrest
    obtain rfl := Option.some.inj hstep
    refine ⟨hwell, ?_⟩
    rw [hdates]
    cases event with
    | fetched env window =>
      simp only [CalendarEvent.call, storedDates_of_merge hst, mergedWindows]
      split <;> simp [Set.union_assoc]
    | written call other =>
      simp only [CalendarEvent.call, storedDates_of_other other, mergedWindows]

private theorem mem_calendarDates_of_read {io : PartitionIo} {st : Store} {calendar : Frame}
    (hst : WellStored p st)
    (hread : readDataset p io st baostockCnTradingCalendarDataset "" = .ok calendar) :
    {d | d ∈ calendarDates p calendar} = storedDates st := by
  have hstored := hst _ calendar_mem
  obtain ⟨hrows, hcolumns⟩ :=
    readDataset_rows (wellFormed_of_mem calendar_mem) (hstored "") hread
  have hmem : "calendar_date" ∈ calendar.columns := by
    rw [hcolumns]
    decide
  have hkeys : calendarWithKeys p calendar = calendar.rows.filterMap fun r =>
      (normalizedDay p (r "calendar_date")).map fun day =>
        ⟨day, readsAsTradingDay p (r "is_trading_day")⟩ := by
    unfold calendarWithKeys
    split
    case isTrue hor =>
      rcases hor with hnil | hnot
      · rw [hnil]
        rfl
      · exact absurd hmem hnot
    case isFalse => rfl
  ext day
  simp only [Set.mem_ofPred_eq, mem_calendarDates, hkeys, List.mem_filterMap, storedDates]
  have hday : ∀ r ∈ content st baostockCnTradingCalendarDataset "",
      normalizedDay p (r "calendar_date") = some day ↔ r "calendar_date" = .date day := by
    intro r hr
    have haccepts := (content_stored (hstored "") r hr).1.accepts ⟨"calendar_date", .date32⟩
      (by decide)
    cases hcell : r "calendar_date" with
    | null => simp [normalizedDay]
    | date d =>
      have hdiv : d * nsPerDay / nsPerDay = d := Int.mul_ediv_cancel d (by decide)
      simp [normalizedDay, p.toDatetime_date, hdiv]
    | _ => simp [FieldType.accepts, hcell] at haccepts
  rw [hrows]
  constructor
  · rintro ⟨k, ⟨r, hr, hk⟩, rfl⟩
    obtain ⟨d, hd, rfl⟩ := Option.map_eq_some_iff.mp hk
    exact ⟨r, hr, (hday r hr).mp hd⟩
  · rintro ⟨r, hr, hcell⟩
    exact ⟨_, ⟨r, hr, by rw [(hday r hr).mpr hcell]; rfl⟩, rfl⟩

/-- In a store that merged windows have filled, coverage means rows on every day and
right market dates if and only if the windows leave no day out between them. -/
theorem coverage_sound_iff {st₀ st : Store} {events : List CalendarEvent} {io : PartitionIo}
    {calendar : Frame} (hempty : ∀ dataset value, st₀.files dataset value = none)
    (run : exec (calendarStep p h) st₀ events = some st)
    (hread : readDataset p io st baostockCnTradingCalendarDataset "" = .ok calendar) :
    (CoverageSound p calendar ∧ MarketDatesRight p calendar) ↔
      (⋃ window ∈ mergedWindows p h st₀ events, windowDates p window).OrdConnected := by
  have hst₀ : WellStored p st₀ := by
    intro d _ value rows hfile
    rw [hempty] at hfile
    cases hfile
  have hnone : storedDates st₀ = ∅ := by
    simp [storedDates, content, hempty]
  obtain ⟨hst, hdates⟩ := storedDates_of_events hst₀ run
  rw [hnone, Set.empty_union] at hdates
  rw [← hdates, ← mem_calendarDates_of_read hst hread, ← coverageSound_iff]
  exact ⟨And.left, fun sound => ⟨sound, marketDatesRight_of_coverageSound sound⟩⟩

end Merging

/-! Two windows that touch, and two that leave a session out between them. -/

def sessionFetched (day : Int) : CalendarEvent := .fetched (.plain true) (calendarOf day "1")

def sessionsStored (days : List Int) : Store :=
  days.foldl (fun st day => (writeDataset .plain .plain (.plain true) "baostock_cn_trading_calendar"
    (calendarOf day "1") none none false st).2) .empty

/-- The calendar as it is read from the store. -/
def calendarRead (st : Store) : Frame :=
  match readDataset .plain ((WriteEnv.plain true).io 0) st baostockCnTradingCalendarDataset "" with
  | .ok calendar => calendar
  | .error _ => emptyDatasetFrame baostockCnTradingCalendarDataset

theorem coverage_sound_for_touching_windows :
    (CoverageSound .plain (calendarRead (sessionsStored [19724, 19725])) ∧
      MarketDatesRight .plain (calendarRead (sessionsStored [19724, 19725]))) ↔
    (⋃ window ∈ mergedWindows .plain .plain .empty [sessionFetched 19724, sessionFetched 19725],
      windowDates .plain window).OrdConnected :=
  @coverage_sound_iff .plain .plain .empty (sessionsStored [19724, 19725])
    [sessionFetched 19724, sessionFetched 19725] ((WriteEnv.plain true).io 0) _ (fun _ _ => rfl)
    rfl (by rfl)

/-- With 2024-01-02 and 2024-01-04 fetched, the calendar is accepted for the session of
2024-01-03, which it does not know, and the day before is taken for it. -/
theorem missed_session_between_windows :
    exec (calendarStep .plain .plain) .empty [sessionFetched 19724, sessionFetched 19726] =
        some (sessionsStored [19724, 19726]) ∧
      ¬CoverageSound .plain (calendarRead (sessionsStored [19724, 19726])) ∧
      ¬MarketDatesRight .plain (calendarRead (sessionsStored [19724, 19726])) := by
  have hkeys : calendarWithKeys .plain (calendarRead (sessionsStored [19724, 19726])) =
      [⟨19724, true⟩, ⟨19726, true⟩] := by decide +kernel
  have hcovers : coversRange .plain (calendarRead (sessionsStored [19724, 19726])) 19725 19725 =
      true := by decide +kernel
  have hlatest : latestTradingDayOnOrBefore .plain (calendarRead (sessionsStored [19724, 19726]))
      19725 = .ok 19724 := by decide +kernel
  refine ⟨rfl, ?_, ?_⟩
  · intro sound
    have hrow := sound 19725 19725 hcovers 19725 (le_refl _) (le_refl _)
    rw [calendarDates, hkeys] at hrow
    exact absurd hrow (by decide)
  · intro right
    let request : DateRequest := ⟨19725, none, true, some 19725, none⟩
    have hagrees : AgreesWith .plain (calendarRead (sessionsStored [19724, 19726]))
        {19724, 19725, 19726} := by
      intro k hk
      rw [hkeys, List.mem_pair] at hk
      rcases hk with rfl | rfl <;> simp
    have haccepted := @accepted_of_covers .plain (.error .osError) _ _ hcovers
    have hresolved : resolveDailyEffectiveDates .plain request
        (.ok (calendarRead (sessionsStored [19724, 19726]))) (.error .osError) =
        .ok ⟨19725, 19725, 19724, 19694, false⟩ := by
      rw [@resolveDailyEffectiveDates_eq .plain request _ _ _ rfl rfl haccepted]
      change Except.map _ (latestTradingDayOnOrBefore .plain _ 19725) = _
      rw [hlatest]
      rfl
    have hgreatest := right _ hagrees request _ _ _ rfl rfl haccepted hresolved
    have hmissed : (19725 : Int) ≤ 19724 := hgreatest.2 ⟨by simp, le_refl (19725 : Int)⟩
    exact absurd hmissed (by decide)

end QuantDataCenter.Sources
