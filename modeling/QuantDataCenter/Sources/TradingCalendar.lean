import Mathlib.Order.Bounds.Basic
import QuantDataCenter.Storage.Catalog

/-!
The trading calendar as the pipelines read it (`pipeline/common.py`). A calendar is
a frame with one row per day; rows whose date does not parse are left out, and a
day counts as a trading day by the word in its row.
-/

set_option autoImplicit false
set_option relaxedAutoImplicit false

namespace QuantDataCenter.Sources

open QuantDataCenter.Tabular

/-- A clock reading in the project's time zone: the day, and microseconds into it. -/
structure LocalTime where
  date : Int
  time : ℕ
  deriving DecidableEq

def usPerHour : ℕ := 3600000000

/-- 18:00. -/
def marketDateCutoff : ℕ := 18 * usPerHour

def defaultCandidateDate (localNow : LocalTime) : Int :=
  if localNow.time < marketDateCutoff then localNow.date - 1 else localNow.date

/-- A row of `_baostock_cn_trading_calendar_with_keys`. -/
structure CalendarKey where
  date : Int
  isTradingDay : Bool
  deriving DecidableEq

def tradingDayWords : List String := ["1", "true", "t", "yes"]

/-- `pd.to_datetime(..., errors="coerce").dt.normalize()` on one cell. -/
def normalizedDay (p : Pandas) : Cell → Option Int
  | .null => none
  | v => (p.toDatetime v).map fun ns => ns / nsPerDay

def readsAsTradingDay (p : Pandas) : Cell → Bool
  | .null => false
  | v => decide (p.lower (strip (p.str v)) ∈ tradingDayWords)

section Calendar

variable (p : Pandas) (calendar : Frame)

def calendarWithKeys : List CalendarKey :=
  if calendar.rows = [] ∨ "calendar_date" ∉ calendar.columns then []
  else calendar.rows.filterMap fun r => (normalizedDay p (r "calendar_date")).map fun day =>
    ⟨day, readsAsTradingDay p (r "is_trading_day")⟩

def calendarDates : List Int := (calendarWithKeys p calendar).map CalendarKey.date

/-- The last row of a day decides; a day without a row is no trading day. -/
def isTradingDay (value : Int) : Bool :=
  match ((calendarWithKeys p calendar).filter fun k => k.date = value).getLast? with
  | some k => k.isTradingDay
  | none => false

def coversRange (startDate endDate : Int) : Bool :=
  match (calendarDates p calendar).min?, (calendarDates p calendar).max? with
  | some first, some last => decide (first ≤ startDate) && decide (endDate ≤ last)
  | _, _ => false

/-- The rows of trading days up to the target. -/
def tradingDaysUpTo (target : Int) : List Int :=
  ((calendarWithKeys p calendar).filter fun k =>
    decide (k.date ≤ target) && k.isTradingDay).map CalendarKey.date

def latestTradingDayOnOrBefore (value : Int) : Except StoreError Int :=
  if calendarWithKeys p calendar = [] then
    .error (.valueError "No baostock_cn_trading_calendar rows available to resolve trading day")
  else match (tradingDaysUpTo p calendar value).max? with
    | some day => .ok day
    | none => .error (.valueError ("No trading day found on or before " ++ p.repr (.date value) ++
        " in baostock_cn_trading_calendar"))

/-- The rows say of their days what the exchange says. -/
def AgreesWith (sessions : Set Int) : Prop :=
  ∀ k ∈ calendarWithKeys p calendar, k.isTradingDay = true ↔ k.date ∈ sessions

variable {p calendar}

theorem mem_calendarDates {day : Int} :
    day ∈ calendarDates p calendar ↔ ∃ k ∈ calendarWithKeys p calendar, k.date = day := by
  unfold calendarDates
  rw [List.mem_map]

/-- Coverage is a matter of the days at both ends. -/
theorem coversRange_iff {startDate endDate : Int} :
    coversRange p calendar startDate endDate = true ↔
      (∃ first ∈ calendarDates p calendar, first ≤ startDate) ∧
        ∃ last ∈ calendarDates p calendar, endDate ≤ last := by
  unfold coversRange
  cases hmin : (calendarDates p calendar).min? with
  | none =>
    have hnil : calendarDates p calendar = [] := List.min?_eq_none_iff.mp hmin
    simp [hnil]
  | some first =>
    obtain ⟨hfirst, hle⟩ := List.min?_eq_some_iff.mp hmin
    obtain ⟨last, hmax⟩ : ∃ last, (calendarDates p calendar).max? = some last := by
      apply Option.ne_none_iff_exists'.mp
      intro hnone
      rw [List.max?_eq_none_iff.mp hnone] at hfirst
      cases hfirst
    obtain ⟨hlast, hge⟩ := List.max?_eq_some_iff.mp hmax
    rw [hmax]
    simp only [Bool.and_eq_true, decide_eq_true_eq]
    constructor
    · intro h
      exact ⟨⟨first, hfirst, h.1⟩, last, hlast, h.2⟩
    · rintro ⟨⟨a, ha, hstart⟩, b, hb, hend⟩
      exact ⟨(hle a ha).trans hstart, hend.trans (hge b hb)⟩

private theorem mem_tradingDaysUpTo {target day : Int} :
    day ∈ tradingDaysUpTo p calendar target ↔
      ⟨day, true⟩ ∈ calendarWithKeys p calendar ∧ day ≤ target := by
  unfold tradingDaysUpTo
  rw [List.mem_map]
  constructor
  · rintro ⟨⟨date, trading⟩, hk, rfl⟩
    obtain ⟨hmem, hcond⟩ := List.mem_filter.mp hk
    rw [Bool.and_eq_true, decide_eq_true_eq] at hcond
    obtain ⟨hle, rfl⟩ := hcond
    exact ⟨hmem, hle⟩
  · rintro ⟨hmem, hle⟩
    exact ⟨⟨day, true⟩, List.mem_filter.mpr ⟨hmem, by simpa using hle⟩, rfl⟩

/-- What is returned is the last trading day with a row, up to the target. -/
theorem latestTradingDay_eq_ok {value day : Int} :
    latestTradingDayOnOrBefore p calendar value = .ok day ↔
      IsGreatest {d | ⟨d, true⟩ ∈ calendarWithKeys p calendar ∧ d ≤ value} day := by
  have hgreatest : (tradingDaysUpTo p calendar value).max? = some day ↔
      IsGreatest {d | ⟨d, true⟩ ∈ calendarWithKeys p calendar ∧ d ≤ value} day := by
    rw [List.max?_eq_some_iff, mem_tradingDaysUpTo]
    refine and_congr_right fun _ => forall_congr' fun d => ?_
    rw [mem_tradingDaysUpTo]
    rfl
  unfold latestTradingDayOnOrBefore
  split
  case isTrue hnil =>
    constructor
    · intro h
      cases h
    · intro h
      have hmem := h.1.1
      rw [hnil] at hmem
      cases hmem
  case isFalse =>
    rw [← hgreatest]
    cases (tradingDaysUpTo p calendar value).max? <;> simp

theorem mem_of_isTradingDay {day : Int} (h : isTradingDay p calendar day = true) :
    ⟨day, true⟩ ∈ calendarWithKeys p calendar := by
  unfold isTradingDay at h
  split at h
  case h_1 k hlast =>
    obtain ⟨hk, hdate⟩ := List.mem_filter.mp (List.mem_of_getLast? hlast)
    obtain ⟨date, trading⟩ := k
    obtain rfl : trading = true := h
    obtain rfl : date = day := of_decide_eq_true hdate
    exact hk
  case h_2 => cases h

theorem isTradingDay_of_session {sessions : Set Int} (agrees : AgreesWith p calendar sessions)
    {day : Int} (hrow : day ∈ calendarDates p calendar) (hsession : day ∈ sessions) :
    isTradingDay p calendar day = true := by
  obtain ⟨k, hk, hdate⟩ := mem_calendarDates.mp hrow
  unfold isTradingDay
  split
  case h_1 last hlast =>
    obtain ⟨hmem, hdate'⟩ := List.mem_filter.mp (List.mem_of_getLast? hlast)
    rw [agrees last hmem, of_decide_eq_true hdate']
    exact hsession
  case h_2 hnone =>
    have hfilter : k ∈ (calendarWithKeys p calendar).filter fun k => k.date = day :=
      List.mem_filter.mpr ⟨hk, decide_eq_true hdate⟩
    rw [List.getLast?_eq_none_iff.mp hnone] at hfilter
    cases hfilter

end Calendar

end QuantDataCenter.Sources
