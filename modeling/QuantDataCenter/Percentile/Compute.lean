import Mathlib.Data.Prod.Lex
import Mathlib.Data.Rat.Defs
import Mathlib.Algebra.Order.Ring.Rat
import QuantDataCenter.Lib.Dict
import QuantDataCenter.Lib.Fenwick
import QuantDataCenter.Lib.Keyed

/-!
Valuation percentiles of one stock (`sources/baostock/valuation_percentile.py`): the
rolling counts over three binary indexed trees, the expanding ranks, and the direct
count over the samples of a window. Numbers are exact, and a division by zero is an
error.
-/

set_option autoImplicit false
set_option relaxedAutoImplicit false

namespace QuantDataCenter.Percentile

open QuantDataCenter.Lib

/-! Calendar dates -/

def isLeap (year : ℤ) : Bool := (year % 4 == 0 && year % 100 != 0) || year % 400 == 0

def daysInMonth (year : ℤ) (month : ℕ) : ℕ :=
  if month = 2 then (if isLeap year then 29 else 28)
  else if month = 4 ∨ month = 6 ∨ month = 9 ∨ month = 11 then 30 else 31

structure CalendarDate where
  year : ℤ
  month : ℕ
  day : ℕ
  valid : (1 ≤ month ∧ month ≤ 12) ∧ 1 ≤ day ∧ day ≤ daysInMonth year month
  deriving DecidableEq

def CalendarDate.key (d : CalendarDate) : ℤ ×ₗ ℕ ×ₗ ℕ := toLex (d.year, toLex (d.month, d.day))

private theorem CalendarDate.key_injective : Function.Injective CalendarDate.key := by
  rintro ⟨y, m, d, h⟩ ⟨y', m', d', h'⟩ heq
  simpa [CalendarDate.key] using heq

instance : LinearOrder CalendarDate := LinearOrder.lift' CalendarDate.key CalendarDate.key_injective

/-- `value.replace(year=...)`, which fails when there is no such date. -/
def CalendarDate.replaceYear (d : CalendarDate) (year : ℤ) : Option CalendarDate :=
  if h : d.day ≤ daysInMonth year d.month then some ⟨year, d.month, d.day, d.valid.1, d.valid.2.1, h⟩
  else none

private theorem day28_valid (year : ℤ) (month : ℕ) : 28 ≤ daysInMonth year month := by
  unfold daysInMonth
  split
  · split <;> omega
  · split <;> omega

/-- `_subtract_years`. -/
def subtractYears (d : CalendarDate) (years : ℕ) : CalendarDate :=
  match d.replaceYear (d.year - years) with
  | some date => date
  | none => ⟨d.year - years, d.month, 28, d.valid.1, by omega, day28_valid ..⟩

/-! Percentile of a value within the samples of a window -/

inductive ZeroDivision where
  | divisionByZero
  deriving DecidableEq, Repr

def divide (a b : ℤ) : Except ZeroDivision ℚ :=
  if b = 0 then .error .divisionByZero else .ok ((a : ℚ) / b)

/-- `_percentile_from_values`. -/
def percentileFromValues (values : List ℚ) (current : ℚ) : Except ZeroDivision (Option ℚ) :=
  let total : ℤ := values.length
  let positive := values.filter fun v => 0 < v
  let negative := values.filter fun v => v < 0
  if total ≤ 0 then .ok none
  else if current < 0 then do
    let part ← divide (positive.length + (negative.filter fun v => current ≤ v).length) total
    return some (part * 100)
  else if 0 < negative.length ∧ 0 < current then do
    let part ← divide (positive.filter fun v => v ≤ current).length positive.length
    return some (part * 100)
  else do
    let part ← divide (values.filter fun v => v ≤ current).length total
    return some (part * 100)

/-! Rolling counts -/

structure Sample where
  date : CalendarDate
  value : ℚ
  index : ℕ

structure RollingCounts where
  all : List ℤ
  positive : List ℤ
  negative : List ℤ
  samples : List Sample
  totalCount : ℤ
  positiveCount : ℤ
  negativeCount : ℤ

namespace RollingCounts

def new (values : List ℚ) : RollingCounts :=
  let size := max values.length 1
  ⟨Fenwick.new ℤ size, Fenwick.new ℤ size, Fenwick.new ℤ size, [], 0, 0, 0⟩

/-- `_add_sample`. -/
def addSample (counts : RollingCounts) (sample : Sample) (delta : ℤ) : RollingCounts :=
  let counts := { counts with
    all := Fenwick.add counts.all sample.index delta
    totalCount := counts.totalCount + delta }
  if 0 < sample.value then
    { counts with
      positive := Fenwick.add counts.positive sample.index delta
      positiveCount := counts.positiveCount + delta }
  else if sample.value < 0 then
    { counts with
      negative := Fenwick.add counts.negative sample.index delta
      negativeCount := counts.negativeCount + delta }
  else counts

def add (counts : RollingCounts) (date : CalendarDate) (value : ℚ) (index : ℕ) : RollingCounts :=
  let sample : Sample := ⟨date, value, index⟩
  addSample { counts with samples := counts.samples ++ [sample] } sample 1

/-- The loop of `evict_before` over the samples that are left. -/
def evictLoop (threshold : CalendarDate) : List Sample → RollingCounts → RollingCounts
  | [], counts => { counts with samples := [] }
  | sample :: rest, counts =>
    if sample.date < threshold then
      evictLoop threshold rest (addSample { counts with samples := rest } sample (-1))
    else { counts with samples := sample :: rest }

def evictBefore (counts : RollingCounts) (threshold : CalendarDate) : RollingCounts :=
  evictLoop threshold counts.samples counts

def percentile (counts : RollingCounts) (value : ℚ) (index : ℕ) :
    Except ZeroDivision (Option ℚ) :=
  if counts.totalCount ≤ 0 then .ok none
  else if value < 0 then do
    let lessThanCurrent := Fenwick.prefixSum counts.negative (index - 1)
    let part ← divide (counts.positiveCount + (counts.negativeCount - lessThanCurrent)) counts.totalCount
    return some (part * 100)
  else if 0 < counts.negativeCount ∧ 0 < value then do
    let part ← divide (Fenwick.prefixSum counts.positive index) counts.positiveCount
    return some (part * 100)
  else do
    let part ← divide (Fenwick.prefixSum counts.all index) counts.totalCount
    return some (part * 100)

end RollingCounts

/-! Frames -/

/-- `VALUATION_FIELDS`. -/
inductive ValuationField where
  | peTtm
  | pbMrq
  | psTtm
  | pcfNcfTtm
  deriving DecidableEq, Repr

/-- `WINDOWS` and `ALL_HISTORY_WINDOW`. -/
inductive Window where
  | years (n : ℕ)
  | allHistory
  deriving DecidableEq, Repr

abbrev Column := ValuationField × Window

def valuationFields : List ValuationField := [.peTtm, .pbMrq, .psTtm, .pcfNcfTtm]

def windows : List ℕ := [1, 3, 5, 10]

/-- The computed columns, in the order in which they are computed. -/
def percentileColumns : List Column :=
  valuationFields.map (·, .allHistory) ++
    valuationFields.flatMap fun field => windows.map fun n => (field, .years n)

/-- A source row; a valuation that is missing or no number is `none`. -/
structure SourceRow where
  date : CalendarDate
  code : String
  value : ValuationField → Option ℚ

structure PercentileRow where
  date : CalendarDate
  code : String
  value : ValuationField → Option ℚ
  percentile : Column → Option ℚ

/-- The value, if `_is_valid_valuation`. -/
def validValuation : Option ℚ → Option ℚ
  | some v => if v = 0 then none else some v
  | none => none

/-- The valid samples of a field, with their dates. -/
def validSamples (rows : List SourceRow) (field : ValuationField) : List (CalendarDate × ℚ) :=
  rows.filterMap fun row => (validValuation (row.value field)).map fun v => (row.date, v)

def firstValidDate (rows : List SourceRow) (field : ValuationField) : Option CalendarDate :=
  ((validSamples rows field).map Prod.fst).min?

/-! `compute_valuation_percentiles` -/

/-- The loop of `_compute_field_percentiles` for one window. -/
def fieldLoop (values : List ℚ) (first : CalendarDate) (years : ℕ) :
    RollingCounts → List (CalendarDate × Option ℚ) → Except ZeroDivision (List (Option ℚ))
  | _, [] => .ok []
  | counts, (date, value) :: rows => do
    let threshold := subtractYears date years
    let counts := counts.evictBefore threshold
    match validValuation value with
    | none => return none :: (← fieldLoop values first years counts rows)
    | some v =>
      let index := values.idxOf v
      let counts := counts.add date v index
      let percentile ← if first ≤ threshold then counts.percentile v index else .ok none
      return percentile :: (← fieldLoop values first years counts rows)

def computeFieldPercentiles (work : List SourceRow) (field : ValuationField) (years : ℕ) :
    Except ZeroDivision (List (Option ℚ)) :=
  match firstValidDate work field with
  | none => .ok (work.map fun _ => none)
  | some first =>
    let values := ((validSamples work field).map Prod.snd).dedup.mergeSort (· ≤ ·)
    fieldLoop values first years (RollingCounts.new values)
      (work.map fun row => (row.date, row.value field))

/-- `rank(method="max")` of the last element of a window among those that are not missing. -/
def rankMax (window : List (Option ℚ)) : Option ℤ :=
  match window.getLast? with
  | some (some v) => some (window.countP fun x => x.any fun y => y ≤ v)
  | _ => none

def positivePart (x : Option ℚ) : Option ℚ := x.filter fun v => 0 < v

def negativePart (x : Option ℚ) : Option ℚ := x.filter fun v => v < 0

/-- The all-history percentile of the last row of an expanding window. -/
def allHistoryPercentile (window : List (Option ℚ)) : Except ZeroDivision (Option ℚ) :=
  let positive := window.map positivePart
  let negative := window.map negativePart
  match window.getLast? with
  | some (some v) =>
    if 0 < v then
      match rankMax positive with
      | some rank => do
        let part ← divide rank (positive.countP Option.isSome)
        return some (part * 100)
      | none => .ok none
    else if v < 0 then
      match rankMax (negative.map fun x => x.map fun y => -y) with
      | some rank => do
        let part ← divide (positive.countP Option.isSome + rank)
          (window.countP fun x => (validValuation x).isSome)
        return some (part * 100)
      | none => .ok none
    else .ok none
  | _ => .ok none

/-- `_compute_all_history_percentiles`, for one field. -/
def computeAllHistoryPercentiles (work : List SourceRow) (field : ValuationField) :
    Except ZeroDivision (List (Option ℚ)) :=
  (work.map fun row => row.value field).inits.tail.mapM allHistoryPercentile

def computeColumn (work : List SourceRow) : Column → Except ZeroDivision (List (Option ℚ))
  | (field, .allHistory) => computeAllHistoryPercentiles work field
  | (field, .years n) => computeFieldPercentiles work field n

/-- The result columns by name, the columns of the rows kept. -/
def assemble (rows : List SourceRow) (columns : Dict Column (List (Option ℚ))) : List PercentileRow :=
  rows.zipIdx.map fun row =>
    { date := row.1.date
      code := row.1.code
      value := row.1.value
      percentile := fun c => ((Dict.get c columns).bind fun column => column[row.2]?).join }

/-- `compute_valuation_percentiles`, on the bars of one code. -/
def computeValuationPercentiles (df : List SourceRow) : Except ZeroDivision (List PercentileRow) := do
  let work := Keyed.stableSort SourceRow.date df
  let columns ← percentileColumns.mapM fun c => do return (c, ← computeColumn work c)
  return assemble work columns

/-! `_compute_append_only_valuation_percentiles` -/

/-- The samples of a window that ends at a date. -/
def windowSamples (work : List SourceRow) (column : Column) (date : CalendarDate) : List ℚ :=
  ((validSamples work column.1).filter fun sample =>
    (match column.2 with
      | .allHistory => true
      | .years n => decide (subtractYears date n ≤ sample.1)) && decide (sample.1 ≤ date)).map Prod.snd

/-- A fixed window has a percentile only when the history reaches back to its start. -/
def Mature (work : List SourceRow) (column : Column) (date : CalendarDate) : Prop :=
  match column.2 with
  | .allHistory => True
  | .years n => ∃ first ∈ firstValidDate work column.1, first ≤ subtractYears date n

instance (work : List SourceRow) (column : Column) (date : CalendarDate) :
    Decidable (Mature work column date) := by
  unfold Mature
  split <;> infer_instance

def appendCell (work : List SourceRow) (column : Column) (row : SourceRow) :
    Except ZeroDivision (Option ℚ) :=
  match validValuation (row.value column.1) with
  | none => .ok none
  | some v =>
    if Mature work column row.date then percentileFromValues (windowSamples work column row.date) v
    else .ok none

/-- The latest date of a stored frame; a date that is missing or no date does not count. -/
def latestDate (dates : List (Option CalendarDate)) : Option CalendarDate :=
  (dates.filterMap id).max?

def computeAppendOnlyValuationPercentiles (source : List SourceRow)
    (existing : List (Option CalendarDate)) : Except ZeroDivision (List PercentileRow) :=
  match latestDate existing with
  | none => computeValuationPercentiles source
  | some latest => do
    let work := Keyed.stableSort SourceRow.date source
    let appendWork := work.filter fun row => latest < row.date
    let columns ← percentileColumns.mapM fun c => do return (c, ← appendWork.mapM (appendCell work c))
    return assemble appendWork columns

end QuantDataCenter.Percentile
