import QuantDataCenter.Lib.AsOf
import QuantDataCenter.Sources.Adjustments

/-!
The price adjustment step by step: the bars of each code are sorted by date and joined with the
factors of the code, and the factors are written back by row number. Whatever the order of the
rows, each bar gets the latest factor of its own code.
-/

set_option autoImplicit false
set_option relaxedAutoImplicit false

namespace QuantDataCenter.Sources.AdjustmentJoin

open QuantDataCenter.Lib.Checked QuantDataCenter.Lib.Keyed QuantDataCenter.Lib.AsOf
open QuantDataCenter.Tabular QuantDataCenter.Quality QuantDataCenter.Storage

/-- A row of `daily_dates`. -/
structure DailyDate where
  rowOrder : ℕ
  dateKey : Int
  deriving DecidableEq

/-- The columns that the calculation adds and drops again. -/
def scratchColumns : List String := ["_row_order", "_date_key", "_code_key", "_adj_factor"]

/-- The frame that the calculation works on, with its added columns apart. -/
structure WorkRow where
  rowOrder : ℕ
  codeKey : Option String
  dateKey : Option Int

/-- How `sort_values` orders rows of one date is not said. -/
structure SortEnv where
  dailyDates : Sorter DailyDate.dateKey
  codeFactors : Sorter FactorValue.date

section Steps

variable (p : Pandas) (e : SortEnv)

/-- `range(len(result))`, and the keys of the rows. -/
def workRows (rows : List Row) : List WorkRow :=
  (rows.zipIdx).map fun r => ⟨r.2, codeText p (r.1 "code"), parsedDate p (r.1 "date")⟩

/-- `result.groupby("_code_key", dropna=False).groups`: the keys in order, missing codes last. -/
def codeGroups (work : List WorkRow) : List (Option String × List WorkRow) :=
  stableSort (fun group : Option String × List WorkRow =>
    toLex ((if group.1 = none then 1 else 0 : ℕ), group.1.getD "")) (groups WorkRow.codeKey work)

/-- The rows of a group with a date, sorted by it. -/
def dailyDates (group : List WorkRow) : List DailyDate :=
  e.dailyDates.sort (group.filterMap fun row => row.dateKey.map fun date => ⟨row.rowOrder, date⟩)

def codeFactors (values : List FactorValue) (codeKey : Option String) : List FactorValue :=
  e.codeFactors.sort (values.filter fun v => some v.code = codeKey)

/-- The factors of a group by row number; a bar without a match gets 1. -/
def groupFactors (values : List FactorValue) (group : Option String × List WorkRow) :
    List (ℕ × ℚ) :=
  let daily := dailyDates e group.2
  if daily = [] then []
  else
    let factors := codeFactors e values group.1
    if factors = [] then []
    else (mergeAsof DailyDate.dateKey FactorValue.date daily factors).map fun matched =>
      (matched.1.rowOrder, (matched.2.map FactorValue.value).getD 1)

/-- The column `_adj_factor`: 1, and then what each group writes. -/
def adjFactors (values : List FactorValue) (rows : List Row) : List ℚ :=
  let start := List.replicate rows.length (1 : ℚ)
  if values = [] then start
  else (codeGroups (workRows p rows)).foldl
    (fun column group => writeAll (groupFactors e values group) column) start

/-- A row with the flag and the prices set, without the added columns. -/
def adjustedRow (columns : List String) (adjustFlag : String) (r : Row) (factor : ℚ) : Row :=
  fun column =>
    if column ∉ columns then r column
    else if column ∈ scratchColumns then .null
    else if column = "adjust_flag" then .text adjustFlag
    else if column ∈ priceColumns then adjustedPrice p factor (r column)
    else r column

/-- `calculate_adjusted_daily_bar`. -/
def calculateAdjustedDailyBar (unadjusted factors : Frame) (dataset adjustFlag : String) :
    Except StoreError Frame := do
  let factorColumn ← adjustedFactorColumn dataset
  if unadjusted.rows = [] then .ok unadjusted
  else if "date" ∉ unadjusted.columns ∨ "code" ∉ unadjusted.columns then .error .other
  else do
    let values ← factorValues p factors factorColumn
    .ok {
      columns := unadjusted.columns.filter fun column => column ∉ scratchColumns
      dtype := adjustedDtype unadjusted.columns unadjusted.dtype
      rows := List.zipWith (adjustedRow p unadjusted.columns adjustFlag) unadjusted.rows
        (adjFactors p e values unadjusted.rows) }

end Steps

/-! The factor of a row -/

section Factors

variable {p : Pandas} {e : SortEnv} {values : List FactorValue} {rows : List Row}

/-- The factor that the join has for a row. -/
def workFactor (e : SortEnv) (values : List FactorValue) (row : WorkRow) : ℚ :=
  match row.dateKey with
  | none => 1
  | some date => ((lastSat (fun v => decide (FactorValue.date v ≤ date))
      (codeFactors e values row.codeKey)).map FactorValue.value).getD 1

def rowFactor (p : Pandas) (e : SortEnv) (values : List FactorValue) (r : Row) : ℚ :=
  workFactor e values ⟨0, codeText p (r "code"), parsedDate p (r "date")⟩

private theorem groupFactors_eq (group : Option String × List WorkRow)
    (hfactors : codeFactors e values group.1 ≠ []) :
    groupFactors e values group = (dailyDates e group.2).map fun daily =>
      (daily.rowOrder, ((lastSat (fun v => decide (FactorValue.date v ≤ daily.dateKey))
        (codeFactors e values group.1)).map FactorValue.value).getD 1) := by
  unfold groupFactors
  simp only
  by_cases hnil : dailyDates e group.2 = []
  · rw [if_pos hnil, hnil, List.map_nil]
  · have hdaily : (dailyDates e group.2).Pairwise fun a b => a.dateKey ≤ b.dateKey :=
      e.dailyDates.sorted _
    have hcode : (codeFactors e values group.1).Pairwise fun a b => a.date ≤ b.date :=
      e.codeFactors.sorted _
    rw [if_neg hnil, if_neg hfactors, mergeAsof_eq hdaily hcode, List.map_map]
    rfl

private theorem groupFactors_eq_nil (group : Option String × List WorkRow)
    (hfactors : codeFactors e values group.1 = []) : groupFactors e values group = [] := by
  unfold groupFactors
  simp only [hfactors, if_true, ite_self]

private theorem mem_dailyDates {group : List WorkRow} {daily : DailyDate} :
    daily ∈ dailyDates e group ↔
      ∃ row ∈ group, row.rowOrder = daily.rowOrder ∧ row.dateKey = some daily.dateKey := by
  unfold dailyDates
  rw [(e.dailyDates.perm _).mem_iff, List.mem_filterMap]
  constructor
  · rintro ⟨row, hrow, hdaily⟩
    obtain ⟨date, hdate, rfl⟩ := Option.map_eq_some_iff.mp hdaily
    exact ⟨row, hrow, rfl, hdate⟩
  · rintro ⟨row, hrow, horder, hdate⟩
    refine ⟨row, hrow, Option.map_eq_some_iff.mpr ⟨daily.dateKey, hdate, ?_⟩⟩
    rw [horder]

/-- What a group writes is right for its rows, and it writes all dated rows of codes with factors. -/
private theorem mem_groupFactors {group : Option String × List WorkRow}
    (hkeys : ∀ row ∈ group.2, row.codeKey = group.1) :
    (∀ w ∈ groupFactors e values group,
        ∃ row ∈ group.2, row.rowOrder = w.1 ∧ w.2 = workFactor e values row) ∧
      ∀ row ∈ group.2, row.rowOrder ∉ (groupFactors e values group).map Prod.fst →
        workFactor e values row = 1 := by
  by_cases hfactors : codeFactors e values group.1 = []
  · rw [groupFactors_eq_nil group hfactors]
    refine ⟨?_, fun row hrow _ => ?_⟩
    · intro w hw
      cases hw
    unfold workFactor
    rw [hkeys row hrow, hfactors]
    cases row.dateKey with
    | none => rfl
    | some date => rfl
  · rw [groupFactors_eq group hfactors]
    constructor
    · intro w hw
      obtain ⟨daily, hdaily, rfl⟩ := List.mem_map.mp hw
      obtain ⟨row, hrow, horder, hdate⟩ := mem_dailyDates.mp hdaily
      refine ⟨row, hrow, horder, ?_⟩
      unfold workFactor
      rw [hdate, hkeys row hrow]
    · intro row hrow hmissing
      cases hdate : row.dateKey with
      | none =>
        unfold workFactor
        rw [hdate]
      | some date =>
        have hdaily : (⟨row.rowOrder, date⟩ : DailyDate) ∈ dailyDates e group.2 :=
          mem_dailyDates.mpr ⟨row, hrow, rfl, hdate⟩
        refine absurd ?_ hmissing
        rw [List.map_map]
        exact List.mem_map.mpr ⟨_, hdaily, rfl⟩

private theorem workRows_getElem? (i : ℕ) : (workRows p rows)[i]? =
    (rows[i]?).map fun r => ⟨i, codeText p (r "code"), parsedDate p (r "date")⟩ := by
  unfold workRows
  rw [List.getElem?_map, List.getElem?_zipIdx]
  cases rows[i]? with
  | none => rfl
  | some r => simp

private theorem mem_workRows {row : WorkRow} (h : row ∈ workRows p rows) :
    (workRows p rows)[row.rowOrder]? = some row := by
  obtain ⟨i, hi⟩ := List.mem_iff_getElem?.mp h
  have hrow := hi
  rw [workRows_getElem?] at hrow
  obtain ⟨r, -, rfl⟩ := Option.map_eq_some_iff.mp hrow
  exact hi

private theorem mem_codeGroups {work : List WorkRow} {group : Option String × List WorkRow}
    (h : group ∈ codeGroups work) : ∀ row ∈ group.2, row ∈ work ∧ row.codeKey = group.1 := by
  have hgroup : (group.1, group.2) ∈ groups WorkRow.codeKey work := (stableSort_perm _ _).mem_iff.mp h
  obtain ⟨-, hrows⟩ := mem_groups.mp hgroup
  intro row hrow
  rw [hrows] at hrow
  obtain ⟨hmem, hkey⟩ := List.mem_filter.mp hrow
  exact ⟨hmem, of_decide_eq_true hkey⟩

private theorem exists_codeGroup {work : List WorkRow} {row : WorkRow} (h : row ∈ work) :
    ∃ group ∈ codeGroups work, row ∈ group.2 := by
  refine ⟨(row.codeKey, work.filter fun other => other.codeKey = row.codeKey), ?_, ?_⟩
  · exact (stableSort_perm _ _).mem_iff.mpr (mem_groups.mpr ⟨List.mem_map_of_mem h, rfl⟩)
  · exact List.mem_filter.mpr ⟨h, by simp⟩

private theorem foldl_writeAll {γ : Type} (writes : γ → List (ℕ × ℚ)) (groups : List γ)
    (column : List ℚ) :
    groups.foldl (fun column group => writeAll (writes group) column) column =
      writeAll (groups.flatMap writes) column := by
  induction groups generalizing column with
  | nil => rfl
  | cons group groups ih =>
    rw [List.foldl_cons, ih, List.flatMap_cons]
    unfold writeAll
    rw [List.foldl_append]

private theorem adjFactors_eq : adjFactors p e values rows = rows.map (rowFactor p e values) := by
  have hlast : ∀ i (r : Row), rows[i]? = some r →
      workFactor e values ⟨i, codeText p (r "code"), parsedDate p (r "date")⟩ =
        rowFactor p e values r := fun _ _ _ => rfl
  unfold adjFactors
  simp only
  by_cases hnil : values = []
  · rw [if_pos hnil, List.map_eq_replicate_iff.mpr]
    intro r _
    have hnone : codeFactors e values (codeText p (r "code")) = [] := by
      rw [hnil]
      exact List.Perm.eq_nil (e.codeFactors.perm _)
    unfold rowFactor workFactor
    cases hdate : parsedDate p (r "date") with
    | none => rfl
    | some date =>
      simp only [hnone]
      rfl
  · rw [if_neg hnil, foldl_writeAll]
    apply List.ext_getElem?
    intro i
    by_cases hi : i < rows.length
    · have hrow : rows[i]? = some rows[i] := List.getElem?_eq_getElem hi
      have hwork : (workRows p rows)[i]? =
          some ⟨i, codeText p (rows[i] "code"), parsedDate p (rows[i] "date")⟩ := by
        rw [workRows_getElem?, hrow]
        rfl
      have hvalue := @getElem?_writeAll ℚ
        (fun i => (((workRows p rows)[i]?).map (workFactor e values)).getD 1)
        ((codeGroups (workRows p rows)).flatMap (groupFactors e values))
        (List.replicate rows.length 1) ?_ i (by rwa [List.length_replicate]) ?_
      · rw [hvalue, hwork, List.getElem?_map, hrow]
        rfl
      · intro w hw
        obtain ⟨group, hgroup, hw⟩ := List.mem_flatMap.mp hw
        have hrows := mem_codeGroups hgroup
        obtain ⟨row, hrow, horder, hfactor⟩ :=
          (mem_groupFactors fun row hrow => (hrows row hrow).2).1 w hw
        rw [← horder, mem_workRows (hrows row hrow).1]
        exact hfactor
      · intro hmissing
        rw [List.getElem?_replicate, if_pos hi, hwork]
        obtain ⟨group, hgroup, hmem⟩ := exists_codeGroup (List.mem_of_getElem? hwork)
        have hone := (@mem_groupFactors e values group
          fun row hrow => (mem_codeGroups hgroup row hrow).2).2 _ hmem ?_
        · exact congrArg some hone.symm
        · intro hwritten
          refine hmissing (List.mem_map.mpr ?_)
          obtain ⟨w, hw, horder⟩ := List.mem_map.mp hwritten
          exact ⟨w, List.mem_flatMap.mpr ⟨group, hgroup, hw⟩, horder⟩
    · rw [List.getElem?_eq_none (by rw [length_writeAll, List.length_replicate]; omega),
        List.getElem?_eq_none (by rw [List.length_map]; omega)]

end Factors

/-! The factor a bar is due -/

/-- The cell under the factor column, missing if the frame has no such column. -/
def factorCell (factors : Frame) (factorColumn : String) (r : Row) : Cell :=
  if factorColumn ∈ factors.columns then r factorColumn else .null

/-- A factor row of the bar's code, with its date and its factor. -/
structure FactorOn (p : Pandas) (factors : Frame) (factorColumn : String) (bar r : Row) (date : Int)
    (value : ℚ) : Prop where
  mem : r ∈ factors.rows
  code : codeText p (r "code") = codeText p (bar "code")
  date : parsedDate p (r "dividend_operate_date") = some date
  value : numericValue p (factorCell factors factorColumn r) = some value

/-- The factor of the bar's code with the greatest date that is not later than the bar's, and 1 if
there is none or the bar has no date. -/
inductive DueFactor (p : Pandas) (factors : Frame) (factorColumn : String) (bar : Row) : ℚ → Prop
  | undated (date : parsedDate p (bar "date") = none) : DueFactor p factors factorColumn bar 1
  | unmatched {barDate : Int} (date : parsedDate p (bar "date") = some barDate)
      (later : ∀ r date value, FactorOn p factors factorColumn bar r date value → barDate < date) :
      DueFactor p factors factorColumn bar 1
  | latest {barDate date : Int} {r : Row} {value : ℚ}
      (barDated : parsedDate p (bar "date") = some barDate)
      (factor : FactorOn p factors factorColumn bar r date value) (notLater : date ≤ barDate)
      (greatest : ∀ r' date' value', FactorOn p factors factorColumn bar r' date' value' →
        date' ≤ barDate → date' ≤ date) :
      DueFactor p factors factorColumn bar value

/-- The code and the date of a factor row, if both are present. -/
def datedCode (p : Pandas) (r : Row) : Option (String × Int) :=
  match codeText p (r "code"), parsedDate p (r "dividend_operate_date") with
  | some code, some date => some (code, date)
  | _, _ => none

section Due

variable {p : Pandas} {e : SortEnv} {factors : Frame} {factorColumn : String}
  {values : List FactorValue} {bar : Row}

private theorem mem_factorValues (h : factorValues p factors factorColumn = .ok values)
    {v : FactorValue} :
    v ∈ values ↔ ∃ r ∈ factors.rows, codeText p (r "code") = some v.code ∧
      parsedDate p (r "dividend_operate_date") = some v.date ∧
      numericValue p (factorCell factors factorColumn r) = some v.value := by
  unfold factorValues at h
  split at h
  case isTrue hnone =>
    obtain rfl := Except.ok.inj h
    refine iff_of_false List.not_mem_nil ?_
    rintro ⟨r, hr, -, -, hvalue⟩
    rcases hnone with hrows | hcolumn
    · rw [hrows] at hr
      cases hr
    · rw [factorCell, if_neg hcolumn] at hvalue
      cases hvalue
  case isFalse hsome =>
    split at h
    case isTrue => cases h
    case isFalse =>
      obtain rfl := Except.ok.inj h
      rw [not_or, not_not] at hsome
      rw [List.mem_filterMap]
      refine exists_congr fun r => and_congr_right fun _ => ?_
      unfold factorValue
      rw [factorCell, if_pos hsome.2]
      constructor
      · intro hv
        split at hv
        case h_1 code date value hcode hdate hvalue =>
          obtain rfl := Option.some.inj hv
          exact ⟨hcode, hdate, hvalue⟩
        case h_2 => cases hv
      · rintro ⟨hcode, hdate, hvalue⟩
        rw [hcode, hdate, hvalue]

private theorem codeText_of_present {c : Cell} (h : c ≠ .null) :
    ∃ code, codeText p c = some code := by
  unfold codeText
  split
  case h_1 => exact absurd rfl h
  case h_2 => exact ⟨_, rfl⟩

private theorem mem_codeFactors (h : factorValues p factors factorColumn = .ok values)
    {code : String}
    (hcode : codeText p (bar "code") = some code) {date : Int} {value : ℚ} :
    (∃ r, FactorOn p factors factorColumn bar r date value) ↔
      ⟨code, date, value⟩ ∈ codeFactors e values (some code) := by
  unfold codeFactors
  rw [(e.codeFactors.perm _).mem_iff, List.mem_filter, mem_factorValues h]
  constructor
  · rintro ⟨r, hr, hrcode, hdate, hvalue⟩
    exact ⟨⟨r, hr, hrcode.trans hcode, hdate, hvalue⟩, by simp⟩
  · rintro ⟨⟨r, hr, hrcode, hdate, hvalue⟩, -⟩
    exact ⟨r, hr, hrcode.trans hcode.symm, hdate, hvalue⟩

private theorem code_of_mem_codeFactors {code : String} {v : FactorValue}
    (hv : v ∈ codeFactors e values (some code)) : v = ⟨code, v.date, v.value⟩ := by
  unfold codeFactors at hv
  have hmem := (List.mem_filter.mp ((e.codeFactors.perm _).mem_iff.mp hv)).2
  have hcode : v.code = code := Option.some.inj (of_decide_eq_true hmem)
  rw [← hcode]

/-- The join gives a bar the factor it is due. -/
private theorem rowFactor_due (h : factorValues p factors factorColumn = .ok values)
    (hpresent : bar "code" ≠ .null) :
    DueFactor p factors factorColumn bar (rowFactor p e values bar) := by
  obtain ⟨code, hcode⟩ := @codeText_of_present p _ hpresent
  unfold rowFactor workFactor
  simp only [hcode]
  cases hbar : parsedDate p (bar "date") with
  | none => exact .undated hbar
  | some barDate =>
    simp only
    have hsorted : (codeFactors e values (some code)).Pairwise fun a b => a.date ≤ b.date :=
      e.codeFactors.sorted _
    cases hlast : lastSat (fun v => decide (FactorValue.date v ≤ barDate))
      (codeFactors e values (some code)) with
    | none =>
      refine .unmatched hbar fun r date value hfactor => ?_
      have hmem := (mem_codeFactors (e := e) h hcode).mp ⟨r, hfactor⟩
      by_contra hnot
      obtain ⟨w, hw⟩ := lastSat_isSome (p := fun v => decide (FactorValue.date v ≤ barDate)) hmem
        (decide_eq_true (not_lt.mp hnot))
      rw [hlast] at hw
      cases hw
    | some v =>
      obtain ⟨hv, hle, hgreatest⟩ := greatest_of_lastSat hsorted hlast
      rw [code_of_mem_codeFactors hv] at hv
      obtain ⟨r, hfactor⟩ := (mem_codeFactors h hcode).mpr hv
      refine .latest hbar hfactor hle fun r' date' value' hfactor' hle' => ?_
      exact hgreatest _ ((mem_codeFactors (e := e) h hcode).mp ⟨r', hfactor'⟩) hle'

private theorem eq_of_nodup_filterMap {α β : Type} {f : α → Option β} {l : List α}
    (hnodup : (l.filterMap f).Nodup) {a a' : α} {b : β} (ha : a ∈ l) (ha' : a' ∈ l)
    (hb : f a = some b) (hb' : f a' = some b) : a = a' := by
  induction l with
  | nil => cases ha
  | cons x l ih =>
    rw [List.filterMap_cons] at hnodup
    have hrest : (l.filterMap f).Nodup := by
      split at hnodup
      case h_1 => exact hnodup
      case h_2 => exact (List.nodup_cons.mp hnodup).2
    rcases List.mem_cons.mp ha with rfl | hmem
    · rcases List.mem_cons.mp ha' with rfl | hmem'
      · rfl
      · rw [hb] at hnodup
        exact absurd (List.mem_filterMap.mpr ⟨a', hmem', hb'⟩) (List.nodup_cons.mp hnodup).1
    · rcases List.mem_cons.mp ha' with rfl | hmem'
      · rw [hb'] at hnodup
        exact absurd (List.mem_filterMap.mpr ⟨a, hmem, hb⟩) (List.nodup_cons.mp hnodup).1
      · exact ih hrest hmem hmem'

/-- With distinct dates for each code a bar is due one factor. -/
theorem DueFactor.unique (hdistinct : (factors.rows.filterMap (datedCode p)).Nodup)
    (hpresent : bar "code" ≠ .null) {x y : ℚ} (hx : DueFactor p factors factorColumn bar x)
    (hy : DueFactor p factors factorColumn bar y) : x = y := by
  obtain ⟨code, hcode⟩ := @codeText_of_present p _ hpresent
  have hdated : ∀ {r date value}, FactorOn p factors factorColumn bar r date value →
      datedCode p r = some (code, date) := by
    intro r date value h
    unfold datedCode
    rw [h.code, hcode, h.date]
  cases hx with
  | undated date =>
    cases hy with
    | undated => rfl
    | unmatched date' => rfl
    | latest date' => cases date.symm.trans date'
  | unmatched date later =>
    cases hy with
    | undated => rfl
    | unmatched => rfl
    | latest date' factor notLater =>
      obtain rfl := Option.some.inj (date.symm.trans date')
      exact absurd (later _ _ _ factor) (not_lt.mpr notLater)
  | latest date factor notLater greatest =>
    cases hy with
    | undated date' => cases date.symm.trans date'
    | unmatched date' later =>
      obtain rfl := Option.some.inj (date.symm.trans date')
      exact absurd (later _ _ _ factor) (not_lt.mpr notLater)
    | latest date' factor' notLater' greatest' =>
      obtain rfl := Option.some.inj (date.symm.trans date')
      obtain rfl := le_antisymm (greatest' _ _ _ factor notLater) (greatest _ _ _ factor' notLater')
      obtain rfl := eq_of_nodup_filterMap hdistinct factor.mem factor'.mem (hdated factor)
        (hdated factor')
      exact Option.some.inj (factor.value.symm.trans factor'.value)

end Due

/-- A bar and its adjusted bar, in the columns of the frame. -/
structure AdjustedBar (p : Pandas) (factors : Frame) (factorColumn adjustFlag : String)
    (columns : List String) (bar out : Row) : Prop where
  prices : ∃ factor, DueFactor p factors factorColumn bar factor ∧
    (∀ other, DueFactor p factors factorColumn bar other → other = factor) ∧
    ∀ column ∈ priceColumns, column ∈ columns → out column = adjustedPrice p factor (bar column)
  flag : "adjust_flag" ∈ columns → out "adjust_flag" = .text adjustFlag
  others : ∀ column ∈ columns, column ∉ priceColumns → column ≠ "adjust_flag" →
    out column = bar column

/-- The calculation returns the same bars in the same order, each with its own factor. -/
theorem calculate_exact (p : Pandas) (e : SortEnv) (unadjusted factors : Frame)
    (dataset adjustFlag factorColumn : String)
    (hdataset : adjustedFactorColumn dataset = .ok factorColumn)
    (hcolumns : "date" ∈ unadjusted.columns ∧ "code" ∈ unadjusted.columns)
    (hfactorColumns : "code" ∈ factors.columns ∧ "dividend_operate_date" ∈ factors.columns ∨
      factors.rows = [])
    (hscratch : ∀ column ∈ scratchColumns, column ∉ unadjusted.columns)
    (hcodes : ∀ bar ∈ unadjusted.rows, bar "code" ≠ .null)
    (hdistinct : (factors.rows.filterMap (datedCode p)).Nodup) :
    ∃ out, calculateAdjustedDailyBar p e unadjusted factors dataset adjustFlag = .ok out ∧
      out.columns = unadjusted.columns ∧
      List.Forall₂ (AdjustedBar p factors factorColumn adjustFlag unadjusted.columns)
        unadjusted.rows out.rows := by
  have hvalues : ∃ values, factorValues p factors factorColumn = .ok values := by
    unfold factorValues
    split
    case isTrue => exact ⟨_, rfl⟩
    case isFalse hsome =>
      rw [not_or] at hsome
      have hneeded := hfactorColumns.resolve_right hsome.1
      rw [if_neg (by simp [hneeded.1, hneeded.2])]
      exact ⟨_, rfl⟩
  obtain ⟨values, hvalues⟩ := hvalues
  unfold calculateAdjustedDailyBar
  rw [hdataset]
  simp only [Bind.bind, Except.bind]
  by_cases hnil : unadjusted.rows = []
  · rw [if_pos hnil]
    refine ⟨unadjusted, rfl, rfl, ?_⟩
    rw [hnil]
    exact .nil
  · rw [if_neg hnil, if_neg (by simp [hcolumns.1, hcolumns.2]), hvalues]
    refine ⟨_, rfl, ?_, ?_⟩
    · refine List.filter_eq_self.mpr fun column hcolumn => decide_eq_true fun hmem => ?_
      exact hscratch column hmem hcolumn
    · simp only
      rw [adjFactors_eq, List.zipWith_map_right, List.zipWith_self, List.forall₂_map_right_iff,
        List.forall₂_same]
      intro bar hbar
      have hdue := @rowFactor_due p e factors factorColumn values bar hvalues (hcodes bar hbar)
      have hkept : ∀ column ∈ unadjusted.columns, column ∉ scratchColumns :=
        fun column hcolumn hmem => hscratch column hmem hcolumn
      refine ⟨⟨_, hdue, fun other hother => hother.unique hdistinct (hcodes bar hbar) hdue, ?_⟩, ?_, ?_⟩
      · intro column hprice hcolumn
        have hflag : column ≠ "adjust_flag" := by
          rintro rfl
          exact absurd hprice (by decide)
        unfold adjustedRow
        rw [if_neg (not_not.mpr hcolumn), if_neg (hkept column hcolumn), if_neg hflag, if_pos hprice]
      · intro hcolumn
        unfold adjustedRow
        rw [if_neg (not_not.mpr hcolumn), if_neg (hkept _ hcolumn), if_pos rfl]
      · intro column hcolumn hprice hflag
        unfold adjustedRow
        rw [if_neg (not_not.mpr hcolumn), if_neg (hkept column hcolumn), if_neg hflag, if_neg hprice]

/-! The calculation of a bar's factor at once -/

section Refinement

variable {p : Pandas} {e : SortEnv} {factors : Frame} {factorColumn : String}
  {values : List FactorValue} {bar : Row}

private theorem adjFactor_due (h : factorValues p factors factorColumn = .ok values)
    (hpresent : bar "code" ≠ .null) : DueFactor p factors factorColumn bar (adjFactor p values bar) := by
  obtain ⟨code, hcode⟩ := @codeText_of_present p _ hpresent
  unfold adjFactor
  rw [hcode]
  cases hbar : parsedDate p (bar "date") with
  | none => exact .undated hbar
  | some barDate =>
    simp only
    have hfactorMem : ∀ {r date value}, FactorOn p factors factorColumn bar r date value →
        date ≤ barDate → (⟨code, date, value⟩ : FactorValue) ∈
          values.filter fun v => decide (v.code = code ∧ v.date ≤ barDate) := by
      intro r date value hfactor hle
      refine List.mem_filter.mpr ⟨(mem_factorValues h).mpr ⟨r, hfactor.mem, ?_⟩, ?_⟩
      · exact ⟨hfactor.code.trans hcode, hfactor.date, hfactor.value⟩
      · exact decide_eq_true ⟨rfl, hle⟩
    cases hmax : @List.argmax _ _ Int.instLinearOrder.toPreorder _ FactorValue.date
      (values.filter fun v => decide (v.code = code ∧ v.date ≤ barDate)) with
    | none =>
      refine .unmatched hbar fun r date value hfactor => ?_
      by_contra hnot
      have hmem := hfactorMem hfactor (not_lt.mp hnot)
      rw [List.argmax_eq_none.mp hmax] at hmem
      cases hmem
    | some v =>
      obtain ⟨hv, hcond⟩ := List.mem_filter.mp (List.argmax_mem hmax)
      obtain ⟨hvcode, hle⟩ := of_decide_eq_true hcond
      obtain ⟨r, hr, hrcode, hdate, hvalue⟩ := (mem_factorValues h).mp hv
      have hfactor : FactorOn p factors factorColumn bar r v.date v.value :=
        ⟨hr, by rw [hrcode, hcode, hvcode], hdate, hvalue⟩
      refine .latest hbar hfactor hle fun r' date' value' hfactor' hle' => ?_
      exact List.le_of_mem_argmax (hfactorMem hfactor' hle') hmax

/-- The join computes the same frame as the search for each bar. -/
theorem calculate_eq_search (unadjusted : Frame) (dataset adjustFlag : String)
    (hscratch : ∀ column ∈ scratchColumns, column ∉ unadjusted.columns)
    (hcodes : ∀ bar ∈ unadjusted.rows, bar "code" ≠ .null)
    (hdistinct : (factors.rows.filterMap (datedCode p)).Nodup) :
    calculateAdjustedDailyBar p e unadjusted factors dataset adjustFlag =
      Sources.calculateAdjustedDailyBar p unadjusted factors dataset adjustFlag := by
  have hcolumns : unadjusted.columns.filter (fun column => column ∉ scratchColumns) =
      unadjusted.columns :=
    List.filter_eq_self.mpr fun column hcolumn =>
      decide_eq_true fun hmem => hscratch column hmem hcolumn
  unfold calculateAdjustedDailyBar Sources.calculateAdjustedDailyBar
  cases adjustedFactorColumn dataset with
  | error err => rfl
  | ok factorColumn =>
    simp only [Bind.bind, Except.bind]
    split
    · rfl
    · split
      · rfl
      · cases hvalues : factorValues p factors factorColumn with
        | error err => rfl
        | ok values =>
          simp only
          rw [hcolumns, adjFactors_eq, List.zipWith_map_right, List.zipWith_self]
          refine congrArg Except.ok (congrArg (Frame.mk _ _) (List.map_congr_left fun bar hbar => ?_))
          have hfactor : rowFactor p e values bar = adjFactor p values bar :=
            (rowFactor_due hvalues (hcodes bar hbar)).unique hdistinct (hcodes bar hbar)
              (adjFactor_due hvalues (hcodes bar hbar))
          funext column
          unfold adjustedRow Sources.adjustedRow
          rw [hfactor]
          by_cases hcolumn : column ∈ unadjusted.columns
          · rw [if_neg fun hmem => hscratch column hmem hcolumn]
          · rw [if_pos hcolumn, if_pos hcolumn]

end Refinement

/-! Bars of two codes, one of them without a date -/

def SortEnv.stable : SortEnv := ⟨.stable _, .stable _⟩

def mixedBars (columns : List String) : Frame where
  columns := ["date", "code", "close", "adjust_flag"] ++ columns
  dtype _ := .object
  rows := [
    rowOf [("date", .date 19725), ("code", .text "sh.600000"), ("close", .real 10)],
    rowOf [("date", .date 19724), ("code", .text "sz.000001"), ("close", .null)],
    rowOf [("code", .text "sh.600000"), ("close", .real 7)],
    rowOf [("date", .date 19723), ("code", .text "sh.600000"), ("close", .real 8)]]

def mixedFactors : Frame where
  columns := ["code", "dividend_operate_date", "forward_adjust_factor"]
  dtype _ := .object
  rows := [
    rowOf [("code", .text "sh.600000"), ("dividend_operate_date", .date 19725),
      ("forward_adjust_factor", .real 2)],
    rowOf [("code", .text "sh.600000"), ("dividend_operate_date", .date 19720),
      ("forward_adjust_factor", .real (1 / 2))]]

def qfqBars (unadjusted : Frame) : Except StoreError Frame :=
  calculateAdjustedDailyBar .plain .stable unadjusted mixedFactors "baostock_cn_stock_daily_bar_qfq" "1"

theorem calculate_exact_mixed : ∃ out, qfqBars (mixedBars []) = .ok out ∧
    out.columns = (mixedBars []).columns ∧
    List.Forall₂ (AdjustedBar .plain mixedFactors "forward_adjust_factor" "1" (mixedBars []).columns)
      (mixedBars []).rows out.rows :=
  calculate_exact .plain .stable (mixedBars []) mixedFactors "baostock_cn_stock_daily_bar_qfq" "1"
    "forward_adjust_factor" rfl (by decide) (Or.inl (by decide)) (by decide) (by decide +kernel)
    (by decide +kernel)

example : (qfqBars (mixedBars [])).toOption.map (fun out => out.rows.map fun r => r "close") =
    some [.real 20, .null, .real 7, .real 4] := by decide +kernel

/-- A column of the frame under a scratch name is dropped. -/
theorem scratch_column_dropped : "_adj_factor" ∈ (mixedBars ["_adj_factor"]).columns ∧
    (qfqBars (mixedBars ["_adj_factor"])).toOption.map Frame.columns =
      some ["date", "code", "close", "adjust_flag"] := by decide +kernel

end QuantDataCenter.Sources.AdjustmentJoin
