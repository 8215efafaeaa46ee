import QuantDataCenter.Derived.ResearchRows
import QuantDataCenter.Sources.TradingCalendar
import QuantDataCenter.Sources.Adjustments

/-!
The frame functions of the daily pipelines (`pipeline/common.py`, `update_daily_frames.py`):
the merge of bars by code and day, the replacement of a range of days, and the comparison of
two frames over a window.
-/

set_option autoImplicit false
set_option relaxedAutoImplicit false

namespace QuantDataCenter.Sources

open QuantDataCenter.Lib.Checked QuantDataCenter.Lib.Keyed QuantDataCenter.Tabular
open QuantDataCenter.Quality QuantDataCenter.Storage

section Frames

variable (p : Pandas)

/-- The code and the day by which `merge_daily_frames` tells bars apart. -/
def frameKey (r : Row) : Cell × Option Int := (r "code", normalizedDay p (r "date"))

/-- `merge_daily_frames`; the days of cleaned bars are dates. -/
def mergeDailyFrames (existing fresh : Frame) : Except StoreError Frame := do
  let existingClean ← cleanDataframeForSchema p existing dailyBarSchema
  let freshClean ← cleanDataframeForSchema p fresh dailyBarSchema
  let combined := concat p existingClean freshClean
  .ok { combined with
    rows := stableSort (sortKey ["code", "date"]) (keepLast (frameKey p) combined.rows) }

/-- The moment of the bar lies in the window; a missing one lies in no window. -/
def inWindow (startTs endTs : Int) (r : Row) : Bool :=
  match parsedDate p (r "date") with
  | some ts => decide (startTs ≤ ts ∧ ts ≤ endTs)
  | none => false

/-- `_has_data_in_range`. -/
def hasDataInRange (df : Frame) (startTs endTs : Int) : Except StoreError Bool :=
  if df.rows = [] then .ok false
  else if "date" ∉ df.columns then .error .other
  else .ok (df.rows.any (inWindow p startTs endTs))

/-- A code under `fillna("")`, with the day: the index of a window. -/
def windowKey (r : Row) : String × Option Int :=
  ((codeText p (r "code")).getD "", normalizedDay p (r "date"))

/-- `_daily_window_by_key`, in the order of the frame. -/
def dailyWindowByKey (df : Frame) (startTs endTs : Int) : Except StoreError (List Row) := do
  let clean ← cleanDataframeForSchema p df dailyBarSchema
  .ok (keepLast (windowKey p) (clean.rows.filter (inWindow p startTs endTs)))

def compareColumns : List String :=
  (fieldNames dailyBarSchema).filter fun name => name ∉ ["code", "date"]

/-- The bar has another value in one of the compared columns. -/
def conflicts (existing fresh : Row) : Bool :=
  compareColumns.any fun column => decide (existing column ≠ fresh column)

/-- `daily_frames_differ_on_overlap`. -/
def dailyFramesDifferOnOverlap (existing fresh : Frame) (startTs endTs : Int) :
    Except StoreError Bool := do
  let existingWindow ← dailyWindowByKey p existing startTs endTs
  if existingWindow = [] then .ok false
  else do
    let freshWindow ← dailyWindowByKey p fresh startTs endTs
    let missing := existingWindow.any fun r => windowKey p r ∉ freshWindow.map (windowKey p)
    let changed := existingWindow.any fun r => freshWindow.any fun w =>
      decide (windowKey p w = windowKey p r) && conflicts r w
    .ok (freshWindow = [] || missing || changed)

/-- The moment of the bar lies before the window or after it; a missing one does neither. -/
def outsideWindow (startTs endTs : Int) (r : Row) : Bool :=
  match parsedDate p (r "date") with
  | some ts => decide (ts < startTs ∨ endTs < ts)
  | none => false

/-- `replace_daily_range`. -/
def replaceDailyRange (existing fresh : Frame) (startTs endTs : Int) : Except StoreError Frame := do
  let existingClean ← cleanDataframeForSchema p existing dailyBarSchema
  let kept := existingClean.rows.filter (outsideWindow p startTs endTs)
  mergeDailyFrames p { existingClean with rows := kept } fresh

end Frames

/-! Days of cells -/

section Days

variable {p : Pandas}

theorem parsedDate_date (day : Int) : parsedDate p (.date day) = some (day * nsPerDay) :=
  p.toDatetime_date day

theorem normalizedDay_date (day : Int) : normalizedDay p (.date day) = some day := by
  have hday : day * nsPerDay / nsPerDay = day := Int.mul_ediv_cancel day (by decide)
  change (p.toDatetime (.date day)).map (fun ns => ns / nsPerDay) = some day
  rw [p.toDatetime_date, Option.map_some, hday]

theorem outsideWindow_date {r : Row} {day startDate endDate : Int} (hday : r "date" = .date day) :
    outsideWindow p (startDate * nsPerDay) (endDate * nsPerDay) r = true ↔
      day < startDate ∨ endDate < day := by
  have hpos : 0 < nsPerDay := by decide
  unfold outsideWindow
  rw [hday, parsedDate_date, decide_eq_true_eq]
  exact or_congr (Int.mul_lt_mul_right hpos) (Int.mul_lt_mul_right hpos)

private theorem coerceCell_day {dtype : Dtype} {c : Cell} {day : Int}
    (h : coerceCell p dtype .date32 c = .ok (.date day)) :
    ∃ ts, parsedDate p c = some ts ∧ ts / nsPerDay = day := by
  have hkept : replaceNullLike dtype c = c ∨ replaceNullLike dtype c = .null := by
    unfold replaceNullLike
    split
    · exact (ite_eq_or_eq _ _ _).symm
    · exact (ite_eq_or_eq _ _ _).symm
    · exact Or.inl rfl
  unfold coerceCell at h
  rcases hkept with hkept | hkept
  · simp only [hkept] at h
    cases c with
    | null => cases Except.ok.inj h
    | _ =>
      simp only at h
      split at h
      · cases Except.ok.inj h
      case h_2 ts hts =>
        exact ⟨ts, hts, Cell.date.inj (Except.ok.inj h)⟩
  · simp only [hkept] at h
    cases Except.ok.inj h

private theorem coerceCell_date32_accepts {dtype : Dtype} {c out : Cell}
    (h : coerceCell p dtype .date32 c = .ok out) : FieldType.date32.accepts out = true := by
  unfold coerceCell at h
  simp only at h
  split at h
  case h_1 =>
    obtain rfl := Except.ok.inj h
    rfl
  case h_2 =>
    obtain rfl := Except.ok.inj h
    split
    · rfl
    · rfl

theorem cleanRow_date32_accepts {df : Frame} {column : String} {schema : Schema}
    (hnodup : (fieldNames schema).Nodup) (hfield : ⟨column, .date32⟩ ∈ schema) (r : Row) :
    FieldType.date32.accepts (cleanRow p df schema r column) = true := by
  simp only [cleanRow, find_field hnodup hfield]
  cases hcell : cleanCell p df ⟨column, .date32⟩ r with
  | error e => rfl
  | ok c =>
    unfold cleanCell at hcell
    split at hcell
    case h_1 => exact coerceCell_date32_accepts hcell
    case h_2 => exact coerceCell_date32_accepts hcell
    case h_3 => cases hcell

/-- The moments that a frame has under a column of a schema, or under an alias of it. -/
def DatedIn (p : Pandas) (df : Frame) (column : String) (days : Set Int) : Prop :=
  ∀ source ∈ sourceColumns df.columns column, ∀ r ∈ df.rows, ∀ ts,
    parsedDate p (r source) = some ts → ts / nsPerDay ∈ days

theorem DatedIn.cleanRow {df : Frame} {column : String} {days : Set Int} {schema : Schema}
    (hdated : DatedIn p df column days) (hnodup : (fieldNames schema).Nodup)
    (hfield : ⟨column, .date32⟩ ∈ schema) {r : Row} (hr : r ∈ df.rows) {day : Int}
    (hday : Storage.cleanRow p df schema r column = .date day) : day ∈ days := by
  simp only [Storage.cleanRow, find_field hnodup hfield] at hday
  unfold cleanCell at hday
  split at hday
  case h_1 =>
    have hnull : coerceCell p .object .date32 .null = .ok .null :=
      coerceCell_of_accepts p .object rfl
    rw [hnull] at hday
    cases hday
  case h_2 source hsource =>
    cases hcell : coerceCell p (df.dtype source) .date32 (r source) with
    | error e =>
      rw [hcell] at hday
      cases hday
    | ok c =>
      rw [hcell] at hday
      obtain rfl : c = .date day := hday
      obtain ⟨ts, hts, rfl⟩ := coerceCell_day hcell
      exact hdated source (by rw [hsource]; exact List.mem_singleton_self source) r hr ts hts
  case h_3 => cases hday

end Days

/-! What the frame functions return -/

section Spec

variable {p : Pandas} {existing fresh merged : Frame}

theorem coercedFrame_dailyBar (id : String) (df : Frame) :
    coercedFrame p (dailyBarDataset id) df = cleanDataframeForSchema p df dailyBarSchema := by
  have hschema : (dailyBarDataset id).schema = dailyBarSchema := rfl
  unfold coercedFrame
  rw [hschema]
  cases cleanDataframeForSchema p df dailyBarSchema with
  | error e => rfl
  | ok cleaned =>
    change (if cleaned.rows = [] then Except.ok cleaned else Except.ok cleaned) = Except.ok cleaned
    rw [ite_self]

theorem clean_dailyBar {df cleaned : Frame}
    (h : cleanDataframeForSchema p df dailyBarSchema = .ok cleaned) :
    cleaned.columns = fieldNames dailyBarSchema ∧
      cleaned.rows = df.rows.map (cleanRow p df dailyBarSchema) := by
  unfold cleanDataframeForSchema at h
  obtain ⟨u, -, h⟩ := bind_eq_ok.mp h
  have hno : "adjustment" ∉ fieldNames dailyBarSchema := by decide
  simp only at h
  rw [if_neg fun hadj => hno hadj.1] at h
  obtain rfl := Except.ok.inj h
  exact ⟨rfl, rfl⟩

theorem cleanRow_of_settled {d : DatasetDefinition} (wf : d.WellFormed) {df : Frame}
    (hcolumns : df.columns = fieldNames d.schema) {r : Row} (hr : Settled p d r) :
    cleanRow p df d.schema r = r := by
  funext name
  by_cases hname : name ∈ fieldNames d.schema
  · obtain ⟨field, hfield, rfl⟩ := List.mem_map.mp hname
    have hsource : sourceColumns df.columns field.name = [field.name] := by
      rw [hcolumns]
      exact sourceColumns_of_mem hname
    simp only [cleanRow, find_field wf.names_nodup hfield, cleanCell, hsource,
      coerceCell_of_accepts p _ (hr.accepts field hfield)]
    rfl
  · simp only [cleanRow, find_field_none hname]
    exact (hr.outside name hname).symm

/-- A merge keeps the last bar of each code and day, the fresh one if there is one. -/
theorem mergeDailyFrames_spec (h : mergeDailyFrames p existing fresh = .ok merged) :
    ∃ old new, cleanDataframeForSchema p existing dailyBarSchema = .ok old ∧
      cleanDataframeForSchema p fresh dailyBarSchema = .ok new ∧
      merged.columns = fieldNames dailyBarSchema ∧
      merged.rows = stableSort (sortKey ["code", "date"])
        (keepLast (frameKey p) (old.rows ++ new.rows)) := by
  obtain ⟨old, hold, h⟩ := bind_eq_ok.mp h
  obtain ⟨new, hnew, h⟩ := bind_eq_ok.mp h
  obtain rfl := Except.ok.inj h
  refine ⟨old, new, hold, hnew, ?_, rfl⟩
  simp only [concat, (clean_dailyBar hold).1, (clean_dailyBar hnew).1]
  decide

theorem mem_of_mem_mergedBars {old new : List Row} {r : Row}
    (hr : r ∈ stableSort (sortKey ["code", "date"]) (keepLast (frameKey p) (old ++ new))) :
    r ∈ old ∨ r ∈ new :=
  List.mem_append.mp ((keepLast_sublist _).subset ((stableSort_perm _ _).mem_iff.mp hr))

theorem mem_mergedBars_of_alone {old new : List Row} (hnodup : (old.map (frameKey p)).Nodup) {r : Row}
    (hr : r ∈ old) (halone : frameKey p r ∉ new.map (frameKey p)) :
    r ∈ stableSort (sortKey ["code", "date"]) (keepLast (frameKey p) (old ++ new)) := by
  rw [(stableSort_perm _ _).mem_iff, mem_keepLast_iff, lastOf_append, lastOf_eq_none.mpr halone]
  exact lastOf_eq_some_of_nodup hnodup hr

theorem dailyBar_mem {id : String} (hid : id ∈ baostockDailyBarDatasetIds) :
    dailyBarDataset id ∈ datasetCatalog :=
  List.mem_append_left _ (List.mem_append_left _ (List.mem_append_left _ (List.mem_map_of_mem hid)))

/-- On cleaned bars a replacement keeps the bars outside the window and adds the fresh ones. -/
theorem replaceDailyRange_spec {startTs endTs : Int} {id : String}
    (hid : id ∈ baostockDailyBarDatasetIds) (hcolumns : existing.columns = fieldNames dailyBarSchema)
    (hsettled : ∀ r ∈ existing.rows, Settled p (dailyBarDataset id) r)
    (h : replaceDailyRange p existing fresh startTs endTs = .ok merged) :
    ∃ new, cleanDataframeForSchema p fresh dailyBarSchema = .ok new ∧
      merged.columns = fieldNames dailyBarSchema ∧
      merged.rows = stableSort (sortKey ["code", "date"]) (keepLast (frameKey p)
        (existing.rows.filter (outsideWindow p startTs endTs) ++ new.rows)) := by
  have wf := wellFormed_of_mem (dailyBar_mem hid)
  obtain ⟨cleaned, hcleaned, h⟩ := bind_eq_ok.mp h
  obtain ⟨dtype, hsame⟩ := clean_of_settled wf hcolumns hsettled
  obtain rfl := Except.ok.inj (hsame.symm.trans hcleaned)
  obtain ⟨old, new, hold, hnew, hmerged, hrows⟩ := mergeDailyFrames_spec h
  -- what is kept is clean already
  have hkept : ∀ r ∈ existing.rows.filter (outsideWindow p startTs endTs),
      Settled p (dailyBarDataset id) r := fun r hr => hsettled r (List.mem_filter.mp hr).1
  obtain ⟨dtype', hagain⟩ := @clean_of_settled p _ wf ⟨fieldNames dailyBarSchema, dtype,
    existing.rows.filter (outsideWindow p startTs endTs)⟩ rfl hkept
  obtain rfl := Except.ok.inj (hagain.symm.trans hold)
  exact ⟨new, hnew, hmerged, hrows⟩

end Spec

end QuantDataCenter.Sources
