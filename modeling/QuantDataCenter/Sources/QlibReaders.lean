import QuantDataCenter.Sources.QlibFeatures

/-!
The plain reader of one Qlib field (`load_qlib_feature_series`) tests every day of a file against
the calendar. The reader of a symbol cuts the files instead and has the same values.
-/

set_option autoImplicit false
set_option relaxedAutoImplicit false

namespace QuantDataCenter.Sources

open QuantDataCenter.Lib.Checked QuantDataCenter.Tabular QuantDataCenter.Storage

/-- The values of a file that lie in a calendar of so many days, with their indexes. -/
def seriesEntries (days : ℕ) : List (Option ℚ) → Except StoreError (List (ℕ × Option ℚ))
  | [] => .ok []
  | none :: _ => .error (.valueError "cannot convert float NaN to integer")
  | some first :: values => .ok (values.zipIdx.filterMap fun (rawValue, offset) =>
      let calendarIndex := truncate first + offset
      if calendarIndex < 0 ∨ (days : ℤ) ≤ calendarIndex then none
      else some (calendarIndex.toNat, rawValue))

/-- A value as it is stored: rounded, and null if it is no number. -/
def valueCell (value : Option ℚ) : Cell := (value.map roundSix).elim .null .real

def seriesRow (calendar : List Int) (entry : ℕ × Option ℚ) : Row :=
  rowOf [("date", (calendar[entry.1]?).elim .null .date), ("value", valueCell entry.2)]

def loadQlibFeatureSeries (read : Except StoreError (List (Option ℚ))) (calendar : List Int) :
    Except StoreError Frame := do
  let values ← read
  let entries ← seriesEntries calendar.length values
  .ok ⟨["date", "value"], fun _ => .object, entries.map (seriesRow calendar)⟩

/-- The entries of a field of a symbol; there are none without a file. -/
def fieldEntries (dir : SymbolDir) (days : ℕ) (field : String) :
    Except StoreError (List (ℕ × Option ℚ)) :=
  match dir.bins field with
  | none => .ok []
  | some read => read.bind (seriesEntries days)

/-- The series of a field of a symbol; it has no rows without a file. -/
def fieldSeries (dir : SymbolDir) (calendar : List Int) (field : String) : Except StoreError Frame :=
  match dir.bins field with
  | none => .ok ⟨["date", "value"], fun _ => .object, []⟩
  | some read => loadQlibFeatureSeries read calendar

/-! One field -/

section Window

variable {days : ℕ} {values : List (Option ℚ)} {entries : List (ℕ × Option ℚ)}

private theorem mem_seriesEntries {first : ℚ} {i : ℕ} {v : Option ℚ}
    (hentries : seriesEntries days (some first :: values) = .ok entries) :
    (i, v) ∈ entries ↔ ∃ k : ℕ, values[k]? = some v ∧ truncate first + k = i ∧ i < days := by
  obtain rfl := Except.ok.inj hentries
  simp only [List.mem_filterMap, Prod.exists, List.mem_zipIdx_iff_getElem?]
  constructor
  · rintro ⟨rawValue, k, hk, hkeep⟩
    split at hkeep
    case isTrue => cases hkeep
    case isFalse hin =>
      obtain ⟨hi, rfl⟩ := Prod.mk.inj (Option.some.inj hkeep)
      exact ⟨k, hk, by omega, by omega⟩
  · rintro ⟨k, hk, hi, hlt⟩
    refine ⟨v, k, hk, ?_⟩
    rw [if_neg (by omega), hi]
    rfl

/-- The window of a file holds the entries of the plain reader. -/
structure WindowOf (days : ℕ) (entries : List (ℕ × Option ℚ)) (window : Option FieldWindow) :
    Prop where
  entry : ∀ i v, (i, v) ∈ entries ↔
    ∃ w ∈ window, w.start ≤ i ∧ w.values[i - w.start]? = some v
  nonempty : ∀ w ∈ window, w.values ≠ []
  within : ∀ w ∈ window, w.start + w.values.length ≤ days

private theorem windowOf_clipped {start : ℤ} (hmem : ∀ i v, (i, v) ∈ entries ↔
    ∃ k : ℕ, values[k]? = some v ∧ start + k = i ∧ i < days) :
    WindowOf days entries
      (if min (start + values.length) days ≤ max start 0 then none
      else some ⟨(max start 0).toNat, (values.drop (max start 0 - start).toNat).take
        (min (start + values.length) days - max start 0).toNat⟩) := by
  by_cases hempty : min (start + values.length) days ≤ max start 0
  · rw [if_pos hempty]
    refine ⟨fun i v => ⟨fun hv => ?_, by simp⟩, by simp, by simp⟩
    obtain ⟨k, hk, hi, hlt⟩ := (hmem i v).mp hv
    have hlength := (List.getElem?_eq_some_iff.mp hk).1
    omega
  · rw [if_neg hempty]
    have hget : ∀ j, ((values.drop (max start 0 - start).toNat).take
        (min (start + values.length) days - max start 0).toNat)[j]? =
          if j < (min (start + values.length) days - max start 0).toNat then
            values[(max start 0 - start).toNat + j]? else none := by
      intro j
      rw [List.getElem?_take, List.getElem?_drop]
    have hlength : ((values.drop (max start 0 - start).toNat).take
        (min (start + values.length) days - max start 0).toNat).length =
          (min (start + values.length) days - max start 0).toNat := by
      rw [List.length_take, List.length_drop]
      omega
    refine ⟨fun i v => ?_, fun w hw => ?_, fun w hw => ?_⟩
    · rw [hmem]
      constructor
      · rintro ⟨k, hk, hi, hlt⟩
        have hk' := (List.getElem?_eq_some_iff.mp hk).1
        refine ⟨_, rfl, by simp only; omega, ?_⟩
        have hoffset : (max start 0 - start).toNat + (i - (max start 0).toNat) = k := by omega
        simp only
        rw [hget, hoffset, if_pos (by omega)]
        exact hk
      · rintro ⟨w, hw, hle, hv⟩
        obtain rfl := Option.some.inj hw
        simp only at hle hv
        rw [hget] at hv
        split at hv
        case isTrue hlt => exact ⟨_, hv, by omega, by omega⟩
        case isFalse => cases hv
    · obtain rfl := Option.some.inj hw
      apply List.ne_nil_of_length_pos
      simp only
      rw [hlength]
      omega
    · obtain rfl := Option.some.inj hw
      simp only
      rw [hlength]
      omega

private theorem fieldWindow_of_entries (hentries : seriesEntries days values = .ok entries) :
    ∃ window, fieldWindow days values = .ok window ∧ WindowOf days entries window := by
  have hnone : ∀ l : List (ℕ × Option ℚ), l = [] → WindowOf days l none := by
    rintro l rfl
    exact ⟨by simp, by simp, by simp⟩
  match values, hentries with
  | [], hentries => exact ⟨none, rfl, hnone _ (Except.ok.inj hentries).symm⟩
  | none :: rest, hentries => cases hentries
  | [some first], hentries => exact ⟨none, rfl, hnone _ (Except.ok.inj hentries).symm⟩
  | some first :: second :: rest, hentries =>
    have hclipped := windowOf_clipped fun i v =>
      @mem_seriesEntries days (second :: rest) entries first i v hentries
    refine ⟨_, ?_, hclipped⟩
    unfold fieldWindow
    simp only
    split
    case isTrue => rfl
    case isFalse => rfl

end Window

/-! The fields of a symbol -/

section Fields

variable {dir : SymbolDir} {days : ℕ} {entries : String → List (ℕ × Option ℚ)}

private theorem loadField_of_entries {field : String} {l : List (ℕ × Option ℚ)}
    (hentries : fieldEntries dir days field = .ok l) :
    ∃ window : Option FieldWindow, loadField dir days field = .ok (window.map fun w => (field, w)) ∧
      WindowOf days l window := by
  unfold fieldEntries at hentries
  unfold loadField
  cases hread : dir.bins field with
  | none =>
    rw [hread] at hentries
    obtain rfl := Except.ok.inj hentries
    exact ⟨none, rfl, by simp, by simp, by simp⟩
  | some read =>
    rw [hread] at hentries
    obtain ⟨values, hvalues, hl⟩ := bind_eq_ok.mp hentries
    obtain ⟨window, hwindow, hof⟩ := fieldWindow_of_entries hl
    exact ⟨window, bind_eq_ok.mpr ⟨values, hvalues, bind_eq_ok.mpr ⟨window, hwindow, rfl⟩⟩, hof⟩

private theorem loadFields {fields : List String}
    (hentries : ∀ field ∈ fields, fieldEntries dir days field = .ok (entries field)) :
    ∃ windows : String → Option FieldWindow,
      fields.mapM (loadField dir days) =
        .ok (fields.map fun field => (windows field).map fun w => (field, w)) ∧
      ∀ field ∈ fields, WindowOf days (entries field) (windows field) := by
  have hwindow : ∀ field, ∃ window : Option FieldWindow, field ∈ fields →
      loadField dir days field = .ok (window.map fun w => (field, w)) ∧
        WindowOf days (entries field) window := by
    intro field
    by_cases hfield : field ∈ fields
    · obtain ⟨window, hload, hof⟩ := loadField_of_entries (hentries field hfield)
      exact ⟨window, fun _ => ⟨hload, hof⟩⟩
    · exact ⟨none, fun h => absurd h hfield⟩
  choose windows hwindows using hwindow
  exact ⟨windows, mapM_eq_ok fun field hfield => (hwindows field hfield).1,
    fun field hfield => (hwindows field hfield).2⟩

private theorem lookup_windows (windows : String → Option FieldWindow) (fields : List String)
    (field : String) :
    ((fields.map fun name => (windows name).map fun w => (name, w)).filterMap id).lookup field =
      if field ∈ fields then windows field else none := by
  induction fields with
  | nil => simp
  | cons name fields ih =>
    rw [List.map_cons]
    by_cases heq : field = name
    · subst heq
      cases hw : windows field with
      | none =>
        rw [hw, ite_self] at ih
        simpa using ih
      | some w => simp
    · have hmem : field ∈ name :: fields ↔ field ∈ fields := by
        simp [heq]
      have hne : (field == name) = false := beq_false_of_ne heq
      simp only [hmem]
      rw [← ih]
      cases hw : windows name with
      | none => simp
      | some w => simp [List.lookup_cons, hne]

private theorem mem_windows {windows : String → Option FieldWindow} {fields : List String}
    {e : String × FieldWindow} :
    e ∈ (fields.map fun name => (windows name).map fun w => (name, w)).filterMap id ↔
      e.1 ∈ fields ∧ windows e.1 = some e.2 := by
  obtain ⟨field, window⟩ := e
  simp only [List.mem_filterMap, List.mem_map, id]
  constructor
  · rintro ⟨_, ⟨name, hname, rfl⟩, hw⟩
    obtain ⟨w, hwindow, heq⟩ := Option.map_eq_some_iff.mp hw
    obtain ⟨rfl, rfl⟩ := Prod.mk.inj heq
    exact ⟨hname, hwindow⟩
  · rintro ⟨hfield, hw⟩
    exact ⟨_, ⟨field, hfield, rfl⟩, by rw [hw]; rfl⟩

theorem WindowOf.index {l : List (ℕ × Option ℚ)} {window : Option FieldWindow}
    (h : WindowOf days l window) (i : ℕ) : (∃ v, (i, v) ∈ l) ↔
      ∃ w ∈ window, w.start ≤ i ∧ i < w.start + w.values.length := by
  simp only [h.entry]
  constructor
  · rintro ⟨v, w, hw, hle, hv⟩
    have hlt := (List.getElem?_eq_some_iff.mp hv).1
    exact ⟨w, hw, hle, by omega⟩
  · rintro ⟨w, hw, hle, hlt⟩
    have hlt' : i - w.start < w.values.length := by omega
    exact ⟨_, w, hw, hle, List.getElem?_eq_getElem hlt'⟩

end Fields

/-! Both readers -/

/-- The row of a day has the entries of the day. -/
structure RowAt (calendar : List Int) (entries : String → List (ℕ × Option ℚ)) (i : ℕ) (r : Row) :
    Prop where
  date : ∃ day, calendar[i]? = some day ∧ r "date" = .date day
  value : ∀ field ∈ qlibFeatureFields, ∀ v, (i, v) ∈ entries field → r field = valueCell v
  absent : ∀ field ∈ qlibFeatureFields, (∀ v, (i, v) ∉ entries field) → r field = .null

/-- The rows of a symbol are those of the days from the first entry of a field to the last one. -/
structure Aligned (calendar : List Int) (entries : String → List (ℕ × Option ℚ)) (rows : List Row)
    (indexes : List ℕ) : Prop where
  ordered : indexes.Pairwise (· < ·)
  covers : ∀ i, i ∈ indexes ↔
    (∃ field ∈ qlibFeatureFields, ∃ e ∈ entries field, e.1 ≤ i) ∧
      ∃ field ∈ qlibFeatureFields, ∃ e ∈ entries field, i ≤ e.1
  rows : List.Forall₂ (RowAt calendar entries) indexes rows

/-- The reader of a symbol has what the series of its fields have: day by day, and by date when no
date comes twice in the calendar. -/
structure ReadersAgree (dir : SymbolDir) (calendar : List Int) (series : String → Frame)
    (frame : Frame) : Prop where
  byIndex : ∃ entries indexes,
    (∀ field ∈ qlibFeatureFields,
      fieldEntries dir calendar.length field = .ok (entries field) ∧
        (series field).rows = (entries field).map (seriesRow calendar)) ∧
    Aligned calendar entries frame.rows indexes
  byDate : calendar.Nodup → ∀ r ∈ frame.rows, ∀ field ∈ qlibFeatureFields,
    (∀ s ∈ (series field).rows, s "date" = r "date" → r field = s "value") ∧
      ((∀ s ∈ (series field).rows, s "date" ≠ r "date") → r field = .null)

section Readers

variable {p : Pandas} {dir : SymbolDir} {calendar : List Int}
  {entries : String → List (ℕ × Option ℚ)} {series : String → Frame}

private theorem featureRow_date (symbol : String) (windows : List (String × FieldWindow)) (i : ℕ) :
    featureRow p symbol calendar windows i "date" = (calendar[i]?).elim .null .date := by
  simp [featureRow]

private theorem featureRow_field (symbol : String) (windows : List (String × FieldWindow)) (i : ℕ)
    {field : String} (hfield : field ∈ qlibFeatureFields) :
    featureRow p symbol calendar windows i field =
      ((windows.lookup field).bind fun w =>
        if w.start ≤ i then w.values[i - w.start]? else none).elim .null valueCell := by
  have hne : field ≠ "date" ∧ field ≠ "qlib_symbol" ∧ field ≠ "exchange" ∧ field ≠ "code" := by
    refine ⟨?_, ?_, ?_, ?_⟩ <;> rintro rfl <;> revert hfield <;> decide
  unfold featureRow
  rw [if_neg hne.1, if_neg hne.2.1, if_neg hne.2.2.1, if_neg hne.2.2.2, if_pos hfield]
  cases windows.lookup field with
  | none => rfl
  | some w =>
    simp only [Option.bind_some]
    by_cases hlt : i < w.start
    · rw [if_pos hlt, if_neg (by omega)]
      rfl
    · rw [if_neg hlt, if_pos (by omega)]
      cases w.values[i - w.start]? with
      | none => rfl
      | some value => cases value <;> rfl

private theorem rowAt_featureRow {symbol : String} {windows : String → Option FieldWindow} {i : ℕ}
    (hwindows : ∀ field ∈ qlibFeatureFields,
      WindowOf calendar.length (entries field) (windows field))
    (hi : i < calendar.length) :
    RowAt calendar entries i (featureRow p symbol calendar
      ((qlibFeatureFields.map fun name => (windows name).map fun w => (name, w)).filterMap id) i) := by
  have hvalue : ∀ field ∈ qlibFeatureFields, featureRow p symbol calendar
      ((qlibFeatureFields.map fun name => (windows name).map fun w => (name, w)).filterMap id) i field =
        ((windows field).bind fun w =>
          if w.start ≤ i then w.values[i - w.start]? else none).elim .null valueCell := by
    intro field hfield
    rw [featureRow_field symbol _ i hfield, lookup_windows, if_pos hfield]
  refine ⟨⟨calendar[i], List.getElem?_eq_getElem hi, ?_⟩, fun field hfield v hv => ?_,
    fun field hfield hnone => ?_⟩
  · rw [featureRow_date, List.getElem?_eq_getElem hi]
    rfl
  · obtain ⟨w, hw, hle, hget⟩ := ((hwindows field hfield).entry i v).mp hv
    rw [hvalue field hfield, hw, Option.bind_some, if_pos hle, hget]
    rfl
  · rw [hvalue field hfield]
    cases hw : windows field with
    | none => rfl
    | some w =>
      rw [Option.bind_some]
      by_cases hle : w.start ≤ i
      · rw [if_pos hle]
        cases hget : w.values[i - w.start]? with
        | none => rfl
        | some v => exact absurd (((hwindows field hfield).entry i v).mpr ⟨w, hw, hle, hget⟩) (hnone v)
      · rw [if_neg hle]
        rfl

/-- The days from the first start of a window to the last end of one. -/
def coveredDays (windows : List (String × FieldWindow)) : List ℕ :=
  match (windows.map fun w => w.2.start).min?,
    (windows.map fun w => w.2.start + w.2.values.length).max? with
  | some first, some last => List.range' first (last - first)
  | _, _ => []

private theorem ordered_coveredDays (windows : List (String × FieldWindow)) :
    (coveredDays windows).Pairwise (· < ·) := by
  unfold coveredDays
  split
  · exact List.pairwise_lt_range'
  · exact List.Pairwise.nil

private theorem mem_coveredDays {windows : List (String × FieldWindow)} {i : ℕ} :
    i ∈ coveredDays windows ↔ (∃ e ∈ windows, e.2.start ≤ i) ∧
      ∃ e ∈ windows, i < e.2.start + e.2.values.length := by
  unfold coveredDays
  split
  case h_1 first last hfirst hlast =>
    obtain ⟨hmem, hleast⟩ := List.min?_eq_some_iff.mp hfirst
    obtain ⟨hmem', hgreatest⟩ := List.max?_eq_some_iff.mp hlast
    rw [List.mem_range'_1]
    constructor
    · rintro ⟨hle, hlt⟩
      obtain ⟨e, he, hstart⟩ := List.mem_map.mp hmem
      obtain ⟨e', he', hend⟩ := List.mem_map.mp hmem'
      exact ⟨⟨e, he, by omega⟩, e', he', by omega⟩
    · rintro ⟨⟨e, he, hle⟩, e', he', hlt⟩
      have hstart := hleast _ (List.mem_map_of_mem he)
      have hend := hgreatest _ (List.mem_map_of_mem he')
      omega
  case h_2 hnone =>
    constructor
    · intro hi
      cases hi
    · rintro ⟨⟨e, he, -⟩, -⟩
      obtain ⟨first, hfirst⟩ := Option.isSome_iff_exists.mp
        (List.isSome_min?_of_mem (List.mem_map_of_mem (f := fun w => w.2.start) he))
      obtain ⟨last, hlast⟩ := Option.isSome_iff_exists.mp (List.isSome_max?_of_mem
        (List.mem_map_of_mem (f := fun w => w.2.start + w.2.values.length) he))
      exact absurd hlast (hnone first last hfirst)

private theorem aligned_features (hentries : ∀ field ∈ qlibFeatureFields,
    fieldEntries dir calendar.length field = .ok (entries field)) :
    ∃ frame indexes, loadQlibSymbolFeatures p dir calendar = .ok frame ∧
      Aligned calendar entries frame.rows indexes := by
  obtain ⟨windows, hload, hwindows⟩ := loadFields hentries
  have hloaded : loadQlibSymbolFeatures p dir calendar = .ok ⟨qlibFeatureColumns, fun _ => .object,
      (coveredDays ((qlibFeatureFields.map fun name =>
        (windows name).map fun w => (name, w)).filterMap id)).map
          (featureRow p (normalizeQlibSymbol p dir.name) calendar ((qlibFeatureFields.map fun name =>
            (windows name).map fun w => (name, w)).filterMap id))⟩ := by
    refine bind_eq_ok.mpr ⟨_, hload, ?_⟩
    unfold coveredDays
    simp only
    generalize (List.map (fun w : String × FieldWindow => w.2.start) _).min? = starts
    generalize (List.map (fun w : String × FieldWindow => w.2.start + w.2.values.length) _).max? = ends
    cases starts <;> cases ends <;> rfl
  have hearlier : ∀ i, (∃ field ∈ qlibFeatureFields, ∃ e ∈ entries field, e.1 ≤ i) ↔
      ∃ field ∈ qlibFeatureFields, ∃ w ∈ windows field, w.start ≤ i := by
    intro i
    constructor
    · rintro ⟨field, hfield, ⟨j, v⟩, he, hle⟩
      obtain ⟨w, hw, hstart, -⟩ := ((hwindows field hfield).index j).mp ⟨v, he⟩
      exact ⟨field, hfield, w, hw, hstart.trans hle⟩
    · rintro ⟨field, hfield, w, hw, hle⟩
      have hpos := List.length_pos_of_ne_nil ((hwindows field hfield).nonempty w hw)
      obtain ⟨v, hv⟩ := ((hwindows field hfield).index w.start).mpr ⟨w, hw, le_rfl, by omega⟩
      exact ⟨field, hfield, _, hv, hle⟩
  have hlater : ∀ i, (∃ field ∈ qlibFeatureFields, ∃ e ∈ entries field, i ≤ e.1) ↔
      ∃ field ∈ qlibFeatureFields, ∃ w ∈ windows field, i < w.start + w.values.length := by
    intro i
    constructor
    · rintro ⟨field, hfield, ⟨j, v⟩, he, hle⟩
      obtain ⟨w, hw, -, hend⟩ := ((hwindows field hfield).index j).mp ⟨v, he⟩
      exact ⟨field, hfield, w, hw, lt_of_le_of_lt hle hend⟩
    · rintro ⟨field, hfield, w, hw, hlt⟩
      have hpos := List.length_pos_of_ne_nil ((hwindows field hfield).nonempty w hw)
      obtain ⟨v, hv⟩ := ((hwindows field hfield).index (w.start + w.values.length - 1)).mpr
        ⟨w, hw, by omega, by omega⟩
      exact ⟨field, hfield, _, hv, by simp only; omega⟩
  have hcovered : ∀ i, i ∈ coveredDays ((qlibFeatureFields.map fun name =>
      (windows name).map fun w => (name, w)).filterMap id) ↔
        (∃ field ∈ qlibFeatureFields, ∃ e ∈ entries field, e.1 ≤ i) ∧
          ∃ field ∈ qlibFeatureFields, ∃ e ∈ entries field, i ≤ e.1 := by
    intro i
    rw [mem_coveredDays, hearlier, hlater]
    simp only [mem_windows, Prod.exists]
    constructor
    · rintro ⟨⟨field, w, ⟨hfield, hw⟩, hle⟩, field', w', ⟨hfield', hw'⟩, hlt⟩
      exact ⟨⟨field, hfield, w, hw, hle⟩, field', hfield', w', hw', hlt⟩
    · rintro ⟨⟨field, hfield, w, hw, hle⟩, field', hfield', w', hw', hlt⟩
      exact ⟨⟨field, w, ⟨hfield, hw⟩, hle⟩, field', w', ⟨hfield', hw'⟩, hlt⟩
  refine ⟨_, _, hloaded, ordered_coveredDays _, hcovered, ?_⟩
  rw [List.forall₂_map_right_iff, List.forall₂_same]
  intro i hi
  obtain ⟨field, hfield, w, hw, hlt⟩ := (hlater i).mp ((hcovered i).mp hi).2
  have hwithin := (hwindows field hfield).within w hw
  exact rowAt_featureRow hwindows (by omega)

private theorem entries_of_series {field : String} {frame : Frame}
    (hseries : fieldSeries dir calendar field = .ok frame) :
    ∃ l, fieldEntries dir calendar.length field = .ok l ∧ frame.rows = l.map (seriesRow calendar) := by
  unfold fieldSeries at hseries
  unfold fieldEntries
  cases hread : dir.bins field with
  | none =>
    rw [hread] at hseries
    obtain rfl := Except.ok.inj hseries
    exact ⟨[], rfl, rfl⟩
  | some read =>
    rw [hread] at hseries
    obtain ⟨values, hvalues, hrest⟩ := bind_eq_ok.mp hseries
    obtain ⟨l, hl, hframe⟩ := bind_eq_ok.mp hrest
    obtain rfl := Except.ok.inj hframe
    exact ⟨l, bind_eq_ok.mpr ⟨values, hvalues, hl⟩, rfl⟩

private theorem entry_in_calendar {days : ℕ} {field : String} {l : List (ℕ × Option ℚ)} {i : ℕ}
    {v : Option ℚ}
    (hentries : fieldEntries dir days field = .ok l) (hv : (i, v) ∈ l) : i < days := by
  obtain ⟨window, -, hof⟩ := loadField_of_entries hentries
  obtain ⟨w, hw, -, hlt⟩ := (hof.index i).mp ⟨v, hv⟩
  have hwithin := hof.within w hw
  omega

private theorem RowAt.byDate {i : ℕ} {r : Row} {field : String} (hfield : field ∈ qlibFeatureFields)
    (hentries : fieldEntries dir calendar.length field = .ok (entries field))
    (hnodup : calendar.Nodup) (hr : RowAt calendar entries i r) :
    (∀ s ∈ (entries field).map (seriesRow calendar), s "date" = r "date" → r field = s "value") ∧
      ((∀ s ∈ (entries field).map (seriesRow calendar), s "date" ≠ r "date") → r field = .null) := by
  obtain ⟨day, hday, hdate⟩ := hr.date
  constructor
  · intro s hs hsame
    obtain ⟨⟨j, v⟩, he, rfl⟩ := List.mem_map.mp hs
    have hj : j < calendar.length := entry_in_calendar hentries he
    have hcell : seriesRow calendar (j, v) "date" = .date calendar[j] := by
      show (calendar[j]?).elim Cell.null Cell.date = _
      rw [List.getElem?_eq_getElem hj]
      rfl
    rw [hcell, hdate] at hsame
    have hget : calendar[j]? = some day := by
      rw [List.getElem?_eq_getElem hj, Cell.date.inj hsame]
    have hji : j = i := (List.getElem?_inj hj hnodup).mp (hget.trans hday.symm)
    rw [hji] at he
    exact hr.value field hfield v he
  · intro hnone
    refine hr.absent field hfield fun v hv => ?_
    refine hnone _ (List.mem_map_of_mem hv) ?_
    show (calendar[i]?).elim Cell.null Cell.date = _
    rw [hday, hdate]
    rfl

/-- Whenever the plain reader reads the fields of a symbol, the reader of symbols agrees with it. -/
theorem qlib_readers_agree
    (hseries : ∀ field ∈ qlibFeatureFields, fieldSeries dir calendar field = .ok (series field)) :
    ∃ frame, loadQlibSymbolFeatures p dir calendar = .ok frame ∧
      ReadersAgree dir calendar series frame := by
  have hentry : ∀ field, ∃ l, field ∈ qlibFeatureFields →
      fieldEntries dir calendar.length field = .ok l ∧
        (series field).rows = l.map (seriesRow calendar) := by
    intro field
    by_cases hfield : field ∈ qlibFeatureFields
    · obtain ⟨l, hl⟩ := entries_of_series (hseries field hfield)
      exact ⟨l, fun _ => hl⟩
    · exact ⟨[], fun h => absurd h hfield⟩
  choose entries hentries using hentry
  obtain ⟨frame, indexes, hframe, haligned⟩ := @aligned_features p dir calendar entries
    fun field hfield => (hentries field hfield).1
  refine ⟨frame, hframe, ⟨entries, indexes, hentries, haligned⟩, fun hnodup r hr field hfield => ?_⟩
  obtain ⟨hload, hrows⟩ := hentries field hfield
  obtain ⟨i, -, hrow⟩ : ∃ i ∈ indexes, RowAt calendar entries i r := by
    obtain ⟨k, hk, rfl⟩ := List.mem_iff_getElem.mp hr
    have hlength := haligned.rows.length_eq
    exact ⟨_, List.getElem_mem (hlength ▸ hk), haligned.rows.get (hlength ▸ hk) hk⟩
  rw [hrows]
  exact hrow.byDate hfield hload hnodup

end Readers

/-- A file that starts before the calendar, one that ends after it, and one without values. -/
def bankDir : SymbolDir where
  name := "sh600000"
  bins field :=
    if field = "open" then some (.ok [some (-1), some 1, none, some 3])
    else if field = "close" then some (.ok [some 1, some 7, some 8])
    else if field = "volume" then some (.ok [some 5])
    else none

def bankSeries (field : String) : Frame :=
  ((fieldSeries bankDir [19723, 19724] field).toOption).getD ⟨[], fun _ => .object, []⟩

theorem qlib_readers_agree_bank : ∃ frame,
    loadQlibSymbolFeatures .plain bankDir [19723, 19724] = .ok frame ∧
      ReadersAgree bankDir [19723, 19724] bankSeries frame := by
  apply qlib_readers_agree
  intro field hfield
  simp only [qlibFeatureFields, List.mem_cons, List.not_mem_nil, or_false] at hfield
  rcases hfield with rfl | rfl | rfl | rfl | rfl | rfl | rfl | rfl | rfl | rfl
  all_goals rfl

end QuantDataCenter.Sources
