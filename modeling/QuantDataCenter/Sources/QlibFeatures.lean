import QuantDataCenter.Sources.SpotQuote

/-!
The features of one Qlib symbol: every field is a binary file with the index of its first
day in front, and the fields are aligned on the days that one of them covers.
-/

set_option autoImplicit false
set_option relaxedAutoImplicit false

namespace QuantDataCenter.Sources

open QuantDataCenter.Lib.Checked QuantDataCenter.Tabular QuantDataCenter.Storage

def qlibFeatureFields : List String :=
  ["open", "high", "low", "close", "volume", "amount", "factor", "change", "vwap", "adjclose"]

/-- A directory below `features`: the values of the `.day.bin` file of a field, if there is one;
a file whose length is no multiple of four raises, and a value that is no number is `none`. -/
structure SymbolDir where
  name : String
  bins : String → Option (Except StoreError (List (Option ℚ)))

/-- What the source directory holds, as it is read. -/
structure QlibSource where
  calendar : Except StoreError (List Int)
  instruments : Except StoreError Frame
  features : Except StoreError (List SymbolDir)

/-- `int` of a float. -/
def truncate (x : ℚ) : Int := if 0 ≤ x then ⌊x⌋ else ⌈x⌉

/-- `np.round(..., 6)`. -/
def roundSix (x : ℚ) : ℚ := (roundHalfEven (x * 1000000) : ℚ) / 1000000

/-- The values of a field from a day of the calendar on. -/
structure FieldWindow where
  start : ℕ
  values : List (Option ℚ)

/-- The part of a file that lies in a calendar of so many days. -/
def fieldWindow (days : ℕ) : List (Option ℚ) → Except StoreError (Option FieldWindow)
  | [] | [_] => .ok none
  | none :: _ => .error (.valueError "cannot convert float NaN to integer")
  | some first :: values =>
    let startIndex := truncate first
    let fieldStart := max startIndex 0
    let fieldEnd := min (startIndex + values.length) days
    if fieldEnd ≤ fieldStart then .ok none
    else .ok (some ⟨fieldStart.toNat,
      (values.drop (fieldStart - startIndex).toNat).take (fieldEnd - fieldStart).toNat⟩)

/-- The field of a directory, if it has days. -/
def loadField (dir : SymbolDir) (days : ℕ) (field : String) :
    Except StoreError (Option (String × FieldWindow)) :=
  match dir.bins field with
  | none => .ok none
  | some read => do
    let values ← read
    let window ← fieldWindow days values
    .ok (window.map fun window => (field, window))

section Symbols

variable (p : Pandas)

def normalizeQlibSymbol (value : String) : String :=
  String.ofList ((p.lower (strip value)).toList.filter fun c => c ≠ '.')

def splitQlibSymbol (symbol : String) : String × String :=
  let normalized := (normalizeQlibSymbol p symbol).toList
  if normalized.length < 3 then ("", String.ofList normalized)
  else (String.ofList (normalized.take 2), String.ofList (normalized.drop 2))

def featureRow (symbol : String) (calendar : List Int) (windows : List (String × FieldWindow))
    (index : ℕ) (column : String) : Cell :=
  if column = "date" then (calendar[index]?).elim .null .date
  else if column = "qlib_symbol" then .text symbol
  else if column = "exchange" then .text (splitQlibSymbol p symbol).1
  else if column = "code" then .text (splitQlibSymbol p symbol).2
  else if column ∈ qlibFeatureFields then
    match windows.lookup column with
    | none => .null
    | some window =>
      if index < window.start then .null
      else match window.values[index - window.start]? with
        | some (some x) => .real (roundSix x)
        | _ => .null
  else .null

def qlibFeatureColumns : List String := ["date", "qlib_symbol", "exchange", "code"] ++ qlibFeatureFields

/-- `load_qlib_symbol_features`. -/
def loadQlibSymbolFeatures (dir : SymbolDir) (calendar : List Int) : Except StoreError Frame := do
  let fields ← qlibFeatureFields.mapM (loadField dir calendar.length)
  let windows := fields.filterMap id
  let starts := windows.map fun w => w.2.start
  let ends := windows.map fun w => w.2.start + w.2.values.length
  .ok ⟨qlibFeatureColumns, fun _ => .object,
    match starts.min?, ends.max? with
    | some first, some last => (List.range' first (last - first)).map
        (featureRow p (normalizeQlibSymbol p dir.name) calendar windows)
    | _, _ => []⟩

variable {p}

/-- A frame of features holds rows of its symbol. -/
structure FeatureFrame (p : Pandas) (dir : SymbolDir) (frame : Frame) : Prop where
  columns : frame.columns = qlibFeatureColumns
  rows : ∀ r ∈ frame.rows, ∃ calendar windows index,
    r = featureRow p (normalizeQlibSymbol p dir.name) calendar windows index

theorem featureFrame_of_load {dir : SymbolDir} {calendar : List Int} {frame : Frame}
    (hload : loadQlibSymbolFeatures p dir calendar = .ok frame) : FeatureFrame p dir frame := by
  obtain ⟨fields, -, hframe⟩ := bind_eq_ok.mp hload
  obtain rfl := Except.ok.inj hframe
  refine ⟨rfl, fun r hr => ?_⟩
  simp only at hr
  split at hr
  · obtain ⟨index, -, rfl⟩ := List.mem_map.mp hr
    exact ⟨calendar, _, index, rfl⟩
  · cases hr

theorem featureRow_symbol (symbol : String) (calendar : List Int)
    (windows : List (String × FieldWindow)) (index : ℕ) :
    featureRow p symbol calendar windows index "qlib_symbol" = .text symbol := by
  simp [featureRow]

private theorem featureRow_accepts (symbol : String) (calendar : List Int)
    (windows : List (String × FieldWindow)) (index : ℕ) :
    (∀ field ∈ qlibCnStockFeaturesDaySchema,
      field.type.accepts (featureRow p symbol calendar windows index field.name) = true) ∧
    ∀ name ∉ fieldNames qlibCnStockFeaturesDaySchema,
      featureRow p symbol calendar windows index name = .null := by
  have hdate : FieldType.date32.accepts (featureRow p symbol calendar windows index "date") = true := by
    unfold featureRow
    rw [if_pos rfl]
    cases calendar[index]? <;> rfl
  have hvalue : ∀ name ∈ qlibFeatureFields,
      FieldType.float64.accepts (featureRow p symbol calendar windows index name) = true := by
    intro name hname
    have hne : name ≠ "date" ∧ name ≠ "qlib_symbol" ∧ name ≠ "exchange" ∧ name ≠ "code" := by
      refine ⟨?_, ?_, ?_, ?_⟩ <;> rintro rfl <;> revert hname <;> decide
    unfold featureRow
    rw [if_neg hne.1, if_neg hne.2.1, if_neg hne.2.2.1, if_neg hne.2.2.2, if_pos hname]
    split
    · rfl
    · split
      · rfl
      · split <;> rfl
  constructor
  · intro field hfield
    simp only [qlibCnStockFeaturesDaySchema, List.mem_cons, List.not_mem_nil, or_false] at hfield
    rcases hfield with rfl | rfl | rfl | rfl | hfield
    · exact hdate
    · rw [featureRow_symbol]
      rfl
    · simp [featureRow, FieldType.accepts]
    · simp [featureRow, FieldType.accepts]
    · rcases hfield with rfl | rfl | rfl | rfl | rfl | rfl | rfl | rfl | rfl | rfl <;>
        exact hvalue _ (by decide)
  · intro name hname
    have hne : name ≠ "date" ∧ name ≠ "qlib_symbol" ∧ name ≠ "exchange" ∧ name ≠ "code" := by
      refine ⟨?_, ?_, ?_, ?_⟩ <;> rintro rfl <;> revert hname <;> decide
    have hfield : name ∉ qlibFeatureFields := by
      intro hmem
      apply hname
      revert hmem
      simp only [qlibFeatureFields, fieldNames, qlibCnStockFeaturesDaySchema, List.map_cons,
        List.map_nil, List.mem_cons, List.not_mem_nil, or_false]
      tauto
    unfold featureRow
    rw [if_neg hne.1, if_neg hne.2.1, if_neg hne.2.2.1, if_neg hne.2.2.2, if_neg hfield]

theorem features_mem : qlibCnStockFeaturesDayDataset ∈ datasetCatalog := by simp [datasetCatalog]

theorem coercedRow_feature {dir : SymbolDir} {frame : Frame} (hframe : FeatureFrame p dir frame)
    {r : Row} (hr : r ∈ frame.rows) : coercedRow p qlibCnStockFeaturesDayDataset frame r = r := by
  obtain ⟨calendar, windows, index, rfl⟩ := hframe.rows r hr
  have wf := wellFormed_of_mem features_mem
  obtain ⟨haccepts, houtside⟩ :=
    @featureRow_accepts p (normalizeQlibSymbol p dir.name) calendar windows index
  funext name
  by_cases hname : name ∈ fieldNames qlibCnStockFeaturesDaySchema
  · obtain ⟨field, hfield, rfl⟩ := List.mem_map.mp hname
    have hne : field.name ≠ "adjustment" := by
      rintro heq
      rw [heq] at hname
      revert hname
      decide
    exact coercedRow_of_accepts wf hframe.columns hfield hne (haccepts field hfield)
  · have hnone : cleanRow p frame qlibCnStockFeaturesDaySchema
        (featureRow p (normalizeQlibSymbol p dir.name) calendar windows index) name = .null := by
      unfold cleanRow
      rw [find_field_none hname]
    rw [houtside name hname, ← hnone]
    unfold coercedRow
    rw [if_neg (by decide)]
    rfl

end Symbols

end QuantDataCenter.Sources
