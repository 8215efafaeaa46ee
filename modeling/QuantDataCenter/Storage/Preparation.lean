import QuantDataCenter.Storage.ParquetStore

/-!
What preparing a frame does to its rows. A row is settled for a dataset when the
preparation leaves it alone; prepared rows are settled, and a frame of settled
rows comes out of the preparation sorted and otherwise unchanged.
-/

set_option autoImplicit false
set_option relaxedAutoImplicit false

namespace QuantDataCenter.Storage

open QuantDataCenter.Lib.Checked QuantDataCenter.Lib.Keyed QuantDataCenter.Tabular
open QuantDataCenter.Quality

theorem validateSchemaMatches_eq_ok {schema : Schema} {p : Pandas} {df : Frame} :
    validateSchemaMatches schema p df = .ok () ↔ df.columns = fieldNames schema ∧
      ∀ field ∈ schema, ∀ r ∈ df.rows, field.type.accepts (r field.name) = true := by
  simp only [validateSchemaMatches, require, bind_eq_ok, ite_eq_ok]
  constructor
  · rintro ⟨u, hcolumns, htypes⟩
    exact ⟨hcolumns, htypes⟩
  · rintro ⟨hcolumns, htypes⟩
    exact ⟨(), hcolumns, htypes⟩

/-- The validator accepts rows that are good one by one and have distinct keys. -/
def OrderFree (d : DatasetDefinition) : Prop :=
  ∀ p, ∃ good : Row → Prop, ∀ df, d.validator p df = .ok () ↔
    df.columns = fieldNames d.schema ∧ (∀ r ∈ df.rows, good r) ∧
      (df.rows.map (rowKey d.uniqueColumns)).Nodup

private theorem validateUniqueColumns_eq_ok {columns : List String} {p : Pandas} {df : Frame} :
    validateUniqueColumns columns p df = .ok () ↔ (df.rows.map (rowKey columns)).Nodup := by
  simp only [validateUniqueColumns, require, ite_eq_ok]

private theorem validateAkshareSixDigitCodes_eq_ok {p : Pandas} {df : Frame}
    (hcode : "code" ∈ df.columns) :
    validateAkshareSixDigitCodes p df = .ok () ↔
      ∀ r ∈ df.rows, isSixDigitCode p (r "code") = true := by
  unfold validateAkshareSixDigitCodes
  split
  case isTrue hnil =>
    rcases hnil with hnil | hnot
    · simp [hnil]
    · exact absurd hcode hnot
  case isFalse => simp only [require, ite_eq_ok]

private theorem orderFree_of_unique {d : DatasetDefinition}
    (hvalidator : ∀ p df, d.validator p df =
      (validateSchemaMatches d.schema p df >>= fun _ =>
        validateUniqueColumns d.uniqueColumns p df)) : OrderFree d := by
  intro p
  refine ⟨fun r => ∀ field ∈ d.schema, field.type.accepts (r field.name) = true, fun df => ?_⟩
  rw [hvalidator, bind_eq_ok]
  constructor
  · rintro ⟨u, hschema, hunique⟩
    obtain ⟨hcolumns, htypes⟩ := validateSchemaMatches_eq_ok.mp hschema
    exact ⟨hcolumns, fun r hr field hf => htypes field hf r hr,
      validateUniqueColumns_eq_ok.mp hunique⟩
  · rintro ⟨hcolumns, htypes, hnodup⟩
    refine ⟨(), validateSchemaMatches_eq_ok.mpr ⟨hcolumns, ?_⟩,
      validateUniqueColumns_eq_ok.mpr hnodup⟩
    exact fun field hf r hr => htypes r hr field hf

private theorem orderFree_of_codes {d : DatasetDefinition} (hcode : "code" ∈ fieldNames d.schema)
    (hvalidator : ∀ p df, d.validator p df =
      (validateSchemaMatches d.schema p df >>= fun _ => validateAkshareSixDigitCodes p df >>=
        fun _ => validateUniqueColumns d.uniqueColumns p df)) : OrderFree d := by
  intro p
  refine ⟨fun r => (∀ field ∈ d.schema, field.type.accepts (r field.name) = true) ∧
    isSixDigitCode p (r "code") = true, fun df => ?_⟩
  rw [hvalidator, bind_eq_ok]
  constructor
  · rintro ⟨u, hschema, hrest⟩
    obtain ⟨u', hcodes, hunique⟩ := bind_eq_ok.mp hrest
    obtain ⟨hcolumns, htypes⟩ := validateSchemaMatches_eq_ok.mp hschema
    have hall := (validateAkshareSixDigitCodes_eq_ok (by rw [hcolumns]; exact hcode)).mp hcodes
    exact ⟨hcolumns, fun r hr => ⟨fun field hf => htypes field hf r hr, hall r hr⟩,
      validateUniqueColumns_eq_ok.mp hunique⟩
  · rintro ⟨hcolumns, hgood, hnodup⟩
    have hcodes : validateAkshareSixDigitCodes p df = .ok () :=
      (validateAkshareSixDigitCodes_eq_ok (by rw [hcolumns]; exact hcode)).mpr
        fun r hr => (hgood r hr).2
    refine ⟨(), validateSchemaMatches_eq_ok.mpr ⟨hcolumns, ?_⟩,
      bind_eq_ok.mpr ⟨(), hcodes, validateUniqueColumns_eq_ok.mpr hnodup⟩⟩
    exact fun field hf r hr => (hgood r hr).1 field hf

private theorem orderFree_of_single {d : DatasetDefinition} (hd : d ∈ datasetCatalog)
    (hsingle : d.sortColumns.length = 1) : OrderFree d := by
  have hfive : d = baostockCnStockBasicDataset ∨ d = baostockCnTradingCalendarDataset ∨
      d = qlibCnCalendarDayDataset ∨ d = akshareSpotQuoteEastmoneyDataset ∨
      d = akshareSpotQuoteSinaDataset := by
    simp only [datasetCatalog, baostockDailyBarDatasetIds, akshareDailyBarAdjustments,
      List.map_cons, List.map_nil, List.cons_append, List.nil_append, List.mem_cons,
      List.not_mem_nil, or_false] at hd
    rcases hd with rfl | rfl | rfl | rfl | rfl | rfl | rfl | rfl | rfl | rfl | rfl | rfl | rfl |
      rfl | rfl | rfl | rfl | rfl | rfl | rfl | rfl | rfl | rfl | rfl | rfl | rfl | rfl <;>
      first
        | exact absurd hsingle (by decide)
        | simp
  rcases hfive with rfl | rfl | rfl | rfl | rfl
  · exact orderFree_of_unique fun _ _ => rfl
  · exact orderFree_of_unique fun _ _ => rfl
  · exact orderFree_of_unique fun _ _ => rfl
  · exact orderFree_of_codes (by decide) fun _ _ => rfl
  · exact orderFree_of_codes (by decide) fun _ _ => rfl

/-- The catalog entries name columns their schema has, and their validator
checks that schema. -/
structure DatasetDefinition.WellFormed (d : DatasetDefinition) : Prop where
  names_nodup : (fieldNames d.schema).Nodup
  sort_ne : d.sortColumns ≠ []
  sort_subset : ∀ c ∈ d.sortColumns, c ∈ fieldNames d.schema
  unique_ne : d.uniqueColumns ≠ []
  unique_subset : ∀ c ∈ d.uniqueColumns, c ∈ fieldNames d.schema
  partition_unique : ∀ c ∈ d.partitionColumn, c ∈ d.uniqueColumns
  partition_type : ∀ c ∈ d.partitionColumn, ⟨c, .string⟩ ∈ d.schema ∨ ⟨c, .date32⟩ ∈ d.schema
  partition_free : ∀ c ∈ d.partitionColumn, c ≠ "adjustment"
  fixed : ∀ e ∈ d.fixedColumnValues,
    e.1 = "adjustment" ∧ e.2 ∈ adjustments ∧ "adjustment" ∈ fieldNames d.schema
  fixed_length : d.fixedColumnValues.length ≤ 1
  validator_schema : ∀ p df, d.validator p df = .ok () →
    validateSchemaMatches d.schema p df = .ok ()
  single_unique : ∀ c ∈ d.uniqueColumns, d.sortColumns.length = 1 →
    c ∈ d.sortColumns ∨ c ∈ d.partitionColumn
  single_free : d.sortColumns.length = 1 → OrderFree d

private theorem schema_of_bind {schema : Schema} {p : Pandas} {df : Frame}
    {rest : Unit → Except StoreError Unit}
    (h : (validateSchemaMatches schema p df >>= rest) = .ok ()) :
    validateSchemaMatches schema p df = .ok () := by
  obtain ⟨u, hu, -⟩ := bind_eq_ok.mp h
  exact hu

private theorem validator_schema_of_mem {d : DatasetDefinition} (hd : d ∈ datasetCatalog)
    (p : Pandas) (df : Frame) (h : d.validator p df = .ok ()) :
    validateSchemaMatches d.schema p df = .ok () := by
  simp only [datasetCatalog, baostockDailyBarDatasetIds, akshareDailyBarAdjustments, List.map_cons,
    List.map_nil, List.cons_append, List.nil_append, List.mem_cons, List.not_mem_nil,
    or_false] at hd
  rcases hd with rfl | rfl | rfl | rfl | rfl | rfl | rfl | rfl | rfl | rfl | rfl | rfl | rfl |
    rfl | rfl | rfl | rfl | rfl | rfl | rfl | rfl | rfl | rfl | rfl | rfl | rfl | rfl <;>
    exact schema_of_bind h

theorem wellFormed_of_mem {d : DatasetDefinition} (hd : d ∈ datasetCatalog) : d.WellFormed where
  names_nodup := by revert d; decide
  sort_ne := by revert d; decide
  sort_subset := by revert d; decide
  unique_ne := by revert d; decide
  unique_subset := by revert d; decide
  partition_unique := by revert d; decide
  partition_type := by revert d; decide
  partition_free := by revert d; decide
  fixed := by revert d; decide
  fixed_length := by revert d; decide
  validator_schema := validator_schema_of_mem hd
  single_unique := by revert d; decide
  single_free := orderFree_of_single hd

/-! Cleaning -/

theorem sourceColumns_of_mem {columns : List String} {name : String} (h : name ∈ columns) :
    sourceColumns columns name = [name] := by
  unfold sourceColumns
  rw [if_pos h]

theorem find_field {schema : Schema} (nodup : (fieldNames schema).Nodup) {field : Field}
    (hf : field ∈ schema) : schema.find? (fun f => f.name == field.name) = some field := by
  induction schema with
  | nil => cases hf
  | cons f schema ih =>
    obtain ⟨hnot, hrest⟩ := List.nodup_cons.mp nodup
    rcases List.mem_cons.mp hf with rfl | hmem
    · simp
    · have hne : f.name ≠ field.name := by
        intro h
        exact hnot (h ▸ List.mem_map_of_mem hmem)
      rw [List.find?_cons_of_neg (by simpa using hne)]
      exact ih hrest hmem

theorem find_field_none {schema : Schema} {name : String} (h : name ∉ fieldNames schema) :
    schema.find? (fun f => f.name == name) = none := by
  rw [List.find?_eq_none]
  intro f hf heq
  have hname : f.name = name := by simpa using heq
  exact h (hname ▸ List.mem_map_of_mem hf)

theorem mapColumn_eq_ok {column : String} {f : Cell → Except StoreError Cell} {df out : Frame} :
    mapColumn column f df = .ok out ↔ (∀ r ∈ df.rows, ∃ c, f (r column) = .ok c) ∧
      out = { df with rows := df.rows.map fun r =>
        Function.update r column ((f (r column)).toOption.getD .null) } := by
  unfold mapColumn
  rw [bind_eq_ok]
  constructor
  · rintro ⟨u, hcheck, hout⟩
    have hall := checkAll_eq_ok.mp hcheck
    exact ⟨fun r hr => errorOf_eq_none.mp (hall r hr), (Except.ok.inj hout).symm⟩
  · rintro ⟨hall, rfl⟩
    exact ⟨(), checkAll_eq_ok.mpr fun r hr => errorOf_eq_none.mpr (hall r hr), rfl⟩

private theorem mapColumn_of_fixed {column : String} {f : Cell → Except StoreError Cell}
    {df : Frame}
    (h : ∀ r ∈ df.rows, f (r column) = .ok (r column)) : mapColumn column f df = .ok df := by
  rw [mapColumn_eq_ok]
  refine ⟨fun r hr => ⟨_, h r hr⟩, ?_⟩
  have hrows : df.rows.map (fun r => Function.update r column
      ((f (r column)).toOption.getD .null)) = df.rows := by
    conv_rhs => rw [← List.map_id df.rows]
    refine List.map_congr_left fun r hr => ?_
    rw [h r hr]
    exact Function.update_eq_self column r
  rw [hrows]

/-- The preparation leaves the row alone: its cells are of the schema's types,
and the adjustment and the fixed columns have their final form. -/
structure Settled (p : Pandas) (d : DatasetDefinition) (r : Row) : Prop where
  accepts : ∀ field ∈ d.schema, field.type.accepts (r field.name) = true
  outside : ∀ name ∉ fieldNames d.schema, r name = .null
  adjustment : "adjustment" ∈ fieldNames d.schema →
    normalizeOptionalAdjustment p (r "adjustment") = .ok (r "adjustment")
  fixed : ∀ e ∈ d.fixedColumnValues, fixedCell p d e.1 e.2 (r e.1) = .ok (r e.1)

/-- `prepare_dataset_frame` without the partition check, the sort and the validator. -/
def coercedFrame (p : Pandas) (d : DatasetDefinition) (df : Frame) : Except StoreError Frame := do
  let cleaned ← cleanDataframeForSchema p df d.schema
  if cleaned.rows = [] then .ok cleaned else applyFixedColumnValues p d cleaned

private theorem applyFixed_of_settled {p : Pandas} {d : DatasetDefinition} {df : Frame}
    (h : ∀ r ∈ df.rows, Settled p d r) : applyFixedColumnValues p d df = .ok df := by
  have hcells : ∀ r ∈ df.rows, ∀ e ∈ d.fixedColumnValues,
      fixedCell p d e.1 e.2 (r e.1) = .ok (r e.1) := fun r hr => (h r hr).fixed
  unfold applyFixedColumnValues
  revert hcells
  generalize d.fixedColumnValues = fixed
  intro hcells
  induction fixed with
  | nil => rfl
  | cons e fixed ih =>
    have hhead : mapColumn e.1 (fixedCell p d e.1 e.2) df = .ok df :=
      mapColumn_of_fixed fun r hr => hcells r hr e List.mem_cons_self
    rw [List.foldlM_cons]
    show (mapColumn e.1 (fixedCell p d e.1 e.2) df >>= _) = _
    rw [hhead]
    exact ih fun r hr e he => hcells r hr e (List.mem_cons_of_mem _ he)

theorem clean_of_settled {p : Pandas} {d : DatasetDefinition} (wf : d.WellFormed) {df : Frame}
    (hcolumns : df.columns = fieldNames d.schema) (h : ∀ r ∈ df.rows, Settled p d r) :
    ∃ dtype, cleanDataframeForSchema p df d.schema =
      .ok ⟨fieldNames d.schema, dtype, df.rows⟩ := by
  have hcell : ∀ field ∈ d.schema, ∀ r ∈ df.rows, cleanCell p df field r = .ok (r field.name) := by
    intro field hf r hr
    have hsource : sourceColumns df.columns field.name = [field.name] := by
      rw [hcolumns]
      exact sourceColumns_of_mem (List.mem_map_of_mem hf)
    simp only [cleanCell, hsource]
    exact coerceCell_of_accepts p _ ((h r hr).accepts field hf)
  have hcheck : checkAll (cleanFieldError p df) d.schema = .ok () := by
    rw [checkAll_eq_ok]
    intro field hf
    have hsource : sourceColumns df.columns field.name = [field.name] := by
      rw [hcolumns]
      exact sourceColumns_of_mem (List.mem_map_of_mem hf)
    simp only [cleanFieldError, hsource]
    rw [List.findSome?_eq_none_iff]
    intro r hr
    rw [hcell field hf r hr]
    rfl
  have hrows : df.rows.map (cleanRow p df d.schema) = df.rows := by
    conv_rhs => rw [← List.map_id df.rows]
    refine List.map_congr_left fun r hr => ?_
    funext name
    by_cases hname : name ∈ fieldNames d.schema
    · obtain ⟨field, hf, rfl⟩ := List.mem_map.mp hname
      simp only [cleanRow, find_field wf.names_nodup hf, hcell field hf r hr]
      rfl
    · simp only [cleanRow, find_field_none hname]
      exact ((h r hr).outside name hname).symm
  unfold cleanDataframeForSchema
  rw [hcheck, hrows]
  simp only [Bind.bind, Except.bind]
  split
  case isTrue hadj =>
    let cleaned : Frame := ⟨fieldNames d.schema, cleanDtype df d.schema, df.rows⟩
    have hsame : mapColumn "adjustment" (normalizeOptionalAdjustment p) cleaned = .ok cleaned :=
      mapColumn_of_fixed fun r hr => (h r hr).adjustment hadj.1
    exact ⟨_, hsame⟩
  case isFalse => exact ⟨_, rfl⟩

theorem coercedFrame_of_settled {p : Pandas} {d : DatasetDefinition} (wf : d.WellFormed)
    {df : Frame} (hcolumns : df.columns = fieldNames d.schema)
    (h : ∀ r ∈ df.rows, Settled p d r) :
    ∃ dtype, coercedFrame p d df = .ok ⟨fieldNames d.schema, dtype, df.rows⟩ := by
  obtain ⟨dtype, hclean⟩ := clean_of_settled wf hcolumns h
  refine ⟨dtype, ?_⟩
  unfold coercedFrame
  rw [hclean]
  simp only [Bind.bind, Except.bind]
  split
  · rfl
  · exact applyFixed_of_settled h

/-! What the preparation leaves behind -/

private theorem adjustments_strip : ∀ s ∈ adjustments, strip s = s := by decide +kernel

private theorem adjustments_ascii :
    ∀ s ∈ adjustments, (s.toList.all fun c => c.toNat < 128) = true := by decide +kernel

private theorem adjustments_lower :
    ∀ s ∈ adjustments, String.ofList (s.toList.map Char.toLower) = s := by decide +kernel

private theorem normalizeAdjustment_of_mem (p : Pandas) {s : String} (hs : s ∈ adjustments) :
    normalizeAdjustment p s = .ok s := by
  have hlower : p.lower s = s := by
    rw [p.lower_ascii (adjustments_ascii s hs)]
    exact adjustments_lower s hs
  have hcases : s = "unadjusted" ∨ s = "qfq" ∨ s = "hfq" := by simpa [adjustments] using hs
  simp only [normalizeAdjustment, adjustments_strip s hs, hlower]
  rcases hcases with rfl | rfl | rfl <;> rfl

private theorem normalizeAdjustment_mem {p : Pandas} {s t : String}
    (h : normalizeAdjustment p s = .ok t) : t ∈ adjustments := by
  simp only [normalizeAdjustment] at h
  split at h
  · rw [← Except.ok.inj h]
    decide
  · split at h
    case isTrue hmem =>
      rw [← Except.ok.inj h]
      simp only [List.mem_cons, List.not_mem_nil, or_false] at hmem
      rcases hmem with h | h <;> rw [h] <;> decide
    case isFalse => cases h

private theorem normalizeOptional_present (p : Pandas) {c : Cell} (hc : c ≠ .null) :
    normalizeOptionalAdjustment p c = (normalizeAdjustment p (p.str c)).map .text := by
  cases c with
  | null => exact absurd rfl hc
  | _ => simp only [normalizeOptionalAdjustment]

theorem normalizeOptional_text_of_mem {p : Pandas} {s : String} (hs : s ∈ adjustments) :
    normalizeOptionalAdjustment p (.text s) = .ok (.text s) := by
  rw [normalizeOptional_present p (by simp)]
  exact map_eq_ok.mpr ⟨s, normalizeAdjustment_of_mem p hs, rfl⟩

private theorem normalizeOptional_idem {p : Pandas} {c c' : Cell}
    (h : normalizeOptionalAdjustment p c = .ok c') :
    normalizeOptionalAdjustment p c' = .ok c' := by
  by_cases hc : c = .null
  · rw [hc] at h
    cases h
    rfl
  · rw [normalizeOptional_present p hc] at h
    obtain ⟨s, hs, rfl⟩ := map_eq_ok.mp h
    exact normalizeOptional_text_of_mem (normalizeAdjustment_mem hs)

theorem fixedCell_eq {p : Pandas} {d : DatasetDefinition} {column expected : String}
    {c c' : Cell} (h : fixedCell p d column expected c = .ok c') : c' = .text expected := by
  simp only [fixedCell] at h
  repeat' split at h
  all_goals simp_all

private theorem fixedCell_self (p : Pandas) (d : DatasetDefinition) (column : String)
    {expected : String}
    (he : expected ∈ adjustments) :
    fixedCell p d column expected (.text expected) = .ok (.text expected) := by
  simp [fixedCell, strippedText, Pandas.str, adjustments_strip expected he]

/-- A row that the preparation has been over, its types not yet checked. -/
structure Coerced (p : Pandas) (d : DatasetDefinition) (r : Row) : Prop where
  outside : ∀ name ∉ fieldNames d.schema, r name = .null
  adjustment : "adjustment" ∈ fieldNames d.schema →
    normalizeOptionalAdjustment p (r "adjustment") = .ok (r "adjustment")
  fixed : ∀ e ∈ d.fixedColumnValues, fixedCell p d e.1 e.2 (r e.1) = .ok (r e.1)

private theorem mem_mapColumn {column : String} {f : Cell → Except StoreError Cell} {df out : Frame}
    (h : mapColumn column f df = .ok out) {r' : Row} (hr : r' ∈ out.rows) :
    ∃ r ∈ df.rows, ∃ c, f (r column) = .ok c ∧ r' = Function.update r column c := by
  obtain ⟨hall, rfl⟩ := mapColumn_eq_ok.mp h
  obtain ⟨r, hmem, rfl⟩ := List.mem_map.mp hr
  obtain ⟨c, hc⟩ := hall r hmem
  refine ⟨r, hmem, c, hc, ?_⟩
  simp only [hc, Except.toOption, Option.getD_some]

private theorem mapColumn_columns {column : String} {f : Cell → Except StoreError Cell}
    {df out : Frame}
    (h : mapColumn column f df = .ok out) : out.columns = df.columns := by
  obtain ⟨-, rfl⟩ := mapColumn_eq_ok.mp h
  rfl

private theorem clean_rows {p : Pandas} {d : DatasetDefinition} {df out : Frame}
    (h : cleanDataframeForSchema p df d.schema = .ok out) :
    out.columns = fieldNames d.schema ∧ ∀ r ∈ out.rows,
      (∀ name ∉ fieldNames d.schema, r name = .null) ∧
      ("adjustment" ∈ fieldNames d.schema →
        normalizeOptionalAdjustment p (r "adjustment") = .ok (r "adjustment")) := by
  unfold cleanDataframeForSchema at h
  obtain ⟨u, -, hrest⟩ := bind_eq_ok.mp h
  have houtside : ∀ r ∈ df.rows.map (cleanRow p df d.schema),
      ∀ name ∉ fieldNames d.schema, r name = .null := by
    intro r hr name hname
    obtain ⟨r0, -, rfl⟩ := List.mem_map.mp hr
    simp only [cleanRow, find_field_none hname]
  simp only at hrest
  split at hrest
  case isTrue hadj =>
    refine ⟨mapColumn_columns hrest, fun r' hr' => ?_⟩
    obtain ⟨r, hr, c, hc, rfl⟩ := mem_mapColumn hrest hr'
    constructor
    · intro name hname
      have hne : name ≠ "adjustment" := fun heq => hname (heq ▸ hadj.1)
      rw [Function.update_of_ne hne]
      exact houtside r hr name hname
    · intro _
      rw [Function.update_self]
      exact normalizeOptional_idem hc
  case isFalse hadj =>
    obtain rfl := Except.ok.inj hrest
    refine ⟨rfl, fun r hr => ⟨houtside r hr, fun hmem => ?_⟩⟩
    exact absurd ⟨hmem, List.ne_nil_of_mem hr⟩ hadj

theorem coercedFrame_coerced {p : Pandas} {d : DatasetDefinition} (wf : d.WellFormed)
    {df out : Frame} (h : coercedFrame p d df = .ok out) :
    out.columns = fieldNames d.schema ∧ ∀ r ∈ out.rows, Coerced p d r := by
  unfold coercedFrame at h
  obtain ⟨cleaned, hclean, hrest⟩ := bind_eq_ok.mp h
  obtain ⟨hcolumns, hrows⟩ := clean_rows hclean
  split at hrest
  case isTrue hnil =>
    obtain rfl := Except.ok.inj hrest
    refine ⟨hcolumns, fun r hr => ?_⟩
    rw [hnil] at hr
    cases hr
  case isFalse =>
    unfold applyFixedColumnValues at hrest
    rcases hfixed : d.fixedColumnValues with _ | ⟨e, fixed⟩
    · rw [hfixed] at hrest
      obtain rfl := Except.ok.inj hrest
      refine ⟨hcolumns, fun r hr => ⟨(hrows r hr).1, (hrows r hr).2, ?_⟩⟩
      simp [hfixed]
    · have hone : fixed = [] := by
        have hlen := wf.fixed_length
        rw [hfixed, List.length_cons] at hlen
        exact List.length_eq_zero_iff.mp (by omega)
      rw [hfixed, hone, List.foldlM_cons] at hrest
      obtain ⟨out', hmap, hout⟩ := bind_eq_ok.mp hrest
      obtain rfl := Except.ok.inj hout
      obtain ⟨hcolumn, hexpected, hin⟩ := wf.fixed e (by rw [hfixed]; exact List.mem_cons_self)
      refine ⟨(mapColumn_columns hmap).trans hcolumns, fun r' hr' => ?_⟩
      obtain ⟨r, hr, c, hc, rfl⟩ := mem_mapColumn hmap hr'
      have htext : c = .text e.2 := fixedCell_eq hc
      refine ⟨fun name hname => ?_, fun _ => ?_, fun e' he' => ?_⟩
      · have hne : name ≠ e.1 := fun heq => hname (by rw [heq, hcolumn]; exact hin)
        rw [Function.update_of_ne hne]
        exact (hrows r hr).1 name hname
      · rw [← hcolumn, Function.update_self, htext]
        exact normalizeOptional_text_of_mem hexpected
      · have heq : e' = e := by
          rw [hfixed, hone] at he'
          exact List.mem_singleton.mp he'
        rw [heq, Function.update_self, htext]
        exact fixedCell_self p d e.1 hexpected

private theorem applyFixed_rows_ne {p : Pandas} {d : DatasetDefinition} {df out : Frame}
    (h : applyFixedColumnValues p d df = .ok out) (hne : df.rows ≠ []) : out.rows ≠ [] := by
  unfold applyFixedColumnValues at h
  revert df
  induction d.fixedColumnValues with
  | nil =>
    intro df h hne
    obtain rfl := Except.ok.inj h
    exact hne
  | cons e fixed ih =>
    intro df h hne
    rw [List.foldlM_cons] at h
    obtain ⟨mid, hmap, hrest⟩ := bind_eq_ok.mp h
    obtain ⟨-, rfl⟩ := mapColumn_eq_ok.mp hmap
    exact ih hrest (by simpa using hne)

/-- `coercedFrame` row by row. -/
def coercedRow (p : Pandas) (d : DatasetDefinition) (df : Frame) (r : Row) : Row :=
  let cleaned := cleanRow p df d.schema r
  let normalized := if "adjustment" ∈ fieldNames d.schema then
    Function.update cleaned "adjustment"
      ((normalizeOptionalAdjustment p (cleaned "adjustment")).toOption.getD .null)
    else cleaned
  d.fixedColumnValues.foldl (fun r e =>
    Function.update r e.1 ((fixedCell p d e.1 e.2 (r e.1)).toOption.getD .null)) normalized

private theorem applyFixed_rows {p : Pandas} {d : DatasetDefinition} {df out : Frame}
    (h : applyFixedColumnValues p d df = .ok out) :
    out.rows = df.rows.map fun r => d.fixedColumnValues.foldl (fun r e =>
      Function.update r e.1 ((fixedCell p d e.1 e.2 (r e.1)).toOption.getD .null)) r := by
  unfold applyFixedColumnValues at h
  revert h
  generalize d.fixedColumnValues = fixed
  intro h
  induction fixed generalizing df with
  | nil =>
    rw [← Except.ok.inj h]
    simp
  | cons e fixed ih =>
    rw [List.foldlM_cons] at h
    obtain ⟨next, hnext, hrest⟩ := bind_eq_ok.mp h
    obtain ⟨-, rfl⟩ := mapColumn_eq_ok.mp hnext
    rw [ih hrest, List.map_map]
    rfl

theorem coercedFrame_rows {p : Pandas} {d : DatasetDefinition} {df out : Frame}
    (h : coercedFrame p d df = .ok out) : out.rows = df.rows.map (coercedRow p d df) := by
  unfold coercedFrame at h
  obtain ⟨cleaned, hclean, hrest⟩ := bind_eq_ok.mp h
  have hcleaned : cleaned.rows = df.rows.map fun r =>
      if "adjustment" ∈ fieldNames d.schema then
        Function.update (cleanRow p df d.schema r) "adjustment"
          ((normalizeOptionalAdjustment p (cleanRow p df d.schema r "adjustment")).toOption.getD .null)
      else cleanRow p df d.schema r := by
    unfold cleanDataframeForSchema at hclean
    obtain ⟨u, -, hout⟩ := bind_eq_ok.mp hclean
    simp only at hout
    split at hout
    case isTrue hadj =>
      obtain ⟨-, rfl⟩ := mapColumn_eq_ok.mp hout
      simp only [if_pos hadj.1, List.map_map, Function.comp_def]
    case isFalse hadj =>
      rw [← Except.ok.inj hout]
      by_cases hnil : df.rows = []
      · simp [hnil]
      · have hno : "adjustment" ∉ fieldNames d.schema :=
          fun hmem => hadj ⟨hmem, by simpa using hnil⟩
        simp only [if_neg hno]
  split at hrest
  case isTrue hnil =>
    rw [← Except.ok.inj hrest, hnil]
    rw [hcleaned, List.map_eq_nil_iff] at hnil
    rw [hnil, List.map_nil]
  case isFalse =>
    rw [applyFixed_rows hrest, hcleaned, List.map_map]
    rfl

theorem coercedRow_of_ne {p : Pandas} {d : DatasetDefinition} (wf : d.WellFormed) {df : Frame}
    {r : Row} {name : String} (hname : name ≠ "adjustment") :
    coercedRow p d df r name = cleanRow p df d.schema r name := by
  have hfixed : ∀ (fixed : List (String × String)) (row : Row),
      (∀ e ∈ fixed, e.1 = "adjustment") →
      fixed.foldl (fun r e => Function.update r e.1
        ((fixedCell p d e.1 e.2 (r e.1)).toOption.getD .null)) row name = row name := by
    intro fixed
    induction fixed with
    | nil => exact fun _ _ => rfl
    | cons e fixed ih =>
      intro row hcolumns
      have hne : name ≠ e.1 := by
        rw [hcolumns e List.mem_cons_self]
        exact hname
      rw [List.foldl_cons, ih _ fun e' he' => hcolumns e' (List.mem_cons_of_mem _ he'),
        Function.update_of_ne hne]
  unfold coercedRow
  rw [hfixed _ _ fun e he => (wf.fixed e he).1]
  split
  · exact Function.update_of_ne hname ..
  · rfl

theorem coercedRow_cell {p : Pandas} {d : DatasetDefinition} (wf : d.WellFormed) {df : Frame}
    {field : Field} (hfield : field ∈ d.schema) (hname : field.name ≠ "adjustment")
    (hcolumn : field.name ∈ df.columns) (r : Row) :
    coercedRow p d df r field.name =
      (coerceCell p (df.dtype field.name) field.type (r field.name)).toOption.getD .null := by
  rw [coercedRow_of_ne wf hname]
  simp only [cleanRow, find_field wf.names_nodup hfield, cleanCell, sourceColumns_of_mem hcolumn]

theorem coercedRow_of_accepts {p : Pandas} {d : DatasetDefinition} (wf : d.WellFormed) {df : Frame}
    (hcolumns : df.columns = fieldNames d.schema) {field : Field} (hfield : field ∈ d.schema)
    (hname : field.name ≠ "adjustment") {r : Row}
    (haccepts : field.type.accepts (r field.name) = true) :
    coercedRow p d df r field.name = r field.name := by
  have hcolumn : field.name ∈ df.columns := by
    rw [hcolumns]
    exact List.mem_map_of_mem hfield
  rw [coercedRow_cell wf hfield hname hcolumn, coerceCell_of_accepts p _ haccepts]
  rfl

/-! Preparation as a whole -/

/-- The row lies in the partition: its partition column reads as the value. -/
def InPartition (p : Pandas) (d : DatasetDefinition) (value : String) (r : Row) : Prop :=
  ∀ c ∈ d.partitionColumn, r c ≠ .null ∧ p.str (r c) = value

theorem sortValues_perm (env : WriteEnv) (columns : List String) (rows : List Row) :
    (sortValues env columns rows).Perm rows := by
  unfold sortValues
  split
  · exact (env.sortValues _).perm rows
  · exact stableSort_perm _ rows

theorem sortValues_several {columns : List String} (hseveral : columns.length ≠ 1)
    (env : WriteEnv) (rows : List Row) :
    sortValues env columns rows = stableSort (sortKey columns) rows := by
  unfold sortValues
  split
  case h_1 c => exact absurd rfl hseveral
  case h_2 => rfl

private theorem sortDatasetFrame_eq {env : WriteEnv} {d : DatasetDefinition} (wf : d.WellFormed)
    {df : Frame} (hcolumns : df.columns = fieldNames d.schema) :
    sortDatasetFrame env d df = { df with rows := sortValues env d.sortColumns df.rows } := by
  have hsort : d.sortColumns.filter (fun column => column ∈ df.columns) = d.sortColumns := by
    rw [List.filter_eq_self]
    intro c hc
    rw [hcolumns]
    exact decide_eq_true (wf.sort_subset c hc)
  simp only [sortDatasetFrame, hsort]
  split
  case isTrue hnil =>
    rcases hnil with hnil | hnil
    · have hperm := sortValues_perm env d.sortColumns df.rows
      rw [hnil] at hperm
      rw [hnil, hperm.eq_nil]
      cases df
      simp_all
    · exact absurd hnil wf.sort_ne
  case isFalse => rfl

private theorem deduplicateDatasetFrame_eq {d : DatasetDefinition} (wf : d.WellFormed)
    (df : Frame) :
    deduplicateDatasetFrame d df =
      { df with rows := keepLast (rowKey d.uniqueColumns) df.rows } := by
  unfold deduplicateDatasetFrame
  split
  case isTrue hnil =>
    rcases hnil with hnil | hnil
    · cases df
      simp_all [keepLast]
    · exact absurd hnil wf.unique_ne
  case isFalse => rfl

theorem prepareUnvalidated_eq_ok {p : Pandas} {env : WriteEnv} {d : DatasetDefinition}
    (wf : d.WellFormed) {df out : Frame} {partition : Partition} :
    prepareUnvalidated p env d df partition = .ok out ↔
      ∃ fixed, coercedFrame p d df = .ok fixed ∧
        (fixed.rows ≠ [] → checkPartition p d fixed partition = .ok ()) ∧
        out = { fixed with rows := sortValues env d.sortColumns fixed.rows } := by
  unfold prepareUnvalidated coercedFrame
  simp only [bind_eq_ok]
  constructor
  · rintro ⟨cleaned, hclean, hrest⟩
    split at hrest
    case isTrue hnil =>
      obtain rfl := Except.ok.inj hrest
      refine ⟨cleaned, ⟨cleaned, hclean, by rw [if_pos hnil]⟩, fun h => absurd hnil h, ?_⟩
      rw [← sortDatasetFrame_eq wf (clean_rows hclean).1]
      simp [sortDatasetFrame, hnil]
    case isFalse hne =>
      obtain ⟨fixed, hfixed, hrest⟩ := bind_eq_ok.mp hrest
      obtain ⟨u, hcheck, hout⟩ := bind_eq_ok.mp hrest
      have hcoerced : coercedFrame p d df = .ok fixed := by
        unfold coercedFrame
        exact bind_eq_ok.mpr ⟨cleaned, hclean, by rw [if_neg hne]; exact hfixed⟩
      refine ⟨fixed, ⟨cleaned, hclean, by rw [if_neg hne]; exact hfixed⟩, fun _ => hcheck, ?_⟩
      rw [← Except.ok.inj hout, sortDatasetFrame_eq wf (coercedFrame_coerced wf hcoerced).1]
  · rintro ⟨fixed, ⟨cleaned, hclean, hfixed⟩, hcheck, rfl⟩
    refine ⟨cleaned, hclean, ?_⟩
    have hcoerced : coercedFrame p d df = .ok fixed := by
      unfold coercedFrame
      exact bind_eq_ok.mpr ⟨cleaned, hclean, hfixed⟩
    have hsorted : sortDatasetFrame env d fixed = _ := sortDatasetFrame_eq wf (coercedFrame_coerced wf hcoerced).1
    split at hfixed
    case isTrue hnil =>
      obtain rfl := Except.ok.inj hfixed
      rw [if_pos hnil, ← hsorted]
      simp [sortDatasetFrame, hnil]
    case isFalse hne =>
      rw [if_neg hne]
      refine bind_eq_ok.mpr ⟨fixed, hfixed, ?_⟩
      by_cases hrows : fixed.rows = []
      · exact absurd hrows (applyFixed_rows_ne hfixed hne)
      · exact bind_eq_ok.mpr ⟨(), hcheck hrows, by rw [hsorted]⟩

private theorem settled_of_validated {p : Pandas} {d : DatasetDefinition} (wf : d.WellFormed)
    {df : Frame}
    (hcoerced : ∀ r ∈ df.rows, Coerced p d r) (hvalid : d.validator p df = .ok ()) :
    ∀ r ∈ df.rows, Settled p d r := by
  intro r hr
  obtain ⟨-, htypes⟩ := validateSchemaMatches_eq_ok.mp (wf.validator_schema p df hvalid)
  have hc := hcoerced r hr
  exact ⟨fun field hf => htypes field hf r hr, hc.outside, hc.adjustment, hc.fixed⟩

private theorem requirePartitionValue_eq_ok {p : Pandas} {df : Frame}
    {column expected context : String} :
    requirePartitionValue p df column expected context = .ok () ↔
      ∀ r ∈ df.rows, r column ≠ .null ∧ p.str (r column) = expected := by
  unfold requirePartitionValue
  split
  case isTrue hnil => simp [hnil]
  case isFalse =>
    split
    case isTrue hnull =>
      obtain ⟨r, hr, hrn⟩ := hnull
      constructor
      · intro h
        cases h
      · intro h
        exact absurd hrn (h r hr).1
    case isFalse hpresent =>
      push Not at hpresent
      split
      case isTrue heq => simpa using fun r hr => ⟨hpresent r hr, heq r hr⟩
      case isFalse hneq =>
        constructor
        · intro h
          cases h
        · intro h
          exact absurd (fun r hr => (h r hr).2) hneq

theorem checkPartition_eq_ok {p : Pandas} {d : DatasetDefinition} {df : Frame}
    {partition : Partition} {value : String}
    (hvalue : partitionValue p d partition = .ok value) :
    checkPartition p d df partition = .ok () ↔ ∀ r ∈ df.rows, InPartition p d value r := by
  unfold checkPartition
  cases hcolumn : d.partitionColumn with
  | none => simp [InPartition, hcolumn]
  | some column =>
    cases hpartition : partition with
    | none =>
      rw [hpartition] at hvalue
      simp [partitionValue, hcolumn] at hvalue
    | some fields =>
      rw [hpartition] at hvalue
      simp only [hvalue, Bind.bind, Except.bind, requirePartitionValue_eq_ok, InPartition,
        hcolumn, Option.mem_def, Option.some.injEq, forall_eq']

theorem prepareDatasetFrame_rows {p : Pandas} {env : WriteEnv} {d : DatasetDefinition}
    (wf : d.WellFormed) {df out : Frame} {partition : Partition}
    (h : prepareDatasetFrame p env d df partition true = .ok out) :
    ∃ fixed, coercedFrame p d df = .ok fixed ∧
      (fixed.rows ≠ [] → checkPartition p d fixed partition = .ok ()) ∧
      out = { fixed with rows := sortValues env d.sortColumns fixed.rows } ∧
      d.validator p out = .ok () ∧ out.columns = fieldNames d.schema ∧
      ∀ r ∈ out.rows, Settled p d r := by
  unfold prepareDatasetFrame at h
  obtain ⟨cleaned, hprepare, hrest⟩ := bind_eq_ok.mp h
  obtain ⟨u, hvalid, hout⟩ := bind_eq_ok.mp hrest
  obtain rfl := Except.ok.inj hout
  obtain ⟨fixed, hfixed, hcheck, hsorted⟩ := (prepareUnvalidated_eq_ok wf).mp hprepare
  obtain ⟨hcolumns, hcoerced⟩ := coercedFrame_coerced wf hfixed
  have hrows : ∀ r ∈ cleaned.rows, Coerced p d r := by
    intro r hr
    rw [hsorted] at hr
    exact hcoerced r ((sortValues_perm env _ _).mem_iff.mp hr)
  refine ⟨fixed, hfixed, hcheck, hsorted, hvalid, ?_, settled_of_validated wf hrows hvalid⟩
  rw [hsorted]
  exact hcolumns

/-- The rows a merge or an upsert puts in place of the stored and the incoming ones. -/
def combinedRows (env : WriteEnv) (d : DatasetDefinition) (existing incoming : List Row) :
    List Row :=
  sortValues env d.sortColumns
    (keepLast (rowKey d.uniqueColumns) (sortValues env d.sortColumns (existing ++ incoming)))

/-- On settled rows of one partition only the validator can refuse the combination. -/
theorem combineFrames_eq {p : Pandas} {env : WriteEnv} {d : DatasetDefinition}
    (wf : d.WellFormed) {existing incoming : Frame} {partition : Partition} {value : String}
    (hvalue : partitionValue p d partition = .ok value)
    (hcolumns : existing.columns = fieldNames d.schema)
    (hcolumns' : incoming.columns = fieldNames d.schema)
    (hsettled : ∀ r ∈ existing.rows ++ incoming.rows, Settled p d r ∧ InPartition p d value r) :
    ∃ dtype, combineFrames p env d existing incoming partition = (do
      d.validator p ⟨fieldNames d.schema, dtype, combinedRows env d existing.rows incoming.rows⟩
      .ok ⟨fieldNames d.schema, dtype, combinedRows env d existing.rows incoming.rows⟩) := by
  have hconcat : (concat p existing incoming).columns = fieldNames d.schema := by
    have hnone : (fieldNames d.schema).filter (fun c => c ∉ fieldNames d.schema) = [] := by
      rw [List.filter_eq_nil_iff]
      intro c hc
      simp [hc]
    simp only [concat, hcolumns, hcolumns', hnone, List.append_nil]
  obtain ⟨dtype, hcoerced⟩ := coercedFrame_of_settled wf hconcat fun r hr => (hsettled r hr).1
  refine ⟨dtype, ?_⟩
  have hprepare : prepareUnvalidated p env d (concat p existing incoming) partition = .ok _ :=
    (prepareUnvalidated_eq_ok wf).mpr ⟨_, hcoerced, fun _ =>
      (checkPartition_eq_ok hvalue).mpr fun r hr => (hsettled r hr).2, rfl⟩
  unfold combineFrames
  rw [hprepare]
  simp only [Bind.bind, Except.bind]
  rw [deduplicateDatasetFrame_eq wf, sortDatasetFrame_eq wf rfl]
  rfl

end QuantDataCenter.Storage
