import QuantDataCenter.Derived.ResearchRows
import QuantDataCenter.Derived.StockValuation

/-!
The rows of the canonical frames. The bars of a security have one row for each date and
adjustment of its sources, taken from Baostock where Baostock has one; its valuations have one row
for each date of theirs.
-/

set_option autoImplicit false
set_option relaxedAutoImplicit false

namespace QuantDataCenter.Derived

open QuantDataCenter.Lib QuantDataCenter.Lib.Checked QuantDataCenter.Lib.Keyed
open QuantDataCenter.Tabular QuantDataCenter.Quality QuantDataCenter.Storage
open QuantDataCenter.Derived.Research

/-! Accepted partitions -/

/-- A file that the validator of its dataset accepts, with adjustments that a read can normalise. -/
structure AcceptedFile (p : Pandas) (d : DatasetDefinition) (rows : List Row) : Prop where
  valid : d.validator p (fileFrame p d.schema rows) = .ok ()
  adjustments : "adjustment" ∈ fieldNames d.schema →
    ∀ r ∈ rows, ∃ c, normalizeOptionalAdjustment p (r "adjustment") = .ok c

/-- What a read returns for the rows of a file. -/
structure ReadBack (schema : Schema) (rows : List Row) (df : Frame) : Prop where
  columns : df.columns = fieldNames schema
  integers : df.rows ≠ [] → ∀ field ∈ schema, field.type = .int64 → df.dtype field.name = .integer
  rows : ∃ back : Row → Row, df.rows = rows.map back ∧
    ∀ r ∈ rows, ∀ name ∈ fieldNames schema, name ≠ "adjustment" → back r name = r name

section Reading

variable {p : Pandas}

theorem clean_of_cells {schema : Schema} (hnames : (fieldNames schema).Nodup) {df : Frame}
    {clean : Row → Row}
    (hcolumns : (∀ field ∈ schema, field.name ∈ df.columns) ∨ df.rows = [] ∧ df.columns = [])
    (hcells : ∀ r ∈ df.rows, ∀ field ∈ schema,
      coerceCell p (df.dtype field.name) field.type (r field.name) = .ok (clean r field.name))
    (hadjustments : "adjustment" ∈ fieldNames schema →
      ∀ r ∈ df.rows, ∃ c, normalizeOptionalAdjustment p (clean r "adjustment") = .ok c) :
    ∃ out, cleanDataframeForSchema p df schema = .ok out ∧ out.columns = fieldNames schema ∧
      out.dtype = cleanDtype df schema ∧ ∃ back : Row → Row, out.rows = df.rows.map back ∧
        ∀ r ∈ df.rows, ∀ name ∈ fieldNames schema,
          (name ≠ "adjustment" → back r name = clean r name) ∧
          (name = "adjustment" →
            normalizeOptionalAdjustment p (clean r name) = .ok (back r name)) := by
  have hcell : ∀ r ∈ df.rows, ∀ field ∈ schema,
      cleanCell p df field r = .ok (clean r field.name) := by
    intro r hr field hfield
    rcases hcolumns with hall | ⟨hnil, -⟩
    · simp only [cleanCell, sourceColumns_of_mem (hall field hfield)]
      exact hcells r hr field hfield
    · rw [hnil] at hr
      cases hr
  have hcheck : checkAll (cleanFieldError p df) schema = .ok () := by
    rw [checkAll_eq_ok]
    intro field hfield
    have hnone : (df.rows.findSome? fun r => errorOf (cleanCell p df field r)) = none := by
      rw [List.findSome?_eq_none_iff]
      intro r hr
      rw [hcell r hr field hfield]
      rfl
    rcases hcolumns with hall | ⟨-, hnil⟩
    · simp only [cleanFieldError, sourceColumns_of_mem (hall field hfield)]
      exact hnone
    · have hsource : sourceColumns df.columns field.name = [] := by simp [sourceColumns, hnil]
      simp only [cleanFieldError, hsource]
      exact hnone
  have hrow : ∀ r ∈ df.rows, ∀ name ∈ fieldNames schema,
      cleanRow p df schema r name = clean r name := by
    intro r hr name hname
    obtain ⟨field, hfield, rfl⟩ := List.mem_map.mp hname
    simp only [cleanRow, find_field hnames hfield, hcell r hr field hfield]
    rfl
  unfold cleanDataframeForSchema
  rw [hcheck]
  simp only [Bind.bind, Except.bind]
  split
  case isTrue hadjustment =>
    have hnormalized : ∀ r ∈ df.rows.map (cleanRow p df schema),
        ∃ c, normalizeOptionalAdjustment p (r "adjustment") = .ok c := by
      intro r hr
      obtain ⟨source, hsource, rfl⟩ := List.mem_map.mp hr
      rw [hrow source hsource _ hadjustment.1]
      exact hadjustments hadjustment.1 source hsource
    refine ⟨_, mapColumn_eq_ok.mpr ⟨hnormalized, rfl⟩, rfl, rfl, _, List.map_map, ?_⟩
    intro r hr name hname
    refine ⟨fun hne => ?_, fun heq => ?_⟩
    · simp only [Function.comp_apply, Function.update_of_ne hne]
      exact hrow r hr name hname
    · obtain ⟨c, hc⟩ := hadjustments hadjustment.1 r hr
      rw [heq]
      simp only [Function.comp_apply, Function.update_self, hrow r hr _ hadjustment.1, hc]
      rfl
  case isFalse hadjustment =>
    refine ⟨_, rfl, rfl, rfl, cleanRow p df schema, rfl, fun r hr name hname => ?_⟩
    refine ⟨fun _ => hrow r hr name hname, fun heq => ?_⟩
    have hrows : df.rows.map (cleanRow p df schema) ≠ [] :=
      List.ne_nil_of_mem (List.mem_map_of_mem hr)
    exact absurd ⟨heq ▸ hname, hrows⟩ hadjustment

private theorem clean_readBack {schema : Schema} (hnames : (fieldNames schema).Nodup) {df : Frame}
    (hcolumns : df.columns = fieldNames schema)
    (htypes : ∀ field ∈ schema, ∀ r ∈ df.rows, field.type.accepts (r field.name) = true)
    (hadjustments : "adjustment" ∈ fieldNames schema →
      ∀ r ∈ df.rows, ∃ c, normalizeOptionalAdjustment p (r "adjustment") = .ok c) :
    ∃ out, cleanDataframeForSchema p df schema = .ok out ∧ ReadBack schema df.rows out := by
  have hall : ∀ field ∈ schema, field.name ∈ df.columns := by
    intro field hfield
    rw [hcolumns]
    exact List.mem_map_of_mem hfield
  obtain ⟨out, hclean, hout, hdtype, back, hrows, hback⟩ := @clean_of_cells p schema hnames df id
    (Or.inl hall) (fun r hr field hfield => coerceCell_of_accepts p _ (htypes field hfield r hr))
    hadjustments
  refine ⟨out, hclean, hout, fun _ field hfield htype => ?_, back, hrows,
    fun r hr name hname hne => (hback r hr name hname).1 hne⟩
  rw [hdtype]
  simp only [cleanDtype, find_field hnames hfield, sourceColumns_of_mem (hall field hfield), htype,
    coerceDtype]

/-- The rows of the partition that a field of the master row points to. -/
def partitionRows (p : Pandas) (st : Store) (security : Row) (field : SourceField) : List Row :=
  if cleanString p (security field.2) = "" then []
  else (st.files field.1 (cleanString p (security field.2))).getD []

/-- The sources of a security can be listed and read, and their validators accept them. -/
structure ValidSources (p : Pandas) (reads : Reads) (st : Store) (security : Row) : Prop where
  listed : ∀ field ∈ sourceFields, ∀ value, (st.files field.1 value).isSome = true →
    value ∈ reads.partitions field.1
  readable : ∀ field ∈ sourceFields, ∀ value, (reads.io field.1 value).readable = true
  accepted : ∀ field ∈ sourceFields, ∀ d, datasetDefinition field.1 = .ok d → ∀ rows,
    st.files field.1 (cleanString p (security field.2)) = some rows → AcceptedFile p d rows

/-- The rows of a source partition are those of an accepted file, if there are any. -/
theorem partitionRows_accepted {reads : Reads} {st : Store} {security : Row} {field : SourceField}
    (hsources : ValidSources p reads st security) (hfield : field ∈ sourceFields)
    {d : DatasetDefinition} (hd : datasetDefinition field.1 = .ok d)
    (hrows : partitionRows p st security field ≠ []) :
    AcceptedFile p d (partitionRows p st security field) := by
  unfold partitionRows at hrows ⊢
  by_cases hcode : cleanString p (security field.2) = ""
  · rw [if_pos hcode] at hrows
    exact absurd rfl hrows
  · rw [if_neg hcode] at hrows ⊢
    cases hfile : st.files field.1 (cleanString p (security field.2)) with
    | none =>
      rw [hfile] at hrows
      exact absurd rfl hrows
    | some rows => exact hsources.accepted field hfield d hd rows hfile

theorem sourceField_definition {field : SourceField} (hfield : field ∈ sourceFields) :
    ∃ d, datasetDefinition field.1 = .ok d ∧ d.partitionColumn = some "code" ∧
      (d.codeFormat = .sixDigit → field.2 = "akshare_code") := by
  simp only [sourceFields, akshareSourceDatasets, baostockSourceDatasets, akshareDailySources,
    baostockDailySources, List.map_cons, List.map_nil, List.cons_append, List.nil_append,
    List.mem_cons, List.not_mem_nil, or_false] at hfield
  rcases hfield with rfl | rfl | rfl | rfl | rfl | rfl | rfl | rfl
  all_goals exact ⟨_, rfl, rfl, by decide⟩

private theorem sourceField_dates {field : SourceField} (hfield : field ∈ sourceFields)
    {d : DatasetDefinition} (hd : datasetDefinition field.1 = .ok d) :
    (⟨"date", .date32⟩ : Field) ∈ d.schema ∧
      ∀ df, d.validator p df = .ok () → validateDateMonotonic p df = .ok () := by
  simp only [sourceFields, akshareSourceDatasets, baostockSourceDatasets, akshareDailySources,
    baostockDailySources, List.map_cons, List.map_nil, List.cons_append, List.nil_append,
    List.mem_cons, List.not_mem_nil, or_false] at hfield
  have hbars : ∀ df, validateDailyBar p df = .ok () → validateDateMonotonic p df = .ok () := by
    intro df hvalid
    obtain ⟨_, -, hvalid⟩ := bind_eq_ok.mp hvalid
    obtain ⟨_, -, hdates⟩ := bind_eq_ok.mp hvalid
    exact hdates
  have hakshare : ∀ df, validateAkshareCnStockDailyBar p df = .ok () →
      validateDateMonotonic p df = .ok () := by
    intro df hvalid
    obtain ⟨_, -, hvalid⟩ := bind_eq_ok.mp hvalid
    obtain ⟨_, -, hvalid⟩ := bind_eq_ok.mp hvalid
    obtain ⟨_, -, hdates⟩ := bind_eq_ok.mp hvalid
    exact hdates
  have hvaluation : ∀ df, validateAkshareCnStockValuationEastmoney p df = .ok () →
      validateDateMonotonic p df = .ok () := by
    intro df hvalid
    obtain ⟨_, -, hvalid⟩ := bind_eq_ok.mp hvalid
    obtain ⟨_, -, hvalid⟩ := bind_eq_ok.mp hvalid
    obtain ⟨_, -, hdates⟩ := bind_eq_ok.mp hvalid
    exact hdates
  have hpercentile : ∀ df, validateBaostockCnStockValuationPercentile p df = .ok () →
      validateDateMonotonic p df = .ok () := by
    intro df hvalid
    obtain ⟨_, -, hvalid⟩ := bind_eq_ok.mp hvalid
    obtain ⟨_, -, hvalid⟩ := bind_eq_ok.mp hvalid
    obtain ⟨_, hdates, -⟩ := bind_eq_ok.mp hvalid
    exact hdates
  rcases hfield with rfl | rfl | rfl | rfl | rfl | rfl | rfl | rfl
  all_goals
    obtain rfl := Except.ok.inj hd
    refine ⟨by decide, ?_⟩
  · exact hakshare
  · exact hakshare
  · exact hakshare
  · exact hvaluation
  · exact hbars
  · exact hbars
  · exact hbars
  · exact hpercentile

theorem partitionRows_dates {reads : Reads} {st : Store} {security : Row} {field : SourceField}
    (hsources : ValidSources p reads st security) (hfield : field ∈ sourceFields) :
    ∀ r ∈ partitionRows p st security field, ∃ day, r "date" = .date day := by
  intro r hr
  obtain ⟨d, hd, -⟩ := sourceField_definition hfield
  obtain ⟨hdate, hmonotonic⟩ := @sourceField_dates p field hfield d hd
  have haccepted := partitionRows_accepted hsources hfield hd (List.ne_nil_of_mem hr)
  have wf : d.WellFormed := wellFormed_of_mem (mem_datasetCatalog hd).1
  have htypes := (validateSchemaMatches_eq_ok.mp (wf.validator_schema p _ haccepted.valid)).2
  exact eq_date_of_accepts (htypes _ hdate r hr)
    (parsed_of_monotonic (hmonotonic _ haccepted.valid) r hr)

theorem readSource {reads : Reads} {st : Store} {security : Row} {field : SourceField}
    (hsources : ValidSources p reads st security) (hfield : field ∈ sourceFields)
    (hcode : cleanString p (security field.2) ≠ "")
    (hdigits : field.2 = "akshare_code" →
      p.sixDigits (cleanString p (security field.2)).toList = true) :
    ∃ d df, datasetDefinition field.1 = .ok d ∧
      readPartitionOrEmptyCached p reads st reads.partitions field.1
        (cleanString p (security field.2)) = .ok df ∧
      ReadBack d.schema (partitionRows p st security field) df := by
  obtain ⟨d, hd, hcolumn, hformat⟩ := sourceField_definition hfield
  have hid : d.id = field.1 := (mem_datasetCatalog hd).2
  have wf : d.WellFormed := wellFormed_of_mem (mem_datasetCatalog hd).1
  have hstrip : strip (cleanString p (security field.2)) = cleanString p (security field.2) :=
    strip_cleanString p _
  have hvalue : partitionValue p d (partitionOf d (cleanString p (security field.2))) =
      .ok (cleanString p (security field.2)) := by
    simp only [partitionValue, partitionOf, hcolumn, Option.map_some, if_true,
      normalizePartitionValue, true_and, aksharePartitionCode, Pandas.str, hstrip, if_neg hcode]
    split
    case isTrue hsix => rw [if_pos (hdigits (hformat hsix))]
    case isFalse => rfl
  unfold partitionRows
  rw [if_neg hcode]
  refine ⟨d, ?_⟩
  unfold readPartitionOrEmptyCached
  rw [hd]
  simp only [Bind.bind, Except.bind, hcolumn]
  cases hfile : st.files field.1 (cleanString p (security field.2)) with
  | none =>
    have hempty : ReadBack d.schema [] (emptyDatasetFrame d) :=
      ⟨rfl, fun hne => absurd rfl hne, id, rfl, fun r hr => by cases hr⟩
    refine ⟨emptyDatasetFrame d, trivial, ?_, hempty⟩
    split
    case isTrue => rfl
    case isFalse =>
      simp only [readPartition, hvalue, Bind.bind, Except.bind, readDataset, hid, hfile]
  | some rows =>
    have hlisted := hsources.listed field hfield _ (Option.isSome_iff_exists.mpr ⟨rows, hfile⟩)
    have haccepted := hsources.accepted field hfield d hd rows hfile
    have htypes := (validateSchemaMatches_eq_ok.mp
      (wf.validator_schema p _ haccepted.valid)).2
    obtain ⟨df, hclean, hback⟩ := @clean_readBack p d.schema wf.names_nodup
      (fileFrame p d.schema rows) rfl htypes haccepted.adjustments
    refine ⟨df, trivial, ?_, hback⟩
    rw [if_neg (not_not.mpr hlisted)]
    simp only [readPartition, hvalue, Bind.bind, Except.bind, readDataset, hid, hfile,
      hsources.readable field hfield, if_true, hclean]

end Reading

/-! Rows of the master -/

private theorem cleanString_eq (p : Pandas) (c : Cell) :
    cleanString p c = (strippedText p c).getD "" := by
  cases c <;> rfl

/-- What the validator of the master tells about a row. -/
structure SecurityRow (p : Pandas) (r : Row) : Prop where
  types : ∀ field ∈ cnSecurityMasterSchema, field.type.accepts (r field.name) = true
  filled : ∀ column ∈ ["security_id", "code", "exchange"], isBlank p (r column) = false
  securityId : ∃ s ∈ strippedText p (r "security_id"), p.canonicalSecurityId s = true
  code : isSixDigitCode p (r "code") = true
  exchange : ∃ s ∈ strippedText p (r "exchange"), s ∈ canonicalExchanges
  composed : strippedText p (r "security_id") =
    (strippedText p (r "exchange")).bind fun exchange =>
      (strippedText p (r "code")).map fun code => exchange ++ "." ++ code
  akshareCode : codeMatches p (fun _ code => some code) "akshare_code" r

theorem securityRow_of_valid {p : Pandas} {df : Frame}
    (hvalid : validateCnSecurityMaster p df = .ok ()) {r : Row} (hr : r ∈ df.rows) :
    SecurityRow p r := by
  have hne : df.rows ≠ [] := List.ne_nil_of_mem hr
  unfold validateCnSecurityMaster at hvalid
  rw [if_neg hne] at hvalid
  obtain ⟨_, hschema, hvalid⟩ := bind_eq_ok.mp hvalid
  obtain ⟨_, -, hvalid⟩ := bind_eq_ok.mp hvalid
  obtain ⟨_, hfilled, hvalid⟩ := bind_eq_ok.mp hvalid
  obtain ⟨_, hcanonical, hvalid⟩ := bind_eq_ok.mp hvalid
  obtain ⟨_, hakshare, -⟩ := bind_eq_ok.mp hvalid
  unfold validateNonEmptyColumns at hfilled
  rw [if_neg hne] at hfilled
  unfold validateCanonicalSecurityIdColumns at hcanonical
  rw [if_neg hne] at hcanonical
  obtain ⟨_, hids, hcanonical⟩ := bind_eq_ok.mp hcanonical
  obtain ⟨_, hcodes, hcanonical⟩ := bind_eq_ok.mp hcanonical
  obtain ⟨_, hexchanges, hcomposed⟩ := bind_eq_ok.mp hcanonical
  refine ⟨fun field hfield => (validateSchemaMatches_eq_ok.mp hschema).2 field hfield r hr, ?_,
    ite_eq_ok.mp hids r hr, ite_eq_ok.mp hcodes r hr, ite_eq_ok.mp hexchanges r hr,
    ite_eq_ok.mp hcomposed r hr, ite_eq_ok.mp hakshare r hr⟩
  intro column hcolumn
  apply ite_eq_ok.mp hfilled column _ r hr
  simp only [List.mem_cons, List.not_mem_nil, or_false] at hcolumn ⊢
  rcases hcolumn with h | h | h
  · exact Or.inl h
  · exact Or.inr (Or.inl h)
  · exact Or.inr (Or.inr (Or.inl h))

theorem SecurityRow.akshare_digits {p : Pandas} {r : Row} (hrow : SecurityRow p r)
    (hcode : cleanString p (r "akshare_code") ≠ "") :
    p.sixDigits (cleanString p (r "akshare_code")).toList = true := by
  rw [cleanString_eq] at hcode ⊢
  have hdigits := hrow.code
  unfold isSixDigitCode at hdigits
  rcases hrow.akshareCode with hblank | hsame
  · unfold isBlank at hblank
    cases htext : strippedText p (r "akshare_code") with
    | none =>
      rw [htext] at hcode
      exact absurd rfl hcode
    | some s =>
      rw [htext] at hblank hcode
      exact absurd (beq_iff_eq.mp hblank) hcode
  · obtain ⟨exchange, hexchange, -⟩ := hrow.exchange
    rw [Option.mem_def.mp hexchange, Option.bind_some] at hsame
    cases htext : strippedText p (r "code") with
    | none =>
      rw [htext] at hdigits
      cases hdigits
    | some s =>
      rw [htext] at hdigits hsame
      rw [hsame]
      exact hdigits

/-! The bars of the sources -/

/-- A frame with the columns of a schema. -/
def columnsOf (schema : Schema) : Frame := ⟨fieldNames schema, fun _ => .object, []⟩

section Bars

variable (p : Pandas) (st : Store) (security : Row) (updatedAt : Int)

/-- The rows of the Baostock partitions, mapped to bars. -/
def baostockBars : List Row :=
  baostockDailySources.flatMap fun source =>
    (partitionRows p st security (source.1, "baostock_code")).map
      (mapBaostockRow security updatedAt (columnsOf dailyBarSchema) source.1 source.2)

/-- The rows of the AkShare partitions, mapped to bars. -/
def akshareBars : List Row :=
  akshareDailySources.flatMap fun source =>
    (partitionRows p st security (source.1, "akshare_code")).map
      (mapAkshareRow p security updatedAt (columnsOf akshareDailyBarSchema) source.1 source.2)

end Bars

/-- The key of a bar among those of its security. -/
def barKey : Row → List Cell := rowKey ["date", "adjustment"]

/-- One row for each date and adjustment of the bars, that of Baostock where it has one. -/
structure PrefersBaostock (rows baostock akshare : List Row) : Prop where
  distinct : (rows.map barKey).Nodup
  covered : ∀ bar ∈ baostock ++ akshare, ∃ r ∈ rows, barKey r = barKey bar
  taken : ∀ r ∈ rows, r ∈ baostock ∨ r ∈ akshare ∧ ∀ bar ∈ baostock, barKey bar ≠ barKey r

structure BarFrame (df : Frame) : Prop where
  columns : df.columns = cnStockDailyBarColumns
  volume : df.rows ≠ [] → df.dtype "volume" = .integer

section Frames

variable {p : Pandas} {reads : Reads} {st : Store} {security : Row} {updatedAt : Int}

private theorem columnOrNone_back {schema : Schema} {df : Frame} {back : Row → Row} {r : Row}
    (hcolumns : df.columns = fieldNames schema)
    (hback : ∀ name ∈ fieldNames schema, name ≠ "adjustment" → back r name = r name)
    {name : String} (hname : name ≠ "adjustment") :
    columnOrNone df name (back r) = columnOrNone (columnsOf schema) name r := by
  have hsame : (columnsOf schema).columns = fieldNames schema := rfl
  unfold columnOrNone
  by_cases hmem : name ∈ fieldNames schema
  · rw [if_pos (hcolumns ▸ hmem), if_pos (hsame ▸ hmem), hback name hmem hname]
  · rw [if_neg (hcolumns ▸ hmem), if_neg (hsame ▸ hmem)]

private theorem mapBaostockDaily_readBack {rows : List Row} {df : Frame}
    (hback : ReadBack dailyBarSchema rows df) (datasetId adjustment : String) :
    BarFrame (mapBaostockDaily security updatedAt df datasetId adjustment) ∧
      (mapBaostockDaily security updatedAt df datasetId adjustment).rows =
        rows.map (mapBaostockRow security updatedAt (columnsOf dailyBarSchema) datasetId adjustment) := by
  have hvolume : (⟨"volume", .int64⟩ : Field) ∈ dailyBarSchema := by decide
  have hmem : "volume" ∈ fieldNames dailyBarSchema := List.mem_map_of_mem hvolume
  have hcolumn : "volume" ∈ copiedColumns ++ baostockColumns := by decide
  refine ⟨⟨rfl, fun hrows => ?_⟩, ?_⟩
  · have hne : df.rows ≠ [] := fun hnil => hrows (by simp [mapBaostockDaily, hnil])
    simp only [mapBaostockDaily, if_neg hne, mappedDtype, if_pos hcolumn, hback.columns]
    rw [if_pos hmem]
    exact hback.integers hne _ hvolume rfl
  · obtain ⟨back, hrows, hcells⟩ := hback.rows
    simp only [mapBaostockDaily, hrows, List.map_map]
    refine List.map_congr_left fun r hr => ?_
    funext column
    simp only [Function.comp_apply, mapBaostockRow]
    by_cases hcopied : column ∈ copiedColumns ++ baostockColumns
    · have hne : column ≠ "adjustment" := by
        rintro rfl
        revert hcopied
        decide
      rw [if_pos hcopied, if_pos hcopied, columnOrNone_back hback.columns (hcells r hr) hne]
    · rw [if_neg hcopied, if_neg hcopied]

private theorem mapAkshareDaily_readBack {rows : List Row} {df : Frame}
    (hback : ReadBack akshareDailyBarSchema rows df) (datasetId adjustment : String) :
    BarFrame (mapAkshareDaily p security updatedAt df datasetId adjustment) ∧
      (mapAkshareDaily p security updatedAt df datasetId adjustment).rows =
        rows.map (mapAkshareRow p security updatedAt (columnsOf akshareDailyBarSchema) datasetId
          adjustment) := by
  have hvolume : (⟨"volume", .int64⟩ : Field) ∈ akshareDailyBarSchema := by decide
  have hmem : "volume" ∈ fieldNames akshareDailyBarSchema := List.mem_map_of_mem hvolume
  have hcolumn : "volume" ∈ copiedColumns := by decide
  refine ⟨⟨rfl, fun hrows => ?_⟩, ?_⟩
  · have hne : df.rows ≠ [] := fun hnil => hrows (by simp [mapAkshareDaily, hnil])
    simp only [mapAkshareDaily, if_neg hne, mappedDtype, if_pos hcolumn, hback.columns]
    rw [if_pos hmem]
    exact hback.integers hne _ hvolume rfl
  · obtain ⟨back, hrows, hcells⟩ := hback.rows
    simp only [mapAkshareDaily, hrows, List.map_map]
    refine List.map_congr_left fun r hr => ?_
    have hcolumnOf : ∀ name, name ≠ "adjustment" →
        columnOrNone df name (back r) = columnOrNone (columnsOf akshareDailyBarSchema) name r :=
      fun name hname => columnOrNone_back hback.columns (hcells r hr) hname
    funext column
    simp only [Function.comp_apply, mapAkshareRow, stringWithDefault,
      hcolumnOf "source_endpoint" (by decide), hcolumnOf "quality_status" (by decide)]
    by_cases hcopied : column ∈ copiedColumns
    · have hne : column ≠ "adjustment" := by
        rintro rfl
        revert hcopied
        decide
      rw [if_pos hcopied, if_pos hcopied, hcolumnOf column hne]
    · rw [if_neg hcopied, if_neg hcopied]

private theorem sourceFrames_rows {codeField : String} {schema : Schema}
    {sources : List (String × String)} {map : Frame → String → String → Frame}
    {mapRow : String → String → Row → Row} (hsources : ValidSources p reads st security)
    (hfields : ∀ source ∈ sources, (source.1, codeField) ∈ sourceFields ∧
      ∀ d, datasetDefinition source.1 = .ok d → d.schema = schema)
    (hdigits : codeField = "akshare_code" → cleanString p (security codeField) ≠ "" →
      p.sixDigits (cleanString p (security codeField)).toList = true)
    (hmap : ∀ rows df id adjustment, ReadBack schema rows df → BarFrame (map df id adjustment) ∧
      (map df id adjustment).rows = rows.map (mapRow id adjustment)) :
    ∃ frames, sourceFrames p reads st reads.partitions (cleanString p (security codeField)) sources
        map = .ok frames ∧ (∀ frame ∈ frames, BarFrame frame) ∧
      frames.flatMap Frame.rows = sources.flatMap fun source =>
        (partitionRows p st security (source.1, codeField)).map (mapRow source.1 source.2) := by
  unfold sourceFrames
  by_cases hcode : cleanString p (security codeField) = ""
  · rw [if_pos hcode]
    refine ⟨[], rfl, ?_, ?_⟩
    · intro frame hframe
      cases hframe
    · simp [partitionRows, hcode]
  · rw [if_neg hcode]
    induction sources with
    | nil => exact ⟨[], rfl, fun frame hframe => (by cases hframe), rfl⟩
    | cons source sources ih =>
      obtain ⟨frames, hframes, hbars, hrows⟩ :=
        ih fun other hother => hfields other (List.mem_cons_of_mem _ hother)
      obtain ⟨hfield, hschema⟩ := hfields source List.mem_cons_self
      obtain ⟨d, df, hd, hread, hback⟩ := readSource hsources hfield hcode
        fun heq => hdigits heq hcode
      rw [hschema d hd] at hback
      obtain ⟨hbar, hmapped⟩ := hmap _ df source.1 source.2 hback
      refine ⟨map df source.1 source.2 :: frames, ?_, ?_, ?_⟩
      · rw [List.mapM_cons]
        refine bind_eq_ok.mpr ⟨_, bind_eq_ok.mpr ⟨df, hread, rfl⟩, ?_⟩
        exact bind_eq_ok.mpr ⟨frames, hframes, rfl⟩
      · intro frame hframe
        rcases List.mem_cons.mp hframe with rfl | hmem
        · exact hbar
        · exact hbars frame hmem
      · rw [List.flatMap_cons, List.flatMap_cons, hmapped, hrows]

/-- Columns of integers stay one when they are put together. -/
def KeepsIntegers (p : Pandas) : Prop := p.concatDtype .integer .integer = .integer

private theorem concatAll_bars (hintegers : KeepsIntegers p) {dfs : List Frame} (hne : dfs ≠ [])
    (hbars : ∀ df ∈ dfs, BarFrame df) (hrows : ∀ df ∈ dfs, df.rows ≠ []) :
    (concatAll p dfs).rows = dfs.flatMap Frame.rows ∧ BarFrame (concatAll p dfs) := by
  induction dfs using concatAll.induct p with
  | case1 => exact absurd rfl hne
  | case2 df =>
    rw [concatAll]
    exact ⟨by simp, hbars df List.mem_cons_self⟩
  | case3 df df' dfs ih =>
    have hfirst := hbars df List.mem_cons_self
    have hsecond := hbars df' (List.mem_cons_of_mem _ List.mem_cons_self)
    have hdf : df.rows ≠ [] := hrows df List.mem_cons_self
    have hdf' : df'.rows ≠ [] := hrows df' (List.mem_cons_of_mem _ List.mem_cons_self)
    have hboth : BarFrame (concat p df df') := by
      constructor
      · simp [concat, hfirst.columns, hsecond.columns]
      · intro _
        simp only [concat, hfirst.volume hdf, hsecond.volume hdf']
        exact hintegers
    have hbars' : ∀ frame ∈ concat p df df' :: dfs, BarFrame frame := by
      intro frame hframe
      rcases List.mem_cons.mp hframe with rfl | hmem
      · exact hboth
      · exact hbars frame (List.mem_cons_of_mem _ (List.mem_cons_of_mem _ hmem))
    have hrows' : ∀ frame ∈ concat p df df' :: dfs, frame.rows ≠ [] := by
      intro frame hframe
      rcases List.mem_cons.mp hframe with rfl | hmem
      · exact fun hnil => hdf (List.append_eq_nil_iff.mp hnil).1
      · exact hrows frame (List.mem_cons_of_mem _ (List.mem_cons_of_mem _ hmem))
    obtain ⟨hall, hbar⟩ := ih (List.cons_ne_nil _ _) hbars' hrows'
    rw [concatAll]
    refine ⟨?_, hbar⟩
    rw [hall]
    simp [concat]

end Frames

/-! The best source of each date and adjustment -/

section First

variable {α κ ρ : Type} [DecidableEq κ] [LinearOrder ρ] {key : α → κ} {rank : α → ρ} {rows : List α}

private theorem nodup_map_keepFirst : ((keepFirst key rows).map key).Nodup := by
  unfold keepFirst
  rw [List.map_reverse]
  exact List.nodup_reverse.mpr (nodup_map_keepLast _)

theorem mem_map_keepFirst {k : κ} : k ∈ (keepFirst key rows).map key ↔ k ∈ rows.map key := by
  unfold keepFirst
  rw [List.map_reverse, List.mem_reverse, mem_map_keepLast, List.map_reverse, List.mem_reverse]

/-- Of sorted rows the first of each key has the lowest rank. -/
private theorem rank_le_of_mem_keepFirst (hsorted : rows.Pairwise fun a b => rank a ≤ rank b)
    {a x : α}
    (ha : a ∈ keepFirst key rows) (hx : x ∈ rows) (hkey : key x = key a) : rank a ≤ rank x := by
  unfold keepFirst at ha
  rw [List.mem_reverse, mem_keepLast_iff] at ha
  have hreversed : rows.reverse.Pairwise fun a b =>
      OrderDual.toDual (rank a) ≤ OrderDual.toDual (rank b) := List.pairwise_reverse.mpr hsorted
  exact @rank_le_of_lastOf _ _ ρᵒᵈ _ _ key (fun a => OrderDual.toDual (rank a)) _ _ _ _ hreversed ha
    (List.mem_reverse.mpr hx) hkey

theorem le_of_append_le {l : List ρ} {x y : ρ} (hle : l ++ [x] ≤ l ++ [y]) : x ≤ y := by
  by_contra hlt
  have hone : [y] < [x] := List.cons_lt_cons_iff.mpr (Or.inl (not_le.mp hlt))
  exact absurd hle (not_le_of_gt (List.append_left_lt hone))

end First

theorem sortKey_of_rowKey {columns : List String} {r w : Row}
    (hkey : rowKey columns r = rowKey columns w) : sortKey columns r = sortKey columns w := by
  have hcells : ∀ c ∈ columns, r c = w c := fun c hc => List.map_inj_left.mp hkey c hc
  exact List.map_congr_left fun c hc => by rw [hcells c hc]

section Combine

variable {p : Pandas} {combined : Frame}

/-- The columns that a row of the combined frame is told apart by. -/
def combinedKey : Row → List Cell := rowKey ["date", "security_id", "adjustment"]

/-- The combined rows: the best ranked of each key. -/
structure BestOf (p : Pandas) (combined : Frame) (rows : List Row) : Prop where
  distinct : (rows.map combinedKey).Nodup
  covered : ∀ r ∈ combined.rows, ∃ w ∈ rows, combinedKey w = combinedKey r
  best : ∀ w ∈ rows, w ∈ combined.rows ∧ ∀ r ∈ combined.rows, combinedKey r = combinedKey w →
    assignSourceRank p combined w ≤ assignSourceRank p combined r

private theorem combineSources_bestOf : BestOf p combined (combineSources p combined).rows := by
  have hperm : (combineSources p combined).rows.Perm (keepFirst combinedKey
      (stableSort (fun r => sortKey ["date", "security_id", "adjustment"] r ++
        [(Cell.int (assignSourceRank p combined r)).rank]) combined.rows)) := stableSort_perm _ _
  refine ⟨(hperm.map combinedKey).nodup_iff.mpr nodup_map_keepFirst, ?_, ?_⟩
  · intro r hr
    have hkey : combinedKey r ∈ (combineSources p combined).rows.map combinedKey := by
      rw [(hperm.map combinedKey).mem_iff, mem_map_keepFirst]
      exact List.mem_map_of_mem ((stableSort_perm _ _).mem_iff.mpr hr)
    exact List.mem_map.mp hkey
  · intro w hw
    refine ⟨mem_combineSources hw, fun r hr hkey => ?_⟩
    have hle := rank_le_of_mem_keepFirst (stableSort_sorted _ _) (hperm.mem_iff.mp hw)
      ((stableSort_perm _ _).mem_iff.mpr hr) hkey
    rw [sortKey_of_rowKey hkey] at hle
    have hrank : ((assignSourceRank p combined w : Int) : ℚ) < (assignSourceRank p combined r : Int) ∨
        assignSourceRank p combined w = assignSourceRank p combined r := by
      simpa [Cell.rank, Prod.Lex.toLex_le_toLex] using le_of_append_le hle
    rcases hrank with hlt | heq
    · exact le_of_lt (by exact_mod_cast hlt)
    · exact heq.le

end Combine

section Materialize

variable {p : Pandas} {reads : Reads} {st : Store} {security : Row} {updatedAt : Int}

theorem mem_baostockBars {bar : Row} (hbar : bar ∈ baostockBars p st security updatedAt) :
    ∃ source ∈ baostockDailySources, ∃ r ∈ partitionRows p st security (source.1, "baostock_code"),
      bar = mapBaostockRow security updatedAt (columnsOf dailyBarSchema) source.1 source.2 r := by
  obtain ⟨source, hsource, hmem⟩ := List.mem_flatMap.mp hbar
  obtain ⟨r, hr, rfl⟩ := List.mem_map.mp hmem
  exact ⟨source, hsource, r, hr, rfl⟩

theorem mem_akshareBars {bar : Row} (hbar : bar ∈ akshareBars p st security updatedAt) :
    ∃ source ∈ akshareDailySources, ∃ r ∈ partitionRows p st security (source.1, "akshare_code"),
      bar = mapAkshareRow p security updatedAt (columnsOf akshareDailyBarSchema) source.1 source.2
        r := by
  obtain ⟨source, hsource, hmem⟩ := List.mem_flatMap.mp hbar
  obtain ⟨r, hr, rfl⟩ := List.mem_map.mp hmem
  exact ⟨source, hsource, r, hr, rfl⟩

theorem bar_cells {bar : Row} (hbar : bar ∈ baostockBars p st security updatedAt ++
    akshareBars p st security updatedAt) :
    (∀ column ∈ securityColumns, bar column = security column) ∧
      bar "updated_at" = .stamp updatedAt := by
  have hnot : ∀ column ∈ securityColumns, column ∉ copiedColumns ++ baostockColumns := by decide
  rcases List.mem_append.mp hbar with hmem | hmem
  · obtain ⟨source, -, r, -, rfl⟩ := mem_baostockBars hmem
    refine ⟨fun column hcolumn => ?_, rfl⟩
    unfold mapBaostockRow
    rw [if_neg (hnot column hcolumn), if_pos hcolumn]
  · obtain ⟨source, -, r, -, rfl⟩ := mem_akshareBars hmem
    refine ⟨fun column hcolumn => ?_, rfl⟩
    unfold mapAkshareRow
    rw [if_neg fun hcopied => hnot column hcolumn (List.mem_append_left _ hcopied), if_pos hcolumn]

private theorem combinedKey_eq_iff {bar bar' : Row} (hid : bar "security_id" = bar' "security_id") :
    combinedKey bar = combinedKey bar' ↔ barKey bar = barKey bar' := by
  simp only [combinedKey, barKey, rowKey, List.map_cons, List.map_nil, List.cons.injEq, hid,
    true_and, and_true]

private theorem rank_baostockBars {combined : Frame}
    (hcolumns : combined.columns = cnStockDailyBarColumns)
    {bar : Row} (hbar : bar ∈ baostockBars p st security updatedAt) :
    assignSourceRank p combined bar = 0 := by
  obtain ⟨source, hsource, r, -, rfl⟩ := mem_baostockBars hbar
  have hcolumn : "source_dataset" ∈ combined.columns := by
    rw [hcolumns]
    decide
  have hdataset : ∀ source ∈ baostockDailySources,
      strip source.1 = source.1 ∧ source.1 ≠ "" ∧ startsWith source.1 "baostock_" = true := by
    decide +kernel
  obtain ⟨hstrip, hne, hstarts⟩ := hdataset source hsource
  have htext : stringWithDefault p combined "source_dataset" "" (mapBaostockRow security updatedAt
      (columnsOf dailyBarSchema) source.1 source.2 r) = source.1 := by
    unfold stringWithDefault columnOrNone
    rw [if_pos hcolumn]
    show (if strip source.1 = "" then "" else strip source.1) = source.1
    rw [hstrip, if_neg hne]
  simp only [assignSourceRank, htext, if_pos hstarts]

private theorem rank_akshareBars {combined : Frame}
    (hcolumns : combined.columns = cnStockDailyBarColumns)
    {bar : Row} (hbar : bar ∈ akshareBars p st security updatedAt) :
    0 < assignSourceRank p combined bar := by
  obtain ⟨source, hsource, r, -, rfl⟩ := mem_akshareBars hbar
  have hcolumn : "source_dataset" ∈ combined.columns := by
    rw [hcolumns]
    decide
  have hdataset : ∀ source ∈ akshareDailySources,
      strip source.1 = source.1 ∧ source.1 ≠ "" ∧ startsWith source.1 "baostock_" = false := by
    decide +kernel
  obtain ⟨hstrip, hne, hstarts⟩ := hdataset source hsource
  have htext : stringWithDefault p combined "source_dataset" "" (mapAkshareRow p security updatedAt
      (columnsOf akshareDailyBarSchema) source.1 source.2 r) = source.1 := by
    unfold stringWithDefault columnOrNone
    rw [if_pos hcolumn]
    show (if strip source.1 = "" then "" else strip source.1) = source.1
    rw [hstrip, if_neg hne]
  have hother : ¬startsWith source.1 "baostock_" = true := Bool.eq_false_iff.mp hstarts
  simp only [assignSourceRank, htext, if_neg hother]
  split_ifs <;> decide

private theorem flatMap_filter_rows (frames : List Frame) :
    (frames.filter fun df => df.rows ≠ []).flatMap Frame.rows = frames.flatMap Frame.rows := by
  induction frames with
  | nil => rfl
  | cons df frames ih =>
    rw [List.filter_cons, List.flatMap_cons]
    by_cases hrows : df.rows = []
    · rw [if_neg (by simpa using hrows), ih, hrows, List.nil_append]
    · rw [if_pos (by simpa using hrows), List.flatMap_cons, ih]

theorem sources_daily :
    (∀ source ∈ baostockDailySources, (source.1, "baostock_code") ∈ sourceFields ∧
      ∀ d, datasetDefinition source.1 = .ok d → d.schema = dailyBarSchema) ∧
    ∀ source ∈ akshareDailySources, (source.1, "akshare_code") ∈ sourceFields ∧
      ∀ d, datasetDefinition source.1 = .ok d → d.schema = akshareDailyBarSchema := by
  constructor
  all_goals
    intro source hsource
    refine ⟨?_, fun d hd => ?_⟩
    · revert source
      decide
    · simp only [baostockDailySources, akshareDailySources, List.mem_cons, List.not_mem_nil,
        or_false] at hsource
      rcases hsource with rfl | rfl | rfl <;> (obtain rfl := Except.ok.inj hd; rfl)

theorem materialize_bars (hintegers : KeepsIntegers p)
    (hsources : ValidSources p reads st security) (hrow : SecurityRow p security) :
    ∃ df, materializeSecurityDailyBar p reads st reads.partitions security updatedAt = .ok df ∧
      PrefersBaostock df.rows (baostockBars p st security updatedAt)
        (akshareBars p st security updatedAt) ∧ (BarFrame df ∨ df.rows = [] ∧ df.columns = []) := by
  obtain ⟨baostockFrames, hbaostock, hbaostockBars, hbaostockRows⟩ :=
    @sourceFrames_rows p reads st security "baostock_code" dailyBarSchema baostockDailySources
      (mapBaostockDaily security updatedAt)
      (fun id adjustment => mapBaostockRow security updatedAt (columnsOf dailyBarSchema) id adjustment)
      hsources sources_daily.1 (fun heq => absurd heq (by decide))
      fun rows df id adjustment hback => mapBaostockDaily_readBack hback id adjustment
  obtain ⟨akshareFrames, hakshare, hakshareBars, hakshareRows⟩ :=
    @sourceFrames_rows p reads st security "akshare_code" akshareDailyBarSchema akshareDailySources
      (mapAkshareDaily p security updatedAt)
      (fun id adjustment =>
        mapAkshareRow p security updatedAt (columnsOf akshareDailyBarSchema) id adjustment)
      hsources sources_daily.2 (fun _ hcode => hrow.akshare_digits hcode)
      fun rows df id adjustment hback => mapAkshareDaily_readBack hback id adjustment
  have hrows : ((baostockFrames ++ akshareFrames).filter fun df => df.rows ≠ []).flatMap Frame.rows =
      baostockBars p st security updatedAt ++ akshareBars p st security updatedAt := by
    rw [flatMap_filter_rows, List.flatMap_append, hbaostockRows, hakshareRows]
    rfl
  have hframes : ∀ df ∈ (baostockFrames ++ akshareFrames).filter fun df => df.rows ≠ [],
      BarFrame df ∧ df.rows ≠ [] := by
    intro df hdf
    obtain ⟨hmem, hne⟩ := List.mem_filter.mp hdf
    refine ⟨?_, of_decide_eq_true hne⟩
    rcases List.mem_append.mp hmem with hmem | hmem
    · exact hbaostockBars df hmem
    · exact hakshareBars df hmem
  unfold materializeSecurityDailyBar
  rw [hbaostock, hakshare]
  simp only [Bind.bind, Except.bind]
  cases hnonEmpty : (baostockFrames ++ akshareFrames).filter fun df => df.rows ≠ [] with
  | nil =>
    rw [hnonEmpty] at hrows
    obtain ⟨hnone, hnone'⟩ := List.append_eq_nil_iff.mp hrows.symm
    refine ⟨_, rfl, ?_, Or.inr ⟨rfl, rfl⟩⟩
    rw [hnone, hnone']
    refine ⟨List.nodup_nil, ?_, ?_⟩
    · intro bar hbar
      cases hbar
    · intro r hr
      cases hr
  | cons df dfs =>
    rw [hnonEmpty] at hrows hframes
    obtain ⟨hall, hbar⟩ := concatAll_bars hintegers (List.cons_ne_nil df dfs)
      (fun frame hframe => (hframes frame hframe).1) fun frame hframe => (hframes frame hframe).2
    rw [hrows] at hall
    obtain ⟨hdistinct, hcovered, hbest⟩ := @combineSources_bestOf p (concatAll p (df :: dfs))
    rw [hall] at hcovered hbest
    have hkeys : ∀ bar bar', bar ∈ baostockBars p st security updatedAt ++
        akshareBars p st security updatedAt → bar' ∈ baostockBars p st security updatedAt ++
        akshareBars p st security updatedAt →
          (combinedKey bar = combinedKey bar' ↔ barKey bar = barKey bar') := by
      intro bar bar' hmem hmem'
      apply combinedKey_eq_iff
      rw [(bar_cells hmem).1 _ List.mem_cons_self, (bar_cells hmem').1 _ List.mem_cons_self]
    refine ⟨_, rfl, ⟨?_, ?_, ?_⟩, Or.inl ⟨hbar.columns, fun hne => hbar.volume ?_⟩⟩
    · apply List.pairwise_map.mpr
      refine (List.pairwise_map.mp hdistinct).imp_of_mem fun hw hw' hne heq => hne ?_
      exact (hkeys _ _ (hbest _ hw).1 (hbest _ hw').1).mpr heq
    · intro bar hmem
      obtain ⟨w, hw, hkey⟩ := hcovered bar hmem
      exact ⟨w, hw, (hkeys w bar (hbest w hw).1 hmem).mp hkey⟩
    · intro w hw
      obtain ⟨hmem, hlowest⟩ := hbest w hw
      rcases List.mem_append.mp hmem with hbaostockMem | hakshareMem
      · exact Or.inl hbaostockMem
      · refine Or.inr ⟨hakshareMem, fun bar hbarMem hkey => ?_⟩
        have hbar' := List.mem_append_left (akshareBars p st security updatedAt) hbarMem
        have hle := hlowest bar hbar' ((hkeys bar w hbar' hmem).mpr hkey)
        rw [rank_baostockBars hbar.columns hbarMem] at hle
        exact absurd (rank_akshareBars hbar.columns hakshareMem) (not_lt.mpr hle)
    · obtain ⟨w, hw⟩ := List.exists_mem_of_ne_nil _ hne
      exact List.ne_nil_of_mem (mem_combineSources hw)

end Materialize

end QuantDataCenter.Derived
