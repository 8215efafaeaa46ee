import QuantDataCenter.Derived.CanonicalAcceptance

/-!
The canonical frames of a security as a build writes them: which rows they have, and that the store
takes them whenever the sources and the master are valid.
-/

set_option autoImplicit false
set_option relaxedAutoImplicit false

namespace QuantDataCenter.Derived

open QuantDataCenter.Lib QuantDataCenter.Lib.Checked QuantDataCenter.Lib.Keyed
open QuantDataCenter.Tabular QuantDataCenter.Quality QuantDataCenter.Storage

section Accepts

variable {p : Pandas} {reads : Reads} {st : Store} {security : Row} {updatedAt : Int}

private theorem typedBars (hrow : SecurityRow p security)
    (hsources : ValidSources p reads st security)
    {rows : List Row} (hprefers : PrefersBaostock rows (baostockBars p st security updatedAt)
      (akshareBars p st security updatedAt)) : ∀ r ∈ rows, TypedBar security updatedAt r := by
  intro r hr
  rcases hprefers.taken r hr with hbaostock | ⟨hakshare, -⟩
  · exact typedBar_baostock hsources hrow hbaostock
  · exact typedBar_akshare hsources hrow hakshare

private theorem coerced_bars {df : Frame} (htyped : ∀ r ∈ df.rows, TypedBar security updatedAt r)
    (hframe : BarFrame df ∨ df.rows = [] ∧ df.columns = []) :
    ∃ coerced, coercedFrame p cnStockDailyBarDataset df = .ok coerced ∧
      coerced.columns = fieldNames cnStockDailyBarSchema ∧
      ∃ back : Row → Row, coerced.rows = df.rows.map back ∧
        ∀ r ∈ df.rows, ∀ name ∈ fieldNames cnStockDailyBarSchema,
          back r name = cleanedBar updatedAt r name := by
  have hcatalog : datasetDefinition "cn_stock_daily_bar" = .ok cnStockDailyBarDataset := rfl
  refine coercedFrame_of_cells (wellFormed_of_mem (mem_datasetCatalog hcatalog).1) rfl ?_ ?_ ?_
  · rcases hframe with hbar | hempty
    · refine Or.inl fun field hfield => ?_
      rw [hbar.columns]
      exact List.mem_map_of_mem hfield
    · exact Or.inr hempty
  · intro r hr
    apply (htyped r hr).coerces
    rcases hframe with hbar | ⟨hnil, -⟩
    · exact hbar.volume (List.ne_nil_of_mem hr)
    · rw [hnil] at hr
      cases hr
  · intro _ r hr
    obtain ⟨s, hs, hcell⟩ := (htyped r hr).adjustment
    have hcleaned : cleanedBar updatedAt r "adjustment" = .text s := hcell
    rw [hcleaned]
    exact normalizeOptional_text_of_mem hs

private theorem storeAccepts_bars (hstamps : PrintsStamps p) (hdates : PrintsDates p)
    (hrow : SecurityRow p security) (hsources : ValidSources p reads st security) {df : Frame}
    (hprefers : PrefersBaostock df.rows (baostockBars p st security updatedAt)
      (akshareBars p st security updatedAt))
    (hframe : BarFrame df ∨ df.rows = [] ∧ df.columns = []) :
    StoreAccepts p cnStockDailyBarDataset security df := by
  have hcatalog : datasetDefinition "cn_stock_daily_bar" = .ok cnStockDailyBarDataset := rfl
  have htyped := typedBars hrow hsources hprefers
  obtain ⟨coerced, hcoerced, hcolumns, back, hrows, hback⟩ := coerced_bars (p := p) htyped hframe
  have hcanonical : ∀ r ∈ coerced.rows, CanonicalRow cnStockDailyBarSchema security r ∧
      ∃ s ∈ adjustments, r "adjustment" = .text s := by
    intro r hr
    rw [hrows] at hr
    obtain ⟨bar, hbar, rfl⟩ := List.mem_map.mp hr
    exact (htyped bar hbar).canonicalRow (hback bar hbar)
  have hnodup : (coerced.rows.map barKey).Nodup := by
    have hkeys : df.rows.map (barKey ∘ back) = df.rows.map barKey := by
      refine List.map_congr_left fun r hr => ?_
      have hdate : back r "date" = r "date" := hback r hr "date" (by decide)
      have hadjustment : back r "adjustment" = r "adjustment" := hback r hr "adjustment" (by decide)
      simp only [Function.comp_apply, barKey, rowKey, List.map_cons, List.map_nil, hdate, hadjustment]
    rw [hrows, List.map_map, hkeys]
    exact hprefers.distinct
  refine storeAccepts_of_coerced (wellFormed_of_mem (mem_datasetCatalog hcatalog).1) rfl hrow hcoerced
    (fun env => ?_) fun r hr => (hcanonical r hr).1.identity _ (by decide)
  have hperm := sortValues_perm env cnStockDailyBarDataset.sortColumns coerced.rows
  have hsorted : sortValues env cnStockDailyBarDataset.sortColumns coerced.rows =
      stableSort (sortKey ["security_id", "adjustment", "date"]) coerced.rows :=
    sortValues_several (by decide) env coerced.rows
  refine @valid_bars p security
    { coerced with rows := sortValues env cnStockDailyBarDataset.sortColumns coerced.rows }
    hstamps hdates hrow hcolumns ?_ ?_ ?_
  · exact fun r hr => hcanonical r (hperm.mem_iff.mp hr)
  · exact (hperm.map barKey).nodup_iff.mpr hnodup
  · simp only [hsorted]
    exact stableSort_sorted _ _

/-! The joined valuations -/

structure TypedValuation (p : Pandas) (security : Row) (updatedAt : Int) (r : Row) : Prop where
  types : ∀ field ∈ cnStockValuationSchema, field.name ≠ "updated_at" →
    field.type.accepts (r field.name) = true
  percentiles : PercentilesInRange p r
  identity : ∀ column ∈ ["security_id", "code", "exchange"], r column = security column
  date : ∃ day, r "date" = .date day
  sourceDataset : ∃ s, r "source_dataset" = .text s ∧ strip s ≠ ""
  updatedAt : r "updated_at" = .stamp updatedAt

def akshareColumns : List String :=
  ["close", "total_market_cap", "float_market_cap", "total_shares", "float_shares", "pe_static"]

private theorem valueOf_accepts {schema : Schema} {r : Option Row}
    (htypes : ∀ row ∈ r, ∀ field ∈ schema, field.type.accepts (row field.name) = true)
    {column : String} (hcolumn : ⟨column, .float64⟩ ∈ schema) :
    FieldType.float64.accepts (valueOf r column) = true := by
  cases r with
  | none => rfl
  | some row => exact htypes row rfl _ hcolumn

private theorem valuationRow_percentile (day : Int) (akshare baostock : Option Row) :
    ∀ mapping ∈ percentileMappings,
      valuationRow day security akshare baostock updatedAt mapping.2 =
        valueOf baostock mapping.1 := by
  intro mapping hmapping
  simp only [percentileMappings, List.mem_cons, List.not_mem_nil, or_false] at hmapping
  rcases hmapping with rfl | rfl | rfl | rfl | rfl | rfl | rfl | rfl | rfl | rfl | rfl | rfl | rfl |
    rfl | rfl | rfl | rfl | rfl | rfl | rfl
  all_goals rfl

/-- A valuation has the types of its columns, wherever they come from. -/
private theorem valuationRow_types (hrow : SecurityRow p security) {day : Int}
    {akshare baostock : Option Row}
    (hakshare : ∀ row ∈ akshare, ∀ field ∈ akshareValuationEastmoneySchema,
      field.type.accepts (row field.name) = true)
    (hbaostock : ∀ row ∈ baostock, ∀ field ∈ baostockValuationPercentileSchema,
      field.type.accepts (row field.name) = true) :
    ∀ field ∈ cnStockValuationSchema, field.name ≠ "updated_at" →
      field.type.accepts (valuationRow day security akshare baostock updatedAt field.name) = true := by
  have hfields : ∀ field ∈ cnStockValuationSchema, field.name ≠ "updated_at" →
      field = ⟨"date", .date32⟩ ∨ field = ⟨"source_dataset", .string⟩ ∨
        (field ∈ cnSecurityMasterSchema ∧
          field.name ∈ ["security_id", "code", "exchange", "name"]) ∨
        (field.type = .float64 ∧ (field.name ∈ akshareColumns ∨
          field.name ∈ mergedColumns.map Prod.fst ∨
          field.name ∈ percentileMappings.map Prod.snd)) := by decide
  have hcolumns : ∀ column ∈ akshareColumns,
      ⟨column, .float64⟩ ∈ akshareValuationEastmoneySchema := by decide
  have hmerged : ∀ columns ∈ mergedColumns,
      ⟨columns.1, .float64⟩ ∈ akshareValuationEastmoneySchema ∧
        ⟨columns.2, .float64⟩ ∈ baostockValuationPercentileSchema := by decide
  have hpercentiles : ∀ mapping ∈ percentileMappings,
      ⟨mapping.1, .float64⟩ ∈ baostockValuationPercentileSchema := by decide
  intro field hfield hname
  rcases hfields field hfield hname with rfl | rfl | ⟨hmaster, hsecurity⟩ | ⟨htype, hcolumn⟩
  · rfl
  · rfl
  · have hidentity : ∀ column ∈ ["security_id", "code", "exchange", "name"],
        valuationRow day security akshare baostock updatedAt column = security column := by
      intro column hcolumn
      simp only [List.mem_cons, List.not_mem_nil, or_false] at hcolumn
      rcases hcolumn with rfl | rfl | rfl | rfl
      all_goals rfl
    rw [hidentity _ hsecurity]
    exact hrow.types field hmaster
  · rw [htype]
    rcases hcolumn with hcolumn | hcolumn | hcolumn
    · have hvalue : ∀ column ∈ akshareColumns,
          valuationRow day security akshare baostock updatedAt column = valueOf akshare column := by
        intro column hcolumn
        simp only [akshareColumns, List.mem_cons, List.not_mem_nil, or_false] at hcolumn
        rcases hcolumn with rfl | rfl | rfl | rfl | rfl | rfl
        all_goals rfl
      rw [hvalue _ hcolumn]
      exact valueOf_accepts hakshare (hcolumns _ hcolumn)
    · obtain ⟨columns, hmem, hfst⟩ := List.mem_map.mp hcolumn
      obtain ⟨hfirst, hsecond⟩ := hmerged columns hmem
      rw [← hfst, valuationRow_merged day akshare baostock columns hmem]
      split
      case isTrue => exact valueOf_accepts hakshare hfirst
      case isFalse => exact valueOf_accepts hbaostock hsecond
    · obtain ⟨mapping, hmem, hsnd⟩ := List.mem_map.mp hcolumn
      rw [← hsnd, valuationRow_percentile day akshare baostock mapping hmem]
      exact valueOf_accepts hbaostock (hpercentiles mapping hmem)

private theorem percentiles_of_valid {df : Frame}
    (hvalid : validateBaostockCnStockValuationPercentile p df = .ok ()) {r : Row} (hr : r ∈ df.rows) :
    ∀ mapping ∈ percentileMappings, ∀ x ∈ numericValue p (r mapping.1), 0 ≤ x ∧ x ≤ 100 := by
  obtain ⟨_, hschema, hrest⟩ := bind_eq_ok.mp hvalid
  obtain ⟨_, -, hrest⟩ := bind_eq_ok.mp hrest
  obtain ⟨_, -, hrest⟩ := bind_eq_ok.mp hrest
  rw [(validateSchemaMatches_eq_ok.mp hschema).1] at hrest
  have hchecked : ∀ mapping ∈ percentileMappings,
      mapping.1 ∈ (fieldNames baostockValuationPercentileSchema).filter fun column =>
        ["_1y", "_3y", "_5y", "_10y", "_all_history"].any fun suffix =>
          suffix.toList.isSuffixOf column.toList := by decide
  intro mapping hmapping
  exact ite_eq_ok.mp hrest mapping.1 (hchecked mapping hmapping) r hr

private theorem typedValuations (hrow : SecurityRow p security)
    (hsources : ValidSources p reads st security)
    {rows : List Row} (hjoined : JoinedByDate security updatedAt rows
      (partitionRows p st security akshareValuationField)
      (partitionRows p st security baostockPercentileField)) :
    ∀ r ∈ rows, TypedValuation p security updatedAt r := by
  have hakshareField : akshareValuationField ∈ sourceFields := by decide
  have hbaostockField : baostockPercentileField ∈ sourceFields := by decide
  have hdatasets : datasetDefinition akshareValuationField.1 = .ok akshareValuationEastmoneyDataset ∧
      datasetDefinition baostockPercentileField.1 =
        .ok baostockCnStockValuationPercentileDataset := ⟨rfl, rfl⟩
  intro r hr
  obtain ⟨day, hday, -, hjoin⟩ := hjoined.joined r hr
  have hakshare : ∀ row ∈ rowOfDate (partitionRows p st security akshareValuationField) day,
      ∀ field ∈ akshareValuationEastmoneySchema, field.type.accepts (row field.name) = true :=
    fun row hlast => partitionRows_types hsources hakshareField hdatasets.1 row (mem_of_lastSat hlast).1
  have hbaostock : ∀ row ∈ rowOfDate (partitionRows p st security baostockPercentileField) day,
      ∀ field ∈ baostockValuationPercentileSchema, field.type.accepts (row field.name) = true :=
    fun row hlast => partitionRows_types hsources hbaostockField hdatasets.2 row (mem_of_lastSat hlast).1
  have hpercentiles : PercentilesInRange p r := by
    intro mapping hmapping x hx
    rw [hjoin.row, valuationRow_percentile day _ _ mapping hmapping] at hx
    cases hlast : rowOfDate (partitionRows p st security baostockPercentileField) day with
    | none =>
      rw [hlast] at hx
      cases hx
    | some row =>
      rw [hlast] at hx
      have hmem := (mem_of_lastSat hlast).1
      have haccepted := partitionRows_accepted hsources hbaostockField hdatasets.2
        (List.ne_nil_of_mem hmem)
      exact percentiles_of_valid haccepted.valid hmem mapping hmapping x hx
  have hsource : ∃ s, r "source_dataset" = .text s ∧ strip s ≠ "" := by
    have hnames : ∀ first second, strip (sourceDataset first second) ≠ "" := by decide
    rw [hjoin.row]
    exact ⟨_, rfl, hnames _ _⟩
  refine ⟨?_, hpercentiles, ?_, ⟨day, hday⟩, hsource, ?_⟩
  · rw [hjoin.row]
    exact valuationRow_types hrow hakshare hbaostock
  · rw [hjoin.row]
    intro column hcolumn
    simp only [List.mem_cons, List.not_mem_nil, or_false] at hcolumn
    rcases hcolumn with rfl | rfl | rfl
    all_goals rfl
  · rw [hjoin.row]
    rfl

def cleanedValuation (updatedAt : Int) (r : Row) : Row := fun name =>
  if name = "updated_at" then .stamp (storedStamp updatedAt) else r name

theorem TypedValuation.coerces {r : Row} (hr : TypedValuation p security updatedAt r) (df : Frame) :
    ∀ field ∈ cnStockValuationSchema,
      coerceCell p (df.dtype field.name) field.type (r field.name) =
        .ok (cleanedValuation updatedAt r field.name) := by
  have htype : ∀ field ∈ cnStockValuationSchema,
      field.name = "updated_at" → field.type = .timestamp := by decide
  intro field hfield
  unfold cleanedValuation
  by_cases hstamp : field.name = "updated_at"
  · rw [if_pos hstamp, htype field hfield hstamp, hstamp, hr.updatedAt]
    exact coerceCell_stamp _ _
  · rw [if_neg hstamp]
    exact coerceCell_of_accepts p _ (hr.types field hfield hstamp)

theorem TypedValuation.canonicalRow {source r : Row}
    (hsource : TypedValuation p security updatedAt source)
    (hr : ∀ name ∈ fieldNames cnStockValuationSchema, r name = cleanedValuation updatedAt source name) :
    CanonicalRow cnStockValuationSchema security r ∧ PercentilesInRange p r := by
  have hsame : ∀ name ∈ fieldNames cnStockValuationSchema, name ≠ "updated_at" →
      r name = source name := by
    intro name hname hstamp
    rw [hr name hname]
    exact if_neg hstamp
  have hstamp : r "updated_at" = .stamp (storedStamp updatedAt) := hr "updated_at" (by decide)
  refine ⟨⟨?_, ?_, ?_, ?_, ⟨_, hstamp⟩⟩, ?_⟩
  · have htype : ∀ field ∈ cnStockValuationSchema,
        field.name = "updated_at" → field.type = .timestamp := by decide
    intro field hfield
    by_cases hname : field.name = "updated_at"
    · rw [htype field hfield hname, hname, hstamp]
      exact accepts_storedStamp updatedAt
    · rw [hsame _ (List.mem_map_of_mem hfield) hname]
      exact hsource.types field hfield hname
  · intro column hcolumn
    have hsecurity : ∀ column ∈ ["security_id", "code", "exchange"],
        column ∈ fieldNames cnStockValuationSchema ∧ column ≠ "updated_at" := by decide
    rw [hsame column (hsecurity column hcolumn).1 (hsecurity column hcolumn).2]
    exact hsource.identity column hcolumn
  · rw [hsame "date" (by decide) (by decide)]
    exact hsource.date
  · rw [hsame "source_dataset" (by decide) (by decide)]
    exact hsource.sourceDataset
  · intro mapping hmapping
    have hcolumn : ∀ mapping ∈ percentileMappings,
        mapping.2 ∈ fieldNames cnStockValuationSchema ∧ mapping.2 ≠ "updated_at" := by decide
    rw [hsame _ (hcolumn mapping hmapping).1 (hcolumn mapping hmapping).2]
    exact hsource.percentiles mapping hmapping

private theorem storeAccepts_valuations (hstamps : PrintsStamps p) (hdates : PrintsDates p)
    (hrow : SecurityRow p security) (hsources : ValidSources p reads st security) {rows : List Row}
    (hjoined : JoinedByDate security updatedAt rows
      (partitionRows p st security akshareValuationField)
      (partitionRows p st security baostockPercentileField)) :
    StoreAccepts p cnStockValuationDataset security (valuationFrame rows) := by
  have hcatalog : datasetDefinition "cn_stock_valuation" = .ok cnStockValuationDataset := rfl
  have wf : cnStockValuationDataset.WellFormed := wellFormed_of_mem (mem_datasetCatalog hcatalog).1
  have htyped := typedValuations hrow hsources hjoined
  have hframe : (valuationFrame rows).rows = rows := by
    cases rows <;> rfl
  have hcolumns : (∀ field ∈ cnStockValuationSchema, field.name ∈ (valuationFrame rows).columns) ∨
      (valuationFrame rows).rows = [] ∧ (valuationFrame rows).columns = [] := by
    cases rows with
    | nil => exact Or.inr ⟨rfl, rfl⟩
    | cons r rest =>
      have hnames : ∀ field ∈ cnStockValuationSchema, field.name ∈ valuationColumns := by
        decide
      exact Or.inl hnames
  obtain ⟨coerced, hcoerced, hcoercedColumns, back, hrows, hback⟩ :=
    coercedFrame_of_cells (p := p) wf rfl hcolumns
      (fun r hr => (htyped r (hframe ▸ hr)).coerces (valuationFrame rows))
      fun hmem => absurd hmem (by decide)
  rw [hframe] at hrows hback
  have hcanonical : ∀ r ∈ coerced.rows,
      CanonicalRow cnStockValuationSchema security r ∧ PercentilesInRange p r := by
    intro r hr
    rw [hrows] at hr
    obtain ⟨source, hsource, rfl⟩ := List.mem_map.mp hr
    exact (htyped source hsource).canonicalRow (hback source hsource)
  have hnodup : (coerced.rows.map fun r => r "date").Nodup := by
    have hdates : rows.map ((fun r => r "date") ∘ back) = rows.map fun r => r "date" :=
      List.map_congr_left fun r hr => hback r hr "date" (by decide)
    rw [hrows, List.map_map, hdates]
    exact hjoined.distinct
  refine storeAccepts_of_coerced wf rfl hrow hcoerced
    (fun env => ?_) fun r hr => (hcanonical r hr).1.identity _ (by decide)
  have hperm := sortValues_perm env cnStockValuationDataset.sortColumns coerced.rows
  have hsorted : sortValues env cnStockValuationDataset.sortColumns coerced.rows =
      stableSort (sortKey ["security_id", "date"]) coerced.rows :=
    sortValues_several (by decide) env coerced.rows
  refine @valid_valuations p security
    { coerced with rows := sortValues env cnStockValuationDataset.sortColumns coerced.rows }
    hstamps hdates hrow hcoercedColumns ?_ ?_ ?_
  · exact fun r hr => hcanonical r (hperm.mem_iff.mp hr)
  · exact (hperm.map fun r => r "date").nodup_iff.mpr hnodup
  · simp only [hsorted]
    exact stableSort_sorted _ _

/-- From valid sources the bars and the valuations of a security of a valid master are built: each
source row counts once, and the store takes the frames. -/
theorem canonical_materialization (hstamps : PrintsStamps p) (hdates : PrintsDates p)
    (hintegers : KeepsIntegers p) {master : Frame}
    (hmaster : validateCnSecurityMaster p master = .ok ()) (hsecurity : security ∈ master.rows)
    (hsources : ValidSources p reads st security) :
    (∃ df, materializeSecurityDailyBar p reads st reads.partitions security updatedAt = .ok df ∧
      PrefersBaostock df.rows (baostockBars p st security updatedAt)
        (akshareBars p st security updatedAt) ∧
      StoreAccepts p cnStockDailyBarDataset security df) ∧
    ∃ rows, materializeSecurityValuation p reads st security updatedAt = .ok (valuationFrame rows) ∧
      JoinedByDate security updatedAt rows (partitionRows p st security akshareValuationField)
        (partitionRows p st security baostockPercentileField) ∧
      StoreAccepts p cnStockValuationDataset security (valuationFrame rows) := by
  have hrow : SecurityRow p security := securityRow_of_valid hmaster hsecurity
  constructor
  · obtain ⟨df, hdf, hprefers, hframe⟩ := @materialize_bars p reads st security updatedAt
      hintegers hsources hrow
    exact ⟨df, hdf, hprefers, storeAccepts_bars hstamps hdates hrow hsources hprefers hframe⟩
  · obtain ⟨rows, hrows, hjoined⟩ := @materialize_valuations p reads st security updatedAt
      hsources hrow
    exact ⟨rows, hrows, hjoined, storeAccepts_valuations hstamps hdates hrow hsources hjoined⟩

end Accepts

/-! One security with a row of each source on one day -/

def bankSecurity (securityId : String) : Row :=
  rowOf [("security_id", .text securityId), ("code", .text "600000"), ("exchange", .text "SH"),
    ("baostock_code", .text "sh.600000"), ("akshare_code", .text "600000"), ("updated_at", .stamp 0)]

def bankMaster (securityId : String) : Frame :=
  fileFrame printing cnSecurityMasterSchema [bankSecurity securityId]

/-- The AkShare rows have an adjustment that is written as the text. -/
def bankFiles (adjustment : String) : List ((String × String) × List Row) :=
  [(("baostock_cn_stock_daily_bar_qfq", "sh.600000"),
      [rowOf [("date", .date 19723), ("code", .text "sh.600000"), ("close", .real 8)]]),
    (("akshare_cn_stock_daily_bar_qfq", "600000"),
      [rowOf [("date", .date 19723), ("code", .text "600000"), ("close", .real 9),
        ("adjustment", .text adjustment)],
       rowOf [("date", .date 19724), ("code", .text "600000"), ("close", .real 9),
        ("adjustment", .text adjustment)]]),
    ((akshareValuationDataset, "600000"),
      [rowOf [("date", .date 19723), ("code", .text "600000"), ("pb", .real 2)]]),
    ((baostockPercentileDataset, "sh.600000"),
      [rowOf [("date", .date 19723), ("code", .text "sh.600000"), ("pb_mrq", .real 3),
        ("pe_ttm", .real 6), ("pe_ttm_percentile_1y", .real 50)]])]

def bankStore (adjustment : String) : Store :=
  { Store.empty with files := fun dataset value => Dict.get (dataset, value) (bankFiles adjustment) }

def bankReads : Reads := ⟨fun _ => ["600000", "sh.600000"], fun _ _ => (WriteEnv.plain true).io 0⟩

private theorem bankMaster_valid :
    validateCnSecurityMaster printing (bankMaster "SH.600000") = .ok () :=
  eq_ok_of_toOption (by decide)

private theorem bankFiles_valid (adjustment : String) (hadjustment : adjustment ∈ ["qfq", "foo"]) :
    ∀ field ∈ sourceFields, ∀ d, datasetDefinition field.1 = .ok d → ∀ rows,
      (bankStore adjustment).files field.1 (cleanString printing (bankSecurity "SH.600000" field.2)) =
        some rows → d.validator printing (fileFrame printing d.schema rows) = .ok () := by
  have hchecked : ∀ adjustment ∈ ["qfq", "foo"], ∀ field ∈ sourceFields,
      ((datasetDefinition field.1).toOption.bind fun d =>
        ((bankStore adjustment).files field.1
          (cleanString printing (bankSecurity "SH.600000" field.2))).map fun rows =>
            (d.validator printing (fileFrame printing d.schema rows)).toOption) ∈
        [none, some (some ())] := by decide
  intro field hfield d hd rows hrows
  have hresult := hchecked adjustment hadjustment field hfield
  rw [hd, hrows] at hresult
  apply eq_ok_of_toOption
  simpa [Except.toOption] using hresult

private theorem bankSources_valid : ValidSources printing bankReads (bankStore "qfq")
    (bankSecurity "SH.600000") := by
  refine ⟨fun field _ value hfile => ?_, fun _ _ _ => rfl, fun field hfield d hd rows hrows => ?_⟩
  · have hvalues : ∀ e ∈ bankFiles "qfq", e.1.2 ∈ ["600000", "sh.600000"] := by decide
    obtain ⟨rows, hrows⟩ := Option.isSome_iff_exists.mp hfile
    exact hvalues _ (Dict.mem_of_get hrows)
  · refine ⟨bankFiles_valid "qfq" (by decide) field hfield d hd rows hrows, fun _ r hr => ?_⟩
    have hnormal : ∀ e ∈ bankFiles "qfq", ∀ r ∈ e.2,
        (normalizeOptionalAdjustment printing (r "adjustment")).toOption.isSome = true := by
      decide
    obtain ⟨c, hc⟩ := Option.isSome_iff_exists.mp (hnormal _ (Dict.mem_of_get hrows) r hr)
    exact ⟨c, eq_ok_of_toOption hc⟩

theorem canonical_materialization_bank :
    (∃ df, materializeSecurityDailyBar printing bankReads (bankStore "qfq") bankReads.partitions
        (bankSecurity "SH.600000") 0 = .ok df ∧
      PrefersBaostock df.rows (baostockBars printing (bankStore "qfq") (bankSecurity "SH.600000") 0)
        (akshareBars printing (bankStore "qfq") (bankSecurity "SH.600000") 0) ∧
      StoreAccepts printing cnStockDailyBarDataset (bankSecurity "SH.600000") df) ∧
    ∃ rows, materializeSecurityValuation printing bankReads (bankStore "qfq")
        (bankSecurity "SH.600000") 0 = .ok (valuationFrame rows) ∧
      JoinedByDate (bankSecurity "SH.600000") 0 rows
        (partitionRows printing (bankStore "qfq") (bankSecurity "SH.600000") akshareValuationField)
        (partitionRows printing (bankStore "qfq") (bankSecurity "SH.600000")
          baostockPercentileField) ∧
      StoreAccepts printing cnStockValuationDataset (bankSecurity "SH.600000")
        (valuationFrame rows) := by
  have hstamps : PrintsStamps printing := by
    intro ns
    show strip "1970-01-01 00:00:00" ≠ ""
    decide
  have hdates : PrintsDates printing := by
    intro day hempty
    have hprinted : Pandas.plain.repr (.date day) = String.ofList (if day = 19724 then
        "2024-01-02".toList else if day = 19725 then "2024-01-03".toList
        else (if day < 0 then '-' else '+') :: List.replicate day.natAbs 'd') := rfl
    have hnil := hprinted.symm.trans ((Pandas.plain.repr_date_strip day).symm.trans hempty)
    split at hnil
    · exact absurd hnil (by decide)
    · split at hnil
      · exact absurd hnil (by decide)
      · exact List.cons_ne_nil _ _ (String.ofList_injective hnil)
  exact canonical_materialization hstamps hdates rfl bankMaster_valid (List.mem_singleton.mpr rfl)
    bankSources_valid

/-- Valid AkShare bars with an unknown adjustment cannot be read, and an id with blanks around it,
which the validator of the master lets through, is not the one of its partition. -/
theorem valid_sources_abort :
    (validateCnSecurityMaster printing (bankMaster "SH.600000") = .ok () ∧
      (∀ field ∈ sourceFields, ∀ d, datasetDefinition field.1 = .ok d → ∀ rows,
        (bankStore "foo").files field.1 (cleanString printing (bankSecurity "SH.600000" field.2)) =
          some rows → d.validator printing (fileFrame printing d.schema rows) = .ok ()) ∧
      ∀ df, materializeSecurityDailyBar printing bankReads (bankStore "foo") bankReads.partitions
        (bankSecurity "SH.600000") 0 ≠ .ok df) ∧
    validateCnSecurityMaster printing (bankMaster " SH.600000") = .ok () ∧
      ∃ df, materializeSecurityDailyBar printing bankReads (bankStore "qfq") bankReads.partitions
          (bankSecurity " SH.600000") 0 = .ok df ∧
        ∀ prepared, prepareDatasetFrame printing (.plain true) cnStockDailyBarDataset df
          (securityPartition "SH.600000") true ≠ .ok prepared := by
  refine ⟨⟨bankMaster_valid, bankFiles_valid "foo" (by decide), fun df hdf => ?_⟩,
    eq_ok_of_toOption (by decide), ?_⟩
  · have haborts : (materializeSecurityDailyBar printing bankReads (bankStore "foo")
        bankReads.partitions (bankSecurity "SH.600000") 0).toOption.isSome = false := by
      decide
    rw [hdf] at haborts
    cases haborts
  · have hrefused : (materializeSecurityDailyBar printing bankReads (bankStore "qfq")
        bankReads.partitions (bankSecurity " SH.600000") 0).toOption.map (fun df =>
          (prepareDatasetFrame printing (.plain true) cnStockDailyBarDataset df
            (securityPartition "SH.600000") true).toOption.isSome) = some false := by
      decide +kernel
    obtain ⟨df, hdf, hprepare⟩ := Option.map_eq_some_iff.mp hrefused
    refine ⟨df, eq_ok_of_toOption hdf, fun prepared hprepared => ?_⟩
    rw [hprepared] at hprepare
    cases hprepare

end QuantDataCenter.Derived
