import QuantDataCenter.Derived.MasterAcceptance
import QuantDataCenter.Derived.ValuationRows

/-!
The canonical frames pass their validators. The validators are stricter than those of the sources
(they want identities, positive lists of values and sorted dates); what the sources do not check
comes from the master row, from the mapping or from the sort of the store.
-/

set_option autoImplicit false
set_option relaxedAutoImplicit false

namespace QuantDataCenter.Derived

open QuantDataCenter.Lib QuantDataCenter.Lib.Checked QuantDataCenter.Lib.Keyed
open QuantDataCenter.Tabular QuantDataCenter.Quality QuantDataCenter.Storage

/-- A date prints as something. -/
def PrintsDates (p : Pandas) : Prop := ∀ day, strip (p.str (.date day)) ≠ ""

/-! Cleaning -/

section Cleaning

variable {p : Pandas} {d : DatasetDefinition}

theorem coercedFrame_of_cells (wf : d.WellFormed) (hfixed : d.fixedColumnValues = [])
    {df : Frame} {clean : Row → Row}
    (hcolumns : (∀ field ∈ d.schema, field.name ∈ df.columns) ∨ df.rows = [] ∧ df.columns = [])
    (hcells : ∀ r ∈ df.rows, ∀ field ∈ d.schema,
      coerceCell p (df.dtype field.name) field.type (r field.name) = .ok (clean r field.name))
    (hadjustments : "adjustment" ∈ fieldNames d.schema → ∀ r ∈ df.rows,
      normalizeOptionalAdjustment p (clean r "adjustment") = .ok (clean r "adjustment")) :
    ∃ coerced, coercedFrame p d df = .ok coerced ∧ coerced.columns = fieldNames d.schema ∧
      ∃ back : Row → Row, coerced.rows = df.rows.map back ∧
        ∀ r ∈ df.rows, ∀ name ∈ fieldNames d.schema, back r name = clean r name := by
  obtain ⟨out, hclean, hout, -, back, hrows, hback⟩ := clean_of_cells wf.names_nodup hcolumns hcells
    fun hmem r hr => ⟨_, hadjustments hmem r hr⟩
  have hcoerced : coercedFrame p d df = .ok out := by
    refine bind_eq_ok.mpr ⟨out, hclean, ?_⟩
    split
    case isTrue => rfl
    case isFalse =>
      unfold applyFixedColumnValues
      rw [hfixed]
      rfl
  refine ⟨out, hcoerced, hout, back, hrows, fun r hr name hname => ?_⟩
  obtain ⟨hother, hadjustment⟩ := hback r hr name hname
  by_cases hne : name = "adjustment"
  · have hsame := hadjustment hne
    rw [hne] at hname hsame ⊢
    rw [hadjustments hname r hr] at hsame
    exact (Except.ok.inj hsame).symm
  · exact hother hne

end Cleaning

/-! Sorted dates -/

section Dates

variable {p : Pandas}

private theorem dateMonotonic_of_sorted {columns : List String} {df : Frame}
    (hdates : ∀ r ∈ df.rows, ∃ day, r "date" = .date day)
    (hsorted : df.rows.Pairwise fun a b =>
      sortKey (columns ++ ["date"]) a ≤ sortKey (columns ++ ["date"]) b) :
    validateDateMonotonicByGroup columns "date" p df = .ok () := by
  unfold validateDateMonotonicByGroup
  split
  case isTrue => rfl
  case isFalse =>
    have hparsed : ∀ day, parsedDate p (.date day) = some (day * nsPerDay) :=
      fun day => p.toDatetime_date day
    refine bind_eq_ok.mpr ⟨(), ite_eq_ok.mpr fun r hr => ?_, ite_eq_ok.mpr fun r hr => ?_⟩
    · obtain ⟨day, hday⟩ := hdates r hr
      rw [hday, hparsed]
      rfl
    · rw [List.pairwise_filterMap]
      refine (hsorted.sublist List.filter_sublist).imp_of_mem fun {a b} ha hb hle => ?_
      obtain ⟨ha, hgroup⟩ := List.mem_filter.mp ha
      obtain ⟨hb, hgroup'⟩ := List.mem_filter.mp hb
      have hsame : rowKey columns a = rowKey columns b :=
        (of_decide_eq_true hgroup).trans (of_decide_eq_true hgroup').symm
      obtain ⟨day, hday⟩ := hdates a ha
      obtain ⟨day', hday'⟩ := hdates b hb
      have happend : ∀ r : Row, sortKey (columns ++ ["date"]) r =
          sortKey columns r ++ [(r "date").rank] := by
        intro r
        simp [sortKey]
      rw [happend, happend, sortKey_of_rowKey hsame, hday, hday'] at hle
      have hle' : day ≤ day' := by
        have hcases : (day : ℚ) < (day' : ℚ) ∨ day = day' := by
          simpa [Cell.rank, Prod.Lex.toLex_le_toLex] using le_of_append_le hle
        rcases hcases with hlt | heq
        · exact le_of_lt (by exact_mod_cast hlt)
        · exact heq.le
      intro x hx y hy
      rw [hday, hparsed] at hx
      rw [hday', hparsed] at hy
      obtain rfl := Option.some.inj hx
      obtain rfl := Option.some.inj hy
      exact Int.mul_le_mul_of_nonneg_right hle' (by decide)

end Dates

/-! The validators -/

/-- A row that was cleaned for a canonical dataset. -/
structure CanonicalRow (schema : Schema) (security : Row) (r : Row) : Prop where
  types : ∀ field ∈ schema, field.type.accepts (r field.name) = true
  identity : ∀ column ∈ ["security_id", "code", "exchange"], r column = security column
  date : ∃ day, r "date" = .date day
  sourceDataset : ∃ s, r "source_dataset" = .text s ∧ strip s ≠ ""
  updatedAt : ∃ ns, r "updated_at" = .stamp ns

section Validators

variable {p : Pandas} {schema : Schema} {security : Row} {df : Frame}

theorem CanonicalRow.filled (hstamps : PrintsStamps p) (hdates : PrintsDates p)
    (hrow : SecurityRow p security) {r : Row} (hr : CanonicalRow schema security r) :
    ∀ column ∈ ["date", "security_id", "code", "exchange", "source_dataset", "updated_at"],
      isBlank p (r column) = false := by
  intro column hcolumn
  simp only [List.mem_cons, List.not_mem_nil, or_false] at hcolumn
  rcases hcolumn with rfl | rfl | rfl | rfl | rfl | rfl
  · obtain ⟨day, hday⟩ := hr.date
    rw [hday]
    exact @not_isBlank p (.date day) _ rfl (hdates day)
  · rw [hr.identity _ (by decide)]
    exact hrow.filled _ (by decide)
  · rw [hr.identity _ (by decide)]
    exact hrow.filled _ (by decide)
  · rw [hr.identity _ (by decide)]
    exact hrow.filled _ (by decide)
  · obtain ⟨s, hs, hne⟩ := hr.sourceDataset
    rw [hs]
    exact not_isBlank (strippedText_text s) hne
  · obtain ⟨ns, hns⟩ := hr.updatedAt
    rw [hns]
    exact @not_isBlank p (.stamp ns) _ rfl (hstamps ns)

private theorem canonicalColumns_of_rows (hrow : SecurityRow p security)
    (hrows : ∀ r ∈ df.rows, CanonicalRow schema security r) :
    validateCanonicalSecurityIdColumns p df = .ok () := by
  unfold validateCanonicalSecurityIdColumns
  split
  case isTrue => rfl
  case isFalse =>
    have hid : ∀ r ∈ df.rows, r "security_id" = security "security_id" :=
      fun r hr => (hrows r hr).identity _ (by decide)
    have hcode : ∀ r ∈ df.rows, r "code" = security "code" :=
      fun r hr => (hrows r hr).identity _ (by decide)
    have hexchange : ∀ r ∈ df.rows, r "exchange" = security "exchange" :=
      fun r hr => (hrows r hr).identity _ (by decide)
    refine bind_eq_ok.mpr ⟨(), ite_eq_ok.mpr fun r hr => ?_, bind_eq_ok.mpr ⟨(),
      ite_eq_ok.mpr fun r hr => ?_, bind_eq_ok.mpr ⟨(), ite_eq_ok.mpr fun r hr => ?_,
      ite_eq_ok.mpr fun r hr => ?_⟩⟩⟩
    · rw [hid r hr]
      exact hrow.securityId
    · rw [hcode r hr]
      exact hrow.code
    · rw [hexchange r hr]
      exact hrow.exchange
    · rw [hid r hr, hcode r hr, hexchange r hr]
      exact hrow.composed

private theorem nonEmptyColumns_of_rows {columns : List String}
    (hrows : ∀ r ∈ df.rows, ∀ column ∈ columns, isBlank p (r column) = false) :
    validateNonEmptyColumns columns p df = .ok () := by
  unfold validateNonEmptyColumns
  split
  case isTrue => rfl
  case isFalse => exact ite_eq_ok.mpr fun column hcolumn r hr => hrows r hr column hcolumn

private theorem adjustment_filled {s : String} (hs : s ∈ adjustments) : strip s = s ∧ s ≠ "" := by
  revert s
  decide +kernel

theorem valid_bars (hstamps : PrintsStamps p) (hdates : PrintsDates p)
    (hrow : SecurityRow p security) (hcolumns : df.columns = fieldNames cnStockDailyBarSchema)
    (hrows : ∀ r ∈ df.rows, CanonicalRow cnStockDailyBarSchema security r ∧
      ∃ s ∈ adjustments, r "adjustment" = .text s)
    (hnodup : (df.rows.map barKey).Nodup)
    (hsorted : df.rows.Pairwise fun a b => sortKey ["security_id", "adjustment", "date"] a ≤
      sortKey ["security_id", "adjustment", "date"] b) :
    validateCnStockDailyBar p df = .ok () := by
  have hcanonical : ∀ r ∈ df.rows, CanonicalRow cnStockDailyBarSchema security r :=
    fun r hr => (hrows r hr).1
  have hschema : validateSchemaMatches cnStockDailyBarSchema p df = .ok () :=
    validateSchemaMatches_eq_ok.mpr
      ⟨hcolumns, fun field hfield r hr => (hcanonical r hr).types field hfield⟩
  have hunique : validateUniqueColumns ["date", "security_id", "adjustment"] p df = .ok () := by
    refine ite_eq_ok.mpr (List.pairwise_map.mpr ?_)
    refine (List.pairwise_map.mp hnodup).imp fun {a b} hne heq => hne ?_
    have hcells := List.map_inj_left.mp heq
    simp only [barKey, rowKey, List.map_cons, List.map_nil, hcells "date" (by decide),
      hcells "adjustment" (by decide)]
  have hfilled : validateNonEmptyColumns ["date", "security_id", "code", "exchange", "adjustment",
      "source_dataset", "updated_at"] p df = .ok () := by
    apply nonEmptyColumns_of_rows
    intro r hr column hcolumn
    have hothers := (hcanonical r hr).filled hstamps hdates hrow
    have hadjustment : isBlank p (r "adjustment") = false := by
      obtain ⟨s, hs, hcell⟩ := (hrows r hr).2
      obtain ⟨hstrip, hne⟩ := adjustment_filled hs
      rw [hcell]
      exact not_isBlank (strippedText_text s) (hstrip.symm ▸ hne)
    simp only [List.mem_cons, List.not_mem_nil, or_false] at hcolumn
    rcases hcolumn with rfl | rfl | rfl | rfl | rfl | rfl | rfl
    · exact hothers _ (by decide)
    · exact hothers _ (by decide)
    · exact hothers _ (by decide)
    · exact hothers _ (by decide)
    · exact hadjustment
    · exact hothers _ (by decide)
    · exact hothers _ (by decide)
  refine bind_eq_ok.mpr ⟨(), hschema, bind_eq_ok.mpr ⟨(), hunique, bind_eq_ok.mpr ⟨(), hfilled,
    bind_eq_ok.mpr ⟨(), canonicalColumns_of_rows hrow hcanonical, ?_⟩⟩⟩⟩
  split
  case isTrue => rfl
  case isFalse =>
    refine bind_eq_ok.mpr ⟨(), ite_eq_ok.mpr fun r hr => ?_, ?_⟩
    · obtain ⟨s, hs, hcell⟩ := (hrows r hr).2
      refine ⟨s, ?_, hs⟩
      rw [hcell]
      exact congrArg some (adjustment_filled hs).1
    · exact dateMonotonic_of_sorted (fun r hr => (hcanonical r hr).date) hsorted

/-- The percentiles of a row lie between 0 and 100. -/
def PercentilesInRange (p : Pandas) (r : Row) : Prop :=
  ∀ mapping ∈ percentileMappings, ∀ x ∈ numericValue p (r mapping.2), 0 ≤ x ∧ x ≤ 100

theorem valid_valuations (hstamps : PrintsStamps p) (hdates : PrintsDates p)
    (hrow : SecurityRow p security) (hcolumns : df.columns = fieldNames cnStockValuationSchema)
    (hrows : ∀ r ∈ df.rows, CanonicalRow cnStockValuationSchema security r ∧ PercentilesInRange p r)
    (hnodup : (df.rows.map fun r => r "date").Nodup)
    (hsorted : df.rows.Pairwise fun a b => sortKey ["security_id", "date"] a ≤
      sortKey ["security_id", "date"] b) :
    validateCnStockValuation p df = .ok () := by
  have hcanonical : ∀ r ∈ df.rows, CanonicalRow cnStockValuationSchema security r :=
    fun r hr => (hrows r hr).1
  have hschema : validateSchemaMatches cnStockValuationSchema p df = .ok () :=
    validateSchemaMatches_eq_ok.mpr
      ⟨hcolumns, fun field hfield r hr => (hcanonical r hr).types field hfield⟩
  have hunique : validateUniqueColumns ["date", "security_id"] p df = .ok () := by
    refine ite_eq_ok.mpr (List.pairwise_map.mpr ?_)
    refine (List.pairwise_map.mp hnodup).imp fun {a b} hne heq => hne ?_
    exact List.map_inj_left.mp heq "date" (by decide)
  have hfilled : validateNonEmptyColumns ["date", "security_id", "code", "exchange",
      "source_dataset", "updated_at"] p df = .ok () :=
    nonEmptyColumns_of_rows fun r hr => (hcanonical r hr).filled hstamps hdates hrow
  refine bind_eq_ok.mpr ⟨(), hschema, bind_eq_ok.mpr ⟨(), hunique, bind_eq_ok.mpr ⟨(), hfilled,
    bind_eq_ok.mpr ⟨(), canonicalColumns_of_rows hrow hcanonical, ?_⟩⟩⟩⟩
  split
  case isTrue => rfl
  case isFalse =>
    refine bind_eq_ok.mpr ⟨(), ite_eq_ok.mpr fun column hcolumn r hr => ?_, ?_⟩
    · have hmapped : ∀ column ∈ (fieldNames cnStockValuationSchema).filter (fun column =>
          column.toList.tails.any ("percentile".toList.isPrefixOf ·)),
          ∃ mapping ∈ percentileMappings, mapping.2 = column := by decide +kernel
      rw [hcolumns] at hcolumn
      obtain ⟨mapping, hmapping, rfl⟩ := hmapped column hcolumn
      exact (hrows r hr).2 mapping hmapping
    · exact dateMonotonic_of_sorted (fun r hr => (hcanonical r hr).date) hsorted

end Validators

/-! The mapped bars -/

structure TypedBar (security : Row) (updatedAt : Int) (bar : Row) : Prop where
  types : ∀ field ∈ cnStockDailyBarSchema, field.name ≠ "volume" → field.name ≠ "updated_at" →
    field.type.accepts (bar field.name) = true
  volume : FieldType.int64.accepts (bar "volume") = true
  identity : ∀ column ∈ securityColumns, bar column = security column
  date : ∃ day, bar "date" = .date day
  sourceDataset : ∃ s, bar "source_dataset" = .text s ∧ strip s ≠ ""
  adjustment : ∃ s ∈ adjustments, bar "adjustment" = .text s
  updatedAt : bar "updated_at" = .stamp updatedAt

section Bars

variable {p : Pandas} {reads : Reads} {st : Store} {security : Row} {updatedAt : Int}

private theorem bar_types {copied : List String} {schema : Schema} {r bar : Row}
    (hrow : SecurityRow p security) (hcopied : ∀ column ∈ copied, bar column = r column)
    (htypes : ∀ field ∈ schema, field.type.accepts (r field.name) = true)
    (hschema : ∀ field ∈ cnStockDailyBarSchema, field.name ∈ copied → field.name ≠ "volume" →
      field ∈ schema)
    (hidentity : ∀ column ∈ securityColumns, bar column = security column)
    (hrest : ∀ field ∈ cnStockDailyBarSchema, field.name ∉ copied → field.name ∉ securityColumns →
      field.name ≠ "updated_at" → field.type.accepts (bar field.name) = true) :
    ∀ field ∈ cnStockDailyBarSchema, field.name ≠ "volume" → field.name ≠ "updated_at" →
      field.type.accepts (bar field.name) = true := by
  have hmaster : ∀ field ∈ cnStockDailyBarSchema, field.name ∈ securityColumns →
      field ∈ cnSecurityMasterSchema := by decide
  intro field hfield hvolume hstamp
  by_cases hname : field.name ∈ copied
  · rw [hcopied _ hname]
    exact htypes field (hschema field hfield hname hvolume)
  · by_cases hsecurity : field.name ∈ securityColumns
    · rw [hidentity _ hsecurity]
      exact hrow.types field (hmaster field hfield hsecurity)
    · exact hrest field hfield hname hsecurity hstamp

theorem partitionRows_types {field : SourceField} {d : DatasetDefinition}
    (hsources : ValidSources p reads st security) (hfield : field ∈ sourceFields)
    (hd : datasetDefinition field.1 = .ok d) : ∀ r ∈ partitionRows p st security field,
      ∀ column ∈ d.schema, column.type.accepts (r column.name) = true := by
  intro r hr column hcolumn
  have haccepted := partitionRows_accepted hsources hfield hd (List.ne_nil_of_mem hr)
  have wf : d.WellFormed := wellFormed_of_mem (mem_datasetCatalog hd).1
  exact (validateSchemaMatches_eq_ok.mp (wf.validator_schema p _ haccepted.valid)).2 column hcolumn r hr

theorem typedBar_baostock (hsources : ValidSources p reads st security)
    (hrow : SecurityRow p security) {bar : Row}
    (hbar : bar ∈ baostockBars p st security updatedAt) : TypedBar security updatedAt bar := by
  obtain ⟨hidentity, hstamp⟩ := bar_cells (List.mem_append_left _ hbar)
  obtain ⟨source, hsource, r, hr, rfl⟩ := mem_baostockBars hbar
  obtain ⟨hfield, hschema⟩ := sources_daily.1 source hsource
  obtain ⟨d, hd, -⟩ := sourceField_definition hfield
  have htypes := partitionRows_types hsources hfield hd r hr
  rw [hschema d hd] at htypes
  have hcopied : ∀ column ∈ copiedColumns ++ baostockColumns,
      mapBaostockRow security updatedAt (columnsOf dailyBarSchema) source.1 source.2 r column =
        r column := by
    have hmem : ∀ column ∈ copiedColumns ++ baostockColumns,
        column ∈ (columnsOf dailyBarSchema).columns := by decide
    intro column hcolumn
    unfold mapBaostockRow
    rw [if_pos hcolumn]
    exact if_pos (hmem column hcolumn)
  have hnames : ∀ source ∈ baostockDailySources, strip source.1 ≠ "" ∧ source.2 ∈ adjustments := by
    decide +kernel
  refine ⟨bar_types hrow hcopied htypes (by decide) hidentity ?_, ?_, hidentity, ?_,
    ⟨source.1, rfl, (hnames source hsource).1⟩, ⟨source.2, (hnames source hsource).2, rfl⟩, hstamp⟩
  · intro field hfield hname hsecurity hupdated
    simp only [cnStockDailyBarSchema, List.mem_cons, List.not_mem_nil, or_false] at hfield
    rcases hfield with rfl | rfl | rfl | rfl | rfl | rfl | rfl | rfl | rfl | rfl | rfl | rfl | rfl |
      rfl | rfl | rfl | rfl | rfl | rfl | rfl | rfl | rfl
    all_goals first
      | rfl
      | exact absurd (by decide) hname
      | exact absurd (by decide) hsecurity
      | exact absurd rfl hupdated
  · rw [hcopied "volume" (by decide)]
    exact htypes ⟨"volume", .int64⟩ (by decide)
  · rw [hcopied "date" (by decide)]
    exact partitionRows_dates hsources hfield r hr

theorem typedBar_akshare (hsources : ValidSources p reads st security)
    (hrow : SecurityRow p security) {bar : Row}
    (hbar : bar ∈ akshareBars p st security updatedAt) : TypedBar security updatedAt bar := by
  obtain ⟨hidentity, hstamp⟩ := bar_cells (List.mem_append_right _ hbar)
  obtain ⟨source, hsource, r, hr, rfl⟩ := mem_akshareBars hbar
  obtain ⟨hfield, hschema⟩ := sources_daily.2 source hsource
  obtain ⟨d, hd, -⟩ := sourceField_definition hfield
  have htypes := partitionRows_types hsources hfield hd r hr
  rw [hschema d hd] at htypes
  have hcopied : ∀ column ∈ copiedColumns,
      mapAkshareRow p security updatedAt (columnsOf akshareDailyBarSchema) source.1 source.2 r column =
        r column := by
    have hmem : ∀ column ∈ copiedColumns,
        column ∈ (columnsOf akshareDailyBarSchema).columns := by decide
    intro column hcolumn
    unfold mapAkshareRow
    rw [if_pos hcolumn]
    exact if_pos (hmem column hcolumn)
  have hnames : ∀ source ∈ akshareDailySources, strip source.1 ≠ "" ∧ source.2 ∈ adjustments := by
    decide +kernel
  refine ⟨bar_types hrow hcopied htypes (by decide) hidentity ?_, ?_, hidentity, ?_,
    ⟨source.1, rfl, (hnames source hsource).1⟩, ⟨source.2, (hnames source hsource).2, rfl⟩, hstamp⟩
  · intro field hfield hname hsecurity hupdated
    simp only [cnStockDailyBarSchema, List.mem_cons, List.not_mem_nil, or_false] at hfield
    rcases hfield with rfl | rfl | rfl | rfl | rfl | rfl | rfl | rfl | rfl | rfl | rfl | rfl | rfl |
      rfl | rfl | rfl | rfl | rfl | rfl | rfl | rfl | rfl
    all_goals first
      | rfl
      | exact absurd (by decide) hname
      | exact absurd (by decide) hsecurity
      | exact absurd rfl hupdated
  · rw [hcopied "volume" (by decide)]
    exact htypes ⟨"volume", .int64⟩ (by decide)
  · rw [hcopied "date" (by decide)]
    exact partitionRows_dates hsources hfield r hr

/-- A cell of a column of integers that is coerced to a column of floats. -/
def asReal : Cell → Cell
  | .int n => .real n
  | c => c

def cleanedBar (updatedAt : Int) (bar : Row) : Row := fun name =>
  if name = "updated_at" then .stamp (storedStamp updatedAt)
  else if name = "volume" then asReal (bar "volume")
  else bar name

private theorem accepts_asReal {c : Cell} (hc : FieldType.int64.accepts c = true) :
    FieldType.float64.accepts (asReal c) = true := by
  cases c with
  | null => rfl
  | int n => rfl
  | bool | real | text | date | stamp => cases hc

private theorem coerceCell_integers {c : Cell} (hc : FieldType.int64.accepts c = true) :
    coerceCell p .integer .float64 c = .ok (asReal c) := by
  cases c with
  | null => rfl
  | int n => rfl
  | bool | real | text | date | stamp => cases hc

theorem accepts_storedStamp (ns : Int) : FieldType.timestamp.accepts (.stamp (storedStamp ns)) = true :=
  beq_iff_eq.mpr (Int.mul_emod_left _ _)

theorem TypedBar.coerces {bar : Row} (hbar : TypedBar security updatedAt bar) {df : Frame}
    (hvolume : df.dtype "volume" = .integer) : ∀ field ∈ cnStockDailyBarSchema,
      coerceCell p (df.dtype field.name) field.type (bar field.name) =
        .ok (cleanedBar updatedAt bar field.name) := by
  have htype : ∀ field ∈ cnStockDailyBarSchema,
      (field.name = "updated_at" → field.type = .timestamp) ∧
        (field.name = "volume" → field.type = .float64) := by decide
  intro field hfield
  obtain ⟨hstampType, hvolumeType⟩ := htype field hfield
  unfold cleanedBar
  by_cases hstamp : field.name = "updated_at"
  · rw [if_pos hstamp, hstampType hstamp, hstamp, hbar.updatedAt]
    exact coerceCell_stamp _ _
  · rw [if_neg hstamp]
    by_cases hname : field.name = "volume"
    · rw [if_pos hname, hvolumeType hname, hname, hvolume]
      exact coerceCell_integers hbar.volume
    · rw [if_neg hname]
      exact coerceCell_of_accepts p _ (hbar.types field hfield hname hstamp)

theorem TypedBar.canonicalRow {bar r : Row} (hbar : TypedBar security updatedAt bar)
    (hr : ∀ name ∈ fieldNames cnStockDailyBarSchema, r name = cleanedBar updatedAt bar name) :
    CanonicalRow cnStockDailyBarSchema security r ∧ ∃ s ∈ adjustments, r "adjustment" = .text s := by
  have hsame : ∀ name ∈ fieldNames cnStockDailyBarSchema, name ≠ "updated_at" → name ≠ "volume" →
      r name = bar name := by
    intro name hname hstamp hvolume
    rw [hr name hname]
    unfold cleanedBar
    rw [if_neg hstamp, if_neg hvolume]
  have hstamp : r "updated_at" = .stamp (storedStamp updatedAt) := hr "updated_at" (by decide)
  have hvolume : r "volume" = asReal (bar "volume") := hr "volume" (by decide)
  refine ⟨⟨?_, ?_, ?_, ?_, ⟨_, hstamp⟩⟩, ?_⟩
  · have htype : ∀ field ∈ cnStockDailyBarSchema,
        (field.name = "updated_at" → field.type = .timestamp) ∧
          (field.name = "volume" → field.type = .float64) := by decide
    intro field hfield
    obtain ⟨hstampType, hvolumeType⟩ := htype field hfield
    by_cases hname : field.name = "updated_at"
    · rw [hstampType hname, hname, hstamp]
      exact accepts_storedStamp updatedAt
    · by_cases hname' : field.name = "volume"
      · rw [hvolumeType hname', hname', hvolume]
        exact accepts_asReal hbar.volume
      · rw [hsame _ (List.mem_map_of_mem hfield) hname hname']
        exact hbar.types field hfield hname' hname
  · intro column hcolumn
    have hsecurity : ∀ column ∈ ["security_id", "code", "exchange"],
        column ∈ fieldNames cnStockDailyBarSchema ∧ column ≠ "updated_at" ∧ column ≠ "volume" ∧
          column ∈ securityColumns := by decide
    obtain ⟨hname, hne, hne', hmem⟩ := hsecurity column hcolumn
    rw [hsame column hname hne hne', hbar.identity column hmem]
  · rw [hsame "date" (by decide) (by decide) (by decide)]
    exact hbar.date
  · rw [hsame "source_dataset" (by decide) (by decide) (by decide)]
    exact hbar.sourceDataset
  · rw [hsame "adjustment" (by decide) (by decide) (by decide)]
    exact hbar.adjustment

end Bars

/-! The store takes the frames -/

/-- The preparation of a write (cleaning, sorting and the validator) accepts the frame, also for the
partition of the security if its id has no blanks around it. -/
structure StoreAccepts (p : Pandas) (d : DatasetDefinition) (security : Row) (df : Frame) : Prop where
  validated : ∀ env, ∃ prepared, prepareDatasetFrame p env d df none true = .ok prepared
  partitioned : (∀ s, security "security_id" = .text s → strip s = s) → ∀ env, ∃ prepared,
    prepareDatasetFrame p env d df
      (securityPartition (cleanString p (security "security_id"))) true = .ok prepared

section Accepts

variable {p : Pandas} {d : DatasetDefinition} {security : Row} {df coerced : Frame}

/-- A coerced frame is accepted if the validator accepts its rows in every order that the store may
sort them in, and they have the id of the security. -/
theorem storeAccepts_of_coerced (wf : d.WellFormed) (hpartition : d.partitionColumn = some "security_id")
    (hrow : SecurityRow p security) (hcoerced : coercedFrame p d df = .ok coerced)
    (hvalid : ∀ env, d.validator p
      { coerced with rows := sortValues env d.sortColumns coerced.rows } = .ok ())
    (hids : ∀ r ∈ coerced.rows, r "security_id" = security "security_id") :
    StoreAccepts p d security df := by
  have hprepares : ∀ env partition,
      (coerced.rows ≠ [] → checkPartition p d coerced partition = .ok ()) →
        ∃ prepared, prepareDatasetFrame p env d df partition true = .ok prepared := by
    intro env partition hcheck
    exact ⟨_, bind_eq_ok.mpr ⟨_, (prepareUnvalidated_eq_ok wf).mpr ⟨coerced, hcoerced, hcheck, rfl⟩,
      bind_eq_ok.mpr ⟨(), hvalid env, rfl⟩⟩⟩
  refine ⟨fun env => hprepares env none fun _ => ?_, fun hunpadded env => hprepares env _ fun _ => ?_⟩
  · simp only [checkPartition, hpartition]
  · obtain ⟨s, hs⟩ : ∃ s, security "security_id" = .text s := by
      have htype := hrow.types ⟨"security_id", .string⟩ (by decide)
      have hfilled := hrow.filled "security_id" (by decide)
      apply Research.eq_text_of_accepts htype
      rintro hnull
      rw [hnull] at hfilled
      cases hfilled
    have hid : cleanString p (security "security_id") = s := by
      rw [hs]
      exact hunpadded s hs
    have hne : s ≠ "" := by
      intro hempty
      have hfilled := hrow.filled "security_id" (by decide)
      rw [hs, hempty, isBlank_empty] at hfilled
      cases hfilled
    have hvalue : partitionValue p d (securityPartition s) = .ok s := by
      have hother : ("security_id" : String) ≠ "code" := by decide
      simp only [partitionValue, securityPartition, hpartition, if_true, normalizePartitionValue,
        if_neg fun hboth : "security_id" = "code" ∧ d.codeFormat = .sixDigit => hother hboth.1,
        Pandas.str, hunpadded s hs, if_neg hne]
    rw [hid, checkPartition_eq_ok hvalue]
    intro r hr column hcolumn
    rw [hpartition] at hcolumn
    obtain rfl := Option.some.inj hcolumn
    rw [hids r hr, hs]
    exact ⟨Cell.noConfusion, rfl⟩

end Accepts

end QuantDataCenter.Derived
