import QuantDataCenter.Derived.CanonicalRows

/-!
The rows of the canonical valuations: one for each date of the AkShare valuations or the Baostock
percentiles of a security, joined from the last row that each of them has for the date.
-/

set_option autoImplicit false
set_option relaxedAutoImplicit false

namespace QuantDataCenter.Derived

open QuantDataCenter.Lib QuantDataCenter.Lib.Checked QuantDataCenter.Lib.Keyed
open QuantDataCenter.Tabular QuantDataCenter.Quality QuantDataCenter.Storage

def akshareValuationField : SourceField := (akshareValuationDataset, "akshare_code")

def baostockPercentileField : SourceField := (baostockPercentileDataset, "baostock_code")

/-- The merged columns with their columns in the Baostock percentiles. -/
def mergedColumns : List (String × String) :=
  [("pe_ttm", "pe_ttm"), ("pb", "pb_mrq"), ("ps", "ps_ttm"), ("pcf", "pcf_ncf_ttm")]

def rowOfDate (rows : List Row) (day : Int) : Option Row :=
  lastSat (fun r => decide (r "date" = .date day)) rows

/-- A row of the valuations is joined from the rows of its date, the merged columns preferring
AkShare. -/
structure JoinedRow (security : Row) (updatedAt : Int) (akshare baostock : List Row) (day : Int)
    (r : Row) : Prop where
  row : r = valuationRow day security (rowOfDate akshare day) (rowOfDate baostock day) updatedAt
  merged : ∀ columns ∈ mergedColumns, r columns.1 =
    if valueOf (rowOfDate akshare day) columns.1 ≠ .null then
      valueOf (rowOfDate akshare day) columns.1
    else valueOf (rowOfDate baostock day) columns.2

/-- One row for each date of the two sources. -/
structure JoinedByDate (security : Row) (updatedAt : Int) (rows akshare baostock : List Row) :
    Prop where
  distinct : (rows.map fun r => r "date").Nodup
  covered : ∀ source ∈ akshare ++ baostock, ∃ r ∈ rows, r "date" = source "date"
  joined : ∀ r ∈ rows, ∃ day, r "date" = .date day ∧
    (∃ source ∈ akshare ++ baostock, source "date" = .date day) ∧
    JoinedRow security updatedAt akshare baostock day r

/-! Rows that were read -/

section Rows

variable {p : Pandas} {reads : Reads} {st : Store} {security : Row} {updatedAt : Int}

theorem valuationRow_merged (day : Int) (akshare baostock : Option Row) :
    ∀ columns ∈ mergedColumns, valuationRow day security akshare baostock updatedAt columns.1 =
      if valueOf akshare columns.1 ≠ .null then valueOf akshare columns.1
      else valueOf baostock columns.2 := by
  have hfirst : ∀ first second : Cell,
      firstNonNull first second = if first ≠ .null then first else second := by
    intro first second
    unfold firstNonNull
    by_cases hnull : first = .null
    · rw [if_pos hnull, if_neg (not_not.mpr hnull)]
    · rw [if_neg hnull, if_pos hnull]
  intro columns hcolumns
  simp only [mergedColumns, List.mem_cons, List.not_mem_nil, or_false] at hcolumns
  rcases hcolumns with rfl | rfl | rfl | rfl
  all_goals exact hfirst _ _

private theorem valuationRow_congr {day : Int} {akshare akshare' baostock baostock' : Option Row}
    (hakshare : ∀ column ∈ fieldNames akshareValuationEastmoneySchema,
      valueOf akshare column = valueOf akshare' column)
    (hbaostock : ∀ column ∈ fieldNames baostockValuationPercentileSchema,
      valueOf baostock column = valueOf baostock' column)
    (hsome : akshare.isSome = akshare'.isSome) (hsome' : baostock.isSome = baostock'.isSome) :
    valuationRow day security akshare baostock updatedAt =
      valuationRow day security akshare' baostock' updatedAt := by
  have hpercentiles : percentileMappings.map (fun mapping => (mapping.2, valueOf baostock mapping.1)) =
      percentileMappings.map fun mapping => (mapping.2, valueOf baostock' mapping.1) := by
    refine List.map_congr_left fun mapping hmapping => ?_
    have hcolumn : ∀ mapping ∈ percentileMappings,
        mapping.1 ∈ fieldNames baostockValuationPercentileSchema := by decide +kernel
    rw [hbaostock _ (hcolumn mapping hmapping)]
  unfold valuationRow
  rw [hpercentiles, hakshare "close" (by decide), hakshare "total_market_cap" (by decide),
    hakshare "float_market_cap" (by decide), hakshare "total_shares" (by decide),
    hakshare "float_shares" (by decide), hakshare "pe_ttm" (by decide),
    hakshare "pe_static" (by decide), hakshare "pb" (by decide), hakshare "ps" (by decide),
    hakshare "pcf" (by decide), hbaostock "pe_ttm" (by decide), hbaostock "pb_mrq" (by decide),
    hbaostock "ps_ttm" (by decide), hbaostock "pcf_ncf_ttm" (by decide), hsome, hsome']

private theorem dateValue_date (day : Int) : dateValue p (.date day) = some day := by
  have hday : day * nsPerDay / nsPerDay = day := Int.mul_ediv_cancel day (by decide)
  simp only [dateValue, parsedDate, p.toDatetime_date, Option.map_some, hday]

private theorem get_rowsByDate {rows : List Row} {back : Row → Row}
    (hdates : ∀ r ∈ rows, ∃ day, r "date" = .date day)
    (hback : ∀ r ∈ rows, back r "date" = r "date") (day : Int) :
    Dict.get day (rowsByDate p (rows.map back)) = (rowOfDate rows day).map back := by
  have hfilter : (rows.map back).filter (fun r => decide (dateValue p (r "date") = some day)) =
      (rows.filter fun r => decide (r "date" = .date day)).map back := by
    rw [List.filter_map]
    congr 1
    refine List.filter_congr fun r hr => ?_
    obtain ⟨day', hday'⟩ := hdates r hr
    simp only [Function.comp_apply, hback r hr, hday', dateValue_date, Option.some.injEq,
      Cell.date.injEq]
  unfold rowsByDate
  rw [Dict.get_foldl_setNamed, hfilter]
  simp [Dict.get, rowOfDate, lastSat, List.getLast?_map]

end Rows

section Materialize

variable {p : Pandas} {reads : Reads} {st : Store} {security : Row} {updatedAt : Int}

private theorem valuationSource_rows {field : SourceField} {d : DatasetDefinition}
    (hsources : ValidSources p reads st security) (hfield : field ∈ sourceFields)
    (hd : datasetDefinition field.1 = .ok d) (hadjustment : "adjustment" ∉ fieldNames d.schema)
    (hdigits : field.2 = "akshare_code" → cleanString p (security field.2) ≠ "" →
      p.sixDigits (cleanString p (security field.2)).toList = true) :
    ∃ df back, valuationSource p reads st field.1 (cleanString p (security field.2)) = .ok df ∧
      df.rows = (partitionRows p st security field).map back ∧
      ∀ r ∈ partitionRows p st security field, ∀ name ∈ fieldNames d.schema, back r name = r name := by
  by_cases hcode : cleanString p (security field.2) = ""
  · refine ⟨⟨[], fun _ => .object, []⟩, id, ?_, ?_, fun _ _ _ _ => rfl⟩
    · simp only [valuationSource, if_pos hcode]
    · simp only [partitionRows, if_pos hcode, List.map_nil]
  · obtain ⟨d', df, hd', hread, hback⟩ := readSource hsources hfield hcode fun heq => hdigits heq hcode
    rw [hd] at hd'
    obtain rfl := Except.ok.inj hd'
    obtain ⟨back, hrows, hcells⟩ := hback.rows
    refine ⟨df, back, ?_, hrows, fun r hr name hname => ?_⟩
    · simp only [valuationSource, if_neg hcode]
      exact hread
    · exact hcells r hr name hname fun heq => hadjustment (heq ▸ hname)

private theorem rowOfDate_isSome {rows : List Row} {day : Int} :
    (rowOfDate rows day).isSome = true ↔ ∃ r ∈ rows, r "date" = .date day := by
  constructor
  · intro hsome
    obtain ⟨r, hr⟩ := Option.isSome_iff_exists.mp hsome
    obtain ⟨hmem, hdate⟩ := mem_of_lastSat hr
    exact ⟨r, hmem, of_decide_eq_true hdate⟩
  · rintro ⟨r, hr, hdate⟩
    exact Option.isSome_iff_exists.mpr
      (@lastSat_isSome _ (fun r : Row => decide (r "date" = .date day)) _ _ hr (decide_eq_true hdate))

private theorem valueOf_map {rows : List Row} {back : Row → Row} {day : Int} {column : String}
    (hback : ∀ r ∈ rows, back r column = r column) :
    valueOf ((rowOfDate rows day).map back) column = valueOf (rowOfDate rows day) column := by
  cases hlast : rowOfDate rows day with
  | none => rfl
  | some r => exact hback r (mem_of_lastSat hlast).1

def joinedDates (p : Pandas) (akshare baostock : List Row) : List Int :=
  stableSort id ((rowsByDate p akshare ++ rowsByDate p baostock).map Prod.fst).eraseDups

private theorem nodup_joinedDates (akshare baostock : List Row) :
    (joinedDates p akshare baostock).Nodup :=
  (stableSort_perm _ _).nodup_iff.mpr (nodup_eraseDups _)

private theorem mem_joinedDates {akshare baostock : List Row} {day : Int} :
    day ∈ joinedDates p akshare baostock ↔
      (Dict.get day (rowsByDate p akshare)).isSome = true ∨
        (Dict.get day (rowsByDate p baostock)).isSome = true := by
  have hkeys : ∀ d : Dict Int Row, day ∈ d.map Prod.fst ↔ (Dict.get day d).isSome = true := by
    intro d
    constructor
    · intro hday
      obtain ⟨e, he, rfl⟩ := List.mem_map.mp hday
      exact Dict.get_isSome_of_mem he
    · intro hsome
      obtain ⟨r, hr⟩ := Option.isSome_iff_exists.mp hsome
      exact List.mem_map_of_mem (f := Prod.fst) (Dict.mem_of_get hr)
  unfold joinedDates
  rw [(stableSort_perm _ _).mem_iff, List.mem_eraseDups, List.map_append, List.mem_append, hkeys,
    hkeys]

private theorem joinedByDate {akshare baostock : List Row} {back back' : Row → Row}
    (hdates : ∀ r ∈ akshare ++ baostock, ∃ day, r "date" = .date day)
    (hback : ∀ r ∈ akshare, ∀ name ∈ fieldNames akshareValuationEastmoneySchema, back r name = r name)
    (hback' : ∀ r ∈ baostock, ∀ name ∈ fieldNames baostockValuationPercentileSchema,
      back' r name = r name) :
    JoinedByDate security updatedAt
      ((joinedDates p (akshare.map back) (baostock.map back')).map fun day =>
        valuationRow day security (Dict.get day (rowsByDate p (akshare.map back)))
          (Dict.get day (rowsByDate p (baostock.map back'))) updatedAt) akshare baostock := by
  have hget : ∀ day, Dict.get day (rowsByDate p (akshare.map back)) =
      (rowOfDate akshare day).map back := fun day =>
    get_rowsByDate (fun r hr => hdates r (List.mem_append_left _ hr))
      (fun r hr => hback r hr "date" (by decide)) day
  have hget' : ∀ day, Dict.get day (rowsByDate p (baostock.map back')) =
      (rowOfDate baostock day).map back' := fun day =>
    get_rowsByDate (fun r hr => hdates r (List.mem_append_right _ hr))
      (fun r hr => hback' r hr "date" (by decide)) day
  have hmem : ∀ day, day ∈ joinedDates p (akshare.map back) (baostock.map back') ↔
      ∃ source ∈ akshare ++ baostock, source "date" = .date day := by
    intro day
    rw [mem_joinedDates, hget, hget', Option.isSome_map, Option.isSome_map, rowOfDate_isSome,
      rowOfDate_isSome]
    simp only [List.mem_append, or_and_right, exists_or]
  refine ⟨?_, ?_, ?_⟩
  · rw [List.map_map]
    refine (nodup_joinedDates (akshare.map back) (baostock.map back')).map ?_
    intro day day' heq
    exact Cell.date.inj heq
  · intro source hsource
    obtain ⟨day, hday⟩ := hdates source hsource
    refine ⟨_, List.mem_map_of_mem ((hmem day).mpr ⟨source, hsource, hday⟩), ?_⟩
    rw [hday]
    rfl
  · intro r hr
    obtain ⟨day, hday, rfl⟩ := List.mem_map.mp hr
    have hsame : valuationRow day security (Dict.get day (rowsByDate p (akshare.map back)))
        (Dict.get day (rowsByDate p (baostock.map back'))) updatedAt =
          valuationRow day security (rowOfDate akshare day) (rowOfDate baostock day) updatedAt := by
      rw [hget, hget']
      apply valuationRow_congr
      · exact fun column hcolumn => valueOf_map fun r hr => hback r hr column hcolumn
      · exact fun column hcolumn => valueOf_map fun r hr => hback' r hr column hcolumn
      · exact Option.isSome_map
      · exact Option.isSome_map
    refine ⟨day, rfl, (hmem day).mp hday, hsame, fun columns hcolumns => ?_⟩
    simp only [hsame]
    exact valuationRow_merged day _ _ columns hcolumns

theorem materialize_valuations (hsources : ValidSources p reads st security)
    (hrow : SecurityRow p security) :
    ∃ rows, materializeSecurityValuation p reads st security updatedAt = .ok (valuationFrame rows) ∧
      JoinedByDate security updatedAt rows (partitionRows p st security akshareValuationField)
        (partitionRows p st security baostockPercentileField) := by
  have hakshareField : akshareValuationField ∈ sourceFields := by decide
  have hbaostockField : baostockPercentileField ∈ sourceFields := by decide
  obtain ⟨akshare, back, hakshare, hakshareRows, hback⟩ :=
    @valuationSource_rows p reads st security akshareValuationField _ hsources hakshareField rfl
      (by decide) fun _ hcode => hrow.akshare_digits hcode
  obtain ⟨baostock, back', hbaostock, hbaostockRows, hback'⟩ :=
    @valuationSource_rows p reads st security baostockPercentileField _ hsources hbaostockField rfl
      (by decide) fun heq => absurd heq (by decide)
  have hdates : ∀ r ∈ partitionRows p st security akshareValuationField ++
      partitionRows p st security baostockPercentileField, ∃ day, r "date" = .date day := by
    intro r hr
    rcases List.mem_append.mp hr with hmem | hmem
    · exact partitionRows_dates hsources hakshareField r hmem
    · exact partitionRows_dates hsources hbaostockField r hmem
  unfold materializeSecurityValuation
  have hfirst : valuationSource p reads st akshareValuationDataset
      (cleanString p (security "akshare_code")) = .ok akshare := hakshare
  have hsecond : valuationSource p reads st baostockPercentileDataset
      (cleanString p (security "baostock_code")) = .ok baostock := hbaostock
  rw [hfirst, hsecond]
  simp only [Bind.bind, Except.bind]
  split
  case isTrue hnone =>
    obtain ⟨hnil, hnil'⟩ := hnone
    rw [hakshareRows, List.map_eq_nil_iff] at hnil
    rw [hbaostockRows, List.map_eq_nil_iff] at hnil'
    refine ⟨[], rfl, ?_⟩
    rw [hnil, hnil']
    refine ⟨List.nodup_nil, ?_, ?_⟩
    · intro source hsource
      cases hsource
    · intro r hr
      cases hr
  case isFalse =>
    rw [hakshareRows, hbaostockRows]
    exact ⟨_, rfl, joinedByDate hdates hback hback'⟩

end Materialize

end QuantDataCenter.Derived
