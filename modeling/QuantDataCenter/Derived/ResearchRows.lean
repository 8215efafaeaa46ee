import QuantDataCenter.Derived.ResearchView
import QuantDataCenter.Storage.Preparation

/-!
When does a row of the research view belong to one security? The query tells
codes apart by six digits only.
-/

set_option autoImplicit false
set_option relaxedAutoImplicit false

namespace QuantDataCenter.Derived.Research

open QuantDataCenter.Lib.Checked QuantDataCenter.Lib.Relational QuantDataCenter.Tabular
open QuantDataCenter.Storage QuantDataCenter.Quality

/-! Accepted rows -/

structure Accepted (schema : Schema) (dateColumn : String) (rows : List Row) : Prop where
  types : ∀ r ∈ rows, ∀ field ∈ schema, field.type.accepts (r field.name) = true
  code : ∀ r ∈ rows, ∃ s, r "code" = .text s
  date : ∀ r ∈ rows, ∃ day, r dateColumn = .date day
  nodup : (rows.map (rowKey ["code", dateColumn])).Nodup

structure AcceptedBars (bars : BarRows) : Prop where
  unadjusted : Accepted dailyBarSchema "date" bars.unadjusted
  qfq : Accepted dailyBarSchema "date" bars.qfq
  hfq : Accepted dailyBarSchema "date" bars.hfq
  factors : Accepted baostockCnStockAdjustmentFactorSchema "dividend_operate_date" bars.factors

/-- The file of a partition, accepted by the validator, has the rows of its code. -/
structure AcceptedPartition (p : Pandas) (d : DatasetDefinition) (value : String)
    (rows : List Row) : Prop where
  valid : ∃ dtype, d.validator p ⟨fieldNames d.schema, dtype, rows⟩ = .ok ()
  inPartition : ∀ r ∈ rows, InPartition p d value r

theorem eq_text_of_accepts {c : Cell} (h : FieldType.string.accepts c = true) (hne : c ≠ .null) :
    ∃ s, c = .text s := by
  cases c with
  | text s => exact ⟨s, rfl⟩
  | null => exact absurd rfl hne
  | bool | int | real | date | stamp => cases h

theorem eq_date_of_accepts {c : Cell} (h : FieldType.date32.accepts c = true) (hne : c ≠ .null) :
    ∃ day, c = .date day := by
  cases c with
  | date day => exact ⟨day, rfl⟩
  | null => exact absurd rfl hne
  | bool | int | real | text | stamp => cases h

/-- A validator with the three checks of the bars and of the factors. -/
structure DatedValidator (d : DatasetDefinition) (dateColumn : String) : Prop where
  checks : ∀ p df, d.validator p df = .ok () →
    validateSchemaMatches d.schema p df = .ok () ∧
      validateUniqueColumns ["code", dateColumn] p df = .ok () ∧
      validateDateMonotonicByGroup ["code"] dateColumn p df = .ok ()
  partitionColumn : d.partitionColumn = some "code"
  code : ⟨"code", .string⟩ ∈ d.schema
  date : ⟨dateColumn, .date32⟩ ∈ d.schema

theorem datedValidator_bars (id : String) : DatedValidator (dailyBarDataset id) "date" := by
  refine ⟨fun p df hvalid => ?_, rfl, ?_, ?_⟩
  · obtain ⟨u, hschema, hrest⟩ := bind_eq_ok.mp hvalid
    obtain ⟨u', hunique, hdates⟩ := bind_eq_ok.mp hrest
    exact ⟨hschema, hunique, hdates⟩
  · exact List.mem_cons_of_mem _ List.mem_cons_self
  · exact List.mem_cons_self

private theorem datedValidator_factors :
    DatedValidator baostockCnStockAdjustmentFactorDataset "dividend_operate_date" := by
  refine ⟨fun p df hvalid => ?_, rfl, by decide, by decide⟩
  obtain ⟨u, hschema, hrest⟩ := bind_eq_ok.mp hvalid
  obtain ⟨u', hunique, hdates⟩ := bind_eq_ok.mp hrest
  exact ⟨hschema, hunique, hdates⟩

theorem parsed_of_monotonic {columns : List String} {dateColumn : String} {p : Pandas} {df : Frame}
    (h : validateDateMonotonicByGroup columns dateColumn p df = .ok ()) :
    ∀ r ∈ df.rows, r dateColumn ≠ .null := by
  intro r hr hnull
  unfold validateDateMonotonicByGroup at h
  rw [if_neg (List.ne_nil_of_mem hr)] at h
  obtain ⟨u, hparsed, -⟩ := bind_eq_ok.mp h
  have hsome := (ite_eq_ok.mp hparsed) r hr
  rw [hnull] at hsome
  cases hsome

section Partition

variable {p : Pandas} {d : DatasetDefinition} {dateColumn value : String} {rows : List Row}

theorem AcceptedPartition.accepted (h : AcceptedPartition p d value rows)
    (hd : DatedValidator d dateColumn) :
    Accepted d.schema dateColumn rows ∧ ∀ r ∈ rows, r "code" = .text value := by
  obtain ⟨dtype, hvalid⟩ := h.valid
  obtain ⟨hschema, hunique, hdates⟩ := hd.checks p _ hvalid
  have htypes := (validateSchemaMatches_eq_ok.mp hschema).2
  have hcode : ∀ r ∈ rows, r "code" = .text value := by
    intro r hr
    obtain ⟨hne, hvalue⟩ := h.inPartition r hr "code" hd.partitionColumn
    obtain ⟨s, hs⟩ := eq_text_of_accepts (htypes _ hd.code r hr) hne
    rw [hs] at hvalue ⊢
    exact congrArg Cell.text hvalue
  refine ⟨⟨fun r hr field hfield => htypes field hfield r hr, fun r hr => ⟨value, hcode r hr⟩,
    fun r hr => ?_, ite_eq_ok.mp hunique⟩, hcode⟩
  exact eq_date_of_accepts (htypes _ hd.date r hr) (parsed_of_monotonic hdates r hr)

private theorem accepted_flatMap {values : List String} {rowsOf : String → List Row}
    (hvalues : values.Nodup) (hd : DatedValidator d dateColumn)
    (h : ∀ value ∈ values, AcceptedPartition p d value (rowsOf value)) :
    Accepted d.schema dateColumn (values.flatMap rowsOf) := by
  induction values with
  | nil => exact ⟨by simp, by simp, by simp, List.nodup_nil⟩
  | cons value values ih =>
    obtain ⟨hnot, hvalues⟩ := List.nodup_cons.mp hvalues
    obtain ⟨hfirst, hcode⟩ := (h value List.mem_cons_self).accepted hd
    have hrest := ih hvalues fun v hv => h v (List.mem_cons_of_mem _ hv)
    have happend : ∀ {P : Row → Prop}, (∀ r ∈ rowsOf value, P r) →
        (∀ r ∈ values.flatMap rowsOf, P r) → ∀ r ∈ (value :: values).flatMap rowsOf, P r := by
      intro P hone hmany r hr
      rcases List.mem_append.mp (List.flatMap_cons ▸ hr) with hr | hr
      · exact hone r hr
      · exact hmany r hr
    refine ⟨happend hfirst.types hrest.types, happend hfirst.code hrest.code,
      happend hfirst.date hrest.date, ?_⟩
    rw [List.flatMap_cons, List.map_append]
    refine hfirst.nodup.append hrest.nodup fun key hkey hother => ?_
    obtain ⟨r, hr, rfl⟩ := List.mem_map.mp hkey
    obtain ⟨r', hr', heq⟩ := List.mem_map.mp hother
    obtain ⟨other, hv, hr'⟩ := List.mem_flatMap.mp hr'
    have hcode' := ((h other (List.mem_cons_of_mem _ hv)).accepted hd).2 r' hr'
    have hsame : r' "code" = r "code" := (List.cons.inj heq).1
    rw [hcode', hcode r hr] at hsame
    obtain rfl := Cell.text.inj hsame
    exact hnot hv

end Partition

def researchDatasets : List DatasetDefinition :=
  [unadjustedBars, qfqBars, hfqBars, baostockCnStockAdjustmentFactorDataset]

private theorem acceptedBars_barRows {p : Pandas} {st : Store} {partitions : String → List String}
    (hlisted : ∀ d ∈ researchDatasets, (partitions d.id).Nodup)
    (haccepted : ∀ d ∈ researchDatasets, ∀ value ∈ partitions d.id,
      AcceptedPartition p d value (content st d value)) :
    AcceptedBars (barRows st partitions) := by
  have hmem : ∀ d ∈ researchDatasets, ∀ dateColumn, DatedValidator d dateColumn →
      Accepted d.schema dateColumn (datasetRows st partitions d) := fun d hd dateColumn hdated =>
    accepted_flatMap (hlisted d hd) hdated (haccepted d hd)
  exact ⟨hmem unadjustedBars (by simp [researchDatasets]) _ (datedValidator_bars _),
    hmem qfqBars (by simp [researchDatasets]) _ (datedValidator_bars _),
    hmem hfqBars (by simp [researchDatasets]) _ (datedValidator_bars _),
    hmem baostockCnStockAdjustmentFactorDataset (by simp [researchDatasets]) _
      datedValidator_factors⟩

/-! The rows of one code -/

/-- The value of the code's own row on the date, missing if there is no such row. -/
def ownCell (rows : List Row) (dateColumn : String) (code date : Cell) : Row := fun column =>
  match rows.find? fun r => r "code" = code ∧ r dateColumn = date with
  | some r => r column
  | none => .null

/-- A row of the date whose code has the same six digits. -/
def SameDigits (dateColumn : String) (code date : Cell) (r : Row) : Prop :=
  r dateColumn = date ∧ code6 (r "code") = code6 code

section Own

variable {schema : Schema} {dateColumn column : String} {rows : List Row} {code date : Cell}

theorem Accepted.eq_of_key (h : Accepted schema dateColumn rows) {r r' : Row} (hr : r ∈ rows)
    (hr' : r' ∈ rows) (hcode : r "code" = r' "code") (hdate : r dateColumn = r' dateColumn) :
    r = r' := by
  have hkey : rowKey ["code", dateColumn] r = rowKey ["code", dateColumn] r' := by
    simp only [rowKey, List.map_cons, List.map_nil, hcode, hdate]
  exact List.inj_on_of_nodup_map h.nodup hr hr' hkey

private theorem Accepted.ownCell_eq (h : Accepted schema dateColumn rows) {r : Row} (hr : r ∈ rows)
    (hcode : r "code" = code) (hdate : r dateColumn = date) :
    ownCell rows dateColumn code date = r := by
  unfold ownCell
  cases hfind : rows.find? fun r => r "code" = code ∧ r dateColumn = date with
  | none =>
    have hnone := List.find?_eq_none.mp hfind r hr
    exact absurd (decide_eq_true ⟨hcode, hdate⟩) hnone
  | some r' =>
    have hfound := List.find?_some hfind
    obtain ⟨hcode', hdate'⟩ := of_decide_eq_true hfound
    exact h.eq_of_key (List.mem_of_find?_eq_some hfind) hr (hcode'.trans hcode.symm)
      (hdate'.trans hdate.symm)

private theorem ownCell_cases (rows : List Row) (dateColumn : String) (code date : Cell) :
    (∃ r ∈ rows, r "code" = code ∧ r dateColumn = date) ∨
      ownCell rows dateColumn code date = fun _ => .null := by
  unfold ownCell
  cases hfind : rows.find? fun r => r "code" = code ∧ r dateColumn = date with
  | none => exact Or.inr rfl
  | some r =>
    have hfound := List.find?_some hfind
    exact Or.inl ⟨r, List.mem_of_find?_eq_some hfind, of_decide_eq_true hfound⟩

/-- The greatest value of a group is the code's own, if no other row of the group is above it. -/
private theorem Accepted.maxOf_eq_ownCell (h : Accepted schema dateColumn rows) {f : Row → Row}
    {cells : List Row} (hcells : ∀ c, c ∈ cells ↔ ∃ r ∈ rows, SameDigits dateColumn code date r ∧ f r = c)
    (hf : ∀ r, f r column = r column) {type : FieldType} (hcolumn : ⟨column, type⟩ ∈ schema)
    (hforeign : ∀ r ∈ rows, SameDigits dateColumn code date r → r "code" ≠ code →
      Below Cell.rank .null (r column) (ownCell rows dateColumn code date column)) :
    maxOf cells column = ownCell rows dateColumn code date column := by
  have hvalues : ∀ a, a ∈ cells.map (fun r => r column) →
      ∃ r ∈ rows, SameDigits dateColumn code date r ∧ a = r column := by
    intro a ha
    obtain ⟨c, hc, rfl⟩ := List.mem_map.mp ha
    obtain ⟨r, hr, hsame, rfl⟩ := (hcells c).mp hc
    exact ⟨r, hr, hsame, hf r⟩
  refine greatest_eq ?_ ?_ ?_
  · rcases ownCell_cases rows dateColumn code date with ⟨r, hr, hcode, hdate⟩ | hnone
    · refine Or.inr (List.mem_map.mpr ⟨f r, (hcells _).mpr ⟨r, hr, ⟨hdate, by rw [hcode]⟩, rfl⟩, ?_⟩)
      rw [h.ownCell_eq hr hcode hdate, hf r]
    · rw [hnone]
      exact Or.inl rfl
  · intro a ha
    obtain ⟨r, hr, hsame, rfl⟩ := hvalues a ha
    by_cases hcode : r "code" = code
    · rw [h.ownCell_eq hr hcode hsame.1]
      by_cases hnull : r column = .null
      · exact Or.inl hnull
      · exact Or.inr ⟨hnull, le_refl _⟩
    · exact hforeign r hr hsame hcode
  · intro a ha _ hne hrank
    obtain ⟨r, hr, -, rfl⟩ := hvalues a ha
    rcases ownCell_cases rows dateColumn code date with ⟨own, hown, hcode, hdate⟩ | hnone
    · rw [h.ownCell_eq hown hcode hdate] at hrank ⊢
      exact eq_of_rank_eq (h.types r hr _ hcolumn) (h.types own hown _ hcolumn) hrank
    · exact absurd (congrFun hnone column) hne

/-- Conversely no row of the group is above its greatest value. -/
private theorem below_maxOf {f : Row → Row} {cells : List Row}
    (hcells : ∀ c, c ∈ cells ↔ ∃ r ∈ rows, SameDigits dateColumn code date r ∧ f r = c)
    (hf : ∀ r, f r column = r column) {r : Row} (hr : r ∈ rows)
    (hsame : SameDigits dateColumn code date r) :
    Below Cell.rank .null (r column) (maxOf cells column) := by
  have hmem : r column ∈ cells.map fun c => c column :=
    List.mem_map.mpr ⟨f r, (hcells _).mpr ⟨r, hr, hsame, rfl⟩, hf r⟩
  exact below_greatest hmem

end Own

/-! The tables of the query -/

section Tables

variable {bars : BarRows}

/-- The row of the view that stands for a row of the unadjusted dataset. -/
def digitsKey (u : Row) : Cell × Cell := (castDate (u "date"), code6 (u "code"))

def pivotOf (bars : BarRows) (u : Row) : PivotedRow :=
  pivotRow (digitsKey u) (group DailyRow.key (daily bars) (digitsKey u))

def BarRows.ofAdjustment (bars : BarRows) : String → List Row
  | "unadjusted" => bars.unadjusted
  | "qfq" => bars.qfq
  | "hfq" => bars.hfq
  | _ => []

private theorem mem_daily {adjustment : String} {cells : Row} :
    ⟨adjustment, cells⟩ ∈ daily bars ↔ ∃ r ∈ bars.ofAdjustment adjustment, dailyCells r = cells := by
  unfold daily
  simp only [List.mem_append, List.mem_map, DailyRow.mk.injEq]
  constructor
  · rintro ((⟨r, hr, rfl, hcells⟩ | ⟨r, hr, rfl, hcells⟩) | ⟨r, hr, rfl, hcells⟩)
    · exact ⟨r, hr, hcells⟩
    · exact ⟨r, hr, hcells⟩
    · exact ⟨r, hr, hcells⟩
  · rintro ⟨r, hr, hcells⟩
    unfold BarRows.ofAdjustment at hr
    split at hr
    · exact Or.inl (Or.inl ⟨r, hr, rfl, hcells⟩)
    · exact Or.inl (Or.inr ⟨r, hr, rfl, hcells⟩)
    · exact Or.inr ⟨r, hr, rfl, hcells⟩
    · cases hr

private theorem mem_withAdjustment {adjustment : String} {key : Cell × Cell} {cells : Row} :
    cells ∈ withAdjustment adjustment (group DailyRow.key (daily bars) key) ↔
      ∃ r ∈ bars.ofAdjustment adjustment, digitsKey r = key ∧ dailyCells r = cells := by
  unfold withAdjustment
  simp only [List.mem_map, List.mem_filter, decide_eq_true_eq, mem_group]
  constructor
  · rintro ⟨⟨_, _⟩, ⟨⟨hmem, hkey⟩, rfl⟩, rfl⟩
    obtain ⟨r, hr, rfl⟩ := mem_daily.mp hmem
    exact ⟨r, hr, hkey, rfl⟩
  · rintro ⟨r, hr, hkey, rfl⟩
    exact ⟨⟨adjustment, dailyCells r⟩, ⟨⟨mem_daily.mpr ⟨r, hr, rfl⟩, hkey⟩, rfl⟩, rfl⟩

private theorem mem_base {b : PivotedRow} :
    b ∈ base bars ↔ ∃ u ∈ bars.unadjusted, pivotOf bars u = b := by
  unfold base pivoted
  simp only [List.mem_filter, decide_eq_true_eq, mem_groupBy]
  constructor
  · rintro ⟨⟨first, -, rfl⟩, hcount⟩
    obtain ⟨cells, hcells⟩ := List.exists_mem_of_length_pos hcount
    obtain ⟨u, hu, hkey, -⟩ := mem_withAdjustment.mp hcells
    refine ⟨u, hu, ?_⟩
    unfold pivotOf
    rw [hkey]
  · rintro ⟨u, hu, rfl⟩
    have hcells : dailyCells u ∈ withAdjustment "unadjusted"
        (group DailyRow.key (daily bars) (digitsKey u)) :=
      mem_withAdjustment.mpr ⟨u, hu, rfl, rfl⟩
    exact ⟨⟨⟨"unadjusted", dailyCells u⟩, mem_daily.mpr ⟨u, hu, rfl⟩, rfl⟩,
      List.length_pos_of_mem hcells⟩

private theorem nodup_base : ((base bars).map fun b => (b.date, b.code6)).Nodup := by
  have hpivoted : ((pivoted bars).map fun b => (b.date, b.code6)).Nodup :=
    nodup_groupBy fun _ _ => rfl
  exact hpivoted.sublist (List.filter_sublist.map _)

private theorem joinRow_cases {row : PivotedRow} (hdate : row.date ≠ .null)
    (hcode : row.code6 ≠ .null) :
    ((∃ f ∈ bars.factors, factorKey f = (row.date, row.code6)) ∧
      joinRow (factorEvents bars) row =
        ⟨row, maxOf (group factorKey bars.factors (row.date, row.code6)), true⟩) ∨
    ((∀ f ∈ bars.factors, factorKey f ≠ (row.date, row.code6)) ∧
      joinRow (factorEvents bars) row = ⟨row, fun _ => .null, false⟩) := by
  unfold joinRow
  cases hfind : (factorEvents bars).find? fun e => e.code6 ≠ .null ∧ e.date ≠ .null ∧
    e.code6 = row.code6 ∧ e.date = row.date with
  | some e =>
    have hfound := List.find?_some hfind
    obtain ⟨-, -, hcode6, hdate'⟩ := of_decide_eq_true hfound
    obtain ⟨f, hf, rfl⟩ := mem_groupBy.mp (List.mem_of_find?_eq_some hfind)
    have hkey : factorKey f = (row.date, row.code6) := Prod.ext hdate' hcode6
    refine Or.inl ⟨⟨f, hf, hkey⟩, ?_⟩
    rw [← hkey]
  | none =>
    refine Or.inr ⟨fun f hf hkey => ?_, rfl⟩
    have hnone := List.find?_eq_none.mp hfind _ (mem_groupBy.mpr ⟨f, hf, rfl⟩)
    rw [hkey] at hnone
    exact hnone (decide_eq_true ⟨hcode, hdate, rfl, rfl⟩)

/-- The flag only says whether there is a factor event: without one there is no factor either. -/
private theorem corporateActionFlag_eq {r : JoinedRow} (hr : r ∈ joined bars) :
    corporateActionFlag (joined bars) r = r.hasFactorEvent := by
  obtain ⟨row, -, rfl⟩ := List.mem_map.mp hr
  unfold corporateActionFlag
  cases hevent : (joinRow (factorEvents bars) row).hasFactorEvent with
  | true => rfl
  | false =>
    have hfactors : (joinRow (factorEvents bars) row).factors = fun _ => .null := by
      unfold joinRow at hevent ⊢
      split at hevent
      · rename_i e hfind
        obtain ⟨f, -, rfl⟩ := mem_groupBy.mp (List.mem_of_find?_eq_some hfind)
        cases hevent
      · rfl
    simp [hfactors]

/-- The row of the view made of the group of an unadjusted row. -/
def researchRow (bars : BarRows) (u : Row) : ResearchRow :=
  let r := joinRow (factorEvents bars) (pivotOf bars u)
  ⟨r, r.hasFactorEvent⟩

private theorem mem_researchView {v : ResearchRow} :
    v ∈ researchView bars ↔ ∃ u ∈ bars.unadjusted, researchRow bars u = v := by
  unfold researchView
  rw [List.mem_map]
  constructor
  · rintro ⟨r, hr, rfl⟩
    have hflag := corporateActionFlag_eq hr
    obtain ⟨b, hb, rfl⟩ := List.mem_map.mp hr
    obtain ⟨u, hu, rfl⟩ := mem_base.mp hb
    exact ⟨u, hu, by rw [hflag]; rfl⟩
  · rintro ⟨u, hu, rfl⟩
    have hr : joinRow (factorEvents bars) (pivotOf bars u) ∈ joined bars :=
      List.mem_map_of_mem (mem_base.mpr ⟨u, hu, rfl⟩)
    exact ⟨_, hr, by rw [corporateActionFlag_eq hr]; rfl⟩

@[simp] theorem base_joinRow (events : List FactorEvent) (row : PivotedRow) :
    (joinRow events row).base = row := by
  unfold joinRow
  split <;> rfl

end Tables

/-! Rows of one security -/

def priceColumns : List String := ["open", "high", "low", "close", "prev_close"]

def unadjustedColumns : List String :=
  ["code", "security_id", "exchange", "name"] ++ priceColumns ++
    ["volume", "amount", "turnover_rate", "pct_change", "trade_status", "is_st"]

def factorColumns : List String :=
  ["adjustment_factor", "forward_adjust_factor", "backward_adjust_factor"]

/-- Every value of the row of the view comes from the rows of the code and the date of `u`. -/
structure OwnRow (bars : BarRows) (u : Row) (v : ResearchRow) : Prop where
  unadjusted : ∀ column ∈ unadjustedColumns, v.joined.base.unadjusted column = dailyCells u column
  active : v.joined.base.isActive = .bool true
  qfq : ∀ column ∈ priceColumns,
    v.joined.base.qfq column = ownCell bars.qfq "date" (u "code") (u "date") column
  hfq : ∀ column ∈ priceColumns,
    v.joined.base.hfq column = ownCell bars.hfq "date" (u "code") (u "date") column
  factors : ∀ column ∈ factorColumns, v.joined.factors column =
    ownCell bars.factors "dividend_operate_date" (u "code") (u "date") column
  event : v.joined.hasFactorEvent = true ↔
    ∃ f ∈ bars.factors, f "code" = u "code" ∧ f "dividend_operate_date" = u "date"

def BarRows.alone (bars : BarRows) (code : Cell) : BarRows where
  unadjusted := bars.unadjusted.filter fun r => r "code" = code
  qfq := bars.qfq.filter fun r => r "code" = code
  hfq := bars.hfq.filter fun r => r "code" = code
  factors := bars.factors.filter fun r => r "code" = code

/-- The view has one row for every code and date of the unadjusted bars, with values of that code
and date, and a flag that the rows of the code alone give. -/
structure RowsOfOne (bars : BarRows) : Prop where
  rows : ((researchView bars).map ResearchRow.key).Perm
    (bars.unadjusted.map fun u => (u "code", u "date"))
  own : ∀ v ∈ researchView bars, ∀ u ∈ bars.unadjusted, v.key = (u "code", u "date") →
    OwnRow bars u v
  flag : ∀ v ∈ researchView bars, ∃ v' ∈ researchView (bars.alone v.joined.code),
    v'.key = v.key ∧ v'.corporateActionFlag = v.corporateActionFlag

/-- Where another code shares the six digits of an unadjusted row on its date, it has no
unadjusted row, no price above the code's own adjusted one, and no factor row of which the code
has not one of its own that is not below. -/
structure DigitsApart (bars : BarRows) : Prop where
  unadjusted : ∀ u ∈ bars.unadjusted, ∀ r ∈ bars.unadjusted,
    SameDigits "date" (u "code") (u "date") r → r "code" = u "code"
  qfq : ∀ u ∈ bars.unadjusted, ∀ r ∈ bars.qfq, SameDigits "date" (u "code") (u "date") r →
    r "code" ≠ u "code" → ∀ column ∈ priceColumns,
      Below Cell.rank .null (r column) (ownCell bars.qfq "date" (u "code") (u "date") column)
  hfq : ∀ u ∈ bars.unadjusted, ∀ r ∈ bars.hfq, SameDigits "date" (u "code") (u "date") r →
    r "code" ≠ u "code" → ∀ column ∈ priceColumns,
      Below Cell.rank .null (r column) (ownCell bars.hfq "date" (u "code") (u "date") column)
  factors : ∀ u ∈ bars.unadjusted, ∀ r ∈ bars.factors,
    SameDigits "dividend_operate_date" (u "code") (u "date") r → r "code" ≠ u "code" →
      (∃ f ∈ bars.factors, f "code" = u "code" ∧ f "dividend_operate_date" = u "date") ∧
        ∀ column ∈ factorColumns, Below Cell.rank .null (r column)
          (ownCell bars.factors "dividend_operate_date" (u "code") (u "date") column)

section View

variable {bars : BarRows} {u : Row}

private theorem digitsKey_eq (h : AcceptedBars bars) (hu : u ∈ bars.unadjusted) :
    digitsKey u = (u "date", code6 (u "code")) := by
  obtain ⟨day, hday⟩ := h.unadjusted.date u hu
  unfold digitsKey
  rw [hday]
  rfl

private theorem digitsKey_ne_null (h : AcceptedBars bars) (hu : u ∈ bars.unadjusted) :
    (pivotOf bars u).date ≠ .null ∧ (pivotOf bars u).code6 ≠ .null := by
  obtain ⟨day, hday⟩ := h.unadjusted.date u hu
  obtain ⟨s, hs⟩ := h.unadjusted.code u hu
  simp [pivotOf, pivotRow, digitsKey, hday, hs, castDate, code6]

private theorem digitsKey_eq_iff {rows : List Row} (hrows : Accepted dailyBarSchema "date" rows)
    (h : AcceptedBars bars) (hu : u ∈ bars.unadjusted) {r : Row} (hr : r ∈ rows) :
    digitsKey r = digitsKey u ↔ SameDigits "date" (u "code") (u "date") r := by
  obtain ⟨day, hday⟩ := hrows.date r hr
  rw [digitsKey_eq h hu]
  unfold digitsKey SameDigits
  rw [hday]
  exact Prod.mk.injEq _ _ _ _ ▸ Iff.rfl

private theorem factorKey_eq_iff (h : AcceptedBars bars) (hu : u ∈ bars.unadjusted) {f : Row}
    (hf : f ∈ bars.factors) : factorKey f = ((pivotOf bars u).date, (pivotOf bars u).code6) ↔
      SameDigits "dividend_operate_date" (u "code") (u "date") f := by
  obtain ⟨day, hday⟩ := h.factors.date f hf
  have hkey : ((pivotOf bars u).date, (pivotOf bars u).code6) = digitsKey u := rfl
  rw [hkey, digitsKey_eq h hu]
  unfold factorKey SameDigits
  rw [hday]
  exact Prod.mk.injEq _ _ _ _ ▸ Iff.rfl

private theorem mem_group_bars {adjustment : String}
    (hrows : Accepted dailyBarSchema "date" (bars.ofAdjustment adjustment))
    (h : AcceptedBars bars) (hu : u ∈ bars.unadjusted) (cells : Row) :
    cells ∈ withAdjustment adjustment (group DailyRow.key (daily bars) (digitsKey u)) ↔
      ∃ r ∈ bars.ofAdjustment adjustment, SameDigits "date" (u "code") (u "date") r ∧
        dailyCells r = cells := by
  rw [mem_withAdjustment]
  constructor
  · rintro ⟨r, hr, hkey, hcells⟩
    exact ⟨r, hr, (digitsKey_eq_iff hrows h hu hr).mp hkey, hcells⟩
  · rintro ⟨r, hr, hsame, hcells⟩
    exact ⟨r, hr, (digitsKey_eq_iff hrows h hu hr).mpr hsame, hcells⟩

private theorem mem_group_factors (h : AcceptedBars bars) (hu : u ∈ bars.unadjusted) (cells : Row) :
    cells ∈ group factorKey bars.factors ((pivotOf bars u).date, (pivotOf bars u).code6) ↔
      ∃ f ∈ bars.factors, SameDigits "dividend_operate_date" (u "code") (u "date") f ∧
        id f = cells := by
  rw [mem_group]
  constructor
  · rintro ⟨hf, hkey⟩
    exact ⟨cells, hf, (factorKey_eq_iff h hu hf).mp hkey, rfl⟩
  · rintro ⟨f, hf, hsame, rfl⟩
    exact ⟨hf, (factorKey_eq_iff h hu hf).mpr hsame⟩

private theorem price_column {column : String} (hcolumn : column ∈ priceColumns) :
    (∀ r, dailyCells r column = r column) ∧ ⟨column, .float64⟩ ∈ dailyBarSchema := by
  simp only [priceColumns, List.mem_cons, List.not_mem_nil, or_false] at hcolumn
  rcases hcolumn with rfl | rfl | rfl | rfl | rfl <;> exact ⟨fun _ => rfl, by decide⟩

private theorem factor_column {column : String} (hcolumn : column ∈ factorColumns) :
    ⟨column, .float64⟩ ∈ baostockCnStockAdjustmentFactorSchema := by
  simp only [factorColumns, List.mem_cons, List.not_mem_nil, or_false] at hcolumn
  rcases hcolumn with rfl | rfl | rfl <;> decide

/-! The code of a row of the view -/

private theorem code_researchRow (h : AcceptedBars bars) (hu : u ∈ bars.unadjusted) :
    ∃ r ∈ bars.unadjusted, SameDigits "date" (u "code") (u "date") r ∧
      (researchRow bars u).joined.code = r "code" := by
  have hcells := @mem_group_bars bars u "unadjusted" h.unadjusted h hu
  obtain ⟨s, hs⟩ := h.unadjusted.code u hu
  have hmem : (dailyCells u) "code" ∈ (withAdjustment "unadjusted"
      (group DailyRow.key (daily bars) (digitsKey u))).map fun r => r "code" :=
    List.mem_map_of_mem ((hcells _).mpr ⟨u, hu, ⟨rfl, rfl⟩, rfl⟩)
  have hcode : (researchRow bars u).joined.code = sqlMax ((withAdjustment "unadjusted"
      (group DailyRow.key (daily bars) (digitsKey u))).map fun r => r "code") := by
    unfold researchRow JoinedRow.code
    rw [base_joinRow]
    rfl
  rcases @greatest_mem _ _ _ _ Cell.rank .null ((withAdjustment "unadjusted"
      (group DailyRow.key (daily bars) (digitsKey u))).map fun r => r "code") with hnull | hgreatest
  · rcases @below_greatest _ _ _ _ Cell.rank .null _ _ hmem with hmissing | ⟨hne, -⟩
    · have hmissing : u "code" = .null := hmissing
      rw [hs] at hmissing
      cases hmissing
    · exact absurd hnull hne
  · obtain ⟨cells, hmem, heq⟩ := List.mem_map.mp hgreatest
    obtain ⟨r, hr, hsame, rfl⟩ := (hcells _).mp hmem
    exact ⟨r, hr, hsame, hcode.trans heq.symm⟩

private theorem date_researchRow (h : AcceptedBars bars) (hu : u ∈ bars.unadjusted) :
    (researchRow bars u).joined.base.date = u "date" := by
  have hkey := digitsKey_eq h hu
  unfold researchRow
  rw [base_joinRow]
  exact congrArg Prod.fst hkey

private theorem key_researchRow (h : AcceptedBars bars) (hapart : DigitsApart bars)
    (hu : u ∈ bars.unadjusted) : (researchRow bars u).key = (u "code", u "date") := by
  obtain ⟨r, hr, hsame, hcode⟩ := code_researchRow h hu
  have hdate := date_researchRow h hu
  rw [hapart.unadjusted u hu r hr hsame] at hcode
  exact Prod.ext hcode hdate

private theorem nodup_researchView (h : AcceptedBars bars) :
    ((researchView bars).map ResearchRow.key).Nodup := by
  have hkeys : (researchView bars).map ResearchRow.key =
      (base bars).map fun b => (b.unadjusted "code", b.date) := by
    unfold researchView joined
    rw [List.map_map, List.map_map]
    refine List.map_congr_left fun b _ => ?_
    simp [ResearchRow.key, JoinedRow.code]
  rw [hkeys]
  refine List.Nodup.map_on (fun b hb b' hb' heq => ?_) nodup_base.of_map
  obtain ⟨hcode, hdate⟩ := Prod.mk.inj heq
  have hdigits : ∀ b ∈ base bars, b.code6 = code6 (b.unadjusted "code") := by
    intro b hb
    obtain ⟨u, hu, rfl⟩ := mem_base.mp hb
    obtain ⟨r, -, hsame, hcode⟩ := code_researchRow h hu
    have hcode : (pivotOf bars u).unadjusted "code" = r "code" := by
      unfold researchRow JoinedRow.code at hcode
      rwa [base_joinRow] at hcode
    rw [hcode, hsame.2]
    exact congrArg Prod.snd (digitsKey_eq h hu)
  refine List.inj_on_of_nodup_map nodup_base hb hb' (Prod.ext hdate ?_)
  rw [hdigits b hb, hdigits b' hb', hcode]

/-! Digits apart are enough -/

/-- Values that are all missing or all the same have that value as their greatest. -/
private theorem sqlMax_eq_of_forall {values : List Cell} {b : Cell} (hb : b ∈ values)
    (hall : ∀ a ∈ values, a = .null ∨ a = b) : sqlMax values = b := by
  refine greatest_eq (Or.inr hb) (fun a ha => ?_) (fun a ha hne _ _ => ?_)
  · rcases hall a ha with hnull | rfl
    · exact Or.inl hnull
    · by_cases hnull : a = .null
      · exact Or.inl hnull
      · exact Or.inr ⟨hnull, le_refl _⟩
  · rcases hall a ha with hnull | heq
    · exact absurd hnull hne
    · exact heq

private theorem isActive_researchRow (hu : u ∈ bars.unadjusted) :
    (researchRow bars u).joined.base.isActive = .bool true := by
  unfold researchRow
  rw [base_joinRow]
  refine sqlMax_eq_of_forall ?_ ?_
  · refine List.mem_map.mpr ⟨⟨"unadjusted", dailyCells u⟩, ?_, rfl⟩
    exact mem_group.mpr ⟨mem_daily.mpr ⟨u, hu, rfl⟩, rfl⟩
  · intro a ha
    obtain ⟨⟨adjustment, cells⟩, hmem, rfl⟩ := List.mem_map.mp ha
    obtain ⟨r, -, rfl⟩ := mem_daily.mp (mem_group.mp hmem).1
    unfold isActiveCase
    split
    · exact Or.inr rfl
    · exact Or.inl rfl

private theorem prices_own {adjustment : String} (h : AcceptedBars bars) (hu : u ∈ bars.unadjusted)
    (hrows : Accepted dailyBarSchema "date" (bars.ofAdjustment adjustment))
    (hforeign : ∀ r ∈ bars.ofAdjustment adjustment, SameDigits "date" (u "code") (u "date") r →
      r "code" ≠ u "code" → ∀ column ∈ priceColumns, Below Cell.rank .null (r column)
        (ownCell (bars.ofAdjustment adjustment) "date" (u "code") (u "date") column))
    {column : String} (hcolumn : column ∈ priceColumns) :
    maxOf (withAdjustment adjustment (group DailyRow.key (daily bars) (digitsKey u))) column =
      ownCell (bars.ofAdjustment adjustment) "date" (u "code") (u "date") column := by
  obtain ⟨hcells, htype⟩ := price_column hcolumn
  exact hrows.maxOf_eq_ownCell (mem_group_bars hrows h hu) hcells htype
    fun r hr hsame hne => hforeign r hr hsame hne column hcolumn

private theorem factors_own (h : AcceptedBars bars) (hapart : DigitsApart bars)
    (hu : u ∈ bars.unadjusted) :
    (∀ column ∈ factorColumns, (researchRow bars u).joined.factors column =
      ownCell bars.factors "dividend_operate_date" (u "code") (u "date") column) ∧
    ((researchRow bars u).joined.hasFactorEvent = true ↔
      ∃ f ∈ bars.factors, f "code" = u "code" ∧ f "dividend_operate_date" = u "date") := by
  obtain ⟨hdate, hcode⟩ := digitsKey_ne_null h hu
  rcases @joinRow_cases bars (pivotOf bars u) hdate hcode with ⟨⟨f, hf, hkey⟩, hjoin⟩ | ⟨hnone, hjoin⟩
  · have hsame := (factorKey_eq_iff h hu hf).mp hkey
    have hown : ∃ f ∈ bars.factors, f "code" = u "code" ∧ f "dividend_operate_date" = u "date" := by
      by_cases heq : f "code" = u "code"
      · exact ⟨f, hf, heq, hsame.1⟩
      · exact (hapart.factors u hu f hf hsame heq).1
    unfold researchRow
    rw [hjoin]
    refine ⟨fun column hcolumn => ?_, iff_of_true rfl hown⟩
    exact h.factors.maxOf_eq_ownCell (mem_group_factors h hu) (fun _ => rfl) (factor_column hcolumn)
      fun r hr hsame hne => (hapart.factors u hu r hr hsame hne).2 column hcolumn
  · have hnoown : ¬∃ f ∈ bars.factors, f "code" = u "code" ∧ f "dividend_operate_date" = u "date" := by
      rintro ⟨f, hf, hfcode, hfdate⟩
      exact hnone f hf ((factorKey_eq_iff h hu hf).mpr ⟨hfdate, by rw [hfcode]⟩)
    unfold researchRow
    rw [hjoin]
    refine ⟨fun column _ => ?_, iff_of_false Bool.false_ne_true hnoown⟩
    rcases ownCell_cases bars.factors "dividend_operate_date" (u "code") (u "date") with hown | hmissing
    · exact absurd hown hnoown
    · exact (congrFun hmissing column).symm

private theorem ownRow_researchRow (h : AcceptedBars bars) (hapart : DigitsApart bars)
    (hu : u ∈ bars.unadjusted) : OwnRow bars u (researchRow bars u) := by
  have hgroup := @mem_group_bars bars u "unadjusted" h.unadjusted h hu
  have hbase : (researchRow bars u).joined.base = pivotOf bars u := base_joinRow _ _
  obtain ⟨hfactors, hevent⟩ := factors_own h hapart hu
  refine ⟨fun column _ => ?_, isActive_researchRow hu, fun column hcolumn => ?_,
    fun column hcolumn => ?_, hfactors, hevent⟩
  · rw [hbase]
    refine sqlMax_eq_of_forall ?_ ?_
    · exact List.mem_map_of_mem ((hgroup _).mpr ⟨u, hu, ⟨rfl, rfl⟩, rfl⟩)
    · intro a ha
      obtain ⟨cells, hcells, rfl⟩ := List.mem_map.mp ha
      obtain ⟨r, hr, hsame, rfl⟩ := (hgroup cells).mp hcells
      rw [h.unadjusted.eq_of_key hr hu (hapart.unadjusted u hu r hr hsame) hsame.1]
      exact Or.inr rfl
  · rw [hbase]
    exact @prices_own bars u "qfq" h hu h.qfq (hapart.qfq u hu) column hcolumn
  · rw [hbase]
    exact @prices_own bars u "hfq" h hu h.hfq (hapart.hfq u hu) column hcolumn

private theorem accepted_filter {schema : Schema} {dateColumn : String} {rows : List Row}
    (h : Accepted schema dateColumn rows) (keep : Row → Bool) :
    Accepted schema dateColumn (rows.filter keep) :=
  ⟨fun r hr => h.types r (List.mem_of_mem_filter hr), fun r hr => h.code r (List.mem_of_mem_filter hr),
    fun r hr => h.date r (List.mem_of_mem_filter hr), h.nodup.sublist (List.filter_sublist.map _)⟩

private theorem acceptedBars_alone (h : AcceptedBars bars) (code : Cell) :
    AcceptedBars (bars.alone code) :=
  ⟨accepted_filter h.unadjusted _, accepted_filter h.qfq _, accepted_filter h.hfq _,
    accepted_filter h.factors _⟩

private theorem digitsApart_alone (bars : BarRows) (code : Cell) :
    DigitsApart (bars.alone code) := by
  have hcode : ∀ {rows : List Row} {r : Row}, (r ∈ rows.filter fun r => r "code" = code) →
      r "code" = code := fun hr => of_decide_eq_true (List.mem_filter.mp hr).2
  exact ⟨fun u hu r hr _ => (hcode hr).trans (hcode hu).symm,
    fun u hu r hr _ hne => absurd ((hcode hr).trans (hcode hu).symm) hne,
    fun u hu r hr _ hne => absurd ((hcode hr).trans (hcode hu).symm) hne,
    fun u hu r hr _ hne => absurd ((hcode hr).trans (hcode hu).symm) hne⟩

private theorem rowsOfOne_of_digitsApart (h : AcceptedBars bars) (hapart : DigitsApart bars) :
    RowsOfOne bars := by
  refine ⟨?_, fun v hv u hu hkey => ?_, fun v hv => ?_⟩
  · have hnodup : (bars.unadjusted.map fun u => (u "code", u "date")).Nodup := by
      refine List.Nodup.map_on (fun u hu u' hu' heq => ?_) h.unadjusted.nodup.of_map
      obtain ⟨hcode, hdate⟩ := Prod.mk.inj heq
      exact h.unadjusted.eq_of_key hu hu' hcode hdate
    refine (List.perm_ext_iff_of_nodup (nodup_researchView h) hnodup).mpr fun key => ?_
    simp only [List.mem_map, mem_researchView]
    constructor
    · rintro ⟨v, ⟨u, hu, rfl⟩, rfl⟩
      exact ⟨u, hu, (key_researchRow h hapart hu).symm⟩
    · rintro ⟨u, hu, rfl⟩
      exact ⟨_, ⟨u, hu, rfl⟩, key_researchRow h hapart hu⟩
  · obtain ⟨u', hu', rfl⟩ := mem_researchView.mp hv
    rw [key_researchRow h hapart hu'] at hkey
    obtain ⟨hcode, hdate⟩ := Prod.mk.inj hkey
    rw [h.unadjusted.eq_of_key hu hu' hcode.symm hdate.symm]
    exact ownRow_researchRow h hapart hu'
  · obtain ⟨u, hu, rfl⟩ := mem_researchView.mp hv
    have hkey := key_researchRow h hapart hu
    have hcode : (researchRow bars u).joined.code = u "code" := (Prod.mk.inj hkey).1
    rw [hcode]
    have halone := acceptedBars_alone h (u "code")
    have hapart' := digitsApart_alone bars (u "code")
    have hmem : u ∈ (bars.alone (u "code")).unadjusted :=
      List.mem_filter.mpr ⟨hu, decide_eq_true rfl⟩
    refine ⟨researchRow (bars.alone (u "code")) u, mem_researchView.mpr ⟨u, hmem, rfl⟩, ?_, ?_⟩
    · rw [key_researchRow halone hapart' hmem, hkey]
    · refine Bool.eq_iff_iff.mpr ((factors_own halone hapart' hmem).2.trans
        (Iff.trans ?_ (factors_own h hapart hu).2.symm))
      constructor
      · rintro ⟨f, hf, hown⟩
        exact ⟨f, List.mem_of_mem_filter hf, hown⟩
      · rintro ⟨f, hf, hfcode, hfdate⟩
        exact ⟨f, List.mem_filter.mpr ⟨hf, decide_eq_true hfcode⟩, hfcode, hfdate⟩

/-! Digits apart are needed -/

private theorem researchRow_congr {u' : Row} (hkey : digitsKey u = digitsKey u') :
    researchRow bars u = researchRow bars u' := by
  unfold researchRow pivotOf
  rw [hkey]

private theorem key_of_rowsOfOne (h : AcceptedBars bars) (hone : RowsOfOne bars)
    (hu : u ∈ bars.unadjusted) : (researchRow bars u).key = (u "code", u "date") := by
  have hmem : (u "code", u "date") ∈ (researchView bars).map ResearchRow.key :=
    hone.rows.mem_iff.mpr (List.mem_map_of_mem hu)
  obtain ⟨v, hv, hkey⟩ := List.mem_map.mp hmem
  obtain ⟨u', hu', rfl⟩ := mem_researchView.mp hv
  obtain ⟨r, -, hsame, hcode⟩ := code_researchRow h hu'
  obtain ⟨hcode', hdate'⟩ := Prod.mk.inj hkey
  rw [date_researchRow h hu'] at hdate'
  have hdigits : digitsKey u = digitsKey u' := by
    rw [digitsKey_eq h hu, digitsKey_eq h hu', ← hdate', ← hcode', hcode, hsame.2]
  rw [researchRow_congr hdigits]
  exact hkey

private theorem own_of_rowsOfOne (h : AcceptedBars bars) (hone : RowsOfOne bars)
    (hu : u ∈ bars.unadjusted) : OwnRow bars u (researchRow bars u) :=
  hone.own _ (mem_researchView.mpr ⟨u, hu, rfl⟩) u hu (key_of_rowsOfOne h hone hu)

private theorem prices_below {adjustment column : String} (h : AcceptedBars bars)
    (hu : u ∈ bars.unadjusted)
    (hrows : Accepted dailyBarSchema "date" (bars.ofAdjustment adjustment))
    (hcolumn : column ∈ priceColumns) {r : Row} (hr : r ∈ bars.ofAdjustment adjustment)
    (hsame : SameDigits "date" (u "code") (u "date") r) :
    Below Cell.rank .null (r column)
      (maxOf (withAdjustment adjustment (group DailyRow.key (daily bars) (digitsKey u))) column) :=
  below_maxOf (mem_group_bars hrows h hu) (price_column hcolumn).1 hr hsame

private theorem digitsApart_of_rowsOfOne (h : AcceptedBars bars) (hone : RowsOfOne bars) :
    DigitsApart bars := by
  have hbase : ∀ u, (researchRow bars u).joined.base = pivotOf bars u := fun u => base_joinRow _ _
  refine ⟨fun u hu r hr hsame => ?_, fun u hu r hr hsame _ column hcolumn => ?_,
    fun u hu r hr hsame _ column hcolumn => ?_, fun u hu r hr hsame _ => ?_⟩
  · -- both rows fall into one group, which has one key
    have hdigits := (digitsKey_eq_iff h.unadjusted h hu hr).mpr hsame
    have hkeys := key_of_rowsOfOne h hone hr
    rw [researchRow_congr hdigits, key_of_rowsOfOne h hone hu] at hkeys
    exact (Prod.mk.inj hkeys).1.symm
  · have hown := (own_of_rowsOfOne h hone hu).qfq column hcolumn
    rw [hbase] at hown
    rw [← hown]
    exact @prices_below bars u "qfq" column h hu h.qfq hcolumn r hr hsame
  · have hown := (own_of_rowsOfOne h hone hu).hfq column hcolumn
    rw [hbase] at hown
    rw [← hown]
    exact @prices_below bars u "hfq" column h hu h.hfq hcolumn r hr hsame
  · have hkey := (factorKey_eq_iff h hu hr).mpr hsame
    have hown := own_of_rowsOfOne h hone hu
    obtain ⟨hdate, hcode⟩ := digitsKey_ne_null h hu
    rcases @joinRow_cases bars (pivotOf bars u) hdate hcode with ⟨-, hjoin⟩ | ⟨hnone, -⟩
    · have hevent : (researchRow bars u).joined.hasFactorEvent = true := by
        unfold researchRow
        rw [hjoin]
      refine ⟨hown.event.mp hevent, fun column hcolumn => ?_⟩
      have hfactors := hown.factors column hcolumn
      unfold researchRow at hfactors
      rw [hjoin] at hfactors
      rw [← hfactors]
      exact below_maxOf (mem_group_factors h hu) (fun _ => rfl) hr hsame
    · exact absurd hkey (hnone r hr)

end View

def BarRows.all (bars : BarRows) : List Row :=
  bars.unadjusted ++ bars.qfq ++ bars.hfq ++ bars.factors

private theorem digitsApart_of_injective {bars : BarRows}
    (h : ∀ r ∈ bars.all, ∀ u ∈ bars.all, code6 (r "code") = code6 (u "code") →
      r "code" = u "code") : DigitsApart bars := by
  have hunadjusted : ∀ r ∈ bars.unadjusted, r ∈ bars.all := fun r hr => by simp [BarRows.all, hr]
  have hqfq : ∀ r ∈ bars.qfq, r ∈ bars.all := fun r hr => by simp [BarRows.all, hr]
  have hhfq : ∀ r ∈ bars.hfq, r ∈ bars.all := fun r hr => by simp [BarRows.all, hr]
  have hfactors : ∀ r ∈ bars.factors, r ∈ bars.all := fun r hr => by simp [BarRows.all, hr]
  exact ⟨fun u hu r hr hsame => h r (hunadjusted r hr) u (hunadjusted u hu) hsame.2,
    fun u hu r hr hsame hne => absurd (h r (hqfq r hr) u (hunadjusted u hu) hsame.2) hne,
    fun u hu r hr hsame hne => absurd (h r (hhfq r hr) u (hunadjusted u hu) hsame.2) hne,
    fun u hu r hr hsame hne => absurd (h r (hfactors r hr) u (hunadjusted u hu) hsame.2) hne⟩

def barRowOf (code : String) (price : ℚ) : Row :=
  rowOf [("date", .date 19724), ("code", .text code), ("open", .real price), ("high", .real price),
    ("low", .real price), ("close", .real price), ("prev_close", .real price), ("volume", .int 100),
    ("amount", .real (100 * price)), ("trade_status", .text "1"), ("is_st", .text "0")]

def factorRowOf (code : String) : Row :=
  rowOf [("code", .text code), ("dividend_operate_date", .date 19724),
    ("forward_adjust_factor", .real 1), ("backward_adjust_factor", .real 1),
    ("adjustment_factor", .real 1)]

/-- The bars and the factor of both codes. -/
def storeOf (first second : String) : Store :=
  { Store.empty with
    files := fun dataset value =>
      if value = first ∨ value = second then
        if dataset = baostockCnStockAdjustmentFactorDataset.id then some [factorRowOf value]
        else if dataset ∈ researchDatasets.map DatasetDefinition.id then
          some [barRowOf value (if value = first then 10 else 20)]
        else none
      else none }

def pairOf (first second : String) : String → List String := fun _ => [first, second]

private theorem accepted_single {d : DatasetDefinition} {dateColumn value : String} {r : Row}
    {day : Int}
    (hdate : r dateColumn = .date day) (hvalidator : ∀ df, validateSchemaMatches d.schema .plain df = .ok () →
      validateUniqueColumns ["code", dateColumn] .plain df = .ok () →
      validateDateMonotonicByGroup ["code"] dateColumn .plain df = .ok () →
      d.validator .plain df = .ok ())
    (hcolumn : d.partitionColumn = some "code") (hcode : r "code" = .text value)
    (htypes : ∀ field ∈ d.schema, field.type.accepts (r field.name) = true) :
    AcceptedPartition .plain d value [r] := by
  have hparsed : parsedDate .plain (r dateColumn) = some (day * nsPerDay) := by
    rw [hdate]
    exact Pandas.plain.toDatetime_date day
  refine ⟨⟨fun _ => .object, hvalidator _ (validateSchemaMatches_eq_ok.mpr ⟨rfl, ?_⟩) ?_ ?_⟩, ?_⟩
  · intro field hfield r' hr'
    rw [List.mem_singleton.mp hr']
    exact htypes field hfield
  · unfold validateUniqueColumns require
    exact if_pos (List.nodup_singleton (rowKey ["code", dateColumn] r))
  · unfold validateDateMonotonicByGroup
    rw [if_neg (List.cons_ne_nil _ _)]
    refine bind_eq_ok.mpr ⟨(), ite_eq_ok.mpr fun r' hr' => ?_, ite_eq_ok.mpr fun r' hr' => ?_⟩
    · rw [List.mem_singleton.mp hr', hparsed]
      rfl
    · rw [List.mem_singleton.mp hr']
      simp [hparsed]
  · intro r' hr' c hc
    rw [hcolumn] at hc
    rw [List.mem_singleton.mp hr', ← Option.mem_some_iff.mp hc, hcode]
    exact ⟨Cell.noConfusion, rfl⟩

private theorem accepted_barRowOf (id value : String) (price : ℚ) :
    AcceptedPartition .plain (dailyBarDataset id) value [barRowOf value price] := by
  have hdate : barRowOf value price "date" = .date 19724 := rfl
  refine accepted_single hdate (fun df hschema hunique hdates => ?_) rfl rfl fun field hfield => ?_
  · exact bind_eq_ok.mpr ⟨(), hschema, bind_eq_ok.mpr ⟨(), hunique, hdates⟩⟩
  · simp only [dailyBarDataset, dailyBarSchema, List.mem_cons, List.not_mem_nil, or_false] at hfield
    rcases hfield with rfl | rfl | rfl | rfl | rfl | rfl | rfl | rfl | rfl | rfl | rfl | rfl | rfl |
      rfl | rfl | rfl | rfl | rfl <;> rfl

private theorem accepted_factorRowOf (value : String) :
    AcceptedPartition .plain baostockCnStockAdjustmentFactorDataset value [factorRowOf value] := by
  have hdate : factorRowOf value "dividend_operate_date" = .date 19724 := rfl
  refine accepted_single hdate (fun df hschema hunique hdates => ?_) rfl rfl fun field hfield => ?_
  · exact bind_eq_ok.mpr ⟨(), hschema, bind_eq_ok.mpr ⟨(), hunique, hdates⟩⟩
  · simp only [baostockCnStockAdjustmentFactorDataset, baostockCnStockAdjustmentFactorSchema,
      List.mem_cons, List.not_mem_nil, or_false] at hfield
    rcases hfield with rfl | rfl | rfl | rfl | rfl <;> rfl

private theorem accepted_storeOf {first second value : String} (hvalue : value ∈ [first, second])
    {d : DatasetDefinition} (hd : d ∈ researchDatasets) :
    AcceptedPartition .plain d value (content (storeOf first second) d value) := by
  have hvalue : value = first ∨ value = second := by simpa using hvalue
  have hbars : ∀ id, id ∈ researchDatasets.map DatasetDefinition.id →
      id ≠ baostockCnStockAdjustmentFactorDataset.id →
      content (storeOf first second) (dailyBarDataset id) value =
        [barRowOf value (if value = first then 10 else 20)] := by
    intro id hid hne
    have hid' : (dailyBarDataset id).id = id := rfl
    simp only [content, storeOf, hid']
    rw [if_pos hvalue, if_neg hne, if_pos hid, Option.getD_some]
  simp only [researchDatasets, List.mem_cons, List.not_mem_nil, or_false] at hd
  rcases hd with rfl | rfl | rfl | rfl
  · unfold unadjustedBars
    rw [hbars _ (by decide) (by decide)]
    exact accepted_barRowOf _ _ _
  · unfold qfqBars
    rw [hbars _ (by decide) (by decide)]
    exact accepted_barRowOf _ _ _
  · unfold hfqBars
    rw [hbars _ (by decide) (by decide)]
    exact accepted_barRowOf _ _ _
  · simp only [content, storeOf]
    rw [if_pos hvalue, if_pos trivial, Option.getD_some]
    exact accepted_factorRowOf value

end QuantDataCenter.Derived.Research
