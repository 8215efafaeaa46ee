import QuantDataCenter.Storage.PartitionPaths

/-!
The representation invariant of the store. A replace relies on the validator of its
dataset alone for the uniqueness of keys, so every entry of the catalog is checked
against its validator; the two delist datasets are the ones whose validator does
not look at keys.
-/

set_option autoImplicit false
set_option relaxedAutoImplicit false

namespace QuantDataCenter.Storage

open QuantDataCenter.Lib.Checked QuantDataCenter.Lib.Keyed QuantDataCenter.Lib.Transition
open QuantDataCenter.Tabular QuantDataCenter.Quality

structure Represents (p : Pandas) (d : DatasetDefinition) (value : String) (rows : List Row) :
    Prop where
  columns : (fileFrame p d.schema rows).columns = fieldNames d.schema ∧
    ∀ r ∈ rows, ∀ name ∉ fieldNames d.schema, r name = .null
  partition : ∀ c ∈ d.partitionColumn, ∀ r ∈ rows, r c ≠ .null ∧ p.str (r c) = value
  fixed : ∀ e ∈ d.fixedColumnValues, ∀ r ∈ rows, r e.1 = .text e.2
  sorted : rows.Pairwise fun a b => sortKey d.sortColumns a ≤ sortKey d.sortColumns b
  unique : (rows.map (rowKey d.uniqueColumns)).Nodup
  valid : d.validator p (fileFrame p d.schema rows) = .ok ()

def delistDatasetIds : List String := ["akshare_cn_stock_delist_sh", "akshare_cn_stock_delist_sz"]

private theorem of_bind_left {x : Except StoreError Unit} {f : Unit → Except StoreError Unit}
    (h : (x >>= f) = .ok ()) : x = .ok () := by
  obtain ⟨u, hx, -⟩ := bind_eq_ok.mp h
  exact hx

private theorem of_bind_right {x : Except StoreError Unit} {f : Unit → Except StoreError Unit}
    (h : (x >>= f) = .ok ()) : f () = .ok () := by
  obtain ⟨u, -, hf⟩ := bind_eq_ok.mp h
  exact hf

/-- Every validator outside the delist datasets checks the dataset's own key. -/
private theorem validator_unique {d : DatasetDefinition} (hd : d ∈ datasetCatalog)
    (hkeyed : d.id ∉ delistDatasetIds) {p : Pandas} {df : Frame}
    (hvalid : d.validator p df = .ok ()) : (df.rows.map (rowKey d.uniqueColumns)).Nodup := by
  have hcheck : validateUniqueColumns d.uniqueColumns p df = .ok () := by
    simp only [datasetCatalog, baostockDailyBarDatasetIds, akshareDailyBarAdjustments,
      List.map_cons, List.map_nil, List.cons_append, List.nil_append, List.mem_cons,
      List.not_mem_nil, or_false] at hd
    rcases hd with rfl | rfl | rfl | rfl | rfl | rfl | rfl | rfl | rfl | rfl | rfl | rfl | rfl |
      rfl | rfl | rfl | rfl | rfl | rfl | rfl | rfl | rfl | rfl | rfl | rfl | rfl | rfl <;>
      first
        | exact absurd (by decide) hkeyed
        | exact of_bind_right hvalid
        | exact of_bind_left (of_bind_right hvalid)
        | exact of_bind_left (of_bind_right (of_bind_right hvalid))
        | exact of_bind_right (of_bind_right hvalid)
  simpa only [validateUniqueColumns, require, ite_eq_ok] using hcheck

/-- Every dataset of AkShare codes has them checked by its validator. -/
private theorem validator_codes {d : DatasetDefinition} (hd : d ∈ datasetCatalog)
    (hformat : d.codeFormat = .sixDigit) {p : Pandas} {df : Frame}
    (hvalid : d.validator p df = .ok ()) :
    "code" ∈ fieldNames d.schema ∧ validateAkshareSixDigitCodes p df = .ok () := by
  simp only [datasetCatalog, baostockDailyBarDatasetIds, akshareDailyBarAdjustments,
    List.map_cons, List.map_nil, List.cons_append, List.nil_append, List.mem_cons,
    List.not_mem_nil, or_false] at hd
  rcases hd with rfl | rfl | rfl | rfl | rfl | rfl | rfl | rfl | rfl | rfl | rfl | rfl | rfl |
    rfl | rfl | rfl | rfl | rfl | rfl | rfl | rfl | rfl | rfl | rfl | rfl | rfl | rfl <;>
    first
      | exact absurd hformat (by decide)
      | exact ⟨by decide, of_bind_left (of_bind_right hvalid)⟩
      | exact ⟨by decide, of_bind_right hvalid⟩

theorem StoredWell.codes {p : Pandas} {d : DatasetDefinition} (hd : d ∈ datasetCatalog)
    (hformat : d.codeFormat = .sixDigit) {value : String} {rows : List Row}
    (hwell : StoredWell p d value rows) : ∀ r ∈ rows, isSixDigitCode p (r "code") = true := by
  obtain ⟨dtype, hvalid⟩ := hwell.valid
  obtain ⟨hcode, hcheck⟩ := validator_codes hd hformat hvalid
  intro r hr
  unfold validateAkshareSixDigitCodes at hcheck
  rw [if_neg (by simp [List.ne_nil_of_mem hr, hcode])] at hcheck
  exact ite_eq_ok.mp hcheck r hr

theorem readDataset_codes {p : Pandas} {d : DatasetDefinition} (hd : d ∈ datasetCatalog)
    (hformat : d.codeFormat = .sixDigit) {io : PartitionIo} {st : Store} {value : String}
    (hstored : ∀ rows, st.files d.id value = some rows → StoredWell p d value rows) {df : Frame}
    (hread : readDataset p io st d value = .ok df) :
    ∀ r ∈ df.rows, isSixDigitCode p (r "code") = true := by
  obtain ⟨hrows, -⟩ := readDataset_rows (wellFormed_of_mem hd) hstored hread
  intro r hr
  rw [hrows] at hr
  unfold content at hr
  cases hfile : st.files d.id value with
  | none =>
    rw [hfile] at hr
    cases hr
  | some rows =>
    rw [hfile] at hr
    exact (hstored rows hfile).codes hd hformat r hr

/-- The validators do not look at dtypes. -/
theorem validator_dtype {d : DatasetDefinition} (hd : d ∈ datasetCatalog) (p : Pandas)
    (columns : List String) (dtype dtype' : String → Dtype) (rows : List Row) :
    d.validator p ⟨columns, dtype, rows⟩ = d.validator p ⟨columns, dtype', rows⟩ := by
  simp only [datasetCatalog, baostockDailyBarDatasetIds, akshareDailyBarAdjustments,
    List.map_cons, List.map_nil, List.cons_append, List.nil_append, List.mem_cons,
    List.not_mem_nil, or_false] at hd
  rcases hd with rfl | rfl | rfl | rfl | rfl | rfl | rfl | rfl | rfl | rfl | rfl | rfl | rfl |
    rfl | rfl | rfl | rfl | rfl | rfl | rfl | rfl | rfl | rfl | rfl | rfl | rfl | rfl <;> rfl

private theorem sorted_of_sortValues {env : WriteEnv} {columns : List String} {rows : List Row}
    (h : sortValues env columns rows = rows) :
    rows.Pairwise fun a b => sortKey columns a ≤ sortKey columns b := by
  by_cases hsingle : ∃ c, columns = [c]
  · obtain ⟨c, rfl⟩ := hsingle
    have hsorted := (env.sortValues c).sorted rows
    have hrows : (env.sortValues c).sort rows = rows := h
    rw [hrows] at hsorted
    refine hsorted.imp fun {a b} hab => ?_
    rcases lt_or_eq_of_le hab with hlt | heq
    · exact le_of_lt (List.Lex.rel hlt)
    · exact le_of_eq (by simp only [sortKey, List.map_cons, List.map_nil, heq])
  · have hseveral : columns.length ≠ 1 := fun hlen => hsingle (List.length_eq_one_iff.mp hlen)
    have hsorted := stableSort_sorted (sortKey columns) rows
    rw [← sortValues_several hseveral env, h] at hsorted
    exact hsorted

theorem StoredWell.represents {p : Pandas} {d : DatasetDefinition} (hd : d ∈ datasetCatalog)
    (hkeyed : d.id ∉ delistDatasetIds) {value : String} {rows : List Row}
    (hwell : StoredWell p d value rows) : Represents p d value rows := by
  obtain ⟨dtype, hvalid⟩ := hwell.valid
  have hstored : d.validator p (fileFrame p d.schema rows) = .ok () := by
    rw [← hvalid]
    exact validator_dtype hd p _ _ _ rows
  exact
    { columns := ⟨rfl, fun r hr => (hwell.settled r hr).outside⟩
      partition := fun c hc r hr => hwell.inPartition r hr c hc
      fixed := fun e he r hr => fixedCell_eq ((hwell.settled r hr).fixed e he)
      sorted := sorted_of_sortValues (hwell.sorted (WriteEnv.plain true))
      unique := validator_unique hd hkeyed hstored
      valid := hstored }

/-- Every file lies in a directory of one name. -/
def OwnDirectories (st : Store) : Prop :=
  ∀ dataset value rows, st.files dataset value = some rows → NamesDirectory value

theorem ownDirectories_callStep {p : Pandas} {h : Hashing} {st st' : Store}
    {call : WriteCall} (hst : OwnDirectories st) (hnames : call.NamesDirectories p)
    (hstep : callStep p h st call = some st') : OwnDirectories st' := by
  obtain rfl := Option.some.inj hstep
  cases hd : datasetDefinition call.dataset with
  | error e =>
    simp only [writeDataset, hd]
    exact hst
  | ok d =>
    obtain ⟨hmem, -⟩ := mem_datasetCatalog hd
    obtain ⟨n, written, last, hended⟩ := writeDataset_ended p h call.env hd call.df call.partition
      call.mode call.skipExisting st
    intro dataset value rows hfile
    by_cases heq : dataset = d.id
    · rw [heq] at hfile
      rcases hended.whole value with hsame | ⟨k, frame, hplanned, -⟩
      · rw [hsame] at hfile
        exact hst d.id value rows hfile
      · exact (hnames d hd).of_planned (wellFormed_of_mem hmem) hplanned
    · rw [hended.other_dataset heq value] at hfile
      exact hst dataset value rows hfile

/-- What a call whose values are directory names preserves. -/
private theorem stored_callStepAt {p : Pandas} {h : Hashing} {st st' : Store} {call : WriteCall}
    (hst : WellStored p st ∧ OwnDirectories st) (hnames : call.NamesDirectories p)
    (hstep : callStepAt p h st call = some st') : WellStored p st' ∧ OwnDirectories st' := by
  rw [callStepAt_eq hnames] at hstep
  exact ⟨wellStored_callStep hst.1 hstep, ownDirectories_callStep hst.2 hnames hstep⟩

/-- Two daily bars out of order and without their fixed adjustment. -/
def unsortedBars : Frame :=
  ⟨["code", "date", "close"], fun _ => .object,
    [rowOf [("code", .text "600000"), ("date", .date 19725), ("close", .real 8)],
      rowOf [("code", .text "600000"), ("date", .date 19724), ("close", .int 7)]]⟩

def unsortedBarsCall : WriteCall where
  env := .plain true
  dataset := "akshare_cn_stock_daily_bar_qfq"
  df := unsortedBars
  partition := some [("code", .text "600000")]
  mode := none
  skipExisting := false

/-- A daily bar whose code spells another code's directory. -/
def aliasedBarCall : WriteCall where
  env := .plain true
  dataset := "baostock_cn_stock_daily_bar_unadjusted"
  df := ⟨["date", "code"], fun _ => .object,
    [rowOf [("date", .date 19724), ("code", .text "sh.600000/.")]]⟩
  partition := some [("code", .text "sh.600000/.")]
  mode := some .replace
  skipExisting := false

end QuantDataCenter.Storage
