import QuantDataCenter.Sources.SpotTradeDate
import QuantDataCenter.Storage.StoreInvariant

/-!
The daily bars that spot runs and historical upserts write into one dataset. A spot
run adds the keys that are absent and leaves every stored row; a historical upsert
wins every key it brings.
-/

set_option autoImplicit false
set_option relaxedAutoImplicit false

namespace QuantDataCenter.Sources

open QuantDataCenter.Lib.Checked QuantDataCenter.Lib.Keyed QuantDataCenter.Lib.Transition
open QuantDataCenter.Tabular QuantDataCenter.Quality QuantDataCenter.Storage

/-- The key of a daily bar: code, date and adjustment. -/
def barKey (r : Row) : List Cell := rowKey unadjustedDailyBarDataset.uniqueColumns r

theorem cells_of_barKey {r w : Row} (heq : barKey r = barKey w) :
    r "code" = w "code" ∧ r "date" = w "date" ∧ r "adjustment" = w "adjustment" := by
  have hcells : [r "code", r "date", r "adjustment"] = [w "code", w "date", w "adjustment"] := heq
  simpa using hcells

/-- The code of a bar or a quote, as it is compared and as it names a partition. -/
def barCode (p : Pandas) (r : Row) : String := strip (p.str (r "code"))

def barsAt (st : Store) (value : String) : List Row := content st unadjustedDailyBarDataset value

/-- Every stored bar stays, and a bar that is new has a key that was absent and comes from one
of the `added` bars, whose code names the partition. -/
structure AddsBars (p : Pandas) (added : List Row) (st st' : Store) : Prop where
  kept : ∀ value, ∀ r ∈ barsAt st value, r ∈ barsAt st' value
  fresh : ∀ value, ∀ r ∈ barsAt st' value, r ∈ barsAt st value ∨
    barKey r ∉ (barsAt st value).map barKey ∧
      ∃ g ∈ added, value = barCode p g ∧ barKey r = barKey g ∧
        r "quality_status" = g "quality_status"

theorem AddsBars.refl (p : Pandas) (added : List Row) (st : Store) : AddsBars p added st st :=
  ⟨fun _ _ h => h, fun _ _ h => Or.inl h⟩

theorem AddsBars.trans {p : Pandas} {added : List Row} {st st' st'' : Store}
    (first : AddsBars p added st st') (second : AddsBars p added st' st'') :
    AddsBars p added st st'' := by
  constructor
  · intro value r hr
    exact second.kept value r (first.kept value r hr)
  · intro value r hr
    rcases second.fresh value r hr with hr' | ⟨habsent, hadded⟩
    · exact first.fresh value r hr'
    · refine Or.inr ⟨fun hkey => habsent ?_, hadded⟩
      obtain ⟨r', hr', heq⟩ := List.mem_map.mp hkey
      exact List.mem_map.mpr ⟨r', first.kept value r' hr', heq⟩

private theorem addsBars_of_files (p : Pandas) {st st' : Store} (added : List Row)
    (hfiles : ∀ value, st'.files unadjustedDailyBarDataset.id value =
      st.files unadjustedDailyBarDataset.id value) : AddsBars p added st st' := by
  have hsame : ∀ value, barsAt st' value = barsAt st value := by
    intro value
    simp only [barsAt, content, hfiles]
  exact ⟨fun value r hr => by rw [hsame]; exact hr, fun value r hr => Or.inl (by rw [← hsame]; exact hr)⟩

/-- Every stored bar stays, and the bars that are new are spot closes of keys that were absent. -/
structure OnlyAdds (st st' : Store) : Prop where
  kept : ∀ value, ∀ r ∈ barsAt st value, r ∈ barsAt st' value
  added : ∀ value, ∀ r ∈ barsAt st' value, r ∈ barsAt st value ∨
    barKey r ∉ (barsAt st value).map barKey ∧ r "quality_status" = .text "spot_quote_close"

private theorem AddsBars.onlyAdds {p : Pandas} {added : List Row} {st st' : Store}
    (h : AddsBars p added st st')
    (hspot : ∀ g ∈ added, g "quality_status" = .text "spot_quote_close") : OnlyAdds st st' := by
  refine ⟨h.kept, fun value r hr => ?_⟩
  rcases h.fresh value r hr with hr' | ⟨habsent, g, hg, -, -, hquality⟩
  · exact Or.inl hr'
  · exact Or.inr ⟨habsent, hquality.trans (hspot g hg)⟩

theorem bars_mem : unadjustedDailyBarDataset ∈ datasetCatalog := by
  simp [datasetCatalog, akshareDailyBarAdjustments, unadjustedDailyBarDataset]

theorem bars_definition : datasetDefinition unadjustedDailyBarDataset.id =
    .ok unadjustedDailyBarDataset := rfl

theorem bars_wellFormed : unadjustedDailyBarDataset.WellFormed := wellFormed_of_mem bars_mem

section Upsert

variable {p : Pandas} {h : Hashing} {env : WriteEnv} {df : Frame} {code : String} {skip : Bool}
  {st : Store}

private theorem nodup_barsAt (hst : WellStored p st) (value : String) :
    ((barsAt st value).map barKey).Nodup := by
  unfold barsAt content
  cases hfile : st.files unadjustedDailyBarDataset.id value with
  | none => exact List.nodup_nil
  | some rows => exact ((hst _ bars_mem value rows hfile).represents bars_mem (by decide)).unique

/-- An upsert that is told to skip and does not finds a key that is absent. -/
private theorem absent_of_not_skipped {io : PartitionIo} {partition : Partition} {value : String}
    {fresh frame : Frame} (hst : WellStored p st)
    (hframes : upsertFrames p env io unadjustedDailyBarDataset df partition value true st =
      .ok (fresh, some frame)) (hne : fresh.rows ≠ []) :
    ∃ w ∈ fresh.rows, barKey w ∉ (barsAt st value).map barKey := by
  unfold upsertFrames at hframes
  obtain ⟨fresh', -, hframes⟩ := bind_eq_ok.mp hframes
  obtain ⟨existing, hread, hframes⟩ := bind_eq_ok.mp hframes
  split at hframes
  case isTrue => cases hframes
  case isFalse hnot =>
    obtain ⟨combined, -, hout⟩ := bind_eq_ok.mp hframes
    obtain ⟨rfl, -⟩ := Prod.mk.inj (Except.ok.inj hout)
    obtain ⟨hrows, -⟩ := readDataset_rows bars_wellFormed (hst _ bars_mem value) hread
    by_contra hall
    push Not at hall
    apply hnot
    refine ⟨rfl, ?_⟩
    obtain ⟨w, hw⟩ := List.exists_mem_of_ne_nil _ hne
    unfold incomingKeysExist
    rw [decide_eq_true_iff, hrows]
    refine ⟨?_, hne, by decide, ?_⟩
    · intro hnil
      have hkey := hall w hw
      rw [barsAt, hnil] at hkey
      cases hkey
    · intro key hkey
      obtain ⟨r, hr, rfl⟩ := List.mem_map.mp hkey
      obtain ⟨r', hr', heq⟩ := List.mem_map.mp (hall r hr)
      exact List.mem_map.mpr ⟨r', by rw [hrows]; exact hr', congrArg (List.map _) heq⟩

/-- What an upsert of a code makes of the stored bars: nothing, or the combination
with the rows it coerced. -/
theorem barsAt_of_upsert (hst : WellStored p st) (value : String) :
    barsAt (writeDataset p h env unadjustedDailyBarDataset.id df (some [("code", .text code)])
        (some .upsert) skip st).2 value = barsAt st value ∨
    ∃ coerced sorted, partitionValue p unadjustedDailyBarDataset (some [("code", .text code)]) =
        .ok value ∧
      coercedFrame p unadjustedDailyBarDataset df = .ok coerced ∧
      List.Perm sorted coerced.rows ∧
      barsAt (writeDataset p h env unadjustedDailyBarDataset.id df (some [("code", .text code)])
        (some .upsert) skip st).2 value =
        combinedRows env unadjustedDailyBarDataset (barsAt st value) sorted ∧
      (skip = true → sorted ≠ [] → ∃ w ∈ sorted, barKey w ∉ (barsAt st value).map barKey) := by
  obtain ⟨n, written, last, hended⟩ := writeDataset_ended p h env bars_definition df
    (some [("code", .text code)]) (some .upsert) skip st
  rcases hended.whole value with hsame | ⟨k, frame, hplanned, hfile⟩
  · exact Or.inl (by simp only [barsAt, content, hsame])
  · refine Or.inr ?_
    cases hplanned with
    | replace hmode _ _ => exact absurd rfl hmode
    | group hspans _ _ _ _ _ => cases hspans.2.2
    | @upsert value fresh frame _ hvalue hframe =>
      have hfresh : ∃ coerced, coercedFrame p unadjustedDailyBarDataset df = .ok coerced ∧
          fresh.rows = sortValues env unadjustedDailyBarDataset.sortColumns coerced.rows := by
        have hprepare := hframe
        unfold upsertFrames at hprepare
        obtain ⟨fresh', hprepare, hrest⟩ := bind_eq_ok.mp hprepare
        obtain ⟨coerced, hcoerced, -, hrows, -⟩ := prepareDatasetFrame_rows bars_wellFormed hprepare
        obtain ⟨existing, -, hrest⟩ := bind_eq_ok.mp hrest
        split at hrest
        · cases hrest
        · obtain ⟨combined, -, hout⟩ := bind_eq_ok.mp hrest
          obtain ⟨rfl, -⟩ := Prod.mk.inj (Except.ok.inj hout)
          exact ⟨coerced, hcoerced, by rw [hrows]⟩
      obtain ⟨coerced, hcoerced, hsorted⟩ := hfresh
      obtain ⟨coerced', hcoerced', -, hrows, -⟩ :=
        upsertFrames_stored bars_wellFormed hvalue (hst _ bars_mem value) hframe
      rw [hcoerced] at hcoerced'
      obtain rfl := Except.ok.inj hcoerced'
      refine ⟨coerced, fresh.rows, hvalue, hcoerced, ?_, ?_, ?_⟩
      · rw [hsorted]
        exact sortValues_perm env _ _
      · simp only [barsAt, content] at hrows ⊢
        rw [hfile, Option.getD_some, hrows, hsorted]
      · rintro rfl hne
        exact absent_of_not_skipped hst hframe hne

end Upsert

/-! One group -/

/-- A daily bar from a quote, as it is prepared for its group. -/
structure SpotBar (p : Pandas) (day : Int) (r : Row) : Prop where
  coerced : Coerced p unadjustedDailyBarDataset r
  code : ∃ s, r "code" = .text s
  date : r "date" = .date day
  quality : r "quality_status" = .text "spot_quote_close"

section Group

variable {p : Pandas} {h : Hashing} {env : SpotEnv} {bars : Frame} {day : Int} {g : Row} {st : Store}

theorem adjustment_of_coerced {r : Row} (hr : Coerced p unadjustedDailyBarDataset r) :
    r "adjustment" = .text "unadjusted" :=
  fixedCell_eq (hr.fixed ("adjustment", "unadjusted") (by decide))

theorem barKey_coercedRow (hg : SpotBar p day g) {df : Frame}
    (hcolumns : df.columns = fieldNames unadjustedDailyBarDataset.schema)
    (hcoerced : Coerced p unadjustedDailyBarDataset (coercedRow p unadjustedDailyBarDataset df g)) :
    barKey (coercedRow p unadjustedDailyBarDataset df g) = barKey g ∧
      coercedRow p unadjustedDailyBarDataset df g "quality_status" = .text "spot_quote_close" := by
  obtain ⟨s, hcode⟩ := hg.code
  have hsame : ∀ field ∈ unadjustedDailyBarDataset.schema, field.name ≠ "adjustment" →
      field.type.accepts (g field.name) = true →
      coercedRow p unadjustedDailyBarDataset df g field.name = g field.name :=
    fun field hfield hname haccepts =>
      coercedRow_of_accepts bars_wellFormed hcolumns hfield hname haccepts
  have hcode' := hsame ⟨"code", .string⟩ (by decide) (by decide) (by rw [hcode]; rfl)
  have hdate' := hsame ⟨"date", .date32⟩ (by decide) (by decide) (by rw [hg.date]; rfl)
  have hquality := hsame ⟨"quality_status", .string⟩ (by decide) (by decide)
    (by rw [hg.quality]; rfl)
  have hadjustment : coercedRow p unadjustedDailyBarDataset df g "adjustment" = g "adjustment" := by
    rw [adjustment_of_coerced hcoerced, adjustment_of_coerced hg.coerced]
  refine ⟨?_, hquality.trans hg.quality⟩
  change [_, _, _] = [_, _, _]
  rw [hcode', hdate', hadjustment]

private theorem spotDailyBarKey_congr {r r' : Row} (heq : barKey r = barKey r') :
    spotDailyBarKey p r = spotDailyBarKey p r' := by
  obtain ⟨hcode, hdate, hadjustment⟩ := cells_of_barKey heq
  unfold spotDailyBarKey
  rw [hcode, hdate, hadjustment]

/-- A group of one bar is upserted without the skip only if its key is absent. -/
private theorem absent_of_branch {readable : Bool} {value : String}
    (hbranch : groupBranch p readable (st.files unadjustedDailyBarDataset.id value) [g] = .upsert) :
    barKey g ∉ (barsAt st value).map barKey := by
  unfold groupBranch at hbranch
  unfold barsAt content
  cases hfile : st.files unadjustedDailyBarDataset.id value with
  | none => exact List.not_mem_nil
  | some rows =>
    rw [hfile] at hbranch
    simp only at hbranch
    split at hbranch
    case h_1 incoming existing hincoming hexisting =>
      split at hbranch
      case isTrue => cases hbranch
      case isFalse hnot =>
        intro hmem
        obtain ⟨r, hr, hkey⟩ := List.mem_map.mp hmem
        apply hnot
        have hread : spotDailyBarKeySet p rows = .ok existing := by
          unfold readSpotDailyBarPartitionKeys at hexisting
          split at hexisting
          · exact hexisting
          · cases hexisting
        obtain ⟨key, hin, hrkey⟩ := mem_of_mapM_eq_ok hread hr
        have hsingle : incoming = [key] := by
          unfold spotDailyBarKeySet at hincoming
          rw [List.mapM_cons, ← spotDailyBarKey_congr hkey, hrkey] at hincoming
          exact (Except.ok.inj hincoming).symm
        rw [hsingle]
        exact ⟨List.cons_ne_nil _ _, by simpa using hin⟩
    case h_2 => cases hbranch

theorem partitionValue_barCode {value : String}
    (hvalue : partitionValue p unadjustedDailyBarDataset (some [("code", .text (barCode p g))]) =
      .ok value) : value = barCode p g := by
  have hstrip : strip (barCode p g) = barCode p g := strip_strip _
  generalize barCode p g = code at hvalue hstrip ⊢
  have hcolumn : unadjustedDailyBarDataset.partitionColumn = some "code" := rfl
  simp only [partitionValue, hcolumn, if_true, normalizePartitionValue, true_and,
    aksharePartitionCode, Pandas.str, hstrip] at hvalue
  split at hvalue <;> split at hvalue <;> cases hvalue
  · rfl
  · rfl

theorem upsertSpotGroup_adds (hst : WellStored p st)
    (hcolumns : bars.columns = fieldNames unadjustedDailyBarDataset.schema)
    (hg : SpotBar p day g) (k : ℕ) {added : List Row} (hadded : g ∈ added) :
    WellStored p (upsertSpotGroup p h env k bars (g "code") [g] st).2 ∧
      AddsBars p added st (upsertSpotGroup p h env k bars (g "code") [g] st).2 := by
  rcases @upsertSpotGroup_cases p h env k bars (g "code") [g] st with heq |
    ⟨value, skip, hvalue, hbranch, heq⟩
  · rw [heq]
    exact ⟨hst, .refl p added st⟩
  · rw [heq]
    change partitionValue p _ (some [("code", .text (barCode p g))]) = .ok value at hvalue
    have hwell : WellStored p (writeSpotGroup p h env k bars (g "code") [g] skip st).2 :=
      @wellStored_callStep p h st _ ⟨env.bars k, unadjustedDailyBarDataset.id,
        { bars with rows := [g] }, some [("code", .text (barCode p g))], some .upsert, skip⟩
        hst rfl
    refine ⟨hwell, ?_⟩
    -- in each partition: nothing, or the bar beside the stored ones
    have hpart : ∀ value', barsAt (writeSpotGroup p h env k bars (g "code") [g] skip st).2 value' =
        barsAt st value' ∨
        ∃ w, (barsAt (writeSpotGroup p h env k bars (g "code") [g] skip st).2 value').Perm
            (barsAt st value' ++ [w]) ∧
          barKey w ∉ (barsAt st value').map barKey ∧ value' = barCode p g ∧
          barKey w = barKey g ∧ w "quality_status" = g "quality_status" := by
      intro value'
      rcases @barsAt_of_upsert p h (env.bars k) { bars with rows := [g] } (barCode p g) skip
        st hst value' with hsame | ⟨coerced, sorted, hvalue', hcoerced, hperm, hrows, hskip⟩
      · exact Or.inl hsame
      · rw [hvalue] at hvalue'
        obtain rfl := Except.ok.inj hvalue'
        obtain ⟨-, hall⟩ := coercedFrame_coerced bars_wellFormed hcoerced
        have hsingle := coercedFrame_rows hcoerced
        rw [List.map_singleton] at hsingle
        rw [hsingle] at hall hperm
        obtain ⟨hkey, hquality⟩ :=
          @barKey_coercedRow p day g hg { bars with rows := [g] } hcolumns
            (hall _ List.mem_cons_self)
        rw [List.perm_singleton.mp hperm] at hrows hskip
        have habsent : barKey g ∉ (barsAt st value).map barKey := by
          cases skip with
          | false => exact absent_of_branch hbranch
          | true =>
            obtain ⟨w, hw, hnot⟩ := hskip rfl (List.cons_ne_nil _ _)
            rw [List.mem_singleton.mp hw, hkey] at hnot
            exact hnot
        refine Or.inr ⟨_, ?_, by rw [hkey]; exact habsent, partitionValue_barCode hvalue, hkey,
          hquality.trans hg.quality.symm⟩
        refine (List.Perm.of_eq hrows).trans ?_
        apply combinedRows_perm
        rw [List.map_append, List.nodup_append]
        refine ⟨nodup_barsAt hst value, List.nodup_singleton _, ?_⟩
        intro a ha b hb
        rw [List.map_singleton, List.mem_singleton] at hb
        rintro rfl
        apply habsent
        rw [hb] at ha
        rw [← hkey]
        exact ha
    constructor
    · intro value' r hr
      rcases hpart value' with hsame | ⟨w, hperm, -⟩
      · rw [hsame]
        exact hr
      · exact hperm.mem_iff.mpr (List.mem_append_left _ hr)
    · intro value' r hr
      rcases hpart value' with hsame | ⟨w, hperm, habsent, hcode, hkey, hquality⟩
      · exact Or.inl (by rw [← hsame]; exact hr)
      · rcases List.mem_append.mp (hperm.mem_iff.mp hr) with hr | hr
        · exact Or.inl hr
        · rw [List.mem_singleton.mp hr]
          exact Or.inr ⟨habsent, g, hadded, hcode, hkey, hquality⟩

/-- The groups of bars of distinct codes. -/
def SpotGroups (p : Pandas) (day : Int) (added : List Row) (groups : List (Cell × List Row)) : Prop :=
  ∀ group ∈ groups, ∃ g ∈ added, group = (g "code", [g]) ∧ SpotBar p day g

theorem upsertSpotGroups_adds
    (hcolumns : bars.columns = fieldNames unadjustedDailyBarDataset.schema) {added : List Row}
    {groups : List (Cell × List Row)} (hgroups : SpotGroups p day added groups) (k : ℕ)
    (hst : WellStored p st) :
    WellStored p (upsertSpotGroups p h env bars k groups st).2 ∧
      AddsBars p added st (upsertSpotGroups p h env bars k groups st).2 := by
  induction groups generalizing k st with
  | nil => exact ⟨hst, .refl p added st⟩
  | cons group groups ih =>
    obtain ⟨g, hadded, rfl, hg⟩ := hgroups _ List.mem_cons_self
    obtain ⟨hwell, hadds⟩ :=
      @upsertSpotGroup_adds p h env bars day g st hst hcolumns hg k added hadded
    unfold upsertSpotGroups
    rcases hout : upsertSpotGroup p h env k bars (g "code") [g] st with ⟨result, st1⟩
    rw [hout] at hwell hadds
    cases result with
    | error e => exact ⟨hwell, hadds⟩
    | ok u =>
      obtain ⟨hwell', hadds'⟩ :=
        ih (fun group hgroup => hgroups group (List.mem_cons_of_mem _ hgroup)) (k + 1) hwell
      exact ⟨hwell', hadds.trans hadds'⟩

end Group

/-! From the quotes to the groups -/

section Quotes

variable {p : Pandas} {h : Hashing} {env : SpotEnv} {d : DatasetDefinition} {st : Store}

/-- Quotes that were stored under a trade date: every code once, all of that date. -/
structure QuotesOf (p : Pandas) (d : DatasetDefinition) (day : Int) (response : Frame) : Prop where
  cells : ∀ q ∈ response.rows, (∃ s, coercedRow p d response q "code" = .text s) ∧
    coercedRow p d response q "trade_date" = .date day
  distinct : (response.rows.map fun q => coercedRow p d response q "code").Nodup

theorem spotQuoteDatasets_mem : ∀ d ∈ spotQuoteDatasets, d ∈ datasetCatalog ∧
    ⟨"code", .string⟩ ∈ d.schema ∧ ⟨"trade_date", .date32⟩ ∈ d.schema ∧
    d.uniqueColumns = ["trade_date", "code"] ∧ d.id ∉ delistDatasetIds := by
  intro d hd
  simp only [spotQuoteDatasets, List.mem_cons, List.not_mem_nil, or_false] at hd
  rcases hd with rfl | rfl
  · exact ⟨by simp [datasetCatalog], by decide, by decide, rfl, by decide⟩
  · exact ⟨by simp [datasetCatalog], by decide, by decide, rfl, by decide⟩

private theorem spotQuoteDatasets_format : ∀ d ∈ spotQuoteDatasets, d.codeFormat = .sixDigit := by
  decide

theorem quotesOf_of_written (hd : d ∈ spotQuoteDatasets) (hst : WellStored p st)
    {response : Frame} {day : Int} {result : DatasetWriteResult} {stored : Store}
    (hwrite : writeDataset p h env.quotes d.id response
      (some [("trade_date", .text (p.repr (.date day)))]) none false st = (.ok result, stored)) :
    QuotesOf p d day response := by
  obtain ⟨hdef, hcolumn, hmode, -⟩ := spotQuoteDatasets_spec d hd
  obtain ⟨hmem, hcode, htrade, hunique, hkeyed⟩ := spotQuoteDatasets_mem d hd
  have wf := wellFormed_of_mem hmem
  rw [writeDataset_eq env.quotes hdef, Option.getD_none, hmode] at hwrite
  change writeDatasetReplace p h env.quotes d response _ false st = _ at hwrite
  unfold writeDatasetReplace at hwrite
  split at hwrite
  case h_1 => cases hwrite
  case h_2 value hvalue =>
    split at hwrite
    case h_1 => cases hwrite
    case h_2 frame hframe =>
      obtain ⟨coerced, hcoerced, hin, hrows, hwell⟩ :=
        replaceFrame_stored wf hvalue (hst d hmem value) hframe
      rw [if_neg (by simp)] at hrows
      have hperm : frame.rows.Perm (response.rows.map (coercedRow p d response)) := by
        rw [hrows, ← coercedFrame_rows hcoerced]
        exact sortValues_perm _ _ _
      obtain rfl := partitionValue_tradeDate hcolumn hvalue
      have hsix := hwell.codes hmem (spotQuoteDatasets_format d hd)
      have hcells : ∀ r ∈ frame.rows, (∃ s, r "code" = .text s) ∧ r "trade_date" = .date day := by
        intro r hr
        have hcodeType := (hwell.settled r hr).accepts _ hcode
        have hdateType := (hwell.settled r hr).accepts _ htrade
        obtain ⟨hpresent, hdate⟩ := hwell.inPartition r hr "trade_date" (by rw [hcolumn]; rfl)
        constructor
        · have hdigits := hsix r hr
          cases hcell : r "code" with
          | text s => exact ⟨s, rfl⟩
          | null => simp [hcell, isSixDigitCode, strippedText] at hdigits
          | _ => simp [FieldType.accepts, hcell] at hcodeType
        · cases hcell : r "trade_date" with
          | date day' =>
            rw [hcell] at hdate
            rw [p.repr_date_injective hdate]
          | null => exact absurd hcell hpresent
          | _ => simp [FieldType.accepts, hcell] at hdateType
      constructor
      · intro q hq
        exact hcells _ (hperm.mem_iff.mpr (List.mem_map_of_mem hq))
      · have hkeys := (hwell.represents hmem hkeyed).unique
        have hsplit : frame.rows.map (rowKey d.uniqueColumns) =
            (frame.rows.map fun r => r "code").map fun code => [.date day, code] := by
          rw [List.map_map, hunique]
          refine List.map_congr_left fun r hr => ?_
          simp [rowKey, (hcells r hr).2]
        rw [hsplit] at hkeys
        have hcodes := List.Nodup.of_map _ hkeys
        have hpermCodes := (hperm.map fun r => r "code").nodup_iff.mp hcodes
        rwa [List.map_map] at hpermCodes

theorem spotToDailyBar_spec {endpoint : String} {own : List String} {response frame : Frame}
    (hconvert : spotToDailyBarUnadjusted p endpoint own response = .ok frame) :
    frame.columns = fieldNames unadjustedDailyBarDataset.schema ∧
      ∃ quotes : List Row, quotes.Sublist response.rows ∧
        frame.rows = quotes.map (dailyBarCell p endpoint (carriedColumns ++ own)) ∧
        (quotes ≠ [] → "code" ∈ response.columns ∧ "trade_date" ∈ response.columns ∧
          frame.dtype = dailyBarDtype (carriedColumns ++ own) response.dtype) := by
  unfold spotToDailyBarUnadjusted at hconvert
  simp only at hconvert
  split at hconvert
  case isTrue =>
    obtain rfl := Except.ok.inj hconvert
    exact ⟨rfl, [], List.nil_sublist _, rfl, fun hne => absurd rfl hne⟩
  case isFalse =>
    split at hconvert
    case isFalse => cases hconvert
    case isTrue hpresent =>
      obtain ⟨u, -, hconvert⟩ := bind_eq_ok.mp hconvert
      obtain rfl := Except.ok.inj hconvert
      refine ⟨rfl, response.rows, List.Sublist.refl _, rfl, fun _ => ?_⟩
      exact ⟨hpresent _ (by simp [quoteColumns]), hpresent _ (by simp [quoteColumns]), rfl⟩

/-- A frame of daily bars that stands for quotes: converted, and perhaps with rows dropped. -/
structure BarsFrom (p : Pandas) (response bars : Frame) : Prop where
  converted : ∃ endpoint own frame, spotToDailyBarUnadjusted p endpoint own response = .ok frame ∧
    bars.columns = frame.columns ∧ bars.dtype = frame.dtype ∧ bars.rows.Sublist frame.rows

private theorem coercedRow_dailyBar (hd : d ∈ spotQuoteDatasets) {response bars : Frame}
    {endpoint : String}
    {own : List String} (hcolumns : bars.columns = fieldNames unadjustedDailyBarDataset.schema)
    (hdtype : bars.dtype = dailyBarDtype (carriedColumns ++ own) response.dtype)
    (hcode : "code" ∈ response.columns) (hdate : "trade_date" ∈ response.columns) (q : Row) :
    coercedRow p unadjustedDailyBarDataset bars
        (dailyBarCell p endpoint (carriedColumns ++ own) q) "code" =
      coercedRow p d response q "code" ∧
    coercedRow p unadjustedDailyBarDataset bars
        (dailyBarCell p endpoint (carriedColumns ++ own) q) "date" =
      coercedRow p d response q "trade_date" ∧
    coercedRow p unadjustedDailyBarDataset bars
        (dailyBarCell p endpoint (carriedColumns ++ own) q) "quality_status" =
      .text "spot_quote_close" := by
  obtain ⟨hmem, hcodeField, hdateField, -, -⟩ := spotQuoteDatasets_mem d hd
  have wf := wellFormed_of_mem hmem
  have hcolumn : ∀ name ∈ fieldNames unadjustedDailyBarDataset.schema, name ∈ bars.columns := by
    intro name hname
    rw [hcolumns]
    exact hname
  refine ⟨?_, ?_, ?_⟩
  · rw [@coercedRow_cell p _ bars_wellFormed bars ⟨"code", .string⟩ (by decide) (by decide)
        (hcolumn _ (by decide)),
      @coercedRow_cell p d wf response ⟨"code", .string⟩ hcodeField (by decide) hcode, hdtype]
    simp [dailyBarDtype, dailyBarCell, carriedColumns]
  · rw [@coercedRow_cell p _ bars_wellFormed bars ⟨"date", .date32⟩ (by decide) (by decide)
        (hcolumn _ (by decide)),
      @coercedRow_cell p d wf response ⟨"trade_date", .date32⟩ hdateField (by decide) hdate, hdtype]
    simp [dailyBarDtype, dailyBarCell]
  · have hquality : dailyBarCell p endpoint (carriedColumns ++ own) q "quality_status" =
        .text "spot_quote_close" := by
      simp [dailyBarCell]
    have hsame := @coercedRow_of_accepts p _ bars_wellFormed bars hcolumns
      ⟨"quality_status", .string⟩ (by decide) (by decide)
      (dailyBarCell p endpoint (carriedColumns ++ own) q) (by rw [hquality]; rfl)
    exact hsame.trans hquality

private theorem str_coerceCell_string (dtype : Dtype) (c : Cell) :
    p.str ((coerceCell p dtype .string c).toOption.getD .null) = p.str c := by
  cases c <;> cases dtype <;> simp [coerceCell, Pandas.str, Except.toOption]

theorem spotBars_of_prepared (hd : d ∈ spotQuoteDatasets) {response bars incoming : Frame}
    {day : Int} (hquotes : QuotesOf p d day response) (hbars : BarsFrom p response bars)
    {sorts : WriteEnv} (hprepare : prepareDatasetFrame p sorts unadjustedDailyBarDataset bars none
      false = .ok incoming) :
    incoming.columns = fieldNames unadjustedDailyBarDataset.schema ∧
      (∀ g ∈ incoming.rows, SpotBar p day g) ∧ (incoming.rows.map fun g => g "code").Nodup ∧
      (incoming.rows.map (barCode p)).Perm (bars.rows.map (barCode p)) := by
  unfold prepareDatasetFrame at hprepare
  obtain ⟨cleaned, hunvalidated, hrest⟩ := bind_eq_ok.mp hprepare
  obtain rfl : cleaned = incoming := Except.ok.inj hrest
  obtain ⟨fixed, hfixed, -, rfl⟩ := (prepareUnvalidated_eq_ok bars_wellFormed).mp hunvalidated
  obtain ⟨hcolumns, hcoerced⟩ := coercedFrame_coerced bars_wellFormed hfixed
  have hrows := coercedFrame_rows hfixed
  have hperm := sortValues_perm sorts unadjustedDailyBarDataset.sortColumns fixed.rows
  obtain ⟨endpoint, own, frame, hconvert, hbarColumns, hdtype, hsublist⟩ := hbars.converted
  obtain ⟨hframeColumns, quotes, hquotesSub, hframeRows, hpresent⟩ := spotToDailyBar_spec hconvert
  have hcells : ∀ q ∈ quotes, _ := fun q hq =>
    have ⟨hcode, hdate, hframeDtype⟩ := hpresent (List.ne_nil_of_mem hq)
    @coercedRow_dailyBar p d hd response bars endpoint own (hbarColumns.trans hframeColumns)
      (hdtype.trans hframeDtype) hcode hdate q
  refine ⟨hcolumns, ?_, ?_, ?_⟩
  · intro g hg
    have hg' := hperm.mem_iff.mp hg
    have hgCoerced := hcoerced g hg'
    rw [hrows] at hg'
    obtain ⟨b, hb, rfl⟩ := List.mem_map.mp hg'
    have hbFrame := hsublist.subset hb
    rw [hframeRows] at hbFrame
    obtain ⟨q, hq, rfl⟩ := List.mem_map.mp hbFrame
    obtain ⟨hcodeEq, hdateEq, hquality⟩ := hcells q hq
    obtain ⟨hcode, hdate⟩ := hquotes.cells q (hquotesSub.subset hq)
    exact ⟨hgCoerced, by rw [hcodeEq]; exact hcode, hdateEq.trans hdate, hquality⟩
  · -- the codes of the bars are some of the codes of the quotes
    rw [(hperm.map _).nodup_iff, hrows, List.map_map]
    have hcodes : quotes.map (((fun g => g "code") ∘ coercedRow p unadjustedDailyBarDataset bars) ∘
        dailyBarCell p endpoint (carriedColumns ++ own)) =
        quotes.map fun q => coercedRow p d response q "code" :=
      List.map_congr_left fun q hq => (hcells q hq).1
    have hsub := hsublist.map ((fun g => g "code") ∘ coercedRow p unadjustedDailyBarDataset bars)
    rw [hframeRows, List.map_map, hcodes] at hsub
    exact (hsub.trans (hquotesSub.map _)).nodup hquotes.distinct
  · refine (hperm.map (barCode p)).trans ?_
    rw [hrows, List.map_map]
    refine List.Perm.of_eq (List.map_congr_left fun b _ => ?_)
    have hcell := @coercedRow_cell p _ bars_wellFormed bars ⟨"code", .string⟩ (by decide)
      (by decide) (by rw [hbarColumns, hframeColumns]; decide) b
    simp only at hcell
    simp only [Function.comp_apply, barCode, hcell, str_coerceCell_string]

theorem spotGroups_of_prepared {incoming : Frame} {day : Int}
    (hall : ∀ g ∈ incoming.rows, SpotBar p day g)
    (hnodup : (incoming.rows.map fun g => g "code").Nodup) :
    SpotGroups p day incoming.rows (groupRows "code" incoming.rows) := by
  rintro ⟨code, group⟩ hgroup
  obtain ⟨hcode, rfl⟩ := mem_groups.mp hgroup
  obtain ⟨g, hg, rfl⟩ := List.mem_map.mp hcode
  exact ⟨g, hg, by rw [filter_key_eq_singleton hnodup hg], hall g hg⟩

private theorem writeSpotDailyBarRows_adds (hd : d ∈ spotQuoteDatasets) {response bars : Frame}
    {day : Int} (hquotes : QuotesOf p d day response) (hbars : BarsFrom p response bars)
    (hst : WellStored p st) :
    ∃ added : List Row, (∀ g ∈ added, SpotBar p day g ∧ barCode p g ∈ bars.rows.map (barCode p)) ∧
      WellStored p (writeSpotDailyBarRows p h env bars st).2 ∧
      AddsBars p added st (writeSpotDailyBarRows p h env bars st).2 := by
  unfold writeSpotDailyBarRows upsertSpotDailyBarRows
  split
  case isTrue => exact ⟨[], fun g hg => absurd hg List.not_mem_nil, hst, .refl p [] st⟩
  case isFalse =>
    split
    case h_1 => exact ⟨[], fun g hg => absurd hg List.not_mem_nil, hst, .refl p [] st⟩
    case h_2 incoming hprepare =>
      obtain ⟨hcolumns, hall, hnodup, hperm⟩ := spotBars_of_prepared hd hquotes hbars hprepare
      refine ⟨incoming.rows, fun g hg => ⟨hall g hg, ?_⟩,
        upsertSpotGroups_adds hcolumns (spotGroups_of_prepared hall hnodup) 0 hst⟩
      exact hperm.mem_iff.mp (List.mem_map_of_mem hg)

theorem recordQuotes_adds (hd : d ∈ spotQuoteDatasets) (hst : WellStored p st)
    {task : SpotQuoteTask} {response : Frame} {convert : Store → Except StoreError Frame}
    (hconvert : ∀ stored bars, convert stored = .ok bars → BarsFrom p response bars) :
    ∃ added : List Row, (∀ g ∈ added, SpotBar p task.tradeDate g ∧
        ∃ result stored bars, writeDataset p h env.quotes d.id response
            (some [("trade_date", .text (p.repr (.date task.tradeDate)))]) none false st =
              (result, stored) ∧ convert stored = .ok bars ∧
          task.updateDailyBarFromSpot = true ∧ barCode p g ∈ bars.rows.map (barCode p)) ∧
      WellStored p (recordQuotes p h env d.id task response convert st).2 ∧
      AddsBars p added st (recordQuotes p h env d.id task response convert st).2 := by
  obtain ⟨result, stored, hwrite, hcases⟩ :=
    @recordQuotes_cases p h env d.id task response convert st
  have hwell : WellStored p stored := wellStored_of_write hst hwrite
  have hadds : ∀ added, AddsBars p added st stored := by
    intro added
    apply addsBars_of_files
    intro value
    have hfiles := @writeDataset_files_of_ne p h env.quotes d.id unadjustedDailyBarDataset.id
      response (some [("trade_date", .text (p.repr (.date task.tradeDate)))]) none false st
      (spotQuoteDatasets_spec d hd).2.2.2.symm value
    rw [hwrite] at hfiles
    exact hfiles
  rcases hcases with heq | ⟨ok, rfl, ⟨e, -, heq⟩ | ⟨bars, hbars, hflag, heq⟩⟩
  · rw [heq]
    exact ⟨[], fun g hg => absurd hg List.not_mem_nil, hwell, hadds []⟩
  · rw [heq]
    exact ⟨[], fun g hg => absurd hg List.not_mem_nil, hwell, hadds []⟩
  · rw [heq]
    obtain ⟨added, hadded, hwell', hadds'⟩ := @writeSpotDailyBarRows_adds p h env d stored hd
      response bars task.tradeDate (quotesOf_of_written hd hst hwrite) (hconvert stored bars hbars)
      hwell
    refine ⟨added, fun g hg => ?_, hwell', (hadds added).trans hadds'⟩
    exact ⟨(hadded g hg).1, _, stored, bars, hwrite, hbars, hflag, (hadded g hg).2⟩

theorem barsFrom_eastmoney {reads : Derived.Reads} {response bars : Frame}
    (hbars : (do
      let bars ← spotEmToDailyBarUnadjusted p response
      dropDelistedDailyBarRows p reads st bars) = .ok bars) : BarsFrom p response bars := by
  obtain ⟨frame, hconvert, hdrop⟩ := bind_eq_ok.mp hbars
  refine ⟨_, _, frame, hconvert, ?_⟩
  unfold dropDelistedDailyBarRows at hdrop
  split at hdrop
  case isTrue =>
    obtain rfl := Except.ok.inj hdrop
    exact ⟨rfl, rfl, List.Sublist.refl _⟩
  case isFalse =>
    obtain ⟨delist, -, hdrop⟩ := bind_eq_ok.mp hdrop
    obtain ⟨delisted, -, hdrop⟩ := bind_eq_ok.mp hdrop
    obtain rfl := Except.ok.inj hdrop
    exact ⟨rfl, rfl, List.filter_sublist⟩

theorem barsFrom_sina {response bars : Frame}
    (hbars : spotSinaToDailyBarUnadjusted p response = .ok bars) : BarsFrom p response bars :=
  ⟨_, _, bars, hbars, rfl, rfl, List.Sublist.refl _⟩

/-- A run of the spot module, on either path, adds absent keys and leaves every stored bar. -/
theorem runSpotQuote_onlyAdds (hst : WellStored p st) (request : SpotRequest)
    (eastmoney sina : Int → Except StoreError Frame) :
    WellStored p (runSpotQuote p h env request eastmoney sina st).2 ∧
      OnlyAdds st (runSpotQuote p h env request eastmoney sina st).2 := by
  have hsame : OnlyAdds st st := (AddsBars.refl p [] st).onlyAdds fun g hg => absurd hg List.not_mem_nil
  unfold runSpotQuote
  split
  case h_1 => exact ⟨hst, hsame⟩
  case h_2 task hplan =>
    obtain ⟨-, -, -, -, hdataset⟩ := planSpotQuote_spec hplan
    split
    case isTrue => exact ⟨hst, hsame⟩
    case isFalse =>
      unfold recordResult
      split
      case h_1 response _ =>
        unfold recordEastmoney
        rw [hdataset]
        obtain ⟨added, hadded, hwell, hadds⟩ := @recordQuotes_adds p h env
          akshareSpotQuoteEastmoneyDataset st (by simp [spotQuoteDatasets]) hst task response _
          fun stored bars hbars => barsFrom_eastmoney hbars
        exact ⟨hwell, hadds.onlyAdds fun g hg => (hadded g hg).1.quality⟩
      case h_2 =>
        unfold runSinaFallback
        split
        case h_1 => exact ⟨hst, hsame⟩
        case h_2 response _ =>
          obtain ⟨added, hadded, hwell, hadds⟩ := @recordQuotes_adds p h env
            akshareSpotQuoteSinaDataset st (by simp [spotQuoteDatasets]) hst task response _
            fun stored bars hbars => barsFrom_sina hbars
          exact ⟨hwell, hadds.onlyAdds fun g hg => (hadded g hg).1.quality⟩

end Quotes

/-! Historical daily bars -/

/-- The cells of a historical bar that do not come from the source. -/
def confirmedCell (fetchedAt : Int) (selected : Row) (column : String) : Cell :=
  if column = "adjustment" then .text "unadjusted"
  else if column = "source_endpoint" then .text "stock_zh_a_hist"
  else if column = "quality_status" then .text "daily_bar_confirmed"
  else if column = "fetched_at" then .stamp fetchedAt
  else selected column

def confirmedDtype (dtype : String → Dtype) (column : String) : Dtype :=
  if column ∈ ["adjustment", "source_endpoint", "quality_status"] then .object
  else if column = "fetched_at" then .datetime
  else dtype column

/-- What `DailyBarAdapter.normalize` returns for the columns it selected from the source. -/
def confirmedDailyBars (fetchedAt : Int) (selected : Frame) : Frame :=
  if selected.rows = [] ∨ selected.columns = [] then
    ⟨fieldNames akshareDailyBarSchema, fun _ => .object, []⟩
  else
    ⟨fieldNames akshareDailyBarSchema, confirmedDtype selected.dtype,
      selected.rows.map (confirmedCell fetchedAt)⟩

def Confirmed (r : Row) : Prop := r "quality_status" = .text "daily_bar_confirmed"

/-- What happens to the store: a spot run, a historical upsert of a code, a write elsewhere. -/
inductive BarEvent where
  | spot (env : SpotEnv) (request : SpotRequest) (eastmoney sina : Int → Except StoreError Frame)
  | historical (env : WriteEnv) (code : String) (fetchedAt : Int) (selected : Frame)
  | written (call : WriteCall) (other : call.dataset ≠ unadjustedDailyBarDataset.id)

section Historical

variable (p : Pandas) (h : Hashing)

/-- `DailyBarModule.record_result` of an incremental task. -/
def upsertHistorical (env : WriteEnv) (code : String) (fetchedAt : Int) (selected : Frame)
    (st : Store) : Except StoreError DatasetWriteResult × Store :=
  writeDataset p h env unadjustedDailyBarDataset.id (confirmedDailyBars fetchedAt selected)
    (some [("code", .text code)]) (some .upsert) false st

def barStep (st : Store) : BarEvent → Option Store
  | .spot env request eastmoney sina => some (runSpotQuote p h env request eastmoney sina st).2
  | .historical env code fetchedAt selected =>
    some (upsertHistorical p h env code fetchedAt selected st).2
  | .written call _ => callStep p h st call

variable {p h} {env : WriteEnv} {code : String} {fetchedAt : Int} {selected : Frame} {st st' : Store}

private theorem confirmed_of_coerced {coerced : Frame}
    (hcoerced : coercedFrame p unadjustedDailyBarDataset (confirmedDailyBars fetchedAt selected) =
      .ok coerced) : ∀ r ∈ coerced.rows, Confirmed r := by
  intro r hr
  rw [coercedFrame_rows hcoerced] at hr
  obtain ⟨b, hb, rfl⟩ := List.mem_map.mp hr
  have hquality : b "quality_status" = .text "daily_bar_confirmed" ∧
      (confirmedDailyBars fetchedAt selected).columns =
        fieldNames unadjustedDailyBarDataset.schema := by
    unfold confirmedDailyBars at hb ⊢
    split at hb
    case isTrue => cases hb
    case isFalse hnot =>
      rw [if_neg hnot]
      obtain ⟨q, -, rfl⟩ := List.mem_map.mp hb
      exact ⟨by simp [confirmedCell], rfl⟩
  have hsame := @coercedRow_of_accepts p _ bars_wellFormed _ hquality.2
    ⟨"quality_status", .string⟩ (by decide) (by decide) b (by rw [hquality.1]; rfl)
  exact hsame.trans hquality.1

private theorem sortKey_of_barKey {r w : Row} (heq : barKey r = barKey w) :
    sortKey unadjustedDailyBarDataset.sortColumns r =
      sortKey unadjustedDailyBarDataset.sortColumns w := by
  obtain ⟨hcode, hdate, hadjustment⟩ := cells_of_barKey heq
  change [(r "code").rank, (r "adjustment").rank, (r "date").rank] =
    [(w "code").rank, (w "adjustment").rank, (w "date").rank]
  rw [hcode, hdate, hadjustment]

private theorem historical_overrides (hst : WellStored p st)
    (haccepts : raised (upsertHistorical p h env code fetchedAt selected st).1 = false) :
    ∀ w ∈ incomingRows p unadjustedDailyBarDataset (confirmedDailyBars fetchedAt selected),
      Confirmed w ∧ ∃ value, w ∈ barsAt (upsertHistorical p h env code fetchedAt selected st).2 value ∧
        ∀ a ∈ barsAt (upsertHistorical p h env code fetchedAt selected st).2 value,
          barKey a = barKey w → a = w := by
  intro w hw
  obtain ⟨n, written, last, hended⟩ := accepts_ended bars_definition haccepts
  obtain ⟨rfl, hcount⟩ := hended.finished rfl
  have hn : 0 < n := by
    rw [hcount]
    exact Nat.one_pos
  obtain ⟨wrote, hwrote, hplanned⟩ := hended.planned_written rfl 0 hn
  cases hplanned with
  | replace hmode _ _ => exact absurd rfl hmode
  | group hspans _ _ _ _ _ => cases hspans.2.2
  | upsert _ hvalue hframe =>
    obtain ⟨coerced, hcoerced, hin, hrows, hwell⟩ :=
      upsertFrames_stored bars_wellFormed hvalue (hst _ bars_mem wrote.1) hframe
    rw [incomingRows_of_ok hcoerced] at hw
    have hfile : (upsertHistorical p h env code fetchedAt selected st).2.files
        unadjustedDailyBarDataset.id wrote.1 = some wrote.2.rows := by
      unfold upsertHistorical
      rw [← hended.data.files]
      exact putAll_files_of_mem hended.distinct hwrote
    have hstored : barsAt (upsertHistorical p h env code fetchedAt selected st).2 wrote.1 =
        storedRows p unadjustedDailyBarDataset env .upsert false st wrote.1 coerced.rows := by
      unfold barsAt content
      rw [hfile, Option.getD_some, hrows]
      simp [storedRows, sortedIncoming, rowsOf_eq_self hvalue hin]
    have hprevails : PrevailsIn p unadjustedDailyBarDataset .upsert st wrote.1 coerced.rows := by
      refine ⟨?_, fun hmode => by cases hmode⟩
      intro k x hx y _ hy
      exact Or.inr (le_of_eq (sortKey_of_barKey (hy.trans (mem_of_lastOf hx).2.symm)))
    have hlaw := @keyedUpsert_of_prevailsIn p unadjustedDailyBarDataset .upsert st wrote.1 false
      coerced.rows env hprevails
    rw [rowsOf_eq_self hvalue hin, ← hstored] at hlaw
    have hdistinct : (coerced.rows.map barKey).Nodup := by
      obtain ⟨fresh, hprepare, -⟩ := bind_eq_ok.mp hframe
      obtain ⟨coerced', hcoerced', -, hfresh, -, hwell'⟩ :=
        prepared_stored bars_wellFormed hvalue hprepare
      rw [hcoerced] at hcoerced'
      obtain rfl := Except.ok.inj hcoerced'
      have hunique := (hwell'.represents bars_mem (by decide)).unique
      rw [hfresh] at hunique
      exact (((sortValues_perm env _ _).map barKey).nodup_iff).mp hunique
    have hwins : ∀ a ∈ barsAt (upsertHistorical p h env code fetchedAt selected st).2 wrote.1,
        barKey a = barKey w → a = w := by
      intro a ha hkey
      have hlast : ∃ x, lastOf barKey (barKey w) coerced.rows = some x :=
        lastOf_isSome (List.mem_map_of_mem hw)
      obtain ⟨x, hx⟩ := hlast
      have hxw : x = w := by
        have hmem := mem_of_lastOf hx
        exact List.inj_on_of_nodup_map hdistinct hmem.1 hw hmem.2
      rw [← hxw]
      exact hlaw.fresh a ha x (by rw [show rowKey _ a = barKey w from hkey]; exact hx)
    refine ⟨confirmed_of_coerced hcoerced w hw, wrote.1, ?_, hwins⟩
    obtain ⟨a, ha, hkey⟩ := List.mem_map.mp ((hlaw.keys (barKey w)).mpr
      (Or.inr (List.mem_map_of_mem hw)))
    rw [← hwins a ha hkey]
    exact ha

/-- No event takes a confirmed bar away from its key. -/
private theorem confirmed_of_step (hst : WellStored p st) {event : BarEvent}
    (hstep : barStep p h st event = some st') :
    WellStored p st' ∧ ∀ value, ∀ r ∈ barsAt st value, Confirmed r →
      ∃ r' ∈ barsAt st' value, barKey r' = barKey r ∧ Confirmed r' := by
  cases event with
  | spot env request eastmoney sina =>
    obtain rfl := Option.some.inj hstep
    obtain ⟨hwell, hadds⟩ := @runSpotQuote_onlyAdds p h env st hst request eastmoney sina
    exact ⟨hwell, fun value r hr hconfirmed => ⟨r, hadds.kept value r hr, rfl, hconfirmed⟩⟩
  | historical env code fetchedAt selected =>
    obtain rfl := Option.some.inj hstep
    refine ⟨@wellStored_callStep p h st _ ⟨env, unadjustedDailyBarDataset.id,
      confirmedDailyBars fetchedAt selected, some [("code", .text code)], some .upsert, false⟩ hst
      rfl, ?_⟩
    intro value r hr hconfirmed
    rcases @barsAt_of_upsert p h env (confirmedDailyBars fetchedAt selected) code false st hst value
      with hsame | ⟨coerced, sorted, -, hcoerced, hperm, hrows, -⟩
    · exact ⟨r, by unfold upsertHistorical; rw [hsame]; exact hr, rfl, hconfirmed⟩
    · obtain ⟨a, ha, hkey⟩ := List.mem_map.mp (mem_map_combinedRows.mpr
        (Or.inl (List.mem_map_of_mem hr)) :
          barKey r ∈ (combinedRows env unadjustedDailyBarDataset (barsAt st value) sorted).map barKey)
      refine ⟨a, by unfold upsertHistorical; rw [hrows]; exact ha, hkey, ?_⟩
      rcases mem_of_mem_combinedRows ha with hold | hnew
      · rw [List.inj_on_of_nodup_map (nodup_barsAt hst value) hold hr hkey]
        exact hconfirmed
      · exact confirmed_of_coerced hcoerced a (hperm.mem_iff.mp hnew)
  | written call other =>
    refine ⟨wellStored_callStep hst hstep, ?_⟩
    obtain rfl := Option.some.inj hstep
    have hadds : AddsBars p [] st (writeDataset p h call.env call.dataset call.df call.partition
        call.mode call.skipExisting st).2 :=
      addsBars_of_files p [] fun value => writeDataset_files_of_ne other.symm value
    exact fun value r hr hconfirmed => ⟨r, hadds.kept value r hr, rfl, hconfirmed⟩

private theorem confirmed_of_run {events : List BarEvent} (hst : WellStored p st)
    (run : exec (barStep p h) st events = some st') :
    WellStored p st' ∧ ∀ value, ∀ r ∈ barsAt st value, Confirmed r →
      ∃ r' ∈ barsAt st' value, barKey r' = barKey r ∧ Confirmed r' := by
  induction events generalizing st with
  | nil =>
    obtain rfl := Option.some.inj run
    exact ⟨hst, fun value r hr hconfirmed => ⟨r, hr, rfl, hconfirmed⟩⟩
  | cons event events ih =>
    obtain ⟨st1, hstep, hrest⟩ := exec_cons_some.mp run
    obtain ⟨hwell, hfirst⟩ := confirmed_of_step hst hstep
    obtain ⟨hwell', hlater⟩ := ih hwell hrest
    refine ⟨hwell', ?_⟩
    intro value r hr hconfirmed
    obtain ⟨r1, hr1, hkey1, hconfirmed1⟩ := hfirst value r hr hconfirmed
    obtain ⟨r', hr', hkey', hconfirmed'⟩ := hlater value r1 hr1 hconfirmed1
    exact ⟨r', hr', hkey'.trans hkey1, hconfirmed'⟩

variable (p h)

/-- The two writers in a store: spot runs only add, historical upserts win, and what is
confirmed stays confirmed whatever follows. -/
structure Precedence (st : Store) : Prop where
  spot : ∀ env request eastmoney sina,
    OnlyAdds st (runSpotQuote p h env request eastmoney sina st).2
  historical : ∀ env code fetchedAt selected,
    raised (upsertHistorical p h env code fetchedAt selected st).1 = false →
    ∀ w ∈ incomingRows p unadjustedDailyBarDataset (confirmedDailyBars fetchedAt selected),
      Confirmed w ∧ ∃ value, w ∈ barsAt (upsertHistorical p h env code fetchedAt selected st).2 value ∧
        ∀ a ∈ barsAt (upsertHistorical p h env code fetchedAt selected st).2 value,
          barKey a = barKey w → a = w
  confirmed : ∀ events st', exec (barStep p h) st events = some st' →
    ∀ value, ∀ r ∈ barsAt st value, Confirmed r →
      ∃ r' ∈ barsAt st' value, barKey r' = barKey r ∧ Confirmed r' ∧
        ∀ a ∈ barsAt st' value, barKey a = barKey r → a = r'

variable {p h}

/-- At every point of every sequence of spot runs and historical upserts, in a store that
calls of `write_dataset` have filled. -/
theorem confirmed_bars_never_revert {st₀ stored : Store} {calls : List WriteCall}
    {events : List BarEvent} (hempty : ∀ dataset value, st₀.files dataset value = none)
    (filled : exec (callStep p h) st₀ calls = some stored)
    (run : exec (barStep p h) stored events = some st) : Precedence p h st := by
  obtain ⟨hst, -⟩ := confirmed_of_run (wellStored_of_calls hempty filled) run
  refine ⟨?_, ?_, ?_⟩
  · intro env request eastmoney sina
    exact (runSpotQuote_onlyAdds hst request eastmoney sina).2
  · intro env code fetchedAt selected haccepts
    exact historical_overrides hst haccepts
  · intro more st' hmore value r hr hconfirmed
    obtain ⟨hst', hlater⟩ := confirmed_of_run hst hmore
    obtain ⟨r', hr', hkey, hconfirmed'⟩ := hlater value r hr hconfirmed
    refine ⟨r', hr', hkey, hconfirmed', fun a ha hsame => ?_⟩
    exact List.inj_on_of_nodup_map (nodup_barsAt hst' value) ha hr' (hsame.trans hkey.symm)

end Historical

/-! A confirmed bar of 2024-01-02, and a spot run on the evening of that day that also
quotes a code without a bar. -/

def barSourceOf (day : Int) (code : String) : Frame :=
  ⟨["date", "code"], fun _ => .object, [rowOf [("date", .date day), ("code", .text code)]]⟩

def twoQuotesOf (day : Int) : Frame :=
  { quotesOf day with rows := (quotesOf day).rows ++
    [rowOf [("trade_date", .date day), ("code", .text "600001")]] }

def bothWriters : List BarEvent :=
  [.historical (.plain true) "600000" 0 (barSourceOf 19724 "600000"),
    .spot .plain { requestAt 19724 19 none with updateDailyBarFromSpot := true }
      (fun day => .ok (twoQuotesOf day)) (fun _ => .error .other)]

theorem precedence_after_both_writers :
    ∃ st, exec (barStep .plain .plain) (sessionsStored [19724]) bothWriters = some st ∧
      ((barsAt st "600000").map fun r => r "quality_status") = [.text "daily_bar_confirmed"] ∧
      ((barsAt st "600001").map fun r => r "quality_status") = [.text "spot_quote_close"] ∧
      Precedence .plain .plain st :=
  ⟨_, rfl, by decide +kernel, by decide +kernel,
    @confirmed_bars_never_revert .plain .plain _ .empty (sessionsStored [19724])
      [⟨.plain true, "baostock_cn_trading_calendar", calendarOf 19724 "1", none, none, false⟩]
      bothWriters (fun _ _ => rfl) rfl rfl⟩

end QuantDataCenter.Sources
