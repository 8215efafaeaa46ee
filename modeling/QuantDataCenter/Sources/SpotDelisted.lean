import QuantDataCenter.Sources.SpotDailyBars

/-!
The delisted codes among the daily bars that spot quotes add. The bars of one path are
checked against the list of Shanghai, those of the other against no list.
-/

set_option autoImplicit false
set_option relaxedAutoImplicit false

namespace QuantDataCenter.Sources

open QuantDataCenter.Lib.Checked QuantDataCenter.Lib.Keyed QuantDataCenter.Lib.Transition
open QuantDataCenter.Tabular QuantDataCenter.Quality QuantDataCenter.Storage

/-! The lists -/

def delistDatasets : List DatasetDefinition := [akshareDelistShDataset, akshareDelistSzDataset]

section Lists

variable (p : Pandas) (reads : Derived.Reads) (st : Store)

def latestDelist (d : DatasetDefinition) : List Row :=
  match (reads.partitions d.id).getLast? with
  | none => []
  | some latest =>
    match partitionValue p d (partitionOf d latest) with
    | .ok value => content st d value
    | .error _ => []

def InLatestDelist (d : DatasetDefinition) (code : String) : Prop :=
  ∃ r ∈ latestDelist p reads st d, r "code" ≠ .null ∧ barCode p r = code

/-- The quotes that are recorded, and the lists that their bars are checked against. -/
def recordedQuotes (eastmoney sina : Except StoreError Frame) :
    Option (Frame × List DatasetDefinition) :=
  match eastmoney, sina with
  | .ok response, _ => some (response, [akshareDelistShDataset])
  | .error _, .ok response => some (response, [])
  | .error _, .error _ => none

/-- The key of the bar that a quote of the code becomes. -/
def spotKey (day : Int) (code : String) : List Cell :=
  [.text code, .date day, .text "unadjusted"]

/-- Every quote of a delisted code is in a list that is checked, or has its bar already. -/
def DelistedChecked (task : SpotQuoteTask) (eastmoney sina : Except StoreError Frame) : Prop :=
  task.updateDailyBarFromSpot = true →
    ∀ response checked, recordedQuotes eastmoney sina = some (response, checked) →
      ∀ q ∈ response.rows, (∃ d ∈ delistDatasets, InLatestDelist p reads st d (barCode p q)) →
        (∃ d ∈ checked, InLatestDelist p reads st d (barCode p q)) ∨
        spotKey task.tradeDate (barCode p q) ∈ (barsAt st (barCode p q)).map barKey

/-- No bar that is new has the code of a delisted security. -/
def NoDelistedBars (st' : Store) : Prop :=
  ∀ value, ∀ r ∈ barsAt st' value, r ∉ barsAt st value →
    ∀ d ∈ delistDatasets, ¬InLatestDelist p reads st d (barCode p r)

variable {p reads st}

private theorem latestDelist_congr {st' : Store} {d : DatasetDefinition}
    (hfiles : ∀ value, st'.files d.id value = st.files d.id value) :
    latestDelist p reads st' d = latestDelist p reads st d := by
  unfold latestDelist content
  simp only [hfiles]

private theorem readLatestDataset_rows {d : DatasetDefinition} (hmem : d ∈ datasetCatalog)
    (hpartitioned : d.partitionColumn ≠ none) (hst : WellStored p st) {delist : Frame}
    (hread : Derived.readLatestDataset p reads st d = .ok delist) :
    delist.rows = latestDelist p reads st d ∧ delist.columns = fieldNames d.schema := by
  unfold Derived.readLatestDataset at hread
  unfold latestDelist
  cases hcolumn : d.partitionColumn with
  | none => exact absurd hcolumn hpartitioned
  | some column =>
    rw [hcolumn] at hread
    cases hlast : (reads.partitions d.id).getLast? with
    | none =>
      simp only [hlast] at hread
      obtain rfl := Except.ok.inj hread
      exact ⟨rfl, rfl⟩
    | some latest =>
      simp only [hlast, Derived.readPartition] at hread
      obtain ⟨value, hvalue, hread⟩ := bind_eq_ok.mp hread
      simp only [hvalue]
      exact readDataset_rows (wellFormed_of_mem hmem) (hst d hmem value) hread

private theorem mem_dropDelisted (hst : WellStored p st) {bars kept : Frame}
    (hdrop : dropDelistedDailyBarRows p reads st bars = .ok kept) (b : Row) :
    b ∈ kept.rows ↔ b ∈ bars.rows ∧ ¬InLatestDelist p reads st akshareDelistShDataset (barCode p b) := by
  unfold dropDelistedDailyBarRows at hdrop
  split at hdrop
  case isTrue hempty =>
    obtain rfl := Except.ok.inj hdrop
    simp [hempty]
  case isFalse =>
    obtain ⟨delist, hread, hdrop⟩ := bind_eq_ok.mp hdrop
    obtain ⟨delisted, hcodes, hdrop⟩ := bind_eq_ok.mp hdrop
    obtain rfl := Except.ok.inj hdrop
    obtain ⟨hrows, hcolumns⟩ := @readLatestDataset_rows p reads st akshareDelistShDataset
      (by simp [datasetCatalog]) (by decide) hst delist hread
    have hnormal : ∀ c code, normalizeAkshareCode p c = .ok code → code = strip (p.str c) := by
      intro c code hnormal
      unfold normalizeAkshareCode at hnormal
      split at hnormal
      · cases hnormal
      · split at hnormal
        · exact (Except.ok.inj hnormal).symm
        · cases hnormal
    have hin : ∀ code, code ∈ delisted ↔ InLatestDelist p reads st akshareDelistShDataset code := by
      intro code
      unfold InLatestDelist
      rw [← hrows]
      unfold delistedCodes at hcodes
      split at hcodes
      case isTrue hnone =>
        obtain rfl := Except.ok.inj hcodes
        rcases hnone with hnone | hnone
        · simp [hnone]
        · exact absurd (by rw [hcolumns]; decide) hnone
      case isFalse =>
        constructor
        · intro hcode
          obtain ⟨c, hc, hnormalized⟩ := mem_of_mem_mapM_eq_ok hcodes hcode
          obtain ⟨hc, hnull⟩ := List.mem_filter.mp hc
          obtain ⟨r, hr, rfl⟩ := List.mem_map.mp hc
          exact ⟨r, hr, by simpa using hnull, (hnormal _ _ hnormalized).symm⟩
        · rintro ⟨r, hr, hnull, rfl⟩
          obtain ⟨code, hcode, hnormalized⟩ := mem_of_mapM_eq_ok hcodes
            (List.mem_filter.mpr ⟨List.mem_map_of_mem hr, by simpa using hnull⟩)
          rw [barCode, ← hnormal _ _ hnormalized]
          exact hcode
    rw [List.mem_filter, decide_eq_true_iff, hin]
    exact Iff.rfl

end Lists

/-! A group that is not refused -/

section Group

variable {p : Pandas} {h : Hashing} {env : SpotEnv} {bars : Frame} {day : Int} {g : Row} {st : Store}

private theorem storedBar_cells (hst : WellStored p st) {value : String} {r : Row}
    (hr : r ∈ barsAt st value) : r "code" = .text value ∧ r "adjustment" = .text "unadjusted" ∧
      FieldType.date32.accepts (r "date") = true := by
  obtain ⟨hsettled, hin⟩ := content_stored (fun rows => hst _ bars_mem value rows) r hr
  obtain ⟨hpresent, htext⟩ := hin "code" (by rfl)
  have hcode := hsettled.accepts ⟨"code", .string⟩ (by decide)
  refine ⟨?_, fixedCell_eq (hsettled.fixed ("adjustment", "unadjusted") (by decide)),
    hsettled.accepts ⟨"date", .date32⟩ (by decide)⟩
  cases hcell : r "code" with
  | text s =>
    rw [hcell] at htext
    exact congrArg Cell.text htext
  | null => exact absurd hcell hpresent
  | _ => simp [FieldType.accepts, hcell] at hcode

private theorem barKey_of_stored (hst : WellStored p st) {value : String} {r : Row}
    (hr : r ∈ barsAt st value) (hdate : r "date" = .date day) : barKey r = spotKey day value := by
  obtain ⟨hcode, hadjustment, -⟩ := storedBar_cells hst hr
  change [_, _, _] = [_, _, _]
  rw [hcode, hdate, hadjustment]

private theorem day_of_spotDailyBarKey {r : Row} {key : BarKey}
    (hdate : FieldType.date32.accepts (r "date") = true) (hkey : spotDailyBarKey p r = .ok key) :
    r "date" = .date key.2.1 := by
  unfold spotDailyBarKey at hkey
  split at hkey
  case h_1 => cases hkey
  case h_2 => cases hkey
  case h_3 => cases hkey
  case h_4 hday _ _ =>
    obtain rfl := Except.ok.inj hkey
    cases hcell : r "date" with
    | date day' =>
      have hns : (0 : Int) < nsPerDay := by decide
      rw [hcell] at hday
      simp only [normalizedDay, p.toDatetime_date, Option.map_some, Option.some.injEq] at hday
      rw [← hday, Int.mul_ediv_cancel day' hns.ne']
    | null =>
      rw [hcell] at hday
      cases hday
    | _ => simp [FieldType.accepts, hcell] at hdate

/-- A group is skipped only if its key is stored. -/
private theorem stored_of_skip (hst : WellStored p st) (hg : SpotBar p day g) {readable : Bool}
    {value : String} (hbranch : groupBranch p readable
      (st.files unadjustedDailyBarDataset.id value) [g] = .skip) :
    spotKey day value ∈ (barsAt st value).map barKey := by
  unfold groupBranch at hbranch
  cases hfile : st.files unadjustedDailyBarDataset.id value with
  | none =>
    rw [hfile] at hbranch
    cases hbranch
  | some rows =>
    rw [hfile] at hbranch
    simp only at hbranch
    split at hbranch
    case h_2 => cases hbranch
    case h_1 incoming existing hincoming hexisting =>
      split at hbranch
      case isFalse => cases hbranch
      case isTrue hall =>
        obtain ⟨key, hkey, hgkey⟩ := mem_of_mapM_eq_ok hincoming List.mem_cons_self
        have hread : spotDailyBarKeySet p rows = .ok existing := by
          unfold readSpotDailyBarPartitionKeys at hexisting
          split at hexisting
          · exact hexisting
          · cases hexisting
        obtain ⟨r, hr, hrkey⟩ := mem_of_mem_mapM_eq_ok hread (hall.2 key hkey)
        have hstored : r ∈ barsAt st value := by
          unfold barsAt content
          rw [hfile]
          exact hr
        refine List.mem_map.mpr ⟨r, hstored, barKey_of_stored hst hstored ?_⟩
        rw [day_of_spotDailyBarKey (storedBar_cells hst hstored).2.2 hrkey,
          ← day_of_spotDailyBarKey (by rw [hg.date]; rfl) hgkey, hg.date]

private theorem date_of_text {r : Row} {value : String}
    (hdate : FieldType.date32.accepts (r "date") = true)
    (heq : (barKey r).map (fun c => if c = .null then none else some (p.str c)) =
      (spotKey day value).map fun c => if c = .null then none else some (p.str c)) :
    r "date" = .date day := by
  have htexts : (if r "date" = .null then none else some (p.str (r "date"))) =
      some (p.repr (.date day)) := by
    have hsecond := congrArg (fun texts => texts[1]?) heq
    exact Option.some.inj hsecond
  cases hcell : r "date" with
  | date day' =>
    rw [hcell, if_neg (by simp)] at htexts
    rw [p.repr_date_injective (Option.some.inj htexts)]
  | null =>
    rw [hcell, if_pos rfl] at htexts
    cases htexts
  | _ => simp [FieldType.accepts, hcell] at hdate

/-- An upsert of a bar that returns leaves its key stored: the key was there, or the bar is. -/
private theorem stored_of_upsertFrames {sorts : WriteEnv} {io : PartitionIo} {value : String}
    {skip : Bool}
    {fresh : Frame} {combined : Option Frame} (hst : WellStored p st)
    (hcolumns : bars.columns = fieldNames unadjustedDailyBarDataset.schema)
    (hg : SpotBar p day g)
    (hvalue : partitionValue p unadjustedDailyBarDataset (some [("code", .text value)]) = .ok value)
    (hframes : upsertFrames p sorts io unadjustedDailyBarDataset { bars with rows := [g] }
      (some [("code", .text value)]) value skip st = .ok (fresh, combined)) :
    spotKey day value ∈
      ((combined.map Frame.rows).getD (barsAt st value)).map barKey := by
  unfold upsertFrames at hframes
  obtain ⟨fresh', hprepare, hrest⟩ := bind_eq_ok.mp hframes
  obtain ⟨coerced, hcoerced, hin, hfresh, -, -⟩ := prepared_stored bars_wellFormed hvalue hprepare
  have hrows : coerced.rows = [coercedRow p unadjustedDailyBarDataset { bars with rows := [g] } g] :=
    coercedFrame_rows hcoerced
  obtain ⟨-, hall⟩ := coercedFrame_coerced bars_wellFormed hcoerced
  rw [hrows] at hin hall
  obtain ⟨hkey, -⟩ := @barKey_coercedRow p day g hg { bars with rows := [g] } hcolumns
    (hall _ List.mem_cons_self)
  -- the row that is prepared has the code of the partition
  have hspot : barKey (coercedRow p unadjustedDailyBarDataset { bars with rows := [g] } g) =
      spotKey day value := by
    obtain ⟨s, hcode⟩ := hg.code
    obtain ⟨hcells, -, -⟩ := cells_of_barKey hkey
    obtain ⟨-, htext⟩ := hin _ List.mem_cons_self "code" (by rfl)
    rw [hcells, hcode] at htext
    rw [hkey]
    change [_, _, _] = [_, _, _]
    rw [hcode, hg.date, adjustment_of_coerced hg.coerced, show s = value from htext]
  have hfreshRows : fresh'.rows =
      [coercedRow p unadjustedDailyBarDataset { bars with rows := [g] } g] := by
    rw [hfresh, hrows]
    exact List.perm_singleton.mp (sortValues_perm sorts _ _)
  cases combined with
  | none =>
    obtain ⟨existing, hread, hrest⟩ := bind_eq_ok.mp hrest
    split at hrest
    case isFalse =>
      obtain ⟨_, -, hout⟩ := bind_eq_ok.mp hrest
      cases hout
    case isTrue hskip =>
      obtain ⟨hexisting, -⟩ := readDataset_rows bars_wellFormed (hst _ bars_mem value) hread
      have hexist := hskip.2
      unfold incomingKeysExist at hexist
      rw [decide_eq_true_iff] at hexist
      have htext := hexist.2.2.2 _ (List.mem_map_of_mem (by rw [hfreshRows]; exact List.mem_cons_self))
      obtain ⟨r, hr, heq⟩ := List.mem_map.mp htext
      rw [hexisting] at hr
      refine List.mem_map.mpr ⟨r, hr, barKey_of_stored hst hr ?_⟩
      exact date_of_text (storedBar_cells hst hr).2.2 (heq.trans (congrArg (List.map _) hspot))
  | some frame =>
    obtain ⟨coerced', hcoerced', -, hcombined, -⟩ :=
      upsertFrames_stored bars_wellFormed hvalue (hst _ bars_mem value) hframes
    rw [hcoerced] at hcoerced'
    obtain rfl := Except.ok.inj hcoerced'
    rw [Option.map_some, Option.getD_some, hcombined]
    refine mem_map_combinedRows.mpr (Or.inr ?_)
    rw [hrows, List.perm_singleton.mp (sortValues_perm sorts _ _)]
    exact List.mem_map.mpr ⟨_, List.mem_cons_self, hspot⟩

private theorem writeDataset_bars {sorts : WriteEnv} {df : Frame} {partition : Partition}
    {value : String}
    (hgiven : partition ≠ none)
    (hvalue : partitionValue p unadjustedDailyBarDataset partition = .ok value) (skip : Bool) :
    writeDataset p h sorts unadjustedDailyBarDataset.id df partition (some .upsert) skip st =
      writeDatasetUpsertPartition p h sorts (sorts.io 0) unadjustedDailyBarDataset df partition
        value skip st := by
  have hsingle := @writeDatasetUpsert_single p h sorts unadjustedDailyBarDataset df partition skip st
    fun hspans => hgiven hspans.2.2
  simp only [hvalue] at hsingle
  rw [← hsingle]
  unfold writeDataset
  simp [bars_definition]

private theorem writeSpotGroup_stores (hst : WellStored p st)
    (hcolumns : bars.columns = fieldNames unadjustedDailyBarDataset.schema)
    (hg : SpotBar p day g) (k : ℕ) {skip : Bool}
    (hvalue : partitionValue p unadjustedDailyBarDataset (some [("code", .text (barCode p g))]) =
      .ok (barCode p g))
    (hreturned : (writeSpotGroup p h env k bars (g "code") [g] skip st).1 = .ok ()) :
    spotKey day (barCode p g) ∈
      (barsAt (writeSpotGroup p h env k bars (g "code") [g] skip st).2 (barCode p g)).map barKey := by
  have hbars := @writeDataset_bars p h st (env.bars k) { bars with rows := [g] } _ (barCode p g)
    (by simp) hvalue skip
  unfold writeSpotGroup at hreturned ⊢
  change (writeDataset p h (env.bars k) _ _ (some [("code", .text (barCode p g))]) _ _ _).1.map _ =
    .ok () at hreturned
  change spotKey day (barCode p g) ∈ (barsAt (writeDataset p h (env.bars k) _ _
    (some [("code", .text (barCode p g))]) _ _ _).2 (barCode p g)).map barKey
  rw [hbars] at hreturned ⊢
  obtain ⟨result, hresult, -⟩ := map_eq_ok.mp hreturned
  unfold writeDatasetUpsertPartition at hresult ⊢
  rcases hframes : upsertFrames p (env.bars k) ((env.bars k).io 0) unadjustedDailyBarDataset
    { bars with rows := [g] } (some [("code", .text (barCode p g))]) (barCode p g) skip st with
    e | ⟨fresh, combined⟩
  · rw [hframes] at hresult
    cases hresult
  · have hstored := stored_of_upsertFrames hst hcolumns hg hvalue hframes
    rw [hframes] at hresult
    cases combined with
    | none => exact hstored
    | some frame =>
      have hfile := @writePreparedDataset_files p h ((env.bars k).io 0) unadjustedDailyBarDataset
        frame (barCode p g) st
      simp only at hresult ⊢
      rcases hout : writePreparedDataset p h ((env.bars k).io 0) unadjustedDailyBarDataset frame
        (barCode p g) st with ⟨written, st'⟩
      rw [hout] at hresult hfile
      cases written with
      | error e => cases hresult
      | ok u =>
        cases hatomic : atomicWrite ((env.bars k).io 0).attempts with
        | error e =>
          unfold writePreparedDataset at hout
          rw [hatomic] at hout
          cases hout
        | ok u =>
          rw [hatomic] at hfile
          simp only at hfile ⊢
          unfold barsAt content
          rw [hfile]
          exact hstored

private theorem upsertSpotGroup_stores (hst : WellStored p st)
    (hcolumns : bars.columns = fieldNames unadjustedDailyBarDataset.schema)
    (hg : SpotBar p day g) (k : ℕ)
    (hreturned : (upsertSpotGroup p h env k bars (g "code") [g] st).1 = .ok ()) :
    spotKey day (barCode p g) ∈
      (barsAt (upsertSpotGroup p h env k bars (g "code") [g] st).2 (barCode p g)).map barKey := by
  unfold upsertSpotGroup at hreturned ⊢
  split at hreturned
  case h_1 => cases hreturned
  case h_2 value hvalue =>
    change partitionValue p _ (some [("code", .text (barCode p g))]) = .ok value at hvalue
    obtain rfl := partitionValue_barCode hvalue
    split at hreturned
    case h_1 =>
      exact writeSpotGroup_stores hst hcolumns hg k hvalue hreturned
    case h_2 =>
      exact writeSpotGroup_stores hst hcolumns hg k hvalue hreturned
    case h_3 hbranch =>
      exact stored_of_skip hst hg hbranch

private theorem upsertSpotGroups_stores
    (hcolumns : bars.columns = fieldNames unadjustedDailyBarDataset.schema) {added : List Row}
    {groups : List (Cell × List Row)} (hgroups : SpotGroups p day added groups) (k : ℕ)
    (hst : WellStored p st)
    (hreturned : (upsertSpotGroups p h env bars k groups st).1 = .ok ()) {g : Row}
    (hmem : (g "code", [g]) ∈ groups) :
    spotKey day (barCode p g) ∈
      (barsAt (upsertSpotGroups p h env bars k groups st).2 (barCode p g)).map barKey := by
  induction groups generalizing k st with
  | nil => cases hmem
  | cons group groups ih =>
    obtain ⟨w, hadded, rfl, hw⟩ := hgroups _ List.mem_cons_self
    have htail : SpotGroups p day added groups :=
      fun group hgroup => hgroups group (List.mem_cons_of_mem _ hgroup)
    obtain ⟨hwell, -⟩ := @upsertSpotGroup_adds p h env bars day w st hst hcolumns hw k added hadded
    have hstores := @upsertSpotGroup_stores p h env bars day w st hst hcolumns hw k
    unfold upsertSpotGroups at hreturned ⊢
    rcases hout : upsertSpotGroup p h env k bars (w "code") [w] st with ⟨result, st1⟩
    rw [hout] at hwell hstores
    simp only [hout] at hreturned ⊢
    cases result with
    | error e => cases hreturned
    | ok u =>
      rcases List.mem_cons.mp hmem with heq | hmem
      · obtain ⟨-, hsingle⟩ := Prod.mk.inj heq
        obtain rfl := List.head_eq_of_cons_eq hsingle
        obtain ⟨r, hr, hkey⟩ := List.mem_map.mp (hstores rfl)
        have hlater := (@upsertSpotGroups_adds p h env bars day st1 hcolumns added groups htail
          (k + 1) hwell).2
        exact List.mem_map.mpr ⟨r, hlater.kept _ r hr, hkey⟩
      · exact ih htail (k + 1) hwell hreturned hmem

end Group

/-! The whole of `record_result` -/

section Record

variable {p : Pandas} {h : Hashing} {env : SpotEnv} {d : DatasetDefinition} {st : Store}

/-- Where the write of the bars returns, every bar that was converted is stored in the end. -/
private theorem writeSpotDailyBarRows_stores (hd : d ∈ spotQuoteDatasets) {response bars : Frame}
    {day : Int} (hquotes : QuotesOf p d day response) (hbars : BarsFrom p response bars)
    (hst : WellStored p st)
    (hreturned : (writeSpotDailyBarRows p h env bars st).1 = .ok ()) {b : Row} (hb : b ∈ bars.rows) :
    spotKey day (barCode p b) ∈
      (barsAt (writeSpotDailyBarRows p h env bars st).2 (barCode p b)).map barKey := by
  unfold writeSpotDailyBarRows upsertSpotDailyBarRows at hreturned ⊢
  rw [if_neg (List.ne_nil_of_mem hb)] at hreturned ⊢
  split at hreturned
  case h_1 => cases hreturned
  case h_2 incoming hprepare =>
    obtain ⟨hcolumns, hall, hnodup, hperm⟩ := spotBars_of_prepared hd hquotes hbars hprepare
    obtain ⟨g, hg, hcode⟩ := List.mem_map.mp (hperm.mem_iff.mpr (List.mem_map_of_mem hb))
    rw [← hcode]
    refine upsertSpotGroups_stores hcolumns (spotGroups_of_prepared hall hnodup) 0 hst hreturned ?_
    exact mem_groups.mpr ⟨List.mem_map_of_mem hg, (filter_key_eq_singleton hnodup hg).symm⟩

private theorem spotToDailyBar_codes {endpoint : String} {own : List String}
    {response frame : Frame}
    (hconvert : spotToDailyBarUnadjusted p endpoint own response = .ok frame) :
    (frame.rows.map (barCode p)).Sublist (response.rows.map (barCode p)) ∧
      (response.columns ≠ [] → frame.rows.map (barCode p) = response.rows.map (barCode p)) := by
  unfold spotToDailyBarUnadjusted at hconvert
  simp only at hconvert
  split at hconvert
  case isTrue hempty =>
    obtain rfl := Except.ok.inj hconvert
    refine ⟨List.nil_sublist _, fun hcolumns => ?_⟩
    rw [hempty.resolve_right hcolumns]
  case isFalse =>
    split at hconvert
    case isFalse => cases hconvert
    case isTrue =>
      obtain ⟨u, -, hconvert⟩ := bind_eq_ok.mp hconvert
      obtain rfl := Except.ok.inj hconvert
      have hcodes : (response.rows.map (dailyBarCell p endpoint (carriedColumns ++ own))).map
          (barCode p) = response.rows.map (barCode p) := by
        rw [List.map_map]
        refine List.map_congr_left fun q _ => ?_
        simp [barCode, dailyBarCell, carriedColumns]
      exact ⟨by rw [hcodes], fun _ => hcodes⟩

/-- How the quotes of a path become bars: those whose code is in a checked list are left out. -/
structure Converts (p : Pandas) (reads : Derived.Reads) (response : Frame)
    (checked : List DatasetDefinition) (convert : Store → Except StoreError Frame) : Prop where
  bars : ∀ stored bars, convert stored = .ok bars → BarsFrom p response bars
  passed : ∀ stored bars, WellStored p stored → convert stored = .ok bars →
    ∀ code ∈ bars.rows.map (barCode p), code ∈ response.rows.map (barCode p) ∧
      ∀ d ∈ checked, ¬InLatestDelist p reads stored d code
  complete : ∀ stored bars, WellStored p stored → convert stored = .ok bars →
    response.columns ≠ [] → ∀ code ∈ response.rows.map (barCode p),
      (∀ d ∈ checked, ¬InLatestDelist p reads stored d code) → code ∈ bars.rows.map (barCode p)

private theorem converts_eastmoney (reads : Derived.Reads) (response : Frame) :
    Converts p reads response [akshareDelistShDataset] (fun stored => do
      let bars ← spotEmToDailyBarUnadjusted p response
      dropDelistedDailyBarRows p reads stored bars) := by
  refine ⟨fun stored bars hbars => barsFrom_eastmoney hbars, ?_, ?_⟩
  · intro stored bars hst hbars code hcode
    obtain ⟨frame, hconvert, hdrop⟩ := bind_eq_ok.mp hbars
    obtain ⟨b, hb, rfl⟩ := List.mem_map.mp hcode
    obtain ⟨hframe, hnot⟩ := (mem_dropDelisted hst hdrop b).mp hb
    exact ⟨(spotToDailyBar_codes hconvert).1.subset (List.mem_map_of_mem hframe), by simpa using hnot⟩
  · intro stored bars hst hbars hcolumns code hcode hnot
    obtain ⟨frame, hconvert, hdrop⟩ := bind_eq_ok.mp hbars
    rw [← (spotToDailyBar_codes hconvert).2 hcolumns] at hcode
    obtain ⟨b, hb, rfl⟩ := List.mem_map.mp hcode
    exact List.mem_map_of_mem ((mem_dropDelisted hst hdrop b).mpr ⟨hb, by simpa using hnot⟩)

private theorem converts_sina (reads : Derived.Reads) (response : Frame) :
    Converts p reads response [] fun _ => spotSinaToDailyBarUnadjusted p response := by
  refine ⟨fun stored bars hbars => barsFrom_sina hbars, ?_, ?_⟩
  · intro stored bars _ hbars code hcode
    exact ⟨(spotToDailyBar_codes hbars).1.subset hcode, by simp⟩
  · intro stored bars _ hbars hcolumns code hcode _
    rw [(spotToDailyBar_codes hbars).2 hcolumns]
    exact hcode

variable {task : SpotQuoteTask} {eastmoney sina : Except StoreError Frame} {response : Frame}
  {checked : List DatasetDefinition} {convert : Store → Except StoreError Frame}

private theorem recordResult_cases (hdataset : task.dataset = akshareSpotQuoteEastmoneyDataset.id) :
    (recordedQuotes eastmoney sina = none ∧
      ∃ e, recordResult p h env task eastmoney sina st = (.error e, st)) ∨
    ∃ d ∈ spotQuoteDatasets, ∃ response checked convert,
      recordedQuotes eastmoney sina = some (response, checked) ∧
      (∀ d' ∈ checked, d' ∈ delistDatasets) ∧ Converts p env.reads response checked convert ∧
      recordResult p h env task eastmoney sina st =
        recordQuotes p h env d.id task response convert st := by
  cases eastmoney with
  | ok response =>
    have heq : recordResult p h env task (.ok response) sina st =
        recordQuotes p h env akshareSpotQuoteEastmoneyDataset.id task response (fun stored => do
          let bars ← spotEmToDailyBarUnadjusted p response
          dropDelistedDailyBarRows p env.reads stored bars) st := by
      unfold recordResult recordEastmoney
      rw [hdataset]
    exact Or.inr ⟨akshareSpotQuoteEastmoneyDataset, by simp [spotQuoteDatasets], response, _, _,
      rfl, by simp [delistDatasets], converts_eastmoney env.reads response, heq⟩
  | error e =>
    cases sina with
    | error e' => exact Or.inl ⟨rfl, e', rfl⟩
    | ok response =>
      exact Or.inr ⟨akshareSpotQuoteSinaDataset, by simp [spotQuoteDatasets], response, _, _, rfl,
        by simp, converts_sina env.reads response, rfl⟩

private theorem latestDelist_of_quotes (hd : d ∈ spotQuoteDatasets) {reads : Derived.Reads}
    {result : Except StoreError DatasetWriteResult} {stored : Store} {partition : Partition}
    (hwrite : writeDataset p h env.quotes d.id response partition none false st =
      (result, stored)) {d' : DatasetDefinition} (hd' : d' ∈ delistDatasets) :
    latestDelist p reads stored d' = latestDelist p reads st d' := by
  apply latestDelist_congr
  intro value
  have hne : d'.id ≠ d.id := by
    have hnot := (spotQuoteDatasets_mem d hd).2.2.2.2
    rintro heq
    rw [← heq] at hnot
    simp only [delistDatasets, List.mem_cons, List.not_mem_nil, or_false] at hd'
    rcases hd' with rfl | rfl
    · exact hnot (by decide)
    · exact hnot (by decide)
  have hfiles := @writeDataset_files_of_ne p h env.quotes d.id d'.id response partition none false
    st hne value
  rw [hwrite] at hfiles
  exact hfiles

private theorem recordQuotes_noDelisted (hd : d ∈ spotQuoteDatasets) (hst : WellStored p st)
    (hchecked : ∀ d' ∈ checked, d' ∈ delistDatasets)
    (hconverts : Converts p env.reads response checked convert)
    (hcovered : task.updateDailyBarFromSpot = true → ∀ q ∈ response.rows,
      (∃ d' ∈ delistDatasets, InLatestDelist p env.reads st d' (barCode p q)) →
        (∃ d' ∈ checked, InLatestDelist p env.reads st d' (barCode p q)) ∨
        spotKey task.tradeDate (barCode p q) ∈ (barsAt st (barCode p q)).map barKey) :
    NoDelistedBars p env.reads st (recordQuotes p h env d.id task response convert st).2 := by
  obtain ⟨added, hadded, hwell, hadds⟩ := @recordQuotes_adds p h env d st hd hst task response
    convert hconverts.bars
  intro value r hr hnew d' hd' hin
  rcases hadds.fresh value r hr with hold | ⟨habsent, g, hg, hvalue, hkey, -⟩
  · exact hnew hold
  · obtain ⟨hspot, result, stored, bars, hwrite, hbars, hflag, hcode⟩ := hadded g hg
    obtain ⟨hresponse, hnot⟩ := hconverts.passed stored bars (wellStored_of_write hst hwrite) hbars
      _ hcode
    obtain ⟨q, hq, hqcode⟩ := List.mem_map.mp hresponse
    have hrcode : barCode p r = barCode p q := by
      rw [barCode, (storedBar_cells hwell hr).1, hvalue, hqcode]
      exact strip_strip _
    rw [hrcode] at hin
    rcases hcovered hflag q hq ⟨d', hd', hin⟩ with ⟨c, hc, hlisted⟩ | hpresent
    · apply hnot c hc
      unfold InLatestDelist at hlisted ⊢
      rw [latestDelist_of_quotes hd hwrite (hchecked c hc), ← hqcode]
      exact hlisted
    · apply habsent
      have hdate : r "date" = .date task.tradeDate := (cells_of_barKey hkey).2.1.trans hspot.date
      rw [barKey_of_stored hwell hr hdate, hvalue, ← hqcode]
      exact hpresent

private theorem recordQuotes_returned
    (hreturned : (recordQuotes p h env d.id task response convert st).1 = .ok ()) :
    ∃ ok stored bars, writeDataset p h env.quotes d.id response
        (some [("trade_date", .text (p.repr (.date task.tradeDate)))]) none false st =
          (.ok ok, stored) ∧ convert stored = .ok bars ∧
      (task.updateDailyBarFromSpot = true →
        recordQuotes p h env d.id task response convert st =
          writeSpotDailyBarRows p h env bars stored) := by
  unfold recordQuotes at hreturned ⊢
  rcases hwrite : writeDataset p h env.quotes d.id response
    (some [("trade_date", .text (p.repr (.date task.tradeDate)))]) none false st with
    ⟨e | ok, stored⟩
  · rw [hwrite] at hreturned
    cases hreturned
  · rw [hwrite] at hreturned
    simp only at hreturned ⊢
    cases hbars : convert stored with
    | error e =>
      rw [hbars] at hreturned
      cases hreturned
    | ok bars => exact ⟨ok, stored, bars, rfl, hbars, fun hflag => if_pos hflag⟩

/-- A run that returns has written the bar of every quote whose code is in no checked list. -/
private theorem covered_of_noDelisted (hd : d ∈ spotQuoteDatasets) (hst : WellStored p st)
    (hchecked : ∀ d' ∈ checked, d' ∈ delistDatasets)
    (hconverts : Converts p env.reads response checked convert)
    (hreturned : (recordQuotes p h env d.id task response convert st).1 = .ok ())
    (hnone : NoDelistedBars p env.reads st
      (recordQuotes p h env d.id task response convert st).2)
    (hflag : task.updateDailyBarFromSpot = true) {q : Row} (hq : q ∈ response.rows)
    {d' : DatasetDefinition} (hd' : d' ∈ delistDatasets)
    (hlisted : InLatestDelist p env.reads st d' (barCode p q)) :
    (∃ c ∈ checked, InLatestDelist p env.reads st c (barCode p q)) ∨
      spotKey task.tradeDate (barCode p q) ∈ (barsAt st (barCode p q)).map barKey := by
  obtain ⟨ok, stored, bars, hwrite, hbars, hwritten⟩ := recordQuotes_returned hreturned
  rw [hwritten hflag] at hreturned hnone
  have hstored := wellStored_of_write hst hwrite
  have hquotes := quotesOf_of_written hd hst hwrite
  by_contra hneither
  obtain ⟨hunlisted, habsent⟩ := not_or.mp hneither
  have hcolumns : response.columns ≠ [] := by
    intro hnil
    obtain ⟨⟨s, hs⟩, -⟩ := hquotes.cells q hq
    rw [coercedRow_columnless (wellFormed_of_mem (spotQuoteDatasets_mem d hd).1) hnil
      (by decide)] at hs
    cases hs
  have hcode : barCode p q ∈ bars.rows.map (barCode p) := by
    refine hconverts.complete stored bars hstored hbars hcolumns _ (List.mem_map_of_mem hq) ?_
    intro c hc hin
    apply hunlisted
    refine ⟨c, hc, ?_⟩
    unfold InLatestDelist at hin ⊢
    rw [latestDelist_of_quotes hd hwrite (hchecked c hc)] at hin
    exact hin
  obtain ⟨b, hb, hbcode⟩ := List.mem_map.mp hcode
  have hpresent := writeSpotDailyBarRows_stores hd hquotes (hconverts.bars stored bars hbars)
    hstored hreturned hb
  rw [hbcode] at hpresent
  obtain ⟨r, hr, hkey⟩ := List.mem_map.mp hpresent
  -- the row with the key of the quote is new, and has its code
  have hnew : r ∉ barsAt st (barCode p q) :=
    fun hold => habsent (List.mem_map.mpr ⟨r, hold, hkey⟩)
  refine hnone _ r hr hnew d' hd' ?_
  have hcell : r "code" = .text (barCode p q) := (List.cons.inj hkey).1
  have hrcode : barCode p r = barCode p q := by
    rw [barCode, hcell]
    exact strip_strip _
  rw [hrcode]
  exact hlisted

end Record

section Whole

variable {p : Pandas} {h : Hashing} {env : SpotEnv} {st : Store} {task : SpotQuoteTask}
  {eastmoney sina : Except StoreError Frame}

/-- Which responses keep delisted codes out of the daily bars, in a store that calls of
`write_dataset` have filled: those that bring none but what is checked or stored already. -/
theorem no_delisted_bars_iff {st₀ : Store} {calls : List WriteCall}
    (hempty : ∀ dataset value, st₀.files dataset value = none)
    (filled : exec (callStep p h) st₀ calls = some st)
    (hdataset : task.dataset = akshareSpotQuoteEastmoneyDataset.id) :
    (DelistedChecked p env.reads st task eastmoney sina →
      NoDelistedBars p env.reads st (recordResult p h env task eastmoney sina st).2) ∧
    (raised (recordResult p h env task eastmoney sina st).1 = false →
      (NoDelistedBars p env.reads st (recordResult p h env task eastmoney sina st).2 ↔
        DelistedChecked p env.reads st task eastmoney sina)) := by
  have hst := wellStored_of_calls hempty filled
  have hcases := @recordResult_cases p h env st task eastmoney sina hdataset
  have henough : DelistedChecked p env.reads st task eastmoney sina →
      NoDelistedBars p env.reads st (recordResult p h env task eastmoney sina st).2 := by
    intro hcovered
    rcases hcases with ⟨-, e, heq⟩ | ⟨d, hd, response, checked, convert, hrecorded, hchecked,
      hconverts, heq⟩
    · rw [heq]
      exact fun value r hr hnew => absurd hr hnew
    · rw [heq]
      exact recordQuotes_noDelisted hd hst hchecked hconverts fun hflag q hq =>
        hcovered hflag response checked hrecorded q hq
  refine ⟨henough, fun hreturned => ⟨fun hnone => ?_, henough⟩⟩
  rintro hflag response checked hrecorded q hq ⟨d', hd', hlisted⟩
  rcases hcases with ⟨hnothing, -⟩ | ⟨d, hd, response', checked', convert, hrecorded', hchecked,
    hconverts, heq⟩
  · rw [hnothing] at hrecorded
    cases hrecorded
  · rw [hrecorded'] at hrecorded
    obtain ⟨rfl, rfl⟩ := Prod.mk.inj (Option.some.inj hrecorded)
    rw [heq] at hreturned hnone
    have hok : (recordQuotes p h env d.id task response' convert st).1 = .ok () := by
      cases hout : (recordQuotes p h env d.id task response' convert st).1 with
      | ok u => rfl
      | error e =>
        rw [hout] at hreturned
        cases hreturned
    exact covered_of_noDelisted hd hst hchecked hconverts hok hnone hflag hq hd' hlisted

end Whole

/-! Both lists have one code, and quotes of the two come after the delisting. -/

def delistedOf (exchange code : String) : Frame :=
  ⟨["snapshot_date", "exchange", "market", "code"], fun _ => .object,
    [rowOf [("snapshot_date", .date 19724), ("exchange", .text exchange), ("market", .text "A"),
      ("code", .text code)]]⟩

/-- The write of a list under its snapshot date. -/
def delistCall (dataset exchange code : String) : WriteCall :=
  ⟨.plain true, dataset, delistedOf exchange code, some [("snapshot_date", .text "2024-01-02")], none,
    false⟩

def delistCalls : List WriteCall :=
  [delistCall "akshare_cn_stock_delist_sh" "sh" "600001",
    delistCall "akshare_cn_stock_delist_sz" "sz" "000001"]

def listsStored : Store := delistCalls.foldl (fun st call =>
  (writeDataset .plain .plain call.env call.dataset call.df call.partition call.mode
    call.skipExisting st).2) .empty

def listingEnv : SpotEnv :=
  { SpotEnv.plain with reads := ⟨fun _ => ["2024-01-02"], fun _ _ => (WriteEnv.plain true).io 0⟩ }

def spotTask : SpotQuoteTask := ⟨akshareSpotQuoteEastmoneyDataset.id, 19725, true, false⟩

def delistedQuotes : Frame :=
  { quotesOf 19725 with rows :=
    [rowOf [("trade_date", .date 19725), ("code", .text "600001")],
      rowOf [("trade_date", .date 19725), ("code", .text "000001")]] }

/-- The quote of the code that is checked. -/
def checkedQuotes : Frame := { delistedQuotes with rows := delistedQuotes.rows.take 1 }

theorem no_delisted_bars_of_checked_code :
    NoDelistedBars .plain listingEnv.reads listsStored
        (recordResult .plain .plain listingEnv spotTask (.ok checkedQuotes) (.error .other)
          listsStored).2 ↔
      DelistedChecked .plain listingEnv.reads listsStored spotTask (.ok checkedQuotes)
        (.error .other) :=
  (@no_delisted_bars_iff .plain .plain listingEnv listsStored spotTask (.ok checkedQuotes)
    (.error .other) .empty delistCalls (fun _ _ => rfl) rfl rfl).2 (by decide +kernel)

private theorem not_noDelistedBars {p : Pandas} {reads : Derived.Reads} {st st' : Store}
    {value : String}
    {d : DatasetDefinition} (hd : d ∈ delistDatasets) (hbefore : (barsAt st value).length = 0)
    (hafter : ((barsAt st' value).map fun r => r "code") = [.text value])
    (hlisted : ((latestDelist p reads st d).map fun r => r "code") = [.text value]) :
    ¬NoDelistedBars p reads st st' := by
  intro hnone
  have hbar : ∃ r ∈ barsAt st' value, r "code" = .text value :=
    List.mem_map.mp (by rw [hafter]; exact List.mem_cons_self)
  have hrow : ∃ r ∈ latestDelist p reads st d, r "code" = .text value :=
    List.mem_map.mp (by rw [hlisted]; exact List.mem_cons_self)
  obtain ⟨r, hr, hcode⟩ := hbar
  obtain ⟨w, hw, hwcode⟩ := hrow
  have hnew : r ∉ barsAt st value := by
    rw [List.length_eq_zero_iff.mp hbefore]
    exact List.not_mem_nil
  refine hnone value r hr hnew d hd ⟨w, hw, by rw [hwcode]; simp, ?_⟩
  rw [barCode, barCode, hwcode, hcode]

/-- The first path writes the bar of the code that Shenzhen has delisted, the fallback that of the
code that Shanghai has delisted. -/
theorem delisted_bars_on_both_paths :
    ¬NoDelistedBars .plain listingEnv.reads listsStored
        (recordResult .plain .plain listingEnv spotTask (.ok delistedQuotes) (.error .other)
          listsStored).2 ∧
      ¬NoDelistedBars .plain listingEnv.reads listsStored
        (recordResult .plain .plain listingEnv spotTask (.error .other) (.ok delistedQuotes)
          listsStored).2 := by
  constructor
  · exact @not_noDelistedBars .plain _ _ _ "000001" akshareDelistSzDataset
      (by simp [delistDatasets]) (by decide +kernel) (by decide +kernel) (by decide +kernel)
  · exact @not_noDelistedBars .plain _ _ _ "600001" akshareDelistShDataset
      (by simp [delistDatasets]) (by decide +kernel) (by decide +kernel) (by decide +kernel)

end QuantDataCenter.Sources
