import QuantDataCenter.Storage.StoredContent

/-!
Acceptance of a call by a dataset whose validator does not look at the order of
the rows: if it is accepted under one way of sorting, it is accepted under every
other.
-/

set_option autoImplicit false
set_option relaxedAutoImplicit false

namespace QuantDataCenter.Storage

open QuantDataCenter.Lib.Checked QuantDataCenter.Lib.Keyed QuantDataCenter.Tabular
open QuantDataCenter.Quality Store

/-- The environment lets every file operation and ledger transaction succeed. -/
def Succeeds (env : WriteEnv) : Prop := ∀ k, env.io k = ⟨true, fun _ => .written, true⟩

section Acceptance

variable {p : Pandas} {h : Hashing} {env : WriteEnv} {d : DatasetDefinition}

private theorem prepare_orderFree (wf : d.WellFormed) (hfree : OrderFree d) {env' : WriteEnv}
    {df df' fresh' coerced : Frame} {partition : Partition}
    (hprepare : prepareDatasetFrame p env' d df' partition true = .ok fresh')
    (hcoerced : coercedFrame p d df = .ok coerced)
    (hperm : ∀ coerced', coercedFrame p d df' = .ok coerced' → coerced.rows.Perm coerced'.rows)
    {value : String} (hvalue : partition ≠ none → partitionValue p d partition = .ok value) :
    prepareDatasetFrame p env d df partition true =
      .ok { coerced with rows := sortValues env d.sortColumns coerced.rows } := by
  obtain ⟨coerced', hcoerced', hcheck, hfresh, hvalid, -, -⟩ := prepareDatasetFrame_rows wf hprepare
  have hrows : coerced.rows.Perm coerced'.rows := hperm coerced' hcoerced'
  have hcheck' : coerced.rows ≠ [] → checkPartition p d coerced partition = .ok () := by
    intro hne
    have hne' : coerced'.rows ≠ [] := fun hnil => hne (by rw [hnil] at hrows; exact hrows.eq_nil)
    cases hpartition : partition with
    | none =>
      unfold checkPartition
      cases d.partitionColumn <;> rfl
    | some fields =>
      have hv := hvalue (by rw [hpartition]; simp)
      rw [hpartition] at hv hcheck
      rw [checkPartition_eq_ok hv]
      intro r hr
      exact (checkPartition_eq_ok hv).mp (hcheck hne') r (hrows.mem_iff.mp hr)
  have hunvalidated : prepareUnvalidated p env d df partition =
      .ok { coerced with rows := sortValues env d.sortColumns coerced.rows } :=
    (prepareUnvalidated_eq_ok wf).mpr ⟨coerced, hcoerced, hcheck', rfl⟩
  obtain ⟨good, hgood⟩ := hfree p
  have hall : (sortValues env d.sortColumns coerced.rows).Perm fresh'.rows := by
    rw [hfresh]
    exact (sortValues_perm env _ _).trans (hrows.trans (sortValues_perm env' _ _).symm)
  obtain ⟨-, hrow, hnodup⟩ := (hgood fresh').mp hvalid
  have hvalid' : d.validator p { coerced with rows := sortValues env d.sortColumns coerced.rows } =
      .ok () := by
    rw [hgood]
    exact ⟨(coercedFrame_coerced wf hcoerced).1, fun r hr => hrow r (hall.mem_iff.mp hr),
      (hall.map _).nodup_iff.mpr hnodup⟩
  unfold prepareDatasetFrame
  rw [hunvalidated]
  simp only [Bind.bind, Except.bind, if_true, hvalid']

private theorem combine_orderFree (wf : d.WellFormed) (hfree : OrderFree d)
    {existing incoming : Frame}
    {partition : Partition} {value : String} (hvalue : partitionValue p d partition = .ok value)
    (hcolumns : existing.columns = fieldNames d.schema)
    (hcolumns' : incoming.columns = fieldNames d.schema)
    (hexisting : existing.rows = [] ∨ StoredWell p d value existing.rows)
    (hincoming : StoredWell p d value incoming.rows) :
    ∃ combined, combineFrames p env d existing incoming partition = .ok combined := by
  have hrows : ∀ r ∈ existing.rows ++ incoming.rows, Settled p d r ∧ InPartition p d value r := by
    intro r hr
    rcases List.mem_append.mp hr with hr | hr
    · rcases hexisting with hnil | hwell
      · rw [hnil] at hr
        cases hr
      · exact ⟨hwell.settled r hr, hwell.inPartition r hr⟩
    · exact ⟨hincoming.settled r hr, hincoming.inPartition r hr⟩
  obtain ⟨dtype, heq⟩ := @combineFrames_eq p env d wf existing incoming partition value hvalue
    hcolumns hcolumns' hrows
  obtain ⟨good, hgood⟩ := hfree p
  have hgoodRow : ∀ r ∈ existing.rows ++ incoming.rows, good r := by
    intro r hr
    rcases List.mem_append.mp hr with hr | hr
    · rcases hexisting with hnil | hwell
      · rw [hnil] at hr
        cases hr
      · obtain ⟨_, hvalid⟩ := hwell.valid
        exact ((hgood _).mp hvalid).2.1 r hr
    · obtain ⟨_, hvalid⟩ := hincoming.valid
      exact ((hgood _).mp hvalid).2.1 r hr
  have hmem : ∀ r ∈ combinedRows env d existing.rows incoming.rows,
      r ∈ existing.rows ++ incoming.rows := by
    intro r hr
    have hkept := (sortValues_perm env _ _).mem_iff.mp hr
    exact (sortValues_perm env _ _).mem_iff.mp ((keepLast_sublist _).subset hkept)
  have hvalid : d.validator p
      ⟨fieldNames d.schema, dtype, combinedRows env d existing.rows incoming.rows⟩ = .ok () := by
    rw [hgood]
    refine ⟨rfl, fun r hr => hgoodRow r (hmem r hr), ?_⟩
    exact ((sortValues_perm env _ _).map _).nodup_iff.mpr (nodup_map_keepLast _)
  rw [heq, hvalid]
  exact ⟨_, rfl⟩

theorem readDataset_succeeds (wf : d.WellFormed) {io : PartitionIo} (hio : io.readable = true)
    {st : Store} {value : String}
    (hstored : ∀ rows, st.files d.id value = some rows → StoredWell p d value rows) :
    ∃ existing, readDataset p io st d value = .ok existing ∧
      existing.columns = fieldNames d.schema ∧
      (existing.rows = [] ∨ StoredWell p d value existing.rows) := by
  unfold readDataset
  cases hfile : st.files d.id value with
  | none => exact ⟨_, rfl, rfl, Or.inl rfl⟩
  | some rows =>
    obtain ⟨dtype, hclean⟩ := @clean_of_settled p d wf (fileFrame p d.schema rows) rfl
      (hstored rows hfile).settled
    simp only [hio, if_true]
    exact ⟨_, hclean, rfl, Or.inr (hstored rows hfile)⟩

/-- The frame of one partition is accepted whenever some order of its rows was. -/
private theorem upsertFrames_orderFree (wf : d.WellFormed) (hfree : OrderFree d) {env' : WriteEnv}
    {io : PartitionIo} (hio : io.readable = true) {df df' fresh' coerced : Frame}
    {partition : Partition} {value : String} (hvalue : partitionValue p d partition = .ok value)
    {st : Store} (hstored : ∀ rows, st.files d.id value = some rows → StoredWell p d value rows)
    (hprepare : prepareDatasetFrame p env' d df' partition true = .ok fresh')
    (hcoerced : coercedFrame p d df = .ok coerced)
    (hperm : ∀ coerced', coercedFrame p d df' = .ok coerced' → coerced.rows.Perm coerced'.rows) :
    ∃ fresh frame, upsertFrames p env io d df partition value false st =
      .ok (fresh, some frame) := by
  obtain ⟨fresh, hfresh⟩ : ∃ fresh, prepareDatasetFrame p env d df partition true = .ok fresh :=
    ⟨_, prepare_orderFree wf hfree hprepare hcoerced hperm fun _ => hvalue⟩
  obtain ⟨_, _, _, _, hcolumns', hwell⟩ := prepared_stored wf hvalue hfresh
  obtain ⟨existing, hread, hcolumns, hexisting⟩ := readDataset_succeeds wf hio hstored
  obtain ⟨combined, hcombined⟩ : ∃ combined,
      combineFrames p env d existing fresh partition = .ok combined :=
    combine_orderFree wf hfree hvalue hcolumns hcolumns' hexisting hwell
  refine ⟨fresh, combined, ?_⟩
  unfold upsertFrames
  rw [hfresh]
  simp only [Bind.bind, Except.bind, hread, Bool.false_eq_true, false_and, if_false, hcombined]

theorem writePreparedDataset_succeeds {io : PartitionIo}
    (hio : io = ⟨true, fun _ => .written, true⟩) (df : Frame) (value : String) (st : Store) :
    ∃ st', writePreparedDataset p h io d df value st = (.ok (), st') := by
  subst hio
  simp only [writePreparedDataset, atomicWrite, parquetWriteMaxRetries, atomicWriteFrom,
    upsertPartitionManifestAfterWrite, if_true]
  cases ((st.cleanupLegacyPartitions d).setFile d.id value df.rows).staging
  · exact ⟨_, rfl⟩
  · exact ⟨_, rfl⟩

theorem PartitionWrite.storedWell {io : PartitionIo} {value : String} {skip stopped : Bool}
    {frames : Frame → Prop} {st st' : Store}
    (hwrite : PartitionWrite p h d value io skip frames st stopped st')
    (hframes : ∀ frame, frames frame → StoredWell p d value frame.rows)
    (hstored : ∀ v rows, st.files d.id v = some rows → StoredWell p d v rows) :
    ∀ v rows, st'.files d.id v = some rows → StoredWell p d v rows := by
  have hset : ∀ frame, frames frame → ∀ v rows,
      (st.setFile d.id value frame.rows).files d.id v = some rows → StoredWell p d v rows := by
    intro frame hframe v rows hfile
    by_cases hv : v = value
    · subst hv
      rw [Store.setFile_files_self] at hfile
      rw [← Option.some.inj hfile]
      exact hframes frame hframe
    · rw [Store.setFile_files_of_ne st frame.rows fun heq => hv heq.2] at hfile
      exact hstored v rows hfile
  intro v rows hfile
  cases hwrite with
  | raisedBefore same => exact hstored v rows (same.files ▸ hfile)
  | raisedAfter frame hframe hledger same => exact hset frame hframe v rows (same.files ▸ hfile)
  | skipped hskip same => exact hstored v rows (same.files ▸ hfile)
  | stored frame hframe same =>
    refine hset frame hframe v rows ?_
    rw [← Store.put_files p h d value frame.rows st, same.files]
    exact hfile

/-- A partition whose incoming rows were accepted in some order. -/
structure AcceptedRows (p : Pandas) (d : DatasetDefinition) (df : Frame) (partition : Partition)
    (value : String) : Prop where
  value : partitionValue p d partition = .ok value
  coerced : ∃ coerced, coercedFrame p d df = .ok coerced
  accepted : ∃ env' df' fresh', prepareDatasetFrame p env' d df' partition true = .ok fresh' ∧
    ∀ coerced coerced', coercedFrame p d df = .ok coerced → coercedFrame p d df' = .ok coerced' →
      coerced.rows.Perm coerced'.rows

private theorem writeDatasetUpsertPartition_succeeds (wf : d.WellFormed) (hfree : OrderFree d)
    {io : PartitionIo} (hio : io = ⟨true, fun _ => .written, true⟩) {df : Frame}
    {partition : Partition} {value : String} (hrows : AcceptedRows p d df partition value)
    {st : Store} (hstored : ∀ v rows, st.files d.id v = some rows → StoredWell p d v rows) :
    ∃ result st', writeDatasetUpsertPartition p h env io d df partition value false st =
        (.ok result, st') ∧
      ∀ v rows, st'.files d.id v = some rows → StoredWell p d v rows := by
  obtain ⟨hvalue, ⟨coerced, hcoerced⟩, env', df', fresh', hprepare, hperm⟩ := hrows
  obtain ⟨fresh, frame, hframes⟩ : ∃ fresh frame,
      upsertFrames p env io d df partition value false st = .ok (fresh, some frame) :=
    upsertFrames_orderFree wf hfree (by rw [hio]) hvalue (hstored value) hprepare hcoerced
      fun coerced' hcoerced' => hperm coerced coerced' hcoerced hcoerced'
  have hwrite := writeDatasetUpsertPartition_outcome p h env io d df partition value false st
  have hwell : ∀ v rows, (writeDatasetUpsertPartition p h env io d df partition value false
      st).2.files d.id v = some rows → StoredWell p d v rows := by
    refine hwrite.storedWell ?_ hstored
    rintro frame' ⟨fresh', hframes'⟩
    obtain ⟨-, -, -, -, hwell⟩ := upsertFrames_stored wf hvalue (hstored value) hframes'
    exact hwell
  obtain ⟨st', hout⟩ := @writePreparedDataset_succeeds p h d io hio frame value st
  have hres : writeDatasetUpsertPartition p h env io d df partition value false st =
      (.ok ⟨[(d.id, value)], fresh.rows.length, 1, 0⟩, st') := by
    simp only [writeDatasetUpsertPartition, hframes, hout]
  rw [hres] at hwell
  exact ⟨_, st', hres, hwell⟩

private theorem writeGroups_succeeds (wf : d.WellFormed) (hfree : OrderFree d) (henv : Succeeds env)
    {column : String} {cleaned : Frame} (gs : List (Cell × List Row))
    (hgs : ∀ g ∈ gs, ∃ value, groupPartitionValue p d column g.1 = .ok value ∧
      AcceptedRows p d { cleaned with rows := g.2 } (some [(column, .text value)]) value)
    (k : ℕ) (total : DatasetWriteResult) {st : Store}
    (hstored : ∀ v rows, st.files d.id v = some rows → StoredWell p d v rows) :
    raised (writeGroups p h env d column cleaned false k gs total st).1 = false := by
  induction gs generalizing k total st with
  | nil => rfl
  | cons g gs ih =>
    obtain ⟨v, rows⟩ := g
    obtain ⟨value, hvalue, hrows⟩ := hgs (v, rows) List.mem_cons_self
    obtain ⟨result, st', hout, hstored'⟩ :=
      @writeDatasetUpsertPartition_succeeds p h env d wf hfree (env.io k) (henv k) _ _ _ hrows st
        hstored
    simp only [writeGroups, hvalue, hout]
    exact ih (fun g hg => hgs g (List.mem_cons_of_mem _ hg)) _ _ hstored'

theorem writeDatasetReplace_accepts (wf : d.WellFormed) (hfree : OrderFree d)
    (henv : Succeeds env) {env' : WriteEnv} {df : Frame} {partition : Partition} {merge : Bool}
    {st : Store} (hstored : ∀ v rows, st.files d.id v = some rows → StoredWell p d v rows)
    (haccepted : raised (writeDatasetReplace p h env' d df partition merge st).1 = false) :
    raised (writeDatasetReplace p h env d df partition merge st).1 = false := by
  unfold writeDatasetReplace at haccepted ⊢
  cases hvalue : partitionValue p d partition with
  | error e =>
    rw [hvalue] at haccepted
    exact haccepted
  | ok value =>
    rw [hvalue] at haccepted
    simp only at haccepted ⊢
    cases hframe' : replaceFrame p env' d df partition value merge st with
    | error e =>
      rw [hframe'] at haccepted
      cases haccepted
    | ok frame' =>
      obtain ⟨fresh', hprepare', -⟩ := bind_eq_ok.mp hframe'
      obtain ⟨coerced, hcoerced, -, -, -, -⟩ := prepared_stored wf hvalue hprepare'
      obtain ⟨fresh, hprepare⟩ : ∃ fresh, prepareDatasetFrame p env d df partition true =
          .ok fresh := by
        refine ⟨_, prepare_orderFree wf hfree hprepare' hcoerced ?_ fun _ => hvalue⟩
        intro coerced' hcoerced'
        rw [hcoerced] at hcoerced'
        rw [Except.ok.inj hcoerced']
      obtain ⟨-, -, -, -, hcolumns', hwell⟩ := prepared_stored wf hvalue hprepare
      obtain ⟨frame, hframe⟩ : ∃ frame,
          replaceFrame p env d df partition value merge st = .ok frame := by
        unfold replaceFrame
        rw [hprepare]
        simp only [Bind.bind, Except.bind]
        split
        case isTrue =>
          obtain ⟨existing, hread, hcolumns, hexisting⟩ :=
            @readDataset_succeeds p d wf (env.io 0) (by rw [henv 0]) st value (hstored value)
          obtain ⟨combined, hcombined⟩ := @combine_orderFree p env d wf hfree existing fresh
            partition value hvalue hcolumns hcolumns' hexisting hwell
          rw [hread]
          exact ⟨combined, hcombined⟩
        case isFalse => exact ⟨fresh, rfl⟩
      obtain ⟨st', hout⟩ := @writePreparedDataset_succeeds p h d _ (henv 0) frame value st
      rw [hframe]
      simp only [hout]
      rfl

private theorem acceptedRows_of_group (wf : d.WellFormed) {env' : WriteEnv} {column : String}
    {coerced cleaned cleaned' : Frame} {skip : Bool}
    (hcolumn : d.partitionColumn = some column)
    (hcleaned : cleaned = { coerced with rows := sortValues env d.sortColumns coerced.rows })
    (hcleaned' : cleaned' = { coerced with rows := sortValues env' d.sortColumns coerced.rows })
    (hcolumns : coerced.columns = fieldNames d.schema)
    (hsettled : ∀ r ∈ coerced.rows, Settled p d r) {g : Cell × List Row}
    (hg : g ∈ groupRows column cleaned.rows)
    (hall : ∀ g' ∈ groupRows column cleaned'.rows, ∃ k st value frame,
      GroupFrame p env' d column cleaned' skip st k g' value frame) :
    ∃ value, groupPartitionValue p d column g.1 = .ok value ∧
      AcceptedRows p d { cleaned with rows := g.2 } (some [(column, .text value)]) value := by
  obtain ⟨v, rows⟩ := g
  obtain ⟨hv, hrows⟩ := mem_groups.mp hg
  have hperm : cleaned.rows.Perm cleaned'.rows := by
    rw [hcleaned, hcleaned']
    exact (sortValues_perm env _ _).trans (sortValues_perm env' _ _).symm
  have hg' : (v, cleaned'.rows.filter fun r => r column = v) ∈ groupRows column cleaned'.rows :=
    mem_groups.mpr ⟨(hperm.map _).mem_iff.mp hv, rfl⟩
  obtain ⟨k, st, value, frame, hvalue, fresh, hframes⟩ := hall _ hg'
  obtain ⟨fresh', hprepare, -⟩ := bind_eq_ok.mp hframes
  have hmem : ∀ r ∈ rows, r ∈ coerced.rows := by
    intro r hr
    rw [hrows, hcleaned] at hr
    exact (sortValues_perm env _ _).mem_iff.mp (List.mem_filter.mp hr).1
  have hcols : ({ cleaned with rows := rows } : Frame).columns = fieldNames d.schema := by
    rw [hcleaned]
    exact hcolumns
  obtain ⟨dtype, hsame⟩ := @coercedFrame_of_settled p d wf { cleaned with rows := rows } hcols
    fun r hr => hsettled r (hmem r hr)
  refine ⟨value, hvalue, groupPartitionValue_text hcolumn hvalue, ⟨_, hsame⟩, env', _, fresh',
    hprepare, ?_⟩
  intro c c' hc hc'
  have hcols' : ({ cleaned' with rows := cleaned'.rows.filter fun r => r column = v } :
      Frame).columns = fieldNames d.schema := by
    rw [hcleaned']
    exact hcolumns
  obtain ⟨dtype', hsame'⟩ := @coercedFrame_of_settled p d wf
    { cleaned' with rows := cleaned'.rows.filter fun r => r column = v } hcols' (by
      intro r hr
      have hr' := (List.mem_filter.mp hr).1
      rw [hcleaned'] at hr'
      exact hsettled r ((sortValues_perm env' _ _).mem_iff.mp hr'))
  rw [hsame] at hc
  rw [hsame'] at hc'
  rw [← Except.ok.inj hc, ← Except.ok.inj hc']
  show List.Perm rows _
  rw [hrows]
  exact hperm.filter _

theorem writeDatasetUpsert_accepts (wf : d.WellFormed) (hfree : OrderFree d)
    (henv : Succeeds env) {env' : WriteEnv} {df : Frame} {partition : Partition} {st : Store}
    (hstored : ∀ v rows, st.files d.id v = some rows → StoredWell p d v rows)
    (haccepted : raised (writeDatasetUpsert p h env' d df partition false st).1 = false) :
    raised (writeDatasetUpsert p h env d df partition false st).1 = false := by
  by_cases hspans : SpansPartitions d partition .upsert
  · obtain ⟨n, written, last, hended⟩ := @writeDatasetUpsert_ended p h env' d df partition false wf st
    rw [haccepted] at hended
    obtain ⟨-, hn⟩ := hended.finished rfl
    obtain ⟨-, hcolumn, rfl⟩ := id hspans
    obtain ⟨column, hcolumn⟩ := Option.ne_none_iff_exists'.mp hcolumn
    simp only [writeDatasetUpsert, hcolumn] at haccepted ⊢
    split
    case isTrue => rfl
    case isFalse hdf =>
      rw [if_neg hdf] at haccepted
      cases hprepare' : prepareDatasetFrame p env' d df none true with
      | error e =>
        rw [hprepare'] at haccepted
        cases haccepted
      | ok cleaned' =>
        obtain ⟨coerced, hcoerced, -, hcleaned', hvalid, hcolumns, hsettled⟩ :=
          prepareDatasetFrame_rows wf hprepare'
        have hprepare : prepareDatasetFrame p env d df none true =
            .ok { coerced with rows := sortValues env d.sortColumns coerced.rows } := by
          refine @prepare_orderFree p env d wf hfree env' df df cleaned' coerced none hprepare'
            hcoerced ?_ "" (fun hne => absurd rfl hne)
          intro coerced' hcoerced'
          rw [hcoerced] at hcoerced'
          rw [Except.ok.inj hcoerced']
        rw [hprepare]
        refine writeGroups_succeeds wf hfree henv _ ?_ 0 _ hstored
        intro g hg
        refine @acceptedRows_of_group p env d wf env' column coerced _ cleaned' false hcolumn rfl
          hcleaned' ?_ ?_ g hg ?_
        · rw [hcleaned'] at hcolumns
          exact hcolumns
        · intro r hr
          refine hsettled r ?_
          rw [hcleaned']
          exact (sortValues_perm env' _ _).mem_iff.mpr hr
        · intro g' hg'
          obtain ⟨k, hk, hget⟩ := List.mem_iff_getElem.mp hg'
          have hlt : k < n := by
            rw [hn]
            simp only [writeCount, hcolumn, if_neg hdf, hprepare']
            exact hk
          obtain ⟨w, -, hplanned⟩ := hended.planned_written rfl k hlt
          cases hplanned with
          | replace hmode hvalue hframe => exact absurd rfl hmode
          | upsert hmode hvalue hframe => simp [partitionValue, hcolumn] at hvalue
          | group hspans' hcolumn' hdf' hcleaned'' hgroup hframe =>
            rw [hcolumn] at hcolumn'
            obtain rfl := Option.some.inj hcolumn'
            rw [hprepare'] at hcleaned''
            obtain rfl := Except.ok.inj hcleaned''
            rw [List.getElem?_eq_getElem hk, Option.some.injEq] at hgroup
            rw [← hgroup, hget] at hframe
            exact ⟨k, st, _, _, hframe⟩
  · rw [writeDatasetUpsert_single hspans] at haccepted ⊢
    cases hvalue : partitionValue p d partition with
    | error e =>
      rw [hvalue] at haccepted
      exact haccepted
    | ok value =>
      rw [hvalue] at haccepted
      simp only at haccepted ⊢
      unfold writeDatasetUpsertPartition at haccepted
      cases hframes : upsertFrames p env' (env'.io 0) d df partition value false st with
      | error e =>
        rw [hframes] at haccepted
        cases haccepted
      | ok frames =>
        obtain ⟨fresh', hprepare', -⟩ := bind_eq_ok.mp hframes
        obtain ⟨coerced, hcoerced, -, -, -, -⟩ := prepared_stored wf hvalue hprepare'
        have hrows : AcceptedRows p d df partition value := by
          refine ⟨hvalue, ⟨coerced, hcoerced⟩, env', df, fresh', hprepare', ?_⟩
          intro c c' hc hc'
          rw [hc] at hc'
          rw [Except.ok.inj hc']
        obtain ⟨result, st', hout, -⟩ := @writeDatasetUpsertPartition_succeeds p h env d wf hfree
          (env.io 0) (henv 0) df partition value hrows st hstored
        rw [hout]
        rfl

end Acceptance

end QuantDataCenter.Storage
