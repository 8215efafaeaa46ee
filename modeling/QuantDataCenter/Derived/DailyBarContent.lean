import QuantDataCenter.Derived.StockDailyBar

/-!
Where the stored daily bars come from: every row that a full build leaves under a
security is a bar of one of the source partitions its master row points to.
-/

set_option autoImplicit false
set_option relaxedAutoImplicit false

namespace QuantDataCenter.Derived

open QuantDataCenter.Lib.Checked QuantDataCenter.Lib.Keyed QuantDataCenter.Tabular
open QuantDataCenter.Quality QuantDataCenter.Storage QuantDataCenter.Derived.Commit

/-! Rows of a materialized frame -/

private theorem mem_keepFirst {α κ : Type} [DecidableEq κ] {key : α → κ} {rows : List α} {r : α}
    (h : r ∈ keepFirst key rows) : r ∈ rows := by
  unfold keepFirst at h
  rw [List.mem_reverse] at h
  exact List.mem_reverse.mp ((keepLast_sublist _).subset h)

theorem mem_combineSources {p : Pandas} {combined : Frame} {r : Row}
    (h : r ∈ (combineSources p combined).rows) : r ∈ combined.rows := by
  unfold combineSources at h
  have hunique := (stableSort_perm _ _).mem_iff.mp h
  exact (stableSort_perm _ _).mem_iff.mp (mem_keepFirst hunique)

private theorem mem_concatAll {p : Pandas} {dfs : List Frame} {r : Row}
    (h : r ∈ (concatAll p dfs).rows) :
    ∃ df ∈ dfs, r ∈ df.rows := by
  induction dfs using concatAll.induct p with
  | case1 => simp [concatAll] at h
  | case2 df =>
    rw [concatAll] at h
    exact ⟨df, List.mem_singleton_self df, h⟩
  | case3 df df' dfs ih =>
    rw [concatAll] at h
    obtain ⟨frame, hframe, hr⟩ := ih h
    rcases List.mem_cons.mp hframe with rfl | hmem
    · rcases List.mem_append.mp hr with hr | hr
      · exact ⟨df, List.mem_cons_self, hr⟩
      · exact ⟨df', List.mem_cons_of_mem _ List.mem_cons_self, hr⟩
    · exact ⟨frame, List.mem_cons_of_mem _ (List.mem_cons_of_mem _ hmem), hr⟩

def BarOf (p : Pandas) (security : Row) (updatedAt : Int) (df : Frame) (datasetId : String)
    (source bar : Row) : Prop :=
  ∃ adjustment, ((datasetId, adjustment) ∈ baostockDailySources ∧
      bar = mapBaostockRow security updatedAt df datasetId adjustment source) ∨
    ((datasetId, adjustment) ∈ akshareDailySources ∧
      bar = mapAkshareRow p security updatedAt df datasetId adjustment source)

/-- The bar was read from a partition that the master row points to. -/
def ReadFrom (p : Pandas) (reads : Reads) (st : Store) (security : Row) (updatedAt : Int)
    (field : SourceField) (bar : Row) : Prop :=
  field ∈ dailySourceFields ∧ cleanString p (security field.2) ≠ "" ∧
    ∃ d df, datasetDefinition field.1 = .ok d ∧
      readPartition p reads st d (cleanString p (security field.2)) = .ok df ∧
      ∃ source ∈ df.rows, BarOf p security updatedAt df field.1 source bar

private theorem mapM_mem {α β ε : Type} {f : α → Except ε β} {l : List α} {m : List β}
    (h : l.mapM f = .ok m) {b : β} (hb : b ∈ m) : ∃ a ∈ l, f a = .ok b := by
  induction l generalizing m with
  | nil =>
    obtain rfl : [] = m := Except.ok.inj h
    cases hb
  | cons a l ih =>
    rw [List.mapM_cons] at h
    obtain ⟨b', hb', hrest⟩ := bind_eq_ok.mp h
    obtain ⟨m', hm', hout⟩ := bind_eq_ok.mp hrest
    obtain rfl : b' :: m' = m := Except.ok.inj hout
    rcases List.mem_cons.mp hb with rfl | hmem
    · exact ⟨a, List.mem_cons_self, hb'⟩
    · obtain ⟨a', ha', hfa⟩ := ih hm' hmem
      exact ⟨a', List.mem_cons_of_mem _ ha', hfa⟩

theorem dailySource_definition {datasetId : String}
    (h : datasetId ∈ dailySourceFields.map Prod.fst) :
    ∃ d, datasetDefinition datasetId = .ok d ∧ d.id = datasetId ∧ d.partitionColumn = some "code" := by
  simp only [dailySourceFields, baostockDailySources, akshareDailySources, List.map_cons,
    List.map_nil, List.cons_append, List.nil_append, List.mem_cons, List.not_mem_nil,
    or_false] at h
  rcases h with rfl | rfl | rfl | rfl | rfl | rfl <;> exact ⟨_, rfl, rfl, rfl⟩

section Materialize

variable {p : Pandas} {reads : Reads} {st : Store} {cache : String → List String}

private theorem readPartitionOrEmptyCached_rows {datasetId value : String} {df : Frame}
    (hsource : datasetId ∈ dailySourceFields.map Prod.fst)
    (h : readPartitionOrEmptyCached p reads st cache datasetId value = .ok df) {r : Row}
    (hr : r ∈ df.rows) :
    ∃ d, datasetDefinition datasetId = .ok d ∧ readPartition p reads st d value = .ok df := by
  obtain ⟨d, hd, -, hcolumn⟩ := dailySource_definition hsource
  unfold readPartitionOrEmptyCached at h
  rw [hd] at h
  simp only [Bind.bind, Except.bind, hcolumn] at h
  split at h
  · obtain rfl := Except.ok.inj h
    cases hr
  · exact ⟨d, hd, h⟩

private theorem mem_sourceFrames {code : String} {sources : List (String × String)}
    {map : Frame → String → String → Frame} {frames : List Frame}
    (h : sourceFrames p reads st cache code sources map = .ok frames) {frame : Frame}
    (hframe : frame ∈ frames) : code ≠ "" ∧ ∃ source ∈ sources, ∃ df,
      readPartitionOrEmptyCached p reads st cache source.1 code = .ok df ∧
        frame = map df source.1 source.2 := by
  unfold sourceFrames at h
  split at h
  case isTrue =>
    obtain rfl := Except.ok.inj h
    cases hframe
  case isFalse hcode =>
    obtain ⟨source, hsource, hmap⟩ := mapM_mem h hframe
    obtain ⟨df, hdf, hout⟩ := bind_eq_ok.mp hmap
    exact ⟨hcode, source, hsource, df, hdf, (Except.ok.inj hout).symm⟩

theorem materialize_rows {security : Row} {updatedAt : Int} {df : Frame}
    (h : materializeSecurityDailyBar p reads st cache security updatedAt = .ok df) {bar : Row}
    (hbar : bar ∈ df.rows) : ∃ field, ReadFrom p reads st security updatedAt field bar := by
  unfold materializeSecurityDailyBar at h
  obtain ⟨baostockFrames, hbaostock, h⟩ := bind_eq_ok.mp h
  obtain ⟨akshareFrames, hakshare, h⟩ := bind_eq_ok.mp h
  obtain ⟨frame, hframe, hmem⟩ : ∃ frame ∈ baostockFrames ++ akshareFrames, bar ∈ frame.rows := by
    split at h
    · obtain rfl := Except.ok.inj h
      cases hbar
    · obtain rfl := Except.ok.inj h
      obtain ⟨frame, hframe, hr⟩ := mem_concatAll (mem_combineSources hbar)
      exact ⟨frame, (List.mem_filter.mp hframe).1, hr⟩
  rcases List.mem_append.mp hframe with hframe | hframe
  · obtain ⟨hcode, source, hsource, df', hread, rfl⟩ := mem_sourceFrames hbaostock hframe
    obtain ⟨r, hr, rfl⟩ := List.mem_map.mp hmem
    have hfield : (source.1, "baostock_code") ∈ dailySourceFields :=
      List.mem_append_left _ (List.mem_map_of_mem hsource)
    obtain ⟨d, hd, hpartition⟩ :=
      readPartitionOrEmptyCached_rows (List.mem_map_of_mem hfield) hread hr
    exact ⟨_, hfield, hcode, d, df', hd, hpartition, r, hr, source.2, Or.inl ⟨hsource, rfl⟩⟩
  · obtain ⟨hcode, source, hsource, df', hread, rfl⟩ := mem_sourceFrames hakshare hframe
    obtain ⟨r, hr, rfl⟩ := List.mem_map.mp hmem
    have hfield : (source.1, "akshare_code") ∈ dailySourceFields :=
      List.mem_append_right _ (List.mem_map_of_mem hsource)
    obtain ⟨d, hd, hpartition⟩ :=
      readPartitionOrEmptyCached_rows (List.mem_map_of_mem hfield) hread hr
    exact ⟨_, hfield, hcode, d, df', hd, hpartition, r, hr, source.2, Or.inr ⟨hsource, rfl⟩⟩

end Materialize

/-! Signing leaves the files alone -/

section Signing

variable {p : Pandas} {h : Hashing}

variable {env : SourcePartition → WriteEnv}

private theorem sourceManifestRow_files (d : DatasetDefinition) (pair : SourcePartition)
    (st : Store) :
    (sourceManifestRow p h env d pair st).2.files = st.files := by
  unfold sourceManifestRow
  split
  · rfl
  · have hrebuild : (rebuildOnePartitionManifest p h env d pair st).2.files = st.files := by
      unfold rebuildOnePartitionManifest
      split
      · rfl
      · split
        · rfl
        · split
          · rfl
          · exact upsertWritten_files ..
    revert hrebuild
    generalize rebuildOnePartitionManifest p h env d pair st = out
    intro hrebuild
    obtain ⟨res, st'⟩ := out
    cases res with
    | error e => exact hrebuild
    | ok u =>
      simp only
      split
      · exact hrebuild
      · exact hrebuild

private theorem sourceManifestEntries_files (pairs : List SourcePartition) (st : Store) :
    (sourceManifestEntries p h env pairs st).2.files = st.files := by
  induction pairs generalizing st with
  | nil => rfl
  | cons pair pairs ih =>
    unfold sourceManifestEntries
    split
    · rfl
    · rename_i d _
      have hrow := @sourceManifestRow_files p h env d pair st
      revert hrow
      generalize sourceManifestRow p h env d pair st = out
      intro hrow
      obtain ⟨res, st'⟩ := out
      cases res with
      | error e => exact hrow
      | ok row =>
        have hrest := ih st'
        revert hrest
        simp only
        generalize sourceManifestEntries p h env pairs st' = rest
        intro hrest
        obtain ⟨res', st''⟩ := rest
        cases res' with
        | error e => exact hrest.trans hrow
        | ok entries => exact hrest.trans hrow

private theorem currentSourceSignature_files (security : Row) (pairs : List SourcePartition)
    (st : Store) :
    (currentSourceSignatureForSecurity p h env security pairs st).2.files = st.files := by
  have hentries := @sourceManifestEntries_files p h env pairs.eraseDups st
  unfold currentSourceSignatureForSecurity
  revert hentries
  simp only
  generalize sourceManifestEntries p h env pairs.eraseDups st = out
  intro hentries
  obtain ⟨res, st'⟩ := out
  cases res with
  | error e => exact hentries
  | ok entries => exact hentries

end Signing

/-! The staged securities -/

section Staging

variable {p : Pandas} {h : Hashing} {b : BuildEnv} {cache : String → List String}

private theorem readPartition_congr {reads : Reads} {st st' : Store} (hfiles : st.files = st'.files)
    (d : DatasetDefinition) (value : String) :
    readPartition p reads st d value = readPartition p reads st' d value := by
  simp only [readPartition, readDataset, hfiles]

private theorem materialize_congr {reads : Reads} {st st' : Store} (hfiles : st.files = st'.files)
    (security : Row) (updatedAt : Int) :
    materializeSecurityDailyBar p reads st cache security updatedAt =
      materializeSecurityDailyBar p reads st' cache security updatedAt := by
  simp only [materializeSecurityDailyBar, sourceFrames, readPartitionOrEmptyCached,
    readPartition_congr hfiles]

private theorem signedPartition_files (security : Row) (st : Store) :
    (signedPartition p h b cache security st).2.files = st.files := by
  unfold signedPartition
  simp only
  split
  · rfl
  · split
    · rfl
    · split
      · rfl
      · split
        · rfl
        · rename_i pairs _
          have hsign := @currentSourceSignature_files p h b.signing security pairs st
          revert hsign
          generalize currentSourceSignatureForSecurity p h b.signing security pairs st = out
          intro hsign
          obtain ⟨res, st'⟩ := out
          cases res with
          | error e => exact hsign
          | ok signed => exact hsign

private theorem signedPartition_some {security : Row} {st st' : Store} {s : StagedPartition}
    (hout : signedPartition p h b cache security st = (.ok (some s), st')) :
    s.securityId = cleanString p (security "security_id") ∧ s.securityId ≠ "" ∧
      materializeSecurityDailyBar p b.reads st cache security b.updatedAt = .ok s.df := by
  unfold signedPartition at hout
  simp only at hout
  split at hout
  · cases hout
  · rename_i hid
    split at hout
    · cases hout
    · rename_i df hdf
      split at hout
      · cases hout
      · split at hout
        · cases hout
        · split at hout
          · cases hout
          · obtain rfl := Option.some.inj (Except.ok.inj (Prod.mk.inj hout).1)
            exact ⟨rfl, hid, hdf⟩

structure Staged (p : Pandas) (h : Hashing) (b : BuildEnv) (cache : String → List String) (k : ℕ)
    (master : List Row) (st area area' : Store) (staged : List StagedPartition) : Prop where
  written : stagePartitions p h b.stagingEnvs "cn_stock_daily_bar" k staged area = (.ok (), area')
  ids : (staged.map StagedPartition.securityId).Sublist
    (master.map fun security => cleanString p (security "security_id"))
  frames : ∀ s ∈ staged, ∃ security ∈ master,
    s.securityId = cleanString p (security "security_id") ∧
      materializeSecurityDailyBar p b.reads st cache security b.updatedAt = .ok s.df

private theorem stageSecurities_spec {k : ℕ} {master : List Row} {area area' st st' : Store}
    {staged : List StagedPartition}
    (hout : stageSecurities p h b cache k master area st = (.ok staged, area', st')) :
    st'.files = st.files ∧ Staged p h b cache k master st area area' staged := by
  induction master generalizing k area st staged with
  | nil =>
    obtain ⟨rfl, rfl⟩ : [] = staged ∧ area = area' := by
      simp only [stageSecurities, Prod.mk.injEq, Except.ok.injEq] at hout
      exact ⟨hout.1, hout.2.1⟩
    have hst : st = st' := by
      simp only [stageSecurities, Prod.mk.injEq] at hout
      exact hout.2.2
    exact ⟨by rw [hst], rfl, List.nil_sublist _, fun s hs => (by cases hs)⟩
  | cons security master ih =>
    unfold stageSecurities at hout
    have hfiles := @signedPartition_files p h b cache security st
    rcases hsigned : signedPartition p h b cache security st with ⟨res, st1⟩
    rw [hsigned] at hout hfiles
    cases res with
    | error e => cases hout
    | ok signed =>
      cases signed with
      | none =>
        obtain ⟨hrest, hstaged⟩ := ih hout
        refine ⟨hrest.trans hfiles, hstaged.written, hstaged.ids.cons _, fun s hs => ?_⟩
        obtain ⟨security', hmem, hid, hdf⟩ := hstaged.frames s hs
        exact ⟨security', List.mem_cons_of_mem _ hmem, hid, (materialize_congr hfiles _ _) ▸ hdf⟩
      | some s =>
        obtain ⟨hid, -, hdf⟩ := signedPartition_some hsigned
        simp only at hout
        rcases hwrite : writeDataset p h (b.stagingEnvs k) "cn_stock_daily_bar" s.df
          (securityPartition s.securityId) (some .replace) false area with ⟨res1, area1⟩
        rw [hwrite] at hout
        cases res1 with
        | error e => cases hout
        | ok result =>
          simp only at hout
          rcases hrest : stageSecurities p h b cache (k + 1) master area1 st1 with
            ⟨res2, area2, st2⟩
          rw [hrest] at hout
          cases res2 with
          | error e => cases hout
          | ok rest =>
            obtain ⟨hres, harea, hst⟩ : s :: rest = staged ∧ area2 = area' ∧ st2 = st' := by
              simp only [Prod.mk.injEq, Except.ok.injEq] at hout
              exact hout
            subst hres harea hst
            obtain ⟨hfiles', hstaged⟩ := ih hrest
            refine ⟨hfiles'.trans hfiles, ?_, ?_, fun s' hs' => ?_⟩
            · unfold stagePartitions
              rw [hwrite]
              exact hstaged.written
            · rw [List.map_cons, List.map_cons, hid]
              exact hstaged.ids.cons_cons _
            · rcases List.mem_cons.mp hs' with rfl | hmem
              · exact ⟨security, List.mem_cons_self, hid, hdf⟩
              · obtain ⟨security', hmem', hid', hdf'⟩ := hstaged.frames s' hmem
                exact ⟨security', List.mem_cons_of_mem _ hmem', hid',
                  (materialize_congr hfiles _ _) ▸ hdf'⟩

theorem commitStaged_files {d : DatasetDefinition} {staged : List StagedPartition}
    {area st st' : Store} (hout : commitStaged p h b d staged area st = (.ok (), st'))
    (value : String) : st'.files d.id value = area.files d.id value := by
  unfold commitStaged at hout
  simp only at hout
  generalize hcommit : commit_derived_dataset_staging (d.source == .derived) b.outcomes
    (areaOf b.existed) = out at hout
  cases hraised : out.1 with
  | some r =>
    rw [hraised] at hout
    cases hout
  | none =>
    have hfinal : out.2.final_dir = some {true} := by
      rw [← hcommit] at hraised ⊢
      exact commitStaging_ends hraised
    rw [hraised] at hout
    simp only at hout
    generalize hswapped : st.setDataset d.id (fun value => inPlace out.2.final_dir none
      (st.files d.id value) (area.files d.id value)) = swapped at hout
    have hfiles : swapped.files d.id value = area.files d.id value := by
      rw [← hswapped]
      simp [Store.setDataset, hfinal, inPlace]
    have hrecord := @recordPartitions_files p h b.ledgerEnvs d 0 staged swapped
    revert hrecord hout
    generalize recordPartitions p h b.ledgerEnvs d 0 staged swapped = recorded
    intro hout hrecord
    obtain ⟨res, st1⟩ := recorded
    cases res with
    | error e => cases hout
    | ok u =>
      simp only at hout hrecord
      split at hout
      · cases hout
      · obtain rfl := (Prod.mk.inj hout).2
        show st1.files d.id value = _
        rw [hrecord, hfiles]

theorem strip_cleanString (p : Pandas) (c : Cell) : strip (cleanString p c) = cleanString p c := by
  unfold cleanString
  cases c with
  | null => rfl
  | _ => exact strip_strip _

/-- A row of the stored dataset: a bar of the security, as the store cleans it. -/
def StoredBar (p : Pandas) (reads : Reads) (st : Store) (security : Row) (updatedAt : Int)
    (field : SourceField) (r : Row) : Prop :=
  ∃ df bar, bar ∈ df.rows ∧ ReadFrom p reads st security updatedAt field bar ∧
    r = coercedRow p cnStockDailyBarDataset df bar

/-- Everything a full build stores under a security is a bar of it. -/
theorem stored_bars {master : List Row} {st st1 st' : Store}
    (hmaster : readOrBuildMaster p h b st = (.ok master, st1))
    (hids : (master.map fun security => cleanString p (security "security_id")).Nodup)
    (hbuild : buildCnStockDailyBar p h b st = (.ok (), st')) {value : String} {rows : List Row}
    (hfile : st'.files cnStockDailyBarDataset.id value = some rows) {r : Row} (hr : r ∈ rows) :
    ∃ security ∈ master, cleanString p (security "security_id") = value ∧
      ∃ field, StoredBar p b.reads st1 security b.updatedAt field r := by
  have hd : datasetDefinition "cn_stock_daily_bar" = .ok cnStockDailyBarDataset := rfl
  have wf : cnStockDailyBarDataset.WellFormed := wellFormed_of_mem (mem_datasetCatalog hd).1
  unfold buildCnStockDailyBar at hbuild
  rw [hmaster] at hbuild
  simp only at hbuild
  rcases hstage : stageSecurities p h b b.reads.partitions 0
    (filterMasterToDailySourceCandidates p b.reads.partitions master) stagingStore st1 with
    ⟨res, area, st2⟩
  rw [hstage] at hbuild
  cases res with
  | error e => cases hbuild
  | ok staged =>
    obtain ⟨-, hstaged⟩ := stageSecurities_spec hstage
    have hdistinct : (staged.map StagedPartition.securityId).Nodup := by
      refine hstaged.ids.nodup ?_
      exact (List.Sublist.map _ List.filter_sublist).nodup hids
    have hclean : ∀ s ∈ staged, strip s.securityId = s.securityId := by
      intro s hs
      obtain ⟨security, -, hid, -⟩ := hstaged.frames s hs
      rw [hid]
      exact strip_cleanString p _
    obtain ⟨hfiles, hother⟩ := stagePartitions_files hd 0 hdistinct hclean hstaged.written
    rw [commitStaged_files hbuild value] at hfile
    by_cases hmem : value ∈ staged.map StagedPartition.securityId
    · obtain ⟨s, hs, rfl⟩ := List.mem_map.mp hmem
      obtain ⟨rows', hprepared, hfile'⟩ := hfiles s hs
      rw [hfile] at hfile'
      obtain rfl := Option.some.inj hfile'
      obtain ⟨security, hsecurity, hid, hdf⟩ := hstaged.frames s hs
      obtain ⟨hvalue, env, frame, hprepare, rfl⟩ := hprepared
      obtain ⟨coerced, hcoerced, -, hrows, -, -⟩ := prepared_stored wf hvalue hprepare
      rw [hrows] at hr
      have hmemCoerced := (sortValues_perm env _ _).mem_iff.mp hr
      rw [coercedFrame_rows hcoerced] at hmemCoerced
      obtain ⟨bar, hbar, rfl⟩ := List.mem_map.mp hmemCoerced
      obtain ⟨field, hread⟩ := materialize_rows hdf hbar
      exact ⟨security, (List.mem_filter.mp hsecurity).1, hid.symm, field, s.df, bar, hbar, hread, rfl⟩
    · rw [hother value hmem] at hfile
      cases hfile

end Staging

end QuantDataCenter.Derived
