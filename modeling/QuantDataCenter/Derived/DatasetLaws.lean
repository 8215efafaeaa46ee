import QuantDataCenter.Derived.BuildRuns

/-!
How the frames of the two canonical datasets depend on the store: they are read from the partitions
that the codes of the master row name, and whether they have rows is a matter of these files only.
-/

set_option autoImplicit false
set_option relaxedAutoImplicit false

namespace QuantDataCenter.Derived

open QuantDataCenter.Lib QuantDataCenter.Lib.Checked QuantDataCenter.Lib.Keyed
open QuantDataCenter.Tabular QuantDataCenter.Quality QuantDataCenter.Storage

section Reading

variable {p : Pandas} {st st' : Store} {datasetId code : String}

private theorem readCached_congr (hcode : ByCode datasetId)
    (hsame : st'.files datasetId = st.files datasetId)
    (reads : Reads) (cache : String → List String) (value : String) :
    readPartitionOrEmptyCached p reads st' cache datasetId value =
      readPartitionOrEmptyCached p reads st cache datasetId value := by
  obtain ⟨d, hd, hcolumn⟩ := hcode
  have hid : d.id = datasetId := (mem_datasetCatalog hd).2
  unfold readPartitionOrEmptyCached
  simp only [hd, Bind.bind, Except.bind, hcolumn, readPartition, readDataset, hid, hsame]

private theorem file_of_readCached (hcode : ByCode datasetId) (hstrip : strip code = code)
    {reads : Reads}
    {cache : String → List String} {df : Frame}
    (hread : readPartitionOrEmptyCached p reads st cache datasetId code = .ok df)
    (hrows : df.rows ≠ []) : (st.files datasetId code).isSome = true := by
  obtain ⟨d, hd, hcolumn⟩ := hcode
  have hid : d.id = datasetId := (mem_datasetCatalog hd).2
  unfold readPartitionOrEmptyCached at hread
  simp only [hd, Bind.bind, Except.bind, hcolumn] at hread
  split at hread
  · obtain rfl := Except.ok.inj hread
    exact absurd rfl hrows
  · obtain ⟨value, hvalue, hdataset⟩ := bind_eq_ok.mp hread
    rw [partitionValue_code hcolumn hstrip hvalue, readDataset, hid] at hdataset
    cases hfile : st.files datasetId code with
    | some rows => rfl
    | none =>
      rw [hfile] at hdataset
      obtain rfl := Except.ok.inj hdataset
      exact absurd rfl hrows

/-- Two reads agree if both listings find the files. -/
private theorem readCached_agree (hcode : ByCode datasetId) (hstrip : strip code = code)
    {reads reads' : Reads} {cache cache' : String → List String}
    (hlisted : (st.files datasetId code).isSome = true →
      code ∈ cache datasetId ∧ code ∈ cache' datasetId) {df df' : Frame}
    (hread : readPartitionOrEmptyCached p reads st cache datasetId code = .ok df)
    (hread' : readPartitionOrEmptyCached p reads' st cache' datasetId code = .ok df') : df = df' := by
  obtain ⟨d, hd, hcolumn⟩ := hcode
  have hid : d.id = datasetId := (mem_datasetCatalog hd).2
  unfold readPartitionOrEmptyCached at hread hread'
  simp only [hd, Bind.bind, Except.bind, hcolumn] at hread hread'
  -- a partition without a file reads as the empty frame, listed or not
  have hempty : ∀ (reads : Reads) (df : Frame), st.files datasetId code = none →
      readPartition p reads st d code = .ok df → df = emptyDatasetFrame d := by
    intro reads df hnone hdf
    obtain ⟨value, hvalue, hdataset⟩ := bind_eq_ok.mp hdf
    rw [partitionValue_code hcolumn hstrip hvalue, readDataset, hid, hnone] at hdataset
    exact (Except.ok.inj hdataset).symm
  cases hfile : st.files datasetId code with
  | some rows =>
    obtain ⟨hfirst, hsecond⟩ := hlisted (by rw [hfile]; rfl)
    rw [if_neg (not_not_intro hfirst)] at hread
    rw [if_neg (not_not_intro hsecond)] at hread'
    exact readPartition_agree rfl hread hread'
  | none =>
    have hdf : df = emptyDatasetFrame d := by
      split at hread
      · exact (Except.ok.inj hread).symm
      · exact hempty reads df hfile hread
    have hdf' : df' = emptyDatasetFrame d := by
      split at hread'
      · exact (Except.ok.inj hread').symm
      · exact hempty reads' df' hfile hread'
    rw [hdf, hdf']

end Reading

/-! Daily bars -/

section DailyBars

variable {p : Pandas}

private theorem combineSources_eq_nil {combined : Frame} :
    (combineSources p combined).rows = [] ↔ combined.rows = [] := by
  constructor
  · intro hnil
    rw [List.eq_nil_iff_forall_not_mem]
    intro r hr
    unfold combineSources at hnil
    have hunique := (stableSort_perm _ _).symm.trans (List.Perm.of_eq hnil)
    have hsorted := (stableSort_perm (fun r => sortKey ["date", "security_id", "adjustment"] r
      ++ [(Cell.int (assignSourceRank p combined r)).rank]) combined.rows).mem_iff.mpr hr
    have hkey := mem_map_keepFirst.mpr
      (List.mem_map_of_mem (f := rowKey ["date", "security_id", "adjustment"]) hsorted)
    rw [hunique.eq_nil] at hkey
    cases hkey
  · intro hnil
    rw [List.eq_nil_iff_forall_not_mem]
    intro r hr
    have hmem := mem_combineSources hr
    rw [hnil] at hmem
    cases hmem

private theorem concatAll_eq_nil {dfs : List Frame} :
    (concatAll p dfs).rows = [] ↔ ∀ df ∈ dfs, df.rows = [] := by
  induction dfs using concatAll.induct p with
  | case1 => simp [concatAll]
  | case2 df => simp [concatAll]
  | case3 df df' dfs ih =>
    rw [concatAll, ih]
    simp [concat, and_assoc]

private theorem materialize_eq_nil {reads : Reads} {st : Store} {cache : String → List String}
    {security : Row} {updatedAt : Int} {baostock akshare : List Frame} {df : Frame}
    (hbaostock : sourceFrames p reads st cache (cleanString p (security "baostock_code"))
      baostockDailySources (mapBaostockDaily security updatedAt) = .ok baostock)
    (hakshare : sourceFrames p reads st cache (cleanString p (security "akshare_code"))
      akshareDailySources (mapAkshareDaily p security updatedAt) = .ok akshare)
    (hdf : materializeSecurityDailyBar p reads st cache security updatedAt = .ok df) :
    df.rows = [] ↔ ∀ frame ∈ baostock ++ akshare, frame.rows = [] := by
  have hfilter : (∀ frame ∈ (baostock ++ akshare).filter fun df => df.rows ≠ [], frame.rows = []) ↔
      ∀ frame ∈ baostock ++ akshare, frame.rows = [] := by
    constructor
    · intro hall frame hframe
      by_contra hne
      exact hne (hall frame (List.mem_filter.mpr ⟨hframe, by simpa using hne⟩))
    · exact fun hall frame hframe => hall frame (List.mem_filter.mp hframe).1
  unfold materializeSecurityDailyBar at hdf
  simp only [hbaostock, hakshare, Bind.bind, Except.bind] at hdf
  rw [← hfilter]
  split at hdf
  case h_1 hnil =>
    obtain rfl := Except.ok.inj hdf
    rw [hnil]
    exact ⟨fun _ frame hframe => (by cases hframe), fun _ => rfl⟩
  case h_2 =>
    obtain rfl := Except.ok.inj hdf
    rw [combineSources_eq_nil, concatAll_eq_nil]

private theorem sourceFrames_agree {reads reads' : Reads} {st : Store}
    {cache cache' : String → List String}
    {code : String} {sources : List (String × String)} {map map' : Frame → String → String → Frame}
    (hcode : ∀ source ∈ sources, ByCode source.1) (hstrip : strip code = code)
    (hlisted : ∀ source ∈ sources, (st.files source.1 code).isSome = true →
      code ∈ cache source.1 ∧ code ∈ cache' source.1)
    (hmap : ∀ df dataset adjustment, (map df dataset adjustment).rows = [] →
      (map' df dataset adjustment).rows = [])
    {frames frames' : List Frame} (h : sourceFrames p reads st cache code sources map = .ok frames)
    (h' : sourceFrames p reads' st cache' code sources map' = .ok frames')
    (hempty : ∀ frame ∈ frames, frame.rows = []) : ∀ frame ∈ frames', frame.rows = [] := by
  unfold sourceFrames at h h'
  by_cases heq : code = ""
  · rw [if_pos heq] at h'
    obtain rfl := Except.ok.inj h'
    exact fun frame hframe => by cases hframe
  · rw [if_neg heq] at h h'
    induction sources generalizing frames frames' with
    | nil =>
      obtain rfl : [] = frames' := Except.ok.inj h'
      exact fun frame hframe => by cases hframe
    | cons source sources ih =>
      rw [List.mapM_cons] at h h'
      obtain ⟨first, hfirst, hrest⟩ := bind_eq_ok.mp h
      obtain ⟨rest, hall, hout⟩ := bind_eq_ok.mp hrest
      obtain ⟨first', hfirst', hrest'⟩ := bind_eq_ok.mp h'
      obtain ⟨rest', hall', hout'⟩ := bind_eq_ok.mp hrest'
      obtain rfl : first :: rest = frames := Except.ok.inj hout
      obtain rfl : first' :: rest' = frames' := Except.ok.inj hout'
      obtain ⟨df, hdf, hmapped⟩ := bind_eq_ok.mp hfirst
      obtain ⟨df', hdf', hmapped'⟩ := bind_eq_ok.mp hfirst'
      obtain rfl := Except.ok.inj hmapped
      obtain rfl := Except.ok.inj hmapped'
      obtain rfl := readCached_agree (hcode _ List.mem_cons_self) hstrip
        (hlisted _ List.mem_cons_self) hdf hdf'
      intro frame hframe
      rcases List.mem_cons.mp hframe with rfl | hmem
      · exact hmap _ _ _ (hempty _ List.mem_cons_self)
      · exact ih (fun s hs => hcode s (List.mem_cons_of_mem _ hs))
          (fun s hs => hlisted s (List.mem_cons_of_mem _ hs)) hall hall'
          (fun frame hframe => hempty frame (List.mem_cons_of_mem _ hframe)) frame hmem

private theorem sourceFrames_congr {reads : Reads} {st st' : Store} {cache : String → List String}
    {code : String} {sources : List (String × String)} {map : Frame → String → String → Frame}
    (hcode : ∀ source ∈ sources, ByCode source.1)
    (hsame : ∀ source ∈ sources, st'.files source.1 = st.files source.1) :
    sourceFrames p reads st' cache code sources map =
      sourceFrames p reads st cache code sources map := by
  unfold sourceFrames
  by_cases heq : code = ""
  · rw [if_pos heq, if_pos heq]
  · rw [if_neg heq, if_neg heq]
    induction sources with
    | nil => rfl
    | cons source sources ih =>
      rw [List.mapM_cons, List.mapM_cons, ih (fun s hs => hcode s (List.mem_cons_of_mem _ hs))
        (fun s hs => hsame s (List.mem_cons_of_mem _ hs)),
        readCached_congr (hcode _ List.mem_cons_self) (hsame _ List.mem_cons_self)]

private theorem byCode_daily {field : SourceField} (h : field ∈ dailySourceFields) :
    ByCode field.1 := by
  obtain ⟨d, hd, -, hcolumn⟩ := dailySource_definition (List.mem_map_of_mem h)
  exact ⟨d, hd, hcolumn⟩

private theorem baostock_field {source : String × String} (h : source ∈ baostockDailySources) :
    (source.1, "baostock_code") ∈ dailySourceFields :=
  List.mem_append_left _ (List.mem_map_of_mem h)

private theorem akshare_field {source : String × String} (h : source ∈ akshareDailySources) :
    (source.1, "akshare_code") ∈ dailySourceFields :=
  List.mem_append_right _ (List.mem_map_of_mem h)

private theorem byCode_baostock {source : String × String} (h : source ∈ baostockDailySources) :
    ByCode source.1 :=
  @byCode_daily (source.1, "baostock_code") (baostock_field h)

private theorem byCode_akshare {source : String × String} (h : source ∈ akshareDailySources) :
    ByCode source.1 :=
  @byCode_daily (source.1, "akshare_code") (akshare_field h)

private theorem filterMaster_present {reads : Reads} {st : Store} {master : List Row}
    {security : Row}
    (hlists : Lists dailyBarDataset reads st) (hmem : security ∈ master)
    (hsource : ∃ field ∈ dailySourceFields, HasSource p st security field) :
    security ∈ filterMasterToDailySourceCandidates p reads.partitions master := by
  obtain ⟨field, hfield, hcode, hsome⟩ := hsource
  have hlisted := hlists field hfield _ hsome
  refine List.mem_filter.mpr ⟨hmem, ?_⟩
  rcases List.mem_append.mp hfield with hfield | hfield
  · obtain ⟨source, hsource, rfl⟩ := List.mem_map.mp hfield
    simp only [Bool.or_eq_true, Bool.and_eq_true, List.any_eq_true]
    exact Or.inl ⟨by simpa using hcode, source, hsource, decide_eq_true hlisted⟩
  · obtain ⟨source, hsource, rfl⟩ := List.mem_map.mp hfield
    simp only [Bool.or_eq_true, Bool.and_eq_true, List.any_eq_true]
    exact Or.inr ⟨by simpa using hcode, source, hsource, decide_eq_true hlisted⟩

theorem dailyBar_lawful : dailyBarDataset.Lawful p where
  definition := rfl
  partitioned := rfl
  sources field hfield := byCode_daily hfield
  congr reads st st' security updatedAt hsame := by
    unfold dailyBarDataset materializeSecurityDailyBar
    simp only
    have hbaostock : ∀ source ∈ baostockDailySources, ByCode source.1 ∧
        st'.files source.1 = st.files source.1 := fun source hs =>
      ⟨byCode_baostock hs, hsame (source.1, "baostock_code") (baostock_field hs)⟩
    have hakshare : ∀ source ∈ akshareDailySources, ByCode source.1 ∧
        st'.files source.1 = st.files source.1 := fun source hs =>
      ⟨byCode_akshare hs, hsame (source.1, "akshare_code") (akshare_field hs)⟩
    rw [sourceFrames_congr (fun source hs => (hbaostock source hs).1)
      fun source hs => (hbaostock source hs).2]
    rw [sourceFrames_congr (fun source hs => (hakshare source hs).1)
      fun source hs => (hakshare source hs).2]
  source {reads st security updatedAt df} hdf hrows := by
    obtain ⟨bar, hbar⟩ := List.exists_mem_of_ne_nil _ hrows
    obtain ⟨field, hread⟩ := materialize_rows hdf hbar
    exact ⟨field, hread.1, hread.2.1, hread.file.2⟩
  rows {reads reads' st security updatedAt updatedAt' df df'} hlists hlists' hdf hdf' hempty := by
    obtain ⟨baostock, hbaostock, hrest⟩ := bind_eq_ok.mp hdf
    obtain ⟨akshare, hakshare, hout⟩ := bind_eq_ok.mp hrest
    obtain ⟨baostock', hbaostock', hrest'⟩ := bind_eq_ok.mp hdf'
    obtain ⟨akshare', hakshare', hout'⟩ := bind_eq_ok.mp hrest'
    rw [materialize_eq_nil hbaostock hakshare hdf] at hempty
    rw [materialize_eq_nil hbaostock' hakshare' hdf']
    intro frame hframe
    rcases List.mem_append.mp hframe with hmem | hmem
    · refine sourceFrames_agree (fun _ => byCode_baostock)
        (strip_cleanString p _) (fun source hs hsome => ⟨hlists _ (baostock_field hs) _ hsome,
          hlists' _ (baostock_field hs) _ hsome⟩) (fun df dataset adjustment hnil => ?_) hbaostock
        hbaostock' (fun frame hframe => hempty frame (List.mem_append_left _ hframe)) frame hmem
      exact List.map_eq_nil_iff.mpr (List.map_eq_nil_iff.mp hnil)
    · refine sourceFrames_agree (fun _ => byCode_akshare)
        (strip_cleanString p _) (fun source hs hsome => ⟨hlists _ (akshare_field hs) _ hsome,
          hlists' _ (akshare_field hs) _ hsome⟩) (fun df dataset adjustment hnil => ?_) hakshare
        hakshare' (fun frame hframe => hempty frame (List.mem_append_right _ hframe)) frame hmem
      exact List.map_eq_nil_iff.mpr (List.map_eq_nil_iff.mp hnil)
  candidates_sublist _ _ := List.filter_sublist
  candidates := filterMaster_present

end DailyBars

/-! Valuations -/

section Valuations

variable {p : Pandas}

private theorem byCode_valuation {field : SourceField} (h : field ∈ valuationDataset.fields) :
    ByCode field.1 := by
  simp only [valuationDataset, List.mem_cons, List.not_mem_nil, or_false] at h
  rcases h with rfl | rfl
  · exact ⟨_, rfl, rfl⟩
  · exact ⟨_, rfl, rfl⟩

private theorem akshareValuation_field : akshareValuationField ∈ valuationDataset.fields :=
  List.mem_cons_self

private theorem baostockPercentile_field : baostockPercentileField ∈ valuationDataset.fields :=
  List.mem_cons_of_mem _ List.mem_cons_self

private theorem valuationSource_congr {reads : Reads} {st st' : Store} {datasetId code : String}
    (hcode : ByCode datasetId) (hsame : st'.files datasetId = st.files datasetId) :
    valuationSource p reads st' datasetId code = valuationSource p reads st datasetId code := by
  simp only [valuationSource, readPartitionOrEmpty, readCached_congr hcode hsame]

private theorem valuationSource_agree {reads reads' : Reads} {st : Store} {datasetId code : String}
    (hcode : ByCode datasetId) (hstrip : strip code = code)
    (hlisted : (st.files datasetId code).isSome = true →
      code ∈ reads.partitions datasetId ∧ code ∈ reads'.partitions datasetId) {df df' : Frame}
    (h : valuationSource p reads st datasetId code = .ok df)
    (h' : valuationSource p reads' st datasetId code = .ok df') : df = df' := by
  unfold valuationSource at h h'
  by_cases heq : code = ""
  · rw [if_pos heq] at h h'
    exact (Except.ok.inj h).symm.trans (Except.ok.inj h')
  · rw [if_neg heq] at h h'
    exact readCached_agree hcode hstrip hlisted h h'

private theorem file_of_valuationSource {reads : Reads} {st : Store} {datasetId code : String}
    (hcode : ByCode datasetId) (hstrip : strip code = code) {df : Frame}
    (h : valuationSource p reads st datasetId code = .ok df) (hrows : df.rows ≠ []) :
    code ≠ "" ∧ (st.files datasetId code).isSome = true := by
  unfold valuationSource at h
  by_cases heq : code = ""
  · rw [if_pos heq] at h
    obtain rfl := Except.ok.inj h
    exact absurd rfl hrows
  · rw [if_neg heq] at h
    exact ⟨heq, file_of_readCached hcode hstrip h hrows⟩

private theorem valuationFrame_rows (rows : List Row) : (valuationFrame rows).rows = rows := by
  cases rows <;> rfl

theorem valuation_lawful : valuationDataset.Lawful p where
  definition := rfl
  partitioned := rfl
  sources _ hfield := byCode_valuation hfield
  congr reads st st' security updatedAt hsame := by
    unfold valuationDataset materializeSecurityValuation
    simp only
    have hakshare : ∀ code, valuationSource p reads st' akshareValuationDataset code =
        valuationSource p reads st akshareValuationDataset code := fun _ =>
      valuationSource_congr (byCode_valuation akshareValuation_field)
        (hsame _ akshareValuation_field)
    have hbaostock : ∀ code, valuationSource p reads st' baostockPercentileDataset code =
        valuationSource p reads st baostockPercentileDataset code := fun _ =>
      valuationSource_congr (byCode_valuation baostockPercentile_field)
        (hsame _ baostockPercentile_field)
    rw [hakshare, hbaostock]
  source {reads st security updatedAt df} hdf hrows := by
    obtain ⟨akshare, hakshare, hrest⟩ := bind_eq_ok.mp hdf
    obtain ⟨baostock, hbaostock, hout⟩ := bind_eq_ok.mp hrest
    by_cases hnil : akshare.rows = []
    · by_cases hnil' : baostock.rows = []
      · rw [if_pos ⟨hnil, hnil'⟩] at hout
        obtain rfl := Except.ok.inj hout
        exact absurd rfl hrows
      · exact ⟨baostockPercentileField, baostockPercentile_field, file_of_valuationSource
          (byCode_valuation baostockPercentile_field) (strip_cleanString p _) hbaostock hnil'⟩
    · exact ⟨akshareValuationField, akshareValuation_field, file_of_valuationSource
        (byCode_valuation akshareValuation_field) (strip_cleanString p _) hakshare hnil⟩
  rows {reads reads' st security updatedAt updatedAt' df df'} hlists hlists' hdf hdf' hempty := by
    obtain ⟨akshare, hakshare, hrest⟩ := bind_eq_ok.mp hdf
    obtain ⟨baostock, hbaostock, hout⟩ := bind_eq_ok.mp hrest
    obtain ⟨akshare', hakshare', hrest'⟩ := bind_eq_ok.mp hdf'
    obtain ⟨baostock', hbaostock', hout'⟩ := bind_eq_ok.mp hrest'
    obtain rfl := valuationSource_agree (byCode_valuation akshareValuation_field)
      (strip_cleanString p _) (fun hsome => ⟨hlists _ akshareValuation_field _ hsome,
        hlists' _ akshareValuation_field _ hsome⟩) hakshare hakshare'
    obtain rfl := valuationSource_agree (byCode_valuation baostockPercentile_field)
      (strip_cleanString p _) (fun hsome => ⟨hlists _ baostockPercentile_field _ hsome,
        hlists' _ baostockPercentile_field _ hsome⟩) hbaostock hbaostock'
    by_cases hnil : akshare.rows = [] ∧ baostock.rows = []
    · rw [if_pos hnil] at hout'
      obtain rfl := Except.ok.inj hout'
      rfl
    · rw [if_neg hnil] at hout hout'
      obtain rfl := Except.ok.inj hout
      obtain rfl := Except.ok.inj hout'
      rw [valuationFrame_rows, List.map_eq_nil_iff] at hempty ⊢
      exact hempty
  candidates_sublist _ master := List.Sublist.refl master
  candidates _ hmem _ := hmem

end Valuations

end QuantDataCenter.Derived
