import QuantDataCenter.Derived.BuildCalls

/-!
A second incremental call: whether it builds the master again or not, the datasets the first call
built stay as they are. A master that is built again differs in its timestamps only.
-/

set_option autoImplicit false
set_option relaxedAutoImplicit false

namespace QuantDataCenter.Derived

open QuantDataCenter.Lib QuantDataCenter.Lib.Checked QuantDataCenter.Tabular QuantDataCenter.Storage

/-- The same row of the master but for the time it was written. -/
def Restamped (security security' : Row) : Prop :=
  ∀ column ≠ "updated_at", security column = security' column

/-! What is read of a row of the master -/

section Restamping

variable {p : Pandas} {h : Hashing} {t : CanonicalDataset} {security security' : Row} {st : Store}

theorem Restamped.securityIdOfRow (same : Restamped security security') :
    Derived.securityIdOfRow p security = Derived.securityIdOfRow p security' := by
  unfold Derived.securityIdOfRow
  rw [same "security_id" (by decide)]

theorem Restamped.masterRowHash (same : Restamped security security') :
    Storage.masterRowHash h security = Storage.masterRowHash h security' := by
  have hcells : Quality.rowKey masterHashColumns security = Quality.rowKey masterHashColumns security' := by
    refine List.map_congr_left fun column hcolumn => same column ?_
    rintro rfl
    exact absurd hcolumn (by decide)
  unfold Storage.masterRowHash
  rw [hcells]

private theorem Restamped.sourcePairs (same : Restamped security security')
    {fields : List SourceField}
    (hfields : ∀ field ∈ fields, field.2 ≠ "updated_at") :
    sourcePartitionPairsForSecurity p st security fields =
      sourcePartitionPairsForSecurity p st security' fields := by
  induction fields with
  | nil => rfl
  | cons field fields ih =>
    unfold sourcePartitionPairsForSecurity
    rw [same field.2 (hfields field List.mem_cons_self),
      ih fun field' hmem => hfields field' (List.mem_cons_of_mem _ hmem)]

private theorem Restamped.securityColumn (same : Restamped security security') {column : String}
    (hcolumn : column ∈ securityColumns) : security column = security' column := by
  refine same column ?_
  rintro rfl
  exact absurd hcolumn (by decide)

theorem Restamped.mappedDtype (same : Restamped security security') (df : Frame)
    (copied : List String) :
    Derived.mappedDtype security df copied = Derived.mappedDtype security' df copied := by
  funext column
  unfold Derived.mappedDtype
  by_cases hcolumn : column ∈ securityColumns
  · rw [same.securityColumn hcolumn]
  · simp only [if_neg hcolumn]

theorem Restamped.mapBaostockDaily (same : Restamped security security') (updatedAt : Int) :
    Derived.mapBaostockDaily security updatedAt = Derived.mapBaostockDaily security' updatedAt := by
  funext df datasetId adjustment
  unfold Derived.mapBaostockDaily
  have hrow : mapBaostockRow security updatedAt df datasetId adjustment =
      mapBaostockRow security' updatedAt df datasetId adjustment := by
    funext r column
    unfold mapBaostockRow
    by_cases hcolumn : column ∈ securityColumns
    · rw [same.securityColumn hcolumn]
    · simp only [if_neg hcolumn]
  rw [hrow, same.mappedDtype]

theorem Restamped.mapAkshareDaily (same : Restamped security security') (updatedAt : Int) :
    Derived.mapAkshareDaily p security updatedAt = Derived.mapAkshareDaily p security' updatedAt := by
  funext df datasetId adjustment
  unfold Derived.mapAkshareDaily
  have hrow : mapAkshareRow p security updatedAt df datasetId adjustment =
      mapAkshareRow p security' updatedAt df datasetId adjustment := by
    funext r column
    unfold mapAkshareRow
    by_cases hcolumn : column ∈ securityColumns
    · rw [same.securityColumn hcolumn]
    · simp only [if_neg hcolumn]
  rw [hrow, same.mappedDtype]

theorem Restamped.valuationRow (same : Restamped security security') (day : Int)
    (akshare baostock : Option Row) (updatedAt : Int) :
    Derived.valuationRow day security akshare baostock updatedAt =
      Derived.valuationRow day security' akshare baostock updatedAt := by
  unfold Derived.valuationRow
  rw [same "security_id" (by decide), same "code" (by decide), same "exchange" (by decide),
    same "name" (by decide)]

/-- The frame of a security and the fields of its sources do not depend on the time its row of the
master was written. -/
private theorem restamped_materialize {target : BuildTarget} (ht : target.dataset = some t)
    (same : Restamped security security') (reads : Reads) (updatedAt : Int) :
    t.materialize p reads st security updatedAt = t.materialize p reads st security' updatedAt := by
  obtain ⟨-, rfl⟩ | ⟨-, rfl⟩ := dataset_cases ht
  · unfold dailyBarDataset materializeSecurityDailyBar
    simp only
    rw [same "baostock_code" (by decide), same "akshare_code" (by decide), same.mapBaostockDaily,
      same.mapAkshareDaily]
  · unfold valuationDataset materializeSecurityValuation
    simp only
    rw [same "baostock_code" (by decide), same "akshare_code" (by decide)]
    simp only [same.valuationRow]

private theorem restamped_fields {target : BuildTarget} (ht : target.dataset = some t) :
    ∀ field ∈ t.fields, field.2 ≠ "updated_at" := by
  obtain ⟨-, rfl⟩ | ⟨-, rfl⟩ := dataset_cases ht
  · decide
  · decide

private theorem Done.restamped {target : BuildTarget} (ht : target.dataset = some t)
    (same : Restamped security security') (hdone : Done p h t st security) :
    Done p h t st security' := by
  intro pairs hpairs
  rw [← same.sourcePairs (restamped_fields ht)] at hpairs
  rcases hdone pairs hpairs with hcurrent | hbarren
  · left
    cases hcurrent with
    | absent hnil hfile => exact .absent hnil (by rw [← same.securityIdOfRow]; exact hfile)
    | signed hne hfile entries row hentries hrow hsignature hsigned hmaster =>
      rw [same.masterRowHash] at hsignature hmaster
      rw [same.securityIdOfRow] at hfile hrow
      exact .signed hne hfile entries row hentries hrow hsignature hsigned hmaster
  · right
    refine ⟨hbarren.pairs_ne, ?_, ?_, fun reads updatedAt df hlists hdf => ?_⟩
    · rw [← same.securityIdOfRow]
      exact hbarren.file
    · rw [← same.securityIdOfRow]
      exact hbarren.row
    · rw [← restamped_materialize ht same] at hdf
      exact hbarren.empty reads updatedAt df hlists hdf

end Restamping

/-! The master built again -/

section Again

variable {p : Pandas} {h : Hashing} {st st1 st' st'' : Store} {inputs : MasterInputs}
  {rows rows' : List Row}

private theorem MasterBuilt.restamped {updatedAt updatedAt' : Int}
    (hbuilt : MasterBuilt p inputs updatedAt rows st st1)
    (hagain : MasterBuilt p inputs updatedAt' rows' st' st'') {security' : Row}
    (hmem : security' ∈ rows') : ∃ security ∈ rows, Restamped security security' := by
  obtain ⟨record, hrecord, rfl⟩ := List.mem_map.mp (hagain.records.mem_iff.mp hmem)
  refine ⟨_, hbuilt.records.mem_iff.mpr (List.mem_map_of_mem hrecord), fun column hne => ?_⟩
  exact finalizeRecord_of_ne hne _

private theorem masterInputs_congr {reads : Reads}
    (hfiles : ∀ dataset ≠ cnStockDailyBarDataset.id, dataset ≠ cnStockValuationDataset.id →
      st'.files dataset = st.files dataset) :
    masterInputs p reads st' = masterInputs p reads st := by
  have hread : ∀ (d : DatasetDefinition) (value : String), d.id ≠ cnStockDailyBarDataset.id →
      d.id ≠ cnStockValuationDataset.id →
        readPartition p reads st' d value = readPartition p reads st d value := by
    intro d value hbars hvaluations
    simp only [readPartition, readDataset, hfiles d.id hbars hvaluations]
  have hlatest : ∀ d : DatasetDefinition, d.id ≠ cnStockDailyBarDataset.id →
      d.id ≠ cnStockValuationDataset.id →
        readLatestDataset p reads st' d = readLatestDataset p reads st d := by
    intro d hbars hvaluations
    simp only [readLatestDataset, hread d _ hbars hvaluations]
  unfold masterInputs localQlibSymbols
  rw [hlatest _ (by decide) (by decide), hlatest akshareSpotQuoteEastmoneyDataset (by decide)
    (by decide), hlatest akshareSpotQuoteSinaDataset (by decide) (by decide),
    hlatest akshareDelistShDataset (by decide) (by decide),
    hlatest akshareDelistSzDataset (by decide) (by decide),
    hread baostockCnStockBasicDataset _ (by decide) (by decide)]

/-- An incremental call after another call, over datasets that call built, leaves every dataset but
the master as it is, and that too when it does not build it again. -/
theorem second_build_unchanged (hex : HexDigests h) {first again : BuildCall}
    {expanded targets : List BuildTarget} (hexpanded : expandedTargets first = .ok expanded)
    (hids : normalizeSecurityIds p first.securityIds = []) (hstart : Startable p first expanded st)
    (hfirst : buildDerivedDatasets p h first st = (.ok (), st'))
    (htargets : expandedTargets again = .ok targets) (hsub : targets ⊆ expanded)
    (hmode : again.mode = "incremental") (hagain : normalizeSecurityIds p again.securityIds = [])
    (hsince : ∀ pairs, again.updatedSince pairs = false) (hlists : CallLists again st')
    (hpartitions : ∀ dataset ≠ cnSecurityMasterDataset.id,
      (again.env .securityMaster).reads.partitions dataset =
        (first.env .securityMaster).reads.partitions dataset)
    (hsecond : buildDerivedDatasets p h again st' = (.ok (), st'')) :
    (∀ dataset ≠ cnSecurityMasterDataset.id, st''.files dataset = st'.files dataset ∧
        st''.manifest dataset = st'.manifest dataset) ∧
      (.securityMaster ∉ targets → st'' = st') := by
  obtain ⟨st1, hrun⟩ := buildDerivedDatasets_run hex hexpanded hids hstart hfirst
  obtain ⟨-, hloop⟩ := buildDerivedDatasets_spec htargets hagain hsecond
  obtain ⟨canonical, -, hmaster, hcases⟩ := expandedTargets_cases htargets
  rcases hcases with rfl | rfl
  · have hsame : st'' = st' := runTargets_idle hmaster (List.Subset.refl _) hmode hsince
      ⟨hrun.ready.staging, hrun.ready.stored, hlists⟩ (fun target hmem => hrun.done target (hsub hmem))
      (fun made hmem => by cases hmem) hloop
    rw [hsame]
    exact ⟨fun _ _ => ⟨rfl, rfl⟩, fun _ => rfl⟩
  · obtain ⟨inputs', rows', st2, hinputs', hbuilt', hrest⟩ := runTargets_master hloop
    have hfirstMaster := hrun.master
    rw [if_pos (hsub List.mem_cons_self)] at hfirstMaster
    obtain ⟨inputs, hinputs, hbuilt⟩ := hfirstMaster
    rw [masterInputs_congr hrun.files] at hinputs'
    obtain rfl : inputs = inputs' :=
      masterInputs_agree ⟨hpartitions, hbuilt.files⟩ hinputs hinputs'
    have hnamed : namedSecurities p inputs ≠ [] := hstart.named (hsub List.mem_cons_self) inputs hinputs
    have hready : Ready p again rows' st2 := hbuilt'.ready hrun.ready.staging hlists hnamed
    have hdone : ∀ target ∈ BuildTarget.securityMaster :: canonical, ∀ t, target.dataset = some t →
        AllDone p h t rows' st2 := by
      intro target hmem t ht security' hsecurity' hne
      obtain ⟨security, hsecurity, same⟩ := hbuilt.restamped hbuilt' hsecurity'
      have hold := (hrun.done target (hsub hmem) t ht).keeps (lawful_of_dataset ht) hbuilt'.keeps
        (fun field hfield _ htouched => source_ne_master ht field hfield htouched)
        fun _ htouched => dataset_ne_master ht htouched
      rw [← same.securityIdOfRow] at hne
      exact (hold security hsecurity hne).restamped ht same
    have hsame : st'' = st2 := runTargets_idle hmaster (List.subset_cons_self _ _) hmode hsince hready
      hdone (fun made hmem => by cases hmem) hrest
    rw [hsame]
    exact ⟨fun dataset hne => ⟨hbuilt'.files dataset hne, hbuilt'.manifest dataset hne⟩,
      fun hnot => absurd List.mem_cons_self hnot⟩

end Again

/-! The call once more, a nanosecond later -/

private theorem secondCall_returns : (buildDerivedDatasets printing hexDigits (incrementalCall 1)
    (buildDerivedDatasets printing hexDigits (incrementalCall 0) basicAndSources).2).1.toOption =
      some () := by
  decide +kernel

theorem second_build_unchanged_basic :
    let st' := (buildDerivedDatasets printing hexDigits (incrementalCall 0) basicAndSources).2
    let st'' := (buildDerivedDatasets printing hexDigits (incrementalCall 1) st').2
    (∀ dataset ≠ cnSecurityMasterDataset.id, st''.files dataset = st'.files dataset ∧
        st''.manifest dataset = st'.manifest dataset) ∧
      (.securityMaster ∉ targetOrder → st'' = st') := by
  have hfirst : buildDerivedDatasets printing hexDigits (incrementalCall 0) basicAndSources =
      (.ok (), (buildDerivedDatasets printing hexDigits (incrementalCall 0) basicAndSources).2) :=
    Prod.ext (eq_ok_of_toOption incrementalCall_returns) rfl
  obtain ⟨st1, hrun⟩ :=
    buildDerivedDatasets_run hexDigests_hexDigits rfl rfl startable_basicAndSources hfirst
  exact @second_build_unchanged printing hexDigits basicAndSources _ _ hexDigests_hexDigits
    (incrementalCall 0) (incrementalCall 1) targetOrder targetOrder rfl rfl
    startable_basicAndSources hfirst rfl (List.Subset.refl _) rfl rfl (fun _ => rfl)
    hrun.ready.lists (fun _ _ => rfl) (Prod.ext (eq_ok_of_toOption secondCall_returns) rfl)

end QuantDataCenter.Derived
