import QuantDataCenter.Derived.Commit
import QuantDataCenter.Storage.Ledger

/-!
How a derived build puts its partitions into the store: they are written through a
staging store, the staged directory is swapped in, and only then the ledger is
brought up to date. The ledger steps of `sources/derived/manifest.py`.
-/

set_option autoImplicit false
set_option relaxedAutoImplicit false

namespace QuantDataCenter.Derived

open QuantDataCenter.Lib.Checked QuantDataCenter.Lib.Interrupt QuantDataCenter.Tabular
open QuantDataCenter.Storage QuantDataCenter.Derived.Commit

/-- One security of a build: its materialized rows and what the ledger is told of their origin. -/
structure StagedPartition where
  securityId : String
  df : Frame
  sourceSignature : String
  masterRowHash : String

/-- The store under `.staging`: no files, and no ledger. -/
def stagingStore : Store := { Store.empty with staging := true }

section Steps

variable (p : Pandas) (h : Hashing)

/-- `{"security_id": security_id}`. -/
def securityPartition (securityId : String) : Partition :=
  some [("security_id", .text securityId)]

/-- `write_store.write_dataset(..., mode="replace")` for each security. -/
def stagePartitions (envs : ℕ → WriteEnv) (dataset : String) :
    ℕ → List StagedPartition → Store → Except StoreError Unit × Store
  | _, [], st => (.ok (), st)
  | k, s :: staged, st =>
    match writeDataset p h (envs k) dataset s.df (securityPartition s.securityId) (some .replace)
      false st with
    | (.error e, st') => (.error e, st')
    | (.ok _, st') => stagePartitions envs dataset (k + 1) staged st'

/-- `upsert_derived_partition_manifest` for each security. -/
def recordPartitions (envs : ℕ → WriteEnv) (definition : DatasetDefinition) :
    ℕ → List StagedPartition → Store → Except StoreError Unit × Store
  | _, [], st => (.ok (), st)
  | k, s :: staged, st =>
    match upsertWrittenDatasetPartitionManifest p h (envs k) ((envs k).io 0) definition s.df
      (securityPartition s.securityId) s.sourceSignature s.masterRowHash st with
    | (.error e, st') => (.error e, st')
    | (.ok (), st') => recordPartitions envs definition (k + 1) staged st'

/-- `cleanup_stale_derived_manifests`, as far as the loop gets. -/
def cleanupStaleDerivedManifests (definition : DatasetDefinition) (reached : String → Bool)
    (st : Store) : Store :=
  st.deleteManifest definition fun v => (st.files definition.id v).isNone && reached v

/-- The area of a commit, with a token in place of the old and of the staged directory. -/
def areaOf (existed : Bool) : Swap Bool :=
  ⟨if existed then some {false} else none, none, some {true}, false⟩

/-- What stands in the final place: nothing, the old or the staged content. -/
def inPlace {α : Type*} (final_dir : Option (Finset Bool)) (gone old staged : α) : α :=
  match final_dir with
  | none => gone
  | some dir => if true ∈ dir then staged else old

/-- A full build from the point where its frames are computed. -/
structure DatasetPublication where
  dataset : String
  staged : List StagedPartition
  distinct : (staged.map StagedPartition.securityId).Nodup
  clean : ∀ s ∈ staged, strip s.securityId = s.securityId
  stagingEnvs : ℕ → WriteEnv
  ledgerEnvs : ℕ → WriteEnv
  existed : Bool
  outcomes : Outcomes Bool
  /-- The stale rows the cleanup gets to when it is cut. -/
  cleanupCut : Option (String → Bool)

def publishDataset (c : DatasetPublication) (st : Store) : Except StoreError Unit × Store :=
  match datasetDefinition c.dataset with
  | .error e => (.error e, st)
  | .ok definition =>
    match stagePartitions p h c.stagingEnvs c.dataset 0 c.staged stagingStore with
    | (.error e, _) => (.error e, st)
    | (.ok (), area) =>
      let out := commit_derived_dataset_staging (definition.source == .derived) c.outcomes
        (areaOf c.existed)
      let swapped := st.setDataset definition.id fun value =>
        inPlace out.2.final_dir none (st.files definition.id value)
          (area.files definition.id value)
      match out.1 with
      | some _ => (.error .other, swapped)
      | none =>
        match recordPartitions p h c.ledgerEnvs definition 0 c.staged swapped with
        | (.error e, st') => (.error e, st')
        | (.ok (), st') =>
          match c.cleanupCut with
          | some reached => (.error .other, cleanupStaleDerivedManifests definition reached st')
          | none => (.ok (), cleanupStaleDerivedManifests definition (fun _ => true) st')

/-- The rebuild of one partition of a derived dataset, or its removal when the
security has no rows left. -/
structure PartitionPublication where
  dataset : String
  partition : StagedPartition
  clean : strip partition.securityId = partition.securityId
  stagingEnv : WriteEnv
  ledgerEnv : WriteEnv
  outcomes : Outcomes Bool

def publishPartition (c : PartitionPublication) (st : Store) : Except StoreError Unit × Store :=
  match datasetDefinition c.dataset with
  | .error e => (.error e, st)
  | .ok definition =>
    let securityId := c.partition.securityId
    let old := st.files definition.id securityId
    let commit (delete_partition : Bool) (staged : Option (List Row)) :=
      let out := commit_derived_partition_staging (definition.source == .derived) c.outcomes
        delete_partition (areaOf old.isSome)
      (out.1, st.setDataset definition.id fun value =>
        if value = securityId then inPlace out.2.final_dir none old staged
        else st.files definition.id value)
    if c.partition.df.rows = [] then
      match commit true none with
      | (some _, st') => (.error .other, st')
      | (none, st') =>
        if (c.ledgerEnv.io 0).ledger then
          (.ok (), st'.deleteManifest definition fun value => value == securityId)
        else (.error .other, st')
    else match stagePartitions p h (fun _ => c.stagingEnv) c.dataset 0 [c.partition] stagingStore with
      | (.error e, _) => (.error e, st)
      | (.ok (), area) =>
        match commit false (area.files definition.id securityId) with
        | (some _, st') => (.error .other, st')
        | (none, st') => recordPartitions p h (fun _ => c.ledgerEnv) definition 0 [c.partition] st'

end Steps

/-! What the steps leave behind -/

section Spec

variable {p : Pandas} {h : Hashing} {d : DatasetDefinition}

/-- The rows of a security as they are prepared for its partition. -/
def Prepared (p : Pandas) (d : DatasetDefinition) (s : StagedPartition) (rows : List Row) : Prop :=
  partitionValue p d (securityPartition s.securityId) = .ok s.securityId ∧
    ∃ env frame, prepareDatasetFrame p env d s.df (securityPartition s.securityId) true =
      .ok frame ∧ rows = frame.rows

theorem Prepared.storedWell (wf : d.WellFormed) {s : StagedPartition} {rows : List Row}
    (hrows : Prepared p d s rows) : StoredWell p d s.securityId rows := by
  obtain ⟨hvalue, env, frame, hprepare, rfl⟩ := hrows
  obtain ⟨-, -, -, -, -, hwell⟩ := prepared_stored wf hvalue hprepare
  exact hwell

theorem Prepared.again (wf : d.WellFormed) {s : StagedPartition} {rows : List Row}
    (hrows : Prepared p d s rows) {env : WriteEnv} {cleaned : Frame}
    (hprepare : prepareDatasetFrame p env d s.df (securityPartition s.securityId) true =
      .ok cleaned) : cleaned.rows = rows := by
  obtain ⟨hvalue, env', frame, hprepare', rfl⟩ := hrows
  obtain ⟨coerced, hcoerced, -, hcleaned, -, -⟩ := prepared_stored wf hvalue hprepare
  obtain ⟨coerced', hcoerced', -, hframe, -, hwell⟩ := prepared_stored wf hvalue hprepare'
  rw [hcoerced] at hcoerced'
  obtain rfl := Except.ok.inj hcoerced'
  obtain ⟨dtype, hvalid⟩ := hwell.valid
  rw [hcleaned]
  exact (sortValues_again wf hframe hwell.settled hwell.inPartition hvalid env).2

theorem partitionValue_security {securityId value : String} (hclean : strip securityId = securityId)
    (hvalue : partitionValue p d (securityPartition securityId) = .ok value) :
    value = securityId := by
  unfold partitionValue securityPartition at hvalue
  cases hcolumn : d.partitionColumn with
  | none =>
    rw [hcolumn] at hvalue
    simp at hvalue
  | some column =>
    rw [hcolumn] at hvalue
    simp only at hvalue
    split at hvalue
    case isTrue heq =>
      rw [← heq] at hvalue
      simp only [normalizePartitionValue] at hvalue
      rw [if_neg (by simp)] at hvalue
      split at hvalue
      · cases hvalue
      · rw [← Except.ok.inj hvalue]
        exact hclean
    case isFalse => cases hvalue

theorem replace_written {env : WriteEnv} {dataset : String} {df : Frame} {partition : Partition}
    {st st' : Store} {result : DatasetWriteResult} (hd : datasetDefinition dataset = .ok d)
    (hout : writeDataset p h env dataset df partition (some .replace) false st =
      (.ok result, st')) :
    ∃ value frame, partitionValue p d partition = .ok value ∧
      prepareDatasetFrame p env d df partition true = .ok frame ∧
      Store.SameData (st.put p h d value frame.rows) st' := by
  have hreplace : writeDatasetReplace p h env d df partition false st = (.ok result, st') := by
    rw [← hout]
    simp only [writeDataset, hd, Option.getD_some, Bool.false_eq_true, false_and, if_false]
  rcases writeDatasetReplace_outcome p h env d df partition false st with
    ⟨e, -, herror⟩ | ⟨value, hvalue, hwrite⟩
  · rw [hreplace] at herror
    cases herror
  · rw [hreplace] at hwrite
    cases hwrite with
    | skipped hskip => cases hskip
    | stored frame hframe same =>
      refine ⟨value, frame, hvalue, ?_, same⟩
      obtain ⟨incoming, hprepare, hrest⟩ := bind_eq_ok.mp hframe
      rw [hprepare]
      exact hrest

theorem stagePartitions_files {envs : ℕ → WriteEnv} {dataset : String}
    (hd : datasetDefinition dataset = .ok d) (k : ℕ) {staged : List StagedPartition}
    (hdistinct : (staged.map StagedPartition.securityId).Nodup)
    (hclean : ∀ s ∈ staged, strip s.securityId = s.securityId) {st area : Store}
    (hout : stagePartitions p h envs dataset k staged st = (.ok (), area)) :
    (∀ s ∈ staged, ∃ rows, Prepared p d s rows ∧ area.files d.id s.securityId = some rows) ∧
      ∀ value ∉ staged.map StagedPartition.securityId,
        area.files d.id value = st.files d.id value := by
  induction staged generalizing k st with
  | nil =>
    obtain rfl : st = area := congrArg Prod.snd hout
    exact ⟨fun s hs => (by cases hs), fun _ _ => rfl⟩
  | cons s staged ih =>
    unfold stagePartitions at hout
    rcases hwrite : writeDataset p h (envs k) dataset s.df (securityPartition s.securityId)
      (some .replace) false st with ⟨res, st1⟩
    rw [hwrite] at hout
    cases res with
    | error e => cases hout
    | ok result =>
      obtain ⟨value, frame, hvalue, hprepare, same⟩ := replace_written hd hwrite
      obtain rfl : value = s.securityId :=
        partitionValue_security (hclean s List.mem_cons_self) hvalue
      rw [List.map_cons, List.nodup_cons] at hdistinct
      obtain ⟨hstaged, hother⟩ := ih (k + 1) hdistinct.2
        (fun s' hs' => hclean s' (List.mem_cons_of_mem _ hs')) hout
      have hfiles : st1.files = (st.setFile d.id s.securityId frame.rows).files := by
        rw [← same.files, Store.put_files]
      constructor
      · intro s' hs'
        rcases List.mem_cons.mp hs' with rfl | hmem
        · refine ⟨frame.rows, ⟨hvalue, envs k, frame, hprepare, rfl⟩, ?_⟩
          rw [hother _ hdistinct.1, hfiles]
          exact Store.setFile_files_self ..
        · exact hstaged s' hmem
      · intro value' hvalue'
        rw [List.map_cons, List.mem_cons, not_or] at hvalue'
        rw [hother value' hvalue'.2, hfiles]
        exact Store.setFile_files_of_ne st frame.rows fun heq => hvalue'.1 heq.2

private theorem recordPartitions_recorded {envs : ℕ → WriteEnv} (hd : d ∈ datasetCatalog) (k : ℕ)
    {staged : List StagedPartition} {st st' : Store} {res : Except StoreError Unit}
    (hstaging : st.staging = false)
    (hfiles : ∀ s ∈ staged, ∃ rows, Prepared p d s rows ∧ st.files d.id s.securityId = some rows)
    (hout : recordPartitions p h envs d k staged st = (res, st')) :
    Recorded p h st st' ∧ (res = .ok () → ∀ s ∈ staged, Agrees p h st' d s.securityId) := by
  have wf : d.WellFormed := wellFormed_of_mem hd
  induction staged generalizing k st with
  | nil =>
    obtain rfl : st = st' := congrArg Prod.snd hout
    exact ⟨.refl st, fun _ s hs => by cases hs⟩
  | cons s staged ih =>
    unfold recordPartitions at hout
    rcases hwrite : upsertWrittenDatasetPartitionManifest p h (envs k) ((envs k).io 0) d s.df
      (securityPartition s.securityId) s.sourceSignature s.masterRowHash st with ⟨res1, st1⟩
    rw [hwrite] at hout
    obtain ⟨rows, hrows, hfile⟩ := hfiles s List.mem_cons_self
    obtain ⟨hrecorded, hagrees⟩ := upsertWritten_recorded hd hstaging (by
      intro value rows' cleaned hvalue hfile' hprepare
      rw [hrows.1] at hvalue
      obtain rfl := Except.ok.inj hvalue
      rw [hfile] at hfile'
      rw [← Option.some.inj hfile']
      exact hrows.again wf hprepare) hwrite
    cases res1 with
    | error e =>
      obtain ⟨rfl, rfl⟩ := Prod.mk.inj hout
      exact ⟨hrecorded, fun hok => by cases hok⟩
    | ok u =>
      obtain ⟨hrest, hall⟩ := ih (k + 1) (hrecorded.staging.trans hstaging) (by
        intro s' hs'
        rw [hrecorded.files]
        exact hfiles s' (List.mem_cons_of_mem _ hs')) hout
      refine ⟨hrecorded.trans hrest, fun hok s' hs' => ?_⟩
      rcases List.mem_cons.mp hs' with rfl | hmem
      · rcases hrest.entries d hd s'.securityId with hlater | hsame
        · exact hlater
        · exact (hagrees rfl s'.securityId hrows.1).congr hsame
      · exact hall hok s' hmem

private theorem inPlace_cases {α : Type*} (final_dir : Option (Finset Bool)) (gone old staged : α) :
    inPlace final_dir gone old staged = gone ∨ inPlace final_dir gone old staged = old ∨
      inPlace final_dir gone old staged = staged := by
  unfold inPlace
  split
  · exact Or.inl rfl
  · split
    · exact Or.inr (Or.inr rfl)
    · exact Or.inr (Or.inl rfl)

private theorem staged_storedWell (wf : d.WellFormed) {staged : List StagedPartition} {area : Store}
    (hstaged : ∀ s ∈ staged, ∃ rows, Prepared p d s rows ∧
      area.files d.id s.securityId = some rows)
    (hother : ∀ value ∉ staged.map StagedPartition.securityId,
      area.files d.id value = stagingStore.files d.id value) {value : String} {rows : List Row}
    (hfile : area.files d.id value = some rows) : StoredWell p d value rows := by
  by_cases hmem : value ∈ staged.map StagedPartition.securityId
  · obtain ⟨s, hs, rfl⟩ := List.mem_map.mp hmem
    obtain ⟨rows', hrows, hfile'⟩ := hstaged s hs
    rw [hfile'] at hfile
    rw [← Option.some.inj hfile]
    exact hrows.storedWell wf
  · rw [hother value hmem] at hfile
    cases hfile

/-- The cleanup removes the rows of partitions that are gone, as far as it gets. -/
private theorem cleanup_agrees {reached : String → Bool} {st : Store} {value : String}
    (hfile : st.files d.id value = none) (hreached : reached value = true) :
    Agrees p h (cleanupStaleDerivedManifests d reached st) d value := by
  apply agrees_of_none
  simp [ledgerRow, cleanupStaleDerivedManifests, Store.deleteManifest, hfile, hreached]

private theorem cleanup_same {reached : String → Bool} {st : Store} {d' : DatasetDefinition}
    {value : String}
    (hkept : ¬(d'.id = d.id ∧ st.files d.id value = none ∧ reached value = true)) :
    SameEntry d' value st (cleanupStaleDerivedManifests d reached st) := by
  refine ⟨rfl, ?_⟩
  unfold ledgerRow cleanupStaleDerivedManifests Store.deleteManifest
  refine if_neg fun heq => hkept ⟨heq.1, ?_⟩
  simpa using heq.2.2

private theorem cleanup_keys {reached : String → Bool} {st : Store} (hkeys : LedgerKeys st) :
    LedgerKeys (cleanupStaleDerivedManifests d reached st) := by
  intro dataset column value row hrow
  unfold cleanupStaleDerivedManifests Store.deleteManifest at hrow
  simp only at hrow
  split at hrow
  · cases hrow
  · exact hkeys dataset column value row hrow

theorem publishDataset_spec {c : DatasetPublication} {st : Store} (hstaging : st.staging = false)
    (hst : WellStored p st) :
    OperationSpec p h (raised (publishDataset p h c st).1 = true) st
      (publishDataset p h c st).2 := by
  unfold publishDataset
  cases hdataset : datasetDefinition c.dataset with
  | error e => exact .refl _ st
  | ok d =>
    obtain ⟨hd, -⟩ := mem_datasetCatalog hdataset
    have wf : d.WellFormed := wellFormed_of_mem hd
    simp only
    rcases hstage : stagePartitions p h c.stagingEnvs c.dataset 0 c.staged stagingStore with
      ⟨res, area⟩
    cases res with
    | error e => exact .refl _ st
    | ok u =>
      obtain ⟨hstaged, hother⟩ := stagePartitions_files hdataset 0 c.distinct c.clean hstage
      simp only
      generalize hcommit : commit_derived_dataset_staging (d.source == .derived) c.outcomes
        (areaOf c.existed) = out
      generalize hswapped : st.setDataset d.id (fun value => inPlace out.2.final_dir none
        (st.files d.id value) (area.files d.id value)) = swapped
      have hswap : ∀ cut : Prop, cut → OperationSpec p h cut st swapped := by
        intro cut hcut
        rw [← hswapped]
        refine .setDataset hd hcut hst fun value rows hfile => ?_
        rcases inPlace_cases out.2.final_dir none (st.files d.id value) (area.files d.id value) with
          hgone | hold | hnew
        · rw [hgone] at hfile
          cases hfile
        · rw [hold] at hfile
          exact hst d hd value rows hfile
        · rw [hnew] at hfile
          exact staged_storedWell wf hstaged hother hfile
      cases hout : out.1 with
      | some r => exact hswap _ rfl
      | none =>
        have hfinal : out.2.final_dir = some {true} := by
          rw [← hcommit] at hout ⊢
          exact commitStaging_ends hout
        have hfiles : ∀ value, swapped.files d.id value = area.files d.id value := by
          intro value
          rw [← hswapped]
          simp [Store.setDataset, hfinal, inPlace]
        have hswapstaging : swapped.staging = false := by
          rw [← hswapped]
          exact hstaging
        simp only
        rcases hrecord : recordPartitions p h c.ledgerEnvs d 0 c.staged swapped with ⟨res', st'⟩
        obtain ⟨hrecorded, hall⟩ := recordPartitions_recorded hd 0 hswapstaging (by
          intro s hs
          rw [hfiles]
          exact hstaged s hs) hrecord
        cases res' with
        | error e => exact (hswap _ rfl).recorded hrecorded
        | ok u =>
          -- the partitions of the build agree; the cleanup takes care of those that are gone
          have hclean : ∀ reached : String → Bool, ∀ cut : Prop,
              (cut ∨ ∀ value, reached value = true) →
              OperationSpec p h cut st (cleanupStaleDerivedManifests d reached st') := by
            intro reached cut hcut
            have hspec := (hswap True trivial).recorded hrecorded
            refine ⟨hspec.staging, hspec.stored, fun hkeys => cleanup_keys (hspec.keys hkeys), ?_⟩
            intro d' hd' value
            by_cases hid : d'.id = d.id
            · obtain rfl : d' = d := List.inj_on_of_nodup_map ids_nodup hd' hd hid
              have hfile : st'.files d'.id value = area.files d'.id value := by
                rw [hrecorded.files, hfiles]
              by_cases hmem : value ∈ c.staged.map StagedPartition.securityId
              · obtain ⟨s, hs, rfl⟩ := List.mem_map.mp hmem
                obtain ⟨rows, -, hrows⟩ := hstaged s hs
                refine .agrees ((hall rfl s hs).congr (cleanup_same fun heq => ?_))
                rw [hfile, hrows] at heq
                cases heq.2.1
              · have hnone : st'.files d'.id value = none := by
                  rw [hfile, hother value hmem]
                  rfl
                cases hreached : reached value with
                | true => exact .agrees (cleanup_agrees hnone hreached)
                | false =>
                  have hsame : SameEntry d' value st' (cleanupStaleDerivedManifests d' reached st') :=
                    cleanup_same fun heq => by
                      rw [hreached] at heq
                      cases heq.2.2
                  have hcut' : cut := by
                    rcases hcut with hcut | hall'
                    · exact hcut
                    · rw [hall' value] at hreached
                      cases hreached
                  cases hspec.entries d' hd value with
                  | agrees hagrees => exact .agrees (hagrees.congr hsame)
                  | same hsame' => exact .same (hsame'.trans hsame)
                  | cut _ hrow => exact .cut hcut' (hsame.row.trans hrow)
            · have hsame : SameEntry d' value st' (cleanupStaleDerivedManifests d reached st') :=
                cleanup_same fun heq => hid heq.1
              have hswapped' : SameEntry d' value st swapped := by
                rw [← hswapped]
                exact ⟨if_neg hid, rfl⟩
              rcases hrecorded.entries d' hd' value with hagrees | hsame'
              · exact .agrees (hagrees.congr hsame)
              · exact .same (hswapped'.trans (hsame'.trans hsame))
          cases c.cleanupCut with
          | none => exact hclean _ _ (Or.inr fun _ => rfl)
          | some reached => exact hclean _ _ (Or.inl rfl)

private theorem setPartition_other {st : Store} {securityId : String} {file : Option (List Row)}
    {d' : DatasetDefinition} {value : String} (hne : ¬(d'.id = d.id ∧ value = securityId)) :
    SameEntry d' value st (st.setDataset d.id fun v =>
      if v = securityId then file else st.files d.id v) := by
  refine ⟨?_, rfl⟩
  unfold Store.setDataset
  by_cases hid : d'.id = d.id
  · have hvalue : value ≠ securityId := fun heq => hne ⟨hid, heq⟩
    simp only [hid, if_true, if_neg hvalue]
  · simp only [if_neg hid]

theorem publishPartition_spec {c : PartitionPublication} {st : Store}
    (hstaging : st.staging = false) (hst : WellStored p st) :
    OperationSpec p h (raised (publishPartition p h c st).1 = true) st
      (publishPartition p h c st).2 := by
  unfold publishPartition
  cases hdataset : datasetDefinition c.dataset with
  | error e => exact .refl _ st
  | ok d =>
    obtain ⟨hd, -⟩ := mem_datasetCatalog hdataset
    have wf : d.WellFormed := wellFormed_of_mem hd
    have hswap : ∀ cut : Prop, cut → ∀ (final_dir : Option (Finset Bool)) staged,
        (∀ rows, staged = some rows → StoredWell p d c.partition.securityId rows) →
        OperationSpec p h cut st (st.setDataset d.id fun value =>
          if value = c.partition.securityId then
            inPlace final_dir none (st.files d.id c.partition.securityId) staged
          else st.files d.id value) := by
      intro cut hcut final_dir staged hstaged
      refine .setDataset hd hcut hst fun value rows hfile => ?_
      split at hfile
      case isTrue heq =>
        rw [heq]
        rcases inPlace_cases final_dir none (st.files d.id c.partition.securityId) staged with
          hgone | hold | hnew
        · rw [hgone] at hfile
          cases hfile
        · rw [hold] at hfile
          exact hst d hd _ rows hfile
        · rw [hnew] at hfile
          exact hstaged rows hfile
      case isFalse => exact hst d hd value rows hfile
    simp only
    split
    case isTrue =>
      generalize hcommit : commit_derived_partition_staging (d.source == .derived) c.outcomes true
        (areaOf (st.files d.id c.partition.securityId).isSome) = out
      have hgone := fun cut hcut => hswap cut hcut out.2.final_dir none fun rows hrows => by
        cases hrows
      cases hout : out.1 with
      | some r => exact hgone _ rfl
      | none =>
        have hfinal : out.2.final_dir = none := by
          rw [← hcommit] at hout ⊢
          exact commitStaging_ends hout
        simp only
        split
        case isFalse => exact hgone _ rfl
        case isTrue =>
          have hspec := hgone True trivial
          refine ⟨hspec.staging, hspec.stored, ?_, ?_⟩
          · intro hkeys dataset column value row hrow
            simp only [Store.deleteManifest] at hrow
            split at hrow
            · cases hrow
            · exact hspec.keys hkeys dataset column value row hrow
          · intro d' hd' value
            by_cases hkey : d'.id = d.id ∧ value = c.partition.securityId
            · obtain rfl : d' = d := List.inj_on_of_nodup_map ids_nodup hd' hd hkey.1
              refine .agrees (agrees_of_none ?_)
              simp [ledgerRow, Store.deleteManifest, hkey.2]
            · refine .same ((setPartition_other hkey).trans ⟨rfl, ?_⟩)
              unfold ledgerRow Store.deleteManifest
              refine if_neg fun heq => hkey ⟨heq.1, ?_⟩
              simpa using heq.2.2
    case isFalse =>
      rcases hstage : stagePartitions p h (fun _ => c.stagingEnv) c.dataset 0 [c.partition]
        stagingStore with ⟨res, area⟩
      cases res with
      | error e => exact .refl _ st
      | ok u =>
        obtain ⟨hstaged, -⟩ := stagePartitions_files hdataset 0 (by simp)
          (fun s hs => by rw [List.mem_singleton.mp hs]; exact c.clean) hstage
        obtain ⟨rows, hrows, hfile⟩ := hstaged c.partition List.mem_cons_self
        simp only [hfile]
        generalize hcommit : commit_derived_partition_staging (d.source == .derived) c.outcomes
          false (areaOf (st.files d.id c.partition.securityId).isSome) = out
        have hplaced := fun cut hcut => hswap cut hcut out.2.final_dir (some rows) fun rows' heq => by
          rw [← Option.some.inj heq]
          exact hrows.storedWell wf
        cases hout : out.1 with
        | some r => exact hplaced _ rfl
        | none =>
          have hfinal : out.2.final_dir = some {true} := by
            rw [← hcommit] at hout ⊢
            exact commitStaging_ends hout
          simp only
          generalize hplace : st.setDataset d.id (fun value =>
            if value = c.partition.securityId then
              inPlace out.2.final_dir none (st.files d.id c.partition.securityId) (some rows)
            else st.files d.id value) = placed at hplaced ⊢
          rcases hrecord : recordPartitions p h (fun _ => c.ledgerEnv) d 0 [c.partition] placed with
            ⟨res', st'⟩
          obtain ⟨hrecorded, hall⟩ := recordPartitions_recorded hd 0
            ((hplaced True trivial).staging.trans hstaging) (by
              intro s hs
              rw [List.mem_singleton.mp hs]
              refine ⟨rows, hrows, ?_⟩
              rw [← hplace]
              simp [Store.setDataset, hfinal, inPlace]) hrecord
          cases res' with
          | error e => exact (hplaced _ rfl).recorded hrecorded
          | ok u =>
            have hspec := (hplaced True trivial).recorded hrecorded
            refine ⟨hspec.staging, hspec.stored, hspec.keys, fun d' hd' value => ?_⟩
            by_cases hkey : d'.id = d.id ∧ value = c.partition.securityId
            · obtain rfl : d' = d := List.inj_on_of_nodup_map ids_nodup hd' hd hkey.1
              rw [hkey.2]
              exact .agrees (hall rfl c.partition List.mem_cons_self)
            · have hother : SameEntry d' value st placed := by
                rw [← hplace]
                exact setPartition_other hkey
              rcases hrecorded.entries d' hd' value with hagrees | hsame
              · exact .agrees hagrees
              · exact .same (hother.trans hsame)

/-! The files a publication leaves: those of before, and those of its securities -/

private theorem upsertAfterWrite_files (io : PartitionIo) (d : DatasetDefinition) (rows : List Row)
    (value sourceSignature masterRowHash : String) (st : Store) :
    (upsertPartitionManifestAfterWrite p h io d rows value sourceSignature masterRowHash
      st).2.files = st.files := by
  unfold upsertPartitionManifestAfterWrite
  split
  · rfl
  · split <;> rfl

theorem upsertWritten_files (env : WriteEnv) (io : PartitionIo) (d : DatasetDefinition) (df : Frame)
    (partition : Partition) (sourceSignature masterRowHash : String) (st : Store) :
    (upsertWrittenDatasetPartitionManifest p h env io d df partition sourceSignature masterRowHash
      st).2.files = st.files := by
  unfold upsertWrittenDatasetPartitionManifest
  split
  · rfl
  · split
    · rfl
    · split
      · rfl
      · exact upsertAfterWrite_files ..

theorem recordPartitions_files (envs : ℕ → WriteEnv) (d : DatasetDefinition) (k : ℕ)
    (staged : List StagedPartition) (st : Store) :
    (recordPartitions p h envs d k staged st).2.files = st.files := by
  induction staged generalizing k st with
  | nil => rfl
  | cons s staged ih =>
    have hfiles := @upsertWritten_files p h (envs k) ((envs k).io 0) d s.df
      (securityPartition s.securityId) s.sourceSignature s.masterRowHash st
    unfold recordPartitions
    rcases hwrite : upsertWrittenDatasetPartitionManifest p h (envs k) ((envs k).io 0) d s.df
      (securityPartition s.securityId) s.sourceSignature s.masterRowHash st with ⟨res, st'⟩
    rw [hwrite] at hfiles
    cases res with
    | error e => exact hfiles
    | ok u => exact (ih (k + 1) st').trans hfiles

theorem publishDataset_files {c : DatasetPublication} {st : Store} {dataset value : String}
    {rows : List Row} (hfile : (publishDataset p h c st).2.files dataset value = some rows) :
    st.files dataset value = some rows ∨ ∃ s ∈ c.staged, s.securityId = value := by
  unfold publishDataset at hfile
  cases hdataset : datasetDefinition c.dataset with
  | error e =>
    rw [hdataset] at hfile
    exact Or.inl hfile
  | ok d =>
    rw [hdataset] at hfile
    simp only at hfile
    rcases hstage : stagePartitions p h c.stagingEnvs c.dataset 0 c.staged stagingStore with
      ⟨res, area⟩
    rw [hstage] at hfile
    cases res with
    | error e => exact Or.inl hfile
    | ok u =>
      obtain ⟨-, hother⟩ := stagePartitions_files hdataset 0 c.distinct c.clean hstage
      simp only at hfile
      generalize hout : commit_derived_dataset_staging (d.source == .derived) c.outcomes
        (areaOf c.existed) = out at hfile
      -- the exchange of the directory decides; the ledger steps leave the files alone
      have hswapped : (st.setDataset d.id fun value => inPlace out.2.final_dir none
          (st.files d.id value) (area.files d.id value)).files dataset value = some rows := by
        split at hfile
        case h_1 => exact hfile
        case h_2 =>
          have hrecord := @recordPartitions_files p h c.ledgerEnvs d 0 c.staged
            (st.setDataset d.id fun value => inPlace out.2.final_dir none
              (st.files d.id value) (area.files d.id value))
          rcases hrec : recordPartitions p h c.ledgerEnvs d 0 c.staged (st.setDataset d.id
            fun value => inPlace out.2.final_dir none (st.files d.id value)
              (area.files d.id value)) with ⟨res', st'⟩
          rw [hrec] at hfile hrecord
          rw [← hrecord]
          cases res' with
          | error e => exact hfile
          | ok u => cases hcut : c.cleanupCut <;> rw [hcut] at hfile <;> exact hfile
      by_cases hid : dataset = d.id
      · rw [hid] at hswapped ⊢
        simp only [Store.setDataset, if_true] at hswapped
        rcases inPlace_cases out.2.final_dir none (st.files d.id value) (area.files d.id value) with
          hgone | hold | hnew
        · rw [hgone] at hswapped
          cases hswapped
        · exact Or.inl (hold ▸ hswapped)
        · by_cases hmem : value ∈ c.staged.map StagedPartition.securityId
          · exact Or.inr (List.mem_map.mp hmem)
          · rw [hnew, hother value hmem] at hswapped
            cases hswapped
      · simp only [Store.setDataset, if_neg hid] at hswapped
        exact Or.inl hswapped

theorem publishPartition_files {c : PartitionPublication} {st : Store} {dataset value : String}
    {rows : List Row} (hfile : (publishPartition p h c st).2.files dataset value = some rows) :
    st.files dataset value = some rows ∨ c.partition.securityId = value := by
  by_cases hvalue : c.partition.securityId = value
  · exact Or.inr hvalue
  refine Or.inl ?_
  unfold publishPartition at hfile
  cases hdataset : datasetDefinition c.dataset with
  | error e =>
    rw [hdataset] at hfile
    exact hfile
  | ok d =>
    rw [hdataset] at hfile
    have hkept : ∀ file, (st.setDataset d.id fun v =>
        if v = c.partition.securityId then file else st.files d.id v).files dataset value =
          st.files dataset value := by
      intro file
      unfold Store.setDataset
      by_cases hid : dataset = d.id
      · simp only [hid, if_true, if_neg (Ne.symm hvalue)]
      · simp only [if_neg hid]
    simp only at hfile
    split at hfile
    case isTrue =>
      split at hfile
      case h_1 heq =>
        obtain ⟨-, rfl⟩ := Prod.mk.inj heq
        rwa [hkept] at hfile
      case h_2 heq =>
        obtain ⟨-, rfl⟩ := Prod.mk.inj heq
        split at hfile <;> rwa [← hkept]
    case isFalse =>
      split at hfile
      case h_1 => exact hfile
      case h_2 area hstage =>
        split at hfile
        case h_1 heq =>
          obtain ⟨-, rfl⟩ := Prod.mk.inj heq
          rwa [hkept] at hfile
        case h_2 heq =>
          obtain ⟨-, rfl⟩ := Prod.mk.inj heq
          rw [recordPartitions_files, hkept] at hfile
          exact hfile

end Spec

end QuantDataCenter.Derived
