import QuantDataCenter.Storage.StoredContent

/-!
The ledger of partitions. A row describes a file when its row count, date range and
semantic hash are those of the rows in the file. Here: what the steps of a write
and of a manifest rebuild (`storage/manifest_rebuild.py`) do to one ledger entry.
-/

set_option autoImplicit false
set_option relaxedAutoImplicit false

namespace QuantDataCenter.Storage

open QuantDataCenter.Lib.Checked QuantDataCenter.Lib.Keyed QuantDataCenter.Tabular
open QuantDataCenter.Quality Store

def DatasetDefinition.ledgerColumn (d : DatasetDefinition) : String := d.partitionColumn.getD ""

namespace Store

/-- The files of one dataset, all at once. -/
def setDataset (st : Store) (dataset : String) (files : String → Option (List Row)) : Store :=
  { st with files := fun d v => if d = dataset then files v else st.files d v }

/-- The ledger rows of the dataset that the test picks are removed. -/
def deleteManifest (st : Store) (definition : DatasetDefinition) (test : String → Bool) : Store :=
  { st with manifest := fun d c v =>
    if d = definition.id ∧ c = definition.ledgerColumn ∧ test v = true then none
    else st.manifest d c v }

end Store

/-- The ledger row of the partition, under the dataset's own partition column. -/
def ledgerRow (st : Store) (d : DatasetDefinition) (value : String) : Option ManifestRow :=
  st.manifest d.id d.ledgerColumn value

/-- The ledger row is about these rows. -/
structure Describes (p : Pandas) (h : Hashing) (d : DatasetDefinition) (row : ManifestRow)
    (rows : List Row) : Prop where
  rowCount : row.rowCount = rows.length
  dateRange : (row.minDate, row.maxDate) = Storage.dateRange p (fieldNames d.schema) rows
  semanticHash : row.semanticHash = dataframeSemanticHash h rows d.schema

private theorem describes_datasetPartitionManifestRow (p : Pandas) (h : Hashing)
    (d : DatasetDefinition)
    (rows : List Row) (sourceSignature masterRowHash : String) :
    Describes p h d
      (datasetPartitionManifestRow p h d.schema rows sourceSignature masterRowHash) rows :=
  ⟨rfl, rfl, rfl⟩

/-- The ledger row of a partition, if there is one, describes its file. -/
def Agrees (p : Pandas) (h : Hashing) (st : Store) (d : DatasetDefinition) (value : String) : Prop :=
  ∀ row, ledgerRow st d value = some row →
    ∃ rows, st.files d.id value = some rows ∧ Describes p h d row rows

/-- File and ledger row of the partition are the same in both stores. -/
structure SameEntry (d : DatasetDefinition) (value : String) (st st' : Store) : Prop where
  file : st'.files d.id value = st.files d.id value
  row : ledgerRow st' d value = ledgerRow st d value

/-- What an operation does to one partition: the ledger row describes the file
afterwards, or nothing changed, or the operation was cut and left the ledger row. -/
inductive EntryStep (p : Pandas) (h : Hashing) (d : DatasetDefinition) (value : String) (cut : Prop)
    (st st' : Store) : Prop
  | agrees (hagrees : Agrees p h st' d value) : EntryStep p h d value cut st st'
  | same (hsame : SameEntry d value st st') : EntryStep p h d value cut st st'
  | cut (hcut : cut) (hrow : ledgerRow st' d value = ledgerRow st d value) :
      EntryStep p h d value cut st st'

/-- The keys of the ledger are partitions of the catalog. -/
def LedgerKeys (st : Store) : Prop :=
  ∀ dataset column value row, st.manifest dataset column value = some row →
    ∃ d ∈ datasetCatalog, d.id = dataset ∧ d.ledgerColumn = column

section Entries

variable {p : Pandas} {h : Hashing} {d : DatasetDefinition} {value : String}

theorem SameEntry.refl (st : Store) : SameEntry d value st st := ⟨rfl, rfl⟩

theorem SameEntry.trans {st st' st'' : Store} (a : SameEntry d value st st')
    (b : SameEntry d value st' st'') : SameEntry d value st st'' :=
  ⟨b.file.trans a.file, b.row.trans a.row⟩

theorem Agrees.congr {st st' : Store} (hagrees : Agrees p h st d value)
    (same : SameEntry d value st st') : Agrees p h st' d value := by
  intro row hrow
  rw [same.row] at hrow
  rw [same.file]
  exact hagrees row hrow

private theorem agrees_of_recorded {st : Store} {rows : List Row}
    {sourceSignature masterRowHash : String}
    (hfile : st.files d.id value = some rows)
    (hrow : ledgerRow st d value =
      some (datasetPartitionManifestRow p h d.schema rows sourceSignature masterRowHash)) :
    Agrees p h st d value := by
  intro row hsome
  rw [hrow] at hsome
  rw [← Option.some.inj hsome]
  exact ⟨rows, hfile, describes_datasetPartitionManifestRow ..⟩

theorem agrees_of_none {st : Store} (hrow : ledgerRow st d value = none) :
    Agrees p h st d value := by
  intro row hsome
  rw [hrow] at hsome
  cases hsome

theorem ledgerRow_setManifest_self (st : Store) (row : ManifestRow) :
    ledgerRow (st.setManifest d.id d.ledgerColumn value row) d value = some row := by
  simp [ledgerRow, setManifest]

theorem setManifest_manifest_of_ne (st : Store) (row : ManifestRow)
    {dataset column value dataset' column' value' : String}
    (hne : ¬(dataset' = dataset ∧ column' = column ∧ value' = value)) :
    (st.setManifest dataset column value row).manifest dataset' column' value' =
      st.manifest dataset' column' value' := by
  simp only [setManifest, if_neg hne]

theorem LedgerKeys.setManifest {st : Store} (hkeys : LedgerKeys st) (hd : d ∈ datasetCatalog)
    (value : String) (row : ManifestRow) :
    LedgerKeys (st.setManifest d.id d.ledgerColumn value row) := by
  intro dataset column value' row' hrow
  by_cases heq : dataset = d.id ∧ column = d.ledgerColumn ∧ value' = value
  · exact ⟨d, hd, heq.1.symm, heq.2.1.symm⟩
  · rw [setManifest_manifest_of_ne st row heq] at hrow
    exact hkeys dataset column value' row' hrow

theorem LedgerKeys.congr {st st' : Store} (hkeys : LedgerKeys st)
    (hmanifest : st'.manifest = st.manifest) : LedgerKeys st' := by
  unfold LedgerKeys
  rw [hmanifest]
  exact hkeys

end Entries

/-! A call of `write_dataset` -/

section Writes

variable {p : Pandas} {h : Hashing} {d : DatasetDefinition}

private theorem putAll_staging (written : List (String × Frame)) (st : Store) :
    (putAll p h d written st).staging = st.staging := by
  unfold putAll
  induction written generalizing st with
  | nil => rfl
  | cons w written ih =>
    rw [List.foldl_cons, ih]
    exact Store.put_staging ..

private theorem put_manifest_of_ne {st : Store} {value : String} {rows : List Row}
    {dataset column value' : String}
    (hne : ¬(dataset = d.id ∧ column = d.ledgerColumn ∧ value' = value)) :
    (st.put p h d value rows).manifest dataset column value' =
      st.manifest dataset column value' := by
  unfold Store.put
  split
  · rfl
  · exact setManifest_manifest_of_ne _ _ hne

private theorem putAll_manifest_of_not_mem {written : List (String × Frame)} {st : Store}
    {dataset column value : String}
    (hne : ¬(dataset = d.id ∧ column = d.ledgerColumn ∧ value ∈ written.map Prod.fst)) :
    (putAll p h d written st).manifest dataset column value =
      st.manifest dataset column value := by
  induction written generalizing st with
  | nil => rfl
  | cons w written ih =>
    show (putAll p h d written (st.put p h d w.1 w.2.rows)).manifest dataset column value = _
    rw [ih fun heq => hne ⟨heq.1, heq.2.1, List.mem_cons_of_mem _ heq.2.2⟩]
    exact put_manifest_of_ne fun heq =>
      hne ⟨heq.1, heq.2.1, by rw [heq.2.2]; exact List.mem_cons_self⟩

private theorem putAll_manifest_of_mem {written : List (String × Frame)} {st : Store}
    (hstaging : st.staging = false) (hdistinct : (written.map Prod.fst).Nodup)
    {w : String × Frame} (hw : w ∈ written) :
    ledgerRow (putAll p h d written st) d w.1 =
      some (datasetPartitionManifestRow p h d.schema w.2.rows "" "") := by
  induction written generalizing st with
  | nil => cases hw
  | cons w' written ih =>
    rw [List.map_cons, List.nodup_cons] at hdistinct
    show ledgerRow (putAll p h d written (st.put p h d w'.1 w'.2.rows)) d w.1 = _
    rcases List.mem_cons.mp hw with rfl | hmem
    · unfold ledgerRow
      rw [putAll_manifest_of_not_mem fun heq => hdistinct.1 heq.2.2]
      unfold Store.put
      rw [if_neg (by simp [hstaging])]
      exact ledgerRow_setManifest_self ..
    · exact ih ((Store.put_staging ..).trans hstaging) hdistinct.2 hmem

private theorem putAll_keys (hd : d ∈ datasetCatalog) {written : List (String × Frame)} {st : Store}
    (hkeys : LedgerKeys st) : LedgerKeys (putAll p h d written st) := by
  intro dataset column value row hrow
  by_cases heq : dataset = d.id ∧ column = d.ledgerColumn ∧ value ∈ written.map Prod.fst
  · exact ⟨d, hd, heq.1.symm, heq.2.1.symm⟩
  · rw [putAll_manifest_of_not_mem heq] at hrow
    exact hkeys dataset column value row hrow

private theorem setLast_manifest (last : Option (String × Frame)) (st : Store) :
    (setLast d last st).manifest = st.manifest := by
  cases last <;> rfl

private theorem setLast_files_of_ne {last : Option (String × Frame)} {st : Store} {value : String}
    (hne : ∀ w ∈ last, w.1 ≠ value) :
    (setLast d last st).files d.id value = st.files d.id value := by
  cases last with
  | none => rfl
  | some w => exact Store.setFile_files_of_ne st w.2.rows fun heq => hne w rfl heq.2.symm

variable {env : WriteEnv} {df : Frame} {partition : Partition} {mode : WriteMode} {skip : Bool}
  {st st' : Store} {stopped : Bool} {n : ℕ} {written : List (String × Frame)}
  {last : Option (String × Frame)}

theorem WriteEnded.staging
    (hended : WriteEnded p h env d df partition mode skip st st' stopped n written last) :
    st'.staging = st.staging := by
  rw [← hended.data.staging]
  have hlast : (setLast d last (putAll p h d written st)).staging =
      (putAll p h d written st).staging := by cases last <;> rfl
  rw [hlast, putAll_staging]

theorem WriteEnded.keys
    (hended : WriteEnded p h env d df partition mode skip st st' stopped n written last)
    (hd : d ∈ datasetCatalog) (hkeys : LedgerKeys st) : LedgerKeys st' := by
  have hput : LedgerKeys (putAll p h d written st) := putAll_keys hd hkeys
  refine hput.congr ?_
  rw [← hended.data.manifest, setLast_manifest]

/-- A call leaves a ledger row behind only for the partition it was stopped in. -/
theorem WriteEnded.entryStep
    (hended : WriteEnded p h env d df partition mode skip st st' stopped n written last)
    (hstaging : st.staging = false) {d' : DatasetDefinition} (hd : d ∈ datasetCatalog)
    (hd' : d' ∈ datasetCatalog) (value : String) :
    EntryStep p h d' value (stopped = true) st st' := by
  by_cases hid : d'.id = d.id
  · obtain rfl : d' = d := List.inj_on_of_nodup_map ids_nodup hd' hd hid
    have hrow : ledgerRow st' d' value = ledgerRow (putAll p h d' written st) d' value := by
      unfold ledgerRow
      rw [← hended.data.manifest, setLast_manifest]
    by_cases hmem : value ∈ written.map Prod.fst
    · obtain ⟨w, hw, rfl⟩ := List.mem_map.mp hmem
      refine .agrees (agrees_of_recorded ?_
        (hrow.trans (putAll_manifest_of_mem hstaging hended.distinct hw)))
      rw [← hended.data.files, setLast_files_of_ne ?_]
      · exact putAll_files_of_mem hended.distinct hw
      · intro w' hw' heq
        exact hended.untouched w' hw' (heq ▸ hmem)
    · have hkept : ledgerRow st' d' value = ledgerRow st d' value :=
        hrow.trans (putAll_manifest_of_not_mem fun heq => hmem heq.2.2)
      cases hstopped : stopped with
      | true => exact .cut rfl hkept
      | false =>
        obtain ⟨rfl, -⟩ := hended.finished hstopped
        refine .same ⟨?_, hkept⟩
        rw [← hended.data.files]
        exact putAll_files_of_not_mem hmem
  · refine .same ⟨hended.other_dataset hid value, ?_⟩
    unfold ledgerRow
    rw [← hended.data.manifest, setLast_manifest]
    exact putAll_manifest_of_not_mem fun heq => hid heq.1

end Writes

/-! Ledger rows of files that exist -/

section Records

variable (p : Pandas) (h : Hashing) (env : WriteEnv)

def upsertWrittenDatasetPartitionManifest (io : PartitionIo) (definition : DatasetDefinition)
    (df : Frame) (partition : Partition) (sourceSignature masterRowHash : String) (st : Store) :
    Except StoreError Unit × Store :=
  match partitionValue p definition partition with
  | .error e => (.error e, st)
  | .ok value =>
    if (st.files definition.id value).isNone then (.error .fileNotFound, st)
    else match prepareDatasetFrame p env definition df partition true with
      | .error e => (.error e, st)
      | .ok cleaned =>
        upsertPartitionManifestAfterWrite p h io definition cleaned.rows value sourceSignature
          masterRowHash st

/-- `{definition.partition_column: value}`, or no partition. -/
def partitionOf (definition : DatasetDefinition) (value : String) : Partition :=
  definition.partitionColumn.map fun column => [(column, .text value)]

/-- The loop of `rebuild_partition_manifest` over the partitions found on disk;
`existing` are those that had a ledger row when it started. -/
def rebuildPartitions (definition : DatasetDefinition) (force : Bool) (existing : String → Bool) :
    ℕ → List String → Store → Except StoreError Unit × Store
  | _, [], st => (.ok (), st)
  | k, value :: values, st =>
    if force = false ∧ existing value = true then
      rebuildPartitions definition force existing (k + 1) values st
    else match partitionValue p definition (partitionOf definition value) >>=
        readDataset p (env.io k) st definition with
      | .error e => (.error e, st)
      | .ok df =>
        match upsertWrittenDatasetPartitionManifest p h env (env.io k) definition df
          (partitionOf definition value) "" "" st with
        | (.error e, st') => (.error e, st')
        | (.ok (), st') => rebuildPartitions definition force existing (k + 1) values st'

def rebuildPartitionManifest (dataset : String) (includeDerived force : Bool)
    (values : List String) (st : Store) : Except StoreError Unit × Store :=
  match datasetDefinition dataset with
  | .error e => (.error e, st)
  | .ok definition =>
    if definition.source = .derived ∧ includeDerived = false then (.ok (), st)
    else rebuildPartitions p h env definition force
      (fun value => (ledgerRow st definition value).isSome) 0 values st

variable {p h env} {d : DatasetDefinition}

theorem upsertWritten_spec {io : PartitionIo} {df : Frame} {partition : Partition}
    {sourceSignature masterRowHash : String} {st : Store} (hstaging : st.staging = false) :
    (∃ e, upsertWrittenDatasetPartitionManifest p h env io d df partition sourceSignature
        masterRowHash st = (.error e, st)) ∨
    ∃ value rows cleaned, partitionValue p d partition = .ok value ∧
      st.files d.id value = some rows ∧
      prepareDatasetFrame p env d df partition true = .ok cleaned ∧
      upsertWrittenDatasetPartitionManifest p h env io d df partition sourceSignature
        masterRowHash st = (.ok (), st.setManifest d.id d.ledgerColumn value
          (datasetPartitionManifestRow p h d.schema cleaned.rows sourceSignature
            masterRowHash)) := by
  unfold upsertWrittenDatasetPartitionManifest
  cases hvalue : partitionValue p d partition with
  | error e => exact Or.inl ⟨e, rfl⟩
  | ok value =>
    simp only
    cases hfile : st.files d.id value with
    | none => exact Or.inl ⟨_, by simp; rfl⟩
    | some rows =>
      cases hprepare : prepareDatasetFrame p env d df partition true with
      | error e => exact Or.inl ⟨e, by simp⟩
      | ok cleaned =>
        cases hledger : io.ledger with
        | false =>
          refine Or.inl ⟨.other, ?_⟩
          simp [upsertPartitionManifestAfterWrite, hstaging, hledger]
        | true =>
          refine Or.inr ⟨value, rows, cleaned, rfl, hfile, rfl, ?_⟩
          simp [upsertPartitionManifestAfterWrite, hstaging, hledger, DatasetDefinition.ledgerColumn]

/-- A store whose files a sequence of recording steps left alone. -/
structure Recorded (p : Pandas) (h : Hashing) (st st' : Store) : Prop where
  files : st'.files = st.files
  staging : st'.staging = st.staging
  keys : LedgerKeys st → LedgerKeys st'
  entries : ∀ d ∈ datasetCatalog, ∀ value, Agrees p h st' d value ∨ SameEntry d value st st'

theorem Recorded.refl (st : Store) : Recorded p h st st :=
  ⟨rfl, rfl, id, fun _ _ _ => Or.inr (.refl st)⟩

theorem Recorded.trans {st st' st'' : Store} (a : Recorded p h st st')
    (b : Recorded p h st' st'') : Recorded p h st st'' where
  files := b.files.trans a.files
  staging := b.staging.trans a.staging
  keys := b.keys ∘ a.keys
  entries d hd value := by
    rcases b.entries d hd value with hagrees | hsame
    · exact Or.inl hagrees
    · rcases a.entries d hd value with hagrees | hsame'
      · exact Or.inl (hagrees.congr hsame)
      · exact Or.inr (hsame'.trans hsame)

theorem upsertWritten_recorded {io : PartitionIo} {df : Frame} {partition : Partition}
    {sourceSignature masterRowHash : String} {st st' : Store} {res : Except StoreError Unit}
    (hd : d ∈ datasetCatalog) (hstaging : st.staging = false)
    (hsame : ∀ value rows cleaned, partitionValue p d partition = .ok value →
      st.files d.id value = some rows →
      prepareDatasetFrame p env d df partition true = .ok cleaned → cleaned.rows = rows)
    (hout : upsertWrittenDatasetPartitionManifest p h env io d df partition sourceSignature
      masterRowHash st = (res, st')) :
    Recorded p h st st' ∧ (res = .ok () → ∀ value, partitionValue p d partition = .ok value →
      Agrees p h st' d value) := by
  rcases @upsertWritten_spec p h env d io df partition sourceSignature masterRowHash st hstaging with
    ⟨e, hnone⟩ | ⟨value, rows, cleaned, hvalue, hfile, hprepare, heq⟩
  · rw [hout] at hnone
    obtain ⟨rfl, rfl⟩ := Prod.mk.inj hnone
    exact ⟨.refl st', fun hok => by cases hok⟩
  · rw [hout] at heq
    obtain ⟨rfl, rfl⟩ := Prod.mk.inj heq
    have hrow : ∀ row, ledgerRow (st.setManifest d.id d.ledgerColumn value row) d value =
        some row := fun row => ledgerRow_setManifest_self st row
    have hagrees : Agrees p h (st.setManifest d.id d.ledgerColumn value
        (datasetPartitionManifestRow p h d.schema cleaned.rows sourceSignature masterRowHash))
        d value := by
      refine @agrees_of_recorded _ _ _ _ _ rows sourceSignature masterRowHash hfile ?_
      rw [hrow, hsame value rows cleaned hvalue hfile hprepare]
    refine ⟨⟨rfl, rfl, fun hkeys => hkeys.setManifest hd value _, fun d' hd' value' => ?_⟩, ?_⟩
    · by_cases hkey : d'.id = d.id ∧ value' = value
      · obtain rfl : d' = d := List.inj_on_of_nodup_map ids_nodup hd' hd hkey.1
        rw [hkey.2]
        exact Or.inl hagrees
      · refine Or.inr ⟨rfl, ?_⟩
        exact setManifest_manifest_of_ne st _ fun heq => hkey ⟨heq.1, heq.2.2⟩
    · intro _ value' hvalue'
      rw [hvalue] at hvalue'
      rw [← Except.ok.inj hvalue']
      exact hagrees

/-- A stored file that is read back and prepared comes out as it is. -/
private theorem prepared_of_read (wf : d.WellFormed) {io : PartitionIo} {st : Store}
    {partition : Partition} {value : String} {rows : List Row} {df cleaned : Frame}
    (hstored : ∀ v rows, st.files d.id v = some rows → StoredWell p d v rows)
    (hvalue : partitionValue p d partition = .ok value)
    (hread : readDataset p io st d value = .ok df) (hfile : st.files d.id value = some rows)
    (hprepare : prepareDatasetFrame p env d df partition true = .ok cleaned) :
    cleaned.rows = rows := by
  have hwell := hstored value rows hfile
  obtain ⟨hrows, hcolumns⟩ := readDataset_rows wf (hstored value) hread
  have hcontent : content st d value = rows := by simp [content, hfile]
  rw [hcontent] at hrows
  obtain ⟨coerced, hcoerced, -, hcleaned, -, -⟩ := prepared_stored wf hvalue hprepare
  obtain ⟨dtype, hsame⟩ := @coercedFrame_of_settled p d wf df hcolumns
    fun r hr => hwell.settled r (hrows ▸ hr)
  rw [hsame] at hcoerced
  rw [hcleaned, ← Except.ok.inj hcoerced, hrows]
  exact hwell.sorted env

private theorem rebuildPartitions_recorded (hd : d ∈ datasetCatalog) (force : Bool)
    (existing : String → Bool) (k : ℕ) (values : List String) {st : Store}
    (hstaging : st.staging = false)
    (hstored : ∀ v rows, st.files d.id v = some rows → StoredWell p d v rows) :
    Recorded p h st (rebuildPartitions p h env d force existing k values st).2 := by
  have wf : d.WellFormed := wellFormed_of_mem hd
  induction values generalizing k st with
  | nil => exact .refl st
  | cons value values ih =>
    unfold rebuildPartitions
    split
    case isTrue => exact ih (k + 1) hstaging hstored
    case isFalse =>
      split
      case h_1 => exact .refl st
      case h_2 df hdf =>
        obtain ⟨value', hvalue, hread⟩ := bind_eq_ok.mp hdf
        rcases hout : upsertWrittenDatasetPartitionManifest p h env (env.io k) d df
          (partitionOf d value) "" "" st with ⟨res, st'⟩
        have hrecorded : Recorded p h st st' := by
          refine (upsertWritten_recorded hd hstaging ?_ hout).1
          intro v rows cleaned hv hfile hprepare
          rw [hvalue] at hv
          obtain rfl := Except.ok.inj hv
          exact prepared_of_read wf hstored hvalue hread hfile hprepare
        cases res with
        | error e => exact hrecorded
        | ok u =>
          refine hrecorded.trans (ih (k + 1) (hrecorded.staging.trans hstaging) ?_)
          rw [hrecorded.files]
          exact hstored

/-- A manifest rebuild leaves the files alone, and every row it writes describes its file. -/
theorem rebuildPartitionManifest_recorded (dataset : String) (includeDerived force : Bool)
    (values : List String) {st : Store} (hstaging : st.staging = false) (hst : WellStored p st) :
    Recorded p h st (rebuildPartitionManifest p h env dataset includeDerived force values st).2 := by
  unfold rebuildPartitionManifest
  cases hdataset : datasetDefinition dataset with
  | error e => exact .refl st
  | ok d =>
    have hd : d ∈ datasetCatalog := (mem_datasetCatalog hdataset).1
    simp only
    split
    case isTrue => exact .refl st
    case isFalse => exact rebuildPartitions_recorded hd force _ 0 values hstaging (hst d hd)

end Records

/-! Operations -/

/-- What every operation does to a store: it keeps the files well stored and the
keys of the ledger, and leaves a ledger row behind only if it is cut. -/
structure OperationSpec (p : Pandas) (h : Hashing) (cut : Prop) (st st' : Store) : Prop where
  staging : st'.staging = st.staging
  stored : WellStored p st → WellStored p st'
  keys : LedgerKeys st → LedgerKeys st'
  entries : ∀ d ∈ datasetCatalog, ∀ value, EntryStep p h d value cut st st'

section Operations

variable {p : Pandas} {h : Hashing} {d : DatasetDefinition} {cut : Prop} {st st' st'' : Store}

theorem OperationSpec.refl (cut : Prop) (st : Store) : OperationSpec p h cut st st :=
  ⟨rfl, id, id, fun _ _ _ => .same (.refl st)⟩

/-- Ledger steps after a cut operation repair entries and spoil none. -/
theorem OperationSpec.recorded (hspec : OperationSpec p h cut st st')
    (hrecorded : Recorded p h st' st'') : OperationSpec p h cut st st'' where
  staging := hrecorded.staging.trans hspec.staging
  stored hst := by
    intro d hd value rows hfile
    rw [hrecorded.files] at hfile
    exact hspec.stored hst d hd value rows hfile
  keys := hrecorded.keys ∘ hspec.keys
  entries d hd value := by
    rcases hrecorded.entries d hd value with hagrees | hsame
    · exact .agrees hagrees
    · cases hspec.entries d hd value with
      | agrees hagrees => exact .agrees (hagrees.congr hsame)
      | same hsame' => exact .same (hsame'.trans hsame)
      | cut hcut hrow => exact .cut hcut (hsame.row.trans hrow)

theorem OperationSpec.weaken {cut' : Prop} (hspec : OperationSpec p h cut st st')
    (himp : cut → cut') : OperationSpec p h cut' st st' where
  staging := hspec.staging
  stored := hspec.stored
  keys := hspec.keys
  entries d hd value := by
    cases hspec.entries d hd value with
    | agrees hagrees => exact .agrees hagrees
    | same hsame => exact .same hsame
    | cut hcut hrow => exact .cut (himp hcut) hrow

theorem OperationSpec.of_recorded (hrecorded : Recorded p h st st') :
    OperationSpec p h cut st st' :=
  (OperationSpec.refl cut st).recorded hrecorded

theorem OperationSpec.setDataset (hd : d ∈ datasetCatalog) (hcut : cut)
    {files : String → Option (List Row)} (hst : WellStored p st)
    (hfiles : ∀ value rows, files value = some rows → StoredWell p d value rows) :
    OperationSpec p h cut st (st.setDataset d.id files) where
  staging := rfl
  stored _ := by
    intro d' hd' value rows hfile
    by_cases hid : d'.id = d.id
    · obtain rfl : d' = d := List.inj_on_of_nodup_map ids_nodup hd' hd hid
      simp only [Store.setDataset, if_true] at hfile
      exact hfiles value rows hfile
    · simp only [Store.setDataset, if_neg hid] at hfile
      exact hst d' hd' value rows hfile
  keys := id
  entries d' hd' value := .cut hcut rfl

end Operations

end QuantDataCenter.Storage
