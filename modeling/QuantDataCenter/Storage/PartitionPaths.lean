import QuantDataCenter.Storage.StoredContent

/-!
Where a partition lies. `dataset_path` joins the value of a partition into a path,
and a path drops empty parts and single dots, so that two values can lead to one
file while the ledger keeps a row for each. Files are kept by the text of their
directory; here `write_dataset` finds the directory of a value by its path. Values
without a slash are directory names, and calls that hand over no others take the
value itself for the directory. A part `..` is kept, as `pathlib` keeps it.
-/

set_option autoImplicit false
set_option relaxedAutoImplicit false

namespace QuantDataCenter.Storage

open QuantDataCenter.Lib.Checked QuantDataCenter.Lib.Keyed QuantDataCenter.Lib.Transition
open QuantDataCenter.Tabular QuantDataCenter.Quality

/-- The part of a path that `pathlib` keeps. -/
def keptPart (part : List Char) : Bool := part != [] && part != ['.']

def pathParts (path : String) : List (List Char) := (path.toList.splitOn '/').filter keptPart

/-- `dataset_path`, from the directory of all datasets on. -/
def datasetPath (d : DatasetDefinition) (value : String) : List (List Char) :=
  match d.partitionColumn with
  | none => [d.id.toList, "data.parquet".toList]
  | some column =>
    d.id.toList :: (pathParts (column ++ "=" ++ value) ++ ["data.parquet".toList])

/-- The value that the path of a partition spells. -/
def directoryValue (value : String) : String :=
  match value.toList.splitOn '/' with
  | [] => ""
  | first :: rest => String.ofList (['/'].intercalate (first :: rest.filter keptPart))

/-- A value that is the name of a directory. -/
def NamesDirectory (value : String) : Prop := '/' ∉ value.toList

instance (value : String) : Decidable (NamesDirectory value) :=
  inferInstanceAs (Decidable ('/' ∉ value.toList))

private theorem directoryValue_eq {value : String} (hvalue : NamesDirectory value) :
    directoryValue value = value := by
  unfold directoryValue
  rw [List.splitOn_eq_singleton hvalue]
  simp

section Paths

private theorem splitOn_append {pre : List Char} (hpre : '/' ∉ pre) (rest : List Char) :
    (pre ++ rest).splitOn '/' = (rest.splitOn '/').modifyHead (pre ++ ·) := by
  induction pre with
  | nil =>
    simp only [List.nil_append]
    cases rest.splitOn '/' <;> rfl
  | cons c pre ih =>
    rw [List.mem_cons, not_or] at hpre
    have hne : (c == '/') = false := by simpa using Ne.symm hpre.1
    rw [List.cons_append, List.splitOn_cons_eq_if_modifyHead, hne, ih hpre.2]
    cases rest.splitOn '/' <;> simp

private theorem not_mem_of_mem_splitOn {l part : List Char} (hpart : part ∈ l.splitOn '/') :
    '/' ∉ part := by
  induction l generalizing part with
  | nil =>
    rw [List.splitOn_nil, List.mem_singleton] at hpart
    rw [hpart]
    exact List.not_mem_nil
  | cons c l ih =>
    rw [List.splitOn_cons_eq_if_modifyHead] at hpart
    split at hpart
    case isTrue =>
      rcases List.mem_cons.mp hpart with rfl | hmem
      · exact List.not_mem_nil
      · exact ih hmem
    case isFalse hne =>
      have hc : '/' ≠ c := fun heq => hne (by rw [heq]; exact beq_self_eq_true c)
      cases hsplit : l.splitOn '/' with
      | nil => exact absurd hsplit (List.splitOn_ne_nil _ _)
      | cons first rest =>
        rw [hsplit] at hpart ih
        rcases List.mem_cons.mp hpart with rfl | hmem
        · rw [List.mem_cons, not_or]
          exact ⟨hc, ih List.mem_cons_self⟩
        · exact ih (List.mem_cons_of_mem _ hmem)

private theorem directoryValue_eq_iff {value value' : String} {first first' : List Char}
    {rest rest' : List (List Char)} (hsplit : value.toList.splitOn '/' = first :: rest)
    (hsplit' : value'.toList.splitOn '/' = first' :: rest') :
    directoryValue value = directoryValue value' ↔
      first = first' ∧ rest.filter keptPart = rest'.filter keptPart := by
  have hparts : ∀ {v : String} {f : List Char} {r : List (List Char)},
      v.toList.splitOn '/' = f :: r →
      (['/'].intercalate (f :: r.filter keptPart)).splitOn '/' = f :: r.filter keptPart := by
    intro v f r h
    refine List.splitOn_intercalate '/' (fun part hpart => ?_) (List.cons_ne_nil _ _)
    refine not_mem_of_mem_splitOn (l := v.toList) ?_
    rw [h]
    rcases List.mem_cons.mp hpart with rfl | hmem
    · exact List.mem_cons_self
    · exact List.mem_cons_of_mem _ (List.mem_filter.mp hmem).1
  unfold directoryValue
  simp only [hsplit, hsplit']
  constructor
  · intro h
    have heq := congrArg (List.splitOn '/') (String.ofList_injective h)
    rw [hparts hsplit, hparts hsplit'] at heq
    exact List.cons.inj heq
  · rintro ⟨rfl, hrest⟩
    rw [hrest]

private theorem partitionColumn_no_slash : ∀ d ∈ datasetCatalog, ∀ c ∈ d.partitionColumn,
    '/' ∉ c.toList := by decide +kernel

/-- Two partitions share a path if and only if they share the directory. -/
theorem datasetPath_eq_iff {d d' : DatasetDefinition} (hd : d ∈ datasetCatalog)
    (hd' : d' ∈ datasetCatalog) (hpartitioned : d.partitionColumn ≠ none) {value value' : String} :
    datasetPath d value = datasetPath d' value' ↔
      d = d' ∧ directoryValue value = directoryValue value' := by
  obtain ⟨column, hcolumn⟩ := Option.ne_none_iff_exists'.mp hpartitioned
  have hslash : '/' ∉ (column ++ "=").toList := by
    rw [String.toList_append, List.mem_append, not_or]
    exact ⟨partitionColumn_no_slash d hd column (by rw [hcolumn]; rfl), by decide⟩
  obtain ⟨first, rest, hsplit⟩ := List.exists_cons_of_ne_nil (List.splitOn_ne_nil '/' value.toList)
  obtain ⟨first', rest', hsplit'⟩ :=
    List.exists_cons_of_ne_nil (List.splitOn_ne_nil '/' value'.toList)
  -- the column stands before the first part of the value and keeps it
  have hkept : ∀ part, keptPart ((column ++ "=").toList ++ part) = true := by
    intro part
    have hmem : '=' ∈ (column ++ "=").toList ++ part := by simp
    unfold keptPart
    rw [Bool.and_eq_true, bne_iff_ne, bne_iff_ne]
    constructor
    · intro hnil
      rw [hnil] at hmem
      cases hmem
    · intro hdot
      rw [hdot, List.mem_singleton] at hmem
      exact absurd hmem (by decide)
  have hpath : ∀ {v : String} {f : List Char} {r : List (List Char)},
      v.toList.splitOn '/' = f :: r → datasetPath d v = d.id.toList ::
        (((column ++ "=").toList ++ f) :: r.filter keptPart ++ ["data.parquet".toList]) := by
    intro v f r h
    simp only [datasetPath, hcolumn, pathParts]
    rw [String.toList_append, splitOn_append hslash, h, List.modifyHead_cons,
      List.filter_cons_of_pos (hkept f)]
  constructor
  · intro h
    have hhead : d.id.toList = d'.id.toList := by
      unfold datasetPath at h
      split at h <;> split at h <;> exact (List.cons.inj h).1
    obtain rfl : d = d' := List.inj_on_of_nodup_map ids_nodup hd hd' (String.toList_injective hhead)
    rw [hpath hsplit, hpath hsplit'] at h
    obtain ⟨hfirst, hrest⟩ := List.cons.inj (List.append_cancel_right (List.cons.inj h).2)
    exact ⟨rfl, (directoryValue_eq_iff hsplit hsplit').mpr ⟨List.append_cancel_left hfirst, hrest⟩⟩
  · rintro ⟨rfl, h⟩
    obtain ⟨hfirst, hrest⟩ := (directoryValue_eq_iff hsplit hsplit').mp h
    rw [hpath hsplit, hpath hsplit', hfirst, hrest]

example : datasetPath (dailyBarDataset "baostock_cn_stock_daily_bar_unadjusted") "sh.600000/." =
    datasetPath (dailyBarDataset "baostock_cn_stock_daily_bar_unadjusted") "sh.600000" := by
  decide +kernel

end Paths

/-! Writing at the path -/

namespace Store

/-- The file that the path of the partition leads to. -/
def fileAt (st : Store) (d : DatasetDefinition) (value : String) : Option (List Row) :=
  st.files d.id (directoryValue value)

/-- The file of a partition depends on its path alone. -/
theorem fileAt_of_datasetPath {d d' : DatasetDefinition} (hd : d ∈ datasetCatalog)
    (hd' : d' ∈ datasetCatalog) (hpartitioned : d.partitionColumn ≠ none) {value value' : String}
    (hpath : datasetPath d value = datasetPath d' value') (st : Store) :
    st.fileAt d value = st.fileAt d' value' := by
  obtain ⟨rfl, hdirectory⟩ := (datasetPath_eq_iff hd hd' hpartitioned).mp hpath
  rw [fileAt, fileAt, hdirectory]

/-- The store as a step about one partition sees it: its file is the one at the path. -/
def seenAt (st : Store) (d : DatasetDefinition) (value : String) : Store :=
  { st with files := fun dataset v =>
      if dataset = d.id ∧ v = value then st.fileAt d value else st.files dataset v }

/-- What such a step leaves, with the file it wrote at the path. -/
def leftAt (st : Store) (d : DatasetDefinition) (value : String) (st' : Store) : Store :=
  { st' with files := fun dataset v =>
      if dataset = d.id ∧ v = directoryValue value then st'.files d.id value
      else if dataset = d.id ∧ v = value then st.files dataset v
      else st'.files dataset v }

/-- A step about one partition, with the file it reads and writes at its path. -/
def atPath {α : Type} (d : DatasetDefinition) (value : String) (step : Store → α × Store)
    (st : Store) : α × Store :=
  ((step (st.seenAt d value)).1, st.leftAt d value (step (st.seenAt d value)).2)

private theorem seenAt_eq {d : DatasetDefinition} {value : String} (hvalue : NamesDirectory value)
    (st : Store) : st.seenAt d value = st := by
  have hfiles : (st.seenAt d value).files = st.files := by
    funext dataset v
    simp only [seenAt, fileAt, directoryValue_eq hvalue]
    split
    case isTrue heq => rw [heq.1, heq.2]
    case isFalse => rfl
  cases st
  simp only [seenAt] at hfiles ⊢
  rw [hfiles]

private theorem leftAt_eq {d : DatasetDefinition} {value : String} (hvalue : NamesDirectory value)
    (st st' : Store) : st.leftAt d value st' = st' := by
  have hfiles : (st.leftAt d value st').files = st'.files := by
    funext dataset v
    simp only [leftAt, directoryValue_eq hvalue]
    by_cases heq : dataset = d.id ∧ v = value
    · rw [if_pos heq, heq.1, heq.2]
    · rw [if_neg heq, if_neg heq]
  cases st'
  simp only [leftAt] at hfiles ⊢
  rw [hfiles]

private theorem atPath_eq {α : Type} {d : DatasetDefinition} {value : String}
    (hvalue : NamesDirectory value) (step : Store → α × Store) (st : Store) :
    st.atPath d value step = step st := by
  rw [atPath, seenAt_eq hvalue, leftAt_eq hvalue]

end Store

section Writing

variable (p : Pandas) (h : Hashing) (env : WriteEnv)

/-- The groups of an upsert without a partition, each at its path. -/
def writeGroupsAt (definition : DatasetDefinition) (column : String) (cleaned : Frame)
    (skipExisting : Bool) : ℕ → List (Cell × List Row) → DatasetWriteResult → Store →
    Except StoreError DatasetWriteResult × Store
  | _, [], total, st => (.ok total, st)
  | k, (v, rows) :: groups, total, st =>
    match groupPartitionValue p definition column v with
    | .error e => (.error e, st)
    | .ok value =>
      match st.atPath definition value (writeDatasetUpsertPartition p h env (env.io k) definition
          { cleaned with rows := rows } (some [(column, .text value)]) value skipExisting) with
      | (.error e, st') => (.error e, st')
      | (.ok result, st') =>
        writeGroupsAt definition column cleaned skipExisting (k + 1) groups
          ⟨total.paths ++ result.paths, total.rowCount + result.rowCount,
            total.updatedPartitions + result.updatedPartitions,
            total.skippedPartitions + result.skippedPartitions⟩ st'

/-- `_write_dataset_upsert`. -/
def writeDatasetUpsertAt (definition : DatasetDefinition) (df : Frame) (partition : Partition)
    (skipExisting : Bool) (st : Store) : Except StoreError DatasetWriteResult × Store :=
  match definition.partitionColumn, partition with
  | some column, none =>
    if df.rows = [] ∨ df.columns = [] then (.ok ⟨[], 0, 0, 0⟩, st)
    else match prepareDatasetFrame p env definition df none true with
      | .error e => (.error e, st)
      | .ok cleaned =>
        writeGroupsAt p h env definition column cleaned skipExisting 0
          (groupRows column cleaned.rows) ⟨[], 0, 0, 0⟩ st
  | _, _ =>
    match partitionValue p definition partition with
    | .error e => (.error e, st)
    | .ok value =>
      st.atPath definition value (writeDatasetUpsertPartition p h env (env.io 0) definition df
        partition value skipExisting)

def writeDatasetReplaceAt (definition : DatasetDefinition) (df : Frame) (partition : Partition)
    (merge : Bool) (st : Store) : Except StoreError DatasetWriteResult × Store :=
  match partitionValue p definition partition with
  | .error e => (.error e, st)
  | .ok value => st.atPath definition value (writeDatasetReplace p h env definition df partition merge)

/-- `write_dataset`, each file at the path of its partition. -/
def writeDatasetAt (dataset : String) (df : Frame) (partition : Partition)
    (mode : Option WriteMode) (skipExisting : Bool) (st : Store) :
    Except StoreError DatasetWriteResult × Store :=
  match datasetDefinition dataset with
  | .error e => (.error e, st)
  | .ok definition =>
    let writeMode := mode.getD definition.defaultWriteMode
    if skipExisting = true ∧ writeMode ≠ .upsert then
      (.error (.valueError "skip_existing is only supported for upsert writes"), st)
    else match writeMode with
      | .upsert => writeDatasetUpsertAt p h env definition df partition skipExisting st
      | .merge => writeDatasetReplaceAt p h env definition df partition true st
      | .replace => writeDatasetReplaceAt p h env definition df partition false st

end Writing

/-- The partition values of a call are directory names: the one it is given, or
those its coerced rows hold. -/
structure NamesDirectories (p : Pandas) (d : DatasetDefinition) (df : Frame)
    (partition : Partition) : Prop where
  given : ∀ value, partitionValue p d partition = .ok value → NamesDirectory value
  held : partition = none → ∀ c ∈ d.partitionColumn, ∀ r ∈ incomingRows p d df,
    NamesDirectory (p.str (r c))

section Refinement

variable {p : Pandas} {h : Hashing} {env : WriteEnv} {d : DatasetDefinition}

private theorem stripChars_subset {l : List Char} {c : Char} (hc : c ∈ stripChars l) : c ∈ l := by
  unfold stripChars at hc
  have hfront := (List.dropWhile_suffix isSpace).subset (List.mem_reverse.mp hc)
  exact (List.dropWhile_suffix isSpace).subset (List.mem_reverse.mp hfront)

private theorem NamesDirectory.strip {s : String} (hs : NamesDirectory s) :
    NamesDirectory (strip s) := by
  intro hmem
  rw [Tabular.strip, String.toList_ofList] at hmem
  exact hs (stripChars_subset hmem)

private theorem groupPartitionValue_eq {column : String} {v : Cell} {value : String}
    (hvalue : groupPartitionValue p d column v = .ok value) : value = strip (p.str v) := by
  unfold groupPartitionValue at hvalue
  split at hvalue
  case isTrue => cases hvalue
  case isFalse =>
    unfold normalizePartitionValue at hvalue
    split at hvalue
    · unfold aksharePartitionCode at hvalue
      split at hvalue
      · cases hvalue
      · split at hvalue
        · exact (Except.ok.inj hvalue).symm
        · cases hvalue
    · split at hvalue
      · cases hvalue
      · split at hvalue
        · cases hvalue
        · exact (Except.ok.inj hvalue).symm

private theorem NamesDirectories.of_group (wf : d.WellFormed) {df cleaned : Frame} {column : String}
    (hnames : NamesDirectories p d df none) (hcolumn : d.partitionColumn = some column)
    (hprepare : prepareDatasetFrame p env d df none true = .ok cleaned) {g : Cell × List Row}
    (hg : g ∈ groupRows column cleaned.rows) : NamesDirectory (p.str g.1) := by
  obtain ⟨fixed, hfixed, -, hsorted, -⟩ := prepareDatasetFrame_rows wf hprepare
  obtain ⟨hmem, -⟩ := mem_groups.mp (show (g.1, g.2) ∈ groups _ cleaned.rows from hg)
  obtain ⟨r, hr, hcell⟩ := List.mem_map.mp hmem
  rw [← hcell]
  refine hnames.held rfl column (by rw [hcolumn]; rfl) r ?_
  rw [hsorted] at hr
  rw [incomingRows_of_ok hfixed]
  exact (sortValues_perm env _ _).mem_iff.mp hr

private theorem writeGroupsAt_eq {column : String} {cleaned : Frame} {skip : Bool}
    {groups : List (Cell × List Row)}
    (hnames : ∀ g ∈ groups, NamesDirectory (p.str g.1)) (k : ℕ) (total : DatasetWriteResult)
    (st : Store) :
    writeGroupsAt p h env d column cleaned skip k groups total st =
      writeGroups p h env d column cleaned skip k groups total st := by
  induction groups generalizing k total st with
  | nil => rfl
  | cons g groups ih =>
    obtain ⟨v, rows⟩ := g
    unfold writeGroupsAt writeGroups
    cases hvalue : groupPartitionValue p d column v with
    | error e => rfl
    | ok value =>
      have hname : NamesDirectory value := by
        rw [groupPartitionValue_eq hvalue]
        exact (hnames (v, rows) List.mem_cons_self).strip
      simp only [Store.atPath_eq hname]
      rcases writeDatasetUpsertPartition p h env (env.io k) d { cleaned with rows := rows }
        (some [(column, .text value)]) value skip st with ⟨res, st'⟩
      cases res with
      | error e => rfl
      | ok result => exact ih (fun g hg => hnames g (List.mem_cons_of_mem _ hg)) _ _ _

/-- Where every value names a directory of its own, the path of a partition is its value. -/
theorem writeDatasetAt_eq {dataset : String} (hd : datasetDefinition dataset = .ok d) {df : Frame}
    {partition : Partition} (hnames : NamesDirectories p d df partition) (mode : Option WriteMode)
    (skip : Bool) (st : Store) :
    writeDatasetAt p h env dataset df partition mode skip st =
      writeDataset p h env dataset df partition mode skip st := by
  have wf : d.WellFormed := wellFormed_of_mem (mem_datasetCatalog hd).1
  have hreplace : ∀ merge, writeDatasetReplaceAt p h env d df partition merge st =
      writeDatasetReplace p h env d df partition merge st := by
    intro merge
    unfold writeDatasetReplaceAt
    cases hvalue : partitionValue p d partition with
    | error e => simp only [writeDatasetReplace, hvalue]
    | ok value => exact Store.atPath_eq (hnames.given value hvalue) _ st
  have hsingle : ∀ value, partitionValue p d partition = .ok value →
      st.atPath d value (writeDatasetUpsertPartition p h env (env.io 0) d df partition value skip) =
        writeDatasetUpsertPartition p h env (env.io 0) d df partition value skip st :=
    fun value hvalue => Store.atPath_eq (hnames.given value hvalue) _ st
  have hupsert : writeDatasetUpsertAt p h env d df partition skip st =
      writeDatasetUpsert p h env d df partition skip st := by
    by_cases hspans : SpansPartitions d partition .upsert
    · obtain ⟨column, hcolumn⟩ := Option.ne_none_iff_exists'.mp hspans.2.1
      obtain rfl := hspans.2.2
      simp only [writeDatasetUpsertAt, writeDatasetUpsert, hcolumn]
      split
      case isTrue => rfl
      case isFalse =>
        cases hprepare : prepareDatasetFrame p env d df none true with
        | error e => rfl
        | ok cleaned =>
          exact writeGroupsAt_eq (fun g hg => hnames.of_group wf hcolumn hprepare hg) 0 _ st
    · have hat : writeDatasetUpsertAt p h env d df partition skip st =
          match partitionValue p d partition with
          | .error e => (.error e, st)
          | .ok value =>
            st.atPath d value
              (writeDatasetUpsertPartition p h env (env.io 0) d df partition value skip) := by
        unfold writeDatasetUpsertAt
        split
        case h_1 column hcolumn => exact absurd ⟨rfl, by rw [hcolumn]; simp, rfl⟩ hspans
        case h_2 => rfl
      rw [writeDatasetUpsert_single hspans, hat]
      cases hvalue : partitionValue p d partition with
      | error e => rfl
      | ok value => exact hsingle value hvalue
  cases hmode : mode.getD d.defaultWriteMode <;>
    simp only [writeDatasetAt, writeDataset, hd, hmode, hreplace, hupsert]

theorem NamesDirectories.of_planned (wf : d.WellFormed) {df : Frame} {partition : Partition}
    {mode : WriteMode} {skip : Bool} {st : Store} (hnames : NamesDirectories p d df partition)
    {k : ℕ} {value : String} {frame : Frame}
    (hplanned : Planned p env d df partition mode skip st k value frame) :
    NamesDirectory value := by
  cases hplanned with
  | replace hmode hvalue hframe => exact hnames.given value hvalue
  | upsert hmode hvalue hframe => exact hnames.given value hvalue
  | group hspans hcolumn hdf hcleaned hgroup hframe =>
    obtain rfl := hspans.2.2
    rw [groupPartitionValue_eq hframe.1]
    exact (hnames.of_group wf hcolumn hcleaned (List.mem_of_getElem? hgroup)).strip

end Refinement

/-! Calls -/

/-- The call hands over no partition value with a slash. -/
def WriteCall.NamesDirectories (p : Pandas) (call : WriteCall) : Prop :=
  ∀ d, datasetDefinition call.dataset = .ok d →
    Storage.NamesDirectories p d call.df call.partition

/-- The store after a call, each file at the path of its partition. -/
def callStepAt (p : Pandas) (h : Hashing) (st : Store) (call : WriteCall) : Option Store :=
  some (writeDatasetAt p h call.env call.dataset call.df call.partition call.mode
    call.skipExisting st).2

theorem callStepAt_eq {p : Pandas} {h : Hashing} {call : WriteCall}
    (hnames : call.NamesDirectories p) (st : Store) :
    callStepAt p h st call = callStep p h st call := by
  unfold callStepAt callStep
  cases hd : datasetDefinition call.dataset with
  | error e => simp only [writeDatasetAt, writeDataset, hd]
  | ok d => rw [writeDatasetAt_eq hd (hnames d hd)]

end QuantDataCenter.Storage
