import QuantDataCenter.Storage.Preparation

/-!
What a call of `write_dataset` does to the files and to the ledger. One partition
is written completely or not at all, up to the ledger row; an upsert without a
partition writes its groups one after the other.
-/

set_option autoImplicit false
set_option relaxedAutoImplicit false

namespace QuantDataCenter.Storage

open QuantDataCenter.Lib.Checked QuantDataCenter.Lib.Keyed QuantDataCenter.Tabular
open QuantDataCenter.Quality

namespace Store

structure SameData (st st' : Store) : Prop where
  staging : st.staging = st'.staging
  files : st.files = st'.files
  manifest : st.manifest = st'.manifest

theorem SameData.refl (st : Store) : SameData st st := ⟨rfl, rfl, rfl⟩

theorem SameData.trans {st st' st'' : Store} (a : SameData st st') (b : SameData st' st'') :
    SameData st st'' :=
  ⟨a.staging.trans b.staging, a.files.trans b.files, a.manifest.trans b.manifest⟩

/-- A file together with its ledger row; a staging store keeps no ledger. -/
def put (p : Pandas) (h : Hashing) (d : DatasetDefinition) (value : String) (rows : List Row)
    (st : Store) : Store :=
  if st.staging then st.setFile d.id value rows
  else (st.setFile d.id value rows).setManifest d.id (d.partitionColumn.getD "") value
    (datasetPartitionManifestRow p h d.schema rows "" "")

theorem SameData.setFile {st st' : Store} (same : SameData st st') (dataset value : String)
    (rows : List Row) : SameData (st.setFile dataset value rows) (st'.setFile dataset value rows) := by
  refine ⟨same.staging, ?_, same.manifest⟩
  simp only [Store.setFile, same.files]

theorem SameData.put {st st' : Store} (same : SameData st st') (p : Pandas) (h : Hashing)
    (d : DatasetDefinition) (value : String) (rows : List Row) :
    SameData (st.put p h d value rows) (st'.put p h d value rows) := by
  unfold Store.put
  rw [same.staging]
  split
  · exact same.setFile d.id value rows
  · refine ⟨same.staging, (same.setFile d.id value rows).files, ?_⟩
    simp only [Store.setManifest, Store.setFile, same.manifest]

@[simp] theorem setFile_files_self (st : Store) (dataset value : String) (rows : List Row) :
    (st.setFile dataset value rows).files dataset value = some rows := by
  simp [setFile]

theorem setFile_files_of_ne (st : Store) {dataset value : String} (rows : List Row)
    {dataset' value' : String} (hne : ¬(dataset' = dataset ∧ value' = value)) :
    (st.setFile dataset value rows).files dataset' value' = st.files dataset' value' := by
  simp only [setFile, if_neg hne]

theorem put_files (p : Pandas) (h : Hashing) (d : DatasetDefinition) (value : String)
    (rows : List Row) (st : Store) :
    (st.put p h d value rows).files = (st.setFile d.id value rows).files := by
  unfold put
  split <;> rfl

theorem put_staging (p : Pandas) (h : Hashing) (d : DatasetDefinition) (value : String)
    (rows : List Row) (st : Store) : (st.put p h d value rows).staging = st.staging := by
  unfold put
  split <;> rfl

end Store

open Store

/-- The file can be replaced and its ledger row cannot be written. -/
def PartitionIo.LosesLedger (io : PartitionIo) (st : Store) : Prop :=
  atomicWrite io.attempts = .ok () ∧ io.ledger = false ∧ st.staging = false

theorem PartitionIo.LosesLedger.congr {io : PartitionIo} {st st' : Store}
    (hl : io.LosesLedger st) (hstaging : st.staging = st'.staging) : io.LosesLedger st' :=
  ⟨hl.1, hl.2.1, hstaging ▸ hl.2.2⟩

/-- How the write of one partition ends: `raised`, and the store it leaves.
`content` are the frames that may be stored. -/
inductive PartitionWrite (p : Pandas) (h : Hashing) (d : DatasetDefinition) (value : String)
    (io : PartitionIo) (skip : Bool) (content : Frame → Prop) (st : Store) : Bool → Store → Prop
  | raisedBefore {st' : Store} (same : SameData st st') :
      PartitionWrite p h d value io skip content st true st'
  | raisedAfter {st' : Store} (frame : Frame) (hcontent : content frame)
      (hledger : io.LosesLedger st) (same : SameData (st.setFile d.id value frame.rows) st') :
      PartitionWrite p h d value io skip content st true st'
  | skipped {st' : Store} (hskip : skip = true) (same : SameData st st') :
      PartitionWrite p h d value io skip content st false st'
  | stored {st' : Store} (frame : Frame) (hcontent : content frame)
      (same : SameData (st.put p h d value frame.rows) st') :
      PartitionWrite p h d value io skip content st false st'

def raised {α : Type} : Except StoreError α → Bool
  | .ok _ => false
  | .error _ => true

section Outcomes

variable (p : Pandas) (h : Hashing) (env : WriteEnv) (io : PartitionIo) (d : DatasetDefinition)

private theorem writePreparedDataset_outcome (df : Frame) (value : String) (skip : Bool)
    (st : Store) :
    PartitionWrite p h d value io skip (· = df) st
      (raised (writePreparedDataset p h io d df value st).1)
      (writePreparedDataset p h io d df value st).2 := by
  unfold writePreparedDataset
  simp only
  split
  case h_1 => exact .raisedBefore ⟨rfl, rfl, rfl⟩
  case h_2 hwritten =>
    unfold upsertPartitionManifestAfterWrite
    by_cases hstaging : st.staging = true
    · have hcleared : ((st.cleanupLegacyPartitions d).setFile d.id value df.rows).staging = true :=
        hstaging
      simp only [hcleared, if_true]
      refine .stored df rfl ?_
      simp only [Store.put, hstaging, if_true]
      exact ⟨rfl, rfl, rfl⟩
    · have hcleared : ¬((st.cleanupLegacyPartitions d).setFile d.id value df.rows).staging = true :=
        hstaging
      simp only [if_neg hcleared]
      by_cases hledger : io.ledger = true
      · simp only [hledger, if_true]
        refine .stored df rfl ?_
        simp only [Store.put, if_neg hstaging]
        exact ⟨rfl, rfl, rfl⟩
      · simp only [if_neg hledger]
        exact .raisedAfter df rfl ⟨hwritten, by simpa using hledger, by simpa using hstaging⟩
          ⟨rfl, rfl, rfl⟩

theorem writeDatasetUpsertPartition_outcome (df : Frame) (partition : Partition) (value : String)
    (skip : Bool) (st : Store) :
    PartitionWrite p h d value io skip
      (fun frame => ∃ fresh,
        upsertFrames p env io d df partition value skip st = .ok (fresh, some frame))
      st (raised (writeDatasetUpsertPartition p h env io d df partition value skip st).1)
      (writeDatasetUpsertPartition p h env io d df partition value skip st).2 := by
  unfold writeDatasetUpsertPartition
  split
  case h_1 => exact .raisedBefore (.refl st)
  case h_2 fresh hframes =>
    refine .skipped ?_ (.refl st)
    unfold upsertFrames at hframes
    obtain ⟨fresh', -, hframes⟩ := bind_eq_ok.mp hframes
    obtain ⟨existing, -, hframes⟩ := bind_eq_ok.mp hframes
    split at hframes
    case isTrue hskip => exact hskip.1
    case isFalse =>
      obtain ⟨combined, -, hframes⟩ := bind_eq_ok.mp hframes
      cases hframes
  case h_3 fresh combined hframes =>
    have hwrite := writePreparedDataset_outcome p h io d combined value skip st
    rcases hout : writePreparedDataset p h io d combined value st with ⟨res, st'⟩
    rw [hout] at hwrite
    cases res with
    | error e =>
      cases hwrite with
      | raisedBefore same => exact .raisedBefore same
      | raisedAfter frame hframe hledger same =>
        exact .raisedAfter frame ⟨fresh, hframe ▸ hframes⟩ hledger same
    | ok u =>
      cases hwrite with
      | skipped hskip same => exact .skipped hskip same
      | stored frame hframe same => exact .stored frame ⟨fresh, hframe ▸ hframes⟩ same

theorem writeDatasetReplace_outcome (df : Frame) (partition : Partition) (merge : Bool)
    (st : Store) :
    (∃ e, partitionValue p d partition = .error e ∧
      writeDatasetReplace p h env d df partition merge st = (.error e, st)) ∨
    ∃ value, partitionValue p d partition = .ok value ∧
      PartitionWrite p h d value (env.io 0) false
        (fun frame => replaceFrame p env d df partition value merge st = .ok frame)
        st (raised (writeDatasetReplace p h env d df partition merge st).1)
        (writeDatasetReplace p h env d df partition merge st).2 := by
  unfold writeDatasetReplace
  cases hvalue : partitionValue p d partition with
  | error e => exact Or.inl ⟨e, rfl, rfl⟩
  | ok value =>
    refine Or.inr ⟨value, rfl, ?_⟩
    simp only
    split
    case h_1 => exact .raisedBefore (.refl st)
    case h_2 incoming hframe =>
      have hwrite := writePreparedDataset_outcome p h (env.io 0) d incoming value false st
      rcases hout : writePreparedDataset p h (env.io 0) d incoming value st with ⟨res, st'⟩
      rw [hout] at hwrite
      cases res with
      | error e =>
        cases hwrite with
        | raisedBefore same => exact .raisedBefore same
        | raisedAfter frame hf hledger same => exact .raisedAfter frame (hf ▸ hframe) hledger same
      | ok u =>
        cases hwrite with
        | skipped hskip same => exact .skipped hskip same
        | stored frame hf same => exact .stored frame (hf ▸ hframe) same

end Outcomes

/-! Groups -/

section Groups

variable (p : Pandas) (h : Hashing) (env : WriteEnv) (d : DatasetDefinition) (column : String)
  (cleaned : Frame) (skip : Bool)

/-- A partition cell that is present and reads as the value. -/
def ReadsAs (v : Cell) (value : String) : Prop := v ≠ .null ∧ p.str v = value

/-- The store after a list of partitions has been put in place. -/
def putAll (written : List (String × Frame)) (st : Store) : Store :=
  written.foldl (fun st w => st.put p h d w.1 w.2.rows) st

/-- A partition whose file was replaced before its ledger row could be. -/
def setLast (last : Option (String × Frame)) (st : Store) : Store :=
  match last with
  | none => st
  | some w => st.setFile d.id w.1 w.2.rows

/-- The frame the k-th group of an upsert puts in place of the partition `value`. -/
def GroupFrame (st : Store) (k : ℕ) (g : Cell × List Row) (value : String) (frame : Frame) : Prop :=
  groupPartitionValue p d column g.1 = .ok value ∧
    ∃ fresh, upsertFrames p env (env.io k) d { cleaned with rows := g.2 }
      (some [(column, .text value)]) value skip st = .ok (fresh, some frame)

/-- The first `n` groups are written, the next one at most up to its ledger row. -/
structure GroupsWritten (st st' : Store) (k : ℕ) (gs : List (Cell × List Row)) (n : ℕ)
    (written : List (String × Frame)) (last : Option (String × Frame)) : Prop where
  frames : ∀ w ∈ written, ∃ i < n, ∃ g, gs[i]? = some g ∧
    GroupFrame p env d column cleaned skip st (k + i) g w.1 w.2
  complete : skip = false → ∀ i < n, ∀ g, gs[i]? = some g →
    ∃ w ∈ written, GroupFrame p env d column cleaned skip st (k + i) g w.1 w.2
  nodup : (written.map Prod.fst).Nodup
  untouched : ∀ w ∈ last, w.1 ∉ written.map Prod.fst
  unrecorded : ∀ w ∈ last, (env.io (k + n)).LosesLedger st ∧ ∃ g, gs[n]? = some g ∧
    GroupFrame p env d column cleaned skip st (k + n) g w.1 w.2
  data : SameData (setLast d last (putAll p h d written st)) st'

variable {p h env d column cleaned skip}

private theorem upsertFrames_congr {io : PartitionIo} {df : Frame} {partition : Partition}
    {value : String} {st st' : Store} (hfile : st.files d.id value = st'.files d.id value) :
    upsertFrames p env io d df partition value skip st =
      upsertFrames p env io d df partition value skip st' := by
  simp only [upsertFrames, readDataset, hfile]

theorem GroupFrame.congr {st st' : Store} {k : ℕ} {g : Cell × List Row} {value : String}
    {frame : Frame} (hg : GroupFrame p env d column cleaned skip st k g value frame)
    (hfile : st.files d.id value = st'.files d.id value) :
    GroupFrame p env d column cleaned skip st' k g value frame := by
  obtain ⟨hvalue, fresh, hframes⟩ := hg
  exact ⟨hvalue, fresh, by rw [← upsertFrames_congr hfile]; exact hframes⟩

private theorem putAll_sameData {st st' : Store} (same : SameData st st')
    (written : List (String × Frame)) :
    SameData (putAll p h d written st) (putAll p h d written st') := by
  unfold putAll
  induction written generalizing st st' with
  | nil => exact same
  | cons w written ih => exact ih (same.put p h d w.1 w.2.rows)

private theorem setLast_sameData {st st' : Store} (same : SameData st st')
    (last : Option (String × Frame)) : SameData (setLast d last st) (setLast d last st') := by
  cases last with
  | none => exact same
  | some w => exact same.setFile d.id w.1 w.2.rows

private theorem groupsWritten_zero {st st' : Store} {k : ℕ} {gs : List (Cell × List Row)}
    {last : Option (String × Frame)}
    (hlast : ∀ w ∈ last, (env.io (k + 0)).LosesLedger st ∧ ∃ g, gs[0]? = some g ∧
      GroupFrame p env d column cleaned skip st (k + 0) g w.1 w.2)
    (same : SameData (setLast d last st) st') :
    GroupsWritten p h env d column cleaned skip st st' k gs 0 [] last where
  frames w hw := by cases hw
  complete _ i hi := absurd hi (Nat.not_lt_zero i)
  nodup := List.nodup_nil
  untouched _ _ hmem := by cases hmem
  unrecorded := hlast
  data := same

private theorem GroupsWritten.skip_head {st st1 st' : Store} {k n : ℕ}
    {g : Cell × List Row} {gs : List (Cell × List Row)} {written : List (String × Frame)}
    {last : Option (String × Frame)} (hskip : skip = true) (same : SameData st st1)
    (hw : GroupsWritten p h env d column cleaned skip st1 st' (k + 1) gs n written last) :
    GroupsWritten p h env d column cleaned skip st st' k (g :: gs) (n + 1) written last := by
  have hfiles : ∀ value, st1.files d.id value = st.files d.id value := by
    intro value
    rw [same.files]
  have hindex : ∀ i, k + 1 + i = k + (i + 1) := by
    intro i
    omega
  refine ⟨?_, ?_, hw.nodup, hw.untouched, ?_, ?_⟩
  · intro w hmem
    obtain ⟨i, hi, g', hg', hframe⟩ := hw.frames w hmem
    refine ⟨i + 1, by omega, g', hg', ?_⟩
    rw [← hindex]
    exact hframe.congr (hfiles w.1)
  · intro hno
    rw [hskip] at hno
    cases hno
  · intro w hmem
    obtain ⟨hledger, g', hg', hframe⟩ := hw.unrecorded w hmem
    rw [hindex] at hledger hframe
    exact ⟨hledger.congr same.staging.symm, g', hg', hframe.congr (hfiles w.1)⟩
  · exact (setLast_sameData (putAll_sameData same written) last).trans hw.data

private theorem GroupsWritten.store_head {st st1 st' : Store} {k n : ℕ}
    {g : Cell × List Row} {gs : List (Cell × List Row)} {written : List (String × Frame)}
    {last : Option (String × Frame)} {value : String} {frame : Frame}
    (hhead : GroupFrame p env d column cleaned skip st k g value frame)
    (same : SameData (st.put p h d value frame.rows) st1)
    (hother : ∀ i g' value' frame', gs[i]? = some g' →
      GroupFrame p env d column cleaned skip st1 (k + 1 + i) g' value' frame' → value' ≠ value)
    (hw : GroupsWritten p h env d column cleaned skip st1 st' (k + 1) gs n written last) :
    GroupsWritten p h env d column cleaned skip st st' k (g :: gs) (n + 1)
      ((value, frame) :: written) last := by
  have hfiles : ∀ value', value' ≠ value → st1.files d.id value' = st.files d.id value' := by
    intro value' hne
    rw [← same.files, Store.put_files]
    exact Store.setFile_files_of_ne st frame.rows fun heq => hne heq.2
  have hindex : ∀ i, k + 1 + i = k + (i + 1) := by
    intro i
    omega
  refine ⟨?_, ?_, ?_, ?_, ?_, ?_⟩
  · intro w hmem
    rcases List.mem_cons.mp hmem with rfl | hmem
    · exact ⟨0, by omega, g, rfl, hhead⟩
    · obtain ⟨i, hi, g', hg', hframe⟩ := hw.frames w hmem
      have hne : w.1 ≠ value := hother i g' w.1 w.2 hg' hframe
      refine ⟨i + 1, by omega, g', hg', ?_⟩
      rw [← hindex]
      exact hframe.congr (hfiles w.1 hne)
  · intro hno i hi g' hg'
    cases i with
    | zero =>
      obtain rfl : g = g' := by simpa using hg'
      exact ⟨(value, frame), List.mem_cons_self, hhead⟩
    | succ i =>
      obtain ⟨w, hmem, hframe⟩ := hw.complete hno i (by omega) g' hg'
      have hne : w.1 ≠ value := hother i g' w.1 w.2 hg' hframe
      refine ⟨w, List.mem_cons_of_mem _ hmem, ?_⟩
      rw [← hindex]
      exact hframe.congr (hfiles w.1 hne)
  · rw [List.map_cons, List.nodup_cons]
    refine ⟨?_, hw.nodup⟩
    intro hmem
    obtain ⟨w, hw', heq⟩ := List.mem_map.mp hmem
    obtain ⟨i, -, g', hg', hframe⟩ := hw.frames w hw'
    exact hother i g' w.1 w.2 hg' hframe heq
  · intro w hmem hin
    obtain ⟨-, g', hg', hframe⟩ := hw.unrecorded w hmem
    rw [List.map_cons, List.mem_cons] at hin
    rcases hin with heq | hin
    · exact hother n g' w.1 w.2 hg' hframe heq
    · exact hw.untouched w hmem hin
  · intro w hmem
    obtain ⟨hledger, g', hg', hframe⟩ := hw.unrecorded w hmem
    have hne : w.1 ≠ value := hother n g' w.1 w.2 hg' hframe
    rw [hindex] at hledger hframe
    have hstaging : st1.staging = st.staging := same.staging.symm.trans (Store.put_staging ..)
    exact ⟨hledger.congr hstaging, g', hg', hframe.congr (hfiles w.1 hne)⟩
  · exact (setLast_sameData (putAll_sameData same written) last).trans hw.data

/-- A call without a partition writes a prefix of its groups, all of them when it returns. -/
private theorem writeGroups_spec (gs : List (Cell × List Row))
    (hvalue : ∀ g ∈ gs, ∀ k st value frame,
      GroupFrame p env d column cleaned skip st k g value frame → ReadsAs p g.1 value)
    (hdistinct : gs.Pairwise fun g g' => ∀ value, ReadsAs p g.1 value → ¬ReadsAs p g'.1 value)
    (k : ℕ) (total : DatasetWriteResult) (st : Store) :
    ∃ n written last,
      GroupsWritten p h env d column cleaned skip st
        (writeGroups p h env d column cleaned skip k gs total st).2 k gs n written last ∧
      (raised (writeGroups p h env d column cleaned skip k gs total st).1 = false →
        n = gs.length ∧ last = none) ∧
      (raised (writeGroups p h env d column cleaned skip k gs total st).1 = true →
        n < gs.length) := by
  induction gs generalizing k total st with
  | nil =>
    refine ⟨0, [], none, groupsWritten_zero ?_ (.refl st), fun _ => ⟨rfl, rfl⟩, ?_⟩
    · intro w hw
      cases hw
    · intro hraised
      cases hraised
  | cons g gs ih =>
    obtain ⟨v, rows⟩ := g
    have hstop : ∀ w ∈ (none : Option (String × Frame)), (env.io (k + 0)).LosesLedger st ∧
        ∃ g, ((v, rows) :: gs)[0]? = some g ∧
          GroupFrame p env d column cleaned skip st (k + 0) g w.1 w.2 := by
      intro w hw
      cases hw
    cases hgroup : groupPartitionValue p d column v with
    | error e =>
      simp only [writeGroups, hgroup]
      exact ⟨0, [], none, groupsWritten_zero hstop (.refl st), (fun hno => by cases hno),
        fun _ => by simp⟩
    | ok value =>
      have hwrite := writeDatasetUpsertPartition_outcome p h env (env.io k) d
        { cleaned with rows := rows } (some [(column, .text value)]) value skip st
      simp only [writeGroups, hgroup]
      rcases hout : writeDatasetUpsertPartition p h env (env.io k) d
        { cleaned with rows := rows } (some [(column, .text value)]) value skip st with ⟨res, st1⟩
      rw [hout] at hwrite
      cases res with
      | error e =>
        simp only
        cases hwrite with
        | raisedBefore same =>
          exact ⟨0, [], none, groupsWritten_zero hstop same, (fun hno => by cases hno),
            fun _ => by simp⟩
        | raisedAfter frame hframe hledger same =>
          refine ⟨0, [], some (value, frame), groupsWritten_zero ?_ same,
            (fun hno => by cases hno), fun _ => by simp⟩
          intro w hw
          cases hw
          exact ⟨hledger, (v, rows), rfl, hgroup, hframe⟩
      | ok result =>
        simp only
        obtain ⟨hhead, htail⟩ := List.pairwise_cons.mp hdistinct
        have hvalue' : ∀ g ∈ gs, ∀ k st value frame,
            GroupFrame p env d column cleaned skip st k g value frame → ReadsAs p g.1 value :=
          fun g hg => hvalue g (List.mem_cons_of_mem _ hg)
        obtain ⟨n, written, last, hw, hfalse, htrue⟩ := ih hvalue' htail (k + 1)
          ⟨total.paths ++ result.paths, total.rowCount + result.rowCount,
            total.updatedPartitions + result.updatedPartitions,
            total.skippedPartitions + result.skippedPartitions⟩ st1
        have hfalse' := fun hno => (hfalse hno).imp_left fun hn => congrArg (· + 1) hn
        have htrue' := fun hyes => Nat.succ_lt_succ (htrue hyes)
        cases hwrite with
        | skipped hskip same =>
          exact ⟨n + 1, written, last, hw.skip_head hskip same, hfalse', htrue'⟩
        | stored frame hframe same =>
          have hgf : GroupFrame p env d column cleaned skip st k (v, rows) value frame :=
            ⟨hgroup, hframe⟩
          refine ⟨n + 1, (value, frame) :: written, last, hw.store_head hgf same ?_, hfalse',
            htrue'⟩
          intro i g' value' frame' hg' hframe' heq
          have hmem : g' ∈ gs := List.mem_of_getElem? hg'
          have hv : ReadsAs p v value := hvalue (v, rows) List.mem_cons_self k st value frame hgf
          have hv' : ReadsAs p g'.1 value' := hvalue' g' hmem _ st1 value' frame' hframe'
          exact hhead g' hmem value hv (heq ▸ hv')

/-! The groups of a prepared frame -/

private theorem normalizePartitionValue_text {column : String} {c : Cell} {value : String}
    (hvalue : normalizePartitionValue p d column c = .ok value) :
    normalizePartitionValue p d column (.text value) = .ok value := by
  have htext : p.str (.text value) = value := rfl
  by_cases hakshare : column = "code" ∧ d.codeFormat = .sixDigit
  · simp only [normalizePartitionValue, if_pos hakshare] at hvalue ⊢
    cases c with
    | null => cases hvalue
    | _ =>
      simp only [aksharePartitionCode] at hvalue
      split at hvalue
      case isTrue hdigits =>
        obtain rfl := Except.ok.inj hvalue
        simp only [aksharePartitionCode, htext, strip_strip]
        exact if_pos hdigits
      case isFalse => cases hvalue
  · simp only [normalizePartitionValue, if_neg hakshare] at hvalue ⊢
    cases c with
    | null => cases hvalue
    | _ =>
      simp only at hvalue
      split at hvalue
      case isTrue => cases hvalue
      case isFalse hne =>
        obtain rfl := Except.ok.inj hvalue
        simp only [htext, strip_strip]
        exact if_neg hne

theorem groupPartitionValue_text (hcolumn : d.partitionColumn = some column) {v : Cell}
    {value : String} (hvalue : groupPartitionValue p d column v = .ok value) :
    partitionValue p d (some [(column, .text value)]) = .ok value := by
  unfold groupPartitionValue at hvalue
  split at hvalue
  case isTrue => cases hvalue
  case isFalse =>
    simp only [partitionValue, hcolumn, if_true]
    exact normalizePartitionValue_text hvalue

theorem groupFrame_readsAs (wf : d.WellFormed) (hcolumn : d.partitionColumn = some column)
    (hcolumns : cleaned.columns = fieldNames d.schema)
    (hsettled : ∀ r ∈ cleaned.rows, Settled p d r) {st : Store} {k : ℕ} {g : Cell × List Row}
    (hg : g ∈ groupRows column cleaned.rows) {value : String} {frame : Frame}
    (hframe : GroupFrame p env d column cleaned skip st k g value frame) :
    ReadsAs p g.1 value ∧ ∀ r ∈ g.2, Settled p d r ∧ InPartition p d value r := by
  obtain ⟨v, rows⟩ := g
  obtain ⟨hv, hrows⟩ := mem_groups.mp hg
  obtain ⟨hvalue, fresh, hframes⟩ := hframe
  have hin : ∀ r ∈ rows, Settled p d r ∧ r column = v := by
    intro r hr
    rw [hrows] at hr
    obtain ⟨hmem, hcell⟩ := List.mem_filter.mp hr
    exact ⟨hsettled r hmem, of_decide_eq_true hcell⟩
  unfold upsertFrames at hframes
  obtain ⟨fresh', hprepare, -⟩ := bind_eq_ok.mp hframes
  obtain ⟨fixed, hfixed, hcheck, -⟩ := prepareDatasetFrame_rows wf hprepare
  let df : Frame := { cleaned with rows := rows }
  obtain ⟨dtype, hsame⟩ : ∃ dtype, coercedFrame p d df = .ok ⟨fieldNames d.schema, dtype, rows⟩ :=
    coercedFrame_of_settled wf hcolumns fun r hr => (hin r hr).1
  rw [hsame] at hfixed
  obtain rfl := Except.ok.inj hfixed
  have hall := (checkPartition_eq_ok (groupPartitionValue_text hcolumn hvalue)).mp
    (hcheck (group_ne_nil hg))
  refine ⟨?_, fun r hr => ⟨(hin r hr).1, hall r hr⟩⟩
  obtain ⟨r, hr⟩ := List.exists_mem_of_ne_nil rows (group_ne_nil hg)
  have hr' := hall r hr column (by rw [hcolumn]; rfl)
  rw [(hin r hr).2] at hr'
  exact hr'

theorem readsAs_injective (wf : d.WellFormed) (hcolumn : d.partitionColumn = some column)
    {r r' : Row} (hr : Settled p d r) (hr' : Settled p d r') {value : String}
    (h : ReadsAs p (r column) value) (h' : ReadsAs p (r' column) value) :
    r column = r' column := by
  have hstr : p.str (r column) = p.str (r' column) := h.2.trans h'.2.symm
  rcases wf.partition_type column (by rw [hcolumn]; rfl) with htype | htype
  · have ha := hr.accepts _ htype
    have ha' := hr'.accepts _ htype
    have hne := h.1
    have hne' := h'.1
    revert ha ha' hstr hne hne'
    cases r column <;> cases r' column <;> simp [FieldType.accepts, Pandas.str]
  · have ha := hr.accepts _ htype
    have ha' := hr'.accepts _ htype
    have hne := h.1
    have hne' := h'.1
    revert ha ha' hstr hne hne'
    cases r column <;> cases r' column <;> simp [FieldType.accepts, Pandas.str]
    case date.date day day' => exact fun heq => p.repr_date_injective heq

private theorem groupRows_distinct (wf : d.WellFormed) (hcolumn : d.partitionColumn = some column)
    {rows : List Row} (hsettled : ∀ r ∈ rows, Settled p d r) :
    (groupRows column rows).Pairwise
      fun g g' => ∀ value, ReadsAs p g.1 value → ¬ReadsAs p g'.1 value := by
  have hnodup := List.pairwise_map.mp (nodup_groups (fun r : Row => r column) rows)
  refine hnodup.imp_of_mem ?_
  intro g g' hg hg' hne value hv hv'
  obtain ⟨hmem, -⟩ := mem_groups.mp (show (g.1, g.2) ∈ groups _ rows from hg)
  obtain ⟨hmem', -⟩ := mem_groups.mp (show (g'.1, g'.2) ∈ groups _ rows from hg')
  obtain ⟨r, hr, heq⟩ := List.mem_map.mp hmem
  obtain ⟨r', hr', heq'⟩ := List.mem_map.mp hmem'
  rw [← heq] at hv
  rw [← heq'] at hv'
  apply hne
  rw [← heq, ← heq']
  exact readsAs_injective wf hcolumn (hsettled r hr) (hsettled r' hr') hv hv'

end Groups

/-! Whole calls -/

/-- An upsert of a partitioned dataset without a partition. -/
def SpansPartitions (d : DatasetDefinition) (partition : Partition) (mode : WriteMode) : Prop :=
  mode = .upsert ∧ d.partitionColumn ≠ none ∧ partition = none

/-- The complete new content of a partition that the k-th write of the call puts in place. -/
inductive Planned (p : Pandas) (env : WriteEnv) (d : DatasetDefinition) (df : Frame)
    (partition : Partition) (mode : WriteMode) (skip : Bool) (st : Store) :
    ℕ → String → Frame → Prop
  | replace {value : String} {frame : Frame} (hmode : mode ≠ .upsert)
      (hvalue : partitionValue p d partition = .ok value)
      (hframe : replaceFrame p env d df partition value (mode = .merge) st = .ok frame) :
      Planned p env d df partition mode skip st 0 value frame
  | upsert {value : String} {fresh frame : Frame} (hmode : mode = .upsert)
      (hvalue : partitionValue p d partition = .ok value)
      (hframe : upsertFrames p env (env.io 0) d df partition value skip st =
        .ok (fresh, some frame)) :
      Planned p env d df partition mode skip st 0 value frame
  | group {column value : String} {cleaned frame : Frame} {k : ℕ} {g : Cell × List Row}
      (hspans : SpansPartitions d partition mode) (hcolumn : d.partitionColumn = some column)
      (hdf : ¬(df.rows = [] ∨ df.columns = []))
      (hcleaned : prepareDatasetFrame p env d df none true = .ok cleaned)
      (hgroup : (groupRows column cleaned.rows)[k]? = some g)
      (hframe : GroupFrame p env d column cleaned skip st k g value frame) :
      Planned p env d df partition mode skip st k value frame

/-- How many partitions a call that returns has been through. -/
def writeCount (p : Pandas) (env : WriteEnv) (d : DatasetDefinition) (df : Frame)
    (partition : Partition) (mode : WriteMode) : ℕ :=
  match mode, d.partitionColumn, partition with
  | .upsert, some column, none =>
    if df.rows = [] ∨ df.columns = [] then 0
    else match prepareDatasetFrame p env d df none true with
      | .error _ => 0
      | .ok cleaned => (groupRows column cleaned.rows).length
  | _, _, _ => 1

/-- The first `n` partitions of the call are written, with their ledger rows; the
next one is as it was, or replaced without its ledger row; the rest is as it was.
A call that raises has written none if it is about one partition, a call that
returns has written all. -/
structure WriteEnded (p : Pandas) (h : Hashing) (env : WriteEnv) (d : DatasetDefinition)
    (df : Frame) (partition : Partition) (mode : WriteMode) (skip : Bool) (st st' : Store)
    (stopped : Bool) (n : ℕ) (written : List (String × Frame)) (last : Option (String × Frame)) :
    Prop where
  whole : ∀ value, st'.files d.id value = st.files d.id value ∨
    ∃ k frame, Planned p env d df partition mode skip st k value frame ∧
      st'.files d.id value = some frame.rows
  written_planned : ∀ w ∈ written, ∃ k < n, Planned p env d df partition mode skip st k w.1 w.2
  planned_written : skip = false → ∀ k < n, ∃ w ∈ written,
    Planned p env d df partition mode skip st k w.1 w.2
  distinct : (written.map Prod.fst).Nodup
  untouched : ∀ w ∈ last, w.1 ∉ written.map Prod.fst
  unrecorded : ∀ w ∈ last, (env.io n).LosesLedger st ∧
    Planned p env d df partition mode skip st n w.1 w.2
  single : stopped = true → ¬SpansPartitions d partition mode → n = 0 ∧ written = []
  finished : stopped = false → last = none ∧ n = writeCount p env d df partition mode
  data : SameData (setLast d last (putAll p h d written st)) st'

section Ended

variable {p : Pandas} {h : Hashing} {env : WriteEnv} {d : DatasetDefinition} {df : Frame}
  {partition : Partition} {mode : WriteMode} {skip : Bool}

theorem putAll_files_of_not_mem {written : List (String × Frame)} {value : String}
    (hvalue : value ∉ written.map Prod.fst) {st : Store} :
    (putAll p h d written st).files d.id value = st.files d.id value := by
  induction written generalizing st with
  | nil => rfl
  | cons w written ih =>
    rw [List.map_cons, List.mem_cons, not_or] at hvalue
    show (putAll p h d written (st.put p h d w.1 w.2.rows)).files d.id value = _
    rw [ih hvalue.2, Store.put_files]
    exact Store.setFile_files_of_ne st w.2.rows fun heq => hvalue.1 heq.2

theorem putAll_files_of_mem {written : List (String × Frame)}
    (hdistinct : (written.map Prod.fst).Nodup) {w : String × Frame} (hw : w ∈ written)
    {st : Store} : (putAll p h d written st).files d.id w.1 = some w.2.rows := by
  induction written generalizing st with
  | nil => cases hw
  | cons w' written ih =>
    rw [List.map_cons, List.nodup_cons] at hdistinct
    show (putAll p h d written (st.put p h d w'.1 w'.2.rows)).files d.id w.1 = some w.2.rows
    rcases List.mem_cons.mp hw with rfl | hmem
    · rw [putAll_files_of_not_mem hdistinct.1, Store.put_files]
      exact Store.setFile_files_self ..
    · exact ih hdistinct.2 hmem

private theorem putAll_whole {value : String} (written : List (String × Frame)) (st : Store) :
    (putAll p h d written st).files d.id value = st.files d.id value ∨
      ∃ w ∈ written, w.1 = value ∧ (putAll p h d written st).files d.id value = some w.2.rows := by
  unfold putAll
  induction written generalizing st with
  | nil => exact Or.inl rfl
  | cons w written ih =>
    rw [List.foldl_cons]
    rcases ih (st.put p h d w.1 w.2.rows) with hsame | ⟨w', hw', hvalue, hfile⟩
    · by_cases hw : w.1 = value
      · refine Or.inr ⟨w, List.mem_cons_self, hw, ?_⟩
        rw [hsame, Store.put_files, hw]
        exact Store.setFile_files_self ..
      · refine Or.inl ?_
        rw [hsame, Store.put_files]
        exact Store.setFile_files_of_ne st w.2.rows fun heq => hw heq.2.symm
    · exact Or.inr ⟨w', List.mem_cons_of_mem _ hw', hvalue, hfile⟩

private theorem whole_of_data {st st' : Store} {written : List (String × Frame)}
    {last : Option (String × Frame)}
    (hplanned : ∀ w, w ∈ written ∨ w ∈ last →
      ∃ k, Planned p env d df partition mode skip st k w.1 w.2)
    (data : SameData (setLast d last (putAll p h d written st)) st') (value : String) :
    st'.files d.id value = st.files d.id value ∨
      ∃ k frame, Planned p env d df partition mode skip st k value frame ∧
        st'.files d.id value = some frame.rows := by
  rw [← data.files]
  have hput : (putAll p h d written st).files d.id value = st.files d.id value ∨
      ∃ k frame, Planned p env d df partition mode skip st k value frame ∧
        (putAll p h d written st).files d.id value = some frame.rows := by
    have hputs : (putAll p h d written st).files d.id value = st.files d.id value ∨
        ∃ w ∈ written, w.1 = value ∧
          (putAll p h d written st).files d.id value = some w.2.rows := putAll_whole written st
    rcases hputs with hsame | ⟨w, hw, rfl, hfile⟩
    · exact Or.inl hsame
    · obtain ⟨k, hk⟩ := hplanned w (Or.inl hw)
      exact Or.inr ⟨k, w.2, hk, hfile⟩
  cases last with
  | none => exact hput
  | some w =>
    by_cases hw : w.1 = value
    · obtain ⟨k, hk⟩ := hplanned w (Or.inr rfl)
      subst hw
      exact Or.inr ⟨k, w.2, hk, Store.setFile_files_self ..⟩
    · have hother : (setLast d (some w) (putAll p h d written st)).files d.id value =
          (putAll p h d written st).files d.id value :=
        Store.setFile_files_of_ne _ w.2.rows fun heq => hw heq.2.symm
      rw [hother]
      exact hput

private theorem writeEnded_of_data {st st' : Store} {stopped : Bool} {n : ℕ}
    {written : List (String × Frame)} {last : Option (String × Frame)}
    (hwritten : ∀ w ∈ written, ∃ k < n, Planned p env d df partition mode skip st k w.1 w.2)
    (hplanned : skip = false → ∀ k < n, ∃ w ∈ written,
      Planned p env d df partition mode skip st k w.1 w.2)
    (distinct : (written.map Prod.fst).Nodup)
    (untouched : ∀ w ∈ last, w.1 ∉ written.map Prod.fst)
    (hlast : ∀ w ∈ last, (env.io n).LosesLedger st ∧
      Planned p env d df partition mode skip st n w.1 w.2)
    (single : stopped = true → ¬SpansPartitions d partition mode → n = 0 ∧ written = [])
    (finished : stopped = false → last = none ∧ n = writeCount p env d df partition mode)
    (data : SameData (setLast d last (putAll p h d written st)) st') :
    WriteEnded p h env d df partition mode skip st st' stopped n written last := by
  refine ⟨whole_of_data ?_ data, hwritten, hplanned, distinct, untouched, hlast, single, finished,
    data⟩
  intro w hw
  rcases hw with hw | hw
  · obtain ⟨k, -, hk⟩ := hwritten w hw
    exact ⟨k, hk⟩
  · exact ⟨n, (hlast w hw).2⟩

private theorem writeEnded_refl (st : Store) {stopped : Bool}
    (hnone : stopped = false → writeCount p env d df partition mode = 0) :
    WriteEnded p h env d df partition mode skip st st stopped 0 [] none := by
  refine writeEnded_of_data ?_ ?_ List.nodup_nil (fun _ _ hmem => by cases hmem) ?_
    (fun _ _ => ⟨rfl, rfl⟩) ?_ (.refl st)
  · intro w hw
    cases hw
  · intro _ k hk
    exact absurd hk (Nat.not_lt_zero k)
  · intro w hw
    cases hw
  · intro hstopped
    exact ⟨rfl, (hnone hstopped).symm⟩

theorem writeCount_single (hspans : ¬SpansPartitions d partition mode) :
    writeCount p env d df partition mode = 1 := by
  unfold writeCount
  split
  case h_1 column hcolumn => exact absurd ⟨rfl, by rw [hcolumn]; simp, rfl⟩ hspans
  case h_2 => rfl

/-- The one partition of a call: written, or replaced at most up to its ledger row. -/
private theorem writeEnded_of_partition {value : String} {content : Frame → Prop}
    {skip' stopped : Bool} {st st' : Store} (hspans : ¬SpansPartitions d partition mode)
    (hskip : skip' = true → skip = true)
    (hplanned : ∀ frame, content frame →
      Planned p env d df partition mode skip st 0 value frame)
    (hwrite : PartitionWrite p h d value (env.io 0) skip' content st stopped st') :
    ∃ n written last,
      WriteEnded p h env d df partition mode skip st st' stopped n written last := by
  have hnil : ∀ n, ∀ w ∈ ([] : List (String × Frame)), ∃ k < n,
      Planned p env d df partition mode skip st k w.1 w.2 := fun n w hw => by cases hw
  have hzero : skip = false → ∀ k < 0, ∃ w ∈ ([] : List (String × Frame)),
      Planned p env d df partition mode skip st k w.1 w.2 :=
    fun _ k hk => absurd hk (Nat.not_lt_zero k)
  have hone : 1 = writeCount p env d df partition mode := (writeCount_single hspans).symm
  cases hwrite with
  | raisedBefore same =>
    refine ⟨0, [], none, writeEnded_of_data (hnil 0) hzero List.nodup_nil
      (fun _ _ hmem => by cases hmem) ?_ (fun _ _ => ⟨rfl, rfl⟩) (fun h => by cases h) same⟩
    intro w hw
    cases hw
  | raisedAfter frame hcontent hledger same =>
    refine ⟨0, [], some (value, frame), writeEnded_of_data (hnil 0) hzero List.nodup_nil
      (fun _ _ hmem => by cases hmem) ?_ (fun _ _ => ⟨rfl, rfl⟩) (fun h => by cases h) same⟩
    intro w hw
    cases hw
    exact ⟨hledger, hplanned frame hcontent⟩
  | skipped hyes same =>
    refine ⟨1, [], none, writeEnded_of_data (hnil 1) ?_ List.nodup_nil
      (fun _ _ hmem => by cases hmem) ?_ (fun h => by cases h) (fun _ => ⟨rfl, hone⟩) same⟩
    · intro hno
      rw [hskip hyes] at hno
      cases hno
    · intro w hw
      cases hw
  | stored frame hcontent same =>
    refine ⟨1, [(value, frame)], none, writeEnded_of_data ?_ ?_ (List.nodup_singleton _)
      (fun _ hmem => by cases hmem) ?_ (fun h => by cases h) (fun _ => ⟨rfl, hone⟩) same⟩
    · intro w hw
      rw [List.mem_singleton.mp hw]
      exact ⟨0, Nat.one_pos, hplanned frame hcontent⟩
    · intro _ k hk
      obtain rfl : k = 0 := by omega
      exact ⟨(value, frame), List.mem_cons_self, hplanned frame hcontent⟩
    · intro w hw
      cases hw

theorem writeDatasetUpsert_single {st : Store} (hspans : ¬SpansPartitions d partition .upsert) :
    writeDatasetUpsert p h env d df partition skip st =
      match partitionValue p d partition with
      | .error e => (.error e, st)
      | .ok value =>
        writeDatasetUpsertPartition p h env (env.io 0) d df partition value skip st := by
  unfold writeDatasetUpsert
  split
  case h_1 column hcolumn => exact absurd ⟨rfl, by rw [hcolumn]; simp, rfl⟩ hspans
  case h_2 => rfl

theorem writeDatasetUpsert_ended (wf : d.WellFormed) (st : Store) :
    ∃ n written last, WriteEnded p h env d df partition .upsert skip st
      (writeDatasetUpsert p h env d df partition skip st).2
      (raised (writeDatasetUpsert p h env d df partition skip st).1) n written last := by
  by_cases hspans : SpansPartitions d partition .upsert
  · obtain ⟨-, hcolumn, hpartition⟩ := id hspans
    obtain ⟨column, hcolumn⟩ := Option.ne_none_iff_exists'.mp hcolumn
    subst hpartition
    simp only [writeDatasetUpsert, hcolumn]
    split
    case isTrue hdf =>
      refine ⟨0, [], none, writeEnded_refl st fun _ => ?_⟩
      simp only [writeCount, hcolumn, if_pos hdf]
    case isFalse hdf =>
      cases hprepare : prepareDatasetFrame p env d df none true with
      | error e => exact ⟨0, [], none, writeEnded_refl st fun h => by cases h⟩
      | ok cleaned =>
        simp only
        obtain ⟨fixed, -, -, -, -, hcolumns, hsettled⟩ := prepareDatasetFrame_rows wf hprepare
        obtain ⟨n, written, last, hw, hdone, hlt⟩ := writeGroups_spec
          (groupRows column cleaned.rows)
          (fun g hg k st value frame hframe =>
            (groupFrame_readsAs wf hcolumn hcolumns hsettled hg hframe).1)
          (groupRows_distinct wf hcolumn hsettled) 0 ⟨[], 0, 0, 0⟩ st
        have hplan : ∀ k g value frame, (groupRows column cleaned.rows)[k]? = some g →
            GroupFrame p env d column cleaned skip st (0 + k) g value frame →
            Planned p env d df none .upsert skip st k value frame := by
          intro k g value frame hg hframe
          rw [Nat.zero_add] at hframe
          exact .group hspans hcolumn hdf hprepare hg hframe
        have hle : n ≤ (groupRows column cleaned.rows).length := by
          cases hres : raised (writeGroups p h env d column cleaned skip 0
            (groupRows column cleaned.rows) ⟨[], 0, 0, 0⟩ st).1 with
          | false => exact (hdone hres).1.le
          | true => exact (hlt hres).le
        refine ⟨n, written, last, writeEnded_of_data ?_ ?_ hw.nodup hw.untouched ?_ ?_ ?_ hw.data⟩
        · intro w hmem
          obtain ⟨k, hk, g, hg, hframe⟩ := hw.frames w hmem
          exact ⟨k, hk, hplan k g w.1 w.2 hg hframe⟩
        · intro hskip k hk
          have hget := List.getElem?_eq_getElem (lt_of_lt_of_le hk hle)
          obtain ⟨w, hmem, hframe⟩ := hw.complete hskip k hk _ hget
          exact ⟨w, hmem, hplan k _ w.1 w.2 hget hframe⟩
        · intro w hmem
          obtain ⟨hledger, g, hg, hframe⟩ := hw.unrecorded w hmem
          rw [Nat.zero_add] at hledger
          exact ⟨hledger, hplan n g w.1 w.2 hg hframe⟩
        · intro _ hnot
          exact absurd hspans hnot
        · intro hres
          obtain ⟨hn, hlast⟩ := hdone hres
          refine ⟨hlast, ?_⟩
          simp only [writeCount, hcolumn, if_neg hdf, hprepare]
          exact hn
  · rw [writeDatasetUpsert_single hspans]
    cases hvalue : partitionValue p d partition with
    | error e => exact ⟨0, [], none, writeEnded_refl st fun h => by cases h⟩
    | ok value =>
      exact writeEnded_of_partition hspans id
        (fun frame ⟨fresh, hframe⟩ => .upsert rfl hvalue hframe)
        (writeDatasetUpsertPartition_outcome p h env (env.io 0) d df partition value skip st)

private theorem writeDatasetReplace_ended (mode : WriteMode) (hmode : mode ≠ .upsert)
    (st : Store) :
    ∃ n written last, WriteEnded p h env d df partition mode skip st
      (writeDatasetReplace p h env d df partition (mode = .merge) st).2
      (raised (writeDatasetReplace p h env d df partition (mode = .merge) st).1)
      n written last := by
  rcases writeDatasetReplace_outcome p h env d df partition (mode = .merge) st with
    ⟨e, -, hout⟩ | ⟨value, hvalue, hwrite⟩
  · rw [hout]
    exact ⟨0, [], none, writeEnded_refl st fun h => by cases h⟩
  · exact writeEnded_of_partition (fun hspans => hmode hspans.1) (fun h => by cases h)
      (fun frame hframe => .replace hmode hvalue hframe) hwrite

theorem mem_datasetCatalog {dataset : String} {d : DatasetDefinition}
    (hd : datasetDefinition dataset = .ok d) : d ∈ datasetCatalog ∧ d.id = dataset := by
  unfold datasetDefinition at hd
  split at hd
  case h_1 d' hfind =>
    obtain rfl := Except.ok.inj hd
    exact ⟨List.mem_of_find?_eq_some hfind, by simpa using List.find?_some hfind⟩
  case h_2 => cases hd

theorem writeDataset_ended (p : Pandas) (h : Hashing) (env : WriteEnv) {dataset : String}
    {d : DatasetDefinition} (hd : datasetDefinition dataset = .ok d) (df : Frame)
    (partition : Partition) (mode : Option WriteMode) (skip : Bool) (st : Store) :
    ∃ n written last,
      WriteEnded p h env d df partition (mode.getD d.defaultWriteMode) skip st
        (writeDataset p h env dataset df partition mode skip st).2
        (raised (writeDataset p h env dataset df partition mode skip st).1) n written last := by
  have wf : d.WellFormed := wellFormed_of_mem (mem_datasetCatalog hd).1
  simp only [writeDataset, hd]
  split
  case isTrue => exact ⟨0, [], none, writeEnded_refl st fun h => by cases h⟩
  case isFalse =>
    cases mode.getD d.defaultWriteMode with
    | upsert => exact writeDatasetUpsert_ended wf st
    | merge => simpa using writeDatasetReplace_ended .merge (by decide) st
    | replace => simpa using writeDatasetReplace_ended .replace (by decide) st

end Ended

end QuantDataCenter.Storage
