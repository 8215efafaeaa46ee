import QuantDataCenter.Derived.TargetBuilds

/-!
What the steps of a build leave as it was, and when the partition of a security is up to date: its
ledger row carries the signature over the ledger rows of its sources.
-/

set_option autoImplicit false
set_option relaxedAutoImplicit false

namespace QuantDataCenter.Derived

open QuantDataCenter.Lib.Checked QuantDataCenter.Tabular QuantDataCenter.Storage
open QuantDataCenter.Derived.Commit

/-- The dataset is partitioned by code, as the sources are. -/
def ByCode (dataset : String) : Prop :=
  ∃ d, datasetDefinition dataset = .ok d ∧ d.partitionColumn = some "code"

/-- Only the touched partitions may change; elsewhere a source may get the ledger row it lacks. -/
structure Keeps (touched : String → String → Prop) (st st' : Store) : Prop where
  staging : st'.staging = st.staging
  files : ∀ dataset value, ¬touched dataset value → st'.files dataset value = st.files dataset value
  rows : ∀ dataset column value, ¬touched dataset value →
    st'.manifest dataset column value = st.manifest dataset column value ∨
      st.manifest dataset column value = none ∧ ByCode dataset

def Untouched : String → String → Prop := fun _ _ => False

section Keeping

variable {touched : String → String → Prop} {st st' st'' : Store}

theorem Keeps.refl (st : Store) : Keeps touched st st :=
  ⟨rfl, fun _ _ _ => rfl, fun _ _ _ _ => Or.inl rfl⟩

theorem Keeps.trans (a : Keeps touched st st') (b : Keeps touched st' st'') :
    Keeps touched st st'' where
  staging := b.staging.trans a.staging
  files dataset value hne := (b.files dataset value hne).trans (a.files dataset value hne)
  rows dataset column value hne := by
    rcases a.rows dataset column value hne with hsame | hadded
    · rw [← hsame]
      exact b.rows dataset column value hne
    · exact Or.inr hadded

theorem Keeps.mono {more : String → String → Prop} (a : Keeps touched st st')
    (hmore : ∀ dataset value, touched dataset value → more dataset value) : Keeps more st st' where
  staging := a.staging
  files dataset value hne := a.files dataset value fun ht => hne (hmore dataset value ht)
  rows dataset column value hne := a.rows dataset column value fun ht => hne (hmore dataset value ht)

theorem Keeps.untouched (a : Keeps Untouched st st') : Keeps touched st st' :=
  a.mono fun _ _ => False.elim

theorem Keeps.ledgerRow {d : DatasetDefinition} {value : String} {row : ManifestRow}
    (a : Keeps touched st st') (hne : ¬touched d.id value)
    (hrow : Storage.ledgerRow st d value = some row) :
    Storage.ledgerRow st' d value = some row := by
  rcases a.rows d.id d.ledgerColumn value hne with hsame | ⟨hnone, -⟩
  · exact hsame.trans hrow
  · exact absurd (hnone.symm.trans hrow) (by simp)

/-- A canonical dataset gets no ledger row on the side. -/
theorem Keeps.ledgerRow_eq {d : DatasetDefinition} {value : String} (a : Keeps touched st st')
    (hd : ¬ByCode d.id) (hne : ¬touched d.id value) :
    Storage.ledgerRow st' d value = Storage.ledgerRow st d value :=
  (a.rows d.id d.ledgerColumn value hne).resolve_right fun hadded => hd hadded.2

end Keeping

/-! Sources -/

/-- A partition of a source, named by a code without blanks around it. -/
def CodePartition (pair : SourcePartition) : Prop := strip pair.2 = pair.2 ∧ ByCode pair.1

/-- The sources of a canonical dataset, none of which is the dataset itself. -/
structure CanonicalDataset.WellFormed (t : CanonicalDataset) : Prop where
  definition : datasetDefinition t.definition.id = .ok t.definition
  partitioned : t.definition.partitionColumn = some "security_id"
  sources : ∀ field ∈ t.fields, ByCode field.1

section Pairs

variable {p : Pandas} {st st' : Store} {security : Row}

private theorem datasetExists_code {d : DatasetDefinition}
    (hcolumn : d.partitionColumn = some "code")
    {code : String} (hstrip : strip code = code) {present : Bool}
    (h : datasetExists p st d code = .ok present) : present = (st.files d.id code).isSome := by
  obtain ⟨value, hvalue, hout⟩ := bind_eq_ok.mp h
  rw [partitionValue_code hcolumn hstrip hvalue] at hout
  exact (Except.ok.inj hout).symm

private theorem sourcePairs_cons {datasetId codeField : String} {fields : List SourceField}
    {d : DatasetDefinition} (hd : datasetDefinition datasetId = .ok d)
    (hcolumn : d.partitionColumn = some "code") :
    sourcePartitionPairsForSecurity p st security ((datasetId, codeField) :: fields) =
      (if cleanString p (security codeField) = "" then .ok false
        else datasetExists p st d (cleanString p (security codeField))) >>= fun present =>
      sourcePartitionPairsForSecurity p st security fields >>= fun pairs =>
      .ok (if present = true then (datasetId, cleanString p (security codeField)) :: pairs
        else pairs) := by
  rw [sourcePartitionPairsForSecurity, hd]
  by_cases hcode : cleanString p (security codeField) = ""
  · simp [Bind.bind, Except.bind, hcolumn, hcode]
  · simp [Bind.bind, Except.bind, hcolumn, hcode]

theorem mem_sourcePairs {fields : List SourceField}
    (hfields : ∀ field ∈ fields, ByCode field.1) {pairs : List SourcePartition}
    (h : sourcePartitionPairsForSecurity p st security fields = .ok pairs) {pair : SourcePartition} :
    pair ∈ pairs ↔ ∃ field ∈ fields, pair = (field.1, cleanString p (security field.2)) ∧
      cleanString p (security field.2) ≠ "" ∧
        (st.files field.1 (cleanString p (security field.2))).isSome = true := by
  induction fields generalizing pairs with
  | nil =>
    obtain rfl := Except.ok.inj h
    simp
  | cons field fields ih =>
    obtain ⟨datasetId, codeField⟩ := field
    obtain ⟨d, hd, hcolumn⟩ := hfields _ List.mem_cons_self
    rw [sourcePairs_cons hd hcolumn] at h
    obtain ⟨present, hpresent, hrest⟩ := bind_eq_ok.mp h
    obtain ⟨rest, hpairs, hout⟩ := bind_eq_ok.mp hrest
    have hiff : present = true ↔ cleanString p (security codeField) ≠ "" ∧
        (st.files datasetId (cleanString p (security codeField))).isSome = true := by
      by_cases hcode : cleanString p (security codeField) = ""
      · rw [if_pos hcode] at hpresent
        obtain rfl := Except.ok.inj hpresent
        simp [hcode]
      · rw [if_neg hcode] at hpresent
        rw [datasetExists_code hcolumn (strip_cleanString p _) hpresent, (mem_datasetCatalog hd).2]
        simp [hcode]
    obtain rfl := Except.ok.inj hout
    rw [List.exists_mem_cons_iff, ← ih (fun field hfield =>
      hfields field (List.mem_cons_of_mem _ hfield)) hpairs]
    by_cases hp : present = true
    · rw [if_pos hp, List.mem_cons, and_iff_left (hiff.mp hp)]
    · rw [if_neg hp, iff_comm, or_iff_right fun heq => hp (hiff.mpr heq.2)]

theorem CanonicalDataset.WellFormed.not_byCode {t : CanonicalDataset} (wf : t.WellFormed) :
    ¬ByCode t.definition.id := by
  rintro ⟨d, hd, hcolumn⟩
  rw [wf.definition] at hd
  obtain rfl := Except.ok.inj hd
  rw [wf.partitioned] at hcolumn
  exact absurd hcolumn (by decide)

theorem CanonicalDataset.WellFormed.source_ne {t : CanonicalDataset} (wf : t.WellFormed)
    {field : SourceField} (hfield : field ∈ t.fields) : field.1 ≠ t.definition.id :=
  fun heq => wf.not_byCode (heq ▸ wf.sources field hfield)

theorem sourcePairs_code {t : CanonicalDataset} (wf : t.WellFormed) {pairs : List SourcePartition}
    (h : sourcePartitionPairsForSecurity p st security t.fields = .ok pairs) :
    ∀ pair ∈ pairs, CodePartition pair := by
  intro pair hpair
  obtain ⟨field, hfield, rfl, -⟩ := (mem_sourcePairs wf.sources h).mp hpair
  exact ⟨strip_cleanString p _, wf.sources field hfield⟩

theorem sourcePairs_congr {fields : List SourceField}
    (hfields : ∀ field ∈ fields, ByCode field.1)
    (hsame : ∀ field ∈ fields, st'.files field.1 = st.files field.1) :
    sourcePartitionPairsForSecurity p st' security fields =
      sourcePartitionPairsForSecurity p st security fields := by
  induction fields with
  | nil => rfl
  | cons field fields ih =>
    obtain ⟨d, hd, hcolumn⟩ := hfields field List.mem_cons_self
    have hfiles : st'.files d.id = st.files d.id := by
      rw [(mem_datasetCatalog hd).2]
      exact hsame field List.mem_cons_self
    rw [sourcePairs_cons hd hcolumn, sourcePairs_cons hd hcolumn,
      ih (fun field hfield => hfields field (List.mem_cons_of_mem _ hfield))
        fun field hfield => hsame field (List.mem_cons_of_mem _ hfield)]
    simp only [datasetExists, hfiles]

end Pairs

/-! Signatures -/

section Signing

variable {p : Pandas} {h : Hashing} {env : SourcePartition → WriteEnv} {st st' : Store}

/-- The ledger rows of the sources, as a signature reads them. -/
def LedgerEntries (st : Store) (pairs : List SourcePartition) (entries : List SourceEntry) : Prop :=
  List.Forall₂ (fun pair entry => ∃ d row, datasetDefinition pair.1 = .ok d ∧
    ledgerRow st d pair.2 = some row ∧ entry = sourceEntry d pair row) pairs entries

theorem LedgerEntries.keeps {touched : String → String → Prop} {pairs : List SourcePartition}
    {entries : List SourceEntry} (hentries : LedgerEntries st pairs entries)
    (hkeeps : Keeps touched st st') (hne : ∀ pair ∈ pairs, ¬touched pair.1 pair.2) :
    LedgerEntries st' pairs entries := by
  unfold LedgerEntries at hentries ⊢
  induction hentries with
  | nil => exact .nil
  | cons hentry _ ih =>
    refine .cons ?_ (ih fun pair hpair => hne pair (List.mem_cons_of_mem _ hpair))
    obtain ⟨d, row, hd, hrow, rfl⟩ := hentry
    refine ⟨d, row, hd, hkeeps.ledgerRow ?_ hrow, rfl⟩
    rw [(mem_datasetCatalog hd).2]
    exact hne _ List.mem_cons_self

private theorem setManifest_keeps {d : DatasetDefinition} {value : String} {row : ManifestRow}
    (hcode : ByCode d.id) (hnone : ledgerRow st d value = none) :
    Keeps Untouched st (st.setManifest d.id d.ledgerColumn value row) where
  staging := rfl
  files _ _ _ := rfl
  rows dataset column value' _ := by
    by_cases hkey : dataset = d.id ∧ column = d.ledgerColumn ∧ value' = value
    · obtain ⟨rfl, rfl, rfl⟩ := hkey
      exact Or.inr ⟨hnone, hcode⟩
    · exact Or.inl (setManifest_manifest_of_ne st row hkey)

private theorem sourceManifestRow_spec (hstaging : st.staging = false) {d : DatasetDefinition}
    {pair : SourcePartition} (hd : datasetDefinition pair.1 = .ok d)
    (hcolumn : d.partitionColumn = some "code") (hstrip : strip pair.2 = pair.2) {res : Except SignatureError ManifestRow}
    (hout : sourceManifestRow p h env d pair st = (res, st')) :
    Keeps Untouched st st' ∧ ∀ row, res = .ok row → ledgerRow st' d pair.2 = some row := by
  unfold sourceManifestRow at hout
  cases hrow : ledgerRow st d pair.2 with
  | some row =>
    simp only [hrow] at hout
    obtain ⟨rfl, rfl⟩ := Prod.mk.inj hout
    exact ⟨.refl st, fun row' heq => by rw [hrow, Except.ok.inj heq]⟩
  | none =>
    simp only [hrow] at hout
    have hrebuild : ∀ res' st1, rebuildOnePartitionManifest p h env d pair st = (res', st1) →
        Keeps Untouched st st1 := by
      intro res' st1 heq
      unfold rebuildOnePartitionManifest at heq
      split at heq
      · obtain ⟨-, rfl⟩ := Prod.mk.inj heq
        exact .refl st
      · split at heq
        · obtain ⟨-, rfl⟩ := Prod.mk.inj heq
          exact .refl st
        · split at heq
          · obtain ⟨-, rfl⟩ := Prod.mk.inj heq
            exact .refl st
          · rename_i df _
            rcases @upsertWritten_spec p h (env pair) d ((env pair).io 0) df
              (partitionOf d pair.2) "" "" st hstaging with
              ⟨e, hnone⟩ | ⟨value, rows, cleaned, hvalue, -, -, hset⟩
            · rw [hnone] at heq
              obtain ⟨-, rfl⟩ := Prod.mk.inj heq
              exact .refl st
            · rw [hset] at heq
              obtain ⟨-, rfl⟩ := Prod.mk.inj heq
              rw [partitionValue_code hcolumn hstrip hvalue]
              have hid : d.id = pair.1 := (mem_datasetCatalog hd).2
              exact setManifest_keeps ⟨d, hid ▸ hd, hcolumn⟩ hrow
    rcases hone : rebuildOnePartitionManifest p h env d pair st with ⟨res1, st1⟩
    have hkeeps := hrebuild res1 st1 hone
    rw [hone] at hout
    cases res1 with
    | error e =>
      obtain ⟨rfl, rfl⟩ := Prod.mk.inj hout
      exact ⟨hkeeps, fun row heq => by cases heq⟩
    | ok u =>
      simp only at hout
      cases hrow1 : ledgerRow st1 d pair.2 with
      | none =>
        simp only [hrow1] at hout
        obtain ⟨rfl, rfl⟩ := Prod.mk.inj hout
        exact ⟨hkeeps, fun row heq => by cases heq⟩
      | some row =>
        simp only [hrow1] at hout
        obtain ⟨rfl, rfl⟩ := Prod.mk.inj hout
        exact ⟨hkeeps, fun row' heq => by rw [hrow1, Except.ok.inj heq]⟩

private theorem sourceManifestEntries_spec {pairs : List SourcePartition}
    (hstaging : st.staging = false)
    (hpairs : ∀ pair ∈ pairs, CodePartition pair) {res : Except SignatureError (List SourceEntry)}
    (hout : sourceManifestEntries p h env pairs st = (res, st')) :
    Keeps Untouched st st' ∧ ∀ entries, res = .ok entries → LedgerEntries st' pairs entries := by
  induction pairs generalizing st st' res with
  | nil =>
    obtain ⟨rfl, rfl⟩ := Prod.mk.inj hout
    exact ⟨.refl st, fun entries heq => by obtain rfl := Except.ok.inj heq; exact .nil⟩
  | cons pair pairs ih =>
    obtain ⟨hstrip, d, hd, hcolumn⟩ := hpairs pair List.mem_cons_self
    unfold sourceManifestEntries at hout
    rw [hd] at hout
    simp only at hout
    rcases hone : sourceManifestRow p h env d pair st with ⟨res1, st1⟩
    obtain ⟨hkeeps, hrow⟩ := sourceManifestRow_spec hstaging hd hcolumn hstrip hone
    rw [hone] at hout
    cases res1 with
    | error e =>
      obtain ⟨rfl, rfl⟩ := Prod.mk.inj hout
      exact ⟨hkeeps, fun entries heq => by cases heq⟩
    | ok row =>
      simp only at hout
      rcases hrest : sourceManifestEntries p h env pairs st1 with ⟨res2, st2⟩
      obtain ⟨hkeeps', hentries⟩ := ih (hkeeps.staging.trans hstaging)
        (fun pair' hpair => hpairs pair' (List.mem_cons_of_mem _ hpair)) hrest
      rw [hrest] at hout
      cases res2 with
      | error e =>
        obtain ⟨rfl, rfl⟩ := Prod.mk.inj hout
        exact ⟨hkeeps.trans hkeeps', fun entries heq => by cases heq⟩
      | ok rest =>
        obtain ⟨rfl, rfl⟩ := Prod.mk.inj hout
        refine ⟨hkeeps.trans hkeeps', fun entries heq => ?_⟩
        obtain rfl := Except.ok.inj heq
        exact .cons ⟨d, row, hd, hkeeps'.ledgerRow (fun ht => ht) (hrow row rfl), rfl⟩
          (hentries rest rfl)

/-- With all ledger rows there, a signature reads them and changes nothing. -/
private theorem sourceManifestEntries_of_entries {pairs : List SourcePartition}
    {entries : List SourceEntry}
    (hentries : LedgerEntries st pairs entries) :
    sourceManifestEntries p h env pairs st = (.ok entries, st) := by
  unfold LedgerEntries at hentries
  induction hentries with
  | nil => rfl
  | cons hentry _ ih =>
    obtain ⟨d, row, hd, hrow, rfl⟩ := hentry
    unfold sourceManifestEntries
    simp only [hd, sourceManifestRow, hrow, ih]

/-- What a signature was made of. -/
structure SignedBy (p : Pandas) (h : Hashing) (t : CanonicalDataset) (security : Row) (st : Store)
    (signature masterHash : String) : Prop where
  entries : ∃ pairs entries, sourcePartitionPairsForSecurity p st security t.fields = .ok pairs ∧
    LedgerEntries st pairs.eraseDups entries ∧
      signature = sourceSignature h entries (masterRowHash h security)
  masterHash : masterHash = masterRowHash h security

theorem currentSourceSignature_spec {pairs : List SourcePartition} {security : Row}
    (hstaging : st.staging = false) (hpairs : ∀ pair ∈ pairs, CodePartition pair)
    {res : Except SignatureError (String × String)}
    (hout : currentSourceSignatureForSecurity p h env security pairs st = (res, st')) :
    Keeps Untouched st st' ∧ ∀ signed, res = .ok signed → ∃ entries,
      LedgerEntries st' pairs.eraseDups entries ∧
        signed = (sourceSignature h entries (masterRowHash h security), masterRowHash h security) := by
  unfold currentSourceSignatureForSecurity at hout
  simp only at hout
  rcases hentries : sourceManifestEntries p h env pairs.eraseDups st with ⟨res1, st1⟩
  obtain ⟨hkeeps, hall⟩ := sourceManifestEntries_spec hstaging
    (fun pair hpair => hpairs pair (List.mem_eraseDups.mp hpair)) hentries
  rw [hentries] at hout
  cases res1 with
  | error e =>
    obtain ⟨rfl, rfl⟩ := Prod.mk.inj hout
    exact ⟨hkeeps, fun signed heq => by cases heq⟩
  | ok entries =>
    obtain ⟨rfl, rfl⟩ := Prod.mk.inj hout
    exact ⟨hkeeps, fun signed heq => ⟨entries, hall entries rfl, (Except.ok.inj heq).symm⟩⟩

theorem currentSourceSignature_of_entries {pairs : List SourcePartition} {security : Row}
    {entries : List SourceEntry} (hentries : LedgerEntries st pairs.eraseDups entries) :
    currentSourceSignatureForSecurity p h env security pairs st =
      (.ok (sourceSignature h entries (masterRowHash h security), masterRowHash h security), st) := by
  unfold currentSourceSignatureForSecurity
  simp only [sourceManifestEntries_of_entries hentries]

theorem signSecurity_spec {b : BuildEnv} {t : CanonicalDataset} (wf : t.WellFormed) {security : Row}
    (hstaging : st.staging = false) {res : Except StoreError (String × String)}
    (hout : signSecurity p h b t security st = (res, st')) :
    Keeps Untouched st st' ∧
      ∀ signed, res = .ok signed → SignedBy p h t security st' signed.1 signed.2 := by
  unfold signSecurity at hout
  cases hpairs : sourcePartitionPairsForSecurity p st security t.fields with
  | error e =>
    rw [hpairs] at hout
    obtain ⟨rfl, rfl⟩ := Prod.mk.inj hout
    exact ⟨.refl st, fun signed heq => by cases heq⟩
  | ok pairs =>
    rw [hpairs] at hout
    simp only at hout
    rcases hsign : currentSourceSignatureForSecurity p h b.signing security pairs st with ⟨res1, st1⟩
    obtain ⟨hkeeps, hsigned⟩ :=
      currentSourceSignature_spec hstaging (sourcePairs_code wf hpairs) hsign
    rw [hsign] at hout
    cases res1 with
    | error e =>
      obtain ⟨rfl, rfl⟩ := Prod.mk.inj hout
      exact ⟨hkeeps, fun signed heq => by cases heq⟩
    | ok signed =>
      obtain ⟨rfl, rfl⟩ := Prod.mk.inj hout
      refine ⟨hkeeps, fun signed' heq => ?_⟩
      obtain rfl := Except.ok.inj heq
      obtain ⟨entries, hentries, rfl⟩ := hsigned signed rfl
      refine ⟨⟨pairs, entries, ?_, hentries, rfl⟩, rfl⟩
      rw [← hpairs]
      exact sourcePairs_congr wf.sources fun field _ => funext fun value =>
        hkeeps.files field.1 value fun htouched => htouched

end Signing

/-! Publications -/

/-- The store without a partition and its ledger row. -/
def withoutPartition (d : DatasetDefinition) (securityId : String) (st : Store) : Store :=
  (st.setDataset d.id fun value => if value = securityId then none
    else st.files d.id value).deleteManifest d fun value => value == securityId

/-- The store with a partition of these rows and its ledger row. -/
def withPartition (d : DatasetDefinition) (securityId : String) (rows : List Row)
    (row : ManifestRow) (st : Store) : Store :=
  (st.setDataset d.id fun value => if value = securityId then some rows
    else st.files d.id value).setManifest d.id d.ledgerColumn securityId row

section Publications

variable {p : Pandas} {h : Hashing} {d : DatasetDefinition} {c : PartitionPublication}
  {st st' : Store}

theorem publishPartition_removed (hd : datasetDefinition c.dataset = .ok d)
    (hrows : c.partition.df.rows = []) (hout : publishPartition p h c st = (.ok (), st')) :
    st' = withoutPartition d c.partition.securityId st := by
  unfold publishPartition at hout
  rw [hd] at hout
  simp only [if_pos hrows] at hout
  generalize hcommit : commit_derived_partition_staging (d.source == .derived) c.outcomes true
    (areaOf (st.files d.id c.partition.securityId).isSome) = out at hout
  cases hraised : out.1 with
  | some r =>
    rw [hraised] at hout
    cases hout
  | none =>
    have hfinal : out.2.final_dir = none := by
      rw [← hcommit] at hraised ⊢
      exact commitStaging_ends hraised
    rw [hraised] at hout
    simp only [hfinal, inPlace] at hout
    split at hout
    case isTrue => exact (Prod.mk.inj hout).2.symm
    case isFalse => cases hout

theorem publishPartition_written (hd : datasetDefinition c.dataset = .ok d)
    (hstaging : st.staging = false) (hrows : c.partition.df.rows ≠ [])
    (hout : publishPartition p h c st = (.ok (), st')) :
    ∃ rows row, row.sourceSignature = c.partition.sourceSignature ∧
      row.masterRowHash = c.partition.masterRowHash ∧
      st' = withPartition d c.partition.securityId rows row st := by
  unfold publishPartition at hout
  rw [hd] at hout
  simp only [if_neg hrows] at hout
  rcases hstage : stagePartitions p h (fun _ => c.stagingEnv) c.dataset 0 [c.partition]
    stagingStore with ⟨res, area⟩
  rw [hstage] at hout
  cases res with
  | error e => cases hout
  | ok u =>
    obtain ⟨hstaged, -⟩ := stagePartitions_files hd 0 (by simp)
      (fun s hs => by rw [List.mem_singleton.mp hs]; exact c.clean) hstage
    obtain ⟨rows, -, hfile⟩ := hstaged c.partition List.mem_cons_self
    simp only [hfile] at hout
    generalize hcommit : commit_derived_partition_staging (d.source == .derived) c.outcomes false
      (areaOf (st.files d.id c.partition.securityId).isSome) = out at hout
    cases hraised : out.1 with
    | some r =>
      rw [hraised] at hout
      cases hout
    | none =>
      have hfinal : out.2.final_dir = some {true} := by
        rw [← hcommit] at hraised ⊢
        exact commitStaging_ends hraised
      rw [hraised] at hout
      simp only [hfinal, inPlace, Finset.mem_singleton, if_true] at hout
      generalize hplaced : st.setDataset d.id (fun value => if value = c.partition.securityId then
        some rows else st.files d.id value) = placed at hout
      have hplacedStaging : placed.staging = false := by
        rw [← hplaced]
        exact hstaging
      unfold recordPartitions at hout
      rcases @upsertWritten_spec p h c.ledgerEnv d (c.ledgerEnv.io 0) c.partition.df
        (securityPartition c.partition.securityId) c.partition.sourceSignature
        c.partition.masterRowHash placed hplacedStaging with
        ⟨e, herror⟩ | ⟨value, rows', cleaned, hvalue, -, -, hset⟩
      · rw [herror] at hout
        cases hout
      · rw [hset, partitionValue_security c.clean hvalue] at hout
        refine ⟨rows, datasetPartitionManifestRow p h d.schema cleaned.rows
          c.partition.sourceSignature c.partition.masterRowHash, rfl, rfl, ?_⟩
        rw [withPartition, hplaced]
        exact (Prod.mk.inj hout).2.symm

end Publications

end QuantDataCenter.Derived
