import QuantDataCenter.Derived.BuildSteps

/-!
What a build that returns leaves for every security it looked at: the partition is up to date, or
the sources of the security hold no rows for it.
-/

set_option autoImplicit false
set_option relaxedAutoImplicit false

namespace QuantDataCenter.Derived

open QuantDataCenter.Lib.Checked QuantDataCenter.Tabular QuantDataCenter.Storage
open QuantDataCenter.Derived.Commit

/-- The partitions of the sources are found by a listing. -/
def Lists (t : CanonicalDataset) (reads : Reads) (st : Store) : Prop :=
  ∀ field ∈ t.fields, ∀ value, (st.files field.1 value).isSome = true →
    value ∈ reads.partitions field.1

/-- The source partition that a field of the master row names is there. -/
def HasSource (p : Pandas) (st : Store) (security : Row) (field : SourceField) : Prop :=
  cleanString p (security field.2) ≠ "" ∧
    (st.files field.1 (cleanString p (security field.2))).isSome = true

/-- How the frame of a security depends on the store. -/
structure CanonicalDataset.Lawful (p : Pandas) (t : CanonicalDataset) : Prop
    extends t.WellFormed where
  congr : ∀ (reads : Reads) {st st' : Store} (security : Row) (updatedAt : Int),
    (∀ field ∈ t.fields, st'.files field.1 = st.files field.1) →
      t.materialize p reads st' security updatedAt = t.materialize p reads st security updatedAt
  source : ∀ {reads : Reads} {st : Store} {security : Row} {updatedAt : Int} {df : Frame},
    t.materialize p reads st security updatedAt = .ok df → df.rows ≠ [] →
      ∃ field ∈ t.fields, HasSource p st security field
  rows : ∀ {reads reads' : Reads} {st : Store} {security : Row} {updatedAt updatedAt' : Int}
    {df df' : Frame}, Lists t reads st → Lists t reads' st →
      t.materialize p reads st security updatedAt = .ok df →
      t.materialize p reads' st security updatedAt' = .ok df' → df.rows = [] → df'.rows = []
  candidates_sublist : ∀ (cache : String → List String) (master : List Row),
    (t.candidates p cache master).Sublist master
  candidates : ∀ {reads : Reads} {st : Store} {master : List Row} {security : Row},
    Lists t reads st → security ∈ master → (∃ field ∈ t.fields, HasSource p st security field) →
      security ∈ t.candidates p reads.partitions master

/-- Hex digests: no blanks around them, and a signature is not empty. -/
structure HexDigests (h : Hashing) : Prop where
  signature : ∀ masterHash entries, strip (h.signatureDigest masterHash entries) =
    h.signatureDigest masterHash entries ∧ h.signatureDigest masterHash entries ≠ ""
  master : ∀ cells, strip (h.masterDigest cells) = h.masterDigest cells

section States

variable (p : Pandas) (h : Hashing) (t : CanonicalDataset) (st : Store) (security : Row)

/-- The partition of a security is up to date. -/
inductive Current (pairs : List SourcePartition) : Prop
  | absent (hpairs : pairs = [])
      (hfile : st.files t.definition.id (securityIdOfRow p security) = none) : Current pairs
  | signed (hpairs : pairs ≠ [])
      (hfile : (st.files t.definition.id (securityIdOfRow p security)).isSome = true)
      (entries : List SourceEntry) (row : ManifestRow)
      (hentries : LedgerEntries st pairs.eraseDups entries)
      (hrow : ledgerRow st t.definition (securityIdOfRow p security) = some row)
      (hsignature : strip row.sourceSignature =
        sourceSignature h entries (masterRowHash h security))
      (hne : strip row.sourceSignature ≠ "")
      (hmaster : strip row.masterRowHash = masterRowHash h security) : Current pairs

/-- The sources of the security are there but hold no rows for it, and it has no partition. -/
structure Barren (pairs : List SourcePartition) : Prop where
  pairs_ne : pairs ≠ []
  file : st.files t.definition.id (securityIdOfRow p security) = none
  row : ledgerRow st t.definition (securityIdOfRow p security) = none
  empty : ∀ (reads : Reads) (updatedAt : Int) (df : Frame), Lists t reads st →
    t.materialize p reads st security updatedAt = .ok df → df.rows = []

/-- Up to date, as far as there are rows. -/
def Done : Prop :=
  ∀ pairs, sourcePartitionPairsForSecurity p st security t.fields = .ok pairs →
    Current p h t st security pairs ∨ Barren p t st security pairs

end States

section Keeping

variable {p : Pandas} {h : Hashing} {t : CanonicalDataset} {touched : String → String → Prop}
  {st st' : Store} {security : Row}

/-- The sources and the partition of the security are not among the touched. -/
structure Apart (p : Pandas) (t : CanonicalDataset) (touched : String → String → Prop)
    (security : Row) : Prop where
  sources : ∀ field ∈ t.fields, ∀ value, ¬touched field.1 value
  partition : ¬touched t.definition.id (securityIdOfRow p security)

theorem Keeps.sources {t : CanonicalDataset} (hkeeps : Keeps touched st st')
    (hapart : ∀ field ∈ t.fields, ∀ value, ¬touched field.1 value) :
    ∀ field ∈ t.fields, st'.files field.1 = st.files field.1 :=
  fun field hfield => funext fun value => hkeeps.files field.1 value (hapart field hfield value)

theorem Lists.congr {reads : Reads} (hlists : Lists t reads st)
    (hsame : ∀ field ∈ t.fields, st'.files field.1 = st.files field.1) : Lists t reads st' := by
  intro field hfield value hfile
  rw [hsame field hfield] at hfile
  exact hlists field hfield value hfile

theorem Current.keeps (wf : t.WellFormed) (hkeeps : Keeps touched st st')
    (hapart : Apart p t touched security) {pairs : List SourcePartition}
    (hpairs : sourcePartitionPairsForSecurity p st security t.fields = .ok pairs)
    (hcurrent : Current p h t st security pairs) : Current p h t st' security pairs := by
  have hfile := hkeeps.files _ _ hapart.partition
  cases hcurrent with
  | absent hnil hnone => exact .absent hnil (hfile.trans hnone)
  | signed hne hsome entries row hentries hrow hsignature hsigned hmaster =>
    refine .signed hne (hfile ▸ hsome) entries row ?_ (hkeeps.ledgerRow hapart.partition hrow)
      hsignature hsigned hmaster
    refine hentries.keeps hkeeps fun pair hpair => ?_
    obtain ⟨field, hfield, rfl, -⟩ :=
      (mem_sourcePairs wf.sources hpairs).mp (List.mem_eraseDups.mp hpair)
    exact hapart.sources field hfield _

theorem Barren.keeps (law : t.Lawful p) (hkeeps : Keeps touched st st')
    (hapart : Apart p t touched security) {pairs : List SourcePartition}
    (hbarren : Barren p t st security pairs) : Barren p t st' security pairs where
  pairs_ne := hbarren.pairs_ne
  file := (hkeeps.files _ _ hapart.partition).trans hbarren.file
  row := (hkeeps.ledgerRow_eq law.not_byCode hapart.partition).trans hbarren.row
  empty reads updatedAt df hlists hdf := by
    have hsame := hkeeps.sources hapart.sources
    rw [law.congr reads security updatedAt hsame] at hdf
    exact hbarren.empty reads updatedAt df
      (hlists.congr fun field hfield => (hsame field hfield).symm) hdf

theorem Done.keeps (law : t.Lawful p) (hkeeps : Keeps touched st st')
    (hapart : Apart p t touched security) (hdone : Done p h t st security) :
    Done p h t st' security := by
  intro pairs hpairs
  rw [sourcePairs_congr law.sources (hkeeps.sources hapart.sources)] at hpairs
  exact (hdone pairs hpairs).imp (Current.keeps law.toWellFormed hkeeps hapart hpairs)
    (Barren.keeps law hkeeps hapart)

/-- The partitions of some securities. -/
def PartitionsOf (t : CanonicalDataset) (ids : List String) (dataset value : String) : Prop :=
  dataset = t.definition.id ∧ value ∈ ids

private theorem CanonicalDataset.WellFormed.sources_apart (wf : t.WellFormed) {ids : List String} :
    ∀ field ∈ t.fields, ∀ value, ¬PartitionsOf t ids field.1 value :=
  fun _ hfield _ htouched => wf.source_ne hfield htouched.1

theorem CanonicalDataset.WellFormed.apart (wf : t.WellFormed) {ids : List String}
    (hid : securityIdOfRow p security ∉ ids) : Apart p t (PartitionsOf t ids) security where
  sources := wf.sources_apart
  partition htouched := hid htouched.2

end Keeping

/-! One security -/

section Steps

variable {p : Pandas} {h : Hashing} {t : CanonicalDataset} {st st' : Store} {security : Row}

private theorem withoutPartition_keeps (t : CanonicalDataset) (securityId : String) (st : Store) :
    Keeps (PartitionsOf t [securityId]) st (withoutPartition t.definition securityId st) where
  staging := rfl
  files dataset value hne := by
    by_cases hdataset : dataset = t.definition.id
    · have hvalue : value ≠ securityId := fun heq => hne ⟨hdataset, by rw [heq]; simp⟩
      simp [withoutPartition, Store.deleteManifest, Store.setDataset, hdataset, hvalue]
    · simp [withoutPartition, Store.deleteManifest, Store.setDataset, hdataset]
  rows dataset column value hne := by
    refine Or.inl (if_neg fun heq => hne ⟨heq.1, ?_⟩)
    simpa using heq.2.2

private theorem withPartition_keeps (t : CanonicalDataset) (securityId : String) (rows : List Row)
    (row : ManifestRow) (st : Store) :
    Keeps (PartitionsOf t [securityId]) st
      (withPartition t.definition securityId rows row st) where
  staging := rfl
  files dataset value hne := by
    by_cases hdataset : dataset = t.definition.id
    · have hvalue : value ≠ securityId := fun heq => hne ⟨hdataset, by rw [heq]; simp⟩
      simp [withPartition, Store.setManifest, Store.setDataset, hdataset, hvalue]
    · simp [withPartition, Store.setManifest, Store.setDataset, hdataset]
  rows dataset column value hne := by
    refine Or.inl (setManifest_manifest_of_ne _ row fun heq => hne ⟨heq.1, ?_⟩)
    simp [heq.2.2]

theorem SignedBy.keeps (wf : t.WellFormed) {touched : String → String → Prop}
    (hkeeps : Keeps touched st st') (hapart : ∀ field ∈ t.fields, ∀ value, ¬touched field.1 value)
    {signature masterHash : String} (hsigned : SignedBy p h t security st signature masterHash) :
    SignedBy p h t security st' signature masterHash := by
  obtain ⟨⟨pairs, entries, hpairs, hentries, heq⟩, hhash⟩ := hsigned
  refine ⟨⟨pairs, entries, ?_, hentries.keeps hkeeps fun pair hpair => ?_, heq⟩, hhash⟩
  · rw [sourcePairs_congr wf.sources (hkeeps.sources hapart)]
    exact hpairs
  · obtain ⟨field, hfield, rfl, -⟩ :=
      (mem_sourcePairs wf.sources hpairs).mp (List.mem_eraseDups.mp hpair)
    exact hapart field hfield _

private theorem Current.of_signed (hex : HexDigests h) (law : t.Lawful p)
    {signature masterHash : String}
    (hsigned : SignedBy p h t security st signature masterHash)
    (hsource : ∃ field ∈ t.fields, HasSource p st security field)
    (hfile : (st.files t.definition.id (securityIdOfRow p security)).isSome = true)
    {row : ManifestRow} (hrow : ledgerRow st t.definition (securityIdOfRow p security) = some row)
    (hrowSignature : row.sourceSignature = signature) (hrowMaster : row.masterRowHash = masterHash) :
    Done p h t st security := by
  obtain ⟨⟨pairs, entries, hpairs, hentries, rfl⟩, rfl⟩ := hsigned
  intro pairs' hpairs'
  obtain rfl := Except.ok.inj (hpairs.symm.trans hpairs')
  obtain ⟨field, hfield, hcode, hsome⟩ := hsource
  have hmem : (field.1, cleanString p (security field.2)) ∈ pairs :=
    (mem_sourcePairs law.sources hpairs).mpr ⟨field, hfield, rfl, hcode, hsome⟩
  refine Or.inl (.signed (List.ne_nil_of_mem hmem) hfile entries row hentries hrow ?_ ?_ ?_)
  · rw [hrowSignature]
    exact (hex.signature _ _).1
  · rw [hrowSignature]
    exact ne_of_eq_of_ne (hex.signature _ _).1 (hex.signature _ _).2
  · rw [hrowMaster]
    exact hex.master _

theorem Done.of_empty (law : t.Lawful p) {reads : Reads} {updatedAt : Int} {df : Frame}
    (hlists : Lists t reads st) (hdf : t.materialize p reads st security updatedAt = .ok df)
    (hempty : df.rows = [])
    (hfile : st.files t.definition.id (securityIdOfRow p security) = none)
    (hrow : ledgerRow st t.definition (securityIdOfRow p security) = none) :
    Done p h t st security := by
  intro pairs hpairs
  by_cases hnil : pairs = []
  · exact Or.inl (.absent hnil hfile)
  · exact Or.inr ⟨hnil, hfile, hrow, fun reads' updatedAt' df' hlists' hdf' =>
      law.rows hlists hlists' hdf hdf' hempty⟩

private theorem buildPartition_done (hex : HexDigests h) (law : t.Lawful p) {b : PartitionBuildEnv}
    {k : ℕ}
    (hstaging : st.staging = false) (hlists : Lists t b.reads st)
    (hout : buildPartition p h b t k security st = (.ok (), st')) :
    Keeps (PartitionsOf t [securityIdOfRow p security]) st st' ∧
      (securityIdOfRow p security ≠ "" → Done p h t st' security) := by
  unfold buildPartition at hout
  by_cases hid : securityIdOfRow p security = ""
  · rw [if_pos hid] at hout
    obtain ⟨-, rfl⟩ := Prod.mk.inj hout
    exact ⟨.refl st, fun hne => absurd hid hne⟩
  rw [if_neg hid] at hout
  cases hdf : t.materialize p b.reads st security b.updatedAt with
  | error e =>
    rw [hdf] at hout
    cases hout
  | ok df =>
    rw [hdf] at hout
    simp only at hout
    by_cases hrows : df.rows = []
    · rw [if_pos hrows] at hout
      have hst' : st' = withoutPartition t.definition (securityIdOfRow p security) st :=
        publishPartition_removed law.definition hrows hout
      have hkeeps := withoutPartition_keeps t (securityIdOfRow p security) st
      have hsame := hkeeps.sources law.sources_apart
      rw [hst']
      refine ⟨hkeeps, fun _ => Done.of_empty law (hlists.congr hsame)
        ((law.congr b.reads security b.updatedAt hsame).trans hdf) hrows ?_ ?_⟩
      · simp [withoutPartition, Store.deleteManifest, Store.setDataset]
      · simp [ledgerRow, withoutPartition, Store.deleteManifest, Store.setDataset]
    · rw [if_neg hrows] at hout
      rcases hsign : signSecurity p h b.toBuildEnv t security st with ⟨res, st1⟩
      obtain ⟨hkept, hsigned⟩ := signSecurity_spec law.toWellFormed hstaging hsign
      rw [hsign] at hout
      cases res with
      | error e => cases hout
      | ok signed =>
        obtain ⟨rows, row, hsignature, hmaster, hplaced⟩ := publishPartition_written law.definition
          (hkept.staging.trans hstaging) hrows hout
        have hst' : st' = withPartition t.definition (securityIdOfRow p security) rows row st1 :=
          hplaced
        have hkeeps := withPartition_keeps t (securityIdOfRow p security) rows row st1
        have hsame := (hkept.untouched.trans hkeeps).sources law.sources_apart
        obtain ⟨field, hfield, hcode, hsome⟩ := law.source hdf hrows
        rw [hst']
        refine ⟨hkept.untouched.trans hkeeps, fun _ => Current.of_signed hex law
          ((hsigned signed rfl).keeps law.toWellFormed hkeeps law.sources_apart)
          ⟨field, hfield, hcode, ?_⟩ ?_ (ledgerRow_setManifest_self _ row) hsignature hmaster⟩
        · rw [hsame field hfield]
          exact hsome
        · simp [withPartition, Store.setManifest, Store.setDataset]

theorem buildEach_done (hex : HexDigests h) (law : t.Lawful p) {b : PartitionBuildEnv} {k : ℕ}
    {master : List Row} (hids : (master.map (securityIdOfRow p)).Nodup)
    (hstaging : st.staging = false) (hlists : Lists t b.reads st)
    (hout : buildEach p h b t k master st = (.ok (), st')) :
    Keeps (PartitionsOf t (master.map (securityIdOfRow p))) st st' ∧
      ∀ security ∈ master, securityIdOfRow p security ≠ "" → Done p h t st' security := by
  induction master generalizing k st with
  | nil =>
    obtain ⟨-, rfl⟩ := Prod.mk.inj hout
    exact ⟨.refl st, fun security hmem => by cases hmem⟩
  | cons security master ih =>
    unfold buildEach at hout
    rcases hone : buildPartition p h b t k security st with ⟨res, st1⟩
    rw [hone] at hout
    cases res with
    | error e => cases hout
    | ok u =>
      simp only at hout
      rw [List.map_cons, List.nodup_cons] at hids
      obtain ⟨hkeeps, hdone⟩ := buildPartition_done hex law hstaging hlists hone
      have hsame := hkeeps.sources law.sources_apart
      obtain ⟨hkeeps', hrest⟩ := ih hids.2 (hkeeps.staging.trans hstaging) (hlists.congr hsame) hout
      refine ⟨?_, fun security' hmem hne => ?_⟩
      · refine (hkeeps.mono ?_).trans (hkeeps'.mono ?_)
        · rintro dataset value ⟨hdataset, hvalue⟩
          exact ⟨hdataset, List.mem_singleton.mp hvalue ▸ List.mem_cons_self⟩
        · rintro dataset value ⟨hdataset, hvalue⟩
          exact ⟨hdataset, List.mem_cons_of_mem _ hvalue⟩
      · rcases List.mem_cons.mp hmem with rfl | hmem
        · exact (hdone hne).keeps law hkeeps' (law.apart hids.1)
        · exact hrest security' hmem hne

end Steps

/-! All securities -/

section Full

variable {p : Pandas} {h : Hashing} {t : CanonicalDataset} {st st' : Store}

/-- What the loop of a full build has for the securities of the master: a staged frame with its
signature, or no rows. -/
structure StagedMaster (p : Pandas) (h : Hashing) (b : BuildEnv) (t : CanonicalDataset) (k : ℕ)
    (master : List Row) (area area' st' : Store) (staged : List StagedPartition) : Prop where
  written : stagePartitions p h b.stagingEnvs t.definition.id k staged area = (.ok (), area')
  ids : (staged.map StagedPartition.securityId).Sublist (master.map (securityIdOfRow p))
  securities : ∀ security ∈ master, securityIdOfRow p security ≠ "" →
    (∃ s ∈ staged, s.securityId = securityIdOfRow p security ∧
      SignedBy p h t security st' s.sourceSignature s.masterRowHash ∧
      ∃ field ∈ t.fields, HasSource p st' security field) ∨
    ∃ df, t.materialize p b.reads st' security b.updatedAt = .ok df ∧ df.rows = [] ∧
      securityIdOfRow p security ∉ staged.map StagedPartition.securityId

theorem StagedMaster.skip {b : BuildEnv} {k : ℕ} {master : List Row} {area area' : Store}
    {staged : List StagedPartition} {security : Row}
    (hstaged : StagedMaster p h b t k master area area' st' staged)
    (hnew : securityIdOfRow p security ∉ master.map (securityIdOfRow p))
    (hempty : securityIdOfRow p security ≠ "" →
      ∃ df, t.materialize p b.reads st' security b.updatedAt = .ok df ∧ df.rows = []) :
    StagedMaster p h b t k (security :: master) area area' st' staged where
  written := hstaged.written
  ids := hstaged.ids.cons _
  securities security' hmem hne := by
    rcases List.mem_cons.mp hmem with rfl | hmem
    · obtain ⟨df, hdf, hrows⟩ := hempty hne
      exact Or.inr ⟨df, hdf, hrows, fun hid => hnew (hstaged.ids.subset hid)⟩
    · exact hstaged.securities security' hmem hne

theorem HasSource.congr {security : Row} {field : SourceField}
    (hsame : st'.files field.1 = st.files field.1) (hsource : HasSource p st security field) :
    HasSource p st' security field :=
  ⟨hsource.1, by rw [hsame]; exact hsource.2⟩

private theorem stageMaster_spec (law : t.Lawful p) {b : BuildEnv} {k : ℕ} {master : List Row}
    {area area' : Store} {staged : List StagedPartition} (hstaging : st.staging = false)
    (hids : (master.map (securityIdOfRow p)).Nodup)
    (hout : stageMaster p h b t k master area st = (.ok staged, area', st')) :
    Keeps Untouched st st' ∧ StagedMaster p h b t k master area area' st' staged := by
  induction master generalizing k area st staged with
  | nil =>
    simp only [stageMaster, Prod.mk.injEq, Except.ok.injEq] at hout
    obtain ⟨rfl, rfl, rfl⟩ := hout
    exact ⟨.refl st, rfl, List.nil_sublist _, fun security hmem => by cases hmem⟩
  | cons security master ih =>
    rw [List.map_cons, List.nodup_cons] at hids
    unfold stageMaster at hout
    simp only at hout
    by_cases hid : securityIdOfRow p security = ""
    · rw [if_pos hid] at hout
      obtain ⟨hkeeps, hstaged⟩ := ih hstaging hids.2 hout
      exact ⟨hkeeps, hstaged.skip hids.1 fun hne => absurd hid hne⟩
    rw [if_neg hid] at hout
    cases hdf : t.materialize p b.reads st security b.updatedAt with
    | error e =>
      rw [hdf] at hout
      cases hout
    | ok df =>
      rw [hdf] at hout
      simp only at hout
      by_cases hrows : df.rows = []
      · rw [if_pos hrows] at hout
        obtain ⟨hkeeps, hstaged⟩ := ih hstaging hids.2 hout
        refine ⟨hkeeps, hstaged.skip hids.1 fun _ => ⟨df, ?_, hrows⟩⟩
        rw [law.congr b.reads security b.updatedAt (hkeeps.sources fun _ _ _ htouched => htouched)]
        exact hdf
      rw [if_neg hrows] at hout
      rcases hsign : signSecurity p h b t security st with ⟨res, st1⟩
      obtain ⟨hkept, hsigned⟩ := signSecurity_spec law.toWellFormed hstaging hsign
      rw [hsign] at hout
      cases res with
      | error e => cases hout
      | ok signed =>
        simp only at hout
        rcases hwrite : writeDataset p h (b.stagingEnvs k) t.definition.id df
          (securityPartition (securityIdOfRow p security)) (some .replace) false area with ⟨res1, area1⟩
        rw [hwrite] at hout
        cases res1 with
        | error e => cases hout
        | ok result =>
          simp only at hout
          rcases hrest : stageMaster p h b t (k + 1) master area1 st1 with ⟨res2, area2, st2⟩
          rw [hrest] at hout
          cases res2 with
          | error e => cases hout
          | ok rest =>
            simp only [Prod.mk.injEq, Except.ok.injEq] at hout
            obtain ⟨rfl, rfl, rfl⟩ := hout
            obtain ⟨hkeeps, hstaged⟩ := ih (hkept.staging.trans hstaging) hids.2 hrest
            have hsame := (hkept.trans hkeeps).sources (t := t) fun _ _ _ htouched => htouched
            refine ⟨hkept.trans hkeeps, ⟨?_, ?_, fun security' hmem hne => ?_⟩⟩
            · unfold stagePartitions
              simp only [hwrite]
              exact hstaged.written
            · simp only [List.map_cons]
              exact hstaged.ids.cons_cons _
            · rcases List.mem_cons.mp hmem with rfl | hmem
              · obtain ⟨field, hfield, hsource⟩ := law.source hdf hrows
                exact Or.inl ⟨_, List.mem_cons_self, rfl, (hsigned signed rfl).keeps
                  law.toWellFormed hkeeps (fun _ _ _ htouched => htouched),
                  field, hfield, hsource.congr (hsame field hfield)⟩
              · rcases hstaged.securities security' hmem hne with ⟨s, hs, hrest'⟩ | ⟨df', hdf', hrows', hnot⟩
                · exact Or.inl ⟨s, List.mem_cons_of_mem _ hs, hrest'⟩
                · refine Or.inr ⟨df', hdf', hrows', ?_⟩
                  rw [List.map_cons, List.mem_cons, not_or]
                  refine ⟨fun heq => hids.1 ?_, hnot⟩
                  have hid' : securityIdOfRow p security' = securityIdOfRow p security := heq
                  rw [← hid']
                  exact List.mem_map_of_mem hmem

private theorem recordPartitions_rows {envs : ℕ → WriteEnv} {d : DatasetDefinition} {k : ℕ}
    {staged : List StagedPartition} (hstaging : st.staging = false)
    (hclean : ∀ s ∈ staged, strip s.securityId = s.securityId)
    (hids : (staged.map StagedPartition.securityId).Nodup)
    (hout : recordPartitions p h envs d k staged st = (.ok (), st')) :
    st'.staging = st.staging ∧
      (∀ dataset column value, ¬(dataset = d.id ∧ value ∈ staged.map StagedPartition.securityId) →
        st'.manifest dataset column value = st.manifest dataset column value) ∧
      ∀ s ∈ staged, ∃ row, ledgerRow st' d s.securityId = some row ∧
        row.sourceSignature = s.sourceSignature ∧ row.masterRowHash = s.masterRowHash := by
  induction staged generalizing k st with
  | nil =>
    obtain ⟨-, rfl⟩ := Prod.mk.inj hout
    exact ⟨rfl, fun _ _ _ _ => rfl, fun s hs => by cases hs⟩
  | cons s staged ih =>
    unfold recordPartitions at hout
    rcases @upsertWritten_spec p h (envs k) d ((envs k).io 0) s.df (securityPartition s.securityId)
      s.sourceSignature s.masterRowHash st hstaging with
      ⟨e, herror⟩ | ⟨value, rows, cleaned, hvalue, -, -, hset⟩
    · rw [herror] at hout
      cases hout
    · rw [hset, partitionValue_security (hclean s List.mem_cons_self) hvalue] at hout
      simp only at hout
      rw [List.map_cons, List.nodup_cons] at hids
      have hset' : (st.setManifest d.id d.ledgerColumn s.securityId (datasetPartitionManifestRow p h
        d.schema cleaned.rows s.sourceSignature s.masterRowHash)).staging = false := hstaging
      obtain ⟨hstaging', hother, hrows⟩ := ih hset'
        (fun s' hs' => hclean s' (List.mem_cons_of_mem _ hs')) hids.2 hout
      refine ⟨hstaging', fun dataset column value hne => ?_, fun s' hs' => ?_⟩
      · rw [List.map_cons, List.mem_cons] at hne
        rw [hother dataset column value fun heq => hne ⟨heq.1, Or.inr heq.2⟩]
        exact setManifest_manifest_of_ne st _ fun heq => hne ⟨heq.1, Or.inl heq.2.2⟩
      · rcases List.mem_cons.mp hs' with rfl | hmem
        · refine ⟨datasetPartitionManifestRow p h d.schema cleaned.rows s'.sourceSignature
            s'.masterRowHash, ?_, rfl, rfl⟩
          rw [ledgerRow, hother _ _ _ fun heq => hids.1 heq.2]
          exact ledgerRow_setManifest_self st _
        · exact hrows s' hmem

def AllPartitionsOf (t : CanonicalDataset) (dataset _value : String) : Prop :=
  dataset = t.definition.id

private theorem CanonicalDataset.WellFormed.all_apart (wf : t.WellFormed) :
    ∀ field ∈ t.fields, ∀ value, ¬AllPartitionsOf t field.1 value :=
  fun _ hfield _ htouched => wf.source_ne hfield htouched

/-- A commit that returns puts the staged files in place, with their ledger rows and no others. -/
private theorem commitStaged_spec {b : BuildEnv} {staged : List StagedPartition} {area : Store}
    (hstaging : st.staging = false) (hclean : ∀ s ∈ staged, strip s.securityId = s.securityId)
    (hids : (staged.map StagedPartition.securityId).Nodup)
    (hout : commitStaged p h b t.definition staged area st = (.ok (), st')) :
    Keeps (AllPartitionsOf t) st st' ∧
      (∀ s ∈ staged, (area.files t.definition.id s.securityId).isSome = true →
        ∃ row, ledgerRow st' t.definition s.securityId = some row ∧
          row.sourceSignature = s.sourceSignature ∧ row.masterRowHash = s.masterRowHash) ∧
      ∀ value, area.files t.definition.id value = none →
        ledgerRow st' t.definition value = none := by
  have hfiles := commitStaged_files hout
  unfold commitStaged at hout
  simp only at hout
  generalize hcommit : commit_derived_dataset_staging (t.definition.source == .derived) b.outcomes
    (areaOf b.existed) = out at hout
  cases hraised : out.1 with
  | some r =>
    rw [hraised] at hout
    cases hout
  | none =>
    rw [hraised] at hout
    simp only at hout
    generalize hswapped : st.setDataset t.definition.id (fun value => inPlace out.2.final_dir none
      (st.files t.definition.id value) (area.files t.definition.id value)) = swapped at hout
    rcases hrecord : recordPartitions p h b.ledgerEnvs t.definition 0 staged swapped with ⟨res, st1⟩
    rw [hrecord] at hout
    cases res with
    | error e => cases hout
    | ok u =>
      have hswappedStaging : swapped.staging = st.staging := by rw [← hswapped]; rfl
      obtain ⟨hstaging', hother, hrows⟩ := recordPartitions_rows
        (hswappedStaging.trans hstaging) hclean hids hrecord
      have hrecordedFiles : st1.files = swapped.files := by
        have hsame := @recordPartitions_files p h b.ledgerEnvs t.definition 0 staged swapped
        rw [hrecord] at hsame
        exact hsame
      simp only at hout
      split at hout
      · cases hout
      obtain rfl := (Prod.mk.inj hout).2
      refine ⟨⟨hstaging'.trans hswappedStaging, fun dataset value hne => ?_,
        fun dataset column value hne => Or.inl ?_⟩, fun s hs hsome => ?_, fun value hnone => ?_⟩
      · have hsame : st1.files dataset value = st.files dataset value := by
          rw [hrecordedFiles, ← hswapped]
          unfold AllPartitionsOf at hne
          simp only [Store.setDataset, if_neg hne]
        exact hsame
      · have hsame : st1.manifest dataset column value = st.manifest dataset column value := by
          rw [hother dataset column value fun heq => hne heq.1, ← hswapped]
          rfl
        refine Eq.trans (if_neg fun heq => hne heq.1) hsame
      · obtain ⟨row, hrow, hsignature, hmaster⟩ := hrows s hs
        refine ⟨row, Eq.trans (if_neg fun heq => ?_) hrow, hsignature, hmaster⟩
        have hfile := hfiles s.securityId
        have hgone : st1.files t.definition.id s.securityId = none := by simpa using heq.2.2
        rw [← hfile] at hsome
        exact absurd (hsome.symm.trans (congrArg Option.isSome hgone)) (by simp)
      · refine if_pos ⟨rfl, rfl, ?_⟩
        have hfile : st1.files t.definition.id value = area.files t.definition.id value := hfiles value
        rw [hnone] at hfile
        simpa using hfile

/-- A full build that returns leaves every security of its master done. -/
theorem buildAll_done (hex : HexDigests h) (law : t.Lawful p) {b : BuildEnv} {master : List Row}
    {st1 : Store} (hmaster : readOrBuildMaster p h b st = (.ok master, st1))
    (hstaging : st1.staging = false) (hlists : Lists t b.reads st1)
    (hids : (master.map (securityIdOfRow p)).Nodup)
    (hout : buildAll p h b t st = (.ok (), st')) :
    Keeps (AllPartitionsOf t) st1 st' ∧
      ∀ security ∈ master, securityIdOfRow p security ≠ "" → Done p h t st' security := by
  unfold buildAll at hout
  rw [hmaster] at hout
  simp only at hout
  have hsublist := law.candidates_sublist b.reads.partitions master
  rcases hstage : stageMaster p h b t 0 (t.candidates p b.reads.partitions master) stagingStore st1
    with ⟨res, area, st2⟩
  rw [hstage] at hout
  cases res with
  | error e => cases hout
  | ok staged =>
    simp only at hout
    obtain ⟨hkept, hstaged⟩ := stageMaster_spec law hstaging ((hsublist.map _).nodup hids) hstage
    have hdistinct : (staged.map StagedPartition.securityId).Nodup :=
      (hstaged.ids.trans (hsublist.map _)).nodup hids
    have hclean : ∀ s ∈ staged, strip s.securityId = s.securityId := by
      intro s hs
      obtain ⟨security, -, hid⟩ := List.mem_map.mp
        (hstaged.ids.subset (List.mem_map_of_mem (f := StagedPartition.securityId) hs))
      rw [← hid]
      exact strip_securityIdOfRow p security
    obtain ⟨hfilesStaged, hfilesOther⟩ :=
      stagePartitions_files law.definition 0 hdistinct hclean hstaged.written
    have hfiles := commitStaged_files hout
    obtain ⟨hkeeps, hrows, hgone⟩ :=
      commitStaged_spec (hkept.staging.trans hstaging) hclean hdistinct hout
    have hall := hkept.untouched.trans hkeeps
    refine ⟨hall, fun security hmem hne => ?_⟩
    have hsame := hkeeps.sources law.all_apart
    have hdropped : ∀ value ∉ staged.map StagedPartition.securityId,
        area.files t.definition.id value = none := fun value hvalue => hfilesOther value hvalue
    have hnone : securityIdOfRow p security ∉ staged.map StagedPartition.securityId →
        st'.files t.definition.id (securityIdOfRow p security) = none ∧
          ledgerRow st' t.definition (securityIdOfRow p security) = none := fun hnot =>
      ⟨(hfiles _).trans (hdropped _ hnot), hgone _ (hdropped _ hnot)⟩
    by_cases hcandidate : security ∈ t.candidates p b.reads.partitions master
    · rcases hstaged.securities security hcandidate hne with
        ⟨s, hs, hid, hsigned, field, hfield, hsource⟩ | ⟨df, hdf, hempty, hnot⟩
      · obtain ⟨rows, -, hfile⟩ := hfilesStaged s hs
        obtain ⟨row, hrow, hsignature, hmasterHash⟩ := hrows s hs (by rw [hfile]; rfl)
        refine Current.of_signed hex law (hsigned.keeps law.toWellFormed hkeeps law.all_apart)
          ⟨field, hfield, hsource.congr (hsame field hfield)⟩ ?_ (hid ▸ hrow) hsignature hmasterHash
        rw [← hid, hfiles, hfile]
        rfl
      · obtain ⟨hfile, hrow⟩ := hnone hnot
        rw [← law.congr b.reads security b.updatedAt hsame] at hdf
        exact Done.of_empty law (hlists.congr (hall.sources law.all_apart)) hdf hempty hfile hrow
    · -- a security that is no candidate has no sources
      obtain ⟨hfile, -⟩ := hnone fun hid => by
        obtain ⟨other, hother, hsameId⟩ := List.mem_map.mp (hstaged.ids.subset hid)
        have heq := List.inj_on_of_nodup_map hids (hsublist.subset hother) hmem hsameId
        exact hcandidate (heq ▸ hother)
      intro pairs hpairs
      refine Or.inl (.absent (List.eq_nil_iff_forall_not_mem.mpr fun pair hpair => hcandidate ?_)
        hfile)
      obtain ⟨field, hfield, -, hcode, hsome⟩ := (mem_sourcePairs law.sources hpairs).mp hpair
      refine law.candidates hlists hmem ⟨field, hfield, hcode, ?_⟩
      rw [hall.sources law.all_apart field hfield] at hsome
      exact hsome

end Full

end QuantDataCenter.Derived
