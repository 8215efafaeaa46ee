import QuantDataCenter.Derived.IncrementalBuild
import QuantDataCenter.Derived.CanonicalBuild

/-!
A call of the derived builds that returns leaves every security of the stored master up to date,
whether it was a full or an incremental one.
-/

set_option autoImplicit false
set_option relaxedAutoImplicit false

namespace QuantDataCenter.Derived

open QuantDataCenter.Lib QuantDataCenter.Lib.Checked QuantDataCenter.Tabular QuantDataCenter.Storage

section Calls

variable {p : Pandas} {h : Hashing} {call : BuildCall} {master : List Row} {st st' : Store}

/-- Every listing of a call finds the source partitions. -/
def CallLists (call : BuildCall) (st : Store) : Prop :=
  ∀ target t, target.dataset = some t → Lists t (call.env target).reads st

/-- What the builds of canonical datasets rest on: the stored master, and listings that find the
sources. -/
structure Ready (p : Pandas) (call : BuildCall) (master : List Row) (st : Store) : Prop where
  staging : st.staging = false
  stored : StoredMaster p master st
  lists : CallLists call st

/-- The partitions of the datasets of some targets. -/
def DatasetsOf (targets : List BuildTarget) (dataset _value : String) : Prop :=
  ∃ target ∈ targets, ∃ t, target.dataset = some t ∧ dataset = t.definition.id

private theorem dataset_not_source {t t' : CanonicalDataset} {target target' : BuildTarget}
    (ht : target.dataset = some t) (ht' : target'.dataset = some t') :
    ∀ field ∈ t'.fields, field.1 ≠ t.definition.id := by
  intro field hfield heq
  have law : t.Lawful .plain := lawful_of_dataset ht
  have law' : t'.Lawful .plain := lawful_of_dataset ht'
  exact law.not_byCode (heq ▸ law'.sources field hfield)

private theorem dataset_ids_ne {t t' : CanonicalDataset} {target target' : BuildTarget}
    (ht : target.dataset = some t) (ht' : target'.dataset = some t') (hne : target ≠ target') :
    t.definition.id ≠ t'.definition.id := by
  obtain ⟨rfl, rfl⟩ | ⟨rfl, rfl⟩ := dataset_cases ht
  · obtain ⟨rfl, -⟩ | ⟨-, rfl⟩ := dataset_cases ht'
    · exact absurd rfl hne
    · decide
  · obtain ⟨-, rfl⟩ | ⟨rfl, -⟩ := dataset_cases ht'
    · decide
    · exact absurd rfl hne

theorem dataset_ne_master {t : CanonicalDataset} {target : BuildTarget}
    (ht : target.dataset = some t) : t.definition.id ≠ cnSecurityMasterDataset.id := by
  obtain ⟨-, rfl⟩ | ⟨-, rfl⟩ := dataset_cases ht
  · decide
  · decide

theorem Ready.keeps {touched : String → String → Prop} (hready : Ready p call master st)
    (hkeeps : Keeps touched st st')
    (hmaster : ∀ value, ¬touched cnSecurityMasterDataset.id value)
    (hsources : ∀ (target : BuildTarget) (t : CanonicalDataset), target.dataset = some t →
      ∀ field ∈ t.fields, ∀ value, ¬touched field.1 value) : Ready p call master st' where
  staging := hkeeps.staging.trans hready.staging
  stored := ⟨(hkeeps.files _ _ (hmaster "")).trans hready.stored.file, hready.stored.well,
    hready.stored.nonempty, hready.stored.ids⟩
  lists target t ht := (hready.lists target t ht).congr (hkeeps.sources (hsources target t ht))

theorem Ready.untouched (hready : Ready p call master st) (hkeeps : Keeps Untouched st st') :
    Ready p call master st' :=
  hready.keeps hkeeps (fun _ htouched => htouched) fun _ _ _ _ _ _ htouched => htouched

theorem Ready.built {t : CanonicalDataset} {target : BuildTarget} (ht : target.dataset = some t)
    (hready : Ready p call master st) (hkeeps : Keeps (AllPartitionsOf t) st st') :
    Ready p call master st' :=
  hready.keeps hkeeps (fun _ htouched => dataset_ne_master ht htouched.symm)
    fun _ _ ht' field hfield _ htouched => dataset_not_source ht ht' field hfield htouched

private theorem mem_canonical {expanded : List BuildTarget} {target : BuildTarget}
    {t : CanonicalDataset}
    (ht : target.dataset = some t) (hmem : target ∈ expanded) :
    target ∈ expanded.filter fun target => target ∈ [BuildTarget.dailyBar, .valuation] := by
  refine List.mem_filter.mpr ⟨hmem, ?_⟩
  obtain ⟨rfl, -⟩ | ⟨rfl, -⟩ := dataset_cases ht
  · rfl
  · rfl

theorem StoredMaster.readPartition (hstored : StoredMaster p master st) {reads : Reads} {df : Frame}
    (hread : Derived.readPartition p reads st cnSecurityMasterDataset "" = .ok df) :
    df.rows = master ∧ "security_id" ∈ df.columns := by
  refine ⟨readPartition_master hstored.file hstored.well hread, ?_⟩
  obtain ⟨value, hvalue, hdataset⟩ := bind_eq_ok.mp hread
  obtain rfl : "" = value := Except.ok.inj hvalue
  have hwell : ∀ rows, st.files cnSecurityMasterDataset.id "" = some rows →
      StoredWell p cnSecurityMasterDataset "" rows := by
    intro rows hrows
    rw [hstored.file] at hrows
    exact Option.some.inj hrows ▸ hstored.well
  rw [(readDataset_rows wellFormed_master hwell hdataset).2]
  decide

private theorem resolveIncrementalPlan_cases (hready : Ready p call master st)
    {built : DatasetDefinition → Bool} {expanded : List BuildTarget} {plan : IncrementalPlan}
    (hout : resolveIncrementalPlan p h call built expanded [] st = (.ok plan, st')) :
    ((∀ target ∈ expanded, target.dataset = none) ∧ st' = st) ∨
      planTargets p h call built master
        (expanded.filter fun target => target ∈ [BuildTarget.dailyBar, .valuation]) st =
          (.ok plan, st') := by
  unfold resolveIncrementalPlan at hout
  simp only at hout
  by_cases hnil : (expanded.filter fun target => target ∈ [BuildTarget.dailyBar, .valuation]) = []
  · rw [if_pos hnil] at hout
    refine Or.inl ⟨fun target hmem => Option.eq_none_iff_forall_ne_some.mpr fun t ht => ?_,
      (Prod.mk.inj hout).2.symm⟩
    have hmem' := mem_canonical ht hmem
    rw [hnil] at hmem'
    cases hmem'
  rw [if_neg hnil, if_neg (by simp)] at hout
  cases hread : readPartition p call.planReads st cnSecurityMasterDataset "" with
  | error e =>
    rw [hread] at hout
    cases hout
  | ok frame =>
    obtain ⟨hrows, hcolumns⟩ := hready.stored.readPartition hread
    rw [hread] at hout
    simp only [hrows, hready.stored.nonempty, hcolumns, not_true_eq_false, or_self, if_false] at hout
    exact Or.inr hout

private theorem resolveIncrementalPlan_spec (hready : Ready p call master st)
    {built : DatasetDefinition → Bool} {expanded : List BuildTarget} {plan : IncrementalPlan}
    (hout : resolveIncrementalPlan p h call built expanded [] st = (.ok plan, st')) :
    Keeps Untouched st st' ∧ ∀ target ∈ expanded, Covers p h master plan target st' := by
  rcases resolveIncrementalPlan_cases hready hout with ⟨hnone, rfl⟩ | hplan
  · refine ⟨.refl st', fun target hmem t ht => ?_⟩
    rw [hnone target hmem] at ht
    cases ht
  · obtain ⟨hkeeps, hcovers⟩ := planTargets_spec hready.staging hplan
    exact ⟨hkeeps, fun target hmem t ht => hcovers target (mem_canonical ht hmem) t ht⟩

/-- With everything done the plan changes nothing and takes up no security that has rows. -/
private theorem resolveIncrementalPlan_of_done (hready : Ready p call master st)
    (hsince : ∀ pairs, call.updatedSince pairs = false) {built : DatasetDefinition → Bool}
    (hbuilt : ∀ d, built d = true) {expanded : List BuildTarget}
    (hdone : ∀ target ∈ expanded, ∀ t, target.dataset = some t → AllDone p h t master st)
    {plan : IncrementalPlan}
    (hout : resolveIncrementalPlan p h call built expanded [] st = (.ok plan, st')) :
    st' = st ∧ ∀ target ∈ expanded, Idle p master plan target st := by
  rcases resolveIncrementalPlan_cases hready hout with ⟨hnone, rfl⟩ | hplan
  · refine ⟨rfl, fun target hmem t ht => ?_⟩
    rw [hnone target hmem] at ht
    cases ht
  · obtain ⟨hst, -, hidle⟩ := planTargets_of_done hsince hbuilt
      (fun target hmem => hdone target (List.mem_filter.mp hmem).1) hplan
    exact ⟨hst, fun target hmem t ht => hidle target (mem_canonical ht hmem) t ht⟩

private theorem runBuilder_done (hex : HexDigests h) (hready : Ready p call master st)
    {target : BuildTarget} {t : CanonicalDataset} (ht : target.dataset = some t)
    {ids : Option (List String)} (hothers : ∀ list ∈ ids, OthersDone p h t master list st)
    (hout : runBuilder p h call target ids st = (.ok (), st')) :
    Keeps (AllPartitionsOf t) st st' ∧ AllDone p h t master st' := by
  have law : t.Lawful p := lawful_of_dataset ht
  cases ids with
  | some list =>
    rw [runBuilder_some ht] at hout
    exact buildPartitions_done hex law hready.stored hready.staging
      (hready.lists target t ht) (hothers list rfl) hout
  | none =>
    rw [runBuilder_none ht] at hout
    rcases hread : readOrBuildMaster p h (call.env target).toBuildEnv st with ⟨res, st1⟩
    cases res with
    | error e =>
      unfold buildAll at hout
      rw [hread] at hout
      cases hout
    | ok rows =>
      obtain ⟨rfl, rfl⟩ := hready.stored.read hread
      exact buildAll_done hex law hread hready.staging (hready.lists target t ht)
        hready.stored.ids.distinct hout

private theorem targetSecurityIds_spec {target : BuildTarget} {t : CanonicalDataset}
    (ht : target.dataset = some t) {mode : String} {plan : Option IncrementalPlan}
    (hplan : mode = "full" ∨ ∃ made, plan = some made ∧ Covers p h master made target st) :
    ∀ list ∈ targetSecurityIds target mode (plan.getD .none), OthersDone p h t master list st := by
  intro list hlist
  unfold targetSecurityIds at hlist
  rcases hplan with hfull | ⟨made, rfl, hcovers⟩
  · rw [if_pos (Or.inr (Or.inl hfull))] at hlist
    cases hlist
  · simp only [Option.getD_some] at hlist
    split at hlist
    · cases hlist
    · next hpartial =>
      rcases hcovers t ht with hfull | ⟨ids, hids, hothers⟩
      · exact absurd (Or.inr (Or.inr hfull)) hpartial
      · rw [hids] at hlist
        obtain rfl : ids = list := Option.some.inj hlist
        exact hothers

private theorem dataset_isSome {target : BuildTarget} (hne : target ≠ .securityMaster) :
    ∃ t, target.dataset = some t := by
  cases target with
  | securityMaster => exact absurd rfl hne
  | dailyBar => exact ⟨_, rfl⟩
  | valuation => exact ⟨_, rfl⟩

theorem AllDone.keeps {touched : String → String → Prop} {t : CanonicalDataset} (law : t.Lawful p)
    (hkeeps : Keeps touched st st')
    (hsources : ∀ field ∈ t.fields, ∀ value, ¬touched field.1 value)
    (htarget : ∀ value, ¬touched t.definition.id value) (hdone : AllDone p h t master st) :
    AllDone p h t master st' := fun security hmem hne =>
  (hdone security hmem hne).keeps law hkeeps ⟨hsources, htarget _⟩

private theorem runTargets_cons {expanded targets : List BuildTarget} {target : BuildTarget}
    {plan : Option IncrementalPlan}
    (hout : runTargets p h call expanded [] plan (target :: targets) st = (.ok (), st')) :
    ∃ plan' st1 st2,
      ((¬(call.mode = "incremental" ∧ target ≠ .securityMaster ∧ plan = none) ∧
          plan' = plan ∧ st1 = st) ∨
        (target ≠ .securityMaster ∧ ∃ made, plan' = some made ∧
          resolveIncrementalPlan p h call ensuredLayout expanded [] st = (.ok made, st1))) ∧
      runBuilder p h call target (targetSecurityIds target call.mode (plan'.getD .none)) st1 =
        (.ok (), st2) ∧
      runTargets p h call expanded [] plan' targets st2 = (.ok (), st') := by
  unfold runTargets at hout
  simp only [Option.isNone_iff_eq_none] at hout
  by_cases hresolve : call.mode = "incremental" ∧ target ≠ .securityMaster ∧ plan = none
  · rw [if_pos hresolve] at hout
    rcases hmade : resolveIncrementalPlan p h call ensuredLayout expanded [] st with ⟨res, st1⟩
    rw [hmade] at hout
    cases res with
    | error e => cases hout
    | ok made =>
      simp only [Except.map] at hout
      rcases hone : runBuilder p h call target
        (targetSecurityIds target call.mode ((some made).getD .none)) st1 with ⟨res1, st2⟩
      rw [hone] at hout
      cases res1 with
      | error e => cases hout
      | ok u => exact ⟨some made, st1, st2, Or.inr ⟨hresolve.2.1, made, rfl, rfl⟩, hone, hout⟩
  · rw [if_neg hresolve] at hout
    simp only at hout
    rcases hone : runBuilder p h call target
      (targetSecurityIds target call.mode (plan.getD .none)) st with ⟨res1, st2⟩
    rw [hone] at hout
    cases res1 with
    | error e => cases hout
    | ok u => exact ⟨plan, st, st2, Or.inl ⟨hresolve, rfl, rfl⟩, hone, hout⟩

/-- The builds of the canonical datasets, one after the other, leave all of them done. -/
private theorem runTargets_done (hex : HexDigests h) {expanded targets : List BuildTarget}
    (hmaster : .securityMaster ∉ targets) (hsub : targets ⊆ expanded) (hdistinct : targets.Nodup)
    (hmode : call.mode = "full" ∨ call.mode = "incremental") (hready : Ready p call master st)
    {plan : Option IncrementalPlan}
    (hplan : ∀ made ∈ plan, ∀ target ∈ targets, Covers p h master made target st)
    (hout : runTargets p h call expanded [] plan targets st = (.ok (), st')) :
    Ready p call master st' ∧ Keeps (DatasetsOf targets) st st' ∧
      ∀ target ∈ targets, ∀ t, target.dataset = some t → AllDone p h t master st' := by
  induction targets generalizing plan st with
  | nil =>
    obtain ⟨-, rfl⟩ := Prod.mk.inj hout
    exact ⟨hready, .refl st, fun target hmem => by cases hmem⟩
  | cons target targets ih =>
    rw [List.mem_cons, not_or] at hmaster
    rw [List.nodup_cons] at hdistinct
    obtain ⟨t, ht⟩ := dataset_isSome (Ne.symm hmaster.1)
    obtain ⟨plan', st1, st2, hplanned, hone, hrest⟩ := runTargets_cons hout
    have hcovered : Keeps Untouched st st1 ∧
        ∀ made ∈ plan', ∀ target' ∈ target :: targets, Covers p h master made target' st1 := by
      rcases hplanned with ⟨-, rfl, rfl⟩ | ⟨-, made, rfl, hmade⟩
      · exact ⟨.refl st1, hplan⟩
      · obtain ⟨hkeeps, hcovers⟩ := resolveIncrementalPlan_spec hready hmade
        refine ⟨hkeeps, fun made' hmem target' htarget' => ?_⟩
        obtain rfl := Option.some.inj hmem
        exact hcovers target' (hsub htarget')
    have hmade : call.mode = "full" ∨
        ∃ made, plan' = some made ∧ Covers p h master made target st1 := by
      refine hmode.imp_right fun hincremental => ?_
      cases hplan' : plan' with
      | some made => exact ⟨made, rfl, hcovered.2 made hplan' target List.mem_cons_self⟩
      | none =>
        rcases hplanned with ⟨hnot, rfl, -⟩ | ⟨-, made, hsome, -⟩
        · exact absurd ⟨hincremental, Ne.symm hmaster.1, hplan'⟩ hnot
        · exact absurd (hplan'.symm.trans hsome) (by simp)
    have hready1 := hready.untouched hcovered.1
    obtain ⟨hkeeps, hdone⟩ := runBuilder_done hex hready1 ht (targetSecurityIds_spec ht hmade) hone
    have hlater : ∀ made ∈ plan', ∀ target' ∈ targets, Covers p h master made target' st2 := by
      intro made hmem target' htarget'
      refine (hcovered.2 made hmem target' (List.mem_cons_of_mem _ htarget')).keeps hkeeps ?_
      intro t' ht'
      have hne : target' ≠ target := fun heq => hdistinct.1 (heq ▸ htarget')
      exact ⟨fun field hfield _ htouched => dataset_not_source ht ht' field hfield htouched,
        fun _ htouched => dataset_ids_ne ht' ht hne htouched⟩
    obtain ⟨hready', hkeeps', hdone'⟩ := ih hmaster.2
      (fun target' hmem => hsub (List.mem_cons_of_mem _ hmem)) hdistinct.2
      (hready1.built ht hkeeps) hlater hrest
    refine ⟨hready', ?_, fun target' hmem t' ht' => ?_⟩
    · have hfirst : Keeps (DatasetsOf (target :: targets)) st st2 :=
        hcovered.1.untouched.trans (hkeeps.mono fun dataset _ htouched =>
          ⟨target, List.mem_cons_self, t, ht, htouched⟩)
      refine hfirst.trans (hkeeps'.mono fun dataset _ htouched => ?_)
      obtain ⟨target', htarget', hrest'⟩ := htouched
      exact ⟨target', List.mem_cons_of_mem _ htarget', hrest'⟩
    · rcases List.mem_cons.mp hmem with rfl | hmem
      · obtain rfl := Option.some.inj (ht.symm.trans ht')
        refine hdone.keeps (lawful_of_dataset ht) hkeeps' ?_ ?_
        · rintro field hfield value ⟨target2, -, t2, ht2, heq⟩
          exact dataset_not_source ht2 ht field hfield heq
        · rintro value ⟨target2, htarget2, t2, ht2, heq⟩
          exact dataset_ids_ne ht ht2 (fun heq' => hdistinct.1 (heq' ▸ htarget2)) heq
      · exact hdone' target' hmem t' ht'

/-- With everything done an incremental call changes nothing. -/
theorem runTargets_idle {expanded targets : List BuildTarget} (hmaster : .securityMaster ∉ targets)
    (hsub : targets ⊆ expanded) (hmode : call.mode = "incremental")
    (hsince : ∀ pairs, call.updatedSince pairs = false) (hready : Ready p call master st)
    (hdone : ∀ target ∈ expanded, ∀ t, target.dataset = some t → AllDone p h t master st)
    {plan : Option IncrementalPlan}
    (hplan : ∀ made ∈ plan, ∀ target ∈ targets, Idle p master made target st)
    (hout : runTargets p h call expanded [] plan targets st = (.ok (), st')) : st' = st := by
  induction targets generalizing plan with
  | nil => exact (Prod.mk.inj hout).2.symm
  | cons target targets ih =>
    rw [List.mem_cons, not_or] at hmaster
    obtain ⟨t, ht⟩ := dataset_isSome (Ne.symm hmaster.1)
    obtain ⟨plan', st1, st2, hplanned, hone, hrest⟩ := runTargets_cons hout
    have hmade : st1 = st ∧ ∃ made, plan' = some made ∧
        ∀ target' ∈ target :: targets, Idle p master made target' st := by
      rcases hplanned with ⟨hnot, rfl, rfl⟩ | ⟨-, made, rfl, hmade⟩
      · refine ⟨rfl, ?_⟩
        cases hplan' : plan' with
        | none => exact absurd ⟨hmode, Ne.symm hmaster.1, hplan'⟩ hnot
        | some made => exact ⟨made, rfl, hplan made hplan'⟩
      · obtain ⟨hst, hidle⟩ := resolveIncrementalPlan_of_done hready hsince (fun _ => rfl) hdone hmade
        exact ⟨hst, made, rfl, fun target' hmem => hidle target' (hsub hmem)⟩
    obtain ⟨rfl, made, rfl, hidle⟩ := hmade
    obtain ⟨ids, hpartial, hids, hbarren⟩ := hidle target List.mem_cons_self t ht
    have hlisted : targetSecurityIds target call.mode ((some made).getD .none) = some ids := by
      unfold targetSecurityIds
      rw [Option.getD_some, if_neg (by simp [Ne.symm hmaster.1, hmode, hpartial]), hids]
      rfl
    rw [hlisted, runBuilder_some ht] at hone
    obtain rfl := buildPartitions_barren (lawful_of_dataset ht) hready.stored
      (hready.lists target t ht) hbarren hone
    refine ih hmaster.2 (fun target' hmem => hsub (List.mem_cons_of_mem _ hmem)) ?_ hrest
    intro made' hmem target' htarget'
    obtain rfl := Option.some.inj hmem
    exact hidle target' (List.mem_cons_of_mem _ htarget')

/-! The master of a call -/

theorem expandedTargets_cases {expanded : List BuildTarget}
    (hexpanded : expandedTargets call = .ok expanded) :
    ∃ targets : List BuildTarget, targets.Nodup ∧ .securityMaster ∉ targets ∧
      (expanded = targets ∨ expanded = .securityMaster :: targets) := by
  have hfiltered : ∀ f : BuildTarget → Bool, ∃ targets : List BuildTarget, targets.Nodup ∧
      .securityMaster ∉ targets ∧ (targetOrder.filter f = targets ∨
        targetOrder.filter f = .securityMaster :: targets) := by
    intro f
    refine ⟨[BuildTarget.dailyBar, .valuation].filter f, ?_, ?_, ?_⟩
    · exact List.filter_sublist.nodup (by decide)
    · simp
    · unfold targetOrder
      rw [List.filter_cons]
      split
      · exact Or.inr rfl
      · exact Or.inl rfl
  obtain ⟨requested, hrequested, hout⟩ := bind_eq_ok.mp hexpanded
  have hfilter : ∃ f : BuildTarget → Bool, requested = targetOrder.filter f := by
    unfold expandTargets at hrequested
    split at hrequested
    · cases hrequested
    · split at hrequested
      · cases hrequested
      · obtain ⟨lists, -, hlists⟩ := bind_eq_ok.mp hrequested
        exact ⟨_, (Except.ok.inj hlists).symm⟩
  obtain ⟨f, rfl⟩ := hfilter
  obtain ⟨targets, hdistinct, hmaster, htargets⟩ := hfiltered f
  refine ⟨targets, hdistinct, hmaster, ?_⟩
  split at hout
  · next hadded =>
    obtain rfl := Except.ok.inj hout
    rcases htargets with heq | heq
    · exact Or.inr (by rw [heq])
    · exact absurd (heq ▸ List.mem_cons_self) hadded.2.2
  · obtain rfl := Except.ok.inj hout
    exact htargets

/-- The master that a build of it stores: one row for each record, and nothing else changes. -/
structure MasterBuilt (p : Pandas) (inputs : MasterInputs) (updatedAt : Int) (rows : List Row)
    (st st' : Store) : Prop where
  staging : st'.staging = st.staging
  file : st'.files cnSecurityMasterDataset.id "" = some rows
  well : StoredWell p cnSecurityMasterDataset "" rows
  records : rows.Perm ((masterRecords p inputs).map fun record =>
    finalizeRecord p record (storedStamp updatedAt) inputs.qlibSymbols)
  files : ∀ dataset ≠ cnSecurityMasterDataset.id, st'.files dataset = st.files dataset
  manifest : ∀ dataset ≠ cnSecurityMasterDataset.id, st'.manifest dataset = st.manifest dataset

private theorem buildSecurityMaster_spec {env : WriteEnv} {reads : Reads} {updatedAt : Int}
    {summary : MasterSummary}
    (hbuild : buildSecurityMaster p h env reads updatedAt st = (.ok summary, st')) :
    ∃ inputs rows, masterInputs p reads st = .ok inputs ∧ MasterBuilt p inputs updatedAt rows st st' := by
  obtain ⟨inputs, hinputs⟩ := buildSecurityMaster_inputs hbuild
  unfold buildSecurityMaster at hbuild
  rw [hinputs] at hbuild
  simp only at hbuild
  rcases hwrite : writeDataset p h env "cn_security_master" (masterFrame p inputs updatedAt) none
    (some .replace) false st with ⟨res, st1⟩
  rw [hwrite] at hbuild
  cases res with
  | error e => cases hbuild
  | ok result =>
    obtain rfl : st1 = st' := by
      simp only at hbuild
      split at hbuild
      · cases hbuild
      · exact congrArg Prod.snd hbuild
    have hd : datasetDefinition "cn_security_master" = .ok cnSecurityMasterDataset := rfl
    obtain ⟨value, frame, hvalue, hprepare, same⟩ := replace_written hd hwrite
    obtain rfl : value = "" := (Except.ok.inj hvalue).symm
    obtain ⟨coerced, hcoerced, -, hrows, -, hwell⟩ := prepared_stored wellFormed_master hvalue hprepare
    obtain ⟨coerced', hcoerced', -, hrecords⟩ := @coercedFrame_master p updatedAt inputs
    obtain rfl := Except.ok.inj (hcoerced.symm.trans hcoerced')
    have hfiles : st1.files = (st.setFile cnSecurityMasterDataset.id "" frame.rows).files := by
      rw [← same.files, Store.put_files]
    refine ⟨inputs, frame.rows, hinputs, ?_, ?_, hwell, ?_, fun dataset hne => ?_, fun dataset hne => ?_⟩
    · rw [← same.staging, Store.put_staging]
    · rw [hfiles]
      exact Store.setFile_files_self ..
    · rw [hrows]
      exact (sortValues_perm _ _ _).trans hrecords
    · funext value
      rw [hfiles]
      exact Store.setFile_files_of_ne st frame.rows fun heq => hne heq.1
    · rw [← same.manifest]
      unfold Store.put
      split
      · rfl
      · funext column value
        exact setManifest_manifest_of_ne _ _ fun heq => hne heq.1

section Built

variable {inputs : MasterInputs} {updatedAt : Int} {rows : List Row}

private theorem MasterBuilt.masterRows (hbuilt : MasterBuilt p inputs updatedAt rows st st') :
    MasterRows p inputs rows := by
  refine ⟨_, hbuilt.records, fun record _ => ?_⟩
  obtain ⟨hid, -, -, hakshare, hbaostock, -⟩ :=
    @record_cells p (storedStamp updatedAt) inputs.qlibSymbols record
  exact ⟨hid, hakshare, hbaostock⟩

theorem MasterBuilt.keeps (hbuilt : MasterBuilt p inputs updatedAt rows st st') :
    Keeps (fun dataset _ => dataset = cnSecurityMasterDataset.id) st st' where
  staging := hbuilt.staging
  files dataset value hne := by rw [hbuilt.files dataset hne]
  rows dataset column value hne := Or.inl (by rw [hbuilt.manifest dataset hne])

theorem source_ne_master {t : CanonicalDataset} {target : BuildTarget}
    (ht : target.dataset = some t) : ∀ field ∈ t.fields, field.1 ≠ cnSecurityMasterDataset.id := by
  intro field hfield heq
  obtain ⟨d, hd, hcolumn⟩ := (lawful_of_dataset (p := .plain) ht).sources field hfield
  rw [heq] at hd
  obtain rfl : cnSecurityMasterDataset = d := Except.ok.inj hd
  cases hcolumn

/-- The builds rest on the master that was just built, when its sources name a security. -/
theorem MasterBuilt.ready (hbuilt : MasterBuilt p inputs updatedAt rows st st')
    (hstaging : st.staging = false) (hlists : CallLists call st)
    (hnamed : namedSecurities p inputs ≠ []) : Ready p call rows st' where
  staging := hbuilt.staging.trans hstaging
  stored := by
    refine ⟨hbuilt.file, hbuilt.well, fun hnil => ?_, fun security hmem => ?_,
      hbuilt.masterRows.ids_nodup⟩
    · obtain ⟨key, hkey⟩ := List.exists_mem_of_ne_nil _ hnamed
      obtain ⟨record, hrecord, -⟩ := exists_record hkey
      have hnone := hnil ▸ hbuilt.records
      exact absurd (List.map_eq_nil_iff.mp hnone.nil_eq.symm) (List.ne_nil_of_mem hrecord)
    · obtain ⟨record, hrecord, rfl⟩ := List.mem_map.mp (hbuilt.records.mem_iff.mp hmem)
      have hplain := namedSecurities_plain
        ((merged_masterRecords p inputs).named_of_mem record hrecord)
      exact ⟨record.securityId, (@record_cells p (storedStamp updatedAt) inputs.qlibSymbols record).1,
        (plain_record hplain).2.2.2⟩
  lists target t ht := (hlists target t ht).congr fun field hfield =>
    hbuilt.files field.1 (source_ne_master ht field hfield)

end Built

/-- What a call starts from: listings that find the sources, and a master that is stored with rows,
or whose sources name a security when the call builds it. -/
structure Startable (p : Pandas) (call : BuildCall) (expanded : List BuildTarget) (st : Store) :
    Prop where
  staging : st.staging = false
  lists : CallLists call st
  named : .securityMaster ∈ expanded → ∀ inputs,
    masterInputs p (call.env .securityMaster).reads st = .ok inputs → namedSecurities p inputs ≠ []
  stored : .securityMaster ∉ expanded → StoredMaster p (storedMaster st) st

theorem buildDerivedDatasets_spec {expanded : List BuildTarget}
    (hexpanded : expandedTargets call = .ok expanded)
    (hids : normalizeSecurityIds p call.securityIds = [])
    (hout : buildDerivedDatasets p h call st = (.ok (), st')) :
    (call.mode = "full" ∨ call.mode = "incremental") ∧
      runTargets p h call expanded [] none expanded st = (.ok (), st') := by
  unfold buildDerivedDatasets at hout
  split at hout
  · cases hout
  · next hmode =>
    have hmode' : call.mode = "full" ∨ call.mode = "incremental" :=
      or_iff_not_imp_left.mpr (by simpa using hmode)
    refine ⟨hmode', ?_⟩
    simp only [hids, ne_eq, not_true_eq_false, and_false, if_false, hexpanded] at hout
    rcases hrun : runTargets p h call expanded [] none expanded st with ⟨res, st1⟩
    rw [hrun] at hout
    cases res with
    | error e => cases hout
    | ok u =>
      obtain ⟨-, rfl⟩ := Prod.mk.inj hout
      rfl

theorem runTargets_master {expanded targets : List BuildTarget}
    (hout : runTargets p h call expanded [] none (.securityMaster :: targets) st = (.ok (), st')) :
    ∃ inputs rows st1, masterInputs p (call.env .securityMaster).reads st = .ok inputs ∧
      MasterBuilt p inputs (call.env .securityMaster).updatedAt rows st st1 ∧
      runTargets p h call expanded [] none targets st1 = (.ok (), st') := by
  obtain ⟨plan', st1, st2, hplanned, hone, hrest⟩ := runTargets_cons hout
  have hplan : plan' = none ∧ st1 = st := by
    rcases hplanned with ⟨-, hplan, hst⟩ | ⟨hne, -⟩
    · exact ⟨hplan, hst⟩
    · exact absurd rfl hne
  obtain ⟨rfl, rfl⟩ := hplan
  unfold runBuilder at hone
  simp only at hone
  rcases hbuild : buildSecurityMaster p h (call.env .securityMaster).masterEnv
    (call.env .securityMaster).reads (call.env .securityMaster).updatedAt st1 with ⟨res, st3⟩
  rw [hbuild] at hone
  cases res with
  | error e => cases hone
  | ok summary =>
    obtain ⟨-, rfl⟩ := Prod.mk.inj hone
    obtain ⟨inputs, rows, hinputs, hbuilt⟩ := buildSecurityMaster_spec hbuild
    exact ⟨inputs, rows, st3, hinputs, hbuilt, hrest⟩

private theorem StoredMaster.eq (hstored : StoredMaster p master st) :
    storedMaster st = master := by
  rw [storedMaster, hstored.file, Option.getD_some]

theorem DatasetsOf.canonical {targets : List BuildTarget} {dataset value : String}
    (hmem : DatasetsOf targets dataset value) :
    dataset = cnStockDailyBarDataset.id ∨ dataset = cnStockValuationDataset.id := by
  obtain ⟨target, -, t, ht, rfl⟩ := hmem
  obtain ⟨-, rfl⟩ | ⟨-, rfl⟩ := dataset_cases ht
  · exact Or.inl rfl
  · exact Or.inr rfl

/-- How a call runs: the master is built or found, and then the canonical datasets are built. -/
structure CallRun (p : Pandas) (h : Hashing) (call : BuildCall) (expanded : List BuildTarget)
    (st st1 st' : Store) : Prop where
  ready : Ready p call (storedMaster st') st'
  master : if .securityMaster ∈ expanded then
    ∃ inputs, masterInputs p (call.env .securityMaster).reads st = .ok inputs ∧
      MasterBuilt p inputs (call.env .securityMaster).updatedAt (storedMaster st') st st1 else st1 = st
  files : ∀ dataset ≠ cnStockDailyBarDataset.id, dataset ≠ cnStockValuationDataset.id →
    st'.files dataset = st1.files dataset
  done : ∀ target ∈ expanded, ∀ t, target.dataset = some t → AllDone p h t (storedMaster st') st'

theorem buildDerivedDatasets_run (hex : HexDigests h) {expanded : List BuildTarget}
    (hexpanded : expandedTargets call = .ok expanded)
    (hids : normalizeSecurityIds p call.securityIds = [])
    (hstart : Startable p call expanded st)
    (hout : buildDerivedDatasets p h call st = (.ok (), st')) :
    ∃ st1, CallRun p h call expanded st st1 st' := by
  obtain ⟨hmode, hrun⟩ := buildDerivedDatasets_spec hexpanded hids hout
  obtain ⟨targets, hdistinct, hmaster, htargets⟩ := expandedTargets_cases hexpanded
  have hcanonical : ∀ (master : List Row) (st1 : Store), targets ⊆ expanded →
      Ready p call master st1 → runTargets p h call expanded [] none targets st1 = (.ok (), st') →
      Ready p call (storedMaster st') st' ∧ storedMaster st' = master ∧
        (∀ dataset ≠ cnStockDailyBarDataset.id, dataset ≠ cnStockValuationDataset.id →
          st'.files dataset = st1.files dataset) ∧
        ∀ target ∈ targets, ∀ t, target.dataset = some t → AllDone p h t (storedMaster st') st' := by
    intro master st1 hsub hready hrest
    obtain ⟨hready', hkeeps, hdone⟩ := runTargets_done hex hmaster hsub hdistinct hmode hready
      (fun made hmem => by cases hmem) hrest
    rw [hready'.stored.eq]
    refine ⟨hready', rfl, fun dataset hbars hvaluations => funext fun value => ?_, hdone⟩
    exact hkeeps.files dataset value fun htouched => htouched.canonical.elim hbars hvaluations
  rcases htargets with rfl | rfl
  · obtain ⟨hready, -, hfiles, hdone⟩ := hcanonical _ st (List.Subset.refl _)
      ⟨hstart.staging, hstart.stored hmaster, hstart.lists⟩ hrun
    exact ⟨st, hready, by rw [if_neg hmaster], hfiles, hdone⟩
  · obtain ⟨inputs, rows, st1, hinputs, hbuilt, hrest⟩ := runTargets_master hrun
    obtain ⟨hready, hrows, hfiles, hdone⟩ := hcanonical rows st1 (List.subset_cons_self _ _)
      (hbuilt.ready hstart.staging hstart.lists (hstart.named List.mem_cons_self inputs hinputs)) hrest
    refine ⟨st1, hready, ?_, hfiles, fun target hmem t ht => ?_⟩
    · rw [if_pos List.mem_cons_self, hrows]
      exact ⟨inputs, hinputs, hbuilt⟩
    · rcases List.mem_cons.mp hmem with rfl | hmem
      · cases ht
      · exact hdone target hmem t ht

/-- After a call that returns, every security of the stored master has an up-to-date partition in
each canonical dataset of the call, or none because its sources hold no rows. -/
theorem build_leaves_current (hex : HexDigests h) {expanded : List BuildTarget}
    (hexpanded : expandedTargets call = .ok expanded)
    (hids : normalizeSecurityIds p call.securityIds = [])
    (hstart : Startable p call expanded st)
    (hout : buildDerivedDatasets p h call st = (.ok (), st')) :
    StoredMaster p (storedMaster st') st' ∧ ∀ target ∈ expanded, ∀ t, target.dataset = some t →
      AllDone p h t (storedMaster st') st' := by
  obtain ⟨st1, hrun⟩ := buildDerivedDatasets_run hex hexpanded hids hstart hout
  exact ⟨hrun.ready.stored, hrun.done⟩

end Calls

/-! A call that builds the master, and the bars and valuations of its one security -/

def hexDigits : Hashing where
  arrowDigest _ _ := "a0"
  schemaDigest _ := "b1"
  masterDigest _ := "c2"
  signatureDigest _ _ := "d3"

theorem hexDigests_hexDigits : HexDigests hexDigits where
  signature _ _ := ⟨show strip "d3" = "d3" by decide, show "d3" ≠ "" by decide⟩
  master _ := show strip "c2" = "c2" by decide

def basicFiles : List ((String × String) × List Row) :=
  [(("baostock_cn_stock_basic", ""),
      [rowOf [("code", .text "sh.600000"), ("name", .text "浦发银行"), ("listing_status", .text "1")]]),
    (("baostock_cn_stock_daily_bar_qfq", "sh.600000"),
      [rowOf [("date", .date 19724), ("code", .text "sh.600000"), ("close", .real 8)]]),
    (("akshare_cn_stock_daily_bar_qfq", "600000"),
      [rowOf [("date", .date 19724), ("code", .text "600000"), ("close", .real 9),
        ("adjustment", .text "qfq")],
       rowOf [("date", .date 19725), ("code", .text "600000"), ("close", .real 9),
        ("adjustment", .text "qfq")]]),
    ((akshareValuationDataset, "600000"),
      [rowOf [("date", .date 19724), ("code", .text "600000"), ("pb", .real 2)]])]

def basicAndSources : Store :=
  { Store.empty with files := fun dataset value => Dict.get (dataset, value) basicFiles }

def buildEnv (updatedAt : Int) : PartitionBuildEnv where
  reads := bankReads
  updatedAt := updatedAt
  masterEnv := .plain true
  signing _ := .plain true
  stagingEnvs _ := .plain true
  ledgerEnvs _ := .plain true
  existed := false
  outcomes := ⟨true, true, true, true, true, .all _, .all _, fun _ => false⟩
  cleanupCut := none
  partitionOutcomes _ := ⟨true, true, true, true, true, .all _, .all _, fun _ => false⟩

def incrementalCall (updatedAt : Int) : BuildCall where
  targets := ["all"]
  excludeTargets := []
  includeSecurityMaster := true
  mode := "incremental"
  securityIds := []
  updatedSince _ := false
  planReads := bankReads
  planSigning _ := .plain true
  env _ := buildEnv updatedAt

theorem startable_basicAndSources :
    Startable printing (incrementalCall 0) targetOrder basicAndSources where
  staging := rfl
  lists target t ht field hfield value hfile := by
    have hvalues : ∀ e ∈ basicFiles,
        e.1.1 = "baostock_cn_stock_basic" ∨ e.1.2 ∈ ["600000", "sh.600000"] := by decide
    obtain ⟨rows, hrows⟩ := Option.isSome_iff_exists.mp hfile
    rcases hvalues _ (Dict.mem_of_get hrows) with hbasic | hlisted
    · -- the basics have no partitions
      obtain ⟨d, hd, hcolumn⟩ := (lawful_of_dataset (p := printing) ht).sources field hfield
      obtain rfl : baostockCnStockBasicDataset = d := Except.ok.inj (hbasic ▸ hd)
      cases hcolumn
    · exact hlisted
  named _ inputs hinputs := by
    have hnamed : (masterInputs printing bankReads basicAndSources).toOption.map
        (namedSecurities printing) = some [("SH", "600000")] := by decide
    have hread : masterInputs printing bankReads basicAndSources = .ok inputs := hinputs
    rw [hread] at hnamed
    rw [Option.some.inj hnamed]
    decide
  stored hnot := absurd (by decide) hnot

theorem incrementalCall_returns : (buildDerivedDatasets printing hexDigits (incrementalCall 0)
    basicAndSources).1.toOption = some () := by
  decide +kernel

private theorem incrementalCall_builds :
    let st' := (buildDerivedDatasets printing hexDigits (incrementalCall 0) basicAndSources).2
    ∀ d ∈ [cnStockDailyBarDataset, cnStockValuationDataset],
      (st'.files d.id "SH.600000").isSome = true ∧
        (ledgerRow st' d "SH.600000").map ManifestRow.sourceSignature = some "d3" := by
  decide +kernel

theorem build_leaves_current_basic :
    let st' := (buildDerivedDatasets printing hexDigits (incrementalCall 0) basicAndSources).2
    (∀ d ∈ [cnStockDailyBarDataset, cnStockValuationDataset],
      (st'.files d.id "SH.600000").isSome = true ∧
        (ledgerRow st' d "SH.600000").map ManifestRow.sourceSignature = some "d3") ∧
    StoredMaster printing (storedMaster st') st' ∧
      ∀ target ∈ targetOrder, ∀ t, target.dataset = some t →
        AllDone printing hexDigits t (storedMaster st') st' :=
  ⟨incrementalCall_builds, build_leaves_current hexDigests_hexDigits rfl rfl
    startable_basicAndSources (Prod.ext (eq_ok_of_toOption incrementalCall_returns) rfl)⟩

end QuantDataCenter.Derived
