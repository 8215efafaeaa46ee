import QuantDataCenter.Derived.IncrementalPlan

/-!
The plan of an incremental build takes up every security that is not up to date, and the builders
leave every security of the master up to date.
-/

set_option autoImplicit false
set_option relaxedAutoImplicit false

namespace QuantDataCenter.Derived

open QuantDataCenter.Lib QuantDataCenter.Lib.Checked QuantDataCenter.Tabular QuantDataCenter.Storage

/-- The ids of a master: texts without blanks around them, each in one row. -/
structure Identified (p : Pandas) (master : List Row) : Prop where
  texts : ∀ security ∈ master, ∃ id, security "security_id" = .text id ∧ strip id = id
  distinct : (master.map (securityIdOfRow p)).Nodup

def AllDone (p : Pandas) (h : Hashing) (t : CanonicalDataset) (master : List Row) (st : Store) :
    Prop :=
  ∀ security ∈ master, securityIdOfRow p security ≠ "" → Done p h t st security

/-- Every security of the master that is not listed is done. -/
def OthersDone (p : Pandas) (h : Hashing) (t : CanonicalDataset) (master : List Row)
    (ids : List String) (st : Store) : Prop :=
  ∀ security ∈ master, securityIdOfRow p security ≠ "" → securityIdOfRow p security ∉ ids →
    Done p h t st security

/-- The listed ids are those of securities whose sources hold no rows. -/
def ListsBarren (p : Pandas) (t : CanonicalDataset) (master : List Row) (ids : List String)
    (st : Store) : Prop :=
  ∀ id ∈ ids, ∃ security ∈ master, securityIdOfRow p security = id ∧
    ∃ pairs, Barren p t st security pairs

/-! One security in the plan -/

section Changed

variable {p : Pandas} {h : Hashing} {call : BuildCall} {t : CanonicalDataset}
  {manifests : String → Option ManifestRow} {security : Row} {st st' : Store}

/-- What the plan leaves out is up to date. -/
private theorem securityChanged_spec (law : t.Lawful p) (hstaging : st.staging = false)
    (hmanifests : ∀ id, manifests id = ledgerRow st t.definition id)
    {res : Except SignatureError Bool}
    (hout : securityChanged p h call t manifests security st = (res, st')) :
    Keeps Untouched st st' ∧ (res = .ok false → Done p h t st' security) := by
  unfold securityChanged at hout
  cases hpairs : sourcePartitionPairsForSecurity p st security t.fields with
  | error e =>
    rw [hpairs] at hout
    obtain ⟨rfl, rfl⟩ := Prod.mk.inj hout
    exact ⟨.refl st, by simp⟩
  | ok pairs =>
    rw [hpairs] at hout
    simp only at hout
    cases hvalue : partitionValue p t.definition (securityPartition (securityIdOfRow p security)) with
    | error e =>
      rw [hvalue] at hout
      obtain ⟨rfl, rfl⟩ := Prod.mk.inj hout
      exact ⟨.refl st, by simp⟩
    | ok value =>
      have hid : value = securityIdOfRow p security :=
        partitionValue_security (strip_securityIdOfRow p security) hvalue
      rw [hvalue] at hout
      simp only [hid] at hout
      by_cases hnil : pairs = []
      · rw [if_pos hnil] at hout
        obtain ⟨rfl, rfl⟩ := Prod.mk.inj hout
        refine ⟨.refl st, fun hfalse pairs' hpairs' => Or.inl (.absent ?_ ?_)⟩
        · rw [← Except.ok.inj (hpairs.symm.trans hpairs')]
          exact hnil
        · exact Option.not_isSome_iff_eq_none.mp (by simp [Except.ok.inj hfalse])
      · rw [if_neg hnil] at hout
        by_cases hfile : (st.files t.definition.id (securityIdOfRow p security)).isSome = false
        · rw [if_pos hfile] at hout
          obtain ⟨rfl, rfl⟩ := Prod.mk.inj hout
          exact ⟨.refl st, by simp⟩
        · rw [if_neg hfile] at hout
          rcases hsign : currentSourceSignatureForSecurity p h call.planSigning security pairs st with
            ⟨res1, st1⟩
          obtain ⟨hkeeps, hsigned⟩ :=
            currentSourceSignature_spec hstaging (sourcePairs_code law.toWellFormed hpairs) hsign
          rw [hsign] at hout
          cases res1 with
          | error e =>
            obtain ⟨rfl, rfl⟩ := Prod.mk.inj hout
            exact ⟨hkeeps, by simp⟩
          | ok signed =>
            obtain ⟨entries, hentries, rfl⟩ := hsigned signed rfl
            simp only [hmanifests] at hout
            cases hrow : ledgerRow st t.definition (securityIdOfRow p security) with
            | none =>
              rw [hrow] at hout
              obtain ⟨rfl, rfl⟩ := Prod.mk.inj hout
              exact ⟨hkeeps, by simp⟩
            | some row =>
              rw [hrow] at hout
              obtain ⟨rfl, rfl⟩ := Prod.mk.inj hout
              refine ⟨hkeeps, fun hfalse pairs' hpairs' => ?_⟩
              have hcond := of_decide_eq_false (Except.ok.inj hfalse)
              simp only [not_or, not_not] at hcond
              obtain ⟨hne, hsignature, hmaster, -⟩ := hcond
              rw [sourcePairs_congr law.sources (hkeeps.sources fun _ _ _ htouched => htouched),
                hpairs] at hpairs'
              obtain rfl := Except.ok.inj hpairs'
              refine Or.inl (.signed hnil ?_ entries row hentries
                (hkeeps.ledgerRow (fun htouched => htouched) hrow) hsignature.symm hne hmaster.symm)
              rw [hkeeps.files _ _ fun htouched => htouched]
              exact Bool.not_eq_false _ ▸ hfile

/-- A done security is taken up only if its sources hold no rows, and nothing is rebuilt for it. -/
private theorem securityChanged_of_done (hsince : ∀ pairs, call.updatedSince pairs = false)
    (hmanifests : ∀ id, manifests id = ledgerRow st t.definition id)
    (hdone : Done p h t st security) {res : Except SignatureError Bool}
    (hout : securityChanged p h call t manifests security st = (res, st')) :
    st' = st ∧ (∀ dataset value, res ≠ .error (.missingManifest dataset value)) ∧
      (res = .ok true → ∃ pairs, Barren p t st security pairs) := by
  unfold securityChanged at hout
  cases hpairs : sourcePartitionPairsForSecurity p st security t.fields with
  | error e =>
    rw [hpairs] at hout
    obtain ⟨rfl, rfl⟩ := Prod.mk.inj hout
    exact ⟨rfl, by simp, by simp⟩
  | ok pairs =>
    rw [hpairs] at hout
    simp only at hout
    cases hvalue : partitionValue p t.definition (securityPartition (securityIdOfRow p security)) with
    | error e =>
      rw [hvalue] at hout
      obtain ⟨rfl, rfl⟩ := Prod.mk.inj hout
      exact ⟨rfl, by simp, by simp⟩
    | ok value =>
      have hid : value = securityIdOfRow p security :=
        partitionValue_security (strip_securityIdOfRow p security) hvalue
      rw [hvalue] at hout
      simp only [hid] at hout
      rcases hdone pairs hpairs with hcurrent | hbarren
      · cases hcurrent with
        | absent hnil hfile =>
          rw [if_pos hnil, hfile] at hout
          obtain ⟨rfl, rfl⟩ := Prod.mk.inj hout
          exact ⟨rfl, by simp, by simp⟩
        | signed hne hfile entries row hentries hrow hsignature hsigned hmaster =>
          rw [if_neg hne, if_neg (by simp [hfile]), currentSourceSignature_of_entries hentries] at hout
          simp only [hmanifests, hrow] at hout
          obtain ⟨rfl, rfl⟩ := Prod.mk.inj hout
          refine ⟨rfl, by simp, fun htrue => ?_⟩
          have hcond := of_decide_eq_true (Except.ok.inj htrue)
          rw [hsignature, hmaster, hsince] at hcond
          rw [hsignature] at hsigned
          simp [hsigned] at hcond
      · rw [if_neg hbarren.pairs_ne, if_pos (by simp [hbarren.file])] at hout
        obtain ⟨rfl, rfl⟩ := Prod.mk.inj hout
        exact ⟨rfl, by simp, fun _ => ⟨pairs, hbarren⟩⟩

end Changed

/-! The plan -/

section Plan

variable {p : Pandas} {h : Hashing} {call : BuildCall} {t : CanonicalDataset}
  {manifests : String → Option ManifestRow} {master : List Row} {st st' : Store}

private theorem changedLoop_spec (law : t.Lawful p) (hstaging : st.staging = false)
    (hmanifests : ∀ id, manifests id = ledgerRow st t.definition id)
    {res : Except SignatureError (List String)}
    (hout : changedLoop p h call t manifests master st = (res, st')) :
    Keeps Untouched st st' ∧ ∀ ids, res = .ok ids → OthersDone p h t master ids st' := by
  induction master generalizing st st' res with
  | nil =>
    obtain ⟨rfl, rfl⟩ := Prod.mk.inj hout
    exact ⟨.refl st, fun ids _ security hmem => by cases hmem⟩
  | cons security master ih =>
    unfold changedLoop at hout
    by_cases hid : securityIdOfRow p security = ""
    · rw [if_pos hid] at hout
      obtain ⟨hkeeps, hothers⟩ := ih hstaging hmanifests hout
      refine ⟨hkeeps, fun ids heq security' hmem hne hnot => ?_⟩
      rcases List.mem_cons.mp hmem with rfl | hmem
      · exact absurd hid hne
      · exact hothers ids heq security' hmem hne hnot
    rw [if_neg hid] at hout
    rcases hone : securityChanged p h call t manifests security st with ⟨res1, st1⟩
    obtain ⟨hkeeps, hdone⟩ := securityChanged_spec law hstaging hmanifests hone
    rw [hone] at hout
    cases res1 with
    | error e =>
      obtain ⟨rfl, rfl⟩ := Prod.mk.inj hout
      exact ⟨hkeeps, fun ids heq => by cases heq⟩
    | ok changed =>
      simp only at hout
      rcases hrest : changedLoop p h call t manifests master st1 with ⟨res2, st2⟩
      obtain ⟨hkeeps', hothers⟩ := ih (hkeeps.staging.trans hstaging) (fun id =>
        (hmanifests id).trans (hkeeps.ledgerRow_eq law.not_byCode fun htouched => htouched).symm) hrest
      rw [hrest] at hout
      cases res2 with
      | error e =>
        obtain ⟨rfl, rfl⟩ := Prod.mk.inj hout
        exact ⟨hkeeps.trans hkeeps', fun ids heq => by cases heq⟩
      | ok rest =>
        obtain ⟨rfl, rfl⟩ := Prod.mk.inj hout
        refine ⟨hkeeps.trans hkeeps', fun ids heq security' hmem hne hnot => ?_⟩
        obtain rfl := Except.ok.inj heq
        rcases List.mem_cons.mp hmem with rfl | hmem
        · cases changed with
          | false => exact (hdone rfl).keeps law hkeeps' ⟨fun _ _ _ ht => ht, fun ht => ht⟩
          | true => exact absurd List.mem_cons_self hnot
        · refine hothers rest rfl security' hmem hne fun hrest' => hnot ?_
          cases changed with
          | false => exact hrest'
          | true => exact List.mem_cons_of_mem _ hrest'

private theorem changedLoop_of_done (hsince : ∀ pairs, call.updatedSince pairs = false)
    (hmanifests : ∀ id, manifests id = ledgerRow st t.definition id)
    (hdone : AllDone p h t master st) {res : Except SignatureError (List String)}
    (hout : changedLoop p h call t manifests master st = (res, st')) :
    st' = st ∧ (∀ dataset value, res ≠ .error (.missingManifest dataset value)) ∧
      ∀ ids, res = .ok ids → ListsBarren p t master ids st := by
  induction master generalizing st' res with
  | nil =>
    obtain ⟨rfl, rfl⟩ := Prod.mk.inj hout
    refine ⟨rfl, by simp, fun ids heq => ?_⟩
    obtain rfl := Except.ok.inj heq
    exact fun id hid => by cases hid
  | cons security master ih =>
    have hrestDone : AllDone p h t master st := fun security' hmem =>
      hdone security' (List.mem_cons_of_mem _ hmem)
    have hmore : ∀ ids, ListsBarren p t master ids st →
        ListsBarren p t (security :: master) ids st := by
      intro ids hids id hid
      obtain ⟨security', hmem, hrest⟩ := hids id hid
      exact ⟨security', List.mem_cons_of_mem _ hmem, hrest⟩
    unfold changedLoop at hout
    by_cases hid : securityIdOfRow p security = ""
    · rw [if_pos hid] at hout
      obtain ⟨hst, hmissing, hids⟩ := ih hrestDone hout
      exact ⟨hst, hmissing, fun ids heq => hmore ids (hids ids heq)⟩
    rw [if_neg hid] at hout
    rcases hone : securityChanged p h call t manifests security st with ⟨res1, st1⟩
    obtain ⟨rfl, hmissing, hbarren⟩ := securityChanged_of_done hsince hmanifests
      (hdone security List.mem_cons_self hid) hone
    rw [hone] at hout
    cases res1 with
    | error e =>
      obtain ⟨rfl, rfl⟩ := Prod.mk.inj hout
      exact ⟨rfl, fun dataset value heq => hmissing dataset value (by rw [Except.error.inj heq]),
        fun ids heq => by cases heq⟩
    | ok changed =>
      simp only at hout
      rcases hrest : changedLoop p h call t manifests master st1 with ⟨res2, st2⟩
      obtain ⟨hst, hmissing', hids⟩ := ih hrestDone hrest
      rw [hrest] at hout
      cases res2 with
      | error e =>
        obtain ⟨rfl, rfl⟩ := Prod.mk.inj hout
        exact ⟨hst, fun dataset value heq => hmissing' dataset value (by rw [Except.error.inj heq]),
          fun ids heq => by cases heq⟩
      | ok rest =>
        obtain ⟨rfl, rfl⟩ := Prod.mk.inj hout
        refine ⟨hst, by simp, fun ids heq => ?_⟩
        obtain rfl := Except.ok.inj heq
        cases changed with
        | false => exact hmore rest (hids rest rfl)
        | true =>
          rw [if_pos rfl]
          intro id hid'
          rcases List.mem_cons.mp hid' with rfl | hid'
          · exact ⟨security, List.mem_cons_self, rfl, hbarren rfl⟩
          · exact hmore rest (hids rest rfl) id hid'

private theorem changedSecurityIds_spec (law : t.Lawful p) (hstaging : st.staging = false)
    {res : Except SignatureError (List String)}
    (hout : changedSecurityIdsForTarget p h call t master st = (res, st')) :
    Keeps Untouched st st' ∧ ∀ ids, res = .ok ids → OthersDone p h t master ids st' := by
  unfold changedSecurityIdsForTarget at hout
  rcases hloop : changedLoop p h call t (ledgerRow st t.definition) master st with ⟨res1, st1⟩
  obtain ⟨hkeeps, hothers⟩ := changedLoop_spec law hstaging (fun _ => rfl) hloop
  rw [hloop] at hout
  cases res1 with
  | error e =>
    obtain ⟨rfl, rfl⟩ := Prod.mk.inj hout
    exact ⟨hkeeps, fun ids heq => by cases heq⟩
  | ok rest =>
    obtain ⟨rfl, rfl⟩ := Prod.mk.inj hout
    refine ⟨hkeeps, fun ids heq security hmem hne hnot => ?_⟩
    obtain rfl := Except.ok.inj heq
    exact hothers rest rfl security hmem hne fun hmem => hnot (mem_sortedSet.mpr hmem)

private theorem changedSecurityIds_of_done (hsince : ∀ pairs, call.updatedSince pairs = false)
    (hdone : AllDone p h t master st) {res : Except SignatureError (List String)}
    (hout : changedSecurityIdsForTarget p h call t master st = (res, st')) :
    st' = st ∧ (∀ dataset value, res ≠ .error (.missingManifest dataset value)) ∧
      ∀ ids, res = .ok ids → ListsBarren p t master ids st := by
  unfold changedSecurityIdsForTarget at hout
  rcases hloop : changedLoop p h call t (ledgerRow st t.definition) master st with ⟨res1, st1⟩
  obtain ⟨hst, hmissing, hids⟩ := changedLoop_of_done hsince (fun _ => rfl) hdone hloop
  rw [hloop] at hout
  cases res1 with
  | error e =>
    obtain ⟨rfl, rfl⟩ := Prod.mk.inj hout
    exact ⟨hst, fun dataset value heq => hmissing dataset value (by rw [Except.error.inj heq]),
      fun ids heq => by cases heq⟩
  | ok rest =>
    obtain ⟨rfl, rfl⟩ := Prod.mk.inj hout
    refine ⟨hst, by simp, fun ids heq id hid => ?_⟩
    obtain rfl := Except.ok.inj heq
    exact hids rest rfl id (mem_sortedSet.mp hid)

theorem dataset_cases {target : BuildTarget} (ht : target.dataset = some t) :
    target = .dailyBar ∧ t = dailyBarDataset ∨ target = .valuation ∧ t = valuationDataset := by
  cases target with
  | securityMaster => cases ht
  | dailyBar => exact Or.inl ⟨rfl, (Option.some.inj ht).symm⟩
  | valuation => exact Or.inr ⟨rfl, (Option.some.inj ht).symm⟩

theorem lawful_of_dataset {target : BuildTarget} (ht : target.dataset = some t) : t.Lawful p := by
  obtain ⟨-, rfl⟩ | ⟨-, rfl⟩ := dataset_cases ht
  · exact dailyBar_lawful
  · exact valuation_lawful

/-- The plan covers a target: a full build, or the securities that are not done. -/
def Covers (p : Pandas) (h : Hashing) (master : List Row) (plan : IncrementalPlan)
    (target : BuildTarget) (st : Store) : Prop :=
  ∀ t, target.dataset = some t → target ∈ plan.fullTargets ∨
    ∃ ids, Dict.get target plan.securityIdsByTarget = some ids ∧ OthersDone p h t master ids st

theorem OthersDone.keeps {touched : String → String → Prop} {ids : List String} (law : t.Lawful p)
    (hkeeps : Keeps touched st st')
    (hsources : ∀ field ∈ t.fields, ∀ value, ¬touched field.1 value)
    (htarget : ∀ value, ¬touched t.definition.id value) (hothers : OthersDone p h t master ids st) :
    OthersDone p h t master ids st' := fun security hmem hne hnot =>
  (hothers security hmem hne hnot).keeps law hkeeps ⟨hsources, htarget _⟩

theorem Covers.keeps {touched : String → String → Prop} {plan : IncrementalPlan}
    {target : BuildTarget} (hkeeps : Keeps touched st st')
    (hapart : ∀ t, target.dataset = some t →
      (∀ field ∈ t.fields, ∀ value, ¬touched field.1 value) ∧ ∀ value, ¬touched t.definition.id value)
    (hcovers : Covers p h master plan target st) : Covers p h master plan target st' := by
  intro t ht
  rcases hcovers t ht with hfull | ⟨ids, hids, hothers⟩
  · exact Or.inl hfull
  · exact Or.inr ⟨ids, hids, hothers.keeps (lawful_of_dataset ht) hkeeps (hapart t ht).1 (hapart t ht).2⟩

theorem planTargets_spec {targets : List BuildTarget} (hstaging : st.staging = false)
    {built : DatasetDefinition → Bool} {plan : IncrementalPlan}
    (hout : planTargets p h call built master targets st = (.ok plan, st')) :
    Keeps Untouched st st' ∧ ∀ target ∈ targets, Covers p h master plan target st' := by
  induction targets generalizing st plan with
  | nil =>
    obtain ⟨-, rfl⟩ := Prod.mk.inj hout
    exact ⟨.refl st, fun target hmem => by cases hmem⟩
  | cons target targets ih =>
    -- a plan of the other targets with one more that is built in full
    have hfull : ∀ (st1 : Store) (rest : IncrementalPlan) (reason : String),
        st1.staging = false → Keeps Untouched st st1 →
        planTargets p h call built master targets st1 = (.ok rest, st') →
        plan = { rest with
          fullTargets := target :: rest.fullTargets
          reasons := (target, reason) :: rest.reasons } →
        Keeps Untouched st st' ∧
          ∀ target' ∈ target :: targets, Covers p h master plan target' st' := by
      rintro st1 rest reason hstaging1 hkeeps1 hrest rfl
      obtain ⟨hkeeps, hcovers⟩ := ih hstaging1 hrest
      refine ⟨hkeeps1.trans hkeeps, fun target' hmem t' ht' => ?_⟩
      rcases List.mem_cons.mp hmem with rfl | hmem
      · exact Or.inl List.mem_cons_self
      · exact (hcovers target' hmem t' ht').imp (List.mem_cons_of_mem _) id
    unfold planTargets at hout
    cases ht : target.dataset with
    | none =>
      rw [ht] at hout
      obtain ⟨hkeeps, hcovers⟩ := ih hstaging hout
      refine ⟨hkeeps, fun target' hmem t' ht' => ?_⟩
      rcases List.mem_cons.mp hmem with rfl | hmem
      · rw [ht] at ht'
        cases ht'
      · exact hcovers target' hmem t' ht'
    | some t =>
      rw [ht] at hout
      simp only at hout
      by_cases hbuilt : built t.definition = false
      · rw [if_pos hbuilt] at hout
        rcases hrest : planTargets p h call built master targets st with ⟨res, st1⟩
        rw [hrest] at hout
        cases res with
        | error e => cases hout
        | ok rest =>
          simp only [Prod.mk.injEq, Except.ok.injEq] at hout
          obtain ⟨hplan, rfl⟩ := hout
          exact hfull st rest _ hstaging (.refl st) hrest hplan.symm
      rw [if_neg hbuilt] at hout
      rcases hchanged : changedSecurityIdsForTarget p h call t master st with ⟨res, st1⟩
      obtain ⟨hkeeps1, hothers⟩ := changedSecurityIds_spec (lawful_of_dataset ht) hstaging hchanged
      have hstaging1 : st1.staging = false := hkeeps1.staging.trans hstaging
      rw [hchanged] at hout
      rcases hrest : planTargets p h call built master targets st1 with ⟨res1, st2⟩
      cases res with
      | error e =>
        cases e with
        | store e => cases hout
        | missingManifest dataset value =>
          simp only [hrest] at hout
          cases res1 with
          | error e => cases hout
          | ok rest =>
            simp only [Prod.mk.injEq, Except.ok.injEq] at hout
            obtain ⟨hplan, rfl⟩ := hout
            exact hfull st1 rest _ hstaging1 hkeeps1 hrest hplan.symm
      | ok ids =>
        simp only [hrest] at hout
        cases res1 with
        | error e => cases hout
        | ok rest =>
          simp only [Prod.mk.injEq, Except.ok.injEq] at hout
          obtain ⟨rfl, rfl⟩ := hout
          obtain ⟨hkeeps, hcovers⟩ := ih hstaging1 hrest
          refine ⟨hkeeps1.trans hkeeps, fun target' hmem t' ht' => ?_⟩
          by_cases htarget : target' = target
          · subst htarget
            obtain rfl := Option.some.inj (ht.symm.trans ht')
            exact Or.inr ⟨ids, by simp [Dict.get], (hothers ids rfl).keeps (lawful_of_dataset ht)
              hkeeps (fun _ _ _ htouched => htouched) fun _ htouched => htouched⟩
          · rcases hcovers target' ((List.mem_cons.mp hmem).resolve_left htarget) t' ht' with
              hfull' | ⟨ids', hids', hothers'⟩
            · exact Or.inl hfull'
            · refine Or.inr ⟨ids', ?_, hothers'⟩
              rw [Dict.get, if_neg fun heq => htarget heq.symm]
              exact hids'

/-- With everything done there is nothing to build in full, and only securities without rows are
taken up. -/
def Idle (p : Pandas) (master : List Row) (plan : IncrementalPlan) (target : BuildTarget)
    (st : Store) : Prop :=
  ∀ t, target.dataset = some t → ∃ ids, target ∉ plan.fullTargets ∧
    Dict.get target plan.securityIdsByTarget = some ids ∧ ListsBarren p t master ids st

theorem planTargets_of_done (hsince : ∀ pairs, call.updatedSince pairs = false)
    {built : DatasetDefinition → Bool} (hbuilt : ∀ d, built d = true) {targets : List BuildTarget}
    (hdone : ∀ target ∈ targets, ∀ t, target.dataset = some t → AllDone p h t master st)
    {plan : IncrementalPlan}
    (hout : planTargets p h call built master targets st = (.ok plan, st')) :
    st' = st ∧ plan.fullTargets = [] ∧ ∀ target ∈ targets, Idle p master plan target st := by
  induction targets generalizing plan with
  | nil =>
    obtain ⟨hplan, rfl⟩ := Prod.mk.inj hout
    obtain rfl := Except.ok.inj hplan
    exact ⟨rfl, rfl, fun target hmem => by cases hmem⟩
  | cons target targets ih =>
    have hrestDone : ∀ target' ∈ targets, ∀ t, target'.dataset = some t → AllDone p h t master st :=
      fun target' hmem => hdone target' (List.mem_cons_of_mem _ hmem)
    unfold planTargets at hout
    cases ht : target.dataset with
    | none =>
      rw [ht] at hout
      obtain ⟨hst, hfull, hidle⟩ := ih hrestDone hout
      refine ⟨hst, hfull, fun target' hmem t' ht' => ?_⟩
      rcases List.mem_cons.mp hmem with rfl | hmem
      · rw [ht] at ht'
        cases ht'
      · exact hidle target' hmem t' ht'
    | some t =>
      rw [ht] at hout
      simp only [hbuilt, Bool.true_eq_false, if_false] at hout
      rcases hchanged : changedSecurityIdsForTarget p h call t master st with ⟨res, st1⟩
      obtain ⟨rfl, hmissing, hbarren⟩ :=
        changedSecurityIds_of_done hsince (hdone target List.mem_cons_self t ht) hchanged
      rw [hchanged] at hout
      cases res with
      | error e =>
        cases e with
        | store e => cases hout
        | missingManifest dataset value => exact absurd rfl (hmissing dataset value)
      | ok ids =>
        simp only at hout
        rcases hrest : planTargets p h call built master targets st1 with ⟨res1, st2⟩
        rw [hrest] at hout
        cases res1 with
        | error e => cases hout
        | ok rest =>
          simp only [Prod.mk.injEq, Except.ok.injEq] at hout
          obtain ⟨rfl, rfl⟩ := hout
          obtain ⟨hst, hfull, hidle⟩ := ih hrestDone hrest
          refine ⟨hst, hfull, fun target' hmem t' ht' => ?_⟩
          by_cases htarget : target' = target
          · subst htarget
            obtain rfl := Option.some.inj (ht.symm.trans ht')
            exact ⟨ids, by simp [hfull], by simp [Dict.get], hbarren ids rfl⟩
          · obtain ⟨ids', hnot, hids', hbarren'⟩ :=
              hidle target' ((List.mem_cons.mp hmem).resolve_left htarget) t' ht'
            refine ⟨ids', hnot, ?_, hbarren'⟩
            rw [Dict.get, if_neg fun heq => htarget heq.symm]
            exact hids'

end Plan

/-! The builders -/

section Builders

variable {p : Pandas} {h : Hashing} {t : CanonicalDataset} {master : List Row} {st st' : Store}

/-- The stored master has rows, each of them of a security of its own. -/
structure StoredMaster (p : Pandas) (master : List Row) (st : Store) : Prop where
  file : st.files cnSecurityMasterDataset.id "" = some master
  well : StoredWell p cnSecurityMasterDataset "" master
  nonempty : master ≠ []
  ids : Identified p master

theorem StoredMaster.read (hmaster : StoredMaster p master st) {b : BuildEnv} {rows : List Row}
    {st1 : Store} (hread : readOrBuildMaster p h b st = (.ok rows, st1)) : rows = master ∧ st1 = st := by
  unfold readOrBuildMaster at hread
  cases hown : readPartition p b.reads st cnSecurityMasterDataset "" with
  | error e =>
    rw [hown] at hread
    cases hread
  | ok own =>
    have hrows : own.rows = master := readPartition_master hmaster.file hmaster.well hown
    rw [hown] at hread
    simp only [hmaster.file, Option.isNone_some, Bool.false_eq_true, false_or, hrows,
      if_neg hmaster.nonempty] at hread
    exact ⟨(Except.ok.inj (Prod.mk.inj hread).1).symm, (Prod.mk.inj hread).2.symm⟩

theorem Identified.str (hids : Identified p master) {security : Row} (hmem : security ∈ master) :
    security "security_id" ≠ .null ∧
      p.str (security "security_id") = securityIdOfRow p security := by
  obtain ⟨id, hid, hstrip⟩ := hids.texts security hmem
  refine ⟨by simp [hid], ?_⟩
  unfold securityIdOfRow cleanString
  simp only [hid, Pandas.str, hstrip]

private theorem mem_requestedRows (hids : Identified p master) {ids : List String}
    {security : Row} :
    security ∈ requestedRows p ids master ↔
      security ∈ master ∧ securityIdOfRow p security ∈ ids := by
  unfold requestedRows
  rw [List.mem_filter]
  refine and_congr_right fun hmem => ?_
  obtain ⟨hnull, hstr⟩ := hids.str hmem
  simp [hnull, hstr]

private theorem requestedRows_nodup (hids : Identified p master) (ids : List String) :
    ((requestedRows p ids master).map (securityIdOfRow p)).Nodup :=
  (List.Sublist.map _ List.filter_sublist).nodup hids.distinct

/-- Partition builds of the securities that are not done leave all of them done. -/
theorem buildPartitions_done (hex : HexDigests h) (law : t.Lawful p) {b : PartitionBuildEnv}
    (hmaster : StoredMaster p master st) (hstaging : st.staging = false)
    (hlists : Lists t b.reads st) {ids : List String} (hothers : OthersDone p h t master ids st)
    (hout : buildPartitions p h b t ids st = (.ok (), st')) :
    Keeps (AllPartitionsOf t) st st' ∧ AllDone p h t master st' := by
  unfold buildPartitions at hout
  by_cases hnil : ids = []
  · rw [if_pos hnil] at hout
    obtain ⟨-, rfl⟩ := Prod.mk.inj hout
    exact ⟨.refl st, fun security hmem hid => hothers security hmem hid (by simp [hnil])⟩
  rw [if_neg hnil] at hout
  rcases hread : readOrBuildMaster p h b.toBuildEnv st with ⟨res, st1⟩
  rw [hread] at hout
  cases res with
  | error e => cases hout
  | ok rows =>
    have hids := hmaster.ids
    obtain ⟨rfl, rfl⟩ := hmaster.read hread
    obtain ⟨hkeeps, hdone⟩ :=
      buildEach_done hex law (requestedRows_nodup hids ids) hstaging hlists hout
    refine ⟨hkeeps.mono fun _ _ htouched => htouched.1, fun security hmem hid => ?_⟩
    by_cases hrequested : securityIdOfRow p security ∈ ids
    · exact hdone security ((mem_requestedRows hids).mpr ⟨hmem, hrequested⟩) hid
    · refine (hothers security hmem hid hrequested).keeps law hkeeps (law.apart fun hother => ?_)
      obtain ⟨other, hother, hsame⟩ := List.mem_map.mp hother
      exact hrequested (hsame ▸ ((mem_requestedRows hids).mp hother).2)

private theorem withoutPartition_self {d : DatasetDefinition} {securityId : String}
    (hfile : st.files d.id securityId = none) (hrow : ledgerRow st d securityId = none) :
    withoutPartition d securityId st = st := by
  obtain ⟨staging, files, manifest, legacy, dirty⟩ := st
  unfold withoutPartition Store.deleteManifest Store.setDataset
  simp only [Store.mk.injEq, and_true, true_and]
  constructor
  · funext dataset value
    by_cases hdataset : dataset = d.id
    · subst hdataset
      by_cases hvalue : value = securityId
      · simp only [if_true, hvalue]
        exact hfile.symm
      · simp [hvalue]
    · simp [hdataset]
  · funext dataset column value
    split
    case isTrue heq =>
      obtain ⟨rfl, rfl, hvalue⟩ := heq
      rw [beq_iff_eq.mp hvalue]
      exact hrow.symm
    case isFalse => rfl

/-- Building securities without rows, which have no partition, changes nothing. -/
private theorem buildEach_barren (law : t.Lawful p) {b : PartitionBuildEnv} {k : ℕ}
    (hlists : Lists t b.reads st)
    (hbarren : ∀ security ∈ master, ∃ pairs, Barren p t st security pairs)
    (hout : buildEach p h b t k master st = (.ok (), st')) : st' = st := by
  induction master generalizing k with
  | nil => exact (Prod.mk.inj hout).2.symm
  | cons security master ih =>
    obtain ⟨pairs, hempty⟩ := hbarren security List.mem_cons_self
    unfold buildEach at hout
    rcases hone : buildPartition p h b t k security st with ⟨res, st1⟩
    rw [hone] at hout
    cases res with
    | error e => cases hout
    | ok u =>
      have hsame : st1 = st := by
        unfold buildPartition at hone
        by_cases hid : securityIdOfRow p security = ""
        · rw [if_pos hid] at hone
          exact (Prod.mk.inj hone).2.symm
        rw [if_neg hid] at hone
        cases hdf : t.materialize p b.reads st security b.updatedAt with
        | error e =>
          rw [hdf] at hone
          cases hone
        | ok df =>
          have hrows := hempty.empty b.reads b.updatedAt df hlists hdf
          rw [hdf] at hone
          simp only [if_pos hrows] at hone
          have hremoved : st1 = withoutPartition t.definition (securityIdOfRow p security) st :=
            publishPartition_removed law.definition hrows hone
          exact hremoved.trans (withoutPartition_self hempty.file hempty.row)
      rw [hsame] at hout
      exact ih (fun security' hmem => hbarren security' (List.mem_cons_of_mem _ hmem)) hout

theorem buildPartitions_barren (law : t.Lawful p) {b : PartitionBuildEnv}
    (hmaster : StoredMaster p master st) (hlists : Lists t b.reads st)
    {ids : List String} (hbarren : ListsBarren p t master ids st)
    (hout : buildPartitions p h b t ids st = (.ok (), st')) : st' = st := by
  unfold buildPartitions at hout
  by_cases hnil : ids = []
  · rw [if_pos hnil] at hout
    exact (Prod.mk.inj hout).2.symm
  rw [if_neg hnil] at hout
  rcases hread : readOrBuildMaster p h b.toBuildEnv st with ⟨res, st1⟩
  rw [hread] at hout
  cases res with
  | error e => cases hout
  | ok rows =>
    have hids := hmaster.ids
    obtain ⟨rfl, rfl⟩ := hmaster.read hread
    refine buildEach_barren law hlists (fun security hmem => ?_) hout
    obtain ⟨hmaster', hrequested⟩ := (mem_requestedRows hids).mp hmem
    obtain ⟨other, hother, hsame, hpairs⟩ := hbarren _ hrequested
    rwa [← List.inj_on_of_nodup_map hids.distinct hother hmaster' hsame]

theorem runBuilder_none {call : BuildCall} {target : BuildTarget} (ht : target.dataset = some t) :
    runBuilder p h call target none st = buildAll p h (call.env target).toBuildEnv t st := by
  obtain ⟨rfl, rfl⟩ | ⟨rfl, rfl⟩ := dataset_cases ht
  · exact buildCnStockDailyBar_eq _ st
  · rfl

theorem runBuilder_some {call : BuildCall} {target : BuildTarget} (ht : target.dataset = some t)
    (ids : List String) :
    runBuilder p h call target (some ids) st = buildPartitions p h (call.env target) t ids st := by
  obtain ⟨rfl, rfl⟩ | ⟨rfl, rfl⟩ := dataset_cases ht
  · rfl
  · rfl

end Builders

end QuantDataCenter.Derived
