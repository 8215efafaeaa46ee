import QuantDataCenter.Derived.DatasetLaws

/-!
The entry point of the derived builds (`sources/derived/update.py`): which targets are built, which
securities an incremental build takes up, and the builds one after the other.
-/

set_option autoImplicit false
set_option relaxedAutoImplicit false

namespace QuantDataCenter.Derived

open QuantDataCenter.Lib QuantDataCenter.Tabular QuantDataCenter.Storage

inductive BuildTarget where
  | securityMaster
  | dailyBar
  | valuation
  deriving DecidableEq, Repr

def BuildTarget.name : BuildTarget → String
  | .securityMaster => "security_master"
  | .dailyBar => "daily_bar"
  | .valuation => "valuation"

/-- `TARGET_ORDER`. -/
def targetOrder : List BuildTarget := [.securityMaster, .dailyBar, .valuation]

/-- The canonical dataset of a target; the master is built in its own way. -/
def BuildTarget.dataset : BuildTarget → Option CanonicalDataset
  | .securityMaster => none
  | .dailyBar => some dailyBarDataset
  | .valuation => some valuationDataset

/-- A ValueError, or what an operation of the store ends with. -/
inductive BuildError where
  | valueError (message : String)
  | store (error : StoreError)
  deriving DecidableEq, Repr

def requestedTargets (target : String) : Except BuildError (List BuildTarget) :=
  if target = "all" then .ok targetOrder
  else match targetOrder.find? fun t => t.name = target with
    | some t => .ok [t]
    | none => .error (.valueError ("Unsupported derived target: " ++ target))

/-- `_expand_targets`. -/
def expandTargets (targets excludeTargets : List String) : Except BuildError (List BuildTarget) :=
  match excludeTargets.find? fun target => target ≠ "daily_bar" with
  | some target => .error (.valueError ("Unsupported derived exclude target: " ++ target))
  | none =>
    if "daily_bar" ∈ excludeTargets ∧ "daily_bar" ∈ targets then
      .error (.valueError "cannot exclude explicitly requested target: daily_bar")
    else do
      let requested ← targets.mapM requestedTargets
      .ok (targetOrder.filter fun t => t ∈ requested.flatten ∧ t.name ∉ excludeTargets)

/-- `_normalize_security_ids`. -/
def normalizeSecurityIds (p : Pandas) (securityIds : List String) : List String :=
  (((securityIds.map strip).filter fun id => id ≠ "").map p.upper).eraseDups

structure IncrementalPlan where
  securityIdsByTarget : Dict BuildTarget (List String)
  fullTargets : List BuildTarget
  reasons : Dict BuildTarget String

def IncrementalPlan.none : IncrementalPlan := ⟨[], [], []⟩

/-- A call of `build_derived_datasets`, with what its steps meet. `updatedSince` says whether a
ledger row of the sources is as young as `changed_since`. -/
structure BuildCall where
  targets : List String
  excludeTargets : List String
  includeSecurityMaster : Bool
  mode : String
  securityIds : List String
  updatedSince : List SourcePartition → Bool
  planReads : Reads
  planSigning : SourcePartition → WriteEnv
  env : BuildTarget → PartitionBuildEnv

section Plan

variable (p : Pandas) (h : Hashing) (call : BuildCall)

/-- Whether a security is taken up; `manifests` are the ledger rows of the dataset at the start. -/
def securityChanged (t : CanonicalDataset) (manifests : String → Option ManifestRow)
    (security : Row) (st : Store) : Except SignatureError Bool × Store :=
  match sourcePartitionPairsForSecurity p st security t.fields with
  | .error e => (.error (.store e), st)
  | .ok pairs =>
    match partitionValue p t.definition (securityPartition (securityIdOfRow p security)) with
    | .error e => (.error (.store e), st)
    | .ok value =>
      let targetExists := (st.files t.definition.id value).isSome
      if pairs = [] then (.ok targetExists, st)
      else if targetExists = false then (.ok true, st)
      else match currentSourceSignatureForSecurity p h call.planSigning security pairs st with
      | (.error e, st') => (.error e, st')
      | (.ok (signature, masterHash), st') =>
        match manifests (securityIdOfRow p security) with
        | none => (.ok true, st')
        | some row => (.ok (decide (strip row.sourceSignature = "" ∨
            signature ≠ strip row.sourceSignature ∨ masterHash ≠ strip row.masterRowHash ∨
            call.updatedSince pairs = true)), st')

/-- The loop of `_changed_security_ids_for_target` over the master. -/
def changedLoop (t : CanonicalDataset) (manifests : String → Option ManifestRow) :
    List Row → Store → Except SignatureError (List String) × Store
  | [], st => (.ok [], st)
  | security :: master, st =>
    if securityIdOfRow p security = "" then changedLoop t manifests master st
    else match securityChanged p h call t manifests security st with
    | (.error e, st') => (.error e, st')
    | (.ok changed, st') =>
      match changedLoop t manifests master st' with
      | (.error e, st'') => (.error e, st'')
      | (.ok ids, st'') =>
        (.ok (if changed = true then securityIdOfRow p security :: ids else ids), st'')

def changedSecurityIdsForTarget (t : CanonicalDataset) (master : List Row) (st : Store) :
    Except SignatureError (List String) × Store :=
  match changedLoop p h call t (ledgerRow st t.definition) master st with
  | (.error e, st') => (.error e, st')
  | (.ok ids, st') => (.ok (sortedSet ids), st')

/-- The plans of the targets; a RuntimeError asks for a full build. -/
def planTargets (built : DatasetDefinition → Bool) (master : List Row) :
    List BuildTarget → Store → Except StoreError IncrementalPlan × Store
  | [], st => (.ok .none, st)
  | target :: targets, st =>
    match target.dataset with
    | none => planTargets built master targets st
    | some t =>
      if built t.definition = false then
        match planTargets built master targets st with
        | (.error e, st') => (.error e, st')
        | (.ok plan, st') =>
          (.ok { plan with
            fullTargets := target :: plan.fullTargets
            reasons := (target, t.definition.id ++ " has not been built yet") :: plan.reasons }, st')
      else match changedSecurityIdsForTarget p h call t master st with
      | (.error (.store e), st') => (.error e, st')
      | (.error (.missingManifest dataset value), st') =>
        match planTargets built master targets st' with
        | (.error e, st'') => (.error e, st'')
        | (.ok plan, st'') =>
          (.ok { plan with
            fullTargets := target :: plan.fullTargets
            reasons := (target, "Missing dataset_partition_manifest for " ++ dataset ++ "/" ++ value) ::
              plan.reasons }, st'')
      | (.ok ids, st') =>
        match planTargets built master targets st' with
        | (.error e, st'') => (.error e, st'')
        | (.ok plan, st'') =>
          (.ok { plan with securityIdsByTarget := (target, ids) :: plan.securityIdsByTarget }, st'')

/-- `_resolve_incremental_plan`. -/
def resolveIncrementalPlan (built : DatasetDefinition → Bool) (targets : List BuildTarget)
    (explicitSecurityIds : List String) (st : Store) : Except StoreError IncrementalPlan × Store :=
  let targetIds := targets.filter fun target => target ∈ [.dailyBar, .valuation]
  if targetIds = [] then (.ok .none, st)
  else if explicitSecurityIds ≠ [] then
    (.ok ⟨targetIds.map fun target => (target, explicitSecurityIds), [], []⟩, st)
  else match readPartition p call.planReads st cnSecurityMasterDataset "" with
  | .error e => (.error e, st)
  | .ok master =>
    if master.rows = [] ∨ "security_id" ∉ master.columns then
      (.ok ⟨[], targetIds,
        targetIds.map fun target => (target, "cn_security_master is missing or empty")⟩, st)
    else planTargets p h call built master.rows targetIds st

end Plan

section Run

variable (p : Pandas) (h : Hashing) (call : BuildCall)

/-- `_target_security_ids`. -/
def targetSecurityIds (target : BuildTarget) (mode : String) (plan : IncrementalPlan) :
    Option (List String) :=
  if target = .securityMaster ∨ mode = "full" ∨ target ∈ plan.fullTargets then none
  else some ((Dict.get target plan.securityIdsByTarget).getD [])

def runBuilder (target : BuildTarget) (securityIds : Option (List String)) (st : Store) :
    Except StoreError Unit × Store :=
  let b := call.env target
  match target, securityIds with
  | .securityMaster, _ =>
    let out := buildSecurityMaster p h b.masterEnv b.reads b.updatedAt st
    (out.1.map fun _ => (), out.2)
  | .dailyBar, none => buildCnStockDailyBar p h b.toBuildEnv st
  | .dailyBar, some ids => buildCnStockDailyBarPartitions p h b ids st
  | .valuation, none => buildCnStockValuation p h b.toBuildEnv st
  | .valuation, some ids => buildCnStockValuationPartitions p h b ids st

/-- The directories of the catalog are there: `ensure_layout` makes them. -/
def ensuredLayout : DatasetDefinition → Bool := fun _ => true

/-- The loop of `build_derived_datasets`; the plan is made before the first canonical dataset. -/
def runTargets (expanded : List BuildTarget) (explicitSecurityIds : List String) :
    Option IncrementalPlan → List BuildTarget → Store → Except StoreError Unit × Store
  | _, [], st => (.ok (), st)
  | plan, target :: targets, st =>
    let planned : Except StoreError (Option IncrementalPlan) × Store :=
      if call.mode = "incremental" ∧ target ≠ .securityMaster ∧ plan.isNone then
        let out := resolveIncrementalPlan p h call ensuredLayout expanded explicitSecurityIds st
        (out.1.map some, out.2)
      else (.ok plan, st)
    match planned with
    | (.error e, st') => (.error e, st')
    | (.ok plan', st') =>
      let ids := targetSecurityIds target call.mode (plan'.getD .none)
      match runBuilder p h call target ids st' with
      | (.error e, st'') => (.error e, st'')
      | (.ok (), st'') => runTargets expanded explicitSecurityIds plan' targets st''

/-- The targets of a call: the master goes before the canonical datasets. -/
def expandedTargets : Except BuildError (List BuildTarget) := do
  let expanded ← expandTargets call.targets call.excludeTargets
  if call.includeSecurityMaster = true ∧ (.dailyBar ∈ expanded ∨ .valuation ∈ expanded) ∧
      .securityMaster ∉ expanded then
    .ok (.securityMaster :: expanded)
  else .ok expanded

def buildDerivedDatasets (st : Store) : Except BuildError Unit × Store :=
  if call.mode ∉ ["full", "incremental"] then
    (.error (.valueError ("Unsupported derived build mode: " ++ call.mode)), st)
  else
    let explicitSecurityIds := normalizeSecurityIds p call.securityIds
    if call.mode = "full" ∧ explicitSecurityIds ≠ [] then
      (.error (.valueError "--security-id is only supported with --mode incremental"), st)
    else match expandedTargets call with
    | .error e => (.error e, st)
    | .ok expanded =>
      match runTargets p h call expanded explicitSecurityIds none expanded st with
      | (.error e, st') => (.error (.store e), st')
      | (.ok (), st') => (.ok (), st')

end Run

end QuantDataCenter.Derived
