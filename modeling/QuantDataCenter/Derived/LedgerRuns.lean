import QuantDataCenter.Derived.Publication
import QuantDataCenter.Storage.StoreInvariant

/-!
The ledger over whole runs: calls of `write_dataset`, derived builds, manifest
rebuilds and the removal of stale qlib partitions, each of which may be cut. A
file and its ledger row change in separate steps, so an operation that is cut
between them leaves the row behind; the removal of stale partitions always does.
The partition values of a run are directory names, as the two rows of values that
share a directory cannot both describe its file.
-/

set_option autoImplicit false
set_option relaxedAutoImplicit false

namespace QuantDataCenter.Derived

open QuantDataCenter.Lib.Transition QuantDataCenter.Tabular QuantDataCenter.Storage

/-- `_remove_stale_qlib_feature_partitions`, as far as the loop gets. -/
def removeStaleQlibFeaturePartitions (expectedSymbols : List String) (reached : String → Bool)
    (st : Store) : Store :=
  st.setDataset "qlib_cn_stock_features_day" fun value =>
    if value ∉ expectedSymbols ∧ reached value = true then none
    else st.files "qlib_cn_stock_features_day" value

/-- The operations on a store; each carries the faults it meets. A process that is
killed at a step leaves what an error at that step leaves. -/
inductive Operation where
  | write (call : WriteCall)
  | publishDataset (c : DatasetPublication)
  | publishPartition (c : PartitionPublication)
  | rebuildManifest (env : WriteEnv) (dataset : String) (includeDerived force : Bool)
      (values : List String)
  | removeStale (expectedSymbols : List String) (reached : String → Bool)

/-- The operation hands over no partition value with a slash. -/
def Operation.NamesDirectories (p : Pandas) : Operation → Prop
  | .write call => call.NamesDirectories p
  | .publishDataset c => ∀ s ∈ c.staged, NamesDirectory s.securityId
  | .publishPartition c => NamesDirectory c.partition.securityId
  | .rebuildManifest _ _ _ _ values => ∀ value ∈ values, NamesDirectory value
  | .removeStale _ _ => True

section Runs

variable (p : Pandas) (h : Hashing)

/-- Whether the operation was cut, and the store it leaves. -/
def operate (st : Store) : Operation → Bool × Store
  | .write call =>
    let out := writeDatasetAt p h call.env call.dataset call.df call.partition call.mode
      call.skipExisting st
    (raised out.1, out.2)
  | .publishDataset c => (raised (publishDataset p h c st).1, (publishDataset p h c st).2)
  | .publishPartition c => (raised (publishPartition p h c st).1, (publishPartition p h c st).2)
  | .rebuildManifest env dataset includeDerived force values =>
    let out := rebuildPartitionManifest p h env dataset includeDerived force values st
    (raised out.1, out.2)
  | .removeStale expectedSymbols reached =>
    (false, removeStaleQlibFeaturePartitions expectedSymbols reached st)

def operationStep (st : Store) (op : Operation) : Option Store := some (operate p h st op).2

/-- Operations that may leave a ledger row behind. -/
def Unfinished (st : Store) (op : Operation) : Prop :=
  (operate p h st op).1 = true ∨ ∃ expectedSymbols reached, op = .removeStale expectedSymbols reached

/-- The row was in the ledger before an operation that changed the file of the
partition, did not finish its steps and left the row. -/
structure LeftBehind (st₀ : Store) (ops : List Operation) (d : DatasetDefinition) (value : String)
    (row : ManifestRow) : Prop where
  culprit : ∃ pre op post before after, ops = pre ++ op :: post ∧
    exec (operationStep p h) st₀ pre = some before ∧ operationStep p h before op = some after ∧
    Unfinished p h before op ∧ after.files d.id value ≠ before.files d.id value ∧
    ledgerRow before d value = some row ∧ ledgerRow after d value = some row

variable {p h}

private theorem removeStale_spec {expectedSymbols : List String} {reached : String → Bool}
    {st : Store}
    (hst : WellStored p st) {cut : Prop} (hcut : cut) :
    OperationSpec p h cut st (removeStaleQlibFeaturePartitions expectedSymbols reached st) := by
  have hd : qlibCnStockFeaturesDayDataset ∈ datasetCatalog := by simp [datasetCatalog]
  refine .setDataset hd hcut hst fun value rows hfile => ?_
  split at hfile
  · cases hfile
  · exact hst _ hd value rows hfile

private theorem operate_write {st : Store} {call : WriteCall} (hnames : call.NamesDirectories p) :
    operate p h st (.write call) =
      (raised (writeDataset p h call.env call.dataset call.df call.partition call.mode
        call.skipExisting st).1,
      (writeDataset p h call.env call.dataset call.df call.partition call.mode
        call.skipExisting st).2) := by
  cases hd : datasetDefinition call.dataset with
  | error e => simp only [operate, writeDatasetAt, writeDataset, hd]
  | ok d => simp only [operate, writeDatasetAt_eq hd (hnames d hd)]

/-- What one operation preserves, and what it may leave behind. -/
private theorem operate_spec {st : Store} (hstaging : st.staging = false) (hst : WellStored p st)
    {op : Operation} (hnames : op.NamesDirectories p) :
    OperationSpec p h (Unfinished p h st op) st (operate p h st op).2 := by
  cases op with
  | write call =>
    have hwrite := @operate_write p h st call hnames
    have hstored : WellStored p (operate p h st (.write call)).2 := by
      rw [hwrite]
      exact @wellStored_callStep p h st _ call hst rfl
    cases hd : datasetDefinition call.dataset with
    | error e =>
      have hsame : (operate p h st (.write call)).2 = st := by
        rw [hwrite]
        simp only [writeDataset, hd]
      rw [hsame]
      exact .refl _ st
    | ok d =>
      obtain ⟨hmem, -⟩ := mem_datasetCatalog hd
      obtain ⟨n, written, last, hended⟩ := writeDataset_ended p h call.env hd call.df call.partition
        call.mode call.skipExisting st
      have hspec : OperationSpec p h ((operate p h st (.write call)).1 = true) st
          (operate p h st (.write call)).2 := by
        rw [hwrite] at hstored ⊢
        exact ⟨hended.staging, fun _ => hstored, hended.keys hmem,
          fun d' hd' value => hended.entryStep hstaging hmem hd' value⟩
      exact hspec.weaken Or.inl
  | publishDataset c =>
    exact (publishDataset_spec hstaging hst).weaken Or.inl
  | publishPartition c =>
    exact (publishPartition_spec hstaging hst).weaken Or.inl
  | rebuildManifest env dataset includeDerived force values =>
    exact .of_recorded (rebuildPartitionManifest_recorded dataset includeDerived force values
      hstaging hst)
  | removeStale expectedSymbols reached =>
    exact removeStale_spec hst (Or.inr ⟨expectedSymbols, reached, rfl⟩)

private theorem operate_ownDirectories {st : Store} (hstaging : st.staging = false)
    (hst : WellStored p st)
    (hown : OwnDirectories st) {op : Operation} (hnames : op.NamesDirectories p) :
    OwnDirectories (operate p h st op).2 := by
  cases op with
  | write call =>
    rw [operate_write hnames]
    exact @ownDirectories_callStep p h st _ call hown hnames rfl
  | publishDataset c =>
    intro dataset value rows hfile
    rcases publishDataset_files hfile with hold | ⟨s, hs, rfl⟩
    · exact hown dataset value rows hold
    · exact hnames s hs
  | publishPartition c =>
    intro dataset value rows hfile
    rcases publishPartition_files hfile with hold | rfl
    · exact hown dataset value rows hold
    · exact hnames
  | rebuildManifest env dataset includeDerived force values =>
    intro dataset' value rows hfile
    have hrecorded := @rebuildPartitionManifest_recorded p h env dataset includeDerived force values
      st hstaging hst
    simp only [operate] at hfile
    rw [hrecorded.files] at hfile
    exact hown dataset' value rows hfile
  | removeStale expectedSymbols reached =>
    intro dataset value rows hfile
    simp only [operate, removeStaleQlibFeaturePartitions, Store.setDataset] at hfile
    split at hfile
    case isTrue heq =>
      split at hfile
      · cases hfile
      · exact hown _ value rows hfile
    case isFalse => exact hown dataset value rows hfile

structure Fresh (st : Store) : Prop where
  staging : st.staging = false
  files : ∀ dataset value, st.files dataset value = none
  manifest : ∀ dataset column value, st.manifest dataset column value = none

/-- What every reachable store has, and what its ledger rows say. -/
private structure Reached (p : Pandas) (h : Hashing) (st₀ : Store) (ops : List Operation)
    (st : Store) : Prop where
  staging : st.staging = false
  stored : WellStored p st
  own : OwnDirectories st
  keys : LedgerKeys st
  entries : ∀ d ∈ datasetCatalog, ∀ value row, ledgerRow st d value = some row →
    NamesDirectory value ∧
      ((∃ rows, st.files d.id value = some rows ∧ Describes p h d row rows) ∨
        LeftBehind p h st₀ ops d value row)

private theorem LeftBehind.concat {st₀ : Store} {ops : List Operation} {d : DatasetDefinition}
    {value : String} {row : ManifestRow} (h' : LeftBehind p h st₀ ops d value row) (op : Operation) :
    LeftBehind p h st₀ (ops ++ [op]) d value row := by
  obtain ⟨pre, op', post, before, after, rfl, hrest⟩ := h'
  exact ⟨pre, op', post ++ [op], before, after, by simp, hrest⟩

private theorem reached_fresh {st₀ : Store} (fresh : Fresh st₀) : Reached p h st₀ [] st₀ := by
  refine ⟨fresh.staging, ?_, ?_, ?_, ?_⟩
  · intro d _ value rows hfile
    rw [fresh.files] at hfile
    cases hfile
  · intro dataset value rows hfile
    rw [fresh.files] at hfile
    cases hfile
  · intro dataset column value row hrow
    rw [fresh.manifest] at hrow
    cases hrow
  · intro d _ value row hrow
    rw [ledgerRow, fresh.manifest] at hrow
    cases hrow

private theorem Reached.step {st₀ before after : Store} {ops : List Operation} {op : Operation}
    (hreached : Reached p h st₀ ops before) (hrun : exec (operationStep p h) st₀ ops = some before)
    (hop : op.NamesDirectories p) (hstep : operationStep p h before op = some after) :
    Reached p h st₀ (ops ++ [op]) after := by
  have hafter : (operate p h before op).2 = after := Option.some.inj hstep
  have hspec := @operate_spec p h before hreached.staging hreached.stored op hop
  have hown := @operate_ownDirectories p h before hreached.staging hreached.stored hreached.own op hop
  rw [hafter] at hspec hown
  refine ⟨hspec.staging.trans hreached.staging, hspec.stored hreached.stored, hown,
    hspec.keys hreached.keys, fun d hd value row hrow => ?_⟩
  by_cases hsame : SameEntry d value before after
  · rw [hsame.row] at hrow
    obtain ⟨hname, hentry⟩ := hreached.entries d hd value row hrow
    refine ⟨hname, ?_⟩
    rcases hentry with ⟨rows, hfile, hdescribes⟩ | hleft
    · exact Or.inl ⟨rows, hsame.file.trans hfile, hdescribes⟩
    · exact Or.inr (hleft.concat op)
  · cases hspec.entries d hd value with
    | agrees hagrees =>
      obtain ⟨rows, hfile, hdescribes⟩ := hagrees row hrow
      exact ⟨hown d.id value rows hfile, Or.inl ⟨rows, hfile, hdescribes⟩⟩
    | same hsame' => exact absurd hsame' hsame
    | cut hcut hkept =>
      have hrow' : ledgerRow before d value = some row := hkept ▸ hrow
      refine ⟨(hreached.entries d hd value row hrow').1,
        Or.inr ⟨ops, op, [], before, after, rfl, hrun, hstep, hcut, ?_, hrow', hrow⟩⟩
      intro hfile
      exact hsame ⟨hfile, hkept⟩

private theorem reached_of_exec {st₀ st : Store} {ops : List Operation} (fresh : Fresh st₀)
    (hnames : ∀ op ∈ ops, op.NamesDirectories p)
    (run : exec (operationStep p h) st₀ ops = some st) : Reached p h st₀ ops st := by
  induction ops using List.reverseRecOn generalizing st with
  | nil =>
    obtain rfl := Option.some.inj run
    exact reached_fresh fresh
  | append_singleton ops op ih =>
    obtain ⟨before, hrun, hlast⟩ := exec_append_some.mp run
    obtain ⟨after, hstep, hnil⟩ := exec_cons_some.mp hlast
    obtain rfl := Option.some.inj hnil
    have hbefore := ih (fun op' hop' => hnames op' (List.mem_append_left _ hop')) hrun
    exact hbefore.step hrun (hnames op (List.mem_append_right _ List.mem_cons_self)) hstep

end Runs

/-! A calendar of one session, replaced by one of two sessions whose ledger
transaction is cut off. -/

def sessionsOf (days : List Int) : Frame :=
  ⟨["calendar_date", "is_trading_day"], fun _ => .object, days.map fun day =>
    rowOf [("calendar_date", .date day), ("is_trading_day", .text "1")]⟩

def writeSessions (days : List Int) (ledger : Bool) : Operation :=
  .write ⟨.plain ledger, "baostock_cn_trading_calendar", sessionsOf days, none, some .replace, false⟩

def cutReplace : List Operation := [writeSessions [19724] true, writeSessions [19724, 19725] false]

def afterCutReplace : Store :=
  (operate .plain .plain (operate .plain .plain .empty (writeSessions [19724] true)).2
    (writeSessions [19724, 19725] false)).2

private theorem exec_cutReplace :
    exec (operationStep .plain .plain) .empty cutReplace = some afterCutReplace := rfl

private theorem cutReplace_namesDirectories : ∀ op ∈ cutReplace, op.NamesDirectories .plain := by
  have hnames : ∀ days ledger, (writeSessions days ledger).NamesDirectories .plain := by
    intro days ledger d hd
    obtain rfl : baostockCnTradingCalendarDataset = d := Except.ok.inj hd
    refine ⟨fun value hvalue => ?_, fun _ c hc => by cases hc⟩
    obtain rfl : "" = value := Except.ok.inj hvalue
    decide
  intro op hop
  rcases List.mem_cons.mp hop with rfl | hop
  · exact hnames [19724] true
  · obtain rfl := List.mem_singleton.mp hop
    exact hnames [19724, 19725] false

end QuantDataCenter.Derived
