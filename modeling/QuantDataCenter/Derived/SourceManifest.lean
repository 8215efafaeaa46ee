import QuantDataCenter.Derived.SecurityMaster

/-!
The source partitions of a security and the signature over their ledger rows
(`sources/derived/manifest.py`).
-/

set_option autoImplicit false
set_option relaxedAutoImplicit false

namespace QuantDataCenter.Derived

open QuantDataCenter.Lib.Checked QuantDataCenter.Tabular QuantDataCenter.Storage

/-- Dataset and partition value. -/
abbrev SourcePartition := String × String

/-- A dataset with the field of the master that names the partition of a security. -/
abbrev SourceField := String × String

/-- What a signature can end with: a missing ledger row is a `RuntimeError`. -/
inductive SignatureError where
  | missingManifest (dataset value : String)
  | store (error : StoreError)
  deriving DecidableEq, Repr

section Pairs

variable (p : Pandas) (st : Store) (security : Row)

/-- `store.dataset_exists(dataset_id, {partition_column: code})`. -/
def datasetExists (definition : DatasetDefinition) (code : String) : Except StoreError Bool := do
  let value ← partitionValue p definition (partitionOf definition code)
  .ok (st.files definition.id value).isSome

def sourcePartitionPairsForSecurity : List SourceField → Except StoreError (List SourcePartition)
  | [] => .ok []
  | (datasetId, codeField) :: fields => do
    let definition ← datasetDefinition datasetId
    let code := cleanString p (security codeField)
    let present ← if definition.partitionColumn = none ∨ code = "" then .ok false
      else datasetExists p st definition code
    let pairs ← sourcePartitionPairsForSecurity fields
    .ok (if present = true then (datasetId, code) :: pairs else pairs)

end Pairs

section Signature

variable (p : Pandas) (h : Hashing) (env : SourcePartition → WriteEnv)

/-- `rebuild_one_partition_manifest(force=True)`. -/
def rebuildOnePartitionManifest (definition : DatasetDefinition) (pair : SourcePartition)
    (st : Store) : Except StoreError Unit × Store :=
  match partitionValue p definition (partitionOf definition pair.2) with
  | .error e => (.error e, st)
  | .ok value =>
    if (st.files definition.id value).isNone then (.ok (), st)
    else match readDataset p ((env pair).io 0) st definition value with
      | .error e => (.error e, st)
      | .ok df =>
        upsertWrittenDatasetPartitionManifest p h (env pair) ((env pair).io 0) definition df
          (partitionOf definition pair.2) "" "" st

/-- The ledger row of one pair, rebuilt when it is missing. -/
def sourceManifestRow (definition : DatasetDefinition) (pair : SourcePartition) (st : Store) :
    Except SignatureError ManifestRow × Store :=
  match ledgerRow st definition pair.2 with
  | some row => (.ok row, st)
  | none =>
    match rebuildOnePartitionManifest p h env definition pair st with
    | (.error e, st') => (.error (.store e), st')
    | (.ok (), st') =>
      match ledgerRow st' definition pair.2 with
      | some row => (.ok row, st')
      | none => (.error (.missingManifest definition.id pair.2), st')

/-- What `source_signature` reads of a ledger row. -/
def sourceEntry (definition : DatasetDefinition) (pair : SourcePartition) (row : ManifestRow) :
    SourceEntry :=
  (strip pair.1, strip definition.ledgerColumn, strip pair.2, strip row.semanticHash)

/-- `source_manifest_rows_for_pairs` on pairs that are all different. -/
def sourceManifestEntries : List SourcePartition → Store →
    Except SignatureError (List SourceEntry) × Store
  | [], st => (.ok [], st)
  | pair :: pairs, st =>
    match datasetDefinition pair.1 with
    | .error e => (.error (.store e), st)
    | .ok definition =>
      match sourceManifestRow p h env definition pair st with
      | (.error e, st') => (.error e, st')
      | (.ok row, st') =>
        match sourceManifestEntries pairs st' with
        | (.error e, st'') => (.error e, st'')
        | (.ok entries, st'') => (.ok (sourceEntry definition pair row :: entries), st'')

/-- `current_source_signature_for_security`: the signature and the hash of the master row. -/
def currentSourceSignatureForSecurity (security : Row) (pairs : List SourcePartition) (st : Store) :
    Except SignatureError (String × String) × Store :=
  let masterHash := masterRowHash h security
  match sourceManifestEntries p h env pairs.eraseDups st with
  | (.error e, st') => (.error e, st')
  | (.ok entries, st') => (.ok (sourceSignature h entries masterHash, masterHash), st')

end Signature

end QuantDataCenter.Derived
