import QuantDataCenter.Derived.SourceManifest

/-!
The canonical daily bars (`sources/derived/stock_daily_bar.py`): the bars of a
security from its Baostock and AkShare partitions, and the build of the dataset.
-/

set_option autoImplicit false
set_option relaxedAutoImplicit false

namespace QuantDataCenter.Derived

open QuantDataCenter.Lib.Checked QuantDataCenter.Lib.Keyed QuantDataCenter.Tabular
open QuantDataCenter.Quality QuantDataCenter.Storage QuantDataCenter.Derived.Commit

/-- `BAOSTOCK_DAILY_SOURCES`: dataset and adjustment. -/
def baostockDailySources : List (String × String) :=
  [("baostock_cn_stock_daily_bar_unadjusted", "unadjusted"),
    ("baostock_cn_stock_daily_bar_qfq", "qfq"), ("baostock_cn_stock_daily_bar_hfq", "hfq")]

/-- `AKSHARE_DAILY_SOURCES`. -/
def akshareDailySources : List (String × String) :=
  [("akshare_cn_stock_daily_bar_unadjusted", "unadjusted"),
    ("akshare_cn_stock_daily_bar_qfq", "qfq"), ("akshare_cn_stock_daily_bar_hfq", "hfq")]

def dailySourceFields : List SourceField :=
  baostockDailySources.map (fun source => (source.1, "baostock_code")) ++
    akshareDailySources.map fun source => (source.1, "akshare_code")

def columnOrNone (df : Frame) (column : String) (r : Row) : Cell :=
  if column ∈ df.columns then r column else .null

/-- `_string_column_with_default`, for one row. -/
def stringWithDefault (p : Pandas) (df : Frame) (column default : String) (r : Row) : String :=
  let text := cleanString p (columnOrNone df column r)
  if text = "" then default else text

/-- The dtype of a column that is assigned a scalar. -/
def scalarDtype : Cell → Dtype
  | .bool _ => .bool
  | .stamp _ => .datetime
  | _ => .object

section Mapping

variable (p : Pandas) (security : Row) (updatedAt : Int)

/-- The columns that the source has under the same name. -/
def copiedColumns : List String := ["date", "open", "high", "low", "close", "volume", "amount",
  "turnover_rate", "pct_change"]

def baostockColumns : List String := ["prev_close", "trade_status", "is_st"]

def securityColumns : List String := ["security_id", "code", "exchange", "name", "is_active"]

def mapBaostockRow (df : Frame) (datasetId adjustment : String) (r : Row) : Row := fun column =>
  if column ∈ copiedColumns ++ baostockColumns then columnOrNone df column r
  else if column ∈ securityColumns then security column
  else if column = "adjustment" then .text adjustment
  else if column = "source_dataset" then .text datasetId
  else if column = "source_endpoint" then .text "query_history_k_data_plus"
  else if column = "quality_status" then .text "daily_bar_confirmed"
  else if column = "updated_at" then .stamp updatedAt
  else .null

def mapAkshareRow (df : Frame) (datasetId adjustment : String) (r : Row) : Row := fun column =>
  if column ∈ copiedColumns then columnOrNone df column r
  else if column ∈ securityColumns then security column
  else if column = "adjustment" then .text adjustment
  else if column = "source_dataset" then .text datasetId
  else if column = "source_endpoint" then
    .text (stringWithDefault p df "source_endpoint" "stock_zh_a_hist" r)
  else if column = "quality_status" then
    .text (stringWithDefault p df "quality_status" "daily_bar_confirmed" r)
  else if column = "updated_at" then .stamp updatedAt
  else .null

def mappedDtype (df : Frame) (copied : List String) (column : String) : Dtype :=
  if column ∈ copied then if column ∈ df.columns then df.dtype column else .object
  else if column ∈ securityColumns then scalarDtype (security column)
  else if column = "updated_at" then .datetime
  else .object

def cnStockDailyBarColumns : List String := fieldNames cnStockDailyBarSchema

def mapBaostockDaily (df : Frame) (datasetId adjustment : String) : Frame where
  columns := cnStockDailyBarColumns
  dtype := if df.rows = [] then fun _ => .object
    else mappedDtype security df (copiedColumns ++ baostockColumns)
  rows := df.rows.map (mapBaostockRow security updatedAt df datasetId adjustment)

def mapAkshareDaily (df : Frame) (datasetId adjustment : String) : Frame where
  columns := cnStockDailyBarColumns
  dtype := if df.rows = [] then fun _ => .object
    else mappedDtype security df copiedColumns
  rows := df.rows.map (mapAkshareRow p security updatedAt df datasetId adjustment)

end Mapping

/-- `_assign_source_rank`, for one row. -/
def assignSourceRank (p : Pandas) (df : Frame) (r : Row) : Int :=
  let sourceDataset := stringWithDefault p df "source_dataset" "" r
  let qualityStatus := stringWithDefault p df "quality_status" "" r
  if startsWith sourceDataset "baostock_" = true then 0
  else if qualityStatus = "daily_bar_confirmed" then 1
  else if qualityStatus = "spot_quote_close" then 2
  else 3

/-- `drop_duplicates(columns, keep="first")`. -/
def keepFirst {α κ : Type} [DecidableEq κ] (key : α → κ) (rows : List α) : List α :=
  (keepLast key rows.reverse).reverse

/-- `pd.concat` of several frames. -/
def concatAll (p : Pandas) : List Frame → Frame
  | [] => ⟨[], fun _ => .object, []⟩
  | [df] => df
  | df :: df' :: dfs => concatAll p (concat p df df' :: dfs)
termination_by dfs => dfs.length

section Materialize

variable (p : Pandas) (reads : Reads) (st : Store) (cache : String → List String)

/-- `_read_partition_or_empty_cached`. -/
def readPartitionOrEmptyCached (datasetId partitionValue : String) : Except StoreError Frame := do
  let definition ← datasetDefinition datasetId
  match definition.partitionColumn with
  | none => readPartition p reads st definition ""
  | some _ =>
    if partitionValue ∉ cache datasetId then .ok (emptyDatasetFrame definition)
    else readPartition p reads st definition partitionValue

/-- The frames of one provider, under the security's code there. -/
def sourceFrames (code : String) (sources : List (String × String))
    (map : Frame → String → String → Frame) : Except StoreError (List Frame) :=
  if code = "" then .ok []
  else sources.mapM fun source => do
    let df ← readPartitionOrEmptyCached p reads st cache source.1 code
    .ok (map df source.1 source.2)

/-- The rows of several frames: the best source of each date and adjustment. -/
def combineSources (combined : Frame) : Frame :=
  let ranked := stableSort (fun r =>
    sortKey ["date", "security_id", "adjustment"] r ++ [(Cell.int (assignSourceRank p combined r)).rank])
    combined.rows
  let unique := keepFirst (rowKey ["date", "security_id", "adjustment"]) ranked
  { combined with rows := stableSort (sortKey ["security_id", "adjustment", "date"]) unique }

def materializeSecurityDailyBar (security : Row) (updatedAt : Int) : Except StoreError Frame := do
  let baostockFrames ← sourceFrames p reads st cache (cleanString p (security "baostock_code"))
    baostockDailySources (mapBaostockDaily security updatedAt)
  let akshareFrames ← sourceFrames p reads st cache (cleanString p (security "akshare_code"))
    akshareDailySources (mapAkshareDaily p security updatedAt)
  match (baostockFrames ++ akshareFrames).filter fun df => df.rows ≠ [] with
  | [] => .ok ⟨[], fun _ => .object, []⟩
  | nonEmpty => .ok (combineSources p (concatAll p nonEmpty))

end Materialize

/-- A RuntimeError is an error like others for a build. -/
def SignatureError.toStoreError : SignatureError → StoreError
  | .missingManifest _ _ => .other
  | .store error => error

/-- What a build of a derived dataset meets. -/
structure BuildEnv where
  reads : Reads
  updatedAt : Int
  masterEnv : WriteEnv
  signing : SourcePartition → WriteEnv
  stagingEnvs : ℕ → WriteEnv
  ledgerEnvs : ℕ → WriteEnv
  existed : Bool
  outcomes : Outcomes Bool
  cleanupCut : Option (String → Bool)

section Build

variable (p : Pandas) (h : Hashing) (b : BuildEnv)

/-- `_read_or_build_master`. -/
def readOrBuildMaster (st : Store) : Except StoreError (List Row) × Store :=
  match readPartition p b.reads st cnSecurityMasterDataset "" with
  | .error e => (.error e, st)
  | .ok master =>
    if (st.files cnSecurityMasterDataset.id "").isNone ∨ master.rows = [] then
      match buildSecurityMaster p h b.masterEnv b.reads b.updatedAt st with
      | (.error e, st') => (.error e, st')
      | (.ok _, st') => ((readPartition p b.reads st' cnSecurityMasterDataset "").map Frame.rows, st')
    else (.ok master.rows, st)

/-- `_filter_master_to_daily_source_candidates`. -/
def filterMasterToDailySourceCandidates (cache : String → List String) (master : List Row) :
    List Row :=
  let present (sources : List (String × String)) (code : String) : Bool :=
    code ≠ "" && sources.any fun source => code ∈ cache source.1
  master.filter fun security =>
    present baostockDailySources (cleanString p (security "baostock_code")) ||
      present akshareDailySources (cleanString p (security "akshare_code"))

/-- One security of a build: its frame with the signature of its sources, or nothing. -/
def signedPartition (cache : String → List String) (security : Row) (st : Store) :
    Except StoreError (Option StagedPartition) × Store :=
  let securityId := cleanString p (security "security_id")
  if securityId = "" then (.ok none, st)
  else match materializeSecurityDailyBar p b.reads st cache security b.updatedAt with
    | .error e => (.error e, st)
    | .ok df =>
      if df.rows = [] then (.ok none, st)
      else match sourcePartitionPairsForSecurity p st security dailySourceFields with
        | .error e => (.error e, st)
        | .ok pairs =>
          match currentSourceSignatureForSecurity p h b.signing security pairs st with
          | (.error e, st') => (.error e.toStoreError, st')
          | (.ok (signature, masterHash), st') =>
            (.ok (some ⟨securityId, df, signature, masterHash⟩), st')

/-- The loop of a full build over the master: what is staged, and the staging store. -/
def stageSecurities (cache : String → List String) : ℕ → List Row → Store → Store →
    Except StoreError (List StagedPartition) × Store × Store
  | _, [], area, st => (.ok [], area, st)
  | k, security :: master, area, st =>
    match signedPartition p h b cache security st with
    | (.error e, st') => (.error e, area, st')
    | (.ok none, st') => stageSecurities cache k master area st'
    | (.ok (some s), st') =>
      match writeDataset p h (b.stagingEnvs k) "cn_stock_daily_bar" s.df
        (securityPartition s.securityId) (some .replace) false area with
      | (.error e, area') => (.error e, area', st')
      | (.ok _, area') =>
        match stageSecurities cache (k + 1) master area' st' with
        | (.error e, area'', st'') => (.error e, area'', st'')
        | (.ok staged, area'', st'') => (.ok (s :: staged), area'', st'')

/-- The swap of the staged directory, and the ledger after it. -/
def commitStaged (definition : DatasetDefinition) (staged : List StagedPartition) (area st : Store) :
    Except StoreError Unit × Store :=
  let out := commit_derived_dataset_staging (definition.source == .derived) b.outcomes
    (areaOf b.existed)
  let swapped := st.setDataset definition.id fun value =>
    inPlace out.2.final_dir none (st.files definition.id value) (area.files definition.id value)
  match out.1 with
  | some _ => (.error .other, swapped)
  | none =>
    match recordPartitions p h b.ledgerEnvs definition 0 staged swapped with
    | (.error e, st') => (.error e, st')
    | (.ok (), st') =>
      match b.cleanupCut with
      | some reached => (.error .other, cleanupStaleDerivedManifests definition reached st')
      | none => (.ok (), cleanupStaleDerivedManifests definition (fun _ => true) st')

/-- `build_cn_stock_daily_bar` without security ids. -/
def buildCnStockDailyBar (st : Store) : Except StoreError Unit × Store :=
  match readOrBuildMaster p h b st with
  | (.error e, st') => (.error e, st')
  | (.ok master, st') =>
    let cache := b.reads.partitions
    match stageSecurities p h b cache 0 (filterMasterToDailySourceCandidates p cache master)
      stagingStore st' with
    | (.error e, _, st'') => (.error e, st'')
    | (.ok staged, area, st'') => commitStaged p h b cnStockDailyBarDataset staged area st''

end Build

end QuantDataCenter.Derived
