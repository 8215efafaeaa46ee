import Mathlib.Data.List.Infix
import Mathlib.Data.List.Sort
import QuantDataCenter.Lib.Dict
import QuantDataCenter.Lib.Restart
import QuantDataCenter.Storage.ParquetStore

/-!
The migration to the naming standard (`scripts/migrate_naming_v1.py --apply`), step by step on the
directories below `data/parquet` and the tables of the DuckDB file. Subdirectories, views and the
report are left out; what pyarrow can write and what DuckDB accepts are the host's.
-/

set_option autoImplicit false
set_option relaxedAutoImplicit false

namespace QuantDataCenter.Scripts

open QuantDataCenter.Lib QuantDataCenter.Lib.Restart QuantDataCenter.Tabular QuantDataCenter.Storage

def datasetRenames : List (String × String) :=
  [("daily_k_none", "baostock_cn_stock_daily_bar_unadjusted"),
    ("daily_k_qfq", "baostock_cn_stock_daily_bar_qfq"),
    ("daily_k_hfq", "baostock_cn_stock_daily_bar_hfq"),
    ("adjust_factor", "baostock_cn_stock_adjustment_factor"),
    ("stock_basic", "baostock_cn_stock_basic"),
    ("calendar", "baostock_cn_trading_calendar"),
    ("stock_value_em", "akshare_cn_stock_valuation_eastmoney"),
    ("stock_info_sh_delist", "akshare_cn_stock_delist_sh"),
    ("stock_info_sz_delist", "akshare_cn_stock_delist_sz"),
    ("stock_zh_a_spot_em", "akshare_cn_stock_spot_quote_eastmoney"),
    ("stock_zh_a_spot_sina", "akshare_cn_stock_spot_quote_sina"),
    ("stock_zh_a_hist_none", "akshare_cn_stock_daily_bar_unadjusted"),
    ("stock_zh_a_hist_qfq", "akshare_cn_stock_daily_bar_qfq"),
    ("stock_zh_a_hist_hfq", "akshare_cn_stock_daily_bar_hfq"),
    ("stock_institute_hold", "akshare_cn_stock_institution_holding")]

def columnRenames : List (String × String) :=
  [("pctChg", "pct_change"), ("pct_chg", "pct_change"), ("preclose", "prev_close"),
    ("adjustflag", "adjust_flag"), ("tradestatus", "trade_status"), ("turn", "turnover_rate"),
    ("peTTM", "pe_ttm"), ("pbMRQ", "pb_mrq"), ("psTTM", "ps_ttm"), ("pcfNcfTTM", "pcf_ncf_ttm"),
    ("isST", "is_st"), ("ipoDate", "ipo_date"), ("outDate", "delist_date"),
    ("dividOperateDate", "dividend_operate_date"), ("foreAdjustFactor", "forward_adjust_factor"),
    ("backAdjustFactor", "backward_adjust_factor"), ("adjustFactor", "adjustment_factor"),
    ("latest_price", "last_price"), ("change_amount", "price_change"), ("adjust", "adjustment"),
    ("code_name", "name"), ("type", "security_type"), ("status", "listing_status")]

def sourceEndpointRenames : List (String × String) :=
  [("akshare_cn_stock_spot_quote_eastmoney", "stock_zh_a_spot_em"),
    ("akshare_cn_stock_delist_sh", "stock_info_sh_delist"),
    ("akshare_cn_stock_delist_sz", "stock_info_sz_delist")]

def metadataTableRenames : List (String × String) :=
  [("update_runs", "pipeline_runs"), ("update_status", "dataset_update_status"),
    ("metadata_migrations", "schema_migrations")]

def pipelineRenames : List (String × String) := [("update_akshare_hist", "update_akshare_daily_bar")]

/-! Files and tables -/

/-- The parts of a path below the directory of a dataset. -/
abbrev Path := List String

/-- A file with what `pd.read_parquet` makes of it; none if it cannot be read. -/
structure File where
  path : Path
  frame : Option Frame

def File.name (file : File) : String := file.path.getLast?.getD ""

def endsWith (suffix name : String) : Bool := decide (suffix.toList <:+ name.toList)

/-- What `rglob("*.parquet")` finds. -/
def File.isParquet (file : File) : Bool := endsWith ".parquet" file.name

/-- What `rglob("*.tmp.parquet")` finds. -/
def File.isTmp (file : File) : Bool := endsWith ".tmp.parquet" file.name

/-- The files that are migrated: `".tmp.parquet" not in path.name`. -/
def File.isData (file : File) : Bool :=
  file.isParquet && !decide (".tmp.parquet".toList <:+: file.name.toList)

structure Tree where
  files : List File
  distinct : (files.map File.path).Nodup

def Tree.empty : Tree := ⟨[], List.nodup_nil⟩

def Tree.remove (tree : Tree) (path : Path) : Tree where
  files := tree.files.filter fun file => file.path ≠ path
  distinct := tree.distinct.sublist (List.filter_sublist.map File.path)

private theorem Tree.not_mem_remove (tree : Tree) (path : Path) :
    path ∉ (tree.remove path).files.map File.path := by
  intro hmem
  obtain ⟨file, hfile, heq⟩ := List.mem_map.mp hmem
  exact of_decide_eq_true (List.mem_filter.mp hfile).2 heq

def Tree.put (tree : Tree) (file : File) : Tree where
  files := (tree.remove file.path).files ++ [file]
  distinct := by
    rw [List.map_append, List.nodup_append]
    refine ⟨(tree.remove file.path).distinct, List.nodup_singleton _, ?_⟩
    rintro path hpath path' hpath' rfl
    obtain rfl := List.mem_singleton.mp hpath'
    exact tree.not_mem_remove file.path hpath

/-- `sorted(path for path in old_dir.rglob("*.parquet") if ".tmp.parquet" not in path.name)`. -/
def Tree.parquetFiles (tree : Tree) : List File :=
  (tree.files.filter File.isData).insertionSort fun a b => a.path ≤ b.path

/-- A table: its columns, how a row of other columns is read into it by position, and whether its
constraints allow some rows. -/
structure Table where
  columns : List String
  rows : List Row
  fit : List String → Row → Option Row
  admits : List Row → Bool

structure World where
  dirs : Dict String Tree
  /-- The tables of the DuckDB file; none if there is no file. -/
  tables : Option (String → Option Table)

/-! Steps -/

inductive Step where
  | mkdir (dir : String)
  | create (dir : String) (path : Path)
  | write (dir : String) (path : Path) (frame : Frame)
  | unlink (dir : String) (path : Path)
  | rmdir (dir : String)
  | rename (source target : String)
  | connect
  | alterRename (old new : String)
  | insertInto (old new : String) (rows : List Row)
  | dropTable (name : String)
  | update (name column old new : String)

def World.setDir (w : World) (dir : String) (tree : Tree) : World :=
  { w with dirs := Dict.set dir tree w.dirs }

def World.eraseDir (w : World) (dir : String) : World :=
  { w with dirs := w.dirs.filter fun entry => entry.1 ≠ dir }

def World.editDir (w : World) (dir : String) (f : Tree → Tree) : World :=
  match Dict.get dir w.dirs with
  | some tree => w.setDir dir (f tree)
  | none => w

def World.editTables (w : World) (f : (String → Option Table) → String → Option Table) : World :=
  { w with tables := w.tables.map f }

/-- `UPDATE ... SET column = new WHERE column = old`, on one row. -/
def updateRow (column old new : String) (row : Row) : Row :=
  if row column = .text old then Function.update row column (.text new) else row

def apply (w : World) : Step → World
  | .mkdir dir => if (Dict.get dir w.dirs).isSome then w else w.setDir dir .empty
  | .create dir path => w.editDir dir fun tree => tree.put ⟨path, none⟩
  | .write dir path frame => w.editDir dir fun tree => tree.put ⟨path, some frame⟩
  | .unlink dir path => w.editDir dir fun tree => tree.remove path
  | .rmdir dir => w.eraseDir dir
  | .rename source target =>
    match Dict.get source w.dirs with
    | some tree => (w.eraseDir source).setDir target tree
    | none => w
  | .connect => { w with tables := some (w.tables.getD fun _ => none) }
  | .alterRename old new => w.editTables fun tables =>
      Function.update (Function.update tables new (tables old)) old none
  | .insertInto _ new rows => w.editTables fun tables =>
      Function.update tables new ((tables new).map fun table =>
        { table with rows := table.rows ++ rows })
  | .dropTable name => w.editTables fun tables => Function.update tables name none
  | .update name column old new => w.editTables fun tables =>
      Function.update tables name ((tables name).map fun table =>
        { table with rows := table.rows.map (updateRow column old new) })

inductive Failure where
  | store (error : StoreError)
  | runtime (message : String)
  | sql
  deriving DecidableEq

abbrev Script := Program World Step Failure

/-- What lies outside of the script: pandas, what pyarrow can write to a file, and the datasets
whose views DuckDB can build. -/
structure Host where
  pandas : Pandas
  writable : Frame → Bool
  acceptsViews : (String → List File) → Bool

/-- What differs from attempt to attempt: the name of its working directories, and the order in
which `shutil.rmtree` meets the files of a tree. -/
structure Attempt where
  timestamp : String
  listing : Tree → List Path
  perm : ∀ tree, (listing tree).Perm (tree.files.map File.path)

/-! Datasets -/

/-- `rename_columns`. -/
def renameColumns (df : Frame) : Frame :=
  let renameMap := columnRenames.filter fun (old, new) => old ∈ df.columns ∧ new ∉ df.columns
  let renamed (column : String) : String := (Dict.get column renameMap).getD column
  let source (name : String) : String := (df.columns.find? fun c => renamed c == name).getD name
  { columns := df.columns.map renamed
    dtype := fun name => df.dtype (source name)
    rows := df.rows.map fun row name => row (source name) }

def dailyBarAdjustmentFromDataset (dataset : String) : Option String :=
  let start := "akshare_cn_stock_daily_bar_"
  if start.toList <+: dataset.toList then some (String.ofList (dataset.toList.drop start.length))
  else none

/-- `df["adjustment"] = adjustment`. -/
def setAdjustment (adjustment : String) (df : Frame) : Frame where
  columns := if "adjustment" ∈ df.columns then df.columns else df.columns ++ ["adjustment"]
  dtype := Function.update df.dtype "adjustment" .object
  rows := df.rows.map fun row => Function.update row "adjustment" (.text adjustment)

def renameSourceEndpoint : Cell → Cell
  | .text endpoint => .text ((Dict.get endpoint sourceEndpointRenames).getD endpoint)
  | c => c

/-- A frame of the old dataset as it is written for the new one. Two legacy columns of one new name
cannot be coerced. -/
def migratedFrame (h : Host) (newDataset : String) (df : Frame) : Except StoreError Frame := do
  let definition ← datasetDefinition newDataset
  let df := renameColumns df
  let df := match dailyBarAdjustmentFromDataset newDataset with
    | some adjustment => setAdjustment adjustment df
    | none => df
  let df := if "source_endpoint" ∈ df.columns then
      { df with rows := df.rows.map fun row =>
          Function.update row "source_endpoint" (renameSourceEndpoint (row "source_endpoint")) }
    else df
  if definition.schema.any fun field => 1 < df.columns.count field.name then
    .error (.attributeError "'DataFrame' object has no attribute 'dtype'")
  let cleaned ← cleanDataframeForSchema h.pandas df definition.schema
  if h.writable cleaned then .ok cleaned else .error .other

/-- What a file is read and written as. -/
def cleanedFile (h : Host) (newDataset : String) (file : File) : Except StoreError Frame :=
  match file.frame with
  | none => .error .other
  | some df => migratedFrame h newDataset df

/-- `shutil.rmtree`. -/
def rmtree (a : Attempt) (dir : String) : Script := fun w =>
  match Dict.get dir w.dirs with
  | none => raise (.store .fileNotFound) w
  | some tree => ⟨(a.listing tree).map (Step.unlink dir) ++ [.rmdir dir], none⟩

/-- `if path.exists(): shutil.rmtree(path)`. -/
def rmtreeIfExists (a : Attempt) (dir : String) : Script := fun w =>
  if (Dict.get dir w.dirs).isSome then rmtree a dir w else skip w

def writeMigratedFile (h : Host) (tmpDir newDataset : String) (file : File) : Script :=
  match cleanedFile h newDataset file with
  | .error e => fun _ => ⟨[.mkdir tmpDir], some (.store e)⟩
  | .ok cleaned => emits [.mkdir tmpDir, .create tmpDir file.path, .write tmpDir file.path cleaned]

def writeMigratedParquetTree (h : Host) (tmpDir newDataset : String) (files : List File) : Script :=
  all apply (files.map (writeMigratedFile h tmpDir newDataset))

def treeAt (w : World) (dir : String) : Tree := (Dict.get dir w.dirs).getD .empty

def validateMigratedTree (tmpDir : String) (expected : ℕ) : Script := fun w =>
  let written := (treeAt w tmpDir).parquetFiles
  if written.length ≠ expected then raise (.runtime "Expected other migrated parquet files") w
  else if written.any fun file => file.frame.isNone then raise (.store .other) w
  else skip w

/-- A target directory without Parquet files makes room, another one is not overwritten. -/
def clearTarget (a : Attempt) (newDir : String) : Script := fun w =>
  if (treeAt w newDir).files.any File.isParquet then
    raise (.runtime "Refusing to overwrite non-empty target dataset directory") w
  else rmtreeIfExists a newDir w

def tmpDirOf (a : Attempt) (newDataset : String) : String :=
  "." ++ newDataset ++ ".migrating_" ++ a.timestamp

def migrateDataset (h : Host) (a : Attempt) (names : String × String) : Script := fun w =>
  let files := (treeAt w names.1).parquetFiles
  let tmpDir := tmpDirOf a names.2
  if files = [] then skip w
  else
    seq apply (rmtreeIfExists a tmpDir)
      (onError apply
        (all apply [writeMigratedParquetTree h tmpDir names.2 files,
          validateMigratedTree tmpDir files.length, clearTarget a names.2,
          emit (.rename tmpDir names.2), rmtree a names.1])
        (rmtreeIfExists a tmpDir)) w

/-! Metadata -/

/-- The rows of a table as rows of another one, if it takes them. -/
def Table.insertFrom (table source : Table) : Option (List Row) :=
  (source.rows.mapM (table.fit source.columns)).filter fun rows => table.admits (table.rows ++ rows)

def renameTable (names : String × String) : Script := fun w =>
  let tables := w.tables.getD fun _ => none
  match tables names.1, tables names.2 with
  | none, _ => skip w
  | some _, none => emit (.alterRename names.1 names.2) w
  | some old, some new =>
    match new.insertFrom old with
    | none => raise .sql w
    | some rows => ⟨[.insertInto names.1 names.2 rows, .dropTable names.1], none⟩

structure ValueUpdate where
  table : String
  column : String
  old : String
  new : String
  deriving DecidableEq

def valueUpdates (table column : String) (renames : List (String × String)) : List ValueUpdate :=
  renames.map fun (old, new) => ⟨table, column, old, new⟩

/-- `update_dataset_values` and `update_pipeline_values`, in the order of the calls. -/
def metadataUpdates : List ValueUpdate :=
  valueUpdates "pipeline_runs" "dataset" datasetRenames ++
    valueUpdates "dataset_update_status" "dataset" datasetRenames ++
    valueUpdates "pipeline_checkpoints" "dataset" datasetRenames ++
    valueUpdates "pipeline_runs" "pipeline" pipelineRenames ++
    valueUpdates "pipeline_checkpoints" "pipeline" pipelineRenames

def Table.updates (table : Table) (u : ValueUpdate) : Bool :=
  u.column ∈ table.columns && table.rows.any fun row => row u.column = .text u.old

def Table.updated (table : Table) (u : ValueUpdate) : Table :=
  { table with rows := table.rows.map (updateRow u.column u.old u.new) }

def updateValues (u : ValueUpdate) : Script := fun w =>
  match (w.tables.getD fun _ => none) u.table with
  | none => skip w
  | some table =>
    if !table.updates u then skip w
    else if table.admits (table.updated u).rows then emit (.update u.table u.column u.old u.new) w
    else raise .sql w

/-! Views -/

/-- The Parquet files of the datasets of the catalog, without those of interrupted writes. -/
def storedFiles (w : World) (dataset : String) : List File :=
  if dataset ∈ datasetCatalog.map DatasetDefinition.id then
    (treeAt w dataset).files.filter fun file => file.isParquet && !file.isTmp
  else []

/-- `_cleanup_tmp_parquet_files`. -/
def cleanupTmpParquetFiles : Script := fun w =>
  ⟨w.dirs.flatMap fun (dir, tree) =>
    (tree.files.filter File.isTmp).map fun file => Step.unlink dir file.path, none⟩

def rebuildDuckdbViews (h : Host) : Script :=
  all apply [cleanupTmpParquetFiles, emit .connect,
    fun w => if h.acceptsViews (storedFiles w) then skip w else raise .sql w]

/-- The parts of `migrate`. -/
def migrateParts (h : Host) (a : Attempt) : List Script :=
  datasetRenames.map (migrateDataset h a) ++ metadataTableRenames.map renameTable ++
    metadataUpdates.map updateValues ++ [rebuildDuckdbViews h]

def migrate (h : Host) (a : Attempt) : Script := all apply (migrateParts h a)

end QuantDataCenter.Scripts
