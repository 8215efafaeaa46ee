import Mathlib.Algebra.GroupWithZero.Nat
import Mathlib.Data.List.Dedup
import Mathlib.Data.String.Basic
import Mathlib.Order.WithBot
import QuantDataCenter.Lib.Keyed
import QuantDataCenter.Storage.AtomicWrite

/-!
The inventory of the registry (`storage/data_registry.py`): a row for each dataset with what its
directory holds and what its status rows say. A refresh scans the directories of the datasets that
are asked for and keeps the other rows.
-/

set_option autoImplicit false
set_option relaxedAutoImplicit false

namespace QuantDataCenter.Registry

open QuantDataCenter.Lib QuantDataCenter.Lib.Keyed
open QuantDataCenter.Storage.Files (contains dataName matchesView)

/-! Scanning a directory -/

/-- A file under the directory of a dataset: its path from there, and what its metadata say. The
statistics of the date column are texts, one pair for each row group that has them. -/
structure ParquetFile where
  path : List String
  numRows : ℕ
  dateStatistics : List (Option (String × String))
  mtime : ℤ
  deriving DecidableEq

def ParquetFile.name (file : ParquetFile) : String := file.path.getLast?.getD ""

/-- The columns of a row that come from the directory. -/
structure Physical where
  parquetFileCount : ℕ
  partitionCount : ℕ
  rowCount : ℕ
  latestPartition : String
  minDate : String
  maxDate : String
  latestFileMtime : Option ℤ
  deriving DecidableEq

/-- `_min_string` and `_max_string`: an empty text is none. -/
def pickString (pick : String → String → String) (left right : Option String) : Option String :=
  match right.filter (· ≠ ""), left.filter (· ≠ "") with
  | none, _ => left
  | some _, none => right
  | some r, some l => some (pick l r)

def minString (left right : Option String) : Option String := pickString min left right

def maxString (left right : Option String) : Option String := pickString max left right

/-- `_parquet_date_bounds`: a row group without statistics is passed over. -/
def parquetDateBounds (file : ParquetFile) : Option String × Option String :=
  file.dateStatistics.foldl (fun bounds statistics =>
    match statistics with
    | none => bounds
    | some (low, high) => (minString bounds.1 (some low), maxString bounds.2 (some high)))
    (none, none)

/-- `_partition_values`. -/
def partitionValues (partitionColumn : Option String) (files : List ParquetFile) : List String :=
  match partitionColumn with
  | none => []
  | some column =>
    let start := (column ++ "=").toList
    (files.filterMap fun file =>
      match file.path with
      | [directory, name] =>
        if start <+: directory.toList ∧ name = dataName then
          some (String.ofList (directory.toList.drop start.length))
        else none
      | _ => none).dedup

/-- `_scan_dataset_dir`. -/
def scanDatasetDir (partitionColumn : Option String) (files : List ParquetFile) : Physical :=
  let parquet := files.filter fun file =>
    matchesView file.name && !contains ".tmp.parquet" file.name
  let bounds := parquet.foldl (fun bounds file =>
    (minString bounds.1 (parquetDateBounds file).1, maxString bounds.2 (parquetDateBounds file).2))
    (none, none)
  let partitions := partitionValues partitionColumn files
  { parquetFileCount := parquet.length
    partitionCount := partitions.length
    rowCount := (parquet.map ParquetFile.numRows).sum
    latestPartition := partitions.max?.getD ""
    minDate := bounds.1.getD ""
    maxDate := bounds.2.getD ""
    latestFileMtime := (parquet.map ParquetFile.mtime).max? }

/-! Rows -/

/-- The columns of a row that repeat the catalog. -/
structure Described where
  logicalName : String
  source : String
  viewName : String
  partitionColumn : String
  codeFormat : String
  lifecycle : String
  deriving DecidableEq

structure Status where
  latestSuccessDate : String := ""
  latestStatus : String := ""
  latestStatusUpdatedAt : Option ℤ := none
  deriving DecidableEq

structure InventoryRow where
  datasetId : String
  described : Described
  physical : Physical
  status : Status
  updatedAt : Option ℤ
  deriving DecidableEq

structure StatusRow where
  dataset : String
  updatedAt : Option ℤ
  lastSuccessDate : Option ℤ
  status : Option String

/-- Rows without a time come first. -/
def StatusRow.rank (row : StatusRow) : WithBot ℤ := row.updatedAt

/-- The catalog, and what is outside the registry: how times are written as dates, the texts of
lists, and the order a sort gives to rows of one rank. -/
structure InventoryEnv where
  catalog : List String
  described : String → Described
  partitionColumn : String → Option String
  isoDate : ℤ → String
  listText : List String → String
  sortById : Sorter InventoryRow.datasetId
  sortByTime : Sorter StatusRow.rank

/-- `.dt.floor("ms")`, in microseconds. -/
def floorMs (time : Option ℤ) : Option ℤ := time.map fun us => us / 1000 * 1000

def Physical.clean (physical : Physical) : Physical :=
  { physical with latestFileMtime := floorMs physical.latestFileMtime }

/-- `_clean_inventory`, on one row. -/
def cleanRow (row : InventoryRow) : InventoryRow :=
  { row with
    physical := row.physical.clean
    status := { row.status with latestStatusUpdatedAt := floorMs row.status.latestStatusUpdatedAt }
    updatedAt := floorMs row.updatedAt }

inductive InventoryFile where
  | missing
  | unreadable
  | rows (rows : List InventoryRow)

def readInventory : InventoryFile → List InventoryRow
  | .rows rows => rows.map cleanRow
  | _ => []

variable (env : InventoryEnv)

/-- What the status rows of one dataset say: the last one in time, and the latest success. -/
def statusOf (group : List StatusRow) : Status :=
  let latest := (env.sortByTime.sort group).getLast?
  { latestSuccessDate := ((group.filterMap StatusRow.lastSuccessDate).max?.map env.isoDate).getD ""
    latestStatus := (latest.bind StatusRow.status).getD ""
    latestStatusUpdatedAt := latest.bind StatusRow.updatedAt }

/-- `_status_by_dataset`: a dataset without status rows keeps what its row said. -/
def statusByDataset (current : Option InventoryRow) (statusRows : Option (List StatusRow))
    (id : String) : Status :=
  match (statusRows.getD []).filter fun row => row.dataset == id with
  | [] => (current.map InventoryRow.status).getD {}
  | row :: rows => statusOf env (row :: rows)

/-- `_inventory_row`. -/
def inventoryRow (dirs : String → List ParquetFile) (now : ℤ) (id : String) (status : Status) :
    InventoryRow where
  datasetId := id
  described := env.described id
  physical := scanDatasetDir (env.partitionColumn id) (dirs id)
  status := status
  updatedAt := some now

/-- `set(dataset_ids or DATASET_CATALOG.keys())`. -/
def requestedIds (ids : Option (List String)) : List String :=
  match ids with
  | none | some [] => env.catalog.dedup
  | some ids => ids.dedup

def currentRow (rows : List InventoryRow) (id : String) : Option InventoryRow :=
  lastOf InventoryRow.datasetId id rows

/-- The rows `refresh_inventory` writes. -/
def refreshedRows (dirs : String → List ParquetFile) (statusRows : Option (List StatusRow))
    (now : ℤ) (requested : List String) (current : List InventoryRow) : List InventoryRow :=
  let scanned := (stableSort (fun id : String => id) requested).map fun id =>
    inventoryRow env dirs now id (statusByDataset env (currentRow current id) statusRows id)
  let remaining := current.filter fun row => row.datasetId ∉ requested
  env.sortById.sort ((remaining ++ scanned).map cleanRow)

/-- `refresh_inventory`, up to the write of the file. -/
def refreshInventory (dirs : String → List ParquetFile) (ids : Option (List String))
    (statusRows : Option (List StatusRow)) (now : ℤ) (file : InventoryFile) :
    Except String (List InventoryRow) :=
  let requested := requestedIds env ids
  let unknown := requested.filter fun id => id ∉ env.catalog
  if unknown ≠ [] then
    .error ("Unknown dataset ids: " ++ env.listText (stableSort (fun id : String => id) unknown))
  else .ok (refreshedRows env dirs statusRows now requested (readInventory file))

/-! A refresh as an update of a map -/

abbrev View := String → Option InventoryRow

/-- The rows of the requested datasets are made anew, the others stay. -/
def View.refresh (view : View) (dirs : String → List ParquetFile)
    (statusRows : Option (List StatusRow)) (now : ℤ) (requested : List String) : View := fun id =>
  if id ∈ requested then
    some (cleanRow (inventoryRow env dirs now id (statusByDataset env (view id) statusRows id)))
  else view id

/-- The inventory is sorted, has at most one row for a dataset, and says what the map says. -/
structure Shows (rows : List InventoryRow) (view : View) : Prop where
  sorted : rows.Pairwise fun a b => a.datasetId < b.datasetId
  mem : ∀ row, row ∈ rows ↔ view row.datasetId = some row
  own : ∀ id row, view id = some row → row.datasetId = id
  clean : ∀ row ∈ rows, cleanRow row = row

private theorem floorMs_floorMs (time : Option ℤ) : floorMs (floorMs time) = floorMs time := by
  cases time with
  | none => rfl
  | some us =>
    have hfloor : us / 1000 * 1000 / 1000 * 1000 = us / 1000 * 1000 := by omega
    exact congrArg some hfloor

private theorem cleanRow_cleanRow (row : InventoryRow) :
    cleanRow (cleanRow row) = cleanRow row := by
  simp only [cleanRow, Physical.clean, floorMs_floorMs]

theorem Shows.nodup {rows : List InventoryRow} {view : View} (h : Shows rows view) :
    (rows.map InventoryRow.datasetId).Nodup :=
  List.pairwise_map.mpr (h.sorted.imp fun hlt => hlt.ne)

theorem Shows.currentRow {rows : List InventoryRow} {view : View} (h : Shows rows view)
    (id : String) : currentRow rows id = view id := by
  cases hview : view id with
  | none =>
    refine lastOf_eq_none.mpr fun hmem => ?_
    obtain ⟨row, hrow, rfl⟩ := List.mem_map.mp hmem
    rw [(h.mem row).mp hrow] at hview
    cases hview
  | some row =>
    obtain rfl := h.own id row hview
    exact lastOf_eq_some_of_nodup h.nodup ((h.mem row).mpr hview)

/-- A refresh writes what the refreshed map says, if the rows it keeps and the rows it replaces say
what the map says. -/
theorem shows_refreshedRows {rows : List InventoryRow} {view : View} {requested : List String}
    (hkept : Shows (rows.filter fun row => row.datasetId ∉ requested)
      fun id => if id ∈ requested then none else view id)
    (hreplaced : ∀ id ∈ requested, currentRow rows id = view id)
    (dirs : String → List ParquetFile) (statusRows : Option (List StatusRow)) (now : ℤ)
    (hnodup : requested.Nodup) :
    Shows (refreshedRows env dirs statusRows now requested rows)
      (view.refresh env dirs statusRows now requested) := by
  have hscanned : (stableSort (fun id : String => id) requested).map (fun id =>
      inventoryRow env dirs now id (statusByDataset env (currentRow rows id) statusRows id)) =
      (stableSort (fun id : String => id) requested).map fun id =>
        inventoryRow env dirs now id (statusByDataset env (view id) statusRows id) := by
    refine List.map_congr_left fun id hid => ?_
    rw [hreplaced id ((stableSort_perm _ _).mem_iff.mp hid)]
  have hmem : ∀ row, row ∈ refreshedRows env dirs statusRows now requested rows ↔
      row ∈ rows.filter (fun row => row.datasetId ∉ requested) ∨ ∃ id ∈ requested, row = cleanRow
        (inventoryRow env dirs now id (statusByDataset env (view id) statusRows id)) := by
    intro row
    unfold refreshedRows
    rw [(env.sortById.perm _).mem_iff, List.map_append, List.mem_append, hscanned]
    refine or_congr ?_ ?_
    · rw [List.mem_map]
      constructor
      · rintro ⟨r, hr, rfl⟩
        rw [hkept.clean r hr]
        exact hr
      · exact fun hrow => ⟨row, hrow, hkept.clean row hrow⟩
    · simp only [List.mem_map, (stableSort_perm _ _).mem_iff, exists_exists_and_eq_and]
      exact exists_congr fun id => and_congr_right fun _ => eq_comm
  have hids : ((refreshedRows env dirs statusRows now requested rows).map
      InventoryRow.datasetId).Nodup := by
    refine (((env.sortById.perm _).map InventoryRow.datasetId).nodup_iff).mpr ?_
    have hsorted : ((stableSort (fun id : String => id) requested).map fun id =>
        inventoryRow env dirs now id
          (statusByDataset env (currentRow rows id) statusRows id)).map
            InventoryRow.datasetId = stableSort (fun id : String => id) requested := by
      rw [List.map_map]
      exact List.map_id _
    have hclean : InventoryRow.datasetId ∘ cleanRow = InventoryRow.datasetId := rfl
    rw [List.map_map, hclean, List.map_append, hsorted, List.nodup_append]
    refine ⟨hkept.nodup, ?_, ?_⟩
    · exact (stableSort_perm _ requested).nodup_iff.mpr hnodup
    · rintro id hrest id' hsorted rfl
      obtain ⟨row, hrow, rfl⟩ := List.mem_map.mp hrest
      have hnot := (List.mem_filter.mp hrow).2
      exact of_decide_eq_true hnot ((stableSort_perm _ requested).mem_iff.mp hsorted)
  refine ⟨?_, fun row => ?_, fun id row hview => ?_, fun row hrow => ?_⟩
  · have hne := List.pairwise_map.mp hids
    exact ((env.sortById.sorted _).and hne).imp fun hab => lt_of_le_of_ne hab.1 hab.2
  · rw [hmem, hkept.mem]
    unfold View.refresh
    split_ifs with hreq
    · constructor
      · rintro (hnone | ⟨id, -, rfl⟩)
        · cases hnone
        · rfl
      · intro hsome
        exact .inr ⟨row.datasetId, hreq, (Option.some.inj hsome).symm⟩
    · constructor
      · rintro (hrow | ⟨id, hid, rfl⟩)
        · exact hrow
        · exact absurd hid hreq
      · exact .inl
  · unfold View.refresh at hview
    split_ifs at hview with hreq
    · rw [← Option.some.inj hview]
      rfl
    · exact hkept.own id row (by rw [if_neg hreq]; exact hview)
  · obtain hold | ⟨id, -, rfl⟩ := (hmem row).mp hrow
    · exact hkept.clean row hold
    · exact cleanRow_cleanRow _

theorem Shows.refresh {rows : List InventoryRow} {view : View} (h : Shows rows view)
    (dirs : String → List ParquetFile) (statusRows : Option (List StatusRow)) (now : ℤ)
    {requested : List String} (hnodup : requested.Nodup) :
    Shows (refreshedRows env dirs statusRows now requested rows)
      (view.refresh env dirs statusRows now requested) := by
  refine shows_refreshedRows env ?_ (fun id _ => h.currentRow id) dirs statusRows now hnodup
  refine ⟨h.sorted.filter _, fun row => ?_, fun id row hview => ?_, fun row hrow => ?_⟩
  · rw [List.mem_filter, h.mem]
    split_ifs with hreq
    · simp [hreq]
    · simp [hreq]
  · split_ifs at hview
    exact h.own id row hview
  · exact h.clean row (List.mem_filter.mp hrow).1

end QuantDataCenter.Registry
