import Mathlib.Data.Finset.Card
import QuantDataCenter.Derived.Publication

/-!
The security master (`sources/derived/security_master.py`): one record for each
security that the spot quotes, the delist lists, the Baostock basics or the Qlib
symbols name, keyed by its security id.
-/

set_option autoImplicit false
set_option relaxedAutoImplicit false

namespace QuantDataCenter.Derived

open QuantDataCenter.Lib.Checked QuantDataCenter.Lib.Keyed QuantDataCenter.Tabular
open QuantDataCenter.Quality QuantDataCenter.Storage

inductive MasterSource where
  | spot
  | delist
  | baostock
  | qlib
  deriving DecidableEq, Repr

/-- A security while the sources are merged. What the source stores beside
exchange and code follows from the two. -/
structure Record where
  exchange : String
  code : String
  sources : Finset MasterSource := ∅
  spotName : String := ""
  spotDate : Option Int := none
  delistName : String := ""
  listDate : Option Int := none
  akshareDelistDate : Option Int := none
  delistSnapshotDate : Option Int := none
  baostockName : String := ""
  ipoDate : Option Int := none
  baostockDelistDate : Option Int := none
  securityType : String := ""
  baostockListingStatus : String := ""

/-- `f"{exchange}.{code}"`. -/
def securityIdOf (exchange code : String) : String := exchange ++ "." ++ code

def Record.securityId (record : Record) : String := securityIdOf record.exchange record.code

/-- What the builds get from the file system: the partitions a listing of the
dataset's directory finds, in order, and the answers to the reads. -/
structure Reads where
  partitions : String → List String
  io : String → String → PartitionIo

section Parsing

variable (p : Pandas)

def cleanString : Cell → String
  | .null => ""
  | c => strip (p.str c)

def sixDigit (c : Cell) : Option String :=
  let text := cleanString p c
  if text.toList.length = 6 ∧ text.toList.all p.isDigit = true then some text else none

def toDate (c : Cell) : Option Int := (parsedDate p c).map (· / nsPerDay)

def startsWith (s pre : String) : Bool := pre.toList.isPrefixOf s.toList

def exchangeFromAkshareCode (code : String) : Option String :=
  if startsWith code "6" then some "SH"
  else if startsWith code "0" || startsWith code "2" || startsWith code "3" then some "SZ"
  else if startsWith code "4" || startsWith code "8" || startsWith code "9" then some "BJ"
  else none

def normalizeExchange (c : Cell) : Option String :=
  let normalized := p.upper (cleanString p c)
  if normalized ∈ ["SH", "SSE"] then some "SH"
  else if normalized ∈ ["SZ", "SZSE"] then some "SZ"
  else if normalized ∈ ["BJ", "BSE"] then some "BJ"
  else none

def parseBaostockCode (c : Cell) : Option (String × String) :=
  match (p.lower (cleanString p c)).toList with
  | a :: b :: '.' :: rest =>
    if rest.length = 6 ∧ String.ofList [a, b] ∈ ["sh", "sz"] then
      (sixDigit p (.text (String.ofList rest))).map fun code =>
        (p.upper (String.ofList [a, b]), code)
    else none
  | _ => none

def parseQlibSymbol (c : Cell) : Option (String × String) :=
  match (p.lower (cleanString p c)).toList with
  | a :: b :: rest =>
    if rest.length = 6 ∧ String.ofList [a, b] ∈ ["sh", "sz", "bj"] then
      (sixDigit p (.text (String.ofList rest))).map fun code =>
        (p.upper (String.ofList [a, b]), code)
    else none
  | _ => none

def board (exchange code : String) : String :=
  if exchange = "SH" ∧ startsWith code "688" = true then "star"
  else if exchange = "SH" ∧ startsWith code "60" = true then "main"
  else if exchange = "SZ" ∧ startsWith code "00" = true then "main"
  else if exchange = "SZ" ∧ startsWith code "30" = true then "chinext"
  else if exchange = "BJ" then "bse"
  else "unknown"

def baostockCode (exchange code : String) : String :=
  if exchange ∈ ["SH", "SZ"] then p.lower exchange ++ "." ++ code else ""

def qlibSymbol (exchange code : String) (qlibSymbols : List String) : String :=
  let symbol := p.lower exchange ++ code
  if exchange ∈ ["SH", "SZ"] then symbol
  else if exchange = "BJ" ∧ symbol ∈ qlibSymbols then symbol
  else ""

def statusFromBaostock (status : String) : Option Bool × String :=
  let normalized := p.lower (strip status)
  if normalized ∈ ["1", "active", "listed", "normal"] then (some true, "active")
  else if normalized ∈ ["0", "delisted", "terminated", "inactive"] then (some false, "delisted")
  else (none, "unknown")

def maxDate : Option Int → Option Int → Option Int
  | some a, some b => some (max a b)
  | some a, none => some a
  | none, b => b

end Parsing

/-! Merging the sources -/

section Merging

variable (p : Pandas)

/-- One pass over a source: an item that names a security is noted in its record. -/
def mergeSource {α : Type} (identify : α → Option (String × String)) (note : α → Record → Record)
    (records : List Record) (items : List α) : List Record :=
  items.foldl (fun records item =>
    match identify item with
    | none => records
    | some (exchange, code) =>
      updateEntry Record.securityId { exchange := exchange, code := code } (note item) records)
    records

def spotSecurity (r : Row) : Option (String × String) :=
  (sixDigit p (r "code")).bind fun code =>
    (exchangeFromAkshareCode code).map fun exchange => (exchange, code)

def mergeSpot (records : List Record) (df : Frame) : List Record :=
  mergeSource (spotSecurity p) (fun r record =>
    { record with
      sources := insert .spot record.sources
      spotName := cleanString p (r "name")
      spotDate := toDate p (r "trade_date") }) records df.rows

def delistSecurity (defaultExchange : String) (r : Row) : Option (String × String) :=
  (sixDigit p (r "code")).map fun code =>
    ((normalizeExchange p (r "exchange")).getD defaultExchange, code)

def mergeDelist (records : List Record) (df : Frame) (defaultExchange : String) : List Record :=
  mergeSource (delistSecurity p defaultExchange) (fun r record =>
    { record with
      sources := insert .delist record.sources
      delistName := cleanString p (r "name")
      listDate := toDate p (r "list_date")
      akshareDelistDate := toDate p (r "delist_date")
      delistSnapshotDate := toDate p (r "snapshot_date") }) records df.rows

def mergeBaostockBasic (records : List Record) (df : Frame) : List Record :=
  mergeSource (fun r => parseBaostockCode p (r "code")) (fun r record =>
    { record with
      sources := insert .baostock record.sources
      baostockName := cleanString p (r "name")
      ipoDate := toDate p (r "ipo_date")
      baostockDelistDate := toDate p (r "delist_date")
      securityType := cleanString p (r "security_type")
      baostockListingStatus := p.lower (cleanString p (r "listing_status")) }) records df.rows

/-- `sorted` of a set of strings. -/
def sortedSet (symbols : List String) : List String := symbols.eraseDups.mergeSort fun a b => a ≤ b

def mergeQlib (records : List Record) (qlibSymbols : List String) : List Record :=
  mergeSource (fun symbol => parseQlibSymbol p (.text symbol)) (fun _ record =>
    { record with sources := insert .qlib record.sources }) records (sortedSet qlibSymbols)

structure MasterInputs where
  qlibSymbols : List String
  spot : Frame
  delistSh : Frame
  delistSz : Frame
  baostockBasic : Frame

def masterRecords (inputs : MasterInputs) : List Record :=
  let records := mergeSpot p [] inputs.spot
  let records := mergeDelist p records inputs.delistSh "SH"
  let records := mergeDelist p records inputs.delistSz "SZ"
  let records := mergeBaostockBasic p records inputs.baostockBasic
  mergeQlib p records inputs.qlibSymbols

def sourcePriority (sources : Finset MasterSource) : String :=
  if sources.card > 1 then "mixed"
  else if .spot ∈ sources then "akshare_spot"
  else if .delist ∈ sources then "akshare_delist"
  else if .baostock ∈ sources then "baostock_basic"
  else if .qlib ∈ sources then "qlib_only"
  else "unknown"

/-- `is_active` and `listing_status`. -/
def listingStatus (record : Record) : Option Bool × String :=
  if .delist ∈ record.sources then (some false, "delisted")
  else if .spot ∈ record.sources then (some true, "active")
  else if .baostock ∈ record.sources ∧ record.baostockDelistDate ≠ none then (some false, "delisted")
  else if .baostock ∈ record.sources then statusFromBaostock p record.baostockListingStatus
  else if record.sources = {.qlib} then (some false, "unknown")
  else (none, "unknown")

def recordName (record : Record) : String :=
  let name := if .spot ∈ record.sources ∧ (listingStatus p record).2 = "active" then
    record.spotName else ""
  if name ≠ "" then name
  else if record.delistName ≠ "" then record.delistName
  else record.baostockName

def dateCell (day : Option Int) : Cell := (day.map .date).getD .null

def finalizeRecord (record : Record) (updatedAt : Int) (qlibSymbols : List String) : Row :=
  rowOf
    [("security_id", .text record.securityId),
     ("code", .text record.code),
     ("exchange", .text record.exchange),
     ("name", .text (recordName p record)),
     ("security_type", .text record.securityType),
     ("board", .text (board record.exchange record.code)),
     ("baostock_code", .text (baostockCode p record.exchange record.code)),
     ("akshare_code", .text record.code),
     ("qlib_symbol", .text (qlibSymbol p record.exchange record.code qlibSymbols)),
     ("ipo_date", dateCell (record.ipoDate.or record.listDate)),
     ("delist_date", dateCell (record.akshareDelistDate.or record.baostockDelistDate)),
     ("listing_status", .text (listingStatus p record).2),
     ("is_active", ((listingStatus p record).1.map .bool).getD .null),
     ("source_priority", .text (sourcePriority record.sources)),
     ("latest_source_date", dateCell (maxDate record.spotDate record.delistSnapshotDate)),
     ("updated_at", .stamp updatedAt)]

/-- The frame that is written: sorted by exchange and code, or without columns
when there is no record. -/
def masterFrame (inputs : MasterInputs) (updatedAt : Int) : Frame :=
  match (masterRecords p inputs).map fun record =>
      finalizeRecord p record updatedAt inputs.qlibSymbols with
  | [] => ⟨[], fun _ => .object, []⟩
  | rows =>
    { columns := fieldNames cnSecurityMasterSchema
      dtype := fun column =>
        if column = "updated_at" then .datetime
        else if column = "is_active" ∧ (∀ r ∈ rows, r "is_active" ≠ .null) then .bool
        else .object
      rows := stableSort (sortKey ["exchange", "code"]) rows }

end Merging

/-! Reading the sources -/

section Reading

variable (p : Pandas) (reads : Reads) (st : Store)

/-- `read_dataset(dataset_id, {partition_column: value})`. -/
def readPartition (definition : DatasetDefinition) (value : String) : Except StoreError Frame := do
  let value ← partitionValue p definition (partitionOf definition value)
  readDataset p (reads.io definition.id value) st definition value

def readLatestDataset (definition : DatasetDefinition) : Except StoreError Frame :=
  match definition.partitionColumn with
  | none => readPartition p reads st definition ""
  | some _ =>
    match (reads.partitions definition.id).getLast? with
    | none => .ok (emptyDatasetFrame definition)
    | some latest => readPartition p reads st definition latest

def localQlibSymbols : Except StoreError (List String) := do
  let membership ← readLatestDataset p reads st qlibCnInstrumentMembershipDataset
  if membership.rows ≠ [] ∧ "qlib_symbol" ∈ membership.columns then
    .ok ((membership.rows.filterMap fun r =>
      if r "qlib_symbol" = .null then none
      else some (p.lower (strip (p.str (r "qlib_symbol"))))).filter
        fun symbol => (parseQlibSymbol p (.text symbol)).isSome)
  else
    .ok (((reads.partitions qlibCnStockFeaturesDayDataset.id).filter
      fun symbol => (parseQlibSymbol p (.text symbol)).isSome).map fun symbol => p.lower (strip symbol))

def masterInputs : Except StoreError MasterInputs := do
  let qlibSymbols ← localQlibSymbols p reads st
  let spot ← readLatestDataset p reads st akshareSpotQuoteEastmoneyDataset
  let spot ← if spot.rows = [] then readLatestDataset p reads st akshareSpotQuoteSinaDataset
    else .ok spot
  let delistSh ← readLatestDataset p reads st akshareDelistShDataset
  let delistSz ← readLatestDataset p reads st akshareDelistSzDataset
  let baostockBasic ← readPartition p reads st baostockCnStockBasicDataset ""
  .ok ⟨qlibSymbols, spot, delistSh, delistSz, baostockBasic⟩

end Reading

/-- The result of the build: rows written, and the active and the delisted ones. -/
structure MasterSummary where
  rows : ℕ
  active : ℕ
  delisted : ℕ
  deriving DecidableEq, Repr

def buildSecurityMaster (p : Pandas) (h : Hashing) (env : WriteEnv) (reads : Reads)
    (updatedAt : Int) (st : Store) : Except StoreError MasterSummary × Store :=
  match masterInputs p reads st with
  | .error e => (.error e, st)
  | .ok inputs =>
    match writeDataset p h env "cn_security_master" (masterFrame p inputs updatedAt) none
      (some .replace) false st with
    | (.error e, st') => (.error e, st')
    | (.ok result, st') =>
      match readPartition p reads st' cnSecurityMasterDataset "" with
      | .error e => (.error e, st')
      | .ok loaded =>
        (.ok ⟨result.rowCount, loaded.rows.countP fun r => r "is_active" = .bool true,
          loaded.rows.countP fun r => r "listing_status" = .text "delisted"⟩, st')

end QuantDataCenter.Derived
