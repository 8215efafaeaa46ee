import QuantDataCenter.Derived.ValuationRows
import QuantDataCenter.Derived.Publication

/-!
The builds of the two canonical datasets over the securities of the master: all of them through one
staged directory, or the requested ones partition by partition.
-/

set_option autoImplicit false
set_option relaxedAutoImplicit false

namespace QuantDataCenter.Derived

open QuantDataCenter.Lib.Checked QuantDataCenter.Tabular QuantDataCenter.Storage
open QuantDataCenter.Derived.Commit

/-- A canonical dataset: the fields of the master that name its sources, the rows of the master a
full build looks at, and the frame of a security. -/
structure CanonicalDataset where
  definition : DatasetDefinition
  fields : List SourceField
  candidates : Pandas → (String → List String) → List Row → List Row
  materialize : Pandas → Reads → Store → Row → Int → Except StoreError Frame

/-- `cn_stock_daily_bar`; the partitions of its sources are listed once for a build. -/
def dailyBarDataset : CanonicalDataset where
  definition := cnStockDailyBarDataset
  fields := dailySourceFields
  candidates := filterMasterToDailySourceCandidates
  materialize p reads st security updatedAt :=
    materializeSecurityDailyBar p reads st reads.partitions security updatedAt

/-- `cn_stock_valuation`. -/
def valuationDataset : CanonicalDataset where
  definition := cnStockValuationDataset
  fields := [akshareValuationField, baostockPercentileField]
  candidates _ _ master := master
  materialize := materializeSecurityValuation

/-- What a build of single partitions meets: each has its own commit. -/
structure PartitionBuildEnv extends BuildEnv where
  partitionOutcomes : ℕ → Outcomes Bool

section Builds

variable (p : Pandas) (h : Hashing)

def securityIdOfRow (security : Row) : String := cleanString p (security "security_id")

theorem strip_securityIdOfRow (security : Row) :
    strip (securityIdOfRow p security) = securityIdOfRow p security := strip_cleanString p _

/-- The signature over the sources of a security and the hash of its master row. -/
def signSecurity (b : BuildEnv) (t : CanonicalDataset) (security : Row) (st : Store) :
    Except StoreError (String × String) × Store :=
  match sourcePartitionPairsForSecurity p st security t.fields with
  | .error e => (.error e, st)
  | .ok pairs =>
    match currentSourceSignatureForSecurity p h b.signing security pairs st with
    | (.error e, st') => (.error e.toStoreError, st')
    | (.ok signed, st') => (.ok signed, st')

/-- The loop of a full build over the master. -/
def stageMaster (b : BuildEnv) (t : CanonicalDataset) : ℕ → List Row → Store → Store →
    Except StoreError (List StagedPartition) × Store × Store
  | _, [], area, st => (.ok [], area, st)
  | k, security :: master, area, st =>
    let securityId := securityIdOfRow p security
    if securityId = "" then stageMaster b t k master area st
    else match t.materialize p b.reads st security b.updatedAt with
    | .error e => (.error e, area, st)
    | .ok df =>
      if df.rows = [] then stageMaster b t k master area st
      else match signSecurity p h b t security st with
      | (.error e, st') => (.error e, area, st')
      | (.ok (signature, masterHash), st') =>
        match writeDataset p h (b.stagingEnvs k) t.definition.id df (securityPartition securityId)
          (some .replace) false area with
        | (.error e, area') => (.error e, area', st')
        | (.ok _, area') =>
          match stageMaster b t (k + 1) master area' st' with
          | (.error e, area'', st'') => (.error e, area'', st'')
          | (.ok staged, area'', st'') =>
            (.ok (⟨securityId, df, signature, masterHash⟩ :: staged), area'', st'')

/-- `build_cn_stock_daily_bar` and `build_cn_stock_valuation` without security ids. -/
def buildAll (b : BuildEnv) (t : CanonicalDataset) (st : Store) : Except StoreError Unit × Store :=
  match readOrBuildMaster p h b st with
  | (.error e, st') => (.error e, st')
  | (.ok master, st') =>
    match stageMaster p h b t 0 (t.candidates p b.reads.partitions master) stagingStore st' with
    | (.error e, _, st'') => (.error e, st'')
    | (.ok staged, area, st'') => commitStaged p h b t.definition staged area st''

/-- What a partition build hands over for one security. -/
def publicationOf (b : PartitionBuildEnv) (t : CanonicalDataset) (k : ℕ) (security : Row)
    (df : Frame) (signed : String × String) : PartitionPublication where
  dataset := t.definition.id
  partition := ⟨securityIdOfRow p security, df, signed.1, signed.2⟩
  clean := strip_securityIdOfRow p security
  stagingEnv := b.stagingEnvs k
  ledgerEnv := b.ledgerEnvs k
  outcomes := b.partitionOutcomes k

/-- One turn of the loop of `_build_cn_stock_daily_bar_partitions`; a security without rows loses
its partition. -/
def buildPartition (b : PartitionBuildEnv) (t : CanonicalDataset) (k : ℕ) (security : Row)
    (st : Store) : Except StoreError Unit × Store :=
  if securityIdOfRow p security = "" then (.ok (), st)
  else match t.materialize p b.reads st security b.updatedAt with
  | .error e => (.error e, st)
  | .ok df =>
    if df.rows = [] then publishPartition p h (publicationOf p b t k security df ("", "")) st
    else match signSecurity p h b.toBuildEnv t security st with
    | (.error e, st') => (.error e, st')
    | (.ok signed, st') => publishPartition p h (publicationOf p b t k security df signed) st'

def buildEach (b : PartitionBuildEnv) (t : CanonicalDataset) :
    ℕ → List Row → Store → Except StoreError Unit × Store
  | _, [], st => (.ok (), st)
  | k, security :: master, st =>
    match buildPartition p h b t k security st with
    | (.error e, st') => (.error e, st')
    | (.ok (), st') => buildEach b t (k + 1) master st'

/-- `master["security_id"].astype("string").isin(requested)`. -/
def requestedRows (securityIds : List String) (master : List Row) : List Row :=
  master.filter fun security =>
    security "security_id" ≠ .null ∧ p.str (security "security_id") ∈ securityIds

/-- `_build_cn_stock_daily_bar_partitions` and `_build_cn_stock_valuation_partitions`. -/
def buildPartitions (b : PartitionBuildEnv) (t : CanonicalDataset) (securityIds : List String)
    (st : Store) : Except StoreError Unit × Store :=
  if securityIds = [] then (.ok (), st)
  else match readOrBuildMaster p h b.toBuildEnv st with
  | (.error e, st') => (.error e, st')
  | (.ok master, st') => buildEach p h b t 0 (requestedRows p securityIds master) st'

/-- `build_cn_stock_valuation` without security ids. -/
def buildCnStockValuation (b : BuildEnv) (st : Store) : Except StoreError Unit × Store :=
  buildAll p h b valuationDataset st

/-- `_build_cn_stock_daily_bar_partitions`. -/
def buildCnStockDailyBarPartitions (b : PartitionBuildEnv) (securityIds : List String)
    (st : Store) : Except StoreError Unit × Store :=
  buildPartitions p h b dailyBarDataset securityIds st

/-- `_build_cn_stock_valuation_partitions`. -/
def buildCnStockValuationPartitions (b : PartitionBuildEnv) (securityIds : List String)
    (st : Store) : Except StoreError Unit × Store :=
  buildPartitions p h b valuationDataset securityIds st

variable {p h}

private theorem stageSecurities_eq_stageMaster (b : BuildEnv) (k : ℕ) (master : List Row)
    (area st : Store) :
    stageSecurities p h b b.reads.partitions k master area st =
      stageMaster p h b dailyBarDataset k master area st := by
  induction master generalizing k area st with
  | nil => rfl
  | cons security master ih =>
    unfold stageSecurities stageMaster signedPartition securityIdOfRow signSecurity dailyBarDataset
    simp only
    by_cases hid : cleanString p (security "security_id") = ""
    · simp only [if_pos hid]
      exact ih k area st
    · simp only [if_neg hid]
      cases materializeSecurityDailyBar p b.reads st b.reads.partitions security b.updatedAt with
      | error e => rfl
      | ok df =>
        simp only
        by_cases hrows : df.rows = []
        · simp only [if_pos hrows]
          exact ih k area st
        · simp only [if_neg hrows]
          cases sourcePartitionPairsForSecurity p st security dailySourceFields with
          | error e => rfl
          | ok pairs =>
            simp only
            rcases currentSourceSignatureForSecurity p h b.signing security pairs st with ⟨res, st'⟩
            cases res with
            | error e => rfl
            | ok signed =>
              simp only
              have hid' : cnStockDailyBarDataset.id = "cn_stock_daily_bar" := rfl
              rw [hid']
              rcases writeDataset p h (b.stagingEnvs k) "cn_stock_daily_bar" df
                (securityPartition (cleanString p (security "security_id"))) (some .replace) false
                area with ⟨written, area'⟩
              cases written with
              | error e => rfl
              | ok result =>
                simp only
                rw [ih (k + 1) area' st']
                rfl

theorem buildCnStockDailyBar_eq (b : BuildEnv) (st : Store) :
    buildCnStockDailyBar p h b st = buildAll p h b dailyBarDataset st := by
  unfold buildCnStockDailyBar buildAll
  simp only [stageSecurities_eq_stageMaster]
  rfl

end Builds

end QuantDataCenter.Derived
