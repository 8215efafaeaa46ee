import QuantDataCenter.Derived.BuildCalls

/-!
Whose bars a build of the daily bars stores. The master that is built from named
securities gives every source partition one owner, and every stored bar is its
owner's, as long as no code with an AkShare partition is named under two exchanges.
-/

set_option autoImplicit false
set_option relaxedAutoImplicit false

namespace QuantDataCenter.Derived

open QuantDataCenter.Lib QuantDataCenter.Lib.Checked QuantDataCenter.Tabular QuantDataCenter.Storage

/-- Every stored bar was read from a partition that no other security reads. -/
def OwnBars (p : Pandas) (reads : Reads) (updatedAt : Int) (st st' : Store) : Prop :=
  ∀ value rows, st'.files cnStockDailyBarDataset.id value = some rows → ∀ r ∈ rows,
    ∃ security ∈ storedMaster st, cleanString p (security "security_id") = value ∧
      ∃ field, StoredBar p reads st security updatedAt field r ∧
        ∀ other ∈ storedMaster st,
          cleanString p (other field.2) = cleanString p (security field.2) → other = security

/-- With one owner for each partition, every stored bar is its owner's. -/
private theorem ownBars_of_oneOwner {p : Pandas} {h : Hashing} {b : BuildEnv} {st st' : Store}
    (howner : OneOwner p st)
    (hmaster : ∀ master st1, readOrBuildMaster p h b st = (.ok master, st1) →
      (master = storedMaster st ∧ st1 = st) ∨ master = [])
    (hids : ((storedMaster st).map fun security => cleanString p (security "security_id")).Nodup)
    (hbuild : buildCnStockDailyBar p h b st = (.ok (), st')) :
    OwnBars p b.reads b.updatedAt st st' := by
  intro value rows hfile r hr
  rcases hread : readOrBuildMaster p h b st with ⟨res, st1⟩
  cases res with
  | error e =>
    unfold buildCnStockDailyBar at hbuild
    rw [hread] at hbuild
    cases hbuild
  | ok master =>
    rcases hmaster master st1 hread with ⟨rfl, rfl⟩ | rfl
    · obtain ⟨security, hsecurity, hid, field, hbar⟩ := stored_bars hread hids hbuild hfile hr
      refine ⟨security, hsecurity, hid, field, hbar, fun other hother hcode => ?_⟩
      obtain ⟨df, bar, -, hfrom, -⟩ := hbar
      obtain ⟨hfield, hpartition⟩ := hfrom.file
      exact (howner security hsecurity other hother field hfield hfrom.2.1 hcode.symm hpartition).symm
    · obtain ⟨security, hsecurity, -⟩ := stored_bars hread List.nodup_nil hbuild hfile hr
      cases hsecurity

/-- Source partitions have one owner each, and the bars one reader each, as long as
no code that AkShare has a partition of is named under two exchanges. -/
theorem own_source_partitions_iff {p : Pandas} {h : Hashing} {env : WriteEnv} {reads : Reads}
    {updatedAt : Int} {st st' : Store} {summary : MasterSummary} {inputs : MasterInputs}
    (hinputs : masterInputs p reads st = .ok inputs)
    (hbuild : buildSecurityMaster p h env reads updatedAt st = (.ok summary, st')) :
    (OneOwner p st' ∧ ∀ (b : BuildEnv) (st'' : Store),
      (∀ dataset ≠ cnSecurityMasterDataset.id,
        b.reads.partitions dataset = reads.partitions dataset) →
      buildCnStockDailyBar p h b st' = (.ok (), st'') →
        OwnBars p b.reads b.updatedAt st' st'') ↔ NoSharedCode p inputs st := by
  obtain ⟨rows, hfile, hwell, hfiles, f, hperm, hstands⟩ := stored_master hinputs hbuild
  have hstored : storedMaster st' = rows := by rw [storedMaster, hfile, Option.getD_some]
  have hrows : MasterRows p inputs (storedMaster st') := ⟨f, hstored ▸ hperm, hstands⟩
  have hsources : ∀ dataset ∈ akshareSourceDatasets, dataset ≠ cnSecurityMasterDataset.id := by
    decide
  have hshared : NoSharedCode p inputs st' ↔ NoSharedCode p inputs st := by
    have hsame : ∀ code, (∃ dataset ∈ akshareSourceDatasets, (st'.files dataset code).isSome = true) ↔
        ∃ dataset ∈ akshareSourceDatasets, (st.files dataset code).isSome = true := by
      intro code
      constructor <;> rintro ⟨dataset, hdataset, hsome⟩ <;> refine ⟨dataset, hdataset, ?_⟩
      · rwa [← hfiles dataset (hsources dataset hdataset)]
      · rwa [hfiles dataset (hsources dataset hdataset)]
    simp only [NoSharedCode, hsame]
  rw [← hshared, ← oneOwner_iff hrows]
  refine ⟨And.left, fun howner => ⟨howner, fun b st'' hpartitions hbars => ?_⟩⟩
  refine ownBars_of_oneOwner howner (fun master st1 hmaster => ?_) hrows.ids_nodup hbars
  rw [hstored]
  exact readOrBuildMaster_stored hinputs ⟨hpartitions, hfiles⟩ (hstored ▸ hrows) hfile hwell hmaster

/-! Two securities with bars of AkShare, one of which BaoStock has as well -/

def twoSecurities : List ((String × String) × List Row) :=
  [(("baostock_cn_stock_basic", ""),
      [rowOf [("code", .text "sh.600000"), ("name", .text "浦发银行"), ("listing_status", .text "1")],
       rowOf [("code", .text "sz.000001"), ("name", .text "平安银行"), ("listing_status", .text "1")]]),
    (("baostock_cn_stock_daily_bar_qfq", "sh.600000"),
      [rowOf [("date", .date 19724), ("code", .text "sh.600000"), ("close", .real 8)]]),
    (("akshare_cn_stock_daily_bar_qfq", "600000"),
      [rowOf [("date", .date 19725), ("code", .text "600000"), ("close", .real 9),
        ("adjustment", .text "qfq")]]),
    (("akshare_cn_stock_daily_bar_qfq", "000001"),
      [rowOf [("date", .date 19724), ("code", .text "000001"), ("close", .real 7),
        ("adjustment", .text "qfq")]])]

def twoSecuritiesStore : Store :=
  { Store.empty with files := fun dataset value => Dict.get (dataset, value) twoSecurities }

def twoReads : Reads :=
  ⟨fun _ => ["600000", "000001", "sh.600000"], fun _ _ => (WriteEnv.plain true).io 0⟩

def twoBuild : BuildEnv := { (buildEnv 0).toBuildEnv with reads := twoReads }

/-- The store with the master of the two securities. -/
def twoMaster : Store :=
  (buildSecurityMaster printing hexDigits (.plain true) twoReads 0 twoSecuritiesStore).2

def twoBars : Store := (buildCnStockDailyBar printing hexDigits twoBuild twoMaster).2

theorem own_source_partitions_two :
    (∀ id ∈ ["SH.600000", "SZ.000001"],
      (twoBars.files cnStockDailyBarDataset.id id).isSome = true) ∧
    OneOwner printing twoMaster ∧ OwnBars printing twoReads 0 twoMaster twoBars := by
  have hstored : ∀ id ∈ ["SH.600000", "SZ.000001"],
      (twoBars.files cnStockDailyBarDataset.id id).isSome = true := by decide +kernel
  have hmaster : (buildSecurityMaster printing hexDigits (.plain true) twoReads 0
      twoSecuritiesStore).1.toOption.isSome = true := by decide +kernel
  have hbars : (buildCnStockDailyBar printing hexDigits twoBuild twoMaster).1.toOption = some () := by
    decide +kernel
  have hnamed : (masterInputs printing twoReads twoSecuritiesStore).toOption.map
      (namedSecurities printing) = some [("SH", "600000"), ("SZ", "000001")] := by decide +kernel
  obtain ⟨inputs, hinputs, hsecurities⟩ := Option.map_eq_some_iff.mp hnamed
  obtain ⟨summary, hsummary⟩ := Option.isSome_iff_exists.mp hmaster
  have hapart : NoSharedCode printing inputs twoSecuritiesStore := by
    rw [NoSharedCode, hsecurities]
    intro key hkey key' hkey' hcode
    have hcodes : ∀ key ∈ [("SH", "600000"), ("SZ", "000001")],
        ∀ key' ∈ [("SH", "600000"), ("SZ", "000001")], key.2 = key'.2 → key = key' := by decide
    exact fun _ => hcodes key hkey key' hkey' hcode
  obtain ⟨howner, hown⟩ := (own_source_partitions_iff (eq_ok_of_toOption hinputs)
    (Prod.ext (eq_ok_of_toOption hsummary) rfl)).mpr hapart
  exact ⟨hstored, howner,
    hown twoBuild twoBars (fun _ _ => rfl) (Prod.ext (eq_ok_of_toOption hbars) rfl)⟩

end QuantDataCenter.Derived
