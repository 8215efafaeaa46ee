import QuantDataCenter.Derived.DailyBarContent
import QuantDataCenter.Derived.MasterRecords

/-!
Which securities a source partition belongs to. The AkShare code of a security is
its bare six digits, so two exchanges with one code share the AkShare partitions.
-/

set_option autoImplicit false
set_option relaxedAutoImplicit false

namespace QuantDataCenter.Derived

open QuantDataCenter.Lib.Checked QuantDataCenter.Lib.Keyed QuantDataCenter.Tabular
open QuantDataCenter.Quality QuantDataCenter.Storage

def akshareValuationDataset : String := "akshare_cn_stock_valuation_eastmoney"

def baostockPercentileDataset : String := "baostock_cn_stock_valuation_percentile"

def akshareSourceDatasets : List String := akshareDailySources.map Prod.fst ++ [akshareValuationDataset]

def baostockSourceDatasets : List String :=
  baostockDailySources.map Prod.fst ++ [baostockPercentileDataset]

/-- The daily bar and valuation sources with the fields that name their partitions. -/
def sourceFields : List SourceField :=
  akshareSourceDatasets.map (fun dataset => (dataset, "akshare_code")) ++
    baostockSourceDatasets.map fun dataset => (dataset, "baostock_code")

def storedMaster (st : Store) : List Row := (st.files cnSecurityMasterDataset.id "").getD []

/-- No source partition belongs to two rows of the master. -/
def OneOwner (p : Pandas) (st : Store) : Prop :=
  ∀ a ∈ storedMaster st, ∀ b ∈ storedMaster st, ∀ field ∈ sourceFields,
    cleanString p (a field.2) ≠ "" → cleanString p (a field.2) = cleanString p (b field.2) →
    (st.files field.1 (cleanString p (a field.2))).isSome = true → a = b

/-- No two exchanges are named with one code that has an AkShare partition. -/
def NoSharedCode (p : Pandas) (inputs : MasterInputs) (st : Store) : Prop :=
  ∀ key ∈ namedSecurities p inputs, ∀ key' ∈ namedSecurities p inputs, key.2 = key'.2 →
    (∃ dataset ∈ akshareSourceDatasets, (st.files dataset key.2).isSome = true) → key = key'

/-! Codes -/

private theorem cleanString_text (p : Pandas) (s : String) :
    cleanString p (.text s) = strip s := rfl

theorem SecurityKey.Plain.code_ne_empty {key : SecurityKey} (h : key.Plain) : key.2 ≠ "" := by
  intro hempty
  have hlength := h.length
  rw [hempty] at hlength
  cases hlength

private theorem lower_market (p : Pandas) : p.lower "SH" = "sh" ∧ p.lower "SZ" = "sz" := by
  rw [p.lower_ascii (by decide +kernel), p.lower_ascii (by decide +kernel)]
  exact ⟨by decide +kernel, by decide +kernel⟩

/-- The Baostock code names its exchange; Beijing has none. -/
private theorem baostockCode_cases (p : Pandas) {key : SecurityKey} (h : key.Plain) :
    (key.1 = "SH" ∧ baostockCode p key.1 key.2 = "sh." ++ key.2) ∨
      (key.1 = "SZ" ∧ baostockCode p key.1 key.2 = "sz." ++ key.2) ∨
      (key.1 = "BJ" ∧ baostockCode p key.1 key.2 = "") := by
  have hexchange := h.exchange
  simp only [canonicalExchanges, List.mem_cons, List.not_mem_nil, or_false] at hexchange
  rcases hexchange with heq | heq | heq
  · refine Or.inl ⟨heq, ?_⟩
    rw [heq, baostockCode, if_pos (by decide), (lower_market p).1]
    rfl
  · refine Or.inr (Or.inl ⟨heq, ?_⟩)
    rw [heq, baostockCode, if_pos (by decide), (lower_market p).2]
    rfl
  · refine Or.inr (Or.inr ⟨heq, ?_⟩)
    rw [heq, baostockCode, if_neg (by decide)]

theorem strip_baostockCode (p : Pandas) {key : SecurityKey} (h : key.Plain) :
    strip (baostockCode p key.1 key.2) = baostockCode p key.1 key.2 := by
  rcases baostockCode_cases p h with ⟨-, hcode⟩ | ⟨-, hcode⟩ | ⟨-, hcode⟩ <;> rw [hcode]
  · exact @strip_append "sh." key.2 (by decide +kernel) h.stripped h.code_ne_empty
  · exact @strip_append "sz." key.2 (by decide +kernel) h.stripped h.code_ne_empty
  · decide

theorem strip_securityIdOf {key : SecurityKey} (h : key.Plain) :
    strip (securityIdOf key.1 key.2) = securityIdOf key.1 key.2 := by
  have hexchange := h.exchange
  simp only [canonicalExchanges, List.mem_cons, List.not_mem_nil, or_false] at hexchange
  unfold securityIdOf
  rcases hexchange with heq | heq | heq <;> rw [heq]
  · exact @strip_append ("SH" ++ ".") key.2 (by decide +kernel) h.stripped h.code_ne_empty
  · exact @strip_append ("SZ" ++ ".") key.2 (by decide +kernel) h.stripped h.code_ne_empty
  · exact @strip_append ("BJ" ++ ".") key.2 (by decide +kernel) h.stripped h.code_ne_empty

private theorem baostockCode_injective {p : Pandas} {key key' : SecurityKey} (h : key.Plain)
    (h' : key'.Plain) (hne : baostockCode p key.1 key.2 ≠ "")
    (hcode : baostockCode p key.1 key.2 = baostockCode p key'.1 key'.2) : key = key' := by
  obtain ⟨exchange, code⟩ := key
  obtain ⟨exchange', code'⟩ := key'
  have hinj : code.toList = code'.toList → code = code' := fun heq => String.toList_inj.mp heq
  rcases baostockCode_cases p h with ⟨heq, hout⟩ | ⟨heq, hout⟩ | ⟨heq, hout⟩ <;>
    rcases baostockCode_cases p h' with ⟨heq', hout'⟩ | ⟨heq', hout'⟩ | ⟨heq', hout'⟩ <;>
    simp only at heq heq' hout hout' <;> rw [hout, hout'] at hcode <;> subst heq heq' <;>
    have hlist := congrArg String.toList hcode <;>
    simp [String.toList_append] at hlist <;> simp_all

/-- The codes of a security under which its sources are looked up. -/
structure Codes (p : Pandas) (key : SecurityKey) (r : Row) : Prop where
  security_id : cleanString p (r "security_id") = securityIdOf key.1 key.2
  akshare_code : cleanString p (r "akshare_code") = key.2
  baostock_code : cleanString p (r "baostock_code") = baostockCode p key.1 key.2

private theorem codes_of_standsFor {p : Pandas} {record : Record} {r : Row}
    (hplain : record.key.Plain)
    (h : StandsFor p record r) : Codes p record.key r where
  security_id := by
    rw [h.security_id, cleanString_text]
    show strip (securityIdOf record.key.1 record.key.2) = securityIdOf record.key.1 record.key.2
    exact strip_securityIdOf hplain
  akshare_code := by
    rw [h.akshare_code, cleanString_text]
    exact hplain.stripped
  baostock_code := by
    rw [h.baostock_code, cleanString_text]
    show strip (baostockCode p record.key.1 record.key.2) = baostockCode p record.key.1 record.key.2
    exact strip_baostockCode p hplain

/-! One owner -/

/-- The rows of a master: one for each record. -/
structure MasterRows (p : Pandas) (inputs : MasterInputs) (rows : List Row) : Prop where
  row : ∃ f : Record → Row, rows.Perm ((masterRecords p inputs).map f) ∧
    ∀ record ∈ masterRecords p inputs, StandsFor p record (f record)

theorem MasterRows.codes {p : Pandas} {inputs : MasterInputs} {rows : List Row}
    (h : MasterRows p inputs rows) {r : Row} (hr : r ∈ rows) :
    ∃ key ∈ namedSecurities p inputs, Codes p key r := by
  obtain ⟨f, hperm, hstands⟩ := h.row
  obtain ⟨record, hrecord, rfl⟩ := List.mem_map.mp (hperm.mem_iff.mp hr)
  have hkey := (merged_masterRecords p inputs).named_of_mem record hrecord
  exact ⟨record.key, hkey, codes_of_standsFor (namedSecurities_plain hkey) (hstands record hrecord)⟩

private theorem MasterRows.exists_row {p : Pandas} {inputs : MasterInputs} {rows : List Row}
    (h : MasterRows p inputs rows) {key : SecurityKey} (hkey : key ∈ namedSecurities p inputs) :
    ∃ r ∈ rows, Codes p key r := by
  obtain ⟨f, hperm, hstands⟩ := h.row
  obtain ⟨record, hrecord, rfl⟩ := exists_record hkey
  exact ⟨f record, hperm.mem_iff.mpr (List.mem_map_of_mem hrecord),
    codes_of_standsFor (namedSecurities_plain hkey) (hstands record hrecord)⟩

private theorem MasterRows.eq_of_codes {p : Pandas} {inputs : MasterInputs} {rows : List Row}
    (h : MasterRows p inputs rows) {a b : Row} (ha : a ∈ rows) (hb : b ∈ rows) {key : SecurityKey}
    (hcodes : Codes p key a) (hcodes' : Codes p key b) : a = b := by
  obtain ⟨f, hperm, hstands⟩ := h.row
  have hmerged := merged_masterRecords p inputs
  obtain ⟨record, hrecord, rfl⟩ := List.mem_map.mp (hperm.mem_iff.mp ha)
  obtain ⟨record', hrecord', rfl⟩ := List.mem_map.mp (hperm.mem_iff.mp hb)
  have hid : ∀ record ∈ masterRecords p inputs,
      cleanString p (f record "security_id") = record.securityId := by
    intro record hrecord
    have hplain := namedSecurities_plain (hmerged.named_of_mem record hrecord)
    exact (codes_of_standsFor hplain (hstands record hrecord)).security_id
  have heq : record.securityId = record'.securityId := by
    rw [← hid record hrecord, ← hid record' hrecord', hcodes.security_id, hcodes'.security_id]
  rw [List.inj_on_of_nodup_map hmerged.nodup hrecord hrecord' heq]

theorem MasterRows.ids_nodup {p : Pandas} {inputs : MasterInputs} {rows : List Row}
    (h : MasterRows p inputs rows) :
    (rows.map fun security => cleanString p (security "security_id")).Nodup := by
  obtain ⟨f, hperm, hstands⟩ := h.row
  have hmerged := merged_masterRecords p inputs
  refine (hperm.map _).nodup_iff.mpr ?_
  have hids : ((masterRecords p inputs).map f).map (fun security =>
      cleanString p (security "security_id")) = (masterRecords p inputs).map Record.securityId := by
    rw [List.map_map]
    refine List.map_congr_left fun record hrecord => ?_
    have hplain := namedSecurities_plain (hmerged.named_of_mem record hrecord)
    exact (codes_of_standsFor hplain (hstands record hrecord)).security_id
  rw [hids]
  exact hmerged.nodup

private theorem mem_sourceFields {field : SourceField} (h : field ∈ sourceFields) :
    (field.1 ∈ akshareSourceDatasets ∧ field.2 = "akshare_code") ∨
      (field.1 ∈ baostockSourceDatasets ∧ field.2 = "baostock_code") := by
  rcases List.mem_append.mp h with h | h
  · obtain ⟨dataset, hdataset, rfl⟩ := List.mem_map.mp h
    exact Or.inl ⟨hdataset, rfl⟩
  · obtain ⟨dataset, hdataset, rfl⟩ := List.mem_map.mp h
    exact Or.inr ⟨hdataset, rfl⟩

/-- A shared code is what makes two rows share a partition. -/
theorem oneOwner_iff {p : Pandas} {inputs : MasterInputs} {st : Store}
    (hrows : MasterRows p inputs (storedMaster st)) :
    OneOwner p st ↔ NoSharedCode p inputs st := by
  constructor
  · intro howner key hkey key' hkey' hcode hpartition
    obtain ⟨dataset, hdataset, hfile⟩ := hpartition
    obtain ⟨a, ha, hcodes⟩ := hrows.exists_row hkey
    obtain ⟨b, hb, hcodes'⟩ := hrows.exists_row hkey'
    have hfield : (dataset, "akshare_code") ∈ sourceFields :=
      List.mem_append_left _ (List.mem_map_of_mem hdataset)
    have heq : a = b := by
      refine howner a ha b hb _ hfield ?_ ?_ ?_
      · rw [hcodes.akshare_code]
        exact (namedSecurities_plain hkey).code_ne_empty
      · rw [hcodes.akshare_code, hcodes'.akshare_code, hcode]
      · rw [hcodes.akshare_code]
        exact hfile
    refine securityIdOf_injective (namedSecurities_plain hkey) (namedSecurities_plain hkey') ?_
    rw [← hcodes.security_id, ← hcodes'.security_id, heq]
  · intro hshared a ha b hb field hfield hne hcode hfile
    obtain ⟨key, hkey, hcodes⟩ := hrows.codes ha
    obtain ⟨key', hkey', hcodes'⟩ := hrows.codes hb
    have hsame : key = key' := by
      rcases mem_sourceFields hfield with ⟨hdataset, hname⟩ | ⟨-, hname⟩
      · rw [hname, hcodes.akshare_code] at hcode hfile
        rw [hcodes'.akshare_code] at hcode
        exact hshared key hkey key' hkey' hcode ⟨field.1, hdataset, hfile⟩
      · rw [hname, hcodes.baostock_code] at hcode hne
        rw [hcodes'.baostock_code] at hcode
        exact baostockCode_injective (namedSecurities_plain hkey) (namedSecurities_plain hkey') hne hcode
    exact hrows.eq_of_codes ha hb hcodes (hsame ▸ hcodes')

/-! What is read twice -/

theorem readPartition_agree {p : Pandas} {reads reads' : Reads} {st st' : Store}
    {d : DatasetDefinition} (hfiles : st.files d.id = st'.files d.id) {value : String}
    {df df' : Frame} (h : readPartition p reads st d value = .ok df)
    (h' : readPartition p reads' st' d value = .ok df') : df = df' := by
  obtain ⟨v, hv, hread⟩ := bind_eq_ok.mp h
  obtain ⟨v', hv', hread'⟩ := bind_eq_ok.mp h'
  rw [hv] at hv'
  obtain rfl := Except.ok.inj hv'
  unfold readDataset at hread hread'
  rw [hfiles] at hread
  cases hfile : st'.files d.id v with
  | none =>
    rw [hfile] at hread hread'
    exact (Except.ok.inj hread).symm.trans (Except.ok.inj hread')
  | some rows =>
    rw [hfile] at hread hread'
    simp only at hread hread'
    split at hread
    case isFalse => cases hread
    case isTrue =>
      split at hread'
      case isFalse => cases hread'
      case isTrue =>
        rw [hread] at hread'
        exact Except.ok.inj hread'

/-- The sources of the master are as they were. -/
structure SameSources (reads reads' : Reads) (st st' : Store) : Prop where
  partitions : ∀ dataset ≠ cnSecurityMasterDataset.id,
    reads'.partitions dataset = reads.partitions dataset
  files : ∀ dataset ≠ cnSecurityMasterDataset.id, st'.files dataset = st.files dataset

private theorem readLatestDataset_agree {p : Pandas} {reads reads' : Reads} {st st' : Store}
    (same : SameSources reads reads' st st') {d : DatasetDefinition}
    (hd : d.id ≠ cnSecurityMasterDataset.id) {df df' : Frame}
    (h : readLatestDataset p reads st d = .ok df)
    (h' : readLatestDataset p reads' st' d = .ok df') : df = df' := by
  unfold readLatestDataset at h h'
  have hfiles : st.files d.id = st'.files d.id := (same.files d.id hd).symm
  rw [same.partitions d.id hd] at h'
  cases hcolumn : d.partitionColumn with
  | none =>
    rw [hcolumn] at h h'
    exact readPartition_agree hfiles h h'
  | some column =>
    rw [hcolumn] at h h'
    cases hlast : (reads.partitions d.id).getLast? with
    | none =>
      simp only [hlast] at h h'
      exact (Except.ok.inj h).symm.trans (Except.ok.inj h')
    | some latest =>
      simp only [hlast] at h h'
      exact readPartition_agree hfiles h h'

private theorem localQlibSymbols_agree {p : Pandas} {reads reads' : Reads} {st st' : Store}
    (same : SameSources reads reads' st st') {symbols symbols' : List String}
    (h : localQlibSymbols p reads st = .ok symbols)
    (h' : localQlibSymbols p reads' st' = .ok symbols') : symbols = symbols' := by
  obtain ⟨df, hdf, hrest⟩ := bind_eq_ok.mp h
  obtain ⟨df', hdf', hrest'⟩ := bind_eq_ok.mp h'
  obtain rfl : df = df' := readLatestDataset_agree same (by decide) hdf hdf'
  rw [same.partitions _ (by decide)] at hrest'
  split at hrest
  case isTrue hcond =>
    rw [if_pos hcond] at hrest'
    exact (Except.ok.inj hrest).symm.trans (Except.ok.inj hrest')
  case isFalse hcond =>
    rw [if_neg hcond] at hrest'
    exact (Except.ok.inj hrest).symm.trans (Except.ok.inj hrest')

/-- The reads behind the inputs of the master. -/
structure InputReads (p : Pandas) (reads : Reads) (st : Store) (inputs : MasterInputs) : Prop where
  qlibSymbols : localQlibSymbols p reads st = .ok inputs.qlibSymbols
  spot : ∃ quotes, readLatestDataset p reads st akshareSpotQuoteEastmoneyDataset = .ok quotes ∧
    if quotes.rows = [] then
      readLatestDataset p reads st akshareSpotQuoteSinaDataset = .ok inputs.spot
    else inputs.spot = quotes
  delistSh : readLatestDataset p reads st akshareDelistShDataset = .ok inputs.delistSh
  delistSz : readLatestDataset p reads st akshareDelistSzDataset = .ok inputs.delistSz
  baostockBasic :
    readPartition p reads st baostockCnStockBasicDataset "" = .ok inputs.baostockBasic

private theorem masterInputs_reads {p : Pandas} {reads : Reads} {st : Store} {inputs : MasterInputs}
    (h : masterInputs p reads st = .ok inputs) : InputReads p reads st inputs := by
  unfold masterInputs at h
  obtain ⟨symbols, hsymbols, h⟩ := bind_eq_ok.mp h
  obtain ⟨quotes, hquotes, h⟩ := bind_eq_ok.mp h
  simp only at h
  split at h
  case isTrue hempty =>
    obtain ⟨spot, hspot, h⟩ := bind_eq_ok.mp h
    obtain ⟨delistSh, hdelistSh, h⟩ := bind_eq_ok.mp h
    obtain ⟨delistSz, hdelistSz, h⟩ := bind_eq_ok.mp h
    obtain ⟨basic, hbasic, h⟩ := bind_eq_ok.mp h
    obtain rfl := Except.ok.inj h
    exact ⟨hsymbols, ⟨quotes, hquotes, by rwa [if_pos hempty]⟩, hdelistSh, hdelistSz, hbasic⟩
  case isFalse hsome =>
    obtain ⟨spot, hspot, h⟩ := bind_eq_ok.mp h
    obtain ⟨delistSh, hdelistSh, h⟩ := bind_eq_ok.mp h
    obtain ⟨delistSz, hdelistSz, h⟩ := bind_eq_ok.mp h
    obtain ⟨basic, hbasic, h⟩ := bind_eq_ok.mp h
    obtain rfl := Except.ok.inj h
    obtain rfl := Except.ok.inj hspot
    exact ⟨hsymbols, ⟨quotes, hquotes, by rw [if_neg hsome]⟩, hdelistSh, hdelistSz, hbasic⟩

theorem masterInputs_agree {p : Pandas} {reads reads' : Reads} {st st' : Store}
    (same : SameSources reads reads' st st') {inputs inputs' : MasterInputs}
    (h : masterInputs p reads st = .ok inputs) (h' : masterInputs p reads' st' = .ok inputs') :
    inputs = inputs' := by
  have hreads := masterInputs_reads h
  have hreads' := masterInputs_reads h'
  have hsymbols := localQlibSymbols_agree same hreads.qlibSymbols hreads'.qlibSymbols
  have hdelistSh := readLatestDataset_agree same (by decide) hreads.delistSh hreads'.delistSh
  have hdelistSz := readLatestDataset_agree same (by decide) hreads.delistSz hreads'.delistSz
  have hbasic := readPartition_agree (same.files _ (by decide)).symm hreads.baostockBasic
    hreads'.baostockBasic
  have hspot : inputs.spot = inputs'.spot := by
    obtain ⟨quotes, hquotes, hrest⟩ := hreads.spot
    obtain ⟨quotes', hquotes', hrest'⟩ := hreads'.spot
    obtain rfl := readLatestDataset_agree same (by decide) hquotes hquotes'
    split at hrest
    case isTrue hempty =>
      rw [if_pos hempty] at hrest'
      exact readLatestDataset_agree same (by decide) hrest hrest'
    case isFalse hsome =>
      rw [if_neg hsome] at hrest'
      rw [hrest, hrest']
  obtain ⟨symbols, spot, delistSh, delistSz, basic⟩ := inputs
  obtain ⟨symbols', spot', delistSh', delistSz', basic'⟩ := inputs'
  simp only at hsymbols hspot hdelistSh hdelistSz hbasic
  rw [hsymbols, hspot, hdelistSh, hdelistSz, hbasic]

/-! The bars -/

theorem partitionValue_code {p : Pandas} {d : DatasetDefinition}
    (hcolumn : d.partitionColumn = some "code") {code v : String} (hstrip : strip code = code)
    (h : partitionValue p d (partitionOf d code) = .ok v) : v = code := by
  simp only [partitionValue, partitionOf, hcolumn, Option.map_some, if_true,
    normalizePartitionValue, true_and, aksharePartitionCode, Pandas.str, hstrip] at h
  split at h <;> split at h <;> cases h
  · rfl
  · rfl

theorem ReadFrom.file {p : Pandas} {reads : Reads} {st : Store} {security : Row} {updatedAt : Int}
    {field : SourceField} {bar : Row} (h : ReadFrom p reads st security updatedAt field bar) :
    field ∈ sourceFields ∧ (st.files field.1 (cleanString p (security field.2))).isSome = true := by
  obtain ⟨hfield, -, d, df, hd, hread, source, hsource, -⟩ := h
  refine ⟨?_, ?_⟩
  · rcases List.mem_append.mp hfield with hfield | hfield
    · obtain ⟨source, hsource, rfl⟩ := List.mem_map.mp hfield
      exact List.mem_append_right _ (List.mem_map_of_mem
        (List.mem_append_left _ (List.mem_map_of_mem hsource)))
    · obtain ⟨source, hsource, rfl⟩ := List.mem_map.mp hfield
      exact List.mem_append_left _ (List.mem_map_of_mem
        (List.mem_append_left _ (List.mem_map_of_mem hsource)))
  · obtain ⟨d', hd', hid, hcolumn⟩ := dailySource_definition (List.mem_map_of_mem hfield)
    rw [hd] at hd'
    obtain rfl := Except.ok.inj hd'
    obtain ⟨v, hv, hrows⟩ := bind_eq_ok.mp hread
    rw [partitionValue_code hcolumn (strip_cleanString p _) hv, readDataset, hid] at hrows
    cases hfile : st.files field.1 (cleanString p (security field.2)) with
    | some rows => rfl
    | none =>
      rw [hfile] at hrows
      obtain rfl := Except.ok.inj hrows
      cases hsource

theorem readPartition_master {p : Pandas} {reads : Reads} {st : Store} {rows : List Row} {df : Frame}
    (hfile : st.files cnSecurityMasterDataset.id "" = some rows)
    (hwell : StoredWell p cnSecurityMasterDataset "" rows)
    (hread : readPartition p reads st cnSecurityMasterDataset "" = .ok df) : df.rows = rows := by
  obtain ⟨v, hv, hdataset⟩ := bind_eq_ok.mp hread
  obtain rfl : "" = v := Except.ok.inj hv
  have hstored : ∀ rows', st.files cnSecurityMasterDataset.id "" = some rows' →
      StoredWell p cnSecurityMasterDataset "" rows' := by
    intro rows' hrows'
    rw [hfile] at hrows'
    exact Option.some.inj hrows' ▸ hwell
  obtain ⟨hcontent, -⟩ := readDataset_rows wellFormed_master hstored hdataset
  rw [hcontent, content, hfile]
  rfl

theorem buildSecurityMaster_inputs {p : Pandas} {h : Hashing} {env : WriteEnv} {reads : Reads}
    {updatedAt : Int} {st st' : Store} {summary : MasterSummary}
    (hbuild : buildSecurityMaster p h env reads updatedAt st = (.ok summary, st')) :
    ∃ inputs, masterInputs p reads st = .ok inputs := by
  unfold buildSecurityMaster at hbuild
  cases hinputs : masterInputs p reads st with
  | error e =>
    rw [hinputs] at hbuild
    cases hbuild
  | ok inputs => exact ⟨inputs, rfl⟩

/-- The bars are built from the stored master, unless it is empty: then it is built
again, and is empty again. -/
theorem readOrBuildMaster_stored {p : Pandas} {h : Hashing} {b : BuildEnv} {reads : Reads}
    {st st' st1 : Store} {inputs : MasterInputs} {master : List Row}
    (hinputs : masterInputs p reads st = .ok inputs) (same : SameSources reads b.reads st st')
    {rows : List Row} (hrows : MasterRows p inputs rows)
    (hfile : st'.files cnSecurityMasterDataset.id "" = some rows)
    (hwell : StoredWell p cnSecurityMasterDataset "" rows)
    (hmaster : readOrBuildMaster p h b st' = (.ok master, st1)) :
    (master = rows ∧ st1 = st') ∨ master = [] := by
  unfold readOrBuildMaster at hmaster
  cases hread : readPartition p b.reads st' cnSecurityMasterDataset "" with
  | error e =>
    rw [hread] at hmaster
    cases hmaster
  | ok df =>
    have hdf : df.rows = rows := readPartition_master hfile hwell hread
    rw [hread] at hmaster
    simp only [hdf, hfile, Option.isNone_some, Bool.false_eq_true, false_or] at hmaster
    split at hmaster
    case isFalse =>
      exact Or.inl ⟨(Except.ok.inj (Prod.mk.inj hmaster).1).symm, (Prod.mk.inj hmaster).2.symm⟩
    case isTrue hempty =>
      right
      rcases hbuild : buildSecurityMaster p h b.masterEnv b.reads b.updatedAt st' with ⟨res, st2⟩
      rw [hbuild] at hmaster
      cases res with
      | error e => cases hmaster
      | ok summary =>
        obtain ⟨inputs', hinputs'⟩ := buildSecurityMaster_inputs hbuild
        obtain rfl := masterInputs_agree same hinputs hinputs'
        obtain ⟨rows', hfile', hwell', -, f, hperm, -⟩ := stored_master hinputs' hbuild
        have hrecords : masterRecords p inputs = [] := by
          obtain ⟨g, hgperm, -⟩ := hrows.row
          rw [hempty] at hgperm
          exact List.map_eq_nil_iff.mp hgperm.nil_eq.symm
        rw [hrecords, List.map_nil] at hperm
        obtain rfl := hperm.eq_nil
        simp only [Prod.mk.injEq] at hmaster
        obtain ⟨hloaded, rfl⟩ := hmaster
        cases hagain : readPartition p b.reads st2 cnSecurityMasterDataset "" with
        | error e =>
          rw [hagain] at hloaded
          cases hloaded
        | ok df' =>
          rw [hagain] at hloaded
          rw [← Except.ok.inj hloaded]
          exact readPartition_master hfile' hwell' hagain

end QuantDataCenter.Derived
