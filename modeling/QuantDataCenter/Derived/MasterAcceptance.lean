import QuantDataCenter.Derived.SourceOwnership
import QuantDataCenter.Storage.StoreInvariant
import QuantDataCenter.Storage.WriteAcceptance

/-!
Which inputs the build of the security master accepts. The parsers take every digit of Unicode for
a digit of a code, the validator of the master only decimal ones; the datasets of Baostock and Qlib
do not restrict their codes.
-/

set_option autoImplicit false
set_option relaxedAutoImplicit false

namespace QuantDataCenter.Derived

open QuantDataCenter.Lib.Checked QuantDataCenter.Lib.Keyed QuantDataCenter.Tabular
open QuantDataCenter.Quality QuantDataCenter.Storage

/-- A timestamp prints as something. -/
def PrintsStamps (p : Pandas) : Prop := ∀ ns, strip (p.str (.stamp ns)) ≠ ""

/-- The securities that the datasets without restricted codes name. -/
def unrestrictedSecurities (p : Pandas) (inputs : MasterInputs) : List SecurityKey :=
  namedBy (fun r => parseBaostockCode p (r "code")) inputs.baostockBasic.rows ++
    namedBy (fun symbol => parseQlibSymbol p (.text symbol)) inputs.qlibSymbols

def DecimalCode (p : Pandas) (key : SecurityKey) : Prop := p.sixDigits key.2.toList = true

/-- The build returns, and the stored master has one row for each record, accepted by the
validator. -/
def BuildsMaster (p : Pandas) (h : Hashing) (env : WriteEnv) (reads : Reads) (updatedAt : Int)
    (st : Store) (inputs : MasterInputs) : Prop :=
  ∃ summary st' rows, buildSecurityMaster p h env reads updatedAt st = (.ok summary, st') ∧
    st'.files cnSecurityMasterDataset.id "" = some rows ∧
    validateCnSecurityMaster p (fileFrame p cnSecurityMasterSchema rows) = .ok () ∧
    (rows.map fun r => r "security_id").Nodup ∧
    (rows.map fun r => r "security_id").Perm
      ((masterRecords p inputs).map fun record => .text record.securityId)

/-! Records that are written -/

def storedStamp (ns : Int) : Int := ns / nsPerMs * nsPerMs

section Rows

variable {p : Pandas} {record : Record} {updatedAt : Int} {symbols : List String}

private theorem finalizeRecord_accepts {field : Field} (hfield : field ∈ cnSecurityMasterSchema)
    (hstamp : field.name = "updated_at" → updatedAt % nsPerMs = 0) :
    field.type.accepts (finalizeRecord p record updatedAt symbols field.name) = true := by
  have hdate : ∀ day, FieldType.date32.accepts (dateCell day) = true := by
    intro day
    cases day <;> rfl
  have hactive : FieldType.bool.accepts (((listingStatus p record).1.map .bool).getD .null) = true := by
    cases (listingStatus p record).1 <;> rfl
  simp only [cnSecurityMasterSchema, List.mem_cons, List.not_mem_nil, or_false] at hfield
  rcases hfield with rfl | rfl | rfl | rfl | rfl | rfl | rfl | rfl | rfl | rfl | rfl | rfl | rfl |
    rfl | rfl | rfl
  all_goals first
    | rfl
    | exact hdate _
    | exact hactive
    | exact beq_iff_eq.mpr (hstamp rfl)

private theorem rowOf_eq_null {entries : List (String × Cell)} {name : String}
    (hname : name ∉ entries.map Prod.fst) : rowOf entries name = .null := by
  have hnone : entries.find? (fun e => e.1 == name) = none := by
    rw [List.find?_eq_none]
    intro e he heq
    exact hname (beq_iff_eq.mp heq ▸ List.mem_map_of_mem he)
  unfold rowOf
  rw [hnone]
  rfl

private theorem finalizeRecord_outside {name : String}
    (hname : name ∉ fieldNames cnSecurityMasterSchema) :
    finalizeRecord p record updatedAt symbols name = .null := rowOf_eq_null hname

theorem finalizeRecord_of_ne {name : String} (hname : name ≠ "updated_at") (updatedAt' : Int) :
    finalizeRecord p record updatedAt symbols name = finalizeRecord p record updatedAt' symbols name := by
  unfold finalizeRecord rowOf
  simp only [List.find?_cons, List.find?_nil]
  repeat' split
  all_goals first
    | rfl
    | exact absurd (beq_iff_eq.mp (by assumption)).symm hname

private theorem masterFrame_columns {inputs : MasterInputs}
    (hrecords : masterRecords p inputs ≠ []) :
    (masterFrame p inputs updatedAt).columns = fieldNames cnSecurityMasterSchema := by
  have hrows : (masterRecords p inputs).map (fun record =>
      finalizeRecord p record updatedAt inputs.qlibSymbols) ≠ [] := by
    simpa using hrecords
  unfold masterFrame
  split
  case h_1 hnil => exact absurd hnil hrows
  case h_2 => rfl

theorem coerceCell_stamp (dtype : Dtype) (ns : Int) :
    coerceCell p dtype .timestamp (.stamp ns) = .ok (.stamp (storedStamp ns)) := by
  cases dtype <;> rfl

private theorem cleanCell_record {inputs : MasterInputs} (hrecords : masterRecords p inputs ≠ [])
    {field : Field} (hfield : field ∈ cnSecurityMasterSchema) :
    cleanCell p (masterFrame p inputs updatedAt) field (finalizeRecord p record updatedAt symbols) =
      .ok (finalizeRecord p record (storedStamp updatedAt) symbols field.name) := by
  have hsource : sourceColumns (masterFrame p inputs updatedAt).columns field.name = [field.name] := by
    rw [masterFrame_columns hrecords]
    exact sourceColumns_of_mem (List.mem_map_of_mem hfield)
  simp only [cleanCell, hsource]
  by_cases hname : field.name = "updated_at"
  · have htype : ∀ f ∈ cnSecurityMasterSchema, f.name = "updated_at" → f.type = .timestamp := by
      decide
    rw [htype field hfield hname, hname]
    exact coerceCell_stamp _ _
  · rw [finalizeRecord_of_ne hname (storedStamp updatedAt)]
    exact coerceCell_of_accepts p _ (finalizeRecord_accepts hfield fun heq => absurd heq hname)

private theorem cleanRow_record {inputs : MasterInputs} (hrecords : masterRecords p inputs ≠ []) :
    cleanRow p (masterFrame p inputs updatedAt) cnSecurityMasterSchema
        (finalizeRecord p record updatedAt symbols) =
      finalizeRecord p record (storedStamp updatedAt) symbols := by
  funext name
  by_cases hname : name ∈ fieldNames cnSecurityMasterSchema
  · obtain ⟨field, hfield, rfl⟩ := List.mem_map.mp hname
    have hfind : cnSecurityMasterSchema.find? (fun f => f.name == field.name) = some field :=
      find_field wellFormed_master.names_nodup hfield
    simp only [cleanRow, hfind, cleanCell_record hrecords hfield]
    rfl
  · simp only [cleanRow, find_field_none hname]
    exact (finalizeRecord_outside hname).symm

private theorem mem_masterFrame {inputs : MasterInputs} {r : Row}
    (hr : r ∈ (masterFrame p inputs updatedAt).rows) : ∃ record ∈ masterRecords p inputs,
      finalizeRecord p record updatedAt inputs.qlibSymbols = r :=
  List.mem_map.mp ((masterFrame_rows_perm p inputs updatedAt).mem_iff.mp hr)

private theorem cleanFieldError_master (inputs : MasterInputs) {field : Field}
    (hfield : field ∈ cnSecurityMasterSchema) :
    cleanFieldError p (masterFrame p inputs updatedAt) field = none := by
  have hcells : ∀ r ∈ (masterFrame p inputs updatedAt).rows,
      errorOf (cleanCell p (masterFrame p inputs updatedAt) field r) = none := by
    intro r hr
    obtain ⟨record, hrecord, rfl⟩ := mem_masterFrame hr
    rw [cleanCell_record (List.ne_nil_of_mem hrecord) hfield]
    rfl
  unfold cleanFieldError
  split
  case h_1 _ _ _ hsource =>
    by_cases hrecords : masterRecords p inputs = []
    · have hnil : (masterFrame p inputs updatedAt).columns = [] := by
        unfold masterFrame
        rw [hrecords]
        rfl
      rw [hnil] at hsource
      cases hsource
    · have hone : sourceColumns (fieldNames cnSecurityMasterSchema) field.name = [field.name] :=
        sourceColumns_of_mem (List.mem_map_of_mem hfield)
      rw [masterFrame_columns hrecords, hone] at hsource
      cases hsource
  case h_2 => exact List.findSome?_eq_none_iff.mpr hcells

theorem coercedFrame_master (inputs : MasterInputs) : ∃ coerced,
    coercedFrame p cnSecurityMasterDataset (masterFrame p inputs updatedAt) = .ok coerced ∧
      coerced.columns = fieldNames cnSecurityMasterSchema ∧
      coerced.rows.Perm ((masterRecords p inputs).map fun record =>
        finalizeRecord p record (storedStamp updatedAt) inputs.qlibSymbols) := by
  have hcheck : checkAll (cleanFieldError p (masterFrame p inputs updatedAt))
      cnSecurityMasterSchema = .ok () :=
    checkAll_eq_ok.mpr fun field hfield => cleanFieldError_master inputs hfield
  let cleaned : Frame := ⟨fieldNames cnSecurityMasterSchema,
    cleanDtype (masterFrame p inputs updatedAt) cnSecurityMasterSchema,
    (masterFrame p inputs updatedAt).rows.map
      (cleanRow p (masterFrame p inputs updatedAt) cnSecurityMasterSchema)⟩
  have hclean : cleanDataframeForSchema p (masterFrame p inputs updatedAt) cnSecurityMasterSchema =
      .ok cleaned := by
    have hno : "adjustment" ∉ fieldNames cnSecurityMasterSchema := by decide
    unfold cleanDataframeForSchema
    rw [hcheck]
    simp only [Bind.bind, Except.bind]
    rw [if_neg fun hadjustment => hno hadjustment.1]
  refine ⟨cleaned, bind_eq_ok.mpr ⟨cleaned, hclean, ?_⟩, rfl, ?_⟩
  · split
    · rfl
    · rfl
  · have hperm := (masterFrame_rows_perm p inputs updatedAt).map
      (cleanRow p (masterFrame p inputs updatedAt) cnSecurityMasterSchema)
    refine hperm.trans (List.Perm.of_eq ?_)
    rw [List.map_map]
    refine List.map_congr_left fun record hrecord => ?_
    exact cleanRow_record (List.ne_nil_of_mem hrecord)

end Rows

/-! The validator of the master -/

section Validator

variable {p : Pandas} {record : Record} {updatedAt : Int} {symbols : List String}

theorem strippedText_text (s : String) : strippedText p (.text s) = some (strip s) := rfl

private theorem canonicalSecurityId_iff {key : SecurityKey} (h : key.Plain) :
    p.canonicalSecurityId (securityIdOf key.1 key.2) = true ↔ DecimalCode p key := by
  have hexchange := h.exchange
  have hlist : (securityIdOf key.1 key.2).toList = key.1.toList ++ '.' :: key.2.toList := by
    simp [securityIdOf]
  simp only [canonicalExchanges, List.mem_cons, List.not_mem_nil, or_false] at hexchange
  unfold Unicode.canonicalSecurityId DecimalCode
  rw [hlist]
  rcases hexchange with heq | heq | heq <;> rw [heq]
  · exact Iff.rfl
  · exact Iff.rfl
  · exact Iff.rfl

private theorem strip_exchange {exchange : String} (h : exchange ∈ canonicalExchanges) :
    strip exchange = exchange := by
  revert exchange
  decide

theorem plain_record (hplain : record.key.Plain) : record.exchange ∈ canonicalExchanges ∧
    strip record.code = record.code ∧ record.code ≠ "" ∧
    strip record.securityId = record.securityId := by
  exact ⟨hplain.exchange, hplain.stripped, hplain.code_ne_empty, @strip_securityIdOf record.key hplain⟩

theorem record_cells (record : Record) :
    finalizeRecord p record updatedAt symbols "security_id" = .text record.securityId ∧
      finalizeRecord p record updatedAt symbols "code" = .text record.code ∧
      finalizeRecord p record updatedAt symbols "exchange" = .text record.exchange ∧
      finalizeRecord p record updatedAt symbols "akshare_code" = .text record.code ∧
      finalizeRecord p record updatedAt symbols "baostock_code" =
        .text (baostockCode p record.exchange record.code) ∧
      finalizeRecord p record updatedAt symbols "qlib_symbol" =
        .text (qlibSymbol p record.exchange record.code symbols) ∧
      finalizeRecord p record updatedAt symbols "listing_status" = .text (listingStatus p record).2 ∧
      finalizeRecord p record updatedAt symbols "is_active" =
        ((listingStatus p record).1.map Cell.bool).getD .null ∧
      finalizeRecord p record updatedAt symbols "updated_at" = .stamp updatedAt :=
  ⟨rfl, rfl, rfl, rfl, rfl, rfl, rfl, rfl, rfl⟩

private theorem record_texts (hplain : record.key.Plain) :
    strippedText p (finalizeRecord p record updatedAt symbols "security_id") =
        some record.securityId ∧
      strippedText p (finalizeRecord p record updatedAt symbols "code") = some record.code ∧
      strippedText p (finalizeRecord p record updatedAt symbols "exchange") = some record.exchange := by
  obtain ⟨hid, hcode, hexchange, -⟩ := @record_cells p updatedAt symbols record
  obtain ⟨hmarket, hstripped, -, hstrip⟩ := plain_record hplain
  rw [hid, hcode, hexchange, strippedText_text, strippedText_text, strippedText_text, hstrip,
    hstripped, strip_exchange hmarket]
  exact ⟨rfl, rfl, rfl⟩

theorem not_isBlank {c : Cell} {s : String} (htext : strippedText p c = some s) (hs : s ≠ "") :
    isBlank p c = false := by
  unfold isBlank
  rw [htext]
  exact beq_eq_false_iff_ne.mpr hs

theorem isBlank_empty : isBlank p (.text "") = true := by
  show (strip "" == "") = true
  decide

private theorem record_filled (hstamps : PrintsStamps p) (hplain : record.key.Plain) :
    ∀ column ∈ ["security_id", "code", "exchange", "updated_at"],
      isBlank p (finalizeRecord p record updatedAt symbols column) = false := by
  obtain ⟨hid, hcode, hexchange⟩ := @record_texts p record updatedAt symbols hplain
  obtain ⟨-, -, -, -, -, -, -, -, hstamp⟩ := @record_cells p updatedAt symbols record
  have hcode_ne : record.code ≠ "" := hplain.code_ne_empty
  have hexchange_ne : ∀ exchange ∈ canonicalExchanges, exchange ≠ "" := by decide
  have hid_ne : record.securityId ≠ "" := by
    intro hempty
    have hlist := congrArg String.toList hempty
    simp [Record.securityId, securityIdOf] at hlist
  intro column hcolumn
  simp only [List.mem_cons, List.not_mem_nil, or_false] at hcolumn
  rcases hcolumn with rfl | rfl | rfl | rfl
  · exact not_isBlank hid hid_ne
  · exact not_isBlank hcode hcode_ne
  · exact not_isBlank hexchange (hexchange_ne _ hplain.exchange)
  · rw [hstamp]
    exact @not_isBlank p (.stamp updatedAt) _ rfl (hstamps updatedAt)

private theorem record_codes (hplain : record.key.Plain) :
    codeMatches p (fun _ code => some code) "akshare_code"
        (finalizeRecord p record updatedAt symbols) ∧
      codeMatches p
        (fun exchange code => if exchange = "BJ" then none else some (p.lower exchange ++ "." ++ code))
        "baostock_code" (finalizeRecord p record updatedAt symbols) ∧
      codeMatches p (fun exchange code => some (p.lower exchange ++ code)) "qlib_symbol"
        (finalizeRecord p record updatedAt symbols) := by
  obtain ⟨-, hcode, hexchange⟩ := @record_texts p record updatedAt symbols hplain
  obtain ⟨-, -, -, hakshare, hbaostock, hqlib, -⟩ := @record_cells p updatedAt symbols record
  unfold codeMatches
  simp only [hcode, hexchange, hakshare, hbaostock, hqlib, Option.bind_some, strippedText_text]
  obtain ⟨hmarket, hstripped, hne, -⟩ := plain_record hplain
  refine ⟨Or.inr (congrArg some hstripped), ?_, ?_⟩
  · have hstrip : strip (baostockCode p record.exchange record.code) =
        baostockCode p record.exchange record.code := @strip_baostockCode p record.key hplain
    by_cases hlisted : record.exchange ∈ ["SH", "SZ"]
    · have hnot : record.exchange ≠ "BJ" := by
        intro heq
        rw [heq] at hlisted
        revert hlisted
        decide
      refine Or.inr ?_
      rw [if_neg hnot, hstrip, baostockCode, if_pos hlisted]
    · refine Or.inl ?_
      rw [baostockCode, if_neg hlisted]
      exact isBlank_empty
  · have hlower : ∀ exchange ∈ canonicalExchanges, (p.lower exchange).toList.head?.map isSpace = some false := by
      intro exchange h
      simp only [canonicalExchanges, List.mem_cons, List.not_mem_nil, or_false] at h
      rcases h with rfl | rfl | rfl
      · rw [p.lower_ascii (by decide)]
        decide
      · rw [p.lower_ascii (by decide)]
        decide
      · rw [p.lower_ascii (by decide)]
        decide
    have hstrip : strip (p.lower record.exchange ++ record.code) = p.lower record.exchange ++ record.code :=
      strip_append (hlower _ hmarket) hstripped hne
    unfold qlibSymbol
    simp only
    split
    · exact Or.inr (congrArg some hstrip)
    · split
      · exact Or.inr (congrArg some hstrip)
      · exact Or.inl isBlank_empty

private theorem record_active
    (h : finalizeRecord p record updatedAt symbols "is_active" = .bool true) :
    (strippedText p (finalizeRecord p record updatedAt symbols "listing_status")).map p.lower =
      some "active" := by
  obtain ⟨-, -, -, -, -, -, htext, hcell, -⟩ := @record_cells p updatedAt symbols record
  rw [hcell] at h
  have hstatus : (listingStatus p record).1 = some true := by
    cases hactive : (listingStatus p record).1 with
    | none =>
      rw [hactive] at h
      cases h
    | some b =>
      rw [hactive] at h
      exact congrArg some (Cell.bool.inj h)
  have hactive : (listingStatus p record).2 = "active" := by
    unfold listingStatus statusFromBaostock at hstatus ⊢
    simp only at hstatus ⊢
    repeat' split at hstatus
    all_goals first
      | cases hstatus; done
      | simp_all
  rw [htext, strippedText_text, Option.map_some, hactive, show strip "active" = "active" by decide, p.lower_ascii (by decide)]
  decide

private theorem canonical_columns_iff {records : List Record} {df : Frame}
    (hplain : ∀ record ∈ records, record.key.Plain)
    (hrows : df.rows.Perm (records.map fun record => finalizeRecord p record updatedAt symbols)) :
    validateCanonicalSecurityIdColumns p df = .ok () ↔
      ∀ record ∈ records, DecimalCode p record.key := by
  unfold validateCanonicalSecurityIdColumns
  constructor
  · intro hvalid record hrecord
    have hr := hrows.mem_iff.mpr (List.mem_map_of_mem hrecord)
    rw [if_neg (List.ne_nil_of_mem hr)] at hvalid
    obtain ⟨_, hids, -⟩ := bind_eq_ok.mp hvalid
    obtain ⟨s, hs, hcanonical⟩ := ite_eq_ok.mp hids _ hr
    obtain ⟨hid, -⟩ := @record_texts p record updatedAt symbols (hplain record hrecord)
    rw [hid] at hs
    obtain rfl := Option.some.inj hs
    exact (canonicalSecurityId_iff (hplain record hrecord)).mp hcanonical
  · intro hdecimal
    have hall : ∀ r ∈ df.rows, ∃ record ∈ records, record.key.Plain ∧ DecimalCode p record.key ∧
        finalizeRecord p record updatedAt symbols = r := by
      intro r hr
      obtain ⟨record, hrecord, heq⟩ := List.mem_map.mp (hrows.mem_iff.mp hr)
      exact ⟨record, hrecord, hplain record hrecord, hdecimal record hrecord, heq⟩
    split
    case isTrue => rfl
    case isFalse =>
      refine bind_eq_ok.mpr ⟨(), ite_eq_ok.mpr fun r hr => ?_, bind_eq_ok.mpr ⟨(),
        ite_eq_ok.mpr fun r hr => ?_, bind_eq_ok.mpr ⟨(), ite_eq_ok.mpr fun r hr => ?_,
        ite_eq_ok.mpr fun r hr => ?_⟩⟩⟩
      all_goals
        obtain ⟨record, -, hkey, hcode, rfl⟩ := hall r hr
        obtain ⟨hid, hcodetext, hexchange⟩ := @record_texts p record updatedAt symbols hkey
      · exact ⟨_, hid, (canonicalSecurityId_iff hkey).mpr hcode⟩
      · unfold isSixDigitCode
        rw [hcodetext]
        exact hcode
      · exact ⟨_, hexchange, hkey.exchange⟩
      · rw [hid, hcodetext, hexchange]
        rfl

/-- The validator accepts the records exactly if their codes are decimal. -/
private theorem validate_records_iff {records : List Record} {df : Frame} (hstamps : PrintsStamps p)
    (hstamp : updatedAt % nsPerMs = 0) (hplain : ∀ record ∈ records, record.key.Plain)
    (hnodup : (records.map Record.securityId).Nodup)
    (hcolumns : df.columns = fieldNames cnSecurityMasterSchema)
    (hrows : df.rows.Perm (records.map fun record => finalizeRecord p record updatedAt symbols)) :
    validateCnSecurityMaster p df = .ok () ↔ ∀ record ∈ records, DecimalCode p record.key := by
  have hall : ∀ r ∈ df.rows, ∃ record ∈ records, finalizeRecord p record updatedAt symbols = r :=
    fun r hr => List.mem_map.mp (hrows.mem_iff.mp hr)
  have hunique : (df.rows.map (rowKey ["security_id"])).Nodup := by
    refine (hrows.map _).nodup_iff.mpr ?_
    rw [List.map_map]
    have hkeys : ∀ record ∈ records, (rowKey ["security_id"] ∘ fun record =>
        finalizeRecord p record updatedAt symbols) record = [Cell.text record.securityId] := by
      intro record _
      simp only [Function.comp_apply, rowKey, List.map_cons, List.map_nil,
        (@record_cells p updatedAt symbols record).1]
    rw [List.map_congr_left hkeys]
    have hinjective : Function.Injective fun id : String => [Cell.text id] := by
      intro a b heq
      exact Cell.text.inj (List.cons.inj heq).1
    have hids := hnodup.map hinjective
    rwa [List.map_map] at hids
  constructor
  · intro hvalid
    obtain ⟨_, -, hvalid⟩ := bind_eq_ok.mp hvalid
    obtain ⟨_, -, hvalid⟩ := bind_eq_ok.mp hvalid
    obtain ⟨_, -, hvalid⟩ := bind_eq_ok.mp hvalid
    obtain ⟨_, hcanonical, -⟩ := bind_eq_ok.mp hvalid
    exact (canonical_columns_iff hplain hrows).mp hcanonical
  · intro hdecimal
    have hschema : validateSchemaMatches cnSecurityMasterSchema p df = .ok () := by
      refine validateSchemaMatches_eq_ok.mpr ⟨hcolumns, fun field hfield r hr => ?_⟩
      obtain ⟨record, -, rfl⟩ := hall r hr
      exact finalizeRecord_accepts hfield fun _ => hstamp
    have hfilled : validateNonEmptyColumns ["security_id", "code", "exchange", "updated_at"] p df =
        .ok () := by
      unfold validateNonEmptyColumns
      split
      case isTrue => rfl
      case isFalse =>
        refine ite_eq_ok.mpr fun column hcolumn r hr => ?_
        obtain ⟨record, hrecord, rfl⟩ := hall r hr
        exact record_filled hstamps (hplain record hrecord) column hcolumn
    refine bind_eq_ok.mpr ⟨(), hschema, bind_eq_ok.mpr ⟨(), ite_eq_ok.mpr hunique,
      bind_eq_ok.mpr ⟨(), hfilled, bind_eq_ok.mpr ⟨(),
        (canonical_columns_iff hplain hrows).mpr hdecimal, ?_⟩⟩⟩⟩
    split
    case isTrue => rfl
    case isFalse =>
      refine bind_eq_ok.mpr ⟨(), ite_eq_ok.mpr fun r hr => ?_, bind_eq_ok.mpr ⟨(),
        ite_eq_ok.mpr fun r hr => ?_, bind_eq_ok.mpr ⟨(), ite_eq_ok.mpr fun r hr => ?_,
        ite_eq_ok.mpr fun r hr => ?_⟩⟩⟩
      all_goals
        obtain ⟨record, hrecord, rfl⟩ := hall r hr
        obtain ⟨hakshare, hbaostock, hqlib⟩ :=
          @record_codes p record updatedAt symbols (hplain record hrecord)
      · exact hakshare
      · exact hbaostock
      · exact hqlib
      · exact record_active

end Validator

/-! The build -/

section Build

variable {p : Pandas} {h : Hashing} {env : WriteEnv} {reads : Reads} {updatedAt : Int} {st : Store}
  {inputs : MasterInputs}

private theorem masterRecords_plain {record : Record} (hrecord : record ∈ masterRecords p inputs) :
    record.key.Plain :=
  namedSecurities_plain ((merged_masterRecords p inputs).named_of_mem record hrecord)

private theorem readLatest_codes {d : DatasetDefinition} (hd : d ∈ datasetCatalog)
    (hformat : d.codeFormat = .sixDigit) (hst : WellStored p st) {df : Frame}
    (hread : readLatestDataset p reads st d = .ok df) :
    ∀ r ∈ df.rows, isSixDigitCode p (r "code") = true := by
  have hpartition : ∀ {value : String} {df : Frame}, readPartition p reads st d value = .ok df →
      ∀ r ∈ df.rows, isSixDigitCode p (r "code") = true := by
    intro value df hread
    obtain ⟨v, -, hread⟩ := bind_eq_ok.mp hread
    exact readDataset_codes hd hformat (hst d hd v) hread
  unfold readLatestDataset at hread
  split at hread
  · exact hpartition hread
  · split at hread
    · obtain rfl := Except.ok.inj hread
      intro r hr
      cases hr
    · exact hpartition hread

private theorem decimal_of_sixDigit {r : Row} {code : String}
    (hcode : sixDigit p (r "code") = some code)
    (hvalid : isSixDigitCode p (r "code") = true) : p.sixDigits code.toList = true := by
  unfold sixDigit at hcode
  simp only at hcode
  split at hcode
  case isFalse => cases hcode
  case isTrue =>
    obtain rfl := Option.some.inj hcode
    unfold isSixDigitCode strippedText at hvalid
    unfold cleanString
    cases hcell : r "code" with
    | null =>
      rw [hcell] at hvalid
      cases hvalid
    | _ =>
      rw [hcell] at hvalid
      exact hvalid

private theorem masterInputs_codes (hst : WellStored p st)
    (hinputs : masterInputs p reads st = .ok inputs) :
    (∀ r ∈ inputs.spot.rows, isSixDigitCode p (r "code") = true) ∧
      (∀ r ∈ inputs.delistSh.rows, isSixDigitCode p (r "code") = true) ∧
      ∀ r ∈ inputs.delistSz.rows, isSixDigitCode p (r "code") = true := by
  have hrest : ∀ {symbols : List String} {spot : Frame},
      (∀ r ∈ spot.rows, isSixDigitCode p (r "code") = true) → (do
        let delistSh ← readLatestDataset p reads st akshareDelistShDataset
        let delistSz ← readLatestDataset p reads st akshareDelistSzDataset
        let baostockBasic ← readPartition p reads st baostockCnStockBasicDataset ""
        .ok ⟨symbols, spot, delistSh, delistSz, baostockBasic⟩) = Except.ok inputs →
      (∀ r ∈ inputs.spot.rows, isSixDigitCode p (r "code") = true) ∧
        (∀ r ∈ inputs.delistSh.rows, isSixDigitCode p (r "code") = true) ∧
        ∀ r ∈ inputs.delistSz.rows, isSixDigitCode p (r "code") = true := by
    intro symbols spot hspot hinputs
    obtain ⟨delistSh, hdelistSh, hinputs⟩ := bind_eq_ok.mp hinputs
    obtain ⟨delistSz, hdelistSz, hinputs⟩ := bind_eq_ok.mp hinputs
    obtain ⟨basic, -, hinputs⟩ := bind_eq_ok.mp hinputs
    obtain rfl := Except.ok.inj hinputs
    exact ⟨hspot, readLatest_codes (by simp [datasetCatalog]) rfl hst hdelistSh,
      readLatest_codes (by simp [datasetCatalog]) rfl hst hdelistSz⟩
  obtain ⟨symbols, -, hinputs⟩ := bind_eq_ok.mp hinputs
  obtain ⟨eastmoney, heastmoney, hinputs⟩ := bind_eq_ok.mp hinputs
  simp only at hinputs
  split at hinputs
  case isTrue =>
    obtain ⟨spot, hspot, hinputs⟩ := bind_eq_ok.mp hinputs
    exact hrest (readLatest_codes (by simp [datasetCatalog]) rfl hst hspot) hinputs
  case isFalse =>
    exact hrest (readLatest_codes (by simp [datasetCatalog]) rfl hst heastmoney) hinputs

/-- Quotes and delist lists have decimal codes, so it is the other datasets that count. -/
private theorem decimal_records_iff (hst : WellStored p st)
    (hinputs : masterInputs p reads st = .ok inputs) :
    (∀ record ∈ masterRecords p inputs, DecimalCode p record.key) ↔
      ∀ key ∈ unrestrictedSecurities p inputs, DecimalCode p key := by
  constructor
  · intro hrecords key hkey
    have hnamed : key ∈ namedSecurities p inputs := by
      simp only [unrestrictedSecurities, namedSecurities, List.mem_append] at hkey ⊢
      rcases hkey with hkey | hkey
      · exact Or.inl (Or.inr hkey)
      · exact Or.inr hkey
    obtain ⟨record, hrecord, rfl⟩ := exists_record hnamed
    exact hrecords record hrecord
  · intro hkeys record hrecord
    have hnamed := (merged_masterRecords p inputs).named_of_mem record hrecord
    obtain ⟨hspot, hdelistSh, hdelistSz⟩ := masterInputs_codes hst hinputs
    have hdelist : ∀ {df : Frame} {exchange : String} {key : SecurityKey},
        (∀ r ∈ df.rows, isSixDigitCode p (r "code") = true) →
        key ∈ namedBy (delistSecurity p exchange) df.rows → DecimalCode p key := by
      intro df exchange key hcodes hkey
      obtain ⟨r, hr, hkey⟩ := List.mem_filterMap.mp hkey
      obtain ⟨code, hcode, rfl⟩ := Option.map_eq_some_iff.mp hkey
      exact decimal_of_sixDigit hcode (hcodes r hr)
    simp only [namedSecurities, List.mem_append] at hnamed
    rcases hnamed with (((hnamed | hnamed) | hnamed) | hnamed) | hnamed
    · obtain ⟨r, hr, hkey⟩ := List.mem_filterMap.mp hnamed
      obtain ⟨code, hcode, hkey⟩ := Option.bind_eq_some_iff.mp hkey
      obtain ⟨exchange, -, hkey⟩ := Option.map_eq_some_iff.mp hkey
      rw [← hkey]
      exact decimal_of_sixDigit hcode (hspot r hr)
    · exact hdelist hdelistSh hnamed
    · exact hdelist hdelistSz hnamed
    · exact hkeys _ (List.mem_append_left _ hnamed)
    · exact hkeys _ (List.mem_append_right _ hnamed)

private theorem prepare_master_iff (hstamps : PrintsStamps p) :
    (∃ fresh, prepareDatasetFrame p env cnSecurityMasterDataset (masterFrame p inputs updatedAt) none
      true = .ok fresh) ↔ ∀ record ∈ masterRecords p inputs, DecimalCode p record.key := by
  obtain ⟨coerced, hcoerced, hcolumns, hrows⟩ := @coercedFrame_master p updatedAt inputs
  have hprepared : prepareUnvalidated p env cnSecurityMasterDataset (masterFrame p inputs updatedAt)
      none = .ok { coerced with
        rows := sortValues env cnSecurityMasterDataset.sortColumns coerced.rows } :=
    (prepareUnvalidated_eq_ok wellFormed_master).mpr ⟨coerced, hcoerced, fun _ => rfl, rfl⟩
  have hvalid := @validate_records_iff p (storedStamp updatedAt) inputs.qlibSymbols
    (masterRecords p inputs) { coerced with
      rows := sortValues env cnSecurityMasterDataset.sortColumns coerced.rows } hstamps
    (Int.mul_emod_left _ _) (fun record hrecord => masterRecords_plain hrecord)
    (merged_masterRecords p inputs).nodup hcolumns
    ((sortValues_perm env cnSecurityMasterDataset.sortColumns coerced.rows).trans hrows)
  constructor
  · rintro ⟨fresh, hfresh⟩
    obtain ⟨df, hdf, hfresh⟩ := bind_eq_ok.mp hfresh
    obtain rfl := Except.ok.inj (hprepared.symm.trans hdf)
    obtain ⟨_, hchecked, -⟩ := bind_eq_ok.mp hfresh
    exact hvalid.mp hchecked
  · intro hdecimal
    exact ⟨_, bind_eq_ok.mpr ⟨_, hprepared, bind_eq_ok.mpr ⟨(), hvalid.mpr hdecimal, rfl⟩⟩⟩

private theorem writeMaster_succeeds (henv : Succeeds env) {fresh : Frame}
    (hfresh : prepareDatasetFrame p env cnSecurityMasterDataset (masterFrame p inputs updatedAt) none
      true = .ok fresh) : ∃ result st', writeDataset p h env "cn_security_master"
      (masterFrame p inputs updatedAt) none (some .replace) false st = (.ok result, st') := by
  have hd : datasetDefinition "cn_security_master" = .ok cnSecurityMasterDataset := rfl
  have hvalue : partitionValue p cnSecurityMasterDataset none = .ok "" := rfl
  have hframe : replaceFrame p env cnSecurityMasterDataset (masterFrame p inputs updatedAt) none ""
      false st = .ok fresh := by
    unfold replaceFrame
    rw [hfresh]
    simp only [Bind.bind, Except.bind, Bool.false_eq_true, false_and, if_false]
  obtain ⟨st', hout⟩ := @writePreparedDataset_succeeds p h cnSecurityMasterDataset (env.io 0)
    (henv 0) fresh "" st
  refine ⟨⟨[(cnSecurityMasterDataset.id, "")], fresh.rows.length, 1, 0⟩, st', ?_⟩
  simp only [writeDataset, hd, Option.getD_some, Bool.false_eq_true, false_and, if_false,
    writeDatasetReplace, hvalue, hframe, hout]

/-- The master is built, one row for each security, exactly if every code of Baostock and Qlib that
is taken for one has decimal digits only. -/
theorem builds_master_iff (hstamps : PrintsStamps p) (hst : WellStored p st) (henv : Succeeds env)
    (hreadable : (reads.io cnSecurityMasterDataset.id "").readable = true)
    (hinputs : masterInputs p reads st = .ok inputs) :
    BuildsMaster p h env reads updatedAt st inputs ↔
      ∀ key ∈ unrestrictedSecurities p inputs, DecimalCode p key := by
  have hd : datasetDefinition "cn_security_master" = .ok cnSecurityMasterDataset := rfl
  rw [← decimal_records_iff hst hinputs,
    ← @prepare_master_iff p env updatedAt inputs hstamps]
  constructor
  · rintro ⟨summary, st', rows, hbuild, -⟩
    unfold buildSecurityMaster at hbuild
    rw [hinputs] at hbuild
    simp only at hbuild
    split at hbuild
    case h_1 => cases hbuild
    case h_2 result st1 hwrite =>
      obtain ⟨value, frame, -, hprepare, -⟩ := replace_written hd hwrite
      exact ⟨frame, hprepare⟩
  · rintro ⟨fresh, hfresh⟩
    obtain ⟨result, st', hwrite⟩ := @writeMaster_succeeds p h env updatedAt st inputs henv fresh hfresh
    obtain ⟨value, frame, hvalue, hprepare, same⟩ := replace_written hd hwrite
    obtain rfl : value = "" := (Except.ok.inj hvalue).symm
    obtain ⟨-, -, -, -, -, hwell⟩ := prepared_stored wellFormed_master hvalue hprepare
    have hfile : st'.files cnSecurityMasterDataset.id "" = some frame.rows := by
      rw [← same.files, Store.put_files]
      exact Store.setFile_files_self ..
    have hstored : ∀ rows, st'.files cnSecurityMasterDataset.id "" = some rows →
        StoredWell p cnSecurityMasterDataset "" rows := by
      intro rows hrows
      rw [hfile] at hrows
      rw [← Option.some.inj hrows]
      exact hwell
    obtain ⟨loaded, hloaded, -⟩ := readDataset_succeeds wellFormed_master hreadable hstored
    have hpartition : readPartition p reads st' cnSecurityMasterDataset "" = .ok loaded :=
      bind_eq_ok.mpr ⟨"", rfl, hloaded⟩
    obtain ⟨summary, hbuild⟩ : ∃ summary,
        buildSecurityMaster p h env reads updatedAt st = (.ok summary, st') := by
      unfold buildSecurityMaster
      simp only [hinputs, hwrite, hpartition]
      exact ⟨_, rfl⟩
    obtain ⟨rows, hrows, hwell, -, f, hperm, hstands⟩ := stored_master hinputs hbuild
    have hids : (rows.map fun r => r "security_id").Perm
        ((masterRecords p inputs).map fun record => .text record.securityId) := by
      refine (hperm.map _).trans (List.Perm.of_eq ?_)
      rw [List.map_map]
      exact List.map_congr_left fun record hrecord => (hstands record hrecord).security_id
    refine ⟨summary, st', rows, hbuild, hrows, ?_, ?_, hids⟩
    · obtain ⟨dtype, hvalid⟩ := hwell.valid
      rw [← hvalid]
      exact validator_dtype (mem_datasetCatalog hd).1 p _ _ _ rows
    · refine hids.nodup_iff.mpr ?_
      have hnodup := (merged_masterRecords p inputs).nodup.map @Cell.text.inj
      rwa [List.map_map] at hnodup

end Build

/-! One Baostock code. The superscript two is a digit and not a decimal one. -/

def printedDate (c : Cell) : String :=
  match c with
  | .stamp _ => "1970-01-01 00:00:00"
  | c => Pandas.plain.repr c

def printing : Pandas :=
  { Pandas.plain with
    digitOther := fun c => c == '²'
    repr := printedDate
    repr_date_injective := Pandas.plain.repr_date_injective
    repr_date_strip := Pandas.plain.repr_date_strip }

def basicStore (code : String) : Store :=
  (writeDataset printing .plain (.plain true) "baostock_cn_stock_basic"
    ⟨fieldNames baostockCnStockBasicSchema, fun _ => .object,
      [rowOf [("code", .text code), ("name", .text "浦发银行"), ("listing_status", .text "1")]]⟩
    none none false .empty).2

def noPartitions : Reads := ⟨fun _ => [], fun _ _ => (WriteEnv.plain true).io 0⟩

private theorem wellStored_basicStore (code : String) : WellStored printing (basicStore code) := by
  unfold basicStore
  rcases hout : writeDataset printing .plain (.plain true) "baostock_cn_stock_basic" _ none none
    false .empty with ⟨result, st⟩
  exact wellStored_of_write (wellStored_empty printing) hout

/-- The basics with a quote of the same security. -/
def basicAndQuoteStore : Store :=
  (writeDataset printing .plain (.plain true) "akshare_cn_stock_spot_quote_eastmoney"
    ⟨["trade_date", "code", "name"], fun _ => .object,
      [rowOf [("trade_date", .date 19724), ("code", .text "600000"), ("name", .text "浦发银行")]]⟩
    (some [("trade_date", .text "2024-01-02")]) none false (basicStore "sh.600000")).2

private theorem wellStored_basicAndQuoteStore : WellStored printing basicAndQuoteStore := by
  unfold basicAndQuoteStore
  rcases hout : writeDataset printing .plain (.plain true) "akshare_cn_stock_spot_quote_eastmoney" _
    (some [("trade_date", .text "2024-01-02")]) none false (basicStore "sh.600000") with ⟨result, st⟩
  exact wellStored_of_write (wellStored_basicStore "sh.600000") hout

/-- The day of the quote, and a Qlib symbol of the same security. -/
def quoteAndSymbolReads : Reads where
  partitions dataset :=
    if dataset = "akshare_cn_stock_spot_quote_eastmoney" then ["2024-01-02"]
    else if dataset = "qlib_cn_stock_features_day" then ["sh600000"]
    else []
  io _ _ := (WriteEnv.plain true).io 0

/-- The code of the basics, of the quote and of the symbol make one security. -/
theorem builds_master_of_three_sources : ∃ inputs,
    masterInputs printing quoteAndSymbolReads basicAndQuoteStore = .ok inputs ∧
      inputs.spot.rows.length = 1 ∧ inputs.qlibSymbols = ["sh600000"] ∧
      (masterRecords printing inputs).map Record.securityId = ["SH.600000"] ∧
      BuildsMaster printing .plain (.plain true) quoteAndSymbolReads 0 basicAndQuoteStore inputs := by
  have hkeys : (masterInputs printing quoteAndSymbolReads basicAndQuoteStore).toOption.map
      (fun inputs => (unrestrictedSecurities printing inputs, inputs.spot.rows.length,
        inputs.qlibSymbols, (masterRecords printing inputs).map Record.securityId)) =
      some ([("SH", "600000"), ("SH", "600000")], 1, ["sh600000"], ["SH.600000"]) := by
    decide +kernel
  obtain ⟨inputs, hread, hkeys⟩ := Option.map_eq_some_iff.mp hkeys
  simp only [Prod.mk.injEq] at hkeys
  obtain ⟨hnamed, hspot, hsymbols, hrecords⟩ := hkeys
  have hstamps : PrintsStamps printing := by
    intro ns
    show strip "1970-01-01 00:00:00" ≠ ""
    decide
  refine ⟨inputs, eq_ok_of_toOption hread, hspot, hsymbols, hrecords, (builds_master_iff hstamps
    wellStored_basicAndQuoteStore (fun _ => rfl) rfl (eq_ok_of_toOption hread)).mpr
    fun key hkey => ?_⟩
  rw [hnamed] at hkey
  obtain rfl : key = ("SH", "600000") := by simpa using hkey
  show printing.sixDigits "600000".toList = true
  decide

/-- One odd code, which the dataset of the basics accepts, blocks the master. -/
theorem superscript_code_blocks_master : WellStored printing (basicStore "sh.60000²") ∧
    ∃ inputs, masterInputs printing noPartitions (basicStore "sh.60000²") = .ok inputs ∧
      inputs.baostockBasic.rows.map (fun r => r "code") = [.text "sh.60000²"] ∧
      ¬BuildsMaster printing .plain (.plain true) noPartitions 0 (basicStore "sh.60000²") inputs := by
  refine ⟨wellStored_basicStore "sh.60000²", ?_⟩
  have hcodes : (masterInputs printing noPartitions (basicStore "sh.60000²")).toOption.map
      (fun inputs => inputs.baostockBasic.rows.map fun r => r "code") =
        some [Cell.text "sh.60000²"] := by decide
  obtain ⟨inputs, hread, hcodes⟩ := Option.map_eq_some_iff.mp hcodes
  refine ⟨inputs, eq_ok_of_toOption hread, hcodes, ?_⟩
  rintro ⟨summary, st', rows, hbuild, -⟩
  have hraises : (buildSecurityMaster printing .plain (.plain true) noPartitions 0
      (basicStore "sh.60000²")).1.toOption = none := by decide +kernel
  rw [hbuild] at hraises
  cases hraises

end QuantDataCenter.Derived
