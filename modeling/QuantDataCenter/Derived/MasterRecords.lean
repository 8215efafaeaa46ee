import QuantDataCenter.Derived.SecurityMaster

/-!
The master over what its sources name: one record for each exchange and code that
some source names, and the stored rows are those of the records.
-/

set_option autoImplicit false
set_option relaxedAutoImplicit false

namespace QuantDataCenter.Derived

open QuantDataCenter.Lib.Checked QuantDataCenter.Lib.Keyed QuantDataCenter.Tabular
open QuantDataCenter.Quality QuantDataCenter.Storage

/-- Exchange and code. -/
abbrev SecurityKey := String × String

def Record.key (record : Record) : SecurityKey := (record.exchange, record.code)

def namedBy {α : Type} (identify : α → Option SecurityKey) (items : List α) : List SecurityKey :=
  items.filterMap identify

/-- The securities that the inputs of the master name. -/
def namedSecurities (p : Pandas) (inputs : MasterInputs) : List SecurityKey :=
  namedBy (spotSecurity p) inputs.spot.rows ++ namedBy (delistSecurity p "SH") inputs.delistSh.rows ++
    namedBy (delistSecurity p "SZ") inputs.delistSz.rows ++
    namedBy (fun r => parseBaostockCode p (r "code")) inputs.baostockBasic.rows ++
    namedBy (fun symbol => parseQlibSymbol p (.text symbol)) inputs.qlibSymbols

/-! The merge -/

/-- One record for each security of the list. -/
structure Merged (named : List SecurityKey) (records : List Record) : Prop where
  named_of_mem : ∀ record ∈ records, record.key ∈ named
  present : ∀ key ∈ named, securityIdOf key.1 key.2 ∈ records.map Record.securityId
  nodup : (records.map Record.securityId).Nodup

private theorem merged_nil : Merged [] [] where
  named_of_mem _ h := by cases h
  present _ h := by cases h
  nodup := List.nodup_nil

theorem Merged.mergeSource {α : Type} {named : List SecurityKey} {records : List Record}
    (h : Merged named records) (identify : α → Option SecurityKey) {note : α → Record → Record}
    (hnote : ∀ item record, (note item record).key = record.key) (items : List α) :
    Merged (named ++ namedBy identify items) (mergeSource identify note records items) := by
  induction items generalizing named records with
  | nil =>
    rw [show namedBy identify [] = [] from rfl, List.append_nil]
    exact h
  | cons item items ih =>
    unfold Derived.mergeSource
    rw [List.foldl_cons]
    cases hitem : identify item with
    | none =>
      rw [show namedBy identify (item :: items) = namedBy identify items from
        List.filterMap_cons_none hitem]
      exact ih h
    | some key =>
      have hcons : named ++ namedBy identify (item :: items) =
          (named ++ [key]) ++ namedBy identify items := by
        rw [show namedBy identify (item :: items) = key :: namedBy identify items from
          List.filterMap_cons_some hitem, List.append_assoc]
        rfl
      have hid : ∀ record : Record, (note item record).securityId = record.securityId := by
        intro record
        have hkey := hnote item record
        exact congrArg₂ securityIdOf (congrArg Prod.fst hkey) (congrArg Prod.snd hkey)
      rw [hcons]
      refine ih ⟨?_, ?_, ?_⟩
      · refine forall_updateEntry ?_ (fun record _ hrecord => ?_) fun record hrecord => ?_
        · rw [hnote]
          exact List.mem_append_right _ (List.mem_singleton_self _)
        · rw [hnote]
          exact hrecord
        · exact List.mem_append_left _ (h.named_of_mem record hrecord)
      · intro other hother
        rw [mem_key_updateEntry hid]
        rcases List.mem_append.mp hother with hother | hother
        · exact Or.inl (h.present other hother)
        · obtain rfl := List.mem_singleton.mp hother
          exact Or.inr rfl
      · exact nodup_updateEntry hid h.nodup

theorem mem_sortedSet {symbols : List String} {symbol : String} :
    symbol ∈ sortedSet symbols ↔ symbol ∈ symbols := by
  unfold sortedSet
  rw [(List.mergeSort_perm _ _).mem_iff, List.mem_eraseDups]

theorem Merged.spot {named : List SecurityKey} {records : List Record} (h : Merged named records)
    (p : Pandas) (df : Frame) :
    Merged (named ++ namedBy (spotSecurity p) df.rows) (mergeSpot p records df) := by
  refine h.mergeSource (spotSecurity p) ?_ df.rows
  exact fun _ _ => rfl

theorem Merged.delist {named : List SecurityKey} {records : List Record} (h : Merged named records)
    (p : Pandas) (df : Frame) (defaultExchange : String) :
    Merged (named ++ namedBy (delistSecurity p defaultExchange) df.rows)
      (mergeDelist p records df defaultExchange) := by
  refine h.mergeSource (delistSecurity p defaultExchange) ?_ df.rows
  exact fun _ _ => rfl

theorem Merged.baostock {named : List SecurityKey} {records : List Record}
    (h : Merged named records) (p : Pandas) (df : Frame) :
    Merged (named ++ namedBy (fun r => parseBaostockCode p (r "code")) df.rows)
      (mergeBaostockBasic p records df) := by
  unfold mergeBaostockBasic
  refine h.mergeSource _ ?_ _
  intro r record
  rfl

theorem Merged.qlib {named : List SecurityKey} {records : List Record} (h : Merged named records)
    (p : Pandas) (symbols : List String) :
    Merged (named ++ namedBy (fun symbol => parseQlibSymbol p (.text symbol)) (sortedSet symbols))
      (mergeQlib p records symbols) := by
  unfold mergeQlib
  refine h.mergeSource _ ?_ _
  intro symbol record
  rfl

theorem Merged.congr {named named' : List SecurityKey} {records : List Record}
    (h : Merged named records) (hsame : ∀ key, key ∈ named ↔ key ∈ named') :
    Merged named' records where
  named_of_mem record hrecord := (hsame _).mp (h.named_of_mem record hrecord)
  present key hkey := h.present key ((hsame key).mpr hkey)
  nodup := h.nodup

theorem merged_masterRecords (p : Pandas) (inputs : MasterInputs) :
    Merged (namedSecurities p inputs) (masterRecords p inputs) := by
  have hspot := merged_nil.spot p inputs.spot
  have hdelist := (hspot.delist p inputs.delistSh "SH").delist p inputs.delistSz "SZ"
  have hall := (hdelist.baostock p inputs.baostockBasic).qlib p inputs.qlibSymbols
  refine hall.congr fun key => ?_
  simp only [namedSecurities, namedBy, List.nil_append, List.mem_append, List.mem_filterMap,
    mem_sortedSet]

/-! The keys -/

/-- What every source gives: a known exchange, and a code without blanks around it. -/
structure SecurityKey.Plain (key : SecurityKey) : Prop where
  exchange : key.1 ∈ canonicalExchanges
  stripped : strip key.2 = key.2
  length : key.2.toList.length = 6

private theorem sixDigit_plain {p : Pandas} {c : Cell} {code : String}
    (h : sixDigit p c = some code) :
    strip code = code ∧ code.toList.length = 6 := by
  unfold sixDigit at h
  simp only at h
  split at h
  case isTrue hdigits =>
    obtain rfl := Option.some.inj h
    refine ⟨?_, hdigits.1⟩
    unfold cleanString
    cases c with
    | null => rfl
    | _ => exact strip_strip _
  case isFalse => cases h

private theorem exchangeFromAkshareCode_mem {code exchange : String}
    (h : exchangeFromAkshareCode code = some exchange) : exchange ∈ canonicalExchanges := by
  unfold exchangeFromAkshareCode at h
  split at h
  · exact Option.some.inj h ▸ by decide
  · split at h
    · exact Option.some.inj h ▸ by decide
    · split at h
      · exact Option.some.inj h ▸ by decide
      · cases h

private theorem normalizeExchange_mem {p : Pandas} {c : Cell} {exchange : String}
    (h : normalizeExchange p c = some exchange) : exchange ∈ canonicalExchanges := by
  unfold normalizeExchange at h
  simp only at h
  split at h
  · exact Option.some.inj h ▸ by decide
  · split at h
    · exact Option.some.inj h ▸ by decide
    · split at h
      · exact Option.some.inj h ▸ by decide
      · cases h

private theorem upper_market (p : Pandas) {market : String} (h : market ∈ ["sh", "sz", "bj"]) :
    p.upper market ∈ canonicalExchanges := by
  have hascii : ∀ s ∈ ["sh", "sz", "bj"], (s.toList.all fun c => c.toNat < 128) = true := by
    decide +kernel
  have hupper : ∀ s ∈ ["sh", "sz", "bj"],
      String.ofList (s.toList.map Char.toUpper) ∈ canonicalExchanges := by decide +kernel
  rw [p.upper_ascii (hascii market h)]
  exact hupper market h

private theorem parseBaostockCode_plain {p : Pandas} {c : Cell} {key : SecurityKey}
    (h : parseBaostockCode p c = some key) : key.Plain := by
  unfold parseBaostockCode at h
  split at h
  case h_1 a b rest _ =>
    split at h
    case isTrue hmarket =>
      obtain ⟨code, hcode, rfl⟩ := Option.map_eq_some_iff.mp h
      have hmem : String.ofList [a, b] ∈ ["sh", "sz", "bj"] := by
        have htwo := hmarket.2
        simp only [List.mem_cons, List.not_mem_nil, or_false] at htwo ⊢
        exact htwo.elim Or.inl fun hsz => Or.inr (Or.inl hsz)
      exact ⟨upper_market p hmem, (sixDigit_plain hcode).1, (sixDigit_plain hcode).2⟩
    case isFalse => cases h
  case h_2 => cases h

private theorem parseQlibSymbol_plain {p : Pandas} {c : Cell} {key : SecurityKey}
    (h : parseQlibSymbol p c = some key) : key.Plain := by
  unfold parseQlibSymbol at h
  split at h
  case h_1 a b rest _ =>
    split at h
    case isTrue hmarket =>
      obtain ⟨code, hcode, rfl⟩ := Option.map_eq_some_iff.mp h
      exact ⟨upper_market p hmarket.2, (sixDigit_plain hcode).1, (sixDigit_plain hcode).2⟩
    case isFalse => cases h
  case h_2 => cases h

private theorem spotSecurity_plain {p : Pandas} {r : Row} {key : SecurityKey}
    (h : spotSecurity p r = some key) : key.Plain := by
  obtain ⟨code, hcode, hrest⟩ := Option.bind_eq_some_iff.mp h
  obtain ⟨exchange, hexchange, rfl⟩ := Option.map_eq_some_iff.mp hrest
  exact ⟨exchangeFromAkshareCode_mem hexchange, (sixDigit_plain hcode).1, (sixDigit_plain hcode).2⟩

private theorem delistSecurity_plain {p : Pandas} {defaultExchange : String}
    (hdefault : defaultExchange ∈ canonicalExchanges) {r : Row} {key : SecurityKey}
    (h : delistSecurity p defaultExchange r = some key) : key.Plain := by
  obtain ⟨code, hcode, rfl⟩ := Option.map_eq_some_iff.mp h
  refine ⟨?_, (sixDigit_plain hcode).1, (sixDigit_plain hcode).2⟩
  cases hexchange : normalizeExchange p (r "exchange") with
  | none => exact hdefault
  | some exchange => exact normalizeExchange_mem hexchange

theorem namedSecurities_plain {p : Pandas} {inputs : MasterInputs} {key : SecurityKey}
    (h : key ∈ namedSecurities p inputs) : key.Plain := by
  simp only [namedSecurities, namedBy, List.mem_append, List.mem_filterMap] at h
  rcases h with (((⟨r, -, hr⟩ | ⟨r, -, hr⟩) | ⟨r, -, hr⟩) | ⟨r, -, hr⟩) | ⟨symbol, -, hsymbol⟩
  · exact spotSecurity_plain hr
  · exact delistSecurity_plain (by decide) hr
  · exact delistSecurity_plain (by decide) hr
  · exact parseBaostockCode_plain hr
  · exact parseQlibSymbol_plain hsymbol

theorem securityIdOf_injective {key key' : SecurityKey} (h : key.Plain) (h' : key'.Plain)
    (hid : securityIdOf key.1 key.2 = securityIdOf key'.1 key'.2) : key = key' := by
  obtain ⟨exchange, code⟩ := key
  obtain ⟨exchange', code'⟩ := key'
  have hexchange := h.exchange
  have hexchange' := h'.exchange
  have hlist := congrArg String.toList hid
  simp only [canonicalExchanges, List.mem_cons, List.not_mem_nil, or_false] at hexchange hexchange'
  simp only [securityIdOf, String.toList_append] at hlist
  have hcode : code.toList = code'.toList → code = code' := fun heq => String.toList_inj.mp heq
  rcases hexchange with rfl | rfl | rfl <;> rcases hexchange' with rfl | rfl | rfl <;>
    simp at hlist <;> simp [hcode, hlist]

theorem Merged.eq_of_key {named : List SecurityKey} {records : List Record}
    (h : Merged named records) {record record' : Record} (hrecord : record ∈ records)
    (hrecord' : record' ∈ records) (hkey : record.key = record'.key) : record = record' := by
  refine List.inj_on_of_nodup_map h.nodup hrecord hrecord' ?_
  exact congrArg₂ securityIdOf (congrArg Prod.fst hkey) (congrArg Prod.snd hkey)

theorem exists_record {p : Pandas} {inputs : MasterInputs} {key : SecurityKey}
    (h : key ∈ namedSecurities p inputs) : ∃ record ∈ masterRecords p inputs, record.key = key := by
  have hmerged := merged_masterRecords p inputs
  obtain ⟨record, hrecord, hid⟩ := List.mem_map.mp (hmerged.present key h)
  refine ⟨record, hrecord, securityIdOf_injective ?_ (namedSecurities_plain h) hid⟩
  exact namedSecurities_plain (hmerged.named_of_mem record hrecord)

/-! The stored master -/

/-- The cells of a stored row by which a security's sources are found. -/
structure StandsFor (p : Pandas) (record : Record) (r : Row) : Prop where
  security_id : r "security_id" = .text record.securityId
  akshare_code : r "akshare_code" = .text record.code
  baostock_code : r "baostock_code" = .text (baostockCode p record.exchange record.code)

theorem wellFormed_master : cnSecurityMasterDataset.WellFormed :=
  have hd : datasetDefinition "cn_security_master" = .ok cnSecurityMasterDataset := rfl
  wellFormed_of_mem (mem_datasetCatalog hd).1

theorem masterFrame_rows_perm (p : Pandas) (inputs : MasterInputs) (updatedAt : Int) :
    (masterFrame p inputs updatedAt).rows.Perm ((masterRecords p inputs).map fun record =>
      finalizeRecord p record updatedAt inputs.qlibSymbols) := by
  unfold masterFrame
  generalize (masterRecords p inputs).map (fun record =>
    finalizeRecord p record updatedAt inputs.qlibSymbols) = rows
  cases rows with
  | nil => exact .refl _
  | cons r rows => exact stableSort_perm _ _

private theorem masterFrame_text {p : Pandas} {inputs : MasterInputs} {updatedAt : Int}
    (hrecords : masterRecords p inputs ≠ []) {column : String}
    (hcolumn : column ∈ fieldNames cnSecurityMasterSchema)
    (hdtype : column ≠ "updated_at" ∧ column ≠ "is_active") :
    sourceColumns (masterFrame p inputs updatedAt).columns column = [column] ∧
      (masterFrame p inputs updatedAt).dtype column = .object := by
  unfold masterFrame
  have hrows : (masterRecords p inputs).map (fun record =>
      finalizeRecord p record updatedAt inputs.qlibSymbols) ≠ [] := by
    simpa using hrecords
  revert hrows
  generalize (masterRecords p inputs).map (fun record =>
    finalizeRecord p record updatedAt inputs.qlibSymbols) = rows
  intro hrows
  cases rows with
  | nil => exact absurd rfl hrows
  | cons r rows =>
    refine ⟨sourceColumns_of_mem hcolumn, ?_⟩
    simp only [if_neg hdtype.1, hdtype.2, false_and, if_false]

private theorem coercedRow_text {p : Pandas} {inputs : MasterInputs} {updatedAt : Int}
    (hrecords : masterRecords p inputs ≠ []) {column : String}
    (hfield : (⟨column, .string⟩ : Field) ∈ cnSecurityMasterSchema) (r : Row) :
    coercedRow p cnSecurityMasterDataset (masterFrame p inputs updatedAt) r column = r column := by
  have wf : cnSecurityMasterDataset.WellFormed := wellFormed_master
  have hname : ∀ field ∈ cnSecurityMasterSchema, field.type = .string →
      field.name ≠ "adjustment" ∧ field.name ≠ "updated_at" ∧ field.name ≠ "is_active" := by
    decide
  obtain ⟨hadjustment, hdtype⟩ := hname _ hfield rfl
  obtain ⟨hsource, hobject⟩ := @masterFrame_text p inputs updatedAt hrecords column
    (List.mem_map_of_mem hfield) hdtype
  have hfind : cnSecurityMasterSchema.find? (fun field => field.name == column) =
      some ⟨column, .string⟩ := find_field wf.names_nodup hfield
  rw [coercedRow_of_ne wf hadjustment]
  show cleanRow p (masterFrame p inputs updatedAt) cnSecurityMasterSchema r column = _
  simp only [cleanRow, hfind, cleanCell, hsource, hobject, coerceCell, or_true, if_true]
  rfl

/-- What the build of the master stores: rows that stand for the records, in some order. -/
theorem stored_master {p : Pandas} {h : Hashing} {env : WriteEnv} {reads : Reads} {updatedAt : Int}
    {st st' : Store} {summary : MasterSummary} {inputs : MasterInputs}
    (hinputs : masterInputs p reads st = .ok inputs)
    (hbuild : buildSecurityMaster p h env reads updatedAt st = (.ok summary, st')) :
    ∃ rows, st'.files cnSecurityMasterDataset.id "" = some rows ∧
      StoredWell p cnSecurityMasterDataset "" rows ∧
      (∀ dataset ≠ cnSecurityMasterDataset.id, st'.files dataset = st.files dataset) ∧
      ∃ f : Record → Row, rows.Perm ((masterRecords p inputs).map f) ∧
        ∀ record ∈ masterRecords p inputs, StandsFor p record (f record) := by
  unfold buildSecurityMaster at hbuild
  rw [hinputs] at hbuild
  simp only at hbuild
  rcases hwrite : writeDataset p h env "cn_security_master" (masterFrame p inputs updatedAt) none
    (some .replace) false st with ⟨res, st1⟩
  rw [hwrite] at hbuild
  cases res with
  | error e => cases hbuild
  | ok result =>
    obtain rfl : st1 = st' := by
      simp only at hbuild
      split at hbuild
      · cases hbuild
      · exact congrArg Prod.snd hbuild
    have hd : datasetDefinition "cn_security_master" = .ok cnSecurityMasterDataset := rfl
    have wf : cnSecurityMasterDataset.WellFormed := wellFormed_master
    obtain ⟨value, frame, hvalue, hprepare, same⟩ := replace_written hd hwrite
    obtain rfl : value = "" := (Except.ok.inj hvalue).symm
    obtain ⟨coerced, hcoerced, -, hrows, -, hwell⟩ := prepared_stored wf hvalue hprepare
    have hfiles : st1.files = (st.setFile cnSecurityMasterDataset.id "" frame.rows).files := by
      rw [← same.files, Store.put_files]
    refine ⟨frame.rows, ?_, hwell, fun dataset hne => ?_, fun record =>
      coercedRow p cnSecurityMasterDataset (masterFrame p inputs updatedAt)
        (finalizeRecord p record updatedAt inputs.qlibSymbols), ?_, fun record hrecord => ?_⟩
    · rw [hfiles]
      exact Store.setFile_files_self ..
    · funext v
      rw [hfiles]
      exact Store.setFile_files_of_ne st frame.rows fun heq => hne heq.1
    · have hperm := (masterFrame_rows_perm p inputs updatedAt).map
        (coercedRow p cnSecurityMasterDataset (masterFrame p inputs updatedAt))
      rw [← coercedFrame_rows hcoerced, List.map_map] at hperm
      rw [hrows]
      exact (sortValues_perm _ _ _).trans hperm
    · have hne : masterRecords p inputs ≠ [] := List.ne_nil_of_mem hrecord
      exact ⟨@coercedRow_text p inputs updatedAt hne "security_id" (by decide) _,
        @coercedRow_text p inputs updatedAt hne "akshare_code" (by decide) _,
        @coercedRow_text p inputs updatedAt hne "baostock_code" (by decide) _⟩

end QuantDataCenter.Derived
