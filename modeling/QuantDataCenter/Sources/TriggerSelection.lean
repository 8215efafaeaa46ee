import QuantDataCenter.Sources.DisclosureTriggers
import QuantDataCenter.Storage.StoreInvariant

/-!
Which trigger counts when the candidates of the financial reports are read from both disclosure
datasets. The rows are cut to the window first and merged then, so the trigger that counts may be
another one than the merged trigger of all rows.
-/

set_option autoImplicit false
set_option relaxedAutoImplicit false

namespace QuantDataCenter.Sources

open QuantDataCenter.Lib.Checked QuantDataCenter.Lib.Keyed QuantDataCenter.Lib.Selection
open QuantDataCenter.Tabular QuantDataCenter.Quality QuantDataCenter.Storage

/-! The merged trigger -/

/-- What one row says about when a report of a code is out. -/
structure PeriodTrigger where
  code : String
  reportPeriod : String
  triggerDate : Int
  priority : ℕ
  deriving DecidableEq

namespace PeriodTrigger

def key (trigger : PeriodTrigger) : String ×ₗ String := toLex (trigger.code, trigger.reportPeriod)

/-- A higher priority goes first, then a later date. -/
def rank (trigger : PeriodTrigger) : ℕ ×ₗ Int := toLex (trigger.priority, trigger.triggerDate)

def within (start effective : Int) (trigger : PeriodTrigger) : Bool :=
  start ≤ trigger.triggerDate && trigger.triggerDate ≤ effective

end PeriodTrigger

def CandidateRow.trigger (row : CandidateRow) : PeriodTrigger :=
  ⟨row.code, row.reportPeriod, row.triggerDate, row.triggerPriority⟩

section Definitions

variable (p : Pandas) (cfg : FinancialReportConfig)

def rowTrigger (df : Frame) (r : Row) : Option PeriodTrigger :=
  (disclosureTrigger p df r).map fun trigger =>
    ⟨strip (p.str (r "code")), p.str (r "report_period"), trigger.1 / nsPerDay, trigger.2⟩

/-- The triggers of all rows, in whatever window. -/
def rowTriggers (frames : List Frame) : List PeriodTrigger :=
  frames.flatMap fun df => df.rows.filterMap (rowTrigger p df)

variable (reads : Derived.Reads) (st : Store)

def disclosureFrames : Except StoreError (List Frame) := do
  let frames ← disclosureDatasets.mapM fun source => readAllReportPeriodPartitions p reads st source.1
  .ok frames.flatten

/-- The merged trigger of a code and a period. -/
abbrev Merged (triggers : List PeriodTrigger) (trigger : PeriodTrigger) : Prop :=
  IsBest PeriodTrigger.key PeriodTrigger.rank triggers trigger

/-- There is one candidate for every code and period whose merged trigger lies in the window, with
its date and priority, and there are no others. -/
def FollowsMerged (triggers : List PeriodTrigger) (start effective : Int) : Prop :=
  ∃ rows, localDisclosureCandidates p cfg reads st effective (some start) = .ok rows ∧
    (rows.map CandidateRow.key).Nodup ∧
    ∀ trigger, trigger ∈ rows.map CandidateRow.trigger ↔
      Merged triggers trigger ∧ trigger.within start effective = true

end Definitions

/-! Stored codes -/

section Stored

variable {p : Pandas} {cfg : FinancialReportConfig} {reads : Derived.Reads} {st : Store}

private theorem normalizeAkshareCode_of_sixDigit {c : Cell} (hcode : isSixDigitCode p c = true) :
    normalizeAkshareCode p c = .ok (strip (p.str c)) := by
  have hdigits : c ≠ .null ∧ p.sixDigits (strip (p.str c)).toList = true := by
    unfold isSixDigitCode strippedText at hcode
    cases c with
    | null => cases hcode
    | _ => exact ⟨nofun, hcode⟩
  unfold normalizeAkshareCode
  split
  case h_1 => exact absurd rfl hdigits.1
  case h_2 => rw [if_pos hdigits.2]

private theorem normalizeAkshareCode_stored {d : DatasetDefinition × String}
    (hd : d ∈ disclosureDatasets)
    (hst : WellStored p st) {frames : List Frame}
    (hframes : readAllReportPeriodPartitions p reads st d.1 = .ok frames) {df : Frame}
    (hdf : df ∈ frames) {r : Row} (hr : r ∈ df.rows) :
    normalizeAkshareCode p (r "code") = .ok (strip (p.str (r "code"))) := by
  obtain ⟨hmem, -⟩ := disclosureDatasets_spec d hd
  have hformat : d.1.codeFormat = .sixDigit := by
    simp only [disclosureDatasets, List.mem_cons, List.not_mem_nil, or_false] at hd
    rcases hd with rfl | rfl
    · rfl
    · rfl
  obtain ⟨value, -, hread⟩ := mem_of_mem_mapM_eq_ok hframes hdf
  obtain ⟨v, -, hread⟩ := bind_eq_ok.mp hread
  exact normalizeAkshareCode_of_sixDigit (readDataset_codes hmem hformat (hst d.1 hmem v) hread r hr)

/-- The report period of every trigger in the window can be dated. -/
def Supported (p : Pandas) (cfg : FinancialReportConfig) (triggers : List PeriodTrigger)
    (start effective : Int) : Prop :=
  ∀ trigger ∈ triggers, trigger.within start effective = true →
    ∃ day, reportPeriodEndDate p cfg trigger.reportPeriod = .ok day

private theorem mem_records_iff {df : Frame} (hmidnight : ∀ r ∈ df.rows, ∀ ns priority,
      disclosureTrigger p df r = some (ns, priority) → ∃ day, ns = day * nsPerDay)
    {start effective : Int} {record : TriggerRecord} :
    record ∈ disclosureCandidateRecords p effective (some start) df ↔
      ∃ r ∈ df.rows, ∃ trigger, rowTrigger p df r = some trigger ∧
        trigger.within start effective = true ∧
        record = ⟨r "code", r "report_period", trigger.triggerDate, trigger.priority⟩ := by
  have hpos : (0 : Int) < nsPerDay := by decide
  rw [mem_disclosureCandidateRecords]
  refine exists_congr fun r => and_congr_right fun hr => ?_
  constructor
  · rintro ⟨ns, priority, htrigger, ⟨hdate, hstart⟩, rfl⟩
    obtain ⟨day, rfl⟩ := hmidnight r hr ns priority htrigger
    have hday : day * nsPerDay / nsPerDay = day := Int.mul_ediv_cancel day hpos.ne'
    refine ⟨_, by rw [rowTrigger, htrigger]; rfl, ?_, rfl⟩
    simp only [PeriodTrigger.within, Bool.and_eq_true, decide_eq_true_eq, hday]
    exact ⟨le_of_mul_le_mul_right (hstart start rfl) hpos, le_of_mul_le_mul_right hdate hpos⟩
  · rintro ⟨trigger, htrigger, hwithin, rfl⟩
    obtain ⟨⟨ns, priority⟩, hfound, rfl⟩ := Option.map_eq_some_iff.mp htrigger
    obtain ⟨day, rfl⟩ := hmidnight r hr ns priority hfound
    have hday : day * nsPerDay / nsPerDay = day := Int.mul_ediv_cancel day hpos.ne'
    simp only [PeriodTrigger.within, Bool.and_eq_true, decide_eq_true_eq, hday] at hwithin
    refine ⟨_, priority, hfound, ⟨?_, fun s hs => ?_⟩, rfl⟩
    · exact Int.mul_le_mul_of_nonneg_right hwithin.2 hpos.le
    · obtain rfl := Option.some.inj hs
      exact Int.mul_le_mul_of_nonneg_right hwithin.1 hpos.le

private theorem candidateRow_eq_ok {source : String} {record : TriggerRecord}
    (hcode : normalizeAkshareCode p record.code = .ok (strip (p.str record.code)))
    {row : CandidateRow} :
    candidateRow p cfg source record = .ok row ↔
      ∃ day, reportPeriodEndDate p cfg (p.str record.reportPeriod) = .ok day ∧
        row = ⟨strip (p.str record.code), p.str record.reportPeriod, day, record.triggerDate,
          record.triggerPriority, source⟩ := by
  constructor
  · intro hrow
    obtain ⟨code, hcode', hrow⟩ := bind_eq_ok.mp hrow
    obtain rfl := Except.ok.inj (hcode.symm.trans hcode')
    obtain ⟨day, hday, hrow⟩ := bind_eq_ok.mp hrow
    exact ⟨day, hday, (Except.ok.inj hrow).symm⟩
  · rintro ⟨day, hday, rfl⟩
    exact bind_eq_ok.mpr ⟨_, hcode, bind_eq_ok.mpr ⟨day, hday, rfl⟩⟩

private theorem sourceCandidates_triggers {source : DatasetDefinition × String}
    (hsource : source ∈ disclosureDatasets) (hst : WellStored p st) {frames : List Frame}
    (hframes : readAllReportPeriodPartitions p reads st source.1 = .ok frames)
    {start effective : Int} {rows : List CandidateRow}
    (hrows : sourceCandidates p cfg reads st effective (some start) source = .ok rows)
    (trigger : PeriodTrigger) :
    trigger ∈ rows.map CandidateRow.trigger ↔
      trigger ∈ (rowTriggers p frames).filter (PeriodTrigger.within start effective) := by
  obtain ⟨frames', hframes', hrows⟩ := bind_eq_ok.mp hrows
  obtain rfl := Except.ok.inj (hframes.symm.trans hframes')
  simp only [rowTriggers, List.mem_map, List.mem_filter, List.mem_flatMap, List.mem_filterMap]
  constructor
  · rintro ⟨row, hrow, rfl⟩
    obtain ⟨record, hrecord, hmade⟩ := mem_of_mem_mapM_eq_ok hrows hrow
    obtain ⟨df, hdf, hrecord⟩ := List.mem_flatMap.mp hrecord
    obtain ⟨r, hr, trigger, htrigger, hwithin, rfl⟩ := (mem_records_iff fun r hr ns priority =>
      readAll_midnight hsource hst hframes hdf hr).mp hrecord
    obtain ⟨day, -, rfl⟩ :=
      (candidateRow_eq_ok (normalizeAkshareCode_stored hsource hst hframes hdf hr)).mp hmade
    obtain ⟨found, hfound, rfl⟩ := Option.map_eq_some_iff.mp htrigger
    exact ⟨⟨df, hdf, r, hr, htrigger⟩, hwithin⟩
  · rintro ⟨⟨df, hdf, r, hr, htrigger⟩, hwithin⟩
    have hrecord := (mem_records_iff fun r hr ns priority =>
      readAll_midnight hsource hst hframes hdf hr).mpr ⟨r, hr, trigger, htrigger, hwithin, rfl⟩
    obtain ⟨row, hrow, hmade⟩ := mem_of_mapM_eq_ok hrows (List.mem_flatMap.mpr ⟨df, hdf, hrecord⟩)
    obtain ⟨day, -, rfl⟩ :=
      (candidateRow_eq_ok (normalizeAkshareCode_stored hsource hst hframes hdf hr)).mp hmade
    obtain ⟨found, hfound, rfl⟩ := Option.map_eq_some_iff.mp htrigger
    exact ⟨_, hrow, rfl⟩

/-- One dataset gives its rows exactly if every period in the window can be dated. -/
private theorem sourceCandidates_iff {source : DatasetDefinition × String}
    (hsource : source ∈ disclosureDatasets) (hst : WellStored p st) {frames : List Frame}
    (hframes : readAllReportPeriodPartitions p reads st source.1 = .ok frames)
    {start effective : Int} :
    (∃ rows, sourceCandidates p cfg reads st effective (some start) source = .ok rows) ↔
      Supported p cfg (rowTriggers p frames) start effective := by
  constructor
  · rintro ⟨rows, hrows⟩ trigger htrigger hwithin
    have hmem := (sourceCandidates_triggers hsource hst hframes hrows trigger).mpr
      (List.mem_filter.mpr ⟨htrigger, hwithin⟩)
    obtain ⟨row, hrow, rfl⟩ := List.mem_map.mp hmem
    obtain ⟨_, -, hrows⟩ := bind_eq_ok.mp hrows
    obtain ⟨record, -, hmade⟩ := mem_of_mem_mapM_eq_ok hrows hrow
    exact ⟨row.periodEndDate, (candidateRow_spec hmade).2⟩
  · intro hsupported
    have hevery : ∀ record ∈ frames.flatMap (disclosureCandidateRecords p effective (some start)),
        ∃ row, candidateRow p cfg source.2 record = .ok row := by
      intro record hrecord
      obtain ⟨df, hdf, hrecord⟩ := List.mem_flatMap.mp hrecord
      obtain ⟨r, hr, trigger, htrigger, hwithin, rfl⟩ := (mem_records_iff fun r hr ns priority =>
        readAll_midnight hsource hst hframes hdf hr).mp hrecord
      have hmem : trigger ∈ rowTriggers p frames :=
        List.mem_flatMap.mpr ⟨df, hdf, List.mem_filterMap.mpr ⟨r, hr, htrigger⟩⟩
      obtain ⟨day, hday⟩ := hsupported trigger hmem hwithin
      obtain ⟨found, hfound, rfl⟩ := Option.map_eq_some_iff.mp htrigger
      exact ⟨_, (candidateRow_eq_ok (normalizeAkshareCode_stored hsource hst hframes hdf hr)).mpr
        ⟨day, hday, rfl⟩⟩
    obtain ⟨rows, hrows⟩ := exists_mapM_eq_ok hevery
    exact ⟨rows, bind_eq_ok.mpr ⟨frames, hframes, hrows⟩⟩

private theorem mem_rowTriggers {frames : List Frame}
    (hframes : disclosureFrames p reads st = .ok frames)
    {trigger : PeriodTrigger} :
    trigger ∈ rowTriggers p frames ↔ ∃ source ∈ disclosureDatasets, ∃ part,
      readAllReportPeriodPartitions p reads st source.1 = .ok part ∧ trigger ∈ rowTriggers p part := by
  obtain ⟨parts, hparts, hframes⟩ := bind_eq_ok.mp hframes
  obtain rfl := Except.ok.inj hframes
  simp only [rowTriggers, List.mem_flatMap, List.mem_flatten]
  constructor
  · rintro ⟨df, ⟨part, hpart, hdf⟩, htrigger⟩
    obtain ⟨source, hsource, hread⟩ := mem_of_mem_mapM_eq_ok hparts hpart
    exact ⟨source, hsource, part, hread, df, hdf, htrigger⟩
  · rintro ⟨source, hsource, part, hread, df, hdf, htrigger⟩
    obtain ⟨part', hpart, hread'⟩ := mem_of_mapM_eq_ok hparts hsource
    obtain rfl := Except.ok.inj (hread.symm.trans hread')
    exact ⟨df, ⟨part, hpart, hdf⟩, htrigger⟩

private theorem exists_part {frames : List Frame}
    (hframes : disclosureFrames p reads st = .ok frames)
    {source : DatasetDefinition × String} (hsource : source ∈ disclosureDatasets) :
    ∃ part, readAllReportPeriodPartitions p reads st source.1 = .ok part := by
  obtain ⟨parts, hparts, -⟩ := bind_eq_ok.mp hframes
  obtain ⟨part, -, hread⟩ := mem_of_mapM_eq_ok hparts hsource
  exact ⟨part, hread⟩

section Both

variable (hst : WellStored p st) {frames : List Frame}
  (hframes : disclosureFrames p reads st = .ok frames) {start effective : Int}
include hst hframes

private theorem disclosureRows_triggers {rows : List CandidateRow}
    (hrows : disclosureRows p cfg reads st effective (some start) = .ok rows)
    (trigger : PeriodTrigger) :
    trigger ∈ rows.map CandidateRow.trigger ↔
      trigger ∈ (rowTriggers p frames).filter (PeriodTrigger.within start effective) := by
  obtain ⟨parts, hparts, hrows⟩ := bind_eq_ok.mp hrows
  obtain rfl := Except.ok.inj hrows
  rw [List.mem_filter, mem_rowTriggers hframes, List.map_flatten, List.mem_flatten]
  constructor
  · rintro ⟨_, hpart, htrigger⟩
    obtain ⟨rows, hrows, rfl⟩ := List.mem_map.mp hpart
    obtain ⟨source, hsource, hmade⟩ := mem_of_mem_mapM_eq_ok hparts hrows
    obtain ⟨part, hread⟩ := exists_part hframes hsource
    obtain ⟨hmem, hwithin⟩ := List.mem_filter.mp
      ((sourceCandidates_triggers hsource hst hread hmade trigger).mp htrigger)
    exact ⟨⟨source, hsource, part, hread, hmem⟩, hwithin⟩
  · rintro ⟨⟨source, hsource, part, hread, hmem⟩, hwithin⟩
    obtain ⟨rows, hrows, hmade⟩ := mem_of_mapM_eq_ok hparts hsource
    exact ⟨_, List.mem_map_of_mem hrows, (sourceCandidates_triggers hsource hst hread hmade
      trigger).mpr (List.mem_filter.mpr ⟨hmem, hwithin⟩)⟩

private theorem disclosureRows_iff :
    (∃ rows, disclosureRows p cfg reads st effective (some start) = .ok rows) ↔
      Supported p cfg (rowTriggers p frames) start effective := by
  constructor
  · rintro ⟨rows, hrows⟩ trigger htrigger hwithin
    obtain ⟨parts, hparts, -⟩ := bind_eq_ok.mp hrows
    obtain ⟨source, hsource, part, hread, hmem⟩ := (mem_rowTriggers hframes).mp htrigger
    obtain ⟨made, -, hmade⟩ := mem_of_mapM_eq_ok hparts hsource
    exact (sourceCandidates_iff hsource hst hread).mp ⟨made, hmade⟩ trigger hmem hwithin
  · intro hsupported
    have hevery : ∀ source ∈ disclosureDatasets, ∃ rows,
        sourceCandidates p cfg reads st effective (some start) source = .ok rows := by
      intro source hsource
      obtain ⟨part, hread⟩ := exists_part hframes hsource
      refine (sourceCandidates_iff hsource hst hread).mpr fun trigger hmem => ?_
      exact hsupported trigger ((mem_rowTriggers hframes).mpr ⟨source, hsource, part, hread, hmem⟩)
    obtain ⟨parts, hparts⟩ := exists_mapM_eq_ok hevery
    exact ⟨parts.flatten, bind_eq_ok.mpr ⟨parts, hparts, rfl⟩⟩

end Both

end Stored

/-! Merging -/

private theorem PeriodTrigger.eq_of_key_rank {trigger other : PeriodTrigger}
    (hkey : trigger.key = other.key)
    (hrank : trigger.rank = other.rank) : trigger = other := by
  unfold PeriodTrigger.key at hkey
  unfold PeriodTrigger.rank at hrank
  rw [EmbeddingLike.apply_eq_iff_eq, Prod.mk.injEq] at hkey hrank
  cases trigger
  cases other
  simp only [PeriodTrigger.mk.injEq]
  exact ⟨hkey.1, hkey.2, hrank.2, hrank.1⟩

/-- Merging keeps the merged triggers of the rows. -/
private theorem mem_merge_trigger {rows : List CandidateRow} {trigger : PeriodTrigger} :
    trigger ∈ (mergeCandidateRows rows).map CandidateRow.trigger ↔
      Merged (rows.map CandidateRow.trigger) trigger := by
  constructor
  · intro htrigger
    obtain ⟨row, hrow, rfl⟩ := List.mem_map.mp htrigger
    refine ⟨List.mem_map_of_mem (mem_of_mem_merge hrow), fun other hother hkey => ?_⟩
    obtain ⟨row', hrow', rfl⟩ := List.mem_map.mp hother
    exact sortKey_le_of_mem_merge hrow hrow' hkey
  · intro hmerged
    obtain ⟨row, hrow, rfl⟩ := List.mem_map.mp hmerged.mem
    obtain ⟨top, htop, hkey, hle⟩ := exists_mem_merge hrow
    have hge : top.trigger.rank ≤ row.trigger.rank :=
      hmerged.highest _ (List.mem_map_of_mem (mem_of_mem_merge htop)) hkey
    rw [← PeriodTrigger.eq_of_key_rank (show top.trigger.key = row.trigger.key from hkey)
      (le_antisymm hge hle)]
    exact List.mem_map_of_mem htop

private theorem merge_nodup (rows : List CandidateRow) :
    ((mergeCandidateRows rows).map CandidateRow.key).Nodup := by
  have hperm := (stableSort_perm CandidateRow.key
    ((best CandidateRow.key CandidateRow.sortKey rows).map Prod.snd)).map CandidateRow.key
  exact hperm.nodup_iff.mpr (nodup_keys_best rows)

/-- The candidates follow the merged triggers exactly if every period in the window can be dated,
and every period that has a trigger in the window has its merged trigger there. -/
theorem candidates_follow_merged_iff {p : Pandas} {cfg : FinancialReportConfig}
    {reads : Derived.Reads} {st : Store} (hst : WellStored p st) {frames : List Frame}
    (hframes : disclosureFrames p reads st = .ok frames) (start effective : Int) :
    FollowsMerged p cfg reads st (rowTriggers p frames) start effective ↔
      Supported p cfg (rowTriggers p frames) start effective ∧
        ∀ trigger ∈ rowTriggers p frames, trigger.within start effective = true →
          ∃ merged, Merged (rowTriggers p frames) merged ∧ merged.key = trigger.key ∧
            merged.within start effective = true := by
  rw [← @isBest_filter_iff _ _ _ _ _ PeriodTrigger.key PeriodTrigger.rank]
  have hrows : ∀ rows, disclosureRows p cfg reads st effective (some start) = .ok rows →
      ∀ trigger, trigger ∈ (mergeCandidateRows rows).map CandidateRow.trigger ↔
        Merged ((rowTriggers p frames).filter (PeriodTrigger.within start effective)) trigger := by
    intro rows hrows trigger
    rw [mem_merge_trigger]
    exact isBest_congr (disclosureRows_triggers hst hframes hrows)
  constructor
  · rintro ⟨merged, hmerged, -, hfollows⟩
    obtain ⟨rows, hread, hmerged⟩ := bind_eq_ok.mp hmerged
    obtain rfl := Except.ok.inj hmerged
    refine ⟨(disclosureRows_iff hst hframes).mp ⟨rows, hread⟩, fun trigger => ?_⟩
    exact (hrows rows hread trigger).symm.trans (hfollows trigger)
  · rintro ⟨hsupported, hcommute⟩
    obtain ⟨rows, hread⟩ := (@disclosureRows_iff p cfg reads st hst frames hframes start
      effective).mpr hsupported
    refine ⟨mergeCandidateRows rows, bind_eq_ok.mpr ⟨rows, hread, rfl⟩, merge_nodup rows,
      fun trigger => ?_⟩
    exact (hrows rows hread trigger).trans (hcommute trigger)

/-! One report that the first source has scheduled and the second has an actual date for -/

def writeDisclosure (d : DatasetDefinition) (entries : List (String × Cell)) (st : Store) : Store :=
  (writeDataset .plain .plain (.plain true) d.id
    ⟨fieldNames d.schema, fun _ => .object,
      [rowOf ([("report_period", .text "2023年报"), ("period_end_date", .date 19722),
        ("code", .text "600000"), ("name", .text "浦发银行")] ++ entries)]⟩
    (some [("report_period", .text "2023年报")]) none false st).2

def scheduledAndActual (scheduled actual : Int) : Store :=
  writeDisclosure akshareYysjEmDataset
    [("symbol", .text "沪深A股"), ("actual_disclosure_date", .date actual)]
    (writeDisclosure akshareReportDisclosureDataset
      [("market", .text "沪深京"), ("first_scheduled_date", .date scheduled)] .empty)

def annualListing : Derived.Reads := ⟨fun _ => ["2023年报"], plainIo⟩

private theorem wellStored_writeDisclosure {d : DatasetDefinition} {entries : List (String × Cell)}
    {st : Store} (hst : WellStored .plain st) : WellStored .plain (writeDisclosure d entries st) := by
  unfold writeDisclosure
  rcases hout : writeDataset .plain .plain (.plain true) d.id _ _ none false st with ⟨result, st'⟩
  exact wellStored_of_write hst hout

private theorem wellStored_scheduledAndActual (scheduled actual : Int) :
    WellStored .plain (scheduledAndActual scheduled actual) :=
  wellStored_writeDisclosure (wellStored_writeDisclosure (wellStored_empty .plain))

def annualTriggers (scheduled actual : Int) : List PeriodTrigger :=
  [⟨"600000", "2023年报", scheduled, 1⟩, ⟨"600000", "2023年报", actual, 3⟩]

/-- The actual date lies in the window with the scheduled one. -/
theorem follows_merged_actual : ∃ frames,
    disclosureFrames .plain annualListing (scheduledAndActual 19725 19728) = .ok frames ∧
      FollowsMerged .plain {} annualListing (scheduledAndActual 19725 19728)
        (rowTriggers .plain frames) 19720 19730 := by
  have htriggers : (disclosureFrames .plain annualListing (scheduledAndActual 19725 19728)).toOption.map
      (rowTriggers .plain) = some (annualTriggers 19725 19728) := by decide +kernel
  obtain ⟨frames, hframes, htriggers⟩ := Option.map_eq_some_iff.mp htriggers
  have hframes := eq_ok_of_toOption hframes
  refine ⟨frames, hframes, (candidates_follow_merged_iff (wellStored_scheduledAndActual 19725 19728)
    hframes 19720 19730).mpr ?_⟩
  rw [htriggers]
  have hdated : ∃ day, reportPeriodEndDate .plain {} "2023年报" = .ok day :=
    ⟨19722, eq_ok_of_toOption (by decide +kernel)⟩
  have hmerged : Merged (annualTriggers 19725 19728) ⟨"600000", "2023年报", 19728, 3⟩ :=
    ⟨by decide, by decide⟩
  constructor
  · intro trigger htrigger _
    simp only [annualTriggers, List.mem_cons, List.not_mem_nil, or_false] at htrigger
    rcases htrigger with rfl | rfl
    · exact hdated
    · exact hdated
  · intro trigger htrigger _
    refine ⟨_, hmerged, ?_, by decide⟩
    simp only [annualTriggers, List.mem_cons, List.not_mem_nil, or_false] at htrigger
    rcases htrigger with rfl | rfl
    · rfl
    · rfl

/-- The report is out after the window, and its scheduled date triggers it nevertheless. -/
theorem scheduled_date_triggers_early :
    WellStored .plain (scheduledAndActual 19725 19735) ∧ ∃ frames,
      disclosureFrames .plain annualListing (scheduledAndActual 19725 19735) = .ok frames ∧
        ¬FollowsMerged .plain {} annualListing (scheduledAndActual 19725 19735)
          (rowTriggers .plain frames) 19720 19730 := by
  have htriggers : (disclosureFrames .plain annualListing (scheduledAndActual 19725 19735)).toOption.map
      (rowTriggers .plain) = some (annualTriggers 19725 19735) := by decide +kernel
  obtain ⟨frames, hframes, htriggers⟩ := Option.map_eq_some_iff.mp htriggers
  refine ⟨wellStored_scheduledAndActual 19725 19735, frames, eq_ok_of_toOption hframes, ?_⟩
  rw [htriggers]
  rintro ⟨rows, hrows, -, hfollows⟩
  have hread : (localDisclosureCandidates .plain {} annualListing (scheduledAndActual 19725 19735)
      19730 (some 19720)).toOption.map (List.map CandidateRow.trigger) =
        some [⟨"600000", "2023年报", 19725, 1⟩] := by decide +kernel
  rw [hrows] at hread
  have hscheduled : (⟨"600000", "2023年报", 19725, 1⟩ : PeriodTrigger) ∈
      rows.map CandidateRow.trigger := by
    rw [Option.some.inj hread]
    exact List.mem_cons_self
  obtain ⟨hmerged, -⟩ := (hfollows _).mp hscheduled
  have hle := hmerged.highest ⟨"600000", "2023年报", 19735, 3⟩ (by decide) rfl
  exact absurd hle (by decide)

end QuantDataCenter.Sources
