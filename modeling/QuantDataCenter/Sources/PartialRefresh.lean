import Mathlib.Data.Int.ConditionallyCompleteOrder
import QuantDataCenter.Sources.DailyRuns

/-!
The partial refresh of the unadjusted bars of a code. The cheap path merges the fetched window
into the stored bars; where it is taken, the result is what a fetch of the whole history would
have stored.
-/

set_option autoImplicit false
set_option relaxedAutoImplicit false

namespace QuantDataCenter.Sources

open QuantDataCenter.Lib.Checked QuantDataCenter.Lib.Keyed QuantDataCenter.Tabular
open QuantDataCenter.Pipeline QuantDataCenter.Quality QuantDataCenter.Storage
open QuantDataCenter.Derived.Research

/-- The history of a code at the provider: its bars can be coerced to the schema, and each has
a day of its own, from the first day of a full history on. -/
structure ProviderHistory (p : Pandas) where
  frame : Frame
  cleaned : Frame
  coerces : cleanDataframeForSchema p frame dailyBarSchema = .ok cleaned
  typed : ∀ r ∈ cleaned.rows, ∀ field ∈ dailyBarSchema, field.type.accepts (r field.name) = true
  dated : ∀ r ∈ cleaned.rows, ∃ day, r "date" = .date day ∧ fullHistoryStart ≤ day
  unique : (cleaned.rows.map fun r => r "date").Nodup

/-- The bar has a day between two moments. -/
def datedBetween (startTs endTs : Int) (r : Row) : Bool :=
  match r "date" with
  | .date day => decide (startTs ≤ day * nsPerDay ∧ day * nsPerDay ≤ endTs)
  | _ => false

section History

variable {p : Pandas}

/-- What the provider answers when it is asked for the days between two dates. -/
def ProviderHistory.answer (P : ProviderHistory p) (startDate endDate : String) : Frame :=
  { P.frame with
    rows := match p.toDatetime (.text startDate), p.toDatetime (.text endDate) with
      | some startTs, some endTs =>
        P.frame.rows.filter (datedBetween startTs endTs ∘ cleanRow p P.frame dailyBarSchema)
      | _, _ => [] }

private theorem datedBetween_iff {r : Row} {startDay endDay : Int} :
    datedBetween (startDay * nsPerDay) (endDay * nsPerDay) r = true ↔
      ∃ day ∈ Set.Icc startDay endDay, r "date" = .date day := by
  have hpos : 0 < nsPerDay := by decide
  unfold datedBetween
  split
  case h_1 day hday =>
    rw [decide_eq_true_eq, Int.mul_le_mul_right hpos, Int.mul_le_mul_right hpos]
    constructor
    · intro h
      exact ⟨day, h, hday⟩
    · rintro ⟨day', hmem, heq⟩
      rw [hday] at heq
      rw [Cell.date.inj heq]
      exact hmem
  case h_2 hnone =>
    refine iff_of_false (by decide) ?_
    rintro ⟨day, -, hday⟩
    exact hnone day hday

private theorem clean_of_subset {df cleaned : Frame} {rows : List Row}
    (hclean : cleanDataframeForSchema p df dailyBarSchema = .ok cleaned)
    (hsubset : ∀ r ∈ rows, r ∈ df.rows) :
    cleanDataframeForSchema p { df with rows := rows } dailyBarSchema =
      .ok { cleaned with rows := rows.map (cleanRow p df dailyBarSchema) } := by
  have hno : "adjustment" ∉ fieldNames dailyBarSchema := by decide
  unfold cleanDataframeForSchema at hclean ⊢
  obtain ⟨u, hcheck, hout⟩ := bind_eq_ok.mp hclean
  simp only at hout
  rw [if_neg fun hadj => hno hadj.1] at hout
  obtain rfl := Except.ok.inj hout
  have hcheck' : checkAll (cleanFieldError p { df with rows := rows }) dailyBarSchema = .ok () := by
    rw [checkAll_eq_ok] at hcheck ⊢
    intro field hfield
    have hfieldError := hcheck field hfield
    unfold cleanFieldError at hfieldError ⊢
    simp only at hfieldError ⊢
    split
    case h_1 first second rest hsource =>
      rw [hsource] at hfieldError
      cases hfieldError
    case h_2 hsource =>
      split at hfieldError
      case h_1 first second rest hsource' => exact absurd hsource' (hsource first second rest)
      case h_2 =>
        rw [List.findSome?_eq_none_iff] at hfieldError ⊢
        exact fun r hr => hfieldError r (hsubset r hr)
  rw [hcheck']
  simp only [Bind.bind, Except.bind]
  rw [if_neg fun hadj => hno hadj.1]
  rfl

private theorem ProviderHistory.clean_answer (P : ProviderHistory p) {startDate endDate : String}
    {startDay endDay : Int} (hstart : p.toDatetime (.text startDate) = some (startDay * nsPerDay))
    (hend : p.toDatetime (.text endDate) = some (endDay * nsPerDay)) :
    ∃ out, cleanDataframeForSchema p (P.answer startDate endDate) dailyBarSchema = .ok out ∧
      out.rows = P.cleaned.rows.filter
        (datedBetween (startDay * nsPerDay) (endDay * nsPerDay)) := by
  obtain ⟨-, hrows⟩ := clean_dailyBar P.coerces
  have hanswer : P.answer startDate endDate = { P.frame with
      rows := P.frame.rows.filter (datedBetween (startDay * nsPerDay) (endDay * nsPerDay) ∘
        cleanRow p P.frame dailyBarSchema) } := by
    unfold ProviderHistory.answer
    rw [hstart, hend]
  rw [hanswer]
  refine ⟨_, clean_of_subset P.coerces fun r hr => (List.mem_filter.mp hr).1, ?_⟩
  rw [hrows, List.filter_map]

end History

/-! The overlap -/

section Overlap

variable {p : Pandas} {existing fresh : Frame} {startTs endTs : Int}

private theorem hasData_eq_true (h : hasDataInRange p existing startTs endTs = .ok true) :
    ∃ r ∈ existing.rows, inWindow p startTs endTs r = true := by
  unfold hasDataInRange at h
  split at h
  case isTrue => cases Except.ok.inj h
  case isFalse =>
    split at h
    case isTrue => cases h
    case isFalse => exact List.any_eq_true.mp (Except.ok.inj h)

/-- Where the frames do not differ, each existing bar of the window has a fresh bar of its key
with the same values. -/
private theorem differ_eq_false {old new : Frame}
    (hold : cleanDataframeForSchema p existing dailyBarSchema = .ok old)
    (hnew : cleanDataframeForSchema p fresh dailyBarSchema = .ok new)
    (h : dailyFramesDifferOnOverlap p existing fresh startTs endTs = .ok false) :
    ∀ r ∈ keepLast (windowKey p) (old.rows.filter (inWindow p startTs endTs)),
      ∃ w ∈ new.rows, windowKey p w = windowKey p r ∧ conflicts r w = false := by
  unfold dailyFramesDifferOnOverlap dailyWindowByKey at h
  rw [hold, hnew] at h
  simp only [Bind.bind, Except.bind] at h
  intro r hr
  split at h
  case isTrue hnil =>
    rw [hnil] at hr
    cases hr
  case isFalse =>
    have hout := Bool.or_eq_false_iff.mp (Except.ok.inj h)
    have hmissing := (Bool.or_eq_false_iff.mp hout.1).2
    have hpresent : windowKey p r ∈ (keepLast (windowKey p)
        (new.rows.filter (inWindow p startTs endTs))).map (windowKey p) := by
      simpa using List.any_eq_false.mp hmissing r hr
    obtain ⟨w, hw, hkey⟩ := List.mem_map.mp hpresent
    have hvalues : ∀ w ∈ keepLast (windowKey p) (new.rows.filter (inWindow p startTs endTs)),
        windowKey p w = windowKey p r → conflicts r w = false := by
      simpa using List.any_eq_false.mp hout.2 r hr
    exact ⟨w, (List.mem_filter.mp ((keepLast_sublist _).subset hw)).1, hkey, hvalues w hw hkey⟩

private theorem conflicts_eq_false {r w : Row} (h : conflicts r w = false) :
    ∀ column ∈ compareColumns, r column = w column := by
  intro column hcolumn
  have hall := List.any_eq_false.mp h column hcolumn
  simpa using hall

private theorem settled_of_typed {id : String} {r : Row}
    (htyped : ∀ field ∈ dailyBarSchema, field.type.accepts (r field.name) = true)
    (houtside : ∀ name ∉ fieldNames dailyBarSchema, r name = .null) :
    Settled p (dailyBarDataset id) r where
  accepts := htyped
  outside := houtside
  adjustment hmem := absurd hmem (by change "adjustment" ∉ fieldNames dailyBarSchema; decide)
  fixed e he := by cases he

private theorem eq_of_windowKey {value : String} (hvalue : value ≠ "") {id : String} {r w : Row}
    (hr : Settled p (dailyBarDataset id) r) (hw : Settled p (dailyBarDataset id) w)
    (hcode : r "code" = .text value) {day day' : Int} (hday : r "date" = .date day)
    (hday' : w "date" = .date day') (hkey : windowKey p w = windowKey p r)
    (hvalues : conflicts r w = false) : r = w := by
  obtain ⟨hcodes, hdays⟩ := Prod.mk.inj hkey
  rw [hday, hday', normalizedDay_date, normalizedDay_date] at hdays
  have hcode' : w "code" = .text value := by
    have haccepts : FieldType.string.accepts (w "code") = true :=
      hw.accepts ⟨"code", .string⟩ (List.mem_cons_of_mem _ List.mem_cons_self)
    rw [hcode] at hcodes
    cases hcell : w "code" with
    | text s =>
      rw [hcell] at hcodes
      exact congrArg Cell.text hcodes
    | null =>
      rw [hcell] at hcodes
      exact absurd hcodes.symm hvalue
    | _ => simp [FieldType.accepts, hcell] at haccepts
  funext name
  by_cases hname : name ∈ fieldNames dailyBarSchema
  · by_cases hkeyColumn : name ∈ ["code", "date"]
    · rcases List.mem_cons.mp hkeyColumn with rfl | hdate
      · rw [hcode, hcode']
      · obtain rfl := List.mem_singleton.mp hdate
        rw [hday, hday', Option.some.inj hdays]
    · exact conflicts_eq_false hvalues name
        (List.mem_filter.mpr ⟨hname, decide_eq_true hkeyColumn⟩)
  · rw [hr.outside name hname, hw.outside name hname]

private theorem mem_mergedBars_iff {old new : List Row} (hold : (old.map (frameKey p)).Nodup)
    (hnew : (new.map (frameKey p)).Nodup)
    (hshared : ∀ r ∈ old, frameKey p r ∈ new.map (frameKey p) → r ∈ new) {r : Row} :
    r ∈ stableSort (sortKey ["code", "date"]) (keepLast (frameKey p) (old ++ new)) ↔
      r ∈ old ∨ r ∈ new := by
  have hfresh : ∀ w ∈ new,
      w ∈ stableSort (sortKey ["code", "date"]) (keepLast (frameKey p) (old ++ new)) := by
    intro w hw
    rw [(stableSort_perm _ _).mem_iff, mem_keepLast_iff, lastOf_append,
      lastOf_eq_some_of_nodup hnew hw]
    rfl
  constructor
  · exact mem_of_mem_mergedBars
  · rintro (hr | hr)
    · by_cases hkey : frameKey p r ∈ new.map (frameKey p)
      · exact hfresh r (hshared r hr hkey)
      · exact mem_mergedBars_of_alone hold hr hkey
    · exact hfresh r hr

end Overlap

/-! The two paths -/

/-- The stored bars of a code are those of an older history up to some day of the window or
before it, and the history has changed since from the first day of the window on only. -/
structure StoredHistory (p : Pandas) (w : DailyWorker) (code : String) (P0 P1 : ProviderHistory p)
    (startDay upTo endDay : Int) (st : Store) : Prop where
  startDate : p.toDatetime (.text w.startDate) = some (startDay * nsPerDay)
  endDate : p.toDatetime (.text w.endDate) = some (endDay * nsPerDay)
  fullDate : p.toDatetime (.text fullHistoryStartDate) = some (fullHistoryStart * nsPerDay)
  upTo_le : upTo ≤ endDay
  stored : ∀ r, r ∈ content st (dailyBarDataset unadjustedDailyDataset) (strip code) ↔
    r ∈ P0.cleaned.rows ∧ ∃ day ≤ upTo, r "date" = .date day
  agree : ∀ r day, r "date" = .date day → day < startDay →
    (r ∈ P0.cleaned.rows ↔ r ∈ P1.cleaned.rows)

section Refresh

variable {e : DailyEnv} {adjustFlag : String → Except StoreError String} {w : DailyWorker}
  {code : String} {P0 P1 : ProviderHistory e.pandas} {startDay upTo endDay : Int} {st : Store}

private theorem unadjusted_mem :
    unadjustedDailyDataset ∈ baostockDailyBarDatasetIds := List.mem_cons_self

theorem ProviderHistory.settled {p : Pandas} (P : ProviderHistory p) :
    ∀ r ∈ P.cleaned.rows, Settled p (dailyBarDataset unadjustedDailyDataset) r := by
  intro r hr
  refine settled_of_typed (P.typed r hr) fun name hname => ?_
  rw [(clean_dailyBar P.coerces).2] at hr
  obtain ⟨r0, -, rfl⟩ := List.mem_map.mp hr
  simp only [cleanRow, find_field_none hname]

/-- What it takes to get to the cheap path. -/
private theorem partialBase_spec (hst : WellStored e.pandas st) {df base : Frame}
    (h : StoredHistory e.pandas w code P0 P1 startDay upTo endDay st)
    (hfound : partialUnadjustedBase (e.withFrames adjustFlag) w code df st = .ok (.inl base)) :
    ∃ existing, existing.rows = content st (dailyBarDataset unadjustedDailyDataset) (strip code) ∧
      existing.columns = fieldNames dailyBarSchema ∧ strip code ≠ "" ∧
      hasDataInRange e.pandas existing (startDay * nsPerDay) (endDay * nsPerDay) = .ok true ∧
      dailyFramesDifferOnOverlap e.pandas existing df (startDay * nsPerDay) (endDay * nsPerDay) =
        .ok false ∧
      mergeDailyFrames e.pandas existing df = .ok base := by
  have hstart : timestampOf e.pandas w.startDate = .ok (startDay * nsPerDay) := by
    unfold timestampOf
    rw [h.startDate]
  have hend : timestampOf e.pandas w.endDate = .ok (endDay * nsPerDay) := by
    unfold timestampOf
    rw [h.endDate]
  have hmem := dailyBar_mem unadjusted_mem
  obtain ⟨value, hvalue, hfound⟩ := bind_eq_ok.mp hfound
  have hblank := code_not_blank rfl rfl hvalue
  obtain rfl := codePartition_value rfl rfl hvalue
  obtain ⟨existing, hread, hfound⟩ := bind_eq_ok.mp hfound
  obtain ⟨hrows, hcolumns⟩ := readDataset_rows (wellFormed_of_mem hmem) (hst _ hmem _) hread
  obtain ⟨present, hpresent, hfound⟩ := bind_eq_ok.mp hfound
  simp only [DailyEnv.withFrames, hstart, hend] at hpresent
  split at hfound
  case isTrue => cases Except.ok.inj hfound
  case isFalse hdata =>
    obtain rfl : present = true := by simpa using hdata
    obtain ⟨differ, hdiffer, hfound⟩ := bind_eq_ok.mp hfound
    simp only [DailyEnv.withFrames, hstart, hend] at hdiffer
    split at hfound
    case isTrue => cases Except.ok.inj hfound
    case isFalse hsame =>
      obtain rfl : differ = false := by simpa using hsame
      obtain ⟨merged, hmerged, hout⟩ := bind_eq_ok.mp hfound
      obtain rfl := Sum.inl.inj (Except.ok.inj hout)
      exact ⟨existing, hrows, hcolumns, hblank, hpresent, hdiffer, hmerged⟩

private theorem inWindow_date {p : Pandas} {r : Row} {day startDate endDate : Int}
    (hday : r "date" = .date day) :
    inWindow p (startDate * nsPerDay) (endDate * nsPerDay) r = true ↔
      day ∈ Set.Icc startDate endDate := by
  have hpos : 0 < nsPerDay := by decide
  unfold inWindow
  rw [hday, parsedDate_date, decide_eq_true_eq, Int.mul_le_mul_right hpos,
    Int.mul_le_mul_right hpos]
  exact Iff.rfl

private theorem nodup_windowKey {p : Pandas} {rows : List Row} {value : String}
    (hbars : Accepted dailyBarSchema "date" rows) (hcodes : ∀ r ∈ rows, r "code" = .text value) :
    (rows.map (windowKey p)).Nodup := by
  refine List.Nodup.map_on ?_ (List.Nodup.of_map _ hbars.nodup)
  intro r hr r' hr' hkey
  obtain ⟨day, hday⟩ := hbars.date r hr
  obtain ⟨day', hday'⟩ := hbars.date r' hr'
  have hdays := (Prod.mk.inj hkey).2
  rw [hday, hday', normalizedDay_date, normalizedDay_date] at hdays
  apply List.inj_on_of_nodup_map hbars.nodup hr hr'
  simp only [rowKey, List.map_cons, List.map_nil, hcodes r hr, hcodes r' hr', hday, hday',
    Option.some.inj hdays]

theorem ProviderHistory.nodup_frameKey {p : Pandas} (P : ProviderHistory p) :
    (P.cleaned.rows.map (frameKey p)).Nodup := by
  refine List.Nodup.map_on ?_ (List.Nodup.of_map _ P.unique)
  intro r hr r' hr' hkey
  obtain ⟨day, hday, -⟩ := P.dated r hr
  obtain ⟨day', hday', -⟩ := P.dated r' hr'
  have hdays := (Prod.mk.inj hkey).2
  rw [hday, hday', normalizedDay_date, normalizedDay_date] at hdays
  apply List.inj_on_of_nodup_map P.unique hr hr'
  simp only [hday, hday', Option.some.inj hdays]

/-- On the cheap path every stored bar of the window is among the fetched ones. -/
private theorem stored_mem_fetched {p : Pandas} {P : ProviderHistory p}
    {existing fresh old new : Frame}
    {value : String} (hvalue : value ≠ "") (hbars : Accepted dailyBarSchema "date" existing.rows)
    (hcodes : ∀ r ∈ existing.rows, r "code" = .text value)
    (hsettled : ∀ r ∈ existing.rows, Settled p (dailyBarDataset unadjustedDailyDataset) r)
    (hold : cleanDataframeForSchema p existing dailyBarSchema = .ok old)
    (hnew : cleanDataframeForSchema p fresh dailyBarSchema = .ok new)
    (hsame : old.rows = existing.rows) (hfetched : ∀ w ∈ new.rows, w ∈ P.cleaned.rows)
    {startDay endDay : Int} (hdiffer : dailyFramesDifferOnOverlap p existing fresh
      (startDay * nsPerDay) (endDay * nsPerDay) = .ok false) {r : Row} (hr : r ∈ existing.rows)
    {day : Int} (hday : r "date" = .date day) (hwindow : day ∈ Set.Icc startDay endDay) :
    r ∈ new.rows := by
  have hkept : r ∈ keepLast (windowKey p)
      (old.rows.filter (inWindow p (startDay * nsPerDay) (endDay * nsPerDay))) := by
    rw [hsame, keepLast_eq_self]
    · exact List.mem_filter.mpr ⟨hr, (inWindow_date hday).mpr hwindow⟩
    · exact (nodup_windowKey hbars hcodes).sublist (List.Sublist.map _ List.filter_sublist)
  obtain ⟨w, hw, hkey, hvalues⟩ := differ_eq_false hold hnew hdiffer r hkept
  obtain ⟨day', hday', -⟩ := P.dated w (hfetched w hw)
  have heq := eq_of_windowKey hvalue (hsettled r hr) (P.settled w (hfetched w hw)) (hcodes r hr)
    hday hday' hkey hvalues
  rw [heq]
  exact hw

/-- The merged bars of the cheap path are the newer history up to the end of the window. -/
private theorem mem_partialBase (hst : WellStored e.pandas st) {base : Frame}
    (h : StoredHistory e.pandas w code P0 P1 startDay upTo endDay st)
    (hfound : partialUnadjustedBase (e.withFrames adjustFlag) w code
      (P1.answer w.startDate w.endDate) st = .ok (.inl base)) :
    base.columns = fieldNames dailyBarSchema ∧
      ∀ r, r ∈ base.rows ↔ r ∈ P1.cleaned.rows ∧ ∃ day ≤ endDay, r "date" = .date day := by
  have wf := wellFormed_of_mem (dailyBar_mem unadjusted_mem)
  obtain ⟨existing, hexisting, hcolumns, hblank, hpresent, hdiffer, hmerge⟩ :=
    partialBase_spec hst h hfound
  obtain ⟨hbars, hcodes⟩ := content_bars hst unadjusted_mem (strip code)
  rw [← hexisting] at hbars hcodes
  have hsettled : ∀ r ∈ existing.rows, Settled e.pandas (dailyBarDataset unadjustedDailyDataset) r := by
    intro r hr
    rw [hexisting] at hr
    exact (content_stored (hst _ (dailyBar_mem unadjusted_mem) _) r hr).1
  obtain ⟨old, new, hold, hnew, hbase, hrows⟩ := mergeDailyFrames_spec hmerge
  obtain ⟨dtype, hclean⟩ := clean_of_settled wf hcolumns hsettled
  have hsame : old.rows = existing.rows := by
    rw [Except.ok.inj (hold.symm.trans hclean)]
  obtain ⟨out, hout, hanswer⟩ := P1.clean_answer h.startDate h.endDate
  obtain rfl := Except.ok.inj (hout.symm.trans hnew)
  have hfetched : ∀ w ∈ out.rows, w ∈ P1.cleaned.rows := by
    intro w hw
    rw [hanswer] at hw
    exact (List.mem_filter.mp hw).1
  have hoverlap : ∀ r ∈ existing.rows, ∀ day, r "date" = .date day →
      day ∈ Set.Icc startDay endDay → r ∈ out.rows := fun r hr day hday hwindow =>
    stored_mem_fetched hblank hbars hcodes hsettled hold hnew hsame hfetched hdiffer hr hday hwindow
  have hnodup : (out.rows.map (frameKey e.pandas)).Nodup := by
    rw [hanswer]
    exact P1.nodup_frameKey.sublist (List.Sublist.map _ List.filter_sublist)
  have hshared : ∀ r ∈ existing.rows,
      frameKey e.pandas r ∈ out.rows.map (frameKey e.pandas) → r ∈ out.rows := by
    intro r hr hkey
    obtain ⟨w, hw, heq⟩ := List.mem_map.mp hkey
    obtain ⟨day, hday⟩ := hbars.date r hr
    have hw' := hw
    rw [hanswer] at hw'
    obtain ⟨day', hwindow, hday'⟩ := datedBetween_iff.mp (List.mem_filter.mp hw').2
    have hdays := (Prod.mk.inj heq).2
    rw [hday, hday', normalizedDay_date, normalizedDay_date] at hdays
    exact hoverlap r hr day hday (Option.some.inj hdays ▸ hwindow)
  have hmem : ∀ r, r ∈ base.rows ↔ r ∈ existing.rows ∨ r ∈ out.rows := by
    intro r
    rw [hrows, hsame]
    exact mem_mergedBars_iff (nodup_frameKey hbars) hnodup hshared
  refine ⟨hbase, fun r => ?_⟩
  rw [hmem]
  constructor
  · rintro (hr | hr)
    · obtain ⟨hold, day, hle, hday⟩ := (h.stored r).mp (hexisting ▸ hr)
      have hend : day ≤ endDay := hle.trans h.upTo_le
      by_cases hearly : day < startDay
      · exact ⟨(h.agree r day hday hearly).mp hold, day, hend, hday⟩
      · exact ⟨hfetched r (hoverlap r hr day hday ⟨not_lt.mp hearly, hend⟩), day, hend, hday⟩
    · rw [hanswer] at hr
      obtain ⟨hr, hdated⟩ := List.mem_filter.mp hr
      obtain ⟨day, hwindow, hday⟩ := datedBetween_iff.mp hdated
      exact ⟨hr, day, hwindow.2, hday⟩
  · rintro ⟨hr, day, hend, hday⟩
    by_cases hearly : day < startDay
    · -- the stored bars reach into the window, so that they hold all days before it
      left
      obtain ⟨x, hx, hin⟩ := hasData_eq_true hpresent
      obtain ⟨-, last, hlast, hxday⟩ := (h.stored x).mp (hexisting ▸ hx)
      have hstart := ((inWindow_date hxday).mp hin).1
      rw [hexisting]
      have hbefore : day ≤ upTo := by omega
      exact (h.stored r).mpr ⟨(h.agree r day hday hearly).mpr hr, day, hbefore, hday⟩
    · right
      rw [hanswer]
      exact List.mem_filter.mpr ⟨hr, datedBetween_iff.mpr ⟨day, ⟨not_lt.mp hearly, hend⟩, hday⟩⟩

private theorem eq_of_sortKey {p : Pandas} {id : String} {rows : List Row}
    (hbars : Accepted dailyBarSchema "date" rows)
    (hsettled : ∀ r ∈ rows, Settled p (dailyBarDataset id) r) :
    ∀ r ∈ rows, ∀ r' ∈ rows, sortKey ["code", "date"] r = sortKey ["code", "date"] r' → r = r' := by
  intro r hr r' hr' hranks
  obtain ⟨hcode, hranks⟩ := List.cons.inj hranks
  obtain ⟨hdate, -⟩ := List.cons.inj hranks
  have hcodeField : (⟨"code", .string⟩ : Field) ∈ dailyBarSchema :=
    List.mem_cons_of_mem _ List.mem_cons_self
  have hdateField : (⟨"date", .date32⟩ : Field) ∈ dailyBarSchema := List.mem_cons_self
  have hcodes := eq_of_rank_eq ((hsettled r hr).accepts _ hcodeField)
    ((hsettled r' hr').accepts _ hcodeField) hcode
  have hdates := eq_of_rank_eq ((hsettled r hr).accepts _ hdateField)
    ((hsettled r' hr').accepts _ hdateField) hdate
  apply List.inj_on_of_nodup_map hbars.nodup hr hr'
  simp only [rowKey, List.map_cons, List.map_nil, hcodes, hdates]

private theorem mem_fullAnswer {out : Frame}
    (h : StoredHistory e.pandas w code P0 P1 startDay upTo endDay st)
    (hout : cleanDataframeForSchema e.pandas (P1.answer fullHistoryStartDate w.endDate)
      dailyBarSchema = .ok out) (r : Row) :
    r ∈ out.rows ↔ r ∈ P1.cleaned.rows ∧ ∃ day ≤ endDay, r "date" = .date day := by
  obtain ⟨out', hout', hrows⟩ := P1.clean_answer h.fullDate h.endDate
  obtain rfl := Except.ok.inj (hout'.symm.trans hout)
  rw [hrows, List.mem_filter, datedBetween_iff]
  constructor
  · rintro ⟨hr, day, hwindow, hday⟩
    exact ⟨hr, day, hwindow.2, hday⟩
  · rintro ⟨hr, day, hend, hday⟩
    obtain ⟨day', hday', hstart⟩ := P1.dated r hr
    rw [hday] at hday'
    obtain rfl := Cell.date.inj hday'
    exact ⟨hr, day, ⟨hstart, hend⟩, hday⟩

private theorem barsStored_of_merged {base : Frame} {st' : Store} (hst' : WellStored e.pandas st')
    (h : StoredHistory e.pandas w code P0 P1 startDay upTo endDay st)
    (hcolumns : base.columns = fieldNames dailyBarSchema)
    (hbase : ∀ r, r ∈ base.rows ↔ r ∈ P1.cleaned.rows ∧ ∃ day ≤ endDay, r "date" = .date day)
    (hstored : BarsStored e.pandas unadjustedDailyDataset code base st') :
    BarsStored e.pandas unadjustedDailyDataset code (P1.answer fullHistoryStartDate w.endDate)
      st' := by
  have wf := wellFormed_of_mem (dailyBar_mem unadjusted_mem)
  obtain ⟨coerced, hcoerced, hcontent⟩ := hstored
  rw [coercedFrame_dailyBar] at hcoerced
  obtain ⟨out, hout, hrows⟩ := P1.clean_answer h.fullDate h.endDate
  refine ⟨out, (coercedFrame_dailyBar _ _).trans hout, ?_⟩
  obtain ⟨hbars, -⟩ := content_bars hst' unadjusted_mem (strip code)
  have hsettled : ∀ r ∈ base.rows, Settled e.pandas (dailyBarDataset unadjustedDailyDataset) r :=
    fun r hr => P1.settled r ((hbase r).mp hr).1
  have hsame : coerced.rows = base.rows := by
    obtain ⟨dtype, hclean⟩ := @clean_of_settled e.pandas _ wf base hcolumns hsettled
    rw [Except.ok.inj (hcoerced.symm.trans hclean)]
  have hperm : coerced.rows.Perm out.rows := by
    have hnodup : coerced.rows.Nodup := by
      have hcontentNodup := List.Nodup.of_map _ hbars.nodup
      rw [hcontent] at hcontentNodup
      exact (stableSort_perm _ _).nodup_iff.mp hcontentNodup
    have hnodupOut : out.rows.Nodup := by
      rw [hrows]
      exact (List.Nodup.of_map _ P1.unique).filter _
    rw [List.perm_ext_iff_of_nodup hnodup hnodupOut]
    intro r
    rw [hsame, hbase, mem_fullAnswer h hout]
  rw [hcontent]
  apply stableSort_eq_of_perm hperm
  have hmem : ∀ r ∈ coerced.rows, r ∈ content st' (dailyBarDataset unadjustedDailyDataset)
      (strip code) := by
    intro r hr
    rw [hcontent]
    exact (stableSort_perm _ _).mem_iff.mpr hr
  have hranks := eq_of_sortKey hbars fun r hr =>
    (content_stored (hst' _ (dailyBar_mem unadjusted_mem) _) r hr).1
  exact fun r hr r' hr' => hranks r (hmem r hr) r' (hmem r' hr')

/-- A run of a code in the partial mode, at a provider that has the history. -/
def partialRun (e : DailyEnv) (adjustFlag : String → Except StoreError String) (w : DailyWorker)
    (code : String) (plans : List DailyTargetPlan) (P : ProviderHistory e.pandas) (st : Store) :
    List (Option (MetadataRow Cell)) × Store :=
  dailyCodeRun (e.withFrames adjustFlag) w code plans (some w.startDate)
    (.ok (P.answer w.startDate w.endDate))
    (fun request => .ok (P.answer request.startDate request.endDate)) st

end Refresh

/-! The provider has a third bar for a code with two stored bars. -/

/-- `pd.to_datetime` on the dates of the example. -/
def exampleDate : String → Option Int
  | "1990-01-01" => some fullHistoryStart
  | "2024-01-02" => some 19724
  | "2024-01-03" => some 19725
  | _ => none

def datingPandas : Pandas :=
  { Pandas.plain with
    toDatetime := fun
      | .text s => (exampleDate s).map (· * nsPerDay)
      | c => Pandas.plain.toDatetime c
    toDatetime_date := fun _ => rfl
    toDatetime_stamp := fun _ => rfl }

def barsOn (days : List Int) : Frame where
  columns := ["code", "date", "close"]
  dtype _ := .object
  rows := days.map fun day =>
    rowOf [("code", .text "sh.600000"), ("date", .date day), ("close", .real 10)]

private theorem typed_of_all {rows : List Row}
    (h : rows.all (fun r => dailyBarSchema.all fun field => field.type.accepts (r field.name)) = true) :
    ∀ r ∈ rows, ∀ field ∈ dailyBarSchema, field.type.accepts (r field.name) = true :=
  fun r hr => List.all_eq_true.mp (List.all_eq_true.mp h r hr)

private theorem dated_of_map {rows : List Row} {days : List Int}
    (h : rows.map (fun r => r "date") = days.map Cell.date) (hdays : ∀ day ∈ days, fullHistoryStart ≤ day) :
    ∀ r ∈ rows, ∃ day, r "date" = .date day ∧ fullHistoryStart ≤ day := by
  intro r hr
  have hmem : r "date" ∈ days.map Cell.date := h ▸ List.mem_map_of_mem hr
  obtain ⟨day, hday, heq⟩ := List.mem_map.mp hmem
  exact ⟨day, heq.symm, hdays day hday⟩

def cleanedBars (days : List Int) : Frame where
  columns := fieldNames dailyBarSchema
  dtype := cleanDtype (barsOn days) dailyBarSchema
  rows := (barsOn days).rows.map (cleanRow datingPandas (barsOn days) dailyBarSchema)

private theorem cleaned_bars {days : List Int}
    (h : checkAll (cleanFieldError datingPandas (barsOn days)) dailyBarSchema = .ok ()) :
    cleanDataframeForSchema datingPandas (barsOn days) dailyBarSchema = .ok (cleanedBars days) := by
  unfold cleanDataframeForSchema
  rw [h]
  rfl

/-- The history of 2024-01-01 and 2024-01-02. -/
def olderHistory : ProviderHistory datingPandas where
  frame := barsOn [19723, 19724]
  cleaned := cleanedBars [19723, 19724]
  coerces := cleaned_bars (by decide +kernel)
  typed := typed_of_all (by decide +kernel)
  dated := @dated_of_map _ [19723, 19724] (by decide +kernel) (by decide)
  unique := by decide +kernel

/-- The same with 2024-01-03. -/
def newerHistory : ProviderHistory datingPandas where
  frame := barsOn [19723, 19724, 19725]
  cleaned := cleanedBars [19723, 19724, 19725]
  coerces := cleaned_bars (by decide +kernel)
  typed := typed_of_all (by decide +kernel)
  dated := @dated_of_map _ [19723, 19724, 19725] (by decide +kernel) (by decide)
  unique := by decide +kernel

def datingEnv : DailyEnv := { failingEnv false with pandas := datingPandas }

def refreshWorker : DailyWorker :=
  ⟨"partial", "2024-01-02", "2024-01-03", fun _ => none, fun _ => []⟩

def storedCall : WriteCall :=
  ⟨.plain true, unadjustedDailyDataset, barsOn [19723, 19724], codePartition "sh.600000", none, false⟩

def twoBarsStored : Store := (callStep datingPandas .plain .empty storedCall).getD .empty

private theorem twoBarsStored_well : WellStored datingPandas twoBarsStored :=
  @wellStored_of_calls datingPandas .plain .empty twoBarsStored [storedCall] (fun _ _ => rfl) rfl

private theorem twoBars_content (r : Row) :
    r ∈ content twoBarsStored (dailyBarDataset unadjustedDailyDataset) "sh.600000" ↔
      r ∈ olderHistory.cleaned.rows := by
  have hreturned : (writeDataset datingPandas .plain (.plain true) unadjustedDailyDataset
      (barsOn [19723, 19724]) (codePartition "sh.600000") none false .empty).1.toOption.isSome =
      true := by decide +kernel
  have hstored : twoBarsStored = (writeDataset datingPandas .plain (.plain true)
      unadjustedDailyDataset (barsOn [19723, 19724]) (codePartition "sh.600000") none false
      .empty).2 := rfl
  rcases hwrite : writeDataset datingPandas .plain (.plain true) unadjustedDailyDataset
    (barsOn [19723, 19724]) (codePartition "sh.600000") none false .empty with ⟨result, st'⟩
  rw [hwrite] at hreturned hstored
  cases result with
  | error err => cases hreturned
  | ok result =>
    obtain ⟨-, -, coerced, hcoerced, hcontent⟩ :=
      @replacePartition_spec datingPandas .plain .empty st' "sh.600000"
        (dailyBarDataset unadjustedDailyDataset) _ _ result (dailyBar_mem unadjusted_mem) rfl rfl
        rfl rfl (fun _ _ _ _ hfile => nomatch hfile) hwrite
    rw [coercedFrame_dailyBar] at hcoerced
    obtain rfl := Except.ok.inj (olderHistory.coerces.symm.trans hcoerced)
    rw [sortValues_several (by change ["code", "date"].length ≠ 1; decide)] at hcontent
    have hname : strip "sh.600000" = "sh.600000" := by decide +kernel
    rw [hname] at hcontent
    rw [hstored, hcontent]
    exact (stableSort_perm _ _).mem_iff

private theorem mem_newerHistory (r : Row) : r ∈ newerHistory.cleaned.rows ↔
    r ∈ olderHistory.cleaned.rows ∨ r ∈ (cleanedBars [19725]).rows := by
  have hrows : newerHistory.cleaned.rows =
      olderHistory.cleaned.rows ++ (cleanedBars [19725]).rows := rfl
  rw [hrows, List.mem_append]

private theorem twoBars_history :
    StoredHistory datingPandas refreshWorker "sh.600000" olderHistory newerHistory
    19724 19724 19725 twoBarsStored where
  startDate := by decide +kernel
  endDate := by decide +kernel
  fullDate := by decide +kernel
  upTo_le := by decide
  stored r := by
    refine (twoBars_content r).trans ⟨fun hr => ⟨hr, ?_⟩, And.left⟩
    have hdays : olderHistory.cleaned.rows.map (fun r => r "date") =
        [.date 19723, .date 19724] := by decide +kernel
    have hmem : r "date" ∈ [Cell.date 19723, .date 19724] :=
      hdays ▸ List.mem_map_of_mem (f := fun r => r "date") hr
    rcases List.mem_cons.mp hmem with hday | hday
    · exact ⟨19723, by decide, hday⟩
    · exact ⟨19724, by decide, List.mem_singleton.mp hday⟩
  agree r day hday hlt := by
    refine ⟨fun hr => (mem_newerHistory r).mpr (Or.inl hr), fun hr => ?_⟩
    rcases (mem_newerHistory r).mp hr with hr | hr
    · exact hr
    · have hdays : (cleanedBars [19725]).rows.map (fun r => r "date") = [.date 19725] := by
        decide +kernel
      have hmem : r "date" ∈ [Cell.date 19725] :=
        hdays ▸ List.mem_map_of_mem (f := fun r => r "date") hr
      rw [hday, List.mem_singleton] at hmem
      exact absurd (Cell.date.inj hmem) (by omega)

end QuantDataCenter.Sources
