import QuantDataCenter.Sources.CalendarCoverage
import QuantDataCenter.Sources.QlibFeatures

/-!
The synchronisation of a Qlib source directory. A partition whose dates reach the last
day of the calendar is left as it is, any other symbol with features is rewritten, and
partitions of symbols the source does not have are removed.
-/

set_option autoImplicit false
set_option relaxedAutoImplicit false

namespace QuantDataCenter.Sources

open QuantDataCenter.Lib.Checked QuantDataCenter.Tabular QuantDataCenter.Storage

/-- What the environment does during a run: the writes, whether the deadline has passed when the
k-th symbol is reached, and whether a stored file can be read. -/
structure QlibEnv where
  calendar : WriteEnv
  membership : WriteEnv
  features : ℕ → WriteEnv
  expired : ℕ → Bool
  readable : String → Bool

def featuresDataset : String := qlibCnStockFeaturesDayDataset.id

section Sync

variable (p : Pandas) (h : Hashing) (env : QlibEnv)

/-- The stored dates of a file reach the day. -/
def reachesDate (rows : List Row) (day : Int) : Bool :=
  rows.any fun r => match r "date" with
    | .date stored => decide (day ≤ stored)
    | _ => false

/-- `_qlib_feature_partition_covers_date`: from the statistics of the file or from its rows. -/
def featurePartitionCoversDate (st : Store) (symbol : String) (day : Int) :
    Except StoreError Bool := do
  let value ← partitionValue p qlibCnStockFeaturesDayDataset (some [("qlib_symbol", .text symbol)])
  match st.files featuresDataset value with
  | none => .ok false
  | some rows => .ok (env.readable value && reachesDate rows day)

/-- The features of a symbol are loaded and, if there are any, stored. -/
def convertSymbol (k : ℕ) (dir : SymbolDir) (calendar : List Int) (st : Store) :
    Except StoreError Unit × Store :=
  match loadQlibSymbolFeatures p dir calendar with
  | .error e => (.error e, st)
  | .ok frame =>
    if frame.rows = [] then (.ok (), st)
    else
      let out := writeDataset p h (env.features k) featuresDataset frame
        (some [("qlib_symbol", .text (normalizeQlibSymbol p dir.name))]) none false st
      (out.1.map fun _ => (), out.2)

/-- `sync_one_symbol`. -/
def syncOneSymbol (k : ℕ) (dir : SymbolDir) (calendar : List Int) (st : Store) :
    Except StoreError Unit × Store :=
  if env.expired k then (.error .other, st)
  else match calendar.max? with
    | none => convertSymbol p h env k dir calendar st
    | some latest =>
      match featurePartitionCoversDate p env st (normalizeQlibSymbol p dir.name) latest with
      | .error e => (.error e, st)
      | .ok true => (.ok (), st)
      | .ok false => convertSymbol p h env k dir calendar st

/-- The symbols one after the other, up to the first error. -/
def syncSymbols (calendar : List Int) :
    ℕ → List SymbolDir → Store → Except StoreError Unit × Store
  | _, [], st => (.ok (), st)
  | k, dir :: dirs, st =>
    match syncOneSymbol p h env k dir calendar st with
    | (.error e, st') => (.error e, st')
    | (.ok (), st') => syncSymbols calendar (k + 1) dirs st'

/-- `_remove_stale_qlib_feature_partitions`. -/
def removeStalePartitions (expected : List String) (st : Store) : Store :=
  { st with files := fun dataset value =>
      if dataset = featuresDataset ∧ value ∉ expected then none else st.files dataset value }

def calendarFrame (calendar : List Int) : Frame :=
  ⟨["calendar_date"], fun _ => .object, calendar.map fun day => rowOf [("calendar_date", .date day)]⟩

/-- `sync_source_to_parquet`; `order` is the order in which the workers take the symbols, whose
partitions are independent of one another. -/
def syncSourceToParquet (source : QlibSource) (order : List SymbolDir → List SymbolDir)
    (st : Store) : Except StoreError Unit × Store :=
  match source.calendar with
  | .error e => (.error e, st)
  | .ok calendar =>
    match writeDataset p h env.calendar "qlib_cn_calendar_day" (calendarFrame calendar) none none
      false st with
    | (.error e, st1) => (.error e, st1)
    | (.ok _, st1) =>
      match source.instruments with
      | .error e => (.error e, st1)
      | .ok instruments =>
        match writeDataset p h env.membership "qlib_cn_instrument_membership" instruments none none
          false st1 with
        | (.error e, st2) => (.error e, st2)
        | (.ok _, st2) =>
          match source.features with
          | .error e => (.error e, st2)
          | .ok dirs =>
            match syncSymbols p h env calendar 0 (order dirs) st2 with
            | (.error e, st3) => (.error e, st3)
            | (.ok (), st3) =>
              if env.expired dirs.length then (.error .other, st3)
              else (.ok (), removeStalePartitions
                (dirs.map fun dir => normalizeQlibSymbol p dir.name) st3)

end Sync

/-! What a run leaves -/

section Result

variable (p : Pandas) (env : QlibEnv) (calendar : List Int)

/-- The partition can be read and its dates reach the last day of the calendar. -/
def Covers (st : Store) (value : String) : Prop :=
  ∃ latest ∈ calendar.max?, ∃ rows ∈ st.files featuresDataset value,
    env.readable value = true ∧ reachesDate rows latest = true

/-- The partition holds exactly the rows that are loaded from the directory, and there are some. -/
def HoldsFeatures (dir : SymbolDir) (content : Option (List Row)) : Prop :=
  ∃ frame rows, loadQlibSymbolFeatures p dir calendar = .ok frame ∧ frame.rows ≠ [] ∧
    content = some rows ∧ rows.Perm frame.rows

def symbolOf (dir : SymbolDir) : String := normalizeQlibSymbol p dir.name

def NoFeatures (dir : SymbolDir) : Prop :=
  ∃ frame, loadQlibSymbolFeatures p dir calendar = .ok frame ∧ frame.rows = []

/-- What is so of a partition once some directories are processed: it is as before, and those of
the directories that name it have no features or found it covered; or one of them wrote it. -/
def Processed (done : List SymbolDir) (st cur : Store) (value : String) : Prop :=
  (cur.files featuresDataset value = st.files featuresDataset value ∧
    ∀ dir ∈ done, strip (symbolOf p dir) = value →
      NoFeatures p calendar dir ∨ Covers env calendar st value) ∨
  (¬Covers env calendar st value ∧ ∃ dir ∈ done, symbolOf p dir = value ∧
    HoldsFeatures p calendar dir (cur.files featuresDataset value))

end Result

section Steps

variable {p : Pandas} {h : Hashing} {env : QlibEnv} {calendar : List Int} {st cur next : Store}
  {dir : SymbolDir} {k : ℕ}

private theorem partitionValue_symbol {symbol value : String}
    (hvalue : partitionValue p qlibCnStockFeaturesDayDataset
      (some [("qlib_symbol", .text symbol)]) = .ok value) : value = strip symbol := by
  have hcolumn : qlibCnStockFeaturesDayDataset.partitionColumn = some "qlib_symbol" := rfl
  simp only [partitionValue, hcolumn, if_true, normalizePartitionValue] at hvalue
  rw [if_neg fun hcode => absurd hcode.1 (by decide)] at hvalue
  split at hvalue
  · cases hvalue
  · exact (Except.ok.inj hvalue).symm

private theorem convertSymbol_cases
    (hstep : convertSymbol p h env k dir calendar cur = (.ok (), next)) :
    (next = cur ∧ NoFeatures p calendar dir) ∨
    (strip (symbolOf p dir) = symbolOf p dir ∧
      HoldsFeatures p calendar dir (next.files featuresDataset (symbolOf p dir)) ∧
      ∀ value, value ≠ symbolOf p dir →
        next.files featuresDataset value = cur.files featuresDataset value) := by
  unfold convertSymbol at hstep
  split at hstep
  case h_1 => cases hstep
  case h_2 frame hload =>
    split at hstep
    case isTrue hempty =>
      obtain ⟨-, rfl⟩ := Prod.mk.inj hstep
      exact Or.inl ⟨rfl, frame, hload, hempty⟩
    case isFalse hrows =>
      have hsymbol : normalizeQlibSymbol p dir.name = symbolOf p dir := rfl
      simp only [featuresDataset, hsymbol] at hstep ⊢
      obtain ⟨hresult, rfl⟩ := Prod.mk.inj hstep
      obtain ⟨result, hresult, -⟩ := map_eq_ok.mp hresult
      obtain ⟨value, coerced, hvalue, hcoerced, hin, hfile, hother⟩ :=
        @writeDataset_replaced p h qlibCnStockFeaturesDayDataset frame
          (some [("qlib_symbol", .text (symbolOf p dir))]) cur (env.features k) features_mem rfl rfl
          (by rw [hresult]; rfl)
      have hframe := featureFrame_of_load hload
      have hsame : coerced.rows = frame.rows := by
        rw [coercedFrame_rows hcoerced]
        exact (List.map_congr_left fun r hr => coercedRow_feature hframe hr).trans (List.map_id _)
      obtain ⟨r, hr⟩ := List.exists_mem_of_ne_nil _ hrows
      obtain ⟨_, _, _, hrow⟩ := hframe.rows r hr
      have hmem : r ∈ coerced.rows := by
        rw [hsame]
        exact hr
      have hcolumn : qlibCnStockFeaturesDayDataset.partitionColumn = some "qlib_symbol" := rfl
      obtain ⟨-, htext⟩ := hin r hmem "qlib_symbol" (by rw [hcolumn]; rfl)
      obtain rfl := partitionValue_symbol hvalue
      rw [hrow, featureRow_symbol, hsymbol] at htext
      simp only [Pandas.str] at htext
      rw [← htext] at hfile hother
      refine Or.inr ⟨htext.symm, ⟨frame, _, hload, hrows, hfile, ?_⟩, hother⟩
      rw [hsame]
      exact sortValues_perm _ _ _

theorem covers_iff {latest : Int} (hmax : calendar.max? = some latest) {symbol : String}
    {covered : Bool}
    (hcovers : featurePartitionCoversDate p env cur symbol latest = .ok covered) :
    covered = true ↔ Covers env calendar cur (strip symbol) := by
  obtain ⟨value, hvalue, hfile⟩ := bind_eq_ok.mp hcovers
  obtain rfl := partitionValue_symbol hvalue
  unfold Covers
  rw [hmax]
  cases hrows : cur.files featuresDataset (strip symbol) with
  | none =>
    simp only [hrows] at hfile
    obtain rfl := Except.ok.inj hfile
    simp
  | some rows =>
    simp only [hrows] at hfile
    obtain rfl := Except.ok.inj hfile
    simp

private theorem syncOneSymbol_cases
    (hstep : syncOneSymbol p h env k dir calendar cur = (.ok (), next)) :
    (next = cur ∧ (NoFeatures p calendar dir ∨ Covers env calendar cur (strip (symbolOf p dir)))) ∨
    (strip (symbolOf p dir) = symbolOf p dir ∧ ¬Covers env calendar cur (symbolOf p dir) ∧
      HoldsFeatures p calendar dir (next.files featuresDataset (symbolOf p dir)) ∧
      ∀ value, value ≠ symbolOf p dir →
        next.files featuresDataset value = cur.files featuresDataset value) := by
  have hsplit : (next = cur ∧ Covers env calendar cur (strip (symbolOf p dir))) ∨
      (¬Covers env calendar cur (strip (symbolOf p dir)) ∧
        convertSymbol p h env k dir calendar cur = (.ok (), next)) := by
    unfold syncOneSymbol at hstep
    split at hstep
    case isTrue => cases hstep
    case isFalse =>
      split at hstep
      case h_1 hmax =>
        refine Or.inr ⟨?_, hstep⟩
        rintro ⟨latest, hlatest, -⟩
        rw [hmax] at hlatest
        cases hlatest
      case h_2 latest hmax =>
        split at hstep
        case h_1 => cases hstep
        case h_2 hcovers =>
          obtain ⟨-, rfl⟩ := Prod.mk.inj hstep
          exact Or.inl ⟨rfl, (covers_iff hmax hcovers).mp rfl⟩
        case h_3 hcovers =>
          refine Or.inr ⟨fun hcov => ?_, hstep⟩
          have htrue := (covers_iff hmax hcovers).mpr hcov
          cases htrue
  rcases hsplit with ⟨heq, hcovers⟩ | ⟨hnot, hconvert⟩
  · exact Or.inl ⟨heq, Or.inr hcovers⟩
  · rcases convertSymbol_cases hconvert with ⟨heq, hnone⟩ | ⟨hstrip, hholds, hother⟩
    · exact Or.inl ⟨heq, Or.inl hnone⟩
    · rw [hstrip] at hnot
      exact Or.inr ⟨hstrip, hnot, hholds, hother⟩

private theorem covers_congr {value : String}
    (hfiles : cur.files featuresDataset value = st.files featuresDataset value) :
    Covers env calendar cur value ↔ Covers env calendar st value := by
  unfold Covers
  rw [hfiles]

private theorem processed_step {done : List SymbolDir} {value : String}
    (hinv : ∀ value, Processed p env calendar done st cur value)
    (hstep : syncOneSymbol p h env k dir calendar cur = (.ok (), next)) :
    Processed p env calendar (done ++ [dir]) st next value := by
  rcases syncOneSymbol_cases hstep with ⟨rfl, hskipped⟩ | ⟨hstrip, hnot, hholds, hother⟩
  · rcases hinv value with ⟨hfiles, hdone⟩ | ⟨huncovered, dir', hdir', hrest⟩
    · refine Or.inl ⟨hfiles, fun dir' hdir' hvalue => ?_⟩
      rcases List.mem_append.mp hdir' with hdir' | hdir'
      · exact hdone dir' hdir' hvalue
      · rw [List.mem_singleton.mp hdir'] at hvalue ⊢
        rcases hskipped with hnone | hcovers
        · exact Or.inl hnone
        · rw [hvalue] at hcovers
          exact Or.inr ((covers_congr hfiles).mp hcovers)
    · exact Or.inr ⟨huncovered, dir', List.mem_append_left _ hdir', hrest⟩
  · by_cases hvalue : value = symbolOf p dir
    · -- the partition that is written was not covered at first, or one of the symbol wrote it
      refine Or.inr ⟨?_, dir, List.mem_append_right _ List.mem_cons_self, hvalue.symm, ?_⟩
      · rcases hinv value with ⟨hfiles, -⟩ | ⟨huncovered, -⟩
        · rw [← covers_congr hfiles, hvalue]
          exact hnot
        · exact huncovered
      · rw [hvalue]
        exact hholds
    · rcases hinv value with ⟨hfiles, hdone⟩ | ⟨huncovered, dir', hdir', hsymbol, hcontent⟩
      · refine Or.inl ⟨(hother value hvalue).trans hfiles, fun dir' hdir' hname => ?_⟩
        rcases List.mem_append.mp hdir' with hdir' | hdir'
        · exact hdone dir' hdir' hname
        · rw [List.mem_singleton.mp hdir', hstrip] at hname
          exact absurd hname.symm hvalue
      · refine Or.inr ⟨huncovered, dir', List.mem_append_left _ hdir', hsymbol, ?_⟩
        rw [hother value hvalue]
        exact hcontent

private theorem processed_run {done dirs : List SymbolDir}
    (hinv : ∀ value, Processed p env calendar done st cur value)
    (hrun : syncSymbols p h env calendar k dirs cur = (.ok (), next)) (value : String) :
    Processed p env calendar (done ++ dirs) st next value := by
  induction dirs generalizing done k cur with
  | nil =>
    obtain ⟨-, rfl⟩ := Prod.mk.inj hrun
    rw [List.append_nil]
    exact hinv value
  | cons dir dirs ih =>
    unfold syncSymbols at hrun
    split at hrun
    case h_1 => cases hrun
    case h_2 st' hstep =>
      have hnext := @ih st' (k + 1) (done ++ [dir]) (fun value => processed_step hinv hstep) hrun
      rwa [List.append_assoc] at hnext

end Steps

section Whole

variable {p : Pandas} {h : Hashing} {env : QlibEnv} {st st' : Store} {source : QlibSource}
  {order : List SymbolDir → List SymbolDir}

/-- The partitions after a run: those of symbols of the source only; the covered ones as they
were; every other symbol with features holds them (where two directories have one symbol, those
of one of the two); and none is created for another reason. -/
structure SyncedFeatures (p : Pandas) (env : QlibEnv) (calendar : List Int) (dirs : List SymbolDir)
    (st st' : Store) : Prop where
  listed : ∀ value, st'.files featuresDataset value ≠ none → ∃ dir ∈ dirs, symbolOf p dir = value
  covered : ∀ dir ∈ dirs, Covers env calendar st (symbolOf p dir) →
    st'.files featuresDataset (symbolOf p dir) = st.files featuresDataset (symbolOf p dir)
  rewritten : ∀ dir ∈ dirs, ¬NoFeatures p calendar dir →
    ¬Covers env calendar st (strip (symbolOf p dir)) →
    ∃ dir' ∈ dirs, symbolOf p dir' = strip (symbolOf p dir) ∧
      HoldsFeatures p calendar dir' (st'.files featuresDataset (strip (symbolOf p dir)))
  created : ∀ value, st.files featuresDataset value = none →
    st'.files featuresDataset value ≠ none → ∃ dir ∈ dirs, symbolOf p dir = value ∧
      HoldsFeatures p calendar dir (st'.files featuresDataset value)

private theorem removeStale_files {dirs : List SymbolDir} {value : String} :
    (removeStalePartitions (dirs.map fun dir => normalizeQlibSymbol p dir.name) st).files
      featuresDataset value =
      if ∃ dir ∈ dirs, symbolOf p dir = value then st.files featuresDataset value else none := by
  have hmem : value ∈ dirs.map (fun dir => normalizeQlibSymbol p dir.name) ↔
      ∃ dir ∈ dirs, symbolOf p dir = value := List.mem_map
  unfold removeStalePartitions
  simp only [true_and, hmem]
  by_cases hlisted : ∃ dir ∈ dirs, symbolOf p dir = value
  · rw [if_neg (not_not.mpr hlisted), if_pos hlisted]
  · rw [if_pos hlisted, if_neg hlisted]

/-- A run that returns has written the calendar and the membership, gone through all symbols and
removed the stale partitions. -/
private theorem syncSource_returned
    (hreturned : syncSourceToParquet p h env source order st = (.ok (), st')) :
    ∃ calendar dirs st2 st3, source.calendar = .ok calendar ∧ source.features = .ok dirs ∧
      (∀ value, st2.files featuresDataset value = st.files featuresDataset value) ∧
      syncSymbols p h env calendar 0 (order dirs) st2 = (.ok (), st3) ∧
      st' = removeStalePartitions (dirs.map fun dir => normalizeQlibSymbol p dir.name) st3 := by
  unfold syncSourceToParquet at hreturned
  split at hreturned
  case h_1 => cases hreturned
  case h_2 calendar hcalendar =>
    split at hreturned
    case h_1 => cases hreturned
    case h_2 _ st1 hcalendarWrite =>
      split at hreturned
      case h_1 => cases hreturned
      case h_2 instruments _ =>
        split at hreturned
        case h_1 => cases hreturned
        case h_2 _ st2 hmembershipWrite =>
          split at hreturned
          case h_1 => cases hreturned
          case h_2 dirs hdirs =>
            split at hreturned
            case h_1 => cases hreturned
            case h_2 st3 hrun =>
              split at hreturned
              case isTrue => cases hreturned
              case isFalse =>
                obtain ⟨-, rfl⟩ := Prod.mk.inj hreturned
                refine ⟨calendar, dirs, st2, st3, hcalendar, hdirs, fun value => ?_, hrun, rfl⟩
                have hfirst := @writeDataset_files_of_ne p h env.calendar "qlib_cn_calendar_day"
                  featuresDataset (calendarFrame calendar) none none false st (by decide) value
                have hsecond := @writeDataset_files_of_ne p h env.membership
                  "qlib_cn_instrument_membership" featuresDataset instruments none none false st1
                  (by decide) value
                rw [hcalendarWrite] at hfirst
                rw [hmembershipWrite] at hsecond
                exact hsecond.trans hfirst

/-- Once all directories are processed and the stale partitions removed, the rest is in sync. -/
private theorem synced_of_processed {calendar : List Int} {dirs done : List SymbolDir} {st3 : Store}
    (hdone : ∀ dir, dir ∈ done ↔ dir ∈ dirs)
    (hall : ∀ value, Processed p env calendar done st st3 value) :
    SyncedFeatures p env calendar dirs st
      (removeStalePartitions (dirs.map fun dir => normalizeQlibSymbol p dir.name) st3) := by
  have hkept : ∀ dir ∈ dirs, (removeStalePartitions (dirs.map fun dir =>
      normalizeQlibSymbol p dir.name) st3).files featuresDataset (symbolOf p dir) =
        st3.files featuresDataset (symbolOf p dir) := by
    intro dir hdir
    rw [removeStale_files, if_pos ⟨dir, hdir, rfl⟩]
  have hlisted : ∀ value, (removeStalePartitions (dirs.map fun dir =>
      normalizeQlibSymbol p dir.name) st3).files featuresDataset value ≠ none →
        ∃ dir ∈ dirs, symbolOf p dir = value := by
    intro value hvalue
    by_contra hnone
    rw [removeStale_files, if_neg hnone] at hvalue
    exact hvalue rfl
  refine ⟨hlisted, ?_, ?_, ?_⟩
  · intro dir hdir hcovers
    rw [hkept dir hdir]
    rcases hall (symbolOf p dir) with ⟨hfiles, -⟩ | ⟨hnot, -⟩
    · exact hfiles
    · exact absurd hcovers hnot
  · intro dir hdir hfeatures hnot
    rcases hall (strip (symbolOf p dir)) with ⟨-, hprocessed⟩ | ⟨-, dir', hdir', hsymbol, hholds⟩
    · rcases hprocessed dir ((hdone dir).mpr hdir) rfl with hnone | hcovers
      · exact absurd hnone hfeatures
      · exact absurd hcovers hnot
    · refine ⟨dir', (hdone dir').mp hdir', hsymbol, ?_⟩
      rw [← hsymbol, hkept dir' ((hdone dir').mp hdir'), hsymbol]
      exact hholds
  · intro value hbefore hafter
    obtain ⟨dir, hdir, rfl⟩ := hlisted value hafter
    rw [hkept dir hdir] at hafter ⊢
    rcases hall (symbolOf p dir) with ⟨hfiles, -⟩ | ⟨-, dir', hdir', hsymbol, hholds⟩
    · rw [hfiles] at hafter
      exact absurd hbefore hafter
    · exact ⟨dir', (hdone dir').mp hdir', hsymbol, hholds⟩

/-- What a run that returns leaves of the features, whatever was stored. -/
theorem qlib_sync_result (horder : ∀ dirs, (order dirs).Perm dirs)
    (hreturned : syncSourceToParquet p h env source order st = (.ok (), st')) :
    ∃ calendar dirs, source.calendar = .ok calendar ∧ source.features = .ok dirs ∧
      SyncedFeatures p env calendar dirs st st' := by
  obtain ⟨calendar, dirs, st2, st3, hcalendar, hdirs, hfiles, hrun, rfl⟩ :=
    syncSource_returned hreturned
  refine ⟨calendar, dirs, hcalendar, hdirs, ?_⟩
  have hstart : ∀ value, Processed p env calendar [] st st2 value :=
    fun value => Or.inl ⟨hfiles value, fun dir hdir => absurd hdir List.not_mem_nil⟩
  refine synced_of_processed (fun dir => ?_) fun value => processed_run hstart hrun value
  rw [List.nil_append]
  exact (horder dirs).mem_iff

end Whole

/-! A symbol whose stored rows reach the last day although its history was revised, and one that
has become empty. -/

def closeDir (name : String) (closes : List (Option ℚ)) : SymbolDir where
  name := name
  bins field := if field = "close" ∧ closes ≠ [] then some (.ok (some 0 :: closes)) else none

def qlibSourceOf (dirs : List SymbolDir) : QlibSource where
  calendar := .ok [19724, 19725]
  instruments := .ok ⟨["universe"], fun _ => .object, []⟩
  features := .ok dirs

def QlibEnv.plain : QlibEnv where
  calendar := .plain true
  membership := .plain true
  features _ := .plain true
  expired _ := false
  readable _ := true

def revisedDirs : List SymbolDir := [closeDir "SH600000" [some 9, some 9], closeDir "sz000001" []]

/-- The store after a run over a source with both symbols. -/
def syncedBefore : Store :=
  (syncSourceToParquet .plain .plain .plain
    (qlibSourceOf [closeDir "SH600000" [some 8, some 8], closeDir "sz000001" [some 7, none]]) id .empty).2

def revisedRun : Except StoreError Unit × Store :=
  syncSourceToParquet .plain .plain .plain (qlibSourceOf revisedDirs) id syncedBefore

private theorem revisedRun_returned : revisedRun = (.ok (), revisedRun.2) := by
  have hok : revisedRun.1 = .ok () := by decide +kernel
  rw [← hok]

theorem revised_features_synced :
    ∃ calendar dirs, (qlibSourceOf revisedDirs).calendar = .ok calendar ∧
      (qlibSourceOf revisedDirs).features = .ok dirs ∧
      SyncedFeatures .plain .plain calendar dirs syncedBefore revisedRun.2 :=
  qlib_sync_result (fun _ => List.Perm.refl _) revisedRun_returned

/-- The partitions are those of the symbols with features, and hold them. -/
structure ExactSync (p : Pandas) (calendar : List Int) (dirs : List SymbolDir) (st' : Store) :
    Prop where
  partitions : ∀ value, st'.files featuresDataset value ≠ none ↔
    ∃ dir ∈ dirs, symbolOf p dir = value ∧ ¬NoFeatures p calendar dir
  rows : ∀ dir ∈ dirs, ¬NoFeatures p calendar dir →
    HoldsFeatures p calendar dir (st'.files featuresDataset (symbolOf p dir))

private theorem not_holdsFeatures {p : Pandas} {calendar : List Int} {dir : SymbolDir}
    {content : Option (List Row)} {stored loaded : List Cell}
    (hstored : content.map (fun rows => rows.map fun r => r "close") = some stored)
    (hloaded : (loadQlibSymbolFeatures p dir calendar).toOption.map
      (fun frame => frame.rows.map fun r => r "close") = some loaded)
    (hdiffer : ¬stored.Perm loaded) : ¬HoldsFeatures p calendar dir content := by
  rintro ⟨frame, rows, hload, -, rfl, hperm⟩
  rw [hload] at hloaded
  apply hdiffer
  rw [← Option.some.inj hstored, ← Option.some.inj hloaded]
  exact hperm.map _

/-- The revised history is not stored, and the partition of the empty symbol stays. -/
theorem stale_features_survive :
    revisedRun.1 = .ok () ∧ ¬ExactSync .plain [19724, 19725] revisedDirs revisedRun.2 ∧
      ¬HoldsFeatures .plain [19724, 19725] (closeDir "SH600000" [some 9, some 9])
        (revisedRun.2.files featuresDataset "sh600000") ∧
      NoFeatures .plain [19724, 19725] (closeDir "sz000001" []) ∧
      (revisedRun.2.files featuresDataset "sz000001").isSome = true := by
  have hrevised : ¬HoldsFeatures .plain [19724, 19725] (closeDir "SH600000" [some 9, some 9])
      (revisedRun.2.files featuresDataset "sh600000") :=
    @not_holdsFeatures _ _ _ _ [.real 8, .real 8] [.real 9, .real 9] (by decide +kernel)
      (by decide +kernel) (by decide)
  have hfeatures : ¬NoFeatures .plain [19724, 19725] (closeDir "SH600000" [some 9, some 9]) := by
    rintro ⟨frame, hload, hempty⟩
    have hloaded : (loadQlibSymbolFeatures .plain (closeDir "SH600000" [some 9, some 9])
        [19724, 19725]).toOption.map (fun frame => frame.rows.length) = some 2 := by decide +kernel
    rw [hload] at hloaded
    have hlength : frame.rows.length = 2 := Option.some.inj hloaded
    rw [hempty] at hlength
    cases hlength
  refine ⟨congrArg Prod.fst revisedRun_returned, fun hexact => hrevised ?_, hrevised, ⟨_, rfl, by decide +kernel⟩,
    by decide +kernel⟩
  have hholds := hexact.rows (closeDir "SH600000" [some 9, some 9]) List.mem_cons_self hfeatures
  rwa [show symbolOf .plain (closeDir "SH600000" [some 9, some 9]) = "sh600000" by decide +kernel]
    at hholds

end QuantDataCenter.Sources
