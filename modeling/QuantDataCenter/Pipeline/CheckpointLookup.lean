import QuantDataCenter.Storage.MetadataUpsert

/-!
The checkpoint of a task (`should_skip_checkpoint`): the index that a run builds of
the stored checkpoints, and the two questions asked of it or of the table.
-/

set_option autoImplicit false
set_option relaxedAutoImplicit false

namespace QuantDataCenter.Pipeline

open QuantDataCenter.Lib
open QuantDataCenter.Lib.Keyed
open QuantDataCenter.Tabular
open QuantDataCenter.Storage.Metadata

structure CheckpointKey where
  pipeline : String
  dataset : String
  code : String
  startDate : String
  endDate : String
  deriving DecidableEq, Repr

/-- `pd.to_datetime(..., errors="coerce").dt.strftime("%Y-%m-%d")` on a stored date. -/
def dateKey (p : Pandas) : Cell → Option String
  | .null => none
  | c => (p.toDatetime c).map fun ns => p.repr (.date (ns / nsPerDay))

/-- `str` of a cell that a row of the frame gives. -/
def strCell (p : Pandas) : Cell → String
  | .null => "None"
  | c => p.str c

/-- The key of a stored row, when both dates are present. -/
def lookupKey (p : Pandas) (row : Row) : Option CheckpointKey :=
  (dateKey p (row "start_date")).bind fun startKey =>
    (dateKey p (row "end_date")).map fun endKey =>
      ⟨strCell p (row "pipeline"), strCell p (row "dataset"), strCell p (row "code"), startKey, endKey⟩

def rowStatus (p : Pandas) (row : Row) : String := strCell p (row "status")

/-- The order of `sort_values` on `updated_at`, missing times first or last. -/
abbrev UpdatedRank := ℕ ×ₗ ℤ

def updatedRank (missing : ℕ) (row : Row) : UpdatedRank :=
  match row "updated_at" with
  | .stamp ns => toLex (1, ns)
  | _ => toLex (missing, 0)

/-- What a run reads checkpoints with; rows of one time may be sorted in any order. -/
structure CheckpointEnv extends SeriesReader where
  missingFirst : Sorter (updatedRank 0)
  missingLast : Sorter (updatedRank 2)

/-- `PipelineCheckpointLookup`: of two rows with one key the later one counts. -/
structure CheckpointLookup where
  pipelineStatus : Dict CheckpointKey String
  dateStatus : Dict (String × String × String × String) String

namespace CheckpointLookup

def note (p : Pandas) (lookup : CheckpointLookup) (row : Row) : CheckpointLookup where
  pipelineStatus :=
    match lookupKey p row with
    | none => lookup.pipelineStatus
    | some key => Dict.set key (rowStatus p row) lookup.pipelineStatus
  dateStatus :=
    match dateKey p (row "end_date") with
    | none => lookup.dateStatus
    | some endKey => Dict.set
        (strCell p (row "pipeline"), strCell p (row "dataset"), strCell p (row "code"), endKey)
        (rowStatus p row) lookup.dateStatus

def ofRows (e : CheckpointEnv) (checkpoints : List Row) : CheckpointLookup :=
  (e.missingFirst.sort checkpoints).foldl (note e.toPandas) ⟨[], []⟩

def pipelineCheckpointSucceeded (lookup : CheckpointLookup) (key : CheckpointKey)
    (outputExists : Bool) : Bool :=
  outputExists && Dict.get key lookup.pipelineStatus == some "success"

def checkpointSucceededForDate (lookup : CheckpointLookup) (key : CheckpointKey)
    (outputExists : Bool) : Bool :=
  outputExists &&
    Dict.get (key.pipeline, key.dataset, key.code, key.endDate) lookup.dateStatus == some "success"

end CheckpointLookup

/-! The same questions asked of the table -/

/-- A text column compared with a text; a missing value equals nothing. -/
def textIs (p : Pandas) (c : Cell) (s : String) : Bool := c ≠ .null && p.str c == s

def matchesDate (p : Pandas) (key : CheckpointKey) (row : Row) : Bool :=
  textIs p (row "pipeline") key.pipeline && textIs p (row "dataset") key.dataset &&
    textIs p (row "code") key.code && dateKey p (row "end_date") == some key.endDate

def matchesPipeline (p : Pandas) (key : CheckpointKey) (row : Row) : Bool :=
  matchesDate p key row && dateKey p (row "start_date") == some key.startDate

/-- The row that `sort_values("updated_at").iloc[-1]` gives says success. -/
def latestSucceeded (e : CheckpointEnv) (found : List Row) : Bool :=
  (e.missingLast.sort found).getLast?.map (rowStatus e.toPandas) == some "success"

def pipelineCheckpointSucceeded (e : CheckpointEnv) (checkpoints : List Row) (key : CheckpointKey)
    (outputExists : Bool) : Bool :=
  outputExists && latestSucceeded e (checkpoints.filter (matchesPipeline e.toPandas key))

def checkpointSucceededForDate (e : CheckpointEnv) (checkpoints : List Row) (key : CheckpointKey)
    (outputExists : Bool) : Bool :=
  outputExists && latestSucceeded e (checkpoints.filter (matchesDate e.toPandas key))

/-- `should_skip_checkpoint`. -/
def shouldSkipCheckpoint (e : CheckpointEnv) (checkpoints : List Row) (key : CheckpointKey)
    (outputExists resume force : Bool) (lookup : Option CheckpointLookup) : Bool :=
  if force || !resume then false
  else match lookup with
    | some lookup => lookup.pipelineCheckpointSucceeded key outputExists ||
        lookup.checkpointSucceededForDate key outputExists
    | none => pipelineCheckpointSucceeded e checkpoints key outputExists ||
        checkpointSucceededForDate e checkpoints key outputExists

/-! A key that stands as a success -/

/-- A checkpoint of the key is stored, and what is stored of it says success. -/
structure Succeeded (p : Pandas) (checkpoints : List Row) (key : CheckpointKey) : Prop where
  stored : ∃ row ∈ checkpoints, matchesPipeline p key row = true
  success : ∀ row ∈ checkpoints, lookupKey p row = some key → rowStatus p row = "success"

section Lookup

variable {e : CheckpointEnv} {checkpoints : List Row} {key : CheckpointKey}

theorem strCell_of_textIs {p : Pandas} {c : Cell} {s : String} (h : textIs p c s = true) :
    strCell p c = s := by
  unfold textIs at h
  simp only [ne_eq, decide_not, Bool.and_eq_true, Bool.not_eq_true', decide_eq_false_iff_not,
    beq_iff_eq] at h
  unfold strCell
  split
  · exact absurd rfl h.1
  · exact h.2

theorem lookupKey_of_matches {p : Pandas} {row : Row}
    (h : matchesPipeline p key row = true) :
    lookupKey p row = some key := by
  unfold matchesPipeline matchesDate at h
  simp only [Bool.and_eq_true, beq_iff_eq] at h
  obtain ⟨⟨⟨⟨hpipeline, hdataset⟩, hcode⟩, hend⟩, hstart⟩ := h
  unfold lookupKey
  rw [hstart, hend, strCell_of_textIs hpipeline, strCell_of_textIs hdataset, strCell_of_textIs hcode]
  rfl

private theorem get_foldl_note {p : Pandas} (rows : List Row) (lookup : CheckpointLookup)
    (hsuccess : ∀ row ∈ rows, lookupKey p row = some key → rowStatus p row = "success")
    (hfound : (∃ row ∈ rows, lookupKey p row = some key) ∨
      Dict.get key lookup.pipelineStatus = some "success") :
    Dict.get key (rows.foldl (CheckpointLookup.note p) lookup).pipelineStatus = some "success" := by
  induction rows generalizing lookup with
  | nil =>
    rcases hfound with ⟨row, hrow, -⟩ | hget
    · cases hrow
    · exact hget
  | cons row rows ih =>
    refine ih (lookup.note p row) (fun later hlater => hsuccess later (List.mem_cons_of_mem _ hlater)) ?_
    cases hkey : lookupKey p row with
    | none =>
      rcases hfound with ⟨row', hrow', hkey'⟩ | hget
      · rcases List.mem_cons.mp hrow' with rfl | hmem
        · rw [hkey] at hkey'
          cases hkey'
        · exact Or.inl ⟨row', hmem, hkey'⟩
      · refine Or.inr ?_
        simp only [CheckpointLookup.note, hkey]
        exact hget
    | some other =>
      by_cases heq : other = key
      · refine Or.inr ?_
        have hrow := hsuccess row List.mem_cons_self (heq ▸ hkey)
        simp only [CheckpointLookup.note, hkey, heq, Dict.get_set_self, hrow]
      · rcases hfound with ⟨row', hrow', hkey'⟩ | hget
        · rcases List.mem_cons.mp hrow' with rfl | hmem
          · rw [hkey] at hkey'
            exact absurd (Option.some.inj hkey') heq
          · exact Or.inl ⟨row', hmem, hkey'⟩
        · refine Or.inr ?_
          simp only [CheckpointLookup.note, hkey, Dict.get_set_of_ne (Ne.symm heq)]
          exact hget

private theorem lookup_of_succeeded (h : Succeeded e.toPandas checkpoints key) :
    (CheckpointLookup.ofRows e checkpoints).pipelineCheckpointSucceeded key true = true := by
  obtain ⟨row, hrow, hmatches⟩ := h.stored
  have hget := get_foldl_note (e.missingFirst.sort checkpoints) ⟨[], []⟩
    (fun other hother => h.success other ((e.missingFirst.perm _).mem_iff.mp hother))
    (Or.inl ⟨row, (e.missingFirst.perm _).mem_iff.mpr hrow, lookupKey_of_matches hmatches⟩)
  unfold CheckpointLookup.pipelineCheckpointSucceeded CheckpointLookup.ofRows
  rw [hget]
  rfl

private theorem stored_of_succeeded (h : Succeeded e.toPandas checkpoints key) :
    pipelineCheckpointSucceeded e checkpoints key true = true := by
  obtain ⟨row, hrow, hmatches⟩ := h.stored
  have hfound : row ∈ checkpoints.filter (matchesPipeline e.toPandas key) :=
    List.mem_filter.mpr ⟨hrow, hmatches⟩
  have hperm := e.missingLast.perm (checkpoints.filter (matchesPipeline e.toPandas key))
  have hne : e.missingLast.sort (checkpoints.filter (matchesPipeline e.toPandas key)) ≠ [] :=
    List.ne_nil_of_mem (hperm.mem_iff.mpr hfound)
  obtain ⟨last, hlast⟩ : ∃ last, (e.missingLast.sort
      (checkpoints.filter (matchesPipeline e.toPandas key))).getLast? = some last :=
    ⟨_, List.getLast?_eq_getLast_of_ne_nil hne⟩
  obtain ⟨hmem, hlastMatches⟩ := List.mem_filter.mp (hperm.mem_iff.mp (List.mem_of_getLast? hlast))
  unfold pipelineCheckpointSucceeded latestSucceeded
  rw [hlast, Option.map_some, h.success last hmem (lookupKey_of_matches hlastMatches)]
  rfl

theorem shouldSkip_of_succeeded (h : Succeeded e.toPandas checkpoints key)
    {lookup : Option CheckpointLookup}
    (hlookup : lookup = none ∨ lookup = some (CheckpointLookup.ofRows e checkpoints)) :
    shouldSkipCheckpoint e checkpoints key true true false lookup = true := by
  unfold shouldSkipCheckpoint
  rw [if_neg (by decide)]
  rcases hlookup with rfl | rfl
  · simp only [stored_of_succeeded h, Bool.true_or]
  · simp only [lookup_of_succeeded h, Bool.true_or]

/-! What a metadata call leaves of a key -/

private theorem lookupKey_congr {p : Pandas} {row row' : Row}
    (h : rowKey KeyedTable.pipelineCheckpoints.keyColumns row =
      rowKey KeyedTable.pipelineCheckpoints.keyColumns row') : lookupKey p row = lookupKey p row' := by
  have hcells := List.map_inj_left.mp h
  unfold lookupKey
  rw [hcells "pipeline" (by decide), hcells "dataset" (by decide), hcells "code" (by decide),
    hcells "start_date" (by decide), hcells "end_date" (by decide)]

/-- The call has no row for the key. -/
def Elsewhere (r : SeriesReader) (key : CheckpointKey) (call : MetadataCall) : Prop :=
  ∀ row ∈ call.incoming r .pipelineCheckpoints, lookupKey r.toPandas row ≠ some key

private theorem succeeded_upsertRows {p : Pandas} {stored incoming : List Row}
    (h : Succeeded p stored key)
    (hincoming : ∀ row ∈ incoming, lookupKey p row ≠ some key) :
    Succeeded p (upsertRows KeyedTable.pipelineCheckpoints.keyColumns stored incoming) key := by
  obtain ⟨row, hrow, hmatches⟩ := h.stored
  constructor
  · refine ⟨row, List.mem_append_left _ (List.mem_filter.mpr ⟨hrow, ?_⟩), hmatches⟩
    rw [Bool.not_eq_true', List.any_eq_false]
    intro new hnew hall
    refine hincoming new hnew ?_
    rw [lookupKey_congr (all_sqlEq_iff new row |>.mp hall).1]
    exact lookupKey_of_matches hmatches
  · intro other hother hkey
    rcases List.mem_append.mp hother with hold | hnew
    · exact h.success other (List.mem_of_mem_filter hold) hkey
    · exact absurd hkey (hincoming other hnew)

theorem succeeded_next {r : SeriesReader} {tables : Tables} {step : CallStep}
    (h : Succeeded r.toPandas (tables.keyed .pipelineCheckpoints) key)
    (helsewhere : Elsewhere r key step.call) :
    Succeeded r.toPandas ((tables.next r step).keyed .pipelineCheckpoints) key := by
  obtain ⟨hraised, hreturned⟩ := run_spec r step.conditions tables step.call
  cases hrun : (step.call.run r step.conditions tables).1 with
  | false =>
    have hsame : tables.next r step = tables := hraised hrun
    rw [hsame]
    exact h
  | true =>
    have hkeyed : (tables.next r step).keyed .pipelineCheckpoints = _ := hreturned hrun _
    rw [hkeyed]
    exact succeeded_upsertRows h helsewhere

end Lookup

end QuantDataCenter.Pipeline
