import QuantDataCenter.Lib.Checked
import QuantDataCenter.Lib.Keyed
import QuantDataCenter.Lib.Trace
import QuantDataCenter.Pipeline.LifecycleRows
import QuantDataCenter.Storage.MetadataStore

/-!
The metadata tables over a run of calls: one row for each key as long as no row
with a null in its key meets a stored one, since a null equals nothing in SQL.
-/

set_option autoImplicit false
set_option relaxedAutoImplicit false

namespace QuantDataCenter.Storage.Metadata

open QuantDataCenter.Lib
open QuantDataCenter.Lib.Keyed
open QuantDataCenter.Tabular

/-! Transactions -/

section Transactions

variable (raises : ℕ → Bool)

private theorem executeAll_statements (statements : List Statement) (n : ℕ) (conn : Connection) :
    let result := executeAll raises n (statements.map .statement) conn
    result.2.committed = conn.committed ∧ (result.1 = true →
      result.2.working = conn.working.map fun tables => statements.foldl Statement.apply tables) := by
  induction statements generalizing n conn with
  | nil =>
    refine ⟨rfl, fun _ => ?_⟩
    show conn.working = conn.working.map id
    rw [Option.map_id, id]
  | cons s statements ih =>
    simp only [List.map_cons, executeAll]
    split
    · exact ⟨rfl, fun h => (by cases h)⟩
    · obtain ⟨hcommitted, hworking⟩ := ih (n + 1) (conn.execute (.statement s))
      refine ⟨hcommitted, fun h => (hworking h).trans ?_⟩
      show (conn.working.map _).map _ = _
      rw [Option.map_map]
      rfl

theorem registerAndExecute_spec (statements : List Statement) (tables : Tables) :
    let result := registerAndExecute statements raises tables
    (result.1 = false → result.2 = tables) ∧
      (result.1 = true → result.2 = statements.foldl Statement.apply tables) := by
  have hbody := executeAll_statements raises statements 1
    (Connection.execute ⟨tables, none⟩ .begin)
  unfold registerAndExecute
  simp only at hbody ⊢
  generalize executeAll raises 1 (statements.map .statement) _ = body at hbody ⊢
  obtain ⟨hcommitted, hworking⟩ := hbody
  by_cases hbegin : raises 0 = true
  · rw [if_pos hbegin]
    exact ⟨fun _ => rfl, fun h => (by cases h)⟩
  rw [if_neg hbegin]
  by_cases hbody : body.1 = true
  · rw [if_pos hbody]
    by_cases hcommit : raises (statements.length + 1) = true
    · rw [if_pos hcommit]
      exact ⟨fun _ => hcommitted, fun h => (by cases h)⟩
    · rw [if_neg hcommit]
      refine ⟨fun h => (by cases h), fun _ => ?_⟩
      show Option.getD _ _ = _
      rw [hworking hbody]
      rfl
  · rw [if_neg hbody]
    refine ⟨fun _ => ?_, fun h => (by cases h)⟩
    split
    · exact hcommitted
    · exact hcommitted

end Transactions

/-! One table -/

section Table

variable {keyColumns : List String} {stored incoming : List Row}

def rowKey (keyColumns : List String) (row : Row) : List Cell := keyColumns.map row

/-- What the two statements make of a table. -/
def upsertRows (keyColumns : List String) (stored incoming : List Row) : List Row :=
  deleteMatching keyColumns incoming stored ++ incoming

theorem sqlEq_iff (a b : Cell) : sqlEq a b = true ↔ a = b ∧ b ≠ .null := by
  unfold sqlEq
  simp only [ne_eq, decide_not, Bool.and_eq_true, Bool.not_eq_true', decide_eq_false_iff_not,
    decide_eq_true_eq]
  constructor
  · rintro ⟨⟨-, hb⟩, heq⟩
    exact ⟨heq, hb⟩
  · rintro ⟨rfl, hb⟩
    exact ⟨⟨hb, hb⟩, rfl⟩

theorem all_sqlEq_iff (new row : Row) : (keyColumns.all fun c => sqlEq (new c) (row c)) = true ↔
    rowKey keyColumns new = rowKey keyColumns row ∧ .null ∉ rowKey keyColumns row := by
  unfold rowKey
  simp only [List.all_eq_true, sqlEq_iff, List.map_inj_left, List.mem_map, not_exists, not_and]
  constructor
  · exact fun h => ⟨fun c hc => (h c hc).1, fun c hc => (h c hc).2⟩
  · exact fun h c hc => ⟨h.1 c hc, h.2 c hc⟩

/-- The rows of a key after an upsert: a key without nulls is replaced, one with a null stays. -/
theorem filter_upsertRows (k : List Cell) :
    (upsertRows keyColumns stored incoming).filter (fun row => rowKey keyColumns row = k) =
      (if .null ∉ k ∧ k ∈ incoming.map (rowKey keyColumns) then []
        else stored.filter fun row => rowKey keyColumns row = k) ++
      incoming.filter fun row => rowKey keyColumns row = k := by
  unfold upsertRows deleteMatching
  rw [List.filter_append, List.filter_filter]
  congr 1
  have hany : ∀ row, rowKey keyColumns row = k →
      ((incoming.any fun new => keyColumns.all fun c => sqlEq (new c) (row c)) = true ↔
        .null ∉ k ∧ k ∈ incoming.map (rowKey keyColumns)) := by
    rintro row rfl
    simp only [List.any_eq_true, all_sqlEq_iff, List.mem_map]
    constructor
    · rintro ⟨new, hnew, hkey, hnull⟩
      exact ⟨hnull, new, hnew, hkey⟩
    · rintro ⟨hnull, new, hnew, hkey⟩
      exact ⟨new, hnew, hkey, hnull⟩
  split
  case isTrue hreplaced =>
    rw [List.filter_eq_nil_iff]
    intro row _
    rw [Bool.and_eq_true, decide_eq_true_eq]
    rintro ⟨hkey, hkept⟩
    rw [(hany row hkey).mpr hreplaced] at hkept
    cases hkept
  case isFalse hkept =>
    refine List.filter_congr fun row _ => ?_
    by_cases hkey : rowKey keyColumns row = k
    · have hnot : (incoming.any fun new => keyColumns.all fun c => sqlEq (new c) (row c)) = false := by
        rw [Bool.eq_false_iff]
        exact fun h => hkept ((hany row hkey).mp h)
      simp [hkey, hnot]
    · simp [hkey]

theorem upsertRows_nil : upsertRows keyColumns stored [] = stored := by
  unfold upsertRows deleteMatching
  rw [List.append_nil, List.filter_eq_self]
  exact fun _ _ => rfl

end Table

/-! Calls -/

inductive MetadataCall where
  | persist (runRows statusRows checkpointRows : List Row)
  | upsert (table : KeyedTable) (frame : Frame)

/-- `true` when the call returns. -/
def MetadataCall.run (r : SeriesReader) (call : MetadataCall) (conditions : Conditions)
    (tables : Tables) : Bool × Tables :=
  match call with
  | .persist runRows statusRows checkpointRows =>
    persistUpdateMetadata r runRows statusRows checkpointRows conditions tables
  | .upsert .datasetUpdateStatus frame => upsertDatasetUpdateStatus r frame conditions tables
  | .upsert .pipelineCheckpoints frame => upsertPipelineCheckpoints r frame conditions tables
  | .upsert .datasetPartitionManifest frame => upsertDatasetPartitionManifest r frame conditions tables

def cleaned (r : SeriesReader) (table : KeyedTable) (frame : Frame) : List Row :=
  match cleanDataframeForSchema r frame table.schema with
  | .ok rows => rows
  | .error _ => []

/-- The rows that a call has for a table. -/
def MetadataCall.incoming (r : SeriesReader) (call : MetadataCall) (table : KeyedTable) : List Row :=
  match call with
  | .upsert target frame => if target = table then cleaned r target frame else []
  | .persist _ statusRows checkpointRows =>
    match table with
    | .datasetUpdateStatus => cleaned r table (dataFrame datasetUpdateStatusSchema statusRows)
    | .pipelineCheckpoints => cleaned r table (dataFrame pipelineCheckpointsSchema checkpointRows)
    | .datasetPartitionManifest => []

section Calls

theorem cleaned_of_ok {r : SeriesReader} {table : KeyedTable} {frame : Frame} {incoming : List Row}
    (h : cleanDataframeForSchema r frame table.schema = .ok incoming) :
    cleaned r table frame = incoming := by
  unfold cleaned
  rw [h]

theorem clean_nil {r : SeriesReader} {schema : Schema} {frame : Frame} {incoming : List Row}
    (hrows : frame.rows = []) (h : cleanDataframeForSchema r frame schema = .ok incoming) :
    incoming = [] := by
  unfold cleanDataframeForSchema at h
  obtain ⟨columns, -, hreturn⟩ := Checked.bind_eq_ok.mp h
  rw [← Except.ok.inj hreturn, hrows]
  rfl

variable (r : SeriesReader) (conditions : Conditions) (tables : Tables)

private theorem keyed_upsert (table : KeyedTable) (incoming : List Row) :
    ((if incoming = [] then [] else [Statement.delete table incoming, .insert table incoming]).foldl
      Statement.apply tables).keyed =
      Function.update tables.keyed table (upsertRows table.keyColumns (tables.keyed table) incoming) := by
  split
  case isTrue hnil =>
    rw [hnil, upsertRows_nil, Function.update_eq_self]
    rfl
  case isFalse =>
    simp only [List.foldl_cons, List.foldl_nil, Statement.apply]
    rw [Function.update_self, Function.update_idem]
    rfl

theorem upsert_spec (table : KeyedTable) (frame : Frame) :
    let result := upsert table r frame conditions tables
    (result.1 = false → result.2 = tables) ∧ (result.1 = true → result.2.keyed =
      Function.update tables.keyed table
        (upsertRows table.keyColumns (tables.keyed table) (cleaned r table frame))) := by
  unfold upsert
  cases hclean : cleanDataframeForSchema r frame table.schema with
  | error e => exact ⟨fun _ => rfl, fun h => (by cases h)⟩
  | ok incoming =>
    rw [cleaned_of_ok hclean]
    have hkeyed := keyed_upsert tables table incoming
    simp only
    by_cases hnil : incoming = []
    · rw [if_pos hnil] at hkeyed ⊢
      exact ⟨fun _ => rfl, fun _ => hkeyed⟩
    · rw [if_neg hnil] at hkeyed ⊢
      split
      · exact ⟨fun _ => rfl, fun h => (by cases h)⟩
      · obtain ⟨hraised, hreturned⟩ := registerAndExecute_spec conditions.raises
          [.delete table incoming, .insert table incoming] tables
        exact ⟨hraised, fun h => (congrArg Tables.keyed (hreturned h)).trans hkeyed⟩

theorem persist_spec (runRows statusRows checkpointRows : List Row) :
    let result := persistUpdateMetadata r runRows statusRows checkpointRows conditions tables
    (result.1 = false → result.2 = tables) ∧ (result.1 = true → result.2.keyed =
      Function.update (Function.update tables.keyed .datasetUpdateStatus
        (upsertRows KeyedTable.datasetUpdateStatus.keyColumns (tables.keyed .datasetUpdateStatus)
          (cleaned r .datasetUpdateStatus (dataFrame datasetUpdateStatusSchema statusRows))))
        .pipelineCheckpoints
        (upsertRows KeyedTable.pipelineCheckpoints.keyColumns (tables.keyed .pipelineCheckpoints)
          (cleaned r .pipelineCheckpoints (dataFrame pipelineCheckpointsSchema checkpointRows)))) := by
  -- frames without rows are not cleaned
  have hclean : ∀ (table : KeyedTable) {rows incoming : List Row},
      (if rows = [] then .ok [] else
        cleanDataframeForSchema r (dataFrame table.schema rows) table.schema) = Except.ok incoming →
      cleaned r table (dataFrame table.schema rows) = incoming := by
    intro table rows incoming h
    split at h
    case isTrue hnil =>
      rw [← Except.ok.inj h, hnil]
      unfold cleaned
      split
      case h_1 cleanRows hcleanRows => exact clean_nil rfl hcleanRows
      case h_2 => rfl
    case isFalse => exact cleaned_of_ok h
  unfold persistUpdateMetadata
  simp only
  split
  case h_1 runs statuses checkpoints hruns hstatuses hcheckpoints =>
    have hstatusRows : cleaned r .datasetUpdateStatus (dataFrame datasetUpdateStatusSchema statusRows) =
      statuses := hclean .datasetUpdateStatus hstatuses
    have hcheckpointRows : cleaned r .pipelineCheckpoints
        (dataFrame pipelineCheckpointsSchema checkpointRows) = checkpoints :=
      hclean .pipelineCheckpoints hcheckpoints
    rw [hstatusRows, hcheckpointRows]
    obtain ⟨hraised, hreturned⟩ := registerAndExecute_spec conditions.raises
      ((if runs = [] then [] else [Statement.insertRuns runs]) ++
        (if statuses = [] then [] else
          [.delete .datasetUpdateStatus statuses, .insert .datasetUpdateStatus statuses]) ++
        (if checkpoints = [] then [] else
          [.delete .pipelineCheckpoints checkpoints, .insert .pipelineCheckpoints checkpoints])) tables
    have hruns : ((if runs = [] then [] else [Statement.insertRuns runs]).foldl Statement.apply
        tables).keyed = tables.keyed := by
      split <;> rfl
    rw [List.foldl_append, List.foldl_append] at hreturned
    by_cases hnothing : runs = [] ∧ statuses = [] ∧ checkpoints = []
    · rw [if_pos hnothing, hnothing.2.1, hnothing.2.2, upsertRows_nil, upsertRows_nil,
        Function.update_eq_self, Function.update_eq_self]
      exact ⟨fun _ => rfl, fun _ => rfl⟩
    · rw [if_neg hnothing]
      split
      · exact ⟨fun _ => rfl, fun h => (by cases h)⟩
      · refine ⟨hraised, fun h => (congrArg Tables.keyed (hreturned h)).trans ?_⟩
        rw [keyed_upsert, keyed_upsert, hruns, Function.update_of_ne (by decide)]
  case h_2 => exact ⟨fun _ => rfl, fun h => (by cases h)⟩

/-- A call that raises changes nothing; one that returns has upserted its rows into every table. -/
theorem run_spec (call : MetadataCall) :
    let result := call.run r conditions tables
    (result.1 = false → result.2 = tables) ∧ (result.1 = true → ∀ table, result.2.keyed table =
      upsertRows table.keyColumns (tables.keyed table) (call.incoming r table)) := by
  match call with
  | .upsert target frame =>
    have hspec := upsert_spec r conditions tables target frame
    have htarget : (MetadataCall.upsert target frame).run r conditions tables =
        upsert target r frame conditions tables := by
      cases target <;> rfl
    rw [htarget]
    refine ⟨hspec.1, fun h table => ?_⟩
    rw [hspec.2 h]
    by_cases heq : table = target
    · rw [heq, Function.update_self]
      simp only [MetadataCall.incoming, if_true]
    · rw [Function.update_of_ne heq]
      simp only [MetadataCall.incoming]
      rw [if_neg (Ne.symm heq), upsertRows_nil]
  | .persist runRows statusRows checkpointRows =>
    obtain ⟨hraised, hreturned⟩ := persist_spec r conditions tables
      runRows statusRows checkpointRows
    refine ⟨hraised, fun h table => ?_⟩
    show (persistUpdateMetadata r runRows statusRows checkpointRows conditions tables).2.keyed table = _
    rw [hreturned h]
    cases table with
    | datasetUpdateStatus => rfl
    | pipelineCheckpoints => rfl
    | datasetPartitionManifest => exact upsertRows_nil.symm

end Calls

/-! Runs -/

structure CallStep where
  call : MetadataCall
  conditions : Conditions := {}

def Tables.next (r : SeriesReader) (tables : Tables) (step : CallStep) : Tables :=
  (step.call.run r step.conditions tables).2

/-- What the calls that returned had for a table. -/
def written (r : SeriesReader) (table : KeyedTable) : Tables → List CallStep → List (List Row)
  | _, [] => []
  | tables, step :: steps =>
    (if (step.call.run r step.conditions tables).1 then [step.call.incoming r table] else []) ++
      written r table (tables.next r step) steps

/-- A key has one row, of the last call that returned with the key, or the row it had before; a key
that never had a row has none. -/
def KeyLaw (r : SeriesReader) (initial : Tables) (steps : List CallStep) : Prop :=
  ∀ table k, ((steps.foldl (Tables.next r) initial).keyed table).filter
      (fun row => rowKey table.keyColumns row = k) =
    (lastOf (rowKey table.keyColumns) k
      (initial.keyed table ++ (written r table initial steps).flatten)).toList

/-- No row with a null in its key comes for a key that is stored already. -/
def NullKeysNew (r : SeriesReader) (tables : Tables) (step : CallStep) : Prop :=
  (step.call.run r step.conditions tables).1 = true →
    ∀ table, ∀ row ∈ step.call.incoming r table, .null ∈ rowKey table.keyColumns row →
      rowKey table.keyColumns row ∉ (tables.keyed table).map (rowKey table.keyColumns)

section Runs

variable {r : SeriesReader}

theorem filter_key_eq_nil {key : Row → List Cell} {k : List Cell} {rows : List Row} (h : k ∉ rows.map key) :
    rows.filter (fun row => key row = k) = [] := by
  rw [List.filter_eq_nil_iff]
  intro row hrow
  rw [decide_eq_true_eq]
  rintro rfl
  exact h (List.mem_map_of_mem hrow)

/-- The step lemma, for one table. -/
private theorem upsertRows_law {keyColumns : List String} {stored incoming base : List Row}
    (hstored : ∀ k, stored.filter (fun row => rowKey keyColumns row = k) =
      (lastOf (rowKey keyColumns) k base).toList)
    (hdistinct : (incoming.map (rowKey keyColumns)).Nodup)
    (hnew : ∀ row ∈ incoming, .null ∈ rowKey keyColumns row →
      rowKey keyColumns row ∉ stored.map (rowKey keyColumns)) (k : List Cell) :
    (upsertRows keyColumns stored incoming).filter (fun row => rowKey keyColumns row = k) =
      (lastOf (rowKey keyColumns) k (base ++ incoming)).toList := by
  rw [filter_upsertRows, lastOf_append]
  cases hlast : lastOf (rowKey keyColumns) k incoming with
  | none =>
    have hnot := lastOf_eq_none.mp hlast
    rw [if_neg fun h => hnot h.2, filter_key_eq_nil hnot, List.append_nil, Option.none_or]
    exact hstored k
  | some row =>
    obtain ⟨hrow, rfl⟩ := mem_of_lastOf hlast
    rw [filter_key_eq_singleton hdistinct hrow, Option.some_or]
    split
    case isTrue => rfl
    case isFalse hkept =>
      have hnull : .null ∈ rowKey keyColumns row := by
        by_contra hnull
        exact hkept ⟨hnull, List.mem_map_of_mem hrow⟩
      rw [filter_key_eq_nil (hnew row hrow hnull)]
      rfl

private theorem foldl_law (steps : List CallStep)
    (hframes : ∀ step ∈ steps, ∀ table : KeyedTable,
      ((step.call.incoming r table).map (rowKey table.keyColumns)).Nodup)
    (tables : Tables) (base : KeyedTable → List Row)
    (hbase : ∀ table k, (tables.keyed table).filter (fun row => rowKey table.keyColumns row = k) =
      (lastOf (rowKey table.keyColumns) k (base table)).toList)
    (hguarded : Trace.Guarded (Tables.next r) (NullKeysNew r) tables steps) (table : KeyedTable)
    (k : List Cell) :
    ((steps.foldl (Tables.next r) tables).keyed table).filter
        (fun row => rowKey table.keyColumns row = k) =
      (lastOf (rowKey table.keyColumns) k
        (base table ++ (written r table tables steps).flatten)).toList := by
  induction steps generalizing tables base with
  | nil =>
    show _ = (lastOf _ k (base table ++ [])).toList
    rw [List.append_nil]
    exact hbase table k
  | cons step steps ih =>
    obtain ⟨hnew, hrest⟩ := hguarded
    obtain ⟨hraised, hreturned⟩ := run_spec r step.conditions tables step.call
    have hlater := ih fun later hlater => hframes later (List.mem_cons_of_mem _ hlater)
    rw [List.foldl_cons]
    cases hrun : (step.call.run r step.conditions tables).1 with
    | false =>
      have hsame : tables.next r step = tables := hraised hrun
      rw [written, hrun, if_neg (by simp), List.nil_append]
      exact hlater _ base (by rwa [hsame]) hrest
    | true =>
      rw [written, hrun, if_pos rfl, List.singleton_append, List.flatten_cons, ← List.append_assoc]
      refine hlater _ (fun table => base table ++ step.call.incoming r table) (fun table k => ?_) hrest
      have hkeyed : (tables.next r step).keyed table = _ := hreturned hrun table
      rw [hkeyed]
      exact upsertRows_law (hbase table) (hframes step List.mem_cons_self table) (hnew hrun table) k

/-- A row with a null in its key is never deleted. -/
private theorem length_null_key_le (steps : List CallStep) (tables : Tables) (table : KeyedTable)
    {k : List Cell} (hnull : .null ∈ k) :
    ((tables.keyed table).filter fun row => rowKey table.keyColumns row = k).length ≤
      (((steps.foldl (Tables.next r) tables).keyed table).filter
        fun row => rowKey table.keyColumns row = k).length := by
  induction steps generalizing tables with
  | nil => exact le_refl _
  | cons step steps ih =>
    refine le_trans ?_ (ih (tables.next r step))
    obtain ⟨hraised, hreturned⟩ := run_spec r step.conditions tables step.call
    cases hrun : (step.call.run r step.conditions tables).1 with
    | false =>
      have hsame : tables.next r step = tables := hraised hrun
      rw [hsame]
    | true =>
      have hkeyed : (tables.next r step).keyed table = _ := hreturned hrun table
      rw [hkeyed, filter_upsertRows, if_neg fun h => h.1 hnull, List.length_append]
      exact Nat.le_add_right _ _

/-- One row for each null key in the end: none came for a stored key. -/
private theorem guarded_of_length_le (steps : List CallStep) (tables : Tables)
    (hfinal : ∀ (table : KeyedTable) (k : List Cell),
      (((steps.foldl (Tables.next r) tables).keyed table).filter
        fun row => rowKey table.keyColumns row = k).length ≤ 1) :
    Trace.Guarded (Tables.next r) (NullKeysNew r) tables steps := by
  induction steps generalizing tables with
  | nil => trivial
  | cons step steps ih =>
    refine ⟨fun hrun table row hrow hnull hstored => ?_, ih _ hfinal⟩
    obtain ⟨-, hreturned⟩ := run_spec r step.conditions tables step.call
    have hkeyed : (tables.next r step).keyed table = _ := hreturned hrun table
    have hlater := length_null_key_le (r := r) steps (tables.next r step) table hnull
    have hone := hfinal table (rowKey table.keyColumns row)
    rw [hkeyed, filter_upsertRows, if_neg fun h => h.1 hnull, List.length_append] at hlater
    obtain ⟨old, hold, hkey⟩ := List.mem_map.mp hstored
    have hlength : ∀ {rows : List Row} {other : Row}, other ∈ rows →
        rowKey table.keyColumns other = rowKey table.keyColumns row →
        0 < (rows.filter fun row' => rowKey table.keyColumns row' = rowKey table.keyColumns row).length :=
      fun hmem hkey => List.length_pos_of_mem (List.mem_filter.mpr ⟨hmem, decide_eq_true hkey⟩)
    have hfirst := hlength hold hkey
    have hsecond := hlength hrow rfl
    rw [List.foldl_cons] at hone
    omega

/-- A call that raises changes nothing, and each key keeps the row of the last call exactly when no
row with a null in its key comes for a stored key. -/
theorem metadata_upserts_keyed (initial : Tables)
    (hinitial : ∀ table : KeyedTable, ((initial.keyed table).map (rowKey table.keyColumns)).Nodup)
    (steps : List CallStep)
    (hframes : ∀ step ∈ steps, ∀ table : KeyedTable,
      ((step.call.incoming r table).map (rowKey table.keyColumns)).Nodup) :
    (∀ (tables : Tables) (step : CallStep), (step.call.run r step.conditions tables).1 = false →
      tables.next r step = tables) ∧
    (KeyLaw r initial steps ↔ Trace.Guarded (Tables.next r) (NullKeysNew r) initial steps) := by
  refine ⟨fun tables step => (run_spec r step.conditions tables step.call).1, fun hlaw => ?_, fun hguarded => ?_⟩
  · refine guarded_of_length_le steps initial fun table k => ?_
    rw [hlaw table k]
    cases lastOf (rowKey table.keyColumns) k _ with
    | none => exact Nat.zero_le _
    | some row => exact le_refl _
  · refine foldl_law steps hframes initial initial.keyed (fun table k => ?_) hguarded
    cases hlast : lastOf (rowKey table.keyColumns) k (initial.keyed table) with
    | none => exact filter_key_eq_nil (lastOf_eq_none.mp hlast)
    | some row =>
      obtain ⟨hrow, rfl⟩ := mem_of_lastOf hlast
      exact filter_key_eq_singleton (hinitial table) hrow

private theorem guarded_of_no_null (tables : Tables) (steps : List CallStep)
    (hnull : ∀ step ∈ steps, ∀ table : KeyedTable, ∀ row ∈ step.call.incoming r table,
      .null ∉ rowKey table.keyColumns row) :
    Trace.Guarded (Tables.next r) (NullKeysNew r) tables steps := by
  induction steps generalizing tables with
  | nil => trivial
  | cons step steps ih =>
    refine ⟨fun _ table row hrow hin => ?_, ih _ fun later hlater => hnull later (List.mem_cons_of_mem _ hlater)⟩
    exact absurd hin (hnull step List.mem_cons_self table row hrow)

end Runs

/-! The valuation module -/

open QuantDataCenter.Pipeline

/-- `_valuation_date_range`, on the partition of a code. -/
def valuationDateRange (p : Pandas) (partition : Option Frame) : Option String × Option String :=
  match partition with
  | none => (none, none)
  | some frame =>
    if frame.rows = [] ∨ "date" ∉ frame.columns then (none, none)
    else
      let dates := (frame.rows.map fun row => row "date").filter fun c => c ≠ .null
      let str := fun (date : Option Cell) => date.elim "nan" p.str
      (some (str (dates.minOn? Cell.rank)), some (str (dates.maxOn? Cell.rank)))

/-- `_task_ref` of `valuation_eastmoney.py`. -/
def valuationTaskRef (p : Pandas) (partition : Option Frame) (code outputPath : String) :
    LifecycleTaskRef where
  pipeline := "update_akshare"
  dataset := "akshare_cn_stock_valuation_eastmoney"
  code := code
  startDate := (valuationDateRange p partition).1
  endDate := (valuationDateRange p partition).2
  outputPath := outputPath

/-- A row as `pd.DataFrame` reads it. -/
def frameRow (row : MetadataRow Cell) : Row := fun column => (row column).getD .null

/-- The call that a batch with one task makes. -/
def persistRows (rows : LifecycleRows Cell) : MetadataCall :=
  .persist (rows.runRow.toList.map frameRow) (rows.statusRow.toList.map frameRow)
    (rows.checkpointRow.toList.map frameRow)

def plainReader : SeriesReader where
  toPandas := .plain
  toDatetimeSeries cells := cells.map fun
    | .text s => if s = "2024-01-02" then some (19724 * nsPerDay)
      else if s = "2024-01-03" then some (19725 * nsPerDay) else none
    | c => Pandas.plain.toDatetime c

def emptyTables : Tables := ⟨[], fun _ => []⟩

def firstMoment : Moment := ⟨"1", 0, 0, 0⟩

def secondMoment : Moment := ⟨"2", 0, 0, 0⟩

/-- The fetch of a code fails twice. -/
def failedTwice (partition : Option Frame) : List CallStep :=
  let task := valuationTaskRef .plain partition "000001" "data.parquet"
  [{ call := persistRows (failureRows task firstMoment "timeout") },
    { call := persistRows (failureRows task secondMoment "timeout") }]

def twoDays : Frame :=
  ⟨["date"], fun _ => .object, [fun _ => .date 19724, fun _ => .date 19725]⟩

private theorem distinct_of_all {r : SeriesReader} {steps : List CallStep}
    (h : ∀ step ∈ steps,
      ∀ table ∈ [KeyedTable.datasetUpdateStatus, .pipelineCheckpoints, .datasetPartitionManifest],
        ((step.call.incoming r table).map (rowKey table.keyColumns)).Nodup) :
    ∀ step ∈ steps, ∀ table : KeyedTable,
      ((step.call.incoming r table).map (rowKey table.keyColumns)).Nodup := by
  intro step hstep table
  refine h step hstep table ?_
  cases table <;> simp

/-- With a stored partition the second failure replaces the first one. -/
theorem metadata_upserts_keyed_dated : KeyLaw plainReader emptyTables (failedTwice (some twoDays)) := by
  have hnull : ∀ step ∈ failedTwice (some twoDays),
      ∀ table ∈ [KeyedTable.datasetUpdateStatus, .pipelineCheckpoints, .datasetPartitionManifest],
        ∀ row ∈ step.call.incoming plainReader table, .null ∉ rowKey table.keyColumns row := by
    decide +kernel
  refine (metadata_upserts_keyed emptyTables (fun _ => List.nodup_nil) (failedTwice (some twoDays))
    (distinct_of_all (by decide +kernel))).2.mpr (guarded_of_no_null _ _ fun step hstep table => ?_)
  refine hnull step hstep table ?_
  cases table <;> simp

/-- Without one the second checkpoint stands beside the first one. -/
theorem null_checkpoints_pile_up :
    (∀ step ∈ failedTwice none, ∀ table : KeyedTable,
      ((step.call.incoming plainReader table).map (rowKey table.keyColumns)).Nodup) ∧
    (∃ k, 2 ≤ ((((failedTwice none).foldl (Tables.next plainReader) emptyTables).keyed
      .pipelineCheckpoints).filter fun row =>
        rowKey KeyedTable.pipelineCheckpoints.keyColumns row = k).length) ∧
    ¬ KeyLaw plainReader emptyTables (failedTwice none) := by
  have htwo : 2 ≤ ((((failedTwice none).foldl (Tables.next plainReader) emptyTables).keyed
      .pipelineCheckpoints).filter fun row => rowKey KeyedTable.pipelineCheckpoints.keyColumns row =
        [.text "update_akshare", .text "akshare_cn_stock_valuation_eastmoney", .text "000001", .null,
          .null]).length := by
    decide +kernel
  refine ⟨distinct_of_all (by decide +kernel), ⟨_, htwo⟩, fun hlaw => ?_⟩
  rw [hlaw] at htwo
  cases hlast : lastOf (rowKey KeyedTable.pipelineCheckpoints.keyColumns) _ _ with
  | none =>
    rw [hlast] at htwo
    cases htwo
  | some row =>
    rw [hlast] at htwo
    exact absurd htwo (by simp)

end QuantDataCenter.Storage.Metadata
