import QuantDataCenter.Storage.MetadataUpsert

/-!
The migration of the metadata (`migrate_metadata_duckdb`): the four tables of a legacy file are
merged into the target, the runs by their task ids and the others by upserts. A second call
leaves the target alone unless something was written under the legacy keys in between.
-/

set_option autoImplicit false
set_option relaxedAutoImplicit false

namespace QuantDataCenter.Storage.Metadata

open QuantDataCenter.Lib QuantDataCenter.Lib.Keyed QuantDataCenter.Tabular

/-! The other writes of the target -/

/-- `append_pipeline_runs`. -/
def appendPipelineRuns (r : SeriesReader) (frame : Frame) (conditions : Conditions)
    (tables : Tables) : Bool × Tables :=
  match cleanDataframeForSchema r frame pipelineRunsSchema with
  | .error _ => (false, tables)
  | .ok incoming =>
    if incoming = [] then (true, tables)
    else if conditions.connects = false then (false, tables)
    else registerAndExecute [.insertRuns incoming] conditions.raises tables

/-- `delete_dataset_partition_manifest`. -/
def deleteDatasetPartitionManifest (dataset partitionColumn partitionValue : String)
    (conditions : Conditions) (tables : Tables) : Bool × Tables :=
  if conditions.connects = false ∨ conditions.raises 0 = true then (false, tables)
  else (true, { tables with
    keyed := Function.update tables.keyed .datasetPartitionManifest
      ((tables.keyed .datasetPartitionManifest).filter fun row =>
        !(sqlEq (row "dataset") (.text dataset) &&
          sqlEq (row "partition_column") (.text partitionColumn) &&
          sqlEq (row "partition_value") (.text partitionValue))) })

inductive TargetWrite where
  | call (call : MetadataCall)
  | appendRuns (frame : Frame)
  | deleteManifest (dataset partitionColumn partitionValue : String)

structure WriteStep where
  write : TargetWrite
  conditions : Conditions := {}

/-- `true` when the write returns. -/
def WriteStep.run (r : SeriesReader) (step : WriteStep) (tables : Tables) : Bool × Tables :=
  match step.write with
  | .call call => call.run r step.conditions tables
  | .appendRuns frame => appendPipelineRuns r frame step.conditions tables
  | .deleteManifest dataset partitionColumn partitionValue =>
    deleteDatasetPartitionManifest dataset partitionColumn partitionValue step.conditions tables

def WriteStep.next (r : SeriesReader) (tables : Tables) (step : WriteStep) : Tables :=
  (step.run r tables).2

/-! The migration -/

/-- A legacy file, with the tables that it has. -/
structure LegacyFile where
  pipelineRuns : Option Frame
  keyed : KeyedTable → Option Frame

/-- What a migration meets: whether its connections open and its reads return, and the
conditions of the write of each table. -/
structure MigrationConditions where
  initializes : Bool := true
  opens : Bool := true
  readsLegacyRuns : Bool := true
  readsLegacy : KeyedTable → Bool := fun _ => true
  readsRuns : Bool := true
  runs : Conditions := {}
  keyed : KeyedTable → Conditions := fun _ => {}

structure MigrationResult where
  source : String
  target : String
  migratedRows : List (String × ℕ)
  skipped : Bool
  reason : Option String
  deriving DecidableEq, Repr

def KeyedTable.name : KeyedTable → String
  | .datasetUpdateStatus => "dataset_update_status"
  | .pipelineCheckpoints => "pipeline_checkpoints"
  | .datasetPartitionManifest => "dataset_partition_manifest"

section Migration

variable (r : SeriesReader)

/-- The task ids that are present, as texts. -/
def taskIds (runs : List Row) : List String :=
  runs.filterMap fun row => match row "task_id" with
    | .null => none
    | c => some (r.str c)

/-- `_new_pipeline_runs`: missing task ids count as one id. -/
def newPipelineRuns (existing incoming : List Row) : List Row :=
  if incoming = [] then incoming
  else if existing = [] then keepLast (fun row => row "task_id") incoming
  else (keepLast (fun row => row "task_id") incoming).filter fun row =>
    r.str (row "task_id") ∉ taskIds r existing

/-- The block of the runs: how many were new, if it does not raise. -/
def migrateRuns (c : MigrationConditions) (legacy : LegacyFile) (tables : Tables) :
    Option ℕ × Tables :=
  match legacy.pipelineRuns with
  | none => (some 0, tables)
  | some frame =>
    if c.readsLegacyRuns = false then (none, tables)
    else match cleanDataframeForSchema r frame pipelineRunsSchema with
      | .error _ => (none, tables)
      | .ok incoming =>
        if incoming ≠ [] ∧ c.readsRuns = false then (none, tables)
        else
          let runs := newPipelineRuns r tables.pipelineRuns incoming
          if runs = [] then (some 0, tables)
          else
            let out := appendPipelineRuns r (dataFrame pipelineRunsSchema runs) c.runs tables
            (if out.1 then some runs.length else none, out.2)

/-- The block of a table that is upserted. -/
def migrateKeyed (c : MigrationConditions) (legacy : LegacyFile) (table : KeyedTable)
    (tables : Tables) : Option ℕ × Tables :=
  match legacy.keyed table with
  | none => (some 0, tables)
  | some frame =>
    if c.readsLegacy table = false then (none, tables)
    else match cleanDataframeForSchema r frame table.schema with
      | .error _ => (none, tables)
      | .ok incoming =>
        if incoming = [] then (some 0, tables)
        else
          let out := upsert table r (dataFrame table.schema incoming) (c.keyed table) tables
          (if out.1 then some incoming.length else none, out.2)

/-- The blocks one after the other, up to one that raises. -/
def migrateTables (c : MigrationConditions) (legacy : LegacyFile) (tables : Tables) :
    Option (List (String × ℕ)) × Tables :=
  match migrateRuns r c legacy tables with
  | (none, tables) => (none, tables)
  | (some runs, tables) =>
    match migrateKeyed r c legacy .datasetUpdateStatus tables with
    | (none, tables) => (none, tables)
    | (some statuses, tables) =>
      match migrateKeyed r c legacy .pipelineCheckpoints tables with
      | (none, tables) => (none, tables)
      | (some checkpoints, tables) =>
        match migrateKeyed r c legacy .datasetPartitionManifest tables with
        | (none, tables) => (none, tables)
        | (some manifests, tables) =>
          (some [("pipeline_runs", runs), (KeyedTable.datasetUpdateStatus.name, statuses),
            (KeyedTable.pipelineCheckpoints.name, checkpoints),
            (KeyedTable.datasetPartitionManifest.name, manifests)], tables)

def noRows : List (String × ℕ) :=
  [("pipeline_runs", 0), (KeyedTable.datasetUpdateStatus.name, 0),
    (KeyedTable.pipelineCheckpoints.name, 0), (KeyedTable.datasetPartitionManifest.name, 0)]

/-- `migrate_metadata_duckdb`, with the target's tables; nothing is returned when it raises. -/
def migrateMetadataDuckdb (c : MigrationConditions) (source target : String)
    (legacy : Option LegacyFile) (tables : Tables) : Option MigrationResult × Tables :=
  if source = target then
    (some ⟨source, target, noRows, true, some "source and target are the same file"⟩, tables)
  else match legacy with
    | none =>
      (some ⟨source, target, noRows, true, some "legacy metadata DuckDB file does not exist"⟩, tables)
    | some legacy =>
      if c.initializes = false ∨ c.opens = false then (none, tables)
      else
        let out := migrateTables r c legacy tables
        (out.1.map fun rows => ⟨source, target, rows, false, none⟩, out.2)

end Migration

/-! Cleaning twice -/

/-- A column of dates, timestamps and missing values is read cell by cell. -/
def SeriesReader.ReadsTyped (r : SeriesReader) : Prop :=
  ∀ cells : List Cell, (∀ c ∈ cells, c = .null ∨ (∃ day, c = .date day) ∨ ∃ ns, c = .stamp ns) →
    r.toDatetimeSeries cells = cells.map fun
      | .date day => some (day * nsPerDay)
      | .stamp ns => some ns
      | _ => none

section Cleaning

variable {r : SeriesReader} {schema : Schema} {frame : Frame} {rows : List Row}

private theorem accepts_of_coerceSeries {dtype : Dtype} {type : FieldType} {cells out : List Cell}
    (hbool : type ≠ .bool) (h : coerceSeries r dtype type cells = .ok out) :
    ∀ c ∈ out, type.accepts c = true := by
  intro c hc
  cases type with
  | bool => exact absurd rfl hbool
  | string =>
    obtain rfl := Except.ok.inj h
    obtain ⟨cell, -, rfl⟩ := List.mem_map.mp hc
    cases cell <;> rfl
  | date32 =>
    obtain rfl := Except.ok.inj h
    obtain ⟨day, -, rfl⟩ := List.mem_map.mp hc
    cases day <;> rfl
  | timestamp =>
    obtain rfl := Except.ok.inj h
    obtain ⟨ns, -, rfl⟩ := List.mem_map.mp hc
    cases ns with
    | none => rfl
    | some ns => simp [FieldType.accepts]
  | float64 =>
    obtain rfl := Except.ok.inj h
    obtain ⟨cell, -, rfl⟩ := List.mem_map.mp hc
    split
    · rfl
    · split <;> rfl
  | int64 =>
    obtain ⟨cell, -, hcell⟩ := Checked.mem_of_mem_mapM_eq_ok h hc
    split at hcell
    case h_1 =>
      obtain rfl := Except.ok.inj hcell
      rfl
    case h_2 =>
      split at hcell
      case h_1 =>
        obtain rfl := Except.ok.inj hcell
        rfl
      case h_2 =>
        unfold castInt64 at hcell
        split at hcell
        case isTrue hrange =>
          obtain rfl := Except.ok.inj hcell
          simp [FieldType.accepts, hrange.2]
        case isFalse => cases hcell

private theorem replaceNullLike_of_accepts {dtype : Dtype} {type : FieldType} {c : Cell}
    (hstring : type ≠ .string) (h : type.accepts c = true) : replaceNullLike dtype c = c := by
  cases c with
  | text s => cases type <;> first | exact absurd rfl hstring | cases h
  | _ => cases dtype <;> rfl

private theorem dated_of_accepts {type : FieldType} {c : Cell}
    (htype : type = .date32 ∨ type = .timestamp)
    (h : type.accepts c = true) : c = .null ∨ (∃ day, c = .date day) ∨ ∃ ns, c = .stamp ns := by
  cases c with
  | null => exact Or.inl rfl
  | date day => exact Or.inr (Or.inl ⟨day, rfl⟩)
  | stamp ns => exact Or.inr (Or.inr ⟨ns, rfl⟩)
  | _ => rcases htype with rfl | rfl <;> cases h

private theorem coerceSeries_of_accepts (hr : r.ReadsTyped) {dtype : Dtype} {type : FieldType}
    {cells : List Cell} (h : ∀ c ∈ cells, type.accepts c = true) :
    coerceSeries r dtype type cells = .ok cells := by
  have hsame : type ≠ .string → cells.map (replaceNullLike dtype) = cells := by
    intro hstring
    conv_rhs => rw [← List.map_id cells]
    exact List.map_congr_left fun c hc => replaceNullLike_of_accepts hstring (h c hc)
  have hself : ∀ f : Cell → Cell, (∀ c ∈ cells, f c = c) → cells.map f = cells := by
    intro f hf
    conv_rhs => rw [← List.map_id cells]
    exact List.map_congr_left hf
  cases type with
  | bool => rfl
  | string =>
    refine congrArg Except.ok (hself _ fun c hc => ?_)
    have haccepts := h c hc
    cases c <;> first | rfl | cases haccepts
  | date32 =>
    unfold coerceSeries
    simp only
    rw [hsame (by decide), hr cells fun c hc => dated_of_accepts (Or.inl rfl) (h c hc), List.map_map]
    refine congrArg Except.ok (hself _ fun c hc => ?_)
    have haccepts := h c hc
    cases c with
    | date day =>
      have hpos : nsPerDay ≠ 0 := by decide
      simp only [Function.comp_apply, Int.mul_ediv_cancel _ hpos]
    | null => rfl
    | _ => cases haccepts
  | timestamp =>
    unfold coerceSeries
    simp only
    rw [hsame (by decide), hr cells fun c hc => dated_of_accepts (Or.inr rfl) (h c hc), List.map_map]
    refine congrArg Except.ok (hself _ fun c hc => ?_)
    have haccepts := h c hc
    cases c with
    | stamp ns =>
      have hms : ns % nsPerMs = 0 := by simpa [FieldType.accepts] using haccepts
      simp only [Function.comp_apply, Int.ediv_mul_cancel (Int.dvd_of_emod_eq_zero hms)]
    | null => rfl
    | _ => cases haccepts
  | float64 =>
    refine congrArg Except.ok (hself _ fun c hc => ?_)
    have haccepts := h c hc
    rw [replaceNullLike_of_accepts (by decide) haccepts]
    cases c with
    | real x => simp only [r.toNumeric_real]
    | null => rfl
    | _ => cases haccepts
  | int64 =>
    unfold coerceSeries
    simp only
    rw [Checked.mapM_eq_ok (g := id) (l := cells) ?_]
    · rw [List.map_id]
    · intro c hc
      have haccepts := h c hc
      rw [replaceNullLike_of_accepts (by decide) haccepts]
      cases c with
      | int n =>
        have hrange : -9223372036854775808 ≤ n ∧ n ≤ 9223372036854775807 := by
          simpa [FieldType.accepts] using haccepts
        simp only [r.toNumeric_int, castInt64]
        rw [if_pos ⟨Rat.den_intCast n, hrange⟩]
        rfl
      | null => rfl
      | _ => cases haccepts

private theorem accepts_of_clean (hnames : (fieldNames schema).Nodup)
    (hbool : ∀ field ∈ schema, field.type ≠ .bool)
    (h : cleanDataframeForSchema r frame schema = .ok rows) :
    ∀ row ∈ rows, (∀ field ∈ schema, field.type.accepts (row field.name) = true) ∧
      ∀ name ∉ fieldNames schema, row name = .null := by
  obtain ⟨columns, hcolumns, hout⟩ := Checked.bind_eq_ok.mp h
  obtain rfl := Except.ok.inj hout
  have hcolumn : ∀ {name : String} {cells : List Cell}, Dict.get name columns = some cells →
      ∃ field ∈ schema, field.name = name ∧ ∀ c ∈ cells, field.type.accepts c = true := by
    intro name cells hget
    obtain ⟨field, hfield, hcell⟩ :=
      Checked.mem_of_mem_mapM_eq_ok hcolumns (Dict.mem_of_get hget)
    obtain ⟨dtype, cells', hcells, hpair⟩ : ∃ dtype cells', coerceSeries r dtype field.type cells' =
        .ok cells ∧ field.name = name := by
      simp only at hcell
      split at hcell
      · obtain ⟨out, hcells, hpair⟩ := Checked.bind_eq_ok.mp hcell
        obtain ⟨hname, rfl⟩ := Prod.mk.inj (Except.ok.inj hpair)
        exact ⟨_, _, hcells, hname⟩
      · obtain ⟨out, hcells, hpair⟩ := Checked.bind_eq_ok.mp hcell
        obtain ⟨hname, rfl⟩ := Prod.mk.inj (Except.ok.inj hpair)
        exact ⟨_, _, hcells, hname⟩
    exact ⟨field, hfield, hpair, accepts_of_coerceSeries (hbool field hfield) hcells⟩
  have hmissing : ∀ type : FieldType, type.accepts .null = true := fun type => by cases type <;> rfl
  intro row hrow
  obtain ⟨i, -, rfl⟩ := List.mem_map.mp hrow
  constructor
  · intro field hfield
    cases hget : Dict.get field.name columns with
    | none =>
      simp only [hget]
      exact hmissing _
    | some cells =>
      obtain ⟨field', hfield', hname, haccepts⟩ := hcolumn hget
      obtain rfl := List.inj_on_of_nodup_map hnames hfield' hfield hname
      simp only [hget, Option.bind_some]
      cases hcell : cells[i]? with
      | none => exact hmissing _
      | some c => exact haccepts c (List.mem_of_getElem? hcell)
  · intro name hname
    cases hget : Dict.get name columns with
    | none => simp only [hget, Option.bind_none, Option.getD_none]
    | some cells =>
      obtain ⟨field, hfield, rfl, -⟩ := hcolumn hget
      exact absurd (List.mem_map_of_mem hfield) hname

private theorem clean_of_accepts (hr : r.ReadsTyped)
    (h : ∀ row ∈ rows, (∀ field ∈ schema, field.type.accepts (row field.name) = true) ∧
      ∀ name ∉ fieldNames schema, row name = .null) :
    cleanDataframeForSchema r (dataFrame schema rows) schema = .ok rows := by
  have hcolumns : (schema.mapM fun field => do
      let cells ← if field.name ∈ (dataFrame schema rows).columns then
          coerceSeries r ((dataFrame schema rows).dtype field.name) field.type
            ((dataFrame schema rows).rows.map fun row => row field.name)
        else coerceSeries r .object field.type ((dataFrame schema rows).rows.map fun _ => .null)
      return (field.name, cells)) =
      (Except.ok (schema.map fun field =>
        (field.name, rows.map fun row => row field.name)) : Except StoreError _) := by
    apply Checked.mapM_eq_ok
    intro field hfield
    have hmem : field.name ∈ (dataFrame schema rows).columns := List.mem_map_of_mem hfield
    rw [if_pos hmem, coerceSeries_of_accepts hr]
    · rfl
    · intro c hc
      obtain ⟨row, hrow, rfl⟩ := List.mem_map.mp hc
      exact (h row hrow).1 field hfield
  unfold cleanDataframeForSchema
  rw [hcolumns]
  refine congrArg Except.ok (List.ext_getElem ?_ ?_)
  · simp [dataFrame]
  · intro i hi hi'
    funext name
    have hkeys : (schema.map fun field => (field.name, rows.map fun row => row field.name)) =
        (fieldNames schema).map fun name => (name, rows.map fun row => row name) := by
      rw [fieldNames, List.map_map]
      rfl
    rw [List.getElem_map, List.getElem_range, hkeys, Dict.get_map_key]
    split
    case isTrue => simp [List.getElem?_eq_getElem hi']
    case isFalse hname => exact ((h _ (List.getElem_mem hi')).2 name hname).symm

end Cleaning

/-! What a migration that returns leaves -/

/-- The rows of the legacy file, in the schemas of the target. -/
def LegacyFile.runs (r : SeriesReader) (legacy : LegacyFile) : List Row :=
  match legacy.pipelineRuns with
  | none => []
  | some frame => match cleanDataframeForSchema r frame pipelineRunsSchema with
    | .ok rows => rows
    | .error _ => []

def LegacyFile.rows (r : SeriesReader) (legacy : LegacyFile) (table : KeyedTable) : List Row :=
  match legacy.keyed table with
  | none => []
  | some frame => cleaned r table frame

section Returned

variable {r : SeriesReader} {c : MigrationConditions} {legacy : LegacyFile} {tables : Tables}

private theorem runsSchema_names : (fieldNames pipelineRunsSchema).Nodup ∧
    ∀ field ∈ pipelineRunsSchema, field.type ≠ .bool := by decide

private theorem keyedSchema_names (table : KeyedTable) : (fieldNames table.schema).Nodup ∧
    ∀ field ∈ table.schema, field.type ≠ .bool := by
  cases table <;> decide

private theorem appendPipelineRuns_spec (r : SeriesReader) (frame : Frame) (conditions : Conditions)
    (tables : Tables) :
    let out := appendPipelineRuns r frame conditions tables
    (out.1 = false → out.2 = tables) ∧ (out.1 = true → ∃ incoming,
      cleanDataframeForSchema r frame pipelineRunsSchema = .ok incoming ∧
      out.2 = { tables with pipelineRuns := tables.pipelineRuns ++ incoming }) := by
  unfold appendPipelineRuns
  cases cleanDataframeForSchema r frame pipelineRunsSchema with
  | error e => exact ⟨fun _ => rfl, fun h => (by cases h)⟩
  | ok incoming =>
    simp only
    by_cases hnil : incoming = []
    · rw [if_pos hnil, hnil]
      refine ⟨fun _ => rfl, fun _ => ⟨[], rfl, ?_⟩⟩
      rw [List.append_nil]
    · rw [if_neg hnil]
      split
      · exact ⟨fun _ => rfl, fun h => (by cases h)⟩
      · obtain ⟨hraised, hreturned⟩ :=
          registerAndExecute_spec conditions.raises [.insertRuns incoming] tables
        exact ⟨hraised, fun h => ⟨incoming, rfl, hreturned h⟩⟩

private theorem upsert_runs (table : KeyedTable) (r : SeriesReader) (frame : Frame)
    (conditions : Conditions) (tables : Tables) :
    (upsert table r frame conditions tables).2.pipelineRuns = tables.pipelineRuns := by
  unfold upsert
  cases cleanDataframeForSchema r frame table.schema with
  | error e => rfl
  | ok incoming =>
    simp only
    split
    · rfl
    · split
      · rfl
      · obtain ⟨hraised, hreturned⟩ := registerAndExecute_spec conditions.raises
          [.delete table incoming, .insert table incoming] tables
        cases hrun : (registerAndExecute [.delete table incoming, .insert table incoming]
            conditions.raises tables).1 with
        | false => rw [hraised hrun]
        | true =>
          rw [hreturned hrun]
          rfl

private theorem newPipelineRuns_subset {existing incoming : List Row} :
    ∀ row ∈ newPipelineRuns r existing incoming, row ∈ incoming := by
  intro row hrow
  unfold newPipelineRuns at hrow
  split at hrow
  · exact hrow
  · split at hrow
    · exact (keepLast_sublist _).subset hrow
    · exact (keepLast_sublist _).subset (List.mem_filter.mp hrow).1

private theorem newPipelineRuns_nil (existing : List Row) :
    newPipelineRuns r existing [] = [] := rfl

private theorem migrateRuns_spec (hr : r.ReadsTyped) {n : ℕ}
    (h : (migrateRuns r c legacy tables).1 = some n) :
    (migrateRuns r c legacy tables).2 = { tables with
      pipelineRuns := tables.pipelineRuns ++
        newPipelineRuns r tables.pipelineRuns (legacy.runs r) } := by
  unfold migrateRuns LegacyFile.runs at *
  cases hframe : legacy.pipelineRuns with
  | none => simp only [newPipelineRuns_nil, List.append_nil]
  | some frame =>
    simp only [hframe] at h ⊢
    split at h
    case isTrue => cases h
    case isFalse hread =>
      rw [if_neg hread]
      cases hclean : cleanDataframeForSchema r frame pipelineRunsSchema with
      | error e =>
        rw [hclean] at h
        cases h
      | ok incoming =>
        simp only [hclean] at h ⊢
        split at h
        case isTrue => cases h
        case isFalse hruns =>
          rw [if_neg hruns]
          split at h
          case isTrue hnil =>
            rw [if_pos hnil, hnil, List.append_nil]
          case isFalse hne =>
            rw [if_neg hne]
            obtain ⟨-, hreturned⟩ := appendPipelineRuns_spec r
              (dataFrame pipelineRunsSchema (newPipelineRuns r tables.pipelineRuns incoming)) c.runs
              tables
            split at h
            case isTrue hout =>
              obtain ⟨rows, hrows, hout⟩ := hreturned hout
              have haccepts := accepts_of_clean runsSchema_names.1 runsSchema_names.2 hclean
              have hagain := clean_of_accepts hr fun row hrow =>
                haccepts row (@newPipelineRuns_subset r tables.pipelineRuns _ row hrow)
              obtain rfl := Except.ok.inj (hagain.symm.trans hrows)
              exact hout
            case isFalse => cases h

private theorem migrateKeyed_spec (hr : r.ReadsTyped) {table : KeyedTable} {n : ℕ}
    (h : (migrateKeyed r c legacy table tables).1 = some n) :
    (migrateKeyed r c legacy table tables).2.pipelineRuns = tables.pipelineRuns ∧
      (migrateKeyed r c legacy table tables).2.keyed = Function.update tables.keyed table
        (upsertRows table.keyColumns (tables.keyed table) (legacy.rows r table)) := by
  have hnothing : Function.update tables.keyed table
      (upsertRows table.keyColumns (tables.keyed table) []) = tables.keyed := by
    rw [upsertRows_nil, Function.update_eq_self]
  unfold migrateKeyed LegacyFile.rows at *
  cases hframe : legacy.keyed table with
  | none =>
    simp only
    exact ⟨trivial, hnothing.symm⟩
  | some frame =>
    simp only [hframe] at h ⊢
    split at h
    case isTrue => cases h
    case isFalse hread =>
      rw [if_neg hread]
      cases hclean : cleanDataframeForSchema r frame table.schema with
      | error e =>
        rw [hclean] at h
        cases h
      | ok incoming =>
        rw [cleaned_of_ok hclean]
        simp only [hclean] at h ⊢
        split at h
        case isTrue hnil =>
          rw [if_pos hnil, hnil]
          exact ⟨rfl, hnothing.symm⟩
        case isFalse hne =>
          rw [if_neg hne]
          refine ⟨upsert_runs _ _ _ _ _, ?_⟩
          split at h
          case isTrue hout =>
            have haccepts := accepts_of_clean (keyedSchema_names table).1 (keyedSchema_names table).2
              hclean
            have hagain := cleaned_of_ok (clean_of_accepts hr haccepts)
            have hkeyed := (upsert_spec r (c.keyed table) tables table
              (dataFrame table.schema incoming)).2 hout
            rw [hagain] at hkeyed
            exact hkeyed
          case isFalse => cases h

private theorem migrateTables_spec (hr : r.ReadsTyped) {rows : List (String × ℕ)}
    (h : (migrateTables r c legacy tables).1 = some rows) :
    (migrateTables r c legacy tables).2.pipelineRuns = tables.pipelineRuns ++
        newPipelineRuns r tables.pipelineRuns (legacy.runs r) ∧
      ∀ table, (migrateTables r c legacy tables).2.keyed table =
        upsertRows table.keyColumns (tables.keyed table) (legacy.rows r table) := by
  unfold migrateTables at *
  rcases hruns : migrateRuns r c legacy tables with ⟨n, t1⟩
  rw [hruns] at h
  cases n with
  | none => cases h
  | some n =>
    have hfirst := @migrateRuns_spec r c legacy tables hr n (by rw [hruns])
    rw [hruns] at hfirst
    simp only at h hfirst ⊢
    rcases hstatuses : migrateKeyed r c legacy .datasetUpdateStatus t1 with ⟨n1, t2⟩
    rw [hstatuses] at h
    cases n1 with
    | none => cases h
    | some n1 =>
      have hsecond := @migrateKeyed_spec r c legacy t1 hr .datasetUpdateStatus n1 (by rw [hstatuses])
      rw [hstatuses] at hsecond
      simp only at h hsecond ⊢
      rcases hcheckpoints : migrateKeyed r c legacy .pipelineCheckpoints t2 with ⟨n2, t3⟩
      rw [hcheckpoints] at h
      cases n2 with
      | none => cases h
      | some n2 =>
        have hthird := @migrateKeyed_spec r c legacy t2 hr .pipelineCheckpoints n2
          (by rw [hcheckpoints])
        rw [hcheckpoints] at hthird
        simp only at h hthird ⊢
        rcases hmanifests : migrateKeyed r c legacy .datasetPartitionManifest t3 with ⟨n3, t4⟩
        rw [hmanifests] at h
        cases n3 with
        | none => cases h
        | some n3 =>
          have hfourth := @migrateKeyed_spec r c legacy t3 hr .datasetPartitionManifest n3
            (by rw [hmanifests])
          rw [hmanifests] at hfourth
          simp only at hfourth ⊢
          constructor
          · rw [hfourth.1, hthird.1, hsecond.1, hfirst]
          · have hother : ∀ table, t1.keyed table = tables.keyed table := fun table => by rw [hfirst]
            intro table
            rw [hfourth.2, hthird.2, hsecond.2]
            cases table with
            | datasetUpdateStatus =>
              rw [Function.update_of_ne (by decide), Function.update_of_ne (by decide),
                Function.update_self, hother]
            | pipelineCheckpoints =>
              rw [Function.update_of_ne (by decide), Function.update_self,
                Function.update_of_ne (by decide), hother]
            | datasetPartitionManifest =>
              rw [Function.update_self, Function.update_of_ne (by decide),
                Function.update_of_ne (by decide), hother]

private theorem migrate_spec (hr : r.ReadsTyped) {source target : String} (hne : source ≠ target)
    (h : (migrateMetadataDuckdb r c source target (some legacy) tables).1.isSome = true) :
    let out := (migrateMetadataDuckdb r c source target (some legacy) tables).2
    out.pipelineRuns = tables.pipelineRuns ++
        newPipelineRuns r tables.pipelineRuns (legacy.runs r) ∧
      ∀ table, out.keyed table =
        upsertRows table.keyColumns (tables.keyed table) (legacy.rows r table) := by
  unfold migrateMetadataDuckdb at *
  simp only [if_neg hne] at h ⊢
  split at h
  case isTrue => cases h
  case isFalse hopens =>
    rw [if_neg hopens]
    rw [Option.isSome_map] at h
    obtain ⟨rows, hrows⟩ := Option.isSome_iff_exists.mp h
    exact migrateTables_spec hr hrows

end Returned

/-! Two migrations -/

/-- What the last write that names a key leaves under it. -/
def WriteStep.leaves (r : SeriesReader) (table : KeyedTable) (k : List Cell) (tables : Tables)
    (step : WriteStep) : Option (List Row) :=
  if (step.run r tables).1 = false then none
  else match step.write with
    | .call call =>
      let rows := (call.incoming r table).filter fun row => rowKey table.keyColumns row = k
      if rows = [] then none else some rows
    | .appendRuns _ => none
    | .deleteManifest dataset partitionColumn partitionValue =>
      if table = .datasetPartitionManifest ∧
          k = [.text dataset, .text partitionColumn, .text partitionValue] then some []
      else none

def lastWrite (r : SeriesReader) (table : KeyedTable) (k : List Cell) :
    Tables → List WriteStep → Option (List Row)
  | _, [] => none
  | tables, step :: steps =>
    (lastWrite r table k (step.next r tables) steps).or (step.leaves r table k tables)

section Writes

variable {r : SeriesReader} {tables : Tables}

/-- A write leaves under a key without nulls what it has for it, or what was there. -/
private theorem next_filter {table : KeyedTable} {k : List Cell} (hnull : .null ∉ k)
    (step : WriteStep) :
    ((step.next r tables).keyed table).filter (fun row => rowKey table.keyColumns row = k) =
      (step.leaves r table k tables).getD
        ((tables.keyed table).filter fun row => rowKey table.keyColumns row = k) := by
  obtain ⟨write, conditions⟩ := step
  unfold WriteStep.next WriteStep.leaves WriteStep.run
  cases write with
  | call call =>
    obtain ⟨hraised, hreturned⟩ := run_spec r conditions tables call
    simp only
    cases hrun : (call.run r conditions tables).1 with
    | false =>
      rw [hraised hrun]
      rfl
    | true =>
      have htrue : ¬true = false := by decide
      rw [if_neg htrue, hreturned hrun, filter_upsertRows]
      by_cases hmem : k ∈ (call.incoming r table).map (rowKey table.keyColumns)
      · have hne : (call.incoming r table).filter (fun row => rowKey table.keyColumns row = k) ≠ [] := by
          obtain ⟨row, hrow, hkey⟩ := List.mem_map.mp hmem
          exact List.ne_nil_of_mem (List.mem_filter.mpr ⟨hrow, decide_eq_true hkey⟩)
        rw [if_pos ⟨hnull, hmem⟩, if_neg hne]
        rfl
      · rw [if_neg fun h => hmem h.2, filter_key_eq_nil hmem, List.append_nil, if_pos rfl]
        rfl
  | appendRuns frame =>
    obtain ⟨hraised, hreturned⟩ := appendPipelineRuns_spec r frame conditions tables
    simp only
    cases hrun : (appendPipelineRuns r frame conditions tables).1 with
    | false =>
      rw [hraised hrun]
      rfl
    | true =>
      obtain ⟨incoming, -, hout⟩ := hreturned hrun
      rw [hout]
      rfl
  | deleteManifest dataset partitionColumn partitionValue =>
    unfold deleteDatasetPartitionManifest
    simp only
    by_cases hraises : conditions.connects = false ∨ conditions.raises 0 = true
    · rw [if_pos hraises]
      rfl
    · have htrue : ¬true = false := by decide
      rw [if_neg hraises, if_neg htrue]
      by_cases htable : table = .datasetPartitionManifest
      · subst htable
        simp only [Function.update_self, List.filter_filter, true_and]
        have hmatches : ∀ row, (sqlEq (row "dataset") (.text dataset) &&
            sqlEq (row "partition_column") (.text partitionColumn) &&
            sqlEq (row "partition_value") (.text partitionValue)) = true ↔
            rowKey KeyedTable.datasetPartitionManifest.keyColumns row =
              [.text dataset, .text partitionColumn, .text partitionValue] := by
          intro row
          simp only [Bool.and_eq_true, sqlEq_iff, rowKey, KeyedTable.keyColumns, List.map_cons,
            List.map_nil, List.cons.injEq, and_true, ne_eq, reduceCtorEq, not_false_eq_true,
            and_assoc]
        split
        case isTrue hk =>
          refine List.filter_eq_nil_iff.mpr fun row _ hkept => ?_
          obtain ⟨hkey, hnot⟩ := Bool.and_eq_true_iff.mp hkept
          have hfound := (hmatches row).mpr ((of_decide_eq_true hkey).trans hk)
          rw [hfound] at hnot
          cases hnot
        case isFalse hk =>
          refine List.filter_congr fun row _ => ?_
          by_cases hkey : rowKey KeyedTable.datasetPartitionManifest.keyColumns row = k
          · have hnot := mt (hmatches row).mp fun h => hk (hkey.symm.trans h)
            rw [Bool.not_eq_true] at hnot
            simp [hkey, hnot]
          · simp [hkey]
      · simp only [Function.update_of_ne htable, htable, false_and, if_false]
        rfl

private theorem lastWrite_filter {table : KeyedTable} {k : List Cell} (hnull : .null ∉ k)
    (steps : List WriteStep) :
    ((steps.foldl (WriteStep.next r) tables).keyed table).filter
        (fun row => rowKey table.keyColumns row = k) =
      (lastWrite r table k tables steps).getD
        ((tables.keyed table).filter fun row => rowKey table.keyColumns row = k) := by
  induction steps generalizing tables with
  | nil => rfl
  | cons step steps ih =>
    rw [List.foldl_cons, ih, next_filter hnull, lastWrite]
    cases lastWrite r table k (step.next r tables) steps with
    | none => rfl
    | some rows => rfl

private theorem apply_runs (s : Statement) (tables : Tables) :
    ∀ row ∈ tables.pipelineRuns, row ∈ (s.apply tables).pipelineRuns := by
  intro row hrow
  cases s with
  | insertRuns incoming => exact List.mem_append_left _ hrow
  | delete table incoming => exact hrow
  | insert table incoming => exact hrow

private theorem registerAndExecute_runs (statements : List Statement) (raises : ℕ → Bool)
    (tables : Tables) :
    ∀ row ∈ tables.pipelineRuns,
      row ∈ (registerAndExecute statements raises tables).2.pipelineRuns := by
  have hstatements : ∀ (statements : List Statement) (tables : Tables),
      ∀ row ∈ tables.pipelineRuns, row ∈ (statements.foldl Statement.apply tables).pipelineRuns := by
    intro statements
    induction statements with
    | nil => exact fun _ _ hrow => hrow
    | cons s statements ih => exact fun tables row hrow => ih _ row (apply_runs s tables row hrow)
  obtain ⟨hraised, hreturned⟩ := registerAndExecute_spec raises statements tables
  intro row hrow
  cases hrun : (registerAndExecute statements raises tables).1 with
  | false =>
    rw [hraised hrun]
    exact hrow
  | true =>
    rw [hreturned hrun]
    exact hstatements statements tables row hrow

private theorem next_runs (step : WriteStep) :
    ∀ row ∈ tables.pipelineRuns, row ∈ (step.next r tables).pipelineRuns := by
  intro row hrow
  obtain ⟨write, conditions⟩ := step
  unfold WriteStep.next WriteStep.run
  cases write with
  | call call =>
    cases call with
    | upsert table frame =>
      have hupsert : (MetadataCall.upsert table frame).run r conditions tables =
          upsert table r frame conditions tables := by
        cases table <;> rfl
      simp only [hupsert, upsert_runs]
      exact hrow
    | persist runRows statusRows checkpointRows =>
      simp only [MetadataCall.run]
      unfold persistUpdateMetadata
      simp only
      split
      · split
        · exact hrow
        · split
          · exact hrow
          · exact registerAndExecute_runs _ _ _ row hrow
      · exact hrow
  | appendRuns frame =>
    obtain ⟨hraised, hreturned⟩ := appendPipelineRuns_spec r frame conditions tables
    simp only
    cases hrun : (appendPipelineRuns r frame conditions tables).1 with
    | false =>
      rw [hraised hrun]
      exact hrow
    | true =>
      obtain ⟨incoming, -, hout⟩ := hreturned hrun
      rw [hout]
      exact List.mem_append_left _ hrow
  | deleteManifest dataset partitionColumn partitionValue =>
    unfold deleteDatasetPartitionManifest
    simp only
    split
    · exact hrow
    · exact hrow

private theorem runs_of_writes (steps : List WriteStep) :
    ∀ row ∈ tables.pipelineRuns, row ∈ (steps.foldl (WriteStep.next r) tables).pipelineRuns := by
  induction steps generalizing tables with
  | nil => exact fun _ hrow => hrow
  | cons step steps ih => exact fun row hrow => ih row (next_runs step row hrow)

end Writes

/-- A run of the legacy file is known by its task id; one without a task id is a run of its own. -/
structure RunsKept (r : SeriesReader) (legacy final : List Row) : Prop where
  named : ∀ row ∈ legacy, row "task_id" ≠ .null → r.str (row "task_id") ∈ taskIds r final
  unnamed : (legacy.filter fun row => row "task_id" = .null).Subperm final

/-- A second migration changes no table, and the runs of the legacy file are all there. -/
structure MigratedOnce (r : SeriesReader) (legacy : LegacyFile) (once twice : Tables) : Prop where
  runs : twice.pipelineRuns.Perm once.pipelineRuns
  keyed : ∀ table, (twice.keyed table).Perm (once.keyed table)
  kept : RunsKept r (legacy.runs r) twice.pipelineRuns

/-- The legacy keys have no nulls, the last write between the migrations that names one leaves the
legacy rows under it, and no legacy run is without a task id. (The last also passes if the target
has a run whose task id is the text of a missing value, and these very runs.) -/
structure Undisturbed (r : SeriesReader) (legacy : LegacyFile) (first : Tables)
    (steps : List WriteStep) : Prop where
  keys : ∀ table, ∀ row ∈ legacy.rows r table, .null ∉ rowKey table.keyColumns row
  written : ∀ table, ∀ row ∈ legacy.rows r table, ∀ rows,
    lastWrite r table (rowKey table.keyColumns row) first steps = some rows →
      rows.Perm ((legacy.rows r table).filter fun row' =>
        rowKey table.keyColumns row' = rowKey table.keyColumns row)
  runs : (∀ row ∈ legacy.runs r, row "task_id" ≠ .null) ∨
    (r.str .null ∈ taskIds r (steps.foldl (WriteStep.next r) first).pipelineRuns ∧
      ((legacy.runs r).filter fun row => row "task_id" = .null).Subperm
        (steps.foldl (WriteStep.next r) first).pipelineRuns)

section Twice

variable {r : SeriesReader} {legacy : LegacyFile}

private theorem perm_of_filter_key {key : Row → List Cell} {l l' : List Row}
    (h : ∀ k, (l.filter fun row => key row = k).Perm (l'.filter fun row => key row = k)) :
    l.Perm l' := by
  classical
  rw [List.perm_iff_count]
  intro row
  have hcount := (h (key row)).count_eq row
  rw [List.count_filter (by simp), List.count_filter (by simp)] at hcount
  exact hcount

private theorem mem_taskIds {runs : List Row} {id : String} :
    id ∈ taskIds r runs ↔ ∃ row ∈ runs, row "task_id" ≠ .null ∧ r.str (row "task_id") = id := by
  unfold taskIds
  rw [List.mem_filterMap]
  constructor
  · rintro ⟨row, hrow, hid⟩
    split at hid
    case h_1 => cases hid
    case h_2 hne => exact ⟨row, hrow, hne, Option.some.inj hid⟩
  · rintro ⟨row, hrow, hne, hid⟩
    refine ⟨row, hrow, ?_⟩
    split
    case h_1 hnull => exact absurd hnull hne
    case h_2 => exact congrArg some hid

private theorem taskIds_mono {runs runs' : List Row} (h : ∀ row ∈ runs, row ∈ runs') {id : String}
    (hid : id ∈ taskIds r runs) : id ∈ taskIds r runs' := by
  obtain ⟨row, hrow, hne, heq⟩ := mem_taskIds.mp hid
  exact mem_taskIds.mpr ⟨row, h row hrow, hne, heq⟩

private theorem taskId_present (existing incoming : List Row) {row : Row} (hrow : row ∈ incoming)
    (hne : row "task_id" ≠ .null) :
    r.str (row "task_id") ∈ taskIds r (existing ++ newPipelineRuns r existing incoming) := by
  obtain ⟨last, hlast, hkey⟩ := List.mem_map.mp
    (mem_map_keepLast.mpr (List.mem_map_of_mem (f := fun row : Row => row "task_id") hrow))
  have hincoming : incoming ≠ [] := List.ne_nil_of_mem hrow
  have hlastId : last "task_id" ≠ .null := by
    rw [hkey]
    exact hne
  by_cases hknown : r.str (row "task_id") ∈ taskIds r existing
  · exact taskIds_mono (fun row hrow => List.mem_append_left _ hrow) hknown
  · refine mem_taskIds.mpr ⟨last, List.mem_append_right _ ?_, hlastId, congrArg r.str hkey⟩
    unfold newPipelineRuns
    rw [if_neg hincoming]
    split
    · exact hlast
    · refine List.mem_filter.mpr ⟨hlast, decide_eq_true ?_⟩
      rw [show last "task_id" = row "task_id" from hkey]
      exact hknown

/-- Where the task ids are known, a run is new only if it has none. -/
private theorem newPipelineRuns_eq_nil {existing incoming : List Row}
    (hknown : ∀ row ∈ incoming, row "task_id" ≠ .null →
      r.str (row "task_id") ∈ taskIds r existing) :
    newPipelineRuns r existing incoming = [] ↔
      (∀ row ∈ incoming, row "task_id" ≠ .null) ∨ r.str .null ∈ taskIds r existing := by
  unfold newPipelineRuns
  by_cases hnil : incoming = []
  · rw [if_pos hnil, hnil]
    simp
  rw [if_neg hnil]
  obtain ⟨row, hrow⟩ := List.exists_mem_of_ne_nil incoming hnil
  by_cases hempty : existing = []
  · -- then no run has a task id
    rw [if_pos hempty]
    subst hempty
    refine iff_of_false ?_ ?_
    · intro hkept
      have hkey := mem_map_keepLast.mpr (List.mem_map_of_mem (f := fun row : Row => row "task_id") hrow)
      rw [hkept] at hkey
      cases hkey
    · rintro (hall | hnull)
      · cases hknown row hrow (hall row hrow)
      · cases hnull
  · rw [if_neg hempty, List.filter_eq_nil_iff]
    constructor
    · intro hold
      by_contra hnot
      rw [not_or] at hnot
      obtain ⟨hsome, hnull⟩ := hnot
      push Not at hsome
      obtain ⟨row', hrow', hmissing⟩ := hsome
      obtain ⟨last, hlast, hkey⟩ := List.mem_map.mp
        (mem_map_keepLast.mpr (List.mem_map_of_mem (f := fun row : Row => row "task_id") hrow'))
      refine hold last hlast (decide_eq_true ?_)
      rw [show last "task_id" = .null from hkey.trans hmissing]
      exact hnull
    · rintro hor last hlast hnew
      have hnew := of_decide_eq_true hnew
      have hmem := (keepLast_sublist _).subset hlast
      by_cases hmissing : last "task_id" = .null
      · rw [hmissing] at hnew
        rcases hor with hall | hnull
        · exact hall last hmem hmissing
        · exact hnew hnull
      · exact hnew (hknown last hmem hmissing)

/-- A second upsert of the same rows, after other writes. -/
private theorem upsert_again {table : KeyedTable} {rows : List Row} {tables first : Tables}
    {steps : List WriteStep}
    (hfirst : first.keyed table = upsertRows table.keyColumns (tables.keyed table) rows) :
    let once := (steps.foldl (WriteStep.next r) first).keyed table
    (upsertRows table.keyColumns once rows).Perm once ↔
      ∀ row ∈ rows, .null ∉ rowKey table.keyColumns row ∧
        ∀ left, lastWrite r table (rowKey table.keyColumns row) first steps = some left →
          left.Perm (rows.filter fun row' =>
            rowKey table.keyColumns row' = rowKey table.keyColumns row) := by
  intro once
  have honce : ∀ k, .null ∉ k → k ∈ rows.map (rowKey table.keyColumns) →
      once.filter (fun row => rowKey table.keyColumns row = k) =
        (lastWrite r table k first steps).getD
          (rows.filter fun row => rowKey table.keyColumns row = k) := by
    intro k hnull hmem
    have hfilter := @lastWrite_filter r first table k hnull steps
    rw [hfirst, filter_upsertRows, if_pos ⟨hnull, hmem⟩, List.nil_append] at hfilter
    exact hfilter
  constructor
  · intro hperm row hrow
    have hmem : rowKey table.keyColumns row ∈ rows.map (rowKey table.keyColumns) :=
      List.mem_map_of_mem hrow
    have hkey := hperm.filter fun row' => rowKey table.keyColumns row' = rowKey table.keyColumns row
    rw [filter_upsertRows] at hkey
    have hnull : .null ∉ rowKey table.keyColumns row := by
      -- a row with a null in its key would come a second time
      intro hnull
      rw [if_neg fun h => h.1 hnull] at hkey
      have hlength := hkey.length_eq
      rw [List.length_append] at hlength
      have hpos : 0 < (rows.filter fun row' =>
          rowKey table.keyColumns row' = rowKey table.keyColumns row).length :=
        List.length_pos_of_mem (List.mem_filter.mpr ⟨hrow, by simp⟩)
      omega
    refine ⟨hnull, fun left hleft => ?_⟩
    rw [if_pos ⟨hnull, hmem⟩, List.nil_append, honce _ hnull hmem, hleft] at hkey
    exact hkey.symm
  · intro h
    apply perm_of_filter_key
    intro k
    rw [filter_upsertRows]
    by_cases hmem : k ∈ rows.map (rowKey table.keyColumns)
    · obtain ⟨row, hrow, rfl⟩ := List.mem_map.mp hmem
      obtain ⟨hnull, hwritten⟩ := h row hrow
      rw [if_pos ⟨hnull, hmem⟩, List.nil_append, honce _ hnull hmem]
      cases hlast : lastWrite r table (rowKey table.keyColumns row) first steps with
      | none => exact List.Perm.refl _
      | some left => exact (hwritten left hlast).symm
    · rw [if_neg fun h => hmem h.2, filter_key_eq_nil hmem, List.append_nil]

/-- A migration, writes of the pipelines, and a second migration: the second changes nothing and no
run is lost exactly where the writes leave the legacy keys alone and every legacy run has an id. -/
theorem migration_idempotent_iff (hr : r.ReadsTyped) {c c' : MigrationConditions}
    {source target : String} (hne : source ≠ target) {tables : Tables} {steps : List WriteStep}
    (hfirst : (migrateMetadataDuckdb r c source target (some legacy) tables).1.isSome = true)
    (hsecond : (migrateMetadataDuckdb r c' source target (some legacy) (steps.foldl (WriteStep.next r)
      (migrateMetadataDuckdb r c source target (some legacy) tables).2)).1.isSome = true) :
    let first := (migrateMetadataDuckdb r c source target (some legacy) tables).2
    let once := steps.foldl (WriteStep.next r) first
    MigratedOnce r legacy once (migrateMetadataDuckdb r c' source target (some legacy) once).2 ↔
      Undisturbed r legacy first steps := by
  intro first once
  obtain ⟨hruns1, hkeyed1⟩ := migrate_spec hr hne hfirst
  have hruns2 : (migrateMetadataDuckdb r c' source target (some legacy) once).2.pipelineRuns =
      once.pipelineRuns ++ newPipelineRuns r once.pipelineRuns (legacy.runs r) :=
    (migrate_spec hr hne hsecond).1
  have hkeyed2 := (migrate_spec hr hne hsecond).2
  have hknown : ∀ row ∈ legacy.runs r, row "task_id" ≠ .null →
      r.str (row "task_id") ∈ taskIds r once.pipelineRuns := by
    intro row hrow hid
    have hpresent := @taskId_present r tables.pipelineRuns (legacy.runs r) row hrow hid
    rw [← hruns1] at hpresent
    exact taskIds_mono (runs_of_writes steps) hpresent
  have hnew := @newPipelineRuns_eq_nil r once.pipelineRuns (legacy.runs r) hknown
  constructor
  · rintro ⟨hruns, hkeyed, hkept⟩
    have hupserts := fun table => (upsert_again (hkeyed1 table)).mp (hkeyed2 table ▸ hkeyed table)
    have hnone : newPipelineRuns r once.pipelineRuns (legacy.runs r) = [] := by
      have hlength := hruns.length_eq
      rw [hruns2, List.length_append] at hlength
      exact List.length_eq_zero_iff.mp (by omega)
    refine ⟨fun table row hrow => (hupserts table row hrow).1,
      fun table row hrow => (hupserts table row hrow).2, ?_⟩
    refine (hnew.mp hnone).imp id fun hnull => ⟨hnull, ?_⟩
    have hunnamed := hkept.unnamed
    rw [hruns2, hnone, List.append_nil] at hunnamed
    exact hunnamed
  · rintro ⟨hkeys, hwritten, hruns⟩
    have hnone := hnew.mpr (hruns.imp id And.left)
    have hsame : (migrateMetadataDuckdb r c' source target (some legacy) once).2.pipelineRuns =
        once.pipelineRuns := by
      rw [hruns2, hnone, List.append_nil]
    refine ⟨by rw [hsame], fun table => ?_, ⟨?_, ?_⟩⟩
    · rw [hkeyed2]
      exact (upsert_again (hkeyed1 table)).mpr fun row hrow =>
        ⟨hkeys table row hrow, hwritten table row hrow⟩
    · rw [hsame]
      exact hknown
    · rw [hsame]
      rcases hruns with hall | ⟨-, hunnamed⟩
      · have hempty : (legacy.runs r).filter (fun row => row "task_id" = .null) = [] :=
          List.filter_eq_nil_iff.mpr fun row hrow hmissing =>
            hall row hrow (of_decide_eq_true hmissing)
        rw [hempty]
        exact List.nil_subperm
      · exact hunnamed

end Twice

/-! A legacy file whose status of a code has been overtaken -/

private theorem plainReader_typed : plainReader.ReadsTyped := by
  intro cells hcells
  refine List.map_congr_left fun c hc => ?_
  rcases hcells c hc with rfl | ⟨day, rfl⟩ | ⟨ns, rfl⟩
  · rfl
  · rfl
  · rfl

def statusFrame (code status : String) : Frame :=
  ⟨["dataset", "code", "status"], fun _ => .object,
    [fun | "dataset" => .text "cn_security_master"
         | "code" => .text code
         | "status" => .text status
         | _ => .null]⟩

def runFrame (first second : Cell) : Frame :=
  ⟨["task_id", "code"], fun _ => .object,
    [fun | "task_id" => first
         | "code" => .text "000001"
         | _ => .null,
     fun | "task_id" => second
         | "code" => .text "000002"
         | _ => .null]⟩

def legacyWith (runs : Frame) : LegacyFile where
  pipelineRuns := some runs
  keyed
    | .datasetUpdateStatus => some (statusFrame "000001" "failed")
    | _ => none

def statusWrite (code : String) : WriteStep :=
  ⟨.call (.upsert .datasetUpdateStatus (statusFrame code "success")), {}⟩

def migratedFrom (legacy : LegacyFile) (tables : Tables) : Option MigrationResult × Tables :=
  migrateMetadataDuckdb plainReader {} "quant.duckdb" "qdc_metadata.duckdb" (some legacy) tables

/-- The status of the code succeeds after the first migration, and two runs have no task id: the
second migration brings the old status back and one of the runs a second time. -/
theorem second_migration_rolls_back :
    let legacy := legacyWith (runFrame .null .null)
    let once := (statusWrite "000001").next plainReader (migratedFrom legacy emptyTables).2
    let twice := (migratedFrom legacy once).2
    (once.keyed .datasetUpdateStatus).map (fun row => row "status") = [.text "success"] ∧
      (twice.keyed .datasetUpdateStatus).map (fun row => row "status") = [.text "failed"] ∧
      once.pipelineRuns.map (fun row => row "code") = [.text "000002"] ∧
      twice.pipelineRuns.map (fun row => row "code") = [.text "000002", .text "000002"] ∧
      ¬MigratedOnce plainReader legacy once twice := by
  intro legacy once twice
  have honce : (once.keyed .datasetUpdateStatus).map (fun row => row "status") =
      [.text "success"] := by decide +kernel
  have htwice : (twice.keyed .datasetUpdateStatus).map (fun row => row "status") =
      [.text "failed"] := by decide +kernel
  refine ⟨honce, htwice, by decide +kernel, by decide +kernel, fun h => ?_⟩
  have hstatus := (h.keyed .datasetUpdateStatus).map fun row => row "status"
  rw [honce, htwice, List.perm_singleton] at hstatus
  exact absurd hstatus (by decide)

/-- The status of another code does not matter. -/
theorem second_migration_changes_nothing :
    let legacy := legacyWith (runFrame (.text "1") (.text "2"))
    let once := [statusWrite "000002"].foldl (WriteStep.next plainReader)
      (migratedFrom legacy emptyTables).2
    MigratedOnce plainReader legacy once (migratedFrom legacy once).2 := by
  refine (migration_idempotent_iff plainReader_typed (by decide) (by decide +kernel)
    (by decide +kernel)).mpr ⟨?_, ?_, Or.inl (by decide +kernel)⟩
  · intro table
    cases table with
    | datasetUpdateStatus => decide +kernel
    | pipelineCheckpoints => exact fun _ hrow => nomatch hrow
    | datasetPartitionManifest => exact fun _ hrow => nomatch hrow
  · intro table
    cases table with
    | datasetUpdateStatus =>
      have hnone : ∀ row ∈ (legacyWith (runFrame (.text "1") (.text "2"))).rows plainReader
          .datasetUpdateStatus, (lastWrite plainReader .datasetUpdateStatus
            (rowKey KeyedTable.datasetUpdateStatus.keyColumns row)
            (migratedFrom (legacyWith (runFrame (.text "1") (.text "2"))) emptyTables).2
            [statusWrite "000002"]).isNone = true := by decide +kernel
      intro row hrow rows hrows
      have hmissing := hnone row hrow
      rw [Option.isNone_iff_eq_none] at hmissing
      cases hmissing.symm.trans hrows
    | pipelineCheckpoints => exact fun _ hrow => nomatch hrow
    | datasetPartitionManifest => exact fun _ hrow => nomatch hrow

end QuantDataCenter.Storage.Metadata
