import QuantDataCenter.Scripts.NamingContent

/-!
A naming migration that is killed and started again. Each part of the script takes one step on what
the migration is about, and is done or not done at a kill, unless this comes in a window: while the
migrated tree is in place next to legacy files, or between the copy of a metadata table and its
removal.
-/

set_option autoImplicit false
set_option relaxedAutoImplicit false

namespace QuantDataCenter.Scripts

open QuantDataCenter.Lib QuantDataCenter.Lib.Restart QuantDataCenter.Tabular QuantDataCenter.Storage

/-! The migration as steps on its content -/

def moveTable (names : String × String) (c : Content) : Option Content :=
  match c.tables names.1, c.tables names.2 with
  | none, _ => some c
  | some old, none => some { c with
      tables := Function.update (Function.update c.tables names.2 (some old)) names.1 none }
  | some old, some new => (new.insertFrom old).map fun rows => { c with
      tables := Function.update
        (Function.update c.tables names.2 (some { new with rows := new.rows ++ rows })) names.1 none }

def moveValues (u : ValueUpdate) (c : Content) : Option Content :=
  match c.tables u.table with
  | none => some c
  | some table =>
    if !table.updates u then some c
    else if table.admits (table.updated u).rows then
      some { c with tables := Function.update c.tables u.table (some (table.updated u)) }
    else none

def acceptViews (h : Host) (c : Content) : Option Content :=
  if (datasetRenames.all fun names => (c.legacy names.1).isEmpty) && h.acceptsViews c.stored then
    some c
  else none

def migrationSteps (h : Host) : List (Content → Option Content) :=
  datasetRenames.map (moveDataset h) ++ metadataTableRenames.map moveTable ++
    metadataUpdates.map moveValues ++ [acceptViews h]

/-- What one migration makes of the content; none if a file cannot be converted, a target is not
empty, or DuckDB refuses a statement. -/
def migrated (h : Host) : Content → Option Content := through (migrationSteps h)

/-- Where a kill does harm: a dataset has its migrated files and legacy files that are not removed
yet, or rows of a metadata table have been copied and the table is not dropped yet. -/
def InWindow (s : World × Option Step) : Prop :=
  (∃ names ∈ datasetRenames, (content s.1).blocked names = true) ∨
    ∃ old new rows, s.2 = some (.insertInto old new rows) ∧ rows ≠ []

/-! The parts of the script -/

section Parts

variable {h : Host} {a : Attempt} {names : String × String} {w : World}

private theorem migrateDataset_refines (hnames : names ∈ datasetRenames) :
    Refines apply content InWindow (migrateDataset h a names) (moveDataset h names) := by
  refine refines_of ?_
  intro w v hstep
  by_cases hlegacy : legacyFiles w names.1 = []
  · have hskip := @migrateDataset_none h a names w hlegacy hnames
    unfold moveDataset at hstep
    rw [if_pos (show (content w).legacy names.1 = [] from hlegacy)] at hstep
    obtain rfl := Option.some.inj hstep
    refine ⟨by rw [hskip]; rfl, by rw [after_congr hskip]; rfl, ?_⟩
    intro n
    left
    rw [stop_of_no_steps (by rw [hskip]; rfl)]
  · unfold moveDataset at hstep
    rw [if_neg (show ¬(content w).legacy names.1 = [] from hlegacy)] at hstep
    split at hstep
    case isTrue => cases hstep
    case isFalse hfree =>
      have hfree : isBlocked w names = false := Bool.eq_false_iff.mpr hfree
      cases hok : migratedFiles h names.2 (legacyFiles w names.1) with
      | error e =>
        rw [show (content w).legacy names.1 = legacyFiles w names.1 from rfl, hok] at hstep
        cases hstep
      | ok out =>
        rw [show (content w).legacy names.1 = legacyFiles w names.1 from rfl, hok] at hstep
        obtain rfl := Option.some.inj hstep
        obtain ⟨hnone, hend, hstops⟩ := @migrateDataset_moves h a names w out hnames hlegacy hfree hok
        refine ⟨hnone, hend, ?_⟩
        intro n
        rcases hstops n with hsame | ⟨rest, hmoved⟩
        · exact Or.inl hsame
        · cases rest with
          | nil => exact Or.inr (Or.inl hmoved)
          | cons file rest =>
            right
            right
            left
            refine ⟨names, hnames, ?_⟩
            rw [hmoved]
            show Function.update (content w).blocked names _ names = true
            rw [Function.update_self]
            rfl

private theorem content_editTables (f : (String → Option Table) → String → Option Table)
    (hsome : w.tables.isSome = true) :
    content (w.editTables f) = { content w with tables := f (tablesOf w) } := by
  obtain ⟨tables, htables⟩ := Option.isSome_iff_exists.mp hsome
  have hedit : tablesOf (w.editTables f) = f (tablesOf w) := by
    unfold tablesOf World.editTables
    simp only [htables, Option.map_some, Option.getD_some]
  show Content.mk (legacyFiles w) (storedFiles w) (isBlocked w) (tablesOf (w.editTables f)) = _
  rw [hedit]
  rfl

private theorem tables_isSome {name : String} {table : Table}
    (htable : tablesOf w name = some table) :
    w.tables.isSome = true := by
  unfold tablesOf at htable
  cases htables : w.tables with
  | none =>
    rw [htables] at htable
    cases htable
  | some tables => rfl

private theorem refines_skip {s : Script} (hs : s w = skip w) :
    (s w).raised = none ∧ content (after apply s w) = content w ∧
      ∀ n, content (stop apply s w n).1 = content w := by
  refine ⟨by rw [hs]; rfl, by rw [after_congr hs]; rfl, ?_⟩
  intro n
  rw [stop_of_no_steps (by rw [hs]; rfl)]

private theorem refines_emit {s : Script} {step : Step} (hs : s w = emit step w) :
    (s w).raised = none ∧ content (after apply s w) = content (apply w step) ∧
      ∀ n, content (stop apply s w n).1 = content w ∨
        content (stop apply s w n).1 = content (apply w step) := by
  refine ⟨by rw [hs]; rfl, by rw [after_congr hs]; rfl, ?_⟩
  intro n
  rw [stop_congr hs]
  exact (stop_emit step n).imp (congrArg content) (congrArg content)

private theorem renameTable_refines :
    Refines apply content InWindow (renameTable names) (moveTable names) := by
  refine refines_of ?_
  intro w v hstep
  have hview : (content w).tables = tablesOf w := rfl
  unfold moveTable at hstep
  rw [hview] at hstep
  cases hold : tablesOf w names.1 with
  | none =>
    simp only [hold] at hstep
    obtain rfl := Option.some.inj hstep
    have hskip : renameTable names w = skip w := by
      unfold renameTable
      simp only [show w.tables.getD (fun _ => none) = tablesOf w from rfl, hold]
    obtain ⟨hnone, hend, hstops⟩ := refines_skip hskip
    exact ⟨hnone, hend, fun n => Or.inl (hstops n)⟩
  | some old =>
    have hsome := tables_isSome hold
    cases hnew : tablesOf w names.2 with
    | none =>
      simp only [hold, hnew] at hstep
      obtain rfl := Option.some.inj hstep
      have hemit : renameTable names w = emit (.alterRename names.1 names.2) w := by
        unfold renameTable
        simp only [show w.tables.getD (fun _ => none) = tablesOf w from rfl, hold, hnew]
      obtain ⟨hnone, hend, hstops⟩ := refines_emit hemit
      have hdone : content (apply w (.alterRename names.1 names.2)) = { content w with
          tables := Function.update (Function.update (tablesOf w) names.2 (some old)) names.1 none } := by
        simp only [apply]
        rw [content_editTables _ hsome, hold]
      rw [hdone] at hend hstops
      exact ⟨hnone, hend, fun n => (hstops n).imp id Or.inl⟩
    | some new =>
      simp only [hold, hnew] at hstep
      obtain ⟨rows, hrows, rfl⟩ := Option.map_eq_some_iff.mp hstep
      have hsteps : renameTable names w =
          ⟨[.insertInto names.1 names.2 rows, .dropTable names.1], none⟩ := by
        unfold renameTable
        simp only [show w.tables.getD (fun _ => none) = tablesOf w from rfl, hold, hnew, hrows]
      have hinserted : content (apply w (.insertInto names.1 names.2 rows)) = { content w with
          tables := Function.update (tablesOf w) names.2
            (some { new with rows := new.rows ++ rows }) } := by
        simp only [apply]
        rw [content_editTables _ hsome, hnew]
        rfl
      have hdropped : content (apply (apply w (.insertInto names.1 names.2 rows))
          (.dropTable names.1)) = { content w with
          tables := Function.update (Function.update (tablesOf w) names.2
            (some { new with rows := new.rows ++ rows })) names.1 none } := by
        have hsome' : (apply w (.insertInto names.1 names.2 rows)).tables.isSome = true := by
          simp only [apply, World.editTables, Option.isSome_map, hsome]
        have htables : tablesOf (apply w (.insertInto names.1 names.2 rows)) = _ :=
          congrArg Content.tables hinserted
        rw [show apply (apply w (.insertInto names.1 names.2 rows)) (.dropTable names.1) =
          (apply w (.insertInto names.1 names.2 rows)).editTables
            (fun tables => Function.update tables names.1 none) from rfl,
          content_editTables _ hsome', htables, hinserted]
      refine ⟨by rw [hsteps], ?_, ?_⟩
      · unfold after
        rw [hsteps]
        exact hdropped
      · intro n
        unfold stop
        rw [hsteps]
        rcases n with _ | _ | n
        · exact Or.inl rfl
        · by_cases hnil : rows = []
          · left
            show content (apply w (.insertInto names.1 names.2 rows)) = _
            rw [hinserted, hnil, List.append_nil, ← hnew, Function.update_eq_self]
            rfl
          · right
            right
            right
            exact ⟨names.1, names.2, rows, rfl, hnil⟩
        · right
          left
          simp only [List.take_succ_cons, List.take_nil]
          exact hdropped

private theorem updateValues_refines (u : ValueUpdate) :
    Refines apply content InWindow (updateValues u) (moveValues u) := by
  refine refines_of ?_
  intro w v hstep
  unfold moveValues at hstep
  rw [show (content w).tables = tablesOf w from rfl] at hstep
  cases htable : tablesOf w u.table with
  | none =>
    simp only [htable] at hstep
    obtain rfl := Option.some.inj hstep
    have hskip : updateValues u w = skip w := by
      unfold updateValues
      simp only [show w.tables.getD (fun _ => none) = tablesOf w from rfl, htable]
    obtain ⟨hnone, hend, hstops⟩ := refines_skip hskip
    exact ⟨hnone, hend, fun n => Or.inl (hstops n)⟩
  | some table =>
    simp only [htable] at hstep
    split at hstep
    case isTrue hupdates =>
      obtain rfl := Option.some.inj hstep
      have hskip : updateValues u w = skip w := by
        unfold updateValues
        simp only [show w.tables.getD (fun _ => none) = tablesOf w from rfl, htable, hupdates, if_true]
      obtain ⟨hnone, hend, hstops⟩ := refines_skip hskip
      exact ⟨hnone, hend, fun n => Or.inl (hstops n)⟩
    case isFalse hupdates =>
      split at hstep
      case isFalse => cases hstep
      case isTrue hadmits =>
        obtain rfl := Option.some.inj hstep
        have hemit : updateValues u w = emit (.update u.table u.column u.old u.new) w := by
          unfold updateValues
          simp only [show w.tables.getD (fun _ => none) = tablesOf w from rfl, htable, hupdates,
            hadmits, if_true, Bool.false_eq_true, if_false]
        obtain ⟨hnone, hend, hstops⟩ := refines_emit hemit
        have hdone : content (apply w (.update u.table u.column u.old u.new)) = { content w with
            tables := Function.update (tablesOf w) u.table (some (table.updated u)) } := by
          simp only [apply]
          rw [content_editTables _ (tables_isSome htable), htable]
          rfl
        rw [hdone] at hend hstops
        exact ⟨hnone, hend, fun n => (hstops n).imp id Or.inl⟩

/-! Files of interrupted writes and views -/

def Step.UnlinksTmp : Step → Prop
  | .unlink _ path => endsWith ".tmp.parquet" (path.getLast?.getD "") = true
  | _ => False

private theorem unlinkTmp_files {step : Step} (hstep : step.UnlinksTmp) (q : File → Bool)
    (hq : ∀ file, q file = true → file.isTmp = false) (dir : String) :
    (treeAt (apply w step) dir).files.filter q = (treeAt w dir).files.filter q ∧
      (apply w step).tables = w.tables := by
  cases step with
  | unlink dir' path =>
    refine ⟨?_, tables_editDir _⟩
    by_cases heq : dir = dir'
    · subst heq
      simp only [apply, World.editDir]
      cases hget : Dict.get dir w.dirs with
      | none => rfl
      | some tree =>
        simp only
        rw [treeAt_setDir_self, treeAt, hget, Option.getD_some]
        show (tree.files.filter _).filter q = _
        rw [List.filter_filter]
        refine List.filter_congr ?_
        intro file _
        by_cases hpath : file.path = path
        · have htmp : file.isTmp = true := by
            unfold File.isTmp File.name
            rw [hpath]
            exact hstep
          cases hfile : q file with
          | false => rfl
          | true => exact absurd htmp (by rw [hq file hfile]; decide)
        · simp [hpath]
    · rw [show apply w (.unlink dir' path) = w.editDir dir' fun tree => tree.remove path from rfl,
        treeAt_editDir_of_ne heq]
  | mkdir | create | write | rmdir | rename | connect | alterRename | insertInto | dropTable
  | update => cases hstep

private theorem foldl_unlinkTmp {steps : List Step} (hsteps : ∀ step ∈ steps, step.UnlinksTmp)
    (q : File → Bool) (hq : ∀ file, q file = true → file.isTmp = false) (dir : String) :
    (treeAt (steps.foldl apply w) dir).files.filter q = (treeAt w dir).files.filter q ∧
      (steps.foldl apply w).tables = w.tables := by
  induction steps generalizing w with
  | nil => exact ⟨rfl, rfl⟩
  | cons step steps ih =>
    obtain ⟨hfirst, htables⟩ := @unlinkTmp_files w step (hsteps step List.mem_cons_self) q hq dir
    obtain ⟨hrest, htables'⟩ := @ih (apply w step) fun step h => hsteps step (List.mem_cons_of_mem _ h)
    exact ⟨hrest.trans hfirst, htables'.trans htables⟩

private theorem foldl_unlinkTmp_content {steps : List Step}
    (hsteps : ∀ step ∈ steps, step.UnlinksTmp) :
    legacyFiles (steps.foldl apply w) = legacyFiles w ∧
      storedFiles (steps.foldl apply w) = storedFiles w ∧
      tablesOf (steps.foldl apply w) = tablesOf w := by
  refine ⟨?_, ?_, ?_⟩
  · funext name
    have hfiles := (@foldl_unlinkTmp w steps hsteps File.isData (fun _ h => isData_not_isTmp h) name).1
    unfold legacyFiles Tree.parquetFiles
    rw [hfiles]
  · funext name
    have hfiles := (@foldl_unlinkTmp w steps hsteps (fun file => file.isParquet && !file.isTmp)
      (fun file h => by simpa using (Bool.and_eq_true_iff.mp h).2) name).1
    unfold storedFiles
    rw [hfiles]
  · unfold tablesOf
    rw [(@foldl_unlinkTmp w steps hsteps File.isData (fun _ h => isData_not_isTmp h) "").2]

private theorem cleanup_unlinksTmp :
    ∀ step ∈ (cleanupTmpParquetFiles w).steps, step.UnlinksTmp := by
  intro step hstep
  unfold cleanupTmpParquetFiles at hstep
  obtain ⟨⟨dir, tree⟩, -, hstep⟩ := List.mem_flatMap.mp hstep
  obtain ⟨file, hfile, rfl⟩ := List.mem_map.mp hstep
  exact (List.mem_filter.mp hfile).2

private theorem isBlocked_of_none (hnone : ∀ names ∈ datasetRenames, legacyFiles w names.1 = []) :
    isBlocked w = fun _ => false := by
  funext names
  unfold isBlocked
  by_cases hnames : names ∈ datasetRenames
  · have hempty := hnone names hnames
    unfold legacyFiles at hempty
    rw [if_pos (List.mem_map_of_mem hnames)] at hempty
    rw [hempty]
    simp
  · simp [hnames]

private theorem acceptViews_eq_some {c v : Content} : acceptViews h c = some v ↔
    (∀ names ∈ datasetRenames, c.legacy names.1 = []) ∧ h.acceptsViews c.stored = true ∧ c = v := by
  unfold acceptViews
  constructor
  · intro hstep
    split at hstep
    case isTrue hall =>
      obtain ⟨hlegacy, haccepts⟩ := Bool.and_eq_true_iff.mp hall
      refine ⟨?_, haccepts, Option.some.inj hstep⟩
      intro names hnames
      exact List.isEmpty_iff.mp (List.all_eq_true.mp hlegacy names hnames)
    case isFalse => cases hstep
  · rintro ⟨hlegacy, haccepts, rfl⟩
    rw [if_pos]
    rw [haccepts, Bool.and_true, List.all_eq_true]
    intro names hnames
    exact List.isEmpty_iff.mpr (hlegacy names hnames)

private theorem rebuildDuckdbViews_refines :
    Refines apply content InWindow (rebuildDuckdbViews h) (acceptViews h) := by
  refine refines_of ?_
  intro w v hstep
  obtain ⟨hlegacy, haccepts, rfl⟩ := acceptViews_eq_some.mp hstep
  have hcleaned : ∀ steps : List Step, (∀ step ∈ steps, step.UnlinksTmp) →
      content (steps.foldl apply w) = content w := by
    intro steps hsteps
    obtain ⟨hsame, hstored, htables⟩ := @foldl_unlinkTmp_content w steps hsteps
    have hblocked : isBlocked (steps.foldl apply w) = isBlocked w := by
      rw [isBlocked_of_none hlegacy, isBlocked_of_none]
      rw [hsame]
      exact hlegacy
    unfold content
    rw [hsame, hstored, hblocked, htables]
  have hfolded : ∀ n, content (((((cleanupTmpParquetFiles w).steps ++ [Step.connect]).take n).foldl
      apply w)) = content w := by
    intro n
    have hprefix : content (((cleanupTmpParquetFiles w).steps.take n).foldl apply w) = content w :=
      hcleaned _ fun step hstep => cleanup_unlinksTmp step (List.mem_of_mem_take hstep)
    rw [List.take_append, List.foldl_append]
    cases n - (cleanupTmpParquetFiles w).steps.length with
    | zero => exact hprefix
    | succ n =>
      rw [List.take_succ_cons, List.take_nil]
      exact hprefix
  have hsteps : rebuildDuckdbViews h w = ⟨(cleanupTmpParquetFiles w).steps ++ [.connect], none⟩ := by
    let accept : Script := fun w => if h.acceptsViews (storedFiles w) then skip w else raise .sql w
    let w₂ := apply (after apply cleanupTmpParquetFiles w) .connect
    have hstored : storedFiles w₂ = storedFiles w := by
      have hsame := hfolded ((cleanupTmpParquetFiles w).steps.length + 1)
      rw [List.take_of_length_le (by simp), List.foldl_append] at hsame
      exact congrArg Content.stored hsame
    have haccept : accept w₂ = skip w₂ := by
      show (if h.acceptsViews (storedFiles w₂) then _ else _) = _
      rw [hstored]
      exact if_pos haccepts
    have hlast : seq apply accept skip w₂ = ⟨[], none⟩ := by
      unfold seq
      rw [haccept]
      rfl
    show Outcome.mk ((cleanupTmpParquetFiles w).steps ++ ([.connect] ++ (seq apply accept skip w₂).steps))
      (seq apply accept skip w₂).raised = _
    rw [hlast]
    rfl
  refine ⟨by rw [hsteps], ?_, ?_⟩
  · have hend := hfolded ((cleanupTmpParquetFiles w).steps.length + 1)
    rw [List.take_of_length_le (by simp)] at hend
    unfold after
    rw [hsteps]
    exact hend
  · intro n
    left
    unfold stop
    rw [hsteps]
    exact hfolded n

end Parts

/-! What is done stays done -/

section Done

variable {h : Host} {c v : Content} {names : String × String} {u u' : ValueUpdate}

private theorem moveDataset_legacy (hstep : moveDataset h names c = some v) :
    v.legacy names.1 = [] ∧ (∀ name, c.legacy name = [] → v.legacy name = []) ∧
      v.tables = c.tables := by
  unfold moveDataset at hstep
  split at hstep
  case isTrue hnone =>
    obtain rfl := Option.some.inj hstep
    exact ⟨hnone, fun _ hname => hname, rfl⟩
  case isFalse =>
    split at hstep
    case isTrue => cases hstep
    case isFalse =>
      split at hstep
      case h_1 files hok =>
        obtain rfl := Option.some.inj hstep
        refine ⟨Function.update_self _ _ _, ?_, rfl⟩
        intro name hname
        show Function.update c.legacy names.1 [] name = []
        by_cases heq : name = names.1
        · rw [heq, Function.update_self]
        · rw [Function.update_of_ne heq, hname]
      case h_2 => cases hstep

private theorem moveDataset_done : moveDataset h names c = some c ↔ c.legacy names.1 = [] := by
  constructor
  · intro hstep
    exact (moveDataset_legacy hstep).1
  · intro hnone
    unfold moveDataset
    rw [if_pos hnone]

private theorem moveTable_tables (hstep : moveTable names c = some v) :
    v.tables names.1 = none ∧
      (∀ name, name ≠ names.2 → c.tables name = none → v.tables name = none) ∧
      v.legacy = c.legacy := by
  have hnone : ∀ (table : Option Table) (name : String), name ≠ names.2 → c.tables name = none →
      Function.update (Function.update c.tables names.2 table) names.1 none name = none := by
    intro table name hname htable
    by_cases heq : name = names.1
    · rw [heq, Function.update_self]
    · rw [Function.update_of_ne heq, Function.update_of_ne hname, htable]
  unfold moveTable at hstep
  split at hstep
  case h_1 hold =>
    obtain rfl := Option.some.inj hstep
    exact ⟨hold, fun _ _ htable => htable, rfl⟩
  case h_2 old hold hnew =>
    obtain rfl := Option.some.inj hstep
    exact ⟨Function.update_self _ _ _, fun name => hnone _ name, rfl⟩
  case h_3 old new hold hnew =>
    obtain ⟨rows, -, rfl⟩ := Option.map_eq_some_iff.mp hstep
    exact ⟨Function.update_self _ _ _, fun name => hnone _ name, rfl⟩

private theorem moveTable_done : moveTable names c = some c ↔ c.tables names.1 = none := by
  constructor
  · intro hstep
    exact (moveTable_tables hstep).1
  · intro hnone
    unfold moveTable
    rw [hnone]

/-- No row of the table waits for the update. -/
def UpToDate (u : ValueUpdate) (c : Content) : Prop :=
  ∀ table, c.tables u.table = some table → table.updates u = false

private theorem moveValues_tables (hstep : moveValues u c = some v) :
    v.legacy = c.legacy ∧ (v = c ∧ UpToDate u c ∨ ∃ table, c.tables u.table = some table ∧
      v.tables = Function.update c.tables u.table (some (table.updated u))) := by
  unfold moveValues at hstep
  split at hstep
  case h_1 hnone =>
    obtain rfl := Option.some.inj hstep
    refine ⟨rfl, Or.inl ⟨rfl, ?_⟩⟩
    intro table htable
    rw [hnone] at htable
    cases htable
  case h_2 table htable =>
    split at hstep
    case isTrue hupdates =>
      obtain rfl := Option.some.inj hstep
      refine ⟨rfl, Or.inl ⟨rfl, ?_⟩⟩
      intro table' htable'
      obtain rfl := Option.some.inj (htable.symm.trans htable')
      simpa using hupdates
    case isFalse =>
      split at hstep
      case isTrue =>
        obtain rfl := Option.some.inj hstep
        exact ⟨rfl, Or.inr ⟨table, htable, rfl⟩⟩
      case isFalse => cases hstep

private theorem updated_columns (table : Table) : (table.updated u).columns = table.columns := rfl

/-- An update makes no value that another one, or it itself, waits for. -/
private theorem updated_updates {table : Table} (hnew : u'.column = u.column → u'.new ≠ u.old)
    (hdone : u = u' ∨ table.updates u = false) : (table.updated u').updates u = false := by
  unfold Table.updates at hdone ⊢
  rw [updated_columns]
  by_cases hcolumn : u.column ∈ table.columns
  · rw [decide_eq_true hcolumn, Bool.true_and, List.any_eq_false]
    intro row hrow
    obtain ⟨row, hmem, rfl⟩ := List.mem_map.mp hrow
    rw [decide_eq_true_eq]
    intro heq
    unfold updateRow at heq
    split at heq
    case isTrue hold =>
      by_cases hsame : u.column = u'.column
      · rw [hsame, Function.update_self] at heq
        exact hnew hsame.symm (Cell.text.inj heq)
      · rw [Function.update_of_ne hsame] at heq
        rcases hdone with rfl | hdone
        · exact hsame rfl
        · rw [decide_eq_true hcolumn, Bool.true_and, List.any_eq_false] at hdone
          exact hdone row hmem (decide_eq_true heq)
    case isFalse hold =>
      rcases hdone with rfl | hdone
      · exact hold heq
      · rw [decide_eq_true hcolumn, Bool.true_and, List.any_eq_false] at hdone
        exact hdone row hmem (decide_eq_true heq)
  · rw [decide_eq_false hcolumn, Bool.false_and]

private theorem moveValues_upToDate
    (hnew : u'.table = u.table → u'.column = u.column → u'.new ≠ u.old)
    (hdone : u = u' ∨ UpToDate u c) (hstep : moveValues u' c = some v) : UpToDate u v := by
  obtain ⟨-, ⟨rfl, hsame⟩ | ⟨table, htable, htables⟩⟩ := moveValues_tables hstep
  · rcases hdone with rfl | hdone
    · exact hsame
    · exact hdone
  · intro table' htable'
    rw [htables] at htable'
    by_cases heq : u.table = u'.table
    · rw [heq, Function.update_self] at htable'
      obtain rfl := Option.some.inj htable'
      refine updated_updates (hnew heq.symm) (hdone.imp id fun hdone => ?_)
      exact hdone table (by rw [heq, htable])
    · rw [Function.update_of_ne heq] at htable'
      rcases hdone with rfl | hdone
      · exact absurd rfl heq
      · exact hdone table' htable'

private theorem moveValues_done (hnew : u.new ≠ u.old) :
    moveValues u c = some c ↔ UpToDate u c := by
  constructor
  · intro hstep
    exact moveValues_upToDate (fun _ _ => hnew) (Or.inl rfl) hstep
  · intro hdone
    unfold moveValues
    cases htable : c.tables u.table with
    | none => rfl
    | some table => simp only [hdone table htable, Bool.not_false, if_true]

end Done

/-! The whole migration -/

section Migration

variable {h : Host} {c v : Content} {g : Content → Option Content}

private theorem new_ne_old : ∀ u ∈ metadataUpdates, ∀ u' ∈ metadataUpdates, u'.table = u.table →
    u'.column = u.column → u'.new ≠ u.old := by decide

private theorem newTable_ne_old : ∀ names ∈ metadataTableRenames, ∀ names' ∈ metadataTableRenames,
    names.1 ≠ names'.2 := by decide

private theorem mem_migrationSteps : g ∈ migrationSteps h ↔
    (∃ names ∈ datasetRenames, moveDataset h names = g) ∨
      (∃ names ∈ metadataTableRenames, moveTable names = g) ∨
      (∃ u ∈ metadataUpdates, moveValues u = g) ∨ g = acceptViews h := by
  unfold migrationSteps
  simp only [List.mem_append, List.mem_map, List.mem_singleton, or_assoc]

private theorem legacy_kept {name : String} (hg : g ∈ migrationSteps h) (hstep : g c = some v)
    (hnone : c.legacy name = []) : v.legacy name = [] := by
  rcases mem_migrationSteps.mp hg with ⟨names, -, rfl⟩ | ⟨names, -, rfl⟩ | ⟨u, -, rfl⟩ | rfl
  · exact (moveDataset_legacy hstep).2.1 name hnone
  · rw [(moveTable_tables hstep).2.2, hnone]
  · rw [(moveValues_tables hstep).1, hnone]
  · rw [← (acceptViews_eq_some.mp hstep).2.2, hnone]

private theorem tables_kept {names : String × String} (hnames : names ∈ metadataTableRenames)
    (hg : g ∈ migrationSteps h) (hstep : g c = some v) (hnone : c.tables names.1 = none) :
    v.tables names.1 = none := by
  rcases mem_migrationSteps.mp hg with ⟨names', -, rfl⟩ | ⟨names', hnames', rfl⟩ | ⟨u, -, rfl⟩ | rfl
  · rw [(moveDataset_legacy hstep).2.2, hnone]
  · exact (moveTable_tables hstep).2.1 _ (newTable_ne_old names hnames names' hnames') hnone
  · obtain ⟨-, ⟨rfl, -⟩ | ⟨table, htable, htables⟩⟩ := moveValues_tables hstep
    · exact hnone
    · rw [htables]
      by_cases heq : names.1 = u.table
      · rw [heq, htable] at hnone
        cases hnone
      · rw [Function.update_of_ne heq, hnone]
  · rw [← (acceptViews_eq_some.mp hstep).2.2, hnone]

/-- `f` stays done when `g` is done after it. -/
def Keeps (f g : Content → Option Content) : Prop :=
  ∀ v u, f v = some v → g v = some u → f u = some u

private theorem dataset_keeps {names : String × String} (hg : g ∈ migrationSteps h) :
    Keeps (moveDataset h names) g := by
  intro v u hdone hstep
  exact moveDataset_done.mpr (legacy_kept hg hstep (moveDataset_done.mp hdone))

private theorem table_keeps {names : String × String} (hnames : names ∈ metadataTableRenames)
    (hg : g ∈ migrationSteps h) : Keeps (moveTable names) g := by
  intro v u hdone hstep
  exact moveTable_done.mpr (tables_kept hnames hg hstep (moveTable_done.mp hdone))

private theorem values_keeps {u : ValueUpdate} (hu : u ∈ metadataUpdates)
    (hg : (∃ u' ∈ metadataUpdates, moveValues u' = g) ∨ g = acceptViews h) :
    Keeps (moveValues u) g := by
  have hnew := new_ne_old u hu u hu rfl rfl
  intro v v' hdone hstep
  rw [moveValues_done hnew] at hdone ⊢
  rcases hg with ⟨u', hu', rfl⟩ | rfl
  · exact moveValues_upToDate (new_ne_old u hu u' hu') (Or.inr hdone) hstep
  · rw [← (acceptViews_eq_some.mp hstep).2.2]
    exact hdone

private theorem migration_stable : Stable (migrationSteps h) := by
  refine ⟨?_, ?_⟩
  · intro f hf v u hstep
    rcases mem_migrationSteps.mp hf with ⟨names, -, rfl⟩ | ⟨names, -, rfl⟩ | ⟨u, hu, rfl⟩ | rfl
    · exact moveDataset_done.mpr (moveDataset_legacy hstep).1
    · exact moveTable_done.mpr (moveTable_tables hstep).1
    · have hnew := new_ne_old u hu u hu rfl rfl
      exact (moveValues_done hnew).mpr (moveValues_upToDate (fun _ _ => hnew) (Or.inl rfl) hstep)
    · have heq := (acceptViews_eq_some.mp hstep).2.2
      rw [← heq] at hstep ⊢
      exact hstep
  · have hdatasets : ∀ f ∈ datasetRenames.map (moveDataset h), ∀ g ∈ migrationSteps h, Keeps f g := by
      intro f hf g hg
      obtain ⟨names, -, rfl⟩ := List.mem_map.mp hf
      exact dataset_keeps hg
    have htables : ∀ f ∈ metadataTableRenames.map moveTable, ∀ g ∈ migrationSteps h, Keeps f g := by
      intro f hf g hg
      obtain ⟨names, hnames, rfl⟩ := List.mem_map.mp hf
      exact table_keeps hnames hg
    have hvalues : ∀ f ∈ metadataUpdates.map moveValues, ∀ g,
        ((∃ u' ∈ metadataUpdates, moveValues u' = g) ∨ g = acceptViews h) → Keeps f g := by
      intro f hf g hg
      obtain ⟨u, hu, rfl⟩ := List.mem_map.mp hf
      exact values_keeps hu hg
    unfold migrationSteps at hdatasets htables ⊢
    simp only [List.mem_append] at hdatasets htables
    rw [List.pairwise_append, List.pairwise_append, List.pairwise_append]
    refine ⟨⟨⟨?_, ?_, ?_⟩, ?_, ?_⟩, List.pairwise_singleton _ _, ?_⟩
    · exact List.pairwise_of_forall_mem_list fun f hf g hg =>
        hdatasets f hf g (Or.inl (Or.inl (Or.inl hg)))
    · exact List.pairwise_of_forall_mem_list fun f hf g hg =>
        htables f hf g (Or.inl (Or.inl (Or.inr hg)))
    · exact fun f hf g hg => hdatasets f hf g (Or.inl (Or.inl (Or.inr hg)))
    · exact List.pairwise_of_forall_mem_list fun f hf g hg =>
        hvalues f hf g (Or.inl (List.mem_map.mp hg))
    · intro f hf g hg
      rcases List.mem_append.mp hf with hf | hf
      · exact hdatasets f hf g (Or.inl (Or.inr hg))
      · exact htables f hf g (Or.inl (Or.inr hg))
    · intro f hf g hg
      rcases List.mem_append.mp hf with hf | hf
      · rcases List.mem_append.mp hf with hf | hf
        · exact hdatasets f hf g (Or.inr hg)
        · exact htables f hf g (Or.inr hg)
      · exact hvalues f hf g (Or.inr (List.mem_singleton.mp hg))

private theorem migrateParts_refine (a : Attempt) :
    List.Forall₂ (Refines apply content InWindow) (migrateParts h a) (migrationSteps h) := by
  unfold migrateParts migrationSteps
  refine List.rel_append (List.rel_append (List.rel_append ?_ ?_) ?_) ?_
  · rw [List.forall₂_map_left_iff, List.forall₂_map_right_iff, List.forall₂_same]
    exact fun names hnames => migrateDataset_refines hnames
  · rw [List.forall₂_map_left_iff, List.forall₂_map_right_iff, List.forall₂_same]
    exact fun names _ => renameTable_refines
  · rw [List.forall₂_map_left_iff, List.forall₂_map_right_iff, List.forall₂_same]
    exact fun u _ => updateValues_refines u
  · exact List.Forall₂.cons rebuildDuckdbViews_refines List.Forall₂.nil

end Migration

/-! The last copy of a dataset -/

section LastCopy

variable {h : Host} {a : Attempt} {w₀ w : World} {names : String × String}

/-- The legacy files of the dataset are all there, or all of its migrated files are. -/
def LastCopy (h : Host) (w₀ w : World) (names : String × String) : Prop :=
  legacyFiles w names.1 = legacyFiles w₀ names.1 ∨ legacyFiles w₀ names.1 ≠ [] ∧
    migratedFiles h names.2 (legacyFiles w₀ names.1) = .ok (storedFiles w names.2)

/-- The step touches the tables or removes a file of an interrupted write. -/
def Step.Quiet : Step → Prop
  | .connect | .alterRename _ _ | .insertInto _ _ _ | .dropTable _ | .update _ _ _ _ => True
  | step => step.UnlinksTmp

private theorem foldl_quiet {steps : List Step} (hsteps : ∀ step ∈ steps, step.Quiet) :
    legacyFiles (steps.foldl apply w) = legacyFiles w ∧
      storedFiles (steps.foldl apply w) = storedFiles w := by
  induction steps generalizing w with
  | nil => exact ⟨rfl, rfl⟩
  | cons step steps ih =>
    obtain ⟨hlegacy, hstored⟩ := @ih (apply w step) fun step h => hsteps step (List.mem_cons_of_mem _ h)
    have hquiet := hsteps step List.mem_cons_self
    have hstep : legacyFiles (apply w step) = legacyFiles w ∧
        storedFiles (apply w step) = storedFiles w := by
      cases step with
      | unlink dir path =>
        have hone : ∀ step ∈ [Step.unlink dir path], step.UnlinksTmp := by
          intro step hmem
          obtain rfl := List.mem_singleton.mp hmem
          exact hquiet
        obtain ⟨hlegacy, hstored, -⟩ := @foldl_unlinkTmp_content w _ hone
        exact ⟨hlegacy, hstored⟩
      | connect | alterRename | insertInto | dropTable | update => exact ⟨rfl, rfl⟩
      | mkdir | create | write | rmdir | rename => cases hquiet
    exact ⟨hlegacy.trans hstep.1, hstored.trans hstep.2⟩

private theorem lastCopy_quiet {s : Script} (hs : Emits Step.Quiet s)
    (hcopy : LastCopy h w₀ w names) (n : ℕ) : LastCopy h w₀ (stop apply s w n).1 names := by
  obtain ⟨hlegacy, hstored⟩ := @foldl_quiet w ((s w).steps.take n) fun step hstep =>
    hs w step (List.mem_of_mem_take hstep)
  unfold LastCopy stop
  rw [hlegacy, hstored]
  exact hcopy

private theorem renameTable_quiet : Emits Step.Quiet (renameTable names) := by
  intro w step hstep
  unfold renameTable at hstep
  simp only at hstep
  split at hstep
  · cases hstep
  · obtain rfl := List.mem_singleton.mp hstep
    exact trivial
  · split at hstep
    · cases hstep
    · simp only [List.mem_cons, List.not_mem_nil, or_false] at hstep
      rcases hstep with rfl | rfl <;> exact trivial

private theorem updateValues_quiet {u : ValueUpdate} : Emits Step.Quiet (updateValues u) := by
  intro w step hstep
  unfold updateValues at hstep
  split at hstep
  · cases hstep
  · split at hstep
    · cases hstep
    · split at hstep
      · obtain rfl := List.mem_singleton.mp hstep
        exact trivial
      · cases hstep

private theorem rebuildDuckdbViews_quiet : Emits Step.Quiet (rebuildDuckdbViews h) := by
  refine Emits.all ?_
  intro s hs
  simp only [List.mem_cons, List.not_mem_nil, or_false] at hs
  rcases hs with rfl | rfl | rfl
  · intro w step hstep
    have hunlink := cleanup_unlinksTmp step hstep
    cases step with
    | unlink dir path => exact hunlink
    | connect | alterRename | insertInto | dropTable | update => exact trivial
    | mkdir | create | write | rmdir | rename => cases hunlink
  · intro w step hstep
    obtain rfl := List.mem_singleton.mp hstep
    exact trivial
  · intro w step hstep
    simp only at hstep
    split at hstep <;> cases hstep

private theorem storedFiles_of_free (hnames : names ∈ datasetRenames)
    (hlegacy : legacyFiles w names.1 ≠ [])
    (hfree : isBlocked w names = false) : storedFiles w names.2 = [] := by
  rw [isBlocked_eq hnames hlegacy, List.any_eq_false] at hfree
  rw [storedFiles, if_pos (new_mem_catalog names hnames).1, List.filter_eq_nil_iff]
  intro file hfile
  simp [hfree file hfile]

/-- Moving a dataset keeps the last copy of each of them, wherever it is stopped. -/
private theorem lastCopy_migrateDataset {moved : String × String} (hmoved : moved ∈ datasetRenames)
    (hnames : names ∈ datasetRenames) (hcopy : LastCopy h w₀ w names) (n : ℕ) :
    LastCopy h w₀ (stop apply (migrateDataset h a moved) w n).1 names := by
  have hsame : content (stop apply (migrateDataset h a moved) w n).1 = content w →
      LastCopy h w₀ (stop apply (migrateDataset h a moved) w n).1 names := by
    intro heq
    have hlegacy : legacyFiles (stop apply (migrateDataset h a moved) w n).1 = legacyFiles w :=
      congrArg Content.legacy heq
    have hstored : storedFiles (stop apply (migrateDataset h a moved) w n).1 = storedFiles w :=
      congrArg Content.stored heq
    unfold LastCopy
    rw [hlegacy, hstored]
    exact hcopy
  by_cases hlegacy : legacyFiles w moved.1 = []
  · refine hsame ?_
    rw [stop_of_no_steps]
    rw [migrateDataset_none hlegacy hmoved]
    rfl
  · cases hstep : moveDataset h moved (content w) with
    | none => exact hsame (migrateDataset_fails hmoved hstep n)
    | some v =>
      unfold moveDataset at hstep
      rw [if_neg (show ¬(content w).legacy moved.1 = [] from hlegacy)] at hstep
      split at hstep
      case isTrue => cases hstep
      case isFalse hfree =>
        have hfree : isBlocked w moved = false := Bool.eq_false_iff.mpr hfree
        cases hok : migratedFiles h moved.2 (legacyFiles w moved.1) with
        | error e =>
          rw [show (content w).legacy moved.1 = legacyFiles w moved.1 from rfl, hok] at hstep
          cases hstep
        | ok out =>
          obtain ⟨-, -, hstops⟩ := @migrateDataset_moves h a moved w out hmoved hlegacy hfree hok
          rcases hstops n with heq | ⟨rest, heq⟩
          · exact hsame heq
          · have hlegacy' : legacyFiles (stop apply (migrateDataset h a moved) w n).1 =
                Function.update (legacyFiles w) moved.1 rest := congrArg Content.legacy heq
            have hstored' : storedFiles (stop apply (migrateDataset h a moved) w n).1 =
                Function.update (storedFiles w) moved.2 out := congrArg Content.stored heq
            unfold LastCopy at hcopy ⊢
            rw [hlegacy', hstored']
            by_cases hsameName : names = moved
            · subst hsameName
              right
              rw [Function.update_self]
              rcases hcopy with hall | ⟨hne, hstored⟩
              · rw [← hall]
                exact ⟨hlegacy, hok⟩
              · -- the target would not be free
                rw [storedFiles_of_free hnames hlegacy hfree] at hstored
                have hpaths := (migratedFiles_spec hstored).1
                rw [List.map_nil, eq_comm, List.map_eq_nil_iff] at hpaths
                exact absurd hpaths hne
            · rw [Function.update_of_ne fun heq => hsameName (eq_of_old hnames hmoved heq),
                Function.update_of_ne fun heq => hsameName (eq_of_new hnames hmoved heq)]
              exact hcopy

private theorem lastCopy_migrate (hnames : names ∈ datasetRenames) (hcopy : LastCopy h w₀ w names)
    (n : ℕ) :
    LastCopy h w₀ (stop apply (migrate h a) w n).1 names := by
  refine @stop_all_keeps _ _ _ apply w (fun w => LastCopy h w₀ w names) _ ?_ hcopy n
  intro s hs w n hcopy
  unfold migrateParts at hs
  simp only [List.mem_append, List.mem_map, List.mem_singleton] at hs
  rcases hs with ((⟨moved, hmoved, rfl⟩ | ⟨tables, -, rfl⟩) | ⟨u, -, rfl⟩) | rfl
  · exact lastCopy_migrateDataset hmoved hnames hcopy n
  · exact lastCopy_quiet renameTable_quiet hcopy n
  · exact lastCopy_quiet updateValues_quiet hcopy n
  · exact lastCopy_quiet rebuildDuckdbViews_quiet hcopy n

end LastCopy

/-! A dataset that is killed in its window -/

section Stuck

variable {h : Host} {a : Attempt} {w : World} {names : String × String}

private theorem migrateDataset_blocked (hnames : names ∈ datasetRenames)
    (hblocked : isBlocked w names = true) :
    (migrateDataset h a names w).raised ≠ none := by
  have hlegacy : legacyFiles w names.1 ≠ [] := by
    intro hnil
    rw [legacyFiles, if_pos (List.mem_map_of_mem hnames)] at hnil
    unfold isBlocked at hblocked
    rw [hnil] at hblocked
    simp at hblocked
  obtain ⟨hdirs, -, hclean⟩ := @working_clear a names w
  have hraised : (datasetBody h a names (treeAt w names.1).parquetFiles
      (after apply (rmtreeIfExists a (tmpDirOf a names.2)) w)).raised ≠ none := by
    cases hok : migratedFiles h names.2 (treeAt w names.1).parquetFiles with
    | error e => exact (datasetBody_error hok).1
    | ok out =>
      obtain ⟨w₁, written, heq, -, -⟩ := @datasetBody_written h a names _ out _ hok hclean
      have hne : names.2 ≠ tmpDirOf a names.2 := fun heq =>
        tmpDirOf_not_known a names.2 (heq ▸ new_known hnames)
      rw [heq]
      refine (placeTree_refuses ?_).1
      rw [written.dirs _ hne, hdirs _ (new_known hnames), ← isBlocked_eq hnames hlegacy, hblocked]
  rw [migrateDataset_eq hlegacy hnames, (seq_of_none rmtreeIfExists_after.1).1]
  unfold onError
  cases hx : (datasetBody h a names (treeAt w names.1).parquetFiles
      (after apply (rmtreeIfExists a (tmpDirOf a names.2)) w)).raised with
  | none => exact absurd hx hraised
  | some x =>
    simp only
    intro hnone
    exact Option.some_ne_none x (Option.or_eq_none_iff.mp hnone).2

private theorem isBlocked_after {other : String × String} (hother : other ∈ datasetRenames)
    (hne : names ≠ other) (hblocked : isBlocked w names = true) :
    isBlocked (after apply (migrateDataset h a other) w) names = true := by
  have hsame : content (after apply (migrateDataset h a other) w) = content w →
      isBlocked (after apply (migrateDataset h a other) w) names = true := by
    intro heq
    rw [show isBlocked (after apply (migrateDataset h a other) w) = isBlocked w from
      congrArg Content.blocked heq]
    exact hblocked
  cases hstep : moveDataset h other (content w) with
  | none =>
    refine hsame ?_
    rw [← stop_length]
    exact migrateDataset_fails hother hstep _
  | some v =>
    obtain ⟨-, hend⟩ := (@migrateDataset_refines h a other hother).completes w v hstep
    unfold moveDataset at hstep
    split at hstep
    case isTrue => exact hsame (hend.trans (Option.some.inj hstep).symm)
    case isFalse =>
      split at hstep
      case isTrue => cases hstep
      case isFalse =>
        split at hstep
        case h_2 => cases hstep
        case h_1 files hok =>
          rw [← Option.some.inj hstep] at hend
          rw [show isBlocked (after apply (migrateDataset h a other) w) =
            Function.update (isBlocked w) other false from congrArg Content.blocked hend,
            Function.update_of_ne hne]
          exact hblocked

/-- Once a dataset has migrated files next to legacy ones, no attempt completes. -/
private theorem migrate_stuck (hnames : names ∈ datasetRenames)
    (hblocked : isBlocked w names = true) :
    (migrate h a w).raised ≠ none := by
  have hdatasets : ∀ (l : List (String × String)) (rest : List Script) (w : World),
      (∀ other ∈ l, other ∈ datasetRenames) → names ∈ l → isBlocked w names = true →
        (all apply (l.map (migrateDataset h a) ++ rest) w).raised ≠ none := by
    intro l rest
    induction l with
    | nil =>
      intro w _ hmem
      cases hmem
    | cons other l ih =>
      intro w hl hmem hblocked
      rw [List.map_cons, List.cons_append, all]
      by_cases hraised : (migrateDataset h a other w).raised = none
      · rw [(seq_of_none hraised).1]
        have hne : names ≠ other := by
          rintro rfl
          exact migrateDataset_blocked hnames hblocked hraised
        exact ih _ (fun m hm => hl m (List.mem_cons_of_mem _ hm))
          ((List.mem_cons.mp hmem).resolve_left hne)
          (isBlocked_after (hl other List.mem_cons_self) hne hblocked)
      · rw [seq_of_some hraised]
        exact hraised
  unfold migrate migrateParts
  rw [List.append_assoc, List.append_assoc]
  exact hdatasets datasetRenames _ w (fun _ hmem => hmem) hnames hblocked

end Stuck

/-! The migration, killed and started again -/

/-- Kills at any place leave the last copy of every dataset. If nothing stands in the way of the
migration, the first attempt that is not killed completes after any kills outside of the windows,
with the datasets and the metadata tables of one uninterrupted migration. -/
theorem migration_resumes (h : Host) (w₀ : World) :
    (∀ kills, ∀ names ∈ datasetRenames,
      LastCopy h w₀ (attempts apply (migrate h) w₀ kills) names) ∧
    ∀ target, migrated h (content w₀) = some target →
      (∀ a, (migrate h a w₀).raised = none ∧ content (after apply (migrate h a) w₀) = target) ∧
      ∀ kills, KilledOutside apply InWindow (migrate h) w₀ kills → ∀ a,
        (migrate h a (attempts apply (migrate h) w₀ kills)).raised = none ∧
          content (after apply (migrate h a) (attempts apply (migrate h) w₀ kills)) = target := by
  refine ⟨?_, ?_⟩
  · intro kills names hnames
    exact @attempts_keep _ _ _ apply _ (migrate h) w₀ (fun w => LastCopy h w₀ w names) kills
      (fun a w n hcopy => lastCopy_migrate hnames hcopy n) (Or.inl rfl)
  · intro target hmigrated
    have hcomplete : ∀ kills, KilledOutside apply InWindow (migrate h) w₀ kills → ∀ a,
        (migrate h a (attempts apply (migrate h) w₀ kills)).raised = none ∧
          content (after apply (migrate h a) (attempts apply (migrate h) w₀ kills)) = target :=
      fun kills houtside a => attempts_complete migrateParts_refine migration_stable hmigrated houtside a
    exact ⟨fun a => hcomplete [] trivial a, hcomplete⟩

/-! A legacy dataset of one file -/

def plainHost : Host := ⟨.plain, fun _ => true, fun _ => true⟩

def plainAttempt : Attempt where
  timestamp := "20240102_160000"
  listing tree := tree.files.map File.path
  perm _ := List.Perm.refl _

/-- `daily_k_none/code=sh.600000/data.parquet`, with one bar. -/
def legacyTree : Tree where
  files := [⟨["code=sh.600000", "data.parquet"], some ⟨["date", "code"], fun _ => .object,
    [rowOf [("date", .date 19724), ("code", .text "sh.600000")]]⟩⟩]
  distinct := List.nodup_singleton _

def legacyWorld : World := ⟨[("daily_k_none", legacyTree)], none⟩

private theorem legacyWorld_migrated :
    (migrated plainHost (content legacyWorld)).isSome = true := by
  decide +kernel

def isInsert : Option Step → Bool
  | some (.insertInto _ _ _) => true
  | _ => false

/-- The rows of the stored daily bars, file by file. -/
def migratedBars (c : Content) : List (Option ℕ) :=
  (c.stored "baostock_cn_stock_daily_bar_unadjusted").map fun file =>
    file.frame.map fun df => df.rows.length

/-- Killed while the working directory is written, the migration is done by the next attempt. -/
theorem migration_resumes_written : ∃ target, migrated plainHost (content legacyWorld) = some target ∧
    migratedBars target = [some 1] ∧
    ∀ a, (migrate plainHost a (attempts apply (migrate plainHost) legacyWorld
        [(plainAttempt, 3)])).raised = none ∧
      content (after apply (migrate plainHost a) (attempts apply (migrate plainHost) legacyWorld
        [(plainAttempt, 3)])) = target := by
  have hrows : (migrated plainHost (content legacyWorld)).map migratedBars = some [some 1] := by
    decide +kernel
  obtain ⟨target, htarget, hone⟩ := Option.map_eq_some_iff.mp hrows
  have houtside : ¬InWindow (stop apply (migrate plainHost plainAttempt) legacyWorld 3) := by
    rintro (⟨names, hnames, hblocked⟩ | ⟨old, new, rows, hlast, -⟩)
    · have hfree : ∀ names ∈ datasetRenames, isBlocked (stop apply (migrate plainHost plainAttempt)
        legacyWorld 3).1 names = false := by decide +kernel
      exact absurd hblocked (by rw [show (content _).blocked names = _ from hfree names hnames]; decide)
    · have hinsert : isInsert (stop apply (migrate plainHost plainAttempt) legacyWorld 3).2 = false := by
        decide +kernel
      rw [hlast] at hinsert
      cases hinsert
  exact ⟨target, htarget, hone, ((migration_resumes plainHost legacyWorld).2 target htarget).2
    [(plainAttempt, 3)] ⟨houtside, trivial⟩⟩

/-- One run of an update, in the table of the old name and in that of the new one. -/
def runTable : Table where
  columns := ["dataset"]
  rows := [fun _ => .text "calendar"]
  fit _ row := some row
  admits _ := true

def metadataWorld : World where
  dirs := []
  tables := some fun name => if name = "update_runs" ∨ name = "pipeline_runs" then some runTable else none

def pipelineRuns (w : World) : Option ℕ :=
  (tablesOf w "pipeline_runs").map fun table => table.rows.length

private theorem blocked_after_rename : isBlocked
    (attempts apply (migrate plainHost) legacyWorld [(plainAttempt, 4)])
      ("daily_k_none", "baostock_cn_stock_daily_bar_unadjusted") = true := by
  decide +kernel

/-- Killed after the migrated tree has taken its place, the migration never completes; killed after
the rows of a metadata table were copied, it copies them once more. -/
theorem migration_killed_in_window :
    ((migrated plainHost (content legacyWorld)).isSome = true ∧
      ∀ a, (migrate plainHost a (attempts apply (migrate plainHost) legacyWorld
        [(plainAttempt, 4)])).raised ≠ none) ∧
    pipelineRuns (after apply (migrate plainHost plainAttempt) metadataWorld) = some 2 ∧
    pipelineRuns (after apply (migrate plainHost plainAttempt)
      (attempts apply (migrate plainHost) metadataWorld [(plainAttempt, 1)])) = some 3 := by
  refine ⟨⟨legacyWorld_migrated, fun a => ?_⟩, by decide +kernel, by decide +kernel⟩
  exact migrate_stuck (by decide) blocked_after_rename

end QuantDataCenter.Scripts
