import QuantDataCenter.Scripts.NamingMigration

/-!
What the naming migration is about: the legacy files, the files of the datasets and the tables. The
steps of the migration of one dataset, and what is seen of it when it is killed.
-/

set_option autoImplicit false
set_option relaxedAutoImplicit false

namespace QuantDataCenter.Scripts

open QuantDataCenter.Lib QuantDataCenter.Lib.Restart QuantDataCenter.Tabular QuantDataCenter.Storage

/-! What the migration is about -/

structure Content where
  /-- The files that are to be migrated, by the old name of their dataset. -/
  legacy : String → List File
  stored : String → List File
  /-- The dataset has files to migrate and files in its place already. -/
  blocked : String × String → Bool
  tables : String → Option Table

def legacyFiles (w : World) (name : String) : List File :=
  if name ∈ datasetRenames.map Prod.fst then (treeAt w name).parquetFiles else []

def isBlocked (w : World) (names : String × String) : Bool :=
  datasetRenames.contains names && !(treeAt w names.1).parquetFiles.isEmpty &&
    (treeAt w names.2).files.any File.isParquet

def tablesOf (w : World) : String → Option Table := w.tables.getD fun _ => none

def content (w : World) : Content := ⟨legacyFiles w, storedFiles w, isBlocked w, tablesOf w⟩

def migratedFiles (h : Host) (newDataset : String) (files : List File) :
    Except StoreError (List File) :=
  files.mapM fun file => (cleanedFile h newDataset file).map fun cleaned => ⟨file.path, some cleaned⟩

/-- The files are in place; the rest of the legacy files is still there. -/
def Content.move (c : Content) (names : String × String) (rest files : List File) : Content :=
  { c with
    legacy := Function.update c.legacy names.1 rest
    stored := Function.update c.stored names.2 files
    blocked := Function.update c.blocked names (!rest.isEmpty) }

def moveDataset (h : Host) (names : String × String) (c : Content) : Option Content :=
  if c.legacy names.1 = [] then some c
  else if c.blocked names then none
  else match migratedFiles h names.2 (c.legacy names.1) with
    | .ok files => some (c.move names [] files)
    | .error _ => none

/-! Names -/

def knownNames : List String :=
  datasetRenames.map Prod.fst ++ datasetCatalog.map DatasetDefinition.id

private theorem known_ne_hidden :
    ∀ name ∈ knownNames, name.toList.head? ≠ some '.' := by decide +kernel

theorem new_mem_catalog : ∀ names ∈ datasetRenames,
    names.2 ∈ datasetCatalog.map DatasetDefinition.id ∧
      names.1 ∉ datasetCatalog.map DatasetDefinition.id := by decide +kernel

private theorem renames_nodup :
    (datasetRenames.map Prod.fst).Nodup ∧ (datasetRenames.map Prod.snd).Nodup := by decide +kernel

theorem tmpDirOf_not_known (a : Attempt) (newDataset : String) :
    tmpDirOf a newDataset ∉ knownNames := by
  intro hmem
  refine known_ne_hidden _ hmem ?_
  unfold tmpDirOf
  rw [String.append_assoc, String.append_assoc, String.toList_append]
  rfl

section Names

variable {names names' : String × String}

private theorem old_known (hnames : names ∈ datasetRenames) : names.1 ∈ knownNames :=
  List.mem_append_left _ (List.mem_map_of_mem hnames)

theorem new_known (hnames : names ∈ datasetRenames) : names.2 ∈ knownNames :=
  List.mem_append_right _ (new_mem_catalog names hnames).1

private theorem old_ne_new (hnames : names ∈ datasetRenames) (hnames' : names' ∈ datasetRenames) :
    names.1 ≠ names'.2 := by
  intro heq
  have hold := (new_mem_catalog names hnames).2
  rw [heq] at hold
  exact hold (new_mem_catalog names' hnames').1

theorem eq_of_old (hnames : names ∈ datasetRenames) (hnames' : names' ∈ datasetRenames)
    (heq : names.1 = names'.1) : names = names' :=
  List.inj_on_of_nodup_map renames_nodup.1 hnames hnames' heq

theorem eq_of_new (hnames : names ∈ datasetRenames) (hnames' : names' ∈ datasetRenames)
    (heq : names.2 = names'.2) : names = names' :=
  List.inj_on_of_nodup_map renames_nodup.2 hnames hnames' heq

end Names

/-! Trees -/

section Trees

variable {w w' : World} {dir name : String} {tree : Tree} {names : String × String}
  {files rest : List File}

theorem content_congr (hdirs : ∀ name ∈ knownNames, treeAt w' name = treeAt w name)
    (htables : tablesOf w' = tablesOf w) : content w' = content w := by
  have hlegacy : legacyFiles w' = legacyFiles w := by
    funext name
    unfold legacyFiles
    split
    case isTrue hmem => rw [hdirs name (List.mem_append_left _ hmem)]
    case isFalse => rfl
  have hstored : storedFiles w' = storedFiles w := by
    funext name
    unfold storedFiles
    split
    case isTrue hmem => rw [hdirs name (List.mem_append_right _ hmem)]
    case isFalse => rfl
  have hblocked : isBlocked w' = isBlocked w := by
    funext names
    unfold isBlocked
    by_cases hmem : names ∈ datasetRenames
    · rw [hdirs _ (old_known hmem), hdirs _ (new_known hmem)]
    · simp only [List.contains_eq_mem, hmem, decide_false, Bool.false_and]
  unfold content
  rw [hlegacy, hstored, hblocked, htables]

private theorem isData_isParquet {file : File} (h : file.isData = true) : file.isParquet = true :=
  (Bool.and_eq_true_iff.mp h).1

theorem isData_not_isTmp {file : File} (h : file.isData = true) : file.isTmp = false := by
  have hinfix := (Bool.and_eq_true_iff.mp h).2
  rw [Bool.not_eq_true', decide_eq_false_iff_not] at hinfix
  unfold File.isTmp endsWith
  exact decide_eq_false fun hsuffix => hinfix hsuffix.isInfix

private theorem mem_parquetFiles {file : File} :
    file ∈ tree.parquetFiles ↔ file ∈ tree.files ∧ file.isData = true := by
  unfold Tree.parquetFiles
  rw [(List.perm_insertionSort _ _).mem_iff, List.mem_filter]

private theorem content_of_move (hnames : names ∈ datasetRenames)
    (hdirs : ∀ name ∈ knownNames, name ≠ names.1 → name ≠ names.2 → treeAt w' name = treeAt w name)
    (htables : tablesOf w' = tablesOf w) (hfiles : (treeAt w' names.2).files = files)
    (hdata : ∀ file ∈ files, file.isData = true) (hne : files ≠ []) :
    content w' = (content w).move names (treeAt w' names.1).parquetFiles files := by
  have hlegacy : legacyFiles w' =
      Function.update (legacyFiles w) names.1 (treeAt w' names.1).parquetFiles := by
    funext name
    by_cases heq : name = names.1
    · subst heq
      rw [Function.update_self, legacyFiles, if_pos (List.mem_map_of_mem hnames)]
    · rw [Function.update_of_ne heq]
      unfold legacyFiles
      split
      case isTrue hmem =>
        obtain ⟨names', hnames', rfl⟩ := List.mem_map.mp hmem
        rw [hdirs _ (old_known hnames') heq (old_ne_new hnames' hnames)]
      case isFalse => rfl
  have hstored : storedFiles w' = Function.update (storedFiles w) names.2 files := by
    funext name
    by_cases heq : name = names.2
    · subst heq
      rw [Function.update_self, storedFiles, if_pos (new_mem_catalog names hnames).1, hfiles,
        List.filter_eq_self]
      intro file hfile
      rw [isData_isParquet (hdata file hfile), isData_not_isTmp (hdata file hfile)]
      rfl
    · rw [Function.update_of_ne heq]
      unfold storedFiles
      split
      case isTrue hmem =>
        have hold : name ≠ names.1 := by
          rintro rfl
          exact (new_mem_catalog names hnames).2 hmem
        rw [hdirs name (List.mem_append_right _ hmem) hold heq]
      case isFalse => rfl
  have hblocked : isBlocked w' =
      Function.update (isBlocked w) names (!(treeAt w' names.1).parquetFiles.isEmpty) := by
    funext names'
    by_cases heq : names' = names
    · subst heq
      have hany : (treeAt w' names'.2).files.any File.isParquet = true := by
        obtain ⟨file, hfile⟩ := List.exists_mem_of_ne_nil files hne
        rw [hfiles, List.any_eq_true]
        exact ⟨file, hfile, isData_isParquet (hdata file hfile)⟩
      rw [Function.update_self, isBlocked, hany, List.contains_eq_mem, decide_eq_true hnames,
        Bool.true_and, Bool.and_true]
    · rw [Function.update_of_ne heq]
      unfold isBlocked
      by_cases hmem : names' ∈ datasetRenames
      · rw [hdirs _ (old_known hmem) (fun h => heq (eq_of_old hmem hnames h)) (old_ne_new hmem hnames),
          hdirs _ (new_known hmem) (old_ne_new hnames hmem).symm
            (fun h => heq (eq_of_new hmem hnames h))]
      · simp only [List.contains_eq_mem, hmem, decide_false, Bool.false_and]
  unfold content Content.move
  rw [hlegacy, hstored, hblocked, htables]

end Trees

/-! Programs that stay within one directory -/

section Within

/-- The step changes nothing outside of the directory. -/
def Step.Within (dir : String) : Step → Prop
  | .mkdir dir' | .create dir' _ | .write dir' _ _ | .unlink dir' _ | .rmdir dir' => dir' = dir
  | _ => False

abbrev StaysIn (dir : String) (s : Script) : Prop := Emits (Step.Within dir) s

variable {dir name : String} {w : World} {s t : Script} {a : Attempt}

private theorem treeAt_setDir_of_ne (hne : name ≠ dir) (tree : Tree) :
    treeAt (w.setDir dir tree) name = treeAt w name := by
  unfold treeAt World.setDir
  rw [Dict.get_set_of_ne hne]

theorem treeAt_setDir_self (tree : Tree) : treeAt (w.setDir dir tree) dir = tree := by
  unfold treeAt World.setDir
  rw [Dict.get_set_self, Option.getD_some]

private theorem get_eraseDir : Dict.get name (w.eraseDir dir).dirs =
    if name = dir then none else Dict.get name w.dirs := by
  unfold World.eraseDir
  rw [Dict.get_filter (fun key => decide (key ≠ dir))]
  by_cases heq : name = dir
  · simp [heq]
  · simp [heq]

private theorem treeAt_eraseDir_of_ne (hne : name ≠ dir) :
    treeAt (w.eraseDir dir) name = treeAt w name := by
  unfold treeAt
  rw [get_eraseDir, if_neg hne]

theorem treeAt_editDir_of_ne (hne : name ≠ dir) (f : Tree → Tree) :
    treeAt (w.editDir dir f) name = treeAt w name := by
  unfold World.editDir
  split
  · exact treeAt_setDir_of_ne hne _
  · rfl

theorem tables_editDir (f : Tree → Tree) : (w.editDir dir f).tables = w.tables := by
  unfold World.editDir
  split <;> rfl

private theorem apply_within {step : Step} (h : step.Within dir) :
    (∀ name ≠ dir, treeAt (apply w step) name = treeAt w name) ∧
      (apply w step).tables = w.tables := by
  cases step with
  | mkdir dir' =>
    obtain rfl := h
    simp only [apply]
    split
    · exact ⟨fun _ _ => rfl, rfl⟩
    · exact ⟨fun name hne => treeAt_setDir_of_ne hne _, rfl⟩
  | create dir' path =>
    obtain rfl := h
    exact ⟨fun name hne => treeAt_editDir_of_ne hne _, tables_editDir _⟩
  | write dir' path frame =>
    obtain rfl := h
    exact ⟨fun name hne => treeAt_editDir_of_ne hne _, tables_editDir _⟩
  | unlink dir' path =>
    obtain rfl := h
    exact ⟨fun name hne => treeAt_editDir_of_ne hne _, tables_editDir _⟩
  | rmdir dir' =>
    obtain rfl := h
    exact ⟨fun name hne => treeAt_eraseDir_of_ne hne, rfl⟩
  | rename | connect | alterRename | insertInto | dropTable | update => cases h

private theorem foldl_within {steps : List Step} (h : ∀ step ∈ steps, step.Within dir) :
    (∀ name ≠ dir, treeAt (steps.foldl apply w) name = treeAt w name) ∧
      (steps.foldl apply w).tables = w.tables := by
  induction steps generalizing w with
  | nil => exact ⟨fun _ _ => rfl, rfl⟩
  | cons step steps ih =>
    obtain ⟨hdirs, htables⟩ := @apply_within dir w step (h step List.mem_cons_self)
    obtain ⟨hdirs', htables'⟩ := @ih (apply w step) fun step hstep => h step (List.mem_cons_of_mem _ hstep)
    refine ⟨?_, htables'.trans htables⟩
    intro name hne
    exact (hdirs' name hne).trans (hdirs name hne)

private theorem staysIn_after (h : StaysIn dir s) :
    (∀ name ≠ dir, treeAt (after apply s w) name = treeAt w name) ∧
      (after apply s w).tables = w.tables :=
  foldl_within (h w)

private theorem staysIn_stop (h : StaysIn dir s) (n : ℕ) :
    (∀ name ≠ dir, treeAt (stop apply s w n).1 name = treeAt w name) ∧
      (stop apply s w n).1.tables = w.tables :=
  foldl_within fun step hstep => h w step (List.mem_of_mem_take hstep)

private theorem rmtree_staysIn : StaysIn dir (rmtree a dir) := by
  intro w step hstep
  unfold rmtree at hstep
  split at hstep
  · cases hstep
  · rcases List.mem_append.mp hstep with hstep | hstep
    · obtain ⟨path, -, rfl⟩ := List.mem_map.mp hstep
      exact rfl
    · obtain rfl := List.mem_singleton.mp hstep
      exact rfl

private theorem rmtreeIfExists_staysIn : StaysIn dir (rmtreeIfExists a dir) := by
  intro w step hstep
  unfold rmtreeIfExists at hstep
  split at hstep
  · exact rmtree_staysIn w step hstep
  · cases hstep

private theorem clearTarget_staysIn : StaysIn dir (clearTarget a dir) := by
  intro w step hstep
  unfold clearTarget at hstep
  split at hstep
  · cases hstep
  · exact rmtreeIfExists_staysIn w step hstep

private theorem writeMigratedFile_staysIn {h : Host} {newDataset : String} {file : File} :
    StaysIn dir (writeMigratedFile h dir newDataset file) := by
  intro w step hstep
  unfold writeMigratedFile at hstep
  cases hcleaned : cleanedFile h newDataset file with
  | error e =>
    simp only [hcleaned, List.mem_singleton] at hstep
    obtain rfl := hstep
    exact rfl
  | ok cleaned =>
    simp only [hcleaned, emits, List.mem_cons, List.not_mem_nil, or_false] at hstep
    rcases hstep with rfl | rfl | rfl <;> exact rfl

private theorem writeMigratedParquetTree_staysIn {h : Host} {newDataset : String}
    {files : List File} :
    StaysIn dir (writeMigratedParquetTree h dir newDataset files) := by
  refine Emits.all ?_
  intro s hs
  obtain ⟨file, -, rfl⟩ := List.mem_map.mp hs
  exact writeMigratedFile_staysIn

private theorem validateMigratedTree_steps {tmpDir : String} {expected : ℕ} :
    (validateMigratedTree tmpDir expected w).steps = [] := by
  have hite : ∀ (p : Prop) [Decidable p] (out out' : Outcome Step Failure), out.steps = [] →
      out'.steps = [] → (if p then out else out').steps = [] := by
    intro p _ out out' hout hout'
    split
    · exact hout
    · exact hout'
  unfold validateMigratedTree
  exact hite _ _ _ rfl (hite _ _ _ rfl rfl)

private theorem content_stop_of_staysIn (h : StaysIn dir s) (hdir : dir ∉ knownNames) (n : ℕ) :
    content (Restart.stop apply s w n).1 = content w := by
  obtain ⟨hdirs, htables⟩ := @staysIn_stop dir w s h n
  refine content_congr ?_ (by unfold tablesOf; rw [htables])
  intro name hname
  exact hdirs name fun heq => hdir (heq ▸ hname)

private theorem content_after_of_staysIn (h : StaysIn dir s) (hdir : dir ∉ knownNames) :
    content (Restart.after apply s w) = content w := by
  rw [← stop_length]
  exact content_stop_of_staysIn h hdir _

end Within

/-! Removal of a tree -/

section Removal

variable {dir : String} {w : World} {a : Attempt}

private theorem rmtree_after {tree : Tree} (h : Dict.get dir w.dirs = some tree) :
    (rmtree a dir w).raised = none ∧ Dict.get dir (after apply (rmtree a dir) w).dirs = none := by
  unfold after rmtree
  simp only [h, List.foldl_append, List.foldl_cons, List.foldl_nil, apply, true_and]
  rw [get_eraseDir, if_pos rfl]

theorem rmtreeIfExists_after :
    (rmtreeIfExists a dir w).raised = none ∧
      Dict.get dir (after apply (rmtreeIfExists a dir) w).dirs = none := by
  unfold rmtreeIfExists
  cases hdir : Dict.get dir w.dirs with
  | none =>
    unfold after
    simp only [hdir, Option.isSome_none, Bool.false_eq_true, if_false]
    exact ⟨rfl, hdir⟩
  | some tree =>
    unfold after
    simp only [hdir, Option.isSome_some, if_true]
    exact rmtree_after hdir

private theorem foldl_removal {steps : List Step}
    (h : ∀ step ∈ steps, (∃ path, step = .unlink dir path) ∨ step = .rmdir dir) :
    (treeAt (steps.foldl apply w) dir).files.Sublist (treeAt w dir).files := by
  induction steps generalizing w with
  | nil => exact List.Sublist.refl _
  | cons step steps ih =>
    refine (ih fun step hstep => h step (List.mem_cons_of_mem _ hstep)).trans ?_
    rcases h step List.mem_cons_self with ⟨path, rfl⟩ | rfl
    · simp only [apply, World.editDir]
      cases hdir : Dict.get dir w.dirs with
      | none => exact List.Sublist.refl _
      | some tree =>
        simp only
        rw [treeAt_setDir_self, treeAt, hdir, Option.getD_some]
        exact List.filter_sublist
    · simp only [apply, treeAt]
      rw [get_eraseDir, if_pos rfl, Option.getD_none]
      exact List.nil_sublist _

private theorem rmtreeIfExists_stop (n : ℕ) :
    (treeAt (stop apply (rmtreeIfExists a dir) w n).1 dir).files.Sublist (treeAt w dir).files := by
  refine foldl_removal ?_
  intro step hstep
  have hmem := List.mem_of_mem_take hstep
  unfold rmtreeIfExists rmtree at hmem
  split at hmem
  · split at hmem
    · cases hmem
    · rcases List.mem_append.mp hmem with hmem | hmem
      · obtain ⟨path, -, rfl⟩ := List.mem_map.mp hmem
        exact Or.inl ⟨path, rfl⟩
      · exact Or.inr (List.mem_singleton.mp hmem)
  · cases hmem

end Removal

/-! The migrated tree -/

section Writing

variable {h : Host} {dir newDataset : String} {w : World} {file : File} {files out : List File}

private theorem migratedFiles_cons : migratedFiles h newDataset (file :: files) = .ok out ↔
    ∃ cleaned rest, cleanedFile h newDataset file = .ok cleaned ∧
      migratedFiles h newDataset files = .ok rest ∧ out = ⟨file.path, some cleaned⟩ :: rest := by
  unfold migratedFiles
  rw [List.mapM_cons]
  constructor
  · intro hcons
    obtain ⟨first, hfirst, hcons⟩ := Checked.bind_eq_ok.mp hcons
    obtain ⟨rest, hrest, hout⟩ := Checked.bind_eq_ok.mp hcons
    obtain ⟨cleaned, hcleaned, rfl⟩ := Checked.map_eq_ok.mp hfirst
    exact ⟨cleaned, rest, hcleaned, hrest, (Except.ok.inj hout).symm⟩
  · rintro ⟨cleaned, rest, hcleaned, hrest, rfl⟩
    refine Checked.bind_eq_ok.mpr ⟨_, Checked.map_eq_ok.mpr ⟨cleaned, hcleaned, rfl⟩, ?_⟩
    exact Checked.bind_eq_ok.mpr ⟨rest, hrest, rfl⟩

theorem migratedFiles_spec (hok : migratedFiles h newDataset files = .ok out) :
    out.map File.path = files.map File.path ∧ ∀ file ∈ out, file.frame.isSome = true := by
  induction files generalizing out with
  | nil =>
    obtain rfl := Except.ok.inj hok
    exact ⟨rfl, fun file hfile => by cases hfile⟩
  | cons file files ih =>
    obtain ⟨cleaned, rest, -, hrest, rfl⟩ := migratedFiles_cons.mp hok
    obtain ⟨hpaths, hframes⟩ := ih hrest
    refine ⟨by rw [List.map_cons, List.map_cons, hpaths], ?_⟩
    intro file hfile
    rcases List.mem_cons.mp hfile with rfl | hfile
    · exact rfl
    · exact hframes file hfile

private theorem isData_congr {file file' : File} (heq : file.path = file'.path) :
    file.isData = file'.isData := by
  unfold File.isData File.isParquet File.name
  rw [heq]

private theorem migratedFiles_isData (hok : migratedFiles h newDataset files = .ok out)
    (hdata : ∀ file ∈ files, file.isData = true) : ∀ file ∈ out, file.isData = true := by
  intro file hfile
  have hpath : file.path ∈ files.map File.path := by
    rw [← (migratedFiles_spec hok).1]
    exact List.mem_map_of_mem hfile
  obtain ⟨source, hsource, heq⟩ := List.mem_map.mp hpath
  rw [isData_congr heq.symm]
  exact hdata source hsource

private theorem get_of_files_ne (hne : (treeAt w dir).files ≠ []) :
    Dict.get dir w.dirs = some (treeAt w dir) := by
  unfold treeAt at hne ⊢
  cases hget : Dict.get dir w.dirs with
  | none =>
    rw [hget] at hne
    exact absurd rfl hne
  | some tree => rfl

private theorem get_mkdir : Dict.get dir (apply w (.mkdir dir)).dirs = some (treeAt w dir) := by
  simp only [apply, treeAt]
  cases hget : Dict.get dir w.dirs with
  | none =>
    simp only [Option.isSome_none, Bool.false_eq_true, if_false, Option.getD_none]
    exact Dict.get_set_self _ _ _
  | some tree => simp only [Option.isSome_some, if_true, hget, Option.getD_some]

private theorem get_editDir {tree : Tree} (hget : Dict.get dir w.dirs = some tree)
    (f : Tree → Tree) :
    Dict.get dir (w.editDir dir f).dirs = some (f tree) := by
  unfold World.editDir
  simp only [hget]
  exact Dict.get_set_self _ _ _

private theorem remove_of_not_mem {tree : Tree} {path : Path}
    (hpath : path ∉ tree.files.map File.path) :
    (tree.remove path).files = tree.files := by
  unfold Tree.remove
  rw [List.filter_eq_self]
  intro file hfile
  exact decide_eq_true fun heq => hpath (heq ▸ List.mem_map_of_mem hfile)

private theorem put_put {tree : Tree} {path : Path} {frame : Frame}
    (hpath : path ∉ tree.files.map File.path) :
    ((tree.put ⟨path, none⟩).put ⟨path, some frame⟩).files = tree.files ++ [⟨path, some frame⟩] := by
  have hput : (tree.put ⟨path, none⟩).files = tree.files ++ [⟨path, none⟩] := by
    show (tree.remove path).files ++ [_] = _
    rw [remove_of_not_mem hpath]
  show (Tree.remove (tree.put ⟨path, none⟩) path).files ++ [_] = _
  have hremoved : (Tree.remove (tree.put ⟨path, none⟩) path).files = tree.files := by
    show (tree.put ⟨path, none⟩).files.filter _ = _
    rw [hput, List.filter_append]
    show (tree.remove path).files ++ _ = _
    rw [remove_of_not_mem hpath]
    simp
  rw [hremoved]

private theorem writeMigratedFile_ok {cleaned : Frame}
    (hcleaned : cleanedFile h newDataset file = .ok cleaned)
    (hpath : file.path ∉ (treeAt w dir).files.map File.path) :
    (writeMigratedFile h dir newDataset file w).raised = none ∧
      (treeAt (after apply (writeMigratedFile h dir newDataset file) w) dir).files =
        (treeAt w dir).files ++ [⟨file.path, some cleaned⟩] := by
  have hsteps : writeMigratedFile h dir newDataset file w =
      ⟨[.mkdir dir, .create dir file.path, .write dir file.path cleaned], none⟩ := by
    unfold writeMigratedFile
    simp only [hcleaned, emits]
  refine ⟨by rw [hsteps], ?_⟩
  have hget := get_editDir (get_editDir (@get_mkdir dir w) fun tree => tree.put ⟨file.path, none⟩)
    fun tree => tree.put ⟨file.path, some cleaned⟩
  unfold after
  rw [hsteps]
  show (treeAt (((apply w (.mkdir dir)).editDir dir _).editDir dir _) dir).files = _
  rw [treeAt, hget, Option.getD_some, put_put hpath]

/-- The tree is written in full if and only if every file can be converted. -/
private theorem writeMigratedParquetTree_ok (hok : migratedFiles h newDataset files = .ok out)
    (hdistinct : ((treeAt w dir).files.map File.path ++ files.map File.path).Nodup) :
    (writeMigratedParquetTree h dir newDataset files w).raised = none ∧
      (treeAt (after apply (writeMigratedParquetTree h dir newDataset files) w) dir).files =
        (treeAt w dir).files ++ out := by
  induction files generalizing w out with
  | nil =>
    obtain rfl := Except.ok.inj hok
    exact ⟨rfl, (List.append_nil _).symm⟩
  | cons file files ih =>
    obtain ⟨cleaned, rest, hcleaned, hrest, rfl⟩ := migratedFiles_cons.mp hok
    have hpath : file.path ∉ (treeAt w dir).files.map File.path := by
      intro hmem
      exact List.disjoint_of_nodup_append hdistinct hmem List.mem_cons_self
    obtain ⟨hnone, hfiles⟩ := writeMigratedFile_ok hcleaned hpath
    have hdistinct' : ((treeAt (after apply (writeMigratedFile h dir newDataset file) w) dir).files.map
        File.path ++ files.map File.path).Nodup := by
      rw [hfiles, List.map_append, List.append_assoc]
      exact hdistinct
    obtain ⟨hnone', hfiles'⟩ := ih hrest hdistinct'
    obtain ⟨hseq, hafter⟩ := @seq_of_none _ _ _ apply (writeMigratedFile h dir newDataset file)
      (writeMigratedParquetTree h dir newDataset files) w hnone
    unfold writeMigratedParquetTree at *
    rw [List.map_cons, all]
    refine ⟨hseq.trans hnone', ?_⟩
    rw [hafter, hfiles', hfiles, List.append_assoc]
    rfl

private theorem writeMigratedParquetTree_error {e : StoreError}
    (herror : migratedFiles h newDataset files = .error e) :
    (writeMigratedParquetTree h dir newDataset files w).raised ≠ none := by
  induction files generalizing w with
  | nil => cases herror
  | cons file files ih =>
    unfold writeMigratedParquetTree at ih ⊢
    rw [List.map_cons, all]
    cases hcleaned : cleanedFile h newDataset file with
    | error e' =>
      have hraised : (writeMigratedFile h dir newDataset file w).raised = some (.store e') := by
        unfold writeMigratedFile
        simp only [hcleaned]
      unfold seq
      simp only [hraised]
      exact Option.some_ne_none _
    | ok cleaned =>
      have hnone : (writeMigratedFile h dir newDataset file w).raised = none := by
        unfold writeMigratedFile
        simp only [hcleaned, emits]
      rw [(seq_of_none hnone).1]
      refine ih ?_
      unfold migratedFiles at herror ⊢
      rw [List.mapM_cons, hcleaned] at herror
      cases hrest : List.mapM (fun file => (cleanedFile h newDataset file).map fun cleaned =>
          (⟨file.path, some cleaned⟩ : File)) files with
      | error e' =>
        rw [hrest] at herror
        exact herror
      | ok rest =>
        rw [hrest] at herror
        cases herror

private theorem validateMigratedTree_ok (hok : migratedFiles h newDataset files = .ok out)
    (hdata : ∀ file ∈ files, file.isData = true) (hwritten : (treeAt w dir).files = out) :
    validateMigratedTree dir files.length w = skip w := by
  have hfilter : (treeAt w dir).files.filter File.isData = out := by
    rw [hwritten, List.filter_eq_self]
    exact migratedFiles_isData hok hdata
  have hlength : (treeAt w dir).parquetFiles.length = files.length := by
    unfold Tree.parquetFiles
    rw [(List.perm_insertionSort _ _).length_eq, hfilter, ← List.length_map File.path,
      (migratedFiles_spec hok).1, List.length_map]
  have hread : ((treeAt w dir).parquetFiles.any fun file => file.frame.isNone) = false := by
    rw [List.any_eq_false]
    intro file hfile
    have hmem := (mem_parquetFiles.mp hfile).1
    rw [hwritten] at hmem
    rw [← Option.not_isSome, (migratedFiles_spec hok).2 file hmem]
    decide
  unfold validateMigratedTree
  simp only [hlength, ne_eq, not_true_eq_false, if_false, hread, Bool.false_eq_true]

end Writing

/-! One dataset -/

section Dataset

variable {h : Host} {a : Attempt} {names : String × String} {w : World} {files out : List File}

private theorem content_of_cleared {w' : World} (hnames : names ∈ datasetRenames)
    (hdirs : ∀ name ≠ names.2, treeAt w' name = treeAt w name) (htables : w'.tables = w.tables)
    (hempty : (treeAt w names.2).files.any File.isParquet = false)
    (hsub : (treeAt w' names.2).files.Sublist (treeAt w names.2).files) : content w' = content w := by
  have hempty' : (treeAt w' names.2).files.any File.isParquet = false := by
    rw [List.any_eq_false] at hempty ⊢
    intro file hfile
    exact hempty file (hsub.subset hfile)
  have hlegacy : legacyFiles w' = legacyFiles w := by
    funext name
    unfold legacyFiles
    split
    case isTrue hmem =>
      obtain ⟨names', hnames', rfl⟩ := List.mem_map.mp hmem
      rw [hdirs _ (old_ne_new hnames' hnames)]
    case isFalse => rfl
  have hnone : ∀ w : World, (treeAt w names.2).files.any File.isParquet = false →
      storedFiles w names.2 = [] := by
    intro w hany
    rw [storedFiles, if_pos (new_mem_catalog names hnames).1, List.filter_eq_nil_iff]
    intro file hfile
    have hparquet := List.any_eq_false.mp hany file hfile
    simp [hparquet]
  have hstored : storedFiles w' = storedFiles w := by
    funext name
    by_cases heq : name = names.2
    · subst heq
      rw [hnone w hempty, hnone w' hempty']
    · unfold storedFiles
      rw [hdirs name heq]
  have hblocked : isBlocked w' = isBlocked w := by
    funext names'
    unfold isBlocked
    by_cases hmem : names' ∈ datasetRenames
    · rw [hdirs _ (old_ne_new hmem hnames)]
      by_cases heq : names'.2 = names.2
      · rw [heq, hempty, hempty']
      · rw [hdirs _ heq]
    · simp only [List.contains_eq_mem, hmem, decide_false, Bool.false_and]
  unfold content tablesOf
  rw [hlegacy, hstored, hblocked, htables]

/-- The migrated tree takes its place and the legacy one is removed. -/
def placeTree (a : Attempt) (names : String × String) : Script :=
  all apply [clearTarget a names.2, emit (.rename (tmpDirOf a names.2) names.2), rmtree a names.1]

def datasetBody (h : Host) (a : Attempt) (names : String × String) (files : List File) : Script :=
  seq apply (writeMigratedParquetTree h (tmpDirOf a names.2) names.2 files)
    (seq apply (validateMigratedTree (tmpDirOf a names.2) files.length) (placeTree a names))

theorem stop_of_no_steps {s : Script} (hsteps : (s w).steps = []) (n : ℕ) :
    (stop apply s w n).1 = w := by
  unfold stop
  rw [hsteps, List.take_nil]
  rfl

theorem seq_of_some {s t : Script} (hraised : (s w).raised ≠ none) : seq apply s t w = s w := by
  unfold seq
  cases hr : (s w).raised with
  | none => exact absurd hr hraised
  | some x =>
    simp only
    rw [← hr]

private theorem parquetFiles_distinct (tree : Tree) : (tree.parquetFiles.map File.path).Nodup := by
  unfold Tree.parquetFiles
  rw [((List.perm_insertionSort _ _).map File.path).nodup_iff]
  exact tree.distinct.sublist (List.filter_sublist.map File.path)

private theorem isData_of_mem_parquetFiles {tree : Tree} :
    ∀ file ∈ tree.parquetFiles, file.isData = true :=
  fun _ hfile => (mem_parquetFiles.mp hfile).2

/-- The attempt before the migrated tree takes its place: all of it is in the working directory. -/
structure Written (a : Attempt) (names : String × String) (w w₁ : World) (out : List File) : Prop where
  dirs : ∀ name ≠ tmpDirOf a names.2, treeAt w₁ name = treeAt w name
  tables : w₁.tables = w.tables
  written : (treeAt w₁ (tmpDirOf a names.2)).files = out

theorem datasetBody_error {e : StoreError} (herror : migratedFiles h names.2 files = .error e) :
    (datasetBody h a names files w).raised ≠ none ∧
      ∀ n, content (stop apply (datasetBody h a names files) w n).1 = content w := by
  have hraised := @writeMigratedParquetTree_error h (tmpDirOf a names.2) names.2 w files e herror
  have hbody : datasetBody h a names files w =
      writeMigratedParquetTree h (tmpDirOf a names.2) names.2 files w := seq_of_some hraised
  refine ⟨by rw [hbody]; exact hraised, ?_⟩
  intro n
  unfold stop
  rw [hbody]
  exact content_stop_of_staysIn writeMigratedParquetTree_staysIn (tmpDirOf_not_known a names.2) n

theorem datasetBody_written {tree : Tree} (hok : migratedFiles h names.2 tree.parquetFiles = .ok out)
    (hclean : (treeAt w (tmpDirOf a names.2)).files = []) :
    ∃ w₁, Written a names w w₁ out ∧
      (datasetBody h a names tree.parquetFiles w).raised = (placeTree a names w₁).raised ∧
      after apply (datasetBody h a names tree.parquetFiles) w = after apply (placeTree a names) w₁ ∧
      ∀ n, content (stop apply (datasetBody h a names tree.parquetFiles) w n).1 = content w ∨
        ∃ m, stop apply (datasetBody h a names tree.parquetFiles) w n =
          stop apply (placeTree a names) w₁ m := by
  have hdistinct : ((treeAt w (tmpDirOf a names.2)).files.map File.path ++
      tree.parquetFiles.map File.path).Nodup := by
    rw [hclean]
    exact parquetFiles_distinct tree
  have hhidden := tmpDirOf_not_known a names.2
  have hstays := @writeMigratedParquetTree_staysIn (tmpDirOf a names.2) h names.2 tree.parquetFiles
  obtain ⟨hnone, hfiles⟩ := writeMigratedParquetTree_ok hok hdistinct
  obtain ⟨hdirs, htables⟩ := @staysIn_after _ w _ hstays
  rw [hclean, List.nil_append] at hfiles
  have hvalid := validateMigratedTree_ok hok isData_of_mem_parquetFiles hfiles
  refine ⟨_, ⟨hdirs, htables, hfiles⟩, ?_⟩
  generalize hw₁ : after apply (writeMigratedParquetTree h (tmpDirOf a names.2) names.2
    tree.parquetFiles) w = w₁ at *
  have hcontent : content w₁ = content w := by
    rw [← hw₁]
    exact content_after_of_staysIn hstays hhidden
  have hvalidNone : (validateMigratedTree (tmpDirOf a names.2) tree.parquetFiles.length w₁).raised =
      none := by rw [hvalid]; rfl
  have hvalidAfter : after apply (validateMigratedTree (tmpDirOf a names.2)
      tree.parquetFiles.length) w₁ = w₁ := by
    unfold after
    rw [hvalid]
    rfl
  obtain ⟨hfirst, hfirst'⟩ := @seq_of_none _ _ _ apply
    (writeMigratedParquetTree h (tmpDirOf a names.2) names.2 tree.parquetFiles)
    (seq apply (validateMigratedTree (tmpDirOf a names.2) tree.parquetFiles.length)
      (placeTree a names)) w hnone
  obtain ⟨hsecond, hsecond'⟩ := @seq_of_none _ _ _ apply
    (validateMigratedTree (tmpDirOf a names.2) tree.parquetFiles.length) (placeTree a names) w₁
    hvalidNone
  rw [hw₁] at hfirst hfirst'
  rw [hvalidAfter] at hsecond hsecond'
  refine ⟨hfirst.trans hsecond, hfirst'.trans hsecond', ?_⟩
  intro n
  unfold datasetBody
  rcases @stop_seq _ _ _ apply
    (writeMigratedParquetTree h (tmpDirOf a names.2) names.2 tree.parquetFiles) _ w n
    with heq | ⟨-, m, heq⟩
  · left
    rw [heq]
    exact content_stop_of_staysIn hstays hhidden n
  · rw [hw₁] at heq
    rw [heq]
    rcases @stop_seq _ _ _ apply (validateMigratedTree (tmpDirOf a names.2) tree.parquetFiles.length)
      (placeTree a names) w₁ m with heq' | ⟨-, k, heq'⟩
    · left
      rw [heq', stop_of_no_steps validateMigratedTree_steps, hcontent]
    · right
      rw [hvalidAfter] at heq'
      exact ⟨k, heq'⟩

theorem stop_emit (step : Step) (n : ℕ) :
    (stop apply (emit step : Script) w n).1 = w ∨
      (stop apply (emit step : Script) w n).1 = apply w step := by
  cases n with
  | zero => exact Or.inl rfl
  | succ n =>
    right
    unfold stop emit
    rw [List.take_of_length_le (by simp)]
    rfl

theorem placeTree_refuses (hany : (treeAt w names.2).files.any File.isParquet = true) :
    (placeTree a names w).raised ≠ none ∧ (placeTree a names w).steps = [] := by
  have hclear : (clearTarget a names.2 w).raised ≠ none ∧ (clearTarget a names.2 w).steps = [] := by
    unfold clearTarget
    rw [if_pos hany]
    exact ⟨Option.some_ne_none _, rfl⟩
  unfold placeTree
  rw [all, seq_of_some hclear.1]
  exact hclear

theorem renamed {w₁ w₂ : World} (hnames : names ∈ datasetRenames) (written : Written a names w w₁ out)
    (hne : out ≠ []) (hdirs : ∀ name ≠ names.2, treeAt w₂ name = treeAt w₁ name)
    (htables : w₂.tables = w₁.tables) :
    (treeAt (apply w₂ (.rename (tmpDirOf a names.2) names.2)) names.2).files = out ∧
      (∀ name ∈ knownNames, name ≠ names.2 →
        treeAt (apply w₂ (.rename (tmpDirOf a names.2) names.2)) name = treeAt w name) ∧
      (apply w₂ (.rename (tmpDirOf a names.2) names.2)).tables = w.tables := by
  have hhidden : ∀ name ∈ knownNames, name ≠ tmpDirOf a names.2 := by
    rintro name hname rfl
    exact tmpDirOf_not_known a names.2 hname
  have htmp : treeAt w₂ (tmpDirOf a names.2) = treeAt w₁ (tmpDirOf a names.2) :=
    hdirs _ (hhidden _ (new_known hnames)).symm
  have hget := @get_of_files_ne (tmpDirOf a names.2) w₂ (by rw [htmp, written.written]; exact hne)
  simp only [apply, hget]
  refine ⟨?_, ?_, htables.trans written.tables⟩
  · rw [treeAt_setDir_self, htmp, written.written]
  · intro name hname hne'
    rw [treeAt_setDir_of_ne hne', treeAt_eraseDir_of_ne (hhidden name hname), hdirs name hne',
      written.dirs name (hhidden name hname)]

private theorem placeTree_moves {w₁ : World} (hnames : names ∈ datasetRenames)
    (written : Written a names w w₁ out) (hne : out ≠ []) (hdata : ∀ file ∈ out, file.isData = true)
    (hfree : (treeAt w names.2).files.any File.isParquet = false)
    (hlegacy : (treeAt w names.1).parquetFiles ≠ []) :
    (placeTree a names w₁).raised = none ∧
      content (after apply (placeTree a names) w₁) = (content w).move names [] out ∧
      ∀ n, content (stop apply (placeTree a names) w₁ n).1 = content w ∨
        ∃ rest, content (stop apply (placeTree a names) w₁ n).1 = (content w).move names rest out := by
  have hhidden : ∀ name ∈ knownNames, name ≠ tmpDirOf a names.2 := by
    rintro name hname rfl
    exact tmpDirOf_not_known a names.2 hname
  have hnew : treeAt w₁ names.2 = treeAt w names.2 := written.dirs _ (hhidden _ (new_known hnames))
  have hcontent : content w₁ = content w := by
    refine content_congr (fun name hname => written.dirs name (hhidden name hname)) ?_
    unfold tablesOf
    rw [written.tables]
  -- room for the new tree
  have hclear : clearTarget a names.2 w₁ = rmtreeIfExists a names.2 w₁ := by
    unfold clearTarget
    rw [if_neg (by rw [hnew, hfree]; decide)]
  have hclearNone : (clearTarget a names.2 w₁).raised = none := by
    rw [hclear]
    exact rmtreeIfExists_after.1
  have hclearStop : ∀ n, content (stop apply (clearTarget a names.2) w₁ n).1 = content w := by
    intro n
    obtain ⟨hdirs, htables⟩ := @staysIn_stop names.2 w₁ _ (@clearTarget_staysIn names.2 a) n
    have hsub := @rmtreeIfExists_stop names.2 w₁ a n
    rw [← hcontent]
    refine content_of_cleared hnames hdirs htables (by rw [hnew]; exact hfree) ?_
    unfold stop at hsub ⊢
    rw [hclear]
    exact hsub
  obtain ⟨hdirs₂, htables₂⟩ := @staysIn_after names.2 w₁ _ (@clearTarget_staysIn names.2 a)
  generalize hw₂ : after apply (clearTarget a names.2) w₁ = w₂ at *
  have hcontent₂ : content w₂ = content w := by
    rw [← hw₂, ← stop_length]
    exact hclearStop _
  -- the new tree takes its place
  obtain ⟨hplaced, hothers, htables₃⟩ := renamed hnames written hne hdirs₂ htables₂
  have hrename : after apply (emit (.rename (tmpDirOf a names.2) names.2) : Script) w₂ =
      apply w₂ (.rename (tmpDirOf a names.2) names.2) := rfl
  generalize hw₃ : apply w₂ (.rename (tmpDirOf a names.2) names.2) = w₃ at *
  have hmoved : ∀ w' : World, (∀ name ≠ names.1, treeAt w' name = treeAt w₃ name) →
      w'.tables = w₃.tables →
      content w' = (content w).move names (treeAt w' names.1).parquetFiles out := by
    intro w' hdirs htables
    refine content_of_move hnames ?_ ?_ ?_ hdata hne
    · intro name hname hold hnew
      rw [hdirs name hold, hothers name hname hnew]
    · unfold tablesOf
      rw [htables, htables₃]
    · rw [hdirs _ (old_ne_new hnames hnames).symm, hplaced]
  -- the legacy tree is removed
  have hgetOld : Dict.get names.1 w₃.dirs = some (treeAt w₃ names.1) := by
    refine get_of_files_ne ?_
    rw [hothers _ (old_known hnames) (old_ne_new hnames hnames)]
    obtain ⟨file, hfile⟩ := List.exists_mem_of_ne_nil _ hlegacy
    exact List.ne_nil_of_mem (mem_parquetFiles.mp hfile).1
  obtain ⟨hrmNone, hrmGet⟩ := @rmtree_after names.1 w₃ a _ hgetOld
  have hlast : (all apply [rmtree a names.1] w₃).raised = none ∧
      after apply (all apply [rmtree a names.1]) w₃ = after apply (rmtree a names.1) w₃ := by
    rw [all]
    exact seq_of_none hrmNone
  have hremoved : content (after apply (rmtree a names.1) w₃) = (content w).move names [] out := by
    obtain ⟨hdirs, htables⟩ := @staysIn_after names.1 w₃ _ (@rmtree_staysIn names.1 a)
    rw [hmoved _ hdirs htables, treeAt, hrmGet]
    rfl
  have hlater : (all apply [emit (.rename (tmpDirOf a names.2) names.2), rmtree a names.1] w₂).raised =
      none ∧ after apply (all apply [emit (.rename (tmpDirOf a names.2) names.2), rmtree a names.1]) w₂ =
        after apply (rmtree a names.1) w₃ := by
    obtain ⟨hraised, hafter⟩ := @seq_of_none _ _ _ apply
      (emit (.rename (tmpDirOf a names.2) names.2) : Script) (all apply [rmtree a names.1]) w₂ rfl
    rw [hrename] at hraised hafter
    exact ⟨hraised.trans hlast.1, hafter.trans hlast.2⟩
  obtain ⟨hraised, hafter⟩ := @seq_of_none _ _ _ apply (clearTarget a names.2)
    (all apply [emit (.rename (tmpDirOf a names.2) names.2), rmtree a names.1]) w₁ hclearNone
  rw [hw₂] at hraised hafter
  refine ⟨hraised.trans hlater.1, ?_, ?_⟩
  · show content (after apply (seq apply (clearTarget a names.2) _) w₁) = _
    rw [hafter, hlater.2, hremoved]
  · intro n
    have hinPlace : ∀ w' : World, (∀ name ≠ names.1, treeAt w' name = treeAt w₃ name) →
        w'.tables = w₃.tables → ∃ rest, content w' = (content w).move names rest out :=
      fun w' hdirs htables => ⟨_, hmoved w' hdirs htables⟩
    rcases @stop_seq _ _ _ apply (clearTarget a names.2)
      (all apply [emit (.rename (tmpDirOf a names.2) names.2), rmtree a names.1]) w₁ n
      with heq | ⟨-, m, heq⟩
    · left
      exact (congrArg (content ·.1) heq).trans (hclearStop n)
    · rw [hw₂] at heq
      rw [show stop apply (placeTree a names) w₁ n = _ from heq]
      rcases @stop_seq _ _ _ apply (emit (.rename (tmpDirOf a names.2) names.2) : Script)
        (all apply [rmtree a names.1]) w₂ m with heq | ⟨-, k, heq⟩
      · rw [show stop apply (all apply [emit _, rmtree a names.1]) w₂ m = _ from heq]
        rcases @stop_emit w₂ (.rename (tmpDirOf a names.2) names.2) m with heq | heq
        · left
          rw [heq, hcontent₂]
        · right
          rw [heq, hw₃]
          exact hinPlace w₃ (fun _ _ => rfl) rfl
      · right
        rw [hrename] at heq
        rw [show stop apply (all apply [emit _, rmtree a names.1]) w₂ m = _ from heq]
        rcases @stop_seq _ _ _ apply (rmtree a names.1) (all apply []) w₃ k with heq | ⟨-, j, heq⟩
        · obtain ⟨hdirs, htables⟩ := @staysIn_stop names.1 w₃ _ (@rmtree_staysIn names.1 a) k
          rw [show stop apply (all apply [rmtree a names.1]) w₃ k = _ from heq]
          exact hinPlace _ hdirs htables
        · rw [show stop apply (all apply [rmtree a names.1]) w₃ k = _ from heq,
            @stop_of_no_steps _ (all apply []) rfl]
          exact ⟨[], hremoved⟩

/-- Seen from outside, a program between two that stay in a hidden directory is all there is. -/
private theorem stop_guarded {dir : String} {first body cleanup : Script} (hdir : dir ∉ knownNames)
    (hfirst : StaysIn dir first) (hcleanup : StaysIn dir cleanup) {P : Content → Prop}
    (hstart : P (content w)) (hbody : ∀ n, P (content (stop apply body (after apply first w) n).1))
    (n : ℕ) : P (content (stop apply (seq apply first (onError apply body cleanup)) w n).1) := by
  rcases @stop_seq _ _ _ apply first (onError apply body cleanup) w n with heq | ⟨-, m, heq⟩
  · rw [heq, content_stop_of_staysIn hfirst hdir]
    exact hstart
  · rw [heq]
    rcases @stop_onError _ _ _ apply body cleanup (after apply first w) m with heq | ⟨-, k, heq⟩
    · rw [heq]
      exact hbody m
    · rw [heq, content_stop_of_staysIn hcleanup hdir, ← stop_length]
      exact hbody _

theorem migrateDataset_none (hlegacy : legacyFiles w names.1 = []) (hnames : names ∈ datasetRenames) :
    migrateDataset h a names w = skip w := by
  unfold legacyFiles at hlegacy
  rw [if_pos (List.mem_map_of_mem hnames)] at hlegacy
  unfold migrateDataset
  simp only [hlegacy, if_true]

theorem migrateDataset_eq (hlegacy : legacyFiles w names.1 ≠ []) (hnames : names ∈ datasetRenames) :
    migrateDataset h a names w = seq apply (rmtreeIfExists a (tmpDirOf a names.2))
      (onError apply (datasetBody h a names (treeAt w names.1).parquetFiles)
        (rmtreeIfExists a (tmpDirOf a names.2))) w := by
  unfold legacyFiles at hlegacy
  rw [if_pos (List.mem_map_of_mem hnames)] at hlegacy
  unfold migrateDataset
  simp only [hlegacy, if_false]
  rfl

theorem stop_congr {s t : Script} (heq : s w = t w) (n : ℕ) : stop apply s w n = stop apply t w n := by
  unfold stop
  rw [heq]

theorem after_congr {s t : Script} (heq : s w = t w) : after apply s w = after apply t w := by
  unfold after
  rw [heq]

theorem isBlocked_eq (hnames : names ∈ datasetRenames) (hlegacy : legacyFiles w names.1 ≠ []) :
    isBlocked w names = (treeAt w names.2).files.any File.isParquet := by
  unfold legacyFiles at hlegacy
  rw [if_pos (List.mem_map_of_mem hnames)] at hlegacy
  unfold isBlocked
  rw [List.contains_eq_mem, decide_eq_true hnames, Bool.true_and]
  cases hfiles : (treeAt w names.1).parquetFiles with
  | nil => exact absurd hfiles hlegacy
  | cons file files => rfl

theorem working_clear : (∀ name ∈ knownNames,
    treeAt (after apply (rmtreeIfExists a (tmpDirOf a names.2)) w) name = treeAt w name) ∧
      content (after apply (rmtreeIfExists a (tmpDirOf a names.2)) w) = content w ∧
      (treeAt (after apply (rmtreeIfExists a (tmpDirOf a names.2)) w) (tmpDirOf a names.2)).files =
        [] := by
  have hstays := @rmtreeIfExists_staysIn (tmpDirOf a names.2) a
  refine ⟨?_, content_after_of_staysIn hstays (tmpDirOf_not_known a names.2), ?_⟩
  · intro name hname
    exact (@staysIn_after _ w _ hstays).1 name fun heq => tmpDirOf_not_known a names.2 (heq ▸ hname)
  · rw [treeAt, rmtreeIfExists_after.2]
    rfl

/-- A dataset that can be moved is moved; at every stop nothing is seen of it, or its new files are
complete. -/
theorem migrateDataset_moves (hnames : names ∈ datasetRenames) (hlegacy : legacyFiles w names.1 ≠ [])
    (hfree : isBlocked w names = false)
    (hok : migratedFiles h names.2 (legacyFiles w names.1) = .ok out) :
    (migrateDataset h a names w).raised = none ∧
      content (after apply (migrateDataset h a names) w) = (content w).move names [] out ∧
      ∀ n, content (stop apply (migrateDataset h a names) w n).1 = content w ∨
        ∃ rest, content (stop apply (migrateDataset h a names) w n).1 =
          (content w).move names rest out := by
  have heq := @migrateDataset_eq h a names w hlegacy hnames
  have hfiles : legacyFiles w names.1 = (treeAt w names.1).parquetFiles :=
    if_pos (List.mem_map_of_mem hnames)
  rw [hfiles] at hok
  have hne : out ≠ [] := by
    rintro rfl
    have hpaths := (migratedFiles_spec hok).1
    rw [List.map_nil, eq_comm, List.map_eq_nil_iff] at hpaths
    exact hlegacy (hfiles.trans hpaths)
  have hdata := migratedFiles_isData hok isData_of_mem_parquetFiles
  obtain ⟨hdirs, hcontent, hclean⟩ := @working_clear a names w
  have hfirst := (@rmtreeIfExists_after (tmpDirOf a names.2) w a).1
  have hstays := @rmtreeIfExists_staysIn (tmpDirOf a names.2) a
  rw [isBlocked_eq hnames hlegacy, ← hdirs _ (new_known hnames)] at hfree
  rw [hfiles, ← hdirs _ (old_known hnames)] at hlegacy
  obtain ⟨w₁, written, hraised, hafter, hstops⟩ := datasetBody_written hok hclean
  obtain ⟨hnone, hend, hplace⟩ := placeTree_moves hnames written hne hdata hfree hlegacy
  have hbodyNone := hraised.trans hnone
  obtain ⟨hseq, hseqAfter⟩ := @seq_of_none _ _ _ apply (rmtreeIfExists a (tmpDirOf a names.2))
    (onError apply (datasetBody h a names (treeAt w names.1).parquetFiles)
      (rmtreeIfExists a (tmpDirOf a names.2))) w hfirst
  have honError := @onError_of_none _ _ _ apply (datasetBody h a names (treeAt w names.1).parquetFiles)
    (rmtreeIfExists a (tmpDirOf a names.2)) _ hbodyNone
  rw [hcontent] at hend hplace hstops
  refine ⟨?_, ?_, ?_⟩
  · rw [heq, hseq, honError, hbodyNone]
  · have hafterEq : after apply (migrateDataset h a names) w = after apply (placeTree a names) w₁ := by
      rw [← hafter, after_congr heq, hseqAfter]
      exact after_congr honError
    rw [hafterEq, hend]
  · intro n
    rw [stop_congr heq]
    refine stop_guarded (tmpDirOf_not_known a names.2) hstays hstays
      (P := fun c => c = content w ∨ ∃ rest, c = (content w).move names rest out) (Or.inl rfl) ?_ n
    intro m
    rcases hstops m with hsame | ⟨k, hstop⟩
    · exact Or.inl hsame
    · rw [hstop]
      exact hplace k

theorem migrateDataset_fails (hnames : names ∈ datasetRenames)
    (hfails : moveDataset h names (content w) = none) (n : ℕ) :
    content (stop apply (migrateDataset h a names) w n).1 = content w := by
  have hlegacy : legacyFiles w names.1 ≠ [] := by
    intro hnil
    unfold moveDataset at hfails
    rw [if_pos (show (content w).legacy names.1 = [] from hnil)] at hfails
    cases hfails
  have hfiles : legacyFiles w names.1 = (treeAt w names.1).parquetFiles :=
    if_pos (List.mem_map_of_mem hnames)
  obtain ⟨hdirs, hcontent, hclean⟩ := @working_clear a names w
  have hstays := @rmtreeIfExists_staysIn (tmpDirOf a names.2) a
  rw [stop_congr (migrateDataset_eq hlegacy hnames)]
  refine stop_guarded (tmpDirOf_not_known a names.2) hstays hstays
    (P := fun c => c = content w) rfl ?_ n
  intro m
  rw [← hcontent]
  cases hok : migratedFiles h names.2 (treeAt w names.1).parquetFiles with
  | error e => exact (datasetBody_error hok).2 m
  | ok out =>
    have hblocked : isBlocked w names = true := by
      by_contra hfree
      unfold moveDataset at hfails
      rw [if_neg (show ¬(content w).legacy names.1 = [] from hlegacy),
        if_neg (show ¬(content w).blocked names = true from hfree),
        show (content w).legacy names.1 = _ from hfiles, hok] at hfails
      cases hfails
    obtain ⟨w₁, written, -, -, hstops⟩ := datasetBody_written hok hclean
    rcases hstops m with hsame | ⟨k, hstop⟩
    · exact hsame
    · have hany : (treeAt w₁ names.2).files.any File.isParquet = true := by
        have hne : names.2 ≠ tmpDirOf a names.2 := fun heq =>
          tmpDirOf_not_known a names.2 (heq ▸ new_known hnames)
        rw [written.dirs _ hne, hdirs _ (new_known hnames), ← isBlocked_eq hnames hlegacy]
        exact hblocked
      rw [hstop, stop_of_no_steps (placeTree_refuses hany).2]
      refine content_congr ?_ (by unfold tablesOf; rw [written.tables])
      intro name hname
      exact written.dirs name fun heq => tmpDirOf_not_known a names.2 (heq ▸ hname)

end Dataset

end QuantDataCenter.Scripts
