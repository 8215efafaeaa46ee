import Mathlib.Logic.Function.Basic
import QuantDataCenter.Registry.Inventory

/-!
The inventory over whole commands (`pipeline/lifecycle.py`, `refresh_dirty_registry`): a store
remembers which datasets it wrote, and the end of the command refreshes their rows. The file is
written in place, so a refresh that stops leaves one that cannot be read.
-/

set_option autoImplicit false
set_option relaxedAutoImplicit false

namespace QuantDataCenter.Registry

open QuantDataCenter.Lib.Keyed

/-- How a refresh ends: it writes the file, raises before it does, or stops in the middle. -/
inductive Outcome where
  | done
  | failed
  | torn
  deriving DecidableEq

/-- The directories, the inventory, and what the store of the command has marked. -/
structure World where
  dirs : String → List ParquetFile
  file : InventoryFile
  dirty : List String

/-- A write of the store, which marks the dataset when the manifest row of the new file was stored as
well; the end of a command; and a refresh by a derived build. -/
inductive Step where
  | write (id : String) (files : List ParquetFile) (marked : Bool)
  | finish (statusRows : List StatusRow) (now : ℤ) (outcome : Outcome)
  | refresh (ids : Option (List String)) (statusRows : Option (List StatusRow)) (now : ℤ)
      (outcome : Outcome)

variable (env : InventoryEnv)

/-- The file after a call of `refresh_inventory`. -/
def World.refreshFile (w : World) (ids : Option (List String))
    (statusRows : Option (List StatusRow)) (now : ℤ) (outcome : Outcome) : InventoryFile :=
  match refreshInventory env w.dirs ids statusRows now w.file, outcome with
  | .ok rows, .done => .rows rows
  | .ok _, .torn => .unreadable
  | _, _ => w.file

def World.step (w : World) : Step → World
  | .write id files marked =>
    { w with
      dirs := Function.update w.dirs id files
      dirty := if marked then id :: w.dirty else w.dirty }
  | .finish statusRows now outcome =>
    -- the next command has a store of its own
    { w with
      file := if w.dirty = [] then w.file else
        w.refreshFile env (some (stableSort (fun id : String => id) w.dirty.dedup))
          (some statusRows) now outcome
      dirty := [] }
  | .refresh ids statusRows now outcome =>
    { w with file := w.refreshFile env ids statusRows now outcome }

/-! What the inventory says after a run -/

/-- A call of `refresh_inventory`, on the map. -/
def View.call (view : View) (dirs : String → List ParquetFile) (ids : Option (List String))
    (statusRows : Option (List StatusRow)) (now : ℤ) (outcome : Outcome) : View :=
  if ∀ id ∈ requestedIds env ids, id ∈ env.catalog then
    match outcome with
    | .done => view.refresh env dirs statusRows now (requestedIds env ids)
    | .torn => fun _ => none
    | .failed => view
  else view

/-- The step, on the map: only refreshes change it. -/
def View.step (view : View) (w : World) : Step → View
  | .write _ _ _ => view
  | .finish statusRows now outcome =>
    if w.dirty = [] then view else
      view.call env w.dirs (some (stableSort (fun id : String => id) w.dirty.dedup))
        (some statusRows) now outcome
  | .refresh ids statusRows now outcome => view.call env w.dirs ids statusRows now outcome

/-- A run of the world beside a run of the map. -/
def follow (s : World × View) (step : Step) : World × View :=
  (s.1.step env step, s.2.step env s.1 step)

private theorem nodup_requestedIds (ids : Option (List String)) : (requestedIds env ids).Nodup := by
  unfold requestedIds
  split <;> exact List.nodup_dedup _

private theorem shows_nil : Shows [] fun _ => none :=
  ⟨List.Pairwise.nil, fun row => by simp, fun id row h => (by cases h), fun row h => (by cases h)⟩

theorem Shows.cleaned {rows : List InventoryRow} {view : View} (h : Shows rows view) :
    rows.map cleanRow = rows := by
  conv_rhs => rw [← List.map_id rows]
  exact List.map_congr_left h.clean

private theorem refreshInventory_ok {dirs : String → List ParquetFile} {ids : Option (List String)}
    {statusRows : Option (List StatusRow)} {now : ℤ} {file : InventoryFile}
    (h : ∀ id ∈ requestedIds env ids, id ∈ env.catalog) :
    refreshInventory env dirs ids statusRows now file =
      .ok (refreshedRows env dirs statusRows now (requestedIds env ids) (readInventory file)) := by
  unfold refreshInventory
  have hunknown : ((requestedIds env ids).filter fun id => id ∉ env.catalog) = [] := by
    rw [List.filter_eq_nil_iff]
    intro id hid
    simpa using h id hid
  simp only [hunknown, ne_eq, not_true_eq_false, if_false]

private theorem refreshInventory_error {dirs : String → List ParquetFile}
    {ids : Option (List String)}
    {statusRows : Option (List StatusRow)} {now : ℤ} {file : InventoryFile}
    (h : ¬∀ id ∈ requestedIds env ids, id ∈ env.catalog) :
    ∃ message, refreshInventory env dirs ids statusRows now file = .error message := by
  unfold refreshInventory
  have hunknown : ((requestedIds env ids).filter fun id => id ∉ env.catalog) ≠ [] := by
    rw [Ne, List.filter_eq_nil_iff]
    intro hall
    exact h fun id hid => by simpa using hall id hid
  simp only [ne_eq, hunknown, not_false_eq_true, if_true]
  exact ⟨_, rfl⟩

private theorem shows_call {w : World} {view : View} (h : Shows (readInventory w.file) view)
    (ids : Option (List String)) (statusRows : Option (List StatusRow)) (now : ℤ)
    (outcome : Outcome) :
    Shows (readInventory (w.refreshFile env ids statusRows now outcome))
      (view.call env w.dirs ids statusRows now outcome) := by
  unfold World.refreshFile View.call
  split_ifs with hknown
  · rw [refreshInventory_ok env hknown]
    cases outcome with
    | done =>
      have hshows := h.refresh env w.dirs statusRows now (nodup_requestedIds env ids)
      show Shows ((refreshedRows env w.dirs statusRows now (requestedIds env ids)
        (readInventory w.file)).map cleanRow) _
      rwa [hshows.cleaned]
    | failed => exact h
    | torn => exact shows_nil
  · have hrefused : ∃ message, refreshInventory env w.dirs ids statusRows now w.file =
        .error message := refreshInventory_error env hknown
    obtain ⟨message, herror⟩ := hrefused
    rw [herror]
    exact h

private theorem shows_step {w : World} {view : View} (h : Shows (readInventory w.file) view)
    (step : Step) :
    Shows (readInventory (w.step env step).file) (view.step env w step) := by
  cases step with
  | write id files marked => exact h
  | finish statusRows now outcome =>
    simp only [World.step, View.step]
    split_ifs
    · exact h
    · exact shows_call env h _ _ now outcome
  | refresh ids statusRows now outcome => exact shows_call env h ids statusRows now outcome

/-- The inventory refines a map: over every run, with refreshes of any datasets that complete, raise
or stop in the middle, it has one row for each dataset of the map, sorted, and no other. -/
theorem inventory_refines_map (w : World) (hstart : readInventory w.file = []) (steps : List Step) :
    let after := steps.foldl (follow env) (w, fun _ => none)
    after.1 = steps.foldl (World.step env) w ∧ Shows (readInventory after.1.file) after.2 := by
  have hrun : ∀ (steps : List Step) (s : World × View), Shows (readInventory s.1.file) s.2 →
      (steps.foldl (follow env) s).1 = steps.foldl (World.step env) s.1 ∧
        Shows (readInventory (steps.foldl (follow env) s).1.file) (steps.foldl (follow env) s).2 := by
    intro steps
    induction steps with
    | nil => exact fun s h => ⟨rfl, h⟩
    | cons step steps ih => exact fun s h => ih _ (shows_step env h step)
  exact hrun steps (w, fun _ => none) (hstart ▸ shows_nil)

def barInventory : InventoryEnv where
  catalog := ["cn_security_master", "cn_stock_daily_bar"]
  described := fun id => ⟨id, "derived", "v_" ++ id, "", "canonical_security_id", "managed"⟩
  partitionColumn := fun id => if id = "cn_stock_daily_bar" then some "security_id" else none
  isoDate := fun _ => "2025-01-02"
  listText := fun ids => "['" ++ String.intercalate "', '" ids ++ "']"
  sortById := Sorter.stable _
  sortByTime := Sorter.stable _

def emptyWorld : World where
  dirs := fun _ => []
  file := .missing
  dirty := []

/-- A refresh that stops in the middle, and one that completes. -/
theorem inventory_refines_map_torn :
    let steps := [Step.refresh none none 0 .torn, Step.refresh (some ["cn_stock_daily_bar"]) none 1 .done]
    let after := steps.foldl (follow barInventory) (emptyWorld, fun _ => none)
    after.1 = steps.foldl (World.step barInventory) emptyWorld ∧
      Shows (readInventory after.1.file) after.2 :=
  inventory_refines_map barInventory emptyWorld rfl _

/-! Rows that are current -/

/-- The step ends well: the written dataset is marked, and a refresh writes the file. -/
def Step.Completes : Step → Prop
  | .write id _ marked => id ∈ env.catalog ∧ marked = true
  | .finish _ _ outcome => outcome = .done
  | .refresh _ _ _ outcome => outcome = .done

def IsCurrent (dirs : String → List ParquetFile) (row : InventoryRow) : Prop :=
  row.physical = (scanDatasetDir (env.partitionColumn row.datasetId) (dirs row.datasetId)).clean

/-- Every dataset of the catalog has a row, and the row is current unless the dataset is marked. -/
structure UpToDate (w : World) (view : View) : Prop where
  shows : Shows (readInventory w.file) view
  known : ∀ id ∈ w.dirty, id ∈ env.catalog
  listed : ∀ id row, view id = some row → id ∈ env.catalog
  current : ∀ id ∈ env.catalog, ∃ row, view id = some row ∧ (id ∉ w.dirty → IsCurrent env w.dirs row)

private theorem View.refresh_of_mem {dirs : String → List ParquetFile} {requested : List String}
    {id : String} (h : id ∈ requested) (view : View) (statusRows : Option (List StatusRow))
    (now : ℤ) :
    ∃ row, view.refresh env dirs statusRows now requested id = some row ∧ IsCurrent env dirs row := by
  unfold View.refresh
  rw [if_pos h]
  exact ⟨_, rfl, rfl⟩

private theorem View.refresh_of_not_mem {dirs : String → List ParquetFile} {requested : List String}
    {id : String} (h : id ∉ requested) (view : View) (statusRows : Option (List StatusRow))
    (now : ℤ) : view.refresh env dirs statusRows now requested id = view id := if_neg h

private theorem View.refresh_listed {view : View} {dirs : String → List ParquetFile}
    {requested : List String} (hlisted : ∀ id row, view id = some row → id ∈ env.catalog)
    (hknown : ∀ id ∈ requested, id ∈ env.catalog) (statusRows : Option (List StatusRow)) (now : ℤ)
    (id : String) (row : InventoryRow)
    (h : view.refresh env dirs statusRows now requested id = some row) : id ∈ env.catalog := by
  by_cases hreq : id ∈ requested
  · exact hknown id hreq
  · rw [View.refresh_of_not_mem env hreq] at h
    exact hlisted id row h

/-- A refresh that completes makes the rows it is asked for current, and unmarks no other. -/
theorem UpToDate.call {w : World} {view : View} (h : UpToDate env w view)
    (ids : Option (List String)) (dirty : List String)
    (hdirty : ∀ id ∈ w.dirty, id ∈ dirty ∨ id ∈ requestedIds env ids)
    (hknown : ∀ id ∈ dirty, id ∈ env.catalog)
    (hrefused : (∀ id ∈ requestedIds env ids, id ∈ env.catalog) ∨ ∀ id ∈ w.dirty, id ∈ dirty)
    (statusRows : Option (List StatusRow)) (now : ℤ) :
    UpToDate env { w with file := w.refreshFile env ids statusRows now .done, dirty := dirty }
      (view.call env w.dirs ids statusRows now .done) := by
  refine ⟨shows_call env h.shows ids statusRows now .done, hknown, fun id row hrow => ?_,
    fun id hid => ?_⟩
  · unfold View.call at hrow
    split_ifs at hrow with hall
    · exact View.refresh_listed env h.listed hall statusRows now id row hrow
    · exact h.listed id row hrow
  · obtain ⟨row, hrow, hcurrent⟩ := h.current id hid
    unfold View.call
    split_ifs with hall
    · by_cases hreq : id ∈ requestedIds env ids
      · obtain ⟨fresh, hfresh, hnow⟩ := View.refresh_of_mem env hreq view statusRows now
        exact ⟨fresh, hfresh, fun _ => hnow⟩
      · refine ⟨row, (View.refresh_of_not_mem env hreq view statusRows now).trans hrow, ?_⟩
        exact fun hnot => hcurrent fun hmem => (hdirty id hmem).elim hnot hreq
    · refine ⟨row, hrow, fun hnot => hcurrent fun hmem => hnot ?_⟩
      exact hrefused.elim (fun hknown => absurd hknown hall) fun hsame => hsame id hmem

private theorem mem_requestedIds_dirty {dirty : List String} (hne : dirty ≠ []) {id : String} :
    id ∈ requestedIds env (some (stableSort (fun id : String => id) dirty.dedup)) ↔ id ∈ dirty := by
  have hperm := stableSort_perm (fun id : String => id) dirty.dedup
  obtain ⟨first, rest, hsorted⟩ : ∃ first rest,
      stableSort (fun id : String => id) dirty.dedup = first :: rest := by
    obtain ⟨x, hx⟩ := List.exists_mem_of_ne_nil dirty hne
    exact List.exists_cons_of_ne_nil
      (List.ne_nil_of_mem (hperm.mem_iff.mpr (List.mem_dedup.mpr hx)))
  rw [hsorted]
  show id ∈ (first :: rest).dedup ↔ _
  rw [List.mem_dedup, ← hsorted, hperm.mem_iff, List.mem_dedup]

theorem UpToDate.step {w : World} {view : View} (h : UpToDate env w view) {step : Step}
    (hstep : step.Completes env) :
    ∃ view', UpToDate env (w.step env step) view' ∧
      (∀ statusRows now, step = .finish statusRows now .done → (w.step env step).dirty = []) := by
  cases step with
  | write id files marked =>
    obtain ⟨hid, rfl⟩ := hstep
    refine ⟨view, ⟨h.shows, ?_, h.listed, fun id' hid' => ?_⟩, fun _ _ heq => by cases heq⟩
    · exact List.forall_mem_cons.mpr ⟨hid, h.known⟩
    · obtain ⟨row, hrow, hcurrent⟩ := h.current id' hid'
      refine ⟨row, hrow, fun hnot => ?_⟩
      obtain ⟨hne, hdirty⟩ := not_or.mp (fun hor => hnot (List.mem_cons.mpr hor))
      have hdirs : Function.update w.dirs id files id' = w.dirs id' := Function.update_of_ne hne _ _
      have hown := h.shows.own id' row hrow
      have hsame := hcurrent hdirty
      unfold IsCurrent at hsame ⊢
      rw [hown] at hsame ⊢
      show row.physical = (scanDatasetDir _ (Function.update w.dirs id files id')).clean
      rw [hdirs]
      exact hsame
  | finish statusRows now outcome =>
    obtain rfl : outcome = .done := hstep
    by_cases hdirty : w.dirty = []
    · refine ⟨view, ⟨?_, fun id hid => (by cases hid), h.listed, fun id hid => ?_⟩, fun _ _ _ => rfl⟩
      · simp only [World.step, hdirty, if_true]
        exact h.shows
      · obtain ⟨row, hrow, hcurrent⟩ := h.current id hid
        exact ⟨row, hrow, fun _ => hcurrent (hdirty ▸ List.not_mem_nil)⟩
    · have hcall := h.call env (some (stableSort (fun id : String => id) w.dirty.dedup)) []
        (fun id hid => .inr ((mem_requestedIds_dirty env hdirty).mpr hid)) (fun id hid => by cases hid)
        (.inl fun id hid => h.known id ((mem_requestedIds_dirty env hdirty).mp hid))
        (some statusRows) now
      have hworld : w.step env (.finish statusRows now .done) = { w with
          file := w.refreshFile env (some (stableSort (fun id : String => id) w.dirty.dedup))
            (some statusRows) now .done
          dirty := [] } := by
        simp only [World.step, hdirty, if_false]
      exact ⟨_, hworld ▸ hcall, fun _ _ _ => rfl⟩
  | refresh ids statusRows now outcome =>
    obtain rfl : outcome = .done := hstep
    exact ⟨_, h.call env ids w.dirty (fun id hid => .inl hid) h.known (.inr fun id hid => hid)
      statusRows now,
      fun _ _ heq => by cases heq⟩

/-- A refresh of the whole catalog brings any inventory of it up to date. -/
private theorem upToDate_opened {w : World}
    (hstart : ∀ row ∈ readInventory w.file, row.datasetId ∈ env.catalog)
    (hmarked : ∀ id ∈ w.dirty, id ∈ env.catalog) (statusRows : Option (List StatusRow)) (now : ℤ) :
    ∃ view, UpToDate env (w.step env (.refresh none statusRows now .done)) view := by
  have hknown : ∀ id ∈ requestedIds env none, id ∈ env.catalog := fun id hid => List.mem_dedup.mp hid
  have hrequested : ∀ id ∈ env.catalog, id ∈ requestedIds env none := fun id hid =>
    List.mem_dedup.mpr hid
  -- what the rows said before counts for the status of a dataset only
  let said : View := fun id =>
    if id ∈ env.catalog then currentRow (readInventory w.file) id else none
  have hshows : Shows (readInventory (w.step env (.refresh none statusRows now .done)).file)
      (said.refresh env w.dirs statusRows now (requestedIds env none)) := by
    have hkept : (readInventory w.file).filter
        (fun row => row.datasetId ∉ requestedIds env none) = [] := by
      rw [List.filter_eq_nil_iff]
      intro row hrow
      simpa using hrequested row.datasetId (hstart row hrow)
    have hnone : (fun id => if id ∈ requestedIds env none then none else said id) =
        fun _ => none := by
      funext id
      split_ifs with hreq
      · rfl
      · exact if_neg fun hid => hreq (hrequested id hid)
    have hrows := @shows_refreshedRows env (readInventory w.file) said _
      (by rw [hkept, hnone]; exact shows_nil) (fun id hid => (if_pos (hknown id hid)).symm) w.dirs
      statusRows now (nodup_requestedIds env none)
    simp only [World.step, World.refreshFile, refreshInventory_ok env hknown]
    show Shows ((refreshedRows env w.dirs statusRows now (requestedIds env none)
      (readInventory w.file)).map cleanRow) _
    rwa [hrows.cleaned]
  refine ⟨_, hshows, hmarked, fun id row hrow => ?_, fun id hid => ?_⟩
  · refine View.refresh_listed env (fun id row hsaid => ?_) hknown statusRows now id row hrow
    by_contra hid
    simp only [said, if_neg hid] at hsaid
    cases hsaid
  · obtain ⟨row, hrow, hcurrent⟩ :=
      View.refresh_of_mem env (hrequested id hid) said statusRows now
    exact ⟨row, hrow, fun _ => hcurrent⟩

private theorem upToDate_run {w : World} {view : View} (h : UpToDate env w view) {steps : List Step}
    (hsteps : ∀ step ∈ steps, step.Completes env) :
    ∃ view', UpToDate env (steps.foldl (World.step env) w) view' := by
  induction steps generalizing w view with
  | nil => exact ⟨view, h⟩
  | cons step steps ih =>
    obtain ⟨view', h', -⟩ := h.step env (hsteps step List.mem_cons_self)
    exact ih h' fun s hs => hsteps s (List.mem_cons_of_mem step hs)

/-- Over commands that end well, the inventory that was refreshed step by step has a row for every
dataset of the catalog and says of each what a scan of its directory says now. -/
theorem inventory_current_after_commands {w : World}
    (hstart : ∀ row ∈ readInventory w.file, row.datasetId ∈ env.catalog)
    (hmarked : ∀ id ∈ w.dirty, id ∈ env.catalog) {steps : List Step} (hsteps : ∀ step ∈ steps, step.Completes env)
    (opening closing : List StatusRow) (opened closed : ℤ) :
    let after := (Step.refresh none (some opening) opened .done :: steps ++
      [Step.finish closing closed .done]).foldl (World.step env) w
    (∀ id ∈ env.catalog, ∃ row ∈ readInventory after.file, row.datasetId = id) ∧
      ∀ row ∈ readInventory after.file, row.datasetId ∈ env.catalog ∧ IsCurrent env after.dirs row := by
  obtain ⟨view, hopened⟩ := upToDate_opened env hstart hmarked (some opening) opened
  obtain ⟨view', hrun⟩ := upToDate_run env hopened hsteps
  have hlast : (Step.finish closing closed .done).Completes env := rfl
  obtain ⟨view'', h, hdirty⟩ := hrun.step env hlast
  simp only [List.cons_append, List.foldl_cons, List.foldl_append, List.foldl_nil]
  have hnone := hdirty closing closed rfl
  refine ⟨fun id hid => ?_, fun row hrow => ?_⟩
  · obtain ⟨row, hrow, -⟩ := h.current id hid
    have hown := h.shows.own id row hrow
    exact ⟨row, (h.shows.mem row).mpr (hown ▸ hrow), hown⟩
  · have hview := (h.shows.mem row).mp hrow
    have hid := h.listed row.datasetId row hview
    obtain ⟨row', hrow', hcurrent⟩ := h.current row.datasetId hid
    obtain rfl : row' = row := Option.some.inj (hrow'.symm.trans hview)
    exact ⟨hid, hcurrent (hnone ▸ List.not_mem_nil)⟩

/-- An inventory of before whose only row says nothing of the files that are there now. -/
def staleWorld : World where
  dirs := fun _ => []
  file := .rows [inventoryRow barInventory (fun _ => [⟨["data.parquet"], 7, [], 3⟩]) 0
    "cn_security_master" {}]
  dirty := []

/-- A command writes the bars of one stock. -/
theorem inventory_current_after_bars :
    let bars := ⟨["security_id=SH.600000", "data.parquet"], 242, [some ("2024-01-02", "2024-12-31")], 5⟩
    let after := (Step.refresh none (some []) 0 .done :: [Step.write "cn_stock_daily_bar" [bars] true] ++
      [Step.finish [] 1 .done]).foldl (World.step barInventory) staleWorld
    (∀ id ∈ barInventory.catalog, ∃ row ∈ readInventory after.file, row.datasetId = id) ∧
      ∀ row ∈ readInventory after.file,
        row.datasetId ∈ barInventory.catalog ∧ IsCurrent barInventory after.dirs row :=
  inventory_current_after_commands barInventory
    (fun row hrow => by
      obtain rfl := List.mem_singleton.mp hrow
      decide)
    (fun id hid => by cases hid)
    (fun step hstep => by
      obtain rfl := List.mem_singleton.mp hstep
      exact ⟨by decide, rfl⟩) [] [] 0 1

end QuantDataCenter.Registry
