import Mathlib.Data.Finset.Basic
import QuantDataCenter.Lib.Interrupt

/-!
The swap of a staged derived directory into its final place
(`sources/derived/common.py`). The environment decides every rename, what a
recursive removal leaves behind, and at which points an interrupt arrives. A
directory is the set of its partition files, so a complete copy is a directory
with exactly the old or exactly the staged set.
-/

set_option autoImplicit false
set_option relaxedAutoImplicit false

namespace QuantDataCenter.Derived.Commit

open QuantDataCenter.Lib.Interrupt

variable {β : Type*}

/-- `shutil.rmtree(..., ignore_errors=True)`: any part of the directory may go. -/
structure Rmtree (β : Type*) where
  leaves : Finset β → Option (Finset β)
  leaves_subset : ∀ d d', leaves d = some d' → d' ⊆ d

/-- The places between two steps of a commit. -/
inductive Point where
  | entry
  | prepared
  | body
  | moved
  | flagged
  | promoted
  | handler
  | restored
  | cleanup
  | backupRemoved
  | done
  deriving DecidableEq, Repr

/-- The answers of the file system to one commit and the interrupts it receives. -/
structure Outcomes (β : Type*) where
  mkdirBackup : Bool
  mkdirFinal : Bool
  toBackup : Bool
  promote : Bool
  restore : Bool
  rmtreeBackup : Rmtree β
  rmtreeStaging : Rmtree β
  interrupted : Point → Bool

/-- The three directories of an area and the local `backup_created`. -/
structure Swap (β : Type*) where
  final_dir : Option (Finset β)
  backup_dir : Option (Finset β)
  staging_dir : Option (Finset β)
  backup_created : Bool

def Swap.moveFinalToBackup (s : Swap β) : Swap β :=
  { s with backup_dir := s.final_dir, final_dir := none }

def Swap.moveStagingToFinal (s : Swap β) : Swap β :=
  { s with final_dir := s.staging_dir, staging_dir := none }

def Swap.moveBackupToFinal (s : Swap β) : Swap β :=
  { s with final_dir := s.backup_dir, backup_dir := none }

/-- The body of `try`: the old directory to the backup path, the staged one into its place. -/
def swapBody (env : Outcomes β) (delete_partition : Bool) : Stmt (Swap β) :=
  seq (point (env.interrupted .body)) <|
  seq (ifThen (fun s => s.final_dir.isSome) <|
    seq (attempt env.toBackup Swap.moveFinalToBackup) <|
    seq (point (env.interrupted .moved)) <|
    update fun s => { s with backup_created := true }) <|
  seq (point (env.interrupted .flagged)) <|
  seq (ifThen (fun _ => !delete_partition) (attempt env.promote Swap.moveStagingToFinal)) <|
  point (env.interrupted .promoted)

/-- `except Exception`: `_restore_staging_swap`, then `RuntimeError`. -/
def swapHandler (env : Outcomes β) : Stmt (Swap β) :=
  seq (point (env.interrupted .handler)) <|
  seq (ifThen (fun s => s.backup_created && s.backup_dir.isSome && s.final_dir.isNone) <|
    tryExcept (attempt env.restore Swap.moveBackupToFinal) skip) <|
  seq (point (env.interrupted .restored)) <|
  raise .error

/-- `finally`: the backup and the staging directory are removed in every case. -/
def swapCleanup (env : Outcomes β) : Stmt (Swap β) :=
  seq (point (env.interrupted .cleanup)) <|
  seq (ifThen (fun s => s.backup_created && s.backup_dir.isSome) <|
    update fun s => { s with backup_dir := s.backup_dir.bind env.rmtreeBackup.leaves }) <|
  seq (point (env.interrupted .backupRemoved)) <|
  seq (update fun s => { s with staging_dir := s.staging_dir.bind env.rmtreeStaging.leaves }) <|
  point (env.interrupted .done)

/-- `derived` is `_require_derived_dataset`; `prepared` is the outcome of the parent `mkdir`s. -/
def commitStaging (derived prepared : Bool) (env : Outcomes β) (delete_partition : Bool) :
    Stmt (Swap β) :=
  seq (attempt derived id) <|
  seq (point (env.interrupted .entry)) <|
  seq (attempt prepared id) <|
  seq (point (env.interrupted .prepared)) <|
  tryFinally (tryExcept (swapBody env delete_partition) (swapHandler env)) (swapCleanup env)

def commit_derived_dataset_staging (derived : Bool) (env : Outcomes β) : Stmt (Swap β) :=
  commitStaging derived env.mkdirBackup env false

def commit_derived_partition_staging (derived : Bool) (env : Outcomes β)
    (delete_partition : Bool) : Stmt (Swap β) :=
  commitStaging derived (env.mkdirBackup && env.mkdirFinal) env delete_partition

/-- The area as it is created: the old directory in place, a fresh backup path. -/
def Swap.initial (old staged : Finset β) : Swap β := ⟨some old, none, some staged, false⟩

/-- A complete copy, old or staged, is under the final or the backup path. -/
def KeepsCopy (old staged : Finset β) (s : Swap β) : Prop :=
  s.final_dir = some old ∨ s.final_dir = some staged ∨
    s.backup_dir = some old ∨ s.backup_dir = some staged

/-- If it raises although the restore rename can be done (the system allows it
and the staged directory is not in place), the final directory is the old one. -/
def RaisesRestored (env : Outcomes β) (old staged : Finset β)
    (out : Option Raised × Swap β) : Prop :=
  out.1 ≠ none → env.restore = true → out.2.final_dir ≠ some staged → out.2.final_dir = some old

/-- The last good copy survives the commit. -/
def LastCopySafe (env : Outcomes β) (old staged : Finset β)
    (out : Option Raised × Swap β) : Prop :=
  KeepsCopy old staged out.2 ∧ RaisesRestored env old staged out

/-- The old directory is moved to the backup path. -/
def Outcomes.Moves (derived prepared : Bool) (env : Outcomes β) : Prop :=
  derived = true ∧ prepared = true ∧ env.interrupted .entry = false ∧
    env.interrupted .prepared = false ∧ env.interrupted .body = false ∧ env.toBackup = true

/-- The promote rename is tried with `backup_created` set. -/
def Outcomes.ReachesPromote (env : Outcomes β) : Prop :=
  env.interrupted .moved = false ∧ env.interrupted .flagged = false

/-- The swap of the moved directory ends well: the promote rename succeeds, or
it raises, no interrupt precedes the restore rename and that one succeeds. -/
def Outcomes.SwapEnds (env : Outcomes β) : Prop :=
  env.ReachesPromote ∧
    (env.promote = true ∨ env.interrupted .handler = false ∧ env.restore = true)

/-- The restore rename cannot be done and the cleanup leaves a complete copy under
the backup path: `backup_created` was never set, the cleanup is interrupted at
its start, or the removal stops before it takes a file of the copy. -/
def Outcomes.BackupStays (env : Outcomes β) (old staged : Finset β) : Prop :=
  env.restore = false ∧ (env.interrupted .moved = true ∨ env.interrupted .cleanup = true ∨
    env.rmtreeBackup.leaves old = some old ∨ env.rmtreeBackup.leaves old = some staged)

/-- When the commit keeps the last good copy. -/
def Outcomes.Safe (derived prepared : Bool) (env : Outcomes β) (old staged : Finset β) : Prop :=
  env.Moves derived prepared → env.SwapEnds ∨ env.BackupStays old staged

private theorem swapCleanup_final (env : Outcomes β) (s : Swap β) :
    (swapCleanup env s).2.final_dir = s.final_dir := by
  cases hc : env.interrupted .cleanup
  · cases hb : (s.backup_created && s.backup_dir.isSome) <;>
      cases hr : env.interrupted .backupRemoved <;>
      cases hd : env.interrupted .done <;>
      simp [swapCleanup, seq, point, ifThen, update, raise, skip, hc, hb, hr, hd]
  · simp [swapCleanup, seq, point, raise, hc]

/-- The cleanup touches the backup only when `backup_created` is set. -/
private theorem swapCleanup_backup_kept (env : Outcomes β) (s : Swap β)
    (h : s.backup_created = false ∨ env.interrupted .cleanup = true) :
    (swapCleanup env s).2.backup_dir = s.backup_dir := by
  cases hc : env.interrupted .cleanup
  · have hb : s.backup_created = false := by simpa [hc] using h
    cases hr : env.interrupted .backupRemoved <;> cases hd : env.interrupted .done <;>
      simp [swapCleanup, seq, point, ifThen, update, raise, skip, hc, hb, hr, hd]
  · simp [swapCleanup, seq, point, raise, hc]

private theorem swapCleanup_backup_removed (env : Outcomes β) (s : Swap β)
    (hb : s.backup_created = true) (hc : env.interrupted .cleanup = false) :
    (swapCleanup env s).2.backup_dir = s.backup_dir.bind env.rmtreeBackup.leaves := by
  cases hs : s.backup_dir <;> cases hr : env.interrupted .backupRemoved <;>
    cases hd : env.interrupted .done <;>
    simp [swapCleanup, seq, point, ifThen, update, raise, skip, hc, hb, hs, hr, hd]

/-- `try`/`except` of one commit, before the cleanup block. -/
def swapTry (env : Outcomes β) : Stmt (Swap β) :=
  tryExcept (swapBody env false) (swapHandler env)

/-- Nothing was moved: the old directory is in place and something is raised. -/
private theorem swapTry_unmoved (env : Outcomes β) (old staged : Finset β)
    (h : env.interrupted .body = true ∨ env.toBackup = false) :
    (swapTry env (.initial old staged)).1 ≠ none ∧
      (swapTry env (.initial old staged)).2 = .initial old staged := by
  cases hb : env.interrupted .body
  · have ht : env.toBackup = false := by simpa [hb] using h
    cases hh : env.interrupted .handler <;> cases hr : env.interrupted .restored <;>
      simp [swapTry, tryExcept, swapBody, swapHandler, seq, point, ifThen, attempt, raise, skip,
        Swap.initial, hb, ht, hh, hr]
  · simp [swapTry, tryExcept, swapBody, seq, point, raise, hb]

section Moved

variable {env : Outcomes β} (hb : env.interrupted .body = false) (ht : env.toBackup = true)

include hb ht

/-- An interrupt between the rename and its flag: the backup holds the old copy, unflagged. -/
private theorem swapTry_unflagged (old staged : Finset β) (hm : env.interrupted .moved = true) :
    swapTry env (.initial old staged) =
      (some .interrupt, ⟨none, some old, some staged, false⟩) := by
  simp [swapTry, tryExcept, swapBody, seq, point, ifThen, attempt, update, raise, skip,
    Swap.initial, Swap.moveFinalToBackup, hb, ht, hm]

/-- The promote rename succeeds: the staged copy is in place. -/
private theorem swapTry_promoted (old staged : Finset β) (hf : env.ReachesPromote)
    (hp : env.promote = true) :
    (swapTry env (.initial old staged)).2 = ⟨some staged, some old, none, true⟩ := by
  cases hi : env.interrupted .promoted <;>
    simp [swapTry, tryExcept, swapBody, seq, point, ifThen, attempt, update, raise, skip,
      Swap.initial, Swap.moveFinalToBackup, Swap.moveStagingToFinal, hb, ht, hf.1, hf.2, hp, hi]

/-- The promote rename raises and the restore rename succeeds. -/
private theorem swapTry_restored (old staged : Finset β) (hf : env.ReachesPromote)
    (hp : env.promote = false) (hh : env.interrupted .handler = false)
    (hr : env.restore = true) :
    (swapTry env (.initial old staged)).2 = ⟨some old, none, some staged, true⟩ := by
  cases hi : env.interrupted .restored <;>
    simp [swapTry, tryExcept, swapBody, swapHandler, seq, point, ifThen, attempt, update, raise,
      skip, Swap.initial, Swap.moveFinalToBackup, Swap.moveBackupToFinal, hb, ht, hf.1, hf.2, hp,
      hh, hr, hi]

/-- Neither promoted nor restored: the old copy is only under the flagged backup path. -/
private theorem swapTry_stuck (old staged : Finset β) (hm : env.interrupted .moved = false)
    (h : env.interrupted .flagged = true ∨
      env.promote = false ∧ (env.interrupted .handler = true ∨ env.restore = false)) :
    (swapTry env (.initial old staged)).1 ≠ none ∧
      (swapTry env (.initial old staged)).2 = ⟨none, some old, some staged, true⟩ := by
  cases hf : env.interrupted .flagged
  · obtain ⟨hp, hrest⟩ : env.promote = false ∧
        (env.interrupted .handler = true ∨ env.restore = false) := by simpa [hf] using h
    cases hh : env.interrupted .handler
    · have hr : env.restore = false := by simpa [hh] using hrest
      cases hi : env.interrupted .restored <;>
        simp [swapTry, tryExcept, swapBody, swapHandler, seq, point, ifThen, attempt, update,
          raise, skip, Swap.initial, Swap.moveFinalToBackup, hb, ht, hm, hf, hp, hh, hr, hi]
    · simp [swapTry, tryExcept, swapBody, swapHandler, seq, point, ifThen, attempt, update,
        raise, skip, Swap.initial, Swap.moveFinalToBackup, hb, ht, hm, hf, hp, hh]
  · simp [swapTry, tryExcept, swapBody, seq, point, ifThen, attempt, update, raise, skip,
      Swap.initial, Swap.moveFinalToBackup, hb, ht, hm, hf]

end Moved

private theorem lastCopySafe_of_old {env : Outcomes β} {old staged : Finset β}
    {out : Option Raised × Swap β} (h : out.2.final_dir = some old) :
    LastCopySafe env old staged out :=
  ⟨.inl h, fun _ _ _ => h⟩

private theorem lastCopySafe_of_staged {env : Outcomes β} {old staged : Finset β}
    {out : Option Raised × Swap β} (h : out.2.final_dir = some staged) :
    LastCopySafe env old staged out :=
  ⟨.inr (.inl h), fun _ _ hne => (hne h).elim⟩

/-- With the final directory gone and something raised, only a complete backup
that cannot be renamed back is safe. -/
private theorem lastCopySafe_iff_of_gone {env : Outcomes β} {old staged : Finset β}
    {out : Option Raised × Swap β} (hfinal : out.2.final_dir = none) (hraised : out.1 ≠ none) :
    LastCopySafe env old staged out ↔
      env.restore = false ∧
        (out.2.backup_dir = some old ∨ out.2.backup_dir = some staged) := by
  unfold LastCopySafe KeepsCopy RaisesRestored
  rw [hfinal]
  cases hr : env.restore <;> simp [hraised]

private theorem commitStaging_started {derived prepared : Bool} {env : Outcomes β}
    (hd : derived = true) (hp : prepared = true) (he : env.interrupted .entry = false)
    (hi : env.interrupted .prepared = false) (s : Swap β) :
    commitStaging derived prepared env false s = tryFinally (swapTry env) (swapCleanup env) s := by
  simp [commitStaging, swapTry, seq, attempt, point, update, skip, hd, hp, he, hi]

private theorem commitStaging_early {derived prepared : Bool} {env : Outcomes β}
    (h : ¬ (derived = true ∧ prepared = true ∧ env.interrupted .entry = false ∧
      env.interrupted .prepared = false)) (s : Swap β) :
    (commitStaging derived prepared env false s).2 = s := by
  cases hd : derived <;> cases hp : prepared <;> cases he : env.interrupted .entry <;>
    cases hi : env.interrupted .prepared <;>
    simp_all [commitStaging, seq, attempt, point, update, raise, skip]

private theorem commitStaging_unmoved_safe {derived prepared : Bool} {env : Outcomes β}
    (old staged : Finset β) (h : ¬ env.Moves derived prepared) :
    LastCopySafe env old staged (commitStaging derived prepared env false (.initial old staged)) := by
  by_cases hs : derived = true ∧ prepared = true ∧ env.interrupted .entry = false ∧
      env.interrupted .prepared = false
  · obtain ⟨hd, hp, he, hi⟩ := hs
    have hbody : env.interrupted .body = true ∨ env.toBackup = false := by
      by_contra hcon
      simp only [not_or, Bool.not_eq_true, Bool.not_eq_false] at hcon
      exact h ⟨hd, hp, he, hi, hcon⟩
    apply lastCopySafe_of_old
    rw [commitStaging_started hd hp he hi, tryFinally_state, swapCleanup_final,
      (swapTry_unmoved env old staged hbody).2]
    rfl
  · apply lastCopySafe_of_old
    rw [commitStaging_early hs]
    rfl

/-- A backup flagged by `backup_created` outlives the cleanup exactly when the
cleanup never gets to it or leaves a complete copy. -/
private theorem backup_after_cleanup (env : Outcomes β) (old staged : Finset β)
    {s : Swap β} (hs : s = ⟨none, some old, some staged, true⟩) :
    ((swapCleanup env s).2.backup_dir = some old ∨ (swapCleanup env s).2.backup_dir = some staged) ↔
      (env.interrupted .cleanup = true ∨ env.rmtreeBackup.leaves old = some old ∨
        env.rmtreeBackup.leaves old = some staged) := by
  subst hs
  cases hc : env.interrupted .cleanup
  · rw [swapCleanup_backup_removed env _ rfl hc]
    simp
  · rw [swapCleanup_backup_kept env _ (.inr hc)]
    simp

private theorem swap_safe_iff {env : Outcomes β} (old staged : Finset β)
    (hb : env.interrupted .body = false) (ht : env.toBackup = true) :
    LastCopySafe env old staged
        (tryFinally (swapTry env) (swapCleanup env) (.initial old staged)) ↔
      env.SwapEnds ∨ env.BackupStays old staged := by
  cases hm : env.interrupted .moved
  case true =>
    have hmid := swapTry_unflagged hb ht old staged hm
    have hfinal : (tryFinally (swapTry env) (swapCleanup env) (.initial old staged)).2.final_dir =
        none := by
      rw [tryFinally_state, swapCleanup_final, hmid]
    have hbackup : (tryFinally (swapTry env) (swapCleanup env)
        (.initial old staged)).2.backup_dir = some old := by
      rw [tryFinally_state, hmid, swapCleanup_backup_kept env _ (.inl rfl)]
    rw [lastCopySafe_iff_of_gone hfinal (tryFinally_raised (by rw [hmid]; simp)), hbackup]
    simp [Outcomes.SwapEnds, Outcomes.ReachesPromote, Outcomes.BackupStays, hm]
  case false =>
    by_cases hends : env.SwapEnds
    · obtain ⟨hf, hrest⟩ := hends
      have hsafe : LastCopySafe env old staged
          (tryFinally (swapTry env) (swapCleanup env) (.initial old staged)) := by
        cases hp : env.promote
        · obtain ⟨hh, hr⟩ : env.interrupted .handler = false ∧ env.restore = true := by
            simpa [hp] using hrest
          apply lastCopySafe_of_old
          rw [tryFinally_state, swapCleanup_final, swapTry_restored hb ht old staged hf hp hh hr]
        · apply lastCopySafe_of_staged
          rw [tryFinally_state, swapCleanup_final, swapTry_promoted hb ht old staged hf hp]
      exact ⟨fun _ => .inl ⟨hf, hrest⟩, fun _ => hsafe⟩
    · have hstuck : env.interrupted .flagged = true ∨
          env.promote = false ∧ (env.interrupted .handler = true ∨ env.restore = false) := by
        cases hf : env.interrupted .flagged
        · have hnot : ¬ (env.promote = true ∨
              env.interrupted .handler = false ∧ env.restore = true) :=
            fun h => hends ⟨⟨hm, hf⟩, h⟩
          cases hp : env.promote <;> cases hh : env.interrupted .handler <;>
            cases hr : env.restore <;> simp_all
        · exact .inl rfl
      obtain ⟨hraised, hmid⟩ := swapTry_stuck hb ht old staged hm hstuck
      have hfinal : (tryFinally (swapTry env) (swapCleanup env)
          (.initial old staged)).2.final_dir = none := by
        rw [tryFinally_state, swapCleanup_final, hmid]
      rw [lastCopySafe_iff_of_gone hfinal (tryFinally_raised hraised), tryFinally_state,
        backup_after_cleanup env old staged hmid]
      simp [hends, Outcomes.BackupStays, hm]

private theorem commitStaging_safe_iff (derived prepared : Bool) (env : Outcomes β)
    (old staged : Finset β) :
    LastCopySafe env old staged (commitStaging derived prepared env false (.initial old staged)) ↔
      env.Safe derived prepared old staged := by
  by_cases h : env.Moves derived prepared
  · obtain ⟨hd, hp, he, hi, hb, ht⟩ := h
    rw [commitStaging_started hd hp he hi, swap_safe_iff old staged hb ht]
    exact ⟨fun hs _ => hs, fun hs => hs ⟨hd, hp, he, hi, hb, ht⟩⟩
  · exact ⟨fun _ hm => (h hm).elim, fun _ => commitStaging_unmoved_safe old staged h⟩

/-- Both commits keep the last good copy exactly under the outcomes `Safe` names. -/
theorem commit_keeps_last_copy_iff (derived : Bool) (env : Outcomes β) (old staged : Finset β) :
    (LastCopySafe env old staged
        (commit_derived_dataset_staging derived env (.initial old staged)) ↔
      env.Safe derived env.mkdirBackup old staged) ∧
    (LastCopySafe env old staged
        (commit_derived_partition_staging derived env false (.initial old staged)) ↔
      env.Safe derived (env.mkdirBackup && env.mkdirFinal) old staged) :=
  ⟨commitStaging_safe_iff _ _ _ _ _, commitStaging_safe_iff _ _ _ _ _⟩

private theorem swapHandler_raises (env : Outcomes β) (s : Swap β) :
    (swapHandler env s).1 ≠ none := by
  cases hh : env.interrupted .handler <;> cases hr : env.restore <;>
    cases hi : env.interrupted .restored <;>
    cases hc : (s.backup_created && s.backup_dir.isSome && s.final_dir.isNone) <;>
    simp [swapHandler, seq, point, ifThen, tryExcept, attempt, update, raise, skip, hh, hr, hi, hc]

private theorem swapBody_ends {env : Outcomes β} {delete_partition : Bool} {s : Swap β}
    (h : (swapBody env delete_partition s).1 = none) :
    (swapBody env delete_partition s).2.final_dir =
      if delete_partition then none else s.staging_dir := by
  cases hb : env.interrupted .body <;> cases hf : s.final_dir <;> cases ht : env.toBackup <;>
    cases hm : env.interrupted .moved <;> cases hg : env.interrupted .flagged <;>
    cases delete_partition <;> cases hp : env.promote <;> cases hi : env.interrupted .promoted <;>
    simp_all [swapBody, seq, point, ifThen, attempt, update, raise, skip, Swap.moveFinalToBackup,
      Swap.moveStagingToFinal]

theorem commitStaging_ends {derived prepared : Bool} {env : Outcomes β} {delete_partition : Bool}
    {s : Swap β} (h : (commitStaging derived prepared env delete_partition s).1 = none) :
    (commitStaging derived prepared env delete_partition s).2.final_dir =
      if delete_partition then none else s.staging_dir := by
  cases hd : derived <;> cases hp : prepared <;> cases he : env.interrupted .entry <;>
    cases hi : env.interrupted .prepared <;>
    simp only [commitStaging, seq, attempt, point, update, raise, skip, hd, hp, he, hi, if_true,
      Bool.false_eq_true, if_false, id, reduceCtorEq] at h ⊢
  rw [tryFinally_state, swapCleanup_final]
  have hbody : (swapBody env delete_partition s).1 = none := by
    have htry : (tryExcept (swapBody env delete_partition) (swapHandler env) s).1 = none := by
      by_contra hne
      exact tryFinally_raised hne h
    rcases hout : swapBody env delete_partition s with ⟨_ | _ | _, t⟩
    · rfl
    · rw [tryExcept_error hout] at htry
      exact absurd htry (swapHandler_raises env t)
    · rw [tryExcept_interrupt hout] at htry
      cases htry
  rcases hout : swapBody env delete_partition s with ⟨r, t⟩
  rw [hout] at hbody
  obtain rfl : r = none := hbody
  rw [tryExcept_none hout]
  have hends := @swapBody_ends _ env delete_partition s (by rw [hout])
  rw [hout] at hends
  exact hends
def Rmtree.all (β : Type*) : Rmtree β := ⟨fun _ => none, by simp⟩

/-- Both the promote and the restore rename fail, nothing is interrupted. -/
def bothRenamesFail (β : Type*) : Outcomes β :=
  ⟨true, true, true, false, false, .all β, .all β, fun _ => false⟩

/-- The promote and the restore rename would succeed; an interrupt arrives before the promote. -/
def interruptedSwap (β : Type*) : Outcomes β :=
  ⟨true, true, true, true, true, .all β, .all β, fun p => p == .flagged⟩

/-- In both cases every copy is gone: under the final and under the backup path nothing is left. -/
theorem commit_loses_last_copy :
    ¬ (∀ (env : Outcomes Nat) (old staged : Finset Nat),
      LastCopySafe env old staged
          (commit_derived_dataset_staging true env (.initial old staged)) ∧
        LastCopySafe env old staged
          (commit_derived_partition_staging true env false (.initial old staged))) := by
  intro claim
  have lost : (commit_derived_dataset_staging true (bothRenamesFail Nat) (.initial {1, 2} {3})).2 =
      ⟨none, none, none, true⟩ := rfl
  have kept := (claim (bothRenamesFail Nat) {1, 2} {3}).1.1
  rw [KeepsCopy, lost] at kept
  simp at kept

example : (commit_derived_partition_staging true (interruptedSwap Nat) false
    (.initial {1, 2} {3})).2 = ⟨none, none, none, true⟩ := rfl

end QuantDataCenter.Derived.Commit
