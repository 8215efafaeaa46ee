import Mathlib.Data.List.Infix
import Mathlib.Data.List.Perm.Basic
import QuantDataCenter.Storage.AtomicWrite

/-!
What a query of the view returns: the committed rows once, and with them the rows
of every temporary file that lies beside them.
-/

set_option autoImplicit false
set_option relaxedAutoImplicit false

namespace QuantDataCenter.Storage.Files

open QuantDataCenter.Lib
open QuantDataCenter.Lib.Transition

/-! Names -/

private theorem endsWith_append (init suffix : String) :
    endsWith suffix (init ++ suffix) = true := by
  unfold endsWith
  rw [String.toList_append, List.isSuffixOf_iff_suffix]
  exact List.suffix_append _ _

/-- The glob of the view matches temporary files as well. -/
private theorem matchesView_tmpName (hex : String) : matchesView (tmpName hex) = true := by
  have hname : tmpName hex = ("data." ++ hex ++ ".tmp") ++ ".parquet" := by
    rw [String.append_assoc]
    rfl
  rw [hname]
  exact endsWith_append _ _

private theorem dataName_facts :
    matchesView dataName = true ∧ contains ".tmp.parquet" dataName = false ∧
    endsWith ".tmp.parquet" dataName = false := by
  decide

/-! The files and the committed rows -/

section Runs

variable {P W S R : Type*}

/-- The partitions hold what was committed, and a writer about to replace finds its own rows. -/
structure Consistent (s : State P W S R) [DecidableEq P] [DecidableEq W] : Prop where
  data : s.data = s.committed.map fun e => (e.1, .complete e.2)
  written : ∀ {w p rows attempt}, s.pc w = .written p rows attempt →
    ∀ file, Dict.get (p, w) s.temps = some file → file = .complete rows

variable [DecidableEq P] [DecidableEq W] {callers : Callers W S} {s s' : State P W S R}

/-- A writer goes where it is not about to replace, and changes its own temporary file only. -/
theorem Consistent.move (h : Consistent s) {w : W} {pc : Pc P R} (hdata : s'.data = s.data)
    (hcommitted : s'.committed = s.committed) (hpc : s'.pc = Function.update s.pc w pc)
    (hnot : ∀ p rows attempt, pc ≠ .written p rows attempt)
    (htemps : ∀ key : P × W, key.2 ≠ w → Dict.get key s'.temps = Dict.get key s.temps) :
    Consistent s' := by
  refine ⟨by rw [hdata, hcommitted, h.data], fun {u p rows attempt} hu file hfile => ?_⟩
  rw [hpc] at hu
  by_cases huw : u = w
  · rw [huw, Function.update_self] at hu
    exact absurd hu (hnot p rows attempt)
  · rw [Function.update_of_ne huw] at hu
    rw [htemps (p, u) huw] at hfile
    exact h.written hu file hfile

private theorem get_erase_of_ne {κ β : Type*} [DecidableEq κ] {k k' : κ} (hne : k' ≠ k)
    (d : Dict κ β) :
    Dict.get k' (erase k d) = Dict.get k' d := by
  have hget := Dict.get_filter (fun key => decide (key ≠ k)) k' d
  rw [if_pos (by simpa using hne)] at hget
  exact hget

private theorem get_unlinked_of_ne (succeeds : Bool) {w : W} {p : P} {key : P × W}
    (hkey : key.2 ≠ w)
    {temps : Dict (P × W) (File R)} :
    Dict.get key (if succeeds then erase (p, w) temps else temps) = Dict.get key temps := by
  split
  · exact get_erase_of_ne (fun heq => hkey (congrArg Prod.snd heq)) temps
  · rfl

private theorem initial_consistent (committed : Dict P (List R)) (view : View) :
    Consistent (State.initial committed view : State P W S R) :=
  ⟨rfl, fun h => (by cases h)⟩

variable [DecidableEq S]

omit [DecidableEq S] in
theorem Consistent.cleanup (h : Consistent s) (callers : Callers W S) (removed : P × W → Bool) :
    Consistent (cleanupTmpParquetFiles callers removed s) := by
  refine ⟨?_, fun {w p rows attempt} hw file hfile => h.written hw file ?_⟩
  · show s.data.filter (fun _ => !endsWith ".tmp.parquet" dataName) = _
    rw [dataName_facts.2.2]
    exact (List.filter_eq_self.mpr fun _ _ => rfl).trans h.data
  · have hget := Dict.get_filter (fun key : P × W =>
      !(endsWith ".tmp.parquet" (tmpName (callers.hex key.2)) && removed key)) (p, w) s.temps
    unfold cleanupTmpParquetFiles at hfile
    simp only at hfile
    rw [hget] at hfile
    split at hfile
    · exact hfile
    · cases hfile

theorem Consistent.step (h : Consistent s) {a : Action P W R} (hstep : step callers s a = some s') :
    Consistent s' := by
  cases a with
  | call w p rows =>
    simp only [Files.step] at hstep
    split at hstep
    · cases hstep
      exact h.move rfl rfl rfl (fun _ _ _ hpc => by cases hpc) fun _ _ => rfl
    · cases hstep
  | acquire w =>
    simp only [Files.step] at hstep
    split at hstep
    · cases hstep
      exact h.move rfl rfl rfl (fun _ _ _ hpc => by cases hpc) fun _ _ => rfl
    · cases hstep
  | openTmp w opens retry =>
    simp only [Files.step] at hstep
    split at hstep
    case h_1 p rows attempt hpc =>
      split at hstep
      · cases hstep
        exact h.move rfl rfl rfl (fun _ _ _ hpc => by cases hpc) fun key hkey =>
          Dict.get_set_of_ne (fun heq => hkey (congrArg Prod.snd heq)) _ _
      · cases hstep
        exact h.move rfl rfl rfl (fun _ _ _ hpc => by cases hpc) fun _ _ => rfl
    case h_2 => cases hstep
  | write w outcome =>
    simp only [Files.step] at hstep
    split at hstep
    case h_1 p rows attempt hpc =>
      cases outcome with
      | closed =>
        cases hstep
        refine ⟨h.data, fun {u p' rows' attempt'} hu file hfile => ?_⟩
        simp only [State.goto] at hu hfile
        by_cases huw : u = w
        · rw [huw, Function.update_self] at hu
          cases hu
          rw [huw] at hfile
          split at hfile
          case isTrue =>
            rw [Dict.get_set_self] at hfile
            exact (Option.some.inj hfile).symm
          case isFalse hgone =>
            rw [hfile] at hgone
            exact absurd rfl hgone
        · rw [Function.update_of_ne huw] at hu
          refine h.written hu file ?_
          split at hfile
          · rw [Dict.get_set_of_ne fun heq => huw (congrArg Prod.snd heq)] at hfile
            exact hfile
          · exact hfile
      | osError =>
        cases hstep
        exact h.move rfl rfl rfl (fun _ _ _ hpc => by cases hpc) fun _ _ => rfl
      | otherError =>
        cases hstep
        exact h.move rfl rfl rfl (fun _ _ _ hpc => by cases hpc) fun _ _ => rfl
    case h_2 => cases hstep
  | replace w succeeds =>
    simp only [Files.step] at hstep
    split at hstep
    case h_1 p rows attempt hpc =>
      split at hstep
      case h_1 file hfile =>
        cases hstep
        obtain rfl := h.written hpc file hfile
        refine ⟨?_, fun {u p' rows' attempt'} hu file hfile => ?_⟩
        · show Dict.set p (.complete rows) s.data = (Dict.set p rows s.committed).map _
          rw [h.data]
          exact Dict.set_map File.complete p rows s.committed
        · simp only [State.goto] at hu
          by_cases huw : u = w
          · rw [huw, Function.update_self] at hu
            cases hu
          · rw [Function.update_of_ne huw] at hu
            refine h.written hu file ?_
            rw [← hfile]
            exact (get_erase_of_ne (fun heq => huw (congrArg Prod.snd heq)) _).symm
      case h_2 =>
        cases hstep
        exact h.move rfl rfl rfl (fun _ _ _ hpc => by cases hpc) fun _ _ => rfl
    case h_2 => cases hstep
  | unlink w succeeds =>
    simp only [Files.step] at hstep
    split at hstep
    case h_1 p rows attempt retry hpc =>
      cases hstep
      refine h.move rfl rfl rfl (fun _ _ _ hpc => ?_) fun key hkey => get_unlinked_of_ne succeeds hkey
      split at hpc
      · cases hpc
      · split at hpc <;> cases hpc
    case h_2 => cases hstep
  | lastUnlink w succeeds =>
    simp only [Files.step] at hstep
    split at hstep
    case h_1 p rows hpc =>
      cases hstep
      exact h.move rfl rfl rfl (fun _ _ _ hpc => by cases hpc) fun key hkey =>
        get_unlinked_of_ne succeeds hkey
    case h_2 => cases hstep
  | crash w =>
    have hcrash : ∀ s₁ : State P W S R, s₁.data = s.data → s₁.committed = s.committed → s₁.pc = s.pc →
        s₁.temps = s.temps → Consistent (s₁.goto w .ended) := by
      intro s₁ hdata hcommitted hpc htemps
      have hgoto : (s₁.goto w .ended).pc = Function.update s.pc w .ended := by rw [State.goto, hpc]
      exact h.move hdata hcommitted hgoto (fun _ _ _ hpc => by cases hpc) fun key _ =>
        congrArg (Dict.get key) htemps
    simp only [Files.step] at hstep
    split at hstep
    · cases hstep
    · cases hstep
    · cases hstep
      split
      · exact hcrash _ rfl rfl rfl rfl
      · exact hcrash _ rfl rfl rfl rfl
  | buildViews cleanup connects removed =>
    have hview : ∀ {s₁ : State P W S R}, Consistent s₁ → ∀ view, Consistent { s₁ with view := view } :=
      fun h₁ _ => ⟨h₁.data, h₁.written⟩
    have hcleaned : Consistent (if cleanup then cleanupTmpParquetFiles callers removed s else s) := by
      split
      · exact h.cleanup callers removed
      · exact h
    simp only [Files.step, Option.some.injEq] at hstep
    rw [← hstep]
    split
    · exact hview hcleaned _
    · exact hcleaned
  | query =>
    cases hstep
    exact h

/-! Queries -/

def State.committedRows (s : State P W S R) : List R := s.committed.flatMap Prod.snd

/-- The query returns the committed rows, each once. -/
def ShowsCommitted (callers : Callers W S) (s : State P W S R) : Prop :=
  ∃ rows, s.query callers = some rows ∧ rows.Perm s.committedRows

/-- No temporary file has rows or is torn; a view built before the first file stays empty. -/
def Undisturbed (s : State P W S R) : Prop :=
  match s.view with
  | .empty => s.committedRows = []
  | .glob => ∀ e ∈ s.temps, e.2 = .complete []

omit [DecidableEq P] [DecidableEq W] [DecidableEq S] in
private theorem filter_listing (callers : Callers W S) (s : State P W S R) :
    (s.listing callers).filter (fun file => matchesView file.1) = s.listing callers := by
  refine List.filter_eq_self.mpr fun file hfile => ?_
  rcases List.mem_append.mp hfile with hdata | htemp
  · obtain ⟨e, -, rfl⟩ := List.mem_map.mp hdata
    exact dataName_facts.1
  · obtain ⟨e, -, rfl⟩ := List.mem_map.mp htemp
    exact matchesView_tmpName _

omit [DecidableEq S] in
private theorem Consistent.shows_iff (h : Consistent s) :
    ShowsCommitted callers s ↔ Undisturbed s := by
  unfold ShowsCommitted Undisturbed State.query
  cases s.view with
  | empty =>
    simp only [Option.some.injEq, exists_eq_left']
    exact List.nil_perm
  | glob =>
    have htorn : ((s.listing callers).any fun file => file.2.isTorn) =
        s.temps.any fun e => e.2.isTorn := by
      have hdata : ((s.data.map fun e => (dataName, e.2)).any fun file => file.2.isTorn) = false := by
        rw [List.any_eq_false, h.data]
        intro file hfile
        obtain ⟨e, he, rfl⟩ := List.mem_map.mp hfile
        obtain ⟨c, -, rfl⟩ := List.mem_map.mp he
        exact Bool.false_ne_true
      unfold State.listing
      rw [List.any_append, hdata, List.any_map]
      rfl
    have hrows : ((s.listing callers).flatMap fun file => file.2.rows) =
        s.committedRows ++ s.temps.flatMap fun e => e.2.rows := by
      unfold State.listing State.committedRows
      rw [h.data, List.flatMap_append, List.flatMap_map, List.flatMap_map, List.flatMap_map]
      rfl
    simp only
    rw [filter_listing, htorn, hrows]
    constructor
    · rintro ⟨rows, hquery, hperm⟩ e he
      split at hquery
      · cases hquery
      · rename_i hcomplete
        rw [Bool.not_eq_true, List.any_eq_false] at hcomplete
        have hnone : (s.temps.flatMap fun e => e.2.rows) = [] := by
          have hlength := hperm.length_eq
          rw [← Option.some.inj hquery, List.length_append] at hlength
          exact List.length_eq_zero_iff.mp (by omega)
        have hempty := List.flatMap_eq_nil_iff.mp hnone e he
        cases hfile : e.2 with
        | torn =>
          have htorn := hcomplete e he
          rw [hfile] at htorn
          exact absurd rfl htorn
        | complete rows =>
          rw [hfile] at hempty
          exact congrArg File.complete hempty
    · intro hclean
      have hcomplete : (s.temps.any fun e => e.2.isTorn) = false := by
        rw [List.any_eq_false]
        intro e he
        rw [hclean e he]
        exact Bool.false_ne_true
      have hnone : (s.temps.flatMap fun e => e.2.rows) = [] := by
        rw [List.flatMap_eq_nil_iff]
        intro e he
        rw [hclean e he]
        rfl
      rw [hcomplete, hnone, List.append_nil]
      exact ⟨_, rfl, List.Perm.refl _⟩

/-- In every interleaving the queries return the committed rows exactly when none meets a temporary
file with rows, a torn one, or a view from before the first file. -/
theorem view_shows_committed_iff (callers : Callers W S) (committed : Dict P (List R)) (view : View)
    (actions : List (Action P W R)) :
    Guarded (Files.step callers) (fun s a => a = .query → ShowsCommitted callers s)
        (.initial committed view) actions ↔
      Guarded (Files.step callers) (fun s a => a = .query → Undisturbed s)
        (.initial committed view) actions := by
  have hkeep : ∀ (s : State P W S R) (a : Action P W R) (s' : State P W S R), Consistent s →
      Files.step callers s a = some s' → Consistent s' := fun _ _ _ h hstep => h.step hstep
  exact guarded_iff_of_invariant hkeep (fun _ _ h => imp_congr_right fun _ => h.shows_iff)
    (initial_consistent committed view) actions

/-! Between the writes -/

/-- The writer may have a temporary file in the partition. -/
def Pc.OwnsTmp (partition : P) : Pc P R → Prop
  | .writing p _ _ | .written p _ _ | .failed p _ _ _ => p = partition
  | _ => False

def Tidy : Action P W R → Prop
  | .crash _ => False
  | .unlink _ succeeds | .lastUnlink _ succeeds => succeeds = true
  | _ => True

/-- Every temporary file is in the hands of a writer. -/
def Owned (s : State P W S R) : Prop :=
  ∀ key ∈ s.temps.map Prod.fst, (s.pc key.2).OwnsTmp key.1

private theorem mem_keys_erase {κ β : Type*} [DecidableEq κ] {k k' : κ} {d : Dict κ β} :
    k' ∈ (erase k d).map Prod.fst ↔ k' ∈ d.map Prod.fst ∧ k' ≠ k := by
  unfold erase
  simp only [List.mem_map, List.mem_filter, decide_eq_true_eq]
  constructor
  · rintro ⟨e, ⟨he, hne⟩, rfl⟩
    exact ⟨⟨e, he, rfl⟩, hne⟩
  · rintro ⟨⟨e, he, rfl⟩, hne⟩
    exact ⟨e, ⟨he, hne⟩, rfl⟩

omit [DecidableEq P] [DecidableEq S] in
theorem Owned.move (h : Owned s) {w : W} {pc : Pc P R} (hpc : s'.pc = Function.update s.pc w pc)
    (htemps : ∀ key ∈ s'.temps.map Prod.fst, key.2 ≠ w → key ∈ s.temps.map Prod.fst)
    (hown : ∀ p, (p, w) ∈ s'.temps.map Prod.fst → pc.OwnsTmp p) : Owned s' := by
  rintro ⟨p, u⟩ hkey
  rw [hpc]
  by_cases huw : u = w
  · subst huw
    rw [Function.update_self]
    exact hown p hkey
  · rw [Function.update_of_ne huw]
    exact h (p, u) (htemps (p, u) hkey huw)

omit [DecidableEq P] [DecidableEq S] in
private theorem Owned.move_without (h : Owned s) {w : W} {pc : Pc P R}
    (hpc : s'.pc = Function.update s.pc w pc) (htemps : s'.temps = s.temps)
    (hnone : ∀ p, ¬ (s.pc w).OwnsTmp p) : Owned s' :=
  h.move hpc (fun _ hkey _ => htemps ▸ hkey) fun p hkey => (hnone p (h (p, w) (htemps ▸ hkey))).elim

theorem Owned.step (h : Owned s) {a : Action P W R} (htidy : Tidy a)
    (hstep : Files.step callers s a = some s') : Owned s' := by
  cases a with
  | call w p rows =>
    simp only [Files.step] at hstep
    split at hstep
    case h_1 hpc =>
      cases hstep
      exact h.move_without rfl rfl fun q => by rw [hpc]; exact id
    case h_2 => cases hstep
  | acquire w =>
    simp only [Files.step] at hstep
    split at hstep
    case h_1 p rows attempt hpc hfree =>
      cases hstep
      exact h.move_without rfl rfl fun q => by rw [hpc]; exact id
    case h_2 => cases hstep
  | openTmp w opens retry =>
    simp only [Files.step] at hstep
    split at hstep
    case h_1 p rows attempt hpc =>
      split at hstep
      · cases hstep
        refine h.move rfl (fun key hkey hne => ?_) fun q hkey => ?_
        · refine (Dict.mem_keys_set.mp hkey).resolve_left fun heq => hne ?_
          exact congrArg Prod.snd heq
        · rcases Dict.mem_keys_set.mp hkey with heq | hold
          · exact (congrArg Prod.fst heq).symm
          · have hown := h (q, w) hold
            rw [hpc] at hown
            exact hown.elim
      · cases hstep
        exact h.move_without rfl rfl fun q => by rw [hpc]; exact id
    case h_2 => cases hstep
  | write w outcome =>
    simp only [Files.step] at hstep
    split at hstep
    case h_1 p rows attempt hpc =>
      have hown : ∀ q, (q, w) ∈ s.temps.map Prod.fst → p = q := by
        intro q hkey
        have hown := h (q, w) hkey
        rw [hpc] at hown
        exact hown
      cases outcome with
      | closed =>
        cases hstep
        refine h.move rfl (fun key hkey hne => ?_) fun q hkey => ?_
        · simp only [State.goto] at hkey
          split at hkey
          · refine (Dict.mem_keys_set.mp hkey).resolve_left fun heq => hne ?_
            exact congrArg Prod.snd heq
          · exact hkey
        · simp only [State.goto] at hkey
          split at hkey
          · rcases Dict.mem_keys_set.mp hkey with heq | hold
            · exact (congrArg Prod.fst heq).symm
            · exact hown q hold
          · exact hown q hkey
      | osError =>
        cases hstep
        exact h.move rfl (fun _ hkey _ => hkey) hown
      | otherError =>
        cases hstep
        exact h.move rfl (fun _ hkey _ => hkey) hown
    case h_2 => cases hstep
  | replace w succeeds =>
    simp only [Files.step] at hstep
    split at hstep
    case h_1 p rows attempt hpc =>
      have hown : ∀ q, (q, w) ∈ s.temps.map Prod.fst → p = q := by
        intro q hkey
        have hown := h (q, w) hkey
        rw [hpc] at hown
        exact hown
      split at hstep
      case h_1 file hfile =>
        cases hstep
        refine h.move rfl (fun key hkey _ => (mem_keys_erase.mp hkey).1) fun q hkey => ?_
        obtain ⟨hold, hne⟩ := mem_keys_erase.mp hkey
        rw [hown q hold] at hne
        exact (hne rfl).elim
      case h_2 =>
        cases hstep
        exact h.move rfl (fun _ hkey _ => hkey) hown
    case h_2 => cases hstep
  | unlink w succeeds =>
    obtain rfl : succeeds = true := htidy
    simp only [Files.step] at hstep
    split at hstep
    case h_1 p rows attempt retry hpc =>
      cases hstep
      refine h.move rfl (fun key hkey _ => (mem_keys_erase.mp hkey).1) fun q hkey => ?_
      obtain ⟨hold, hne⟩ := mem_keys_erase.mp hkey
      have hown := h (q, w) hold
      rw [hpc] at hown
      rw [show p = q from hown] at hne
      exact (hne rfl).elim
    case h_2 => cases hstep
  | lastUnlink w succeeds =>
    obtain rfl : succeeds = true := htidy
    simp only [Files.step] at hstep
    split at hstep
    case h_1 p rows hpc =>
      cases hstep
      refine h.move rfl (fun key hkey _ => (mem_keys_erase.mp hkey).1) fun q hkey => ?_
      have hown := h (q, w) (mem_keys_erase.mp hkey).1
      rw [hpc] at hown
      exact hown.elim
    case h_2 => cases hstep
  | crash w => exact htidy.elim
  | buildViews cleanup connects removed =>
    have hcleaned : Owned (if cleanup then cleanupTmpParquetFiles callers removed s else s) := by
      split
      · intro key hkey
        obtain ⟨e, he, rfl⟩ := List.mem_map.mp hkey
        exact h e.1 (List.mem_map_of_mem (List.mem_filter.mp he).1)
      · exact h
    simp only [Files.step, Option.some.injEq] at hstep
    rw [← hstep]
    split
    · exact hcleaned
    · exact hcleaned
  | query =>
    cases hstep
    exact h

/-- Without crashes and with every removal done, a query that no write of the dataset is under way
with sees the committed rows. -/
theorem view_shows_committed_between (callers : Callers W S) (committed : Dict P (List R))
    (view : View) (actions : List (Action P W R)) (htidy : ∀ a ∈ actions, Tidy a)
    {s : State P W S R} (hrun : exec (Files.step callers) (.initial committed view) actions = some s)
    (hview : s.view = .glob) (hnone : ∀ w p, ¬ (s.pc w).OwnsTmp p) : ShowsCommitted callers s := by
  have hkeep : ∀ (s : State P W S R) (a : Action P W R) (s' : State P W S R), Consistent s ∧ Owned s →
      Tidy a → Files.step callers s a = some s' → Consistent s' ∧ Owned s' :=
    fun _ _ _ h htidy hstep => ⟨h.1.step hstep, h.2.step htidy hstep⟩
  have hinitial : Consistent (State.initial committed view : State P W S R) ∧
      Owned (State.initial committed view : State P W S R) :=
    ⟨initial_consistent committed view, fun _ hkey => (by cases hkey)⟩
  obtain ⟨hconsistent, howned⟩ := invariant_of_mem hkeep hinitial htidy hrun
  refine hconsistent.shows_iff.mpr ?_
  unfold Undisturbed
  rw [hview]
  exact fun e he => (hnone e.1.2 e.1.1 (howned e.1 (List.mem_map_of_mem he))).elim

end Runs

/-! One writer on a partition with one row -/

def oneCaller : Callers Unit Unit := ⟨fun _ => "0", fun _ => ()⟩

/-- The query comes before the replacement. -/
def queryBeforeReplace : List (Action String Unit ℕ) :=
  [.call () "code=sh.600000" [1, 2], .acquire (), .openTmp () true true, .write () .closed, .query]

/-- The writer crashes before the replacement; the view is built without cleanup. -/
def queryAfterCrash : List (Action String Unit ℕ) :=
  [.call () "code=sh.600000" [1, 2], .acquire (), .openTmp () true true, .write () .closed, .crash (),
    .buildViews false true fun _ => false, .query]

/-- The query comes while the file is being written. -/
def queryWhileWriting : List (Action String Unit ℕ) :=
  [.call () "code=sh.600000" [1, 2], .acquire (), .openTmp () true true, .query]

/-- Both copies of the first row are returned, also after a crash, and a torn file is an error. -/
theorem view_shows_uncommitted :
    let initial : State String Unit Unit ℕ := .initial [("code=sh.600000", [1])] .glob
    ((exec (step oneCaller) initial queryBeforeReplace).map fun s => (s.query oneCaller, s.committedRows)) =
        some (some [1, 1, 2], [1]) ∧
      ((exec (step oneCaller) initial queryAfterCrash).map fun s => (s.query oneCaller, s.committedRows)) =
        some (some [1, 1, 2], [1]) ∧
      ((exec (step oneCaller) initial queryWhileWriting).map fun s => (s.query oneCaller, s.committedRows)) =
        some (none, [1]) ∧
      ¬ Guarded (step oneCaller) (fun s a => a = .query → ShowsCommitted oneCaller s) initial
        queryBeforeReplace := by
  refine ⟨rfl, rfl, rfl, fun hguarded => ?_⟩
  have hquery := ((((hguarded.2 _ rfl).2 _ rfl).2 _ rfl).2 _ rfl).1 rfl
  obtain ⟨rows, hrows, hperm⟩ := hquery
  rw [← Option.some.inj hrows] at hperm
  exact absurd hperm.length_eq (by decide)

end QuantDataCenter.Storage.Files
