import QuantDataCenter.Pipeline.MetadataBatch

/-!
What is added to a batch reaches the metadata tables: rows move from the batch to the
thread that flushes, and from there to a persist call or back in front of the batch.
-/

set_option autoImplicit false
set_option relaxedAutoImplicit false

namespace QuantDataCenter.Pipeline

open QuantDataCenter.Lib
open QuantDataCenter.Lib.Keyed
open QuantDataCenter.Lib.Transition

variable {V T : Type*}

inductive RowKind where
  | run
  | status
  | checkpoint
  deriving DecidableEq, Repr

def MetadataRows.of (rows : MetadataRows V) : RowKind → List (MetadataRow V)
  | .run => rows.runRows
  | .status => rows.statusRows
  | .checkpoint => rows.checkpointRows

def LifecycleRows.of (rows : LifecycleRows V) (kind : RowKind) : List (MetadataRow V) :=
  rows.toRows.of kind

/-- Rows of this kind are condensed to one for each key. -/
def RowKind.keyFields : RowKind → Option (List String)
  | .run => none
  | .status => some statusKeyFields
  | .checkpoint => some checkpointKeyFields

@[simp] theorem of_append (a b : MetadataRows V) (kind : RowKind) :
    (a.append b).of kind = a.of kind ++ b.of kind := by
  cases kind <;> rfl

@[simp] theorem of_empty (kind : RowKind) : (MetadataRows.empty : MetadataRows V).of kind = [] := by
  cases kind <;> rfl

/-- No kind of row is missing, or all are. -/
def MetadataRows.Level (rows : MetadataRows V) : Prop :=
  ∀ kind kind', rows.of kind = [] → rows.of kind' = []

theorem level_append {a b : MetadataRows V} (ha : a.Level) (hb : b.Level) :
    (a.append b).Level := by
  intro kind kind' hnil
  rw [of_append, List.append_eq_nil_iff] at hnil ⊢
  exact ⟨ha kind kind' hnil.1, hb kind kind' hnil.2⟩

theorem level_empty : (MetadataRows.empty : MetadataRows V).Level := fun _ kind' _ => of_empty kind'

private theorem MetadataRows.Level.eq_empty {rows : MetadataRows V} (h : rows.Level)
    {countBy : CountBy}
    (hcount : pendingCount countBy rows = 0) : rows = .empty := by
  have hnil : ∀ kind, rows.of kind = [] := by
    intro kind
    cases countBy with
    | run => exact h .run kind (List.length_eq_zero_iff.mp hcount)
    | checkpoint => exact h .checkpoint kind (List.length_eq_zero_iff.mp hcount)
  obtain ⟨runRows, statusRows, checkpointRows⟩ := rows
  obtain rfl : runRows = [] := hnil .run
  obtain rfl : statusRows = [] := hnil .status
  obtain rfl : checkpointRows = [] := hnil .checkpoint
  rfl

/-! The moves of the rows -/

/-- The thread is between its acquire and its release. -/
def Pc.Inside : Pc V → Prop
  | .outside | .waiting => False
  | _ => True

def Pc.held : Pc V → MetadataRows V
  | .persisting rows | .restoring rows => rows
  | _ => .empty

/-- The rows out of the batch, in the hands of the thread with the write lock. -/
def State.held (s : State V T) : MetadataRows V :=
  match s.writeLock with
  | some t => (s.pc t).held
  | none => .empty

def State.delivered (s : State V T) (kind : RowKind) : List (List (MetadataRow V)) :=
  (s.calls.filter fun call => call.outcome = .returned).map fun call => call.rows.of kind

def State.addedOf (s : State V T) (kind : RowKind) : List (MetadataRow V) :=
  s.added.flatMap fun rows => rows.of kind

/-- The rows of one kind on their way. -/
def State.flow (s : State V T) (kind : RowKind) : Flow (MetadataRow V) :=
  ⟨s.addedOf kind, s.rows.of kind, s.held.of kind, s.delivered kind⟩

/-- The thread with the write lock is the one inside. -/
def Locked (s : State V T) : Prop := ∀ t, (s.pc t).Inside ↔ s.writeLock = some t

private theorem held_of_writeLock {s : State V T} {t : T} (hlock : s.writeLock = some t) :
    s.held = (s.pc t).held := by
  unfold State.held
  rw [hlock]

def NotAdd : Action V T → Prop
  | .add _ _ => False
  | _ => True

/-- No row waits and no thread holds one. -/
def Drained (s : State V T) : Prop := s.rows = .empty ∧ s.held = .empty

/-- The thread has taken its snapshot, and the batch is empty unless the rows go back. -/
def Draining (t : T) (s : State V T) : Prop :=
  match s.pc t with
  | .persisting _ | .leaving true => s.rows = .empty
  | .restoring _ | .leaving false => True
  | _ => False

theorem Draining.inside {s : State V T} {t : T} (h : Draining t s) : (s.pc t).Inside := by
  unfold Draining at h
  split at h
  all_goals simp_all [Pc.Inside]

section Locks

variable [DecidableEq T] {s s' : State V T} {t : T} {pc : Pc V}

theorem Locked.goto (h : Locked s) (hlock : s'.writeLock = s.writeLock)
    (hpc : s'.pc = Function.update s.pc t pc) (hside : pc.Inside ↔ (s.pc t).Inside) : Locked s' := by
  intro u
  rw [hlock, hpc]
  by_cases hut : u = t
  · rw [hut, Function.update_self, hside]
    exact h t
  · rw [Function.update_of_ne hut]
    exact h u

private theorem held_goto (hlock : s.writeLock = some t) : (s.goto t pc).held = pc.held := by
  rw [held_of_writeLock (s := s.goto t pc) hlock]
  show (Function.update s.pc t pc t).held = pc.held
  rw [Function.update_self]

private theorem held_of_outside (h : Locked s) (hout : ¬ (s.pc t).Inside)
    (hlock : s'.writeLock = s.writeLock)
    (hpc : s'.pc = Function.update s.pc t pc) : s'.held = s.held := by
  unfold State.held
  rw [hlock, hpc]
  cases howner : s.writeLock with
  | none => rfl
  | some u =>
    have hut : u ≠ t := by
      rintro rfl
      exact hout ((h u).mpr howner)
    simp only
    rw [Function.update_of_ne hut]

private theorem Draining.of_ne {u : T} (h : Draining t s) (hne : u ≠ t) (hrows : s'.rows = s.rows)
    (hpc : s'.pc = Function.update s.pc u pc) : Draining t s' := by
  unfold Draining at h ⊢
  rw [hpc, Function.update_of_ne (Ne.symm hne), hrows]
  exact h

private theorem draining_goto (h : match pc with
      | .persisting _ | .leaving true => s.rows = .empty
      | .restoring _ | .leaving false => True
      | _ => False) : Draining t (s.goto t pc) := by
  unfold Draining State.goto
  simp only
  rw [Function.update_self]
  exact h

end Locks

section Step

variable [DecidableEq V]

def RowKind.squash (kind : RowKind) : List (MetadataRow V) → List (MetadataRow V) :=
  match kind.keyFields with
  | none => id
  | some keyFields => lastByKey (keyOf keyFields)

theorem dedupeRows_eq (rows : List (MetadataRow V)) (keyFields : List String) :
    dedupeRows rows keyFields = lastByKey (keyOf keyFields) rows := by
  unfold dedupeRows
  split
  · match rows with
    | [] => rfl
    | [_] => rfl
  · rfl

private theorem of_snapshot (rows : MetadataRows V) (kind : RowKind) :
    (snapshot rows).of kind = kind.squash (rows.of kind) := by
  cases kind with
  | run => rfl
  | status => exact dedupeRows_eq _ _
  | checkpoint => exact dedupeRows_eq _ _

private theorem squash_eq_nil (kind : RowKind) {rows : List (MetadataRow V)} :
    kind.squash rows = [] ↔ rows = [] := by
  cases kind with
  | run => exact Iff.rfl
  | status => exact lastByKey_eq_nil _
  | checkpoint => exact lastByKey_eq_nil _

variable {s s' : State V T} {a : Action V T}

/-- What an action does to the rows on their way. -/
inductive Effect (s s' : State V T) : Action V T → Prop
  | same {a : Action V T} (hadded : s'.added = s.added) (hrows : s'.rows = s.rows)
      (hheld : s'.held = s.held) (hcalls : s'.calls = s.calls) : Effect s s' a
  | add {t : T} {rows : LifecycleRows V} (hadded : s'.added = s.added ++ [rows])
      (hrows : s'.rows = s.rows.append rows.toRows) (hheld : s'.held = s.held)
      (hcalls : s'.calls = s.calls) : Effect s s' (.add t rows)
  | take {t : T} (hadded : s'.added = s.added) (hrows : s'.rows = .empty) (hempty : s.held = .empty)
      (hheld : s'.held = snapshot s.rows) (hcalls : s'.calls = s.calls) : Effect s s' (.takeSnapshot t)
  | persist {t : T} {outcome : PersistOutcome} (hadded : s'.added = s.added) (hrows : s'.rows = s.rows)
      (hheld : s'.held = if outcome = .raised then s.held else .empty)
      (hcalls : s'.calls = s.calls ++ [⟨s.held, outcome⟩]) : Effect s s' (.persist t outcome)
  | giveBack {t : T} (hadded : s'.added = s.added) (hrows : s'.rows = s.held.append s.rows)
      (hheld : s'.held = .empty) (hcalls : s'.calls = s.calls) : Effect s s' (.restore t)

/-- Not the end of a persist call by an interrupt. -/
def Uninterrupted : Action V T → Prop
  | .persist _ .interrupted => False
  | _ => True

/-- Each action moves the rows of every kind as one move of the flow. -/
theorem Effect.move (h : Effect s s' a) (hcut : Uninterrupted a) (kind : RowKind) :
    Flow.Move kind.squash (s.flow kind) (s'.flow kind) := by
  unfold State.flow State.addedOf State.delivered
  cases h with
  | same hadded hrows hheld hcalls =>
    rw [hadded, hrows, hheld, hcalls]
    exact .stay _
  | @add t rows hadded hrows hheld hcalls =>
    rw [hadded, hrows, hheld, hcalls, List.flatMap_append, List.flatMap_singleton, of_append]
    exact .add _ (rows.of kind)
  | take hadded hrows hempty hheld hcalls =>
    rw [hadded, hrows, hheld, hcalls, of_snapshot, of_empty]
    exact .take _ (by rw [hempty, of_empty])
  | @persist t outcome hadded hrows hheld hcalls =>
    rw [hadded, hrows, hheld, hcalls, List.filter_append, List.map_append]
    cases outcome with
    | returned =>
      rw [if_neg (by simp), of_empty]
      exact .deliver _
    | raised =>
      rw [if_pos rfl, List.filter_singleton]
      simpa using .stay _
    | interrupted => exact hcut.elim
  | giveBack hadded hrows hheld hcalls =>
    rw [hadded, hrows, hheld, hcalls, of_append, of_empty]
    exact .giveBack _

/-- An addition carries a row of every kind. -/
def Carrying : Action V T → Prop
  | .add _ rows => ∀ kind, rows.of kind ≠ []
  | _ => True

/-- What holds of the rows in every run without interrupts. -/
structure Delivering (s : State V T) : Prop where
  runs : (s.flow .run).stream = s.addedOf .run
  carries : ∀ kind, ∀ keyFields ∈ kind.keyFields, (s.flow kind).Carries (keyOf keyFields)
  heldDistinct : ∀ kind, ∀ keyFields ∈ kind.keyFields, ((s.held.of kind).map (keyOf keyFields)).Nodup
  passed : ∀ call ∈ s.calls, ∀ kind, call.rows.of kind ⊆ s.addedOf kind ∧
    ∀ keyFields ∈ kind.keyFields, ((call.rows.of kind).map (keyOf keyFields)).Nodup
  level : s.rows.Level ∧ s.held.Level

private theorem squash_of_keyFields {kind : RowKind} {keyFields : List String}
    (hkind : keyFields ∈ kind.keyFields) :
    (kind.squash : List (MetadataRow V) → _) = lastByKey (keyOf keyFields) := by
  unfold RowKind.squash
  rw [Option.mem_def.mp hkind]

private theorem Delivering.stream_subset (h : Delivering s) (kind : RowKind) :
    (s.flow kind).stream ⊆ s.addedOf kind := by
  cases kind with
  | run =>
    rw [h.runs]
    exact List.Subset.refl _
  | status => exact (h.carries .status _ rfl).1
  | checkpoint => exact (h.carries .checkpoint _ rfl).1

private theorem Effect.addedOf_subset (h : Effect s s' a) (kind : RowKind) :
    s.addedOf kind ⊆ s'.addedOf kind := by
  unfold State.addedOf
  cases h with
  | add hadded =>
    rw [hadded, List.flatMap_append]
    exact List.subset_append_left _ _
  | same hadded => rw [hadded]; exact List.Subset.refl _
  | take hadded => rw [hadded]; exact List.Subset.refl _
  | persist hadded => rw [hadded]; exact List.Subset.refl _
  | giveBack hadded => rw [hadded]; exact List.Subset.refl _

theorem level_snapshot {rows : MetadataRows V} (h : rows.Level) : (snapshot rows).Level := by
  intro kind kind' hnil
  rw [of_snapshot, squash_eq_nil] at hnil ⊢
  exact h kind kind' hnil

theorem Delivering.effect (h : Delivering s) (heffect : Effect s s' a) (hcut : Uninterrupted a)
    (hcarrying : Carrying a) : Delivering s' := by
  have hmove := heffect.move hcut
  refine ⟨(hmove .run).stream_eq h.runs, fun kind keyFields hkind => ?_, ?_, ?_, ?_⟩
  · refine Flow.Move.carries ?_ (h.carries kind keyFields hkind)
    rw [← squash_of_keyFields hkind]
    exact hmove kind
  · intro kind keyFields hkind
    have hempty : (((MetadataRows.empty : MetadataRows V).of kind).map (keyOf keyFields)).Nodup := by
      rw [of_empty]
      exact List.nodup_nil
    cases heffect with
    | same hadded hrows hheld hcalls => exact hheld ▸ h.heldDistinct kind keyFields hkind
    | add hadded hrows hheld hcalls => exact hheld ▸ h.heldDistinct kind keyFields hkind
    | take hadded hrows hnone hheld hcalls =>
      rw [hheld, of_snapshot, squash_of_keyFields hkind]
      exact nodup_lastByKey _
    | persist hadded hrows hheld hcalls =>
      rw [hheld]
      split
      · exact h.heldDistinct kind keyFields hkind
      · exact hempty
    | giveBack hadded hrows hheld hcalls => exact hheld ▸ hempty
  · intro call hcall kind
    have hold : call ∈ s.calls ∨ call.rows = s.held := by
      cases heffect with
      | same hadded hrows hheld hcalls => exact Or.inl (hcalls ▸ hcall)
      | add hadded hrows hheld hcalls => exact Or.inl (hcalls ▸ hcall)
      | take hadded hrows hnone hheld hcalls => exact Or.inl (hcalls ▸ hcall)
      | persist hadded hrows hheld hcalls =>
        rw [hcalls, List.mem_append, List.mem_singleton] at hcall
        exact hcall.imp_right fun heq => by rw [heq]
      | giveBack hadded hrows hheld hcalls => exact Or.inl (hcalls ▸ hcall)
    rcases hold with hmem | hheld
    · exact ⟨List.Subset.trans (h.passed call hmem kind).1 (heffect.addedOf_subset kind),
        (h.passed call hmem kind).2⟩
    · rw [hheld]
      refine ⟨List.Subset.trans ?_ (heffect.addedOf_subset kind), h.heldDistinct kind⟩
      refine List.Subset.trans ?_ (h.stream_subset kind)
      exact List.Subset.trans (List.subset_append_right _ _) (List.subset_append_left _ _)
  · obtain ⟨hlevel, hheldLevel⟩ := h.level
    cases heffect with
    | same hadded hrows hheld hcalls => exact ⟨hrows ▸ hlevel, hheld ▸ hheldLevel⟩
    | @add t rows hadded hrows hheld hcalls =>
      rw [hrows, hheld]
      refine ⟨level_append hlevel fun kind _ hnil => ?_, hheldLevel⟩
      exact absurd hnil (hcarrying kind)
    | take hadded hrows hnone hheld hcalls =>
      rw [hrows, hheld]
      exact ⟨level_empty, level_snapshot hlevel⟩
    | persist hadded hrows hheld hcalls =>
      rw [hrows, hheld]
      refine ⟨hlevel, ?_⟩
      split
      · exact hheldLevel
      · exact level_empty
    | giveBack hadded hrows hheld hcalls =>
      rw [hrows, hheld]
      exact ⟨level_append hheldLevel hlevel, level_empty⟩

theorem Drained.effect (h : Drained s) (heffect : Effect s s' a) (hadd : NotAdd a) : Drained s' := by
  obtain ⟨hnone, hheldNone⟩ := h
  cases heffect with
  | same hadded hrows hheld hcalls => exact ⟨hrows.trans hnone, hheld.trans hheldNone⟩
  | add => exact hadd.elim
  | take hadded hrows hempty hheld hcalls =>
    refine ⟨hrows, hheld.trans ?_⟩
    rw [hnone]
    rfl
  | persist hadded hrows hheld hcalls =>
    refine ⟨hrows.trans hnone, hheld.trans ?_⟩
    rw [hheldNone, ite_self]
  | giveBack hadded hrows hheld hcalls =>
    refine ⟨hrows.trans ?_, hheld⟩
    rw [hnone, hheldNone]
    rfl

variable [DecidableEq T] {options : Options}

/-- What each action needs and does. -/
inductive StepTo (options : Options) (s : State V T) : Action V T → State V T → Prop
  | add {t : T} {rows : LifecycleRows V} {pc : Pc V} (hpc : s.pc t = .outside)
      (hnext : pc = .outside ∨ pc = .waiting) :
      StepTo options s (.add t rows)
        ({ s with rows := s.rows.append rows.toRows, added := s.added ++ [rows] }.goto t pc)
  | flush {t : T} (hpc : s.pc t = .outside) : StepTo options s (.flush t) (s.goto t .waiting)
  | acquire {t : T} (hpc : s.pc t = .waiting) (hfree : s.writeLock = none) :
      StepTo options s (.acquire t) ({ s with writeLock := some t }.goto t .locked)
  | nothing {t : T} (hpc : s.pc t = .locked) (hcount : pendingCount options.countBy s.rows = 0) :
      StepTo options s (.takeSnapshot t) (s.goto t (.leaving true))
  | taken {t : T} (hpc : s.pc t = .locked) (hcount : pendingCount options.countBy s.rows ≠ 0) :
      StepTo options s (.takeSnapshot t)
        ({ s with rows := .empty }.goto t (.persisting (snapshot s.rows)))
  | persist {t : T} {rows : MetadataRows V} {outcome : PersistOutcome} {pc : Pc V}
      (hpc : s.pc t = .persisting rows)
      (hnext : pc = match outcome with
        | .returned => .leaving true
        | .raised => .restoring rows
        | .interrupted => .leaving false) :
      StepTo options s (.persist t outcome)
        (State.goto { s with calls := s.calls ++ [⟨rows, outcome⟩] } t pc)
  | restore {t : T} {rows : MetadataRows V} (hpc : s.pc t = .restoring rows) :
      StepTo options s (.restore t) ({ s with rows := rows.append s.rows }.goto t (.leaving false))
  | release {t : T} {normally : Bool} (hpc : s.pc t = .leaving normally) :
      StepTo options s (.release t) ({ s with writeLock := none }.goto t .outside)

private theorem step_cases (h : step options s a = some s') : StepTo options s a s' := by
  cases a with
  | add t rows =>
    simp only [step] at h
    split at h
    case h_1 hpc =>
      split at h
      · cases h
        exact .add hpc (Or.inr rfl)
      · cases h
        have hstay : Function.update s.pc t .outside = s.pc := by
          rw [← hpc]
          exact Function.update_eq_self t s.pc
        have hadd : StepTo options s (.add t rows) (State.goto
            { s with rows := s.rows.append rows.toRows, added := s.added ++ [rows] } t .outside) :=
          .add hpc (Or.inl rfl)
        unfold State.goto at hadd
        rw [hstay] at hadd
        exact hadd
    case h_2 => cases h
  | flush t =>
    simp only [step] at h
    split at h
    case h_1 hpc =>
      cases h
      exact .flush hpc
    case h_2 => cases h
  | acquire t =>
    simp only [step] at h
    split at h
    case h_1 hpc hfree =>
      cases h
      exact .acquire hpc hfree
    case h_2 => cases h
  | takeSnapshot t =>
    simp only [step] at h
    split at h
    case h_1 hpc =>
      split at h
      case isTrue hcount =>
        cases h
        exact .nothing hpc hcount
      case isFalse hcount =>
        cases h
        exact .taken hpc hcount
    case h_2 => cases h
  | persist t outcome =>
    simp only [step] at h
    split at h
    case h_1 rows hpc =>
      cases outcome with
      | returned =>
        cases h
        exact .persist hpc rfl
      | raised =>
        cases h
        exact .persist hpc rfl
      | interrupted =>
        cases h
        exact .persist hpc rfl
    case h_2 => cases h
  | restore t =>
    simp only [step] at h
    split at h
    case h_1 rows hpc =>
      cases h
      exact .restore hpc
    case h_2 => cases h
  | release t =>
    simp only [step] at h
    split at h
    case h_1 normally hpc =>
      cases h
      exact .release hpc
    case h_2 => cases h

theorem Locked.step (h : Locked s) (hstep : StepTo options s a s') : Locked s' := by
  cases hstep with
  | add hpc hnext =>
    refine h.goto rfl rfl ?_
    rcases hnext with rfl | rfl <;> simp [hpc, Pc.Inside]
  | flush hpc => exact h.goto rfl rfl (by simp [hpc, Pc.Inside])
  | @acquire t hpc hfree =>
    intro u
    by_cases hut : u = t
    · rw [hut]
      simp [State.goto, Pc.Inside]
    · have hu := h u
      rw [hfree] at hu
      simpa [State.goto, Function.update_of_ne hut, Ne.symm hut] using hu
  | nothing hpc hcount => exact h.goto rfl rfl (by simp [hpc, Pc.Inside])
  | taken hpc hcount => exact h.goto rfl rfl (by simp [hpc, Pc.Inside])
  | @persist t rows outcome pc hpc hnext =>
    refine h.goto rfl rfl ?_
    rw [hnext]
    cases outcome <;> simp [hpc, Pc.Inside]
  | restore hpc => exact h.goto rfl rfl (by simp [hpc, Pc.Inside])
  | @release t normally hpc =>
    have hheld : s.writeLock = some t := (h t).mp (by simp [hpc, Pc.Inside])
    intro u
    by_cases hut : u = t
    · rw [hut]
      simp [State.goto, Pc.Inside]
    · have hu := h u
      rw [hheld] at hu
      simpa [State.goto, Function.update_of_ne hut, Ne.symm hut] using hu

private theorem step_effect (h : Locked s) (hstep : StepTo options s a s') : Effect s s' a := by
  have hinside : ∀ {t : T}, (s.pc t).Inside → s.held = (s.pc t).held :=
    fun hin => held_of_writeLock ((h _).mp hin)
  cases hstep with
  | @add t rows pc hpc hnext =>
    exact .add rfl rfl (held_of_outside h (by simp [hpc, Pc.Inside]) rfl rfl) rfl
  | flush hpc => exact .same rfl rfl (held_of_outside h (by simp [hpc, Pc.Inside]) rfl rfl) rfl
  | @acquire t hpc hfree =>
    refine .same rfl rfl ((held_goto rfl).trans ?_) rfl
    unfold State.held
    rw [hfree]
    rfl
  | @nothing t hpc hcount =>
    have hin : (s.pc t).Inside := by simp [hpc, Pc.Inside]
    refine .same rfl rfl ((held_goto ((h t).mp hin)).trans ?_) rfl
    rw [hinside hin, hpc]
    rfl
  | @taken t hpc hcount =>
    have hin : (s.pc t).Inside := by simp [hpc, Pc.Inside]
    refine .take rfl rfl ?_ (held_goto ((h t).mp hin)) rfl
    rw [hinside hin, hpc]
    rfl
  | @persist t rows outcome pc hpc hnext =>
    have hin : (s.pc t).Inside := by simp [hpc, Pc.Inside]
    have hheld : s.held = rows := by
      rw [hinside hin, hpc]
      rfl
    refine .persist rfl rfl ((held_goto ((h t).mp hin)).trans ?_) ?_
    · rw [hnext, hheld]
      cases outcome <;> rfl
    · rw [hheld]
      rfl
  | @restore t rows hpc =>
    have hin : (s.pc t).Inside := by simp [hpc, Pc.Inside]
    refine .giveBack rfl ?_ (held_goto ((h t).mp hin)) rfl
    rw [hinside hin, hpc]
    rfl
  | @release t normally hpc =>
    have hin : (s.pc t).Inside := by simp [hpc, Pc.Inside]
    refine .same rfl rfl ?_ rfl
    rw [hinside hin, hpc]
    rfl

/-! The final flush -/

/-- A flush that returns normally, with no addition from its snapshot on. -/
def FinalFlush (options : Options) (actions : List (Action V T)) : Prop :=
  ∃ t before during after m,
    actions = before ++ .takeSnapshot t :: (during ++ .release t :: after) ∧
    (∀ a ∈ during, a ≠ .release t) ∧ (∀ a ∈ during ++ .release t :: after, NotAdd a) ∧
    exec (step options) .initial (before ++ .takeSnapshot t :: during) = some m ∧
    m.pc t = .leaving true

theorem Draining.step {t : T} (hlocked : Locked s) (h : Draining t s)
    (hstep : StepTo options s a s') (hadd : NotAdd a) (hrelease : a ≠ .release t) : Draining t s' := by
  have howner : s.writeLock = some t := (hlocked t).mp h.inside
  -- only this thread is inside
  have halone : ∀ {u : T}, (s.pc u).Inside → u = t := by
    intro u hu
    have hlock := (hlocked u).mp hu
    rw [howner] at hlock
    exact (Option.some.inj hlock).symm
  cases hstep with
  | add => exact hadd.elim
  | @flush u hpc =>
    refine h.of_ne (u := u) ?_ rfl rfl
    rintro rfl
    have hin := h.inside
    rw [hpc] at hin
    exact hin
  | acquire hpc hfree =>
    rw [howner] at hfree
    cases hfree
  | @nothing u hpc hcount =>
    obtain rfl := halone (by simp [hpc, Pc.Inside] : (s.pc u).Inside)
    unfold Draining at h
    rw [hpc] at h
    exact h.elim
  | @taken u hpc hcount =>
    obtain rfl := halone (by simp [hpc, Pc.Inside] : (s.pc u).Inside)
    unfold Draining at h
    rw [hpc] at h
    exact h.elim
  | @persist u rows outcome pc hpc hnext =>
    obtain rfl := halone (by simp [hpc, Pc.Inside] : (s.pc u).Inside)
    unfold Draining at h
    rw [hpc] at h
    refine draining_goto ?_
    rw [hnext]
    cases outcome with
    | returned => exact h
    | raised => trivial
    | interrupted => trivial
  | @restore u rows hpc =>
    obtain rfl := halone (by simp [hpc, Pc.Inside] : (s.pc u).Inside)
    exact draining_goto trivial
  | @release u normally hpc =>
    obtain rfl := halone (by simp [hpc, Pc.Inside] : (s.pc u).Inside)
    exact absurd rfl hrelease

structure Sound (s : State V T) : Prop where
  locked : Locked s
  delivering : Delivering s

theorem Sound.step (h : Sound s) (hgood : Uninterrupted a ∧ Carrying a)
    (hstep : Pipeline.step options s a = some s') : Sound s' := by
  have hto := step_cases hstep
  exact ⟨h.locked.step hto, h.delivering.effect (step_effect h.locked hto) hgood.1 hgood.2⟩

omit [DecidableEq T] in
private theorem sound_initial : Sound (State.initial : State V T) := by
  refine ⟨fun t => by simp [State.initial, Pc.Inside], rfl, fun kind _ _ => ⟨?_, ?_⟩, ?_,
    fun _ hcall => (by cases hcall), level_empty, level_empty⟩
  · cases kind <;> exact fun _ hrow => (by cases hrow)
  · intro k
    cases kind <;> rfl
  · intro kind keyFields hkind
    show ((MetadataRows.of .empty kind).map _).Nodup
    rw [of_empty]
    exact List.nodup_nil

/-- After a final flush nothing is on its way. -/
private theorem drained_of_finalFlush {actions : List (Action V T)}
    (hflush : FinalFlush options actions)
    (hgood : ∀ a ∈ actions, Uninterrupted a ∧ Carrying a)
    (hrun : exec (Pipeline.step options) .initial actions = some s) : Drained s := by
  obtain ⟨t, before, during, after, m, rfl, hrelease, hadd, hm, hpc⟩ := hflush
  obtain ⟨start, hbefore, hrest⟩ := exec_append_some.mp hrun
  obtain ⟨taken, htake, hrest⟩ := exec_cons_some.mp hrest
  obtain ⟨m', hduring, hafter⟩ := exec_append_some.mp hrest
  have hm' : m' = m := by
    have hsame : exec (Pipeline.step options) .initial (before ++ .takeSnapshot t :: during) = some m' :=
      exec_append_some.mpr ⟨start, hbefore, exec_cons_some.mpr ⟨taken, htake, hduring⟩⟩
    rw [hm] at hsame
    exact (Option.some.inj hsame).symm
  have hstart : Sound start := invariant_of_mem (fun _ _ _ h hg hs => h.step hg hs) sound_initial
    (fun a ha => hgood a (List.mem_append_left _ ha)) hbefore
  have htaken : Sound taken ∧ Draining t taken := by
    refine ⟨hstart.step (hgood _ (List.mem_append_right _ List.mem_cons_self)) htake, ?_⟩
    cases step_cases htake with
    | nothing hin hcount => exact draining_goto (hstart.delivering.level.1.eq_empty hcount)
    | taken hin hcount => exact draining_goto rfl
  have hmiddle : Sound m' ∧ Draining t m' := by
    have hkeep : ∀ (u : State V T) (a : Action V T) (u' : State V T), Sound u ∧ Draining t u →
        (Uninterrupted a ∧ Carrying a) ∧ NotAdd a ∧ a ≠ .release t →
          Pipeline.step options u a = some u' → Sound u' ∧ Draining t u' := fun _ _ _ h hg hs =>
      ⟨h.1.step hg.1 hs, h.2.step h.1.locked (step_cases hs) hg.2.1 hg.2.2⟩
    refine invariant_of_mem hkeep htaken (fun a ha => ?_) hduring
    exact ⟨hgood a (List.mem_append_right _ (List.mem_cons_of_mem _ (List.mem_append_left _ ha))),
        hadd a (List.mem_append_left _ ha), hrelease a ha⟩
  have hdrained : Drained m' := by
    obtain ⟨hsound, hdraining⟩ := hmiddle
    have howner : m'.writeLock = some t := (hsound.locked t).mp hdraining.inside
    unfold Draining at hdraining
    rw [hm', hpc] at hdraining
    refine ⟨hm' ▸ hdraining, ?_⟩
    rw [held_of_writeLock howner, hm', hpc]
    rfl
  have hlast : Sound s ∧ Drained s := by
    have hkeep : ∀ (u : State V T) (a : Action V T) (u' : State V T), Sound u ∧ Drained u →
        (Uninterrupted a ∧ Carrying a) ∧ NotAdd a →
          Pipeline.step options u a = some u' → Sound u' ∧ Drained u' := fun _ _ _ h hg hs =>
      ⟨h.1.step hg.1 hs, h.2.effect (step_effect h.1.locked (step_cases hs)) hg.2⟩
    refine invariant_of_mem hkeep ⟨hmiddle.1, hdrained⟩ (fun a ha => ?_) hafter
    exact ⟨hgood a (List.mem_append_right _ (List.mem_cons_of_mem _ (List.mem_append_right _ ha))),
        hadd a (List.mem_append_right _ ha)⟩
  exact hlast.2

/-- Every row added is passed once to a persist call that returns, a keyed row at least as the last
one of its key, and nothing else is passed. -/
theorem batch_delivers (options : Options) (actions : List (Action V T)) (s : State V T)
    (hrun : exec (Pipeline.step options) .initial actions = some s)
    (hgood : ∀ a ∈ actions, Uninterrupted a ∧ Carrying a) :
    (∀ call ∈ s.calls, ∀ kind, call.rows.of kind ⊆ s.addedOf kind) ∧
      (FinalFlush options actions → (s.delivered .run).flatten = s.addedOf .run ∧
        ∀ kind, ∀ keyFields ∈ kind.keyFields, ∀ row ∈ s.addedOf kind,
          DeliveredLast (keyOf keyFields) (s.delivered kind) (s.addedOf kind) row) := by
  have hsound : Sound s :=
    invariant_of_mem (fun _ _ _ h hg hs => h.step hg hs) sound_initial hgood hrun
  refine ⟨fun call hcall kind => (hsound.delivering.passed call hcall kind).1, fun hflush => ?_⟩
  obtain ⟨hrows, hheld⟩ := drained_of_finalFlush hflush hgood hrun
  have hstream : ∀ kind, (s.flow kind).stream = (s.delivered kind).flatten := by
    intro kind
    unfold State.flow Flow.stream
    simp only
    rw [hrows, hheld, of_empty, List.append_nil, List.append_nil]
  refine ⟨(hstream .run).symm.trans hsound.delivering.runs, fun kind keyFields hkind row hrow => ?_⟩
  refine deliveredLast_of_lastOf hrow (fun batch hbatch => ?_) ?_
  · obtain ⟨call, hcall, rfl⟩ := List.mem_map.mp hbatch
    exact (hsound.delivering.passed call (List.mem_filter.mp hcall).1 kind).2 keyFields hkind
  · rw [← hstream]
    exact (hsound.delivering.carries kind keyFields hkind).2 _

end Step

/-! Two threads, `false` and `true` -/

def sampleRow (code : String) : MetadataRow String := fun field =>
  if field = "code" then some code else some ""

def sampleRows (code : String) : LifecycleRows String :=
  ⟨some (sampleRow code), some (sampleRow code), some (sampleRow code)⟩

/-- The automatic flush of the second addition fails; a third row follows, and a final flush. -/
def secondTry : List (Action String Bool) :=
  [.add false (sampleRows "a"), .add true (sampleRows "b"), .acquire true, .takeSnapshot true,
    .persist true .raised, .add false (sampleRows "a"), .restore true, .release true,
    .flush false, .acquire false, .takeSnapshot false, .persist false .returned, .release false]

private theorem carrying_sampleRows {T : Type*} (t : T) (code : String) :
    Carrying (.add t (sampleRows code) : Action String T) := by
  intro kind hnil
  cases kind <;> cases hnil

theorem batch_delivers_secondTry :
    ∃ s, exec (step ⟨2, .run⟩) .initial secondTry = some s ∧
      s.addedOf .run = [sampleRow "a", sampleRow "b", sampleRow "a"] ∧
      (s.delivered .run).flatten = s.addedOf .run := by
  refine ⟨_, rfl, rfl, ((batch_delivers ⟨2, .run⟩ secondTry _ rfl ?_).2 ?_).1⟩
  · intro a ha
    simp only [secondTry, List.mem_cons, List.not_mem_nil, or_false] at ha
    rcases ha with rfl | rfl | rfl | rfl | rfl | rfl | rfl | rfl | rfl | rfl | rfl | rfl | rfl
    all_goals first
      | exact ⟨trivial, carrying_sampleRows _ _⟩
      | exact ⟨trivial, trivial⟩
  · refine ⟨false, secondTry.take 10, [.persist false .returned], [], _, rfl, ?_, ?_, rfl, rfl⟩
    · intro a ha
      rw [List.mem_singleton.mp ha]
      exact fun h => by cases h
    · intro a ha
      simp only [List.cons_append, List.nil_append, List.mem_cons, List.not_mem_nil, or_false] at ha
      rcases ha with rfl | rfl <;> trivial

/-- The persist call of the automatic flush is interrupted, and the final flush finds nothing. -/
def interruptedFlush : List (Action String Bool) :=
  [.add false (sampleRows "a"), .acquire false, .takeSnapshot false, .persist false .interrupted,
    .release false, .flush false, .acquire false, .takeSnapshot false, .release false]

/-- An interrupt loses the rows in the hands of the thread. -/
theorem batch_loses_interrupted :
    ∃ s, exec (step ⟨1, .run⟩) .initial interruptedFlush = some s ∧
      (∀ a ∈ interruptedFlush, Carrying a) ∧ FinalFlush ⟨1, .run⟩ interruptedFlush ∧
      s.addedOf .run = [sampleRow "a"] ∧ (s.delivered .run).flatten = [] := by
  refine ⟨_, rfl, ?_, ?_, rfl, rfl⟩
  · intro a ha
    simp only [interruptedFlush, List.mem_cons, List.not_mem_nil, or_false] at ha
    rcases ha with rfl | rfl | rfl | rfl | rfl | rfl | rfl | rfl | rfl
    all_goals first
      | exact carrying_sampleRows _ _
      | trivial
  · refine ⟨false, interruptedFlush.take 7, [], [], _, rfl, fun _ ha => (by cases ha), ?_, rfl, rfl⟩
    intro a ha
    rw [List.mem_singleton.mp ha]
    trivial

end QuantDataCenter.Pipeline
