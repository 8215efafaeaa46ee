import Mathlib.Data.Option.Basic
import Mathlib.Data.List.Basic

/-!
Runs of a partial step function. A label carries every choice of the
environment, so a list of labels determines the run. A guard is a condition on
the state an action is taken in; it is checked along the run, one action after
the other.
-/

set_option autoImplicit false
set_option relaxedAutoImplicit false

namespace QuantDataCenter.Lib.Transition

variable {S A : Type*}

/-- The state after a list of actions; `none` when one of them is not enabled. -/
def exec (step : S → A → Option S) : S → List A → Option S
  | s, [] => some s
  | s, a :: as => (step s a).bind fun s' => exec step s' as

/-- Every action of the list is taken in a state that meets the guard. -/
def Guarded (step : S → A → Option S) (guard : S → A → Prop) : S → List A → Prop
  | _, [] => True
  | s, a :: as => guard s a ∧ ∀ s', step s a = some s' → Guarded step guard s' as

theorem Guarded.cons {step : S → A → Option S} {guard : S → A → Prop} {s s' : S} {a : A}
    {as : List A} (ok : guard s a) (hstep : step s a = some s')
    (rest : Guarded step guard s' as) : Guarded step guard s (a :: as) := by
  refine ⟨ok, fun t ht => ?_⟩
  rw [hstep] at ht
  cases ht
  exact rest

@[simp] theorem exec_nil (step : S → A → Option S) (s : S) : exec step s [] = some s := rfl

theorem exec_cons_some {step : S → A → Option S} {s t : S} {a : A} {as : List A} :
    exec step s (a :: as) = some t ↔ ∃ s', step s a = some s' ∧ exec step s' as = some t := by
  simp [exec, Option.bind_eq_some_iff]

theorem exec_append_some {step : S → A → Option S} {s t : S} {as bs : List A} :
    exec step s (as ++ bs) = some t ↔
      ∃ m, exec step s as = some m ∧ exec step m bs = some t := by
  induction as generalizing s with
  | nil => simp
  | cons a as ih =>
    simp only [List.cons_append, exec_cons_some, ih]
    constructor
    · rintro ⟨s', hs, m, hm, ht⟩
      exact ⟨m, ⟨s', hs, hm⟩, ht⟩
    · rintro ⟨m, ⟨s', hs, hm⟩, ht⟩
      exact ⟨s', hs, m, hm, ht⟩

/-- What each guarded step preserves holds at the end of every guarded run. -/
theorem invariant_of_guarded {step : S → A → Option S} {guard : S → A → Prop}
    {inv : S → Prop}
    (preserved : ∀ s a s', inv s → guard s a → step s a = some s' → inv s')
    {s t : S} {as : List A} (hs : inv s) (hg : Guarded step guard s as)
    (run : exec step s as = some t) : inv t := by
  induction as generalizing s with
  | nil => cases run; exact hs
  | cons a as ih =>
    obtain ⟨s', hstep, hrest⟩ := exec_cons_some.mp run
    exact ih (preserved s a s' hs hg.1 hstep) (hg.2 s' hstep) hrest

theorem guarded_of_forall {step : S → A → Option S} {guard : S → A → Prop}
    (always : ∀ s a, guard s a) (s : S) (as : List A) : Guarded step guard s as := by
  induction as generalizing s with
  | nil => trivial
  | cons a as ih => exact ⟨always s a, fun s' _ => ih s'⟩

/-- What every step preserves holds at the end of every run. -/
theorem invariant_of_exec {step : S → A → Option S} {inv : S → Prop}
    (preserved : ∀ s a s', inv s → step s a = some s' → inv s')
    {s t : S} {as : List A} (hs : inv s) (run : exec step s as = some t) : inv t :=
  have free : Guarded step (fun _ _ => True) s as := guarded_of_forall (fun _ _ => trivial) s as
  invariant_of_guarded (fun s a s' h _ => preserved s a s' h) hs free run

theorem guarded_of_mem {step : S → A → Option S} {good : A → Prop} (s : S) {as : List A}
    (hgood : ∀ a ∈ as, good a) : Guarded step (fun _ a => good a) s as := by
  induction as generalizing s with
  | nil => trivial
  | cons a as ih =>
    exact ⟨hgood a List.mem_cons_self, fun s' _ => ih s' fun b hb => hgood b (List.mem_cons_of_mem _ hb)⟩

/-- What the steps with good actions preserve holds at the end of a run of them. -/
theorem invariant_of_mem {step : S → A → Option S} {good : A → Prop} {inv : S → Prop}
    (preserved : ∀ s a s', inv s → good a → step s a = some s' → inv s') {s t : S} {as : List A}
    (hs : inv s) (hgood : ∀ a ∈ as, good a) (run : exec step s as = some t) : inv t :=
  invariant_of_guarded preserved hs (guarded_of_mem s hgood) run

/-- Guards that agree under an invariant are met by the same runs. -/
theorem guarded_iff_of_invariant {step : S → A → Option S} {guard guard' : S → A → Prop}
    {inv : S → Prop} (preserved : ∀ s a s', inv s → step s a = some s' → inv s')
    (agree : ∀ s a, inv s → (guard s a ↔ guard' s a)) {s : S} (hs : inv s) (as : List A) :
    Guarded step guard s as ↔ Guarded step guard' s as := by
  induction as generalizing s with
  | nil => exact Iff.rfl
  | cons a as ih =>
    have hrest : ∀ s', step s a = some s' → (Guarded step guard s' as ↔ Guarded step guard' s' as) :=
      fun s' hstep => ih (preserved s a s' hs hstep)
    constructor
    · exact fun h => ⟨(agree s a hs).mp h.1, fun s' hstep => (hrest s' hstep).mp (h.2 s' hstep)⟩
    · exact fun h => ⟨(agree s a hs).mpr h.1, fun s' hstep => (hrest s' hstep).mpr (h.2 s' hstep)⟩

/-- A run is no longer than a measure that each step lowers. -/
theorem length_le_of_decreasing {step : S → A → Option S} {inv : S → Prop} (size : S → ℕ)
    (preserved : ∀ s a s', inv s → step s a = some s' → inv s')
    (lower : ∀ s a s', inv s → step s a = some s' → size s' < size s) {s t : S} {as : List A}
    (hs : inv s) (run : exec step s as = some t) : as.length + size t ≤ size s := by
  induction as generalizing s with
  | nil =>
    cases run
    simp
  | cons a as ih =>
    obtain ⟨s', hstep, hrest⟩ := exec_cons_some.mp run
    have hlower := lower s a s' hs hstep
    have hlength := ih (preserved s a s' hs hstep) hrest
    simp only [List.length_cons]
    omega

end QuantDataCenter.Lib.Transition
