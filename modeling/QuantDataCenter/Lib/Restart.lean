import Mathlib.Data.List.Forall2
import Mathlib.Data.List.TakeDrop

/-!
Programs that change a world step by step and may be killed between two steps. A program that is
started again after a kill finds what the steps before it left behind; it still comes to the end of
an uninterrupted run when its parts are done or not done at a kill, and a part that is done is
skipped.
-/

set_option autoImplicit false
set_option relaxedAutoImplicit false

namespace QuantDataCenter.Lib.Restart

/-- The steps of a program, one after the other, and the exception it ends with. -/
structure Outcome (E X : Type*) where
  steps : List E
  raised : Option X

abbrev Program (W E X : Type*) := W → Outcome E X

section Programs

variable {W E X : Type*}

def skip : Program W E X := fun _ => ⟨[], none⟩

def raise (x : X) : Program W E X := fun _ => ⟨[], some x⟩

def emit (e : E) : Program W E X := fun _ => ⟨[e], none⟩

def emits (steps : List E) : Program W E X := fun _ => ⟨steps, none⟩

variable (apply : W → E → W)

/-- The world at the end of the program. -/
def after (s : Program W E X) (w : W) : W := (s w).steps.foldl apply w

/-- The world of a program that is killed after `n` steps, and the last of them. -/
def stop (s : Program W E X) (w : W) (n : ℕ) : W × Option E :=
  (((s w).steps.take n).foldl apply w, ((s w).steps.take n).getLast?)

def seq (s t : Program W E X) : Program W E X := fun w =>
  match (s w).raised with
  | some x => ⟨(s w).steps, some x⟩
  | none => ⟨(s w).steps ++ (t (after apply s w)).steps, (t (after apply s w)).raised⟩

/-- `except: cleanup; raise`. -/
def onError (s cleanup : Program W E X) : Program W E X := fun w =>
  match (s w).raised with
  | none => s w
  | some x => ⟨(s w).steps ++ (cleanup (after apply s w)).steps,
      (cleanup (after apply s w)).raised.or (some x)⟩

def all : List (Program W E X) → Program W E X
  | [] => skip
  | s :: l => seq apply s (all l)

variable {apply} {s t cleanup : Program W E X} {w : W}

theorem stop_of_append {steps later : List E} (n : ℕ) :
    ((steps ++ later).take n = steps.take n) ∨
      ∃ m, (steps ++ later).take n = steps ++ later.take m ∧ later.take m ≠ [] := by
  rw [List.take_append]
  by_cases hlater : later.take (n - steps.length) = []
  · left
    rw [hlater, List.append_nil]
  · right
    have hlt : steps.length < n := by
      by_contra hle
      rw [Nat.sub_eq_zero_of_le (by omega), List.take_zero] at hlater
      exact hlater rfl
    exact ⟨n - steps.length, by rw [List.take_of_length_le (by omega)], hlater⟩

theorem stop_append {steps later : List E} (n : ℕ) :
    (((steps ++ later).take n).foldl apply w, ((steps ++ later).take n).getLast?) =
        ((steps.take n).foldl apply w, (steps.take n).getLast?) ∨
      ∃ m, (((steps ++ later).take n).foldl apply w, ((steps ++ later).take n).getLast?) =
        ((later.take m).foldl apply (steps.foldl apply w), (later.take m).getLast?) := by
  rcases @stop_of_append E steps later n with heq | ⟨m, heq, hne⟩
  · left
    rw [heq]
  · right
    refine ⟨m, ?_⟩
    rw [heq, List.foldl_append, List.getLast?_append_of_ne_nil _ hne]

theorem stop_seq (n : ℕ) : stop apply (seq apply s t) w n = stop apply s w n ∨
    (s w).raised = none ∧ ∃ m, stop apply (seq apply s t) w n = stop apply t (after apply s w) m := by
  unfold stop seq
  cases hraised : (s w).raised with
  | some x => exact Or.inl rfl
  | none =>
    rcases @stop_append W E apply w (s w).steps (t (after apply s w)).steps n with heq | heq
    · exact Or.inl heq
    · exact Or.inr ⟨rfl, heq⟩

theorem stop_onError (n : ℕ) :
    stop apply (onError apply s cleanup) w n = stop apply s w n ∨
      (s w).raised ≠ none ∧
        ∃ m, stop apply (onError apply s cleanup) w n = stop apply cleanup (after apply s w) m := by
  unfold stop onError
  cases hraised : (s w).raised with
  | none => exact Or.inl rfl
  | some x =>
    rcases @stop_append W E apply w (s w).steps (cleanup (after apply s w)).steps n with heq | heq
    · exact Or.inl heq
    · exact Or.inr ⟨Option.some_ne_none x, heq⟩

theorem seq_of_none (h : (s w).raised = none) :
    (seq apply s t w).raised = (t (after apply s w)).raised ∧
      after apply (seq apply s t) w = after apply t (after apply s w) := by
  unfold seq
  simp only [after, h, List.foldl_append, and_self]

theorem onError_of_none (h : (s w).raised = none) : onError apply s cleanup w = s w := by
  unfold onError
  simp only [h]

theorem stop_length : (stop apply s w (s w).steps.length).1 = after apply s w := by
  unfold stop after
  rw [List.take_length]

/-- Every step of the program is of a kind. -/
def Emits (kind : E → Prop) (s : Program W E X) : Prop := ∀ w, ∀ step ∈ (s w).steps, kind step

theorem Emits.skip {kind : E → Prop} : Emits kind (skip : Program W E X) := by
  intro w step hstep
  cases hstep

theorem Emits.seq {kind : E → Prop} (hs : Emits kind s) (ht : Emits kind t) :
    Emits kind (seq apply s t) := by
  intro w step hstep
  unfold Restart.seq at hstep
  split at hstep
  · exact hs w step hstep
  · rcases List.mem_append.mp hstep with hstep | hstep
    · exact hs w step hstep
    · exact ht _ step hstep

theorem Emits.all {kind : E → Prop} {l : List (Program W E X)} (h : ∀ s ∈ l, Emits kind s) :
    Emits kind (all apply l) := by
  induction l with
  | nil => exact Emits.skip
  | cons s l ih =>
    exact (h s List.mem_cons_self).seq (ih fun t ht => h t (List.mem_cons_of_mem _ ht))

/-- What every stop of the parts keeps, every stop of the program keeps. -/
theorem stop_all_keeps {inv : W → Prop} {programs : List (Program W E X)}
    (hkeep : ∀ s ∈ programs, ∀ w n, inv w → inv (stop apply s w n).1) (hinv : inv w) (n : ℕ) :
    inv (stop apply (all apply programs) w n).1 := by
  induction programs generalizing w n with
  | nil =>
    unfold all stop skip
    rw [List.take_nil]
    exact hinv
  | cons s programs ih =>
    have hfirst := hkeep s List.mem_cons_self w
    rw [all]
    rcases @stop_seq W E X apply s (all apply programs) w n with heq | ⟨-, m, heq⟩
    · rw [heq]
      exact hfirst n hinv
    · rw [heq]
      refine ih (fun t ht => hkeep t (List.mem_cons_of_mem _ ht)) ?_ m
      rw [← stop_length]
      exact hfirst _ hinv

end Programs

/-! What is done is skipped -/

section Through

variable {V : Type*}

/-- The parts of a program one after the other, on what they are about; none for an exception. -/
def through : List (V → Option V) → V → Option V
  | [], v => some v
  | f :: l, v => (f v).bind (through l)

/-- What a program that was stopped between two parts leaves behind. -/
def OnWay (steps : List (V → Option V)) (v u : V) : Prop :=
  ∃ before later, steps = before ++ later ∧ through before v = some u

/-- A part that is done changes nothing, and no later one undoes it. -/
structure Stable (steps : List (V → Option V)) : Prop where
  idempotent : ∀ f ∈ steps, ∀ v u, f v = some u → f u = some u
  kept : steps.Pairwise fun f g => ∀ v u, f v = some v → g v = some u → f u = some u

variable {steps before later : List (V → Option V)} {v u t : V}

theorem through_append : through (before ++ later) v = (through before v).bind (through later) := by
  induction before generalizing v with
  | nil => rfl
  | cons f before ih =>
    rw [List.cons_append, through, through]
    cases f v with
    | none => rfl
    | some v' => exact ih

theorem kept_through {f : V → Option V}
    (hkept : ∀ g ∈ steps, ∀ v u, f v = some v → g v = some u → f u = some u)
    (hv : f v = some v) (hthrough : through steps v = some u) : f u = some u := by
  induction steps generalizing v with
  | nil =>
    obtain rfl := Option.some.inj hthrough
    exact hv
  | cons g steps ih =>
    obtain ⟨v', hstep, hrest⟩ := Option.bind_eq_some_iff.mp hthrough
    have hv' : f v' = some v' := hkept g List.mem_cons_self v v' hv hstep
    exact ih (fun g hg => hkept g (List.mem_cons_of_mem _ hg)) hv' hrest

theorem Stable.done (stable : Stable steps) (hthrough : through steps v = some u) :
    ∀ f ∈ steps, f u = some u := by
  induction steps generalizing v with
  | nil => intro f hf; cases hf
  | cons g steps ih =>
    obtain ⟨v', hstep, hrest⟩ := Option.bind_eq_some_iff.mp hthrough
    have hfirst := List.pairwise_cons.mp stable.kept
    intro f hf
    rcases List.mem_cons.mp hf with rfl | hf
    · exact kept_through hfirst.1 (stable.idempotent f List.mem_cons_self v v' hstep) hrest
    · have stable' : Stable steps :=
        ⟨fun f hf => stable.idempotent f (List.mem_cons_of_mem _ hf), hfirst.2⟩
      exact ih stable' hrest f hf

private theorem through_of_done (hdone : ∀ f ∈ steps, f u = some u) : through steps u = some u := by
  induction steps with
  | nil => rfl
  | cons f steps ih =>
    rw [through, hdone f List.mem_cons_self, Option.bind_some]
    exact ih fun g hg => hdone g (List.mem_cons_of_mem _ hg)

theorem Stable.of_append (stable : Stable (before ++ later)) : Stable before :=
  ⟨fun f hf => stable.idempotent f (List.mem_append_left _ hf),
    (List.pairwise_append.mp stable.kept).1⟩

theorem OnWay.refl : OnWay steps v v := ⟨[], steps, rfl, rfl⟩

theorem OnWay.through (stable : Stable steps) (h : OnWay steps v u) :
    Restart.through steps u = Restart.through steps v := by
  obtain ⟨before, later, rfl, hbefore⟩ := h
  have hdone := stable.of_append.done hbefore
  rw [through_append, through_append, through_of_done hdone, hbefore]

end Through

section Restart

variable {W E X V : Type*} (apply : W → E → W) (view : W → V) (window : W × Option E → Prop)

/-- Seen through the view, a program is one step: it is done or not done at every stop outside of
the window. -/
structure Refines (s : Program W E X) (step : V → Option V) : Prop where
  completes : ∀ w v, step (view w) = some v →
    (s w).raised = none ∧ view (after apply s w) = v
  stops : ∀ w v n, step (view w) = some v →
    view (stop apply s w n).1 = view w ∨ view (stop apply s w n).1 = v ∨ window (stop apply s w n)

variable {apply view window} in
theorem refines_of {s : Program W E X} {step : V → Option V}
    (h : ∀ w v, step (view w) = some v →
      (s w).raised = none ∧ view (after apply s w) = v ∧
        ∀ n, view (stop apply s w n).1 = view w ∨ view (stop apply s w n).1 = v ∨
          window (stop apply s w n)) : Refines apply view window s step where
  completes w v hstep := ⟨(h w v hstep).1, (h w v hstep).2.1⟩
  stops w v n hstep := (h w v hstep).2.2 n

variable {A : Type*} (run : A → Program W E X)

/-- The world after attempts that are killed, each after some of its steps. -/
def attempts (w : W) : List (A × ℕ) → W
  | [] => w
  | kill :: kills => attempts (stop apply (run kill.1) w kill.2).1 kills

def KilledOutside (w : W) : List (A × ℕ) → Prop
  | [] => True
  | kill :: kills => ¬window (stop apply (run kill.1) w kill.2) ∧
      KilledOutside (stop apply (run kill.1) w kill.2).1 kills

variable {apply view window} {programs : List (Program W E X)} {steps : List (V → Option V)} {w : W}
  {v : V}

theorem refines_all (hrefines : List.Forall₂ (Refines apply view window) programs steps)
    (hthrough : through steps (view w) = some v) :
    (all apply programs w).raised = none ∧ view (after apply (all apply programs) w) = v ∧
      ∀ n, OnWay steps (view w) (view (stop apply (all apply programs) w n).1) ∨
        window (stop apply (all apply programs) w n) := by
  induction hrefines generalizing w with
  | nil =>
    refine ⟨rfl, Option.some.inj hthrough, ?_⟩
    intro n
    left
    unfold all stop skip
    rw [List.take_nil]
    exact OnWay.refl
  | @cons s step programs steps hs _ ih =>
    obtain ⟨u, hstep, hrest⟩ := Option.bind_eq_some_iff.mp hthrough
    obtain ⟨hnone, hview⟩ := hs.completes w u hstep
    rw [← hview] at hrest
    obtain ⟨hraised, hend, hstops⟩ := ih hrest
    obtain ⟨hseq, hafter⟩ := @seq_of_none W E X apply s (all apply programs) w hnone
    have hlater : ∀ {t : V}, OnWay steps (view (after apply s w)) t → OnWay (step :: steps) (view w) t := by
      rintro t ⟨before, later, rfl, hbefore⟩
      refine ⟨step :: before, later, rfl, ?_⟩
      rw [through, hstep, Option.bind_some, ← hview, hbefore]
    refine ⟨hseq.trans hraised, ?_, ?_⟩
    · rw [all, hafter, hend]
    · intro n
      rw [all]
      rcases @stop_seq W E X apply s (all apply programs) w n with heq | ⟨-, m, heq⟩
      · rw [heq]
        rcases hs.stops w u n hstep with hsame | hdone | hwindow
        · rw [hsame]
          exact Or.inl OnWay.refl
        · rw [hdone, ← hview]
          exact Or.inl (hlater OnWay.refl)
        · exact Or.inr hwindow
      · rw [heq]
        exact (hstops m).imp hlater id

/-- However often it is killed outside of the window, a program that is started once more comes to
the end of one uninterrupted run. -/
theorem attempts_complete {parts : A → List (Program W E X)} {kills : List (A × ℕ)}
    (hrefines : ∀ a, List.Forall₂ (Refines apply view window) (parts a) steps)
    (stable : Stable steps) (hthrough : through steps (view w) = some v)
    (houtside : KilledOutside apply window (fun a => all apply (parts a)) w kills) (a : A) :
    (all apply (parts a) (attempts apply (fun a => all apply (parts a)) w kills)).raised = none ∧
      view (after apply (all apply (parts a))
        (attempts apply (fun a => all apply (parts a)) w kills)) = v := by
  induction kills generalizing w with
  | nil =>
    obtain ⟨hnone, hview, -⟩ := refines_all (hrefines a) hthrough
    exact ⟨hnone, hview⟩
  | cons kill kills ih =>
    obtain ⟨hfirst, hrest⟩ := houtside
    obtain ⟨-, -, hstops⟩ := refines_all (hrefines kill.1) hthrough
    have hway := (hstops kill.2).resolve_right hfirst
    exact ih ((hway.through stable).trans hthrough) hrest

/-- What every stop of an attempt keeps, any number of attempts keep. -/
theorem attempts_keep {inv : W → Prop} {kills : List (A × ℕ)}
    (hkeep : ∀ a w n, inv w → inv (stop apply (run a) w n).1) (hinv : inv w) :
    inv (attempts apply run w kills) := by
  induction kills generalizing w with
  | nil => exact hinv
  | cons kill kills ih => exact ih (hkeep kill.1 w kill.2 hinv)

end Restart

end QuantDataCenter.Lib.Restart
