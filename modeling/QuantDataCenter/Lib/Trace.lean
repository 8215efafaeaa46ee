import Mathlib.Data.List.TakeDrop

/-!
Runs that may be cut: the world is changed by a list of events, and a cut run
has only seen a prefix of them. A run is judged by what each event meets.
-/

set_option autoImplicit false
set_option relaxedAutoImplicit false

namespace QuantDataCenter.Lib.Trace

section Along

variable {E : Type*} {fits : List E → E → Prop}

/-- Every event of a trace fits what came before it. -/
def Along (fits : List E → E → Prop) (trace : List E) : Prop :=
  ∀ before e after, trace = before ++ e :: after → fits before e

theorem Along.nil : Along fits [] := by
  intro before e after h
  simp at h

theorem Along.concat {trace : List E} {e : E} (h : Along fits trace) (he : fits trace e) :
    Along fits (trace ++ [e]) := by
  intro before e' after heq
  rcases List.eq_nil_or_concat after with rfl | ⟨after, last, rfl⟩
  · obtain ⟨rfl, hlast⟩ := List.append_inj' heq rfl
    obtain rfl := (List.cons.inj hlast).1
    exact he
  · rw [List.concat_eq_append, ← List.cons_append, ← List.append_assoc] at heq
    exact h before e' after (List.append_inj' heq rfl).1

end Along

variable {W E : Type*} {apply : W → E → W} {ok : W → E → Prop} {inv : W → Prop}

/-- Every event is fine in the world it meets. -/
def Guarded (apply : W → E → W) (ok : W → E → Prop) : W → List E → Prop
  | _, [] => True
  | w, e :: events => ok w e ∧ Guarded apply ok (apply w e) events

theorem guarded_append {w : W} {events later : List E} :
    Guarded apply ok w (events ++ later) ↔
      Guarded apply ok w events ∧ Guarded apply ok (events.foldl apply w) later := by
  induction events generalizing w with
  | nil => exact (and_iff_right trivial).symm
  | cons e events ih =>
    rw [List.cons_append, List.foldl_cons]
    constructor
    · rintro ⟨he, hrest⟩
      obtain ⟨hevents, hlater⟩ := ih.mp hrest
      exact ⟨⟨he, hevents⟩, hlater⟩
    · rintro ⟨⟨he, hevents⟩, hlater⟩
      exact ⟨he, ih.mpr ⟨hevents, hlater⟩⟩

theorem Guarded.at {w : W} {before after : List E} {e : E}
    (h : Guarded apply ok w (before ++ e :: after)) : ok (before.foldl apply w) e :=
  (guarded_append.mp h).2.1

theorem Guarded.take {w : W} {events : List E} (h : Guarded apply ok w events) (n : ℕ) :
    Guarded apply ok w (events.take n) := by
  rw [← List.take_append_drop n events] at h
  exact (guarded_append.mp h).1

/-- What fine events keep, a run of them keeps. -/
theorem Guarded.keeps {w : W} {events : List E} (h : Guarded apply ok w events)
    (hstep : ∀ w e, inv w → ok w e → inv (apply w e)) (hinv : inv w) :
    inv (events.foldl apply w) := by
  induction events generalizing w with
  | nil => exact hinv
  | cons e events ih => exact ih h.2 (hstep w e hinv h.1)

/-- A run that is fine and ends well. -/
structure Plays (apply : W → E → W) (ok : W → E → Prop) (post : W → Prop) (w : W)
    (events : List E) : Prop where
  fine : Guarded apply ok w events
  ends : post (events.foldl apply w)

theorem Plays.nil {post : W → Prop} {w : W} (h : post w) : Plays apply ok post w [] := ⟨trivial, h⟩

theorem Plays.append {post post' : W → Prop} {w : W} {events later : List E}
    (h : Plays apply ok post w events) (hlater : Plays apply ok post' (events.foldl apply w) later) :
    Plays apply ok post' w (events ++ later) := by
  refine ⟨guarded_append.mpr ⟨h.fine, hlater.fine⟩, ?_⟩
  rw [List.foldl_append]
  exact hlater.ends

end QuantDataCenter.Lib.Trace
