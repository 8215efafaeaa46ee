import Mathlib.Tactic.TypeStar

/-!
Statements that can raise. An `error` is what a handler for ordinary
exceptions catches; an `interrupt` (a keyboard interrupt, a request to exit)
passes every such handler and stops at nothing but cleanup blocks. A point
between two statements is a place where an interrupt may arrive.
-/

set_option autoImplicit false
set_option relaxedAutoImplicit false

namespace QuantDataCenter.Lib.Interrupt

inductive Raised where
  | error
  | interrupt
  deriving DecidableEq, Repr

/-- From a state to a state, with the exception that is left pending. -/
abbrev Stmt (σ : Type*) := σ → Option Raised × σ

variable {σ : Type*}

@[grind =] def skip : Stmt σ := fun s => (none, s)

@[grind =] def raise (r : Raised) : Stmt σ := fun s => (some r, s)

@[grind =] def update (f : σ → σ) : Stmt σ := fun s => (none, f s)

/-- An operation of the system: it takes effect, or raises and leaves the state. -/
@[grind =] def attempt (succeeds : Bool) (f : σ → σ) : Stmt σ :=
  if succeeds then update f else raise .error

/-- A place between two statements, with the interrupt that arrives there. -/
@[grind =] def point (interrupted : Bool) : Stmt σ :=
  if interrupted then raise .interrupt else skip

@[grind =] def seq (p q : Stmt σ) : Stmt σ := fun s =>
  match p s with
  | (none, t) => q t
  | (some r, t) => (some r, t)

@[grind =] def ifThen (test : σ → Bool) (p : Stmt σ) : Stmt σ := fun s =>
  if test s then p s else (none, s)

/-- The handler sees errors only. -/
@[grind =] def tryExcept (p handler : Stmt σ) : Stmt σ := fun s =>
  match p s with
  | (some .error, t) => handler t
  | out => out

/-- The cleanup block runs in every case; what it raises itself replaces what was pending. -/
@[grind =] def tryFinally (p cleanup : Stmt σ) : Stmt σ := fun s =>
  ((cleanup (p s).2).1.or (p s).1, (cleanup (p s).2).2)

theorem tryExcept_error {p handler : Stmt σ} {s t : σ} (h : p s = (some .error, t)) :
    tryExcept p handler s = handler t := by
  simp only [tryExcept, h]

theorem tryExcept_interrupt {p handler : Stmt σ} {s t : σ} (h : p s = (some .interrupt, t)) :
    tryExcept p handler s = (some .interrupt, t) := by
  simp only [tryExcept, h]

theorem tryExcept_none {p handler : Stmt σ} {s t : σ} (h : p s = (none, t)) :
    tryExcept p handler s = (none, t) := by
  simp only [tryExcept, h]

theorem tryFinally_state (p cleanup : Stmt σ) (s : σ) :
    (tryFinally p cleanup s).2 = (cleanup (p s).2).2 := rfl

theorem tryFinally_raised {p cleanup : Stmt σ} {s : σ} (h : (p s).1 ≠ none) :
    (tryFinally p cleanup s).1 ≠ none := by
  intro hnone
  exact h (Option.or_eq_none_iff.mp hnone).2

end QuantDataCenter.Lib.Interrupt
