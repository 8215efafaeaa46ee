import Mathlib.Data.Nat.Notation

/-!
Attempts that are repeated while they fail with an error that allows it. What each attempt keeps, the
repetition keeps, and its costs are those of its attempts.
-/

set_option autoImplicit false
set_option relaxedAutoImplicit false

namespace QuantDataCenter.Lib.Retry

variable {S ε α : Type*}

/-- Up to `n + 1` attempts; the last one's error is raised. -/
@[grind =] def retrying (again : ε → Bool) (body : S → Except ε α × S) : ℕ → S → Except ε α × S
  | 0, s => body s
  | n + 1, s =>
    match body s with
    | (.ok value, s') => (.ok value, s')
    | (.error e, s') => if again e then retrying again body n s' else (.error e, s')

variable {again : ε → Bool} {body : S → Except ε α × S}

theorem retrying_zero (s : S) : retrying again body 0 s = body s := rfl

private theorem retrying_settled (n : ℕ) {s : S}
    (h : ∀ e, (body s).1 = .error e → again e = false) : retrying again body n s = body s := by
  cases n with
  | zero => rfl
  | succ n =>
    rw [retrying]
    rcases hbody : body s with ⟨result, s'⟩
    cases result with
    | ok value => rfl
    | error e =>
      have hstop := h e (by rw [hbody])
      simp only [hstop, Bool.false_eq_true, if_false]

theorem retrying_again (n : ℕ) {s s' : S} {e : ε} (h : body s = (.error e, s'))
    (hagain : again e = true) : retrying again body (n + 1) s = retrying again body n s' := by
  rw [retrying, h]
  simp only [hagain, if_true]

private theorem attempt_cases (again : ε → Bool) (body : S → Except ε α × S) (s : S) :
    (∀ e, (body s).1 = .error e → again e = false) ∨
      ∃ e s', body s = (.error e, s') ∧ again e = true := by
  rcases hbody : body s with ⟨result, s'⟩
  cases result with
  | ok value => exact .inl fun e he => by cases he
  | error e =>
    cases hagain : again e with
    | false =>
      refine .inl fun e' he' => ?_
      cases he'
      exact hagain
    | true => exact .inr ⟨e, s', rfl, hagain⟩

/-- The invariant rule. -/
theorem retrying_keeps {inv : S → Prop} (hbody : ∀ s, inv s → inv (body s).2) (n : ℕ) {s : S}
    (hs : inv s) : inv (retrying again body n s).2 := by
  induction n generalizing s with
  | zero => exact hbody s hs
  | succ n ih =>
    obtain hsettled | ⟨e, s', hfails, hagain⟩ := attempt_cases again body s
    · rw [retrying_settled (n + 1) hsettled]
      exact hbody s hs
    · rw [retrying_again n hfails hagain]
      refine ih ?_
      have hnext := hbody s hs
      rwa [hfails] at hnext

/-- The cost rule. -/
theorem retrying_cost (cost : S → ℕ) (c : ℕ) (hbody : ∀ s, cost (body s).2 ≤ cost s + c) (n : ℕ)
    (s : S) : cost (retrying again body n s).2 ≤ cost s + (n + 1) * c := by
  induction n generalizing s with
  | zero => rw [Nat.zero_add, Nat.one_mul]; exact hbody s
  | succ n ih =>
    have hfirst := hbody s
    obtain hsettled | ⟨e, s', hfails, hagain⟩ := attempt_cases again body s
    · rw [retrying_settled (n + 1) hsettled]
      calc cost (body s).2 ≤ cost s + c := hfirst
        _ ≤ cost s + (n + 1 + 1) * c :=
          Nat.add_le_add_left (Nat.le_mul_of_pos_left c (Nat.succ_pos (n + 1))) _
    · rw [retrying_again n hfails hagain]
      rw [hfails] at hfirst
      calc cost (retrying again body n s').2 ≤ cost s' + (n + 1) * c := ih s'
        _ ≤ cost s + c + (n + 1) * c := Nat.add_le_add_right hfirst _
        _ = cost s + (n + 1 + 1) * c := by rw [Nat.succ_mul (n + 1) c]; omega

end QuantDataCenter.Lib.Retry
