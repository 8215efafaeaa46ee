import QuantDataCenter.Lib.Keyed

/-!
A backward as-of join of two sorted lists in one pass: each element on the left is matched with
the last one on the right that is not later. And a list that is written to by positions.
-/

set_option autoImplicit false
set_option relaxedAutoImplicit false

namespace QuantDataCenter.Lib.AsOf

open QuantDataCenter.Lib.Keyed

variable {α β κ : Type*}

section Join

variable [LinearOrder κ] (leftKey : α → κ) (rightKey : β → κ)

/-- Goes on to the right while it is not later than the key. -/
def advance (k : κ) : Option β → List β → Option β × List β
  | last, [] => (last, [])
  | last, b :: bs => if rightKey b ≤ k then advance k (some b) bs else (last, b :: bs)

/-- The pass over both lists, with the last element that it has gone past. -/
def mergeAsofFrom : Option β → List α → List β → List (α × Option β)
  | _, [], _ => []
  | last, a :: as, right =>
    let next := advance rightKey (leftKey a) last right
    (a, next.1) :: mergeAsofFrom next.1 as next.2

def mergeAsof (left : List α) (right : List β) : List (α × Option β) :=
  mergeAsofFrom leftKey rightKey none left right

variable {leftKey rightKey}

private theorem lastSat_eq_getLast? {p : β → Bool} {l : List β} (h : ∀ b ∈ l, p b = true) :
    lastSat p l = l.getLast? := by
  unfold lastSat
  rw [List.filter_eq_self.mpr h]

private theorem lastSat_eq_none {p : β → Bool} {l : List β} (h : ∀ b ∈ l, p b = false) :
    lastSat p l = none := by
  have hnone : l.filter p = [] := List.filter_eq_nil_iff.mpr fun b hb => by simp [h b hb]
  unfold lastSat
  rw [hnone]
  rfl

private theorem advance_spec (k : κ) (passed : List β) (right : List β)
    (hpassed : ∀ b ∈ passed, rightKey b ≤ k)
    (hsorted : (passed ++ right).Pairwise fun b b' => rightKey b ≤ rightKey b') :
    ∃ passed', passed' ++ (advance rightKey k passed.getLast? right).2 = passed ++ right ∧
      (advance rightKey k passed.getLast? right).1 = passed'.getLast? ∧
      (∀ b ∈ passed', rightKey b ≤ k) ∧
      ∀ b ∈ (advance rightKey k passed.getLast? right).2, k < rightKey b := by
  induction right generalizing passed with
  | nil =>
    refine ⟨passed, rfl, rfl, hpassed, ?_⟩
    rintro b (h : b ∈ [])
    cases h
  | cons b right ih =>
    unfold advance
    by_cases hle : rightKey b ≤ k
    · rw [if_pos hle]
      have happend : passed ++ b :: right = (passed ++ [b]) ++ right := by simp
      have hall : ∀ b' ∈ passed ++ [b], rightKey b' ≤ k := by
        intro b' hb'
        rcases List.mem_append.mp hb' with hb' | hb'
        · exact hpassed b' hb'
        · rw [List.mem_singleton.mp hb']
          exact hle
      have hnext := ih (passed ++ [b]) hall (happend ▸ hsorted)
      rw [List.getLast?_append, List.getLast?_singleton, Option.some_or] at hnext
      rw [happend]
      exact hnext
    · rw [if_neg hle]
      refine ⟨passed, rfl, rfl, hpassed, fun b' hb' => ?_⟩
      have hlt : k < rightKey b := not_le.mp hle
      rcases List.mem_cons.mp hb' with rfl | hb'
      · exact hlt
      · have htail := (List.pairwise_append.mp hsorted).2.1
        exact lt_of_lt_of_le hlt ((List.pairwise_cons.mp htail).1 b' hb')

private theorem mergeAsofFrom_eq (left : List α) (passed right : List β)
    (hleft : left.Pairwise fun a a' => leftKey a ≤ leftKey a')
    (hpassed : ∀ b ∈ passed, ∀ a ∈ left, rightKey b ≤ leftKey a)
    (hsorted : (passed ++ right).Pairwise fun b b' => rightKey b ≤ rightKey b') :
    mergeAsofFrom leftKey rightKey passed.getLast? left right =
      left.map fun a => (a, lastSat (fun b => decide (rightKey b ≤ leftKey a)) (passed ++ right)) := by
  induction left generalizing passed right with
  | nil => rfl
  | cons a left ih =>
    obtain ⟨hfirst, hrest⟩ := List.pairwise_cons.mp hleft
    obtain ⟨passed', hsame, hlast, hbefore, hafter⟩ :=
      advance_spec (leftKey a) passed right (fun b hb => hpassed b hb a List.mem_cons_self) hsorted
    have hmatch : lastSat (fun b => decide (rightKey b ≤ leftKey a)) (passed ++ right) =
        passed'.getLast? := by
      rw [← hsame, lastSat_append,
        lastSat_eq_none fun b hb => decide_eq_false (not_le.mpr (hafter b hb)), Option.none_or]
      exact lastSat_eq_getLast? fun b hb => decide_eq_true (hbefore b hb)
    have hnext := ih passed' (advance rightKey (leftKey a) passed.getLast? right).2 hrest
      (fun b hb a' ha' => (hbefore b hb).trans (hfirst a' ha')) (hsame ▸ hsorted)
    rw [mergeAsofFrom, List.map_cons, hmatch]
    simp only [hlast]
    rw [hnext, hsame]

/-- On sorted lists the pass finds for each element the last one that is not later. -/
theorem mergeAsof_eq {left : List α} {right : List β}
    (hleft : left.Pairwise fun a a' => leftKey a ≤ leftKey a')
    (hright : right.Pairwise fun b b' => rightKey b ≤ rightKey b') :
    mergeAsof leftKey rightKey left right =
      left.map fun a => (a, lastSat (fun b => decide (rightKey b ≤ leftKey a)) right) :=
  mergeAsofFrom_eq left [] right hleft (fun _ hb => nomatch hb) hright

theorem greatest_of_lastSat {right : List β} {k : κ} {b : β}
    (hright : right.Pairwise fun b b' => rightKey b ≤ rightKey b')
    (hlast : lastSat (fun b => decide (rightKey b ≤ k)) right = some b) :
    b ∈ right ∧ rightKey b ≤ k ∧ ∀ b' ∈ right, rightKey b' ≤ k → rightKey b' ≤ rightKey b := by
  obtain ⟨hmem, hle⟩ := mem_of_lastSat hlast
  refine ⟨hmem, of_decide_eq_true hle, fun b' hb' hle' => ?_⟩
  obtain ⟨init, hinit⟩ := List.getLast?_eq_some_iff.mp hlast
  have hfilter := hright.sublist (List.filter_sublist (p := fun b => decide (rightKey b ≤ k)))
  have hmem' : b' ∈ right.filter fun b => decide (rightKey b ≤ k) :=
    List.mem_filter.mpr ⟨hb', decide_eq_true hle'⟩
  rw [hinit] at hfilter hmem'
  rcases List.mem_append.mp hmem' with h | h
  · exact (List.pairwise_append.mp hfilter).2.2 b' h b List.mem_cons_self
  · rw [List.mem_singleton.mp h]

end Join

/-! Writing to positions -/

/-- The list with values written to positions, one after the other. -/
def writeAll (writes : List (ℕ × β)) (l : List β) : List β :=
  writes.foldl (fun l w => l.set w.1 w.2) l

theorem length_writeAll (writes : List (ℕ × β)) (l : List β) :
    (writeAll writes l).length = l.length := by
  induction writes generalizing l with
  | nil => rfl
  | cons w writes ih => exact (ih _).trans List.length_set

/-- If each write brings a position its value, then the positions that were not written have to
have theirs from the start. -/
theorem getElem?_writeAll {f : ℕ → β} {writes : List (ℕ × β)} {l : List β}
    (hwrites : ∀ w ∈ writes, w.2 = f w.1) {i : ℕ} (hi : i < l.length)
    (hstart : i ∉ writes.map Prod.fst → l[i]? = some (f i)) :
    (writeAll writes l)[i]? = some (f i) := by
  induction writes generalizing l with
  | nil => exact hstart List.not_mem_nil
  | cons w writes ih =>
    refine ih (fun w' hw' => hwrites w' (List.mem_cons_of_mem _ hw')) (by rwa [List.length_set]) ?_
    intro hlater
    change (l.set w.1 w.2)[i]? = some (f i)
    by_cases hfirst : w.1 = i
    · rw [hfirst, List.getElem?_set_self hi, hwrites w List.mem_cons_self, hfirst]
    · rw [List.getElem?_set_ne hfirst]
      apply hstart
      rw [List.map_cons, List.mem_cons, not_or]
      exact ⟨Ne.symm hfirst, hlater⟩

end QuantDataCenter.Lib.AsOf
