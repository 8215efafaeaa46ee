import QuantDataCenter.Percentile.Rolling

/-!
The tree of `valuation_percentile.py` with its loops as they run. They end within as many rounds as
the tree has entries, at what the binary indexed trees of the rolling counts compute.
-/

set_option autoImplicit false
set_option relaxedAutoImplicit false

namespace QuantDataCenter.Percentile.FenwickTree

open QuantDataCenter.Lib QuantDataCenter.Lib.Fenwick

/-! The loops -/

/-- The loop of `add`, if it ends within so many rounds. -/
def addRounds (delta : ℤ) : ℕ → List ℤ → ℕ → Option (List ℤ)
  | 0, _, _ => none
  | rounds + 1, tree, current =>
    if current < tree.length then
      addRounds delta rounds (tree.modify current fun x => x + delta) (current + lowbit current)
    else some tree

/-- The loop of `prefix_sum`, if it ends within so many rounds. -/
def sumRounds (tree : List ℤ) : ℕ → ℕ → ℤ → Option ℤ
  | 0, _, _ => none
  | rounds + 1, current, total =>
    if 0 < current then
      sumRounds tree rounds (current - lowbit current) (total + tree.getD current 0)
    else some total

def new (size : ℕ) : List ℤ := List.replicate (size + 1) 0

def add (rounds : ℕ) (tree : List ℤ) (index : ℕ) (delta : ℤ) : Option (List ℤ) :=
  addRounds delta rounds tree (index + 1)

def prefixSum (rounds : ℕ) (tree : List ℤ) (index : ℤ) : Option ℤ :=
  if index < 0 then some 0
  else sumRounds tree rounds (min (index.toNat + 1) (tree.length - 1)) 0

/-- Several calls of `add`, one after the other. -/
def addAll (rounds : ℕ) (tree : List ℤ) (adds : List (ℕ × ℤ)) : Option (List ℤ) :=
  adds.foldlM (fun tree call => add rounds tree call.1 call.2) tree

/-! They end -/

private theorem addRounds_eq (delta : ℤ) {rounds current : ℕ} {tree : List ℤ}
    (hcurrent : 0 < current)
    (hrounds : tree.length - current < rounds) :
    addRounds delta rounds tree current = some (addLoop delta tree current) := by
  induction rounds generalizing tree current with
  | zero => omega
  | succ rounds ih =>
    have hpos := lowbit_pos hcurrent
    unfold addRounds addLoop
    by_cases hlt : current < tree.length
    · rw [if_pos hlt, if_pos ⟨hcurrent, hlt⟩]
      apply ih (by omega)
      rw [List.length_modify]
      omega
    · rw [if_neg hlt, if_neg fun h => hlt h.2]

private theorem sumRounds_eq {rounds current : ℕ} (tree : List ℤ) (total : ℤ)
    (hrounds : current < rounds) :
    sumRounds tree rounds current total = some (total + sumLoop tree current) := by
  induction rounds generalizing current total with
  | zero => omega
  | succ rounds ih =>
    unfold sumRounds sumLoop
    by_cases hcurrent : 0 < current
    · have hpos := lowbit_pos hcurrent
      rw [if_pos hcurrent, if_pos hcurrent, ih _ (by omega), add_assoc]
    · rw [if_neg hcurrent, if_neg hcurrent, add_zero]

private theorem add_eq {rounds : ℕ} {tree : List ℤ} (hrounds : tree.length ≤ rounds)
    (htree : 0 < tree.length) (index : ℕ) (delta : ℤ) :
    add rounds tree index delta = some (Fenwick.add tree index delta) := by
  unfold add Fenwick.add
  exact addRounds_eq delta (Nat.succ_pos index) (by omega)

theorem prefixSum_eq {rounds : ℕ} {tree : List ℤ} (hrounds : tree.length ≤ rounds)
    (htree : 0 < tree.length) (index : ℤ) :
    prefixSum rounds tree index = some (Fenwick.prefixSum tree index) := by
  unfold prefixSum Fenwick.prefixSum
  by_cases hindex : index < 0
  · rw [if_pos hindex, if_pos hindex]
  · rw [if_neg hindex, if_neg hindex, sumRounds_eq tree 0 (by omega), zero_add]

/-! What they compute -/

/-- The sum of what was added at the positions up to `k`. -/
def addedUpTo (adds : List (ℕ × ℤ)) (k : ℤ) : ℤ :=
  ((adds.filter fun call => decide ((call.1 : ℤ) ≤ k)).map Prod.snd).sum

private theorem addedUpTo_append (adds : List (ℕ × ℤ)) (call : ℕ × ℤ) (k : ℤ) :
    addedUpTo (adds ++ [call]) k = addedUpTo adds k + if (call.1 : ℤ) ≤ k then call.2 else 0 := by
  unfold addedUpTo
  rw [List.filter_append, List.map_append, List.sum_append]
  by_cases hle : (call.1 : ℤ) ≤ k
  · simp [hle]
  · simp [hle]

structure Holds (size : ℕ) (tree : List ℤ) (adds : List (ℕ × ℤ)) : Prop where
  length : tree.length = size + 1
  sums : ∃ f : ℕ → ℤ, Represents tree f ∧
    ∀ n, ∑ k ∈ Finset.Ioc 0 n, f k = addedUpTo adds ((n : ℤ) - 1)

theorem holds_new (size : ℕ) : Holds size (new size) [] := by
  refine ⟨List.length_replicate, fun _ => 0, represents_new size, fun n => ?_⟩
  rw [Finset.sum_const_zero]
  rfl

theorem Holds.add {size rounds : ℕ} {tree : List ℤ} {adds : List (ℕ × ℤ)} (h : Holds size tree adds)
    (hrounds : size + 1 ≤ rounds) (call : ℕ × ℤ) :
    ∃ tree', add rounds tree call.1 call.2 = some tree' ∧ Holds size tree' (adds ++ [call]) := by
  obtain ⟨f, hf, hsums⟩ := h.sums
  refine ⟨_, add_eq (h.length.trans_le hrounds) hf.nonempty call.1 call.2, ?_,
    f + Pi.single (call.1 + 1) call.2, hf.add call.1 call.2, fun n => ?_⟩
  · exact (length_addLoop call.2 tree (call.1 + 1)).trans h.length
  · simp only [Pi.add_apply, Finset.sum_add_distrib, hsums n, Finset.sum_pi_single', Finset.mem_Ioc]
    rw [addedUpTo_append]
    congr 1
    apply if_congr _ rfl rfl
    omega

private theorem Holds.addAll {size rounds : ℕ} (hrounds : size + 1 ≤ rounds) {tree : List ℤ}
    {before : List (ℕ × ℤ)} (h : Holds size tree before) (adds : List (ℕ × ℤ)) :
    ∃ tree', addAll rounds tree adds = some tree' ∧ Holds size tree' (before ++ adds) := by
  induction adds generalizing tree before with
  | nil => exact ⟨tree, rfl, by rwa [List.append_nil]⟩
  | cons call adds ih =>
    obtain ⟨next, hnext, hholds⟩ := h.add hrounds call
    obtain ⟨last, hlast, hall⟩ := ih hholds
    refine ⟨last, ?_, by rwa [List.append_assoc] at hall⟩
    unfold FenwickTree.addAll at hlast ⊢
    rw [List.foldlM_cons, hnext]
    exact hlast

/-- Every prefix sum of a tree is the sum of what was added up to there. -/
theorem Holds.prefixSum {size rounds : ℕ} {tree : List ℤ} {adds : List (ℕ × ℤ)}
    (h : Holds size tree adds) (hadds : ∀ call ∈ adds, call.1 < size) (hrounds : size + 1 ≤ rounds)
    (k : ℤ) : prefixSum rounds tree k = some (addedUpTo adds k) := by
  have hlength := h.length
  obtain ⟨f, hf, hsums⟩ := h.sums
  rw [prefixSum_eq (hlength.trans_le hrounds) hf.nonempty]
  unfold Fenwick.prefixSum
  by_cases hk : k < 0
  · have hnone : addedUpTo adds k = addedUpTo adds ((0 : ℕ) - 1) := by
      unfold addedUpTo
      congr 2
      exact List.filter_congr fun call _ => decide_eq_decide.mpr (by omega)
    rw [if_pos hk, hnone, ← hsums 0]
    rfl
  · rw [if_neg hk, hf.sumLoop (by omega), hsums]
    unfold addedUpTo
    congr 3
    refine List.filter_congr fun call hcall => decide_eq_decide.mpr ?_
    have hsize := hadds call hcall
    omega

/-- A new tree takes any additions, its prefix sums are theirs, and its loops end at every index. -/
theorem fenwickTree_sums (size : ℕ) (adds : List (ℕ × ℤ)) (hadds : ∀ call ∈ adds, call.1 < size) :
    ∃ tree, addAll (size + 1) (new size) adds = some tree ∧
      (∀ index delta, (add (size + 1) tree index delta).isSome = true) ∧
      ∀ k : ℤ, prefixSum (size + 1) tree k =
        some ((adds.filter fun call => decide ((call.1 : ℤ) ≤ k)).map Prod.snd).sum := by
  obtain ⟨tree, htree, hholds⟩ := (holds_new size).addAll le_rfl adds
  refine ⟨tree, htree, fun index delta => ?_, fun k => hholds.prefixSum hadds le_rfl k⟩
  obtain ⟨tree', hadd, -⟩ := hholds.add le_rfl (index, delta)
  rw [hadd]
  rfl

theorem fenwickTree_sums_three : ∃ tree, addAll 4 (new 3) [(0, 5), (2, -7)] = some tree ∧
    (∀ index delta, (add 4 tree index delta).isSome = true) ∧
    ∀ k : ℤ, prefixSum 4 tree k =
      some (([(0, 5), (2, -7)].filter fun call : ℕ × ℤ => decide ((call.1 : ℤ) ≤ k)).map Prod.snd).sum :=
  fenwickTree_sums 3 [(0, 5), (2, -7)] (by decide)

end QuantDataCenter.Percentile.FenwickTree
