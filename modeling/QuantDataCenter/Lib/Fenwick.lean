import Mathlib.Algebra.BigOperators.Intervals
import Mathlib.Algebra.Order.BigOperators.Group.Finset
import Mathlib.Data.Int.Bitwise
import Mathlib.Tactic.Linarith

/-!
Binary indexed trees: an update and a prefix sum walk along the lowest set bits of
an index. Entry `i` of the tree holds the sum over the `lowbit i` positions up to `i`;
entry 0 is not used.
-/

set_option autoImplicit false
set_option relaxedAutoImplicit false

namespace QuantDataCenter.Lib.Fenwick

/-- `n & -n`. -/
def lowbit (n : ℕ) : ℕ := (Int.land n (-n)).toNat

private theorem land_lnot_self (n : ℕ) : Int.land n (Int.lnot n) = 0 := by
  show ((Nat.ldiff n n : ℕ) : ℤ) = 0
  have hzero : Nat.ldiff n n = 0 := by
    refine Nat.eq_of_testBit_eq fun k => ?_
    rw [Nat.testBit_ldiff]
    simp
  rw [hzero]
  rfl

private theorem lowbit_double_succ (n : ℕ) : lowbit (2 * n + 1) = 1 := by
  have hpos : ((2 * n + 1 : ℕ) : ℤ) = Int.bit true n := by
    rw [Int.bit_val]
    push_cast
    rfl
  have hneg : -((2 * n + 1 : ℕ) : ℤ) = Int.bit true (Int.lnot n) := by
    have hlnot : Int.lnot (n : ℤ) = -(n : ℤ) - 1 := by
      show Int.negSucc n = _
      omega
    rw [Int.bit_val, hlnot]
    push_cast
    simp only [cond_true]
    omega
  unfold lowbit
  rw [hneg, hpos, Int.land_bit, land_lnot_self]
  rfl

private theorem lowbit_double (n : ℕ) : lowbit (2 * n) = 2 * lowbit n := by
  have hpos : ((2 * n : ℕ) : ℤ) = Int.bit false n := by
    rw [Int.bit_val]
    push_cast
    simp
  have hneg : -((2 * n : ℕ) : ℤ) = Int.bit false (-n) := by
    rw [Int.bit_val]
    push_cast
    simp
  unfold lowbit
  rw [hneg, hpos, Int.land_bit, Int.bit_val]
  simp only [Bool.and_self, cond_false, add_zero]
  omega

theorem lowbit_pos {n : ℕ} (h : 0 < n) : 0 < lowbit n := by
  induction n using Nat.strong_induction_on with
  | _ n ih =>
    rcases Nat.even_or_odd' n with ⟨m, rfl | rfl⟩
    · have hm := ih m (by omega) (by omega)
      rw [lowbit_double]
      omega
    · rw [lowbit_double_succ]
      exact Nat.one_pos

private theorem lowbit_le (n : ℕ) : lowbit n ≤ n := by
  induction n using Nat.strong_induction_on with
  | _ n ih =>
    rcases Nat.even_or_odd' n with ⟨m, rfl | rfl⟩
    · rcases Nat.eq_zero_or_pos m with rfl | hpos
      · decide
      · have hm := ih m (by omega)
        rw [lowbit_double]
        omega
    · rw [lowbit_double_succ]
      omega

/-- Entry `i` of a tree covers position `c`. -/
def Covers (i c : ℕ) : Prop := i - lowbit i < c ∧ c ≤ i

instance (i c : ℕ) : Decidable (Covers i c) := inferInstanceAs (Decidable (_ ∧ _))

private theorem covers_odd (m c : ℕ) : Covers (2 * m + 1) c ↔ c = 2 * m + 1 := by
  unfold Covers
  rw [lowbit_double_succ]
  omega

private theorem covers_even_even (m c : ℕ) : Covers (2 * m) (2 * c) ↔ Covers m c := by
  unfold Covers
  rw [lowbit_double]
  omega

private theorem covers_even_odd (m c : ℕ) : Covers (2 * m) (2 * c + 1) ↔ Covers m (c + 1) := by
  have hle := lowbit_le m
  unfold Covers
  rw [lowbit_double]
  omega

/-- The entries that cover a position are met by adding the lowest set bit. -/
theorem covers_iff {c : ℕ} (hc : 0 < c) (i : ℕ) :
    Covers i c ↔ i = c ∨ Covers i (c + lowbit c) := by
  induction c using Nat.strong_induction_on generalizing i with
  | _ c ih =>
    rcases Nat.even_or_odd' i with ⟨m, rfl | rfl⟩
    · rcases Nat.even_or_odd' c with ⟨n, rfl | rfl⟩
      · have hsame : 2 * m = 2 * n ↔ m = n := by omega
        rw [lowbit_double, ← Nat.mul_add, covers_even_even, covers_even_even, hsame]
        exact ih n (by omega) (by omega) m
      · have hnot : ¬2 * m = 2 * n + 1 := by omega
        rw [lowbit_double_succ, covers_even_odd, show 2 * n + 1 + 1 = 2 * (n + 1) by omega,
          covers_even_even]
        exact (or_iff_right hnot).symm
    · rw [covers_odd, covers_odd]
      rcases Nat.even_or_odd' c with ⟨n, rfl | rfl⟩
      · rw [lowbit_double]
        omega
      · rw [lowbit_double_succ]
        omega

variable {M : Type*} [AddCommMonoid M]

/-- The update loop; an index is at least 1. -/
def addLoop (delta : M) (tree : List M) (current : ℕ) : List M :=
  if 0 < current ∧ current < tree.length then
    addLoop delta (tree.modify current fun x => x + delta) (current + lowbit current)
  else tree
termination_by tree.length - current
decreasing_by
  rename_i h
  have hpos := lowbit_pos h.1
  rw [List.length_modify]
  omega

def sumLoop (tree : List M) (current : ℕ) : M :=
  if 0 < current then tree.getD current 0 + sumLoop tree (current - lowbit current) else 0
termination_by current
decreasing_by
  rename_i h
  have hpos := lowbit_pos h
  omega

def new (M : Type*) [AddCommMonoid M] (size : ℕ) : List M := List.replicate (size + 1) 0

def add (tree : List M) (index : ℕ) (delta : M) : List M := addLoop delta tree (index + 1)

def prefixSum (tree : List M) (index : ℤ) : M :=
  if index < 0 then 0 else sumLoop tree (min (index.toNat + 1) (tree.length - 1))

/-- The tree holds the sums of the values. -/
structure Represents (tree : List M) (f : ℕ → M) : Prop where
  nonempty : 0 < tree.length
  entry : ∀ i, 0 < i → i < tree.length → tree[i]? = some (∑ k ∈ Finset.Ioc (i - lowbit i) i, f k)

theorem length_addLoop (delta : M) (tree : List M) (current : ℕ) :
    (addLoop delta tree current).length = tree.length := by
  fun_induction addLoop delta tree current with
  | case1 tree current h ih => rw [ih, List.length_modify]
  | case2 => rfl

/-- The update loop changes the entries that cover its position. -/
private theorem getElem?_addLoop (delta : M) (tree : List M) {current : ℕ} (hcurrent : 0 < current)
    {i : ℕ} (hi : i < tree.length) :
    (addLoop delta tree current)[i]? =
      tree[i]?.map fun x => if Covers i current then x + delta else x := by
  fun_induction addLoop delta tree current with
  | case1 tree current h ih =>
    rw [ih (by omega) (by rw [List.length_modify]; exact hi), List.getElem?_modify]
    rw [List.getElem?_eq_getElem hi]
    have hpos := lowbit_pos hcurrent
    by_cases hsame : current = i
    · subst hsame
      have hself : Covers current current := ⟨by omega, le_refl _⟩
      have hnext : ¬Covers current (current + lowbit current) := fun hcovers => by
        have hle := hcovers.2
        omega
      simp [hself, hnext]
    · have hiff : Covers i current ↔ Covers i (current + lowbit current) := by
        rw [covers_iff hcurrent]
        exact or_iff_right (Ne.symm hsame)
      simp [hsame, hiff]
  | case2 tree current h =>
    have hnot : ¬Covers i current := fun hcovers => h ⟨hcurrent, lt_of_le_of_lt hcovers.2 hi⟩
    simp [hnot]

theorem represents_new (size : ℕ) : Represents (new M size) fun _ => 0 := by
  unfold new
  refine ⟨by simp, fun i hpos hi => ?_⟩
  rw [List.length_replicate] at hi
  rw [List.getElem?_replicate, if_pos hi, Finset.sum_const_zero]

theorem Represents.add {tree : List M} {f : ℕ → M} (h : Represents tree f) (index : ℕ) (delta : M) :
    Represents (add tree index delta) (f + Pi.single (index + 1) delta) := by
  unfold Fenwick.add
  refine ⟨by rw [length_addLoop]; exact h.nonempty, fun i hpos hi => ?_⟩
  rw [length_addLoop] at hi
  rw [getElem?_addLoop delta tree (Nat.succ_pos index) hi, h.entry i hpos hi, Option.map_some]
  have hsingle : ∑ k ∈ Finset.Ioc (i - lowbit i) i, (Pi.single (index + 1) delta : ℕ → M) k =
      if Covers i (index + 1) then delta else 0 := by
    rw [Finset.sum_pi_single']
    exact if_congr Finset.mem_Ioc rfl rfl
  simp only [Pi.add_apply, Finset.sum_add_distrib, hsingle]
  by_cases hcovers : Covers i (index + 1)
  · rw [if_pos hcovers, if_pos hcovers]
  · rw [if_neg hcovers, if_neg hcovers, add_zero]

theorem Represents.sumLoop {tree : List M} {f : ℕ → M} (h : Represents tree f) {i : ℕ}
    (hi : i < tree.length) : sumLoop tree i = ∑ k ∈ Finset.Ioc 0 i, f k := by
  induction i using Nat.strong_induction_on with
  | _ i ih =>
    unfold Fenwick.sumLoop
    split
    case isTrue hpos =>
      have hbit := lowbit_pos hpos
      have hle := lowbit_le i
      rw [ih (i - lowbit i) (by omega) (by omega), List.getD_eq_getElem?_getD, h.entry i hpos hi,
        Option.getD_some, add_comm]
      exact Finset.sum_Ioc_consecutive f (Nat.zero_le _) (Nat.sub_le _ _)
    case isFalse hzero =>
      obtain rfl : i = 0 := by omega
      simp

theorem Represents.prefixSum {tree : List M} {f : ℕ → M} (h : Represents tree f) {index : ℕ}
    (hindex : index + 1 < tree.length) :
    prefixSum tree index = ∑ k ∈ Finset.Ioc 0 (index + 1), f k := by
  unfold Fenwick.prefixSum
  rw [if_neg (by omega), Int.toNat_natCast, min_eq_left (by omega)]
  exact h.sumLoop hindex

end QuantDataCenter.Lib.Fenwick
