import QuantDataCenter.Percentile.Compute

/-!
The rolling counts count the samples they hold: what the three trees answer is the
direct count over the samples, and an eviction keeps the samples of the window.
-/

set_option autoImplicit false
set_option relaxedAutoImplicit false

namespace QuantDataCenter.Percentile

open QuantDataCenter.Lib

/-! Thresholds -/

theorem CalendarDate.le_iff (d e : CalendarDate) : d ≤ e ↔ d.key ≤ e.key := Iff.rfl

private theorem replaceYear_eq_none {d : CalendarDate} {year : ℤ} (h : d.replaceYear year = none) :
    d.month = 2 ∧ d.day = 29 := by
  unfold CalendarDate.replaceYear at h
  split at h
  · cases h
  · rename_i hnot
    obtain ⟨hmonth, -, hday⟩ := d.valid
    unfold daysInMonth at hnot hday
    by_cases htwo : d.month = 2
    · rw [if_pos htwo] at hnot hday
      refine ⟨htwo, ?_⟩
      split at hnot <;> split at hday <;> omega
    · rw [if_neg htwo] at hnot hday
      exact absurd hday hnot

/-- The threshold is the same day of an earlier year, or the day before a leap day. -/
private theorem subtractYears_cases (d : CalendarDate) (years : ℕ) :
    (subtractYears d years).year = d.year - years ∧ (subtractYears d years).month = d.month ∧
      ((subtractYears d years).day = d.day ∨
        (subtractYears d years).day = 28 ∧ d.month = 2 ∧ d.day = 29 ∧
          isLeap (d.year - years) = false) := by
  unfold subtractYears
  split
  case h_1 date hdate =>
    unfold CalendarDate.replaceYear at hdate
    split at hdate
    · rw [← Option.some.inj hdate]
      exact ⟨rfl, rfl, Or.inl rfl⟩
    · cases hdate
  case h_2 hnone =>
    obtain ⟨hmonth, hday⟩ := replaceYear_eq_none hnone
    refine ⟨rfl, rfl, Or.inr ⟨rfl, hmonth, hday, ?_⟩⟩
    unfold CalendarDate.replaceYear at hnone
    split at hnone
    · cases hnone
    · rename_i hnot
      unfold daysInMonth at hnot
      rw [if_pos hmonth, hday] at hnot
      by_contra hleap
      rw [Bool.not_eq_false] at hleap
      rw [hleap] at hnot
      exact hnot (le_refl _)

private theorem CalendarDate.le_def (d e : CalendarDate) : d ≤ e ↔
    d.year < e.year ∨ d.year = e.year ∧ (d.month < e.month ∨ d.month = e.month ∧ d.day ≤ e.day) := by
  rw [CalendarDate.le_iff]
  unfold CalendarDate.key
  rw [Prod.Lex.toLex_le_toLex, Prod.Lex.toLex_le_toLex]

theorem subtractYears_mono {d e : CalendarDate} (h : d ≤ e) (years : ℕ) :
    subtractYears d years ≤ subtractYears e years := by
  obtain ⟨hdy, hdm, hdd⟩ := subtractYears_cases d years
  obtain ⟨hey, hem, hed⟩ := subtractYears_cases e years
  rw [CalendarDate.le_def] at h ⊢
  rw [hdy, hdm, hey, hem]
  rcases h with hyear | ⟨hyear, hmonth | ⟨hmonth, hday⟩⟩
  · exact Or.inl (by omega)
  · exact Or.inr ⟨by omega, Or.inl hmonth⟩
  · refine Or.inr ⟨by omega, Or.inr ⟨hmonth, ?_⟩⟩
    rcases hdd with hdd | ⟨hdd, hd2, hd29, hdleap⟩
    · rcases hed with hed | ⟨hed, he2, he29, heleap⟩
      · omega
      · -- a leap day in the one year is none in the same year of the other
        rcases Nat.lt_or_ge d.day 29 with hlt | hge
        · omega
        · exfalso
          have hd29 : d.day = 29 := by omega
          have hvalid := (subtractYears d years).valid.2.2
          unfold daysInMonth at hvalid
          rw [hdm, hmonth, if_pos he2, hdy, hyear, heleap, hdd, hd29] at hvalid
          exact absurd hvalid (by decide)
    · rcases hed with hed | ⟨hed, -⟩ <;> omega

theorem subtractYears_le (d : CalendarDate) (years : ℕ) : subtractYears d years ≤ d := by
  obtain ⟨hyear, hmonth, hday⟩ := subtractYears_cases d years
  rw [CalendarDate.le_def, hyear, hmonth]
  rcases Nat.eq_zero_or_pos years with rfl | hpos
  · refine Or.inr ⟨by omega, Or.inr ⟨rfl, ?_⟩⟩
    rcases hday with hday | ⟨hday, -, h29, -⟩ <;> omega
  · exact Or.inl (by omega)

/-! Positions in the sorted values -/

section Index

variable {values : List ℚ}

private theorem idxOf_le_iff (hsorted : values.Pairwise (· < ·)) {a b : ℚ} (ha : a ∈ values)
    (hb : b ∈ values) : values.idxOf a ≤ values.idxOf b ↔ a ≤ b := by
  have hia := List.idxOf_lt_length_iff.mpr ha
  have hib := List.idxOf_lt_length_iff.mpr hb
  have hga : values[values.idxOf a] = a := List.getElem_idxOf hia
  have hgb : values[values.idxOf b] = b := List.getElem_idxOf hib
  rw [List.pairwise_iff_getElem] at hsorted
  constructor
  · intro hle
    rcases Nat.lt_or_eq_of_le hle with hlt | heq
    · have hval := hsorted _ _ hia hib hlt
      rw [hga, hgb] at hval
      exact hval.le
    · exact le_of_eq (List.idxOf_inj ha |>.mp heq)
  · intro hle
    by_contra hnot
    have hval := hsorted _ _ hib hia (Nat.lt_of_not_le hnot)
    rw [hga, hgb] at hval
    exact absurd hle (not_le.mpr hval)

end Index

/-! The trees -/

/-- How many samples with the property stand at each position. -/
def tally (p : Sample → Bool) (samples : List Sample) : ℕ → ℤ :=
  fun k => (samples.countP fun s => p s && (s.index + 1 == k) : ℕ)

private theorem tally_cons (p : Sample → Bool) (s : Sample) (samples : List Sample) :
    tally p (s :: samples) = tally p samples + Pi.single (s.index + 1) (if p s then 1 else 0) := by
  funext k
  unfold tally
  rw [List.countP_cons, Pi.add_apply]
  by_cases hk : k = s.index + 1
  · subst hk
    by_cases hp : p s = true <;> simp [hp]
  · have hne : ¬s.index + 1 = k := fun h => hk h.symm
    simp [hk, hne]

private theorem tally_append (p : Sample → Bool) (samples : List Sample) (s : Sample) :
    tally p (samples ++ [s]) = tally p samples + Pi.single (s.index + 1) (if p s then 1 else 0) := by
  rw [← tally_cons]
  funext k
  unfold tally
  rw [(List.perm_append_singleton s samples).countP_eq]

private theorem sum_tally (p : Sample → Bool) (samples : List Sample) (n : ℕ) :
    ∑ k ∈ Finset.Ioc 0 n, tally p samples k =
      (samples.countP fun s => p s && decide (s.index + 1 ≤ n) : ℕ) := by
  induction samples with
  | nil => simp [tally]
  | cons s samples ih =>
    simp only [tally_cons, Pi.add_apply, Finset.sum_add_distrib, ih, Finset.sum_pi_single']
    rw [List.countP_cons]
    by_cases hp : p s = true
    · by_cases hn : s.index + 1 ≤ n <;> simp [hp, hn]
    · simp [hp]

namespace RollingCounts

def isPositive (s : Sample) : Bool := decide (0 < s.value)

def isNegative (s : Sample) : Bool := decide (s.value < 0)

structure Holds (size : ℕ) (counts : RollingCounts) (samples : List Sample) : Prop where
  all : Fenwick.Represents counts.all (tally (fun _ => true) samples)
  positive : Fenwick.Represents counts.positive (tally isPositive samples)
  negative : Fenwick.Represents counts.negative (tally isNegative samples)
  lengths : counts.all.length = size + 1 ∧ counts.positive.length = size + 1 ∧
    counts.negative.length = size + 1
  total : counts.totalCount = samples.length
  positives : counts.positiveCount = (samples.countP isPositive : ℕ)
  negatives : counts.negativeCount = (samples.countP isNegative : ℕ)

variable {size : ℕ} {counts : RollingCounts} {samples : List Sample}

theorem holds_new (values : List ℚ) : Holds (max values.length 1) (new values) [] where
  all := Fenwick.represents_new _
  positive := Fenwick.represents_new _
  negative := Fenwick.represents_new _
  lengths := by simp [new, Fenwick.new]
  total := rfl
  positives := rfl
  negatives := rfl

private theorem samples_addSample (counts : RollingCounts) (s : Sample) (delta : ℤ) :
    (counts.addSample s delta).samples = counts.samples := by
  unfold addSample
  simp only
  split
  · rfl
  · split <;> rfl

private theorem addSample_cases (counts : RollingCounts) (s : Sample) (delta : ℤ) :
    (counts.addSample s delta).all = Fenwick.add counts.all s.index delta ∧
      (counts.addSample s delta).totalCount = counts.totalCount + delta ∧
      (counts.addSample s delta).positive =
        (if isPositive s then Fenwick.add counts.positive s.index delta else counts.positive) ∧
      (counts.addSample s delta).positiveCount =
        counts.positiveCount + (if isPositive s then delta else 0) ∧
      (counts.addSample s delta).negative =
        (if isNegative s then Fenwick.add counts.negative s.index delta else counts.negative) ∧
      (counts.addSample s delta).negativeCount =
        counts.negativeCount + (if isNegative s then delta else 0) := by
  unfold addSample isPositive isNegative
  simp only
  split
  · rename_i hpos
    simp [hpos, not_lt.mpr hpos.le]
  · rename_i hnot
    split
    · rename_i hneg
      simp [hnot, hneg]
    · rename_i hneg
      simp [hnot, hneg]

private theorem represents_add_if {tree : List ℤ} {f : ℕ → ℤ} (h : Fenwick.Represents tree f)
    (index : ℕ) (delta : ℤ) (p : Bool) :
    Fenwick.Represents (if p then Fenwick.add tree index delta else tree)
      (f + Pi.single (index + 1) (if p then delta else 0)) := by
  cases p with
  | true => exact h.add index delta
  | false => simpa using h

private theorem length_add_if (tree : List ℤ) (index : ℕ) (delta : ℤ) (p : Bool) :
    (if p then Fenwick.add tree index delta else tree).length = tree.length := by
  cases p
  · rfl
  · exact Fenwick.length_addLoop ..

theorem Holds.add (h : Holds size counts samples) (s : Sample) :
    Holds size (counts.addSample s 1) (samples ++ [s]) := by
  obtain ⟨hall, htotal, hpos, hposs, hneg, hnegs⟩ := addSample_cases counts s 1
  refine ⟨?_, ?_, ?_, ?_, ?_, ?_, ?_⟩
  · rw [hall, tally_append]
    exact h.all.add s.index 1
  · rw [hpos, tally_append]
    exact represents_add_if h.positive s.index 1 _
  · rw [hneg, tally_append]
    exact represents_add_if h.negative s.index 1 _
  · rw [hall, hpos, hneg, length_add_if, length_add_if]
    refine ⟨?_, h.lengths.2⟩
    rw [← h.lengths.1]
    exact Fenwick.length_addLoop ..
  · rw [htotal, h.total]
    simp
  · rw [hposs, h.positives, List.countP_append]
    by_cases hp : isPositive s = true <;> simp [hp]
  · rw [hnegs, h.negatives, List.countP_append]
    by_cases hn : isNegative s = true <;> simp [hn]

private theorem Holds.evict {s : Sample} (h : Holds size counts (s :: samples)) :
    Holds size (counts.addSample s (-1)) samples := by
  obtain ⟨hall, htotal, hpos, hposs, hneg, hnegs⟩ := addSample_cases counts s (-1)
  have hback : ∀ (p : Sample → Bool), tally p samples =
      tally p (s :: samples) + Pi.single (s.index + 1) (if p s then -1 else 0) := by
    intro p
    funext k
    rw [tally_cons, Pi.add_apply, Pi.add_apply]
    by_cases hk : k = s.index + 1
    · subst hk
      by_cases hp : p s = true <;> simp [hp]
    · simp [hk]
  refine ⟨?_, ?_, ?_, ?_, ?_, ?_, ?_⟩
  · rw [hall, hback]
    exact h.all.add s.index (-1)
  · rw [hpos, hback]
    exact represents_add_if h.positive s.index (-1) _
  · rw [hneg, hback]
    exact represents_add_if h.negative s.index (-1) _
  · rw [hall, hpos, hneg, length_add_if, length_add_if]
    refine ⟨?_, h.lengths.2⟩
    rw [← h.lengths.1]
    exact Fenwick.length_addLoop ..
  · rw [htotal, h.total]
    simp
  · rw [hposs, h.positives, List.countP_cons]
    by_cases hp : isPositive s = true <;> simp [hp]
  · rw [hnegs, h.negatives, List.countP_cons]
    by_cases hn : isNegative s = true <;> simp [hn]

private theorem Holds.withSamples (h : Holds size counts samples) (l : List Sample) :
    Holds size { counts with samples := l } samples :=
  ⟨h.all, h.positive, h.negative, h.lengths, h.total, h.positives, h.negatives⟩

/-! The deque -/

private theorem evictLoop_spec (threshold : CalendarDate) {l : List Sample}
    (h : Holds size counts l) :
    Holds size (evictLoop threshold l counts) (evictLoop threshold l counts).samples ∧
      (evictLoop threshold l counts).samples = l.dropWhile fun s => s.date < threshold := by
  induction l generalizing counts with
  | nil => exact ⟨h.withSamples [], rfl⟩
  | cons s l ih =>
    unfold evictLoop
    split
    · rename_i hold
      rw [List.dropWhile_cons_of_pos (by simpa using hold)]
      exact ih ((h.withSamples l).evict)
    · rename_i hkept
      rw [List.dropWhile_cons_of_neg (by simpa using hkept)]
      exact ⟨h.withSamples (s :: l), rfl⟩

private theorem dropWhile_eq_filter (threshold : CalendarDate) {l : List Sample}
    (hsorted : l.Pairwise fun a b => a.date ≤ b.date) :
    l.dropWhile (fun s => s.date < threshold) = l.filter fun s => threshold ≤ s.date := by
  induction l with
  | nil => rfl
  | cons s l ih =>
    obtain ⟨hfirst, hrest⟩ := List.pairwise_cons.mp hsorted
    by_cases hold : s.date < threshold
    · rw [List.dropWhile_cons_of_pos (by simpa using hold),
        List.filter_cons_of_neg (by simpa using hold)]
      exact ih hrest
    · have hall : ∀ x ∈ s :: l, threshold ≤ x.date := by
        intro x hx
        rcases List.mem_cons.mp hx with rfl | hmem
        · exact not_lt.mp hold
        · exact (not_lt.mp hold).trans (hfirst x hmem)
      rw [List.dropWhile_cons_of_neg (by simpa using hold)]
      exact (List.filter_eq_self.mpr fun x hx => decide_eq_true (hall x hx)).symm

/-- The counts hold their own samples, which are indexed by the sorted values. -/
structure Sound (values : List ℚ) (counts : RollingCounts) : Prop where
  holds : Holds (max values.length 1) counts counts.samples
  indexed : ∀ s ∈ counts.samples, s.value ∈ values ∧ s.index = values.idxOf s.value
  sorted : counts.samples.Pairwise fun a b => a.date ≤ b.date

variable {values : List ℚ}

theorem sound_new (values : List ℚ) : Sound values (new values) where
  holds := holds_new values
  indexed := fun _ hs => by cases hs
  sorted := List.Pairwise.nil

theorem Sound.evictBefore (h : Sound values counts) (threshold : CalendarDate) :
    Sound values (counts.evictBefore threshold) ∧
      (counts.evictBefore threshold).samples =
        counts.samples.filter fun s => threshold ≤ s.date := by
  obtain ⟨hholds, hsamples⟩ := evictLoop_spec threshold h.holds
  rw [dropWhile_eq_filter threshold h.sorted] at hsamples
  refine ⟨⟨hholds, fun s hs => ?_, ?_⟩, hsamples⟩
  · have hmem : s ∈ counts.samples.filter fun s => threshold ≤ s.date := hsamples ▸ hs
    exact h.indexed s (List.mem_filter.mp hmem).1
  · have hfiltered : (counts.evictBefore threshold).samples =
        counts.samples.filter fun s => threshold ≤ s.date := hsamples
    rw [hfiltered]
    exact h.sorted.filter _

theorem Sound.add (h : Sound values counts) {date : CalendarDate} {value : ℚ}
    (hvalue : value ∈ values) (hlater : ∀ s ∈ counts.samples, s.date ≤ date) :
    Sound values (counts.add date value (values.idxOf value)) ∧
      (counts.add date value (values.idxOf value)).samples =
        counts.samples ++ [⟨date, value, values.idxOf value⟩] := by
  have hsamples : (counts.add date value (values.idxOf value)).samples =
      counts.samples ++ [⟨date, value, values.idxOf value⟩] := by
    unfold RollingCounts.add
    rw [samples_addSample]
  refine ⟨⟨?_, fun s hs => ?_, ?_⟩, hsamples⟩
  · rw [hsamples]
    exact (h.holds.withSamples _).add _
  · rw [hsamples] at hs
    rcases List.mem_append.mp hs with hold | hnew
    · exact h.indexed s hold
    · rw [List.mem_singleton.mp hnew]
      exact ⟨hvalue, rfl⟩
  · rw [hsamples, List.pairwise_append]
    refine ⟨h.sorted, List.pairwise_singleton _ _, fun a ha b hb => ?_⟩
    rw [List.mem_singleton.mp hb]
    exact hlater a ha

/-- A prefix sum at the position of a value counts the samples up to that value. -/
private theorem prefixSum_eq {tree : List ℤ} {p : Sample → Bool}
    (htree : Fenwick.Represents tree (tally p counts.samples))
    (hlength : tree.length = max values.length 1 + 1) (h : Sound values counts)
    (hsorted : values.Pairwise (· < ·)) {value : ℚ} (hvalue : value ∈ values) :
    Fenwick.prefixSum tree (values.idxOf value : ℕ) =
        (counts.samples.countP fun s => p s && decide (s.value ≤ value) : ℕ) ∧
      Fenwick.prefixSum tree ((values.idxOf value : ℕ) - 1 : ℤ) =
        (counts.samples.countP fun s => p s && decide (s.value < value) : ℕ) := by
  have hindex := List.idxOf_lt_length_iff.mpr hvalue
  constructor
  · rw [htree.prefixSum (by omega), sum_tally]
    refine congrArg Nat.cast (List.countP_congr fun s hs => ?_)
    obtain ⟨hmem, hidx⟩ := h.indexed s hs
    rw [Bool.and_eq_true_iff, Bool.and_eq_true_iff, decide_eq_true_eq, decide_eq_true_eq, hidx,
      Nat.add_le_add_iff_right, idxOf_le_iff hsorted hmem hvalue]
  · have hlt : ∀ s ∈ counts.samples, (s.index + 1 ≤ values.idxOf value ↔ s.value < value) := by
      intro s hs
      obtain ⟨hmem, hidx⟩ := h.indexed s hs
      rw [hidx, Nat.add_one_le_iff, ← not_le, idxOf_le_iff hsorted hvalue hmem, not_le]
    rcases Nat.eq_zero_or_pos (values.idxOf value) with hzero | hpos
    · unfold Fenwick.prefixSum
      rw [hzero, if_pos (by norm_num), eq_comm, Nat.cast_eq_zero, List.countP_eq_zero]
      intro s hs
      have hnot : ¬s.value < value := by
        rw [← hlt s hs, hzero]
        omega
      simp [hnot]
    · rw [show ((values.idxOf value : ℕ) - 1 : ℤ) = ((values.idxOf value - 1 : ℕ) : ℤ) by omega,
        htree.prefixSum (by omega), sum_tally]
      refine congrArg Nat.cast (List.countP_congr fun s hs => ?_)
      rw [Bool.and_eq_true_iff, Bool.and_eq_true_iff, decide_eq_true_eq, decide_eq_true_eq,
        Nat.sub_add_cancel hpos, hlt s hs]

/-- The trees answer what the direct count over the samples answers. -/
theorem Sound.percentile (h : Sound values counts) (hsorted : values.Pairwise (· < ·)) {value : ℚ}
    (hvalue : value ∈ values) :
    counts.percentile value (values.idxOf value) =
      percentileFromValues (counts.samples.map Sample.value) value := by
  obtain ⟨hall, -⟩ := prefixSum_eq h.holds.all h.holds.lengths.1 h hsorted hvalue
  obtain ⟨hpos, -⟩ := prefixSum_eq h.holds.positive h.holds.lengths.2.1 h hsorted hvalue
  obtain ⟨-, hneg⟩ := prefixSum_eq h.holds.negative h.holds.lengths.2.2 h hsorted hvalue
  have hcount : ∀ p : ℚ → Bool, ((counts.samples.map Sample.value).filter p).length =
      counts.samples.countP fun s => p s.value := by
    intro p
    rw [← List.countP_eq_length_filter, List.countP_map]
    rfl
  have hcount₂ : ∀ p q : ℚ → Bool,
      (((counts.samples.map Sample.value).filter p).filter q).length =
        counts.samples.countP fun s => p s.value && q s.value := by
    intro p q
    rw [List.filter_filter, hcount]
    exact List.countP_congr fun s _ => by rw [Bool.and_comm]
  -- the negatives below the value and those from it on are all the negatives
  have hsplit : counts.samples.countP isNegative =
      (counts.samples.countP fun s => isNegative s && decide (s.value < value)) +
        counts.samples.countP fun s => isNegative s && decide (value ≤ s.value) := by
    rw [List.countP_eq_countP_filter_add counts.samples isNegative fun s => decide (s.value < value)]
    simp only [List.countP_filter]
    refine congrArg₂ _ rfl (List.countP_congr fun s _ => ?_)
    simp
  unfold RollingCounts.percentile percentileFromValues
  simp only [hcount, hcount₂, h.holds.total, h.holds.positives, h.holds.negatives, hall, hpos, hneg,
    List.length_map, Bool.true_and]
  have hge : ((counts.samples.countP isNegative : ℕ) : ℤ) -
      (counts.samples.countP fun s => isNegative s && decide (s.value < value) : ℕ) =
      (counts.samples.countP fun s => isNegative s && decide (value ≤ s.value) : ℕ) := by
    rw [hsplit]
    push_cast
    omega
  rw [hge]
  simp only [isPositive, isNegative, Nat.cast_pos]
  rfl

end RollingCounts

end QuantDataCenter.Percentile
