import Mathlib.Algebra.Order.Field.Basic
import Mathlib.Algebra.Field.Rat
import Mathlib.Tactic.Linarith
import QuantDataCenter.Lib.Checked
import QuantDataCenter.Percentile.Rolling

/-!
The three ways to compute a percentile agree: for dates in strict order, the rolling
counts and the expanding ranks give what the direct count over the samples of the
window gives, and the append-only computation gives the later rows of the full one.
-/

set_option autoImplicit false
set_option relaxedAutoImplicit false

namespace QuantDataCenter.Percentile

open QuantDataCenter.Lib

/-! The direct count -/

private theorem divide_bounds {a b : ℤ} (ha : 0 ≤ a) (hab : a ≤ b) (hb : 0 < b) :
    ∃ part, divide a b = .ok part ∧ 0 ≤ part * 100 ∧ part * 100 ≤ 100 := by
  refine ⟨(a : ℚ) / b, by rw [divide, if_neg (by omega)], ?_, ?_⟩
  · have hnum : (0 : ℚ) ≤ a := by exact_mod_cast ha
    have hden : (0 : ℚ) ≤ b := by exact_mod_cast hb.le
    exact mul_nonneg (div_nonneg hnum hden) (by norm_num)
  · have hden : (0 : ℚ) < b := by exact_mod_cast hb
    have hle : (a : ℚ) ≤ b := by exact_mod_cast hab
    have hone : (a : ℚ) / b ≤ 1 := (div_le_one hden).mpr hle
    linarith

private theorem percentileFromValues_bounds {values : List ℚ} {current : ℚ}
    (hmem : current ∈ values) :
    ∃ p, percentileFromValues values current = .ok (some p) ∧ 0 ≤ p ∧ p ≤ 100 := by
  have htotal : 0 < values.length := List.length_pos_of_mem hmem
  have hdone : ∀ {a b : ℤ}, 0 ≤ a → a ≤ b → 0 < b →
      ∃ p, (do let part ← divide a b; return some (part * 100) : Except ZeroDivision (Option ℚ)) =
        .ok (some p) ∧ 0 ≤ p ∧ p ≤ 100 := by
    intro a b ha hab hb
    obtain ⟨part, hpart, hlow, hhigh⟩ := divide_bounds ha hab hb
    exact ⟨part * 100, by rw [hpart]; rfl, hlow, hhigh⟩
  unfold percentileFromValues
  simp only
  rw [if_neg (by omega)]
  split
  case isTrue hneg =>
    -- positive and negative samples are apart
    have hsplit : (values.filter fun v => 0 < v).length + (values.filter fun v => v < 0).length ≤
        values.length := by
      rw [← List.countP_eq_length_filter, ← List.countP_eq_length_filter]
      rw [List.length_eq_countP_add_countP (fun v : ℚ => decide (0 < v))]
      refine Nat.add_le_add_left (List.countP_mono_left fun v _ hv => ?_) _
      have hlt : v < 0 := by simpa using hv
      simpa using hlt.le
    have hsub := List.length_filter_le (fun v => decide (current ≤ v)) (values.filter fun v => v < 0)
    exact hdone (by omega) (by omega) (by omega)
  case isFalse hnot =>
    split
    case isTrue hmixed =>
      have hpos : 0 < (values.filter fun v => 0 < v).length :=
        List.length_pos_of_mem (List.mem_filter.mpr ⟨hmem, by simpa using hmixed.2⟩)
      have hsub := List.length_filter_le (fun v => decide (v ≤ current)) (values.filter fun v => 0 < v)
      exact hdone (by omega) (by omega) (by omega)
    case isFalse =>
      have hsub := List.length_filter_le (fun v => decide (v ≤ current)) values
      exact hdone (by omega) (by omega) (by omega)

/-! Samples of a frame -/

section Samples

variable {work done rest : List SourceRow} {row : SourceRow} {field : ValuationField} {v : ℚ}

private theorem validValuation_eq_some {x : Option ℚ} (h : validValuation x = some v) :
    x = some v ∧ v ≠ 0 := by
  cases x with
  | none => cases h
  | some y =>
    by_cases hzero : y = 0
    · simp [validValuation, hzero] at h
    · rw [validValuation, if_neg hzero] at h
      rw [← Option.some.inj h]
      exact ⟨rfl, hzero⟩

theorem validSamples_append (rows later : List SourceRow) (field : ValuationField) :
    validSamples (rows ++ later) field = validSamples rows field ++ validSamples later field :=
  List.filterMap_append

private theorem validSamples_cons_none (h : validValuation (row.value field) = none) :
    validSamples (row :: rest) field = validSamples rest field := by
  unfold validSamples
  rw [List.filterMap_cons, h, Option.map_none]

private theorem validSamples_cons_some (h : validValuation (row.value field) = some v) :
    validSamples (row :: rest) field = (row.date, v) :: validSamples rest field := by
  unfold validSamples
  rw [List.filterMap_cons, h, Option.map_some]

theorem mem_validSamples {sample : CalendarDate × ℚ} (h : sample ∈ validSamples work field) :
    ∃ row ∈ work, row.date = sample.1 ∧ validValuation (row.value field) = some sample.2 := by
  obtain ⟨row, hrow, hsample⟩ := List.mem_filterMap.mp h
  obtain ⟨v, hv, rfl⟩ := Option.map_eq_some_iff.mp hsample
  exact ⟨row, hrow, rfl, hv⟩

private theorem mem_validSamples_of_row (hrow : row ∈ work)
    (h : validValuation (row.value field) = some v) :
    (row.date, v) ∈ validSamples work field :=
  List.mem_filterMap.mpr ⟨row, hrow, by rw [h, Option.map_some]⟩

private theorem windowSamples_eq
    (hsorted : (done ++ row :: rest).Pairwise fun a b => a.date < b.date)
    (h : validValuation (row.value field) = some v) (low : CalendarDate → Bool)
    (hlow : low row.date = true) :
    ((validSamples (done ++ row :: rest) field).filter fun sample =>
        low sample.1 && decide (sample.1 ≤ row.date)) =
      (validSamples done field).filter (fun sample => low sample.1) ++ [(row.date, v)] := by
  obtain ⟨-, hrest, hdone⟩ := List.pairwise_append.mp hsorted
  have hlater := (List.pairwise_cons.mp hrest).1
  rw [validSamples_append, validSamples_cons_some h, List.filter_append,
    List.filter_cons_of_pos (by simp [hlow])]
  congr 1
  · refine List.filter_congr fun sample hsample => ?_
    obtain ⟨earlier, hearlier, hdate, -⟩ := mem_validSamples hsample
    have hlt := hdone earlier hearlier row List.mem_cons_self
    rw [hdate] at hlt
    simp [hlt.le]
  · congr 1
    rw [List.filter_eq_nil_iff]
    intro sample hsample
    obtain ⟨later, hlater', hdate, -⟩ := mem_validSamples hsample
    have hlt := hlater later hlater'
    rw [hdate] at hlt
    simp [not_le.mpr hlt]

end Samples

/-! Fixed windows -/

section FixedWindow

variable {values : List ℚ} {field : ValuationField} {first : CalendarDate} {n : ℕ}

private theorem appendCell_none {work : List SourceRow} {row : SourceRow} {c : Column}
    (h : validValuation (row.value c.1) = none) : appendCell work c row = .ok none := by
  unfold appendCell
  rw [h]

/-- The loop of a fixed window after the rows `done`. -/
private theorem fieldLoop_eq (hvalues : values.Pairwise (· < ·)) (rest done : List SourceRow)
    (counts : RollingCounts) (hcounts : counts.Sound values)
    (hsorted : (done ++ rest).Pairwise fun a b => a.date < b.date)
    (hfirst : firstValidDate (done ++ rest) field = some first)
    (hmem : ∀ sample ∈ validSamples rest field, sample.2 ∈ values)
    (hsamples : ∀ row ∈ rest, (counts.samples.map fun s => (s.date, s.value)).filter
        (fun sample => subtractYears row.date n ≤ sample.1) =
      (validSamples done field).filter fun sample => subtractYears row.date n ≤ sample.1) :
    fieldLoop values first n counts (rest.map fun row => (row.date, row.value field)) =
      rest.mapM (appendCell (done ++ rest) (field, .years n)) := by
  induction rest generalizing done counts with
  | nil => rfl
  | cons row rest ih =>
    obtain ⟨hdoneSorted, hrestSorted, hcross⟩ := List.pairwise_append.mp hsorted
    have hlater := (List.pairwise_cons.mp hrestSorted).1
    have hshift : done ++ row :: rest = (done ++ [row]) ++ rest := by simp
    obtain ⟨hevicted, hkept⟩ := hcounts.evictBefore (subtractYears row.date n)
    have hpairs : ((counts.evictBefore (subtractYears row.date n)).samples.map
        fun s => (s.date, s.value)) =
        (validSamples done field).filter fun sample => subtractYears row.date n ≤ sample.1 := by
      rw [hkept, ← hsamples row List.mem_cons_self, List.filter_map]
      rfl
    -- a later threshold leaves the same samples before and after this eviction
    have hnext : ∀ later ∈ rest, ((validSamples done field).filter
        (fun sample => subtractYears row.date n ≤ sample.1)).filter
          (fun sample => subtractYears later.date n ≤ sample.1) =
        (validSamples done field).filter fun sample => subtractYears later.date n ≤ sample.1 := by
      intro later hmem'
      have hmono := subtractYears_mono (hlater later hmem').le n
      rw [List.filter_filter]
      refine List.filter_congr fun sample _ => ?_
      by_cases hle : subtractYears later.date n ≤ sample.1
      · simp [hle, hmono.trans hle]
      · simp [hle]
    rw [List.map_cons, fieldLoop, List.mapM_cons]
    cases hvalid : validValuation (row.value field) with
    | none =>
      have htail := ih (done ++ [row]) (counts.evictBefore (subtractYears row.date n)) hevicted
        (by rw [← hshift]; exact hsorted) (by rw [← hshift]; exact hfirst)
        (by rwa [validSamples_cons_none hvalid] at hmem)
        (fun later hmem' => by
          rw [hpairs, hnext later hmem', validSamples_append, validSamples_cons_none hvalid]
          simp [validSamples])
      rw [appendCell_none hvalid, htail, ← hshift]
      rfl
    | some v =>
      have hv : v ∈ values := hmem (row.date, v) (mem_validSamples_of_row List.mem_cons_self hvalid)
      obtain ⟨hadded, hsamples'⟩ := hevicted.add hv fun s hs => by
        have hpair : (s.date, s.value) ∈ (validSamples done field).filter
            fun sample => subtractYears row.date n ≤ sample.1 := by
          rw [← hpairs]
          exact List.mem_map.mpr ⟨s, hs, rfl⟩
        obtain ⟨earlier, hearlier, hdate, -⟩ := mem_validSamples (List.mem_filter.mp hpair).1
        have hlt := hcross earlier hearlier row List.mem_cons_self
        rw [hdate] at hlt
        exact hlt.le
      have hpairs' : (((counts.evictBefore (subtractYears row.date n)).add row.date v
          (values.idxOf v)).samples.map fun s => (s.date, s.value)) =
          (validSamples done field).filter (fun sample => subtractYears row.date n ≤ sample.1) ++
            [(row.date, v)] := by
        rw [hsamples', List.map_append, hpairs]
        rfl
      have htail := ih (done ++ [row]) _ hadded
        (by rw [← hshift]; exact hsorted) (by rw [← hshift]; exact hfirst)
        (fun sample hsample => hmem sample (by
          rw [validSamples_cons_some hvalid]
          exact List.mem_cons_of_mem _ hsample))
        (fun later hmem' => by
          have hmono := subtractYears_mono (hlater later hmem').le n
          rw [hpairs', List.filter_append, hnext later hmem', validSamples_append,
            List.filter_append, validSamples_cons_some hvalid]
          rfl)
      have hwindow : windowSamples (done ++ row :: rest) (field, .years n) row.date =
          ((counts.evictBefore (subtractYears row.date n)).add row.date v
            (values.idxOf v)).samples.map Sample.value := by
        unfold windowSamples
        simp only
        rw [windowSamples_eq hsorted hvalid (fun date => decide (subtractYears row.date n ≤ date))
          (decide_eq_true (subtractYears_le row.date n)), ← hpairs', List.map_map]
        rfl
      have hmature : Mature (done ++ row :: rest) (field, .years n) row.date ↔
          first ≤ subtractYears row.date n := by
        unfold Mature
        simp only [hfirst, Option.mem_def]
        constructor
        · rintro ⟨date, hdate, hle⟩
          rwa [Option.some.inj hdate]
        · exact fun hle => ⟨first, rfl, hle⟩
      have hcell : appendCell (done ++ row :: rest) (field, .years n) row =
          if first ≤ subtractYears row.date n then
            ((counts.evictBefore (subtractYears row.date n)).add row.date v
              (values.idxOf v)).percentile v (values.idxOf v)
          else .ok none := by
        unfold appendCell
        simp only [hvalid]
        rw [hadded.percentile hvalues hv, hwindow]
        exact if_congr hmature rfl rfl
      rw [hcell]
      simp only
      rw [htail, ← hshift]
      split <;> rfl

end FixedWindow

/-! All history -/

section AllHistory

variable {field : ValuationField}

private theorem countP_valid (q : ℚ → Bool) (window : List (Option ℚ)) :
    (window.filterMap validValuation).countP q =
      window.countP fun x => x.any fun y => decide (y ≠ 0) && q y := by
  induction window with
  | nil => rfl
  | cons x window ih =>
    cases x with
    | none =>
      rw [List.filterMap_cons_none rfl, List.countP_cons_of_neg (by simp)]
      exact ih
    | some y =>
      by_cases hzero : y = 0
      · rw [List.filterMap_cons_none (by rw [validValuation, if_pos hzero]),
          List.countP_cons_of_neg (by simp [hzero])]
        exact ih
      · rw [List.filterMap_cons_some (by rw [validValuation, if_neg hzero]), List.countP_cons,
          List.countP_cons, ih]
        simp [hzero]

private theorem rankMax_eq {window : List (Option ℚ)} {v : ℚ}
    (hlast : window.getLast? = some (some v)) :
    rankMax window = some ((window.countP fun x => x.any fun y => y ≤ v : ℕ) : ℤ) := by
  rw [rankMax, hlast]

/-- The expanding ranks give the direct count over the valid values so far. -/
private theorem allHistoryPercentile_eq (earlier : List (Option ℚ)) {v : ℚ} (hv : v ≠ 0) :
    allHistoryPercentile (earlier ++ [some v]) =
      percentileFromValues ((earlier ++ [some v]).filterMap validValuation) v := by
  have hmem : v ∈ (earlier ++ [some v]).filterMap validValuation :=
    List.mem_filterMap.mpr ⟨some v, by simp, by rw [validValuation, if_neg hv]⟩
  have htotal := List.length_pos_of_mem hmem
  have hlast : (earlier ++ [some v]).getLast? = some (some v) := List.getLast?_concat
  have hlastMap : ∀ f : Option ℚ → Option ℚ, ((earlier ++ [some v]).map f).getLast? = some (f (some v)) := by
    intro f
    rw [List.getLast?_map, hlast, Option.map_some]
  generalize hwindow : earlier ++ [some v] = window at hmem htotal hlast hlastMap ⊢
  have hlength : (window.filterMap validValuation).length =
      window.countP fun x => (validValuation x).isSome := by
    rw [List.length_filterMap_eq_countP]
  have hfilter : ∀ q : ℚ → Bool, ((window.filterMap validValuation).filter q).length =
      window.countP fun x => x.any fun y => decide (y ≠ 0) && q y := by
    intro q
    rw [← List.countP_eq_length_filter, countP_valid]
  have hpositives : (window.map positivePart).countP Option.isSome =
      ((window.filterMap validValuation).filter fun v => 0 < v).length := by
    rw [hfilter, List.countP_map]
    refine List.countP_congr fun x _ => ?_
    cases x with
    | none => simp [positivePart]
    | some y =>
      have hne : 0 < y → y ≠ 0 := fun h => h.ne'
      simpa [positivePart, Option.isSome_filter] using hne
  have hsome : ¬(((window.filterMap validValuation).length : ℤ) ≤ 0) := by omega
  unfold allHistoryPercentile percentileFromValues
  simp only [hlast]
  rw [if_neg hsome]
  rcases lt_or_gt_of_ne hv with hneg | hpos
  · -- negative: the positives so far and the negatives from the value on
    have hrank : rankMax ((window.map negativePart).map fun x => x.map fun y => -y) =
        some (((((window.filterMap validValuation).filter fun y => y < 0).filter
          fun y => v ≤ y).length : ℕ) : ℤ) := by
      have hself : (Option.map (fun y : ℚ => -y) ∘ negativePart) (some v) = some (-v) := by
        simp [negativePart, hneg]
      rw [List.map_map, rankMax_eq ((hlastMap _).trans (congrArg some hself)), List.filter_filter,
        hfilter, List.countP_map]
      refine congrArg some (congrArg Nat.cast (List.countP_congr fun x _ => ?_))
      cases x with
      | none => simp [negativePart]
      | some y =>
        by_cases hy : y < 0
        · simp [negativePart, Option.filter_some, hy, hy.ne]
        · simp [negativePart, Option.filter_some, hy]
    rw [if_neg (not_lt.mpr hneg.le), if_pos hneg, if_pos hneg, hrank, hpositives, hlength]
  · rw [if_pos hpos, if_neg (not_lt.mpr hpos.le)]
    have hrank : rankMax (window.map positivePart) =
        some (((((window.filterMap validValuation).filter fun y => 0 < y).filter
          fun y => y ≤ v).length : ℕ) : ℤ) := by
      have hself : positivePart (some v) = some v := by simp [positivePart, hpos]
      rw [rankMax_eq ((hlastMap _).trans (congrArg some hself)), List.filter_filter, hfilter,
        List.countP_map]
      refine congrArg some (congrArg Nat.cast (List.countP_congr fun x _ => ?_))
      cases x with
      | none => simp [positivePart]
      | some y =>
        by_cases hy : 0 < y
        · simp [positivePart, Option.filter_some, hy, hy.ne']
        · simp [positivePart, Option.filter_some, hy]
    rw [hrank, hpositives]
    by_cases hmixed : 0 < ((window.filterMap validValuation).filter fun y => y < 0).length ∧ 0 < v
    · rw [if_pos hmixed]
    · -- without negative values all valid values are positive
      have hnone : (window.filterMap validValuation).filter (fun y => y < 0) = [] := by
        rw [← List.length_eq_zero_iff]
        by_contra hne
        exact hmixed ⟨Nat.pos_of_ne_zero hne, hpos⟩
      have hall : (window.filterMap validValuation).filter (fun y => 0 < y) =
          window.filterMap validValuation := by
        rw [List.filter_eq_self]
        intro y hy
        obtain ⟨x, -, hx⟩ := List.mem_filterMap.mp hy
        have hne := (validValuation_eq_some hx).2
        have hnot := List.filter_eq_nil_iff.mp hnone y hy
        rw [decide_eq_true_eq] at hnot ⊢
        exact lt_of_le_of_ne (not_lt.mp hnot) hne.symm
      rw [if_neg hmixed, hall]

private theorem allHistoryLoop_eq (rest done : List SourceRow)
    (hsorted : (done ++ rest).Pairwise fun a b => a.date < b.date) :
    ((rest.map fun row => row.value field).inits.tail.map fun later =>
        (done.map fun row => row.value field) ++ later).mapM allHistoryPercentile =
      rest.mapM (appendCell (done ++ rest) (field, .allHistory)) := by
  induction rest generalizing done with
  | nil => rfl
  | cons row rest ih =>
    have hshift : done ++ row :: rest = (done ++ [row]) ++ rest := by simp
    have hcell : allHistoryPercentile ((done.map fun row => row.value field) ++ [row.value field]) =
        appendCell (done ++ row :: rest) (field, .allHistory) row := by
      cases hvalid : validValuation (row.value field) with
      | none =>
        rw [appendCell_none hvalid]
        cases hrow : row.value field with
        | none => simp [allHistoryPercentile]
        | some y =>
          have hzero : y = 0 := by
            by_contra hne
            rw [hrow, validValuation, if_neg hne] at hvalid
            cases hvalid
          simp [allHistoryPercentile, hzero]
      | some v =>
        obtain ⟨hrow, hne⟩ := validValuation_eq_some hvalid
        have hwindow : windowSamples (done ++ row :: rest) (field, .allHistory) row.date =
            ((done.map fun row => row.value field) ++ [some v]).filterMap validValuation := by
          unfold windowSamples
          simp only
          rw [windowSamples_eq hsorted hvalid (fun _ => true) rfl]
          simp [validSamples, List.filterMap_map, List.map_filterMap, validValuation, hne,
            Function.comp_def]
        unfold appendCell Mature
        simp only [hvalid]
        rw [hwindow, hrow]
        exact allHistoryPercentile_eq _ hne
    have hinits : ((row :: rest).map fun row => row.value field).inits.tail =
        [row.value field] :: ((rest.map fun row => row.value field).inits.tail.map
          fun later => row.value field :: later) := by
      cases rest <;> simp [List.inits]
    have htail := ih (done ++ [row]) (by rw [← hshift]; exact hsorted)
    rw [hinits, List.map_cons, List.mapM_cons, List.mapM_cons, hcell, hshift, ← htail]
    congr 1
    funext first
    congr 1
    rw [List.map_map]
    congr 2
    funext later
    simp

end AllHistory

/-! The frames -/

section Frames

variable {source : List SourceRow}

private theorem computeFieldPercentiles_eq (hsorted : source.Pairwise fun a b => a.date < b.date)
    (field : ValuationField) (n : ℕ) :
    computeFieldPercentiles source field n = source.mapM (appendCell source (field, .years n)) := by
  unfold computeFieldPercentiles
  cases hfirst : firstValidDate source field with
  | none =>
    have hnil : validSamples source field = [] := by
      unfold firstValidDate at hfirst
      rw [List.min?_eq_none_iff, List.map_eq_nil_iff] at hfirst
      exact hfirst
    have hcells : ∀ row ∈ source, appendCell source (field, .years n) row = .ok none := by
      intro row hrow
      refine appendCell_none ?_
      cases hvalid : validValuation (row.value field) with
      | none => rfl
      | some v =>
        have hmem := mem_validSamples_of_row hrow hvalid
        rw [hnil] at hmem
        cases hmem
    exact (Checked.mapM_eq_ok hcells).symm
  | some first =>
    have hperm := List.mergeSort_perm (((validSamples source field).map Prod.snd).dedup)
      fun a b => decide (a ≤ b)
    have hvalues : ((((validSamples source field).map Prod.snd).dedup).mergeSort
        fun a b => decide (a ≤ b)).Pairwise (· < ·) := by
      have hle := List.pairwise_mergeSort' (· ≤ ·) (((validSamples source field).map Prod.snd).dedup)
      have hne := hperm.symm.nodup (List.nodup_dedup _)
      exact (hle.and hne).imp fun hab => lt_of_le_of_ne hab.1 hab.2
    exact fieldLoop_eq hvalues source [] _ (RollingCounts.sound_new _) hsorted hfirst
      (fun sample hsample => hperm.mem_iff.mpr (List.mem_dedup.mpr (List.mem_map_of_mem hsample)))
      (fun _ _ => rfl)

private theorem computeColumn_eq (hsorted : source.Pairwise fun a b => a.date < b.date)
    (c : Column) :
    computeColumn source c = source.mapM (appendCell source c) := by
  obtain ⟨field, window⟩ := c
  cases window with
  | allHistory =>
    have hloop := @allHistoryLoop_eq field source [] hsorted
    simp only [List.map_nil, List.nil_append, List.map_id'] at hloop
    exact hloop
  | years n => exact computeFieldPercentiles_eq hsorted field n

/-- What a cell of the result has to be. -/
structure PercentileSpec (source : List SourceRow) (c : Column) (row : SourceRow)
    (result : Option ℚ) : Prop where
  value : ∀ v, validValuation (row.value c.1) = some v → Mature source c row.date →
    percentileFromValues (windowSamples source c row.date) v = .ok result
  null : result = none ↔ validValuation (row.value c.1) = none ∨ ¬Mature source c row.date
  bounds : ∀ p ∈ result, 0 ≤ p ∧ p ≤ 100

private theorem mem_windowSamples {c : Column} {row : SourceRow} {v : ℚ} (hrow : row ∈ source)
    (hvalid : validValuation (row.value c.1) = some v) : v ∈ windowSamples source c row.date := by
  refine List.mem_map.mpr ⟨(row.date, v), List.mem_filter.mpr
    ⟨mem_validSamples_of_row hrow hvalid, ?_⟩, rfl⟩
  obtain ⟨field, window⟩ := c
  cases window with
  | allHistory => simp
  | years n => simp [subtractYears_le]

private theorem appendCell_spec {c : Column} {row : SourceRow} (hrow : row ∈ source) :
    ∃ result, appendCell source c row = .ok result ∧ PercentileSpec source c row result := by
  unfold appendCell
  cases hvalid : validValuation (row.value c.1) with
  | none =>
    refine ⟨none, rfl, fun v hv => ?_, by simp [hvalid], by simp⟩
    rw [hvalid] at hv
    cases hv
  | some v =>
    by_cases hmature : Mature source c row.date
    · obtain ⟨p, hp, hbounds⟩ := percentileFromValues_bounds (mem_windowSamples hrow hvalid)
      refine ⟨some p, by simp only [if_pos hmature, hp], fun v' hv' _ => ?_, ?_, ?_⟩
      · rw [hvalid] at hv'
        rw [← Option.some.inj hv']
        exact hp
      · simp [hvalid, hmature]
      · intro p' hp'
        rw [← Option.some.inj hp']
        exact hbounds
    · exact ⟨none, by simp only [if_neg hmature], fun _ _ h => absurd h hmature, by simp [hmature],
        by simp⟩

def cellValue (source : List SourceRow) (c : Column) (row : SourceRow) : Option ℚ :=
  match appendCell source c row with
  | .ok result => result
  | .error _ => none

private theorem appendCell_eq {c : Column} {row : SourceRow} (hrow : row ∈ source) :
    appendCell source c row = .ok (cellValue source c row) := by
  obtain ⟨result, hresult, -⟩ := appendCell_spec (c := c) hrow
  unfold cellValue
  rw [hresult]

private theorem cellValue_spec {c : Column} {row : SourceRow} (hrow : row ∈ source) :
    PercentileSpec source c row (cellValue source c row) := by
  obtain ⟨result, hresult, hspec⟩ := appendCell_spec (c := c) hrow
  rw [appendCell_eq hrow] at hresult
  rw [Except.ok.inj hresult]
  exact hspec

def percentileRow (source : List SourceRow) (row : SourceRow) : PercentileRow where
  date := row.date
  code := row.code
  value := row.value
  percentile c := if c ∈ percentileColumns then cellValue source c row else none

private theorem assemble_eq (rows : List SourceRow) :
    assemble rows (percentileColumns.map fun c => (c, rows.map (cellValue source c))) =
      rows.map (percentileRow source) := by
  unfold assemble
  refine List.ext_getElem? fun k => ?_
  rw [List.getElem?_map, List.getElem?_map, List.getElem?_zipIdx]
  cases hrow : rows[k]? with
  | none => rfl
  | some row =>
    simp only [Option.map_some, Nat.zero_add]
    refine congrArg some ?_
    unfold percentileRow
    congr 1
    funext c
    rw [Dict.get_map_key]
    split
    · simp [List.getElem?_map, hrow]
    · rfl

theorem computeValuationPercentiles_eq (hsorted : source.Pairwise fun a b => a.date < b.date) :
    computeValuationPercentiles source = .ok (source.map (percentileRow source)) := by
  have hsame : Keyed.stableSort SourceRow.date source = source :=
    Keyed.stableSort_eq_self (hsorted.imp fun hab => hab.le)
  have hcolumns : ∀ c, computeColumn source c = .ok (source.map (cellValue source c)) := by
    intro c
    rw [computeColumn_eq hsorted]
    exact Checked.mapM_eq_ok fun row hrow => appendCell_eq hrow
  have hall : percentileColumns.mapM (fun c => do return (c, ← computeColumn source c)) =
      (.ok (percentileColumns.map fun c => (c, source.map (cellValue source c))) :
        Except ZeroDivision _) :=
    Checked.mapM_eq_ok fun c _ => by
      rw [hcolumns]
      rfl
  unfold computeValuationPercentiles
  simp only
  rw [hsame, hall]
  exact congrArg Except.ok (assemble_eq source)

theorem computeAppendOnly_eq (hsorted : source.Pairwise fun a b => a.date < b.date)
    {existing : List (Option CalendarDate)} {latest : CalendarDate}
    (hlatest : latestDate existing = some latest) :
    computeAppendOnlyValuationPercentiles source existing =
      .ok ((source.filter fun row => latest < row.date).map (percentileRow source)) := by
  have hsame : Keyed.stableSort SourceRow.date source = source :=
    Keyed.stableSort_eq_self (hsorted.imp fun hab => hab.le)
  have hcolumns : ∀ c, (source.filter fun row => latest < row.date).mapM (appendCell source c) =
      .ok ((source.filter fun row => latest < row.date).map (cellValue source c)) :=
    fun c => Checked.mapM_eq_ok fun row hrow => appendCell_eq (List.mem_filter.mp hrow).1
  have hall : percentileColumns.mapM (fun c => do
        return (c, ← (source.filter fun row => latest < row.date).mapM (appendCell source c))) =
      (.ok (percentileColumns.map fun c =>
        (c, (source.filter fun row => latest < row.date).map (cellValue source c))) :
        Except ZeroDivision _) :=
    Checked.mapM_eq_ok fun c _ => by
      rw [hcolumns]
      rfl
  unfold computeAppendOnlyValuationPercentiles
  rw [hlatest]
  simp only
  rw [hsame, hall]
  exact congrArg Except.ok (assemble_eq _)

end Frames

/-- Rolling counts, expanding ranks and direct counts agree on every frame of one code with
dates in strict order. -/
theorem percentiles_agree (source : List SourceRow)
    (hsorted : source.Pairwise fun a b => a.date < b.date) :
    (∀ c, ∃ column, computeColumn source c = .ok column ∧ column.length = source.length ∧
      ∀ (k : ℕ) row result, source[k]? = some row → column[k]? = some result →
        PercentileSpec source c row result) ∧
    ∃ out, computeValuationPercentiles source = .ok out ∧ out.length = source.length ∧
      (∀ (k : ℕ) row (result : PercentileRow), source[k]? = some row → out[k]? = some result →
        result.date = row.date ∧ result.code = row.code ∧ result.value = row.value ∧
          ∀ c ∈ percentileColumns, PercentileSpec source c row (result.percentile c)) ∧
      ∀ existing latest, latestDate existing = some latest →
        computeAppendOnlyValuationPercentiles source existing =
          .ok (out.filter fun row => latest < row.date) := by
  constructor
  · intro c
    refine ⟨source.map (cellValue source c), ?_, List.length_map _, fun k row result hrow hresult => ?_⟩
    · rw [computeColumn_eq hsorted]
      exact Checked.mapM_eq_ok fun row hrow => appendCell_eq hrow
    · rw [List.getElem?_map, hrow, Option.map_some] at hresult
      rw [← Option.some.inj hresult]
      exact cellValue_spec (List.mem_of_getElem? hrow)
  · refine ⟨_, computeValuationPercentiles_eq hsorted, List.length_map _,
      fun k row result hrow hresult => ?_, fun existing latest hlatest => ?_⟩
    · rw [List.getElem?_map, hrow, Option.map_some] at hresult
      rw [← Option.some.inj hresult]
      refine ⟨rfl, rfl, rfl, fun c hc => ?_⟩
      unfold percentileRow
      simp only [if_pos hc]
      exact cellValue_spec (List.mem_of_getElem? hrow)
    · rw [computeAppendOnly_eq hsorted hlatest, List.filter_map]
      rfl

def bar (year : ℤ) (month day : ℕ) (h : (1 ≤ month ∧ month ≤ 12) ∧ 1 ≤ day ∧ day ≤ daysInMonth year month)
    (value : Option ℚ) : SourceRow := ⟨⟨year, month, day, h⟩, "sh.600000", fun _ => value⟩

/-- A leap day, a negative value and a missing one. -/
theorem percentiles_agree_sample :
    ∃ out, computeValuationPercentiles [bar 2020 2 29 (by decide) (some (-5)),
      bar 2021 2 28 (by decide) none, bar 2021 3 1 (by decide) (some 10)] = .ok out ∧
        out.length = 3 := by
  obtain ⟨-, out, hout, hlength, -⟩ := percentiles_agree [bar 2020 2 29 (by decide) (some (-5)),
    bar 2021 2 28 (by decide) none, bar 2021 3 1 (by decide) (some 10)] (by decide)
  exact ⟨out, hout, hlength⟩

end QuantDataCenter.Percentile
