import Mathlib.Data.List.Sort
import Mathlib.Data.List.Nodup
import Mathlib.Data.Prod.Lex

/-!
Keyed lists: the last element of a key, the list that keeps only these, and
what sorting does to them. The winner of a key after a sort by rank has the
greatest rank of its key; among equal ranks a stable sort leaves the order of
the input, an unstable one may leave any.
-/

set_option autoImplicit false
set_option relaxedAutoImplicit false

namespace QuantDataCenter.Lib.Keyed

open List

variable {α κ ρ : Type*}

section LastSat

@[grind =] def lastSat (p : α → Bool) (l : List α) : Option α := (l.filter p).getLast?

theorem lastSat_append (p : α → Bool) (l m : List α) :
    lastSat p (l ++ m) = (lastSat p m).or (lastSat p l) := by
  simp [lastSat, List.filter_append, List.getLast?_append]

theorem mem_of_lastSat {p : α → Bool} {l : List α} {a : α} (h : lastSat p l = some a) :
    a ∈ l ∧ p a = true := by
  have hmem : a ∈ l.filter p := List.mem_of_getLast? h
  exact List.mem_filter.mp hmem

theorem lastSat_isSome {p : α → Bool} {l : List α} {a : α} (ha : a ∈ l) (hp : p a = true) :
    ∃ w, lastSat p l = some w := by
  have hne : l.filter p ≠ [] := List.ne_nil_of_mem (List.mem_filter.mpr ⟨ha, hp⟩)
  exact ⟨_, List.getLast?_eq_getLast_of_ne_nil hne⟩

theorem lastSat_of_imp {p q : α → Bool} {l : List α} {a : α} (h : lastSat q l = some a)
    (hp : p a = true) (imp : ∀ x, p x = true → q x = true) : lastSat p l = some a := by
  have hfilter : l.filter p = (l.filter q).filter p := by
    rw [List.filter_filter]
    congr 1
    funext x
    cases hx : p x with
    | false => simp
    | true => simp [imp x hx]
  obtain ⟨init, hinit⟩ := List.getLast?_eq_some_iff.mp h
  simp [lastSat, hfilter, hinit, List.filter_append, hp]

end LastSat

section KeepLast

variable [DecidableEq κ]

@[grind =] def lastOf (key : α → κ) (k : κ) (l : List α) : Option α :=
  lastSat (fun a => key a = k) l

/-- One element for each key, the last one, in the order of these. -/
@[grind =] def keepLast (key : α → κ) : List α → List α
  | [] => []
  | a :: l => if key a ∈ l.map key then keepLast key l else a :: keepLast key l

variable {key : α → κ}

theorem mem_of_lastOf {k : κ} {l : List α} {a : α} (h : lastOf key k l = some a) :
    a ∈ l ∧ key a = k := by
  have hmem := mem_of_lastSat h
  exact ⟨hmem.1, of_decide_eq_true hmem.2⟩

theorem lastOf_isSome {l : List α} {k : κ} (hk : k ∈ l.map key) : ∃ w, lastOf key k l = some w := by
  obtain ⟨a, ha, rfl⟩ := List.mem_map.mp hk
  exact lastSat_isSome ha (decide_eq_true rfl)

theorem lastOf_cons (a : α) (l : List α) (k : κ) :
    lastOf key k (a :: l) = (lastOf key k l).or (if key a = k then some a else none) := by
  have happ := lastSat_append (fun x => decide (key x = k)) [a] l
  by_cases h : key a = k
  · simpa [lastOf, lastSat, h] using happ
  · simp [lastOf, lastSat, h]

theorem lastOf_eq_none {k : κ} {l : List α} : lastOf key k l = none ↔ k ∉ l.map key := by
  constructor
  · intro h hk
    obtain ⟨a, ha⟩ := lastOf_isSome hk
    rw [h] at ha
    cases ha
  · intro hk
    cases h : lastOf key k l with
    | none => rfl
    | some a =>
      obtain ⟨ha, hkey⟩ := mem_of_lastOf h
      exact absurd (hkey ▸ List.mem_map_of_mem ha) hk

theorem lastOf_append (k : κ) (l m : List α) :
    lastOf key k (l ++ m) = (lastOf key k m).or (lastOf key k l) := lastSat_append _ l m

theorem keepLast_sublist (l : List α) : keepLast key l <+ l := by
  induction l with
  | nil => exact List.Sublist.refl _
  | cons a l ih =>
    simp only [keepLast]
    split
    · exact ih.cons a
    · exact ih.cons_cons a

theorem mem_map_keepLast {l : List α} {k : κ} : k ∈ (keepLast key l).map key ↔ k ∈ l.map key := by
  induction l with
  | nil => simp [keepLast]
  | cons a l ih =>
    simp only [keepLast]
    split
    case isTrue hmem =>
      rw [ih, List.map_cons, List.mem_cons]
      constructor
      · exact Or.inr
      · rintro (rfl | h)
        · exact hmem
        · exact h
    case isFalse => simp only [List.map_cons, List.mem_cons, ih]

theorem nodup_map_keepLast (l : List α) : ((keepLast key l).map key).Nodup := by
  induction l with
  | nil => simp [keepLast]
  | cons a l ih =>
    simp only [keepLast]
    split
    case isTrue => exact ih
    case isFalse hmem =>
      rw [List.map_cons, List.nodup_cons]
      exact ⟨fun h => hmem (mem_map_keepLast.mp h), ih⟩

theorem keepLast_eq_self {l : List α} (h : (l.map key).Nodup) : keepLast key l = l := by
  induction l with
  | nil => rfl
  | cons a l ih =>
    obtain ⟨hmem, hl⟩ := List.nodup_cons.mp (by simpa using h : (key a :: l.map key).Nodup)
    simp only [keepLast, if_neg hmem, ih hl]

theorem mem_keepLast_iff {l : List α} {a : α} :
    a ∈ keepLast key l ↔ lastOf key (key a) l = some a := by
  induction l with
  | nil => simp [keepLast, lastOf, lastSat]
  | cons b l ih =>
    simp only [keepLast, lastOf_cons]
    by_cases hb : key b ∈ l.map key
    · rw [if_pos hb, ih]
      by_cases hk : key b = key a
      · obtain ⟨w, hw⟩ := lastOf_isSome hb
        rw [hk] at hw
        simp [hw]
      · simp [hk]
    · rw [if_neg hb, List.mem_cons, ih]
      by_cases hk : key b = key a
      · have hnone : lastOf key (key a) l = none := by
          cases hw : lastOf key (key a) l with
          | none => rfl
          | some w =>
            have hmem := mem_of_lastOf hw
            exact absurd (List.mem_map.mpr ⟨w, hmem.1, hmem.2.trans hk.symm⟩) hb
        simp [hnone, hk, eq_comm]
      · have hne : a ≠ b := fun h => hk (by rw [h])
        simp [hk, hne]

theorem lastOf_eq_some_of_nodup {l : List α} (h : (l.map key).Nodup) {a : α} (ha : a ∈ l) :
    lastOf key (key a) l = some a := by
  rw [← keepLast_eq_self h] at ha
  exact mem_keepLast_iff.mp ha

theorem filter_key_eq_singleton {l : List α} (h : (l.map key).Nodup) {a : α} (ha : a ∈ l) :
    l.filter (fun b => key b = key a) = [a] := by
  induction l with
  | nil => cases ha
  | cons b l ih =>
    obtain ⟨hnot, hl⟩ := List.nodup_cons.mp h
    rcases List.mem_cons.mp ha with rfl | hmem
    · rw [List.filter_cons_of_pos (by simp), List.filter_eq_nil_iff.mpr]
      intro c hc
      rw [decide_eq_true_eq]
      exact fun hkey => hnot (hkey ▸ List.mem_map_of_mem hc)
    · rw [List.filter_cons_of_neg, ih hl hmem]
      rw [decide_eq_true_eq]
      exact fun hkey => hnot (hkey ▸ List.mem_map_of_mem hmem)

theorem filter_key_eq_lastOf {l : List α} (h : (l.map key).Nodup) (k : κ) :
    l.filter (fun a => key a = k) = (lastOf key k l).toList := by
  cases hlast : lastOf key k l with
  | none =>
    rw [Option.toList_none, List.filter_eq_nil_iff]
    intro a ha
    rw [decide_eq_true_eq]
    exact fun hkey => lastOf_eq_none.mp hlast (hkey ▸ List.mem_map_of_mem ha)
  | some a =>
    obtain ⟨ha, rfl⟩ := mem_of_lastOf hlast
    exact filter_key_eq_singleton h ha

end KeepLast

section Entries

variable [DecidableEq κ] {key : α → κ} {new : α} {f : α → α} {l : List α}

/-- A dictionary in insertion order: the entry of the key is changed, a missing
one is appended first. -/
@[grind =] def updateEntry (key : α → κ) (new : α) (f : α → α) : List α → List α
  | [] => [f new]
  | a :: l => if key a = key new then f a :: l else a :: updateEntry key new f l

theorem forall_updateEntry {good : α → Prop} (hnew : good (f new))
    (hf : ∀ a, key a = key new → good a → good (f a)) (h : ∀ a ∈ l, good a) :
    ∀ a ∈ updateEntry key new f l, good a := by
  induction l with
  | nil =>
    intro a ha
    rw [List.mem_singleton.mp ha]
    exact hnew
  | cons b l ih =>
    have hl : ∀ a ∈ l, good a := fun a ha => h a (List.mem_cons_of_mem b ha)
    intro a ha
    unfold updateEntry at ha
    split at ha
    case isTrue hkey =>
      rcases List.mem_cons.mp ha with rfl | ha
      · exact hf b hkey (h b List.mem_cons_self)
      · exact hl a ha
    case isFalse =>
      rcases List.mem_cons.mp ha with rfl | ha
      · exact h a List.mem_cons_self
      · exact ih hl a ha

private theorem map_key_updateEntry (hf : ∀ a, key (f a) = key a) :
    (updateEntry key new f l).map key =
      if key new ∈ l.map key then l.map key else l.map key ++ [key new] := by
  induction l with
  | nil => simp [updateEntry, hf]
  | cons a l ih =>
    unfold updateEntry
    by_cases ha : key a = key new
    · simp [ha, hf]
    · have hne : key new ≠ key a := fun h => ha h.symm
      rw [if_neg ha, List.map_cons, ih, List.map_cons]
      by_cases hmem : key new ∈ l.map key
      · rw [if_pos hmem, if_pos (List.mem_cons_of_mem _ hmem)]
      · rw [if_neg hmem, if_neg (by simp only [List.mem_cons, not_or]; exact ⟨hne, hmem⟩)]
        rfl

theorem mem_key_updateEntry (hf : ∀ a, key (f a) = key a) {k : κ} :
    k ∈ (updateEntry key new f l).map key ↔ k ∈ l.map key ∨ k = key new := by
  rw [map_key_updateEntry hf]
  split
  case isTrue hmem =>
    constructor
    · exact Or.inl
    · rintro (h | rfl)
      · exact h
      · exact hmem
  case isFalse => rw [List.mem_append, List.mem_singleton]

theorem nodup_updateEntry (hf : ∀ a, key (f a) = key a) (h : (l.map key).Nodup) :
    ((updateEntry key new f l).map key).Nodup := by
  rw [map_key_updateEntry hf]
  split
  case isTrue => exact h
  case isFalse hnot =>
    rw [List.nodup_append]
    refine ⟨h, List.nodup_singleton _, fun a ha b hb heq => hnot ?_⟩
    rw [List.mem_singleton.mp hb] at heq
    exact heq ▸ ha

end Entries

section Groups

variable [DecidableEq κ]

/-- The elements of each key, keys in the order of their first element. -/
@[grind =] def groups (key : α → κ) (l : List α) : List (κ × List α) :=
  (l.map key).eraseDups.map fun k => (k, l.filter fun a => key a = k)

theorem nodup_eraseDups (l : List κ) : l.eraseDups.Nodup := by
  induction hn : l.length using Nat.strong_induction_on generalizing l with
  | h n ih =>
    cases l with
    | nil => simp
    | cons k l =>
      rw [List.eraseDups_cons, List.nodup_cons]
      have hlen : (l.filter fun b => !b == k).length ≤ l.length := List.length_filter_le _ l
      rw [List.length_cons] at hn
      refine ⟨?_, ih _ (by omega) _ rfl⟩
      rw [List.mem_eraseDups, List.mem_filter]
      simp

variable {key : α → κ} {l : List α}

theorem mem_groups {k : κ} {m : List α} :
    (k, m) ∈ groups key l ↔ k ∈ l.map key ∧ m = l.filter fun a => key a = k := by
  unfold groups
  rw [List.mem_map]
  constructor
  · rintro ⟨k', hk', heq⟩
    obtain ⟨rfl, rfl⟩ := Prod.mk.inj heq
    exact ⟨List.mem_eraseDups.mp hk', rfl⟩
  · rintro ⟨hk, rfl⟩
    exact ⟨k, List.mem_eraseDups.mpr hk, rfl⟩

theorem nodup_groups (key : α → κ) (l : List α) : ((groups key l).map Prod.fst).Nodup := by
  unfold groups
  rw [List.map_map]
  simpa [Function.comp_def] using nodup_eraseDups (l.map key)

theorem group_ne_nil {k : κ} {m : List α} (h : (k, m) ∈ groups key l) : m ≠ [] := by
  obtain ⟨hk, rfl⟩ := mem_groups.mp h
  obtain ⟨a, ha, rfl⟩ := List.mem_map.mp hk
  exact List.ne_nil_of_mem (List.mem_filter.mpr ⟨ha, by simp⟩)

end Groups

section Upsert

variable [DecidableEq κ]

/-- The keyed write law: the keys of both sides, each once; an incoming key with
its last incoming element, every other key with a stored element. -/
structure KeyedUpsert (key : α → κ) (stored incoming result : List α) : Prop where
  keys : ∀ k, k ∈ result.map key ↔ k ∈ stored.map key ∨ k ∈ incoming.map key
  nodup : (result.map key).Nodup
  fresh : ∀ a ∈ result, ∀ w, lastOf key (key a) incoming = some w → a = w
  kept : ∀ a ∈ result, key a ∉ incoming.map key → a ∈ stored

variable {key : α → κ} {stored incoming : List α}

theorem KeyedUpsert.perm {result result' : List α} (h : KeyedUpsert key stored incoming result)
    (hp : result ~ result') : KeyedUpsert key stored incoming result' where
  keys k := by rw [← (hp.map key).mem_iff]; exact h.keys k
  nodup := (hp.map key).nodup_iff.mp h.nodup
  fresh a ha := h.fresh a (hp.mem_iff.mpr ha)
  kept a ha := h.kept a (hp.mem_iff.mpr ha)

theorem keyedUpsert_perm_iff {result result' : List α} (hp : result ~ result') :
    KeyedUpsert key stored incoming result ↔ KeyedUpsert key stored incoming result' :=
  ⟨fun h => h.perm hp, fun h => h.perm hp.symm⟩

/-- In a list that is kept by key, the law is a matter of who wins the incoming keys. -/
theorem keyedUpsert_keepLast_iff {l : List α} (hl : l ~ stored ++ incoming) :
    KeyedUpsert key stored incoming (keepLast key l) ↔
      ∀ k w, lastOf key k incoming = some w → lastOf key k l = some w := by
  have hkeys : ∀ k, k ∈ (keepLast key l).map key ↔
      k ∈ stored.map key ∨ k ∈ incoming.map key := by
    intro k
    rw [mem_map_keepLast, (hl.map key).mem_iff, List.map_append, List.mem_append]
  constructor
  · intro law k w hw
    have hmem := mem_of_lastOf hw
    have hk : k ∈ (keepLast key l).map key :=
      (hkeys k).mpr (Or.inr (List.mem_map.mpr ⟨w, hmem.1, hmem.2⟩))
    obtain ⟨a, ha, rfl⟩ := List.mem_map.mp hk
    have hwin := mem_keepLast_iff.mp ha
    rw [hwin, law.fresh a ha w hw]
  · intro wins
    refine ⟨hkeys, nodup_map_keepLast l, ?_, ?_⟩
    · intro a ha w hw
      have hwin := mem_keepLast_iff.mp ha
      rw [wins _ w hw] at hwin
      exact (Option.some.inj hwin).symm
    · intro a ha hnot
      have hal : a ∈ stored ++ incoming := hl.mem_iff.mp ((keepLast_sublist l).subset ha)
      rcases List.mem_append.mp hal with h | h
      · exact h
      · exact absurd (List.mem_map.mpr ⟨a, h, rfl⟩) hnot

/-- Without a stored side and without deduplication the law needs distinct keys. -/
theorem keyedUpsert_nil_self_iff {result : List α} (hr : result ~ incoming) :
    KeyedUpsert key [] incoming result ↔ (incoming.map key).Nodup := by
  constructor
  · intro law
    exact (hr.map key).nodup_iff.mp law.nodup
  · intro hnodup
    have hwins : ∀ k w, lastOf key k incoming = some w → lastOf key k incoming = some w :=
      fun _ _ h => h
    have hkept := (keyedUpsert_keepLast_iff (List.Perm.refl ([] ++ incoming))).mpr hwins
    rw [List.nil_append, keepLast_eq_self hnodup] at hkept
    exact hkept.perm hr.symm

end Upsert

section Sorting

/-- Elements of one rank stand in the same order in both lists. -/
def TiesKept (rank : α → ρ) (l m : List α) : Prop :=
  ∀ (p : α → Bool) (r : ρ), (∀ a, p a = true → rank a = r) → l.filter p = m.filter p

theorem TiesKept.trans {rank : α → ρ} {l m n : List α} (h : TiesKept rank l m)
    (h' : TiesKept rank m n) : TiesKept rank l n :=
  fun p r hp => (h p r hp).trans (h' p r hp)

theorem TiesKept.filter {rank : α → ρ} {l m : List α} (h : TiesKept rank l m) (q : α → Bool) :
    TiesKept rank (l.filter q) (m.filter q) := by
  intro p r hp
  rw [List.filter_filter, List.filter_filter]
  apply h (fun a => p a && q a) r
  intro a ha
  exact hp a (Bool.and_eq_true_iff.mp ha).1

variable [LinearOrder ρ]

def stableSort (rank : α → ρ) (l : List α) : List α :=
  l.insertionSort fun a b => rank a ≤ rank b

/-- A sort by rank that may order equal ranks in any way. -/
structure Sorter (rank : α → ρ) where
  sort : List α → List α
  perm : ∀ l, sort l ~ l
  sorted : ∀ l, (sort l).Pairwise fun a b => rank a ≤ rank b

theorem stableSort_perm (rank : α → ρ) (l : List α) : stableSort rank l ~ l :=
  List.perm_insertionSort _ l

theorem stableSort_sorted (rank : α → ρ) (l : List α) :
    (stableSort rank l).Pairwise fun a b => rank a ≤ rank b := by
  have htotal : Std.Total (fun a b => rank a ≤ rank b) := ⟨fun a b => le_total (rank a) (rank b)⟩
  have htrans : IsTrans α (fun a b => rank a ≤ rank b) := ⟨fun _ _ _ => le_trans⟩
  exact List.pairwise_insertionSort _ l

def Sorter.stable (rank : α → ρ) : Sorter rank where
  sort := stableSort rank
  perm := stableSort_perm rank
  sorted := stableSort_sorted rank

theorem Sorter.sort_eq {rank : α → ρ} (s : Sorter rank) {l l' : List α}
    (h : l.Pairwise fun a b => rank a < rank b) (hperm : l' ~ l) : s.sort l' = l := by
  have hle : l.Pairwise fun a b => rank a ≤ rank b := h.imp fun hab => hab.le
  have hall : s.sort l' ~ l := (s.perm l').trans hperm
  refine List.Perm.eq_of_pairwise ?_ (s.sorted l') hle hall
  intro a b ha hb hab hba
  have hrank : rank a = rank b := le_antisymm hab hba
  have hnodup : (l.map rank).Nodup := List.pairwise_map.mpr (h.imp fun hab => hab.ne)
  exact List.inj_on_of_nodup_map hnodup (hall.mem_iff.mp ha) hb hrank

/-- Without ties a filtered list is sorted as the whole list is, by any rank that orders it
the same way. -/
theorem Sorter.sort_filter {rank rank' : α → ρ} (s : Sorter rank) (t : Sorter rank') {l : List α}
    (hranks : ∀ a ∈ l, rank a = rank' a) (hdistinct : (l.map rank).Nodup) (p : α → Bool) :
    s.sort (l.filter p) = (t.sort l).filter p := by
  have hmem : ∀ a ∈ t.sort l, a ∈ l := fun a ha => (t.perm l).mem_iff.mp ha
  have hne : (t.sort l).Pairwise fun a b => rank a ≠ rank b :=
    List.pairwise_map.mp (((t.perm l).map rank).nodup_iff.mpr hdistinct)
  have hlt : (t.sort l).Pairwise fun a b => rank a < rank b := by
    refine ((t.sorted l).and hne).imp_of_mem ?_
    intro a b ha hb hab
    rw [← hranks a (hmem a ha), ← hranks b (hmem b hb)] at hab
    exact lt_of_le_of_ne hab.1 hab.2
  apply s.sort_eq (hlt.sublist List.filter_sublist)
  exact ((t.perm l).filter p).symm

theorem stableSort_eq_self {rank : α → ρ} {l : List α}
    (h : l.Pairwise fun a b => rank a ≤ rank b) : stableSort rank l = l :=
  h.insertionSort_eq

/-- Where ranks tell the elements apart, the order before the sort does not matter. -/
theorem stableSort_eq_of_perm {rank : α → ρ} {l l' : List α} (hperm : l ~ l')
    (hranks : ∀ a ∈ l, ∀ b ∈ l, rank a = rank b → a = b) : stableSort rank l = stableSort rank l' := by
  have hsorted : stableSort rank l ~ stableSort rank l' :=
    (stableSort_perm rank l).trans (hperm.trans (stableSort_perm rank l').symm)
  refine List.Perm.eq_of_pairwise ?_ (stableSort_sorted rank l) (stableSort_sorted rank l') hsorted
  intro a b ha hb hab hba
  have hmem : a ∈ l := (stableSort_perm rank l).mem_iff.mp ha
  have hmem' : b ∈ l := hperm.mem_iff.mpr ((stableSort_perm rank l').mem_iff.mp hb)
  exact hranks a hmem b hmem' (le_antisymm hab hba)

theorem filter_stableSort {rank : α → ρ} {p : α → Bool} {r : ρ}
    (hp : ∀ a, p a = true → rank a = r) (l : List α) :
    (stableSort rank l).filter p = l.filter p := by
  have htotal : Std.Total (fun a b => rank a ≤ rank b) := ⟨fun a b => le_total (rank a) (rank b)⟩
  have htrans : IsTrans α (fun a b => rank a ≤ rank b) := ⟨fun _ _ _ => le_trans⟩
  have hpair : (l.filter p).Pairwise fun a b => rank a ≤ rank b := by
    rw [List.pairwise_iff_forall_sublist]
    intro a b hab
    have ha := (List.mem_filter.mp (hab.subset (List.mem_cons_self))).2
    have hb := (List.mem_filter.mp (hab.subset (List.mem_cons_of_mem _ List.mem_cons_self))).2
    rw [hp a ha, hp b hb]
  have hsub : l.filter p <+ stableSort rank l :=
    List.sublist_insertionSort hpair List.filter_sublist
  have hsub' : (l.filter p).filter p <+ (stableSort rank l).filter p := hsub.filter p
  have hlen : ((stableSort rank l).filter p).length ≤ (l.filter p).length :=
    ((stableSort_perm rank l).filter p).length_eq.le
  rw [List.filter_filter] at hsub'
  simp only [Bool.and_self] at hsub'
  exact (hsub'.eq_of_length_le hlen).symm

theorem tiesKept_stableSort (rank : α → ρ) (l : List α) : TiesKept rank (stableSort rank l) l :=
  fun _ _ hp => filter_stableSort hp l

variable [DecidableEq κ] {key : α → κ} {rank : α → ρ}

theorem rank_le_of_lastOf {l : List α} {k : κ} {a x : α}
    (hs : l.Pairwise fun a b => rank a ≤ rank b) (ha : lastOf key k l = some a) (hx : x ∈ l)
    (hk : key x = k) : rank x ≤ rank a := by
  obtain ⟨init, hinit⟩ := List.getLast?_eq_some_iff.mp ha
  have hfilter : (l.filter fun a => decide (key a = k)).Pairwise fun a b => rank a ≤ rank b :=
    hs.sublist List.filter_sublist
  have hmem : x ∈ l.filter fun a => decide (key a = k) :=
    List.mem_filter.mpr ⟨hx, decide_eq_true hk⟩
  rw [hinit] at hfilter hmem
  rcases List.mem_append.mp hmem with h | h
  · exact (List.pairwise_append.mp hfilter).2.2 x h a List.mem_cons_self
  · rw [List.mem_singleton.mp h]

/-- A stable sort keeps the last of those elements of a key that share a rank. -/
theorem lastOf_stableSort {l : List α} {k : κ} {a : α}
    (ha : lastOf key k (stableSort rank l) = some a) :
    lastSat (fun x => decide (key x = k ∧ rank x = rank a)) l = some a := by
  have hkey : key a = k := (mem_of_lastOf ha).2
  have hlast : lastSat (fun x => decide (key x = k ∧ rank x = rank a)) (stableSort rank l) =
      some a := by
    refine lastSat_of_imp ha (by simp [hkey]) ?_
    intro x hx
    simp only [decide_eq_true_eq] at hx ⊢
    exact hx.1
  rw [lastSat, filter_stableSort (fun x hx => (of_decide_eq_true hx).2)] at hlast
  exact hlast

/-- The incoming element of the key outranks every other element of the key, or
ties with it. -/
def Prevails (key : α → κ) (beaten : α → α → Prop) (stored incoming : List α) : Prop :=
  ∀ k w, lastOf key k incoming = some w →
    ∀ x ∈ stored ++ incoming, key x = k → x = w ∨ beaten x w

theorem prevails_of_nodup {beaten : α → α → Prop} {incoming : List α}
    (hnodup : (incoming.map key).Nodup) : Prevails key beaten [] incoming := by
  intro k w hw x hx hk
  have hmem := mem_of_lastOf hw
  refine Or.inl ?_
  exact List.inj_on_of_nodup_map hnodup hx hmem.1 (hk.trans hmem.2.symm)

/-- With a stable sort a tie goes to the incoming element, whatever sort that
keeps ties the incoming side went through before. -/
theorem keyedUpsert_stableSort_iff (stored : List α) {incoming sorted : List α}
    (hperm : sorted ~ incoming) (hties : TiesKept rank sorted incoming) :
    KeyedUpsert key stored incoming (keepLast key (stableSort rank (stored ++ sorted))) ↔
      Prevails key (fun x w => rank x ≤ rank w) stored incoming := by
  have hall : stableSort rank (stored ++ sorted) ~ stored ++ incoming :=
    (stableSort_perm rank _).trans (hperm.append_left stored)
  rw [keyedUpsert_keepLast_iff hall]
  constructor
  · intro wins k w hw x hx hk
    exact Or.inr (rank_le_of_lastOf (stableSort_sorted rank _) (wins k w hw)
      (hall.mem_iff.mpr hx) hk)
  · intro prevails k w hw
    have hmem := mem_of_lastOf hw
    have hin : w ∈ stableSort rank (stored ++ sorted) :=
      hall.mem_iff.mpr (List.mem_append_right stored hmem.1)
    obtain ⟨a, ha⟩ := lastOf_isSome (List.mem_map.mpr ⟨w, hin, hmem.2⟩)
    have hge : rank w ≤ rank a := rank_le_of_lastOf (stableSort_sorted rank _) ha hin hmem.2
    have hamem := mem_of_lastOf ha
    rcases prevails k w hw a (hall.mem_iff.mp hamem.1) hamem.2 with rfl | hle
    · exact ha
    · -- equal ranks: both are last among the elements of the key with this rank
      have hr : rank w = rank a := le_antisymm hge hle
      have hlast := lastOf_stableSort ha
      have hwlast : lastSat (fun x => decide (key x = k ∧ rank x = rank a)) incoming = some w := by
        refine lastSat_of_imp hw (by simp [hmem.2, hr]) ?_
        intro x hx
        simp only [decide_eq_true_eq] at hx ⊢
        exact hx.1
      rw [lastSat_append] at hlast
      have hsorted : lastSat (fun x => decide (key x = k ∧ rank x = rank a)) sorted = some w := by
        rw [lastSat, hties _ (rank a) (fun x hx => (of_decide_eq_true hx).2)]
        exact hwlast
      rw [hsorted, Option.some_or] at hlast
      rw [ha, hlast]

/-- Whatever the sort does with equal ranks, the incoming element must outrank
every other element of its key. -/
theorem keyedUpsert_sorter_iff (stored incoming : List α) {sorted : Sorter rank → List α}
    (hsorted : ∀ s, sorted s ~ incoming) :
    (∀ s : Sorter rank, KeyedUpsert key stored incoming
        (keepLast key (s.sort (stored ++ sorted s)))) ↔
      Prevails key (fun x w => rank x < rank w) stored incoming := by
  have hperm : ∀ s : Sorter rank, s.sort (stored ++ sorted s) ~ stored ++ incoming :=
    fun s => (s.perm _).trans ((hsorted s).append_left stored)
  constructor
  · intro law k w hw x hx hk
    by_contra hnot
    push Not at hnot
    obtain ⟨hne, hge⟩ := hnot
    -- the sort that puts `x` last among the elements of its rank
    classical
    let late : α → ρ ×ₗ Bool := fun y => toLex (rank y, decide (y = x))
    let adverse : Sorter rank :=
      { sort := stableSort late
        perm := stableSort_perm late
        sorted := fun l => (stableSort_sorted late l).imp fun {a b} h => by
          rcases (Prod.Lex.le_iff).mp h with h | h
          · exact le_of_lt h
          · exact le_of_eq h.1 }
    have wins := (keyedUpsert_keepLast_iff (hperm adverse)).mp (law adverse) k w hw
    have hle : late x ≤ late w := rank_le_of_lastOf (stableSort_sorted late _) wins
      ((hperm adverse).mem_iff.mpr hx) hk
    have hwx : w ≠ x := fun h => hne h.symm
    rcases (Prod.Lex.le_iff).mp hle with h | h
    · exact absurd h (not_lt.mpr hge)
    · have hbool : decide (x = x) ≤ decide (w = x) := h.2
      rw [decide_eq_true rfl, decide_eq_false hwx] at hbool
      exact absurd hbool (by decide)
  · intro prevails s
    rw [keyedUpsert_keepLast_iff (hperm s)]
    intro k w hw
    have hmem := mem_of_lastOf hw
    have hin : w ∈ s.sort (stored ++ sorted s) :=
      (hperm s).mem_iff.mpr (List.mem_append_right stored hmem.1)
    obtain ⟨a, ha⟩ := lastOf_isSome (List.mem_map.mpr ⟨w, hin, hmem.2⟩)
    have hge : rank w ≤ rank a := rank_le_of_lastOf (s.sorted _) ha hin hmem.2
    have hamem := mem_of_lastOf ha
    rcases prevails k w hw a ((hperm s).mem_iff.mp hamem.1) hamem.2 with rfl | hlt
    · exact ha
    · exact absurd hlt (not_lt.mpr hge)

end Sorting

end QuantDataCenter.Lib.Keyed
