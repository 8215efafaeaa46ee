import Mathlib.Data.List.Induction
import Mathlib.Order.Lattice
import QuantDataCenter.Lib.Dict

/-!
The best element of every key: an element takes the place of the one that is selected for its key
if its rank is strictly higher.
-/

set_option autoImplicit false
set_option relaxedAutoImplicit false

namespace QuantDataCenter.Lib.Selection

open QuantDataCenter.Lib

variable {α κ ρ : Type*} [DecidableEq κ] [LinearOrder ρ]

def prefer (key : α → κ) (rank : α → ρ) (selected : Dict κ α) (a : α) : Dict κ α :=
  match selected.get (key a) with
  | none => selected.set (key a) a
  | some current => if rank current < rank a then selected.set (key a) a else selected

def best (key : α → κ) (rank : α → ρ) (l : List α) : Dict κ α := l.foldl (prefer key rank) []

/-- The dictionary has one element of the list for every key of the list, of the highest rank. -/
structure Selects (key : α → κ) (rank : α → ρ) (l : List α) (selected : Dict κ α) : Prop where
  nodup : (selected.map Prod.fst).Nodup
  keyed : ∀ e ∈ selected, key e.2 = e.1
  subset : ∀ e ∈ selected, e.2 ∈ l
  highest : ∀ a ∈ l, ∃ b, selected.get (key a) = some b ∧ rank a ≤ rank b

variable {key : α → κ} {rank : α → ρ}

private theorem get_eq_some_of_mem {selected : Dict κ α} (hnodup : (selected.map Prod.fst).Nodup)
    {e : κ × α} (he : e ∈ selected) : selected.get e.1 = some e.2 := by
  induction selected with
  | nil => cases he
  | cons first rest ih =>
    obtain ⟨hnot, hrest⟩ := List.nodup_cons.mp hnodup
    rcases List.mem_cons.mp he with rfl | he
    · exact if_pos rfl
    · have hne : first.1 ≠ e.1 := fun heq => hnot (heq ▸ List.mem_map_of_mem he)
      exact (if_neg hne).trans (ih hrest he)

private theorem mem_of_get_eq_some {selected : Dict κ α} {k : κ} {a : α}
    (hget : selected.get k = some a) : (k, a) ∈ selected := by
  induction selected with
  | nil => cases hget
  | cons first rest ih =>
    unfold Dict.get at hget
    split at hget
    · rename_i heq
      obtain rfl := Option.some.inj hget
      rw [← heq]
      exact List.mem_cons_self
    · exact List.mem_cons_of_mem _ (ih hget)

section Prefer

variable {selected : Dict κ α} {a : α}

private theorem prefer_cases :
    (∃ b, selected.get (key a) = some b ∧ rank a ≤ rank b ∧ prefer key rank selected a = selected) ∨
    ((∀ b, selected.get (key a) = some b → rank b < rank a) ∧
      prefer key rank selected a = selected.set (key a) a) := by
  unfold prefer
  cases hget : selected.get (key a) with
  | none =>
    refine Or.inr ⟨fun b hb => ?_, rfl⟩
    cases hb
  | some current =>
    by_cases hlt : rank current < rank a
    · refine Or.inr ⟨fun b hb => ?_, if_pos hlt⟩
      rw [← Option.some.inj hb]
      exact hlt
    · exact Or.inl ⟨current, rfl, not_lt.mp hlt, if_neg hlt⟩

private theorem selects_prefer {l : List α} (h : Selects key rank l selected) :
    Selects key rank (l ++ [a]) (prefer key rank selected a) := by
  have hkept : ∀ e ∈ selected, e.2 ∈ l ++ [a] := fun e he =>
    List.mem_append_left _ (h.subset e he)
  rcases @prefer_cases _ _ _ _ _ key rank selected a with ⟨b, hget, hle, heq⟩ | ⟨hbetter, heq⟩
  · rw [heq]
    refine ⟨h.nodup, h.keyed, hkept, fun x hx => ?_⟩
    rcases List.mem_append.mp hx with hx | hx
    · exact h.highest x hx
    · rw [List.mem_singleton.mp hx]
      exact ⟨b, hget, hle⟩
  · rw [heq]
    refine ⟨Dict.nodup_set h.nodup, fun e he => ?_, fun e he => ?_, fun x hx => ?_⟩
    · rcases Dict.mem_set h.nodup he with rfl | ⟨hold, -⟩
      · rfl
      · exact h.keyed e hold
    · rcases Dict.mem_set h.nodup he with rfl | ⟨hold, -⟩
      · exact List.mem_append_right _ List.mem_cons_self
      · exact hkept e hold
    · by_cases hkey : key x = key a
      · rw [hkey, Dict.get_set_self]
        refine ⟨a, rfl, ?_⟩
        rcases List.mem_append.mp hx with hx | hx
        · obtain ⟨b, hget, hle⟩ := h.highest x hx
          rw [hkey] at hget
          exact le_trans hle (le_of_lt (hbetter b hget))
        · rw [List.mem_singleton.mp hx]
      · rw [Dict.get_set_of_ne hkey]
        rcases List.mem_append.mp hx with hx | hx
        · exact h.highest x hx
        · exact absurd (congrArg key (List.mem_singleton.mp hx)) hkey

end Prefer

theorem best_selects (key : α → κ) (rank : α → ρ) (l : List α) :
    Selects key rank l (best key rank l) := by
  induction l using List.reverseRecOn with
  | nil =>
    refine ⟨List.nodup_nil, fun e he => ?_, fun e he => ?_, fun a ha => ?_⟩
    · cases he
    · cases he
    · cases ha
  | append_singleton l a ih =>
    unfold best at ih ⊢
    rw [List.foldl_append]
    exact selects_prefer ih

section Best

variable {l : List α} {a b : α}

theorem mem_of_mem_best (hb : b ∈ (best key rank l).map Prod.snd) : b ∈ l := by
  obtain ⟨e, he, rfl⟩ := List.mem_map.mp hb
  exact (best_selects key rank l).subset e he

theorem rank_le_of_mem_best (hb : b ∈ (best key rank l).map Prod.snd) (ha : a ∈ l)
    (hkey : key a = key b) : rank a ≤ rank b := by
  have hselects := best_selects key rank l
  obtain ⟨e, he, rfl⟩ := List.mem_map.mp hb
  obtain ⟨b', hget, hle⟩ := hselects.highest a ha
  rw [hkey, hselects.keyed e he, get_eq_some_of_mem hselects.nodup he] at hget
  rw [Option.some.inj hget]
  exact hle

theorem exists_mem_best (ha : a ∈ l) :
    ∃ b ∈ (best key rank l).map Prod.snd, key b = key a ∧ rank a ≤ rank b := by
  have hselects := best_selects key rank l
  obtain ⟨b, hget, hle⟩ := hselects.highest a ha
  have hmem := mem_of_get_eq_some hget
  exact ⟨b, List.mem_map.mpr ⟨_, hmem, rfl⟩, hselects.keyed _ hmem, hle⟩

end Best

/-- An element of the list with the highest rank of its key. -/
structure IsBest (key : α → κ) (rank : α → ρ) (l : List α) (a : α) : Prop where
  mem : a ∈ l
  highest : ∀ b ∈ l, key b = key a → rank b ≤ rank a

section IsBest

variable {l : List α} {a b : α}

theorem isBest_of_mem_best (hb : b ∈ (best key rank l).map Prod.snd) : IsBest key rank l b :=
  ⟨mem_of_mem_best hb, fun _ ha hkey => rank_le_of_mem_best hb ha hkey⟩

theorem exists_isBest (ha : a ∈ l) : ∃ b, IsBest key rank l b ∧ key b = key a := by
  obtain ⟨b, hb, hkey, -⟩ := @exists_mem_best _ _ _ _ _ key rank _ _ ha
  exact ⟨b, isBest_of_mem_best hb, hkey⟩

omit [DecidableEq κ] in
theorem isBest_congr {l' : List α} (hmem : ∀ x, x ∈ l ↔ x ∈ l') :
    IsBest key rank l a ↔ IsBest key rank l' a := by
  constructor
  · intro ha
    exact ⟨(hmem a).mp ha.mem, fun b hb => ha.highest b ((hmem b).mpr hb)⟩
  · intro ha
    exact ⟨(hmem a).mpr ha.mem, fun b hb => ha.highest b ((hmem b).mp hb)⟩

theorem nodup_keys_best (l : List α) :
    (((best key rank l).map Prod.snd).map key).Nodup := by
  have hselects := best_selects key rank l
  have hkeys : ((best key rank l).map Prod.snd).map key = (best key rank l).map Prod.fst := by
    rw [List.map_map]
    exact List.map_congr_left fun e he => hselects.keyed e he
  rw [hkeys]
  exact hselects.nodup

/-- Filtering before the selection gives what filtering after it gives exactly if the best element
of a key is kept whenever some element of the key is. -/
theorem isBest_filter_iff {keep : α → Bool} :
    (∀ b, IsBest key rank (l.filter keep) b ↔ IsBest key rank l b ∧ keep b = true) ↔
      ∀ a ∈ l, keep a = true → ∃ b, IsBest key rank l b ∧ key b = key a ∧ keep b = true := by
  constructor
  · intro hcommute a ha hkeep
    obtain ⟨b, hb, hkey⟩ := @exists_isBest _ _ _ _ _ key rank _ _ (List.mem_filter.mpr ⟨ha, hkeep⟩)
    obtain ⟨hbest, hkept⟩ := (hcommute b).mp hb
    exact ⟨b, hbest, hkey, hkept⟩
  · intro hkept b
    constructor
    · intro hb
      obtain ⟨hmem, hkeep⟩ := List.mem_filter.mp hb.mem
      obtain ⟨top, htop, hkey, htopkeep⟩ := hkept b hmem hkeep
      have hle : rank top ≤ rank b := hb.highest top (List.mem_filter.mpr ⟨htop.mem, htopkeep⟩) hkey
      exact ⟨⟨hmem, fun a ha ha' => (htop.highest a ha (ha'.trans hkey.symm)).trans hle⟩, hkeep⟩
    · rintro ⟨hb, hkeep⟩
      refine ⟨List.mem_filter.mpr ⟨hb.mem, hkeep⟩, fun a ha hkey => ?_⟩
      exact hb.highest a (List.mem_filter.mp ha).1 hkey

end IsBest

end QuantDataCenter.Lib.Selection
