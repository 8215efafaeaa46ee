import Mathlib.Data.List.Induction
import QuantDataCenter.Lib.Dict
import QuantDataCenter.Lib.Keyed

/-!
Items that are collected, taken out in batches and delivered; a batch that is
not delivered goes back in front. Taking out may keep the last item of each key
only.
-/

set_option autoImplicit false
set_option relaxedAutoImplicit false

namespace QuantDataCenter.Lib

open Keyed

variable {α κ : Type*} [DecidableEq κ] {key : α → κ}

/-! Dictionaries of the last items -/

/-- The dictionary with the last item of each key. -/
def dictByKey (key : α → κ) (l : List α) : Dict κ α := l.foldl (fun d a => Dict.set (key a) a d) []

private theorem dictByKey_spec (l : List α) :
    ((dictByKey key l).map Prod.fst).Nodup ∧
      (∀ e ∈ dictByKey key l, lastOf key e.1 l = some e.2) ∧
      ∀ a ∈ l, key a ∈ (dictByKey key l).map Prod.fst := by
  induction l using List.reverseRecOn with
  | nil => exact ⟨List.nodup_nil, fun _ he => (by cases he), fun _ ha => (by cases ha)⟩
  | append_singleton l a ih =>
    obtain ⟨hnodup, hlast, hkeys⟩ := ih
    have hset : dictByKey key (l ++ [a]) = Dict.set (key a) a (dictByKey key l) := List.foldl_append
    rw [hset]
    refine ⟨Dict.nodup_set hnodup, fun e he => ?_, fun b hb => ?_⟩
    · rw [lastOf_append]
      rcases Dict.mem_set hnodup he with rfl | ⟨hmem, hne⟩
      · simp [lastOf, lastSat]
      · rw [lastOf_cons, if_neg (Ne.symm hne)]
        exact hlast e hmem
    · rw [Dict.mem_keys_set]
      rcases List.mem_append.mp hb with hold | hnew
      · exact Or.inr (hkeys b hold)
      · exact Or.inl (congrArg key (List.mem_singleton.mp hnew))

/-- The last items of the keys, each where the first item of its key stood. -/
def lastByKey (key : α → κ) (l : List α) : List α := (dictByKey key l).map Prod.snd

theorem lastByKey_subset (key : α → κ) (l : List α) : lastByKey key l ⊆ l := by
  intro a ha
  obtain ⟨e, he, rfl⟩ := List.mem_map.mp ha
  exact (mem_of_lastOf ((dictByKey_spec l).2.1 e he)).1

private theorem map_key_lastByKey (l : List α) :
    (lastByKey key l).map key = (dictByKey key l).map Prod.fst := by
  unfold lastByKey
  rw [List.map_map]
  exact List.map_congr_left fun e he => (mem_of_lastOf ((dictByKey_spec l).2.1 e he)).2

theorem nodup_lastByKey (l : List α) : ((lastByKey key l).map key).Nodup := by
  rw [map_key_lastByKey]
  exact (dictByKey_spec l).1

theorem lastOf_lastByKey (k : κ) (l : List α) : lastOf key k (lastByKey key l) = lastOf key k l := by
  cases h : lastOf key k l with
  | none =>
    rw [lastOf_eq_none] at h ⊢
    intro hk
    obtain ⟨a, ha, hkey⟩ := List.mem_map.mp hk
    exact h (hkey ▸ List.mem_map_of_mem (lastByKey_subset key l ha))
  | some a =>
    obtain ⟨ha, rfl⟩ := mem_of_lastOf h
    have hkeys : key a ∈ (dictByKey key l).map Prod.fst := (dictByKey_spec l).2.2 a ha
    obtain ⟨e, he, hkey⟩ := List.mem_map.mp hkeys
    have heq := (dictByKey_spec l).2.1 e he
    rw [hkey, h] at heq
    rw [Option.some.inj heq]
    refine lastOf_eq_some_of_nodup (nodup_lastByKey l) ?_
    exact List.mem_map_of_mem he

theorem lastByKey_eq_nil (key : α → κ) {l : List α} : lastByKey key l = [] ↔ l = [] := by
  constructor
  · intro h
    rw [List.eq_nil_iff_forall_not_mem]
    intro a ha
    have hkey : key a ∈ (dictByKey key l).map Prod.fst := (dictByKey_spec l).2.2 a ha
    rw [← map_key_lastByKey, h] at hkey
    cases hkey
  · rintro rfl
    rfl

theorem lastByKey_map {β κ' : Type*} [DecidableEq κ'] {f : β → α} {g : κ' → κ}
    (hg : Function.Injective g) {key' : β → κ'} (hkey : ∀ b, key (f b) = g (key' b)) (l : List β) :
    lastByKey key (l.map f) = (lastByKey key' l).map f := by
  have hdict : dictByKey key (l.map f) = (dictByKey key' l).map fun e => (g e.1, f e.2) := by
    induction l using List.reverseRecOn with
    | nil => rfl
    | append_singleton l b ih =>
      have hset : dictByKey key' (l ++ [b]) = Dict.set (key' b) b (dictByKey key' l) := List.foldl_append
      have hset' : dictByKey key ((l ++ [b]).map f) =
          Dict.set (key (f b)) (f b) (dictByKey key (l.map f)) := by
        rw [List.map_append]
        exact List.foldl_append
      rw [hset, hset', ih, hkey, Dict.set_mapEntries hg]
  unfold lastByKey
  rw [hdict, List.map_map, List.map_map]
  rfl

/-! The way of an item -/

/-- What was added, what waits, what is taken out, and the batches delivered. -/
structure Flow (α : Type*) where
  added : List α
  pending : List α
  held : List α
  delivered : List (List α)

/-- All items on their way, the oldest first. -/
def Flow.stream (f : Flow α) : List α := f.delivered.flatten ++ f.held ++ f.pending

/-- One move; what is taken out is condensed by `squash`. -/
inductive Flow.Move (squash : List α → List α) : Flow α → Flow α → Prop
  | stay (f : Flow α) : Move squash f f
  | add (f : Flow α) (items : List α) :
      Move squash f { f with added := f.added ++ items, pending := f.pending ++ items }
  | take (f : Flow α) (hheld : f.held = []) :
      Move squash f { f with held := squash f.pending, pending := [] }
  | deliver (f : Flow α) :
      Move squash f { f with held := [], delivered := f.delivered ++ [f.held] }
  | giveBack (f : Flow α) :
      Move squash f { f with held := [], pending := f.held ++ f.pending }

/-- Nothing is lost, doubled or reordered when batches are taken out as they are. -/
theorem Flow.Move.stream_eq {f f' : Flow α} (hmove : Flow.Move id f f') (h : f.stream = f.added) :
    f'.stream = f'.added := by
  cases hmove with
  | stay => exact h
  | add items =>
    show _ = f.added ++ items
    rw [← h]
    simp [stream]
  | take hheld =>
    rw [← h]
    simp [stream, hheld]
  | deliver =>
    rw [← h]
    simp [stream]
  | giveBack =>
    rw [← h]
    simp [stream]

/-- The items on their way were added, and the last one of a key is the one added last. -/
def Flow.Carries (key : α → κ) (f : Flow α) : Prop :=
  f.stream ⊆ f.added ∧ ∀ k, lastOf key k f.stream = lastOf key k f.added

theorem Flow.Move.carries {f f' : Flow α} (hmove : Flow.Move (lastByKey key) f f')
    (h : f.Carries key) : f'.Carries key := by
  obtain ⟨hsubset, hlast⟩ := h
  have hsame : ∀ {stream : List α}, stream = f.stream → stream ⊆ f.added ∧
      ∀ k, lastOf key k stream = lastOf key k f.added := by
    rintro _ rfl
    exact ⟨hsubset, hlast⟩
  cases hmove with
  | stay => exact ⟨hsubset, hlast⟩
  | add items =>
    have hstream : f.delivered.flatten ++ f.held ++ (f.pending ++ items) = f.stream ++ items :=
      (List.append_assoc _ _ _).symm
    refine ⟨?_, fun k => ?_⟩
    · show f.delivered.flatten ++ f.held ++ (f.pending ++ items) ⊆ f.added ++ items
      rw [hstream]
      exact List.append_subset.mpr ⟨List.Subset.trans hsubset (List.subset_append_left _ _),
        List.subset_append_right _ _⟩
    · show lastOf key k (f.delivered.flatten ++ f.held ++ (f.pending ++ items)) =
        lastOf key k (f.added ++ items)
      rw [hstream, lastOf_append, lastOf_append, hlast]
  | take hheld =>
    have hold : f.stream = f.delivered.flatten ++ f.pending := by
      simp [stream, hheld]
    have hnew : ({ f with held := lastByKey key f.pending, pending := [] } : Flow α).stream =
        f.delivered.flatten ++ lastByKey key f.pending := List.append_nil _
    unfold Carries
    rw [hnew]
    refine ⟨List.append_subset.mpr ⟨?_, ?_⟩, fun k => ?_⟩
    · exact List.Subset.trans (List.subset_append_left _ _) (hold ▸ hsubset)
    · exact List.Subset.trans (lastByKey_subset key _)
        (List.Subset.trans (List.subset_append_right _ _) (hold ▸ hsubset))
    · rw [lastOf_append, lastOf_lastByKey, ← lastOf_append, ← hold]
      exact hlast k
  | deliver => exact hsame (by simp [stream])
  | giveBack => exact hsame (by simp [stream])

/-- The last batch with the key holds the item added last, and no other of the key. -/
def DeliveredLast (key : α → κ) (batches : List (List α)) (added : List α) (a : α) : Prop :=
  ∃ earlier batch later last, batches = earlier ++ batch :: later ∧
    (∀ b ∈ later, key a ∉ b.map key) ∧ lastOf key (key a) added = some last ∧
    batch.filter (fun x => key x = key a) = [last]

theorem deliveredLast_of_lastOf {batches : List (List α)} {added : List α} {a : α} (ha : a ∈ added)
    (hnodup : ∀ batch ∈ batches, (batch.map key).Nodup)
    (hlast : lastOf key (key a) batches.flatten = lastOf key (key a) added) :
    DeliveredLast key batches added a := by
  obtain ⟨last, hadded⟩ := lastOf_isSome (List.mem_map_of_mem (f := key) ha)
  rw [hadded] at hlast
  induction batches using List.reverseRecOn with
  | nil => cases hlast
  | append_singleton batches batch ih =>
    rw [List.flatten_append, List.flatten_singleton, lastOf_append] at hlast
    cases hbatch : lastOf key (key a) batch with
    | none =>
      rw [hbatch, Option.none_or] at hlast
      obtain ⟨earlier, b, later, last', rfl, hlater, hrest⟩ :=
        ih (fun b hb => hnodup b (List.mem_append_left _ hb)) hlast
      refine ⟨earlier, b, later ++ [batch], last', by simp, fun c hc => ?_, hrest⟩
      rcases List.mem_append.mp hc with hold | hnew
      · exact hlater c hold
      · rw [List.mem_singleton.mp hnew]
        exact lastOf_eq_none.mp hbatch
    | some b =>
      rw [hbatch, Option.some_or] at hlast
      refine ⟨batches, batch, [], last, rfl, fun _ hb => (by cases hb), hadded, ?_⟩
      rw [Option.some.inj hlast] at hbatch
      obtain ⟨hmem, hkey⟩ := mem_of_lastOf hbatch
      rw [← hkey]
      exact filter_key_eq_singleton (hnodup batch (List.mem_append_right _ List.mem_cons_self)) hmem

end QuantDataCenter.Lib
