import Mathlib.Data.List.Basic

/-!
Dictionaries as lists of entries, with `get`, `set` and a map over the values.
-/

set_option autoImplicit false
set_option relaxedAutoImplicit false

namespace QuantDataCenter.Lib

/-- A dictionary: the first entry of a key counts. -/
abbrev Dict (κ β : Type*) := List (κ × β)

namespace Dict

variable {κ β : Type*} [DecidableEq κ]

@[grind =] def get (k : κ) : Dict κ β → Option β
  | [] => none
  | e :: l => if e.1 = k then some e.2 else get k l

@[grind =] def set (k : κ) (v : β) : Dict κ β → Dict κ β
  | [] => [(k, v)]
  | e :: l => if e.1 = k then (k, v) :: l else e :: set k v l

@[grind =] def mapValues (f : β → β) (l : Dict κ β) : Dict κ β := l.map fun e => (e.1, f e.2)

@[simp] theorem get_set_self (k : κ) (v : β) (l : Dict κ β) : get k (set k v l) = some v := by
  induction l with
  | nil => simp [get, set]
  | cons e l ih =>
    by_cases he : e.1 = k
    · simp [get, set, he]
    · simp [get, set, he, ih]

theorem get_set_of_ne {k k' : κ} (hne : k' ≠ k) (v : β) (l : Dict κ β) :
    get k' (set k v l) = get k' l := by
  have hne' : k ≠ k' := fun h => hne h.symm
  induction l with
  | nil => simp [get, set, hne']
  | cons e l ih =>
    by_cases he : e.1 = k
    · simp [get, set, he, hne']
    · by_cases he' : e.1 = k'
      · simp [get, set, he', hne]
      · simp [get, set, he, he', ih]

theorem get_mapValues (k : κ) (f : β → β) (l : Dict κ β) :
    get k (mapValues f l) = (get k l).map f := by
  induction l with
  | nil => rfl
  | cons e l ih =>
    unfold mapValues at ih ⊢
    rw [List.map_cons]
    by_cases he : e.1 = k
    · simp [get, he]
    · simp [get, he, ih]

theorem get_isSome_of_mem {l : Dict κ β} {e : κ × β} (he : e ∈ l) : (get e.1 l).isSome = true := by
  induction l with
  | nil => cases he
  | cons a l ih =>
    unfold get
    split
    · rfl
    · rename_i hne
      rcases List.mem_cons.mp he with rfl | hmem
      · exact absurd rfl hne
      · exact ih hmem

theorem get_map_key (f : κ → β) (keys : List κ) (k : κ) :
    get k (keys.map fun key => (key, f key)) = if k ∈ keys then some (f k) else none := by
  induction keys with
  | nil => rfl
  | cons key keys ih =>
    rw [List.map_cons, get, ih]
    by_cases hkey : key = k
    · simp [hkey]
    · simp [hkey, Ne.symm hkey]

theorem get_filter (q : κ → Bool) (k : κ) (l : Dict κ β) :
    get k (l.filter fun e => q e.1) = if q k then get k l else none := by
  induction l with
  | nil => simp [get]
  | cons e l ih =>
    rw [List.filter_cons]
    by_cases he : e.1 = k
    · rw [← he] at ih ⊢
      cases hq : q e.1 with
      | true => simp [get]
      | false => simpa [get, hq] using ih
    · cases hq : q e.1 with
      | true => simpa [get, he] using ih
      | false => simpa [get, he] using ih

theorem set_map {γ : Type*} (f : β → γ) (k : κ) (v : β) (l : Dict κ β) :
    set k (f v) (l.map fun e => (e.1, f e.2)) = (set k v l).map fun e => (e.1, f e.2) := by
  induction l with
  | nil => rfl
  | cons e l ih =>
    rw [List.map_cons, set, set]
    split
    · rfl
    · rw [List.map_cons, ih]

theorem set_mapEntries {κ' γ : Type*} [DecidableEq κ'] {g : κ → κ'} (hg : Function.Injective g)
    (f : β → γ) (k : κ) (v : β) (l : Dict κ β) :
    set (g k) (f v) (l.map fun e => (g e.1, f e.2)) = (set k v l).map fun e => (g e.1, f e.2) := by
  induction l with
  | nil => rfl
  | cons e l ih =>
    rw [List.map_cons, set, set]
    by_cases he : e.1 = k
    · rw [if_pos he, if_pos (congrArg g he)]
      rfl
    · rw [if_neg he, if_neg fun heq => he (hg heq), List.map_cons, ih]

theorem mem_of_get {k : κ} {v : β} {l : Dict κ β} (h : get k l = some v) : (k, v) ∈ l := by
  induction l with
  | nil => cases h
  | cons e l ih =>
    unfold get at h
    split at h
    · rename_i he
      obtain rfl := Option.some.inj h
      rw [← he]
      exact List.mem_cons_self
    · exact List.mem_cons_of_mem _ (ih h)

theorem mem_of_mem_set {k : κ} {v : β} {l : Dict κ β} {e : κ × β} (he : e ∈ set k v l) :
    e = (k, v) ∨ e ∈ l := by
  induction l with
  | nil => exact Or.inl (List.mem_singleton.mp he)
  | cons a l ih =>
    unfold set at he
    split at he
    · exact (List.mem_cons.mp he).imp_right (List.mem_cons_of_mem _)
    · rcases List.mem_cons.mp he with rfl | hmem
      · exact Or.inr List.mem_cons_self
      · exact (ih hmem).imp_right (List.mem_cons_of_mem _)

theorem mem_of_mem_foldl_set {α : Type*} (f : α → κ) (g : α → β) {as : List α} {l : Dict κ β}
    {e : κ × β} (he : e ∈ as.foldl (fun d a => set (f a) (g a) d) l) :
    (∃ a ∈ as, e = (f a, g a)) ∨ e ∈ l := by
  induction as generalizing l with
  | nil => exact Or.inr he
  | cons a as ih =>
    rcases ih he with ⟨b, hb, heq⟩ | hset
    · exact Or.inl ⟨b, List.mem_cons_of_mem _ hb, heq⟩
    · rcases mem_of_mem_set hset with heq | hmem
      · exact Or.inl ⟨a, List.mem_cons_self, heq⟩
      · exact Or.inr hmem

/-- The entry of an element is set, if the element names a key. -/
@[grind =] def setNamed {α : Type*} (key : α → Option κ) (value : α → β) (d : Dict κ β) (a : α) : Dict κ β :=
  match key a with
  | none => d
  | some k => set k (value a) d

theorem get_setNamed_self {α : Type*} {key : α → Option κ} {a : α} {k : κ} (h : key a = some k)
    (value : α → β) (d : Dict κ β) : get k (setNamed key value d a) = some (value a) := by
  simp only [setNamed, h, get_set_self]

theorem get_setNamed_of_ne {α : Type*} {key : α → Option κ} {a : α} {k : κ} (h : key a ≠ some k)
    (value : α → β) (d : Dict κ β) : get k (setNamed key value d a) = get k d := by
  unfold setNamed
  split
  case h_1 => rfl
  case h_2 k' hother =>
    have hne : k ≠ k' := fun heq => h (by rw [hother, heq])
    exact get_set_of_ne hne _ _

theorem get_foldl_setNamed {α : Type*} (key : α → Option κ) (value : α → β) (as : List α)
    (d : Dict κ β) (k : κ) :
    get k (as.foldl (setNamed key value) d) =
      ((as.filter fun a => key a = some k).getLast?.map value).or (get k d) := by
  induction as generalizing d with
  | nil => rfl
  | cons a as ih =>
    rw [List.foldl_cons, ih]
    by_cases hkey : key a = some k
    · rw [List.filter_cons_of_pos (by simpa using hkey), List.getLast?_cons, get_setNamed_self hkey]
      cases (as.filter fun a => key a = some k).getLast? with
      | none => rfl
      | some last => rfl
    · rw [List.filter_cons_of_neg (by simpa using hkey), get_setNamed_of_ne hkey]

section Keys

variable {k : κ} {v : β} {d : Dict κ β}

theorem mem_keys_set {k' : κ} : k' ∈ (set k v d).map Prod.fst ↔ k' = k ∨ k' ∈ d.map Prod.fst := by
  induction d with
  | nil => simp [set]
  | cons e d ih =>
    unfold set
    split
    · rename_i he
      simp [he]
    · rw [List.map_cons, List.map_cons, List.mem_cons, List.mem_cons, ih]
      exact or_left_comm

theorem nodup_set (h : (d.map Prod.fst).Nodup) : ((set k v d).map Prod.fst).Nodup := by
  induction d with
  | nil => simp [set]
  | cons e d ih =>
    obtain ⟨hnot, hd⟩ := List.nodup_cons.mp h
    unfold set
    split
    · rename_i he
      rw [List.map_cons, ← he]
      exact h
    · rename_i he
      rw [List.map_cons, List.nodup_cons, mem_keys_set]
      exact ⟨not_or.mpr ⟨he, hnot⟩, ih hd⟩

theorem mem_set (h : (d.map Prod.fst).Nodup) {e : κ × β} (he : e ∈ set k v d) :
    e = (k, v) ∨ e ∈ d ∧ e.1 ≠ k := by
  induction d with
  | nil => exact Or.inl (List.mem_singleton.mp he)
  | cons a d ih =>
    obtain ⟨hnot, hd⟩ := List.nodup_cons.mp h
    unfold set at he
    split at he
    · rename_i ha
      rcases List.mem_cons.mp he with rfl | hmem
      · exact Or.inl rfl
      · refine Or.inr ⟨List.mem_cons_of_mem _ hmem, fun hk => hnot ?_⟩
        rw [ha, ← hk]
        exact List.mem_map_of_mem hmem
    · rename_i ha
      rcases List.mem_cons.mp he with rfl | hmem
      · exact Or.inr ⟨List.mem_cons_self, ha⟩
      · exact (ih hd hmem).imp_right fun hold => ⟨List.mem_cons_of_mem _ hold.1, hold.2⟩

end Keys

end Dict

end QuantDataCenter.Lib
