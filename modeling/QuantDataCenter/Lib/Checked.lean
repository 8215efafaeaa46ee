import Mathlib.Tactic.TypeStar

/-!
Computations that stop at the first error: what a sequence that ends well has
done, and a check that runs over a list.
-/

set_option autoImplicit false
set_option relaxedAutoImplicit false

namespace QuantDataCenter.Lib.Checked

universe u v

variable {ε : Type v} {α β : Type u}

theorem bind_eq_ok {x : Except ε α} {f : α → Except ε β} {b : β} :
    (x >>= f) = .ok b ↔ ∃ a, x = .ok a ∧ f a = .ok b := by
  cases x with
  | error e => simp [Bind.bind, Except.bind]
  | ok a => simp [Bind.bind, Except.bind]

theorem map_eq_ok {x : Except ε α} {f : α → β} {b : β} :
    x.map f = .ok b ↔ ∃ a, x = .ok a ∧ f a = b := by
  cases x with
  | error e => simp [Except.map]
  | ok a => simp [Except.map]

theorem eq_ok_of_toOption {x : Except ε α} {a : α} (hx : x.toOption = some a) : x = .ok a := by
  cases x with
  | error e => cases hx
  | ok b => rw [Option.some.inj hx]

def errorOf : Except ε α → Option ε
  | .ok _ => none
  | .error e => some e

theorem errorOf_eq_none {x : Except ε α} : errorOf x = none ↔ ∃ a, x = .ok a := by
  cases x <;> simp [errorOf]

/-- The error of the first element that has one. -/
def checkAll (error : α → Option ε) (l : List α) : Except ε Unit :=
  match l.findSome? error with
  | some e => .error e
  | none => .ok ()

theorem checkAll_eq_ok {error : α → Option ε} {l : List α} :
    checkAll error l = .ok () ↔ ∀ a ∈ l, error a = none := by
  unfold checkAll
  rw [← List.findSome?_eq_none_iff]
  split <;> simp_all

theorem ite_eq_ok {c : Prop} [Decidable c] {e : ε} {u : Unit} :
    (if c then .ok () else .error e : Except ε Unit) = .ok u ↔ c := by
  split <;> simp_all

theorem mapM_eq_ok {f : α → Except ε β} {g : α → β} {l : List α} (h : ∀ a ∈ l, f a = .ok (g a)) :
    l.mapM f = .ok (l.map g) := by
  induction l with
  | nil => rfl
  | cons a l ih =>
    rw [List.mapM_cons, h a List.mem_cons_self, ih fun b hb => h b (List.mem_cons_of_mem a hb)]
    rfl

theorem mem_of_mapM_eq_ok {f : α → Except ε β} {l : List α} {out : List β}
    (h : l.mapM f = .ok out) {a : α} (ha : a ∈ l) : ∃ b ∈ out, f a = .ok b := by
  induction l generalizing out with
  | nil => cases ha
  | cons a' l ih =>
    rw [List.mapM_cons] at h
    obtain ⟨b, hb, h⟩ := bind_eq_ok.mp h
    obtain ⟨rest, hrest, h⟩ := bind_eq_ok.mp h
    obtain rfl := Except.ok.inj h
    rcases List.mem_cons.mp ha with rfl | ha
    · exact ⟨b, List.mem_cons_self, hb⟩
    · obtain ⟨b', hb', hf⟩ := ih hrest ha
      exact ⟨b', List.mem_cons_of_mem b hb', hf⟩

theorem mem_of_mem_mapM_eq_ok {f : α → Except ε β} {l : List α} {out : List β}
    (h : l.mapM f = .ok out) {b : β} (hb : b ∈ out) : ∃ a ∈ l, f a = .ok b := by
  induction l generalizing out with
  | nil =>
    obtain rfl := Except.ok.inj h
    cases hb
  | cons a l ih =>
    rw [List.mapM_cons] at h
    obtain ⟨b', hb', h⟩ := bind_eq_ok.mp h
    obtain ⟨rest, hrest, h⟩ := bind_eq_ok.mp h
    obtain rfl := Except.ok.inj h
    rcases List.mem_cons.mp hb with rfl | hb
    · exact ⟨a, List.mem_cons_self, hb'⟩
    · obtain ⟨a', ha', hf⟩ := ih hrest hb
      exact ⟨a', List.mem_cons_of_mem a ha', hf⟩

theorem mapM_agree {f g : α → Except ε β} {l : List α} {out out' : List β}
    (hagree : ∀ a ∈ l, ∀ b b', f a = .ok b → g a = .ok b' → b = b') (h : l.mapM f = .ok out)
    (h' : l.mapM g = .ok out') : out = out' := by
  induction l generalizing out out' with
  | nil =>
    obtain rfl := Except.ok.inj h
    exact Except.ok.inj h'
  | cons a l ih =>
    rw [List.mapM_cons] at h h'
    obtain ⟨b, hb, h⟩ := bind_eq_ok.mp h
    obtain ⟨rest, hrest, h⟩ := bind_eq_ok.mp h
    obtain ⟨b', hb', h'⟩ := bind_eq_ok.mp h'
    obtain ⟨rest', hrest', h'⟩ := bind_eq_ok.mp h'
    obtain rfl := Except.ok.inj h
    obtain rfl := Except.ok.inj h'
    rw [hagree a List.mem_cons_self b b' hb hb',
      ih (fun c hc => hagree c (List.mem_cons_of_mem a hc)) hrest hrest']

theorem mapM_congr {f g : α → Except ε β} {l : List α} (h : ∀ a ∈ l, f a = g a) :
    l.mapM f = l.mapM g := by
  induction l with
  | nil => rfl
  | cons a l ih =>
    rw [List.mapM_cons, List.mapM_cons, h a List.mem_cons_self,
      ih fun b hb => h b (List.mem_cons_of_mem a hb)]

theorem exists_mapM_eq_ok {f : α → Except ε β} {l : List α} (h : ∀ a ∈ l, ∃ b, f a = .ok b) :
    ∃ out, l.mapM f = .ok out := by
  induction l with
  | nil => exact ⟨[], rfl⟩
  | cons a l ih =>
    obtain ⟨b, hb⟩ := h a List.mem_cons_self
    obtain ⟨rest, hrest⟩ := ih fun c hc => h c (List.mem_cons_of_mem a hc)
    refine ⟨b :: rest, ?_⟩
    rw [List.mapM_cons, hb, hrest]
    rfl

end QuantDataCenter.Lib.Checked
