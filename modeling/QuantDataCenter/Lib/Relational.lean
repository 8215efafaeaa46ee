import Mathlib.Data.List.Dedup
import Mathlib.Data.List.MinMax

/-!
Queries over lists of rows: groups, the greatest value of a column where missing
values do not count, and the row before a row in its partition.
-/

set_option autoImplicit false
set_option relaxedAutoImplicit false

namespace QuantDataCenter.Lib.Relational

variable {α β κ ρ : Type*}

section Groups

variable [DecidableEq κ] {key : α → κ} {rows : List α} {make : κ → List α → β}

def group (key : α → κ) (rows : List α) (k : κ) : List α := rows.filter fun a => key a = k

/-- One result for every key of the rows. -/
def groupBy (key : α → κ) (rows : List α) (make : κ → List α → β) : List β :=
  (rows.map key).dedup.map fun k => make k (group key rows k)

theorem mem_group {k : κ} {a : α} : a ∈ group key rows k ↔ a ∈ rows ∧ key a = k := by
  unfold group
  rw [List.mem_filter, decide_eq_true_eq]

theorem mem_groupBy {b : β} :
    b ∈ groupBy key rows make ↔ ∃ a ∈ rows, make (key a) (group key rows (key a)) = b := by
  unfold groupBy
  simp only [List.mem_map, List.mem_dedup]
  constructor
  · rintro ⟨k, ⟨a, ha, rfl⟩, hb⟩
    exact ⟨a, ha, hb⟩
  · rintro ⟨a, ha, hb⟩
    exact ⟨key a, ⟨a, ha, rfl⟩, hb⟩

theorem nodup_groupBy {label : β → κ} (hlabel : ∀ k g, label (make k g) = k) :
    ((groupBy key rows make).map label).Nodup := by
  have hkeys : (groupBy key rows make).map label = (rows.map key).dedup := by
    unfold groupBy
    rw [List.map_map]
    conv_rhs => rw [← List.map_id (rows.map key).dedup]
    exact List.map_congr_left fun k _ => hlabel k _
  rw [hkeys]
  exact List.nodup_dedup _

end Groups

section Greatest

variable [LinearOrder ρ] [DecidableEq α] {rank : α → ρ} {null : α} {values : List α}

def greatest (rank : α → ρ) (null : α) (values : List α) : α :=
  ((values.filter fun a => a ≠ null).argmax rank).getD null

/-- The value is missing or not above another that is not. -/
def Below (rank : α → ρ) (null a b : α) : Prop := a = null ∨ (b ≠ null ∧ rank a ≤ rank b)

theorem below_greatest {a : α} (ha : a ∈ values) :
    Below rank null a (greatest rank null values) := by
  by_cases hnull : a = null
  · exact Or.inl hnull
  · have hmem : a ∈ values.filter fun a => a ≠ null :=
      List.mem_filter.mpr ⟨ha, decide_eq_true hnull⟩
    unfold greatest
    cases hmax : (values.filter fun a => a ≠ null).argmax rank with
    | none =>
      rw [List.argmax_eq_none.mp hmax] at hmem
      cases hmem
    | some m =>
      have hm := List.argmax_mem (Option.mem_def.mpr hmax)
      exact Or.inr ⟨of_decide_eq_true (List.mem_filter.mp hm).2,
        List.le_of_mem_argmax hmem (Option.mem_def.mpr hmax)⟩

theorem greatest_mem : greatest rank null values = null ∨ greatest rank null values ∈ values := by
  unfold greatest
  cases hmax : (values.filter fun a => a ≠ null).argmax rank with
  | none => exact Or.inl rfl
  | some m =>
    have hm := List.argmax_mem (Option.mem_def.mpr hmax)
    exact Or.inr (List.mem_filter.mp hm).1

/-- A value of the list with all others below it is the greatest, where the rank tells the values
apart. -/
theorem greatest_eq {b : α} (hb : b = null ∨ b ∈ values)
    (hbelow : ∀ a ∈ values, Below rank null a b)
    (hinj : ∀ a ∈ values, a ≠ null → b ≠ null → rank a = rank b → a = b) :
    greatest rank null values = b := by
  rcases @greatest_mem _ _ _ _ rank null values with hnull | hmem
  · rcases hb with rfl | hb
    · exact hnull
    · rcases @below_greatest _ _ _ _ rank null values b hb with heq | ⟨hne, -⟩
      · rw [hnull, heq]
      · exact absurd hnull hne
  · rcases hbelow _ hmem with heq | ⟨hbne, hle⟩
    · rcases hb with rfl | hb
      · exact heq
      · rcases @below_greatest _ _ _ _ rank null values b hb with hnull | ⟨hne, -⟩
        · rw [heq, hnull]
        · exact absurd heq hne
    · rcases hb with rfl | hb
      · exact absurd rfl hbne
      · rcases @below_greatest _ _ _ _ rank null values b hb with hnull | ⟨hne, hge⟩
        · exact absurd hnull hbne
        · exact hinj _ hmem hne hbne (le_antisymm hle hge)

end Greatest

/-- `lag`: the row before a row in its partition. -/
def lag [DecidableEq κ] [LinearOrder ρ] (partition : α → κ) (order : α → ρ) (rows : List α)
    (a : α) : Option α :=
  (rows.filter fun b => partition b = partition a ∧ order b < order a).argmax order

end QuantDataCenter.Lib.Relational
