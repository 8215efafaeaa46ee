import QuantDataCenter.Lib.Json

/-!
An automaton that follows the strings and the brackets of a JSON text. What the reader accepts
brings it to the end of a value, so that a text that was cut is never read, whatever is written
behind it.
-/

set_option autoImplicit false
set_option relaxedAutoImplicit false

namespace QuantDataCenter.Lib.Json

/-- Where a text stands, with the number of open brackets: outside strings, in a string, behind a
backslash, or behind a string or a bracket. -/
inductive Scan where
  | plain (depth : ℕ)
  | quoted (depth : ℕ)
  | escaped (depth : ℕ)
  | closed (depth : ℕ)
  | dead
  deriving DecidableEq

namespace Scan

/-- A separator or a closing bracket, outside strings. -/
@[grind =] def separate (depth : ℕ) (c : Char) : Scan :=
  match depth with
  | 0 => dead
  | depth + 1 => if c = '}' ∨ c = ']' then closed depth else plain (depth + 1)

@[grind =] def step : Scan → Char → Scan
  | plain depth, c =>
    if c = '"' then quoted depth
    else if c = '{' ∨ c = '[' then plain (depth + 1)
    else if c = '}' ∨ c = ']' ∨ c = ',' ∨ c = ':' then separate depth c
    else plain depth
  | quoted depth, c =>
    if c = '"' then closed depth else if c = '\\' then escaped depth else quoted depth
  | escaped depth, _ => quoted depth
  | closed depth, c =>
    if isBlank c then closed depth
    else if c = '}' ∨ c = ']' ∨ c = ',' ∨ c = ':' then separate depth c
    else dead
  | dead, _ => dead

def run (σ : Scan) (s : List Char) : Scan := s.foldl step σ

@[simp] theorem run_nil (σ : Scan) : run σ [] = σ := rfl

@[simp] theorem run_cons (σ : Scan) (c : Char) (s : List Char) :
    run σ (c :: s) = run (step σ c) s := rfl

theorem run_append (σ : Scan) (s t : List Char) : run σ (s ++ t) = run (run σ s) t :=
  List.foldl_append

@[simp] theorem run_dead (s : List Char) : run dead s = dead := by
  induction s with
  | nil => rfl
  | cons c s ih => exact ih

/-- Behind a value, or in front of one. -/
def At (depth : ℕ) (σ : Scan) : Prop := σ = plain depth ∨ σ = closed depth

private theorem step_blank {depth : ℕ} {σ : Scan} (h : At depth σ) {c : Char}
    (hc : isBlank c = true) :
    step σ c = σ := by
  have hblank := hc
  simp only [isBlank, Bool.or_eq_true, beq_iff_eq] at hc
  obtain rfl | rfl := h
  · obtain ((rfl | rfl) | rfl) | rfl := hc <;> rfl
  · simp only [step, hblank, if_true]

private theorem run_blanks {depth : ℕ} {σ : Scan} (h : At depth σ) {s : List Char}
    (hs : ∀ c ∈ s, isBlank c = true) : run σ s = σ := by
  induction s with
  | nil => rfl
  | cons c s ih =>
    rw [run_cons, step_blank h (hs c List.mem_cons_self)]
    exact ih fun d hd => hs d (List.mem_cons_of_mem c hd)

/-! What the reader uses -/

private theorem skipBlanks_used (s : List Char) :
    ∃ blanks, s = blanks ++ skipBlanks s ∧ ∀ c ∈ blanks, isBlank c = true :=
  ⟨s.takeWhile isBlank, List.takeWhile_append_dropWhile.symm,
    fun _ hc => List.mem_takeWhile_imp hc⟩

/-- The text `s` is `used ++ rest`, and `used` takes the automaton from `σ` to `τ`. -/
def Uses (σ : Scan) (s rest : List Char) (τ : Scan) : Prop :=
  ∃ used, s = used ++ rest ∧ run σ used = τ

theorem Uses.refl (σ : Scan) (s : List Char) : Uses σ s s σ := ⟨[], rfl, rfl⟩

theorem Uses.trans {σ τ υ : Scan} {s t rest : List Char} (h : Uses σ s t τ)
    (h' : Uses τ t rest υ) : Uses σ s rest υ := by
  obtain ⟨used, rfl, rfl⟩ := h
  obtain ⟨used', rfl, rfl⟩ := h'
  exact ⟨used ++ used', (List.append_assoc _ _ _).symm, run_append σ used used'⟩

theorem Uses.cons {σ τ : Scan} {c : Char} {s rest : List Char}
    (h : Uses (step σ c) s rest τ) : Uses σ (c :: s) rest τ := by
  obtain ⟨used, rfl, rfl⟩ := h
  exact ⟨c :: used, rfl, rfl⟩

private theorem uses_skipBlanks {depth : ℕ} {σ : Scan} (h : At depth σ) (s : List Char) :
    Uses σ s (skipBlanks s) σ := by
  obtain ⟨blanks, hs, hblanks⟩ := skipBlanks_used s
  exact ⟨blanks, hs, run_blanks h hblanks⟩

private theorem uses_skipBlanks_plain (depth : ℕ) (s : List Char) :
    Uses (plain depth) s (skipBlanks s) (plain depth) := uses_skipBlanks (.inl rfl) s

private theorem isHex_plain {c : Char} {n : ℕ} (h : hexDigitValue c = some n) :
    c ≠ '"' ∧ c ≠ '\\' := by
  constructor <;> rintro rfl <;> cases h

private theorem step_quoted (depth : ℕ) {c : Char} (hquote : c ≠ '"') (hslash : c ≠ '\\') :
    step (quoted depth) c = quoted depth := by
  simp only [step, hquote, hslash, if_false]

private theorem hexValue_plain {h1 h2 h3 h4 : Char} {n : ℕ} (h : hexValue h1 h2 h3 h4 = some n)
    (depth : ℕ) : run (quoted depth) [h1, h2, h3, h4] = quoted depth := by
  simp only [hexValue, Option.bind_eq_bind, Option.bind_eq_some_iff] at h
  obtain ⟨d1, hd1, d2, hd2, d3, hd3, d4, hd4, -⟩ := h
  have hstep : ∀ {c : Char} {m : ℕ}, hexDigitValue c = some m →
      step (quoted depth) c = quoted depth := fun hm =>
    step_quoted depth (isHex_plain hm).1 (isHex_plain hm).2
  simp only [run_cons, run_nil, hstep hd1, hstep hd2, hstep hd3, hstep hd4]

private theorem uses_parseString (depth : ℕ) (s : List Char) {text rest : List Char}
    (h : parseString s = some (text, rest)) : Uses (quoted depth) s rest (closed depth) := by
  induction s using parseString.induct generalizing text rest with
  | case1 => cases h
  | case2 s =>
    rw [parseString.eq_def] at h
    obtain ⟨-, rfl⟩ := Prod.mk.inj (Option.some.inj h)
    exact Uses.cons (Uses.refl _ _)
  | case3 h1 h2 h3 h4 s n hhex _ ih =>
    have hread : ((parseString s).map fun x => (ofHex n :: x.1, x.2)) = some (text, rest) := by
      rw [← h, parseString.eq_def ('\\' :: _)]
      simp only [hhex]
      rfl
    obtain ⟨x, hx, heq⟩ := Option.map_eq_some_iff.mp hread
    obtain ⟨-, rfl⟩ := Prod.mk.inj heq
    refine Uses.cons (Uses.cons ?_)
    exact Uses.trans ⟨[h1, h2, h3, h4], rfl, hexValue_plain hhex depth⟩ (ih hx)
  | case4 h1 h2 h3 h4 s hhex =>
    rw [parseString.eq_def] at h
    simp only [hhex] at h
    cases h
  | case5 e s hu e' he _ ih =>
    have hread : ((parseString s).map fun x => (e' :: x.1, x.2)) = some (text, rest) := by
      rw [← h, parseString.eq_def ('\\' :: _)]
      simp only [he]
      rfl
    obtain ⟨x, hx, heq⟩ := Option.map_eq_some_iff.mp hread
    obtain ⟨-, rfl⟩ := Prod.mk.inj heq
    exact Uses.cons (Uses.cons (ih hx))
  | case6 e s hu he =>
    rw [parseString.eq_def] at h
    simp only [he] at h
    cases h
  | case7 => cases h
  | case8 c s hquote hslash hcontrol =>
    rw [parseString.eq_def] at h
    simp only [hquote, hslash, hcontrol, if_true, if_false] at h
    cases h
  | case9 c s hquote hslash hcontrol ih =>
    rw [parseString.eq_def] at h
    simp only [hquote, hslash, hcontrol, if_false, Option.map_eq_some_iff, Prod.mk.injEq] at h
    obtain ⟨x, hx, -, rfl⟩ := h
    refine Uses.cons ?_
    rw [step_quoted depth hquote hslash]
    exact ih hx

/-- The characters that mean nothing to the automaton outside strings. -/
def Inert (c : Char) : Prop := c ∉ ['"', '{', '[', '}', ']', ',', ':']

private theorem step_inert (depth : ℕ) {c : Char} (h : Inert c) :
    step (plain depth) c = plain depth := by
  simp only [Inert, List.mem_cons, List.not_mem_nil, or_false, not_or] at h
  obtain ⟨hquote, hopen, hbracket, hclose, hend, hcomma, hcolon⟩ := h
  simp only [step, hquote, hopen, hbracket, hclose, hend, hcomma, hcolon, or_self, if_false]

private theorem run_inert (depth : ℕ) {used : List Char} (h : ∀ c ∈ used, Inert c) :
    run (plain depth) used = plain depth := by
  induction used with
  | nil => rfl
  | cons c used ih =>
    rw [run_cons, step_inert depth (h c List.mem_cons_self)]
    exact ih fun d hd => h d (List.mem_cons_of_mem c hd)

private theorem inert_digit {c : Char} (h : c.isDigit = true) : Inert c := by
  intro hmem
  simp only [List.mem_cons, List.not_mem_nil, or_false] at hmem
  obtain rfl | rfl | rfl | rfl | rfl | rfl | rfl := hmem <;> exact absurd h (by decide)

private theorem uses_digits (depth : ℕ) (s : List Char) :
    Uses (plain depth) s (s.dropWhile Char.isDigit) (plain depth) :=
  ⟨s.takeWhile Char.isDigit, List.takeWhile_append_dropWhile.symm,
    run_inert depth fun _ hc => inert_digit (List.mem_takeWhile_imp hc)⟩

private theorem inert_literals : ∀ e ∈ literals, ∀ c ∈ e.1, Inert c := by
  intro e he
  simp only [literals, List.mem_cons, List.not_mem_nil, or_false] at he
  unfold Inert
  obtain rfl | rfl | rfl | rfl | rfl | rfl := he <;> simp

private theorem uses_parseLiteral (depth : ℕ) {s rest : List Char} {v : Json}
    (h : parseLiteral s = some (v, rest)) : Uses (plain depth) s rest (plain depth) := by
  obtain ⟨e, he, hfound⟩ := List.exists_of_findSome?_eq_some h
  split at hfound
  case isTrue hprefix =>
    obtain ⟨t, rfl⟩ := hprefix
    obtain ⟨-, rfl⟩ := Prod.mk.inj (Option.some.inj hfound)
    rw [List.drop_left]
    exact ⟨e.1, rfl, run_inert depth (inert_literals e he)⟩
  case isFalse => cases hfound

private theorem uses_wholePart (depth : ℕ) {s digits rest : List Char}
    (h : wholePart s = some (digits, rest)) : Uses (plain depth) s rest (plain depth) := by
  unfold wholePart at h
  cases s with
  | nil => cases h
  | cons c s =>
    simp only [] at h
    split_ifs at h with hzero hdigit
    · obtain ⟨-, rfl⟩ := Prod.mk.inj (Option.some.inj h)
      subst hzero
      exact Uses.cons (Uses.refl _ _)
    · obtain ⟨-, rfl⟩ := Prod.mk.inj (Option.some.inj h)
      refine Uses.cons ?_
      rw [step_inert depth (inert_digit hdigit)]
      exact uses_digits depth s

private theorem uses_fractionPart (depth : ℕ) (s : List Char) :
    Uses (plain depth) s (fractionPart s).2 (plain depth) := by
  unfold fractionPart
  split
  next rest =>
    split_ifs
    · exact Uses.refl _ _
    · exact Uses.cons (uses_digits depth rest)
  next => exact Uses.refl _ _

private theorem uses_signPart (depth : ℕ) (s : List Char) :
    Uses (plain depth) s (signPart s).2 (plain depth) := by
  cases s with
  | nil => exact Uses.refl _ _
  | cons c s =>
    unfold signPart
    simp only []
    split_ifs with hsign
    · obtain rfl | rfl := hsign <;> exact Uses.cons (Uses.refl _ _)
    · exact Uses.refl _ _

private theorem uses_exponentPart (depth : ℕ) (s : List Char) :
    Uses (plain depth) s (exponentPart s).2 (plain depth) := by
  cases s with
  | nil => exact Uses.refl _ _
  | cons c s =>
    unfold exponentPart
    simp only []
    split_ifs with hmark hdigits
    · exact Uses.refl _ _
    · have hrest := (uses_signPart depth s).trans (uses_digits depth (signPart s).2)
      obtain rfl | rfl := hmark <;> exact Uses.cons hrest
    · exact Uses.refl _ _

private theorem uses_parseUnsigned (depth : ℕ) {negative : Bool} {s rest : List Char} {v : Json}
    (h : parseUnsigned negative s = some (v, rest)) :
    Uses (plain depth) s rest (plain depth) := by
  obtain ⟨whole, hwhole, hv⟩ := Option.map_eq_some_iff.mp h
  have hused := (uses_wholePart depth hwhole).trans ((uses_fractionPart depth whole.2).trans
    (uses_exponentPart depth (fractionPart whole.2).2))
  simp only [] at hv
  split_ifs at hv <;> obtain ⟨-, rfl⟩ := Prod.mk.inj hv <;> exact hused

private theorem uses_parseNumber (depth : ℕ) {s rest : List Char} {v : Json}
    (h : parseNumber s = some (v, rest)) : Uses (plain depth) s rest (plain depth) := by
  unfold parseNumber at h
  split at h
  next => exact Uses.cons (uses_parseUnsigned depth h)
  next => exact uses_parseUnsigned depth h

/-- What is read of a value takes the automaton behind it. -/
def ReadsValue (value : List Char → Option (Json × List Char)) : Prop :=
  ∀ s v rest depth, value s = some (v, rest) →
    ∃ τ, At depth τ ∧ Uses (plain depth) s rest τ

/-- What is read of the other items or fields takes the automaton behind the closing bracket. -/
def ReadsMore {α : Type} (more : List Char → Option (α × List Char)) : Prop :=
  ∀ s x rest depth σ, At (depth + 1) σ → more s = some (x, rest) → Uses σ s rest (closed depth)

private theorem step_separator {depth : ℕ} {σ : Scan} (h : At (depth + 1) σ) {c : Char}
    (hc : c = ',' ∨ c = ':') : step σ c = plain (depth + 1) := by
  obtain rfl | rfl := h <;> obtain rfl | rfl := hc <;> rfl

private theorem step_close {depth : ℕ} {σ : Scan} (h : At (depth + 1) σ) {c : Char}
    (hc : c = '}' ∨ c = ']') : step σ c = closed depth := by
  obtain rfl | rfl := h <;> obtain rfl | rfl := hc <;> rfl

theorem ReadsValue.field {value : List Char → Option (Json × List Char)} (h : ReadsValue value)
    {s rest : List Char} {field : String × Json} (depth : ℕ)
    (hfield : parseField value s = some (field, rest)) :
    ∃ τ, At (depth + 1) τ ∧ Uses (plain (depth + 1)) s rest τ := by
  unfold parseField at hfield
  split at hfield
  next s =>
    simp only [Option.bind_eq_bind, Option.bind_eq_some_iff] at hfield
    obtain ⟨x, hkey, hrest⟩ := hfield
    split at hrest
    next t heq =>
      simp only [Option.bind_eq_some_iff] at hrest
      obtain ⟨y, hvalue, hdone⟩ := hrest
      obtain ⟨-, rfl⟩ := Prod.mk.inj (Option.some.inj hdone)
      obtain ⟨τ, hτ, hused⟩ := h _ _ _ (depth + 1) hvalue
      refine ⟨τ, hτ, Uses.cons ((uses_parseString (depth + 1) s hkey).trans ?_)⟩
      refine (uses_skipBlanks (.inr rfl) x.2).trans ?_
      rw [heq]
      refine Uses.cons ?_
      rw [step_separator (.inr rfl) (.inr rfl)]
      exact (uses_skipBlanks_plain _ t).trans hused
    next => cases hrest
  next => cases hfield

/-- One step of the reader, from the readers of the smaller texts. -/
private theorem readsItems_step {fuel : ℕ} (hvalue : ReadsValue (parseValue fuel))
    (hitems : ReadsMore (parseItems fuel)) : ReadsMore (parseItems (fuel + 1)) := by
  intro s items rest depth σ hσ h
  rw [parseItems.eq_def] at h
  simp only [] at h
  refine (uses_skipBlanks hσ s).trans ?_
  split at h
  next t heq =>
    obtain ⟨-, rfl⟩ := Prod.mk.inj (Option.some.inj h)
    rw [heq]
    refine Uses.cons ?_
    rw [step_close hσ (.inr rfl)]
    exact Uses.refl _ _
  next t heq =>
    simp only [Option.bind_eq_bind, Option.bind_eq_some_iff] at h
    obtain ⟨x, hx, y, hy, hdone⟩ := h
    obtain ⟨-, rfl⟩ := Prod.mk.inj (Option.some.inj hdone)
    obtain ⟨τ, hτ, hused⟩ := hvalue _ _ _ (depth + 1) hx
    rw [heq]
    refine Uses.cons ?_
    rw [step_separator hσ (.inl rfl)]
    exact (uses_skipBlanks_plain _ t).trans (hused.trans (hitems _ _ _ depth τ hτ hy))
  next => cases h

private theorem readsFields_step {fuel : ℕ} (hvalue : ReadsValue (parseValue fuel))
    (hfields : ReadsMore (parseFields fuel)) : ReadsMore (parseFields (fuel + 1)) := by
  intro s fields rest depth σ hσ h
  rw [parseFields.eq_def] at h
  simp only [] at h
  refine (uses_skipBlanks hσ s).trans ?_
  split at h
  next t heq =>
    obtain ⟨-, rfl⟩ := Prod.mk.inj (Option.some.inj h)
    rw [heq]
    refine Uses.cons ?_
    rw [step_close hσ (.inl rfl)]
    exact Uses.refl _ _
  next t heq =>
    simp only [Option.bind_eq_bind, Option.bind_eq_some_iff] at h
    obtain ⟨x, hx, y, hy, hdone⟩ := h
    obtain ⟨-, rfl⟩ := Prod.mk.inj (Option.some.inj hdone)
    obtain ⟨τ, hτ, hused⟩ := hvalue.field depth hx
    rw [heq]
    refine Uses.cons ?_
    rw [step_separator hσ (.inl rfl)]
    exact (uses_skipBlanks_plain _ t).trans (hused.trans (hfields _ _ _ depth τ hτ hy))
  next => cases h

private theorem readsObject_step {fuel : ℕ} (hvalue : ReadsValue (parseValue fuel))
    (hfields : ReadsMore (parseFields fuel)) {s rest : List Char} {v : Json} (depth : ℕ)
    (h : parseValue (fuel + 1) ('{' :: s) = some (v, rest)) :
    Uses (plain depth) ('{' :: s) rest (closed depth) := by
  rw [parseValue.eq_def] at h
  simp only [] at h
  rw [if_neg (by decide), if_pos trivial] at h
  refine Uses.cons ((uses_skipBlanks_plain (depth + 1) s).trans ?_)
  split at h
  next t heq =>
    obtain ⟨-, rfl⟩ := Prod.mk.inj (Option.some.inj h)
    rw [heq]
    exact Uses.cons (Uses.refl _ _)
  next =>
    simp only [Option.bind_eq_bind, Option.bind_eq_some_iff] at h
    obtain ⟨x, hx, y, hy, hdone⟩ := h
    obtain ⟨-, rfl⟩ := Prod.mk.inj (Option.some.inj hdone)
    obtain ⟨τ, hτ, hused⟩ := hvalue.field depth hx
    exact hused.trans (hfields _ _ _ depth τ hτ hy)

private theorem readsValue_step {fuel : ℕ} (hvalue : ReadsValue (parseValue fuel))
    (hitems : ReadsMore (parseItems fuel)) (hfields : ReadsMore (parseFields fuel)) :
    ReadsValue (parseValue (fuel + 1)) := by
  intro s v rest depth h
  cases s with
  | nil => cases h
  | cons c s =>
    by_cases hobject : c = '{'
    · subst hobject
      exact ⟨_, .inr rfl, readsObject_step hvalue hfields depth h⟩
    rw [parseValue.eq_def] at h
    simp only [] at h
    rw [if_neg hobject] at h
    split_ifs at h with hquote hbracket
    · obtain ⟨x, hx, hdone⟩ := Option.map_eq_some_iff.mp h
      obtain ⟨-, rfl⟩ := Prod.mk.inj hdone
      subst hquote
      exact ⟨_, .inr rfl, Uses.cons (uses_parseString depth s hx)⟩
    · subst hbracket
      refine ⟨_, .inr rfl, Uses.cons ((uses_skipBlanks_plain (depth + 1) s).trans ?_)⟩
      split at h
      next t heq =>
        obtain ⟨-, rfl⟩ := Prod.mk.inj (Option.some.inj h)
        rw [heq]
        exact Uses.cons (Uses.refl _ _)
      next =>
        simp only [Option.bind_eq_bind, Option.bind_eq_some_iff] at h
        obtain ⟨x, hx, y, hy, hdone⟩ := h
        obtain ⟨-, rfl⟩ := Prod.mk.inj (Option.some.inj hdone)
        obtain ⟨τ, hτ, hused⟩ := hvalue _ _ _ (depth + 1) hx
        exact hused.trans (hitems _ _ _ depth τ hτ hy)
    · rw [Option.or_eq_some_iff] at h
      obtain hliteral | ⟨-, hnumber⟩ := h
      · exact ⟨_, .inl rfl, uses_parseLiteral depth hliteral⟩
      · exact ⟨_, .inl rfl, uses_parseNumber depth hnumber⟩

theorem reads (fuel : ℕ) : ReadsValue (parseValue fuel) ∧ ReadsMore (parseItems fuel) ∧
    ReadsMore (parseFields fuel) := by
  induction fuel with
  | zero =>
    refine ⟨fun s v rest depth h => ?_, fun s x rest depth σ _ h => ?_,
      fun s x rest depth σ _ h => ?_⟩ <;> cases h
  | succ fuel ih =>
    obtain ⟨hvalue, hitems, hfields⟩ := ih
    exact ⟨readsValue_step hvalue hitems hfields, readsItems_step hvalue hitems,
      readsFields_step hvalue hfields⟩

theorem uses_loads {s : List Char} {v : Json} (h : loads s = some v) :
    ∃ τ, At 0 τ ∧ run (plain 0) s = τ := by
  unfold loads at h
  split at h
  next v' rest hparse =>
    split_ifs at h with hrest
    obtain ⟨τ, hτ, hused⟩ := (reads _).1 _ _ _ 0 hparse
    have hall := ((uses_skipBlanks (.inl rfl) s).trans hused).trans (uses_skipBlanks hτ rest)
    obtain ⟨used, hs, hrun⟩ := hall
    rw [hrest, List.append_nil] at hs
    exact ⟨τ, hτ, hs ▸ hrun⟩
  next => cases h

/-! Texts that were cut -/

/-- A bracket is open, or no value has such a front. -/
def Torn : Scan → Prop
  | plain (_ + 1) | quoted (_ + 1) | escaped (_ + 1) | closed (_ + 1) | dead => True
  | _ => False

theorem torn_unreadable {s : List Char} (h : Torn (run (plain 0) s)) : loads s = none := by
  cases hread : loads s with
  | none => rfl
  | some v =>
    obtain ⟨τ, hτ, hrun⟩ := uses_loads hread
    rw [hrun] at h
    obtain rfl | rfl := hτ <;> exact absurd h id

/-- Only the bracket that closes everything ends the tear. -/
theorem Torn.step {σ : Scan} (h : Torn σ) (c : Char) : Torn (step σ c) ∨ step σ c = closed 0 := by
  cases σ with
  | plain depth =>
    cases depth with
    | zero => exact absurd h id
    | succ depth =>
      simp only [Scan.step, separate]
      split_ifs
      · exact .inl trivial
      · exact .inl trivial
      · cases depth
        · exact .inr rfl
        · exact .inl trivial
      · exact .inl trivial
      · exact .inl trivial
  | quoted depth =>
    cases depth with
    | zero => exact absurd h id
    | succ depth =>
      simp only [Scan.step]
      split_ifs <;> exact .inl trivial
  | escaped depth =>
    cases depth with
    | zero => exact absurd h id
    | succ depth => exact .inl trivial
  | closed depth =>
    cases depth with
    | zero => exact absurd h id
    | succ depth =>
      simp only [Scan.step, separate]
      split_ifs
      · exact .inl trivial
      · cases depth
        · exact .inr rfl
        · exact .inl trivial
      · exact .inl trivial
      · exact .inl trivial
  | dead => exact .inl trivial

private theorem step_closed_zero (c : Char) :
    step (closed 0) c = if isBlank c then closed 0 else dead := by
  simp only [step, separate]
  split_ifs <;> rfl

private theorem run_closed_zero (s : List Char) :
    run (closed 0) s = if s.all isBlank then closed 0 else dead := by
  induction s with
  | nil => rfl
  | cons c s ih =>
    rw [run_cons, step_closed_zero]
    cases hc : isBlank c with
    | false => simp [hc]
    | true => simp [hc, ih]

theorem Torn.run {σ : Scan} (h : Torn σ) (s : List Char) :
    Torn (run σ s) ∨ ∃ s₁ s₂, s = s₁ ++ s₂ ∧ Scan.run σ s₁ = closed 0 := by
  induction s generalizing σ with
  | nil => exact .inl h
  | cons c s ih =>
    obtain htorn | hclosed := h.step c
    · obtain hend | ⟨s₁, s₂, rfl, hclosed⟩ := ih htorn
      · exact .inl hend
      · exact .inr ⟨c :: s₁, s₂, rfl, hclosed⟩
    · exact .inr ⟨[c], s, rfl, hclosed⟩

private theorem encodeFields_last (fields : List (String × Json)) :
    ∃ s, encodeFields fields = s ++ ['}'] := by
  induction fields with
  | nil => exact ⟨[], rfl⟩
  | cons field fields ih =>
    obtain ⟨key, value⟩ := field
    obtain ⟨s, hs⟩ := ih
    exact ⟨',' :: ' ' :: (quote key ++ ':' :: ' ' :: (encode value ++ s)), by
      simp only [encodeFields, hs, List.cons_append, List.append_assoc]⟩

theorem encode_object (key : String) (value : Json) (fields : List (String × Json)) :
    ∃ s, encode (obj ((key, value) :: fields)) =
      '{' :: '"' :: (key.toList.flatMap escape ++ s ++ ['}']) := by
  obtain ⟨s, hs⟩ := encodeFields_last fields
  exact ⟨'"' :: ':' :: ' ' :: (encode value ++ s), by
    simp only [encode, quote, hs, List.cons_append, List.append_assoc, List.nil_append]⟩

theorem run_encode {v : Json} (h : v.Exact) (depth : ℕ) :
    At depth (Scan.run (plain depth) (encode v)) := by
  have hread := (parse_encode (encode v).length).1 v h [] (fun c hc => by cases hc) le_rfl
  obtain ⟨τ, hτ, used, hs, hrun⟩ := (reads _).1 _ _ _ depth hread
  rw [List.append_nil, List.append_nil] at hs
  rw [hs, hrun]
  exact hτ

theorem torn_front {key : String} {value : Json} {fields : List (String × Json)}
    (h : (obj ((key, value) :: fields)).Exact) {p q : List Char} (hp : p ≠ []) (hq : q ≠ [])
    (hcut : encode (obj ((key, value) :: fields)) = p ++ q) : Torn (Scan.run (plain 0) p) := by
  obtain ⟨s, hs⟩ := encode_object key value fields
  cases p with
  | nil => exact absurd rfl hp
  | cons c p =>
    obtain rfl : c = '{' := by
      rw [hs, List.cons_append] at hcut
      exact (List.cons.inj hcut).1.symm
    have hopen : Torn (plain 1) := trivial
    obtain htorn | ⟨s₁, s₂, rfl, hclosed⟩ := hopen.run p
    · exact htorn
    · have hrun := run_encode h 0
      have hsplit : Scan.run (plain 0) (encode (obj ((key, value) :: fields))) =
          Scan.run (closed 0) (s₂ ++ q) := by
        rw [hcut, List.cons_append, List.append_assoc, run_cons, run_append]
        exact congrArg (fun σ => Scan.run σ (s₂ ++ q)) hclosed
      have hblanks : (s₂ ++ q).all isBlank = true := by
        rw [hsplit, run_closed_zero] at hrun
        split_ifs at hrun with hall
        · exact hall
        · obtain hdead | hdead := hrun <;> cases hdead
      have hlast : q.getLast? = some '}' := by
        have hend : (('{' :: (s₁ ++ s₂)) ++ q).getLast? = some '}' := by
          rw [← hcut, hs, ← List.cons_append, ← List.cons_append, List.getLast?_append]
          rfl
        rwa [List.getLast?_append_of_ne_nil _ hq] at hend
      have hblank := List.all_eq_true.mp hblanks '}'
        (List.mem_append_right s₂ (List.mem_of_getLast? hlast))
      exact absurd hblank (by decide)

theorem torn_newline {σ : Scan} (h : Torn σ) : Torn (Scan.run σ ['\n']) := by
  obtain depth | depth | depth | depth | _ := σ
  case dead => exact h
  all_goals cases depth <;> exact h

/-- A key whose first character goes on with no JSON text behind a string. -/
def KeyStart (key : String) : Prop :=
  ∃ c text, key.toList = c :: text ∧ escape c = [c] ∧ ∀ depth, step (closed depth) c = dead

/-- No front of `{"c…` closes the last bracket of a text that stops in a string or behind one. -/
private theorem front_ne_closed {σ : Scan} (hσ : Torn σ) (hplain : ∀ depth, σ ≠ plain depth)
    {c : Char}
    (hc : ∀ depth, step (closed depth) c = dead) {rest s₁ s₂ : List Char}
    (hcut : '{' :: '"' :: c :: rest = s₁ ++ s₂) : Scan.run σ s₁ ≠ closed 0 := by
  intro hclosed
  rcases s₁ with _ | ⟨c₁, _ | ⟨c₂, _ | ⟨c₃, s₁⟩⟩⟩
  all_goals
    simp only [List.nil_append, List.cons_append, List.cons.injEq] at hcut
    simp only [run_cons, run_nil] at hclosed
  · rw [hclosed] at hσ
    exact hσ
  · obtain ⟨rfl, -⟩ := hcut
    obtain depth | depth | depth | depth | _ := σ
    case plain => exact hplain depth rfl
    all_goals cases hclosed
  · obtain ⟨rfl, rfl, -⟩ := hcut
    obtain depth | depth | depth | depth | _ := σ
    case plain => exact hplain depth rfl
    all_goals
      cases hclosed
      try exact hσ
  · obtain ⟨rfl, rfl, rfl, -⟩ := hcut
    have hdead : step (step (step σ '{') '"') c = dead := by
      obtain depth | depth | depth | depth | _ := σ
      case plain => exact absurd rfl (hplain depth)
      case quoted => exact hc depth
      case escaped => exact hc depth
      all_goals rfl
    rw [hdead, run_dead] at hclosed
    cases hclosed

/-- No front of a written object mends a torn text. -/
theorem Torn.front {key : String} {value : Json} {fields : List (String × Json)}
    (h : (obj ((key, value) :: fields)).Exact) (hkey : KeyStart key) {σ : Scan} (hσ : Torn σ)
    {p q : List Char} (hcut : encode (obj ((key, value) :: fields)) = p ++ q) :
    Torn (Scan.run σ p) := by
  obtain htorn | ⟨s₁, s₂, rfl, hclosed⟩ := hσ.run p
  · exact htorn
  exfalso
  by_cases hplain : ∃ depth, σ = plain depth
  · obtain ⟨depth, rfl⟩ := hplain
    cases depth with
    | zero => exact hσ
    | succ depth =>
      have hrun := run_encode h (depth + 1)
      rw [hcut, List.append_assoc, run_append, hclosed, run_closed_zero] at hrun
      split_ifs at hrun <;> obtain hend | hend := hrun <;> cases hend
  · obtain ⟨c, text, htext, hescape, hc⟩ := hkey
    obtain ⟨s, hs⟩ := encode_object key value fields
    rw [hs, htext, List.flatMap_cons, hescape, List.append_assoc] at hcut
    exact front_ne_closed hσ (fun depth heq => hplain ⟨depth, heq⟩) hc
      (hcut.trans (List.append_assoc _ _ _)) hclosed

/-- A written object without its line end is torn by whatever object is written behind it. -/
theorem closed_front {key : String} {value : Json} {fields : List (String × Json)}
    {p q : List Char} (hp : p ≠ []) (hcut : encode (obj ((key, value) :: fields)) = p ++ q) :
    Torn (Scan.run (closed 0) p) := by
  obtain ⟨s, hs⟩ := encode_object key value fields
  cases p with
  | nil => exact absurd rfl hp
  | cons c p =>
    rw [hs, List.cons_append] at hcut
    obtain ⟨rfl, -⟩ := List.cons.inj hcut
    rw [run_closed_zero, List.all_cons, show isBlank '{' = false from rfl, Bool.false_and,
      if_neg Bool.false_ne_true]
    exact trivial

theorem run_object {key : String} {value : Json} {fields : List (String × Json)}
    (h : (obj ((key, value) :: fields)).Exact) :
    Scan.run (plain 0) (encode (obj ((key, value) :: fields))) = closed 0 := by
  obtain ⟨s, hs⟩ := encode_object key value fields
  have hread := (parse_encode ((encode (obj ((key, value) :: fields))).length + 1)).1 _ h []
    (fun c hc => by cases hc) (Nat.le_succ _)
  rw [List.append_nil] at hread
  have hused : Uses (plain 0) (encode (obj ((key, value) :: fields))) [] (closed 0) := by
    rw [hs] at hread ⊢
    exact readsObject_step (reads _).1 (reads _).2.2 0 hread
  obtain ⟨used, heq, hrun⟩ := hused
  rw [List.append_nil] at heq
  rw [heq]
  exact hrun

end Scan

end QuantDataCenter.Lib.Json
