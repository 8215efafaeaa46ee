import Mathlib.Data.String.Basic
import Mathlib.Data.List.TakeDrop

/-!
The string methods the program calls. Blanks are the characters that
`str.strip` removes; the case of letters outside ASCII and the digits of other
scripts come from tables that are left open.
-/

set_option autoImplicit false
set_option relaxedAutoImplicit false

namespace QuantDataCenter.Tabular

/-- The tables of characters outside ASCII. -/
structure Unicode where
  lowerOther : Char → List Char
  upperOther : Char → List Char
  decimalOther : Char → Bool
  digitOther : Char → Bool

/-- `str.isspace` on one character. -/
def isSpace (c : Char) : Bool :=
  (9 ≤ c.toNat && c.toNat ≤ 13) || (28 ≤ c.toNat && c.toNat ≤ 32) || c.toNat == 133 ||
    c.toNat == 160 || c.toNat == 5760 || (8192 ≤ c.toNat && c.toNat ≤ 8202) ||
    c.toNat == 8232 || c.toNat == 8233 || c.toNat == 8239 || c.toNat == 8287 || c.toNat == 12288

def stripChars (l : List Char) : List Char :=
  ((l.dropWhile isSpace).reverse.dropWhile isSpace).reverse

/-- `str.strip()`. -/
def strip (s : String) : String := String.ofList (stripChars s.toList)

namespace Unicode

variable (u : Unicode)

/-- `str.lower()`. -/
def lower (s : String) : String :=
  String.ofList (s.toList.flatMap fun c => if c.toNat < 128 then [c.toLower] else u.lowerOther c)

/-- `str.upper()`. -/
def upper (s : String) : String :=
  String.ofList (s.toList.flatMap fun c => if c.toNat < 128 then [c.toUpper] else u.upperOther c)

/-- The class `\d` of the `re` module. -/
def isDecimal (c : Char) : Bool := if c.toNat < 128 then c.isDigit else u.decimalOther c

/-- `str.isdigit` on one character. -/
def isDigit (c : Char) : Bool := if c.toNat < 128 then c.isDigit else u.digitOther c

/-- A full match of `^\d{6}$`. -/
def sixDigits (l : List Char) : Bool := l.length == 6 && l.all u.isDecimal

/-- A full match of `^(SH|SZ|BJ)\.\d{6}$`. -/
def canonicalSecurityId (s : String) : Bool :=
  match s.toList with
  | a :: b :: '.' :: rest =>
    (String.ofList [a, b] == "SH" || String.ofList [a, b] == "SZ" || String.ofList [a, b] == "BJ") &&
      u.sixDigits rest
  | _ => false

private theorem flatMap_ascii {f : Char → Char} {other : Char → List Char} {l : List Char}
    (h : (l.all fun c => c.toNat < 128) = true) :
    (l.flatMap fun c => if c.toNat < 128 then [f c] else other c) = l.map f := by
  induction l with
  | nil => rfl
  | cons c l ih =>
    rw [List.all_cons, Bool.and_eq_true, decide_eq_true_eq] at h
    simp only [List.flatMap_cons, List.map_cons, if_pos h.1, ih h.2, List.singleton_append]

theorem lower_ascii {s : String} (h : (s.toList.all fun c => c.toNat < 128) = true) :
    u.lower s = String.ofList (s.toList.map Char.toLower) := by
  rw [lower, flatMap_ascii h]

theorem upper_ascii {s : String} (h : (s.toList.all fun c => c.toNat < 128) = true) :
    u.upper s = String.ofList (s.toList.map Char.toUpper) := by
  rw [upper, flatMap_ascii h]

end Unicode

private theorem dropWhile_eq_self {p : Char → Bool} {l : List Char} (h : ∀ c ∈ l, p c = false) :
    l.dropWhile p = l := by
  cases l with
  | nil => rfl
  | cons c l => simp [h c List.mem_cons_self]

theorem strip_of_no_space {s : String} (h : ∀ c ∈ s.toList, isSpace c = false) : strip s = s := by
  have hr : ∀ c ∈ s.toList.reverse, isSpace c = false := fun c hc => h c (List.mem_reverse.mp hc)
  simp [strip, stripChars, dropWhile_eq_self h, dropWhile_eq_self hr]

private theorem dropWhile_dropWhile (p : Char → Bool) (l : List Char) :
    (l.dropWhile p).dropWhile p = l.dropWhile p := by
  induction l with
  | nil => rfl
  | cons c l ih =>
    cases hc : p c with
    | true => simp [hc, ih]
    | false => simp [hc]

private theorem dropWhile_stripChars (l : List Char) :
    (stripChars l).dropWhile isSpace = stripChars l := by
  have hpre : stripChars l <+: l.dropWhile isSpace := by
    have hsuf := List.dropWhile_suffix (l := (l.dropWhile isSpace).reverse) isSpace
    have hrev := List.reverse_prefix.mpr hsuf
    rwa [List.reverse_reverse] at hrev
  cases hs : stripChars l with
  | nil => rfl
  | cons c rest =>
    obtain ⟨tail, htail⟩ := hpre
    rw [hs, List.cons_append] at htail
    have hfix := dropWhile_dropWhile isSpace l
    rw [← htail] at hfix
    cases hc : isSpace c with
    | false => simp [hc]
    | true =>
      rw [List.dropWhile_cons_of_pos hc] at hfix
      have hlen := (List.dropWhile_suffix (l := rest ++ tail) isSpace).length_le
      rw [hfix] at hlen
      simp at hlen

theorem strip_strip (s : String) : strip (strip s) = strip s := by
  have hfront := dropWhile_stripChars s.toList
  have hback : (stripChars s.toList).reverse.dropWhile isSpace = (stripChars s.toList).reverse := by
    simp [stripChars, dropWhile_dropWhile]
  simp only [strip, String.toList_ofList]
  congr 1
  rw [stripChars, hfront, hback, List.reverse_reverse]

theorem strip_append {pre s : String} (hpre : pre.toList.head?.map isSpace = some false)
    (hs : strip s = s) (hne : s ≠ "") : strip (pre ++ s) = pre ++ s := by
  obtain ⟨c, hhead, hc⟩ := Option.map_eq_some_iff.mp hpre
  obtain ⟨rest, hrest⟩ := List.head?_eq_some_iff.mp hhead
  have hcode : stripChars s.toList = s.toList := by
    have hlist := congrArg String.toList hs
    rwa [strip, String.toList_ofList] at hlist
  have hback : s.toList.reverse.dropWhile isSpace = s.toList.reverse := by
    rw [← hcode]
    simp [stripChars, dropWhile_dropWhile]
  have hreverse : s.toList.reverse ≠ [] := by simpa using hne
  obtain ⟨d, tail, hd⟩ := List.exists_cons_of_ne_nil hreverse
  have hlast : isSpace d = false := by
    rw [hd] at hback
    cases hspace : isSpace d with
    | false => rfl
    | true =>
      rw [List.dropWhile_cons_of_pos hspace] at hback
      have hlen := (List.dropWhile_suffix (l := tail) isSpace).length_le
      rw [hback] at hlen
      simp at hlen
  have hall : stripChars (pre ++ s).toList = (pre ++ s).toList := by
    rw [String.toList_append, stripChars, hrest, List.cons_append,
      List.dropWhile_cons_of_neg (by simp [hc]), ← List.cons_append, List.reverse_append, hd,
      List.cons_append, List.dropWhile_cons_of_neg (by simp [hlast]), ← List.cons_append, ← hd,
      ← List.reverse_append, List.reverse_reverse]
  rw [strip, hall, String.ofList_toList]

end QuantDataCenter.Tabular
