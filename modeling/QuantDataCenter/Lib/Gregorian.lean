import Mathlib.Data.List.Basic
import Mathlib.Tactic.Ring

/-!
The Gregorian calendar from year 1 to 9999: dates and their ordinals, the text of a date in ISO form
and the reading of such a text.
-/

set_option autoImplicit false
set_option relaxedAutoImplicit false

namespace QuantDataCenter.Lib.Gregorian

def isLeap (year : ℕ) : Bool := year % 4 == 0 && (year % 100 != 0 || year % 400 == 0)

def daysBeforeYear (year : ℕ) : ℕ :=
  365 * (year - 1) + (year - 1) / 4 - (year - 1) / 100 + (year - 1) / 400

def daysInMonth (leap : Bool) (month : ℕ) : ℕ :=
  [31, if leap then 29 else 28, 31, 30, 31, 30, 31, 31, 30, 31, 30, 31].getD (month - 1) 0

def daysBeforeMonth (leap : Bool) (month : ℕ) : ℕ :=
  ((List.range (month - 1)).map fun m => daysInMonth leap (m + 1)).sum

structure Date where
  year : ℕ
  month : ℕ
  day : ℕ
  year_mem : 1 ≤ year ∧ year ≤ 9999
  month_mem : 1 ≤ month ∧ month ≤ 12
  day_mem : 1 ≤ day ∧ day ≤ daysInMonth (isLeap year) month
  deriving DecidableEq

/-- The number of the day, which is 1 for the first day of year 1. -/
def Date.ordinal (date : Date) : ℕ :=
  daysBeforeYear date.year + daysBeforeMonth (isLeap date.year) date.month + date.day

def maxOrdinal : ℕ := 3652059

/-! From ordinals to dates -/

/-- The year of a day, counted from 0: cycles of 400, 100, 4 and 1 years are taken off. -/
def yearOf (n : ℕ) : ℕ :=
  let rest := n % 146097
  let centuries := min 3 (rest / 36524)
  let rest := rest - 36524 * centuries
  let years := min 3 (rest % 1461 / 365)
  400 * (n / 146097) + 100 * centuries + 4 * (rest / 1461) + years + 1

/-- The month of a day of the year, counted from 0. -/
def monthOf (leap : Bool) (n : ℕ) : ℕ :=
  ((List.range 12).filter fun m => daysBeforeMonth leap (m + 1) ≤ n).length

def daysInYear (leap : Bool) : ℕ := if leap then 366 else 365

private theorem yearOf_spec (n : ℕ) : 1 ≤ yearOf n ∧ daysBeforeYear (yearOf n) ≤ n ∧
    n < daysBeforeYear (yearOf n) + daysInYear (isLeap (yearOf n)) := by
  have hcycles := Nat.div_add_mod n 146097
  have hcycle := Nat.mod_lt n (show 0 < 146097 by decide)
  unfold yearOf
  simp only
  generalize n / 146097 = cycles at *
  generalize n % 146097 = rest at *
  obtain ⟨b, hb⟩ : ∃ b, b = min 3 (rest / 36524) := ⟨_, rfl⟩
  obtain ⟨r, hr⟩ : ∃ r, r = rest - 36524 * b := ⟨_, rfl⟩
  obtain ⟨c, hc⟩ : ∃ c, c = r / 1461 := ⟨_, rfl⟩
  obtain ⟨d, hd⟩ : ∃ d, d = min 3 (r % 1461 / 365) := ⟨_, rfl⟩
  rw [← hb, ← hr, ← hc, ← hd]
  have hb3 : b ≤ 3 := by omega
  have hr1 : r ≤ 36524 ∧ (b < 3 → r < 36524) := by omega
  have hc24 : c ≤ 24 := by omega
  have hd3 : d ≤ 3 := by omega
  obtain ⟨s, hs⟩ : ∃ s, s = r % 1461 - 365 * d := ⟨_, rfl⟩
  have hs1 : s ≤ 365 ∧ (d < 3 → s < 365) := by omega
  have hbefore : daysBeforeYear (400 * cycles + 100 * b + 4 * c + d + 1) =
      146097 * cycles + 36524 * b + 1461 * c + 365 * d := by
    unfold daysBeforeYear
    omega
  have hn : n = 146097 * cycles + 36524 * b + 1461 * c + 365 * d + s := by omega
  refine ⟨by omega, by omega, ?_⟩
  rw [hbefore]
  unfold daysInYear isLeap
  by_cases hlast : s = 365
  · -- the last day of a leap year
    have hleap : ((400 * cycles + 100 * b + 4 * c + d + 1) % 4 == 0 &&
        ((400 * cycles + 100 * b + 4 * c + d + 1) % 100 != 0 ||
          (400 * cycles + 100 * b + 4 * c + d + 1) % 400 == 0)) = true := by
      have hd : d = 3 := by omega
      simp only [Bool.and_eq_true, Bool.or_eq_true, beq_iff_eq, bne_iff_ne]
      omega
    rw [if_pos hleap]
    omega
  · split <;> omega

private theorem monthOf_spec : ∀ leap : Bool, ∀ n < daysInYear leap,
    (1 ≤ monthOf leap n ∧ monthOf leap n ≤ 12) ∧ daysBeforeMonth leap (monthOf leap n) ≤ n ∧
      n < daysBeforeMonth leap (monthOf leap n) + daysInMonth leap (monthOf leap n) := by
  decide +kernel

/-- The day of the year, counted from 0. -/
def dayOfYear (n : ℕ) : ℕ := n - 1 - daysBeforeYear (yearOf (n - 1))

private theorem dayOfYear_lt (n : ℕ) : dayOfYear n < daysInYear (isLeap (yearOf (n - 1))) := by
  have hyear := yearOf_spec (n - 1)
  unfold dayOfYear
  omega

private theorem dayOfMonth_le {leap : Bool} {n : ℕ} (hn : n < daysInYear leap) :
    n - daysBeforeMonth leap (monthOf leap n) + 1 ≤ daysInMonth leap (monthOf leap n) := by
  have hmonth := (monthOf_spec leap n hn).2
  omega

private theorem yearOf_le {n : ℕ} (hn : n ≤ maxOrdinal) : yearOf (n - 1) ≤ 9999 := by
  have hyear := yearOf_spec (n - 1)
  have hbefore : daysBeforeYear (yearOf (n - 1)) ≤ 3652058 := by
    unfold maxOrdinal at hn
    omega
  unfold daysBeforeYear at hbefore
  omega

def ofOrdinal (n : ℕ) (hn : n ≤ maxOrdinal) : Date :=
  let leap := isLeap (yearOf (n - 1))
  let month := monthOf leap (dayOfYear n)
  { year := yearOf (n - 1)
    month := month
    day := dayOfYear n - daysBeforeMonth leap month + 1
    year_mem := ⟨(yearOf_spec (n - 1)).1, yearOf_le hn⟩
    month_mem := (monthOf_spec leap (dayOfYear n) (dayOfYear_lt n)).1
    day_mem := ⟨Nat.le_add_left 1 _, dayOfMonth_le (dayOfYear_lt n)⟩ }

theorem ordinal_ofOrdinal {n : ℕ} (hpos : 1 ≤ n) (hn : n ≤ maxOrdinal) :
    (ofOrdinal n hn).ordinal = n := by
  have hyear := (yearOf_spec (n - 1)).2
  have hmonth := (monthOf_spec _ (dayOfYear n) (dayOfYear_lt n)).2
  have hday : dayOfYear n = n - 1 - daysBeforeYear (yearOf (n - 1)) := rfl
  unfold Date.ordinal ofOrdinal
  simp only
  omega

/-! Texts -/

def digits (width n : ℕ) : List Char :=
  match width with
  | 0 => []
  | width + 1 => digits width (n / 10) ++ [Nat.digitChar (n % 10)]

/-- `date.isoformat()`. -/
def Date.isoformat (date : Date) : String :=
  String.ofList (digits 4 date.year ++ '-' :: (digits 2 date.month ++ '-' :: digits 2 date.day))

/-- `int` of ASCII digits. -/
def number (l : List Char) : Option ℕ :=
  if l ≠ [] ∧ l.all Char.isDigit = true then
    some (l.foldl (fun n c => 10 * n + (c.toNat - 48)) 0)
  else none

def makeDate (year month day : ℕ) : Option Date :=
  if h : (1 ≤ year ∧ year ≤ 9999) ∧ (1 ≤ month ∧ month ≤ 12) ∧
      1 ≤ day ∧ day ≤ daysInMonth (isLeap year) month then
    some ⟨year, month, day, h.1, h.2.1, h.2.2⟩
  else none

/-- A day may have a blank for its first digit. -/
def dayText : List Char → List Char
  | [' ', c] => [c]
  | day => day

/-- `datetime.strptime(text, "%Y-%m-%d").date()` on ASCII text: four digits for the year and one or
two for month and day. -/
def strptime (text : String) : Option Date :=
  match text.toList.splitOn '-' with
  | [year, month, day] =>
    if year.length = 4 ∧ month.length ≤ 2 ∧ day.length ≤ 2 then
      (number year).bind fun y => (number month).bind fun m =>
        (number (dayText day)).bind fun d => makeDate y m d
    else none
  | _ => none

private theorem length_digits (width n : ℕ) : (digits width n).length = width := by
  induction width generalizing n with
  | zero => rfl
  | succ width ih => rw [digits, List.length_append, ih, List.length_singleton]

private theorem isDigit_of_mem_digits {width n : ℕ} {c : Char} (hc : c ∈ digits width n) :
    c.isDigit = true := by
  induction width generalizing n with
  | zero => cases hc
  | succ width ih =>
    rw [digits, List.mem_append, List.mem_singleton] at hc
    rcases hc with hc | rfl
    · exact ih hc
    · rw [Nat.isDigit_digitChar, decide_eq_true_eq]
      omega

private theorem foldl_digits (width n start : ℕ) :
    (digits width n).foldl (fun n c => 10 * n + (c.toNat - 48)) start =
      10 ^ width * start + n % 10 ^ width := by
  induction width generalizing n with
  | zero => simp [digits, Nat.mod_one]
  | succ width ih =>
    have hchar : (Nat.digitChar (n % 10)).toNat - 48 = n % 10 := by
      rw [Nat.toNat_digitChar_of_lt_ten (Nat.mod_lt n (by decide))]
      omega
    have hmod : n % 10 ^ (width + 1) = 10 * (n / 10 % 10 ^ width) + n % 10 := by
      rw [Nat.pow_succ, Nat.mul_comm (10 ^ width) 10, Nat.mod_mul]
      omega
    rw [digits, List.foldl_append, ih, List.foldl_cons, List.foldl_nil, hchar, hmod, Nat.pow_succ]
    ring

private theorem number_digits {width n : ℕ} (hwidth : 0 < width) (hn : n < 10 ^ width) :
    number (digits width n) = some n := by
  have hne : digits width n ≠ [] := by
    intro hnil
    have hlength := length_digits width n
    rw [hnil] at hlength
    exact absurd hlength hwidth.ne
  unfold number
  rw [if_pos ⟨hne, List.all_eq_true.mpr fun c hc => isDigit_of_mem_digits hc⟩, foldl_digits,
    Nat.mod_eq_of_lt hn, Nat.mul_zero, Nat.zero_add]

private theorem dash_not_mem_digits {width n : ℕ} : '-' ∉ digits width n := by
  intro hmem
  exact absurd (isDigit_of_mem_digits hmem) (by decide)

private theorem daysInMonth_le :
    ∀ leap : Bool, ∀ month ≤ 12, daysInMonth leap month ≤ 31 := by decide

theorem strptime_isoformat (date : Date) : strptime date.isoformat = some date := by
  have hyear := date.year_mem
  have hmonth := date.month_mem
  have hday := date.day_mem
  have hdays := daysInMonth_le (isLeap date.year) date.month hmonth.2
  have hsplit : date.isoformat.toList.splitOn '-' =
      [digits 4 date.year, digits 2 date.month, digits 2 date.day] := by
    rw [Date.isoformat, String.toList_ofList,
      List.splitOn_append_cons_self_of_not_mem dash_not_mem_digits,
      List.splitOn_append_cons_self_of_not_mem dash_not_mem_digits,
      List.splitOn_eq_singleton dash_not_mem_digits]
  have hdayText : dayText (digits 2 date.day) = digits 2 date.day := by
    unfold dayText
    split
    case h_1 c heq =>
      have hmem : ' ' ∈ digits 2 date.day := by
        rw [heq]
        exact List.mem_cons_self
      exact absurd (isDigit_of_mem_digits hmem) (by decide)
    case h_2 => rfl
  unfold strptime
  rw [hsplit]
  simp only
  rw [if_pos ⟨length_digits 4 _, (length_digits 2 _).le, (length_digits 2 _).le⟩, hdayText,
    number_digits (by decide) (by omega), number_digits (by decide) (by omega),
    number_digits (by decide) (by omega), Option.bind_some, Option.bind_some, Option.bind_some,
    makeDate, dif_pos ⟨hyear, hmonth, hday⟩]

/-! Days counted from 1970-01-01 -/

def IsDate (day : Int) : Prop := -719162 ≤ day ∧ day ≤ 2932896

instance (day : Int) : Decidable (IsDate day) := inferInstanceAs (Decidable (_ ∧ _))

def Date.toDay (date : Date) : Int := (date.ordinal : Int) - 719163

def dateOfDay (day : Int) : Option Date :=
  if h : IsDate day then
    some (ofOrdinal (day + 719163).toNat (by
      unfold IsDate at h
      unfold maxOrdinal
      omega))
  else none

/-- The text of a day; a number without a date has none. -/
def isoDay (day : Int) : String := ((dateOfDay day).map Date.isoformat).getD ""

def strptimeDay (text : String) : Option Int := (strptime text).map Date.toDay

theorem strptimeDay_isoDay {day : Int} (hday : IsDate day) : strptimeDay (isoDay day) = some day := by
  have hrange : 1 ≤ (day + 719163).toNat ∧ ((day + 719163).toNat : Int) = day + 719163 := by
    unfold IsDate at hday
    omega
  unfold strptimeDay isoDay dateOfDay
  rw [dif_pos hday, Option.map_some, Option.getD_some, strptime_isoformat, Option.map_some,
    Date.toDay, ordinal_ofOrdinal hrange.1, hrange.2]
  congr 1
  omega

theorem isoDay_ne_empty {day : Int} (hday : IsDate day) : isoDay day ≠ "" := by
  intro hempty
  have hread := strptimeDay_isoDay hday
  rw [hempty, show strptimeDay "" = none from rfl] at hread
  cases hread

end QuantDataCenter.Lib.Gregorian
