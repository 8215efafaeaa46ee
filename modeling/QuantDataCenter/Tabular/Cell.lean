import Mathlib.Data.Prod.Lex
import Mathlib.Data.List.Lex
import Mathlib.Algebra.Order.Field.Rat
import QuantDataCenter.Tabular.Text

/-!
Cells, rows and frames, and the pandas primitives that the coercion to a schema
rests on. A cell carries its kind; a column carries the dtype that decides which
branch of a coercion is taken. Missing values (`None`, `NaN`, `NaT`, `NA`) are one
cell, and floats are the rationals they stand for.
-/

set_option autoImplicit false
set_option relaxedAutoImplicit false

namespace QuantDataCenter.Tabular

/-- A value in a frame: dates are counted in days, timestamps in nanoseconds. -/
inductive Cell where
  | null
  | bool (b : Bool)
  | int (n : Int)
  | real (x : ℚ)
  | text (s : String)
  | date (day : Int)
  | stamp (ns : Int)
  deriving DecidableEq, Repr

def nsPerDay : Int := 86400000000000

def nsPerMs : Int := 1000000

/-- The order of the values of one column, missing values last. -/
abbrev Rank := ℕ ×ₗ ℚ ×ₗ String

def Cell.rank : Cell → Rank
  | .null => toLex (1, toLex (0, ""))
  | .bool b => toLex (0, toLex (if b then 1 else 0, ""))
  | .int n => toLex (0, toLex ((n : ℚ), ""))
  | .real x => toLex (0, toLex (x, ""))
  | .text s => toLex (0, toLex (0, s))
  | .date day => toLex (0, toLex ((day : ℚ), ""))
  | .stamp ns => toLex (0, toLex ((ns : ℚ), ""))

/-- The dtypes a column can have, as far as the code tells them apart. -/
inductive Dtype where
  | object
  | string
  | bool
  | boolean
  | integer
  | floating
  | datetime
  deriving DecidableEq, Repr

inductive FieldType where
  | string
  | date32
  | timestamp
  | int64
  | float64
  | bool
  deriving DecidableEq, Repr

structure Field where
  name : String
  type : FieldType
  deriving DecidableEq, Repr

abbrev Schema := List Field

def fieldNames (schema : Schema) : List String := schema.map Field.name

/-- A row gives every column a cell; columns a frame does not have read as missing. -/
abbrev Row := String → Cell

structure Frame where
  columns : List String
  dtype : String → Dtype
  rows : List Row

/-- What a write or a read can raise. -/
inductive StoreError where
  | valueError (message : String)
  | validationError (message : String)
  | typeError (message : String)
  | attributeError (message : String)
  | permissionError
  | osError
  | fileNotFound
  | other
  deriving DecidableEq, Repr

/-- The pandas functions the coercion calls, with what they do on values that
need no parsing. -/
structure Pandas extends Unicode where
  /-- `pd.to_datetime(..., errors="coerce")` on a value that is present. -/
  toDatetime : Cell → Option Int
  /-- `pd.to_numeric(..., errors="coerce")` on a value that is present. -/
  toNumeric : Cell → Option ℚ
  /-- `str` of a number, a date or a timestamp. -/
  repr : Cell → String
  /-- The dtype of a column that is written to Parquet and read back. -/
  readDtype : FieldType → Dtype
  /-- The dtype of a column after `pd.concat`. -/
  concatDtype : Dtype → Dtype → Dtype
  toDatetime_date : ∀ day, toDatetime (.date day) = some (day * nsPerDay)
  toDatetime_stamp : ∀ ns, toDatetime (.stamp ns) = some ns
  toNumeric_int : ∀ n, toNumeric (.int n) = some (n : ℚ)
  toNumeric_real : ∀ x, toNumeric (.real x) = some x
  repr_date_injective : Function.Injective fun day => repr (.date day)
  repr_date_strip : ∀ day, strip (repr (.date day)) = repr (.date day)

namespace Pandas

variable (p : Pandas)

/-- `str(value)`, and a value under `astype("string")`. -/
def str : Cell → String
  | .text s => s
  | .bool true => "True"
  | .bool false => "False"
  | .null => "<NA>"
  | c => p.repr c

end Pandas

def nullLikeValues : List String := ["", "None", "none", "NaN", "nan"]

/-- `_replace_null_like` on one cell of a column. -/
def replaceNullLike (dtype : Dtype) (c : Cell) : Cell :=
  match dtype, c with
  | .object, .text s | .string, .text s => if s ∈ nullLikeValues then .null else .text s
  | _, c => c

def boolWord (s : String) : Cell :=
  if s ∈ ["true", "t", "1", "yes"] then .bool true
  else if s ∈ ["false", "f", "0", "no"] then .bool false
  else .null

/-- `astype("Int64")` on a number: only whole numbers of 64 bits can be cast. -/
def castInt64 (x : ℚ) : Except StoreError Cell :=
  if x.den = 1 ∧ -9223372036854775808 ≤ x.num ∧ x.num ≤ 9223372036854775807 then .ok (.int x.num)
  else .error (.typeError "cannot safely cast non-equivalent float64 to int64")

/-- `_coerce_series` on one cell of a column. -/
def coerceCell (p : Pandas) (dtype : Dtype) (type : FieldType) (c : Cell) :
    Except StoreError Cell :=
  match type with
  | .date32 =>
    match replaceNullLike dtype c with
    | .null => .ok .null
    | v => .ok (match p.toDatetime v with
      | none => .null
      | some ns => .date (ns / nsPerDay))
  | .timestamp =>
    match replaceNullLike dtype c with
    | .null => .ok .null
    | .stamp ns => .ok (.stamp (ns / nsPerMs * nsPerMs))
    | v => .ok (match p.toDatetime v with
      | none => .null
      | some ns => .stamp (ns / nsPerMs * nsPerMs))
  | .int64 =>
    if dtype = .integer then .ok c
    else match replaceNullLike dtype c with
      | .null => .ok .null
      | v => match p.toNumeric v with
        | none => .ok .null
        | some x => castInt64 x
  | .bool =>
    if dtype = .bool ∨ dtype = .boolean then .ok c
    else match replaceNullLike dtype c with
      | .null => .ok .null
      | v => .ok (boolWord (p.lower (strip (p.str v))))
  | .float64 =>
    if dtype = .floating then .ok c
    else if dtype = .integer then .ok (match c with
      | .int n => .real n
      | v => v)
    else match replaceNullLike dtype c with
      | .null => .ok .null
      | v => .ok (match p.toNumeric v with
        | none => .null
        | some x => .real x)
  | .string =>
    if dtype = .string ∨ dtype = .object then .ok c
    else match c with
      | .null => .ok .null
      | v => .ok (.text (p.str v))

/-- What `pa.Table.from_pandas` accepts in a column of the type. -/
def FieldType.accepts : FieldType → Cell → Bool
  | _, .null => true
  | .string, .text _ => true
  | .date32, .date _ => true
  | .timestamp, .stamp ns => ns % nsPerMs == 0
  | .int64, .int n => -9223372036854775808 ≤ n && n ≤ 9223372036854775807
  | .float64, .real _ => true
  | .bool, .bool _ => true
  | _, _ => false

theorem eq_of_rank_eq {type : FieldType} {c c' : Cell} (h : type.accepts c = true)
    (h' : type.accepts c' = true) (hrank : c.rank = c'.rank) : c = c' := by
  cases type <;> cases c <;> cases c' <;> simp_all [FieldType.accepts, Cell.rank]
  case bool.bool.bool b b' => cases b <;> cases b' <;> simp_all

private theorem boolWord_str (p : Pandas) (b : Bool) :
    boolWord (p.lower (strip (p.str (.bool b)))) = .bool b := by
  cases b with
  | false =>
    have hlower : p.lower (strip "False") = "false" := by
      rw [show strip "False" = "False" by decide +kernel, p.lower_ascii (by decide +kernel)]
      decide +kernel
    rw [Pandas.str, hlower]
    decide
  | true =>
    have hlower : p.lower (strip "True") = "true" := by
      rw [show strip "True" = "True" by decide +kernel, p.lower_ascii (by decide +kernel)]
      decide +kernel
    rw [Pandas.str, hlower]
    decide

/-- A value of the column's type is left alone, whatever the dtype of its column. -/
theorem coerceCell_of_accepts (p : Pandas) (dtype : Dtype) {type : FieldType} {c : Cell}
    (h : type.accepts c = true) : coerceCell p dtype type c = .ok c := by
  cases c with
  | null => cases type <;> cases dtype <;> simp [coerceCell, replaceNullLike]
  | bool b =>
    cases type <;> simp [FieldType.accepts] at h
    cases dtype <;> simp [coerceCell, replaceNullLike, boolWord_str]
  | int n =>
    cases type <;> simp [FieldType.accepts] at h
    have hcast : castInt64 (n : ℚ) = .ok (.int n) := by simp [castInt64, h.1, h.2]
    cases dtype <;> simp [coerceCell, replaceNullLike, p.toNumeric_int, hcast]
  | real x =>
    cases type <;> simp [FieldType.accepts] at h
    cases dtype <;> simp [coerceCell, replaceNullLike, p.toNumeric_real]
  | text s =>
    cases type <;> simp [FieldType.accepts] at h
    cases dtype <;> simp [coerceCell, Pandas.str]
  | date day =>
    cases type <;> simp [FieldType.accepts] at h
    have hday : day * nsPerDay / nsPerDay = day := Int.mul_ediv_cancel day (by decide)
    cases dtype <;> simp [coerceCell, replaceNullLike, p.toDatetime_date, hday]
  | stamp ns =>
    cases type with
    | timestamp =>
      simp only [FieldType.accepts, beq_iff_eq] at h
      have hms : ns / nsPerMs * nsPerMs = ns := Int.ediv_mul_cancel (Int.dvd_of_emod_eq_zero h)
      cases dtype <;> simp [coerceCell, replaceNullLike, hms]
    | _ => simp [FieldType.accepts] at h

/-! A concrete instance: numbers, dates and timestamps are taken as they are, text
does not parse, and two days of January 2024 print as they do. -/

private def isoDay (day : Int) : List Char :=
  if day = 19724 then "2024-01-02".toList
  else if day = 19725 then "2024-01-03".toList
  else (if day < 0 then '-' else '+') :: List.replicate day.natAbs 'd'

private theorem isoDay_injective : Function.Injective isoDay := by
  have hlist : ∀ (a b : Char) (m n : ℕ), a :: List.replicate m 'd' = b :: List.replicate n 'd' →
      a = b ∧ m = n := by
    intro a b m n h
    obtain ⟨hab, hrest⟩ := List.cons.inj h
    exact ⟨hab, by simpa using congrArg List.length hrest⟩
  have hsign : ∀ day : Int, (if day < 0 then '-' else '+') ≠ '2' := by
    intro day
    split <;> decide
  have hfirst : "2024-01-02".toList = '2' :: "024-01-02".toList := by decide
  have hsecond : "2024-01-03".toList = '2' :: "024-01-03".toList := by decide
  have hdiffer : "2024-01-02".toList ≠ "2024-01-03".toList := by decide
  intro a b h
  unfold isoDay at h
  by_cases ha : a = 19724
  · by_cases hb : b = 19724
    · omega
    · rw [if_pos ha, if_neg hb] at h
      split at h
      · exact absurd h hdiffer
      · rw [hfirst] at h
        exact absurd (List.cons.inj h).1.symm (hsign b)
  · by_cases hb : b = 19724
    · rw [if_neg ha, if_pos hb] at h
      split at h
      · exact absurd h.symm hdiffer
      · rw [hfirst] at h
        exact absurd (List.cons.inj h).1 (hsign a)
    · rw [if_neg ha, if_neg hb] at h
      by_cases ha' : a = 19725
      · by_cases hb' : b = 19725
        · omega
        · rw [if_pos ha', if_neg hb', hsecond] at h
          exact absurd (List.cons.inj h).1.symm (hsign b)
      · by_cases hb' : b = 19725
        · rw [if_neg ha', if_pos hb', hsecond] at h
          exact absurd (List.cons.inj h).1 (hsign a)
        · rw [if_neg ha', if_neg hb'] at h
          obtain ⟨hchar, habs⟩ := hlist _ _ _ _ h
          split at hchar <;> split at hchar
          · omega
          · exact absurd hchar (by decide)
          · exact absurd hchar (by decide)
          · omega

private theorem isoDay_no_space (day : Int) : ∀ c ∈ isoDay day, isSpace c = false := by
  have hprinted : ∀ s ∈ ["2024-01-02", "2024-01-03"],
      (s.toList.all fun c => !isSpace c) = true := by decide
  have hchar : ∀ s ∈ ["2024-01-02", "2024-01-03"], ∀ c ∈ s.toList, isSpace c = false := by
    intro s hs c hc
    simpa using List.all_eq_true.mp (hprinted s hs) c hc
  unfold isoDay
  split
  · exact hchar _ (by simp)
  · split
    · exact hchar _ (by simp)
    · intro c hc
      rcases List.mem_cons.mp hc with rfl | hc
      · split <;> decide
      · rw [List.eq_of_mem_replicate hc]
        decide

def Pandas.plain : Pandas where
  lowerOther c := [c]
  upperOther c := [c]
  decimalOther _ := false
  digitOther _ := false
  toDatetime
    | .date day => some (day * nsPerDay)
    | .stamp ns => some ns
    | _ => none
  toNumeric
    | .int n => some n
    | .real x => some x
    | _ => none
  repr
    | .date day => String.ofList (isoDay day)
    | _ => ""
  readDtype
    | .string => .object
    | .date32 => .object
    | .timestamp => .datetime
    | .int64 => .integer
    | .float64 => .floating
    | .bool => .bool
  concatDtype a b := if a = b then a else .object
  toDatetime_date _ := rfl
  toDatetime_stamp _ := rfl
  toNumeric_int _ := rfl
  toNumeric_real _ := rfl
  repr_date_injective a b h := isoDay_injective (String.ofList_injective h)
  repr_date_strip day := strip_of_no_space fun c hc =>
    isoDay_no_space day c (by simpa using hc)

end QuantDataCenter.Tabular
