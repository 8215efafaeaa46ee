import Mathlib.Data.Int.Notation
import Mathlib.Data.List.Basic
import Mathlib.Data.List.TakeDrop
import Mathlib.Data.List.TakeWhile
import Mathlib.Tactic.SplitIfs

/-!
JSON texts as the `json` module writes and reads them: the writer without ASCII escapes, the reader
with its grammar, and that a written value is read back and stays on its line.
-/

set_option autoImplicit false
set_option relaxedAutoImplicit false

namespace QuantDataCenter.Lib

/-- A number with a fraction or an exponent, `NaN` and the infinities stay texts. -/
inductive Json where
  | null
  | bool (b : Bool)
  | int (n : ℤ)
  | real (text : List Char)
  | str (s : String)
  | arr (items : List Json)
  | obj (fields : List (String × Json))

namespace Json

/-! Writing -/

def hexDigit (n : ℕ) : Char := Nat.digitChar n

/-- `ESCAPE_DCT`, with `\u00XX` for the other control characters. -/
@[grind =] def escape (c : Char) : List Char :=
  if c = '"' then ['\\', '"']
  else if c = '\\' then ['\\', '\\']
  else if c = '\n' then ['\\', 'n']
  else if c = '\r' then ['\\', 'r']
  else if c = '\t' then ['\\', 't']
  else if c = '\x08' then ['\\', 'b']
  else if c = '\x0c' then ['\\', 'f']
  else if c.toNat < 32 then
    ['\\', 'u', '0', '0', hexDigit (c.toNat / 16), hexDigit (c.toNat % 16)]
  else [c]

@[grind =] def quote (s : String) : List Char := '"' :: (s.toList.flatMap escape ++ ['"'])

@[grind =] def intText : ℤ → List Char
  | .ofNat n => Nat.toDigits 10 n
  | .negSucc n => '-' :: Nat.toDigits 10 (n + 1)

mutual

/-- `json.dumps(value, ensure_ascii=False)`. -/
def encode : Json → List Char
  | null => ['n', 'u', 'l', 'l']
  | bool true => ['t', 'r', 'u', 'e']
  | bool false => ['f', 'a', 'l', 's', 'e']
  | int n => intText n
  | real text => text
  | str s => quote s
  | arr [] => ['[', ']']
  | arr (item :: items) => '[' :: (encode item ++ encodeItems items)
  | obj [] => ['{', '}']
  | obj ((key, value) :: fields) =>
    '{' :: (quote key ++ ':' :: ' ' :: (encode value ++ encodeFields fields))

def encodeItems : List Json → List Char
  | [] => [']']
  | item :: items => ',' :: ' ' :: (encode item ++ encodeItems items)

def encodeFields : List (String × Json) → List Char
  | [] => ['}']
  | (key, value) :: fields =>
    ',' :: ' ' :: (quote key ++ ':' :: ' ' :: (encode value ++ encodeFields fields))

end

/-! Reading -/

def isBlank (c : Char) : Bool := c == ' ' || c == '\t' || c == '\n' || c == '\r'

def skipBlanks (s : List Char) : List Char := s.dropWhile isBlank

def hexDigitValue (c : Char) : Option ℕ :=
  if c.isDigit then some (c.toNat - 48)
  else if 'a' ≤ c ∧ c ≤ 'f' then some (c.toNat - 87)
  else if 'A' ≤ c ∧ c ≤ 'F' then some (c.toNat - 55)
  else none

def hexValue (h1 h2 h3 h4 : Char) : Option ℕ := do
  let d1 ← hexDigitValue h1
  let d2 ← hexDigitValue h2
  let d3 ← hexDigitValue h3
  let d4 ← hexDigitValue h4
  some (4096 * d1 + 256 * d2 + 16 * d3 + d4)

/-- `BACKSLASH`. -/
def unescape (c : Char) : Option Char :=
  if c = '"' ∨ c = '\\' ∨ c = '/' then some c
  else if c = 'b' then some '\x08'
  else if c = 'f' then some '\x0c'
  else if c = 'n' then some '\n'
  else if c = 'r' then some '\r'
  else if c = 't' then some '\t'
  else none

/-- The character of `\uXXXX`; half of a surrogate pair is read as U+FFFD. -/
def ofHex (n : ℕ) : Char := if n.isValidChar then Char.ofNat n else '\uFFFD'

/-- The rest of a string behind its opening quote, and what follows it. -/
def parseString : List Char → Option (List Char × List Char)
  | [] => none
  | c :: rest =>
    if c = '"' then some ([], rest)
    else if c = '\\' then
      match rest with
      | 'u' :: h1 :: h2 :: h3 :: h4 :: rest =>
        match hexValue h1 h2 h3 h4 with
        | some n => (parseString rest).map fun x => (ofHex n :: x.1, x.2)
        | none => none
      | e :: rest =>
        match unescape e with
        | some e' => (parseString rest).map fun x => (e' :: x.1, x.2)
        | none => none
      | [] => none
    else if c.toNat < 32 then none
    else (parseString rest).map fun x => (c :: x.1, x.2)

def literals : List (List Char × Json) :=
  [("null".toList, null), ("true".toList, bool true), ("false".toList, bool false),
    ("NaN".toList, real "NaN".toList), ("Infinity".toList, real "Infinity".toList),
    ("-Infinity".toList, real "-Infinity".toList)]

def parseLiteral (s : List Char) : Option (Json × List Char) :=
  literals.findSome? fun e => if e.1 <+: s then some (e.2, s.drop e.1.length) else none

/-- `0|[1-9][0-9]*`. -/
def wholePart : List Char → Option (List Char × List Char)
  | [] => none
  | c :: rest =>
    if c = '0' then some (['0'], rest)
    else if c.isDigit then some (c :: rest.takeWhile Char.isDigit, rest.dropWhile Char.isDigit)
    else none

/-- `(\.[0-9]+)?`. -/
def fractionPart (s : List Char) : List Char × List Char :=
  match s with
  | '.' :: rest =>
    if rest.takeWhile Char.isDigit = [] then ([], s)
    else ('.' :: rest.takeWhile Char.isDigit, rest.dropWhile Char.isDigit)
  | _ => ([], s)

def signPart : List Char → List Char × List Char
  | [] => ([], [])
  | c :: rest => if c = '-' ∨ c = '+' then ([c], rest) else ([], c :: rest)

/-- `([eE][-+]?[0-9]+)?`. -/
def exponentPart (s : List Char) : List Char × List Char :=
  match s with
  | [] => ([], [])
  | c :: rest =>
    if c = 'e' ∨ c = 'E' then
      let signed := signPart rest
      if signed.2.takeWhile Char.isDigit = [] then ([], s)
      else (c :: (signed.1 ++ signed.2.takeWhile Char.isDigit), signed.2.dropWhile Char.isDigit)
    else ([], s)

/-- `NUMBER_RE`, behind the sign. -/
def parseUnsigned (negative : Bool) (s : List Char) : Option (Json × List Char) :=
  (wholePart s).map fun whole =>
    let fraction := fractionPart whole.2
    let exponent := exponentPart fraction.2
    let magnitude : ℕ := Nat.ofDigitChars 10 whole.1 0
    if fraction.1 = [] ∧ exponent.1 = [] then
      (int (if negative then -magnitude else magnitude), exponent.2)
    else
      (real ((if negative then ['-'] else []) ++ (whole.1 ++ (fraction.1 ++ exponent.1))),
        exponent.2)

def parseNumber : List Char → Option (Json × List Char)
  | '-' :: rest => parseUnsigned true rest
  | s => parseUnsigned false s

/-- A key, a colon and a value, with the reader of values given. -/
def parseField (value : List Char → Option (Json × List Char)) :
    List Char → Option ((String × Json) × List Char)
  | '"' :: s => do
    let (key, s) ← parseString s
    match skipBlanks s with
    | ':' :: s => do
      let (v, s) ← value (skipBlanks s)
      some ((String.ofList key, v), s)
    | _ => none
  | _ => none

mutual

/-- A value at the front of a text, and what follows it. -/
def parseValue : ℕ → List Char → Option (Json × List Char)
  | 0, _ => none
  | _ + 1, [] => none
  | fuel + 1, c :: rest =>
    if c = '"' then (parseString rest).map fun x => (str (String.ofList x.1), x.2)
    else if c = '{' then
      match skipBlanks rest with
      | '}' :: s => some (obj [], s)
      | s => do
        let (field, s) ← parseField (parseValue fuel) s
        let (fields, s) ← parseFields fuel s
        some (obj (field :: fields), s)
    else if c = '[' then
      match skipBlanks rest with
      | ']' :: s => some (arr [], s)
      | s => do
        let (item, s) ← parseValue fuel s
        let (items, s) ← parseItems fuel s
        some (arr (item :: items), s)
    else (parseLiteral (c :: rest)).or (parseNumber (c :: rest))

def parseItems : ℕ → List Char → Option (List Json × List Char)
  | 0, _ => none
  | fuel + 1, s =>
    match skipBlanks s with
    | ']' :: s => some ([], s)
    | ',' :: s => do
      let (item, s) ← parseValue fuel (skipBlanks s)
      let (items, s) ← parseItems fuel s
      some (item :: items, s)
    | _ => none

def parseFields : ℕ → List Char → Option (List (String × Json) × List Char)
  | 0, _ => none
  | fuel + 1, s =>
    match skipBlanks s with
    | '}' :: s => some ([], s)
    | ',' :: s => do
      let (field, s) ← parseField (parseValue fuel) (skipBlanks s)
      let (fields, s) ← parseFields fuel s
      some (field :: fields, s)
    | _ => none

end

/-- `json.loads`. -/
def loads (s : List Char) : Option Json :=
  match parseValue (s.length + 1) (skipBlanks s) with
  | some (v, rest) => if skipBlanks rest = [] then some v else none
  | none => none

/-! What was written is read again -/

private theorem skipBlanks_cons {c : Char} {s : List Char} (h : isBlank c = false) :
    skipBlanks (c :: s) = c :: s := by
  unfold skipBlanks
  rw [List.dropWhile_cons_of_neg (by simp [h])]

private theorem skipBlanks_space (s : List Char) : skipBlanks (' ' :: s) = skipBlanks s :=
  List.dropWhile_cons_of_pos (by decide)

private theorem hexValue_control : ∀ n < 32,
    hexValue '0' '0' (hexDigit (n / 16)) (hexDigit (n % 16)) = some n := by decide

private theorem ofHex_toNat (c : Char) : ofHex c.toNat = c := by
  unfold ofHex
  rw [if_pos (show c.toNat.isValidChar from c.valid), Char.ofNat_toNat]

private theorem parseString_escape (c : Char) (rest : List Char) :
    parseString (escape c ++ rest) = (parseString rest).map fun x => (c :: x.1, x.2) := by
  by_cases hnamed : c ∈ ['"', '\\', '\n', '\r', '\t', '\x08', '\x0c']
  · simp only [List.mem_cons, List.not_mem_nil, or_false] at hnamed
    obtain rfl | rfl | rfl | rfl | rfl | rfl | rfl := hnamed <;> rfl
  · simp only [List.mem_cons, List.not_mem_nil, or_false, not_or] at hnamed
    obtain ⟨hquote, hslash, hn, hr, ht, hb, hf⟩ := hnamed
    unfold escape
    simp only [hquote, hslash, hn, hr, ht, hb, hf, if_false]
    split_ifs with hcontrol
    · have hhex := hexValue_control c.toNat hcontrol
      show (match hexValue '0' '0' (hexDigit (c.toNat / 16)) (hexDigit (c.toNat % 16)) with
        | some n => (parseString rest).map fun x : List Char × List Char => (ofHex n :: x.1, x.2)
        | none => none) = _
      rw [hhex]
      simp only [ofHex_toNat]
    · rw [List.singleton_append, parseString.eq_def]
      simp only [hquote, hslash, hcontrol, if_false]

private theorem parseString_escapes (text rest : List Char) :
    parseString (text.flatMap escape ++ '"' :: rest) = some (text, rest) := by
  induction text with
  | nil =>
    rw [List.flatMap_nil, List.nil_append, parseString.eq_def]
    rfl
  | cons c text ih =>
    rw [List.flatMap_cons, List.append_assoc, parseString_escape, ih, Option.map_some]

private theorem parseString_quote (s : String) (rest : List Char) :
    parseString (s.toList.flatMap escape ++ ['"'] ++ rest) = some (s.toList, rest) := by
  rw [List.append_assoc, List.singleton_append, parseString_escapes]

/-- What may follow an integer: nothing that a number could go on with. -/
def Stops (s : List Char) : Prop :=
  ∀ c ∈ s.head?, c.isDigit = false ∧ c ≠ '.' ∧ c ≠ 'e' ∧ c ≠ 'E'

private theorem toDigits_head (n : ℕ) (hn : n ≠ 0) :
    ∃ c digits, Nat.toDigits 10 n = c :: digits ∧ c ≠ '0' := by
  induction n using Nat.strongRecOn with
  | _ n ih =>
    by_cases hsmall : n < 10
    · refine ⟨n.digitChar, [], Nat.toDigits_of_lt_base hsmall, ?_⟩
      have hdigit : ∀ m < 10, m ≠ 0 → m.digitChar ≠ '0' := by decide
      exact hdigit n hsmall hn
    · obtain ⟨c, digits, hdigits, hc⟩ := ih (n / 10) (by omega) (by omega)
      exact ⟨c, _, by rw [Nat.toDigits_of_base_le (by decide) (by omega), hdigits,
        List.cons_append], hc⟩

private theorem isDigit_toDigits {n : ℕ} {c : Char} (h : c ∈ Nat.toDigits 10 n) :
    c.isDigit = true :=
  Nat.isDigit_of_mem_toDigits (by decide) (by decide) h

private theorem wholePart_toDigits (n : ℕ) {rest : List Char} (hrest : Stops rest) :
    wholePart (Nat.toDigits 10 n ++ rest) = some (Nat.toDigits 10 n, rest) := by
  by_cases hn : n = 0
  · subst hn
    rfl
  · obtain ⟨c, digits, hdigits, hc⟩ := toDigits_head n hn
    have hall : ∀ d ∈ c :: digits, d.isDigit = true := fun d hd =>
      isDigit_toDigits (hdigits ▸ hd)
    have hstop : rest.takeWhile Char.isDigit = [] ∧ rest.dropWhile Char.isDigit = rest := by
      cases rest with
      | nil => exact ⟨rfl, rfl⟩
      | cons d rest =>
        have hd := (hrest d rfl).1
        exact ⟨List.takeWhile_cons_of_neg (by simp [hd]), List.dropWhile_cons_of_neg (by simp [hd])⟩
    have htail : ∀ d ∈ digits, d.isDigit = true := fun d hd => hall d (List.mem_cons_of_mem c hd)
    rw [hdigits, List.cons_append]
    unfold wholePart
    simp only []
    rw [if_neg hc, if_pos (hall c List.mem_cons_self), List.takeWhile_append_of_pos htail,
      List.dropWhile_append_of_pos htail, hstop.1, hstop.2, List.append_nil]

private theorem parseUnsigned_toDigits (negative : Bool) (n : ℕ) {rest : List Char}
    (hrest : Stops rest) :
    parseUnsigned negative (Nat.toDigits 10 n ++ rest) =
      some (int (if negative then -(n : ℤ) else n), rest) := by
  have hfraction : fractionPart rest = ([], rest) := by
    unfold fractionPart
    split
    · exact absurd rfl (hrest '.' rfl).2.1
    · rfl
  have hexponent : exponentPart rest = ([], rest) := by
    unfold exponentPart
    cases rest with
    | nil => rfl
    | cons c rest =>
      obtain ⟨-, -, he, hE⟩ := hrest c rfl
      simp only [he, hE, or_self, if_false]
  unfold parseUnsigned
  rw [wholePart_toDigits n hrest, Option.map_some]
  simp only [hfraction, hexponent, and_self, if_true, Nat.ofDigitChars_ten_toDigits]

private theorem intText_head (n : ℤ) : ∃ c s, intText n = c :: s ∧
    (c.isDigit = true ∨ c = '-' ∧ ∃ d t, s = d :: t ∧ d.isDigit = true) := by
  have hdigits : ∀ m : ℕ, ∃ c s, Nat.toDigits 10 m = c :: s ∧ c.isDigit = true := by
    intro m
    obtain ⟨c, s, hs⟩ := List.exists_cons_of_ne_nil (Nat.toDigits_ne_nil (n := m) (b := 10))
    exact ⟨c, s, hs, isDigit_toDigits (hs ▸ List.mem_cons_self)⟩
  cases n with
  | ofNat m =>
    obtain ⟨c, s, hs, hc⟩ := hdigits m
    exact ⟨c, s, hs, .inl hc⟩
  | negSucc m =>
    obtain ⟨c, s, hs, hc⟩ := hdigits (m + 1)
    exact ⟨'-', _, rfl, .inr ⟨rfl, c, s, hs, hc⟩⟩

private theorem parseNumber_intText (n : ℤ) {rest : List Char} (hrest : Stops rest) :
    parseNumber (intText n ++ rest) = some (int n, rest) := by
  cases n with
  | ofNat m =>
    have hunsigned : parseNumber (Nat.toDigits 10 m ++ rest) =
        parseUnsigned false (Nat.toDigits 10 m ++ rest) := by
      unfold parseNumber
      split
      next t heq =>
        obtain ⟨c, s, hs⟩ := List.exists_cons_of_ne_nil (Nat.toDigits_ne_nil (n := m) (b := 10))
        have hc := isDigit_toDigits (n := m) (hs ▸ List.mem_cons_self)
        rw [hs, List.cons_append] at heq
        obtain ⟨rfl, -⟩ := List.cons.inj heq
        exact absurd hc (by decide)
      next => rfl
    show parseNumber (Nat.toDigits 10 m ++ rest) = _
    rw [hunsigned, parseUnsigned_toDigits false _ hrest]
    rfl
  | negSucc m =>
    show parseUnsigned true (Nat.toDigits 10 (m + 1) ++ rest) = _
    rw [parseUnsigned_toDigits true _ hrest]
    rfl

mutual

/-- Without numbers that are kept as texts. -/
def Exact : Json → Prop
  | real _ => False
  | arr items => ExactItems items
  | obj fields => ExactFields fields
  | _ => True

def ExactItems : List Json → Prop
  | [] => True
  | item :: items => item.Exact ∧ ExactItems items

def ExactFields : List (String × Json) → Prop
  | [] => True
  | field :: fields => field.2.Exact ∧ ExactFields fields

end

private theorem encode_head {v : Json} (h : v.Exact) :
    ∃ c s, encode v = c :: s ∧ isBlank c = false ∧ c ≠ ']' := by
  cases v with
  | null => exact ⟨_, _, rfl, by decide, by decide⟩
  | bool b => cases b <;> exact ⟨_, _, rfl, by decide, by decide⟩
  | int n =>
    obtain ⟨c, s, hs, hc⟩ := intText_head n
    refine ⟨c, s, hs, ?_⟩
    obtain hdigit | ⟨rfl, -⟩ := hc
    · refine ⟨?_, fun hbracket => absurd (hbracket ▸ hdigit) (by decide)⟩
      cases hblank : isBlank c with
      | false => rfl
      | true =>
        simp only [isBlank, Bool.or_eq_true, beq_iff_eq] at hblank
        obtain ((rfl | rfl) | rfl) | rfl := hblank <;> exact absurd hdigit (by decide)
    · exact ⟨by decide, by decide⟩
  | real text => exact absurd h id
  | str s => exact ⟨_, _, rfl, by decide, by decide⟩
  | arr items => cases items <;> exact ⟨_, _, rfl, by decide, by decide⟩
  | obj fields => cases fields <;> exact ⟨_, _, rfl, by decide, by decide⟩

private theorem skipBlanks_encode {v : Json} (h : v.Exact) (rest : List Char) :
    skipBlanks (encode v ++ rest) = encode v ++ rest := by
  obtain ⟨c, s, hs, hc, -⟩ := encode_head h
  rw [hs, List.cons_append, skipBlanks_cons hc]

private theorem parseField_encode {value : List Char → Option (Json × List Char)} {v : Json}
    (h : v.Exact)
    (key : String) {rest : List Char} (hvalue : value (encode v ++ rest) = some (v, rest)) :
    parseField value (quote key ++ ':' :: ' ' :: (encode v ++ rest)) = some ((key, v), rest) := by
  unfold quote
  rw [List.cons_append, parseField, parseString_quote]
  simp only [Option.bind_eq_bind, Option.bind_some, skipBlanks_cons (show isBlank ':' = false from rfl),
    skipBlanks_space, skipBlanks_encode h, hvalue, String.ofList_toList]

private theorem parseLiteral_intText (n : ℤ) (rest : List Char) :
    parseLiteral (intText n ++ rest) = none := by
  obtain ⟨c, s, hs, hc⟩ := intText_head n
  rw [hs, List.cons_append]
  unfold parseLiteral
  rw [List.findSome?_eq_none_iff]
  intro e he
  rw [if_neg]
  intro hprefix
  have hhead : ∀ e ∈ literals, ∃ d t, e.1 = d :: t ∧ d.isDigit = false ∧
      (d = '-' → t = "Infinity".toList) := by
    intro e he
    simp only [literals, List.mem_cons, List.not_mem_nil, or_false] at he
    obtain rfl | rfl | rfl | rfl | rfl | rfl := he <;> exact ⟨_, _, rfl, by decide, by decide⟩
  obtain ⟨d, t, hd, hdigit, hminus⟩ := hhead e he
  rw [hd, List.cons_prefix_cons] at hprefix
  obtain ⟨rfl, htail⟩ := hprefix
  obtain hc | ⟨rfl, d, u, rfl, hd⟩ := hc
  · exact absurd hc (by simp [hdigit])
  · rw [hminus rfl] at htail
    obtain ⟨rfl, -⟩ := List.cons_prefix_cons.mp htail
    exact absurd hd (by decide)

private theorem stops_items (items : List Json) (rest : List Char) :
    Stops (encodeItems items ++ rest) := by
  cases items <;> intro c hc <;> cases hc <;> decide

private theorem stops_fields (fields : List (String × Json)) (rest : List Char) :
    Stops (encodeFields fields ++ rest) := by
  cases fields <;> intro c hc <;> cases hc <;> decide

private theorem parseValue_scalar {c : Char} {s : List Char} (fuel : ℕ) (hc : c ∉ ['"', '{', '[']) :
    parseValue (fuel + 1) (c :: s) = (parseLiteral (c :: s)).or (parseNumber (c :: s)) := by
  simp only [List.mem_cons, List.not_mem_nil, or_false, not_or] at hc
  rw [parseValue.eq_def]
  simp only [hc.1, hc.2.1, hc.2.2, if_false]

private theorem parseValue_quote (fuel : ℕ) (s : String) (rest : List Char) :
    parseValue (fuel + 1) (quote s ++ rest) = some (str s, rest) := by
  unfold quote
  rw [List.cons_append, parseValue.eq_def]
  simp only [if_true, parseString_quote, Option.map_some, String.ofList_toList]

private theorem parseValue_int (fuel : ℕ) (n : ℤ) {rest : List Char} (hrest : Stops rest) :
    parseValue (fuel + 1) (intText n ++ rest) = some (int n, rest) := by
  obtain ⟨c, s, hs, hc⟩ := intText_head n
  have hbracket : c ∉ ['"', '{', '['] := by
    intro hmem
    simp only [List.mem_cons, List.not_mem_nil, or_false] at hmem
    obtain hc | ⟨rfl, -⟩ := hc
    · obtain rfl | rfl | rfl := hmem <;> exact absurd hc (by decide)
    · exact absurd hmem (by decide)
  have hlist : intText n ++ rest = c :: (s ++ rest) := by rw [hs, List.cons_append]
  rw [hlist, parseValue_scalar fuel hbracket, ← hlist, parseLiteral_intText,
    parseNumber_intText n hrest, Option.none_or]

private theorem skipBlanks_quote (s : String) (rest : List Char) :
    skipBlanks (quote s ++ rest) = quote s ++ rest := by
  unfold quote
  rw [List.cons_append, skipBlanks_cons rfl]

private theorem parseValue_nil_arr (fuel : ℕ) (rest : List Char) :
    parseValue (fuel + 1) ('[' :: ']' :: rest) = some (arr [], rest) := rfl

private theorem parseValue_nil_obj (fuel : ℕ) (rest : List Char) :
    parseValue (fuel + 1) ('{' :: '}' :: rest) = some (obj [], rest) := rfl

private theorem parseValue_arr (fuel : ℕ) {item : Json} (h : item.Exact) (rest : List Char) :
    parseValue (fuel + 1) ('[' :: (encode item ++ rest)) =
      (parseValue fuel (encode item ++ rest)).bind fun x =>
        (parseItems fuel x.2).map fun y => (arr (x.1 :: y.1), y.2) := by
  obtain ⟨c, s, hs, hblank, hc⟩ := encode_head h
  rw [parseValue.eq_def]
  simp only [skipBlanks_encode h]
  rw [if_neg (by decide), if_neg (by decide), if_pos trivial, hs, List.cons_append]
  split
  next t heq => exact absurd (List.cons.inj heq).1 hc
  next =>
    cases parseValue fuel (c :: (s ++ rest)) with
    | none => rfl
    | some x => cases hitems : parseItems fuel x.2 <;> simp [hitems]

private theorem parseValue_obj (fuel : ℕ) (key : String) (rest : List Char) :
    parseValue (fuel + 1) ('{' :: (quote key ++ rest)) =
      (parseField (parseValue fuel) (quote key ++ rest)).bind fun x =>
        (parseFields fuel x.2).map fun y => (obj (x.1 :: y.1), y.2) := by
  rw [parseValue.eq_def]
  simp only [skipBlanks_quote]
  rw [if_neg (by decide), if_pos trivial]
  split
  next t heq =>
    unfold quote at heq
    exact absurd (List.cons.inj heq).1 (by decide)
  next =>
    cases parseField (parseValue fuel) (quote key ++ rest) with
    | none => rfl
    | some x => cases hfields : parseFields fuel x.2 <;> simp [hfields]

private theorem parseItems_nil (fuel : ℕ) (rest : List Char) :
    parseItems (fuel + 1) (']' :: rest) = some ([], rest) := rfl

private theorem parseItems_cons (fuel : ℕ) (rest : List Char) :
    parseItems (fuel + 1) (',' :: rest) =
      (parseValue fuel (skipBlanks rest)).bind fun x =>
        (parseItems fuel x.2).map fun y => (x.1 :: y.1, y.2) := by
  rw [parseItems.eq_def]
  simp only [skipBlanks_cons (show isBlank ',' = false from rfl)]
  cases parseValue fuel (skipBlanks rest) with
  | none => rfl
  | some x => cases hitems : parseItems fuel x.2 <;> simp [hitems]

private theorem parseFields_nil (fuel : ℕ) (rest : List Char) :
    parseFields (fuel + 1) ('}' :: rest) = some ([], rest) := rfl

private theorem parseFields_cons (fuel : ℕ) (rest : List Char) :
    parseFields (fuel + 1) (',' :: rest) =
      (parseField (parseValue fuel) (skipBlanks rest)).bind fun x =>
        (parseFields fuel x.2).map fun y => (x.1 :: y.1, y.2) := by
  rw [parseFields.eq_def]
  simp only [skipBlanks_cons (show isBlank ',' = false from rfl)]
  cases parseField (parseValue fuel) (skipBlanks rest) with
  | none => rfl
  | some x => cases hfields : parseFields fuel x.2 <;> simp [hfields]

/-- With fuel for every character, the reader gets back what was written. -/
theorem parse_encode (fuel : ℕ) :
    (∀ v : Json, v.Exact → ∀ rest, Stops rest → (encode v).length ≤ fuel →
      parseValue fuel (encode v ++ rest) = some (v, rest)) ∧
    (∀ items, ExactItems items → ∀ rest, (encodeItems items).length ≤ fuel →
      parseItems fuel (encodeItems items ++ rest) = some (items, rest)) ∧
    (∀ fields, ExactFields fields → ∀ rest, (encodeFields fields).length ≤ fuel →
      parseFields fuel (encodeFields fields ++ rest) = some (fields, rest)) := by
  induction fuel with
  | zero =>
    refine ⟨fun v hv rest _ hlen => ?_, fun items _ rest hlen => ?_, fun fields _ rest hlen => ?_⟩
    · obtain ⟨c, s, hs, -⟩ := encode_head hv
      rw [hs] at hlen
      cases hlen
    · cases items <;> cases hlen
    · cases fields <;> cases hlen
  | succ fuel ih =>
    obtain ⟨ihValue, ihItems, ihFields⟩ := ih
    refine ⟨fun v hv rest hrest hlen => ?_, fun items hitems rest hlen => ?_,
      fun fields hfields rest hlen => ?_⟩
    · cases v with
      | null => exact parseValue_scalar fuel (by decide)
      | bool b => cases b <;> exact parseValue_scalar fuel (by decide)
      | int n => exact parseValue_int fuel n hrest
      | real text => exact absurd hv id
      | str s => exact parseValue_quote fuel s rest
      | arr items =>
        cases items with
        | nil => rw [encode, List.cons_append, List.cons_append, List.nil_append, parseValue_nil_arr]
        | cons item items =>
          obtain ⟨hitem, hitems⟩ := hv
          simp only [encode, List.length_cons, List.length_append] at hlen
          rw [encode, List.cons_append, List.append_assoc, parseValue_arr fuel hitem,
            ihValue item hitem _ (stops_items items rest) (by omega), Option.bind_some,
            ihItems items hitems rest (by omega), Option.map_some]
      | obj fields =>
        cases fields with
        | nil => rw [encode, List.cons_append, List.cons_append, List.nil_append, parseValue_nil_obj]
        | cons field fields =>
          obtain ⟨key, value⟩ := field
          obtain ⟨hvalue, hfields⟩ := hv
          simp only [encode, List.length_cons, List.length_append] at hlen
          have hread := ihValue value hvalue _ (stops_fields fields rest) (by omega)
          have hbody : encode (obj ((key, value) :: fields)) ++ rest =
              '{' :: (quote key ++ ':' :: ' ' :: (encode value ++ (encodeFields fields ++ rest))) := by
            simp only [encode, List.cons_append, List.append_assoc]
          rw [hbody, parseValue_obj, parseField_encode hvalue key hread, Option.bind_some,
            ihFields fields hfields rest (by omega), Option.map_some]
    · cases items with
      | nil => exact parseItems_nil fuel rest
      | cons item items =>
        obtain ⟨hitem, hitems⟩ := hitems
        simp only [encodeItems, List.length_cons, List.length_append] at hlen
        rw [encodeItems, List.cons_append, List.cons_append, List.append_assoc, parseItems_cons,
          skipBlanks_space, skipBlanks_encode hitem,
          ihValue item hitem _ (stops_items items rest) (by omega), Option.bind_some,
          ihItems items hitems rest (by omega), Option.map_some]
    · cases fields with
      | nil => exact parseFields_nil fuel rest
      | cons field fields =>
        obtain ⟨key, value⟩ := field
        obtain ⟨hvalue, hfields⟩ := hfields
        simp only [encodeFields, List.length_cons, List.length_append] at hlen
        have hread := ihValue value hvalue _ (stops_fields fields rest) (by omega)
        have hbody : encodeFields ((key, value) :: fields) ++ rest =
            ',' :: ' ' ::
              (quote key ++ ':' :: ' ' :: (encode value ++ (encodeFields fields ++ rest))) := by
          simp only [encodeFields, List.cons_append, List.append_assoc]
        rw [hbody, parseFields_cons, skipBlanks_space, skipBlanks_quote,
          parseField_encode hvalue key hread, Option.bind_some,
          ihFields fields hfields rest (by omega), Option.map_some]

private theorem stops_blank {rest : List Char} (h : ∀ c ∈ rest, isBlank c = true) : Stops rest := by
  intro c hc
  have hblank := h c (List.mem_of_mem_head? hc)
  simp only [isBlank, Bool.or_eq_true, beq_iff_eq] at hblank
  obtain ((rfl | rfl) | rfl) | rfl := hblank <;> decide

private theorem skipBlanks_blank {rest : List Char} (h : ∀ c ∈ rest, isBlank c = true) :
    skipBlanks rest = [] :=
  List.dropWhile_eq_nil_iff.mpr h

theorem loads_encode {v : Json} (h : v.Exact) {rest : List Char}
    (hrest : ∀ c ∈ rest, isBlank c = true) : loads (encode v ++ rest) = some v := by
  have hlen : (encode v).length ≤ (encode v ++ rest).length + 1 := by
    rw [List.length_append]
    omega
  unfold loads
  rw [skipBlanks_encode h, (parse_encode _).1 v h rest (stops_blank hrest) hlen]
  simp only [skipBlanks_blank hrest, if_true]

/-! A written value stays on its line -/

private theorem newline_notMem_escape (c : Char) : '\n' ∉ escape c := by
  unfold escape
  split_ifs with h1 h2 h3 h4 h5 h6 h7 hcontrol
  iterate 7 decide
  · have hhex : ∀ n < 16, hexDigit n ≠ '\n' := by decide
    simp only [List.mem_cons, List.not_mem_nil, or_false, not_or]
    exact ⟨by decide, by decide, by decide, by decide, (hhex _ (by omega)).symm,
      (hhex _ (Nat.mod_lt _ (by decide))).symm⟩
  · exact fun hmem => h3 (List.mem_singleton.mp hmem).symm

private theorem newline_notMem_quote (s : String) : '\n' ∉ quote s := by
  simp only [quote, List.mem_cons, List.mem_append, List.mem_flatMap, List.not_mem_nil, or_false,
    not_or, not_exists, not_and]
  exact ⟨by decide, fun c _ => newline_notMem_escape c, by decide⟩

private theorem newline_notMem_intText (n : ℤ) : '\n' ∉ intText n := by
  have hdigits : ∀ m : ℕ, '\n' ∉ Nat.toDigits 10 m := fun m hmem =>
    absurd (isDigit_toDigits hmem) (by decide)
  cases n with
  | ofNat m => exact hdigits m
  | negSucc m => exact List.not_mem_cons_of_ne_of_not_mem (by decide) (hdigits (m + 1))

mutual

theorem newline_notMem_encode : ∀ v : Json, v.Exact → '\n' ∉ encode v
  | null, _ => by decide
  | bool true, _ => by decide
  | bool false, _ => by decide
  | int n, _ => newline_notMem_intText n
  | real _, h => absurd h id
  | str s, _ => newline_notMem_quote s
  | arr [], _ => by decide
  | arr (item :: items), h => by
    simp only [encode, List.mem_cons, List.mem_append, not_or]
    exact ⟨by decide, newline_notMem_encode item h.1, newline_notMem_items items h.2⟩
  | obj [], _ => by decide
  | obj ((key, value) :: fields), h => by
    simp only [encode, List.mem_cons, List.mem_append, not_or]
    exact ⟨by decide, newline_notMem_quote key, by decide, by decide,
      newline_notMem_encode value h.1, newline_notMem_fields fields h.2⟩

theorem newline_notMem_items : ∀ items, ExactItems items → '\n' ∉ encodeItems items
  | [], _ => by decide
  | item :: items, h => by
    simp only [encodeItems, List.mem_cons, List.mem_append, not_or]
    exact ⟨by decide, by decide, newline_notMem_encode item h.1, newline_notMem_items items h.2⟩

theorem newline_notMem_fields : ∀ fields, ExactFields fields → '\n' ∉ encodeFields fields
  | [], _ => by decide
  | (key, value) :: fields, h => by
    simp only [encodeFields, List.mem_cons, List.mem_append, not_or]
    exact ⟨by decide, by decide, newline_notMem_quote key, by decide, by decide,
      newline_notMem_encode value h.1, newline_notMem_fields fields h.2⟩

end

end Json

end QuantDataCenter.Lib
