import QuantDataCenter.Lib.JsonScan
import QuantDataCenter.Tabular.Text

/-!
The event log of the registry (`storage/data_registry.py`): one JSON object a line, appended with
the identifier behind the greatest one that can be read. The log is the text its readers see, with
line ends translated; `none` is a log that does not exist.
-/

set_option autoImplicit false
set_option relaxedAutoImplicit false

namespace QuantDataCenter.Registry

open QuantDataCenter.Lib QuantDataCenter.Tabular

/-! Lines -/

/-- The lines of a text file, each with its line end. -/
@[grind =] def lines : List Char → List (List Char)
  | [] => []
  | c :: rest =>
    if c = '\n' then ['\n'] :: lines rest
    else match lines rest with
      | [] => [[c]]
      | line :: others => (c :: line) :: others

theorem lines_line {line : List Char} (h : '\n' ∉ line) (rest : List Char) :
    lines (line ++ '\n' :: rest) = (line ++ ['\n']) :: lines rest := by
  induction line with
  | nil => simp [lines]
  | cons c line ih =>
    rw [List.mem_cons, not_or] at h
    rw [List.cons_append, lines, if_neg (Ne.symm h.1), ih h.2]
    rfl

theorem lines_append (text rest : List Char) :
    lines (text ++ '\n' :: rest) = lines (text ++ ['\n']) ++ lines rest := by
  induction text with
  | nil => simp [lines]
  | cons c text ih =>
    have hnonempty : lines (text ++ ['\n']) ≠ [] := by
      cases text with
      | nil => simp [lines]
      | cons d text =>
        rw [List.cons_append, lines]
        split
        · exact List.cons_ne_nil _ _
        · split <;> exact List.cons_ne_nil _ _
    obtain ⟨line, others, hlines⟩ := List.exists_cons_of_ne_nil hnonempty
    rw [List.cons_append, List.cons_append, lines, lines, ih, hlines]
    split <;> rfl

theorem lines_torn {line : List Char} (h : '\n' ∉ line) (hne : line ≠ []) : lines line = [line] := by
  induction line with
  | nil => exact absurd rfl hne
  | cons c line ih =>
    rw [List.mem_cons, not_or] at h
    rw [lines, if_neg (Ne.symm h.1)]
    cases line with
    | nil => rfl
    | cons d line => rw [ih h.2 (List.cons_ne_nil d line)]

def Ended (text : List Char) : Prop := text = [] ∨ ∃ t, text = t ++ ['\n']

theorem Ended.lines_append {text : List Char} (h : Ended text) (rest : List Char) :
    lines (text ++ rest) = lines text ++ lines rest := by
  obtain rfl | ⟨t, rfl⟩ := h
  · rfl
  · rw [List.append_assoc, List.singleton_append, Registry.lines_append]

/-- `not line.strip()`. -/
def isBlankLine (line : List Char) : Bool := (stripChars line).isEmpty

/-! Events -/

/-- `DatasetEvent`. -/
structure DatasetEvent where
  eventId : ℤ
  datasetId : String
  code : String
  minDate : String
  maxDate : String
  rowCount : ℤ
  outputPath : String
  occurredAt : String
  operation : String := "write"
  deriving DecidableEq

def DatasetEvent.fields (e : DatasetEvent) : List (String × Json) :=
  [("dataset_id", .str e.datasetId), ("code", .str e.code), ("min_date", .str e.minDate),
    ("max_date", .str e.maxDate), ("row_count", .int e.rowCount),
    ("output_path", .str e.outputPath), ("occurred_at", .str e.occurredAt),
    ("operation", .str e.operation)]

/-- `asdict(event)`. -/
def DatasetEvent.asdict (e : DatasetEvent) : Json :=
  .obj (("event_id", .int e.eventId) :: e.fields)

/-- How `int(…)` reads a float and a string. -/
structure Numbers where
  ofReal : List Char → Option ℤ
  ofText : String → Option ℤ

def Numbers.int (numbers : Numbers) : Json → Option ℤ
  | .int n => some n
  | .bool b => some (if b then 1 else 0)
  | .real text => numbers.ofReal text
  | .str s => numbers.ofText s
  | _ => none

/-- `int(event.get("event_id", default))`; of equal keys the last one counts. -/
def eventIdOf (numbers : Numbers) (default : ℤ) : Json → Option ℤ
  | .obj fields =>
    match fields.reverse.find? fun field => field.1 == "event_id" with
    | some field => numbers.int field.2
    | none => some default
  | _ => none

/-- One turn of the loop of `latest_event_id`; what cannot be read is passed over. -/
def latestStep (numbers : Numbers) (latest : ℤ) (line : List Char) : ℤ :=
  if isBlankLine line then latest
  else match (Json.loads line).bind (eventIdOf numbers 0) with
    | some id => max latest id
    | none => latest

def latestEventId (numbers : Numbers) (log : Option (List Char)) : ℤ :=
  match log with
  | none => 0
  | some text => (lines text).foldl (latestStep numbers) 0

/-- The loop of `read_events`; `none` when a line cannot be read. -/
def readLoop (numbers : Numbers) (since : ℤ) (limit : Option ℤ) :
    List Json → List (List Char) → Option (List Json)
  | events, [] => some events
  | events, line :: rest =>
    if isBlankLine line then readLoop numbers since limit events rest
    else (Json.loads line).bind fun event => (eventIdOf numbers 0 event).bind fun id =>
      if since < id then
        if limit.any (fun n => decide (n ≤ ((events ++ [event]).length : ℤ))) then some (events ++ [event])
        else readLoop numbers since limit (events ++ [event]) rest
      else readLoop numbers since limit events rest

def readEvents (numbers : Numbers) (since : ℤ) (limit : Option ℤ) (log : Option (List Char)) :
    Option (List Json) :=
  match log with
  | none => some []
  | some text => readLoop numbers since limit [] (lines text)

/-! Writing -/

/-- What `append_event` is given, and the clock. -/
structure Write where
  datasetId : String
  code : String
  rowCount : ℤ
  outputPath : String
  minDate : String := ""
  maxDate : String := ""
  now : String

/-- What the registry is built on: the identifiers of the catalog, how numbers are read, and
`_relative_to_root`. -/
structure DataRegistry where
  catalog : List String
  numbers : Numbers
  relativeToRoot : String → String

variable (registry : DataRegistry)

def event (eventId : ℤ) (w : Write) : DatasetEvent where
  eventId := eventId
  datasetId := w.datasetId
  code := w.code
  minDate := w.minDate
  maxDate := w.maxDate
  rowCount := w.rowCount
  outputPath := registry.relativeToRoot w.outputPath
  occurredAt := w.now

/-- `json.dumps(asdict(event), …) + "\n"`. -/
def record (e : DatasetEvent) : List Char := Json.encode e.asdict ++ ['\n']

/-- `append_event`, its write to the log. -/
def appendEvent (w : Write) (log : Option (List Char)) :
    Except String (DatasetEvent × List Char) :=
  if w.datasetId ∈ registry.catalog then
    let e := event registry (latestEventId registry.numbers log + 1) w
    .ok (e, log.getD [] ++ record e)
  else .error ("Unknown dataset: " ++ w.datasetId)

/-- The log after a call; a refused one leaves it. -/
def afterWrite (log : Option (List Char)) (w : Write) : Option (List Char) :=
  match appendEvent registry w log with
  | .ok (_, text) => some text
  | .error _ => log

end QuantDataCenter.Registry
