import QuantDataCenter.Registry.EventReads

/-!
Appends that were cut: the process stops while it writes a record, and the log goes on behind what
reached the file. Three states of the last line tell what a reader of the log gets.
-/

set_option autoImplicit false
set_option relaxedAutoImplicit false

namespace QuantDataCenter.Registry

open QuantDataCenter.Lib QuantDataCenter.Lib.Json.Scan QuantDataCenter.Tabular

/-- A call of `append_event`, and how many characters of its record reached the log. -/
inductive Call where
  | whole (w : Write)
  | cut (w : Write) (count : ℕ)

/-- How a log ends: with a line end, with a record that lacks only its line end, or with a line that
cannot be read, then or before. -/
inductive Ending where
  | ended
  | unended
  | torn
  deriving DecidableEq

/-- How much of a record of some length reached the log, and how the log ends then. -/
@[grind =] def Ending.after (ending : Ending) (length count : ℕ) : Ending :=
  match ending with
  | .ended =>
    if count = 0 ∨ length ≤ count then .ended
    else if count + 1 = length then .unended else .torn
  | .unended => if count = 0 then .unended else .torn
  | .torn => .torn

variable (registry : DataRegistry)

structure LogState where
  log : Option (List Char)
  ending : Ending

/-- The record, as far as it got; a cut falls between two characters of the text, not between the
bytes of one. -/
def LogState.append (s : LogState) (w : Write) (count : List Char → ℕ) : LogState :=
  if w.datasetId ∈ registry.catalog then
    let text := record (event registry (latestEventId registry.numbers s.log + 1) w)
    { log := some (s.log.getD [] ++ text.take (count text))
      ending := s.ending.after text.length (count text) }
  else s

def LogState.call (s : LogState) : Call → LogState
  | .whole w => s.append registry w List.length
  | .cut w count => s.append registry w fun _ => count

/-- A whole call is `append_event`. -/
theorem call_whole (s : LogState) (w : Write) :
    (s.call registry (.whole w)).log = afterWrite registry s.log w := by
  unfold LogState.call LogState.append afterWrite appendEvent
  by_cases hw : w.datasetId ∈ registry.catalog
  · simp [hw]
  · simp [hw]

/-! What is left in the file -/

/-- One line of the text is no JSON text, whatever is written behind it. -/
def Spoilt (text : List Char) : Prop :=
  ∃ before line rest, text = before ++ (line ++ rest) ∧
    Ended before ∧ '\n' ∉ line ∧
    (∃ c t, line = c :: t ∧ isSpace c = false) ∧ Torn (run (.plain 0) line) ∧
    (rest = [] ∨ ∃ t, rest = '\n' :: t)

def Ends (text : List Char) : Ending → Prop
  | .ended => ∃ events, text = logText events
  | .unended => ∃ events e, text = logText events ++ Json.encode (DatasetEvent.asdict e)
  | .torn => Spoilt text

private theorem eventId_keyStart : KeyStart "event_id" :=
  ⟨'e', "vent_id".toList, rfl, rfl, fun _ => rfl⟩

private theorem take_record (e : DatasetEvent) (count : ℕ) :
    (record e).take count = (Json.encode e.asdict).take count ++
      if (Json.encode e.asdict).length < count then ['\n'] else [] := by
  unfold record
  rw [List.take_append]
  split_ifs with hlen
  · obtain ⟨k, hk⟩ : ∃ k, count - (Json.encode e.asdict).length = k + 1 :=
      ⟨count - (Json.encode e.asdict).length - 1, by omega⟩
    rw [hk, List.take_succ_cons, List.take_nil]
  · rw [show count - (Json.encode e.asdict).length = 0 by omega, List.take_zero]

private theorem length_record (e : DatasetEvent) :
    (record e).length = (Json.encode e.asdict).length + 1 := by
  unfold record
  rw [List.length_append, List.length_singleton]

private theorem newline_notMem_take (e : DatasetEvent) (count : ℕ) :
    '\n' ∉ (Json.encode e.asdict).take count := fun hmem =>
  newline_notMem_asdict e (List.mem_of_mem_take hmem)

private theorem spoilt_open {before line : List Char} (e : DatasetEvent) (count : ℕ)
    (hbefore : Ended before) (hline : '\n' ∉ line)
    (hstart : ∃ c t, line = c :: t ∧ isSpace c = false)
    (htorn : Torn (run (.plain 0) (line ++ (Json.encode e.asdict).take count))) :
    Spoilt (before ++ line ++ (record e).take count) := by
  obtain ⟨c, t, rfl, hc⟩ := hstart
  refine ⟨before, c :: t ++ (Json.encode e.asdict).take count,
    if (Json.encode e.asdict).length < count then ['\n'] else [], ?_, hbefore, ?_,
    ⟨c, t ++ (Json.encode e.asdict).take count, rfl, hc⟩, htorn, ?_⟩
  · rw [take_record, List.append_assoc, List.append_assoc]
  · rw [List.mem_append, not_or]
    exact ⟨hline, newline_notMem_take e count⟩
  · split_ifs
    · exact .inr ⟨[], rfl⟩
    · exact .inl rfl

theorem Spoilt.append {text : List Char} (h : Spoilt text) (e : DatasetEvent) (count : ℕ) :
    Spoilt (text ++ (record e).take count) := by
  obtain ⟨before, line, rest, rfl, hbefore, hline, hstart, htorn, hrest⟩ := h
  obtain rfl | ⟨t, rfl⟩ := hrest
  · rw [List.append_nil]
    refine spoilt_open e count hbefore hline hstart ?_
    rw [run_append]
    exact htorn.front (asdict_exact e) eventId_keyStart (List.take_append_drop count _).symm
  · exact ⟨before, line, '\n' :: (t ++ (record e).take count),
      by simp only [List.append_assoc, List.cons_append], hbefore, hline, hstart, htorn,
      .inr ⟨_, rfl⟩⟩

private theorem asdict_start (e : DatasetEvent) : ∃ t, Json.encode e.asdict = '{' :: t := by
  obtain ⟨s, hs⟩ := encode_object "event_id" (.int e.eventId) e.fields
  exact ⟨_, hs⟩

private theorem spoilt_front (events : List DatasetEvent) (e : DatasetEvent) {count : ℕ}
    (hpos : count ≠ 0) (hcount : count < (Json.encode e.asdict).length) :
    Spoilt (logText events ++ (record e).take count) := by
  obtain ⟨k, rfl⟩ := Nat.exists_eq_succ_of_ne_zero hpos
  obtain ⟨t, ht⟩ := asdict_start e
  have hfront : (Json.encode e.asdict).take (k + 1) = '{' :: t.take k := by
    rw [ht, List.take_succ_cons]
  refine ⟨logText events, (Json.encode e.asdict).take (k + 1), [], ?_, logText_ended events,
    newline_notMem_take e _, ⟨'{', t.take k, hfront, by decide⟩, ?_, .inl rfl⟩
  · rw [take_record, if_neg (by omega)]
  · refine torn_front (asdict_exact e) ?_ ?_
      (List.take_append_drop (k + 1) (Json.encode e.asdict)).symm
    · rw [hfront]
      exact List.cons_ne_nil _ _
    · rw [Ne, List.drop_eq_nil_iff]
      omega

private theorem spoilt_unended (events : List DatasetEvent) (e e' : DatasetEvent) {count : ℕ}
    (hpos : count ≠ 0) :
    Spoilt (logText events ++ Json.encode e.asdict ++ (record e').take count) := by
  obtain ⟨k, rfl⟩ := Nat.exists_eq_succ_of_ne_zero hpos
  obtain ⟨t, ht⟩ := asdict_start e
  obtain ⟨t', ht'⟩ := asdict_start e'
  refine spoilt_open e' (k + 1) (logText_ended events) (newline_notMem_asdict e)
    ⟨'{', t, ht, by decide⟩ ?_
  rw [run_append, show run (.plain 0) (Json.encode e.asdict) = .closed 0 from
    run_object (asdict_exact e)]
  refine closed_front ?_ (show Json.encode e'.asdict = _ from (List.take_append_drop (k + 1) _).symm)
  rw [ht', List.take_succ_cons]
  exact List.cons_ne_nil _ _

/-- The step lemma: the ending tells how the log ends. -/
private theorem ends_append {text : List Char} {ending : Ending} (h : Ends text ending)
    (e : DatasetEvent)
    (count : ℕ) :
    Ends (text ++ (record e).take count) (ending.after (record e).length count) := by
  cases ending with
  | ended =>
    obtain ⟨events, rfl⟩ := h
    simp only [Ending.after]
    split_ifs with hwhole hunended
    · obtain rfl | hlen := hwhole
      · exact ⟨events, by rw [List.take_zero, List.append_nil]⟩
      · refine ⟨events ++ [e], ?_⟩
        rw [List.take_of_length_le hlen, logText_append, logText_singleton]
    · refine ⟨events, e, ?_⟩
      rw [length_record] at hunended
      rw [take_record, if_neg (by omega), List.append_nil, List.take_of_length_le (by omega)]
    · rw [length_record] at hwhole hunended
      exact spoilt_front events e (by omega) (by omega)
  | unended =>
    obtain ⟨events, e₀, rfl⟩ := h
    simp only [Ending.after]
    split_ifs with hzero
    · exact ⟨events, e₀, by rw [hzero, List.take_zero, List.append_nil]⟩
    · exact spoilt_unended events e₀ e hzero
  | torn => exact Spoilt.append h e count

/-! What a reader gets -/

private theorem readLoop_unreadable (numbers : Numbers) (since : ℤ) {line : List Char}
    (hblank : isBlankLine line = false) (hloads : Json.loads line = none) (found : List Json)
    {all : List (List Char)} (hmem : line ∈ all) : readLoop numbers since none found all = none := by
  induction all generalizing found with
  | nil => cases hmem
  | cons first rest ih =>
    cases hmem with
    | head => rw [readLoop, hblank, if_neg Bool.false_ne_true, hloads, Option.bind_none]
    | tail _ hrest =>
      rw [readLoop]
      split_ifs
      · exact ih found hrest
      · cases Json.loads first with
        | none => rfl
        | some event =>
          cases hid : eventIdOf numbers 0 event with
          | none => simp [hid]
          | some id => simp [ih _ hrest]

theorem Spoilt.unreadable {text : List Char} (h : Spoilt text) :
    ∃ line ∈ lines text, isBlankLine line = false ∧ Json.loads line = none := by
  obtain ⟨before, line, rest, rfl, hbefore, hline, ⟨c, t, rfl, hc⟩, htorn, hrest⟩ := h
  rw [hbefore.lines_append]
  obtain rfl | ⟨u, rfl⟩ := hrest
  · refine ⟨c :: t, ?_, isBlankLine_cons hc t, torn_unreadable htorn⟩
    rw [List.append_nil, lines_torn hline (List.cons_ne_nil c t)]
    exact List.mem_append_right _ List.mem_cons_self
  · refine ⟨c :: t ++ ['\n'], ?_, isBlankLine_cons hc _, torn_unreadable ?_⟩
    · rw [lines_line hline]
      exact List.mem_append_right _ List.mem_cons_self
    · rw [run_append]
      exact torn_newline htorn

private theorem read_of_ends (numbers : Numbers) (since : ℤ) {log : Option (List Char)}
    {ending : Ending}
    (h : Ends (log.getD []) ending) :
    readEvents numbers since none log = none ↔ ending = .torn := by
  rw [readEvents_eq]
  cases ending with
  | ended =>
    obtain ⟨events, heq⟩ := h
    have hread := readLoop_all numbers since [] events []
    rw [List.append_nil] at hread
    rw [heq, lines_logText, hread]
    simp [readLoop]
  | unended =>
    obtain ⟨events, e, heq⟩ := h
    obtain ⟨t, ht⟩ := asdict_start e
    have hlines : lines (Json.encode e.asdict) = [Json.encode e.asdict] :=
      lines_torn (newline_notMem_asdict e) (by rw [ht]; exact List.cons_ne_nil _ _)
    have hblank : isBlankLine (Json.encode e.asdict) = false := by
      rw [ht]
      exact isBlankLine_cons (by decide) t
    have hloads : Json.loads (Json.encode e.asdict ++ []) = some e.asdict :=
      Json.loads_encode (asdict_exact e) (by simp)
    rw [List.append_nil] at hloads
    rw [heq, lines_logText_append, readLoop_all, hlines, readLoop, hblank,
      if_neg Bool.false_ne_true, hloads, Option.bind_some, eventIdOf_asdict, Option.bind_some]
    split_ifs <;> simp [readLoop]
  | torn =>
    obtain ⟨line, hmem, hblank, hloads⟩ := Spoilt.unreadable h
    simp only [iff_true]
    exact readLoop_unreadable numbers since hblank hloads [] hmem

private theorem ends_call {s : LogState} (h : Ends (s.log.getD []) s.ending) (call : Call) :
    Ends ((s.call registry call).log.getD []) (s.call registry call).ending := by
  have happend : ∀ w count, Ends ((s.append registry w count).log.getD [])
      (s.append registry w count).ending := by
    intro w count
    unfold LogState.append
    split
    · exact ends_append h _ _
    · exact h
  cases call with
  | whole w => exact happend w _
  | cut w count => exact happend w _

private theorem ends_calls (calls : List Call) {s : LogState} (h : Ends (s.log.getD []) s.ending) :
    Ends ((calls.foldl (LogState.call registry) s).log.getD [])
      (calls.foldl (LogState.call registry) s).ending := by
  induction calls generalizing s with
  | nil => exact h
  | cons call calls ih => exact ih (ends_call registry h call)

/-- After calls of which some were cut, a reader of the whole log fails exactly when a record was
cut inside its object, or something was written behind one that lacked its line end. -/
theorem read_fails_iff_torn (calls : List Call) (since : ℤ) :
    readEvents registry.numbers since none (calls.foldl (LogState.call registry) ⟨none, .ended⟩).log =
      none ↔ (calls.foldl (LogState.call registry) ⟨none, .ended⟩).ending = .torn :=
  read_of_ends registry.numbers since (ends_calls registry calls ⟨[], rfl⟩)

/-! Identifiers -/

theorem Ended.record (text : List Char) (e : DatasetEvent) : Ended (text ++ record e) :=
  .inr ⟨text ++ Json.encode e.asdict, (List.append_assoc _ _ _).symm⟩

private theorem latestStep_unreadable (numbers : Numbers) (latest : ℤ) {line : List Char}
    (hloads : Json.loads line = none) : latestStep numbers latest line = latest := by
  unfold latestStep
  rw [hloads]
  exact ite_self _

/-- A last line that cannot be read is not counted. -/
private theorem latestEventId_spoilt (numbers : Numbers) {log : Option (List Char)}
    {events : List DatasetEvent} (hlog : log.getD [] = logText events) {rest line : List Char}
    (hrest : lines rest = [line]) (hloads : Json.loads line = none) :
    latestEventId numbers (some (logText events ++ rest)) = latestEventId numbers log := by
  rw [latestEventId_eq, latestEventId_eq, Option.getD_some, lines_logText_append, hlog, lines_logText,
    hrest, List.foldl_append, List.foldl_cons, List.foldl_nil, latestStep_unreadable numbers _ hloads]

/-- On a log of whole records, a write that was cut inside its object and the write behind it are
never counted: the identifier of both is handed out a third time, and the writes after them are
numbered as if neither had been. -/
theorem torn_writes_not_counted (events : List DatasetEvent) {log : Option (List Char)}
    (hlog : log.getD [] = logText events) {w w₁ : Write} (hw : w.datasetId ∈ registry.catalog)
    (hw₁ : w₁.datasetId ∈ registry.catalog) {count : ℕ} (hpos : count ≠ 0)
    (hcount : count < (Json.encode
      (event registry (latestEventId registry.numbers log + 1) w).asdict).length)
    (ws : List Write) :
    latestEventId registry.numbers
        (LogState.call registry ⟨log, .ended⟩ (.cut w count)).log =
      latestEventId registry.numbers log ∧
    latestEventId registry.numbers (ws.foldl (afterWrite registry) (afterWrite registry
        (LogState.call registry ⟨log, .ended⟩ (.cut w count)).log w₁)) =
      latestEventId registry.numbers log + (accepted registry ws).length := by
  obtain ⟨k, rfl⟩ := Nat.exists_eq_succ_of_ne_zero hpos
  generalize he : event registry (latestEventId registry.numbers log + 1) w = e at hcount
  obtain ⟨t, ht⟩ := asdict_start e
  have hfront : (Json.encode e.asdict).take (k + 1) = '{' :: t.take k := by
    rw [ht, List.take_succ_cons]
  have hnewline : '\n' ∉ '{' :: t.take k := hfront ▸ newline_notMem_take e (k + 1)
  have htorn : Torn (run (.plain 0) ('{' :: t.take k)) := by
    refine torn_front (asdict_exact e) (List.cons_ne_nil _ _) ?_
      (hfront ▸ (List.take_append_drop (k + 1) (Json.encode e.asdict)).symm)
    rw [Ne, List.drop_eq_nil_iff]
    omega
  have hcut : (LogState.call registry ⟨log, .ended⟩ (.cut w (k + 1))).log =
      some (logText events ++ '{' :: t.take k) := by
    simp only [LogState.call, LogState.append, hw, if_true, he, hlog, take_record, hfront]
    rw [if_neg (by omega), List.append_nil]
  have hlatest := latestEventId_spoilt registry.numbers hlog
    (lines_torn hnewline (List.cons_ne_nil _ _)) (torn_unreadable htorn)
  refine ⟨hcut ▸ hlatest, ?_⟩
  -- the record behind the cut one ends their common line
  rw [hcut, afterWrite_accepted registry _ hw₁, hlatest, logText_singleton, Option.getD_some]
  generalize event registry (latestEventId registry.numbers log + 1) w₁ = e₁
  have hline : '\n' ∉ '{' :: t.take k ++ Json.encode e₁.asdict := by
    rw [List.mem_append, not_or]
    exact ⟨hnewline, newline_notMem_asdict e₁⟩
  have hloads : Json.loads ('{' :: t.take k ++ Json.encode e₁.asdict ++ ['\n']) = none := by
    refine torn_unreadable ?_
    rw [run_append, run_append]
    exact torn_newline (htorn.front (asdict_exact e₁) eventId_keyStart (List.append_nil _).symm)
  have hended : Ended ((some (logText events ++ '{' :: t.take k ++ record e₁)).getD []) :=
    Ended.record (logText events ++ '{' :: t.take k) e₁
  rw [latestEventId_afterWrites registry hended, List.append_assoc,
    latestEventId_spoilt registry.numbers hlog ?_ hloads]
  rw [record, ← List.append_assoc, lines_line hline]
  rfl

set_option maxRecDepth 4000 in
/-- The process stops behind `{"event_id": 1`; two more writes are numbered 1. -/
theorem torn_writes_not_counted_first :
    latestEventId barRegistry.numbers
        (LogState.call barRegistry ⟨none, .ended⟩ (.cut barWrite 14)).log = 0 ∧
      latestEventId barRegistry.numbers ([barWrite].foldl (afterWrite barRegistry)
        (afterWrite barRegistry
          (LogState.call barRegistry ⟨none, .ended⟩ (.cut barWrite 14)).log barWrite)) = 1 :=
  torn_writes_not_counted barRegistry [] rfl (by decide) (by decide) (by decide)
    (by decide) [barWrite]

end QuantDataCenter.Registry
