import Mathlib.Algebra.GroupWithZero.Nat
import Mathlib.Data.List.TakeDrop
import Mathlib.Order.Lattice
import QuantDataCenter.Registry.EventLog

/-!
What a log of whole records says: the greatest identifier, and the events behind an identifier, all
at once or page by page.
-/

set_option autoImplicit false
set_option relaxedAutoImplicit false

namespace QuantDataCenter.Registry

open QuantDataCenter.Lib QuantDataCenter.Tabular

variable (numbers : Numbers)

/-! One record -/

theorem asdict_exact (e : DatasetEvent) : e.asdict.Exact := by
  simp [DatasetEvent.asdict, DatasetEvent.fields, Json.Exact, Json.ExactFields]

theorem newline_notMem_asdict (e : DatasetEvent) : '\n' ∉ Json.encode e.asdict :=
  Json.newline_notMem_encode _ (asdict_exact e)

private theorem loads_record (e : DatasetEvent) : Json.loads (record e) = some e.asdict :=
  Json.loads_encode (asdict_exact e) fun c hc => by rw [List.mem_singleton.mp hc]; rfl

theorem eventIdOf_asdict (default : ℤ) (e : DatasetEvent) :
    eventIdOf numbers default e.asdict = some e.eventId := by
  simp [eventIdOf, DatasetEvent.asdict, DatasetEvent.fields, Numbers.int]

theorem isBlankLine_cons {c : Char} (hc : isSpace c = false) (line : List Char) :
    isBlankLine (c :: line) = false := by
  unfold isBlankLine stripChars
  rw [List.dropWhile_cons_of_neg (by simp [hc]), List.isEmpty_eq_false_iff]
  intro hnil
  rw [List.reverse_eq_nil_iff, List.dropWhile_eq_nil_iff] at hnil
  have hspace := hnil c (List.mem_reverse.mpr List.mem_cons_self)
  rw [hc] at hspace
  cases hspace

private theorem isBlankLine_record (e : DatasetEvent) : isBlankLine (record e) = false := by
  obtain ⟨s, hs⟩ := Json.Scan.encode_object "event_id" (.int e.eventId) e.fields
  unfold record DatasetEvent.asdict
  rw [hs, List.cons_append]
  exact isBlankLine_cons (by decide) _

/-! A log of whole records -/

def logText (events : List DatasetEvent) : List Char := events.flatMap record

theorem lines_logText_append (events : List DatasetEvent) (rest : List Char) :
    lines (logText events ++ rest) = events.map record ++ lines rest := by
  induction events with
  | nil => rfl
  | cons e events ih =>
    have hsplit : logText (e :: events) ++ rest =
        Json.encode e.asdict ++ '\n' :: (logText events ++ rest) := by
      simp [logText, record]
    rw [hsplit, lines_line (newline_notMem_asdict e), ih]
    rfl

theorem lines_logText (events : List DatasetEvent) : lines (logText events) = events.map record := by
  have hlines := lines_logText_append events []
  rwa [List.append_nil, show lines [] = [] from rfl, List.append_nil] at hlines

theorem logText_append (events later : List DatasetEvent) :
    logText (events ++ later) = logText events ++ logText later := List.flatMap_append

theorem logText_singleton (e : DatasetEvent) : logText [e] = record e := List.flatMap_singleton _ _

theorem logText_ended (events : List DatasetEvent) : Ended (logText events) := by
  rcases List.eq_nil_or_concat events with rfl | ⟨events, e, rfl⟩
  · exact .inl rfl
  · refine .inr ⟨logText events ++ Json.encode e.asdict, ?_⟩
    rw [List.concat_eq_append, logText_append, logText_singleton, record, List.append_assoc]

theorem Ended.append {text : List Char} (h : Ended text) (events : List DatasetEvent) :
    Ended (text ++ logText events) := by
  obtain hnil | ⟨t, ht⟩ := logText_ended events
  · rwa [hnil, List.append_nil]
  · exact .inr ⟨text ++ t, by rw [ht, List.append_assoc]⟩

private theorem latestStep_record (latest : ℤ) (e : DatasetEvent) :
    latestStep numbers latest (record e) = max latest e.eventId := by
  unfold latestStep
  rw [isBlankLine_record, loads_record]
  simp only [Bool.false_eq_true, if_false, Option.bind_some, eventIdOf_asdict]

/-- The greatest identifier of the events, and of what was found before. -/
def greatestId (latest : ℤ) (events : List DatasetEvent) : ℤ :=
  events.foldl (fun latest e => max latest e.eventId) latest

theorem latest_fold (latest : ℤ) (events : List DatasetEvent) :
    (events.map record).foldl (latestStep numbers) latest = greatestId latest events := by
  induction events generalizing latest with
  | nil => rfl
  | cons e events ih =>
    rw [List.map_cons, List.foldl_cons, latestStep_record, ih]
    rfl

private theorem readLoop_record (since : ℤ) (limit : Option ℤ) (events : List Json)
    (e : DatasetEvent)
    (rest : List (List Char)) :
    readLoop numbers since limit events (record e :: rest) =
      if since < e.eventId then
        if limit.any (fun n => decide (n ≤ ((events ++ [e.asdict]).length : ℤ))) then
          some (events ++ [e.asdict])
        else readLoop numbers since limit (events ++ [e.asdict]) rest
      else readLoop numbers since limit events rest := by
  rw [readLoop, isBlankLine_record, if_neg Bool.false_ne_true, loads_record]
  simp only [Option.bind_some, eventIdOf_asdict]

theorem readLoop_all (since : ℤ) (found : List Json) (events : List DatasetEvent)
    (rest : List (List Char)) :
    readLoop numbers since none found (events.map record ++ rest) =
      readLoop numbers since none
        (found ++ (events.filter fun e => since < e.eventId).map DatasetEvent.asdict) rest := by
  induction events generalizing found with
  | nil => simp
  | cons e events ih =>
    rw [List.map_cons, List.cons_append, readLoop_record]
    by_cases hid : since < e.eventId
    · simp [hid, ih]
    · simp [hid, ih]

private theorem readLoop_limit (since n : ℤ) (found : List Json) (events : List DatasetEvent)
    (hfound : (found.length : ℤ) < max n 1) :
    readLoop numbers since (some n) found (events.map record) =
      some (found ++ ((events.filter fun e => since < e.eventId).take
        ((max n 1).toNat - found.length)).map DatasetEvent.asdict) := by
  induction events generalizing found with
  | nil => simp [readLoop]
  | cons e events ih =>
    rw [List.map_cons, readLoop_record]
    by_cases hid : since < e.eventId
    · rw [if_pos hid, List.filter_cons_of_pos (by simpa using hid)]
      obtain ⟨k, hk⟩ : ∃ k, (max n 1).toNat - found.length = k + 1 :=
        ⟨(max n 1).toNat - found.length - 1, by omega⟩
      rw [hk, List.take_succ_cons]
      simp only [Option.any_some, List.length_append, List.length_singleton, decide_eq_true_eq]
      split_ifs with hfull
      · obtain rfl : k = 0 := by omega
        simp
      · rw [ih (found ++ [e.asdict]) (by rw [List.length_append, List.length_singleton]; omega)]
        have hrest : (max n 1).toNat - (found ++ [e.asdict]).length = k := by
          rw [List.length_append, List.length_singleton]
          omega
        rw [hrest, List.append_assoc, List.singleton_append, List.map_cons]
    · rw [if_neg hid, List.filter_cons_of_neg (by simpa using hid), ih found hfound]

/-! Runs of writes -/

theorem latestEventId_eq (log : Option (List Char)) :
    latestEventId numbers log = (lines (log.getD [])).foldl (latestStep numbers) 0 := by
  cases log <;> rfl

theorem readEvents_eq (since : ℤ) (limit : Option ℤ) (log : Option (List Char)) :
    readEvents numbers since limit log = readLoop numbers since limit [] (lines (log.getD [])) := by
  cases log <;> rfl

private theorem latestEventId_append {log : Option (List Char)} (h : Ended (log.getD []))
    (events : List DatasetEvent) :
    latestEventId numbers (some (log.getD [] ++ logText events)) =
      greatestId (latestEventId numbers log) events := by
  rw [latestEventId_eq, Option.getD_some, h.lines_append, List.foldl_append, lines_logText,
    latest_fold, ← latestEventId_eq]

section Runs

variable (registry : DataRegistry)

def accepted (ws : List Write) : List Write :=
  ws.filter fun w => decide (w.datasetId ∈ registry.catalog)

/-- The writes with the identifiers behind `start`. -/
def numbered (start : ℤ) : List Write → List DatasetEvent
  | [] => []
  | w :: ws => event registry (start + 1) w :: numbered (start + 1) ws

@[simp] theorem length_numbered (start : ℤ) (ws : List Write) :
    (numbered registry start ws).length = ws.length := by
  induction ws generalizing start with
  | nil => rfl
  | cons w ws ih => rw [numbered, List.length_cons, List.length_cons, ih]

theorem mem_numbered {start : ℤ} {ws : List Write} {e : DatasetEvent}
    (h : e ∈ numbered registry start ws) : start < e.eventId := by
  induction ws generalizing start with
  | nil => cases h
  | cons w ws ih =>
    cases h with
    | head => exact Int.lt_succ start
    | tail _ hmem => exact (Int.lt_succ start).trans (ih hmem)

private theorem filter_numbered (start since : ℤ) (ws : List Write) :
    ((numbered registry start ws).filter fun e => since < e.eventId) =
      (numbered registry start ws).drop (since - start).toNat := by
  induction ws generalizing start with
  | nil => simp [numbered]
  | cons w ws ih =>
    by_cases hid : since < start + 1
    · have hall : ∀ e ∈ numbered registry start (w :: ws), decide (since < e.eventId) = true := by
        intro e he
        have hlt := mem_numbered registry he
        exact decide_eq_true (by omega)
      rw [List.filter_eq_self.mpr hall, show (since - start).toNat = 0 by omega, List.drop_zero]
    · obtain ⟨k, hk⟩ : ∃ k, (since - start).toNat = k + 1 := ⟨(since - start).toNat - 1, by omega⟩
      have hfirst : ¬decide (since < (event registry (start + 1) w).eventId) = true := fun h =>
        hid (of_decide_eq_true h)
      rw [numbered, List.filter_cons, if_neg hfirst, ih, hk, List.drop_succ_cons,
        show (since - (start + 1)).toNat = k by omega]

private theorem greatestId_numbered (start : ℤ) (ws : List Write) :
    greatestId start (numbered registry start ws) = start + ws.length := by
  induction ws generalizing start with
  | nil => simp [numbered, greatestId]
  | cons w ws ih =>
    have hstep : greatestId start (numbered registry start (w :: ws)) =
        greatestId (start + 1) (numbered registry (start + 1) ws) :=
      congrArg (fun latest => greatestId latest (numbered registry (start + 1) ws))
        (max_eq_right (Int.le_add_one le_rfl))
    rw [hstep, ih, List.length_cons]
    omega

theorem afterWrite_accepted (log : Option (List Char)) {w : Write}
    (hw : w.datasetId ∈ registry.catalog) :
    afterWrite registry log w = some (log.getD [] ++
      logText [event registry (latestEventId registry.numbers log + 1) w]) := by
  unfold afterWrite appendEvent
  rw [if_pos hw, logText_singleton]

private theorem afterWrite_refused (log : Option (List Char)) {w : Write}
    (hw : w.datasetId ∉ registry.catalog) : afterWrite registry log w = log := by
  unfold afterWrite appendEvent
  rw [if_neg hw]

/-- A run of calls adds the accepted writes to an ended log, numbered on. -/
private theorem afterWrites_eq {log : Option (List Char)} (h : Ended (log.getD []))
    (ws : List Write) :
    (ws.foldl (afterWrite registry) log).getD [] = log.getD [] ++
      logText (numbered registry (latestEventId registry.numbers log) (accepted registry ws)) := by
  induction ws generalizing log with
  | nil => simp [accepted, numbered, logText]
  | cons w ws ih =>
    by_cases hw : w.datasetId ∈ registry.catalog
    · have hnext : latestEventId registry.numbers (afterWrite registry log w) =
          latestEventId registry.numbers log + 1 := by
        rw [afterWrite_accepted registry log hw, latestEventId_append registry.numbers h]
        exact max_eq_right (Int.le_add_one le_rfl)
      have hended : Ended ((afterWrite registry log w).getD []) := by
        rw [afterWrite_accepted registry log hw]
        exact h.append _
      rw [List.foldl_cons, ih hended, hnext, afterWrite_accepted registry log hw, Option.getD_some,
        List.append_assoc, ← logText_append, List.singleton_append]
      simp only [accepted, List.filter_cons, hw, decide_true, if_true, numbered]
    · rw [List.foldl_cons, afterWrite_refused registry log hw, ih h]
      simp only [accepted, List.filter_cons, hw, decide_false, Bool.false_eq_true, if_false]

theorem latestEventId_afterWrites {log : Option (List Char)} (h : Ended (log.getD []))
    (ws : List Write) : latestEventId registry.numbers (ws.foldl (afterWrite registry) log) =
      latestEventId registry.numbers log + (accepted registry ws).length := by
  rw [← greatestId_numbered registry, ← latestEventId_append registry.numbers h, latestEventId_eq,
    afterWrites_eq registry h]
  rfl

/-- The log a registry has written from the start. -/
def written (ws : List Write) : Option (List Char) := ws.foldl (afterWrite registry) none

theorem written_logText (ws : List Write) :
    (written registry ws).getD [] = logText (numbered registry 0 (accepted registry ws)) :=
  afterWrites_eq registry (.inl rfl) ws

/-- The events that were written, as they are read back. -/
def listed (ws : List Write) : List Json :=
  (numbered registry 0 (accepted registry ws)).map DatasetEvent.asdict

private theorem read_written (ws : List Write) (since : ℤ) :
    readEvents registry.numbers since none (written registry ws) =
      some ((listed registry ws).drop since.toNat) := by
  have hread := readLoop_all registry.numbers since []
    (numbered registry 0 (accepted registry ws)) []
  rw [readEvents_eq, written_logText, lines_logText, ← List.append_nil (List.map _ _), hread,
    filter_numbered, Int.sub_zero, readLoop, List.nil_append, listed, List.map_drop]

private theorem read_written_limit (ws : List Write) (since n : ℤ) :
    readEvents registry.numbers since (some n) (written registry ws) =
      some (((listed registry ws).drop since.toNat).take (max n 1).toNat) := by
  have hread := readLoop_limit registry.numbers since n []
    (numbered registry 0 (accepted registry ws)) (by simp)
  rw [readEvents_eq, written_logText, lines_logText, hread, filter_numbered, Int.sub_zero,
    List.length_nil, Nat.sub_zero, List.nil_append, List.map_take, listed, List.map_drop]

/-- From the start of a registry, the log gives back the accepted writes, numbered from 1. -/
theorem log_round_trip (ws : List Write) (since : ℤ) :
    latestEventId registry.numbers (written registry ws) = (accepted registry ws).length ∧
      readEvents registry.numbers since none (written registry ws) =
        some ((listed registry ws).drop since.toNat) ∧
      ∀ n, readEvents registry.numbers since (some n) (written registry ws) =
        some (((listed registry ws).drop since.toNat).take (max n 1).toNat) := by
  refine ⟨?_, read_written registry ws since, fun n => read_written_limit registry ws since n⟩
  exact (latestEventId_afterWrites registry (.inl rfl) ws).trans (Int.zero_add _)

/-- A reader that asks for one page after the other, each behind the last identifier of the page
before; a page that brings nothing leaves it where it stands. -/
def readPages (log : Option (List Char)) : ℤ → List ℤ → Option (List Json)
  | _, [] => some []
  | since, n :: sizes =>
    (readEvents registry.numbers since (some n) log).bind fun page =>
      (match page.getLast? with
        | some event => eventIdOf registry.numbers since event
        | none => some since).bind fun last =>
          (readPages log last sizes).map fun later => page ++ later

private theorem drop_numbered (start : ℤ) (ws : List Write) (k : ℕ) :
    (numbered registry start ws).drop k = numbered registry (start + k) (ws.drop k) := by
  induction ws generalizing start k with
  | nil => simp [numbered]
  | cons w ws ih =>
    cases k with
    | zero => simp
    | succ k =>
      rw [numbered, List.drop_succ_cons, List.drop_succ_cons, ih]
      congr 1
      omega

private theorem take_numbered (start : ℤ) (ws : List Write) (k : ℕ) :
    (numbered registry start ws).take k = numbered registry start (ws.take k) := by
  induction ws generalizing start k with
  | nil => simp [numbered]
  | cons w ws ih =>
    cases k with
    | zero => rfl
    | succ k => rw [numbered, List.take_succ_cons, List.take_succ_cons, ih, numbered]

private theorem getLast?_numbered (start : ℤ) {ws : List Write} (h : ws ≠ []) :
    ∃ e, (numbered registry start ws).getLast? = some e ∧ e.eventId = start + ws.length := by
  induction ws generalizing start with
  | nil => exact absurd rfl h
  | cons w ws ih =>
    cases ws with
    | nil => exact ⟨event registry (start + 1) w, rfl, rfl⟩
    | cons w' ws =>
      obtain ⟨e, hlast, hid⟩ := ih (start + 1) (List.cons_ne_nil w' ws)
      refine ⟨e, ?_, ?_⟩
      · rw [numbered, List.getLast?_cons, hlast]
        rfl
      · rw [hid]
        simp only [List.length_cons]
        omega

private theorem next_since (since : ℤ) (ws : List Write) :
    (match ((numbered registry since ws).map DatasetEvent.asdict).getLast? with
      | some event => eventIdOf registry.numbers since event
      | none => some since) = some (since + ws.length) := by
  by_cases hws : ws = []
  · subst hws
    simp [numbered]
  · obtain ⟨e, hlast, hid⟩ := getLast?_numbered registry since hws
    rw [List.getLast?_map, hlast, ← hid]
    exact eventIdOf_asdict registry.numbers since e

private theorem pages_of_nonneg (ws : List Write) (since : ℤ) (sizes : List ℤ)
    (hsince : 0 ≤ since) :
    readPages registry (written registry ws) since sizes =
      some (((listed registry ws).drop since.toNat).take
        (sizes.map fun n => (max n 1).toNat).sum) := by
  induction sizes generalizing since with
  | nil => simp [readPages]
  | cons n sizes ih =>
    have hpage : ((listed registry ws).drop since.toNat).take (max n 1).toNat =
        (numbered registry since
          (((accepted registry ws).drop since.toNat).take (max n 1).toNat)).map
            DatasetEvent.asdict := by
      rw [listed, ← List.map_drop, ← List.map_take, drop_numbered, take_numbered, Int.zero_add,
        Int.toNat_of_nonneg hsince]
    have hlen : (((listed registry ws).drop since.toNat).take (max n 1).toNat).length =
        (((accepted registry ws).drop since.toNat).take (max n 1).toNat).length := by
      rw [hpage, List.length_map, length_numbered]
    rw [readPages, read_written_limit, Option.bind_some]
    rw [hpage, next_since, ← hpage, Option.bind_some, ← hlen, ih _ (by omega), Option.map_some,
      List.map_cons, List.sum_cons, List.take_add, List.length_take, List.drop_drop,
      List.length_drop]
    -- a page that is not full was the last one
    have hdrop : (listed registry ws).drop
        (since + (min (max n 1).toNat ((listed registry ws).length - since.toNat) : ℕ)).toNat =
          (listed registry ws).drop (since.toNat + (max n 1).toNat) := by
      by_cases hfull : (max n 1).toNat ≤ (listed registry ws).length - since.toNat
      · congr 1
        omega
      · rw [List.drop_eq_nil_of_le (by omega), List.drop_eq_nil_of_le (by omega)]
    rw [hdrop]

private theorem pages_of_nonpos (ws : List Write) (since : ℤ) (sizes : List ℤ)
    (hsince : since ≤ 0) :
    readPages registry (written registry ws) since sizes =
      readPages registry (written registry ws) 0 sizes := by
  induction sizes with
  | nil => rfl
  | cons n sizes ih =>
    rw [readPages, readPages, read_written_limit, read_written_limit, Int.toNat_of_nonpos hsince,
      Int.toNat_zero, List.drop_zero, Option.bind_some, Option.bind_some]
    cases hlast : ((listed registry ws).take (max n 1).toNat).getLast? with
    | none => simp only [Option.bind_some, ih]
    | some event =>
      have hmem := List.mem_of_mem_take (List.mem_of_getLast? hlast)
      rw [listed, List.mem_map] at hmem
      obtain ⟨e, -, rfl⟩ := hmem
      simp only [eventIdOf_asdict]

/-- Pages that are asked for one behind the other make up the events behind the first identifier,
up to the sum of the page sizes. -/
theorem pages_resume (ws : List Write) (since : ℤ) (sizes : List ℤ) :
    readPages registry (written registry ws) since sizes =
      some (((listed registry ws).drop since.toNat).take
        (sizes.map fun n => (max n 1).toNat).sum) := by
  rcases le_total 0 since with hsince | hsince
  · exact pages_of_nonneg registry ws since sizes hsince
  · rw [pages_of_nonpos registry ws since sizes hsince, Int.toNat_of_nonpos hsince]
    exact pages_of_nonneg registry ws 0 sizes le_rfl

end Runs

def barRegistry : DataRegistry where
  catalog := ["cn_stock_daily_bar"]
  numbers := { ofReal := fun _ => none, ofText := String.toInt? }
  relativeToRoot := id

def barWrite : Write where
  datasetId := "cn_stock_daily_bar"
  code := "SH.600000"
  rowCount := 242
  outputPath := "data/parquet/cn_stock_daily_bar/security_id=SH.600000/data.parquet"
  minDate := "2024-01-02"
  maxDate := "2024-12-31"
  now := "2025-01-02T18:30:00.000"

/-- Three events are read in pages of two. -/
theorem pages_resume_three :
    readPages barRegistry (written barRegistry [barWrite, barWrite, barWrite]) 0 [2, 2] =
      some ((listed barRegistry [barWrite, barWrite, barWrite]).take 4) :=
  pages_resume barRegistry [barWrite, barWrite, barWrite] 0 [2, 2]

end QuantDataCenter.Registry
