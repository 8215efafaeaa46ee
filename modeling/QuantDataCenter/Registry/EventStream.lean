import Mathlib.Logic.Function.Basic
import QuantDataCenter.Lib.Transition
import QuantDataCenter.Registry.EventReads

/-!
The event stream (`registry_server.py`, `_stream_events`) beside processes that write events. The
lock of the registry is one of a process: between taking an identifier and writing the record, a
second process can take the same one.
-/

set_option autoImplicit false
set_option relaxedAutoImplicit false

namespace QuantDataCenter.Registry

open QuantDataCenter.Lib QuantDataCenter.Lib.Transition

/-- The log, the events that processes are about to write, and the connection. -/
structure Stream (P : Type) where
  log : Option (List Char)
  pending : P → Option DatasetEvent
  latest : ℤ
  sent : List (List Char)

inductive Action (P : Type) where
  | take (p : P) (w : Write)
  | write (p : P)
  | poll

/-- `"data: " + json.dumps(event, …) + "\n\n"`. -/
def payload (event : Json) : List Char := "data: ".toList ++ Json.encode event ++ ['\n', '\n']

/-- The loop over the events of one poll; `none` when it raises. -/
def deliver (numbers : Numbers) : ℤ → List Json → Option (ℤ × List (List Char))
  | latest, [] => some (latest, [])
  | latest, event :: events =>
    (eventIdOf numbers latest event).bind fun id =>
      (deliver numbers (max latest id) events).map fun x => (x.1, payload event :: x.2)

variable {P : Type} [DecidableEq P] (registry : DataRegistry)

def step (s : Stream P) : Action P → Option (Stream P)
  | .take p w =>
    if s.pending p = none ∧ w.datasetId ∈ registry.catalog then
      let e := event registry (latestEventId registry.numbers s.log + 1) w
      some { s with pending := Function.update s.pending p (some e) }
    else none
  | .write p => (s.pending p).map fun e =>
    { s with
      log := some (s.log.getD [] ++ record e)
      pending := Function.update s.pending p none }
  | .poll =>
    (readEvents registry.numbers s.latest none s.log).bind fun events =>
      (deliver registry.numbers s.latest events).map fun x =>
        { s with latest := x.1, sent := s.sent ++ x.2 }

/-- The connection is opened behind an identifier, when a registry has written some events. -/
def Stream.opened (since : ℤ) (ws : List Write) : Stream P where
  log := written registry ws
  pending := fun _ => none
  latest := since
  sent := []

/-! One poll -/

def DatasetEvent.payload (e : DatasetEvent) : List Char := Registry.payload e.asdict

private theorem deliver_events (numbers : Numbers) (latest : ℤ) (events : List DatasetEvent) :
    deliver numbers latest (events.map DatasetEvent.asdict) =
      some (greatestId latest events, events.map DatasetEvent.payload) := by
  induction events generalizing latest with
  | nil => rfl
  | cons e events ih =>
    rw [List.map_cons, deliver, eventIdOf_asdict, Option.bind_some, ih, Option.map_some]
    rfl

private theorem poll_logText {s : Stream P} {events : List DatasetEvent}
    (h : s.log.getD [] = logText events) :
    step registry s .poll = some { s with
      latest := greatestId s.latest (events.filter fun e => s.latest < e.eventId)
      sent := s.sent ++ (events.filter fun e => s.latest < e.eventId).map DatasetEvent.payload } := by
  have hread := readLoop_all registry.numbers s.latest [] events []
  rw [List.append_nil, List.nil_append] at hread
  simp only [step]
  rw [readEvents_eq, h, lines_logText, hread, readLoop, Option.bind_some, deliver_events,
    Option.map_some]

private theorem le_greatestId (latest : ℤ) (events : List DatasetEvent) :
    latest ≤ greatestId latest events := by
  induction events generalizing latest with
  | nil => exact le_rfl
  | cons e events ih => exact (le_max_left _ _).trans (ih _)

private theorem le_greatestId_of_mem {latest : ℤ} {events : List DatasetEvent} {e : DatasetEvent}
    (h : e ∈ events) : e.eventId ≤ greatestId latest events := by
  induction events generalizing latest with
  | nil => cases h
  | cons e' events ih =>
    cases h with
    | head => exact (le_max_right _ _).trans (le_greatestId _ _)
    | tail _ hmem => exact ih hmem

private theorem le_after_poll {latest : ℤ} {events : List DatasetEvent} {e : DatasetEvent}
    (h : e ∈ events) :
    e.eventId ≤ greatestId latest (events.filter fun e => latest < e.eventId) := by
  by_cases hnew : latest < e.eventId
  · exact le_greatestId_of_mem (List.mem_filter.mpr ⟨h, decide_eq_true hnew⟩)
  · exact (not_lt.mp hnew).trans (le_greatestId _ _)

/-! Any interleaving -/

/-- The log holds what was there at the last poll, and what was written since. -/
structure Followed (since : ℤ) (s : Stream P) (seen later : List DatasetEvent) : Prop where
  log : s.log.getD [] = logText (seen ++ later)
  known : ∀ e ∈ seen, e.eventId ≤ s.latest
  behind : since ≤ s.latest
  sent : ∃ delivered : List DatasetEvent, delivered.Sublist (seen.filter fun e => since < e.eventId) ∧
    s.sent = delivered.map DatasetEvent.payload

def Follows (since : ℤ) (s : Stream P) : Prop := ∃ seen later, Followed since s seen later

private theorem filter_known {latest : ℤ} {seen later : List DatasetEvent}
    (h : ∀ e ∈ seen, e.eventId ≤ latest) :
    ((seen ++ later).filter fun e => decide (latest < e.eventId)) =
      later.filter fun e => decide (latest < e.eventId) := by
  rw [List.filter_append, List.filter_eq_nil_iff.mpr, List.nil_append]
  intro e he
  rw [decide_eq_true_eq, not_lt]
  exact h e he

theorem Followed.step {since : ℤ} {s s' : Stream P} {seen later : List DatasetEvent}
    (h : Followed since s seen later) {a : Action P} (hstep : step registry s a = some s') :
    Follows since s' := by
  cases a with
  | take p w =>
    simp only [Registry.step] at hstep
    split_ifs at hstep
    obtain rfl := Option.some.inj hstep
    exact ⟨seen, later, h.log, h.known, h.behind, h.sent⟩
  | write p =>
    obtain ⟨e, he, rfl⟩ := Option.map_eq_some_iff.mp hstep
    refine ⟨seen, later ++ [e], ?_, h.known, h.behind, h.sent⟩
    rw [Option.getD_some, h.log, ← logText_singleton, ← logText_append, List.append_assoc]
  | poll =>
    rw [poll_logText registry h.log] at hstep
    obtain rfl := Option.some.inj hstep
    obtain ⟨delivered, hsub, hsent⟩ := h.sent
    refine ⟨seen ++ later, [], ?_, fun e he => le_after_poll he, h.behind.trans (le_greatestId _ _),
      delivered ++ later.filter (fun e => decide (s.latest < e.eventId)), ?_, ?_⟩
    · rw [List.append_nil]
      exact h.log
    · rw [List.filter_append]
      refine hsub.append ?_
      refine List.monotone_filter_right later fun e he => ?_
      exact decide_eq_true (h.behind.trans_lt (of_decide_eq_true he))
    · rw [hsent, List.map_append, filter_known h.known]

/-- However writers and polls interleave, the stream sends records of the log behind the identifier
it was opened with, in the order of the log and none twice. -/
theorem stream_sends_at_most_once {since : ℤ} {ws : List Write} {as : List (Action P)}
    {s : Stream P} (run : exec (step registry) (Stream.opened registry since ws) as = some s) :
    ∃ events delivered : List DatasetEvent, s.log.getD [] = logText events ∧
      delivered.Sublist (events.filter fun e => since < e.eventId) ∧
      s.sent = delivered.map DatasetEvent.payload := by
  have hstart : Follows since (Stream.opened (P := P) registry since ws) :=
    ⟨[], _, written_logText registry ws, fun e he => absurd he (List.not_mem_nil),
      le_rfl, [], List.nil_sublist _, rfl⟩
  obtain ⟨seen, later, h⟩ := invariant_of_exec (fun s a s' hinv hstep =>
    have ⟨seen, later, h⟩ := hinv
    h.step registry hstep) hstart run
  obtain ⟨delivered, hsub, hsent⟩ := h.sent
  refine ⟨seen ++ later, delivered, h.log, ?_, hsent⟩
  rw [List.filter_append]
  exact hsub.trans (List.sublist_append_left _ _)

/-- Two processes take one identifier before either has written, and a poll comes before, between
and behind their records: the second record is never sent. -/
theorem stream_sends_at_most_once_two : ∃ s : Stream Bool,
    exec (step barRegistry) (Stream.opened barRegistry 0 [])
      [.take true barWrite, .take false barWrite, .poll, .write true, .poll, .write false, .poll] =
        some s ∧
    s.sent = [(event barRegistry 1 barWrite).payload] ∧
    ∃ events delivered : List DatasetEvent, s.log.getD [] = logText events ∧
      delivered.Sublist (events.filter fun e => 0 < e.eventId) ∧
      s.sent = delivered.map DatasetEvent.payload := by
  let e := event barRegistry 1 barWrite
  have hlog : record e = logText [e] := (logText_singleton e).symm
  have hlogs : record e ++ record e = logText [e, e] := by
    rw [hlog, ← logText_append, List.singleton_append]
  have run : ∃ s : Stream Bool, exec (step barRegistry) (Stream.opened barRegistry 0 [])
      [.take true barWrite, .take false barWrite, .poll, .write true, .poll, .write false, .poll] =
        some s ∧ s.sent = [e.payload] := by
    refine ⟨_, exec_cons_some.mpr ⟨_, rfl, exec_cons_some.mpr ⟨_, rfl,
      exec_cons_some.mpr ⟨_, @poll_logText Bool _ barRegistry _ [] rfl,
      exec_cons_some.mpr ⟨_, rfl, exec_cons_some.mpr ⟨_,
      @poll_logText Bool _ barRegistry _ [e] hlog, exec_cons_some.mpr ⟨_, rfl,
      exec_cons_some.mpr ⟨_, @poll_logText Bool _ barRegistry _ [e, e] hlogs, exec_nil _ _⟩⟩⟩⟩⟩⟩⟩, ?_⟩
    rfl
  obtain ⟨s, hs, hsent⟩ := run
  exact ⟨s, hs, hsent, @stream_sends_at_most_once Bool _ barRegistry 0 [] _ s hs⟩

/-! One process -/

/-- The lock: an identifier is taken when no record waits to be written. -/
def OneWriter (s : Stream P) (a : Action P) : Prop :=
  ∀ p w, a = .take p w → ∀ q, s.pending q = none

private theorem greatestId_lt {latest x : ℤ} {events : List DatasetEvent} (h : latest < x)
    (hall : ∀ e ∈ events, e.eventId < x) : greatestId latest events < x := by
  induction events generalizing latest with
  | nil => exact h
  | cons e events ih =>
    exact ih (max_lt h (hall e List.mem_cons_self)) fun e' he' => hall e' (List.mem_cons_of_mem e he')

private theorem increasing_numbered (start : ℤ) (ws : List Write) :
    (numbered registry start ws).Pairwise fun e e' => e.eventId < e'.eventId := by
  induction ws generalizing start with
  | nil => exact List.Pairwise.nil
  | cons w ws ih => exact List.Pairwise.cons (fun e he => mem_numbered registry he) (ih (start + 1))

/-- The identifiers of the log increase, and everything up to the last poll was sent. -/
structure Complete (since : ℤ) (s : Stream P) (seen later : List DatasetEvent) : Prop where
  log : s.log.getD [] = logText (seen ++ later)
  increasing : (seen ++ later).Pairwise fun e e' => e.eventId < e'.eventId
  behind : since ≤ s.latest
  known : ∀ e ∈ seen, e.eventId ≤ s.latest
  reached : ∀ x, since < x → (∀ e ∈ seen, e.eventId < x) → s.latest < x
  single : ∀ p q, s.pending p ≠ none → s.pending q ≠ none → p = q
  next : ∀ p e, s.pending p = some e → ∀ e' ∈ seen ++ later, e'.eventId < e.eventId
  sent : s.sent = (seen.filter fun e => since < e.eventId).map DatasetEvent.payload

def Completes (since : ℤ) (s : Stream P) : Prop := ∃ seen later, Complete since s seen later

theorem Complete.take {since : ℤ} {s : Stream P} {seen later : List DatasetEvent}
    (h : Complete since s seen later) (hfree : ∀ q, s.pending q = none) (p : P) (w : Write) :
    Complete since { s with
      pending := Function.update s.pending p
        (some (event registry (latestEventId registry.numbers s.log + 1) w)) } seen later := by
  have hpending : ∀ q, Function.update s.pending p
      (some (event registry (latestEventId registry.numbers s.log + 1) w)) q ≠ none → q = p := by
    intro q hq
    by_contra hne
    exact hq (by rw [Function.update_of_ne hne, hfree q])
  refine ⟨h.log, h.increasing, h.behind, h.known, h.reached, fun q q' hq hq' => ?_,
    fun q e hq e' he' => ?_, h.sent⟩
  · rw [hpending q hq, hpending q' hq']
  · simp only at hq
    obtain rfl := hpending q (by rw [hq]; exact Option.some_ne_none e)
    rw [Function.update_self] at hq
    obtain rfl := Option.some.inj hq
    have hlatest : latestEventId registry.numbers s.log = greatestId 0 (seen ++ later) := by
      rw [latestEventId_eq, h.log, lines_logText, latest_fold]
    exact Int.lt_add_one_of_le (hlatest ▸ le_greatestId_of_mem he')

theorem Complete.write {since : ℤ} {s : Stream P} {seen later : List DatasetEvent}
    (h : Complete since s seen later) {p : P} {e : DatasetEvent} (he : s.pending p = some e) :
    Complete since { s with
      log := some (s.log.getD [] ++ record e)
      pending := Function.update s.pending p none } seen (later ++ [e]) := by
  have hothers : ∀ q e', Function.update s.pending p none q = some e' → False := by
    intro q e' hq
    by_cases hqp : q = p
    · rw [hqp, Function.update_self] at hq
      cases hq
    · rw [Function.update_of_ne hqp] at hq
      exact hqp (h.single q p (hq ▸ Option.some_ne_none e') (he ▸ Option.some_ne_none e))
  refine ⟨?_, ?_, h.behind, h.known, h.reached, fun q q' hq _ => ?_, fun q e' hq => ?_, h.sent⟩
  · rw [Option.getD_some, h.log, ← logText_singleton, ← logText_append, List.append_assoc]
  · rw [← List.append_assoc, List.pairwise_append]
    refine ⟨h.increasing, List.pairwise_singleton _ _, fun e' he' e'' he'' => ?_⟩
    rw [List.mem_singleton.mp he'']
    exact h.next p e he e' he'
  · obtain ⟨e', he'⟩ := Option.ne_none_iff_exists'.mp hq
    exact absurd he' (hothers q e')
  · exact absurd hq (hothers q e')

omit [DecidableEq P] in
/-- A poll sends what was written since the last one. -/
private theorem Complete.poll {since : ℤ} {s : Stream P} {seen later : List DatasetEvent}
    (h : Complete since s seen later) :
    Complete since { s with
      latest := greatestId s.latest ((seen ++ later).filter fun e => s.latest < e.eventId)
      sent := s.sent ++
        ((seen ++ later).filter fun e => s.latest < e.eventId).map DatasetEvent.payload }
      (seen ++ later) [] := by
  have hnew : (later.filter fun e => decide (s.latest < e.eventId)) =
      later.filter fun e => decide (since < e.eventId) := by
    refine List.filter_congr fun e he => ?_
    have hseen : ∀ e' ∈ seen, e'.eventId < e.eventId := fun e' he' =>
      (List.pairwise_append.mp h.increasing).2.2 e' he' e he
    exact decide_eq_decide.mpr ⟨fun hlt => h.behind.trans_lt hlt, fun hlt =>
      h.reached e.eventId hlt hseen⟩
  refine ⟨by rw [List.append_nil]; exact h.log, by rw [List.append_nil]; exact h.increasing,
    h.behind.trans (le_greatestId _ _), fun e he => le_after_poll he, fun x hx hall => ?_, h.single,
    fun p e hp e' he' => h.next p e hp e' (by rwa [List.append_nil] at he'), ?_⟩
  · refine greatestId_lt (h.reached x hx fun e he => hall e (List.mem_append_left _ he)) ?_
    exact fun e he => hall e (List.mem_of_mem_filter he)
  · rw [h.sent, ← List.map_append, filter_known h.known, hnew, List.filter_append]

theorem Complete.step {since : ℤ} {s s' : Stream P} {seen later : List DatasetEvent}
    (h : Complete since s seen later) {a : Action P} (hone : OneWriter s a)
    (hstep : step registry s a = some s') :
    ∃ seen' later', Complete since s' seen' later' ∧ (a = .poll → later' = []) := by
  cases a with
  | take p w =>
    simp only [Registry.step] at hstep
    split_ifs at hstep
    obtain rfl := Option.some.inj hstep
    exact ⟨seen, later, h.take registry (hone p w rfl) p w, fun hpoll => by cases hpoll⟩
  | write p =>
    obtain ⟨e, he, rfl⟩ := Option.map_eq_some_iff.mp hstep
    exact ⟨seen, later ++ [e], h.write he, fun hpoll => by cases hpoll⟩
  | poll =>
    rw [poll_logText registry h.log] at hstep
    obtain rfl := Option.some.inj hstep
    exact ⟨seen ++ later, [], h.poll, fun _ => rfl⟩

/-- With one writer at a time, a poll leaves every record of the log behind the identifier the
stream was opened with sent exactly once, in the order of the log. -/
theorem stream_sends_exactly_once {since : ℤ} {ws : List Write} {as : List (Action P)}
    {m s : Stream P} (run : exec (step registry) (Stream.opened registry since ws) as = some m)
    (hone : Guarded (step registry) OneWriter (Stream.opened registry since ws) as)
    (poll : step registry m .poll = some s) :
    ∃ events, s.log.getD [] = logText events ∧
      events.Pairwise (fun e e' => e.eventId < e'.eventId) ∧
      s.sent = (events.filter fun e => since < e.eventId).map DatasetEvent.payload := by
  have hstart : Completes since (Stream.opened (P := P) registry since ws) :=
    ⟨[], numbered registry 0 (accepted registry ws), written_logText registry ws,
      increasing_numbered registry 0 _, le_rfl, fun e he => absurd he List.not_mem_nil,
      fun x hx _ => hx, fun p q hp => absurd rfl hp, fun p e hp => (by cases hp), rfl⟩
  obtain ⟨seen, later, h⟩ := invariant_of_guarded (fun s a s' hinv hguard hstep =>
    have ⟨seen, later, h⟩ := hinv
    have ⟨seen', later', h', _⟩ := h.step registry hguard hstep
    ⟨seen', later', h'⟩) hstart hone run
  obtain ⟨seen', later', h', hlater⟩ := h.step registry (fun p w heq => by cases heq) poll
  obtain rfl := hlater rfl
  have hlog := h'.log
  have hincreasing := h'.increasing
  rw [List.append_nil] at hlog hincreasing
  exact ⟨seen', hlog, hincreasing, h'.sent⟩

def turnsOfTwo : List (Action Bool) :=
  [.take true barWrite, .write true, .poll, .take false barWrite, .write false]

/-- Two processes write one event each, in turn, and both are sent. -/
theorem stream_sends_exactly_once_two : ∃ m s : Stream Bool,
    exec (step barRegistry) (Stream.opened barRegistry 0 []) turnsOfTwo = some m ∧
    step barRegistry m .poll = some s ∧
    s.sent = [(event barRegistry 1 barWrite).payload, (event barRegistry 2 barWrite).payload] ∧
    ∃ events, s.log.getD [] = logText events ∧
      events.Pairwise (fun e e' => e.eventId < e'.eventId) ∧
      s.sent = (events.filter fun e => 0 < e.eventId).map DatasetEvent.payload := by
  let e := event barRegistry 1 barWrite
  let e' := event barRegistry 2 barWrite
  have hlog : record e = logText [e] := (logText_singleton e).symm
  have hlogs : record e ++ record e' = logText [e, e'] := by
    rw [hlog, ← logText_singleton e', ← logText_append, List.singleton_append]
  have hid : latestEventId barRegistry.numbers (some (record e)) = 1 :=
    (log_round_trip barRegistry [barWrite] 0).1
  -- the first process writes, and its event is sent
  let s₁ : Stream Bool := ⟨none, Function.update (fun _ => none) true (some e), 0, []⟩
  let s₂ : Stream Bool := ⟨some (record e), Function.update s₁.pending true none, 0, []⟩
  let s₃ : Stream Bool := { s₂ with latest := 1, sent := [e.payload] }
  have take : step barRegistry (Stream.opened barRegistry 0 []) (.take true barWrite) = some s₁ := rfl
  have write : step barRegistry s₁ (.write true) = some s₂ := rfl
  have poll : step barRegistry s₂ .poll = some s₃ := @poll_logText Bool _ barRegistry s₂ [e] hlog
  -- the second one takes the next identifier
  let s₄ : Stream Bool := { s₃ with pending := Function.update s₃.pending false (some e') }
  let m : Stream Bool := { s₄ with
    log := some (record e ++ record e')
    pending := Function.update s₄.pending false none }
  have take' : step barRegistry s₃ (.take false barWrite) = some s₄ := by
    have hstep : step barRegistry s₃ (.take false barWrite) = some { s₃ with
        pending := Function.update s₃.pending false
          (some (event barRegistry (latestEventId barRegistry.numbers (some (record e)) + 1)
            barWrite)) } := rfl
    rw [hstep, hid]
    rfl
  have write' : step barRegistry s₄ (.write false) = some m := rfl
  have run : exec (step barRegistry) (Stream.opened barRegistry 0 []) turnsOfTwo = some m :=
    exec_cons_some.mpr ⟨s₁, take, exec_cons_some.mpr ⟨s₂, write, exec_cons_some.mpr ⟨s₃, poll,
      exec_cons_some.mpr ⟨s₄, take', exec_cons_some.mpr ⟨m, write', exec_nil _ _⟩⟩⟩⟩⟩
  have hone : Guarded (step barRegistry) OneWriter (Stream.opened barRegistry 0 []) turnsOfTwo := by
    refine .cons (fun _ _ _ _ => rfl) take (.cons (fun _ _ heq => by cases heq) write
      (.cons (fun _ _ heq => by cases heq) poll (.cons (fun _ _ _ q => ?_) take'
        (.cons (fun _ _ heq => by cases heq) write' trivial))))
    cases q <;> rfl
  have hpoll := @poll_logText Bool _ barRegistry m [e, e'] hlogs
  exact ⟨m, _, run, hpoll, rfl, stream_sends_exactly_once barRegistry run hone hpoll⟩

end QuantDataCenter.Registry
