import QuantDataCenter.Lib.Trace
import QuantDataCenter.Orchestrator.DependencyGate

/-!
Calls that are killed and resumed. The state file is replaced by a temporary file
in one step, and a call may be cut between any two things it does; the next call
starts from the file that is left.
-/

set_option autoImplicit false
set_option relaxedAutoImplicit false

namespace QuantDataCenter.Orchestrator

open QuantDataCenter.Lib Call

/-- The last invocation of a runner: under way or interrupted, or returned. -/
inductive Invocation where
  | started
  | returned (code : Int)
  deriving DecidableEq, Repr

abbrev History := StateKey → String → Option Invocation

def History.note (history : History) (key : StateKey) (stepId : String) (invocation : Invocation) :
    History :=
  fun key' stepId' => if key' = key ∧ stepId' = stepId then some invocation else history key' stepId'

structure World where
  file : StateFile
  tmp : Option StateFile
  history : History

/-- What can be cut apart: `_write_state` opens, fills and moves a temporary file. -/
inductive Act where
  | openTmp
  | fillTmp (runs : Runs)
  | replace
  | did (event : Event)

def Event.acts : Event → List Act
  | .wrote runs => [.openTmp, .fillTmp runs, .replace]
  | event => [.did event]

namespace Call

variable (c : Call)

def act (w : World) : Act → World
  | .openTmp => { w with tmp := some .corrupt }
  | .fillTmp runs => { w with tmp := some (.parsed ⟨true, runs⟩) }
  | .replace => { w with file := w.tmp.getD w.file, tmp := none }
  | .did (.invoked _ step _ _) =>
    { w with history := w.history.note (c.keyOf step) step.id .started }
  | .did (.returned _ step code) =>
    { w with history := w.history.note (c.keyOf step) step.id (.returned code) }
  | .did _ => w

/-- Everything the call does on the file it finds, when nobody kills it. -/
def acts (file : StateFile) : List Act := (runDailyUpdate c file).events.flatMap Event.acts

end Call

/-- A call that is killed after so many acts, if it gets that far. -/
structure Attempt where
  call : Call
  cut : ℕ

def Attempt.run (w : World) (attempt : Attempt) : World :=
  ((attempt.call.acts w.file).take attempt.cut).foldl attempt.call.act w

/-- A plain success stands only where the last invocation returned 0. -/
def Certified (runs : Runs) (history : History) : Prop :=
  ∀ key stepId, rowStatus (stepRowForKey runs stepId key) = .success →
    history key stepId = some (.returned 0)

structure Sound (w : World) : Prop where
  parseable : w.file ≠ .corrupt
  certified : ∀ state, w.file = .parsed state → Certified state.runs w.history

namespace Call

def Fine (c : Call) (w : World) : Act → Prop
  | .replace => ∃ state, w.tmp = some (.parsed state) ∧ Certified state.runs w.history
  | .did (.invoked _ step _ _) | .did (.returned _ step _) =>
    ∀ state, w.file = .parsed state → rowStatus (c.rowOf state.runs step) ≠ .success
  | .did (.skipped _ step _) => w.history (c.keyOf step) step.id = some (.returned 0)
  | _ => True

variable {c : Call} {k : ℕ} {step : DailyStep} {runs runs' : Runs} {w : World} {history : History}

/-! What keeps a certificate -/

theorem Certified.note (h : Certified runs history)
    (hrow : rowStatus (c.rowOf runs step) ≠ .success) (invocation : Invocation) :
    Certified runs (history.note (c.keyOf step) step.id invocation) := by
  intro key stepId hsuccess
  unfold History.note
  split
  · rename_i heq
    obtain ⟨rfl, rfl⟩ := heq
    exact absurd hsuccess hrow
  · exact h key stepId hsuccess

theorem Certified.created (h : Certified runs history) (key : StateKey) :
    Certified (createStepRows runs key) history := by
  intro key' stepId hsuccess
  rw [stepRowForKey_congr fun _ => ownRow_createStepRows] at hsuccess
  exact h key' stepId hsuccess

theorem Certified.markAbandoned (h : Certified runs history) (now activePid : Int)
    (pidAlive : Int → Bool) : Certified (markAbandoned now activePid pidAlive runs) history := by
  have hrow : ∀ row : Option StepRow,
      rowStatus (row.map (markRow now activePid pidAlive)) = .success → rowStatus row = .success := by
    intro row hsuccess
    cases row with
    | none => exact hsuccess
    | some row => exact markRow_success hsuccess
  intro key stepId hsuccess
  refine h key stepId (hrow _ ?_)
  rw [stepRowForKey_eq] at hsuccess ⊢
  rw [← hsuccess, ownRow_markAbandoned]
  cases ownRow runs stepId key with
  | some row => rfl
  | none =>
    cases key.legacy with
    | none => rfl
    | some old => simp [ownRow_markAbandoned]

/-- A step is recorded under its own key, never under the older spelling. -/
private theorem keyOf_ne_legacy (step : DailyStep) {key old : StateKey}
    (hold : key.legacy = some old) :
    old ≠ c.keyOf step := by
  unfold keyOf stateKeyForPolicy
  cases key with
  | naturalDate day =>
    rw [← Option.some.inj hold]
    cases step.stateKeyPolicy <;> simp
  | _ => cases hold

theorem Certified.record {status : StepStatus} {exitCode : RowExitCode} {blockedBy : List String}
    {reason : Option Reason} (h : Certified runs history)
    (hrecord : c.record k step status exitCode blockedBy reason runs = some runs')
    (hstatus : status = .success → history (c.keyOf step) step.id = some (.returned 0)) :
    Certified runs' history := by
  intro key stepId hsuccess
  by_cases heq : key = c.keyOf step ∧ stepId = step.id
  · obtain ⟨rfl, rfl⟩ := heq
    obtain ⟨row, hrow, hrowstatus, -⟩ := rowOf_of_record hrecord
    unfold rowOf at hrow
    rw [hrow] at hsuccess
    exact hstatus (hrowstatus.symm.trans hsuccess)
  · refine h key stepId ?_
    rw [stepRowForKey_eq, ownRow_of_recordStep_of_ne hrecord heq] at hsuccess
    rw [stepRowForKey_eq, ← hsuccess]
    cases hlegacy : key.legacy with
    | none => rfl
    | some old =>
      rw [Option.bind_some, Option.bind_some, ownRow_of_recordStep_of_ne hrecord
        fun hold => keyOf_ne_legacy step hlegacy hold.1]

/-! The step lemma: what a fine act keeps -/

private theorem sound_act {a : Act} (hsound : Sound w) (hfine : c.Fine w a) :
    Sound (c.act w a) := by
  cases a with
  | openTmp => exact ⟨hsound.parseable, hsound.certified⟩
  | fillTmp runs => exact ⟨hsound.parseable, hsound.certified⟩
  | replace =>
    obtain ⟨state, htmp, hcertified⟩ := hfine
    refine ⟨?_, fun state' hstate' => ?_⟩
    · simp [act, htmp]
    · simp only [act, htmp, Option.getD_some] at hstate'
      rw [← StateFile.parsed.inj hstate']
      exact hcertified
  | did event =>
    cases event with
    | invoked k step command runs =>
      exact ⟨hsound.parseable, fun state hstate =>
        Certified.note (hsound.certified state hstate) (hfine state hstate) _⟩
    | returned k step code =>
      exact ⟨hsound.parseable, fun state hstate =>
        Certified.note (hsound.certified state hstate) (hfine state hstate) _⟩
    | _ => exact hsound

/-! A call is fine wherever it is cut -/

/-- The events are fine in this world and end with these rows certified. -/
abbrev Plays (c : Call) (w : World) (events : List Event) (runs : Runs) : Prop :=
  Trace.Plays c.act c.Fine (fun w => Certified runs w.history) w (events.flatMap Event.acts)

private theorem plays_append {events later : List Event} (h : Plays c w events runs)
    (hlater : Plays c ((events.flatMap Event.acts).foldl c.act w) later runs') :
    Plays c w (events ++ later) runs' := by
  unfold Plays at hlater ⊢
  rw [List.flatMap_append]
  exact h.append hlater

private theorem plays_wrote (h : Certified runs w.history) : Plays c w [.wrote runs] runs :=
  ⟨⟨trivial, trivial, ⟨_, rfl, h⟩, trivial⟩, h⟩

private theorem plays_invoked (command : List String) {running : Runs}
    (h : Certified runs w.history)
    (hrunning : c.record k step .running .missing [] none runs = some running) :
    Plays c w [.wrote running, .invoked k step command running] running ∧
      rowStatus (c.rowOf running step) ≠ .success := by
  have hkept : Certified running w.history := Certified.record h hrunning (by simp)
  have hrow : rowStatus (c.rowOf running step) ≠ .success := by
    obtain ⟨row, hrow, hstatus, -⟩ := rowOf_of_record hrunning
    rw [hrow]
    show row.status ≠ .success
    rw [hstatus]
    simp
  refine ⟨plays_append (plays_wrote hkept) ⟨⟨fun state hstate => ?_, trivial⟩, ?_⟩, hrow⟩
  · rw [← StateFile.parsed.inj hstate]
    exact hrow
  · exact Certified.note hkept hrow _

private theorem StepOutcome.plays {out : StepEnd} (hout : StepOutcome c k step runs out)
    (h : Certified runs w.history) : Plays c w out.events out.runs := by
  cases hout with
  | skipped hresumes hsuccess => exact ⟨⟨h _ _ hsuccess, trivial⟩, h⟩
  | raised => exact Trace.Plays.nil h
  | @blocked blockedBy reason runs' hdue hrecord =>
    have hkept : Certified runs' w.history := Certified.record h hrecord (by simp)
    exact ⟨⟨trivial, (plays_wrote hkept).fine⟩, (plays_wrote hkept).ends⟩
  | interrupted hdue hgate hrunning hrunner => exact (plays_invoked _ h hrunning).1
  | @ran command degraded running code runs' hdue hgate hrunning hrunner hrecord =>
    obtain ⟨hinvoked, hrow⟩ := plays_invoked command h hrunning
    -- the file still says running when the runner returns
    have hreturned : Plays c
        (([.wrote running, .invoked k step command running].flatMap Event.acts).foldl c.act w)
        [.returned k step code, .recorded k step (c.settle k step degraded code).1 running]
        running := by
      refine ⟨⟨fun state hstate => ?_, trivial, trivial⟩, Certified.note hinvoked.ends hrow _⟩
      rw [← StateFile.parsed.inj hstate]
      exact hrow
    have hend := plays_append hinvoked hreturned
    refine plays_append hend (plays_wrote (Certified.record hend.ends hrecord fun hstatus => ?_))
    obtain ⟨rfl, -⟩ := settle_success hstatus
    exact if_pos ⟨rfl, rfl⟩

private theorem Loop.plays {startAt : Option String} {started : Bool} {steps : List DailyStep}
    {failed : Option Int} {last : LoopEnd}
    (hloop : Loop c startAt k started steps runs failed last) (h : Certified runs w.history) :
    Plays c w last.events last.runs := by
  induction hloop generalizing w with
  | nil => exact Trace.Plays.nil h
  | unrecorded => exact Trace.Plays.nil (Certified.created h _)
  | passedOver hpass hrecord rest ih =>
    have hkept := Certified.record (Certified.created h _) hrecord (by simp)
    exact plays_append ⟨⟨trivial, trivial⟩, hkept⟩ (ih hkept)
  | next hreached houtcome hverdict rest ih =>
    have hstep := houtcome.plays (Certified.created h _)
    exact plays_append hstep (ih hstep.ends)
  | stop hreached houtcome => exact houtcome.plays (Certified.created h _)
  | raised hreached houtcome => exact houtcome.plays (Certified.created h _)

end Call

/-! Sequences of calls -/

private theorem guarded_acts (c : Call) {w : World} (hsound : Sound w) :
    Trace.Guarded c.act c.Fine w (c.acts w.file) := by
  unfold acts
  rcases runDailyUpdate_cases c w.file with ⟨-, hnil⟩ | ⟨startAt, state, last, -, hstate, hloop, -, -,
    before, after, hevents, hbefore, hafter⟩
  · rw [hnil]
    exact trivial
  · have hread : Certified state.runs w.history := by
      cases hfile : w.file with
      | absent =>
        rw [hfile] at hstate
        rw [← Option.some.inj hstate]
        intro key stepId hsuccess
        rw [stepRowForKey_eq] at hsuccess
        cases hlegacy : key.legacy <;> simp [hlegacy, ownRow, Dict.get, RunState.rows, RowEntry.row?,
          rowStatus] at hsuccess
      | corrupt => exact absurd hfile hsound.parseable
      | parsed found =>
        rw [hfile] at hstate
        rw [← Option.some.inj hstate]
        exact hsound.certified found hfile
    have hmarked := Certified.markAbandoned hread c.checkedAt c.pid c.pidAlive
    have hstart : Plays c w before (markAbandoned c.checkedAt c.pid c.pidAlive state.runs) := by
      rcases hbefore with rfl | rfl
      · exact Trace.Plays.nil hmarked
      · exact plays_wrote hmarked
    have hsteps := plays_append hstart (hloop.plays hstart.ends)
    rw [hevents]
    rcases hafter with rfl | rfl
    · rw [List.append_nil]
      exact hsteps.fine
    · exact (plays_append hsteps (plays_wrote hsteps.ends)).fine

private theorem sound_run {w : World} (hsound : Sound w) (attempt : Attempt) :
    Sound (attempt.run w) :=
  ((guarded_acts attempt.call hsound).take attempt.cut).keeps (fun _ _ => sound_act) hsound

/-- After any calls, killed anywhere, the file parses, its successes are those of the last
invocations, and the next call skips a step as done only if the last invocation returned 0. -/
theorem crash_safe_resume (attempts : List Attempt) (w : World) (hsound : Sound w) :
    let left := attempts.foldl Attempt.run w
    Sound left ∧ ∀ (c : Call) before k step runs after,
      c.acts left.file = before ++ .did (.skipped k step runs) :: after →
        (before.foldl c.act left).history (c.keyOf step) step.id = some (.returned 0) := by
  intro left
  have hleft : Sound left := by
    show Sound (attempts.foldl Attempt.run w)
    induction attempts generalizing w with
    | nil => exact hsound
    | cons attempt attempts ih => exact ih _ (sound_run hsound attempt)
  refine ⟨hleft, fun c before k step runs after hacts => ?_⟩
  have hguarded := guarded_acts c hleft
  rw [hacts] at hguarded
  exact hguarded.at

def freshWorld : World := ⟨.absent, none, fun _ _ => none⟩

/-- Killed between the return of the runner and the write of its success. -/
theorem crash_safe_resume_killed :
    Sound ([⟨sampleCall [{ id := "a", command := ["a"] }] none 0, 5⟩].foldl Attempt.run freshWorld) :=
  (crash_safe_resume [⟨sampleCall [{ id := "a", command := ["a"] }] none 0, 5⟩] freshWorld
    ⟨fun h => (by cases h), fun _ h => (by cases h)⟩).1

end QuantDataCenter.Orchestrator
