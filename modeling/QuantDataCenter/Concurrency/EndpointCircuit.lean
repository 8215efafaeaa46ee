import QuantDataCenter.Lib.Transition
import QuantDataCenter.Lib.Trace
import Mathlib.Data.Int.Notation
import Mathlib.Logic.Function.Basic
import Mathlib.Tactic.Common

/-!
The circuit of an AkShare endpoint (`AkShareRuntime.fetch`). The fetches of all threads share the
state of the endpoint; each look at it and each record is one step, and between them every fetch
goes through its attempts. The attempts of all endpoints share one executor: a call that hangs keeps
its worker, and an attempt may time out while it waits for one.
-/

set_option autoImplicit false
set_option relaxedAutoImplicit false

namespace QuantDataCenter.Concurrency

open QuantDataCenter.Lib QuantDataCenter.Lib.Transition

/-! The state of an endpoint -/

/-- `_EndpointRuntimeConfig`; what the settings give is raised to one. -/
structure EndpointRuntimeConfig where
  maxRetries : ℕ
  failureThreshold : ℕ
  cooldown : ℤ
  retries_pos : 0 < maxRetries
  threshold_pos : 0 < failureThreshold

/-- `_endpoint_runtime_config`. -/
def endpointRuntimeConfig (retries threshold cooldown : ℤ) : EndpointRuntimeConfig where
  maxRetries := (max retries 1).toNat
  failureThreshold := (max threshold 1).toNat
  cooldown := cooldown
  retries_pos := by omega
  threshold_pos := by omega

/-- `_resolve_timeout_workers`. -/
def resolveTimeoutWorkers (workers : ℤ) : ℕ := (max workers 1).toNat

structure EndpointState where
  consecutiveFailures : ℕ
  circuitOpenUntil : Option ℤ
  deriving DecidableEq, Repr

inductive Verdict where
  | refused
  | passed
  | passedExpired
  deriving DecidableEq, Repr

def raiseIfCircuitOpen (now : ℤ) (state : EndpointState) : Verdict × EndpointState :=
  match state.circuitOpenUntil with
  | none => (.passed, state)
  | some openUntil => if now < openUntil then (.refused, state) else (.passedExpired, ⟨0, none⟩)

/-- `_record_success`. -/
def freshEndpoint : EndpointState := ⟨0, none⟩

def recordFailure (cfg : EndpointRuntimeConfig) (now : ℤ) (state : EndpointState) : EndpointState :=
  let consecutiveFailures := state.consecutiveFailures + 1
  ⟨consecutiveFailures,
    if cfg.failureThreshold ≤ consecutiveFailures then some (now + cfg.cooldown)
    else state.circuitOpenUntil⟩

/-! A fetch -/

/-- What the caller, the normalizer or the lookup of the version raise, by the branch that takes it;
a timeout is a network error. -/
inductive FetchRaised where
  | schemaDrift
  | emptyData
  | network
  | noneSubscript
  | typeError
  | other
  deriving DecidableEq, Repr

/-- Where a fetch stands; a lookup of the version is guarded when it runs inside the `try`. -/
inductive FetchPhase where
  | idle
  | refused
  | ready (attempt : ℕ)
  | waiting (attempt : ℕ)
  | running (attempt : ℕ)
  | fallback (attempt : ℕ)
  | succeeded (attempt : ℕ) (guarded : Bool)
  | version (attempt : ℕ) (guarded : Bool)
  | failing (error : FetchRaised)
  | returned
  | raised (error : FetchRaised)
  deriving DecidableEq, Repr

/-- A fetch with its calls of the caller and the outcomes it has recorded. -/
structure FetchCall where
  phase : FetchPhase
  calls : ℕ
  outcomes : List Bool
  deriving DecidableEq, Repr

/-- An attempt is handed to the executor; a worker takes it and calls the caller; the call ends, or
the fetch stops waiting for it. -/
inductive FetchAction where
  | start (now : ℤ)
  | submitted
  | taken
  | ended (caller normalizer : Option FetchRaised)
  | timedOut
  | fallback (normalizer : Option FetchRaised)
  | record (now : ℤ)
  | version (lookup : Option FetchRaised)
  deriving DecidableEq, Repr

/-- The `except` branches. -/
def handled (cfg : EndpointRuntimeConfig) (attempt : ℕ) : FetchRaised → FetchPhase
  | .schemaDrift => .failing .schemaDrift
  | .emptyData => .failing .emptyData
  | .noneSubscript => .fallback attempt
  | .network | .typeError | .other =>
    if attempt < cfg.maxRetries then .ready (attempt + 1) else .failing .network

/-- The fetch after an action, with the verdict of the circuit. -/
def FetchCall.advance (cfg : EndpointRuntimeConfig) (verdict : Verdict) (f : FetchCall)
    (action : FetchAction) : Option FetchCall :=
  match action, f.phase with
  | .start _, .idle =>
    some { f with phase := if verdict = .refused then .refused else .ready 1 }
  | .submitted, .ready attempt => some { f with phase := .waiting attempt }
  | .taken, .waiting attempt => some { f with phase := .running attempt, calls := f.calls + 1 }
  | .ended caller normalizer, .running attempt =>
    some { f with phase := match caller.or normalizer with
      | none => .succeeded attempt true
      | some error => handled cfg attempt error }
  | .timedOut, .waiting attempt | .timedOut, .running attempt =>
    some { f with phase := handled cfg attempt .network }
  | .fallback normalizer, .fallback attempt =>
    -- nothing is recorded for an error of the handler itself
    some { f with phase := match normalizer with
      | none => .succeeded attempt false
      | some error => .raised error }
  | .record _, .succeeded attempt guarded =>
    some { f with phase := .version attempt guarded, outcomes := f.outcomes ++ [true] }
  | .record _, .failing error =>
    some { f with phase := .raised error, outcomes := f.outcomes ++ [false] }
  | .version lookup, .version attempt guarded =>
    some { f with phase := match lookup with
      | none => .returned
      | some error => if guarded then handled cfg attempt error else .raised error }
  | _, _ => none

/-! The executor -/

/-- The attempts that wait for a worker, and the calls that have one: those a fetch waits for, and
those of other endpoints or that nobody waits for any longer. -/
structure Executor where
  waiting : List ℕ
  running : ℕ
  others : ℕ
  deriving DecidableEq, Repr

def Executor.Free (workers : ℕ) (e : Executor) : Prop := e.running + e.others < workers

instance (workers : ℕ) (e : Executor) : Decidable (e.Free workers) :=
  inferInstanceAs (Decidable (_ < _))

/-- What an action of a fetch does to the executor; a worker takes the first attempt that waits, and
one that times out before is cancelled. -/
def Executor.advance (workers : ℕ) (e : Executor) (id : ℕ) (phase : FetchPhase)
    (action : FetchAction) : Option Executor :=
  match action, phase with
  | .submitted, _ => some { e with waiting := e.waiting ++ [id] }
  | .taken, _ =>
    if e.waiting.head? = some id ∧ e.Free workers then
      some { e with waiting := e.waiting.tail, running := e.running + 1 }
    else none
  | .ended _ _, _ => some { e with running := e.running - 1 }
  | .timedOut, .waiting _ => some { e with waiting := e.waiting.erase id }
  | .timedOut, _ => some { e with running := e.running - 1, others := e.others + 1 }
  | _, _ => some e

/-! All fetches -/

inductive CircuitEvent where
  | checked (now : ℤ) (verdict : Verdict)
  | succeeded
  | failed (now : ℤ)
  deriving DecidableEq, Repr

structure RuntimeState where
  endpoint : EndpointState
  executor : Executor
  fetches : ℕ → FetchCall
  history : List CircuitEvent

def RuntimeState.start : RuntimeState := ⟨freshEndpoint, ⟨[], 0, 0⟩, fun _ => ⟨.idle, 0, []⟩, []⟩

/-- An action of one of the fetches; or a call of another endpoint takes a worker, or one that no
fetch of this one waits for leaves its worker. -/
inductive RuntimeAction where
  | fetch (id : ℕ) (action : FetchAction)
  | occupied
  | released
  deriving DecidableEq, Repr

/-- What an action of a fetch does to the endpoint. -/
def shared (cfg : EndpointRuntimeConfig) (endpoint : EndpointState) (phase : FetchPhase)
    (action : FetchAction) : EndpointState × List CircuitEvent :=
  match action, phase with
  | .start now, _ =>
    let check := raiseIfCircuitOpen now endpoint
    (check.2, [.checked now check.1])
  | .record _, .succeeded _ _ => (freshEndpoint, [.succeeded])
  | .record now, .failing _ => (recordFailure cfg now endpoint, [.failed now])
  | _, _ => (endpoint, [])

def verdictOf (endpoint : EndpointState) : FetchAction → Verdict
  | .start now => (raiseIfCircuitOpen now endpoint).1
  | _ => .passed

def runtimeStep (cfg : EndpointRuntimeConfig) (workers : ℕ) (s : RuntimeState) :
    RuntimeAction → Option RuntimeState
  | .fetch id action =>
    ((s.fetches id).advance cfg (verdictOf s.endpoint action) action).bind fun f =>
      (s.executor.advance workers id (s.fetches id).phase action).map fun executor =>
        let out := shared cfg s.endpoint (s.fetches id).phase action
        { endpoint := out.1
          executor := executor
          fetches := Function.update s.fetches id f
          history := s.history ++ out.2 }
  | .occupied =>
    if s.executor.Free workers then
      some { s with executor := { s.executor with others := s.executor.others + 1 } }
    else none
  | .released =>
    if 0 < s.executor.others then
      some { s with executor := { s.executor with others := s.executor.others - 1 } }
    else none

/-! The circuit -/

/-- The failures since the last success and the last fetch that passed an expired circuit, and the
time of the last of them. -/
def tallyEvent (tally : ℕ × Option ℤ) : CircuitEvent → ℕ × Option ℤ
  | .checked _ .passedExpired => (0, none)
  | .checked _ _ => tally
  | .succeeded => (0, none)
  | .failed now => (tally.1 + 1, some now)

def tally (history : List CircuitEvent) : ℕ × Option ℤ := history.foldl tallyEvent (0, none)

/-- A fetch is refused while enough failures are recorded and the last of them is not long ago. -/
def HeedsCircuit (cfg : EndpointRuntimeConfig) (before : List CircuitEvent) : CircuitEvent → Prop
  | .checked now verdict => cfg.failureThreshold ≤ (tally before).1 →
      (∃ last ∈ (tally before).2, now < last + cfg.cooldown) → verdict = .refused
  | _ => True

/-- The endpoint is what the history makes of it. -/
structure RuntimeState.Circuit (cfg : EndpointRuntimeConfig) (s : RuntimeState) : Prop where
  failures : s.endpoint.consecutiveFailures = (tally s.history).1
  openUntil : s.endpoint.circuitOpenUntil =
    if cfg.failureThreshold ≤ (tally s.history).1 then
      (tally s.history).2.map fun last => last + cfg.cooldown
    else none
  heeds : Trace.Along (HeedsCircuit cfg) s.history

section Circuit

variable {cfg : EndpointRuntimeConfig} {workers : ℕ} {s s' : RuntimeState}

private theorem runtimeStep_fetch {id : ℕ} {action : FetchAction}
    (hstep : runtimeStep cfg workers s (.fetch id action) = some s') :
    ∃ f executor, (s.fetches id).advance cfg (verdictOf s.endpoint action) action = some f ∧
      s' = ⟨(shared cfg s.endpoint (s.fetches id).phase action).1, executor,
        Function.update s.fetches id f,
        s.history ++ (shared cfg s.endpoint (s.fetches id).phase action).2⟩ := by
  obtain ⟨f, hf, hrest⟩ := Option.bind_eq_some_iff.mp hstep
  obtain ⟨executor, -, rfl⟩ := Option.map_eq_some_iff.mp hrest
  exact ⟨f, executor, hf, rfl⟩

private theorem runtimeStep_worker {a : RuntimeAction} (ha : a = .occupied ∨ a = .released)
    (hstep : runtimeStep cfg workers s a = some s') :
    s'.endpoint = s.endpoint ∧ s'.fetches = s.fetches ∧ s'.history = s.history := by
  rcases ha with rfl | rfl
  · simp only [runtimeStep] at hstep
    split at hstep
    · exact Option.some.inj hstep ▸ ⟨rfl, rfl, rfl⟩
    · cases hstep
  · simp only [runtimeStep] at hstep
    split at hstep
    · exact Option.some.inj hstep ▸ ⟨rfl, rfl, rfl⟩
    · cases hstep

private theorem tally_concat (history : List CircuitEvent) (e : CircuitEvent) :
    tally (history ++ [e]) = tallyEvent (tally history) e := by
  unfold tally
  rw [List.foldl_append]
  rfl

private theorem circuit_checked (h : s.Circuit cfg) (now : ℤ) (executor : Executor)
    (fetches : ℕ → FetchCall) :
    RuntimeState.Circuit cfg ⟨(raiseIfCircuitOpen now s.endpoint).2, executor, fetches,
      s.history ++ [.checked now (raiseIfCircuitOpen now s.endpoint).1]⟩ := by
  have hopen := h.openUntil
  have hfailures := h.failures
  unfold raiseIfCircuitOpen
  cases hstate : s.endpoint.circuitOpenUntil with
  | none =>
    have hquiet : HeedsCircuit cfg s.history (.checked now .passed) := by
      rintro hthreshold ⟨last, hlast, -⟩
      rw [if_pos hthreshold, hlast, hstate] at hopen
      cases hopen
    refine ⟨?_, ?_, h.heeds.concat hquiet⟩
    · simp only [tally_concat]
      exact hfailures
    · simp only [tally_concat]
      exact hstate.trans (hstate.symm.trans hopen)
  | some openUntil =>
    simp only
    by_cases hnow : now < openUntil
    · rw [if_pos hnow]
      refine ⟨?_, ?_, h.heeds.concat fun _ _ => rfl⟩
      · simp only [tally_concat]
        exact hfailures
      · simp only [tally_concat]
        exact hopen
    · rw [if_neg hnow]
      have hover : HeedsCircuit cfg s.history (.checked now .passedExpired) := by
        rintro hthreshold ⟨last, hlast, hlt⟩
        rw [if_pos hthreshold, hlast, hstate] at hopen
        exact absurd (Option.some.inj hopen ▸ hlt) hnow
      refine ⟨?_, ?_, h.heeds.concat hover⟩
      · simp only [tally_concat]
        rfl
      · simp only [tally_concat]
        exact (if_neg (Nat.not_le.mpr cfg.threshold_pos)).symm

private theorem circuit_succeeded (h : s.Circuit cfg) (executor : Executor)
    (fetches : ℕ → FetchCall) :
    RuntimeState.Circuit cfg ⟨freshEndpoint, executor, fetches, s.history ++ [.succeeded]⟩ := by
  refine ⟨?_, ?_, h.heeds.concat trivial⟩
  · simp only [tally_concat]
    rfl
  · simp only [tally_concat]
    exact (if_neg (Nat.not_le.mpr cfg.threshold_pos)).symm

private theorem circuit_failed (h : s.Circuit cfg) (now : ℤ) (executor : Executor)
    (fetches : ℕ → FetchCall) : RuntimeState.Circuit cfg
      ⟨recordFailure cfg now s.endpoint, executor, fetches, s.history ++ [.failed now]⟩ := by
  have hcount : s.endpoint.consecutiveFailures + 1 = (tallyEvent (tally s.history) (.failed now)).1 :=
    congrArg (fun n => n + 1) h.failures
  refine ⟨?_, ?_, h.heeds.concat trivial⟩
  · simp only [tally_concat]
    exact hcount
  · simp only [tally_concat, recordFailure]
    rw [hcount]
    by_cases hthreshold : cfg.failureThreshold ≤ (tallyEvent (tally s.history) (.failed now)).1
    · rw [if_pos hthreshold, if_pos hthreshold]
      rfl
    · have hbefore : ¬cfg.failureThreshold ≤ (tally s.history).1 :=
        fun hle => hthreshold (Nat.le_succ_of_le hle)
      rw [if_neg hthreshold, if_neg hthreshold, h.openUntil, if_neg hbefore]

theorem RuntimeState.Circuit.step (h : s.Circuit cfg) {a : RuntimeAction}
    (hstep : runtimeStep cfg workers s a = some s') : s'.Circuit cfg := by
  have hworker : a = .occupied ∨ a = .released → s'.Circuit cfg := by
    intro ha
    obtain ⟨hendpoint, -, hhistory⟩ := runtimeStep_worker ha hstep
    exact ⟨by rw [hendpoint, hhistory]; exact h.failures, by rw [hendpoint, hhistory]; exact h.openUntil,
      hhistory ▸ h.heeds⟩
  cases a with
  | occupied => exact hworker (Or.inl rfl)
  | released => exact hworker (Or.inr rfl)
  | fetch id action =>
    obtain ⟨f, executor, -, rfl⟩ := runtimeStep_fetch hstep
    have hsame : RuntimeState.Circuit cfg
        ⟨s.endpoint, executor, Function.update s.fetches id f, s.history ++ []⟩ := by
      rw [List.append_nil]
      exact ⟨h.failures, h.openUntil, h.heeds⟩
    cases action with
    | start now => exact circuit_checked h now _ _
    | submitted | taken | ended | timedOut | fallback | version => exact hsame
    | record now =>
      generalize (s.fetches id).phase = phase
      cases phase with
      | succeeded => exact circuit_succeeded h _ _
      | failing => exact circuit_failed h now _ _
      | _ => exact hsame

end Circuit

/-! The account of a fetch -/

/-- Neither the normalizer of the empty frame that stands for a missing one nor a lookup of the
version raises. -/
def FetchAction.Quiet : FetchAction → Prop
  | .fallback (some _) | .version (some _) => False
  | _ => True

/-- What a fetch has called and recorded, by where it stands. -/
def FetchCall.Accounted (cfg : EndpointRuntimeConfig) (f : FetchCall) : Prop :=
  match f.phase with
  | .idle | .refused => f.calls = 0 ∧ f.outcomes = []
  | .ready attempt | .waiting attempt =>
    f.calls < attempt ∧ attempt ≤ cfg.maxRetries ∧ f.outcomes = []
  | .running attempt | .fallback attempt | .succeeded attempt _ =>
    f.calls ≤ attempt ∧ attempt ≤ cfg.maxRetries ∧ f.outcomes = []
  | .version _ _ | .returned => f.calls ≤ cfg.maxRetries ∧ f.outcomes = [true]
  | .failing _ => f.calls ≤ cfg.maxRetries ∧ f.outcomes = []
  | .raised _ => f.calls ≤ cfg.maxRetries ∧ f.outcomes = [false]

section Account

variable {cfg : EndpointRuntimeConfig} {workers : ℕ} {s s' : RuntimeState}

private theorem accounted_handled {attempt calls : ℕ} (hcalls : calls ≤ attempt)
    (hle : attempt ≤ cfg.maxRetries) (error : FetchRaised) :
    FetchCall.Accounted cfg ⟨handled cfg attempt error, calls, []⟩ := by
  have hretry : FetchCall.Accounted cfg
      ⟨if attempt < cfg.maxRetries then .ready (attempt + 1) else .failing .network, calls, []⟩ := by
    split
    · exact ⟨Nat.lt_succ_of_le hcalls, by omega, rfl⟩
    · exact ⟨Nat.le_trans hcalls hle, rfl⟩
  cases error with
  | schemaDrift | emptyData => exact ⟨Nat.le_trans hcalls hle, rfl⟩
  | noneSubscript => exact ⟨hcalls, hle, rfl⟩
  | network | typeError | other => exact hretry

theorem FetchCall.Accounted.advance {f f' : FetchCall} (h : f.Accounted cfg) {verdict : Verdict}
    {action : FetchAction} (hquiet : action.Quiet) (hadvance : f.advance cfg verdict action = some f') :
    f'.Accounted cfg := by
  obtain ⟨phase, calls, outcomes⟩ := f
  unfold FetchCall.advance at hadvance
  simp only at hadvance
  split at hadvance
  case h_1 =>
    obtain rfl := Option.some.inj hadvance
    obtain ⟨rfl, rfl⟩ : calls = 0 ∧ outcomes = [] := h
    split
    · exact ⟨rfl, rfl⟩
    · exact ⟨Nat.zero_lt_one, cfg.retries_pos, rfl⟩
  case h_2 => exact Option.some.inj hadvance ▸ h
  case h_3 => exact Option.some.inj hadvance ▸ h
  case h_4 caller normalizer attempt =>
    obtain rfl := Option.some.inj hadvance
    obtain ⟨hcalls, hle, rfl⟩ : calls ≤ attempt ∧ attempt ≤ cfg.maxRetries ∧ outcomes = [] := h
    cases caller.or normalizer with
    | none => exact ⟨hcalls, hle, rfl⟩
    | some error => exact accounted_handled hcalls hle error
  case h_5 attempt =>
    obtain rfl := Option.some.inj hadvance
    obtain ⟨hcalls, hle, rfl⟩ : calls < attempt ∧ attempt ≤ cfg.maxRetries ∧ outcomes = [] := h
    exact accounted_handled (Nat.le_of_lt hcalls) hle .network
  case h_6 attempt =>
    obtain rfl := Option.some.inj hadvance
    obtain ⟨hcalls, hle, rfl⟩ : calls ≤ attempt ∧ attempt ≤ cfg.maxRetries ∧ outcomes = [] := h
    exact accounted_handled hcalls hle .network
  case h_7 normalizer attempt =>
    obtain rfl := Option.some.inj hadvance
    cases normalizer with
    | none => exact h
    | some error => cases hquiet
  case h_8 attempt guarded =>
    obtain rfl := Option.some.inj hadvance
    obtain ⟨hcalls, hle, rfl⟩ : calls ≤ attempt ∧ attempt ≤ cfg.maxRetries ∧ outcomes = [] := h
    exact ⟨Nat.le_trans hcalls hle, rfl⟩
  case h_9 error =>
    obtain rfl := Option.some.inj hadvance
    obtain ⟨hcalls, rfl⟩ : calls ≤ cfg.maxRetries ∧ outcomes = [] := h
    exact ⟨hcalls, rfl⟩
  case h_10 lookup attempt guarded =>
    obtain rfl := Option.some.inj hadvance
    cases lookup with
    | none => exact h
    | some error => cases hquiet
  case h_11 => cases hadvance

/-- A fetch that is refused has not called and recorded anything. -/
def FetchCall.Untouched (f : FetchCall) : Prop :=
  f.phase = .idle ∨ f.phase = .refused → f.calls = 0 ∧ f.outcomes = []

private theorem handled_ne (cfg : EndpointRuntimeConfig) (attempt : ℕ) (error : FetchRaised) :
    handled cfg attempt error ≠ .idle ∧ handled cfg attempt error ≠ .refused := by
  cases error with
  | schemaDrift | emptyData | noneSubscript => exact ⟨FetchPhase.noConfusion, FetchPhase.noConfusion⟩
  | network | typeError | other =>
    unfold handled
    simp only
    split
    all_goals exact ⟨FetchPhase.noConfusion, FetchPhase.noConfusion⟩

theorem FetchCall.Untouched.advance {f f' : FetchCall} (h : f.Untouched) {verdict : Verdict}
    {action : FetchAction} (hadvance : f.advance cfg verdict action = some f') : f'.Untouched := by
  obtain ⟨phase, calls, outcomes⟩ := f
  unfold FetchCall.advance at hadvance
  simp only at hadvance
  have hother : ∀ f : FetchCall, f.phase ≠ .idle ∧ f.phase ≠ .refused → f.Untouched :=
    fun f hne hphase => absurd hphase (by rintro (hidle | hrefused)
                                          · exact hne.1 hidle
                                          · exact hne.2 hrefused)
  split at hadvance
  case h_1 =>
    obtain rfl := Option.some.inj hadvance
    exact fun _ => h (Or.inl rfl)
  case h_2 | h_3 | h_8 | h_9 =>
    obtain rfl := Option.some.inj hadvance
    exact hother _ ⟨FetchPhase.noConfusion, FetchPhase.noConfusion⟩
  case h_4 caller normalizer attempt =>
    obtain rfl := Option.some.inj hadvance
    apply hother
    cases caller.or normalizer with
    | none => exact ⟨FetchPhase.noConfusion, FetchPhase.noConfusion⟩
    | some error => exact handled_ne cfg attempt error
  case h_5 attempt | h_6 attempt =>
    obtain rfl := Option.some.inj hadvance
    exact hother _ (handled_ne cfg attempt .network)
  case h_7 normalizer attempt =>
    obtain rfl := Option.some.inj hadvance
    apply hother
    cases normalizer with
    | none => exact ⟨FetchPhase.noConfusion, FetchPhase.noConfusion⟩
    | some error => exact ⟨FetchPhase.noConfusion, FetchPhase.noConfusion⟩
  case h_10 lookup attempt guarded =>
    obtain rfl := Option.some.inj hadvance
    apply hother
    cases lookup with
    | none => exact ⟨FetchPhase.noConfusion, FetchPhase.noConfusion⟩
    | some error =>
      cases guarded with
      | true => exact handled_ne cfg attempt error
      | false => exact ⟨FetchPhase.noConfusion, FetchPhase.noConfusion⟩
  case h_11 => cases hadvance

/-- The caller is called when a worker takes an attempt, and at no other time. -/
private theorem calls_advance {f f' : FetchCall} {verdict : Verdict} {action : FetchAction}
    (hadvance : f.advance cfg verdict action = some f') :
    f'.calls = f.calls + if action = .taken then 1 else 0 := by
  unfold FetchCall.advance at hadvance
  split at hadvance
  case h_3 => exact Option.some.inj hadvance ▸ rfl
  case h_11 => cases hadvance
  all_goals exact Option.some.inj hadvance ▸ rfl

private theorem fetches_step {P : FetchCall → Prop} {a : RuntimeAction} (id : ℕ)
    (hadvance : ∀ action, a = .fetch id action → ∀ f f' verdict, P f →
      f.advance cfg verdict action = some f' → P f')
    (h : P (s.fetches id)) (hstep : runtimeStep cfg workers s a = some s') : P (s'.fetches id) := by
  cases a with
  | occupied =>
    rw [(runtimeStep_worker (Or.inl rfl) hstep).2.1]
    exact h
  | released =>
    rw [(runtimeStep_worker (Or.inr rfl) hstep).2.1]
    exact h
  | fetch id' action =>
    obtain ⟨f, executor, hf, rfl⟩ := runtimeStep_fetch hstep
    simp only
    by_cases hid : id' = id
    · subst hid
      rw [Function.update_self]
      exact hadvance action rfl _ f _ h hf
    · rw [Function.update_of_ne (Ne.symm hid)]
      exact h

private theorem calls_step {a : RuntimeAction} (id : ℕ)
    (hstep : runtimeStep cfg workers s a = some s') :
    (s'.fetches id).calls = (s.fetches id).calls + if a = .fetch id .taken then 1 else 0 := by
  cases a with
  | occupied =>
    rw [(runtimeStep_worker (Or.inl rfl) hstep).2.1]
    rfl
  | released =>
    rw [(runtimeStep_worker (Or.inr rfl) hstep).2.1]
    rfl
  | fetch id' action =>
    obtain ⟨f, executor, hf, rfl⟩ := runtimeStep_fetch hstep
    simp only
    by_cases hid : id' = id
    · subst hid
      rw [Function.update_self, calls_advance hf]
      simp
    · rw [Function.update_of_ne (Ne.symm hid)]
      simp [hid]

private theorem calls_of_exec (id : ℕ) {actions : List RuntimeAction}
    (hrun : exec (runtimeStep cfg workers) s actions = some s') :
    (s'.fetches id).calls = (s.fetches id).calls + actions.count (.fetch id .taken) := by
  induction actions generalizing s with
  | nil =>
    obtain rfl := Option.some.inj hrun
    rfl
  | cons a actions ih =>
    obtain ⟨m, hstep, hrest⟩ := exec_cons_some.mp hrun
    rw [ih hrest, calls_step id hstep, List.count_cons, Nat.add_assoc, Nat.add_comm (actions.count _)]
    simp only [beq_iff_eq]

end Account

/-! Runs -/

/-- A fetch that has ended called at least once and at most as often as there are retries, and has
recorded its outcome once. -/
structure FetchCall.Accounts (cfg : EndpointRuntimeConfig) (f : FetchCall) : Prop where
  returned : f.phase = .returned → 0 < f.calls ∧ f.calls ≤ cfg.maxRetries ∧ f.outcomes = [true]
  raised : ∀ error, f.phase = .raised error →
    0 < f.calls ∧ f.calls ≤ cfg.maxRetries ∧ f.outcomes = [false]

theorem FetchCall.Accounted.accounts {cfg : EndpointRuntimeConfig} {f : FetchCall}
    (h : f.Accounted cfg) (hcalls : 0 < f.calls) : f.Accounts cfg := by
  unfold FetchCall.Accounted at h
  refine ⟨fun hphase => ?_, fun error hphase => ?_⟩
  · rw [hphase] at h
    exact ⟨hcalls, h⟩
  · rw [hphase] at h
    exact ⟨hcalls, h⟩

private theorem circuit_start (cfg : EndpointRuntimeConfig) : RuntimeState.start.Circuit cfg :=
  ⟨rfl, (if_neg (Nat.not_le.mpr cfg.threshold_pos)).symm, Trace.Along.nil⟩

/-- Two fetches of an endpoint whose circuit opens at the first failure; the second one starts
before it and gets a worker after a call of another endpoint has left it. -/
def twoFetches : List RuntimeAction :=
  [.fetch 0 (.start 0), .fetch 1 (.start 1), .occupied, .fetch 0 .submitted, .released,
    .fetch 0 .taken, .fetch 0 .timedOut, .fetch 0 (.record 2), .fetch 2 (.start 3),
    .fetch 1 .submitted, .released, .fetch 1 .taken, .fetch 1 (.ended (some .noneSubscript) none),
    .fetch 1 (.fallback none), .fetch 1 (.record 4), .fetch 1 (.version none)]

end QuantDataCenter.Concurrency
