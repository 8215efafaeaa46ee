import QuantDataCenter.Lib.Transition
import QuantDataCenter.Sources.SpotQuote

/-!
The queue of pending capital structure updates (`capital_structure_pending.py`). Both calls hold the
lock of the process from the read of the file to its replacement, so the threads take turns; a
process may be killed at any point, and leaves the file it last put in place.
-/

set_option autoImplicit false
set_option relaxedAutoImplicit false

namespace QuantDataCenter.Sources

open QuantDataCenter.Lib.Transition QuantDataCenter.Tabular QuantDataCenter.Storage

inductive PendingStatus where
  | pending
  | failedRetryable
  | success
  deriving DecidableEq, Repr

/-- `RETRYABLE_STATUSES`. -/
def retryableStatuses : List PendingStatus := [.pending, .failedRetryable]

structure PendingRow where
  code : String
  triggerDataset : String
  triggerReason : String
  triggeredAt : ℤ
  status : PendingStatus
  lastAttemptAt : Option ℤ
  errorStack : String
  deriving DecidableEq, Repr

/-- What a drain looks at in a record of the updater. -/
structure UpdateRecord where
  status : Option String
  deriving DecidableEq, Repr

inductive UpdaterOutcome where
  | returned (records : List UpdateRecord)
  | raised
  deriving DecidableEq, Repr

def PendingRow.retryable (row : PendingRow) : Bool := decide (row.status ∈ retryableStatuses)

/-- The row is a retryable one of the code. -/
def activeFor (code : String) (row : PendingRow) : Bool := row.code == code && row.retryable

/-- `_normalize_trigger_code`: what is behind the first dot, if there is one. -/
def normalizeTriggerCode (p : Pandas) (code : String) : Except StoreError String :=
  let value := (strip code).toList
  normalizeAkshareCode p (.text (String.ofList
    (if '.' ∈ value then (value.dropWhile fun c => c ≠ '.').drop 1 else value)))

/-- `_timestamp_ms`. -/
def timestampMs (now : ℤ) : ℤ := now / nsPerMs * nsPerMs

/-- The rows of the code that can be retried become the new one; without them it is appended. -/
def enqueueRow (row : PendingRow) (current : List PendingRow) : List PendingRow :=
  if current.any (activeFor row.code) then
    current.map fun old => if activeFor row.code old then row else old
  else current ++ [row]

/-- The indexes of the rows that a drain tries. -/
def retryableIndexes (current : List PendingRow) : List ℕ :=
  (List.range current.length).filter fun i => (current[i]?).any PendingRow.retryable

def UpdaterOutcome.failed : UpdaterOutcome → Bool
  | .returned records => records.any fun record => record.status == some "failed"
  | .raised => true

def attempted (outcome : UpdaterOutcome) (errorStack : String) (attemptTime : ℤ) (row : PendingRow) :
    PendingRow :=
  if outcome.failed then
    { row with status := .failedRetryable, errorStack := errorStack, lastAttemptAt := some attemptTime }
  else { row with status := .success, errorStack := "", lastAttemptAt := some attemptTime }

/-! The process -/

/-- A drain between its read and its write: the rows it still has to try, and the one whose updater
is running. -/
structure DrainJob where
  attemptTime : ℤ
  current : List PendingRow
  remaining : List ℕ
  calling : Option ℕ
  records : List UpdateRecord

/-- What the thread that holds the lock is doing. -/
inductive QueueJob where
  | enqueue (row : PendingRow) (updated : List PendingRow)
  | drain (job : DrainJob)

structure QueueState where
  file : List PendingRow
  holder : Option QueueJob

def QueueState.start (file : List PendingRow) : QueueState := ⟨file, none⟩

/-- A call takes the lock and reads the file; the updater is called for a row and returns; the file
is replaced and the lock released. A call that raises before that releases the lock only. -/
inductive QueueAction where
  | enqueueCalled (code triggerDataset triggerReason : String) (now : ℤ)
  | drainCalled (now : ℤ)
  | updaterCalled
  | updaterEnded (outcome : UpdaterOutcome) (errorStack : String)
  | fileReplaced
  | callRaised
  | killed

def codeAt (current : List PendingRow) (i : ℕ) : String := ((current[i]?).map PendingRow.code).getD ""

/-- The updater ends for the row with the index. -/
def DrainJob.ended (job : DrainJob) (i : ℕ) (outcome : UpdaterOutcome) (errorStack : String) :
    DrainJob :=
  { job with
    current := job.current.modify i (attempted outcome errorStack job.attemptTime)
    calling := none
    records := job.records ++ match outcome with
      | .returned records => if outcome.failed then [] else records
      | .raised => [] }

def queueStep (p : Pandas) (s : QueueState) : QueueAction → Option QueueState
  | .enqueueCalled code triggerDataset triggerReason now =>
    match s.holder, normalizeTriggerCode p code with
    | none, .ok stockCode =>
      let row := ⟨stockCode, triggerDataset, triggerReason, timestampMs now, .pending, none, ""⟩
      some { s with holder := some (.enqueue row (enqueueRow row s.file)) }
    | none, .error _ => some s
    | some _, _ => none
  | .drainCalled now =>
    match s.holder with
    | none =>
      if s.file = [] then some s
      else some { s with
        holder := some (.drain ⟨timestampMs now, s.file, retryableIndexes s.file, none, []⟩) }
    | some _ => none
  | .updaterCalled =>
    match s.holder with
    | some (.drain job) =>
      match job.calling, job.remaining with
      | none, i :: remaining =>
        some { s with holder := some (.drain { job with remaining := remaining, calling := some i }) }
      | _, _ => none
    | _ => none
  | .updaterEnded outcome errorStack =>
    match s.holder with
    | some (.drain job) =>
      match job.calling with
      | some i => some { s with holder := some (.drain (job.ended i outcome errorStack)) }
      | none => none
    | _ => none
  | .fileReplaced =>
    match s.holder with
    | some (.enqueue _ updated) => some ⟨updated, none⟩
    | some (.drain job) =>
      if job.calling = none ∧ job.remaining = [] then some ⟨job.current, none⟩ else none
    | none => none
  | .callRaised | .killed => some { s with holder := none }

/-! What holds between the steps -/

/-- At most one row of each code can be retried. -/
def OnePerCode (queue : List PendingRow) : Prop := ∀ code, queue.countP (activeFor code) ≤ 1

def HasActive (code : String) (queue : List PendingRow) : Prop :=
  ∃ row ∈ queue, activeFor code row = true

/-- The next row that the running drain tries has the code. -/
def QueueState.CallsNext (s : QueueState) (code : String) : Prop :=
  ∃ job i remaining, s.holder = some (.drain job) ∧ job.remaining = i :: remaining ∧
    codeAt job.current i = code

def QueueAction.ofUpdater : QueueAction → Bool
  | .updaterCalled | .updaterEnded _ _ => true
  | _ => false

/-- From the state on, an updater call of the code was started and reported no failure, and since
then its drain has called updaters only. -/
def UpdaterSucceeded (p : Pandas) (s : QueueState) (actions : List QueueAction) (code : String) : Prop :=
  ∃ before called outcome errorStack between,
    actions = before ++ .updaterCalled :: .updaterEnded outcome errorStack :: between ∧
    exec (queueStep p) s before = some called ∧ called.CallsNext code ∧ outcome.failed = false ∧
    ∀ a ∈ between, a.ofUpdater = true

/-- From the state on, an updater call of the code was started and reported no failure, and its
drain has replaced the file. -/
def Delivered (p : Pandas) (s : QueueState) (actions : List QueueAction) (code : String) : Prop :=
  ∃ before after, actions = before ++ .fileReplaced :: after ∧ UpdaterSucceeded p s before code

/-- What the rows of a running drain keep of those of the file. -/
structure DrainJob.Fits (job : DrainJob) (file : List PendingRow) : Prop where
  rows : List.Forall₂ (fun row row' : PendingRow => row'.code = row.code ∧
    (row'.retryable = true → row.retryable = true)) file job.current
  chosen : ∀ i, i ∈ job.remaining ∨ i ∈ job.calling →
    ∃ row, file[i]? = some row ∧ row.retryable = true

/-- What the holder of the lock is about to write. -/
def QueueJob.Fits (file : List PendingRow) : QueueJob → Prop
  | .enqueue row updated => row.retryable = true ∧ updated = enqueueRow row file
  | .drain job => job.Fits file

structure QueueState.Holds (s : QueueState) : Prop where
  unique : OnePerCode s.file
  job : ∀ job ∈ s.holder, job.Fits s.file

/-- What the holder of the lock is about to write keeps a row of the code, or takes it out for a
success. -/
def QueueJob.Keeps (p : Pandas) (s : QueueState) (actions : List QueueAction) (code : String) :
    QueueJob → Prop
  | .enqueue _ updated => HasActive code updated
  | .drain job => (HasActive code job.current ∨ UpdaterSucceeded p s actions code) ∧
      ∀ i ∈ job.calling, ∃ before called, actions = before ++ [.updaterCalled] ∧
        exec (queueStep p) s before = some called ∧ called.CallsNext (codeAt job.current i)

/-- The code that had a row that can be retried in the first state has one in the second, unless it
was delivered between them. -/
def KeptTo (p : Pandas) (s : QueueState) (actions : List QueueAction) (code : String)
    (s' : QueueState) : Prop :=
  Delivered p s actions code ∨
    HasActive code s'.file ∧ ∀ job ∈ s'.holder, job.Keeps p s actions code

section Enqueue

variable {row : PendingRow} {queue : List PendingRow}

private theorem activeFor_replaced (hrow : row.retryable = true) (code : String)
    (old : PendingRow) :
    activeFor code (if activeFor row.code old then row else old) = activeFor code old := by
  split
  case isTrue hold =>
    unfold activeFor at hold ⊢
    simp only [Bool.and_eq_true, beq_iff_eq] at hold
    rw [hrow, hold.2, hold.1]
  case isFalse => rfl

private theorem onePerCode_enqueueRow (hrow : row.retryable = true) (hqueue : OnePerCode queue) :
    OnePerCode (enqueueRow row queue) := by
  intro code
  have hcode := hqueue code
  unfold enqueueRow
  split
  case isTrue =>
    rw [List.countP_map]
    refine (le_of_eq (List.countP_congr fun old _ => ?_)).trans hcode
    rw [Function.comp_apply, activeFor_replaced hrow]
  case isFalse hnone =>
    rw [List.countP_append, List.countP_singleton]
    split
    case isTrue hactive =>
      have hsame : row.code = code := by
        unfold activeFor at hactive
        simp only [Bool.and_eq_true, beq_iff_eq] at hactive
        exact hactive.1
      have hzero : queue.countP (activeFor code) = 0 := by
        rw [List.countP_eq_zero, ← hsame]
        intro old hold hactive'
        exact hnone (List.any_eq_true.mpr ⟨old, hold, hactive'⟩)
      rw [hzero]
    case isFalse => exact hcode

private theorem active_enqueueRow (hrow : row.retryable = true) {code : String}
    (hcode : code = row.code ∨ HasActive code queue) : HasActive code (enqueueRow row queue) := by
  have hself : activeFor row.code row = true := by
    unfold activeFor
    rw [hrow, beq_self_eq_true, Bool.and_self]
  unfold enqueueRow
  split
  case isTrue hany =>
    have hold : ∃ old ∈ queue, activeFor code old = true := by
      rcases hcode with rfl | hold
      · exact List.any_eq_true.mp hany
      · exact hold
    obtain ⟨old, hmem, hactive⟩ := hold
    exact ⟨_, List.mem_map_of_mem hmem, (activeFor_replaced hrow code old).trans hactive⟩
  case isFalse =>
    rcases hcode with rfl | ⟨old, hmem, hactive⟩
    · exact ⟨row, by simp, hself⟩
    · exact ⟨old, List.mem_append_left _ hmem, hactive⟩

end Enqueue

section Drain

variable {job : DrainJob} {file : List PendingRow}

private theorem countP_le_of_forall₂ {α β : Type*} {f : α → Bool} {g : β → Bool} {R : α → β → Prop}
    (himp : ∀ a b, R a b → g b = true → f a = true) {l : List α} {l' : List β}
    (h : List.Forall₂ R l l') : l'.countP g ≤ l.countP f := by
  induction h with
  | nil => exact le_rfl
  | @cons a b l l' hab _ ih =>
    rw [List.countP_cons, List.countP_cons]
    by_cases hb : g b = true
    · rw [if_pos hb, if_pos (himp a b hab hb)]
      omega
    · rw [if_neg hb]
      omega

private theorem DrainJob.Fits.onePerCode (hjob : job.Fits file) (hfile : OnePerCode file) :
    OnePerCode job.current := by
  intro code
  refine (countP_le_of_forall₂ (fun row row' hrows hactive => ?_) hjob.rows).trans (hfile code)
  obtain ⟨hcode, hretry⟩ := hrows
  unfold activeFor at hactive ⊢
  rw [Bool.and_eq_true] at hactive ⊢
  exact ⟨hcode ▸ hactive.1, hretry hactive.2⟩

private theorem fits_begun (attemptTime : ℤ) (file : List PendingRow) :
    DrainJob.Fits ⟨attemptTime, file, retryableIndexes file, none, []⟩ file := by
  refine ⟨?_, fun i hi => ?_⟩
  · rw [List.forall₂_same]
    exact fun row _ => ⟨rfl, id⟩
  · rcases hi with hi | hi
    · obtain ⟨-, hretry⟩ := List.mem_filter.mp hi
      exact (Option.any_eq_true _ _).mp hretry
    · cases hi

theorem DrainJob.Fits.called (hjob : job.Fits file) {i : ℕ} {remaining : List ℕ}
    (hremaining : job.remaining = i :: remaining) :
    DrainJob.Fits { job with remaining := remaining, calling := some i } file := by
  refine ⟨hjob.rows, fun j hj => hjob.chosen j (Or.inl ?_)⟩
  rw [hremaining]
  rcases hj with hj | hj
  · exact List.mem_cons_of_mem i hj
  · exact Option.some.inj hj ▸ List.mem_cons_self

private theorem attempted_code (outcome : UpdaterOutcome) (errorStack : String) (attemptTime : ℤ)
    (row : PendingRow) : (attempted outcome errorStack attemptTime row).code = row.code := by
  unfold attempted
  split <;> rfl

private theorem attempted_retryable (outcome : UpdaterOutcome) (errorStack : String)
    (attemptTime : ℤ)
    (row : PendingRow) :
    (attempted outcome errorStack attemptTime row).retryable = outcome.failed := by
  unfold attempted
  cases outcome.failed <;> rfl

theorem DrainJob.Fits.ended (hjob : job.Fits file) {i : ℕ} (hcalling : job.calling = some i)
    (outcome : UpdaterOutcome) (errorStack : String) : (job.ended i outcome errorStack).Fits file := by
  refine ⟨?_, fun j hj => ?_⟩
  · obtain ⟨hlength, hget⟩ := List.forall₂_iff_get.mp hjob.rows
    refine List.forall₂_iff_get.mpr ⟨?_, fun k hk hk' => ?_⟩
    · unfold DrainJob.ended
      rw [List.length_modify]
      exact hlength
    · obtain ⟨hcode, hretry⟩ := hget k hk (hlength ▸ hk)
      simp only [List.get_eq_getElem, DrainJob.ended, List.getElem_modify] at hcode hretry ⊢
      by_cases hik : i = k
      · subst hik
        obtain ⟨row, hrow, hchosen⟩ := hjob.chosen i (Or.inr hcalling)
        have hfound : file[i] = row := Option.some.inj ((List.getElem?_eq_getElem hk).symm.trans hrow)
        rw [if_pos rfl, attempted_code]
        exact ⟨hcode, fun _ => hfound ▸ hchosen⟩
      · rw [if_neg hik]
        exact ⟨hcode, hretry⟩
  · rcases hj with hj | hj
    · exact hjob.chosen j (Or.inl hj)
    · cases hj

/-- A try takes a row out only where it is the row of the code and the updater reported no
failure. -/
private theorem active_modify {code : String} {current : List PendingRow}
    (h : HasActive code current) (i : ℕ) (outcome : UpdaterOutcome) (errorStack : String)
    (attemptTime : ℤ) :
    HasActive code (current.modify i (attempted outcome errorStack attemptTime)) ∨
      codeAt current i = code ∧ outcome.failed = false := by
  obtain ⟨row, hmem, hactive⟩ := h
  obtain ⟨j, hj, rfl⟩ := List.getElem_of_mem hmem
  have hj' : j < (current.modify i (attempted outcome errorStack attemptTime)).length := by
    simpa using hj
  have hmem' : (current.modify i (attempted outcome errorStack attemptTime))[j] ∈
      current.modify i (attempted outcome errorStack attemptTime) := List.getElem_mem hj'
  rw [List.getElem_modify] at hmem'
  by_cases hij : i = j
  · subst hij
    rw [if_pos rfl] at hmem'
    unfold activeFor at hactive
    rw [Bool.and_eq_true, beq_iff_eq] at hactive
    cases hfailed : outcome.failed with
    | true =>
      refine Or.inl ⟨_, hmem', ?_⟩
      unfold activeFor
      rw [attempted_code, attempted_retryable, hfailed, hactive.1, beq_self_eq_true, Bool.and_self]
    | false =>
      refine Or.inr ⟨?_, rfl⟩
      unfold codeAt
      rw [List.getElem?_eq_getElem hj, Option.map_some, Option.getD_some, hactive.1]
  · rw [if_neg hij] at hmem'
    exact Or.inl ⟨_, hmem', hactive⟩

end Drain

/-! Steps and runs -/

section Runs

variable {p : Pandas} {s s₁ s' : QueueState} {actions : List QueueAction} {code : String}

private theorem retryable_pending {row : PendingRow} {stockCode triggerDataset triggerReason : String}
    {now : ℤ} (hrow : row = ⟨stockCode, triggerDataset, triggerReason, now, .pending, none, ""⟩) :
    row.retryable = true := by
  rw [hrow]
  rfl

theorem QueueState.Holds.released (h : s.Holds) : QueueState.Holds { s with holder := none } :=
  ⟨h.unique, fun job hjob => (by cases hjob)⟩

private theorem holds_begun (h : s.Holds) {job : QueueJob} (hjob : job.Fits s.file) :
    QueueState.Holds { s with holder := some job } := by
  refine ⟨h.unique, fun job' hmem => ?_⟩
  obtain rfl := Option.some.inj hmem
  exact hjob

/-- What each action needs and does. -/
inductive QueueStepTo (p : Pandas) (s : QueueState) : QueueAction → QueueState → Prop
  | enqueueBegun {code triggerDataset triggerReason stockCode : String} {now : ℤ} {row : PendingRow}
      (hfree : s.holder = none) (hcode : normalizeTriggerCode p code = .ok stockCode)
      (hrow : row = ⟨stockCode, triggerDataset, triggerReason, timestampMs now, .pending, none, ""⟩) :
      QueueStepTo p s (.enqueueCalled code triggerDataset triggerReason now)
        { s with holder := some (.enqueue row (enqueueRow row s.file)) }
  | enqueueRaised {code triggerDataset triggerReason : String} {now : ℤ} {error : StoreError}
      (hfree : s.holder = none) (hcode : normalizeTriggerCode p code = .error error) :
      QueueStepTo p s (.enqueueCalled code triggerDataset triggerReason now) s
  | drainEmpty {now : ℤ} (hfree : s.holder = none) (hempty : s.file = []) :
      QueueStepTo p s (.drainCalled now) s
  | drainBegun {now : ℤ} (hfree : s.holder = none) (hrows : s.file ≠ []) :
      QueueStepTo p s (.drainCalled now) { s with
        holder := some (.drain ⟨timestampMs now, s.file, retryableIndexes s.file, none, []⟩) }
  | updaterCalled {job : DrainJob} {i : ℕ} {remaining : List ℕ} (hholder : s.holder = some (.drain job))
      (hcalling : job.calling = none) (hremaining : job.remaining = i :: remaining) :
      QueueStepTo p s .updaterCalled
        { s with holder := some (.drain { job with remaining := remaining, calling := some i }) }
  | updaterEnded {outcome : UpdaterOutcome} {errorStack : String} {job : DrainJob} {i : ℕ}
      (hholder : s.holder = some (.drain job)) (hcalling : job.calling = some i) :
      QueueStepTo p s (.updaterEnded outcome errorStack)
        { s with holder := some (.drain (job.ended i outcome errorStack)) }
  | enqueued {row : PendingRow} {updated : List PendingRow}
      (hholder : s.holder = some (.enqueue row updated)) :
      QueueStepTo p s .fileReplaced ⟨updated, none⟩
  | drained {job : DrainJob} (hholder : s.holder = some (.drain job))
      (hdone : job.calling = none ∧ job.remaining = []) :
      QueueStepTo p s .fileReplaced ⟨job.current, none⟩
  | callRaised : QueueStepTo p s .callRaised { s with holder := none }
  | killed : QueueStepTo p s .killed { s with holder := none }

private theorem queueStep_cases {action : QueueAction} (h : queueStep p s action = some s') :
    QueueStepTo p s action s' := by
  cases action with
  | enqueueCalled code triggerDataset triggerReason now =>
    simp only [queueStep] at h
    split at h
    case h_1 hfree hcode =>
      cases h
      exact .enqueueBegun hfree hcode rfl
    case h_2 hfree hcode =>
      cases h
      exact .enqueueRaised hfree hcode
    case h_3 => cases h
  | drainCalled now =>
    simp only [queueStep] at h
    split at h
    case h_1 hfree =>
      split at h
      case isTrue hempty =>
        cases h
        exact .drainEmpty hfree hempty
      case isFalse hrows =>
        cases h
        exact .drainBegun hfree hrows
    case h_2 => cases h
  | updaterCalled =>
    simp only [queueStep] at h
    split at h
    case h_1 job hholder =>
      split at h
      case h_1 i remaining hcalling hremaining =>
        cases h
        exact .updaterCalled hholder hcalling hremaining
      case h_2 => cases h
    case h_2 => cases h
  | updaterEnded outcome errorStack =>
    simp only [queueStep] at h
    split at h
    case h_1 job hholder =>
      split at h
      case h_1 i hcalling =>
        cases h
        exact .updaterEnded hholder hcalling
      case h_2 => cases h
    case h_2 => cases h
  | fileReplaced =>
    simp only [queueStep] at h
    split at h
    case h_1 row updated hholder =>
      cases h
      exact .enqueued hholder
    case h_2 job hholder =>
      split at h
      case isTrue hdone =>
        cases h
        exact .drained hholder hdone
      case isFalse => cases h
    case h_3 => cases h
  | callRaised =>
    cases h
    exact .callRaised
  | killed =>
    cases h
    exact .killed

theorem QueueState.Holds.step (h : s.Holds) {action : QueueAction}
    (hstep : queueStep p s action = some s') : s'.Holds := by
  cases queueStep_cases hstep with
  | enqueueBegun hfree hcode hrow => exact holds_begun h ⟨retryable_pending hrow, rfl⟩
  | enqueueRaised hfree hcode => exact h
  | drainEmpty hfree hempty => exact h
  | drainBegun hfree hrows => exact holds_begun h (fits_begun _ _)
  | @updaterCalled job i remaining hholder hcalling hremaining =>
    have hjob : job.Fits s.file := h.job _ hholder
    exact holds_begun h (hjob.called hremaining)
  | @updaterEnded outcome errorStack job i hholder hcalling =>
    have hjob : job.Fits s.file := h.job _ hholder
    exact holds_begun h (hjob.ended hcalling outcome errorStack)
  | enqueued hholder =>
    obtain ⟨hrow, rfl⟩ := h.job _ hholder
    exact ⟨onePerCode_enqueueRow hrow h.unique, fun job hjob => (by cases hjob)⟩
  | @drained job hholder hdone =>
    have hjob : job.Fits s.file := h.job _ hholder
    exact ⟨hjob.onePerCode h.unique, fun job hjob => (by cases hjob)⟩
  | callRaised => exact h.released
  | killed => exact h.released

theorem Delivered.append (h : Delivered p s actions code) (later : List QueueAction) :
    Delivered p s (actions ++ later) code := by
  obtain ⟨before, after, rfl, hsucceeded⟩ := h
  exact ⟨before, after ++ later, by simp, hsucceeded⟩

theorem UpdaterSucceeded.concat (h : UpdaterSucceeded p s actions code) {a : QueueAction}
    (ha : a.ofUpdater = true) : UpdaterSucceeded p s (actions ++ [a]) code := by
  obtain ⟨before, called, outcome, errorStack, between, rfl, hrun, hnext, hfailed, hbetween⟩ := h
  refine ⟨before, called, outcome, errorStack, between ++ [a], by simp, hrun, hnext, hfailed, ?_⟩
  intro a' hmem
  rcases List.mem_append.mp hmem with hold | hnew
  · exact hbetween a' hold
  · exact List.mem_singleton.mp hnew ▸ ha

private theorem keptTo_idle (hactive : HasActive code s'.file) (hfree : s'.holder = none) :
    KeptTo p s actions code s' := by
  refine Or.inr ⟨hactive, fun job hjob => ?_⟩
  rw [hfree] at hjob
  cases hjob

private theorem keptTo_released {file : List PendingRow} (hactive : HasActive code file) :
    KeptTo p s actions code ⟨file, none⟩ :=
  keptTo_idle hactive rfl

private theorem keptTo_begun {job : QueueJob} (hactive : HasActive code s'.file)
    (hjob : job.Keeps p s actions code) : KeptTo p s actions code { s' with holder := some job } := by
  refine Or.inr ⟨hactive, fun job' hmem => ?_⟩
  obtain rfl := Option.some.inj hmem
  exact hjob

/-- One more action, from a state that the run before it has reached. -/
theorem KeptTo.step (hrun : exec (queueStep p) s actions = some s₁)
    (h : KeptTo p s actions code s₁) {action : QueueAction}
    (hstep : queueStep p s₁ action = some s') : KeptTo p s (actions ++ [action]) code s' := by
  rcases h with hdelivered | ⟨hactive, hkeeps⟩
  · exact Or.inl (hdelivered.append _)
  cases queueStep_cases hstep with
  | enqueueBegun hfree hcode hrow =>
    exact keptTo_begun hactive (active_enqueueRow (retryable_pending hrow) (Or.inr hactive))
  | enqueueRaised hfree hcode => exact keptTo_idle hactive hfree
  | drainEmpty hfree hempty => exact keptTo_idle hactive hfree
  | drainBegun hfree hrows => exact keptTo_begun hactive ⟨Or.inl hactive, fun i hi => (by cases hi)⟩
  | @updaterCalled job i remaining hholder hcalling hremaining =>
    obtain ⟨hrows, -⟩ : QueueJob.Keeps p s actions code (.drain job) := hkeeps _ hholder
    refine keptTo_begun hactive ⟨hrows.imp_right fun hsucceeded => hsucceeded.concat rfl, fun j hj => ?_⟩
    obtain rfl := Option.some.inj hj
    exact ⟨actions, s₁, rfl, hrun, job, i, remaining, hholder, hremaining, rfl⟩
  | @updaterEnded outcome errorStack job i hholder hcalling =>
    obtain ⟨hrows, hcalled⟩ : QueueJob.Keeps p s actions code (.drain job) := hkeeps _ hholder
    refine keptTo_begun hactive ⟨?_, fun j hj => (by cases hj)⟩
    rcases hrows with hrow | hsucceeded
    · rcases active_modify hrow i outcome errorStack job.attemptTime with hkept | ⟨hcode, hfailed⟩
      · exact Or.inl hkept
      · obtain ⟨before, called, rfl, hbefore, hnext⟩ := hcalled i hcalling
        rw [hcode] at hnext
        exact Or.inr ⟨before, called, outcome, errorStack, [], by simp, hbefore, hnext, hfailed,
          fun a ha => (by cases ha)⟩
    · exact Or.inr (hsucceeded.concat rfl)
  | @enqueued row updated hholder =>
    have hupdated : HasActive code updated := hkeeps _ hholder
    exact keptTo_released hupdated
  | @drained job hholder hdone =>
    obtain ⟨hrows, -⟩ : QueueJob.Keeps p s actions code (.drain job) := hkeeps _ hholder
    rcases hrows with hrow | hsucceeded
    · exact keptTo_released hrow
    · exact Or.inl ⟨actions, [], rfl, hsucceeded⟩
  | callRaised => exact keptTo_released hactive
  | killed => exact keptTo_released hactive

private theorem holds_of_exec (h : s.Holds) (hrun : exec (queueStep p) s actions = some s') :
    s'.Holds :=
  invariant_of_exec (fun _ _ _ h hstep => h.step hstep) h hrun

private theorem keptTo_of_exec (hfree : s.holder = none) (hactive : HasActive code s.file)
    (hrun : exec (queueStep p) s actions = some s') : KeptTo p s actions code s' := by
  induction actions using List.reverseRecOn generalizing s' with
  | nil =>
    obtain rfl := Option.some.inj hrun
    exact keptTo_idle hactive hfree
  | append_singleton actions action ih =>
    obtain ⟨mid, hmid, hlast⟩ := exec_append_some.mp hrun
    obtain ⟨after, hstep, hnil⟩ := exec_cons_some.mp hlast
    obtain rfl := Option.some.inj hnil
    exact (ih hmid).step hmid hstep

private theorem enqueue_returned {enqueued stockCode triggerDataset triggerReason : String}
    {now : ℤ}
    (hcode : normalizeTriggerCode p enqueued = .ok stockCode)
    (hrun : exec (queueStep p) s [.enqueueCalled enqueued triggerDataset triggerReason now,
      .fileReplaced] = some s') : s'.holder = none ∧ HasActive stockCode s'.file := by
  obtain ⟨mid, hcalled, hrest⟩ := exec_cons_some.mp hrun
  obtain ⟨last, hreplaced, hnil⟩ := exec_cons_some.mp hrest
  obtain rfl := Option.some.inj hnil
  cases queueStep_cases hcalled with
  | @enqueueBegun _ _ _ _ _ row hfree hok hrow =>
    have hcodes : stockCode = row.code := by
      rw [hrow]
      exact Except.ok.inj (hcode.symm.trans hok)
    obtain rfl := Option.some.inj hreplaced
    exact ⟨rfl, active_enqueueRow (retryable_pending hrow) (Or.inl hcodes)⟩
  | enqueueRaised hfree herror =>
    rw [hcode] at herror
    cases herror

/-- In every state that a process reaches, the queue has at most one row of a code that can be
retried, and it has one for every code of an enqueue call that returned, unless an updater call of
the code that was started since has reported no failure and its drain has replaced the file. -/
theorem pending_queue_kept {file : List PendingRow} (hfile : OnePerCode file)
    {actions : List QueueAction} (hrun : exec (queueStep p) (.start file) actions = some s) :
    OnePerCode s.file ∧
      ∀ before after enqueued triggerDataset triggerReason now stockCode,
        actions = before ++
          [.enqueueCalled enqueued triggerDataset triggerReason now, .fileReplaced] ++ after →
        normalizeTriggerCode p enqueued = .ok stockCode →
        ∃ s₁, exec (queueStep p) (.start file) (before ++
            [.enqueueCalled enqueued triggerDataset triggerReason now, .fileReplaced]) = some s₁ ∧
          (Delivered p s₁ after stockCode ∨ HasActive stockCode s.file) := by
  have hstart : (QueueState.start file).Holds := ⟨hfile, fun job hjob => (by cases hjob)⟩
  refine ⟨(holds_of_exec hstart hrun).unique, ?_⟩
  rintro before after enqueued triggerDataset triggerReason now stockCode rfl hcode
  obtain ⟨s₁, hfirst, hlater⟩ := exec_append_some.mp hrun
  obtain ⟨called, -, henqueue⟩ := exec_append_some.mp hfirst
  obtain ⟨hfree, hactive⟩ := enqueue_returned hcode henqueue
  refine ⟨s₁, hfirst, ?_⟩
  exact (keptTo_of_exec hfree hactive hlater).imp_right And.left

def enqueueCode : List QueueAction :=
  [.enqueueCalled "sh.600000" "baostock_cn_stock_adjustment_factor" "adjustment_factor_changed" 1000000,
    .fileReplaced]

/-- Two enqueue calls of one code, and a process that is killed while the updater of a drain runs:
nothing was delivered, so the row is there. -/
theorem pending_queue_kept_killed : ∃ s, exec (queueStep .plain) (.start []) (enqueueCode ++
      enqueueCode ++ [.drainCalled 2000000, .updaterCalled, .killed]) = some s ∧
    s.file.length = 1 ∧ OnePerCode s.file ∧ HasActive "600000" s.file := by
  have hlength : (exec (queueStep .plain) (.start []) (enqueueCode ++ enqueueCode ++
      [.drainCalled 2000000, .updaterCalled, .killed])).map (fun s => s.file.length) = some 1 := by
    decide +kernel
  obtain ⟨s, hrun, hone⟩ := Option.map_eq_some_iff.mp hlength
  have hempty : OnePerCode [] := fun _ => Nat.zero_le 1
  obtain ⟨hunique, hkept⟩ := pending_queue_kept hempty hrun
  obtain ⟨s₁, -, hdelivered | hactive⟩ := hkept enqueueCode _ _ _ _ _ "600000" rfl (by rfl)
  · obtain ⟨before, after, hactions, -⟩ := hdelivered
    have hmem : QueueAction.fileReplaced ∈ before ++ .fileReplaced :: after := by simp
    rw [← hactions] at hmem
    simp at hmem
  · exact ⟨s, hrun, hone, hunique, hactive⟩

end Runs

end QuantDataCenter.Sources
