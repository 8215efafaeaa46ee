import QuantDataCenter.Concurrency.ExecutionKernel

/-!
Every selected task is accounted for: fetched at most once, recorded or skipped
exactly once, whatever the order in which the fetches end.
-/

set_option autoImplicit false
set_option relaxedAutoImplicit false

namespace QuantDataCenter.Concurrency

open QuantDataCenter.Lib QuantDataCenter.Lib.Transition QuantDataCenter.Lib.Trace

/-! What the calls say -/

def KernelCall.fetched : KernelCall → Option ℕ
  | .fetch task _ => some task
  | _ => none

def KernelCall.handled : KernelCall → Option ℕ
  | .recordResult task _ | .recordSkip task => some task
  | .fetch _ _ => none

def fetchedTasks (calls : List KernelCall) : List ℕ := calls.filterMap KernelCall.fetched

def handledTasks (calls : List KernelCall) : List ℕ := calls.filterMap KernelCall.handled

/-- The tasks fetched and neither recorded nor skipped yet. -/
def inFlight (calls : List KernelCall) : List ℕ :=
  (fetchedTasks calls).filter fun task => task ∉ handledTasks calls

def Opened (calls : List KernelCall) : Prop := ∃ task, .recordResult task true ∈ calls

/-- A call the kernel may make after the calls before it. -/
def Fits (policy : ConcurrencyPolicy) (before : List KernelCall) : KernelCall → Prop
  | .fetch task targetWorkers =>
    task ∉ fetchedTasks before ∧ task ∉ handledTasks before ∧
      (inFlight before).length < targetWorkers ∧ 1 ≤ targetWorkers ∧
      targetWorkers ≤ policy.workers ∧ (policy.stopOnCircuitOpen = true → ¬Opened before)
  | .recordResult task _ => task ∈ fetchedTasks before ∧ task ∉ handledTasks before
  | .recordSkip task => task ∉ handledTasks before

@[simp] theorem fetchedTasks_concat (calls : List KernelCall) (c : KernelCall) :
    fetchedTasks (calls ++ [c]) = fetchedTasks calls ++ c.fetched.toList := by
  unfold fetchedTasks
  cases h : c.fetched <;> simp [List.filterMap_append, h]

@[simp] theorem handledTasks_concat (calls : List KernelCall) (c : KernelCall) :
    handledTasks (calls ++ [c]) = handledTasks calls ++ c.handled.toList := by
  unfold handledTasks
  cases h : c.handled <;> simp [List.filterMap_append, h]

private theorem opened_concat {calls : List KernelCall} {c : KernelCall} :
    Opened (calls ++ [c]) ↔ Opened calls ∨ ∃ task, c = .recordResult task true := by
  simp only [Opened, List.mem_append, List.mem_singleton, exists_or, eq_comm]

/-! Accounts -/

/-- Of the first `bound` tasks some are handled, some in flight and the rest are left. -/
structure Accounts {Row : Type} (policy : ConcurrencyPolicy) (bound : ℕ) (flight rest : List ℕ)
    (run : KernelRun Row) : Prop where
  workers : run.policy.workers = policy.workers
  stop : run.policy.stopOnCircuitOpen = policy.stopOnCircuitOpen
  trace : Along (Fits policy) run.calls
  processed : run.progress.processed = (handledTasks run.calls).length
  settled : (handledTasks run.calls ++ (flight ++ rest)).Perm (List.range bound)
  fetched_nodup : (fetchedTasks run.calls).Nodup
  flying : ∀ task, task ∈ flight ↔ task ∈ fetchedTasks run.calls ∧ task ∉ handledTasks run.calls

section Steps

variable {Response Row : Type} {m : AkShareDatasetModule Response Row} {policy : ConcurrencyPolicy}
  {bound total task : ℕ} {flight rest : List ℕ} {run : KernelRun Row}

theorem Accounts.nodup (h : Accounts policy bound flight rest run) :
    (handledTasks run.calls ++ (flight ++ rest)).Nodup :=
  h.settled.nodup_iff.mpr List.nodup_range

private theorem Accounts.not_handled (h : Accounts policy bound flight rest run)
    (hmem : task ∈ flight ++ rest) : task ∉ handledTasks run.calls := fun hhandled =>
  (List.nodup_append.mp h.nodup).2.2 task hhandled task hmem rfl

private theorem Accounts.not_fetched (h : Accounts policy bound flight rest run)
    (hmem : task ∈ rest) :
    task ∉ fetchedTasks run.calls := by
  intro hfetched
  have hhandled := h.not_handled (List.mem_append_right flight hmem)
  have hflight := (h.flying task).mpr ⟨hfetched, hhandled⟩
  exact (List.nodup_append.mp (List.nodup_append.mp h.nodup).2.1).2.2 task hflight task hmem rfl

private theorem Accounts.length_inFlight (h : Accounts policy bound flight rest run) :
    (inFlight run.calls).length = flight.length := by
  have hnodup : flight.Nodup :=
    (List.nodup_append.mp (List.nodup_append.mp h.nodup).2.1).1
  have hperm : (inFlight run.calls).Perm flight := by
    apply (List.perm_ext_iff_of_nodup (h.fetched_nodup.filter _) hnodup).mpr
    intro task
    simp only [List.mem_filter, decide_eq_true_eq, h.flying task]
  exact hperm.length_eq

private theorem accounts_new : Accounts policy total [] (List.range total)
    (KernelRun.new policy total : KernelRun Row) where
  workers := rfl
  stop := rfl
  trace := Along.nil
  processed := rfl
  settled := List.Perm.refl _
  fetched_nodup := List.nodup_nil
  flying task := by simp [KernelRun.new, fetchedTasks]

theorem Accounts.fetch (h : Accounts policy bound flight (task :: rest) run)
    (hroom : flight.length < run.policy.targetWorkers)
    (hopen : policy.stopOnCircuitOpen = true → ¬Opened run.calls) :
    Accounts policy bound (flight ++ [task]) rest (run.fetchTask task) := by
  have hhandled : task ∉ handledTasks run.calls := h.not_handled (by simp)
  have hfetched : task ∉ fetchedTasks run.calls := h.not_fetched List.mem_cons_self
  have hle : run.policy.targetWorkers ≤ policy.workers := by
    rw [← h.workers]
    exact run.policy.targetWorkers_le
  have hcalls : (run.fetchTask task).calls =
      run.calls ++ [.fetch task run.policy.targetWorkers] := rfl
  refine ⟨h.workers, h.stop, ?_, ?_, ?_, ?_, ?_⟩
  · refine h.trace.concat ⟨hfetched, hhandled, ?_, run.policy.targetWorkers_pos, hle, hopen⟩
    rw [h.length_inFlight]
    exact hroom
  · rw [hcalls, handledTasks_concat]
    simp only [KernelCall.handled, Option.toList, List.append_nil]
    exact h.processed
  · rw [hcalls, handledTasks_concat]
    simpa [KernelCall.handled] using h.settled
  · rw [hcalls, fetchedTasks_concat]
    exact h.fetched_nodup.append (List.nodup_singleton task) (by simpa [KernelCall.fetched] using hfetched)
  · intro other
    rw [hcalls, fetchedTasks_concat, handledTasks_concat]
    simp only [KernelCall.fetched, KernelCall.handled, Option.toList, List.append_nil,
      List.mem_append, List.mem_singleton, h.flying other]
    constructor
    · rintro (⟨hother, hnot⟩ | rfl)
      · exact ⟨Or.inl hother, hnot⟩
      · exact ⟨Or.inr rfl, hhandled⟩
    · rintro ⟨hother | rfl, hnot⟩
      · exact Or.inl ⟨hother, hnot⟩
      · exact Or.inr rfl

private theorem KernelCall.fetched_eq_none {c : KernelCall} (hc : c.handled = some task) :
    c.fetched = none := by
  cases c with
  | fetch => cases hc
  | recordResult => rfl
  | recordSkip => rfl

theorem Accounts.handle {run' : KernelRun Row} {flight' rest' : List ℕ}
    (h : Accounts policy bound flight rest run) (c : KernelCall) (hcalls : run'.calls = run.calls ++ [c])
    (hc : c.handled = some task) (hfits : Fits policy run.calls c)
    (hworkers : run'.policy.workers = run.policy.workers)
    (hstop : run'.policy.stopOnCircuitOpen = run.policy.stopOnCircuitOpen)
    (hprocessed : run'.progress.processed = run.progress.processed + 1)
    (hperm : (flight ++ rest).Perm (task :: (flight' ++ rest')))
    (hflight : ∀ other, other ∈ flight' ↔ other ∈ flight ∧ other ≠ task) :
    Accounts policy bound flight' rest' run' := by
  have hhandled : handledTasks run'.calls = handledTasks run.calls ++ [task] := by
    rw [hcalls, handledTasks_concat, hc, Option.toList_some]
  have hfetched : fetchedTasks run'.calls = fetchedTasks run.calls := by
    rw [hcalls, fetchedTasks_concat, KernelCall.fetched_eq_none hc, Option.toList_none,
      List.append_nil]
  refine ⟨hworkers.trans h.workers, hstop.trans h.stop, ?_, ?_, ?_, ?_, ?_⟩
  · rw [hcalls]
    exact h.trace.concat hfits
  · rw [hprocessed, hhandled, h.processed, List.length_append, List.length_singleton]
  · rw [hhandled, List.append_assoc, List.singleton_append]
    exact (hperm.symm.append_left _).trans h.settled
  · rw [hfetched]
    exact h.fetched_nodup
  · intro other
    rw [hflight other, h.flying other, hfetched, hhandled, List.mem_append, List.mem_singleton]
    tauto

private theorem Accounts.mem_erase_flight (h : Accounts policy bound flight rest run) (other : ℕ) :
    other ∈ flight.erase task ↔ other ∈ flight ∧ other ≠ task := by
  have hnodup : flight.Nodup :=
    (List.nodup_append.mp (List.nodup_append.mp h.nodup).2.1).1
  rw [hnodup.mem_erase_iff]
  exact and_comm

theorem Accounts.recordResult (h : Accounts policy bound flight rest run) (hmem : task ∈ flight)
    (result : FetchResult Response) :
    Accounts policy bound (flight.erase task) rest (run.recordResult m task result) := by
  have hfits := (h.flying task).mp hmem
  refine h.handle (.recordResult task result.isCircuitOpen) rfl rfl hfits rfl rfl ?_ ?_
    h.mem_erase_flight
  · exact Progress.processed_record _ _
  · rw [← List.cons_append]
    exact (List.perm_cons_erase hmem).append_right rest

private theorem Accounts.skipFlight (h : Accounts policy bound flight rest run)
    (hmem : task ∈ flight) :
    Accounts policy bound (flight.erase task) rest (run.recordSkip m task) := by
  have hfits := ((h.flying task).mp hmem).2
  refine h.handle (.recordSkip task) rfl rfl hfits rfl rfl ?_ ?_ h.mem_erase_flight
  · exact Progress.processed_record _ _
  · rw [← List.cons_append]
    exact (List.perm_cons_erase hmem).append_right rest

private theorem Accounts.skipNext (h : Accounts policy bound flight (task :: rest) run) :
    Accounts policy bound flight rest (run.recordSkip m task) := by
  have hfits : task ∉ handledTasks run.calls := h.not_handled (by simp)
  have hflight : task ∉ flight := fun hmem =>
    h.not_fetched List.mem_cons_self ((h.flying task).mp hmem).1
  refine h.handle (.recordSkip task) rfl rfl hfits rfl rfl ?_ List.perm_middle ?_
  · exact Progress.processed_record _ _
  · intro other
    constructor
    · intro hother
      exact ⟨hother, fun heq => hflight (heq ▸ hother)⟩
    · exact And.left

private theorem Accounts.skipRest (h : Accounts policy bound flight rest run) :
    Accounts policy bound flight [] (rest.foldl (KernelRun.recordSkip m) run) := by
  induction rest generalizing run with
  | nil => exact h
  | cons task rest ih =>
    rw [List.foldl_cons]
    exact ih h.skipNext

private theorem skipRest_frame (rest : List ℕ) (run : KernelRun Row) :
    (rest.foldl (KernelRun.recordSkip m) run).pending = run.pending ∧
      (rest.foldl (KernelRun.recordSkip m) run).taskIndex = run.taskIndex ∧
      (rest.foldl (KernelRun.recordSkip m) run).stopSubmitting = run.stopSubmitting := by
  induction rest generalizing run with
  | nil => exact ⟨rfl, rfl, rfl⟩
  | cons task rest ih =>
    rw [List.foldl_cons]
    exact ih (run.recordSkip m task)

/-! One task after the other -/

theorem Accounts.fetchTask (h : Accounts policy total [] (task :: rest) run)
    (hopen : policy.stopOnCircuitOpen = true → ¬Opened run.calls) (result : FetchResult Response) :
    Accounts policy total [] rest ((run.fetchTask task).recordResult m task result) := by
  have hfetch := h.fetch (run.policy.targetWorkers_pos) hopen
  have hrecord := hfetch.recordResult (m := m) (List.mem_singleton_self task) result
  rwa [List.nil_append, List.erase_cons_head] at hrecord

private theorem accounts_sequential
    (hreturns : ∀ task ∈ rest, ∃ result, m.fetch task = .returned result)
    (h : Accounts policy total [] rest run)
    (hopen : policy.stopOnCircuitOpen = true → ¬Opened run.calls) :
    ∃ run', run.fetchSequentially m rest = some run' ∧ Accounts policy total [] [] run' ∧
      run'.pending = run.pending := by
  induction rest generalizing run with
  | nil => exact ⟨run, rfl, h, rfl⟩
  | cons task rest ih =>
    obtain ⟨hfirst, hreturns⟩ := List.forall_mem_cons.mp hreturns
    obtain ⟨result, hresult⟩ := hfirst
    have hnext := h.fetchTask (m := m) hopen result
    unfold KernelRun.fetchSequentially
    rw [hresult]
    dsimp only
    split_ifs with hstop
    · exact ⟨_, rfl, hnext.skipRest, (skipRest_frame rest _).1⟩
    · refine ih hreturns hnext fun hpolicy hopened => ?_
      rcases opened_concat.mp hopened with hbefore | ⟨other, hother⟩
      · rcases opened_concat.mp hbefore with hbefore | ⟨other, hother⟩
        · exact hopen hpolicy hbefore
        · cases hother
      · obtain ⟨-, hresultopen⟩ := KernelCall.recordResult.inj hother
        rw [hnext.stop, hpolicy, hresultopen] at hstop
        exact hstop rfl

/-! By a pool -/

structure Pooled (policy : ConcurrencyPolicy) (total : ℕ) (run : KernelRun Row) : Prop where
  accounts : Accounts policy run.taskIndex run.pending [] run
  index_le : run.taskIndex ≤ total
  opened : policy.stopOnCircuitOpen = true → Opened run.calls → run.stopSubmitting = true
  stopped : run.stopSubmitting = true → run.taskIndex = total

theorem Pooled.submit (h : Pooled policy total run) (hgo : run.stopSubmitting = false)
    (hindex : run.taskIndex < total) (hroom : run.pending.length < run.policy.targetWorkers) :
    Pooled policy total run.submit := by
  have hgrown : Accounts policy (run.taskIndex + 1) run.pending [run.taskIndex] run := by
    have hsettled := h.accounts.settled.append_right [run.taskIndex]
    refine { h.accounts with settled := ?_ }
    rw [List.range_succ]
    simpa using hsettled
  have hopen : policy.stopOnCircuitOpen = true → ¬Opened run.calls := by
    intro hstop hopened
    rw [h.opened hstop hopened] at hgo
    cases hgo
  have hfetch := hgrown.fetch hroom hopen
  refine ⟨{ hfetch with }, hindex, ?_, ?_⟩
  · intro hstop hopened
    rcases opened_concat.mp hopened with hbefore | ⟨other, hother⟩
    · exact absurd hbefore (hopen hstop)
    · cases hother
  · intro hstopped
    have hstopped : run.stopSubmitting = true := hstopped
    rw [hgo] at hstopped
    cases hstopped

theorem Pooled.submitLoop (h : Pooled policy total run) (fuel : ℕ)
    (hfuel : total - run.taskIndex ≤ fuel) :
    Pooled policy total (run.submitLoop total fuel) ∧
      ((run.submitLoop total fuel).pending = [] → (run.submitLoop total fuel).taskIndex = total) := by
  induction fuel generalizing run with
  | zero =>
    have hle := h.index_le
    exact ⟨h, fun _ => by simp only [KernelRun.submitLoop]; omega⟩
  | succ fuel ih =>
    unfold KernelRun.submitLoop
    split_ifs with hgo
    · obtain ⟨hrunning, hindex, hroom⟩ := hgo
      have hnext := h.submit hrunning hindex hroom
      have hindex' : run.submit.taskIndex = run.taskIndex + 1 := rfl
      exact ih hnext (by omega)
    · refine ⟨h, fun hempty => ?_⟩
      have hpos := run.policy.targetWorkers_pos
      have hlength : run.pending.length = 0 := by rw [hempty, List.length_nil]
      -- with nothing in flight there is room, so the loop ends for one of the other reasons
      by_contra hne
      have hle := h.index_le
      cases hstop : run.stopSubmitting with
      | true => exact hne (h.stopped hstop)
      | false => exact hgo ⟨hstop, by omega, by omega⟩

theorem Pooled.openCircuit (h : Accounts policy run.taskIndex run.pending [] run)
    (hindex : run.taskIndex ≤ total) : Pooled policy total (run.openCircuit m total) := by
  have hrest : Accounts policy total run.pending
      (List.range' run.taskIndex (total - run.taskIndex))
      { run with circuitOpened := true, stopSubmitting := true, taskIndex := total } := by
    have hsettled := h.settled.append_right (List.range' run.taskIndex (total - run.taskIndex))
    have hrange : List.range run.taskIndex ++ List.range' run.taskIndex (total - run.taskIndex) =
        List.range total := by
      have happend := @List.range'_append_1 0 run.taskIndex (total - run.taskIndex)
      rwa [Nat.zero_add, Nat.add_sub_cancel' hindex, ← List.range_eq_range',
        ← List.range_eq_range'] at happend
    refine { h with settled := ?_ }
    rw [← hrange]
    simpa using hsettled
  obtain ⟨hpending, hend, hstop⟩ := @skipRest_frame _ _ m
    (List.range' run.taskIndex (total - run.taskIndex))
    { run with circuitOpened := true, stopSubmitting := true, taskIndex := total }
  have hend : (run.openCircuit m total).taskIndex = total := hend
  have hpending : (run.openCircuit m total).pending = run.pending := hpending
  refine ⟨?_, hend.le, fun _ _ => hstop, fun _ => hend⟩
  rw [hend, hpending]
  exact hrest.skipRest

theorem Pooled.handleDone (h : Pooled policy total run) (hmem : task ∈ run.pending) :
    Pooled policy total (run.handleDone m total task) := by
  have htaken : Accounts policy run.taskIndex run.pending []
      { run with pending := run.pending.erase task } := { h.accounts with }
  unfold KernelRun.handleDone
  dsimp only
  split_ifs with hskip hopen
  · refine ⟨htaken.skipFlight hmem, h.index_le, fun hstop hopened => ?_, h.stopped⟩
    rcases opened_concat.mp hopened with hbefore | ⟨other, hother⟩
    · exact h.opened hstop hbefore
    · cases hother
  · exact Pooled.openCircuit (htaken.recordResult hmem _) h.index_le
  · refine ⟨htaken.recordResult hmem _, h.index_le, fun hstop hopened => ?_, h.stopped⟩
    rcases opened_concat.mp hopened with hbefore | ⟨other, hother⟩
    · exact h.opened hstop hbefore
    · obtain ⟨-, hresult⟩ := KernelCall.recordResult.inj hother
      have hrecord := (htaken.recordResult (m := m) hmem (m.fetch task).result).stop
      rw [hrecord, hstop, hresult] at hopen
      exact absurd rfl hopen

private theorem handleDone_frame (run : KernelRun Row) (task : ℕ) :
    (run.handleDone m total task).pending = run.pending.erase task ∧
      ((run.handleDone m total task).taskIndex = run.taskIndex ∨
        (run.handleDone m total task).taskIndex = total) := by
  unfold KernelRun.handleDone
  dsimp only
  split_ifs with hskip hopen
  · exact ⟨rfl, Or.inl rfl⟩
  · obtain ⟨hpending, hend, -⟩ := skipRest_frame (m := m)
      (List.range' run.taskIndex (total - run.taskIndex)) _
    exact ⟨hpending, Or.inr hend⟩
  · exact ⟨rfl, Or.inl rfl⟩

/-- The fetches submitted or still to be submitted that are not handled yet. -/
def KernelRun.outstanding (total : ℕ) (run : KernelRun Row) : ℕ :=
  total - run.taskIndex + run.pending.length

private theorem Pooled.handleAll (h : Pooled policy total run) {done : List ℕ} (hnodup : done.Nodup)
    (hsub : done ⊆ run.pending) :
    Pooled policy total (done.foldl (KernelRun.handleDone m total) run) ∧
      (done.foldl (KernelRun.handleDone m total) run).outstanding total + done.length ≤
        run.outstanding total := by
  induction done generalizing run with
  | nil => exact ⟨h, le_refl _⟩
  | cons task done ih =>
    obtain ⟨hnot, hnodup⟩ := List.nodup_cons.mp hnodup
    obtain ⟨hmem, hsub⟩ := List.cons_subset.mp hsub
    obtain ⟨hpending, hindex⟩ := @handleDone_frame _ _ m total run task
    have hrest : done ⊆ (run.handleDone m total task).pending := by
      intro other hother
      have hne : other ≠ task := by
        rintro rfl
        exact hnot hother
      rw [hpending, List.mem_erase_of_ne hne]
      exact hsub hother
    obtain ⟨hpooled, houtstanding⟩ := ih (h.handleDone hmem) hnodup hrest
    rw [List.foldl_cons]
    refine ⟨hpooled, ?_⟩
    have hlength : (run.handleDone m total task).pending.length + 1 = run.pending.length := by
      rw [hpending, List.length_erase_of_mem hmem]
      exact Nat.sub_add_cancel (List.length_pos_of_mem hmem)
    have hle := h.index_le
    unfold KernelRun.outstanding at houtstanding ⊢
    simp only [List.length_cons]
    omega

private theorem outstanding_submitLoop (fuel : ℕ) (run : KernelRun Row) :
    (run.submitLoop total fuel).outstanding total = run.outstanding total := by
  induction fuel generalizing run with
  | zero => rfl
  | succ fuel ih =>
    unfold KernelRun.submitLoop
    split_ifs with hgo
    · have hindex : run.taskIndex < total := hgo.2.1
      rw [ih]
      simp only [KernelRun.outstanding, KernelRun.submit, List.length_append, List.length_singleton]
      omega
    · rfl

/-- Between two rounds; when nothing is in flight, every task has been submitted. -/
structure Round (policy : ConcurrencyPolicy) (total : ℕ) (run : KernelRun Row) : Prop where
  pooled : Pooled policy total run
  ended : run.pending = [] → run.taskIndex = total

theorem Pooled.submitUntilTarget (h : Pooled policy total run) :
    Round policy total (run.submitUntilTarget total) := by
  obtain ⟨hpooled, hended⟩ := h.submitLoop (total - run.taskIndex) (le_refl _)
  exact ⟨hpooled, hended⟩

theorem Round.wait (h : Round policy total run) {done : List ℕ} {run' : KernelRun Row}
    (hround : run.waitRound m total done = some run') :
    Round policy total run' ∧ run'.outstanding total < run.outstanding total := by
  unfold KernelRun.waitRound at hround
  split_ifs at hround with hdone
  obtain ⟨hne, hnodup, hsub⟩ := hdone
  obtain rfl := Option.some.inj hround
  obtain ⟨hpooled, hlower⟩ := h.pooled.handleAll (m := m) hnodup hsub
  refine ⟨hpooled.submitUntilTarget, ?_⟩
  have hpos := List.length_pos_of_ne_nil hne
  have hsame : ∀ r : KernelRun Row, (r.submitUntilTarget total).outstanding total =
      r.outstanding total := fun r => outstanding_submitLoop _ r
  rw [hsame]
  omega

private theorem pooled_new :
    Pooled policy total (KernelRun.new policy total : KernelRun Row) := by
  refine ⟨{ accounts_new with settled := List.Perm.refl _ }, Nat.zero_le _, ?_, ?_⟩
  · rintro - ⟨task, hcall⟩
    cases hcall
  · intro hstopped
    cases hstopped

end Steps

/-- What the kernel has done with the tasks; when nothing is in flight, every task has exactly one
result or exactly one skip. -/
structure AccountsFor {Row : Type} (policy : ConcurrencyPolicy) (total : ℕ) (run : KernelRun Row) :
    Prop where
  calls : Along (Fits policy) run.calls
  processed : run.progress.processed = (handledTasks run.calls).length
  pending : ∀ task, task ∈ run.pending ↔ task ∈ inFlight run.calls
  settled : run.pending = [] → (handledTasks run.calls).Perm (List.range total)

private theorem Accounts.accountsFor {Row : Type} {policy : ConcurrencyPolicy} {bound total : ℕ}
    {run : KernelRun Row} (h : Accounts policy bound run.pending [] run)
    (hended : run.pending = [] → bound = total) : AccountsFor policy total run := by
  refine ⟨h.trace, h.processed, fun task => ?_, fun hempty => ?_⟩
  · unfold inFlight
    rw [h.flying task, List.mem_filter, decide_eq_true_eq]
  · have hsettled := h.settled
    rw [hempty, hended hempty, List.append_nil, List.append_nil] at hsettled
    exact hsettled

private theorem AccountsFor.all_processed {Row : Type} {policy : ConcurrencyPolicy} {total : ℕ}
    {run : KernelRun Row} (h : AccountsFor policy total run) (hempty : run.pending = []) :
    run.progress.processed = total := by
  rw [h.processed, (h.settled hempty).length_eq, List.length_range]

private theorem not_opened_nil : ¬Opened [] := by
  rintro ⟨task, hcall⟩
  cases hcall

private theorem waitRound_enabled {Response Row : Type} {m : AkShareDatasetModule Response Row}
    {total : ℕ}
    {run : KernelRun Row} {done : List ℕ} (hne : done ≠ []) (hnodup : done.Nodup)
    (hsub : done ⊆ run.pending) : ∃ next, run.waitRound m total done = some next := by
  unfold KernelRun.waitRound
  rw [if_pos ⟨hne, hnodup, hsub⟩]
  exact ⟨_, rfl⟩

/-- Whatever the order in which the fetches end: every call of the kernel fits the calls before it,
the rounds come to an end, no round is stuck, and at the end every task is recorded or skipped
once and counted in the progress. -/
theorem kernel_accounts_for_tasks {Response Row : Type} {m : AkShareDatasetModule Response Row}
    {policy : ConcurrencyPolicy} {total : ℕ}
    (hreturns : policy.workers ≤ 1 → ∀ task < total, ∃ result, m.fetch task = .returned result) :
    ∃ run, KernelRun.start m policy total = some run ∧
      ∀ rounds run', exec (KernelRun.waitRound m total) run rounds = some run' →
        AccountsFor policy total run' ∧
        (run'.pending = [] → run'.progress.processed = total) ∧
        rounds.length ≤ total ∧
        ∀ done, done ≠ [] → done.Nodup → done ⊆ run'.pending →
          ∃ next, run'.waitRound m total done = some next := by
  unfold KernelRun.start
  split_ifs with hworkers
  · obtain ⟨run, hrun, haccounts, hpending⟩ := @accounts_sequential _ _ m policy _ _ _
      (fun task htask => hreturns hworkers task (List.mem_range.mp htask)) accounts_new
      (fun _ hopened => not_opened_nil hopened)
    have hpending : run.pending = [] := hpending
    refine ⟨run, hrun, fun rounds run' hrounds => ?_⟩
    cases rounds with
    | nil =>
      obtain rfl := Option.some.inj hrounds
      have hfor : AccountsFor policy total run :=
        Accounts.accountsFor (hpending.symm ▸ haccounts) (fun _ => rfl)
      exact ⟨hfor, hfor.all_processed, Nat.zero_le _, fun _ => waitRound_enabled⟩
    | cons done rounds =>
      -- the sequential run leaves nothing to wait for
      obtain ⟨next, hnext, -⟩ := exec_cons_some.mp hrounds
      unfold KernelRun.waitRound at hnext
      rw [hpending] at hnext
      split_ifs at hnext with hdone
      exact absurd (List.subset_nil.mp hdone.2.2) hdone.1
  · have hround : Round policy total
        ((KernelRun.new policy total : KernelRun Row).submitUntilTarget total) :=
      pooled_new.submitUntilTarget
    refine ⟨_, rfl, fun rounds run' hrounds => ?_⟩
    have hround' : Round policy total run' :=
      invariant_of_exec (fun _ _ _ h hstep => (h.wait hstep).1) hround hrounds
    have hlength := length_le_of_decreasing (KernelRun.outstanding total)
      (fun _ _ _ h hstep => (h.wait hstep).1) (fun _ _ _ h hstep => (h.wait hstep).2) hround hrounds
    have hfor := hround'.pooled.accounts.accountsFor hround'.ended
    refine ⟨hfor, hfor.all_processed, ?_, fun _ => waitRound_enabled⟩
    have htotal : ((KernelRun.new policy total : KernelRun Row).submitUntilTarget total).outstanding
        total = total := outstanding_submitLoop _ _
    omega

/-- Two tasks one after the other; the first one fails. -/
def failsOnce : AkShareDatasetModule ℕ String where
  fetch task := .returned (if task = 0 then ⟨none, some .other⟩ else ⟨some task, none⟩)
  recordResult _ result := [if result.error.isNone then "success" else "failed"]
  recordSkip _ := ["skipped_circuit_open"]
  progressRow _ rows := rows.headD "unknown"
  status := some

theorem failsOnce_accounted : ∃ run, KernelRun.start failsOnce .sequential 2 = some run ∧
    AccountsFor .sequential 2 run := by
  obtain ⟨run, hrun, h⟩ := @kernel_accounts_for_tasks _ _ failsOnce .sequential 2
    (fun _ task _ => ⟨_, rfl⟩)
  exact ⟨run, hrun, (h [] run rfl).1⟩

/-- The first of three tasks opens the circuit while the second is in flight. -/
def opensCircuit : AkShareDatasetModule ℕ String where
  fetch task := if task = 0 then .raised .circuitOpen else .returned ⟨some task, none⟩
  recordResult _ result := [if result.error.isNone then "success" else "failed"]
  recordSkip _ := ["skipped_circuit_open"]
  progressRow _ rows := rows.headD "unknown"
  status := some

example : ((KernelRun.start opensCircuit (.stopping 2) 3).bind fun run =>
    exec (KernelRun.waitRound opensCircuit 3) run [[0], [1]]).map KernelRun.records =
      some ["failed", "skipped_circuit_open", "success"] := by decide

end QuantDataCenter.Concurrency
