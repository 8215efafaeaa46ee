import Mathlib.Logic.Function.Basic
import QuantDataCenter.Lib.Transition

/-!
The directory lock of `process_lock.py` as an interleaving of file-system
calls. Every call of a process on the lock path is one action; the owner file
and the verdict on it are read exactly as `_inspect_existing_lock` does. The
directory remembers which acquisition made it. No call reads that mark: it
only says whose directory a later removal hits.
-/

set_option autoImplicit false
set_option relaxedAutoImplicit false

namespace QuantDataCenter.Process.Lock

open QuantDataCenter.Lib.Transition

/-- The fields of `owner.json` that a later inspection reads. -/
structure Owner where
  pid : Option Int
  hostname : String
  started_at : Option Int
  deriving DecidableEq, Repr

/-- What `read_lock_owner` finds at `owner.json`. -/
inductive OwnerFile where
  | missing
  | corrupt
  | record (owner : Owner)
  deriving DecidableEq, Repr

/-- `owner is None` covers a missing directory, a missing file and bad JSON. -/
def readLockOwner : Option OwnerFile → Option Owner
  | some (.record owner) => some owner
  | _ => none

def ownerPid (owner : Owner) : Option Int :=
  match owner.pid with
  | none => none
  | some pid => if 0 < pid then some pid else none

/-- The host of all callers; `alive` is `is_pid_alive`. -/
structure Host (P : Type*) where
  hostname : String
  alive : Int → Bool
  pid : P → Int
  stale_after_seconds : Int
  pid_pos : ∀ p, 0 < pid p
  pid_alive : ∀ p, alive (pid p) = true

variable {P : Type*}

/-- The verdict of `_inspect_existing_lock`: stale or not, and the warning. -/
def inspectExistingLock (host : Host P) (now : Int) (file : Option OwnerFile) :
    Bool × Option String :=
  match readLockOwner file with
  | none => (true, some "owner.json missing, invalid, or corrupt")
  | some owner =>
    match owner.started_at with
    | none => (true, some "owner.json missing valid started_at")
    | some started_at =>
      if host.stale_after_seconds < now - started_at then
        (true, some "owner exceeded stale_after_seconds")
      else if owner.hostname ≠ "" ∧ owner.hostname ≠ host.hostname then (false, none)
      else match ownerPid owner with
        | none => (true, some "owner.json missing valid pid")
        | some pid =>
          if host.alive pid = false then (true, some "owner pid is not alive") else (false, none)

/-- The record `_owner` builds for a caller before its first `mkdir`. -/
def ownerOf (host : Host P) (p : P) (started_at : Int) : Owner :=
  ⟨some (host.pid p), host.hostname, some started_at⟩

/-- A directory at the lock path, with the acquisition that made it (`none`:
it was there before any caller, left by a dead process). -/
structure LockDir (P : Type*) where
  maker : Option P
  file : OwnerFile
  deriving DecidableEq, Repr

/-- Where a caller stands between two file-system calls. -/
inductive Pc where
  | outside
  | mkdir (started_at : Int)
  | inspect (started_at : Int)
  | rename (started_at : Int)
  | rmtreeStale (started_at : Int)
  | rmtreePath (started_at : Int)
  | writeOwner (started_at : Int)
  | inside
  | release
  deriving DecidableEq, Repr

structure State (P : Type*) where
  lock : Option (LockDir P)
  pc : P → Pc

/-- One file-system call of one caller, with the answer of the system. -/
inductive Action (P : Type*) where
  | call (p : P) (now : Int)
  | mkdir (p : P)
  | read (p : P) (now : Int)
  | rename (p : P) (succeeds : Bool)
  | rmtreeStale (p : P)
  | rmtreePath (p : P)
  | writeOwner (p : P) (succeeds : Bool)
  | leave (p : P)
  | release (p : P)
  deriving DecidableEq, Repr

def State.withLock (s : State P) (lock : Option (LockDir P)) : State P :=
  { s with lock := lock }

@[simp] theorem State.withLock_lock (s : State P) (lock : Option (LockDir P)) :
    (s.withLock lock).lock = lock := rfl

@[simp] theorem State.withLock_pc (s : State P) (lock : Option (LockDir P)) :
    (s.withLock lock).pc = s.pc := rfl

section Calls

variable [DecidableEq P]

def State.goto (s : State P) (p : P) (pc : Pc) : State P :=
  { s with pc := Function.update s.pc p pc }

@[simp] theorem State.goto_lock (s : State P) (p : P) (pc : Pc) : (s.goto p pc).lock = s.lock := rfl

@[simp] theorem State.goto_pc (s : State P) (p : P) (pc : Pc) :
    (s.goto p pc).pc = Function.update s.pc p pc := rfl

/-- The calls of `acquire_process_lock`, `_remove_stale_lock` and the `finally`
block, one at a time. A refused caller (`ProcessLockError`) is outside again. -/
def step (host : Host P) (s : State P) : Action P → Option (State P)
  | .call p now => if s.pc p = .outside then some (s.goto p (.mkdir now)) else none
  | .mkdir p =>
    match s.pc p, s.lock with
    | .mkdir t, none => some ((s.withLock (some ⟨some p, .missing⟩)).goto p (.writeOwner t))
    | .mkdir t, some _ => some (s.goto p (.inspect t))
    | _, _ => none
  | .read p now =>
    match s.pc p with
    | .inspect t =>
      if (inspectExistingLock host now (s.lock.map LockDir.file)).1 then some (s.goto p (.rename t))
      else some (s.goto p .outside)
    | _ => none
  | .rename p succeeds =>
    match s.pc p, s.lock with
    | .rename t, none => some (s.goto p (.mkdir t))
    | .rename t, some _ =>
      if succeeds then some ((s.withLock none).goto p (.rmtreeStale t))
      else some (s.goto p (.rmtreePath t))
    | _, _ => none
  | .rmtreeStale p =>
    match s.pc p with
    | .rmtreeStale t => some (s.goto p (.mkdir t))
    | _ => none
  | .rmtreePath p =>
    match s.pc p with
    | .rmtreePath t => some ((s.withLock none).goto p (.mkdir t))
    | _ => none
  | .writeOwner p succeeds =>
    match s.pc p, s.lock with
    | .writeOwner t, some dir =>
      if succeeds then
        some ((s.withLock (some { dir with file := .record (ownerOf host p t) })).goto p .inside)
      else some (s.goto p .release)
    | .writeOwner _, none => some (s.goto p .release)
    | _, _ => none
  | .leave p => if s.pc p = .inside then some (s.goto p .release) else none
  | .release p => if s.pc p = .release then some ((s.withLock none).goto p .outside) else none

end Calls

/-- No caller has started; the path is free or carries the directory of a dead process. -/
def Initial (s : State P) : Prop :=
  (∀ p, s.pc p = .outside) ∧ ∀ dir, s.lock = some dir → dir.maker = none

/-- No inspection finds an owner older than `stale_after_seconds`. -/
def NotExpired (host : Host P) (s : State P) : Action P → Prop
  | .read _ now => ∀ owner started_at, readLockOwner (s.lock.map LockDir.file) = some owner →
      owner.started_at = some started_at → now - started_at ≤ host.stale_after_seconds
  | _ => True

/-- A stale verdict is carried out on the directory of a dead process only: when
`_remove_stale_lock` moves or deletes the path, no caller between its `mkdir`
and its release has its directory there. -/
def RemovesLeftover (s : State P) : Action P → Prop
  | .rename _ true => ∀ dir, s.lock = some dir → dir.maker = none
  | .rmtreePath _ => ∀ dir, s.lock = some dir → dir.maker = none
  | _ => True

/-- At most one caller is inside the guarded block. -/
def MutualExclusion (s : State P) : Prop :=
  ∀ p q, s.pc p = .inside → s.pc q = .inside → p = q

/-- A caller about to release finds its own directory at the path, or none. -/
def ReleasesOwn (s : State P) : Prop :=
  ∀ p dir, s.pc p = .release → s.lock = some dir → dir.maker = some p

/-- The caller has made the directory and not yet released it. -/
def Pc.Holds : Pc → Prop
  | .writeOwner _ | .inside | .release => True
  | _ => False

/-- The directory of a holder stands at the path until the holder releases it. -/
def HolderAtPath (s : State P) : Prop :=
  ∀ p, (s.pc p).Holds → ∃ file, s.lock = some ⟨some p, file⟩

theorem HolderAtPath.unique {s : State P} (h : HolderAtPath s) {p q : P}
    (hp : (s.pc p).Holds) (hq : (s.pc q).Holds) : p = q := by
  obtain ⟨f, hf⟩ := h p hp
  obtain ⟨g, hg⟩ := h q hq
  rw [hf] at hg
  injection hg with hdir
  injection hdir with hmaker
  exact Option.some.inj hmaker

private theorem HolderAtPath.mutualExclusion {s : State P} (h : HolderAtPath s) :
    MutualExclusion s := by
  intro p q hp hq
  exact h.unique (by rw [hp]; trivial) (by rw [hq]; trivial)

private theorem HolderAtPath.releasesOwn {s : State P} (h : HolderAtPath s) : ReleasesOwn s := by
  intro p dir hp hdir
  obtain ⟨file, hf⟩ := h p (by rw [hp]; trivial)
  rw [hf] at hdir
  cases hdir
  rfl

private theorem HolderAtPath.of_initial {s : State P} (h : Initial s) : HolderAtPath s := by
  intro p hp
  rw [h.1 p] at hp
  exact hp.elim

private theorem HolderAtPath.none_holds {s : State P} (h : HolderAtPath s)
    (leftover : ∀ dir, s.lock = some dir → dir.maker = none) (q : P) : ¬ (s.pc q).Holds := by
  intro hq
  obtain ⟨file, hf⟩ := h q hq
  exact Option.some_ne_none q (leftover _ hf)

section Calls

variable [DecidableEq P]

private theorem HolderAtPath.goto {s : State P} (h : HolderAtPath s) (p : P) {pc : Pc}
    (hpc : pc.Holds → (s.pc p).Holds) : HolderAtPath (s.goto p pc) := by
  intro q hq
  by_cases hqp : q = p
  · subst hqp
    exact h q (hpc (by simpa using hq))
  · exact h q (by simpa [Function.update_of_ne hqp] using hq)

/-- Clearing the path is harmless when nobody else holds it. -/
private theorem HolderAtPath.clear {s : State P} (p : P) {pc : Pc} (hpc : ¬ pc.Holds)
    (alone : ∀ q, (s.pc q).Holds → q = p) : HolderAtPath ((s.withLock none).goto p pc) := by
  intro q hq
  by_cases hqp : q = p
  · subst hqp
    exact (hpc (by simpa using hq)).elim
  · exact (hqp (alone q (by simpa [Function.update_of_ne hqp] using hq))).elim

theorem HolderAtPath.step {host : Host P} {s s' : State P} {a : Action P} (h : HolderAtPath s)
    (guard : RemovesLeftover s a) (hstep : step host s a = some s') : HolderAtPath s' := by
  cases a with
  | call p now =>
    simp only [Lock.step] at hstep
    split at hstep
    · cases hstep
      exact h.goto p (fun hh => hh.elim)
    · cases hstep
  | mkdir p =>
    simp only [Lock.step] at hstep
    split at hstep
    case h_1 t hpc hfree =>
      cases hstep
      intro q hq
      by_cases hqp : q = p
      · subst hqp
        exact ⟨.missing, rfl⟩
      · have hold : (s.pc q).Holds := by simpa [Function.update_of_ne hqp] using hq
        obtain ⟨file, hf⟩ := h q hold
        rw [hfree] at hf
        cases hf
    case h_2 =>
      cases hstep
      exact h.goto p (fun hh => hh.elim)
    case h_3 => cases hstep
  | read p now =>
    simp only [Lock.step] at hstep
    split at hstep
    · split at hstep <;> cases hstep <;> exact h.goto p (fun hh => hh.elim)
    · cases hstep
  | rename p succeeds =>
    simp only [Lock.step] at hstep
    split at hstep
    · cases hstep
      exact h.goto p (fun hh => hh.elim)
    · cases succeeds with
      | true =>
        cases hstep
        exact HolderAtPath.clear p (fun hh => hh)
          (fun q hq => (h.none_holds guard q hq).elim)
      | false =>
        cases hstep
        exact h.goto p (fun hh => hh.elim)
    · cases hstep
  | rmtreeStale p =>
    simp only [Lock.step] at hstep
    split at hstep
    · cases hstep
      exact h.goto p (fun hh => hh.elim)
    · cases hstep
  | rmtreePath p =>
    simp only [Lock.step] at hstep
    split at hstep
    · cases hstep
      exact HolderAtPath.clear p (fun hh => hh) (fun q hq => (h.none_holds guard q hq).elim)
    · cases hstep
  | writeOwner p succeeds =>
    simp only [Lock.step] at hstep
    split at hstep
    case h_1 t dir hpc hlock =>
      have hold : (s.pc p).Holds := by rw [hpc]; trivial
      cases succeeds with
      | true =>
        cases hstep
        obtain ⟨file, hf⟩ := h p hold
        rw [hlock] at hf
        cases hf
        intro q hq
        have hqp : q = p := by
          by_contra hne
          exact hne (h.unique (by simpa [Function.update_of_ne hne] using hq) hold)
        exact ⟨_, by rw [hqp]; rfl⟩
      | false =>
        cases hstep
        exact h.goto p (fun _ => hold)
    case h_2 t hpc hlock =>
      cases hstep
      exact h.goto p (fun _ => by rw [hpc]; trivial)
    case h_3 => cases hstep
  | leave p =>
    simp only [Lock.step] at hstep
    split at hstep
    case isTrue hpc =>
      cases hstep
      exact h.goto p (fun _ => by rw [hpc]; trivial)
    case isFalse => cases hstep
  | release p =>
    simp only [Lock.step] at hstep
    split at hstep
    case isTrue hpc =>
      cases hstep
      exact HolderAtPath.clear p (fun hh => hh)
        (fun q hq => h.unique hq (by rw [hpc]; trivial))
    case isFalse => cases hstep

/-- In every run whose removals hit leftovers only, the lock excludes and every
release removes the releasing caller's own directory. -/
theorem lock_exclusive_of_leftover_removals (host : Host P) {s t : State P}
    {actions : List (Action P)} (init : Initial s)
    (guarded : Guarded (step host) RemovesLeftover s actions)
    (run : exec (step host) s actions = some t) : MutualExclusion t ∧ ReleasesOwn t := by
  have h : HolderAtPath t :=
    invariant_of_guarded (fun _ _ _ h g hs => h.step g hs) (.of_initial init) guarded run
  exact ⟨h.mutualExclusion, h.releasesOwn⟩

end Calls

/-! Two live callers, `false` and `true`, on one host. -/

def duo : Host Bool where
  hostname := "host"
  alive pid := pid == 1 || pid == 2
  pid p := if p then 2 else 1
  stale_after_seconds := 60
  pid_pos p := by cases p <;> decide
  pid_alive p := by cases p <;> decide

def idle (lock : Option (LockDir Bool)) : State Bool := ⟨lock, fun _ => .outside⟩

/-- A dead process (pid 7) left its directory at the path; one caller takes over. -/
def takeover : List (Action Bool) :=
  [.call false 0, .mkdir false, .read false 0, .rename false true, .rmtreeStale false,
    .mkdir false, .writeOwner false true]

def deadLock : LockDir Bool := ⟨none, .record ⟨some 7, "host", some 0⟩⟩

theorem lock_exclusive_takeover :
    ∃ t, exec (step duo) (idle (some deadLock)) takeover = some t ∧ t.pc false = .inside ∧
      MutualExclusion t ∧ ReleasesOwn t := by
  have init : Initial (idle (some deadLock)) := by
    refine ⟨fun _ => rfl, ?_⟩
    rintro dir h
    cases h
    rfl
  have guarded : Guarded (step duo) RemovesLeftover (idle (some deadLock)) takeover := by
    refine .cons trivial rfl (.cons trivial rfl (.cons trivial rfl (.cons ?_ rfl ?_)))
    · rintro dir h
      cases h
      rfl
    · exact .cons trivial rfl (.cons trivial rfl (.cons trivial rfl trivial))
  exact ⟨_, rfl, rfl, lock_exclusive_of_leftover_removals duo init guarded rfl⟩

/-- The second caller reads between the first one's `mkdir` and its owner file. -/
def doubleEntry : List (Action Bool) :=
  [.call false 0, .call true 0, .mkdir false, .mkdir true, .read true 0, .rename true true,
    .rmtreeStale true, .mkdir true, .writeOwner true true, .writeOwner false true]

private theorem doubleEntry_not_expired :
    Guarded (step duo) (NotExpired duo) (idle none) doubleEntry := by
  refine .cons trivial rfl (.cons trivial rfl (.cons trivial rfl (.cons trivial rfl
    (.cons ?_ rfl (.cons trivial rfl (.cons trivial rfl (.cons trivial rfl
      (.cons trivial rfl (.cons trivial rfl trivial)))))))))
  intro owner started_at h
  cases h

/-- Live callers, no expired owner: two are inside, and the first release then
removes the directory of the other. -/
theorem lock_not_exclusive :
    ¬ ∀ (s t : State Bool) (actions : List (Action Bool)), Initial s →
        Guarded (step duo) (NotExpired duo) s actions →
        exec (step duo) s actions = some t → MutualExclusion t ∧ ReleasesOwn t := by
  intro claim
  have both := (claim (idle none) _ doubleEntry ⟨fun _ => rfl, fun _ h => by cases h⟩
    doubleEntry_not_expired rfl).1 false true rfl rfl
  exact Bool.false_ne_true both

end QuantDataCenter.Process.Lock
