import QuantDataCenter.Lib.Delivery
import QuantDataCenter.Lib.Transition

/-!
`PipelineMetadataBatch`: rows are collected under one lock and written under
another. The threads interleave at the two locks and at the persist call.
-/

set_option autoImplicit false
set_option relaxedAutoImplicit false

namespace QuantDataCenter.Pipeline

open QuantDataCenter.Lib

/-- A row by its fields, as `row.get` reads it. -/
abbrev MetadataRow (V : Type*) := String → Option V

variable {V T : Type*} [DecidableEq V]

/-- `tuple(row.get(field) for field in key_fields)`. -/
def keyOf (keyFields : List String) (row : MetadataRow V) : List (Option V) := keyFields.map row

/-- `_dedupe_rows`: a key stands where its first row stood, with its last row. -/
def dedupeRows (rows : List (MetadataRow V)) (keyFields : List String) : List (MetadataRow V) :=
  if rows.length < 2 then rows
  else (rows.foldl (fun byKey row => Dict.set (keyOf keyFields row) row byKey) []).map Prod.snd

def statusKeyFields : List String := ["dataset", "code"]

def checkpointKeyFields : List String := ["pipeline", "dataset", "code", "start_date", "end_date"]

inductive CountBy where
  | run
  | checkpoint
  deriving DecidableEq, Repr

/-- The rows of a batch, or of one persist call. -/
structure MetadataRows (V : Type*) where
  runRows : List (MetadataRow V)
  statusRows : List (MetadataRow V)
  checkpointRows : List (MetadataRow V)

def MetadataRows.empty : MetadataRows V := ⟨[], [], []⟩

def MetadataRows.append (a b : MetadataRows V) : MetadataRows V :=
  ⟨a.runRows ++ b.runRows, a.statusRows ++ b.statusRows, a.checkpointRows ++ b.checkpointRows⟩

/-- The arguments of `add`. -/
structure LifecycleRows (V : Type*) where
  runRow : Option (MetadataRow V)
  statusRow : Option (MetadataRow V)
  checkpointRow : Option (MetadataRow V)

def LifecycleRows.toRows (rows : LifecycleRows V) : MetadataRows V :=
  ⟨rows.runRow.toList, rows.statusRow.toList, rows.checkpointRow.toList⟩

/-- `_pending_count`. -/
def pendingCount (countBy : CountBy) (rows : MetadataRows V) : ℕ :=
  match countBy with
  | .run => rows.runRows.length
  | .checkpoint => rows.checkpointRows.length

/-- What a flush takes out of the batch. -/
def snapshot (rows : MetadataRows V) : MetadataRows V where
  runRows := rows.runRows
  statusRows := dedupeRows rows.statusRows statusKeyFields
  checkpointRows := dedupeRows rows.checkpointRows checkpointKeyFields

/-- How a persist call ends; an interrupt is no `Exception`. -/
inductive PersistOutcome where
  | returned
  | raised
  | interrupted
  deriving DecidableEq, Repr

/-- Where a thread stands; from `locked` on it holds the write lock. -/
inductive Pc (V : Type*) where
  | outside
  | waiting
  | locked
  | persisting (rows : MetadataRows V)
  | restoring (rows : MetadataRows V)
  | leaving (normally : Bool)

structure PersistCall (V : Type*) where
  rows : MetadataRows V
  outcome : PersistOutcome

/-- The batch with its threads; `added` and `calls` remember what was added and passed. -/
structure State (V T : Type*) where
  rows : MetadataRows V
  writeLock : Option T
  pc : T → Pc V
  added : List (LifecycleRows V)
  calls : List (PersistCall V)

/-- One critical section, or one lock or persist call, of one thread. -/
inductive Action (V T : Type*) where
  | add (t : T) (rows : LifecycleRows V)
  | flush (t : T)
  | acquire (t : T)
  | takeSnapshot (t : T)
  | persist (t : T) (outcome : PersistOutcome)
  | restore (t : T)
  | release (t : T)

/-- The options of the batch; a size below one counts as one. -/
structure Options where
  flushSize : ℤ
  countBy : CountBy

section Calls

variable [DecidableEq T]

def State.goto (s : State V T) (t : T) (pc : Pc V) : State V T :=
  { s with pc := Function.update s.pc t pc }

/-- `add` and `flush`, one critical section after the other. -/
def step (options : Options) (s : State V T) : Action V T → Option (State V T)
  | .add t rows =>
    match s.pc t with
    | .outside =>
      let pending := s.rows.append rows.toRows
      let next := { s with rows := pending, added := s.added ++ [rows] }
      if max options.flushSize 1 ≤ pendingCount options.countBy pending then some (next.goto t .waiting)
      else some next
    | _ => none
  | .flush t =>
    match s.pc t with
    | .outside => some (s.goto t .waiting)
    | _ => none
  | .acquire t =>
    match s.pc t, s.writeLock with
    | .waiting, none => some ({ s with writeLock := some t }.goto t .locked)
    | _, _ => none
  | .takeSnapshot t =>
    match s.pc t with
    | .locked =>
      if pendingCount options.countBy s.rows = 0 then some (s.goto t (.leaving true))
      else some ({ s with rows := .empty }.goto t (.persisting (snapshot s.rows)))
    | _ => none
  | .persist t outcome =>
    match s.pc t with
    | .persisting rows =>
      let called : State V T := { s with calls := s.calls ++ [⟨rows, outcome⟩] }
      match outcome with
      | .returned => some (called.goto t (.leaving true))
      | .raised => some (called.goto t (.restoring rows))
      | .interrupted => some (called.goto t (.leaving false))
    | _ => none
  | .restore t =>
    match s.pc t with
    | .restoring rows => some ({ s with rows := rows.append s.rows }.goto t (.leaving false))
    | _ => none
  | .release t =>
    match s.pc t with
    | .leaving _ => some ({ s with writeLock := none }.goto t .outside)
    | _ => none

end Calls

def State.initial : State V T := ⟨.empty, none, fun _ => .outside, [], []⟩

end QuantDataCenter.Pipeline
