import QuantDataCenter.Lib.Dict
import QuantDataCenter.Lib.Transition

/-!
The files of a partitioned dataset while writers replace them (`atomic_write`) and
readers query the view over them (`duckdb_store.py`). A temporary file lies beside
the file it replaces; the view reads every file that its glob matches.
-/

set_option autoImplicit false
set_option relaxedAutoImplicit false

namespace QuantDataCenter.Storage.Files

open QuantDataCenter.Lib

/-! Names -/

def endsWith (suffix name : String) : Bool := suffix.toList.isSuffixOf name.toList

def contains (part name : String) : Bool := name.toList.tails.any fun rest => part.toList.isPrefixOf rest

def dataName : String := "data.parquet"

/-- `data.{uuid4().hex}.tmp.parquet`. -/
def tmpName (hex : String) : String := "data." ++ hex ++ ".tmp.parquet"

/-- The last part of the view's glob, `*.parquet`. -/
def matchesView (name : String) : Bool := endsWith ".parquet" name

/-! Files -/

/-- A file that is being written is torn until it is closed. -/
inductive File (R : Type*) where
  | torn
  | complete (rows : List R)

def erase {κ β : Type*} [DecidableEq κ] (k : κ) (d : Dict κ β) : Dict κ β := d.filter fun e => e.1 ≠ k

inductive View where
  | empty
  | glob
  deriving DecidableEq, Repr

/-- Where a call of `atomic_write` stands. -/
inductive Pc (P R : Type*) where
  | idle
  | ready (partition : P) (rows : List R) (attempt : ℕ)
  | locked (partition : P) (rows : List R) (attempt : ℕ)
  | writing (partition : P) (rows : List R) (attempt : ℕ)
  | written (partition : P) (rows : List R) (attempt : ℕ)
  | failed (partition : P) (rows : List R) (attempt : ℕ) (retry : Bool)
  | givingUp (partition : P) (rows : List R)
  | ended

/-- The files by partition, temporary ones also by call, and the calls. `committed` remembers what
the replacements that succeeded have put in place. -/
structure State (P W S R : Type*) where
  data : Dict P (File R)
  temps : Dict (P × W) (File R)
  committed : Dict P (List R)
  view : View
  pc : W → Pc P R
  lock : S → Option W

/-- How `pq.write_table` goes on after it has opened the file. -/
inductive WriteOutcome where
  | closed
  | osError
  | otherError
  deriving DecidableEq, Repr

/-- One system call of one writer, a build of the views, or a query. -/
inductive Action (P W R : Type*) where
  | call (w : W) (partition : P) (rows : List R)
  | acquire (w : W)
  | openTmp (w : W) (opens retry : Bool)
  | write (w : W) (outcome : WriteOutcome)
  | replace (w : W) (succeeds : Bool)
  | unlink (w : W) (succeeds : Bool)
  | lastUnlink (w : W) (succeeds : Bool)
  | crash (w : W)
  | buildViews (cleanup connects : Bool) (removed : P × W → Bool)
  | query

/-- The uuid of a call, and the store whose write lock it takes. -/
structure Callers (W S : Type*) where
  hex : W → String
  store : W → S

def parquetWriteMaxRetries : ℕ := 3

section Calls

variable {P W S R : Type*} [DecidableEq P] [DecidableEq W] [DecidableEq S]

/-- The names in the dataset's directories, with the files. -/
def State.listing (callers : Callers W S) (s : State P W S R) : List (String × File R) :=
  s.data.map (fun e => (dataName, e.2)) ++ s.temps.map fun e => (tmpName (callers.hex e.1.2), e.2)

/-- `_has_parquet_files`. -/
def hasParquetFiles (callers : Callers W S) (s : State P W S R) : Bool :=
  (s.listing callers).any fun f => matchesView f.1 && !contains ".tmp.parquet" f.1

/-- `_cleanup_tmp_parquet_files`: each removal may fail. -/
def cleanupTmpParquetFiles (callers : Callers W S) (removed : P × W → Bool) (s : State P W S R) :
    State P W S R :=
  { s with
    data := s.data.filter fun _ => !endsWith ".tmp.parquet" dataName
    temps := s.temps.filter fun e =>
      !(endsWith ".tmp.parquet" (tmpName (callers.hex e.1.2)) && removed e.1) }

def File.isTorn {R : Type*} : File R → Bool
  | .torn => true
  | .complete _ => false

def File.rows {R : Type*} : File R → List R
  | .torn => []
  | .complete rows => rows

/-- `read_parquet` over the glob: the rows of all files that match; `none` if one cannot be read. -/
def State.query (callers : Callers W S) (s : State P W S R) : Option (List R) :=
  match s.view with
  | .empty => some []
  | .glob =>
    let matched := (s.listing callers).filter fun file => matchesView file.1
    if matched.any fun file => file.2.isTorn then none
    else some (matched.flatMap fun file => file.2.rows)

def State.goto (s : State P W S R) (w : W) (pc : Pc P R) : State P W S R :=
  { s with pc := Function.update s.pc w pc }

/-- The end of the block under the write lock. -/
def State.unlock (callers : Callers W S) (s : State P W S R) (w : W) : State P W S R :=
  { s with lock := Function.update s.lock (callers.store w) none }

/-- `atomic_write` one system call after the other, and the builds of the views. -/
def step (callers : Callers W S) (s : State P W S R) : Action P W R → Option (State P W S R)
  | .call w p rows =>
    match s.pc w with
    | .idle => some (s.goto w (.ready p rows 0))
    | _ => none
  | .acquire w =>
    match s.pc w, s.lock (callers.store w) with
    | .ready p rows attempt, none =>
      some ({ s with lock := Function.update s.lock (callers.store w) (some w) }.goto w
        (.locked p rows attempt))
    | _, _ => none
  | .openTmp w opens retry =>
    match s.pc w with
    | .locked p rows attempt =>
      if opens then
        some ({ s with temps := Dict.set (p, w) .torn s.temps }.goto w (.writing p rows attempt))
      else some ((s.unlock callers w).goto w (.failed p rows attempt retry))
    | _ => none
  | .write w outcome =>
    match s.pc w with
    | .writing p rows attempt =>
      match outcome with
      | .closed =>
        -- the file may have been removed under the open handle
        let temps := if (Dict.get (p, w) s.temps).isSome then Dict.set (p, w) (.complete rows) s.temps
          else s.temps
        some ({ s with temps := temps }.goto w (.written p rows attempt))
      | .osError => some ((s.unlock callers w).goto w (.failed p rows attempt true))
      | .otherError => some ((s.unlock callers w).goto w (.failed p rows attempt false))
    | _ => none
  | .replace w succeeds =>
    match s.pc w with
    | .written p rows attempt =>
      match succeeds, Dict.get (p, w) s.temps with
      | true, some file =>
        some (({ s with
          data := Dict.set p file s.data
          temps := erase (p, w) s.temps
          committed := Dict.set p rows s.committed }.unlock callers w).goto w .ended)
      | _, _ => some ((s.unlock callers w).goto w (.failed p rows attempt true))
    | _ => none
  | .unlink w succeeds =>
    match s.pc w with
    | .failed p rows attempt retry =>
      let temps := if succeeds then erase (p, w) s.temps else s.temps
      let pc := if retry = false then .ended
        else if attempt + 1 < parquetWriteMaxRetries then .ready p rows (attempt + 1)
        else .givingUp p rows
      some ({ s with temps := temps }.goto w pc)
    | _ => none
  | .lastUnlink w succeeds =>
    match s.pc w with
    | .givingUp p _ =>
      let temps := if succeeds then erase (p, w) s.temps else s.temps
      some ({ s with temps := temps }.goto w .ended)
    | _ => none
  | .crash w =>
    match s.pc w with
    | .idle | .ended => none
    | _ =>
      let s := if s.lock (callers.store w) = some w then s.unlock callers w else s
      some (s.goto w .ended)
  | .buildViews cleanup connects removed =>
    let s := if cleanup then cleanupTmpParquetFiles callers removed s else s
    some (if connects then { s with view := if hasParquetFiles callers s then .glob else .empty } else s)
  | .query => some s

end Calls

/-- No writer has started and no temporary file lies about. -/
def State.initial {P W S R : Type*} (committed : Dict P (List R)) (view : View) : State P W S R :=
  ⟨committed.map fun e => (e.1, .complete e.2), [], committed, view, fun _ => .idle, fun _ => none⟩

end QuantDataCenter.Storage.Files
