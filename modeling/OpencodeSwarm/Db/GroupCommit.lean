/-
  OpencodeSwarm.Db.GroupCommit

  The group-commit writer (`src/db/group-commit-writer.ts`): queued writes are
  applied in one transaction a flush.  A flush that fails puts its batch back or
  drops it, by the class of the error, and a closed handle is rebound once.
-/
import OpencodeSwarm.Db.Handle

namespace OpencodeSwarm

open Js

/-! ## Classes of errors -/

/-- `toLowerCase` and `toUpperCase`. -/
structure CaseMapping where
  toLowerCase : JsString → JsString
  toUpperCase : JsString → JsString

def isClosedHandleError (host : CaseMapping) (err : DbError) : Bool :=
  let msg := host.toLowerCase err.message
  includes msg (js "database has closed") || includes msg (js "database is closed")
    || includes msg (js "cannot use a closed database")
    || includes msg (js "database is not open")

/-- The category of an error, by its code or its message. -/
def classifyDbWriteError (host : CaseMapping) (err : DbError) : DbWriteErrorCategory :=
  let upper := host.toUpperCase err.message
  if err.code = some (js "ENOSPC") then .diskFull
  else if err.code = some (js "EACCES") ∨ err.code = some (js "EROFS")
      ∨ err.code = some (js "EPERM") then .readOnly
  else if includes upper (js "SQLITE_FULL") ∨ includes upper (js "DATABASE OR DISK IS FULL") then
    .diskFull
  else if includes upper (js "SQLITE_READONLY")
      ∨ includes upper (js "ATTEMPT TO WRITE A READONLY") then .readOnly
  else if includes upper (js "SQLITE_CORRUPT")
      ∨ includes upper (js "DATABASE DISK IMAGE IS MALFORMED")
      ∨ includes upper (js "NOT A DATABASE") then .corrupt
  else if includes upper (js "SQLITE_BUSY") ∨ includes upper (js "DATABASE IS LOCKED") then .busy
  else .unknown

def DbWriteErrorCategory.text : DbWriteErrorCategory → JsString
  | .diskFull => js "disk_full"
  | .readOnly => js "read_only"
  | .corrupt => js "corrupt"
  | .busy => js "busy"
  | .unknown => js "unknown"

/-- The categories after which the batch is put back. -/
def DbWriteErrorCategory.retained (category : DbWriteErrorCategory) : Bool :=
  category = .busy ∨ category = .diskFull ∨ category = .readOnly

structure DbWriteError where
  category : DbWriteErrorCategory
  message : JsString
  deriving DecidableEq

/-! ## One batch -/

/-- `GroupCommitOp`; `number` tells the calls of `enqueue` apart. -/
structure GroupCommitOp where
  number : Nat
  durability : DurabilityClass
  deriving DecidableEq

def batchDurabilityClass (classes : List DurabilityClass) : DurabilityClass :=
  if classes.contains .full then .full else .normal

/-- How one attempt at a batch fails: its statements, and the first op that throws. -/
structure AttemptFaults where
  pragma : Option DbError := none
  begin : Option DbError := none
  op : Option (Nat × DbError) := none
  commit : Option CommitFault := none
  rollback : Option DbError := none
  restore : Option DbError := none

/-- The loop over the ops, from the op with this index. -/
def runOps (fault : Option (Nat × DbError)) :
    Handle GroupCommitOp → Nat → List GroupCommitOp → Handle GroupCommitOp × Except DbError Unit
  | db, _, [] => (db, .ok ())
  | db, i, op :: rest =>
    match fault with
    | some (index, error) =>
      if index = i then (db, .error error) else runOps fault (db.write op) (i + 1) rest
    | none => runOps fault (db.write op) (i + 1) rest

/-- `applySynchronousForClass(this.db, 'normal')` at the end of a block that answers `result`. -/
def restoreNormal (db : Handle GroupCommitOp) (result : Except DbError Unit)
    (faults : AttemptFaults) : Handle GroupCommitOp × Except DbError Unit :=
  match db.applySynchronousForClass .normal faults.restore with
  | (db, .error error) => (db, .error error)
  | (db, .ok _) => (db, result)

/-- The block behind BEGIN IMMEDIATE, with its ROLLBACK. -/
def commitOps (db : Handle GroupCommitOp) (batch : List GroupCommitOp) (faults : AttemptFaults) :
    Handle GroupCommitOp × Except DbError Unit :=
  match runOps faults.op db 0 batch with
  | (db, .error error) => ((db.rollback faults.rollback).1, .error error)
  | (db, .ok _) =>
    match db.commit faults.commit with
    | (db, .error error) => ((db.rollback faults.rollback).1, .error error)
    | (db, .ok _) => (db, .ok ())

/-- A batch in one transaction, and the pragma around it. -/
def applyBatch (db : Handle GroupCommitOp) (batch : List GroupCommitOp) (faults : AttemptFaults) :
    Handle GroupCommitOp × Except DbError Unit :=
  let cls := batchDurabilityClass (batch.map GroupCommitOp.durability)
  match db.applySynchronousForClass cls faults.pragma with
  | (db, .error error) => (db, .error error)
  | (db, .ok _) =>
    match db.beginTransaction faults.begin with
    | (db, .error error) => restoreNormal db (.error error) faults
    | (db, .ok _) =>
      let attempted := commitOps db batch faults
      restoreNormal attempted.1 attempted.2 faults

/-! ## The writer -/

/-- `MAX_QUEUED_OPS`. -/
def maxQueuedOps : Nat := 1024

/-- `FLUSH_THRESHOLD_OPS`. -/
def flushThresholdOps : Nat := 64

/-- `GroupCommitWriter`.  No call is made while another one runs, so `flushing` is false
    between calls. -/
structure GroupCommitWriter where
  db : Handle GroupCommitOp
  queue : List GroupCommitOp
  closed : Bool
  registryKey : Option JsString

/-- What `getProjectDb` does when the writer rebinds: it throws, it gives the handle it has,
    or it opens the database again. -/
inductive Rebind where
  | throws (error : DbError)
  | cached
  | reopened

/-- The new handle; a handle that is opened again sees what is committed. -/
def Rebind.handle (rebind : Rebind) (db : Handle GroupCommitOp) :
    Except DbError (Handle GroupCommitOp) :=
  match rebind with
  | .throws error => .error error
  | .cached => .ok db
  | .reopened => .ok { Handle.opened with committed := db.committed }

/-- How a flush fails: the attempt, the rebind and the second attempt. -/
structure FlushFaults where
  first : AttemptFaults := {}
  rebind : Rebind := .reopened
  second : AttemptFaults := {}

variable (host : CaseMapping)

/-- The inner `try` of `flushSync`: the batch is applied, on a fresh handle when the writer
    knows its registry key and the handle was closed. -/
def applyRebinding (writer : GroupCommitWriter) (batch : List GroupCommitOp)
    (faults : FlushFaults) : GroupCommitWriter × Except DbError Unit :=
  match applyBatch writer.db batch faults.first with
  | (db, .ok _) => ({ writer with db := db }, .ok ())
  | (db, .error error) =>
    if !isClosedHandleError host error || writer.registryKey.isNone then
      ({ writer with db := db }, .error error)
    else
      match faults.rebind.handle db with
      | .error error => ({ writer with db := db }, .error error)
      | .ok fresh =>
        let attempted := applyBatch fresh batch faults.second
        ({ writer with db := attempted.1 }, attempted.2)

def flushError (category : DbWriteErrorCategory) (error : DbError) : DbWriteError where
  category := category
  message := js "swarm.db group-commit flush failed (" ++ category.text ++ js "): " ++ error.message

/-- The `catch` of `flushSync`. -/
def flushFailed (writer : GroupCommitWriter) (batch : List GroupCommitOp) (error : DbError) :
    GroupCommitWriter × Except DbWriteError Unit :=
  let category := classifyDbWriteError host error
  let writer := if isClosedHandleError host error then { writer with closed := true, queue := [] }
    else writer
  let writer := if category.retained then { writer with queue := batch ++ writer.queue } else writer
  (writer, .error (flushError category error))

def flushSync (writer : GroupCommitWriter) (faults : FlushFaults) :
    GroupCommitWriter × Except DbWriteError Unit :=
  if writer.closed ∨ writer.queue = [] then (writer, .ok ())
  else
    match applyRebinding host { writer with queue := [] } writer.queue faults with
    | (after, .ok _) => (after, .ok ())
    | (after, .error error) => flushFailed host after writer.queue error

def writerClosedError : DbWriteError := ⟨.unknown, js "group-commit writer is closed"⟩

/-- How the flushes of one `enqueue` fail: at the hard bound, and at the threshold. -/
structure EnqueueFaults where
  hardBound : FlushFaults := {}
  threshold : FlushFaults := {}

/-- The part of `enqueue` behind the hard bound. -/
def pushOp (writer : GroupCommitWriter) (op : GroupCommitOp) (faults : EnqueueFaults) :
    GroupCommitWriter × Except DbWriteError Unit :=
  let pushed := { writer with queue := writer.queue ++ [op] }
  if flushThresholdOps ≤ pushed.queue.length then flushSync host pushed faults.threshold
  else (pushed, .ok ())

def GroupCommitWriter.enqueue (writer : GroupCommitWriter) (op : GroupCommitOp)
    (faults : EnqueueFaults) : GroupCommitWriter × Except DbWriteError Unit :=
  if writer.closed then (writer, .error writerClosedError)
  else if maxQueuedOps ≤ writer.queue.length then
    match flushSync host writer faults.hardBound with
    | (writer, .error error) => (writer, .error error)
    | (writer, .ok _) => pushOp host writer op faults
  else pushOp host writer op faults

def GroupCommitWriter.close (writer : GroupCommitWriter) : GroupCommitWriter :=
  { writer with closed := true, queue := [] }

end OpencodeSwarm
