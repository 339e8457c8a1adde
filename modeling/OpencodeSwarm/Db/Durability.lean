/-
  OpencodeSwarm.Db.Durability

  Transactions under a durability class (`src/db/durability.ts`): the outermost
  call raises `synchronous` and owns the transaction, nested calls are
  savepoints of it.  Owner, setting and transaction are restored exactly when
  `BEGIN IMMEDIATE` and the statements behind it do not fail halfway.
-/
import OpencodeSwarm.Db.Handle
import OpencodeSwarm.Lib.Transition

namespace OpencodeSwarm

open Js

/-! ## Calls -/

structure TransactionOwner where
  durability : DurabilityClass
  depth : Nat
  deriving DecidableEq

/-- A handle and its entry in `transactionOwners`.  A write stands for the body of a
    call, by its durability class. -/
structure Connection extends Handle DurabilityClass where
  owner : Option TransactionOwner
  deriving DecidableEq

/-- `ImmediateTransactionHooks`: what each hook throws. -/
structure ImmediateTransactionHooks where
  beforeBegin : Option DbError := none
  beforeOuterCommit : Option DbError := none
  afterOuterCommit : Option DbError := none

/-- How the statements of one call fail: `PRAGMA synchronous`, BEGIN IMMEDIATE (SAVEPOINT or
    BEGIN of a nested call), COMMIT (RELEASE), ROLLBACK (ROLLBACK TO), and the pragma that
    restores NORMAL. -/
structure TransactionFaults where
  pragma : Option DbError := none
  begin : Option DbError := none
  commit : Option CommitFault := none
  rollback : Option DbError := none
  restore : Option DbError := none

/-- A callback that is given the connection. -/
abbrev Callback (T : Type) := Connection → Connection × Except DbError T

variable {T : Type}

namespace Connection

/-- A statement of the handle. -/
def run {ρ : Type} (db : Connection)
    (statement : Handle DurabilityClass → Handle DurabilityClass × ρ) : Connection × ρ :=
  ({ db with toHandle := (statement db.toHandle).1 }, (statement db.toHandle).2)

/-- The body of a call begins. -/
def enter (db : Connection) (cls : DurabilityClass) : Connection :=
  { db with toHandle := db.toHandle.write cls }

/-! ### `db.transaction(fn)()` -/

/-- Inside of a transaction: a savepoint. -/
def savepoint (db : Connection) (current : OpenTransaction DurabilityClass)
    (cls : DurabilityClass) (fn : Callback T) (faults : TransactionFaults) :
    Connection × Except DbError T :=
  match faults.begin with
  | some error => (db, .error error)
  | none =>
    let undo (db : Connection) : Connection :=
      (db.run fun handle =>
        handle.rollbackTo current.number current.writes.length faults.rollback).1
    match fn (db.enter cls) with
    | (db, .error error) => (undo db, .error error)
    | (db, .ok result) =>
      match db.run fun handle => handle.release current.number faults.commit with
      | (db, .error error) => (undo db, .error error)
      | (db, .ok _) => (db, .ok result)

/-- Outside of one: a transaction of its own. -/
def deferred (db : Connection) (cls : DurabilityClass) (fn : Callback T)
    (faults : TransactionFaults) : Connection × Except DbError T :=
  match db.run fun handle => handle.beginTransaction faults.begin with
  | (db, .error error) => (db, .error error)
  | (db, .ok _) =>
    let undo (db : Connection) : Connection :=
      (db.run fun handle => handle.rollback faults.rollback).1
    match fn (db.enter cls) with
    | (db, .error error) => (undo db, .error error)
    | (db, .ok result) =>
      match db.run fun handle => handle.commit faults.commit with
      | (db, .error error) => (undo db, .error error)
      | (db, .ok _) => (db, .ok result)

/-- `db.transaction(fn)()`. -/
def transact (db : Connection) (cls : DurabilityClass) (fn : Callback T)
    (faults : TransactionFaults) : Connection × Except DbError T :=
  match db.transaction with
  | some current => db.savepoint current cls fn faults
  | none => db.deferred cls fn faults

/-! ### `withImmediateTransaction` -/

/-- The `try` block behind BEGIN IMMEDIATE, and whether `committed` is set. -/
def attempt (db : Connection) (cls : DurabilityClass) (fn : Callback T)
    (hooks : ImmediateTransactionHooks) (faults : TransactionFaults) :
    Connection × Bool × Except DbError T :=
  match fn (db.enter cls) with
  | (db, .error error) => (db, false, .error error)
  | (db, .ok result) =>
    match hooks.beforeOuterCommit with
    | some error => (db, false, .error error)
    | none =>
      match db.run fun handle => handle.commit faults.commit with
      | (db, .error error) => (db, false, .error error)
      | (db, .ok _) =>
        match hooks.afterOuterCommit with
        | some error => (db, true, .error error)
        | none => (db, true, .ok result)

/-- The `catch` block: ROLLBACK unless the transaction is committed. -/
def recover (attempted : Connection × Bool × Except DbError T) (faults : TransactionFaults) :
    Connection :=
  match attempted with
  | (db, _, .ok _) => db
  | (db, true, .error _) => db
  | (db, false, .error _) => (db.run fun handle => handle.rollback faults.rollback).1

/-- The `finally` block. -/
def restore (db : Connection) (result : Except DbError T) (faults : TransactionFaults) :
    Connection × Except DbError T :=
  match { db with owner := none }.run fun handle =>
    handle.applySynchronousForClass .normal faults.restore with
  | (db, .error error) => (db, .error error)
  | (db, .ok _) => (db, result)

end Connection

def nestedFullError : DbError :=
  ⟨none, js "Cannot nest a FULL coordination transaction inside a NORMAL owner"⟩

def unknownTransactionError : DbError :=
  ⟨none, js "Refusing to nest inside an unknown non-coordination-owned transaction"⟩

/-- `withImmediateTransaction`.  `transactionOwners.set` stands before BEGIN IMMEDIATE, and
    the `try` behind it. -/
def withImmediateTransaction (db : Connection) (cls : DurabilityClass) (fn : Callback T)
    (hooks : ImmediateTransactionHooks) (faults : TransactionFaults) :
    Connection × Except DbError T :=
  match db.owner with
  | some owner =>
    if cls = .full ∧ owner.durability ≠ .full then (db, .error nestedFullError)
    else
      let (db, result) :=
        { db with owner := some { owner with depth := owner.depth + 1 } }.transact cls fn faults
      ({ db with owner := db.owner.map fun owner => { owner with depth := owner.depth - 1 } },
        result)
  | none =>
    if db.inTransaction then (db, .error unknownTransactionError)
    else
      match hooks.beforeBegin with
      | some error => (db, .error error)
      | none =>
        match db.run fun handle => handle.applySynchronousForClass cls faults.pragma with
        | (db, .error error) => (db, .error error)
        | (db, .ok _) =>
          match { db with owner := some ⟨cls, 1⟩ }.run fun handle =>
            handle.beginTransaction faults.begin with
          | (db, .error error) => (db, .error error)
          | (db, .ok _) =>
            let attempted := db.attempt cls fn hooks faults
            (Connection.recover attempted faults).restore attempted.2.2 faults

/-! ## Bodies -/

/-- What a body does to the connection: it returns, it throws, it catches a failure with
    which SQLite rolled the transaction back, or it makes a nested call and may catch what
    that throws. -/
inductive TransactionBody where
  | returns
  | throws (error : DbError)
  | rolledBack (rest : TransactionBody)
  | nested (cls : DurabilityClass) (hooks : ImmediateTransactionHooks)
      (faults : TransactionFaults) (fn : TransactionBody) (caught : Bool) (rest : TransactionBody)

def TransactionBody.run : TransactionBody → Callback Unit
  | .returns, db => (db, .ok ())
  | .throws error, db => (db, .error error)
  | .rolledBack rest, db => rest.run { db with transaction := none }
  | .nested cls hooks faults fn caught rest, db =>
    match withImmediateTransaction db cls fn.run hooks faults with
    | (db, .error error) => if caught then rest.run db else (db, .error error)
    | (db, .ok _) => rest.run db

/-- An outermost call. -/
structure TransactionCall where
  cls : DurabilityClass
  body : TransactionBody
  hooks : ImmediateTransactionHooks
  faults : TransactionFaults

def transactionStep (db : Connection) (call : TransactionCall) : Connection :=
  (withImmediateTransaction db call.cls call.body.run call.hooks call.faults).1

end OpencodeSwarm
