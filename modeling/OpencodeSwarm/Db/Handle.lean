/-
  OpencodeSwarm.Db.Handle

  A connection to `.swarm/swarm.db` as its callers see it: the `synchronous`
  setting, the open transaction with the writes made in it, and what is
  committed, each write with the setting it was committed under.  A statement
  fails when the caller of the model says so, or when SQLite refuses it.
-/
import OpencodeSwarm.Lib.JsString

namespace OpencodeSwarm

open Js

/-! ## Errors -/

/-- A thrown error: `code` of a system error, and the message. -/
structure DbError where
  code : Option JsString
  message : JsString
  deriving DecidableEq

/-- An error that SQLite raises itself. -/
def sqliteError (message : JsString) : DbError := ⟨none, message⟩

inductive DbWriteErrorCategory where
  | diskFull
  | readOnly
  | corrupt
  | busy
  | unknown
  deriving DecidableEq, Repr

/-- A failed COMMIT, and whether SQLite rolled the transaction back with it. -/
structure CommitFault where
  error : DbError
  rolledBack : Bool
  deriving DecidableEq

/-! ## The connection -/

/-- The durability classes, which are the two settings of `synchronous`. -/
inductive DurabilityClass where
  | full
  | normal
  deriving DecidableEq, Repr

/-- An open transaction: which one since the handle was opened, and its writes. -/
structure OpenTransaction (β : Type) where
  number : Nat
  writes : List β
  deriving DecidableEq

structure Handle (β : Type) where
  synchronous : DurabilityClass
  transaction : Option (OpenTransaction β)
  begun : Nat
  committed : List (β × DurabilityClass)
  deriving DecidableEq

variable {β : Type}

namespace Handle

/-- A handle as `getProjectDb` opens it: `PRAGMA synchronous = NORMAL` and no transaction. -/
def opened : Handle β := ⟨.normal, none, 0, []⟩

def inTransaction (db : Handle β) : Bool := db.transaction.isSome

/-- A write through the handle; outside of a transaction it is committed at once. -/
def write (db : Handle β) (value : β) : Handle β :=
  match db.transaction with
  | none => { db with committed := db.committed ++ [(value, db.synchronous)] }
  | some current =>
    { db with transaction := some { current with writes := current.writes ++ [value] } }

/-! ## Statements -/

/-- `applySynchronousForClass`; SQLite refuses the pragma inside a transaction. -/
def applySynchronousForClass (db : Handle β) (cls : DurabilityClass) (fault : Option DbError) :
    Handle β × Except DbError Unit :=
  match fault with
  | some error => (db, .error error)
  | none =>
    if db.inTransaction then
      (db, .error (sqliteError (js "Safety level may not be changed inside a transaction")))
    else ({ db with synchronous := cls }, .ok ())

/-- `BEGIN IMMEDIATE`, or `BEGIN`. -/
def beginTransaction (db : Handle β) (fault : Option DbError) : Handle β × Except DbError Unit :=
  match fault with
  | some error => (db, .error error)
  | none =>
    if db.inTransaction then
      (db, .error (sqliteError (js "cannot start a transaction within a transaction")))
    else
      ({ db with transaction := some ⟨db.begun + 1, []⟩, begun := db.begun + 1 }, .ok ())

/-- The writes of the transaction are committed, or a fault keeps them out. -/
def commit (db : Handle β) (fault : Option CommitFault) : Handle β × Except DbError Unit :=
  match db.transaction with
  | none => (db, .error (sqliteError (js "cannot commit - no transaction is active")))
  | some current =>
    match fault with
    | some fault =>
      (if fault.rolledBack then { db with transaction := none } else db, .error fault.error)
    | none =>
      ({ db with
          transaction := none
          committed := db.committed ++ current.writes.map fun value => (value, db.synchronous) },
        .ok ())

def rollback (db : Handle β) (fault : Option DbError) : Handle β × Except DbError Unit :=
  match db.transaction with
  | none => (db, .error (sqliteError (js "cannot rollback - no transaction is active")))
  | some _ =>
    match fault with
    | some error => (db, .error error)
    | none => ({ db with transaction := none }, .ok ())

/-- `RELEASE` of a savepoint of the transaction with this number. -/
def release (db : Handle β) (number : Nat) (fault : Option CommitFault) :
    Handle β × Except DbError Unit :=
  if db.transaction.any fun current => current.number = number then
    match fault with
    | some fault =>
      (if fault.rolledBack then { db with transaction := none } else db, .error fault.error)
    | none => (db, .ok ())
  else (db, .error (sqliteError (js "no such savepoint")))

/-- `ROLLBACK TO` a savepoint that was set behind the first `kept` writes. -/
def rollbackTo (db : Handle β) (number kept : Nat) (fault : Option DbError) :
    Handle β × Except DbError Unit :=
  match db.transaction with
  | none => (db, .error (sqliteError (js "no such savepoint")))
  | some current =>
    if current.number = number then
      match fault with
      | some error => (db, .error error)
      | none =>
        ({ db with transaction := some { current with writes := current.writes.take kept } },
          .ok ())
    else (db, .error (sqliteError (js "no such savepoint")))

/-! ## What the statements leave alone -/

/-- The pragma fails, by itself or inside a transaction, or it sets the setting. -/
theorem applySynchronousForClass_cases (db : Handle β) (cls : DurabilityClass)
    (fault : Option DbError) :
    (∃ error, db.applySynchronousForClass cls fault = (db, .error error)
        ∧ (fault = some error ∨ db.transaction ≠ none)) ∨ (fault = none ∧ db.transaction = none
        ∧ db.applySynchronousForClass cls fault = ({ db with synchronous := cls }, .ok ())) := by
  unfold applySynchronousForClass
  cases fault with
  | some error => exact Or.inl ⟨error, rfl, Or.inl rfl⟩
  | none =>
    dsimp only
    split
    · next hinside =>
      refine Or.inl ⟨_, rfl, Or.inr ?_⟩
      exact Option.isSome_iff_ne_none.mp hinside
    · next houtside =>
      refine Or.inr ⟨rfl, ?_, rfl⟩
      exact Option.not_isSome_iff_eq_none.mp houtside

/-- BEGIN fails and leaves the handle alone, or it opens a transaction without writes. -/
theorem beginTransaction_cases (db : Handle β) (fault : Option DbError) :
    (∃ error, db.beginTransaction fault = (db, .error error))
      ∨ (fault = none ∧ db.transaction = none ∧ db.beginTransaction fault
          = ({ db with transaction := some ⟨db.begun + 1, []⟩, begun := db.begun + 1 },
            .ok ())) := by
  unfold beginTransaction
  cases fault with
  | some error => exact Or.inl ⟨error, rfl⟩
  | none =>
    dsimp only
    split
    · exact Or.inl ⟨_, rfl⟩
    rename_i houtside
    refine Or.inr ⟨rfl, ?_, rfl⟩
    exact Option.not_isSome_iff_eq_none.mp houtside

/-- COMMIT fails where no transaction is open, fails with or without a rollback, or commits
    and ends the transaction. -/
theorem commit_cases (db : Handle β) (fault : Option CommitFault) :
    (db.transaction = none ∧ ∃ error, db.commit fault = (db, .error error))
      ∨ (∃ failed, db.transaction ≠ none ∧ fault = some failed ∧ db.commit fault
          = (if failed.rolledBack then { db with transaction := none } else db,
            .error failed.error))
      ∨ (db.transaction ≠ none ∧ fault = none
        ∧ ∃ after, db.commit fault = (after, .ok ()) ∧ after.transaction = none) := by
  unfold commit
  cases hopen : db.transaction with
  | none => exact Or.inl ⟨rfl, _, rfl⟩
  | some current =>
    have hsome : (some current : Option (OpenTransaction β)) ≠ none := Option.some_ne_none _
    cases fault with
    | some failed => exact Or.inr (Or.inl ⟨failed, hsome, rfl, rfl⟩)
    | none => exact Or.inr (Or.inr ⟨hsome, rfl, _, rfl, rfl⟩)

theorem rollback_committed (db : Handle β) (fault : Option DbError) :
    (db.rollback fault).1.committed = db.committed := by
  unfold rollback
  split
  · rfl
  split
  · rfl
  · rfl

theorem rollback_transaction (db : Handle β) (fault : Option DbError) :
    (db.rollback fault).1.transaction = if fault = none then none else db.transaction := by
  unfold rollback
  cases hopen : db.transaction with
  | none =>
    rw [hopen, ite_self]
  | some current =>
    cases fault with
    | none => rfl
    | some error => exact hopen

end Handle

end OpencodeSwarm
