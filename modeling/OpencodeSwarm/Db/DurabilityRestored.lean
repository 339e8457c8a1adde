/-
  OpencodeSwarm.Db.DurabilityRestored

  What a transaction call leaves on its connection.  A full-class body is never
  committed under NORMAL, whatever fails; owner, setting and transaction are as
  before exactly when BEGIN IMMEDIATE succeeds once it is reached, and ROLLBACK
  and the restoring pragma do where they matter.
-/
import OpencodeSwarm.Db.Durability

namespace OpencodeSwarm

open Js

variable {T : Type}

/-! ## The invariant -/

namespace Handle

/-- Full-class bodies are committed under FULL, and while one is open the setting is FULL. -/
structure Durable (db : Handle DurabilityClass) : Prop where
  committed : ∀ entry ∈ db.committed, entry.1 = .full → entry.2 = .full
  writes : ∀ current, db.transaction = some current →
    ∀ cls ∈ current.writes, cls = .full → db.synchronous = .full

/-- A statement that leaves the setting alone. -/
structure Kept (before after : Handle DurabilityClass) : Prop where
  synchronous : after.synchronous = before.synchronous
  durable : after.Durable

variable {db : Handle DurabilityClass}

theorem Kept.refl (h : db.Durable) : Kept db db := ⟨rfl, h⟩

variable {after : Handle DurabilityClass}

/-- Nothing is committed, and the open transaction has no new writes. -/
theorem Kept.of_writes (h : db.Durable) (hsynchronous : after.synchronous = db.synchronous)
    (hcommitted : after.committed = db.committed)
    (hwrites : ∀ current, after.transaction = some current →
      current.writes = [] ∨ ∃ old, db.transaction = some old ∧ current.writes ⊆ old.writes) :
    Kept db after := by
  refine ⟨hsynchronous, ?_, ?_⟩
  · rw [hcommitted]
    exact h.committed
  · intro current hcurrent cls hcls hfull
    rw [hsynchronous]
    rcases hwrites current hcurrent with hnone | ⟨old, hold, hsub⟩
    · rw [hnone] at hcls
      cases hcls
    · exact h.writes old hold cls (hsub hcls) hfull

theorem Kept.of_closed (h : db.Durable) (hsynchronous : after.synchronous = db.synchronous)
    (hcommitted : after.committed = db.committed) (hclosed : after.transaction = none) :
    Kept db after := by
  refine Kept.of_writes h hsynchronous hcommitted ?_
  intro current hcurrent
  rw [hclosed] at hcurrent
  cases hcurrent

theorem kept_write (h : db.Durable) {cls : DurabilityClass}
    (hcls : cls = .full → db.synchronous = .full) : Kept db (db.write cls) := by
  unfold write
  cases hopen : db.transaction with
  | none =>
    refine ⟨rfl, ?_, ?_⟩
    · intro entry hentry hfull
      rcases List.mem_append.mp hentry with hold | hnew
      · exact h.committed entry hold hfull
      · rw [List.mem_singleton] at hnew
        subst hnew
        exact hcls hfull
    · intro current hcurrent
      cases hcurrent
  | some current =>
    refine ⟨rfl, h.committed, ?_⟩
    intro after hafter other hother hfull
    cases hafter
    rcases List.mem_append.mp hother with hold | hnew
    · exact h.writes current hopen other hold hfull
    · rw [List.mem_singleton] at hnew
      exact hcls (hnew.symm.trans hfull)

theorem kept_begin (h : db.Durable) (fault : Option DbError) :
    Kept db (db.beginTransaction fault).1 := by
  unfold beginTransaction
  cases fault with
  | some error => exact Kept.refl h
  | none =>
    dsimp only
    split
    · exact Kept.refl h
    refine Kept.of_writes h rfl rfl ?_
    intro current hcurrent
    cases hcurrent
    exact Or.inl rfl

theorem kept_commit (h : db.Durable) (fault : Option CommitFault) :
    Kept db (db.commit fault).1 := by
  unfold commit
  split
  · exact Kept.refl h
  rename_i current hopen
  split
  · next fault =>
    split
    · exact Kept.of_closed h rfl rfl rfl
    · exact Kept.refl h
  · refine ⟨rfl, ?_, ?_⟩
    · intro entry hentry hfull
      rcases List.mem_append.mp hentry with hold | hnew
      · exact h.committed entry hold hfull
      · obtain ⟨cls, hcls, rfl⟩ := List.mem_map.mp hnew
        exact h.writes current hopen cls hcls hfull
    · intro after hafter
      cases hafter

theorem kept_rollback (h : db.Durable) (fault : Option DbError) :
    Kept db (db.rollback fault).1 := by
  unfold rollback
  split
  · exact Kept.refl h
  split
  · exact Kept.refl h
  · exact Kept.of_closed h rfl rfl rfl

theorem kept_release (h : db.Durable) (number : Nat) (fault : Option CommitFault) :
    Kept db (db.release number fault).1 := by
  unfold release
  split
  · split
    · next fault =>
      split
      · exact Kept.of_closed h rfl rfl rfl
      · exact Kept.refl h
    · exact Kept.refl h
  · exact Kept.refl h

theorem kept_rollbackTo (h : db.Durable) (number kept : Nat) (fault : Option DbError) :
    Kept db (db.rollbackTo number kept fault).1 := by
  unfold rollbackTo
  split
  · exact Kept.refl h
  rename_i current hopen
  split
  · split
    · exact Kept.refl h
    refine Kept.of_writes h rfl rfl ?_
    intro after hafter
    cases hafter
    exact Or.inr ⟨current, hopen, List.take_subset _ _⟩
  · exact Kept.refl h

end Handle

namespace Connection

/-- The handle is durable, and FULL while a full-class call owns the connection. -/
structure Durable (db : Connection) : Prop where
  handle : db.toHandle.Durable
  owner : ∀ owner, db.owner = some owner → owner.durability = .full → db.synchronous = .full

/-- What a callback does to a connection that has an owner. -/
structure Kept (before after : Connection) : Prop where
  owner : after.owner = before.owner
  handle : before.toHandle.Kept after.toHandle

/-- A callback that leaves owner and setting alone. -/
def Obedient (fn : Callback T) : Prop :=
  ∀ db, db.owner ≠ none → db.Durable → Kept db (fn db).1

variable {after : Connection}

theorem Kept.durable {db : Connection} (h : db.Durable) (hkept : Kept db after) :
    after.Durable := by
  refine ⟨hkept.handle.durable, ?_⟩
  rw [hkept.owner, hkept.handle.synchronous]
  exact h.owner

theorem Kept.trans {first second third : Connection} (h : Kept first second)
    (h' : Kept second third) : Kept first third :=
  ⟨h'.owner.trans h.owner, h'.handle.synchronous.trans h.handle.synchronous, h'.handle.durable⟩

theorem Kept.refl {db : Connection} (h : db.Durable) : Kept db db :=
  ⟨rfl, Handle.Kept.refl h.handle⟩

/-- A statement of the handle after something that keeps the connection. -/
theorem Kept.run {ρ : Type} {db : Connection} (h : Kept db after)
    {statement : Handle DurabilityClass → Handle DurabilityClass × ρ}
    (hstatement : after.toHandle.Kept (statement after.toHandle).1) :
    Kept db (after.run statement).1 :=
  h.trans ⟨rfl, hstatement⟩

theorem run_eq {ρ : Type} {db : Connection}
    {statement : Handle DurabilityClass → Handle DurabilityClass × ρ}
    {after : Handle DurabilityClass} {result : ρ} (h : statement db.toHandle = (after, result)) :
    db.run statement = ({ db with toHandle := after }, result) := by
  rw [run, h]

theorem kept_enter {db : Connection} (h : db.Durable) {cls : DurabilityClass}
    (hcls : cls = .full → db.synchronous = .full) : Kept db (db.enter cls) :=
  ⟨rfl, Handle.kept_write h.handle hcls⟩

/-! ## Nested calls -/

variable {fn : Callback T} {cls : DurabilityClass}

theorem kept_savepoint {db : Connection} (h : db.Durable) (howner : db.owner ≠ none)
    {current : OpenTransaction DurabilityClass} (hfn : Obedient fn)
    (hcls : cls = .full → db.synchronous = .full) (faults : TransactionFaults) :
    Kept db (db.savepoint current cls fn faults).1 := by
  unfold savepoint
  split
  · exact Kept.refl h
  have hentered := kept_enter h hcls
  have hran := hentered.trans
    (hfn _ (by rw [hentered.owner]; exact howner) (hentered.durable h))
  have hundo : ∀ after : Connection, Kept db after → Kept db (after.run fun handle =>
      handle.rollbackTo current.number current.writes.length faults.rollback).1 :=
    fun after hafter => hafter.run (Handle.kept_rollbackTo hafter.handle.durable _ _ _)
  split
  · next after error hresult =>
    rw [hresult] at hran
    exact hundo after hran
  · next after result hresult =>
    rw [hresult] at hran
    have hreleased : Kept db (after.run fun handle =>
        handle.release current.number faults.commit).1 :=
      hran.run (Handle.kept_release hran.handle.durable _ _)
    split
    · next released error hrelease =>
      rw [hrelease] at hreleased
      exact hundo released hreleased
    · next released _ hrelease =>
      rw [hrelease] at hreleased
      exact hreleased

theorem kept_deferred {db : Connection} (h : db.Durable) (howner : db.owner ≠ none)
    (hfn : Obedient fn) (hcls : cls = .full → db.synchronous = .full) (faults : TransactionFaults) :
    Kept db (db.deferred cls fn faults).1 := by
  unfold deferred
  have hbegun : Kept db (db.run fun handle => handle.beginTransaction faults.begin).1 :=
    (Kept.refl h).run (Handle.kept_begin h.handle _)
  split
  · next after error hbegin =>
    rw [hbegin] at hbegun
    exact hbegun
  · next after _ hbegin =>
    rw [hbegin] at hbegun
    have hentered := hbegun.trans
      (@kept_enter after (hbegun.durable h) cls (by rw [hbegun.handle.synchronous]; exact hcls))
    have hran := hentered.trans
      (hfn _ (by rw [hentered.owner]; exact howner) (hentered.durable h))
    have hundo : ∀ after : Connection, Kept db after →
        Kept db (after.run fun handle => handle.rollback faults.rollback).1 :=
      fun after hafter => hafter.run (Handle.kept_rollback hafter.handle.durable _)
    split
    · next ran error hresult =>
      rw [hresult] at hran
      exact hundo ran hran
    · next ran result hresult =>
      rw [hresult] at hran
      have hcommitted : Kept db (ran.run fun handle => handle.commit faults.commit).1 :=
        hran.run (Handle.kept_commit hran.handle.durable _)
      split
      · next done error hcommit =>
        rw [hcommit] at hcommitted
        exact hundo done hcommitted
      · next done _ hcommit =>
        rw [hcommit] at hcommitted
        exact hcommitted

/-- A nested call leaves owner and setting alone, whatever fails in it. -/
theorem kept_nested {db : Connection} (h : db.Durable) (howner : db.owner ≠ none)
    (cls : DurabilityClass) (hfn : Obedient fn) (hooks : ImmediateTransactionHooks)
    (faults : TransactionFaults) : Kept db (withImmediateTransaction db cls fn hooks faults).1 := by
  obtain ⟨owner, hsome⟩ := Option.ne_none_iff_exists'.mp howner
  rw [withImmediateTransaction, hsome]
  dsimp only
  split
  · exact Kept.refl h
  rename_i hallowed
  -- the owner is one level deeper while the body runs
  obtain ⟨deeper, hdeeper⟩ : ∃ deeper : Connection,
      { db with owner := some { owner with depth := owner.depth + 1 } } = deeper := ⟨_, rfl⟩
  have hhandle : deeper.toHandle = db.toHandle := by rw [← hdeeper]
  have howned : deeper.owner = some { owner with depth := owner.depth + 1 } := by rw [← hdeeper]
  have hfull : cls = .full → deeper.synchronous = .full := by
    intro hcls
    rw [hhandle]
    apply h.owner owner hsome
    by_contra hnormal
    exact hallowed ⟨hcls, hnormal⟩
  have hdurable : deeper.Durable := by
    refine ⟨hhandle ▸ h.handle, ?_⟩
    intro other hother
    rw [howned] at hother
    cases hother
    rw [hhandle]
    exact h.owner owner hsome
  have hran : Kept deeper (deeper.transact cls fn faults).1 := by
    have hsome : deeper.owner ≠ none := by
      rw [howned]
      exact Option.some_ne_none _
    unfold transact
    split
    · exact kept_savepoint hdurable hsome hfn hfull faults
    · exact kept_deferred hdurable hsome hfn hfull faults
  rw [hdeeper]
  refine ⟨?_, hhandle ▸ hran.handle⟩
  show Option.map _ _ = _
  rw [hran.owner, howned, hsome]
  rfl

theorem obedient_run (body : TransactionBody) : Obedient body.run := by
  induction body with
  | returns | throws error => exact fun db _ h => Kept.refl h
  | rolledBack rest ih =>
    intro db howner h
    have hgone : Kept db { db with transaction := none } :=
      ⟨rfl, Handle.Kept.of_closed h.handle rfl rfl rfl⟩
    exact hgone.trans (ih _ howner (hgone.durable h))
  | nested cls hooks faults fn caught rest ihfn ihrest =>
    intro db howner h
    have hnested := kept_nested h howner cls ihfn hooks faults
    unfold TransactionBody.run
    split
    · next after error hresult =>
      rw [hresult] at hnested
      split
      · exact hnested.trans
          (ihrest _ (by rw [hnested.owner]; exact howner) (hnested.durable h))
      · exact hnested
    · next after _ hresult =>
      rw [hresult] at hnested
      exact hnested.trans
        (ihrest _ (by rw [hnested.owner]; exact howner) (hnested.durable h))

/-! ## Outermost calls -/

/-- A connection between two outermost calls. -/
structure Ready (db : Connection) : Prop where
  owner : db.owner = none
  synchronous : db.synchronous = .normal
  transaction : db.transaction = none

/-- The connection behind BEGIN IMMEDIATE of an outermost call. -/
def started (db : Connection) (cls : DurabilityClass) : Connection where
  synchronous := cls
  transaction := some ⟨db.begun + 1, []⟩
  begun := db.begun + 1
  committed := db.committed
  owner := some ⟨cls, 1⟩

/-- The body has left a transaction open, and it, the commit hook or COMMIT fails without
    ending the transaction. -/
def NeedsRollback (ran : Connection × Except DbError T) (hooks : ImmediateTransactionHooks)
    (faults : TransactionFaults) : Prop :=
  ran.1.transaction ≠ none
    ∧ ((∃ error, ran.2 = .error error) ∨ hooks.beforeOuterCommit ≠ none
      ∨ ∃ fault, faults.commit = some fault ∧ fault.rolledBack = false)

theorem durable_started {db : Connection} (h : db.Durable) (cls : DurabilityClass) :
    (db.started cls).Durable := by
  refine ⟨⟨h.handle.committed, ?_⟩, ?_⟩
  · intro current hcurrent other hother
    cases hcurrent
    cases hother
  · intro owner howner
    cases howner
    exact id

/-- On a connection without owner and transaction, BEGIN IMMEDIATE is run under the class of
    the call. -/
theorem withImmediateTransaction_of_free {db : Connection} (howner : db.owner = none)
    (htransaction : db.transaction = none) (cls : DurabilityClass) (fn : Callback T)
    (hooks : ImmediateTransactionHooks) (faults : TransactionFaults) :
    withImmediateTransaction db cls fn hooks faults
      = match hooks.beforeBegin, faults.pragma, faults.begin with
        | some error, _, _ => (db, .error error)
        | none, some error, _ => (db, .error error)
        | none, none, some error =>
          ({ db with synchronous := cls, owner := some ⟨cls, 1⟩ }, .error error)
        | none, none, none =>
          let attempted := (db.started cls).attempt cls fn hooks faults
          (recover attempted faults).restore attempted.2.2 faults := by
  have hclosed : db.inTransaction = false := by
    rw [Handle.inTransaction, htransaction]
    rfl
  rw [withImmediateTransaction, howner]
  dsimp only
  rw [if_neg (by rw [hclosed]; exact Bool.false_ne_true)]
  cases hooks.beforeBegin with
  | some error => rfl
  | none =>
    cases hpragma : faults.pragma with
    | some error =>
      unfold run Handle.applySynchronousForClass
      rfl
    | none =>
      have hset : (db.run fun handle => handle.applySynchronousForClass cls none)
          = ({ db with synchronous := cls }, .ok ()) := by
        dsimp only [run, Handle.applySynchronousForClass]
        rw [if_neg (by rw [hclosed]; exact Bool.false_ne_true)]
      rw [hset]
      dsimp only
      cases faults.begin with
      | some error => rfl
      | none =>
        have hbegin : (({ db with synchronous := cls, owner := some ⟨cls, 1⟩ } : Connection).run
            fun handle => handle.beginTransaction none) = (db.started cls, .ok ()) := by
          dsimp only [run, Handle.beginTransaction]
          have hclosed' : Handle.inTransaction { db.toHandle with synchronous := cls } = false :=
            hclosed
          rw [if_neg (by rw [hclosed']; exact Bool.false_ne_true)]
          rfl
        rw [hbegin]

theorem rolledBack_iff (db : Connection) (faults : TransactionFaults) :
    (db.run fun handle => handle.rollback faults.rollback).1.transaction = none
      ↔ (db.transaction ≠ none → faults.rollback = none) := by
  have htransaction := Handle.rollback_transaction db.toHandle faults.rollback
  show (db.toHandle.rollback faults.rollback).1.transaction = none ↔ _
  rw [htransaction]
  split
  · next hrollback => exact iff_of_true rfl fun _ => hrollback
  · next hrollback =>
    constructor
    · intro hnone hsome
      exact absurd hnone hsome
    · intro hneeds
      by_contra hsome
      exact hrollback (hneeds hsome)

/-- What the `try` and `catch` blocks leave: owner and setting as they were, and no
    transaction unless a needed ROLLBACK fails. -/
theorem recover_spec {db : Connection} (h : db.Durable) (howner : db.owner ≠ none)
    (hcls : cls = .full → db.synchronous = .full) (hfn : Obedient fn)
    (hooks : ImmediateTransactionHooks) (faults : TransactionFaults) :
    Kept db (recover (db.attempt cls fn hooks faults) faults)
      ∧ ((recover (db.attempt cls fn hooks faults) faults).transaction = none
        ↔ (NeedsRollback (fn (db.enter cls)) hooks faults → faults.rollback = none)) := by
  have hentered := kept_enter h hcls
  have hran := hentered.trans (hfn _ (by rw [hentered.owner]; exact howner) (hentered.durable h))
  have hrolled : ∀ after : Connection, Kept db after →
      Kept db (after.run fun handle => handle.rollback faults.rollback).1 :=
    fun after hafter => hafter.run (Handle.kept_rollback hafter.handle.durable _)
  unfold attempt
  generalize fn (db.enter cls) = answer at hran ⊢
  obtain ⟨ran, result⟩ := answer
  cases result with
  | error error =>
    refine ⟨hrolled ran hran, (rolledBack_iff ran faults).trans ?_⟩
    refine imp_congr_left ⟨fun hopen => ⟨hopen, Or.inl ⟨error, rfl⟩⟩, fun hneeds => hneeds.1⟩
  | ok result =>
    cases hhook : hooks.beforeOuterCommit with
    | some error =>
      refine ⟨hrolled ran hran, (rolledBack_iff ran faults).trans ?_⟩
      refine imp_congr_left ⟨fun hopen => ⟨hopen, Or.inr (Or.inl ?_)⟩, fun hneeds => hneeds.1⟩
      rw [hhook]
      exact Option.some_ne_none _
    | none =>
      dsimp only
      have hcommitted : Kept db (ran.run fun handle => handle.commit faults.commit).1 :=
        hran.run (Handle.kept_commit hran.handle.durable _)
      -- only a COMMIT that fails and rolls nothing back needs a ROLLBACK now
      have hneeds : NeedsRollback (ran, (Except.ok result : Except DbError T)) hooks faults
          ↔ ran.transaction ≠ none ∧ ∃ fault, faults.commit = some fault
            ∧ fault.rolledBack = false := by
        constructor
        · rintro ⟨hopen, ⟨error, herror⟩ | hcontra | hfault⟩
          · cases herror
          · exact absurd hhook hcontra
          · exact ⟨hopen, hfault⟩
        · rintro ⟨hopen, hfault⟩
          exact ⟨hopen, Or.inr (Or.inr hfault)⟩
      rw [hneeds]
      rcases Handle.commit_cases ran.toHandle faults.commit with
        ⟨hclosed, error, hcommit⟩ | ⟨failed, hopen, hfault, hcommit⟩
          | ⟨hopen, hfault, after, hcommit, hclosed⟩
      · -- the transaction is gone, and so is ROLLBACK's
        have hrun : (ran.run fun handle => handle.commit faults.commit) = (ran, .error error) :=
          run_eq hcommit
        rw [hrun]
        refine ⟨hrolled ran hran, (rolledBack_iff ran faults).trans ?_⟩
        exact imp_congr_left ⟨fun hopen => absurd hclosed hopen, fun hneeds => hneeds.1⟩
      · have hrun : (ran.run fun handle => handle.commit faults.commit)
            = ({ ran with
                  toHandle := if failed.rolledBack then { ran.toHandle with transaction := none }
                    else ran.toHandle }, .error failed.error) :=
          run_eq hcommit
        rw [hrun] at hcommitted ⊢
        refine ⟨hrolled _ hcommitted, (rolledBack_iff _ faults).trans (imp_congr_left ?_)⟩
        show (if failed.rolledBack then { ran.toHandle with transaction := none }
          else ran.toHandle).transaction ≠ none ↔ _
        rw [hfault]
        cases hrolledBack : failed.rolledBack with
        | true =>
          constructor
          · intro hcontra
            exact absurd rfl hcontra
          · rintro ⟨-, fault, hsame, hnot⟩
            cases hsame
            rw [hrolledBack] at hnot
            cases hnot
        | false => exact ⟨fun _ => ⟨hopen, failed, rfl, hrolledBack⟩, fun _ => hopen⟩
      · have hrun : (ran.run fun handle => handle.commit faults.commit)
            = ({ ran with toHandle := after }, .ok ()) :=
          run_eq hcommit
        have hnone : ¬ (ran.transaction ≠ none ∧ ∃ fault, faults.commit = some fault
            ∧ fault.rolledBack = false) := by
          rintro ⟨-, fault, hsome, -⟩
          rw [hfault] at hsome
          cases hsome
        rw [hrun] at hcommitted ⊢
        cases hooks.afterOuterCommit with
        | some error =>
          exact ⟨hcommitted, iff_of_true hclosed fun hcontra => absurd hcontra hnone⟩
        | none => exact ⟨hcommitted, iff_of_true hclosed fun hcontra => absurd hcontra hnone⟩

/-- The `finally` block: the owner is gone, and the setting is NORMAL unless the pragma
    fails. -/
theorem restore_spec {db : Connection} (h : db.toHandle.Durable) (result : Except DbError T)
    (faults : TransactionFaults) :
    (db.restore result faults).1.Durable ∧ ((db.restore result faults).1.Ready
        ↔ db.transaction = none ∧ (db.synchronous = .full → faults.restore = none)) := by
  unfold restore run Handle.applySynchronousForClass
  cases hfault : faults.restore with
  | some error =>
    refine ⟨⟨h, fun owner howner => by cases howner⟩, ?_⟩
    constructor
    · intro hready
      have hnormal : db.synchronous = .normal := hready.synchronous
      refine ⟨hready.transaction, fun hfull => ?_⟩
      rw [hnormal] at hfull
      cases hfull
    · rintro ⟨hclosed, hnormal⟩
      refine ⟨rfl, ?_, hclosed⟩
      cases hsynchronous : db.synchronous with
      | full => cases hnormal hsynchronous
      | normal => rfl
  | none =>
    cases hopen : db.transaction with
    | some current =>
      have hinside : db.inTransaction = true := by
        rw [Handle.inTransaction, hopen]
        rfl
      dsimp only
      rw [if_pos hinside]
      refine ⟨⟨h, fun owner howner => by cases howner⟩, ?_⟩
      constructor
      · intro hready
        have hclosed : db.transaction = none := hready.transaction
        rw [hopen] at hclosed
        cases hclosed
      · rintro ⟨hcontra, -⟩
        cases hcontra
    | none =>
      have hinside : db.inTransaction = false := by
        rw [Handle.inTransaction, hopen]
        rfl
      dsimp only
      rw [if_neg (by rw [hinside]; exact Bool.false_ne_true)]
      refine ⟨⟨⟨h.committed, ?_⟩, fun owner howner => by cases howner⟩, ?_⟩
      · intro current hcurrent
        rw [hopen] at hcurrent
        cases hcurrent
      · exact iff_of_true ⟨rfl, rfl, hopen⟩ ⟨rfl, fun _ => rfl⟩

end Connection

/-! ## Every run -/

open Connection

/-- A connection as `getProjectDb` opens it. -/
def Connection.opened : Connection := { Handle.opened with owner := none }

/-- A call restores the connection: it ends before BEGIN IMMEDIATE is reached, or BEGIN
    IMMEDIATE succeeds, ROLLBACK succeeds where it is needed, and the restoring pragma does
    where the setting was raised. -/
def TransactionCall.Restores (db : Connection) (call : TransactionCall) : Prop :=
  call.hooks.beforeBegin ≠ none ∨ call.faults.pragma ≠ none
    ∨ call.faults.begin = none
      ∧ (NeedsRollback (call.body.run ((db.started call.cls).enter call.cls)) call.hooks
          call.faults → call.faults.rollback = none)
      ∧ (call.cls = .full → call.faults.restore = none)

/-- What a call leaves of a connection without owner and transaction. -/
theorem transactionStep_of_free {db : Connection} (h : db.Durable) (howner : db.owner = none)
    (htransaction : db.transaction = none) (call : TransactionCall) :
    (transactionStep db call).Durable
      ∧ (db.synchronous = .normal → ((transactionStep db call).Ready ↔ call.Restores db)) := by
  have hready : db.synchronous = .normal → db.Ready := fun hnormal =>
    ⟨howner, hnormal, htransaction⟩
  unfold transactionStep TransactionCall.Restores
  rw [withImmediateTransaction_of_free howner htransaction]
  cases call.hooks.beforeBegin with
  | some error =>
    exact ⟨h, fun hnormal => iff_of_true (hready hnormal) (Or.inl (Option.some_ne_none _))⟩
  | none =>
    cases call.faults.pragma with
    | some error =>
      exact ⟨h, fun hnormal =>
        iff_of_true (hready hnormal) (Or.inr (Or.inl (Option.some_ne_none _)))⟩
    | none =>
      cases call.faults.begin with
      | some error =>
        -- the owner stays recorded when BEGIN IMMEDIATE fails
        refine ⟨⟨⟨h.handle.committed, ?_⟩, ?_⟩, ?_⟩
        · intro current hcurrent
          rw [htransaction] at hcurrent
          cases hcurrent
        · intro owner hsome
          cases hsome
          exact id
        · intro _
          constructor
          · intro hcontra
            have hnone : (some _ : Option TransactionOwner) = none := hcontra.owner
            cases hnone
          · rintro (hcontra | hcontra | ⟨hcontra, -⟩)
            · exact absurd rfl hcontra
            · exact absurd rfl hcontra
            · cases hcontra
      | none =>
        have hstarted := durable_started h call.cls
        obtain ⟨hkept, hclosed⟩ := recover_spec hstarted (Option.some_ne_none _)
          id (obedient_run call.body) call.hooks call.faults
        obtain ⟨hdurable, hiff⟩ := restore_spec hkept.handle.durable
          ((db.started call.cls).attempt call.cls call.body.run call.hooks call.faults).2.2
          call.faults
        refine ⟨hdurable, fun _ => hiff.trans ?_⟩
        rw [hclosed, hkept.handle.synchronous]
        constructor
        · rintro ⟨hrollback, hrestore⟩
          exact Or.inr (Or.inr ⟨rfl, hrollback, hrestore⟩)
        · rintro (hcontra | hcontra | ⟨-, hrollback, hrestore⟩)
          · exact absurd rfl hcontra
          · exact absurd rfl hcontra
          · exact ⟨hrollback, hrestore⟩

theorem durable_transactionStep {db : Connection} (h : db.Durable) (call : TransactionCall) :
    (transactionStep db call).Durable := by
  cases howner : db.owner with
  | some owner =>
    have hsome : db.owner ≠ none := by
      rw [howner]
      exact Option.some_ne_none _
    exact (kept_nested h hsome call.cls (obedient_run call.body) call.hooks call.faults).durable h
  | none =>
    cases hopen : db.transaction with
    | none => exact (transactionStep_of_free h howner hopen call).1
    | some current =>
      -- a transaction that the module does not know: the call is refused
      have hinside : db.inTransaction = true := by
        rw [Handle.inTransaction, hopen]
        rfl
      unfold transactionStep withImmediateTransaction
      rw [howner]
      rw [if_pos hinside]
      exact h

theorem durable_opened : Connection.opened.Durable := by
  refine ⟨⟨?_, ?_⟩, ?_⟩
  · intro entry hentry
    cases hentry
  · intro current hcurrent
    cases hcurrent
  · intro owner howner
    cases howner

/-- In every run the connection is ready after every call exactly when every call restores
    it, and durable in any case. -/
theorem ready_run_iff (calls : List TransactionCall) :
    (Crash.AtEveryCut transactionStep (fun db => db.Ready ∧ db.Durable) Connection.opened calls
        ↔ Transition.Along transactionStep (fun db call => call.Restores db) Connection.opened
          calls) ∧ Crash.AtEveryCut transactionStep Connection.Durable Connection.opened calls := by
  constructor
  · have hstep : ∀ (db : Connection) (call : TransactionCall), db.Ready ∧ db.Durable →
        ((transactionStep db call).Ready ∧ (transactionStep db call).Durable ↔ call.Restores db) := by
      rintro db call ⟨hready, hdurable⟩
      obtain ⟨hafter, hiff⟩ :=
        transactionStep_of_free hdurable hready.owner hready.transaction call
      rw [← hiff hready.synchronous]
      exact and_iff_left hafter
    rw [Crash.atEveryCut_iff_along hstep]
    exact and_iff_right ⟨⟨rfl, rfl, rfl⟩, durable_opened⟩
  · intro k
    have hrun := Transition.Run.foldl transactionStep Connection.opened (calls.take k)
    have hnext : ∀ (db : Connection) (call : TransactionCall) (after : Connection),
        transactionStep db call = after → db.Durable → after.Durable := by
      rintro db call _ rfl h
      exact durable_transactionStep h call
    exact hrun.preserves hnext durable_opened

/-- BEGIN IMMEDIATE of a full-class call finds the database locked. -/
theorem not_ready_beginBusy :
    ¬ ∀ calls : List TransactionCall, Crash.AtEveryCut transactionStep
      (fun db => db.Ready ∧ db.Durable) Connection.opened calls := by
  intro hall
  have hlast := (hall [⟨.full, .returns, {},
    { begin := some ⟨none, js "SQLITE_BUSY: database is locked"⟩ }⟩]).complete
  have hcontra : (some _ : Option TransactionOwner) = none := hlast.1.owner
  cases hcontra

end OpencodeSwarm
