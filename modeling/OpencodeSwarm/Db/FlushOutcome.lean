/-
  OpencodeSwarm.Db.FlushOutcome

  What one attempt at a batch and one flush can do: the batch is applied and the
  queue is empty, or nothing is applied and the batch is put back or reported.
  The exception is a pragma that fails behind the COMMIT.
-/
import OpencodeSwarm.Db.GroupCommit

namespace OpencodeSwarm

open Js

/-- The ops whose writes are committed. -/
def Handle.applied (db : Handle GroupCommitOp) : List Nat :=
  db.committed.map fun entry => entry.1.number

/-- The numbers of some ops. -/
def opNumbers (ops : List GroupCommitOp) : List Nat := ops.map GroupCommitOp.number

/-- An attempt commits the batch and fails behind it, in the pragma that restores NORMAL. -/
structure AttemptFaults.FailsAfterCommit (faults : AttemptFaults) (db : Handle GroupCommitOp)
    (batch : List GroupCommitOp) (error : DbError) : Prop where
  pragma : faults.pragma = none
  outside : db.transaction = none
  begin : faults.begin = none
  ops : ∀ index failure, faults.op = some (index, failure) → batch.length ≤ index
  commit : faults.commit = none
  restore : faults.restore = some error

/-! ## One attempt -/

namespace Handle

variable {db : Handle GroupCommitOp}

theorem runOps_spec (fault : Option (Nat × DbError)) (i : Nat) (batch : List GroupCommitOp)
    (current : OpenTransaction GroupCommitOp) (hopen : db.transaction = some current) :
    (runOps fault db i batch).1.committed = db.committed
      ∧ ((∃ error, (runOps fault db i batch).2 = .error error)
        ∨ (runOps fault db i batch).2 = .ok () ∧ (runOps fault db i batch).1.transaction
            = some { current with writes := current.writes ++ batch }
          ∧ (runOps fault db i batch).1.synchronous = db.synchronous
          ∧ ∀ index failure, fault = some (index, failure) → i ≤ index →
            i + batch.length ≤ index) := by
  induction batch generalizing db i current with
  | nil =>
    refine ⟨rfl, Or.inr ⟨rfl, ?_, rfl, fun index failure _ hle => hle⟩⟩
    show db.transaction = _
    rw [hopen, List.append_nil]
  | cons op rest ih =>
    have hwrite : (db.write op).transaction
        = some { current with writes := current.writes ++ [op] } := by
      rw [write, hopen]
    have hcommitted : (db.write op).committed = db.committed := by
      rw [write, hopen]
    have hsynchronous : (db.write op).synchronous = db.synchronous := by
      rw [write, hopen]
    obtain ⟨hkept, hrest⟩ := ih (i + 1) _ hwrite
    have hgoes : ∀ next, (∀ index failure, fault = some (index, failure) → index ≠ i) →
        next = runOps fault (db.write op) (i + 1) rest →
        next.1.committed = db.committed
          ∧ ((∃ error, next.2 = .error error)
            ∨ next.2 = .ok ()
              ∧ next.1.transaction = some { current with writes := current.writes ++ op :: rest }
              ∧ next.1.synchronous = db.synchronous
              ∧ ∀ index failure, fault = some (index, failure) → i ≤ index →
                i + (op :: rest).length ≤ index) := by
      rintro next hother rfl
      refine ⟨hkept.trans hcommitted, hrest.imp_right ?_⟩
      rintro ⟨hok, hwrites, hsame, hlater⟩
      refine ⟨hok, ?_, hsame.trans hsynchronous, ?_⟩
      · rw [hwrites, List.append_assoc, List.singleton_append]
      · intro index failure hfault hle
        have hne := hother index failure hfault
        have hnext := hlater index failure hfault (by omega)
        rw [List.length_cons]
        omega
    unfold runOps
    cases fault with
    | none => exact hgoes _ (fun index failure hfault => by cases hfault) rfl
    | some failing =>
      dsimp only
      split
      · exact ⟨rfl, Or.inl ⟨_, rfl⟩⟩
      rename_i hne
      refine hgoes _ ?_ rfl
      intro index failure hfault
      cases hfault
      exact hne

theorem commitOps_spec {number : Nat} (hopen : db.transaction = some ⟨number, []⟩)
    (batch : List GroupCommitOp) (faults : AttemptFaults) :
    ((commitOps db batch faults).2 = .ok ()
        ∧ (commitOps db batch faults).1.applied = db.applied ++ opNumbers batch
        ∧ (commitOps db batch faults).1.transaction = none
        ∧ (∀ index failure, faults.op = some (index, failure) → batch.length ≤ index)
        ∧ faults.commit = none) ∨ (∃ error, (commitOps db batch faults).2 = .error error)
        ∧ (commitOps db batch faults).1.applied = db.applied := by
  obtain ⟨hkept, hran⟩ := runOps_spec faults.op 0 batch _ hopen
  unfold commitOps
  generalize runOps faults.op db 0 batch = ran at hkept hran ⊢
  obtain ⟨after, result⟩ := ran
  have hrolled : (after.rollback faults.rollback).1.applied = db.applied := by
    unfold applied
    rw [rollback_committed, hkept]
  cases result with
  | error error => exact Or.inr ⟨⟨error, rfl⟩, hrolled⟩
  | ok _ =>
    obtain ⟨error, hcontra⟩ | ⟨-, hwrites, -, hlater⟩ := hran
    · cases hcontra
    dsimp only at hwrites hlater ⊢
    rcases commit_cases after faults.commit with
      ⟨hclosed, -⟩ | ⟨failed, -, hfault, hcommit⟩ | ⟨-, hfault, done, hcommit, hclosed⟩
    · rw [hclosed] at hwrites
      cases hwrites
    · rw [hcommit]
      refine Or.inr ⟨⟨failed.error, rfl⟩, ?_⟩
      have hsame : (if failed.rolledBack then { after with transaction := none }
          else after).committed = after.committed := by
        split
        · rfl
        · rfl
      unfold applied
      rw [rollback_committed, hsame, hkept]
    · have hdone : done.applied = db.applied ++ opNumbers batch := by
        rw [commit, hwrites, hfault] at hcommit
        cases hcommit
        unfold applied opNumbers
        rw [hkept, List.map_append, List.map_map, List.nil_append]
        rfl
      rw [hcommit]
      refine Or.inl ⟨rfl, hdone, hclosed, ?_, hfault⟩
      intro index failure hop
      have hle := hlater index failure hop (Nat.zero_le _)
      omega

/-- The restoring pragma answers what the block answered, unless it fails itself. -/
theorem restoreNormal_cases (db : Handle GroupCommitOp) (result : Except DbError Unit)
    (faults : AttemptFaults) :
    (restoreNormal db result faults).1.applied = db.applied
      ∧ ((∃ error, (restoreNormal db result faults).2 = .error error
          ∧ (faults.restore = some error ∨ db.transaction ≠ none))
        ∨ (restoreNormal db result faults).2 = result) := by
  unfold restoreNormal
  rcases db.applySynchronousForClass_cases .normal faults.restore with
    ⟨error, hpragma, hwhy⟩ | ⟨-, -, hpragma⟩
  · rw [hpragma]
    exact ⟨rfl, Or.inl ⟨error, rfl, hwhy⟩⟩
  · rw [hpragma]
    exact ⟨rfl, Or.inr rfl⟩

end Handle

/-- An attempt applies the whole batch, or nothing and fails, or the whole batch and fails
    behind the COMMIT. -/
theorem applyBatch_cases (db : Handle GroupCommitOp) (batch : List GroupCommitOp)
    (faults : AttemptFaults) :
    ((applyBatch db batch faults).2 = .ok ()
        ∧ (applyBatch db batch faults).1.applied = db.applied ++ opNumbers batch)
      ∨ (∃ error, (applyBatch db batch faults).2 = .error error
        ∧ (applyBatch db batch faults).1.applied = db.applied)
      ∨ (∃ error, (applyBatch db batch faults).2 = .error error
        ∧ (applyBatch db batch faults).1.applied = db.applied ++ opNumbers batch
        ∧ faults.FailsAfterCommit db batch error) := by
  dsimp only [applyBatch]
  rcases db.applySynchronousForClass_cases
      (batchDurabilityClass (batch.map GroupCommitOp.durability)) faults.pragma with
    ⟨error, hpragma, -⟩ | ⟨hnopragma, houtside, hpragma⟩
  · rw [hpragma]
    exact Or.inr (Or.inl ⟨error, rfl, rfl⟩)
  rw [hpragma]
  dsimp only
  generalize hset : ({ db with
      synchronous := batchDurabilityClass (batch.map GroupCommitOp.durability) } :
    Handle GroupCommitOp) = raised
  have hraised : raised.applied = db.applied := by
    rw [← hset]
    rfl
  rcases raised.beginTransaction_cases faults.begin with
    ⟨error, hbegin⟩ | ⟨hnobegin, -, hbegin⟩
  · rw [hbegin]
    obtain ⟨happlied, hresult⟩ := Handle.restoreNormal_cases raised (.error error) faults
    rcases hresult with ⟨other, hother, -⟩ | hsame
    · exact Or.inr (Or.inl ⟨other, hother, happlied.trans hraised⟩)
    · exact Or.inr (Or.inl ⟨error, hsame, happlied.trans hraised⟩)
  rw [hbegin]
  generalize hbegun : ({ raised with
      transaction := some ⟨raised.begun + 1, []⟩, begun := raised.begun + 1 } :
    Handle GroupCommitOp) = begun
  have hopen : begun.transaction = some ⟨raised.begun + 1, []⟩ := by
    rw [← hbegun]
  have happlied : begun.applied = db.applied := by
    rw [← hbegun]
    exact hraised
  have hrestored := Handle.restoreNormal_cases (commitOps begun batch faults).1
    (commitOps begun batch faults).2 faults
  rcases Handle.commitOps_spec hopen batch faults with
    ⟨hok, hdone, hclosed, hops, hcommit⟩ | ⟨⟨error, herror⟩, hsame⟩
  · rw [happlied] at hdone
    rcases hrestored with ⟨hkept, ⟨error, herror, hrestore | hcontra⟩ | hresult⟩
    · refine Or.inr (Or.inr ⟨error, herror, hkept.trans hdone, ?_⟩)
      exact ⟨hnopragma, houtside, hnobegin, hops, hcommit, hrestore⟩
    · exact absurd hclosed hcontra
    · exact Or.inl ⟨hresult.trans hok, hkept.trans hdone⟩
  · rw [happlied] at hsame
    rcases hrestored with ⟨hkept, ⟨other, hother, -⟩ | hresult⟩
    · exact Or.inr (Or.inl ⟨other, hother, hkept.trans hsame⟩)
    · exact Or.inr (Or.inl ⟨error, hresult.trans herror, hkept.trans hsame⟩)

/-! ## One flush -/

variable {host : CaseMapping}

/-- No attempt of a flush fails behind its COMMIT in a way that keeps or re-applies the
    batch: not with a retained class, and not on a closed handle that is rebound. -/
structure FlushFaults.Settles (host : CaseMapping) (faults : FlushFaults)
    (writer : GroupCommitWriter) : Prop where
  first : ∀ error, faults.first.FailsAfterCommit writer.db writer.queue error →
    (classifyDbWriteError host error).retained = false
      ∧ (isClosedHandleError host error = true → writer.registryKey = none)
  second : ∀ fresh error,
    faults.rebind.handle (applyBatch writer.db writer.queue faults.first).1 = .ok fresh →
    faults.second.FailsAfterCommit fresh writer.queue error →
    (classifyDbWriteError host error).retained = false

/-- What a flush that settles does to an open writer. -/
inductive FlushOutcome (writer after : GroupCommitWriter) (result : Except DbWriteError Unit) :
    Prop where
  | applied (hresult : result = .ok ()) (hqueue : after.queue = [])
      (hdone : after.db.applied = writer.db.applied ++ opNumbers writer.queue)
  | reported (error : DbWriteError) (hresult : result = .error error)
      (hcategory : error.category.retained = false) (hqueue : after.queue = [])
      (hdone : after.db.applied = writer.db.applied
        ∨ after.db.applied = writer.db.applied ++ opNumbers writer.queue)
  | retained (error : DbWriteError) (hresult : result = .error error)
      (hcategory : error.category.retained = true) (hqueue : after.queue = writer.queue)
      (hdone : after.db.applied = writer.db.applied)

theorem applied_rebind {rebind : Rebind} {db fresh : Handle GroupCommitOp}
    (h : rebind.handle db = .ok fresh) : fresh.applied = db.applied := by
  cases rebind with
  | throws error => cases h
  | cached | reopened =>
    cases h
    rfl

variable {writer : GroupCommitWriter} {faults : FlushFaults}

/-- The batch is applied, or an error stands: then nothing is applied, or the batch is and
    the error is not one that keeps it. -/
theorem applyRebinding_cases (h : faults.Settles host writer) :
    let attempted := applyRebinding host { writer with queue := [] } writer.queue faults
    attempted.1.queue = []
      ∧ (attempted.2 = .ok () ∧ attempted.1.db.applied = writer.db.applied ++ opNumbers writer.queue
        ∨ ∃ error, attempted.2 = .error error
          ∧ (attempted.1.db.applied = writer.db.applied
            ∨ attempted.1.db.applied = writer.db.applied ++ opNumbers writer.queue
              ∧ (classifyDbWriteError host error).retained = false)) := by
  intro attempted
  have hattempted : attempted = applyRebinding host
    { writer with queue := [] } writer.queue faults :=
    rfl
  dsimp only [applyRebinding] at hattempted
  have hsecond := h.second
  have hfirst := applyBatch_cases writer.db writer.queue faults.first
  generalize applyBatch writer.db writer.queue faults.first = tried at hattempted hsecond hfirst
  obtain ⟨db, result⟩ := tried
  cases result with
  | ok _ =>
    rw [hattempted]
    rcases hfirst with ⟨-, hdone⟩ | ⟨error, hcontra, -⟩ | ⟨error, hcontra, -⟩
    · exact ⟨rfl, Or.inl ⟨rfl, hdone⟩⟩
    · cases hcontra
    · cases hcontra
  | error error =>
    dsimp only at hattempted hsecond hfirst
    split at hattempted
    · rw [hattempted]
      refine ⟨rfl, Or.inr ⟨error, rfl, ?_⟩⟩
      rcases hfirst with ⟨hcontra, -⟩ | ⟨_, hsame, hdone⟩ | ⟨_, hsame, hdone, hfails⟩
      · cases hcontra
      · exact Or.inl hdone
      · cases hsame
        exact Or.inr ⟨hdone, (h.first error hfails).1⟩
    · next hrebinds =>
      -- a closed handle is rebound only when the first attempt has committed nothing
      have hnothing : db.applied = writer.db.applied := by
        rcases hfirst with ⟨hcontra, -⟩ | ⟨_, -, hdone⟩ | ⟨_, hsame, -, hfails⟩
        · cases hcontra
        · exact hdone
        · cases hsame
          rw [Bool.or_eq_true, not_or, Bool.not_eq_true', Bool.not_eq_false] at hrebinds
          have hkey := (h.first error hfails).2 hrebinds.1
          rw [hkey] at hrebinds
          exact absurd rfl hrebinds.2
      split at hattempted
      · next other hother =>
        rw [hattempted]
        exact ⟨rfl, Or.inr ⟨other, rfl, Or.inl hnothing⟩⟩
      · next fresh hfresh =>
        have hagain := (applied_rebind hfresh).trans hnothing
        have hlast := applyBatch_cases fresh writer.queue faults.second
        rw [hattempted]
        refine ⟨rfl, ?_⟩
        rcases hlast with ⟨hok, hdone⟩ | ⟨other, hother, hdone⟩ | ⟨other, hother, hdone, hfails⟩
        · rw [hagain] at hdone
          exact Or.inl ⟨hok, hdone⟩
        · exact Or.inr ⟨other, hother, Or.inl (hdone.trans hagain)⟩
        · rw [hagain] at hdone
          exact Or.inr ⟨other, hother, Or.inr ⟨hdone, hsecond fresh other hfresh hfails⟩⟩

theorem flushFailed_spec (host : CaseMapping) (writer : GroupCommitWriter)
    (batch : List GroupCommitOp) (error : DbError) (hqueue : writer.queue = []) :
    (flushFailed host writer batch error).2
        = .error (flushError (classifyDbWriteError host error) error)
      ∧ (flushFailed host writer batch error).1.db = writer.db
      ∧ (flushFailed host writer batch error).1.queue
        = if (classifyDbWriteError host error).retained then batch else [] := by
  have hclosed : (if isClosedHandleError host error then
      { writer with closed := true, queue := [] } else writer).queue = [] := by
    split
    · rfl
    · exact hqueue
  have hdb : (if isClosedHandleError host error then
      { writer with closed := true, queue := [] } else writer).db = writer.db := by
    split
    · rfl
    · rfl
  dsimp only [flushFailed]
  refine ⟨rfl, ?_, ?_⟩
  · split
    · exact hdb
    · exact hdb
  · split
    · show batch ++ _ = batch
      rw [hclosed, List.append_nil]
    · exact hclosed

theorem flushSync_outcome (hopen : writer.closed = false) (h : faults.Settles host writer) :
    FlushOutcome writer (flushSync host writer faults).1 (flushSync host writer faults).2 := by
  unfold flushSync
  split
  · next hidle =>
    -- an open writer without work
    have hqueue : writer.queue = [] := by
      rcases hidle with hclosed | hqueue
      · rw [hopen] at hclosed
        cases hclosed
      · exact hqueue
    refine FlushOutcome.applied rfl hqueue ?_
    rw [hqueue]
    exact (List.append_nil _).symm
  · obtain ⟨hempty, hcases⟩ := applyRebinding_cases h
    generalize applyRebinding host { writer with queue := [] } writer.queue faults = attempted
      at hempty hcases ⊢
    obtain ⟨after, result⟩ := attempted
    cases result with
    | ok _ =>
      rcases hcases with ⟨-, hdone⟩ | ⟨error, hcontra, -⟩
      · exact FlushOutcome.applied rfl hempty hdone
      · cases hcontra
    | error error =>
      rcases hcases with ⟨hcontra, -⟩ | ⟨other, hsame, hdone⟩
      · cases hcontra
      cases hsame
      obtain ⟨hresult, hdb, hqueue⟩ := flushFailed_spec host after writer.queue error hempty
      cases hretained : (classifyDbWriteError host error).retained with
      | true =>
        rw [hretained, if_pos rfl] at hqueue
        refine FlushOutcome.retained _ hresult hretained hqueue ?_
        rw [hdb]
        rcases hdone with hnothing | ⟨-, hcontra⟩
        · exact hnothing
        · rw [hretained] at hcontra
          cases hcontra
      | false =>
        rw [hretained, if_neg Bool.false_ne_true] at hqueue
        refine FlushOutcome.reported _ hresult hretained hqueue ?_
        rw [hdb]
        rcases hdone with hnothing | ⟨happlied, -⟩
        · exact Or.inl hnothing
        · exact Or.inr happlied

end OpencodeSwarm
