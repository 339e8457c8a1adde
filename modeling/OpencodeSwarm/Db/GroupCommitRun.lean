/-
  OpencodeSwarm.Db.GroupCommitRun

  What callers of the group-commit writer are told against what becomes of their
  ops, over any calls: a refused op stays out, an accepted op is applied once and
  in order, and none is lost in silence.
-/
import OpencodeSwarm.Db.FlushOutcome
import OpencodeSwarm.Lib.Transition

namespace OpencodeSwarm

open Js

/-! ## Calls and their history -/

/-- What happens to the op with a number: its writes are committed, its `enqueue` returns or
    throws, a call throws an error of a class that drops it, or `close` drops it. -/
inductive WriterEvent where
  | applied (number : Nat)
  | accepted (number : Nat)
  | refused (number : Nat)
  | reported (number : Nat)
  | dropped (number : Nat)
  deriving DecidableEq

def WriterEvent.number : WriterEvent → Nat
  | .applied number => number
  | .accepted number => number
  | .refused number => number
  | .reported number => number
  | .dropped number => number

def WriterEvent.appliedNumber : WriterEvent → Option Nat
  | .applied number => some number
  | _ => none

/-- A writer, the number of the next op, and the history. -/
structure WriterWorld where
  writer : GroupCommitWriter
  next : Nat
  log : List WriterEvent

def WriterWorld.start (registryKey : Option JsString) : WriterWorld where
  writer := { db := .opened, queue := [], closed := false, registryKey := registryKey }
  next := 0
  log := []

inductive WriterCall where
  | enqueue (durability : DurabilityClass) (faults : EnqueueFaults)
  | flush (faults : FlushFaults)
  | close

/-- The ops that a call committed. -/
def newlyApplied (before after : GroupCommitWriter) : List WriterEvent :=
  (after.db.applied.drop before.db.applied.length).map .applied

/-- The ops that are gone when a call throws an error of a class that drops the batch. -/
def reportedOps (numbers : List Nat) (after : GroupCommitWriter)
    (result : Except DbWriteError Unit) : List WriterEvent :=
  match result with
  | .ok _ => []
  | .error error =>
    if error.category.retained then []
    else (numbers.filter fun number => decide (number ∉ opNumbers after.queue)).map .reported

/-- What `enqueue` tells its caller. -/
def answerEvent (number : Nat) : Except DbWriteError Unit → WriterEvent
  | .ok _ => .accepted number
  | .error _ => .refused number

variable (host : CaseMapping)

/-- One call, and what it tells of the ops. -/
def writerStep (w : WriterWorld) : WriterCall → WriterWorld
  | .enqueue durability faults =>
    let answer := w.writer.enqueue host ⟨w.next, durability⟩ faults
    { writer := answer.1
      next := w.next + 1
      log := w.log ++ (newlyApplied w.writer answer.1
        ++ (reportedOps (opNumbers w.writer.queue ++ [w.next]) answer.1 answer.2
          ++ [answerEvent w.next answer.2])) }
  | .flush faults =>
    let answer := flushSync host w.writer faults
    { writer := answer.1
      next := w.next
      log := w.log ++ (newlyApplied w.writer answer.1
        ++ reportedOps (opNumbers w.writer.queue) answer.1 answer.2) }
  | .close =>
    { writer := w.writer.close
      next := w.next
      log := w.log ++ (opNumbers w.writer.queue).map .dropped }

/-! ## What is asked of the history -/

/-- Acceptance is honest. -/
structure WriterWorld.Honest (w : WriterWorld) : Prop where
  refusedStaysOut : w.log.Pairwise fun earlier later =>
    ∀ number, earlier = .refused number → later ≠ .applied number
  appliedInOrder : (w.log.filterMap WriterEvent.appliedNumber).Pairwise (· < ·)
  acceptedIsKept : ∀ number, .accepted number ∈ w.log →
    .applied number ∈ w.log ∨ number ∈ opNumbers w.writer.queue
      ∨ .dropped number ∈ w.log ∨ .reported number ∈ w.log
  bounded : w.writer.queue.length ≤ maxQueuedOps

/-- The flush that an `enqueue` at the threshold makes settles, and does not end in an error
    that keeps the new op with the batch. -/
def ThresholdSettles (writer : GroupCommitWriter) (op : GroupCommitOp) (faults : EnqueueFaults) :
    Prop :=
  flushThresholdOps ≤ (writer.queue ++ [op]).length →
    faults.threshold.Settles host { writer with queue := writer.queue ++ [op] }
      ∧ ∀ error, (flushSync host { writer with queue := writer.queue ++ [op] }
          faults.threshold).2 = .error error → error.category.retained = false

/-- The condition on a call. -/
def CallSettles (w : WriterWorld) : WriterCall → Prop
  | .enqueue durability faults => w.writer.closed = false →
    if maxQueuedOps ≤ w.writer.queue.length then faults.hardBound.Settles host w.writer
    else ThresholdSettles host w.writer ⟨w.next, durability⟩ faults
  | .flush faults => w.writer.closed = false → faults.Settles host w.writer
  | .close => True

/-! ## One enqueue -/

variable {host}

/-- What an `enqueue` that settles does. -/
inductive EnqueueOutcome (writer : GroupCommitWriter) (op : GroupCommitOp)
    (after : GroupCommitWriter) (result : Except DbWriteError Unit) : Prop where
  | queued (hresult : result = .ok ()) (hqueue : after.queue = writer.queue ++ [op])
      (hdone : after.db.applied = writer.db.applied) (hroom : writer.queue.length < maxQueuedOps)
  | flushedFirst (hresult : result = .ok ()) (hqueue : after.queue = [op])
      (hdone : after.db.applied = writer.db.applied ++ opNumbers writer.queue)
  | flushedAll (hresult : result = .ok ()) (hqueue : after.queue = [])
      (hdone : after.db.applied = writer.db.applied ++ opNumbers (writer.queue ++ [op]))
  | refused (error : DbWriteError) (hresult : result = .error error)
      (hqueue : after.queue = writer.queue) (hdone : after.db.applied = writer.db.applied)
  | reported (error : DbWriteError) (hresult : result = .error error)
      (hcategory : error.category.retained = false) (hqueue : after.queue = [])
      (hdone : after.db.applied = writer.db.applied
        ∨ after.db.applied = writer.db.applied ++ opNumbers writer.queue
        ∨ after.db.applied = writer.db.applied ++ opNumbers (writer.queue ++ [op]))

variable {faults : EnqueueFaults}

theorem pushOp_of_short {writer : GroupCommitWriter} {op : GroupCommitOp}
    (h : ¬ flushThresholdOps ≤ (writer.queue ++ [op]).length) :
    pushOp host writer op faults = ({ writer with queue := writer.queue ++ [op] }, .ok ()) := by
  rw [pushOp, if_neg h]

variable {durability : DurabilityClass}

theorem enqueue_outcome {w : WriterWorld} (h : CallSettles host w (.enqueue durability faults)) :
    EnqueueOutcome w.writer ⟨w.next, durability⟩
      (w.writer.enqueue host ⟨w.next, durability⟩ faults).1
      (w.writer.enqueue host ⟨w.next, durability⟩ faults).2 := by
  unfold GroupCommitWriter.enqueue
  cases hclosed : w.writer.closed with
  | true => exact EnqueueOutcome.refused _ rfl rfl rfl
  | false =>
    have hsettles := h hclosed
    rw [if_neg Bool.false_ne_true]
    split
    · next hfull =>
      rw [if_pos hfull] at hsettles
      have hflush := flushSync_outcome hclosed hsettles
      generalize flushSync host w.writer faults.hardBound = answer at hflush ⊢
      obtain ⟨after, result⟩ := answer
      cases result with
      | error error =>
        cases hflush with
        | applied hresult => cases hresult
        | reported other hresult hcategory hqueue hdone =>
          cases hresult
          exact EnqueueOutcome.reported error rfl hcategory hqueue
            (hdone.imp_right fun happlied => Or.inl happlied)
        | retained other hresult hcategory hqueue hdone =>
          exact EnqueueOutcome.refused error rfl hqueue hdone
      | ok _ =>
        cases hflush with
        | applied hresult hqueue hdone =>
          -- the queue is empty again, so the new op stays below the threshold
          have hshort : ¬ flushThresholdOps
              ≤ (after.queue ++ [(⟨w.next, durability⟩ : GroupCommitOp)]).length := by
            rw [hqueue, List.nil_append, List.length_singleton]
            decide
          dsimp only
          rw [pushOp_of_short hshort]
          refine EnqueueOutcome.flushedFirst rfl ?_ hdone
          show after.queue ++ _ = _
          rw [hqueue, List.nil_append]
        | reported other hresult | retained other hresult => cases hresult
    · next hroom =>
      rw [if_neg hroom] at hsettles
      by_cases hlong : flushThresholdOps
          ≤ (w.writer.queue ++ [(⟨w.next, durability⟩ : GroupCommitOp)]).length
      · obtain ⟨hthreshold, hdrops⟩ := hsettles hlong
        have hopen : ({ w.writer with
            queue := w.writer.queue ++ [⟨w.next, durability⟩] } : GroupCommitWriter).closed
            = false := hclosed
        have hflush := flushSync_outcome hopen hthreshold
        rw [pushOp, if_pos hlong]
        cases hflush with
        | applied hresult hqueue hdone => exact EnqueueOutcome.flushedAll hresult hqueue hdone
        | reported error hresult hcategory hqueue hdone =>
          exact EnqueueOutcome.reported error hresult hcategory hqueue
            (hdone.imp_right fun happlied => Or.inr happlied)
        | retained error hresult hcategory =>
          rw [hdrops error hresult] at hcategory
          cases hcategory
      · rw [pushOp_of_short hlong]
        exact EnqueueOutcome.queued rfl rfl rfl (by omega)

/-! ## Accounts -/

/-- The invariant: the history accounts for every op. -/
structure WriterWorld.Accounts (w : WriterWorld) : Prop where
  logged : w.log.filterMap WriterEvent.appliedNumber = w.writer.db.applied
  ordered : (w.writer.db.applied ++ opNumbers w.writer.queue).Pairwise (· < ·)
  below : ∀ number ∈ w.writer.db.applied ++ opNumbers w.writer.queue, number < w.next
  known : ∀ event ∈ w.log, event.number < w.next
  refusedOut : ∀ number, .refused number ∈ w.log → number ∉ opNumbers w.writer.queue
  refusedStaysOut : w.log.Pairwise fun earlier later =>
    ∀ number, earlier = .refused number → later ≠ .applied number
  acceptedIsKept : ∀ number, .accepted number ∈ w.log →
    .applied number ∈ w.log ∨ number ∈ opNumbers w.writer.queue
      ∨ .dropped number ∈ w.log ∨ .reported number ∈ w.log
  bounded : w.writer.queue.length ≤ maxQueuedOps

/-- What a call may do: it applies the ops `new`, from the queue and the op `fresh` that it
    brings, keeps some of the others, and tells `rest`. -/
structure WriterMoves (w : WriterWorld) (after : GroupCommitWriter) (next : Nat)
    (new fresh : List Nat)
    (rest : List WriterEvent) : Prop where
  grows : w.next ≤ next
  brought : ∀ number ∈ fresh, number = w.next ∧ number < next
  single : fresh.length ≤ 1
  done : after.db.applied = w.writer.db.applied ++ new
  moved : (new ++ opNumbers after.queue).Sublist (opNumbers w.writer.queue ++ fresh)
  notApplied : ∀ event ∈ rest, event.appliedNumber = none
  known : ∀ event ∈ rest, event.number < next
  refused : ∀ number, .refused number ∈ rest → number = w.next ∧ number ∉ opNumbers after.queue
  kept : ∀ number ∈ opNumbers w.writer.queue, number ∈ new ∨ number ∈ opNumbers after.queue
    ∨ .dropped number ∈ rest ∨ .reported number ∈ rest
  accepted : ∀ number, .accepted number ∈ rest → number ∈ new ∨ number ∈ opNumbers after.queue
  bounded : after.queue.length ≤ maxQueuedOps

namespace WriterWorld.Accounts

variable {w : WriterWorld}

theorem honest (h : w.Accounts) : w.Honest where
  refusedStaysOut := h.refusedStaysOut
  appliedInOrder := by
    rw [h.logged]
    exact (List.pairwise_append.mp h.ordered).1
  acceptedIsKept := h.acceptedIsKept
  bounded := h.bounded

theorem appliedNumber_map (numbers : List Nat) :
    (numbers.map WriterEvent.applied).filterMap WriterEvent.appliedNumber = numbers := by
  induction numbers with
  | nil => rfl
  | cons number rest ih =>
    show number :: _ = _
    rw [ih]

variable {after : GroupCommitWriter} {next : Nat} {new fresh : List Nat} {rest : List WriterEvent}

/-- Of what a call tells, only the applied ops are not in `rest`. -/
theorem mem_told {event : WriterEvent} (h : event ∈ new.map .applied ++ rest) :
    (∃ number ∈ new, event = .applied number) ∨ event ∈ rest := by
  rcases List.mem_append.mp h with happlied | htold
  · obtain ⟨number, hnumber, rfl⟩ := List.mem_map.mp happlied
    exact Or.inl ⟨number, hnumber, rfl⟩
  · exact Or.inr htold

theorem lt_of_moved (h : w.Accounts) (m : WriterMoves w after next new fresh rest) :
    ∀ number ∈ new ++ opNumbers after.queue, number < next := by
  intro number hnumber
  rcases List.mem_append.mp (m.moved.subset hnumber) with hold | hnew
  · exact (h.below number (List.mem_append_right _ hold)).trans_le m.grows
  · exact (m.brought number hnew).2

/-- An op refused before is neither queued nor the new one. -/
theorem notMem_moved (h : w.Accounts) (m : WriterMoves w after next new fresh rest) {number : Nat}
    (hrefused : .refused number ∈ w.log) : number ∉ new ++ opNumbers after.queue := by
  intro hmoved
  rcases List.mem_append.mp (m.moved.subset hmoved) with hwas | hnew
  · exact h.refusedOut number hrefused hwas
  · have hlt : number < w.next := h.known _ hrefused
    have heq := (m.brought number hnew).1
    omega

theorem ordered_moved (h : w.Accounts) (m : WriterMoves w after next new fresh rest) :
    (w.writer.db.applied ++ (new ++ opNumbers after.queue)).Pairwise (· < ·) := by
  have hfresh : fresh.Pairwise (· < ·) := by
    match fresh, m.single with
    | [], _ => exact List.Pairwise.nil
    | [_], _ => exact List.pairwise_singleton _ _
  refine List.Pairwise.sublist (m.moved.append_left _) ?_
  rw [← List.append_assoc, List.pairwise_append]
  refine ⟨h.ordered, hfresh, fun earlier hearlier later hlater => ?_⟩
  rw [(m.brought later hlater).1]
  exact h.below earlier hearlier

theorem refusedStaysOut_moved (h : w.Accounts) (m : WriterMoves w after next new fresh rest) :
    (w.log ++ (new.map WriterEvent.applied ++ rest)).Pairwise fun earlier later =>
      ∀ number, earlier = .refused number → later ≠ .applied number := by
  rw [List.pairwise_append]
  refine ⟨h.refusedStaysOut, List.pairwise_append.mpr ⟨?_, ?_, ?_⟩, ?_⟩
  · rw [List.pairwise_map]
    refine List.pairwise_of_forall fun earlier later number hcontra => ?_
    cases hcontra
  · refine List.pairwise_of_forall_mem_list fun earlier _ later hlater number _ hcontra => ?_
    have hnone := m.notApplied later hlater
    rw [hcontra] at hnone
    cases hnone
  · intro earlier hearlier later _ number hcontra
    obtain ⟨other, -, happlied⟩ := List.mem_map.mp hearlier
    rw [hcontra] at happlied
    cases happlied
  · intro earlier hearlier later hlater number hrefused hcontra
    rw [hrefused] at hearlier
    rw [hcontra] at hlater
    rcases mem_told hlater with ⟨other, hother, hsame⟩ | htold
    · cases hsame
      exact h.notMem_moved m hearlier (List.mem_append_left _ hother)
    · have hnone := m.notApplied _ htold
      cases hnone

theorem acceptedIsKept_moved (h : w.Accounts) (m : WriterMoves w after next new fresh rest)
    (number : Nat) (haccepted : .accepted number ∈ w.log ++ (new.map .applied ++ rest)) :
    .applied number ∈ w.log ++ (new.map .applied ++ rest) ∨ number ∈ opNumbers after.queue
      ∨ .dropped number ∈ w.log ++ (new.map .applied ++ rest)
      ∨ .reported number ∈ w.log ++ (new.map .applied ++ rest) := by
  have hnew : number ∈ new → .applied number ∈ w.log ++ (new.map .applied ++ rest) := fun hmem =>
    List.mem_append_right _ (List.mem_append_left _ (List.mem_map_of_mem hmem))
  have htold : ∀ event, event ∈ rest → event ∈ w.log ++ (new.map WriterEvent.applied ++ rest) :=
    fun event hevent => List.mem_append_right _ (List.mem_append_right _ hevent)
  rcases List.mem_append.mp haccepted with hold | hevent
  · rcases h.acceptedIsKept number hold with happlied | hqueued | hdropped | hreported
    · exact Or.inl (List.mem_append_left _ happlied)
    · rcases m.kept number hqueued with hmem | hstays | hdropped | hreported
      · exact Or.inl (hnew hmem)
      · exact Or.inr (Or.inl hstays)
      · exact Or.inr (Or.inr (Or.inl (htold _ hdropped)))
      · exact Or.inr (Or.inr (Or.inr (htold _ hreported)))
    · exact Or.inr (Or.inr (Or.inl (List.mem_append_left _ hdropped)))
    · exact Or.inr (Or.inr (Or.inr (List.mem_append_left _ hreported)))
  · rcases mem_told hevent with ⟨other, -, hcontra⟩ | htold'
    · cases hcontra
    · rcases m.accepted number htold' with hmem | hqueued
      · exact Or.inl (hnew hmem)
      · exact Or.inr (Or.inl hqueued)

theorem advance (h : w.Accounts) (m : WriterMoves w after next new fresh rest) :
    Accounts ⟨after, next, w.log ++ (new.map .applied ++ rest)⟩ where
  logged := by
    have hrest := List.filterMap_eq_nil_iff.mpr m.notApplied
    dsimp only
    rw [List.filterMap_append, List.filterMap_append, appliedNumber_map, hrest, List.append_nil,
      h.logged, m.done]
  ordered := by
    dsimp only
    rw [m.done, List.append_assoc]
    exact h.ordered_moved m
  below := by
    dsimp only
    rw [m.done, List.append_assoc]
    intro number hnumber
    rcases List.mem_append.mp hnumber with hdone | hmoved
    · exact (h.below number (List.mem_append_left _ hdone)).trans_le m.grows
    · exact h.lt_of_moved m number hmoved
  known event hevent := by
    rcases List.mem_append.mp hevent with hold | hevent
    · exact (h.known event hold).trans_le m.grows
    · rcases mem_told hevent with ⟨number, hnumber, rfl⟩ | htold
      · exact h.lt_of_moved m number (List.mem_append_left _ hnumber)
      · exact m.known event htold
  refusedOut number hrefused := by
    rcases List.mem_append.mp hrefused with hold | hevent
    · exact fun hqueued => h.notMem_moved m hold (List.mem_append_right _ hqueued)
    · rcases mem_told hevent with ⟨other, -, hcontra⟩ | htold
      · cases hcontra
      · exact (m.refused number htold).2
  refusedStaysOut := h.refusedStaysOut_moved m
  acceptedIsKept := h.acceptedIsKept_moved m
  bounded := m.bounded

end WriterWorld.Accounts

/-! ## Steps -/

variable {after : GroupCommitWriter}

theorem newlyApplied_eq {before : GroupCommitWriter} {new : List Nat}
    (h : after.db.applied = before.db.applied ++ new) :
    newlyApplied before after = new.map .applied := by
  rw [newlyApplied, h, List.drop_left]

variable {result : Except DbWriteError Unit} {numbers : List Nat}

theorem exists_of_mem_reportedOps {event : WriterEvent}
    (h : event ∈ reportedOps numbers after result) :
    ∃ number ∈ numbers, event = .reported number := by
  unfold reportedOps at h
  split at h
  · cases h
  split at h
  · cases h
  obtain ⟨number, hnumber, rfl⟩ := List.mem_map.mp h
  exact ⟨number, (List.mem_filter.mp hnumber).1, rfl⟩

theorem mem_reportedOps {error : DbWriteError} (hcategory : error.category.retained = false)
    {number : Nat} (hnumber : number ∈ numbers) (hgone : number ∉ opNumbers after.queue) :
    .reported number ∈ reportedOps numbers after (.error error) := by
  dsimp only [reportedOps]
  rw [hcategory, if_neg Bool.false_ne_true]
  exact List.mem_map_of_mem (List.mem_filter.mpr ⟨hnumber, decide_eq_true hgone⟩)

/-- An `enqueue` tells which of the ops are reported, and its answer about the new one. -/
theorem mem_enqueueTold {number : Nat} {event : WriterEvent}
    (h : event ∈ reportedOps (numbers ++ [number]) after result ++ [answerEvent number result]) :
    (∃ other ∈ numbers ++ [number], event = .reported other)
      ∨ (event = .accepted number ∧ result = .ok ())
      ∨ event = .refused number ∧ ∃ error, result = .error error := by
  rcases List.mem_append.mp h with hreported | hanswer
  · exact Or.inl (exists_of_mem_reportedOps hreported)
  · rw [List.mem_singleton.mp hanswer]
    cases result with
    | ok _ => exact Or.inr (Or.inl ⟨rfl, rfl⟩)
    | error error => exact Or.inr (Or.inr ⟨rfl, error, rfl⟩)

/-- The moves of an `enqueue` from what it does to the ops; what it tells is known. -/
theorem enqueue_moves_of {w : WriterWorld} (h : w.Accounts) {new fresh : List Nat}
    (hfresh : fresh.Sublist [w.next]) (hdone : after.db.applied = w.writer.db.applied ++ new)
    (hmoved : (new ++ opNumbers after.queue).Sublist (opNumbers w.writer.queue ++ fresh))
    (hrefused : ∀ error, result = .error error → w.next ∉ opNumbers after.queue)
    (hkept : ∀ number ∈ opNumbers w.writer.queue, number ∈ new ∨ number ∈ opNumbers after.queue
      ∨ .reported number ∈ reportedOps (opNumbers w.writer.queue ++ [w.next]) after result)
    (haccepted : result = .ok () → w.next ∈ new ∨ w.next ∈ opNumbers after.queue)
    (hbounded : after.queue.length ≤ maxQueuedOps) : WriterMoves w after (w.next + 1) new fresh
      (reportedOps (opNumbers w.writer.queue ++ [w.next]) after result
        ++ [answerEvent w.next result]) where
  grows := Nat.le_succ _
  brought number hnumber := by
    rw [List.mem_singleton.mp (hfresh.subset hnumber)]
    exact ⟨rfl, Nat.lt_succ_self _⟩
  single := hfresh.length_le
  done := hdone
  moved := hmoved
  notApplied event hevent := by
    rcases mem_enqueueTold hevent with ⟨other, -, rfl⟩ | ⟨rfl, -⟩ | ⟨rfl, -⟩ <;> rfl
  known event hevent := by
    rcases mem_enqueueTold hevent with ⟨other, hother, rfl⟩ | ⟨rfl, -⟩ | ⟨rfl, -⟩
    · rcases List.mem_append.mp hother with hold | hlast
      · exact Nat.lt_succ_of_lt (h.below other (List.mem_append_right _ hold))
      · exact Nat.lt_succ_of_le (List.mem_singleton.mp hlast).le
    · exact Nat.lt_succ_self _
    · exact Nat.lt_succ_self _
  refused number hmem := by
    rcases mem_enqueueTold hmem with ⟨other, -, hcontra⟩ | ⟨hcontra, -⟩ | ⟨heq, error, hresult⟩
    · cases hcontra
    · cases hcontra
    · cases heq
      exact ⟨rfl, hrefused error hresult⟩
  kept number hnumber := by
    rcases hkept number hnumber with hnew | hstays | hreported
    · exact Or.inl hnew
    · exact Or.inr (Or.inl hstays)
    · exact Or.inr (Or.inr (Or.inr (List.mem_append_left _ hreported)))
  accepted number hmem := by
    rcases mem_enqueueTold hmem with ⟨other, -, hcontra⟩ | ⟨heq, hresult⟩ | ⟨hcontra, -⟩
    · cases hcontra
    · cases heq
      exact haccepted hresult
    · cases hcontra
  bounded := hbounded

theorem enqueue_moves {w : WriterWorld} (h : w.Accounts)
    (hout : EnqueueOutcome w.writer ⟨w.next, durability⟩ after result) :
    ∃ new fresh, WriterMoves w after (w.next + 1) new fresh
      (reportedOps (opNumbers w.writer.queue ++ [w.next]) after result
        ++ [answerEvent w.next result]) := by
  have hlast : opNumbers (w.writer.queue ++ [(⟨w.next, durability⟩ : GroupCommitOp)])
      = opNumbers w.writer.queue ++ [w.next] := List.map_append
  cases hout with
  | queued hresult hqueue hdone hroom =>
    have hnumbers : opNumbers after.queue = opNumbers w.writer.queue ++ [w.next] := by
      rw [hqueue, hlast]
    refine ⟨[], [w.next], enqueue_moves_of h (.refl _) ?_ ?_ ?_ ?_ ?_ ?_⟩
    · rw [hdone, List.append_nil]
    · rw [hnumbers, List.nil_append]
    · intro error hcontra
      rw [hresult] at hcontra
      cases hcontra
    · intro number hnumber
      rw [hnumbers]
      exact Or.inr (Or.inl (List.mem_append_left _ hnumber))
    · intro _
      rw [hnumbers]
      exact Or.inr (List.mem_append_right _ (List.mem_singleton_self _))
    · rw [hqueue, List.length_append, List.length_singleton]
      omega
  | flushedFirst hresult hqueue hdone =>
    have hnumbers : opNumbers after.queue = [w.next] := by
      rw [hqueue]
      rfl
    refine ⟨opNumbers w.writer.queue, [w.next], enqueue_moves_of h (.refl _) hdone ?_ ?_ ?_ ?_ ?_⟩
    · rw [hnumbers]
    · intro error hcontra
      rw [hresult] at hcontra
      cases hcontra
    · exact fun number hnumber => Or.inl hnumber
    · intro _
      rw [hnumbers]
      exact Or.inr (List.mem_singleton_self _)
    · rw [hqueue]
      show 1 ≤ maxQueuedOps
      decide
  | flushedAll hresult hqueue hdone =>
    rw [hlast] at hdone
    refine ⟨_, [w.next], enqueue_moves_of h (.refl _) hdone ?_ ?_ ?_ ?_ ?_⟩
    · rw [hqueue]
      show (_ ++ []).Sublist _
      rw [List.append_nil]
    · intro error hcontra
      rw [hresult] at hcontra
      cases hcontra
    · exact fun number hnumber => Or.inl (List.mem_append_left _ hnumber)
    · exact fun _ => Or.inl (List.mem_append_right _ (List.mem_singleton_self _))
    · rw [hqueue]
      exact Nat.zero_le _
  | refused error hresult hqueue hdone =>
    refine ⟨[], [], enqueue_moves_of h (List.nil_sublist _) ?_ ?_ ?_ ?_ ?_ ?_⟩
    · rw [hdone, List.append_nil]
    · rw [hqueue, List.append_nil, List.nil_append]
    · intro _ _ hqueued
      rw [hqueue] at hqueued
      have hlt := h.below w.next (List.mem_append_right _ hqueued)
      omega
    · intro number hnumber
      rw [hqueue]
      exact Or.inr (Or.inl hnumber)
    · intro hcontra
      rw [hresult] at hcontra
      cases hcontra
    · rw [hqueue]
      exact h.bounded
  | reported error hresult hcategory hqueue hdone =>
    have hempty : opNumbers after.queue = [] := by
      rw [hqueue]
      rfl
    rw [hlast] at hdone
    obtain ⟨new, hnewDone, hsub⟩ : ∃ new, after.db.applied = w.writer.db.applied ++ new
        ∧ new.Sublist (opNumbers w.writer.queue ++ [w.next]) := by
      rcases hdone with hnothing | hqueued | hall
      · exact ⟨[], by rw [hnothing, List.append_nil], List.nil_sublist _⟩
      · exact ⟨_, hqueued, List.sublist_append_left _ _⟩
      · exact ⟨_, hall, List.Sublist.refl _⟩
    refine ⟨new, [w.next], enqueue_moves_of h (.refl _) hnewDone ?_ ?_ ?_ ?_ ?_⟩
    · rw [hempty, List.append_nil]
      exact hsub
    · rw [hempty]
      exact fun _ _ => List.not_mem_nil
    · intro number hnumber
      rw [hresult]
      refine Or.inr (Or.inr (mem_reportedOps hcategory (List.mem_append_left _ hnumber) ?_))
      rw [hempty]
      exact List.not_mem_nil
    · intro hcontra
      rw [hresult] at hcontra
      cases hcontra
    · rw [hqueue]
      exact Nat.zero_le _

theorem flush_moves {w : WriterWorld} (h : w.Accounts) (hout : FlushOutcome w.writer after result) :
    ∃ new, WriterMoves w after w.next new []
      (reportedOps (opNumbers w.writer.queue) after result) := by
  -- a flush brings no op and answers no caller
  have hmoves : ∀ new : List Nat, after.db.applied = w.writer.db.applied ++ new →
      (new ++ opNumbers after.queue).Sublist (opNumbers w.writer.queue) →
      (∀ number ∈ opNumbers w.writer.queue, number ∈ new ∨ number ∈ opNumbers after.queue
        ∨ .reported number ∈ reportedOps (opNumbers w.writer.queue) after result) →
      after.queue.length ≤ maxQueuedOps → WriterMoves w after w.next new []
        (reportedOps (opNumbers w.writer.queue) after result) := by
    intro new hdone hmoved hkept hbounded
    refine ⟨le_refl _, List.forall_mem_nil _, Nat.zero_le _, hdone, ?_, ?_, ?_, ?_, ?_, ?_,
      hbounded⟩
    · rw [List.append_nil]
      exact hmoved
    · intro event hevent
      obtain ⟨number, -, rfl⟩ := exists_of_mem_reportedOps hevent
      rfl
    · intro event hevent
      obtain ⟨number, hnumber, rfl⟩ := exists_of_mem_reportedOps hevent
      exact h.below number (List.mem_append_right _ hnumber)
    · intro number hmem
      obtain ⟨other, -, hcontra⟩ := exists_of_mem_reportedOps hmem
      cases hcontra
    · intro number hnumber
      exact (hkept number hnumber).imp_right fun hrest => hrest.imp_right Or.inr
    · intro number hmem
      obtain ⟨other, -, hcontra⟩ := exists_of_mem_reportedOps hmem
      cases hcontra
  cases hout with
  | applied hresult hqueue hdone =>
    refine ⟨_, hmoves _ hdone ?_ (fun number hnumber => Or.inl hnumber) ?_⟩
    · rw [hqueue]
      exact (List.append_nil _).symm ▸ List.Sublist.refl _
    · rw [hqueue]
      exact Nat.zero_le _
  | reported error hresult hcategory hqueue hdone =>
    have hempty : opNumbers after.queue = [] := by
      rw [hqueue]
      rfl
    obtain ⟨new, hnewDone, hsub⟩ : ∃ new, after.db.applied = w.writer.db.applied ++ new
        ∧ new.Sublist (opNumbers w.writer.queue) := by
      rcases hdone with hnothing | hall
      · exact ⟨[], by rw [hnothing, List.append_nil], List.nil_sublist _⟩
      · exact ⟨_, hall, List.Sublist.refl _⟩
    refine ⟨new, hmoves new hnewDone ?_ ?_ ?_⟩
    · rw [hempty, List.append_nil]
      exact hsub
    · intro number hnumber
      rw [hresult]
      refine Or.inr (Or.inr (mem_reportedOps hcategory hnumber ?_))
      rw [hempty]
      exact List.not_mem_nil
    · rw [hqueue]
      exact Nat.zero_le _
  | retained error hresult hcategory hqueue hdone =>
    refine ⟨[], hmoves [] ?_ ?_ ?_ ?_⟩
    · rw [hdone, List.append_nil]
    · rw [hqueue, List.nil_append]
    · intro number hnumber
      rw [hqueue]
      exact Or.inr (Or.inl hnumber)
    · rw [hqueue]
      exact h.bounded

theorem close_moves {w : WriterWorld} (h : w.Accounts) :
    WriterMoves w w.writer.close w.next [] [] ((opNumbers w.writer.queue).map .dropped) := by
  have hdropped : ∀ event ∈ (opNumbers w.writer.queue).map WriterEvent.dropped,
      ∃ number ∈ opNumbers w.writer.queue, event = .dropped number := by
    intro event hevent
    obtain ⟨number, hnumber, rfl⟩ := List.mem_map.mp hevent
    exact ⟨number, hnumber, rfl⟩
  refine ⟨le_refl _, List.forall_mem_nil _, Nat.zero_le _, ?_,
    List.nil_sublist _, ?_, ?_, ?_, ?_, ?_, Nat.zero_le _⟩
  · exact (List.append_nil _).symm
  · intro event hevent
    obtain ⟨number, -, rfl⟩ := hdropped event hevent
    rfl
  · intro event hevent
    obtain ⟨number, hnumber, rfl⟩ := hdropped event hevent
    exact h.below number (List.mem_append_right _ hnumber)
  · intro number hmem
    obtain ⟨other, -, hcontra⟩ := hdropped _ hmem
    cases hcontra
  · intro number hnumber
    exact Or.inr (Or.inr (Or.inl (List.mem_map_of_mem hnumber)))
  · intro number hmem
    obtain ⟨other, -, hcontra⟩ := hdropped _ hmem
    cases hcontra

theorem accounts_step {w : WriterWorld} (h : w.Accounts) {call : WriterCall}
    (hcall : CallSettles host w call) : (writerStep host w call).Accounts := by
  cases call with
  | enqueue durability faults =>
    obtain ⟨new, fresh, hmoves⟩ := enqueue_moves h (enqueue_outcome hcall)
    have hafter := h.advance hmoves
    dsimp only [writerStep]
    rw [newlyApplied_eq hmoves.done]
    exact hafter
  | flush faults =>
    dsimp only [writerStep]
    cases hclosed : w.writer.closed with
    | true =>
      -- a closed writer does nothing
      have hidle : flushSync host w.writer faults = (w.writer, .ok ()) := by
        rw [flushSync, if_pos (Or.inl hclosed)]
      have hnothing : newlyApplied w.writer w.writer = [] :=
        newlyApplied_eq (List.append_nil _).symm
      rw [hidle, hnothing]
      show WriterWorld.Accounts ⟨w.writer, w.next, w.log ++ []⟩
      rw [List.append_nil]
      exact h
    | false =>
      obtain ⟨new, hmoves⟩ := flush_moves h (flushSync_outcome hclosed (hcall hclosed))
      have hafter := h.advance hmoves
      rw [newlyApplied_eq hmoves.done]
      exact hafter
  | close => exact h.advance (close_moves h)

theorem accounts_start (registryKey : Option JsString) :
    (WriterWorld.start registryKey).Accounts where
  logged := rfl
  ordered := List.Pairwise.nil
  below := List.forall_mem_nil _
  known := List.forall_mem_nil _
  refusedOut := fun _ hcontra => absurd hcontra List.not_mem_nil
  refusedStaysOut := List.Pairwise.nil
  acceptedIsKept := fun _ hcontra => absurd hcontra List.not_mem_nil
  bounded := Nat.zero_le _

/-- In every run whose calls settle, acceptance is honest after every call. -/
theorem honest_run (registryKey : Option JsString) {calls : List WriterCall}
    (h : Transition.Along (writerStep host) (CallSettles host) (.start registryKey) calls) :
    Crash.AtEveryCut (writerStep host) WriterWorld.Honest (.start registryKey) calls := by
  have hstep : ∀ (w : WriterWorld) (call : WriterCall), w.Accounts → CallSettles host w call →
      (writerStep host w call).Accounts := fun _ _ hw hcall => accounts_step hw hcall
  have hrun := Crash.atEveryCut_of_along hstep (accounts_start registryKey) h
  exact hrun.mono fun w hw => WriterWorld.Accounts.honest hw

/-- The case mapping of ASCII text. -/
def asciiCase : CaseMapping where
  toLowerCase := List.map fun c => if 0x41 ≤ c ∧ c ≤ 0x5A then c + 0x20 else c
  toUpperCase := List.map fun c => if 0x61 ≤ c ∧ c ≤ 0x7A then c - 0x20 else c

def busyError : DbError := ⟨none, js "SQLITE_BUSY: database is locked"⟩

/-- A flush that finds the database locked, and one that does not. -/
def busyOnce : List WriterCall :=
  [.enqueue .full {}, .flush { first := { begin := some busyError } }, .flush {}]

theorem settles_of_restore {faults : FlushFaults} (hfirst : faults.first.restore = none)
    (hsecond : faults.second.restore = none) (writer : GroupCommitWriter) :
    faults.Settles host writer := by
  constructor
  · intro error hfails
    have hcontra := hfails.restore
    rw [hfirst] at hcontra
    cases hcontra
  · intro fresh error _ hfails
    have hcontra := hfails.restore
    rw [hsecond] at hcontra
    cases hcontra

theorem honest_busyOnce :
    (busyOnce.foldl (writerStep asciiCase) (.start none)).Honest
      ∧ (busyOnce.foldl (writerStep asciiCase) (.start none)).log = [.accepted 0, .applied 0] := by
  have hsettles : Transition.Along (writerStep asciiCase) (CallSettles asciiCase) (.start none)
      busyOnce := by
    refine ⟨?_, ?_, ?_, trivial⟩
    · intro _ hlong
      exact absurd hlong (by decide)
    · exact fun _ => settles_of_restore rfl rfl _
    · exact fun _ => settles_of_restore rfl rfl _
  exact ⟨(honest_run none hsettles).complete, by decide +kernel⟩

/-- The sixty-fourth op comes to a locked database: it is refused and stays in the queue. -/
def busyAtThreshold : List WriterCall :=
  List.replicate 63 (.enqueue .normal {})
    ++ [.enqueue .normal { threshold := { first := { begin := some busyError } } }, .flush {}]

theorem not_honest_busyAtThreshold :
    ¬ ∀ (host : CaseMapping) (registryKey : Option JsString) (calls : List WriterCall),
      Crash.AtEveryCut (writerStep host) WriterWorld.Honest (.start registryKey) calls := by
  intro hall
  have hlast := (hall asciiCase none busyAtThreshold).complete.refusedStaysOut
  have hrefused : WriterEvent.refused 63
      ∈ (busyAtThreshold.foldl (writerStep asciiCase) (.start none)).log.take 64 := by
    decide +kernel
  have happlied : WriterEvent.applied 63
      ∈ (busyAtThreshold.foldl (writerStep asciiCase) (.start none)).log.drop 64 := by
    decide +kernel
  exact (List.pairwise_append.mp hlast).2.2 _ hrefused _ happlied 63 rfl rfl

end OpencodeSwarm
