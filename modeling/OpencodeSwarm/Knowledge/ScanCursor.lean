/-
  OpencodeSwarm.Knowledge.ScanCursor

  The durable scan cursor of cohort curation (`src/knowledge/scan-cursor.ts`): a
  claim takes the next batch of active entries beyond the last visited sort key,
  from a list of the store that was read before the lock was taken.
-/
import OpencodeSwarm.Lib.JsString

namespace OpencodeSwarm

open Js

/-! ## Entries -/

/-- What the cursor reads of a `KnowledgeEntryBase`. -/
structure KnowledgeEntry where
  id : JsString
  createdAt : Option JsString
  status : Option JsString
  deriving DecidableEq

/-- `INACTIVE_STATUSES`. -/
def inactiveStatuses : List JsString :=
  [js "archived", js "quarantined", js "quarantined_unactionable"]

def isActiveStatus (status : Option JsString) : Bool := status.getD [] ∉ inactiveStatuses

/-- `${created_at}|${id}`. -/
def entrySortKey (entry : KnowledgeEntry) : JsString := entry.createdAt.getD [] ++ 0x7C :: entry.id

/-- `s > t`. -/
def isBeyond (s t : JsString) : Bool := !codeUnitLe s t

/-- The comparator of the sort. -/
def compareSortKeys (a b : KnowledgeEntry) : Int :=
  if isBeyond (entrySortKey b) (entrySortKey a) then -1
  else if isBeyond (entrySortKey a) (entrySortKey b) then 1
  else 0

/-- The active entries, in the order of their sort keys. -/
def eligibleEntries (allEntries : List KnowledgeEntry) : List KnowledgeEntry :=
  sortBy compareSortKeys (allEntries.filter fun entry => isActiveStatus entry.status)

/-! ## Claims -/

structure ScanCursorState where
  cohortId : JsString
  lastVisitedSortKey : JsString
  generation : Nat
  completed : Bool
  remainingEstimate : Nat
  updatedAt : JsString
  deriving DecidableEq

structure ScanBatch where
  entries : List KnowledgeEntry
  generation : Nat
  sweepCompleted : Bool
  remainingEstimate : Nat
  deriving DecidableEq

/-- The cursor a claim works on: the one on disk, or that of a fresh sweep. -/
def sweepCursor (cohortId now : JsString) (eligible : List KnowledgeEntry) :
    Option ScanCursorState → ScanCursorState
  | none =>
    { cohortId := cohortId
      lastVisitedSortKey := []
      generation := 1
      completed := false
      remainingEstimate := eligible.length
      updatedAt := now }
  | some cursor =>
    if cursor.completed then
      { cohortId := cohortId
        lastVisitedSortKey := []
        generation := cursor.generation + 1
        completed := false
        remainingEstimate := eligible.length
        updatedAt := now }
    else cursor

/-- The entries beyond the key. -/
def pendingEntries (cursorKey : JsString) (eligible : List KnowledgeEntry) : List KnowledgeEntry :=
  eligible.filter fun entry => isBeyond (entrySortKey entry) cursorKey

/-- `claimNextScanBatch` under the lock: the batch, and the cursor it writes. -/
def claimNextScanBatch (cohortId now : JsString) (allEntries : List KnowledgeEntry)
    (batchSize : Nat) (onDisk : Option ScanCursorState) : ScanBatch × ScanCursorState :=
  let eligible := eligibleEntries allEntries
  let cursor := sweepCursor cohortId now eligible onDisk
  let pending := pendingEntries cursor.lastVisitedSortKey eligible
  let batch := pending.take batchSize
  let remainingAfter := pending.length - batch.length
  let lastVisited := (batch.getLast?.map entrySortKey).getD cursor.lastVisitedSortKey
  ({ entries := batch
     generation := cursor.generation
     sweepCompleted := remainingAfter == 0
     remainingEstimate := remainingAfter },
    { cursor with
      lastVisitedSortKey := lastVisited
      completed := remainingAfter == 0
      remainingEstimate := remainingAfter
      updatedAt := now })

/-! ## The order of the scan -/

theorem compareSortKeys_le {a b : KnowledgeEntry} :
    compareSortKeys a b ≤ 0 ↔ codeUnitLe (entrySortKey a) (entrySortKey b) = true := by
  unfold compareSortKeys isBeyond
  cases hab : codeUnitLe (entrySortKey a) (entrySortKey b) with
  | true =>
    cases codeUnitLe (entrySortKey b) (entrySortKey a) <;> simp
  | false =>
    have hba := (codeUnitLe_total (entrySortKey a) (entrySortKey b)).resolve_left
      (by rw [hab]; exact Bool.false_ne_true)
    rw [hba]
    simp

theorem eligibleEntries_perm (allEntries : List KnowledgeEntry) :
    (eligibleEntries allEntries).Perm
    (allEntries.filter fun entry => isActiveStatus entry.status) :=
  sortBy_perm _ _

theorem mem_eligibleEntries {allEntries : List KnowledgeEntry} {entry : KnowledgeEntry} :
    entry ∈ eligibleEntries allEntries
      ↔ entry ∈ allEntries ∧ isActiveStatus entry.status = true := by
  rw [(eligibleEntries_perm allEntries).mem_iff, List.mem_filter]

theorem eligibleEntries_sorted (allEntries : List KnowledgeEntry) :
    (eligibleEntries allEntries).Pairwise
      fun a b => codeUnitLe (entrySortKey a) (entrySortKey b) = true := by
  have htotal : Std.Total fun a b : KnowledgeEntry => compareSortKeys a b ≤ 0 :=
    ⟨fun a b => by
      rw [compareSortKeys_le, compareSortKeys_le]
      exact codeUnitLe_total _ _⟩
  have htrans : IsTrans KnowledgeEntry fun a b => compareSortKeys a b ≤ 0 :=
    ⟨fun a b c hab hbc => by
      rw [compareSortKeys_le] at hab hbc ⊢
      exact codeUnitLe_trans hab hbc⟩
  exact (List.pairwise_insertionSort _ _).imp fun h => compareSortKeys_le.mp h

variable {s t : JsString}

theorem isBeyond_iff : isBeyond s t = true ↔ codeUnitLe s t = false := by
  rw [isBeyond, Bool.not_eq_eq_eq_not, Bool.not_true]

theorem isBeyond_of_le {u : JsString} (hst : codeUnitLe s t = true) (hsu : isBeyond s u = true) :
    isBeyond t u = true := by
  rw [isBeyond_iff] at hsu ⊢
  by_contra htu
  rw [Bool.not_eq_false] at htu
  rw [codeUnitLe_trans hst htu] at hsu
  cases hsu

theorem isBeyond_of_le_of_ne (hle : codeUnitLe s t = true) (hne : s ≠ t) : isBeyond t s = true := by
  rw [isBeyond_iff]
  by_contra hts
  rw [Bool.not_eq_false] at hts
  exact hne (codeUnitLe_antisymm hle hts)

theorem isBeyond_nil (entry : KnowledgeEntry) : isBeyond (entrySortKey entry) [] = true := by
  rw [isBeyond_iff, entrySortKey]
  cases entry.createdAt.getD [] <;> rfl

end OpencodeSwarm
