/-
  OpencodeSwarm.Background.CheckpointRetention

  Which records a compaction keeps (`compactDelegationsLocked`): every live record,
  and of the others as many summaries as the byte budget of a checkpoint allows, the
  most recent first.  A summary younger than the tombstone age is not evicted: it
  sheds its retained receipt text, or the compaction is skipped.
-/
import OpencodeSwarm.Background.DelegationRecord

namespace OpencodeSwarm

open Js

/-! ## Budgets -/

def maxRecoveryLedgerBytes : Nat := 4 * 1024 * 1024
def delegationCompactionHighWaterBytes : Nat := 1024 * 1024
def maxCheckpointBytes : Nat := 2 * 1024 * 1024
def checkpointSelectionReserveBytes : Nat := 64 * 1024
def maxCheckpointRecords : Nat := 2048
def tombstoneMinAgeMs : Int := 72 * 60 * 60 * 1000

def checkpointSelectionBudget : Nat := maxCheckpointBytes - checkpointSelectionReserveBytes

/-- What a compaction asks of its surroundings: the receipt codec, the record schema,
    and the length of serialized values.  The overhead of a checkpoint depends on the
    time, on the cut and on the live records. -/
structure CheckpointHost where
  receipts : CollectionReceipts
  schema : BackgroundDelegationRecord → Bool
  recordBytes : BackgroundDelegationRecord → Nat
  overheadBytes : Int → Nat → List BackgroundDelegationRecord → Nat

/-- Why a compaction writes nothing. -/
inductive CompactionSkip where
  /-- The store cannot be read. -/
  | uncertain
  /-- `no ledger to compact` -/
  | noLedger
  /-- `ledger below the compaction high-water mark` -/
  | belowHighWater
  /-- `live record count ${live.length} exceeds the checkpoint budget` -/
  | liveBudget (live : Nat)
  /-- `checkpoint byte budget would evict a young closed summary` -/
  | youngSummary
  /-- `generated checkpoint failed schema normalization` -/
  | normalization
  /-- `serialized checkpoint exceeds the byte budget` -/
  | byteBudget
  deriving DecidableEq

/-! ## Selection -/

section Selection

variable (host : CheckpointHost) (now : Int)

def isYoung (record : BackgroundDelegationRecord) : Bool :=
  now - record.updatedAt < tombstoneMinAgeMs

/-- What the serialized record adds to a checkpoint. -/
def entryCost (record : BackgroundDelegationRecord) : Nat := host.recordBytes record + 1

/-- The loop over the closed candidates, with the bytes that are used so far. -/
def retainClosed : Nat → List BackgroundDelegationRecord →
    Except CompactionSkip (List BackgroundDelegationRecord)
  | _, [] => .ok []
  | used, entry :: rest =>
    if checkpointSelectionBudget < used + entryCost host entry then
      if isYoung now entry then
        let shed := dropRetainedPrReviewReceipt host.receipts entry
        if used + entryCost host shed ≤ checkpointSelectionBudget then
          (retainClosed (used + entryCost host shed) rest).map (shed :: ·)
        else .error .youngSummary
      else retainClosed used rest
    else (retainClosed (used + entryCost host entry) rest).map (entry :: ·)

/-- The live records, and the summaries that are kept of the others. -/
structure CheckpointSelection where
  live : List BackgroundDelegationRecord
  keptClosed : List BackgroundDelegationRecord

def CheckpointSelection.retained (selection : CheckpointSelection) :
    List BackgroundDelegationRecord := selection.live ++ selection.keptClosed

/-- The closed candidates, the newest first. -/
def closedCandidates (folded : List BackgroundDelegationRecord) :
    List BackgroundDelegationRecord :=
  sortBy (fun a b => b.updatedAt - a.updatedAt)
    ((folded.filter fun record => !isCheckpointLiveRecord record).map
      (closedEntry host.receipts host.schema))

def selectCheckpoint (cutLedgerBytes : Nat) (folded : List BackgroundDelegationRecord) :
    Except CompactionSkip CheckpointSelection :=
  let live := folded.filter isCheckpointLiveRecord
  if maxCheckpointRecords < live.length then .error (.liveBudget live.length)
  else
    (retainClosed host now (host.overheadBytes now cutLedgerBytes live)
      (closedCandidates host folded)).map fun keptClosed => { live, keptClosed }

end Selection

/-! ## What is kept -/

section Kept

variable {host : CheckpointHost} {now : Int}

/-- What is left of an entry in the list of what is kept. -/
def KeptAs (host : CheckpointHost) (entry kept : BackgroundDelegationRecord) : Prop :=
  kept = entry ∨ kept = dropRetainedPrReviewReceipt host.receipts entry

variable {entry : BackgroundDelegationRecord}

theorem KeptAs.sameSkeleton {kept : BackgroundDelegationRecord} (h : KeptAs host entry kept) :
    SameSkeleton kept entry := by
  rcases h with rfl | rfl
  · exact ⟨rfl, rfl, rfl⟩
  · exact sameSkeleton_shed

/-- What the loop keeps, entry by entry. -/
inductive Retains (host : CheckpointHost) (now : Int) :
    List BackgroundDelegationRecord → List BackgroundDelegationRecord → Prop where
  | nil : Retains host now [] []
  | keep {entry kept : BackgroundDelegationRecord}
    {rest keptRest : List BackgroundDelegationRecord} :
      KeptAs host entry kept → Retains host now rest keptRest →
        Retains host now (entry :: rest) (kept :: keptRest)
  | evict {entry : BackgroundDelegationRecord} {rest keptRest : List BackgroundDelegationRecord} :
      isYoung now entry = false → Retains host now rest keptRest →
        Retains host now (entry :: rest) keptRest

variable {entries kept : List BackgroundDelegationRecord}

theorem retains_of_retainClosed {used : Nat} (h : retainClosed host now used entries = .ok kept) :
    Retains host now entries kept := by
  induction entries generalizing used kept with
  | nil =>
    cases h
    exact .nil
  | cons entry rest ih =>
    have hkeep : ∀ {first : BackgroundDelegationRecord} {cost : Nat}, KeptAs host entry first →
        (retainClosed host now cost rest).map (first :: ·) = .ok kept →
        Retains host now (entry :: rest) kept := by
      intro first cost hfirst hmap
      cases hrest : retainClosed host now cost rest with
      | error skip =>
        rw [hrest] at hmap
        cases hmap
      | ok keptRest =>
        rw [hrest] at hmap
        cases hmap
        exact .keep hfirst (ih hrest)
    unfold retainClosed at h
    split at h
    · split at h
      · dsimp only at h
        split at h
        · exact hkeep (Or.inr rfl) h
        · cases h
      · rename_i hold
        exact .evict (Bool.eq_false_iff.mpr hold) (ih h)
    · exact hkeep (Or.inl rfl) h

theorem Retains.kept_of_young (h : Retains host now entries kept) (hentry : entry ∈ entries) :
    (∃ left ∈ kept, KeptAs host entry left) ∨ isYoung now entry = false := by
  induction h with
  | nil => cases hentry
  | keep hkept _ ih =>
    rcases List.mem_cons.mp hentry with rfl | hrest
    · exact Or.inl ⟨_, List.mem_cons_self, hkept⟩
    · rcases ih hrest with ⟨left, hleft, has⟩ | hold
      · exact Or.inl ⟨left, List.mem_cons_of_mem _ hleft, has⟩
      · exact Or.inr hold
  | evict hold _ ih =>
    rcases List.mem_cons.mp hentry with rfl | hrest
    · exact Or.inr hold
    · exact ih hrest

theorem Retains.ids_sublist (h : Retains host now entries kept) :
    (kept.map (·.correlationId)).Sublist (entries.map (·.correlationId)) := by
  induction h with
  | nil => exact List.Sublist.refl _
  | keep hkept _ ih =>
    rw [List.map_cons, List.map_cons, hkept.sameSkeleton.correlationId]
    exact ih.cons_cons _
  | evict _ _ ih => exact ih.cons _

theorem Retains.exists_entry (h : Retains host now entries kept) {left : BackgroundDelegationRecord}
    (hleft : left ∈ kept) : ∃ entry ∈ entries, KeptAs host entry left := by
  induction h with
  | nil => cases hleft
  | keep hkept _ ih =>
    rcases List.mem_cons.mp hleft with rfl | hrest
    · exact ⟨_, List.mem_cons_self, hkept⟩
    · obtain ⟨entry, hentry, has⟩ := ih hrest
      exact ⟨entry, List.mem_cons_of_mem _ hentry, has⟩
  | evict _ _ ih =>
    obtain ⟨entry, hentry, has⟩ := ih hleft
    exact ⟨entry, List.mem_cons_of_mem _ hentry, has⟩

theorem mem_closedCandidates {folded : List BackgroundDelegationRecord} :
    entry ∈ closedCandidates host folded ↔ ∃ record ∈ folded, isCheckpointLiveRecord record = false
          ∧ closedEntry host.receipts host.schema record = entry := by
  rw [closedCandidates, (sortBy_perm _ _).mem_iff, List.mem_map]
  constructor
  · rintro ⟨record, hrecord, rfl⟩
    obtain ⟨hmem, hlive⟩ := List.mem_filter.mp hrecord
    exact ⟨record, hmem, by simpa using hlive, rfl⟩
  · rintro ⟨record, hmem, hlive, rfl⟩
    exact ⟨record, List.mem_filter.mpr ⟨hmem, by rw [hlive]; rfl⟩, rfl⟩

/-- What a selection says of the records it was made from. -/
structure Selects (host : CheckpointHost) (now : Int) (folded : List BackgroundDelegationRecord)
    (selection : CheckpointSelection) : Prop where
  live : selection.live = folded.filter isCheckpointLiveRecord
  kept : Retains host now (closedCandidates host folded) selection.keptClosed

theorem selects_of_selectCheckpoint {cutLedgerBytes : Nat}
    {folded : List BackgroundDelegationRecord} {selection : CheckpointSelection}
    (h : selectCheckpoint host now cutLedgerBytes folded = .ok selection) :
    Selects host now folded selection := by
  dsimp only [selectCheckpoint] at h
  split at h
  · cases h
  cases hretain : retainClosed host now
      (host.overheadBytes now cutLedgerBytes (folded.filter isCheckpointLiveRecord))
      (closedCandidates host folded) with
  | error skip =>
    rw [hretain] at h
    cases h
  | ok keptClosed =>
    rw [hretain] at h
    cases h
    exact ⟨rfl, retains_of_retainClosed hretain⟩

/-- How a selection keeps a record: as it is when it is live, and else a summary. -/
def LeftBy (host : CheckpointHost) (record left : BackgroundDelegationRecord) : Prop :=
  if isCheckpointLiveRecord record then left = record
  else KeptAs host (closedEntry host.receipts host.schema record) left

theorem LeftBy.sameSkeleton {record left : BackgroundDelegationRecord}
    (h : LeftBy host record left) : SameSkeleton left record := by
  unfold LeftBy at h
  split at h
  · rw [h]
    exact ⟨rfl, rfl, rfl⟩
  · exact h.sameSkeleton.trans sameSkeleton_closedEntry

namespace Selects

variable {folded : List BackgroundDelegationRecord} {selection : CheckpointSelection}

theorem exists_left (h : Selects host now folded selection) {record : BackgroundDelegationRecord}
    (hrecord : record ∈ folded) :
    (∃ left ∈ selection.retained, LeftBy host record left)
      ∨ isCheckpointLiveRecord record = false ∧ isYoung now record = false := by
  by_cases hlive : isCheckpointLiveRecord record = true
  · refine Or.inl ⟨record, List.mem_append_left _ ?_, by rw [LeftBy, if_pos hlive]⟩
    rw [h.live]
    exact List.mem_filter.mpr ⟨hrecord, hlive⟩
  · have hclosed : isCheckpointLiveRecord record = false := Bool.eq_false_iff.mpr hlive
    have hentry : closedEntry host.receipts host.schema record ∈ closedCandidates host folded :=
      mem_closedCandidates.mpr ⟨record, hrecord, hclosed, rfl⟩
    rcases h.kept.kept_of_young hentry with ⟨left, hleft, has⟩ | hold
    · refine Or.inl ⟨left, List.mem_append_right _ hleft, ?_⟩
      unfold LeftBy
      rwa [if_neg hlive]
    · refine Or.inr ⟨hclosed, ?_⟩
      unfold isYoung at hold ⊢
      rwa [(@sameSkeleton_closedEntry host.receipts host.schema record).updatedAt] at hold

theorem exists_record (h : Selects host now folded selection) {left : BackgroundDelegationRecord}
    (hleft : left ∈ selection.retained) : ∃ record ∈ folded, LeftBy host record left := by
  unfold LeftBy
  rcases List.mem_append.mp hleft with hlive | hkept
  · rw [h.live] at hlive
    obtain ⟨hmem, hl⟩ := List.mem_filter.mp hlive
    exact ⟨left, hmem, by rw [if_pos hl]⟩
  · obtain ⟨entry, hentry, has⟩ := h.kept.exists_entry hkept
    obtain ⟨record, hmem, hclosed, rfl⟩ := mem_closedCandidates.mp hentry
    exact ⟨record, hmem, by rw [hclosed]; exact has⟩

theorem nodup_retained (h : Selects host now folded selection)
    (hnodup : (folded.map (·.correlationId)).Nodup) :
    (selection.retained.map (·.correlationId)).Nodup := by
  have hclosedPerm : (closedCandidates host folded).map (·.correlationId)
      |>.Perm ((folded.filter fun record => !isCheckpointLiveRecord record).map
        (·.correlationId)) := by
    refine ((sortBy_perm _ _).map _).trans ?_
    rw [List.map_map]
    have hsame : ((·.correlationId) ∘ closedEntry host.receipts host.schema)
        = BackgroundDelegationRecord.correlationId := by
      funext record
      exact sameSkeleton_closedEntry.correlationId
    rw [hsame]
  rw [CheckpointSelection.retained, List.map_append, h.live, List.nodup_append']
  refine ⟨hnodup.sublist (List.filter_sublist.map _), ?_, ?_⟩
  · refine (h.kept.ids_sublist).nodup (hclosedPerm.nodup_iff.mpr ?_)
    exact hnodup.sublist (List.filter_sublist.map _)
  · intro id hlive hclosed
    obtain ⟨record, hrecord, rfl⟩ := List.mem_map.mp hlive
    have hother := hclosedPerm.mem_iff.mp (h.kept.ids_sublist.subset hclosed)
    obtain ⟨other, hother, hid⟩ := List.mem_map.mp hother
    obtain ⟨hmem, hrecordLive⟩ := List.mem_filter.mp hrecord
    obtain ⟨hmem', hotherClosed⟩ := List.mem_filter.mp hother
    rw [List.inj_on_of_nodup_map hnodup hmem' hmem hid, hrecordLive] at hotherClosed
    cases hotherClosed

end Selects

end Kept

end OpencodeSwarm
