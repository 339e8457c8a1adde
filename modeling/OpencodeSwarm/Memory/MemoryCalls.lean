/-
  OpencodeSwarm.Memory.MemoryCalls

  Calls on one storage directory, each under the store lock: what a call reads,
  the writes it makes, and what it leaves when it finishes or crashes.
-/
import OpencodeSwarm.Memory.NewestRows

namespace OpencodeSwarm

open Js JsonLines

/-! ## Calls -/

/-- The calls that change memories and outcomes, with the identifiers and times they draw. -/
inductive MemoryCall where
  | upsert (fresh : JsString) (record : MemoryRecord)
  | appendOutcome (fresh memoryId eventId : JsString) (outcome : MemoryOutcome)
      (anchors : List MemoryAnchor)
  | delete (now id : JsString) (reason : Option JsString)
  | compact
  | compactMaintenance (now : Int) (dryRun : Bool)

/-- What a call does with the memories and events it has loaded. -/
def MemoryCall.attempt (host : MemoryHost) (config : MemoryConfig) (memories : List MemoryRecord)
    (events : List MemoryOutcomeEvent) : MemoryCall → MemoryAttempt
  | upsert fresh record => OpencodeSwarm.upsert host config fresh record memories events
  | appendOutcome fresh memoryId eventId outcome anchors =>
    OpencodeSwarm.appendOutcome host config fresh memoryId eventId outcome anchors memories events
  | delete now id reason => deleteMemory config now id reason memories events
  | compact => compactMemories memories events
  | compactMaintenance now dryRun =>
    OpencodeSwarm.compactMaintenance host now dryRun memories events

/-- Every call on the store. -/
inductive StoreCall where
  | memory (call : MemoryCall)
  | decide (appliedAt proposalId : JsString) (action : CuratorAction)
  | propose (proposal : MemoryProposal)
  /-- `get` and `list`, which repair the proposals' tail. -/
  | look

section Attempts

variable (host : MemoryHost) (codecs : MemoryCodecs)

/-- A call on the memories: it loads them, and throws where that throws. -/
def memoryAttempt (config : MemoryConfig) (files : MemoryFiles) (call : MemoryCall) :
    MemoryAttempt :=
  match refreshMemoriesUnlocked host codecs config files with
  | none => .rejected
  | some (memories, events) => call.attempt host config memories events

/-- A call on the store. -/
def storeAttempt (config : MemoryConfig) (files : MemoryFiles) : StoreCall → MemoryAttempt
  | .memory call => memoryAttempt host codecs config files call
  | .decide appliedAt proposalId action =>
    match refreshMemoriesUnlocked host codecs config files with
    | none => .rejected
    | some (memories, _) =>
      applyCuratorDecision host codecs config appliedAt proposalId action files memories
  | .propose proposal => ⟨[.repairProposals, .appendProposal proposal], true⟩
  | .look =>
    match refreshMemoriesUnlocked host codecs config files with
    | none => .rejected
    | some _ => ⟨[.repairProposals], true⟩

end Attempts

/-! ## What writes do to the memories -/

section Writes

variable {codecs : MemoryCodecs} {files : MemoryFiles} {inv : MemoryFiles → Prop}
  {ok : MemoryWrite → Prop} {writes : List MemoryWrite}

/-- An invariant of the memories file that one write keeps, done or crashed within, holds of
    whatever a list of such writes leaves. -/
theorem writes_preserve
    (happly : ∀ files write, ok write → inv files → inv (write.apply codecs files))
    (hok : ∀ write ∈ writes, ok write) (h : inv files) : inv (applyWrites codecs files writes) := by
  induction writes generalizing files with
  | nil => exact h
  | cons write rest ih =>
    exact ih (fun other hother => hok other (List.mem_cons_of_mem _ hother))
      (happly files write (hok write List.mem_cons_self) h)

theorem crashStates_preserve {final : MemoryFiles → Prop}
    (happly : ∀ files write, ok write → inv files → inv (write.apply codecs files))
    (hcrash : ∀ files write cut, ok write → inv files → final (write.crash codecs files cut))
    (hfinal : ∀ files, inv files → final files) (hok : ∀ write ∈ writes, ok write) (h : inv files)
    {crashed : MemoryFiles} (hcrashed : crashStates codecs files writes crashed) :
    final crashed := by
  obtain ⟨done, hdone, rfl | ⟨next, cut, hnext, rfl⟩⟩ := hcrashed
  · exact hfinal _ (writes_preserve happly (fun write hwrite => hok write (hdone.subset hwrite)) h)
  · refine hcrash _ next cut (hok next (hnext.subset (by simp))) ?_
    exact writes_preserve happly (fun write hwrite => hok write (hdone.subset hwrite)) h

theorem rows_appendMemory (h : TruncatesTail files.memories) (record : MemoryRecord) :
    rows codecs.memories ((MemoryWrite.appendMemory record).apply codecs files).memories
        = rows codecs.memories files.memories ++ [.record record]
      ∧ Ended ((MemoryWrite.appendMemory record).apply codecs files).memories := by
  have hkept := ended_kept files.memories
  rw [MemoryWrite.apply, repair_eq_kept h]
  refine ⟨?_, ended_appendJsonl _ record⟩
  rw [rows_appendJsonl hkept, rows_kept, codecs.memories_toValue]

/-- A crash within an append leaves the terminated rows, perhaps with the row unterminated, or
    the row terminated. -/
theorem crash_appendMemory (h : TruncatesTail files.memories) (record : MemoryRecord) (cut : Nat) :
    (rows codecs.memories ((MemoryWrite.appendMemory record).crash codecs files cut).memories
          = rows codecs.memories files.memories ∧ (readJsonl codecs.memories
            ((MemoryWrite.appendMemory record).crash codecs files cut).memories
              = rows codecs.memories files.memories ∨ readJsonl codecs.memories
            ((MemoryWrite.appendMemory record).crash codecs files cut).memories
              = rows codecs.memories files.memories ++ [.record record]))
      ∨ (MemoryWrite.appendMemory record).crash codecs files cut
          = (MemoryWrite.appendMemory record).apply codecs files := by
  have hkept := ended_kept files.memories
  dsimp only [MemoryWrite.crash, MemoryWrite.apply]
  rw [repair_eq_kept h]
  rcases @appendJsonlCut_cases _ _ codecs.memories _ hkept record cut with
    ⟨hrows, hnone | hsome⟩ | hdone
  · left
    rw [readJsonl_eq, hrows, rows_kept, hnone]
    exact ⟨rfl, Or.inl (List.append_nil _)⟩
  · left
    rw [readJsonl_eq, hrows, rows_kept, hsome, codecs.memories_toValue]
    exact ⟨rfl, Or.inr rfl⟩
  · right
    rw [hdone]

theorem rows_replaceMemories (memories : List MemoryRecord) :
    rows codecs.memories ((MemoryWrite.replaceMemories memories).apply codecs files).memories
        = memories.map MemoryRow.record
      ∧ Ended ((MemoryWrite.replaceMemories memories).apply codecs files).memories := by
  unfold MemoryWrite.apply
  refine ⟨?_, ended_jsonlContent memories⟩
  rw [rows_jsonlContent]
  exact List.map_congr_left fun record _ => codecs.memories_toValue record

end Writes

end OpencodeSwarm
