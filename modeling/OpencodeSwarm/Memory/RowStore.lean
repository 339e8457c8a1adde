/-
  OpencodeSwarm.Memory.RowStore

  The store as rows, without bytes: while every file ends in a newline, a call on
  the files does to their rows what the same call does to the store of rows.
-/
import OpencodeSwarm.Memory.MemoryCalls

namespace OpencodeSwarm

open Js JsonLines

/-! ## Rows -/

/-- The rows of the three files. -/
structure RowStore where
  memories : List MemoryRow
  proposals : List (Option MemoryProposal)
  events : List (Option MemoryOutcomeEvent)

/-- A store without rows. -/
def RowStore.empty : RowStore := ⟨[], [], []⟩

/-- The files hold these rows, and a newline ends each of them. -/
structure Holds (codecs : MemoryCodecs) (files : MemoryFiles) (store : RowStore) : Prop where
  endedMemories : Ended files.memories
  endedProposals : Ended files.proposals
  endedEvents : Ended files.events
  memories : rows codecs.memories files.memories = store.memories
  proposals : rows codecs.proposals files.proposals = store.proposals
  events : rows codecs.events files.events = store.events

/-- A write, as it changes the rows. -/
def MemoryWrite.onRows (store : RowStore) : MemoryWrite → RowStore
  | repairProposals => store
  | appendMemory record => { store with memories := store.memories ++ [.record record] }
  | appendProposal proposal => { store with proposals := store.proposals ++ [some proposal] }
  | appendEvent event => { store with events := store.events ++ [some event] }
  | replaceEvents events => { store with events := events.map some }
  | replaceMemories memories => { store with memories := memories.map .record }

/-- All writes. -/
def RowStore.write (store : RowStore) (writes : List MemoryWrite) : RowStore :=
  writes.foldl MemoryWrite.onRows store

section Calls

variable (host : MemoryHost)

/-- The memories and events of a store of rows. -/
def RowStore.load (config : MemoryConfig) (store : RowStore) :
    Option (List MemoryRecord × List MemoryOutcomeEvent) :=
  (collectEvents [] (store.events.filterMap fun row => row.bind validateOutcomeEvent)).map
    fun events =>
      (validateMaterializedMemories host config
        (validateLoadedMemories host config store.memories) events, events)

/-- Its proposals. -/
def RowStore.loadProposals (config : MemoryConfig) (store : RowStore) :
    OrderedMap JsString MemoryProposal :=
  (validateLoadedProposals host config store.proposals).foldl
    (fun loaded proposal => OrderedMap.set loaded proposal.id proposal) []

/-- A call on a store of rows. -/
def RowStore.attempt (config : MemoryConfig) (store : RowStore) : StoreCall → MemoryAttempt
  | .memory call =>
    match store.load host config with
    | none => .rejected
    | some (memories, events) => call.attempt host config memories events
  | .decide appliedAt proposalId action =>
    match store.load host config with
    | none => .rejected
    | some (memories, _) =>
      decideOn host config appliedAt proposalId action memories (store.loadProposals host config)
  | .propose proposal => ⟨[.repairProposals, .appendProposal proposal], true⟩
  | .look =>
    match store.load host config with
    | none => .rejected
    | some _ => ⟨[.repairProposals], true⟩

end Calls

/-! ## Simulation -/

section Simulation

variable {host : MemoryHost} {codecs : MemoryCodecs} {files : MemoryFiles} {store : RowStore}

theorem holds_empty : Holds codecs ⟨[], [], []⟩ RowStore.empty := ⟨rfl, rfl, rfl, rfl, rfl, rfl⟩

theorem Holds.apply (h : Holds codecs files store) (write : MemoryWrite) :
    Holds codecs (write.apply codecs files) (write.onRows store) := by
  obtain ⟨hem, hep, hee, hm, hp, he⟩ := h
  cases write with
  | repairProposals =>
    refine ⟨hem, ?_, hee, hm, ?_, he⟩
    · show Ended (repairIncompleteJsonlTail files.proposals)
      rw [repair_of_ended hep]
      exact hep
    · show rows codecs.proposals (repairIncompleteJsonlTail files.proposals) = store.proposals
      rw [repair_of_ended hep]
      exact hp
  | appendMemory record =>
    refine ⟨ended_appendJsonl _ record, hep, hee, ?_, hp, he⟩
    show rows codecs.memories (appendJsonl codecs.memories
      (repairIncompleteJsonlTail files.memories) record) = store.memories ++ [.record record]
    rw [repair_of_ended hem, rows_appendJsonl hem, hm, codecs.memories_toValue]
  | appendProposal proposal =>
    refine ⟨hem, ended_appendJsonl _ proposal, hee, hm, ?_, he⟩
    show rows codecs.proposals (appendJsonl codecs.proposals
      (repairIncompleteJsonlTail files.proposals) proposal) = store.proposals ++ [some proposal]
    rw [repair_of_ended hep, rows_appendJsonl hep, hp, codecs.proposals_toValue]
  | appendEvent event =>
    refine ⟨hem, hep, ended_appendJsonl _ event, hm, hp, ?_⟩
    show rows codecs.events (appendJsonl codecs.events
      (repairIncompleteJsonlTail files.events) event) = store.events ++ [some event]
    rw [repair_of_ended hee, rows_appendJsonl hee, he, codecs.events_toValue]
  | replaceEvents events =>
    refine ⟨hem, hep, ended_jsonlContent events, hm, hp, ?_⟩
    show rows codecs.events (jsonlContent codecs.events events) = events.map some
    rw [rows_jsonlContent]
    exact List.map_congr_left fun event _ => codecs.events_toValue event
  | replaceMemories memories =>
    refine ⟨ended_jsonlContent memories, hep, hee, ?_, hp, he⟩
    show rows codecs.memories (jsonlContent codecs.memories memories) = memories.map .record
    rw [rows_jsonlContent]
    exact List.map_congr_left fun record _ => codecs.memories_toValue record

theorem Holds.applyWrites (h : Holds codecs files store) (writes : List MemoryWrite) :
    Holds codecs (applyWrites codecs files writes) (store.write writes) := by
  induction writes generalizing files store with
  | nil => exact h
  | cons write rest ih => exact ih (h.apply write)

theorem Holds.load (h : Holds codecs files store) (config : MemoryConfig) :
    refreshMemoriesUnlocked host codecs config files = store.load host config := by
  unfold refreshMemoriesUnlocked readOutcomeEventsSync RowStore.load
  rw [h.events, readJsonl_of_ended h.endedMemories, h.memories]

theorem Holds.loadProposals (h : Holds codecs files store) (config : MemoryConfig) :
    OpencodeSwarm.loadProposals host codecs config (repairIncompleteJsonlTail files.proposals)
      = store.loadProposals host config := by
  unfold OpencodeSwarm.loadProposals RowStore.loadProposals
  rw [repair_of_ended h.endedProposals, readJsonl_of_ended h.endedProposals, h.proposals]

theorem Holds.attempt (h : Holds codecs files store) (config : MemoryConfig) (call : StoreCall) :
    storeAttempt host codecs config files call = store.attempt host config call := by
  unfold storeAttempt memoryAttempt RowStore.attempt
  rw [h.load]
  cases call with
  | memory call => rfl
  | propose proposal => rfl
  | look => rfl
  | decide appliedAt proposalId action =>
    cases store.load host config with
    | none => rfl
    | some loaded =>
      unfold applyCuratorDecision
      rw [h.loadProposals]

end Simulation

/-! ## Small stores -/

/-- A host whose hash is made of the length of the text. -/
def plainMemoryHost : MemoryHost where
  sha256 text := decimal (text.length % 10) ++ List.replicate 63 0x30
  toLowerCase := id
  containsSecret _ := false
  parseDate _ := none

/-- A durable fact about a repository. -/
def plainMemory (text : JsString) : MemoryRecord :=
  let scope : MemoryScopeRef := ⟨.repository, none, none, none, some (js "r"), none, none, none, none⟩
  { id := createMemoryId plainMemoryHost scope .projectFact text
    scope := scope
    kind := .projectFact
    text := text
    tags := []
    stability := .durable
    source := ⟨none, none, some (js "a.ts"), none⟩
    createdAt := js "2026-01-01T00:00:00.000Z"
    updatedAt := js "2026-01-01T00:00:00.000Z"
    expiresAt := none
    supersedes := none
    supersededBy := none
    contentHash := computeMemoryContentHash plainMemoryHost scope .projectFact text
    metadata := []
    anchors := none
    outcomes := none }

/-- A pending proposal. -/
def pendingProposal (operation : ProposalOperation) : MemoryProposal where
  id := js "prop_0000000000000001"
  operation := operation
  proposedRecord := none
  targetMemoryId := none
  relatedMemoryIds := none
  status := .pending
  reviewedAt := none
  rejectionReason := none

end OpencodeSwarm
