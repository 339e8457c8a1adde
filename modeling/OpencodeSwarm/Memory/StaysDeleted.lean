/-
  OpencodeSwarm.Memory.StaysDeleted

  A deleted memory stays deleted in every run whose curator decisions write no row
  under the identity of a deleted memory and whose repairs take off tails only:
  every other writer looks for the tombstone first.
-/
import OpencodeSwarm.Lib.Transition
import OpencodeSwarm.Memory.MemoryLines
import OpencodeSwarm.Memory.RowStore

namespace OpencodeSwarm

open Js JsonLines Transition

/-! ## Runs with deletions -/

/-- The store, and the identities whose deletion has returned and that no maintenance has
    removed since. -/
structure DeletionWorld where
  files : MemoryFiles
  deleted : List JsString

/-- A call of a provider that deletes softly, and whether it crashes. -/
structure DeletionLabel where
  rejectDurableSecrets : Bool
  call : StoreCall
  crashes : Bool

def DeletionLabel.config (label : DeletionLabel) : MemoryConfig where
  hardDelete := false
  rejectDurableSecrets := label.rejectDurableSecrets

section Runs

variable (host : MemoryHost) (codecs : MemoryCodecs)

/-- Whether the memories file has a row of an identity. -/
def hasRow (files : MemoryFiles) (id : JsString) : Bool :=
  (readJsonl codecs.memories files.memories).any fun row => row.candidateId = id

/-- The deleted identities behind a call: a deletion that returned adds one, maintenance takes
    off those it has removed from the file. -/
def deletedAfter (returned : Bool) (files : MemoryFiles) (deleted : List JsString) :
    StoreCall → List JsString
  | .memory (.delete _ id _) => if returned then id :: deleted else deleted
  | .memory (.compactMaintenance _ _) => deleted.filter (hasRow codecs files)
  | _ => deleted

/-- One call of any provider, finished or crashed at any point. -/
def deletionStep (s : DeletionWorld) (label : DeletionLabel) (t : DeletionWorld) : Prop :=
  let attempt := storeAttempt host codecs label.config s.files label.call
  (if label.crashes then crashStates codecs s.files attempt.writes t.files
    else t.files = applyWrites codecs s.files attempt.writes)
    ∧ t.deleted
      = deletedAfter codecs (!label.crashes && attempt.returned) t.files s.deleted label.call

/-- No provider shows a deleted memory as active. -/
def StaysDeleted (s : DeletionWorld) : Prop :=
  ∀ id ∈ s.deleted, ∀ config memories events,
    refreshMemoriesUnlocked host codecs config s.files = some (memories, events) →
    ∀ record ∈ memories, record.id = id → record.active = false

/-- The identities under which a decision writes a row that takes the place of another. -/
def decidedIds (memories : List MemoryRecord) : CuratorAction → List JsString
  | .add memory => [memory.id]
  | .update targetMemoryId patch _ =>
    (getMemory memories targetMemoryId).toList.map fun existing =>
      (applyPatchToMemory host existing patch []).id
  | .supersede _ replacement _ => [replacement.id]
  | .merge _ _ | .reject _ | .noop _ => []

/-- A step that keeps clear of the deleted memories: the repair of the memories file takes off
    its tail only, a decision writes under no deleted identity, an upsert of a deleted identity
    finds its tombstone, a deletion finds its memory. -/
def KeepsClear (s : DeletionWorld) (label : DeletionLabel) : Prop :=
  TruncatesTail s.files.memories ∧
  ∀ memories events,
    refreshMemoriesUnlocked host codecs label.config s.files = some (memories, events) →
    match label.call with
    | .decide _ _ action => ∀ id ∈ decidedIds host memories action, id ∉ s.deleted
    | .memory (.upsert _ record) =>
      record.id ∈ s.deleted → (getMemory memories record.id).isSome = true
    | .memory (.delete _ id _) => (getMemory memories id).isSome = true
    | _ => True

end Runs

/-! ## Tombstones -/

/-- The newest row of an identity is a tombstone, if there is one. -/
def TombstoneOrGone (values : List MemoryRow) (id : JsString) : Prop :=
  ∀ row, newestValue MemoryRow.candidateId values id = some row →
    ∃ record, row = .record record ∧ record.deleted = true

/-- So it is for every deleted identity, with the unterminated row and without it. -/
def TombstonesStand (codecs : MemoryCodecs) (deleted : List JsString) (files : MemoryFiles) :
    Prop :=
  ∀ id ∈ deleted, TombstoneOrGone (rows codecs.memories files.memories) id
    ∧ TombstoneOrGone (readJsonl codecs.memories files.memories) id

theorem TombstoneOrGone.concat {values : List MemoryRow} {id : JsString} {record : MemoryRecord}
    (h : TombstoneOrGone values id) (hrecord : record.id = id → record.deleted = true) :
    TombstoneOrGone (values ++ [.record record]) id := by
  intro row hrow
  rw [newestValue_concat] at hrow
  split at hrow
  · rename_i hsame
    cases hrow
    exact ⟨record, rfl, hrecord hsame⟩
  · exact h row hrow

section Steps

variable {host : MemoryHost} {codecs : MemoryCodecs} {deleted : List JsString}
  {memories : List MemoryRecord} {events : List MemoryOutcomeEvent} {files : MemoryFiles}
  {record : MemoryRecord}

theorem deleted_of_tombstonesStand (h : TombstonesStand codecs deleted files)
    {config : MemoryConfig}
    (hload : refreshMemoriesUnlocked host codecs config files = some (memories, events))
    (hrecord : record ∈ memories) (hid : record.id ∈ deleted) : record.deleted = true := by
  obtain ⟨-, rfl⟩ := mem_of_refresh hload
  obtain ⟨base, hnewest, -, rfl, -⟩ := mem_validateMaterializedMemories.mp hrecord
  rw [materializeOutcomeRecord_id] at hid
  obtain ⟨stored, heq, hdeleted⟩ := (h base.id hid).2 _ hnewest
  cases heq
  rw [materializeOutcomeRecord_deleted]
  exact hdeleted

variable {s : DeletionWorld}

theorem staysDeleted_of_tombstonesStand (h : TombstonesStand codecs s.deleted s.files) :
    StaysDeleted host codecs s := by
  intro id hid config memories events hload record hrecord hsame
  have hdeleted := deleted_of_tombstonesStand h hload hrecord (hsame ▸ hid)
  rw [MemoryRecord.active, hdeleted]
  rfl

/-- A write that puts a tombstone wherever it writes under a deleted identity. -/
def RespectsDeleted (deleted : List JsString) : MemoryWrite → Prop
  | .appendMemory record => record.id ∈ deleted → record.deleted = true
  | .replaceMemories memories =>
    ∀ record ∈ memories, record.id ∈ deleted → record.deleted = true
  | _ => True

/-- What such writes keep. -/
def Standing (codecs : MemoryCodecs) (deleted : List JsString) (files : MemoryFiles) : Prop :=
  TombstonesStand codecs deleted files ∧ TruncatesTail files.memories

theorem standing_of_ended (hended : Ended files.memories)
    (h : ∀ id ∈ deleted, TombstoneOrGone (rows codecs.memories files.memories) id) :
    Standing codecs deleted files := by
  refine ⟨?_, Or.inl hended⟩
  intro id hid
  rw [readJsonl_of_ended hended]
  exact ⟨h id hid, h id hid⟩

theorem standing_apply (files : MemoryFiles) (write : MemoryWrite)
    (hrespects : RespectsDeleted deleted write) (h : Standing codecs deleted files) :
    Standing codecs deleted (write.apply codecs files) := by
  cases write with
  | repairProposals | appendProposal proposal | appendEvent event | replaceEvents events => exact h
  | appendMemory record =>
    obtain ⟨hrows, hended⟩ := @rows_appendMemory codecs files h.2 record
    apply standing_of_ended hended
    intro id hid
    rw [hrows]
    exact (h.1 id hid).1.concat fun hsame => hrespects (hsame ▸ hid)
  | replaceMemories memories =>
    obtain ⟨hrows, hended⟩ := @rows_replaceMemories codecs files memories
    apply standing_of_ended hended
    intro id hid row hrow
    rw [hrows] at hrow
    obtain ⟨record, hrecord, rfl⟩ := List.mem_map.mp (mem_of_newestValue hrow)
    have hcandidate : (MemoryRow.record record).candidateId = id := idOf_of_newestValue hrow
    have hsame : record.id = id := hcandidate
    exact ⟨record, rfl, hrespects record hrecord (hsame ▸ hid)⟩

theorem tombstonesStand_crash (files : MemoryFiles) (write : MemoryWrite) (cut : Nat)
    (hrespects : RespectsDeleted deleted write) (h : Standing codecs deleted files) :
    TombstonesStand codecs deleted (write.crash codecs files cut) := by
  cases write with
  | repairProposals | appendProposal proposal | appendEvent event | replaceEvents events
  | replaceMemories memories => exact h.1
  | appendMemory record =>
    rcases @crash_appendMemory codecs files h.2 record cut with ⟨hrows, hread⟩ | hdone
    · intro id hid
      have hbefore := (h.1 id hid).1
      rw [hrows]
      refine ⟨hbefore, ?_⟩
      rcases hread with hread | hread
      · rw [hread]
        exact hbefore
      · rw [hread]
        exact hbefore.concat fun hsame => hrespects (hsame ▸ hid)
    · rw [hdone]
      exact (standing_apply files _ hrespects h).1

/-! ## The writers -/

theorem respects_of_map_appendEvent :
    ∀ write ∈ events.map MemoryWrite.appendEvent, RespectsDeleted deleted write := by
  intro write hwrite
  obtain ⟨event, -, rfl⟩ := List.mem_map.mp hwrite
  exact trivial

theorem respects_rewriteMemoryFamily
    (h : ∀ record ∈ memories, record.id ∈ deleted → record.deleted = true)
    (events : List MemoryOutcomeEvent) :
    ∀ write ∈ rewriteMemoryFamily memories events, RespectsDeleted deleted write := by
  intro write hwrite
  rcases List.mem_cons.mp hwrite with rfl | hrest
  · exact trivial
  · rw [List.mem_singleton.mp hrest]
    intro record hrecord hid
    obtain ⟨loaded, hloaded, rfl⟩ := List.mem_map.mp hrecord
    rw [stripMaterializedOutcomes_deleted]
    exact h loaded hloaded hid

theorem respects_upsertBaseRow {config : MemoryConfig} {added : List MemoryOutcomeEvent}
    {parsed : MemoryRecord} (h : parsed.id ∉ deleted) :
    ∀ write ∈ (upsertBaseRow host config events added parsed).writes,
      RespectsDeleted deleted write := by
  intro write hwrite
  dsimp only [upsertBaseRow] at hwrite
  split at hwrite
  · rcases List.mem_append.mp hwrite with hevent | hmemory
    · exact respects_of_map_appendEvent write hevent
    · rw [List.mem_singleton.mp hmemory]
      exact fun hdeleted => absurd hdeleted h
  · exact respects_of_map_appendEvent write hwrite

theorem ensureOutcomeGeneration_id (fresh : JsString) (record : MemoryRecord) :
    (ensureOutcomeGeneration fresh record).id = record.id := by
  unfold ensureOutcomeGeneration
  split <;> rfl

variable {fresh : JsString}

theorem respects_upsert {config : MemoryConfig} (h : record.id ∉ deleted) :
    ∀ write ∈ (upsert host config fresh record memories events).writes,
      RespectsDeleted deleted write := by
  have hcandidate : (upsertCandidate (getMemory memories record.id) record).id ∉ deleted := h
  intro write hwrite
  dsimp only [upsert] at hwrite
  generalize upsertCandidate (getMemory memories record.id) record = candidate
    at hcandidate hwrite
  have hparsed : (if candidate.outcomeList ≠ [] ∨ candidate.outcomeGeneration?.isSome then
      ensureOutcomeGeneration fresh candidate else candidate).id ∉ deleted := by
    split
    · rw [ensureOutcomeGeneration_id]
      exact hcandidate
    · exact hcandidate
  generalize (if candidate.outcomeList ≠ [] ∨ candidate.outcomeGeneration?.isSome then
      ensureOutcomeGeneration fresh candidate else candidate) = parsed at hparsed hwrite
  split at hwrite
  · cases hwrite
  split at hwrite
  · cases hwrite
  split at hwrite
  · exact respects_upsertBaseRow hparsed write hwrite
  split at hwrite
  · cases hwrite
  split at hwrite
  · cases hwrite
  · exact respects_upsertBaseRow hparsed write hwrite

variable {memoryId eventId : JsString} {outcome : MemoryOutcome} {anchors : List MemoryAnchor}

/-- What an outcome appends: its event, before it the row of the memory if that gets a
    generation. -/
theorem mem_appendOutcome {config : MemoryConfig} {write : MemoryWrite}
    (hwrite : write ∈ (appendOutcome host config fresh memoryId eventId outcome anchors memories
      events).writes) :
    ∃ persisted, getMemory memories memoryId = some persisted ∧ persisted.deleted = false
      ∧ (write = .appendMemory (stripMaterializedOutcomes (stripMaterializedOutcomes
          (ensureOutcomeGeneration fresh persisted))) ∨ ∃ event, write = .appendEvent event) := by
  unfold appendOutcome at hwrite
  split at hwrite
  · cases hwrite
  rename_i persisted hpersisted
  refine ⟨persisted, hpersisted, ?_⟩
  by_cases hlive : persisted.deleted = true
  · rw [if_pos hlive] at hwrite
    cases hwrite
  · rw [if_neg hlive] at hwrite
    refine ⟨Bool.eq_false_iff.mpr hlive, ?_⟩
    dsimp only at hwrite
    split at hwrite
    · cases hwrite
    rename_i nextEvent _
    generalize findEvent events nextEvent.id = prior at hwrite
    generalize (if prior.isSome = true then events else events ++ [nextEvent]) = shown
      at hwrite
    by_cases hcompatible : (!eventIdentityCompatible prior nextEvent) = true
    · rw [if_pos hcompatible] at hwrite
      cases hwrite
    · rw [if_neg hcompatible] at hwrite
      split at hwrite
      · cases hwrite
      split at hwrite
      · cases hwrite
      rcases List.mem_append.mp hwrite with hmemory | hevent
      · left
        split at hmemory
        · exact List.mem_singleton.mp hmemory
        · cases hmemory
      · right
        split at hevent
        · cases hevent
        · exact ⟨nextEvent, List.mem_singleton.mp hevent⟩

theorem respects_appendOutcome {config : MemoryConfig}
    (h : ∀ record ∈ memories, record.id ∈ deleted → record.deleted = true) :
    ∀ write ∈ (appendOutcome host config fresh memoryId eventId outcome anchors memories
      events).writes, RespectsDeleted deleted write := by
  intro write hwrite
  obtain ⟨persisted, hpersisted, hlive, rfl | ⟨event, rfl⟩⟩ := mem_appendOutcome hwrite
  · intro hdeleted
    have hid : persisted.id ∈ deleted := by
      rw [← ensureOutcomeGeneration_id fresh persisted]
      exact hdeleted
    rw [h persisted (mem_of_getMemory hpersisted) hid] at hlive
    cases hlive
  · exact trivial

theorem deleteTombstone_deleted (now : JsString) (reason : Option JsString)
    (existing : MemoryRecord) : (deleteTombstone now reason existing).deleted = true := by
  unfold MemoryRecord.deleted deleteTombstone
  cases reason with
  | none =>
    rw [OrderedMap.get?_erase, if_neg (by decide), OrderedMap.get?_set, if_pos rfl]
  | some reason =>
    rw [OrderedMap.get?_set, if_neg (by decide), OrderedMap.get?_set, if_pos rfl]

variable {appliedAt : JsString} {action : CuratorAction}

/-- The rows of a decision: new rows stand under decided identities, rows of an old memory under
    an active one. -/
theorem respects_decisionRows {config : MemoryConfig} {proposals : List MemoryProposal}
    {decided : List MemoryRecord}
    (h : ∀ record ∈ memories, record.id ∈ deleted → record.deleted = true)
    (hids : ∀ id ∈ decidedIds host memories action, id ∉ deleted)
    (hrows : decisionRows host config appliedAt memories proposals action = some decided) :
    ∀ record ∈ decided, record.id ∉ deleted := by
  have hactive : ∀ id existing, activeMemory memories id = some existing →
      getMemory memories id = some existing ∧ existing.id ∉ deleted := by
    intro id existing hexisting
    obtain ⟨hget, hlive⟩ := Option.filter_eq_some_iff.mp hexisting
    refine ⟨hget, fun hmem => ?_⟩
    have hdeleted := h existing (mem_of_getMemory hget) hmem
    rw [MemoryRecord.active, hdeleted] at hlive
    cases hlive
  unfold decisionRows at hrows
  cases action with
  | add memory =>
    dsimp only at hrows
    split at hrows
    · cases hrows
      intro record hrecord
      rw [List.mem_singleton.mp hrecord]
      exact hids memory.id List.mem_cons_self
    · cases hrows
  | update targetMemoryId patch reason =>
    obtain ⟨existing, hexisting, hthen⟩ := Option.bind_eq_some_iff.mp hrows
    obtain ⟨hget, hold⟩ := hactive targetMemoryId existing hexisting
    have hupdated : (applyPatchToMemory host existing patch appliedAt).id ∉ deleted := by
      refine hids _ ?_
      show _ ∈ (getMemory memories targetMemoryId).toList.map fun existing =>
        (applyPatchToMemory host existing patch []).id
      rw [hget]
      exact List.mem_cons_self
    dsimp only at hthen
    split at hthen
    · split at hthen
      · split at hthen
        · cases hthen
          intro record hrecord
          rcases List.mem_cons.mp hrecord with rfl | hlast
          · exact hold
          · rw [List.mem_singleton.mp hlast]
            exact hupdated
        · cases hthen
      · cases hthen
        intro record hrecord
        rw [List.mem_singleton.mp hrecord]
        exact hupdated
    · cases hthen
  | supersede oldMemoryId replacement reason =>
    obtain ⟨old, hold, hthen⟩ := Option.bind_eq_some_iff.mp hrows
    have hnotDeleted := (hactive oldMemoryId old hold).2
    dsimp only at hthen
    split at hthen
    · split at hthen
      · cases hthen
        intro record hrecord
        rcases List.mem_cons.mp hrecord with rfl | hlast
        · exact hnotDeleted
        · rw [List.mem_singleton.mp hlast]
          exact hids replacement.id List.mem_cons_self
      · cases hthen
    · cases hthen
  | merge relatedMemoryIds reason =>
    dsimp only at hrows
    split at hrows
    · cases hrows
      exact List.forall_mem_nil _
    · cases hrows
  | reject reason | noop reason =>
    cases hrows
    exact List.forall_mem_nil _

theorem respects_applyCuratorDecision {config : MemoryConfig} {proposalId : JsString}
    (h : ∀ record ∈ memories, record.id ∈ deleted → record.deleted = true)
    (hids : ∀ id ∈ decidedIds host memories action, id ∉ deleted) :
    ∀ write ∈ (applyCuratorDecision host codecs config appliedAt proposalId action files
      memories).writes, RespectsDeleted deleted write := by
  have hrejected : ∀ write ∈ [MemoryWrite.repairProposals], RespectsDeleted deleted write := by
    intro write hwrite
    rw [List.mem_singleton.mp hwrite]
    exact trivial
  intro write hwrite
  unfold applyCuratorDecision decideOn at hwrite
  split at hwrite
  · exact hrejected write hwrite
  split at hwrite
  · exact hrejected write hwrite
  split at hwrite
  · exact hrejected write hwrite
  split at hwrite
  · exact hrejected write hwrite
  rename_i decided hdecided
  have hrows := respects_decisionRows h hids hdecided
  rcases List.mem_append.mp hwrite with hbefore | hlast
  · rcases List.mem_cons.mp hbefore with rfl | hmemory
    · exact trivial
    · obtain ⟨record, hrecord, rfl⟩ := List.mem_map.mp hmemory
      exact fun hdeleted => absurd hdeleted (hrows record hrecord)
  · rw [List.mem_singleton.mp hlast]
    exact trivial

theorem respects_memoryCall {config : MemoryConfig} (hsoft : config.hardDelete = false)
    (h : ∀ record ∈ memories, record.id ∈ deleted → record.deleted = true) (call : MemoryCall)
    (hguard : ∀ fresh record, call = .upsert fresh record → record.id ∈ deleted →
      (getMemory memories record.id).isSome = true) :
    ∀ write ∈ (call.attempt host config memories events).writes, RespectsDeleted deleted write := by
  intro write hwrite
  cases call with
  | upsert fresh record =>
    by_cases hid : record.id ∈ deleted
    · -- the tombstone is loaded, and the upsert looks for it first
      obtain ⟨existing, hexisting⟩ := Option.isSome_iff_exists.mp (hguard fresh record rfl hid)
      have htombstone := h existing (mem_of_getMemory hexisting)
        (id_of_getMemory hexisting ▸ hid)
      have hfirst : (getMemory memories record.id).any MemoryRecord.deleted = true := by
        rw [hexisting]
        exact htombstone
      dsimp only [MemoryCall.attempt, upsert] at hwrite
      rw [if_pos hfirst] at hwrite
      cases hwrite
    · exact respects_upsert hid write hwrite
  | appendOutcome fresh memoryId eventId outcome anchors =>
    exact respects_appendOutcome h write hwrite
  | delete now id reason =>
    dsimp only [MemoryCall.attempt, deleteMemory] at hwrite
    cases hexisting : getMemory memories id with
    | none =>
      rw [hexisting] at hwrite
      cases hwrite
    | some existing =>
      rw [hexisting] at hwrite
      dsimp only at hwrite
      rw [hsoft, if_neg Bool.false_ne_true] at hwrite
      rw [List.mem_singleton.mp hwrite]
      intro _
      rw [stripMaterializedOutcomes_deleted]
      exact deleteTombstone_deleted now reason existing
  | compact => exact respects_rewriteMemoryFamily h events write hwrite
  | compactMaintenance now dryRun =>
    dsimp only [MemoryCall.attempt, OpencodeSwarm.compactMaintenance] at hwrite
    split at hwrite
    · cases hwrite
    refine respects_rewriteMemoryFamily ?_ events write hwrite
    exact fun record hrecord => h record (List.mem_filter.mp hrecord).1

variable {label : DeletionLabel}

/-- Every call that keeps clear puts tombstones wherever it writes under a deleted identity. -/
theorem respects_storeAttempt (h : TombstonesStand codecs s.deleted s.files)
    (hclear : KeepsClear host codecs s label) :
    ∀ write ∈ (storeAttempt host codecs label.config s.files label.call).writes,
      RespectsDeleted s.deleted write := by
  have hdeleted : ∀ memories events,
      refreshMemoriesUnlocked host codecs label.config s.files = some (memories, events) →
      ∀ record ∈ memories, record.id ∈ s.deleted → record.deleted = true :=
    fun memories events hload record hrecord hid =>
      deleted_of_tombstonesStand h hload hrecord hid
  have hguard := hclear.2
  intro write hwrite
  unfold storeAttempt memoryAttempt at hwrite
  cases hcall : label.call with
  | memory call =>
    rw [hcall] at hwrite hguard
    dsimp only at hwrite
    split at hwrite
    · cases hwrite
    rename_i memories events hload
    refine respects_memoryCall rfl (hdeleted memories events hload) call ?_ write hwrite
    rintro fresh record rfl
    exact hguard memories events hload
  | decide appliedAt proposalId action =>
    rw [hcall] at hwrite hguard
    dsimp only at hwrite
    split at hwrite
    · cases hwrite
    rename_i memories events hload
    exact respects_applyCuratorDecision (hdeleted memories events hload)
      (hguard memories events hload) write hwrite
  | propose proposal =>
    rw [hcall] at hwrite
    rcases List.mem_cons.mp hwrite with rfl | hlast
    · exact trivial
    · rw [List.mem_singleton.mp hlast]
      exact trivial
  | look =>
    rw [hcall] at hwrite
    dsimp only at hwrite
    split at hwrite
    · cases hwrite
    rw [List.mem_singleton.mp hwrite]
    exact trivial

/-! ## Runs -/

/-- Behind a deletion that has returned the newest row is the tombstone. -/
theorem tombstoneOrGone_of_delete {now id : JsString} {reason : Option JsString}
    (htail : TruncatesTail s.files.memories) (hcall : label.call = .memory (.delete now id reason))
    (hclear : KeepsClear host codecs s label)
    (hreturned : (storeAttempt host codecs label.config s.files label.call).returned = true) :
    let files := applyWrites codecs s.files
      (storeAttempt host codecs label.config s.files label.call).writes
    TombstoneOrGone (rows codecs.memories files.memories) id ∧ Ended files.memories := by
  dsimp only
  have hguard := hclear.2
  rw [hcall] at hguard hreturned ⊢
  unfold storeAttempt memoryAttempt at hreturned ⊢
  cases hload : refreshMemoriesUnlocked host codecs label.config s.files with
  | none =>
    rw [hload] at hreturned
    cases hreturned
  | some loaded =>
    obtain ⟨memories, events⟩ := loaded
    obtain ⟨existing, hexisting⟩ := Option.isSome_iff_exists.mp (hguard memories events hload)
    dsimp only
    dsimp only [MemoryCall.attempt, deleteMemory]
    rw [hexisting]
    dsimp only
    rw [if_neg (by exact Bool.false_ne_true)]
    obtain ⟨hrows, hended⟩ := @rows_appendMemory codecs s.files htail
      (stripMaterializedOutcomes (deleteTombstone now reason existing))
    refine ⟨?_, hended⟩
    show TombstoneOrGone (rows codecs.memories
      ((MemoryWrite.appendMemory _).apply codecs s.files).memories) id
    rw [hrows]
    intro row hrow
    have hid : existing.id = id := id_of_getMemory hexisting
    have hsame : (MemoryRow.record (stripMaterializedOutcomes
        (deleteTombstone now reason existing))).candidateId = id := hid
    rw [newestValue_concat, if_pos hsame] at hrow
    cases hrow
    refine ⟨_, rfl, ?_⟩
    rw [stripMaterializedOutcomes_deleted]
    exact deleteTombstone_deleted now reason existing

theorem tombstonesStand_step {t : DeletionWorld} (hstep : deletionStep host codecs s label t)
    (hclear : KeepsClear host codecs s label) (h : TombstonesStand codecs s.deleted s.files) :
    TombstonesStand codecs t.deleted t.files := by
  obtain ⟨hfiles, hdeleted⟩ := hstep
  have hrespects := respects_storeAttempt h hclear
  have hkept : TombstonesStand codecs s.deleted t.files := by
    by_cases hcrashes : label.crashes = true
    · rw [if_pos hcrashes] at hfiles
      have hstanding : Standing codecs s.deleted s.files := ⟨h, hclear.1⟩
      exact crashStates_preserve standing_apply tombstonesStand_crash
        (fun _ hkept => hkept.1) hrespects hstanding hfiles
    · rw [if_neg hcrashes] at hfiles
      rw [hfiles]
      exact (writes_preserve standing_apply hrespects ⟨h, hclear.1⟩).1
  have hsub : ∀ id ∈ t.deleted, id ∉ s.deleted →
      ∃ now reason, label.call = .memory (.delete now id reason) ∧ label.crashes = false
        ∧ (storeAttempt host codecs label.config s.files label.call).returned = true := by
    intro id hid hnew
    rw [hdeleted] at hid
    unfold deletedAfter at hid
    split at hid
    · rename_i now other reason hcall
      split at hid
      · rename_i hreturned
        rw [Bool.and_eq_true, Bool.not_eq_true'] at hreturned
        rcases List.mem_cons.mp hid with rfl | hold
        · exact ⟨now, reason, hcall, hreturned.1, hreturned.2⟩
        · exact absurd hold hnew
      · exact absurd hid hnew
    · exact absurd (List.mem_filter.mp hid).1 hnew
    · exact absurd hid hnew
  intro id hid
  by_cases hold : id ∈ s.deleted
  · exact hkept id hold
  obtain ⟨now, reason, hcall, hcrashes, hreturned⟩ := hsub id hid hold
  rw [hcrashes, if_neg Bool.false_ne_true] at hfiles
  rw [hfiles]
  obtain ⟨hgone, hended⟩ := tombstoneOrGone_of_delete hclear.1 hcall hclear hreturned
  rw [readJsonl_of_ended hended]
  exact ⟨hgone, hgone⟩

end Steps

/-- In a run whose steps keep clear of the deleted memories, these stay deleted. -/
theorem staysDeleted_of_run (host : MemoryHost) (codecs : MemoryCodecs) {files : MemoryFiles}
    {labels : List DeletionLabel} {t : DeletionWorld}
    (hrun : Run (Guarded (deletionStep host codecs) (KeepsClear host codecs)) ⟨files, []⟩ labels t) :
    StaysDeleted host codecs t := by
  apply staysDeleted_of_tombstonesStand
  have hpreserved := @Run.preserves _ _ (Guarded (deletionStep host codecs)
    (KeepsClear host codecs)) (fun s => TombstonesStand codecs s.deleted s.files)
    (fun s label t hstep h => tombstonesStand_step hstep.1 hstep.2 h) _ _ _ hrun
  exact hpreserved fun id hid => absurd hid List.not_mem_nil

/-! ## Runs of rows -/

/-- A store of rows with its deleted identities. -/
structure DeletionRows where
  store : RowStore
  deleted : List JsString

/-- A call that finishes, on the rows. -/
def deletionRows (host : MemoryHost) (s : DeletionRows) (label : DeletionLabel) : DeletionRows :=
  let attempt := s.store.attempt host label.config label.call
  let store := s.store.write attempt.writes
  ⟨store, match label.call with
    | .memory (.delete _ id _) => if attempt.returned then id :: s.deleted else s.deleted
    | .memory (.compactMaintenance _ _) =>
      s.deleted.filter fun id => store.memories.any fun row => row.candidateId = id
    | _ => s.deleted⟩

/-- `KeepsClear`, of rows. -/
def rowsKeepClear (host : MemoryHost) (s : DeletionRows) (label : DeletionLabel) : Bool :=
  match s.store.load host label.config with
  | none => true
  | some (memories, _) =>
    match label.call with
    | .decide _ _ action => (decidedIds host memories action).all fun id => id ∉ s.deleted
    | .memory (.upsert _ record) => record.id ∉ s.deleted || (getMemory memories record.id).isSome
    | .memory (.delete _ id _) => (getMemory memories id).isSome
    | _ => true

/-- The files and the identities of a world, as rows. -/
def SameDeletions (codecs : MemoryCodecs) (s : DeletionWorld) (c : DeletionRows) : Prop :=
  Holds codecs s.files c.store ∧ s.deleted = c.deleted

section Rows

variable {host : MemoryHost} {codecs : MemoryCodecs} {c : DeletionRows}

theorem exists_deletionStep {s : DeletionWorld} {label : DeletionLabel}
    (h : SameDeletions codecs s c) (hfinishes : label.crashes = false) :
    ∃ t, deletionStep host codecs s label t
      ∧ SameDeletions codecs t (deletionRows host c label) := by
  obtain ⟨hholds, hdeleted⟩ := h
  have hattempt := @Holds.attempt host codecs _ _ hholds label.config label.call
  let attempt := c.store.attempt host label.config label.call
  let files := applyWrites codecs s.files attempt.writes
  have hafter : Holds codecs files (deletionRows host c label).store :=
    hholds.applyWrites attempt.writes
  refine ⟨⟨files, deletedAfter codecs attempt.returned files s.deleted label.call⟩, ⟨?_, ?_⟩,
    hafter, ?_⟩
  · rw [hfinishes, if_neg Bool.false_ne_true, hattempt]
  · rw [hfinishes, hattempt, Bool.not_false, Bool.true_and]
  · have hrow : hasRow codecs files = fun id =>
        (deletionRows host c label).store.memories.any fun row => row.candidateId = id := by
      unfold hasRow
      rw [readJsonl_of_ended hafter.endedMemories, hafter.memories]
    unfold deletedAfter
    rw [hrow, hdeleted]
    rfl

theorem keepsClear_of_rows {s : DeletionWorld} {label : DeletionLabel}
    (h : SameDeletions codecs s c) (hclear : rowsKeepClear host c label = true) :
    KeepsClear host codecs s label := by
  obtain ⟨hholds, hdeleted⟩ := h
  refine ⟨Or.inl hholds.endedMemories, ?_⟩
  intro memories events hload
  rw [hholds.load] at hload
  rw [rowsKeepClear, hload] at hclear
  rw [hdeleted]
  split
  · rename_i action hcall
    rw [hcall] at hclear
    intro id hid
    exact of_decide_eq_true (List.all_eq_true.mp hclear id hid)
  · rename_i record hcall
    rw [hcall] at hclear
    intro hmem
    rcases Bool.or_eq_true _ _ |>.mp hclear with hnot | hsome
    · exact absurd hmem (of_decide_eq_true hnot)
    · exact hsome
  · rename_i id reason hcall
    rw [hcall] at hclear
    exact hclear
  · exact trivial

end Rows

/-- The finished calls of one provider. -/
def finishes (call : StoreCall) : DeletionLabel := ⟨true, call, false⟩

/-- A memory is stored, deleted and stored again, which is refused. -/
def deletedMemory : MemoryRecord := plainMemory (js "builds with bun")

def storeAgain : List DeletionLabel :=
  [finishes (.memory (.upsert (js "g") deletedMemory)),
    finishes (.memory (.delete (js "2026-01-02T00:00:00.000Z") deletedMemory.id none)),
    finishes (.memory (.upsert (js "h") deletedMemory))]

theorem staysDeleted_storeAgain :
    ∃ t, t.deleted = [deletedMemory.id] ∧ StaysDeleted plainMemoryHost memoryCodecs t := by
  have halong : Along (deletionRows plainMemoryHost)
      (fun c label => label.crashes = false ∧ rowsKeepClear plainMemoryHost c label = true)
      ⟨RowStore.empty, []⟩ storeAgain := by decide +kernel
  obtain ⟨t, hrun, -, hdeleted⟩ := @Run.of_simulation _ _
    (Guarded (deletionStep plainMemoryHost memoryCodecs) (KeepsClear plainMemoryHost memoryCodecs)) _
    (SameDeletions memoryCodecs) _ _
    (fun s c label hsame hguard => by
      obtain ⟨t, hstep, ht⟩ := exists_deletionStep hsame hguard.1
      exact ⟨t, ⟨hstep, keepsClear_of_rows hsame hguard.2⟩, ht⟩)
    storeAgain ⟨⟨[], [], []⟩, []⟩ ⟨RowStore.empty, []⟩ ⟨holds_empty, rfl⟩ halong
  refine ⟨t, ?_, staysDeleted_of_run plainMemoryHost memoryCodecs hrun⟩
  rw [hdeleted]
  decide +kernel

/-- A memory is stored and deleted; then a proposal to add it is decided. -/
def decideAgain : List DeletionLabel :=
  [finishes (.memory (.upsert (js "g") deletedMemory)),
    finishes (.memory (.delete (js "2026-01-02T00:00:00.000Z") deletedMemory.id none)),
    finishes (.propose (pendingProposal .add)),
    finishes (.decide (js "2026-01-03T00:00:00.000Z") (pendingProposal .add).id
      (.add deletedMemory))]

/-- The decision to add a memory that was deleted makes it active again. -/
theorem not_staysDeleted_decideAgain :
    ¬ ∀ (host : MemoryHost) (codecs : MemoryCodecs) (labels : List DeletionLabel)
      (t : DeletionWorld),
      Run (deletionStep host codecs) ⟨⟨[], [], []⟩, []⟩ labels t → StaysDeleted host codecs t := by
  intro hall
  have halong : Along (deletionRows plainMemoryHost) (fun _ label => label.crashes = false)
      ⟨RowStore.empty, []⟩ decideAgain := by decide +kernel
  obtain ⟨t, hrun, hholds, hdeleted⟩ := @Run.of_simulation _ _
    (deletionStep plainMemoryHost memoryCodecs) _ (SameDeletions memoryCodecs) _ _
    (fun s c label hsame hfinishes => exists_deletionStep hsame hfinishes)
    decideAgain ⟨⟨[], [], []⟩, []⟩ ⟨RowStore.empty, []⟩ ⟨holds_empty, rfl⟩ halong
  have hstays := hall plainMemoryHost memoryCodecs decideAgain t hrun
  -- what the last reader sees
  have hshown : ((decideAgain.foldl (deletionRows plainMemoryHost) ⟨RowStore.empty, []⟩).store.load
      plainMemoryHost ⟨false, true⟩).any (fun loaded => loaded.1.any fun record =>
        record.id = deletedMemory.id && record.active) = true := by decide +kernel
  have hmember : deletedMemory.id ∈ t.deleted := by
    rw [hdeleted]
    decide +kernel
  obtain ⟨⟨memories, events⟩, hload, hany⟩ := (Option.any_eq_true _ _).mp hshown
  obtain ⟨record, hrecord, hactive⟩ := List.any_eq_true.mp hany
  rw [Bool.and_eq_true, decide_eq_true_iff] at hactive
  rw [← hholds.load] at hload
  have hnot := hstays deletedMemory.id hmember _ memories events hload record hrecord hactive.1
  rw [hactive.2] at hnot
  cases hnot

end OpencodeSwarm
