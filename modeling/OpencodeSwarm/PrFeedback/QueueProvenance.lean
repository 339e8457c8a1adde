/-
  OpencodeSwarm.PrFeedback.QueueProvenance

  Whose fields the queue shows.  The sidecar of a mutation that crashed before its
  primary record waits at the next revision; a mutation of an older version takes
  that revision, and where its events share a dedup token with the waiting
  sidecar, they show fields nobody wrote for them.
-/
import OpencodeSwarm.Lib.Json
import OpencodeSwarm.Lib.Transition
import OpencodeSwarm.PrFeedback.EventQueue

namespace OpencodeSwarm

open Js Transition

/-! ## Runs -/

/-- The two files of a session.  The rest is history: the record, extended fields
    included, of the mutation that wrote the primary one, the number of mutations,
    the head each of them enqueued its event with, and the owners that claims gave
    to events, by origin. -/
structure QueueWorld where
  primary : Option PrFeedbackQueueRecord
  sidecar : Option QueueMetadataRecord
  writer : Option PrFeedbackQueueRecord
  mutations : Nat
  enqueuedHead : Nat → Option JsString
  claimedOwners : List (Nat × Nat)

inductive QueueEvent where
  /-- A mutation of this version, which may crash between its two writes. -/
  | mutate (mutation : QueueMutation) (crashes : Bool)
  /-- A mutation of an older version, which writes these events. -/
  | olderMutate (events : List PrFeedbackMonitorEvent)

/-- The head a mutation enqueues its event with. -/
def QueueMutation.head : QueueMutation → Option JsString
  | .enqueue input => input.headRefOid
  | _ => none

/-- The owners a mutation gives to the events it claims, by origin. -/
def QueueMutation.owners (host : QueueHost) :
    QueueMutation → Option PrFeedbackQueueRecord → List (Nat × Nat)
  | .claim request, some record =>
      (record.events.filter (request.takes host)).map fun event => (event.origin, request.ownerPid)
  | _, _ => []

/-- What an older version may write: events of its own shape, each of them one of
    the primary record's or its own. -/
def OlderWrites (host : QueueHost) (w : QueueWorld) (events : List PrFeedbackMonitorEvent) : Prop :=
  (events.map PrFeedbackMonitorEvent.dedupToken).Nodup
    ∧ (∀ event ∈ events, event.wellFormed host = true ∧ event.isDiskShaped = true
        ∧ (event.origin = w.mutations
          ∨ ∃ record ∈ w.primary, ∃ old ∈ record.events, old.origin = event.origin))
    ∧ events.length ≤ maxPrFeedbackMonitorEvents

section Step

variable (host : QueueHost) (sessionID : JsString)

/-- The record an older version writes. -/
def olderRecord (w : QueueWorld) (events : List PrFeedbackMonitorEvent) : PrFeedbackQueueRecord :=
  let current := w.primary.getD { revision := 0, sessionID := sessionID, events := [] }
  { current with revision := current.revision + 1, events := events }

/-- A mutation of this version that reads `current` and writes `next`. -/
def QueueWorld.write (w : QueueWorld) (mutation : QueueMutation)
    (current : Option PrFeedbackQueueRecord) (next : PrFeedbackQueueRecord) (crashes : Bool) :
    QueueWorld where
  primary := if crashes then w.primary else some next.onDisk
  sidecar := some next.metadata
  writer := if crashes then w.writer else some next
  mutations := w.mutations + 1
  enqueuedHead := Function.update w.enqueuedHead w.mutations mutation.head
  claimedOwners :=
    if crashes then w.claimedOwners else mutation.owners host current ++ w.claimedOwners

/-- An older mutation. -/
def QueueWorld.writeOlder (w : QueueWorld) (events : List PrFeedbackMonitorEvent) : QueueWorld where
  primary := some (olderRecord sessionID w events)
  sidecar := w.sidecar
  writer := some (olderRecord sessionID w events)
  mutations := w.mutations + 1
  enqueuedHead := Function.update w.enqueuedHead w.mutations none
  claimedOwners := w.claimedOwners

/-- One mutation, under the queue lock.  One that writes nothing, or throws, is no
    step. -/
inductive QueueStep : QueueWorld → QueueEvent → QueueWorld → Prop where
  | mutate {w : QueueWorld} {mutation : QueueMutation} {crashes : Bool}
      {current : Option PrFeedbackQueueRecord} {next : PrFeedbackQueueRecord}
      (hread : readQueueFromDisk host w.primary w.sidecar = .ok current)
      (hnext : mutation.next host sessionID w.mutations current = some next) :
      QueueStep w (.mutate mutation crashes) (w.write host mutation current next crashes)
  | olderMutate {w : QueueWorld} {events : List PrFeedbackMonitorEvent}
      (hevents : OlderWrites host w events) :
      QueueStep w (.olderMutate events) (w.writeOlder sessionID events)

end Step

/-- The revision of the primary record. -/
def QueueWorld.revision (w : QueueWorld) : Nat :=
  (w.primary.map PrFeedbackQueueRecord.revision).getD 0

/-- A queue before any mutation of this version: no sidecar. -/
structure QueueStart (w : QueueWorld) : Prop where
  sidecar : w.sidecar = none
  writer : w.writer = w.primary
  diskShaped : ∀ record ∈ w.primary, record.onDisk = record
  distinct : ∀ record ∈ w.primary, (record.events.map PrFeedbackMonitorEvent.dedupToken).Nodup
  origins : ∀ record ∈ w.primary, ∀ event ∈ record.events, event.origin < w.mutations

/-- The sidecar waits for the revision an older mutation takes, and names one of
    its events. -/
def lendsFields (w : QueueWorld) : QueueEvent → Bool
  | .mutate _ _ => false
  | .olderMutate events =>
      w.sidecar.any fun metadata => metadata.revision == w.revision + 1
        && metadata.events.any fun extended =>
          events.any fun event => event.dedupToken == extended.dedupToken

/-! ## What a read shows -/

variable {event : PrFeedbackMonitorEvent}

theorem PrFeedbackMonitorEvent.onDisk_of_isDiskShaped (h : event.isDiskShaped = true) :
    event.onDisk = event := by
  rw [isDiskShaped, Bool.and_eq_true, Option.isNone_iff_eq_none, Option.isNone_iff_eq_none] at h
  obtain ⟨hhead, hpid⟩ := h
  cases event
  subst hhead hpid
  rfl

theorem PrFeedbackQueueRecord.onDisk_isDiskShaped (record : PrFeedbackQueueRecord) :
    record.onDisk.isDiskShaped = true := by
  simp [isDiskShaped, onDisk, PrFeedbackMonitorEvent.isDiskShaped, PrFeedbackMonitorEvent.onDisk]

/-- The event is shown with no field but those it was written with. -/
def ShownAs (event written : PrFeedbackMonitorEvent) : Prop :=
  written.onDisk = event.onDisk
    ∧ (event.headRefOid = none ∨ event.headRefOid = written.headRefOid)
    ∧ (event.claimedOwnerPid = none ∨ event.claimedOwnerPid = written.claimedOwnerPid)

variable {written : PrFeedbackMonitorEvent}

theorem ShownAs.dedupToken (h : ShownAs event written) : written.dedupToken = event.dedupToken := by
  have hdisk : written.onDisk.dedupToken = event.onDisk.dedupToken := by rw [h.1]
  exact hdisk

theorem ShownAs.origin (h : ShownAs event written) : written.origin = event.origin := by
  have hdisk : written.onDisk.origin = event.onDisk.origin := by rw [h.1]
  exact hdisk

/-- Event by event. -/
def ShownFrom (shown written : PrFeedbackQueueRecord) : Prop :=
  shown.revision = written.revision ∧ shown.sessionID = written.sessionID
    ∧ List.Forall₂ ShownAs shown.events written.events

theorem shownFrom_onDisk (record : PrFeedbackQueueRecord) : ShownFrom record.onDisk record := by
  refine ⟨rfl, rfl, ?_⟩
  rw [PrFeedbackQueueRecord.onDisk, List.forall₂_map_left_iff, List.forall₂_same]
  exact fun event _ => ⟨rfl, Or.inl rfl, Or.inl rfl⟩

/-- At its revision, the sidecar has for the events of the record their own
    fields only. -/
def Fits (metadata : QueueMetadataRecord) (record : PrFeedbackQueueRecord) : Prop :=
  metadata.revision = record.revision → ∀ event ∈ record.events, ∀ extended,
    metadata.byToken event.dedupToken = some extended →
      extended.headRefOid = event.headRefOid ∧ extended.claimedOwnerPid = event.claimedOwnerPid

variable {metadata : QueueMetadataRecord}

theorem exists_of_byToken {token : JsString} {extended : QueueMetadataEvent}
    (h : metadata.byToken token = some extended) :
    extended ∈ metadata.events ∧ extended.dedupToken = token := by
  refine ⟨List.mem_reverse.mp (List.mem_of_find?_eq_some h), ?_⟩
  simpa using List.find?_some h

variable {record : PrFeedbackQueueRecord}

theorem fits_metadata (hdistinct : (record.events.map PrFeedbackMonitorEvent.dedupToken).Nodup) :
    Fits record.metadata record := by
  intro _ event hevent extended hextended
  obtain ⟨hmem, htoken⟩ := exists_of_byToken hextended
  obtain ⟨source, hsource, rfl⟩ := List.mem_map.mp hmem
  have hsame : source = event :=
    List.inj_on_of_nodup_map hdistinct (List.mem_filter.mp hsource).1 hevent htoken
  rw [hsame]
  exact ⟨rfl, rfl⟩

theorem shownAs_extended (hfits : Fits metadata record)
    (hrevision : metadata.revision = record.revision) {event : PrFeedbackMonitorEvent}
    (hevent : event ∈ record.events) : ShownAs (match metadata.byToken event.onDisk.dedupToken with
      | none => event.onDisk
      | some extended => extended.extend event.onDisk) event := by
  split
  · exact ⟨rfl, Or.inl rfl, Or.inl rfl⟩
  rename_i extended hextended
  obtain ⟨hhead, hpid⟩ := hfits hrevision event hevent extended hextended
  refine ⟨rfl, Or.inr ?_, Or.inr ?_⟩
  · rw [← hhead]
    exact Option.or_none
  · rw [← hpid]
    exact Option.or_none

variable {sidecar : Option QueueMetadataRecord}

theorem shownFrom_merge (hfits : ∀ metadata ∈ sidecar, Fits metadata record) :
    ShownFrom (mergeQueueMetadata sidecar record.onDisk) record := by
  unfold mergeQueueMetadata
  cases sidecar with
  | none => exact shownFrom_onDisk record
  | some metadata =>
    dsimp only
    split_ifs with hother
    · exact shownFrom_onDisk record
    · have hrevision : metadata.revision = record.revision := by
        rw [not_or, not_not] at hother
        exact hother.1
      refine ⟨rfl, rfl, ?_⟩
      rw [PrFeedbackQueueRecord.onDisk, List.map_map, List.forall₂_map_left_iff, List.forall₂_same]
      exact fun event hevent => shownAs_extended (hfits metadata rfl) hrevision hevent

/-- Reading the primary record of a writer, with a sidecar that fits it. -/
theorem shownFrom_of_read {host : QueueHost} {written : PrFeedbackQueueRecord}
    {shown : PrFeedbackQueueRecord} (hfits : ∀ metadata ∈ sidecar, Fits metadata written)
    (h : readQueueFromDisk host (some written.onDisk) sidecar = .ok (some shown)) :
    ShownFrom shown written := by
  dsimp only [readQueueFromDisk] at h
  rw [written.onDisk_isDiskShaped, if_pos rfl] at h
  split at h
  · cases h
  cases h
  exact shownFrom_merge hfits

/-! ## What a mutation writes -/

/-- The events of the next record are those of the current one, some with a new
    owner, or the new one with its head. -/
structure NextRecord (current next : PrFeedbackQueueRecord) (origin : Nat)
    (head : Option JsString) (owners : List (Nat × Nat)) : Prop where
  revision : next.revision = current.revision + 1
  distinct : (current.events.map PrFeedbackMonitorEvent.dedupToken).Nodup →
    (next.events.map PrFeedbackMonitorEvent.dedupToken).Nodup
  events : ∀ event ∈ next.events,
    (∃ old ∈ current.events, old.origin = event.origin ∧ old.headRefOid = event.headRefOid
        ∧ ∀ pid, event.claimedOwnerPid = some pid →
          old.claimedOwnerPid = some pid ∨ (event.origin, pid) ∈ owners)
      ∨ event.origin = origin ∧ event.headRefOid = head ∧ event.claimedOwnerPid = none

variable {next : PrFeedbackQueueRecord}

theorem nextQueueRecord_eq_some {host : QueueHost} {current : PrFeedbackQueueRecord}
    {events : List PrFeedbackMonitorEvent} (h : nextQueueRecord host current events = some next) :
    next = { current with revision := current.revision + 1, events := events } := by
  dsimp only [nextQueueRecord] at h
  split_ifs at h
  cases h
  rfl

theorem nextRecord_map {host : QueueHost} {current : PrFeedbackQueueRecord}
    {f : PrFeedbackMonitorEvent → PrFeedbackMonitorEvent} {origin : Nat} {head : Option JsString}
    {owners : List (Nat × Nat)}
    (hf : ∀ event, (f event).dedupToken = event.dedupToken ∧ (f event).origin = event.origin
      ∧ (f event).headRefOid = event.headRefOid)
    (howners : ∀ event ∈ current.events, ∀ pid, (f event).claimedOwnerPid = some pid →
      event.claimedOwnerPid = some pid ∨ (event.origin, pid) ∈ owners)
    (h : nextQueueRecord host current (current.events.map f) = some next) :
    NextRecord current next origin head owners := by
  rw [nextQueueRecord_eq_some h]
  refine ⟨rfl, ?_, ?_⟩
  · intro hdistinct
    have hsame : (current.events.map f).map PrFeedbackMonitorEvent.dedupToken
        = current.events.map PrFeedbackMonitorEvent.dedupToken := by
      rw [List.map_map]
      exact List.map_congr_left fun event _ => (hf event).1
    rw [hsame]
    exact hdistinct
  · intro event hevent
    obtain ⟨old, hold, rfl⟩ := List.mem_map.mp hevent
    obtain ⟨-, horigin, hhead⟩ := hf old
    refine Or.inl ⟨old, hold, horigin.symm, hhead.symm, fun pid hpid => ?_⟩
    rw [horigin]
    exact howners old hold pid hpid

theorem nextRecord_filter {host : QueueHost} {current : PrFeedbackQueueRecord}
    {p : PrFeedbackMonitorEvent → Bool} {origin : Nat} {head : Option JsString}
    {owners : List (Nat × Nat)}
    (h : nextQueueRecord host current (current.events.filter p) = some next) :
    NextRecord current next origin head owners := by
  rw [nextQueueRecord_eq_some h]
  refine ⟨rfl, fun hdistinct => hdistinct.sublist (List.filter_sublist.map _), ?_⟩
  intro event hevent
  exact Or.inl ⟨event, (List.mem_filter.mp hevent).1, rfl, rfl, fun pid hpid => Or.inl hpid⟩

theorem nextRecord_enqueue {host : QueueHost} {sessionID : JsString} {origin : Nat}
    {input : PrFeedbackMonitorInput} {current : Option PrFeedbackQueueRecord}
    {owners : List (Nat × Nat)} (h : enqueueEvent host sessionID origin input current = some next) :
    NextRecord (current.getD { revision := 0, sessionID := sessionID, events := [] }) next origin
      input.headRefOid owners := by
  dsimp only [enqueueEvent] at h
  split_ifs at h
  generalize current.getD { revision := 0, sessionID := sessionID, events := [] } = record at h ⊢
  rw [nextQueueRecord_eq_some h]
  refine ⟨rfl, ?_, ?_⟩
  · intro hdistinct
    refine List.Nodup.sublist ((List.drop_sublist _ _).map _) ?_
    rw [List.map_append, List.nodup_append']
    refine ⟨hdistinct.sublist (List.filter_sublist.map _), List.nodup_singleton _, ?_⟩
    intro token hold hnew
    obtain ⟨existing, hexisting, rfl⟩ := List.mem_map.mp hold
    rw [List.map_singleton, List.mem_singleton] at hnew
    exact (of_decide_eq_true (List.mem_filter.mp hexisting).2) hnew
  · intro event hevent
    rcases List.mem_append.mp (List.mem_of_mem_drop hevent) with hold | hnew
    · have hmem := (List.mem_filter.mp hold).1
      exact Or.inl ⟨event, hmem, rfl, rfl, fun pid hpid => Or.inl hpid⟩
    · rw [List.mem_singleton.mp hnew]
      exact Or.inr ⟨rfl, rfl, rfl⟩

theorem nextRecord_of_next {host : QueueHost} {sessionID : JsString} {origin : Nat}
    {mutation : QueueMutation} {current : Option PrFeedbackQueueRecord}
    (h : mutation.next host sessionID origin current = some next) :
    NextRecord (current.getD { revision := 0, sessionID := sessionID, events := [] }) next origin
      mutation.head (mutation.owners host current) := by
  cases mutation with
  | enqueue input => exact nextRecord_enqueue h
  | claim request =>
    simp only [QueueMutation.next, claimEvents] at h
    split_ifs at h
    cases current with
    | none => cases h
    | some record =>
      dsimp only at h
      split_ifs at h
      refine nextRecord_map (fun event => ?_) (fun event hevent pid hpid => ?_) h
      · unfold QueueClaim.event
        split_ifs <;> exact ⟨rfl, rfl, rfl⟩
      · unfold QueueClaim.event at hpid
        split_ifs at hpid with htakes
        · cases hpid
          exact Or.inr (List.mem_map.mpr ⟨event, List.mem_filter.mpr ⟨hevent, htakes⟩, rfl⟩)
        · exact Or.inl hpid
  | clear dedupTokens =>
    simp only [QueueMutation.next, clearEvents] at h
    cases current with
    | none => cases h
    | some record =>
      dsimp only at h
      split_ifs at h
      exact nextRecord_filter h
  | release dedupToken workflowInstanceId ownerPid =>
    simp only [QueueMutation.next, releaseClaim] at h
    split_ifs at h
    cases current with
    | none => cases h
    | some record =>
      dsimp only at h
      split_ifs at h
      refine nextRecord_map (fun event => ?_) (fun event hevent pid hpid => ?_) h
      · split_ifs <;> exact ⟨rfl, rfl, rfl⟩
      · split_ifs at hpid
        · cases hpid
        · exact Or.inl hpid

/-! ## The invariant -/

structure QueueInvariant (w : QueueWorld) : Prop where
  writer : w.writer.map PrFeedbackQueueRecord.onDisk = w.primary
  distinct : ∀ record ∈ w.writer, (record.events.map PrFeedbackMonitorEvent.dedupToken).Nodup
  origins : ∀ record ∈ w.writer, ∀ event ∈ record.events, event.origin < w.mutations
  heads : ∀ record ∈ w.writer, ∀ event ∈ record.events, ∀ head,
    event.headRefOid = some head → w.enqueuedHead event.origin = some head
  owners : ∀ record ∈ w.writer, ∀ event ∈ record.events, ∀ pid,
    event.claimedOwnerPid = some pid → (event.origin, pid) ∈ w.claimedOwners
  fits : ∀ record ∈ w.writer, ∀ metadata ∈ w.sidecar, Fits metadata record

section Runs

variable {host : QueueHost} {sessionID : JsString} {w : QueueWorld}

theorem QueueStart.invariant (h : QueueStart w) : QueueInvariant w := by
  obtain ⟨hsidecar, hwriter, hshaped, hdistinct, horigins⟩ := h
  rw [← hwriter] at hshaped hdistinct horigins
  -- an event of the start has no extended field
  have hbare : ∀ record ∈ w.writer, ∀ event ∈ record.events,
      event.headRefOid = none ∧ event.claimedOwnerPid = none := by
    intro record hrecord event hevent
    have hdisk : event ∈ record.onDisk.events := by
      rw [hshaped record hrecord]
      exact hevent
    obtain ⟨old, -, rfl⟩ := List.mem_map.mp hdisk
    exact ⟨rfl, rfl⟩
  refine ⟨?_, hdistinct, horigins, ?_, ?_, ?_⟩
  · rw [← hwriter]
    cases hrecord : w.writer with
    | none => rfl
    | some record => rw [Option.map_some, hshaped record hrecord]
  · intro record hrecord event hevent head hhead
    rw [(hbare record hrecord event hevent).1] at hhead
    cases hhead
  · intro record hrecord event hevent pid hpid
    rw [(hbare record hrecord event hevent).2] at hpid
    cases hpid
  · intro record _ metadata hmetadata
    rw [hsidecar] at hmetadata
    cases hmetadata

variable {shown : PrFeedbackQueueRecord}

/-- What a mutation reads is the record of the writer, as far as it is shown. -/
theorem QueueInvariant.shownFrom (h : QueueInvariant w)
    (hread : readQueueFromDisk host w.primary w.sidecar = .ok (some shown)) :
    ∃ written ∈ w.writer, ShownFrom shown written := by
  cases hwriter : w.writer with
  | none =>
    rw [← h.writer, hwriter] at hread
    cases hread
  | some written =>
    rw [← h.writer, hwriter] at hread
    exact ⟨written, rfl, shownFrom_of_read (h.fits written hwriter) hread⟩

/-- What a read shows of an event was written for it. -/
structure OwnFields (w : QueueWorld) (event : PrFeedbackMonitorEvent) : Prop where
  origin : event.origin < w.mutations
  head : ∀ head, event.headRefOid = some head → w.enqueuedHead event.origin = some head
  owner : ∀ pid, event.claimedOwnerPid = some pid → (event.origin, pid) ∈ w.claimedOwners

variable {written : PrFeedbackQueueRecord}

theorem QueueInvariant.ownFields (h : QueueInvariant w) (hwritten : written ∈ w.writer)
    (hshown : ShownFrom shown written) {event : PrFeedbackMonitorEvent}
    (hevent : event ∈ shown.events) : OwnFields w event := by
  obtain ⟨source, hsource, hevent⟩ := exists_of_forall₂ hshown.2.2 hevent
  have horigin := hevent.origin
  obtain ⟨-, hhead, howner⟩ := hevent
  refine ⟨horigin ▸ h.origins written hwritten source hsource, fun head hsome => ?_,
    fun pid hsome => ?_⟩
  · rcases hhead with hnone | hsame
    · rw [hnone] at hsome
      cases hsome
    · rw [← horigin]
      exact h.heads written hwritten source hsource head (hsame ▸ hsome)
  · rcases howner with hnone | hsame
    · rw [hnone] at hsome
      cases hsome
    · rw [← horigin]
      exact h.owners written hwritten source hsource pid (hsame ▸ hsome)

theorem QueueInvariant.current {w : QueueWorld} (h : QueueInvariant w)
    {current : Option PrFeedbackQueueRecord}
    (hread : readQueueFromDisk host w.primary w.sidecar = .ok current)
    (record : PrFeedbackQueueRecord)
    (hrecord : record = current.getD { revision := 0, sessionID := sessionID, events := [] }) :
    record.revision = w.revision
      ∧ (record.events.map PrFeedbackMonitorEvent.dedupToken).Nodup
      ∧ ∀ event ∈ record.events, OwnFields w event := by
  subst hrecord
  cases current with
  | none =>
    have hnone : w.primary = none := by
      unfold readQueueFromDisk at hread
      split at hread
      · assumption
      split_ifs at hread
      all_goals cases hread
    refine ⟨?_, List.nodup_nil, ?_⟩
    · rw [QueueWorld.revision, hnone]
      rfl
    · intro event hevent
      cases hevent
  | some shown =>
    obtain ⟨written, hwritten, hshown⟩ := h.shownFrom hread
    have hprimary : w.primary = some written.onDisk := by
      rw [← h.writer, hwritten]
      rfl
    refine ⟨?_, ?_, fun event hevent => h.ownFields hwritten hshown hevent⟩
    · rw [Option.getD_some, hshown.1, QueueWorld.revision, hprimary]
      rfl
    · have htokens : shown.events.map PrFeedbackMonitorEvent.dedupToken
          = written.events.map PrFeedbackMonitorEvent.dedupToken := by
        refine List.forall₂_eq_eq_eq ▸ ?_
        rw [List.forall₂_map_left_iff, List.forall₂_map_right_iff]
        exact hshown.2.2.imp fun _ _ hshown => hshown.dedupToken.symm
      rw [Option.getD_some, htokens]
      exact h.distinct written hwritten

theorem QueueInvariant.write (h : QueueInvariant w) {mutation : QueueMutation} {crashes : Bool}
    {current : Option PrFeedbackQueueRecord} {next : PrFeedbackQueueRecord}
    (hread : readQueueFromDisk host w.primary w.sidecar = .ok current)
    (hnext : mutation.next host sessionID w.mutations current = some next) :
    QueueInvariant (w.write host mutation current next crashes) := by
  have hrecord := nextRecord_of_next hnext
  obtain ⟨hrevision, hdistinct, hevents⟩ := h.current hread _ (Eq.refl
    (current.getD { revision := 0, sessionID := sessionID, events := [] }))
  have hother : ∀ origin, origin < w.mutations →
      (w.write host mutation current next crashes).enqueuedHead origin = w.enqueuedHead origin :=
    fun origin hlt => Function.update_of_ne (Nat.ne_of_lt hlt) _ _
  cases crashes with
  | true =>
    -- only the sidecar is new, and it is ahead of the writer
    refine ⟨h.writer, h.distinct, ?_, ?_, h.owners, ?_⟩
    · intro record hwritten event hevent
      exact Nat.lt_succ_of_lt (h.origins record hwritten event hevent)
    · intro record hwritten event hevent head hhead
      rw [hother _ (h.origins record hwritten event hevent)]
      exact h.heads record hwritten event hevent head hhead
    · intro record hwritten metadata hmetadata hsame
      cases hmetadata
      have hahead : record.revision = w.revision := by
        have hwriter : w.writer = some record := hwritten
        rw [QueueWorld.revision, ← h.writer, hwriter]
        rfl
      have hnew : next.revision = record.revision := hsame
      rw [hrecord.revision, hrevision, hahead] at hnew
      omega
  | false =>
    have hsource : ∀ event ∈ next.events,
        OwnFields (w.write host mutation current next false) event := by
      intro event hevent
      rcases hrecord.events event hevent with
        ⟨old, hold, horigin, hhead, howner⟩ | ⟨horigin, hhead, howner⟩
      · obtain ⟨hlt, hheads, howners⟩ := hevents old hold
        rw [horigin] at hlt hheads howners
        rw [hhead] at hheads
        refine ⟨Nat.lt_succ_of_lt hlt, fun head hsome => ?_, fun pid hsome => ?_⟩
        · rw [hother _ hlt]
          exact hheads head hsome
        · rcases howner pid hsome with hkept | hgiven
          · exact List.mem_append_right _ (howners pid hkept)
          · exact List.mem_append_left _ hgiven
      · refine ⟨horigin ▸ Nat.lt_succ_self _, fun head hsome => ?_, fun pid hsome => ?_⟩
        · rw [horigin, ← hsome, hhead]
          exact Function.update_self _ _ _
        · rw [howner] at hsome
          cases hsome
    refine ⟨rfl, ?_, ?_, ?_, ?_, ?_⟩
    · rintro record ⟨⟩
      exact hrecord.distinct hdistinct
    · rintro record ⟨⟩ event hevent
      exact (hsource event hevent).origin
    · rintro record ⟨⟩ event hevent
      exact (hsource event hevent).head
    · rintro record ⟨⟩ event hevent
      exact (hsource event hevent).owner
    · rintro record ⟨⟩ metadata ⟨⟩
      exact fits_metadata (hrecord.distinct hdistinct)

/-- A mutation of an older version that finds no sidecar waiting for it. -/
theorem QueueInvariant.writeOlder (h : QueueInvariant w) {events : List PrFeedbackMonitorEvent}
    (hevents : OlderWrites host w events) (hguard : lendsFields w (.olderMutate events) = false) :
    QueueInvariant (w.writeOlder sessionID events) := by
  obtain ⟨hdistinct, hshape, -⟩ := hevents
  have hdisk : ∀ event ∈ events, event.onDisk = event := fun event hevent =>
    PrFeedbackMonitorEvent.onDisk_of_isDiskShaped (hshape event hevent).2.1
  refine ⟨?_, ?_, ?_, ?_, ?_, ?_⟩
  · have hsame : (olderRecord sessionID w events).onDisk = olderRecord sessionID w events := by
      have hmap : events.map PrFeedbackMonitorEvent.onDisk = events :=
        (List.map_congr_left hdisk).trans (List.map_id events)
      exact congrArg (fun events => { olderRecord sessionID w events with events := events }) hmap
    exact congrArg some hsame
  · rintro record ⟨⟩
    exact hdistinct
  · rintro record ⟨⟩ event hevent
    rcases (hshape event hevent).2.2 with hnew | ⟨primary, hprimary, old, hold, horigin⟩
    · exact hnew ▸ Nat.lt_succ_self _
    have hprimary' : w.primary = some primary := hprimary
    rw [← h.writer, Option.map_eq_some_iff] at hprimary'
    obtain ⟨written, hwritten, rfl⟩ := hprimary'
    obtain ⟨source, hsource, rfl⟩ := List.mem_map.mp hold
    rw [← horigin]
    exact Nat.lt_succ_of_lt (h.origins written hwritten source hsource)
  · rintro record ⟨⟩ event hevent head hhead
    rw [← hdisk event hevent] at hhead
    cases hhead
  · rintro record ⟨⟩ event hevent pid hpid
    rw [← hdisk event hevent] at hpid
    cases hpid
  · rintro record ⟨⟩ metadata hmetadata hsame event hevent extended hextended
    -- the sidecar would have to be waiting, and to name the event
    have hsidecar : w.sidecar = some metadata := hmetadata
    obtain ⟨hmem, htoken⟩ := exists_of_byToken hextended
    have hrevision : metadata.revision = w.revision + 1 := by
      rw [hsame]
      cases hprimary : w.primary <;> simp [olderRecord, QueueWorld.revision, hprimary]
    have hlends : lendsFields w (.olderMutate events) = true := by
      rw [lendsFields, hsidecar, Option.any_some, Bool.and_eq_true]
      refine ⟨by simp [hrevision], ?_⟩
      rw [List.any_eq_true]
      refine ⟨extended, hmem, ?_⟩
      rw [List.any_eq_true]
      exact ⟨event, hevent, by simp [htoken]⟩
    rw [hguard] at hlends
    cases hlends

variable {w' : QueueWorld}

/-- Later sidecars do not fit an earlier record by accident: they are ahead. -/
theorem QueueStep.fits {event : QueueEvent} (hinv : QueueInvariant w)
    (h : QueueStep host sessionID w event w') {record : PrFeedbackQueueRecord}
    (hrevision : record.revision ≤ w.revision)
    (hfits : ∀ metadata ∈ w.sidecar, Fits metadata record) :
    record.revision ≤ w'.revision ∧ ∀ metadata ∈ w'.sidecar, Fits metadata record := by
  cases h with
  | @mutate mutation crashes current next hread hnext =>
    have hcurrent := (hinv.current hread _ (Eq.refl
      (current.getD { revision := 0, sessionID := sessionID, events := [] }))).1
    have hnextRevision : next.revision = w.revision + 1 := by
      rw [(nextRecord_of_next hnext).revision, hcurrent]
    refine ⟨?_, ?_⟩
    · cases crashes with
      | true => exact hrevision
      | false =>
        have hnow : (w.write host mutation current next false).revision = w.revision + 1 :=
          hnextRevision
        omega
    · rintro metadata ⟨⟩ hsame
      have hnow : next.revision = record.revision := hsame
      omega
  | @olderMutate events hevents =>
    refine ⟨?_, hfits⟩
    have hnow : (w.writeOlder sessionID events).revision = w.revision + 1 := by
      cases hprimary : w.primary <;>
        simp [QueueWorld.writeOlder, olderRecord, QueueWorld.revision, hprimary]
    omega

theorem QueueInvariant.step {event : QueueEvent} (hinv : QueueInvariant w)
    (h : QueueStep host sessionID w event w') (hguard : lendsFields w event = false) :
    QueueInvariant w' := by
  cases h with
  | mutate hread hnext => exact hinv.write hread hnext
  | olderMutate hevents => exact hinv.writeOlder hevents hguard

/-- Everything a read shows is of the mutation that wrote the primary record, and
    was written for the event that shows it. -/
def OwnProvenance (w : QueueWorld) (shown : PrFeedbackQueueRecord) : Prop :=
  ∃ written ∈ w.writer, ∀ event ∈ shown.events,
    (∃ source ∈ written.events, ShownAs event source) ∧ OwnFields w event

/-- The steps that lend no fields. -/
abbrev ProvenanceStep (host : QueueHost) (sessionID : JsString) :
    QueueWorld → QueueEvent → QueueWorld → Prop :=
  Guarded (QueueStep host sessionID) fun w event => lendsFields w event = false

variable {events : List QueueEvent}

theorem QueueInvariant.run (h : QueueInvariant w)
    (hrun : Run (ProvenanceStep host sessionID) w events w') : QueueInvariant w' :=
  hrun.preserves (fun _ _ _ hstep hinv => hinv.step hstep.1 hstep.2) h

/-- A record read now keeps its fields under every sidecar written later. -/
theorem QueueInvariant.fits_later (h : QueueInvariant w)
    (hrun : Run (ProvenanceStep host sessionID) w events w') (hwritten : written ∈ w.writer) :
    ∀ metadata ∈ w'.sidecar, Fits metadata written := by
  have hrevision : written.revision ≤ w.revision := by
    have hwriter : w.writer = some written := hwritten
    rw [QueueWorld.revision, ← h.writer, hwriter]
    exact Nat.le_refl _
  have hstep : ∀ v event v', ProvenanceStep host sessionID v event v' →
      (QueueInvariant v ∧ written.revision ≤ v.revision
        ∧ ∀ metadata ∈ v.sidecar, Fits metadata written) →
      QueueInvariant v' ∧ written.revision ≤ v'.revision
        ∧ ∀ metadata ∈ v'.sidecar, Fits metadata written := by
    rintro v event v' ⟨hstep, hguard⟩ ⟨hinv, hle, hfits⟩
    exact ⟨hinv.step hstep hguard, hstep.fits hinv hle hfits⟩
  exact (hrun.preserves hstep ⟨h, hrevision, h.fits written hwritten⟩).2.2

/-- A reader without the lock reads the primary record, and the sidecar any number
    of mutations later. -/
theorem ownProvenance_of_run {start w w' : QueueWorld} {before between : List QueueEvent}
    {shown : PrFeedbackQueueRecord} (hstart : QueueStart start)
    (hbefore : Run (ProvenanceStep host sessionID) start before w)
    (hbetween : Run (ProvenanceStep host sessionID) w between w')
    (hread : readQueueFromDisk host w.primary w'.sidecar = .ok (some shown)) :
    OwnProvenance w shown := by
  have hinv : QueueInvariant w := hstart.invariant.run hbefore
  cases hwriter : w.writer with
  | none =>
    rw [← hinv.writer, hwriter] at hread
    cases hread
  | some written =>
    have hwritten : written ∈ w.writer := hwriter
    rw [← hinv.writer, hwriter] at hread
    have hshown := shownFrom_of_read (hinv.fits_later hbetween hwritten) hread
    refine ⟨written, hwritten, fun event hevent => ⟨?_, hinv.ownFields hwritten hshown hevent⟩⟩
    exact exists_of_forall₂ hshown.2.2 hevent

end Runs

/-! ## A sidecar that waits -/

/-- Every URL is one of a pull request, in its canonical form. -/
def plainHost : QueueHost where
  isUrl := fun _ => true
  canonicalPrUrl := some

def emptyQueue : QueueWorld where
  primary := none
  sidecar := none
  writer := none
  mutations := 0
  enqueuedHead := fun _ => none
  claimedOwners := []

theorem queueStart_empty : QueueStart emptyQueue := by
  refine ⟨rfl, rfl, ?_, ?_, ?_⟩ <;> rintro _ ⟨⟩

/-- A CI failure on pull request 7. -/
def failedCheck (head : Option JsString) : PrFeedbackMonitorInput where
  type := js "pr.ci.failed"
  repoFullName := js "o/r"
  prNumber := 7
  prUrl := js "https://github.com/o/r/pull/7"
  message := js "CI failed"
  dedupToken := js "ci-7"
  authorized := true
  queuedAt := js "2026-01-01T00:00:00.000Z"
  headRefOid := head

/-- The queue with that event alone. -/
def failedCheckQueue (head : Option JsString) (origin : Nat) : PrFeedbackQueueRecord where
  revision := 1
  sessionID := js "s"
  events := [(failedCheck head).event origin]

theorem enqueue_failedCheck (crashes : Bool) :
    QueueStep plainHost (js "s") emptyQueue (.mutate (.enqueue (failedCheck (some (js "c0ffee")))) crashes)
      (emptyQueue.write plainHost (.enqueue (failedCheck (some (js "c0ffee")))) none
        (failedCheckQueue (some (js "c0ffee")) 0) crashes) :=
  QueueStep.mutate rfl (by decide +kernel)

theorem olderEnqueue_failedCheck (w : QueueWorld) :
    QueueStep plainHost (js "s") w (.olderMutate [(failedCheck none).event w.mutations])
      (w.writeOlder (js "s") [(failedCheck none).event w.mutations]) := by
  refine QueueStep.olderMutate ⟨List.nodup_singleton _, ?_, by simp [maxPrFeedbackMonitorEvents]⟩
  intro event hevent
  rw [List.mem_singleton.mp hevent]
  exact ⟨rfl, rfl, Or.inl rfl⟩

/-- An older version replaces the event between the two reads of a reader. -/
theorem ownProvenance_replacedEvent :
    OwnProvenance (emptyQueue.write plainHost (.enqueue (failedCheck (some (js "c0ffee")))) none
        (failedCheckQueue (some (js "c0ffee")) 0) false)
      (failedCheckQueue (some (js "c0ffee")) 0) :=
  ownProvenance_of_run queueStart_empty (Run.single ⟨enqueue_failedCheck false, rfl⟩)
    (Run.single ⟨olderEnqueue_failedCheck _, by decide +kernel⟩) (by decide +kernel)

/-- An enqueue crashes behind its sidecar, and an older version enqueues the event
    anew, at the revision the sidecar waits for. -/
theorem not_ownProvenance_waitingSidecar :
    QueueStart emptyQueue
      ∧ ∃ (events : List QueueEvent) (w : QueueWorld) (shown : PrFeedbackQueueRecord),
        Run (QueueStep plainHost (js "s")) emptyQueue events w
          ∧ readQueueFromDisk plainHost w.primary w.sidecar = .ok (some shown)
          ∧ ¬ OwnProvenance w shown := by
  have hcrash := enqueue_failedCheck true
  refine ⟨queueStart_empty, _, _, failedCheckQueue (some (js "c0ffee")) 1,
    Run.snoc (Run.single hcrash) (olderEnqueue_failedCheck _), by decide +kernel, ?_⟩
  rintro ⟨_, _, hown⟩
  have hhead := (hown _ List.mem_cons_self).2.head (js "c0ffee") rfl
  exact absurd hhead (by decide +kernel)

end OpencodeSwarm
