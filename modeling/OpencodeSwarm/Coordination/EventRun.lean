/-
  OpencodeSwarm.Coordination.EventRun

  Every sequence of transitions: the versions of a stream go on by one, a key is
  applied once for each life of its fence, and retention takes old fences only.
-/
import OpencodeSwarm.Coordination.EventRetention

namespace OpencodeSwarm

open Js Sql Transition

/-! ## Runs -/

/-- A stream and an idempotency key. -/
abbrev EventKey := JsString × JsString

def CoordinationEventFence.key (fence : CoordinationEventFence) : EventKey :=
  (fence.streamId, fence.idempotencyKey)

def CoordinationEventInput.key (event : CoordinationEventInput) : EventKey :=
  (event.streamId, event.idempotencyKey)

/-- The store, and its history: the versions assigned, the keys applied and the
    keys whose fence was pruned, in order. -/
structure EventWorld where
  db : CoordinationDb
  assigned : List (JsString × Nat)
  applied : List EventKey
  pruned : List EventKey

/-- A call of `transitionCoordinationState`, with its clock and the bounds it finds. -/
structure TransitionCall where
  input : CoordinationTransitionInput
  bounds : EventBounds
  now : JsString

section Step

variable (digestPayload : JsString → JsString)

/-- The fences with the one of the event, before any is pruned. -/
def fencesWith (call : TransitionCall) (db : CoordinationDb) (event : CoordinationEventInput) :
    List CoordinationEventFence :=
  upsertFence db.fences (fenceRow digestPayload db.fences call.now call.input.generation event)

/-- An applied event. -/
def EventWorld.record (w : EventWorld) (call : TransitionCall) (next : CoordinationDb)
    (event : CoordinationEventInput) : EventWorld where
  db := next
  assigned := w.assigned ++ [(event.streamId, streamVersion w.db.events event.streamId + 1)]
  applied := w.applied ++ [event.key]
  pruned := w.pruned ++
    ((fencesWith digestPayload call w.db event).filter (· ∉ next.fences)).map
      CoordinationEventFence.key

def eventStep (w : EventWorld) (call : TransitionCall) : EventWorld :=
  match transitionCoordinationState digestPayload call.bounds call.now w.db call.input with
  | .error _ => w
  | .ok (next, result) =>
    match result.outcome, call.input.event with
    | .applied, some event => w.record digestPayload call next event
    | _, _ => { w with db := next }

/-- The versions assigned to one stream. -/
def EventWorld.versionsOf (w : EventWorld) (streamId : JsString) : List Nat :=
  (w.assigned.filter (·.1 == streamId)).map Prod.snd

/-- What a call may take from the fences: none that is among the newest of its
    stream, or none that is among the newest of all. -/
def PrunesOldFences (call : TransitionCall) (db next : CoordinationDb) : Prop :=
  match call.input.event with
  | none => next.fences = db.fences
  | some event => ∀ fence ∈ fencesWith digestPayload call db event, fence ∉ next.fences →
      call.bounds.maxEventFencesPerStream
          ≤ (newerOfStream (fencesWith digestPayload call db event) fence).length
        ∨ call.bounds.maxTotalEventFences
          ≤ (newerOfAll (fencesWith digestPayload call db event) fence).length

/-- The answers of the next call. -/
structure AnswersSafely (db : CoordinationDb) (call : TransitionCall) (next : CoordinationDb)
    (result : CoordinationTransitionResult) : Prop where
  fenced : ∀ event ∈ call.input.event, (∃ fence ∈ db.fences, fence.key = event.key) →
    result.outcome ≠ .applied
  refused : result.outcome ≠ .applied → next = db
  pruning : result.outcome = .applied → PrunesOldFences digestPayload call db next
  raised : result.outcome = .applied →
    ∃ row, next.row call.input.namespace_ call.input.entityKey = some row
      ∧ row.revision
        = ((db.row call.input.namespace_ call.input.entityKey).map
          CoordinationState.revision).getD 0 + 1
      ∧ ∀ old ∈ db.row call.input.namespace_ call.input.entityKey, old.generation ≤ row.generation

/-- The streams and fences of a run from `start`. -/
structure EventsSafe (start : CoordinationDb) (w : EventWorld) : Prop where
  versions : ∀ streamId, w.versionsOf streamId
    = List.range' (streamVersion start.events streamId + 1) (w.versionsOf streamId).length
  once : ∀ key, w.applied.count key ≤ w.pruned.count key + 1
  answers : ∀ call next result,
    transitionCoordinationState digestPayload call.bounds call.now w.db call.input
      = .ok (next, result) → AnswersSafely digestPayload w.db call next result

end Step

/-- The constraints of the tables, and no history. -/
structure EventStart (w : EventWorld) : Prop where
  eventIds : (w.db.events.map CoordinationEvent.rowid).Nodup
  fenceIds : (w.db.fences.map CoordinationEventFence.rowid).Nodup
  fenceKeys : (w.db.fences.map CoordinationEventFence.key).Nodup
  history : w.assigned = [] ∧ w.applied = [] ∧ w.pruned = []

/-! ## One event -/

section Facts

variable {digestPayload : JsString → JsString} {db next : CoordinationDb} {call : TransitionCall}
  {event : CoordinationEventInput} {result : CoordinationTransitionResult}
  {fence : CoordinationEventFence}

theorem CoordinationEventFence.isOf_iff {streamId idempotencyKey : JsString} :
    fence.isOf streamId idempotencyKey = true ↔ fence.key = (streamId, idempotencyKey) := by
  rw [isOf, Bool.and_eq_true, beq_iff_eq, beq_iff_eq, key, Prod.mk.injEq]

theorem no_fence_of_applied (hevent : call.input.event = some event)
    (h : Applies digestPayload call.bounds call.now db call.input next)
    (hfence : fence ∈ db.fences) :
    fence.key ≠ event.key := by
  obtain ⟨hnone, -⟩ := outcome_eq_applied h.outcome
  rw [hevent, Option.bind_some, fenceOutcome, Option.map_eq_none_iff] at hnone
  intro hkey
  exact List.find?_eq_none.mp hnone fence hfence (CoordinationEventFence.isOf_iff.mpr hkey)

theorem fencesWith_of_applied (hevent : call.input.event = some event)
    (h : Applies digestPayload call.bounds call.now db call.input next) :
    fencesWith digestPayload call db event
      = db.fences ++ [fenceRow digestPayload db.fences call.now call.input.generation event] := by
  unfold fencesWith upsertFence
  rw [if_neg]
  intro hany
  obtain ⟨fence, hfence, hisOf⟩ := List.any_eq_true.mp hany
  exact no_fence_of_applied hevent h hfence (CoordinationEventFence.isOf_iff.mp hisOf)

theorem tables_of_applied (hevent : call.input.event = some event)
    (h : Applies digestPayload call.bounds call.now db call.input next) :
    next.fences = pruneTotalFences call.bounds.maxTotalEventFences
        (pruneStreamFences call.bounds.maxEventFencesPerStream event.streamId
          (fencesWith digestPayload call db event))
      ∧ next.events = pruneTotalEvents call.bounds.maxTotalEvents
        (pruneStreamEvents call.bounds.maxEventsPerStream event.streamId
          (streamVersion db.events event.streamId + 1)
          (db.events ++ [eventRow db.events call.now call.input.generation event])) := by
  have htables : ∀ row,
    ((appendedTables digestPayload call.bounds call.now db call.input).upsertState
        row).fences = (withEvent digestPayload call.bounds call.now call.input.generation db
          event).fences
      ∧ ((appendedTables digestPayload call.bounds call.now db call.input).upsertState row).events
        = (withEvent digestPayload call.bounds call.now call.input.generation db event).events := by
    intro row
    unfold appendedTables CoordinationDb.upsertState
    rw [hevent]
    split_ifs <;> exact ⟨rfl, rfl⟩
  rw [h.writes]
  exact htables _

theorem tables_of_no_event (hevent : call.input.event = none)
    (h : Applies digestPayload call.bounds call.now db call.input next) :
    next.fences = db.fences ∧ next.events = db.events := by
  rw [h.writes]
  unfold appendedTables CoordinationDb.upsertState
  rw [hevent]
  split_ifs <;> exact ⟨rfl, rfl⟩

/-- The constraints of the tables. -/
structure Constrained (db : CoordinationDb) : Prop where
  eventIds : (db.events.map CoordinationEvent.rowid).Nodup
  fenceIds : (db.fences.map CoordinationEventFence.rowid).Nodup
  fenceKeys : (db.fences.map CoordinationEventFence.key).Nodup

theorem Constrained.fencesWith (hdb : Constrained db) (hevent : call.input.event = some event)
    (h : Applies digestPayload call.bounds call.now db call.input next) :
    ((fencesWith digestPayload call db event).map CoordinationEventFence.rowid).Nodup
      ∧ ((fencesWith digestPayload call db event).map CoordinationEventFence.key).Nodup := by
  rw [fencesWith_of_applied hevent h]
  refine ⟨nodup_append_nextRowid hdb.fenceIds rfl, ?_⟩
  rw [List.map_append, List.map_singleton, List.nodup_append']
  refine ⟨hdb.fenceKeys, List.nodup_singleton _, ?_⟩
  intro key hold hnew
  obtain ⟨fence, hfence, rfl⟩ := List.mem_map.mp hold
  rw [List.mem_singleton] at hnew
  exact no_fence_of_applied hevent h hfence hnew

theorem fences_sublist (hevent : call.input.event = some event)
    (h : Applies digestPayload call.bounds call.now db call.input next) :
    next.fences.Sublist (fencesWith digestPayload call db event) := by
  rw [(tables_of_applied hevent h).1]
  exact (pruneTotalFences_sublist _ _).trans (pruneStreamFences_sublist _ _ _)

theorem Constrained.applied (hdb : Constrained db)
    (h : Applies digestPayload call.bounds call.now db call.input next) : Constrained next := by
  cases hevent : call.input.event with
  | none =>
    obtain ⟨hfences, hevents⟩ := tables_of_no_event hevent h
    refine ⟨?_, ?_, ?_⟩
    · rw [hevents]
      exact hdb.eventIds
    · rw [hfences]
      exact hdb.fenceIds
    · rw [hfences]
      exact hdb.fenceKeys
  | some event =>
    have hsub := fences_sublist hevent h
    obtain ⟨hids, hkeys⟩ := hdb.fencesWith hevent h
    refine ⟨?_, hids.sublist (hsub.map _), hkeys.sublist (hsub.map _)⟩
    rw [(tables_of_applied hevent h).2]
    have hevents := (pruneTotalEvents_sublist call.bounds.maxTotalEvents _).trans
      (pruneStreamEvents_sublist call.bounds.maxEventsPerStream event.streamId
        (streamVersion db.events event.streamId + 1)
        (db.events ++ [eventRow db.events call.now call.input.generation event]))
    exact (nodup_append_nextRowid hdb.eventIds rfl).sublist (hevents.map _)

/-- The stream of an applied event goes on by one; the others stay. -/
theorem streamVersion_of_applied (hdb : Constrained db)
    (hbound : 1 ≤ call.bounds.maxEventsPerStream) (hevent : call.input.event = some event)
    (h : Applies digestPayload call.bounds call.now db call.input next) (streamId : JsString) :
    streamVersion next.events streamId
      = if event.streamId = streamId then streamVersion db.events event.streamId + 1
        else streamVersion db.events streamId := by
  have hrow : ∀ other, streamVersion
      (db.events ++ [eventRow db.events call.now call.input.generation event]) other
        = if event.streamId = other then streamVersion db.events event.streamId + 1
          else streamVersion db.events other :=
    fun other => streamVersion_append_row rfl other
  have hids : ((db.events ++ [eventRow db.events call.now call.input.generation event]).map
      CoordinationEvent.rowid).Nodup := nodup_append_nextRowid hdb.eventIds rfl
  have hnew := hrow event.streamId
  rw [if_pos rfl] at hnew
  rw [(tables_of_applied hevent h).2, streamVersion_pruneTotalEvents, ← hnew,
    streamVersion_pruneStreamEvents hbound, hrow, hnew]
  exact hids.sublist ((pruneStreamEvents_sublist _ _ _ _).map _)

theorem prunesOldFences_of_applied (hdb : Constrained db)
    (h : Applies digestPayload call.bounds call.now db call.input next) :
    PrunesOldFences digestPayload call db next := by
  unfold PrunesOldFences
  cases hevent : call.input.event with
  | none => exact (tables_of_no_event hevent h).1
  | some event =>
    intro fence hfence hpruned
    have hids := (hdb.fencesWith hevent h).1
    rw [(tables_of_applied hevent h).1] at hpruned
    by_cases hstream : fence ∈ pruneStreamFences call.bounds.maxEventFencesPerStream event.streamId
        (fencesWith digestPayload call db event)
    · -- the second rule took it, from what the first had left
      have hsub := pruneStreamFences_sublist call.bounds.maxEventFencesPerStream event.streamId
        (fencesWith digestPayload call db event)
      have hbound := pruned_of_total (hids.sublist (hsub.map _)) hstream hpruned
      exact Or.inr (hbound.trans (Int.ofNat_le.mpr (hsub.filter _).length_le))
    · exact Or.inl (pruned_of_stream hids hfence hstream)

theorem answersSafely (hdb : Constrained db)
    (h : transitionCoordinationState digestPayload call.bounds call.now db call.input
      = .ok (next, result)) : AnswersSafely digestPayload db call next result := by
  rcases transition_cases h with ⟨hrefused, hsame⟩ | ⟨happlied, happlies, -⟩
  · exact ⟨fun _ _ _ => hrefused, fun _ => hsame, fun h => absurd h hrefused,
      fun h => absurd h hrefused⟩
  · refine ⟨?_, fun hnot => absurd happlied hnot, fun _ => prunesOldFences_of_applied hdb happlies,
      fun _ => ⟨_, happlies.row_self, rfl, ?_⟩⟩
    · rintro event hevent ⟨fence, hfence, hkey⟩
      exact absurd hkey (no_fence_of_applied hevent happlies hfence)
    · exact (outcome_eq_applied happlies.outcome).2.1

end Facts

/-! ## The invariant -/

structure EventInvariant (start : CoordinationDb) (w : EventWorld) : Prop where
  constrained : Constrained w.db
  versions : ∀ streamId, w.versionsOf streamId
    = List.range' (streamVersion start.events streamId + 1) (w.versionsOf streamId).length
  newest : ∀ streamId, streamVersion w.db.events streamId
    = streamVersion start.events streamId + (w.versionsOf streamId).length
  lives : ∀ key, w.applied.count key + (start.fences.map CoordinationEventFence.key).count key
    = w.pruned.count key + (w.db.fences.map CoordinationEventFence.key).count key

variable {digestPayload : JsString → JsString} {w : EventWorld}

theorem EventStart.invariant (h : EventStart w) : EventInvariant w.db w := by
  obtain ⟨hassigned, happlied, hpruned⟩ := h.history
  have hnone : ∀ streamId, w.versionsOf streamId = [] := by
    intro streamId
    rw [EventWorld.versionsOf, hassigned]
    rfl
  refine ⟨⟨h.eventIds, h.fenceIds, h.fenceKeys⟩, ?_, ?_, ?_⟩
  · intro streamId
    rw [hnone]
    rfl
  · intro streamId
    rw [hnone, List.length_nil, Nat.add_zero]
  · intro key
    rw [happlied, hpruned]

theorem versionsOf_record {call : TransitionCall} {next : CoordinationDb}
    {event : CoordinationEventInput} (streamId : JsString) :
    (w.record digestPayload call next event).versionsOf streamId = if event.streamId = streamId then
          w.versionsOf streamId ++ [streamVersion w.db.events event.streamId + 1]
        else w.versionsOf streamId := by
  unfold EventWorld.versionsOf EventWorld.record
  rw [List.filter_append, List.map_append, List.filter_singleton]
  by_cases hstream : event.streamId = streamId
  · rw [if_pos hstream, hstream, beq_self_eq_true]
    rfl
  · rw [if_neg hstream, beq_eq_false_iff_ne.mpr hstream]
    exact List.append_nil _

variable {start : CoordinationDb}

theorem EventInvariant.record (hinv : EventInvariant start w) {call : TransitionCall}
    {next : CoordinationDb} {event : CoordinationEventInput}
    (hbound : 1 ≤ call.bounds.maxEventsPerStream) (hevent : call.input.event = some event)
    (h : Applies digestPayload call.bounds call.now w.db call.input next) :
    EventInvariant start (w.record digestPayload call next event) := by
  have hdb := hinv.constrained
  have hstream := streamVersion_of_applied hdb hbound hevent h
  refine ⟨hdb.applied h, ?_, ?_, ?_⟩
  · intro streamId
    rw [versionsOf_record]
    split_ifs with hsame
    · -- the new version comes right behind those assigned before
      rw [hsame, hinv.newest streamId, List.length_append, List.length_singleton,
        List.range'_concat,
        ← hinv.versions streamId]
      congr 2
      omega
    · exact hinv.versions streamId
  · intro streamId
    have hnow : streamVersion (w.record digestPayload call next event).db.events streamId
        = streamVersion next.events streamId := rfl
    rw [hnow, hstream, versionsOf_record]
    split_ifs with hsame
    · rw [hsame, hinv.newest streamId, List.length_append, List.length_singleton, Nat.add_assoc]
    · exact hinv.newest streamId
  · intro key
    -- each fence, the new one included, is still there or was pruned
    have hids := (hdb.fencesWith hevent h).1
    have hperm := (perm_kept_append_gone (fences_sublist hevent h) hids.of_map).map
      CoordinationEventFence.key
    have hcount := hperm.count_eq key
    rw [fencesWith_of_applied hevent h, List.map_append, List.map_append, List.map_singleton,
      List.count_append, List.count_append, ← fencesWith_of_applied hevent h] at hcount
    have hbooks := hinv.lives key
    have happlied : (w.record digestPayload call next event).applied.count key
        = w.applied.count key + [event.key].count key := List.count_append
    have hpruned : (w.record digestPayload call next event).pruned.count key
        = w.pruned.count key + (((fencesWith digestPayload call w.db event).filter
          (· ∉ next.fences)).map CoordinationEventFence.key).count key := List.count_append
    have hnew : (fenceRow digestPayload w.db.fences call.now call.input.generation event).key
        = event.key := rfl
    rw [hnew] at hcount
    have hnow : (w.record digestPayload call next event).db.fences = next.fences := rfl
    rw [hnow]
    omega

/-- One call keeps the invariant when the bound on a stream's events is positive. -/
theorem EventInvariant.step (hinv : EventInvariant start w) {call : TransitionCall}
    (hbound : 1 ≤ call.bounds.maxEventsPerStream) :
    EventInvariant start (eventStep digestPayload w call) := by
  unfold eventStep
  cases hanswer : transitionCoordinationState digestPayload call.bounds call.now w.db
    call.input with
  | error e => exact hinv
  | ok answer =>
    obtain ⟨next, result⟩ := answer
    dsimp only
    rcases transition_cases hanswer with ⟨hrefused, hsame⟩ | ⟨happlied, happlies, -⟩
    · -- nothing is written
      subst hsame
      split
      · rename_i happlied _
        exact absurd happlied hrefused
      · exact hinv
    · rw [happlied]
      split
      · rename_i event _ hevent
        exact hinv.record hbound hevent happlies
      · rename_i hnone
        have hevent : call.input.event = none := by
          cases hinput : call.input.event with
          | none => rfl
          | some event => exact absurd hinput (hnone event rfl)
        obtain ⟨hfences, hevents⟩ := tables_of_no_event hevent happlies
        refine ⟨hinv.constrained.applied happlies, hinv.versions, ?_, ?_⟩
        · intro streamId
          have hnewest := hinv.newest streamId
          rw [← hevents] at hnewest
          exact hnewest
        · intro key
          have hlives := hinv.lives key
          rw [← hfences] at hlives
          exact hlives

theorem EventInvariant.eventsSafe (hinv : EventInvariant start w) :
    EventsSafe digestPayload start w := by
  refine ⟨hinv.versions, fun key => ?_, fun call next result h => answersSafely hinv.constrained h⟩
  have hlives := hinv.lives key
  have hfence := List.nodup_iff_count_le_one.mp hinv.constrained.fenceKeys key
  omega

/-- Every run of calls that find a positive bound on the events of a stream. -/
theorem eventsSafe_of_run {w : EventWorld} (hstart : EventStart w) {calls : List TransitionCall}
    (hbounds : ∀ call ∈ calls, 1 ≤ call.bounds.maxEventsPerStream) :
    EventsSafe digestPayload w.db (calls.foldl (eventStep digestPayload) w) := by
  have hguard : Along (eventStep digestPayload)
      (fun _ call => 1 ≤ call.bounds.maxEventsPerStream) w calls :=
    Along.of_forall (fun call hcall _ => hbounds call hcall) w
  have hinv : EventInvariant w.db (calls.foldl (eventStep digestPayload) w) := by
    refine Run.preserves ?_ (Run.of_foldl hguard) hstart.invariant
    rintro v call _ ⟨rfl, hbound⟩ hv
    exact hv.step hbound
  exact hinv.eventsSafe

/-! ## Two events of one stream -/

def emptyEvents : EventWorld := ⟨⟨[], [], []⟩, [], [], []⟩

theorem eventStart_empty : EventStart emptyEvents :=
  ⟨List.nodup_nil, List.nodup_nil, List.nodup_nil, rfl, rfl, rfl⟩

/-- The SHA-256 digest of the payload `1`, the only one below. -/
def digestOfOne : JsString → JsString :=
  fun _ => js "6b86b273ff34fce19d6b804eff5a3f5747ada4eaa22f1d49c01e52ddb7875b4b"

/-- An event of the task's stream, in a transition from the revision. -/
def taskEvent (maxEventsPerStream : Int) (expected : ExpectedRevision) (idempotencyKey : JsString) :
    TransitionCall where
  input :=
    { namespace_ := js "tasks"
      entityKey := js "1.1"
      expectedRevision := expected
      generation := 0
      status := js "running"
      payload := js "1"
      event := some
        { streamId := js "1.1"
          idempotencyKey := idempotencyKey
          eventType := js "moved"
          payload := js "1"
          expectedStreamVersion := none } }
  bounds := { defaultEventBounds with maxEventsPerStream := maxEventsPerStream }
  now := js "2026-01-01T00:00:00.000Z"

def twoEvents (maxEventsPerStream : Int) : List TransitionCall :=
  [taskEvent maxEventsPerStream .absent (js "a"),
    taskEvent maxEventsPerStream (.revision 1) (js "b")]

/-- With one event kept, the second has version 2. -/
theorem eventsSafe_oneKept :
    EventsSafe digestOfOne emptyEvents.db
      ((twoEvents 1).foldl (eventStep digestOfOne) emptyEvents) :=
  eventsSafe_of_run eventStart_empty (by decide)

/-- With none kept, the stream starts again at version 1. -/
theorem not_eventsSafe_noneKept :
    EventStart emptyEvents ∧ ¬ EventsSafe digestOfOne emptyEvents.db
        ((twoEvents 0).foldl (eventStep digestOfOne) emptyEvents) := by
  refine ⟨eventStart_empty, fun h => ?_⟩
  exact absurd (h.versions (js "1.1")) (by decide +kernel)

end OpencodeSwarm
