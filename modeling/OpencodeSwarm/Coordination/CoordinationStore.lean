/-
  OpencodeSwarm.Coordination.CoordinationStore

  The coordination store (`src/db/coordination-store.ts`): one row of state per
  entity, an append-only stream of events per stream id, and a fence per
  idempotency key that outlives its event.

  A transition runs in one immediate transaction, so what throws changes nothing.
-/
import Mathlib.Data.Prod.Lex
import OpencodeSwarm.Lib.JsonText
import OpencodeSwarm.Lib.SqlRows

namespace OpencodeSwarm

open Js Sql

/-! ## Rows -/

/-- A row of `coordination_state`. -/
structure CoordinationState where
  namespace_ : JsString
  entityKey : JsString
  revision : Nat
  generation : Int
  status : JsString
  payload : JsString
  updatedAt : JsString
  deriving DecidableEq

/-- A row of `coordination_event`. -/
structure CoordinationEvent where
  rowid : Nat
  streamId : JsString
  version : Nat
  idempotencyKey : JsString
  eventType : JsString
  generation : Int
  payload : JsString
  createdAt : JsString
  deriving DecidableEq

/-- A row of `coordination_event_fence`. -/
structure CoordinationEventFence where
  rowid : Nat
  streamId : JsString
  idempotencyKey : JsString
  eventType : JsString
  generation : Int
  payloadDigest : JsString
  createdAt : JsString
  deriving DecidableEq

structure CoordinationDb where
  states : List CoordinationState
  events : List CoordinationEvent
  fences : List CoordinationEventFence
  deriving DecidableEq

/-! ## Inputs and results -/

/-- `expectedRevision?: number | null`. -/
inductive ExpectedRevision where
  | unspecified
  | absent
  | revision (n : Int)
  deriving DecidableEq

structure CoordinationEventInput where
  streamId : JsString
  idempotencyKey : JsString
  eventType : JsString
  payload : JsString
  expectedStreamVersion : Option Int
  deriving DecidableEq

structure CoordinationTransitionInput where
  namespace_ : JsString
  entityKey : JsString
  expectedRevision : ExpectedRevision
  generation : Int
  status : JsString
  payload : JsString
  event : Option CoordinationEventInput
  deriving DecidableEq

inductive CoordinationTransitionOutcome where
  | applied
  | duplicate
  | idempotencyConflict
  | revisionConflict
  | streamVersionConflict
  | staleGeneration
  deriving DecidableEq

structure CoordinationTransitionResult where
  outcome : CoordinationTransitionOutcome
  state : Option CoordinationState
  deriving DecidableEq

/-- What a transition throws. -/
inductive CoordinationError where
  /-- `${label} must contain 1..${max} characters` -/
  | text (label : JsString) (max : Nat)
  /-- `JSON.parse(payload)` -/
  | json
  /-- `generation must be a nonnegative safe integer` -/
  | generation
  /-- `event-bearing coordination transitions require expectedRevision` -/
  | expectedRevision
  /-- `expectedStreamVersion must be a nonnegative safe integer` -/
  | expectedStreamVersion
  /-- `UNIQUE(stream_id, idempotency_key)` of the event table -/
  | constraint
  deriving DecidableEq

/-- The retention bounds of `_internals`. -/
structure EventBounds where
  maxEventsPerStream : Int
  maxTotalEvents : Int
  maxEventFencesPerStream : Int
  maxTotalEventFences : Int
  deriving DecidableEq

def defaultEventBounds : EventBounds where
  maxEventsPerStream := 2048
  maxTotalEvents := 100000
  maxEventFencesPerStream := 8192
  maxTotalEventFences := 400000

/-! ## Validation -/

def maxKeyChars : Nat := 512
def maxStatusChars : Nat := 128
def maxPayloadChars : Nat := 1048576

def maxSafeInteger : Int := 9007199254740991

def boundedText (value label : JsString) (max : Nat) : Except CoordinationError Unit :=
  if value.length = 0 ∨ max < value.length then .error (.text label max) else .ok ()

def validatePayload (payload : JsString) : Except CoordinationError Unit := do
  boundedText payload (js "payload") maxPayloadChars
  if parsesJson payload then .ok () else .error .json

def validateEventInput (expectedRevision : ExpectedRevision) (event : CoordinationEventInput) :
    Except CoordinationError Unit := do
  if expectedRevision = .unspecified then .error .expectedRevision
  boundedText event.streamId (js "streamId") maxKeyChars
  boundedText event.idempotencyKey (js "idempotencyKey") maxKeyChars
  boundedText event.eventType (js "eventType") maxStatusChars
  validatePayload event.payload
  if event.expectedStreamVersion.any (fun n => n < 0 ∨ maxSafeInteger < n) then
    .error .expectedStreamVersion

/-- The first bound that an input breaks. -/
def validateTransitionInput (input : CoordinationTransitionInput) :
    Except CoordinationError Unit := do
  boundedText input.namespace_ (js "namespace") maxKeyChars
  boundedText input.entityKey (js "entityKey") maxKeyChars
  boundedText input.status (js "status") maxStatusChars
  validatePayload input.payload
  if input.generation < 0 ∨ maxSafeInteger < input.generation then .error .generation
  match input.event with
  | none => .ok ()
  | some event => validateEventInput input.expectedRevision event

/-! ## State rows -/

def CoordinationState.isOf (namespace_ entityKey : JsString) (row : CoordinationState) : Bool :=
  row.namespace_ == namespace_ && row.entityKey == entityKey

/-- `getCoordinationStateRaw`. -/
def CoordinationDb.row (db : CoordinationDb) (namespace_ entityKey : JsString) :
    Option CoordinationState :=
  db.states.find? (CoordinationState.isOf namespace_ entityKey)

/-- `readState`, and so `getCoordinationState`. -/
def readState (db : CoordinationDb) (namespace_ entityKey : JsString) :
    Except CoordinationError (Option CoordinationState) :=
  match db.row namespace_ entityKey with
  | none => .ok none
  | some row => (validatePayload row.payload).map fun _ => some row

/-- `INSERT … ON CONFLICT(namespace, entity_key) DO UPDATE`. -/
def CoordinationDb.upsertState (db : CoordinationDb) (row : CoordinationState) : CoordinationDb :=
  if db.states.any (CoordinationState.isOf row.namespace_ row.entityKey) then
    { db with
      states := db.states.map fun old =>
        if old.isOf row.namespace_ row.entityKey then row else old }
  else { db with states := db.states ++ [row] }

/-- `deleteCoordinationState`: what it returns, and the rows left. -/
def deleteCoordinationState (db : CoordinationDb) (namespace_ entityKey : JsString)
    (expectedRevision : Option Nat) : Bool × CoordinationDb :=
  let deletes := fun row : CoordinationState =>
    row.isOf namespace_ entityKey && expectedRevision.all (row.revision == ·)
  ((db.states.filter deletes).length == 1,
    { db with states := db.states.filter fun row => !deletes row })

/-! ## Events and fences -/

section Transition

variable (digestPayload : JsString → JsString)

/-- `SELECT MAX(version)` of a stream, 0 for none. -/
def streamVersion (events : List CoordinationEvent) (streamId : JsString) : Nat :=
  ((events.filter (·.streamId == streamId)).map CoordinationEvent.version).foldr max 0

def CoordinationEventFence.isOf (streamId idempotencyKey : JsString)
    (fence : CoordinationEventFence) : Bool :=
  fence.streamId == streamId && fence.idempotencyKey == idempotencyKey

/-- The row `INSERT INTO coordination_event` adds. -/
def eventRow (events : List CoordinationEvent) (now : JsString) (generation : Int)
    (event : CoordinationEventInput) : CoordinationEvent where
  rowid := nextRowid CoordinationEvent.rowid events
  streamId := event.streamId
  version := streamVersion events event.streamId + 1
  idempotencyKey := event.idempotencyKey
  eventType := event.eventType
  generation := generation
  payload := event.payload
  createdAt := now

/-- `INSERT INTO coordination_event`. -/
def insertCoordinationEvent (events : List CoordinationEvent) (row : CoordinationEvent) :
    Except CoordinationError (List CoordinationEvent) :=
  if events.any fun old => old.streamId == row.streamId && old.idempotencyKey == row.idempotencyKey
  then .error .constraint
  else .ok (events ++ [row])

/-- The row `INSERT INTO coordination_event_fence` adds. -/
def fenceRow (fences : List CoordinationEventFence) (now : JsString) (generation : Int)
    (event : CoordinationEventInput) : CoordinationEventFence where
  rowid := nextRowid CoordinationEventFence.rowid fences
  streamId := event.streamId
  idempotencyKey := event.idempotencyKey
  eventType := event.eventType
  generation := generation
  payloadDigest := digestPayload event.payload
  createdAt := now

/-- `INSERT … ON CONFLICT(stream_id, idempotency_key) DO UPDATE`. -/
def upsertFence (fences : List CoordinationEventFence) (row : CoordinationEventFence) :
    List CoordinationEventFence :=
  if fences.any (CoordinationEventFence.isOf row.streamId row.idempotencyKey) then
    fences.map fun old =>
      if old.isOf row.streamId row.idempotencyKey then { row with rowid := old.rowid } else old
  else fences ++ [row]

/-! ## Retention -/

/-- `ORDER BY created_at, rowid`. -/
def fenceAge (fence : CoordinationEventFence) : List Nat ×ₗ Nat :=
  toLex (utf8 fence.createdAt, fence.rowid)

/-- `ORDER BY created_at, stream_id, rowid`. -/
def totalFenceAge (fence : CoordinationEventFence) : List Nat ×ₗ List Nat ×ₗ Nat :=
  toLex (utf8 fence.createdAt, toLex (utf8 fence.streamId, fence.rowid))

/-- `ORDER BY created_at, stream_id, version`. -/
def eventAge (event : CoordinationEvent) : List Nat ×ₗ List Nat ×ₗ Nat :=
  toLex (utf8 event.createdAt, toLex (utf8 event.streamId, event.version))

/-- The fences of one stream above `maxEventFencesPerStream`. -/
def pruneStreamFences (bound : Int) (streamId : JsString) (fences : List CoordinationEventFence) :
    List CoordinationEventFence :=
  let overflow := ((fences.filter (·.streamId == streamId)).length : Int) - bound
  if 0 < overflow then
    deleteFirst CoordinationEventFence.rowid fenceAge (·.streamId == streamId) overflow.toNat fences
  else fences

/-- The fences above `maxTotalEventFences`. -/
def pruneTotalFences (bound : Int) (fences : List CoordinationEventFence) :
    List CoordinationEventFence :=
  let overflow := (fences.length : Int) - bound
  if 0 < overflow then
    deleteFirst CoordinationEventFence.rowid totalFenceAge (fun _ => true) overflow.toNat fences
  else fences

/-- The events of one stream below its floor. -/
def pruneStreamEvents (bound : Int) (streamId : JsString) (nextVersion : Nat)
    (events : List CoordinationEvent) : List CoordinationEvent :=
  let streamFloor := (nextVersion : Int) - bound
  if 0 < streamFloor then
    events.filter fun event => !(event.streamId == streamId && (event.version : Int) ≤ streamFloor)
  else events

/-- The events above `maxTotalEvents`, but the newest of each stream. -/
def pruneTotalEvents (bound : Int) (events : List CoordinationEvent) : List CoordinationEvent :=
  let overflow := (events.length : Int) - bound
  if 0 < overflow then
    deleteFirst CoordinationEvent.rowid eventAge
      (fun event => event.version < streamVersion events event.streamId) overflow.toNat events
  else events

/-! ## Transitions -/

/-- The fence of the event's key, and what it says of the event. -/
def fenceOutcome (db : CoordinationDb) (generation : Int) (event : CoordinationEventInput) :
    Option CoordinationTransitionOutcome :=
  (db.fences.find? (CoordinationEventFence.isOf event.streamId event.idempotencyKey)).map
    fun fence =>
    if fence.eventType = event.eventType ∧ fence.generation = generation
        ∧ fence.payloadDigest = digestPayload event.payload then .duplicate
    else .idempotencyConflict

/-- `expectedRevision` against the current row. -/
def revisionConflicts (expected : ExpectedRevision) (current : Option CoordinationState) : Bool :=
  match expected with
  | .unspecified => false
  | .absent => current.isSome
  | .revision n => current.all fun row => (row.revision : Int) ≠ n

/-- The outcome, in the order the checks are made. -/
def transitionOutcome (db : CoordinationDb) (input : CoordinationTransitionInput)
    (current : Option CoordinationState) : CoordinationTransitionOutcome :=
  match input.event.bind (fenceOutcome digestPayload db input.generation) with
  | some outcome => outcome
  | none =>
    if current.any (fun row => input.generation < row.generation) then .staleGeneration
    else if revisionConflicts input.expectedRevision current then .revisionConflict
    else if input.event.any (fun event => event.expectedStreamVersion.any fun (version : Int) =>
        version ≠ (streamVersion db.events event.streamId : Int)) then .streamVersionConflict
    else .applied

/-- The event and its fence, and what retention leaves of both tables. -/
def appendCoordinationEvent (bounds : EventBounds) (now : JsString) (generation : Int)
    (db : CoordinationDb) (event : CoordinationEventInput) :
    Except CoordinationError CoordinationDb := do
  let row := eventRow db.events now generation event
  let events ← insertCoordinationEvent db.events row
  let fences := upsertFence db.fences (fenceRow digestPayload db.fences now generation event)
  let fences := pruneStreamFences bounds.maxEventFencesPerStream event.streamId fences
  let fences := pruneTotalFences bounds.maxTotalEventFences fences
  let events := pruneStreamEvents bounds.maxEventsPerStream event.streamId row.version events
  let events := pruneTotalEvents bounds.maxTotalEvents events
  .ok { db with events := events, fences := fences }

/-- The row an applied transition leaves. -/
def nextState (now : JsString) (input : CoordinationTransitionInput)
    (current : Option CoordinationState) : CoordinationState where
  namespace_ := input.namespace_
  entityKey := input.entityKey
  revision := (current.map CoordinationState.revision).getD 0 + 1
  generation := input.generation
  status := input.status
  payload := input.payload
  updatedAt := now

/-- The event of a transition, if it bears one. -/
def appendInputEvent (bounds : EventBounds) (now : JsString) (db : CoordinationDb)
    (input : CoordinationTransitionInput) : Except CoordinationError CoordinationDb :=
  match input.event with
  | none => .ok db
  | some event => appendCoordinationEvent digestPayload bounds now input.generation db event

/-- The writes of an applied transition. -/
def applyTransition (bounds : EventBounds) (now : JsString) (db : CoordinationDb)
    (input : CoordinationTransitionInput) (current : Option CoordinationState) :
    Except CoordinationError (CoordinationDb × CoordinationTransitionResult) := do
  let appended ← appendInputEvent digestPayload bounds now db input
  let written := appended.upsertState (nextState now input current)
  let state ← readState written input.namespace_ input.entityKey
  .ok (written, ⟨.applied, state⟩)

/-- `transitionCoordinationState`; `now` is its clock. -/
def transitionCoordinationState (bounds : EventBounds) (now : JsString) (db : CoordinationDb)
    (input : CoordinationTransitionInput) :
    Except CoordinationError (CoordinationDb × CoordinationTransitionResult) := do
  validateTransitionInput input
  let current ← readState db input.namespace_ input.entityKey
  match transitionOutcome digestPayload db input current with
  | .applied => applyTransition digestPayload bounds now db input current
  | outcome => .ok (db, ⟨outcome, current⟩)

/-- What the transaction leaves of a call, whatever it answers. -/
def CoordinationDb.after (db : CoordinationDb) (bounds : EventBounds) (now : JsString)
    (input : CoordinationTransitionInput) : CoordinationDb :=
  match transitionCoordinationState digestPayload bounds now db input with
  | .ok (next, _) => next
  | .error _ => db

end Transition

end OpencodeSwarm
