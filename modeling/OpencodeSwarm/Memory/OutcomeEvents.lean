/-
  OpencodeSwarm.Memory.OutcomeEvents

  Outcome events (`src/memory/outcome-events.ts`): each belongs to one memory and
  one generation of it, and a base record together with the events that match it
  gives the record as it is seen.
-/
import OpencodeSwarm.Memory.MemoryRecord

namespace OpencodeSwarm

open Js

structure MemoryOutcomeEvent where
  id : JsString
  memoryId : JsString
  generation : JsString
  outcome : MemoryOutcome
  anchors : List MemoryAnchor
  deriving DecidableEq

def compareText (a b : JsString) : Int := if a = b then 0 else if codeUnitLe a b then -1 else 1

def dedupeAnchors (anchors : List MemoryAnchor) : List MemoryAnchor :=
  let byKey := anchors.foldl (fun byKey anchor =>
    OrderedMap.set byKey (anchor.file, anchor.symbol) anchor) ([] : OrderedMap _ MemoryAnchor)
  sortBy (fun a b =>
    let files := compareText a.file b.file
    if files ≠ 0 then files else compareText (a.symbol.getD []) (b.symbol.getD []))
    (OrderedMap.values byKey)

/-- `validateOutcomeEvent`: whether an event passes, and its anchors without duplicates. -/
def validateOutcomeEvent (event : MemoryOutcomeEvent) : Option MemoryOutcomeEvent :=
  if event.id.length < 1 ∨ 256 < event.id.length ∨ event.generation.length < 1
      ∨ 256 < event.generation.length then none
  else if (event.outcome.outcome = .corrected ∧ (truthyString event.outcome.correction).isNone)
      ∨ (event.outcome.outcome ≠ .corrected ∧ event.outcome.correction.isSome) then none
  else some { event with anchors := dedupeAnchors event.anchors }

def validateOutcomeEventForMemory (host : MemoryHost) (rejectDurableSecrets : Bool)
    (event : MemoryOutcomeEvent) (memory : MemoryRecord) : Option MemoryOutcomeEvent :=
  (validateOutcomeEvent event).filter fun event =>
    !(rejectDurableSecrets && memory.stability == .durable
      && event.outcome.correction.any host.containsSecret)

/-- What a replay of an event has to repeat: all but the time of its outcome. -/
structure OutcomeReplayIdentity where
  id : JsString
  memoryId : JsString
  generation : JsString
  outcome : MemoryOutcomeKind
  taskId : Option JsString
  correction : Option JsString
  anchors : List MemoryAnchor
  deriving DecidableEq

def outcomeEventReplayIdentity (event : MemoryOutcomeEvent) : OutcomeReplayIdentity where
  id := event.id
  memoryId := event.memoryId
  generation := event.generation
  outcome := event.outcome.outcome
  taskId := event.outcome.taskId
  correction := event.outcome.correction
  anchors := event.anchors

/-- `assertEventIdentityCompatible`, where it does not throw. -/
def eventIdentityCompatible (existing : Option MemoryOutcomeEvent) (next : MemoryOutcomeEvent) :
    Bool :=
  existing.all fun existing =>
    decide (outcomeEventReplayIdentity existing = outcomeEventReplayIdentity next)

/-- `events.find((candidate) => candidate.id === id)`. -/
def findEvent (events : List MemoryOutcomeEvent) (id : JsString) : Option MemoryOutcomeEvent :=
  events.find? fun candidate => candidate.id = id

/-- The metadata with a string under a key. -/
def MemoryRecord.withMetadata (record : MemoryRecord) (key : JsString) (value : Json) :
    MemoryRecord :=
  { record with metadata := OrderedMap.set record.metadata key value }

/-- `ensureOutcomeGeneration`, with the identifier that is drawn when there is none. -/
def ensureOutcomeGeneration (fresh : JsString) (record : MemoryRecord) : MemoryRecord :=
  match record.outcomeGeneration? with
  | some (_ :: _) => record
  | _ => record.withMetadata (js "outcomeGeneration") (.str fresh)

def stripMaterializedOutcomes (record : MemoryRecord) : MemoryRecord :=
  { record with
    metadata := OrderedMap.erase record.metadata (js "outcomeEventIds")
    outcomes := none }

/-- The events of a memory's generation, in the order they are shown. -/
def matchingEvents (id generation : JsString) (events : List MemoryOutcomeEvent) :
    List MemoryOutcomeEvent :=
  sortBy (fun a b =>
    let times := compareText a.outcome.at' b.outcome.at'
    if times ≠ 0 then times else compareText a.id b.id)
    (events.filter fun event => event.memoryId = id ∧ event.generation = generation)

/-- The memory with the outcomes of its generation. -/
def materializeOutcomeRecord (base : MemoryRecord) (events : List MemoryOutcomeEvent) :
    MemoryRecord :=
  match base.outcomeGeneration? with
  | none | some [] => base
  | some generation =>
    let shown := matchingEvents base.id generation events
    let anchors := dedupeAnchors (base.anchorList ++ shown.flatMap MemoryOutcomeEvent.anchors)
    { base with
      metadata :=
        if shown = [] then OrderedMap.erase base.metadata (js "outcomeEventIds")
        else OrderedMap.set base.metadata (js "outcomeEventIds")
          (.arr (shown.map fun event => .str event.id))
      anchors := if anchors = [] then none else some anchors
      outcomes := if shown = [] then none else some (shown.map MemoryOutcomeEvent.outcome) }

section Import

variable (host : MemoryHost)

/-- `canonicalOutcomePayload`, of an event: equal texts are equal payloads. -/
def canonicalOutcomePayload (outcome : MemoryOutcome) (anchors : List MemoryAnchor) : Json :=
  .obj [(js "anchors", .arr ((dedupeAnchors anchors).map fun anchor =>
      Json.ofFields [(js "file", some (.str anchor.file)), (js "symbol", anchor.symbol.map .str)])),
    (js "outcome", Json.ofFields [(js "at", some (.str outcome.at')),
      (js "correction", outcome.correction.map .str),
      (js "outcome", some (.str (match outcome.outcome with
        | .useful => js "useful"
        | .deadEnd => js "dead_end"
        | .corrected => js "corrected"))),
      (js "taskId", outcome.taskId.map .str)])]

/-- `metadata.outcomeEventIds`, its strings. -/
def outcomeEventIds (record : MemoryRecord) : List JsString :=
  match OrderedMap.get? record.metadata (js "outcomeEventIds") with
  | some (.arr ids) => ids.filterMap fun id =>
    match id with
    | .str text => some text
    | _ => none
  | _ => []

/-- One outcome of `importMaterializedOutcomeEvents`, behind those of the same payload. -/
def importOutcome (record : MemoryRecord) (generation : JsString)
    (existing : List MemoryOutcomeEvent) (earlier : List JsString) (index : Nat)
    (outcome : MemoryOutcome) : MemoryOutcomeEvent :=
  let payload := (canonicalOutcomePayload outcome record.anchorList).stringify
  let ordinal := earlier.count payload
  let matched := (existing.filter fun event =>
    event.memoryId = record.id ∧ event.generation = generation
      ∧ (canonicalOutcomePayload event.outcome event.anchors).stringify = payload)[ordinal]?
  { id := ((outcomeEventIds record)[index]?.or (matched.map MemoryOutcomeEvent.id)).getD
      (js "import-" ++ (host.sha256 (record.id ++ js ":" ++ generation ++ js ":" ++ payload
        ++ js ":" ++ decimal ordinal)).take 32)
    memoryId := record.id
    generation := generation
    outcome := outcome
    anchors := dedupeAnchors record.anchorList }

def importMaterializedOutcomeEvents (record : MemoryRecord) (generation : JsString)
    (existing : List MemoryOutcomeEvent) : List MemoryOutcomeEvent :=
  record.outcomeList.zipIdx.map fun (outcome, index) =>
    importOutcome host record generation existing
      ((record.outcomeList.take index).map fun earlier =>
        (canonicalOutcomePayload earlier record.anchorList).stringify) index outcome

end Import

end OpencodeSwarm
