/-
  OpencodeSwarm.Plan.LedgerEvent

  Plan identity and the ledger's event record (`src/plan/ledger.ts`,
  `src/plan/utils.ts`).
-/
import OpencodeSwarm.Config.PlanSchema

namespace OpencodeSwarm

open Js

/-! ## Plan identity -/

/-- The class `[a-zA-Z0-9-_]`. -/
def isPlanIdUnit (c : CodeUnit) : Bool :=
  (0x61 ≤ c && c ≤ 0x7A) || (0x41 ≤ c && c ≤ 0x5A) || (0x30 ≤ c && c ≤ 0x39)
    || c = 0x2D || c = 0x5F

/-- `${swarm}-${title}` with every other unit replaced by an underscore. -/
def derivePlanId (plan : Plan) : JsString :=
  (plan.swarm ++ 0x2D :: plan.title).map fun c => if isPlanIdUnit c then c else 0x5F

/-! ## Events -/

/-- `LEDGER_EVENT_TYPES`; `other` is a type this version does not know, which
    only the shape check of the reader lets through. -/
inductive LedgerEventType where
  | planCreated
  | taskAdded
  | taskRemoved
  | taskUpdated
  | taskStatusChanged
  | taskReordered
  | phaseCompleted
  | planRebuilt
  | planExported
  | planReset
  | snapshot
  | executionProfileSet
  | executionProfileLocked
  | other (name : JsString)
  deriving DecidableEq, Repr

/-- The payload members the ledger reads back: the embedded plan with its
    hash, the epoch metadata, and an embedded execution profile.  `rest` is the
    text of the members nothing reads (approval metadata, recovery link). -/
structure LedgerEventPayload where
  plan : Option Plan := none
  payloadHash : Option JsString := none
  planEpoch : Option JsString := none
  rootEventHash : Option JsString := none
  executionProfile : Option ExecutionProfile := none
  rest : JsString := []
  deriving DecidableEq, Repr

/-- `LedgerEvent`, standing for its canonical line as well: a line is the JSON
    text of one event.  A `to_status` outside `TaskStatusSchema` is read as
    absent: replay skips both alike. -/
structure LedgerEvent where
  seq : Nat
  timestamp : JsString
  planId : JsString
  eventType : LedgerEventType
  taskId : Option JsString := none
  phaseId : Option Nat := none
  fromStatus : Option TaskStatus := none
  toStatus : Option TaskStatus := none
  source : JsString
  planHashBefore : JsString
  planHashAfter : JsString
  payload : Option LedgerEventPayload := none
  deriving DecidableEq, Repr

/-- The ledger tail the caller decided on. -/
structure ExpectedTail where
  seq : Nat
  ledgerHash : JsString

def LedgerEvent.planEpoch (event : LedgerEvent) : Option JsString :=
  event.payload.bind LedgerEventPayload.planEpoch

def LedgerEvent.rootEventHash (event : LedgerEvent) : Option JsString :=
  event.payload.bind LedgerEventPayload.rootEventHash

/-- `payload.plan`, when it is there and passes `PlanSchema.safeParse`. -/
def LedgerEvent.embeddedPlan (event : LedgerEvent) : Option Plan :=
  (event.payload.bind LedgerEventPayload.plan).filter Plan.wellFormed

end OpencodeSwarm
