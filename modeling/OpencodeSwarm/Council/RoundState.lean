/-
  OpencodeSwarm.Council.RoundState

  The rounds of a council scope (`src/council/council-round-state.ts`): what its
  state file and its audit hold, and which of it a reader accepts.

  The audit of a scope is a list of records, oldest first.  A record is appended
  whole, so the file ends with a line break.
-/
import OpencodeSwarm.Lib.Json
import OpencodeSwarm.Lib.JsonText

namespace OpencodeSwarm

open Js

def councilVersion : Nat := 2
def maxRound : Int := 10
def maxAuditTail : Nat := 256 * 1024

/-! ## Texts -/

def isLowerHex (c : CodeUnit) : Bool := isJsonDigit c || (0x61 ≤ c && c ≤ 0x66)

/-- A group of `UUID_PATTERN`: its first digit is one of `first`. -/
def isUuidGroup (first : JsString) (length : Nat) (group : JsString) : Bool :=
  group.length == length && group.all isHexDigit && group.head?.any first.contains

def isUuid (value : JsString) : Bool :=
  match value.splitOn 0x2D with
  | [a, b, c, d, e] =>
    isUuidGroup (js "0123456789abcdefABCDEF") 8 a && isUuidGroup (js "0123456789abcdefABCDEF") 4 b
      && isUuidGroup (js "12345678") 4 c && isUuidGroup (js "89abAB") 4 d
      && isUuidGroup (js "0123456789abcdefABCDEF") 12 e
  | _ => false

/-- `DIGEST_PATTERN`. -/
def isDigest (value : JsString) : Bool := value.length == 64 && value.all isLowerHex

def isRound (value : Int) : Bool := 1 ≤ value && value ≤ maxRound

def isDisposition (value : JsString) : Bool := 0 < value.length && value.length ≤ 80

def isEvidenceRef (value : JsString) : Bool :=
  0 < value.length && value.length ≤ 240 && (js ".swarm/").isPrefixOf value
    && !includes value (js "..")

/-! ## Scopes -/

inductive CouncilRoundScope where
  | task (taskId identityDigest : JsString)
  | phase (phaseNumber : Int) (identityDigest : JsString)
  | final (identityDigest : JsString)
  deriving DecidableEq

def CouncilRoundScope.identityDigest : CouncilRoundScope → JsString
  | .task _ digest | .phase _ digest | .final digest => digest

/-- `/^\d+\.\d+(\.\d+)*$/`. -/
def isCouncilTaskId (taskId : JsString) : Bool :=
  2 ≤ (taskId.splitOn 0x2E).length
    && (taskId.splitOn 0x2E).all fun part => part != [] && part.all isJsonDigit

/-- The checks of `scopeToken`: a scope that fails them names no file. -/
def CouncilRoundScope.valid : CouncilRoundScope → Bool
  | .task taskId digest => isCouncilTaskId taskId && isDigest digest
  | .phase phaseNumber digest => 1 ≤ phaseNumber && phaseNumber ≤ 1000 && isDigest digest
  | .final digest => isDigest digest

/-- A scope with files of its own. -/
structure CouncilScope where
  scope : CouncilRoundScope
  valid : scope.valid = true

inductive AuditScope where
  | task (scopeHash identityDigest : JsString)
  | phase (phaseNumber : Int) (identityDigest : JsString)
  | final (scopeHash identityDigest : JsString)
  deriving DecidableEq

def auditScope (sha256 : JsString → JsString) : CouncilRoundScope → AuditScope
  | .task taskId digest => .task (sha256 taskId) digest
  | .phase phaseNumber digest => .phase phaseNumber digest
  | .final digest => .final (sha256 digest) digest

def sameAuditScope : AuditScope → AuditScope → Bool
  | .task leftHash left, .task rightHash right => left == right && leftHash == rightHash
  | .phase leftNumber left, .phase rightNumber right => left == right && leftNumber == rightNumber
  | .final leftHash left, .final rightHash right => left == right && leftHash == rightHash
  | _, _ => false

/-! ## Records -/

inductive CouncilRoundTransition where
  | stay | advance | close
  deriving DecidableEq

inductive CouncilStatus where
  | opened | closed
  deriving DecidableEq

inductive GateEffect where
  | none | blocked | allowed
  deriving DecidableEq

inductive CouncilVerdict where
  | approve | concerns | reject
  deriving DecidableEq

structure StateSnapshot where
  version : Nat
  identityDigest : JsString
  currentRound : Int
  status : CouncilStatus
  maxRoundsExhausted : Bool
  lastAttemptId : Option JsString
  lastDigest : Option JsString
  deriving DecidableEq

structure PendingAttempt where
  attemptId : JsString
  digest : JsString
  round : Int
  transition : CouncilRoundTransition
  nextState : StateSnapshot
  disposition : JsString
  gateEffect : GateEffect
  evidenceExpected : Bool
  evidenceRef : Option JsString
  verdict : Option CouncilVerdict
  quorumSize : Option Int
  deriving DecidableEq

structure CouncilRoundState extends StateSnapshot where
  pending : Option PendingAttempt
  deriving DecidableEq

inductive AttemptEvent where
  | received | finalized | recovered
  deriving DecidableEq

structure AttemptRecord where
  version : Nat
  event : AttemptEvent
  attemptId : JsString
  timestamp : JsString
  scope : AuditScope
  clientRound : Option Int
  authoritativeRound : Int
  digest : JsString
  sessionHash : Option JsString
  disposition : JsString
  verdictCount : Int
  members : List JsString
  transition : Option CouncilRoundTransition
  gateEffect : Option GateEffect
  verdict : Option CouncilVerdict
  quorumSize : Option Int
  evidenceRef : Option JsString
  nextState : Option StateSnapshot
  deriving DecidableEq

/-! ## Their text -/

def CouncilRoundTransition.text : CouncilRoundTransition → JsString
  | .stay => js "stay"
  | .advance => js "advance"
  | .close => js "close"

def CouncilStatus.text : CouncilStatus → JsString
  | .opened => js "open"
  | .closed => js "closed"

def GateEffect.text : GateEffect → JsString
  | .none => js "none"
  | .blocked => js "blocked"
  | .allowed => js "allowed"

def CouncilVerdict.text : CouncilVerdict → JsString
  | .approve => js "APPROVE"
  | .concerns => js "CONCERNS"
  | .reject => js "REJECT"

def AttemptEvent.text : AttemptEvent → JsString
  | .received => js "received"
  | .finalized => js "finalized"
  | .recovered => js "recovered"

def AuditScope.toJson : AuditScope → Json
  | .task scopeHash digest =>
    .obj [(js "kind", .str (js "task")), (js "scopeHash", .str scopeHash),
      (js "identityDigest", .str digest)]
  | .phase phaseNumber digest =>
    .obj [(js "kind", .str (js "phase")), (js "phaseNumber", .num phaseNumber),
      (js "identityDigest", .str digest)]
  | .final scopeHash digest =>
    .obj [(js "kind", .str (js "final")), (js "scopeHash", .str scopeHash),
      (js "identityDigest", .str digest)]

def StateSnapshot.toJson (state : StateSnapshot) : Json :=
  .ofFields [(js "version", some (.num state.version)),
    (js "identityDigest", some (.str state.identityDigest)),
    (js "currentRound", some (.num state.currentRound)),
    (js "status", some (.str state.status.text)),
    (js "maxRoundsExhausted", some (.bool state.maxRoundsExhausted)),
    (js "lastAttemptId", state.lastAttemptId.map .str),
    (js "lastDigest", state.lastDigest.map .str)]

def AttemptRecord.toJson (record : AttemptRecord) : Json :=
  .ofFields [(js "version", some (.num record.version)),
    (js "attemptId", some (.str record.attemptId)),
    (js "timestamp", some (.str record.timestamp)),
    (js "scope", some record.scope.toJson),
    (js "clientRound", record.clientRound.map .num),
    (js "authoritativeRound", some (.num record.authoritativeRound)),
    (js "digest", some (.str record.digest)),
    (js "sessionHash", record.sessionHash.map .str),
    (js "disposition", some (.str record.disposition)),
    (js "verdictCount", some (.num record.verdictCount)),
    (js "members", some (.arr (record.members.map .str))),
    (js "event", some (.str record.event.text)),
    (js "transition", record.transition.map fun transition => .str transition.text),
    (js "gateEffect", record.gateEffect.map fun effect => .str effect.text),
    (js "verdict", record.verdict.map fun verdict => .str verdict.text),
    (js "quorumSize", record.quorumSize.map .num),
    (js "evidenceRef", record.evidenceRef.map .str),
    (js "nextState", record.nextState.map StateSnapshot.toJson)]

/-- The bytes of the record's line. -/
def AttemptRecord.lineBytes (record : AttemptRecord) : Nat :=
  utf8Length record.toJson.stringify + 1

def auditBytes (audit : List AttemptRecord) : Nat := (audit.map AttemptRecord.lineBytes).sum

/-! ## What a reader accepts -/

def isSnapshot (state : StateSnapshot) : Bool :=
  state.version == councilVersion && isDigest state.identityDigest && isRound state.currentRound
    && state.lastAttemptId.all isUuid && state.lastDigest.all isDigest
    && state.lastAttemptId.isNone == state.lastDigest.isNone

def isQuorumSize (value : Int) : Bool := 0 ≤ value && value ≤ 5

/-- Whether a pending attempt can follow a state. -/
def pendingMatchesParent (state : StateSnapshot) (pending : PendingAttempt) : Bool :=
  state.status == .opened && pending.round == state.currentRound
    && pending.nextState.lastAttemptId == some pending.attemptId
    && pending.nextState.lastDigest == some pending.digest
    && match pending.transition with
      | .stay =>
        pending.nextState.status == .opened
          && pending.nextState.currentRound == state.currentRound
          && pending.nextState.maxRoundsExhausted == state.maxRoundsExhausted
      | .close =>
        pending.nextState.status == .closed
          && pending.nextState.currentRound == state.currentRound
          && pending.nextState.maxRoundsExhausted == state.maxRoundsExhausted
      | .advance =>
        pending.nextState.status == .opened
          && ((pending.nextState.currentRound == state.currentRound + 1
              && pending.nextState.maxRoundsExhausted == false)
            || (pending.nextState.currentRound == state.currentRound
              && pending.nextState.maxRoundsExhausted == true))

/-- The checks `parseState` makes of a pending attempt. -/
def isPending (state : StateSnapshot) (pending : PendingAttempt) : Bool :=
  isUuid pending.attemptId && isDigest pending.digest && isRound pending.round
    && isSnapshot pending.nextState && isDisposition pending.disposition
    && pending.evidenceExpected == pending.evidenceRef.isSome
    && pending.evidenceRef.all isEvidenceRef && pending.quorumSize.all isQuorumSize
    && pending.verdict.isNone == pending.quorumSize.isNone
    && pendingMatchesParent state pending

def parseState (state : CouncilRoundState) (expectedIdentityDigest : JsString) :
    Except String CouncilRoundState :=
  if !isSnapshot state.toStateSnapshot then .error "council round state is invalid"
  else if state.identityDigest ≠ expectedIdentityDigest then
    .error "council round state identity does not match the request scope"
  else if !state.pending.all (isPending state.toStateSnapshot) then
    .error "pending council state is invalid"
  else .ok state

/-- Whether the state of a record is where its transition leads. -/
def auditTransitionIsConsistent (record : AttemptRecord) (transition : CouncilRoundTransition)
    (nextState : StateSnapshot) : Bool :=
  match transition with
  | .close =>
    nextState.status == .closed && nextState.currentRound == record.authoritativeRound
  | .stay =>
    !(nextState.status == .closed
      && !List.contains [js "duplicate_submission", js "council_round_closed",
        js "council_round_mismatch"] record.disposition)
      && nextState.currentRound == record.authoritativeRound
  | .advance =>
    nextState.status == .opened
      && ((nextState.currentRound == record.authoritativeRound + 1
          && nextState.maxRoundsExhausted == false)
        || (nextState.currentRound == record.authoritativeRound
          && nextState.maxRoundsExhausted == true))

/-- What the outside of the code decides of a record: its hash and its clock. -/
structure CouncilHost where
  sha256 : JsString → JsString
  /-- `Number.isFinite(Date.parse(text))`. -/
  isDate : JsString → Bool
  /-- SHA-256 in lower-case hexadecimal. -/
  isDigest_sha256 : ∀ text, isDigest (sha256 text) = true

variable (host : CouncilHost)

/-- The fields of every record. -/
def isRecordBase (expectedScope : AuditScope) (record : AttemptRecord) : Bool :=
  record.version == councilVersion && isUuid record.attemptId
    && record.timestamp.length ≤ 40 && host.isDate record.timestamp
    && sameAuditScope record.scope expectedScope && record.clientRound.all isRound
    && isRound record.authoritativeRound && isDigest record.digest
    && record.sessionHash.all isDigest && isDisposition record.disposition
    && isQuorumSize record.verdictCount && record.members.length ≤ 5
    && record.members.all (fun member => member != [] && member.length ≤ 32)
    && decide record.members.Nodup

/-- The fields that depend on the event. -/
def isRecordOutcome (record : AttemptRecord) : Bool :=
  match record.event with
  | .received =>
    record.disposition == js "received" && record.transition.isNone && record.gateEffect.isNone
      && record.nextState.isNone && record.evidenceRef.isNone
  | .finalized | .recovered =>
    match record.transition, record.nextState with
    | some transition, some nextState =>
      record.gateEffect.isSome && isSnapshot nextState
        && nextState.lastAttemptId == some record.attemptId
        && nextState.lastDigest == some record.digest
        && auditTransitionIsConsistent record transition nextState
    | _, _ => false

def isAuditRecord (expectedScope : AuditScope) (record : AttemptRecord) : Bool :=
  isRecordBase host expectedScope record && isRecordOutcome record
    && record.quorumSize.all isQuorumSize
    && record.verdict.isNone == record.quorumSize.isNone
    && record.evidenceRef.all isEvidenceRef

def parseAuditRecord (expectedScope : AuditScope) (record : AttemptRecord) :
    Except String AttemptRecord :=
  if isAuditRecord host expectedScope record then .ok record
  else .error "council attempt audit is corrupt"

/-! ## The tail of the audit -/

structure AuditTail where
  records : List AttemptRecord
  truncated : Bool
  deriving DecidableEq

/-- The records behind the first line break of the last `maxAuditTail` bytes. -/
def recordsInTail : List AttemptRecord → List AttemptRecord
  | [] => []
  | record :: later =>
    if auditBytes (record :: later) < maxAuditTail then record :: later else recordsInTail later

def auditTail (audit : List AttemptRecord) : AuditTail :=
  if auditBytes audit ≤ maxAuditTail then ⟨audit, false⟩ else ⟨recordsInTail audit, true⟩

def readAuditTail (scope : CouncilScope) (audit : List AttemptRecord) :
    Except String AuditTail := do
  let records ← (auditTail audit).records.mapM
    (parseAuditRecord host (auditScope host.sha256 scope.scope))
  return ⟨records, (auditTail audit).truncated⟩

def latestRecord (records : List AttemptRecord) (attemptId : JsString) : Option AttemptRecord :=
  records.reverse.find? fun record => record.attemptId == attemptId

/-! ## Recovery from the audit -/

def initialState (identityDigest : JsString) : StateSnapshot where
  version := councilVersion
  identityDigest := identityDigest
  currentRound := 1
  status := .opened
  maxRoundsExhausted := false
  lastAttemptId := none
  lastDigest := none

/-- The variables of the loop of `recoverAuditHistory`. -/
structure AuditHistory where
  current : Option StateSnapshot
  awaiting : Option AttemptRecord
  sawTransition : Bool
  deriving DecidableEq

/-- A transition follows from the state the history has reached. -/
def checkTransition (current : StateSnapshot) (record : AttemptRecord)
    (transition : CouncilRoundTransition) (nextState : StateSnapshot) : Except String Unit :=
  if record.authoritativeRound ≠ current.currentRound then
    .error "council audit transition regresses the authoritative round"
  else if transition = .stay ∧ nextState.status ≠ current.status then
    .error "council audit stay transition changes scope status"
  else if (transition = .stay ∨ transition = .close)
      ∧ nextState.maxRoundsExhausted ≠ current.maxRoundsExhausted then
    .error "council audit changes exhaustion without advancing"
  else if current.status = .closed ∧ (transition ≠ .stay ∨ nextState.status ≠ .closed) then
    .error "council audit reopens a closed scope"
  else .ok ()

/-- A transition has the received record before it, unless the tail has lost it. -/
def checkPairing (truncated : Bool) (history : AuditHistory) (record : AttemptRecord) :
    Except String Unit :=
  match history.awaiting with
  | some awaiting =>
    if awaiting.attemptId ≠ record.attemptId ∨ awaiting.digest ≠ record.digest
        ∨ awaiting.authoritativeRound ≠ record.authoritativeRound then
      .error "council audit attempt pairing is inconsistent"
    else .ok ()
  | none =>
    if !truncated || history.sawTransition then
      .error "council audit transition has no matching received record"
    else .ok ()

/-- A received record opens an attempt at the round reached. -/
def receiveRecord (truncated : Bool) (history : AuditHistory) (record : AttemptRecord) :
    Except String AuditHistory :=
  if history.awaiting.isSome then .error "council audit contains overlapping attempts"
  else if history.current.any (fun current => record.authoritativeRound != current.currentRound)
      || (history.current.isNone && !truncated && record.authoritativeRound != 1) then
    .error "council audit round history is not monotonic"
  else .ok { history with awaiting := some record }

/-- A finalized or recovered record closes it. -/
def concludeRecord (truncated : Bool) (history : AuditHistory) (record : AttemptRecord) :
    Except String AuditHistory :=
  match record.transition, record.nextState with
  | some transition, some nextState => do
    checkPairing truncated history record
    match history.current with
    | some current => checkTransition current record transition nextState
    | none => pure ()
    return ⟨some nextState, none, true⟩
  | _, _ => .error "council audit transition is incomplete"

def auditStep (truncated : Bool) (history : AuditHistory) (record : AttemptRecord) :
    Except String AuditHistory :=
  match record.event with
  | .received => receiveRecord truncated history record
  | .finalized | .recovered => concludeRecord truncated history record

def recoverAuditHistory (tail : AuditTail) (identityDigest : JsString) :
    Except String (Option StateSnapshot) := do
  let start : AuditHistory :=
    ⟨if tail.truncated then none else some (initialState identityDigest), none, false⟩
  let history ← tail.records.foldlM (auditStep tail.truncated) start
  if history.awaiting.isSome then
    .error "council audit ends with an unresolved received attempt"
  else return history.current

/-! ## The records of an attempt in flight -/

def snapshot (state : StateSnapshot) : StateSnapshot :=
  { state with version := councilVersion }

def sameSnapshot (left right : StateSnapshot) : Bool :=
  left.version == right.version && left.currentRound == right.currentRound
    && left.status == right.status && left.maxRoundsExhausted == right.maxRoundsExhausted
    && left.lastAttemptId == right.lastAttemptId && left.lastDigest == right.lastDigest

/-- `{ ...snapshot(state), lastAttemptId, lastDigest }`. -/
def stayingState (state : StateSnapshot) (attemptId digest : JsString) : StateSnapshot :=
  { snapshot state with lastAttemptId := some attemptId, lastDigest := some digest }

/-- Whether a record is the end of the pending attempt. -/
def pendingTerminalMatches (state : StateSnapshot) (pending : PendingAttempt)
    (record : AttemptRecord) : Bool :=
  record.attemptId == pending.attemptId && record.digest == pending.digest
    && record.authoritativeRound == pending.round
    && match record.nextState with
      | none => false
      | some nextState =>
        record.verdict == pending.verdict && record.quorumSize == pending.quorumSize
          && record.evidenceRef == pending.evidenceRef
          && match record.event with
            | .received => false
            | .finalized =>
              record.disposition == pending.disposition
                && record.transition == some pending.transition
                && record.gateEffect == some pending.gateEffect
                && sameSnapshot nextState pending.nextState
            | .recovered =>
              if record.disposition = js "pending_evidence_recovered" then
                record.transition == some pending.transition
                  && record.gateEffect == some pending.gateEffect
                  && sameSnapshot nextState pending.nextState
              else
                record.disposition == js "orphan_recovered" && record.transition == some .stay
                  && record.gateEffect == some .none
                  && sameSnapshot nextState (stayingState state pending.attemptId pending.digest)

/-- The state behind a transition; a round never goes back. -/
def transitionState (state : StateSnapshot) (attemptId digest : JsString)
    (transition : CouncilRoundTransition) (maxRounds : Int) : StateSnapshot :=
  let configuredLimit := max 1 (min maxRound maxRounds)
  -- a limit lowered later does not move the round back
  let limit := max state.currentRound configuredLimit
  let stayed : StateSnapshot :=
    ⟨councilVersion, state.identityDigest, state.currentRound, .opened, state.maxRoundsExhausted,
      some attemptId, some digest⟩
  match transition with
  | .stay => stayed
  | .close => { stayed with status := .closed }
  | .advance =>
    if state.currentRound < limit then
      { stayed with currentRound := state.currentRound + 1, maxRoundsExhausted := false }
    else { stayed with maxRoundsExhausted := true }

end OpencodeSwarm
