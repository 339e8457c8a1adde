/-
  OpencodeSwarm.Council.CouncilAttempt

  `runCouncilAttempt` (`src/council/council-round-state.ts`).  An attempt runs
  under the lock of its scope, so nothing but its own writes changes the files
  between its reads and its end: it is the list of its durable writes, and a crash
  (or a write that throws) is a cut of that list.
-/
import OpencodeSwarm.Council.RoundState
import OpencodeSwarm.Lib.Transition

namespace OpencodeSwarm

open Js

/-! ## Files -/

/-- The state file, the audit and the evidence of one scope. -/
structure CouncilFiles where
  state : Option CouncilRoundState
  audit : List AttemptRecord
  evidence : List JsString
  deriving DecidableEq

def noCouncilFiles : CouncilFiles := ⟨none, [], []⟩

inductive CouncilWrite where
  | state (state : CouncilRoundState)
  | audit (record : AttemptRecord)
  | evidence (attemptId : JsString)
  deriving DecidableEq

def CouncilFiles.write (files : CouncilFiles) : CouncilWrite → CouncilFiles
  | .state state => { files with state := some state }
  | .audit record => { files with audit := files.audit ++ [record] }
  | .evidence attemptId => { files with evidence := files.evidence ++ [attemptId] }

/-! ## Inputs -/

/-- What `evaluate` resolves to, as the three council tools build it. -/
structure CouncilAttemptEvaluation where
  disposition : JsString
  transition : CouncilRoundTransition
  gateEffect : GateEffect
  verdict : Option CouncilVerdict
  quorumSize : Option Int
  /-- The reference of the evidence to commit. -/
  evidence : Option JsString
  disposition_ne_nil : disposition ≠ []
  isNone_verdict : verdict.isNone = quorumSize.isNone
  isQuorumSize_quorumSize : quorumSize.all isQuorumSize = true
  isEvidenceRef_evidence : (evidence.map (List.take 240)).all isEvidenceRef = true

/-- The arguments, within the schemas of the tools: a client round is a round, the
    members are distinct names. -/
structure CouncilAttemptInput where
  clientRound : Option Int
  maxRounds : Int
  sessionID : Option JsString
  /-- `JSON.stringify(canonicalize(request))`. -/
  request : JsString
  verdictCount : Int
  members : List JsString
  probePendingEvidence : Option (JsString → Int → Option JsString → Bool)
  /-- `none`: `evaluate` throws. -/
  evaluate : Int → Option CouncilAttemptEvaluation
  isRound_clientRound : clientRound.all isRound = true
  members_ne_nil : ∀ member ∈ members, member ≠ []
  members_nodup : members.Nodup

/-- An attempt with what the host gives it, and where it ends. -/
structure CouncilCall (host : CouncilHost) where
  input : CouncilAttemptInput
  attemptId : JsString
  /-- `now()` for a recovered record and for the attempt's own. -/
  recoveredAt : JsString
  receivedAt : JsString
  /-- Whether the write of the pending state throws, and the one after it. -/
  pendingWriteFails : Bool
  failedWriteFails : Bool
  /-- The writes made before the process stops; `none`: all of them. -/
  stop : Option Nat
  isUuid_attemptId : isUuid attemptId = true
  isDate_recoveredAt : recoveredAt.length ≤ 40 ∧ host.isDate recoveredAt = true
  isDate_receivedAt : receivedAt.length ≤ 40 ∧ host.isDate receivedAt = true

variable (host : CouncilHost) (scope : CouncilScope)

def councilRequestDigest (request : JsString) (round : Int) : JsString :=
  host.sha256 (js "\x7b\"round\":" ++ integerText round ++ js ",\"request\":" ++ request
    ++ js "\x7d")

/-- `baseRecord`, without an event. -/
def baseRecord (input : CouncilAttemptInput) (attemptId timestamp digest : JsString) (round : Int)
    (event : AttemptEvent) (disposition : JsString) : AttemptRecord where
  version := councilVersion
  event := event
  attemptId := attemptId
  timestamp := timestamp
  scope := auditScope host.sha256 scope.scope
  clientRound := input.clientRound
  authoritativeRound := round
  digest := digest
  sessionHash := (truthyString input.sessionID).map host.sha256
  disposition := disposition.take 80
  verdictCount := max 0 (min 5 input.verdictCount)
  members := (input.members.take 5).map (List.take 32)
  transition := none
  gateEffect := none
  verdict := none
  quorumSize := none
  evidenceRef := none
  nextState := none

/-! ## Loading and recovery -/

def StateSnapshot.toState (state : StateSnapshot) : CouncilRoundState :=
  { toStateSnapshot := state, pending := none }

/-- The state when its file is lost. -/
def recoveredState (tail : AuditTail) (recovered : Option StateSnapshot) :
    Except String StateSnapshot :=
  match recovered with
  | some recovered => .ok recovered
  | none =>
    if tail.truncated then
      .error "council state is missing and the bounded audit tail has no recoverable transition"
    else if tail.records ≠ [] then
      .error "council state is missing and the audit has no complete transition"
    else .ok (initialState scope.scope.identityDigest)

/-- The state, and the write that puts it back. -/
def loadState (files : CouncilFiles) : Except String (CouncilRoundState × List CouncilWrite) :=
  match files.state with
  | some state => do
    let parsed ← parseState state scope.scope.identityDigest
    return (parsed, [])
  | none => do
    let tail ← readAuditTail host scope files.audit
    let recovered ← recoverAuditHistory tail scope.scope.identityDigest
    let state ← recoveredState scope tail recovered
    return (state.toState, [.state state.toState])

/-- The pending evidence is looked for and found. -/
def foundCommitted (input : CouncilAttemptInput) (pending : PendingAttempt) : Bool :=
  pending.evidenceExpected && input.probePendingEvidence.any fun probe =>
    probe pending.attemptId pending.round pending.evidenceRef

/-- The record that settles an interrupted attempt. -/
def recoveredRecord (call : CouncilCall host) (state : StateSnapshot) (pending : PendingAttempt) :
    AttemptRecord :=
  let committed := foundCommitted call.input pending
  let base := baseRecord host scope call.input pending.attemptId call.recoveredAt pending.digest
    pending.round .recovered
    (if committed then js "pending_evidence_recovered" else js "orphan_recovered")
  { base with
    transition := some (if committed then pending.transition else .stay)
    gateEffect := some (if committed then pending.gateEffect else .none)
    verdict := pending.verdict
    quorumSize := pending.quorumSize
    evidenceRef := pending.evidenceRef
    nextState := some (if committed then pending.nextState
      else stayingState state pending.attemptId pending.digest) }

/-- The state a terminal record ends in. -/
def terminalState (record : AttemptRecord) : Option StateSnapshot :=
  match record.event with
  | .received => none
  | .finalized | .recovered => record.nextState

/-- The settled outcome of a pending attempt, from its latest record. -/
def settlePending (call : CouncilCall host) (state : StateSnapshot) (pending : PendingAttempt)
    (tail : AuditTail) : Except String (StateSnapshot × List CouncilWrite) :=
  match latestRecord tail.records pending.attemptId with
  | none =>
    .error (if tail.truncated then "pending council attempt is outside the bounded audit tail"
      else "pending council attempt has no matching audit record")
  | some latest =>
    match terminalState latest with
    | some nextState =>
      if pendingTerminalMatches state pending latest then
        .ok (nextState, [.state nextState.toState])
      else .error "terminal council audit contradicts pending state"
    | none =>
      let nextState := if foundCommitted call.input pending then pending.nextState
        else stayingState state pending.attemptId pending.digest
      .ok (nextState, [.audit (recoveredRecord host scope call state pending),
        .state nextState.toState])

def recoverPending (call : CouncilCall host) (audit : List AttemptRecord)
    (state : CouncilRoundState) : Except String (StateSnapshot × List CouncilWrite) :=
  match state.pending with
  | none => .ok (state.toStateSnapshot, [])
  | some pending => do
    let tail ← readAuditTail host scope audit
    settlePending host scope call state.toStateSnapshot pending tail

/-! ## The attempt itself -/

inductive CouncilReply where
  | roundMismatch (authoritativeRound submittedRound : Int)
  | refused (reason : JsString) (authoritativeRound : Int)
  | persistenceFailed (authoritativeRound : Int)
  | evaluated (authoritativeRound nextRound : Int) (maxRoundsExhausted : Bool)
  deriving DecidableEq

/-- The evaluation in place of one that threw. -/
def failedEvaluation : CouncilAttemptEvaluation where
  disposition := js "council_evaluation_failed"
  transition := .stay
  gateEffect := .none
  verdict := none
  quorumSize := none
  evidence := none
  disposition_ne_nil := by decide
  isNone_verdict := rfl
  isQuorumSize_quorumSize := rfl
  isEvidenceRef_evidence := rfl

/-- `digest` of the attempt. -/
def CouncilCall.digest {host : CouncilHost} (call : CouncilCall host) (state : StateSnapshot) :
    JsString :=
  councilRequestDigest host call.input.request state.currentRound

def receivedRecord (call : CouncilCall host) (state : StateSnapshot) : AttemptRecord :=
  baseRecord host scope call.input call.attemptId call.receivedAt (call.digest state)
    state.currentRound .received (js "received")

/-- `finalized` without an evaluation: the state stays. -/
def stayingRecord (call : CouncilCall host) (state : StateSnapshot) (disposition : JsString) :
    AttemptRecord :=
  { receivedRecord host scope call state with
    event := .finalized
    disposition := disposition
    transition := some .stay
    gateEffect := some .none
    nextState := some (stayingState state call.attemptId (call.digest state)) }

/-- The state that stays, with the attempt as its last. -/
def CouncilCall.stayed {host : CouncilHost} (call : CouncilCall host) (state : StateSnapshot) :
    CouncilRoundState :=
  (stayingState state call.attemptId (call.digest state)).toState

def CouncilCall.next {host : CouncilHost} (call : CouncilCall host) (state : StateSnapshot)
    (evaluation : CouncilAttemptEvaluation) : StateSnapshot :=
  transitionState state call.attemptId (call.digest state) evaluation.transition
    call.input.maxRounds

/-- What the state file holds while an attempt is under way. -/
def CouncilCall.pending {host : CouncilHost} (call : CouncilCall host) (state : StateSnapshot)
    (evaluation : CouncilAttemptEvaluation) : PendingAttempt where
  attemptId := call.attemptId
  digest := call.digest state
  round := state.currentRound
  transition := evaluation.transition
  nextState := call.next state evaluation
  disposition := evaluation.disposition.take 80
  gateEffect := evaluation.gateEffect
  evidenceExpected := evaluation.evidence.isSome
  evidenceRef := evaluation.evidence.map (List.take 240)
  verdict := evaluation.verdict
  quorumSize := evaluation.quorumSize

/-- `finalized` with the evaluation's transition. -/
def finalizedRecord (call : CouncilCall host) (state : StateSnapshot)
    (evaluation : CouncilAttemptEvaluation) : AttemptRecord :=
  { receivedRecord host scope call state with
    event := .finalized
    disposition := evaluation.disposition.take 80
    transition := some evaluation.transition
    gateEffect := some evaluation.gateEffect
    verdict := evaluation.verdict
    quorumSize := evaluation.quorumSize
    evidenceRef := evaluation.evidence.map (List.take 240)
    nextState := some (call.next state evaluation) }

/-- The writes of an evaluated attempt behind its received record. -/
def evaluatedWrites (call : CouncilCall host) (state : StateSnapshot)
    (evaluation : CouncilAttemptEvaluation) : List CouncilWrite × CouncilReply :=
  if call.pendingWriteFails then
    -- the received record is paired before the failure surfaces
    (.audit (stayingRecord host scope call state (js "council_pending_state_write_failed"))
      :: (if call.failedWriteFails then [] else [.state (call.stayed state)]),
      .persistenceFailed state.currentRound)
  else
    (.state { toStateSnapshot := snapshot state, pending := some (call.pending state evaluation) }
      :: ((if evaluation.evidence.isSome then [.evidence call.attemptId] else [])
        ++ [.audit (finalizedRecord host scope call state evaluation),
          .state (call.next state evaluation).toState]),
      .evaluated state.currentRound (call.next state evaluation).currentRound
        (call.next state evaluation).maxRoundsExhausted)

def CouncilCall.evaluation {host : CouncilHost} (call : CouncilCall host) (state : StateSnapshot) :
    CouncilAttemptEvaluation :=
  (call.input.evaluate state.currentRound).getD failedEvaluation

/-- The writes of an attempt behind its received record. -/
def decidedWrites (call : CouncilCall host) (state : StateSnapshot) :
    List CouncilWrite × CouncilReply :=
  match call.input.clientRound.filter (· ≠ state.currentRound) with
  | some submitted =>
    ([.audit (stayingRecord host scope call state (js "council_round_mismatch")),
      .state (call.stayed state)], .roundMismatch state.currentRound submitted)
  | none =>
    if state.status = .closed then
      let disposition := if state.lastDigest = some (call.digest state)
        then js "duplicate_submission" else js "council_round_closed"
      ([.audit (stayingRecord host scope call state disposition), .state (call.stayed state)],
        .refused disposition state.currentRound)
    else evaluatedWrites host scope call state (call.evaluation state)

/-- The state an attempt starts from, and the writes that led to it. -/
def settledState (files : CouncilFiles) (call : CouncilCall host) :
    Except String (StateSnapshot × List CouncilWrite) := do
  let loaded ← loadState host scope files
  let recovered ← recoverPending host scope call files.audit loaded.1
  return (recovered.1, loaded.2 ++ recovered.2)

def runCouncilAttempt (files : CouncilFiles) (call : CouncilCall host) :
    Except String (List CouncilWrite × CouncilReply) := do
  let settled ← settledState host scope files call
  let decided := decidedWrites host scope call settled.1
  return (settled.2 ++ .audit (receivedRecord host scope call settled.1) :: decided.1, decided.2)

/-- The writes up to where the process stops. -/
def CouncilCall.cut {host : CouncilHost} (call : CouncilCall host) (writes : List CouncilWrite) :
    List CouncilWrite :=
  match call.stop with
  | none => writes
  | some made => writes.take made

/-- An attempt refused as uncertain writes nothing to the scope's files. -/
def councilStep (files : CouncilFiles) (call : CouncilCall host) : CouncilFiles :=
  match runCouncilAttempt host scope files call with
  | .error _ => files
  | .ok (writes, _) => (call.cut writes).foldl CouncilFiles.write files

end OpencodeSwarm
