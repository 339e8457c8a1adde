/-
  OpencodeSwarm.PrFeedback.LoopState

  The durable state of the PR-feedback loop (`src/background/pr-feedback-loop.ts`)
  and the critical sections that read and write it under the loop-state lock.

  A section gets the document as `readState` parses it.  What it answers is the
  document to write, if it writes one, and what it tells its caller; `none` for
  the latter is a `throw`.
-/
import OpencodeSwarm.Lib.OrderedMap
import OpencodeSwarm.PrFeedback.EventQueue

namespace OpencodeSwarm

open Js

def MAX_TRACKED_SESSIONS : Nat := 200

def MAX_PROCESSED_DIGESTS : Nat := 64

def MAX_PERFORM_ATTEMPTS : Nat := 3

/-! ## The document -/

/-- The `state` of a `PrFeedbackLoopTerminal`. -/
inductive LoopTerminalState where
  | completed
  | pausedForHuman
  | cancelled
  | degraded
  | refused
  deriving DecidableEq

/-- `PrFeedbackLoopTerminal`, which the loop writes without a `receiptPath`. -/
structure LoopTerminal where
  state : LoopTerminalState
  reason : JsString
  deriving DecidableEq

structure LoopCircuitState where
  failures : Nat
  openUntil : Int
  halfOpenProbes : Nat
  halfOpenProbeStartedAt : Option Int
  halfOpenProbeOwnerToken : Option JsString
  halfOpenProbeOwnerPid : Option Nat
  deriving DecidableEq

structure InFlightClaim where
  dedupToken : JsString
  workflowInstanceId : JsString
  ownerPid : Nat
  actionClass : JsString
  head : Option JsString
  performed : Bool
  attempts : Nat
  claimedAt : JsString
  actionStartedAt : Option Int
  deriving DecidableEq

structure CorrelationState where
  revision : Nat
  sessionID : JsString
  repoFullName : JsString
  prNumber : Nat
  prActionsUsed : Nat
  processedDigests : List JsString
  circuit : LoopCircuitState
  inFlight : Option InFlightClaim
  terminal : Option LoopTerminal
  deriving DecidableEq

/-- `LoopStateV1`, whose `schemaVersion` is 1 and whose `updatedAt` nothing reads.
    `normalizeLoopState` leaves a document of this shape as it is. -/
structure LoopState where
  oversightSeq : Nat
  correlations : OrderedMap JsString CorrelationState
  sessionTerminals : OrderedMap JsString LoopTerminal
  deriving DecidableEq

/-- `emptyState()`. -/
def emptyLoopState : LoopState :=
  { oversightSeq := 0, correlations := [], sessionTerminals := [] }

/-- The circuit of a new correlation, and of one whose action was performed. -/
def closedCircuit : LoopCircuitState where
  failures := 0
  openUntil := 0
  halfOpenProbes := 0
  halfOpenProbeStartedAt := none
  halfOpenProbeOwnerToken := none
  halfOpenProbeOwnerPid := none

/-- The correlation a call starts from when the document has none. -/
def newCorrelation (sessionID repoFullName : JsString) (prNumber : Nat) : CorrelationState where
  revision := 0
  sessionID := sessionID
  repoFullName := repoFullName
  prNumber := prNumber
  prActionsUsed := 0
  processedDigests := []
  circuit := closedCircuit
  inFlight := none
  terminal := none

def correlationKey (sessionID repo : JsString) (pr : Nat) : JsString :=
  sessionID ++ js "::" ++ repo ++ js "::" ++ js (toString pr)

/-- `digestFor`, over the `sha256` of the runtime. -/
def digestFor (sha256 : JsString → JsString) (type repo : JsString) (pr : Nat)
    (head : Option JsString) (actionClass : JsString) : JsString :=
  sha256 (type ++ [0] ++ repo ++ [0] ++ js (toString pr) ++ [0] ++ head.getD [] ++ [0]
    ++ actionClass)

namespace LoopState

/-- `state.correlations[key] = correlation`. -/
def put (state : LoopState) (key : JsString) (correlation : CorrelationState) : LoopState :=
  { state with correlations := state.correlations.set key correlation }

/-- `state.sessionTerminals[sessionID]`, if it is a cancellation. -/
def cancellation (state : LoopState) (sessionID : JsString) : Option LoopTerminal :=
  (state.sessionTerminals.get? sessionID).filter fun terminal => terminal.state = .cancelled

/-- What `writeLoopState` writes: the newest entries of both records. -/
def written (state : LoopState) : LoopState :=
  { state with
    correlations := state.correlations.drop (state.correlations.length - MAX_TRACKED_SESSIONS)
    sessionTerminals :=
      state.sessionTerminals.drop (state.sessionTerminals.length - MAX_TRACKED_SESSIONS) }

end LoopState

/-- A reason as `||` sees it. -/
def reasonOr (reason fallback : JsString) : JsString := if reason.isEmpty then fallback else reason

/-! ## One correlation -/

namespace CorrelationState

/-- `bumpCorrelationRevision`. -/
def bumped (correlation : CorrelationState) : CorrelationState :=
  { correlation with revision := correlation.revision + 1 }

def recordProcessedDigest (correlation : CorrelationState) (digest : JsString) :
    CorrelationState :=
  if digest ∈ correlation.processedDigests then correlation
  else
    let digests := correlation.processedDigests ++ [digest]
    { correlation with
      processedDigests := digests.drop (digests.length - MAX_PROCESSED_DIGESTS) }

end CorrelationState

def clearHalfOpenProbeMarker (circuit : LoopCircuitState) : LoopCircuitState :=
  { circuit with
    halfOpenProbes := 0
    halfOpenProbeStartedAt := none
    halfOpenProbeOwnerToken := none
    halfOpenProbeOwnerPid := none }

/-- The marker is the one that this owner set. -/
def LoopCircuitState.probeOwnedBy (circuit : LoopCircuitState) (token : Option JsString)
    (pid : Option Nat) : Bool :=
  circuit.halfOpenProbeOwnerToken == token && circuit.halfOpenProbeOwnerPid == pid

def hasReservationIdentity (reservation : InFlightClaim) : Bool :=
  !(trim reservation.workflowInstanceId).isEmpty && 0 < reservation.ownerPid

def ownsReservation (reservation : Option InFlightClaim) (workflowInstanceId : JsString)
    (ownerPid : Nat) : Bool :=
  reservation.any fun reservation =>
    hasReservationIdentity reservation && reservation.workflowInstanceId == workflowInstanceId
      && reservation.ownerPid == ownerPid

def ownsExactReservation (reservation : Option InFlightClaim)
    (dedupToken workflowInstanceId : JsString) (ownerPid : Nat) : Bool :=
  ownsReservation reservation workflowInstanceId ownerPid
    && reservation.any fun reservation => reservation.dedupToken == dedupToken

def reservationIsLive (isProcessAlive : Nat → Bool) : Option InFlightClaim → Bool
  | none => false
  | some reservation =>
    if !hasReservationIdentity reservation then true
    else if reservation.actionStartedAt.isSome then true
    else isProcessAlive reservation.ownerPid

/-! ## Sections under the loop-state lock -/

/-- How a section goes wrong: the document does not parse, something before its
    write throws, or its write throws with the document in place. -/
inductive LoopFault where
  | none
  | corrupt
  | lost
  | thrown
  deriving DecidableEq

/-- `withLoopStateLock`: the document behind a section, and what it returns. -/
def withLoopStateLock {α : Type} (fault : LoopFault) (state : LoopState) (onCorrupt : Option α)
    (section_ : LoopState → Option LoopState × Option α) : LoopState × Option α :=
  let next := ((section_ state).1.map LoopState.written).getD state
  match fault with
  | .none => (next, (section_ state).2)
  | .corrupt => (state, onCorrupt)
  | .lost => (state, Option.none)
  | .thrown => (next, Option.none)

/-- The part of `persistCorrelation` that a durable cancellation overrules. -/
def CorrelationState.underCancellation (durableCancellation : Option LoopTerminal)
    (correlation : CorrelationState) : CorrelationState :=
  let cancelledTerminal := correlation.terminal.filter fun terminal => terminal.state = .cancelled
  match durableCancellation, cancelledTerminal with
  | Option.none, Option.none => correlation
  | durable, terminal =>
    { correlation with
      terminal := some
        { state := .cancelled
          reason := reasonOr ((durable.map LoopTerminal.reason).getD [])
            (reasonOr ((terminal.map LoopTerminal.reason).getD []) (js "operator cancellation")) }
      inFlight := correlation.inFlight.filter fun inFlight => inFlight.actionStartedAt.isSome }

/-- A correlation is written unless the document holds a newer one. -/
def persistCorrelation (key : JsString) (correlation : CorrelationState) (state : LoopState) :
    Option LoopState × Option Unit :=
  let durableCancellation := state.cancellation correlation.sessionID
  let store := fun next : CorrelationState =>
    some (state.put key (next.underCancellation durableCancellation).bumped)
  match state.correlations.get? key with
  | some persisted =>
    -- a stale caller leaves the newer record as it is
    if persisted.revision ≠ correlation.revision then (none, some ())
    else
      (store { persisted with
        terminal := correlation.terminal
        inFlight := correlation.inFlight }, some ())
  | none => (store correlation, some ())

/-- `HalfOpenProbeAdmission`, as far as its caller reads it. -/
structure HalfOpenProbeAdmission where
  correlation : CorrelationState
  allowed : Bool
  probeStarted : Bool
  open_ : Bool

/-- `admitHalfOpenProbe`; `token` is the `randomUUID()` it may draw. -/
def admitHalfOpenProbe (isProcessAlive : Nat → Bool) (token : JsString) (pid : Nat)
    (key : JsString) (now : Int) (fallback : CorrelationState) (state : LoopState) :
    Option LoopState × Option HalfOpenProbeAdmission :=
  let persisted := state.correlations.get? key
  if persisted.isNone && 0 < fallback.revision then (none, none)
  else
    let current := persisted.getD fallback
    let circuit := current.circuit
    let refused := fun open_ : Bool =>
      (none, some { correlation := current, allowed := false, probeStarted := false, open_ })
    if now < circuit.openUntil then refused true
    else if circuit.openUntil ≤ 0 then
      (none, some { correlation := current, allowed := true, probeStarted := false, open_ := false })
    else
      -- only a marker whose owner is known and gone is taken over
      let ownerGone := (truthyString circuit.halfOpenProbeOwnerToken).isSome
        && circuit.halfOpenProbeOwnerPid.any fun owner => 0 < owner && !isProcessAlive owner
      if 1 ≤ circuit.halfOpenProbes && !ownerGone then refused false
      else
        let admitted :=
          { current with
            circuit := { circuit with
              halfOpenProbes := 1
              halfOpenProbeStartedAt := some now
              halfOpenProbeOwnerToken := some token
              halfOpenProbeOwnerPid := some pid } }.bumped
        (some (state.put key admitted),
          some { correlation := admitted, allowed := true, probeStarted := true, open_ := false })

/-- The two endings of an admitted probe: they leave the marker of another owner
    alone.  The correlation is what the caller goes on with. -/
def endHalfOpenProbe (close : LoopCircuitState → LoopCircuitState) (key : JsString)
    (token : Option JsString) (pid : Option Nat) (state : LoopState) :
    Option LoopState × Option (Option CorrelationState) :=
  match state.correlations.get? key with
  | none => (none, some none)
  | some correlation =>
    if !correlation.circuit.probeOwnedBy token pid then (none, some (some correlation))
    else
      let next := { correlation with circuit := close correlation.circuit }.bumped
      (some (state.put key next), some (some next))

def finishHalfOpenProbe (now : Int) (success : Bool) :=
  endHalfOpenProbe fun circuit =>
    if success then closedCircuit
    else clearHalfOpenProbeMarker { circuit with openUntil := now + 60000 }

def releaseHalfOpenProbe := endHalfOpenProbe clearHalfOpenProbeMarker

/-- Only the owner's exact reservation is cleared. -/
def clearExactPreStartReservation (key dedupToken workflowInstanceId : JsString) (ownerPid : Nat)
    (expectedActionStartedAt : Option Int) (state : LoopState) : Option LoopState × Option Bool :=
  match state.correlations.get? key with
  | none => (none, some false)
  | some correlation =>
    if ownsExactReservation correlation.inFlight dedupToken workflowInstanceId ownerPid
        && correlation.inFlight.any (fun inFlight =>
          inFlight.actionStartedAt == expectedActionStartedAt) then
      (some (state.put key { correlation with inFlight := none }.bumped), some true)
    else (none, some false)

/-- What `markExactReservationActionStarted` answers. -/
inductive ActionStartAdmission where
  | unavailable
  | missingCorrelation
  | blocked (correlation : CorrelationState)
  | cancelled (reason : JsString) (actionStartedAt : Option Int)
  | started (correlation : CorrelationState) (actionStartedAt : Int)

/-- The marker was written, be it for a moment. -/
def ActionStartAdmission.marked : ActionStartAdmission → Bool
  | .started _ _ => true
  | .cancelled _ actionStartedAt => actionStartedAt.isSome
  | _ => false

/-- The section of `markExactReservationActionStarted`.  `requested` and `during`
    are the cancellation intents of this process before the marker and while it is
    written, and `claimHeld` is the answer of `hasExactDurableClaim`. -/
def markExactReservationActionStarted (now : Int) (requested during : Option JsString)
    (claimHeld : Bool) (key sessionID dedupToken workflowInstanceId : JsString) (ownerPid : Nat)
    (state : LoopState) : Option LoopState × Option ActionStartAdmission :=
  match state.correlations.get? key with
  | none => (none, some .missingCorrelation)
  | some correlation =>
    match correlation.inFlight with
    | none => (none, some (.blocked correlation))
    | some inFlight =>
      let without := { correlation with inFlight := none }.bumped
      if !ownsExactReservation (some inFlight) dedupToken workflowInstanceId ownerPid
          || inFlight.actionStartedAt.isSome then
        (none, some (.blocked correlation))
      else
        match ((state.cancellation sessionID).map fun terminal =>
            reasonOr terminal.reason (js "operator cancellation")).or requested with
        | some reason => (some (state.put key without), some (.cancelled reason none))
        | none =>
          if !claimHeld then (some (state.put key without), some (.blocked without))
          else
            match during with
            -- the marker is written and, the lock still held, cleared again
            | some reason =>
              (some (state.put key without.bumped), some (.cancelled reason (some now)))
            | none =>
              let marked :=
                { correlation with
                  inFlight := some { inFlight with actionStartedAt := some now } }.bumped
              (some (state.put key marked), some (.started marked now))

/-- `max_session_actions` and `max_actions_per_pr` of `pr_feedback_loop`. -/
structure LoopBudget where
  maxSessionActions : Nat
  maxActionsPerPr : Nat

/-- The actions of a session that its correlations count as settled. -/
def LoopState.sessionActionsUsed (state : LoopState) (sessionID : JsString) : Nat :=
  ((state.correlations.values.filter fun entry => entry.sessionID = sessionID).map
    CorrelationState.prActionsUsed).sum

/-- The live reservations of a session. -/
def LoopState.liveSessionReservations (isProcessAlive : Nat → Bool) (state : LoopState)
    (sessionID : JsString) : Nat :=
  state.correlations.values.countP fun entry =>
    reservationIsLive isProcessAlive entry.inFlight && decide (entry.sessionID = sessionID)

/-- The live reservations of a session for one pull request. -/
def LoopState.livePrReservations (isProcessAlive : Nat → Bool) (state : LoopState)
    (sessionID repoFullName : JsString) (prNumber : Nat) : Nat :=
  state.correlations.values.countP fun entry =>
    reservationIsLive isProcessAlive entry.inFlight
      && decide (entry.sessionID = sessionID ∧ entry.repoFullName = repoFullName
        ∧ entry.prNumber = prNumber)

/-- The answer of the final admission. -/
inductive FinalAdmission where
  | cancelled (reason : JsString)
  | unavailable
  | claimLost (correlation : CorrelationState)
  | retryable
  | admitted (correlation : CorrelationState)

/-- A correlation with no durable history. -/
def CorrelationState.hasNoHistory (correlation : CorrelationState) : Bool :=
  correlation.revision == 0 && correlation.prActionsUsed == 0
    && correlation.processedDigests.isEmpty && correlation.terminal.isNone
    && correlation.inFlight.isNone && correlation.circuit.failures == 0
    && decide (correlation.circuit.openUntil ≤ 0) && correlation.circuit.halfOpenProbes == 0

/-- A reservation that never started and whose owner is gone is dropped. -/
def CorrelationState.recovered (correlation : CorrelationState) : CorrelationState :=
  if correlation.inFlight.isSome then { correlation with inFlight := none }.bumped else correlation

/-- The final performer admission of `claimAndProcessPrFeedbackEventUnlocked`, for
    the reservation the call means to make. -/
def admitFinally (budget : LoopBudget) (isProcessAlive : Nat → Bool) (requested : Option JsString)
    (claimHeld : Bool) (key sessionID repoFullName : JsString) (prNumber : Nat)
    (reservation : InFlightClaim) (fallback : CorrelationState) (state : LoopState) :
    Option LoopState × Option FinalAdmission :=
  let persisted := state.correlations.get? key
  if persisted.isNone && !fallback.hasNoHistory then (none, some .retryable)
  else
    let fresh := persisted.getD fallback
    match ((state.cancellation sessionID).map fun terminal =>
        reasonOr terminal.reason (js "operator cancellation")).or requested with
    | some reason => (none, some (.cancelled reason))
    | none =>
      if !claimHeld then (none, some (.claimLost fresh))
      else if fresh.inFlight.isSome && reservationIsLive isProcessAlive fresh.inFlight then
        (none, some .retryable)
      else
        let free := fresh.recovered
        let current := state.put key free
        let freshSessionActionsUsed := current.sessionActionsUsed sessionID
          + current.liveSessionReservations isProcessAlive sessionID
        let freshPrActionsUsed := free.prActionsUsed
          + current.livePrReservations isProcessAlive sessionID repoFullName prNumber
        if budget.maxSessionActions ≤ freshSessionActionsUsed
            ∨ budget.maxActionsPerPr ≤ freshPrActionsUsed then
          (none, some .retryable)
        else
          let admitted := { free with inFlight := some reservation }.bumped
          (some (state.put key admitted), some (.admitted admitted))

/-- `PerformAuthorizedActionOutcome`, without its `recordPath`. -/
structure PerformOutcome where
  performed : Bool
  transient : Bool
  permanent : Bool
  error : Option JsString

/-- What the settlement of the exact owner makes of its correlation. -/
def settledCorrelation (now : Int) (cancellation : Option LoopTerminal)
    (probe : Option (Option JsString × Option Nat)) (outcome : PerformOutcome) (digest : JsString)
    (correlation : CorrelationState) : CorrelationState :=
  match cancellation with
  | some terminal =>
    let recorded :=
      if outcome.performed then correlation.recordProcessedDigest digest else correlation
    { recorded with
      terminal := some
        { state := .cancelled, reason := reasonOr terminal.reason (js "operator cancellation") }
      circuit :=
        if probe.any fun owner => correlation.circuit.probeOwnedBy owner.1 owner.2 then
          clearHalfOpenProbeMarker correlation.circuit
        else correlation.circuit
      inFlight := none }
  | none =>
    if !outcome.performed then
      { correlation with
        circuit := clearHalfOpenProbeMarker { correlation.circuit with
          failures := correlation.circuit.failures + 1
          openUntil := now + 60000 }
        terminal := some
          (if outcome.permanent then
            { state := .pausedForHuman
              reason := js "permanent action failure: " ++ outcome.error.getD (js "unknown")
                ++ js " — no retry, paused for a human" }
          else
            { state := .degraded
              reason := js "transient action failures exhausted the retry budget: "
                ++ outcome.error.getD (js "unknown")
                ++ js " — circuit open, probe again after cooldown" })
        inFlight := none }
    else
      { correlation.recordProcessedDigest digest with
        prActionsUsed := correlation.prActionsUsed + 1
        circuit := closedCircuit
        terminal := some
          { state := .completed
            reason := js "authorized PR workflow action performed and recorded; downstream delivery"
              ++ js " and publication outcomes remain owned by the PR workflow" }
        inFlight := none }

/-- The settlement after the performer; it answers whether the call still owned its
    reservation. -/
def settleAction (now : Int) (probe : Option (Option JsString × Option Nat))
    (outcome : PerformOutcome) (digest key sessionID workflowInstanceId : JsString)
    (ownerPid : Nat) (fallback : CorrelationState) (state : LoopState) :
    Option LoopState × Option Bool :=
  let fresh := (state.correlations.get? key).getD fallback
  if !ownsReservation fresh.inFlight workflowInstanceId ownerPid then (none, some false)
  else
    (some (state.put key
      (settledCorrelation now (state.cancellation sessionID) probe outcome digest fresh).bumped),
      some true)

/-- What `cancelPrFeedbackLoopUnlocked` does to one correlation of its session. -/
def CorrelationState.cancelled (isProcessAlive : Nat → Bool) (reason : JsString)
    (correlation : CorrelationState) : CorrelationState :=
  let alreadyCancelled := correlation.terminal.any fun terminal => terminal.state = .cancelled
  let reclaimed := correlation.inFlight.any fun inFlight =>
    inFlight.actionStartedAt.isNone
      || !(hasReservationIdentity inFlight && isProcessAlive inFlight.ownerPid)
  let next :=
    { correlation with
      terminal :=
        if alreadyCancelled then correlation.terminal else some { state := .cancelled, reason }
      inFlight := if reclaimed then none else correlation.inFlight }
  if !alreadyCancelled || reclaimed then next.bumped else next

/-- The durable part of `cancelPrFeedbackLoopUnlocked`. -/
def cancelSession (isProcessAlive : Nat → Bool) (sessionID : JsString) (reason : JsString)
    (state : LoopState) : Option LoopState × Option Unit :=
  let correlations := state.correlations.map fun entry =>
    if entry.2.sessionID = sessionID then (entry.1, entry.2.cancelled isProcessAlive reason)
    else entry
  let sessionTerminals :=
    if (state.cancellation sessionID).isSome then state.sessionTerminals
    else state.sessionTerminals.set sessionID { state := .cancelled, reason }
  (some { state with correlations, sessionTerminals }, some ())

end OpencodeSwarm
