/-
  OpencodeSwarm.PrReview.Circuit

  The resilience circuit of a PR review (`src/pr-review/circuit.ts`): evidence
  scan, adoption of a persisted record, and the three transitions that write
  one.  CLOSED opens on typed provider failures of enough distinct lanes, OPEN
  admits one probe after its interval, and the probe's outcome closes or reopens
  the circuit.
-/
import OpencodeSwarm.Lib.Json
import OpencodeSwarm.Lib.OrderedMap

namespace OpencodeSwarm

open Js

/-! ## Records -/

/-- `PR_REVIEW_CIRCUIT_CONTRIBUTOR_LIMIT`. -/
def circuitContributorLimit : Nat := 768

/-- `PrReviewCircuitIgnoredReason`. -/
inductive CircuitIgnoredReason where
  | observerDeadline
  | clientUnavailable
  | parser
  | validation
  | policy
  | filesystem
  | git
  | cancellation
  | staleObservation
  | hostAbandonment
  | operatorAbandonment
  | unknown
  deriving DecidableEq, Repr

/-- A `provider_terminal` signal. -/
structure ProviderTerminal where
  providerClass : JsString
  batchId : JsString
  laneId : JsString
  terminalAtMs : Int
  deriving DecidableEq, Repr

/-- `PrReviewCircuitSignal`. -/
inductive CircuitSignal where
  | providerTerminal (signal : ProviderTerminal)
  | ignored (reason : CircuitIgnoredReason)
  deriving DecidableEq, Repr

inductive CircuitState where
  | closed
  | open
  | halfOpen
  deriving DecidableEq, Repr

/-- `PrReviewCircuitContributor`. -/
structure CircuitContributor where
  batchId : JsString
  laneId : JsString
  terminalAt : JsString
  deriving DecidableEq, Repr

/-- `PrReviewCircuitProbeRecord`. -/
structure CircuitProbe where
  batchId : JsString
  laneId : JsString
  admittedAt : JsString
  deriving DecidableEq, Repr

/-- `PrReviewCircuitRecordV2`. -/
structure CircuitRecord where
  state : CircuitState
  generation : Nat
  providerClass : Option JsString := none
  contributors : List CircuitContributor
  openedAt : Option JsString := none
  openUntil : Option JsString := none
  evidenceWaterline : Option JsString := none
  probe : Option CircuitProbe := none
  deriving DecidableEq, Repr

/-- `PrReviewCircuitLegacyRecord`. -/
structure CircuitLegacyRecord where
  signature : JsString
  count : Int
  contributors : List (JsString × JsString)
  openedAt : JsString
  deriving DecidableEq, Repr

/-- `PrReviewResiliencePolicyRecord`. -/
structure ResiliencePolicy where
  enabled : Bool
  canaryProbeMs : Nat
  statusProbeTimeoutMs : Nat
  correlatedFailureThreshold : Nat
  maxRetryAttemptsAfterInitial : Nat
  circuitOpenDurationMs : Option Nat := none
  deriving DecidableEq, Repr

/-- The host's date functions and collation.  `Date.parse` gives `none` for
    `NaN`; times are within the range of `Date`. -/
structure Host where
  toISOString : Int → JsString
  dateParse : JsString → Option Int
  localeCompare : JsString → JsString → Int

/-! ## Adoption -/

/-- `PrReviewCircuitRecordV2Schema`. -/
def CircuitRecord.wellFormed (record : CircuitRecord) : Bool :=
  1 ≤ record.generation
    && record.providerClass.all (fun text => 1 ≤ text.length && text.length ≤ 128)
    && record.contributors.all (fun entry =>
      !entry.batchId.isEmpty && !entry.laneId.isEmpty && !entry.terminalAt.isEmpty)
    && record.contributors.length ≤ circuitContributorLimit
    && record.openedAt.all (fun text => !text.isEmpty)
    && record.openUntil.all (fun text => !text.isEmpty)
    && record.evidenceWaterline.all (fun text => !text.isEmpty)
    && record.probe.all (fun probe =>
      !probe.batchId.isEmpty && !probe.laneId.isEmpty && !probe.admittedAt.isEmpty)

/-- `PrReviewCircuitLegacyRecordSchema`. -/
def CircuitLegacyRecord.wellFormed (record : CircuitLegacyRecord) : Bool :=
  (1 ≤ record.signature.length && record.signature.length ≤ 512)
    && (2 ≤ record.count && record.count ≤ circuitContributorLimit)
    && record.contributors.all (fun entry => !entry.1.isEmpty && !entry.2.isEmpty)
    && (2 ≤ record.contributors.length && record.contributors.length ≤ circuitContributorLimit)
    && !record.openedAt.isEmpty

/-- The persisted circuit field: a value shaped like a version-2 record, one
    shaped like a legacy record, or any other value. -/
inductive CircuitField where
  | v2 (record : CircuitRecord)
  | legacy (record : CircuitLegacyRecord)
  | other (value : Json)

/-- `PrReviewCircuitAdoption`, without the diagnostics. -/
inductive CircuitAdoption where
  | v2 (record : CircuitRecord)
  | absent
  | migrated (record : CircuitRecord)
  | malformed
  deriving DecidableEq, Repr

section Machine

variable (host : Host)

def freshRecord (nowMs : Int) (withWaterline : Bool) : CircuitRecord where
  state := .closed
  generation := 1
  contributors := []
  evidenceWaterline := if withWaterline then some (host.toISOString nowMs) else none

def adoptPrReviewCircuit (raw : Option CircuitField) (nowMs : Int) : CircuitAdoption :=
  match raw with
  | none | some (.other .null) => .absent
  | some (.v2 record) => if record.wellFormed then .v2 record else .malformed
  | some (.legacy record) =>
    if record.wellFormed then .migrated (freshRecord host nowMs true) else .malformed
  | some (.other _) => .malformed

/-- The record an adoption gives to the machine. -/
def CircuitAdoption.record? : CircuitAdoption → Option CircuitRecord
  | .v2 record | .migrated record => some record
  | .absent | .malformed => none

/-! ## Evidence -/

/-- The evidence counts: it has a time, and a later one than the waterline. -/
def contributes (waterlineMs : Option Int) (signal : ProviderTerminal) : Bool :=
  0 < signal.terminalAtMs && waterlineMs.all (fun waterline => waterline < signal.terminalAtMs)

/-- The key of a lane in one generation. -/
def laneKey (generation : Nat) (signal : ProviderTerminal) : JsString :=
  decimal generation ++ 0 :: (signal.batchId ++ 0 :: signal.laneId)

/-- One turn of the loop over the signals: the latest evidence of each lane. -/
def recordLatest (generation : Nat) (waterlineMs : Option Int)
    (byKey : OrderedMap JsString ProviderTerminal) :
    CircuitSignal → OrderedMap JsString ProviderTerminal
  | .ignored _ => byKey
  | .providerTerminal signal =>
    if contributes waterlineMs signal then
      match byKey.get? (laneKey generation signal) with
      | none => byKey.set (laneKey generation signal) signal
      | some existing =>
        if existing.terminalAtMs < signal.terminalAtMs then
          byKey.set (laneKey generation signal) signal
        else byKey
    else byKey

/-- The comparator of the scan: newest first, then by name. -/
def compareEvidence (left right : ProviderTerminal) : Int :=
  let keys := [right.terminalAtMs - left.terminalAtMs,
    host.localeCompare left.providerClass right.providerClass,
    host.localeCompare left.batchId right.batchId, host.localeCompare left.laneId right.laneId]
  (keys.find? (· ≠ 0)).getD 0

/-- One turn of the grouping loop; a full class takes no more lanes. -/
def groupSignal (grouped : OrderedMap JsString (List ProviderTerminal))
    (signal : ProviderTerminal) : OrderedMap JsString (List ProviderTerminal) :=
  let list := (grouped.get? signal.providerClass).getD []
  grouped.set signal.providerClass
    (if list.length < circuitContributorLimit then list ++ [signal] else list)

def scanPrReviewCircuitEvidence (signals : List CircuitSignal) (generation : Nat)
    (waterlineMs : Option Int) : OrderedMap JsString (List ProviderTerminal) :=
  let byKey := signals.foldl (recordLatest generation waterlineMs) []
  let ordered := byKey.values.mergeSort fun left right => compareEvidence host left right ≤ 0
  ordered.foldl groupSignal []

/-- One turn of the loop that picks the class with the most lanes. -/
def betterClass (threshold : Nat) (best : Option (JsString × List ProviderTerminal))
    (entry : JsString × List ProviderTerminal) : Option (JsString × List ProviderTerminal) :=
  if entry.2.length < threshold then best
  else match best with
  | none => some entry
  | some current =>
    if current.2.length < entry.2.length
        ∨ (entry.2.length = current.2.length ∧ host.localeCompare entry.1 current.1 < 0) then
      some entry
    else some current

/-! ## Transitions -/

/-- The latest record of the probe's lane. -/
structure ProbeObservation where
  terminalStatus : JsString
  signal : Option CircuitSignal
  terminalAtMs : Int
  deriving DecidableEq, Repr

/-- `PrReviewCircuitAdvanceInput`. -/
structure AdvanceInput where
  nowMs : Int
  threshold : Nat
  openDurationMs : Int
  admission : Option (JsString × JsString) := none
  laneSignals : List CircuitSignal
  probeObservation : Option ProbeObservation := none
  deriving DecidableEq, Repr

inductive BlockReason where
  | circuitOpen
  | probeInFlight
  deriving DecidableEq, Repr

/-- `PrReviewCircuitAdvanceResult`; the record is there when it changed. -/
inductive AdvanceResult where
  | admitted (record : Option CircuitRecord)
  | admitAsProbe (record : Option CircuitRecord)
  | block (reason : BlockReason) (record : Option CircuitRecord)
  deriving DecidableEq, Repr

def AdvanceResult.record? : AdvanceResult → Option CircuitRecord
  | .admitted record | .admitAsProbe record | .block _ record => record

def contributorOf (batchId laneId : JsString) (terminalAtMs : Int) : CircuitContributor :=
  ⟨batchId, laneId, host.toISOString terminalAtMs⟩

/-- The waterline as the scan takes it; an empty text is falsy, and no time is
    at or before `NaN`. -/
def CircuitRecord.waterlineMs (record : CircuitRecord) : Option Int :=
  (truthyString record.evidenceWaterline).bind host.dateParse

/-- The class that opens a CLOSED circuit. -/
def openingClass (record : CircuitRecord) (input : AdvanceInput) :
    Option (JsString × List ProviderTerminal) :=
  (scanPrReviewCircuitEvidence host input.laneSignals record.generation
    (record.waterlineMs host)).foldl (betterClass host input.threshold) none

/-- The CLOSED branch. -/
def advanceClosed (record : CircuitRecord) (input : AdvanceInput) : AdvanceResult :=
  match openingClass host record input with
  | none => .admitted none
  | some (providerClass, lanes) =>
    .block .circuitOpen (some { record with
      state := .open
      providerClass := some providerClass
      contributors := lanes.map fun signal =>
        contributorOf host signal.batchId signal.laneId signal.terminalAtMs
      openedAt := some (host.toISOString input.nowMs)
      openUntil := some (host.toISOString (input.nowMs + input.openDurationMs)) })

/-- The end of the interval; `none` is `NaN`. -/
def CircuitRecord.openUntilMs (record : CircuitRecord) : Option Int :=
  match truthyString record.openUntil with
  | some openUntil => host.dateParse openUntil
  | none => some 0

/-- The OPEN branch. -/
def advanceOpen (record : CircuitRecord) (input : AdvanceInput) : AdvanceResult :=
  if (record.openUntilMs host).any (fun openUntil => input.nowMs < openUntil) then
    .block .circuitOpen none
  else match input.admission with
  | none => .block .circuitOpen none
  | some (batchId, laneId) =>
    .admitAsProbe (some { record with
      state := .halfOpen
      probe := some ⟨batchId, laneId, host.toISOString input.nowMs⟩ })

/-- Back to OPEN with a new interval, the probe gone. -/
def reopened (record : CircuitRecord) (nowMs openDurationMs : Int) : CircuitRecord :=
  { record with
    state := .open
    openUntil := some (host.toISOString (nowMs + openDurationMs))
    probe := none }

/-- `completed` with no failure signal. -/
def ProbeObservation.healthy (observation : ProbeObservation) : Bool :=
  observation.terminalStatus == js "completed" && observation.signal == none

/-- The contributors after a failed probe. -/
def withProbeFailure (record : CircuitRecord) (contributor : CircuitContributor) :
    List CircuitContributor :=
  let contributors := record.contributors.filter (fun entry =>
    !(entry.batchId == contributor.batchId && entry.laneId == contributor.laneId))
      ++ [contributor]
  contributors.drop (contributors.length - circuitContributorLimit)

/-- The HALF_OPEN branch. -/
def advanceHalfOpen (record : CircuitRecord) (input : AdvanceInput) : AdvanceResult :=
  match record.probe with
  | none => .block .probeInFlight none
  | some probe =>
    match input.probeObservation with
    | none =>
      -- the recorded probe asks again, or another dispatch waits for it
      if input.admission.any (fun admission => admission.1 == probe.batchId) then
        .admitAsProbe none
      else .block .probeInFlight none
    | some observation =>
      match observation.signal with
      | some (.providerTerminal signal) =>
        .block .circuitOpen (some { reopened host record input.nowMs input.openDurationMs with
          contributors := withProbeFailure record
            (contributorOf host probe.batchId probe.laneId signal.terminalAtMs) })
      | _ =>
        if observation.healthy then
          .admitted (some {
            state := .closed
            generation := record.generation + 1
            contributors := []
            evidenceWaterline := some (host.toISOString
              (if observation.terminalAtMs = 0 then input.nowMs
                else observation.terminalAtMs)) })
        else .block .circuitOpen (some (reopened host record input.nowMs input.openDurationMs))

def advancePrReviewCircuit (current : Option CircuitRecord) (input : AdvanceInput) :
    AdvanceResult :=
  let record := current.getD (freshRecord host input.nowMs false)
  match record.state with
  | .closed => advanceClosed host record input
  | .open => advanceOpen host record input
  | .halfOpen => advanceHalfOpen host record input

/-- `resetPrReviewResilienceForReEnable`, for a previous version-2 record or
    none. -/
def resetPrReviewResilienceForReEnable (previousCircuit : Option CircuitRecord) (nowMs : Int) :
    CircuitRecord :=
  let previousGeneration := (previousCircuit.map (·.generation)).getD 1
  { freshRecord host nowMs true with generation := previousGeneration + 1 }

def rollbackPrReviewCircuitProbe (circuit : CircuitRecord) (nowMs openDurationMs : Int) :
    CircuitRecord :=
  if circuit.state = .halfOpen
    ∧ circuit.probe.isSome then reopened host circuit nowMs openDurationMs
  else circuit

end Machine

end OpencodeSwarm
