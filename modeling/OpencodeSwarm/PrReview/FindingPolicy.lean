/-
  OpencodeSwarm.PrReview.FindingPolicy

  The synthesis of review findings (`src/pr-review/finding-policy.ts`):
  candidates that look like one finding are grouped, greedily and by the leader
  of each group, and a group becomes one finding with the most severe of what
  its candidates say.
-/
import OpencodeSwarm.Lib.Json
import OpencodeSwarm.Lib.LeaderGroups
import OpencodeSwarm.Lib.OrderedMap
import Mathlib.Data.List.Dedup
import Mathlib.Data.Rat.Defs

namespace OpencodeSwarm

open Js

/-- What the policy takes from the runtime. -/
structure PolicyHost where
  toLocaleLowerCase : JsString → JsString
  toUpperCase : JsString → JsString
  localeCompare : JsString → JsString → Int

/-! ## Vocabularies -/

inductive FindingSeverity where
  | critical | high | medium | low | info | none
  deriving DecidableEq

inductive FindingAction where
  | routeToReviewer | routeToCritic | report | suppressWithReason | handoffToFeedback
  deriving DecidableEq

inductive FindingStatus where
  | unresolved | confirmed | disproved | nonActionable | preExisting
  deriving DecidableEq

inductive ConfidenceLabel where
  | low | medium | high
  deriving DecidableEq

def confidenceScore : ConfidenceLabel → ℚ
  | .low => 35 / 100
  | .medium => 65 / 100
  | .high => 95 / 100

def confidenceRank : ConfidenceLabel → Nat
  | .low => 0
  | .medium => 1
  | .high => 2

def severityRank : FindingSeverity → Nat
  | .none => 0
  | .info => 1
  | .low => 2
  | .medium => 3
  | .high => 4
  | .critical => 5

def actionRank : FindingAction → Nat
  | .suppressWithReason => 0
  | .report => 1
  | .handoffToFeedback => 2
  | .routeToReviewer => 3
  | .routeToCritic => 4

def findingStatusRank : FindingStatus → Nat
  | .disproved => 0
  | .preExisting => 1
  | .nonActionable => 1
  | .unresolved => 2
  | .confirmed => 3

def parseCandidateConfidence (host : PolicyHost) (value : JsString) :
    Except JsString ConfidenceLabel :=
  let normalized := host.toUpperCase (trim value)
  if normalized = js "LOW" then .ok .low
  else if normalized = js "MEDIUM" then .ok .medium
  else if normalized = js "HIGH" then .ok .high
  else .error (js "Invalid candidate confidence \"" ++ value
    ++ js "\": expected LOW, MEDIUM, or HIGH")

def findingSeverity (value : JsString) : Except JsString FindingSeverity :=
  if value = js "CRITICAL" then .ok .critical
  else if value = js "HIGH" then .ok .high
  else if value = js "MEDIUM" then .ok .medium
  else if value = js "LOW" then .ok .low
  else if value = js "INFO" then .ok .info
  else if value = js "NONE" then .ok .none
  else .error (js "Invalid finding severity \"" ++ value ++ js "\"")

/-- An unknown action is a report. -/
def findingAction (value : Option JsString) : FindingAction :=
  if value = some (js "route_to_reviewer") then .routeToReviewer
  else if value = some (js "route_to_critic") then .routeToCritic
  else if value = some (js "suppress_with_reason") then .suppressWithReason
  else if value = some (js "handoff_to_feedback") then .handoffToFeedback
  else .report

/-- An unknown status is unresolved. -/
def findingStatus (value : Option JsString) : FindingStatus :=
  if value = some (js "CONFIRMED") then .confirmed
  else if value = some (js "DISPROVED") then .disproved
  else if value = some (js "NON_ACTIONABLE") then .nonActionable
  else if value = some (js "PRE_EXISTING") then .preExisting
  else .unresolved

/-! ## Candidates -/

structure FindingProvenance where
  identity : JsString
  lane : Option JsString
  /-- The other fields of the record. -/
  rest : JsString
  deriving DecidableEq

structure FindingLocation where
  file : JsString
  line : Int
  lineEnd : Option Int
  deriving DecidableEq

/-- A candidate as it is passed in. -/
structure FindingCandidateInput where
  finding : JsString
  severity : JsString
  action : Option JsString
  confidence : JsString
  category : JsString
  location : FindingLocation
  provenance : List FindingProvenance
  status : Option JsString
  sourceFindingId : Option JsString

/-- A candidate as the loop keeps it. -/
structure FindingCandidate where
  finding : JsString
  severity : FindingSeverity
  action : Option JsString
  confidence : ConfidenceLabel
  category : JsString
  location : FindingLocation
  provenance : List FindingProvenance
  status : Option JsString
  sourceFindingId : Option JsString

/-- A candidate with its texts trimmed, or why it is none. -/
def normalizeCandidate (host : PolicyHost) (raw : FindingCandidateInput) :
    Except JsString FindingCandidate := do
  let severity ← findingSeverity raw.severity
  let confidence ← parseCandidateConfidence host raw.confidence
  let finding := trim raw.finding
  let category := trim raw.category
  if finding.isEmpty || category.isEmpty || raw.location.file.isEmpty then
    .error (js "Finding candidate requires non-empty finding, category, and location")
  else
    .ok { finding, severity, action := raw.action, confidence, category,
          location := raw.location, provenance := raw.provenance, status := raw.status,
          sourceFindingId := raw.sourceFindingId }

/-! ## Similarity -/

def tokenAliases : OrderedMap JsString JsString :=
  [(js "authorization", js "auth"), (js "authorized", js "auth"), (js "authorise", js "auth"),
    (js "authorised", js "auth"), (js "permissions", js "permission"),
    (js "checking", js "check"), (js "checked", js "check"), (js "checks", js "check"),
    (js "reading", js "read"), (js "reads", js "read"), (js "requests", js "request"),
    (js "path", js "endpoint"), (js "skips", js "skip"), (js "skipped", js "skip"),
    (js "skipping", js "skip")]

def tokenStopwords : List JsString :=
  [js "the", js "and", js "for", js "with", js "from", js "evidence", js "critic", js "reviewer",
    js "explorer", js "rationale", js "reason", js "change", js "probe"]

/-- `[a-z0-9]`. -/
def isTokenUnit (c : CodeUnit) : Bool := (0x61 ≤ c && c ≤ 0x7A) || (0x30 ≤ c && c ≤ 0x39)

/-- The set of tokens.  To put a blank for every run of other units and to split
    at blanks is to split at the other units: empty pieces are too short. -/
def tokens (host : PolicyHost) (value : JsString) : List JsString :=
  ((((host.toLocaleLowerCase value).splitOnP fun c => !isTokenUnit c).filter fun token =>
      3 ≤ token.length && !tokenStopwords.contains token).map fun token =>
    (OrderedMap.get? tokenAliases token).getD token).dedup

def semanticSimilaritySets (a b : List JsString) : ℚ :=
  if a.length = 0 || b.length = 0 then 0
  else
    let intersection := (a.filter b.contains).length
    (intersection : ℚ) / ((a.length : ℚ) + (b.length : ℚ) - (intersection : ℚ))

def normalizedLocation (host : PolicyHost) (location : FindingLocation) : JsString :=
  let file := host.toLocaleLowerCase
    (trim (location.file.map fun c => if c = 0x5C then 0x2F else c))
  let lineEnd := location.lineEnd.getD location.line
  file ++ js ":" ++ integerText location.line ++ js "-" ++ integerText lineEnd

def normalizedCategory (host : PolicyHost) (category : JsString) : JsString :=
  host.toLocaleLowerCase (trim category)

def sameFinding (host : PolicyHost) (left right : FindingCandidate) : Bool :=
  if normalizedCategory host left.category ≠ normalizedCategory host right.category then false
  else if normalizedLocation host left.location ≠ normalizedLocation host right.location then false
  else if trim left.finding = trim right.finding then true
  else 3 / 10 ≤ semanticSimilaritySets (tokens host left.finding) (tokens host right.finding)

/-! ## Identifiers -/

/-- The loop goes over characters: the second half of a surrogate pair is not hashed. -/
def fnv1a : UInt32 → JsString → UInt32
  | hash, [] => hash
  | hash, [c] => (hash ^^^ c.toUInt32) * 16777619
  | hash, c :: d :: rest =>
    let next := (hash ^^^ c.toUInt32) * 16777619
    if isHighSurrogate c && isLowSurrogate d then fnv1a next rest else fnv1a next (d :: rest)

/-- `hash.toString(16).padStart(8, '0')`. -/
def hashText (hash : UInt32) : JsString :=
  [7, 6, 5, 4, 3, 2, 1, 0].map fun place => hexDigit (hash.toNat / 16 ^ place % 16)

/-- Location and category, as the material begins. -/
def placeText (host : PolicyHost) (value : FindingCandidate) : JsString :=
  normalizedLocation host value.location ++ js "|" ++ normalizedCategory host value.category

def idMaterial (host : PolicyHost) (value : FindingCandidate) : JsString :=
  placeText host value ++ js "|" ++ joinComma (sortStrings (tokens host value.finding))

def findingId (host : PolicyHost) (value : FindingCandidate) : JsString :=
  js "finding-" ++ hashText (fnv1a 2166136261 (idMaterial host value))

/-! ## Synthesis -/

def maxFindingSynthesisCandidates : Nat := 256

structure SynthesizedFinding where
  id : JsString
  finding : JsString
  severity : FindingSeverity
  action : FindingAction
  confidence : ConfidenceLabel
  confidenceScore : ℚ
  agreementCount : Nat
  category : JsString
  location : FindingLocation
  provenance : List FindingProvenance
  status : FindingStatus
  sourceFindingIds : List JsString

structure FindingSynthesis where
  policyVersion : Nat
  findings : List SynthesizedFinding
  diagnostics : List JsString

def provenanceKey (value : FindingProvenance) : JsString := trim value.identity

def uniqueProvenanceLoop : OrderedMap JsString FindingProvenance → List FindingProvenance →
    Except JsString (OrderedMap JsString FindingProvenance)
  | unique, [] => .ok unique
  | unique, value :: rest =>
    if (trim value.identity).isEmpty then
      .error (js "Finding provenance identity must be non-empty")
    else
      let key := provenanceKey value
      uniqueProvenanceLoop (if (unique.get? key).isSome then unique else unique.set key value) rest

def uniqueProvenance (host : PolicyHost) (values : List FindingProvenance) :
    Except JsString (List FindingProvenance) :=
  (uniqueProvenanceLoop [] values).map fun unique =>
    sortBy (fun a b => host.localeCompare (provenanceKey a) (provenanceKey b)) unique.values

/-- `values.reduce((best, value) => rank[value] > rank[best] ? value : best)`. -/
def highestBy {α : Type*} (rank : α → Nat) (first : α) (rest : List α) : α :=
  rest.foldl (fun best value => if rank best < rank value then value else best) first

def lowestConfidence (first : ConfidenceLabel) (rest : List ConfidenceLabel) : ConfidenceLabel :=
  rest.foldl (fun lowest value =>
    if confidenceRank value < confidenceRank lowest then value else lowest) first

abbrev FindingGroup := LeaderGroups.Group FindingCandidate

/-- `group.map(f)` and its reduction by a rank. -/
def FindingGroup.highest {α : Type*} (rank : α → Nat) (f : FindingCandidate → α)
    (group : FindingGroup) : α :=
  highestBy rank (f group.leader) (group.others.map f)

/-- The one finding of a group. -/
def synthesizeGroup (host : PolicyHost) (group : FindingGroup) :
    Except JsString SynthesizedFinding :=
  match uniqueProvenance host (group.members.flatMap FindingCandidate.provenance) with
  | .error e => .error e
  | .ok provenance =>
    let confidence :=
      if 2 ≤ provenance.length then .high
      else lowestConfidence group.leader.confidence
        (group.others.map FindingCandidate.confidence)
    .ok {
      id := findingId host group.leader
      finding := group.leader.finding
      severity := group.highest severityRank FindingCandidate.severity
      action := group.highest actionRank fun c => findingAction c.action
      confidence := confidence
      confidenceScore := confidenceScore confidence
      agreementCount := provenance.length
      category := group.leader.category
      location := group.leader.location
      provenance := provenance
      status := group.highest findingStatusRank fun c => findingStatus c.status
      sourceFindingIds :=
        sortStrings (group.members.filterMap FindingCandidate.sourceFindingId).dedup }

def groupDiagnostics (host : PolicyHost) (group : FindingGroup) : List JsString :=
  if 1 < (group.members.map FindingCandidate.severity).dedup.length
      || 1 < (group.members.map FindingCandidate.confidence).dedup.length then
    [js "conservative disagreement at " ++ normalizedLocation host group.leader.location]
  else []

def groupCandidates (host : PolicyHost) (candidates : List FindingCandidate) : List FindingGroup :=
  LeaderGroups.groups (sameFinding host) candidates

/-- The findings of the candidates, one for each group. -/
def synthesizePrReviewFindings (host : PolicyHost) (candidates : List FindingCandidateInput) :
    Except JsString FindingSynthesis :=
  if maxFindingSynthesisCandidates < candidates.length then
    .error (js "Finding synthesis accepts at most " ++ decimal maxFindingSynthesisCandidates
      ++ js " candidates")
  else
    match candidates.mapM (normalizeCandidate host) with
    | .error e => .error e
    | .ok normalized =>
      let groups := groupCandidates host normalized
      match groups.mapM (synthesizeGroup host) with
      | .error e => .error e
      | .ok findings =>
        .ok { policyVersion := 1, findings, diagnostics := groups.flatMap (groupDiagnostics host) }

end OpencodeSwarm
