/-
  OpencodeSwarm.Memory.MemoryRecord

  Memory records (`src/memory/types.ts`, `src/memory/schema.ts`): what they hold,
  how their identity follows from their content, and the rules that every record
  passes when it is written and when it is loaded.
-/
import OpencodeSwarm.Lib.Json
import OpencodeSwarm.Lib.OrderedMap

namespace OpencodeSwarm

open Js

/-! ## Records -/

/-- `MemoryScopeTypeSchema`. -/
inductive MemoryScopeType where
  | globalUser
  | workspace
  | project
  | repository
  | run
  | agent
  | cohort
  deriving DecidableEq

def MemoryScopeType.text : MemoryScopeType → JsString
  | globalUser => js "global_user"
  | workspace => js "workspace"
  | project => js "project"
  | repository => js "repository"
  | run => js "run"
  | agent => js "agent"
  | cohort => js "cohort"

structure MemoryScopeRef where
  type : MemoryScopeType
  userId : Option JsString
  workspaceId : Option JsString
  projectId : Option JsString
  repoId : Option JsString
  repoRoot : Option JsString
  runId : Option JsString
  agentId : Option JsString
  cohortId : Option JsString
  deriving DecidableEq

/-- `MemoryKindSchema`. -/
inductive MemoryKind where
  | userPreference
  | projectFact
  | architectureDecision
  | repoConvention
  | apiFinding
  | codePattern
  | testPattern
  | failurePattern
  | securityNote
  | evidence
  | todo
  | scratch
  deriving DecidableEq

def MemoryKind.text : MemoryKind → JsString
  | userPreference => js "user_preference"
  | projectFact => js "project_fact"
  | architectureDecision => js "architecture_decision"
  | repoConvention => js "repo_convention"
  | apiFinding => js "api_finding"
  | codePattern => js "code_pattern"
  | testPattern => js "test_pattern"
  | failurePattern => js "failure_pattern"
  | securityNote => js "security_note"
  | evidence => js "evidence"
  | todo => js "todo"
  | scratch => js "scratch"

/-- `DURABLE_MEMORY_KINDS`. -/
def MemoryKind.isDurable : MemoryKind → Bool
  | userPreference | projectFact | architectureDecision | repoConvention | codePattern
  | testPattern | failurePattern | securityNote => true
  | _ => false

/-- `EVIDENCE_REQUIRED_KINDS`. -/
def MemoryKind.requiresEvidence : MemoryKind → Bool
  | apiFinding | evidence | securityNote => true
  | _ => false

inductive MemoryStability where
  | ephemeral
  | session
  | durable
  deriving DecidableEq

/-- `MemorySource`, as far as evidence goes. -/
structure MemorySource where
  ref : Option JsString
  url : Option JsString
  filePath : Option JsString
  commitSha : Option JsString
  deriving DecidableEq

structure MemoryAnchor where
  file : JsString
  symbol : Option JsString
  deriving DecidableEq

inductive MemoryOutcomeKind where
  | useful
  | deadEnd
  | corrected
  deriving DecidableEq

structure MemoryOutcome where
  outcome : MemoryOutcomeKind
  at' : JsString
  taskId : Option JsString
  correction : Option JsString
  deriving DecidableEq

/-- `MemoryRecord`: a value that passes `MemoryRecordSchema` but for the lengths that the rules
    below check. -/
structure MemoryRecord where
  id : JsString
  scope : MemoryScopeRef
  kind : MemoryKind
  text : JsString
  tags : List JsString
  stability : MemoryStability
  source : MemorySource
  createdAt : JsString
  updatedAt : JsString
  expiresAt : Option JsString
  supersedes : Option (List JsString)
  supersededBy : Option JsString
  contentHash : JsString
  metadata : OrderedMap JsString Json
  anchors : Option (List MemoryAnchor)
  outcomes : Option (List MemoryOutcome)

/-- `record.metadata.deleted === true`. -/
def MemoryRecord.deleted (record : MemoryRecord) : Bool :=
  match OrderedMap.get? record.metadata (js "deleted") with
  | some (.bool true) => true
  | _ => false

/-- `record.supersededBy`, as a condition. -/
def MemoryRecord.superseded (record : MemoryRecord) : Bool :=
  (truthyString record.supersededBy).isSome

/-- Neither deleted nor superseded. -/
def MemoryRecord.active (record : MemoryRecord) : Bool := !record.deleted && !record.superseded

/-- `record.metadata.outcomeGeneration`, where it is a string. -/
def MemoryRecord.outcomeGeneration? (record : MemoryRecord) : Option JsString :=
  match OrderedMap.get? record.metadata (js "outcomeGeneration") with
  | some (.str generation) => some generation
  | _ => none

/-! ## Identity -/

/-- The host's functions that records depend on. -/
structure MemoryHost where
  /-- `createHash('sha256').update(text).digest('hex')`. -/
  sha256 : JsString → JsString
  toLowerCase : JsString → JsString
  containsSecret : JsString → Bool
  /-- `Date.parse`, nothing for `NaN`. -/
  parseDate : JsString → Option Int

/-- `text.replace(/\s+/g, ' ')`. -/
def collapseSpaces : JsString → JsString
  | [] => []
  | [c] => if isSpace c then [0x20] else [c]
  | c :: d :: rest =>
    if isSpace c then
      if isSpace d then collapseSpaces (d :: rest) else 0x20 :: collapseSpaces (d :: rest)
    else c :: collapseSpaces (d :: rest)

def normalizeMemoryText (text : JsString) : JsString := trim (collapseSpaces text)

/-- The text of a scope that an identity is made of. -/
def stableScopeKey (scope : MemoryScopeRef) : JsString :=
  let keys : List (JsString × Option JsString) :=
    match scope.type with
    | .repository => [(js "repoId", scope.repoId)]
    | .cohort => [(js "cohortId", scope.cohortId)]
    | _ =>
      [(js "userId", scope.userId), (js "workspaceId", scope.workspaceId),
        (js "projectId", scope.projectId), (js "repoId", scope.repoId),
        (js "repoRoot", scope.repoRoot), (js "runId", scope.runId), (js "agentId", scope.agentId)]
  let ordered := keys.filterMap fun key =>
    (truthyString key.2).map fun value => (key.1, Json.str value)
  Json.stringify (.obj ((js "type", .str scope.type.text) :: ordered))

section Rules

variable (host : MemoryHost)

def computeMemoryContentHash (scope : MemoryScopeRef) (kind : MemoryKind) (text : JsString) :
    JsString :=
  host.sha256 (stableScopeKey scope ++ js "\n" ++ kind.text ++ js "\n"
    ++ host.toLowerCase (normalizeMemoryText text))

def createMemoryId (scope : MemoryScopeRef) (kind : MemoryKind) (text : JsString) : JsString :=
  js "mem_" ++ (computeMemoryContentHash host scope kind text).take 16

/-! ## Rules -/

def isExpired (record : MemoryRecord) (now : Int) : Bool :=
  match truthyString record.expiresAt with
  | none => false
  | some expiresAt =>
    match host.parseDate expiresAt with
    | none => false
    | some expires => expires ≤ now

def hasEvidenceSource (record : MemoryRecord) : Bool :=
  (truthyString record.source.url).isSome || (truthyString record.source.filePath).isSome
    || (truthyString record.source.commitSha).isSome || (truthyString record.source.ref).isSome

/-- `MAX_MEMORY_TEXT_LENGTH`. -/
def maxMemoryTextLength : Nat := 2000

/-- `MAX_MEMORY_ANCHORS`. -/
def maxMemoryAnchors : Nat := 20

/-- The most outcomes that `MemoryRecordSchema` admits. -/
def maxMemoryOutcomes : Nat := 1000

/-- `record.outcomes ?? []`. -/
def MemoryRecord.outcomeList (record : MemoryRecord) : List MemoryOutcome :=
  record.outcomes.getD []

/-- `record.anchors ?? []`. -/
def MemoryRecord.anchorList (record : MemoryRecord) : List MemoryAnchor := record.anchors.getD []

/-- The lengths of `MemoryRecordSchema`. -/
def memoryRecordLengths (record : MemoryRecord) : Bool :=
  1 ≤ record.text.length && record.text.length ≤ maxMemoryTextLength
    && record.anchorList.length ≤ maxMemoryAnchors && record.outcomeList.length ≤ maxMemoryOutcomes

/-- A scratch memory lives for a week at most. -/
def scratchExpires (record : MemoryRecord) : Bool :=
  match truthyString record.expiresAt with
  | none => false
  | some expiresAt =>
    match host.parseDate expiresAt, host.parseDate record.createdAt with
    | some expires, some created => expires - created ≤ 7 * 24 * 60 * 60 * 1000
    | _, _ => true

/-- The identity and the evidence that a record needs: what does not depend on its metadata,
    anchors or outcomes. -/
def memoryBodyRules (record : MemoryRecord) : Bool :=
  !includes record.text (js "## Retrieved Swarm Memory")
    && !includes record.text (js "bundle_")
    && record.contentHash == computeMemoryContentHash host record.scope record.kind record.text
    && record.id == createMemoryId host record.scope record.kind record.text
    && !(record.stability == .durable && (record.scope.type == .run || record.scope.type == .agent))
    && !(record.stability == .durable
      && (record.kind.isDurable || record.kind == .apiFinding || record.kind == .evidence)
      && !hasEvidenceSource record)
    && !(record.kind.requiresEvidence && !hasEvidenceSource record)
    && !(record.kind == .scratch && !scratchExpires host record)

/-- A durable memory and its corrections hold no secret. -/
def keepsSecrets (record : MemoryRecord) : Bool :=
  record.stability == .durable
    && (host.containsSecret record.text
      || record.outcomeList.any fun outcome => outcome.correction.any host.containsSecret)

/-- `metadata.outcomeEventIds` stands beside the outcomes. -/
def alignedEventIds (record : MemoryRecord) : Bool :=
  match OrderedMap.get? record.metadata (js "outcomeEventIds") with
  | none => true
  | some (.arr ids) =>
    ids.length == record.outcomeList.length && ids.all fun id =>
      match id with
      | .str text => 1 ≤ text.length && text.length ≤ 256
      | _ => false
  | some _ => false

/-- `metadata.outcomeGeneration` is a bounded string. -/
def boundedGeneration (record : MemoryRecord) : Bool :=
  match OrderedMap.get? record.metadata (js "outcomeGeneration") with
  | none => true
  | some (.str generation) => 1 ≤ generation.length && generation.length ≤ 256
  | some _ => false

/-- `validateMemoryRecordRules`: whether the record passes. -/
def validateMemoryRecordRules (rejectDurableSecrets : Bool) (record : MemoryRecord) : Bool :=
  memoryRecordLengths record && memoryBodyRules host record
    && !(rejectDurableSecrets && keepsSecrets host record)
    && alignedEventIds record && boundedGeneration record

end Rules

end OpencodeSwarm
