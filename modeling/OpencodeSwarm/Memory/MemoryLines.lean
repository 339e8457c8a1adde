/-
  OpencodeSwarm.Memory.MemoryLines

  The lines of the store: a record, a proposal and an outcome event, each printed
  as the object that determines it.
-/
import OpencodeSwarm.Lib.JsonCodec
import OpencodeSwarm.Memory.JsonlProvider

namespace OpencodeSwarm

open Js JsonLines

/-! ## Fields -/

theorem Json.str_injective : Function.Injective Json.str := fun _ _ h => Json.str.inj h

theorem mapStr_injective : Function.Injective (Option.map Json.str) :=
  Option.map_injective Json.str_injective

/-- An array of printed items. -/
def arrayOf {α : Type*} (item : α → Json) (items : List α) : Json := .arr (items.map item)

theorem arrayOf_injective {α : Type*} {item : α → Json} (h : Function.Injective item) :
    Function.Injective (arrayOf item) := by
  intro items others heq
  exact List.map_injective_iff.mpr h (Json.arr.inj heq)

def MemoryStability.text : MemoryStability → JsString
  | ephemeral => js "ephemeral"
  | session => js "session"
  | durable => js "durable"

def MemoryOutcomeKind.text : MemoryOutcomeKind → JsString
  | useful => js "useful"
  | deadEnd => js "dead_end"
  | corrected => js "corrected"

def ProposalOperation.text : ProposalOperation → JsString
  | add => js "add"
  | update => js "update"
  | delete => js "delete"
  | ignore => js "ignore"
  | merge => js "merge"
  | supersede => js "supersede"

def ProposalStatus.text : ProposalStatus → JsString
  | pending => js "pending"
  | approved => js "approved"
  | rejected => js "rejected"
  | superseded => js "superseded"
  | applied => js "applied"

theorem MemoryScopeType.text_injective : Function.Injective MemoryScopeType.text := by
  intro a b h
  cases a <;> cases b <;> first | rfl | exact absurd h (by decide)

theorem MemoryKind.text_injective : Function.Injective MemoryKind.text := by
  intro a b h
  cases a <;> cases b <;> first | rfl | exact absurd h (by decide)

theorem MemoryStability.text_injective : Function.Injective MemoryStability.text := by
  intro a b h
  cases a <;> cases b <;> first | rfl | exact absurd h (by decide)

theorem MemoryOutcomeKind.text_injective : Function.Injective MemoryOutcomeKind.text := by
  intro a b h
  cases a <;> cases b <;> first | rfl | exact absurd h (by decide)

theorem ProposalOperation.text_injective : Function.Injective ProposalOperation.text := by
  intro a b h
  cases a <;> cases b <;> first | rfl | exact absurd h (by decide)

theorem ProposalStatus.text_injective : Function.Injective ProposalStatus.text := by
  intro a b h
  cases a <;> cases b <;> first | rfl | exact absurd h (by decide)

/-- Fields that determine a value, printed as an object, determine it too. -/
theorem ofFields_injective {α : Type*} {fields : α → List (JsString × Option Json)}
    (hkeys : ∀ a b, (fields a).map Prod.fst = (fields b).map Prod.fst)
    (hnodup : ∀ a, ((fields a).map Prod.fst).Nodup) (h : Function.Injective fields) :
    Function.Injective fun a => Json.ofFields (fields a) := by
  intro a b heq
  exact h ((Json.ofFields_eq_iff (hkeys a b) (hnodup a)).mp heq)

/-! ## Objects -/

def MemoryScopeRef.optionalFields (scope : MemoryScopeRef) : List (JsString × Option Json) :=
  [(js "type", some (.str scope.type.text)), (js "userId", scope.userId.map .str),
    (js "workspaceId", scope.workspaceId.map .str), (js "projectId", scope.projectId.map .str),
    (js "repoId", scope.repoId.map .str), (js "repoRoot", scope.repoRoot.map .str),
    (js "runId", scope.runId.map .str), (js "agentId", scope.agentId.map .str),
    (js "cohortId", scope.cohortId.map .str)]

def MemoryScopeRef.json (scope : MemoryScopeRef) : Json := Json.ofFields scope.optionalFields

theorem MemoryScopeRef.json_injective : Function.Injective MemoryScopeRef.json := by
  refine ofFields_injective (fun _ _ => rfl) (fun _ => of_decide_eq_true rfl) fun a b h => ?_
  cases a
  cases b
  simpa [optionalFields, mapStr_injective.eq_iff, MemoryScopeType.text_injective.eq_iff] using h

def MemorySource.optionalFields (source : MemorySource) : List (JsString × Option Json) :=
  [(js "ref", source.ref.map .str), (js "url", source.url.map .str),
    (js "filePath", source.filePath.map .str), (js "commitSha", source.commitSha.map .str)]

def MemorySource.json (source : MemorySource) : Json := Json.ofFields source.optionalFields

theorem MemorySource.json_injective : Function.Injective MemorySource.json := by
  refine ofFields_injective (fun _ _ => rfl) (fun _ => of_decide_eq_true rfl) fun a b h => ?_
  cases a
  cases b
  simpa [optionalFields, mapStr_injective.eq_iff] using h

def MemoryAnchor.optionalFields (anchor : MemoryAnchor) : List (JsString × Option Json) :=
  [(js "file", some (.str anchor.file)), (js "symbol", anchor.symbol.map .str)]

def MemoryAnchor.json (anchor : MemoryAnchor) : Json := Json.ofFields anchor.optionalFields

theorem MemoryAnchor.json_injective : Function.Injective MemoryAnchor.json := by
  refine ofFields_injective (fun _ _ => rfl) (fun _ => of_decide_eq_true rfl) fun a b h => ?_
  cases a
  cases b
  simpa [optionalFields, mapStr_injective.eq_iff] using h

def MemoryOutcome.optionalFields (outcome : MemoryOutcome) : List (JsString × Option Json) :=
  [(js "outcome", some (.str outcome.outcome.text)), (js "at", some (.str outcome.at')),
    (js "taskId", outcome.taskId.map .str), (js "correction", outcome.correction.map .str)]

def MemoryOutcome.json (outcome : MemoryOutcome) : Json := Json.ofFields outcome.optionalFields

theorem MemoryOutcome.json_injective : Function.Injective MemoryOutcome.json := by
  refine ofFields_injective (fun _ _ => rfl) (fun _ => of_decide_eq_true rfl) fun a b h => ?_
  cases a
  cases b
  simpa [optionalFields, mapStr_injective.eq_iff, MemoryOutcomeKind.text_injective.eq_iff] using h

/-- The fields in the order they are printed; an absent one is left out. -/
def MemoryRecord.optionalFields (record : MemoryRecord) : List (JsString × Option Json) :=
  [(js "id", some (.str record.id)), (js "scope", some record.scope.json),
    (js "kind", some (.str record.kind.text)), (js "text", some (.str record.text)),
    (js "tags", some (arrayOf .str record.tags)),
    (js "stability", some (.str record.stability.text)), (js "source", some record.source.json),
    (js "createdAt", some (.str record.createdAt)), (js "updatedAt", some (.str record.updatedAt)),
    (js "expiresAt", record.expiresAt.map .str),
    (js "supersedes", record.supersedes.map (arrayOf .str)),
    (js "supersededBy", record.supersededBy.map .str),
    (js "contentHash", some (.str record.contentHash)), (js "metadata", some (.obj record.metadata)),
    (js "anchors", record.anchors.map (arrayOf MemoryAnchor.json)),
    (js "outcomes", record.outcomes.map (arrayOf MemoryOutcome.json))]

def MemoryRecord.json (record : MemoryRecord) : Json := Json.ofFields record.optionalFields

/-- Two records that print alike are one. -/
theorem MemoryRecord.json_injective : Function.Injective MemoryRecord.json := by
  refine ofFields_injective (fun _ _ => rfl) (fun _ => of_decide_eq_true rfl) fun a b h => ?_
  have hstrings := Option.map_injective (arrayOf_injective Json.str_injective)
  have hanchors := Option.map_injective (arrayOf_injective MemoryAnchor.json_injective)
  have houtcomes := Option.map_injective (arrayOf_injective MemoryOutcome.json_injective)
  cases a
  cases b
  simpa [optionalFields, mapStr_injective.eq_iff, MemoryScopeRef.json_injective.eq_iff,
    MemoryKind.text_injective.eq_iff, MemoryStability.text_injective.eq_iff,
    MemorySource.json_injective.eq_iff, (arrayOf_injective Json.str_injective).eq_iff,
    hstrings.eq_iff, hanchors.eq_iff, houtcomes.eq_iff] using h

def MemoryProposal.optionalFields (proposal : MemoryProposal) : List (JsString × Option Json) :=
  [(js "id", some (.str proposal.id)), (js "operation", some (.str proposal.operation.text)),
    (js "proposedRecord", proposal.proposedRecord.map MemoryRecord.json),
    (js "targetMemoryId", proposal.targetMemoryId.map .str),
    (js "relatedMemoryIds", proposal.relatedMemoryIds.map (arrayOf .str)),
    (js "status", some (.str proposal.status.text)), (js "reviewedAt", proposal.reviewedAt.map .str),
    (js "rejectionReason", proposal.rejectionReason.map .str)]

def MemoryProposal.json (proposal : MemoryProposal) : Json := Json.ofFields proposal.optionalFields

theorem MemoryProposal.json_injective : Function.Injective MemoryProposal.json := by
  refine ofFields_injective (fun _ _ => rfl) (fun _ => of_decide_eq_true rfl) fun a b h => ?_
  have hrecord := Option.map_injective MemoryRecord.json_injective
  have hstrings := Option.map_injective (arrayOf_injective Json.str_injective)
  cases a
  cases b
  simpa [optionalFields, mapStr_injective.eq_iff, ProposalOperation.text_injective.eq_iff,
    ProposalStatus.text_injective.eq_iff, hrecord.eq_iff, hstrings.eq_iff] using h

def MemoryOutcomeEvent.optionalFields (event : MemoryOutcomeEvent) :
    List (JsString × Option Json) :=
  [(js "id", some (.str event.id)), (js "memoryId", some (.str event.memoryId)),
    (js "generation", some (.str event.generation)), (js "outcome", some event.outcome.json),
    (js "anchors", some (arrayOf MemoryAnchor.json event.anchors))]

def MemoryOutcomeEvent.json (event : MemoryOutcomeEvent) : Json :=
  Json.ofFields event.optionalFields

theorem MemoryOutcomeEvent.json_injective : Function.Injective MemoryOutcomeEvent.json := by
  refine ofFields_injective (fun _ _ => rfl) (fun _ => of_decide_eq_true rfl) fun a b h => ?_
  cases a
  cases b
  simpa [optionalFields, MemoryOutcome.json_injective.eq_iff,
    (arrayOf_injective MemoryAnchor.json_injective).eq_iff] using h

/-! ## Codecs -/

section Codecs

/-- The fields that are printed. -/
def presentFields (fields : List (JsString × Option Json)) : List (JsString × Json) :=
  fields.filterMap fun f => f.2.map fun v => (f.1, v)

theorem presentFields_injective {α : Type*} {fields : α → List (JsString × Option Json)}
    (h : Function.Injective fun a => Json.ofFields (fields a)) :
    Function.Injective fun a => presentFields (fields a) := by
  intro a b heq
  exact h (congrArg Json.obj heq)

/-- The files as JSON: what was printed is read, and nothing else. -/
noncomputable def memoryCodecs : MemoryCodecs where
  memories := Codec.printed _ MemoryRow.record (presentFields_injective MemoryRecord.json_injective)
  proposals := Codec.printed _ some (presentFields_injective MemoryProposal.json_injective)
  events := Codec.printed _ some (presentFields_injective MemoryOutcomeEvent.json_injective)
  memories_toValue _ := rfl
  proposals_toValue _ := rfl
  events_toValue _ := rfl

end Codecs

end OpencodeSwarm
