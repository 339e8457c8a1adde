/-
  OpencodeSwarm.Plan.Approval

  Critic approvals: how `takeSnapshotEvent` records one, how
  `findLastApprovedSnapshot` reads it back, and which plans
  `approvedSnapshotCoversPlan` lets it stand for.

  The structure hash has no field for `phase.type`, so an approval also covers
  a plan whose phases were retyped.  `approvedSnapshotCoversPlan_iff` gives the
  fields that are pinned; the rest of the file compares them with the plan's
  content.
-/
import OpencodeSwarm.Plan.PlanHash
import OpencodeSwarm.Plan.LedgerEvent

namespace OpencodeSwarm

open Js

/-- `ApprovedSnapshotInfo`, less the audit fields the coverage check ignores. -/
structure ApprovedSnapshotInfo where
  plan : Plan
  payloadHash : Option JsString
  seq : Nat

def criticApprovedSource : JsString := js "critic_approved"

section Approval

variable (sha256 : JsString → JsString)

/-! ## Recording and reading an approval -/

/-- The payload `takeSnapshotEvent` embeds.  An approval's `payload_hash` is the
    structure hash; every other source stores the ledger digest. -/
def snapshotPayload (plan : Plan) (source : JsString)
    (payloadHashOverride : Option JsString) : LedgerEventPayload where
  plan := some plan
  payloadHash := some (payloadHashOverride.getD
    (if source = criticApprovedSource then computePlanStructureHash sha256 plan
     else computePlanLedgerHash sha256 plan))

/-- The scan of `findLastApprovedSnapshot`, newest event first. -/
def approvedSnapshotOf (expectedPlanId : Option JsString) (event : LedgerEvent) :
    Option ApprovedSnapshotInfo :=
  if event.eventType ≠ .snapshot ∨ event.source ≠ criticApprovedSource then none
  else if expectedPlanId.any (fun planId => event.planId != planId) then none
  else
    match event.embeddedPlan with
    | none => none
    | some plan =>
      if expectedPlanId.any (fun planId => derivePlanId plan != planId) then none
      else some {
        plan := plan
        payloadHash := event.payload.bind LedgerEventPayload.payloadHash
        seq := event.seq }

def findLastApprovedSnapshot (events : List LedgerEvent) (expectedPlanId : Option JsString) :
    Option ApprovedSnapshotInfo :=
  events.reverse.findSome? (approvedSnapshotOf expectedPlanId)

/-- `approvedSnapshotCoversPlan`: equal structure hashes, or equal ones once the
    approved plan is rehashed at the current cursor. -/
def approvedSnapshotCoversPlan (approved : ApprovedSnapshotInfo) (plan : Plan) : Bool :=
  let current := computePlanStructureHash sha256 plan
  if approved.payloadHash = some current then true
  else if approved.plan.currentPhase = plan.currentPhase then false
  else if some (computePlanStructureHash sha256 approved.plan) ≠ approved.payloadHash then false
  else computePlanStructureHash sha256 { approved.plan with currentPhase := plan.currentPhase }
    = current

/-- An approval as `takeSnapshotEvent` recorded it under `critic_approved`. -/
def ApprovedSnapshotInfo.recorded (approved : ApprovedSnapshotInfo) : Prop :=
  approved.payloadHash = some (computePlanStructureHash sha256 approved.plan)

end Approval

/-! ## What an approval pins -/

/-- The plan as the approval sees it: everything the structure hash reads
    except the cursor. -/
def Plan.pinned (plan : Plan) : HashedPlan :=
  { plan.hashed false with currentPhase := none }

/-- The content fields of a plan: the pinned ones and the phase types.  Task
    and phase statuses, the cursor, `fr_refs`, `specMtime` and `specHash` are
    not content; the sorted lists are multisets. -/
structure PlanContent where
  pinned : HashedPlan
  phaseTypes : List (Option PhaseType)

def Plan.content (plan : Plan) : PlanContent where
  pinned := plan.pinned
  phaseTypes := plan.phases.map Phase.type

theorem Plan.pinned_eq_iff {p q : Plan} :
    p.pinned = q.pinned ↔ { p with currentPhase := q.currentPhase }.hashed false
      = q.hashed false := by
  simp [Plan.pinned, Plan.hashed]

section Coverage

variable {sha256 : JsString → JsString}

/-- A recorded approval covers exactly the plans that agree with it on the
    pinned fields. -/
theorem approvedSnapshotCoversPlan_iff (hsha : Function.Injective sha256)
    {approved : ApprovedSnapshotInfo} (hrecorded : approved.recorded sha256) (plan : Plan) :
    approvedSnapshotCoversPlan sha256 approved plan = true
      ↔ approved.plan.pinned = plan.pinned := by
  unfold approvedSnapshotCoversPlan
  simp only [show approved.payloadHash = _ from hrecorded, Option.some.injEq, ne_eq,
    not_true_eq_false, if_false]
  by_cases hcursor : approved.plan.currentPhase = plan.currentPhase
  · have hsame : { approved.plan with currentPhase := plan.currentPhase } = approved.plan := by
      rw [← hcursor]
    rw [Plan.pinned_eq_iff, hsame, ← computePlanStructureHash_eq_iff hsha]
    split <;> simp_all
  · rw [if_neg hcursor]
    have hne : computePlanStructureHash sha256 approved.plan
      ≠ computePlanStructureHash sha256 plan := by
      intro heq
      have hhashed := (computePlanStructureHash_eq_iff hsha).mp heq
      exact hcursor (congrArg HashedPlan.currentPhase hhashed)
    rw [if_neg hne, decide_eq_true_eq, computePlanStructureHash_eq_iff hsha, Plan.pinned_eq_iff]

/-- A recorded approval covers only plans with the approved content exactly
    when the phase types agree, or some pinned field already tells the plans
    apart. -/
theorem approvedSnapshotCoversPlan_content_iff (hsha : Function.Injective sha256)
    {approved : ApprovedSnapshotInfo} (hrecorded : approved.recorded sha256) (plan : Plan) :
    (approvedSnapshotCoversPlan sha256 approved plan = true → approved.plan.content = plan.content)
      ↔ approved.plan.phases.map Phase.type = plan.phases.map Phase.type
        ∨ approved.plan.pinned ≠ plan.pinned := by
  rw [approvedSnapshotCoversPlan_iff hsha hrecorded]
  by_cases hpinned : approved.plan.pinned = plan.pinned
  · simp [Plan.content, hpinned]
  · simp [hpinned]

end Coverage

/-! ### A retyped phase -/

/-- The plan with every phase declared of this type. -/
def Plan.withPhaseType (plan : Plan) (type : PhaseType) : Plan :=
  { plan with phases := plan.phases.map fun phase => { phase with type := some type } }

/-- One code phase holding one pending task. -/
def codePhasePlan : Plan := (onePhasePlan [plainTask "1.1" .pending]).withPhaseType .code

/-- The same plan with its phase declared `non-code`, which drops the drift
    gate of phase completion. -/
def nonCodePhasePlan : Plan := codePhasePlan.withPhaseType .nonCode

/-- The approval of the code plan covers the retyped one. -/
theorem approvedSnapshotCoversPlan_ignores_phaseType :
    ¬ ∀ sha256 : JsString → JsString, Function.Injective sha256 →
      ∀ approved : ApprovedSnapshotInfo, approved.recorded sha256 →
        ∀ plan : Plan, plan.wellFormed = true →
          approvedSnapshotCoversPlan sha256 approved plan = true →
            approved.plan.content = plan.content := by
  intro hall
  let approved : ApprovedSnapshotInfo :=
    { plan := codePhasePlan, payloadHash := some (computePlanStructureHash id codePhasePlan), seq := 2 }
  have hrecorded : approved.recorded id := rfl
  have hcovers : approvedSnapshotCoversPlan id approved nonCodePhasePlan = true :=
    (approvedSnapshotCoversPlan_iff Function.injective_id hrecorded _).mpr rfl
  have hcontent := hall id Function.injective_id approved hrecorded nonCodePhasePlan
    (by decide) hcovers
  exact absurd (congrArg PlanContent.phaseTypes hcontent) (by decide)

/-- The condition at the retyped plan. -/
theorem approvedSnapshotCoversPlan_content_nonCodePhasePlan :
    (approvedSnapshotCoversPlan id
        ⟨codePhasePlan, some (computePlanStructureHash id codePhasePlan), 2⟩ nonCodePhasePlan = true →
      codePhasePlan.content = nonCodePhasePlan.content)
      ↔ codePhasePlan.phases.map Phase.type = nonCodePhasePlan.phases.map Phase.type
        ∨ codePhasePlan.pinned ≠ nonCodePhasePlan.pinned :=
  have hrecorded : ApprovedSnapshotInfo.recorded id
      ⟨codePhasePlan, some (computePlanStructureHash id codePhasePlan), 2⟩ := rfl
  approvedSnapshotCoversPlan_content_iff Function.injective_id hrecorded nonCodePhasePlan

end OpencodeSwarm
