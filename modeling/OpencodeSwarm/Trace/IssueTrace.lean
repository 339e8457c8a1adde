/-
  OpencodeSwarm.Trace.IssueTrace

  The issue-trace reducer (`src/hooks/issue-trace-reducer.ts`): from the trace
  state and the observed workflow artifacts it picks the next transition of the
  workflow, first matching row of the decision table.  Every transition leaves
  its own name in the trace state, which keeps it from firing twice.
-/
import Mathlib.Data.List.Basic
import OpencodeSwarm.Lib.JsString

namespace OpencodeSwarm

open Js

/-! ## Records -/

/-- `IssueReference`, the fields the reducer reads. -/
structure IssueReference where
  number : Nat
  trace : Bool
  deriving DecidableEq, Repr

inductive TraceStatus where
  | inProgress
  | publicationHandoff
  | published
  | mergeApprovalRecorded
  deriving DecidableEq, Repr

/-- The values of `lastTransition`; `other` is a string no row writes. -/
inductive TraceTransition where
  | specMismatchGate
  | freshnessGate
  | reproGate
  | issueIngestToPlan
  | planBindingGate
  | reproGateLate
  | criticGate
  | planToExecute
  | reviewGate
  | recurrenceGate
  | traceValidationGate
  | executeToCommit
  | published
  | mergeApprovalRecorded
  | other (text : JsString)
  deriving DecidableEq, Repr

structure TraceState where
  issueNumber : Nat
  lastTransition : Option TraceTransition
  status : TraceStatus
  deriving DecidableEq, Repr

structure WorkflowArtifacts where
  specExists : Bool
  specIssueNumber : Option Nat
  planExists : Bool
  criticApproved : Bool
  allPhasesComplete : Bool
  reproductionPermitted : Bool
  freshnessPermitted : Bool
  publicationObserved : Bool
  recurrenceSweepVerified : Bool
  implementationReviewVerified : Bool
  traceValidationVerified : Bool
  mergeApprovalObserved : Bool
  planBoundToSpec : Option Bool := none
  deriving DecidableEq, Repr

/-- `nextMode`. -/
inductive TraceMode where
  | issueIngest
  | plan
  | criticGate
  | execute
  deriving DecidableEq, Repr

structure TransitionResult where
  nextMode : Option TraceMode
  directive : Option String
  nextLastTransition : Option TraceTransition
  nextStatus : TraceStatus
  deriving DecidableEq, Repr

/-! ## What a transition emits -/

/-- The mode a transition drives; the ends of the workflow drive none. -/
def TraceTransition.mode : TraceTransition → Option TraceMode
  | .specMismatchGate | .freshnessGate | .reproGate | .reproGateLate => some .issueIngest
  | .issueIngestToPlan | .planBindingGate => some .plan
  | .criticGate => some .criticGate
  | .planToExecute | .reviewGate | .recurrenceGate | .traceValidationGate => some .execute
  | .executeToCommit | .published | .mergeApprovalRecorded | .other _ => none

/-- The text a transition emits. -/
def TraceTransition.directive : TraceTransition → Option String
  | .issueIngestToPlan | .planToExecute | .other _ => none
  | .specMismatchGate => some <|
    "The spec on disk (## Source Issue) does not match the traced issue #N. Regenerate the "
    ++ "spec for this issue through the issue-ingest flow (/swarm issue), or correct the ## "
    ++ "Source Issue number in .swarm/spec.md. The trace will not advance while the spec "
    ++ "belongs to a different issue."
  | .freshnessGate => some <|
    "Branch freshness is not established for this trace (behind, or fetch failed without a "
    ++ "recorded user override). Re-sync with the default branch (git fetch + rebase/merge), "
    ++ "then call record_branch_freshness (issueNumber, freshness: \"synced\") — or, when the "
    ++ "fetch genuinely failed and the user has accepted proceeding on the stale base, record "
    ++ "freshness: \"fetch-failed:<reason>\" together with the verbatim override string the "
    ++ "user provided. The trace will not transition to PLAN until this receipt permits."
  | .reproGate => some <|
    "Reproduction evidence (or a typed --no-repro waiver) is required before this trace can "
    ++ "transition to PLAN. Attempt a minimal reproduction and call record_issue_reproduction "
    ++ "(performed: true, commands, output_summary), or restart with /swarm issue --no-repro."
  | .planBindingGate => some <|
    "The loaded plan cannot be bound to the current spec for issue #N — its recorded "
    ++ "specHash differs from the current spec (or the plan predates spec linkage), so "
    ++ "executing it under this trace would run the wrong plan. Re-save the plan against the "
    ++ "current spec (save_plan after the spec is correct), or run /swarm reset to clear the "
    ++ "foreign plan and re-plan (note: reset also deletes .swarm/spec.md and the recorded "
    ++ "review receipts, so re-run /swarm issue --trace afterwards to regenerate them). The "
    ++ "trace will not transition to EXECUTE on a plan it cannot bind."
  | .reproGateLate => some <|
    "A plan already exists for this trace, but reproduction evidence has not been recorded "
    ++ "for issue #N. Attempt a minimal reproduction and call record_issue_reproduction "
    ++ "(performed: true, commands, output_summary), or restart with /swarm issue --no-repro. "
    ++ "The trace will not transition to EXECUTE until reproduction is permitted."
  | .criticGate => some <|
    "The plan for issue #N is not yet critic-approved. Dispatch MODE: CRITIC-GATE and wait "
    ++ "for VERDICT: APPROVED before EXECUTE. If the critic already returned APPROVED but the "
    ++ "snapshot was not recorded (issue #2012), call approve_plan_critic with a reason, or "
    ++ "run /swarm approve-plan-critic <reason>, to record the approval."
  | .reviewGate => some <|
    "All implementation phases are complete, but the independent implementation review is "
    ++ "not yet recorded. Dispatch a FRESH-context reviewer and then a FRESH-context critic "
    ++ "over the implementation diff (separate contexts from the implementer); when both "
    ++ "approve, call record_implementation_review (issueNumber, reviewerVerdict APPROVE, "
    ++ "criticVerdict APPROVE, the reviewed diff base/head, and notes). The trace will not "
    ++ "hand off to commit-pr until this receipt exists."
  | .recurrenceGate => some <|
    "The implementation review is approved, but the recurrence sweep is not yet recorded. "
    ++ "Characterize the defect class, search the repository with explicit predicates, "
    ++ "disposition every hit (FIX / FALSE_POSITIVE / OUT_OF_CLASS / "
    ++ "DEFERRED_WITH_USER_APPROVAL), and install a guardrail that provably catches the "
    ++ "original defect — or record the \"no defect class\" fast path with a one-line "
    ++ "justification. Then call record_recurrence_sweep. The trace will not hand off to "
    ++ "commit-pr until this receipt exists."
  | .traceValidationGate => some <|
    "The review and recurrence gates are satisfied, but the trace-check.sh validator "
    ++ "receipts are not yet green. Run the issue-tracer phase validator for every completed "
    ++ "phase (trace-check.sh phase <N> --slug <slug>) and record each outcome with "
    ++ "record_trace_validation (issueNumber, phase, outcome, the reviewedCommit, and the "
    ++ "treeId the validator reported). Any fail entry must be fixed and re-recorded as a pass "
    ++ "before the trace can hand off to commit-pr."
  | .executeToCommit => some <|
    "All implementation phases are complete. Compose commit-pr to publish the PR. Read "
    ++ ".swarm/issue-reference.json for Closes #N. After the PR is created/updated, call "
    ++ "record_issue_publication (with the issue number, PR number, URL, and HEAD sha) so this "
    ++ "trace reaches its terminal published state — the trace is NOT complete until "
    ++ "publication is confirmed."
  | .published => some <|
    "Publication confirmed. The issue-trace workflow is complete."
  | .mergeApprovalRecorded => some <|
    "Merge approval recorded for this trace, bound to the PR head SHA in "
    ++ ".swarm/merge-approval.json. The merge decision is human-enforced: the human user owns "
    ++ "and executes it through the host. This plugin records the approval verbatim for audit; "
    ++ "it does not drive, gate, or green-light the merge itself."

/-- The status a transition leads to. -/
def TraceTransition.status : TraceTransition → TraceStatus
  | .executeToCommit => .publicationHandoff
  | .published => .published
  | .mergeApprovalRecorded => .mergeApprovalRecorded
  | _ => .inProgress

def noop (state : TraceState) : TransitionResult where
  nextMode := none
  directive := none
  nextLastTransition := state.lastTransition
  nextStatus := state.status

/-- The result of a row that fires. -/
def fire (transition : TraceTransition) : TransitionResult where
  nextMode := transition.mode
  directive := transition.directive
  nextLastTransition := some transition
  nextStatus := transition.status

/-! ## The decision table -/

/-- A row of the table that can fire: its transition, and the last transitions
    it fires after. -/
structure TraceRow where
  transition : TraceTransition
  firesAfter : Option TraceTransition → Bool

/-- A row that fires after these transitions, or on a fresh trace. -/
def rowAfter (earlier : List TraceTransition) (transition : TraceTransition) : Option TraceRow :=
  some ⟨transition, fun last => last.all fun last => last ∈ earlier⟩

/-- A row that fires unless one of these transitions was the last. -/
def rowUnless (later : List TraceTransition) (transition : TraceTransition) : Option TraceRow :=
  some ⟨transition, fun last => !last.any fun last => last ∈ later⟩

/-- The spec or the trace state belongs to another issue, or no spec names one. -/
def specMismatch (reference : IssueReference) (issueNumber : Nat)
    (artifacts : WorkflowArtifacts) : Bool :=
  artifacts.specIssueNumber != some reference.number || issueNumber != reference.number

/-- Row (d): a definite mismatch is named once. -/
def specMismatchRow (reference : IssueReference) (issueNumber : Nat)
    (artifacts : WorkflowArtifacts) : Option TraceRow :=
  if artifacts.specIssueNumber.isSome ∨ issueNumber ≠ reference.number then
    rowUnless [.specMismatchGate] .specMismatchGate
  else none

/-- Rows (f-0), (f-block) and (f): a spec, and no plan. -/
def planRows (artifacts : WorkflowArtifacts) : Option TraceRow :=
  if !artifacts.freshnessPermitted then rowAfter [.reproGate, .specMismatchGate] .freshnessGate
  else if !artifacts.reproductionPermitted then
    rowAfter [.freshnessGate, .specMismatchGate] .reproGate
  else rowAfter [.reproGate, .freshnessGate, .specMismatchGate] .issueIngestToPlan

/-- Rows (i-pre1) to (i): all phases complete. -/
def handoffRows (artifacts : WorkflowArtifacts) : Option TraceRow :=
  if !artifacts.implementationReviewVerified then
    rowUnless [.reviewGate, .recurrenceGate, .executeToCommit] .reviewGate
  else if !artifacts.recurrenceSweepVerified then
    rowUnless [.recurrenceGate, .executeToCommit] .recurrenceGate
  else if !artifacts.traceValidationVerified then
    rowUnless [.traceValidationGate, .executeToCommit] .traceValidationGate
  else rowUnless [.executeToCommit] .executeToCommit

/-- Rows (g-binding) to (i): a plan.  A binding that is not known passes. -/
def executeRows (artifacts : WorkflowArtifacts) : Option TraceRow :=
  if artifacts.planBoundToSpec = some false then rowUnless [.planBindingGate] .planBindingGate
  else if !artifacts.reproductionPermitted then
    rowAfter [.specMismatchGate, .planBindingGate, .freshnessGate, .reproGate,
      .issueIngestToPlan] .reproGateLate
  else if !artifacts.criticApproved then
    rowAfter [.specMismatchGate, .planBindingGate, .reproGateLate, .freshnessGate,
      .reproGate, .issueIngestToPlan] .criticGate
  else if !artifacts.allPhasesComplete then rowUnless [.planToExecute] .planToExecute
  else handoffRows artifacts

/-- Rows (d) to (i): the trace is in progress. -/
def progressRows (reference : IssueReference) (issueNumber : Nat)
    (artifacts : WorkflowArtifacts) : Option TraceRow :=
  if specMismatch reference issueNumber artifacts then
    specMismatchRow reference issueNumber artifacts
  else if !artifacts.specExists then none
  else if !artifacts.planExists then planRows artifacts
  else executeRows artifacts

/-- The first row that matches; `none` is a row that never fires. -/
def selectRow (reference : Option IssueReference) (issueNumber : Nat) (status : TraceStatus)
    (artifacts : WorkflowArtifacts) : Option TraceRow :=
  match reference.filter (·.trace) with
  | none => none
  | some reference =>
    match status with
    | .mergeApprovalRecorded => none
    | .published =>
      if artifacts.mergeApprovalObserved then
        rowUnless [.mergeApprovalRecorded] .mergeApprovalRecorded
      else none
    | .publicationHandoff =>
      if artifacts.publicationObserved then rowUnless [.published] .published else none
    | .inProgress => progressRows reference issueNumber artifacts

def computeNextMode (reference : Option IssueReference) (state : TraceState)
    (artifacts : WorkflowArtifacts) : TransitionResult :=
  match selectRow reference state.issueNumber state.status artifacts with
  | none => noop state
  | some row =>
    if row.firesAfter state.lastTransition then fire row.transition else noop state

end OpencodeSwarm
