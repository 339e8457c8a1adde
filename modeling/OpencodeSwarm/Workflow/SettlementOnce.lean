/-
  OpencodeSwarm.Workflow.SettlementOnce

  A coder settlement takes effect once: whatever crashes, recoveries and replays
  the run has, the evidence is that of one uninterrupted settlement, followed by
  the other events.
-/
import OpencodeSwarm.Workflow.SettlementRun

namespace OpencodeSwarm

open Js Transition

/-! ## One uninterrupted settlement -/

/-- What a settlement counts in the evidence. -/
structure WorkflowProgress where
  generation : Nat
  retryCount : Nat
  retryHistory : List WorkflowOutcome
  deriving DecidableEq, Repr

def progressOf (evidence : Option TaskEvidence) : WorkflowProgress :=
  let snapshot := getTaskWorkflowSnapshot evidence
  ⟨snapshot.generation, snapshot.retryCount, snapshot.retryHistory⟩

/-- The call that takes the decision a record holds. -/
def CoderSettlementWal.decision (wal : CoderSettlementWal) : SettleOptions where
  accepted := wal.accepted == some true
  testEngineerExempt := wal.testEngineerExempt == some true
  settlementFailed := wal.settlementFailed == some true

/-- `beginCoderSettlement` and one `settleCoderDispatch`, without a crash. -/
def uninterrupted (settlement : CoderSettlement) (start : SettlementWorld)
    (decision : SettleOptions) (nowIso laterIso : JsString) : SettlementWorld :=
  [.beginEvidence nowIso, .beginWal, .settle decision, .commit laterIso, .writeCommitted].foldl
    (settlementStep settlement) start

variable {settlement : CoderSettlement} {start : SettlementWorld} {nowIso : JsString}
  {dispatched : TaskEvidence}

theorem Begins.progress (h : Begins settlement start nowIso dispatched) :
    progressOf (some dispatched) = progressOf start.evidence := by
  have haccepted : updateEvidenceForTransition nowIso start.evidence (dispatchEvent settlement)
      = .ok dispatched := h.accepted
  rcases updateEvidence_cases haccepted with ⟨hsame, -⟩ | ⟨workflow, htakes⟩
  · rw [hsame]
  obtain ⟨-, hcount, hhistory⟩ := reduce_dispatchAttempted htakes.reduced
  have hgeneration : workflow.generation = (getTaskWorkflowSnapshot start.evidence).generation :=
    htakes.step.generation
  unfold progressOf
  rw [htakes.snapshot]
  dsimp only
  rw [hgeneration, hcount, hhistory]

/-- The record the uninterrupted settlement prepares. -/
def decidedWal (settlement : CoderSettlement) (wal : CoderSettlementWal) : CoderSettlementWal :=
  { dispatchedWal settlement with
    state := .prepared
    accepted := some (wal.accepted == some true)
    testEngineerExempt := some (wal.testEngineerExempt == some true)
    settlementFailed := some (wal.settlementFailed == some true) }

variable {wal : CoderSettlementWal}

theorem settledWal_decision : settledWal settlement (dispatchedWal settlement) wal.decision
      = some (decidedWal settlement wal) := by
  have hunattributed : hasUnattributedEmptyScopeMutation settlement.declaredFiles none = false := by
    simp [hasUnattributedEmptyScopeMutation]
  simp [settledWal, dispatchedWal, CoderSettlementWal.decision, decidedWal, hunattributed]

theorem commitEvent_decidedWal (hrecord : RecordOf settlement wal) (hdecided : wal.accepted.isSome)
    (hstate : wal.state = .prepared ∨ wal.state = .committed) :
    commitEvent (decidedWal settlement wal) = commitEvent wal := by
  obtain ⟨accepted, haccepted⟩ := Option.isSome_iff_exists.mp hdecided
  cases accepted with
  | true =>
    have hagain : (decidedWal settlement wal).accepted = some true := by
      simp [decidedWal, haccepted]
    rw [commitEvent_of_accepted haccepted, commitEvent_of_accepted hagain]
    simp [settlementTransitionEvent, haccepted, decidedWal, dispatchedWal,
      hrecord.transitionId, hrecord.expectedGeneration]
  | false =>
    have hagain : (decidedWal settlement wal).accepted = some false := by
      simp [decidedWal, haccepted]
    have hcontext : commitContext (decidedWal settlement wal) = commitContext wal := by
      unfold commitContext
      rw [hrecord.declaredFiles, hrecord.transitionId]
      rfl
    rw [commitEvent_of_not_accepted haccepted hstate,
      commitEvent_of_not_accepted hagain (Or.inl rfl), hcontext, hrecord.transitionId,
      hrecord.expectedGeneration]
    rfl

theorem uninterrupted_evidence {laterIso : JsString} {settled : TaskEvidence}
    (hnew : NewSettlement settlement start) (hbegins : Begins settlement start nowIso dispatched)
    (hrecord : RecordOf settlement wal) (hstate : wal.state = .prepared ∨ wal.state = .committed)
    (hcommits : Commits wal dispatched laterIso settled) :
    (uninterrupted settlement start wal.decision nowIso laterIso).evidence = some settled := by
  have hbegin : settlementStep settlement start (.beginEvidence nowIso)
      = ⟨some dispatched, start.wal, .beginning, []⟩ := by
    simp [settlementStep, hnew.idle, hnew.noOthers, hbegins.publishes, hbegins.accepted]
  have hrecorded : settlementStep settlement ⟨some dispatched, start.wal, .beginning, []⟩ .beginWal
      = ⟨some dispatched, some (dispatchedWal settlement), .idle, []⟩ := rfl
  have hprepared : settlementStep settlement
        ⟨some dispatched, some (dispatchedWal settlement), .idle, []⟩ (.settle wal.decision)
      = ⟨some dispatched, some (decidedWal settlement wal), .committing, []⟩ := by
    simp [settlementStep, settledWal_decision]
  have hown : RecordOf settlement (decidedWal settlement wal) := ⟨rfl, rfl, rfl, rfl⟩
  have hadmits : commitAdmits (decidedWal settlement wal)
      (getTaskWorkflowSnapshot (some dispatched)) = true := by
    simp [commitAdmits, decidedWal]
  have hcommit : settlementStep settlement
        ⟨some dispatched, some (decidedWal settlement wal), .committing, []⟩ (.commit laterIso)
      = ⟨some settled, some (decidedWal settlement wal), .evidenceWritten, []⟩ := by
    dsimp only [settlementStep]
    rw [if_pos rfl, commitPrepared_of_admitted rfl rfl
      ((hbegins.dispatched hnew).not_settled hown) hadmits,
      commitEvent_decidedWal hrecord hcommits.decided hstate, hcommits.accepted]
  have hfinal : settlementStep settlement
        ⟨some settled, some (decidedWal settlement wal), .evidenceWritten, []⟩ .writeCommitted
      = ⟨some settled, some (decidedWal settlement wal).commit, .idle, []⟩ := rfl
  unfold uninterrupted
  rw [List.foldl_cons, hbegin, List.foldl_cons, hrecorded, List.foldl_cons, hprepared,
    List.foldl_cons, hcommit, List.foldl_cons, hfinal, List.foldl_nil]

/-! ## Exactly once -/

/-- Once the record is committed, the evidence counts what one uninterrupted
    settlement and the other events count; before, it counts what it did at the
    start, or the settlement the record has prepared. -/
structure SettledOnce (settlement : CoderSettlement) (start world : SettlementWorld) : Prop where
  committed : ∀ wal, world.wal = some wal → wal.transitionId = settlement.transitionId →
    wal.state = .committed → ∃ nowIso laterIso,
      progressOf world.evidence = progressOf (world.others.foldl (applyOther wal)
        (uninterrupted settlement start wal.decision nowIso laterIso).evidence)
  pending : (∀ wal, world.wal = some wal → wal.transitionId = settlement.transitionId →
      wal.state ≠ .committed) →
    progressOf world.evidence = progressOf start.evidence
      ∨ ∃ wal nowIso laterIso, world.wal = some wal ∧ wal.state = .prepared
        ∧ progressOf world.evidence
          = progressOf (uninterrupted settlement start wal.decision nowIso laterIso).evidence

theorem SettlementPhase.settledOnce {world : SettlementWorld}
    (hnew : NewSettlement settlement start) (h : SettlementPhase settlement start world) :
    SettledOnce settlement start world := by
  cases h with
  | untouched =>
    refine ⟨?_, fun _ => Or.inl rfl⟩
    intro wal hwal hid
    exact absurd hid (hnew.wal wal hwal).1
  | begun hbegins =>
    refine ⟨?_, fun _ => Or.inl hbegins.progress⟩
    intro wal hwal hid
    exact absurd hid (hnew.wal wal hwal).1
  | recorded hbegins hrecord hstate =>
    refine ⟨?_, fun _ => Or.inl hbegins.progress⟩
    intro wal hwal _ hcommitted
    cases hwal
    rcases hstate with hstate | hstate <;> simp [hstate] at hcommitted
  | prepared hbegins hrecord hstate =>
    refine ⟨?_, fun _ => Or.inl hbegins.progress⟩
    intro wal hwal _ hcommitted
    cases hwal
    rw [hstate] at hcommitted
    cases hcommitted
  | @written nowIso laterIso _ _ wal _ hbegins hrecord hstate hcommits =>
    have heffect := uninterrupted_evidence hnew hbegins hrecord (Or.inl hstate) hcommits
    refine ⟨?_, fun _ => Or.inr ⟨wal, nowIso, laterIso, rfl, hstate, ?_⟩⟩
    · intro wal hwal _ hcommitted
      cases hwal
      rw [hstate] at hcommitted
      cases hcommitted
    · rw [heffect]
  | @committed nowIso laterIso _ _ wal _ others hbegins hrecord hstate hcommits =>
    have heffect := uninterrupted_evidence hnew hbegins hrecord (Or.inr hstate) hcommits
    refine ⟨?_, fun hpending => absurd hstate (hpending wal rfl hrecord.transitionId)⟩
    intro wal hwal _ _
    cases hwal
    refine ⟨nowIso, laterIso, ?_⟩
    rw [heffect]

/-- A settlement takes effect exactly once over every run in which a second
    commit finds the first recognised. -/
theorem settledOnce_of_run {world : SettlementWorld} {actions : List SettlementAction}
    (hnew : NewSettlement settlement start)
    (hrun : Run (Guarded (SettlementSteps settlement) SettlementRecognised) start actions world) :
    SettledOnce settlement start world :=
  (settlementPhase_of_run hnew hrun).settledOnce hnew

/-! ## Runs on fixed inputs -/

/-- A dispatch of generation 0 that may write one file. -/
def declaredDispatch : CoderSettlement where
  transitionId := js "call-1"
  transitionId_ne := by decide
  expectedGeneration := 0
  declaredFiles := some [js "a.ts"]
  isolated := false

/-- A read-only dispatch after a first accepted mutation. -/
def readOnlyDispatch : CoderSettlement where
  transitionId := js "call-2"
  transitionId_ne := by decide
  expectedGeneration := 1
  declaredFiles := some []
  isolated := false

def firstWorld : SettlementWorld := ⟨none, none, .idle, []⟩

/-- The evidence after `call-1` was accepted. -/
def acceptedEvidence : TaskEvidence where
  taskId := js "1.1"
  requiredGates := [js "reviewer", js "test_engineer"]
  gates := fun _ => none
  workflow := some
    { createDefaultWorkflowMetadata [] with
      generation := 1
      state := .coderDelegated
      lastOutcome := .acceptedMutation
      lastTransitionId := some (js "call-1") }

def secondWorld : SettlementWorld := ⟨some acceptedEvidence, none, .idle, []⟩

def noMutation : SettleOptions := { accepted := false, testEngineerExempt := false }

/-- A crash behind the evidence write of a no-mutation settlement, and a
    replay. -/
def crashedSettlement : List SettlementAction :=
  [.beginEvidence [], .beginWal, .settle noMutation, .commit [], .crash, .settle noMutation,
    .commit [], .writeCommitted]

/-- A no-mutation settlement, a gate recorded after it, and a replay. -/
def replayedSettlement : List SettlementAction :=
  [.beginEvidence [], .beginWal, .settle noMutation, .commit [], .writeCommitted,
    .other ⟨{ body := .gateRecorded (js "docs") (js "s1") none }, []⟩, .settle noMutation,
    .commit [], .writeCommitted]

theorem newSettlement_first : NewSettlement declaredDispatch firstWorld where
  idle := rfl
  noOthers := rfl
  wal := fun _ hwal => by cases hwal
  proof := by decide

theorem newSettlement_second : NewSettlement readOnlyDispatch secondWorld where
  idle := rfl
  noOthers := rfl
  wal := fun _ hwal => by cases hwal
  proof := by decide

theorem settledOnce_crashedSettlement :
    SettledOnce declaredDispatch firstWorld
      (crashedSettlement.foldl (settlementStep declaredDispatch) firstWorld) := by
  refine settledOnce_of_run newSettlement_first (Run.of_foldl ?_)
  refine ⟨trivial, trivial, trivial, ?_, trivial, trivial, ?_, trivial, trivial⟩
  · intro wal hwal _ _
    cases hwal
    exact ⟨fun _ houtcome => absurd houtcome (by decide), fun hstate => by cases hstate⟩
  · intro wal hwal _ _
    cases hwal
    exact ⟨fun _ _ _ => Or.inr rfl, fun hstate => by cases hstate⟩

/-- Beyond generation 0 an empty scope leaves no proof, and a crash behind the
    evidence write counts twice; a replay after another event counts again. -/
theorem settlement_counted_twice :
    (∃ world, Run (SettlementSteps readOnlyDispatch) secondWorld crashedSettlement world
      ∧ NewSettlement readOnlyDispatch secondWorld
      ∧ ¬ SettledOnce readOnlyDispatch secondWorld world)
    ∧ ∃ world, Run (SettlementSteps declaredDispatch) firstWorld replayedSettlement world
      ∧ NewSettlement declaredDispatch firstWorld
      ∧ ¬ SettledOnce declaredDispatch firstWorld world := by
  constructor
  · refine ⟨_, Run.foldl _ _ _, newSettlement_second, ?_⟩
    intro hsettled
    obtain ⟨nowIso, laterIso, heq⟩ := hsettled.committed _ rfl rfl rfl
    have htwice : (progressOf (crashedSettlement.foldl (settlementStep readOnlyDispatch)
        secondWorld).evidence).retryCount = 2 := rfl
    rw [heq] at htwice
    cases htwice
  · refine ⟨_, Run.foldl _ _ _, newSettlement_first, ?_⟩
    intro hsettled
    obtain ⟨nowIso, laterIso, heq⟩ := hsettled.committed _ rfl rfl rfl
    have htwice : (progressOf (replayedSettlement.foldl (settlementStep declaredDispatch)
        firstWorld).evidence).retryCount = 2 := rfl
    rw [heq] at htwice
    cases htwice

end OpencodeSwarm
