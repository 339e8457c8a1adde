/-
  OpencodeSwarm.Workflow.SettlementRun

  A coder settlement over its runs: crashes, recoveries and replays around the
  durable writes.  What makes a second commit harmless is the recognition of the
  first in the evidence; where the evidence has lost that trace, a replay of a
  no-mutation settlement counts another failed attempt.
-/
import OpencodeSwarm.Workflow.CoderSettlement

namespace OpencodeSwarm

open Js Transition

/-! ## The committed event -/

/-- The event `commitPrepared` transitions with. -/
def commitEvent (wal : CoderSettlementWal) : WorkflowEvent :=
  bindTrustedNoMutationSettlement (some wal) (settlementTransitionEvent wal)

/-- The record after the last write. -/
def CoderSettlementWal.commit (wal : CoderSettlementWal) : CoderSettlementWal :=
  { wal with state := .committed }

variable {wal : CoderSettlementWal}

theorem commitEvent_of_accepted (h : wal.accepted = some true) :
    commitEvent wal = settlementTransitionEvent wal := by
  unfold commitEvent bindTrustedNoMutationSettlement settlementTransitionEvent
  rw [if_pos h]

/-- The context a no-mutation settlement commits with. -/
def commitContext (wal : CoderSettlementWal) : GateDerivationContext where
  declaredFiles := wal.declaredFiles
  settlementTransitionId :=
    if wal.declaredFiles = some [] then some wal.transitionId else none

theorem commitEvent_of_not_accepted (h : wal.accepted = some false)
    (hstate : wal.state = .prepared ∨ wal.state = .committed) : commitEvent wal =
      { body := .dispatchNoMutation
          { agentType := some (js "coder"), context := some (commitContext wal) }
        expectedGeneration := some wal.expectedGeneration
        transitionId := some wal.transitionId } := by
  have hrejected : ¬ wal.accepted = some true := by simp [h]
  have hbound : (wal.state == .prepared || wal.state == .committed) = true := by
    rcases hstate with hstate | hstate <;> simp [hstate]
  unfold commitEvent bindTrustedNoMutationSettlement settlementTransitionEvent
  rw [if_neg hrejected]
  by_cases hempty : wal.declaredFiles = some []
  · simp [Option.filter_some, trustsNoMutation, commitContext, hbound, h, hempty]
  · simp [Option.filter_some, trustsNoMutation, commitContext, hempty]

theorem commitEvent_ids : (commitEvent wal).expectedGeneration = some wal.expectedGeneration
      ∧ (commitEvent wal).transitionId = some wal.transitionId := by
  unfold commitEvent bindTrustedNoMutationSettlement settlementTransitionEvent
  by_cases haccepted : wal.accepted = some true
  · rw [if_pos haccepted]
    exact ⟨rfl, rfl⟩
  · rw [if_neg haccepted]
    exact ⟨rfl, rfl⟩

theorem commitEvent_commit (hprepared : wal.state = .prepared) (hdecided : wal.accepted.isSome) :
    commitEvent wal.commit = commitEvent wal := by
  obtain ⟨accepted, haccepted⟩ := Option.isSome_iff_exists.mp hdecided
  cases accepted with
  | true =>
    have hcommit : wal.commit.accepted = some true := haccepted
    rw [commitEvent_of_accepted haccepted, commitEvent_of_accepted hcommit]
    rfl
  | false =>
    have hcommit : wal.commit.accepted = some false := haccepted
    rw [commitEvent_of_not_accepted haccepted (Or.inl hprepared),
      commitEvent_of_not_accepted hcommit (Or.inr rfl)]
    rfl

/-- The outcome a settlement leaves. -/
def settlementOutcome (wal : CoderSettlementWal) : WorkflowOutcome :=
  if wal.accepted = some true then
    if wal.settlementFailed = some true then .acceptedMutationFailed else .acceptedMutation
  else .dispatchNoMutation

theorem commitEvent_outcome : getEventOutcome (commitEvent wal) = settlementOutcome wal := by
  unfold commitEvent bindTrustedNoMutationSettlement settlementTransitionEvent settlementOutcome
  by_cases haccepted : wal.accepted = some true
  · rw [if_pos haccepted, if_pos haccepted]
    simp [getEventOutcome]
  · rw [if_neg haccepted, if_neg haccepted]
    rfl

theorem settlementOutcome_ne : settlementOutcome wal ≠ .dispatchAttempted := by
  unfold settlementOutcome
  split
  · split <;> decide
  · decide

/-! ## The dispatch -/

/-- The dispatch transition of `beginCoderSettlement` went through. -/
structure Begins (settlement : CoderSettlement) (world : SettlementWorld) (nowIso : JsString)
    (dispatched : TaskEvidence) : Prop where
  publishes : beginPublishes settlement world.evidence world.wal = true
  accepted : evidenceTransition world.wal nowIso world.evidence (dispatchEvent settlement)
    = .ok dispatched

/-- The transition id is new: no record and no proof carries it, and no other
    settlement is under way. -/
structure NewSettlement (settlement : CoderSettlement) (world : SettlementWorld) : Prop where
  idle : world.point = .idle
  noOthers : world.others = []
  wal : ∀ wal, world.wal = some wal →
    wal.transitionId ≠ settlement.transitionId ∧ wal.state.isTerminal = true
  proof : (getTaskWorkflowSnapshot world.evidence).noMutationSettlement.map (·.transitionId)
    ≠ some settlement.transitionId

/-- The evidence between the dispatch and the commit. -/
structure Dispatched (settlement : CoderSettlement) (evidence : TaskEvidence) : Prop where
  authoritative : (getTaskWorkflowSnapshot (some evidence)).authoritative = true
  generation : (getTaskWorkflowSnapshot (some evidence)).generation
    = settlement.expectedGeneration
  lastOutcome : (getTaskWorkflowSnapshot (some evidence)).lastOutcome = .dispatchAttempted
  lastTransitionId : (getTaskWorkflowSnapshot (some evidence)).lastTransitionId
    = some settlement.transitionId
  proof : (getTaskWorkflowSnapshot (some evidence)).noMutationSettlement.map (·.transitionId)
    ≠ some settlement.transitionId

theorem isDuplicate_dispatchEvent_iff {settlement : CoderSettlement}
    {snapshot : TaskWorkflowSnapshot} :
    isDuplicateTransition snapshot (dispatchEvent settlement) = true
      ↔ snapshot.authoritative = true ∧ snapshot.lastOutcome = .dispatchAttempted
        ∧ snapshot.lastTransitionId = some settlement.transitionId := by
  have hbinds : bindsEmptySettlement (dispatchEvent settlement) = false := rfl
  have hid : (dispatchEvent settlement).transitionId = some settlement.transitionId := rfl
  have houtcome : getEventOutcome (dispatchEvent settlement) = .dispatchAttempted := rfl
  have hne : settlement.transitionId.isEmpty = false := by
    simpa using settlement.transitionId_ne
  simp only [isDuplicateTransition, hbinds, hid, houtcome, Bool.false_and, Bool.false_eq_true,
    if_false, Option.any_some, hne, Bool.not_false, Bool.and_true, Bool.and_eq_true,
    beq_iff_eq]
  constructor
  · rintro ⟨⟨hauthoritative, hlast⟩, hoc⟩
    exact ⟨hauthoritative, hoc, hlast⟩
  · rintro ⟨hauthoritative, hoc, hlast⟩
    exact ⟨⟨hauthoritative, hlast⟩, hoc⟩

variable {nowIso : JsString}

theorem reduce_dispatchAttempted {current : TaskWorkflowSnapshot} {settlement : CoderSettlement}
    {requiredGates : List JsString} {gates : Gates} {next : TaskWorkflowMetadata}
    (h : reduceTaskWorkflowSnapshot current (dispatchEvent settlement) requiredGates gates nowIso
      = .ok next) : next.noMutationSettlement = none ∧ next.retryCount = current.retryCount
      ∧ next.retryHistory = current.retryHistory := by
  unfold reduceTaskWorkflowSnapshot at h
  split at h
  · cases h
  cases h
  exact ⟨rfl, rfl, rfl⟩

variable {world : SettlementWorld} {evidence : TaskEvidence}

theorem Begins.dispatched {settlement : CoderSettlement} (hnew : NewSettlement settlement world)
    (h : Begins settlement world nowIso evidence) : Dispatched settlement evidence := by
  have hpublishes := h.publishes
  simp only [beginPublishes, Bool.and_eq_true, beq_iff_eq] at hpublishes
  have haccepted : updateEvidenceForTransition nowIso world.evidence (dispatchEvent settlement)
      = .ok evidence := h.accepted
  rcases updateEvidence_cases haccepted with ⟨hsame, hduplicate⟩ | ⟨workflow, htakes⟩
  · obtain ⟨hauthoritative, houtcome, hlast⟩ := isDuplicate_dispatchEvent_iff.mp hduplicate
    have hproof := hnew.proof
    rw [hsame] at hauthoritative houtcome hlast hproof hpublishes
    exact ⟨hauthoritative, hpublishes.1, houtcome, hlast, hproof⟩
  · have hstep := htakes.step
    have hcleared := (reduce_dispatchAttempted htakes.reduced).1
    have hgeneration := hstep.generation
    rw [hpublishes.1] at hgeneration
    refine ⟨?_, ?_, ?_, ?_, ?_⟩
    · rw [htakes.snapshot]
    · rw [htakes.snapshot]
      exact hgeneration
    · rw [htakes.snapshot]
      exact hstep.lastOutcome
    · rw [htakes.snapshot]
      exact hstep.lastTransitionId
    · rw [htakes.snapshot]
      rw [hcleared]
      simp

theorem Dispatched.again {settlement : CoderSettlement} (h : Dispatched settlement evidence)
    (wal : Option CoderSettlementWal) (nowIso : JsString) :
    evidenceTransition wal nowIso (some evidence) (dispatchEvent settlement) = .ok evidence := by
  have hduplicate : isDuplicateTransition (getTaskWorkflowSnapshot (some evidence))
      (dispatchEvent settlement) = true :=
    isDuplicate_dispatchEvent_iff.mpr ⟨h.authoritative, h.lastOutcome, h.lastTransitionId⟩
  refine updateEvidence_of_duplicate ?_ hduplicate
  intro expected hexpected
  rw [h.generation]
  cases hexpected
  rfl

/-! ## Recognising the first commit -/

/-- The record belongs to the settlement. -/
structure RecordOf (settlement : CoderSettlement) (wal : CoderSettlementWal) : Prop where
  transitionId : wal.transitionId = settlement.transitionId
  expectedGeneration : wal.expectedGeneration = settlement.expectedGeneration
  declaredFiles : wal.declaredFiles = settlement.declaredFiles
  isolated : wal.isolated = settlement.isolated

theorem Dispatched.not_settled {settlement : CoderSettlement} (h : Dispatched settlement evidence)
    (hrecord : RecordOf settlement wal) :
    evidenceAlreadySettled wal (getTaskWorkflowSnapshot (some evidence)) = false := by
  unfold evidenceAlreadySettled
  by_cases haccepted : wal.accepted = some true
  · rw [if_pos haccepted, hrecord.expectedGeneration, h.generation]
    simp
  · rw [if_neg haccepted]
    by_cases hempty : wal.declaredFiles = some []
    · have hproof := h.proof
      rw [← hrecord.transitionId] at hproof
      simp [hempty, hproof]
    · simp [hempty, h.lastOutcome]

/-- The evidence one commit leads to. -/
structure Commits (wal : CoderSettlementWal) (dispatched : TaskEvidence) (nowIso : JsString)
    (next : TaskEvidence) : Prop where
  decided : wal.accepted.isSome
  accepted : updateEvidenceForTransition nowIso (some dispatched) (commitEvent wal) = .ok next

theorem Commits.takes {settlement : CoderSettlement} {dispatched next : TaskEvidence}
    (hdispatched : Dispatched settlement dispatched) (h : Commits wal dispatched nowIso next) :
    ∃ workflow, Takes nowIso (some dispatched) (commitEvent wal) next workflow := by
  rcases updateEvidence_cases h.accepted with ⟨-, hduplicate⟩ | htakes
  · have houtcome := lastOutcome_of_duplicate hduplicate
    rw [hdispatched.lastOutcome, commitEvent_outcome] at houtcome
    exact absurd houtcome.symm settlementOutcome_ne
  · exact htakes

/-- The settled evidence is recognised, but for an empty scope beyond
    generation 0, which leaves no proof. -/
theorem Commits.settled {settlement : CoderSettlement} {dispatched next : TaskEvidence}
    (hdispatched : Dispatched settlement dispatched) (hrecord : RecordOf settlement wal)
    (hstate : wal.state = .prepared ∨ wal.state = .committed)
    (h : Commits wal dispatched nowIso next)
    (hleaves : wal.accepted = some true ∨ wal.declaredFiles ≠ some []
      ∨ wal.expectedGeneration = 0) :
    evidenceAlreadySettled wal (getTaskWorkflowSnapshot (some next)) = true := by
  obtain ⟨workflow, htakes⟩ := h.takes hdispatched
  have hstep := htakes.step
  have hgeneration := hstep.generation
  have houtcome := hstep.lastOutcome
  have hlast := hstep.lastTransitionId
  rw [hdispatched.generation, ← hrecord.expectedGeneration] at hgeneration
  rw [commitEvent_outcome] at houtcome
  rw [commitEvent_ids.2] at hlast
  rw [htakes.snapshot]
  unfold evidenceAlreadySettled
  obtain ⟨accepted, haccepted⟩ := Option.isSome_iff_exists.mp h.decided
  cases accepted with
  | true =>
    rw [commitEvent_of_accepted haccepted] at hgeneration
    have hreduced := htakes.reduced
    rw [commitEvent_of_accepted haccepted] at hreduced
    have hbody : (settlementTransitionEvent wal).body = .acceptedMutation
        { agentType := some (js "coder")
          context := some
            { testEngineerExempt := wal.testEngineerExempt == some true
              settlementFailed := wal.settlementFailed == some true } } := by
      rw [settlementTransitionEvent, if_pos haccepted]
    have hnext := state_of_reduce_acceptedMutation hbody hreduced
    rw [hbody] at hgeneration
    rw [settlementOutcome, if_pos haccepted] at houtcome
    rw [if_pos haccepted]
    simp [hnext, hgeneration, houtcome, hlast, WorkflowEventBody.opensGeneration]
  | false =>
    have hrejected : ¬ wal.accepted = some true := by simp [haccepted]
    have hevent := commitEvent_of_not_accepted haccepted hstate
    rw [hevent] at hgeneration
    rw [settlementOutcome, if_neg hrejected] at houtcome
    rw [if_neg hrejected]
    by_cases hempty : wal.declaredFiles = some []
    · -- only generation 0 leaves the proof
      have hzero : wal.expectedGeneration = 0 := by
        rcases hleaves with hleaves | hleaves | hleaves
        · exact absurd hleaves hrejected
        · exact absurd hempty hleaves
        · exact hleaves
      have hreduced := htakes.reduced
      rw [hevent] at hreduced
      have hproof := proof_of_reduce_dispatchNoMutation rfl hreduced
      have hne : wal.transitionId ≠ [] := by
        rw [hrecord.transitionId]
        exact settlement.transitionId_ne
      have hcurrent : (getTaskWorkflowSnapshot (some dispatched)).generation = 0 := by
        rw [hdispatched.generation, ← hrecord.expectedGeneration]
        exact hzero
      have hmarker : workflow.noMutationSettlement = some ⟨wal.transitionId⟩ := by
        rw [hproof]
        simp [noMutationMarker, truthyString, Option.filter_some, hne, hcurrent,
          bindsEmptySettlement, commitContext, hempty]
      simp [hempty, hmarker, hgeneration, WorkflowEventBody.opensGeneration]
    · simp [hempty, hgeneration, houtcome, hlast, WorkflowEventBody.opensGeneration]

/-! ## What a step can do -/

/-- The record a call decides and prepares. -/
structure Prepares (wal prepared : CoderSettlementWal) : Prop where
  dispatched : wal.state = .dispatched
  state : prepared.state = .prepared
  decided : prepared.accepted.isSome
  transitionId : prepared.transitionId = wal.transitionId
  expectedGeneration : prepared.expectedGeneration = wal.expectedGeneration
  declaredFiles : prepared.declaredFiles = wal.declaredFiles
  isolated : prepared.isolated = wal.isolated

theorem Prepares.recordOf {settlement : CoderSettlement} {prepared : CoderSettlementWal}
    (h : Prepares wal prepared) (hrecord : RecordOf settlement wal) :
    RecordOf settlement prepared where
  transitionId := h.transitionId.trans hrecord.transitionId
  expectedGeneration := h.expectedGeneration.trans hrecord.expectedGeneration
  declaredFiles := h.declaredFiles.trans hrecord.declaredFiles
  isolated := h.isolated.trans hrecord.isolated

theorem settledWal_cases {settlement : CoderSettlement} {settled : CoderSettlementWal}
    {options : SettleOptions} (h : settledWal settlement wal options = some settled) :
    wal.transitionId = settlement.transitionId
      ∧ (Prepares wal settled ∨ (wal.state ≠ .dispatched ∧ wal.state ≠ .aborted
        ∧ settled = wal)) := by
  unfold settledWal at h
  split at h
  · cases h
  rename_i hid
  refine ⟨not_not.mp hid, ?_⟩
  cases hstate : wal.state with
  | aborted =>
    rw [hstate] at h
    cases h
  | dispatched =>
    rw [hstate] at h
    cases h
    exact Or.inl ⟨hstate, rfl, rfl, rfl, rfl, rfl, rfl⟩
  | prepared | committed =>
    rw [hstate] at h
    dsimp only at h
    split at h
    · cases h
      exact Or.inr ⟨by simp, by simp, rfl⟩
    · cases h

theorem recover_cases (wal : CoderSettlementWal) (observation : RecoveryObservation) :
    recoverCoderSettlement wal observation = .unchanged
      ∨ (recoverCoderSettlement wal observation = .abort ∧ wal.state = .dispatched)
      ∨ ∃ next, recoverCoderSettlement wal observation = .commit next
        ∧ (Prepares wal next ∨ (wal.state = .prepared ∧ next = wal)) := by
  unfold recoverCoderSettlement
  cases hstate : wal.state with
  | aborted | committed => exact Or.inl rfl
  | prepared => exact Or.inr (Or.inr ⟨wal, rfl, Or.inr ⟨rfl, rfl⟩⟩)
  | dispatched =>
    dsimp only
    split
    · exact Or.inr (Or.inl ⟨rfl, rfl⟩)
    split
    · exact Or.inr (Or.inl ⟨rfl, rfl⟩)
    cases attributedFiles wal observation with
    | none => exact Or.inl rfl
    | some observed =>
      dsimp only
      split
      · exact Or.inl rfl
      · exact Or.inr (Or.inr ⟨_, rfl, Or.inl ⟨hstate, rfl, rfl, rfl, rfl, rfl, rfl⟩⟩)

/-- The steps while the record on disk belongs to another settlement, and that
    one has ended. -/
inductive ForeignStep (settlement : CoderSettlement) (world : SettlementWorld) :
    SettlementWorld → Prop where
  | same : ForeignStep settlement world world
  | ended : ForeignStep settlement world { world with point := .idle }
  | begun {nowIso : JsString} {next : TaskEvidence}
      (hpublishes : beginPublishes settlement world.evidence world.wal = true)
      (hnext : evidenceTransition world.wal nowIso world.evidence (dispatchEvent settlement)
        = .ok next) :
      ForeignStep settlement world { world with evidence := some next, point := .beginning }
  | recorded (hpoint : world.point = .beginning) :
      ForeignStep settlement world
        { world with wal := some (dispatchedWal settlement), point := .idle }

/-- No record of this settlement, and none in flight. -/
def ForeignRecord (settlement : CoderSettlement) (wal : Option CoderSettlementWal) : Prop :=
  ∀ existing, wal = some existing →
    existing.transitionId ≠ settlement.transitionId ∧ existing.state.isTerminal = true

theorem foreignStep {settlement : CoderSettlement} {world : SettlementWorld}
    (hforeign : ForeignRecord settlement world.wal)
    (hpoint : world.point = .idle ∨ world.point = .beginning) (action : SettlementAction) :
    ForeignStep settlement world (settlementStep settlement world action) := by
  cases action with
  | beginEvidence nowIso =>
    dsimp only [settlementStep]
    split
    · rename_i hbegin
      cases hnext : evidenceTransition world.wal nowIso world.evidence (dispatchEvent settlement)
        with
      | error e => exact .same
      | ok next => exact .begun hbegin.2 hnext
    · exact .same
  | beginWal =>
    dsimp only [settlementStep]
    split
    · rename_i hbeginning
      exact .recorded hbeginning
    · exact .same
  | settle options =>
    dsimp only [settlementStep]
    split
    · cases hsettled : world.wal.bind fun wal => settledWal settlement wal options with
      | none => exact .same
      | some settled =>
        obtain ⟨wal, hwal, hsettled⟩ := Option.bind_eq_some_iff.mp hsettled
        exact absurd (settledWal_cases hsettled).1 (hforeign wal hwal).1
    · exact .same
  | recover observation =>
    dsimp only [settlementStep]
    split
    · cases hwal : world.wal with
      | none => exact .same
      | some wal =>
        have hterminal := (hforeign wal hwal).2
        have hunchanged : recoverCoderSettlement wal observation = .unchanged := by
          unfold recoverCoderSettlement
          cases hstate : wal.state with
          | aborted | committed => rfl
          | prepared | dispatched =>
            rw [hstate] at hterminal
            cases hterminal
        dsimp only
        rw [hunchanged]
        exact .same
    · exact .same
  | commit nowIso =>
    dsimp only [settlementStep]
    split
    · rename_i hcommitting
      rw [hcommitting] at hpoint
      rcases hpoint with hpoint | hpoint <;> cases hpoint
    · exact .same
  | writeCommitted =>
    dsimp only [settlementStep]
    split
    · rename_i hwritten
      rw [hwritten] at hpoint
      rcases hpoint with hpoint | hpoint <;> cases hpoint
    · exact .same
  | crash => exact .ended
  | other input =>
    dsimp only [settlementStep]
    cases hwal : world.wal with
    | none => exact .same
    | some wal =>
      dsimp only
      split
      · rename_i hother
        exact absurd hother.2.1 (hforeign wal hwal).1
      · exact .same

/-- The steps while the record on disk is the settlement's own. -/
inductive OwnStep (settlement : CoderSettlement) (world : SettlementWorld)
    (wal : CoderSettlementWal) (action : SettlementAction) : SettlementWorld → Prop where
  | same : OwnStep settlement world wal action world
  | ended : OwnStep settlement world wal action { world with point := .idle }
  | resumed (hstate : wal.state ≠ .dispatched ∧ wal.state ≠ .aborted) :
      OwnStep settlement world wal action { world with point := .committing }
  | prepared {next : CoderSettlementWal} (hprepares : Prepares wal next) :
      OwnStep settlement world wal action
        { world with wal := some next, point := .committing }
  | aborted (hstate : wal.state = .dispatched) :
      OwnStep settlement world wal action
        { world with wal := some { wal with state := .aborted } }
  | committing {nowIso : JsString} (haction : action = .commit nowIso)
      (hpoint : world.point = .committing) :
      OwnStep settlement world wal action (commitPrepared settlement world nowIso)
  | committed (hpoint : world.point = .evidenceWritten) :
      OwnStep settlement world wal action
        { world with wal := some wal.commit, point := .idle }
  | other {input : TimedEvent} (hstate : wal.state = .committed) :
      OwnStep settlement world wal action
        { world with
          evidence := applyOther wal world.evidence input
          others := world.others ++ [input] }

theorem ownStep {settlement : CoderSettlement} (hwal : world.wal = some wal)
    (hrecord : RecordOf settlement wal) (hpoint : world.point ≠ .beginning)
    (action : SettlementAction) :
    OwnStep settlement world wal action (settlementStep settlement world action) := by
  have hsame : ({ world with wal := some wal, point := .committing } : SettlementWorld)
      = { world with point := .committing } := by
    rw [← hwal]
  cases action with
  | beginEvidence nowIso =>
    dsimp only [settlementStep]
    split
    · rename_i hbegin
      have hpublishes := hbegin.2
      simp [beginPublishes, hwal, hrecord.transitionId] at hpublishes
    · exact .same
  | beginWal =>
    dsimp only [settlementStep]
    rw [if_neg hpoint]
    exact .same
  | settle options =>
    dsimp only [settlementStep]
    split
    · rw [hwal, Option.bind_some]
      cases hsettled : settledWal settlement wal options with
      | none => exact .same
      | some settled =>
        rcases (settledWal_cases hsettled).2 with hprepares | ⟨hdispatched, haborted, rfl⟩
        · exact .prepared hprepares
        · dsimp only
          rw [hsame]
          exact .resumed ⟨hdispatched, haborted⟩
    · exact .same
  | recover observation =>
    dsimp only [settlementStep]
    split
    · rw [hwal]
      dsimp only
      rcases recover_cases wal observation with
        hunchanged | ⟨habort, hstate⟩ | ⟨next, hcommit, hprepares | ⟨hstate, rfl⟩⟩
      · rw [hunchanged]
        exact .same
      · rw [habort]
        exact .aborted hstate
      · rw [hcommit]
        exact .prepared hprepares
      · rw [hcommit]
        dsimp only
        rw [hsame]
        exact .resumed (by simp [hstate])
    · exact .same
  | commit nowIso =>
    dsimp only [settlementStep]
    split
    · rename_i hcommitting
      exact .committing rfl hcommitting
    · exact .same
  | writeCommitted =>
    dsimp only [settlementStep]
    split
    · rename_i hwritten
      rw [hwal]
      exact .committed hwritten
    · exact .same
  | crash => exact .ended
  | other input =>
    dsimp only [settlementStep]
    rw [hwal]
    dsimp only
    split
    · rename_i hother
      have hstep : OwnStep settlement world wal (.other input)
          { world with
            evidence := applyOther wal world.evidence input
            others := world.others ++ [input] } := .other hother.2.2
      rw [hwal] at hstep
      exact hstep
    · exact .same

/-! ## How far a settlement has come -/

/-- The worlds a settlement goes through, with what its evidence is made of. -/
inductive SettlementPhase (settlement : CoderSettlement) (start : SettlementWorld) :
    SettlementWorld → Prop where
  | untouched : SettlementPhase settlement start start
  | begun {nowIso : JsString} {dispatched : TaskEvidence} {point : SettlementPoint}
      (hbegins : Begins settlement start nowIso dispatched)
      (hpoint : point = .idle ∨ point = .beginning) :
      SettlementPhase settlement start ⟨some dispatched, start.wal, point, []⟩
  | recorded {nowIso : JsString} {dispatched : TaskEvidence} {wal : CoderSettlementWal}
      (hbegins : Begins settlement start nowIso dispatched) (hrecord : RecordOf settlement wal)
      (hstate : wal.state = .dispatched ∨ wal.state = .aborted) :
      SettlementPhase settlement start ⟨some dispatched, some wal, .idle, []⟩
  | prepared {nowIso : JsString} {dispatched : TaskEvidence} {wal : CoderSettlementWal}
      {point : SettlementPoint}
      (hbegins : Begins settlement start nowIso dispatched) (hrecord : RecordOf settlement wal)
      (hstate : wal.state = .prepared) (hdecided : wal.accepted.isSome)
      (hpoint : point = .idle ∨ point = .committing) :
      SettlementPhase settlement start ⟨some dispatched, some wal, point, []⟩
  | written {nowIso laterIso : JsString} {dispatched next : TaskEvidence}
      {wal : CoderSettlementWal} {point : SettlementPoint}
      (hbegins : Begins settlement start nowIso dispatched) (hrecord : RecordOf settlement wal)
      (hstate : wal.state = .prepared) (hcommits : Commits wal dispatched laterIso next)
      (hpoint : point ≠ .beginning) :
      SettlementPhase settlement start ⟨some next, some wal, point, []⟩
  | committed {nowIso laterIso : JsString} {dispatched next : TaskEvidence}
      {wal : CoderSettlementWal} {point : SettlementPoint} {others : List TimedEvent}
      (hbegins : Begins settlement start nowIso dispatched) (hrecord : RecordOf settlement wal)
      (hstate : wal.state = .committed) (hcommits : Commits wal dispatched laterIso next)
      (hpoint : point = .idle ∨ point = .committing) :
      SettlementPhase settlement start
        ⟨others.foldl (applyOther wal) (some next), some wal, point, others⟩

/-- What keeps a `commitPrepared` from settling a second time without an accepted
    mutation: under `PREPARED`, an evidence that already carries the settlement
    carries a trace of it; under `COMMITTED`, the evidence still shows the
    settlement, has left `idle` or has changed its generation. -/
def SettlementRecognised (world : SettlementWorld) : SettlementAction → Prop
  | .commit _ => ∀ wal, world.wal = some wal → world.point = .committing →
    wal.accepted ≠ some true →
    let snapshot := getTaskWorkflowSnapshot world.evidence
    (wal.state = .prepared → snapshot.lastOutcome = .dispatchNoMutation →
      snapshot.lastTransitionId = some wal.transitionId →
      wal.declaredFiles ≠ some [] ∨ wal.expectedGeneration = 0)
      ∧ (wal.state = .committed → evidenceAlreadySettled wal snapshot = true
        ∨ snapshot.state ≠ .idle ∨ snapshot.generation ≠ wal.expectedGeneration)
  | _ => True

theorem commitPrepared_of_settled {settlement : CoderSettlement} (hwal : world.wal = some wal)
    (hid : wal.transitionId = settlement.transitionId)
    (hsettled : evidenceAlreadySettled wal (getTaskWorkflowSnapshot world.evidence) = true) :
    commitPrepared settlement world nowIso
      = { world with wal := some wal.commit, point := .idle } := by
  have hown : world.wal.filter (·.transitionId == settlement.transitionId) = some wal := by
    rw [hwal, Option.filter_some, if_pos (by simpa using hid)]
  rw [commitPrepared, hown]
  dsimp only
  rw [if_pos hsettled]
  rfl

theorem commitPrepared_of_refused {settlement : CoderSettlement} (hwal : world.wal = some wal)
    (hid : wal.transitionId = settlement.transitionId)
    (hsettled : evidenceAlreadySettled wal (getTaskWorkflowSnapshot world.evidence) = false)
    (hrefused : commitAdmits wal (getTaskWorkflowSnapshot world.evidence) = false) :
    commitPrepared settlement world nowIso = { world with point := .idle } := by
  have hown : world.wal.filter (·.transitionId == settlement.transitionId) = some wal := by
    rw [hwal, Option.filter_some, if_pos (by simpa using hid)]
  rw [commitPrepared, hown]
  simp [hsettled, hrefused]

theorem commitPrepared_of_admitted {settlement : CoderSettlement} (hwal : world.wal = some wal)
    (hid : wal.transitionId = settlement.transitionId)
    (hsettled : evidenceAlreadySettled wal (getTaskWorkflowSnapshot world.evidence) = false)
    (hadmits : commitAdmits wal (getTaskWorkflowSnapshot world.evidence) = true) :
    commitPrepared settlement world nowIso
      = match updateEvidenceForTransition nowIso world.evidence (commitEvent wal) with
        | .ok next => { world with evidence := some next, point := .evidenceWritten }
        | .error _ => { world with point := .idle } := by
  have hown : world.wal.filter (·.transitionId == settlement.transitionId) = some wal := by
    rw [hwal, Option.filter_some, if_pos (by simpa using hid)]
  rw [commitPrepared, hown]
  simp only [hsettled, hadmits, Bool.not_true, Bool.false_eq_true, if_false]
  rfl

variable {settlement : CoderSettlement} {start : SettlementWorld}

theorem recordOf_dispatchedWal : RecordOf settlement (dispatchedWal settlement) :=
  ⟨rfl, rfl, rfl, rfl⟩

variable {next : SettlementWorld}

theorem SettlementPhase.step_untouched (hnew : NewSettlement settlement start)
    (hstep : ForeignStep settlement start next) : SettlementPhase settlement start next := by
  have hidle : ({ start with point := .idle } : SettlementWorld) = start := by
    rw [← hnew.idle]
  cases hstep with
  | same => exact .untouched
  | ended =>
    rw [hidle]
    exact .untouched
  | begun hpublishes hnext =>
    have hphase := SettlementPhase.begun ⟨hpublishes, hnext⟩ (Or.inr rfl)
    rw [← hnew.noOthers] at hphase
    exact hphase
  | recorded hpoint =>
    rw [hnew.idle] at hpoint
    cases hpoint

variable {point : SettlementPoint}

theorem SettlementPhase.step_begun {dispatched : TaskEvidence}
    (hnew : NewSettlement settlement start) (hbegins : Begins settlement start nowIso dispatched)
    (hpoint : point = .idle ∨ point = .beginning)
    (hstep : ForeignStep settlement ⟨some dispatched, start.wal, point, []⟩ next) :
    SettlementPhase settlement start next := by
  cases hstep with
  | same => exact .begun hbegins hpoint
  | ended => exact .begun hbegins (Or.inl rfl)
  | begun hpublishes hnext =>
    -- the dispatch is recorded already, and its evidence stays
    rw [(hbegins.dispatched hnew).again] at hnext
    cases hnext
    exact .begun hbegins (Or.inr rfl)
  | recorded hbeginning => exact .recorded hbegins recordOf_dispatchedWal (Or.inl rfl)

variable {action : SettlementAction}

theorem SettlementPhase.step_recorded {dispatched : TaskEvidence}
    (hbegins : Begins settlement start nowIso dispatched) (hrecord : RecordOf settlement wal)
    (hstate : wal.state = .dispatched ∨ wal.state = .aborted)
    (hstep : OwnStep settlement ⟨some dispatched, some wal, .idle, []⟩ wal action next) :
    SettlementPhase settlement start next := by
  cases hstep with
  | same | ended => exact .recorded hbegins hrecord hstate
  | resumed hresumed =>
    rcases hstate with hstate | hstate
    · exact absurd hstate hresumed.1
    · exact absurd hstate hresumed.2
  | prepared hprepares =>
    exact .prepared hbegins (hprepares.recordOf hrecord) hprepares.state hprepares.decided
      (Or.inr rfl)
  | aborted =>
    have haborted : RecordOf settlement { wal with state := .aborted } :=
      ⟨hrecord.transitionId, hrecord.expectedGeneration, hrecord.declaredFiles, hrecord.isolated⟩
    exact .recorded hbegins haborted (Or.inr rfl)
  | committing _ hpoint | committed hpoint => cases hpoint
  | other hcommitted => rcases hstate with hstate | hstate <;> simp [hstate] at hcommitted

theorem SettlementPhase.step_prepared {dispatched : TaskEvidence}
    (hnew : NewSettlement settlement start) (hbegins : Begins settlement start nowIso dispatched)
    (hrecord : RecordOf settlement wal) (hstate : wal.state = .prepared)
    (hdecided : wal.accepted.isSome) (hpoint : point = .idle ∨ point = .committing)
    (hstep : OwnStep settlement ⟨some dispatched, some wal, point, []⟩ wal action next) :
    SettlementPhase settlement start next := by
  cases hstep with
  | same => exact .prepared hbegins hrecord hstate hdecided hpoint
  | ended => exact .prepared hbegins hrecord hstate hdecided (Or.inl rfl)
  | resumed => exact .prepared hbegins hrecord hstate hdecided (Or.inr rfl)
  | prepared hprepares =>
    have hdispatched := hprepares.dispatched
    rw [hstate] at hdispatched
    cases hdispatched
  | aborted hdispatched =>
    rw [hstate] at hdispatched
    cases hdispatched
  | @committing laterIso haction _ =>
    -- the evidence still ends with the dispatch, so the commit is the first
    have hsettled := (hbegins.dispatched hnew).not_settled hrecord
    have hadmits : commitAdmits wal (getTaskWorkflowSnapshot (some dispatched)) = true := by
      simp [commitAdmits, hstate]
    rw [commitPrepared_of_admitted rfl hrecord.transitionId hsettled hadmits]
    cases hnext : updateEvidenceForTransition laterIso (some dispatched) (commitEvent wal) with
    | ok next => exact .written hbegins hrecord hstate ⟨hdecided, hnext⟩ (by decide)
    | error e => exact .prepared hbegins hrecord hstate hdecided (Or.inl rfl)
  | committed hwritten => rcases hpoint with rfl | rfl <;> cases hwritten
  | other hcommitted =>
    rw [hstate] at hcommitted
    cases hcommitted

variable {laterIso : JsString}

theorem settled_phase {dispatched settled : TaskEvidence}
    (hbegins : Begins settlement start nowIso dispatched) (hrecord : RecordOf settlement wal)
    (hstate : wal.state = .committed) (hcommits : Commits wal dispatched laterIso settled) :
    SettlementPhase settlement start ⟨some settled, some wal, .idle, []⟩ :=
  @SettlementPhase.committed settlement start _ _ _ _ _ _ [] hbegins hrecord hstate hcommits
    (Or.inl rfl)

theorem SettlementPhase.step_written {dispatched settled : TaskEvidence}
    (hnew : NewSettlement settlement start) (hbegins : Begins settlement start nowIso dispatched)
    (hrecord : RecordOf settlement wal) (hstate : wal.state = .prepared)
    (hcommits : Commits wal dispatched laterIso settled) (hpoint : point ≠ .beginning)
    (hrecognised : SettlementRecognised ⟨some settled, some wal, point, []⟩ action)
    (hstep : OwnStep settlement ⟨some settled, some wal, point, []⟩ wal action next) :
    SettlementPhase settlement start next := by
  have hdispatched := hbegins.dispatched hnew
  have hcommit : Commits wal.commit dispatched laterIso settled := by
    refine ⟨hcommits.decided, ?_⟩
    rw [commitEvent_commit hstate hcommits.decided]
    exact hcommits.accepted
  have hcommitted : RecordOf settlement wal.commit :=
    ⟨hrecord.transitionId, hrecord.expectedGeneration, hrecord.declaredFiles, hrecord.isolated⟩
  cases hstep with
  | same => exact .written hbegins hrecord hstate hcommits hpoint
  | ended | resumed => exact .written hbegins hrecord hstate hcommits (by decide)
  | prepared hprepares =>
    have hstart := hprepares.dispatched
    rw [hstate] at hstart
    cases hstart
  | aborted hstart =>
    rw [hstate] at hstart
    cases hstart
  | committing haction hcommitting =>
    -- the evidence is written and the record is not: the first commit is recognised
    have hleaves : wal.accepted = some true ∨ wal.declaredFiles ≠ some []
        ∨ wal.expectedGeneration = 0 := by
      by_cases haccepted : wal.accepted = some true
      · exact Or.inl haccepted
      rw [haction] at hrecognised
      obtain ⟨workflow, htakes⟩ := hcommits.takes hdispatched
      have houtcome : (getTaskWorkflowSnapshot (some settled)).lastOutcome
          = .dispatchNoMutation := by
        rw [htakes.snapshot]
        rw [htakes.step.lastOutcome, commitEvent_outcome, settlementOutcome, if_neg haccepted]
      have hlast : (getTaskWorkflowSnapshot (some settled)).lastTransitionId
          = some wal.transitionId := by
        rw [htakes.snapshot]
        rw [htakes.step.lastTransitionId, commitEvent_ids.2]
        rfl
      exact Or.inr ((hrecognised wal rfl hcommitting haccepted).1 hstate houtcome hlast)
    have hsettled := hcommits.settled hdispatched hrecord (Or.inl hstate) hleaves
    rw [commitPrepared_of_settled rfl hrecord.transitionId hsettled]
    exact settled_phase hbegins hcommitted rfl hcommit
  | committed =>
    exact settled_phase hbegins hcommitted rfl hcommit
  | other hother =>
    rw [hstate] at hother
    cases hother

theorem SettlementPhase.step_committed {dispatched settled : TaskEvidence}
    {others : List TimedEvent} (hbegins : Begins settlement start nowIso dispatched)
    (hrecord : RecordOf settlement wal) (hstate : wal.state = .committed)
    (hcommits : Commits wal dispatched laterIso settled)
    (hpoint : point = .idle ∨ point = .committing) (hrecognised : SettlementRecognised
      ⟨others.foldl (applyOther wal) (some settled), some wal, point, others⟩ action)
    (hstep : OwnStep settlement
      ⟨others.foldl (applyOther wal) (some settled), some wal, point, others⟩ wal action next) :
    SettlementPhase settlement start next := by
  have hcommit : wal.commit = wal := by
    rw [CoderSettlementWal.commit, ← hstate]
  cases hstep with
  | same => exact .committed hbegins hrecord hstate hcommits hpoint
  | ended => exact .committed hbegins hrecord hstate hcommits (Or.inl rfl)
  | resumed => exact .committed hbegins hrecord hstate hcommits (Or.inr rfl)
  | prepared hprepares =>
    have hstart := hprepares.dispatched
    rw [hstate] at hstart
    cases hstart
  | aborted hstart =>
    rw [hstate] at hstart
    cases hstart
  | @committing replayIso haction hcommitting =>
    -- a replay: recognised, refused, or stopped by the generation
    cases hsettled : evidenceAlreadySettled wal
        (getTaskWorkflowSnapshot (others.foldl (applyOther wal) (some settled))) with
    | true =>
      rw [commitPrepared_of_settled rfl hrecord.transitionId hsettled, hcommit]
      exact .committed hbegins hrecord hstate hcommits (Or.inl rfl)
    | false =>
      cases hadmits : commitAdmits wal
          (getTaskWorkflowSnapshot (others.foldl (applyOther wal) (some settled))) with
      | false =>
        rw [commitPrepared_of_refused rfl hrecord.transitionId hsettled hadmits]
        exact .committed hbegins hrecord hstate hcommits (Or.inl rfl)
      | true =>
        simp only [commitAdmits, hstate, Bool.or_eq_true, Bool.and_eq_true, beq_iff_eq,
          bne_iff_ne, reduceCtorEq, false_or, true_and] at hadmits
        rw [haction] at hrecognised
        have hmismatch := (hrecognised wal rfl hcommitting hadmits.1).2 hstate
        simp only [hsettled, hadmits.2, Bool.false_eq_true, not_true_eq_false, ne_eq,
          false_or] at hmismatch
        rw [commitPrepared_of_admitted rfl hrecord.transitionId hsettled
          (by simp [commitAdmits, hstate, hadmits.1, hadmits.2])]
        rw [updateEvidence_of_mismatch commitEvent_ids.1 hmismatch]
        exact .committed hbegins hrecord hstate hcommits (Or.inl rfl)
  | committed hwritten => rcases hpoint with rfl | rfl <;> cases hwritten
  | @other input =>
    have hphase := @SettlementPhase.committed settlement start _ _ _ _ _ _ (others ++ [input])
      hbegins hrecord hstate hcommits hpoint
    rw [List.foldl_concat] at hphase
    exact hphase

theorem SettlementPhase.step (hnew : NewSettlement settlement start)
    (h : SettlementPhase settlement start world) (hrecognised : SettlementRecognised world action) :
    SettlementPhase settlement start (settlementStep settlement world action) := by
  cases h with
  | untouched => exact step_untouched hnew (foreignStep hnew.wal (Or.inl hnew.idle) action)
  | @begun _ dispatched point hbegins hpoint =>
    have hstep := @foreignStep settlement ⟨some dispatched, start.wal, point, []⟩ hnew.wal hpoint
      action
    exact step_begun hnew hbegins hpoint hstep
  | recorded hbegins hrecord hstate =>
    exact step_recorded hbegins hrecord hstate (ownStep rfl hrecord (by simp) action)
  | @prepared _ _ _ point hbegins hrecord hstate hdecided hpoint =>
    have hbeginning : point ≠ .beginning := by rcases hpoint with rfl | rfl <;> decide
    exact step_prepared hnew hbegins hrecord hstate hdecided hpoint
      (ownStep rfl hrecord hbeginning action)
  | written hbegins hrecord hstate hcommits hpoint =>
    exact step_written hnew hbegins hrecord hstate hcommits hpoint hrecognised
      (ownStep rfl hrecord hpoint action)
  | @committed _ _ _ _ _ point _ hbegins hrecord hstate hcommits hpoint =>
    have hbeginning : point ≠ .beginning := by rcases hpoint with rfl | rfl <;> decide
    exact step_committed hbegins hrecord hstate hcommits hpoint hrecognised
      (ownStep rfl hrecord hbeginning action)

/-- The runs of a settlement. -/
def SettlementSteps (settlement : CoderSettlement) (world : SettlementWorld)
    (action : SettlementAction) (next : SettlementWorld) : Prop :=
  settlementStep settlement world action = next

theorem settlementPhase_of_run {actions : List SettlementAction}
    (hnew : NewSettlement settlement start)
    (hrun : Run (Guarded (SettlementSteps settlement) SettlementRecognised) start actions world) :
    SettlementPhase settlement start world := by
  refine hrun.preserves ?_ .untouched
  rintro before action after ⟨hstep, hrecognised⟩ hphase
  rw [← show settlementStep settlement before action = after from hstep]
  exact hphase.step hnew hrecognised

end OpencodeSwarm
