/-
  OpencodeSwarm.Gate.RequiredGates

  `tests_run` against the required gates.  Stage B recomputes the state whenever
  it adds a required gate; an advisory `gate_recorded` adds required gates and
  keeps the state, so `tests_run` outlives the certificate it stood for.
-/
import Mathlib.Data.List.Dedup
import OpencodeSwarm.Gate.Freshness

namespace OpencodeSwarm

open Js

/-! ## The certificate -/

def requiredGatesOf (existing : Option TaskEvidence) : List JsString :=
  (existing.map (·.requiredGates)).getD []

/-- In `tests_run` every required gate has an entry. -/
def Certifies (existing : Option TaskEvidence) : Prop :=
  stateOf existing = .testsRun →
    ∀ gate ∈ requiredGatesOf existing, (gatesOf existing gate).isSome

/-- The generation matches and the event is no duplicate. -/
def Arrives (existing : Option TaskEvidence) (event : WorkflowEvent) : Prop :=
  (∀ expected, event.expectedGeneration = some expected → expected = generationOf existing)
    ∧ isDuplicateTransition (getTaskWorkflowSnapshot existing) event = false

/-- An advisory gate that arrives in `tests_run` derives no gate but itself that
    has no entry yet. -/
def AdvisoryCovered (existing : Option TaskEvidence) (event : WorkflowEvent) : Prop :=
  ∀ gate sessionId turbo, event.body = .gateRecorded gate sessionId turbo →
    stateOf existing = .testsRun → Arrives existing event →
    ∀ required ∈ deriveRequiredGates gate {},
      required = gate ∨ (gatesOf existing required).isSome

/-- The event is a Stage B result with a route verdict of its own. -/
def WorkflowEventBody.carriesRoute : WorkflowEventBody → Bool
  | .stageBCompleted _ _ routeComplete _ _ => routeComplete.isSome
  | _ => false

/-- `tests_run` certifies wherever the sequence reaches it, and a completion
    from there without exemption completes with every required gate. -/
structure RunCertified (inputs : List TimedEvent) : Prop where
  testsRun : ∀ earlier later, inputs = earlier ++ later → Certifies (evidenceAfter earlier)
  completed : ∀ earlier input later, inputs = earlier ++ input :: later →
    stateOf (evidenceAfter earlier) = .testsRun →
    input.event.body = .taskCompleted false false false →
    stateOf (evidenceAfter (earlier ++ [input])) = .complete →
    ∀ gate ∈ requiredGatesOf (evidenceAfter (earlier ++ [input])),
      (gatesOf (evidenceAfter (earlier ++ [input])) gate).isSome

/-! ## Required gates across one transition -/

theorem mem_expandRequiredGates {gate newAgentType : JsString} {existingGates : List JsString}
    {context : GateDerivationContext} :
    gate ∈ expandRequiredGates existingGates newAgentType context
      ↔ gate ∈ existingGates ∨ gate ∈ deriveRequiredGates newAgentType context := by
  rw [expandRequiredGates, (sortStrings_perm _).mem_iff, List.mem_dedup, List.mem_append]

/-- The events that neither add nor remove a gate. -/
def WorkflowEventBody.leavesGates : WorkflowEventBody → Bool
  | .dispatchAttempted _ | .dispatchNoMutation _ | .externalEvidenceRevoked
  | .taskCompleted _ _ _ => true
  | _ => false

theorem leavesGates_spec {nowIso : JsString} {existing : Option TaskEvidence}
    {event : WorkflowEvent} (h : event.body.leavesGates = true) :
    maybeExpandRequiredGates existing event = requiredGatesOf existing
      ∧ gatesForTransition nowIso (gatesOf existing) event.body = gatesOf existing := by
  obtain ⟨body, expectedGeneration, transitionId⟩ := event
  cases body with
  | dispatchAttempted | dispatchNoMutation | externalEvidenceRevoked | taskCompleted =>
    exact ⟨rfl, rfl⟩
  | _ => cases h

variable {existing : Option TaskEvidence} {event : WorkflowEvent} {nowIso : JsString}
  {next : TaskEvidence} {workflow : TaskWorkflowMetadata}

theorem requiredGatesOf_of_takes (h : Takes nowIso existing event next workflow) :
    requiredGatesOf (some next) = maybeExpandRequiredGates existing event := by
  rw [h.next_eq]
  rfl

theorem gatesOf_of_takes (h : Takes nowIso existing event next workflow) :
    gatesOf (some next) = gatesForTransition nowIso (gatesOf existing) event.body := by
  rw [h.next_eq]
  rfl

theorem exists_of_stateOf_ne_idle (h : stateOf existing ≠ .idle) :
    ∃ evidence, existing = some evidence := by
  cases existing with
  | none => exact absurd rfl h
  | some evidence => exact ⟨evidence, rfl⟩

theorem mem_required_of_gateRecorded {gate sessionId required : JsString} {turbo : Option Bool}
    (hbody : event.body = .gateRecorded gate sessionId turbo)
    (hstate : stateOf existing = .testsRun) : required ∈ maybeExpandRequiredGates existing event
      ↔ required ∈ requiredGatesOf existing ∨ required ∈ deriveRequiredGates gate {} := by
  have hne : stateOf existing ≠ .idle := by
    rw [hstate]
    decide
  obtain ⟨evidence, rfl⟩ := exists_of_stateOf_ne_idle hne
  obtain ⟨body, expectedGeneration, transitionId⟩ := event
  cases hbody
  exact mem_expandRequiredGates

theorem Takes.certifies (h : Takes nowIso existing event next workflow)
    (hroute : event.body.carriesRoute = false) (hcertifies : Certifies existing)
    (hcovered : AdvisoryCovered existing event) : Certifies (some next) := by
  intro hstate
  have hnext : workflow.state = .testsRun := (stateOf_of_takes h).symm.trans hstate
  have hstep := h.step.state
  rw [requiredGatesOf_of_takes h, gatesOf_of_takes h]
  cases hbody : event.body with
  | stageBCompleted gate sessionId routeComplete turbo ensureDefaultStageB =>
    -- the state was recomputed from the gates of this very transition
    rw [hbody] at hstep hroute
    have hnone : routeComplete = none := by
      cases routeComplete with
      | none => rfl
      | some _ => cases hroute
    have hall := hstep.2.2 hnone hnext
    simp only [hasAllRequiredGatesPassed, Bool.and_eq_true, List.all_eq_true] at hall
    intro required hrequired
    have hentry := hall.2 required (by rw [h.next_eq]; exact hrequired)
    rw [h.next_eq] at hentry
    rw [← hbody]
    exact hentry
  | gateRecorded gate sessionId turbo =>
    rw [hbody] at hstep
    have hcurrent : stateOf existing = .testsRun := hstep.symm.trans hnext
    intro required hrequired
    rcases (mem_required_of_gateRecorded hbody hcurrent).mp hrequired with hold | hderived
    · exact gatesForTransition_isSome rfl (hcertifies hcurrent required hold)
    · rcases hcovered gate sessionId turbo hbody hcurrent ⟨h.generation, h.fresh⟩ required
          hderived with rfl | hentry
      · rw [gatesForTransition_recorded rfl]
        rfl
      · exact gatesForTransition_isSome rfl hentry
  | dispatchAttempted | dispatchNoMutation | externalEvidenceRevoked =>
    have hleaves : event.body.leavesGates = true := by rw [hbody]; rfl
    have hkept := @leavesGates_spec nowIso existing _ hleaves
    rw [hbody] at hstep hkept
    rw [hkept.1, hkept.2]
    exact hcertifies (hstep.symm.trans hnext)
  | acceptedMutation =>
    rw [hbody] at hstep
    rcases hstep with hstep | hstep <;> rw [hstep] at hnext <;> cases hnext
  | externalEvidenceAttested | stageAFailed =>
    rw [hbody] at hstep
    rw [hstep.2] at hnext
    cases hnext
  | stageAPassed | taskCompleted =>
    rw [hbody] at hstep
    rw [hstep.1] at hnext
    cases hnext
  | stageBFailed | taskBlocked | taskClosed | repairIdle =>
    rw [hbody] at hstep
    have hother : workflow.state = _ := hstep
    rw [hother] at hnext
    cases hnext

/-! ## Runs -/

/-- Covered advisory gates keep the certificate along the whole sequence. -/
theorem certifies_of_covered {inputs : List TimedEvent}
    (hroute : ∀ input ∈ inputs, input.event.body.carriesRoute = false)
    (hcovered : ∀ earlier input later, inputs = earlier ++ input :: later →
      AdvisoryCovered (evidenceAfter earlier) input.event) :
    Certifies (evidenceAfter inputs) := by
  induction inputs using List.reverseRecOn with
  | nil =>
    intro hstate
    cases hstate
  | append_singleton inputs last ih =>
    have hbefore : Certifies (evidenceAfter inputs) := by
      apply ih
      · intro input hinput
        exact hroute input (List.mem_append_left _ hinput)
      · intro earlier input later hsplit
        exact hcovered earlier input (later ++ [last]) (by simp [hsplit])
    rw [evidenceAfter_snoc]
    rcases applyWorkflowEvent_cases (evidenceAfter inputs) last with
      ⟨hsame, -⟩ | ⟨next, workflow, happly, htakes⟩
    · rwa [hsame]
    · rw [happly]
      exact htakes.certifies (hroute last (by simp)) hbefore (hcovered inputs last [] rfl)

theorem takes_of_gateRecorded {existing : Option TaskEvidence} {event : WorkflowEvent}
    {gate sessionId nowIso : JsString} {turbo : Option Bool}
    (hbody : event.body = .gateRecorded gate sessionId turbo)
    (hstate : stateOf existing = .testsRun) (harrives : Arrives existing event) :
    ∃ next workflow, Takes nowIso existing event next workflow ∧ workflow.state = .testsRun := by
  refine ⟨_, baseMetadata (getTaskWorkflowSnapshot existing) event nowIso,
    ⟨harrives.2, harrives.1, ?_, rfl⟩, hstate⟩
  have hcurrent : (getTaskWorkflowSnapshot existing).state = .testsRun := hstate
  rw [reduceTaskWorkflowSnapshot, hbody, hcurrent]
  rfl

/-- A certificate that survives an advisory gate says that the gate was covered. -/
theorem advisoryCovered_of_certifies {input : TimedEvent}
    (h : Certifies (applyWorkflowEvent existing input)) : AdvisoryCovered existing input.event := by
  intro gate sessionId turbo hbody hstate harrives required hderived
  obtain ⟨next, workflow, htakes, hnext⟩ :=
    @takes_of_gateRecorded _ _ _ _ input.nowIso _ hbody hstate harrives
  rw [htakes.apply] at h
  have hentry := h ((stateOf_of_takes htakes).trans hnext) required (by
    rw [requiredGatesOf_of_takes htakes]
    exact (mem_required_of_gateRecorded hbody hstate).mpr (Or.inr hderived))
  obtain ⟨entry, hentry⟩ := Option.isSome_iff_exists.mp hentry
  rw [gatesOf_of_takes htakes] at hentry
  rcases gatesForTransition_eq_some hentry with hrecorded | ⟨hold, -⟩
  · rw [hbody] at hrecorded
    cases hrecorded
    exact Or.inl rfl
  · exact Or.inr (by rw [hold]; rfl)

theorem completed_of_certifies {input : TimedEvent} (hcertifies : Certifies existing)
    (hstate : stateOf existing = .testsRun)
    (hbody : input.event.body = .taskCompleted false false false) :
    ∀ gate ∈ requiredGatesOf (applyWorkflowEvent existing input),
      (gatesOf (applyWorkflowEvent existing input) gate).isSome := by
  have hleaves : input.event.body.leavesGates = true := by
    rw [hbody]
    rfl
  rcases applyWorkflowEvent_cases existing input with
    ⟨hsame, -⟩ | ⟨next, workflow, happly, htakes⟩
  · rw [hsame]
    exact hcertifies hstate
  · have hkept := @leavesGates_spec input.nowIso existing _ hleaves
    rw [happly, requiredGatesOf_of_takes htakes, gatesOf_of_takes htakes, hkept.1, hkept.2]
    exact hcertifies hstate

/-- `tests_run` certifies along a sequence exactly when every advisory gate that
    arrives in `tests_run` is covered. -/
theorem runCertified_iff (inputs : List TimedEvent)
    (hroute : ∀ input ∈ inputs, input.event.body.carriesRoute = false) :
    RunCertified inputs ↔ ∀ earlier input later, inputs = earlier ++ input :: later →
      AdvisoryCovered (evidenceAfter earlier) input.event := by
  constructor
  · intro hrun earlier input later hsplit
    apply advisoryCovered_of_certifies
    rw [← evidenceAfter_snoc]
    exact hrun.testsRun (earlier ++ [input]) later (by simp [hsplit])
  · intro hcovered
    have hearlier : ∀ earlier later, inputs = earlier ++ later →
        Certifies (evidenceAfter earlier) := by
      rintro earlier later rfl
      apply certifies_of_covered
      · intro input hinput
        exact hroute input (List.mem_append_left _ hinput)
      · intro before input after hsplit
        exact hcovered before input (after ++ later) (by simp [hsplit])
    refine ⟨hearlier, ?_⟩
    intro earlier input later hsplit hstate hbody _
    rw [evidenceAfter_snoc]
    exact completed_of_certifies (hearlier earlier (input :: later) hsplit) hstate hbody

/-- A Markdown-only coder change through Stage A and the reviewer: `tests_run`
    with the reviewer as the one required gate. -/
def reviewedMarkdownChange : List TimedEvent :=
  [⟨⟨.acceptedMutation ⟨some (js "coder"), some { testEngineerExempt := true }, none⟩,
      some 0, some (js "t1")⟩, js "2026-01-01T00:00:00Z"⟩,
    ⟨⟨.stageAPassed false false, some 1, none⟩, js "2026-01-01T00:01:00Z"⟩,
    ⟨⟨.stageBCompleted .reviewer (js "s") none none false, some 1, none⟩,
      js "2026-01-01T00:02:00Z"⟩]

/-- An advisory council gate after the review. -/
def recordCouncil : TimedEvent :=
  ⟨⟨.gateRecorded (js "council") (js "s") none, some 1, none⟩, js "2026-01-01T00:03:00Z"⟩

def completeTask : TimedEvent :=
  ⟨⟨.taskCompleted false false false, some 1, none⟩, js "2026-01-01T00:04:00Z"⟩

theorem runCertified_reviewedMarkdownChange :
    (∀ input ∈ reviewedMarkdownChange, input.event.body.carriesRoute = false)
      ∧ RunCertified reviewedMarkdownChange := by
  have hroute : ∀ input ∈ reviewedMarkdownChange, input.event.body.carriesRoute = false := by
    decide
  refine ⟨hroute, (runCertified_iff reviewedMarkdownChange hroute).mpr ?_⟩
  -- no event of the sequence is an advisory gate
  intro earlier input later hsplit gate sessionId turbo hbody
  have hmem : input ∈ reviewedMarkdownChange := by simp [hsplit]
  have hkinds : reviewedMarkdownChange.all fun input =>
      input.event.body.type != "gate_recorded" := by decide
  have hkind := List.all_eq_true.mp hkinds input hmem
  rw [hbody] at hkind
  simp [WorkflowEventBody.type] at hkind

/-- The council gate leaves `tests_run` with the test engineer required and
    missing, and the completion that follows is accepted. -/
theorem completed_without_test_engineer :
    (∀ input ∈ reviewedMarkdownChange ++ [recordCouncil, completeTask],
        input.event.body.carriesRoute = false)
      ∧ stateOf (evidenceAfter (reviewedMarkdownChange ++ [recordCouncil])) = .testsRun
      ∧ stateOf (evidenceAfter (reviewedMarkdownChange ++ [recordCouncil, completeTask]))
        = .complete ∧ js "test_engineer"
        ∈ requiredGatesOf (evidenceAfter (reviewedMarkdownChange ++ [recordCouncil, completeTask]))
      ∧ ¬ RunCertified (reviewedMarkdownChange ++ [recordCouncil, completeTask]) := by
  have hstate : stateOf (evidenceAfter (reviewedMarkdownChange ++ [recordCouncil]))
      = .testsRun := by decide +kernel
  have hrequired : js "test_engineer"
      ∈ requiredGatesOf (evidenceAfter (reviewedMarkdownChange ++ [recordCouncil])) := by
    decide +kernel
  refine ⟨by decide, hstate, by decide +kernel, by decide +kernel, fun hrun => ?_⟩
  have hentry := hrun.testsRun (reviewedMarkdownChange ++ [recordCouncil]) [completeTask]
    (by simp) hstate _ hrequired
  cases hentry

end OpencodeSwarm
