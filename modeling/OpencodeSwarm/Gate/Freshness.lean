/-
  OpencodeSwarm.Gate.Freshness

  QA proof is fresh.  An `accepted_mutation` or `repair_idle` rotates the
  generation and clears the gates a new generation has to earn again, so every
  such gate that is recorded was recorded since the last rotation; the lifecycle
  states follow the proofs.
-/
import Mathlib.Data.List.Induction
import OpencodeSwarm.Gate.Evidence

namespace OpencodeSwarm

open Js

/-! ## Gates across one transition -/

variable {nowIso gate : JsString} {body : WorkflowEventBody} {entry : GateEvidence} {gates : Gates}

/-- An entry after a transition was written by it, or stood before and was not
    due for clearing. -/
theorem gatesForTransition_eq_some (h : gatesForTransition nowIso gates body gate = some entry) :
    recordedGate nowIso body = some (gate, entry) ∨ (gates gate = some entry
        ∧ (gate ∈ workflowProofGates → body.opensGeneration = false)) := by
  have hrecord : ∀ recorded written,
      Function.update gates recorded (some written) gate = some entry →
      some (recorded, written) = some (gate, entry) ∨ gates gate = some entry := by
    intro recorded written hupdate
    by_cases hsame : gate = recorded
    · subst hsame
      rw [Function.update_self] at hupdate
      cases hupdate
      exact Or.inl rfl
    · rw [Function.update_of_ne hsame] at hupdate
      exact Or.inr hupdate
  have hdelete : ∀ (gates : Gates) deleted, Function.update gates deleted none gate = some entry →
      gates gate = some entry := by
    intro gates deleted hupdate
    by_cases hsame : gate = deleted
    · subst hsame
      rw [Function.update_self] at hupdate
      cases hupdate
    · rwa [Function.update_of_ne hsame] at hupdate
  cases body with
  | acceptedMutation | repairIdle =>
    simp only [gatesForTransition, clearWorkflowGateProof] at h
    split at h
    · cases h
    rename_i hkept
    exact Or.inr ⟨h, fun hproof => absurd hproof hkept⟩
  | stageAFailed => exact Or.inr ⟨hdelete _ _ h, fun _ => rfl⟩
  | stageBFailed => exact Or.inr ⟨hdelete _ _ (hdelete _ _ h), fun _ => rfl⟩
  | stageAPassed | stageBCompleted | gateRecorded =>
    rcases hrecord _ _ h with hnew | hold
    · exact Or.inl hnew
    · exact Or.inr ⟨hold, fun _ => rfl⟩
  | _ => exact Or.inr ⟨h, fun _ => rfl⟩

/-- The events that take no gate away. -/
def WorkflowEventBody.keepsGates : WorkflowEventBody → Bool
  | .acceptedMutation _ | .repairIdle | .stageAFailed | .stageBFailed _ => false
  | _ => true

theorem gatesForTransition_isSome (hkeeps : body.keepsGates = true) (h : (gates gate).isSome) :
    (gatesForTransition nowIso gates body gate).isSome := by
  have hrecord : ∀ recorded written,
      (Function.update gates recorded (some written) gate).isSome := by
    intro recorded written
    by_cases hsame : gate = recorded
    · subst hsame
      rw [Function.update_self]
      rfl
    · rwa [Function.update_of_ne hsame]
  cases body with
  | acceptedMutation | repairIdle | stageAFailed | stageBFailed => cases hkeeps
  | stageAPassed | stageBCompleted | gateRecorded => exact hrecord _ _
  | _ => exact h

theorem gatesForTransition_recorded (h : recordedGate nowIso body = some (gate, entry)) :
    gatesForTransition nowIso gates body gate = some entry := by
  cases body with
  | stageAPassed | stageBCompleted | gateRecorded =>
    cases h
    simp [gatesForTransition, recordedGate]
  | _ => cases h

/-! ## Freshness -/

def stateOf (existing : Option TaskEvidence) : WorkflowState :=
  (getTaskWorkflowSnapshot existing).state

def generationOf (existing : Option TaskEvidence) : Nat :=
  (getTaskWorkflowSnapshot existing).generation

/-- An event that opens a generation: no duplicate of the last transition, sent for the
    generation that is current, and in a terminal state a repair. -/
structure Rotates (existing : Option TaskEvidence) (input : TimedEvent) : Prop where
  opens : input.event.body.opensGeneration = true
  fresh : isDuplicateTransition (getTaskWorkflowSnapshot existing) input.event = false
  current : ∀ expected, input.event.expectedGeneration = some expected →
    expected = generationOf existing
  terminal : (stateOf existing).isTerminal = true → input.event.body = .repairIdle

/-- These are the events of such a kind that the evidence takes. -/
theorem rotates_iff_takes {existing : Option TaskEvidence} {input : TimedEvent} :
    Rotates existing input ↔ input.event.body.opensGeneration = true
      ∧ ∃ next workflow, Takes input.nowIso existing input.event next workflow := by
  obtain ⟨⟨body, expectedGeneration, transitionId⟩, nowIso⟩ := input
  constructor
  · rintro ⟨hopens, hfresh, hcurrent, hterminal⟩
    refine ⟨hopens, ?_⟩
    suffices hreduced : ∃ workflow, reduceTaskWorkflowSnapshot (getTaskWorkflowSnapshot existing)
        ⟨body, expectedGeneration, transitionId⟩ (maybeExpandRequiredGates existing _)
        (gatesForTransition nowIso (gatesOf existing) body) nowIso = .ok workflow by
      obtain ⟨workflow, hworkflow⟩ := hreduced
      exact ⟨_, workflow, hfresh, hcurrent, hworkflow, rfl⟩
    unfold reduceTaskWorkflowSnapshot
    cases body with
    | acceptedMutation dispatch =>
      have hopen : (getTaskWorkflowSnapshot existing).state.isTerminal = false :=
        Bool.eq_false_iff.mpr fun hstate => nomatch hterminal hstate
      rw [hopen, Bool.false_and, if_neg Bool.false_ne_true]
      dsimp only
      split
      · exact ⟨_, rfl⟩
      · exact ⟨_, rfl⟩
    | repairIdle =>
      rw [admittedFromTerminal, Bool.not_true, Bool.and_false, if_neg Bool.false_ne_true]
      exact ⟨_, rfl⟩
    | _ => cases hopens
  · rintro ⟨hopens, next, workflow, htakes⟩
    refine ⟨hopens, htakes.fresh, htakes.generation, fun hstate => ?_⟩
    have hadmitted := htakes.step.admitted hstate
    cases body with
    | acceptedMutation dispatch => cases hadmitted
    | repairIdle => rfl
    | _ => cases hopens

/-- An event of the sequence recorded the entry, and no later one rotated the
    generation. -/
def RecordedSinceRotation (inputs : List TimedEvent) (gate : JsString) (entry : GateEvidence) :
    Prop :=
  ∃ earlier input later, inputs = earlier ++ input :: later
    ∧ (∃ next workflow, Takes input.nowIso (evidenceAfter earlier) input.event next workflow)
    ∧ recordedGate input.nowIso input.event.body = some (gate, entry)
    ∧ ∀ between rotating rest, later = between ++ rotating :: rest →
      ¬ Rotates (evidenceAfter (earlier ++ input :: between)) rotating

/-- A last event that does not rotate keeps what was recorded since. -/
theorem RecordedSinceRotation.snoc {inputs : List TimedEvent} {gate : JsString}
    {entry : GateEvidence} {last : TimedEvent} (h : RecordedSinceRotation inputs gate entry)
    (hlast : ¬ Rotates (evidenceAfter inputs) last) :
    RecordedSinceRotation (inputs ++ [last]) gate entry := by
  obtain ⟨earlier, input, later, rfl, htakes, hrecorded, hbetween⟩ := h
  refine ⟨earlier, input, later ++ [last], by simp, htakes, hrecorded, ?_⟩
  intro between rotating rest hsplit
  rcases List.append_eq_append_iff.mp hsplit with ⟨more, hbetween', hrest⟩ | ⟨more, hlater, hrest⟩
  · cases more with
    | nil =>
      rw [List.append_nil] at hbetween'
      cases hrest
      rw [hbetween']
      exact hlast
    | cons extra more => simp at hrest
  · cases more with
    | nil =>
      rw [List.append_nil] at hlater
      cases hrest
      rw [← hlater]
      exact hlast
    | cons extra more =>
      obtain ⟨rfl, -⟩ := List.cons.inj hrest
      exact hbetween between rotating more hlater

variable {inputs : List TimedEvent}

theorem recordedSinceRotation_of_gate (hproof : gate ∈ workflowProofGates)
    (h : gatesOf (evidenceAfter inputs) gate = some entry) :
    RecordedSinceRotation inputs gate entry := by
  induction inputs using List.reverseRecOn with
  | nil => cases h
  | append_singleton inputs last ih =>
    rw [evidenceAfter_snoc] at h
    rcases applyWorkflowEvent_cases (evidenceAfter inputs) last with
      ⟨hsame, hnot⟩ | ⟨next, workflow, happly, htakes⟩
    · rw [hsame] at h
      exact (ih h).snoc fun hrotates => by
        obtain ⟨-, next, workflow, htakes⟩ := rotates_iff_takes.mp hrotates
        exact hnot next workflow htakes
    · rw [happly, htakes.next_eq] at h
      rcases gatesForTransition_eq_some h with hrecorded | ⟨hold, hkept⟩
      · refine ⟨inputs, last, [], rfl, ⟨next, workflow, htakes⟩, hrecorded, ?_⟩
        intro between rotating rest hsplit
        simp at hsplit
      · refine (ih hold).snoc fun hrotates => ?_
        have hnot := hkept hproof
        rw [hrotates.opens] at hnot
        cases hnot

/-! ## The lifecycle -/

/-- The states that Stage A leads to. -/
def WorkflowState.pastStageA (state : WorkflowState) : Bool :=
  state == .preCheckPassed || state == .reviewerRun || state == .testsRun

theorem pastStageA_of_mem {state : WorkflowState}
    (h : state ∈ [WorkflowState.preCheckPassed, .reviewerRun, .testsRun]) :
    state.pastStageA = true := by
  simp only [List.mem_cons, List.not_mem_nil, or_false] at h
  rcases h with rfl | rfl | rfl <;> rfl

theorem preCheck_of_pastStageA (h : (stateOf (evidenceAfter inputs)).pastStageA = true) :
    (gatesOf (evidenceAfter inputs) (js "pre_check")).isSome := by
  induction inputs using List.reverseRecOn with
  | nil => cases h
  | append_singleton inputs last ih =>
    rw [evidenceAfter_snoc] at h ⊢
    rcases applyWorkflowEvent_cases (evidenceAfter inputs) last with
      ⟨hsame, -⟩ | ⟨next, workflow, happly, htakes⟩
    · rw [hsame] at h ⊢
      exact ih h
    · rw [happly] at h ⊢
      have hstate : workflow.state.pastStageA = true := by
        rwa [stateOf, htakes.snapshot] at h
      have hstep := htakes.step.state
      rw [htakes.next_eq]
      change (gatesForTransition last.nowIso (gatesOf (evidenceAfter inputs)) last.event.body
        (js "pre_check")).isSome
      -- every event but Stage A's own starts from a state past Stage A
      cases hbody : last.event.body with
      | stageAPassed => rw [gatesForTransition_recorded rfl]; rfl
      | stageBCompleted =>
        rw [hbody] at hstep
        exact gatesForTransition_isSome rfl (ih (pastStageA_of_mem hstep.1))
      | dispatchAttempted | dispatchNoMutation | gateRecorded | externalEvidenceRevoked =>
        rw [hbody] at hstep
        have hcurrent : workflow.state = stateOf (evidenceAfter inputs) := hstep
        rw [hcurrent] at hstate
        exact gatesForTransition_isSome rfl (ih hstate)
      | acceptedMutation =>
        rw [hbody] at hstep
        rcases hstep with hnext | hnext <;> rw [hnext] at hstate <;> cases hstate
      | externalEvidenceAttested | stageAFailed =>
        rw [hbody] at hstep
        rw [hstep.2] at hstate
        cases hstate
      | taskCompleted =>
        rw [hbody] at hstep
        rw [hstep.1] at hstate
        cases hstate
      | stageBFailed | taskBlocked | taskClosed | repairIdle =>
        rw [hbody] at hstep
        have hnext : workflow.state = _ := hstep
        rw [hnext] at hstate
        cases hstate

/-- What lets an event complete the task, in terms of the evidence before it. -/
def CompletionAdmitted (before : Option TaskEvidence) (body : WorkflowEventBody) : Prop :=
  ∃ qaExempt readOnlyNoMutation externalEvidence,
    body = .taskCompleted qaExempt readOnlyNoMutation externalEvidence
      ∧ (stateOf before = .testsRun
        ∨ (stateOf before = .preCheckPassed ∧ (gatesOf before (js "council")).isSome)
        ∨ stateOf before = .complete
        ∨ qaExempt = true
        ∨ (readOnlyNoMutation = true ∧ stateOf before = .idle
          ∧ isNoMutationSettlementMetadata (getTaskWorkflowSnapshot before) = true)
        ∨ (externalEvidence = true
          ∧ (getTaskWorkflowSnapshot before).externalEvidence.any (·.fullyMatched) = true))

/-- The transitions out of a terminal state. -/
def TerminalLeft (state : WorkflowState) (body : WorkflowEventBody) (next : WorkflowState) :
    Prop :=
  (body = .repairIdle ∧ next = .idle)
    ∨ (state = .blocked ∧ body = .taskClosed ∧ next = .closed)
    ∨ (state = .blocked ∧ next = .preCheckPassed
      ∧ ∃ supervisedRecovery, body = .stageAPassed supervisedRecovery true)

/-- What holds of the evidence a sequence of events leads to, and of any further
    event. -/
structure QaProofFresh (inputs : List TimedEvent) (input : TimedEvent) : Prop where
  rotation : Rotates (evidenceAfter inputs) input →
    generationOf (evidenceAfter (inputs ++ [input])) = generationOf (evidenceAfter inputs) + 1
  otherwise : ¬ Rotates (evidenceAfter inputs) input →
    generationOf (evidenceAfter (inputs ++ [input])) = generationOf (evidenceAfter inputs)
  proofs : ∀ gate ∈ workflowProofGates, ∀ entry,
    gatesOf (evidenceAfter inputs) gate = some entry → RecordedSinceRotation inputs gate entry
  preCheck : (stateOf (evidenceAfter inputs)).pastStageA = true →
    (gatesOf (evidenceAfter inputs) (js "pre_check")).isSome
  entered : stateOf (evidenceAfter (inputs ++ [input])) = .complete →
    stateOf (evidenceAfter inputs) = .complete
      ∨ CompletionAdmitted (evidenceAfter inputs) input.event.body
  left : (stateOf (evidenceAfter inputs)).isTerminal = true →
    stateOf (evidenceAfter (inputs ++ [input])) ≠ stateOf (evidenceAfter inputs) →
    TerminalLeft (stateOf (evidenceAfter inputs)) input.event.body
      (stateOf (evidenceAfter (inputs ++ [input])))

variable {existing : Option TaskEvidence} {event : WorkflowEvent} {next : TaskEvidence}
  {workflow : TaskWorkflowMetadata}

theorem Takes.completionAdmitted (h : Takes nowIso existing event next workflow)
    (hcomplete : workflow.state = .complete) :
    stateOf existing = .complete ∨ CompletionAdmitted existing event.body := by
  have hstep := h.step.state
  rw [h.next_eq, hcomplete] at hstep
  have hgates : (nextEvidence nowIso existing event workflow).gates
      = gatesForTransition nowIso (gatesOf existing) event.body := rfl
  rw [hgates] at hstep
  cases hbody : event.body with
  | taskCompleted qaExempt readOnlyNoMutation externalEvidence =>
    rw [hbody] at hstep
    obtain ⟨-, hadmitted⟩ := hstep
    refine Or.inr ⟨qaExempt, readOnlyNoMutation, externalEvidence, rfl, ?_⟩
    rcases hadmitted with hexempt | htests | hagain | hcouncil | hreadOnly | hexternal
    · exact Or.inr (Or.inr (Or.inr (Or.inl hexempt)))
    · exact Or.inl htests
    · exact Or.inr (Or.inr (Or.inl hagain))
    · exact Or.inr (Or.inl hcouncil)
    · simp only [readOnlyAdmitted, Bool.and_eq_true, beq_iff_eq] at hreadOnly
      obtain ⟨⟨⟨⟨hflag, hidle⟩, -⟩, hproof⟩, -⟩ := hreadOnly
      exact Or.inr (Or.inr (Or.inr (Or.inr (Or.inl ⟨hflag, hidle, hproof⟩))))
    · simp only [externalAdmitted, Bool.and_eq_true] at hexternal
      obtain ⟨⟨hflag, hmatched⟩, -⟩ := hexternal
      exact Or.inr (Or.inr (Or.inr (Or.inr (Or.inr ⟨hflag, hmatched⟩))))
  | dispatchAttempted | dispatchNoMutation | gateRecorded | externalEvidenceRevoked =>
    rw [hbody] at hstep
    have hcurrent : WorkflowState.complete = stateOf existing := hstep
    exact Or.inl hcurrent.symm
  | acceptedMutation =>
    rw [hbody] at hstep
    rcases hstep with hnext | hnext <;> cases hnext
  | stageBCompleted =>
    rw [hbody] at hstep
    have hpast := pastStageA_of_mem hstep.2.1
    cases hpast
  | externalEvidenceAttested | stageAFailed =>
    rw [hbody] at hstep
    cases hstep.2
  | stageAPassed =>
    rw [hbody] at hstep
    cases hstep.1
  | stageBFailed | taskBlocked | taskClosed | repairIdle =>
    rw [hbody] at hstep
    cases hstep

theorem Takes.terminalLeft (h : Takes nowIso existing event next workflow)
    (hterminal : (stateOf existing).isTerminal = true) (hleft : workflow.state ≠ stateOf existing) :
    TerminalLeft (stateOf existing) event.body workflow.state := by
  have hstep := h.step.state
  have hadmitted : admittedFromTerminal (stateOf existing) event.body = true :=
    h.step.admitted hterminal
  cases hbody : event.body with
  | repairIdle =>
    rw [hbody] at hstep
    exact Or.inl ⟨rfl, hstep⟩
  | taskClosed =>
    rw [hbody] at hstep hadmitted
    exact Or.inr (Or.inl ⟨beq_iff_eq.mp hadmitted, rfl, hstep⟩)
  | stageAPassed supervisedRecovery settlementRecovery =>
    rw [hbody] at hstep hadmitted
    simp only [admittedFromTerminal, Bool.and_eq_true, beq_iff_eq] at hadmitted
    obtain ⟨hblocked, hrecovery⟩ := hadmitted
    exact Or.inr (Or.inr ⟨hblocked, hstep.1, supervisedRecovery, by rw [hrecovery]⟩)
  | taskCompleted =>
    rw [hbody] at hstep hadmitted
    exact absurd (hstep.1.trans (beq_iff_eq.mp hadmitted).symm) hleft
  | taskBlocked =>
    rw [hbody] at hstep hadmitted
    have hnext : workflow.state = .blocked := hstep
    exact absurd (hnext.trans (beq_iff_eq.mp hadmitted).symm) hleft
  | _ =>
    rw [hbody] at hadmitted
    cases hadmitted

theorem generationOf_of_takes (h : Takes nowIso existing event next workflow) :
    generationOf (some next)
      = generationOf existing + if event.body.opensGeneration then 1 else 0 := by
  have hsnapshot := congrArg (fun snapshot => snapshot.generation) h.snapshot
  exact hsnapshot.trans h.step.generation

theorem stateOf_of_takes (h : Takes nowIso existing event next workflow) :
    stateOf (some next) = workflow.state :=
  congrArg (fun snapshot => snapshot.state) h.snapshot

/-- Every sequence of events leaves fresh QA proof, and every further event
    keeps to the lifecycle. -/
theorem qaProofFresh (inputs : List TimedEvent) (input : TimedEvent) :
    QaProofFresh inputs input := by
  have hsplit := applyWorkflowEvent_cases (evidenceAfter inputs) input
  rw [← evidenceAfter_snoc] at hsplit
  constructor
  · intro hrotates
    obtain ⟨hopens, next, workflow, htakes⟩ := rotates_iff_takes.mp hrotates
    rw [evidenceAfter_snoc, htakes.apply, generationOf_of_takes htakes, hopens]
    rfl
  · intro hnot
    rcases hsplit with ⟨hsame, -⟩ | ⟨next, workflow, happly, htakes⟩
    · rw [hsame]
    · have hopens : input.event.body.opensGeneration = false := by
        rw [← Bool.not_eq_true]
        exact fun hopens => hnot (rotates_iff_takes.mpr ⟨hopens, next, workflow, htakes⟩)
      rw [happly, generationOf_of_takes htakes, hopens]
      rfl
  · intro gate hproof entry hentry
    exact recordedSinceRotation_of_gate hproof hentry
  · exact preCheck_of_pastStageA
  · intro hcomplete
    rcases hsplit with ⟨hsame, -⟩ | ⟨next, workflow, happly, htakes⟩
    · rw [hsame] at hcomplete
      exact Or.inl hcomplete
    · rw [happly, stateOf_of_takes htakes] at hcomplete
      exact htakes.completionAdmitted hcomplete
  · intro hterminal hleft
    rcases hsplit with ⟨hsame, -⟩ | ⟨next, workflow, happly, htakes⟩
    · rw [hsame] at hleft
      exact absurd rfl hleft
    · rw [happly, stateOf_of_takes htakes] at hleft ⊢
      exact htakes.terminalLeft hterminal hleft

def mutationEvent (transitionId : String) : TimedEvent :=
  ⟨{ body := .acceptedMutation { agentType := some (js "coder") }
     transitionId := some (js transitionId) }, js "10:00"⟩

/-- A mutation that passes Stage A and its review. -/
def reviewedRun : List TimedEvent :=
  [mutationEvent "t1", ⟨{ body := .stageAPassed false false }, js "10:01"⟩,
    ⟨{ body := .stageBCompleted .reviewer (js "s1") none none false }, js "10:02"⟩]

/-- The next mutation opens a generation, and the review has to be earned again. -/
theorem qaProofFresh_reviewedRun :
    QaProofFresh reviewedRun (mutationEvent "t2")
      ∧ (gatesOf (evidenceAfter reviewedRun) (js "reviewer")).isSome
      ∧ stateOf (evidenceAfter reviewedRun) = .reviewerRun
      ∧ generationOf (evidenceAfter (reviewedRun ++ [mutationEvent "t2"])) = 2
      ∧ gatesOf (evidenceAfter (reviewedRun ++ [mutationEvent "t2"])) (js "reviewer") = none :=
  ⟨qaProofFresh _ _, by decide +kernel, by decide +kernel, by decide +kernel, by decide +kernel⟩

/-- The same mutation sent twice is accepted twice, and opens one generation. -/
theorem generation_acceptedTwice :
    ((updateEvidenceForTransition (js "10:00") (evidenceAfter [mutationEvent "t1"])
        (mutationEvent "t1").event).isOk = true
      ∧ (mutationEvent "t1").event.body.opensGeneration = true)
      ∧ generationOf (evidenceAfter [mutationEvent "t1"]) = 1
      ∧ generationOf (evidenceAfter [mutationEvent "t1", mutationEvent "t1"]) = 1 := by
  decide +kernel

end OpencodeSwarm
