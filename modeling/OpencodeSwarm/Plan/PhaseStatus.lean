/-
  OpencodeSwarm.Plan.PhaseStatus

  Phase statuses follow the task statuses (`derivePhaseStatusesInPlace` and
  `updateTaskStatus` of `src/plan/manager.ts`): both derivations give a phase the
  same status, which is terminal exactly when all its tasks are completed.  A
  phase that is finished with closed tasks is derived as pending.
-/
import OpencodeSwarm.Plan.UpdateTaskStatus

namespace OpencodeSwarm

open Js

/-! ## Derived statuses -/

/-- A phase with tasks has a terminal status exactly when they are all completed or closed. -/
def PhasesFollow (plan : Plan) : Prop :=
  ∀ phase ∈ plan.phases, phase.tasks ≠ [] →
    (phase.status.isTerminal = true ↔ ∀ task ∈ phase.tasks, task.status.isTerminal = true)

/-- A plan whose tasks are all completed or closed keeps its terminal phases terminal. -/
def StaysTerminal (before after : Plan) : Prop :=
  (∀ task ∈ before.tasks, task.status.isTerminal = true) →
  ∀ (index : Nat) (phase later : Phase), before.phases[index]? = some phase →
    after.phases[index]? = some later → phase.status.isTerminal = true →
    later.status.isTerminal = true

/-- No phase is finished with a closed task. -/
def SettledByCompletion (plan : Plan) : Prop :=
  ∀ phase ∈ plan.phases, (∀ task ∈ phase.tasks, task.status.isTerminal = true) →
    ∀ task ∈ phase.tasks, task.status = .completed

/-- Where all tasks are completed or closed, no terminal phase is without tasks. -/
def NoEmptyTerminal (plan : Plan) : Prop :=
  (∀ task ∈ plan.tasks, task.status.isTerminal = true) →
  ∀ phase ∈ plan.phases, phase.status.isTerminal = true → phase.tasks ≠ []

/-- The plan of a save, with the statuses it preserves. -/
def preservedPlan (files : ProjectFiles) (plan : Plan) (options : SaveOptions) : Plan :=
  match options.preserveCompletedStatuses, files.planJson with
  | true, some current => preserveCompletedStatuses current plan
  | _, _ => plan

/-- The tasks of an update, edited. -/
def editedPlan (plan : Plan) (call : UpdateCall) : Plan :=
  plan.mapTasks fun task =>
    if task.id == call.taskId then { task with status := call.status } else task

theorem validatedPlan_phases (files : ProjectFiles) (plan : Plan) (options : SaveOptions) :
    (validatedPlan files plan options).phases
      = (derivePhaseStatuses (preservedPlan files plan options)).phases := rfl

variable {plan : Plan}

theorem updatedPlan_eq {updated : Plan} {call : UpdateCall}
    (h : updatedPlan plan call = some updated) :
    updated = derivePhaseStatuses (editedPlan plan call) := by
  unfold updatedPlan at h
  split at h
  · exact (Option.some.inj h).symm
  · cases h

theorem derivePhaseStatus_isTerminal_iff {tasks : List Task} :
    (derivePhaseStatus tasks).isTerminal = true
      ↔ tasks ≠ [] ∧ ∀ task ∈ tasks, task.status = .completed := by
  have hcompleted : (!tasks.isEmpty && tasks.all fun task => task.status = .completed) = true
      ↔ tasks ≠ [] ∧ ∀ task ∈ tasks, task.status = .completed := by
    rw [Bool.and_eq_true, Bool.not_eq_true', List.isEmpty_eq_false_iff, List.all_eq_true]
    simp
  rw [← hcompleted]
  unfold derivePhaseStatus
  split
  · rename_i hall
    rw [hall]
    exact ⟨fun _ => rfl, fun _ => rfl⟩
  · rename_i hnot
    refine ⟨fun hterminal => ?_, fun hall => absurd hall hnot⟩
    split at hterminal
    · cases hterminal
    split at hterminal
    · cases hterminal
    · cases hterminal

/-- Derived statuses follow the tasks unless a phase is finished with a closed one. -/
theorem phasesFollow_derive_iff :
    PhasesFollow (derivePhaseStatuses plan) ↔ SettledByCompletion plan := by
  have hcompleted : ∀ task : Task, task.status = .completed → task.status.isTerminal = true := by
    intro task h
    rw [h]
    rfl
  constructor
  · intro hfollow phase hphase hsettled
    by_cases hempty : phase.tasks = []
    · rw [hempty]
      exact fun task htask => absurd htask List.not_mem_nil
    · have hderived : { phase with status := derivePhaseStatus phase.tasks }
          ∈ (derivePhaseStatuses plan).phases := List.mem_map_of_mem hphase
      have hterminal := (hfollow _ hderived hempty).mpr hsettled
      exact (derivePhaseStatus_isTerminal_iff.mp hterminal).2
  · intro hsettled phase hphase hne
    obtain ⟨stored, hstored, rfl⟩ := List.mem_map.mp hphase
    show (derivePhaseStatus stored.tasks).isTerminal = true ↔ _
    rw [derivePhaseStatus_isTerminal_iff]
    constructor
    · rintro ⟨-, hall⟩ task htask
      exact hcompleted task (hall task htask)
    · intro hall
      exact ⟨hne, hsettled stored hstored hall⟩

/-! ## Saves and updates -/

theorem getElem?_preservedPlan {files : ProjectFiles} {plan : Plan} {options : SaveOptions}
    {index : Nat} {phase : Phase} (h : plan.phases[index]? = some phase) :
    ∃ preserved, (preservedPlan files plan options).phases[index]? = some preserved
      ∧ (preserved.tasks = [] ↔ phase.tasks = [])
      ∧ ((∀ task ∈ phase.tasks, task.status.isTerminal = true) →
        ∀ task ∈ preserved.tasks, task.status.isTerminal = true) := by
  unfold preservedPlan
  split
  · refine ⟨_, by
      unfold preserveCompletedStatuses Plan.mapTasks
      rw [List.getElem?_map, h]
      rfl, ?_, ?_⟩
    · exact List.map_eq_nil_iff
    · intro hall task htask
      obtain ⟨stored, hstored, rfl⟩ := List.mem_map.mp htask
      split
      · rfl
      · exact hall stored hstored
  · exact ⟨phase, h, Iff.rfl, id⟩

/-- A save keeps terminal phases terminal, those without tasks apart. -/
theorem staysTerminal_iff {files : ProjectFiles} {options : SaveOptions}
    (hsettled : SettledByCompletion (preservedPlan files plan options)) :
    StaysTerminal plan (validatedPlan files plan options) ↔ NoEmptyTerminal plan := by
  have hderived : ∀ {index : Nat} {preserved : Phase},
      (preservedPlan files plan options).phases[index]? = some preserved →
      (validatedPlan files plan options).phases[index]?
        = some { preserved with status := derivePhaseStatus preserved.tasks } := by
    intro index preserved hpreserved
    rw [validatedPlan_phases]
    rw [derivePhaseStatuses, List.getElem?_map, hpreserved]
    rfl
  constructor
  · intro hstays hall phase hphase hterminal hempty
    obtain ⟨index, hindex⟩ := List.getElem?_of_mem hphase
    obtain ⟨preserved, hpreserved, hnil, -⟩ :=
      @getElem?_preservedPlan files plan options index phase hindex
    have hlater := hstays hall index phase _ hindex (hderived hpreserved) hterminal
    exact (derivePhaseStatus_isTerminal_iff.mp hlater).1 (hnil.mpr hempty)
  · intro hfull hall index phase later hindex hlater hterminal
    obtain ⟨preserved, hpreserved, hnil, hkeeps⟩ :=
      @getElem?_preservedPlan files plan options index phase hindex
    rw [hderived hpreserved] at hlater
    cases hlater
    have hphase : phase ∈ plan.phases := List.mem_of_getElem? hindex
    have htasks : ∀ task ∈ phase.tasks, task.status.isTerminal = true := by
      intro task htask
      exact hall task (List.mem_flatMap.mpr ⟨phase, hphase, htask⟩)
    show (derivePhaseStatus preserved.tasks).isTerminal = true
    rw [derivePhaseStatus_isTerminal_iff]
    refine ⟨fun hempty => hfull hall phase hphase hterminal (hnil.mp hempty), ?_⟩
    exact hsettled preserved (List.mem_of_getElem? hpreserved) (hkeeps htasks)

/-- Both derivations follow the tasks, agree, and keep terminal phases, exactly when no phase is
    finished with a closed task and no terminal phase of a finished plan is without tasks. -/
theorem phaseStatuses_follow_iff (files : ProjectFiles) (plan : Plan) (options : SaveOptions)
    (loaded updated : Plan) (call : UpdateCall) (h : updatedPlan loaded call = some updated) :
    (PhasesFollow (validatedPlan files plan options)
        ∧ StaysTerminal plan (validatedPlan files plan options) ∧ PhasesFollow updated
        ∧ (validatedPlan files updated updateSaveOptions).phases = updated.phases)
      ↔ SettledByCompletion (preservedPlan files plan options) ∧ NoEmptyTerminal plan
        ∧ SettledByCompletion (editedPlan loaded call) := by
  have hupdated := updatedPlan_eq h
  have hagree : (validatedPlan files updated updateSaveOptions).phases = updated.phases := by
    have hpreserved : preservedPlan files updated updateSaveOptions = updated := by
      rfl
    rw [validatedPlan_phases, hpreserved]
    have hidem : derivePhaseStatuses updated = updated :=
      derivePhaseStatuses_of_phases (by rw [hupdated])
    rw [hidem]
  have hsaved : PhasesFollow (validatedPlan files plan options)
      ↔ SettledByCompletion (preservedPlan files plan options) := phasesFollow_derive_iff
  have hedited : PhasesFollow updated ↔ SettledByCompletion (editedPlan loaded call) := by
    rw [hupdated]
    exact phasesFollow_derive_iff
  constructor
  · rintro ⟨hfollow, hstays, hafter, -⟩
    have hsettled := hsaved.mp hfollow
    exact ⟨hsettled, (staysTerminal_iff hsettled).mp hstays, hedited.mp hafter⟩
  · rintro ⟨hsettled, hfull, hafter⟩
    exact ⟨hsaved.mpr hsettled, (staysTerminal_iff hsettled).mpr hfull, hedited.mpr hafter, hagree⟩

/-- A task is completed: both derivations make its phase complete. -/
theorem phaseStatuses_follow_completed :
    ∃ updated, updatedPlan (onePhasePlan [plainTask "1.1" .inProgress])
        ⟨js "1.1", .completed, false, false⟩ = some updated ∧ PhasesFollow updated := by
  refine ⟨_, rfl, ?_⟩
  refine ((phaseStatuses_follow_iff ⟨none, none⟩ (onePhasePlan [plainTask "1.1" .inProgress])
    updateSaveOptions (onePhasePlan [plainTask "1.1" .inProgress]) _
    ⟨js "1.1", .completed, false, false⟩ rfl).mpr ⟨?_, ?_, ?_⟩).2.2.1
  · intro phase hphase hall task htask
    rw [List.mem_singleton.mp hphase] at hall
    have hterminal := hall (plainTask "1.1" .inProgress) (List.mem_singleton_self _)
    exact absurd hterminal (by decide)
  · intro hall
    exact absurd (hall (plainTask "1.1" .inProgress) (by decide)) (by decide)
  · intro phase hphase hall task htask
    rw [List.mem_singleton.mp hphase] at htask
    rw [List.mem_singleton.mp htask]
    rfl

/-- The plan of a closed session, saved again. -/
def closedPlan : Plan :=
  { onePhasePlan [plainTask "1.1" .closed] with
    phases := (onePhasePlan [plainTask "1.1" .closed]).phases.map fun phase =>
      { phase with status := .closed } }

/-- Its phase, which is finished, is saved as pending. -/
theorem not_phasesFollow_closed :
    ¬ ∀ (files : ProjectFiles) (plan : Plan) (options : SaveOptions), plan.wellFormed = true →
      PhasesFollow (validatedPlan files plan options) := by
  intro hall
  have hfollow := hall ⟨none, none⟩ closedPlan updateSaveOptions (by decide)
  have hphase := hfollow _ List.mem_cons_self (by decide)
  have hterminal := hphase.mpr (by decide)
  exact absurd hterminal (by decide)

end OpencodeSwarm
