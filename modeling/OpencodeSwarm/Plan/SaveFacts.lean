/-
  OpencodeSwarm.Plan.SaveFacts

  What a save writes and what the writes replay to: the sequence numbers of the
  appended events, the recorded difference as an operation on plans, and the
  statuses every stage of a save leaves each task id.
-/
import OpencodeSwarm.Plan.Manager

namespace OpencodeSwarm

open Js

/-! ## Writes -/

@[simp] theorem ProjectFiles.writeAll_nil (files : ProjectFiles) : files.writeAll [] = files := rfl

theorem ProjectFiles.writeAll_append (files : ProjectFiles) (writes later : List DurableWrite) :
    files.writeAll (writes ++ later) = (files.writeAll writes).writeAll later :=
  List.foldl_append

@[simp] theorem ProjectFiles.writeAll_singleton (files : ProjectFiles) (write : DurableWrite) :
    files.writeAll [write] = files.write write := rfl

theorem ProjectFiles.writeAll_map_append (files : ProjectFiles) (events : List LedgerEvent) :
    (files.writeAll (events.map DurableWrite.append)).events = files.events ++ events
      ∧ (files.writeAll (events.map DurableWrite.append)).planJson = files.planJson := by
  induction events generalizing files with
  | nil => exact ⟨(List.append_nil _).symm, rfl⟩
  | cons event events ih =>
    obtain ⟨hevents, hplan⟩ := ih (files.write (.append event))
    refine ⟨?_, hplan⟩
    rw [List.map_cons, show files.writeAll (.append event :: events.map DurableWrite.append)
      = (files.write (.append event)).writeAll (events.map DurableWrite.append) from rfl, hevents]
    simp [ProjectFiles.write, ProjectFiles.events]

variable {files : ProjectFiles}

theorem replayFromLedger_congr {files' : ProjectFiles} (hevents : files.events = files'.events)
    (hplan : files.planJson = files'.planJson) :
    replayFromLedger files = replayFromLedger files' := by
  rw [replayFromLedger, replayFromLedger, hevents, hplan]

theorem foldl_max_ge (events : List LedgerEvent) (start : Nat) :
    start ≤ events.foldl (fun maximum event => max maximum event.seq) start := by
  induction events generalizing start with
  | nil => exact Nat.le_refl start
  | cons event events ih => exact Nat.le_trans (Nat.le_max_left _ _) (ih _)

variable {events : List LedgerEvent} {event : LedgerEvent}

theorem seq_le_latestSeq (h : event ∈ events) : event.seq ≤ latestSeq events := by
  unfold latestSeq
  generalize 0 = start
  induction events generalizing start with
  | nil => cases h
  | cons head events ih =>
    rcases List.mem_cons.mp h with rfl | hmem
    · exact Nat.le_trans (Nat.le_max_right _ _) (foldl_max_ge events _)
    · exact ih hmem _

theorem latestSeq_snoc (h : event.seq = latestSeq events + 1) :
    latestSeq (events ++ [event]) = latestSeq events + 1 := by
  have hmax : latestSeq (events ++ [event]) = max (latestSeq events) event.seq := by
    rw [latestSeq, List.foldl_append]
    rfl
  omega

section Appending

variable {sha256 : JsString → JsString} {clock : SaveClock}

@[simp] theorem appendedEvents_nil (files : ProjectFiles) (planHashAfter : JsString) :
    appendedEvents sha256 clock files planHashAfter [] = [] := rfl

theorem appendedEvents_cons (files : ProjectFiles) (planHashAfter : JsString)
    (input : LedgerEventInput) (inputs : List LedgerEventInput) :
    appendedEvents sha256 clock files planHashAfter (input :: inputs)
      = appendedEvent sha256 clock files input planHashAfter :: appendedEvents sha256 clock
            (files.write (.append (appendedEvent sha256 clock files input planHashAfter)))
            planHashAfter inputs := rfl

/-- A prefix of the appended events is what a prefix of the inputs appends. -/
theorem appendedEvents_take (files : ProjectFiles) (planHashAfter : JsString)
    (inputs : List LedgerEventInput) (k : Nat) :
    (appendedEvents sha256 clock files planHashAfter inputs).take k
      = appendedEvents sha256 clock files planHashAfter (inputs.take k) := by
  induction inputs generalizing files k with
  | nil => simp
  | cons input inputs ih =>
    cases k with
    | zero => rfl
    | succ k => rw [List.take_succ_cons, appendedEvents_cons, appendedEvents_cons,
        List.take_succ_cons, ih]

variable {inputs : List LedgerEventInput} {files : ProjectFiles} {planHashAfter : JsString}

/-- Each appended event carries its input and the hash after the save, and is
    later than every event already there. -/
theorem mem_appendedEvents {event : LedgerEvent}
    (h : event ∈ appendedEvents sha256 clock files planHashAfter inputs) :
    (∃ input ∈ inputs, event.planId = input.planId ∧ event.eventType = input.eventType
        ∧ event.taskId = input.taskId) ∧ event.planHashAfter = planHashAfter
      ∧ ∀ earlier ∈ files.events, earlier.seq < event.seq := by
  induction inputs generalizing files with
  | nil => cases h
  | cons input inputs ih =>
    rw [appendedEvents_cons, List.mem_cons] at h
    rcases h with rfl | h
    · refine ⟨⟨input, List.mem_cons_self, rfl, rfl, rfl⟩, rfl, ?_⟩
      intro earlier hearlier
      exact Nat.lt_succ_of_le (seq_le_latestSeq hearlier)
    · obtain ⟨⟨input', hinput', hcarries⟩, hhash, hlater⟩ := ih h
      refine ⟨⟨input', List.mem_cons_of_mem input hinput', hcarries⟩, hhash, ?_⟩
      intro earlier hearlier
      refine hlater earlier ?_
      exact List.mem_append_left _ hearlier

theorem appendedEvents_ne_nil (h : inputs ≠ []) :
    appendedEvents sha256 clock files planHashAfter inputs ≠ [] := by
  obtain ⟨input, inputs, rfl⟩ := List.exists_cons_of_ne_nil h
  exact List.cons_ne_nil _ _

theorem latestSeq_appendedEvents (files : ProjectFiles) (planHashAfter : JsString)
    (inputs : List LedgerEventInput) :
    latestSeq (files.events ++ appendedEvents sha256 clock files planHashAfter inputs)
      = latestSeq files.events + inputs.length := by
  induction inputs generalizing files with
  | nil => rw [appendedEvents_nil, List.append_nil, List.length_nil, Nat.add_zero]
  | cons input inputs ih =>
    have hrest := ih (files.write (.append (appendedEvent sha256 clock files input planHashAfter)))
    have hwritten : (files.write (.append (appendedEvent sha256 clock files input
        planHashAfter))).events
          = files.events ++ [appendedEvent sha256 clock files input planHashAfter] := rfl
    rw [hwritten, latestSeq_snoc rfl, List.append_assoc] at hrest
    rw [appendedEvents_cons, List.length_cons]
    rw [List.singleton_append] at hrest
    omega

/-! ## The recorded difference -/

/-- The change an event of the difference records. -/
def LedgerEventInput.record (plan : Plan) (input : LedgerEventInput) : Plan :=
  match input.eventType, truthyString input.taskId, input.toStatus with
  | .taskRemoved, some taskId, _ => plan.removeTask taskId
  | .taskStatusChanged, some taskId, some status => plan.setTaskStatus taskId status
  | _, _, _ => plan

/-- Removals and status changes, the two kinds of the difference. -/
def LedgerEventInput.IsChange (input : LedgerEventInput) : Prop :=
  input.eventType = .taskRemoved ∨ input.eventType = .taskStatusChanged

theorem applyEventToPlan_appendedEvent {input : LedgerEventInput} (h : input.IsChange)
    (plan : Plan) (files : ProjectFiles) (planHashAfter : JsString) :
    applyEventToPlan plan (appendedEvent sha256 clock files input planHashAfter)
      = .ok (some (input.record plan)) := by
  rcases h with htype | htype
  · simp only [applyEventToPlan, appendedEvent, LedgerEventInput.record, htype]
    cases truthyString input.taskId <;> rfl
  · simp only [applyEventToPlan, appendedEvent, LedgerEventInput.record, htype]
    cases truthyString input.taskId <;> cases input.toStatus <;> rfl

theorem applyEvents_appendedEvents (h : ∀ input ∈ inputs, input.IsChange) (plan : Plan)
    (files : ProjectFiles) (planHashAfter : JsString) :
    applyEvents plan (appendedEvents sha256 clock files planHashAfter inputs)
      = .ok (some (inputs.foldl LedgerEventInput.record plan)) := by
  induction inputs generalizing plan files with
  | nil => rfl
  | cons input inputs ih =>
    obtain ⟨hinput, hinputs⟩ := List.forall_mem_cons.mp h
    rw [appendedEvents_cons, applyEvents, applyEventToPlan_appendedEvent hinput]
    exact ih hinputs _ _

variable {planId : JsString}

theorem continues_appendedEvents
    (hidentity : files.events.head?.map LedgerEvent.planId = some planId)
    (hinputs : ∀ input ∈ inputs, input.planId = planId) :
    Continues files.events (appendedEvents sha256 clock files planHashAfter inputs) where
  identity := by
    intro event hevent
    obtain ⟨⟨input, hinput, hplanId, -⟩, -, -⟩ := mem_appendedEvents hevent
    rw [hidentity, hplanId, hinputs input hinput]
  later := fun event hevent => (mem_appendedEvents hevent).2.2

theorem isReplayBase_appendedEvents (hinputs : ∀ input ∈ inputs, input.IsChange) :
    ∀ event ∈ appendedEvents sha256 clock files planHashAfter inputs,
      event.isReplayBase = false := by
  intro event hevent
  obtain ⟨⟨input, hinput, -, htype, -⟩, -, -⟩ := mem_appendedEvents hevent
  rcases hinputs input hinput with hchange | hchange <;>
    simp [LedgerEvent.isReplayBase, htype, hchange]

/-- A ledger that replays to a plan replays, with changes appended, to the plan
    with these changes. -/
theorem reconstruct_appendedEvents (hne : files.events ≠ [])
    (hidentity : files.events.head?.map LedgerEvent.planId = some planId)
    (hplanId : ∀ input ∈ inputs, input.planId = planId)
    (hchanges : ∀ input ∈ inputs, input.IsChange) {planJson : Option Plan} {plan : Plan}
    (hreplay : reconstructPlanFromEventsUnnormalized planJson files.events = .ok (some plan)) :
    reconstructPlanFromEventsUnnormalized planJson
        (files.events ++ appendedEvents sha256 clock files planHashAfter inputs)
      = .ok (some (inputs.foldl LedgerEventInput.record plan)) := by
  rw [reconstruct_append hne (continues_appendedEvents hidentity hplanId)
    (isReplayBase_appendedEvents hchanges), hreplay]
  exact applyEvents_appendedEvents hchanges plan files planHashAfter

end Appending

/-! ## The plans of a save -/

@[simp] theorem Plan.tasks_mapTasks (f : Task → Task) (plan : Plan) :
    (plan.mapTasks f).tasks = plan.tasks.map f := by
  simp [Plan.mapTasks, Plan.tasks, List.flatMap_map, List.map_flatMap]

@[simp] theorem tasks_derivePhaseStatuses (plan : Plan) :
    (derivePhaseStatuses plan).tasks = plan.tasks := by
  simp [derivePhaseStatuses, Plan.tasks, List.flatMap_map]

@[simp] theorem statusesOf_derivePhaseStatuses (plan : Plan) (id : JsString) :
    (derivePhaseStatuses plan).statusesOf id = plan.statusesOf id := by
  rw [Plan.statusesOf, tasks_derivePhaseStatuses, Plan.statusesOf]

variable {f : Task → Task}

theorem Plan.statusesOf_mapTasks (hf : ∀ task, (f task).id = task.id) (plan : Plan)
    (id : JsString) :
    (plan.mapTasks f).statusesOf id
      = (plan.tasks.filter fun task => task.id == id).map fun task => (f task).status := by
  have hsame : (fun task : Task => task.id == id) ∘ f = fun task => task.id == id := by
    funext task
    simp [hf]
  rw [Plan.statusesOf, Plan.tasks_mapTasks, List.filter_map, hsame, List.map_map]
  rfl

variable {plan : Plan}

theorem derivePhaseStatuses_of_phases {other : Plan}
    (h : plan.phases = (derivePhaseStatuses other).phases) : derivePhaseStatuses plan = plan := by
  have hphases : (derivePhaseStatuses plan).phases = plan.phases := by
    rw [show (derivePhaseStatuses plan).phases = plan.phases.map _ from rfl, h]
    simp [derivePhaseStatuses]
  exact congrArg (fun phases => { plan with phases := phases }) hphases

theorem Plan.wellFormed_mapTasks (hf : ∀ task, (f task).wellFormed = task.wellFormed)
    (plan : Plan) :
    (plan.mapTasks f).wellFormed = plan.wellFormed := by
  have hphase : ∀ phase : Phase, { phase with tasks := phase.tasks.map f }.wellFormed
      = phase.wellFormed := by
    simp [Phase.wellFormed, List.all_map, Function.comp_def, hf]
  simp only [Plan.wellFormed, Plan.mapTasks, List.all_map, Function.comp_def, hphase,
    List.isEmpty_map]
  rfl

theorem wellFormed_derivePhaseStatuses (plan : Plan) :
    (derivePhaseStatuses plan).wellFormed = plan.wellFormed := by
  have hphase : ∀ phase : Phase, { phase with status := derivePhaseStatus phase.tasks }.wellFormed
      = phase.wellFormed := fun _ => rfl
  simp only [Plan.wellFormed, derivePhaseStatuses, List.all_map, Function.comp_def, hphase,
    List.isEmpty_map]
  rfl

theorem firstUnfinished_mem (h : plan.phases ≠ []) :
    ∃ phase ∈ plan.phases, phase.id
      = match plan.phases.find? (fun phase => !phase.isEffectivelyTerminal) with
        | some phase => phase.id
        | none => (plan.phases.getLast?.map Phase.id).getD 1 := by
  split
  · next phase hfind => exact ⟨phase, List.mem_of_find?_eq_some hfind, rfl⟩
  · obtain ⟨last, hlast⟩ := Option.isSome_iff_exists.mp (List.getLast?_isSome.mpr h)
    exact ⟨last, List.mem_of_getLast? hlast, by rw [hlast]; rfl⟩

theorem resolveActivePhaseId_mem (h : plan.phases ≠ []) :
    ∃ phase ∈ plan.phases, phase.id = resolveActivePhaseId plan := by
  have hfirst := firstUnfinished_mem h
  dsimp only [resolveActivePhaseId]
  split
  · exact hfirst
  split
  · next phase hfind =>
    split
    · exact hfirst
    · exact ⟨phase, List.mem_of_find?_eq_some hfind, rfl⟩
  · exact hfirst

theorem wellFormed_normalizeCurrentPhase (h : plan.wellFormed = true) :
    (normalizeCurrentPhase plan).wellFormed = true := by
  simp only [Plan.wellFormed, Bool.and_eq_true, Bool.not_eq_true', List.isEmpty_eq_false_iff] at h
  obtain ⟨⟨⟨⟨⟨htitle, hswarm⟩, -⟩, hne⟩, hphases⟩, hprofile⟩ := h
  obtain ⟨phase, hphase, hid⟩ := resolveActivePhaseId_mem hne
  have hpos : 1 ≤ resolveActivePhaseId plan := by
    have hwell := List.all_eq_true.mp hphases phase hphase
    simp only [Phase.wellFormed, Bool.and_eq_true, decide_eq_true_eq] at hwell
    rw [← hid]
    exact hwell.1.1
  rw [decide_eq_true_eq] at htitle hswarm
  simp [Plan.wellFormed, normalizeCurrentPhase, htitle, hswarm, hne, hphases, hprofile, hpos]

/-- The phase that is active without a cursor. -/
def firstUnfinished (phases : List Phase) : Nat :=
  resolveActivePhaseId { onePhasePlan [] with phases := phases, currentPhase := none }

/-- The cursor names a phase that is not finished. -/
def unfinishedAt (phases : List Phase) (cursor : Nat) : Bool :=
  (phases.find? fun phase => phase.id == cursor).any fun phase => !phase.isEffectivelyTerminal

/-- The resolver answers with the cursor's own phase, or with a phase that does
    not depend on the cursor. -/
theorem resolveActivePhaseId_eq (plan : Plan) : resolveActivePhaseId plan
    = (plan.currentPhase.filter (unfinishedAt plan.phases)).getD (firstUnfinished plan.phases) := by
  unfold unfinishedAt firstUnfinished resolveActivePhaseId
  cases plan.currentPhase with
  | none => rfl
  | some cursor =>
    cases hfind : plan.phases.find? fun phase => phase.id == cursor with
    | none =>
      rw [Option.filter_some]
      simp only [hfind]
      rfl
    | some phase =>
      have hid : phase.id = cursor := by simpa using List.find?_some hfind
      rw [Option.filter_some]
      simp only [hfind]
      cases hterminal : phase.isEffectivelyTerminal with
      | true => simp [hterminal]
      | false => simp [hterminal, hid]

theorem filter_getD_again {α : Type*} (keep : α → Bool) (o : Option α) (a : α) :
    ((some ((o.filter keep).getD a)).filter keep).getD a = (o.filter keep).getD a := by
  cases hfilter : o.filter keep with
  | none =>
    rw [Option.getD_none, Option.filter_some]
    split_ifs <;> rfl
  | some b =>
    have hkeep : keep b = true := (Option.filter_eq_some_iff.mp hfilter).2
    rw [Option.getD_some, Option.filter_some, if_pos hkeep, Option.getD_some]

theorem cursorNormalized_normalizeCurrentPhase (plan : Plan) :
    (normalizeCurrentPhase plan).cursorNormalized := by
  have hagain : resolveActivePhaseId (normalizeCurrentPhase plan) = resolveActivePhaseId plan := by
    rw [resolveActivePhaseId_eq (normalizeCurrentPhase plan), normalizeCurrentPhase]
    rw [resolveActivePhaseId_eq plan]
    exact filter_getD_again _ _ _
  rw [Plan.cursorNormalized, normalizeCurrentPhase, hagain]
  rfl

/-! ### The validated plan -/

theorem validatedPlan_cursorNormalized (files : ProjectFiles) (plan : Plan)
    (options : SaveOptions) : (validatedPlan files plan options).cursorNormalized :=
  cursorNormalized_normalizeCurrentPhase _

theorem derivePhaseStatuses_validatedPlan (files : ProjectFiles) (plan : Plan)
    (options : SaveOptions) :
    derivePhaseStatuses (validatedPlan files plan options) = validatedPlan files plan options :=
  derivePhaseStatuses_of_phases rfl

theorem validatedPlan_wellFormed (files : ProjectFiles) (options : SaveOptions)
    (h : plan.wellFormed = true) : (validatedPlan files plan options).wellFormed = true := by
  refine wellFormed_normalizeCurrentPhase ?_
  rw [wellFormed_derivePhaseStatuses]
  split
  · rw [preserveCompletedStatuses, Plan.wellFormed_mapTasks, h]
    intro task
    split_ifs <;> rfl
  · exact h

/-! ### The merge -/

/-- No task of the validated plan has a recorded status that outranks it. -/
def NothingOutranked (files : ProjectFiles) (validated : Plan) (replayed : Option Plan) : Prop :=
  ∀ plan ∈ replayed, ∀ task ∈ validated.tasks,
    mergedStatus plan (collectLedgerStatusTaskIds files.events) task = task.status

theorem Plan.mapTasks_eq_self (h : ∀ task ∈ plan.tasks, f task = task) :
    plan.mapTasks f = plan := by
  have hphases : (plan.mapTasks f).phases = plan.phases := by
    refine (List.map_congr_left ?_).trans (List.map_id plan.phases)
    intro phase hphase
    have htasks : phase.tasks.map f = phase.tasks := by
      refine (List.map_congr_left ?_).trans (List.map_id phase.tasks)
      intro task htask
      exact h task (List.mem_flatMap.mpr ⟨phase, hphase, htask⟩)
    rw [htasks]
    rfl
  exact congrArg (fun phases => { plan with phases := phases }) hphases

variable {validated : Plan} {replayed : Option Plan}

theorem projectionCandidate_eq_self (hderived : derivePhaseStatuses validated = validated)
    (h : NothingOutranked files validated replayed) :
    projectionCandidate files validated replayed = validated := by
  cases replayed with
  | none => rfl
  | some plan =>
    rw [projectionCandidate, mergeStatusesTakingPrecedence, Plan.mapTasks_eq_self, hderived]
    intro task htask
    rw [h plan rfl task htask]

theorem projectionCandidate_wellFormed (files : ProjectFiles) (replayed : Option Plan)
    (h : validated.wellFormed = true) :
    (projectionCandidate files validated replayed).wellFormed = true := by
  cases replayed with
  | none => exact h
  | some plan =>
    rw [projectionCandidate, mergeStatusesTakingPrecedence, wellFormed_derivePhaseStatuses,
      Plan.wellFormed_mapTasks, h]
    intro task
    rfl

theorem derivePlanId_projectionCandidate (files : ProjectFiles) (validated : Plan)
    (replayed : Option Plan) :
    derivePlanId (projectionCandidate files validated replayed) = derivePlanId validated := by
  cases replayed <;> rfl

theorem statusesOf_merge (validated replayed : Plan) (ids : List JsString) (id : JsString) :
    (mergeStatusesTakingPrecedence validated replayed ids).statusesOf id
      = (validated.tasks.filter fun task => task.id == id).map (mergedStatus replayed ids) := by
  rw [mergeStatusesTakingPrecedence, statusesOf_derivePhaseStatuses, Plan.statusesOf_mapTasks]
  intro task
  rfl

variable {id : JsString}

theorem statusesOf_projectionCandidate_eq_nil_iff :
    (projectionCandidate files validated replayed).statusesOf id = []
      ↔ validated.statusesOf id = [] := by
  cases replayed with
  | none => exact Iff.rfl
  | some plan =>
    rw [projectionCandidate, statusesOf_merge, Plan.statusesOf, List.map_eq_nil_iff,
      List.map_eq_nil_iff]

theorem length_statusesOf_projectionCandidate (files : ProjectFiles) (validated : Plan)
    (replayed : Option Plan) (id : JsString) :
    ((projectionCandidate files validated replayed).statusesOf id).length
      = (validated.statusesOf id).length := by
  cases replayed with
  | none => rfl
  | some plan =>
    rw [projectionCandidate, statusesOf_merge, Plan.statusesOf, List.length_map, List.length_map]

variable {task : Task}

theorem mergedStatus_of_single {ids : List JsString}
    (h : plan.statusesOf task.id = [] ∨ plan.statusesOf task.id = [task.status]) :
    mergedStatus plan ids task = task.status := by
  have hlast : ∀ old, lastTask plan task.id = some old → old.status = task.status := by
    intro old hold
    have hfound := List.mem_reverse.mp (List.mem_of_find?_eq_some hold)
    have hsame : old.id = task.id := by simpa using List.find?_some hold
    have hsome : old.status ∈ plan.statusesOf task.id :=
      Plan.mem_statusesOf.mpr ⟨old, hfound, hsame, rfl⟩
    rcases h with hnil | hsingle
    · rw [hnil] at hsome
      cases hsome
    · rwa [hsingle, List.mem_singleton] at hsome
  unfold mergedStatus
  split
  · next old hold =>
    split_ifs at hold
    · rw [hlast old hold]
      simp
  · rfl

variable {status : TaskStatus}

/-- Over a replay that shows the id this one status, a merge of the same status
    keeps it. -/
theorem statusesOf_projectionCandidate_of_single (hvalidated : validated.statusesOf id = [status])
    (hreplayed : ∀ plan ∈ replayed, plan.statusesOf id = [] ∨ plan.statusesOf id = [status]) :
    (projectionCandidate files validated replayed).statusesOf id = [status] := by
  cases replayed with
  | none => exact hvalidated
  | some plan =>
    rw [projectionCandidate, statusesOf_merge, ← hvalidated, Plan.statusesOf]
    refine List.map_congr_left ?_
    intro task htask
    obtain ⟨hmem, hid⟩ := List.mem_filter.mp htask
    rw [beq_iff_eq] at hid
    have hstatus : task.status = status := by
      have hsome : task.status ∈ validated.statusesOf id :=
        Plan.mem_statusesOf.mpr ⟨task, hmem, hid, rfl⟩
      rwa [hvalidated, List.mem_singleton] at hsome
    -- the replayed task, if there is one, carries the same status
    refine mergedStatus_of_single ?_
    rw [hid, hstatus]
    exact hreplayed plan rfl

/-! ### What the ledger hash says about statuses -/

theorem hashed_tasks (plan : Plan) :
    (plan.hashed true).phases.flatMap HashedPhase.tasks = plan.tasks.map (Task.hashed true) := by
  simp [Plan.hashed, Phase.hashed, Plan.tasks, List.flatMap_map, List.map_flatMap]

theorem statusesOf_of_hashed {p q : Plan} (h : p.hashed true = q.hashed true) (id : JsString) :
    p.statusesOf id = q.statusesOf id := by
  have hstatuses : ∀ plan : Plan, (((plan.hashed true).phases.flatMap HashedPhase.tasks).filter
      fun task => task.id == id).filterMap HashedTask.status = plan.statusesOf id := by
    intro plan
    rw [hashed_tasks, List.filter_map, List.filterMap_map, Plan.statusesOf,
      ← List.filterMap_eq_map]
    rfl
  rw [← hstatuses p, ← hstatuses q, h]

/-! ## The difference to plan.json -/

/-- The input removes an id the validated plan lacks, or sets the status of one
    of its tasks. -/
inductive LedgerEventInput.Describes (validated : Plan) (input : LedgerEventInput) : Prop where
  | removal (id : JsString) (htype : input.eventType = .taskRemoved)
      (hid : input.taskId = some id) (hmissing : validated.statusesOf id = [])
  | status (task : Task) (htype : input.eventType = .taskStatusChanged)
      (hid : input.taskId = some task.id) (hstatus : input.toStatus = some task.status)
      (hmem : task ∈ validated.tasks)

variable {input : LedgerEventInput}

theorem LedgerEventInput.Describes.isChange (h : input.Describes validated) : input.IsChange := by
  cases h with
  | removal id htype => exact Or.inl htype
  | status task htype => exact Or.inr htype

variable {current : Plan} {options : SaveOptions}

theorem removalInputs_eq_ok {removals : List LedgerEventInput}
    (h : removalInputs current validated options = .ok removals) :
    ∃ ack, removals = (missingTaskIds current validated).map
      (removalInput current validated ack) := by
  dsimp only [removalInputs] at h
  split at h
  · next hnone =>
    cases h
    exact ⟨⟨[], [], []⟩, by rw [hnone]; rfl⟩
  · split at h
    · cases h
    rename_i ack _
    repeat' split at h
    all_goals cases h
    exact ⟨ack, rfl⟩

variable {inputs : List LedgerEventInput}

theorem diffInputs_eq_ok (h : diffInputs files validated options = .ok inputs) :
    (files.planJson = none ∧ inputs = []) ∨ ∃ current ack, files.planJson = some current
        ∧ inputs = (missingTaskIds current validated).map (removalInput current validated ack)
          ++ statusInputs current validated := by
  unfold diffInputs at h
  split at h
  · next hnone =>
    cases h
    exact Or.inl ⟨hnone, rfl⟩
  · next current hcurrent =>
    cases hremovals : removalInputs current validated options with
    | error err =>
      rw [hremovals] at h
      cases h
    | ok removals =>
      obtain ⟨ack, hack⟩ := removalInputs_eq_ok hremovals
      rw [hremovals] at h
      cases h
      exact Or.inr ⟨current, ack, hcurrent, by rw [hack]⟩

theorem diffInputs_of_planJson (h : diffInputs files validated options = .ok inputs)
    (hcurrent : files.planJson = some current) :
    ∃ ack, inputs = (missingTaskIds current validated).map (removalInput current validated ack)
      ++ statusInputs current validated := by
  rcases diffInputs_eq_ok h with ⟨hnone, -⟩ | ⟨disk, ack, hdisk, hinputs⟩
  · cases hcurrent.symm.trans hnone
  · cases hcurrent.symm.trans hdisk
    exact ⟨ack, hinputs⟩

theorem mem_statusInputs : input ∈ statusInputs current validated
      ↔ ∃ phase ∈ validated.phases, ∃ task ∈ phase.tasks,
        statusInput current validated phase task = some input := by
  simp [statusInputs]

theorem statusInput_eq_some {phase : Phase}
    (h : statusInput current validated phase task = some input) :
    ∃ old, lastTask current task.id = some old ∧ old.status ≠ task.status
      ∧ input.planId = derivePlanId validated ∧ input.eventType = .taskStatusChanged
      ∧ input.taskId = some task.id ∧ input.toStatus = some task.status := by
  unfold statusInput at h
  split at h
  · cases h
  rename_i old hold
  split_ifs at h with hne
  cases h
  exact ⟨old, hold, hne, rfl, rfl, rfl, rfl⟩

/-- Every input of the difference has the plan's identity and describes it. -/
theorem mem_diffInputs (h : diffInputs files validated options = .ok inputs)
    (hmem : input ∈ inputs) :
    input.planId = derivePlanId validated ∧ input.Describes validated := by
  rcases diffInputs_eq_ok h with ⟨-, rfl⟩ | ⟨current, ack, -, rfl⟩
  · cases hmem
  rcases List.mem_append.mp hmem with hremoval | hstatus
  · obtain ⟨id, hid, rfl⟩ := List.mem_map.mp hremoval
    refine ⟨rfl, .removal id rfl rfl ?_⟩
    have hmissing := (List.mem_filter.mp hid).2
    rw [Plan.statusesOf, List.map_eq_nil_iff, List.filter_eq_nil_iff]
    simpa using hmissing
  · obtain ⟨phase, hphase, task, htask, hsome⟩ := mem_statusInputs.mp hstatus
    obtain ⟨-, -, -, hplanId, htype, hid, hto⟩ := statusInput_eq_some hsome
    exact ⟨hplanId, .status task htype hid hto (List.mem_flatMap.mpr ⟨phase, hphase, htask⟩)⟩

/-! ### Its effect on one id -/

theorem truthyString_eq_some {s : Option JsString} {t : JsString} (h : truthyString s = some t) :
    s = some t :=
  (Option.filter_eq_some_iff.mp h).1

/-- A described change leaves an id alone, drops a task of an id the validated
    plan lacks, or gives its first task a status the validated plan has. -/
theorem LedgerEventInput.Describes.statusesOf_record (h : input.Describes validated)
    (id : JsString) :
    (∀ plan, (input.record plan).statusesOf id = plan.statusesOf id) ∨ (validated.statusesOf id = []
        ∧ ∀ plan, (input.record plan).statusesOf id = (plan.statusesOf id).tail)
      ∨ ∃ status ∈ validated.statusesOf id, ∀ plan, (input.record plan).statusesOf id
          = (plan.statusesOf id).modifyHead fun _ => status := by
  unfold LedgerEventInput.record
  cases h with
  | removal removed htype hremoved hmissing =>
    rw [htype]
    cases htruthy : truthyString input.taskId with
    | none => exact Or.inl fun plan => rfl
    | some taskId =>
      have hsame : removed = taskId := by
        rw [truthyString_eq_some htruthy] at hremoved
        exact (Option.some.inj hremoved).symm
      by_cases hid : taskId = id
      · refine Or.inr (Or.inl ⟨hid ▸ hsame ▸ hmissing, fun plan => ?_⟩)
        rw [Plan.statusesOf_removeTask, if_pos hid]
      · refine Or.inl fun plan => ?_
        rw [Plan.statusesOf_removeTask, if_neg hid]
  | status task htype htask hstatus hmem =>
    rw [htype, hstatus]
    cases htruthy : truthyString input.taskId with
    | none => exact Or.inl fun plan => rfl
    | some taskId =>
      have hsame : task.id = taskId := by
        rw [truthyString_eq_some htruthy] at htask
        exact (Option.some.inj htask).symm
      by_cases hid : taskId = id
      · refine Or.inr (Or.inr ⟨task.status, ?_, fun plan => ?_⟩)
        · exact Plan.mem_statusesOf.mpr ⟨task, hmem, hsame.trans hid, rfl⟩
        · rw [Plan.statusesOf_setTaskStatus, if_pos hid]
      · refine Or.inl fun plan => ?_
        rw [Plan.statusesOf_setTaskStatus, if_neg hid]

/-- What a list of described changes can do to an id: an absent id stays absent,
    one the validated plan has stays present, and new statuses are validated
    ones. -/
theorem statusesOf_foldl_record (h : ∀ input ∈ inputs, input.Describes validated) (plan : Plan)
    (id : JsString) :
    (plan.statusesOf id = [] → (inputs.foldl LedgerEventInput.record plan).statusesOf id = [])
      ∧ (validated.statusesOf id ≠ [] → plan.statusesOf id ≠ [] →
          (inputs.foldl LedgerEventInput.record plan).statusesOf id ≠ [])
      ∧ ∀ status ∈ (inputs.foldl LedgerEventInput.record plan).statusesOf id,
          status ∈ plan.statusesOf id ∨ status ∈ validated.statusesOf id := by
  induction inputs generalizing plan with
  | nil => exact ⟨fun hnil => hnil, fun _ hne => hne, fun status hstatus => Or.inl hstatus⟩
  | cons input inputs ih =>
    obtain ⟨hinput, hinputs⟩ := List.forall_mem_cons.mp h
    obtain ⟨habsent, hpresent, hstatuses⟩ := ih hinputs (input.record plan)
    rcases hinput.statusesOf_record id with hsame | ⟨hmissing, htail⟩ | ⟨status, hstatus, hhead⟩
    · rw [hsame] at habsent hpresent hstatuses
      exact ⟨habsent, hpresent, hstatuses⟩
    · rw [htail] at habsent hstatuses
      refine ⟨fun hnil => habsent (by rw [hnil]; rfl), fun hne => absurd hmissing hne, ?_⟩
      intro status hstatus
      exact (hstatuses status hstatus).imp_left List.mem_of_mem_tail
    · rw [hhead] at habsent hpresent hstatuses
      refine ⟨fun hnil => habsent (by rw [hnil]; rfl), ?_, ?_⟩
      · intro hne hplan
        refine hpresent hne ?_
        rw [Ne, ← List.length_eq_zero_iff, List.length_modifyHead, List.length_eq_zero_iff]
        exact hplan
      · intro later hlater
        rcases hstatuses later hlater with hmem | hmem
        · cases hplan : plan.statusesOf id with
          | nil =>
            rw [hplan] at hmem
            cases hmem
          | cons head rest =>
            rw [hplan, List.modifyHead_cons, List.mem_cons] at hmem
            rcases hmem with rfl | hmem
            · exact Or.inr hstatus
            · exact Or.inl (List.mem_cons_of_mem head hmem)
        · exact Or.inr hmem

variable {before : TaskStatus}

/-- With one task on either side, recording the status of an id leaves it the
    validated status. -/
theorem statusesOf_foldl_record_single (h : ∀ input ∈ inputs, input.Describes validated)
    (hvalidated : validated.statusesOf id = [status]) (hplan : plan.statusesOf id = [before])
    (hrecorded : before = status ∨ id ≠ [] ∧ ∃ input ∈ inputs,
      input.eventType = .taskStatusChanged ∧ input.taskId = some id) :
    (inputs.foldl LedgerEventInput.record plan).statusesOf id = [status] := by
  induction inputs generalizing plan before with
  | nil =>
    rcases hrecorded with rfl | ⟨-, input, hinput, -⟩
    · exact hplan
    · cases hinput
  | cons input inputs ih =>
    obtain ⟨hinput, hinputs⟩ := List.forall_mem_cons.mp h
    rcases hinput.statusesOf_record id with hsame | ⟨hmissing, -⟩ | ⟨set, hset, hhead⟩
    · rcases hrecorded with rfl | ⟨hid, recording, hmem, htype, htask⟩
      · exact ih hinputs ((hsame plan).trans hplan) (Or.inl rfl)
      rcases List.mem_cons.mp hmem with rfl | hlater
      · -- the event for a non-empty id does set a status
        have hset : (recording.record plan).statusesOf id = [status] := by
          cases hinput with
          | removal _ hremoval => rw [htype] at hremoval; cases hremoval
          | status task _ htaskId hstatus hmem =>
            have htaskStatus : task.status = status := by
              have hid' : task.id = id := Option.some.inj (htaskId.symm.trans htask)
              have hsome : task.status ∈ validated.statusesOf id :=
                Plan.mem_statusesOf.mpr ⟨task, hmem, hid', rfl⟩
              rwa [hvalidated, List.mem_singleton] at hsome
            have htruthy : truthyString (some id) = some id := by
              simp [truthyString, Option.filter, hid]
            rw [LedgerEventInput.record, htype, htask, hstatus, htruthy]
            rw [Plan.statusesOf_setTaskStatus, if_pos rfl, hplan, htaskStatus]
            rfl
        exact ih hinputs hset (Or.inl rfl)
      · exact ih hinputs ((hsame plan).trans hplan)
          (Or.inr ⟨hid, recording, hlater, htype, htask⟩)
    · rw [hvalidated] at hmissing
      cases hmissing
    · have hstatus : set = status := by rwa [hvalidated, List.mem_singleton] at hset
      have hset : (input.record plan).statusesOf id = [status] := by
        rw [hhead, hplan, hstatus]
        rfl
      exact ih hinputs hset (Or.inl rfl)

theorem exists_statusInput (hcurrent : current.statusesOf id = [before])
    (hvalidated : validated.statusesOf id = [status]) (hne : before ≠ status) :
    ∃ input ∈ statusInputs current validated,
      input.eventType = .taskStatusChanged ∧ input.taskId = some id := by
  have hmem : status ∈ validated.statusesOf id := by rw [hvalidated]; exact List.mem_singleton_self _
  obtain ⟨task, htask, rfl, rfl⟩ := Plan.mem_statusesOf.mp hmem
  obtain ⟨phase, hphase, htask⟩ := List.mem_flatMap.mp htask
  have hold : ∃ old, lastTask current task.id = some old := by
    have hbefore : before ∈ current.statusesOf task.id := by
      rw [hcurrent]
      exact List.mem_singleton_self _
    obtain ⟨old, hmem, hid, -⟩ := Plan.mem_statusesOf.mp hbefore
    rw [← Option.isSome_iff_exists, lastTask, List.find?_isSome]
    exact ⟨old, List.mem_reverse.mpr hmem, beq_iff_eq.mpr hid⟩
  obtain ⟨old, hold⟩ := hold
  have hstatus : old.status = before := by
    have hid : old.id = task.id := by simpa using List.find?_some hold
    have hsome : old.status ∈ current.statusesOf task.id :=
      Plan.mem_statusesOf.mpr
        ⟨old, List.mem_reverse.mp (List.mem_of_find?_eq_some hold), hid, rfl⟩
    rwa [hcurrent, List.mem_singleton] at hsome
  have hinput : ∃ input, statusInput current validated phase task = some input := by
    rw [statusInput, hold]
    dsimp only
    rw [if_pos (by rw [hstatus]; exact hne)]
    exact ⟨_, rfl⟩
  obtain ⟨input, hinput⟩ := hinput
  obtain ⟨-, -, -, -, htype, htaskId, -⟩ := statusInput_eq_some hinput
  exact ⟨input, mem_statusInputs.mpr ⟨phase, hphase, task, htask, hinput⟩, htype, htaskId⟩

end OpencodeSwarm
