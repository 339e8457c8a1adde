/-
  OpencodeSwarm.Plan.TaskView

  Replay as one task id sees it.  A plan shows an id the statuses of the tasks
  that carry it, in plan order; `PlanSchema` does not ask ids to be distinct, so
  this is a list.  Every ledger event edits that list by itself: a status event
  sets its head, a removal drops it, a root that embeds a plan replaces it.
-/
import OpencodeSwarm.Plan.Replay

namespace OpencodeSwarm

open Js

/-- The statuses of the tasks with this id, in plan order. -/
def Plan.statusesOf (plan : Plan) (id : JsString) : List TaskStatus :=
  (plan.tasks.filter fun task => task.id == id).map Task.status

variable {plan : Plan} {id : JsString}

theorem Plan.statusesOf_ne_nil_iff :
    plan.statusesOf id ≠ [] ↔ ∃ task ∈ plan.tasks, task.id = id := by
  simp [Plan.statusesOf, List.filter_eq_nil_iff]

theorem Plan.mem_statusesOf {status : TaskStatus} :
    status ∈ plan.statusesOf id ↔ ∃ task ∈ plan.tasks, task.id = id ∧ task.status = status := by
  simp [Plan.statusesOf, and_assoc]

/-! ## The edits -/

/-- What one event does to the statuses of an id. -/
def LedgerEvent.editStatuses (event : LedgerEvent) (id : JsString) (statuses : List TaskStatus) :
    List TaskStatus :=
  match event.eventType with
  | .planCreated => (event.embeddedPlan.map fun plan => plan.statusesOf id).getD statuses
  | .taskStatusChanged =>
    match truthyString event.taskId, event.toStatus with
    | some taskId, some status =>
      if taskId = id then statuses.modifyHead fun _ => status else statuses
    | _, _ => statuses
  | .taskRemoved =>
    match truthyString event.taskId with
    | some taskId => if taskId = id then statuses.tail else statuses
    | none => statuses
  | _ => statuses

def editStatuses (events : List LedgerEvent) (id : JsString) (statuses : List TaskStatus) :
    List TaskStatus :=
  events.foldl (fun statuses event => event.editStatuses id statuses) statuses

theorem editStatuses_cons (event : LedgerEvent) (events : List LedgerEvent) (id : JsString)
    (statuses : List TaskStatus) : editStatuses (event :: events) id statuses
      = editStatuses events id (event.editStatuses id statuses) := rfl

/-! ## Replay edits statuses -/

theorem Plan.tasks_setTaskStatus (plan : Plan) (taskId : JsString) (status : TaskStatus) :
    (plan.setTaskStatus taskId status).tasks
      = plan.tasks.modifyFirst (fun task => task.id == taskId)
          fun task => { task with status := status } := by
  refine List.flatMap_modifyFirst Phase.tasks
    (List.modifyFirst (fun task => task.id == taskId) fun task => { task with status := status })
    rfl ?_ ?_ plan.phases
  · exact List.modifyFirst_append _ _
  · intro phase
    rfl

theorem Plan.tasks_removeTask (plan : Plan) (taskId : JsString) :
    (plan.removeTask taskId).tasks = plan.tasks.eraseP fun task => task.id == taskId := by
  refine List.flatMap_modifyFirst Phase.tasks (List.eraseP fun task => task.id == taskId)
    rfl ?_ ?_ plan.phases
  · intro xs ys
    rw [List.eraseP_append]
  · intro phase
    rfl

theorem Plan.tasks_completePhase (plan : Plan) (phaseId : Nat) :
    (plan.completePhase phaseId).tasks = plan.tasks := by
  have hphases : (plan.completePhase phaseId).phases.map Phase.tasks
      = plan.phases.map Phase.tasks := by
    rw [Plan.completePhase, List.map_modifyFirst_of_eq]
    intro phase _
    rfl
  rw [Plan.tasks, Plan.tasks, List.flatMap_def, List.flatMap_def, hphases]

theorem map_status_modifyHead (status : TaskStatus) (tasks : List Task) :
    (tasks.modifyHead fun task => { task with status := status }).map Task.status
      = (tasks.map Task.status).modifyHead fun _ => status := by
  cases tasks <;> rfl

theorem Plan.statusesOf_setTaskStatus (plan : Plan) (taskId id : JsString) (status : TaskStatus) :
    (plan.setTaskStatus taskId status).statusesOf id
      = if taskId = id then (plan.statusesOf id).modifyHead fun _ => status
        else plan.statusesOf id := by
  rw [Plan.statusesOf, Plan.statusesOf, Plan.tasks_setTaskStatus]
  split_ifs with hid
  · subst hid
    rw [List.filter_modifyFirst_self, map_status_modifyHead]
    intro task
    rfl
  · rw [List.filter_modifyFirst_of_disjoint]
    intro task htask
    have hne : (task.id == id) = false := by
      rw [beq_iff_eq] at htask
      simpa [htask] using hid
    exact ⟨hne, hne⟩

theorem Plan.statusesOf_removeTask (plan : Plan) (taskId id : JsString) :
    (plan.removeTask taskId).statusesOf id
      = if taskId = id then (plan.statusesOf id).tail else plan.statusesOf id := by
  rw [Plan.statusesOf, Plan.statusesOf, Plan.tasks_removeTask]
  split_ifs with hid
  · subst hid
    rw [List.filter_eraseP_self, List.map_tail]
  · rw [List.filter_eraseP_of_disjoint]
    intro task htask
    rw [beq_iff_eq] at htask
    simpa [htask] using hid

@[simp] theorem Plan.statusesOf_normalizeCurrentPhase (plan : Plan) (id : JsString) :
    (normalizeCurrentPhase plan).statusesOf id = plan.statusesOf id := rfl

variable {plan' : Plan} {event : LedgerEvent}

theorem statusesOf_applyEventToPlan (h : applyEventToPlan plan event = .ok (some plan'))
    (id : JsString) : plan'.statusesOf id = event.editStatuses id (plan.statusesOf id) := by
  unfold applyEventToPlan at h
  unfold LedgerEvent.editStatuses
  cases htype : event.eventType <;> rw [htype] at h <;> dsimp only at h ⊢
  case planCreated =>
    -- an embedded plan replaces the replayed one
    cases h
    cases event.embeddedPlan <;> rfl
  case taskStatusChanged =>
    cases htask : truthyString event.taskId with
    | none =>
      rw [htask] at h
      cases h
      rfl
    | some taskId =>
      cases hstatus : event.toStatus with
      | none =>
        rw [htask, hstatus] at h
        cases h
        rfl
      | some status =>
        rw [htask, hstatus] at h
        cases h
        exact Plan.statusesOf_setTaskStatus plan taskId id status
  case phaseCompleted =>
    cases hphase : event.phaseId.filter (· ≠ 0) with
    | none =>
      rw [hphase] at h
      cases h
      rfl
    | some phaseId =>
      rw [hphase] at h
      cases h
      rw [Plan.statusesOf, Plan.tasks_completePhase, Plan.statusesOf]
  case taskRemoved =>
    cases htask : truthyString event.taskId with
    | none =>
      rw [htask] at h
      cases h
      rfl
    | some taskId =>
      rw [htask] at h
      cases h
      exact Plan.statusesOf_removeTask plan taskId id
  case executionProfileSet =>
    split at h
    all_goals cases h
    all_goals rfl
  all_goals cases h
  all_goals rfl

variable {events : List LedgerEvent}

theorem statusesOf_applyEvents (h : applyEvents plan events = .ok (some plan')) (id : JsString) :
    plan'.statusesOf id = editStatuses events id (plan.statusesOf id) := by
  induction events generalizing plan with
  | nil =>
    cases h
    rfl
  | cons event events ih =>
    rw [applyEvents] at h
    split at h
    · cases h
    · cases h
    · next next hnext => rw [ih h, statusesOf_applyEventToPlan hnext, editStatuses_cons]

/-! ## Replaying twice

A legacy ledger has no embedded plan and replays over plan.json.  Once the
replayed statuses are in plan.json, replaying over them changes nothing more. -/

/-- The event replaces the replayed plan by an embedded one. -/
def LedgerEvent.replacesPlan (event : LedgerEvent) : Bool :=
  event.eventType = .planCreated ∧ event.embeddedPlan.isSome

/-- The event drops a task with this id. -/
def LedgerEvent.dropsTask (event : LedgerEvent) (id : JsString) : Bool :=
  event.eventType = .taskRemoved ∧ truthyString event.taskId = some id

/-- Set the head of a status list, or leave the list alone. -/
def setHead (status : Option TaskStatus) (statuses : List TaskStatus) : List TaskStatus :=
  match status with
  | some status => statuses.modifyHead fun _ => status
  | none => statuses

theorem setHead_setHead (later earlier : Option TaskStatus) (statuses : List TaskStatus) :
    setHead later (setHead earlier statuses) = setHead (later.or earlier) statuses := by
  cases later <;> cases earlier <;> cases statuses <;> rfl

theorem setHead_idem (status : Option TaskStatus) (statuses : List TaskStatus) :
    setHead status (setHead status statuses) = setHead status statuses := by
  rw [setHead_setHead, Option.or_self]

/-- An event that embeds no plan drops the head, or sets it, or does nothing. -/
theorem LedgerEvent.editStatuses_cases (h : event.replacesPlan = false) (id : JsString) :
    (event.dropsTask id = true ∧ ∀ statuses, event.editStatuses id statuses = statuses.tail)
      ∨ (event.dropsTask id = false
        ∧ ∃ status, ∀ statuses, event.editStatuses id statuses = setHead status statuses) := by
  unfold LedgerEvent.replacesPlan at h
  unfold LedgerEvent.dropsTask LedgerEvent.editStatuses
  cases htype : event.eventType with
  | planCreated =>
    have hnone : event.embeddedPlan = none := by simpa [htype] using h
    exact Or.inr ⟨by simp, none, fun statuses => by simp [hnone, setHead]⟩
  | taskStatusChanged =>
    refine Or.inr ⟨by simp, ?_⟩
    dsimp only
    split
    · next taskId status htask hstatus =>
      by_cases hid : taskId = id
      · exact ⟨some status, fun statuses => if_pos hid⟩
      · exact ⟨none, fun statuses => if_neg hid⟩
    · exact ⟨none, fun statuses => rfl⟩
  | taskRemoved =>
    dsimp only
    split
    · next taskId htask =>
      by_cases hid : taskId = id
      · exact Or.inl ⟨by simp [htask, hid], fun statuses => if_pos hid⟩
      · exact Or.inr ⟨by simp [htask, hid], none, fun statuses => if_neg hid⟩
    · next htask => exact Or.inr ⟨by simp [htask], none, fun statuses => rfl⟩
  | _ => exact Or.inr ⟨by simp, none, fun statuses => rfl⟩

/-- Either some embedded plan decides the outcome, or none is embedded. -/
theorem editStatuses_const_or (events : List LedgerEvent) (id : JsString) :
    (∃ final, ∀ statuses, editStatuses events id statuses = final)
      ∨ ∀ event ∈ events, event.replacesPlan = false := by
  induction events with
  | nil => exact Or.inr (by simp)
  | cons event events ih =>
    rcases ih with ⟨final, hfinal⟩ | hnone
    · exact Or.inl ⟨final, fun statuses => hfinal _⟩
    cases hreplaces : event.replacesPlan with
    | false => exact Or.inr (List.forall_mem_cons.mpr ⟨hreplaces, hnone⟩)
    | true =>
      obtain ⟨htype, hplan⟩ := of_decide_eq_true hreplaces
      obtain ⟨plan, hplan⟩ := Option.isSome_iff_exists.mp hplan
      refine Or.inl ⟨editStatuses events id (plan.statusesOf id), fun statuses => ?_⟩
      rw [editStatuses_cons, LedgerEvent.editStatuses, htype, hplan]
      rfl

/-- Without an embedded plan, each removal of the id costs one task. -/
theorem length_editStatuses (h : ∀ event ∈ events, event.replacesPlan = false) (id : JsString)
    (statuses : List TaskStatus) : (editStatuses events id statuses).length
      = statuses.length - events.countP fun event => event.dropsTask id := by
  induction events generalizing statuses with
  | nil => rfl
  | cons event events ih =>
    obtain ⟨hevent, hevents⟩ := List.forall_mem_cons.mp h
    rw [editStatuses_cons, ih hevents]
    rcases event.editStatuses_cases hevent id with ⟨hdrop, hedit⟩ | ⟨hkeep, status, hedit⟩
    · rw [hedit, List.countP_cons, hdrop, List.length_tail]
      simp only [if_true]
      omega
    · rw [hedit, List.countP_cons, hkeep]
      cases status <;> simp [setHead]

/-- Without an embedded plan or a removal of the id, replay sets the head. -/
theorem editStatuses_eq_setHead
    (h : ∀ event ∈ events, event.replacesPlan = false ∧ event.dropsTask id = false) :
    ∃ status, ∀ statuses, editStatuses events id statuses = setHead status statuses := by
  induction events with
  | nil => exact ⟨none, fun statuses => rfl⟩
  | cons event events ih =>
    obtain ⟨⟨hevent, hkept⟩, hevents⟩ := List.forall_mem_cons.mp h
    obtain ⟨later, hlater⟩ := ih hevents
    rcases event.editStatuses_cases hevent id with ⟨hdrop, -⟩ | ⟨-, earlier, hedit⟩
    · rw [hdrop] at hkept
      cases hkept
    · refine ⟨later.or earlier, fun statuses => ?_⟩
      rw [editStatuses_cons, hedit, hlater, setHead_setHead]

/-- Replaying once more over statuses that a replay already reached. -/
theorem editStatuses_again {new : List LedgerEvent} {statuses : List TaskStatus}
    (hold : editStatuses events id statuses = statuses)
    (hdrop : (∃ event ∈ new, event.dropsTask id = true) →
      editStatuses (events ++ new) id statuses = []) :
    editStatuses (events ++ new) id (editStatuses (events ++ new) id statuses)
      = editStatuses (events ++ new) id statuses := by
  rcases editStatuses_const_or (events ++ new) id with ⟨final, hfinal⟩ | hnone
  · rw [hfinal, hfinal]
  have hevents : ∀ event ∈ events, event.replacesPlan = false :=
    fun event hevent => hnone event (List.mem_append_left new hevent)
  by_cases hnil : editStatuses (events ++ new) id statuses = []
  · rw [hnil, ← List.length_eq_zero_iff, length_editStatuses hnone]
    exact Nat.zero_sub _
  · -- no event drops the id: an old one would have shortened the list, and
    -- after a new one nothing is left
    have hlen := length_editStatuses hevents id statuses
    have hlen' := length_editStatuses hnone id statuses
    have hpos : (editStatuses (events ++ new) id statuses).length ≠ 0 :=
      fun h => hnil (List.length_eq_zero_iff.mp h)
    have hcount : events.countP (fun event => event.dropsTask id) = 0 := by
      rw [hold] at hlen
      omega
    have hkept : ∀ event ∈ events ++ new, event.dropsTask id = false := by
      intro event hevent
      rcases List.mem_append.mp hevent with hold | hnew
      · simpa using List.countP_eq_zero.mp hcount event hold
      · rw [Bool.eq_false_iff]
        exact fun h => hnil (hdrop ⟨event, hnew, h⟩)
    obtain ⟨status, hstatus⟩ := editStatuses_eq_setHead fun event hevent =>
      ⟨hnone event hevent, hkept event hevent⟩
    rw [hstatus, hstatus, setHead_idem]

end OpencodeSwarm
