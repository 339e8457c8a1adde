/-
  OpencodeSwarm.Turbo.LanePlan

  A lane plan loses and duplicates no task.  The rounds place the tasks of the
  order one by one; what is left over without a predicate is nothing, and with
  one the sweep takes it.
-/
import Mathlib.Data.List.Pairwise
import OpencodeSwarm.Turbo.LaneOrder

namespace OpencodeSwarm

open Js

/-! ## The rounds -/

section Rounds

variable {host : PlanningHost} {config : LanePlannerConfig} {preflight : PartitionPreflight}
  {isUpstreamCommitted : Option (JsString → Bool)} {start : List JsString}
  {order : List ClassifiedTask} {state : LanePlanState}

theorem LanesKept.foldl_placeTask (config : LanePlannerConfig)
    (taskMap : OrderedMap JsString ClassifiedTask) (h : LanesKept start order state)
    {batch : List ClassifiedTask}
    (hnodup : (taskIdsOf batch).Nodup) (hfresh : ∀ id ∈ taskIdsOf batch, id ∉ state.assignedTasks) :
    LanesKept start (order ++ batch) (batch.foldl (placeTask config taskMap) state) := by
  induction batch generalizing order state with
  | nil =>
    rw [List.append_nil]
    exact h
  | cons first rest ih =>
    obtain ⟨hfirst, hrest⟩ := List.nodup_cons.mp hnodup
    have hstep := h.take config taskMap
      (hfresh first.task.id List.mem_cons_self)
    have hassigned : (placeTask config taskMap state first).assignedTasks
        = state.assignedTasks ++ [first.task.id] := by
      rw [hstep.assigned, h.assigned, taskIdsOf_append, List.append_assoc]
      rfl
    rw [List.foldl_cons, ← List.singleton_append, ← List.append_assoc]
    refine ih hstep hrest fun id hid hmem => ?_
    rw [hassigned] at hmem
    rcases List.mem_append.mp hmem with hold | hnew
    · exact hfresh id (List.mem_cons_of_mem _ hid) hold
    · rw [List.mem_singleton.mp hnew] at hid
      exact hfirst hid

theorem LanesKept.planRounds_eq (hpreflight : IsPreflight host preflight)
    (h : LanesKept start order state) (rounds : Nat) :
    planRounds host config preflight isUpstreamCommitted rounds state
      = (laneOrder host preflight isUpstreamCommitted rounds state.assignedTasks).foldl
          (placeTask config preflight.taskMap) state := by
  induction rounds generalizing order state with
  | zero => rfl
  | succ rounds ih =>
    dsimp only [planRounds, laneOrder]
    split
    · rfl
    have hfresh : ∀ id ∈ taskIdsOf
        (readyLaneTasks host preflight isUpstreamCommitted state.assignedTasks),
        id ∉ state.assignedTasks := by
      intro id hid
      obtain ⟨classified, hmem, rfl⟩ := List.mem_map.mp hid
      exact (mem_readyLaneTasks.mp hmem).2.1
    have hbatch := h.foldl_placeTask config preflight.taskMap
      (nodup_readyLaneTasks isUpstreamCommitted hpreflight state.assignedTasks) hfresh
    rw [List.foldl_append, ih hbatch, hbatch.assigned, h.assigned, taskIdsOf_append,
      List.append_assoc]

/-- The order of a plan. -/
def planOrder (host : PlanningHost) (preflight : PartitionPreflight)
    (isUpstreamCommitted : Option (JsString → Bool)) : List ClassifiedTask :=
  laneOrder host preflight isUpstreamCommitted preflight.sortedTasks.length preflight.tasksInCycle

theorem length_unassignedTasks_le (preflight : PartitionPreflight) (assignedTasks : List JsString) :
    (unassignedTasks preflight assignedTasks).length ≤ preflight.sortedTasks.length :=
  List.length_filter_le _ _

/-- The loop ends by itself, and then has placed the tasks of the order. -/
theorem planRounds_spec (config : LanePlannerConfig) (hpreflight : IsPreflight host preflight)
    (isUpstreamCommitted : Option (JsString → Bool)) {rounds : Nat}
    (hrounds : preflight.sortedTasks.length ≤ rounds) :
    planRounds host config preflight isUpstreamCommitted rounds
        (lanePlanStart preflight.tasksInCycle)
      = (planOrder host preflight isUpstreamCommitted).foldl (placeTask config preflight.taskMap)
          (lanePlanStart preflight.tasksInCycle) := by
  have hstart := lanesKept_lanePlanStart preflight.tasksInCycle
  rw [hstart.planRounds_eq hpreflight]
  have hle := length_unassignedTasks_le preflight preflight.tasksInCycle
  rw [planOrder, ← laneOrder_enough (hle.trans hrounds) hle]
  rfl

theorem lanesKept_planRounds (config : LanePlannerConfig) (hpreflight : IsPreflight host preflight)
    (isUpstreamCommitted : Option (JsString → Bool)) :
    LanesKept preflight.tasksInCycle (planOrder host preflight isUpstreamCommitted)
      (planRounds host config preflight isUpstreamCommitted preflight.sortedTasks.length
        (lanePlanStart preflight.tasksInCycle)) := by
  rw [planRounds_spec config hpreflight isUpstreamCommitted (le_refl _)]
  have horder : IsLaneOrder preflight preflight.tasksInCycle
      (planOrder host preflight isUpstreamCommitted) := isLaneOrder_laneOrder hpreflight _ _
  exact (lanesKept_lanePlanStart preflight.tasksInCycle).foldl_placeTask config preflight.taskMap
    horder.nodup horder.fresh

end Rounds

/-! ## The sweep -/

section Sweep

variable {host : PlanningHost} {preflight : PartitionPreflight}

/-- What a state tells of the tasks: where each of the assigned ones went. -/
structure TasksPlaced (kept : List ClassifiedTask) (state : LanePlanState) : Prop where
  lanes : state.lanes = keptLanes kept
  nodup : state.assignedTasks.Nodup
  parts : (taskIdsOf kept ++ state.serializedTasks
    ++ state.degradedTasks.map fun degraded => degraded.taskId).Perm state.assignedTasks

variable {kept : List ClassifiedTask}

theorem sweepTask_spec (preflight : PartitionPreflight) (committed : JsString → Bool)
    {state : LanePlanState} (h : TasksPlaced kept state) (classified : ClassifiedTask) :
    TasksPlaced kept (sweepTask preflight committed state classified)
      ∧ ∀ id, id ∈ (sweepTask preflight committed state classified).assignedTasks
          ↔ id ∈ state.assignedTasks ∨ id = classified.task.id := by
  unfold sweepTask
  split
  · next hassigned =>
    refine ⟨h, fun id => ⟨Or.inl, ?_⟩⟩
    rintro (hold | rfl)
    · exact hold
    · exact hassigned
  · next hnew =>
    refine ⟨⟨h.lanes, ?_, ?_⟩, fun id => ?_⟩
    · show (state.assignedTasks ++ [classified.task.id]).Nodup
      refine List.nodup_append.mpr ⟨h.nodup, List.nodup_singleton _, ?_⟩
      rintro id hid other hother rfl
      exact hnew (List.mem_singleton.mp hother ▸ hid)
    · show (_ ++ state.serializedTasks ++ (state.degradedTasks
        ++ [(⟨classified.task.id, _, classified.files, .balanced⟩ : LeanTurboDegradedTask)]).map
          fun degraded => degraded.taskId).Perm (state.assignedTasks ++ [classified.task.id])
      rw [List.map_append, ← List.append_assoc]
      exact h.parts.append_right _
    · show id ∈ state.assignedTasks ++ [classified.task.id] ↔ _
      rw [List.mem_append, List.mem_singleton]

theorem foldl_sweepTask_spec (preflight : PartitionPreflight) (committed : JsString → Bool)
    {state : LanePlanState} (h : TasksPlaced kept state) (tasks : List ClassifiedTask) :
    TasksPlaced kept (tasks.foldl (sweepTask preflight committed) state)
      ∧ ∀ id, id ∈ (tasks.foldl (sweepTask preflight committed) state).assignedTasks
          ↔ id ∈ state.assignedTasks ∨ id ∈ taskIdsOf tasks := by
  induction tasks generalizing state with
  | nil => exact ⟨h, fun id => by simp⟩
  | cons first rest ih =>
    obtain ⟨hplaced, hassigned⟩ := sweepTask_spec preflight committed h first
    obtain ⟨hend, hall⟩ := ih hplaced
    refine ⟨hend, fun id => ?_⟩
    rw [List.foldl_cons, hall, hassigned, or_assoc]
    simp

/-- At the end every task of the map is assigned, and nothing else. -/
theorem lanePlanEnd_spec (config : LanePlannerConfig) (hpreflight : IsPreflight host preflight)
    (isUpstreamCommitted : Option (JsString → Bool)) :
    TasksPlaced (Greedy.keep laneAdmits (planOrder host preflight isUpstreamCommitted))
        (lanePlanEnd host config preflight isUpstreamCommitted)
      ∧ ∀ id, id ∈ (lanePlanEnd host config preflight isUpstreamCommitted).assignedTasks
          ↔ id ∈ preflight.taskMap.keys := by
  have hrounds := lanesKept_planRounds config hpreflight isUpstreamCommitted
  have horder : IsLaneOrder preflight preflight.tasksInCycle
      (planOrder host preflight isUpstreamCommitted) := isLaneOrder_laneOrder hpreflight _ _
  have hkeys : ∀ classified ∈ preflight.sortedTasks,
      classified.task.id ∈ preflight.taskMap.keys := by
    intro classified hmem
    rw [OrderedMap.mem_keys_iff, hpreflight.get?_of_mem_sortedTasks hmem]
    rfl
  have hend : isUpstreamCommitted = none → ∀ classified ∈ preflight.sortedTasks,
      classified.task.id ∈ preflight.tasksInCycle
        ++ taskIdsOf (planOrder host preflight isUpstreamCommitted) := by
    rintro rfl
    exact sorted_assigned_of_end hpreflight
      (readyLaneTasks_end _ _ (length_unassignedTasks_le preflight _))
  unfold lanePlanEnd
  generalize planRounds host config preflight isUpstreamCommitted preflight.sortedTasks.length
    (lanePlanStart preflight.tasksInCycle) = state at hrounds
  generalize planOrder host preflight isUpstreamCommitted = order at hrounds horder hend
  have hplaced : TasksPlaced (Greedy.keep laneAdmits order) state := by
    refine ⟨hrounds.lanes, ?_, hrounds.parts⟩
    rw [hrounds.assigned, hpreflight.cycle]
    refine List.nodup_append.mpr ⟨hpreflight.taskMap.nodup.filter _, horder.nodup, ?_⟩
    rintro id hcycle other hother rfl
    rw [← hpreflight.cycle] at hcycle
    exact horder.fresh id hother hcycle
  have hsubset : ∀ id ∈ state.assignedTasks, id ∈ preflight.taskMap.keys := by
    intro id hid
    rw [hrounds.assigned] at hid
    rcases List.mem_append.mp hid with hcycle | hordered
    · exact (hpreflight.mem_tasksInCycle_iff.mp hcycle).1
    · obtain ⟨classified, hmem, rfl⟩ := List.mem_map.mp hordered
      exact hkeys classified (horder.sorted classified hmem)
  have hcover : ∀ id ∈ preflight.taskMap.keys,
      id ∈ state.assignedTasks ∨ id ∈ taskIdsOf preflight.sortedTasks := by
    intro id hid
    by_cases hsorted : id ∈ taskIdsOf preflight.sortedTasks
    · exact Or.inr hsorted
    · rw [hrounds.assigned]
      exact Or.inl (List.mem_append_left _ (hpreflight.mem_tasksInCycle_iff.mpr ⟨hid, hsorted⟩))
  unfold sweepLeftovers
  cases isUpstreamCommitted with
  | none =>
    refine ⟨hplaced, fun id => ⟨hsubset id, fun hid => ?_⟩⟩
    rcases hcover id hid with hassigned | hsorted
    · exact hassigned
    · obtain ⟨classified, hmem, rfl⟩ := List.mem_map.mp hsorted
      rw [hrounds.assigned]
      exact hend rfl classified hmem
  | some committed =>
    obtain ⟨hswept, hassigned⟩ :=
      foldl_sweepTask_spec preflight committed hplaced preflight.sortedTasks
    refine ⟨hswept, fun id => ?_⟩
    rw [hassigned]
    constructor
    · rintro (hold | hsorted)
      · exact hsubset id hold
      · obtain ⟨classified, hmem, rfl⟩ := List.mem_map.mp hsorted
        exact hkeys classified hmem
    · exact hcover id

end Sweep

/-! ## The plan -/

section Plan

variable (host : PlanningHost) (readTaskScopes : JsString → Option (List JsString))
  (directory : JsString) (config : LanePlannerConfig) (scopes : JsString → Option (List JsString))
  (isUpstreamCommitted : Option (JsString → Bool))

/-- The preflight of a phase. -/
def lanePreflight (phase : Phase) : PartitionPreflight :=
  runPartitionPreflight host readTaskScopes directory (lanePendingTasks phase)
    config.toLeanTurboConfig scopes

/-- The paths of a task, as the preflight validated them. -/
def PartitionPreflight.filesOf (preflight : PartitionPreflight) (id : JsString) : List JsString :=
  match preflight.taskMap.get? id with
  | none => []
  | some classified => classified.files

/-- The tasks that a plan puts anywhere. -/
def plannedTasks (plan : LeanTurboLanePlan) : List JsString :=
  (plan.lanes.flatMap fun lane => lane.taskIds) ++ plan.serializedTasks
    ++ plan.degradedTasks.map fun degraded => degraded.taskId

/-- A plan that neither loses nor duplicates a task of its phase. -/
structure LanePlanSound (config : LanePlannerConfig) (filesOf : JsString → List JsString)
    (phase : Phase) (plan : LeanTurboLanePlan) : Prop where
  once : ∀ task ∈ phase.tasks, task.status ≠ .completed → (plannedTasks plan).count task.id = 1
  pending : ∀ id ∈ plannedTasks plan, ∃ task ∈ phase.tasks, task.id = id ∧ task.status ≠ .completed
  completed : ∀ task ∈ phase.tasks, task.status = .completed → task.id ∉ plannedTasks plan
  width : plan.lanes.length ≤ config.maxParallelCoders
  files : ∀ lane ∈ plan.lanes, lane.files = lane.taskIds.flatMap filesOf
  apart : ∀ a ∈ plan.lanes.flatMap (fun lane => lane.taskIds),
    ∀ b ∈ plan.lanes.flatMap (fun lane => lane.taskIds), a ≠ b →
      ∀ file ∈ filesOf a, ∀ other ∈ filesOf b, pathsConflict file other = false

theorem planLeanTurboLanes_eq (now : Nat) {phaseNumber : Nat} {phases : List Phase} {phase : Phase}
    (hphase : (phases.find? fun phase => phase.id = phaseNumber) = some phase) :
    (planLeanTurboLanes host now readTaskScopes directory phaseNumber phases config scopes
        isUpstreamCommitted).lanes
      = (lanePlanEnd host config (lanePreflight host readTaskScopes directory config scopes phase)
          isUpstreamCommitted).lanes
    ∧ (planLeanTurboLanes host now readTaskScopes directory phaseNumber phases config scopes
        isUpstreamCommitted).serializedTasks
      = (lanePlanEnd host config (lanePreflight host readTaskScopes directory config scopes phase)
          isUpstreamCommitted).serializedTasks
    ∧ (planLeanTurboLanes host now readTaskScopes directory phaseNumber phases config scopes
        isUpstreamCommitted).degradedTasks
      = (lanePlanEnd host config (lanePreflight host readTaskScopes directory config scopes phase)
          isUpstreamCommitted).degradedTasks := by
  rw [planLeanTurboLanes, hphase]
  dsimp only
  split
  · next hempty =>
    rw [lanePreflight, hempty]
    cases isUpstreamCommitted with
    | none | some committed => exact ⟨rfl, rfl, rfl⟩
  · exact ⟨rfl, rfl, rfl⟩

@[simp] theorem taskIds_keptLanes (kept : List ClassifiedTask) :
    (keptLanes kept).flatMap (fun lane => lane.taskIds) = taskIdsOf kept := by
  unfold keptLanes
  split
  · next hempty =>
    rw [hempty]
    rfl
  · exact List.append_nil _

theorem filesConflict_of_kept {order : List ClassifiedTask} {a b : ClassifiedTask}
    (ha : a ∈ Greedy.keep laneAdmits order) (hb : b ∈ Greedy.keep laneAdmits order)
    (hne : a ≠ b) : filesConflict a b = false := by
  have hsymm : ∀ c d, filesConflict c d = filesConflict d c := by
    intro c d
    unfold filesConflict
    rw [Bool.eq_iff_iff]
    simp only [List.any_eq_true]
    constructor
    · rintro ⟨file, hfile, other, hother, hconflict⟩
      exact ⟨other, hother, file, hfile, pathsConflict_comm file other ▸ hconflict⟩
    · rintro ⟨file, hfile, other, hother, hconflict⟩
      exact ⟨other, hother, file, hfile, pathsConflict_comm file other ▸ hconflict⟩
  have hstd : Std.Symm fun c d : ClassifiedTask => filesConflict d c = false :=
    ⟨fun c d hcd => (hsymm c d).trans hcd⟩
  have hpairwise := Greedy.pairwise_keep laneAdmits (R := fun c d => filesConflict d c = false)
    (fun kept last hadmits other hother => by
      rw [laneAdmits, Bool.and_eq_true, Bool.not_eq_true', List.any_eq_false] at hadmits
      exact Bool.not_eq_true _ ▸ hadmits.2 other hother) order
  exact hpairwise.forall hb ha hne.symm

/-- Planning the lanes of a phase ends, and loses and duplicates no task. -/
theorem lanePlanSound_planLeanTurboLanes (host : PlanningHost) (now : Nat)
    (readTaskScopes : JsString → Option (List JsString)) (directory : JsString) (phaseNumber : Nat)
    (phases : List Phase) (config : LanePlannerConfig) (scopes : JsString → Option (List JsString))
    (isUpstreamCommitted : Option (JsString → Bool)) (phase : Phase)
    (hphase : (phases.find? fun phase => phase.id = phaseNumber) = some phase)
    (hdistinct : (phase.tasks.map fun task => task.id).Nodup) :
    (∀ rounds, (lanePreflight host readTaskScopes directory config scopes phase).sortedTasks.length
          ≤ rounds →
        planRounds host config (lanePreflight host readTaskScopes directory config scopes phase)
            isUpstreamCommitted rounds (lanePlanStart
              (lanePreflight host readTaskScopes directory config scopes phase).tasksInCycle)
          = planRounds host config
            (lanePreflight host readTaskScopes directory config scopes phase) isUpstreamCommitted
            (lanePreflight host readTaskScopes directory config scopes phase).sortedTasks.length
            (lanePlanStart
              (lanePreflight host readTaskScopes directory config scopes phase).tasksInCycle))
      ∧ LanePlanSound config (lanePreflight host readTaskScopes directory config scopes
            phase).filesOf phase
          (planLeanTurboLanes host now readTaskScopes directory phaseNumber phases config scopes
            isUpstreamCommitted) := by
  have hpreflight : IsPreflight host (lanePreflight host readTaskScopes directory config scopes
      phase) := isPreflight_runPartitionPreflight _ _ _ _ _ _
  have hkeys : ∀ id, id ∈ (lanePreflight host readTaskScopes directory config scopes
      phase).taskMap.keys ↔ id ∈ (lanePendingTasks phase).map fun task => task.id :=
    mem_keys_runPartitionPreflight_iff host readTaskScopes directory (lanePendingTasks phase)
      config.toLeanTurboConfig scopes
  obtain ⟨hlanes, hserialized, hdegraded⟩ := planLeanTurboLanes_eq host readTaskScopes directory
    config scopes isUpstreamCommitted now hphase
  generalize lanePreflight host readTaskScopes directory config scopes phase = preflight at *
  generalize planLeanTurboLanes host now readTaskScopes directory phaseNumber phases config scopes
    isUpstreamCommitted = plan at *
  obtain ⟨hplaced, hassigned⟩ := lanePlanEnd_spec config hpreflight isUpstreamCommitted
  have horder : IsLaneOrder preflight preflight.tasksInCycle
      (planOrder host preflight isUpstreamCommitted) := isLaneOrder_laneOrder hpreflight _ _
  have hone : plan.lanes = keptLanes (Greedy.keep laneAdmits
      (planOrder host preflight isUpstreamCommitted)) := hlanes.trans hplaced.lanes
  have hmem : ∀ classified ∈ Greedy.keep laneAdmits
      (planOrder host preflight isUpstreamCommitted), preflight.taskMap.get? classified.task.id
        = some classified := by
    intro classified hkept
    exact hpreflight.get?_of_mem_sortedTasks
      (horder.sorted classified ((Greedy.keep_sublist _ _).subset hkept))
  have hplanned : (plannedTasks plan).Perm
      (lanePlanEnd host config preflight isUpstreamCommitted).assignedTasks := by
    rw [plannedTasks, hone, taskIds_keptLanes, hserialized, hdegraded]
    exact hplaced.parts
  have hids : ∀ id, id ∈ plannedTasks plan
      ↔ id ∈ (lanePendingTasks phase).map fun task => task.id := fun id =>
    (hplanned.mem_iff.trans (hassigned id)).trans (hkeys id)
  have hpending : ∀ id ∈ plannedTasks plan, ∃ task ∈ phase.tasks, task.id = id
      ∧ task.status ≠ .completed := by
    intro id hid
    obtain ⟨task, htask, rfl⟩ := List.mem_map.mp ((hids id).mp hid)
    obtain ⟨hmem, hstatus⟩ := List.mem_filter.mp htask
    exact ⟨task, hmem, rfl, of_decide_eq_true hstatus⟩
  have hfiles : ∀ classified ∈ Greedy.keep laneAdmits
      (planOrder host preflight isUpstreamCommitted),
      preflight.filesOf classified.task.id = classified.files := by
    intro classified hkept
    rw [PartitionPreflight.filesOf, hmem classified hkept]
  refine ⟨fun rounds hrounds => ?_, ?_⟩
  · rw [planRounds_spec config hpreflight isUpstreamCommitted hrounds,
      planRounds_spec config hpreflight isUpstreamCommitted (le_refl _)]
  constructor
  · intro task htask hstatus
    apply List.count_eq_one_of_mem (hplanned.nodup_iff.mpr hplaced.nodup)
    refine (hids task.id).mpr (List.mem_map_of_mem (List.mem_filter.mpr ⟨htask, ?_⟩))
    exact decide_eq_true hstatus
  · exact hpending
  · intro task htask hstatus hid
    obtain ⟨other, hother, hsame, hopen⟩ := hpending task.id hid
    cases List.inj_on_of_nodup_map hdistinct hother htask hsame
    exact hopen hstatus
  · have hmin := config.minParallelCoders
    rw [hone]
    unfold keptLanes
    split
    · exact Nat.zero_le _
    · exact hmin
  · intro lane hlane
    rw [hone] at hlane
    unfold keptLanes at hlane
    split at hlane
    · cases hlane
    rw [List.mem_singleton.mp hlane]
    rw [List.flatMap_map]
    exact List.flatMap_congr fun classified hkept => (hfiles classified hkept).symm
  · rw [hone, taskIds_keptLanes]
    intro a ha b hb hne file hfile other hother
    obtain ⟨first, hfirst, rfl⟩ := List.mem_map.mp ha
    obtain ⟨second, hsecond, rfl⟩ := List.mem_map.mp hb
    rw [hfiles first hfirst] at hfile
    rw [hfiles second hsecond] at hother
    have hapart := filesConflict_of_kept hfirst hsecond (fun heq => hne (heq ▸ rfl))
    have hnone := List.any_eq_false.mp hapart file hfile
    rw [List.any_eq_true] at hnone
    rw [← Bool.not_eq_true]
    exact fun hconflict => hnone ⟨other, hother, hconflict⟩

end Plan

/-- A task of a lane plan. -/
def laneTask (id : String) (status : TaskStatus) (depends : List String) : Task :=
  { plainTask id status with depends := depends.map js }

/-- A global task, one behind it, a completed one, a cycle of two, and one behind
    a task that is not of the phase. -/
def mixedPhase : Phase :=
  { id := 2, name := js "build", status := .pending, type := none, requiredAgents := none
    tasks := [laneTask "2.1" .pending [], laneTask "2.2" .pending ["2.1"],
      laneTask "2.3" .completed [], laneTask "2.4" .pending ["2.5"],
      laneTask "2.5" .pending ["2.4"], laneTask "2.6" .pending ["1.9"]] }

/-- The declared scopes of that phase. -/
def mixedScopes (id : JsString) : Option (List JsString) :=
  if id = js "2.1" then some [js "go.mod"] else some [js "src/" ++ id]

/-- Two coders in parallel, conflicts serialized. -/
def pairConfig : LanePlannerConfig :=
  ⟨⟨true⟩, 2, .serialize, true, by decide, by decide⟩

/-- The plan of that phase, with nothing committed. -/
def mixedPlan : LeanTurboLanePlan :=
  planLeanTurboLanes codeUnitHost 0 (fun _ => none) (js "/repo") 2 [mixedPhase] pairConfig
    mixedScopes (some fun _ => false)

theorem lanePlanSound_mixedPlan :
    LanePlanSound pairConfig (lanePreflight codeUnitHost (fun _ => none) (js "/repo") pairConfig
        mixedScopes mixedPhase).filesOf mixedPhase mixedPlan
      ∧ plannedTasks mixedPlan = [js "2.2", js "2.4", js "2.5", js "2.1", js "2.6"] :=
  ⟨(lanePlanSound_planLeanTurboLanes codeUnitHost 0 (fun _ => none) (js "/repo") 2 [mixedPhase]
    pairConfig mixedScopes (some fun _ => false) mixedPhase rfl (by decide +kernel)).2,
    by decide +kernel⟩

end OpencodeSwarm
