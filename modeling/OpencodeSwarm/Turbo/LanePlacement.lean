/-
  OpencodeSwarm.Turbo.LanePlacement

  What placing a task does.  A task without a conflict fits into the first lane,
  so the planner never opens a second one, and the lane holds the greedy
  selection of the normal tasks.
-/
import OpencodeSwarm.Lib.Greedy
import OpencodeSwarm.Turbo.LanePlanner

namespace OpencodeSwarm

open Js

/-! ## The greedy selection -/

/-- A file of one task conflicts with a file of the other. -/
def filesConflict (a b : ClassifiedTask) : Bool :=
  a.files.any fun file => b.files.any (pathsConflict file)

/-- A normal task that conflicts with no kept task. -/
def laneAdmits (kept : List ClassifiedTask) (classified : ClassifiedTask) : Bool :=
  decide (classified.category = .normal) && !kept.any (filesConflict classified)

/-- The ids of tasks. -/
abbrev taskIdsOf (tasks : List ClassifiedTask) : List JsString :=
  tasks.map fun classified => classified.task.id

theorem taskIdsOf_append (front back : List ClassifiedTask) :
    taskIdsOf (front ++ back) = taskIdsOf front ++ taskIdsOf back := List.map_append

/-- The lanes of the kept tasks: one, or none without a task. -/
def keptLanes (kept : List ClassifiedTask) : List LeanTurboLane :=
  if kept = [] then []
  else
    [{ laneId := js "lane-" ++ js (toString 1)
       taskIds := taskIdsOf kept
       files := kept.flatMap fun classified => classified.files
       status := .pending }]

variable {kept : List ClassifiedTask}

theorem mem_flatMap_files_iff {files : List JsString} :
    (∃ file ∈ files, ∃ claimed ∈ kept.flatMap fun classified => classified.files,
        pathsConflict file claimed = true)
      ↔ ∃ other ∈ kept, (files.any fun file => other.files.any (pathsConflict file)) = true := by
  simp only [List.mem_flatMap, List.any_eq_true]
  constructor
  · rintro ⟨file, hfile, claimed, ⟨other, hother, hclaimed⟩, hconflict⟩
    exact ⟨other, hother, file, hfile, claimed, hclaimed, hconflict⟩
  · rintro ⟨other, hother, file, hfile, claimed, hclaimed, hconflict⟩
    exact ⟨file, hfile, claimed, ⟨other, hother, hclaimed⟩, hconflict⟩

theorem laneAdmits_iff {claimedFiles : List JsString}
    (hclaimed : ∀ file, file ∈ claimedFiles ↔ file ∈ kept.flatMap fun other => other.files)
    (classified : ClassifiedTask) : laneAdmits kept classified = true
      ↔ classified.category = .normal ∧ ∀ file ∈ classified.files, ∀ claimed ∈ claimedFiles,
          pathsConflict file claimed = false := by
  unfold laneAdmits filesConflict
  rw [Bool.and_eq_true, decide_eq_true_eq, Bool.not_eq_true', ← Bool.not_eq_true,
    List.any_eq_true, ← mem_flatMap_files_iff]
  simp [hclaimed]

/-! ## One task -/

section Place

variable {config : LanePlannerConfig} {taskMap : OrderedMap JsString ClassifiedTask}
  {state : LanePlanState} {classified : ClassifiedTask}

/-- A normal task that conflicts with no claimed file looks for a lane. -/
theorem placeTask_of_free (hnew : classified.task.id ∉ state.assignedTasks)
    (hnormal : classified.category = .normal)
    (hfree : ∀ file ∈ classified.files, ∀ claimed ∈ state.claimedFiles,
      pathsConflict file claimed = false) :
    placeTask config taskMap state classified
      = state.assignLane config.maxParallelCoders taskMap classified := by
  have hunclaimed : (classified.files.any fun file => decide (file ∈ state.claimedFiles))
      = false := by
    rw [List.any_eq_false]
    intro file hfile hclaimed
    have hself := hfree file hfile file (of_decide_eq_true hclaimed)
    rw [pathsConflict, if_pos rfl] at hself
    cases hself
  have hapart : (classified.files.any fun file => state.claimedFiles.any (pathsConflict file))
      = false := by
    rw [List.any_eq_false]
    intro file hfile hconflict
    obtain ⟨claimed, hclaimed, htrue⟩ := List.any_eq_true.mp hconflict
    rw [hfree file hfile claimed hclaimed] at htrue
    cases htrue
  rw [placeTask, if_neg hnew, hnormal]
  rw [hunclaimed, hapart]
  rfl

variable (config taskMap) in
theorem placeTask_of_not_free (hnew : classified.task.id ∉ state.assignedTasks)
    (hother : ¬ (classified.category = .normal ∧ ∀ file ∈ classified.files,
      ∀ claimed ∈ state.claimedFiles, pathsConflict file claimed = false)) :
    (∃ reason, placeTask config taskMap state classified = state.degrade classified reason)
      ∨ placeTask config taskMap state classified = state.serialize classified := by
  have hresolve : ∀ policy,
      (∃ reason, state.resolveConflict policy classified = state.degrade classified reason)
        ∨ state.resolveConflict policy classified = state.serialize classified := by
    intro policy
    cases policy with
    | degrade => exact Or.inl ⟨_, rfl⟩
    | serialize => exact Or.inr rfl
  rw [placeTask, if_neg hnew]
  split
  · exact Or.inl ⟨_, rfl⟩
  · split
    · exact Or.inl ⟨_, rfl⟩
    · exact Or.inr rfl
  · exact Or.inr rfl
  · exact Or.inr rfl
  · next hnormal =>
    split
    · exact hresolve _
    split
    · exact hresolve _
    rename_i hnoParent
    refine absurd ⟨hnormal, fun file hfile claimed hclaimed => ?_⟩ hother
    rw [← Bool.not_eq_true]
    intro hconflict
    exact hnoParent (List.any_eq_true.mpr
      ⟨file, hfile, List.any_eq_true.mpr ⟨claimed, hclaimed, hconflict⟩⟩)

theorem mem_foldl_addClaim {files claimedFiles : List JsString} {file : JsString} :
    file ∈ files.foldl addClaim claimedFiles ↔ file ∈ claimedFiles ∨ file ∈ files := by
  induction files generalizing claimedFiles with
  | nil => simp
  | cons first rest ih =>
    have hfirst : file ∈ addClaim claimedFiles first ↔ file ∈ claimedFiles ∨ file = first := by
      unfold addClaim
      split
      · next hmem =>
        constructor
        · exact Or.inl
        · rintro (hold | rfl)
          · exact hold
          · exact hmem
      · rw [List.mem_append, List.mem_singleton]
    rw [List.foldl_cons, ih, hfirst, List.mem_cons, or_assoc]

end Place

/-! ## The tasks one after the other -/

/-- What the loop keeps, when it started with the tasks `start` and has taken the
    tasks `order`. -/
structure LanesKept (start : List JsString) (order : List ClassifiedTask) (state : LanePlanState) :
    Prop where
  assigned : state.assignedTasks = start ++ taskIdsOf order
  lanes : state.lanes = keptLanes (Greedy.keep laneAdmits order)
  claimed : ∀ file, file ∈ state.claimedFiles
    ↔ file ∈ (Greedy.keep laneAdmits order).flatMap fun classified => classified.files
  taskToLane : ∀ id lane, state.taskToLane.get? id = some lane → lane = -1 ∨ lane = 0
  parts : (taskIdsOf (Greedy.keep laneAdmits order) ++ state.serializedTasks
    ++ state.degradedTasks.map fun degraded => degraded.taskId).Perm state.assignedTasks

theorem lanesKept_lanePlanStart (tasksInCycle : List JsString) :
    LanesKept tasksInCycle [] (lanePlanStart tasksInCycle) := by
  constructor
  · exact (List.append_nil _).symm
  · rfl
  · intro file
    exact Iff.rfl
  · show ∀ id lane, OrderedMap.get? (tasksInCycle.foldl
      (fun (taskToLane : OrderedMap JsString Int) id => taskToLane.set id (-1)) []) id = some lane
        → lane = -1 ∨ lane = 0
    induction tasksInCycle using List.reverseRecOn with
    | nil =>
      intro id lane hget
      cases hget
    | append_singleton tasksInCycle last ih =>
      intro id lane hget
      rw [List.foldl_concat, OrderedMap.get?_set] at hget
      split at hget
      · cases hget
        exact Or.inl rfl
      · exact ih id lane hget
  · show List.Perm ([] ++ tasksInCycle ++ []) tasksInCycle
    rw [List.nil_append, List.append_nil]

section Step

variable {config : LanePlannerConfig} {taskMap : OrderedMap JsString ClassifiedTask}
  {start : List JsString} {order : List ClassifiedTask} {state : LanePlanState}
  {classified : ClassifiedTask}

/-- The first lane takes a task that conflicts with nothing in it. -/
theorem LanesKept.candidateLane_eq (h : LanesKept start order state)
    (hfree : ∀ file ∈ classified.files, ∀ claimed ∈ state.claimedFiles,
      pathsConflict file claimed = false) :
    candidateLane config.maxParallelCoders state.lanes classified.files = some 0 := by
  have hmax := config.minParallelCoders
  rw [h.lanes]
  unfold candidateLane keptLanes
  split
  · next index hindex =>
    split at hindex
    · cases hindex
    rw [List.findIdx?_singleton] at hindex
    split at hindex
    · exact hindex ▸ rfl
    · cases hindex
  · next hnone =>
    split
    · rw [if_pos]
      · rfl
      · exact hmax
    · next hkept =>
      rw [if_neg hkept, List.findIdx?_eq_none_iff] at hnone
      have hconflict := hnone _ (List.mem_singleton_self _)
      rw [Bool.not_eq_false', List.any_eq_true] at hconflict
      obtain ⟨laneFile, hlaneFile, htask⟩ := hconflict
      obtain ⟨taskFile, htaskFile, hpaths⟩ := List.any_eq_true.mp htask
      rw [pathsConflict_comm, hfree taskFile htaskFile laneFile ((h.claimed _).mpr hlaneFile)]
        at hpaths
      cases hpaths

theorem LanesKept.assignLane_eq (h : LanesKept start order state)
    (hfree : ∀ file ∈ classified.files, ∀ claimed ∈ state.claimedFiles,
      pathsConflict file claimed = false) :
    state.assignLane config.maxParallelCoders taskMap classified = state.place 0 classified := by
  have hnone : depsInOtherLanes taskMap state.taskToLane 0 classified.task.depends = [] := by
    rw [depsInOtherLanes, List.filter_eq_nil_iff]
    intro dep _ hother
    rw [Bool.and_eq_true] at hother
    cases hget : state.taskToLane.get? dep with
    | none =>
      rw [hget] at hother
      exact Bool.noConfusion hother.2
    | some lane =>
      rw [hget] at hother
      obtain ⟨hserialized, hdifferent⟩ := of_decide_eq_true hother.2
      rcases h.taskToLane dep lane hget with rfl | rfl
      · exact hserialized rfl
      · exact hdifferent rfl
  rw [LanePlanState.assignLane, h.candidateLane_eq hfree]
  dsimp only
  rw [hnone, if_neg fun hne => hne rfl]

theorem perm_append_last {front back all : List JsString} {id : JsString}
    (h : (front ++ back).Perm all) : (front ++ [id] ++ back).Perm (all ++ [id]) := by
  rw [List.append_assoc]
  refine (List.perm_append_comm.append_left front).trans ?_
  rw [← List.append_assoc]
  exact h.append_right [id]

theorem lanes_place {kept : List ClassifiedTask} (hlanes : state.lanes = keptLanes kept) :
    (state.place 0 classified).lanes = keptLanes (kept ++ [classified]) := by
  show (if 0 < state.lanes.length then _ else _) = _
  rw [hlanes]
  by_cases hkept : kept = []
  · rw [hkept]
    simp [keptLanes]
  · have hgrown : kept ++ [classified] ≠ [] :=
      List.append_ne_nil_of_right_ne_nil _ (List.cons_ne_nil _ _)
    unfold keptLanes
    rw [if_neg hkept, if_neg hgrown, if_pos (by simp)]
    simp [List.modify_cons]

variable (config taskMap) in
theorem LanesKept.take (h : LanesKept start order state)
    (hnew : classified.task.id ∉ state.assignedTasks) :
    LanesKept start (order ++ [classified]) (placeTask config taskMap state classified) := by
  have hids : taskIdsOf (order ++ [classified]) = taskIdsOf order ++ [classified.task.id] := by
    simp
  have hadmits := laneAdmits_iff h.claimed classified
  cases hkeep : laneAdmits (Greedy.keep laneAdmits order) classified with
  | false =>
    have hsame : Greedy.keep laneAdmits (order ++ [classified])
        = Greedy.keep laneAdmits order := by
      rw [Greedy.keep_concat, hkeep]
      rfl
    have hother := placeTask_of_not_free config taskMap hnew
      (fun hboth => Bool.noConfusion (hkeep.symm.trans (hadmits.mpr hboth)))
    rcases hother with ⟨reason, hplaced⟩ | hplaced
    · rw [hplaced]
      constructor
      · show state.assignedTasks ++ [classified.task.id] = _
        rw [h.assigned, hids, List.append_assoc]
      · rw [hsame]
        exact h.lanes
      · rw [hsame]
        exact h.claimed
      · exact h.taskToLane
      · rw [hsame]
        show (_ ++ state.serializedTasks ++ (state.degradedTasks
          ++ [(⟨classified.task.id, reason, classified.files, .balanced⟩ : LeanTurboDegradedTask)]).map
            fun degraded => degraded.taskId).Perm (state.assignedTasks ++ [classified.task.id])
        rw [List.map_append, ← List.append_assoc]
        exact h.parts.append_right _
    · rw [hplaced]
      constructor
      · show state.assignedTasks ++ [classified.task.id] = _
        rw [h.assigned, hids, List.append_assoc]
      · rw [hsame]
        exact h.lanes
      · rw [hsame]
        exact h.claimed
      · intro id lane hget
        have hset : (state.taskToLane.set classified.task.id (-1)).get? id = some lane := hget
        rw [OrderedMap.get?_set] at hset
        split at hset
        · cases hset
          exact Or.inl rfl
        · exact h.taskToLane id lane hset
      · rw [hsame]
        show (_ ++ (state.serializedTasks ++ [classified.task.id])
          ++ state.degradedTasks.map fun degraded => degraded.taskId).Perm
            (state.assignedTasks ++ [classified.task.id])
        rw [← List.append_assoc]
        exact perm_append_last h.parts
  | true =>
    obtain ⟨hnormal, hfree⟩ := hadmits.mp hkeep
    rw [placeTask_of_free hnew hnormal hfree, h.assignLane_eq hfree]
    have hgrown : Greedy.keep laneAdmits (order ++ [classified])
        = Greedy.keep laneAdmits order ++ [classified] := by
      rw [Greedy.keep_concat, hkeep]
      rfl
    constructor
    · show state.assignedTasks ++ [classified.task.id] = _
      rw [h.assigned, hids, List.append_assoc]
    · rw [hgrown]
      exact lanes_place h.lanes
    · intro file
      show file ∈ classified.files.foldl addClaim state.claimedFiles ↔ _
      rw [mem_foldl_addClaim, hgrown, List.flatMap_append, List.mem_append, h.claimed,
        List.flatMap_singleton]
    · intro id lane hget
      have hset : (state.taskToLane.set classified.task.id
        (if 0 < state.lanes.length then ((0 : Nat) : Int) else (state.lanes.length : Int))).get? id
          = some lane := hget
      rw [OrderedMap.get?_set] at hset
      split at hset
      · right
        cases hset
        split
        · rfl
        · omega
      · exact h.taskToLane id lane hset
    · rw [hgrown]
      show (taskIdsOf (_ ++ [classified]) ++ state.serializedTasks
        ++ state.degradedTasks.map fun degraded => degraded.taskId).Perm
          (state.assignedTasks ++ [classified.task.id])
      rw [taskIdsOf_append, List.append_assoc]
      refine perm_append_last ?_
      rw [← List.append_assoc]
      exact h.parts

end Step

end OpencodeSwarm
