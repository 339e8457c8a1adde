/-
  OpencodeSwarm.Turbo.PartitionOrder

  The order of the preflight.  A task is either sorted, behind all its
  dependencies in the task set, or counted as in a cycle, and then one of its
  dependencies is as well.
-/
import OpencodeSwarm.Turbo.Partition

namespace OpencodeSwarm

open Js

/-! ## Edges -/

variable {id : JsString}

theorem mem_dependencyEdges {taskMap : OrderedMap JsString ClassifiedTask} (h : IsTaskMap taskMap)
    {dep : JsString} : (dep, id) ∈ dependencyEdges taskMap
      ↔ ∃ classified, taskMap.get? id = some classified ∧ dep ∈ classified.task.depends
          ∧ (taskMap.get? dep).isSome = true := by
  rw [dependencyEdges, List.mem_flatMap]
  constructor
  · rintro ⟨classified, hclassified, hedge⟩
    obtain ⟨other, hother, heq⟩ := List.mem_map.mp hedge
    obtain ⟨hdepends, hinside⟩ := List.mem_filter.mp hother
    obtain ⟨binding, hbinding, rfl⟩ := List.mem_map.mp hclassified
    cases heq
    refine ⟨binding.2, ?_, hdepends, hinside⟩
    rw [h.own binding hbinding]
    exact OrderedMap.get?_of_mem h.nodup hbinding
  · rintro ⟨classified, hget, hdepends, hinside⟩
    refine ⟨classified, List.mem_map_of_mem (OrderedMap.mem_of_get? hget), ?_⟩
    rw [← h.id_of_get? hget]
    exact List.mem_map_of_mem (List.mem_filter.mpr ⟨hdepends, hinside⟩)

/-! ## The preflight -/

/-- A preflight: what `runPartitionPreflight` makes of its task map. -/
structure IsPreflight (host : PlanningHost) (preflight : PartitionPreflight) : Prop where
  taskMap : IsTaskMap preflight.taskMap
  sorted : preflight.sortedTasks
    = (kahnEnd host preflight.taskMap).sorted.filterMap preflight.taskMap.get?
  cycle : preflight.tasksInCycle
    = preflight.taskMap.keys.filter fun id => 0 < (kahnEnd host preflight.taskMap).degree id

theorem isPreflight_runPartitionPreflight (host : PlanningHost)
    (readTaskScopes : JsString → Option (List JsString)) (directory : JsString)
    (pendingTasks : List Task) (config : LeanTurboConfig)
    (scopes : JsString → Option (List JsString)) :
    IsPreflight host
      (runPartitionPreflight host readTaskScopes directory pendingTasks config scopes) :=
  ⟨isTaskMap_buildTaskMap _, rfl, rfl⟩

theorem mem_of_get?_runPartitionPreflight {host : PlanningHost}
    {readTaskScopes : JsString → Option (List JsString)} {directory : JsString}
    {pendingTasks : List Task} {config : LeanTurboConfig}
    {scopes : JsString → Option (List JsString)} {classified : ClassifiedTask}
    (h : (runPartitionPreflight host readTaskScopes directory pendingTasks config
      scopes).taskMap.get? id = some classified) :
    classified.task ∈ pendingTasks ∧ classified.task.id = id := by
  refine ⟨?_, (isTaskMap_buildTaskMap _).id_of_get? h⟩
  obtain ⟨task, htask, rfl⟩ := List.mem_map.mp (mem_of_mem_buildTaskMap (OrderedMap.mem_of_get? h))
  exact htask

theorem mem_keys_runPartitionPreflight_iff (host : PlanningHost)
    (readTaskScopes : JsString → Option (List JsString)) (directory : JsString)
    (pendingTasks : List Task) (config : LeanTurboConfig)
    (scopes : JsString → Option (List JsString)) (id : JsString) :
    id ∈ (runPartitionPreflight host readTaskScopes directory pendingTasks config
        scopes).taskMap.keys ↔ id ∈ pendingTasks.map fun task => task.id := by
  rw [OrderedMap.mem_keys_iff]
  constructor
  · intro hsome
    obtain ⟨classified, hget⟩ := Option.isSome_iff_exists.mp hsome
    obtain ⟨htask, rfl⟩ := mem_of_get?_runPartitionPreflight hget
    exact List.mem_map_of_mem htask
  · intro hid
    obtain ⟨task, htask, rfl⟩ := List.mem_map.mp hid
    have hmem : classifyTask host readTaskScopes directory config scopes task
        ∈ pendingTasks.map (classifyTask host readTaskScopes directory config scopes) :=
      List.mem_map_of_mem htask
    exact isSome_get?_buildTaskMap hmem

section Preflight

variable {host : PlanningHost} {preflight : PartitionPreflight}

theorem IsPreflight.invariant (h : IsPreflight host preflight) :
    Kahn.Invariant preflight.taskMap.keys (dependencyEdges preflight.taskMap)
      (kahnEnd host preflight.taskMap) :=
  invariant_kahnEnd host h.taskMap

theorem IsPreflight.map_sortedTasks (h : IsPreflight host preflight) :
    (preflight.sortedTasks.map fun classified => classified.task.id)
      = (kahnEnd host preflight.taskMap).sorted := by
  have hkeys : ∀ id ∈ (kahnEnd host preflight.taskMap).sorted,
      ∃ classified, preflight.taskMap.get? id = some classified := by
    intro id hid
    have hmem := ((h.invariant.free id).mp (List.mem_append_left _ hid)).1
    exact Option.isSome_iff_exists.mp (OrderedMap.mem_keys_iff.mp hmem)
  rw [h.sorted]
  generalize (kahnEnd host preflight.taskMap).sorted = sorted at hkeys
  induction sorted with
  | nil => rfl
  | cons id rest ih =>
    obtain ⟨classified, hget⟩ := hkeys id List.mem_cons_self
    rw [List.filterMap_cons_some hget, List.map_cons, h.taskMap.id_of_get? hget,
      ih fun other hother => hkeys other (List.mem_cons_of_mem _ hother)]

variable {classified : ClassifiedTask}

theorem IsPreflight.get?_of_mem_sortedTasks (h : IsPreflight host preflight)
    (hmem : classified ∈ preflight.sortedTasks) :
    preflight.taskMap.get? classified.task.id = some classified := by
  rw [h.sorted] at hmem
  obtain ⟨id, -, hget⟩ := List.mem_filterMap.mp hmem
  rwa [h.taskMap.id_of_get? hget]

theorem IsPreflight.nodup_sortedTasks (h : IsPreflight host preflight) :
    (preflight.sortedTasks.map fun classified => classified.task.id).Nodup := by
  rw [h.map_sortedTasks]
  exact (List.nodup_append.mp h.invariant.nodup).1

variable {id : JsString}

theorem IsPreflight.mem_sortedTasks (h : IsPreflight host preflight)
    (hid : id ∈ preflight.sortedTasks.map fun classified => classified.task.id)
    (hget : preflight.taskMap.get? id = some classified) : classified ∈ preflight.sortedTasks := by
  obtain ⟨other, hother, rfl⟩ := List.mem_map.mp hid
  rw [h.get?_of_mem_sortedTasks hother] at hget
  cases hget
  exact hother

/-- A task of the map is sorted exactly when it is not in a cycle. -/
theorem IsPreflight.mem_tasksInCycle_iff (h : IsPreflight host preflight) :
    id ∈ preflight.tasksInCycle ↔ id ∈ preflight.taskMap.keys
        ∧ id ∉ preflight.sortedTasks.map fun classified => classified.task.id := by
  have hqueue := kahnEnd_queue host h.taskMap
  have hfree := h.invariant.free id
  have hdegree := h.invariant.degree id
  rw [hqueue, List.append_nil] at hfree
  rw [h.cycle, List.mem_filter, decide_eq_true_eq, h.map_sortedTasks, hfree, hdegree]
  constructor
  · rintro ⟨hkey, hpositive⟩
    exact ⟨hkey, fun hsorted => by omega⟩
  · rintro ⟨hkey, hunsorted⟩
    refine ⟨hkey, ?_⟩
    by_contra hzero
    exact hunsorted ⟨hkey, by omega⟩

/-- A task that is not sorted has a dependency that is not sorted either. -/
theorem IsPreflight.exists_dep_of_cycle (h : IsPreflight host preflight)
    (hid : id ∈ preflight.tasksInCycle) (hget : preflight.taskMap.get? id = some classified) :
    ∃ dep ∈ classified.task.depends, dep ∈ preflight.tasksInCycle := by
  obtain ⟨hkey, hunsorted⟩ := h.mem_tasksInCycle_iff.mp hid
  have hqueue := kahnEnd_queue host h.taskMap
  have hfree := h.invariant.free id
  rw [hqueue, List.append_nil, ← h.map_sortedTasks] at hfree
  have hpending : Kahn.pending (dependencyEdges preflight.taskMap)
      (kahnEnd host preflight.taskMap).sorted id ≠ 0 := by
    intro hzero
    rw [h.map_sortedTasks] at hfree hunsorted
    exact hunsorted (hfree.mpr ⟨hkey, hzero⟩)
  obtain ⟨⟨dep, target⟩, hedge, hsource, htarget⟩ := Kahn.exists_source_of_pending hpending
  subst htarget
  obtain ⟨other, hother, hdepends, hinside⟩ := (mem_dependencyEdges h.taskMap).mp hedge
  rw [hget] at hother
  cases hother
  refine ⟨dep, hdepends, h.mem_tasksInCycle_iff.mpr ⟨OrderedMap.mem_keys_iff.mpr hinside, ?_⟩⟩
  rwa [h.map_sortedTasks]

theorem ordered_kahnEnd (host : PlanningHost) {taskMap : OrderedMap JsString ClassifiedTask}
    (h : IsTaskMap taskMap) :
    Kahn.Ordered (dependencyEdges taskMap) (kahnEnd host taskMap).sorted := by
  refine Kahn.Ordered.rounds (enqueue_perm host) (target_mem_keys h) _ (invariant_kahnStart host h)
    fun front v back hsplit => ?_
  have hnil : ([] : List JsString) = front ++ v :: back := hsplit
  exact absurd hnil.symm (List.append_ne_nil_of_right_ne_nil _ (List.cons_ne_nil _ _))

/-- The dependencies of a sorted task in the task set come before it. -/
theorem IsPreflight.dep_before (h : IsPreflight host preflight) {front back : List ClassifiedTask}
    (hsplit : preflight.sortedTasks = front ++ classified :: back) {dep : JsString}
    (hdepends : dep ∈ classified.task.depends)
    (hinside : (preflight.taskMap.get? dep).isSome = true) :
    dep ∈ front.map fun classified => classified.task.id := by
  have hmem : classified ∈ preflight.sortedTasks := by
    rw [hsplit]
    exact List.mem_append_right _ List.mem_cons_self
  have hedge := (mem_dependencyEdges h.taskMap).mpr
    ⟨classified, h.get?_of_mem_sortedTasks hmem, hdepends, hinside⟩
  have hids := h.map_sortedTasks
  rw [hsplit, List.map_append, List.map_cons] at hids
  exact Kahn.source_mem_of_pending (ordered_kahnEnd host h.taskMap _ _ _ hids.symm) hedge rfl

end Preflight

end OpencodeSwarm
