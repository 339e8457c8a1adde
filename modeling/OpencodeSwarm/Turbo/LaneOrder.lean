/-
  OpencodeSwarm.Turbo.LaneOrder

  The order in which the lane planner takes the tasks: round after round, each
  round the tasks whose dependencies are assigned.  The order depends on no
  placement; without a predicate it takes every sorted task.
-/
import OpencodeSwarm.Turbo.LanePlacement

namespace OpencodeSwarm

open Js

section Order

variable (host : PlanningHost) (preflight : PartitionPreflight)
  (isUpstreamCommitted : Option (JsString → Bool))

/-- The tasks of a number of rounds, with these tasks assigned before. -/
def laneOrder : Nat → List JsString → List ClassifiedTask
  | 0, _ => []
  | rounds + 1, assignedTasks =>
    let readyTasks := readyLaneTasks host preflight isUpstreamCommitted assignedTasks
    if readyTasks.isEmpty then []
    else readyTasks ++ laneOrder rounds (assignedTasks ++ taskIdsOf readyTasks)

/-- The sorted tasks that are not assigned. -/
def unassignedTasks (assignedTasks : List JsString) : List ClassifiedTask :=
  preflight.sortedTasks.filter fun classified => classified.task.id ∉ assignedTasks

variable {host preflight isUpstreamCommitted}

/-- A ready task is a sorted task that is not assigned and whose dependencies in
    the task set all are. -/
theorem mem_readyLaneTasks {assignedTasks : List JsString} {classified : ClassifiedTask} :
    classified ∈ readyLaneTasks host preflight isUpstreamCommitted assignedTasks
      ↔ classified ∈ preflight.sortedTasks ∧ classified.task.id ∉ assignedTasks
        ∧ makeDependencySatisfactionChecker preflight.taskMap assignedTasks isUpstreamCommitted
            classified = true := by
  unfold readyLaneTasks getReadyTasks
  rw [(sortBy_perm _ _).mem_iff, List.mem_filter, Bool.and_eq_true, decide_eq_true_eq]

variable {assignedTasks : List JsString}

theorem dep_assigned_of_satisfied {classified : ClassifiedTask}
    (h : makeDependencySatisfactionChecker preflight.taskMap assignedTasks isUpstreamCommitted
      classified = true) {dep : JsString} (hdep : dep ∈ classified.task.depends)
    (hinside : (preflight.taskMap.get? dep).isSome = true) : dep ∈ assignedTasks := by
  have hone := List.all_eq_true.mp h dep hdep
  rw [if_pos hinside] at hone
  exact of_decide_eq_true hone

variable (isUpstreamCommitted) in
theorem nodup_readyLaneTasks (h : IsPreflight host preflight) (assignedTasks : List JsString) :
    (taskIdsOf (readyLaneTasks host preflight isUpstreamCommitted assignedTasks)).Nodup := by
  refine ((sortBy_perm _ _).map _).nodup_iff.mpr ?_
  exact (List.filter_sublist.map _).nodup h.nodup_sortedTasks

theorem length_unassignedTasks_lt
    (hready : readyLaneTasks host preflight isUpstreamCommitted assignedTasks ≠ []) :
    (unassignedTasks preflight (assignedTasks
        ++ taskIdsOf (readyLaneTasks host preflight isUpstreamCommitted assignedTasks))).length
      < (unassignedTasks preflight assignedTasks).length := by
  obtain ⟨first, hfirst⟩ := List.exists_mem_of_ne_nil _ hready
  obtain ⟨hsorted, hnew, -⟩ := mem_readyLaneTasks.mp hfirst
  generalize hbatch : readyLaneTasks host preflight isUpstreamCommitted assignedTasks = batch
    at hfirst
  have hfilter : unassignedTasks preflight (assignedTasks ++ taskIdsOf batch)
      = (unassignedTasks preflight assignedTasks).filter fun classified =>
          classified.task.id ∉ taskIdsOf batch := by
    unfold unassignedTasks
    rw [List.filter_filter]
    refine List.filter_congr fun classified _ => ?_
    simp only [List.mem_append, not_or, Bool.decide_and, Bool.and_comm]
  rw [hfilter]
  refine List.length_filter_lt_length_iff_exists.mpr ⟨first, ?_, ?_⟩
  · exact List.mem_filter.mpr ⟨hsorted, decide_eq_true hnew⟩
  · rw [decide_eq_true_eq, not_not]
    exact List.mem_map_of_mem hfirst

/-- What holds of the order. -/
structure IsLaneOrder (preflight : PartitionPreflight) (start : List JsString)
    (order : List ClassifiedTask) : Prop where
  sorted : ∀ classified ∈ order, classified ∈ preflight.sortedTasks
  nodup : (taskIdsOf order).Nodup
  fresh : ∀ id ∈ taskIdsOf order, id ∉ start
  behind : ∀ front classified back, order = front ++ classified :: back →
    ∀ dep ∈ classified.task.depends, (preflight.taskMap.get? dep).isSome = true →
      dep ∈ start ++ taskIdsOf front

theorem isLaneOrder_nil (preflight : PartitionPreflight) (start : List JsString) :
    IsLaneOrder preflight start [] := by
  constructor
  · exact fun _ hmem => nomatch hmem
  · exact List.nodup_nil
  · exact fun _ hmem => nomatch hmem
  · intro front classified back hsplit
    exact absurd hsplit.symm (List.append_ne_nil_of_right_ne_nil _ (List.cons_ne_nil _ _))

theorem isLaneOrder_laneOrder (h : IsPreflight host preflight) (rounds : Nat)
    (assignedTasks : List JsString) :
    IsLaneOrder preflight assignedTasks
      (laneOrder host preflight isUpstreamCommitted rounds assignedTasks) := by
  induction rounds generalizing assignedTasks with
  | zero =>
    exact isLaneOrder_nil _ _
  | succ rounds ih =>
    dsimp only [laneOrder]
    split
    · exact isLaneOrder_nil _ _
    have hready : ∀ classified ∈ readyLaneTasks host preflight isUpstreamCommitted assignedTasks,
        _ := fun classified hmem => mem_readyLaneTasks.mp hmem
    have hbatch := nodup_readyLaneTasks isUpstreamCommitted h assignedTasks
    generalize readyLaneTasks host preflight isUpstreamCommitted assignedTasks = batch at *
    have hrest := ih (assignedTasks ++ taskIdsOf batch)
    constructor
    · intro classified hmem
      rcases List.mem_append.mp hmem with hnow | hlater
      · exact (hready classified hnow).1
      · exact hrest.sorted classified hlater
    · rw [taskIdsOf_append]
      refine List.nodup_append.mpr ⟨hbatch, hrest.nodup, ?_⟩
      rintro id hnow other hlater rfl
      exact hrest.fresh id hlater (List.mem_append_right _ hnow)
    · intro id hid
      rw [taskIdsOf_append] at hid
      rcases List.mem_append.mp hid with hnow | hlater
      · obtain ⟨classified, hmem, rfl⟩ := List.mem_map.mp hnow
        exact (hready classified hmem).2.1
      · exact fun hstart => hrest.fresh id hlater (List.mem_append_left _ hstart)
    · intro front classified back hsplit dep hdep hinside
      rcases List.append_eq_append_iff.mp hsplit with
        ⟨middle, hfront, hlater⟩ | ⟨middle, hnow, hlater⟩
      · have hmem := hrest.behind middle classified back hlater dep hdep hinside
        rw [hfront, taskIdsOf_append, ← List.append_assoc]
        exact hmem
      · cases middle with
        | nil =>
          rw [List.append_nil] at hnow
          rcases List.mem_append.mp (hrest.behind [] classified back hlater.symm dep hdep hinside)
            with hmem | hnone
          · exact hnow ▸ hmem
          · exact nomatch hnone
        | cons next middle =>
          cases hlater
          have hmem : classified ∈ batch := by
            rw [hnow]
            exact List.mem_append_right _ List.mem_cons_self
          exact List.mem_append_left _
            (dep_assigned_of_satisfied (hready classified hmem).2.2 hdep hinside)

/-! ## The end of the rounds -/

theorem readyLaneTasks_end (rounds : Nat) (assignedTasks : List JsString)
    (hrounds : (unassignedTasks preflight assignedTasks).length ≤ rounds) :
    readyLaneTasks host preflight isUpstreamCommitted (assignedTasks
      ++ taskIdsOf (laneOrder host preflight isUpstreamCommitted rounds assignedTasks)) = [] := by
  induction rounds generalizing assignedTasks with
  | zero =>
    rw [laneOrder, taskIdsOf, List.map_nil, List.append_nil]
    by_contra hready
    have hless := length_unassignedTasks_lt hready
    omega
  | succ rounds ih =>
    dsimp only [laneOrder]
    split
    · next hempty =>
      rw [taskIdsOf, List.map_nil, List.append_nil]
      exact List.isEmpty_iff.mp hempty
    · next hready =>
      rw [List.isEmpty_iff] at hready
      have hless := length_unassignedTasks_lt hready
      rw [taskIdsOf_append, ← List.append_assoc]
      exact ih _ (by omega)

theorem laneOrder_enough {rounds rounds' : Nat}
    (h : (unassignedTasks preflight assignedTasks).length ≤ rounds)
    (h' : (unassignedTasks preflight assignedTasks).length ≤ rounds') :
    laneOrder host preflight isUpstreamCommitted rounds assignedTasks
      = laneOrder host preflight isUpstreamCommitted rounds' assignedTasks := by
  induction rounds generalizing rounds' assignedTasks with
  | zero =>
    have hready : readyLaneTasks host preflight isUpstreamCommitted assignedTasks = [] := by
      by_contra hready
      have hless := length_unassignedTasks_lt hready
      omega
    cases rounds' with
    | zero => rfl
    | succ rounds' =>
      unfold laneOrder
      rw [hready]
      rfl
  | succ rounds ih =>
    by_cases hready : readyLaneTasks host preflight isUpstreamCommitted assignedTasks = []
    · cases rounds' with
      | zero | succ rounds' =>
        unfold laneOrder
        rw [hready]
        rfl
    · have hless := length_unassignedTasks_lt hready
      obtain ⟨rounds', rfl⟩ : ∃ n, rounds' = n + 1 := ⟨rounds' - 1, by omega⟩
      dsimp only [laneOrder]
      rw [ih (Nat.le_of_lt_succ (hless.trans_le h)) (Nat.le_of_lt_succ (hless.trans_le h'))]

/-- When no task is ready, and nothing is asked of dependencies outside, every
    sorted task is assigned. -/
theorem sorted_assigned_of_end (h : IsPreflight host preflight)
    (hend : readyLaneTasks host preflight none assignedTasks = []) :
    ∀ classified ∈ preflight.sortedTasks, classified.task.id ∈ assignedTasks := by
  suffices hall : ∀ front back, preflight.sortedTasks = front ++ back →
      ∀ id ∈ taskIdsOf front, id ∈ assignedTasks from
    fun classified hmem => hall preflight.sortedTasks [] (List.append_nil _).symm _
      (List.mem_map_of_mem hmem)
  -- along the sorted tasks: the first one left over would be ready
  intro front
  induction front using List.reverseRecOn with
  | nil => exact fun _ _ _ hid => nomatch hid
  | append_singleton front last ih =>
    intro back hsplit id hid
    rw [List.append_assoc, List.singleton_append] at hsplit
    have hbefore := ih _ hsplit
    rw [taskIdsOf_append] at hid
    rcases List.mem_append.mp hid with hold | hnew
    · exact hbefore id hold
    obtain rfl : id = last.task.id := List.mem_singleton.mp hnew
    by_contra hunassigned
    have hready : last ∈ readyLaneTasks host preflight none assignedTasks := by
      refine mem_readyLaneTasks.mpr ⟨?_, hunassigned, ?_⟩
      · rw [hsplit]
        exact List.mem_append_right _ List.mem_cons_self
      · rw [makeDependencySatisfactionChecker, List.all_eq_true]
        intro dep hdep
        split
        · next hinside => exact decide_eq_true (hbefore dep (h.dep_before hsplit hdep hinside))
        · rfl
    rw [hend] at hready
    cases hready

end Order

end OpencodeSwarm
