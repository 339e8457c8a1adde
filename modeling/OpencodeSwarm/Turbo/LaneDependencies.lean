/-
  OpencodeSwarm.Turbo.LaneDependencies

  Whether a lane holds the dependencies of its tasks.  Readiness counts a degraded
  or serialized dependency as done, and the check against other lanes skips it, so
  its dependents enter the lane, unless a conflict keeps them out.
-/
import OpencodeSwarm.Turbo.LanePlan

namespace OpencodeSwarm

open Js

/-! ## Dependencies in a lane -/

/-- Every pending dependency of a task in a lane stands before it in the lane. -/
def LanesRespectDependencies (phase : Phase) (plan : LeanTurboLanePlan) : Prop :=
  ∀ lane ∈ plan.lanes, ∀ front id back, lane.taskIds = front ++ id :: back →
    ∀ task ∈ lanePendingTasks phase, task.id = id → ∀ dep ∈ task.depends,
      dep ∈ ((lanePendingTasks phase).map fun task => task.id) → dep ∈ front

/-- The dependencies of a task in the task set are kept. -/
def dependenciesKept (preflight : PartitionPreflight) (kept : List ClassifiedTask)
    (classified : ClassifiedTask) : Bool :=
  classified.task.depends.all fun dep =>
    !(preflight.taskMap.get? dep).isSome || decide (dep ∈ taskIdsOf kept)

/-- The lane that would take a normal task only behind its dependencies. -/
def dependencyLane (preflight : PartitionPreflight) (order : List ClassifiedTask) :
    List ClassifiedTask :=
  Greedy.keep (fun kept classified =>
    laneAdmits kept classified && dependenciesKept preflight kept classified) order

/-- Every normal task that this lane leaves out for a dependency also conflicts
    with a task in it. -/
def DependentsConflict (preflight : PartitionPreflight) (order : List ClassifiedTask) : Prop :=
  ∀ front classified back, order = front ++ classified :: back →
    classified.category = .normal →
    dependenciesKept preflight (dependencyLane preflight front) classified = false →
      ∃ other ∈ dependencyLane preflight front, filesConflict classified other = true

variable {preflight : PartitionPreflight} {kept : List ClassifiedTask}

theorem dependenciesKept_iff {classified : ClassifiedTask} :
    dependenciesKept preflight kept classified = true
      ↔ ∀ dep ∈ classified.task.depends, dep ∈ preflight.taskMap.keys → dep ∈ taskIdsOf kept := by
  rw [dependenciesKept, List.all_eq_true]
  refine forall₂_congr fun dep _ => ?_
  rw [Bool.or_eq_true, Bool.not_eq_true', decide_eq_true_eq, OrderedMap.mem_keys_iff,
    ← Bool.not_eq_true, imp_iff_not_or]

theorem satisfied_iff_dependentsConflict (preflight : PartitionPreflight)
    (order : List ClassifiedTask) :
    Greedy.Satisfied laneAdmits (dependenciesKept preflight) (dependencyLane preflight) order
      ↔ DependentsConflict preflight order := by
  refine forall_congr' fun front => forall_congr' fun classified => forall_congr' fun back =>
    forall_congr' fun _ => ?_
  unfold laneAdmits
  rw [Bool.and_eq_true, decide_eq_true_eq, Bool.not_eq_true', ← Bool.not_eq_true,
    List.any_eq_true, ← Bool.not_eq_true]
  constructor
  · intro h hnormal hmissing
    by_contra hapart
    exact hmissing (h ⟨hnormal, hapart⟩)
  · rintro h ⟨hnormal, hapart⟩
    by_contra hmissing
    exact hapart (h hnormal hmissing)

/-- Lanes of kept tasks respect dependencies when each kept task has its own before it. -/
theorem lanesRespectDependencies_iff {phase : Phase} {plan : LeanTurboLanePlan}
    (hdistinct : (phase.tasks.map fun task => task.id).Nodup) (hlanes : plan.lanes = keptLanes kept)
    (hpending : ∀ classified ∈ kept, classified.task ∈ lanePendingTasks phase)
    (hkeys : ∀ id, id ∈ preflight.taskMap.keys
      ↔ id ∈ (lanePendingTasks phase).map fun task => task.id) : LanesRespectDependencies phase plan
      ↔ ∀ front classified back, kept = front ++ classified :: back →
          dependenciesKept preflight front classified = true := by
  rw [LanesRespectDependencies, hlanes]
  constructor
  · rintro h front classified back rfl
    have hne : front ++ classified :: back ≠ [] :=
      List.append_ne_nil_of_right_ne_nil _ (List.cons_ne_nil _ _)
    have hmem : classified.task ∈ lanePendingTasks phase :=
      hpending classified (List.mem_append_right _ List.mem_cons_self)
    rw [keptLanes, if_neg hne] at h
    refine dependenciesKept_iff.mpr fun dep hdep hinside => ?_
    exact h _ (List.mem_singleton_self _) (taskIdsOf front) classified.task.id (taskIdsOf back)
      (taskIdsOf_append front (classified :: back)) classified.task hmem rfl dep hdep
      ((hkeys dep).mp hinside)
  · intro h lane hlane front id back hsplit task htask hid dep hdep hdepPending
    unfold keptLanes at hlane
    split at hlane
    · cases hlane
    rw [List.mem_singleton.mp hlane] at hsplit
    obtain ⟨front', rest, rfl, hfront, hrest⟩ := List.map_eq_append_iff.mp hsplit
    obtain ⟨classified, back', rfl, hsame, -⟩ := List.map_eq_cons_iff.mp hrest
    have hmem : classified.task ∈ lanePendingTasks phase :=
      hpending classified (List.mem_append_right _ List.mem_cons_self)
    have hpendingDistinct : ((lanePendingTasks phase).map fun task => task.id).Nodup :=
      (List.filter_sublist.map _).nodup hdistinct
    cases List.inj_on_of_nodup_map hpendingDistinct htask hmem (hid.trans hsame.symm)
    rw [← hfront]
    exact dependenciesKept_iff.mp (h front' classified back' rfl) dep hdep
      ((hkeys dep).mpr hdepPending)

/-- Lanes respect dependencies exactly when every normal task that would wait for a
    dependency outside of the lane has a conflict with it as well. -/
theorem lanesRespectDependencies_planLeanTurboLanes_iff (host : PlanningHost) (now : Nat)
    (readTaskScopes : JsString → Option (List JsString)) (directory : JsString) (phaseNumber : Nat)
    (phases : List Phase) (config : LanePlannerConfig) (scopes : JsString → Option (List JsString))
    (isUpstreamCommitted : Option (JsString → Bool)) (phase : Phase)
    (hphase : (phases.find? fun phase => phase.id = phaseNumber) = some phase)
    (hdistinct : (phase.tasks.map fun task => task.id).Nodup) :
    LanesRespectDependencies phase (planLeanTurboLanes host now readTaskScopes directory phaseNumber
        phases config scopes isUpstreamCommitted)
      ↔ DependentsConflict (lanePreflight host readTaskScopes directory config scopes phase)
          (planOrder host (lanePreflight host readTaskScopes directory config scopes phase)
            isUpstreamCommitted) := by
  have hpreflight : IsPreflight host (lanePreflight host readTaskScopes directory config scopes
      phase) := isPreflight_runPartitionPreflight _ _ _ _ _ _
  have hkeys : ∀ id, id ∈ (lanePreflight host readTaskScopes directory config scopes
      phase).taskMap.keys ↔ id ∈ (lanePendingTasks phase).map fun task => task.id :=
    mem_keys_runPartitionPreflight_iff host readTaskScopes directory (lanePendingTasks phase)
      config.toLeanTurboConfig scopes
  have hpending : ∀ id classified, (lanePreflight host readTaskScopes directory config scopes
      phase).taskMap.get? id = some classified → classified.task ∈ lanePendingTasks phase :=
    fun id classified hget => (mem_of_get?_runPartitionPreflight hget).1
  obtain ⟨hlanes, -, -⟩ := planLeanTurboLanes_eq host readTaskScopes directory config scopes
    isUpstreamCommitted now hphase
  generalize lanePreflight host readTaskScopes directory config scopes phase = preflight at *
  obtain ⟨hplaced, -⟩ := lanePlanEnd_spec config hpreflight isUpstreamCommitted
  have horder : IsLaneOrder preflight preflight.tasksInCycle
      (planOrder host preflight isUpstreamCommitted) := isLaneOrder_laneOrder hpreflight _ _
  rw [lanesRespectDependencies_iff hdistinct (hlanes.trans hplaced.lanes) (fun classified hkept =>
      hpending _ classified (hpreflight.get?_of_mem_sortedTasks
        (horder.sorted classified ((Greedy.keep_sublist _ _).subset hkept)))) hkeys,
    ← Greedy.satisfied_keep_iff, Greedy.satisfied_iff]
  exact satisfied_iff_dependentsConflict preflight _

theorem lanesRespectDependencies_mixedPlan_iff :
    LanesRespectDependencies mixedPhase mixedPlan
      ↔ DependentsConflict (lanePreflight codeUnitHost (fun _ => none) (js "/repo") pairConfig
            mixedScopes mixedPhase)
          (planOrder codeUnitHost (lanePreflight codeUnitHost (fun _ => none) (js "/repo")
            pairConfig mixedScopes mixedPhase) (some fun _ => false)) :=
  lanesRespectDependencies_planLeanTurboLanes_iff codeUnitHost 0 (fun _ => none) (js "/repo") 2
    [mixedPhase] pairConfig mixedScopes (some fun _ => false) mixedPhase rfl (by decide +kernel)

/-- A task behind a degraded one is in the lane alone. -/
theorem not_lanesRespectDependencies_mixedPlan :
    (mixedPhase.tasks.map fun task => task.id).Nodup
      ∧ ¬ LanesRespectDependencies mixedPhase mixedPlan := by
  refine ⟨by decide +kernel, fun h => ?_⟩
  have hlanes : mixedPlan.lanes.map (fun lane => lane.taskIds) = [[js "2.2"]] := by decide +kernel
  obtain ⟨lane, rest, hlane, htasks, -⟩ := List.map_eq_cons_iff.mp hlanes
  have hfirst : lane ∈ mixedPlan.lanes := by
    rw [hlane]
    exact List.mem_cons_self
  have hdep := h lane hfirst [] (js "2.2") [] htasks (laneTask "2.2" .pending ["2.1"])
    (by decide +kernel) rfl (js "2.1") List.mem_cons_self (by decide +kernel)
  cases hdep

end OpencodeSwarm
