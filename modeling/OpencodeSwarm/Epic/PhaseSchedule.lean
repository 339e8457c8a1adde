/-
  OpencodeSwarm.Epic.PhaseSchedule

  The dry run schedules exactly what can run.  Every wave is sound over the
  waves before it; a round without a wave leaves tasks that all wait, for each
  other or for a blocked one, and these are the tasks on a cycle of dependencies
  and those behind them.
-/
import OpencodeSwarm.Epic.ComponentFacts
import OpencodeSwarm.Epic.DryRun
import OpencodeSwarm.Lib.Cycles
import OpencodeSwarm.Turbo.PartitionOrder

namespace OpencodeSwarm

open Js

variable {N : Type} [LinearOrder N]

/-! ## The schedule -/

/-- The tasks of the waves. -/
def waveTasks (waves : List EpicWaveChoice) : List JsString :=
  waves.flatMap fun wave => wave.taskIds

/-- The tasks a step plans: not blocked, and in no wave before it. -/
def remainingAfter (input : EpicDryRunInput N) (before : List EpicWaveChoice) : List Task :=
  (input.tasks.filter fun task => task.id ∉ blockedIds input.tasks).filter fun task =>
    task.id ∉ waveTasks before

/-- The conflict graph of the step behind `before`. -/
def stepGraph (host : PlanningHost) (numbers : PlanningNumbers N) (input : EpicDryRunInput N)
    (before : List EpicWaveChoice) : EpicConflictGraph :=
  buildEpicConflictGraph host numbers
    { input.toEpicConflictGraphInput with tasks := remainingAfter input before }

/-- The components of that graph. -/
def stepPartition (host : PlanningHost) (numbers : PlanningNumbers N) (input : EpicDryRunInput N)
    (before : List EpicWaveChoice) : EpicComponentPartition N :=
  partitionEpicComponents host numbers (stepGraph host numbers input before)
    ((remainingAfter input before).map fun task => task.id) input.densityThreshold

/-- `task` depends on `dep`, both of the phase. -/
def DependsInPhase (tasks : List Task) (id dep : JsString) : Prop :=
  ∃ task ∈ tasks, task.id = id ∧ dep ∈ task.depends ∧ dep ∈ tasks.map fun task => task.id

/-- What a wave keeps to, behind the waves `before` it. -/
structure WaveSound (host : PlanningHost) (numbers : PlanningNumbers N) (input : EpicDryRunInput N)
    (before : List EpicWaveChoice) (wave : EpicWaveChoice) : Prop where
  nodup : wave.taskIds.Nodup
  remaining : ∀ id ∈ wave.taskIds, id ∈ (remainingAfter input before).map fun task => task.id
  depends : ∀ id ∈ wave.taskIds, ∀ dep, DependsInPhase input.tasks id dep → dep ∈ waveTasks before
  apart : ∀ a ∈ wave.taskIds, ∀ b ∈ wave.taskIds, a ≠ b →
    b ∉ ((stepGraph host numbers input before).adjacency.get? a).getD []
  exclusive : ∀ id ∈ wave.taskIds,
    ((stepGraph host numbers input before).exclusive.get? id).isSome = true → wave.taskIds = [id]
  serial : ∀ component ∈ (stepPartition host numbers input before).components,
    component.mode = .serialComponent →
      (wave.taskIds.filter fun id => id ∈ component.members).length ≤ 1

/-! ## Ready tasks -/

variable {graph : EpicConflictGraph}

/-- Ready tasks are sorted tasks whose dependencies lie outside and are satisfied there. -/
theorem mem_readyEpicTasks {host : PlanningHost} {satisfiedOutside : JsString → Bool}
    {id : JsString} : id ∈ readyEpicTasks host graph [] satisfiedOutside
      ↔ ∃ classified ∈ graph.preflight.sortedTasks, classified.task.id = id
          ∧ ∀ dep ∈ classified.task.depends,
              (graph.preflight.taskMap.get? dep).isSome = false ∧ satisfiedOutside dep = true := by
  have hready : ∀ classified : ClassifiedTask,
      (decide (classified.task.id ∉ ([] : List JsString))
          && makeDependencySatisfactionChecker graph.preflight.taskMap [] (some satisfiedOutside)
            classified) = true
        ↔ ∀ dep ∈ classified.task.depends,
            (graph.preflight.taskMap.get? dep).isSome = false ∧ satisfiedOutside dep = true := by
    intro classified
    have hnew : decide (classified.task.id ∉ ([] : List JsString)) = true :=
      decide_eq_true List.not_mem_nil
    rw [hnew, Bool.true_and]
    rw [makeDependencySatisfactionChecker, List.all_eq_true]
    refine forall₂_congr fun dep _ => ?_
    split
    · next hinside =>
      simp [hinside]
    · next houtside =>
      simp [houtside]
  unfold readyEpicTasks getReadyTasks
  rw [List.mem_map]
  constructor
  · rintro ⟨classified, hmem, hid⟩
    obtain ⟨hsorted, hsatisfied⟩ := List.mem_filter.mp ((sortBy_perm _ _).mem_iff.mp hmem)
    exact ⟨classified, hsorted, hid, (hready classified).mp hsatisfied⟩
  · rintro ⟨classified, hsorted, hid, hdeps⟩
    exact ⟨classified, (sortBy_perm _ _).mem_iff.mpr
      (List.mem_filter.mpr ⟨hsorted, (hready classified).mpr hdeps⟩), hid⟩

omit [LinearOrder N] in
theorem chooseEpicWave_eq_none_iff {host : PlanningHost} {graph : EpicConflictGraph}
    {partition : EpicComponentPartition N} {readyIds : List JsString} {maxParallel : Int}
    {ages : OrderedMap JsString Nat} :
    chooseEpicWave host graph partition readyIds maxParallel ages = none ↔ readyIds = [] := by
  unfold chooseEpicWave
  split
  · next hempty => exact ⟨fun _ => hempty, fun _ => rfl⟩
  · next hready =>
    refine ⟨fun hnone => ?_, fun hempty => absurd hempty hready⟩
    dsimp only at hnone
    split at hnone
    · cases hnone
    · cases hnone

/-! ## Serial components -/

/-- What the greedy loop keeps of the serial components: each of them is used once. -/
structure SerialOnce (componentOf : JsString → JsString) (serial : JsString → Bool)
    (state : List JsString × List JsString) : Prop where
  used : state.2 = (state.1.map componentOf).filter serial
  once : state.2.Nodup

theorem SerialOnce.chooseTask {graph : EpicConflictGraph} {componentOf : JsString → JsString}
    {serial : JsString → Bool} {width : Nat} {state : List JsString × List JsString}
    (h : SerialOnce componentOf serial state) (id : JsString) :
    SerialOnce componentOf serial (chooseTask graph componentOf serial width state id) := by
  obtain ⟨chosen, usedSerial⟩ := state
  obtain ⟨hused, honce⟩ := h
  dsimp only at hused honce
  unfold OpencodeSwarm.chooseTask
  dsimp only
  split
  · exact ⟨hused, honce⟩
  split
  · exact ⟨hused, honce⟩
  next hfree =>
  split
  · exact ⟨hused, honce⟩
  constructor
  · dsimp only
    rw [List.map_append, List.filter_append, ← hused]
    cases hserial : serial (componentOf id) with
    | true | false => simp [hserial]
  · dsimp only
    split
    · next hserial =>
      have hnew : componentOf id ∉ usedSerial := by
        intro hmem
        rw [hserial, Bool.true_and, List.contains_iff_mem] at hfree
        exact hfree hmem
      exact List.nodup_append.mpr ⟨honce, List.nodup_singleton _, by
        rintro used hmem other hother rfl
        rw [List.mem_singleton.mp hother] at hmem
        exact hnew hmem⟩
    · exact honce

theorem serialOnce_foldl (graph : EpicConflictGraph) (componentOf : JsString → JsString)
    (serial : JsString → Bool) (width : Nat) (order : List JsString) :
    SerialOnce componentOf serial
      (order.foldl (chooseTask graph componentOf serial width) ([], [])) := by
  induction order using List.reverseRecOn with
  | nil => exact ⟨rfl, List.nodup_nil⟩
  | append_singleton order id ih =>
    rw [List.foldl_concat]
    exact ih.chooseTask id

theorem SerialOnce.length_le {componentOf : JsString → JsString} {serial : JsString → Bool}
    {state : List JsString × List JsString} (h : SerialOnce componentOf serial state)
    (component : JsString) (hserial : serial component = true) {p : JsString → Bool}
    (hp : ∀ id, p id = true → componentOf id = component) : (state.1.filter p).length ≤ 1 := by
  have hnodup := h.once
  rw [h.used] at hnodup
  have hcount : ((state.1.map componentOf).filter serial).count component ≤ 1 :=
    List.nodup_iff_count_le_one.mp hnodup component
  rw [List.count_filter hserial] at hcount
  refine le_trans ?_ hcount
  rw [List.count, List.countP_map, ← List.countP_eq_length_filter]
  refine List.countP_mono_left fun id _ hid => ?_
  simp [hp id hid]

theorem chooseEpicWave_serial {host : PlanningHost} {numbers : PlanningNumbers N}
    {graph' : EpicConflictGraph} {taskIds readyIds : List JsString} {densityThreshold : N}
    {maxParallel : Int} {ages : OrderedMap JsString Nat} {choice : EpicWaveChoice}
    (h : chooseEpicWave host graph
      (partitionEpicComponents host numbers graph' taskIds densityThreshold) readyIds maxParallel
      ages = some choice) {component : EpicComponent N}
    (hcomponent : component
      ∈ (partitionEpicComponents host numbers graph' taskIds densityThreshold).components)
    (hserial : component.mode = .serialComponent) :
    (choice.taskIds.filter fun id => id ∈ component.members).length ≤ 1 := by
  have hmode := modes_of_mem hcomponent
  have hof : ∀ id ∈ component.members, _ := fun id hid => componentOf_of_mem hcomponent hid
  generalize partitionEpicComponents host numbers graph' taskIds densityThreshold = partition at *
  unfold chooseEpicWave at h
  split at h
  · cases h
  dsimp only at h
  split at h
  · cases h
    exact (List.length_filter_le _ _).trans (le_refl _)
  · cases h
    have honce := serialOnce_foldl graph (fun id => (partition.componentOf.get? id).getD id)
      (fun component => OrderedMap.get? (partition.components.foldl
        (fun modes component => OrderedMap.set modes component.id component.mode) []) component
          == some .serialComponent) (max 1 maxParallel).toNat
      (sortBy (compareReady host graph (fun id => (partition.componentOf.get? id).getD id) ages)
        readyIds)
    refine honce.length_le component.id ?_ ?_
    · rw [hmode, hserial]
      exact beq_self_eq_true _
    · intro id hid
      rw [hof id (of_decide_eq_true hid)]
      rfl

/-! ## One step -/

section Step

variable {host : PlanningHost} {numbers : PlanningNumbers N} {input : EpicDryRunInput N}

omit [LinearOrder N] in
theorem isPreflight_epicPreflight (host : PlanningHost) (input : EpicConflictGraphInput N) :
    IsPreflight host (epicPreflight host input) :=
  isPreflight_runPartitionPreflight _ _ _ _ _ _

omit [LinearOrder N] in
theorem get?_epicPreflight {input : EpicConflictGraphInput N} {id : JsString}
    {classified : ClassifiedTask}
    (h : (epicPreflight host input).taskMap.get? id = some classified) :
    classified.task ∈ input.tasks ∧ classified.task.id = id :=
  ⟨task_mem_of_mem_taskMap (OrderedMap.mem_of_get? h),
    (isPreflight_epicPreflight host input).taskMap.id_of_get? h⟩

omit [LinearOrder N] in
theorem isSome_get?_epicPreflight_iff (host : PlanningHost) (input : EpicConflictGraphInput N)
    (id : JsString) :
    ((epicPreflight host input).taskMap.get? id).isSome = true
      ↔ id ∈ input.tasks.map fun task => task.id := by
  constructor
  · intro hsome
    obtain ⟨classified, hget⟩ := Option.isSome_iff_exists.mp hsome
    obtain ⟨htask, rfl⟩ := get?_epicPreflight hget
    exact List.mem_map_of_mem htask
  · intro hid
    obtain ⟨task, htask, rfl⟩ := List.mem_map.mp hid
    exact isSome_get?_taskMap htask

variable {state : DryRunState}

/-- The ready tasks of a step wait for nothing that is left, and for nothing blocked. -/
theorem ready_step {id : JsString} (h : id ∈ readyEpicTasks host
      (buildEpicConflictGraph host numbers (dryRunStep input state).toEpicConflictGraphInput) []
      (dryRunStep input state).satisfiedOutside) :
    ∃ task ∈ state.remaining, task.id = id ∧ ∀ dep ∈ task.depends,
      dep ∉ (state.remaining.map fun task => task.id) ∧ dep ∉ blockedIds input.tasks := by
  obtain ⟨classified, hsorted, hid, hdeps⟩ := mem_readyEpicTasks.mp h
  have hget := (isPreflight_epicPreflight host
    (dryRunStep input state).toEpicConflictGraphInput).get?_of_mem_sortedTasks hsorted
  obtain ⟨htask, -⟩ := get?_epicPreflight hget
  refine ⟨classified.task, htask, hid, fun dep hdep => ?_⟩
  obtain ⟨houtside, hsatisfied⟩ := hdeps dep hdep
  constructor
  · intro hremaining
    have hinside := (isSome_get?_epicPreflight_iff host
      (dryRunStep input state).toEpicConflictGraphInput dep).mpr hremaining
    exact absurd (hinside.symm.trans houtside) (by decide)
  · intro hblocked
    have hfree : (!(blockedIds input.tasks).contains dep) = true := hsatisfied
    rw [List.contains_iff_mem.mpr hblocked] at hfree
    cases hfree

theorem waveSound_of_step (hdistinct : (input.tasks.map fun task => task.id).Nodup)
    (hremaining : state.remaining = remainingAfter input state.waves)
    {partition : EpicComponentPartition N} {choice : EpicWaveChoice}
    (h : planNextEpicWave host numbers (dryRunStep input state) = (partition, some choice)) :
    WaveSound host numbers input state.waves choice := by
  have hgraph : (dryRunStep input state).toEpicConflictGraphInput
      = { input.toEpicConflictGraphInput with tasks := remainingAfter input state.waves } := by
    rw [← hremaining]
    rfl
  have hmany := planNextEpicWave_many h
  have hsome := planNextEpicWave_some h
  rw [Prod.mk.injEq] at h
  obtain ⟨-, hchoice⟩ := h
  have hready : ∀ id ∈ choice.taskIds, id ∈ readyEpicTasks host
      (buildEpicConflictGraph host numbers (dryRunStep input state).toEpicConflictGraphInput) []
      (dryRunStep input state).satisfiedOutside := by
    intro id hid
    rcases chooseEpicWave_cases hchoice with ⟨only, honly, hone⟩ | ⟨-, -, order, hperm, hgreedy⟩
    · rw [hone] at hid
      rwa [List.mem_singleton.mp hid]
    · exact hperm.mem_iff.mp (hgreedy.sublist.subset hid)
  have hlong : ∀ a ∈ choice.taskIds, ∀ b ∈ choice.taskIds, a ≠ b → 2 ≤ choice.taskIds.length := by
    intro a ha b hb hne
    by_contra hshort
    obtain ⟨only, honly⟩ : ∃ only, choice.taskIds = [only] :=
      List.length_eq_one_iff.mp (by
        have hpos := List.length_pos_of_mem ha
        omega)
    rw [honly] at ha hb
    exact hne ((List.mem_singleton.mp ha).trans (List.mem_singleton.mp hb).symm)
  constructor
  · by_cases hlength : 2 ≤ choice.taskIds.length
    · exact (hmany hlength).1
    obtain ⟨only, honly⟩ : ∃ only, choice.taskIds = [only] :=
      List.length_eq_one_iff.mp (by
        have hpos := List.length_pos_of_ne_nil hsome.1
        omega)
    rw [honly]
    exact List.nodup_singleton _
  · intro id hid
    rw [← hremaining]
    exact hsome.2 id hid
  · rintro id hid dep ⟨task, htask, rfl, hdepends, hphase⟩
    obtain ⟨other, hother, hsame, hdeps⟩ := ready_step (hready _ hid)
    have hmem : other ∈ input.tasks := by
      rw [hremaining] at hother
      exact (List.mem_filter.mp (List.mem_filter.mp hother).1).1
    cases List.inj_on_of_nodup_map hdistinct hmem htask hsame
    obtain ⟨hgone, hfree⟩ := hdeps dep hdepends
    by_contra hunissued
    obtain ⟨depTask, hdepTask, rfl⟩ := List.mem_map.mp hphase
    refine hgone ?_
    rw [hremaining]
    refine List.mem_map_of_mem (List.mem_filter.mpr ⟨List.mem_filter.mpr ⟨hdepTask, ?_⟩, ?_⟩)
    · exact decide_eq_true hfree
    · exact decide_eq_true hunissued
  · intro a ha b hb hne hadjacent
    obtain ⟨hnodup, hvertex, hpairwise, -⟩ := hmany (hlong a ha b hb hne)
    have ha' := hvertex a ha
    rw [hgraph] at ha' hpairwise
    rw [stepGraph, get?_adjacency ha'] at hadjacent
    -- adjacency is symmetric, so the order of the two in the wave does not matter
    have hsymm : Std.Symm fun a b : JsString => a ≠ b → b ∉ neighboursOf (graphEdges host numbers
        { input.toEpicConflictGraphInput with tasks := remainingAfter input state.waves }) a :=
      ⟨fun a b hapart hne hmem => hapart hne.symm (mem_neighboursOf_comm hne.symm hmem)⟩
    have heither := (hpairwise.imp fun {a b} hapart (hne : a ≠ b) hmem =>
      hapart (mem_neighboursOf_comm hne.symm hmem)).forall_of_forall
      (fun _ _ hne => absurd rfl hne) ha hb
    exact heither hne hadjacent
  · intro id hid hexclusive
    rcases chooseEpicWave_cases hchoice with ⟨only, honly, hone⟩ | ⟨hnone, -, -⟩
    · rw [hone] at hid ⊢
      rw [List.mem_singleton.mp hid]
    · have hfree := hnone id (hready id hid)
      rw [hgraph] at hfree
      rw [stepGraph, hfree] at hexclusive
      cases hexclusive
  · intro component hcomponent hserial
    unfold stepPartition stepGraph at hcomponent
    rw [← hgraph, ← hremaining] at hcomponent
    exact chooseEpicWave_serial hchoice hcomponent hserial

/-- In a round without a wave everything waits, for what is left or for something blocked. -/
theorem waits_of_no_wave (hsubset : state.remaining ⊆ input.tasks)
    (h : (planNextEpicWave host numbers (dryRunStep input state)).2 = none) :
    ∀ id ∈ state.remaining.map fun task => task.id, ∃ dep, DependsInPhase input.tasks id dep
      ∧ (dep ∈ (state.remaining.map fun task => task.id) ∨ dep ∈ blockedIds input.tasks) := by
  intro id hid
  have hpreflight := isPreflight_epicPreflight host
    (dryRunStep input state).toEpicConflictGraphInput
  have hinside : ∀ id, _ := isSome_get?_epicPreflight_iff host
    (dryRunStep input state).toEpicConflictGraphInput
  obtain ⟨classified, hget⟩ := Option.isSome_iff_exists.mp ((hinside _).mpr hid)
  obtain ⟨htask, hsame⟩ := get?_epicPreflight hget
  have hphase : ∀ dep, dep ∈ (state.remaining.map fun task => task.id)
      ∨ dep ∈ blockedIds input.tasks → dep ∈ input.tasks.map fun task => task.id := by
    rintro dep (hleft | hblocked)
    · exact List.map_subset _ hsubset hleft
    · exact List.map_subset _ (List.filter_subset_self _) hblocked
  suffices hwaits : ∃ dep ∈ classified.task.depends,
      dep ∈ (state.remaining.map fun task => task.id) ∨ dep ∈ blockedIds input.tasks by
    obtain ⟨dep, hdep, hkind⟩ := hwaits
    exact ⟨dep, ⟨classified.task, hsubset htask, hsame, hdep, hphase dep hkind⟩, hkind⟩
  by_cases hcycle : id ∈ (epicPreflight host
      (dryRunStep input state).toEpicConflictGraphInput).tasksInCycle
  · obtain ⟨dep, hdep, hdepCycle⟩ := hpreflight.exists_dep_of_cycle hcycle hget
    have hkey := (hpreflight.mem_tasksInCycle_iff.mp hdepCycle).1
    exact ⟨dep, hdep, Or.inl ((hinside _).mp (OrderedMap.mem_keys_iff.mp hkey))⟩
  · have hsorted := hpreflight.mem_sortedTasks (by
      by_contra hunsorted
      exact hcycle (hpreflight.mem_tasksInCycle_iff.mpr
        ⟨OrderedMap.mem_keys_iff.mpr ((hinside _).mpr hid), hunsorted⟩)) hget
    have hnone := chooseEpicWave_eq_none_iff.mp h
    by_contra hall
    push Not at hall
    have hready : id ∈ readyEpicTasks host
        (buildEpicConflictGraph host numbers (dryRunStep input state).toEpicConflictGraphInput) []
        (dryRunStep input state).satisfiedOutside := by
      refine mem_readyEpicTasks.mpr ⟨classified, hsorted, hsame, fun dep hdep => ?_⟩
      obtain ⟨hgone, hfree⟩ := hall dep hdep
      constructor
      · rw [← Bool.not_eq_true]
        exact fun hsome => hgone ((hinside _).mp hsome)
      · show (!(blockedIds input.tasks).contains dep) = true
        rw [Bool.not_eq_true', ← Bool.not_eq_true, List.contains_iff_mem]
        exact hfree
    rw [hnone] at hready
    cases hready

end Step

/-! ## The whole run -/

section Run

variable {host : PlanningHost} {numbers : PlanningNumbers N} {input : EpicDryRunInput N}

/-- The state of the loop keeps its waves sound, and exactly the tasks that are in none. -/
structure Scheduling (host : PlanningHost) (numbers : PlanningNumbers N)
    (input : EpicDryRunInput N) (state : DryRunState) : Prop where
  remaining : state.remaining = remainingAfter input state.waves
  once : (waveTasks state.waves).Nodup
  sound : ∀ front wave back, state.waves = front ++ wave :: back →
    WaveSound host numbers input front wave

/-- The start of the loop. -/
def dryRunStart (input : EpicDryRunInput N) : DryRunState :=
  ⟨input.tasks.filter fun task => task.id ∉ blockedIds input.tasks, [], [], 0, false⟩

omit [LinearOrder N] in
theorem remainingAfter_append (input : EpicDryRunInput N) (before : List EpicWaveChoice)
    (wave : EpicWaveChoice) :
    remainingAfter input (before ++ [wave])
      = (remainingAfter input before).filter fun task => task.id ∉ wave.taskIds := by
  unfold remainingAfter waveTasks
  rw [List.flatMap_append, List.flatMap_singleton, List.filter_filter, List.filter_filter,
    List.filter_filter]
  refine List.filter_congr fun task _ => ?_
  simp only [List.mem_append, not_or, Bool.decide_and]
  cases decide (task.id ∉ wave.taskIds) <;> simp

omit [LinearOrder N] in
theorem mem_map_remainingAfter (input : EpicDryRunInput N) (before : List EpicWaveChoice)
    {id : JsString} :
    id ∈ ((remainingAfter input before).map fun task => task.id)
      ↔ id ∈ (input.tasks.map fun task => task.id) ∧ id ∉ blockedIds input.tasks
        ∧ id ∉ waveTasks before := by
  simp only [remainingAfter, List.mem_map, List.mem_filter, decide_eq_true_eq]
  constructor
  · rintro ⟨task, ⟨⟨htask, hopen⟩, hunissued⟩, rfl⟩
    exact ⟨⟨task, htask, rfl⟩, hopen, hunissued⟩
  · rintro ⟨⟨task, htask, rfl⟩, hopen, hunissued⟩
    exact ⟨task, ⟨⟨htask, hopen⟩, hunissued⟩, rfl⟩

theorem scheduling_dryRunStart (host : PlanningHost) (numbers : PlanningNumbers N)
    (input : EpicDryRunInput N) : Scheduling host numbers input (dryRunStart input) := by
  constructor
  · exact (List.filter_eq_self.mpr fun task _ => decide_eq_true List.not_mem_nil).symm
  · exact List.nodup_nil
  · intro front wave back hsplit
    have hnil : ([] : List EpicWaveChoice) = front ++ wave :: back := hsplit
    exact absurd hnil.symm (List.append_ne_nil_of_right_ne_nil _ (List.cons_ne_nil _ _))

variable {state : DryRunState}

theorem Scheduling.issue {state' : DryRunState} (h : Scheduling host numbers input state)
    {wave : EpicWaveChoice} (hsound : WaveSound host numbers input state.waves wave)
    (hremaining : state'.remaining = state.remaining.filter fun task => task.id ∉ wave.taskIds)
    (hwaves : state'.waves = state.waves ++ [wave]) : Scheduling host numbers input state' := by
  constructor
  · rw [hremaining, hwaves, remainingAfter_append, ← h.remaining]
  · rw [hwaves]
    rw [waveTasks, List.flatMap_append, List.flatMap_singleton]
    refine List.nodup_append.mpr ⟨h.once, hsound.nodup, ?_⟩
    rintro id hold other hnew rfl
    exact ((mem_map_remainingAfter input _).mp (hsound.remaining id hnew)).2.2 hold
  · intro front other back hsplit
    rw [hwaves] at hsplit
    rcases List.eq_nil_or_concat back with rfl | ⟨back, last, rfl⟩
    · obtain ⟨rfl, hlast⟩ := List.append_inj' hsplit rfl
      cases hlast
      exact hsound
    · rw [List.concat_eq_append, ← List.cons_append, ← List.append_assoc] at hsplit
      obtain ⟨hwaves', -⟩ := List.append_inj' hsplit rfl
      exact h.sound front other back hwaves'

/-- One round: it stops without a wave, or issues one that is sound. -/
theorem Scheduling.round (hdistinct : (input.tasks.map fun task => task.id).Nodup)
    (hbudget : input.maxWork = none) (h : Scheduling host numbers input state) :
    Scheduling host numbers input (dryRunRound host numbers input state).1
      ∧ ((dryRunRound host numbers input state).2 = true →
          (dryRunRound host numbers input state).1.remaining.length < state.remaining.length)
      ∧ ((dryRunRound host numbers input state).2 = false → (planNextEpicWave host numbers
            (dryRunStep input (dryRunRound host numbers input state).1)).2 = none) := by
  simp only [dryRunRound, hbudget, Option.any_none, Bool.false_eq_true, if_false]
  generalize hplan : planNextEpicWave host numbers (dryRunStep input state) = planned
  obtain ⟨partition, choice⟩ := planned
  cases choice with
  | none =>
    refine ⟨⟨h.remaining, h.once, h.sound⟩, fun hgoes => Bool.noConfusion hgoes, fun _ => ?_⟩
    exact congrArg Prod.snd hplan
  | some wave =>
    have hsound := waveSound_of_step hdistinct h.remaining hplan
    refine ⟨h.issue hsound rfl rfl, fun _ => ?_, fun hstops => Bool.noConfusion hstops⟩
    obtain ⟨hsome, htasks⟩ := planNextEpicWave_some hplan
    obtain ⟨id, hid⟩ := List.exists_mem_of_ne_nil _ hsome
    obtain ⟨task, htask, rfl⟩ := List.mem_map.mp (htasks id hid)
    refine List.length_filter_lt_length_iff_exists.mpr ⟨task, htask, ?_⟩
    rw [decide_eq_true_eq, not_not]
    exact hid

/-- The loop ends by itself, with sound waves and nothing left that could run. -/
theorem Scheduling.loop (hdistinct : (input.tasks.map fun task => task.id).Nodup)
    (hbudget : input.maxWork = none) (fuel : Nat) (h : Scheduling host numbers input state)
    (hfuel : state.remaining.length ≤ fuel) :
    Scheduling host numbers input (dryRunLoop host numbers input fuel state)
      ∧ ((dryRunLoop host numbers input fuel state).remaining = [] ∨ (planNextEpicWave host numbers
            (dryRunStep input (dryRunLoop host numbers input fuel state))).2 = none) := by
  induction fuel generalizing state with
  | zero => exact ⟨h, Or.inl (List.eq_nil_of_length_eq_zero (Nat.le_zero.mp hfuel))⟩
  | succ fuel ih =>
    obtain ⟨hround, hshrinks, hstops⟩ := h.round hdistinct hbudget
    unfold dryRunLoop
    split
    · next hempty => exact ⟨h, Or.inl hempty⟩
    · dsimp only
      split
      · next hgoes =>
        have hless := hshrinks hgoes
        exact ih hround (by omega)
      · next hgoes =>
        exact ⟨hround, Or.inr (hstops (Bool.not_eq_true _ ▸ hgoes))⟩

theorem dryRunLoop_enough (hdistinct : (input.tasks.map fun task => task.id).Nodup)
    (hbudget : input.maxWork = none) {fuel fuel' : Nat} (h : Scheduling host numbers input state)
    (hfuel : state.remaining.length ≤ fuel) (hfuel' : state.remaining.length ≤ fuel') :
    dryRunLoop host numbers input fuel state = dryRunLoop host numbers input fuel' state := by
  induction fuel generalizing fuel' state with
  | zero =>
    have hempty := List.eq_nil_of_length_eq_zero (Nat.le_zero.mp hfuel)
    cases fuel' with
    | zero => rfl
    | succ fuel' =>
      unfold dryRunLoop
      rw [if_pos hempty]
  | succ fuel ih =>
    by_cases hempty : state.remaining = []
    · cases fuel' with
      | zero =>
        unfold dryRunLoop
        rw [if_pos hempty]
      | succ fuel' =>
        unfold dryRunLoop
        rw [if_pos hempty, if_pos hempty]
    · have hpos := List.length_pos_of_ne_nil hempty
      obtain ⟨fuel', rfl⟩ : ∃ n, fuel' = n + 1 := ⟨fuel' - 1, by omega⟩
      obtain ⟨hround, hshrinks, -⟩ := h.round hdistinct hbudget
      unfold dryRunLoop
      rw [if_neg hempty, if_neg hempty]
      dsimp only
      split
      · next hgoes =>
        have hless := hshrinks hgoes
        exact ih hround (by omega) (by omega)
      · rfl

/-- What a dry run promises of its waves and of the tasks that it leaves. -/
structure PhaseScheduled (host : PlanningHost) (numbers : PlanningNumbers N)
    (input : EpicDryRunInput N) (run : EpicPhaseDryRun) : Prop where
  once : (waveTasks run.waves).Nodup
  sound : ∀ front wave back, run.waves = front ++ wave :: back →
    WaveSound host numbers input front wave
  scheduled : ∀ id, id ∈ waveTasks run.waves
    ↔ id ∈ (input.tasks.map fun task => task.id)
      ∧ ¬ Dependency.Stuck (DependsInPhase input.tasks) (· ∈ blockedIds input.tasks) id
  distinct : run.unscheduled.Nodup
  unscheduled : ∀ id, id ∈ run.unscheduled
    ↔ id ∈ (input.tasks.map fun task => task.id)
      ∧ Dependency.Stuck (DependsInPhase input.tasks) (· ∈ blockedIds input.tasks) id

variable {id : JsString}

theorem Scheduling.mem_tasks (h : Scheduling host numbers input state)
    (hid : id ∈ waveTasks state.waves) : id ∈ input.tasks.map fun task => task.id := by
  obtain ⟨wave, hwave, hmem⟩ := List.mem_flatMap.mp hid
  obtain ⟨front, back, hsplit⟩ := List.append_of_mem hwave
  exact ((mem_map_remainingAfter input _).mp ((h.sound _ _ _ hsplit).remaining id hmem)).1

theorem Scheduling.not_stuck (h : Scheduling host numbers input state)
    (hid : id ∈ waveTasks state.waves) :
    ¬ Dependency.Stuck (DependsInPhase input.tasks) (· ∈ blockedIds input.tasks) id := by
  suffices hall : ∀ front back, state.waves = front ++ back → ∀ id ∈ waveTasks front,
      ¬ Dependency.Stuck (DependsInPhase input.tasks) (· ∈ blockedIds input.tasks) id from
    hall state.waves [] (List.append_nil _).symm id hid
  -- along the waves: all dependencies of a wave lie in the waves before it
  intro front
  induction front using List.reverseRecOn with
  | nil => exact fun _ _ _ hid => nomatch hid
  | append_singleton front wave ih =>
    intro back hsplit id hid hstuck
    rw [List.append_assoc, List.singleton_append] at hsplit
    have hbefore := ih _ hsplit
    rw [waveTasks, List.flatMap_append, List.flatMap_singleton] at hid
    rcases List.mem_append.mp hid with hold | hnew
    · exact hbefore id hold hstuck
    · have hsound := h.sound _ _ _ hsplit
      rcases hstuck.cases with hblocked | ⟨dep, hdepends, hdep⟩
      · exact ((mem_map_remainingAfter input _).mp (hsound.remaining id hnew)).2.1 hblocked
      · exact hbefore dep (hsound.depends id hnew dep hdepends) hdep

/-- The dry run of a phase schedules exactly what can run. -/
theorem phaseScheduled_dryRunEpicPhase (host : PlanningHost) (numbers : PlanningNumbers N)
    (input : EpicDryRunInput N) (hdistinct : (input.tasks.map fun task => task.id).Nodup)
    (hbudget : input.maxWork = none) :
    (∀ fuel, (dryRunStart input).remaining.length ≤ fuel →
        dryRunLoop host numbers input fuel (dryRunStart input)
          = dryRunLoop host numbers input (dryRunStart input).remaining.length (dryRunStart input))
      ∧ PhaseScheduled host numbers input (dryRunEpicPhase host numbers input) := by
  have hstart := scheduling_dryRunStart host numbers input
  obtain ⟨hend, hlast⟩ := hstart.loop hdistinct hbudget _ (le_refl _)
  refine ⟨fun fuel hfuel => dryRunLoop_enough hdistinct hbudget hstart hfuel (le_refl _), ?_⟩
  have hrun : dryRunEpicPhase host numbers input
      = { waves := (dryRunLoop host numbers input (dryRunStart input).remaining.length
            (dryRunStart input)).waves
          unscheduled := sortBy host.localeCompare ((blockedIds input.tasks).eraseDups
            ++ (dryRunLoop host numbers input (dryRunStart input).remaining.length
              (dryRunStart input)).remaining.map fun task => task.id)
          work := (dryRunLoop host numbers input (dryRunStart input).remaining.length
            (dryRunStart input)).work
          aborted := (dryRunLoop host numbers input (dryRunStart input).remaining.length
            (dryRunStart input)).aborted } := rfl
  rw [hrun]
  generalize dryRunLoop host numbers input (dryRunStart input).remaining.length
    (dryRunStart input) = last at *
  have hleft : ∀ {id}, id ∈ (last.remaining.map fun task => task.id)
      ↔ id ∈ (input.tasks.map fun task => task.id) ∧ id ∉ blockedIds input.tasks
        ∧ id ∉ waveTasks last.waves := by
    intro id
    rw [hend.remaining, mem_map_remainingAfter]
  have hsubset : last.remaining ⊆ input.tasks := by
    rw [hend.remaining]
    exact fun task htask => (List.mem_filter.mp (List.mem_filter.mp htask).1).1
  have hstuck : ∀ id ∈ last.remaining.map fun task => task.id,
      Dependency.Stuck (DependsInPhase input.tasks) (· ∈ blockedIds input.tasks) id := by
    apply Dependency.stuck_of_waiting
    rcases hlast with hempty | hnone
    · rw [hempty]
      exact fun _ hid => nomatch hid
    · exact waits_of_no_wave hsubset hnone
  constructor
  · exact hend.once
  · exact hend.sound
  · intro id
    refine ⟨fun hissued => ⟨hend.mem_tasks hissued, hend.not_stuck hissued⟩, ?_⟩
    rintro ⟨hid, hruns⟩
    by_contra hunissued
    by_cases hblocked : id ∈ blockedIds input.tasks
    · exact hruns (.of_hopeless (Or.inl hblocked))
    · exact hruns (hstuck id (hleft.mpr ⟨hid, hblocked, hunissued⟩))
  · refine (sortBy_perm _ _).nodup_iff.mpr (List.nodup_append.mpr
      ⟨nodup_eraseDups _, ?_, ?_⟩)
    · rw [hend.remaining]
      exact ((List.filter_sublist.trans List.filter_sublist).map _).nodup hdistinct
    · rintro id hblocked other hother rfl
      exact (hleft.mp hother).2.1 (List.mem_eraseDups.mp hblocked)
  · intro id
    rw [(sortBy_perm _ _).mem_iff, List.mem_append, List.mem_eraseDups]
    constructor
    · rintro (hblocked | hremaining)
      · exact ⟨List.map_subset _ (List.filter_subset_self _) hblocked,
          .of_hopeless (Or.inl hblocked)⟩
      · exact ⟨(hleft.mp hremaining).1, hstuck id hremaining⟩
    · rintro ⟨hid, hid'⟩
      by_cases hblocked : id ∈ blockedIds input.tasks
      · exact Or.inl hblocked
      · exact Or.inr (hleft.mpr ⟨hid, hblocked, fun hissued => hend.not_stuck hissued hid'⟩)

end Run

/-- Five tasks, the last two waiting for each other. -/
def cyclicPhase : EpicDryRunInput ℤ :=
  phaseDryRunInput fiveTasks { fiveTaskPhase with
    tasks := [pendingTask "1.1" [] ["src/a.ts"], pendingTask "1.3" ["1.1"] ["src/c.ts"],
      plainTask "1.4" .blocked, pendingTask "1.6" ["1.7"] ["src/c.ts"],
      pendingTask "1.7" ["1.6"] ["src/c.ts"]] } smallScopes none

theorem phaseScheduled_cyclicPhase :
    PhaseScheduled codeUnitHost wholeNumbers cyclicPhase
        (dryRunEpicPhase codeUnitHost wholeNumbers cyclicPhase)
      ∧ (dryRunEpicPhase codeUnitHost wholeNumbers cyclicPhase).waves.map (·.taskIds)
        = [[js "1.1"], [js "1.3"]]
      ∧ (dryRunEpicPhase codeUnitHost wholeNumbers cyclicPhase).unscheduled
        = [js "1.4", js "1.6", js "1.7"] :=
  ⟨(phaseScheduled_dryRunEpicPhase codeUnitHost wholeNumbers cyclicPhase (by decide +kernel) rfl).2,
    by decide +kernel, by decide +kernel⟩

end OpencodeSwarm
