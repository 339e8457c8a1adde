/-
  OpencodeSwarm.Epic.Components

  The wave planner (`src/epic/components.ts`): components of the conflict graph
  with their modes and ages, the next wave among the ready tasks, and the dry run
  that repeats this step over one phase.
-/
import OpencodeSwarm.Epic.ConflictGraph

namespace OpencodeSwarm

open Js

variable {N : Type} [LinearOrder N]

/-! ## Union-find -/

/-- The parents of the union-find. -/
abbrev ParentMap := OrderedMap JsString JsString

/-- The first loop of `find`.  Parents lead to a root in fewer steps than there
    are keys, and `find` is asked for keys only. -/
def findRoot (parent : ParentMap) : Nat → JsString → JsString
  | 0, root => root
  | fuel + 1, root =>
    match parent.get? root with
    | none => root
    | some next => if next = root then root else findRoot parent fuel next

/-- The second loop of `find`: the path is compressed. -/
def compressPath (root : JsString) : Nat → JsString → ParentMap → ParentMap
  | 0, _, parent => parent
  | fuel + 1, node, parent =>
    if node = root then parent
    else compressPath root fuel ((parent.get? node).getD root) (parent.set node root)

def find (parent : ParentMap) (id : JsString) : JsString × ParentMap :=
  let root := findRoot parent parent.length id
  (root, compressPath root parent.length id parent)

/-- One edge joins the components of its ends. -/
def unite (parent : ParentMap) (edge : JsString × JsString) : ParentMap :=
  let (ra, parent) := find parent edge.1
  let (rb, parent) := find parent edge.2
  if ra ≠ rb then parent.set ra rb else parent

/-! ## Components -/

inductive EpicComponentMode where
  | exclusive
  | serialComponent
  | parallel
  deriving DecidableEq, Repr

structure EpicComponent (N : Type) where
  id : JsString
  members : List JsString
  mode : EpicComponentMode
  edgeCount : Nat
  density : N
  exclusiveReason : Option EpicExclusiveReason := none

structure EpicComponentPartition (N : Type) where
  components : List (EpicComponent N)
  componentOf : OrderedMap JsString JsString
  threshold : N

/-- `edges` of `partitionEpicComponents`: each edge inside the subset once, from
    the smaller id. -/
def subsetEdges (graph : EpicConflictGraph) (parent : ParentMap) : List (JsString × JsString) :=
  graph.adjacency.flatMap fun (a, neighbours) =>
    if (parent.get? a).isSome then
      (neighbours.filter fun b => codeUnitLe a b && a != b && (parent.get? b).isSome).map
        fun b => (a, b)
    else []

/-- `groups`: the keys of the union-find by their root. -/
def groupByRoot (parent : ParentMap) : OrderedMap JsString (List JsString) × ParentMap :=
  parent.keys.foldl
    (fun (state : OrderedMap JsString (List JsString) × ParentMap) id =>
      let (root, parent) := find state.2 id
      (state.1.set root ((state.1.get? root).getD [] ++ [id]), parent)) ([], parent)

/-- `edgeCount`: the edges of each group, by its root. -/
def countEdges (edges : List (JsString × JsString)) (parent : ParentMap) :
    OrderedMap JsString Nat :=
  (edges.foldl
    (fun (state : OrderedMap JsString Nat × ParentMap) edge =>
      let (root, parent) := find state.2 edge.1
      (state.1.set root ((state.1.get? root).getD 0 + 1), parent)) ([], parent)).1

/-- The component of one group. -/
def groupComponent (host : PlanningHost) (numbers : PlanningNumbers N) (densityThreshold : N)
    (edgeCount : OrderedMap JsString Nat) (root : JsString) (group : List JsString) :
    EpicComponent N :=
  let members := sortBy host.localeCompare group
  let n := members.length
  let count := (edgeCount.get? root).getD 0
  let density := if n < 2 then numbers.zero else numbers.ratio count (n * (n - 1) / 2)
  { id := members.headD []
    members := members
    mode := if densityThreshold < density then .serialComponent else .parallel
    edgeCount := count
    density := density }

/-- The component of an exclusive task. -/
def exclusiveComponent (numbers : PlanningNumbers N) (id : JsString)
    (reason : EpicExclusiveReason) : EpicComponent N :=
  { id := id
    members := [id]
    mode := .exclusive
    edgeCount := 0
    density := numbers.zero
    exclusiveReason := some reason }

/-- The connected components of the tasks, exclusive ones alone. -/
def partitionEpicComponents (host : PlanningHost) (numbers : PlanningNumbers N)
    (graph : EpicConflictGraph) (taskIds : List JsString) (densityThreshold : N) :
    EpicComponentPartition N :=
  let members := taskIds.eraseDups
  let single : ParentMap :=
    (members.filter fun id => (graph.exclusive.get? id).isNone).map fun id => (id, id)
  let edges := subsetEdges graph single
  let (groups, parent) := groupByRoot (edges.foldl unite single)
  let edgeCount := countEdges edges parent
  let grouped := groups.map fun (root, group) =>
    groupComponent host numbers densityThreshold edgeCount root group
  let alone := members.filterMap fun id =>
    (graph.exclusive.get? id).map (exclusiveComponent numbers id)
  let components := grouped ++ alone
  { components := sortBy (fun a b => host.localeCompare a.id b.id) components
    componentOf := components.foldl
      (fun (componentOf : OrderedMap JsString JsString) component =>
        component.members.foldl
          (fun (componentOf : OrderedMap JsString JsString) id => componentOf.set id component.id)
          componentOf) []
    threshold := densityThreshold }

/-! ## Ages -/

/-- `EpicWaveHistoryEntry`; of the recorded components only `byTask` is read. -/
structure EpicWaveHistoryEntry where
  taskIds : List JsString
  byTask : Option (OrderedMap JsString JsString)
  deriving DecidableEq

/-- A wave served a component. -/
def EpicWaveHistoryEntry.served (wave : EpicWaveHistoryEntry) (component : EpicComponent N) : Bool :=
  let byTask := wave.byTask.getD []
  let served := wave.taskIds.filterMap byTask.get?
  component.members.any fun member =>
    wave.taskIds.contains member ||
      match byTask.get? member with
      | none => false
      | some recorded => served.contains recorded

def componentAges (partition : EpicComponentPartition N) (history : List EpicWaveHistoryEntry) :
    OrderedMap JsString Nat :=
  partition.components.foldl
    (fun ages component =>
      ages.set component.id
        ((history.reverse.findIdx? fun wave => wave.served component).getD history.length)) []

/-! ## The next wave -/

/-- `EpicWaveChoice['kind']`. -/
inductive EpicWaveKind where
  | parallel
  | exclusive
  | serialComponent
  deriving DecidableEq, Repr

structure EpicWaveChoice where
  taskIds : List JsString
  kind : EpicWaveKind
  deriving DecidableEq

/-- The comparator of the greedy order: oldest component, topological order, id. -/
def compareReady (host : PlanningHost) (graph : EpicConflictGraph)
    (componentOf : JsString → JsString) (ages : OrderedMap JsString Nat) (a b : JsString) : Int :=
  let byAge : Int := ((ages.get? (componentOf b)).getD 0 : Int) - (ages.get? (componentOf a)).getD 0
  let byTopo : Int := ((graph.topoIndex.get? a).getD 0 : Int) - (graph.topoIndex.get? b).getD 0
  if byAge ≠ 0 then byAge else if byTopo ≠ 0 then byTopo else host.localeCompare a b

/-- One round of the greedy loop: `chosen` and `usedSerial`. -/
def chooseTask (graph : EpicConflictGraph) (componentOf : JsString → JsString)
    (serial : JsString → Bool) (width : Nat) (state : List JsString × List JsString)
    (id : JsString) : List JsString × List JsString :=
  let (chosen, usedSerial) := state
  let component := componentOf id
  if width ≤ chosen.length then state
  else if serial component && usedSerial.contains component then state
  else if chosen.any fun other => ((graph.adjacency.get? id).getD []).contains other then state
  else (chosen ++ [id], if serial component then usedSerial ++ [component] else usedSerial)

/-- The tasks of a wave in order of age, as many as the width admits. -/
def chooseEpicWave (host : PlanningHost) (graph : EpicConflictGraph)
    (partition : EpicComponentPartition N) (readyIds : List JsString) (maxParallel : Int)
    (ages : OrderedMap JsString Nat) : Option EpicWaveChoice :=
  if readyIds = [] then none
  else
    let componentOf (id : JsString) : JsString := (partition.componentOf.get? id).getD id
    let order := sortBy (compareReady host graph componentOf ages) readyIds
    match order.find? fun id => (graph.exclusive.get? id).isSome with
    | some exclusive => some ⟨[exclusive], .exclusive⟩
    | none =>
      let modes : OrderedMap JsString EpicComponentMode := partition.components.foldl
        (fun modes component => modes.set component.id component.mode) []
      let serial (component : JsString) : Bool := modes.get? component == some .serialComponent
      let width := (max 1 maxParallel).toNat
      let chosen := (order.foldl (chooseTask graph componentOf serial width) ([], [])).1
      let kind :=
        match chosen with
        | [only] => if serial (componentOf only) then .serialComponent else .parallel
        | _ => .parallel
      some ⟨chosen, kind⟩

def readyEpicTasks (host : PlanningHost) (graph : EpicConflictGraph) (done : List JsString)
    (satisfiedOutside : JsString → Bool) : List JsString :=
  let isSatisfied :=
    makeDependencySatisfactionChecker graph.preflight.taskMap done (some satisfiedOutside)
  (getReadyTasks host graph.preflight.sortedTasks done isSatisfied).map fun classified =>
    classified.task.id

/-! ## Recorded components -/

/-- `MAX_WAVE_COMPONENT_TASKS`. -/
def maxWaveComponentTasks : Nat := 256

structure EpicWaveComponents (N : Type) where
  byTask : OrderedMap JsString JsString
  modes : OrderedMap JsString EpicComponentMode
  density : OrderedMap JsString N
  exclusive : OrderedMap JsString EpicExclusiveReason
  threshold : N
  truncated : Bool

/-- The components as a wave records them, up to its bound. -/
def toWaveComponents (host : PlanningHost) (numbers : PlanningNumbers N)
    (partition : EpicComponentPartition N) (waveTaskIds : List JsString) : EpicWaveComponents N :=
  let ids := sortBy host.localeCompare partition.componentOf.keys
  let keep := ids.foldl
    (fun keep id => if maxWaveComponentTasks ≤ keep.length ∨ id ∈ keep then keep else keep ++ [id])
    waveTaskIds.eraseDups
  let byTask := (ids.filter fun id => keep.contains id).map fun id =>
    (id, (partition.componentOf.get? id).getD id)
  let recorded := partition.components.filter fun component =>
    (OrderedMap.values byTask).contains component.id
  { byTask := byTask
    modes := recorded.foldl (fun modes component => modes.set component.id component.mode) []
    density := recorded.foldl
      (fun density component => density.set component.id (numbers.roundMilli component.density)) []
    exclusive := recorded.foldl
      (fun exclusive component =>
        match component.exclusiveReason with
        | none => exclusive
        | some reason => exclusive.set component.id reason) []
    threshold := partition.threshold
    truncated := keep.length < ids.length }

/-! ## The planning step and the dry run -/

structure EpicNextWaveInput (N : Type) extends EpicConflictGraphInput N where
  maxParallel : Int
  densityThreshold : N
  satisfiedOutside : JsString → Bool
  history : List EpicWaveHistoryEntry

def planNextEpicWave (host : PlanningHost) (numbers : PlanningNumbers N)
    (input : EpicNextWaveInput N) : EpicComponentPartition N × Option EpicWaveChoice :=
  let graph := buildEpicConflictGraph host numbers input.toEpicConflictGraphInput
  let partition := partitionEpicComponents host numbers graph
    (input.tasks.map fun task => task.id) input.densityThreshold
  let choice := chooseEpicWave host graph partition
    (readyEpicTasks host graph [] input.satisfiedOutside) input.maxParallel
    (componentAges partition input.history)
  (partition, choice)

def epicWaveWork (scopeSizes : List Nat) (history : Nat) : Nat :=
  let sizes := scopeSizes.map (max 1)
  let sum := sizes.sum
  let squares := (sizes.map fun n => n * n).sum
  let r := scopeSizes.length
  8 * sum + 6 * r * (r - 1) / 2 + (sum * sum - squares) / 2 + r * history

/-- The input of `dryRunEpicPhase`. -/
structure EpicDryRunInput (N : Type) extends EpicConflictGraphInput N where
  maxParallel : Int
  densityThreshold : N
  maxWork : Option Int := none

/-- The variables of the loop of `dryRunEpicPhase`. -/
structure DryRunState where
  remaining : List Task
  history : List EpicWaveHistoryEntry
  waves : List EpicWaveChoice
  work : Nat
  aborted : Bool

structure EpicPhaseDryRun where
  waves : List EpicWaveChoice
  unscheduled : List JsString
  work : Nat
  aborted : Bool

/-- `blocked` of `dryRunEpicPhase`. -/
def blockedIds (tasks : List Task) : List JsString :=
  (tasks.filter fun task => task.status = .blocked).map fun task => task.id

/-- The planning step of one round: a dependency outside of the remaining tasks
    counts as satisfied unless it is blocked. -/
def dryRunStep (input : EpicDryRunInput N) (state : DryRunState) : EpicNextWaveInput N :=
  { input.toEpicConflictGraphInput with
    tasks := state.remaining
    maxParallel := input.maxParallel
    densityThreshold := input.densityThreshold
    satisfiedOutside := fun dep => !(blockedIds input.tasks).contains dep
    history := state.history }

/-- The work of one round. -/
def dryRunCost (input : EpicDryRunInput N) (state : DryRunState) : Nat :=
  epicWaveWork (state.remaining.map fun task => (input.scopes task.id).length) state.history.length

/-- One round of the loop, and whether the loop goes on. -/
def dryRunRound (host : PlanningHost) (numbers : PlanningNumbers N) (input : EpicDryRunInput N)
    (state : DryRunState) : DryRunState × Bool :=
  let work := state.work + dryRunCost input state
  if input.maxWork.any fun maxWork => maxWork < (work : Int) then
    ({ state with aborted := true }, false)
  else
    match planNextEpicWave host numbers (dryRunStep input state) with
    | (_, none) => ({ state with work := work }, false)
    | (partition, some choice) =>
      ({ remaining := state.remaining.filter fun task => task.id ∉ choice.taskIds
         history := state.history ++
          [⟨choice.taskIds, some (toWaveComponents host numbers partition choice.taskIds).byTask⟩]
         waves := state.waves ++ [choice]
         work := work
         aborted := state.aborted }, true)

/-- The loop of `dryRunEpicPhase`.  A round that goes on issues a wave, so the
    number of tasks bounds the rounds. -/
def dryRunLoop (host : PlanningHost) (numbers : PlanningNumbers N) (input : EpicDryRunInput N) :
    Nat → DryRunState → DryRunState
  | 0, state => state
  | fuel + 1, state =>
    if state.remaining = [] then state
    else
      let (state, goesOn) := dryRunRound host numbers input state
      if goesOn then dryRunLoop host numbers input fuel state else state

/-- The waves of a phase, as if each of them succeeded. -/
def dryRunEpicPhase (host : PlanningHost) (numbers : PlanningNumbers N)
    (input : EpicDryRunInput N) : EpicPhaseDryRun :=
  let blocked := blockedIds input.tasks
  let remaining := input.tasks.filter fun task => task.id ∉ blocked
  let state := dryRunLoop host numbers input remaining.length ⟨remaining, [], [], 0, false⟩
  { waves := state.waves
    unscheduled := sortBy host.localeCompare
      (blocked.eraseDups ++ state.remaining.map fun task => task.id)
    work := state.work
    aborted := state.aborted }

/-! ## The greedy wave -/

variable {width : Nat}

theorem chooseTask_ne_nil {graph : EpicConflictGraph} {componentOf : JsString → JsString}
    {serial : JsString → Bool} {state : List JsString × List JsString} {id : JsString}
    (h : state.1 ≠ []) : (chooseTask graph componentOf serial width state id).1 ≠ [] := by
  dsimp only [chooseTask]
  split
  · exact h
  split
  · exact h
  split
  · exact h
  · exact List.append_ne_nil_of_right_ne_nil _ (List.cons_ne_nil _ _)

theorem foldl_chooseTask_ne_nil (graph : EpicConflictGraph) (componentOf : JsString → JsString)
    (serial : JsString → Bool) {order : List JsString} (hwidth : 0 < width) (horder : order ≠ []) :
    (order.foldl (chooseTask graph componentOf serial width) ([], [])).1 ≠ [] := by
  cases order with
  | nil => exact absurd rfl horder
  | cons first rest =>
    rw [List.foldl_cons]
    have hfirst : (chooseTask graph componentOf serial width ([], []) first).1 ≠ [] := by
      have hroom : ¬ width ≤ 0 := by omega
      simp [chooseTask, hroom]
    generalize chooseTask graph componentOf serial width ([], []) first = state at hfirst
    clear horder
    induction rest generalizing state with
    | nil => exact hfirst
    | cons next rest ih => exact ih _ (chooseTask_ne_nil hfirst)

/-- What the greedy loop keeps: it takes tasks in the given order, none of them
    a neighbour of an earlier one, and at most `width`. -/
structure IsGreedyWave (graph : EpicConflictGraph) (width : Nat) (order chosen : List JsString) :
    Prop where
  sublist : chosen.Sublist order
  free : chosen.Pairwise fun a b => a ∉ (graph.adjacency.get? b).getD []
  narrow : chosen.length ≤ width

theorem isGreedyWave_foldl (graph : EpicConflictGraph) (componentOf : JsString → JsString)
    (serial : JsString → Bool) (width : Nat) (order : List JsString) :
    IsGreedyWave graph width order
      (order.foldl (chooseTask graph componentOf serial width) ([], [])).1 := by
  induction order using List.reverseRecOn with
  | nil => exact ⟨List.Sublist.refl _, List.Pairwise.nil, Nat.zero_le _⟩
  | append_singleton order id ih =>
    rw [List.foldl_concat]
    generalize order.foldl (chooseTask graph componentOf serial width) ([], []) = state at ih
    obtain ⟨chosen, usedSerial⟩ := state
    have hskip : IsGreedyWave graph width (order ++ [id]) chosen :=
      ⟨ih.sublist.trans (List.sublist_append_left _ _), ih.free, ih.narrow⟩
    dsimp only [chooseTask]
    split
    · exact hskip
    split
    · exact hskip
    split
    · exact hskip
    rename_i hroom _ hfree
    refine ⟨ih.sublist.append (List.Sublist.refl _), ?_, ?_⟩
    · refine List.pairwise_append.mpr ⟨ih.free, List.pairwise_singleton _ _, ?_⟩
      intro other hother last hlast
      rw [List.mem_singleton.mp hlast]
      intro hneighbour
      exact hfree (List.any_eq_true.mpr ⟨other, hother, List.contains_iff_mem.mpr hneighbour⟩)
    · rw [List.length_append, List.length_singleton]
      omega

omit [LinearOrder N] in
/-- A chosen wave is one ready task, or ready tasks without an edge, none of them
    exclusive. -/
theorem chooseEpicWave_cases {host : PlanningHost} {graph : EpicConflictGraph}
    {partition : EpicComponentPartition N} {readyIds : List JsString} {maxParallel : Int}
    {ages : OrderedMap JsString Nat} {choice : EpicWaveChoice}
    (h : chooseEpicWave host graph partition readyIds maxParallel ages = some choice) :
    (∃ id ∈ readyIds, choice.taskIds = [id])
      ∨ (∀ id ∈ readyIds, graph.exclusive.get? id = none) ∧ choice.taskIds ≠ []
        ∧ ∃ order : List JsString, order.Perm readyIds
          ∧ IsGreedyWave graph (max 1 maxParallel).toNat order choice.taskIds := by
  unfold chooseEpicWave at h
  split at h
  · cases h
  rename_i hready
  dsimp only at h
  generalize horder : sortBy (compareReady host graph
    (fun id => (partition.componentOf.get? id).getD id) ages) readyIds = order at h
  have hperm : order.Perm readyIds := by
    rw [← horder]
    exact sortBy_perm _ _
  cases hfind : order.find? fun id => (graph.exclusive.get? id).isSome with
  | some exclusive =>
    rw [hfind] at h
    cases h
    exact Or.inl ⟨exclusive, hperm.mem_iff.mp (List.mem_of_find?_eq_some hfind), rfl⟩
  | none =>
    rw [hfind] at h
    cases h
    refine Or.inr ⟨?_, ?_, order, hperm, isGreedyWave_foldl ..⟩
    · intro id hid
      have hnone := List.find?_eq_none.mp hfind id (hperm.mem_iff.mpr hid)
      simpa using hnone
    · refine foldl_chooseTask_ne_nil _ _ _ (by omega) ?_
      intro hnil
      rw [hnil] at hperm
      exact hready hperm.symm.eq_nil

/-! ## Ready tasks -/

variable {host : PlanningHost} {numbers : PlanningNumbers N}

theorem nodup_readyEpicTasks {input : EpicConflictGraphInput N} {done readyIds : List JsString}
    {satisfiedOutside : JsString → Bool}
    (hready : readyIds = readyEpicTasks host (buildEpicConflictGraph host numbers input) done
      satisfiedOutside) : readyIds.Nodup
      ∧ ∀ id ∈ readyIds, ∃ classified, (id, classified) ∈ (epicPreflight host input).taskMap := by
  subst hready
  have hsorted := sortedTasks_nodup (rfl : epicPreflight host input = _)
  have hperm := (sortBy_perm
    (fun a b : ClassifiedTask => host.localeCompare a.task.id b.task.id)
    ((epicPreflight host input).sortedTasks.filter fun classified =>
      decide (classified.task.id ∉ done) && makeDependencySatisfactionChecker
        (epicPreflight host input).taskMap done (some satisfiedOutside) classified))
  constructor
  · refine (hperm.map fun classified => classified.task.id).nodup_iff.mpr ?_
    exact (List.filter_sublist.map _).nodup hsorted.1
  · intro id hid
    obtain ⟨classified, hclassified, rfl⟩ := List.mem_map.mp hid
    have hmem := (List.mem_filter.mp (hperm.mem_iff.mp hclassified)).1
    exact ⟨classified, hsorted.2 classified hmem⟩

variable {input : EpicNextWaveInput N} {partition : EpicComponentPartition N}
  {choice : EpicWaveChoice}

/-- A planned wave of two or more tasks: distinct vertices without an edge. -/
theorem planNextEpicWave_many (h : planNextEpicWave host numbers input = (partition, some choice))
    (hmany : 2 ≤ choice.taskIds.length) : choice.taskIds.Nodup
      ∧ (∀ id ∈ choice.taskIds, id ∈ graphVertices host input.toEpicConflictGraphInput)
      ∧ choice.taskIds.Pairwise (fun a b =>
        a ∉ neighboursOf (graphEdges host numbers input.toEpicConflictGraphInput) b)
      ∧ choice.taskIds.length ≤ (max 1 input.maxParallel).toNat := by
  rw [Prod.mk.injEq] at h
  obtain ⟨hnodup, hmem⟩ := nodup_readyEpicTasks (rfl : readyEpicTasks host
    (buildEpicConflictGraph host numbers input.toEpicConflictGraphInput) []
    input.satisfiedOutside = _)
  rcases chooseEpicWave_cases h.2 with ⟨id, -, hone⟩ | ⟨hexclusive, -, order, hperm, hgreedy⟩
  · rw [hone] at hmany
    simp at hmany
  · have hvertex : ∀ id ∈ choice.taskIds,
        id ∈ graphVertices host input.toEpicConflictGraphInput := by
      intro id hid
      have hready := hperm.mem_iff.mp (hgreedy.sublist.subset hid)
      obtain ⟨classified, hclassified⟩ := hmem id hready
      refine mem_graphVertices hclassified fun reason hreason => ?_
      exact OrderedMap.get?_eq_none_iff.mp (hexclusive id hready) (List.mem_map_of_mem hreason)
    refine ⟨hgreedy.sublist.nodup (hperm.nodup_iff.mpr hnodup), hvertex, ?_, hgreedy.narrow⟩
    refine hgreedy.free.imp_of_mem ?_
    intro a b _ hb hfree
    rw [get?_adjacency (hvertex b hb)] at hfree
    exact hfree

omit [LinearOrder N] in
theorem task_mem_of_mem_taskMap {host : PlanningHost} {input : EpicConflictGraphInput N}
    {id : JsString} {classified : ClassifiedTask}
    (h : (id, classified) ∈ (epicPreflight host input).taskMap) :
    classified.task ∈ input.tasks := by
  obtain ⟨task, htask, rfl⟩ := List.mem_map.mp (mem_of_mem_buildTaskMap h)
  exact htask

omit [LinearOrder N] in
theorem isSome_get?_taskMap {host : PlanningHost} {input : EpicConflictGraphInput N} {task : Task}
    (h : task ∈ input.tasks) : ((epicPreflight host input).taskMap.get? task.id).isSome = true := by
  have hclassified : classifyTask host (fun _ => none) input.directory input.leanConfig
      (taskScopes input) task ∈ input.tasks.map
        (classifyTask host (fun _ => none) input.directory input.leanConfig (taskScopes input)) :=
    List.mem_map_of_mem h
  exact isSome_get?_buildTaskMap hclassified

theorem planNextEpicWave_some (h : planNextEpicWave host numbers input = (partition, some choice)) :
    choice.taskIds ≠ [] ∧ ∀ id ∈ choice.taskIds, id ∈ input.tasks.map fun task => task.id := by
  rw [Prod.mk.injEq] at h
  obtain ⟨-, hmem⟩ := nodup_readyEpicTasks (rfl : readyEpicTasks host
    (buildEpicConflictGraph host numbers input.toEpicConflictGraphInput) []
    input.satisfiedOutside = _)
  have htask : ∀ id ∈ readyEpicTasks host
      (buildEpicConflictGraph host numbers input.toEpicConflictGraphInput) []
      input.satisfiedOutside, id ∈ input.tasks.map fun task => task.id := by
    intro id hid
    obtain ⟨classified, hclassified⟩ := hmem id hid
    have hmap : IsTaskMap (epicPreflight host input.toEpicConflictGraphInput).taskMap :=
      isTaskMap_buildTaskMap _
    have hown : classified.task.id = id := hmap.own _ hclassified
    rw [← hown]
    exact List.mem_map_of_mem (task_mem_of_mem_taskMap hclassified)
  rcases chooseEpicWave_cases h.2 with ⟨id, hid, hone⟩ | ⟨-, hne, order, hperm, hgreedy⟩
  · rw [hone]
    refine ⟨List.cons_ne_nil _ _, ?_⟩
    intro other hother
    rw [List.mem_singleton.mp hother]
    exact htask id hid
  · refine ⟨hne, ?_⟩
    intro id hid
    exact htask id (hperm.mem_iff.mp (hgreedy.sublist.subset hid))

end OpencodeSwarm
