/-
  OpencodeSwarm.Epic.DryRun

  The real run of a phase, wave after wave with every wave completed and
  committed, against the dry run that sizes it (`src/epic/shaping-sizing.ts`):
  both plan over the same open tasks, and a dependency outside of them is
  satisfied for one exactly when it is for the other.
-/
import OpencodeSwarm.Epic.WaveVerdict

namespace OpencodeSwarm

open Js

variable {N : Type} [LinearOrder N]

/-! ## The two runs -/

def isEpicPendingStatus (status : TaskStatus) : Bool := status ≠ .completed ∧ status ≠ .closed

def pendingTasksOf (phase : Phase) : List Task :=
  phase.tasks.filter fun task => isEpicPendingStatus task.status

/-- The dry run that `runEpicPhase` makes of a phase, under the settings and
    signals of the real run. -/
def phaseDryRunInput (input : EpicWaveSelectionInput N) (phase : Phase)
    (scopes : JsString → List JsString) (maxWork : Option Int) : EpicDryRunInput N :=
  { directory := input.directory
    tasks := pendingTasksOf phase
    scopes := scopes
    leanConfig := input.leanConfig
    hotFiles := input.hotFiles
    coWrites := input.coWrites
    cochange := input.cochange
    maxParallel := input.maxParallel
    densityThreshold := input.densityThreshold
    maxWork := maxWork }

/-- A task after the tasks of a wave were completed. -/
def completeWaveTask (ids : List JsString) (task : Task) : Task :=
  if task.id ∈ ids then { task with status := .completed } else task

/-- `updateTaskStatus(directory, id, 'completed')` for every task of a wave. -/
def completeWave (plan : Plan) (ids : List JsString) : Plan :=
  { plan with phases := plan.phases.map fun phase =>
    { phase with tasks := phase.tasks.map (completeWaveTask ids) } }

/-- What the history keeps of a wave. -/
def EpicSelectedWave.historyEntry (wave : EpicSelectedWave N) : EpicWaveHistoryEntry :=
  ⟨wave.taskIds, some wave.components.byTask⟩

/-- What the dry run tells of a wave. -/
def EpicSelectedWave.choice (wave : EpicSelectedWave N) : EpicWaveChoice :=
  ⟨wave.taskIds, wave.waveKind⟩

/-- The input of the next call, when every task of a wave is completed and its
    commit is on the branch. -/
def afterWave (input : EpicWaveSelectionInput N) (wave : EpicSelectedWave N) :
    EpicWaveSelectionInput N :=
  { input with
    plan := completeWave input.plan wave.taskIds
    isCommitted := fun id => input.isCommitted id || wave.taskIds.contains id
    waveHistory := input.waveHistory ++ [wave.historyEntry] }

/-- The real run: waves until `selectNextEpicWave` gives none. -/
inductive EpicRun (host : PlanningHost) (numbers : PlanningNumbers N) :
    EpicWaveSelectionInput N → List (EpicSelectedWave N) → EpicWaveSelectionInput N → Prop
  | stop {input : EpicWaveSelectionInput N}
      (hstop : ∀ wave, selectNextEpicWave host numbers input ≠ .wave wave) :
      EpicRun host numbers input [] input
  | wave {input last : EpicWaveSelectionInput N} {wave : EpicSelectedWave N}
      {waves : List (EpicSelectedWave N)}
      (hselect : selectNextEpicWave host numbers input = .wave wave)
      (hrest : EpicRun host numbers (afterWave input wave) waves last) :
      EpicRun host numbers input (wave :: waves) last

theorem EpicRun.unique {host : PlanningHost} {numbers : PlanningNumbers N}
    {input last last' : EpicWaveSelectionInput N} {waves waves' : List (EpicSelectedWave N)}
    (h : EpicRun host numbers input waves last) (h' : EpicRun host numbers input waves' last') :
    waves = waves' ∧ last = last' := by
  induction h generalizing waves' last' with
  | stop hstop =>
    cases h' with
    | stop _ => exact ⟨rfl, rfl⟩
    | wave hselect _ => exact absurd hselect (hstop _)
  | wave hselect _ ih =>
    cases h' with
    | stop hstop => exact absurd hselect (hstop _)
    | wave hselect' hrest' =>
      cases hselect.symm.trans hselect'
      obtain ⟨rfl, rfl⟩ := ih hrest'
      exact ⟨rfl, rfl⟩

/-- The tasks of the phase that a run leaves open: blocked ones and those that
    could not start. -/
def leftOpen (input : EpicWaveSelectionInput N) : List JsString :=
  match input.plan.phases.find? fun phase => phase.id = input.phaseId with
  | none => []
  | some phase =>
    (blockedIds phase.tasks).eraseDups ++ (openTasks phase.tasks).map fun task => task.id

/-! ## What the planning step depends on -/

/-- The step reads the scopes of its tasks, and asks about dependencies outside
    of them. -/
theorem planNextEpicWave_congr (host : PlanningHost) (numbers : PlanningNumbers N)
    (input : EpicNextWaveInput N) {scopes : JsString → List JsString}
    {satisfiedOutside : JsString → Bool}
    (hscopes : ∀ task ∈ input.tasks, input.scopes task.id = scopes task.id)
    (houtside : ∀ task ∈ input.tasks, ∀ dep ∈ task.depends,
      dep ∉ (input.tasks.map fun task => task.id) →
        input.satisfiedOutside dep = satisfiedOutside dep) :
    planNextEpicWave host numbers input = planNextEpicWave host numbers
        { input with scopes := scopes, satisfiedOutside := satisfiedOutside } := by
  have htaskScopes : taskScopes input.toEpicConflictGraphInput
      = taskScopes { input.toEpicConflictGraphInput with scopes := scopes } := by
    funext id
    unfold taskScopes
    by_cases hid : id ∈ input.tasks.map fun task => task.id
    · obtain ⟨task, htask, rfl⟩ := List.mem_map.mp hid
      rw [hscopes task htask]
    · rw [if_neg hid, if_neg hid]
  have hgraph : buildEpicConflictGraph host numbers input.toEpicConflictGraphInput
      = buildEpicConflictGraph host numbers
        { input.toEpicConflictGraphInput with scopes := scopes } := by
    simp [buildEpicConflictGraph, graphEdges, graphVertices, exclusiveReason, epicPreflight,
      htaskScopes]
  have hready : readyEpicTasks host
        (buildEpicConflictGraph host numbers input.toEpicConflictGraphInput) []
        input.satisfiedOutside
      = readyEpicTasks host (buildEpicConflictGraph host numbers input.toEpicConflictGraphInput) []
        satisfiedOutside := by
    dsimp only [readyEpicTasks, getReadyTasks]
    congr 2
    apply List.filter_congr
    intro classified hclassified
    congr 1
    have hmem := (sortedTasks_nodup
      (rfl : epicPreflight host input.toEpicConflictGraphInput = _)).2 classified hclassified
    unfold makeDependencySatisfactionChecker
    rw [Bool.eq_iff_iff, List.all_eq_true, List.all_eq_true]
    refine forall₂_congr fun dep hdep => ?_
    split
    · rfl
    rename_i habsent
    dsimp only
    rw [houtside classified.task (task_mem_of_mem_taskMap hmem) dep hdep]
    intro hinside
    obtain ⟨task, htask, rfl⟩ := List.mem_map.mp hinside
    exact habsent (isSome_get?_taskMap htask)
  dsimp only [planNextEpicWave]
  rw [hready, hgraph]

/-! ## Completing a wave -/

@[simp] theorem completeWaveTask_id (ids : List JsString) (task : Task) :
    (completeWaveTask ids task).id = task.id := by
  unfold completeWaveTask
  split <;> rfl

variable {ids : List JsString} {task : Task}

theorem completeWaveTask_of_notMem (h : task.id ∉ ids) :
    completeWaveTask ids task = task := if_neg h

theorem completeWaveTask_status (h : task.id ∈ ids) :
    (completeWaveTask ids task).status = .completed := by
  rw [completeWaveTask, if_pos h]

theorem planEntry_completeWave (plan : Plan) (ids : List JsString) (id : JsString) :
    planEntry (completeWave plan ids) id
      = (planEntry plan id).map fun entry => (completeWaveTask ids entry.1, entry.2) := by
  have hentries : planEntries (completeWave plan ids)
      = (planEntries plan).map fun entry => (completeWaveTask ids entry.1, entry.2) := by
    unfold planEntries completeWave
    rw [List.map_flatMap, List.flatMap_map]
    simp only [List.map_map]
    rfl
  rw [planEntry, hentries, List.find?_map]
  congr 2
  funext entry
  simp

variable {phase : Phase}

theorem find?_completeWave {plan : Plan} {phaseId : Nat} (ids : List JsString)
    (h : plan.phases.find? (fun phase => phase.id = phaseId) = some phase) :
    (completeWave plan ids).phases.find? (fun phase => phase.id = phaseId)
      = some { phase with tasks := phase.tasks.map (completeWaveTask ids) } := by
  rw [completeWave, List.find?_map]
  have hsame : ((fun phase : Phase => decide (phase.id = phaseId)) ∘
      fun phase : Phase => { phase with tasks := phase.tasks.map (completeWaveTask ids) })
      = fun phase => decide (phase.id = phaseId) := rfl
  rw [hsame, h]
  rfl

theorem openTasks_completeWaveTask (tasks : List Task) (ids : List JsString) :
    openTasks (tasks.map (completeWaveTask ids))
      = (openTasks tasks).filter fun task => task.id ∉ ids := by
  unfold openTasks
  induction tasks with
  | nil => rfl
  | cons task rest ih =>
    rw [List.map_cons, List.filter_cons, List.filter_cons]
    by_cases hid : task.id ∈ ids
    · have hstatus := completeWaveTask_status hid
      rw [hstatus]
      split
      · rename_i hopen
        cases hopen
      · split
        · rw [List.filter_cons, if_neg (by simpa using hid), ih]
        · exact ih
    · rw [completeWaveTask_of_notMem hid]
      split
      · rw [List.filter_cons, if_pos (by simpa using hid), ih]
      · exact ih

variable {tasks : List Task}

theorem blockedIds_completeWaveTask (h : ∀ id ∈ ids, id ∉ blockedIds tasks) :
    blockedIds (tasks.map (completeWaveTask ids)) = blockedIds tasks := by
  unfold blockedIds at h ⊢
  induction tasks with
  | nil => rfl
  | cons task rest ih =>
    rw [List.map_cons, List.filter_cons, List.filter_cons]
    by_cases hid : task.id ∈ ids
    · have hblocked : task.status ≠ .blocked := by
        intro hblocked
        refine h task.id hid (List.mem_map_of_mem (List.mem_filter.mpr ⟨List.mem_cons_self, ?_⟩))
        exact decide_eq_true hblocked
      rw [completeWaveTask_status hid, if_neg (by simp), if_neg (by simpa using hblocked)]
      refine ih fun id hmem hrest => h id hmem ?_
      obtain ⟨other, hother, rfl⟩ := List.mem_map.mp hrest
      rw [List.mem_filter] at hother
      exact List.mem_map_of_mem
        (List.mem_filter.mpr ⟨List.mem_cons_of_mem _ hother.1, hother.2⟩)
    · have hrest := ih fun id hmem hrest => h id hmem (by
        obtain ⟨other, hother, rfl⟩ := List.mem_map.mp hrest
        rw [List.mem_filter] at hother
        exact List.mem_map_of_mem
          (List.mem_filter.mpr ⟨List.mem_cons_of_mem _ hother.1, hother.2⟩))
      rw [completeWaveTask_of_notMem hid]
      split
      · rw [List.map_cons, List.map_cons, hrest]
      · exact hrest

/-! ## The simulation -/

/-- A phase and its planning scopes that a simulation can replay: distinct ids, under
    which the plan also finds the blocked tasks, live scopes, and dependencies on
    pending tasks of the phase or on completed and committed ones. -/
structure Replayable (input : EpicWaveSelectionInput N) (phase : Phase)
    (scopes : JsString → List JsString) : Prop where
  found : input.plan.phases.find? (fun phase => phase.id = input.phaseId) = some phase
  distinct : (phase.tasks.map fun task => task.id).Nodup
  indexed : ∀ task ∈ phase.tasks, task.status = .blocked →
    planEntry input.plan task.id = some (task, phase.id)
  scope : ∀ task ∈ openTasks phase.tasks,
    scopes task.id ≠ [] ∧ input.liveScopes task.id = scopes task.id
  depends : ∀ task ∈ openTasks phase.tasks, ∀ dep ∈ task.depends,
    dep ∈ ((pendingTasksOf phase).map fun task => task.id) ∨ satisfiedOutside input dep = true
  fresh : input.waveHistory = []

/-- A round of the dry run and a call of the real run, started with `first`,
    stand at the same point. -/
structure Tracks (first : EpicWaveSelectionInput N) (blocked : List JsString)
    (scopes : JsString → List JsString) (state : DryRunState) (input : EpicWaveSelectionInput N) :
    Prop where
  settings : ∃ plan isCommitted waveHistory,
    input = { first with plan := plan, isCommitted := isCommitted, waveHistory := waveHistory }
  phase : ∃ phase, input.plan.phases.find? (fun phase => phase.id = input.phaseId) = some phase
    ∧ openTasks phase.tasks = state.remaining ∧ blockedIds phase.tasks = blocked
  history : input.waveHistory = state.history
  scope : ∀ task ∈ state.remaining,
    scopes task.id ≠ [] ∧ input.liveScopes task.id = scopes task.id
  apart : ∀ task ∈ state.remaining, task.id ∉ blocked
  listed : ∀ task ∈ state.remaining, ∃ entry, planEntry input.plan task.id = some entry
  outside : ∀ task ∈ state.remaining, ∀ dep ∈ task.depends,
    dep ∉ (state.remaining.map fun task => task.id) →
      dependencyProblem input dep = none ∧ satisfiedOutside input dep = !blocked.contains dep

omit [LinearOrder N] in
theorem dependencyProblem_of_satisfiedOutside {input : EpicWaveSelectionInput N} {dep : JsString}
    (h : satisfiedOutside input dep = true) : dependencyProblem input dep = none := by
  unfold satisfiedOutside at h
  unfold dependencyProblem
  cases hentry : planEntry input.plan dep with
  | none =>
    rw [hentry] at h
    cases h
  | some entry =>
    rw [hentry] at h
    simp only [Bool.and_eq_true, decide_eq_true_eq] at h
    simp [h.1, h.2]

omit [LinearOrder N] in
theorem afterWave_of_notMem {input : EpicWaveSelectionInput N} {wave : EpicSelectedWave N}
    {dep : JsString} (h : dep ∉ wave.taskIds) :
    dependencyProblem (afterWave input wave) dep = dependencyProblem input dep
      ∧ satisfiedOutside (afterWave input wave) dep = satisfiedOutside input dep := by
  have hcommitted : (afterWave input wave).isCommitted dep = input.isCommitted dep := by
    simp [afterWave, h]
  have hentry : planEntry (afterWave input wave).plan dep = planEntry input.plan dep := by
    have hmap := planEntry_completeWave input.plan wave.taskIds dep
    unfold planEntry at hmap ⊢
    cases hfind : (planEntries input.plan).find? fun entry => entry.1.id = dep with
    | none => rwa [hfind] at hmap
    | some entry =>
      have hid := List.find?_some hfind
      rw [decide_eq_true_eq] at hid
      rw [hfind, Option.map_some, completeWaveTask_of_notMem (by rwa [hid])] at hmap
      exact hmap
  constructor
  · rw [dependencyProblem, hentry, hcommitted]
    rfl
  · unfold satisfiedOutside
    rw [hentry, hcommitted]

omit [LinearOrder N] in
theorem afterWave_of_mem {input : EpicWaveSelectionInput N} {wave : EpicSelectedWave N}
    {dep : JsString} {entry : Task × Nat} (h : dep ∈ wave.taskIds)
    (hentry : planEntry input.plan dep = some entry) :
    satisfiedOutside (afterWave input wave) dep = true := by
  have hid := List.find?_some hentry
  rw [decide_eq_true_eq] at hid
  have hafter : planEntry (afterWave input wave).plan dep
      = some (completeWaveTask wave.taskIds entry.1, entry.2) := by
    have hmap := planEntry_completeWave input.plan wave.taskIds dep
    rw [hentry] at hmap
    exact hmap
  have hstatus := completeWaveTask_status (hid.symm ▸ h : entry.1.id ∈ wave.taskIds)
  rw [satisfiedOutside, hafter]
  simp [hstatus, afterWave, h]

section Simulation

variable {host : PlanningHost} {numbers : PlanningNumbers N} {first : EpicWaveSelectionInput N}
  {blocked : List JsString} {scopes : JsString → List JsString} {state : DryRunState}
  {input : EpicWaveSelectionInput N}

/-- The wave that the real run issues for a choice of the planning step. -/
theorem selectNextEpicWave_of_tracks (h : Tracks first blocked scopes state input)
    {partition : EpicComponentPartition N} {choice : Option EpicWaveChoice}
    (hplan : planNextEpicWave host numbers (selectionStep input state.remaining)
      = (partition, choice)) :
    (state.remaining = [] ∨ choice = none →
      ∀ wave, selectNextEpicWave host numbers input ≠ .wave wave)
      ∧ ∀ chosen, state.remaining ≠ [] → choice = some chosen →
        ∃ wave, selectNextEpicWave host numbers input = .wave wave ∧ wave.choice = chosen
          ∧ wave.components = toWaveComponents host numbers partition chosen.taskIds := by
  obtain ⟨phase, hphase, hopen, -⟩ := h.phase
  have hproblems : predecessorProblems input state.remaining = [] := by
    rw [predecessorProblems, List.flatMap_eq_nil_iff]
    intro task htask
    rw [List.filterMap_eq_nil_iff]
    intro dep hdep
    obtain ⟨hdepends, houtside⟩ := List.mem_filter.mp hdep
    rw [(h.outside task htask dep hdepends (by simpa using houtside)).1]
    rfl
  rw [selectNextEpicWave, hphase]
  dsimp only
  rw [hopen, hproblems, hplan]
  constructor
  · intro hstop wave hwave
    by_cases hnil : state.remaining = []
    · rw [if_pos hnil] at hwave
      split at hwave <;> cases hwave
    · rw [hstop.resolve_left hnil, if_neg hnil, if_neg (fun hne => hne rfl), Option.map_none,
        Option.getD_none, if_pos rfl] at hwave
      split at hwave <;> cases hwave
  · rintro chosen hne rfl
    obtain ⟨hchosen, htasks⟩ := planNextEpicWave_some hplan
    have hdeclared : chosen.taskIds.filter (fun id => (input.liveScopes id).isEmpty) = [] := by
      rw [List.filter_eq_nil_iff]
      intro id hid
      obtain ⟨task, htask, rfl⟩ := List.mem_map.mp (htasks id hid)
      obtain ⟨hscope, hlive⟩ := h.scope task htask
      rw [hlive]
      simpa using hscope
    rw [if_neg hne, if_neg (fun hne => hne rfl), Option.map_some, Option.getD_some,
      if_neg hchosen, hdeclared, if_neg (fun hne => hne rfl)]
    exact ⟨_, rfl, rfl, rfl⟩

omit [LinearOrder N] in
theorem estimatedScope_of_mem {batch : List Task} {task : Task} (htask : task ∈ batch)
    (hlive : input.liveScopes task.id ≠ []) :
    estimatedScope input batch task.id = input.liveScopes task.id := by
  apply estimatedScope_eq hlive
  unfold estimatedScope
  cases hfind : batch.reverse.find? fun other => other.id = task.id with
  | none =>
    have hnone := List.find?_eq_none.mp hfind task (List.mem_reverse.mpr htask)
    simp at hnone
  | some other =>
    have hdeclared : (input.liveScopes task.id).isEmpty = false := by simpa using hlive
    simpa [hdeclared] using hlive

theorem planNextEpicWave_of_tracks (h : Tracks first blocked scopes state input) {phase : Phase}
    {maxWork : Option Int} (hblocked : blockedIds (pendingTasksOf phase) = blocked) :
    planNextEpicWave host numbers (selectionStep input state.remaining)
      = planNextEpicWave host numbers
        (dryRunStep (phaseDryRunInput first phase scopes maxWork) state) := by
  have hscope : ∀ task ∈ (selectionStep input state.remaining).tasks,
      (selectionStep input state.remaining).scopes task.id = scopes task.id := by
    intro task htask
    obtain ⟨hne, hlive⟩ := h.scope task htask
    rw [← hlive]
    exact estimatedScope_of_mem htask (by rwa [hlive])
  have houtside : ∀ task ∈ (selectionStep input state.remaining).tasks, ∀ dep ∈ task.depends,
      dep ∉ ((selectionStep input state.remaining).tasks.map fun task => task.id) →
        (selectionStep input state.remaining).satisfiedOutside dep
          = !(blockedIds (pendingTasksOf phase)).contains dep := by
    intro task htask dep hdep hout
    rw [hblocked]
    exact (h.outside task htask dep hdep hout).2
  rw [planNextEpicWave_congr host numbers _ hscope houtside]
  have hhistory := h.history
  obtain ⟨plan, isCommitted, waveHistory, rfl⟩ := h.settings
  unfold dryRunStep phaseDryRunInput selectionStep
  rw [← hhistory]

omit [LinearOrder N] in
theorem Tracks.afterWave (h : Tracks first blocked scopes state input) {wave : EpicSelectedWave N}
    {next : DryRunState} (hwave : ∀ id ∈ wave.taskIds, id ∈ state.remaining.map fun task => task.id)
    (hremaining : next.remaining = state.remaining.filter fun task => task.id ∉ wave.taskIds)
    (hhistory : next.history = state.history ++ [wave.historyEntry]) :
    Tracks first blocked scopes next (afterWave input wave) := by
  have hsub : ∀ task ∈ next.remaining, task ∈ state.remaining ∧ task.id ∉ wave.taskIds := by
    intro task htask
    rw [hremaining, List.mem_filter, decide_eq_true_eq] at htask
    exact htask
  refine ⟨?_, ?_, ?_, ?_, ?_, ?_, ?_⟩
  · obtain ⟨plan, isCommitted, waveHistory, rfl⟩ := h.settings
    exact ⟨_, _, _, rfl⟩
  · obtain ⟨phase, hphase, hopen, hblocked⟩ := h.phase
    refine ⟨_, find?_completeWave wave.taskIds hphase, ?_, ?_⟩
    · rw [openTasks_completeWaveTask, hopen, hremaining]
    · rw [blockedIds_completeWaveTask, hblocked]
      intro id hid
      obtain ⟨task, htask, rfl⟩ := List.mem_map.mp (hwave id hid)
      rw [hblocked]
      exact h.apart task htask
  · rw [hhistory, ← h.history]
    rfl
  · intro task htask
    exact h.scope task (hsub task htask).1
  · intro task htask
    exact h.apart task (hsub task htask).1
  · intro task htask
    obtain ⟨entry, hentry⟩ := h.listed task (hsub task htask).1
    have hafter := planEntry_completeWave input.plan wave.taskIds task.id
    rw [hentry] at hafter
    exact ⟨_, hafter⟩
  · intro task htask dep hdep hout
    obtain ⟨hold, -⟩ := hsub task htask
    by_cases hissued : dep ∈ wave.taskIds
    · -- the dependency was a task of the wave
      obtain ⟨other, hother, rfl⟩ := List.mem_map.mp (hwave dep hissued)
      obtain ⟨entry, hentry⟩ := h.listed other hother
      have hsatisfied := afterWave_of_mem hissued hentry
      refine ⟨dependencyProblem_of_satisfiedOutside hsatisfied, ?_⟩
      rw [hsatisfied]
      simpa using h.apart other hother
    · -- it was outside before
      obtain ⟨hproblem, hsatisfied⟩ := afterWave_of_notMem hissued
      rw [hproblem, hsatisfied]
      refine h.outside task hold dep hdep fun hinside => hout ?_
      obtain ⟨other, hother, rfl⟩ := List.mem_map.mp hinside
      rw [hremaining]
      exact List.mem_map_of_mem (List.mem_filter.mpr ⟨hother, decide_eq_true hissued⟩)

omit [LinearOrder N] in
theorem leftOpen_of_tracks (h : Tracks first blocked scopes state input) :
    leftOpen input = blocked.eraseDups ++ state.remaining.map fun task => task.id := by
  obtain ⟨phase, hphase, hopen, hblocked⟩ := h.phase
  rw [leftOpen, hphase]
  dsimp only
  rw [hopen, hblocked]

/-- From one point on, the real run issues the waves that the rest of the dry run
    adds, and stops with the same tasks open. -/
theorem epicRun_of_tracks {phase : Phase} (hblocked : blockedIds (pendingTasksOf phase) = blocked)
    {fuel : Nat} (hfuel : state.remaining.length ≤ fuel)
    (h : Tracks first blocked scopes state input) :
    ∃ waves last, EpicRun host numbers input waves last
      ∧ (dryRunLoop host numbers (phaseDryRunInput first phase scopes none) fuel state).waves
        = state.waves ++ waves.map (·.choice) ∧ leftOpen last = blocked.eraseDups ++
        (dryRunLoop host numbers (phaseDryRunInput first phase scopes none) fuel state).remaining.map
          fun task => task.id := by
  have hleft := leftOpen_of_tracks h
  induction fuel generalizing state input with
  | zero =>
    have hnil : state.remaining = [] := List.eq_nil_of_length_eq_zero (by omega)
    refine ⟨[], input, EpicRun.stop ?_, (List.append_nil _).symm, hleft⟩
    exact (selectNextEpicWave_of_tracks h rfl).1 (Or.inl hnil)
  | succ fuel ih =>
    unfold dryRunLoop
    by_cases hnil : state.remaining = []
    · rw [if_pos hnil]
      refine ⟨[], input, EpicRun.stop ?_, (List.append_nil _).symm, hleft⟩
      exact (selectNextEpicWave_of_tracks h rfl).1 (Or.inl hnil)
    rw [if_neg hnil]
    have hstep : planNextEpicWave host numbers (selectionStep input state.remaining)
        = planNextEpicWave host numbers
          (dryRunStep (phaseDryRunInput first phase scopes none) state) :=
      planNextEpicWave_of_tracks h hblocked
    cases hplan : planNextEpicWave host numbers (selectionStep input state.remaining) with
    | mk partition choice =>
      rw [hplan] at hstep
      obtain ⟨hstop, hgoes⟩ := selectNextEpicWave_of_tracks h hplan
      cases choice with
      | none =>
        -- neither run has a task that could start
        have hround : dryRunRound host numbers (phaseDryRunInput first phase scopes none) state
            = ({ state with work := state.work
                  + dryRunCost (phaseDryRunInput first phase scopes none) state }, false) := by
          rw [dryRunRound, ← hstep]
          rfl
        rw [hround]
        exact ⟨[], input, EpicRun.stop (hstop (Or.inr rfl)), (List.append_nil _).symm, hleft⟩
      | some chosen =>
        obtain ⟨wave, hselect, hchoice, hcomponents⟩ := hgoes chosen hnil rfl
        obtain ⟨hne, hinside⟩ := planNextEpicWave_some hplan
        have htaskIds : wave.taskIds = chosen.taskIds := congrArg EpicWaveChoice.taskIds hchoice
        obtain ⟨next, hround, hremaining, hhistory, hwaves⟩ : ∃ next,
            dryRunRound host numbers (phaseDryRunInput first phase scopes none) state = (next, true)
            ∧ next.remaining = state.remaining.filter (fun task => task.id ∉ wave.taskIds)
            ∧ next.history = state.history ++ [wave.historyEntry]
            ∧ next.waves = state.waves ++ [wave.choice] := by
          unfold dryRunRound EpicSelectedWave.historyEntry
          rw [← hstep, hchoice, htaskIds, hcomponents]
          exact ⟨_, rfl, rfl, rfl, rfl⟩
        rw [hround]
        dsimp only
        rw [if_pos rfl]
        -- the wave takes at least one of the remaining tasks
        have hless : next.remaining.length < state.remaining.length := by
          rw [hremaining, List.length_filter_lt_length_iff_exists, htaskIds]
          obtain ⟨id, hid⟩ := List.exists_mem_of_ne_nil _ hne
          obtain ⟨task, htask, rfl⟩ := List.mem_map.mp (hinside id hid)
          exact ⟨task, htask, by simpa using hid⟩
        rw [← htaskIds] at hinside
        obtain ⟨waves, last, hrun, hrest, hlast⟩ :=
          ih (by omega) (h.afterWave hinside hremaining hhistory)
            (leftOpen_of_tracks (h.afterWave hinside hremaining hhistory))
        refine ⟨wave :: waves, last, EpicRun.wave hselect hrun, ?_, hlast⟩
        rw [hrest, hwaves, List.append_assoc]
        rfl

end Simulation

/-! ## A work budget stops the dry run early -/

section Budget

variable {host : PlanningHost} {numbers : PlanningNumbers N} {input : EpicDryRunInput N}

/-- The same dry run without a budget. -/
def EpicDryRunInput.unbounded (input : EpicDryRunInput N) : EpicDryRunInput N :=
  { input with maxWork := none }

theorem dryRunRound_waves (input : EpicDryRunInput N) (state : DryRunState) :
    state.waves <+: (dryRunRound host numbers input state).1.waves := by
  dsimp only [dryRunRound]
  split
  · exact List.prefix_refl _
  split
  · exact List.prefix_refl _
  · exact List.prefix_append _ _

theorem dryRunLoop_waves (fuel : Nat) (state : DryRunState) :
    state.waves <+: (dryRunLoop host numbers input fuel state).waves := by
  induction fuel generalizing state with
  | zero => exact List.prefix_refl _
  | succ fuel ih =>
    unfold dryRunLoop
    split
    · exact List.prefix_refl _
    dsimp only
    split
    · exact (dryRunRound_waves input state).trans (ih _)
    · exact dryRunRound_waves input state

/-- A round that stays within the budget is the round without one. -/
theorem dryRunRound_unbounded (host : PlanningHost) (numbers : PlanningNumbers N)
    (input : EpicDryRunInput N) (state : DryRunState) :
    dryRunRound host numbers input state = ({ state with aborted := true }, false)
      ∨ dryRunRound host numbers input state = dryRunRound host numbers input.unbounded state := by
  unfold dryRunRound
  by_cases hbudget : input.maxWork.any fun maxWork =>
      maxWork < ((state.work + dryRunCost input state : Nat) : Int)
  · exact Or.inl (if_pos hbudget)
  · exact Or.inr (if_neg hbudget)

/-- Within a budget the dry run issues the first waves of the run without one,
    and all of them unless it was stopped. -/
theorem dryRunLoop_budget (fuel : Nat) (state : DryRunState) :
    (dryRunLoop host numbers input fuel state).waves
        <+: (dryRunLoop host numbers input.unbounded fuel state).waves
      ∧ ((dryRunLoop host numbers input fuel state).aborted = false →
        dryRunLoop host numbers input fuel state
          = dryRunLoop host numbers input.unbounded fuel state) := by
  induction fuel generalizing state with
  | zero => exact ⟨List.prefix_refl _, fun _ => rfl⟩
  | succ fuel ih =>
    unfold dryRunLoop
    split
    · exact ⟨List.prefix_refl _, fun _ => rfl⟩
    rcases dryRunRound_unbounded host numbers input state with hstopped | hsame
    · rw [hstopped]
      dsimp only
      rw [if_neg Bool.false_ne_true]
      refine ⟨?_, fun h => Bool.noConfusion h⟩
      have hround : state.waves <+: (dryRunRound host numbers input.unbounded state).1.waves :=
        dryRunRound_waves input.unbounded state
      split
      · exact hround.trans (dryRunLoop_waves fuel _)
      · exact hround
    · rw [hsame]
      dsimp only
      split
      · exact ih _
      · exact ⟨List.prefix_refl _, fun _ => rfl⟩

theorem dryRunLoop_aborted (hbudget : input.maxWork = none) (fuel : Nat) {state : DryRunState}
    (h : state.aborted = false) : (dryRunLoop host numbers input fuel state).aborted = false := by
  induction fuel generalizing state with
  | zero => exact h
  | succ fuel ih =>
    have hround : (dryRunRound host numbers input state).1.aborted = false := by
      simp only [dryRunRound, hbudget, Option.any_none, Bool.false_eq_true, if_false]
      split <;> exact h
    unfold dryRunLoop
    split
    · exact h
    dsimp only
    split
    · exact ih hround
    · exact hround

end Budget

/-! ## The dry run replays the real run -/

omit [LinearOrder N] in
theorem blocked_of_mem_blockedIds {phase : Phase}
    (hdistinct : (phase.tasks.map fun task => task.id).Nodup) {task : Task}
    (htask : task ∈ phase.tasks) (h : task.id ∈ blockedIds phase.tasks) :
    task.status = .blocked := by
  obtain ⟨other, hother, hid⟩ := List.mem_map.mp h
  obtain ⟨hmem, hstatus⟩ := List.mem_filter.mp hother
  cases List.inj_on_of_nodup_map hdistinct hmem htask hid
  simpa using hstatus

theorem mem_openTasks : task ∈ openTasks tasks
      ↔ task ∈ tasks ∧ isEpicPendingStatus task.status = true ∧ task.status ≠ .blocked := by
  unfold openTasks isResolved isEpicPendingStatus
  rw [List.mem_filter]
  cases task.status <;> simp

theorem blockedIds_pendingTasksOf (phase : Phase) :
    blockedIds (pendingTasksOf phase) = blockedIds phase.tasks := by
  unfold blockedIds pendingTasksOf
  rw [List.filter_filter]
  congr 1
  apply List.filter_congr
  intro task _
  cases task.status <;> rfl

theorem remaining_eq_openTasks (hdistinct : (phase.tasks.map fun task => task.id).Nodup) :
    (pendingTasksOf phase).filter (fun task => task.id ∉ blockedIds phase.tasks)
      = openTasks phase.tasks := by
  unfold pendingTasksOf openTasks
  rw [List.filter_filter]
  apply List.filter_congr
  intro task htask
  have hblocked : task.id ∈ blockedIds phase.tasks ↔ task.status = .blocked := by
    constructor
    · exact blocked_of_mem_blockedIds hdistinct htask
    · intro hstatus
      exact List.mem_map_of_mem (List.mem_filter.mpr ⟨htask, decide_eq_true hstatus⟩)
  have hstatus : decide (task.id ∉ blockedIds phase.tasks) = (task.status != .blocked) := by
    rw [Bool.eq_iff_iff]
    simp [hblocked]
  rw [hstatus]
  cases task.status <;> rfl

omit [LinearOrder N] in
theorem Replayable.tracks {input : EpicWaveSelectionInput N} {phase : Phase}
    {scopes : JsString → List JsString} (h : Replayable input phase scopes) :
    Tracks input (blockedIds phase.tasks) scopes ⟨openTasks phase.tasks, [], [], 0, false⟩
      input where
  settings := ⟨_, _, _, rfl⟩
  phase := ⟨phase, h.found, rfl, rfl⟩
  history := h.fresh
  scope := h.scope
  apart := by
    intro task htask hblocked
    obtain ⟨hmem, -, hopen⟩ := mem_openTasks.mp htask
    exact hopen (blocked_of_mem_blockedIds h.distinct hmem hblocked)
  listed := by
    intro task htask
    have hentry : (task, phase.id) ∈ planEntries input.plan := by
      refine List.mem_flatMap.mpr ⟨phase, List.mem_of_find?_eq_some h.found, ?_⟩
      exact List.mem_map_of_mem (mem_openTasks.mp htask).1
    refine Option.isSome_iff_exists.mp ?_
    rw [planEntry, List.find?_isSome]
    exact ⟨_, hentry, decide_eq_true rfl⟩
  outside := by
    intro task htask dep hdep hout
    have hphaseId : phase.id = input.phaseId := by
      simpa using List.find?_some h.found
    -- a blocked dependency is found under its id, and it is not completed
    have hblocked : dep ∈ blockedIds phase.tasks →
        dependencyProblem input dep = none ∧ satisfiedOutside input dep = false := by
      intro hmem
      obtain ⟨other, hother, rfl⟩ := List.mem_map.mp hmem
      obtain ⟨hotherMem, hstatus⟩ := List.mem_filter.mp hother
      have hstatus := of_decide_eq_true hstatus
      have hentry := h.indexed other hotherMem hstatus
      unfold dependencyProblem satisfiedOutside
      rw [hentry]
      simp [hstatus, hphaseId]
    by_cases hmem : dep ∈ blockedIds phase.tasks
    · obtain ⟨hproblem, hunsatisfied⟩ := hblocked hmem
      exact ⟨hproblem, by rw [hunsatisfied]; simpa using hmem⟩
    · have hsatisfied : satisfiedOutside input dep = true := by
        rcases h.depends task htask dep hdep with hpending | hsatisfied
        · -- a pending task that is neither open nor blocked does not exist
          obtain ⟨other, hother, rfl⟩ := List.mem_map.mp hpending
          obtain ⟨hotherMem, hstatus⟩ := List.mem_filter.mp hother
          refine absurd (List.mem_map_of_mem (mem_openTasks.mpr ⟨hotherMem, hstatus, ?_⟩)) hout
          intro hblockedStatus
          exact hmem (List.mem_map_of_mem
            (List.mem_filter.mpr ⟨hotherMem, decide_eq_true hblockedStatus⟩))
        · exact hsatisfied
      exact ⟨dependencyProblem_of_satisfiedOutside hsatisfied, by rw [hsatisfied]; simpa using hmem⟩

/-- The dry run of a phase tells the waves of the real run and what it leaves
    open; a work budget may stop it earlier. -/
theorem epicRun_replays_dryRun {host : PlanningHost} {numbers : PlanningNumbers N}
    {input : EpicWaveSelectionInput N} {phase : Phase} {scopes : JsString → List JsString}
    {maxWork : Option Int} {dryRun : EpicPhaseDryRun} (h : Replayable input phase scopes)
    (hdryRun : dryRun = dryRunEpicPhase host numbers (phaseDryRunInput input phase scopes maxWork)) :
    (∃ waves last, EpicRun host numbers input waves last)
      ∧ (∀ waves last, EpicRun host numbers input waves last → dryRun.waves <+: waves.map (·.choice)
        ∧ (dryRun.aborted = false → dryRun.waves = waves.map (·.choice)
          ∧ dryRun.unscheduled = sortBy host.localeCompare (leftOpen last)))
      ∧ (maxWork = none → dryRun.aborted = false) := by
  have hremaining : (pendingTasksOf phase).filter
      (fun task => task.id ∉ blockedIds (pendingTasksOf phase)) = openTasks phase.tasks := by
    rw [blockedIds_pendingTasksOf]
    exact remaining_eq_openTasks h.distinct
  have hsimulates := @epicRun_of_tracks N _ host numbers input _ scopes _ input phase
    (blockedIds_pendingTasksOf phase) _ (le_refl _) h.tracks
  obtain ⟨waves, last, hrun, hwaves, hlast⟩ := hsimulates
  have hbudget := @dryRunLoop_budget N _ host numbers (phaseDryRunInput input phase scopes maxWork)
    (openTasks phase.tasks).length ⟨openTasks phase.tasks, [], [], 0, false⟩
  have hunbounded : (phaseDryRunInput input phase scopes maxWork).unbounded
      = phaseDryRunInput input phase scopes none := rfl
  rw [hunbounded, hwaves] at hbudget
  generalize hfinal : dryRunLoop host numbers (phaseDryRunInput input phase scopes maxWork)
    (openTasks phase.tasks).length ⟨openTasks phase.tasks, [], [], 0, false⟩ = final at hbudget
  have hloop : dryRun = ⟨final.waves, sortBy host.localeCompare ((blockedIds phase.tasks).eraseDups
      ++ final.remaining.map fun task => task.id), final.work, final.aborted⟩ := by
    rw [hdryRun, ← hfinal, ← hremaining, ← blockedIds_pendingTasksOf]
    rfl
  refine ⟨⟨waves, last, hrun⟩, ?_, ?_⟩
  · intro waves' last' hrun'
    obtain ⟨rfl, rfl⟩ := hrun.unique hrun'
    rw [hloop]
    refine ⟨hbudget.1, fun haborted => ?_⟩
    have hsame := hbudget.2 haborted
    rw [hsame, hwaves, hlast]
    exact ⟨rfl, rfl⟩
  · intro hnone
    rw [hloop, ← hfinal]
    exact dryRunLoop_aborted hnone _ rfl

/-- The planning scopes of the small phases below. -/
def smallScopes (id : JsString) : List JsString :=
  if id = js "1.1" then [js "src/a.ts"] else if id = js "1.2" then [js "src/b.ts"]
  else [js "src/c.ts"]

/-- Five tasks: one blocked, and one behind it. -/
def fiveTaskPhase : Phase :=
  { id := 1, name := js "build", status := .pending, type := none, requiredAgents := none
    tasks := [pendingTask "1.1" [] ["src/a.ts"], pendingTask "1.2" [] ["src/b.ts"],
      pendingTask "1.3" ["1.1"] ["src/c.ts"], plainTask "1.4" .blocked,
      pendingTask "1.5" ["1.4"] ["src/c.ts"]] }

def fiveTasks : EpicWaveSelectionInput ℤ :=
  { threeTasks with
    plan := { onePhasePlan [] with phases := [fiveTaskPhase] }
    liveScopes := smallScopes }

theorem epicRun_fiveTasks :
    ∃ waves last, EpicRun codeUnitHost wholeNumbers fiveTasks waves last ∧ waves.map (·.choice)
        = [⟨[js "1.1", js "1.2"], .parallel⟩, ⟨[js "1.3"], .serialComponent⟩] := by
  have hreplayable : Replayable fiveTasks fiveTaskPhase smallScopes :=
    { found := by decide +kernel
      distinct := by decide +kernel
      indexed := by decide +kernel
      scope := by decide +kernel
      depends := by decide +kernel
      fresh := rfl }
  have hdryRun : (dryRunEpicPhase codeUnitHost wholeNumbers
      (phaseDryRunInput fiveTasks fiveTaskPhase smallScopes none)).waves
      = [⟨[js "1.1", js "1.2"], .parallel⟩, ⟨[js "1.3"], .serialComponent⟩] := by
    decide +kernel
  obtain ⟨⟨waves, last, hrun⟩, hreplays, haborted⟩ :=
    @epicRun_replays_dryRun ℤ _ codeUnitHost wholeNumbers _ _ _ none _ hreplayable rfl
  obtain ⟨-, hsame⟩ := hreplays waves last hrun
  refine ⟨waves, last, hrun, ?_⟩
  rw [← (hsame (haborted rfl)).1, hdryRun]

/-- A phase whose blocked task has the id of a completed task of the phase before
    it. -/
def reusedIdPhase : Phase :=
  { id := 2, name := js "build", status := .pending, type := none, requiredAgents := none
    tasks := [plainTask "1.1" .blocked, pendingTask "2.1" ["1.1"] ["src/c.ts"]] }

def reusedId : EpicWaveSelectionInput ℤ :=
  { threeTasks with
    plan := { onePhasePlan [plainTask "1.1" .completed] with
      phases := (onePhasePlan [plainTask "1.1" .completed]).phases ++ [reusedIdPhase] }
    phaseId := 2
    liveScopes := smallScopes }

/-- The plan index finds the completed task, so the real run issues the dependent;
    the dry run sees a blocked dependency and issues nothing. -/
theorem dryRun_misses_reusedId :
    reusedId.plan.phases.find? (fun phase => phase.id = reusedId.phaseId) = some reusedIdPhase
      ∧ (reusedIdPhase.tasks.map fun task => task.id).Nodup
      ∧ (∀ task ∈ openTasks reusedIdPhase.tasks,
        smallScopes task.id ≠ [] ∧ reusedId.liveScopes task.id = smallScopes task.id)
      ∧ predecessorProblems reusedId (openTasks reusedIdPhase.tasks) = []
      ∧ (∃ wave last, EpicRun codeUnitHost wholeNumbers reusedId [wave] last
        ∧ wave.choice = ⟨[js "2.1"], .parallel⟩) ∧ (dryRunEpicPhase codeUnitHost wholeNumbers
        (phaseDryRunInput reusedId reusedIdPhase smallScopes none)).waves = [] := by
  refine ⟨by decide +kernel, by decide +kernel, by decide +kernel, by decide +kernel, ?_,
    by decide +kernel⟩
  have hissued : (selectNextEpicWave codeUnitHost wholeNumbers reusedId).wave?.map (·.choice)
      = some ⟨[js "2.1"], .parallel⟩ := by
    decide +kernel
  have hend : ((selectNextEpicWave codeUnitHost wholeNumbers reusedId).wave?.all fun wave =>
      (selectNextEpicWave codeUnitHost wholeNumbers (afterWave reusedId wave)).wave?.isNone)
      = true := by
    decide +kernel
  generalize hfirst : selectNextEpicWave codeUnitHost wholeNumbers reusedId = first at hissued hend
  obtain ⟨wave, hwave, hchoice⟩ := Option.map_eq_some_iff.mp hissued
  rw [hwave, Option.all_some] at hend
  refine ⟨wave, _, EpicRun.wave (hfirst.trans (wave_of_wave? hwave)) (EpicRun.stop ?_), hchoice⟩
  intro next hnext
  rw [hnext] at hend
  cases hend

end OpencodeSwarm
