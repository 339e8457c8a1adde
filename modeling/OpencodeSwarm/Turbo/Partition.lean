/-
  OpencodeSwarm.Turbo.Partition

  The preflight that the planners share (`src/turbo/lean/partition-common.ts`):
  the scope of every pending task, its risk class (`src/turbo/lean/risk.ts`,
  `src/turbo/lean/conflicts.ts`), and the order in which tasks may start.
-/
import OpencodeSwarm.Config.PlanSchema
import OpencodeSwarm.Lib.Kahn
import OpencodeSwarm.Lib.OrderedMap
import OpencodeSwarm.Turbo.Conflicts

namespace OpencodeSwarm

open Js Posix

/-- What the planners take from the runtime: `localeCompare` and `toLowerCase` of
    its locale, and the working directory. -/
structure PlanningHost where
  localeCompare : JsString → JsString → Int
  toLowerCase : JsString → JsString
  cwd : JsString

/-- A host whose collation is the order of the code units. -/
def codeUnitHost : PlanningHost where
  localeCompare := fun a b => if a = b then 0 else if codeUnitLe a b then -1 else 1
  toLowerCase := id
  cwd := js "/"

/-! ## Risk of a path -/

/-- `DEFAULT_GLOBAL_FILES`. -/
def defaultGlobalFiles : List JsString :=
  ["package.json", "package-lock.json", "bun.lock", "bun.lockb", "pnpm-lock.yaml", "yarn.lock",
    "Cargo.lock", "Gemfile.lock", "composer.lock", "poetry.lock", "go.mod", "go.sum",
    "tsconfig.json", "bunfig.toml", "CHANGELOG.md", ".release-please-manifest.json",
    "src/index.ts", "src/tools/index.ts", "src/agents/index.ts", "src/config/index.ts",
    "src/hooks/index.ts", "turbo.json", "nx.json", "packageManager", ".npmrc", ".nvmrc",
    ".node-version"].map js

/-- `BARREL_FILE_PATTERNS`: each of them is anchored at the end. -/
def barrelFilePatterns : List JsString :=
  ["/index.ts", "/index.tsx", "/index.js", "/index.mjs", "/exports.ts", "/types.ts"].map js

/-- `DEFAULT_PROTECTED_PATTERNS`. -/
def defaultProtectedPatterns : List JsString :=
  ["guardrail", "delegation", "authority", "permission", "crypto", "secret", "security", "auth",
    "/auth/", "/auth.", "auth.", ".env", "credentials", "secrets", "private", "/security/",
    "/security.", "/protect/", "/protect."].map js

def isPathSafe (filePath : JsString) : Bool := !includes (normalizePath filePath) [dot, dot]

def isGlobalFile (path : JsString) : Bool :=
  defaultGlobalFiles.any (endsWith path) || barrelFilePatterns.any (endsWith path)

/-- One round of the loop of `isProtectedPath`. -/
def matchesProtected (host : PlanningHost) (lowerPath pattern : JsString) : Bool :=
  includes lowerPath (host.toLowerCase pattern) &&
    if pattern = js "auth" ∨ pattern = js "/auth/" then
      lowerPath == js "auth" || endsWith lowerPath (js "/auth") || includes lowerPath (js "/auth/")
    else if pattern = js "auth." then
      match lowerPath.tails.findIdx? (js "auth.").isPrefixOf with
      | none => false
      | some idx => idx == 0 || lowerPath[idx - 1]? == some slash
    else true

def isProtectedPath (host : PlanningHost) (path : JsString) : Bool :=
  defaultProtectedPatterns.any (matchesProtected host (host.toLowerCase path))

/-! ## Risk of a task -/

/-- `LeanTurboConfig`, as far as the preflight reads it. -/
structure LeanTurboConfig where
  requireDeclaredScope : Bool

inductive TaskRiskCategory where
  | normal
  | global
  | protectedPath
  | noScope
  | invalidScope
  deriving DecidableEq, Repr

structure TaskRiskAssessment where
  category : TaskRiskCategory
  reason : Option String
  files : List JsString
  deriving DecidableEq

/-- Why a task cannot share a lane, if it cannot. -/
def assessTaskRisk (host : PlanningHost) (files : List JsString)
    (hasDeclaredScope hasInvalidScope : Bool) (config : LeanTurboConfig) : TaskRiskAssessment :=
  let globalFiles := files.filter isGlobalFile
  let protectedFiles := files.filter (isProtectedPath host)
  if !globalFiles.isEmpty then ⟨.global, some "global file conflict", globalFiles⟩
  else if !protectedFiles.isEmpty then ⟨.protectedPath, some "protected path", protectedFiles⟩
  else if hasInvalidScope then ⟨.invalidScope, some "invalid scope entries", files⟩
  else if !hasDeclaredScope && config.requireDeclaredScope then
    ⟨.noScope, some "undeclared scope", files⟩
  else ⟨.normal, none, []⟩

/-- `file.match(/^[a-zA-Z]:/)`. -/
def startsWithDrive (file : JsString) : Bool :=
  match file with
  | letter :: colon :: _ =>
    ((0x41 ≤ letter && letter ≤ 0x5A) || (0x61 ≤ letter && letter ≤ 0x7A)) && colon == 0x3A
  | _ => false

/-- One round of `getValidatedFiles`; `none` is an invalid entry. -/
def validatedFile (host : PlanningHost) (directory file : JsString) : Option JsString :=
  let pathToCheck :=
    if isAbsolute file || startsWithDrive file then file else directory ++ slash :: file
  if !isPathSafe pathToCheck then none
  else
    let relativePath := relative (resolve host.cwd directory) (resolve host.cwd pathToCheck)
    if relativePath = [] ∨ isPathSafe relativePath = false
      ∨ isAbsolute relativePath = true then none
    else some (normalizePath relativePath)

def getValidatedFiles (host : PlanningHost) (files : List JsString) (directory : JsString) :
    List JsString × Nat :=
  (files.filterMap (validatedFile host directory),
    (files.filter fun file => (validatedFile host directory file).isNone).length)

structure ClassifiedTask where
  task : Task
  files : List JsString
  hasDeclaredScope : Bool
  category : TaskRiskCategory
  conflictReason : Option String

/-- Step 1 of the preflight for one task: the files it claims, and whether they
    were declared. -/
def resolveTaskFiles (readTaskScopes : JsString → Option (List JsString)) (config : LeanTurboConfig)
    (scopes : JsString → Option (List JsString)) (task : Task) : List JsString × Bool :=
  let declared := (scopes task.id).or (readTaskScopes task.id)
  let files := declared.getD []
  let hasDeclaredScope := declared.isSome && !files.isEmpty
  if !hasDeclaredScope && !config.requireDeclaredScope then (task.filesTouched, false)
  else (files, hasDeclaredScope)

/-- Steps 1 and 2 of the preflight for one task. -/
def classifyTask (host : PlanningHost) (readTaskScopes : JsString → Option (List JsString))
    (directory : JsString) (config : LeanTurboConfig) (scopes : JsString → Option (List JsString))
    (task : Task) : ClassifiedTask :=
  let (files, hasDeclaredScope) := resolveTaskFiles readTaskScopes config scopes task
  -- a task without any claim is an invalid scope, so that it is serialized
  let (validFiles, hasInvalidScope) :=
    if files.isEmpty && !hasDeclaredScope then ([], true)
    else
      let (validFiles, invalidCount) := getValidatedFiles host files directory
      (validFiles, decide (0 < invalidCount))
  let assessment := assessTaskRisk host validFiles hasDeclaredScope hasInvalidScope config
  { task := task
    files := validFiles
    hasDeclaredScope := hasDeclaredScope
    category := assessment.category
    conflictReason := assessment.reason }

/-! ## The preflight -/

structure PartitionPreflight where
  sortedTasks : List ClassifiedTask
  taskMap : OrderedMap JsString ClassifiedTask
  tasksInCycle : List JsString

/-- The tasks by id; the first of two tasks with one id wins. -/
def buildTaskMap (classifiedTasks : List ClassifiedTask) : OrderedMap JsString ClassifiedTask :=
  classifiedTasks.foldl
    (fun taskMap classified =>
      if (taskMap.get? classified.task.id).isSome then taskMap
      else taskMap.set classified.task.id classified) []

/-- `adjacency` and `inDegree`: an edge from every dependency that is in the map. -/
def dependencyEdges (taskMap : OrderedMap JsString ClassifiedTask) : List (JsString × JsString) :=
  taskMap.values.flatMap fun classified =>
    (classified.task.depends.filter fun dep => (taskMap.get? dep).isSome).map fun dep =>
      (dep, classified.task.id)

/-- The place of a released task in the queue. -/
def enqueue (host : PlanningHost) (neighbor : JsString) (queue : List JsString) : List JsString :=
  match queue.findIdx? fun id => 0 < host.localeCompare id neighbor with
  | none => queue ++ [neighbor]
  | some insertIdx => queue.take insertIdx ++ neighbor :: queue.drop insertIdx

/-- The queue before the first round. -/
def kahnStart (host : PlanningHost) (taskMap : OrderedMap JsString ClassifiedTask) :
    Kahn.State JsString :=
  let edges := dependencyEdges taskMap
  { degree := fun id => Kahn.pending edges [] id
    queue := sortBy host.localeCompare (taskMap.keys.filter fun id => Kahn.pending edges [] id = 0)
    sorted := [] }

/-- Step 3 of the preflight, when its queue is empty. -/
def kahnEnd (host : PlanningHost) (taskMap : OrderedMap JsString ClassifiedTask) :
    Kahn.State JsString :=
  Kahn.rounds (enqueue host) (dependencyEdges taskMap) taskMap.keys.length (kahnStart host taskMap)

/-- `runPartitionPreflight`; `readTaskScopes` reads the scope files, for tasks
    that `scopes` leaves out. -/
def runPartitionPreflight (host : PlanningHost) (readTaskScopes : JsString → Option (List JsString))
    (directory : JsString) (pendingTasks : List Task) (config : LeanTurboConfig)
    (scopes : JsString → Option (List JsString)) : PartitionPreflight :=
  let classifiedTasks := pendingTasks.map (classifyTask host readTaskScopes directory config scopes)
  let taskMap := buildTaskMap classifiedTasks
  let state := kahnEnd host taskMap
  { sortedTasks := state.sorted.filterMap taskMap.get?
    taskMap := taskMap
    tasksInCycle := taskMap.keys.filter fun id => 0 < state.degree id }

def makeDependencySatisfactionChecker (taskMap : OrderedMap JsString ClassifiedTask)
    (assignedTasks : List JsString) (isUpstreamCommitted : Option (JsString → Bool))
    (task : ClassifiedTask) : Bool :=
  task.task.depends.all fun dep =>
    if (taskMap.get? dep).isSome then decide (dep ∈ assignedTasks)
    else
      match isUpstreamCommitted with
      | none => true
      | some committed => committed dep

def getReadyTasks (host : PlanningHost) (sortedTasks : List ClassifiedTask)
    (assignedTasks : List JsString) (isSatisfied : ClassifiedTask → Bool) : List ClassifiedTask :=
  sortBy (fun a b => host.localeCompare a.task.id b.task.id)
    (sortedTasks.filter fun classified =>
      decide (classified.task.id ∉ assignedTasks) && isSatisfied classified)

/-! ## The task map -/

/-- Every task stands under its own id, and each id once. -/
structure IsTaskMap (taskMap : OrderedMap JsString ClassifiedTask) : Prop where
  own : ∀ binding ∈ taskMap, binding.2.task.id = binding.1
  nodup : taskMap.keys.Nodup

theorem isTaskMap_buildTaskMap (classifiedTasks : List ClassifiedTask) :
    IsTaskMap (buildTaskMap classifiedTasks) := by
  have hfold : ∀ taskMap : OrderedMap JsString ClassifiedTask, IsTaskMap taskMap →
      IsTaskMap (classifiedTasks.foldl
        (fun taskMap classified =>
          if (taskMap.get? classified.task.id).isSome then taskMap
          else taskMap.set classified.task.id classified) taskMap) := by
    induction classifiedTasks with
    | nil =>
      intro taskMap h
      exact h
    | cons classified rest ih =>
      intro taskMap h
      rw [List.foldl_cons]
      apply ih
      split
      · exact h
      refine ⟨?_, OrderedMap.nodup_keys_set h.nodup⟩
      intro binding hbinding
      rcases OrderedMap.mem_set hbinding with rfl | hold
      · rfl
      · exact h.own binding hold
  refine hfold [] ⟨?_, List.nodup_nil⟩
  intro binding hbinding
  cases hbinding

variable {taskMap : OrderedMap JsString ClassifiedTask} {classified : ClassifiedTask}
  {id : JsString}

theorem IsTaskMap.id_of_get? (h : IsTaskMap taskMap) (hget : taskMap.get? id = some classified) :
    classified.task.id = id :=
  h.own _ (OrderedMap.mem_of_get? hget)

variable {classifiedTasks : List ClassifiedTask}

theorem mem_of_mem_buildTaskMap (h : (id, classified) ∈ buildTaskMap classifiedTasks) :
    classified ∈ classifiedTasks := by
  unfold buildTaskMap at h
  induction classifiedTasks using List.reverseRecOn with
  | nil => cases h
  | append_singleton classifiedTasks last ih =>
    rw [List.foldl_concat] at h
    split at h
    · exact List.mem_append_left _ (ih h)
    rcases OrderedMap.mem_set h with hlast | hold
    · cases hlast
      exact List.mem_append_right _ (List.mem_singleton_self _)
    · exact List.mem_append_left _ (ih hold)

theorem isSome_get?_buildTaskMap (h : classified ∈ classifiedTasks) :
    ((buildTaskMap classifiedTasks).get? classified.task.id).isSome = true := by
  unfold buildTaskMap
  induction classifiedTasks using List.reverseRecOn with
  | nil => cases h
  | append_singleton classifiedTasks last ih =>
    rw [List.foldl_concat]
    split
    · rename_i hlast
      rcases List.mem_append.mp h with hold | hnew
      · exact ih hold
      · rw [List.mem_singleton.mp hnew]
        exact hlast
    · rw [OrderedMap.get?_set]
      split
      · rfl
      rename_i hother
      rcases List.mem_append.mp h with hold | hnew
      · exact ih hold
      · rw [List.mem_singleton.mp hnew] at hother
        exact absurd rfl hother

/-! ## The order of the tasks -/

theorem enqueue_perm (host : PlanningHost) (neighbor : JsString) (queue : List JsString) :
    (enqueue host neighbor queue).Perm (neighbor :: queue) := by
  unfold enqueue
  split
  · exact List.perm_append_singleton neighbor queue
  rename_i insertIdx _
  have hsplice : (queue.take insertIdx ++ neighbor :: queue.drop insertIdx).Perm
      (neighbor :: (queue.take insertIdx ++ queue.drop insertIdx)) :=
    List.perm_middle
  rwa [List.take_append_drop] at hsplice

theorem target_mem_keys (h : IsTaskMap taskMap) :
    ∀ edge ∈ dependencyEdges taskMap, edge.2 ∈ taskMap.keys := by
  intro edge hedge
  obtain ⟨classified, hclassified, hedge⟩ := List.mem_flatMap.mp hedge
  obtain ⟨dep, -, rfl⟩ := List.mem_map.mp hedge
  obtain ⟨binding, hbinding, rfl⟩ := List.mem_map.mp hclassified
  rw [h.own binding hbinding]
  exact List.mem_map_of_mem hbinding

theorem invariant_kahnStart (host : PlanningHost) (h : IsTaskMap taskMap) :
    Kahn.Invariant taskMap.keys (dependencyEdges taskMap) (kahnStart host taskMap) := by
  have hperm : ((kahnStart host taskMap).sorted ++ (kahnStart host taskMap).queue).Perm
      (taskMap.keys.filter fun id => Kahn.pending (dependencyEdges taskMap) [] id = 0) :=
    sortBy_perm _ _
  refine ⟨?_, fun _ => rfl, ?_⟩
  · exact hperm.nodup_iff.mpr (h.nodup.filter _)
  · intro id
    rw [hperm.mem_iff, List.mem_filter, decide_eq_true_eq]
    rfl

theorem invariant_kahnEnd (host : PlanningHost) (h : IsTaskMap taskMap) :
    Kahn.Invariant taskMap.keys (dependencyEdges taskMap) (kahnEnd host taskMap) :=
  (invariant_kahnStart host h).rounds (enqueue_perm host) (target_mem_keys h) _

theorem kahnEnd_queue (host : PlanningHost) (h : IsTaskMap taskMap) :
    (kahnEnd host taskMap).queue = [] :=
  (invariant_kahnStart host h).queue_nil (enqueue_perm host) (target_mem_keys h)

/-- The ids of the sorted tasks are distinct, and each of them is in the map. -/
theorem sortedTasks_nodup {host : PlanningHost}
    {readTaskScopes : JsString → Option (List JsString)} {directory : JsString}
    {pendingTasks : List Task} {config : LeanTurboConfig}
    {scopes : JsString → Option (List JsString)} {preflight : PartitionPreflight}
    (hpreflight : preflight
      = runPartitionPreflight host readTaskScopes directory pendingTasks config scopes) :
    (preflight.sortedTasks.map (·.task.id)).Nodup ∧ ∀ classified ∈ preflight.sortedTasks,
        (classified.task.id, classified) ∈ preflight.taskMap := by
  subst hpreflight
  have hmap := isTaskMap_buildTaskMap
    (pendingTasks.map (classifyTask host readTaskScopes directory config scopes))
  simp only [runPartitionPreflight]
  generalize buildTaskMap
    (pendingTasks.map (classifyTask host readTaskScopes directory config scopes)) = taskMap at hmap
  have hnodup := (List.nodup_append.mp (invariant_kahnEnd host hmap).nodup).1
  generalize (kahnEnd host taskMap).sorted = sorted at hnodup
  constructor
  · induction sorted with
    | nil => exact List.nodup_nil
    | cons id rest ih =>
      obtain ⟨hid, hrest⟩ := List.nodup_cons.mp hnodup
      cases hget : taskMap.get? id with
      | none =>
        rw [List.filterMap_cons_none hget]
        exact ih hrest
      | some classified =>
        rw [List.filterMap_cons_some hget, List.map_cons, hmap.id_of_get? hget]
        refine List.nodup_cons.mpr ⟨?_, ih hrest⟩
        intro hmem
        obtain ⟨other, hother, heq⟩ := List.mem_map.mp hmem
        obtain ⟨otherId, hotherId, hgetOther⟩ := List.mem_filterMap.mp hother
        rw [hmap.id_of_get? hgetOther] at heq
        exact hid (heq ▸ hotherId)
  · intro classified hclassified
    obtain ⟨id, -, hget⟩ := List.mem_filterMap.mp hclassified
    rw [hmap.id_of_get? hget]
    exact OrderedMap.mem_of_get? hget

end OpencodeSwarm
