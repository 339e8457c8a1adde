/-
  OpencodeSwarm.Plan.ParallelVerdict

  The pairwise verdict over task scopes (`src/plan/parallel-verdict.ts`) and the
  pair predicate it rests on (`src/epic/cochange-conflict.ts`): overlap of paths,
  or a co-change pair whose sides the two scopes own.

  `N` is the type of the fractional signals; they are only compared.
-/
import Mathlib.Order.Defs.LinearOrder
import OpencodeSwarm.Turbo.Conflicts

namespace OpencodeSwarm

open Js Posix

variable {N : Type} [LinearOrder N]

/-! ## One pair of scopes -/

/-- `CoChangeEntry`, with the fields the verdict reads. -/
structure CoChangeEntry (N : Type) where
  fileA : JsString
  fileB : JsString
  npmi : N
  coChangeCount : N
  deriving DecidableEq

structure CoChangeThreshold (N : Type) where
  npmi : N
  minCoChanges : N

/-- A pair reaches the threshold. -/
def CoChangeThreshold.admits (threshold : CoChangeThreshold N) (entry : CoChangeEntry N) : Bool :=
  decide (threshold.minCoChanges ≤ entry.coChangeCount) && decide (threshold.npmi ≤ entry.npmi)

def pathMatches (scopePath cochangePath : JsString) : Bool :=
  scopePath == cochangePath || endsWith scopePath (slash :: cochangePath)

/-- A scope touches a file of a co-change pair. -/
def touches (scope : List JsString) (file : JsString) : Bool :=
  scope.any fun path => pathMatches path file

/-- `crossCouple`: each scope owns one side of the pair, and only that side. -/
def crossCouple (scopeA scopeB : List JsString) (fileA fileB : JsString) : Bool :=
  let aExclusivelyFa := touches scopeA fileA && !touches scopeA fileB
  let aExclusivelyFb := touches scopeA fileB && !touches scopeA fileA
  let bExclusivelyFa := touches scopeB fileA && !touches scopeB fileB
  let bExclusivelyFb := touches scopeB fileB && !touches scopeB fileA
  (aExclusivelyFa && bExclusivelyFb) || (aExclusivelyFb && bExclusivelyFa)

/-- `EpicPairVerdict.reason`. -/
inductive ConflictReason where
  | path
  | cochange
  | both
  | none
  deriving DecidableEq, Repr

structure EpicPairVerdict (N : Type) where
  conflict : Bool
  reason : ConflictReason
  pathPairs : List (JsString × JsString)
  cochangePairs : List (CoChangeEntry N)

/-- Two scopes conflict by their paths or by co-change. -/
def epicPairConflict (scopeA scopeB : List JsString) (cochangePairs : List (CoChangeEntry N))
    (threshold : CoChangeThreshold N) : EpicPairVerdict N :=
  let normA := scopeA.map normalizePath
  let normB := scopeB.map normalizePath
  let pathPairs := normA.flatMap fun a => (normB.filter (pathsConflict a)).map fun b => (a, b)
  let cochangeMatches := (cochangePairs.filter threshold.admits).filter fun entry =>
    crossCouple normA normB entry.fileA entry.fileB
  let pathConflict := !pathPairs.isEmpty
  let cochangeConflict := !cochangeMatches.isEmpty
  { conflict := pathConflict || cochangeConflict
    reason :=
      if pathConflict && cochangeConflict then .both
      else if pathConflict then .path
      else if cochangeConflict then .cochange
      else .none
    pathPairs := pathPairs
    cochangePairs := cochangeMatches }

variable {cochangePairs : List (CoChangeEntry N)} {threshold : CoChangeThreshold N}

/-- Two scopes do not conflict: no path of one covers a path of the other, and
    no pair over the threshold couples them. -/
theorem conflict_eq_false_iff {scopeA scopeB : List JsString} :
    (epicPairConflict scopeA scopeB cochangePairs threshold).conflict = false
      ↔ (∀ a ∈ scopeA, ∀ b ∈ scopeB, pathsConflict (normalizePath a) (normalizePath b) = false)
        ∧ ∀ entry ∈ cochangePairs, threshold.admits entry = true →
          crossCouple (scopeA.map normalizePath) (scopeB.map normalizePath) entry.fileA entry.fileB
            = false := by
  simp only [epicPairConflict, Bool.or_eq_false_iff, Bool.not_eq_false', List.isEmpty_iff]
  constructor
  · rintro ⟨hpaths, hpairs⟩
    constructor
    · intro a ha b hb
      rw [List.flatMap_eq_nil_iff] at hpaths
      have hnone := hpaths _ (List.mem_map_of_mem ha)
      rw [List.map_eq_nil_iff, List.filter_eq_nil_iff] at hnone
      simpa using hnone _ (List.mem_map_of_mem hb)
    · intro entry hentry hadmits
      rw [List.filter_eq_nil_iff] at hpairs
      simpa using hpairs entry (List.mem_filter.mpr ⟨hentry, hadmits⟩)
  · rintro ⟨hpaths, hpairs⟩
    constructor
    · rw [List.flatMap_eq_nil_iff]
      intro a ha
      rw [List.map_eq_nil_iff, List.filter_eq_nil_iff]
      intro b hb
      obtain ⟨a', ha', rfl⟩ := List.mem_map.mp ha
      obtain ⟨b', hb', rfl⟩ := List.mem_map.mp hb
      rw [hpaths a' ha' b' hb']
      decide
    · rw [List.filter_eq_nil_iff]
      intro entry hentry
      obtain ⟨hmem, hadmits⟩ := List.mem_filter.mp hentry
      rw [hpairs entry hmem hadmits]
      decide

theorem crossCouple_comm (scopeA scopeB : List JsString) (fileA fileB : JsString) :
    crossCouple scopeA scopeB fileA fileB = crossCouple scopeB scopeA fileA fileB := by
  unfold crossCouple
  cases touches scopeA fileA <;> cases touches scopeA fileB <;> cases touches scopeB fileA <;>
    cases touches scopeB fileB <;> rfl

theorem conflict_comm (scopeA scopeB : List JsString) (cochangePairs : List (CoChangeEntry N))
    (threshold : CoChangeThreshold N) :
    (epicPairConflict scopeA scopeB cochangePairs threshold).conflict
      = (epicPairConflict scopeB scopeA cochangePairs threshold).conflict := by
  have hone : ∀ scopeA scopeB : List JsString,
      (epicPairConflict scopeA scopeB cochangePairs threshold).conflict = false →
      (epicPairConflict scopeB scopeA cochangePairs threshold).conflict = false := by
    intro scopeA scopeB h
    obtain ⟨hpaths, hpairs⟩ := conflict_eq_false_iff.mp h
    refine conflict_eq_false_iff.mpr ⟨?_, ?_⟩
    · intro b hb a ha
      rw [pathsConflict_comm]
      exact hpaths a ha b hb
    · intro entry hentry hadmits
      rw [crossCouple_comm]
      exact hpairs entry hentry hadmits
  rw [Bool.eq_iff_iff, ← not_iff_not, Bool.not_eq_true, Bool.not_eq_true]
  exact ⟨hone scopeA scopeB, hone scopeB scopeA⟩

/-! ## The verdict -/

/-- `MAX_PARALLEL_VERDICT_TASKS`. -/
def maxParallelVerdictTasks : Nat := 64

/-- `ParallelVerdictPair['verdict']`. -/
inductive PairVerdict where
  | conflict
  | disjoint
  | unknown
  deriving DecidableEq, Repr

/-- `ParallelVerdictPair`; its evidence lines are the two lists of the pair
    predicate, before they are formatted. -/
structure ParallelVerdictPair (N : Type) where
  a : JsString
  b : JsString
  verdict : PairVerdict
  evidence : List (JsString × JsString) × List (CoChangeEntry N)

/-- `ParallelVerdict['verdict']`. -/
inductive OverallVerdict where
  | allDisjoint
  | conflictsPresent
  | unknownScopes
  deriving DecidableEq, Repr

structure ParallelVerdict (N : Type) where
  verdict : OverallVerdict
  pairs : List (ParallelVerdictPair N)
  suggestedSerialOrder : List JsString
  unknownScopeTasks : List JsString

/-- `ComputeParallelVerdictOptions`; `scopes` are the explicit scopes. -/
structure ParallelVerdictOptions (N : Type) where
  useCochange : Bool := false
  cochangePairs : Option (List (CoChangeEntry N)) := none
  cochangeThreshold : Option (CoChangeThreshold N) := none
  scopes : Option (JsString → Option (List JsString)) := none

/-- The pairs `i < j` of a list, in the order of the two loops. -/
def pairsOf {α : Type} : List α → List (α × α)
  | [] => []
  | a :: rest => rest.map (fun b => (a, b)) ++ pairsOf rest

theorem mem_pairsOf {α : Type} [DecidableEq α] {xs : List α} {a b : α} (ha : a ∈ xs)
    (hb : b ∈ xs) (hne : a ≠ b) : (a, b) ∈ pairsOf xs ∨ (b, a) ∈ pairsOf xs := by
  induction xs with
  | nil => cases ha
  | cons x rest ih =>
    rw [pairsOf, List.mem_append, List.mem_append]
    rcases List.mem_cons.mp ha with rfl | ha
    · rcases List.mem_cons.mp hb with rfl | hb
      · exact absurd rfl hne
      · exact Or.inl (Or.inl (List.mem_map_of_mem hb))
    · rcases List.mem_cons.mp hb with heq | hb
      · rw [heq]
        exact Or.inr (Or.inl (List.mem_map_of_mem ha))
      · rcases ih ha hb with h | h
        · exact Or.inl (Or.inr h)
        · exact Or.inr (Or.inr h)

theorem ne_of_mem_pairsOf {α : Type} {xs : List α} (hnodup : xs.Nodup) {a b : α}
    (h : (a, b) ∈ pairsOf xs) : a ∈ xs ∧ b ∈ xs ∧ a ≠ b := by
  induction xs with
  | nil => cases h
  | cons x rest ih =>
    rw [List.nodup_cons] at hnodup
    rw [pairsOf, List.mem_append] at h
    rcases h with h | h
    · obtain ⟨y, hy, heq⟩ := List.mem_map.mp h
      cases heq
      exact ⟨List.mem_cons_self, List.mem_cons_of_mem _ hy, fun heq => hnodup.1 (heq ▸ hy)⟩
    · obtain ⟨ha, hb, hne⟩ := ih hnodup.2 h
      exact ⟨List.mem_cons_of_mem _ ha, List.mem_cons_of_mem _ hb, hne⟩

theorem rel_of_mem_pairsOf {α : Type} {R : α → α → Prop} {xs : List α} (h : xs.Pairwise R) {a b : α}
    (hab : (a, b) ∈ pairsOf xs) : R a b := by
  induction xs with
  | nil => cases hab
  | cons x rest ih =>
    obtain ⟨hx, hrest⟩ := List.pairwise_cons.mp h
    rw [pairsOf, List.mem_append] at hab
    rcases hab with hhead | htail
    · obtain ⟨y, hy, heq⟩ := List.mem_map.mp hhead
      cases heq
      exact hx b hy
    · exact ih hrest htail

/-- One release of `topoSort`: the in-degree falls, and a task without any is
    queued. -/
def releaseTask (state : (JsString → Int) × List JsString) (next : JsString) :
    (JsString → Int) × List JsString :=
  let (degree, queue) := state
  let lowered := degree next - 1
  (Function.update degree next lowered, if lowered = 0 then queue ++ [next] else queue)

/-- `topoSort`.  A task is queued at the start or by the edge that brings its
    in-degree to 0, so twice as many rounds as tasks are enough. -/
def topoSort (taskIds : List JsString) (adjacent : JsString → List JsString)
    (inDegree : JsString → Int) : List JsString :=
  let byInput (queue : List JsString) : List JsString :=
    queue.insertionSort fun x y => taskIds.idxOf x ≤ taskIds.idxOf y
  let rec rounds : Nat → (JsString → Int) → List JsString → List JsString → List JsString
    | 0, _, _, order => order
    | _ + 1, _, [], order => order
    | fuel + 1, degree, current :: queue, order =>
      let (degree, queue) := (adjacent current).foldl releaseTask (degree, queue)
      rounds fuel degree (byInput queue) (order ++ [current])
  let order := rounds (2 * taskIds.length) inDegree
    (taskIds.filter fun id => inDegree id = 0) []
  if order.length < taskIds.length then
    taskIds.foldl (fun order id => if id ∈ order then order else order ++ [id]) order
  else order

/-- The serial order: every conflict is an edge from the earlier task. -/
def serialOrder (taskIds : List JsString) (conflicts : List (JsString × JsString)) :
    List JsString :=
  let edges := conflicts.eraseDups
  topoSort taskIds (fun a => (edges.filter (·.1 = a)).map Prod.snd)
    (fun b => ((edges.filter (·.2 = b)).length : Int))

/-- The verdict of one pair of tasks. -/
def pairVerdict (resolved : JsString → Option (List JsString))
    (cochangePairs : List (CoChangeEntry N)) (threshold : CoChangeThreshold N)
    (pair : JsString × JsString) : ParallelVerdictPair N :=
  match resolved pair.1, resolved pair.2 with
  | some filesA, some filesB =>
    let ev := epicPairConflict filesA filesB cochangePairs threshold
    if ev.conflict then ⟨pair.1, pair.2, .conflict, ev.pathPairs, ev.cochangePairs⟩
    else ⟨pair.1, pair.2, .disjoint, [], []⟩
  | _, _ => ⟨pair.1, pair.2, .unknown, [], []⟩

theorem pairVerdict_conflict_iff {resolved : JsString → Option (List JsString)}
    {pair : JsString × JsString} :
    (pairVerdict resolved cochangePairs threshold pair).verdict = .conflict
      ↔ ∃ filesA filesB, resolved pair.1 = some filesA ∧ resolved pair.2 = some filesB
        ∧ (epicPairConflict filesA filesB cochangePairs threshold).conflict = true := by
  unfold pairVerdict
  cases hA : resolved pair.1 with
  | none => simp
  | some filesA =>
    cases hB : resolved pair.2 with
    | none => simp
    | some filesB =>
      dsimp only
      split
      · rename_i hconflict
        simp [hconflict]
      · rename_i hconflict
        simp [hconflict]

/-- `resolveExplicitScope`, and the same rule for the scopes of live bindings:
    a missing or empty scope is unknown. -/
def resolveScope (scopes : JsString → Option (List JsString)) (taskId : JsString) :
    Option (List JsString) :=
  (scopes taskId).filter fun files => !files.isEmpty

/-- `computeParallelVerdict`; `none` is the `RangeError`.  `bindings` are the
    scopes of the binding store, and `defaultThreshold` is
    `DEFAULT_PARALLEL_COCHANGE_THRESHOLD`. -/
def computeParallelVerdict (bindings : JsString → Option (List JsString))
    (defaultThreshold : CoChangeThreshold N) (taskIds : List JsString)
    (options : ParallelVerdictOptions N) : Option (ParallelVerdict N) :=
  if taskIds.length > maxParallelVerdictTasks then none
  else
    let cochangePairs := if options.useCochange then options.cochangePairs.getD [] else []
    let threshold := options.cochangeThreshold.getD defaultThreshold
    let resolved := resolveScope (options.scopes.getD bindings)
    let unknownScopeTasks := taskIds.filter fun id => (resolved id).isNone
    let pairs := (pairsOf taskIds).map (pairVerdict resolved cochangePairs threshold)
    let conflicts := pairs.filter (·.verdict = .conflict)
    some
      { verdict :=
          if !unknownScopeTasks.isEmpty then .unknownScopes
          else if !conflicts.isEmpty then .conflictsPresent
          else .allDisjoint
        pairs := pairs
        suggestedSerialOrder := serialOrder taskIds (conflicts.map fun pair => (pair.a, pair.b))
        unknownScopeTasks := unknownScopeTasks }

/-- A verdict is `all_disjoint` exactly when every task has a scope and no two
    scopes conflict. -/
theorem verdict_allDisjoint_iff {bindings : JsString → Option (List JsString)}
    {defaultThreshold : CoChangeThreshold N} {taskIds : List JsString}
    {options : ParallelVerdictOptions N} :
    (computeParallelVerdict bindings defaultThreshold taskIds options).map (·.verdict)
        = some .allDisjoint ↔ taskIds.length ≤ maxParallelVerdictTasks
        ∧ (∀ id ∈ taskIds, ∃ files, resolveScope (options.scopes.getD bindings) id = some files)
        ∧ ∀ a b, (a, b) ∈ pairsOf taskIds → ∀ filesA filesB,
          resolveScope (options.scopes.getD bindings) a = some filesA →
          resolveScope (options.scopes.getD bindings) b = some filesB →
          (epicPairConflict filesA filesB
            (if options.useCochange then options.cochangePairs.getD [] else [])
            (options.cochangeThreshold.getD defaultThreshold)).conflict = false := by
  unfold computeParallelVerdict
  by_cases hmany : taskIds.length > maxParallelVerdictTasks
  · rw [if_pos hmany]
    constructor
    · intro h
      cases h
    · rintro ⟨hfew, -⟩
      omega
  · rw [if_neg hmany]
    generalize hresolved : resolveScope (options.scopes.getD bindings) = resolved
    generalize hpairs :
      (if options.useCochange = true then options.cochangePairs.getD [] else []) = cochangePairs
    generalize hthreshold : options.cochangeThreshold.getD defaultThreshold = threshold
    have hunknown : (taskIds.filter fun id => (resolved id).isNone).isEmpty = true
        ↔ ∀ id ∈ taskIds, ∃ files, resolved id = some files := by
      simp [Option.ne_none_iff_exists', Option.isNone_iff_eq_none]
    have hfree : (((pairsOf taskIds).map (pairVerdict resolved cochangePairs threshold)).filter
          (·.verdict = .conflict)).isEmpty = true
        ↔ ∀ a b, (a, b) ∈ pairsOf taskIds → ∀ filesA filesB, resolved a = some filesA →
          resolved b = some filesB →
          (epicPairConflict filesA filesB cochangePairs threshold).conflict = false := by
      rw [List.isEmpty_iff, List.filter_eq_nil_iff]
      constructor
      · intro h a b hab filesA filesB hA hB
        have hnot := h _ (List.mem_map_of_mem hab)
        rw [decide_eq_true_eq, pairVerdict_conflict_iff] at hnot
        by_contra hcon
        exact hnot ⟨filesA, filesB, hA, hB, by simpa using hcon⟩
      · intro h pair hpair
        obtain ⟨⟨a, b⟩, hab, rfl⟩ := List.mem_map.mp hpair
        rw [decide_eq_true_eq, pairVerdict_conflict_iff]
        rintro ⟨filesA, filesB, hA, hB, hcon⟩
        rw [h a b hab filesA filesB hA hB] at hcon
        cases hcon
    rw [← hunknown, ← hfree]
    simp only [Option.map_some, Option.some.injEq]
    constructor
    · intro h
      split at h
      · cases h
      rename_i hscopes
      split at h
      · cases h
      rename_i hdisjoint
      rw [Bool.not_eq_true, Bool.not_eq_false'] at hscopes hdisjoint
      exact ⟨by omega, hscopes, hdisjoint⟩
    · rintro ⟨-, hscopes, hdisjoint⟩
      rw [hscopes, hdisjoint]
      rfl

end OpencodeSwarm
