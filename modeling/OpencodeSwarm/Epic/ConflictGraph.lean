/-
  OpencodeSwarm.Epic.ConflictGraph

  The conflict graph of one phase (`src/epic/components.ts`): exclusive tasks,
  and an edge between two tasks whose learned scopes overlap or whose declared
  scopes own the two sides of a co-change pair.  The pairs are indexed by file;
  the index couples two tasks whenever the pair rule does.
-/
import OpencodeSwarm.Plan.ParallelVerdict
import OpencodeSwarm.Turbo.Partition

namespace OpencodeSwarm

open Js Posix

variable {N : Type} [LinearOrder N]

/-! ## Learned scopes -/

/-- What the planner computes with fractional numbers. -/
structure PlanningNumbers (N : Type) where
  zero : N
  add : N → N → N
  /-- `EPIC_EXPANSION_MIN_WEIGHT`. -/
  expansionMinWeight : N
  /-- Division of two counts. -/
  ratio : Nat → Nat → N
  /-- `Math.round(x * 1000) / 1000`. -/
  roundMilli : N → N

abbrev EpicCoWriteIndex (N : Type) := OrderedMap JsString (OrderedMap JsString N)

/-- The learned weights into the files that `declared` leads to. -/
def coWriteSums (numbers : PlanningNumbers N) (declared : List JsString)
    (coWrites : EpicCoWriteIndex N) : OrderedMap JsString N :=
  (declared.flatMap fun source => (coWrites.get? source).getD []).foldl
    (fun sums target =>
      sums.set target.1 (numbers.add ((sums.get? target.1).getD numbers.zero) target.2)) []

/-- A scope and the files that are often written with it. -/
def expandEpicScope (host : PlanningHost) (numbers : PlanningNumbers N) (scope : List JsString)
    (coWrites : Option (EpicCoWriteIndex N)) : List JsString :=
  let declared := (scope.map normalizePath).eraseDups
  match coWrites with
  | none => declared
  | some coWrites =>
    if coWrites.isEmpty then declared
    else
      let learned := ((coWriteSums numbers declared coWrites).filter fun sum =>
        decide (numbers.expansionMinWeight ≤ sum.2) && !declared.contains sum.1).map Prod.fst
      declared ++ sortBy host.localeCompare learned

/-! ## The index of the co-change pairs -/

structure EpicCochangeSignal (N : Type) where
  pairs : List (CoChangeEntry N)
  threshold : CoChangeThreshold N

/-- One file of a co-change pair. -/
inductive PairSide where
  | A
  | B
  deriving DecidableEq, Repr

def PairSide.other : PairSide → PairSide
  | .A => .B
  | .B => .A

/-- The file on one side of a pair. -/
def CoChangeEntry.side (entry : CoChangeEntry N) : PairSide → JsString
  | .A => entry.fileA
  | .B => entry.fileB

/-- `owned` and `wanted` of one task: sides of pairs, a pair given by its index. -/
structure CochangePartners where
  owned : List (Nat × PairSide)
  wanted : List (Nat × PairSide)
  deriving DecidableEq, Repr

/-- `add` of `cochangePartners`. -/
def addPairSide (byFile : OrderedMap JsString (List (Nat × PairSide)))
    (item : JsString × (Nat × PairSide)) : OrderedMap JsString (List (Nat × PairSide)) :=
  byFile.set item.1 ((byFile.get? item.1).getD [] ++ [item.2])

/-- The pairs that `cochangePartners` passes over. -/
def EpicCochangeSignal.skips (cochange : EpicCochangeSignal N) (pair : CoChangeEntry N) : Bool :=
  decide (pair.coChangeCount < cochange.threshold.minCoChanges)
    || decide (pair.npmi < cochange.threshold.npmi)

/-- The files of the other pairs, each with its pair and side. -/
def pairSides (cochange : EpicCochangeSignal N) : List (JsString × (Nat × PairSide)) :=
  (cochange.pairs.zipIdx.filter fun entry => !cochange.skips entry.1).flatMap fun entry =>
    [(entry.1.fileA, (entry.2, .A)), (entry.1.fileB, (entry.2, .B))]

/-- `byFile` of `cochangePartners`. -/
def pairsByFile (cochange : EpicCochangeSignal N) :
    OrderedMap JsString (List (Nat × PairSide)) :=
  (pairSides cochange).foldl addPairSide []

/-- What stands behind the slashes of a path. -/
def slashSuffixes : JsString → List JsString
  | [] => []
  | c :: rest => if c = slash then rest :: slashSuffixes rest else slashSuffixes rest

/-- `candidates` of `cochangePartners`. -/
def matchCandidates (scopePath : JsString) : List JsString := scopePath :: slashSuffixes scopePath

/-- The pair sides that the paths of a scope match. -/
def pairHits (byFile : OrderedMap JsString (List (Nat × PairSide))) (normalized : List JsString) :
    List (Nat × PairSide) :=
  (normalized.flatMap matchCandidates).flatMap fun file => (byFile.get? file).getD []

/-- `sides[side] = true`. -/
def markSide (sides : Bool × Bool) : PairSide → Bool × Bool
  | .A => (true, sides.2)
  | .B => (sides.1, true)

/-- `touched` of `cochangePartners`. -/
def touchedPairs (hits : List (Nat × PairSide)) : OrderedMap Nat (Bool × Bool) :=
  hits.foldl
    (fun touched hit =>
      touched.set hit.1 (markSide ((touched.get? hit.1).getD (false, false)) hit.2)) []

/-- The side of a pair that a task owns: the only one it touches. -/
def ownedSide (touched : Nat × (Bool × Bool)) : Option (Nat × PairSide) :=
  match touched.2 with
  | (true, false) => some (touched.1, .A)
  | (false, true) => some (touched.1, .B)
  | _ => none

/-- `cochangePartners` for one task. -/
def partnersOf (byFile : OrderedMap JsString (List (Nat × PairSide)))
    (normalized : List JsString) : Option CochangePartners :=
  let owned := (touchedPairs (pairHits byFile normalized)).filterMap ownedSide
  if owned.isEmpty then none
  else some ⟨owned, owned.map fun key => (key.1, key.2.other)⟩

def cochangePartners (ids : List JsString) (normalized : JsString → List JsString)
    (cochange : Option (EpicCochangeSignal N)) : OrderedMap JsString CochangePartners :=
  match cochange with
  | none => []
  | some cochange =>
    let byFile := pairsByFile cochange
    if byFile.isEmpty then []
    else ids.filterMap fun id => (partnersOf byFile (normalized id)).map fun own => (id, own)

def crossCoupled (a b : Option CochangePartners) : Bool :=
  match a, b with
  | some a, some b =>
    if a.wanted.length ≤ b.owned.length then a.wanted.any fun key => b.owned.contains key
    else b.owned.any fun key => a.wanted.contains key
  | _, _ => false

/-! ## The graph -/

inductive EpicExclusiveReason where
  | globalFile
  | protectedPath
  | noScope
  | hotFile
  deriving DecidableEq, Repr

/-- `EpicConflictGraphInput`; a task without an entry in `scopes` has none. -/
structure EpicConflictGraphInput (N : Type) where
  directory : JsString
  tasks : List Task
  scopes : JsString → List JsString
  leanConfig : LeanTurboConfig
  hotFiles : List JsString
  coWrites : Option (EpicCoWriteIndex N)
  cochange : Option (EpicCochangeSignal N)

structure EpicConflictGraph where
  preflight : PartitionPreflight
  exclusive : OrderedMap JsString EpicExclusiveReason
  adjacency : OrderedMap JsString (List JsString)
  topoIndex : OrderedMap JsString Nat

def exclusiveReasonOf (category : TaskRiskCategory) (scope hotFiles : List JsString) :
    Option EpicExclusiveReason :=
  if category = .global then some .globalFile
  else if category = .protectedPath then some .protectedPath
  else if category ≠ .normal ∨ scope = [] then some .noScope
  else if scope.any fun file => (hotFiles.map normalizePath).contains (normalizePath file) then
    some .hotFile
  else none

def pathOverlap (a b : List JsString) : Bool := a.any fun x => b.any fun y => pathsConflict x y

/-- Two tasks conflict in the graph. -/
def hasEdge (expanded : JsString → List JsString) (partners : OrderedMap JsString CochangePartners)
    (pair : JsString × JsString) : Bool :=
  pathOverlap (expanded pair.1) (expanded pair.2)
    || crossCoupled (partners.get? pair.1) (partners.get? pair.2)

/-- The neighbours of a task, in the order in which its edges are found. -/
def neighboursOf (edges : List (JsString × JsString)) (id : JsString) : List JsString :=
  edges.filterMap fun edge =>
    if edge.1 = id then some edge.2 else if edge.2 = id then some edge.1 else none

/-- `topoIndex`: the sorted tasks, then the tasks in a cycle by id. -/
def buildTopoIndex (host : PlanningHost) (preflight : PartitionPreflight) :
    OrderedMap JsString Nat :=
  let sorted := preflight.sortedTasks.zipIdx.foldl
    (fun (topoIndex : OrderedMap JsString Nat) entry => topoIndex.set entry.1.task.id entry.2) []
  (sortBy host.localeCompare preflight.tasksInCycle).foldl
    (fun topoIndex id =>
      if (topoIndex.get? id).isSome then topoIndex else topoIndex.set id topoIndex.length) sorted

/-- `scopes` of `buildEpicConflictGraph`: an entry for every task. -/
def taskScopes (input : EpicConflictGraphInput N) (id : JsString) : Option (List JsString) :=
  if id ∈ input.tasks.map fun task => task.id then some (input.scopes id) else none

/-- The shared preflight of the phase.  Every scope is passed explicitly, so no
    scope file is read. -/
def epicPreflight (host : PlanningHost) (input : EpicConflictGraphInput N) : PartitionPreflight :=
  runPartitionPreflight host (fun _ => none) input.directory input.tasks input.leanConfig
    (taskScopes input)

/-- Why a task of the preflight is exclusive. -/
def exclusiveReason (input : EpicConflictGraphInput N) (classified : ClassifiedTask) :
    Option EpicExclusiveReason :=
  exclusiveReasonOf classified.category ((taskScopes input classified.task.id).getD [])
    input.hotFiles

/-- The tasks that are not exclusive. -/
def graphVertices (host : PlanningHost) (input : EpicConflictGraphInput N) : List JsString :=
  ((epicPreflight host input).taskMap.values.filter fun classified =>
    (exclusiveReason input classified).isNone).map fun classified => classified.task.id

/-- The edges of the graph, from the earlier vertex to the later one. -/
def graphEdges (host : PlanningHost) (numbers : PlanningNumbers N)
    (input : EpicConflictGraphInput N) : List (JsString × JsString) :=
  let vertices := graphVertices host input
  let scopeOf (id : JsString) : List JsString := (taskScopes input id).getD []
  let partners := cochangePartners vertices (fun id => (scopeOf id).map normalizePath)
    input.cochange
  let expanded (id : JsString) : List JsString :=
    expandEpicScope host numbers (scopeOf id) input.coWrites
  (pairsOf vertices).filter (hasEdge expanded partners)

def buildEpicConflictGraph (host : PlanningHost) (numbers : PlanningNumbers N)
    (input : EpicConflictGraphInput N) : EpicConflictGraph :=
  let preflight := epicPreflight host input
  { preflight := preflight
    exclusive := preflight.taskMap.values.filterMap fun classified =>
      (exclusiveReason input classified).map fun reason => (classified.task.id, reason)
    adjacency := (graphVertices host input).map fun id =>
      (id, neighboursOf (graphEdges host numbers input) id)
    topoIndex := buildTopoIndex host preflight }

/-! ## The index couples what the pair rule couples -/

variable {file : JsString}

theorem mem_slashSuffixes {path : JsString} :
    file ∈ slashSuffixes path ↔ slash :: file <:+ path := by
  induction path with
  | nil => simp [slashSuffixes]
  | cons c rest ih =>
    rw [slashSuffixes, List.suffix_cons_iff, List.cons.injEq]
    by_cases hc : c = slash
    · rw [if_pos hc, List.mem_cons, ih]
      simp [hc]
    · rw [if_neg hc, ih]
      simp [Ne.symm hc]

theorem mem_matchCandidates {scopePath : JsString} :
    file ∈ matchCandidates scopePath ↔ pathMatches scopePath file = true := by
  unfold matchCandidates pathMatches endsWith
  rw [List.mem_cons, mem_slashSuffixes, Bool.or_eq_true, beq_iff_eq, List.isSuffixOf_iff_suffix,
    eq_comm]

variable {byFile : OrderedMap JsString (List (Nat × PairSide))}

theorem mem_foldl_addPairSide {items : List (JsString × (Nat × PairSide))} {key : Nat × PairSide} :
    key ∈ ((items.foldl addPairSide byFile).get? file).getD []
      ↔ key ∈ (byFile.get? file).getD [] ∨ (file, key) ∈ items := by
  induction items generalizing byFile with
  | nil => simp
  | cons item items ih =>
    rw [List.foldl_cons, ih, addPairSide, OrderedMap.get?_set, List.mem_cons]
    by_cases hfile : file = item.1
    · subst hfile
      have hitem : (item.1, key) = item ↔ key = item.2 := by
        rw [Prod.ext_iff]
        simp
      rw [if_pos rfl, Option.getD_some, List.mem_append, List.mem_singleton, hitem, or_assoc]
    · have hitem : (file, key) ≠ item := fun heq => hfile (congrArg Prod.fst heq)
      simp [hfile, hitem]

variable {cochange : EpicCochangeSignal N} {index : Nat}

/-- What is not passed over reaches the threshold of the pair rule. -/
theorem not_skips_iff {pair : CoChangeEntry N} :
    (!cochange.skips pair) = true ↔ cochange.threshold.admits pair = true := by
  simp [EpicCochangeSignal.skips, CoChangeThreshold.admits]

theorem mem_pairSides {side : PairSide} : (file, (index, side)) ∈ pairSides cochange
      ↔ ∃ entry, cochange.pairs[index]? = some entry ∧ cochange.threshold.admits entry = true
        ∧ entry.side side = file := by
  constructor
  · intro h
    obtain ⟨⟨entry, position⟩, hentry, hmem⟩ := List.mem_flatMap.mp h
    obtain ⟨hzip, hkept⟩ := List.mem_filter.mp hentry
    have hadmits := not_skips_iff.mp hkept
    rw [List.mk_mem_zipIdx_iff_getElem?] at hzip
    simp only [List.mem_cons, List.not_mem_nil, or_false, Prod.mk.injEq] at hmem
    rcases hmem with ⟨rfl, rfl, rfl⟩ | ⟨rfl, rfl, rfl⟩
    · exact ⟨entry, hzip, hadmits, rfl⟩
    · exact ⟨entry, hzip, hadmits, rfl⟩
  · rintro ⟨entry, hget, hadmits, rfl⟩
    refine List.mem_flatMap.mpr ⟨(entry, index), ?_, ?_⟩
    · rw [List.mem_filter, List.mk_mem_zipIdx_iff_getElem?]
      exact ⟨hget, not_skips_iff.mpr hadmits⟩
    · cases side with
      | A => exact List.mem_cons_self
      | B => exact List.mem_cons_of_mem _ List.mem_cons_self

theorem mem_pairHits {normalized : List JsString} {side : PairSide} :
    (index, side) ∈ pairHits (pairsByFile cochange) normalized
      ↔ ∃ entry, cochange.pairs[index]? = some entry ∧ cochange.threshold.admits entry = true
        ∧ touches normalized (entry.side side) = true := by
  unfold pairHits pairsByFile touches
  constructor
  · intro h
    obtain ⟨file, hfile, hkey⟩ := List.mem_flatMap.mp h
    obtain ⟨path, hpath, hcandidate⟩ := List.mem_flatMap.mp hfile
    rw [mem_foldl_addPairSide] at hkey
    rcases hkey with hnone | hitem
    · cases hnone
    · obtain ⟨entry, hget, hadmits, rfl⟩ := mem_pairSides.mp hitem
      exact ⟨entry, hget, hadmits,
        List.any_eq_true.mpr ⟨path, hpath, mem_matchCandidates.mp hcandidate⟩⟩
  · rintro ⟨entry, hget, hadmits, htouches⟩
    obtain ⟨path, hpath, hmatch⟩ := List.any_eq_true.mp htouches
    refine List.mem_flatMap.mpr ⟨entry.side side, ?_, ?_⟩
    · exact List.mem_flatMap.mpr ⟨path, hpath, mem_matchCandidates.mpr hmatch⟩
    · exact mem_foldl_addPairSide.mpr (Or.inr (mem_pairSides.mpr ⟨entry, hget, hadmits, rfl⟩))

variable {hits : List (Nat × PairSide)}

theorem getD_foldl_markSide {touched : OrderedMap Nat (Bool × Bool)} :
    ((hits.foldl (fun touched hit =>
        touched.set hit.1 (markSide ((touched.get? hit.1).getD (false, false)) hit.2))
      touched).get? index).getD (false, false)
      = (((touched.get? index).getD (false, false)).1 || decide ((index, .A) ∈ hits),
        ((touched.get? index).getD (false, false)).2 || decide ((index, .B) ∈ hits)) := by
  induction hits generalizing touched with
  | nil => simp
  | cons hit hits ih =>
    obtain ⟨position, side⟩ := hit
    rw [List.foldl_cons, ih, OrderedMap.get?_set]
    by_cases hindex : index = position
    · subst hindex
      cases side <;> simp [markSide]
    · simp [hindex]

theorem nodup_keys_touchedPairs (hits : List (Nat × PairSide)) :
    (touchedPairs hits).keys.Nodup := by
  unfold touchedPairs
  induction hits using List.reverseRecOn with
  | nil => exact List.nodup_nil
  | append_singleton hits hit ih =>
    rw [List.foldl_concat]
    exact OrderedMap.nodup_keys_set ih

/-- A task owns the pair sides that it hits without hitting the other side. -/
theorem mem_owned {side : PairSide} : (index, side) ∈ (touchedPairs hits).filterMap ownedSide
      ↔ (index, side) ∈ hits ∧ (index, side.other) ∉ hits := by
  have hsides : ((touchedPairs hits).get? index).getD (false, false)
      = (decide ((index, .A) ∈ hits), decide ((index, .B) ∈ hits)) := by
    rw [touchedPairs, getD_foldl_markSide]
    rfl
  have howned : (index, side) ∈ (touchedPairs hits).filterMap ownedSide
      ↔ ∃ sides, (touchedPairs hits).get? index = some sides
        ∧ ownedSide (index, sides) = some (index, side) := by
    rw [List.mem_filterMap]
    constructor
    · rintro ⟨⟨position, sides⟩, hmem, hside⟩
      have hposition : position = index := by
        unfold ownedSide at hside
        split at hside <;> simp_all
      subst hposition
      exact ⟨sides, OrderedMap.get?_of_mem (nodup_keys_touchedPairs hits) hmem, hside⟩
    · rintro ⟨sides, hget, hside⟩
      exact ⟨(index, sides), OrderedMap.mem_of_get? hget, hside⟩
  rw [howned]
  cases hget : (touchedPairs hits).get? index with
  | none =>
    cases side <;> simp_all [PairSide.other]
  | some sides =>
    rw [hget, Option.getD_some] at hsides
    subst hsides
    cases side <;>
      by_cases hA : (index, PairSide.A) ∈ hits <;> by_cases hB : (index, PairSide.B) ∈ hits <;>
      simp [ownedSide, PairSide.other, hA, hB]

variable {a b : List JsString}

/-- Two tasks couple when one owns one side of a pair and the other the other. -/
theorem crossCoupled_partnersOf : crossCoupled (partnersOf byFile a) (partnersOf byFile b) = true
      ↔ ∃ index side, (index, side) ∈ (touchedPairs (pairHits byFile a)).filterMap ownedSide
        ∧ (index, side.other) ∈ (touchedPairs (pairHits byFile b)).filterMap ownedSide := by
  unfold partnersOf
  generalize (touchedPairs (pairHits byFile a)).filterMap ownedSide = ownedA
  generalize (touchedPairs (pairHits byFile b)).filterMap ownedSide = ownedB
  by_cases hA : ownedA = []
  · subst hA
    simp [crossCoupled]
  by_cases hB : ownedB = []
  · subst hB
    simp [crossCoupled]
  have hkey : (∃ key ∈ ownedA.map (fun key => (key.1, key.2.other)), key ∈ ownedB)
      ↔ ∃ index side, (index, side) ∈ ownedA ∧ (index, side.other) ∈ ownedB := by
    constructor
    · rintro ⟨key, hmem, hB⟩
      obtain ⟨⟨index, side⟩, hA, rfl⟩ := List.mem_map.mp hmem
      exact ⟨index, side, hA, hB⟩
    · rintro ⟨index, side, hA, hB⟩
      exact ⟨_, List.mem_map_of_mem hA, hB⟩
  simp only [List.isEmpty_iff, hA, hB, if_false, crossCoupled]
  rw [← hkey]
  -- the smaller of the two sets is scanned, and either scan finds a common key
  split
  · simp [List.any_eq_true]
  simp only [List.any_eq_true, List.contains_iff_mem]
  exact ⟨fun ⟨key, hB, hA⟩ => ⟨key, hA, hB⟩, fun ⟨key, hA, hB⟩ => ⟨key, hB, hA⟩⟩

theorem exists_crossCouple_iff : (∃ index side,
        (index, side) ∈ (touchedPairs (pairHits (pairsByFile cochange) a)).filterMap ownedSide
        ∧ (index, side.other) ∈ (touchedPairs (pairHits (pairsByFile cochange) b)).filterMap
          ownedSide)
      ↔ ∃ entry ∈ cochange.pairs, cochange.threshold.admits entry = true
        ∧ crossCouple a b entry.fileA entry.fileB = true := by
  simp only [mem_owned, mem_pairHits]
  constructor
  · rintro ⟨index, side, ⟨⟨entry, hget, hadmits, hA⟩, hnotA⟩, ⟨⟨entry', hget', -, hB⟩, hnotB⟩⟩
    cases hget.symm.trans hget'
    refine ⟨entry, List.mem_of_getElem? hget, hadmits, ?_⟩
    cases side <;>
      simp_all [crossCouple, CoChangeEntry.side, PairSide.other]
  · rintro ⟨entry, hentry, hadmits, hcouple⟩
    obtain ⟨index, hget⟩ := List.mem_iff_getElem?.mp hentry
    have hyes : ∀ scope : List JsString, ∀ side, touches scope (entry.side side) = true →
        ∃ entry, cochange.pairs[index]? = some entry ∧ cochange.threshold.admits entry = true
          ∧ touches scope (entry.side side) = true :=
      fun scope side h => ⟨entry, hget, hadmits, h⟩
    have hno : ∀ scope : List JsString, ∀ side, touches scope (entry.side side) = false →
        ¬ ∃ entry, cochange.pairs[index]? = some entry ∧ cochange.threshold.admits entry = true
          ∧ touches scope (entry.side side) = true := by
      rintro scope side h ⟨entry', hget', -, htouches⟩
      cases hget.symm.trans hget'
      rw [h] at htouches
      cases htouches
    simp only [crossCouple, Bool.or_eq_true, Bool.and_eq_true, Bool.not_eq_true'] at hcouple
    rcases hcouple with ⟨⟨hAA, hAB⟩, hBB, hBA⟩ | ⟨⟨hAB, hAA⟩, hBA, hBB⟩
    · exact ⟨index, .A, ⟨hyes a .A hAA, hno a .B hAB⟩, hyes b .B hBB, hno b .A hBA⟩
    · exact ⟨index, .B, ⟨hyes a .B hAB, hno a .A hAA⟩, hyes b .A hBA, hno b .B hBB⟩

/-- The index couples two scopes exactly when a pair over the threshold does. -/
theorem crossCoupled_iff :
    crossCoupled (partnersOf (pairsByFile cochange) a) (partnersOf (pairsByFile cochange) b) = true
      ↔ ∃ entry ∈ cochange.pairs, cochange.threshold.admits entry = true
        ∧ crossCouple a b entry.fileA entry.fileB = true :=
  crossCoupled_partnersOf.trans exists_crossCouple_iff

/-! ## No edge, no conflict -/

variable {host : PlanningHost} {numbers : PlanningNumbers N}

theorem normalizePath_mem_expandEpicScope {scope : List JsString}
    {coWrites : Option (EpicCoWriteIndex N)} (h : file ∈ scope) :
    normalizePath file ∈ expandEpicScope host numbers scope coWrites := by
  have hdeclared : normalizePath file ∈ (scope.map normalizePath).eraseDups := by
    rw [List.mem_eraseDups]
    exact List.mem_map_of_mem h
  unfold expandEpicScope
  cases coWrites with
  | none => exact hdeclared
  | some coWrites =>
    dsimp only
    split
    · exact hdeclared
    · exact List.mem_append_left _ hdeclared

variable {id : JsString}

theorem get?_cochangePartners {ids : List JsString} {normalized : JsString → List JsString}
    (hid : id ∈ ids) : (cochangePartners ids normalized (some cochange)).get? id
      = partnersOf (pairsByFile cochange) (normalized id) := by
  dsimp only [cochangePartners]
  by_cases hempty : pairsByFile cochange = []
  · have hhits : pairHits ([] : OrderedMap JsString (List (Nat × PairSide))) (normalized id) = [] := by
      simp [pairHits, OrderedMap.get?]
    rw [hempty, partnersOf, hhits]
    rfl
  rw [if_neg (by simpa using hempty)]
  exact OrderedMap.get?_filterMap hid

variable {threshold : CoChangeThreshold N} {scopeA scopeB : List JsString}
  {pairs : List (CoChangeEntry N)}

/-- The pair rule reports a co-change match exactly when a pair over the threshold couples
    the scopes, and its reason says so. -/
theorem cochangePairs_ne_nil_iff :
    (epicPairConflict scopeA scopeB pairs threshold).cochangePairs ≠ []
      ↔ ∃ entry ∈ pairs, threshold.admits entry = true
        ∧ crossCouple (scopeA.map normalizePath) (scopeB.map normalizePath) entry.fileA entry.fileB
          = true := by
  constructor
  · intro hmatches
    obtain ⟨entry, hentry⟩ := List.exists_mem_of_ne_nil _ hmatches
    obtain ⟨hadmitted, hcouple⟩ := List.mem_filter.mp hentry
    obtain ⟨hmem, hadmits⟩ := List.mem_filter.mp hadmitted
    exact ⟨entry, hmem, hadmits, hcouple⟩
  · rintro ⟨entry, hmem, hadmits, hcouple⟩
    exact List.ne_nil_of_mem (List.mem_filter.mpr ⟨List.mem_filter.mpr ⟨hmem, hadmits⟩, hcouple⟩)

theorem reason_cochange_iff : ((epicPairConflict scopeA scopeB pairs threshold).reason = .cochange
        ∨ (epicPairConflict scopeA scopeB pairs threshold).reason = .both)
      ↔ (epicPairConflict scopeA scopeB pairs threshold).cochangePairs ≠ [] := by
  dsimp only [epicPairConflict]
  split
  · next hboth =>
    rw [Bool.and_eq_true] at hboth
    simpa using hboth.2
  · next hboth =>
    split
    · next hpath =>
      rw [hpath, Bool.true_and] at hboth
      simpa using hboth
    · split
      · next hcochange => simpa using hcochange
      · next hcochange => simpa using hcochange

/-- The index answers for two tasks what the pair rule answers for their scopes. -/
theorem crossCoupled_cochangePartners {ids : List JsString} {scopes : JsString → List JsString}
    {cochange : EpicCochangeSignal N} {a b : JsString} (ha : a ∈ ids) (hb : b ∈ ids) :
    let partners := cochangePartners ids (fun id => (scopes id).map normalizePath) (some cochange)
    let verdict := epicPairConflict (scopes a) (scopes b) cochange.pairs cochange.threshold
    (crossCoupled (partners.get? a) (partners.get? b) = true ↔ verdict.cochangePairs ≠ [])
      ∧ (crossCoupled (partners.get? a) (partners.get? b) = true
        ↔ verdict.reason = .cochange ∨ verdict.reason = .both) := by
  intro partners verdict
  have hmatch : crossCoupled (partners.get? a) (partners.get? b) = true
      ↔ verdict.cochangePairs ≠ [] := by
    show crossCoupled ((cochangePartners ids _ (some cochange)).get? a)
      ((cochangePartners ids _ (some cochange)).get? b) = true ↔ _
    rw [get?_cochangePartners ha, get?_cochangePartners hb, crossCoupled_iff,
      cochangePairs_ne_nil_iff]
  exact ⟨hmatch, hmatch.trans reason_cochange_iff.symm⟩

/-- Two scopes whose paths end in files of the pairs below. -/
def suffixScopes (id : JsString) : List JsString :=
  if id = js "1.1" then [js "lib/a.ts"] else [js "/repo/src/b.ts"]

/-- The second scope matches both sides of the first pair, and one side of the second. -/
def suffixSignal : EpicCochangeSignal ℤ :=
  ⟨[⟨js "src/b.ts", js "b.ts", 5, 4⟩, ⟨js "a.ts", js "b.ts", 5, 4⟩], ⟨3, 2⟩⟩

theorem crossCoupled_suffixScopes :
    let partners := cochangePartners [js "1.1", js "1.2"]
      (fun id => (suffixScopes id).map normalizePath) (some suffixSignal)
    crossCoupled (partners.get? (js "1.1")) (partners.get? (js "1.2")) = true
      ∧ (epicPairConflict (suffixScopes (js "1.1")) (suffixScopes (js "1.2")) suffixSignal.pairs
        suffixSignal.threshold).reason = .cochange := by
  intro partners
  have hindex := @crossCoupled_cochangePartners ℤ _ [js "1.1", js "1.2"] suffixScopes suffixSignal
    (js "1.1") (js "1.2") List.mem_cons_self (List.mem_cons_of_mem _ List.mem_cons_self)
  have hreason : (epicPairConflict (suffixScopes (js "1.1")) (suffixScopes (js "1.2"))
      suffixSignal.pairs suffixSignal.threshold).reason = .cochange := by
    decide +kernel
  exact ⟨hindex.2.mpr (Or.inl hreason), hreason⟩

omit [LinearOrder N] in
theorem nodup_graphVertices (host : PlanningHost) (input : EpicConflictGraphInput N) :
    (graphVertices host input).Nodup := by
  have hmap : IsTaskMap (epicPreflight host input).taskMap := isTaskMap_buildTaskMap _
  have hkeys : (epicPreflight host input).taskMap.values.map (fun classified => classified.task.id)
      = (epicPreflight host input).taskMap.keys := by
    unfold OrderedMap.values OrderedMap.keys
    rw [List.map_map]
    exact List.map_congr_left hmap.own
  have hsub : ((epicPreflight host input).taskMap.values.filter fun classified =>
      (exclusiveReason input classified).isNone).Sublist (epicPreflight host input).taskMap.values :=
    List.filter_sublist
  have hsub := hsub.map fun classified => classified.task.id
  rw [hkeys] at hsub
  exact hsub.nodup hmap.nodup

omit [LinearOrder N] in
theorem exists_scope_of_mem {host : PlanningHost} {input : EpicConflictGraphInput N} {id : JsString}
    (h : id ∈ graphVertices host input) :
    taskScopes input id = some (input.scopes id) ∧ input.scopes id ≠ [] := by
  suffices hscope : (taskScopes input id).getD [] ≠ [] by
    unfold taskScopes at hscope ⊢
    split
    · rename_i htask
      rw [if_pos htask] at hscope
      exact ⟨rfl, hscope⟩
    · rename_i htask
      rw [if_neg htask] at hscope
      exact absurd rfl hscope
  obtain ⟨classified, hmem, rfl⟩ := List.mem_map.mp h
  have hreason := (List.mem_filter.mp hmem).2
  intro hnil
  unfold exclusiveReason exclusiveReasonOf at hreason
  rw [hnil] at hreason
  split at hreason
  · cases hreason
  split at hreason
  · cases hreason
  · simp at hreason

theorem mem_neighboursOf_comm {edges : List (JsString × JsString)} {a b : JsString} (h : a ≠ b) :
    a ∈ neighboursOf edges b → b ∈ neighboursOf edges a := by
  intro hmem
  obtain ⟨edge, hedge, heq⟩ := List.mem_filterMap.mp hmem
  refine List.mem_filterMap.mpr ⟨edge, hedge, ?_⟩
  split at heq
  · next hfirst =>
    cases heq
    have hne : ¬ edge.1 = edge.2 := fun heq => h (heq.symm.trans hfirst)
    rw [if_neg hne, if_pos rfl, hfirst]
  · split at heq
    · next hsecond =>
      cases heq
      rw [if_pos rfl, hsecond]
    · cases heq

theorem keys_adjacency (host : PlanningHost) (numbers : PlanningNumbers N)
    (input : EpicConflictGraphInput N) :
    (buildEpicConflictGraph host numbers input).adjacency.keys = graphVertices host input := by
  unfold OrderedMap.keys buildEpicConflictGraph
  rw [List.map_map]
  exact List.map_id _

variable {input : EpicConflictGraphInput N}

theorem get?_adjacency (h : id ∈ graphVertices host input) :
    (buildEpicConflictGraph host numbers input).adjacency.get? id
      = some (neighboursOf (graphEdges host numbers input) id) := by
  apply OrderedMap.get?_of_mem
  · rw [keys_adjacency]
    exact nodup_graphVertices host input
  · exact List.mem_map_of_mem h

/-- Two tasks without an edge do not conflict, whichever pairs of the signal are
    looked at. -/
theorem conflict_of_notMem_neighbours {a b : JsString} {frozen : List (CoChangeEntry N)}
    (ha : a ∈ graphVertices host input) (hb : b ∈ graphVertices host input) (hne : a ≠ b)
    (hfree : a ∉ neighboursOf (graphEdges host numbers input) b)
    (hfrozen : ∀ entry ∈ frozen, ∃ cochange, input.cochange = some cochange
      ∧ entry ∈ cochange.pairs ∧ cochange.threshold = threshold) :
    (epicPairConflict (input.scopes a) (input.scopes b) frozen threshold).conflict = false := by
  -- it is enough to look at the pair in the order of the vertices
  have hordered : ∀ x y, x ∈ graphVertices host input → y ∈ graphVertices host input →
      (x, y) ∈ pairsOf (graphVertices host input) → (x, y) ∉ graphEdges host numbers input →
      (epicPairConflict (input.scopes x) (input.scopes y) frozen threshold).conflict = false := by
    intro x y hx hy hpair hedge
    rw [graphEdges, List.mem_filter, not_and] at hedge
    have hnone := hedge hpair
    rw [hasEdge, Bool.not_eq_true, Bool.or_eq_false_iff] at hnone
    obtain ⟨hoverlap, hcoupled⟩ := hnone
    simp only [(exists_scope_of_mem hx).1, (exists_scope_of_mem hy).1, Option.getD_some]
      at hoverlap
    refine conflict_eq_false_iff.mpr ⟨?_, ?_⟩
    · intro fileX hfileX fileY hfileY
      by_contra hconflict
      rw [Bool.not_eq_false] at hconflict
      rw [Bool.eq_false_iff] at hoverlap
      apply hoverlap
      refine List.any_eq_true.mpr ⟨normalizePath fileX, ?_, ?_⟩
      · exact normalizePath_mem_expandEpicScope hfileX
      · exact List.any_eq_true.mpr
          ⟨normalizePath fileY, normalizePath_mem_expandEpicScope hfileY, hconflict⟩
    · intro entry hentry hadmits
      obtain ⟨cochange, hcochange, hmem, rfl⟩ := hfrozen entry hentry
      by_contra hcouple
      rw [Bool.not_eq_false] at hcouple
      rw [hcochange, get?_cochangePartners hx, get?_cochangePartners hy, Bool.eq_false_iff]
        at hcoupled
      simp only [(exists_scope_of_mem hx).1, (exists_scope_of_mem hy).1, Option.getD_some]
        at hcoupled
      exact hcoupled (crossCoupled_iff.mpr ⟨entry, hmem, hadmits, hcouple⟩)
  rcases mem_pairsOf ha hb hne with hpair | hpair
  · refine hordered a b ha hb hpair fun hedge => hfree ?_
    exact List.mem_filterMap.mpr ⟨(a, b), hedge, by simp [hne]⟩
  · rw [conflict_comm]
    refine hordered b a hb ha hpair fun hedge => hfree ?_
    exact List.mem_filterMap.mpr ⟨(b, a), hedge, by simp⟩

omit [LinearOrder N] in
/-- A task of the preflight that is not in `exclusive` is a vertex. -/
theorem mem_graphVertices {host : PlanningHost} {input : EpicConflictGraphInput N} {id : JsString}
    {classified : ClassifiedTask} (hmem : (id, classified) ∈ (epicPreflight host input).taskMap)
    (hfree : ∀ reason, (id, reason) ∉ (epicPreflight host input).taskMap.values.filterMap
      fun classified => (exclusiveReason input classified).map fun reason =>
        (classified.task.id, reason)) :
    id ∈ graphVertices host input := by
  have hmap : IsTaskMap (epicPreflight host input).taskMap := isTaskMap_buildTaskMap _
  have hid : classified.task.id = id := hmap.own _ hmem
  have hvalue : classified ∈ (epicPreflight host input).taskMap.values := List.mem_map_of_mem hmem
  refine List.mem_map.mpr ⟨classified, List.mem_filter.mpr ⟨hvalue, ?_⟩, hid⟩
  cases hreason : exclusiveReason input classified with
  | none => rfl
  | some reason =>
    refine absurd (List.mem_filterMap.mpr ⟨classified, hvalue, ?_⟩) (hfree reason)
    rw [hreason, hid]
    rfl

end OpencodeSwarm
