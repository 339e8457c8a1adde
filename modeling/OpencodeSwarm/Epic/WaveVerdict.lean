/-
  OpencodeSwarm.Epic.WaveVerdict

  The verdict over an issued wave (`src/epic/gate-policy.ts`), and that the
  planner never issues a wave which it refuses: the planner looks at larger
  scopes and at more pairs than the wave freezes.
-/
import OpencodeSwarm.Epic.WaveSelect

namespace OpencodeSwarm

open Js Posix

variable {N : Type} [LinearOrder N]

/-- The `cochange` field of a wave record: the frozen pairs and the threshold of
    the signal, or nothing without a signal. -/
def EpicSelectedWave.cochange (wave : EpicSelectedWave N)
    (signal : Option (EpicCochangeSignal N)) : Option (EpicCochangeSignal N) :=
  signal.map fun signal => ⟨wave.cochangePairs, signal.threshold⟩

def epicWaveVerdictOptions (files : OrderedMap JsString (List JsString))
    (cochange : Option (EpicCochangeSignal N)) : ParallelVerdictOptions N :=
  { useCochange := cochange.isSome
    cochangePairs := cochange.map (·.pairs)
    cochangeThreshold := cochange.map (·.threshold)
    scopes := some files.get? }

def computeEpicWaveVerdict (bindings : JsString → Option (List JsString))
    (defaultThreshold : CoChangeThreshold N) (files : OrderedMap JsString (List JsString))
    (cochange : Option (EpicCochangeSignal N)) (taskIds : List JsString) :
    Option (ParallelVerdict N) :=
  computeParallelVerdict bindings defaultThreshold taskIds (epicWaveVerdictOptions files cochange)

/-! ## What a selected wave is -/

variable {host : PlanningHost}

/-- A wave comes out of the planning step over the open tasks, and every member
    has a live scope. -/
theorem selectNextEpicWave_wave {numbers : PlanningNumbers N} {input : EpicWaveSelectionInput N}
    {wave : EpicSelectedWave N} (h : selectNextEpicWave host numbers input = .wave wave) :
    ∃ batch partition choice,
      planNextEpicWave host numbers (selectionStep input batch) = (partition, some choice)
      ∧ wave.taskIds = choice.taskIds ∧ (∀ id ∈ wave.taskIds, input.liveScopes id ≠ [])
      ∧ wave.files = wave.taskIds.foldl
        (fun (files : OrderedMap JsString (List JsString)) id => files.set id (input.liveScopes id))
        [] ∧ ∀ cochange, input.cochange = some cochange → wave.cochangePairs
          = cochangePairsWithin host (OrderedMap.values wave.files).flatten cochange := by
  unfold selectNextEpicWave at h
  cases hphase : input.plan.phases.find? fun phase => phase.id = input.phaseId with
  | none =>
    rw [hphase] at h
    cases h
  | some phase =>
    rw [hphase] at h
    dsimp only at h
    generalize hbatch : openTasks phase.tasks = batch at h
    split at h
    · split at h <;> cases h
    split at h
    · cases h
    cases hplan : planNextEpicWave host numbers (selectionStep input batch) with
    | mk partition choice =>
      rw [hplan] at h
      split at h
      · split at h <;> cases h
      rename_i hchosen
      split at h
      · cases h
      rename_i hdeclared
      cases choice with
      | none => exact absurd rfl hchosen
      | some choice =>
        rw [ne_eq, not_not, List.filter_eq_nil_iff] at hdeclared
        cases h
        refine ⟨batch, partition, choice, hplan, rfl, ?_, rfl, ?_⟩
        · intro id hid hnil
          exact hdeclared id hid (by rw [hnil]; rfl)
        · intro cochange hcochange
          simp [hcochange]

theorem get?_foldl_set {ids : List JsString} {scopes : JsString → List JsString}
    {files : OrderedMap JsString (List JsString)} {id : JsString} :
    (ids.foldl (fun files id => files.set id (scopes id)) files).get? id
      = if id ∈ ids then some (scopes id) else files.get? id := by
  induction ids generalizing files with
  | nil => rfl
  | cons first rest ih =>
    rw [List.foldl_cons, ih, OrderedMap.get?_set]
    by_cases hrest : id ∈ rest
    · simp [hrest]
    · by_cases hfirst : id = first
      · simp [hfirst]
      · simp [hrest, hfirst]

theorem mem_of_mem_cochangePairsWithin {files : List JsString} {cochange : EpicCochangeSignal N}
    {entry : CoChangeEntry N} (h : entry ∈ cochangePairsWithin host files cochange) :
    entry ∈ cochange.pairs := by
  have hsorted := List.mem_of_mem_take h
  exact (List.mem_filter.mp ((sortBy_perm _ _).mem_iff.mp hsorted)).1

omit [LinearOrder N] in
theorem estimatedScope_eq {input : EpicWaveSelectionInput N} {batch : List Task} {id : JsString}
    (hlive : input.liveScopes id ≠ []) (hscope : estimatedScope input batch id ≠ []) :
    estimatedScope input batch id = input.liveScopes id := by
  unfold estimatedScope at hscope ⊢
  cases hfind : batch.reverse.find? fun task => task.id = id with
  | none =>
    rw [hfind] at hscope
    exact absurd rfl hscope
  | some task =>
    have hdeclared : (input.liveScopes id).isEmpty = false := by simpa using hlive
    simp [hdeclared]

/-! ## The verdict accepts it -/

/-- A selected wave of two or more tasks is `all_disjoint` for the gate. -/
theorem waveVerdict_allDisjoint {host : PlanningHost} {numbers : PlanningNumbers N}
    {input : EpicWaveSelectionInput N} {wave : EpicSelectedWave N}
    (bindings : JsString → Option (List JsString)) (defaultThreshold : CoChangeThreshold N)
    (hwidth : input.maxParallel ≤ 64) (hselect : selectNextEpicWave host numbers input = .wave wave)
    (hmany : 2 ≤ wave.taskIds.length) :
    (computeEpicWaveVerdict bindings defaultThreshold wave.files (wave.cochange input.cochange)
      wave.taskIds).map (·.verdict) = some .allDisjoint := by
  obtain ⟨batch, partition, choice, hplan, hids, hlive, hfiles, hpairs⟩ :=
    selectNextEpicWave_wave hselect
  rw [hids] at hmany
  obtain ⟨hnodup, hvertices, hfree, hnarrow⟩ := planNextEpicWave_many hplan hmany
  rw [← hids] at hnodup hvertices hfree hnarrow
  have hresolve : ∀ id ∈ wave.taskIds,
      resolveScope wave.files.get? id = some (input.liveScopes id) := by
    intro id hid
    rw [resolveScope, hfiles, get?_foldl_set, if_pos hid, Option.filter_eq_some_iff]
    exact ⟨rfl, by simpa using hlive id hid⟩
  have hscope : ∀ id ∈ wave.taskIds,
      (selectionStep input batch).scopes id = input.liveScopes id := by
    intro id hid
    exact estimatedScope_eq (hlive id hid) (exists_scope_of_mem (hvertices id hid)).2
  rw [computeEpicWaveVerdict, verdict_allDisjoint_iff]
  refine ⟨?_, fun id hid => ⟨_, hresolve id hid⟩, ?_⟩
  · have hmax : maxParallelVerdictTasks = 64 := rfl
    have hstep : (selectionStep input batch).maxParallel = input.maxParallel := rfl
    omega
  · intro a b hpair filesA filesB hA hB
    obtain ⟨ha, hb, hne⟩ := ne_of_mem_pairsOf hnodup hpair
    cases (hresolve a ha).symm.trans hA
    cases (hresolve b hb).symm.trans hB
    rw [← hscope a ha, ← hscope b hb]
    refine conflict_of_notMem_neighbours (hvertices a ha) (hvertices b hb) hne
      (rel_of_mem_pairsOf hfree hpair) ?_
    intro entry hentry
    -- without a signal nothing is frozen; with one, pairs and threshold are its own
    cases hcochange : input.cochange with
    | none =>
      rw [hcochange] at hentry
      cases hentry
    | some cochange =>
      rw [hcochange] at hentry
      have hpair : entry ∈ wave.cochangePairs := hentry
      rw [hpairs cochange hcochange] at hpair
      exact ⟨cochange, hcochange, mem_of_mem_cochangePairsWithin hpair, rfl⟩

/-- A pending task with a planning scope. -/
def pendingTask (id : String) (depends filesTouched : List String) : Task :=
  { plainTask id .pending with depends := depends.map js, filesTouched := filesTouched.map js }

/-- Whole numbers for the fractional signals. -/
def wholeNumbers : PlanningNumbers ℤ := ⟨0, (· + ·), 1, fun a b => a / b, id⟩

/-- Three tasks, two of them ready, and a pair between one of them and a file
    outside the wave. -/
def threeTasks : EpicWaveSelectionInput ℤ where
  directory := js "/repo"
  plan := onePhasePlan [pendingTask "1.1" [] ["src/a.ts"], pendingTask "1.2" [] ["src/b.ts"],
    pendingTask "1.3" ["1.1"] ["src/c.ts"]]
  phaseId := 1
  liveScopes := fun id => if id = js "1.1" then [js "src/a.ts"] else [js "src/b.ts"]
  maxParallel := 4
  leanConfig := ⟨true⟩
  isCommitted := fun _ => true
  hotFiles := []
  coWrites := none
  cochange := some ⟨[⟨js "src/a.ts", js "src/c.ts", 5, 4⟩], ⟨3, 2⟩⟩
  densityThreshold := 0
  waveHistory := []

/-- The wave of a selection. -/
def EpicWaveSelection.wave? (selection : EpicWaveSelection N) : Option (EpicSelectedWave N) :=
  match selection with
  | .wave selected => some selected
  | _ => Option.none

omit [LinearOrder N] in
theorem wave_of_wave? {selection : EpicWaveSelection N} {wave : EpicSelectedWave N}
    (h : selection.wave? = some wave) : selection = .wave wave := by
  cases selection with
  | wave selected => exact congrArg EpicWaveSelection.wave (Option.some.inj h)
  | _ => cases h

theorem waveVerdict_threeTasks :
    ∃ wave, selectNextEpicWave codeUnitHost wholeNumbers threeTasks = .wave wave
      ∧ wave.taskIds = [js "1.1", js "1.2"]
      ∧ (computeEpicWaveVerdict (fun _ => none) ⟨9, 9⟩ wave.files (wave.cochange threeTasks.cochange)
        wave.taskIds).map (·.verdict) = some .allDisjoint := by
  have hids : (selectNextEpicWave codeUnitHost wholeNumbers threeTasks).wave?.map (·.taskIds)
      = some [js "1.1", js "1.2"] := by
    decide +kernel
  obtain ⟨wave, hwave, htaskIds⟩ := Option.map_eq_some_iff.mp hids
  have hselect := wave_of_wave? hwave
  refine ⟨wave, hselect, htaskIds, waveVerdict_allDisjoint _ _ (by decide) hselect ?_⟩
  rw [htaskIds]
  decide

end OpencodeSwarm
