/-
  OpencodeSwarm.Plan.UpdateTaskStatus

  Two concurrent calls of `updateTaskStatus` (`src/plan/manager.ts`).  A call
  reads plan.json for the settled-task guard, loads the plan, edits one task,
  and saves the edited plan under the plan lock; a failed lock acquisition is
  retried once from a fresh load.

  The save compares the plan it was given with the plan.json it finds under the
  lock, so a plan loaded before the other call saved asks for the other task's
  old status back.
-/
import OpencodeSwarm.Lib.Transition
import OpencodeSwarm.Plan.SaveSync

namespace OpencodeSwarm

open Js Transition

/-! ## One call -/

/-- A call, with the options that open the settled-task guard. -/
structure UpdateCall where
  taskId : JsString
  status : TaskStatus
  force : Bool := false
  terminalReconciliation : Bool := false

/-- The guard refuses to move a settled task without audited repair. -/
def refusesTransition (current : Plan) (call : UpdateCall) : Bool :=
  match current.tasks.find? fun task => task.id == call.taskId with
  | none => false
  | some task =>
    (task.status != .pending && task.status != .inProgress)
      && call.status != task.status
      && !(call.status == .inProgress && call.force)
      && !call.terminalReconciliation

/-- `updatedPlan`; `none` when the task is not found. -/
def updatedPlan (plan : Plan) (call : UpdateCall) : Option Plan :=
  if plan.tasks.any fun task => task.id == call.taskId then
    some (derivePhaseStatuses (plan.mapTasks fun task =>
      if task.id == call.taskId then { task with status := call.status } else task))
  else none

/-- The caller's explicit request is honoured, also a downgrade. -/
def updateSaveOptions : SaveOptions where
  preserveCompletedStatuses := false

/-- `MAX_OUTER_RETRIES`. -/
def maxOuterRetries : Nat := 1

/-! ## Two calls -/

inductive Caller where
  | first
  | second
  deriving DecidableEq, Repr

def Caller.other : Caller → Caller
  | .first => .second
  | .second => .first

/-- Where a call is. -/
inductive CallState where
  | called
  | guarded (attempt : Nat)
  | loaded (attempt : Nat) (plan : Plan)
  | locked (attempt : Nat) (plan : Plan)
  | saved
  | returned
  /-- The guard returned the current plan. -/
  | refused
  | thrown
  deriving DecidableEq, Repr

/-- The call's plan is in plan.json. -/
def CallState.committed : CallState → Bool
  | .saved | .returned => true
  | _ => false

/-- The edited plan a call holds. -/
def CallState.plan : CallState → Option Plan
  | .loaded _ plan | .locked _ plan => some plan
  | _ => none

structure UpdateWorld where
  files : ProjectFiles
  lock : Option Caller
  state : Caller → CallState

def UpdateWorld.set (world : UpdateWorld) (caller : Caller) (state : CallState) : UpdateWorld :=
  { world with state := fun other => if other = caller then state else world.state other }

/-- The steps of a call.  `startup` says that the load is the first of its
    process; `left` are the files a save that throws leaves behind. -/
inductive UpdateAction where
  | guard
  | load (startup : Bool) (clock : SaveClock)
  | acquire
  | lockFails
  | save (clock : SaveClock) (left : ProjectFiles)
  | unlock

/-- One step of one caller. -/
def updateStep (sha256 : JsString → JsString) (calls : Caller → UpdateCall) (world : UpdateWorld)
    (label : Caller × UpdateAction) : Option UpdateWorld :=
  let caller := label.1
  match label.2, world.state caller with
  | .guard, .called =>
    if world.files.planJson.any fun current => refusesTransition current (calls caller) then
      some (world.set caller .refused)
    else some (world.set caller (.guarded 0))
  | .load startup clock, .guarded attempt =>
    world.files.planJson.map fun current =>
      let loaded := loadValidPlan sha256 clock startup world.files current
      match updatedPlan loaded.2 (calls caller) with
      | some plan => { world with files := loaded.1 }.set caller (.loaded attempt plan)
      | none => { world with files := loaded.1 }.set caller .thrown
  | .acquire, .loaded attempt plan =>
    if world.lock = none then
      some ({ world with lock := some caller }.set caller (.locked attempt plan))
    else none
  | .lockFails, .loaded attempt _ =>
    -- the catch block retries from a fresh load
    if attempt < maxOuterRetries then some (world.set caller (.guarded (attempt + 1)))
    else some (world.set caller .thrown)
  | .save clock left, .locked _ plan =>
    match savePlan sha256 clock world.files plan updateSaveOptions with
    | .ok files => some ({ world with files := files }.set caller .saved)
    | .error _ => some ({ world with files := left, lock := none }.set caller .thrown)
  | .unlock, .saved => some ({ world with lock := none }.set caller .returned)
  | _, _ => none

/-- Both calls are about to start. -/
def UpdateWorld.start (files : ProjectFiles) : UpdateWorld where
  files := files
  lock := none
  state := fun _ => .called

theorem Caller.eq_or_eq_other (caller other : Caller) : other = caller ∨ other = caller.other := by
  cases caller <;> cases other <;> simp [Caller.other]

theorem Caller.other_ne (caller : Caller) : caller.other ≠ caller := by
  cases caller <;> simp [Caller.other]

@[simp] theorem UpdateWorld.state_set_self (world : UpdateWorld) (caller : Caller)
    (state : CallState) : (world.set caller state).state caller = state := if_pos rfl

theorem UpdateWorld.state_set_of_ne (world : UpdateWorld) {caller other : Caller}
    (h : other ≠ caller) (state : CallState) :
    (world.set caller state).state other = world.state other := if_neg h

/-! ## What a step can do -/

/-- The caller's own progress, plan.json and ledger untouched. -/
structure QuietStep (world world' : UpdateWorld) (caller : Caller) : Prop where
  files : world'.files = world.files
  plan : ∀ plan, (world'.state caller).plan = some plan → (world.state caller).plan = some plan
  committed : (world'.state caller).committed = (world.state caller).committed

/-- A load that found the task. -/
structure LoadStep (sha256 : JsString → JsString) (calls : Caller → UpdateCall)
    (world world' : UpdateWorld) (caller : Caller) (startup : Bool) (clock : SaveClock)
    (current plan : Plan) : Prop where
  planJson : world.files.planJson = some current
  files : world'.files = (loadValidPlan sha256 clock startup world.files current).1
  updated : updatedPlan (loadValidPlan sha256 clock startup world.files current).2 (calls caller)
    = some plan
  plan : (world'.state caller).plan = some plan
  committed : (world'.state caller).committed = false

/-- A save that returned. -/
structure SaveStep (sha256 : JsString → JsString) (world world' : UpdateWorld) (caller : Caller)
    (clock : SaveClock) (plan : Plan) : Prop where
  locked : ∃ attempt, world.state caller = .locked attempt plan
  saved : savePlan sha256 clock world.files plan updateSaveOptions = .ok world'.files
  state : world'.state caller = .saved

section Steps

variable {sha256 : JsString → JsString} {calls : Caller → UpdateCall} {world world' : UpdateWorld}
  {caller : Caller} {action : UpdateAction}

theorem updateStep_other {other : Caller}
    (h : updateStep sha256 calls world (caller, action) = some world') (hother : other ≠ caller) :
    world'.state other = world.state other := by
  dsimp only [updateStep] at h
  split at h
  · split_ifs at h <;> cases h <;> exact world.state_set_of_ne hother _
  · obtain ⟨current, -, rfl⟩ := Option.map_eq_some_iff.mp h
    split <;> exact UpdateWorld.state_set_of_ne _ hother _
  · split_ifs at h
    cases h
    exact UpdateWorld.state_set_of_ne _ hother _
  · split_ifs at h <;> cases h <;> exact world.state_set_of_ne hother _
  · split at h <;> cases h <;> exact UpdateWorld.state_set_of_ne _ hother _
  · cases h
    exact UpdateWorld.state_set_of_ne _ hother _
  · cases h

theorem updateStep_cases (h : updateStep sha256 calls world (caller, action) = some world') :
    world'.state caller = .thrown ∨ QuietStep world world' caller ∨ (∃ startup clock current plan,
        LoadStep sha256 calls world world' caller startup clock current plan)
      ∨ ∃ clock left plan, action = .save clock left
        ∧ SaveStep sha256 world world' caller clock plan := by
  dsimp only [updateStep] at h
  split at h
  · next hstate =>
    split_ifs at h <;> cases h <;> refine Or.inr (Or.inl ⟨rfl, ?_, ?_⟩) <;>
      simp [hstate, CallState.plan, CallState.committed]
  · obtain ⟨current, hcurrent, rfl⟩ := Option.map_eq_some_iff.mp h
    split
    · next plan hplan =>
      exact Or.inr (Or.inr (Or.inl ⟨_, _, current, plan, hcurrent, rfl, hplan, by simp; rfl,
        by simp; rfl⟩))
    · exact Or.inl (by simp)
  · next hstate =>
    split_ifs at h
    cases h
    refine Or.inr (Or.inl ⟨rfl, ?_, ?_⟩) <;> simp [hstate, CallState.plan, CallState.committed]
  · next hstate =>
    split_ifs at h
    · cases h
      refine Or.inr (Or.inl ⟨rfl, ?_, ?_⟩) <;> simp [hstate, CallState.plan, CallState.committed]
    · cases h
      exact Or.inl (by simp)
  · next hstate =>
    split at h
    · next files hsave =>
      cases h
      exact Or.inr (Or.inr (Or.inr ⟨_, _, _, rfl, ⟨_, hstate⟩, hsave, by simp⟩))
    · cases h
      exact Or.inl (by simp)
  · next hstate =>
    cases h
    refine Or.inr (Or.inl ⟨rfl, ?_, ?_⟩) <;> simp [hstate, CallState.plan, CallState.committed]
  · cases h

variable {label : Caller × UpdateAction}

theorem updateStep_thrown (h : updateStep sha256 calls world label = some world')
    (hthrown : world.state caller = .thrown) : world'.state caller = .thrown := by
  by_cases hsame : caller = label.1
  · subst hsame
    dsimp only [updateStep] at h
    rw [hthrown] at h
    cases haction : label.2 <;> rw [haction] at h <;> cases h
  · exact (updateStep_other h hsame).trans hthrown

/-! ## The edited plan -/

theorem statusesOf_updatedPlan {plan updated : Plan} {call : UpdateCall}
    (h : updatedPlan plan call = some updated) :
    ((plan.statusesOf call.taskId).length ≤ 1 → updated.statusesOf call.taskId = [call.status])
      ∧ ∀ id, id ≠ call.taskId → updated.statusesOf id = plan.statusesOf id := by
  unfold updatedPlan at h
  split_ifs at h with hfound
  cases h
  have hid : ∀ task : Task, (if task.id == call.taskId then { task with status := call.status }
      else task).id = task.id := by
    intro task
    split_ifs <;> rfl
  refine ⟨?_, ?_⟩
  · intro hlength
    rw [statusesOf_derivePhaseStatuses, Plan.statusesOf_mapTasks hid]
    rw [Plan.statusesOf, List.length_map] at hlength
    obtain ⟨task, htask, hsame⟩ := List.any_eq_true.mp hfound
    have hmem : task ∈ plan.tasks.filter fun task => task.id == call.taskId :=
      List.mem_filter.mpr ⟨htask, hsame⟩
    -- the filter holds this task and no other
    have hsingle : plan.tasks.filter (fun task => task.id == call.taskId) = [task] := by
      obtain ⟨before, after, hsplit⟩ := List.append_of_mem hmem
      rw [hsplit, List.length_append, List.length_cons] at hlength
      rw [hsplit, List.length_eq_zero_iff.mp (show before.length = 0 by omega),
        List.length_eq_zero_iff.mp (show after.length = 0 by omega)]
      rfl
    rw [hsingle, List.map_singleton, if_pos hsame]
  · intro id hne
    rw [statusesOf_derivePhaseStatuses, Plan.statusesOf_mapTasks hid, Plan.statusesOf]
    refine List.map_congr_left ?_
    intro task htask
    have hother : (task.id == call.taskId) = false := by
      have hsame := (List.mem_filter.mp htask).2
      rw [beq_iff_eq] at hsame
      simpa [hsame] using hne
    rw [hother]
    rfl

theorem statusesOf_validatedPlan_update (files : ProjectFiles) (plan : Plan) (id : JsString) :
    (validatedPlan files plan updateSaveOptions).statusesOf id = plan.statusesOf id := by
  rw [validatedPlan, Plan.statusesOf_normalizeCurrentPhase, statusesOf_derivePhaseStatuses]
  rfl

/-! ## The invariant -/

/-- The plan a caller saves shows the other task as plan.json does, once the
    other call is in plan.json. -/
def savesFreshPlan (calls : Caller → UpdateCall) (world : UpdateWorld)
    (label : Caller × UpdateAction) : Bool :=
  match label.2, world.state label.1, world.files.planJson with
  | .save _ _, .locked _ plan, some current =>
    !(world.state label.1.other).committed
      || plan.statusesOf (calls label.1.other).taskId
        == current.statusesOf (calls label.1.other).taskId
  | _, _, _ => true

/-- Both tasks are in sync, each carried by at most one task; a committed call's
    status is in plan.json, and a plan held by a call carries its own edit. -/
structure UpdateInv (calls : Caller → UpdateCall) (world : UpdateWorld) : Prop where
  synced : ∀ caller, SyncedAt world.files (calls caller).taskId
  single : ∀ current, world.files.planJson = some current → ∀ caller,
    (current.statusesOf (calls caller).taskId).length ≤ 1
  committed : ∀ current, world.files.planJson = some current → ∀ caller,
    (world.state caller).committed = true →
      current.statusesOf (calls caller).taskId = [(calls caller).status]
  held : ∀ caller plan, (world.state caller).plan = some plan →
    plan.statusesOf (calls caller).taskId = [(calls caller).status]
      ∧ (plan.statusesOf (calls caller.other).taskId).length ≤ 1

theorem UpdateInv.quiet (h : UpdateInv calls world) (hquiet : QuietStep world world' caller)
    (hother : world'.state caller.other = world.state caller.other) : UpdateInv calls world' where
  synced := hquiet.files ▸ h.synced
  single := hquiet.files ▸ h.single
  committed := by
    rw [hquiet.files]
    intro current hcurrent one hcommitted
    refine h.committed current hcurrent one ?_
    rcases caller.eq_or_eq_other one with rfl | rfl
    · rwa [hquiet.committed] at hcommitted
    · rwa [hother] at hcommitted
  held := by
    intro one plan hplan
    refine h.held one plan ?_
    rcases caller.eq_or_eq_other one with rfl | rfl
    · exact hquiet.plan plan hplan
    · rwa [hother] at hplan

variable {clock : SaveClock}

/-- Loading shows the plan.json it leaves, and edits one task of it. -/
theorem UpdateInv.load {startup : Bool} {current plan : Plan}
    (hne : ∀ caller : Caller, (calls caller.other).taskId ≠ (calls caller).taskId)
    (h : UpdateInv calls world)
    (hload : LoadStep sha256 calls world world' caller startup clock current plan)
    (hother : world'.state caller.other = world.state caller.other) : UpdateInv calls world' := by
  have hloaded := fun one => @SyncedAt.loadValidPlan sha256 clock world.files current
    (calls one).taskId (h.synced one) hload.planJson startup
  generalize hname : loadValidPlan sha256 clock startup world.files current = loaded at hloaded
  have hupdated := hload.updated
  have hfiles := hload.files
  rw [hname] at hupdated hfiles
  have hdisk : ∀ disk, world'.files.planJson = some disk → disk = loaded.2 := by
    intro disk hdisk
    rw [hfiles, (hloaded caller).2.1] at hdisk
    exact (Option.some.inj hdisk).symm
  obtain ⟨hedited, hkept⟩ := statusesOf_updatedPlan hupdated
  have hlength : ∀ one, (loaded.2.statusesOf (calls one).taskId).length ≤ 1 := by
    intro one
    rw [(hloaded one).2.2]
    exact h.single current hload.planJson one
  refine ⟨?_, ?_, ?_, ?_⟩
  · intro one
    rw [hfiles]
    exact (hloaded one).1
  · intro disk hdisk' one
    rw [hdisk disk hdisk']
    exact hlength one
  · intro disk hdisk' one hcommitted
    rw [hdisk disk hdisk', (hloaded one).2.2]
    refine h.committed current hload.planJson one ?_
    rcases caller.eq_or_eq_other one with rfl | rfl
    · rw [hload.committed] at hcommitted
      cases hcommitted
    · rwa [hother] at hcommitted
  · intro one held hheld
    rcases caller.eq_or_eq_other one with rfl | rfl
    · rw [hload.plan] at hheld
      cases hheld
      refine ⟨hedited (hlength one), ?_⟩
      rw [hkept _ (hne one)]
      exact hlength one.other
    · rw [hother] at hheld
      exact h.held _ held hheld

/-- A save that shows the other task as plan.json does keeps it there. -/
theorem UpdateInv.save (hsha : Function.Injective sha256) {left : ProjectFiles} {plan : Plan}
    (hid : ∀ caller, (calls caller).taskId ≠ []) (h : UpdateInv calls world)
    (hsave : SaveStep sha256 world world' caller clock plan)
    (hfresh : savesFreshPlan calls world (caller, .save clock left) = true)
    (hother : world'.state caller.other = world.state caller.other) : UpdateInv calls world' := by
  obtain ⟨attempt, hlocked⟩ := hsave.locked
  have hheld := h.held caller plan (by rw [hlocked]; rfl)
  obtain ⟨current, -, hcurrent, -, -⟩ := h.synced caller
  rw [savesFreshPlan, hlocked, hcurrent, Bool.or_eq_true, beq_iff_eq] at hfresh
  have hlength : ∀ one, (plan.statusesOf (calls one).taskId).length ≤ 1 := by
    intro one
    rcases caller.eq_or_eq_other one with rfl | rfl
    · rw [hheld.1]
      exact Nat.le_refl 1
    · exact hheld.2
  have hsingle : ∀ one status, plan.statusesOf (calls one).taskId = [status] →
      ∃ merged, world'.files.planJson = some merged
        ∧ merged.statusesOf (calls one).taskId = [status] := by
    intro one status hstatus
    refine savePlan_statusesOf (h.synced one) hsave.saved hcurrent (hid one)
      (h.single current hcurrent one) ?_
    rw [statusesOf_validatedPlan_update]
    exact hstatus
  refine ⟨fun one => (h.synced one).savePlan hsha hsave.saved, ?_, ?_, ?_⟩
  · intro disk hdisk one
    obtain ⟨recorded, -, -, replayed, -, -, hpublished, -⟩ := savePlan_eq_ok hsave.saved
    cases hdisk.symm.trans hpublished
    rw [length_statusesOf_projectionCandidate, statusesOf_validatedPlan_update]
    exact hlength one
  · intro disk hdisk one hcommitted
    have hstatus : plan.statusesOf (calls one).taskId = [(calls one).status] := by
      rcases caller.eq_or_eq_other one with rfl | rfl
      · exact hheld.1
      · rw [hother] at hcommitted
        rw [hfresh.resolve_left (by simp [hcommitted])]
        exact h.committed current hcurrent _ hcommitted
    obtain ⟨merged, hmerged, hstatuses⟩ := hsingle one _ hstatus
    cases hdisk.symm.trans hmerged
    exact hstatuses
  · intro one held hheld'
    rcases caller.eq_or_eq_other one with rfl | rfl
    · rw [hsave.state] at hheld'
      cases hheld'
    · rw [hother] at hheld'
      exact h.held _ held hheld'

theorem UpdateInv.step (hsha : Function.Injective sha256)
    (hid : ∀ caller, (calls caller).taskId ≠ [])
    (hne : ∀ caller : Caller, (calls caller.other).taskId ≠ (calls caller).taskId)
    (h : UpdateInv calls world) (hstep : updateStep sha256 calls world label = some world')
    (hfresh : savesFreshPlan calls world label = true) :
    (∃ caller, world'.state caller = .thrown) ∨ UpdateInv calls world' := by
  obtain ⟨caller, action⟩ := label
  have hother := updateStep_other hstep caller.other_ne
  rcases updateStep_cases hstep with hthrown | hquiet
      | ⟨startup, clock, current, plan, hload⟩ | ⟨clock, left, plan, rfl, hsave⟩
  · exact Or.inl ⟨caller, hthrown⟩
  · exact Or.inr (h.quiet hquiet hother)
  · exact Or.inr (h.load hne hload hother)
  · exact Or.inr (h.save hsha hid hsave hfresh hother)

/-! ## Whole runs -/

/-- Both updates stand: in plan.json and in the ledger's replay. -/
def BothUpdatesStand (calls : Caller → UpdateCall) (files : ProjectFiles) : Prop :=
  ∃ current replayed, files.planJson = some current ∧ replayFromLedger files = .ok (some replayed)
    ∧ ∀ caller, current.statusesOf (calls caller).taskId = [(calls caller).status]
      ∧ replayed.statusesOf (calls caller).taskId = [(calls caller).status]

/-- In every run whose saves are given fresh plans, two calls that return leave
    both updates standing. -/
theorem bothUpdatesStand_of_run (hsha : Function.Injective sha256) {files : ProjectFiles}
    {current : Plan} {trace : List (Caller × UpdateAction)} {world : UpdateWorld}
    (hid : ∀ caller, (calls caller).taskId ≠ [])
    (hne : (calls .first).taskId ≠ (calls .second).taskId)
    (hcurrent : files.planJson = some current)
    (hsingle : ∀ caller, (current.statusesOf (calls caller).taskId).length ≤ 1)
    (hsynced : ∀ caller, SyncedAt files (calls caller).taskId)
    (hrun : Run (Guarded (fun world label world' => updateStep sha256 calls world label = some world')
      (fun world label => savesFreshPlan calls world label = true)) (UpdateWorld.start files) trace
        world) (hreturned : ∀ caller, world.state caller = .returned) :
    BothUpdatesStand calls world.files := by
  have hne' : ∀ caller : Caller, (calls caller.other).taskId ≠ (calls caller).taskId := by
    intro caller
    cases caller
    · exact hne.symm
    · exact hne
  have hstart : UpdateInv calls (UpdateWorld.start files) := by
    refine ⟨hsynced, ?_, ?_, ?_⟩
    · intro disk hdisk
      cases hcurrent.symm.trans hdisk
      exact hsingle
    · intro disk _ caller hcommitted
      cases hcommitted
    · intro caller plan hplan
      cases hplan
  let inv (world : UpdateWorld) : Prop :=
    (∃ caller, world.state caller = .thrown) ∨ UpdateInv calls world
  have hinv : inv world := by
    have hstart : inv (UpdateWorld.start files) := Or.inr hstart
    refine hrun.preserves ?_ hstart
    rintro w label w' ⟨hstep, hfresh⟩ (⟨caller, hthrown⟩ | hinv)
    · exact Or.inl ⟨caller, updateStep_thrown hstep hthrown⟩
    · exact hinv.step hsha hid hne' hstep hfresh
  rcases hinv with ⟨caller, hthrown⟩ | hinv
  · rw [hreturned caller] at hthrown
    cases hthrown
  · obtain ⟨disk, replayed, hdisk, hreplay, -⟩ := hinv.synced .first
    refine ⟨disk, replayed, hdisk, hreplay, fun caller => ?_⟩
    obtain ⟨disk', replayed', hdisk', hreplay', hagree⟩ := hinv.synced caller
    cases hdisk.symm.trans hdisk'
    cases hreplay.symm.trans hreplay'
    have hstatus := hinv.committed disk hdisk caller (by rw [hreturned caller]; rfl)
    exact ⟨hstatus, hagree.trans hstatus⟩

end Steps

/-! ### A plan loaded before the other call saved -/

/-- Both calls complete a task. -/
def completingCalls : Caller → UpdateCall
  | .first => { taskId := js "1.1", status := .completed }
  | .second => { taskId := js "1.3", status := .completed }

/-- Every step of one call. -/
def wholeCall (caller : Caller) : List (Caller × UpdateAction) :=
  [(caller, .guard), (caller, .load false sampleClock), (caller, .acquire),
    (caller, .save sampleClock (savedFiles (threeTaskPlan .pending .pending))), (caller, .unlock)]

/-- The first call loads its plan, the second runs from start to end, and the
    first goes on: it puts the second's task back to pending. -/
theorem first_update_reverts_second :
    ¬ ∀ sha256 : JsString → JsString, Function.Injective sha256 →
      ∀ (calls : Caller → UpdateCall) (files : ProjectFiles) (current : Plan)
        (trace : List (Caller × UpdateAction)) (world : UpdateWorld),
        (∀ caller, (calls caller).taskId ≠ []) → (calls .first).taskId ≠ (calls .second).taskId →
        files.planJson = some current →
        (∀ caller, (current.statusesOf (calls caller).taskId).length ≤ 1) →
        (∀ caller, SyncedAt files (calls caller).taskId) →
        Run (fun world label world' => updateStep sha256 calls world label = some world')
          (UpdateWorld.start files) trace world → (∀ caller, world.state caller = .returned) →
        BothUpdatesStand calls world.files := by
  intro hall
  have hbased : BasedOn (savedFiles (threeTaskPlan .pending .pending))
      (threeTaskPlan .pending .pending) := basedOn_savedFiles (by decide)
  have hlost : (match ((wholeCall .first).take 2 ++ wholeCall .second
        ++ (wholeCall .first).drop 2).foldlM (updateStep id completingCalls)
          (UpdateWorld.start (savedFiles (threeTaskPlan .pending .pending))) with
      | some world =>
        decide (world.state .first = .returned) && decide (world.state .second = .returned)
          && world.files.planJson.any fun plan => plan.statusesOf (js "1.3") = [.pending]
      | none => false) = true := by decide +kernel
  split at hlost
  · next world hworld =>
    simp only [Bool.and_eq_true, decide_eq_true_eq] at hlost
    obtain ⟨⟨hfirst, hsecond⟩, hpending⟩ := hlost
    have hreturned : ∀ caller, world.state caller = .returned := by
      intro caller
      cases caller
      · exact hfirst
      · exact hsecond
    obtain ⟨current, replayed, hcurrent, -, hstatuses⟩ := hall id Function.injective_id
      completingCalls _ _ _
      world (by rintro (_ | _) <;> decide) (by decide) rfl (by rintro (_ | _) <;> decide)
      (fun _ => hbased.syncedAt rfl _) (Run.of_foldlM hworld) hreturned
    rw [hcurrent] at hpending
    have hstatus := (hstatuses .second).1
    rw [show (completingCalls .second).taskId = js "1.3" from rfl,
      show (completingCalls .second).status = .completed from rfl] at hstatus
    simp [hstatus] at hpending
  · cases hlost

/-- One call after the other. -/
theorem bothUpdatesStand_one_after_other :
    ∃ world : UpdateWorld, (∀ caller, world.state caller = .returned)
      ∧ BothUpdatesStand completingCalls world.files := by
  have hbased : BasedOn (savedFiles (threeTaskPlan .pending .pending))
      (threeTaskPlan .pending .pending) := basedOn_savedFiles (by decide)
  have hdone : (match (wholeCall .first ++ wholeCall .second).foldlM (fun world label =>
        if savesFreshPlan completingCalls world label then updateStep id completingCalls world label
        else none) (UpdateWorld.start (savedFiles (threeTaskPlan .pending .pending))) with
      | some world =>
        decide (world.state .first = .returned) && decide (world.state .second = .returned)
      | none => false) = true := by decide +kernel
  split at hdone
  · next world hworld =>
    simp only [Bool.and_eq_true, decide_eq_true_eq] at hdone
    have hreturned : ∀ caller, world.state caller = .returned := by
      intro caller
      cases caller
      · exact hdone.1
      · exact hdone.2
    refine ⟨world, hreturned, bothUpdatesStand_of_run Function.injective_id
      (by rintro (_ | _) <;> decide) (by decide) rfl (by rintro (_ | _) <;> decide)
      (fun _ => hbased.syncedAt rfl _) ((Run.of_foldlM hworld).mono ?_) hreturned⟩
    intro w label w' hstep
    split_ifs at hstep with hfresh
    exact ⟨hstep, hfresh⟩
  · cases hdone

end OpencodeSwarm
