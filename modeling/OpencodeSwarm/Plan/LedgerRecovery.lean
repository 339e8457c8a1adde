/-
  OpencodeSwarm.Plan.LedgerRecovery

  What the ledger alone recovers of a saved plan.  A save appends a snapshot when
  its plan differs, in what the ledger hash covers, from the plan with the
  recorded removals and statuses; the fields the hash leaves out are recovered
  only when a snapshot is taken for another reason, or when nothing of them has
  changed.
-/
import OpencodeSwarm.Lib.Transition
import OpencodeSwarm.Plan.SaveSync

namespace OpencodeSwarm

open Js Transition

/-- The ledger replays, without plan.json, to the plan in plan.json. -/
def Recoverable (files : ProjectFiles) : Prop :=
  ∃ current, files.planJson = some current
    ∧ replayFromLedger { files with planJson := none } = .ok (some current)

/-! ## What the ledger hash leaves out -/

structure UnhashedTask where
  depends : List JsString
  filesTouched : List JsString
  frRefs : Option (List JsString)
  deriving DecidableEq

structure UnhashedPhase where
  type : Option PhaseType
  requiredAgents : Option (List JsString)
  tasks : List UnhashedTask
  deriving DecidableEq

structure UnhashedPlan where
  specMtime : Option JsString
  specHash : Option JsString
  phases : List UnhashedPhase
  deriving DecidableEq

/-- The lists that are hashed sorted keep their order here. -/
def Task.unhashed (task : Task) : UnhashedTask where
  depends := task.depends
  filesTouched := task.filesTouched
  frRefs := task.frRefs

def Phase.unhashed (phase : Phase) : UnhashedPhase where
  type := phase.type
  requiredAgents := phase.requiredAgents
  tasks := phase.tasks.map Task.unhashed

def Plan.unhashed (plan : Plan) : UnhashedPlan where
  specMtime := plan.specMtime
  specHash := plan.specHash
  phases := plan.phases.map Phase.unhashed

theorem Task.eq_iff {a b : Task} :
    a = b ↔ a.hashed true = b.hashed true ∧ a.unhashed = b.unhashed := by
  constructor
  · rintro rfl
    exact ⟨rfl, rfl⟩
  · rintro ⟨hhashed, hunhashed⟩
    cases a
    cases b
    simp only [Task.hashed, Task.unhashed, HashedTask.mk.injEq, UnhashedTask.mk.injEq, if_pos,
      Option.some.injEq] at hhashed hunhashed
    obtain ⟨rfl, rfl, rfl, rfl, rfl, -, rfl, -, rfl, rfl, rfl, rfl⟩ := hhashed
    obtain ⟨rfl, rfl, rfl⟩ := hunhashed
    rfl

theorem list_eq_of_maps {α β γ : Type*} {f : α → β} {g : α → γ}
    (h : ∀ a b, f a = f b → g a = g b → a = b) {xs ys : List α} (hf : xs.map f = ys.map f)
    (hg : xs.map g = ys.map g) : xs = ys := by
  induction xs generalizing ys with
  | nil => exact (List.map_eq_nil_iff.mp hf.symm).symm
  | cons x xs ih =>
    cases ys with
    | nil => cases hf
    | cons y ys =>
      rw [List.map_cons, List.map_cons, List.cons.injEq] at hf hg
      rw [h x y hf.1 hg.1, ih hf.2 hg.2]

theorem Phase.eq_iff {a b : Phase} :
    a = b ↔ a.hashed true = b.hashed true ∧ a.unhashed = b.unhashed := by
  constructor
  · rintro rfl
    exact ⟨rfl, rfl⟩
  · rintro ⟨hhashed, hunhashed⟩
    cases a
    cases b
    simp only [Phase.hashed, Phase.unhashed, HashedPhase.mk.injEq, UnhashedPhase.mk.injEq, if_pos,
      Option.some.injEq] at hhashed hunhashed
    obtain ⟨rfl, rfl, rfl, -, htasks⟩ := hhashed
    obtain ⟨rfl, rfl, htasks'⟩ := hunhashed
    have hsame := list_eq_of_maps (fun _ _ hf hg => Task.eq_iff.mpr ⟨hf, hg⟩) htasks htasks'
    rw [hsame]

variable {p q : Plan}

theorem Plan.eq_iff : p = q ↔ p.hashed true = q.hashed true ∧ p.unhashed = q.unhashed := by
  constructor
  · rintro rfl
    exact ⟨rfl, rfl⟩
  · rintro ⟨hhashed, hunhashed⟩
    cases p
    cases q
    simp only [Plan.hashed, Plan.unhashed, HashedPlan.mk.injEq, UnhashedPlan.mk.injEq]
      at hhashed hunhashed
    obtain ⟨rfl, rfl, rfl, rfl, rfl, hphases⟩ := hhashed
    obtain ⟨rfl, rfl, hphases'⟩ := hunhashed
    have hsame := list_eq_of_maps (fun _ _ hf hg => Phase.eq_iff.mpr ⟨hf, hg⟩) hphases hphases'
    rw [hsame]

/-- Of one ledger hash, plans are equal when they agree in what it leaves out. -/
theorem eq_iff_unhashed_of_hash {sha256 : JsString → JsString} (hsha : Function.Injective sha256)
    (h : computePlanLedgerHash sha256 p = computePlanLedgerHash sha256 q) :
    p = q ↔ p.unhashed = q.unhashed := by
  rw [Plan.eq_iff, (computePlanLedgerHash_eq_iff hsha).mp h]
  exact and_iff_right rfl

/-! ## What a save records -/

/-- No task id is empty or occurs twice. -/
def Plan.distinctIds (plan : Plan) : Prop :=
  (plan.tasks.map Task.id).Nodup ∧ [] ∉ plan.tasks.map Task.id

instance (plan : Plan) : Decidable plan.distinctIds :=
  inferInstanceAs (Decidable ((plan.tasks.map Task.id).Nodup ∧ [] ∉ plan.tasks.map Task.id))

variable {plan : Plan}

theorem Plan.distinctIds.statusesOf (h : plan.distinctIds) {task : Task}
    (htask : task ∈ plan.tasks) :
    plan.statusesOf task.id = [task.status] := by
  have hfilter : plan.tasks.filter (fun other => other.id == task.id) = [task] := by
    have hnodup := h.1
    generalize plan.tasks = tasks at htask hnodup
    induction tasks with
    | nil => cases htask
    | cons first rest ih =>
      rw [List.map_cons, List.nodup_cons] at hnodup
      obtain ⟨hfirst, hrest⟩ := hnodup
      rcases List.mem_cons.mp htask with rfl | htask
      · have hnone : rest.filter (fun other => other.id == task.id) = [] := by
          rw [List.filter_eq_nil_iff]
          intro other hother hid
          rw [beq_iff_eq] at hid
          exact hfirst (hid ▸ List.mem_map_of_mem hother)
        rw [List.filter_cons_of_pos (by simp), hnone]
      · have hne : ¬ (first.id == task.id) = true := by
          rw [beq_iff_eq]
          intro hid
          exact hfirst (hid ▸ List.mem_map_of_mem htask)
        rw [List.filter_cons, if_neg hne, ih htask hrest]
  rw [Plan.statusesOf, hfilter]
  rfl

theorem Plan.distinctIds.length_statusesOf (h : plan.distinctIds) (id : JsString) :
    (plan.statusesOf id).length ≤ 1 := by
  by_cases hid : plan.statusesOf id = []
  · simp [hid]
  · obtain ⟨task, htask, rfl⟩ := Plan.statusesOf_ne_nil_iff.mp hid
    rw [h.statusesOf htask]
    exact le_rfl

/-- The removals and statuses a save records between plan.json and its plan,
    made in `base`. -/
def recordedDifference (current validated base : Plan) : Plan :=
  ((missingTaskIds current validated).map (removalInput current validated ⟨[], [], []⟩)
    ++ statusInputs current validated).foldl LedgerEventInput.record base

theorem foldl_record_eq_recordedDifference (current validated base : Plan)
    (ack : AcknowledgedRemovals) :
    ((missingTaskIds current validated).map (removalInput current validated ack)
        ++ statusInputs current validated).foldl LedgerEventInput.record base
      = recordedDifference current validated base := by
  rw [recordedDifference, List.foldl_append, List.foldl_append, List.foldl_map, List.foldl_map]
  rfl

theorem Plan.setTaskStatus_eq_self {id : JsString} {status : TaskStatus}
    (h : ∀ task ∈ plan.tasks, task.id = id → task.status = status) :
    plan.setTaskStatus id status = plan := by
  have hphases : (plan.setTaskStatus id status).phases = plan.phases := by
    refine List.modifyFirst_eq_self fun phase hphase _ => ?_
    have htasks : (phase.tasks.modifyFirst (fun task => task.id == id)
        fun task => { task with status := status }) = phase.tasks := by
      refine List.modifyFirst_eq_self fun task htask hid => ?_
      rw [← h task (List.mem_flatMap.mpr ⟨phase, hphase, htask⟩) (by simpa using hid)]
    rw [htasks]
  exact congrArg (fun phases => { plan with phases := phases }) hphases

theorem Plan.removeTask_eq_self {id : JsString} (h : plan.statusesOf id = []) :
    plan.removeTask id = plan := by
  have hphases : (plan.removeTask id).phases = plan.phases := by
    refine List.modifyFirst_eq_self fun phase hphase hany => ?_
    obtain ⟨task, htask, hid⟩ := List.any_eq_true.mp hany
    refine absurd h (Plan.statusesOf_ne_nil_iff.mpr ⟨task, ?_, by simpa using hid⟩)
    exact List.mem_flatMap.mpr ⟨phase, hphase, htask⟩
  exact congrArg (fun phases => { plan with phases := phases }) hphases

variable {validated : Plan}

theorem LedgerEventInput.Describes.record_self (hdistinct : validated.distinctIds)
    {input : LedgerEventInput} (h : input.Describes validated) :
    input.record validated = validated := by
  unfold LedgerEventInput.record
  cases h with
  | removal id htype hid hmissing =>
    rw [htype, hid]
    cases htruthy : truthyString (some id) with
    | none => rfl
    | some taskId =>
      cases truthyString_eq_some htruthy
      exact Plan.removeTask_eq_self hmissing
  | status task htype hid hstatus hmem =>
    rw [htype, hid, hstatus]
    cases htruthy : truthyString (some task.id) with
    | none => rfl
    | some taskId =>
      cases truthyString_eq_some htruthy
      refine Plan.setTaskStatus_eq_self fun other hother hsame => ?_
      have hstatuses := hdistinct.statusesOf hmem
      have hsome : other.status ∈ validated.statusesOf task.id :=
        Plan.mem_statusesOf.mpr ⟨other, hother, hsame, rfl⟩
      rwa [hstatuses, List.mem_singleton] at hsome

variable {inputs : List LedgerEventInput}

theorem foldl_record_self (hdistinct : validated.distinctIds)
    (h : ∀ input ∈ inputs, input.Describes validated) :
    inputs.foldl LedgerEventInput.record validated = validated := by
  induction inputs with
  | nil => rfl
  | cons input inputs ih =>
    obtain ⟨hinput, hinputs⟩ := List.forall_mem_cons.mp h
    rw [List.foldl_cons, hinput.record_self hdistinct, ih hinputs]

/-! ## Which ledger it is recorded in -/

/-- The save writes a root of its own, or a recovery snapshot. -/
def basesLedger (files : ProjectFiles) (validated : Plan) (options : SaveOptions) : Bool :=
  files.ledger.all (fun events =>
    events.head?.any fun first => first.planId != derivePlanId validated)
  || options.staleProjectionReconcile.isSome

/-- The ledger replays to `base` whatever plan.json holds. -/
def CarriesPlan (files : ProjectFiles) (planId : JsString) (base : Plan) : Prop :=
  ∀ planJson, ReplaysTo ⟨files.ledger, planJson⟩ planId base

variable {files : ProjectFiles}

theorem carriesPlan_of_replay {current : Plan}
    (h : replayFromLedger { files with planJson := none } = .ok (some current)) :
    ∃ first ∈ files.events.head?, ∃ base, CarriesPlan files first.planId base
      ∧ reconstructPlanFromEventsUnnormalized none files.events = .ok (some base)
      ∧ current = normalizeCurrentPhase base := by
  obtain ⟨first, hfirst, base, hbase, hcurrent⟩ := replayFromLedger_eq_ok h
  have hreplay : reconstructPlanFromEventsUnnormalized none files.events = .ok (some base) :=
    hbase.replay
  refine ⟨first, hfirst, base, fun planJson => ⟨hbase.nonempty, hbase.identity, ?_⟩, hreplay,
    hcurrent⟩
  have hhead : files.events.head? = some first := hfirst
  rw [reconstructPlanFromEventsUnnormalized_eq hhead rfl] at hreplay
  show reconstructPlanFromEventsUnnormalized planJson files.events = _
  rw [reconstructPlanFromEventsUnnormalized_eq hhead rfl]
  split at hreplay
  · exact hreplay
  · cases hreplay

theorem CarriesPlan.append {sha256 : JsString → JsString} {clock : SaveClock}
    {planId planHashAfter : JsString} {base : Plan} (h : CarriesPlan files planId base)
    (hplanId : ∀ input ∈ inputs, input.planId = planId)
    (hchanges : ∀ input ∈ inputs, input.IsChange) : CarriesPlan (files.writeAll
        ((appendedEvents sha256 clock files planHashAfter inputs).map DurableWrite.append))
      planId (inputs.foldl LedgerEventInput.record base) := by
  intro planJson
  have hevents := (files.writeAll_map_append
    (appendedEvents sha256 clock files planHashAfter inputs)).1
  have hnonempty : files.events ≠ [] := (h planJson).nonempty
  have hidentity : files.events.head?.map LedgerEvent.planId = some planId := (h planJson).identity
  have hreplay : reconstructPlanFromEventsUnnormalized planJson files.events = .ok (some base) :=
    (h planJson).replay
  refine ⟨?_, ?_, ?_⟩
  · show (files.writeAll _).events ≠ []
    rw [hevents]
    exact List.append_ne_nil_of_left_ne_nil hnonempty _
  · show (files.writeAll _).events.head?.map LedgerEvent.planId = some planId
    rw [hevents, List.head?_append_of_ne_nil _ hnonempty]
    exact hidentity
  · show reconstructPlanFromEventsUnnormalized planJson (files.writeAll _).events = _
    rw [hevents]
    exact reconstruct_appendedEvents hnonempty hidentity hplanId hchanges hreplay

section Save

variable {sha256 : JsString → JsString} {clock : SaveClock} {plan : Plan} {options : SaveOptions}
  {files : ProjectFiles} {validated : Plan} {reconciles : List DurableWrite}

/-- A root or a recovery snapshot bases the ledger on the validated plan. -/
theorem basedOn_of_basesLedger (hvalidated : validated.wellFormed = true)
    (hbases : basesLedger files validated options = true)
    (h : reconcileWrites sha256 clock (files.writeAll (rootWrites sha256 clock files validated)) plan
      validated options = .ok reconciles) :
    BasedOn ((files.writeAll (rootWrites sha256 clock files validated)).writeAll reconciles)
      validated := by
  rcases reconcileWrites_eq_ok hvalidated h with rfl | ⟨event, rfl, -, hbased⟩
  · rw [basesLedger, Bool.or_eq_true] at hbases
    rcases hbases with hroot | hreconcile
    · unfold rootWrites
      split
      · exact basedOn_root hvalidated _ _
      rename_i events hledger
      rw [hledger, Option.all_some] at hroot
      rw [if_pos hroot]
      exact basedOn_root hvalidated _ _
    · -- a recovery snapshot that was asked for is written
      obtain ⟨expected, hexpected⟩ := Option.isSome_iff_exists.mp hreconcile
      rw [reconcileWrites, hexpected] at h
      dsimp only at h
      split at h
      · cases h
      split at h
      · cases h
      · split at h <;> cases h
  · exact hbased

theorem prepared_of_not_basesLedger (hbases : basesLedger files validated options = false)
    (h : reconcileWrites sha256 clock (files.writeAll (rootWrites sha256 clock files validated)) plan
      validated options = .ok reconciles) :
    (files.writeAll (rootWrites sha256 clock files validated)).writeAll reconciles = files := by
  rw [basesLedger, Bool.or_eq_false_iff] at hbases
  obtain ⟨hroot, hreconcile⟩ := hbases
  have hnone : options.staleProjectionReconcile = none := by
    rwa [← Option.not_isSome_iff_eq_none, Bool.not_eq_true]
  have hreconciles : reconciles = [] := by
    rw [reconcileWrites, hnone] at h
    cases h
    rfl
  have hroots : rootWrites sha256 clock files validated = [] := by
    unfold rootWrites
    split
    · rename_i hledger
      rw [hledger] at hroot
      cases hroot
    · rename_i events hledger
      rw [hledger, Option.all_some] at hroot
      rw [if_neg (by simp [hroot])]
  rw [hreconciles, hroots]
  rfl

theorem prepared_spec (hvalidated : validated.wellFormed = true)
    (h : reconcileWrites sha256 clock (files.writeAll (rootWrites sha256 clock files validated)) plan
      validated options = .ok reconciles) :
    let prepared := (files.writeAll (rootWrites sha256 clock files validated)).writeAll reconciles
    if basesLedger files validated options then BasedOn prepared validated
      else prepared = files := by
  cases hbases : basesLedger files validated options with
  | true => exact basedOn_of_basesLedger hvalidated hbases h
  | false => exact prepared_of_not_basesLedger hbases h

variable {files' prepared appended : ProjectFiles} {inputs : List LedgerEventInput}
  {replayed : Option Plan} {base : Plan} {planId : JsString}

/-- The ledger a difference is recorded in replays to the validated plan where the
    save bases it, and else to what it replayed to. -/
theorem SaveTrace.replaysTo_start {planJson : Option Plan}
    (h : SaveTrace sha256 clock files plan options prepared inputs appended replayed)
    (hprepared : if basesLedger files (validatedPlan files plan options) options then
      BasedOn prepared (validatedPlan files plan options) else prepared = files)
    (hbase : ReplaysTo ⟨files.ledger, planJson⟩ planId base) :
    ReplaysTo ⟨prepared.ledger, planJson⟩ (derivePlanId (validatedPlan files plan options))
      (if basesLedger files (validatedPlan files plan options) options then
        validatedPlan files plan options else base) := by
  split_ifs at hprepared ⊢
  · exact hprepared planJson
  · subst hprepared
    have hnonempty : prepared.events ≠ [] := hbase.nonempty
    obtain ⟨first, rest, hevents⟩ := List.exists_cons_of_ne_nil hnonempty
    have hidentity : prepared.events.head?.map LedgerEvent.planId = some planId := hbase.identity
    rw [hevents] at hidentity
    rw [← h.prepares.identity first (by rw [hevents]; rfl), Option.some.inj hidentity]
    exact hbase

/-- `savePlan_eq_ok`, with the ledger the difference is recorded in. -/
theorem savePlan_prepared (h : savePlan sha256 clock files plan options = .ok files') :
    ∃ recorded prepared inputs replayed,
      SaveTrace sha256 clock files plan options prepared inputs (files.writeAll recorded) replayed
      ∧ (if basesLedger files (validatedPlan files plan options) options then
          BasedOn prepared (validatedPlan files plan options) else prepared = files)
      ∧ files'.planJson = some (projectionCandidate (files.writeAll recorded)
          (validatedPlan files plan options) replayed)
      ∧ if snapshotTaken sha256 clock (files.writeAll recorded) (validatedPlan files plan options)
          options replayed then
          EndsWithSnapshot sha256 files' (projectionCandidate (files.writeAll recorded)
            (validatedPlan files plan options) replayed)
        else files'.events = (files.writeAll recorded).events := by
  obtain ⟨recorded, _, _, replayed, hrecorded, hsome, hsaved⟩ := savePlan_eq_ok h
  obtain ⟨reconciles, inputs, hreconciles, hinputs, hparts⟩ := ledgerWrites_eq_ok hrecorded
  have htrace : SaveTrace sha256 clock files plan options _ inputs (files.writeAll recorded)
      replayed :=
    saveTrace_of_parts hsome.wellFormed rfl hreconciles hinputs
      (by rw [hparts, ProjectFiles.writeAll_append, ProjectFiles.writeAll_append]) hsome.replays
  exact ⟨recorded, _, inputs, replayed, htrace, prepared_spec hsome.wellFormed hreconciles, hsaved⟩

/-! ## One save -/

/-- The ledger ends, with the recorded difference, at a periodic snapshot. -/
def periodicSnapshotDue (clock : SaveClock) (files : ProjectFiles) (current validated : Plan)
    (options : SaveOptions) : Bool :=
  let seq := latestSeq files.events + ((missingTaskIds current validated).length
    + (statusInputs current validated).length)
  !options.preCommitCheck && 0 < seq && seq % snapshotInterval == 0 && !clock.intervalSnapshotFails

/-- The ledger keeps all of the saved plan: it is based on the plan, a periodic
    snapshot is due, or the plan differs from the recorded one in a hashed field,
    or it does not differ in the others. -/
def LedgerKeeps (sha256 : JsString → JsString) (clock : SaveClock) (files : ProjectFiles)
    (validated : Plan) (options : SaveOptions) (current base : Plan) : Prop :=
  basesLedger files validated options = true
    ∨ periodicSnapshotDue clock files current validated options = true
    ∨ computePlanLedgerHash sha256
        (normalizeCurrentPhase (recordedDifference current validated base))
      ≠ computePlanLedgerHash sha256 validated
    ∨ (recordedDifference current validated base).unhashed = validated.unhashed

instance (sha256 : JsString → JsString) (clock : SaveClock) (files : ProjectFiles)
    (validated : Plan) (options : SaveOptions) (current base : Plan) :
    Decidable (LedgerKeeps sha256 clock files validated options current base) := by
  unfold LedgerKeeps
  infer_instance

variable {current base : Plan}

theorem SaveTrace.candidate_eq {prepared appended : ProjectFiles} {inputs : List LedgerEventInput}
    {replayed : Option Plan}
    (h : SaveTrace sha256 clock files plan options prepared inputs appended replayed)
    (hcurrent : prepared.planJson = some current) (hdistinct : current.distinctIds)
    (hdistinct' : (validatedPlan files plan options).distinctIds)
    (hbase : base = validatedPlan files plan options ∨ base.phases = current.phases)
    (hreplayed : replayed
      = some (normalizeCurrentPhase (inputs.foldl LedgerEventInput.record base)))
    (ledger : ProjectFiles) : projectionCandidate ledger (validatedPlan files plan options) replayed
      = validatedPlan files plan options := by
  refine projectionCandidate_eq_self (derivePhaseStatuses_validatedPlan _ _ _) ?_
  intro final hfinal task htask
  rw [hreplayed] at hfinal
  cases hfinal
  have hid : task.id ≠ [] := by
    intro hid
    exact hdistinct'.2 (hid ▸ List.mem_map_of_mem htask)
  refine mergedStatus_of_single ?_
  refine h.statusesOf_recorded hcurrent (hdistinct'.statusesOf htask)
    (hdistinct.length_statusesOf _) ?_
  rcases hbase with rfl | hphases
  · exact Or.inl rfl
  · have htasks : base.tasks = current.tasks := by
      rw [Plan.tasks, hphases, Plan.tasks]
    exact Or.inr ⟨hid, by rw [Plan.statusesOf, htasks, Plan.statusesOf]⟩

/-- A saved ledger gives its plan back where a snapshot carries it, and else where
    the recorded difference comes to it. -/
theorem SaveTrace.recoverable_iff {start : Plan}
    (h : SaveTrace sha256 clock files plan options prepared inputs appended replayed)
    (hplan : files'.planJson = some (validatedPlan files plan options))
    (hsaved : if snapshotTaken sha256 clock appended (validatedPlan files plan options) options
        replayed then EndsWithSnapshot sha256 files' (validatedPlan files plan options)
      else files'.events = appended.events)
    (hstart : CarriesPlan prepared (derivePlanId (validatedPlan files plan options)) start) :
    Recoverable files' ↔ snapshotTaken sha256 clock appended (validatedPlan files plan options)
        options replayed = true ∨ normalizeCurrentPhase
      (inputs.foldl LedgerEventInput.record start) = validatedPlan files plan options := by
  split_ifs at hsaved with htaken
  · refine iff_of_true ⟨_, hplan, ?_⟩ (Or.inl htaken)
    rw [(hsaved.based none).replayFromLedger, validatedPlan_cursorNormalized]
  rw [or_iff_right htaken]
  have hcarried : CarriesPlan appended (derivePlanId (validatedPlan files plan options))
      (inputs.foldl LedgerEventInput.record start) := by
    rw [h.appends]
    exact hstart.append (fun input hinput => (mem_diffInputs h.differs hinput).1)
      fun input hinput => (mem_diffInputs h.differs hinput).2.isChange
  have hsame : replayFromLedger { files' with planJson := none }
      = replayFromLedger ⟨appended.ledger, none⟩ := replayFromLedger_congr hsaved rfl
  have hrecovers := hsame.trans (hcarried none).replayFromLedger
  constructor
  · rintro ⟨saved, hsavedPlan, hreplay⟩
    cases hplan.symm.trans hsavedPlan
    exact Option.some.inj (Except.ok.inj (hrecovers.symm.trans hreplay))
  · intro hrecorded
    exact ⟨_, hplan, hrecovers.trans (by rw [hrecorded])⟩

/-- Where the projection is the validated plan, a snapshot is taken periodically, or
    because the ledger replays to another hash. -/
theorem SaveTrace.snapshotTaken_iff {current final : Plan}
    (h : SaveTrace sha256 clock files plan options prepared inputs appended replayed)
    (hcurrent : prepared.planJson = some current) (hreplayed : replayed = some final)
    (hcandidate : projectionCandidate appended (validatedPlan files plan options) replayed
      = validatedPlan files plan options) :
    snapshotTaken sha256 clock appended (validatedPlan files plan options) options replayed = true
      ↔ computePlanLedgerHash sha256 final
          ≠ computePlanLedgerHash sha256 (validatedPlan files plan options)
        ∨ periodicSnapshotDue clock prepared current (validatedPlan files plan options) options
          = true := by
  obtain ⟨ack, hinputs⟩ := diffInputs_of_planJson h.differs hcurrent
  rw [snapshotTaken, hcandidate, hreplayed, Bool.or_eq_true, intervalSnapshotDue, h.events_appended,
    latestSeq_appendedEvents, hinputs, List.length_append, List.length_map]
  exact or_congr decide_eq_true_iff Iff.rfl

/-- Over distinct ids a save leaves a ledger that recovers its plan exactly when
    the ledger keeps it. -/
theorem recoverable_savePlan_iff (hsha : Function.Injective sha256) {current base : Plan}
    {planId : JsString} (hcurrent : files.planJson = some current)
    (hcarries : CarriesPlan files planId base) (hbase : current = normalizeCurrentPhase base)
    (hdistinct : current.distinctIds) (hdistinct' : (validatedPlan files plan options).distinctIds)
    (hsave : savePlan sha256 clock files plan options = .ok files') : Recoverable files'
      ↔ LedgerKeeps sha256 clock files (validatedPlan files plan options) options current base := by
  obtain ⟨recorded, prepared, inputs, replayed, htrace, hprepared, hplan, hsaved⟩ :=
    savePlan_prepared hsave
  have hcurrent' : prepared.planJson = some current := htrace.prepares.planJson.trans hcurrent
  obtain ⟨ack, hinputs⟩ := diffInputs_of_planJson htrace.differs hcurrent'
  have hcarried := fun planJson => htrace.replaysTo_start hprepared (hcarries planJson)
  generalize hstart : (if basesLedger files (validatedPlan files plan options) options then
    validatedPlan files plan options else base) = start at hcarried
  have hphases : start = validatedPlan files plan options ∨ start.phases = current.phases := by
    rw [← hstart]
    split_ifs
    · exact Or.inl rfl
    · rw [hbase]
      exact Or.inr rfl
  have hreplayed := htrace.replayed_eq (hcarried prepared.planJson)
  have hcandidate := htrace.candidate_eq hcurrent' hdistinct hdistinct' hphases hreplayed
    (files.writeAll recorded)
  rw [hcandidate] at hplan hsaved
  rw [htrace.recoverable_iff hplan hsaved hcarried,
    htrace.snapshotTaken_iff hcurrent' hreplayed hcandidate]
  by_cases hbases : basesLedger files (validatedPlan files plan options) options = true
  · refine iff_of_true (Or.inr ?_) (Or.inl hbases)
    rw [← hstart, if_pos hbases, foldl_record_self hdistinct' fun input hinput =>
      (mem_diffInputs htrace.differs hinput).2, validatedPlan_cursorNormalized]
  · rw [if_neg hbases] at hstart hprepared
    subst hstart hprepared
    rw [hinputs, foldl_record_eq_recordedDifference, LedgerKeeps, or_iff_right hbases]
    by_cases hhash : computePlanLedgerHash sha256
          (normalizeCurrentPhase (recordedDifference current (validatedPlan prepared plan options) base))
        = computePlanLedgerHash sha256 (validatedPlan prepared plan options)
    · -- without a snapshot of either kind the unhashed fields decide
      rw [eq_iff_unhashed_of_hash hsha hhash, or_iff_right (not_not.mpr hhash),
        or_iff_right (not_not.mpr hhash)]
      rfl
    · exact iff_of_true (Or.inl (Or.inl hhash)) (Or.inr (Or.inl hhash))

theorem recoverable_first_savePlan
    (hdistinct : (validatedPlan ⟨none, none⟩ plan options).distinctIds)
    (hsave : savePlan sha256 clock ⟨none, none⟩ plan options = .ok files') :
    Recoverable files' := by
  obtain ⟨recorded, prepared, inputs, replayed, htrace, hprepared, hplan, hsaved⟩ :=
    savePlan_prepared hsave
  have hbased : BasedOn prepared (validatedPlan ⟨none, none⟩ plan options) := by
    rwa [if_pos (show basesLedger ⟨none, none⟩ _ options = true from rfl)] at hprepared
  have hinputs : inputs = [] := by
    rcases diffInputs_eq_ok htrace.differs with ⟨-, hinputs⟩ | ⟨current, -, hcurrent, -⟩
    · exact hinputs
    · rw [htrace.prepares.planJson] at hcurrent
      cases hcurrent
  have hreplayed := htrace.replayed_eq hbased.replaysTo
  have hcandidate : projectionCandidate ((⟨none, none⟩ : ProjectFiles).writeAll recorded)
      (validatedPlan ⟨none, none⟩ plan options) replayed
        = validatedPlan ⟨none, none⟩ plan options := by
    refine projectionCandidate_eq_self (derivePhaseStatuses_validatedPlan _ _ _) ?_
    intro final hfinal task htask
    rw [hreplayed, hinputs] at hfinal
    cases hfinal
    exact mergedStatus_of_single (Or.inr (hdistinct.statusesOf htask))
  rw [hcandidate] at hplan hsaved
  rw [htrace.recoverable_iff hplan hsaved hbased, hinputs]
  exact Or.inr (validatedPlan_cursorNormalized _ _ _)

end Save

/-! ## Runs of saves -/

/-- One call of `savePlan`, with what the environment contributes. -/
structure SaveCall where
  clock : SaveClock
  plan : Plan
  options : SaveOptions

/-- A save that returns. -/
def Saves (sha256 : JsString → JsString) (files : ProjectFiles) (call : SaveCall)
    (files' : ProjectFiles) : Prop :=
  savePlan sha256 call.clock files call.plan call.options = .ok files'

/-- Task ids are distinct, and the ledger keeps the plan that is saved. -/
def SaveKept (sha256 : JsString → JsString) (files : ProjectFiles) (call : SaveCall) : Prop :=
  (validatedPlan files call.plan call.options).distinctIds
    ∧ ∀ current base, files.planJson = some current →
      reconstructPlanFromEventsUnnormalized none files.events = .ok (some base) →
        current.distinctIds
          ∧ LedgerKeeps sha256 call.clock files (validatedPlan files call.plan call.options)
            call.options current base

theorem Recoverable.savePlan {sha256 : JsString → JsString} (hsha : Function.Injective sha256)
    {files' : ProjectFiles} {call : SaveCall} (hfiles : Recoverable files)
    (hkept : SaveKept sha256 files call) (hsave : Saves sha256 files call files') :
    Recoverable files' := by
  obtain ⟨current, hcurrent, hreplay⟩ := hfiles
  obtain ⟨first, -, base, hcarries, hbase, hnormal⟩ := carriesPlan_of_replay hreplay
  obtain ⟨hdistinct, hkeeps⟩ := hkept.2 current base hcurrent hbase
  exact (recoverable_savePlan_iff hsha hcurrent hcarries hnormal hdistinct hkept.1 hsave).mpr hkeeps

/-- The ledger alone recovers the plan.json that the last save of a run wrote,
    when every save of the run was kept. -/
theorem replayFromLedger_after_run {sha256 : JsString → JsString} (hsha : Function.Injective sha256)
    {files files' : ProjectFiles} {calls : List SaveCall} {saved : Plan}
    (hstart : Recoverable files ∨ files = ⟨none, none⟩)
    (hrun : Run (Guarded (Saves sha256) (SaveKept sha256)) files calls files')
    (hsaved : files'.planJson = some saved) :
    replayFromLedger { files' with planJson := none } = .ok (some saved) := by
  have hstep : ∀ files call files', Guarded (Saves sha256) (SaveKept sha256) files call files' →
      Recoverable files ∨ files = ⟨none, none⟩ → Recoverable files' ∨ files' = ⟨none, none⟩ := by
    rintro files call files' ⟨hsave, hkept⟩ (hfiles | rfl)
    · exact Or.inl (hfiles.savePlan hsha hkept hsave)
    · exact Or.inl (recoverable_first_savePlan hkept.1 hsave)
  rcases hrun.preserves hstep hstart with ⟨current, hcurrent, hreplay⟩ | rfl
  · cases hcurrent.symm.trans hsaved
    exact hreplay
  · cases hsaved

/-! ### A phase that becomes a non-code phase -/

/-- One phase with one task; its type and the task's requirements are open. -/
def typedPlan (type : Option PhaseType) (frRefs : Option (List JsString)) (status : TaskStatus) :
    Plan :=
  derivePhaseStatuses
    { onePhasePlan [] with
      phases := [{
        id := 1
        name := js "build"
        status := .pending
        tasks := [{ plainTask "1.1" status with frRefs := frRefs }]
        type := type
        requiredAgents := none }] }

/-- The files one save after another leaves. -/
def savedFrom (files : ProjectFiles) (plan : Plan) : ProjectFiles :=
  match savePlan id sampleClock files plan {} with
  | .ok files' => files'
  | .error _ => files

def firstSave : ProjectFiles := savedFrom ⟨none, none⟩ (typedPlan none none .pending)

theorem saves_of_isOk (h : (savePlan id sampleClock files plan {}).toBool = true) :
    Saves id files ⟨sampleClock, plan, {}⟩ (savedFrom files plan) := by
  unfold Saves savedFrom
  cases hsave : savePlan id sampleClock files plan {} with
  | ok files' => rfl
  | error err =>
    rw [hsave] at h
    cases h

/-- Two saves, the second of which changes a status and keeps the type. -/
theorem replayFromLedger_after_twoSaves :
    replayFromLedger { savedFrom firstSave (typedPlan none none .inProgress) with planJson := none }
      = .ok (some (typedPlan none none .inProgress)) := by
  have hfirst : Saves id ⟨none, none⟩ ⟨sampleClock, typedPlan none none .pending, {}⟩ firstSave :=
    saves_of_isOk (by decide +kernel)
  have hsecond : Saves id firstSave ⟨sampleClock, typedPlan none none .inProgress, {}⟩
      (savedFrom firstSave (typedPlan none none .inProgress)) := saves_of_isOk (by decide +kernel)
  have hkept : SaveKept id ⟨none, none⟩ ⟨sampleClock, typedPlan none none .pending, {}⟩ :=
    ⟨by decide +kernel, fun _ _ h => by cases h⟩
  have hkept' : SaveKept id firstSave ⟨sampleClock, typedPlan none none .inProgress, {}⟩ := by
    have hcurrent : firstSave.planJson = some (typedPlan none none .pending) := by decide +kernel
    have hbase : reconstructPlanFromEventsUnnormalized none firstSave.events
        = .ok (some (typedPlan none none .pending)) := by decide +kernel
    refine ⟨by decide +kernel, fun current base hdisk hreplay => ?_⟩
    cases hcurrent.symm.trans hdisk
    cases hbase.symm.trans hreplay
    exact ⟨by decide +kernel, by decide +kernel⟩
  exact replayFromLedger_after_run Function.injective_id (Or.inr rfl)
    (((Run.nil _).snoc ⟨hfirst, hkept⟩).snoc ⟨hsecond, hkept'⟩) (by decide +kernel)

/-- A save that changes the type of the phase and the requirements of its task
    leaves a ledger that knows neither. -/
theorem not_recoverable_after_typeChange :
    ¬ ∀ sha256 : JsString → JsString, Function.Injective sha256 →
      ∀ (files files' : ProjectFiles) (call : SaveCall),
        Recoverable files → Saves sha256 files call files' → Recoverable files' := by
  intro hall
  have hfirst : Saves id ⟨none, none⟩ ⟨sampleClock, typedPlan none none .pending, {}⟩ firstSave :=
    saves_of_isOk (by decide +kernel)
  have hrecoverable : Recoverable firstSave :=
    recoverable_first_savePlan (by decide +kernel) hfirst
  obtain ⟨saved, hsaved, hreplay⟩ := hall id Function.injective_id firstSave
    (savedFrom firstSave (typedPlan (some .nonCode) (some [js "FR-1"]) .pending)) _ hrecoverable
    (saves_of_isOk (by decide +kernel))
  have hdisk : (savedFrom firstSave (typedPlan (some .nonCode) (some [js "FR-1"]) .pending)).planJson
      = some (typedPlan (some .nonCode) (some [js "FR-1"]) .pending) := by decide +kernel
  have hledger : replayFromLedger
      { savedFrom firstSave (typedPlan (some .nonCode) (some [js "FR-1"]) .pending) with
        planJson := none } = .ok (some (typedPlan none none .pending)) := by decide +kernel
  cases hdisk.symm.trans hsaved
  have hsame := hledger.symm.trans hreplay
  exact absurd hsame (by decide +kernel)

end OpencodeSwarm
