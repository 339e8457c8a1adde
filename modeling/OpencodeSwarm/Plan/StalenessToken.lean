/-
  OpencodeSwarm.Plan.StalenessToken

  `plan_hash_after` of the last ledger event is the token by which the startup
  check of `loadPlan` tells a stale plan.json.  A save stamps its events with the
  hash of the incoming plan, before statuses recorded in the ledger are merged
  into it, so the token agrees with the published plan.json only when a snapshot
  follows the events or the merge raises nothing.  Which of these happens is
  settled by the ledger and the plan.json the save finds and the plan it is given.
-/
import OpencodeSwarm.Plan.LedgerRecovery

namespace OpencodeSwarm

open Js

section Token

variable {sha256 : JsString → JsString} {clock : SaveClock}

/-- The last event names plan.json. -/
def TokenAgrees (sha256 : JsString → JsString) (files : ProjectFiles) : Prop :=
  latestLedgerHash files.events = computeCurrentPlanHash sha256 files

/-! ## The event stamps -/

variable {files : ProjectFiles}

theorem getLast?_planHashAfter_appendedEvents {planHashAfter : JsString}
    {inputs : List LedgerEventInput} (hne : inputs ≠ []) :
    latestLedgerHash (files.events ++ appendedEvents sha256 clock files planHashAfter inputs)
      = planHashAfter := by
  have hnew : appendedEvents sha256 clock files planHashAfter inputs ≠ [] :=
    appendedEvents_ne_nil hne
  obtain ⟨last, hlast⟩ := Option.isSome_iff_exists.mp (List.getLast?_isSome.mpr hnew)
  rw [latestLedgerHash, List.getLast?_append, hlast]
  exact (mem_appendedEvents (List.mem_of_getLast? hlast)).2.1

variable {plan : Plan} {options : SaveOptions} {recorded : List DurableWrite}

/-- Whatever the ledger part of a save writes last is stamped with the hash of
    the validated plan. -/
theorem latestLedgerHash_ledgerWrites (hplan : (validatedPlan files plan options).wellFormed = true)
    (h : ledgerWrites sha256 clock files plan options = .ok recorded) (hne : recorded ≠ []) :
    latestLedgerHash (files.writeAll recorded).events
      = computePlanLedgerHash sha256 (validatedPlan files plan options) := by
  obtain ⟨reconciles, inputs, hreconciles, -, rfl⟩ := ledgerWrites_eq_ok h
  rw [ProjectFiles.writeAll_append, (ProjectFiles.writeAll_map_append _ _).1]
  by_cases hinputs : inputs = []
  · subst hinputs
    rw [appendedEvents_nil, List.append_nil, ProjectFiles.writeAll_append]
    rcases reconcileWrites_eq_ok hplan hreconciles with rfl | ⟨event, rfl, hhash, -⟩
    · -- only a root was written
      unfold rootWrites at hne ⊢
      split at hne
      · rfl
      split_ifs at hne with hforeign
      · rw [if_pos hforeign]
        rfl
      · exact absurd rfl hne
    · rw [ProjectFiles.writeAll_singleton, latestLedgerHash]
      rw [show ∀ rooted : ProjectFiles, (rooted.write (.append event)).events
        = rooted.events ++ [event] from fun _ => rfl, List.getLast?_append]
      exact hhash
  · rw [ProjectFiles.writeAll_append]
    exact getLast?_planHashAfter_appendedEvents hinputs

variable {validated : Plan}

/-- The merge raises no status exactly when it keeps the ledger hash. -/
theorem projectionCandidate_hash_eq_iff (hsha : Function.Injective sha256) {replayed : Option Plan}
    (hderived : derivePhaseStatuses validated = validated) : computePlanLedgerHash sha256 validated
        = computePlanLedgerHash sha256 (projectionCandidate files validated replayed)
      ↔ NothingOutranked files validated replayed := by
  constructor
  · intro hhash plan hreplayed task htask
    cases hreplayed
    have hhashed := (computePlanLedgerHash_eq_iff hsha).mp hhash
    have htasks : (validated.hashed true).phases.flatMap HashedPhase.tasks
        = ((projectionCandidate files validated (some plan)).hashed true).phases.flatMap
          HashedPhase.tasks := by rw [hhashed]
    rw [hashed_tasks, hashed_tasks, projectionCandidate, mergeStatusesTakingPrecedence,
      tasks_derivePhaseStatuses, Plan.tasks_mapTasks, List.map_map, List.map_inj_left] at htasks
    have hstatus := congrArg HashedTask.status (htasks task htask)
    exact (Option.some.inj hstatus).symm
  · intro hnothing
    rw [projectionCandidate_eq_self hderived hnothing]

/-! ## The ledger a save records its difference in -/

/-- What that ledger replays to, its last seq, and the ids it records statuses of. -/
structure RecordingLedger where
  base : Plan
  seq : Nat
  statusIds : List JsString

/-- Of a ledger that replays to `base`: a missing or foreign one gives way to a
    root with the validated plan, and a recovery snapshot adds one event. -/
def recordingLedger (files : ProjectFiles) (validated : Plan) (options : SaveOptions)
    (base : Plan) : RecordingLedger :=
  let anew := files.ledger.all fun events =>
    events.head?.any fun first => first.planId != derivePlanId validated
  { base := if basesLedger files validated options then validated else base
    seq := (if anew then 1 else latestSeq files.events)
      + (if options.staleProjectionReconcile.isSome then 1 else 0)
    statusIds := if anew then [] else collectLedgerStatusTaskIds files.events }

/-- What it replays to with the difference between plan.json and the validated
    plan recorded in it. -/
def RecordingLedger.replayed (ledger : RecordingLedger) (current validated : Plan) : Plan :=
  normalizeCurrentPhase (recordedDifference current validated ledger.base)

/-- The ids of which it then records a status. -/
def RecordingLedger.recordedIds (ledger : RecordingLedger) (current validated : Plan) :
    List JsString :=
  ledger.statusIds ++ (statusInputs current validated).filterMap LedgerEventInput.taskId

theorem rootWrites_spec (sha256 : JsString → JsString) (clock : SaveClock) (files : ProjectFiles)
    (validated : Plan) :
    if files.ledger.all (fun events =>
        events.head?.any fun first => first.planId != derivePlanId validated) then
      ∃ source, rootWrites sha256 clock files validated
        = [.root (planCreatedRoot sha256 clock validated source)]
    else rootWrites sha256 clock files validated = [] := by
  unfold rootWrites
  cases files.ledger with
  | none => exact ⟨_, rfl⟩
  | some events =>
    dsimp only [Option.all_some]
    split_ifs
    · exact ⟨_, rfl⟩
    · rfl

variable {reconciles : List DurableWrite}

theorem reconcileWrites_spec
    (h : reconcileWrites sha256 clock files plan validated options = .ok reconciles) :
    if options.staleProjectionReconcile.isSome then
      ∃ event, reconciles = [.append event] ∧ event.seq = latestSeq files.events + 1
        ∧ event.eventType = .snapshot else reconciles = [] := by
  unfold reconcileWrites at h
  split at h
  · next hnone =>
    rw [hnone]
    cases h
    rfl
  · next expected hexpected =>
    rw [hexpected]
    split at h
    · cases h
    split at h
    · cases h
    split at h
    · cases h
    cases h
    exact ⟨_, rfl, rfl, rfl⟩

/-- The root and the recovery snapshot leave the recording ledger; they are
    written exactly when they base it. -/
theorem recordingLedger_spec (base : Plan)
    (h : reconcileWrites sha256 clock (files.writeAll (rootWrites sha256 clock files validated)) plan
      validated options = .ok reconciles) :
    let prepared := (files.writeAll (rootWrites sha256 clock files validated)).writeAll reconciles
    latestSeq prepared.events = (recordingLedger files validated options base).seq
      ∧ collectLedgerStatusTaskIds prepared.events
        = (recordingLedger files validated options base).statusIds
      ∧ (rootWrites sha256 clock files validated ++ reconciles = []
        ↔ basesLedger files validated options = false) := by
  have hroots := rootWrites_spec sha256 clock files validated
  have hreconciles := reconcileWrites_spec h
  dsimp only [recordingLedger, basesLedger]
  generalize (files.ledger.all fun events =>
    events.head?.any fun first => first.planId != derivePlanId validated) = anew at hroots ⊢
  have hrooted : latestSeq (files.writeAll (rootWrites sha256 clock files validated)).events
        = (if anew then 1 else latestSeq files.events)
      ∧ collectLedgerStatusTaskIds
          (files.writeAll (rootWrites sha256 clock files validated)).events
        = if anew then [] else collectLedgerStatusTaskIds files.events := by
    cases anew with
    | true =>
      obtain ⟨source, hroot⟩ := hroots
      rw [hroot]
      exact ⟨rfl, rfl⟩
    | false =>
      rw [show rootWrites sha256 clock files validated = [] from hroots]
      exact ⟨rfl, rfl⟩
  have hempty : rootWrites sha256 clock files validated = [] ↔ anew = false := by
    cases anew with
    | true =>
      obtain ⟨source, hroot⟩ := hroots
      simp [hroot]
    | false => exact iff_of_true hroots rfl
  generalize files.writeAll (rootWrites sha256 clock files validated) = rooted
    at hreconciles hrooted
  rw [List.append_eq_nil_iff, hempty, Bool.or_eq_false_iff, ← hrooted.1, ← hrooted.2]
  cases hsome : options.staleProjectionReconcile.isSome with
  | true =>
    rw [hsome] at hreconciles
    obtain ⟨event, rfl, hseq, htype⟩ := hreconciles
    have hevents : (rooted.writeAll [.append event]).events = rooted.events ++ [event] := rfl
    rw [hevents]
    refine ⟨latestSeq_snoc hseq, ?_, by simp⟩
    simp [collectLedgerStatusTaskIds, htype]
  | false =>
    rw [hsome] at hreconciles
    rw [show reconciles = [] from hreconciles]
    exact ⟨rfl, rfl, by simp⟩

theorem collectLedgerStatusTaskIds_appendedEvents (files : ProjectFiles) (planHashAfter : JsString)
    (inputs : List LedgerEventInput) :
    collectLedgerStatusTaskIds (appendedEvents sha256 clock files planHashAfter inputs)
      = inputs.filterMap fun input =>
        if input.eventType = .taskStatusChanged then input.taskId else none := by
  induction inputs generalizing files with
  | nil => rfl
  | cons input inputs ih =>
    rw [appendedEvents_cons, List.filterMap_cons, ← ih (files.write (.append
      (appendedEvent sha256 clock files input planHashAfter)))]
    exact List.filterMap_cons ..

/-- Of the difference the status events alone record a status. -/
theorem filterMap_statusIds (current validated : Plan) (ack : AcknowledgedRemovals) :
    ((missingTaskIds current validated).map (removalInput current validated ack)
        ++ statusInputs current validated).filterMap (fun input =>
          if input.eventType = .taskStatusChanged then input.taskId else none)
      = (statusInputs current validated).filterMap LedgerEventInput.taskId := by
  rw [List.filterMap_append, List.filterMap_map]
  have hremovals : (missingTaskIds current validated).filterMap
      ((fun input : LedgerEventInput =>
        if input.eventType = .taskStatusChanged then input.taskId else none)
          ∘ removalInput current validated ack) = [] :=
    List.filterMap_eq_nil_iff.mpr fun _ _ => rfl
  rw [hremovals, List.nil_append]
  refine List.filterMap_congr fun input hinput => ?_
  obtain ⟨phase, -, task, -, hsome⟩ := mem_statusInputs.mp hinput
  obtain ⟨-, -, -, -, htype, -, -⟩ := statusInput_eq_some hsome
  rw [if_pos htype]

/-! ## When a save keeps the token -/

/-- A snapshot follows the events, periodically or because the ledger replays to
    something else than the merged plan; or the save writes events and no
    recorded status outranks the validated plan's; or it writes none and the last
    event names what the ledger replays to. -/
def SaveKeepsToken (sha256 : JsString → JsString) (clock : SaveClock) (files : ProjectFiles)
    (validated : Plan) (options : SaveOptions) (current base : Plan) : Prop :=
  let ledger := recordingLedger files validated options base
  let replayed := ledger.replayed current validated
  let ids := ledger.recordedIds current validated
  let seq := ledger.seq
    + ((missingTaskIds current validated).length + (statusInputs current validated).length)
  let writesEvents := basesLedger files validated options = true
    ∨ missingTaskIds current validated ≠ [] ∨ statusInputs current validated ≠ []
  (!options.preCommitCheck && 0 < seq && seq % snapshotInterval == 0
      && !clock.intervalSnapshotFails) = true
    ∨ computePlanLedgerHash sha256 replayed
      ≠ computePlanLedgerHash sha256 (mergeStatusesTakingPrecedence validated replayed ids)
    ∨ writesEvents ∧ (∀ task ∈ validated.tasks, mergedStatus replayed ids task = task.status)
    ∨ ¬ writesEvents ∧ latestLedgerHash files.events = computePlanLedgerHash sha256 replayed

instance (sha256 : JsString → JsString) (clock : SaveClock) (files : ProjectFiles)
    (validated : Plan) (options : SaveOptions) (current base : Plan) :
    Decidable (SaveKeepsToken sha256 clock files validated options current base) := by
  unfold SaveKeepsToken
  infer_instance

/-- The events of a save over the ledger that replays to `base`: what they replay
    to, the ids and the seq they leave, and whether there are any. -/
theorem ledgerWrites_recording {current base : Plan} {planId : JsString} {replayed : Option Plan}
    (hcurrent : files.planJson = some current) (hbase : ReplaysTo files planId base)
    (hplan : (validatedPlan files plan options).wellFormed = true)
    (hrecorded : ledgerWrites sha256 clock files plan options = .ok recorded)
    (hreplayed : replayFromLedger (files.writeAll recorded) = .ok replayed) :
    let validated := validatedPlan files plan options
    let ledger := recordingLedger files validated options base
    replayed = some (ledger.replayed current validated)
      ∧ collectLedgerStatusTaskIds (files.writeAll recorded).events
        = ledger.recordedIds current validated
      ∧ latestSeq (files.writeAll recorded).events = ledger.seq
        + ((missingTaskIds current validated).length + (statusInputs current validated).length)
      ∧ (recorded ≠ [] ↔ basesLedger files validated options = true
        ∨ missingTaskIds current validated ≠ [] ∨ statusInputs current validated ≠ []) := by
  obtain ⟨reconciles, inputs, hreconciles, hdiffers, hparts⟩ := ledgerWrites_eq_ok hrecorded
  obtain ⟨hseq, hids, hempty⟩ := recordingLedger_spec base hreconciles
  have htrace := saveTrace_of_parts hplan rfl hreconciles hdiffers
    (by rw [hparts, ProjectFiles.writeAll_append, ProjectFiles.writeAll_append]) hreplayed
  have hstart := htrace.replaysTo_start (prepared_spec hplan hreconciles) hbase
  generalize (files.writeAll (rootWrites sha256 clock files
    (validatedPlan files plan options))).writeAll reconciles = prepared at *
  rw [← htrace.prepares.planJson] at hstart
  obtain ⟨ack, hinputs⟩ :=
    diffInputs_of_planJson hdiffers (htrace.prepares.planJson.trans hcurrent)
  have happended := htrace.events_appended
  have hnone : appendedEvents sha256 clock prepared (computePlanLedgerHash sha256
      (validatedPlan files plan options)) inputs = [] ↔ inputs = [] := by
    refine ⟨fun hnil => ?_, fun hnil => by rw [hnil, appendedEvents_nil]⟩
    by_contra hne
    exact appendedEvents_ne_nil hne hnil
  refine ⟨?_, ?_, ?_, ?_⟩
  · rw [htrace.replayed_eq hstart, hinputs, foldl_record_eq_recordedDifference]
    rfl
  · rw [happended, collectLedgerStatusTaskIds, List.filterMap_append]
    refine congrArg₂ _ hids ?_
    rw [hinputs]
    exact (collectLedgerStatusTaskIds_appendedEvents _ _ _).trans (filterMap_statusIds _ _ _)
  · rw [happended, latestSeq_appendedEvents, hseq, hinputs, List.length_append, List.length_map]
  · rw [hparts, Ne, List.append_eq_nil_iff, hempty, List.map_eq_nil_iff, hnone, hinputs,
      List.append_eq_nil_iff, List.map_eq_nil_iff, not_and_or, not_and_or, Bool.not_eq_false]

/-- After a save the last event names the published plan.json exactly when the
    save kept the token. -/
theorem tokenAgrees_savePlan_iff (hsha : Function.Injective sha256) {files files' : ProjectFiles}
    {plan current base : Plan} {planId : JsString} {options : SaveOptions}
    (hcurrent : files.planJson = some current) (hbase : ReplaysTo files planId base)
    (hsave : savePlan sha256 clock files plan options = .ok files') : TokenAgrees sha256 files'
      ↔ SaveKeepsToken sha256 clock files (validatedPlan files plan options) options current
        base := by
  obtain ⟨recorded, _, _, replayed, hrecorded, htrace, hplan, hsaved⟩ := savePlan_eq_ok hsave
  obtain ⟨rfl, hids, hseq, hwrites⟩ :=
    ledgerWrites_recording hcurrent hbase htrace.wellFormed hrecorded htrace.replays
  have hderived := derivePhaseStatuses_validatedPlan files plan options
  have hlast := latestLedgerHash_ledgerWrites htrace.wellFormed hrecorded
  dsimp only [SaveKeepsToken]
  rw [← hids, ← hseq, ← hwrites, not_not]
  generalize (recordingLedger files (validatedPlan files plan options) options base).replayed
    current (validatedPlan files plan options) = final at hplan hsaved ⊢
  generalize validatedPlan files plan options = validated at *
  have hcurrentHash : computeCurrentPlanHash sha256 files' = computePlanLedgerHash sha256
      (projectionCandidate (files.writeAll recorded) validated (some final)) := by
    rw [computeCurrentPlanHash, hplan]
    rfl
  have hmerged : computePlanLedgerHash sha256 validated = computePlanLedgerHash sha256
        (projectionCandidate (files.writeAll recorded) validated (some final))
      ↔ ∀ task ∈ validated.tasks, mergedStatus final
        (collectLedgerStatusTaskIds (files.writeAll recorded).events) task = task.status := by
    rw [projectionCandidate_hash_eq_iff hsha hderived]
    exact ⟨fun h => h final rfl, fun h _ hfinal => Option.some.inj hfinal ▸ h⟩
  have hcandidate : projectionCandidate (files.writeAll recorded) validated (some final)
    = mergeStatusesTakingPrecedence validated final
      (collectLedgerStatusTaskIds (files.writeAll recorded).events) := rfl
  rw [TokenAgrees, hcurrentHash, ← hmerged, ← hcandidate]
  by_cases hsnapshot : snapshotTaken sha256 clock (files.writeAll recorded) validated options
      (some final) = true
  · rw [if_pos hsnapshot] at hsaved
    refine iff_of_true hsaved.token ?_
    rw [snapshotTaken, Bool.or_eq_true] at hsnapshot
    rcases hsnapshot with hstructural | hperiodic
    · exact Or.inr (Or.inl (of_decide_eq_true hstructural))
    · exact Or.inl hperiodic
  · rw [if_neg hsnapshot] at hsaved
    have hsame := hash_replayed_of_not_due hsnapshot
    rw [Option.getD_some] at hsame
    rw [snapshotTaken, Bool.or_eq_true, not_or] at hsnapshot
    have hperiodic : ¬ (!options.preCommitCheck && 0 < latestSeq (files.writeAll recorded).events
      && latestSeq (files.writeAll recorded).events % snapshotInterval == 0
      && !clock.intervalSnapshotFails) = true := hsnapshot.2
    rw [hsaved, or_iff_right hperiodic, or_iff_right (not_not.mpr hsame)]
    by_cases hnil : recorded = []
    · subst hnil
      rw [hsame]
      simp
    · rw [hlast hnil]
      simp [hnil]

end Token

/-! ### A completion that a crashed writer left in the ledger -/

instance (sha256 : JsString → JsString) (files : ProjectFiles) :
    Decidable (TokenAgrees sha256 files) :=
  inferInstanceAs (Decidable (_ = _))

/-- The ledger replays to a plan with the hash of plan.json, up to status events
    at its end. -/
def LedgerAheadByStatuses (sha256 : JsString → JsString) (files : ProjectFiles) : Prop :=
  ∃ current replayed synced ahead, files.planJson = some current
    ∧ files.ledger = some (synced ++ ahead)
    ∧ (∀ event ∈ ahead, event.eventType = .taskStatusChanged)
    ∧ replayFromLedger ⟨some synced, some current⟩ = .ok (some replayed)
    ∧ computePlanLedgerHash sha256 replayed = computePlanLedgerHash sha256 current

/-- Those files after a second writer recorded the completion of task 1.1 and
    crashed before its rename. -/
def crashedFiles : ProjectFiles :=
  let saved := savedFiles (threeTaskPlan .pending .pending)
  saved.writeAll ((appendedEvents id sampleClock saved
    (computePlanLedgerHash id (threeTaskPlan .completed .pending))
    (statusInputs (threeTaskPlan .pending .pending) (threeTaskPlan .completed .pending))).map
      DurableWrite.append)

/-- Blocking task 1.3 over them publishes the completion under a token that does
    not know it. -/
theorem token_disagrees_after_crashed_completion :
    ¬ ∀ sha256 : JsString → JsString, Function.Injective sha256 →
      ∀ (clock : SaveClock) (files files' : ProjectFiles) (plan : Plan) (options : SaveOptions),
        LedgerAheadByStatuses sha256 files → savePlan sha256 clock files plan options = .ok files' →
          TokenAgrees sha256 files' := by
  intro hall
  have hbased : BasedOn (savedFiles (threeTaskPlan .pending .pending))
      (threeTaskPlan .pending .pending) := basedOn_savedFiles (by decide)
  have hahead : LedgerAheadByStatuses id crashedFiles :=
    ⟨_, _, [planCreatedRoot id sampleClock (threeTaskPlan .pending .pending) (js "initLedger")], _,
      rfl, rfl, by decide +kernel, hbased.replaysTo.replayFromLedger, by decide +kernel⟩
  have hdisagrees : (savePlan id sampleClock crashedFiles (threeTaskPlan .pending .blocked)
      {}).toOption.all (fun files' => decide (TokenAgrees id files')) = false := by decide +kernel
  cases hsave : savePlan id sampleClock crashedFiles (threeTaskPlan .pending .blocked) {} with
  | error err =>
    rw [hsave] at hdisagrees
    cases hdisagrees
  | ok files' =>
    rw [hsave] at hdisagrees
    exact of_decide_eq_false hdisagrees
      (hall id Function.injective_id _ _ _ _ _ hahead hsave)

/-- Without a crashed writer the same save keeps the token. -/
theorem tokenAgrees_savePlan_savedFiles :
    ∃ files', savePlan id sampleClock (savedFiles (threeTaskPlan .pending .pending))
        (threeTaskPlan .pending .blocked) {} = .ok files' ∧ TokenAgrees id files' := by
  have hbased : BasedOn (savedFiles (threeTaskPlan .pending .pending))
      (threeTaskPlan .pending .pending) := basedOn_savedFiles (by decide)
  cases hsave : savePlan id sampleClock (savedFiles (threeTaskPlan .pending .pending))
      (threeTaskPlan .pending .blocked) {} with
  | error err =>
    have hok : (savePlan id sampleClock (savedFiles (threeTaskPlan .pending .pending))
        (threeTaskPlan .pending .blocked) {}).toBool = true := by decide +kernel
    rw [hsave] at hok
    cases hok
  | ok files' =>
    exact ⟨files', rfl, (tokenAgrees_savePlan_iff Function.injective_id rfl hbased.replaysTo
      hsave).mpr (by decide +kernel)⟩

end OpencodeSwarm
