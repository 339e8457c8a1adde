/-
  OpencodeSwarm.Plan.SaveStages

  The stages of a save that returns: the ledger it prepares, the difference it
  appends, the replay it reads back and the projection it publishes.  Results
  about saves go through `SaveTrace` and never unfold `savePlan`.
-/
import OpencodeSwarm.Plan.SaveFacts

namespace OpencodeSwarm

open Js

/-! ## Ledgers that replay to a plan -/

/-- The ledger, under this identity, replays to `base` before the cursor is
    normalized. -/
structure ReplaysTo (files : ProjectFiles) (planId : JsString) (base : Plan) : Prop where
  nonempty : files.events ≠ []
  identity : files.events.head?.map LedgerEvent.planId = some planId
  replay : reconstructPlanFromEventsUnnormalized files.planJson files.events = .ok (some base)

theorem ReplaysTo.replayFromLedger {files : ProjectFiles} {planId : JsString} {base : Plan}
    (h : ReplaysTo files planId base) :
    replayFromLedger files = .ok (some (normalizeCurrentPhase base)) := by
  rw [OpencodeSwarm.replayFromLedger, if_neg h.nonempty]
  exact reconstructPlanFromEvents_eq_ok h.replay

theorem replayFromLedger_eq_ok {files : ProjectFiles} {plan : Plan}
    (h : replayFromLedger files = .ok (some plan)) :
    ∃ first ∈ files.events.head?, ∃ base, ReplaysTo files first.planId base
      ∧ plan = normalizeCurrentPhase base := by
  have hempty : files.events ≠ [] := by
    intro hempty
    rw [replayFromLedger, if_pos hempty] at h
    cases h
  rw [replayFromLedger, if_neg hempty] at h
  obtain ⟨first, rest, hevents⟩ := List.exists_cons_of_ne_nil hempty
  rw [reconstructPlanFromEvents] at h
  cases hreplay : reconstructPlanFromEventsUnnormalized files.planJson files.events with
  | error err =>
    rw [hreplay] at h
    cases h
  | ok replayed =>
    rw [hreplay] at h
    cases replayed with
    | none => cases h
    | some base =>
      cases h
      exact ⟨first, by rw [hevents]; rfl, base, ⟨hempty, by rw [hevents]; rfl, hreplay⟩, rfl⟩

section Stages

variable {sha256 : JsString → JsString} {clock : SaveClock} {files : ProjectFiles}
  {inputs : List LedgerEventInput} {base : Plan}

/-- With the difference appended, the ledger replays to the base with the
    difference recorded. -/
theorem ReplaysTo.append {planId planHashAfter : JsString} (h : ReplaysTo files planId base)
    (hplanId : ∀ input ∈ inputs, input.planId = planId)
    (hchanges : ∀ input ∈ inputs, input.IsChange) : ReplaysTo (files.writeAll
        ((appendedEvents sha256 clock files planHashAfter inputs).map DurableWrite.append))
      planId (inputs.foldl LedgerEventInput.record base) := by
  obtain ⟨hevents, hplan⟩ := files.writeAll_map_append
    (appendedEvents sha256 clock files planHashAfter inputs)
  refine ⟨?_, ?_, ?_⟩
  · rw [hevents]
    exact List.append_ne_nil_of_left_ne_nil h.nonempty _
  · rw [hevents, List.head?_append_of_ne_nil _ h.nonempty]
    exact h.identity
  · rw [hevents, hplan]
    exact reconstruct_appendedEvents h.nonempty h.identity hplanId hchanges h.replay

variable (sha256 clock) in
theorem embeddedPlan_snapshotEvent (files : ProjectFiles) {plan : Plan}
    (hplan : plan.wellFormed = true) (source : JsString) :
    (snapshotEvent sha256 clock files plan source).embeddedPlan = some plan := by
  simp [LedgerEvent.embeddedPlan, snapshotEvent, appendedEvent, snapshotInput, snapshotPayload,
    hplan]

variable {plan : Plan}

/-- A snapshot appended under the ledger's identity is what replay starts from. -/
theorem replaysTo_snapshotEvent (hplan : plan.wellFormed = true)
    (hidentity : ∀ first ∈ files.events.head?, first.planId = derivePlanId plan) (source : JsString)
    (planHashBefore : JsString) (planJson : Option Plan) : ReplaysTo ⟨some (files.events
        ++ [{ snapshotEvent sha256 clock files plan source with planHashBefore := planHashBefore }]),
        planJson⟩ (derivePlanId plan) plan := by
  generalize hevent : { snapshotEvent sha256 clock files plan source with
    planHashBefore := planHashBefore } = event
  have hplanId : event.planId = derivePlanId plan := by rw [← hevent]; rfl
  have hembedded : event.embeddedPlan = some plan := by
    rw [← hevent]
    exact embeddedPlan_snapshotEvent sha256 clock files hplan source
  refine ⟨List.append_ne_nil_of_right_ne_nil _ (List.cons_ne_nil _ _), ?_, ?_⟩
  · cases hevents : files.events with
    | nil => simp [ProjectFiles.events, hplanId]
    | cons first rest =>
      have hfirst : first.planId = derivePlanId plan := hidentity first (by rw [hevents]; rfl)
      simp [ProjectFiles.events, hfirst]
  · refine reconstruct_append_snapshot ?_ (by rw [← hevent]; rfl) hembedded planJson
    intro hne
    obtain ⟨first, rest, hevents⟩ := List.exists_cons_of_ne_nil hne
    refine ⟨?_, ?_⟩
    · intro new hnew
      rw [List.mem_singleton.mp hnew, hplanId, hevents]
      exact congrArg some (hidentity first (by rw [hevents]; rfl))
    · intro new hnew earlier hearlier
      rw [List.mem_singleton.mp hnew, ← hevent]
      exact Nat.lt_succ_of_le (seq_le_latestSeq hearlier)

/-! ## Preparation -/

/-- A ledger whose embedded plan is what it replays to, whatever plan.json holds. -/
def BasedOn (files : ProjectFiles) (base : Plan) : Prop :=
  ∀ planJson, ReplaysTo ⟨files.ledger, planJson⟩ (derivePlanId base) base

theorem BasedOn.replaysTo (h : BasedOn files base) :
    ReplaysTo files (derivePlanId base) base := h files.planJson

/-- The ledger a save records its difference in: the one it found, under the
    plan's identity, or one that starts from the validated plan. -/
inductive Prepared (files : ProjectFiles) (validated : Plan) (prepared : ProjectFiles) : Prop where
  | kept (hfiles : prepared = files)
      (hidentity : ∀ first ∈ files.events.head?, first.planId = derivePlanId validated)
  | based (hplan : prepared.planJson = files.planJson) (hbased : BasedOn prepared validated)

variable {validated : Plan} {prepared : ProjectFiles}

theorem Prepared.planJson (h : Prepared files validated prepared) :
    prepared.planJson = files.planJson := by
  cases h with
  | kept hfiles => rw [hfiles]
  | based hplan => exact hplan

/-- Whatever the preparation was, the first event carries the plan's identity. -/
theorem Prepared.identity (h : Prepared files validated prepared) :
    ∀ first ∈ prepared.events.head?, first.planId = derivePlanId validated := by
  intro first hfirst
  cases h with
  | kept hfiles hidentity => exact hidentity first (hfiles ▸ hfirst)
  | based _ hbased =>
    have hhead := hbased.replaysTo.identity
    rw [hfirst] at hhead
    exact Option.some.inj hhead

theorem basedOn_root (hvalidated : validated.wellFormed = true) (source : JsString)
    (planJson : Option Plan) :
    BasedOn ⟨some [planCreatedRoot sha256 clock validated source], planJson⟩ validated := by
  intro planJson'
  refine ⟨List.cons_ne_nil _ _, rfl, ?_⟩
  refine reconstruct_root rfl ?_ planJson'
  simp [LedgerEvent.embeddedPlan, planCreatedRoot, hvalidated]

theorem rootWrites_prepared (hvalidated : validated.wellFormed = true) :
    Prepared files validated (files.writeAll (rootWrites sha256 clock files validated)) := by
  unfold rootWrites
  split
  · exact .based rfl (basedOn_root hvalidated _ _)
  rename_i events hledger
  split_ifs with hforeign
  · exact .based rfl (basedOn_root hvalidated _ _)
  · refine .kept rfl ?_
    intro first hfirst
    rw [ProjectFiles.events, hledger, Option.getD_some] at hfirst
    rw [hfirst] at hforeign
    simpa using hforeign

variable {options : SaveOptions} {reconciles : List DurableWrite}

theorem reconcileWrites_eq_ok (hvalidated : validated.wellFormed = true)
    (h : reconcileWrites sha256 clock files plan validated options = .ok reconciles) :
    reconciles = [] ∨ ∃ event, reconciles = [.append event]
      ∧ event.planHashAfter = computePlanLedgerHash sha256 validated
      ∧ BasedOn (files.write (.append event)) validated := by
  unfold reconcileWrites at h
  split at h
  · cases h
    exact Or.inl rfl
  · split at h
    · cases h
    split at h
    · cases h
    rename_i expected _ tail _
    split at h
    · cases h
    rename_i hcheck
    cases h
    simp only [not_or, not_not] at hcheck
    refine Or.inr ⟨_, rfl, rfl, fun planJson => ?_⟩
    refine replaysTo_snapshotEvent hvalidated ?_ _ _ planJson
    intro first hfirst
    have hidentity := hcheck.2.2.1
    rw [hfirst] at hidentity
    exact Option.some.inj hidentity

/-! ## The trace of a save -/

/-- The stages of a save that returned. -/
structure SaveTrace (sha256 : JsString → JsString) (clock : SaveClock) (files : ProjectFiles)
    (plan : Plan) (options : SaveOptions) (prepared : ProjectFiles)
    (inputs : List LedgerEventInput) (appended : ProjectFiles) (replayed : Option Plan) : Prop where
  wellFormed : (validatedPlan files plan options).wellFormed = true
  prepares : Prepared files (validatedPlan files plan options) prepared
  differs : diffInputs prepared (validatedPlan files plan options) options = .ok inputs
  appends : appended = prepared.writeAll ((appendedEvents sha256 clock prepared
    (computePlanLedgerHash sha256 (validatedPlan files plan options)) inputs).map
      DurableWrite.append)
  replays : replayFromLedger appended = .ok replayed

theorem SaveTrace.events_appended {appended : ProjectFiles} {replayed : Option Plan}
    {inputs : List LedgerEventInput}
    (h : SaveTrace sha256 clock files plan options prepared inputs appended replayed) :
    appended.events = prepared.events ++ appendedEvents sha256 clock prepared
      (computePlanLedgerHash sha256 (validatedPlan files plan options)) inputs := by
  rw [h.appends]
  exact (prepared.writeAll_map_append _).1

variable {writes : List DurableWrite}

theorem ledgerWrites_eq_ok (h : ledgerWrites sha256 clock files plan options = .ok writes) :
    ∃ reconciles inputs,
      reconcileWrites sha256 clock
          (files.writeAll (rootWrites sha256 clock files (validatedPlan files plan options))) plan
          (validatedPlan files plan options) options = .ok reconciles
      ∧ diffInputs ((files.writeAll (rootWrites sha256 clock files
          (validatedPlan files plan options))).writeAll reconciles)
          (validatedPlan files plan options) options = .ok inputs
      ∧ writes = rootWrites sha256 clock files (validatedPlan files plan options) ++ reconciles
        ++ (appendedEvents sha256 clock ((files.writeAll (rootWrites sha256 clock files
            (validatedPlan files plan options))).writeAll reconciles)
          (computePlanLedgerHash sha256 (validatedPlan files plan options)) inputs).map
            DurableWrite.append := by
  dsimp only [ledgerWrites] at h
  split at h
  · cases h
  rename_i reconciles hreconciles
  split at h
  · cases h
  rename_i inputs hinputs
  cases h
  exact ⟨reconciles, inputs, hreconciles, hinputs, rfl⟩

theorem savePlanWrites_eq_ok (h : savePlanWrites sha256 clock files plan options = .ok writes) :
    plan.wellFormed = true ∧ ∃ recorded replayed,
      ledgerWrites sha256 clock files plan options = .ok recorded
      ∧ replayFromLedger (files.writeAll recorded) = .ok replayed
      ∧ writes = recorded ++ projectionWrites sha256 clock (files.writeAll recorded)
        (validatedPlan files plan options) options replayed := by
  unfold savePlanWrites at h
  split at h
  · cases h
  rename_i hplan
  split at h
  · cases h
  rename_i recorded hrecorded
  dsimp only at h
  split at h
  · cases h
  rename_i replayed hreplayed
  cases h
  exact ⟨by simpa using hplan, recorded, replayed, hrecorded, hreplayed, rfl⟩

theorem rootWrites_planJson (files : ProjectFiles) (validated : Plan) :
    (files.writeAll (rootWrites sha256 clock files validated)).planJson = files.planJson := by
  unfold rootWrites
  repeat' split
  all_goals rfl

/-- The ledger once the root and the recovery snapshot are written. -/
theorem prepared_of_reconcileWrites (hvalidated : validated.wellFormed = true)
    (h : reconcileWrites sha256 clock (files.writeAll (rootWrites sha256 clock files validated)) plan
      validated options = .ok reconciles) : Prepared files validated
      ((files.writeAll (rootWrites sha256 clock files validated)).writeAll reconciles) := by
  rcases reconcileWrites_eq_ok hvalidated h with rfl | ⟨event, rfl, -, hbased⟩
  · exact rootWrites_prepared hvalidated
  · exact .based (rootWrites_planJson files validated) hbased

variable {replayed : Option Plan} {appended : ProjectFiles}

theorem saveTrace_of_parts (hplan : (validatedPlan files plan options).wellFormed = true)
    (hprepared : prepared = (files.writeAll (rootWrites sha256 clock files
      (validatedPlan files plan options))).writeAll reconciles)
    (hreconciles : reconcileWrites sha256 clock
      (files.writeAll (rootWrites sha256 clock files (validatedPlan files plan options))) plan
      (validatedPlan files plan options) options = .ok reconciles)
    (hinputs : diffInputs prepared (validatedPlan files plan options) options = .ok inputs)
    (happended : appended = prepared.writeAll ((appendedEvents sha256 clock prepared
        (computePlanLedgerHash sha256 (validatedPlan files plan options)) inputs).map
          DurableWrite.append)) (hreplayed : replayFromLedger appended = .ok replayed) :
    SaveTrace sha256 clock files plan options prepared inputs appended replayed where
  wellFormed := hplan
  prepares := by
    rw [hprepared]
    exact prepared_of_reconcileWrites hplan hreconciles
  differs := hinputs
  appends := happended
  replays := hreplayed

theorem exists_saveTrace {recorded : List DurableWrite}
    (hplan : (validatedPlan files plan options).wellFormed = true)
    (hrecorded : ledgerWrites sha256 clock files plan options = .ok recorded)
    (hreplayed : replayFromLedger (files.writeAll recorded) = .ok replayed) :
    ∃ prepared inputs, SaveTrace sha256 clock files plan options prepared inputs
      (files.writeAll recorded) replayed := by
  obtain ⟨reconciles, inputs, hreconciles, hinputs, hwrites⟩ := ledgerWrites_eq_ok hrecorded
  refine ⟨_, inputs, saveTrace_of_parts hplan rfl hreconciles hinputs ?_ hreplayed⟩
  rw [hwrites, ProjectFiles.writeAll_append, ProjectFiles.writeAll_append]

/-! ## The projection -/

/-- The save appends a snapshot of its projection. -/
def snapshotTaken (sha256 : JsString → JsString) (clock : SaveClock) (appended : ProjectFiles)
    (validated : Plan) (options : SaveOptions) (replayed : Option Plan) : Bool :=
  structuralSnapshotDue sha256 replayed (projectionCandidate appended validated replayed)
    || intervalSnapshotDue clock appended options

/-- Without a structural snapshot the replayed plan and the projection have one
    ledger hash. -/
theorem hash_replayed_of_not_due
    (h : ¬ snapshotTaken sha256 clock appended validated options replayed = true) :
    computePlanLedgerHash sha256 (replayed.getD validated)
      = computePlanLedgerHash sha256 (projectionCandidate appended validated replayed) := by
  rw [snapshotTaken, Bool.or_eq_true, not_or] at h
  cases replayed with
  | none => rfl
  | some plan => simpa [structuralSnapshotDue] using h.1

/-- The files after an appended snapshot of a plan end with it. -/
structure EndsWithSnapshot (sha256 : JsString → JsString) (files : ProjectFiles) (plan : Plan) :
    Prop where
  based : BasedOn files plan
  token : latestLedgerHash files.events = computePlanLedgerHash sha256 plan

theorem endsWithSnapshot_write (hplan : plan.wellFormed = true)
    (hidentity : ∀ first ∈ files.events.head?, first.planId = derivePlanId plan)
    (source : JsString) :
    EndsWithSnapshot sha256
      (files.write (.append (snapshotEvent sha256 clock files plan source))) plan where
  based := fun planJson => replaysTo_snapshotEvent hplan hidentity source _ planJson
  token := by
    rw [show (files.write (.append (snapshotEvent sha256 clock files plan source))).events
        = files.events ++ [snapshotEvent sha256 clock files plan source] from rfl,
      latestLedgerHash, List.getLast?_append]
    rfl

theorem EndsWithSnapshot.identity (h : EndsWithSnapshot sha256 files plan) :
    ∀ first ∈ files.events.head?, first.planId = derivePlanId plan := by
  intro first hfirst
  have hhead := h.based.replaysTo.identity
  rw [hfirst] at hhead
  exact Option.some.inj hhead

/-- The projection is renamed last; before it come the snapshots, if any. -/
theorem writeAll_projectionWrites (hplan : validated.wellFormed = true)
    (hidentity : ∀ first ∈ appended.events.head?, first.planId = derivePlanId validated) :
    let candidate := projectionCandidate appended validated replayed
    let saved := appended.writeAll
      (projectionWrites sha256 clock appended validated options replayed)
    saved.planJson = some candidate
      ∧ if snapshotTaken sha256 clock appended validated options replayed then
          EndsWithSnapshot sha256 saved candidate
        else saved.events = appended.events := by
  have hcandidate := projectionCandidate_wellFormed appended replayed hplan
  have hidentity' : ∀ first ∈ appended.events.head?,
      first.planId = derivePlanId (projectionCandidate appended validated replayed) := by
    rwa [derivePlanId_projectionCandidate]
  generalize hname : projectionCandidate appended validated replayed = candidate
    at hcandidate hidentity'
  have hrename : ∀ files : ProjectFiles, EndsWithSnapshot sha256 files candidate →
      EndsWithSnapshot sha256 (files.write (.rename candidate)) candidate :=
    fun files h => ⟨h.based, h.token⟩
  unfold projectionWrites snapshotTaken structuralSnapshot
  dsimp only
  rw [hname, ProjectFiles.writeAll_append, ProjectFiles.writeAll_append]
  refine ⟨rfl, ?_⟩
  cases structuralSnapshotDue sha256 replayed candidate with
  | true =>
    rw [if_pos rfl, Bool.true_or, if_pos rfl]
    have hstructural : EndsWithSnapshot sha256 (appended.write (.append (snapshotEvent sha256 clock
        appended candidate (js "savePlan_structural_projection")))) candidate :=
      endsWithSnapshot_write hcandidate hidentity' _
    refine hrename _ ?_
    unfold intervalSnapshot
    split_ifs
    · exact endsWithSnapshot_write hcandidate hstructural.identity _
    · exact hstructural
  | false =>
    rw [if_neg Bool.false_ne_true, Bool.false_or, ProjectFiles.writeAll_nil, intervalSnapshot]
    split_ifs
    · exact hrename _ (endsWithSnapshot_write hcandidate hidentity' _)
    · rfl

/-- The first event of the appended ledger carries the plan's identity. -/
theorem SaveTrace.identity
    (h : SaveTrace sha256 clock files plan options prepared inputs appended replayed) :
    ∀ first ∈ appended.events.head?,
      first.planId = derivePlanId (validatedPlan files plan options) := by
  intro first hfirst
  obtain ⟨hevents, -⟩ := prepared.writeAll_map_append (appendedEvents sha256 clock prepared
    (computePlanLedgerHash sha256 (validatedPlan files plan options)) inputs)
  rw [h.appends, hevents] at hfirst
  cases hprepared : prepared.events with
  | nil =>
    rw [hprepared, List.nil_append] at hfirst
    obtain ⟨⟨input, hinput, hplanId, -⟩, -, -⟩ := mem_appendedEvents (List.mem_of_mem_head? hfirst)
    rw [hplanId]
    exact (mem_diffInputs h.differs hinput).1
  | cons head rest =>
    rw [hprepared, List.cons_append] at hfirst
    exact h.prepares.identity first (by rw [hprepared]; exact hfirst)

theorem savePlan_eq_ok {files' : ProjectFiles}
    (h : savePlan sha256 clock files plan options = .ok files') :
    ∃ recorded prepared inputs replayed, ledgerWrites sha256 clock files plan options = .ok recorded
      ∧ SaveTrace sha256 clock files plan options prepared inputs (files.writeAll recorded) replayed
      ∧ files'.planJson = some (projectionCandidate (files.writeAll recorded)
          (validatedPlan files plan options) replayed)
      ∧ if snapshotTaken sha256 clock (files.writeAll recorded) (validatedPlan files plan options)
          options replayed then
          EndsWithSnapshot sha256 files' (projectionCandidate (files.writeAll recorded)
            (validatedPlan files plan options) replayed)
        else files'.events = (files.writeAll recorded).events := by
  unfold savePlan at h
  cases hwrites : savePlanWrites sha256 clock files plan options with
  | error err =>
    rw [hwrites] at h
    cases h
  | ok writes =>
    rw [hwrites] at h
    cases h
    obtain ⟨hplan, recorded, replayed, hrecorded, hreplayed, rfl⟩ := savePlanWrites_eq_ok hwrites
    obtain ⟨prepared, inputs, htrace⟩ :=
      exists_saveTrace (validatedPlan_wellFormed files options hplan) hrecorded hreplayed
    refine ⟨recorded, prepared, inputs, replayed, hrecorded, htrace, ?_⟩
    rw [ProjectFiles.writeAll_append]
    exact writeAll_projectionWrites htrace.wellFormed htrace.identity

end Stages

/-! ## Small project files -/

/-- A phase in progress around a task in progress. -/
def threeTaskPlan (first third : TaskStatus) : Plan :=
  derivePhaseStatuses (onePhasePlan
    [plainTask "1.1" first, plainTask "1.2" .inProgress, plainTask "1.3" third])

def sampleClock : SaveClock where
  timestamp := fun seq => [UInt16.ofNat seq]
  planEpoch := js "e"

/-- Files as a first save leaves them. -/
def savedFiles (plan : Plan) : ProjectFiles where
  ledger := some [planCreatedRoot id sampleClock plan (js "initLedger")]
  planJson := some plan

theorem basedOn_savedFiles {plan : Plan} (hplan : plan.wellFormed = true) :
    BasedOn (savedFiles plan) plan := basedOn_root hplan _ _

end OpencodeSwarm
