/-
  OpencodeSwarm.PrReview.Persisted

  The reducer against the store.  The gate writes a returned state exactly when
  the effects ask for it; a migration of a legacy circuit that opens nothing
  changes the state and asks for no write.
-/
import OpencodeSwarm.PrReview.Reducer

namespace OpencodeSwarm

open Js

variable {host : Host}

/-! ## Events other than an advance -/

/-- An applied event keeps the state or asks for a write. -/
def KeepsOrPersists (state : PrReviewWorkflowState) (result : PrReviewReduceResult) : Prop :=
  ∀ next effects, result = .applied next effects →
    next = state ∨ PrReviewEffect.persistState ∈ effects

theorem KeepsOrPersists.same (state : PrReviewWorkflowState) (effects : List PrReviewEffect) :
    KeepsOrPersists state (.applied state effects) := by
  intro next effects' h
  cases h
  exact Or.inl rfl

theorem KeepsOrPersists.persisted (state next : PrReviewWorkflowState) :
    KeepsOrPersists state (.applied next [.persistState]) := by
  intro next' effects h
  cases h
  exact Or.inr List.mem_cons_self

theorem KeepsOrPersists.rejected (state : PrReviewWorkflowState) (code : RejectionCode)
    (detail : JsString) : KeepsOrPersists state (.rejected state code detail) := by
  intro next effects h
  cases h

theorem KeepsOrPersists.threw (state : PrReviewWorkflowState) :
    KeepsOrPersists state .threw := by
  intro next effects h
  cases h

variable {state : PrReviewWorkflowState}

/-- Only an advance can change the state without asking for a write. -/
theorem keepsOrPersists_of_not_advance {event : PrReviewEvent}
    (hevent : ∀ request, event ≠ .circuitAdvanceRequested request) :
    KeepsOrPersists state (reducePrReviewEvent host state event) := by
  cases event with
  | baseAdmissionRequested batchId lanes maxBatches validatedAt =>
    simp only [reducePrReviewEvent]
    split
    · exact KeepsOrPersists.rejected _ _ _
    · exact KeepsOrPersists.persisted _ _
  | baseAdmissionRolledBack batchId batchDelegationRecordsExist =>
    simp only [reducePrReviewEvent]
    split
    · exact KeepsOrPersists.rejected _ _ _
    split
    · exact KeepsOrPersists.rejected _ _ _
    · exact KeepsOrPersists.persisted _ _
  | collectionObserved diagnostic boundedDetail => exact KeepsOrPersists.same _ _
  | laneStructuredResultSubmitted batchId laneId generation digest outcome existing =>
    simp only [reducePrReviewEvent]
    split
    · exact KeepsOrPersists.rejected _ _ _
    cases existing with
    | none =>
      dsimp only
      split
      · exact KeepsOrPersists.same _ _
      · exact KeepsOrPersists.same _ _
    | some existing =>
      dsimp only
      split
      · exact KeepsOrPersists.same _ _
      · exact KeepsOrPersists.rejected _ _ _
  | circuitAdvanceRequested request => exact absurd rfl (hevent request)
  | circuitProbeSettled outcome nowMs policy =>
    simp only [reducePrReviewEvent]
    cases circuitRecordOf state with
    | typeError => exact KeepsOrPersists.threw _
    | none => exact KeepsOrPersists.same _ _
    | record circuit | unchecked fields =>
      dsimp only
      split
      · exact KeepsOrPersists.persisted _ _
      · exact KeepsOrPersists.same _ _
  | resilienceConfigChanged enabled policy nowMs =>
    simp only [reducePrReviewEvent]
    split
    · cases circuitRecordOf state with
      | typeError => exact KeepsOrPersists.threw _
      | none | record circuit | unchecked fields => exact KeepsOrPersists.persisted _ _
    · cases state.prReviewResilience with
      | none => exact KeepsOrPersists.same _ _
      | some slice =>
        dsimp only
        split
        · exact KeepsOrPersists.persisted _ _
        · exact KeepsOrPersists.same _ _
  | coverageFinalizationRequested kind liveDimensions requestedVerdict disclosedDegradation =>
    simp only [reducePrReviewEvent]
    cases coverageRejection kind liveDimensions requestedVerdict disclosedDegradation with
    | none => exact KeepsOrPersists.same _ _
    | some rejection => exact KeepsOrPersists.rejected _ _ _
  | criticResultRecorded criticRequiredFindingIds settledFindingIds =>
    simp only [reducePrReviewEvent]
    split
    · exact KeepsOrPersists.rejected _ _ _
    · exact KeepsOrPersists.same _ _
  | armedRecoveryRequested binding dimensionsToCancel nowIso reason =>
    simp only [reducePrReviewEvent]
    cases bindingRejection state binding with
    | none => exact KeepsOrPersists.persisted _ _
    | some detail => exact KeepsOrPersists.rejected _ _ _
  | unknown type => exact KeepsOrPersists.rejected _ _ _

/-! ## An advance -/

/-- The event is an advance, and the state it gives carries an admitted probe. -/
def AdmitsProbe (event : PrReviewEvent) (next : PrReviewWorkflowState) : Prop :=
  (∃ request, event = .circuitAdvanceRequested request)
    ∧ ∃ record, circuitFieldOf next = some (.v2 record) ∧ record.state = .halfOpen
      ∧ record.probe.isSome = true

/-- The store after the gate executed the effects. -/
def storedAfter (state : PrReviewWorkflowState) : PrReviewReduceResult → PrReviewWorkflowState
  | .applied next effects => if .persistState ∈ effects then next else state
  | .rejected _ _ _ | .threw => state

/-- The circuit is open, or evidence later than `nowMs` opens it. -/
def OpensOnLaterEvidence (host : Host) (record : CircuitRecord) (nowMs : Int) : Prop :=
  record.state = .open ∨ ∀ input,
    (∃ entry ∈ scanPrReviewCircuitEvidence host input.laneSignals record.generation (some nowMs),
      input.threshold ≤ entry.2.length) →
    ∃ opened, (advancePrReviewCircuit host (some record) input).record? = some opened
      ∧ opened.state = .open

/-- Nothing is lost: a changed state is persisted or is an admitted probe, and
    a legacy circuit leaves the store as a version-2 record that later evidence
    can open. -/
structure TransitionKept (host : Host) (state : PrReviewWorkflowState) (event : PrReviewEvent) :
    Prop where
  kept : ∀ next effects, reducePrReviewEvent host state event = .applied next effects →
    next = state ∨ PrReviewEffect.persistState ∈ effects ∨ AdmitsProbe event next
  migrated : ∀ legacy request, circuitFieldOf state = some (.legacy legacy) →
    legacy.wellFormed = true → event = .circuitAdvanceRequested request →
    ∃ record, circuitFieldOf (storedAfter state (reducePrReviewEvent host state event))
        = some (.v2 record)
      ∧ OpensOnLaterEvidence host record request.nowMs

/-- The advance migrates a legacy circuit, and no provider class has evidence
    of enough lanes after the migration's waterline. -/
def LosesMigration (host : Host) (state : PrReviewWorkflowState) (event : PrReviewEvent) : Prop :=
  ∃ legacy request, event = .circuitAdvanceRequested request
    ∧ circuitFieldOf state = some (.legacy legacy) ∧ legacy.wellFormed = true
    ∧ ∀ entry ∈ scanPrReviewCircuitEvidence host request.laneSignals 1
        ((freshRecord host request.nowMs true).waterlineMs host),
      entry.2.length < request.policy.correlatedFailureThreshold

theorem circuitFieldOf_withCircuit {circuit old : CircuitField}
    (h : circuitFieldOf state = some old) :
    circuitFieldOf (withCircuit state circuit) = some circuit := by
  obtain ⟨slice, hslice, -⟩ := Option.bind_eq_some_iff.mp h
  simp [circuitFieldOf, withCircuit, hslice]

theorem withCircuit_withCircuit (state : PrReviewWorkflowState) (first second : CircuitField) :
    withCircuit (withCircuit state first) second = withCircuit state second := by
  cases hslice : state.prReviewResilience with
  | none | some slice => simp [withCircuit, hslice]

variable {record : CircuitRecord}

theorem admitAsProbe_spec {current : Option CircuitRecord} {input : AdvanceInput}
    (h : advancePrReviewCircuit host current input = .admitAsProbe (some record)) :
    current.isSome = true ∧ record.state = .halfOpen ∧ record.probe.isSome = true := by
  dsimp only [advancePrReviewCircuit] at h
  split at h
  · unfold advanceClosed at h
    split at h <;> cases h
  · rename_i hopen
    have hsome : current.isSome = true := by
      cases current with
      | none => cases hopen
      | some record => rfl
    unfold advanceOpen at h
    split at h
    · cases h
    split at h
    · cases h
    cases h
    exact ⟨hsome, rfl, rfl⟩
  · unfold advanceHalfOpen at h
    split at h
    · cases h
    split at h
    · split at h <;> cases h
    · split at h
      · cases h
      · split at h <;> cases h

variable {request : CircuitAdvanceRequest}

theorem reduceCircuitAdvance_kept
    (hadopted : ∀ record,
      adoptPrReviewCircuit host (circuitFieldOf state) request.nowMs ≠ .migrated record) :
    (reduceCircuitAdvance host state request).1 = state
      ∨ PrReviewEffect.persistState ∈ (reduceCircuitAdvance host state request).2
      ∨ AdmitsProbe (.circuitAdvanceRequested request)
        (reduceCircuitAdvance host state request).1 := by
  unfold reduceCircuitAdvance
  cases hadoption : adoptPrReviewCircuit host (circuitFieldOf state) request.nowMs with
  | migrated record => exact absurd hadoption (hadopted record)
  | absent | malformed | v2 =>
    dsimp only
    cases hdecision : advancePrReviewCircuit host _ request.input with
    | admitted record | block reason record =>
      cases record with
      | none => exact Or.inl rfl
      | some record => exact Or.inr (Or.inl List.mem_cons_self)
    | admitAsProbe record =>
      cases record with
      | none => exact Or.inl rfl
      | some record =>
        obtain ⟨hsome, hhalf, hprobe⟩ := admitAsProbe_spec hdecision
        refine Or.inr (Or.inr ⟨⟨request, rfl⟩, record, ?_, hhalf, hprobe⟩)
        cases hfield : circuitFieldOf state with
        | none =>
          rw [hfield] at hadoption
          cases hadoption <;> cases hsome
        | some field => exact circuitFieldOf_withCircuit hfield

/-! ## The migration -/

variable {nowMs : Int}

theorem adoptPrReviewCircuit_migrated {raw : Option CircuitField}
    (h : adoptPrReviewCircuit host raw nowMs = .migrated record) :
    ∃ legacy, raw = some (.legacy legacy) ∧ legacy.wellFormed = true
      ∧ record = freshRecord host nowMs true := by
  unfold adoptPrReviewCircuit at h
  split at h
  · cases h
  · cases h
  · split at h <;> cases h
  · rename_i legacy
    split at h
    · rename_i hwellFormed
      cases h
      exact ⟨legacy, rfl, hwellFormed, rfl⟩
    · cases h
  · cases h

variable {legacy : CircuitLegacyRecord}

theorem adoptPrReviewCircuit_legacy (hwellFormed : legacy.wellFormed = true) :
    adoptPrReviewCircuit host (some (.legacy legacy)) nowMs
      = .migrated (freshRecord host nowMs true) := by
  simp [adoptPrReviewCircuit, hwellFormed]

theorem reduceCircuitAdvance_opened {best : JsString × List ProviderTerminal}
    (hfield : circuitFieldOf state = some (.legacy legacy)) (hwellFormed : legacy.wellFormed = true)
    (hopening : openingClass host (freshRecord host request.nowMs true) request.input = some best) :
    ∃ record, record.state = .open ∧ reduceCircuitAdvance host state request
        = (withCircuit state (.v2 record), [.persistState, .blockDispatch .circuitOpen]) := by
  rw [reduceCircuitAdvance, hfield, adoptPrReviewCircuit_legacy hwellFormed]
  simp only [CircuitAdoption.record?, advancePrReviewCircuit, Option.getD_some]
  simp only [advanceClosed, hopening, AdvanceResult.record?, withCircuit_withCircuit]
  exact ⟨_, rfl, rfl⟩

theorem reduceCircuitAdvance_unopened {state : PrReviewWorkflowState}
    {request : CircuitAdvanceRequest} {legacy : CircuitLegacyRecord}
    (hfield : circuitFieldOf state = some (.legacy legacy)) (hwellFormed : legacy.wellFormed = true)
    (hopening : openingClass host (freshRecord host request.nowMs true) request.input = none) :
    reduceCircuitAdvance host state request
      = (withCircuit state (.v2 (freshRecord host request.nowMs true)), []) := by
  rw [reduceCircuitAdvance, hfield, adoptPrReviewCircuit_legacy hwellFormed]
  simp only [CircuitAdoption.record?, advancePrReviewCircuit, Option.getD_some]
  simp only [advanceClosed, hopening, AdvanceResult.record?]
  rfl

/-- No transition is lost exactly when the event is not an advance that migrates
    a legacy circuit and opens nothing. -/
theorem transitionKept_iff (host : Host) (state : PrReviewWorkflowState) (event : PrReviewEvent) :
    TransitionKept host state event ↔ ¬ LosesMigration host state event := by
  constructor
  · rintro hkept ⟨legacy, request, rfl, hfield, hwellFormed, hfew⟩
    have hopening : openingClass host (freshRecord host request.nowMs true) request.input = none :=
      foldl_betterClass_none.mpr hfew
    have hreduce := reduceCircuitAdvance_unopened hfield hwellFormed hopening
    have hnext : circuitFieldOf (withCircuit state (.v2 (freshRecord host request.nowMs true)))
        = some (.v2 (freshRecord host request.nowMs true)) := circuitFieldOf_withCircuit hfield
    have happlied : reducePrReviewEvent host state (.circuitAdvanceRequested request)
        = .applied (withCircuit state (.v2 (freshRecord host request.nowMs true))) [] := by
      simp [reducePrReviewEvent, hreduce]
    rcases hkept.kept _ _ happlied with hsame | hpersist | hprobe
    · rw [hsame, hfield] at hnext
      cases hnext
    · cases hpersist
    · obtain ⟨-, record, hrecord, hhalf, -⟩ := hprobe
      rw [hnext] at hrecord
      cases hrecord
      cases hhalf
  · intro hnot
    by_cases hadvance : ∃ request, event = .circuitAdvanceRequested request
    · obtain ⟨request, rfl⟩ := hadvance
      -- a legacy circuit opens at once, or it would be lost
      have hlegacy : ∀ legacy, circuitFieldOf state = some (.legacy legacy) →
          legacy.wellFormed = true → ∃ record, record.state = .open
            ∧ reduceCircuitAdvance host state request
              = (withCircuit state (.v2 record), [.persistState, .blockDispatch .circuitOpen]) := by
        intro legacy hfield hwellFormed
        cases hopening : openingClass host (freshRecord host request.nowMs true)
            request.input with
        | some best => exact reduceCircuitAdvance_opened hfield hwellFormed hopening
        | none =>
          exact absurd ⟨legacy, request, rfl, hfield, hwellFormed,
            foldl_betterClass_none.mp hopening⟩ hnot
      constructor
      · intro next effects happlied
        cases happlied
        by_cases hmigrated : ∃ record,
            adoptPrReviewCircuit host (circuitFieldOf state) request.nowMs = .migrated record
        · obtain ⟨record, hmigrated⟩ := hmigrated
          obtain ⟨legacy, hfield, hwellFormed, -⟩ := adoptPrReviewCircuit_migrated hmigrated
          obtain ⟨opened, -, hreduce⟩ := hlegacy legacy hfield hwellFormed
          rw [hreduce]
          exact Or.inr (Or.inl List.mem_cons_self)
        · exact reduceCircuitAdvance_kept fun record hrecord => hmigrated ⟨record, hrecord⟩
      · intro legacy request' hfield hwellFormed hrequest
        cases hrequest
        obtain ⟨opened, hopen, hreduce⟩ := hlegacy legacy hfield hwellFormed
        refine ⟨opened, ?_, Or.inl hopen⟩
        simp only [reducePrReviewEvent, hreduce, storedAfter, List.mem_cons, true_or, if_true]
        exact circuitFieldOf_withCircuit hfield
    · have hother : ∀ request, event ≠ .circuitAdvanceRequested request :=
        fun request h => hadvance ⟨request, h⟩
      constructor
      · intro next effects happlied
        have hkeeps : KeepsOrPersists state (reducePrReviewEvent host state event) :=
          keepsOrPersists_of_not_advance hother
        rcases hkeeps next effects happlied with hsame | hpersist
        · exact Or.inl hsame
        · exact Or.inr (Or.inl hpersist)
      · intro legacy request _ _ hrequest
        exact absurd hrequest (hother request)

/-! ## The lost migration -/

/-- A legacy circuit of two lanes. -/
def legacyCircuit : CircuitLegacyRecord where
  signature := js "rate_limit"
  count := 2
  contributors := [(js "b1", js "l1"), (js "b1", js "l2")]
  openedAt := js "2026-01-01T00:00:00.000Z"

def policyOfTwo : ResiliencePolicy where
  enabled := true
  canaryProbeMs := 300000
  statusProbeTimeoutMs := 2000
  correlatedFailureThreshold := 2
  maxRetryAttemptsAfterInitial := 2

def legacyState : PrReviewWorkflowState where
  sessionID := js "s"
  workflowInstanceId := none
  revision := 0
  prHeadSha := none
  prReviewBaseDispatches := none
  prReviewBaseDispatch := none
  prReviewResilience := some ⟨policyOfTwo, [], some (.legacy legacyCircuit)⟩
  prReviewDimensionCancellations := none

/-- An advance at `nowMs` with these lane signals. -/
def advanceAt (nowMs : Int) (laneSignals : List CircuitSignal) : PrReviewEvent :=
  .circuitAdvanceRequested ⟨nowMs, laneSignals, none, none, policyOfTwo⟩

/-- The migration changes the state, asks for no write, and stays to be done. -/
theorem migration_not_persisted :
    ¬ TransitionKept epochHost legacyState (advanceAt 1000 [])
      ∧ storedAfter legacyState (reducePrReviewEvent epochHost legacyState (advanceAt 1000 []))
        = legacyState := by
  have hreduce := @reduceCircuitAdvance_unopened epochHost legacyState
    ⟨1000, [], none, none, policyOfTwo⟩ legacyCircuit rfl (by decide)
    (by simp [openingClass, scanPrReviewCircuitEvidence, CircuitAdvanceRequest.input,
      OrderedMap.values])
  have happlied : reducePrReviewEvent epochHost legacyState (advanceAt 1000 [])
      = .applied (withCircuit legacyState (.v2 (freshRecord epochHost 1000 true))) [] := by
    simp [advanceAt, reducePrReviewEvent, hreduce]
  constructor
  · intro hkept
    obtain ⟨record, hrecord, -⟩ := hkept.migrated legacyCircuit _ rfl (by decide) rfl
    rw [happlied] at hrecord
    cases hrecord
  · rw [happlied]
    rfl

end OpencodeSwarm
