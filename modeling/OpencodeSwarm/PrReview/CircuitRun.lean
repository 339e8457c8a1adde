/-
  OpencodeSwarm.PrReview.CircuitRun

  Runs of the circuit.  The three writers share one record; what each may do to
  its state, its generation and its evidence is one step lemma for each writer,
  and a run from an adopted record keeps the probe with HALF_OPEN.
-/
import OpencodeSwarm.PrReview.Circuit

namespace OpencodeSwarm

open Js

/-! ## What the scan yields -/

/-- The identity of a lane. -/
def ProviderTerminal.lane (signal : ProviderTerminal) : JsString × JsString :=
  (signal.batchId, signal.laneId)

/-- The loop invariant of the deduplication. -/
structure LatestEvidence (signals : List CircuitSignal) (generation : Nat)
    (waterlineMs : Option Int) (byKey : OrderedMap JsString ProviderTerminal) : Prop where
  keyed : ∀ binding ∈ byKey, binding.1 = laneKey generation binding.2
  evidence : ∀ binding ∈ byKey, CircuitSignal.providerTerminal binding.2 ∈ signals
    ∧ contributes waterlineMs binding.2 = true
  distinct : byKey.keys.Nodup

section Scan

variable {signals : List CircuitSignal} {generation : Nat} {waterlineMs : Option Int}
  {byKey : OrderedMap JsString ProviderTerminal}

theorem LatestEvidence.set {signal : ProviderTerminal}
    (h : LatestEvidence signals generation waterlineMs byKey)
    (hmem : CircuitSignal.providerTerminal signal ∈ signals)
    (hcontributes : contributes waterlineMs signal = true) :
    LatestEvidence signals generation waterlineMs
      (byKey.set (laneKey generation signal) signal) := by
  refine ⟨?_, ?_, OrderedMap.nodup_keys_set h.distinct⟩
  · intro binding hbinding
    rcases OrderedMap.mem_set hbinding with rfl | hold
    · rfl
    · exact h.keyed binding hold
  · intro binding hbinding
    rcases OrderedMap.mem_set hbinding with rfl | hold
    · exact ⟨hmem, hcontributes⟩
    · exact h.evidence binding hold

theorem LatestEvidence.recordLatest {signal : CircuitSignal}
    (h : LatestEvidence signals generation waterlineMs byKey) (hmem : signal ∈ signals) :
    LatestEvidence signals generation waterlineMs
      (OpencodeSwarm.recordLatest generation waterlineMs byKey signal) := by
  cases signal with
  | ignored reason => exact h
  | providerTerminal signal =>
    simp only [OpencodeSwarm.recordLatest]
    split
    · rename_i hcontributes
      split
      · exact h.set hmem hcontributes
      split
      · exact h.set hmem hcontributes
      · exact h
    · exact h

theorem latestEvidence_foldl {rest : List CircuitSignal}
    (h : LatestEvidence signals generation waterlineMs byKey) (hrest : ∀ s ∈ rest, s ∈ signals) :
    LatestEvidence signals generation waterlineMs
      (rest.foldl (recordLatest generation waterlineMs) byKey) := by
  induction rest generalizing byKey with
  | nil => exact h
  | cons signal rest ih =>
    apply ih (h.recordLatest (hrest signal List.mem_cons_self))
    intro s hs
    exact hrest s (List.mem_cons_of_mem _ hs)

theorem LatestEvidence.nodup_lanes (h : LatestEvidence signals generation waterlineMs byKey) :
    (byKey.values.map ProviderTerminal.lane).Nodup := by
  have hkeys : byKey.keys = (byKey.values.map ProviderTerminal.lane).map
      fun lane => decimal generation ++ 0 :: (lane.1 ++ 0 :: lane.2) := by
    rw [OrderedMap.keys, OrderedMap.values, List.map_map, List.map_map]
    exact List.map_congr_left h.keyed
  have hdistinct := h.distinct
  rw [hkeys] at hdistinct
  exact hdistinct.of_map

variable {entry : JsString × List ProviderTerminal}

theorem sublist_of_mem_groupSignal {ordered : List ProviderTerminal}
    (h : entry ∈ ordered.foldl groupSignal []) :
    entry.2.Sublist (ordered.filter fun signal => signal.providerClass == entry.1) := by
  induction ordered using List.reverseRecOn generalizing entry with
  | nil => cases h
  | append_singleton ordered last ih =>
    rw [List.foldl_concat] at h
    rw [List.filter_append]
    rcases OrderedMap.mem_set h with rfl | hold
    · have hlist : (((ordered.foldl groupSignal []).get? last.providerClass).getD []).Sublist
          (ordered.filter fun signal => signal.providerClass == last.providerClass) := by
        cases hget : (ordered.foldl groupSignal []).get? last.providerClass with
        | none => exact List.nil_sublist _
        | some list => exact ih (OrderedMap.mem_of_get? hget)
      split
      · exact hlist.append (by simp)
      · exact hlist.trans (List.sublist_append_left _ _)
    · exact (ih hold).trans (List.sublist_append_left _ _)

/-- The spec of the scan: the lanes of a class are distinct, and each has
    evidence of that class that counts. -/
theorem scan_spec {host : Host}
    (h : entry ∈ scanPrReviewCircuitEvidence host signals generation waterlineMs) :
    (entry.2.map ProviderTerminal.lane).Nodup
      ∧ ∀ signal ∈ entry.2, CircuitSignal.providerTerminal signal ∈ signals
        ∧ signal.providerClass = entry.1 ∧ contributes waterlineMs signal = true := by
  have hlatest : LatestEvidence signals generation waterlineMs
      (signals.foldl (recordLatest generation waterlineMs) []) := by
    apply latestEvidence_foldl
    · exact ⟨fun _ h => (List.not_mem_nil h).elim, fun _ h => (List.not_mem_nil h).elim,
        List.nodup_nil⟩
    · exact fun _ hs => hs
  have hsublist := sublist_of_mem_groupSignal h
  have hperm := List.mergeSort_perm
    (OrderedMap.values (signals.foldl (recordLatest generation waterlineMs) []))
    fun left right => decide (compareEvidence host left right ≤ 0)
  constructor
  · have hnodup := (hperm.map ProviderTerminal.lane).nodup_iff.mpr hlatest.nodup_lanes
    exact hnodup.sublist ((hsublist.trans List.filter_sublist).map _)
  · intro signal hsignal
    obtain ⟨hmem, hclass⟩ := List.mem_filter.mp (hsublist.subset hsignal)
    obtain ⟨binding, hbinding, rfl⟩ := List.mem_map.mp (hperm.mem_iff.mp hmem)
    obtain ⟨hin, hcontributes⟩ := hlatest.evidence binding hbinding
    exact ⟨hin, beq_iff_eq.mp hclass, hcontributes⟩

end Scan

/-! ## The opening class -/

section Steps

variable {host : Host}

theorem betterClass_cases {threshold : Nat} {best : Option (JsString × List ProviderTerminal)}
    {entry : JsString × List ProviderTerminal} :
    (betterClass host threshold best entry = best ∧ (best = none → entry.2.length < threshold))
      ∨ (betterClass host threshold best entry = some entry ∧ threshold ≤ entry.2.length) := by
  unfold betterClass
  split
  · rename_i hfew
    exact Or.inl ⟨rfl, fun _ => hfew⟩
  · cases best with
    | none => exact Or.inr ⟨rfl, by omega⟩
    | some current =>
      dsimp only
      split
      · exact Or.inr ⟨rfl, by omega⟩
      · exact Or.inl ⟨rfl, fun hnone => by cases hnone⟩

variable {threshold : Nat} {entries : List (JsString × List ProviderTerminal)}
  {best : JsString × List ProviderTerminal}

/-- The class picked is one of the entries and reaches the threshold. -/
theorem foldl_betterClass_some (h : entries.foldl (betterClass host threshold) none = some best) :
    best ∈ entries ∧ threshold ≤ best.2.length := by
  induction entries using List.reverseRecOn generalizing best with
  | nil => cases h
  | append_singleton entries last ih =>
    rw [List.foldl_concat] at h
    rcases @betterClass_cases host threshold (entries.foldl (betterClass host threshold) none)
        last with
      ⟨hsame, -⟩ | ⟨hlast, hmany⟩
    · rw [hsame] at h
      obtain ⟨hmem, hmany⟩ := ih h
      exact ⟨List.mem_append_left _ hmem, hmany⟩
    · rw [hlast] at h
      cases h
      exact ⟨by simp, hmany⟩

theorem foldl_betterClass_none : entries.foldl (betterClass host threshold) none = none
      ↔ ∀ entry ∈ entries, entry.2.length < threshold := by
  induction entries using List.reverseRecOn with
  | nil => simp
  | append_singleton entries last ih =>
    rw [List.foldl_concat]
    rcases @betterClass_cases host threshold (entries.foldl (betterClass host threshold) none)
        last with
      ⟨hsame, hfew⟩ | ⟨hlast, hmany⟩
    · rw [hsame]
      constructor
      · intro hnone entry hentry
        rcases List.mem_append.mp hentry with hold | hnew
        · exact ih.mp hnone entry hold
        · rw [List.mem_singleton.mp hnew]
          exact hfew hnone
      · intro hall
        exact ih.mpr fun entry hentry => hall entry (List.mem_append_left _ hentry)
    · rw [hlast]
      constructor
      · intro hnone
        cases hnone
      · intro hall
        have hlt := hall last (by simp)
        omega

/-- Enough distinct lanes of one provider class failed after the waterline. -/
def OpeningEvidence (host : Host) (record : CircuitRecord) (input : AdvanceInput) : Prop :=
  ∃ (providerClass : JsString) (lanes : List ProviderTerminal),
    input.threshold ≤ lanes.length ∧ (lanes.map ProviderTerminal.lane).Nodup
      ∧ ∀ signal ∈ lanes, CircuitSignal.providerTerminal signal ∈ input.laneSignals
        ∧ signal.providerClass = providerClass
        ∧ ∀ waterline, record.waterlineMs host = some waterline → waterline < signal.terminalAtMs

variable {record : CircuitRecord} {input : AdvanceInput}

theorem openingEvidence_of_openingClass (h : openingClass host record input = some best) :
    OpeningEvidence host record input := by
  obtain ⟨hmem, hmany⟩ := foldl_betterClass_some h
  obtain ⟨hnodup, hsignals⟩ := scan_spec hmem
  refine ⟨best.1, best.2, hmany, hnodup, ?_⟩
  intro signal hsignal
  obtain ⟨hin, hclass, hcontributes⟩ := hsignals signal hsignal
  refine ⟨hin, hclass, ?_⟩
  intro waterline hwaterline
  simp only [contributes, hwaterline, Option.all_some, Bool.and_eq_true,
    decide_eq_true_eq] at hcontributes
  exact hcontributes.2

theorem openingClass_eq_none_of_ignored
    (hignored : ∀ signal, CircuitSignal.providerTerminal signal ∉ input.laneSignals) :
    openingClass host record input = none := by
  unfold openingClass scanPrReviewCircuitEvidence
  have hskip : ∀ (rest : List CircuitSignal), (∀ s ∈ rest, s ∈ input.laneSignals) →
      rest.foldl (recordLatest record.generation (record.waterlineMs host)) [] = [] := by
    intro rest hrest
    induction rest using List.reverseRecOn with
    | nil => rfl
    | append_singleton rest last ih =>
      rw [List.foldl_concat, ih fun s hs => hrest s (List.mem_append_left _ hs)]
      cases last with
      | ignored reason => rfl
      | providerTerminal signal => exact absurd (hrest _ (by simp)) (hignored signal)
  rw [hskip input.laneSignals fun _ hs => hs]
  simp [OrderedMap.values]

/-! ## One step -/

/-- The steps of the three writers. -/
inductive CircuitAction where
  | advance (input : AdvanceInput)
  | rollback (nowMs openDurationMs : Int)
  | reEnable (nowMs : Int)
  deriving DecidableEq, Repr

/-- The record after a step; none is written where nothing changed. -/
def circuitStep (host : Host) (current : Option CircuitRecord) :
    CircuitAction → Option CircuitRecord
  | .advance input => (advancePrReviewCircuit host current input).record?.or current
  | .rollback nowMs openDurationMs =>
    current.map fun circuit => rollbackPrReviewCircuitProbe host circuit nowMs openDurationMs
  | .reEnable nowMs => some (resetPrReviewResilienceForReEnable host current nowMs)

/-- The record, or the one a first step starts from. -/
def recordOf (current : Option CircuitRecord) : CircuitRecord :=
  current.getD { state := .closed, generation := 1, contributors := [] }

/-- HALF_OPEN exactly with a probe. -/
def ProbeConsistent (record : CircuitRecord) : Prop :=
  record.state = .halfOpen ↔ record.probe.isSome = true

/-- A completed probe without failure signal is observed. -/
def ClosesByProbe (record : CircuitRecord) (action : CircuitAction) : Prop :=
  ∃ input observation, action = .advance input ∧ record.state = .halfOpen
    ∧ input.probeObservation = some observation ∧ observation.healthy = true

def CircuitAction.isReEnable : CircuitAction → Prop
  | .reEnable _ => True
  | _ => False

/-- No provider failure, and no healthy completion of a probe, is observed. -/
def CircuitAction.othersOnly : CircuitAction → Prop
  | .advance input => (∀ signal, CircuitSignal.providerTerminal signal ∉ input.laneSignals)
      ∧ ∀ observation, input.probeObservation = some observation →
        observation.healthy = false
          ∧ ∀ signal, observation.signal ≠ some (.providerTerminal signal)
  | .rollback _ _ => True
  | .reEnable _ => False

/-- What a step may do. -/
structure CircuitStepSound (host : Host) (before : CircuitRecord) (action : CircuitAction)
    (after : CircuitRecord) : Prop where
  consistent : ProbeConsistent before → ProbeConsistent after
  generation : after.generation = before.generation
    ∨ (after.generation = before.generation + 1
      ∧ (ClosesByProbe before action ∨ action.isReEnable))
  opened : before.state = .closed → after.state ≠ .closed →
    ∃ input, action = .advance input ∧ OpeningEvidence host before input
  closed : before.state ≠ .closed → after.state = .closed →
    ClosesByProbe before action ∨ action.isReEnable
  others : action.othersOnly → after.contributors = before.contributors
    ∧ after.generation = before.generation
    ∧ after.evidenceWaterline = before.evidenceWaterline

theorem CircuitStepSound.unchanged (record : CircuitRecord) (action : CircuitAction) :
    CircuitStepSound host record action record := by
  constructor
  · exact fun h => h
  · exact Or.inl rfl
  · exact fun hclosed hleft => absurd hclosed hleft
  · exact fun hleft hclosed => absurd hclosed hleft
  · exact fun _ => ⟨rfl, rfl, rfl⟩

/-- Back to OPEN from HALF_OPEN, whatever becomes of the contributors. -/
theorem CircuitStepSound.reopened {action : CircuitAction} {nowMs openDurationMs : Int}
    {contributors : List CircuitContributor} (hhalf : record.state = .halfOpen)
    (hothers : action.othersOnly → contributors = record.contributors) :
    CircuitStepSound host record action
      { OpencodeSwarm.reopened host record nowMs openDurationMs with
        contributors := contributors } := by
  constructor
  · intro _
    constructor
    · intro hstate
      cases hstate
    · intro hprobe
      cases hprobe
  · exact Or.inl rfl
  · intro hclosed
    rw [hhalf] at hclosed
    cases hclosed
  · intro _ hclosed
    cases hclosed
  · exact fun h => ⟨hothers h, rfl, rfl⟩

theorem CircuitStepSound.advanceClosed {record : CircuitRecord} {input : AdvanceInput}
    (hstate : record.state = .closed) :
    CircuitStepSound host record (.advance input)
      ((advanceClosed host record input).record?.getD record) := by
  unfold OpencodeSwarm.advanceClosed
  cases hclass : openingClass host record input with
  | none => exact CircuitStepSound.unchanged record _
  | some best =>
    have hevidence := openingEvidence_of_openingClass hclass
    constructor
    · intro hconsistent
      constructor
      · intro hopen
        cases hopen
      · intro hprobe
        rw [hconsistent.mpr hprobe] at hstate
        cases hstate
    · exact Or.inl rfl
    · exact fun _ _ => ⟨input, rfl, hevidence⟩
    · exact fun hleft => absurd hstate hleft
    · intro hothers
      rw [openingClass_eq_none_of_ignored hothers.1] at hclass
      cases hclass

theorem CircuitStepSound.advanceOpen {record : CircuitRecord} {input : AdvanceInput}
    (hstate : record.state = .open) :
    CircuitStepSound host record (.advance input)
      ((advanceOpen host record input).record?.getD record) := by
  unfold OpencodeSwarm.advanceOpen
  split
  · exact CircuitStepSound.unchanged record _
  split
  · exact CircuitStepSound.unchanged record _
  constructor
  · exact fun _ => ⟨fun _ => rfl, fun _ => rfl⟩
  · exact Or.inl rfl
  · intro hclosed
    rw [hstate] at hclosed
    cases hclosed
  · intro _ hclosed
    cases hclosed
  · exact fun _ => ⟨rfl, rfl, rfl⟩

theorem CircuitStepSound.advanceHalfOpen {record : CircuitRecord} {input : AdvanceInput}
    (hstate : record.state = .halfOpen) :
    CircuitStepSound host record (.advance input)
      ((advanceHalfOpen host record input).record?.getD record) := by
  unfold OpencodeSwarm.advanceHalfOpen
  split
  · exact CircuitStepSound.unchanged record _
  cases hobservation : input.probeObservation with
  | none =>
    dsimp only
    split
    · exact CircuitStepSound.unchanged record _
    · exact CircuitStepSound.unchanged record _
  | some observation =>
    dsimp only
    split
    · rename_i signal hsignal
      apply CircuitStepSound.reopened hstate
      intro hothers
      exact absurd hsignal ((hothers.2 observation hobservation).2 signal)
    · split
      · rename_i hhealthy
        have hcloses : ClosesByProbe record (.advance input) :=
          ⟨input, observation, rfl, hstate, hobservation, hhealthy⟩
        constructor
        · intro _
          constructor
          · intro hhalf
            cases hhalf
          · intro hprobe
            cases hprobe
        · exact Or.inr ⟨rfl, Or.inl hcloses⟩
        · intro hclosed
          rw [hstate] at hclosed
          cases hclosed
        · exact fun _ _ => Or.inl hcloses
        · intro hothers
          rw [(hothers.2 observation hobservation).1] at hhealthy
          cases hhealthy
      · exact CircuitStepSound.reopened hstate fun _ => rfl

theorem circuitStep_sound (current : Option CircuitRecord) (action : CircuitAction) :
    CircuitStepSound host (recordOf current) action
      (recordOf (circuitStep host current action)) := by
  cases action with
  | advance input =>
    have hrecord : recordOf (circuitStep host current (.advance input))
        = (advancePrReviewCircuit host (some (recordOf current)) input).record?.getD
          (recordOf current) := by
      cases current with
      | none =>
        show ((advancePrReviewCircuit host none input).record?.or none).getD _ = _
        rw [Option.or_none]
        rfl
      | some record =>
        show ((advancePrReviewCircuit host (some record) input).record?.or (some record)).getD _
          = (advancePrReviewCircuit host (some record) input).record?.getD record
        cases (advancePrReviewCircuit host (some record) input).record? <;> rfl
    rw [hrecord]
    unfold advancePrReviewCircuit
    cases hstate : (recordOf current).state with
    | closed =>
      simp only [Option.getD_some, hstate]
      exact CircuitStepSound.advanceClosed hstate
    | «open» =>
      simp only [Option.getD_some, hstate]
      exact CircuitStepSound.advanceOpen hstate
    | halfOpen =>
      simp only [Option.getD_some, hstate]
      exact CircuitStepSound.advanceHalfOpen hstate
  | rollback nowMs openDurationMs =>
    cases current with
    | none => exact CircuitStepSound.unchanged _ _
    | some record =>
      show CircuitStepSound host record _
        (rollbackPrReviewCircuitProbe host record nowMs openDurationMs)
      unfold rollbackPrReviewCircuitProbe
      split
      · rename_i hprobing
        exact CircuitStepSound.reopened hprobing.1 fun _ => rfl
      · exact CircuitStepSound.unchanged _ _
  | reEnable nowMs =>
    constructor
    · intro _
      constructor
      · intro hhalf
        cases hhalf
      · intro hprobe
        cases hprobe
    · refine Or.inr ⟨?_, Or.inr trivial⟩
      cases current <;> rfl
    · intro _ hleft
      exact absurd rfl hleft
    · exact fun _ _ => Or.inr trivial
    · intro hothers
      exact hothers.elim

/-! ## Runs -/

/-- The record after a sequence of steps. -/
def circuitAfter (host : Host) (start : Option CircuitRecord) (actions : List CircuitAction) :
    Option CircuitRecord :=
  actions.foldl (circuitStep host) start

/-- In every state reached the probe is there exactly with HALF_OPEN, and every
    step from there is sound. -/
def CircuitInvariant (host : Host) (start : Option CircuitRecord) : Prop :=
  ∀ actions, ProbeConsistent (recordOf (circuitAfter host start actions))
    ∧ ∀ action, CircuitStepSound host (recordOf (circuitAfter host start actions)) action
      (recordOf (circuitAfter host start (actions ++ [action])))

theorem circuitInvariant_of_consistent {start : Option CircuitRecord}
    (hstart : ProbeConsistent (recordOf start)) : CircuitInvariant host start := by
  intro actions
  constructor
  · induction actions using List.reverseRecOn with
    | nil => exact hstart
    | append_singleton actions last ih =>
      rw [circuitAfter, List.foldl_concat]
      exact (circuitStep_sound _ last).consistent ih
  · intro action
    rw [circuitAfter, circuitAfter, List.foldl_concat]
    exact circuitStep_sound _ action

theorem probeConsistent_freshRecord (nowMs : Int) (withWaterline : Bool) :
    ProbeConsistent (freshRecord host nowMs withWaterline) := by
  constructor
  · intro hhalf
    cases hhalf
  · intro hprobe
    cases hprobe

/-- From an adopted record the invariant holds along every run exactly when the
    record, if it was a version-2 one, is HALF_OPEN exactly with a probe. -/
theorem circuitInvariant_adopted_iff (host : Host) (raw : Option CircuitField) (nowMs : Int) :
    CircuitInvariant host (adoptPrReviewCircuit host raw nowMs).record?
      ↔ ∀ record, raw = some (.v2 record) → record.wellFormed = true → ProbeConsistent record := by
  constructor
  · rintro hinvariant record rfl hwellFormed
    have hstart := (hinvariant []).1
    simp only [adoptPrReviewCircuit, hwellFormed, if_true] at hstart
    exact hstart
  · intro hv2
    apply circuitInvariant_of_consistent
    unfold adoptPrReviewCircuit
    split
    · exact @probeConsistent_freshRecord host 0 false
    · exact @probeConsistent_freshRecord host 0 false
    · split
      · rename_i record hwellFormed
        exact hv2 record rfl hwellFormed
      · exact @probeConsistent_freshRecord host 0 false
    · split
      · exact probeConsistent_freshRecord nowMs true
      · exact @probeConsistent_freshRecord host 0 false
    · exact @probeConsistent_freshRecord host 0 false

/-- A record the schema accepts: HALF_OPEN, and no probe. -/
def halfOpenWithoutProbe : CircuitRecord where
  state := .halfOpen
  generation := 1
  contributors := []

/-- A host at the first second of the epoch. -/
def epochHost : Host where
  toISOString := fun _ => js "1970-01-01T00:00:01.000Z"
  dateParse := fun text => if text = js "1970-01-01T00:00:01.000Z" then some 1000 else none
  localeCompare := fun a b => if a = b then 0 else if codeUnitLe a b then -1 else 1

/-- The schema lets it in, and every later advance blocks on a probe that is not
    there. -/
theorem adopted_halfOpen_without_probe :
    (adoptPrReviewCircuit epochHost (some (.v2 halfOpenWithoutProbe)) 1000).record?
        = some halfOpenWithoutProbe ∧ ¬ CircuitInvariant epochHost (some halfOpenWithoutProbe)
      ∧ ∀ input, advancePrReviewCircuit epochHost (some halfOpenWithoutProbe) input
        = .block .probeInFlight none := by
  refine ⟨rfl, fun hinvariant => ?_, fun input => rfl⟩
  have hprobe := (hinvariant []).1.mp rfl
  cases hprobe

end Steps

end OpencodeSwarm
