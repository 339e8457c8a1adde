/-
  OpencodeSwarm.PrReview.ProbeAdmission

  Whom a HALF_OPEN circuit lets through.  The recorded probe may ask again, but
  the machine knows it by its batch alone: another lane of that batch is let
  through as well.  A run admits the probe only exactly when no such lane asks.
-/
import OpencodeSwarm.Lib.Transition
import OpencodeSwarm.PrReview.CircuitRun

namespace OpencodeSwarm

open Js Transition

variable {host : Host}

/-! ## The property -/

def AdvanceResult.isAdmitAsProbe : AdvanceResult → Bool
  | .admitAsProbe _ => true
  | .admitted _ => false
  | .block .. => false

/-- The advance lets a dispatch through as the probe. -/
def LetsThrough (host : Host) (current : Option CircuitRecord) (input : AdvanceInput) : Prop :=
  (advancePrReviewCircuit host current input).isAdmitAsProbe = true

instance (current : Option CircuitRecord) (input : AdvanceInput) :
    Decidable (LetsThrough host current input) :=
  inferInstanceAs (Decidable (_ = _))

def HalfOpenAt (current : Option CircuitRecord) : Prop := (recordOf current).state = .halfOpen

/-- A run from `start` that lets only its probe through. -/
structure AdmitsOnlyItsProbe (host : Host) (start : Option CircuitRecord)
    (actions : List CircuitAction) : Prop where
  /-- Whoever a HALF_OPEN circuit lets through has the batch and the lane of its probe. -/
  probe : ∀ before input after, actions = before ++ .advance input :: after →
    HalfOpenAt (circuitAfter host start before) →
    LetsThrough host (circuitAfter host start before) input →
    ∃ probe, (recordOf (circuitAfter host start before)).probe = some probe
      ∧ input.admission = some (probe.batchId, probe.laneId)
  /-- From the advance that ends an OPEN state on, as long as the circuit stays HALF_OPEN, nobody
      else is let through. -/
  episode : ∀ before first between input after,
    actions = before ++ .advance first :: (between ++ .advance input :: after) →
    (recordOf (circuitAfter host start before)).state = .open →
    LetsThrough host (circuitAfter host start before) first →
    Along (circuitStep host) (fun current _ => HalfOpenAt current)
      (circuitAfter host start (before ++ [.advance first])) (between ++ [.advance input]) →
    LetsThrough host (circuitAfter host start (before ++ .advance first :: between)) input →
    input.admission = first.admission

/-- No other lane of the probe's batch asks a HALF_OPEN circuit, except with an observation of
    the probe, which the machine looks at first. -/
def AsksAsProbe (current : Option CircuitRecord) : CircuitAction → Prop
  | .advance input =>
      HalfOpenAt current → input.probeObservation = none →
        ∀ probe, (recordOf current).probe = some probe →
          ∀ admission, input.admission = some admission →
            admission.1 = probe.batchId → admission.2 = probe.laneId
  | .rollback .. => True
  | .reEnable _ => True

/-! ## One step -/

theorem advance_eq_recordOf (current : Option CircuitRecord) (input : AdvanceInput)
    (h : HalfOpenAt current) :
    advancePrReviewCircuit host current input = advanceHalfOpen host (recordOf current) input := by
  cases current with
  | none => cases h
  | some record =>
    have hstate : record.state = .halfOpen := h
    unfold advancePrReviewCircuit
    dsimp only [Option.getD_some]
    rw [hstate]
    rfl

variable {current : Option CircuitRecord} {input : AdvanceInput}

/-- A HALF_OPEN circuit lets through whoever shares the batch of its probe. -/
theorem letsThrough_halfOpen_iff (h : HalfOpenAt current) : LetsThrough host current input
      ↔ ∃ probe, (recordOf current).probe = some probe ∧ input.probeObservation = none
          ∧ ∃ admission, input.admission = some admission ∧ admission.1 = probe.batchId := by
  rw [LetsThrough, advance_eq_recordOf current input h]
  unfold advanceHalfOpen
  cases hprobe : (recordOf current).probe with
  | none =>
    constructor
    · intro hadmitted
      cases hadmitted
    · rintro ⟨probe, hsome, -⟩
      cases hsome
  | some probe =>
    cases hobservation : input.probeObservation with
    | none =>
      dsimp only
      cases hadmission : input.admission with
      | none =>
        constructor
        · intro hadmitted
          cases hadmitted
        · rintro ⟨_, -, -, admission, hsome, -⟩
          cases hsome
      | some admission =>
        rw [Option.any_some]
        by_cases hbatch : admission.1 = probe.batchId
        · rw [if_pos (beq_iff_eq.mpr hbatch)]
          exact ⟨fun _ => ⟨probe, rfl, rfl, admission, rfl, hbatch⟩, fun _ => rfl⟩
        · rw [if_neg fun heq => hbatch (beq_iff_eq.mp heq)]
          constructor
          · intro hadmitted
            cases hadmitted
          · rintro ⟨other, hother, -, asked, hasked, heq⟩
            cases hother
            cases hasked
            exact absurd heq hbatch
    | some observation =>
      constructor
      · intro hadmitted
        dsimp only at hadmitted
        split at hadmitted
        · cases hadmitted
        split at hadmitted
        · cases hadmitted
        · cases hadmitted
      · rintro ⟨_, -, hnone, -⟩
        cases hnone

theorem asksAsProbe_iff : AsksAsProbe current (.advance input)
      ↔ (HalfOpenAt current → LetsThrough host current input →
          ∃ probe, (recordOf current).probe = some probe
            ∧ input.admission = some (probe.batchId, probe.laneId)) := by
  constructor
  · intro hasks hhalf hlets
    obtain ⟨probe, hprobe, hobservation, admission, hadmission, hbatch⟩ :=
      (letsThrough_halfOpen_iff hhalf).mp hlets
    have hlane := hasks hhalf hobservation probe hprobe admission hadmission hbatch
    refine ⟨probe, hprobe, ?_⟩
    rw [hadmission, ← hbatch, ← hlane]
  · intro hproperty hhalf hobservation probe hprobe admission hadmission hbatch
    have hlets : LetsThrough host current input := (letsThrough_halfOpen_iff hhalf).mpr
      ⟨probe, hprobe, hobservation, admission, hadmission, hbatch⟩
    obtain ⟨other, hother, heq⟩ := hproperty hhalf hlets
    rw [hprobe] at hother
    cases hother
    rw [hadmission] at heq
    exact congrArg Prod.snd (Option.some.inj heq)

theorem recordOf_of_staysHalfOpen {action : CircuitAction} (h : HalfOpenAt current)
    (hafter : HalfOpenAt (circuitStep host current action)) :
    recordOf (circuitStep host current action) = recordOf current := by
  cases current with
  | none => cases h
  | some record =>
    cases action with
    | reEnable nowMs => cases hafter
    | rollback nowMs openDurationMs =>
      have hstep : circuitStep host (some record) (.rollback nowMs openDurationMs)
          = some (rollbackPrReviewCircuitProbe host record nowMs openDurationMs) := rfl
      rw [hstep] at hafter ⊢
      unfold rollbackPrReviewCircuitProbe at hafter ⊢
      split at hafter
      · cases hafter
      · next hprobe => rw [if_neg hprobe]
    | advance input =>
      have hstep : circuitStep host (some record) (.advance input)
          = (advanceHalfOpen host record input).record?.or (some record) := by
        show (advancePrReviewCircuit host (some record) input).record?.or (some record) = _
        rw [advance_eq_recordOf (some record) input h]
        rfl
      rw [hstep] at hafter ⊢
      unfold advanceHalfOpen at hafter ⊢
      split
      · rfl
      rename_i probe hprobe
      rw [hprobe] at hafter
      split
      · split
        · rfl
        · rfl
      · next observation hobservation =>
        rw [hobservation] at hafter
        dsimp only at hafter
        split at hafter
        · cases hafter
        split at hafter
        · cases hafter
        · cases hafter

theorem recordOf_of_along {between : List CircuitAction} {last : CircuitAction}
    (h : Along (circuitStep host) (fun current _ => HalfOpenAt current) current (between ++ [last]))
    : recordOf (between.foldl (circuitStep host) current) = recordOf current
      ∧ HalfOpenAt (between.foldl (circuitStep host) current) := by
  induction between generalizing current with
  | nil => exact ⟨rfl, h.1⟩
  | cons action between ih =>
    obtain ⟨hnow, hrest⟩ := h
    obtain ⟨hrecord, hlast⟩ := ih hrest
    have hafter : HalfOpenAt (circuitStep host current action) := by
      unfold HalfOpenAt at hlast ⊢
      rwa [← hrecord]
    exact ⟨hrecord.trans (recordOf_of_staysHalfOpen hnow hafter), hlast⟩

/-- The advance that ends an OPEN state records the asking lane as the probe. -/
theorem probe_of_open (hopen : (recordOf current).state = .open)
    (hlets : LetsThrough host current input) :
    ∃ probe, (recordOf (circuitStep host current (.advance input))).probe = some probe
      ∧ input.admission = some (probe.batchId, probe.laneId) := by
  cases current with
  | none => cases hopen
  | some record =>
    have hstate : record.state = .open := hopen
    have hadvance : advancePrReviewCircuit host (some record) input
        = advanceOpen host record input := by
      unfold advancePrReviewCircuit
      dsimp only [Option.getD_some]
      rw [hstate]
    show ∃ probe, (recordOf ((advancePrReviewCircuit host (some record) input).record?.or
      (some record))).probe = some probe ∧ _
    unfold LetsThrough at hlets
    rw [hadvance] at hlets ⊢
    unfold advanceOpen at hlets ⊢
    split at hlets
    · cases hlets
    rename_i hpast
    rw [if_neg hpast]
    cases hadmission : input.admission with
    | none =>
      rw [hadmission] at hlets
      cases hlets
    | some admission => exact ⟨_, rfl, rfl⟩

/-! ## Runs -/

/-- A run admits its probes only exactly when nobody asks in the probe's place. -/
theorem admitsOnlyItsProbe_iff (host : Host) (start : Option CircuitRecord)
    (actions : List CircuitAction) :
    AdmitsOnlyItsProbe host start actions ↔ Along (circuitStep host) AsksAsProbe start actions := by
  constructor
  · intro h
    refine along_of_splits fun before action after hsplit => ?_
    cases action with
    | advance input => exact asksAsProbe_iff.mpr (h.probe before input after hsplit)
    | rollback nowMs openDurationMs | reEnable nowMs => exact trivial
  · intro h
    have hprobe : ∀ before input after, actions = before ++ .advance input :: after →
        HalfOpenAt (circuitAfter host start before) →
        LetsThrough host (circuitAfter host start before) input →
        ∃ probe, (recordOf (circuitAfter host start before)).probe = some probe
          ∧ input.admission = some (probe.batchId, probe.laneId) := by
      rintro before input after rfl
      exact asksAsProbe_iff.mp (along_append.mp h).2.1
    refine ⟨hprobe, ?_⟩
    rintro before first between input after rfl hopen hfirst hstays hlets
    have hat : circuitAfter host start (before ++ .advance first :: between)
        = between.foldl (circuitStep host)
          (circuitAfter host start (before ++ [.advance first])) := by
      unfold circuitAfter
      rw [← List.foldl_append, List.append_assoc]
      rfl
    have hopened : circuitAfter host start (before ++ [.advance first])
        = circuitStep host (circuitAfter host start before) (.advance first) := by
      rw [circuitAfter, List.foldl_append]
      rfl
    obtain ⟨hrecord, hhalf⟩ := recordOf_of_along hstays
    rw [← hat] at hrecord hhalf
    obtain ⟨probe, hrecorded, hadmission⟩ := hprobe (before ++ .advance first :: between) input
      after (by simp) hhalf hlets
    obtain ⟨opener, hopener, hasked⟩ := probe_of_open hopen hfirst
    rw [hrecord, hopened, hopener] at hrecorded
    cases hrecorded
    rw [hadmission, hasked]

/-- An OPEN circuit at the end of its interval. -/
def cooledCircuit : CircuitRecord where
  state := .open
  generation := 1
  contributors := []
  openedAt := some (js "1970-01-01T00:00:01.000Z")
  openUntil := some (js "1970-01-01T00:00:01.000Z")

/-- A lane of the batch asks at the second second of the epoch. -/
def askAs (laneId : JsString) : AdvanceInput where
  nowMs := 2000
  threshold := 2
  openDurationMs := 60000
  admission := some (js "b1", laneId)
  laneSignals := []

/-- Two lanes of one batch are let through after one OPEN state. -/
theorem not_admitsOnlyItsProbe_secondLane :
    ¬ AdmitsOnlyItsProbe epochHost (some cooledCircuit)
      [.advance (askAs (js "l1")), .advance (askAs (js "l2"))] := by
  intro h
  have hfirst : circuitStep epochHost (some cooledCircuit) (.advance (askAs (js "l1")))
      = some { cooledCircuit with
          state := .halfOpen
          probe := some ⟨js "b1", js "l1", epochHost.toISOString 2000⟩ } := by
    decide +kernel
  obtain ⟨probe, hprobe, hadmission⟩ := h.probe [.advance (askAs (js "l1"))] (askAs (js "l2")) []
    rfl (congrArg (fun current => (recordOf current).state) hfirst) (by decide +kernel)
  have hrecorded : (recordOf (circuitStep epochHost (some cooledCircuit)
      (.advance (askAs (js "l1"))))).probe = some probe := hprobe
  cases hrecorded
  exact absurd hadmission (by decide)

end OpencodeSwarm
