/-
  OpencodeSwarm.Dispatch.SpawnEpisode

  What a key's breaker lets through, over whole runs.  `Episode` is the state of
  the circuit after any number of steps since it opened, together with the
  admissions and denials among them.
-/
import OpencodeSwarm.Dispatch.SpawnBreaker

namespace OpencodeSwarm

open Js Transition

/-! ## Checks and their answers -/

/-- The step is a check of `key` that lets the dispatch through. -/
def admits (key : SpawnKey) (circuits : SpawnCircuits) : SpawnStep → Bool
  | .check checked limits now =>
      checked = key && (assertDispatchSpawnCircuitAdmits circuits checked limits now).2.isNone
  | .failure .. => false
  | .success _ => false

/-- The step is a check of `key` that throws. -/
def denies (key : SpawnKey) (circuits : SpawnCircuits) : SpawnStep → Bool
  | .check checked limits now =>
      checked = key && (assertDispatchSpawnCircuitAdmits circuits checked limits now).2.isSome
  | .failure .. => false
  | .success _ => false

/-- How many steps of a run meet `p`, a property of the map before the step and the step. -/
def countSteps (p : SpawnCircuits → SpawnStep → Bool) : SpawnCircuits → List SpawnStep → Nat
  | _, [] => 0
  | circuits, step :: rest =>
      (if p circuits step then 1 else 0) + countSteps p (spawnNext circuits step) rest

theorem countSteps_snoc (p : SpawnCircuits → SpawnStep → Bool) (circuits : SpawnCircuits)
    (steps : List SpawnStep) (step : SpawnStep) :
    countSteps p circuits (steps ++ [step]) = countSteps p circuits steps
        + if p (steps.foldl spawnNext circuits) step then 1 else 0 := by
  induction steps generalizing circuits with
  | nil =>
    show (if p circuits step then 1 else 0) + 0 = 0 + _
    rw [Nat.add_zero, Nat.zero_add]
    rfl
  | cons first rest ih =>
    show _ + countSteps p (spawnNext circuits first) (rest ++ [step]) = _ + countSteps p _ rest + _
    rw [ih, Nat.add_assoc]
    rfl

variable {step : SpawnStep}

theorem answers_of_other {key : SpawnKey} (circuits : SpawnCircuits) (h : step.key ≠ key) :
    admits key circuits step = false ∧ denies key circuits step = false := by
  cases step with
  | failure other limits now | success other => exact ⟨rfl, rfl⟩
  | check other limits now =>
    have hne : decide (other = key) = false := decide_eq_false h
    show (decide (other = key) && _) = false ∧ (decide (other = key) && _) = false
    rw [hne]
    exact ⟨rfl, rfl⟩

section Check

variable (key : SpawnKey) (circuits : SpawnCircuits) (limits : SpawnLimits) (now : Int)

theorem admits_check : admits key circuits (.check key limits now)
    = (assertDispatchSpawnCircuitAdmits circuits key limits now).2.isNone := by
  show (decide (key = key) && _) = _
  rw [decide_eq_true rfl, Bool.true_and]

theorem denies_check : denies key circuits (.check key limits now)
    = (assertDispatchSpawnCircuitAdmits circuits key limits now).2.isSome := by
  show (decide (key = key) && _) = _
  rw [decide_eq_true rfl, Bool.true_and]

end Check

theorem check_cases {key : SpawnKey} {circuits : SpawnCircuits} (limits : SpawnLimits) (now : Int)
    {entry : SpawnCircuitEntry} (hentry : circuits.get? (entryKey key) = some entry) :
    (entry.state = .CLOSED ∧ admits key circuits (.check key limits now) = true
        ∧ denies key circuits (.check key limits now) = false ∧ checkedEntry entry now = entry)
      ∨ (entry.state = .OPEN ∧ (now < entry.denyUntil ∨ entry.denialsInEpisode = 0)
        ∧ admits key circuits (.check key limits now) = false
        ∧ denies key circuits (.check key limits now) = true ∧ checkedEntry entry now = { entry with
              state := .OPEN
              denialsInEpisode := entry.denialsInEpisode + 1
              updatedAt := now })
      ∨ (entry.state = .OPEN ∧ ¬ (now < entry.denyUntil ∨ entry.denialsInEpisode = 0)
        ∧ admits key circuits (.check key limits now) = true
        ∧ denies key circuits (.check key limits now) = false
        ∧ checkedEntry entry now = { entry with state := .HALF_OPEN, updatedAt := now })
      ∨ (entry.state = .HALF_OPEN ∧ admits key circuits (.check key limits now) = false
        ∧ denies key circuits (.check key limits now) = true ∧ checkedEntry entry now = entry) := by
  rw [admits_check, denies_check]
  unfold assertDispatchSpawnCircuitAdmits checkedEntry
  rw [hentry]
  dsimp only
  cases hstate : entry.state with
  | CLOSED => exact Or.inl ⟨rfl, rfl, rfl, rfl⟩
  | OPEN =>
    dsimp only
    by_cases hdenied : now < entry.denyUntil ∨ entry.denialsInEpisode = 0
    · rw [if_pos hdenied, if_pos hdenied]
      exact Or.inr (Or.inl ⟨rfl, hdenied, rfl, rfl, rfl⟩)
    · rw [if_neg hdenied, if_neg hdenied]
      exact Or.inr (Or.inr (Or.inl ⟨rfl, hdenied, rfl, rfl, rfl⟩))
  | HALF_OPEN => exact Or.inr (Or.inr (Or.inr ⟨rfl, rfl, rfl, rfl⟩))

/-! ## Below the threshold -/

theorem denies_of_closed {key : SpawnKey} {circuits : SpawnCircuits} (step : SpawnStep)
    (h : spawnStateOf (circuits.get? (entryKey key)) = .CLOSED) :
    denies key circuits step = false := by
  by_cases hkey : step.key = key
  · cases step with
    | failure other limits now => rfl
    | success other => rfl
    | check other limits now =>
      obtain rfl : other = key := hkey
      cases hentry : circuits.get? (entryKey other) with
      | none =>
        rw [denies_check]
        rw [assertDispatchSpawnCircuitAdmits, hentry]
        rfl
      | some entry =>
        rw [hentry] at h
        have hstate : entry.state = .CLOSED := h
        obtain ⟨-, -, hdeny, -⟩ | ⟨hopen, -⟩ | ⟨hopen, -⟩ | ⟨hhalf, -⟩ :=
          check_cases limits now hentry
        · exact hdeny
        · exact absurd (hopen.symm.trans hstate) (by decide)
        · exact absurd (hopen.symm.trans hstate) (by decide)
        · exact absurd (hhalf.symm.trans hstate) (by decide)
  · exact (answers_of_other circuits hkey).2

/-- The failures of `key` since its last success. -/
def failuresOf (key : SpawnKey) (steps : List SpawnStep) : Nat :=
  steps.foldl
    (fun failures step =>
      if step.key = key then
        match step with
        | .failure .. => failures + 1
        | .check .. => failures
        | .success _ => 0
      else failures) 0

/-- Since the last success of `key`, some failure was the last that its threshold allows. -/
def ReachedThreshold (key : SpawnKey) (steps : List SpawnStep) : Prop :=
  ∃ (front : List SpawnStep) (limits : SpawnLimits) (now : Int) (back : List SpawnStep),
    steps = front ++ .failure key limits now :: back
      ∧ (∀ step ∈ back, step ≠ .success key)
      ∧ max 1 limits.threshold ≤ failuresOf key (front ++ [.failure key limits now])

/-- The entry of `key` counts its failures, and is not closed only after enough of them. -/
structure Counts (key : SpawnKey) (steps : List SpawnStep)
    (entry : Option SpawnCircuitEntry) : Prop where
  count : failureCountOf entry = failuresOf key steps
  reached : spawnStateOf entry ≠ .CLOSED → ReachedThreshold key steps

section Failures

variable (key : SpawnKey) (steps : List SpawnStep) (limits : SpawnLimits) (now : Int)

theorem failuresOf_failure :
    failuresOf key (steps ++ [.failure key limits now]) = failuresOf key steps + 1 := by
  rw [failuresOf, List.foldl_append]
  exact if_pos rfl

theorem failuresOf_check :
    failuresOf key (steps ++ [.check key limits now]) = failuresOf key steps := by
  rw [failuresOf, List.foldl_append]
  exact if_pos rfl

theorem failuresOf_success : failuresOf key (steps ++ [.success key]) = 0 := by
  rw [failuresOf, List.foldl_append]
  exact if_pos rfl

theorem failuresOf_other {step : SpawnStep} (h : step.key ≠ key) :
    failuresOf key (steps ++ [step]) = failuresOf key steps := by
  rw [failuresOf, List.foldl_append]
  exact if_neg h

end Failures

theorem ReachedThreshold.snoc {key : SpawnKey} {steps : List SpawnStep} {step : SpawnStep}
    (h : ReachedThreshold key steps) (hstep : step ≠ .success key) :
    ReachedThreshold key (steps ++ [step]) := by
  obtain ⟨front, limits, now, back, hsteps, hback, hthreshold⟩ := h
  refine ⟨front, limits, now, back ++ [step], by rw [hsteps]; simp, ?_, hthreshold⟩
  intro other hother
  rcases List.mem_append.mp hother with hold | hnew
  · exact hback other hold
  · rw [List.mem_singleton.mp hnew]
    exact hstep

theorem checkedEntry_closed (entry : Option SpawnCircuitEntry) (now : Int) :
    let after := entry.map fun entry => checkedEntry entry now
    failureCountOf after = failureCountOf entry
      ∧ (spawnStateOf entry = .CLOSED → spawnStateOf after = .CLOSED) := by
  cases entry with
  | none => exact ⟨rfl, id⟩
  | some entry =>
    show (checkedEntry entry now).failureCount = entry.failureCount
      ∧ (entry.state = .CLOSED → (checkedEntry entry now).state = .CLOSED)
    unfold checkedEntry
    cases hstate : entry.state with
    | CLOSED => exact ⟨rfl, fun _ => hstate⟩
    | OPEN =>
      dsimp only
      refine ⟨?_, fun hclosed => (nomatch hclosed)⟩
      split
      · rfl
      · rfl
    | HALF_OPEN => exact ⟨rfl, fun hclosed => (nomatch hclosed)⟩

theorem Counts.snoc {key : SpawnKey} {steps : List SpawnStep} {circuits : SpawnCircuits}
    {step : SpawnStep} (hquiet : EvictsNothing circuits step)
    (h : Counts key steps (circuits.get? (entryKey key))) :
    Counts key (steps ++ [step]) ((spawnNext circuits step).get? (entryKey key)) := by
  by_cases hkey : step.key = key
  · have hentry := get?_spawnNext_self hquiet
    rw [hkey] at hentry
    rw [hentry]
    generalize circuits.get? (entryKey key) = entry at h
    cases step with
    | failure other limits now =>
      obtain rfl : other = key := hkey
      have hcount := failuresOf_failure other steps limits now
      constructor
      · show (failedEntry entry other limits now).1.failureCount = _
        rw [failureCount_failedEntry, h.count, hcount]
      · intro hopen
        obtain ⟨hcause, -⟩ | ⟨-, -, hclosed⟩ | ⟨old, hold, hstate, -⟩ :=
          failedEntry_cases entry other limits now
        · rcases hcause with hhalf | ⟨-, hthreshold⟩
          · exact (h.reached (by rw [hhalf]; decide)).snoc (by simp)
          · refine ⟨steps, limits, now, [], rfl, fun _ hmem => (nomatch hmem), ?_⟩
            rw [hcount, ← h.count]
            exact_mod_cast hthreshold
        · exact absurd hclosed hopen
        · have hentry : spawnStateOf entry = .OPEN := by rw [hold]; exact hstate
          exact (h.reached (by rw [hentry]; decide)).snoc (by simp)
    | check other limits now =>
      obtain rfl : other = key := hkey
      have hsame := checkedEntry_closed entry now
      constructor
      · exact hsame.1.trans (h.count.trans (failuresOf_check other steps limits now).symm)
      · intro hopen
        exact (h.reached (mt hsame.2 hopen)).snoc (by simp)
    | success other =>
      obtain rfl : other = key := hkey
      constructor
      · exact (failuresOf_success other steps).symm
      · intro hopen
        exact absurd rfl hopen
  · rw [get?_spawnNext_other hquiet hkey]
    constructor
    · rw [failuresOf_other key steps hkey]
      exact h.count
    · intro hopen
      refine (h.reached hopen).snoc ?_
      rintro rfl
      exact hkey rfl

theorem counts_circuitsAfter (key : SpawnKey) {steps : List SpawnStep}
    (h : Along spawnNext EvictsNothing [] steps) :
    Counts key steps ((circuitsAfter steps).get? (entryKey key)) := by
  induction steps using List.reverseRecOn with
  | nil => exact ⟨rfl, fun hopen => absurd rfl hopen⟩
  | append_singleton front step ih =>
    obtain ⟨hfront, hlast⟩ := along_append.mp h
    have hnext := (ih hfront).snoc hlast.1
    unfold circuitsAfter at hnext ⊢
    rwa [List.foldl_append]

/-! ## From an opening on -/

/-- The step is a failure that turns the circuit of `key` open, to deny until `coolDownEnd`. -/
def OpensUntil (key : SpawnKey) (circuits : SpawnCircuits) (step : SpawnStep)
    (coolDownEnd : Int) : Prop :=
  ∃ limits now, step = .failure key limits now
    ∧ spawnStateOf (circuits.get? (entryKey key)) ≠ .OPEN
    ∧ spawnStateOf ((spawnNext circuits step).get? (entryKey key)) = .OPEN
    ∧ coolDownEnd = now + max 1 limits.halfOpenAfterMs

/-- The step is a success of `key`, or a failure of it while its circuit is half-open. -/
def EndsEpisode (key : SpawnKey) (circuits : SpawnCircuits) (step : SpawnStep) : Prop :=
  step = .success key
    ∨ (∃ limits now, step = .failure key limits now)
      ∧ spawnStateOf (circuits.get? (entryKey key)) = .HALF_OPEN

/-- After `steps` since the circuit opened: it still denies, or its probe is on the way. -/
def Episode (key : SpawnKey) (coolDownEnd : Int) (opened : SpawnCircuits)
    (steps : List SpawnStep) : Prop :=
  ∃ entry, (steps.foldl spawnNext opened).get? (entryKey key) = some entry
    ∧ ((entry.state = .OPEN ∧ entry.denyUntil = coolDownEnd
          ∧ entry.denialsInEpisode = countSteps (denies key) opened steps
          ∧ countSteps (admits key) opened steps = 0)
        ∨ (entry.state = .HALF_OPEN ∧ countSteps (admits key) opened steps = 1
          ∧ 0 < countSteps (denies key) opened steps))

variable {coolDownEnd : Int}

theorem Episode.of_opensUntil {key : SpawnKey} {circuits : SpawnCircuits}
    (hquiet : EvictsNothing circuits step) (h : OpensUntil key circuits step coolDownEnd) :
    Episode key coolDownEnd (spawnNext circuits step) [] := by
  obtain ⟨limits, now, rfl, hbefore, hafter, rfl⟩ := h
  have hentry := get?_spawnNext_self hquiet
  have hself : (spawnNext circuits (.failure key limits now)).get? (entryKey key)
      = some (failedEntry (circuits.get? (entryKey key)) key limits now).1 := hentry
  rw [hself] at hafter
  refine ⟨_, hself, Or.inl ?_⟩
  obtain ⟨-, hstate, huntil, hdenials⟩ | ⟨-, -, hclosed⟩ | ⟨old, hold, hopen, -⟩ :=
    failedEntry_cases (circuits.get? (entryKey key)) key limits now
  · exact ⟨hstate, huntil, hdenials, rfl⟩
  · exact absurd (hclosed.symm.trans hafter) (by decide)
  · rw [hold] at hbefore
    exact absurd hopen hbefore

theorem Episode.snoc {key : SpawnKey} {coolDownEnd : Int} {opened : SpawnCircuits}
    {steps : List SpawnStep} {step : SpawnStep} (h : Episode key coolDownEnd opened steps)
    (hquiet : EvictsNothing (steps.foldl spawnNext opened) step)
    (hstays : ¬ EndsEpisode key (steps.foldl spawnNext opened) step) :
    Episode key coolDownEnd opened (steps ++ [step]) := by
  obtain ⟨entry, hentry, hphase⟩ := h
  rw [Episode, countSteps_snoc, countSteps_snoc, List.foldl_append]
  show ∃ entry, (spawnNext (steps.foldl spawnNext opened) step).get? (entryKey key) = some entry
    ∧ _
  generalize steps.foldl spawnNext opened = circuits at *
  by_cases hkey : step.key = key
  · have hafter := get?_spawnNext_self hquiet
    rw [hkey, hentry] at hafter
    cases step with
    | failure other limits now =>
      obtain rfl : other = key := hkey
      refine ⟨_, hafter, ?_⟩
      rcases hphase with ⟨hstate, huntil, hdenials, hadmits⟩ | ⟨hstate, -⟩
      · -- a failure of an earlier dispatch changes nothing but the count
        obtain ⟨hcause, -⟩ | ⟨hclosed, -⟩ | ⟨old, hold, -, hopen, hsame, hsameDenials⟩ :=
          failedEntry_cases (some entry) other limits now
        · have hopen : spawnStateOf (some entry) = .OPEN := hstate
          rw [hopen] at hcause
          rcases hcause with hhalf | ⟨hclosed, -⟩
          · cases hhalf
          · cases hclosed
        · have hopen : spawnStateOf (some entry) = .OPEN := hstate
          rw [hopen] at hclosed
          cases hclosed
        · cases hold
          exact Or.inl ⟨hopen, hsame.trans huntil, hsameDenials.trans hdenials, hadmits⟩
      · refine absurd (Or.inr ⟨⟨limits, now, rfl⟩, ?_⟩) hstays
        rw [hentry]
        exact hstate
    | check other limits now =>
      obtain rfl : other = key := hkey
      refine ⟨checkedEntry entry now, hafter, ?_⟩
      obtain ⟨hclosed, -⟩ | ⟨hopen, -, hadmitted, hdeny, hchecked⟩
          | ⟨hopen, hpast, hadmitted, hdeny, hchecked⟩ | ⟨hhalf, hadmitted, hdeny, hchecked⟩ :=
        check_cases limits now hentry
      · rcases hphase with ⟨hstate, -⟩ | ⟨hstate, -⟩
        · exact absurd (hclosed.symm.trans hstate) (by decide)
        · exact absurd (hclosed.symm.trans hstate) (by decide)
      · rcases hphase with ⟨-, huntil, hdenials, hadmits⟩ | ⟨hstate, -⟩
        · rw [hchecked, hadmitted, hdeny]
          exact Or.inl ⟨rfl, huntil, congrArg (· + 1) hdenials, hadmits⟩
        · exact absurd (hopen.symm.trans hstate) (by decide)
      · rcases hphase with ⟨-, huntil, hdenials, hadmits⟩ | ⟨hstate, -⟩
        · rw [hchecked, hadmitted, hdeny, hadmits]
          refine Or.inr ⟨rfl, rfl, ?_⟩
          show 0 < countSteps (denies other) opened steps + 0
          omega
        · exact absurd (hopen.symm.trans hstate) (by decide)
      · rcases hphase with ⟨hstate, -⟩ | ⟨-, hadmits, hdenials⟩
        · exact absurd (hhalf.symm.trans hstate) (by decide)
        · rw [hchecked, hadmitted, hdeny]
          exact Or.inr ⟨hhalf, hadmits, Nat.lt_succ_of_lt hdenials⟩
    | success other =>
      obtain rfl : other = key := hkey
      exact absurd (Or.inl rfl) hstays
  · obtain ⟨hadmitted, hdeny⟩ := answers_of_other circuits hkey
    rw [get?_spawnNext_other hquiet hkey, hadmitted, hdeny]
    exact ⟨entry, hentry, hphase⟩

/-- Which failures open the circuit. -/
theorem opensUntil_iff {key : SpawnKey} {steps : List SpawnStep} {limits : SpawnLimits} {now : Int}
    (hquiet : EvictsNothing (circuitsAfter steps) (.failure key limits now))
    (hcounts : Counts key steps ((circuitsAfter steps).get? (entryKey key))) :
    OpensUntil key (circuitsAfter steps) (.failure key limits now)
        (now + max 1 limits.halfOpenAfterMs)
      ↔ spawnStateOf ((circuitsAfter steps).get? (entryKey key)) = .HALF_OPEN
        ∨ spawnStateOf ((circuitsAfter steps).get? (entryKey key)) = .CLOSED
          ∧ max 1 limits.threshold ≤ failuresOf key (steps ++ [.failure key limits now]) := by
  have hself : (spawnNext (circuitsAfter steps) (.failure key limits now)).get? (entryKey key)
      = some (failedEntry ((circuitsAfter steps).get? (entryKey key)) key limits now).1 :=
    get?_spawnNext_self hquiet
  rw [failuresOf_failure, ← hcounts.count, Nat.cast_add, Nat.cast_one]
  constructor
  · rintro ⟨limits', now', hstep, hbefore, hafter, -⟩
    cases hstep
    rw [hself] at hafter
    obtain ⟨hcause, -⟩ | ⟨-, -, hclosed⟩ | ⟨old, hold, hopen, -⟩ :=
      failedEntry_cases ((circuitsAfter steps).get? (entryKey key)) key limits now
    · exact hcause
    · exact absurd (hclosed.symm.trans hafter) (by decide)
    · rw [hold] at hbefore
      exact absurd hopen hbefore
  · intro hcause
    obtain ⟨hbefore, hstate, -⟩ | ⟨hclosed, hbelow, -⟩ | ⟨old, hold, hopen, -⟩ :=
      failedEntry_cases ((circuitsAfter steps).get? (entryKey key)) key limits now
    · refine ⟨limits, now, rfl, ?_, ?_, rfl⟩
      · rcases hbefore with hhalf | ⟨hclosed, -⟩
        · rw [hhalf]
          decide
        · rw [hclosed]
          decide
      · rw [hself]
        exact hstate
    · rcases hcause with hhalf | ⟨-, hreached⟩
      · exact absurd (hhalf.symm.trans hclosed) (by decide)
      · exact absurd hreached hbelow
    · rw [hold] at hcause
      have hstate : spawnStateOf (some old) = .OPEN := hopen
      rw [hstate] at hcause
      rcases hcause with hhalf | ⟨hclosed, -⟩
      · cases hhalf
      · cases hclosed

variable {opened : SpawnCircuits}

theorem episode_of_along {key : SpawnKey} (hopened : Episode key coolDownEnd opened [])
    {steps : List SpawnStep} (hquiet : Along spawnNext EvictsNothing opened steps)
    (hstays : Along spawnNext (fun circuits step => ¬ EndsEpisode key circuits step) opened steps) :
    Episode key coolDownEnd opened steps := by
  induction steps using List.reverseRecOn with
  | nil => exact hopened
  | append_singleton front step ih =>
    obtain ⟨hquiet, hlast⟩ := along_append.mp hquiet
    obtain ⟨hstays, hends⟩ := along_append.mp hstays
    exact (ih hquiet hstays).snoc hlast.1 hends.1

theorem Episode.denied_of_admits {key : SpawnKey} {steps : List SpawnStep}
    (h : Episode key coolDownEnd opened steps)
    (hadmits : admits key (steps.foldl spawnNext opened) step = true) :
    0 < countSteps (denies key) opened steps := by
  obtain ⟨entry, hentry, hphase⟩ := h
  cases step with
  | failure other limits now => cases hadmits
  | success other => cases hadmits
  | check other limits now =>
    by_cases hkey : other = key
    · subst hkey
      rcases hphase with ⟨hopen, -, hdenials, -⟩ | ⟨-, -, hdenied⟩
      · obtain ⟨hclosed, -⟩ | ⟨-, -, hadmitted, -⟩ | ⟨-, hpast, -⟩ | ⟨hhalf, -⟩ :=
          check_cases limits now hentry
        · exact absurd (hclosed.symm.trans hopen) (by decide)
        · exact absurd (hadmitted.symm.trans hadmits) (by decide)
        · omega
        · exact absurd (hhalf.symm.trans hopen) (by decide)
      · exact hdenied
    · have hne : (SpawnStep.check other limits now).key ≠ key := hkey
      rw [(answers_of_other _ hne).1] at hadmits
      cases hadmits

theorem Episode.denies_of_lt {key : SpawnKey} {steps : List SpawnStep}
    (h : Episode key coolDownEnd opened steps) (limits : SpawnLimits) {now : Int}
    (hnow : now < coolDownEnd) :
    denies key (steps.foldl spawnNext opened) (.check key limits now) = true := by
  obtain ⟨entry, hentry, hphase⟩ := h
  obtain ⟨hclosed, -⟩ | ⟨-, -, -, hdeny, -⟩ | ⟨hopen, hpast, -⟩ | ⟨-, -, hdeny, -⟩ :=
    check_cases limits now hentry
  · rcases hphase with ⟨hopen, -⟩ | ⟨hhalf, -⟩
    · exact absurd (hclosed.symm.trans hopen) (by decide)
    · exact absurd (hclosed.symm.trans hhalf) (by decide)
  · exact hdeny
  · rcases hphase with ⟨-, huntil, -⟩ | ⟨hhalf, -⟩
    · rw [huntil] at hpast
      exact absurd (Or.inl hnow) hpast
    · exact absurd (hopen.symm.trans hhalf) (by decide)
  · exact hdeny

/-! ## The breaker of a key -/

/-- What the callers of one key see of a run. -/
structure BreaksAlone (key : SpawnKey) (steps : List SpawnStep) : Prop where
  /-- The answers are those of a process that makes the steps of this key only. -/
  isolated : ∀ before step after, steps = before ++ step :: after → step.key = key →
    (spawnStep (circuitsAfter before) step).2
      = (spawnStep (circuitsAfter (before.filter fun step => step.key = key)) step).2
  /-- Below the threshold no check is denied. -/
  threshold : ∀ before step after, steps = before ++ step :: after →
    denies key (circuitsAfter before) step = true → ReachedThreshold key before
  /-- A failure opens the circuit when it is the probe's, or the last that the threshold
      allows; every other failure leaves it closed or open. -/
  opening : ∀ before limits now after, steps = before ++ .failure key limits now :: after →
    (OpensUntil key (circuitsAfter before) (.failure key limits now)
        (now + max 1 limits.halfOpenAfterMs)
      ↔ spawnStateOf ((circuitsAfter before).get? (entryKey key)) = .HALF_OPEN
        ∨ spawnStateOf ((circuitsAfter before).get? (entryKey key)) = .CLOSED
          ∧ max 1 limits.threshold ≤ failuresOf key (before ++ [.failure key limits now]))
  /-- From an opening to the next success or half-open failure: one admission at most, after a
      denial, and none before the cool-down ends. -/
  probe : ∀ before opening coolDownEnd between after,
    steps = before ++ opening :: (between ++ after) →
    OpensUntil key (circuitsAfter before) opening coolDownEnd →
    Along spawnNext (fun circuits step => ¬ EndsEpisode key circuits step)
      (circuitsAfter (before ++ [opening])) between →
    countSteps (admits key) (circuitsAfter (before ++ [opening])) between ≤ 1
      ∧ ∀ front step back, between = front ++ step :: back →
          (admits key (circuitsAfter (before ++ opening :: front)) step = true →
            0 < countSteps (denies key) (circuitsAfter (before ++ [opening])) front)
          ∧ ∀ limits now, step = .check key limits now → now < coolDownEnd →
              denies key (circuitsAfter (before ++ opening :: front)) step = true

/-- Every key is a breaker of its own, in every run that evicts nothing. -/
theorem breaksAlone_of_along {steps : List SpawnStep}
    (h : Along spawnNext EvictsNothing [] steps) (key : SpawnKey) : BreaksAlone key steps where
  isolated := by
    rintro before step after rfl rfl
    obtain ⟨hbefore, -⟩ := along_append.mp h
    exact spawnAnswer_congr (get?_foldl_own hbefore (Or.inl rfl) rfl)
  threshold := by
    rintro before step after rfl hdenied
    obtain ⟨hbefore, -⟩ := along_append.mp h
    have hcounts := counts_circuitsAfter key hbefore
    refine hcounts.reached fun hclosed => ?_
    rw [denies_of_closed step hclosed] at hdenied
    cases hdenied
  opening := by
    rintro before limits now after rfl
    obtain ⟨hbefore, hquiet, -⟩ := along_append.mp h
    exact opensUntil_iff hquiet (counts_circuitsAfter key hbefore)
  probe := by
    rintro before opening coolDownEnd between after rfl hopens hstays
    obtain ⟨hbefore, hopening, hrest⟩ := along_append.mp h
    obtain ⟨hbetween, -⟩ := along_append.mp hrest
    have hopened : circuitsAfter (before ++ [opening])
        = spawnNext (before.foldl spawnNext []) opening := by
      rw [circuitsAfter, List.foldl_append]
      rfl
    have hstart := Episode.of_opensUntil hopening hopens
    rw [← hopened] at hbetween
    have hepisode : ∀ front back, between = front ++ back →
        Episode key coolDownEnd (circuitsAfter (before ++ [opening])) front := by
      rintro front back rfl
      refine episode_of_along ?_ (along_append.mp hbetween).1 (along_append.mp hstays).1
      rw [hopened]
      exact hstart
    constructor
    · obtain ⟨entry, -, ⟨-, -, -, hadmits⟩ | ⟨-, hadmits, -⟩⟩ :=
        hepisode between [] (List.append_nil _).symm
      · omega
      · omega
    · intro front step back hsplit
      have hat : circuitsAfter (before ++ opening :: front)
          = front.foldl spawnNext (circuitsAfter (before ++ [opening])) := by
        unfold circuitsAfter
        rw [← List.foldl_append, List.append_assoc]
        rfl
      have hepisode := hepisode front (step :: back) hsplit
      rw [hat]
      constructor
      · intro hadmitted
        exact hepisode.denied_of_admits hadmitted
      · rintro limits now rfl hearly
        exact hepisode.denies_of_lt limits hearly

/-- The key of a digest of the session `s`, outside any invocation. -/
def demoKey (digest : CodeUnit) (h : nul ∉ [digest]) : SpawnKey :=
  spawnKeyFor [0x73] none [digest] h

/-- Two failures of one action open its circuit while another action goes on; a check is denied,
    the next is the probe, and its failure opens the circuit again. -/
def demoSteps : List SpawnStep :=
  let key := demoKey 0x61 (by decide)
  let other := demoKey 0x62 (by decide)
  let limits : SpawnLimits := { threshold := 2, halfOpenAfterMs := 1000 }
  [.check key limits 0, .failure key limits 10, .failure other limits 15, .failure key limits 20,
    .check key limits 30, .check other limits 40, .check key limits 1020, .check key limits 1030,
    .failure key limits 1040, .success other, .check key limits 1050]

/-- The second failure opens the circuit until 1020, the check at 30 is denied, and the one
    at 1020 is the probe. -/
theorem breaksAlone_demoSteps :
    let key := demoKey 0x61 (by decide)
    BreaksAlone key demoSteps
      ∧ OpensUntil key (circuitsAfter (demoSteps.take 3))
        (.failure key { threshold := 2, halfOpenAfterMs := 1000 } 20) 1020
      ∧ denies key (circuitsAfter (demoSteps.take 4))
        (.check key { threshold := 2, halfOpenAfterMs := 1000 } 30) = true
      ∧ admits key (circuitsAfter (demoSteps.take 6))
        (.check key { threshold := 2, halfOpenAfterMs := 1000 } 1020) = true := by
  refine ⟨breaksAlone_of_along (by decide +kernel) _, ⟨_, _, rfl, ?_, ?_, by decide⟩, ?_, ?_⟩
  · decide +kernel
  · decide +kernel
  · decide +kernel
  · decide +kernel

end OpencodeSwarm
