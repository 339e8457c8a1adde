/-
  OpencodeSwarm.Background.CircuitBreaker

  `CircuitBreaker` (`src/background/circuit-breaker.ts`).  Calls overlap: `execute`
  looks at the state when it begins, and the outcome of its call is recorded
  whenever that settles, by then perhaps in another state.  A history interleaves
  beginnings, outcomes, looks and resets in any order.
-/
import Mathlib.Algebra.Order.Ring.Rat
import Mathlib.Data.List.Basic
import Mathlib.Data.List.Induction
import Mathlib.Tactic.Linarith

namespace OpencodeSwarm

/-! ## The class -/

inductive CircuitBreakerState where
  | closed
  | opened
  | halfOpen
  deriving DecidableEq

structure CircuitBreakerConfig where
  failureThreshold : ℚ := 5
  resetTimeoutMs : ℚ := 30000
  successThreshold : ℚ := 3

structure CircuitBreaker where
  state : CircuitBreakerState := .closed
  failureCount : Nat := 0
  successCount : Nat := 0
  lastFailureTime : Option ℚ := none
  deriving DecidableEq

def CircuitBreaker.transitionTo (breaker : CircuitBreaker) : CircuitBreakerState → CircuitBreaker
  | .closed => { breaker with state := .closed, failureCount := 0, successCount := 0 }
  | .opened => { breaker with state := .opened, successCount := 0 }
  | .halfOpen => { breaker with state := .halfOpen, successCount := 0 }

section Methods

variable (config : CircuitBreakerConfig)

/-- The last failure is long enough ago.  One at time zero reads as none. -/
def CircuitBreaker.resetDue (breaker : CircuitBreaker) (now : ℚ) : Bool :=
  match breaker.lastFailureTime with
  | none => false
  | some time => decide (time ≠ 0 ∧ config.resetTimeoutMs ≤ now - time)

def CircuitBreaker.getState (breaker : CircuitBreaker) (now : ℚ) : CircuitBreaker :=
  if breaker.state = .opened ∧ breaker.resetDue config now = true then
    breaker.transitionTo .halfOpen
  else breaker

def CircuitBreaker.recordSuccess (breaker : CircuitBreaker) : CircuitBreaker :=
  let breaker := { breaker with failureCount := 0 }
  if breaker.state = .halfOpen then
    let breaker := { breaker with successCount := breaker.successCount + 1 }
    if config.successThreshold ≤ breaker.successCount then breaker.transitionTo .closed
    else breaker
  else breaker

def CircuitBreaker.recordFailure (breaker : CircuitBreaker) (now : ℚ) : CircuitBreaker :=
  let breaker :=
    { breaker with failureCount := breaker.failureCount + 1, lastFailureTime := some now }
  if breaker.state = .halfOpen then breaker.transitionTo .opened
  else if breaker.state = .closed ∧ config.failureThreshold ≤ breaker.failureCount then
    breaker.transitionTo .opened
  else breaker

/-- `execute` throws at once. -/
def CircuitBreaker.refusesCall (breaker : CircuitBreaker) (now : ℚ) : Bool :=
  decide ((breaker.getState config now).state = .opened)

/-! ## Histories -/

inductive BreakerEvent where
  | execute (now : ℚ)
  | succeeded
  | failed (now : ℚ)
  | getState (now : ℚ)
  | reset

def breakerStep (breaker : CircuitBreaker) : BreakerEvent → CircuitBreaker
  | .execute now => breaker.getState config now
  | .succeeded => breaker.recordSuccess config
  | .failed now => breaker.recordFailure config now
  | .getState now => breaker.getState config now
  | .reset => breaker.transitionTo .closed

def breakerAfter (history : List BreakerEvent) : CircuitBreaker :=
  history.foldl (breakerStep config) {}

def BreakerEvent.now : BreakerEvent → Option ℚ
  | .execute now | .failed now | .getState now => some now
  | .succeeded | .reset => none

/-- The failures recorded since the last success or reset. -/
def failuresInRow (history : List BreakerEvent) : Nat :=
  history.foldl
    (fun failures event =>
      match event with
      | .failed _ => failures + 1
      | .succeeded | .reset => 0
      | .execute _ | .getState _ => failures) 0

/-- One more failure behind the history opens the circuit, or finds it not closed. -/
def Trips (history : List BreakerEvent) : Prop :=
  (breakerAfter config history).state ≠ .closed
    ∨ config.failureThreshold ≤ (failuresInRow history + 1 : Nat)

/-- The event neither records a failure nor resets. -/
def BreakerEvent.Passes : BreakerEvent → Prop
  | .failed _ | .reset => False
  | .execute _ | .succeeded | .getState _ => True

/-- The last failure of the history tripped the circuit, and nobody reset it since. -/
def TrippedAt (history : List BreakerEvent) (time : ℚ) : Prop :=
  ∃ before after, history = before ++ .failed time :: after ∧ Trips config before
    ∧ ∀ event ∈ after, event.Passes

variable {config} {breaker : CircuitBreaker}

theorem getState_of_not_due {now : ℚ} (h : breaker.resetDue config now = false) :
    breaker.getState config now = breaker := by
  rw [CircuitBreaker.getState, if_neg fun hboth => Bool.false_ne_true (h.symm.trans hboth.2)]

theorem opened_of_getState {now : ℚ} (h : (breaker.getState config now).state = .opened) :
    breaker.getState config now = breaker ∧ breaker.resetDue config now = false := by
  unfold CircuitBreaker.getState at h ⊢
  by_cases hdue : breaker.state = .opened ∧ breaker.resetDue config now = true
  · rw [if_pos hdue] at h
    exact nomatch h
  · rw [if_neg hdue] at h ⊢
    refine ⟨rfl, Bool.eq_false_iff.mpr fun htrue => hdue ⟨h, htrue⟩⟩

theorem failureCount_getState (breaker : CircuitBreaker) (now : ℚ) :
    (breaker.getState config now).failureCount = breaker.failureCount := by
  unfold CircuitBreaker.getState
  split <;> rfl

theorem failureCount_recordSuccess (breaker : CircuitBreaker) :
    (breaker.recordSuccess config).failureCount = 0 := by
  dsimp only [CircuitBreaker.recordSuccess]
  split
  · split <;> rfl
  · rfl

theorem failureCount_recordFailure (breaker : CircuitBreaker) (now : ℚ) :
    (breaker.recordFailure config now).failureCount = breaker.failureCount + 1 := by
  dsimp only [CircuitBreaker.recordFailure]
  split
  · rfl
  · split <;> rfl

/-- Whatever states it went through, the breaker counts the failures in a row. -/
theorem failureCount_after (history : List BreakerEvent) :
    (breakerAfter config history).failureCount = failuresInRow history := by
  unfold breakerAfter failuresInRow
  induction history using List.reverseRecOn with
  | nil => rfl
  | append_singleton history event ih =>
    rw [List.foldl_concat, List.foldl_concat, ← ih]
    cases event with
    | execute now | getState now => exact failureCount_getState _ now
    | succeeded => exact failureCount_recordSuccess _
    | failed now => exact failureCount_recordFailure _ now
    | reset => rfl

theorem breakerAfter_concat (history : List BreakerEvent) (event : BreakerEvent) :
    breakerAfter config (history ++ [event])
      = breakerStep config (breakerAfter config history) event :=
  List.foldl_concat _ _ _ _

theorem opened_of_failed_iff (history : List BreakerEvent) (now : ℚ) :
    (breakerAfter config (history ++ [.failed now])).state = .opened ↔ Trips config history := by
  rw [breakerAfter_concat]
  rw [Trips, ← @failureCount_after config]
  generalize breakerAfter config history = breaker
  show (breaker.recordFailure config now).state = .opened ↔ _
  unfold CircuitBreaker.recordFailure
  cases hstate : breaker.state with
  | closed =>
    rw [if_neg fun h => nomatch h]
    by_cases hthreshold : config.failureThreshold ≤ (breaker.failureCount + 1 : Nat)
    · rw [if_pos ⟨rfl, hthreshold⟩]
      exact iff_of_true rfl (Or.inr hthreshold)
    · rw [if_neg fun h => hthreshold h.2]
      exact iff_of_false (fun h => nomatch h) fun h => h.elim (fun hne => hne rfl) hthreshold
  | opened =>
    refine iff_of_true ?_ (Or.inl fun h => nomatch h)
    rw [if_neg fun h : CircuitBreakerState.opened = .halfOpen => nomatch h]
    rw [if_neg fun h : CircuitBreakerState.opened = .closed ∧ _ => nomatch h.1]
  | halfOpen =>
    exact iff_of_true rfl (Or.inl fun h => nomatch h)

theorem lastFailureTime_of_failed (history : List BreakerEvent) (now : ℚ) :
    (breakerAfter config (history ++ [.failed now])).lastFailureTime = some now := by
  rw [breakerAfter_concat]
  show ((breakerAfter config history).recordFailure config now).lastFailureTime = some now
  dsimp only [CircuitBreaker.recordFailure]
  split
  · rfl
  · split <;> rfl

theorem recordSuccess_of_opened (h : breaker.state = .opened) :
    (breaker.recordSuccess config).state = .opened
      ∧ (breaker.recordSuccess config).lastFailureTime = breaker.lastFailureTime := by
  unfold CircuitBreaker.recordSuccess
  have hhalf : breaker.state ≠ .halfOpen := fun heq => nomatch h.symm.trans heq
  rw [if_neg hhalf]
  exact ⟨h, rfl⟩

theorem opened_of_recordSuccess (h : (breaker.recordSuccess config).state = .opened) :
    breaker.state = .opened := by
  dsimp only [CircuitBreaker.recordSuccess] at h
  by_cases hhalf : breaker.state = .halfOpen
  · rw [if_pos hhalf] at h
    split at h
    · exact nomatch h
    · exact h
  · rw [if_neg hhalf] at h
    exact h

/-! ## Refusals -/

variable {history : List BreakerEvent} {time : ℚ}

theorem TrippedAt.concat {event : BreakerEvent} (h : TrippedAt config history time)
    (hpasses : event.Passes) : TrippedAt config (history ++ [event]) time := by
  obtain ⟨before, after, rfl, htrips, hafter⟩ := h
  refine ⟨before, after ++ [event], by rw [List.append_assoc, List.cons_append], htrips, ?_⟩
  intro later hlater
  rcases List.mem_append.mp hlater with hold | hnew
  · exact hafter later hold
  · rw [List.mem_singleton.mp hnew]
    exact hpasses

theorem trippedAt_of_opened (h : (breakerAfter config history).state = .opened) :
    ∃ time, (breakerAfter config history).lastFailureTime = some time
      ∧ TrippedAt config history time := by
  induction history using List.reverseRecOn with
  | nil => exact nomatch h
  | append_singleton history event ih =>
    cases event with
    | failed now =>
      refine ⟨now, lastFailureTime_of_failed history now, history, [], rfl, ?_, ?_⟩
      · exact (opened_of_failed_iff history now).mp h
      · exact List.forall_mem_nil _
    | reset =>
      rw [breakerAfter_concat] at h
      exact nomatch h
    | succeeded =>
      rw [breakerAfter_concat] at h ⊢
      have hopened := opened_of_recordSuccess h
      obtain ⟨time, hlast, htripped⟩ := ih hopened
      exact ⟨time, (recordSuccess_of_opened hopened).2.trans hlast, htripped.concat trivial⟩
    | execute now | getState now =>
      rw [breakerAfter_concat] at h ⊢
      have hkept : (breakerAfter config history).getState config now
          = breakerAfter config history := (opened_of_getState h).1
      dsimp only [breakerStep] at h ⊢
      rw [hkept] at h ⊢
      obtain ⟨time, hlast, htripped⟩ := ih h
      exact ⟨time, hlast, htripped.concat trivial⟩

/-- Until the timeout has passed since it was tripped, a circuit stays open. -/
theorem opened_of_trippedAt (h : TrippedAt config history time)
    (hsoon : ∀ event ∈ history, ∀ now ∈ event.now, now - time < config.resetTimeoutMs) :
    (breakerAfter config history).state = .opened
      ∧ (breakerAfter config history).lastFailureTime = some time := by
  obtain ⟨before, after, rfl, htrips, hafter⟩ := h
  induction after using List.reverseRecOn with
  | nil => exact ⟨(opened_of_failed_iff before time).mpr htrips, lastFailureTime_of_failed _ _⟩
  | append_singleton after event ih =>
    have hsplit : before ++ .failed time :: (after ++ [event])
        = (before ++ .failed time :: after) ++ [event] := by
      rw [List.append_assoc, List.cons_append]
    rw [hsplit] at hsoon ⊢
    obtain ⟨hopened, hlast⟩ := ih
      (fun earlier hearlier => hsoon earlier (List.mem_append_left _ hearlier))
      fun earlier hearlier => hafter earlier (List.mem_append_left _ hearlier)
    have hpasses := hafter event (List.mem_append_right _ List.mem_cons_self)
    have hin : event ∈ (before ++ .failed time :: after) ++ [event] :=
      List.mem_append_right _ List.mem_cons_self
    rw [breakerAfter_concat]
    have hlook : ∀ now ∈ event.now,
        (breakerAfter config (before ++ .failed time :: after)).resetDue config now = false := by
      intro now hnow
      rw [CircuitBreaker.resetDue, hlast]
      exact decide_eq_false fun hdue => not_le.mpr (hsoon event hin now hnow) hdue.2
    cases event with
    | failed now | reset => exact hpasses.elim
    | succeeded =>
      exact ⟨(recordSuccess_of_opened hopened).1, (recordSuccess_of_opened hopened).2.trans hlast⟩
    | execute now | getState now =>
      dsimp only [breakerStep]
      rw [getState_of_not_due (hlook now rfl)]
      exact ⟨hopened, hlast⟩

/-- While the clock does not run back, a call is refused exactly if the last failure
    tripped the circuit, nobody reset it since, and the timeout has not passed. -/
theorem refusesCall_iff (config : CircuitBreakerConfig) (history : List BreakerEvent) (now : ℚ)
    (hclock : ∀ event ∈ history, ∀ time ∈ event.now, 0 < time ∧ time ≤ now) :
    (breakerAfter config history).refusesCall config now = true
      ↔ ∃ time, TrippedAt config history time ∧ now - time < config.resetTimeoutMs := by
  rw [CircuitBreaker.refusesCall, decide_eq_true_eq]
  refine ⟨fun hrefused => ?_, ?_⟩
  · obtain ⟨hkept, hdue⟩ := opened_of_getState hrefused
    rw [hkept] at hrefused
    obtain ⟨time, hlast, htripped⟩ := trippedAt_of_opened hrefused
    refine ⟨time, htripped, ?_⟩
    obtain ⟨before, after, rfl, -, -⟩ := htripped
    have hpositive := (hclock (.failed time)
      (List.mem_append_right _ List.mem_cons_self) time rfl).1
    rw [CircuitBreaker.resetDue, hlast] at hdue
    exact not_le.mp fun hle => of_decide_eq_false hdue ⟨hpositive.ne', hle⟩
  · rintro ⟨time, htripped, hsoon⟩
    obtain ⟨hopened, hlast⟩ := opened_of_trippedAt htripped fun event hevent at' hat => by
      have hle := (hclock event hevent at' hat).2
      linarith
    rw [getState_of_not_due ?_]
    · exact hopened
    · rw [CircuitBreaker.resetDue, hlast]
      exact decide_eq_false fun hdue => not_le.mpr hsoon hdue.2

/-- Five failures in a row, and the success of a call that had begun before them. -/
theorem refusesCall_iff_lateSuccess :
    let history : List BreakerEvent :=
      [.execute 1, .failed 1, .failed 2, .failed 3, .failed 4, .failed 5, .succeeded]
    (breakerAfter {} history).refusesCall {} 30004 = true
      ∧ ((breakerAfter {} history).refusesCall {} 30004 = true
        ↔ ∃ time, TrippedAt {} history time ∧ 30004 - time < 30000) := by
  intro history
  exact ⟨by decide +kernel, refusesCall_iff {} history 30004 (by decide +kernel)⟩

end Methods

end OpencodeSwarm
