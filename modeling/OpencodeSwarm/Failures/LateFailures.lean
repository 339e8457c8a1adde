/-
  OpencodeSwarm.Failures.LateFailures

  A failure that carries the token of an attempt from before a clear.  A token is
  the number of clears of its action since the row of the action was created, so it
  comes back when the row was deleted and the action was cleared as often again.
-/
import OpencodeSwarm.Lib.Transition
import OpencodeSwarm.Failures.ActionCircuit

namespace OpencodeSwarm

open Js Transition

/-! ## Runs -/

inductive CircuitCall where
  | arm (action : ActionId)
  | fail (input : ActionFailure)
  | clearAction (action : ActionId)
  | clearInvocation (sessionID : JsString) (invocationID : Int)
  | clearSession (sessionID : JsString)
  | look (now : Int) (action : ActionId)
  | expire (now : Int)
  | evict

/-- The call is a clear that an attempt at the action falls under. -/
def CircuitCall.clears (action : ActionId) : CircuitCall → Bool
  | .clearAction cleared => decide (cleared = action)
  | .clearInvocation sessionID invocationID =>
    decide (sessionID = action.sessionID ∧ invocationID = action.invocationID)
  | .clearSession sessionID => decide (sessionID = action.sessionID)
  | _ => false

/-- The states that a call goes through: a failure is noted behind a sweep. -/
def circuitStates (hashString : JsString → JsString) (state : ActionCircuits) :
    CircuitCall → List ActionCircuits
  | .arm action => [(armActionCircuitAttempt action state).1]
  | .fail input =>
    [sweepExpired input.now state, (noteActionCircuitFailure hashString input state).1]
  | .clearAction action => [clearActionCircuit action state]
  | .clearInvocation sessionID invocationID =>
    [clearInvocationActionCircuits sessionID invocationID state]
  | .clearSession sessionID => [clearSessionActionCircuits sessionID state]
  | .look now action => [sweepExpired now state, (getBlockingActionCircuit now action state).1]
  | .expire now => [sweepExpired now state]
  | .evict => [enforceCapacity state.actionCircuits.length state]

/-- An attempt, with what happened since it was armed. -/
structure ArmedAttempt where
  action : ActionId
  token : Int
  cleared : Bool
  rowDeleted : Bool
  deriving DecidableEq

/-- The module, the attempts, and how often each action was cleared by itself since its
    row was last deleted. -/
structure CircuitWatch where
  state : ActionCircuits
  attempts : List ArmedAttempt
  clearsSince : JsString → Nat

def CircuitWatch.start : CircuitWatch where
  state := noActionCircuits
  attempts := []
  clearsSince := fun _ => 0

/-- The module moves on, and rows may be gone. -/
def CircuitWatch.observe (watch : CircuitWatch) (state : ActionCircuits) : CircuitWatch where
  state := state
  attempts := watch.attempts.map fun attempt =>
    { attempt with
      rowDeleted := attempt.rowDeleted
        || (state.actionGenerationTokens.get? (familyKey attempt.action)).isNone }
  clearsSince := fun family =>
    if (state.actionGenerationTokens.get? family).isNone then 0 else watch.clearsSince family

/-- A clear reaches the attempts that it covers. -/
def CircuitWatch.note (watch : CircuitWatch) (call : CircuitCall) : CircuitWatch where
  state := watch.state
  attempts := watch.attempts.map fun attempt =>
    { attempt with cleared := attempt.cleared || call.clears attempt.action }
  clearsSince := fun family =>
    match call with
    | .clearAction action =>
      if familyKey action = family then watch.clearsSince family + 1 else watch.clearsSince family
    | _ => watch.clearsSince family

/-- A call arms an attempt. -/
def CircuitWatch.armed (watch : CircuitWatch) (state : ActionCircuits) : CircuitCall → CircuitWatch
  | .arm action =>
    { watch with
      attempts := watch.attempts ++
        [{ action
           token := (armActionCircuitAttempt action state).2
           cleared := false
           rowDeleted := false }] }
  | _ => watch

def circuitWatchStep (hashString : JsString → JsString) (watch : CircuitWatch)
    (call : CircuitCall) : CircuitWatch :=
  ((circuitStates hashString watch.state call).foldl CircuitWatch.observe
    (watch.note call)).armed watch.state call

/-! ## Rows -/

section Rows

variable {state : ActionCircuits} {family : JsString}

/-- The rows of `next` are rows of `state`. -/
def RowsKept (state next : ActionCircuits) : Prop :=
  ∀ family, next.actionGenerationTokens.get? family = state.actionGenerationTokens.get? family
    ∨ next.actionGenerationTokens.get? family = none

theorem RowsKept.refl (state : ActionCircuits) : RowsKept state state := fun _ => Or.inl rfl

variable {later : ActionCircuits}

theorem RowsKept.trans {next : ActionCircuits} (h : RowsKept state next)
    (hlater : RowsKept next later) : RowsKept state later := by
  intro family
  rcases hlater family with hsame | hnone
  · rw [hsame]
    exact h family
  · exact Or.inr hnone

theorem rowsKept_prune (family : JsString) (state : ActionCircuits) :
    RowsKept state (pruneGenerationTokenIfUnused family state) := by
  intro other
  dsimp only [pruneGenerationTokenIfUnused]
  split
  · rw [OrderedMap.get?_erase]
    split
    · exact Or.inr rfl
    · exact Or.inl rfl
  · exact Or.inl rfl

theorem rowsKept_removeAndPrune (state : ActionCircuits)
    (binding : JsString × ActionCircuitEntry) : RowsKept state (removeAndPrune state binding) :=
  rowsKept_prune _ { state with actionCircuits := state.actionCircuits.erase binding.1 }

theorem rowsKept_sweepExpired (now : Int) (state : ActionCircuits) :
    RowsKept state (sweepExpired now state) := by
  have hfold : ∀ (bindings : List (JsString × ActionCircuitEntry)) (state : ActionCircuits),
      RowsKept state (bindings.foldl
        (fun state binding =>
          if binding.2.expiresAt ≤ now then removeAndPrune state binding else state) state) := by
    intro bindings
    induction bindings with
    | nil => exact RowsKept.refl
    | cons binding rest ih =>
      intro state
      rw [List.foldl_cons]
      refine RowsKept.trans ?_ (ih _)
      split
      · exact rowsKept_removeAndPrune state binding
      · exact RowsKept.refl state
  exact hfold state.actionCircuits state

theorem rowsKept_enforceCapacity (rounds : Nat) (state : ActionCircuits) :
    RowsKept state (enforceCapacity rounds state) := by
  induction rounds generalizing state with
  | zero => exact RowsKept.refl state
  | succ rounds ih =>
    unfold enforceCapacity
    split
    · split
      · exact RowsKept.refl state
      · exact (rowsKept_removeAndPrune state _).trans (ih _)
    · exact RowsKept.refl state

/-- A clear by prefix deletes the rows that it covers and keeps the others. -/
theorem get?_clearFamilies (keyPrefix : JsString) (state : ActionCircuits) (family : JsString) :
    (clearFamilies keyPrefix state).actionGenerationTokens.get? family
      = if keyPrefix.isPrefixOf family then none else state.actionGenerationTokens.get? family := by
  have hfold : ∀ (families : List JsString) (state : ActionCircuits),
      (families.foldl
        (fun state family =>
          { state with
            actionGenerationTokens := state.actionGenerationTokens.erase family
            armedActions := state.armedActions.erase family }) state).actionGenerationTokens.get?
          family
        = if family ∈ families then none else state.actionGenerationTokens.get? family := by
    intro families
    induction families with
    | nil => exact fun _ => rfl
    | cons first rest ih =>
      intro state
      rw [List.foldl_cons, ih, OrderedMap.get?_erase]
      by_cases hrest : family ∈ rest
      · rw [if_pos hrest, if_pos (List.mem_cons_of_mem _ hrest)]
      rw [if_neg hrest]
      by_cases hfirst : family = first
      · rw [if_pos hfirst, if_pos (hfirst ▸ List.mem_cons_self)]
      · have hneither : family ∉ first :: rest :=
          fun hmem => (List.mem_cons.mp hmem).elim hfirst hrest
        rw [if_neg hfirst, if_neg hneither]
  have hcleared := hfold
    (state.actionGenerationTokens.keys.filter fun family => keyPrefix.isPrefixOf family)
    (removeEntries keyPrefix state)
  refine hcleared.trans ?_
  by_cases hbegins : keyPrefix.isPrefixOf family = true
  · split
    · rfl
    -- a family without a row
    rename_i hnot
    have hkeys : family ∉ state.actionGenerationTokens.keys :=
      fun hmem => hnot (List.mem_filter.mpr ⟨hmem, hbegins⟩)
    exact OrderedMap.get?_eq_none_iff.mpr hkeys
  · rw [if_neg hbegins]
    have hnot : family ∉ state.actionGenerationTokens.keys.filter
        fun family => keyPrefix.isPrefixOf family :=
      fun hmem => hbegins (List.mem_filter.mp hmem).2
    rw [if_neg hnot]
    rfl

theorem ensureGenerationToken_snd (action : ActionId) (state : ActionCircuits) :
    (ensureGenerationToken action state).2
      = (state.actionGenerationTokens.get? (familyKey action)).getD 1 := by
  unfold ensureGenerationToken
  cases state.actionGenerationTokens.get? (familyKey action) <;> rfl

theorem ensureGenerationToken_row (action : ActionId) (state : ActionCircuits) (family : JsString) :
    (ensureGenerationToken action state).1.actionGenerationTokens.get? family
      = if family = familyKey action then some (ensureGenerationToken action state).2
        else state.actionGenerationTokens.get? family := by
  unfold ensureGenerationToken
  cases hrow : state.actionGenerationTokens.get? (familyKey action) with
  | some current =>
    by_cases heq : family = familyKey action
    · rw [if_pos heq, heq]
      exact hrow
    · rw [if_neg heq]
  | none => exact OrderedMap.get?_set _ _ _ _

theorem clearActionCircuit_row (action : ActionId) (state : ActionCircuits) (family : JsString) :
    (clearActionCircuit action state).actionGenerationTokens.get? family
      = if family = familyKey action then
          some ((state.actionGenerationTokens.get? (familyKey action)).getD 1 + 1)
        else state.actionGenerationTokens.get? family := by
  unfold clearActionCircuit bumpGenerationToken
  rw [OrderedMap.get?_set, ensureGenerationToken_row, ensureGenerationToken_snd]
  split
  · rfl
  · rfl

/-- Rows go, or come with 1. -/
def RowsMoved (state next : ActionCircuits) : Prop :=
  ∀ family, next.actionGenerationTokens.get? family = state.actionGenerationTokens.get? family
    ∨ next.actionGenerationTokens.get? family = none
    ∨ state.actionGenerationTokens.get? family = none
      ∧ next.actionGenerationTokens.get? family = some 1

theorem RowsKept.moved {next : ActionCircuits} (h : RowsKept state next) : RowsMoved state next :=
  fun family => (h family).imp_right Or.inl

theorem RowsMoved.kept {next : ActionCircuits} (h : RowsMoved state next)
    (hlater : RowsKept next later) : RowsMoved state later := by
  intro family
  rcases hlater family with hsame | hnone
  · rw [hsame]
    exact h family
  · exact Or.inr (Or.inl hnone)

theorem rowsMoved_ensureGenerationToken (action : ActionId) (state : ActionCircuits) :
    RowsMoved state (ensureGenerationToken action state).1 := by
  intro family
  rw [ensureGenerationToken_row, ensureGenerationToken_snd]
  by_cases heq : family = familyKey action
  · rw [if_pos heq, heq]
    cases hrow : state.actionGenerationTokens.get? (familyKey action) with
    | none => exact Or.inr (Or.inr ⟨rfl, rfl⟩)
    | some token => exact Or.inl rfl
  · rw [if_neg heq]
    exact Or.inl rfl

theorem rowsMoved_noteSwept (hashString : JsString → JsString) (input : ActionFailure)
    (state : ActionCircuits) : RowsMoved state (noteSwept hashString input state).1 := by
  dsimp only [noteSwept]
  split
  · exact rowsMoved_ensureGenerationToken input.action state
  exact (rowsMoved_ensureGenerationToken input.action state).kept
    (rowsKept_enforceCapacity _ { (ensureGenerationToken input.action state).1 with
      actionCircuits := _ })

theorem rowsKept_getBlocking (now : Int) (action : ActionId) (state : ActionCircuits) :
    RowsKept (sweepExpired now state) (getBlockingActionCircuit now action state).1 := by
  intro family
  dsimp only [getBlockingActionCircuit]
  split <;> exact Or.inl rfl

end Rows

/-! ## Tokens -/

/-- A row counts the clears of its action, and an attempt whose row stayed is at most at
    the row, below it once it was cleared. -/
structure CircuitWatch.Tracked (watch : CircuitWatch) : Prop where
  row : ∀ family token, watch.state.actionGenerationTokens.get? family = some token →
    token = 1 + watch.clearsSince family
  noRow : ∀ family, watch.state.actionGenerationTokens.get? family = none →
    watch.clearsSince family = 0
  attempt : ∀ attempt ∈ watch.attempts, attempt.rowDeleted = false →
    ∃ token, watch.state.actionGenerationTokens.get? (familyKey attempt.action) = some token
      ∧ attempt.token ≤ token ∧ (attempt.cleared = true → attempt.token < token)

section Tracked

variable {watch : CircuitWatch} {next : ActionCircuits}

theorem tracked_start : CircuitWatch.start.Tracked where
  row := fun _ _ h => nomatch h
  noRow := fun _ _ => rfl
  attempt := fun _ h => nomatch h

variable {attempt : ArmedAttempt}

theorem mem_observe (h : attempt ∈ (watch.observe next).attempts) :
    ∃ before ∈ watch.attempts, attempt.action = before.action ∧ attempt.token = before.token
      ∧ attempt.cleared = before.cleared ∧ (attempt.rowDeleted = false → before.rowDeleted = false
        ∧ ∃ token, next.actionGenerationTokens.get? (familyKey before.action) = some token) := by
  obtain ⟨before, hbefore, rfl⟩ := List.mem_map.mp h
  refine ⟨before, hbefore, rfl, rfl, rfl, fun hkept => ?_⟩
  obtain ⟨hdeleted, hrow⟩ := Bool.or_eq_false_iff.mp hkept
  refine ⟨hdeleted, ?_⟩
  cases hget : next.actionGenerationTokens.get? (familyKey before.action) with
  | none =>
    rw [hget] at hrow
    cases hrow
  | some token => exact ⟨token, rfl⟩

theorem observe_clearsSince_of_row {family : JsString} {token : Int}
    (h : next.actionGenerationTokens.get? family = some token) :
    (watch.observe next).clearsSince family = watch.clearsSince family := by
  dsimp only [CircuitWatch.observe]
  rw [h]
  rfl

theorem observe_clearsSince_of_none {family : JsString}
    (h : next.actionGenerationTokens.get? family = none) :
    (watch.observe next).clearsSince family = 0 := by
  dsimp only [CircuitWatch.observe]
  rw [h]
  rfl

theorem CircuitWatch.Tracked.observe (h : watch.Tracked) (hmoved : RowsMoved watch.state next) :
    (watch.observe next).Tracked where
  row := by
    intro family token htoken
    have htoken' : next.actionGenerationTokens.get? family = some token := htoken
    rw [observe_clearsSince_of_row htoken']
    rcases hmoved family with hsame | hnone | ⟨hnew, hone⟩
    · rw [hsame] at htoken'
      exact h.row family token htoken'
    · rw [hnone] at htoken'
      cases htoken'
    · rw [hone] at htoken'
      cases htoken'
      rw [h.noRow family hnew]
      rfl
  noRow := fun family hnone => observe_clearsSince_of_none hnone
  attempt := by
    intro attempt hattempt hkept
    obtain ⟨before, hbefore, haction, htoken, hcleared, hrow⟩ := mem_observe hattempt
    obtain ⟨hdeleted, current, hcurrent⟩ := hrow hkept
    obtain ⟨old, hold, hle, hlt⟩ := h.attempt before hbefore hdeleted
    rw [haction, htoken, hcleared]
    refine ⟨current, hcurrent, ?_⟩
    -- the row was there and still is, so it is the same
    rcases hmoved (familyKey before.action) with hsame | hnone | ⟨hnew, -⟩
    · rw [hsame, hold] at hcurrent
      cases hcurrent
      exact ⟨hle, hlt⟩
    · rw [hnone] at hcurrent
      cases hcurrent
    · rw [hnew] at hold
      cases hold

variable {call : CircuitCall}

theorem note_eq_self (hclears : ∀ action, call.clears action = false)
    (hother : ∀ action, call ≠ .clearAction action) : watch.note call = watch := by
  obtain ⟨state, attempts, clearsSince⟩ := watch
  unfold CircuitWatch.note
  have hattempts : (attempts.map fun attempt =>
      { attempt with cleared := attempt.cleared || call.clears attempt.action }) = attempts := by
    refine (List.map_congr_left fun attempt _ => ?_).trans (List.map_id attempts)
    rw [hclears, Bool.or_false]
    rfl
  rw [hattempts]
  cases call with
  | clearAction action => exact absurd rfl (hother action)
  | arm | fail | clearInvocation | clearSession | look | expire | evict => rfl

theorem mem_note (h : attempt ∈ (watch.note call).attempts) :
    ∃ before ∈ watch.attempts, attempt.action = before.action ∧ attempt.token = before.token
      ∧ attempt.rowDeleted = before.rowDeleted
      ∧ (attempt.cleared = true → before.cleared = true ∨ call.clears before.action = true) := by
  obtain ⟨before, hbefore, rfl⟩ := List.mem_map.mp h
  exact ⟨before, hbefore, rfl, rfl, rfl, fun hcleared => Bool.or_eq_true_iff.mp hcleared⟩

theorem CircuitWatch.Tracked.clearAction (h : watch.Tracked) (action : ActionId) :
    ((watch.note (.clearAction action)).observe
      (clearActionCircuit action watch.state)).Tracked where
  row := by
    intro family token htoken
    have hrow : (clearActionCircuit action watch.state).actionGenerationTokens.get? family
        = some token := htoken
    rw [observe_clearsSince_of_row hrow]
    rw [clearActionCircuit_row] at hrow
    dsimp only [CircuitWatch.note]
    by_cases heq : family = familyKey action
    · rw [if_pos heq] at hrow
      rw [if_pos heq.symm, heq]
      cases hrow
      cases hold : watch.state.actionGenerationTokens.get? (familyKey action) with
      | none =>
        rw [h.noRow _ hold]
        rfl
      | some old =>
        rw [h.row _ _ hold, Option.getD_some]
        omega
    · rw [if_neg heq] at hrow
      rw [if_neg (Ne.symm heq)]
      exact h.row family token hrow
  noRow := fun family hnone => observe_clearsSince_of_none hnone
  attempt := by
    intro attempt hattempt hkept
    obtain ⟨noted, hnoted, haction, htoken, hcleared, hrow⟩ := mem_observe hattempt
    obtain ⟨before, hbefore, haction', htoken', hdeleted', hcleared'⟩ := mem_note hnoted
    obtain ⟨hdeleted, current, hcurrent⟩ := hrow hkept
    rw [hdeleted'] at hdeleted
    obtain ⟨old, hold, hle, hlt⟩ := h.attempt before hbefore hdeleted
    rw [haction, htoken, hcleared, haction', htoken']
    rw [haction'] at hcurrent
    refine ⟨current, hcurrent, ?_⟩
    rw [clearActionCircuit_row] at hcurrent
    by_cases heq : familyKey before.action = familyKey action
    · rw [if_pos heq, ← heq, hold, Option.getD_some] at hcurrent
      cases hcurrent
      exact ⟨by omega, fun _ => by omega⟩
    · rw [if_neg heq, hold] at hcurrent
      cases hcurrent
      refine ⟨hle, fun hnow => hlt ?_⟩
      rcases hcleared' hnow with hold | hthis
      · exact hold
      · have hsame : action = before.action := of_decide_eq_true hthis
        exact absurd (congrArg familyKey hsame).symm heq

/-- A clear by prefix deletes the rows of the attempts that it covers. -/
theorem CircuitWatch.Tracked.clearFamilies (h : watch.Tracked) {call : CircuitCall}
    {keyPrefix : JsString} (hother : ∀ action, call ≠ .clearAction action)
    (hcovers : ∀ action, call.clears action = true →
      keyPrefix.isPrefixOf (familyKey action) = true) :
    ((watch.note call).observe (clearFamilies keyPrefix watch.state)).Tracked where
  row := by
    intro family token htoken
    have hrow : (OpencodeSwarm.clearFamilies keyPrefix watch.state).actionGenerationTokens.get? family
        = some token := htoken
    rw [observe_clearsSince_of_row hrow]
    rw [get?_clearFamilies] at hrow
    have hold : watch.state.actionGenerationTokens.get? family = some token := by
      split at hrow
      · cases hrow
      · exact hrow
    rw [h.row family token hold]
    cases call with
    | clearAction action => exact absurd rfl (hother action)
    | arm | fail | clearInvocation | clearSession | look | expire | evict => rfl
  noRow := fun family hnone => observe_clearsSince_of_none hnone
  attempt := by
    intro attempt hattempt hkept
    obtain ⟨noted, hnoted, haction, htoken, hcleared, hrow⟩ := mem_observe hattempt
    obtain ⟨before, hbefore, haction', htoken', hdeleted', hcleared'⟩ := mem_note hnoted
    obtain ⟨hdeleted, current, hcurrent⟩ := hrow hkept
    rw [hdeleted'] at hdeleted
    obtain ⟨old, hold, hle, hlt⟩ := h.attempt before hbefore hdeleted
    rw [haction, htoken, hcleared, haction', htoken']
    rw [haction'] at hcurrent
    refine ⟨current, hcurrent, ?_⟩
    rw [get?_clearFamilies] at hcurrent
    by_cases hbegins : keyPrefix.isPrefixOf (familyKey before.action) = true
    · rw [if_pos hbegins] at hcurrent
      cases hcurrent
    · rw [if_neg hbegins, hold] at hcurrent
      cases hcurrent
      refine ⟨hle, fun hnow => hlt ?_⟩
      rcases hcleared' hnow with hold | hthis
      · exact hold
      · exact absurd (hcovers _ hthis) hbegins

theorem CircuitWatch.Tracked.arm (h : watch.Tracked) (action : ActionId) :
    ((watch.observe (armActionCircuitAttempt action watch.state).1).armed watch.state
      (.arm action)).Tracked where
  row := (h.observe (rowsMoved_ensureGenerationToken action watch.state)).row
  noRow := (h.observe (rowsMoved_ensureGenerationToken action watch.state)).noRow
  attempt := by
    intro attempt hattempt hkept
    rcases List.mem_append.mp hattempt with hold | hnew
    · exact (h.observe (rowsMoved_ensureGenerationToken action watch.state)).attempt attempt hold hkept
    · rw [List.mem_singleton.mp hnew]
      refine ⟨(ensureGenerationToken action watch.state).2, ?_, le_refl _, fun hcleared => ?_⟩
      · exact (ensureGenerationToken_row action watch.state _).trans (if_pos rfl)
      · cases hcleared

/-- A call that neither clears nor arms only moves through its states. -/
theorem circuitWatchStep_of_idle (hashString : JsString → JsString) {call : CircuitCall}
    (hclears : ∀ action, call.clears action = false) (hclear : ∀ action, call ≠ .clearAction action)
    (harm : ∀ action, call ≠ .arm action) :
    circuitWatchStep hashString watch call
      = (circuitStates hashString watch.state call).foldl CircuitWatch.observe watch := by
  rw [circuitWatchStep, note_eq_self hclears hclear]
  cases call with
  | arm action => exact absurd rfl (harm action)
  | fail | clearAction | clearInvocation | clearSession | look | expire | evict => rfl

theorem CircuitWatch.Tracked.step (hashString : JsString → JsString) (h : watch.Tracked)
    (call : CircuitCall) : (circuitWatchStep hashString watch call).Tracked := by
  cases call with
  | arm action =>
    have hnote : watch.note (.arm action) = watch :=
      note_eq_self (fun _ => rfl) (fun _ => nofun)
    rw [circuitWatchStep, hnote]
    exact h.arm action
  | fail input =>
    rw [@circuitWatchStep_of_idle watch hashString (.fail input) (fun _ => rfl)
      (fun _ => nofun) (fun _ => nofun)]
    have hswept := h.observe (rowsKept_sweepExpired input.now watch.state).moved
    exact hswept.observe (rowsMoved_noteSwept hashString input _)
  | clearAction action => exact h.clearAction action
  | clearInvocation sessionID invocationID =>
    refine h.clearFamilies (fun _ => nofun) fun action hcovers => ?_
    obtain ⟨rfl, rfl⟩ := of_decide_eq_true hcovers
    exact familyPrefix_isPrefixOf action
  | clearSession sessionID =>
    refine h.clearFamilies (fun _ => nofun) fun action hcovers => ?_
    obtain rfl := of_decide_eq_true hcovers
    exact sessionPrefix_isPrefixOf action
  | look now action =>
    rw [@circuitWatchStep_of_idle watch hashString (.look now action) (fun _ => rfl)
      (fun _ => nofun) (fun _ => nofun)]
    have hswept := h.observe (rowsKept_sweepExpired now watch.state).moved
    exact hswept.observe (rowsKept_getBlocking now action _).moved
  | expire now =>
    rw [@circuitWatchStep_of_idle watch hashString (.expire now) (fun _ => rfl)
      (fun _ => nofun) (fun _ => nofun)]
    exact h.observe (rowsKept_sweepExpired now watch.state).moved
  | evict =>
    rw [@circuitWatchStep_of_idle watch hashString .evict (fun _ => rfl)
      (fun _ => nofun) (fun _ => nofun)]
    exact h.observe (rowsKept_enforceCapacity _ watch.state).moved

theorem tracked_foldl (hashString : JsString → JsString) (calls : List CircuitCall) :
    (calls.foldl (circuitWatchStep hashString) CircuitWatch.start).Tracked :=
  (Run.foldl (circuitWatchStep hashString) CircuitWatch.start calls).preserves
    (fun _ call _ hstep htracked => hstep ▸ htracked.step hashString call) tracked_start

end Tracked

/-! ## Late failures -/

section Late

variable {hashString : JsString → JsString} {input : ActionFailure} {state : ActionCircuits}

/-- The failure counts for nothing: no answer, no entry, no count. -/
def IgnoresFailure (hashString : JsString → JsString) (state : ActionCircuits)
    (input : ActionFailure) : Prop :=
  (noteActionCircuitFailure hashString input state).2
      = { entry := none, enteredHardStop := false, ignoredLateEvent := true }
    ∧ ∀ binding ∈ (noteActionCircuitFailure hashString input state).1.actionCircuits,
      binding ∈ state.actionCircuits

/-- The row of the attempt was deleted, and since then its action was cleared by itself
    as often as before the attempt. -/
def CircuitWatch.TokenIsBack (watch : CircuitWatch) (attempt : ArmedAttempt) : Prop :=
  attempt.rowDeleted = true
    ∧ attempt.token = 1 + (watch.clearsSince (familyKey attempt.action) : Int)

variable {binding : JsString × ActionCircuitEntry}

theorem mem_of_mem_removeAndPrune {gone : JsString × ActionCircuitEntry}
    (h : binding ∈ (removeAndPrune state gone).actionCircuits) :
    binding ∈ state.actionCircuits := by
  have herased : (removeAndPrune state gone).actionCircuits
    = state.actionCircuits.erase gone.1 := by
    dsimp only [removeAndPrune, pruneGenerationTokenIfUnused]
    split <;> rfl
  rw [herased] at h
  exact (List.mem_filter.mp h).1

theorem mem_of_mem_sweepExpired {now : Int} (h : binding ∈ (sweepExpired now state).actionCircuits) :
    binding ∈ state.actionCircuits := by
  have hfold : ∀ (bindings : List (JsString × ActionCircuitEntry)) (state : ActionCircuits),
      binding ∈ (bindings.foldl
        (fun state binding =>
          if binding.2.expiresAt ≤ now then removeAndPrune state binding else state)
        state).actionCircuits → binding ∈ state.actionCircuits := by
    intro bindings
    induction bindings with
    | nil => exact fun _ hmem => hmem
    | cons first rest ih =>
      intro state hmem
      have hnext := ih _ hmem
      dsimp only at hnext
      split at hnext
      · exact mem_of_mem_removeAndPrune hnext
      · exact hnext
  exact hfold state.actionCircuits state h

theorem ensureGenerationToken_entries (action : ActionId) (state : ActionCircuits) :
    (ensureGenerationToken action state).1.actionCircuits = state.actionCircuits := by
  unfold ensureGenerationToken
  split <;> rfl

/-- A failure with a token is ignored when the row of its action, behind the sweep, is at
    another one. -/
theorem ignoresFailure_iff {token : Int} (htoken : input.generationToken = some token) :
    IgnoresFailure hashString state input
      ↔ token ≠ ((sweepExpired input.now state).actionGenerationTokens.get?
          (familyKey input.action)).getD 1 := by
  dsimp only [IgnoresFailure, noteActionCircuitFailure, noteSwept]
  rw [htoken, Option.some_or, ensureGenerationToken_snd]
  constructor
  · rintro ⟨hanswer, -⟩ hsame
    rw [if_neg (not_not_intro (congrArg some hsame))] at hanswer
    exact Option.some_ne_none _ (congrArg FailureAnswer.entry hanswer)
  · intro hother
    have hne : some token ≠ some (((sweepExpired input.now state).actionGenerationTokens.get?
        (familyKey input.action)).getD 1) := fun heq => hother (Option.some.inj heq)
    rw [if_pos hne]
    refine ⟨rfl, fun binding hbinding => ?_⟩
    rw [ensureGenerationToken_entries] at hbinding
    exact mem_of_mem_sweepExpired hbinding

/-- In every run, a failure that carries the token of an attempt from before a clear of its
    action, invocation or session is ignored, except where the row of the action was deleted
    and its clears since bring the token back. -/
theorem lateFailure_ignored_iff (hashString : JsString → JsString) (calls : List CircuitCall)
    (input : ActionFailure) (attempt : ArmedAttempt)
    (hattempt : attempt ∈ ((calls.foldl (circuitWatchStep hashString) CircuitWatch.start).observe
      (sweepExpired input.now
        (calls.foldl (circuitWatchStep hashString) CircuitWatch.start).state)).attempts)
    (hcleared : attempt.cleared = true) (haction : input.action = attempt.action)
    (htoken : input.generationToken = some attempt.token) :
    IgnoresFailure hashString
        (calls.foldl (circuitWatchStep hashString) CircuitWatch.start).state input
      ↔ ¬ ((calls.foldl (circuitWatchStep hashString) CircuitWatch.start).observe
          (sweepExpired input.now
            (calls.foldl (circuitWatchStep hashString) CircuitWatch.start).state)).TokenIsBack
        attempt := by
  have htracked := tracked_foldl hashString calls
  generalize calls.foldl (circuitWatchStep hashString) CircuitWatch.start = watch at *
  have hswept := htracked.observe (rowsKept_sweepExpired input.now watch.state).moved
  have hcurrent : ((sweepExpired input.now watch.state).actionGenerationTokens.get?
      (familyKey attempt.action)).getD 1
      = 1 + ((watch.observe (sweepExpired input.now watch.state)).clearsSince
        (familyKey attempt.action) : Int) := by
    cases hrow : (sweepExpired input.now watch.state).actionGenerationTokens.get?
        (familyKey attempt.action) with
    | none =>
      rw [hswept.noRow _ hrow]
      rfl
    | some token => exact hswept.row _ _ hrow
  rw [ignoresFailure_iff htoken, haction, hcurrent]
  constructor
  · rintro hother ⟨-, hback⟩
    exact hother hback
  · intro hnotBack hsame
    cases hdeleted : attempt.rowDeleted with
    | true => exact hnotBack ⟨hdeleted, hsame⟩
    | false =>
      -- the row stayed, and the clear moved it past the token
      obtain ⟨token, hrow, -, hlt⟩ := hswept.attempt attempt hattempt hdeleted
      have hpast := hlt hcleared
      have hcount := hswept.row _ _ hrow
      omega

/-- One attempt, and a clear of its action. -/
def lateAction : ActionId where
  sessionID := js "s"
  invocationID := 1
  actionDigest := js "d"

def lateReport : ActionFailure where
  action := lateAction
  circuitKind := js "k"
  signal := js "x"
  hardStopThreshold := 1
  now := 5
  generationToken := some 1

theorem lateFailure_ignored_oneClear :
    IgnoresFailure id ([.arm lateAction, .clearAction lateAction].foldl (circuitWatchStep id)
        CircuitWatch.start).state lateReport :=
  (lateFailure_ignored_iff id [.arm lateAction, .clearAction lateAction] lateReport
    { action := lateAction, token := 1, cleared := true, rowDeleted := false }
    (by decide +kernel) rfl rfl rfl).mpr (by rintro ⟨hdeleted, -⟩; cases hdeleted)

/-- A clear of the invocation deletes the row, and the late failure starts a circuit with
    the token that the row is created with. -/
theorem not_lateFailuresIgnored_invocationCleared :
    ¬ ∀ (hashString : JsString → JsString) (calls : List CircuitCall) (input : ActionFailure),
      (∃ attempt ∈ (calls.foldl (circuitWatchStep hashString) CircuitWatch.start).attempts,
        attempt.cleared = true ∧ input.action = attempt.action
          ∧ input.generationToken = some attempt.token) → IgnoresFailure hashString
          (calls.foldl (circuitWatchStep hashString) CircuitWatch.start).state input := by
  intro hall
  obtain ⟨hanswer, -⟩ := hall id [.arm lateAction, .clearInvocation (js "s") 1] lateReport
    ⟨{ action := lateAction, token := 1, cleared := true, rowDeleted := true },
      by decide +kernel, rfl, rfl, rfl⟩
  have hcounted : ¬ (noteActionCircuitFailure id lateReport
      ([.arm lateAction, .clearInvocation (js "s") 1].foldl (circuitWatchStep id)
        CircuitWatch.start).state).2
      = { entry := none, enteredHardStop := false, ignoredLateEvent := true } := by
    decide +kernel
  exact hcounted hanswer

end Late

end OpencodeSwarm
