/-
  OpencodeSwarm.Dispatch.SpawnBreaker

  Every key is a breaker of its own.  As long as `evictExpired` finds nothing to
  evict, a step touches the entry of its own key only; from the step that opens a
  circuit on, the entry is open and counts its denials, until one check turns it
  half-open, which then denies every check.
-/
import OpencodeSwarm.Dispatch.SpawnCircuit

namespace OpencodeSwarm

open Js Transition

/-! ## Nothing is evicted -/

/-- At most 500 entries, none of them idle for longer than the TTL. -/
def WithinCaps (now : Int) (circuits : SpawnCircuits) : Prop :=
  circuits.length ≤ MAX_TRACKED_SPAWN_CIRCUITS
    ∧ ∀ binding ∈ circuits, now - binding.2.updatedAt ≤ SPAWN_CIRCUIT_TTL_MS

instance (now : Int) (circuits : SpawnCircuits) : Decidable (WithinCaps now circuits) :=
  inferInstanceAs (Decidable (_ ∧ _))

/-- The map is within its caps where `evictExpired` looks at it. -/
def EvictsNothing (circuits : SpawnCircuits) : SpawnStep → Prop
  | .failure key limits now =>
      WithinCaps now (circuits.set (entryKey key)
        (failedEntry (circuits.get? (entryKey key)) key limits now).1)
  | .check .. => True
  | .success _ => True

instance : ∀ (circuits : SpawnCircuits) (step : SpawnStep), Decidable (EvictsNothing circuits step)
  | _, .failure .. => inferInstanceAs (Decidable (WithinCaps _ _))
  | _, .check .. => isTrue trivial
  | _, .success _ => isTrue trivial

variable {circuits : SpawnCircuits}

theorem evictExpired_eq_self {now : Int} (h : WithinCaps now circuits) :
    evictExpired now circuits = circuits := by
  rw [evictExpired, if_pos h.1]
  exact List.filter_eq_self.mpr fun binding hbinding =>
    decide_eq_true (not_lt.mpr (h.2 binding hbinding))

/-! ## A step and the entry of a key -/

/-- What a check leaves of the entry it finds. -/
def checkedEntry (entry : SpawnCircuitEntry) (now : Int) : SpawnCircuitEntry :=
  match entry.state with
  | .CLOSED => entry
  | .OPEN =>
      if now < entry.denyUntil ∨ entry.denialsInEpisode = 0 then
        { entry with denialsInEpisode := entry.denialsInEpisode + 1, updatedAt := now }
      else { entry with state := .HALF_OPEN, updatedAt := now }
  | .HALF_OPEN => entry

/-- What the step leaves of the entry of its key. -/
def entryAfter (entry : Option SpawnCircuitEntry) : SpawnStep → Option SpawnCircuitEntry
  | .failure key limits now => some (failedEntry entry key limits now).1
  | .check _ _ now => entry.map fun entry => checkedEntry entry now
  | .success _ => none

variable {step : SpawnStep}

theorem get?_spawnNext_self (h : EvictsNothing circuits step) :
    (spawnNext circuits step).get? (entryKey step.key)
      = entryAfter (circuits.get? (entryKey step.key)) step := by
  cases step with
  | failure key limits now =>
    show (evictExpired now (circuits.set (entryKey key) _)).get? (entryKey key) = _
    rw [evictExpired_eq_self h, OrderedMap.get?_set, if_pos rfl]
    rfl
  | check key limits now =>
    show (assertDispatchSpawnCircuitAdmits circuits key limits now).1.get? (entryKey key)
      = entryAfter (circuits.get? (entryKey key)) (.check key limits now)
    unfold assertDispatchSpawnCircuitAdmits
    split
    · next hnone => rw [hnone]; rfl
    · next entry hentry =>
      rw [hentry]
      show _ = some (checkedEntry entry now)
      unfold checkedEntry
      cases entry.state with
      | CLOSED | HALF_OPEN => exact hentry
      | OPEN =>
        dsimp only
        split
        · rw [OrderedMap.get?_set, if_pos rfl]
        · rw [OrderedMap.get?_set, if_pos rfl]
  | success key =>
    show (circuits.erase (entryKey key)).get? (entryKey key) = none
    rw [OrderedMap.get?_erase, if_pos rfl]

theorem get?_spawnNext_other {key : SpawnKey} (h : EvictsNothing circuits step)
    (hkey : step.key ≠ key) :
    (spawnNext circuits step).get? (entryKey key) = circuits.get? (entryKey key) := by
  have hother : ∀ other, other ≠ key → ¬ entryKey key = entryKey other := fun _ hother heq =>
    hother (entryKey_injective heq).symm
  cases step with
  | failure other limits now =>
    have hne := hother other hkey
    show (evictExpired now (circuits.set (entryKey other) _)).get? (entryKey key) = _
    rw [evictExpired_eq_self h, OrderedMap.get?_set, if_neg hne]
  | check other limits now =>
    have hne := hother other hkey
    show (assertDispatchSpawnCircuitAdmits circuits other limits now).1.get? (entryKey key) = _
    unfold assertDispatchSpawnCircuitAdmits
    split
    · rfl
    split
    · rfl
    · split
      · rw [OrderedMap.get?_set, if_neg hne]
      · rw [OrderedMap.get?_set, if_neg hne]
    · rfl
  | success other =>
    have hne := hother other hkey
    show (circuits.erase (entryKey other)).get? (entryKey key) = _
    rw [OrderedMap.get?_erase, if_neg hne]

theorem spawnAnswer_congr {others : SpawnCircuits}
    (h : circuits.get? (entryKey step.key) = others.get? (entryKey step.key)) :
    (spawnStep circuits step).2 = (spawnStep others step).2 := by
  cases step with
  | failure key limits now =>
    have hget : circuits.get? (entryKey key) = others.get? (entryKey key) := h
    show SpawnAnswer.recorded (failedEntry (circuits.get? (entryKey key)) key limits now).1
      (failedEntry (circuits.get? (entryKey key)) key limits now).2 = _
    rw [hget]
    rfl
  | check key limits now =>
    have hget : circuits.get? (entryKey key) = others.get? (entryKey key) := h
    show SpawnAnswer.checked (assertDispatchSpawnCircuitAdmits circuits key limits now).2
      = SpawnAnswer.checked (assertDispatchSpawnCircuitAdmits others key limits now).2
    unfold assertDispatchSpawnCircuitAdmits
    rw [hget]
    split
    · rfl
    split
    · rfl
    · split
      · rfl
      · rfl
    · rfl
  | success key => rfl

/-! ## The key on its own -/

/-- The map holds no entry but that of `key`. -/
def HoldsOnly (key : SpawnKey) (circuits : SpawnCircuits) : Prop :=
  circuits = [] ∨ ∃ entry, circuits = [(entryKey key, entry)]

theorem set_of_holdsOnly {key : SpawnKey} (h : HoldsOnly key circuits) (entry : SpawnCircuitEntry) :
    circuits.set (entryKey key) entry = [(entryKey key, entry)] := by
  obtain rfl | ⟨old, rfl⟩ := h
  · rfl
  · exact if_pos rfl

theorem updatedAt_failedEntry (existing : Option SpawnCircuitEntry) (key : SpawnKey)
    (limits : SpawnLimits) (now : Int) :
    (failedEntry existing key limits now).1.updatedAt = now := by
  unfold failedEntry
  cases existing with
  | none | some entry =>
    dsimp only
    split
    · rfl
    · split <;> rfl

theorem evictsNothing_of_holdsOnly (h : HoldsOnly step.key circuits) :
    EvictsNothing circuits step := by
  cases step with
  | failure key limits now =>
    have honly : HoldsOnly key circuits := h
    show WithinCaps now (circuits.set (entryKey key) _)
    rw [set_of_holdsOnly honly]
    have hone : 1 ≤ MAX_TRACKED_SPAWN_CIRCUITS := by decide
    refine ⟨hone, fun binding hbinding => ?_⟩
    rw [List.mem_singleton.mp hbinding]
    rw [updatedAt_failedEntry, sub_self]
    decide
  | check key limits now => exact trivial
  | success key => exact trivial

theorem holdsOnly_spawnNext (h : HoldsOnly step.key circuits) :
    HoldsOnly step.key (spawnNext circuits step) := by
  have hquiet := evictsNothing_of_holdsOnly h
  cases step with
  | failure key limits now =>
    have honly : HoldsOnly key circuits := h
    show HoldsOnly key (evictExpired now (circuits.set (entryKey key) _))
    rw [evictExpired_eq_self hquiet, set_of_holdsOnly honly]
    exact Or.inr ⟨_, rfl⟩
  | check key limits now =>
    show HoldsOnly key (assertDispatchSpawnCircuitAdmits circuits key limits now).1
    have hset : ∀ entry, HoldsOnly key (circuits.set (entryKey key) entry) := fun entry =>
      Or.inr ⟨entry, set_of_holdsOnly h entry⟩
    unfold assertDispatchSpawnCircuitAdmits
    split
    · exact h
    split
    · exact h
    · split
      · exact hset _
      · exact hset _
    · exact h
  | success key =>
    show HoldsOnly key (circuits.erase (entryKey key))
    have honly : HoldsOnly key circuits := h
    refine Or.inl ?_
    obtain rfl | ⟨old, rfl⟩ := honly
    · rfl
    · exact List.filter_cons_of_neg (by simp)

/-- A run leaves the entry of a key where the steps of this key alone leave it. -/
theorem get?_foldl_own {key : SpawnKey} {steps : List SpawnStep} {own : SpawnCircuits}
    (h : Along spawnNext EvictsNothing circuits steps) (hown : HoldsOnly key own)
    (hget : circuits.get? (entryKey key) = own.get? (entryKey key)) :
    (steps.foldl spawnNext circuits).get? (entryKey key)
      = ((steps.filter fun step => step.key = key).foldl spawnNext own).get? (entryKey key) := by
  induction steps generalizing circuits own with
  | nil => exact hget
  | cons step rest ih =>
    obtain ⟨hquiet, hrest⟩ := h
    by_cases hkey : step.key = key
    · rw [List.filter_cons_of_pos (by simpa using hkey), List.foldl_cons]
      subst hkey
      refine ih hrest (holdsOnly_spawnNext hown) ?_
      rw [get?_spawnNext_self hquiet, get?_spawnNext_self (evictsNothing_of_holdsOnly hown), hget]
    · rw [List.filter_cons_of_neg (by simpa using hkey)]
      exact ih hrest hown ((get?_spawnNext_other hquiet hkey).trans hget)

/-! ## Failures -/

/-- The state that an absent entry stands for is `CLOSED`. -/
def spawnStateOf (entry : Option SpawnCircuitEntry) : SpawnState :=
  (entry.map SpawnCircuitEntry.state).getD .CLOSED

def failureCountOf (entry : Option SpawnCircuitEntry) : Nat :=
  (entry.map SpawnCircuitEntry.failureCount).getD 0

section Failed

variable (existing : Option SpawnCircuitEntry) (key : SpawnKey) (limits : SpawnLimits) (now : Int)

theorem failureCount_failedEntry :
    (failedEntry existing key limits now).1.failureCount = failureCountOf existing + 1 := by
  unfold failedEntry
  cases existing with
  | none | some entry =>
    dsimp only
    split
    · rfl
    · split <;> rfl

/-- A failure opens the circuit, leaves it closed below the threshold, or leaves it open. -/
theorem failedEntry_cases :
    let entry := (failedEntry existing key limits now).1
    ((spawnStateOf existing = .HALF_OPEN
          ∨ (spawnStateOf existing = .CLOSED ∧ max 1 limits.threshold ≤ failureCountOf existing + 1))
        ∧ entry.state = .OPEN ∧ entry.denyUntil = now + max 1 limits.halfOpenAfterMs
        ∧ entry.denialsInEpisode = 0)
      ∨ (spawnStateOf existing = .CLOSED ∧ ¬ max 1 limits.threshold ≤ failureCountOf existing + 1
        ∧ entry.state = .CLOSED)
      ∨ ∃ old, existing = some old ∧ old.state = .OPEN ∧ entry.state = .OPEN
          ∧ entry.denyUntil = old.denyUntil ∧ entry.denialsInEpisode = old.denialsInEpisode := by
  intro entry
  unfold entry failedEntry
  cases existing with
  | none =>
    dsimp only
    rw [if_neg (by decide)]
    split
    · next hopens => exact Or.inl ⟨Or.inr ⟨rfl, hopens.2⟩, rfl, rfl, rfl⟩
    · next hbelow =>
      exact Or.inr (Or.inl ⟨rfl, fun hreached => hbelow ⟨by decide, hreached⟩, rfl⟩)
  | some old =>
    dsimp only
    cases hstate : old.state with
    | HALF_OPEN => exact Or.inl ⟨Or.inl hstate, rfl, rfl, rfl⟩
    | OPEN =>
      rw [if_neg (by decide), if_neg fun hopens => hopens.1 rfl]
      exact Or.inr (Or.inr ⟨old, rfl, hstate, rfl, rfl, rfl⟩)
    | CLOSED =>
      rw [if_neg (by decide)]
      split
      · next hopens => exact Or.inl ⟨Or.inr ⟨hstate, hopens.2⟩, rfl, rfl, rfl⟩
      · next hbelow =>
        exact Or.inr (Or.inl ⟨hstate, fun hreached => hbelow ⟨by decide, hreached⟩, rfl⟩)

end Failed

end OpencodeSwarm
