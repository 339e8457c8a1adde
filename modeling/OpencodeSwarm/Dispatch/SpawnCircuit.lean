/-
  OpencodeSwarm.Dispatch.SpawnCircuit

  The spawn-protection circuit of native task delegations: failed dispatches of
  one action open its entry, an open entry denies, and after the cool-down one
  probe is let through.  All entries live in one bounded map, from which
  `evictExpired` drops the stalest and the idle.

  The registry of armed dispatch identities is not modelled: a step names the
  action whose digest it goes by.
-/
import OpencodeSwarm.Failures.ActionCircuit
import OpencodeSwarm.Lib.JsonCodec
import OpencodeSwarm.Lib.Transition

namespace OpencodeSwarm

open Js

def MAX_TRACKED_SPAWN_CIRCUITS : Nat := 500

def SPAWN_CIRCUIT_TTL_MS : Int := 30 * 60000

def SPAWN_CIRCUIT_DENIAL_CODE : JsString := js "SPAWN PROTECTION CIRCUIT OPEN"

/-! ## Keys -/

/-- `activeInvocationId` of the session, as text. -/
def invocationIdForSession (activeInvocationId : Option Int) : JsString :=
  match activeInvocationId with
  | none => js "none"
  | some invocation => integerText invocation

/-- An action of an invocation of a session.  The invocation is `none` or a number and the
    digest is hexadecimal, so neither holds the separator; a session id may. -/
structure SpawnKey where
  sessionID : JsString
  invocationID : JsString
  actionDigest : JsString
  nul_notMem_invocationID : nul ∉ invocationID
  nul_notMem_actionDigest : nul ∉ actionDigest
  deriving DecidableEq

def entryKey (key : SpawnKey) : JsString :=
  key.sessionID ++ [nul] ++ key.invocationID ++ [nul] ++ key.actionDigest

theorem nul_notMem_invocationIdForSession (activeInvocationId : Option Int) :
    nul ∉ invocationIdForSession activeInvocationId := by
  intro hmem
  cases activeInvocationId with
  | none =>
    have hplain : ∀ c ∈ js "none", c ≠ nul := forall_mem_of_all (by decide)
    exact hplain nul hmem rfl
  | some invocation =>
    have hdigit : ∀ k, nul ∉ decimal k := by
      intro k hk
      exact absurd (isDigit_of_mem_decimal hk) (by decide)
    dsimp only [invocationIdForSession, integerText] at hmem
    split at hmem
    · rcases List.mem_cons.mp hmem with hsign | hrest
      · exact absurd hsign (by decide)
      · exact hdigit _ hrest
    · exact hdigit _ hmem

/-- The key of a call of the session. -/
def spawnKeyFor (sessionID : JsString) (activeInvocationId : Option Int) (digest : JsString)
    (h : nul ∉ digest) : SpawnKey where
  sessionID := sessionID
  invocationID := invocationIdForSession activeInvocationId
  actionDigest := digest
  nul_notMem_invocationID := nul_notMem_invocationIdForSession activeInvocationId
  nul_notMem_actionDigest := h

/-! ## State -/

inductive SpawnState where
  | CLOSED
  | OPEN
  | HALF_OPEN
  deriving DecidableEq

structure SpawnCircuitEntry where
  state : SpawnState
  sessionID : JsString
  invocationID : JsString
  actionDigest : JsString
  failureCount : Nat
  openedAt : Int
  denyUntil : Int
  denialsInEpisode : Nat
  updatedAt : Int
  deriving DecidableEq

/-- The `spawnCircuits` map. -/
abbrev SpawnCircuits := OrderedMap JsString SpawnCircuitEntry

/-- The configuration values a call is given. -/
structure SpawnLimits where
  threshold : Int
  halfOpenAfterMs : Int
  deriving DecidableEq

def sweepIdle (now : Int) (circuits : SpawnCircuits) : SpawnCircuits :=
  circuits.filter fun binding => decide (¬ SPAWN_CIRCUIT_TTL_MS < now - binding.2.updatedAt)

def evictExpired (now : Int) (circuits : SpawnCircuits) : SpawnCircuits :=
  if circuits.length ≤ MAX_TRACKED_SPAWN_CIRCUITS then sweepIdle now circuits
  else
    let byAge := circuits.mergeSort fun a b => a.2.updatedAt ≤ b.2.updatedAt
    let excess := circuits.length - MAX_TRACKED_SPAWN_CIRCUITS
    sweepIdle now
      ((byAge.take excess).foldl (fun circuits binding => circuits.erase binding.1) circuits)

/-! ## Calls -/

/-- The entry that a failure writes over `existing`, and whether it opened the circuit. -/
def failedEntry (existing : Option SpawnCircuitEntry) (key : SpawnKey) (limits : SpawnLimits)
    (now : Int) : SpawnCircuitEntry × Bool :=
  let entry := match existing with
    | some existing =>
        { existing with failureCount := existing.failureCount + 1, updatedAt := now }
    | none =>
        { state := .CLOSED
          sessionID := key.sessionID
          invocationID := key.invocationID
          actionDigest := key.actionDigest
          failureCount := 1
          openedAt := 0
          denyUntil := 0
          denialsInEpisode := 0
          updatedAt := now }
  let opened :=
    { entry with
      state := .OPEN
      openedAt := now
      denyUntil := now + max 1 limits.halfOpenAfterMs
      denialsInEpisode := 0 }
  if entry.state = .HALF_OPEN then
    -- a re-arm, which `opened` does not report
    (opened, false)
  else if entry.state ≠ .OPEN ∧ max 1 limits.threshold ≤ entry.failureCount then (opened, true)
  else (entry, false)

def noteDispatchSpawnFailure (circuits : SpawnCircuits) (key : SpawnKey) (limits : SpawnLimits)
    (now : Int) : SpawnCircuits × SpawnCircuitEntry × Bool :=
  let failed := failedEntry (circuits.get? (entryKey key)) key limits now
  (evictExpired now (circuits.set (entryKey key) failed.1), failed)

/-- The message of a denial while the circuit is open. -/
def openDenial (entry : SpawnCircuitEntry) (limits : SpawnLimits) : JsString :=
  SPAWN_CIRCUIT_DENIAL_CODE ++ js ": repeated dispatch failures for this action ("
    ++ integerText entry.failureCount ++ js " of " ++ integerText (max 1 limits.threshold)
    ++ js "). Read, diagnose, repair, rescope, abort, and handoff controls remain available; one recovery probe is admitted after the half-open interval."

/-- The message of a denial while a probe is in flight. -/
def probeDenial : JsString :=
  SPAWN_CIRCUIT_DENIAL_CODE
    ++ js ": a recovery probe for this action is already in flight. Read, diagnose, repair, rescope, abort, and handoff controls remain available."

/-- The second part is the message of the error, where one is thrown. -/
def assertDispatchSpawnCircuitAdmits (circuits : SpawnCircuits) (key : SpawnKey)
    (limits : SpawnLimits) (now : Int) : SpawnCircuits × Option JsString :=
  match circuits.get? (entryKey key) with
  | none => (circuits, none)
  | some entry =>
      match entry.state with
      | .CLOSED => (circuits, none)
      | .OPEN =>
          if now < entry.denyUntil ∨ entry.denialsInEpisode = 0 then
            let entry :=
              { entry with denialsInEpisode := entry.denialsInEpisode + 1, updatedAt := now }
            (circuits.set (entryKey key) entry, some (openDenial entry limits))
          else
            (circuits.set (entryKey key) { entry with state := .HALF_OPEN, updatedAt := now }, none)
      | .HALF_OPEN => (circuits, some probeDenial)

def noteDispatchSpawnSuccess (circuits : SpawnCircuits) (key : SpawnKey) : SpawnCircuits :=
  circuits.erase (entryKey key)

/-! ## Steps -/

inductive SpawnStep where
  | failure (key : SpawnKey) (limits : SpawnLimits) (now : Int)
  | check (key : SpawnKey) (limits : SpawnLimits) (now : Int)
  | success (key : SpawnKey)
  deriving DecidableEq

def SpawnStep.key : SpawnStep → SpawnKey
  | .failure key _ _ => key
  | .check key _ _ => key
  | .success key => key

/-- What the caller of a step learns. -/
inductive SpawnAnswer where
  | recorded (entry : SpawnCircuitEntry) (opened : Bool)
  | checked (denial : Option JsString)
  | cleared
  deriving DecidableEq

def spawnStep (circuits : SpawnCircuits) : SpawnStep → SpawnCircuits × SpawnAnswer
  | .failure key limits now =>
      let noted := noteDispatchSpawnFailure circuits key limits now
      (noted.1, .recorded noted.2.1 noted.2.2)
  | .check key limits now =>
      let asserted := assertDispatchSpawnCircuitAdmits circuits key limits now
      (asserted.1, .checked asserted.2)
  | .success key => (noteDispatchSpawnSuccess circuits key, .cleared)

def spawnNext (circuits : SpawnCircuits) (step : SpawnStep) : SpawnCircuits :=
  (spawnStep circuits step).1

/-- The map after the steps of a process, which begins with none. -/
def circuitsAfter (steps : List SpawnStep) : SpawnCircuits := steps.foldl spawnNext []

/-! ## Keys do not collide -/

theorem eq_of_append_separator {α : Type*} {separator : α} {front front' back back' : List α}
    (hback : separator ∉ back) (hback' : separator ∉ back')
    (h : front ++ separator :: back = front' ++ separator :: back') :
    front = front' ∧ back = back' := by
  rcases List.append_eq_append_iff.mp h with ⟨gap, hfront, hrest⟩ | ⟨gap, hfront, hrest⟩
  · cases gap with
    | nil => exact ⟨by simpa using hfront.symm, by simpa using hrest⟩
    | cons first gap =>
      have hmem : separator ∈ back := by
        rw [(List.cons_eq_cons.mp hrest).2]
        exact List.mem_append_right _ List.mem_cons_self
      exact absurd hmem hback
  · cases gap with
    | nil => exact ⟨by simpa using hfront, by simpa using hrest.symm⟩
    | cons first gap =>
      have hmem : separator ∈ back' := by
        rw [(List.cons_eq_cons.mp hrest).2]
        exact List.mem_append_right _ List.mem_cons_self
      exact absurd hmem hback'

theorem entryKey_injective {key other : SpawnKey} (h : entryKey key = entryKey other) :
    key = other := by
  unfold entryKey at h
  rw [List.append_assoc, List.append_assoc _ [nul] other.actionDigest] at h
  obtain ⟨hfront, hdigest⟩ := eq_of_append_separator key.nul_notMem_actionDigest
    other.nul_notMem_actionDigest h
  rw [List.append_assoc, List.append_assoc _ [nul] other.invocationID] at hfront
  obtain ⟨hsession, hinvocation⟩ := eq_of_append_separator key.nul_notMem_invocationID
    other.nul_notMem_invocationID hfront
  cases key
  cases other
  cases hsession
  cases hinvocation
  cases hdigest
  rfl

end OpencodeSwarm
