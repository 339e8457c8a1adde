/-
  OpencodeSwarm.Failures.ActionCircuit

  The circuits of failing actions (`src/failures/action-circuit.ts`): failure counts
  by action and kind, and a generation token by action that an attempt carries, so
  that a failure reported after a clear can be told from one of a new attempt.

  The keys are the strings of the source with their NUL separators, and a clear of
  an invocation or a session goes by prefix.  The reset audit is not modelled.
-/
import OpencodeSwarm.Lib.Json
import OpencodeSwarm.Lib.OrderedMap

namespace OpencodeSwarm

open Js

def MAX_TRACKED_ACTION_CIRCUITS : Nat := 500

def ACTION_CIRCUIT_TTL_MS : Int := 30 * 60000

/-! ## Keys -/

/-- The action of an attempt. -/
structure ActionId where
  sessionID : JsString
  invocationID : Int
  actionDigest : JsString
  deriving DecidableEq

/-- The separator of the parts of a key. -/
def nul : CodeUnit := 0

def sessionPrefix (sessionID : JsString) : JsString := sessionID ++ [nul]

def familyPrefix (sessionID : JsString) (invocationID : Int) : JsString :=
  sessionPrefix sessionID ++ integerText invocationID ++ [nul]

def familyKey (action : ActionId) : JsString :=
  familyPrefix action.sessionID action.invocationID ++ action.actionDigest

def circuitKey (action : ActionId) (circuitKind : JsString) : JsString :=
  familyKey action ++ [nul] ++ circuitKind

theorem familyPrefix_isPrefixOf (action : ActionId) :
    (familyPrefix action.sessionID action.invocationID).isPrefixOf (familyKey action) = true := by
  rw [List.isPrefixOf_iff_prefix]
  exact List.prefix_append _ _

theorem sessionPrefix_isPrefixOf (action : ActionId) :
    (sessionPrefix action.sessionID).isPrefixOf (familyKey action) = true := by
  rw [List.isPrefixOf_iff_prefix]
  unfold familyKey familyPrefix
  rw [List.append_assoc, List.append_assoc]
  exact List.prefix_append _ _

/-! ## State -/

structure ActionCircuitEntry where
  action : ActionId
  circuitKind : JsString
  count : Nat
  hardStop : Bool
  generationToken : Int
  lastSignalDigest : Option JsString
  firstSeenAt : Int
  updatedAt : Int
  expiresAt : Int
  deriving DecidableEq

/-- The maps of the module. -/
structure ActionCircuits where
  actionCircuits : OrderedMap JsString ActionCircuitEntry
  actionGenerationTokens : OrderedMap JsString Int
  armedActions : OrderedMap JsString Int

def noActionCircuits : ActionCircuits where
  actionCircuits := []
  actionGenerationTokens := []
  armedActions := []

def pruneGenerationTokenIfUnused (family : JsString) (state : ActionCircuits) : ActionCircuits :=
  let hasEntries := state.actionCircuits.keys.any fun key => (family ++ [nul]).isPrefixOf key
  let isArmed := (state.armedActions.get? family).isSome
  if !hasEntries && !isArmed then
    { state with actionGenerationTokens := state.actionGenerationTokens.erase family }
  else state

/-- `removeEntry`, and the generation of its action with the last entry. -/
def removeAndPrune (state : ActionCircuits) (binding : JsString × ActionCircuitEntry) :
    ActionCircuits :=
  pruneGenerationTokenIfUnused (familyKey binding.2.action)
    { state with actionCircuits := state.actionCircuits.erase binding.1 }

def sweepExpired (now : Int) (state : ActionCircuits) : ActionCircuits :=
  let swept := state.actionCircuits.foldl
    (fun state binding =>
      if binding.2.expiresAt ≤ now then removeAndPrune state binding else state) state
  { swept with
    armedActions := swept.armedActions.filter fun armed =>
      decide (swept.actionGenerationTokens.get? armed.1 = some armed.2) }

def ensureGenerationToken (action : ActionId) (state : ActionCircuits) : ActionCircuits × Int :=
  match state.actionGenerationTokens.get? (familyKey action) with
  | some current => (state, current)
  | none =>
    ({ state with
      actionGenerationTokens := state.actionGenerationTokens.set (familyKey action) 1 }, 1)

def bumpGenerationToken (action : ActionId) (state : ActionCircuits) : ActionCircuits :=
  let ensured := ensureGenerationToken action state
  { ensured.1 with
    actionGenerationTokens :=
      ensured.1.actionGenerationTokens.set (familyKey action) (ensured.2 + 1)
    armedActions := ensured.1.armedActions.erase (familyKey action) }

def touchEntry (now : Int) (binding : JsString × ActionCircuitEntry) (state : ActionCircuits) :
    ActionCircuits × ActionCircuitEntry :=
  let touched := { binding.2 with expiresAt := now + ACTION_CIRCUIT_TTL_MS }
  ({ state with
    actionCircuits := (state.actionCircuits.erase binding.1).set binding.1 touched }, touched)

/-- `enforceCapacity`.  A round takes an entry away, so as many rounds as entries suffice. -/
def enforceCapacity : Nat → ActionCircuits → ActionCircuits
  | 0, state => state
  | rounds + 1, state =>
    if MAX_TRACKED_ACTION_CIRCUITS < state.actionCircuits.length then
      match state.actionCircuits with
      | [] => state
      | oldest :: _ => enforceCapacity rounds (removeAndPrune state oldest)
    else state

/-! ## Operations -/

def armActionCircuitAttempt (action : ActionId) (state : ActionCircuits) : ActionCircuits × Int :=
  let ensured := ensureGenerationToken action state
  ({ ensured.1 with armedActions := ensured.1.armedActions.set (familyKey action) ensured.2 },
    ensured.2)

/-- The input of `noteActionCircuitFailure`, with the clock it reads. -/
structure ActionFailure where
  action : ActionId
  circuitKind : JsString
  signal : JsString
  hardStopThreshold : Int
  now : Int
  generationToken : Option Int

structure FailureAnswer where
  entry : Option ActionCircuitEntry
  enteredHardStop : Bool
  ignoredLateEvent : Bool
  deriving DecidableEq

/-- `noteActionCircuitFailure` behind its sweep. -/
def noteSwept (hashString : JsString → JsString) (input : ActionFailure) (swept : ActionCircuits) :
    ActionCircuits × FailureAnswer :=
  let expectedToken := input.generationToken.or (swept.armedActions.get? (familyKey input.action))
  let ensured := ensureGenerationToken input.action swept
  if expectedToken ≠ some ensured.2 then
    (ensured.1, { entry := none, enteredHardStop := false, ignoredLateEvent := true })
  else
    let key := circuitKey input.action input.circuitKind
    let existing := ensured.1.actionCircuits.get? key
    let count := (existing.map ActionCircuitEntry.count).getD 0 + 1
    let hardStop := decide (input.hardStopThreshold ≤ count)
    let entry : ActionCircuitEntry :=
      { action := input.action
        circuitKind := input.circuitKind
        count
        hardStop
        generationToken := ensured.2
        lastSignalDigest := if input.signal ≠ [] then some (hashString input.signal) else none
        firstSeenAt := (existing.map ActionCircuitEntry.firstSeenAt).getD input.now
        updatedAt := input.now
        expiresAt := input.now + ACTION_CIRCUIT_TTL_MS }
    let written :=
      { ensured.1 with actionCircuits := (ensured.1.actionCircuits.erase key).set key entry }
    (enforceCapacity written.actionCircuits.length written,
      { entry := some entry
        enteredHardStop := hardStop && !existing.any ActionCircuitEntry.hardStop
        ignoredLateEvent := false })

def noteActionCircuitFailure (hashString : JsString → JsString) (input : ActionFailure)
    (state : ActionCircuits) : ActionCircuits × FailureAnswer :=
  noteSwept hashString input (sweepExpired input.now state)

/-- The entries whose key has the prefix go. -/
def removeEntries (keyPrefix : JsString) (state : ActionCircuits) : ActionCircuits :=
  { state with
    actionCircuits := state.actionCircuits.filter fun binding => !keyPrefix.isPrefixOf binding.1 }

def clearActionCircuit (action : ActionId) (state : ActionCircuits) : ActionCircuits :=
  bumpGenerationToken action (removeEntries (familyKey action ++ [nul]) state)

/-- The clears by prefix: the entries, the tokens and what was armed with them. -/
def clearFamilies (keyPrefix : JsString) (state : ActionCircuits) : ActionCircuits :=
  let families := state.actionGenerationTokens.keys.filter fun family => keyPrefix.isPrefixOf family
  families.foldl
    (fun state family =>
      { state with
        actionGenerationTokens := state.actionGenerationTokens.erase family
        armedActions := state.armedActions.erase family })
    (removeEntries keyPrefix state)

def clearInvocationActionCircuits (sessionID : JsString) (invocationID : Int)
    (state : ActionCircuits) : ActionCircuits :=
  clearFamilies (familyPrefix sessionID invocationID) state

def clearSessionActionCircuits (sessionID : JsString) (state : ActionCircuits) : ActionCircuits :=
  clearFamilies (sessionPrefix sessionID) state

def getBlockingActionCircuit (now : Int) (action : ActionId) (state : ActionCircuits) :
    ActionCircuits × Option ActionCircuitEntry :=
  let swept := sweepExpired now state
  match swept.actionCircuits.find? fun binding =>
      (familyKey action ++ [nul]).isPrefixOf binding.1 && binding.2.hardStop with
  | some binding =>
    let touched := touchEntry now binding swept
    (touched.1, some touched.2)
  | none => (swept, none)

end OpencodeSwarm
