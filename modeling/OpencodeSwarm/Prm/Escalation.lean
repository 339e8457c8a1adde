/-
  OpencodeSwarm.Prm.Escalation

  The escalation tracker of a session (`src/prm/escalation.ts`): strike counts and
  hard-stop episodes by ladder, next to flags of the tracker as a whole.

  A call reads the clock once.  `recordDetection` reads it where it needs it, but
  no ladder depends on two readings of one call.
-/
import OpencodeSwarm.Lib.JsString
import OpencodeSwarm.Lib.OrderedMap

namespace OpencodeSwarm

open Js

def PRM_HARD_STOP_TERMINAL_REPEATS : Nat := 1

def PRM_TERMINAL_COOLDOWN_MS : Int := 15 * 60 * 1000

def MAX_TRACKED_LADDERS : Nat := 256

/-! ## Matches -/

inductive PatternType where
  | repetitionLoop
  | pingPong
  | expansionDrift
  | stuckOnTest
  | contextThrash
  deriving DecidableEq

def PatternType.text : PatternType → JsString
  | .repetitionLoop => js "repetition_loop"
  | .pingPong => js "ping_pong"
  | .expansionDrift => js "expansion_drift"
  | .stuckOnTest => js "stuck_on_test"
  | .contextThrash => js "context_thrash"

/-- The fields of a `PatternMatch` that the tracker reads. -/
structure PatternMatch where
  pattern : PatternType
  category : JsString
  stepRange : Nat × Nat
  affectedTargets : List JsString
  deriving DecidableEq

def resolveLadderKey (match_ : PatternMatch) : JsString :=
  match match_.affectedTargets with
  | [target] => match_.pattern.text ++ js "|" ++ target
  | _ => match_.pattern.text

structure CourseCorrection where
  alert : JsString
  category : JsString
  guidance : JsString
  action : JsString
  pattern : PatternType
  stepRange : Nat × Nat

def PatternType.alert : PatternType → JsString
  | .repetitionLoop => js ": Repetitive action loop detected"
  | .pingPong => js ": Delegation ping-pong detected"
  | .expansionDrift => js ": Scope expansion drift detected"
  | .stuckOnTest => js ": Stuck in edit-test cycle"
  | .contextThrash => js ": Excessive context requests detected"

def PatternType.guidance : PatternType → JsString
  | .repetitionLoop =>
    js "Stop the repetitive loop. Consolidate changes and take a different approach."
  | .pingPong => js "Interrupt the delegation cycle. Architect should take direct control."
  | .expansionDrift =>
    js "Freeze scope expansion. Complete current task before adding more work."
  | .stuckOnTest => js "Pause edit-test cycle. Review test expectations and verify environment."
  | .contextThrash =>
    js "Restrict file access. Use targeted selection instead of broad context requests."

def PatternType.action : PatternType → JsString
  | .repetitionLoop => js "Consolidate changes and change approach immediately."
  | .pingPong => js "Architect take direct control or redefine agent task boundaries."
  | .expansionDrift => js "Document progress and create follow-up issue for additional work."
  | .stuckOnTest => js "Review test expectations, verify environment, consult SME if needed."
  | .contextThrash =>
    js "Restrict to only the specific files needed for the current task."

def generateCorrection (match_ : PatternMatch) (level : Nat) (terminal : Bool) :
    CourseCorrection where
  alert :=
    (if level = 1 then js "GUIDANCE"
    else if level = 2 then js "STRONG GUIDANCE"
    else if terminal then js "HARD STOP (TERMINAL — HAND OFF)"
    else js "HARD STOP") ++ match_.pattern.alert
  category := match_.category
  guidance := match_.pattern.guidance
  action := match_.pattern.action
  pattern := match_.pattern
  stepRange := match_.stepRange

/-! ## The tracker -/

structure PrmEpisodeState where
  hardStopTriggered : Bool
  repeats : Nat
  terminal : Bool
  cooldownUntil : Int
  deriving DecidableEq

/-- The episode of a ladder that has none yet, or whose cooldown lapsed. -/
def freshEpisode : PrmEpisodeState where
  hardStopTriggered := false
  repeats := 0
  terminal := false
  cooldownUntil := 0

/-- The episode still absorbs detections. -/
def PrmEpisodeState.cooling (now : Int) (episode : PrmEpisodeState) : Bool :=
  episode.terminal && decide (now < episode.cooldownUntil)

structure EscalationState where
  patternCounts : OrderedMap JsString Nat
  escalationLevel : Nat
  lastPatternDetected : Option PatternMatch
  hardStopPending : Bool
  episodes : OrderedMap JsString PrmEpisodeState
  generation : Nat

def createDefaultEscalationState : EscalationState where
  patternCounts := []
  escalationLevel := 0
  lastPatternDetected := none
  hardStopPending := false
  episodes := []
  generation := 0

/-- The events a detection emits. -/
inductive PrmTelemetry where
  | escalationTriggered (sessionId : JsString) (pattern : PatternType) (level count : Nat)
  | hardStop (sessionId : JsString) (pattern : PatternType) (level count : Nat)
  | hardStopTerminal (sessionId : JsString) (pattern : PatternType) (level count : Nat)

/-- What `recordDetection` returns, and what it emits. -/
structure Detection where
  level : Nat
  correction : CourseCorrection
  hardStop : Bool
  terminal : Bool
  telemetry : List PrmTelemetry

/-- `delete` and `set` of one key: it goes to the back of the eviction order. -/
def refreshCount (counts : OrderedMap JsString Nat) (key : JsString) (count : Nat) :
    OrderedMap JsString Nat :=
  (counts.erase key).set key count

/-- The eviction loop.  A round takes a ladder away or skips a cooling one, so `rounds`
    of them suffice. -/
def evictLadders (now : Int) : Nat → Nat → OrderedMap JsString Nat →
    OrderedMap JsString PrmEpisodeState → OrderedMap JsString Nat
      × OrderedMap JsString PrmEpisodeState
  | 0, _, counts, episodes => (counts, episodes)
  | rounds + 1, coolingSkipped, counts, episodes =>
    if MAX_TRACKED_LADDERS < counts.length then
      match counts with
      | [] => (counts, episodes)
      | (oldest, oldestCount) :: _ =>
        if (episodes.get? oldest).any (PrmEpisodeState.cooling now)
            && coolingSkipped < MAX_TRACKED_LADDERS then
          evictLadders now rounds (coolingSkipped + 1) (refreshCount counts oldest oldestCount)
            episodes
        else evictLadders now rounds coolingSkipped (counts.erase oldest) (episodes.erase oldest)
    else (counts, episodes)

/-- A match takes its ladder one step up, unless the ladder cools down. -/
def recordDetection (sessionId : JsString) (now : Int) (match_ : PatternMatch)
    (state : EscalationState) : EscalationState × Detection :=
  let ladderKey := resolveLadderKey match_
  let episode := state.episodes.get? ladderKey
  if episode.any (PrmEpisodeState.cooling now) then
    ({ state with
      patternCounts :=
        match state.patternCounts.get? ladderKey with
        | some currentCount => refreshCount state.patternCounts ladderKey currentCount
        | none => state.patternCounts
      lastPatternDetected := some match_
      escalationLevel := 3 },
      { level := 3
        correction := generateCorrection match_ 3 true
        hardStop := false
        terminal := true
        telemetry := [] })
  else
    let lapsed :=
      if episode.any PrmEpisodeState.terminal then state.episodes.set ladderKey freshEpisode
      else state.episodes
    let newCount := (state.patternCounts.get? ladderKey).getD 0 + 1
    let counted := refreshCount state.patternCounts ladderKey newCount
    let kept := evictLadders now (counted.length + MAX_TRACKED_LADDERS) 0 counted lapsed
    let next :=
      { state with
        patternCounts := kept.1
        episodes := kept.2
        lastPatternDetected := some match_ }
    if newCount = 1 then
      ({ next with escalationLevel := 1 },
        { level := 1
          correction := generateCorrection match_ 1 false
          hardStop := false
          terminal := false
          telemetry := [] })
    else if newCount = 2 then
      ({ next with escalationLevel := 2 },
        { level := 2
          correction := generateCorrection match_ 2 false
          hardStop := false
          terminal := false
          telemetry := [.escalationTriggered sessionId match_.pattern 2 newCount] })
    else
      let ladderEpisode := (next.episodes.get? ladderKey).getD freshEpisode
      if !ladderEpisode.hardStopTriggered then
        -- the first hard stop of the episode
        ({ next with
          escalationLevel := 3
          generation := state.generation + 1
          hardStopPending := true
          episodes := next.episodes.set ladderKey
            { ladderEpisode with hardStopTriggered := true } },
          { level := 3
            correction := generateCorrection match_ 3 false
            hardStop := true
            terminal := false
            telemetry := [.hardStop sessionId match_.pattern 3 newCount] })
      else
        let repeated := { ladderEpisode with repeats := ladderEpisode.repeats + 1 }
        if PRM_HARD_STOP_TERMINAL_REPEATS ≤ repeated.repeats then
          ({ next with
            escalationLevel := 3
            generation := state.generation + 1
            episodes := next.episodes.set ladderKey
              { repeated with terminal := true, cooldownUntil := now + PRM_TERMINAL_COOLDOWN_MS } },
            { level := 3
              correction := generateCorrection match_ 3 true
              hardStop := false
              terminal := true
              telemetry := [.hardStopTerminal sessionId match_.pattern 3 newCount] })
        else
          ({ next with
            escalationLevel := 3
            hardStopPending := true
            episodes := next.episodes.set ladderKey repeated },
            { level := 3
              correction := generateCorrection match_ 3 false
              hardStop := true
              terminal := false
              telemetry := [] })

/-- The owner of an audited clear. -/
structure ClearOwner where
  sessionId : JsString
  generation : Nat

/-- The audit of a clear's owner; a clear without one passes. -/
def ownerPasses (sessionId : JsString) (state : EscalationState) (owner : Option ClearOwner) :
    Bool :=
  owner.all fun owner => owner.sessionId == sessionId && owner.generation == state.generation

/-- `clearAction`, by the key of the ladder. -/
def clearAction (sessionId : JsString) (ladderKey : JsString) (owner : Option ClearOwner)
    (state : EscalationState) : EscalationState × Bool :=
  if !ownerPasses sessionId state owner then (state, false)
  else if (state.patternCounts.get? ladderKey).isNone then (state, false)
  else
    ({ state with
      patternCounts := state.patternCounts.erase ladderKey
      episodes := state.episodes.erase ladderKey
      hardStopPending := false
      generation := if owner.isSome then state.generation + 1 else state.generation }, true)

end OpencodeSwarm
