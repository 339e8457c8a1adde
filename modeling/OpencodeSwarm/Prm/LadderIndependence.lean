/-
  OpencodeSwarm.Prm.LadderIndependence

  One ladder of the escalation tracker by itself.  Its answers follow from its own
  calls, in phases from the first guidance to the cooldown of a terminal episode.
  The pending flag belongs to the tracker, and it stands for the ladders that
  raised a stop as long as no clear of another ladder succeeds.
-/
import Mathlib.Data.List.Dedup
import OpencodeSwarm.Lib.Transition
import OpencodeSwarm.Prm.Escalation

namespace OpencodeSwarm

open Js Transition Crash

/-! ## Calls of the tracker -/

inductive TrackerCall where
  | record (now : Int) (match_ : PatternMatch)
  | clear (ladderKey : JsString) (owner : Option ClearOwner)

def TrackerCall.key : TrackerCall → JsString
  | .record _ match_ => resolveLadderKey match_
  | .clear ladderKey _ => ladderKey

/-- What a detection answers about its ladder. -/
structure LadderAnswer where
  level : Nat
  hardStop : Bool
  terminal : Bool
  deriving DecidableEq

def Detection.answer (detection : Detection) : LadderAnswer where
  level := detection.level
  hardStop := detection.hardStop
  terminal := detection.terminal

/-- The tracker behind a call. -/
def trackerStep (sessionId : JsString) (state : EscalationState) : TrackerCall → EscalationState
  | .record now match_ => (recordDetection sessionId now match_ state).1
  | .clear ladderKey owner => (clearAction sessionId ladderKey owner state).1

/-- The answers to the detections of one ladder. -/
def answersOf (sessionId key : JsString) : EscalationState → List TrackerCall → List LadderAnswer
  | _, [] => []
  | state, call :: rest =>
    let later := answersOf sessionId key (trackerStep sessionId state call) rest
    match call with
    | .record now match_ =>
      if resolveLadderKey match_ = key then
        (recordDetection sessionId now match_ state).2.answer :: later
      else later
    | .clear _ _ => later

/-! ## One ladder -/

/-- What the tracker keeps of one ladder. -/
structure LadderState where
  count : Option Nat
  episode : Option PrmEpisodeState
  deriving DecidableEq

def EscalationState.ladder (state : EscalationState) (key : JsString) : LadderState where
  count := state.patternCounts.get? key
  episode := state.episodes.get? key

/-- A call as its ladder sees it.  The audit of an owner is part of a clear. -/
inductive LadderCall where
  | detect (now : Int)
  | clear (audited : Bool)
  deriving DecidableEq

/-- A detection, for its ladder alone. -/
def LadderState.detect (now : Int) (ladder : LadderState) : LadderState × LadderAnswer :=
  if ladder.episode.any (PrmEpisodeState.cooling now) then
    (ladder, { level := 3, hardStop := false, terminal := true })
  else
    let episode :=
      if ladder.episode.any PrmEpisodeState.terminal then some freshEpisode else ladder.episode
    let count := ladder.count.getD 0 + 1
    if count = 1 then
      ({ count := some count, episode }, { level := 1, hardStop := false, terminal := false })
    else if count = 2 then
      ({ count := some count, episode }, { level := 2, hardStop := false, terminal := false })
    else
      let current := episode.getD freshEpisode
      if !current.hardStopTriggered then
        ({ count := some count, episode := some { current with hardStopTriggered := true } },
          { level := 3, hardStop := true, terminal := false })
      else
        let repeated := { current with repeats := current.repeats + 1 }
        if PRM_HARD_STOP_TERMINAL_REPEATS ≤ repeated.repeats then
          ({ count := some count
             episode := some
               { repeated with terminal := true, cooldownUntil := now + PRM_TERMINAL_COOLDOWN_MS } },
            { level := 3, hardStop := false, terminal := true })
        else
          ({ count := some count, episode := some repeated },
            { level := 3, hardStop := true, terminal := false })

/-- A clear, for its ladder alone. -/
def LadderState.clear (audited : Bool) (ladder : LadderState) : LadderState :=
  if audited && ladder.count.isSome then { count := none, episode := none } else ladder

/-- The answers of a ladder that nothing else shares a tracker with. -/
def ladderAnswers : LadderState → List LadderCall → List LadderAnswer
  | _, [] => []
  | ladder, .detect now :: rest => (ladder.detect now).2 :: ladderAnswers (ladder.detect now).1 rest
  | ladder, .clear audited :: rest => ladderAnswers (ladder.clear audited) rest

/-- The calls for one ladder. -/
def ladderCalls (sessionId key : JsString) : EscalationState → List TrackerCall → List LadderCall
  | _, [] => []
  | state, call :: rest =>
    let later := ladderCalls sessionId key (trackerStep sessionId state call) rest
    if call.key = key then
      match call with
      | .record now _ => .detect now :: later
      | .clear _ owner => .clear (ownerPasses sessionId state owner) :: later
    else later

/-! ## Phases -/

/-- Where a ladder stands between its first detection and the end of a cooldown. -/
inductive LadderPhase where
  | unseen
  | guided
  | warned
  | stopped
  | cooling (until_ : Int)
  deriving DecidableEq

/-- 1, 2, one hard stop, one terminal transition, and terminal answers until the
    cooldown ends; then the next hard stop. -/
def LadderPhase.detect (now : Int) : LadderPhase → LadderPhase × LadderAnswer
  | .unseen => (.guided, { level := 1, hardStop := false, terminal := false })
  | .guided => (.warned, { level := 2, hardStop := false, terminal := false })
  | .warned => (.stopped, { level := 3, hardStop := true, terminal := false })
  | .stopped =>
    (.cooling (now + PRM_TERMINAL_COOLDOWN_MS), { level := 3, hardStop := false, terminal := true })
  | .cooling until_ =>
    if now < until_ then (.cooling until_, { level := 3, hardStop := false, terminal := true })
    else (.stopped, { level := 3, hardStop := true, terminal := false })

def LadderPhase.clear (audited : Bool) (phase : LadderPhase) : LadderPhase :=
  if audited then .unseen else phase

def phaseAnswers : LadderPhase → List LadderCall → List LadderAnswer
  | _, [] => []
  | phase, .detect now :: rest => (phase.detect now).2 :: phaseAnswers (phase.detect now).1 rest
  | phase, .clear audited :: rest => phaseAnswers (phase.clear audited) rest

/-- No hard stop in the episode. -/
def IdleEpisode (episode : Option PrmEpisodeState) : Prop :=
  ∀ e, episode = some e → e.hardStopTriggered = false ∧ e.terminal = false

/-- The ladder is in the phase. -/
def LadderState.InPhase (ladder : LadderState) : LadderPhase → Prop
  | .unseen => ladder.count.getD 0 = 0 ∧ IdleEpisode ladder.episode
  | .guided => ladder.count = some 1 ∧ IdleEpisode ladder.episode
  | .warned => (∃ count, ladder.count = some count ∧ 2 ≤ count) ∧ IdleEpisode ladder.episode
  | .stopped => (∃ count, ladder.count = some count ∧ 2 ≤ count)
      ∧ ∃ e, ladder.episode = some e ∧ e.hardStopTriggered = true ∧ e.terminal = false
  | .cooling until_ => (∃ count, ladder.count = some count ∧ 2 ≤ count)
      ∧ ∃ e, ladder.episode = some e ∧ e.terminal = true ∧ e.cooldownUntil = until_

section Phases

variable {ladder : LadderState} {now : Int}

theorem IdleEpisode.open_ {episode : Option PrmEpisodeState} (h : IdleEpisode episode) :
    episode.any (PrmEpisodeState.cooling now) = false ∧ episode.any PrmEpisodeState.terminal = false
      ∧ (episode.getD freshEpisode).hardStopTriggered = false
      ∧ (episode.getD freshEpisode).terminal = false := by
  cases episode with
  | none => exact ⟨rfl, rfl, rfl, rfl⟩
  | some e =>
    obtain ⟨htriggered, hterminal⟩ := h e rfl
    refine ⟨?_, hterminal, htriggered, hterminal⟩
    rw [Option.any_some, PrmEpisodeState.cooling, hterminal]
    rfl

theorem LadderState.InPhase.detect {phase : LadderPhase} (h : ladder.InPhase phase) :
    (ladder.detect now).2 = (phase.detect now).2
      ∧ (ladder.detect now).1.InPhase (phase.detect now).1 := by
  obtain ⟨count, episode⟩ := ladder
  cases phase with
  | unseen =>
    obtain ⟨hcount, hidle⟩ := h
    obtain ⟨hcooling, hterminal, -, -⟩ := @IdleEpisode.open_ now _ hidle
    have hone : count.getD 0 + 1 = 1 := congrArg (· + 1) hcount
    simp only [LadderState.detect, hcooling, hterminal, hone, Bool.false_eq_true, if_false, if_true]
    exact ⟨rfl, rfl, hidle⟩
  | guided =>
    obtain ⟨hcount, hidle⟩ := h
    obtain ⟨hcooling, hterminal, -, -⟩ := @IdleEpisode.open_ now _ hidle
    obtain rfl : count = some 1 := hcount
    simp only [LadderState.detect, hcooling, hterminal, Bool.false_eq_true, if_false]
    exact ⟨rfl, ⟨2, rfl, Nat.le_refl 2⟩, hidle⟩
  | warned =>
    obtain ⟨⟨n, hcount, hn⟩, hidle⟩ := h
    obtain ⟨hcooling, hterminal, htriggered, hstays⟩ := @IdleEpisode.open_ now _ hidle
    obtain rfl : count = some n := hcount
    have hone : ¬ n + 1 = 1 := by omega
    have htwo : ¬ n + 1 = 2 := by omega
    simp only [LadderState.detect, hcooling, hterminal, Option.getD_some, hone, htwo, htriggered,
      Bool.false_eq_true, Bool.not_false, if_false, if_true]
    exact ⟨rfl, ⟨n + 1, rfl, by omega⟩, _, rfl, rfl, hstays⟩
  | stopped =>
    obtain ⟨⟨n, hcount, hn⟩, e, hepisode, htriggered, hterminal⟩ := h
    obtain rfl : count = some n := hcount
    obtain rfl : episode = some e := hepisode
    have hone : ¬ n + 1 = 1 := by omega
    have htwo : ¬ n + 1 = 2 := by omega
    have hrepeats : PRM_HARD_STOP_TERMINAL_REPEATS ≤ e.repeats + 1 := Nat.le_add_left 1 _
    simp only [LadderState.detect, Option.any_some, PrmEpisodeState.cooling, hterminal,
      Bool.false_and, Option.getD_some, hone, htwo, htriggered, hrepeats, Bool.false_eq_true,
      Bool.not_true, if_false, if_true]
    exact ⟨rfl, ⟨n + 1, rfl, by omega⟩, _, rfl, rfl, rfl⟩
  | cooling until_ =>
    obtain ⟨⟨n, hcount, hn⟩, e, hepisode, hterminal, huntil⟩ := h
    obtain rfl : count = some n := hcount
    obtain rfl : episode = some e := hepisode
    subst huntil
    by_cases hnow : now < e.cooldownUntil
    · simp only [LadderState.detect, LadderPhase.detect, Option.any_some, PrmEpisodeState.cooling,
        hterminal, hnow, decide_true, Bool.and_self, if_true]
      exact ⟨trivial, ⟨n, rfl, hn⟩, e, rfl, hterminal, rfl⟩
    · have hone : ¬ n + 1 = 1 := by omega
      have htwo : ¬ n + 1 = 2 := by omega
      simp only [LadderState.detect, LadderPhase.detect, Option.any_some, PrmEpisodeState.cooling,
        hterminal, hnow, decide_false, Bool.and_false, Bool.false_eq_true, if_false, if_true,
        Option.getD_some, hone, htwo]
      exact ⟨rfl, ⟨n + 1, rfl, by omega⟩, _, rfl, rfl, rfl⟩

variable {phase : LadderPhase}

/-- A clear that passes its audit takes a ladder back to the start. -/
theorem LadderState.InPhase.clear (h : ladder.InPhase phase) (audited : Bool) :
    (ladder.clear audited).InPhase (phase.clear audited) := by
  unfold LadderState.clear LadderPhase.clear
  cases audited with
  | false => exact h
  | true =>
    simp only [Bool.true_and, if_true]
    split
    · exact ⟨rfl, fun _ h => nomatch h⟩
    -- a ladder without a count is in no other phase
    rename_i hnone
    rw [Option.not_isSome_iff_eq_none] at hnone
    cases phase with
    | unseen => exact h
    | guided =>
      rw [h.1] at hnone
      cases hnone
    | warned | stopped | cooling =>
      obtain ⟨⟨n, hcount, -⟩, -⟩ := h
      rw [hcount] at hnone
      cases hnone

theorem ladderAnswers_eq_phaseAnswers (h : ladder.InPhase phase) (calls : List LadderCall) :
    ladderAnswers ladder calls = phaseAnswers phase calls := by
  induction calls generalizing ladder phase with
  | nil => rfl
  | cons call rest ih =>
    cases call with
    | detect now =>
      obtain ⟨hanswer, hnext⟩ := @LadderState.InPhase.detect _ now _ h
      rw [ladderAnswers, phaseAnswers, hanswer, ih hnext]
    | clear audited =>
      rw [ladderAnswers, phaseAnswers, ih (h.clear audited)]

end Phases

/-! ## A ladder of the tracker -/

/-- The ladders that the tracker counts are among `bound`. -/
structure EscalationState.Within (bound : List JsString) (state : EscalationState) : Prop where
  nodup : state.patternCounts.keys.Nodup
  mem : ∀ key ∈ state.patternCounts.keys, key ∈ bound

section Tracker

variable {sessionId key : JsString} {bound : List JsString} {state : EscalationState}

theorem evictLadders_of_le {now : Int} {rounds coolingSkipped : Nat}
    {counts : OrderedMap JsString Nat} {episodes : OrderedMap JsString PrmEpisodeState}
    (h : counts.length ≤ MAX_TRACKED_LADDERS) :
    evictLadders now rounds coolingSkipped counts episodes = (counts, episodes) := by
  cases rounds with
  | zero => rfl
  | succ rounds =>
    unfold evictLadders
    rw [if_neg (Nat.not_lt.mpr h)]

theorem get?_refreshCount (counts : OrderedMap JsString Nat) (key other : JsString) (count : Nat) :
    (refreshCount counts key count).get? other
      = if other = key then some count else counts.get? other := by
  rw [refreshCount, OrderedMap.get?_set, OrderedMap.get?_erase]
  split <;> rfl

theorem refreshCount_keys {counts : OrderedMap JsString Nat} {key : JsString} {count : Nat}
    (hnodup : counts.keys.Nodup) (hmem : ∀ other ∈ counts.keys, other ∈ bound)
    (hkey : key ∈ bound) :
    (refreshCount counts key count).keys.Nodup
      ∧ ∀ other ∈ (refreshCount counts key count).keys, other ∈ bound := by
  refine ⟨OrderedMap.nodup_keys_set (OrderedMap.nodup_keys_erase hnodup), fun other hother => ?_⟩
  rcases OrderedMap.mem_keys_set hother with rfl | hold
  · exact hkey
  · exact hmem other (OrderedMap.mem_keys_erase hold).2

/-- What a detection leaves of the counts, when nothing is evicted. -/
theorem EscalationState.Within.counted (h : state.Within bound)
    (hbound : bound.length ≤ MAX_TRACKED_LADDERS) (hkey : key ∈ bound) (count : Nat) :
    (refreshCount state.patternCounts key count).length ≤ MAX_TRACKED_LADDERS := by
  obtain ⟨hnodup, hmem⟩ := @refreshCount_keys bound _ _ count h.nodup h.mem hkey
  exact (OrderedMap.length_le_of_keys hnodup hmem).trans hbound

theorem ladder_eq_of_get? {next : EscalationState} {ladder : LadderState}
    (hcount : ∀ other, next.patternCounts.get? other
      = if other = key then ladder.count else state.patternCounts.get? other)
    (hepisode : ∀ other, next.episodes.get? other
      = if other = key then ladder.episode else state.episodes.get? other) (other : JsString) :
    next.ladder other = if other = key then ladder else state.ladder other := by
  rw [EscalationState.ladder, hcount, hepisode]
  split <;> rfl

theorem recordDetection_ladder (h : state.Within bound)
    (hbound : bound.length ≤ MAX_TRACKED_LADDERS) {now : Int} {match_ : PatternMatch}
    (hkey : resolveLadderKey match_ ∈ bound) :
    (recordDetection sessionId now match_ state).2.answer
        = ((state.ladder (resolveLadderKey match_)).detect now).2
      ∧ (∀ other, (recordDetection sessionId now match_ state).1.ladder other
          = if other = resolveLadderKey match_ then
              ((state.ladder (resolveLadderKey match_)).detect now).1 else state.ladder other)
      ∧ (recordDetection sessionId now match_ state).1.Within bound := by
  have hevict : ∀ count episodes rounds,
      evictLadders now rounds 0
          (refreshCount state.patternCounts (resolveLadderKey match_) count) episodes
        = (refreshCount state.patternCounts (resolveLadderKey match_) count, episodes) :=
    fun count _ _ => evictLadders_of_le (h.counted hbound hkey count)
  have hwithin := fun count => @refreshCount_keys bound _ _ count h.nodup h.mem hkey
  have hcount := fun count other =>
    get?_refreshCount state.patternCounts (resolveLadderKey match_) other count
  by_cases hcooling :
      (state.episodes.get? (resolveLadderKey match_)).any (PrmEpisodeState.cooling now) = true
  · have hdetect : (state.ladder (resolveLadderKey match_)).detect now
        = (state.ladder (resolveLadderKey match_),
          { level := 3, hardStop := false, terminal := true }) := if_pos hcooling
    simp only [hdetect, recordDetection, hcooling, if_true]
    refine ⟨rfl, ladder_eq_of_get? ?_ ?_, ?_⟩
    · -- the count only moves to the back
      intro other
      split
      · rename_i count hget
        rw [hcount]
        split
        · exact hget.symm
        · rfl
      · split
        · rename_i heq
          rw [heq]
          rfl
        · rfl
    · intro other
      dsimp only
      split
      · rename_i heq
        rw [heq]
        rfl
      · rfl
    · constructor
      · split
        · exact (hwithin _).1
        · exact h.nodup
      · split
        · exact (hwithin _).2
        · exact h.mem
  · generalize hlapse :
      (if (state.episodes.get? (resolveLadderKey match_)).any PrmEpisodeState.terminal then
          some freshEpisode
        else state.episodes.get? (resolveLadderKey match_)) = lapsed
    generalize hepisodesDef :
      (if (state.episodes.get? (resolveLadderKey match_)).any PrmEpisodeState.terminal then
          state.episodes.set (resolveLadderKey match_) freshEpisode
        else state.episodes) = episodes
    have hepisodes : ∀ other, episodes.get? other
        = if other = resolveLadderKey match_ then lapsed else state.episodes.get? other := by
      intro other
      rw [← hlapse, ← hepisodesDef]
      by_cases heq : other = resolveLadderKey match_
      · rw [heq, if_pos rfl]
        split
        · rw [OrderedMap.get?_set, if_pos rfl]
        · rfl
      · split
        · rw [OrderedMap.get?_set, if_neg heq]
        · rfl
    have hown := hepisodes (resolveLadderKey match_)
    rw [if_pos rfl] at hown
    have hset : ∀ episode other, (episodes.set (resolveLadderKey match_) episode).get? other
        = if other = resolveLadderKey match_ then some episode else state.episodes.get? other := by
      intro episode other
      rw [OrderedMap.get?_set, hepisodes]
      split <;> rfl
    generalize hnew : (state.patternCounts.get? (resolveLadderKey match_)).getD 0 + 1 = newCount
    have hnewLadder :
        (state.ladder (resolveLadderKey match_)).count.getD 0 + 1 = newCount := hnew
    have hlapseLadder :
        (if (state.ladder (resolveLadderKey match_)).episode.any PrmEpisodeState.terminal then
            some freshEpisode
          else (state.ladder (resolveLadderKey match_)).episode) = lapsed := hlapse
    have hcoolingLadder : ¬ (state.ladder (resolveLadderKey match_)).episode.any
        (PrmEpisodeState.cooling now) = true := hcooling
    simp only [recordDetection, LadderState.detect, hcooling, hcoolingLadder, hnew, hnewLadder,
      hlapseLadder, hepisodesDef, hevict, hown, if_false, Bool.false_eq_true]
    by_cases hone : newCount = 1
    · simp only [hone, if_true]
      exact ⟨rfl, ladder_eq_of_get? (hcount 1) hepisodes, (hwithin 1).1, (hwithin 1).2⟩
    by_cases htwo : newCount = 2
    · simp only [htwo, Nat.reduceEqDiff, if_true, if_false]
      exact ⟨rfl, ladder_eq_of_get? (hcount 2) hepisodes, (hwithin 2).1, (hwithin 2).2⟩
    simp only [hone, htwo, if_false]
    by_cases htriggered : (!(lapsed.getD freshEpisode).hardStopTriggered) = true
    · simp only [htriggered, if_true]
      exact ⟨rfl, ladder_eq_of_get? (hcount newCount) (hset _), (hwithin newCount).1,
        (hwithin newCount).2⟩
    simp only [htriggered, Bool.false_eq_true, if_false]
    by_cases hrepeats :
        PRM_HARD_STOP_TERMINAL_REPEATS ≤ (lapsed.getD freshEpisode).repeats + 1
    · exact ⟨rfl, ladder_eq_of_get? (hcount newCount) (hset _), (hwithin newCount).1,
        (hwithin newCount).2⟩
    · exact ⟨rfl, ladder_eq_of_get? (hcount newCount) (hset _), (hwithin newCount).1,
        (hwithin newCount).2⟩

theorem clearAction_ladder (h : state.Within bound) (owner : Option ClearOwner) :
    (∀ other, (clearAction sessionId key owner state).1.ladder other
        = if other = key then (state.ladder key).clear (ownerPasses sessionId state owner)
          else state.ladder other) ∧ (clearAction sessionId key owner state).1.Within bound := by
  have hsame : (state.ladder key).clear (ownerPasses sessionId state owner) = state.ladder key →
      ∀ other, state.ladder other
        = if other = key then (state.ladder key).clear (ownerPasses sessionId state owner)
          else state.ladder other := by
    intro heq other
    rw [heq]
    split
    · rename_i hother
      rw [hother]
    · rfl
  unfold clearAction
  split
  · rename_i haudit
    rw [Bool.not_eq_true'] at haudit
    exact ⟨hsame (by rw [haudit]; rfl), h⟩
  · rename_i haudit
    rw [Bool.not_eq_true', Bool.not_eq_false] at haudit
    split
    · rename_i hnone
      rw [Option.isNone_iff_eq_none] at hnone
      refine ⟨hsame ?_, h⟩
      simp [LadderState.clear, EscalationState.ladder, hnone]
    · rename_i hsome
      have hcleared : (state.ladder key).clear (ownerPasses sessionId state owner)
          = { count := none, episode := none } := by
        have hcount : (state.ladder key).count.isSome = true := by
          rw [← Option.not_isNone, Bool.not_eq_true']
          exact Bool.not_eq_true _ ▸ hsome
        simp [LadderState.clear, haudit, hcount]
      rw [hcleared]
      refine ⟨@ladder_eq_of_get? _ state _ _ ?_ ?_, ?_, ?_⟩
      · exact fun other => OrderedMap.get?_erase state.patternCounts key other
      · exact fun other => OrderedMap.get?_erase state.episodes key other
      · exact OrderedMap.nodup_keys_erase h.nodup
      · exact fun other hother => h.mem other (OrderedMap.mem_keys_erase hother).2

theorem trackerStep_ladder (h : state.Within bound) (hbound : bound.length ≤ MAX_TRACKED_LADDERS)
    {call : TrackerCall} (hcall : call.key ∈ bound) :
    (call.key ≠ key → (trackerStep sessionId state call).ladder key = state.ladder key)
      ∧ (trackerStep sessionId state call).Within bound := by
  cases call with
  | record now match_ =>
    obtain ⟨-, hladder, hwithin⟩ := @recordDetection_ladder sessionId _ _ h hbound now match_ hcall
    refine ⟨fun hne => ?_, hwithin⟩
    have hother : ¬ key = resolveLadderKey match_ := Ne.symm hne
    rw [trackerStep, hladder, if_neg hother]
  | clear ladderKey owner =>
    obtain ⟨hladder, hwithin⟩ := @clearAction_ladder sessionId ladderKey _ _ h owner
    refine ⟨fun hne => ?_, hwithin⟩
    have hother : ¬ key = ladderKey := Ne.symm hne
    rw [trackerStep, hladder, if_neg hother]

theorem answersOf_eq_ladderAnswers (h : state.Within bound)
    (hbound : bound.length ≤ MAX_TRACKED_LADDERS) {calls : List TrackerCall}
    (hcalls : ∀ call ∈ calls, call.key ∈ bound) :
    answersOf sessionId key state calls
      = ladderAnswers (state.ladder key) (ladderCalls sessionId key state calls) := by
  induction calls generalizing state with
  | nil => rfl
  | cons call rest ih =>
    have hcall := hcalls call List.mem_cons_self
    obtain ⟨hframe, hwithin⟩ := @trackerStep_ladder sessionId key _ _ h hbound call hcall
    have hrest := ih hwithin fun other hother => hcalls other (List.mem_cons_of_mem _ hother)
    cases call with
    | record now match_ =>
      obtain ⟨hanswer, hladder, -⟩ := @recordDetection_ladder sessionId _ _ h hbound now match_ hcall
      by_cases hkey : resolveLadderKey match_ = key
      · subst hkey
        have hnext := hladder (resolveLadderKey match_)
        rw [if_pos rfl] at hnext
        simp only [answersOf, ladderCalls, TrackerCall.key, if_true, ladderAnswers]
        rw [hrest, hanswer, trackerStep, hnext]
      · simp only [answersOf, ladderCalls, TrackerCall.key, hkey, if_false]
        rw [hrest, hframe hkey]
    | clear ladderKey owner =>
      obtain ⟨hladder, -⟩ := @clearAction_ladder sessionId ladderKey _ _ h owner
      by_cases hkey : ladderKey = key
      · subst hkey
        have hnext := hladder ladderKey
        rw [if_pos rfl] at hnext
        simp only [answersOf, ladderCalls, TrackerCall.key, if_true, ladderAnswers]
        rw [hrest, trackerStep, hnext]
      · simp only [answersOf, ladderCalls, TrackerCall.key, hkey, if_false]
        rw [hrest, hframe hkey]

end Tracker

/-! ## Stops that stand -/

/-- The tracker, and the ladders that raised a hard stop and were not cleared since. -/
structure TrackerWatch where
  state : EscalationState
  standing : List JsString

/-- A call, and the ladders with a standing hard stop. -/
def watchStep (sessionId : JsString) (watch : TrackerWatch) : TrackerCall → TrackerWatch
  | .record now match_ =>
    let result := recordDetection sessionId now match_ watch.state
    { state := result.1
      standing :=
        if result.2.hardStop then resolveLadderKey match_ :: watch.standing else watch.standing }
  | .clear ladderKey owner =>
    let result := clearAction sessionId ladderKey owner watch.state
    { state := result.1
      standing :=
        if result.2 then watch.standing.filter fun key => decide (key ≠ ladderKey)
        else watch.standing }

/-- A stop that stands is pending. -/
def TrackerWatch.StopsHold (watch : TrackerWatch) : Prop :=
  watch.standing ≠ [] → watch.state.hardStopPending = true

/-- A clear that goes through finds no stop of another ladder. -/
def ClearsOwnStops (sessionId : JsString) (watch : TrackerWatch) : TrackerCall → Prop
  | .record _ _ => True
  | .clear ladderKey owner =>
    ownerPasses sessionId watch.state owner = true →
      (watch.state.patternCounts.get? ladderKey).isSome = true →
        ∀ key ∈ watch.standing, key = ladderKey

section Watch

variable {sessionId : JsString} {watch : TrackerWatch}

/-- A detection raises the pending flag with its hard stop, and never lowers it. -/
theorem recordDetection_hardStopPending (now : Int) (match_ : PatternMatch)
    (state : EscalationState) :
    (recordDetection sessionId now match_ state).1.hardStopPending
      = (state.hardStopPending || (recordDetection sessionId now match_ state).2.hardStop) := by
  dsimp only [recordDetection]
  split
  · exact (Bool.or_false _).symm
  generalize evictLadders now _ 0 _ _ = kept
  split
  · exact (Bool.or_false _).symm
  split
  · exact (Bool.or_false _).symm
  split
  · exact (Bool.or_true _).symm
  split
  · exact (Bool.or_false _).symm
  · exact (Bool.or_true _).symm

theorem clearAction_snd (key : JsString) (owner : Option ClearOwner) (state : EscalationState) :
    (clearAction sessionId key owner state).2
      = (ownerPasses sessionId state owner && (state.patternCounts.get? key).isSome) := by
  unfold clearAction
  cases ownerPasses sessionId state owner with
  | false => rfl
  | true => cases state.patternCounts.get? key <;> rfl

/-- A clear that goes through lowers the pending flag, and another one leaves it. -/
theorem clearAction_hardStopPending (key : JsString) (owner : Option ClearOwner)
    (state : EscalationState) :
    (clearAction sessionId key owner state).1.hardStopPending
      = (state.hardStopPending && !(clearAction sessionId key owner state).2) := by
  unfold clearAction
  cases ownerPasses sessionId state owner with
  | false => exact (Bool.and_true _).symm
  | true =>
    cases state.patternCounts.get? key with
    | none => exact (Bool.and_true _).symm
    | some _ => exact (Bool.and_false _).symm

theorem TrackerWatch.StopsHold.step (h : watch.StopsHold) {call : TrackerCall}
    (hown : ClearsOwnStops sessionId watch call) : (watchStep sessionId watch call).StopsHold := by
  cases call with
  | record now match_ =>
    dsimp only [TrackerWatch.StopsHold, watchStep]
    rw [recordDetection_hardStopPending]
    intro hstanding
    cases hstop : (recordDetection sessionId now match_ watch.state).2.hardStop with
    | true => exact Bool.or_true _
    | false =>
      rw [hstop] at hstanding
      rw [h hstanding]
      rfl
  | clear ladderKey owner =>
    dsimp only [TrackerWatch.StopsHold, watchStep]
    rw [clearAction_hardStopPending]
    intro hstanding
    cases hdone : (clearAction sessionId ladderKey owner watch.state).2 with
    | false =>
      rw [hdone] at hstanding
      rw [h hstanding]
      rfl
    | true =>
      -- only stops of the cleared ladder stood, and they are gone
      rw [hdone, if_pos rfl] at hstanding
      rw [clearAction_snd, Bool.and_eq_true] at hdone
      refine absurd (List.filter_eq_nil_iff.mpr fun key hkey => ?_) hstanding
      rw [hown hdone.1 hdone.2 key hkey]
      simp

/-- Along a run whose clears take their own stops only, every standing stop is pending. -/
theorem stopsHold_of_along {calls : List TrackerCall} (h : watch.StopsHold)
    (hown : Along (watchStep sessionId) (ClearsOwnStops sessionId) watch calls) :
    AtEveryCut (watchStep sessionId) TrackerWatch.StopsHold watch calls := by
  induction calls generalizing watch with
  | nil => exact atEveryCut_nil.mpr h
  | cons call rest ih => exact atEveryCut_cons.mpr ⟨h, ih (h.step hown.1) hown.2⟩

end Watch

/-- With at most `MAX_TRACKED_LADDERS` ladders, each one answers by its own calls, in
    phases, and a hard stop stays pending for the ladders that raised one until a clear of
    another ladder goes through. -/
theorem laddersIndependent (sessionId : JsString) (state : EscalationState)
    (calls : List TrackerCall) (hnodup : state.patternCounts.keys.Nodup)
    (hdistinct : (state.patternCounts.keys ++ calls.map TrackerCall.key).dedup.length
      ≤ MAX_TRACKED_LADDERS) :
    (∀ key, answersOf sessionId key state calls
          = ladderAnswers (state.ladder key) (ladderCalls sessionId key state calls)
        ∧ ∀ phase, (state.ladder key).InPhase phase → answersOf sessionId key state calls
            = phaseAnswers phase (ladderCalls sessionId key state calls))
      ∧ (Along (watchStep sessionId) (ClearsOwnStops sessionId) { state, standing := [] } calls →
        AtEveryCut (watchStep sessionId) TrackerWatch.StopsHold
          { state, standing := [] } calls) := by
  have hwithin : state.Within (state.patternCounts.keys ++ calls.map TrackerCall.key).dedup :=
    ⟨hnodup, fun key hkey => List.mem_dedup.mpr (List.mem_append_left _ hkey)⟩
  have hcalls : ∀ call ∈ calls,
      call.key ∈ (state.patternCounts.keys ++ calls.map TrackerCall.key).dedup :=
    fun call hcall => List.mem_dedup.mpr (List.mem_append_right _ (List.mem_map_of_mem hcall))
  refine ⟨fun key => ?_, fun hown => ?_⟩
  · have hladder := @answersOf_eq_ladderAnswers sessionId key _ _ hwithin hdistinct _ hcalls
    refine ⟨hladder, fun phase hphase => ?_⟩
    rw [hladder]
    exact ladderAnswers_eq_phaseAnswers hphase _
  · have hstart : TrackerWatch.StopsHold { state, standing := [] } :=
      fun hstanding => absurd rfl hstanding
    exact stopsHold_of_along hstart hown

/-- A match of one ladder of edits to a file. -/
def loopOn (target : JsString) : PatternMatch where
  pattern := .repetitionLoop
  category := js "coordination"
  stepRange := (0, 1)
  affectedTargets := [target]

/-- Two ladders in turn, with a clear by the owner that the first stop left behind. -/
def twoLadders : List TrackerCall :=
  [.record 0 (loopOn (js "a")), .record 1 (loopOn (js "a")), .record 2 (loopOn (js "b")),
    .record 3 (loopOn (js "b")), .record 4 (loopOn (js "b")),
    .clear (js "repetition_loop|a") (some { sessionId := js "s", generation := 0 }),
    .clear (js "repetition_loop|b") none, .record 5 (loopOn (js "a"))]

theorem laddersIndependent_twoLadders :
    answersOf (js "s") (js "repetition_loop|b") createDefaultEscalationState twoLadders
        = phaseAnswers .unseen [.detect 2, .detect 3, .detect 4, .clear true]
      ∧ AtEveryCut (watchStep (js "s")) TrackerWatch.StopsHold
          { state := createDefaultEscalationState, standing := [] } twoLadders := by
  have hown : Along (watchStep (js "s")) (ClearsOwnStops (js "s"))
      { state := createDefaultEscalationState, standing := [] } twoLadders :=
    ⟨trivial, trivial, trivial, trivial, trivial,
      fun haudit => absurd haudit (by decide +kernel), fun _ _ => by decide +kernel, trivial,
      trivial⟩
  obtain ⟨hladders, hstops⟩ := laddersIndependent (js "s") createDefaultEscalationState twoLadders
    List.nodup_nil (by decide +kernel)
  refine ⟨?_, hstops hown⟩
  have hunseen : (createDefaultEscalationState.ladder (js "repetition_loop|b")).InPhase .unseen :=
    ⟨rfl, fun _ h => nomatch h⟩
  rw [(hladders (js "repetition_loop|b")).2 .unseen hunseen]
  have hcalls : ladderCalls (js "s") (js "repetition_loop|b") createDefaultEscalationState twoLadders
      = [.detect 2, .detect 3, .detect 4, .clear true] := by decide +kernel
  rw [hcalls]

/-- The audit of an owner reads the generation that all ladders share: the hard stop of one
    ladder turns away a clear of the other, whose next answer is a third strike instead of
    a first one. -/
theorem not_ownCallsOnly_sharedGeneration :
    ¬ ∀ (sessionId key : JsString) (state : EscalationState) (calls : List TrackerCall),
      (state.patternCounts.keys ++ calls.map TrackerCall.key).dedup.length ≤ MAX_TRACKED_LADDERS →
        answersOf sessionId key state calls
          = answersOf sessionId key state (calls.filter fun call => decide (call.key = key)) := by
  intro hindependent
  have hsame := hindependent (js "s") (js "repetition_loop|a") createDefaultEscalationState twoLadders
    (by decide +kernel)
  have hdiffer : ¬ answersOf (js "s") (js "repetition_loop|a") createDefaultEscalationState twoLadders
      = answersOf (js "s") (js "repetition_loop|a") createDefaultEscalationState
          (twoLadders.filter fun call => decide (call.key = js "repetition_loop|a")) := by
    decide +kernel
  exact hdiffer hsame

end OpencodeSwarm
