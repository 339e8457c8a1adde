/-
  OpencodeSwarm.Dispatch.TokenBucket

  Pacing of native task delegations by a token bucket, one bucket for a project
  directory.  Times and levels are rationals.

  A call of `acquireDispatchToken` is one round of its loop and, as long as the
  bucket is empty, a sleep before the next round; between two rounds any other
  call can run.  `BucketWorld` holds the bucket of the process, the row of the
  coordination store, the pending sleeps and what happened so far.
-/
import Mathlib.Algebra.Order.Field.Rat
import Mathlib.Tactic.Linarith
import Mathlib.Tactic.Ring
import Mathlib.Tactic.Positivity
import OpencodeSwarm.Lib.Transition

namespace OpencodeSwarm

/-! ## The bucket -/

structure BucketState where
  level : ℚ
  lastRefillMs : ℚ
  deriving DecidableEq

/-- The payload of the row as `hydrate` reads it: a field that is not a finite number, or
    sits in a text that does not parse, is `none`. -/
structure BucketPayload where
  level : Option ℚ
  lastRefillMs : Option ℚ
  deriving DecidableEq

def refill (bucket : BucketState) (ratePerSecond capacity now : ℚ) : BucketState :=
  -- a stamp ahead of the clock is pulled back, so that the elapsed time advances
  let bucket := if now < bucket.lastRefillMs then { bucket with lastRefillMs := now } else bucket
  let elapsedSeconds := (now - bucket.lastRefillMs) / 1000
  if 0 < elapsedSeconds ∧ 0 < ratePerSecond then
    { level := min capacity (bucket.level + elapsedSeconds * ratePerSecond), lastRefillMs := now }
  else bucket

/-- The row after `persist`. -/
def persistedRow (bucket : BucketState) : BucketPayload :=
  { level := some bucket.level, lastRefillMs := some bucket.lastRefillMs }

/-- `memory` is the entry of the `buckets` map, `row` what `readState` returned: nothing also
    where it threw.  The clock is read at `created`, and at `nowMs` for a usable row. -/
def hydrate (memory : Option BucketState) (row : Option BucketPayload)
    (capacity created nowMs : ℚ) : BucketState :=
  match memory with
  | some existing => existing
  | none =>
      match row.bind BucketPayload.level with
      | none => { level := capacity, lastRefillMs := created }
      | some level =>
          { level := min capacity (max 0 level)
            lastRefillMs := match row.bind BucketPayload.lastRefillMs with
              | some lastRefillMs => min lastRefillMs nowMs
              | none => nowMs }

/-- The pause before the next round. -/
def sleepMs (bucket : BucketState) (rate : ℚ) : ℚ :=
  let waitMs := max 1 (((1 - bucket.level) / rate) * 1000)
  min waitMs 1000

/-! ## The calls -/

inductive BucketEvent where
  | granted (time : ℚ)
  | restarted (time : ℚ)
  deriving DecidableEq

/-- `waiting` holds the end of every pending sleep, `clock` the latest reading. -/
structure BucketWorld where
  bucket : Option BucketState
  row : Option BucketPayload
  waiting : List ℚ
  clock : ℚ
  history : List BucketEvent
  deriving DecidableEq

/-- One round of the loop of `acquireDispatchToken`; `persists` says whether the write of the
    row goes through. -/
def acquireRound (rate capacity : ℚ) (world : BucketWorld) (bucket : BucketState) (now : ℚ)
    (waited persists : Bool) : BucketWorld :=
  let bucket := refill bucket rate capacity now
  if 1 ≤ bucket.level then
    let bucket := { bucket with level := bucket.level - 1 }
    { world with
      bucket := some bucket
      row := if waited && persists then some (persistedRow bucket) else world.row
      clock := now
      history := world.history ++ [.granted now] }
  else
    { world with
      bucket := some bucket
      waiting := world.waiting ++ [now + sleepMs bucket rate]
      clock := now }

/-- What happens next: a call starts (its readings of the clock, and whether the row could be
    read), the sleep at place `i` of the pending ones ends, or the process restarts. -/
inductive BucketStep where
  | acquireDispatchToken (readable : Bool) (created nowMs now : ℚ)
  | wake (i : Nat) (now : ℚ) (persists : Bool)
  | restart (now : ℚ)
  deriving DecidableEq

/-- `none` where the step cannot happen: the clock runs backwards, the sleep is not over, or
    there is no such sleep. -/
def bucketStep (ratePerSecond burstCapacity : ℚ) (world : BucketWorld) :
    BucketStep → Option BucketWorld
  | .acquireDispatchToken readable created nowMs now =>
      -- 0 disables limiting
      if ¬ 0 < ratePerSecond then some world
      else if world.clock ≤ created ∧ created ≤ nowMs ∧ nowMs ≤ now then
        let capacity := max 1 burstCapacity
        let row := if readable then world.row else none
        let bucket := hydrate world.bucket row capacity created nowMs
        some (acquireRound ratePerSecond capacity world bucket now false false)
      else none
  | .wake i now persists =>
      match world.waiting[i]?, world.bucket with
      | some due, some bucket =>
          if world.clock ≤ now ∧ due ≤ now then
            some (acquireRound ratePerSecond (max 1 burstCapacity)
              { world with waiting := world.waiting.eraseIdx i } bucket now true persists)
          else none
      | _, _ => none
  | .restart now =>
      if world.clock ≤ now then
        some { world with
          bucket := none
          waiting := []
          clock := now
          history := world.history ++ [.restarted now] }
      else none

/-- A process that has not touched its bucket yet, over any row. -/
def BucketWorld.start (row : Option BucketPayload) (clock : ℚ) : BucketWorld :=
  { bucket := none, row := row, waiting := [], clock := clock, history := [] }

/-! ## Refilling -/

section Refill

variable {bucket : BucketState} {rate now : ℚ} (capacity : ℚ)

theorem refill_cases (h : bucket.lastRefillMs ≤ now) (hrate : 0 < rate) :
    (bucket.lastRefillMs < now ∧ refill bucket rate capacity now
          = { level := min capacity (bucket.level + (now - bucket.lastRefillMs) / 1000 * rate)
              lastRefillMs := now })
      ∨ (bucket.lastRefillMs = now ∧ refill bucket rate capacity now = bucket) := by
  have hclamp : ¬ now < bucket.lastRefillMs := not_lt.mpr h
  rw [refill, if_neg hclamp]
  rcases h.lt_or_eq with hlt | heq
  · have helapsed : 0 < (now - bucket.lastRefillMs) / 1000 := by
      have hpos : 0 < now - bucket.lastRefillMs := sub_pos.mpr hlt
      positivity
    exact Or.inl ⟨hlt, if_pos ⟨helapsed, hrate⟩⟩
  · have helapsed : ¬ 0 < (now - bucket.lastRefillMs) / 1000 := by
      rw [heq]
      norm_num
    exact Or.inr ⟨heq, if_neg fun hboth => helapsed hboth.1⟩

theorem lastRefillMs_refill (h : bucket.lastRefillMs ≤ now) (hrate : 0 < rate) :
    (refill bucket rate capacity now).lastRefillMs = now := by
  obtain ⟨-, hrefill⟩ | ⟨heq, hrefill⟩ := refill_cases capacity h hrate
  · rw [hrefill]
  · rw [hrefill, heq]

theorem level_refill_mem (h : bucket.lastRefillMs ≤ now) (hrate : 0 < rate)
    (hlevel : 0 ≤ bucket.level ∧ bucket.level ≤ capacity) :
    0 ≤ (refill bucket rate capacity now).level
      ∧ (refill bucket rate capacity now).level ≤ capacity := by
  obtain ⟨hlt, hrefill⟩ | ⟨-, hrefill⟩ := refill_cases capacity h hrate
  · rw [hrefill]
    have hgain : 0 ≤ (now - bucket.lastRefillMs) / 1000 * rate := by positivity
    refine ⟨le_min (hlevel.1.trans hlevel.2) ?_, min_le_left _ _⟩
    linarith [hlevel.1]
  · rw [hrefill]
    exact hlevel

end Refill

/-- Over the bucket that an empty round left behind, at a token a second or more, the call
    whose sleep is over has its token. -/
theorem wake_granted {rate burst later : ℚ} (hrate : 1 ≤ rate) {persists : Bool} {i : Nat}
    {world next : BucketWorld} {bucket : BucketState} (hbucket : world.bucket = some bucket)
    (hlevel : 0 ≤ bucket.level ∧ bucket.level < 1)
    (hwaits : world.waiting[i]? = some (bucket.lastRefillMs + sleepMs bucket rate))
    (hwake : bucketStep rate burst world (.wake i later persists) = some next) :
    next.history = world.history ++ [.granted later] := by
  have hpos : 0 < rate := zero_lt_one.trans_le hrate
  have hpause : (1 - bucket.level) / rate * 1000 ≤ sleepMs bucket rate := by
    refine le_min (le_max_right _ _) ?_
    have hquotient : (1 - bucket.level) / rate ≤ 1 := by
      rw [div_le_one hpos]
      linarith [hlevel.1]
    linarith
  have hneeded : 0 < (1 - bucket.level) / rate := div_pos (sub_pos.mpr hlevel.2) hpos
  dsimp only [bucketStep] at hwake
  rw [hwaits, hbucket] at hwake
  dsimp only at hwake
  split at hwake
  · next hclock =>
    have hslept : (1 - bucket.level) / rate ≤ (later - bucket.lastRefillMs) / 1000 := by
      linarith [hclock.2]
    have hone : 1 ≤ (refill bucket rate (max 1 burst) later).level := by
      obtain ⟨-, hrefill⟩ | ⟨heq, -⟩ :=
        refill_cases (max 1 burst) (show bucket.lastRefillMs ≤ later by linarith [hclock.2]) hpos
      · rw [hrefill]
        refine le_min (le_max_left _ _) ?_
        rw [div_le_iff₀ hpos] at hslept
        linarith
      · linarith
    cases hwake
    rw [acquireRound, if_pos hone]
  · cases hwake

end OpencodeSwarm
