/-
  OpencodeSwarm.Dispatch.BucketWindow

  What a window of time can be granted.  `available` is the level the bucket has
  at a time to come; with the tokens granted in the window so far it stays below
  the restarts' bursts and the refill since the window began.  A grant moves a
  token from the one side to the other, a restart adds a burst to both.
-/
import OpencodeSwarm.Dispatch.TokenBucket

namespace OpencodeSwarm

open Transition

/-! ## Windows -/

/-- The tokens granted from `start` to `stop`. -/
def grantsWithin (start stop : ℚ) (history : List BucketEvent) : Nat :=
  history.countP fun
    | .granted time => start ≤ time ∧ time ≤ stop
    | .restarted _ => false

def restartsWithin (start stop : ℚ) (history : List BucketEvent) : Nat :=
  history.countP fun
    | .granted _ => false
    | .restarted time => start ≤ time ∧ time ≤ stop

def BucketEvent.time : BucketEvent → ℚ
  | .granted time => time
  | .restarted time => time

section Counting

variable (start stop time : ℚ) (history : List BucketEvent)

theorem grantsWithin_granted : grantsWithin start stop (history ++ [.granted time])
    = grantsWithin start stop history + if start ≤ time ∧ time ≤ stop then 1 else 0 := by
  simp [grantsWithin, List.countP_append, List.countP_cons]

theorem grantsWithin_restarted :
    grantsWithin start stop (history ++ [.restarted time]) = grantsWithin start stop history := by
  simp [grantsWithin, List.countP_append]

theorem restartsWithin_granted :
    restartsWithin start stop (history ++ [.granted time]) = restartsWithin start stop history := by
  simp [restartsWithin, List.countP_append]

theorem restartsWithin_restarted : restartsWithin start stop (history ++ [.restarted time])
    = restartsWithin start stop history + if start ≤ time ∧ time ≤ stop then 1 else 0 := by
  simp [restartsWithin, List.countP_append, List.countP_cons]

variable {start stop history}

theorem grantsWithin_eq_zero (h : ∀ event ∈ history, event.time < start) :
    grantsWithin start stop history = 0 := by
  refine List.countP_eq_zero.mpr fun event hevent => ?_
  have hearly := h event hevent
  cases event with
  | granted time => simpa [BucketEvent.time] using fun hstart => absurd hearly (not_lt.mpr hstart)
  | restarted _ => simp

end Counting

/-! ## The invariant -/

section Window

variable {rate capacity start stop : ℚ}

/-- The level the bucket has at `time` if nothing is taken until then.  A bucket that is not
    in memory yet counts as full. -/
def available (rate capacity : ℚ) (bucket : Option BucketState) (time : ℚ) : ℚ :=
  match bucket with
  | none => capacity
  | some bucket => min capacity (bucket.level + rate * ((time - bucket.lastRefillMs) / 1000))

/-- What the window allows until `time`. -/
def allowance (rate capacity start stop : ℚ) (history : List BucketEvent) (time : ℚ) : ℚ :=
  (1 + restartsWithin start stop history) * capacity + rate * ((time - start) / 1000)

def LevelWithin (capacity : ℚ) (world : BucketWorld) : Prop :=
  ∀ bucket, world.bucket = some bucket →
    0 ≤ bucket.level ∧ bucket.level ≤ capacity ∧ bucket.lastRefillMs ≤ world.clock

/-- The state of one window, at the clock of the world. -/
structure Paced (rate capacity start stop : ℚ) (world : BucketWorld) : Prop where
  level : LevelWithin capacity world
  past : ∀ event ∈ world.history, event.time ≤ world.clock
  opened : world.clock ≤ stop → ∀ time, world.clock ≤ time → start ≤ time →
    grantsWithin start stop world.history + available rate capacity world.bucket time
      ≤ allowance rate capacity start stop world.history time
  closed : stop < world.clock → start ≤ stop →
    grantsWithin start stop world.history ≤ allowance rate capacity start stop world.history stop

theorem allowance_granted (history : List BucketEvent) (now time : ℚ) :
    allowance rate capacity start stop (history ++ [.granted now]) time
      = allowance rate capacity start stop history time := by
  unfold allowance
  rw [restartsWithin_granted]

theorem allowance_restarted (history : List BucketEvent) (now time : ℚ) :
    allowance rate capacity start stop (history ++ [.restarted now]) time
      = allowance rate capacity start stop history time
        + if start ≤ now ∧ now ≤ stop then capacity else 0 := by
  unfold allowance
  rw [restartsWithin_restarted]
  split
  · push_cast
    ring
  · rw [Nat.add_zero, add_zero]

theorem capacity_le_allowance (hrate : 0 < rate) (hcapacity : 0 ≤ capacity)
    (history : List BucketEvent) {time : ℚ} (htime : start ≤ time) :
    capacity ≤ allowance rate capacity start stop history time := by
  have hgain : 0 ≤ rate * ((time - start) / 1000) := by
    positivity
  have hrestarts : 0 ≤ (restartsWithin start stop history : ℚ) * capacity := by positivity
  unfold allowance
  linarith

theorem available_le (rate capacity : ℚ) (bucket : Option BucketState) (time : ℚ) :
    available rate capacity bucket time ≤ capacity := by
  cases bucket with
  | none => exact le_refl _
  | some bucket => exact min_le_left _ _

variable {world : BucketWorld}

theorem available_nonneg (hrate : 0 < rate) (hcapacity : 0 ≤ capacity)
    (h : LevelWithin capacity world) {time : ℚ} (htime : world.clock ≤ time) :
    0 ≤ available rate capacity world.bucket time := by
  unfold available
  split
  · exact hcapacity
  rename_i bucket hbucket
  obtain ⟨hlevel, -, hlast⟩ := h bucket hbucket
  have hgain : 0 ≤ rate * ((time - bucket.lastRefillMs) / 1000) := by
    have hpos : 0 ≤ time - bucket.lastRefillMs := by linarith
    positivity
  exact le_min hcapacity (by linarith)

variable {bucket : BucketState} {now : ℚ}

theorem available_refill {time : ℚ} (hrate : 0 < rate) (hlast : bucket.lastRefillMs ≤ now) :
    available rate capacity (some (refill bucket rate capacity now)) time
      ≤ available rate capacity (some bucket) time := by
  obtain ⟨-, hrefill⟩ | ⟨-, hrefill⟩ := refill_cases capacity hlast hrate
  · rw [hrefill]
    show min capacity (min capacity _ + _) ≤ min capacity _
    refine le_min (min_le_left _ _) ((min_le_right _ _).trans ?_)
    have hsum : bucket.level + (now - bucket.lastRefillMs) / 1000 * rate
        + rate * ((time - now) / 1000)
        = bucket.level + rate * ((time - bucket.lastRefillMs) / 1000) := by ring
    rw [← hsum]
    exact add_le_add_left (min_le_right _ _) _
  · rw [hrefill]

theorem available_now (hlast : bucket.lastRefillMs = now) (hlevel : bucket.level ≤ capacity) :
    available rate capacity (some bucket) now = bucket.level := by
  dsimp only [available]
  rw [hlast, sub_self, zero_div, mul_zero, add_zero]
  exact min_eq_right hlevel

theorem available_taken (rate capacity : ℚ) (bucket : BucketState) (time : ℚ) :
    available rate capacity (some { bucket with level := bucket.level - 1 }) time
      ≤ bucket.level - 1 + rate * ((time - bucket.lastRefillMs) / 1000) :=
  min_le_right _ _

theorem available_taken_le (rate capacity : ℚ) (bucket : BucketState) (time : ℚ) :
    available rate capacity (some { bucket with level := bucket.level - 1 }) time
      ≤ available rate capacity (some bucket) time := by
  unfold available
  exact min_le_min_left _ (by linarith)

theorem allowance_later (rate capacity start stop : ℚ) (history : List BucketEvent) (now time : ℚ) :
    allowance rate capacity start stop history time
      = allowance rate capacity start stop history now + rate * ((time - now) / 1000) := by
  unfold allowance
  ring

/-! ## What the parts of a step preserve -/

theorem Paced.of_start (row : Option BucketPayload) (clock : ℚ) (hrate : 0 < rate)
    (hcapacity : 0 ≤ capacity) : Paced rate capacity start stop (.start row clock) := by
  refine ⟨fun _ hbucket => (nomatch hbucket), fun _ hevent => (nomatch hevent), ?_, ?_⟩
  · intro _ time _ hstart
    show ((0 : Nat) : ℚ) + capacity ≤ allowance rate capacity start stop [] time
    rw [Nat.cast_zero, zero_add]
    exact capacity_le_allowance hrate hcapacity [] hstart
  · intro _ hstart
    show ((0 : Nat) : ℚ) ≤ allowance rate capacity start stop [] stop
    exact hcapacity.trans (capacity_le_allowance hrate hcapacity [] hstart)

/-- Time passes; a window that ends is settled by what it still allowed at its end. -/
theorem Paced.advance (hrate : 0 < rate) (hcapacity : 0 ≤ capacity)
    (h : Paced rate capacity start stop world) (hnow : world.clock ≤ now) :
    Paced rate capacity start stop { world with clock := now } where
  level := fun bucket hbucket =>
    have hlevel := h.level bucket hbucket
    ⟨hlevel.1, hlevel.2.1, hlevel.2.2.trans hnow⟩
  past := fun event hevent => (h.past event hevent).trans hnow
  opened := fun hopen time htime => h.opened (hnow.trans hopen) time (hnow.trans htime)
  closed := by
    intro _ hstart
    rcases le_or_gt world.clock stop with hopen | hclosed
    · have hbound := h.opened hopen stop hopen hstart
      have havailable := available_nonneg hrate hcapacity h.level hopen
      dsimp only
      linarith
    · exact h.closed hclosed hstart

theorem Paced.withBucket (h : Paced rate capacity start stop world)
    (hlevel : 0 ≤ bucket.level ∧ bucket.level ≤ capacity ∧ bucket.lastRefillMs ≤ world.clock)
    (havailable : ∀ time, available rate capacity (some bucket) time
      ≤ available rate capacity world.bucket time) :
    Paced rate capacity start stop { world with bucket := some bucket } where
  level := by
    intro other hother
    cases hother
    exact hlevel
  past := h.past
  opened := by
    intro hopen time htime hstart
    have hbound := h.opened hopen time htime hstart
    have hless := havailable time
    dsimp only
    linarith
  closed := h.closed

theorem hydrate_spec {memory : Option BucketState} (row : Option BucketPayload) (rate : ℚ)
    {created nowMs : ℚ} (hcapacity : 0 ≤ capacity) (hcreated : created ≤ now) (hnow : nowMs ≤ now)
    (hmemory : ∀ bucket, memory = some bucket →
      0 ≤ bucket.level ∧ bucket.level ≤ capacity ∧ bucket.lastRefillMs ≤ now) :
    let bucket := hydrate memory row capacity created nowMs
    (0 ≤ bucket.level ∧ bucket.level ≤ capacity ∧ bucket.lastRefillMs ≤ now)
      ∧ ∀ time, available rate capacity (some bucket) time
        ≤ available rate capacity memory time := by
  intro bucket
  unfold bucket hydrate
  split
  · next existing => exact ⟨hmemory existing rfl, fun _ => le_refl _⟩
  · refine ⟨?_, fun time => available_le rate capacity _ time⟩
    split
    · exact ⟨hcapacity, le_refl _, hcreated⟩
    refine ⟨le_min hcapacity (le_max_left _ _), min_le_left _ _, ?_⟩
    split
    · exact (min_le_right _ _).trans hnow
    · exact hnow

/-- A token is taken from a bucket that was refilled at the clock. -/
theorem Paced.grant (h : Paced rate capacity start stop world)
    (hbucket : world.bucket = some bucket) (hlast : bucket.lastRefillMs = world.clock)
    (hone : 1 ≤ bucket.level) : Paced rate capacity start stop { world with
        bucket := some { bucket with level := bucket.level - 1 }
        history := world.history ++ [.granted world.clock] } where
  level := by
    intro other hother
    cases hother
    obtain ⟨-, hlevel, hle⟩ := h.level bucket hbucket
    exact ⟨sub_nonneg.mpr hone, (sub_le_self _ zero_le_one).trans hlevel, hle⟩
  past := by
    intro event hevent
    rcases List.mem_append.mp hevent with hold | hnew
    · exact h.past event hold
    · rw [List.mem_singleton.mp hnew]
      exact le_refl _
  opened := by
    intro hopen time htime hstart
    have hbound := h.opened hopen time htime hstart
    dsimp only
    rw [grantsWithin_granted, allowance_granted]
    rw [hbucket] at hbound
    split
    · next hin =>
      -- the token was available at the clock itself
      have hnow := h.opened hopen world.clock (le_refl _) hin.1
      rw [hbucket, available_now hlast (h.level bucket hbucket).2.1] at hnow
      have htaken := available_taken rate capacity bucket time
      have hlater := allowance_later rate capacity start stop world.history world.clock time
      rw [← hlast] at hlater hnow
      push_cast
      linarith
    · next hin =>
      have hless := available_taken_le rate capacity bucket time
      rw [Nat.add_zero]
      linarith
  closed := by
    intro hclosed hstart
    have hin : ¬ (start ≤ world.clock ∧ world.clock ≤ stop) := fun hboth =>
      absurd hclosed (not_lt.mpr hboth.2)
    dsimp only
    rw [grantsWithin_granted, allowance_granted, if_neg hin, Nat.add_zero]
    exact h.closed hclosed hstart

/-- The process restarts: the window may be granted another burst. -/
theorem Paced.restart (hrate : 0 < rate) (hcapacity : 0 ≤ capacity)
    (h : Paced rate capacity start stop world) : Paced rate capacity start stop { world with
        bucket := none
        waiting := []
        history := world.history ++ [.restarted world.clock] } where
  level := fun _ hbucket => (nomatch hbucket)
  past := by
    intro event hevent
    rcases List.mem_append.mp hevent with hold | hnew
    · exact h.past event hold
    · rw [List.mem_singleton.mp hnew]
      exact le_refl _
  opened := by
    intro hopen time htime hstart
    dsimp only
    rw [grantsWithin_restarted, allowance_restarted]
    split
    · have hbound := h.opened hopen time htime hstart
      have havailable := available_nonneg hrate hcapacity h.level htime
      have hfresh := available_le rate capacity none time
      linarith
    · next hin =>
      -- the window has not begun
      have hearly : world.clock < start := not_le.mp fun hle => hin ⟨hle, hopen⟩
      rw [grantsWithin_eq_zero fun event hevent => (h.past event hevent).trans_lt hearly,
        Nat.cast_zero, zero_add, add_zero]
      exact capacity_le_allowance hrate hcapacity _ hstart
  closed := by
    intro hclosed hstart
    have hin : ¬ (start ≤ world.clock ∧ world.clock ≤ stop) := fun hboth =>
      absurd hclosed (not_lt.mpr hboth.2)
    dsimp only
    rw [grantsWithin_restarted, allowance_restarted, if_neg hin, add_zero]
    exact h.closed hclosed hstart

/-! ## The steps -/

theorem Paced.acquireRound (hrate : 0 < rate) {world : BucketWorld}
    (h : Paced rate capacity start stop world) {bucket : BucketState} {now : ℚ}
    (hclock : world.clock = now) (hbucket : world.bucket = some bucket) (waited persists : Bool) :
    Paced rate capacity start stop
      (acquireRound rate capacity world bucket now waited persists) := by
  subst hclock
  obtain ⟨hnonneg, hle, hlast⟩ := h.level bucket hbucket
  have hrefilled := lastRefillMs_refill capacity hlast hrate
  have hlevel := level_refill_mem capacity hlast hrate ⟨hnonneg, hle⟩
  have hnext := h.withBucket ⟨hlevel.1, hlevel.2, hrefilled.le⟩ fun time => by
    rw [hbucket]
    exact available_refill hrate hlast
  unfold OpencodeSwarm.acquireRound
  dsimp only
  split
  · next hone =>
    have hgrant := hnext.grant rfl hrefilled hone
    exact ⟨hgrant.level, hgrant.past, hgrant.opened, hgrant.closed⟩
  · exact ⟨hnext.level, hnext.past, hnext.opened, hnext.closed⟩

end Window

theorem Paced.step {rate burst start stop : ℚ} (hrate : 0 < rate) {world next : BucketWorld}
    {step : BucketStep} (hstep : bucketStep rate burst world step = some next)
    (h : Paced rate (max 1 burst) start stop world) :
    Paced rate (max 1 burst) start stop next := by
  have hcapacity : 0 ≤ max 1 burst := zero_le_one.trans (le_max_left _ _)
  cases step with
  | acquireDispatchToken readable created nowMs now =>
    dsimp only [bucketStep] at hstep
    rw [if_neg (not_not.mpr hrate)] at hstep
    split at hstep
    · next hclock =>
      obtain ⟨hcreated, hread, hnow⟩ := hclock
      cases hstep
      have hlater := h.advance hrate hcapacity (hcreated.trans (hread.trans hnow))
      obtain ⟨hlevel, havailable⟩ := hydrate_spec (if readable then world.row else none) rate
        hcapacity (hread.trans hnow) hnow hlater.level
      have hround := (hlater.withBucket hlevel havailable).acquireRound hrate rfl rfl false false
      exact ⟨hround.level, hround.past, hround.opened, hround.closed⟩
    · cases hstep
  | wake i now persists =>
    dsimp only [bucketStep] at hstep
    split at hstep
    · next due bucket _ hbucket =>
      split at hstep
      · next hclock =>
        cases hstep
        have hlater := h.advance hrate hcapacity hclock.1
        have hround := (show Paced rate (max 1 burst) start stop
          { world with clock := now, waiting := world.waiting.eraseIdx i } from
            ⟨hlater.level, hlater.past, hlater.opened, hlater.closed⟩).acquireRound hrate rfl
              hbucket true persists
        exact ⟨hround.level, hround.past, hround.opened, hround.closed⟩
      · cases hstep
    · cases hstep
  | restart now =>
    dsimp only [bucketStep] at hstep
    split at hstep
    · next hclock =>
      cases hstep
      exact (h.advance hrate hcapacity hclock).restart hrate hcapacity
    · cases hstep

/-! ## Every window of every run -/

/-- In every run of the loop steps and restarts the level lies between 0 and the capacity, and
    a window is granted at most a burst for its start and for each restart within it, and what
    the rate refills while it lasts. -/
theorem grantsWithin_le_of_run {rate burst clock : ℚ} {row : Option BucketPayload}
    {steps : List BucketStep} {world : BucketWorld} (hrate : 0 < rate)
    (hrun : Run (fun world step next => bucketStep rate burst world step = some next)
      (.start row clock) steps world) :
    (∀ bucket, world.bucket = some bucket → 0 ≤ bucket.level ∧ bucket.level ≤ max 1 burst)
      ∧ ∀ start stop, start ≤ stop → (grantsWithin start stop world.history : ℚ)
            ≤ (1 + restartsWithin start stop world.history) * max 1 burst
              + rate * ((stop - start) / 1000) := by
  have hcapacity : 0 ≤ max 1 burst := zero_le_one.trans (le_max_left _ _)
  have hpaced : ∀ start stop, Paced rate (max 1 burst) start stop world := fun _ _ =>
    hrun.preserves (fun _ _ _ hstep h => h.step hrate hstep) (.of_start row clock hrate hcapacity)
  constructor
  · intro bucket hbucket
    obtain ⟨hnonneg, hle, -⟩ := (hpaced 0 0).level bucket hbucket
    exact ⟨hnonneg, hle⟩
  · intro start stop hstart
    have h := hpaced start stop
    rcases le_or_gt world.clock stop with hopen | hclosed
    · have hbound := h.opened hopen stop hopen hstart
      have havailable := available_nonneg hrate hcapacity h.level hopen
      unfold allowance at hbound
      linarith
    · exact h.closed hclosed hstart

/-- Two calls empty the bucket, and a third waits for its token and writes the row; a call of
    the process that starts then waits for the rest of a token. -/
def pacedSteps : List BucketStep :=
  [.acquireDispatchToken true 0 0 0, .acquireDispatchToken true 100 100 100,
    .acquireDispatchToken true 200 200 200, .wake 0 1200 true, .restart 1500,
    .acquireDispatchToken true 1500 1500 1700]

def pacedWorld : BucketWorld :=
  { bucket := some ⟨7 / 10, 1700⟩
    row := some ⟨some (1 / 5), some 1200⟩
    waiting := [1700 + 300]
    clock := 1700
    history := [.granted 0, .granted 100, .granted 1200, .restarted 1500] }

theorem grantsWithin_pacedSteps :
    (∀ bucket, pacedWorld.bucket = some bucket → 0 ≤ bucket.level ∧ bucket.level ≤ max 1 2)
      ∧ ∀ start stop, start ≤ stop → (grantsWithin start stop pacedWorld.history : ℚ)
            ≤ (1 + restartsWithin start stop pacedWorld.history) * max 1 2
              + 1 * ((stop - start) / 1000) :=
  have hrun : pacedSteps.foldlM (bucketStep 1 2) (.start none 0) = some pacedWorld := by
    decide +kernel
  grantsWithin_le_of_run zero_lt_one (.of_foldlM hrun)

end OpencodeSwarm
