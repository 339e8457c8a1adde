/-
  OpencodeSwarm.Plan.Replay

  Ledger replay (`reconstructPlanFromEvents`, `applyEventToPlan` in
  `src/plan/ledger.ts`): pick the newest snapshot whose embedded plan parses,
  else the `plan_created` plan, else plan.json; fold the later events of the
  same identity over it; normalize the cursor.

  The working facts are the two append rules at the end.  An appended event of
  the ledger's identity acts on the replayed plan, and an appended snapshot
  replaces it.
-/
import OpencodeSwarm.Lib.FirstMatch
import OpencodeSwarm.Plan.PlanHash
import OpencodeSwarm.Plan.LedgerEvent

namespace OpencodeSwarm

open Js

/-! ## One event -/

/-- What replay throws. -/
inductive ReplayError where
  /-- `events[0].plan_id` on an empty list. -/
  | noEvents
  /-- ``applyEventToPlan: unhandled event type``. -/
  | unhandledEventType (name : JsString) (seq : Nat)
  deriving DecidableEq, Repr

/-- Set the status of the first task with this id, in the first phase that has
    one. -/
def Plan.setTaskStatus (plan : Plan) (taskId : JsString) (status : TaskStatus) : Plan :=
  { plan with
    phases := plan.phases.modifyFirst (fun phase => phase.tasks.any fun task => task.id == taskId)
      fun phase =>
        { phase with
          tasks := phase.tasks.modifyFirst (fun task => task.id == taskId)
            fun task => { task with status := status } } }

/-- Drop the first task with this id, from the first phase that has one. -/
def Plan.removeTask (plan : Plan) (taskId : JsString) : Plan :=
  { plan with
    phases := plan.phases.modifyFirst (fun phase => phase.tasks.any fun task => task.id == taskId)
      fun phase => { phase with tasks := phase.tasks.eraseP fun task => task.id == taskId } }

def Plan.completePhase (plan : Plan) (phaseId : Nat) : Plan :=
  { plan with
    phases := plan.phases.modifyFirst (fun phase => phase.id == phaseId)
      fun phase => { phase with status := .complete } }

/-- `applyEventToPlan`; `none` after a reset. -/
def applyEventToPlan (plan : Plan) (event : LedgerEvent) : Except ReplayError (Option Plan) :=
  match event.eventType with
  | .planCreated => .ok (some (event.embeddedPlan.getD plan))
  | .taskStatusChanged =>
    match truthyString event.taskId, event.toStatus with
    | some taskId, some status => .ok (some (plan.setTaskStatus taskId status))
    | _, _ => .ok (some plan)
  | .phaseCompleted =>
    match event.phaseId.filter (· ≠ 0) with
    | some phaseId => .ok (some (plan.completePhase phaseId))
    | none => .ok (some plan)
  | .taskRemoved =>
    match truthyString event.taskId with
    | some taskId => .ok (some (plan.removeTask taskId))
    | none => .ok (some plan)
  | .planExported | .taskAdded | .taskUpdated | .planRebuilt | .taskReordered | .snapshot =>
    .ok (some plan)
  | .planReset => .ok none
  | .executionProfileSet =>
    match (event.payload.bind LedgerEventPayload.executionProfile).filter
        ExecutionProfile.wellFormed with
    | some profile => .ok (some { plan with executionProfile := some profile })
    | none => .ok (some plan)
  | .executionProfileLocked =>
    .ok (some { plan with
      executionProfile := plan.executionProfile.map fun profile =>
        { profile with locked := true } })
  | .other name => .error (.unhandledEventType name event.seq)

/-- The replay loop: stops at a reset, and throws what an event throws. -/
def applyEvents (plan : Plan) : List LedgerEvent → Except ReplayError (Option Plan)
  | [] => .ok (some plan)
  | event :: events =>
    match applyEventToPlan plan event with
    | .error err => .error err
    | .ok none => .ok none
    | .ok (some plan') => applyEvents plan' events

/-! ## The whole ledger -/

/-- The newest snapshot whose embedded plan parses, with that plan. -/
def newestSnapshot (events : List LedgerEvent) : Option (LedgerEvent × Plan) :=
  (events.filter fun event => event.eventType = .snapshot).reverse.findSome? fun event =>
    event.embeddedPlan.map fun plan => (event, plan)

/-- The first `plan_created` event, when its embedded plan parses. -/
def createdRoot (events : List LedgerEvent) : Option (LedgerEvent × Plan) :=
  (events.find? fun event => event.eventType = .planCreated).bind fun event =>
    event.embeddedPlan.map fun plan => (event, plan)

/-- Where replay starts: a snapshot, else the root. -/
def replayBase (events : List LedgerEvent) : Option (LedgerEvent × Plan) :=
  (newestSnapshot events).or (createdRoot events)

/-- `reconstructPlanFromEventsUnnormalized`; `planJson` is the parsed plan.json
    that legacy ledgers fall back to. -/
def reconstructPlanFromEventsUnnormalized (planJson : Option Plan) :
    List LedgerEvent → Except ReplayError (Option Plan)
  | [] => .error .noEvents
  | first :: rest =>
    let relevant := (first :: rest).filter fun event => event.planId = first.planId
    match replayBase relevant with
    | some (base, plan) => applyEvents plan (relevant.filter fun event => base.seq < event.seq)
    | none =>
      match planJson with
      | none => .ok none
      | some plan => applyEvents plan relevant

/-- `reconstructPlanFromEvents`: replay, then normalize the cursor. -/
def reconstructPlanFromEvents (planJson : Option Plan) (events : List LedgerEvent) :
    Except ReplayError (Option Plan) :=
  (reconstructPlanFromEventsUnnormalized planJson events).map (Option.map normalizeCurrentPhase)

variable {plan : Plan} {root : LedgerEvent}

/-- A ledger that is a single root replays to the embedded plan, whatever
    plan.json holds. -/
theorem reconstruct_root (htype : root.eventType = .planCreated)
    (hplan : root.embeddedPlan = some plan) (planJson : Option Plan) :
    reconstructPlanFromEventsUnnormalized planJson [root] = .ok (some plan) := by
  have hbase : replayBase [root] = some (root, plan) := by
    simp [replayBase, newestSnapshot, createdRoot, htype, hplan]
  simp [reconstructPlanFromEventsUnnormalized, hbase, applyEvents]

variable {events : List LedgerEvent}

theorem reconstructPlanFromEvents_eq_ok {planJson : Option Plan}
    (h : reconstructPlanFromEventsUnnormalized planJson events = .ok (some plan)) :
    reconstructPlanFromEvents planJson events = .ok (some (normalizeCurrentPhase plan)) := by
  rw [reconstructPlanFromEvents, h]
  rfl

theorem reconstructPlanFromEvents_root (htype : root.eventType = .planCreated)
    (hplan : root.embeddedPlan = some plan) (planJson : Option Plan) :
    reconstructPlanFromEvents planJson [root] = .ok (some (normalizeCurrentPhase plan)) :=
  reconstructPlanFromEvents_eq_ok (reconstruct_root htype hplan planJson)

/-! ## Appending to the ledger -/

/-- Replay that goes on from an earlier result. -/
def continueReplay (replayed : Except ReplayError (Option Plan)) (events : List LedgerEvent) :
    Except ReplayError (Option Plan) :=
  match replayed with
  | .ok (some plan) => applyEvents plan events
  | replayed => replayed

theorem applyEvents_append (plan : Plan) (events new : List LedgerEvent) :
    applyEvents plan (events ++ new) = continueReplay (applyEvents plan events) new := by
  induction events generalizing plan with
  | nil => rfl
  | cons event events ih =>
    rw [List.cons_append, applyEvents, applyEvents]
    rcases applyEventToPlan plan event with err | _ | plan'
    · rfl
    · rfl
    · exact ih plan'

/-- What an append adds to a ledger: later events of its identity. -/
structure Continues (events new : List LedgerEvent) : Prop where
  identity : ∀ event ∈ new, events.head?.map LedgerEvent.planId = some event.planId
  later : ∀ event ∈ new, ∀ earlier ∈ events, earlier.seq < event.seq

/-- A snapshot and a root are what replay may start from. -/
def LedgerEvent.isReplayBase (event : LedgerEvent) : Bool :=
  event.eventType = .snapshot ∨ event.eventType = .planCreated

variable {new : List LedgerEvent}

theorem newestSnapshot_append (hnew : ∀ event ∈ new, event.eventType ≠ .snapshot) :
    newestSnapshot (events ++ new) = newestSnapshot events := by
  have hnone : new.filter (fun event => event.eventType = .snapshot) = [] := by
    rw [List.filter_eq_nil_iff]
    intro event hevent
    simpa using hnew event hevent
  rw [newestSnapshot, newestSnapshot, List.filter_append, hnone, List.append_nil]

theorem createdRoot_append (hnew : ∀ event ∈ new, event.eventType ≠ .planCreated) :
    createdRoot (events ++ new) = createdRoot events := by
  have hnone : new.find? (fun event => event.eventType = .planCreated) = none := by
    rw [List.find?_eq_none]
    intro event hevent
    simpa using hnew event hevent
  rw [createdRoot, createdRoot, List.find?_append, hnone, Option.or_none]

theorem mem_of_replayBase {base : LedgerEvent} (h : replayBase events = some (base, plan)) :
    base ∈ events := by
  rw [replayBase, Option.or_eq_some_iff] at h
  rcases h with hsnapshot | ⟨-, hroot⟩
  · obtain ⟨event, hevent, hplan⟩ := List.exists_of_findSome?_eq_some hsnapshot
    obtain ⟨_, -, heq⟩ := Option.map_eq_some_iff.mp hplan
    rw [← (Prod.mk.inj heq).1]
    exact (List.mem_filter.mp (List.mem_reverse.mp hevent)).1
  · obtain ⟨event, hevent, hplan⟩ := Option.bind_eq_some_iff.mp hroot
    obtain ⟨_, -, heq⟩ := Option.map_eq_some_iff.mp hplan
    rw [← (Prod.mk.inj heq).1]
    exact List.mem_of_find?_eq_some hevent

theorem reconstructPlanFromEventsUnnormalized_eq {relevant : List LedgerEvent} {first : LedgerEvent}
    (hfirst : events.head? = some first)
    (hrelevant : events.filter (fun event => event.planId = first.planId) = relevant)
    (planJson : Option Plan) : reconstructPlanFromEventsUnnormalized planJson events
      = match replayBase relevant with
        | some (base, plan) => applyEvents plan (relevant.filter fun event => base.seq < event.seq)
        | none =>
          match planJson with
          | none => .ok none
          | some plan => applyEvents plan relevant := by
  cases events with
  | nil => cases hfirst
  | cons head rest =>
    cases hfirst
    rw [← hrelevant]
    rfl

theorem reconstruct_append (hne : events ≠ []) (hcontinues : Continues events new)
    (hbase : ∀ event ∈ new, event.isReplayBase = false) (planJson : Option Plan) :
    reconstructPlanFromEventsUnnormalized planJson (events ++ new)
      = continueReplay (reconstructPlanFromEventsUnnormalized planJson events) new := by
  obtain ⟨first, rest, rfl⟩ := List.exists_cons_of_ne_nil hne
  have hidentity : ∀ event ∈ new, event.planId = first.planId := by
    intro event hevent
    exact (Option.some.inj (hcontinues.identity event hevent)).symm
  generalize hold : (first :: rest).filter (fun event => event.planId = first.planId) = relevant
  have hnew : new.filter (fun event => event.planId = first.planId) = new := by
    simpa using hidentity
  have hrelevant : (first :: rest ++ new).filter (fun event => event.planId = first.planId)
      = relevant ++ new := by
    rw [List.filter_append, hold, hnew]
  rw [reconstructPlanFromEventsUnnormalized_eq rfl hrelevant,
    reconstructPlanFromEventsUnnormalized_eq rfl hold]
  have hkept : replayBase (relevant ++ new) = replayBase relevant := by
    rw [replayBase, replayBase, newestSnapshot_append, createdRoot_append]
    · intro event hevent htype
      simpa [LedgerEvent.isReplayBase, htype] using hbase event hevent
    · intro event hevent htype
      simpa [LedgerEvent.isReplayBase, htype] using hbase event hevent
  rw [hkept]
  cases hstart : replayBase relevant with
  | none =>
    cases planJson with
    | none => rfl
    | some plan => exact applyEvents_append plan relevant new
  | some start =>
    obtain ⟨base, plan⟩ := start
    have hlater : ∀ event ∈ new, base.seq < event.seq := by
      intro event hevent
      have hmem : base ∈ relevant := mem_of_replayBase hstart
      rw [← hold] at hmem
      exact hcontinues.later event hevent base (List.mem_filter.mp hmem).1
    have hafter : (relevant ++ new).filter (fun event => base.seq < event.seq)
        = relevant.filter (fun event => base.seq < event.seq) ++ new := by
      have hkeep : new.filter (fun event => base.seq < event.seq) = new := by
        simpa using hlater
      rw [List.filter_append, hkeep]
    dsimp only
    rw [hafter]
    exact applyEvents_append plan _ new

theorem reconstruct_append_snapshot {event : LedgerEvent}
    (hevents : events ≠ [] → Continues events [event]) (htype : event.eventType = .snapshot)
    (hplan : event.embeddedPlan = some plan) (planJson : Option Plan) :
    reconstructPlanFromEventsUnnormalized planJson (events ++ [event]) = .ok (some plan) := by
  have hstart : ∀ relevant : List LedgerEvent,
    replayBase (relevant ++ [event]) = some (event, plan) := by
    simp [replayBase, newestSnapshot, htype, hplan]
  cases events with
  | nil =>
    simp [reconstructPlanFromEventsUnnormalized, applyEvents,
      show replayBase [event] = some (event, plan) from hstart []]
  | cons first rest =>
    have hcontinues := hevents (List.cons_ne_nil first rest)
    have hidentity : event.planId = first.planId :=
      (Option.some.inj (hcontinues.identity event List.mem_cons_self)).symm
    have hrelevant : (first :: rest ++ [event]).filter (fun event => event.planId = first.planId)
        = (first :: rest).filter (fun event => event.planId = first.planId) ++ [event] := by
      simp [List.filter_append, hidentity]
    have hafter : ((first :: rest).filter (fun event => event.planId = first.planId)
        ++ [event]).filter (fun later => event.seq < later.seq) = [] := by
      rw [List.filter_eq_nil_iff]
      intro later hmem
      have hle : later.seq ≤ event.seq := by
        rcases List.mem_append.mp hmem with hold | hself
        · exact (hcontinues.later event List.mem_cons_self later (List.mem_filter.mp hold).1).le
        · rw [List.mem_singleton.mp hself]
      simpa using hle
    rw [reconstructPlanFromEventsUnnormalized_eq rfl hrelevant, hstart]
    dsimp only
    rw [hafter]
    rfl

end OpencodeSwarm
