/-
  OpencodeSwarm.Plan.SnapshotMeaning

  Snapshots do not change what a ledger means, but for the phase cursor.  A snapshot
  that embeds the plan of the events before it is a place where replay may start: what is
  left to apply is exactly the events behind it.  The cursor it embeds stays
  authoritative while its phase is unfinished, so it may differ from the cursor of a
  replay from the root once a finished phase is opened again.
-/
import OpencodeSwarm.Plan.SaveFacts

namespace OpencodeSwarm

open Js

/-! ## Ledgers with truthful snapshots -/

def Plan.withCursor (plan : Plan) (cursor : Option Nat) : Plan :=
  { plan with currentPhase := cursor }

/-- A ledger of one identity, whose root embeds a plan, and whose snapshots, where
    they parse, embed the plan of the events before them, with whatever cursor. -/
structure TruthfulLedger (root : LedgerEvent) (rootPlan : Plan) (rest : List LedgerEvent) :
    Prop where
  created : root.eventType = .planCreated
  embedded : root.embeddedPlan = some rootPlan
  identity : ∀ event ∈ rest, event.planId = root.planId
  increasing : (root :: rest).Pairwise fun earlier later => earlier.seq < later.seq
  known : ∀ event ∈ rest, ∀ name, event.eventType ≠ .other name
  noReset : ∀ event ∈ rest, event.eventType ≠ .planReset
  snapshots : ∀ i event plan, rest[i]? = some event → event.eventType = .snapshot →
    event.embeddedPlan = some plan → ∃ replayed,
      applyEvents rootPlan (rest.take i) = .ok (some replayed)
        ∧ plan.withCursor none = replayed.withCursor none

/-- No phase that was finished is unfinished later. -/
def StaysFinished (before after : Plan) : Prop :=
  ∀ (i : Nat) (phase later : Phase), before.phases[i]? = some phase →
    after.phases[i]? = some later → phase.isEffectivelyTerminal = true →
      later.isEffectivelyTerminal = true

/-- The newest snapshot embeds the cursor of the replay, or the one that normalizing it gives
    and no phase that was finished then is unfinished at the end. -/
def CursorStands (rootPlan : Plan) (rest : List LedgerEvent) (final : Plan) : Prop :=
  ∀ event plan, newestSnapshot rest = some (event, plan) → ∀ i replayed,
    rest[i]? = some event → applyEvents rootPlan (rest.take i) = .ok (some replayed) →
      plan = replayed
        ∨ (normalizeCurrentPhase plan = normalizeCurrentPhase replayed
          ∧ StaysFinished replayed final)

variable {event : LedgerEvent}

theorem applyEventToPlan_some (plan : Plan) (hknown : ∀ name, event.eventType ≠ .other name)
    (hreset : event.eventType ≠ .planReset) :
    ∃ plan', applyEventToPlan plan event = .ok (some plan') := by
  unfold applyEventToPlan
  split
  · exact ⟨_, rfl⟩
  · split
    · exact ⟨_, rfl⟩
    · exact ⟨_, rfl⟩
  · split
    · exact ⟨_, rfl⟩
    · exact ⟨_, rfl⟩
  · split
    · exact ⟨_, rfl⟩
    · exact ⟨_, rfl⟩
  · exact ⟨_, rfl⟩
  · exact ⟨_, rfl⟩
  · exact ⟨_, rfl⟩
  · exact ⟨_, rfl⟩
  · exact ⟨_, rfl⟩
  · exact ⟨_, rfl⟩
  · next htype => exact absurd htype hreset
  · split
    · exact ⟨_, rfl⟩
    · exact ⟨_, rfl⟩
  · exact ⟨_, rfl⟩
  · next name htype => exact absurd htype (hknown name)

variable {events : List LedgerEvent}

theorem applyEvents_some (plan : Plan)
    (hknown : ∀ event ∈ events, ∀ name, event.eventType ≠ .other name)
    (hreset : ∀ event ∈ events, event.eventType ≠ .planReset) :
    ∃ plan', applyEvents plan events = .ok (some plan') := by
  induction events generalizing plan with
  | nil => exact ⟨plan, rfl⟩
  | cons event events ih =>
    obtain ⟨plan', hplan'⟩ := applyEventToPlan_some plan
      (hknown event List.mem_cons_self) (hreset event List.mem_cons_self)
    rw [applyEvents, hplan']
    exact ih plan' (fun other hother => hknown other (List.mem_cons_of_mem _ hother))
      (fun other hother => hreset other (List.mem_cons_of_mem _ hother))

variable {back : List LedgerEvent}

/-- Among events of increasing seq, those after one of them stand behind it. -/
theorem filter_seq_lt (front : List LedgerEvent)
    (h : (front ++ event :: back).Pairwise fun earlier later => earlier.seq < later.seq) :
    (front ++ event :: back).filter (fun later => event.seq < later.seq) = back := by
  obtain ⟨-, hbehind, hacross⟩ := List.pairwise_append.mp h
  have hfront : front.filter (fun later => event.seq < later.seq) = [] := by
    rw [List.filter_eq_nil_iff]
    intro earlier hearlier hlater
    have hbefore := hacross earlier hearlier event List.mem_cons_self
    have hafter := of_decide_eq_true hlater
    omega
  have hback : back.filter (fun later => event.seq < later.seq) = back := by
    rw [List.filter_eq_self]
    intro later hlater
    exact decide_eq_true (List.rel_of_pairwise_cons hbehind hlater)
  rw [List.filter_append, hfront, List.nil_append, List.filter_cons,
    if_neg (by simp), hback]

theorem newestSnapshot_split {plan : Plan} (h : newestSnapshot events = some (event, plan)) :
    event.eventType = .snapshot ∧ event.embeddedPlan = some plan
      ∧ ∃ front back, events = front ++ event :: back := by
  obtain ⟨other, hother, hplan⟩ := List.exists_of_findSome?_eq_some h
  obtain ⟨embedded, hembedded, heq⟩ := Option.map_eq_some_iff.mp hplan
  cases heq
  obtain ⟨hmem, htype⟩ := List.mem_filter.mp (List.mem_reverse.mp hother)
  exact ⟨of_decide_eq_true htype, hembedded, List.append_of_mem hmem⟩

/-! ## The cursor -/

section Cursor

/-- What two replays that differ in their cursor have in common. -/
structure SameButCursor (cursor : Option Nat) (plan final other : Plan) : Prop where
  other_eq : other = final.withCursor cursor
  cursor_eq : final.currentPhase = plan.currentPhase
  ids_eq : final.phases.map Phase.id = plan.phases.map Phase.id

variable {final plan : Plan}

/-- An event does to the plan what it does to it under another cursor, or it replaces it. -/
theorem applyEventToPlan_withCursor (cursor : Option Nat)
    (h : applyEventToPlan plan event = .ok (some final)) :
    ∃ other, applyEventToPlan (plan.withCursor cursor) event = .ok (some other)
      ∧ (other = final ∨ SameButCursor cursor plan final other) := by
  have hset : ∀ (p : Phase → Bool) (f : Phase → Phase), (∀ phase, (f phase).id = phase.id) →
      (plan.phases.modifyFirst p f).map Phase.id = plan.phases.map Phase.id := fun p f hf =>
    List.map_modifyFirst_of_eq (fun phase _ => hf phase) plan.phases
  unfold applyEventToPlan at h ⊢
  cases htype : event.eventType with
  | planCreated =>
    rw [htype] at h
    cases h
    refine ⟨_, rfl, ?_⟩
    cases event.embeddedPlan with
    | none => exact Or.inr ⟨rfl, rfl, rfl⟩
    | some embedded => exact Or.inl rfl
  | taskStatusChanged | phaseCompleted | taskRemoved =>
    rw [htype] at h
    dsimp only at h ⊢
    split at h
    · cases h
      exact ⟨_, rfl, Or.inr ⟨rfl, rfl, hset _ _ fun _ => rfl⟩⟩
    · cases h
      exact ⟨_, rfl, Or.inr ⟨rfl, rfl, rfl⟩⟩
  | executionProfileSet =>
    rw [htype] at h
    dsimp only at h ⊢
    split at h
    · cases h
      exact ⟨_, rfl, Or.inr ⟨rfl, rfl, rfl⟩⟩
    · cases h
      exact ⟨_, rfl, Or.inr ⟨rfl, rfl, rfl⟩⟩
  | planReset | other name =>
    rw [htype] at h
    cases h
  | _ =>
    rw [htype] at h
    cases h
    exact ⟨_, rfl, Or.inr ⟨rfl, rfl, rfl⟩⟩

theorem applyEvents_withCursor {events : List LedgerEvent} (cursor : Option Nat)
    (h : applyEvents plan events = .ok (some final)) :
    ∃ other, applyEvents (plan.withCursor cursor) events = .ok (some other)
      ∧ (other = final ∨ SameButCursor cursor plan final other) := by
  induction events generalizing plan with
  | nil =>
    cases h
    exact ⟨_, rfl, Or.inr ⟨rfl, rfl, rfl⟩⟩
  | cons event events ih =>
    rw [applyEvents] at h ⊢
    cases hstep : applyEventToPlan plan event with
    | error err =>
      rw [hstep] at h
      cases h
    | ok next =>
      rw [hstep] at h
      cases next with
      | none => cases h
      | some plan' =>
        obtain ⟨other, hother, rfl | hsame⟩ := applyEventToPlan_withCursor cursor hstep
        · rw [hother]
          exact ⟨final, h, Or.inl rfl⟩
        · obtain ⟨last, hlast, hor⟩ := ih h
          rw [hother, hsame.other_eq]
          refine ⟨last, hlast, hor.imp_right fun hrest => ⟨hrest.other_eq, ?_, ?_⟩⟩
          · rw [hrest.cursor_eq, hsame.cursor_eq]
          · rw [hrest.ids_eq, hsame.ids_eq]

/-- The phases of a later plan, one for one: no finished phase is open again. -/
abbrev PhasesStay (before after : List Phase) : Prop :=
  List.Forall₂ (fun phase later => phase.id = later.id
    ∧ (phase.isEffectivelyTerminal = true → later.isEffectivelyTerminal = true)) before after

variable {before after : List Phase}

theorem unfinishedAt_of_stays (h : PhasesStay before after) {cursor : Nat}
    (hlater : unfinishedAt after cursor = true) : unfinishedAt before cursor = true := by
  unfold unfinishedAt at hlater ⊢
  induction h with
  | nil => exact hlater
  | @cons phase later _ _ hphase _ ih =>
    rw [List.find?_cons] at hlater ⊢
    rw [hphase.1]
    cases hid : later.id == cursor with
    | false =>
      rw [hid] at hlater
      exact ih hlater
    | true =>
      rw [hid] at hlater
      simp only [Option.any_some, Bool.not_eq_true'] at hlater ⊢
      exact Bool.eq_false_iff.mpr fun hfinished => by
        rw [hphase.2 hfinished] at hlater
        cases hlater

theorem firstUnfinished_eq (phases : List Phase) : firstUnfinished phases
    = (((phases.find? fun phase => !phase.isEffectivelyTerminal).or phases.getLast?).map
        Phase.id).getD 1 := by
  unfold firstUnfinished resolveActivePhaseId
  cases phases.find? fun phase => !phase.isEffectivelyTerminal with
  | none => rfl
  | some phase => rfl

/-- The first unfinished phase stays the first as long as it is unfinished. -/
theorem firstUnfinished_of_stays (h : PhasesStay before after)
    (hlater : unfinishedAt after (firstUnfinished before) = true) :
    firstUnfinished after = firstUnfinished before := by
  have hbefore := unfinishedAt_of_stays h hlater
  cases hfind : before.find? fun phase => !phase.isEffectivelyTerminal with
  | none =>
    obtain ⟨phase, hphase, hopen⟩ := (Option.any_eq_true _ _).mp hbefore
    exact absurd hopen (List.find?_eq_none.mp hfind phase (List.mem_of_find?_eq_some hphase))
  | some first =>
    rw [firstUnfinished_eq, hfind, Option.some_or, Option.map_some, Option.getD_some] at hlater
    rw [firstUnfinished_eq, firstUnfinished_eq, hfind]
    suffices hsame : ∃ later, after.find? (fun phase => !phase.isEffectivelyTerminal) = some later
        ∧ later.id = first.id by
      obtain ⟨later, hfound, hid⟩ := hsame
      rw [hfound, Option.some_or, Option.some_or, Option.map_some, Option.map_some, hid]
    clear hbefore
    unfold unfinishedAt at hlater
    induction h with
    | nil => cases hfind
    | @cons phase later _ _ hphase _ ih =>
      rw [List.find?_cons] at hfind hlater ⊢
      cases hopen : phase.isEffectivelyTerminal with
      | false =>
        rw [hopen] at hfind
        cases hfind
        rw [hphase.1, beq_self_eq_true] at hlater
        rw [show (!later.isEffectivelyTerminal) = true from hlater]
        exact ⟨later, rfl, hphase.1.symm⟩
      | true =>
        rw [hopen] at hfind
        rw [hphase.2 hopen]
        cases hid : later.id == first.id with
        | true =>
          rw [hid] at hlater
          simp [hphase.2 hopen] at hlater
        | false =>
          rw [hid] at hlater
          exact ih hlater hfind

/-- As long as finished phases stay finished, the cursor counts for what it resolved to. -/
theorem resolve_of_stays {earlier : Plan} (h : PhasesStay earlier.phases final.phases)
    (cursor : Option Nat) : resolveActivePhaseId (final.withCursor cursor) = resolveActivePhaseId
          (final.withCursor (some (resolveActivePhaseId (earlier.withCursor cursor)))) := by
  rw [resolveActivePhaseId_eq, resolveActivePhaseId_eq (final.withCursor (some _)),
    resolveActivePhaseId_eq (earlier.withCursor cursor)]
  unfold Plan.withCursor
  cases hopen : cursor.filter (unfinishedAt earlier.phases) with
  | some phase =>
    rw [(Option.filter_eq_some_iff.mp hopen).1, Option.getD_some]
  | none =>
    have hnone : cursor.filter (unfinishedAt final.phases) = none := by
      rw [Option.filter_eq_none_iff] at hopen ⊢
      exact fun phase hphase hlater => hopen phase hphase (unfinishedAt_of_stays h hlater)
    rw [hnone, Option.getD_none, Option.getD_none, Option.filter_some]
    split
    · next hlater => exact firstUnfinished_of_stays h hlater
    · rfl

end Cursor

/-! ## Replay -/

section Replay

variable {root : LedgerEvent} {rootPlan : Plan} {rest : List LedgerEvent}

/-- Replay starts at the newest snapshot that parses, or at the root. -/
theorem TruthfulLedger.unnormalized (h : TruthfulLedger root rootPlan rest)
    (planJson : Option Plan) :
    (newestSnapshot rest = none
        ∧ reconstructPlanFromEventsUnnormalized planJson (root :: rest) = applyEvents rootPlan rest)
      ∨ ∃ front event back plan, rest = front ++ event :: back
        ∧ newestSnapshot rest = some (event, plan) ∧ event.eventType = .snapshot
        ∧ event.embeddedPlan = some plan
        ∧ reconstructPlanFromEventsUnnormalized planJson (root :: rest)
          = applyEvents plan back := by
  have hrelevant : (root :: rest).filter (fun event => event.planId = root.planId)
      = root :: rest := by
    rw [List.filter_eq_self]
    intro event hevent
    rcases List.mem_cons.mp hevent with rfl | hrest
    · exact decide_eq_true rfl
    · exact decide_eq_true (h.identity event hrest)
  have hnewest : newestSnapshot (root :: rest) = newestSnapshot rest := by
    unfold newestSnapshot
    rw [List.filter_cons_of_neg (by simp [h.created])]
  rw [reconstructPlanFromEventsUnnormalized_eq rfl hrelevant, replayBase, hnewest]
  cases hsnapshot : newestSnapshot rest with
  | none =>
    refine Or.inl ⟨rfl, ?_⟩
    have hroot : createdRoot (root :: rest) = some (root, rootPlan) := by
      have hfind : (root :: rest).find? (fun event => event.eventType = .planCreated)
        = some root := by
        simp [h.created]
      rw [createdRoot, hfind, Option.bind_some, h.embedded]
      rfl
    have hbehind := filter_seq_lt [] h.increasing
    rw [List.nil_append] at hbehind
    rw [Option.none_or, hroot]
    dsimp only
    rw [hbehind]
  | some start =>
    obtain ⟨event, plan⟩ := start
    obtain ⟨htype, hplan, front, back, hsplit⟩ := newestSnapshot_split hsnapshot
    refine Or.inr ⟨front, event, back, plan, hsplit, rfl, htype, hplan, ?_⟩
    rw [Option.some_or]
    dsimp only
    have hincreasing := h.increasing
    rw [hsplit] at hincreasing ⊢
    rw [← List.cons_append, filter_seq_lt (root :: front) hincreasing]

/-- Snapshots do not change what the ledger means: the plan is that of a replay from the root,
    but for the cursor, and the cursor is the same where it stands. -/
theorem reconstructPlanFromEvents_truthful (planJson : Option Plan)
    (h : TruthfulLedger root rootPlan rest) :
    ∃ final result, applyEvents rootPlan rest = .ok (some final)
      ∧ reconstructPlanFromEvents planJson (root :: rest) = .ok (some result)
      ∧ result.withCursor none = final.withCursor none
      ∧ (CursorStands rootPlan rest final → result = normalizeCurrentPhase final) := by
  obtain ⟨final, hfinal⟩ := applyEvents_some rootPlan h.known h.noReset
  rcases h.unnormalized planJson with ⟨-, hreplay⟩
    | ⟨front, event, back, plan, hsplit, hnewest, htype, hplan, hreplay⟩
  · refine ⟨final, normalizeCurrentPhase final, hfinal, ?_, rfl, fun _ => rfl⟩
    exact reconstructPlanFromEvents_eq_ok (hreplay.trans hfinal)
  · have hfront : rest.take front.length = front := by rw [hsplit, List.take_left]
    have hat : rest[front.length]? = some event := by
      rw [hsplit, List.getElem?_append_right (le_refl _), Nat.sub_self, List.getElem?_cons_zero]
    obtain ⟨replayed, hreplayed, hcursor⟩ := h.snapshots front.length event plan hat htype hplan
    have hrest := hfinal
    rw [hsplit, applyEvents_append, ← hfront, hreplayed] at hrest
    have hback : applyEvents replayed back = .ok (some final) := by
      have hstep : continueReplay (.ok (some replayed)) (event :: back)
          = applyEvents replayed back := by
        show applyEvents replayed (event :: back) = _
        rw [applyEvents, applyEventToPlan, htype]
      rwa [hstep] at hrest
    have hembedded : plan = replayed.withCursor plan.currentPhase :=
      congrArg (fun bare => bare.withCursor plan.currentPhase) hcursor
    obtain ⟨other, hother, hor⟩ := applyEvents_withCursor plan.currentPhase hback
    rw [← hembedded] at hother
    refine ⟨final, normalizeCurrentPhase other, hfinal,
      reconstructPlanFromEvents_eq_ok (hreplay.trans hother), ?_, fun hstands => ?_⟩
    · rcases hor with rfl | hsame
      · rfl
      · rw [hsame.other_eq]
        rfl
    · rcases hor with rfl | hsame
      · rfl
      rw [hsame.other_eq]
      rcases hstands event plan hnewest front.length replayed hat hreplayed with
        rfl | ⟨hnormalized, hstays⟩
      · rw [← hsame.cursor_eq]
        rfl
      · have hphases : PhasesStay replayed.phases final.phases := by
          have hlength := congrArg List.length hsame.ids_eq
          rw [List.length_map, List.length_map] at hlength
          refine List.forall₂_iff_get.mpr ⟨hlength.symm, fun i hi hi' => ⟨?_, ?_⟩⟩
          · have hid := congrArg (fun ids => ids[i]?) hsame.ids_eq
            simp only [List.getElem?_map, List.getElem?_eq_getElem hi,
              List.getElem?_eq_getElem hi', Option.map_some, Option.some_inj] at hid
            exact hid.symm
          · exact hstays i _ _ (List.getElem?_eq_getElem hi) (List.getElem?_eq_getElem hi')
        have hresolved : resolveActivePhaseId (replayed.withCursor plan.currentPhase)
            = resolveActivePhaseId (replayed.withCursor final.currentPhase) := by
          rw [← hembedded, hsame.cursor_eq]
          exact Option.some.inj (congrArg Plan.currentPhase hnormalized)
        have hcursors : resolveActivePhaseId (final.withCursor plan.currentPhase)
            = resolveActivePhaseId final := by
          rw [resolve_of_stays hphases, hresolved, ← resolve_of_stays hphases]
          rfl
        rw [normalizeCurrentPhase, hcursors]
        rfl

end Replay

/-! ### A phase that is finished and opened again -/

/-- Two phases of one task. -/
def twoPhases (status : TaskStatus) (cursor : Nat) : Plan :=
  { onePhasePlan [] with
    currentPhase := some cursor
    phases := [
      { id := 1, name := js "build", status := .pending, tasks := [plainTask "1.1" status]
        type := none, requiredAgents := none },
      { id := 2, name := js "ship", status := .pending
        tasks := [{ plainTask "2.1" .pending with phase := 2 }]
        type := none, requiredAgents := none }] }

def taskMoved (seq : Nat) (status : TaskStatus) : LedgerEvent where
  seq := seq
  timestamp := []
  planId := js "p"
  eventType := .taskStatusChanged
  taskId := some (js "1.1")
  toStatus := some status
  source := []
  planHashBefore := []
  planHashAfter := []

def twoPhaseRoot : LedgerEvent :=
  { taskMoved 1 .pending with
    eventType := .planCreated
    payload := some { plan := some (twoPhases .pending 1) } }

/-- The snapshot of the first phase finished, with the cursor moved on. -/
def twoPhaseSnapshot : LedgerEvent :=
  { taskMoved 3 .completed with
    eventType := .snapshot
    payload := some { plan := some (twoPhases .completed 2) } }

theorem truthful_twoPhases (hback : back = [] ∨ back = [taskMoved 4 .pending]) :
    TruthfulLedger twoPhaseRoot (twoPhases .pending 1)
      (taskMoved 2 .completed :: twoPhaseSnapshot :: back) := by
  have hkinds : ∀ event ∈ taskMoved 2 .completed :: twoPhaseSnapshot :: back,
      event.eventType = .taskStatusChanged ∨ event.eventType = .snapshot := by
    rcases hback with rfl | rfl <;> decide +kernel
  refine
    { created := rfl
      embedded := by decide +kernel
      identity := by rcases hback with rfl | rfl <;> decide +kernel
      increasing := by rcases hback with rfl | rfl <;> decide +kernel
      known := fun event hevent name htype => ?_
      noReset := fun event hevent htype => ?_
      snapshots := ?_ }
  · rcases hkinds event hevent with hkind | hkind <;> cases hkind.symm.trans htype
  · rcases hkinds event hevent with hkind | hkind <;> cases hkind.symm.trans htype
  · intro i event plan hat htype hplan
    rcases i with _ | _ | i
    · cases hat
      cases htype
    · cases hat
      have hembedded : twoPhaseSnapshot.embeddedPlan = some (twoPhases .completed 2) := by
        decide +kernel
      cases hembedded.symm.trans hplan
      have hreplayed : applyEvents (twoPhases .pending 1) [taskMoved 2 .completed]
          = .ok (some (twoPhases .completed 1)) := by decide +kernel
      exact ⟨twoPhases .completed 1, hreplayed, rfl⟩
    · have hlast : event ∈ back := List.mem_of_getElem? hat
      rcases hback with rfl | rfl
      · cases hlast
      · cases List.mem_singleton.mp hlast
        cases htype

/-- A snapshot that embeds what the code itself replays to, and a phase that stays finished. -/
theorem reconstructPlanFromEvents_twoPhases :
    reconstructPlanFromEvents none [twoPhaseRoot, taskMoved 2 .completed, twoPhaseSnapshot]
      = .ok (some (normalizeCurrentPhase (twoPhases .completed 1))) := by
  obtain ⟨final, result, hfinal, hresult, -, hsame⟩ :=
    reconstructPlanFromEvents_truthful none (truthful_twoPhases (Or.inl rfl))
  have hrun : applyEvents (twoPhases .pending 1) [taskMoved 2 .completed, twoPhaseSnapshot]
      = .ok (some (twoPhases .completed 1)) := by decide +kernel
  cases hrun.symm.trans hfinal
  rw [hresult, hsame]
  intro event plan hnewest i replayed hat hreplayed
  have hsnapshot : newestSnapshot [taskMoved 2 .completed, twoPhaseSnapshot]
      = some (twoPhaseSnapshot, twoPhases .completed 2) := by decide +kernel
  cases hsnapshot.symm.trans hnewest
  rcases i with _ | _ | i
  · cases hat
  · have hbefore : applyEvents (twoPhases .pending 1) [taskMoved 2 .completed]
        = .ok (some (twoPhases .completed 1)) := by decide +kernel
    cases hbefore.symm.trans hreplayed
    refine Or.inr ⟨by decide +kernel, fun i phase later hphase hlater hfinished => ?_⟩
    cases hphase.symm.trans hlater
    exact hfinished
  · cases hat

/-- The first phase is opened again: replay from the snapshot stays in the second one, replay
    from the root goes back. -/
theorem cursor_moves_twoPhases :
    TruthfulLedger twoPhaseRoot (twoPhases .pending 1)
        [taskMoved 2 .completed, twoPhaseSnapshot, taskMoved 4 .pending]
      ∧ reconstructPlanFromEvents none [twoPhaseRoot, taskMoved 2 .completed]
        = .ok twoPhaseSnapshot.embeddedPlan ∧ reconstructPlanFromEvents none
          [twoPhaseRoot, taskMoved 2 .completed, twoPhaseSnapshot, taskMoved 4 .pending]
        = .ok (some (twoPhases .pending 2)) ∧ (applyEvents (twoPhases .pending 1)
          [taskMoved 2 .completed, twoPhaseSnapshot, taskMoved 4 .pending]).map
            (Option.map normalizeCurrentPhase) = .ok (some (twoPhases .pending 1)) :=
  ⟨truthful_twoPhases (Or.inr rfl), by decide +kernel, by decide +kernel, by decide +kernel⟩

end OpencodeSwarm
