/-
  OpencodeSwarm.Coordination.StoreFacts

  What the operations of the coordination store do: a transition answers anything
  but `applied` without a write, and an applied one writes the row of its entity
  and appends its event.
-/
import OpencodeSwarm.Coordination.CoordinationStore
import OpencodeSwarm.Lib.Outcome

namespace OpencodeSwarm

open Js Sql Outcome

/-! ## State rows -/

namespace CoordinationState

/-- The primary key. -/
def entity (row : CoordinationState) : JsString × JsString := (row.namespace_, row.entityKey)

theorem isOf_iff {namespace_ entityKey : JsString} {row : CoordinationState} :
    row.isOf namespace_ entityKey = true ↔ row.entity = (namespace_, entityKey) := by
  rw [isOf, Bool.and_eq_true, beq_iff_eq, beq_iff_eq, entity, Prod.mk.injEq]

@[simp] theorem isOf_self (row : CoordinationState) :
    row.isOf row.namespace_ row.entityKey = true := isOf_iff.mpr rfl

end CoordinationState

namespace CoordinationDb

/-- `PRIMARY KEY(namespace, entity_key)`. -/
def Keyed (db : CoordinationDb) : Prop := (db.states.map CoordinationState.entity).Nodup

variable {db : CoordinationDb} {namespace_ entityKey : JsString} {row : CoordinationState}

theorem row_eq_some_iff (h : db.Keyed) : db.row namespace_ entityKey = some row
      ↔ row ∈ db.states ∧ row.entity = (namespace_, entityKey) := by
  constructor
  · intro hrow
    refine ⟨List.mem_of_find?_eq_some hrow, ?_⟩
    exact CoordinationState.isOf_iff.mp (List.find?_some hrow)
  · rintro ⟨hmem, hentity⟩
    cases hfound : db.row namespace_ entityKey with
    | none =>
      have hnot := List.find?_eq_none.mp hfound row hmem
      exact absurd (CoordinationState.isOf_iff.mpr hentity) hnot
    | some other =>
      have hother := CoordinationState.isOf_iff.mp (List.find?_some hfound)
      have hsame : other = row := List.inj_on_of_nodup_map h (List.mem_of_find?_eq_some hfound) hmem
        (hother.trans hentity.symm)
      rw [hsame]

theorem entities_upsertState (row : CoordinationState) :
    (db.upsertState row).states.map CoordinationState.entity
      = if db.states.any (CoordinationState.isOf row.namespace_ row.entityKey) then
          db.states.map CoordinationState.entity
        else db.states.map CoordinationState.entity ++ [row.entity] := by
  unfold upsertState
  split_ifs with hfound
  · rw [List.map_map]
    refine List.map_congr_left fun old _ => ?_
    rw [Function.comp_apply]
    split_ifs with hold
    · exact (CoordinationState.isOf_iff.mp hold).symm
    · rfl
  · rw [List.map_append, List.map_singleton]

theorem Keyed.upsertState (h : db.Keyed) (row : CoordinationState) :
    (db.upsertState row).Keyed := by
  rw [Keyed, entities_upsertState]
  split_ifs with hfound
  · exact h
  · rw [List.nodup_append']
    refine ⟨h, List.nodup_singleton _, ?_⟩
    intro entity hmem hnew
    obtain ⟨old, hold, rfl⟩ := List.mem_map.mp hmem
    rw [List.mem_singleton] at hnew
    exact hfound (List.any_eq_true.mpr ⟨old, hold, CoordinationState.isOf_iff.mpr hnew⟩)

theorem row_upsertState_self (row : CoordinationState) :
    (db.upsertState row).row row.namespace_ row.entityKey = some row := by
  unfold upsertState CoordinationDb.row
  split_ifs with hfound
  · obtain ⟨old, hold, hisOf⟩ := List.any_eq_true.mp hfound
    rw [List.find?_map]
    have hcomp : (CoordinationState.isOf row.namespace_ row.entityKey
        ∘ fun old => if old.isOf row.namespace_ row.entityKey then row else old)
        = CoordinationState.isOf row.namespace_ row.entityKey := by
      funext other
      rw [Function.comp_apply]
      split_ifs with hother
      · rw [row.isOf_self, hother]
      · rfl
    rw [hcomp]
    cases hfirst : db.states.find? (CoordinationState.isOf row.namespace_ row.entityKey) with
    | none => exact absurd hisOf (List.find?_eq_none.mp hfirst old hold)
    | some first => rw [Option.map_some, if_pos (List.find?_some hfirst)]
  · have hnone : db.states.find? (CoordinationState.isOf row.namespace_ row.entityKey) = none := by
      rw [List.find?_eq_none]
      intro old hold hisOf
      exact hfound (List.any_eq_true.mpr ⟨old, hold, hisOf⟩)
    rw [List.find?_append, hnone, Option.none_or, List.find?_singleton, if_pos row.isOf_self]

theorem row_upsertState_of_ne (hne : row.entity ≠ (namespace_, entityKey)) :
    (db.upsertState row).row namespace_ entityKey = db.row namespace_ entityKey := by
  have hrow : row.isOf namespace_ entityKey = false := by
    rw [← Bool.not_eq_true, CoordinationState.isOf_iff]
    exact hne
  unfold upsertState CoordinationDb.row
  split_ifs with hfound
  · rw [List.find?_map]
    have hcomp : (CoordinationState.isOf namespace_ entityKey
        ∘ fun old => if old.isOf row.namespace_ row.entityKey then row else old)
        = CoordinationState.isOf namespace_ entityKey := by
      funext other
      rw [Function.comp_apply]
      split_ifs with hother
      · rw [hrow, eq_comm, ← Bool.not_eq_true, CoordinationState.isOf_iff,
          CoordinationState.isOf_iff.mp hother]
        exact hne
      · rfl
    rw [hcomp]
    cases hfirst : db.states.find? (CoordinationState.isOf namespace_ entityKey) with
    | none => rfl
    | some first =>
      rw [Option.map_some, if_neg]
      intro hisOf
      have hentity := CoordinationState.isOf_iff.mp (List.find?_some hfirst)
      exact hne ((CoordinationState.isOf_iff.mp hisOf).symm.trans hentity)
  · rw [List.find?_append, List.find?_singleton, if_neg (by rw [hrow]; exact Bool.false_ne_true),
      Option.or_none]

end CoordinationDb

theorem readState_eq_ok {db : CoordinationDb} {namespace_ entityKey : JsString}
    {current : Option CoordinationState} (h : readState db namespace_ entityKey = .ok current) :
    db.row namespace_ entityKey = current := by
  unfold readState at h
  split at h
  · rename_i hrow
    cases h
    exact hrow
  · rename_i row hrow
    cases hvalid : validatePayload row.payload with
    | error e =>
      rw [hvalid] at h
      cases h
    | ok _ =>
      rw [hvalid] at h
      cases h
      exact hrow

theorem row_deleteCoordinationState {db : CoordinationDb} (h : db.Keyed)
    (namespace_ entityKey : JsString) (expectedRevision : Option Nat) (ns key : JsString) :
    (deleteCoordinationState db namespace_ entityKey expectedRevision).2.Keyed
      ∧ ((deleteCoordinationState db namespace_ entityKey expectedRevision).2.row ns key = none
        ∨ (deleteCoordinationState db namespace_ entityKey expectedRevision).2.row ns key
          = db.row ns key) := by
  have hkeyed : (deleteCoordinationState db namespace_ entityKey expectedRevision).2.Keyed :=
    List.Nodup.sublist (List.filter_sublist.map _) h
  refine ⟨hkeyed, ?_⟩
  cases hrow : (deleteCoordinationState db namespace_ entityKey expectedRevision).2.row ns key with
  | none => exact Or.inl rfl
  | some row =>
    obtain ⟨hmem, hentity⟩ := (CoordinationDb.row_eq_some_iff hkeyed).mp hrow
    refine Or.inr ((CoordinationDb.row_eq_some_iff h).mpr ⟨?_, hentity⟩).symm
    exact List.mem_of_mem_filter hmem

/-! ## Transitions -/

section Transition

variable {digestPayload : JsString → JsString} {bounds : EventBounds} {now : JsString}
  {db next : CoordinationDb} {input : CoordinationTransitionInput}
  {result : CoordinationTransitionResult}

/-- The tables behind an event: its rows added, and what retention leaves. -/
def withEvent (digestPayload : JsString → JsString) (bounds : EventBounds) (now : JsString)
    (generation : Int) (db : CoordinationDb) (event : CoordinationEventInput) : CoordinationDb where
  states := db.states
  events := pruneTotalEvents bounds.maxTotalEvents
    (pruneStreamEvents bounds.maxEventsPerStream event.streamId
      (streamVersion db.events event.streamId + 1)
      (db.events ++ [eventRow db.events now generation event]))
  fences := pruneTotalFences bounds.maxTotalEventFences
    (pruneStreamFences bounds.maxEventFencesPerStream event.streamId
      (upsertFence db.fences (fenceRow digestPayload db.fences now generation event)))

theorem appendCoordinationEvent_eq_ok {generation : Int} {event : CoordinationEventInput}
    {appended : CoordinationDb}
    (h : appendCoordinationEvent digestPayload bounds now generation db event = .ok appended) :
    appended = withEvent digestPayload bounds now generation db event := by
  obtain ⟨events, hinsert, hrest⟩ := bind_eq_ok.mp h
  unfold insertCoordinationEvent at hinsert
  split_ifs at hinsert
  cases hinsert
  cases hrest
  rfl

/-- The tables an applied transition writes its state row to. -/
def appendedTables (digestPayload : JsString → JsString) (bounds : EventBounds) (now : JsString)
    (db : CoordinationDb) (input : CoordinationTransitionInput) : CoordinationDb :=
  match input.event with
  | none => db
  | some event => withEvent digestPayload bounds now input.generation db event

theorem states_appendedTables :
    (appendedTables digestPayload bounds now db input).states = db.states := by
  unfold appendedTables
  split <;> rfl

theorem row_appendedTables (namespace_ entityKey : JsString) :
    (appendedTables digestPayload bounds now db input).row namespace_ entityKey
      = db.row namespace_ entityKey := by
  rw [CoordinationDb.row, states_appendedTables, CoordinationDb.row]

/-- An applied transition. -/
structure Applies (digestPayload : JsString → JsString) (bounds : EventBounds) (now : JsString)
    (db : CoordinationDb) (input : CoordinationTransitionInput) (next : CoordinationDb) : Prop where
  outcome : transitionOutcome digestPayload db input (db.row input.namespace_ input.entityKey)
    = .applied
  writes : next = (appendedTables digestPayload bounds now db input).upsertState
    (nextState now input (db.row input.namespace_ input.entityKey))

variable {current : Option CoordinationState}

theorem applyTransition_eq_ok
    (h : applyTransition digestPayload bounds now db input current = .ok (next, result)) :
    result.outcome = .applied
      ∧ next = (appendedTables digestPayload bounds now db input).upsertState
        (nextState now input current)
      ∧ result.state = next.row input.namespace_ input.entityKey := by
  obtain ⟨appended, happend, hrest⟩ := bind_eq_ok.mp h
  obtain ⟨state, hstate, hresult⟩ := bind_eq_ok.mp hrest
  have hsame : appended = appendedTables digestPayload bounds now db input := by
    cases hevent : input.event with
    | none =>
      simp only [appendInputEvent, hevent] at happend
      simp only [appendedTables, hevent]
      cases happend
      rfl
    | some event =>
      simp only [appendInputEvent, hevent] at happend
      simp only [appendedTables, hevent]
      exact appendCoordinationEvent_eq_ok happend
  cases hresult
  rw [hsame] at hstate ⊢
  exact ⟨rfl, rfl, (readState_eq_ok hstate).symm⟩

theorem transition_cases
    (h : transitionCoordinationState digestPayload bounds now db input = .ok (next, result)) :
    (result.outcome ≠ .applied ∧ next = db)
      ∨ (result.outcome = .applied ∧ Applies digestPayload bounds now db input next
        ∧ result.state = next.row input.namespace_ input.entityKey) := by
  obtain ⟨_, -, hrest⟩ := bind_eq_ok.mp h
  obtain ⟨current, hread, hanswer⟩ := bind_eq_ok.mp hrest
  have hrow := readState_eq_ok hread
  cases houtcome : transitionOutcome digestPayload db input current with
  | applied =>
    rw [houtcome] at hanswer
    obtain ⟨happlied, hnext, hstate⟩ := applyTransition_eq_ok hanswer
    rw [← hrow] at houtcome hnext
    exact Or.inr ⟨happlied, ⟨houtcome, hnext⟩, hstate⟩
  | duplicate | idempotencyConflict | revisionConflict | streamVersionConflict | staleGeneration =>
    rw [houtcome] at hanswer
    cases hanswer
    exact Or.inl ⟨fun hsame => (nomatch hsame), rfl⟩

theorem outcome_eq_applied (h : transitionOutcome digestPayload db input current = .applied) :
    input.event.bind (fenceOutcome digestPayload db input.generation) = none
      ∧ (∀ row ∈ current, row.generation ≤ input.generation)
      ∧ revisionConflicts input.expectedRevision current = false := by
  unfold transitionOutcome at h
  split at h
  · rename_i outcome hfence
    rw [h] at hfence
    obtain ⟨event, -, hfence⟩ := Option.bind_eq_some_iff.mp hfence
    obtain ⟨fence, -, houtcome⟩ := Option.map_eq_some_iff.mp hfence
    split_ifs at houtcome
  · rename_i hfence
    split_ifs at h with hstale hrevision
    refine ⟨hfence, ?_, Bool.not_eq_true _ ▸ hrevision⟩
    rintro row ⟨⟩
    rw [Option.any_some, decide_eq_true_eq, not_lt] at hstale
    exact hstale

theorem Applies.row_self (h : Applies digestPayload bounds now db input next) :
    next.row input.namespace_ input.entityKey
      = some (nextState now input (db.row input.namespace_ input.entityKey)) := by
  rw [h.writes]
  exact CoordinationDb.row_upsertState_self _

theorem Applies.row_of_ne (h : Applies digestPayload bounds now db input next)
    {namespace_ entityKey : JsString}
    (hne : (input.namespace_, input.entityKey) ≠ (namespace_, entityKey)) :
    next.row namespace_ entityKey = db.row namespace_ entityKey := by
  have hentity : (nextState now input (db.row input.namespace_ input.entityKey)).entity
      ≠ (namespace_, entityKey) := hne
  rw [h.writes, CoordinationDb.row_upsertState_of_ne hentity, row_appendedTables]

theorem Applies.keyed (h : Applies digestPayload bounds now db input next) (hkeyed : db.Keyed) :
    next.Keyed := by
  rw [h.writes]
  refine CoordinationDb.Keyed.upsertState ?_ _
  rw [CoordinationDb.Keyed, states_appendedTables]
  exact hkeyed

theorem after_cases (db : CoordinationDb) (bounds : EventBounds) (now : JsString)
    (input : CoordinationTransitionInput) :
    db.after digestPayload bounds now input = db
      ∨ Applies digestPayload bounds now db input (db.after digestPayload bounds now input) := by
  unfold CoordinationDb.after
  cases hanswer : transitionCoordinationState digestPayload bounds now db input with
  | error e => exact Or.inl rfl
  | ok answer =>
    rcases transition_cases hanswer with ⟨-, hsame⟩ | ⟨-, happlies, -⟩
    · exact Or.inl hsame
    · exact Or.inr happlies

end Transition

end OpencodeSwarm
