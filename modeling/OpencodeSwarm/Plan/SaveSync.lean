/-
  OpencodeSwarm.Plan.SaveSync

  A task id is in sync when the ledger replays to the statuses plan.json has for
  it.  Every save that returns keeps an id in sync, legacy ledgers included,
  whose replay starts from the very plan.json the save rewrites.
-/
import OpencodeSwarm.Plan.SaveStages

namespace OpencodeSwarm

open Js

/-- Replay and plan.json agree on the statuses of this id. -/
def SyncedAt (files : ProjectFiles) (id : JsString) : Prop :=
  ∃ current replayed, files.planJson = some current
    ∧ replayFromLedger files = .ok (some replayed)
    ∧ replayed.statusesOf id = current.statusesOf id

/-! ## Where replay starts -/

variable {events : List LedgerEvent}

/-- Replay starts from an embedded plan, and plan.json does not matter, or it
    applies the events to plan.json. -/
theorem reconstruct_based_or_legacy (hne : events ≠ []) :
    (∀ planJson planJson', reconstructPlanFromEventsUnnormalized planJson events
        = reconstructPlanFromEventsUnnormalized planJson' events)
      ∨ ∃ relevant, ∀ plan, reconstructPlanFromEventsUnnormalized (some plan) events
        = applyEvents plan relevant := by
  obtain ⟨first, rest, rfl⟩ := List.exists_cons_of_ne_nil hne
  cases hbase : replayBase ((first :: rest).filter fun event => event.planId = first.planId) with
  | some base =>
    refine Or.inl fun planJson planJson' => ?_
    rw [reconstructPlanFromEventsUnnormalized_eq rfl rfl,
      reconstructPlanFromEventsUnnormalized_eq rfl rfl, hbase]
  | none =>
    refine Or.inr ⟨(first :: rest).filter fun event => event.planId = first.planId, fun plan => ?_⟩
    rw [reconstructPlanFromEventsUnnormalized_eq rfl rfl, hbase]

variable {plan' : Plan}

/-- Whether an event resets or throws does not depend on the plan. -/
theorem applyEventToPlan_outcome {plan : Plan} {event : LedgerEvent}
    (h : applyEventToPlan plan event = .ok (some plan')) (other : Plan) :
    ∃ other', applyEventToPlan other event = .ok (some other') := by
  unfold applyEventToPlan at h ⊢
  cases htype : event.eventType <;> rw [htype] at h <;> dsimp only at h ⊢
  case planReset => cases h
  case other => cases h
  all_goals repeat' split
  all_goals exact ⟨_, rfl⟩

theorem applyEvents_outcome {plan : Plan} (h : applyEvents plan events = .ok (some plan'))
    (other : Plan) : ∃ other', applyEvents other events = .ok (some other') := by
  induction events generalizing plan other with
  | nil => exact ⟨other, rfl⟩
  | cons event events ih =>
    rw [applyEvents] at h
    split at h
    · cases h
    · cases h
    · next next hnext =>
      obtain ⟨other', hother⟩ := applyEventToPlan_outcome hnext other
      rw [applyEvents, hother]
      exact ih h other'

section Sync

variable {sha256 : JsString → JsString} {clock : SaveClock}

/-! ## The replay a save reads back -/

variable {files prepared : ProjectFiles} {validated : Plan}

/-- What the save's ledger replays to before the difference is appended: the
    plan it starts from, or what the old ledger replays to. -/
theorem Prepared.replaysTo {replayed : Plan} (h : Prepared files validated prepared)
    (hreplay : replayFromLedger files = .ok (some replayed)) :
    ∃ base, ReplaysTo prepared (derivePlanId validated) base
      ∧ (BasedOn prepared validated ∧ base = validated
        ∨ prepared = files ∧ ∀ id, base.statusesOf id = replayed.statusesOf id) := by
  cases h with
  | based _ hbased => exact ⟨validated, hbased.replaysTo, Or.inl ⟨hbased, rfl⟩⟩
  | kept hfiles hidentity =>
    obtain ⟨first, hfirst, base, hbase, rfl⟩ := replayFromLedger_eq_ok hreplay
    rw [hidentity first hfirst] at hbase
    exact ⟨base, hfiles ▸ hbase, Or.inr ⟨hfiles, fun id => rfl⟩⟩

variable {plan : Plan} {options : SaveOptions} {inputs : List LedgerEventInput} {base : Plan}
  {appended : ProjectFiles} {replayed : Option Plan}

/-- The appended ledger replays to the base with the difference recorded. -/
theorem SaveTrace.replayed_eq
    (h : SaveTrace sha256 clock files plan options prepared inputs appended replayed)
    (hbase : ReplaysTo prepared (derivePlanId (validatedPlan files plan options)) base) :
    replayed = some (normalizeCurrentPhase (inputs.foldl LedgerEventInput.record base)) := by
  have happended : ReplaysTo appended (derivePlanId (validatedPlan files plan options))
      (inputs.foldl LedgerEventInput.record base) := by
    rw [h.appends]
    exact hbase.append (fun input hinput => (mem_diffInputs h.differs hinput).1)
      (fun input hinput => (mem_diffInputs h.differs hinput).2.isChange)
  exact Except.ok.inj (h.replays.symm.trans happended.replayFromLedger)

variable {current : Plan}

theorem BasedOn.syncedAt (h : BasedOn files current) (hcurrent : files.planJson = some current)
    (id : JsString) : SyncedAt files id :=
  ⟨current, normalizeCurrentPhase current, hcurrent, h.replaysTo.replayFromLedger, rfl⟩

variable {id : JsString} {planHashAfter : JsString}

/-- A removal in the appended difference means that the saved plan lacks the id. -/
theorem dropsTask_appendedEvents (hinputs : ∀ input ∈ inputs, input.Describes validated)
    (h : ∃ event ∈ appendedEvents sha256 clock files planHashAfter inputs,
      event.dropsTask id = true) : validated.statusesOf id = [] := by
  obtain ⟨event, hevent, hdrop⟩ := h
  obtain ⟨⟨input, hinput, -, htype, htask⟩, -, -⟩ := mem_appendedEvents hevent
  obtain ⟨hremoved, htruthy⟩ := of_decide_eq_true hdrop
  rw [htype] at hremoved
  rw [htask] at htruthy
  cases hinputs input hinput with
  | removal removed _ hid hmissing =>
    have hsame : removed = id := Option.some.inj (hid.symm.trans (truthyString_eq_some htruthy))
    exact hsame ▸ hmissing
  | status _ hstatus =>
    rw [hstatus] at hremoved
    cases hremoved

/-- The difference over a ledger without an embedded plan, once the plan it led
    to is in plan.json: the second replay changes nothing more. -/
theorem SyncedAt.reconstruct_appended {candidate : Plan} {planId : JsString}
    (hcurrent : files.planJson = some current) (hbase : ReplaysTo files planId base)
    (hsynced : base.statusesOf id = current.statusesOf id)
    (hplanId : ∀ input ∈ inputs, input.planId = planId)
    (hdescribes : ∀ input ∈ inputs, input.Describes validated)
    (hcandidate : candidate.statusesOf id
      = (inputs.foldl LedgerEventInput.record base).statusesOf id)
    (hmissing : validated.statusesOf id = [] → candidate.statusesOf id = []) :
    ∃ replayed, reconstructPlanFromEventsUnnormalized (some candidate)
        (files.events ++ appendedEvents sha256 clock files planHashAfter inputs)
          = .ok (some replayed) ∧ replayed.statusesOf id = candidate.statusesOf id := by
  have hchanges : ∀ input ∈ inputs, input.IsChange :=
    fun input hinput => (hdescribes input hinput).isChange
  have hreplay := hbase.replay
  rw [hcurrent] at hreplay
  rcases reconstruct_based_or_legacy hbase.nonempty with hsame | ⟨relevant, hlegacy⟩
  · -- plan.json does not matter
    rw [hsame _ (some candidate)] at hreplay
    exact ⟨_, reconstruct_appendedEvents hbase.nonempty hbase.identity hplanId hchanges hreplay,
      hcandidate.symm⟩
  · rw [hlegacy] at hreplay
    generalize hnew : appendedEvents sha256 clock files planHashAfter inputs = new
    have hrecorded : applyEvents current (relevant ++ new)
        = .ok (some (inputs.foldl LedgerEventInput.record base)) := by
      rw [applyEvents_append, hreplay, ← hnew]
      exact applyEvents_appendedEvents hchanges base files planHashAfter
    obtain ⟨replayed, hreplayed⟩ := applyEvents_outcome hrecorded candidate
    refine ⟨replayed, ?_, ?_⟩
    · rw [reconstruct_append hbase.nonempty, hlegacy, ← applyEvents_append, hreplayed]
      · rw [← hnew]
        exact continues_appendedEvents hbase.identity hplanId
      · rw [← hnew]
        exact isReplayBase_appendedEvents hchanges
    · -- one replay over the statuses of the other
      have hold : editStatuses relevant id (current.statusesOf id) = current.statusesOf id := by
        rw [← statusesOf_applyEvents hreplay id, hsynced]
      have honce : editStatuses (relevant ++ new) id (current.statusesOf id)
          = candidate.statusesOf id := by
        rw [← statusesOf_applyEvents hrecorded id, hcandidate]
      rw [statusesOf_applyEvents hreplayed id, ← honce]
      refine editStatuses_again hold ?_
      intro hdrop
      rw [← hnew] at hdrop
      rw [honce]
      exact hmissing (dropsTask_appendedEvents hdescribes hdrop)

variable {files' : ProjectFiles}

theorem SyncedAt.savePlan (hsha : Function.Injective sha256) (hsynced : SyncedAt files id)
    (hsave : savePlan sha256 clock files plan options = .ok files') : SyncedAt files' id := by
  obtain ⟨current, before, hcurrent, hbefore, hagree⟩ := hsynced
  obtain ⟨recorded, prepared, inputs, replayed, -, htrace, hplan, hsaved⟩ := savePlan_eq_ok hsave
  by_cases hsnapshot : snapshotTaken sha256 clock (files.writeAll recorded)
      (validatedPlan files plan options) options replayed = true
  · rw [if_pos hsnapshot] at hsaved
    exact hsaved.based.syncedAt hplan id
  · rw [if_neg hsnapshot] at hsaved
    obtain ⟨base, hbase, hstart⟩ := htrace.prepares.replaysTo hbefore
    have hreplayed := htrace.replayed_eq hbase
    have hhash := hash_replayed_of_not_due hsnapshot
    rw [hreplayed, Option.getD_some] at hhash
    have hcandidate : (projectionCandidate (files.writeAll recorded)
        (validatedPlan files plan options) replayed).statusesOf id
          = (inputs.foldl LedgerEventInput.record base).statusesOf id := by
      rw [← Plan.statusesOf_normalizeCurrentPhase (inputs.foldl LedgerEventInput.record base)]
      refine (statusesOf_of_hashed ?_ id).symm
      rw [hreplayed]
      exact (computePlanLedgerHash_eq_iff hsha).mp hhash
    have hmissing : (validatedPlan files plan options).statusesOf id = [] →
        (projectionCandidate (files.writeAll recorded) (validatedPlan files plan options)
          replayed).statusesOf id = [] := statusesOf_projectionCandidate_eq_nil_iff.mpr
    generalize projectionCandidate (files.writeAll recorded) (validatedPlan files plan options)
      replayed = candidate at hplan hcandidate hmissing
    have hplanId : ∀ input ∈ inputs, input.planId
        = derivePlanId (validatedPlan files plan options) :=
      fun input hinput => (mem_diffInputs htrace.differs hinput).1
    have hdescribes : ∀ input ∈ inputs, input.Describes (validatedPlan files plan options) :=
      fun input hinput => (mem_diffInputs htrace.differs hinput).2
    have hchanges : ∀ input ∈ inputs, input.IsChange :=
      fun input hinput => (hdescribes input hinput).isChange
    have hevents : files'.events = prepared.events ++ appendedEvents sha256 clock prepared
        (computePlanLedgerHash sha256 (validatedPlan files plan options)) inputs := by
      rw [hsaved, htrace.appends, (ProjectFiles.writeAll_map_append _ _).1]
    have hagain : ∃ replayed, reconstructPlanFromEventsUnnormalized (some candidate) files'.events
          = .ok (some replayed) ∧ replayed.statusesOf id = candidate.statusesOf id := by
      rw [hevents]
      rcases hstart with ⟨hbased, rfl⟩ | ⟨rfl, hsame⟩
      · exact ⟨_, reconstruct_appendedEvents hbase.nonempty hbase.identity hplanId hchanges
          (hbased (some candidate)).replay, hcandidate.symm⟩
      · exact SyncedAt.reconstruct_appended hcurrent hbase ((hsame id).trans hagree) hplanId
          hdescribes hcandidate hmissing
    obtain ⟨final, hfinal, hstatuses⟩ := hagain
    refine ⟨candidate, normalizeCurrentPhase final, hplan, ?_, hstatuses⟩
    rw [replayFromLedger, if_neg, hplan]
    · exact reconstructPlanFromEvents_eq_ok hfinal
    · rw [hevents]
      exact List.append_ne_nil_of_left_ne_nil hbase.nonempty _

/-! ## One task -/

variable {status : TaskStatus}

/-- A single status of the validated plan is the recorded one, unless the
    difference cannot name the id. -/
theorem SaveTrace.statusesOf_recorded
    (h : SaveTrace sha256 clock files plan options prepared inputs appended replayed)
    (hcurrent : prepared.planJson = some current)
    (hvalidated : (validatedPlan files plan options).statusesOf id = [status])
    (hlength : (current.statusesOf id).length ≤ 1)
    (hbase : base.statusesOf id = (validatedPlan files plan options).statusesOf id
      ∨ id ≠ [] ∧ base.statusesOf id = current.statusesOf id) :
    (inputs.foldl LedgerEventInput.record base).statusesOf id = []
      ∨ (inputs.foldl LedgerEventInput.record base).statusesOf id = [status] := by
  have hdescribes : ∀ input ∈ inputs, input.Describes (validatedPlan files plan options) :=
    fun input hinput => (mem_diffInputs h.differs hinput).2
  rcases hbase with hbase | ⟨hid, hbase⟩
  · exact Or.inr (statusesOf_foldl_record_single hdescribes hvalidated (hbase.trans hvalidated)
      (Or.inl rfl))
  · cases hold : current.statusesOf id with
    | nil => exact Or.inl ((statusesOf_foldl_record hdescribes base id).1 (hbase.trans hold))
    | cons before rest =>
      have hrest : rest = [] := by
        rw [hold, List.length_cons] at hlength
        exact List.length_eq_zero_iff.mp (by omega)
      rw [hrest] at hold
      refine Or.inr (statusesOf_foldl_record_single hdescribes hvalidated (hbase.trans hold) ?_)
      by_cases hsame : before = status
      · exact Or.inl hsame
      · obtain ⟨input, hinput, htype, htask⟩ := exists_statusInput hold hvalidated hsame
        refine Or.inr ⟨hid, input, ?_, htype, htask⟩
        obtain ⟨ack, rfl⟩ := diffInputs_of_planJson h.differs hcurrent
        exact List.mem_append_right _ hinput

/-- An id that one task carries on either side gets the status the save asks
    for. -/
theorem savePlan_statusesOf (hsynced : SyncedAt files id)
    (hsave : savePlan sha256 clock files plan options = .ok files')
    (hcurrent : files.planJson = some current) (hid : id ≠ [])
    (hlength : (current.statusesOf id).length ≤ 1)
    (hvalidated : (validatedPlan files plan options).statusesOf id = [status]) :
    ∃ merged, files'.planJson = some merged ∧ merged.statusesOf id = [status] := by
  obtain ⟨disk, before, hdisk, hbefore, hagree⟩ := hsynced
  cases hcurrent.symm.trans hdisk
  obtain ⟨recorded, prepared, inputs, replayed, -, htrace, hplan, -⟩ := savePlan_eq_ok hsave
  obtain ⟨base, hbase, hstart⟩ := htrace.prepares.replaysTo hbefore
  have hstatuses : base.statusesOf id = (validatedPlan files plan options).statusesOf id
      ∨ id ≠ [] ∧ base.statusesOf id = current.statusesOf id := by
    rcases hstart with ⟨-, rfl⟩ | ⟨-, hsame⟩
    · exact Or.inl rfl
    · exact Or.inr ⟨hid, (hsame id).trans hagree⟩
  refine ⟨_, hplan, statusesOf_projectionCandidate_of_single hvalidated ?_⟩
  intro plan hreplayed
  rw [htrace.replayed_eq hbase] at hreplayed
  cases hreplayed
  exact htrace.statusesOf_recorded (htrace.prepares.planJson.trans hcurrent) hvalidated hlength
    hstatuses

/-! ## Loading -/

theorem reconstruct_append_rebuilt {events : List LedgerEvent} {event : LedgerEvent}
    (hne : events ≠ []) (htype : event.eventType = .planRebuilt)
    (hlater : ∀ earlier ∈ events, earlier.seq < event.seq) {planJson : Option Plan}
    (h : reconstructPlanFromEventsUnnormalized planJson events = .ok (some plan)) :
    reconstructPlanFromEventsUnnormalized planJson (events ++ [event]) = .ok (some plan) := by
  by_cases hidentity : events.head?.map LedgerEvent.planId = some event.planId
  · have hcontinues : Continues events [event] := by
      refine ⟨?_, ?_⟩
      · intro new hnew
        rw [List.mem_singleton.mp hnew]
        exact hidentity
      · intro new hnew
        rw [List.mem_singleton.mp hnew]
        exact hlater
    rw [reconstruct_append hne hcontinues, h]
    · simp [continueReplay, applyEvents, applyEventToPlan, htype]
    · intro new hnew
      rw [List.mem_singleton.mp hnew, LedgerEvent.isReplayBase, htype]
      rfl
  · -- an event of another identity is not read
    obtain ⟨first, rest, rfl⟩ := List.exists_cons_of_ne_nil hne
    have hforeign : event.planId ≠ first.planId := fun hsame => hidentity (congrArg some hsame.symm)
    rw [← h, List.cons_append, reconstructPlanFromEventsUnnormalized_eq rfl rfl,
      reconstructPlanFromEventsUnnormalized_eq rfl rfl, ← List.cons_append, List.filter_append]
    simp [hforeign]

theorem SyncedAt.rebuildPlan {files : ProjectFiles} {replayed : Plan} {id : JsString}
    (hsynced : SyncedAt files id) (hreplayed : replayFromLedger files = .ok (some replayed)) :
    SyncedAt (rebuildPlan sha256 clock files replayed) id := by
  obtain ⟨current, replayed', hcurrent, hreplay, hagree⟩ := hsynced
  cases hreplayed.symm.trans hreplay
  obtain ⟨first, -, base, hbase, rfl⟩ := replayFromLedger_eq_ok hreplayed
  -- replay over the published plan, before the audit event
  have hmissing : (normalizeCurrentPhase base).statusesOf id = [] →
      (normalizeCurrentPhase base).statusesOf id = [] := fun hnil => hnil
  have hpublishedReplay : ∃ again, reconstructPlanFromEventsUnnormalized
        (some (normalizeCurrentPhase base)) (files.events ++ appendedEvents sha256 clock files [] [])
          = .ok (some again)
      ∧ again.statusesOf id = (normalizeCurrentPhase base).statusesOf id :=
    SyncedAt.reconstruct_appended hcurrent hbase hagree (by simp) (by simp) rfl hmissing
  obtain ⟨again, hagain, hstatuses⟩ := hpublishedReplay
  rw [appendedEvents_nil, List.append_nil] at hagain
  refine ⟨normalizeCurrentPhase base, normalizeCurrentPhase again, rfl, ?_, hstatuses⟩
  have hevents : (OpencodeSwarm.rebuildPlan sha256 clock files (normalizeCurrentPhase base)).events
      = files.events ++ [appendedEvent sha256 clock (files.write (.rename (normalizeCurrentPhase base)))
        (rebuiltInput (normalizeCurrentPhase base))
        (computePlanLedgerHash sha256 (normalizeCurrentPhase base))] := rfl
  have hpublished : (OpencodeSwarm.rebuildPlan sha256 clock files
      (normalizeCurrentPhase base)).planJson = some (normalizeCurrentPhase base) := rfl
  rw [replayFromLedger, hevents, hpublished,
    if_neg (List.append_ne_nil_of_left_ne_nil hbase.nonempty _)]
  refine reconstructPlanFromEvents_eq_ok (reconstruct_append_rebuilt hbase.nonempty rfl ?_ hagain)
  intro earlier hearlier
  exact Nat.lt_succ_of_le (seq_le_latestSeq hearlier)

/-- Loading, with or without a rebuild, keeps an id in sync and shows it as
    plan.json did. -/
theorem SyncedAt.loadValidPlan {files : ProjectFiles} {current : Plan} {id : JsString}
    (hsynced : SyncedAt files id) (hcurrent : files.planJson = some current) (startup : Bool) :
    let loaded := loadValidPlan sha256 clock startup files current
    SyncedAt loaded.1 id ∧ loaded.1.planJson = some loaded.2
      ∧ loaded.2.statusesOf id = current.statusesOf id := by
  have hsynced' := hsynced
  obtain ⟨current', replayed, hcurrent', hreplay, hagree⟩ := hsynced'
  cases hcurrent.symm.trans hcurrent'
  unfold OpencodeSwarm.loadValidPlan
  rw [hreplay]
  dsimp only
  split_ifs
  · exact ⟨hsynced, hcurrent, rfl⟩
  · exact ⟨hsynced, hcurrent, rfl⟩
  · exact ⟨hsynced.rebuildPlan hreplay, rfl, hagree⟩

end Sync

end OpencodeSwarm
