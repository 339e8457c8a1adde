/-
  OpencodeSwarm.Council.RoundAuthority

  The authority of a council scope over every run of attempts with crashes: no
  attempt finds files it must refuse, rounds only go forward, and an interrupted
  attempt takes effect by its finalized record or by evidence found committed.

  A record keeps five members, each cut to 32 code units, and its reader wants
  them distinct; two long names that agree that far make the audit unreadable.
-/
import OpencodeSwarm.Council.RoundInvariant

namespace OpencodeSwarm

open Js Crash Transition

variable (host : CouncilHost) (scope : CouncilScope)

/-! ## Safe files -/

/-- The bounded tail holds a record of the pending attempt. -/
def pendingInTail (files : CouncilFiles) : Bool :=
  files.state.all fun state => state.pending.all fun pending =>
    (auditTail files.audit).records.any fun record => record.attemptId == pending.attemptId

/-- The records an attempt has added to the audit. -/
def addedRecords (before after : CouncilFiles) : List AttemptRecord :=
  after.audit.drop before.audit.length

def addedEvent (event : AttemptEvent) (before after : CouncilFiles) : Bool :=
  (addedRecords before after).any fun record => record.event == event

variable {host}

/-- The files hold a pending attempt, and `call` finds its evidence committed. -/
def findsEvidence (files : CouncilFiles) (call : CouncilCall host) : Bool :=
  files.state.any fun state => state.pending.any (foundCommitted call.input)

/-- Whether a pending attempt has taken effect: its latest record says so, or, where
    that is its received record, the evidence does. -/
def pendingEffect (files : CouncilFiles) (call : CouncilCall host) (pending : PendingAttempt) :
    Bool :=
  (latestRecord (auditTail files.audit).records pending.attemptId).any fun latest =>
    if (terminalState latest).isSome then tookEffect latest else foundCommitted call.input pending

variable (host)

/-- What attempts do to the authority of a round, from any state of the files. -/
structure CouncilSafe (files : CouncilFiles) : Prop where
  /-- No attempt is refused as uncertain. -/
  certain : pendingInTail files = true → ∀ call : CouncilCall host,
    ∃ result, runCouncilAttempt host scope files call = .ok result
  bounded : (filesAuthority scope files).round ≤ maxRound
  forward : ∀ call : CouncilCall host, Forward (filesAuthority scope files)
    (filesAuthority scope (councilStep host scope files call))
  /-- What an attempt that was received and then interrupted leaves to the next. -/
  interrupted : ∀ (call later : CouncilCall host) (start settled : StateSnapshot)
    (before after : List CouncilWrite),
    settledState host scope files call = .ok (start, before) →
    addedEvent .received files (councilStep host scope files call) = true →
    settledState host scope (councilStep host scope files call) later = .ok (settled, after) →
    settled.authority
      = if addedEvent .finalized files (councilStep host scope files call)
          || findsEvidence (councilStep host scope files call) later
        then (finalState start (decidedWrites host scope call start).1).authority
        else start.authority
  /-- Settling may itself be interrupted: the first recovered record decides. -/
  resolved : ∀ (later : CouncilCall host) (settled : StateSnapshot) (after : List CouncilWrite)
    (state : CouncilRoundState) (pending : PendingAttempt),
    files.state = some state → state.pending = some pending →
    settledState host scope files later = .ok (settled, after) →
    settled.authority = if pendingEffect files later pending then pending.nextState.authority
      else state.authority

variable {host scope} {files : CouncilFiles} {call : CouncilCall host}

/-! ## Readable audits -/

/-- Every line of the audit passes the checks of its reader. -/
def Readable (host : CouncilHost) (scope : CouncilScope) (files : CouncilFiles) : Prop :=
  ∀ record ∈ files.audit, isAuditRecord host (auditScope host.sha256 scope.scope) record = true

theorem audit_foldl_write (writes : List CouncilWrite) (files : CouncilFiles) :
    (writes.foldl CouncilFiles.write files).audit = files.audit ++ auditedRecords writes := by
  induction writes generalizing files with
  | nil => exact (List.append_nil _).symm
  | cons write rest ih =>
    rw [List.foldl_cons, ih]
    cases write with
    | state state => rfl
    | audit record => exact List.append_assoc _ _ _
    | evidence attemptId => rfl

variable {writes : List CouncilWrite}

theorem Readable.atEveryCut (h : Readable host scope files)
    (hwrites : ∀ record ∈ auditedRecords writes,
      isAuditRecord host (auditScope host.sha256 scope.scope) record = true) :
    AtEveryCut CouncilFiles.write (Readable host scope) files writes := by
  intro made record hrecord
  rw [audit_foldl_write, List.mem_append] at hrecord
  rcases hrecord with hold | hnew
  · exact h record hold
  · refine hwrites record ?_
    exact ((List.take_sublist made writes).filterMap _).mem hnew

theorem isAuditRecord_of_settles (hinv : CouncilInvariant scope files) {settled : StateSnapshot}
    (hmembers : (recordedMembers call.input).Nodup)
    (h : AttemptSettles host scope files call settled writes) : ∀ record ∈ auditedRecords writes,
      isAuditRecord host (auditScope host.sha256 scope.scope) record = true := by
  intro record hrecord
  cases h with
  | lost hstate htail hrecovered hsettled | idle hstate hpending
  | terminal hstate hpending hlatest hnext => cases hrecord
  | interrupted hstate hpending hlatest hopen =>
    cases List.mem_singleton.mp hrecord
    exact isAuditRecord_recoveredRecord (hinv.scopeState hstate).accepted
      (hinv.pending _ _ hstate hpending).1 hmembers

variable {state : StateSnapshot}

theorem isAuditRecord_of_decides (hstate : isSnapshot state = true) {decided : List CouncilWrite}
    (hmembers : (recordedMembers call.input).Nodup) (h : Decides host scope call state decided) :
    ∀ record ∈ auditedRecords decided,
      isAuditRecord host (auditScope host.sha256 scope.scope) record = true := by
  intro record hrecord
  cases h with
  | stays hdisposition hclosed =>
    cases List.mem_singleton.mp hrecord
    exact isAuditRecord_stayingRecord hstate hmembers hdisposition hclosed
  | staysUnwritten hdisposition hopened =>
    cases List.mem_singleton.mp hrecord
    refine isAuditRecord_stayingRecord hstate hmembers hdisposition fun hclosed => ?_
    rw [hopened] at hclosed
    cases hclosed
  | evaluated hopened hevidence =>
    rw [auditedRecords_state, auditedRecords_append, auditedRecords_evidence hevidence] at hrecord
    cases List.mem_singleton.mp hrecord
    exact isAuditRecord_finalizedRecord hstate hmembers _

theorem Readable.step (hinv : CouncilInvariant scope files) (h : Readable host scope files)
    (hmembers : (recordedMembers call.input).Nodup) :
    Readable host scope (councilStep host scope files call) := by
  rw [councilStep]
  cases hrun : runCouncilAttempt host scope files call with
  | error message => exact h
  | ok result =>
    obtain ⟨writes, reply⟩ := result
    obtain ⟨settled, recovery, hsettles, rfl⟩ := runCouncilAttempt_eq_ok hrun
    have hstate := (hinv.forward_settled hsettles).1.accepted
    refine cut_of_atEveryCut (h.atEveryCut fun record hrecord => ?_)
    rw [auditedRecords_append, auditedRecords_audit, List.mem_append, List.mem_cons] at hrecord
    rcases hrecord with hsettling | rfl | hdecided
    · exact isAuditRecord_of_settles hinv hmembers hsettles record hsettling
    · exact isAuditRecord_receivedRecord hstate hmembers
    · exact isAuditRecord_of_decides hstate hmembers (decides_decidedWrites call settled) record
        hdecided

/-! ## No refusal -/

theorem loadState_eq_ok (hinv : CouncilInvariant scope files) :
    ∃ loaded, loadState host scope files = .ok loaded
      ∧ (loaded.1.pending ≠ none → files.state = some loaded.1) := by
  cases hstate : files.state with
  | none =>
    have hloaded : loadState host scope files
        = .ok ((initialState scope.scope.identityDigest).toState,
          [.state (initialState scope.scope.identityDigest).toState]) := by
      simp only [loadState, hstate, hinv.absent hstate]
      rfl
    exact ⟨_, hloaded, fun hpending => absurd rfl hpending⟩
  | some state =>
    obtain ⟨hsnapshot, hidentity⟩ := hinv.snapshot state hstate
    have hpending : state.pending.all (isPending state.toStateSnapshot) = true := by
      cases hpending : state.pending with
      | none => rfl
      | some pending => exact (hinv.pending state pending hstate hpending).1
    refine ⟨(state, []), ?_, fun _ => rfl⟩
    simp only [loadState, hstate, parseState, hsnapshot, hidentity, hpending, Bool.not_true,
      Bool.false_eq_true, if_false, ne_eq, not_true_eq_false]
    rfl

variable {records : List AttemptRecord}

theorem latestRecord_isSome {attemptId : JsString}
    (h : records.any (fun record => record.attemptId == attemptId) = true) :
    ∃ latest, latestRecord records attemptId = some latest := by
  obtain ⟨record, hmem, hid⟩ := List.any_eq_true.mp h
  rw [latestRecord, ← Option.isSome_iff_exists, List.find?_isSome]
  exact ⟨record, List.mem_reverse.mpr hmem, hid⟩

theorem settledState_eq_ok (hinv : CouncilInvariant scope files)
    (hreadable : Readable host scope files) (htail : pendingInTail files = true)
    (call : CouncilCall host) : ∃ settled, settledState host scope files call = .ok settled := by
  obtain ⟨loaded, hloaded, hkept⟩ := @loadState_eq_ok host scope files hinv
  have hrecovered : ∃ recovered,
      recoverPending host scope call files.audit loaded.1 = .ok recovered := by
    cases hpending : loaded.1.pending with
    | none =>
      refine ⟨(loaded.1.toStateSnapshot, []), ?_⟩
      simp [recoverPending, hpending]
    | some pending =>
      have hstate : files.state = some loaded.1 := by
        refine hkept fun hnone => ?_
        rw [hnone] at hpending
        cases hpending
      have hrecorded : (auditTail files.audit).records.any
          (fun record => record.attemptId == pending.attemptId) = true := by
        rw [pendingInTail, hstate, Option.all_some, hpending, Option.all_some] at htail
        exact htail
      obtain ⟨latest, hlatest⟩ := latestRecord_isSome hrecorded
      simp only [recoverPending, hpending, readAuditTail_of_forall hreadable]
      show ∃ recovered, settlePending host scope call loaded.1.toStateSnapshot pending
        (auditTail files.audit) = .ok recovered
      simp only [settlePending, hlatest]
      cases hnext : terminalState latest with
      | none => exact ⟨_, rfl⟩
      | some next =>
        -- a terminal record is the last of the audit, where the invariant has it match
        have hmatches :
            pendingTerminalMatches loaded.1.toStateSnapshot pending latest = true := by
          obtain ⟨-, -, earlier, last, haudit, hid, hrecord⟩ :=
            hinv.pending _ _ hstate hpending
          rw [haudit] at hlatest
          cases latestRecord_eq_last hid hlatest
          cases hrecord with
          | received hopen =>
            rw [hopen] at hnext
            cases hnext
          | terminal hmatches hterminal => exact hmatches
        simp only [hmatches, if_true]
        exact ⟨_, rfl⟩
  obtain ⟨recovered, hrecovered⟩ := hrecovered
  refine ⟨(recovered.1, loaded.2 ++ recovered.2), ?_⟩
  rw [settledState, hloaded]
  show (recoverPending host scope call files.audit loaded.1 >>= _) = _
  rw [hrecovered]
  rfl

theorem runCouncilAttempt_of_settledState {settled : StateSnapshot × List CouncilWrite}
    (h : settledState host scope files call = .ok settled) :
    runCouncilAttempt host scope files call
      = .ok (settled.2 ++ .audit (receivedRecord host scope call settled.1)
        :: (decidedWrites host scope call settled.1).1,
        (decidedWrites host scope call settled.1).2) := by
  rw [runCouncilAttempt, h]
  rfl

/-! ## Interrupted attempts -/

/-- A cut falls in the first part, or behind the write between the parts. -/
theorem cut_cases (call : CouncilCall host) (recovery decided : List CouncilWrite)
    (write : CouncilWrite) :
    (∃ made, call.cut (recovery ++ write :: decided) = recovery.take made)
      ∨ ∃ made, call.cut (recovery ++ write :: decided)
        = recovery ++ write :: decided.take made := by
  have hcut : ∃ made, call.cut (recovery ++ write :: decided)
      = (recovery ++ write :: decided).take made := by
    rw [CouncilCall.cut]
    split
    · exact ⟨_, List.take_length.symm⟩
    · exact ⟨_, rfl⟩
  obtain ⟨made, hmade⟩ := hcut
  rw [hmade, List.take_append]
  by_cases hfirst : made ≤ recovery.length
  · refine .inl ⟨made, ?_⟩
    rw [Nat.sub_eq_zero_of_le hfirst, List.take_zero, List.append_nil]
  · obtain ⟨rest, hrest⟩ : ∃ rest, made - recovery.length = rest + 1 :=
      ⟨made - recovery.length - 1, by omega⟩
    refine .inr ⟨rest, ?_⟩
    rw [hrest, List.take_succ_cons, List.take_of_length_le (by omega)]

theorem addedRecords_foldl_write (files : CouncilFiles) (writes : List CouncilWrite) :
    addedRecords files (writes.foldl CouncilFiles.write files) = auditedRecords writes := by
  rw [addedRecords, audit_foldl_write, List.drop_left]

theorem event_of_settles {settled : StateSnapshot}
    (h : AttemptSettles host scope files call settled writes) :
    ∀ record ∈ auditedRecords writes, record.event = .recovered := by
  intro record hrecord
  cases h with
  | lost hstate htail hrecovered hsettled | idle hstate hpending
  | terminal hstate hpending hlatest hnext => cases hrecord
  | interrupted hstate hpending hlatest hopen =>
    cases List.mem_singleton.mp hrecord
    rfl

theorem any_event_eq_false {event : AttemptEvent}
    (h : ∀ record ∈ records, record.event = .recovered) (hevent : event ≠ .recovered) :
    records.any (fun record => record.event == event) = false := by
  rw [List.any_eq_false]
  intro record hrecord
  rw [h record hrecord, beq_iff_eq]
  exact fun hsame => hevent hsame.symm

/-- An attempt whose received record was written stopped at one of its stages. -/
theorem attemptStage_of_received {start : StateSnapshot} {before : List CouncilWrite}
    (h : settledState host scope files call = .ok (start, before))
    (hreceived : addedEvent .received files (councilStep host scope files call) = true) :
    ∃ records begun, (∀ record ∈ records, record.event = .recovered)
      ∧ AttemptStage host scope call start (files.audit ++ records)
        (finalState start (decidedWrites host scope call start).1) begun
        (councilStep host scope files call) := by
  have hsettles := settles_of_settledState h
  have hstep : councilStep host scope files call
      = (call.cut (before ++ .audit (receivedRecord host scope call start)
        :: (decidedWrites host scope call start).1)).foldl CouncilFiles.write files := by
    rw [councilStep, runCouncilAttempt_of_settledState h]
  rw [hstep] at hreceived ⊢
  rcases cut_cases call before (decidedWrites host scope call start).1
    (.audit (receivedRecord host scope call start)) with ⟨made, hcut⟩ | ⟨made, hcut⟩
  · -- stopped while it settled what was there before
    rw [hcut, addedEvent, addedRecords_foldl_write] at hreceived
    have hnone : ∀ record ∈ auditedRecords (before.take made), record.event = .recovered :=
      fun record hrecord => event_of_settles hsettles record
        (((List.take_sublist made before).filterMap _).mem hrecord)
    rw [any_event_eq_false hnone (by decide)] at hreceived
    cases hreceived
  · refine ⟨auditedRecords before, decide (0 < made), event_of_settles hsettles, ?_⟩
    rw [hcut, List.foldl_append, List.foldl_cons]
    have haudit : ((before.foldl CouncilFiles.write files).write
        (.audit (receivedRecord host scope call start))).audit
          = files.audit ++ auditedRecords before ++ [receivedRecord host scope call start] := by
      rw [← audit_foldl_write]
      rfl
    have hstart : ((before.foldl CouncilFiles.write files).write
        (.audit (receivedRecord host scope call start))).state = some start.toState :=
      hsettles.state
    exact attemptStage_cut hstart haudit (decides_decidedWrites call start) made

theorem settles_of_idle {settled : StateSnapshot} (hstate : files.state = some state.toState)
    (h : AttemptSettles host scope files call settled writes) : settled = state := by
  cases h with
  | lost hnone htail hrecovered hsettled =>
    rw [hstate] at hnone
    cases hnone
  | idle hsome hpending =>
    rw [hstate] at hsome
    cases hsome
    rfl
  | terminal hsome hpending hlatest hnext | interrupted hsome hpending hlatest hopen =>
    rw [hstate] at hsome
    cases hsome
    cases hpending

variable {pending : PendingAttempt}

/-- A pending attempt is settled by the last record, where that is its own. -/
theorem AttemptSettles.latest {state : CouncilRoundState} {earlier : List AttemptRecord}
    {last : AttemptRecord} {settled : StateSnapshot}
    (h : AttemptSettles host scope files call settled writes) (hstate : files.state = some state)
    (hpending : state.pending = some pending) (haudit : files.audit = earlier ++ [last])
    (hid : last.attemptId = pending.attemptId) :
    latestRecord (auditTail files.audit).records pending.attemptId = some last := by
  cases h with
  | lost hnone htail hrecovered hsettled =>
    rw [hstate] at hnone
    cases hnone
  | idle hsome hidle =>
    rw [hstate] at hsome
    cases hsome
    rw [hpending] at hidle
    cases hidle
  | terminal hsome hfound hlatest hnext | interrupted hsome hfound hlatest hopen =>
    rw [hstate] at hsome
    cases hsome
    rw [hpending] at hfound
    cases hfound
    rw [haudit] at hlatest ⊢
    rw [hlatest, latestRecord_eq_last hid hlatest]

theorem CouncilInvariant.settles_pending (hinv : CouncilInvariant scope files)
    {state : CouncilRoundState} {settled : StateSnapshot} (hstate : files.state = some state)
    (hpending : state.pending = some pending)
    (h : AttemptSettles host scope files call settled writes) :
    settled = settledBy (pendingEffect files call pending) state.toStateSnapshot pending := by
  cases h with
  | lost hnone htail hrecovered hsettled =>
    rw [hstate] at hnone
    cases hnone
  | idle hsome hidle =>
    rw [hstate] at hsome
    cases hsome
    rw [hpending] at hidle
    cases hidle
  | @terminal _ _ latest _ hsome hfound hlatest hnext =>
    rw [hstate] at hsome
    cases hsome
    rw [hpending] at hfound
    cases hfound
    have heffect : pendingEffect files call pending = tookEffect latest := by
      rw [pendingEffect, hlatest, Option.any_some, hnext]
      rfl
    rw [heffect]
    exact hinv.next_of_terminal hstate hpending hlatest hnext
  | interrupted hsome hfound hlatest hopen =>
    rw [hstate] at hsome
    cases hsome
    rw [hpending] at hfound
    cases hfound
    have heffect : pendingEffect files call pending = foundCommitted call.input pending := by
      rw [pendingEffect, hlatest, Option.any_some, hopen]
      rfl
    rw [heffect]

theorem authority_settledBy (found : Bool) (state : StateSnapshot) (pending : PendingAttempt) :
    (settledBy found state pending).authority
      = if found then pending.nextState.authority else state.authority := by
  cases found with
  | true => rfl
  | false => rfl

/-- What the next attempt starts from, at every stage an attempt may stop at. -/
theorem AttemptStage.settled {later : CouncilCall host} {start final settled : StateSnapshot}
    {records : List AttemptRecord} {begun : Bool} {after : CouncilFiles}
    {writes : List CouncilWrite} (hstart : ScopeState scope start)
    (hrecords : ∀ record ∈ records, record.event = .recovered)
    (hstage : AttemptStage host scope call start (files.audit ++ records) final begun after)
    (h : AttemptSettles host scope after later settled writes) :
    settled.authority
      = if addedEvent .finalized files after || findsEvidence after later then final.authority
        else start.authority := by
  have hcopy : snapshot start = start := snapshot_eq_self hstart.accepted
  have hinv := hstage.invariant hstart
  have hadded (more : List AttemptRecord) (haudit : after.audit = files.audit ++ records ++ more) :
      addedEvent .finalized files after = more.any fun record => record.event == .finalized := by
    rw [addedEvent, addedRecords, haudit, List.append_assoc, List.drop_left, List.any_append,
      any_event_eq_false hrecords (by decide), Bool.false_or]
  cases hstage with
  | received hstate haudit =>
    rw [settles_of_idle hstate h, hadded _ haudit, findsEvidence, hstate]
    rfl
  | stayed hstate hkept haudit hfinal =>
    have hsame : final.authority = start.authority := by
      rw [hfinal, authority_stayingState]
    rw [settles_of_idle hstate h, hsame, ite_self]
    rcases hkept with rfl | rfl
    · rfl
    · rfl
  | @pending _ evaluation hopened hstate haudit hfinal =>
    have heffect : pendingEffect after later (call.pending start evaluation)
        = findsEvidence after later := by
      have hlatest := h.latest hstate rfl haudit rfl
      rw [pendingEffect, hlatest, findsEvidence, hstate]
      rfl
    rw [hinv.settles_pending hstate rfl h, authority_settledBy, heffect, hadded _ haudit, hcopy,
      hfinal]
    rfl
  | @finalized _ evaluation hopened hstate haudit hfinal =>
    have heffect : pendingEffect after later (call.pending start evaluation) = true := by
      have hlatest := h.latest hstate rfl haudit rfl
      rw [pendingEffect, hlatest]
      rfl
    have hfinalized : addedEvent .finalized files after = true := by
      rw [List.append_assoc _ [_]] at haudit
      rw [hadded _ haudit]
      rfl
    rw [hinv.settles_pending hstate rfl h, authority_settledBy, heffect, hfinalized, hfinal]
    rfl
  | completed hopened hstate haudit hfinal =>
    have hfinalized : addedEvent .finalized files after = true := by
      rw [List.append_assoc _ [_]] at haudit
      rw [hadded _ haudit]
      rfl
    rw [settles_of_idle hstate h, hfinalized, hfinal]
    rfl

/-! ## Every run -/

theorem CouncilInvariant.safe (hinv : CouncilInvariant scope files)
    (hreadable : Readable host scope files) : CouncilSafe host scope files where
  certain := by
    intro htail call
    obtain ⟨settled, hsettled⟩ := settledState_eq_ok hinv hreadable htail call
    exact ⟨_, runCouncilAttempt_of_settledState hsettled⟩
  bounded := hinv.forward_self.bounded
  forward := fun call => (hinv.step call).2
  interrupted := by
    intro call later start settled before after hstart hreceived hsettled
    obtain ⟨records, begun, hrecords, hstage⟩ := attemptStage_of_received hstart hreceived
    have hstate := (hinv.forward_settled (settles_of_settledState hstart)).1
    exact hstage.settled hstate hrecords (settles_of_settledState hsettled)
  resolved := by
    intro later settled after state pending hstate hpending hsettled
    rw [hinv.settles_pending hstate hpending (settles_of_settledState hsettled),
      authority_settledBy]

theorem councilInvariant_noCouncilFiles (scope : CouncilScope) :
    CouncilInvariant scope noCouncilFiles where
  absent := fun _ => rfl
  snapshot := by
    intro state hstate
    cases hstate
  pending := by
    intro state pending hstate
    cases hstate

theorem readable_noCouncilFiles : Readable host scope noCouncilFiles := by
  intro record hrecord
  cases hrecord

/-- Attempts whose cut member names stay distinct keep the files in order and the
    audit readable. -/
theorem readable_of_run {calls : List (CouncilCall host)}
    (hmembers : ∀ call ∈ calls, (recordedMembers call.input).Nodup) :
    CouncilInvariant scope (calls.foldl (councilStep host scope) noCouncilFiles)
      ∧ Readable host scope (calls.foldl (councilStep host scope) noCouncilFiles) := by
  have hguard : Along (councilStep host scope)
      (fun _ call => (recordedMembers call.input).Nodup) noCouncilFiles calls :=
    Along.of_forall (fun call hcall _ => hmembers call hcall) _
  have hstep : ∀ before (call : CouncilCall host) after,
      Guarded (fun before call after => councilStep host scope before call = after)
        (fun _ call => (recordedMembers call.input).Nodup) before call after →
      CouncilInvariant scope before ∧ Readable host scope before →
      CouncilInvariant scope after ∧ Readable host scope after := by
    rintro before call _ ⟨rfl, hdistinct⟩ ⟨hbefore, hreadable⟩
    exact ⟨(hbefore.step call).1, hreadable.step hbefore hdistinct⟩
  exact Run.preserves hstep (Run.of_foldl hguard)
    ⟨councilInvariant_noCouncilFiles scope, readable_noCouncilFiles⟩

/-- Every run of attempts whose cut member names stay distinct, with any crashes. -/
theorem councilSafe_of_run {calls : List (CouncilCall host)}
    (hmembers : ∀ call ∈ calls, (recordedMembers call.input).Nodup) :
    CouncilSafe host scope (calls.foldl (councilStep host scope) noCouncilFiles) := by
  obtain ⟨hinv, hreadable⟩ := @readable_of_run host scope calls hmembers
  exact hinv.safe hreadable

/-! ## Names that agree in their first 32 code units -/

/-- A verdict of the final council, its fields in canonical order. -/
def rejectingVerdict (agent : JsString) : Json :=
  .obj [(js "agent", .str agent), (js "confidence", .num 1), (js "criteriaAssessed", .arr []),
    (js "criteriaUnmet", .arr []), (js "durationMs", .num 0), (js "findings", .arr []),
    (js "verdict", .str (js "REJECT"))]

/-- The members of a swarm's council. -/
def councilOf (swarm : JsString) : List JsString :=
  [swarm ++ js "critic", swarm ++ js "reviewer", swarm ++ js "sme"]

def rejectingRequest (swarm : JsString) : JsString :=
  (Json.obj [(js "phase", .num 1), (js "projectSummary", .str (js "done")),
    (js "verdicts", .arr ((councilOf swarm).map rejectingVerdict))]).stringify

/-- A digest, as its number. -/
def hexText (value : Nat) : JsString :=
  (List.range 64).reverse.map fun place => hexDigit (value / 16 ^ place % 16)

/-- The digests of the final scope's identity and of one request. -/
def finalHost (requestDigest : JsString) (h : isDigest requestDigest = true) : CouncilHost where
  sha256 := fun text =>
    if text.head? = some 0x7B then requestDigest
    else hexText 0xd20ee57f2aa1d69f6d51c3cdade4d8490d0789a875f462a9a3c297594c018ec1
  isDate := fun text => text == js "2026-03-01T12:00:00.000Z"
  isDigest_sha256 := by
    intro text
    split
    · exact h
    · decide +kernel

/-- The request of the council whose members have no swarm. -/
def localHost : CouncilHost :=
  finalHost (hexText 0x90dce08f512cf8b5f9aec549bf95026e6d8fe7286b3cb78ea50653e53e29dfbb)
    (by decide +kernel)

/-- The request of a council of the eastern swarm. -/
def easternHost : CouncilHost :=
  finalHost (hexText 0x4e27faa70e03157df3f9eb7c071f86b2cfe7a32d3be790e936af4fd5eff51da1)
    (by decide +kernel)

def finalScope : CouncilScope where
  scope := .final (hexText 0xf7c0a4247b015d617fa69ed650eb2cc995207b78073ab27938cfd2982619e413)
  valid := by decide +kernel

/-- A council of three that rejects. -/
def rejection : CouncilAttemptEvaluation where
  disposition := js "evaluated_reject"
  transition := .advance
  gateEffect := .blocked
  verdict := some .reject
  quorumSize := some 3
  evidence := some (js ".swarm/evidence/final-council.json")
  disposition_ne_nil := by decide
  isNone_verdict := rfl
  isQuorumSize_quorumSize := by decide
  isEvidenceRef_evidence := by decide +kernel

/-- The members of a swarm, all of them rejecting. -/
def rejectingCall {host : CouncilHost} (swarm attemptId : JsString) (stop : Option Nat)
    (hid : isUuid attemptId = true) (hnames : ∀ member ∈ councilOf swarm, member ≠ [])
    (hdistinct : (councilOf swarm).Nodup)
    (hdate : host.isDate (js "2026-03-01T12:00:00.000Z") = true) : CouncilCall host where
  input :=
    { clientRound := none
      maxRounds := 3
      sessionID := none
      request := rejectingRequest swarm
      verdictCount := 3
      members := councilOf swarm
      probePendingEvidence := some fun _ _ _ => false
      evaluate := fun _ => some rejection
      isRound_clientRound := rfl
      members_ne_nil := hnames
      members_nodup := hdistinct }
  attemptId := attemptId
  recoveredAt := js "2026-03-01T12:00:00.000Z"
  receivedAt := js "2026-03-01T12:00:00.000Z"
  pendingWriteFails := false
  failedWriteFails := false
  stop := stop
  isUuid_attemptId := hid
  isDate_recoveredAt := ⟨by decide +kernel, hdate⟩
  isDate_receivedAt := ⟨by decide +kernel, hdate⟩

/-- An attempt stopped behind its pending state. -/
def localStopped : CouncilCall localHost :=
  rejectingCall [] (js "0b0a1c2d-1111-4222-8333-444455556666") (some 3) (by decide +kernel)
    (by decide +kernel) (by decide +kernel) (by decide +kernel)

def localCompleted : CouncilCall localHost :=
  rejectingCall [] (js "7d9e0f10-aaaa-4bbb-9ccc-ddddeeeeffff") none (by decide +kernel)
    (by decide +kernel) (by decide +kernel) (by decide +kernel)

/-- A swarm whose name alone fills the 32 code units. -/
def easternCall (stop : Option Nat) : CouncilCall easternHost :=
  rejectingCall (js "quality_assurance_swarm_eastern_")
    (js "0b0a1c2d-1111-4222-8333-444455556666") stop (by decide +kernel) (by decide +kernel)
    (by decide +kernel) (by decide +kernel)

/-- The interrupted attempt is settled, and the next one completes. -/
theorem councilSafe_localNames :
    CouncilSafe localHost finalScope
      ([localStopped, localCompleted].foldl (councilStep localHost finalScope) noCouncilFiles) :=
  councilSafe_of_run (by decide +kernel)

/-- The next attempt is refused: two members of the interrupted one are recorded alike. -/
theorem not_councilSafe_easternNames :
    ¬ CouncilSafe easternHost finalScope
      ([easternCall (some 3)].foldl (councilStep easternHost finalScope) noCouncilFiles) := by
  intro h
  have hrefused : (fun files => (pendingInTail files,
      (runCouncilAttempt easternHost finalScope files (easternCall none)).toBool))
      ([easternCall (some 3)].foldl (councilStep easternHost finalScope) noCouncilFiles)
        = (true, false) := by
    decide +kernel
  obtain ⟨htail, hrun⟩ := Prod.mk.inj hrefused
  obtain ⟨result, hresult⟩ := h.certain htail (easternCall none)
  rw [hresult] at hrun
  cases hrun

end OpencodeSwarm
