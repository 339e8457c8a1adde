/-
  OpencodeSwarm.Council.AuditRecovery

  The audit as the source of a lost state file.  `recoverAuditHistory` reads the
  records as a run of attempts, each a received record and the record that
  concludes it; what it reads agrees with the state file wherever a run stops,
  unless an attempt stopped behind its received record with nothing pending.  To
  read them at all, each has to pass the checks of its reader.
-/
import OpencodeSwarm.Council.RoundAuthority

namespace OpencodeSwarm

open Js Crash Transition Outcome

variable {host : CouncilHost} {scope : CouncilScope}

/-! ## A lost state -/

/-- `recoverAuditHistory` over the audit as it is read back. -/
def recoveredHistory (host : CouncilHost) (scope : CouncilScope) (audit : List AttemptRecord) :
    Except String (Option StateSnapshot) := do
  let tail ← readAuditTail host scope audit
  recoverAuditHistory tail scope.scope.identityDigest

/-- The audit alone gives back the round, the status and the exhaustion of the
    state file, and a load without that file puts them back. -/
def RecoversFromAudit (host : CouncilHost) (scope : CouncilScope) (files : CouncilFiles) : Prop :=
  ∃ state recovered, files.state = some state
    ∧ recoveredHistory host scope files.audit = .ok (some recovered)
    ∧ loadState host scope { files with state := none }
      = .ok (recovered.toState, [.state recovered.toState])
    ∧ recovered.authority = state.authority

/-- The attempt is accepted and all of its writes are made. -/
def completes (host : CouncilHost) (scope : CouncilScope) (files : CouncilFiles)
    (call : CouncilCall host) : Bool :=
  call.stop.isNone && (runCouncilAttempt host scope files call).toBool

/-- The attempt stops with its received record as its last write. -/
def stopsReceived (host : CouncilHost) (scope : CouncilScope) (files : CouncilFiles)
    (call : CouncilCall host) : Bool :=
  match settledState host scope files call with
  | .error _ => false
  | .ok settled => call.stop == some (settled.2.length + 1)

/-! ## The history of an audit -/

/-- The loop of `recoverAuditHistory` over a whole audit. -/
def auditHistory (identityDigest : JsString) (audit : List AttemptRecord) :
    Except String AuditHistory :=
  audit.foldlM (auditStep false) ⟨some (initialState identityDigest), none, false⟩

variable {audit : List AttemptRecord} {identityDigest : JsString}

theorem auditHistory_append {history : AuditHistory}
    (h : auditHistory identityDigest audit = .ok history) (record : AttemptRecord) :
    auditHistory identityDigest (audit ++ [record]) = auditStep false history record := by
  rw [auditHistory] at h ⊢
  rw [List.foldlM_append, h]
  show (auditStep false history record >>= pure) = _
  exact bind_pure _

variable {current : StateSnapshot} {saw : Bool}

theorem recoverAuditHistory_of_auditHistory
    (h : auditHistory identityDigest audit = .ok ⟨some current, none, saw⟩) :
    recoverAuditHistory ⟨audit, false⟩ identityDigest = .ok (some current) := by
  rw [auditHistory] at h
  show (audit.foldlM (auditStep false) _ >>= _) = _
  simp only [Bool.false_eq_true, if_false]
  rw [h]
  rfl

variable {record : AttemptRecord}

/-- A received record opens an attempt at the round of the history. -/
theorem auditStep_received (hevent : record.event = .received)
    (hround : record.authoritativeRound = current.currentRound) :
    auditStep false ⟨some current, none, saw⟩ record = .ok ⟨some current, some record, saw⟩ := by
  simp [auditStep, hevent, receiveRecord, hround]

/-- A transition the history accepts, by the authority it starts from. -/
structure Follows (before : RoundAuthority) (transition : CouncilRoundTransition)
    (next : StateSnapshot) : Prop where
  stay : transition = .stay → next.status = before.status
  exhausted : transition = .stay ∨ transition = .close →
    next.maxRoundsExhausted = before.exhausted
  closed : before.status = .closed → transition = .stay ∧ next.status = .closed

/-- A terminal record closes the attempt that its received record has opened. -/
theorem auditStep_terminal {next : StateSnapshot} {received : AttemptRecord}
    {transition : CouncilRoundTransition} (hevent : record.event ≠ .received)
    (htransition : record.transition = some transition) (hnext : record.nextState = some next)
    (hid : received.attemptId = record.attemptId) (hdigest : received.digest = record.digest)
    (hround : received.authoritativeRound = record.authoritativeRound)
    (hcurrent : record.authoritativeRound = current.currentRound)
    (hfollows : Follows current.authority transition next) :
    auditStep false ⟨some current, some received, saw⟩ record = .ok ⟨some next, none, true⟩ := by
  have hpairing : checkPairing false ⟨some current, some received, saw⟩ record = .ok () := by
    simp [checkPairing, hid, hdigest, hround]
  have hcheck : checkTransition current record transition next = .ok () := by
    have hstay : ¬ (transition = .stay ∧ next.status ≠ current.status) :=
      fun h => h.2 (hfollows.stay h.1)
    have hexhausted : ¬ ((transition = .stay ∨ transition = .close)
        ∧ next.maxRoundsExhausted ≠ current.maxRoundsExhausted) :=
      fun h => h.2 (hfollows.exhausted h.1)
    have hclosed : ¬ (current.status = .closed ∧ (transition ≠ .stay ∨ next.status ≠ .closed)) := by
      rintro ⟨hstatus, hchange⟩
      obtain ⟨hstays, hkept⟩ := hfollows.closed hstatus
      rcases hchange with hother | hother
      · exact hother hstays
      · exact hother hkept
    rw [checkTransition, if_neg (not_not.mpr hcurrent), if_neg hstay, if_neg hexhausted,
      if_neg hclosed]
  have hconclude : concludeRecord false ⟨some current, some received, saw⟩ record
      = .ok ⟨some next, none, true⟩ := by
    simp only [concludeRecord, htransition, hnext, hpairing, hcheck]
    rfl
  rw [auditStep]
  cases hcase : record.event with
  | received => exact absurd hcase hevent
  | finalized | recovered => exact hconclude

theorem Follows.stayingState (state : StateSnapshot) (attemptId digest : JsString) :
    Follows state.authority .stay (stayingState state attemptId digest) :=
  ⟨fun _ => rfl, fun _ => rfl, fun h => ⟨rfl, h⟩⟩

theorem Follows.pending {state : StateSnapshot} {pending : PendingAttempt}
    (h : pendingMatchesParent state pending = true) :
    Follows state.authority pending.transition pending.nextState := by
  have hopened := (pendingMatchesParent_parent h).1
  simp only [pendingMatchesParent, Bool.and_eq_true, beq_iff_eq] at h
  have hnext := h.2
  refine ⟨fun hstay => ?_, fun hkept => ?_, fun hclosed => ?_⟩
  · rw [hstay] at hnext
    simp only [Bool.and_eq_true, beq_iff_eq] at hnext
    exact hnext.1.1.trans hopened.symm
  · rcases hkept with hstay | hclose
    · rw [hstay] at hnext
      simp only [Bool.and_eq_true, beq_iff_eq] at hnext
      exact hnext.2
    · rw [hclose] at hnext
      simp only [Bool.and_eq_true, beq_iff_eq] at hnext
      exact hnext.2
  · change state.status = .closed at hclosed
    rw [hopened] at hclosed
    cases hclosed

/-! ## The audit follows the state -/

/-- How the history of the audit stands to the state file. -/
inductive AuditFollows (scope : CouncilScope) (files : CouncilFiles) : Prop where
  | absent (hstate : files.state = none)
  | idle {state current : StateSnapshot} {saw : Bool} (hstate : files.state = some state.toState)
      (hhistory : auditHistory scope.scope.identityDigest files.audit
        = .ok ⟨some current, none, saw⟩)
      (hauthority : current.authority = state.authority)
  | received {state current : StateSnapshot} {pending : PendingAttempt}
      {earlier : List AttemptRecord} {latest : AttemptRecord} {saw : Bool}
      (hstate : files.state = some ⟨state, some pending⟩)
      (haudit : files.audit = earlier ++ [latest]) (hevent : latest.event = .received)
      (hid : latest.attemptId = pending.attemptId) (hdigest : latest.digest = pending.digest)
      (hround : latest.authoritativeRound = pending.round)
      (hhistory : auditHistory scope.scope.identityDigest files.audit
        = .ok ⟨some current, some latest, saw⟩)
      (hauthority : current.authority = state.authority)
  | terminal {state current : StateSnapshot} {pending : PendingAttempt}
      {earlier : List AttemptRecord} {latest : AttemptRecord} {saw : Bool}
      (hstate : files.state = some ⟨state, some pending⟩)
      (haudit : files.audit = earlier ++ [latest]) (hid : latest.attemptId = pending.attemptId)
      (hnext : terminalState latest = some current)
      (hhistory : auditHistory scope.scope.identityDigest files.audit
        = .ok ⟨some current, none, saw⟩)

variable {state : StateSnapshot}

theorem auditStep_recoveredRecord {call : CouncilCall host} {pending : PendingAttempt}
    {latest : AttemptRecord} (hparent : pendingMatchesParent state pending = true)
    (hid : latest.attemptId = pending.attemptId) (hdigest : latest.digest = pending.digest)
    (hround : latest.authoritativeRound = pending.round)
    (hauthority : current.authority = state.authority) :
    auditStep false ⟨some current, some latest, saw⟩ (recoveredRecord host scope call state pending)
      = .ok ⟨some (settledBy (foundCommitted call.input pending) state pending), none, true⟩ := by
  have hsame := (pendingMatchesParent_parent hparent).2.1
  have hcurrent : pending.round = current.currentRound :=
    hsame.trans (congrArg RoundAuthority.round hauthority).symm
  cases hfound : foundCommitted call.input pending with
  | true =>
    have hfollows := Follows.pending hparent
    rw [← hauthority] at hfollows
    refine auditStep_terminal (show AttemptEvent.recovered ≠ .received by decide) ?_ ?_ hid hdigest
      hround hcurrent hfollows
    · simp [recoveredRecord, hfound]
    · simp only [recoveredRecord, hfound, if_true]
      rfl
  | false =>
    have hfollows := Follows.stayingState state pending.attemptId pending.digest
    rw [← hauthority] at hfollows
    refine auditStep_terminal (show AttemptEvent.recovered ≠ .received by decide) ?_ ?_ hid hdigest
      hround hcurrent hfollows
    · simp [recoveredRecord, hfound]
    · simp only [recoveredRecord, hfound, Bool.false_eq_true, if_false]
      rfl

variable {files : CouncilFiles} {call : CouncilCall host} {settled : StateSnapshot}
  {writes : List CouncilWrite}

theorem AuditFollows.settles (hinv : CouncilInvariant scope files)
    (h : AuditFollows scope files)
    (hsettles : AttemptSettles host scope files call settled writes) :
    AtEveryCut CouncilFiles.write (AuditFollows scope) files writes
      ∧ ∃ current saw, auditHistory scope.scope.identityDigest
          (writes.foldl CouncilFiles.write files).audit = .ok ⟨some current, none, saw⟩
        ∧ current.authority = settled.authority := by
  cases hsettles with
  | lost hstate htail hrecovered hsettled =>
    have haudit := hinv.absent hstate
    rw [htail, haudit, recoverAuditHistory_nil] at hrecovered
    cases hrecovered
    cases hsettled
    have hhistory : auditHistory scope.scope.identityDigest files.audit
        = .ok ⟨some (initialState scope.scope.identityDigest), none, false⟩ := by
      rw [haudit]
      rfl
    rw [atEveryCut_cons, atEveryCut_nil]
    exact ⟨⟨h, .idle rfl hhistory rfl⟩, _, _, hhistory, rfl⟩
  | @idle found hstate hpending =>
    refine ⟨atEveryCut_nil.mpr h, ?_⟩
    cases h with
    | absent hnone =>
      rw [hstate] at hnone
      cases hnone
    | idle hsome hhistory hauthority =>
      rw [hstate] at hsome
      cases hsome
      exact ⟨_, _, hhistory, hauthority⟩
    | received hsome haudit hevent hid hdigest hround hhistory hauthority
    | terminal hsome haudit hid hnext hhistory =>
      rw [hstate] at hsome
      cases hsome
      cases hpending
  | @terminal found pending latest next hstate hpending hlatest hnext =>
    have hhistory : ∃ saw, auditHistory scope.scope.identityDigest files.audit
        = .ok ⟨some settled, none, saw⟩ := by
      cases h with
      | absent hnone =>
        rw [hstate] at hnone
        cases hnone
      | idle hsome hhistory hauthority =>
        rw [hstate] at hsome
        cases hsome
        cases hpending
      | received hsome haudit hevent hid hdigest hround hhistory hauthority =>
        rw [hstate] at hsome
        cases hsome
        cases hpending
        rw [haudit] at hlatest
        cases latestRecord_eq_last hid hlatest
        rw [terminalState, hevent] at hnext
        cases hnext
      | terminal hsome haudit hid hterminal hhistory =>
        rw [hstate] at hsome
        cases hsome
        cases hpending
        rw [haudit] at hlatest
        cases latestRecord_eq_last hid hlatest
        rw [hnext] at hterminal
        cases hterminal
        exact ⟨_, hhistory⟩
    obtain ⟨saw, hhistory⟩ := hhistory
    rw [atEveryCut_cons, atEveryCut_nil]
    exact ⟨⟨h, .idle rfl hhistory rfl⟩, _, saw, hhistory, rfl⟩
  | @interrupted found pending latest hstate hpending hlatest hopen =>
    have haccepted := (hinv.pending _ _ hstate hpending).1
    have hparent : pendingMatchesParent found.toStateSnapshot pending = true := by
      obtain ⟨-, -, -, -, -, -, -, -, -, hparent⟩ := isPending_iff.mp haccepted
      exact hparent
    have hhistory : auditHistory scope.scope.identityDigest
        (files.audit ++ [recoveredRecord host scope call found.toStateSnapshot pending])
        = .ok ⟨some (settledBy (foundCommitted call.input pending) found.toStateSnapshot pending),
          none, true⟩ := by
      cases h with
      | absent hnone =>
        rw [hstate] at hnone
        cases hnone
      | idle hsome hhistory hauthority =>
        rw [hstate] at hsome
        cases hsome
        cases hpending
      | received hsome haudit hevent hid hdigest hround hhistory hauthority =>
        rw [hstate] at hsome
        cases hsome
        cases hpending
        rw [auditHistory_append hhistory]
        exact auditStep_recoveredRecord hparent hid hdigest hround hauthority
      | terminal hsome haudit hid hterminal hhistory =>
        rw [hstate] at hsome
        cases hsome
        cases hpending
        rw [haudit] at hlatest
        cases latestRecord_eq_last hid hlatest
        rw [hopen] at hterminal
        cases hterminal
    have hrecorded : AuditFollows scope (files.write
        (.audit (recoveredRecord host scope call found.toStateSnapshot pending))) := by
      obtain ⟨parent, kept⟩ := found
      cases hpending
      refine .terminal hstate rfl rfl ?_ hhistory
      cases hfound : foundCommitted call.input pending with
      | true => simp only [terminalState, recoveredRecord, baseRecord, hfound, if_true, settledBy]
      | false =>
        simp [terminalState, recoveredRecord, baseRecord, hfound, settledBy]
    rw [atEveryCut_cons, atEveryCut_cons, atEveryCut_nil]
    exact ⟨⟨h, hrecorded, .idle rfl hhistory rfl⟩, _, true, hhistory, rfl⟩

/-- Behind its received record, an attempt that has begun has an audit to follow. -/
theorem AttemptStage.auditFollows {final : StateSnapshot} {after : CouncilFiles}
    (hstate : ScopeState scope state)
    (hhistory : auditHistory scope.scope.identityDigest audit = .ok ⟨some current, none, saw⟩)
    (hauthority : current.authority = state.authority)
    (hstage : AttemptStage host scope call state audit final true after) :
    AuditFollows scope after := by
  have hround : state.currentRound = current.currentRound :=
    (congrArg RoundAuthority.round hauthority).symm
  have hreceived : auditHistory scope.scope.identityDigest
      (audit ++ [receivedRecord host scope call state])
      = .ok ⟨some current, some (receivedRecord host scope call state), saw⟩ := by
    rw [auditHistory_append hhistory]
    exact auditStep_received rfl hround
  have hfinalized (evaluation : CouncilAttemptEvaluation) (hopened : state.status = .opened) :
      auditHistory scope.scope.identityDigest (audit ++ [receivedRecord host scope call state]
        ++ [finalizedRecord host scope call state evaluation])
      = .ok ⟨some (call.next state evaluation), none, true⟩ := by
    rw [auditHistory_append hreceived]
    have hfollows := Follows.pending
      (@pendingMatchesParent_pending _ call _ hopened evaluation)
    rw [← hauthority] at hfollows
    exact auditStep_terminal (show AttemptEvent.finalized ≠ .received by decide)
      rfl rfl rfl rfl rfl hround hfollows
  cases hstage with
  | @stayed _ disposition _ hafter hkept haudit hfinal =>
    have hstayed : auditHistory scope.scope.identityDigest after.audit
        = .ok ⟨some (stayingState state call.attemptId (call.digest state)), none, true⟩ := by
      rw [haudit, auditHistory_append hreceived]
      have hfollows := Follows.stayingState state call.attemptId (call.digest state)
      rw [← hauthority] at hfollows
      exact auditStep_terminal (show AttemptEvent.finalized ≠ .received by decide)
        rfl rfl rfl rfl rfl hround hfollows
    rcases hkept with rfl | rfl
    · exact .idle hafter hstayed rfl
    · exact .idle hafter hstayed rfl
  | pending hopened hafter haudit hfinal =>
    exact .received hafter haudit rfl rfl rfl rfl (haudit ▸ hreceived) hauthority
  | @finalized _ evaluation hopened hafter haudit hfinal =>
    exact .terminal hafter haudit rfl rfl (haudit ▸ hfinalized evaluation hopened)
  | @completed _ evaluation hopened hafter haudit hfinal =>
    exact .idle hafter (haudit ▸ hfinalized evaluation hopened) rfl

/-! ## Every run -/

variable {decided : List CouncilWrite}

theorem decides_ne_nil (h : Decides host scope call state decided) : decided ≠ [] := by
  cases h <;> exact List.cons_ne_nil _ _

/-- An attempt with a write to come that is cut behind its received record stops there. -/
theorem cut_length {before : List CouncilWrite} {received : CouncilWrite} (hdecided : decided ≠ [])
    (h : call.cut (before ++ received :: decided) = before ++ [received]) :
    call.stop = some (before.length + 1) := by
  have hpos := List.length_pos_of_ne_nil hdecided
  rw [CouncilCall.cut] at h
  cases hstop : call.stop with
  | none =>
    rw [hstop] at h
    have hlength := congrArg List.length h
    simp only [List.length_append, List.length_cons, List.length_nil] at hlength
    omega
  | some made =>
    rw [hstop] at h
    have hlength := congrArg List.length h
    simp only [List.length_take, List.length_append, List.length_cons, List.length_nil]
      at hlength
    have hmade : made = before.length + 1 := by omega
    rw [hmade]

/-- A step that does not stop behind its received record keeps the audit in step. -/
theorem AuditFollows.step (hinv : CouncilInvariant scope files) (h : AuditFollows scope files)
    (hbegun : stopsReceived host scope files call = false) :
    AuditFollows scope (councilStep host scope files call) := by
  rw [councilStep]
  cases hsettled : settledState host scope files call with
  | error message =>
    have hrun : runCouncilAttempt host scope files call = .error message := by
      rw [runCouncilAttempt, hsettled]
      rfl
    rw [hrun]
    exact h
  | ok result =>
    obtain ⟨start, before⟩ := result
    rw [runCouncilAttempt_of_settledState hsettled]
    have hsettles := settles_of_settledState hsettled
    obtain ⟨hcuts, current, saw, hhistory, hauthority⟩ := h.settles hinv hsettles
    have hstart := (hinv.forward_settled hsettles).1
    show AuditFollows scope ((call.cut (before ++ .audit (receivedRecord host scope call start)
      :: (decidedWrites host scope call start).1)).foldl CouncilFiles.write files)
    rcases cut_cases call before (decidedWrites host scope call start).1
      (.audit (receivedRecord host scope call start)) with ⟨made, hcut⟩ | ⟨made, hcut⟩
    · rw [hcut]
      exact hcuts made
    · have hmade : 0 < made := by
        have hwrites := decides_ne_nil (@decides_decidedWrites host scope call start)
        refine Nat.pos_of_ne_zero fun hzero => ?_
        rw [hzero, List.take_zero] at hcut
        have hlength := cut_length hwrites hcut
        rw [stopsReceived, hsettled, hlength] at hbegun
        simp only [beq_self_eq_true, Bool.true_eq_false] at hbegun
      rw [hcut, List.foldl_append, List.foldl_cons]
      have haudit : ((before.foldl CouncilFiles.write files).write
          (.audit (receivedRecord host scope call start))).audit
            = (before.foldl CouncilFiles.write files).audit
              ++ [receivedRecord host scope call start] := rfl
      have hstage := attemptStage_cut
        (show ((before.foldl CouncilFiles.write files).write
          (.audit (receivedRecord host scope call start))).state = some start.toState from
            hsettles.state) haudit (decides_decidedWrites call start) made
      rw [decide_eq_true hmade] at hstage
      exact hstage.auditFollows hstart hhistory hauthority

theorem state_of_decides (hstate : files.state = some state.toState)
    (h : Decides host scope call state decided) :
    ∃ last : StateSnapshot, (decided.foldl CouncilFiles.write files).state = some last.toState := by
  cases h with
  | stays hdisposition hclosed => exact ⟨_, rfl⟩
  | staysUnwritten hdisposition hopened => exact ⟨state, hstate⟩
  | @evaluated evaluation evidence hopened hevidence =>
    refine ⟨call.next state evaluation, ?_⟩
    rw [List.foldl_cons, List.foldl_append, List.foldl_cons, List.foldl_cons, List.foldl_nil]
    rfl

theorem state_of_completes (h : completes host scope files call = true) :
    ∃ last : StateSnapshot, (councilStep host scope files call).state = some last.toState := by
  obtain ⟨hstop, hok⟩ := Bool.and_eq_true_iff.mp h
  rw [councilStep]
  cases hrun : runCouncilAttempt host scope files call with
  | error message =>
    rw [hrun] at hok
    cases hok
  | ok result =>
    obtain ⟨writes, reply⟩ := result
    obtain ⟨start, before, hsettles, rfl⟩ := runCouncilAttempt_eq_ok hrun
    show ∃ last : StateSnapshot, ((call.cut _).foldl CouncilFiles.write files).state
      = some last.toState
    rw [CouncilCall.cut, Option.isNone_iff_eq_none.mp hstop]
    show ∃ last : StateSnapshot, ((before ++ .audit (receivedRecord host scope call start)
      :: (decidedWrites host scope call start).1).foldl CouncilFiles.write files).state
        = some last.toState
    rw [List.foldl_append, List.foldl_cons]
    exact state_of_decides hsettles.state (decides_decidedWrites call start)

theorem stopsReceived_of_completes (h : completes host scope files call = true) :
    stopsReceived host scope files call = false := by
  have hstop := Option.isNone_iff_eq_none.mp (Bool.and_eq_true_iff.mp h).1
  rw [stopsReceived, hstop]
  split <;> rfl

theorem loadState_of_recoveredHistory {recovered : StateSnapshot}
    (h : recoveredHistory host scope files.audit = .ok (some recovered)) :
    loadState host scope { files with state := none }
      = .ok (recovered.toState, [.state recovered.toState]) := by
  obtain ⟨tail, htail, hrecovered⟩ := bind_eq_ok.mp h
  exact bind_eq_ok.mpr ⟨tail, htail, bind_eq_ok.mpr ⟨_, hrecovered, rfl⟩⟩

theorem AuditFollows.recovers (h : AuditFollows scope files) (hreadable : Readable host scope files)
    (hstate : files.state = some state.toState) (htail : auditBytes files.audit ≤ maxAuditTail) :
    RecoversFromAudit host scope files := by
  have hwhole : readAuditTail host scope files.audit = .ok ⟨files.audit, false⟩ := by
    rw [readAuditTail_of_forall hreadable, auditTail, if_pos htail]
  cases h with
  | absent hnone =>
    rw [hstate] at hnone
    cases hnone
  | @idle found current saw hsome hhistory hauthority =>
    have hrecovered : recoveredHistory host scope files.audit = .ok (some current) := by
      rw [recoveredHistory, hwhole]
      exact recoverAuditHistory_of_auditHistory hhistory
    exact ⟨found.toState, current, hsome, hrecovered, loadState_of_recoveredHistory hrecovered,
      hauthority⟩
  | received hsome haudit hevent hid hdigest hround hhistory hauthority
  | terminal hsome haudit hid hnext hhistory =>
    rw [hstate] at hsome
    cases hsome

/-- Every run of attempts whose cut member names stay distinct, in which none stops
    behind its received record and the last one completes. -/
theorem recoversFromAudit_of_run {calls : List (CouncilCall host)} {last : CouncilCall host}
    (hmembers : ∀ call ∈ calls ++ [last], (recordedMembers call.input).Nodup)
    (hguard : Along (councilStep host scope)
      (fun files call => stopsReceived host scope files call = false) noCouncilFiles calls)
    (hlast : completes host scope (calls.foldl (councilStep host scope) noCouncilFiles) last = true)
    (htail : auditBytes (councilStep host scope
      (calls.foldl (councilStep host scope) noCouncilFiles) last).audit ≤ maxAuditTail) :
    RecoversFromAudit host scope
      (councilStep host scope (calls.foldl (councilStep host scope) noCouncilFiles) last) := by
  have hinv : CouncilInvariant scope (calls.foldl (councilStep host scope) noCouncilFiles)
      ∧ AuditFollows scope (calls.foldl (councilStep host scope) noCouncilFiles) := by
    have hstep : ∀ before (call : CouncilCall host) after,
        Guarded (fun before call after => councilStep host scope before call = after)
          (fun before call => stopsReceived host scope before call = false) before call after →
        CouncilInvariant scope before ∧ AuditFollows scope before →
        CouncilInvariant scope after ∧ AuditFollows scope after := by
      rintro before call _ ⟨rfl, hbegun⟩ ⟨hbefore, hfollows⟩
      exact ⟨(hbefore.step call).1, hfollows.step hbefore hbegun⟩
    exact Run.preserves hstep (Run.of_foldl hguard)
      ⟨councilInvariant_noCouncilFiles scope, .absent rfl⟩
  have hfollows := hinv.2.step hinv.1 (stopsReceived_of_completes hlast)
  have hreadable := (@readable_of_run host scope (calls ++ [last]) hmembers).2
  rw [List.foldl_append, List.foldl_cons, List.foldl_nil] at hreadable
  obtain ⟨state, hstate⟩ := state_of_completes hlast
  exact hfollows.recovers hreadable hstate htail

/-! ## A received record alone -/

/-- An attempt on a fresh scope that stops after `made` writes; the first is the state. -/
def localCut (made : Nat) : CouncilCall localHost :=
  { localStopped with stop := some made }

/-- Stopped before its received record. -/
theorem recoversFromAudit_stateStop :
    RecoversFromAudit localHost finalScope (councilStep localHost finalScope
      ([localCut 1].foldl (councilStep localHost finalScope) noCouncilFiles) localCompleted) :=
  recoversFromAudit_of_run (by decide +kernel) (by decide +kernel) (by decide +kernel)
    (by decide +kernel)

/-- Stopped behind it: its received record and the next one overlap. -/
theorem not_recoversFromAudit_receivedStop :
    completes localHost finalScope
        ([localCut 2].foldl (councilStep localHost finalScope) noCouncilFiles) localCompleted = true
    ∧ auditBytes (councilStep localHost finalScope
        ([localCut 2].foldl (councilStep localHost finalScope) noCouncilFiles)
        localCompleted).audit ≤ maxAuditTail
    ∧ ¬ RecoversFromAudit localHost finalScope (councilStep localHost finalScope
        ([localCut 2].foldl (councilStep localHost finalScope) noCouncilFiles) localCompleted) := by
  refine ⟨by decide +kernel, by decide +kernel, ?_⟩
  rintro ⟨state, recovered, -, hrecovered, -, -⟩
  have hthrows : (recoveredHistory localHost finalScope (councilStep localHost finalScope
      ([localCut 2].foldl (councilStep localHost finalScope) noCouncilFiles)
      localCompleted).audit).toBool = false := by
    decide +kernel
  rw [hrecovered] at hthrows
  cases hthrows

end OpencodeSwarm
