/-
  OpencodeSwarm.Council.AttemptFacts

  What an attempt writes passes the checks of its readers; how an attempt settles
  what was left before it, and which writes follow its received record.
-/
import OpencodeSwarm.Council.CouncilAttempt
import OpencodeSwarm.Lib.Outcome

namespace OpencodeSwarm

open Js Outcome

variable {host : CouncilHost} {scope : CouncilScope}

/-! ## Snapshots -/

theorem isSnapshot_iff {state : StateSnapshot} :
    isSnapshot state = true ↔ state.version = councilVersion
      ∧ isDigest state.identityDigest = true ∧ isRound state.currentRound = true
      ∧ state.lastAttemptId.all isUuid = true ∧ state.lastDigest.all isDigest = true
      ∧ state.lastAttemptId.isNone = state.lastDigest.isNone := by
  simp only [isSnapshot, Bool.and_eq_true, beq_iff_eq, and_assoc]

theorem isRound_iff {value : Int} : isRound value = true ↔ 1 ≤ value ∧ value ≤ maxRound := by
  simp [isRound]

theorem snapshot_eq_self {state : StateSnapshot} (h : isSnapshot state = true) :
    snapshot state = state := by
  have hversion := (isSnapshot_iff.mp h).1
  obtain ⟨version, identityDigest, currentRound, status, exhausted, lastId, lastDigest⟩ := state
  cases hversion
  rfl

theorem isDigest_digest (call : CouncilCall host) (state : StateSnapshot) :
    isDigest (call.digest state) = true :=
  host.isDigest_sha256 _

theorem isDigest_identityDigest (scope : CouncilScope) :
    isDigest scope.scope.identityDigest = true := by
  obtain ⟨scope, hvalid⟩ := scope
  cases scope with
  | task taskId digest | phase phaseNumber digest => exact (Bool.and_eq_true_iff.mp hvalid).2
  | final digest => exact hvalid

theorem isSnapshot_initialState (scope : CouncilScope) :
    isSnapshot (initialState scope.scope.identityDigest) = true := by
  rw [isSnapshot_iff]
  refine ⟨rfl, isDigest_identityDigest scope, ?_, rfl, rfl, rfl⟩
  show isRound 1 = true
  decide

variable {attemptId digest : JsString}

theorem isSnapshot_stayingState {state : StateSnapshot} (h : isSnapshot state = true)
    (hid : isUuid attemptId = true) (hdigest : isDigest digest = true) :
    isSnapshot (stayingState state attemptId digest) = true := by
  rw [isSnapshot_iff] at h ⊢
  exact ⟨rfl, h.2.1, h.2.2.1, hid, hdigest, rfl⟩

theorem transitionState_currentRound {state : StateSnapshot} {attemptId digest : JsString}
    {transition : CouncilRoundTransition} {maxRounds : Int}
    (hround : state.currentRound ≤ maxRound) :
    state.currentRound ≤ (transitionState state attemptId digest transition maxRounds).currentRound
      ∧ (transitionState state attemptId digest transition maxRounds).currentRound ≤ maxRound := by
  cases transition with
  | stay | close => exact ⟨le_refl _, hround⟩
  | advance =>
    simp only [transitionState]
    split
    · rename_i hlimit
      -- the limit is the round itself or at most the configured one
      have hbelow : state.currentRound < maxRound := by
        rcases lt_max_iff.mp hlimit with hself | hconfigured
        · exact absurd hself (lt_irrefl _)
        · have hle : max 1 (min maxRound maxRounds) ≤ maxRound :=
            max_le (by decide) (min_le_left _ _)
          exact lt_of_lt_of_le hconfigured hle
      constructor
      · show state.currentRound ≤ state.currentRound + 1
        omega
      · show state.currentRound + 1 ≤ maxRound
        omega
    · exact ⟨le_refl _, hround⟩

theorem isSnapshot_transitionState {state : StateSnapshot} (h : isSnapshot state = true)
    (hid : isUuid attemptId = true) (hdigest : isDigest digest = true)
    (transition : CouncilRoundTransition) (maxRounds : Int) :
    isSnapshot (transitionState state attemptId digest transition maxRounds) = true := by
  rw [isSnapshot_iff] at h ⊢
  have hrange := isRound_iff.mp h.2.2.1
  have hround := @transitionState_currentRound state attemptId digest transition maxRounds hrange.2
  have hnext :
      isRound (transitionState state attemptId digest transition maxRounds).currentRound = true :=
    isRound_iff.mpr ⟨hrange.1.trans hround.1, hround.2⟩
  cases transition with
  | stay | close => exact ⟨rfl, h.2.1, hnext, hid, hdigest, rfl⟩
  | advance =>
    simp only [transitionState] at hnext ⊢
    split
    · rename_i hlimit
      rw [if_pos hlimit] at hnext
      exact ⟨rfl, h.2.1, hnext, hid, hdigest, rfl⟩
    · exact ⟨rfl, h.2.1, h.2.2.1, hid, hdigest, rfl⟩

/-! ## Pending attempts -/

variable {disposition : JsString}

theorem isDisposition_take (h : disposition ≠ []) : isDisposition (disposition.take 80) = true := by
  have hpos := List.length_pos_of_ne_nil h
  simp only [isDisposition, Bool.and_eq_true, decide_eq_true_eq, List.length_take]
  omega

theorem pendingMatchesParent_pending {call : CouncilCall host} {state : StateSnapshot}
    (hopen : state.status = .opened) (evaluation : CouncilAttemptEvaluation) :
    pendingMatchesParent state (call.pending state evaluation) = true := by
  cases htransition : evaluation.transition with
  | stay | close =>
    simp [pendingMatchesParent, CouncilCall.pending, CouncilCall.next, htransition, hopen,
      transitionState]
  | advance =>
    simp only [pendingMatchesParent, CouncilCall.pending, CouncilCall.next, htransition, hopen,
      transitionState]
    split <;> simp only [beq_self_eq_true, Bool.and_self, Bool.true_or, Bool.or_true]

theorem isPending_pending {call : CouncilCall host} {state : StateSnapshot}
    (h : isSnapshot state = true) (hopen : state.status = .opened)
    (evaluation : CouncilAttemptEvaluation) :
    isPending state (call.pending state evaluation) = true := by
  have hnext := isSnapshot_transitionState h call.isUuid_attemptId (isDigest_digest call state)
    evaluation.transition call.input.maxRounds
  have hround := (isSnapshot_iff.mp h).2.2.1
  have hdisposition := isDisposition_take evaluation.disposition_ne_nil
  have hsome : evaluation.evidence.isSome = (evaluation.evidence.map (List.take 240)).isSome :=
    Option.isSome_map.symm
  have hparent := @pendingMatchesParent_pending _ call _ hopen evaluation
  simp only [isPending, Bool.and_eq_true, beq_iff_eq]
  exact ⟨⟨⟨⟨⟨⟨⟨⟨⟨call.isUuid_attemptId, isDigest_digest call state⟩, hround⟩, hnext⟩,
    hdisposition⟩, hsome⟩, evaluation.isEvidenceRef_evidence⟩,
    evaluation.isQuorumSize_quorumSize⟩, evaluation.isNone_verdict⟩, hparent⟩

/-! ## Records -/

/-- The members of a record: five names, each cut to 32 code units. -/
def recordedMembers (input : CouncilAttemptInput) : List JsString :=
  (input.members.take 5).map (List.take 32)

theorem sameAuditScope_self (scope : AuditScope) : sameAuditScope scope scope = true := by
  cases scope <;> simp only [sameAuditScope, beq_self_eq_true, Bool.and_self]

theorem isRecordBase_baseRecord {input : CouncilAttemptInput} {timestamp : JsString} {round : Int}
    {event : AttemptEvent} (hid : isUuid attemptId = true)
    (htime : timestamp.length ≤ 40 ∧ host.isDate timestamp = true)
    (hdigest : isDigest digest = true) (hround : isRound round = true)
    (hdisposition : disposition ≠ []) (hmembers : (recordedMembers input).Nodup) :
    isRecordBase host (auditScope host.sha256 scope.scope)
      (baseRecord host scope input attemptId timestamp digest round event disposition) = true := by
  have hsession : ((truthyString input.sessionID).map host.sha256).all isDigest = true := by
    cases truthyString input.sessionID with
    | none => rfl
    | some sessionID => exact host.isDigest_sha256 sessionID
  have hcount : isQuorumSize (max 0 (min 5 input.verdictCount)) = true := by
    simp only [isQuorumSize, Bool.and_eq_true, decide_eq_true_eq]
    omega
  have hlength : (recordedMembers input).length ≤ 5 := by
    rw [recordedMembers, List.length_map, List.length_take]
    omega
  have hnames : (recordedMembers input).all
      (fun member => member != [] && member.length ≤ 32) = true := by
    rw [List.all_eq_true]
    intro name hname
    obtain ⟨member, hmember, rfl⟩ := List.mem_map.mp hname
    have hpos := List.length_pos_of_ne_nil
      (input.members_ne_nil member (List.mem_of_mem_take hmember))
    have hcut : (member.take 32).length = min 32 member.length := List.length_take
    have hne : member.take 32 ≠ [] := by
      intro hnil
      rw [hnil, List.length_nil] at hcut
      omega
    simp only [Bool.and_eq_true, bne_iff_ne, ne_eq, decide_eq_true_eq]
    exact ⟨hne, by omega⟩
  simp only [isRecordBase, Bool.and_eq_true, decide_eq_true_eq, beq_iff_eq]
  exact ⟨⟨⟨⟨⟨⟨⟨⟨⟨⟨⟨⟨⟨rfl, hid⟩, htime.1⟩, htime.2⟩, sameAuditScope_self _⟩,
    input.isRound_clientRound⟩, hround⟩, hdigest⟩, hsession⟩, isDisposition_take hdisposition⟩,
    hcount⟩, hlength⟩, hnames⟩, hmembers⟩

theorem isRecordBase_outcome {expected : AuditScope} {record : AttemptRecord}
    (h : isRecordBase host expected record = true) (hdisposition : isDisposition disposition = true)
    (event : AttemptEvent) (transition : Option CouncilRoundTransition)
    (gateEffect : Option GateEffect) (verdict : Option CouncilVerdict) (quorumSize : Option Int)
    (evidenceRef : Option JsString) (nextState : Option StateSnapshot) :
    isRecordBase host expected { record with
      event := event, disposition := disposition, transition := transition
      gateEffect := gateEffect, verdict := verdict, quorumSize := quorumSize
      evidenceRef := evidenceRef, nextState := nextState } = true := by
  simp only [isRecordBase, Bool.and_eq_true] at h ⊢
  obtain ⟨⟨⟨⟨⟨hbefore, -⟩, hcount⟩, hlength⟩, hnames⟩, hnodup⟩ := h
  exact ⟨⟨⟨⟨⟨hbefore, hdisposition⟩, hcount⟩, hlength⟩, hnames⟩, hnodup⟩

section Records

variable {call : CouncilCall host} {state : StateSnapshot}

theorem isRecordBase_receivedRecord (hstate : isSnapshot state = true)
    (hmembers : (recordedMembers call.input).Nodup) :
    isRecordBase host (auditScope host.sha256 scope.scope)
      (receivedRecord host scope call state) = true :=
  isRecordBase_baseRecord call.isUuid_attemptId call.isDate_receivedAt (isDigest_digest call state)
    (isSnapshot_iff.mp hstate).2.2.1 (by decide) hmembers

theorem isAuditRecord_receivedRecord (hstate : isSnapshot state = true)
    (hmembers : (recordedMembers call.input).Nodup) :
    isAuditRecord host (auditScope host.sha256 scope.scope)
      (receivedRecord host scope call state) = true := by
  have hbase := @isRecordBase_receivedRecord host scope call state hstate hmembers
  have houtcome : isRecordOutcome (receivedRecord host scope call state) = true := by
    have htext : (js "received").take 80 = js "received" := by decide
    simp [isRecordOutcome, receivedRecord, baseRecord, htext]
  simp only [isAuditRecord, hbase, houtcome, Bool.true_and]
  rfl

/-- A closed scope stays closed only under one of these. -/
def isClosedDisposition (disposition : JsString) : Bool :=
  [js "duplicate_submission", js "council_round_closed",
    js "council_round_mismatch"].contains disposition

theorem isAuditRecord_stayingRecord {disposition : JsString} (hstate : isSnapshot state = true)
    (hmembers : (recordedMembers call.input).Nodup)
    (hdisposition : isDisposition disposition = true)
    (hclosed : state.status = .closed → isClosedDisposition disposition = true) :
    isAuditRecord host (auditScope host.sha256 scope.scope)
      (stayingRecord host scope call state disposition) = true := by
  have hbase : isRecordBase host (auditScope host.sha256 scope.scope)
      (stayingRecord host scope call state disposition) = true :=
    isRecordBase_outcome (isRecordBase_receivedRecord hstate hmembers) hdisposition _ _ _ _ _ _ _
  have hnext := isSnapshot_stayingState hstate call.isUuid_attemptId (isDigest_digest call state)
  have hconsistent : auditTransitionIsConsistent (stayingRecord host scope call state disposition)
      .stay (stayingState state call.attemptId (call.digest state)) = true := by
    show (!(state.status == .closed && !isClosedDisposition disposition)
      && state.currentRound == state.currentRound) = true
    rw [beq_self_eq_true, Bool.and_true]
    cases hstatus : state.status with
    | opened => rfl
    | closed =>
      rw [hclosed hstatus]
      rfl
  have houtcome : isRecordOutcome (stayingRecord host scope call state disposition) = true := by
    simp only [isRecordOutcome, stayingRecord, Bool.and_eq_true, beq_iff_eq]
    exact ⟨⟨⟨⟨rfl, hnext⟩, rfl⟩, rfl⟩, hconsistent⟩
  simp only [isAuditRecord, hbase, houtcome, Bool.true_and]
  rfl

theorem auditTransitionIsConsistent_next (evaluation : CouncilAttemptEvaluation) :
    auditTransitionIsConsistent (finalizedRecord host scope call state evaluation)
      evaluation.transition (call.next state evaluation) = true := by
  cases htransition : evaluation.transition with
  | stay =>
    simp only [auditTransitionIsConsistent, CouncilCall.next, htransition, transitionState,
      finalizedRecord, receivedRecord, baseRecord, beq_self_eq_true, Bool.and_true]
    rfl
  | close =>
    simp [auditTransitionIsConsistent, CouncilCall.next, htransition, transitionState,
      finalizedRecord, receivedRecord, baseRecord]
  | advance =>
    simp only [auditTransitionIsConsistent, CouncilCall.next, htransition, transitionState,
      finalizedRecord, receivedRecord, baseRecord]
    split <;> simp only [beq_self_eq_true, Bool.and_self, Bool.true_or, Bool.or_true]

theorem isAuditRecord_finalizedRecord (hstate : isSnapshot state = true)
    (hmembers : (recordedMembers call.input).Nodup) (evaluation : CouncilAttemptEvaluation) :
    isAuditRecord host (auditScope host.sha256 scope.scope)
      (finalizedRecord host scope call state evaluation) = true := by
  have hbase : isRecordBase host (auditScope host.sha256 scope.scope)
      (finalizedRecord host scope call state evaluation) = true :=
    isRecordBase_outcome (isRecordBase_receivedRecord hstate hmembers)
      (isDisposition_take evaluation.disposition_ne_nil) _ _ _ _ _ _ _
  have hnext := isSnapshot_transitionState hstate call.isUuid_attemptId (isDigest_digest call state)
    evaluation.transition call.input.maxRounds
  have hlast : (call.next state evaluation).lastAttemptId = some call.attemptId
      ∧ (call.next state evaluation).lastDigest = some (call.digest state) := by
    simp only [CouncilCall.next, transitionState]
    split
    · exact ⟨rfl, rfl⟩
    · exact ⟨rfl, rfl⟩
    · split <;> exact ⟨rfl, rfl⟩
  have houtcome : isRecordOutcome (finalizedRecord host scope call state evaluation) = true := by
    simp only [isRecordOutcome, finalizedRecord, Bool.and_eq_true, beq_iff_eq]
    exact ⟨⟨⟨⟨rfl, hnext⟩, hlast.1⟩, hlast.2⟩, auditTransitionIsConsistent_next evaluation⟩
  simp only [isAuditRecord, hbase, houtcome, Bool.true_and, Bool.and_eq_true, beq_iff_eq]
  exact ⟨⟨evaluation.isQuorumSize_quorumSize, evaluation.isNone_verdict⟩,
    evaluation.isEvidenceRef_evidence⟩

end Records

/-! ## Pending attempts and their records -/

section Pending

variable {state : StateSnapshot} {pending : PendingAttempt}

theorem isPending_iff : isPending state pending = true ↔
    isUuid pending.attemptId = true ∧ isDigest pending.digest = true
      ∧ isRound pending.round = true ∧ isSnapshot pending.nextState = true
      ∧ isDisposition pending.disposition = true
      ∧ pending.evidenceExpected = pending.evidenceRef.isSome
      ∧ pending.evidenceRef.all isEvidenceRef = true ∧ pending.quorumSize.all isQuorumSize = true
      ∧ pending.verdict.isNone = pending.quorumSize.isNone
      ∧ pendingMatchesParent state pending = true := by
  simp only [isPending, Bool.and_eq_true, beq_iff_eq, and_assoc]

/-- A pending attempt belongs to an open round, and is the last of its own next state. -/
theorem pendingMatchesParent_parent (h : pendingMatchesParent state pending = true) :
    state.status = .opened ∧ pending.round = state.currentRound
      ∧ pending.nextState.lastAttemptId = some pending.attemptId
      ∧ pending.nextState.lastDigest = some pending.digest := by
  simp only [pendingMatchesParent, Bool.and_eq_true, beq_iff_eq] at h
  exact ⟨h.1.1.1.1, h.1.1.1.2, h.1.1.2, h.1.2⟩

/-- The transition of a pending attempt, as a record of its round may tell it. -/
theorem auditTransitionIsConsistent_of_parent (h : pendingMatchesParent state pending = true)
    {record : AttemptRecord} (hround : record.authoritativeRound = pending.round) :
    auditTransitionIsConsistent record pending.transition pending.nextState = true := by
  have hparent := (pendingMatchesParent_parent h).2.1
  simp only [pendingMatchesParent, Bool.and_eq_true, beq_iff_eq] at h
  have hnext := h.2
  rw [← hparent, ← hround] at hnext
  cases htransition : pending.transition with
  | stay =>
    simp only [htransition, Bool.and_eq_true, beq_iff_eq] at hnext
    simp only [auditTransitionIsConsistent, hnext.1.1, hnext.1.2, beq_self_eq_true, Bool.and_true]
    rfl
  | close =>
    simp only [htransition, Bool.and_eq_true, beq_iff_eq] at hnext
    simp [auditTransitionIsConsistent, hnext.1.1, hnext.1.2]
  | advance =>
    simp only [htransition] at hnext
    exact hnext

/-- What settles an interrupted attempt. -/
def settledBy (found : Bool) (state : StateSnapshot) (pending : PendingAttempt) : StateSnapshot :=
  if found then pending.nextState else stayingState state pending.attemptId pending.digest

theorem isSnapshot_settledBy (hstate : isSnapshot state = true)
    (hpending : isPending state pending = true) (found : Bool) :
    isSnapshot (settledBy found state pending) = true := by
  obtain ⟨hid, hdigest, -, hnext, -⟩ := isPending_iff.mp hpending
  cases found with
  | true => exact hnext
  | false => exact isSnapshot_stayingState hstate hid hdigest

variable {call : CouncilCall host}

theorem isAuditRecord_recoveredRecord (hstate : isSnapshot state = true)
    (hpending : isPending state pending = true) (hmembers : (recordedMembers call.input).Nodup) :
    isAuditRecord host (auditScope host.sha256 scope.scope)
      (recoveredRecord host scope call state pending) = true := by
  obtain ⟨hid, hdigest, hround, hnext, -, -, href, hquorum, hverdict, hparent⟩ :=
    isPending_iff.mp hpending
  obtain ⟨hopened, hsame, hlastId, hlastDigest⟩ := pendingMatchesParent_parent hparent
  have hbase : isRecordBase host (auditScope host.sha256 scope.scope)
      (recoveredRecord host scope call state pending) = true := by
    have hdisposition : (if foundCommitted call.input pending then js "pending_evidence_recovered"
        else js "orphan_recovered") ≠ [] := by
      split <;> decide
    exact isRecordBase_outcome (isRecordBase_baseRecord hid call.isDate_recoveredAt hdigest hround
      hdisposition hmembers) (isDisposition_take hdisposition) _ _ _ _ _ _ _
  have houtcome : isRecordOutcome (recoveredRecord host scope call state pending) = true := by
    cases hfound : foundCommitted call.input pending with
    | true =>
      simp only [isRecordOutcome, recoveredRecord, baseRecord, hfound, if_true, Option.isSome_some,
        Bool.true_and, Bool.and_eq_true, beq_iff_eq]
      exact ⟨⟨⟨hnext, hlastId⟩, hlastDigest⟩, auditTransitionIsConsistent_of_parent hparent rfl⟩
    | false =>
      have hstays := isSnapshot_stayingState hstate hid hdigest
      simp only [isRecordOutcome, recoveredRecord, baseRecord, hfound, Option.isSome_some,
        Bool.true_and, Bool.and_eq_true, beq_iff_eq, Bool.false_eq_true, if_false]
      refine ⟨⟨⟨hstays, rfl⟩, rfl⟩, ?_⟩
      simp only [auditTransitionIsConsistent, stayingState, snapshot, hopened, hsame,
        beq_self_eq_true, Bool.and_true]
      rfl
  simp only [isAuditRecord, hbase, houtcome, Bool.true_and, Bool.and_eq_true, beq_iff_eq]
  exact ⟨⟨hquorum, hverdict⟩, href⟩

theorem sameSnapshot_self (state : StateSnapshot) : sameSnapshot state state = true := by
  simp [sameSnapshot]

/-- The finalized record of an attempt matches the pending state it wrote. -/
theorem pendingTerminalMatches_finalizedRecord (evaluation : CouncilAttemptEvaluation) :
    pendingTerminalMatches state (call.pending state evaluation)
      (finalizedRecord host scope call state evaluation) = true := by
  simp [pendingTerminalMatches, finalizedRecord, receivedRecord, baseRecord, CouncilCall.pending,
    sameSnapshot_self]

theorem pendingTerminalMatches_recoveredRecord :
    pendingTerminalMatches state pending (recoveredRecord host scope call state pending)
      = true := by
  cases hfound : foundCommitted call.input pending with
  | true =>
    have htext : (js "pending_evidence_recovered").take 80 = js "pending_evidence_recovered" := by
      decide
    simp [pendingTerminalMatches, recoveredRecord, baseRecord, hfound, htext, sameSnapshot_self]
  | false =>
    have htext : (js "orphan_recovered").take 80 = js "orphan_recovered" := by decide
    have hother : js "orphan_recovered" ≠ js "pending_evidence_recovered" := by decide
    simp [pendingTerminalMatches, recoveredRecord, baseRecord, hfound, htext, hother,
      sameSnapshot_self]

end Pending

/-! ## The tail -/

theorem recordsInTail_suffix (audit : List AttemptRecord) : recordsInTail audit <:+ audit := by
  induction audit with
  | nil => exact List.suffix_rfl
  | cons record later ih =>
    simp only [recordsInTail]
    split
    · exact List.suffix_rfl
    · exact ih.trans (List.suffix_cons record later)

theorem auditTail_suffix (audit : List AttemptRecord) : (auditTail audit).records <:+ audit := by
  rw [auditTail]
  split
  · exact List.suffix_rfl
  · exact recordsInTail_suffix audit

variable {audit : List AttemptRecord}

theorem readAuditTail_eq_ok {tail : AuditTail} (h : readAuditTail host scope audit = .ok tail) :
    tail = auditTail audit := by
  obtain ⟨records, hrecords, htail⟩ := bind_eq_ok.mp h
  have hsame : records = (auditTail audit).records := by
    refine eq_of_mapM_eq_ok ?_ hrecords
    intro record parsed hparsed
    rw [parseAuditRecord] at hparsed
    split at hparsed
    · cases hparsed
      rfl
    · cases hparsed
  cases htail
  rw [hsame]

theorem readAuditTail_of_forall
    (h : ∀ record ∈ audit, isAuditRecord host (auditScope host.sha256 scope.scope) record = true) :
    readAuditTail host scope audit = .ok (auditTail audit) := by
  have hrecords : (auditTail audit).records.mapM
      (parseAuditRecord host (auditScope host.sha256 scope.scope))
      = .ok (auditTail audit).records := by
    refine mapM_eq_ok_of_forall ?_
    intro record hrecord
    rw [parseAuditRecord, if_pos (h record ((auditTail_suffix audit).mem hrecord))]
  rw [readAuditTail, hrecords]
  rfl

/-- The latest record of an attempt is the last of the audit, where that is its own. -/
theorem latestRecord_eq_last {earlier : List AttemptRecord} {last latest : AttemptRecord}
    (hlast : last.attemptId = attemptId)
    (h : latestRecord (auditTail (earlier ++ [last])).records attemptId = some latest) :
    latest = last := by
  obtain ⟨dropped, hsuffix⟩ := auditTail_suffix (earlier ++ [last])
  rw [latestRecord] at h
  rcases List.eq_nil_or_concat (auditTail (earlier ++ [last])).records with hnil | ⟨init, end_, hcat⟩
  · rw [hnil] at h
    cases h
  · rw [List.concat_eq_append] at hcat
    rw [hcat, ← List.append_assoc] at hsuffix
    obtain ⟨-, hend⟩ := List.append_inj' hsuffix rfl
    cases hend
    rw [hcat, List.reverse_append, List.reverse_singleton, List.singleton_append,
      List.find?_cons_of_pos (by rw [hlast, beq_self_eq_true])] at h
    exact (Option.some.inj h).symm

/-! ## Settling what was left -/

/-- How an attempt settles the files it finds, and what it writes for it. -/
inductive AttemptSettles (host : CouncilHost) (scope : CouncilScope) (files : CouncilFiles)
    (call : CouncilCall host) : StateSnapshot → List CouncilWrite → Prop where
  | lost {tail : AuditTail} {recovered : Option StateSnapshot} {state : StateSnapshot}
      (hstate : files.state = none) (htail : tail = auditTail files.audit)
      (hrecovered : recoverAuditHistory tail scope.scope.identityDigest = .ok recovered)
      (hsettled : recoveredState scope tail recovered = .ok state) :
      AttemptSettles host scope files call state [.state state.toState]
  | idle {state : CouncilRoundState} (hstate : files.state = some state)
      (hpending : state.pending = none) : AttemptSettles host scope files call state.toStateSnapshot []
  | terminal {state : CouncilRoundState} {pending : PendingAttempt} {latest : AttemptRecord}
      {next : StateSnapshot} (hstate : files.state = some state)
      (hpending : state.pending = some pending)
      (hlatest : latestRecord (auditTail files.audit).records pending.attemptId = some latest)
      (hnext : terminalState latest = some next) :
      AttemptSettles host scope files call next [.state next.toState]
  | interrupted {state : CouncilRoundState} {pending : PendingAttempt} {latest : AttemptRecord}
      (hstate : files.state = some state) (hpending : state.pending = some pending)
      (hlatest : latestRecord (auditTail files.audit).records pending.attemptId = some latest)
      (hopen : terminalState latest = none) :
      AttemptSettles host scope files call
        (settledBy (foundCommitted call.input pending) state.toStateSnapshot pending)
        [.audit (recoveredRecord host scope call state.toStateSnapshot pending),
          .state (settledBy (foundCommitted call.input pending) state.toStateSnapshot
            pending).toState]

theorem parseState_eq_ok {state parsed : CouncilRoundState} {identityDigest : JsString}
    (h : parseState state identityDigest = .ok parsed) : parsed = state := by
  rw [parseState] at h
  split at h
  · cases h
  split at h
  · cases h
  split at h
  · cases h
  cases h
  rfl

theorem settles_of_settledState {files : CouncilFiles} {call : CouncilCall host}
    {settled : StateSnapshot} {writes : List CouncilWrite}
    (h : settledState host scope files call = .ok (settled, writes)) :
    AttemptSettles host scope files call settled writes := by
  obtain ⟨loaded, hloaded, hrest⟩ := bind_eq_ok.mp h
  obtain ⟨recovered, hrecovered, hresult⟩ := bind_eq_ok.mp hrest
  cases hresult
  cases hstate : files.state with
  | none =>
    simp only [loadState, hstate] at hloaded
    obtain ⟨tail, htail, hrest⟩ := bind_eq_ok.mp hloaded
    obtain ⟨found, hfound, hrest⟩ := bind_eq_ok.mp hrest
    obtain ⟨state, hsettled, hresult⟩ := bind_eq_ok.mp hrest
    cases hresult
    cases hrecovered
    exact .lost hstate (readAuditTail_eq_ok htail) hfound hsettled
  | some state =>
    simp only [loadState, hstate] at hloaded
    obtain ⟨parsed, hparsed, hresult⟩ := bind_eq_ok.mp hloaded
    cases hresult
    cases parseState_eq_ok hparsed
    cases hpending : state.pending with
    | none =>
      simp only [recoverPending, hpending] at hrecovered
      cases hrecovered
      exact .idle hstate hpending
    | some pending =>
      simp only [recoverPending, hpending] at hrecovered
      obtain ⟨tail, htail, hsettled⟩ := bind_eq_ok.mp hrecovered
      cases readAuditTail_eq_ok htail
      rw [settlePending] at hsettled
      cases hlatest : latestRecord (auditTail files.audit).records pending.attemptId with
      | none =>
        simp only [hlatest] at hsettled
        cases hsettled
      | some latest =>
        simp only [hlatest] at hsettled
        cases hnext : terminalState latest with
        | none =>
          simp only [hnext] at hsettled
          cases hsettled
          exact .interrupted hstate hpending hlatest hnext
        | some next =>
          simp only [hnext] at hsettled
          split at hsettled
          · cases hsettled
            exact .terminal hstate hpending hlatest hnext
          · cases hsettled

/-! ## The writes behind the received record -/

/-- Every list of writes an attempt may decide on. -/
inductive Decides (host : CouncilHost) (scope : CouncilScope) (call : CouncilCall host)
    (state : StateSnapshot) : List CouncilWrite → Prop where
  | stays {disposition : JsString} (hdisposition : isDisposition disposition = true)
      (hclosed : state.status = .closed → isClosedDisposition disposition = true) :
      Decides host scope call state
        [.audit (stayingRecord host scope call state disposition), .state (call.stayed state)]
  | staysUnwritten {disposition : JsString} (hdisposition : isDisposition disposition = true)
      (hopened : state.status = .opened) :
      Decides host scope call state [.audit (stayingRecord host scope call state disposition)]
  | evaluated {evaluation : CouncilAttemptEvaluation} {evidence : List CouncilWrite}
      (hopened : state.status = .opened)
      (hevidence : ∀ write ∈ evidence, write = .evidence call.attemptId) :
      Decides host scope call state
        (.state ⟨snapshot state, some (call.pending state evaluation)⟩
          :: (evidence ++ [.audit (finalizedRecord host scope call state evaluation),
            .state (call.next state evaluation).toState]))

theorem decides_decidedWrites (call : CouncilCall host) (state : StateSnapshot) :
    Decides host scope call state (decidedWrites host scope call state).1 := by
  rw [decidedWrites]
  split
  · exact .stays (by decide) fun _ => by decide
  by_cases hclosed : state.status = .closed
  · rw [if_pos hclosed]
    -- both refusals of a closed scope keep it closed
    split
    · exact .stays (by decide) fun _ => by decide
    · exact .stays (by decide) fun _ => by decide
  · rw [if_neg hclosed]
    have hopened : state.status = .opened := by
      cases hstatus : state.status with
      | opened => rfl
      | closed => exact absurd hstatus hclosed
    rw [evaluatedWrites]
    split
    · split
      · exact .staysUnwritten (by decide) hopened
      · exact .stays (by decide) fun hstatus => absurd hstatus hclosed
    · refine .evaluated hopened ?_
      intro write hwrite
      split at hwrite
      · exact List.mem_singleton.mp hwrite
      · cases hwrite

end OpencodeSwarm
