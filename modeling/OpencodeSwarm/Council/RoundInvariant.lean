/-
  OpencodeSwarm.Council.RoundInvariant

  The files at every cut of an attempt, and the invariant every cut keeps: a
  pending attempt is the last of the audit, and its latest record is either its
  received record or one that its state accepts.
-/
import OpencodeSwarm.Council.AttemptFacts

namespace OpencodeSwarm

open Js Crash

variable {host : CouncilHost} {scope : CouncilScope}

/-! ## Authority -/

/-- What a state says of its scope. -/
structure RoundAuthority where
  round : Int
  status : CouncilStatus
  exhausted : Bool
  deriving DecidableEq

def StateSnapshot.authority (state : StateSnapshot) : RoundAuthority :=
  ⟨state.currentRound, state.status, state.maxRoundsExhausted⟩

/-- The authority of the files: that of the state file, or of a fresh scope. -/
def filesAuthority (scope : CouncilScope) (files : CouncilFiles) : RoundAuthority :=
  match files.state with
  | some state => state.authority
  | none => (initialState scope.scope.identityDigest).authority

/-- Rounds do not go back, nor beyond the last, and what is closed stays closed. -/
structure Forward (before after : RoundAuthority) : Prop where
  round : before.round ≤ after.round
  bounded : after.round ≤ maxRound
  closed : before.status = .closed → after.status = .closed

theorem Forward.trans {a b c : RoundAuthority} (hab : Forward a b) (hbc : Forward b c) :
    Forward a c :=
  ⟨hab.round.trans hbc.round, hbc.bounded, fun h => hbc.closed (hab.closed h)⟩

theorem Forward.refl {state : StateSnapshot} (h : isSnapshot state = true) :
    Forward state.authority state.authority :=
  ⟨le_refl _, (isRound_iff.mp (isSnapshot_iff.mp h).2.2.1).2, id⟩

theorem authority_stayingState (state : StateSnapshot) (attemptId digest : JsString) :
    (stayingState state attemptId digest).authority = state.authority := rfl

theorem Forward.settledBy {state : StateSnapshot} {pending : PendingAttempt}
    (hstate : isSnapshot state = true) (h : isPending state pending = true) (found : Bool) :
    Forward state.authority (settledBy found state pending).authority := by
  cases found with
  | false => exact Forward.refl hstate
  | true =>
    obtain ⟨-, -, -, hnext, -, -, -, -, -, hparent⟩ := isPending_iff.mp h
    have hopened := (pendingMatchesParent_parent hparent).1
    have hbounded := (isRound_iff.mp (isSnapshot_iff.mp hnext).2.2.1).2
    refine ⟨?_, hbounded, fun hclosed => ?_⟩
    · show state.currentRound ≤ pending.nextState.currentRound
      simp only [pendingMatchesParent, Bool.and_eq_true, beq_iff_eq] at hparent
      have hround := hparent.2
      cases htransition : pending.transition with
      | stay | close =>
        simp only [htransition, Bool.and_eq_true, beq_iff_eq] at hround
        omega
      | advance =>
        simp only [htransition, Bool.and_eq_true, Bool.or_eq_true, beq_iff_eq] at hround
        omega
    · change state.status = .closed at hclosed
      rw [hopened] at hclosed
      cases hclosed

theorem Forward.next {call : CouncilCall host} {state : StateSnapshot}
    (hstate : isSnapshot state = true) (hopened : state.status = .opened)
    (evaluation : CouncilAttemptEvaluation) :
    Forward state.authority (call.next state evaluation).authority :=
  Forward.settledBy hstate (@isPending_pending _ call _ hstate hopened evaluation) true

/-! ## The cuts of an attempt -/

/-- The records among the writes. -/
def auditedRecords (writes : List CouncilWrite) : List AttemptRecord :=
  writes.filterMap fun write =>
    match write with
    | .audit record => some record
    | _ => none

@[simp] theorem auditedRecords_audit (record : AttemptRecord) (writes : List CouncilWrite) :
    auditedRecords (.audit record :: writes) = record :: auditedRecords writes := rfl

@[simp] theorem auditedRecords_state (state : CouncilRoundState) (writes : List CouncilWrite) :
    auditedRecords (.state state :: writes) = auditedRecords writes := rfl

theorem auditedRecords_append (writes later : List CouncilWrite) :
    auditedRecords (writes ++ later) = auditedRecords writes ++ auditedRecords later :=
  List.filterMap_append

/-- The state the finalized record of an attempt ends in. -/
def finalState (state : StateSnapshot) (decided : List CouncilWrite) : StateSnapshot :=
  ((auditedRecords decided).findSome? terminalState).getD state

/-- The files behind the received record of an attempt that started from `state`;
    `begun` says whether more than that record is written. -/
inductive AttemptStage (host : CouncilHost) (scope : CouncilScope) (call : CouncilCall host)
    (state : StateSnapshot) (audit : List AttemptRecord) (final : StateSnapshot) :
    Bool → CouncilFiles → Prop where
  | received {files : CouncilFiles} (hstate : files.state = some state.toState)
      (haudit : files.audit = audit ++ [receivedRecord host scope call state]) :
      AttemptStage host scope call state audit final false files
  | stayed {files : CouncilFiles} {disposition : JsString} {kept : StateSnapshot}
      (hstate : files.state = some kept.toState)
      (hkept : kept = state ∨ kept = stayingState state call.attemptId (call.digest state))
      (haudit : files.audit = audit ++ [receivedRecord host scope call state]
        ++ [stayingRecord host scope call state disposition])
      (hfinal : final = stayingState state call.attemptId (call.digest state)) :
      AttemptStage host scope call state audit final true files
  | pending {files : CouncilFiles} {evaluation : CouncilAttemptEvaluation}
      (hopened : state.status = .opened)
      (hstate : files.state = some ⟨snapshot state, some (call.pending state evaluation)⟩)
      (haudit : files.audit = audit ++ [receivedRecord host scope call state])
      (hfinal : final = call.next state evaluation) :
      AttemptStage host scope call state audit final true files
  | finalized {files : CouncilFiles} {evaluation : CouncilAttemptEvaluation}
      (hopened : state.status = .opened)
      (hstate : files.state = some ⟨snapshot state, some (call.pending state evaluation)⟩)
      (haudit : files.audit = audit ++ [receivedRecord host scope call state]
        ++ [finalizedRecord host scope call state evaluation])
      (hfinal : final = call.next state evaluation) :
      AttemptStage host scope call state audit final true files
  | completed {files : CouncilFiles} {evaluation : CouncilAttemptEvaluation}
      (hopened : state.status = .opened)
      (hstate : files.state = some (call.next state evaluation).toState)
      (haudit : files.audit = audit ++ [receivedRecord host scope call state]
        ++ [finalizedRecord host scope call state evaluation])
      (hfinal : final = call.next state evaluation) :
      AttemptStage host scope call state audit final true files

variable {attemptId : JsString} {evidence : List CouncilWrite}

theorem auditedRecords_evidence (h : ∀ write ∈ evidence, write = .evidence attemptId) :
    auditedRecords evidence = [] := by
  rw [auditedRecords, List.filterMap_eq_nil_iff]
  intro write hwrite
  rw [h write hwrite]

/-- Commits of evidence leave the state and the audit alone, wherever they stop. -/
theorem atEveryCut_evidence (h : ∀ write ∈ evidence, write = .evidence attemptId)
    (files : CouncilFiles) : AtEveryCut CouncilFiles.write
      (fun cut => cut.state = files.state ∧ cut.audit = files.audit) files evidence := by
  induction evidence generalizing files with
  | nil => exact atEveryCut_nil.mpr ⟨rfl, rfl⟩
  | cons write rest ih =>
    rw [atEveryCut_cons]
    refine ⟨⟨rfl, rfl⟩, ?_⟩
    have hrest := ih (fun other hother => h other (List.mem_cons_of_mem _ hother))
      (files.write write)
    rw [h write List.mem_cons_self] at hrest ⊢
    exact hrest

variable {audit : List AttemptRecord}

/-- The cuts behind the first write that follows the received record. -/
theorem atEveryCut_decided {call : CouncilCall host} {state : StateSnapshot} {files : CouncilFiles}
    {decided : List CouncilWrite} (hstate : files.state = some state.toState)
    (haudit : files.audit = audit ++ [receivedRecord host scope call state])
    (h : Decides host scope call state decided) :
    ∃ first rest, decided = first :: rest ∧ AtEveryCut CouncilFiles.write
      (AttemptStage host scope call state audit (finalState state decided) true)
      (files.write first) rest := by
  have hwritten (record : AttemptRecord) (cut : CouncilFiles) (hcut : cut.audit = files.audit) :
      cut.audit ++ [record] = audit ++ [receivedRecord host scope call state] ++ [record] := by
    rw [hcut, haudit]
  cases h with
  | @stays disposition hdisposition hclosed =>
    refine ⟨_, _, rfl, ?_⟩
    rw [atEveryCut_cons, atEveryCut_nil]
    refine ⟨?_, ?_⟩
    · exact .stayed hstate (.inl rfl)
        (hwritten (stayingRecord host scope call state disposition) files rfl) rfl
    · exact .stayed rfl (.inr rfl)
        (hwritten (stayingRecord host scope call state disposition) files rfl) rfl
  | @staysUnwritten disposition hdisposition hopened =>
    refine ⟨_, _, rfl, ?_⟩
    rw [atEveryCut_nil]
    exact .stayed hstate (.inl rfl)
      (hwritten (stayingRecord host scope call state disposition) files rfl) rfl
  | @evaluated evaluation evidence hopened hevidence =>
    have hfinal : finalState state (.state ⟨snapshot state, some (call.pending state evaluation)⟩
        :: (evidence ++ [.audit (finalizedRecord host scope call state evaluation),
          .state (call.next state evaluation).toState])) = call.next state evaluation := by
      rw [finalState, auditedRecords_state, auditedRecords_append,
        auditedRecords_evidence hevidence]
      rfl
    have hcommits := atEveryCut_evidence hevidence
      (files.write (.state ⟨snapshot state, some (call.pending state evaluation)⟩))
    obtain ⟨hlastState, hlastAudit⟩ := hcommits.complete
    refine ⟨_, _, rfl, ?_⟩
    rw [atEveryCut_append, atEveryCut_cons, atEveryCut_cons, atEveryCut_nil]
    refine ⟨?_, ?_, ?_, ?_⟩
    · refine hcommits.mono fun cut hcut => ?_
      exact .pending hopened hcut.1 (hcut.2.trans haudit) hfinal
    · exact .pending hopened hlastState (hlastAudit.trans haudit) hfinal
    · exact .finalized hopened hlastState (hwritten _ _ hlastAudit) hfinal
    · exact .completed hopened rfl (hwritten _ _ hlastAudit) hfinal

theorem attemptStage_cut {call : CouncilCall host} {state : StateSnapshot}
    {audit : List AttemptRecord} {files : CouncilFiles} {decided : List CouncilWrite}
    (hstate : files.state = some state.toState)
    (haudit : files.audit = audit ++ [receivedRecord host scope call state])
    (h : Decides host scope call state decided) (made : Nat) :
    AttemptStage host scope call state audit (finalState state decided) (decide (0 < made))
      ((decided.take made).foldl CouncilFiles.write files) := by
  obtain ⟨first, rest, hdecided, hcuts⟩ := atEveryCut_decided hstate haudit h
  cases made with
  | zero => exact .received hstate haudit
  | succ made =>
    have hcut := hcuts made
    have htake : decided.take (made + 1) = first :: rest.take made := by
      rw [hdecided, List.take_succ_cons]
    have hbegun : decide (0 < made + 1) = true := decide_eq_true (Nat.succ_pos made)
    rw [htake, List.foldl_cons, hbegun]
    exact hcut

/-! ## The invariant -/

/-- A terminal record by which the pending transition took effect. -/
def tookEffect (record : AttemptRecord) : Bool :=
  record.event == .finalized || record.disposition == js "pending_evidence_recovered"

/-- The latest record of a pending attempt. -/
inductive PendingRecord (state : StateSnapshot) (pending : PendingAttempt)
    (latest : AttemptRecord) : Prop where
  | received (hopen : terminalState latest = none)
  | terminal (hmatches : pendingTerminalMatches state pending latest = true)
      (hnext : terminalState latest = some (settledBy (tookEffect latest) state pending))

/-- What the two files of a scope have in common in every state. -/
structure CouncilInvariant (scope : CouncilScope) (files : CouncilFiles) : Prop where
  absent : files.state = none → files.audit = []
  snapshot : ∀ state, files.state = some state →
    isSnapshot state.toStateSnapshot = true
      ∧ state.identityDigest = scope.scope.identityDigest
  pending : ∀ state pending, files.state = some state → state.pending = some pending →
    isPending state.toStateSnapshot pending = true
      ∧ pending.nextState.identityDigest = scope.scope.identityDigest
      ∧ ∃ earlier latest, files.audit = earlier ++ [latest]
        ∧ latest.attemptId = pending.attemptId
        ∧ PendingRecord state.toStateSnapshot pending latest

/-- An accepted state of the scope. -/
structure ScopeState (scope : CouncilScope) (state : StateSnapshot) : Prop where
  accepted : isSnapshot state = true
  identity : state.identityDigest = scope.scope.identityDigest

theorem ScopeState.stayingState {state : StateSnapshot} {attemptId digest : JsString}
    (h : ScopeState scope state) (hid : isUuid attemptId = true)
    (hdigest : isDigest digest = true) : ScopeState scope (stayingState state attemptId digest) :=
  ⟨isSnapshot_stayingState h.accepted hid hdigest, h.identity⟩

theorem ScopeState.next {call : CouncilCall host} {state : StateSnapshot}
    (h : ScopeState scope state) (evaluation : CouncilAttemptEvaluation) :
    ScopeState scope (call.next state evaluation) := by
  refine ⟨isSnapshot_transitionState h.accepted call.isUuid_attemptId (isDigest_digest call state)
    _ _, ?_⟩
  rw [← h.identity]
  simp only [CouncilCall.next, transitionState]
  split
  · rfl
  · rfl
  · split <;> rfl

theorem CouncilInvariant.of_idle {files : CouncilFiles} {state : StateSnapshot}
    (hstate : files.state = some state.toState) (h : ScopeState scope state) :
    CouncilInvariant scope files where
  absent := by
    intro hnone
    rw [hstate] at hnone
    cases hnone
  snapshot := by
    intro other hother
    rw [hstate] at hother
    cases hother
    exact ⟨h.accepted, h.identity⟩
  pending := by
    intro other pending hother hpending
    rw [hstate] at hother
    cases hother
    cases hpending

variable {pending : PendingAttempt} {latest : AttemptRecord}

theorem CouncilInvariant.of_pending {files : CouncilFiles} {state : StateSnapshot}
    {earlier : List AttemptRecord} (hstate : files.state = some ⟨state, some pending⟩)
    (h : ScopeState scope state) (hpending : isPending state pending = true)
    (hnext : pending.nextState.identityDigest = scope.scope.identityDigest)
    (haudit : files.audit = earlier ++ [latest]) (hlatest : latest.attemptId = pending.attemptId)
    (hrecord : PendingRecord state pending latest) : CouncilInvariant scope files where
  absent := by
    intro hnone
    rw [hstate] at hnone
    cases hnone
  snapshot := by
    intro other hother
    rw [hstate] at hother
    cases hother
    exact ⟨h.accepted, h.identity⟩
  pending := by
    intro other found hother hfound
    rw [hstate] at hother
    cases hother
    cases hfound
    exact ⟨hpending, hnext, earlier, latest, haudit, hlatest, hrecord⟩

theorem ScopeState.settledBy {state : StateSnapshot} {pending : PendingAttempt}
    (h : ScopeState scope state) (hpending : isPending state pending = true)
    (hnext : pending.nextState.identityDigest = scope.scope.identityDigest) (found : Bool) :
    ScopeState scope (settledBy found state pending) := by
  refine ⟨isSnapshot_settledBy h.accepted hpending found, ?_⟩
  cases found with
  | true => exact hnext
  | false => exact h.identity

variable {final : StateSnapshot} {begun : Bool}

theorem AttemptStage.invariant {call : CouncilCall host} {state : StateSnapshot}
    {files : CouncilFiles} (h : ScopeState scope state)
    (hstage : AttemptStage host scope call state audit final begun files) :
    CouncilInvariant scope files := by
  have hcopy : snapshot state = state := snapshot_eq_self h.accepted
  cases hstage with
  | received hstate haudit => exact .of_idle hstate h
  | stayed hstate hkept haudit hfinal =>
    rcases hkept with rfl | rfl
    · exact .of_idle hstate h
    · exact .of_idle hstate (h.stayingState call.isUuid_attemptId (isDigest_digest call state))
  | @pending _ evaluation hopened hstate haudit hfinal =>
    rw [hcopy] at hstate
    exact .of_pending hstate h (isPending_pending h.accepted hopened evaluation)
      (h.next evaluation).identity haudit rfl (.received rfl)
  | @finalized _ evaluation hopened hstate haudit hfinal =>
    rw [hcopy] at hstate
    exact .of_pending hstate h (isPending_pending h.accepted hopened evaluation)
      (h.next evaluation).identity haudit rfl
      (.terminal (pendingTerminalMatches_finalizedRecord evaluation) rfl)
  | completed hopened hstate haudit hfinal => exact .of_idle hstate (h.next _)

theorem AttemptStage.forward {call : CouncilCall host} {state : StateSnapshot}
    {files : CouncilFiles} (h : ScopeState scope state)
    (hstage : AttemptStage host scope call state audit final begun files) :
    Forward state.authority (filesAuthority scope files) := by
  have hcopy : snapshot state = state := snapshot_eq_self h.accepted
  cases hstage with
  | received hstate haudit =>
    rw [filesAuthority, hstate]
    exact Forward.refl h.accepted
  | stayed hstate hkept haudit hfinal =>
    rw [filesAuthority, hstate]
    rcases hkept with rfl | rfl
    · exact Forward.refl h.accepted
    · exact Forward.refl h.accepted
  | pending hopened hstate haudit hfinal | finalized hopened hstate haudit hfinal =>
    rw [filesAuthority, hstate, hcopy]
    exact Forward.refl h.accepted
  | completed hopened hstate haudit hfinal =>
    rw [filesAuthority, hstate]
    exact Forward.next h.accepted hopened _

/-! ## Settling keeps it -/

theorem recoverAuditHistory_nil (identityDigest : JsString) :
    recoverAuditHistory (auditTail []) identityDigest = .ok (some (initialState identityDigest)) :=
  rfl

theorem scopeState_initialState (scope : CouncilScope) :
    ScopeState scope (initialState scope.scope.identityDigest) :=
  ⟨isSnapshot_initialState scope, rfl⟩

variable {files : CouncilFiles} {call : CouncilCall host} {settled : StateSnapshot}
  {writes : List CouncilWrite}

/-- A terminal record is the last of the audit, and says whether it took effect. -/
theorem CouncilInvariant.next_of_terminal (hinv : CouncilInvariant scope files)
    {state : CouncilRoundState} (hstate : files.state = some state)
    (hpending : state.pending = some pending)
    (hlatest : latestRecord (auditTail files.audit).records pending.attemptId = some latest)
    {next : StateSnapshot} (hnext : terminalState latest = some next) :
    next = OpencodeSwarm.settledBy (tookEffect latest) state.toStateSnapshot pending := by
  obtain ⟨-, -, earlier, last, haudit, hid, hrecord⟩ := hinv.pending state pending hstate hpending
  rw [haudit] at hlatest
  cases latestRecord_eq_last hid hlatest
  cases hrecord with
  | received hopen =>
    rw [hopen] at hnext
    cases hnext
  | terminal hmatches hterminal =>
    rw [hterminal] at hnext
    exact (Option.some.inj hnext).symm

theorem CouncilInvariant.scopeState (hinv : CouncilInvariant scope files)
    {state : CouncilRoundState} (hstate : files.state = some state) :
    ScopeState scope state.toStateSnapshot :=
  ⟨(hinv.snapshot state hstate).1, (hinv.snapshot state hstate).2⟩

theorem CouncilInvariant.forward_self (hinv : CouncilInvariant scope files) :
    Forward (filesAuthority scope files) (filesAuthority scope files) := by
  cases hstate : files.state with
  | none =>
    simp only [filesAuthority, hstate]
    exact Forward.refl (isSnapshot_initialState scope)
  | some state =>
    simp only [filesAuthority, hstate]
    exact Forward.refl (hinv.scopeState hstate).accepted

theorem CouncilInvariant.forward_settled (hinv : CouncilInvariant scope files)
    (h : AttemptSettles host scope files call settled writes) :
    ScopeState scope settled ∧ Forward (filesAuthority scope files) settled.authority := by
  cases h with
  | lost hstate htail hrecovered hsettled =>
    rw [htail, hinv.absent hstate, recoverAuditHistory_nil] at hrecovered
    cases hrecovered
    cases hsettled
    rw [filesAuthority, hstate]
    exact ⟨scopeState_initialState scope, Forward.refl (isSnapshot_initialState scope)⟩
  | idle hstate hpending =>
    rw [filesAuthority, hstate]
    exact ⟨hinv.scopeState hstate, Forward.refl (hinv.scopeState hstate).accepted⟩
  | terminal hstate hpending hlatest hnext =>
    obtain ⟨haccepted, hidentity, -⟩ := hinv.pending _ _ hstate hpending
    rw [filesAuthority, hstate, hinv.next_of_terminal hstate hpending hlatest hnext]
    exact ⟨(hinv.scopeState hstate).settledBy haccepted hidentity _,
      Forward.settledBy (hinv.scopeState hstate).accepted haccepted _⟩
  | interrupted hstate hpending hlatest hopen =>
    obtain ⟨haccepted, hidentity, -⟩ := hinv.pending _ _ hstate hpending
    rw [filesAuthority, hstate]
    exact ⟨(hinv.scopeState hstate).settledBy haccepted hidentity _,
      Forward.settledBy (hinv.scopeState hstate).accepted haccepted _⟩

/-- Behind the writes that settle, the state file holds the settled state. -/
theorem AttemptSettles.state (h : AttemptSettles host scope files call settled writes) :
    (writes.foldl CouncilFiles.write files).state = some settled.toState := by
  cases h with
  | lost hstate htail hrecovered hsettled => rfl
  | @idle state hstate hpending =>
    obtain ⟨state, pending⟩ := state
    cases hpending
    exact hstate
  | terminal hstate hpending hlatest hnext => rfl
  | interrupted hstate hpending hlatest hopen => rfl

theorem pendingRecord_recoveredRecord (state : StateSnapshot) (pending : PendingAttempt) :
    PendingRecord state pending (recoveredRecord host scope call state pending) := by
  refine .terminal pendingTerminalMatches_recoveredRecord ?_
  cases hfound : foundCommitted call.input pending with
  | true =>
    have htext : (js "pending_evidence_recovered").take 80 = js "pending_evidence_recovered" := by
      decide
    simp [terminalState, recoveredRecord, baseRecord, hfound, tookEffect, htext, settledBy]
  | false =>
    have htook : tookEffect (recoveredRecord host scope call state pending) = false := by
      simp only [tookEffect, recoveredRecord, baseRecord, hfound, Bool.false_eq_true, if_false]
      decide
    rw [htook]
    simp [terminalState, recoveredRecord, baseRecord, hfound, settledBy]

theorem CouncilInvariant.atEveryCut_settles (hinv : CouncilInvariant scope files)
    (h : AttemptSettles host scope files call settled writes) :
    AtEveryCut CouncilFiles.write (fun cut => CouncilInvariant scope cut
        ∧ Forward (filesAuthority scope files) (filesAuthority scope cut)) files writes := by
  obtain ⟨hsettled, hforward⟩ := hinv.forward_settled h
  have hend := h.state
  have hlast : CouncilInvariant scope (writes.foldl CouncilFiles.write files)
      ∧ Forward (filesAuthority scope files)
        (filesAuthority scope (writes.foldl CouncilFiles.write files)) := by
    have hauthority : filesAuthority scope (writes.foldl CouncilFiles.write files)
        = settled.authority := by
      rw [filesAuthority, hend]
      rfl
    rw [hauthority]
    exact ⟨.of_idle hend hsettled, hforward⟩
  have hstart := hinv.forward_self
  cases h with
  | lost hstate htail hrecovered hread | terminal hstate hpending hlatest hnext =>
    rw [atEveryCut_cons, atEveryCut_nil]
    exact ⟨⟨hinv, hstart⟩, hlast⟩
  | idle hstate hpending => exact atEveryCut_nil.mpr ⟨hinv, hstart⟩
  | @interrupted state pending latest hstate hpending hlatest hopen =>
    rw [atEveryCut_cons, atEveryCut_cons, atEveryCut_nil]
    obtain ⟨haccepted, hidentity, -⟩ := hinv.pending _ _ hstate hpending
    refine ⟨⟨hinv, hstart⟩, ⟨?_, hstart⟩, hlast⟩
    obtain ⟨parent, found⟩ := state
    cases hpending
    exact .of_pending hstate (hinv.scopeState hstate) haccepted hidentity rfl rfl
      (pendingRecord_recoveredRecord parent pending)

/-! ## A whole attempt -/

variable {reply : CouncilReply}

theorem runCouncilAttempt_eq_ok (h : runCouncilAttempt host scope files call = .ok (writes, reply)) :
    ∃ settled recovery, AttemptSettles host scope files call settled recovery
      ∧ writes = recovery ++ .audit (receivedRecord host scope call settled)
        :: (decidedWrites host scope call settled).1 := by
  obtain ⟨⟨settled, recovery⟩, hsettled, hresult⟩ := Outcome.bind_eq_ok.mp h
  cases hresult
  exact ⟨settled, recovery, settles_of_settledState hsettled, rfl⟩

theorem CouncilInvariant.atEveryCut (hinv : CouncilInvariant scope files)
    (h : runCouncilAttempt host scope files call = .ok (writes, reply)) :
    AtEveryCut CouncilFiles.write (fun cut => CouncilInvariant scope cut
        ∧ Forward (filesAuthority scope files) (filesAuthority scope cut)) files writes := by
  obtain ⟨settled, recovery, hsettles, rfl⟩ := runCouncilAttempt_eq_ok h
  obtain ⟨hstate, hforward⟩ := hinv.forward_settled hsettles
  have hend := hsettles.state
  rw [atEveryCut_append, atEveryCut_cons]
  refine ⟨hinv.atEveryCut_settles hsettles, (hinv.atEveryCut_settles hsettles).complete, ?_⟩
  intro made
  have hstage := @attemptStage_cut host scope call settled _
    ((recovery.foldl CouncilFiles.write files).write
      (.audit (receivedRecord host scope call settled))) _ hend rfl
    (decides_decidedWrites call settled) made
  exact ⟨hstage.invariant hstate, hforward.trans (hstage.forward hstate)⟩

theorem cut_of_atEveryCut {property : CouncilFiles → Prop}
    (h : AtEveryCut CouncilFiles.write property files writes) :
    property ((call.cut writes).foldl CouncilFiles.write files) := by
  rw [CouncilCall.cut]
  split
  · exact h.complete
  · exact h _

theorem CouncilInvariant.step (hinv : CouncilInvariant scope files) (call : CouncilCall host) :
    CouncilInvariant scope (councilStep host scope files call)
      ∧ Forward (filesAuthority scope files)
        (filesAuthority scope (councilStep host scope files call)) := by
  rw [councilStep]
  cases hrun : runCouncilAttempt host scope files call with
  | error message =>
    exact ⟨hinv, hinv.forward_self⟩
  | ok result => exact cut_of_atEveryCut (hinv.atEveryCut hrun)

end OpencodeSwarm
