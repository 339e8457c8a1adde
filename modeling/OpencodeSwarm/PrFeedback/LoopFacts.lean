/-
  OpencodeSwarm.PrFeedback.LoopFacts

  What the critical sections of the PR-feedback loop can do to a correlation.  A
  section writes nothing, or it puts one correlation back that follows the one it
  read in one of five ways.
-/
import OpencodeSwarm.PrFeedback.FeedbackLoop

namespace OpencodeSwarm

open Js

/-! ## Pull requests -/

/-- The session, the repository and the number that a correlation is about. -/
structure LoopPullRequest where
  sessionID : JsString
  repoFullName : JsString
  prNumber : Nat
  deriving DecidableEq

def LoopPullRequest.key (pr : LoopPullRequest) : JsString :=
  correlationKey pr.sessionID pr.repoFullName pr.prNumber

def CorrelationState.pullRequest (correlation : CorrelationState) : LoopPullRequest where
  sessionID := correlation.sessionID
  repoFullName := correlation.repoFullName
  prNumber := correlation.prNumber

/-- The pull request of an event, for a session. -/
def PrFeedbackMonitorEvent.pullRequest (event : PrFeedbackMonitorEvent) (sessionID : JsString) :
    LoopPullRequest where
  sessionID := sessionID
  repoFullName := event.repoFullName
  prNumber := event.prNumber

@[simp] theorem key_pullRequest (event : PrFeedbackMonitorEvent) (sessionID : JsString) :
    (event.pullRequest sessionID).key = eventKey sessionID event := rfl

/-- A call's first look at its correlation. -/
def LoopPullRequest.fresh (pr : LoopPullRequest) : CorrelationState :=
  newCorrelation pr.sessionID pr.repoFullName pr.prNumber

/-- The correlation of a pull request, as a call reads it. -/
def LoopState.record (state : LoopState) (pr : LoopPullRequest) : CorrelationState :=
  (state.correlations.get? pr.key).getD pr.fresh

/-! ## Moves of a correlation -/

/-- `q` is a later generation of the correlation `p`. -/
structure CorrelationState.Precedes (p q : CorrelationState) : Prop where
  pullRequest : q.pullRequest = p.pullRequest
  revision : p.revision < q.revision
  terminal : p.terminal.isSome → q.terminal.isSome

/-- A later generation with the same counter and the same digests. -/
structure CorrelationState.SameBooks (p q : CorrelationState) : Prop extends p.Precedes q where
  prActionsUsed : q.prActionsUsed = p.prActionsUsed
  processedDigests : q.processedDigests = p.processedDigests

/-- What most sections make of a correlation. -/
inductive RecordMove (p q : CorrelationState) : Prop where
  /-- Only terminal and circuit change. -/
  | kept (books : p.SameBooks q) (inFlight : q.inFlight = p.inFlight)
  /-- A reservation goes that never started. -/
  | dropped (books : p.SameBooks q) (inFlight : q.inFlight = none)
      (unstarted : ∀ r, p.inFlight = some r → r.actionStartedAt = none)

/-- The call `id` takes its own reservation back. -/
structure ClearMove (id : JsString) (p q : CorrelationState) : Prop where
  books : p.SameBooks q
  inFlight : q.inFlight = none
  own : ∀ r, p.inFlight = some r → r.workflowInstanceId = id

variable {p q : CorrelationState}

theorem CorrelationState.SameBooks.bumped (hpr : q.pullRequest = p.pullRequest)
    (hrevision : q.revision = p.revision) (hterminal : p.terminal.isSome → q.terminal.isSome)
    (hused : q.prActionsUsed = p.prActionsUsed)
    (hdigests : q.processedDigests = p.processedDigests) :
    p.SameBooks q.bumped where
  pullRequest := hpr
  revision := by
    show p.revision < q.revision + 1
    omega
  terminal := hterminal
  prActionsUsed := hused
  processedDigests := hdigests

/-! ## The lock -/

section Lock

variable {α : Type} {fault : LoopFault} {state : LoopState} {onCorrupt : Option α}
  {section_ : LoopState → Option LoopState × Option α}

theorem withLoopStateLock_cases :
    (withLoopStateLock fault state onCorrupt section_).1 = state
      ∨ ∃ next, (section_ state).1 = some next
          ∧ (withLoopStateLock fault state onCorrupt section_).1 = next.written := by
  have hnext : ((section_ state).1.map LoopState.written).getD state = state
      ∨ ∃ next, (section_ state).1 = some next
          ∧ ((section_ state).1.map LoopState.written).getD state = next.written := by
    cases hwrite : (section_ state).1 with
    | none => exact Or.inl rfl
    | some next => exact Or.inr ⟨next, rfl, rfl⟩
  cases fault with
  | none | thrown => exact hnext
  | corrupt | lost => exact Or.inl rfl

/-- An answer other than the one for a corrupt document is the section's own, and
    its write is in place. -/
theorem withLoopStateLock_answer {answer : α}
    (h : (withLoopStateLock fault state onCorrupt section_).2 = some answer)
    (hcorrupt : onCorrupt ≠ some answer) :
    (section_ state).2 = some answer ∧ (withLoopStateLock fault state onCorrupt section_).1
          = ((section_ state).1.map LoopState.written).getD state := by
  cases fault with
  | none => exact ⟨h, rfl⟩
  | corrupt => exact absurd h hcorrupt
  | lost => cases h
  | thrown => cases h

end Lock

/-! ## Copies -/

/-- `p'` is `p` up to its circuit and a terminal that may have been added. -/
structure CorrelationState.Agrees (p p' : CorrelationState) : Prop where
  pullRequest : p'.pullRequest = p.pullRequest
  revision : p'.revision = p.revision
  prActionsUsed : p'.prActionsUsed = p.prActionsUsed
  processedDigests : p'.processedDigests = p.processedDigests
  inFlight : p'.inFlight = p.inFlight
  terminal : p.terminal.isSome → p'.terminal.isSome

theorem CorrelationState.Agrees.refl (p : CorrelationState) : p.Agrees p :=
  ⟨rfl, rfl, rfl, rfl, rfl, id⟩

variable {p' : CorrelationState}

theorem CorrelationState.Agrees.sameBooks (h : p.Agrees p') (hbooks : p'.SameBooks q) :
    p.SameBooks q where
  pullRequest := hbooks.pullRequest.trans h.pullRequest
  revision := h.revision ▸ hbooks.revision
  terminal := fun hp => hbooks.terminal (h.terminal hp)
  prActionsUsed := hbooks.prActionsUsed.trans h.prActionsUsed
  processedDigests := hbooks.processedDigests.trans h.processedDigests

theorem CorrelationState.Agrees.move (h : p.Agrees p') (hmove : RecordMove p' q) :
    RecordMove p q := by
  cases hmove with
  | kept books hq => exact .kept (h.sameBooks books) (hq.trans h.inFlight)
  | dropped books hq hunstarted =>
    exact .dropped (h.sameBooks books) hq fun r hr => hunstarted r (h.inFlight.trans hr)

/-- What a call knows of a correlation: an earlier generation of it, or this one. -/
structure CorrelationState.CopyOf (copy p : CorrelationState) : Prop where
  pullRequest : copy.pullRequest = p.pullRequest
  revision : copy.revision ≤ p.revision
  agrees : copy.revision = p.revision → p.Agrees copy
  settled : copy.processedDigests ≠ [] → copy.terminal.isSome

theorem CorrelationState.CopyOf.refl (hsettled : p.processedDigests ≠ [] → p.terminal.isSome) :
    p.CopyOf p :=
  ⟨rfl, Nat.le_refl _, fun _ => .refl p, hsettled⟩

variable {copy : CorrelationState}

theorem CorrelationState.CopyOf.later (h : copy.CopyOf p) (hprecedes : p.Precedes q) :
    copy.CopyOf q where
  pullRequest := h.pullRequest.trans hprecedes.pullRequest.symm
  revision := h.revision.trans (Nat.le_of_lt hprecedes.revision)
  agrees := fun heq => absurd (heq ▸ hprecedes.revision) (Nat.not_lt.mpr h.revision)
  settled := h.settled

theorem CorrelationState.CopyOf.withTerminal (h : copy.CopyOf p) {terminal : Option LoopTerminal}
    (hterminal : copy.terminal.isSome → terminal.isSome) :
    CorrelationState.CopyOf { copy with terminal := terminal } p where
  pullRequest := h.pullRequest
  revision := h.revision
  agrees := fun heq =>
    have hagrees := h.agrees heq
    ⟨hagrees.pullRequest, hagrees.revision, hagrees.prActionsUsed, hagrees.processedDigests,
      hagrees.inFlight, fun hp => hterminal (hagrees.terminal hp)⟩
  settled := fun hdigests => hterminal (h.settled hdigests)

variable {pr : LoopPullRequest}

theorem LoopState.record_of_some {state : LoopState} {persisted : CorrelationState}
    (h : state.correlations.get? pr.key = some persisted) : state.record pr = persisted := by
  rw [LoopState.record, h]
  rfl

theorem LoopState.record_of_none {state : LoopState} (h : state.correlations.get? pr.key = none) :
    state.record pr = pr.fresh := by
  rw [LoopState.record, h]
  rfl

/-- What a section falls back on when the document has no such correlation. -/
theorem CorrelationState.CopyOf.fallback {state : LoopState} (h : copy.CopyOf (state.record pr)) :
    (state.record pr).Agrees ((state.correlations.get? pr.key).getD copy) := by
  cases hget : state.correlations.get? pr.key with
  | some persisted =>
    rw [LoopState.record_of_some hget]
    exact .refl persisted
  | none =>
    rw [LoopState.record_of_none hget] at h ⊢
    exact h.agrees (Nat.le_antisymm h.revision (Nat.zero_le _))

/-- The correlation a section works on, as its caller gets it back. -/
theorem CorrelationState.CopyOf.current {state : LoopState} (h : copy.CopyOf (state.record pr))
    (hsettled : (state.record pr).processedDigests ≠ [] → (state.record pr).terminal.isSome) :
    CopyOf ((state.correlations.get? pr.key).getD copy) (state.record pr) := by
  cases hget : state.correlations.get? pr.key with
  | some persisted =>
    rw [LoopState.record_of_some hget] at hsettled ⊢
    exact .refl hsettled
  | none => exact h

/-- A later generation with the same books is settled when the earlier one was. -/
theorem CorrelationState.SameBooks.copyOf (h : p.SameBooks q)
    (hsettled : p.processedDigests ≠ [] → p.terminal.isSome) : q.CopyOf q :=
  .refl fun hdigests => h.terminal (hsettled (h.processedDigests ▸ hdigests))

/-! ## Sections -/

/-- What `next` leaves of a document: the correlation of `pr` put back, in a move. -/
def Moves (pr : LoopPullRequest) (state next : LoopState) : Prop :=
  ∃ q, next = state.put pr.key q ∧ RecordMove (state.record pr) q

theorem underCancellation_sameBooks (durable : Option LoopTerminal) (p : CorrelationState) :
    p.SameBooks (p.underCancellation durable).bumped := by
  unfold CorrelationState.underCancellation
  cases durable with
  | none =>
    cases hterminal : p.terminal.filter fun terminal => terminal.state = .cancelled with
    | none => exact CorrelationState.SameBooks.bumped rfl rfl id rfl rfl
    | some terminal => exact CorrelationState.SameBooks.bumped rfl rfl (fun _ => rfl) rfl rfl
  | some durable => exact CorrelationState.SameBooks.bumped rfl rfl (fun _ => rfl) rfl rfl

theorem underCancellation_inFlight (durable : Option LoopTerminal) (p : CorrelationState) :
    (p.underCancellation durable).inFlight = p.inFlight ∨ (p.underCancellation durable).inFlight
          = p.inFlight.filter fun inFlight => inFlight.actionStartedAt.isSome := by
  unfold CorrelationState.underCancellation
  cases durable with
  | none =>
    cases hterminal : p.terminal.filter fun terminal => terminal.state = .cancelled with
    | none => exact Or.inl rfl
    | some terminal => exact Or.inr rfl
  | some durable => exact Or.inr rfl

/-- The cancellation inside `persistCorrelation` takes no started reservation. -/
theorem underCancellation_move (durable : Option LoopTerminal)
    (p : CorrelationState) : RecordMove p (p.underCancellation durable).bumped := by
  have hbooks := underCancellation_sameBooks durable p
  rcases underCancellation_inFlight durable p with hsame | hfilter
  · exact .kept hbooks hsame
  cases hinFlight : p.inFlight with
  | none =>
    refine .kept hbooks ?_
    show (p.underCancellation durable).inFlight = p.inFlight
    rw [hfilter, hinFlight]
    rfl
  | some r =>
    cases hstarted : r.actionStartedAt.isSome with
    | true =>
      refine .kept hbooks ?_
      show (p.underCancellation durable).inFlight = p.inFlight
      rw [hfilter, hinFlight, Option.filter_some, hstarted]
      rfl
    | false =>
      refine .dropped hbooks ?_ ?_
      · show (p.underCancellation durable).inFlight = none
        rw [hfilter, hinFlight, Option.filter_some, hstarted]
        rfl
      · intro other hother
        cases hinFlight.symm.trans hother
        exact Option.not_isSome_iff_eq_none.mp (by rw [hstarted]; exact Bool.false_ne_true)

variable {next : LoopState}

theorem persistCorrelation_moves {state : LoopState} (hcopy : copy.CopyOf (state.record pr))
    (h : (persistCorrelation pr.key copy state).1 = some next) : Moves pr state next := by
  unfold persistCorrelation at h
  cases hget : state.correlations.get? pr.key with
  | none =>
    simp only [hget] at h
    cases h
    refine ⟨_, rfl, ?_⟩
    have hagrees := hcopy.fallback
    rw [hget] at hagrees
    exact hagrees.move (underCancellation_move _ copy)
  | some persisted =>
    simp only [hget] at h
    split at h
    · cases h
    rename_i hrevision
    cases h
    refine ⟨_, rfl, ?_⟩
    rw [LoopState.record_of_some hget] at hcopy ⊢
    have hsame := hcopy.agrees (not_not.mp hrevision).symm
    have hagrees : persisted.Agrees
        { persisted with terminal := copy.terminal, inFlight := copy.inFlight } :=
      ⟨rfl, rfl, rfl, rfl, hsame.inFlight, hsame.terminal⟩
    exact hagrees.move (underCancellation_move _ _)

/-- `admitHalfOpenProbe` answers what it put, or without a write what it read. -/
theorem admitHalfOpenProbe_cases {token : JsString} {isProcessAlive : Nat → Bool} {pid : Nat}
    {now : Int} {pr : LoopPullRequest} {copy : CorrelationState} {state : LoopState}
    {answer : Option LoopState × Option HalfOpenProbeAdmission}
    (hcopy : copy.CopyOf (state.record pr))
    (h : admitHalfOpenProbe isProcessAlive token pid pr.key now copy state = answer) :
    (answer.1 = none ∧ ∀ probe, answer.2 = some probe → probe.probeStarted = false
        ∧ probe.correlation = (state.correlations.get? pr.key).getD copy)
      ∨ ∃ q, RecordMove (state.record pr) q ∧ answer.1 = some (state.put pr.key q)
        ∧ ∀ probe, answer.2 = some probe → probe.probeStarted = true ∧ probe.correlation = q := by
  have hagrees := hcopy.fallback
  have hquiet : ∀ probe : HalfOpenProbeAdmission, probe.probeStarted = false →
      probe.correlation = (state.correlations.get? pr.key).getD copy →
      (none, some probe) = answer →
      answer.1 = none ∧ ∀ probe, answer.2 = some probe → probe.probeStarted = false
        ∧ probe.correlation = (state.correlations.get? pr.key).getD copy := by
    rintro probe hstarted hcorrelation rfl
    refine ⟨rfl, fun other hother => ?_⟩
    cases hother
    exact ⟨hstarted, hcorrelation⟩
  simp only [admitHalfOpenProbe] at h
  split at h
  · subst h
    exact Or.inl ⟨rfl, by simp⟩
  split at h
  · exact Or.inl (hquiet _ rfl rfl h)
  split at h
  · exact Or.inl (hquiet _ rfl rfl h)
  split at h
  · exact Or.inl (hquiet _ rfl rfl h)
  subst h
  refine Or.inr ⟨_, hagrees.move (.kept ?_ ?_), rfl, ?_⟩
  · exact .bumped rfl rfl (fun h => h) rfl rfl
  · rfl
  · intro probe h
    cases h
    exact ⟨rfl, rfl⟩

variable {close : LoopCircuitState → LoopCircuitState} {token : Option JsString} {pid : Option Nat}

theorem endHalfOpenProbe_moves {state : LoopState}
    (h : (endHalfOpenProbe close pr.key token pid state).1 = some next) : Moves pr state next := by
  unfold endHalfOpenProbe at h
  cases hget : state.correlations.get? pr.key with
  | none =>
    simp only [hget] at h
    cases h
  | some correlation =>
    simp only [hget] at h
    split at h
    · cases h
    cases h
    refine ⟨_, rfl, ?_⟩
    rw [LoopState.record_of_some hget]
    exact .kept (.bumped rfl rfl (fun h => h) rfl rfl) rfl

variable {id : JsString} {ownerPid : Nat}

/-- `clearExactPreStartReservation` takes the call's own reservation. -/
theorem clearExactPreStartReservation_moves {dedupToken : JsString} {expected : Option Int}
    {state : LoopState}
    (h : (clearExactPreStartReservation pr.key dedupToken id ownerPid expected state).1 = some next) :
    ∃ q, next = state.put pr.key q ∧ ClearMove id (state.record pr) q := by
  unfold clearExactPreStartReservation at h
  cases hget : state.correlations.get? pr.key with
  | none =>
    simp only [hget] at h
    cases h
  | some correlation =>
    simp only [hget] at h
    split at h
    · rename_i hexact
      cases h
      refine ⟨_, rfl, ?_⟩
      rw [LoopState.record_of_some hget]
      refine ⟨.bumped rfl rfl (fun h => h) rfl rfl, rfl, ?_⟩
      intro r hr
      simp only [ownsExactReservation, ownsReservation, hr, Option.any_some, Bool.and_eq_true,
        beq_iff_eq] at hexact
      exact hexact.1.1.1.2
    · cases h

/-- What the end of a probe answers: the correlation of the document it leaves. -/
theorem endHalfOpenProbe_answer {state : LoopState} {correlation : CorrelationState}
    (h : (endHalfOpenProbe close pr.key token pid state).2 = some (some correlation)) :
    ((endHalfOpenProbe close pr.key token pid state).1 = none ∧ correlation = state.record pr)
      ∨ (endHalfOpenProbe close pr.key token pid state).1
          = some (state.put pr.key correlation) := by
  unfold endHalfOpenProbe at h ⊢
  cases hget : state.correlations.get? pr.key with
  | none =>
    simp only [hget] at h
    cases h
  | some persisted =>
    simp only [hget] at h ⊢
    split at h
    · rename_i howned
      cases h
      rw [if_pos howned, LoopState.record_of_some hget]
      exact Or.inl ⟨rfl, rfl⟩
    · rename_i howned
      cases h
      rw [if_neg howned]
      exact Or.inr rfl

/-! ## The marker, the admission and the settlement -/

/-- The reservation is the call's, with its action started or not. -/
structure InFlightClaim.OwnedBy (r : InFlightClaim) (id : JsString) (ownerPid : Nat) : Prop where
  workflowInstanceId : r.workflowInstanceId = id
  ownerPid : r.ownerPid = ownerPid

variable {reservation : Option InFlightClaim}

theorem ownsReservation_iff {pid : Nat} : ownsReservation reservation id pid = true
      ↔ ∃ r, reservation = some r ∧ hasReservationIdentity r = true ∧ r.OwnedBy id pid := by
  cases reservation with
  | none =>
    constructor
    · intro h
      cases h
    · rintro ⟨r, hr, -⟩
      cases hr
  | some r =>
    simp only [ownsReservation, Option.any_some, Bool.and_eq_true, beq_iff_eq]
    constructor
    · rintro ⟨⟨hidentity, hid⟩, hpid⟩
      exact ⟨r, rfl, hidentity, hid, hpid⟩
    · rintro ⟨other, hother, hidentity, hid, hpid⟩
      cases hother
      exact ⟨⟨hidentity, hid⟩, hpid⟩

theorem ownsExactReservation_iff {token : JsString} {pid : Nat} :
    ownsExactReservation reservation token id pid = true
      ↔ ∃ r, reservation = some r ∧ hasReservationIdentity r = true ∧ r.OwnedBy id pid
          ∧ r.dedupToken = token := by
  rw [ownsExactReservation, Bool.and_eq_true, ownsReservation_iff]
  constructor
  · rintro ⟨⟨r, rfl, hidentity, howned⟩, htoken⟩
    exact ⟨r, rfl, hidentity, howned, beq_iff_eq.mp htoken⟩
  · rintro ⟨r, rfl, hidentity, howned, htoken⟩
    exact ⟨⟨r, rfl, hidentity, howned⟩, beq_iff_eq.mpr htoken⟩

/-- The marker of the action start, on the call's unstarted reservation. -/
structure MarkMove (id : JsString) (ownerPid : Nat) (now : Int) (p q : CorrelationState) :
    Prop where
  books : p.SameBooks q
  reservation : ∃ r, p.inFlight = some r ∧ r.OwnedBy id ownerPid ∧ r.actionStartedAt = none
    ∧ q.inFlight = some { r with actionStartedAt := some now }

/-- What `markExactReservationActionStarted` does.  A marker, be it for a moment,
    needs a session that was not cancelled. -/
inductive MarkCase (id sessionID : JsString) (pr : LoopPullRequest) (ownerPid : Nat) (now : Int)
    (state : LoopState) : Option LoopState × Option ActionStartAdmission → Prop where
  | missing : MarkCase id sessionID pr ownerPid now state (none, some .missingCorrelation)
  | blocked :
      MarkCase id sessionID pr ownerPid now state (none, some (.blocked (state.record pr)))
  | lost (q : CorrelationState) (hmove : RecordMove (state.record pr) q) :
      MarkCase id sessionID pr ownerPid now state (some (state.put pr.key q), some (.blocked q))
  | cancelled (q : CorrelationState) (hmove : RecordMove (state.record pr) q)
      (reason : JsString) :
      MarkCase id sessionID pr ownerPid now state
        (some (state.put pr.key q), some (.cancelled reason none))
  | retracted (q : CorrelationState) (hmove : RecordMove (state.record pr) q)
      (reason : JsString) (hcancel : state.cancellation sessionID = none) :
      MarkCase id sessionID pr ownerPid now state
        (some (state.put pr.key q), some (.cancelled reason (some now)))
  | started (q : CorrelationState) (hmove : MarkMove id ownerPid now (state.record pr) q)
      (hcancel : state.cancellation sessionID = none) :
      MarkCase id sessionID pr ownerPid now state
        (some (state.put pr.key q), some (.started q now))

theorem markExact_case (id sessionID dedupToken : JsString) (pr : LoopPullRequest) (ownerPid : Nat)
    (now : Int) (requested during : Option JsString) (claimHeld : Bool) (state : LoopState) :
    MarkCase id sessionID pr ownerPid now state
      (markExactReservationActionStarted now requested during claimHeld pr.key sessionID
        dedupToken id ownerPid state) := by
  unfold markExactReservationActionStarted
  cases hget : state.correlations.get? pr.key with
  | none => exact .missing
  | some correlation =>
    have hrecord := LoopState.record_of_some hget
    simp only
    cases hinFlight : correlation.inFlight with
    | none =>
      rw [← hrecord]
      exact .blocked
    | some inFlight =>
      simp only
      split
      · rw [← hrecord]
        exact .blocked
      · rename_i hexact
        simp only [Bool.or_eq_true, Bool.not_eq_true', not_or, Bool.not_eq_true,
          Bool.not_eq_false] at hexact
        obtain ⟨hexact, hunstarted⟩ := hexact
        obtain ⟨r, hr, -, howned, -⟩ := ownsExactReservation_iff.mp hexact
        cases hr
        have hnone : inFlight.actionStartedAt = none := by simpa using hunstarted
        have hexact : ∀ r, correlation.inFlight = some r → r.actionStartedAt = none := by
          intro other hother
          cases hinFlight.symm.trans hother
          exact hnone
        have hbooks : correlation.SameBooks { correlation with inFlight := none }.bumped :=
          .bumped rfl rfl (fun h => h) rfl rfl
        have hdrop : RecordMove (state.record pr)
            { correlation with inFlight := none }.bumped := by
          rw [hrecord]
          exact .dropped hbooks rfl hexact
        split
        · exact .cancelled _ hdrop _
        rename_i hreason
        have hcancel : state.cancellation sessionID = none := by
          cases hc : state.cancellation sessionID with
          | none => rfl
          | some terminal =>
            rw [hc] at hreason
            cases hreason
        split
        · exact .lost _ hdrop
        cases during with
        | some reason =>
          refine .retracted _ ?_ reason hcancel
          rw [hrecord]
          exact .dropped { hbooks with revision := Nat.lt_succ_of_lt hbooks.revision } rfl
            hexact
        | none =>
          refine .started _ ⟨?_, inFlight, ?_, howned, ?_, rfl⟩ hcancel
          · rw [hrecord]
            exact .bumped rfl rfl (fun h => h) rfl rfl
          · rw [hrecord]
            exact hinFlight
          · exact hnone

variable {isProcessAlive : Nat → Bool}

theorem reservationIsLive_of_started {r : InFlightClaim} (hstarted : r.actionStartedAt.isSome) :
    reservationIsLive isProcessAlive (some r) = true := by
  simp [reservationIsLive, hstarted]

/-- The reservation of an admitted call, in the room that the caps leave. -/
structure ReserveMove (isProcessAlive : Nat → Bool) (reservation : InFlightClaim)
    (p q : CorrelationState) : Prop where
  books : p.SameBooks q
  free : reservationIsLive isProcessAlive p.inFlight = false
  inFlight : q.inFlight = some reservation

/-- The caps leave room for one more action, with the correlation `q` still free. -/
def HasRoom (budget : LoopBudget) (isProcessAlive : Nat → Bool) (pr : LoopPullRequest)
    (state : LoopState) (p : CorrelationState) : Prop :=
  (state.put pr.key p).sessionActionsUsed pr.sessionID
      + (state.put pr.key p).liveSessionReservations isProcessAlive pr.sessionID
      < budget.maxSessionActions
    ∧ p.prActionsUsed < budget.maxActionsPerPr

/-- What the final admission does. -/
inductive AdmitCase (budget : LoopBudget) (isProcessAlive : Nat → Bool) (pr : LoopPullRequest)
    (reservation : InFlightClaim) (copy : CorrelationState) (state : LoopState) :
    Option LoopState × Option FinalAdmission → Prop where
  | cancelled (reason : JsString) :
      AdmitCase budget isProcessAlive pr reservation copy state (none, some (.cancelled reason))
  | claimLost :
      AdmitCase budget isProcessAlive pr reservation copy state
        (none, some (.claimLost ((state.correlations.get? pr.key).getD copy)))
  | retryable : AdmitCase budget isProcessAlive pr reservation copy state (none, some .retryable)
  | admitted (free q : CorrelationState)
      (hfree : free.inFlight = none ∧ free.prActionsUsed = (state.record pr).prActionsUsed
        ∧ free.pullRequest = (state.record pr).pullRequest)
      (hroom : HasRoom budget isProcessAlive pr state free)
      (hmove : ReserveMove isProcessAlive reservation (state.record pr) q)
      (hcancel : state.cancellation pr.sessionID = none) :
      AdmitCase budget isProcessAlive pr reservation copy state
        (some (state.put pr.key q), some (.admitted q))

/-- What dropping a lost reservation keeps. -/
structure RecoveredFacts (p q : CorrelationState) : Prop where
  inFlight : q.inFlight = none
  pullRequest : q.pullRequest = p.pullRequest
  revision : p.revision ≤ q.revision
  terminal : p.terminal.isSome → q.terminal.isSome
  prActionsUsed : q.prActionsUsed = p.prActionsUsed
  processedDigests : q.processedDigests = p.processedDigests

theorem recovered_facts (p : CorrelationState) : RecoveredFacts p p.recovered := by
  unfold CorrelationState.recovered
  split
  · exact ⟨rfl, rfl, Nat.le_succ _, fun h => h, rfl, rfl⟩
  rename_i hnone
  exact ⟨Option.not_isSome_iff_eq_none.mp hnone, rfl, Nat.le_refl _, fun h => h, rfl, rfl⟩

theorem admitFinally_case {budget : LoopBudget} {requested : Option JsString} {claimHeld : Bool}
    {reservation : InFlightClaim} {state : LoopState} (hcopy : copy.CopyOf (state.record pr)) :
    AdmitCase budget isProcessAlive pr reservation copy state
      (admitFinally budget isProcessAlive requested claimHeld pr.key pr.sessionID
        pr.repoFullName pr.prNumber reservation copy state) := by
  have hagrees := hcopy.fallback
  simp only [admitFinally]
  split
  · exact .retryable
  split
  · exact .cancelled _
  rename_i hreason
  have hcancel : state.cancellation pr.sessionID = none := by
    cases hc : state.cancellation pr.sessionID with
    | none => rfl
    | some terminal =>
      rw [hc] at hreason
      cases hreason
  split
  · exact .claimLost
  split
  · exact .retryable
  rename_i hlive
  split
  · exact .retryable
  rename_i hroom
  rw [not_or, Nat.not_le, Nat.not_le] at hroom
  have hfree := recovered_facts ((state.correlations.get? pr.key).getD copy)
  refine .admitted _ _ ⟨hfree.inFlight, ?_, ?_⟩ ⟨hroom.1, ?_⟩ ⟨?_, ?_, rfl⟩ hcancel
  · exact hfree.prActionsUsed.trans hagrees.prActionsUsed
  · exact hfree.pullRequest.trans hagrees.pullRequest
  · exact Nat.lt_of_le_of_lt (Nat.le_add_right _ _) hroom.2
  · exact hagrees.sameBooks
      { pullRequest := hfree.pullRequest
        revision := Nat.lt_succ_of_le hfree.revision
        terminal := hfree.terminal
        prActionsUsed := hfree.prActionsUsed
        processedDigests := hfree.processedDigests }
  · rw [← hagrees.inFlight]
    cases hinFlight : ((state.correlations.get? pr.key).getD copy).inFlight with
    | none => rfl
    | some r =>
      rw [hinFlight] at hlive
      simpa using hlive

/-- The settlement by the owner of the reservation. -/
structure SettleMove (id : JsString) (ownerPid : Nat) (performed : Bool) (digest : JsString)
    (p q : CorrelationState) : Prop extends p.Precedes q where
  reservation : ∃ r, p.inFlight = some r ∧ r.OwnedBy id ownerPid
  inFlight : q.inFlight = none
  prActionsUsed : q.prActionsUsed ≤ p.prActionsUsed + 1
  processedDigests : q.processedDigests =
    if performed then (p.recordProcessedDigest digest).processedDigests else p.processedDigests
  settled : q.terminal.isSome

theorem recordProcessedDigest_eq (p : CorrelationState) (digest : JsString) :
    p.recordProcessedDigest digest
      = { p with processedDigests := (p.recordProcessedDigest digest).processedDigests } := by
  unfold CorrelationState.recordProcessedDigest
  split <;> rfl

theorem processedDigests_record (p : CorrelationState) (digest : JsString) :
    (p.recordProcessedDigest digest).processedDigests =
      if digest ∈ p.processedDigests then p.processedDigests
      else (p.processedDigests ++ [digest]).drop
        ((p.processedDigests ++ [digest]).length - MAX_PROCESSED_DIGESTS) := by
  unfold CorrelationState.recordProcessedDigest
  split <;> rfl

theorem settledCorrelation_move {id digest : JsString} {ownerPid : Nat} {now : Int}
    {cancellation : Option LoopTerminal} {probe : Option (Option JsString × Option Nat)}
    {outcome : PerformOutcome} {p : CorrelationState}
    (hreservation : ∃ r, p.inFlight = some r ∧ r.OwnedBy id ownerPid) :
    SettleMove id ownerPid outcome.performed digest p
      (settledCorrelation now cancellation probe outcome digest p).bumped := by
  have hrecord := recordProcessedDigest_eq p digest
  cases cancellation with
  | some terminal =>
    cases hperformed : outcome.performed with
    | true =>
      rw [show settledCorrelation now (some terminal) probe outcome digest p
          = { { p with processedDigests := (p.recordProcessedDigest digest).processedDigests } with
            terminal := some
              { state := .cancelled, reason := reasonOr terminal.reason (js "operator cancellation") }
            circuit :=
              if probe.any fun owner => p.circuit.probeOwnedBy owner.1 owner.2 then
                clearHalfOpenProbeMarker p.circuit
              else p.circuit
            inFlight := none } from by
        simp only [settledCorrelation, hperformed, if_true]
        rw [hrecord]]
      exact ⟨⟨rfl, Nat.lt_succ_self _, fun _ => rfl⟩, hreservation, rfl, Nat.le_succ _, rfl, rfl⟩
    | false =>
      simp only [settledCorrelation, hperformed, Bool.false_eq_true, if_false]
      exact ⟨⟨rfl, Nat.lt_succ_self _, fun _ => rfl⟩, hreservation, rfl, Nat.le_succ _, rfl, rfl⟩
  | none =>
    cases hperformed : outcome.performed with
    | true =>
      simp only [settledCorrelation, hperformed, Bool.not_true, Bool.false_eq_true, if_false]
      rw [hrecord]
      exact ⟨⟨rfl, Nat.lt_succ_self _, fun _ => rfl⟩, hreservation, rfl, Nat.le_refl _, rfl, rfl⟩
    | false =>
      simp only [settledCorrelation, hperformed, Bool.not_false, if_true]
      exact ⟨⟨rfl, Nat.lt_succ_self _, fun _ => rfl⟩, hreservation, rfl, Nat.le_succ _, rfl, rfl⟩

/-- What the settlement does. -/
inductive SettleCase (id : JsString) (ownerPid : Nat) (performed : Bool) (digest : JsString)
    (pr : LoopPullRequest) (state : LoopState) : Option LoopState × Option Bool → Prop where
  | lost : SettleCase id ownerPid performed digest pr state (none, some false)
  | settled (q : CorrelationState)
      (hmove : SettleMove id ownerPid performed digest (state.record pr) q) :
      SettleCase id ownerPid performed digest pr state (some (state.put pr.key q), some true)

theorem settleAction_case {digest : JsString} {now : Int}
    {probe : Option (Option JsString × Option Nat)} {outcome : PerformOutcome} {state : LoopState}
    (hcopy : copy.CopyOf (state.record pr)) :
    SettleCase id ownerPid outcome.performed digest pr state
      (settleAction now probe outcome digest pr.key pr.sessionID id ownerPid copy state) := by
  have hagrees := hcopy.fallback
  simp only [settleAction]
  split
  · exact .lost
  rename_i howned
  rw [Bool.not_eq_true, Bool.not_eq_false'] at howned
  obtain ⟨r, hr, -, howner⟩ := ownsReservation_iff.mp howned
  have hmove := @settledCorrelation_move id digest ownerPid now
    (state.cancellation pr.sessionID) probe outcome _ ⟨r, hr, howner⟩
  refine .settled _
    { pullRequest := hmove.pullRequest.trans hagrees.pullRequest
      revision := hagrees.revision ▸ hmove.revision
      terminal := fun _ => hmove.settled
      reservation := ⟨r, hagrees.inFlight ▸ hr, howner⟩
      inFlight := hmove.inFlight
      prActionsUsed := hagrees.prActionsUsed ▸ hmove.prActionsUsed
      processedDigests := ?_
      settled := hmove.settled }
  rw [hmove.processedDigests]
  simp [processedDigests_record, hagrees.processedDigests]

end OpencodeSwarm
