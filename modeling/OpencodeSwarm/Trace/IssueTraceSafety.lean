/-
  OpencodeSwarm.Trace.IssueTraceSafety

  Runs of the issue-trace reducer under observations that may change in any way
  between two steps.  The row is selected without looking at the last
  transition, so under fixed observations a row that fired is selected again and
  stays silent.
-/
import Mathlib.Data.List.Nodup
import Mathlib.Logic.Function.Iterate
import OpencodeSwarm.Trace.IssueTrace

namespace OpencodeSwarm

open Js

/-! ## Rows -/

/-- What the selection of a row says about the observation. -/
def RowGuard (reference : Option IssueReference) (issueNumber : Nat) (status : TraceStatus)
    (artifacts : WorkflowArtifacts) : TraceTransition → Prop
  | .mergeApprovalRecorded => status = .published
  | .published => status = .publicationHandoff
  | .planToExecute => status = .inProgress
      ∧ (∃ issue, reference = some issue ∧ issue.trace = true
        ∧ artifacts.specIssueNumber = some issue.number ∧ issueNumber = issue.number)
      ∧ artifacts.specExists = true ∧ artifacts.planExists = true
      ∧ artifacts.planBoundToSpec ≠ some false ∧ artifacts.reproductionPermitted = true
      ∧ artifacts.criticApproved = true
  | .executeToCommit => status = .inProgress
      ∧ artifacts.implementationReviewVerified = true
      ∧ artifacts.recurrenceSweepVerified = true ∧ artifacts.traceValidationVerified = true
  | .other _ => False
  | _ => status = .inProgress

/-- A row does not fire after itself. -/
def TraceRow.OneShot (row : TraceRow) : Prop :=
  row.firesAfter (some row.transition) = false

variable {transition : TraceTransition}

theorem oneShot_rowAfter {earlier : List TraceTransition} {row : TraceRow}
    (hnew : transition ∉ earlier) (h : rowAfter earlier transition = some row) :
    row.OneShot ∧ row.transition = transition := by
  cases h
  exact ⟨by simpa [TraceRow.OneShot] using hnew, rfl⟩

theorem oneShot_rowUnless {later : List TraceTransition} {row : TraceRow}
    (hown : transition ∈ later) (h : rowUnless later transition = some row) :
    row.OneShot ∧ row.transition = transition := by
  cases h
  exact ⟨by simpa [TraceRow.OneShot] using hown, rfl⟩

section Rows

variable {artifacts : WorkflowArtifacts} {row : TraceRow} {reference : Option IssueReference}
  {issueNumber : Nat} {status : TraceStatus}

theorem handoffRows_spec (h : handoffRows artifacts = some row) :
    row.OneShot ∧ (row.transition = .reviewGate ∨ row.transition = .recurrenceGate
      ∨ row.transition = .traceValidationGate
      ∨ (row.transition = .executeToCommit ∧ artifacts.implementationReviewVerified = true
        ∧ artifacts.recurrenceSweepVerified = true
        ∧ artifacts.traceValidationVerified = true)) := by
  unfold handoffRows at h
  split at h
  · obtain ⟨hone, hrow⟩ := oneShot_rowUnless (by decide) h
    exact ⟨hone, Or.inl hrow⟩
  · rename_i hreview
    split at h
    · obtain ⟨hone, hrow⟩ := oneShot_rowUnless (by decide) h
      exact ⟨hone, Or.inr (Or.inl hrow)⟩
    · rename_i hsweep
      split at h
      · obtain ⟨hone, hrow⟩ := oneShot_rowUnless (by decide) h
        exact ⟨hone, Or.inr (Or.inr (Or.inl hrow))⟩
      · rename_i hvalidation
        obtain ⟨hone, hrow⟩ := oneShot_rowUnless (by decide) h
        refine ⟨hone, Or.inr (Or.inr (Or.inr ⟨hrow, ?_, ?_, ?_⟩))⟩
        · simpa using hreview
        · simpa using hsweep
        · simpa using hvalidation

variable {issue : IssueReference}

/-- The rows of a trace in progress, with a plan that matches the issue. -/
theorem executeRows_spec (hreference : reference = some issue) (htrace : issue.trace = true)
    (hspec : artifacts.specIssueNumber = some issue.number) (hissue : issueNumber = issue.number)
    (hexists : artifacts.specExists = true) (hplan : artifacts.planExists = true)
    (h : executeRows artifacts = some row) :
    row.OneShot ∧ RowGuard reference issueNumber .inProgress artifacts row.transition := by
  unfold executeRows at h
  split at h
  · obtain ⟨hone, hrow⟩ := oneShot_rowUnless (by decide) h
    exact ⟨hone, by rw [hrow]; rfl⟩
  · rename_i hbound
    split at h
    · obtain ⟨hone, hrow⟩ := oneShot_rowAfter (by decide) h
      exact ⟨hone, by rw [hrow]; rfl⟩
    · rename_i hrepro
      split at h
      · obtain ⟨hone, hrow⟩ := oneShot_rowAfter (by decide) h
        exact ⟨hone, by rw [hrow]; rfl⟩
      · rename_i hcritic
        split at h
        · obtain ⟨hone, hrow⟩ := oneShot_rowUnless (by decide) h
          refine ⟨hone, ?_⟩
          rw [hrow]
          refine ⟨rfl, ⟨issue, hreference, htrace, hspec, hissue⟩, hexists, hplan, hbound, ?_, ?_⟩
          · simpa using hrepro
          · simpa using hcritic
        · obtain ⟨hone, hcases⟩ := handoffRows_spec h
          refine ⟨hone, ?_⟩
          rcases hcases with hrow | hrow | hrow | ⟨hrow, hreceipts⟩
          · rw [hrow]
            rfl
          · rw [hrow]
            rfl
          · rw [hrow]
            rfl
          · rw [hrow]
            exact ⟨rfl, hreceipts⟩

theorem planRows_spec (h : planRows artifacts = some row) :
    row.OneShot ∧ RowGuard reference issueNumber .inProgress artifacts row.transition := by
  unfold planRows at h
  split at h
  · obtain ⟨hone, hrow⟩ := oneShot_rowAfter (by decide) h
    exact ⟨hone, by rw [hrow]; rfl⟩
  · split at h
    · obtain ⟨hone, hrow⟩ := oneShot_rowAfter (by decide) h
      exact ⟨hone, by rw [hrow]; rfl⟩
    · obtain ⟨hone, hrow⟩ := oneShot_rowAfter (by decide) h
      exact ⟨hone, by rw [hrow]; rfl⟩

theorem progressRows_spec (hreference : reference = some issue) (htrace : issue.trace = true)
    (h : progressRows issue issueNumber artifacts = some row) :
    row.OneShot ∧ RowGuard reference issueNumber .inProgress artifacts row.transition := by
  unfold progressRows at h
  split at h
  · unfold specMismatchRow at h
    split at h
    · obtain ⟨hone, hrow⟩ := oneShot_rowUnless (by decide) h
      exact ⟨hone, by rw [hrow]; rfl⟩
    · cases h
  · rename_i hmatch
    simp only [specMismatch, Bool.or_eq_true, bne_iff_ne, ne_eq, not_or, not_not] at hmatch
    split at h
    · cases h
    rename_i hexists
    split at h
    · exact planRows_spec h
    rename_i hplan
    apply executeRows_spec hreference htrace hmatch.1 hmatch.2 _ _ h
    · simpa using hexists
    · simpa using hplan

/-- The spec of the selection: one-shot rows, each behind its guard. -/
theorem selectRow_spec (h : selectRow reference issueNumber status artifacts = some row) :
    row.OneShot ∧ RowGuard reference issueNumber status artifacts row.transition := by
  unfold selectRow at h
  split at h
  · cases h
  rename_i issue hfilter
  obtain ⟨hreference, htrace⟩ := Option.filter_eq_some_iff.mp hfilter
  cases status with
  | mergeApprovalRecorded => cases h
  | published | publicationHandoff =>
    dsimp only at h
    split at h
    · obtain ⟨hone, hrow⟩ := oneShot_rowUnless (by decide) h
      exact ⟨hone, by rw [hrow]; rfl⟩
    · cases h
  | inProgress => exact progressRows_spec hreference htrace h

end Rows

/-! ## Steps -/

/-- What one step of the workflow is fed. -/
structure Observation where
  reference : Option IssueReference
  artifacts : WorkflowArtifacts
  deriving DecidableEq, Repr

def resultAt (observation : Observation) (state : TraceState) : TransitionResult :=
  computeNextMode observation.reference state observation.artifacts

/-- The trace state the hook writes back; a no-op writes the same. -/
def traceStep (observation : Observation) (state : TraceState) : TraceState :=
  { state with
    lastTransition := (resultAt observation state).nextLastTransition
    status := (resultAt observation state).nextStatus }

theorem resultAt_cases (observation : Observation) (state : TraceState) :
    resultAt observation state = noop state
      ∨ ∃ row, selectRow observation.reference state.issueNumber state.status
          observation.artifacts = some row ∧ resultAt observation state = fire row.transition := by
  unfold resultAt computeNextMode
  split
  · exact Or.inl rfl
  rename_i row hselect
  split
  · exact Or.inr ⟨row, hselect, rfl⟩
  · exact Or.inl rfl

theorem traceStep_of_noop {observation : Observation} {state : TraceState}
    (h : resultAt observation state = noop state) : traceStep observation state = state := by
  rw [traceStep, h]
  rfl

theorem traceStep_of_fire {observation : Observation} {state : TraceState}
    (h : resultAt observation state = fire transition) : traceStep observation state
      = { state with lastTransition := some transition, status := transition.status } := by
  rw [traceStep, h]
  rfl

/-- A row that fired without leaving its status is silent at the next step. -/
theorem silent_after_fire {observation : Observation} {state : TraceState} {row : TraceRow}
    (hselect : selectRow observation.reference state.issueNumber state.status
      observation.artifacts = some row) (hfire : resultAt observation state = fire row.transition)
    (hstatus : row.transition.status = state.status) :
    resultAt observation (traceStep observation state) = noop (traceStep observation state) := by
  have hnext := traceStep_of_fire hfire
  have hone : row.firesAfter (some row.transition) = false := (selectRow_spec hselect).1
  rw [hnext, resultAt, computeNextMode]
  rw [hstatus, hselect]
  simp [hone]

/-! ## Convergence -/

/-- Under a fixed observation the steps reach a no-op, emitting these texts on
    the way. -/
inductive Settles (observation : Observation) : TraceState → List String → Prop where
  | done {state : TraceState} : resultAt observation state = noop state →
      Settles observation state []
  | fired {state : TraceState} {transition : TraceTransition} {later : List String} :
      resultAt observation state = fire transition →
      Settles observation (traceStep observation state) later →
      Settles observation state (transition.directive.toList ++ later)

/-- The texts emitted in the first `n` steps. -/
def emitted (observation : Observation) (n : Nat) (state : TraceState) : List String :=
  (List.range n).filterMap fun k =>
    (resultAt observation ((traceStep observation)^[k] state)).directive

theorem emitted_succ (observation : Observation) (n : Nat) (state : TraceState) :
    emitted observation (n + 1) state = (resultAt observation state).directive.toList
        ++ emitted observation n (traceStep observation state) := by
  unfold emitted
  rw [List.range_succ_eq_map, List.filterMap_cons, List.filterMap_map]
  cases hdirective : (resultAt observation state).directive with
  | none | some text => simp [hdirective, Function.comp_def]

theorem Settles.iterate {observation : Observation} {state : TraceState} {texts : List String}
    (h : Settles observation state texts) :
    ∃ n, resultAt observation ((traceStep observation)^[n] state)
        = noop ((traceStep observation)^[n] state) ∧ emitted observation n state = texts := by
  induction h with
  | done hnoop => exact ⟨0, hnoop, rfl⟩
  | fired hfire _ ih =>
    obtain ⟨n, hnoop, htexts⟩ := ih
    refine ⟨n + 1, ?_, ?_⟩
    · exact hnoop
    · rw [emitted_succ, hfire, htexts]
      rfl

/-- Either a no-op now, or the selected row fires and its guard holds. -/
theorem settles_cases (observation : Observation) (state : TraceState) :
    Settles observation state [] ∨ ∃ transition, resultAt observation state = fire transition
        ∧ RowGuard observation.reference state.issueNumber state.status observation.artifacts
          transition
        ∧ (transition.status = state.status → Settles observation (traceStep observation state) [])
        := by
  rcases resultAt_cases observation state with hnoop | ⟨row, hselect, hfire⟩
  · exact Or.inl (Settles.done hnoop)
  · refine Or.inr ⟨row.transition, hfire, (selectRow_spec hselect).2, fun hstatus => ?_⟩
    exact Settles.done (silent_after_fire hselect hfire hstatus)

theorem RowGuard.status_cases {reference : Option IssueReference} {issueNumber : Nat}
    {status : TraceStatus} {artifacts : WorkflowArtifacts}
    (h : RowGuard reference issueNumber status artifacts transition) :
    (transition = .mergeApprovalRecorded ∧ status = .published)
      ∨ (transition = .published ∧ status = .publicationHandoff)
      ∨ (transition = .executeToCommit ∧ status = .inProgress)
      ∨ (transition.status = .inProgress ∧ status = .inProgress) := by
  cases transition with
  | mergeApprovalRecorded => exact Or.inl ⟨rfl, h⟩
  | published => exact Or.inr (Or.inl ⟨rfl, h⟩)
  | executeToCommit => exact Or.inr (Or.inr (Or.inl ⟨rfl, h.1⟩))
  | planToExecute => exact Or.inr (Or.inr (Or.inr ⟨rfl, h.1⟩))
  | other text => exact h.elim
  | _ => exact Or.inr (Or.inr (Or.inr ⟨rfl, h⟩))

/-- The texts of the last three transitions, in the order they fire. -/
def closingTexts : List String :=
  [TraceTransition.executeToCommit, .published, .mergeApprovalRecorded].filterMap
    TraceTransition.directive

theorem nodup_closingTexts : closingTexts.Nodup := by
  -- the first letters tell the three texts apart
  have hheads : closingTexts.map (fun text => text.toList.head?)
      = [some 'A', some 'P', some 'M'] := by
    simp only [closingTexts, TraceTransition.directive, List.filterMap_cons, List.filterMap_nil,
      List.map_cons, List.map_nil, String.toList_append]
    rfl
  refine List.Nodup.of_map (fun text : String => text.toList.head?) ?_
  rw [hheads]
  decide

section Settling

variable {observation : Observation} {state : TraceState}

theorem settles_of_mergeApprovalRecorded (hstatus : state.status = .mergeApprovalRecorded) :
    Settles observation state [] := by
  rcases settles_cases observation state with hdone | ⟨transition, -, hguard, -⟩
  · exact hdone
  · rcases hguard.status_cases with ⟨-, h⟩ | ⟨-, h⟩ | ⟨-, h⟩ | ⟨-, h⟩ <;>
      rw [hstatus] at h <;> cases h

theorem settles_of_published (hstatus : state.status = .published) :
    ∃ texts, Settles observation state texts ∧ texts.Sublist (closingTexts.drop 2) := by
  rcases settles_cases observation state with hdone | ⟨transition, hfire, hguard, -⟩
  · exact ⟨[], hdone, List.nil_sublist _⟩
  rcases hguard.status_cases with ⟨rfl, -⟩ | ⟨-, h⟩ | ⟨-, h⟩ | ⟨-, h⟩
  · have hnext : (traceStep observation state).status = .mergeApprovalRecorded := by
      rw [traceStep_of_fire hfire]
      rfl
    exact ⟨_, Settles.fired hfire (settles_of_mergeApprovalRecorded hnext), List.Sublist.refl _⟩
  all_goals
    rw [hstatus] at h
    cases h

theorem settles_of_publicationHandoff (hstatus : state.status = .publicationHandoff) :
    ∃ texts, Settles observation state texts ∧ texts.Sublist (closingTexts.drop 1) := by
  rcases settles_cases observation state with hdone | ⟨transition, hfire, hguard, -⟩
  · exact ⟨[], hdone, List.nil_sublist _⟩
  rcases hguard.status_cases with ⟨-, h⟩ | ⟨rfl, -⟩ | ⟨-, h⟩ | ⟨-, h⟩
  · rw [hstatus] at h
    cases h
  · have hnext : (traceStep observation state).status = .published := by
      rw [traceStep_of_fire hfire]
      rfl
    obtain ⟨texts, hsettles, hsublist⟩ := @settles_of_published observation _ hnext
    exact ⟨_, Settles.fired hfire hsettles, List.Sublist.cons_cons _ hsublist⟩
  all_goals
    rw [hstatus] at h
    cases h

/-- From every state, a fixed observation leads to a no-op and no text is
    emitted twice on the way. -/
theorem settles_nodup (observation : Observation) (state : TraceState) :
    ∃ texts, Settles observation state texts ∧ texts.Nodup := by
  have hclosing : ∀ {texts : List String} (n : Nat), texts.Sublist (closingTexts.drop n) →
      texts.Nodup := by
    intro texts n hsublist
    exact nodup_closingTexts.sublist (hsublist.trans (List.drop_sublist n closingTexts))
  cases hstatus : state.status with
  | mergeApprovalRecorded =>
    exact ⟨[], settles_of_mergeApprovalRecorded hstatus, List.nodup_nil⟩
  | published =>
    obtain ⟨texts, hsettles, hsublist⟩ := @settles_of_published observation _ hstatus
    exact ⟨texts, hsettles, hclosing 2 hsublist⟩
  | publicationHandoff =>
    obtain ⟨texts, hsettles, hsublist⟩ :=
      @settles_of_publicationHandoff observation _ hstatus
    exact ⟨texts, hsettles, hclosing 1 hsublist⟩
  | inProgress =>
    rcases settles_cases observation state with hdone | ⟨transition, hfire, hguard, hsilent⟩
    · exact ⟨[], hdone, List.nodup_nil⟩
    rcases hguard.status_cases with ⟨-, h⟩ | ⟨-, h⟩ | ⟨rfl, -⟩ | ⟨hsame, -⟩
    · rw [hstatus] at h
      cases h
    · rw [hstatus] at h
      cases h
    · have hnext : (traceStep observation state).status = .publicationHandoff := by
        rw [traceStep_of_fire hfire]
        rfl
      obtain ⟨texts, hsettles, hsublist⟩ :=
        @settles_of_publicationHandoff observation _ hnext
      exact ⟨_, Settles.fired hfire hsettles, hclosing 0 (List.Sublist.cons_cons _ hsublist)⟩
    · have hsettles := hsilent (hsame.trans hstatus.symm)
      refine ⟨_, Settles.fired hfire hsettles, ?_⟩
      cases transition.directive with
      | none => exact List.nodup_nil
      | some text => exact List.nodup_singleton text

end Settling

/-! ## Runs -/

/-- The order the workflow moves in. -/
def TraceStatus.rank : TraceStatus → Nat
  | .inProgress => 0
  | .publicationHandoff => 1
  | .published => 2
  | .mergeApprovalRecorded => 3

/-- The trace state after a sequence of observations. -/
def traceAfter (start : TraceState) (observations : List Observation) : TraceState :=
  observations.foldl (fun state observation => traceStep observation state) start

/-- What holds in a reached state and of the next observation fed to it. -/
structure TraceSafe (state : TraceState) (observation : Observation) : Prop where
  forward : state.status.rank ≤ (traceStep observation state).status.rank
  absorbing : state.status = .mergeApprovalRecorded → traceStep observation state = state
  execute : resultAt observation state = fire .planToExecute →
    (∃ issue, observation.reference = some issue ∧ issue.trace = true
        ∧ observation.artifacts.specIssueNumber = some issue.number
        ∧ state.issueNumber = issue.number)
      ∧ observation.artifacts.planBoundToSpec ≠ some false
      ∧ observation.artifacts.reproductionPermitted = true
      ∧ observation.artifacts.criticApproved = true
  handoff : state.status ≠ .publicationHandoff →
    (traceStep observation state).status = .publicationHandoff →
    observation.artifacts.implementationReviewVerified = true
      ∧ observation.artifacts.recurrenceSweepVerified = true
      ∧ observation.artifacts.traceValidationVerified = true
  converges : ∃ n, resultAt observation ((traceStep observation)^[n] state)
      = noop ((traceStep observation)^[n] state)
    ∧ (emitted observation n state).Nodup

theorem fire_ne_noop_of_mode (state : TraceState) (h : transition.mode ≠ none) :
    fire transition ≠ noop state := by
  intro heq
  exact h (congrArg TransitionResult.nextMode heq)

theorem fire_injective {first second : TraceTransition} (h : fire first = fire second) :
    first = second :=
  Option.some.inj (congrArg TransitionResult.nextLastTransition h)

theorem traceSafe (state : TraceState) (observation : Observation) :
    TraceSafe state observation := by
  have hcases := resultAt_cases observation state
  constructor
  · rcases hcases with hnoop | ⟨row, hselect, hfire⟩
    · rw [traceStep_of_noop hnoop]
    rw [traceStep_of_fire hfire]
    dsimp only
    rcases (selectRow_spec hselect).2.status_cases with
      ⟨hrow, h⟩ | ⟨hrow, h⟩ | ⟨hrow, h⟩ | ⟨hrow, h⟩
    · rw [hrow, h]
      decide
    · rw [hrow, h]
      decide
    · rw [hrow, h]
      decide
    · rw [hrow, h]
  · intro hmerged
    rcases hcases with hnoop | ⟨row, hselect, -⟩
    · exact traceStep_of_noop hnoop
    · rcases (selectRow_spec hselect).2.status_cases with ⟨-, h⟩ | ⟨-, h⟩ | ⟨-, h⟩ | ⟨-, h⟩ <;>
        rw [hmerged] at h <;> cases h
  · intro hexecute
    rcases hcases with hnoop | ⟨row, hselect, hfire⟩
    · rw [hexecute] at hnoop
      exact absurd hnoop (fire_ne_noop_of_mode state (by decide))
    · have hrow := fire_injective (hexecute.symm.trans hfire)
      have hguard := (selectRow_spec hselect).2
      rw [← hrow] at hguard
      obtain ⟨-, hissue, -, -, hbound, hrepro, hcritic⟩ := hguard
      exact ⟨hissue, hbound, hrepro, hcritic⟩
  · intro hother hhandoff
    rcases hcases with hnoop | ⟨row, hselect, hfire⟩
    · rw [traceStep_of_noop hnoop] at hhandoff
      exact absurd hhandoff hother
    · rw [traceStep_of_fire hfire] at hhandoff
      have hguard := (selectRow_spec hselect).2
      rcases hguard.status_cases with ⟨hrow, -⟩ | ⟨hrow, -⟩ | ⟨hrow, -⟩ | ⟨hrow, -⟩
      · rw [hrow] at hhandoff
        cases hhandoff
      · rw [hrow] at hhandoff
        cases hhandoff
      · rw [hrow] at hguard
        exact hguard.2
      · rw [hrow] at hhandoff
        cases hhandoff
  · obtain ⟨texts, hsettles, hnodup⟩ := settles_nodup observation state
    obtain ⟨n, hnoop, htexts⟩ := hsettles.iterate
    exact ⟨n, hnoop, by rw [htexts]; exact hnodup⟩

theorem rank_traceAfter_le (state : TraceState) (observations : List Observation) :
    state.status.rank ≤ (traceAfter state observations).status.rank := by
  induction observations generalizing state with
  | nil => exact Nat.le_refl _
  | cons observation rest ih =>
    exact Nat.le_trans (traceSafe state observation).forward (ih (traceStep observation state))

theorem traceAfter_of_mergeApprovalRecorded {state : TraceState}
    (h : state.status = .mergeApprovalRecorded) (observations : List Observation) :
    traceAfter state observations = state := by
  induction observations with
  | nil => rfl
  | cons observation rest ih =>
    have hsame := (traceSafe state observation).absorbing h
    rw [traceAfter, List.foldl_cons, hsame]
    exact ih

/-- What holds of every state a sequence of observations leads to: nothing later
    moves the status back, and every further observation is handled safely. -/
theorem traceSafe_after (start : TraceState) (observations : List Observation) :
    (∀ later, (traceAfter start observations).status.rank
          ≤ (traceAfter start (observations ++ later)).status.rank
        ∧ ((traceAfter start observations).status = .mergeApprovalRecorded →
          traceAfter start (observations ++ later) = traceAfter start observations))
      ∧ ∀ observation, TraceSafe (traceAfter start observations) observation := by
  have hsplit : ∀ later, traceAfter start (observations ++ later)
      = traceAfter (traceAfter start observations) later := by
    simp [traceAfter]
  constructor
  · intro later
    rw [hsplit later]
    exact ⟨rank_traceAfter_le _ later, fun h => traceAfter_of_mergeApprovalRecorded h later⟩
  · exact traceSafe (traceAfter start observations)

/-- A traced issue whose plan passed the critic, the binding of the plan not
    observed. -/
def unboundObservation : Observation where
  reference := some ⟨7, true⟩
  artifacts := {
    specExists := true, specIssueNumber := some 7, planExists := true, criticApproved := true
    allPhasesComplete := false, reproductionPermitted := true, freshnessPermitted := true
    publicationObserved := false, recurrenceSweepVerified := false
    implementationReviewVerified := false, traceValidationVerified := false
    mergeApprovalObserved := false }

/-- Without an observed binding the plan is executed. -/
theorem executes_plan_of_unknown_binding :
    ¬ ∀ start observations observation,
      resultAt observation (traceAfter start observations) = fire .planToExecute →
        observation.artifacts.planBoundToSpec = some true := by
  intro hbound
  have hunbound := hbound ⟨7, none, .inProgress⟩ [] unboundObservation (by decide)
  cases hunbound

end OpencodeSwarm
