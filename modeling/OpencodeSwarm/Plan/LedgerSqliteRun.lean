/-
  OpencodeSwarm.Plan.LedgerSqliteRun

  Runs of the SQLite store under the calls `ledger.ts` makes.  `Faithful` is
  the store invariant: the table is the list of events last written, numbered
  from 1, and the state row passes `validateStateAgainstRows`.  One call keeps
  it exactly when the call is `Coherent`; a run of coherent calls keeps it
  throughout.
-/
import OpencodeSwarm.Lib.Transition
import OpencodeSwarm.Plan.LedgerSqlite

namespace OpencodeSwarm

open Js Transition

/-! ## The calls of `ledger.ts` -/

/-- What a caller knows when it builds a state input: the state row it read, its
    package version, and the JSON text of the replayed plan. -/
structure LedgerCallContext where
  stateRow : Option PlanLedgerState
  packageVersion : JsString
  projection : JsString

section Calls

variable (sha256 : JsString → JsString) (eventHash : LedgerEvent → JsString)

/-- The state row that goes with a list of events. -/
def stateForEvents (ctx : LedgerCallContext) (events : List LedgerEvent)
    (authorityMode : SqliteLedgerAuthorityMode) : SqliteLedgerStateInput where
  authorityMode := some authorityMode
  shadowStartedVersion := some
    ((ctx.stateRow.bind PlanLedgerState.shadowStartedVersion).getD ctx.packageVersion)
  parityStatus := some .pending
  terminalProjectionHash := some (sha256 ctx.projection)
  terminalProjection := some ctx.projection
  lastSeq := some ((events.getLast?.map LedgerEvent.seq).getD 0)
  planId := events.getLast?.map LedgerEvent.planId
  terminalPlanHash := events.getLast?.map LedgerEvent.planHashAfter

/-- The state input of `importCanonicalIntoSqlite`. -/
def importStateInput (ctx : LedgerCallContext) (events : List LedgerEvent)
    (replayHash : JsString) : SqliteLedgerStateInput :=
  { stateForEvents sha256 ctx events .fileShadow with
    fileReplayHash := some replayHash
    sqliteReplayHash := some replayHash
    parityStatus := some .clean }

/-- A store call, with the arguments `ledger.ts` gives it. -/
inductive SqliteLedgerCall where
  /-- `importCanonicalIntoSqlite`. -/
  | importLedger (ctx : LedgerCallContext) (file : List LedgerEvent)
      (replayHash sourceHash : JsString)
  /-- The re-roots of `initLedger`, `coordinateLedger` and
      `replacePlanLedgerWithRoot`. -/
  | replaceLedger (ctx : LedgerCallContext) (events : List LedgerEvent)
      (mode : SqliteLedgerAuthorityMode) (source sourceHash : JsString)
  /-- Suffix repair, and the append of an event under SQLite authority. -/
  | appendReplayed (ctx : LedgerCallContext) (earlier : List LedgerEvent) (event : LedgerEvent)
      (expectedSeq : Nat) (mode : SqliteLedgerAuthorityMode)
  /-- The shadow append after a file commit. -/
  | appendShadow (event : LedgerEvent) (expectedSeq : Nat)
  | recordParity (fileReplayHash sqliteReplayHash terminalProjectionHash : JsString)
      (parityStatus : SqliteLedgerParityStatus)
  | cutover (expectedShadowStartedVersion : JsString)
  | clear

namespace SqliteLedgerCall

/-- One call on the store. -/
def run (store : SqliteLedgerStore) : SqliteLedgerCall → Except SqliteLedgerError SqliteLedgerStore
  | importLedger ctx file replayHash sourceHash =>
    importSqliteLedger sha256 eventHash store file (importStateInput sha256 ctx file replayHash)
      (js "plan-ledger.jsonl") sourceHash
  | replaceLedger ctx events mode source sourceHash =>
    replaceSqliteLedger sha256 eventHash store events (stateForEvents sha256 ctx events mode)
      source sourceHash
  | appendReplayed ctx earlier event expectedSeq mode =>
    appendSqliteLedger sha256 eventHash store event expectedSeq
      (stateForEvents sha256 ctx (earlier ++ [event]) mode)
  | appendShadow event expectedSeq =>
    appendSqliteLedger sha256 eventHash store event expectedSeq
      { authorityMode := some .fileShadow, parityStatus := some .pending }
  | recordParity fileReplayHash sqliteReplayHash terminalProjectionHash parityStatus =>
    .ok (recordSqliteLedgerParity sha256 store fileReplayHash sqliteReplayHash
      terminalProjectionHash parityStatus)
  | cutover expected => cutoverSqliteLedger store expected
  | clear => .ok (clearSqliteLedger store)

/-- The events last imported or replaced, followed by those appended since. -/
def contents (before : List LedgerEvent) : SqliteLedgerCall → List LedgerEvent
  | importLedger _ file _ _ => file
  | replaceLedger _ events _ _ _ => events
  | appendReplayed _ _ event _ _ | appendShadow event _ => before ++ [event]
  | recordParity .. | cutover _ => before
  | clear => []

end SqliteLedgerCall

/-! ## The invariant -/

/-- The rows are numbered 1 to n. -/
def ContiguousSeq (events : List LedgerEvent) : Prop :=
  events.map LedgerEvent.seq = List.range' 1 events.length

structure SqliteLedgerStore.Faithful (store : SqliteLedgerStore) (contents : List LedgerEvent) :
    Prop where
  events_eq : store.events = contents
  contiguous : ContiguousSeq contents
  readable : validateStateAgainstRows sha256 eventHash store.state store.rows = .ok ()

/-! ## When a call keeps it -/

/-- Writing `events` over the stored state row leaves it with their epoch. -/
def EpochCarried (stored : Option PlanLedgerState) (events : List LedgerEvent) : Prop :=
  newestPlanEpoch events ≠ none ∨ stored.bind PlanLedgerState.planEpoch = none

/-- A first event sets the root hash the rows will be checked against. -/
def RootCarried (stored : Option PlanLedgerState) (event : LedgerEvent) : Prop :=
  event.rootEventHash ≠ none
    ∨ stored.bind PlanLedgerState.rootEventHash = some (eventHash event)

/-- The projection comparison of `validateStateAgainstRows`. -/
def PlanLedgerState.ProjectionChecks (state : PlanLedgerState) : Prop :=
  state.terminalProjectionHash = [] ∨ state.terminalProjectionHash = state.projectionDigest sha256

/-- A stored row without projection bytes has a projection hash that checks. -/
def ProjectionCarried (stored : Option PlanLedgerState) : Prop :=
  ∀ state ∈ stored, state.terminalProjection = none → state.ProjectionChecks sha256

namespace SqliteLedgerCall

/-- The condition under which a successful call keeps the store faithful. -/
def Coherent (store : SqliteLedgerStore) : SqliteLedgerCall → Prop
  | importLedger _ file _ _ =>
    (store.events = [] → file = [] ∨ EpochCarried store.state file)
      ∧ (store.events ≠ [] → file = store.events)
  | replaceLedger _ events _ _ _ => events = [] ∨ EpochCarried store.state events
  | appendReplayed _ _ event _ _ =>
    store.events = [] → RootCarried eventHash store.state event ∧ EpochCarried store.state [event]
  | appendShadow event _ =>
    store.events = [] → RootCarried eventHash store.state event ∧ EpochCarried store.state [event]
      ∧ ProjectionCarried sha256 store.state
  | recordParity _ _ terminalProjectionHash _ =>
    store.events = [] ∨ terminalProjectionHash = []
      ∨ ∀ state ∈ store.state, terminalProjectionHash = state.projectionDigest sha256
  | cutover _ | clear => True

end SqliteLedgerCall

end Calls

/-! ## The table -/

theorem foldr_max_range' (s n : Nat) :
    (List.range' (s + 1) n).foldr max 0 = if n = 0 then 0 else s + n := by
  induction n generalizing s with
  | zero => rfl
  | succ n ih =>
    rw [List.range'_succ, List.foldr_cons, ih, if_neg (Nat.succ_ne_zero n)]
    split
    · next hn =>
      subst hn
      exact Nat.max_eq_left (Nat.zero_le _)
    · omega

variable {events : List LedgerEvent}

theorem ContiguousSeq.pairwise (h : ContiguousSeq events) :
    events.Pairwise fun a b => a.seq ≤ b.seq := by
  have hmap : (events.map LedgerEvent.seq).Pairwise (· ≤ ·) := by
    rw [show events.map LedgerEvent.seq = _ from h]
    exact List.pairwise_le_range'
  exact List.pairwise_map.mp hmap

variable {event : LedgerEvent}

theorem ContiguousSeq.seq_le (h : ContiguousSeq events) (hmem : event ∈ events) :
    event.seq ≤ events.length := by
  have hseq : event.seq ∈ events.map LedgerEvent.seq := List.mem_map_of_mem hmem
  rw [show events.map LedgerEvent.seq = _ from h, List.mem_range'_1] at hseq
  omega

theorem ContiguousSeq.append (h : ContiguousSeq events) (hseq : event.seq = events.length + 1) :
    ContiguousSeq (events ++ [event]) := by
  rw [ContiguousSeq, List.map_append, show events.map LedgerEvent.seq = _ from h,
    List.length_append, List.length_singleton, List.range'_concat]
  simp [hseq, Nat.add_comm]

variable {store : SqliteLedgerStore}

theorem rows_eq_of_contiguous (h : ContiguousSeq store.events) : store.rows = store.events :=
  h.pairwise.insertionSort_eq

theorem maxSeq_of_contiguous (h : ContiguousSeq store.events) :
    store.maxSeq = store.events.length := by
  have hmax : store.maxSeq = (store.events.map LedgerEvent.seq).foldr max 0 := by
    rw [SqliteLedgerStore.maxSeq, List.foldr_map]
  rw [hmax, show store.events.map LedgerEvent.seq = _ from h,
    show List.range' 1 store.events.length = List.range' (0 + 1) store.events.length from rfl,
    foldr_max_range']
  split_ifs with hnil
  · exact hnil.symm
  · omega

theorem insertEvent_fresh (h : ContiguousSeq store.events)
    (hseq : event.seq = store.events.length + 1) :
    insertEvent store event = .ok { store with events := store.events ++ [event] } := by
  have hnone : store.events.find? (fun row => row.seq == event.seq) = none := by
    rw [List.find?_eq_none]
    intro row hrow
    have hle := h.seq_le hrow
    simp only [beq_iff_eq]
    omega
  rw [insertEvent, hnone]

/-- The insertion loop appends the whole list, and only accepts a list that
    continues the numbering. -/
theorem insertContiguous_eq_ok {store' : SqliteLedgerStore} (hstore : ContiguousSeq store.events)
    (h : insertContiguous store.events.length store events = .ok store') :
    store' = { store with events := store.events ++ events }
      ∧ ContiguousSeq (store.events ++ events) := by
  induction events generalizing store with
  | nil =>
    cases h
    exact ⟨by simp, by simpa using hstore⟩
  | cons event events ih =>
    rw [insertContiguous] at h
    split at h
    · cases h
    rename_i hseq
    rw [not_ne_iff] at hseq
    rw [insertEvent_fresh hstore hseq] at h
    have hlen : event.seq = (store.events ++ [event]).length := by
      rw [List.length_append, List.length_singleton, hseq]
    rw [hlen] at h
    obtain ⟨rfl, hcontig⟩ := @ih { store with events := store.events ++ [event] }
      (hstore.append hseq) h
    exact ⟨by simp, by simpa using hcontig⟩

section Invariant

variable {sha256 : JsString → JsString} {eventHash : LedgerEvent → JsString}
  {stored : Option PlanLedgerState} {last : LedgerEvent} {rows : List LedgerEvent}

/-- A non-empty table reads back exactly when a state row is there and every
    comparison succeeds. -/
theorem validateStateAgainstRows_eq_ok (hlast : rows.getLast? = some last) :
    validateStateAgainstRows sha256 eventHash stored rows = .ok () ↔ ∃ state, stored = some state
        ∧ ∀ check ∈ stateChecks sha256 eventHash state rows last, check.2 = true := by
  rw [validateStateAgainstRows, hlast]
  cases stored with
  | none => simp
  | some state =>
    cases hfind : (stateChecks sha256 eventHash state rows last).find? fun check => !check.2 with
    | none =>
      have hall := List.find?_eq_none.mp hfind
      simp only [hfind, true_iff]
      exact ⟨state, rfl, fun check hcheck => by simpa using hall check hcheck⟩
    | some check =>
      simp only [hfind, reduceCtorEq, false_iff]
      rintro ⟨state', hstate, hall⟩
      cases hstate
      have hbad := List.find?_some hfind
      rw [hall check (List.mem_of_find?_eq_some hfind)] at hbad
      cases hbad

theorem newestPlanEpoch_append (events : List LedgerEvent) (event : LedgerEvent) :
    newestPlanEpoch (events ++ [event]) = event.planEpoch.or (newestPlanEpoch events) := by
  rw [newestPlanEpoch, List.reverse_append, List.reverse_singleton, List.singleton_append,
    List.findSome?_cons]
  cases event.planEpoch <;> rfl

variable {events : List LedgerEvent}

theorem expectedRootEventHash_append (hne : events ≠ []) (event : LedgerEvent) :
    expectedRootEventHash eventHash (events ++ [event])
      = event.rootEventHash.or (expectedRootEventHash eventHash events) := by
  obtain ⟨first, rest, rfl⟩ := List.exists_cons_of_ne_nil hne
  rw [expectedRootEventHash, List.reverse_append, List.reverse_singleton, List.singleton_append,
    List.findSome?_cons]
  cases event.rootEventHash <;> rfl

theorem expectedRootEventHash_isSome (eventHash : LedgerEvent → JsString) (hne : events ≠ []) :
    ∃ hash, expectedRootEventHash eventHash events = some hash := by
  obtain ⟨first, rest, rfl⟩ := List.exists_cons_of_ne_nil hne
  rw [expectedRootEventHash]
  cases List.findSome? LedgerEvent.rootEventHash (first :: rest).reverse with
  | none => exact ⟨_, rfl⟩
  | some hash => exact ⟨hash, rfl⟩

/-! ## One call -/

/-- An input that carries its own terminal event and projection, and leaves the
    hash and epoch columns to the fallback. -/
structure DescribesTail (sha256 : JsString → JsString) (input : SqliteLedgerStateInput)
    (last : LedgerEvent) : Prop where
  lastSeq : input.lastSeq = some last.seq
  planId : input.planId = some last.planId
  terminalPlanHash : input.terminalPlanHash = some last.planHashAfter
  lastEventHash : input.lastEventHash = none
  rootEventHash : input.rootEventHash = none
  planEpoch : input.planEpoch = none
  projection : ∃ text, input.terminalProjection = some text
    ∧ input.terminalProjectionHash = some (sha256 text)

variable {ctx : LedgerCallContext} {mode : SqliteLedgerAuthorityMode}

theorem stateForEvents_describesTail (hlast : events.getLast? = some last) :
    DescribesTail sha256 (stateForEvents sha256 ctx events mode) last := by
  constructor <;> simp [stateForEvents, hlast]

variable {replayHash : JsString}

theorem importStateInput_describesTail (hlast : events.getLast? = some last) :
    DescribesTail sha256 (importStateInput sha256 ctx events replayHash) last := by
  constructor <;> simp [importStateInput, stateForEvents, hlast]

variable {input : SqliteLedgerStateInput}

/-- After an import the state row checks exactly when no older epoch shows
    through. -/
theorem import_readable_iff (eventHash : LedgerEvent → JsString) (stored : Option PlanLedgerState)
    (hlast : rows.getLast? = some last) (hinput : DescribesTail sha256 input last)
    (mode : Option SqliteLedgerAuthorityMode) : validateStateAgainstRows sha256 eventHash
        (some (upsertState sha256 stored input (importFallback eventHash mode rows))) rows = .ok ()
      ↔ EpochCarried stored rows := by
  obtain ⟨text, htext, hdigest⟩ := hinput.projection
  have hne : rows ≠ [] := by rintro rfl; cases hlast
  obtain ⟨root, hroot⟩ := expectedRootEventHash_isSome eventHash hne
  rw [validateStateAgainstRows_eq_ok hlast]
  simp only [Option.some.injEq, exists_eq_left', stateChecks, List.forall_mem_cons,
    upsertState, importFallback, hinput.lastSeq, hinput.planId, hinput.terminalPlanHash,
    hinput.lastEventHash, hinput.rootEventHash, hinput.planEpoch, htext, hdigest, hlast, hroot,
    Option.some_or, Option.none_or, Option.map_some, Option.getD_some, beq_self_eq_true,
    PlanLedgerState.projectionDigest, Bool.or_true, beq_iff_eq, true_and, EpochCarried]
  cases hepoch : newestPlanEpoch rows with
  | none => simp
  | some epoch => simp

theorem readable_state (hlast : rows.getLast? = some last)
    (h : validateStateAgainstRows sha256 eventHash stored rows = .ok ()) :
    ∃ state, stored = some state ∧ state.rootEventHash = expectedRootEventHash eventHash rows
      ∧ state.planEpoch = newestPlanEpoch rows ∧ state.ProjectionChecks sha256 := by
  obtain ⟨state, rfl, hchecks⟩ := (validateStateAgainstRows_eq_ok hlast).mp h
  simp only [stateChecks, List.forall_mem_cons, beq_iff_eq, Bool.or_eq_true] at hchecks
  exact ⟨state, rfl, hchecks.2.2.1, hchecks.2.2.2.2.1, hchecks.2.2.2.2.2.2.1⟩

/-- An append input: it agrees with the new row where it speaks, and leaves the
    hash and epoch columns to the fallback. -/
structure ExtendsTail (input : SqliteLedgerStateInput) (event : LedgerEvent) : Prop where
  lastSeq : input.lastSeq.or (some event.seq) = some event.seq
  planId : input.planId.or (some event.planId) = some event.planId
  terminalPlanHash : input.terminalPlanHash.or (some event.planHashAfter) = some event.planHashAfter
  lastEventHash : input.lastEventHash = none
  rootEventHash : input.rootEventHash = none
  planEpoch : input.planEpoch = none

variable {event : LedgerEvent}

theorem DescribesTail.extendsTail (h : DescribesTail sha256 input event) :
    ExtendsTail input event where
  lastSeq := by rw [h.lastSeq]; rfl
  planId := by rw [h.planId]; rfl
  terminalPlanHash := by rw [h.terminalPlanHash]; rfl
  lastEventHash := h.lastEventHash
  rootEventHash := h.rootEventHash
  planEpoch := h.planEpoch

theorem append_readable_iff (hinput : ExtendsTail input event) (events : List LedgerEvent) :
    validateStateAgainstRows sha256 eventHash
        (some (upsertState sha256 stored input (appendFallback eventHash event)))
        (events ++ [event]) = .ok ()
      ↔ event.rootEventHash.or (stored.bind PlanLedgerState.rootEventHash)
            = expectedRootEventHash eventHash (events ++ [event])
        ∧ event.planEpoch.or (stored.bind PlanLedgerState.planEpoch)
            = event.planEpoch.or (newestPlanEpoch events) ∧ (upsertState sha256 stored input
            (appendFallback eventHash event)).ProjectionChecks sha256 := by
  have hlast : (events ++ [event]).getLast? = some event := by simp
  rw [validateStateAgainstRows_eq_ok hlast]
  simp only [Option.some.injEq, exists_eq_left', stateChecks, List.forall_mem_cons, beq_iff_eq,
    Bool.or_eq_true, newestPlanEpoch_append, PlanLedgerState.ProjectionChecks]
  have hseq : (upsertState sha256 stored input (appendFallback eventHash event)).lastSeq
      = event.seq := by
    simp [upsertState, appendFallback, hinput.lastSeq]
  have hplan : (upsertState sha256 stored input (appendFallback eventHash event)).planId
      = some event.planId := by
    simp [upsertState, appendFallback, hinput.planId]
  have hterminal : (upsertState sha256 stored input (appendFallback eventHash event)).terminalPlanHash
      = some event.planHashAfter := by
    simp [upsertState, appendFallback, hinput.terminalPlanHash]
  have hhash : (upsertState sha256 stored input (appendFallback eventHash event)).lastEventHash
      = some (eventHash event) := by
    simp [upsertState, appendFallback, hinput.lastEventHash]
  have hroot : (upsertState sha256 stored input (appendFallback eventHash event)).rootEventHash
      = event.rootEventHash.or (stored.bind PlanLedgerState.rootEventHash) := by
    simp [upsertState, appendFallback, hinput.rootEventHash]
  have hepoch : (upsertState sha256 stored input (appendFallback eventHash event)).planEpoch
      = event.planEpoch.or (stored.bind PlanLedgerState.planEpoch) := by
    simp [upsertState, appendFallback, hinput.planEpoch]
  rw [hseq, hplan, hterminal, hhash, hroot, hepoch]
  simp

theorem upsertState_projection_of_describesTail (stored : Option PlanLedgerState)
    (fallback : SqliteLedgerStateInput) (hinput : DescribesTail sha256 input last) :
    (upsertState sha256 stored input fallback).ProjectionChecks sha256 := by
  obtain ⟨text, htext, hdigest⟩ := hinput.projection
  refine Or.inr ?_
  simp [upsertState, PlanLedgerState.projectionDigest, htext, hdigest]

/-- Without a supplied projection the check is the stored row's own. -/
theorem upsertState_projection_iff_carried (sha256 : JsString → JsString)
    (stored : Option PlanLedgerState) {fallback : SqliteLedgerStateInput}
    (hinput : input.terminalProjection = none ∧ input.terminalProjectionHash = none
      ∧ input.terminalProjectionJson = none)
    (hfallback : fallback.terminalProjection = none ∧ fallback.terminalProjectionHash = none
      ∧ fallback.terminalProjectionJson = none) :
    (upsertState sha256 stored input fallback).ProjectionChecks sha256
      ↔ ProjectionCarried sha256 stored := by
  cases stored with
  | none => simp [upsertState, PlanLedgerState.ProjectionChecks, ProjectionCarried, hinput,
    hfallback]
  | some state =>
    cases hproj : state.terminalProjection with
    | none | some text =>
      simp [upsertState, PlanLedgerState.ProjectionChecks, ProjectionCarried,
        PlanLedgerState.projectionDigest, hinput, hfallback, hproj]

theorem projectionCarried_of_readable (hlast : rows.getLast? = some last)
    (h : validateStateAgainstRows sha256 eventHash stored rows = .ok ()) :
    ProjectionCarried sha256 stored := by
  obtain ⟨state, rfl, -, -, hproj⟩ := readable_state hlast h
  intro state' hstate _
  cases hstate
  exact hproj

/-- Over a readable non-empty table every append leaves a readable one. -/
theorem append_readable_of_readable (hinput : ExtendsTail input event) (hne : events ≠ [])
    (hreadable : validateStateAgainstRows sha256 eventHash stored events = .ok ())
    (hproj : (upsertState sha256 stored input
      (appendFallback eventHash event)).ProjectionChecks sha256) :
    validateStateAgainstRows sha256 eventHash
      (some (upsertState sha256 stored input (appendFallback eventHash event)))
      (events ++ [event]) = .ok () := by
  obtain ⟨last, hlast⟩ := Option.isSome_iff_exists.mp (List.getLast?_isSome.mpr hne)
  obtain ⟨state, rfl, hroot, hepoch, -⟩ := readable_state hlast hreadable
  refine (append_readable_iff hinput events).mpr ⟨?_, ?_, hproj⟩
  · rw [expectedRootEventHash_append hne, Option.bind_some, hroot]
  · rw [Option.bind_some, hepoch]

/-- A first append is readable exactly when it carries what the summary of the
    rows will ask for. -/
theorem first_append_readable_iff (hinput : ExtendsTail input event) :
    validateStateAgainstRows sha256 eventHash
        (some (upsertState sha256 stored input (appendFallback eventHash event))) [event] = .ok ()
      ↔ RootCarried eventHash stored event ∧ EpochCarried stored [event]
        ∧ (upsertState sha256 stored input
            (appendFallback eventHash event)).ProjectionChecks sha256 := by
  refine (append_readable_iff hinput []).trans ?_
  rw [List.nil_append]
  have hroot : event.rootEventHash.or (stored.bind PlanLedgerState.rootEventHash)
      = expectedRootEventHash eventHash [event] ↔ RootCarried eventHash stored event := by
    cases hr : event.rootEventHash <;> simp [expectedRootEventHash, RootCarried, hr]
  have hepoch : event.planEpoch.or (stored.bind PlanLedgerState.planEpoch)
      = event.planEpoch.or (newestPlanEpoch []) ↔ EpochCarried stored [event] := by
    cases he : event.planEpoch <;> simp [newestPlanEpoch, EpochCarried, he]
  rw [hroot, hepoch]

/-! ### The calls -/

theorem epochCarried_of_readable (hlast : rows.getLast? = some last)
    (h : validateStateAgainstRows sha256 eventHash stored rows = .ok ()) :
    EpochCarried stored rows := by
  obtain ⟨state, rfl, -, hepoch, -⟩ := readable_state hlast h
  by_cases hnone : newestPlanEpoch rows = none
  · exact Or.inr (by rw [Option.bind_some, hepoch, hnone])
  · exact Or.inl hnone

variable {store store' : SqliteLedgerStore} {sourceHash : JsString} {source : JsString}
  {replace : Bool}

/-- The table an import leaves holds the rows that its state row summarises. -/
theorem importInTransaction_eq_ok
    (h : importInTransaction sha256 eventHash replace store events input source sourceHash
      = .ok store') : ∃ table, importEvents eventHash replace store events = .ok table
      ∧ store'.events = table.events ∧ store'.state = some (upsertState sha256 store.state input
          (importFallback eventHash input.authorityMode table.rows)) := by
  unfold importInTransaction at h
  split at h
  · cases h
  rename_i table htable
  refine ⟨table, htable, ?_⟩
  split at h
  · split at h
    · cases h
    cases h
    exact ⟨rfl, rfl⟩
  · cases h
    exact ⟨rfl, rfl⟩

/-- Writing a list into an empty or emptied table: faithful exactly when the
    epoch is carried. -/
theorem faithful_of_insert_iff {base table : SqliteLedgerStore} (hbase : base.events = [])
    (htable : insertContiguous 0 base events = .ok table) (hevents : store'.events = table.events)
    {mode : Option SqliteLedgerAuthorityMode}
    (hinput : ∀ last, events.getLast? = some last → DescribesTail sha256 input last)
    (hstate : store'.state = some (upsertState sha256 stored input
      (importFallback eventHash mode table.rows))) :
    store'.Faithful sha256 eventHash events ↔ events = [] ∨ EpochCarried stored events := by
  have hnil : ContiguousSeq base.events := by rw [hbase]; rfl
  have hlen : base.events.length = 0 := by rw [hbase]; rfl
  obtain ⟨rfl, hcontig⟩ := insertContiguous_eq_ok hnil (hlen ▸ htable)
  rw [hbase, List.nil_append] at hevents hcontig
  have hrows : store'.rows = events := by
    rw [rows_eq_of_contiguous (hevents ▸ hcontig), hevents]
  have htrows : SqliteLedgerStore.rows { base with events := base.events ++ events } = events := by
    have hc : ContiguousSeq (base.events ++ events) := by rw [hbase, List.nil_append]; exact hcontig
    rw [rows_eq_of_contiguous hc, hbase, List.nil_append]
  rw [htrows] at hstate
  cases hlast : events.getLast? with
  | none =>
    have hempty : events = [] := List.getLast?_eq_none_iff.mp hlast
    refine ⟨fun _ => Or.inl hempty, fun _ => ⟨hevents, hcontig, ?_⟩⟩
    rw [hrows, hempty]
    rfl
  | some last =>
    have hne : events ≠ [] := by rintro rfl; cases hlast
    have hiff := import_readable_iff eventHash stored hlast
      (hinput last hlast) mode
    rw [← hstate] at hiff
    constructor
    · intro h
      exact Or.inr (hiff.mp (hrows ▸ h.readable))
    · intro h
      exact ⟨hevents, hcontig, by rw [hrows]; exact hiff.mpr (h.resolve_left hne)⟩

variable {expectedSeq : Nat}

theorem appendSqliteLedger_eq_ok {contents : List LedgerEvent}
    (hstore : store.Faithful sha256 eventHash contents)
    (h : appendSqliteLedger sha256 eventHash store event expectedSeq input = .ok store') :
    store'.events = contents ++ [event] ∧ ContiguousSeq (contents ++ [event])
      ∧ store'.state = some (upsertState sha256 store.state input (appendFallback eventHash event)) := by
  have hcontig : ContiguousSeq store.events := hstore.events_eq ▸ hstore.contiguous
  unfold appendSqliteLedger at h
  split at h
  · cases h
  split at h
  · cases h
  rename_i hseq
  rw [not_ne_iff, maxSeq_of_contiguous hcontig] at hseq
  rw [insertEvent_fresh hcontig hseq] at h
  cases h
  refine ⟨by rw [hstore.events_eq], ?_, rfl⟩
  rw [← hstore.events_eq]
  exact hcontig.append hseq

/-- Faithfulness after an append is readability of the extended rows. -/
theorem faithful_append_iff {contents : List LedgerEvent}
    (hstore : store.Faithful sha256 eventHash contents)
    (h : appendSqliteLedger sha256 eventHash store event expectedSeq input = .ok store') :
    store'.Faithful sha256 eventHash (contents ++ [event])
      ↔ validateStateAgainstRows sha256 eventHash
          (some (upsertState sha256 store.state input (appendFallback eventHash event)))
          (contents ++ [event]) = .ok () := by
  obtain ⟨hevents, hcontig, hstate⟩ := appendSqliteLedger_eq_ok hstore h
  have hrows : store'.rows = contents ++ [event] := by
    rw [rows_eq_of_contiguous (hevents ▸ hcontig), hevents]
  constructor
  · intro hf
    have hread := hf.readable
    rwa [hrows, hstate] at hread
  · intro hread
    exact ⟨hevents, hcontig, by rw [hrows, hstate]; exact hread⟩

theorem run_importLedger_faithful_iff {contents : List LedgerEvent}
    (hstore : store.Faithful sha256 eventHash contents) {file : List LedgerEvent}
    (h : importSqliteLedger sha256 eventHash store file (importStateInput sha256 ctx file replayHash)
      (js "plan-ledger.jsonl") sourceHash = .ok store') : store'.Faithful sha256 eventHash file
      ↔ (store.events = [] → file = [] ∨ EpochCarried store.state file)
        ∧ (store.events ≠ [] → file = store.events) := by
  obtain ⟨table, htable, hevents, hstate⟩ := importInTransaction_eq_ok h
  have hcontig : ContiguousSeq store.events := hstore.events_eq ▸ hstore.contiguous
  by_cases hempty : store.events = []
  · rw [importEvents, hempty] at htable
    have hiff := faithful_of_insert_iff hempty htable hevents
      (fun last hlast => importStateInput_describesTail hlast) hstate
    simpa [hempty] using hiff
  · have hnonempty : (!store.events.isEmpty && !false) = true := by simpa using hempty
    rw [importEvents, if_pos hnonempty] at htable
    split at htable
    · cases htable
      simp only [hempty, false_implies, not_false_eq_true, true_implies, true_and, ne_eq]
      refine ⟨fun hf => by rw [← hf.events_eq, hevents], ?_⟩
      rintro rfl
      obtain ⟨last, hlast⟩ := Option.isSome_iff_exists.mp (List.getLast?_isSome.mpr hempty)
      have hrows : store.rows = store.events := rows_eq_of_contiguous hcontig
      have hrows' : store'.rows = store.events := by
        rw [rows_eq_of_contiguous (hevents ▸ hcontig), hevents]
      have hread := hstore.readable
      rw [hrows] at hread
      refine ⟨hevents, hcontig, ?_⟩
      rw [hrows', hstate, hrows]
      exact (import_readable_iff _ _ hlast (importStateInput_describesTail hlast) _).mpr
        (epochCarried_of_readable hlast hread)
    · cases htable

theorem run_replaceLedger_faithful_iff
    (h : replaceSqliteLedger sha256 eventHash store events (stateForEvents sha256 ctx events mode)
      source sourceHash = .ok store') :
    store'.Faithful sha256 eventHash events ↔ events = [] ∨ EpochCarried store.state events := by
  obtain ⟨table, htable, hevents, hstate⟩ := importInTransaction_eq_ok h
  rw [importEvents, if_neg (by simp), if_pos rfl] at htable
  exact faithful_of_insert_iff rfl htable hevents
    (fun last hlast => stateForEvents_describesTail hlast) hstate

theorem run_appendReplayed_faithful_iff {contents : List LedgerEvent}
    (hstore : store.Faithful sha256 eventHash contents) {earlier : List LedgerEvent}
    (h : appendSqliteLedger sha256 eventHash store event expectedSeq
      (stateForEvents sha256 ctx (earlier ++ [event]) mode) = .ok store') :
    store'.Faithful sha256 eventHash (contents ++ [event]) ↔ (store.events = [] →
          RootCarried eventHash store.state event ∧ EpochCarried store.state [event]) := by
  have hinput : DescribesTail sha256 (stateForEvents sha256 ctx (earlier ++ [event]) mode) event :=
    stateForEvents_describesTail (by simp)
  have hproj := upsertState_projection_of_describesTail store.state (appendFallback eventHash event)
    hinput
  rw [faithful_append_iff hstore h, hstore.events_eq]
  by_cases hempty : contents = []
  · subst hempty
    rw [List.nil_append, first_append_readable_iff hinput.extendsTail]
    simp [hproj]
  · have hread := hstore.readable
    rw [rows_eq_of_contiguous (hstore.events_eq ▸ hstore.contiguous), hstore.events_eq] at hread
    simp [hempty, append_readable_of_readable hinput.extendsTail hempty hread hproj]

theorem run_appendShadow_faithful_iff {contents : List LedgerEvent}
    (hstore : store.Faithful sha256 eventHash contents)
    (h : appendSqliteLedger sha256 eventHash store event expectedSeq
      { authorityMode := some .fileShadow, parityStatus := some .pending } = .ok store') :
    store'.Faithful sha256 eventHash (contents ++ [event])
      ↔ (store.events = [] →
          RootCarried eventHash store.state event ∧ EpochCarried store.state [event]
            ∧ ProjectionCarried sha256 store.state) := by
  have hinput : ExtendsTail
      { authorityMode := some .fileShadow, parityStatus := some .pending } event := by
    constructor <;> rfl
  have hproj : (upsertState sha256 store.state
      { authorityMode := some .fileShadow, parityStatus := some .pending }
      (appendFallback eventHash event)).ProjectionChecks sha256
        ↔ ProjectionCarried sha256 store.state :=
    upsertState_projection_iff_carried sha256 store.state ⟨rfl, rfl, rfl⟩ ⟨rfl, rfl, rfl⟩
  rw [faithful_append_iff hstore h, hstore.events_eq]
  by_cases hempty : contents = []
  · subst hempty
    rw [List.nil_append, first_append_readable_iff hinput, hproj]
    simp
  · have hread := hstore.readable
    rw [rows_eq_of_contiguous (hstore.events_eq ▸ hstore.contiguous), hstore.events_eq] at hread
    obtain ⟨last, hlast⟩ := Option.isSome_iff_exists.mp (List.getLast?_isSome.mpr hempty)
    have hcarried := hproj.mpr (projectionCarried_of_readable hlast hread)
    simp [hempty, append_readable_of_readable hinput hempty hread hcarried]

theorem run_recordParity_faithful_iff {contents : List LedgerEvent}
    (hstore : store.Faithful sha256 eventHash contents)
    (fileReplayHash sqliteReplayHash terminalProjectionHash : JsString)
    (parityStatus : SqliteLedgerParityStatus) :
    (recordSqliteLedgerParity sha256 store fileReplayHash sqliteReplayHash terminalProjectionHash
        parityStatus).Faithful sha256 eventHash contents
      ↔ store.events = [] ∨ terminalProjectionHash = []
        ∨ ∀ state ∈ store.state, terminalProjectionHash = state.projectionDigest sha256 := by
  have hcontig := hstore.contiguous
  have hrows : store.rows = contents := by
    rw [rows_eq_of_contiguous (hstore.events_eq ▸ hcontig), hstore.events_eq]
  have hread := hstore.readable
  rw [hrows] at hread
  cases hlast : contents.getLast? with
  | none =>
    obtain rfl : contents = [] := List.getLast?_eq_none_iff.mp hlast
    refine ⟨fun _ => Or.inl hstore.events_eq, fun _ => ⟨hstore.events_eq, hcontig, ?_⟩⟩
    rw [show SqliteLedgerStore.rows (recordSqliteLedgerParity ..) = store.rows from rfl, hrows]
    rfl
  | some last =>
    have hne : store.events ≠ [] := by
      rw [hstore.events_eq]
      rintro rfl
      cases hlast
    obtain ⟨state, hstate, hchecks⟩ := (validateStateAgainstRows_eq_ok hlast).mp hread
    have hnew : validateStateAgainstRows sha256 eventHash
        (recordSqliteLedgerParity sha256 store fileReplayHash sqliteReplayHash
          terminalProjectionHash parityStatus).state contents = .ok ()
        ↔ terminalProjectionHash = [] ∨ terminalProjectionHash = state.projectionDigest sha256 := by
      rw [validateStateAgainstRows_eq_ok hlast]
      simp only [stateChecks, List.forall_mem_cons, beq_iff_eq, Bool.or_eq_true] at hchecks
      obtain ⟨hseq, hhash, hroot, hplan, hepoch, hterminal, -⟩ := hchecks
      simp [recordSqliteLedgerParity, upsertState, hstate, stateChecks, hseq, hhash, hroot, hplan,
        hepoch, hterminal, PlanLedgerState.projectionDigest]
      cases state.terminalProjection <;> simp
    simp only [hne, false_or, hstate, Option.mem_def, Option.some.injEq, forall_eq']
    rw [← hnew]
    constructor
    · intro hf
      have hread' := hf.readable
      rwa [show SqliteLedgerStore.rows (recordSqliteLedgerParity ..) = store.rows from rfl,
        hrows] at hread'
    · intro hread'
      refine ⟨hstore.events_eq, hcontig, ?_⟩
      rw [show SqliteLedgerStore.rows (recordSqliteLedgerParity ..) = store.rows from rfl, hrows]
      exact hread'

theorem run_cutover_faithful {contents : List LedgerEvent}
    (hstore : store.Faithful sha256 eventHash contents) {expected : JsString}
    (h : cutoverSqliteLedger store expected = .ok store') :
    store'.Faithful sha256 eventHash contents := by
  unfold cutoverSqliteLedger at h
  split at h
  · cases h
  rename_i state hstate
  split at h
  · cases h
  split at h
  · cases h
  cases h
  refine ⟨hstore.events_eq, hstore.contiguous, ?_⟩
  -- no comparison reads the authority mode
  have hread := hstore.readable
  rw [hstate] at hread
  exact hread

variable {call : SqliteLedgerCall}

/-- A successful call keeps the store faithful exactly when it is coherent. -/
theorem SqliteLedgerCall.run_faithful_iff {contents : List LedgerEvent}
    (hstore : store.Faithful sha256 eventHash contents)
    (h : call.run sha256 eventHash store = .ok store') :
    store'.Faithful sha256 eventHash (call.contents contents)
      ↔ call.Coherent sha256 eventHash store := by
  cases call with
  | importLedger ctx file replayHash sourceHash => exact run_importLedger_faithful_iff hstore h
  | replaceLedger ctx events mode source sourceHash => exact run_replaceLedger_faithful_iff h
  | appendReplayed ctx earlier event expectedSeq mode =>
    exact run_appendReplayed_faithful_iff hstore h
  | appendShadow event expectedSeq => exact run_appendShadow_faithful_iff hstore h
  | recordParity fileReplayHash sqliteReplayHash terminalProjectionHash parityStatus =>
    cases h
    exact run_recordParity_faithful_iff hstore _ _ _ _
  | cutover expected =>
    exact ⟨fun _ => trivial, fun _ => run_cutover_faithful hstore h⟩
  | clear =>
    cases h
    exact ⟨fun _ => trivial, fun _ => ⟨rfl, rfl, rfl⟩⟩

/-! ## The import table -/

/-- An import or a replacement brings events, as those of `ledger.ts` do. -/
def SqliteLedgerCall.CarriesEvents : SqliteLedgerCall → Prop
  | importLedger _ file _ _ => file ≠ []
  | replaceLedger _ events _ _ _ => events ≠ []
  | appendReplayed .. | appendShadow .. | recordParity .. | cutover _ | clear => True

theorem insertEvent_ne_nil (h : insertEvent store event = .ok store') : store'.events ≠ [] := by
  unfold insertEvent at h
  split at h
  · next row hrow =>
    split at h <;> cases h
    exact List.ne_nil_of_mem (List.mem_of_find?_eq_some hrow)
  · cases h
    exact List.append_ne_nil_of_right_ne_nil _ (List.cons_ne_nil _ _)

theorem insertContiguous_ne_nil {previousSeq : Nat}
    (h : insertContiguous previousSeq store events = .ok store')
    (hne : store.events ≠ [] ∨ events ≠ []) : store'.events ≠ [] := by
  induction events generalizing previousSeq store with
  | nil =>
    cases h
    exact hne.resolve_right (not_not.mpr rfl)
  | cons event events ih =>
    rw [insertContiguous] at h
    split at h
    · cases h
    split at h
    · cases h
    · next next hinsert => exact ih h (Or.inl (insertEvent_ne_nil hinsert))

theorem importInTransaction_ne_nil (hne : events ≠ [])
    (h : importInTransaction sha256 eventHash replace store events input source sourceHash
      = .ok store') : store'.events ≠ [] := by
  obtain ⟨table, htable, hevents, -⟩ := importInTransaction_eq_ok h
  rw [hevents]
  unfold importEvents at htable
  split at htable
  · next hkept =>
    split at htable <;> cases htable
    simp only [Bool.and_eq_true, Bool.not_eq_true', List.isEmpty_eq_false_iff] at hkept
    exact hkept.1
  · split at htable
    · exact insertContiguous_ne_nil htable (Or.inr hne)
    · exact insertContiguous_ne_nil htable (Or.inr hne)

theorem appendSqliteLedger_ne_nil
    (h : appendSqliteLedger sha256 eventHash store event expectedSeq input = .ok store') :
    store'.events ≠ [] := by
  unfold appendSqliteLedger at h
  split at h
  · cases h
  split at h
  · cases h
  split at h
  · cases h
  rename_i inserted hinsert
  have hne := insertEvent_ne_nil hinsert
  cases h
  exact hne

/-- A call leaves events, or the two tables as they were, or no rows at all. -/
theorem SqliteLedgerCall.run_tables (hcarries : call.CarriesEvents)
    (h : call.run sha256 eventHash store = .ok store') : store'.events ≠ []
      ∨ store'.events = store.events ∧ store'.imports = store.imports ∨ store' = .empty := by
  cases call with
  | importLedger | replaceLedger => exact Or.inl (importInTransaction_ne_nil hcarries h)
  | appendReplayed | appendShadow => exact Or.inl (appendSqliteLedger_ne_nil h)
  | recordParity =>
    cases h
    exact Or.inr (Or.inl ⟨rfl, rfl⟩)
  | cutover expected =>
    change cutoverSqliteLedger store expected = .ok store' at h
    unfold cutoverSqliteLedger at h
    split at h
    · cases h
    split at h
    · cases h
    split at h <;> cases h
    exact Or.inr (Or.inl ⟨rfl, rfl⟩)
  | clear =>
    cases h
    exact Or.inr (Or.inr rfl)

/-- A store without events has no import record. -/
theorem imports_nil_of_run {calls : List SqliteLedgerCall} {store : SqliteLedgerStore}
    (hrun : Run (Guarded (fun store call store' => call.run sha256 eventHash store = .ok store')
      fun _ call => call.CarriesEvents) .empty calls store) :
    store.events = [] → store.imports = [] := by
  let inv := fun store : SqliteLedgerStore => store.events = [] → store.imports = []
  refine (hrun.preserves ?_ fun _ => rfl : inv store)
  rintro store call store' ⟨hcall, hcarries⟩ hstore hempty
  rcases call.run_tables hcarries hcall with hne | ⟨hevents, himports⟩ | rfl
  · exact absurd hempty hne
  · exact himports.trans (hstore (hevents.symm.trans hempty))
  · rfl

/-! ## Runs -/

/-- One successful call on a store whose expected contents are tracked along. -/
def StoreStep (sha256 : JsString → JsString) (eventHash : LedgerEvent → JsString)
    (s : SqliteLedgerStore × List LedgerEvent) (call : SqliteLedgerCall)
    (t : SqliteLedgerStore × List LedgerEvent) : Prop :=
  call.run sha256 eventHash s.1 = .ok t.1 ∧ t.2 = call.contents s.2

/-- The same, for a coherent call. -/
def CoherentStoreStep (sha256 : JsString → JsString) (eventHash : LedgerEvent → JsString) :
    (SqliteLedgerStore × List LedgerEvent) → SqliteLedgerCall →
      (SqliteLedgerStore × List LedgerEvent) → Prop :=
  Guarded (StoreStep sha256 eventHash) fun s call => call.Coherent sha256 eventHash s.1

theorem SqliteLedgerStore.empty_faithful : SqliteLedgerStore.empty.Faithful sha256 eventHash [] :=
  ⟨rfl, rfl, rfl⟩

theorem SqliteLedgerStore.Faithful.read {contents : List LedgerEvent}
    (h : store.Faithful sha256 eventHash contents) :
    readSqliteLedgerEvents sha256 eventHash store = .ok (contents, store.state) := by
  have hrows : store.rows = contents := by
    rw [rows_eq_of_contiguous (h.events_eq ▸ h.contiguous), h.events_eq]
  rw [readSqliteLedgerEvents, h.readable, hrows]

/-- After coherent calls the store reads back what was last imported or
    replaced followed by what was appended since, numbered from 1. -/
theorem readSqliteLedgerEvents_of_run {calls : List SqliteLedgerCall} {store : SqliteLedgerStore}
    {contents : List LedgerEvent}
    (hrun : Run (CoherentStoreStep sha256 eventHash) (.empty, []) calls (store, contents)) :
    readSqliteLedgerEvents sha256 eventHash store = .ok (contents, store.state)
      ∧ ContiguousSeq contents := by
  have hfaithful : store.Faithful sha256 eventHash contents := by
    let inv := fun s : SqliteLedgerStore × List LedgerEvent => s.1.Faithful sha256 eventHash s.2
    refine (hrun.preserves ?_ SqliteLedgerStore.empty_faithful : inv (store, contents))
    rintro ⟨s, before⟩ call ⟨t, after⟩ ⟨⟨hcall, rfl⟩, hcoherent⟩ hs
    exact (call.run_faithful_iff hs hcall).mpr hcoherent
  exact ⟨hfaithful.read, hfaithful.contiguous⟩

end Invariant

/-! ### A replacement without an epoch -/

/-- A root event, with or without a plan epoch. -/
def rootEvent (planId : String) (planEpoch : Option JsString) : LedgerEvent where
  seq := 1
  timestamp := js "t"
  planId := js planId
  eventType := .planCreated
  source := js "initLedger"
  planHashBefore := []
  planHashAfter := js planId
  payload := some { planEpoch := planEpoch }

def emptyContext : LedgerCallContext where
  stateRow := none
  packageVersion := js "1"
  projection := js "null"

/-- Import a ledger whose root has an epoch. -/
def importWithEpoch : SqliteLedgerCall :=
  .importLedger emptyContext [rootEvent "a" (some (js "e"))] [] []

/-- Replace it by a ledger whose root has none. -/
def replaceWithoutEpoch : SqliteLedgerCall :=
  .replaceLedger emptyContext [rootEvent "b" none] .fileShadow (js "plan_identity_reinitialized") []

/-- The state row keeps the replaced ledger's epoch, so the next read throws. -/
theorem readSqliteLedgerEvents_after_replace_without_epoch :
    ¬ ∀ (sha256 : JsString → JsString) (eventHash : LedgerEvent → JsString)
        (calls : List SqliteLedgerCall) (store : SqliteLedgerStore) (contents : List LedgerEvent),
      Run (StoreStep sha256 eventHash) (.empty, []) calls (store, contents) →
        readSqliteLedgerEvents sha256 eventHash store = .ok (contents, store.state)
          ∧ ContiguousSeq contents := by
  intro hall
  obtain ⟨imported, himported⟩ : ∃ store,
      importWithEpoch.run id LedgerEvent.planId .empty = .ok store := ⟨_, rfl⟩
  obtain ⟨replaced, hreplaced⟩ : ∃ store,
      replaceWithoutEpoch.run id LedgerEvent.planId imported = .ok store := by
    cases himported
    exact ⟨_, rfl⟩
  have hfirst : Run (StoreStep id LedgerEvent.planId) (.empty, []) [importWithEpoch]
      (imported, [rootEvent "a" (some (js "e"))]) := Run.single ⟨himported, rfl⟩
  have hrun : Run (StoreStep id LedgerEvent.planId) (.empty, [])
      ([importWithEpoch] ++ [replaceWithoutEpoch]) (replaced, [rootEvent "b" none]) :=
    Run.snoc hfirst ⟨hreplaced, rfl⟩
  have hread := (hall _ _ _ _ _ hrun).1
  have hthrows : readSqliteLedgerEvents id LedgerEvent.planId replaced
      = .error (.metadataMismatch (js "plan_epoch")) := by
    cases himported
    cases hreplaced
    rfl
  rw [hthrows] at hread
  cases hread

/-- A coherent run: an import and a shadow append. -/
theorem readSqliteLedgerEvents_of_import_append :
    ∃ store, Run (CoherentStoreStep id LedgerEvent.planId) (.empty, [])
        ([importWithEpoch] ++ [.appendShadow { rootEvent "a" none with seq := 2 } 1])
        (store, [rootEvent "a" (some (js "e")), { rootEvent "a" none with seq := 2 }])
      ∧ readSqliteLedgerEvents id LedgerEvent.planId store
        = .ok ([rootEvent "a" (some (js "e")), { rootEvent "a" none with seq := 2 }], store.state)
      ∧ ContiguousSeq [rootEvent "a" (some (js "e")), { rootEvent "a" none with seq := 2 }] := by
  obtain ⟨imported, himported⟩ : ∃ store,
      importWithEpoch.run id LedgerEvent.planId .empty = .ok store := ⟨_, rfl⟩
  obtain ⟨appended, happended⟩ : ∃ store,
      (SqliteLedgerCall.appendShadow { rootEvent "a" none with seq := 2 } 1).run id
        LedgerEvent.planId imported = .ok store := by
    cases himported
    exact ⟨_, rfl⟩
  have himport : importWithEpoch.Coherent id LedgerEvent.planId .empty :=
    ⟨fun _ => Or.inr (Or.inr rfl), fun h => absurd rfl h⟩
  have happend : (SqliteLedgerCall.appendShadow { rootEvent "a" none with seq := 2 } 1).Coherent
      id LedgerEvent.planId imported := by
    cases himported
    intro hempty
    cases hempty
  have hfirst : Run (CoherentStoreStep id LedgerEvent.planId) (.empty, []) [importWithEpoch]
      (imported, [rootEvent "a" (some (js "e"))]) := Run.single ⟨⟨himported, rfl⟩, himport⟩
  have hrun : Run (CoherentStoreStep id LedgerEvent.planId) (.empty, [])
      ([importWithEpoch] ++ [.appendShadow { rootEvent "a" none with seq := 2 } 1])
      (appended, [rootEvent "a" (some (js "e")), { rootEvent "a" none with seq := 2 }]) :=
    Run.snoc hfirst ⟨⟨happended, rfl⟩, happend⟩
  exact ⟨appended, hrun, readSqliteLedgerEvents_of_run hrun⟩

end OpencodeSwarm
