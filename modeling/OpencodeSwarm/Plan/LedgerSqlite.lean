/-
  OpencodeSwarm.Plan.LedgerSqlite

  The SQLite plan-ledger store (`src/plan/ledger-sqlite.ts`): the event table,
  the import table and the singleton state row, with the six transactions that
  `ledger.ts` runs on them.

  Every writer fills the state row through `upsertState`, whose columns fall
  back from the input to the summary of the rows to the row already stored.  A
  summary column that is `null` therefore keeps the stored value: a replacement
  by events without a `plan_epoch` retains the old epoch, and a first append
  without a `root_event_hash` leaves the root unset.  `SqliteLedgerCall.Coherent`
  is the condition that excludes both.
-/
import OpencodeSwarm.Plan.LedgerEvent
import Mathlib.Tactic.Common

namespace OpencodeSwarm

open Js

/-! ## Tables -/

inductive SqliteLedgerAuthorityMode where
  | fileShadow
  | sqlite
  deriving DecidableEq, Repr

inductive SqliteLedgerParityStatus where
  | pending
  | clean
  | diverged
  | failed
  deriving DecidableEq, Repr

/-- `PlanLedgerState`.  `terminal_metadata` and `updated_at` are never checked
    and are left out. -/
structure PlanLedgerState where
  authorityMode : SqliteLedgerAuthorityMode
  shadowStartedVersion : Option JsString
  parityStatus : SqliteLedgerParityStatus
  fileReplayHash : Option JsString
  sqliteReplayHash : Option JsString
  terminalProjectionHash : JsString
  lastSeq : Nat
  lastEventHash : Option JsString
  rootEventHash : Option JsString
  planId : Option JsString
  planEpoch : Option JsString
  terminalPlanHash : Option JsString
  terminalProjection : Option JsString
  terminalProjectionJson : Option JsString
  deriving DecidableEq, Repr

/-- `SqliteLedgerStateInput`: `undefined` and `null` both fall through `??`. -/
structure SqliteLedgerStateInput where
  authorityMode : Option SqliteLedgerAuthorityMode := none
  shadowStartedVersion : Option JsString := none
  parityStatus : Option SqliteLedgerParityStatus := none
  fileReplayHash : Option JsString := none
  sqliteReplayHash : Option JsString := none
  terminalProjectionHash : Option JsString := none
  lastSeq : Option Nat := none
  lastEventHash : Option JsString := none
  rootEventHash : Option JsString := none
  planId : Option JsString := none
  planEpoch : Option JsString := none
  terminalPlanHash : Option JsString := none
  terminalProjection : Option JsString := none
  terminalProjectionJson : Option JsString := none

/-- `plan_ledger_event`, `plan_ledger_import` (source and source hash) and
    `plan_ledger_state`.  An event row is its canonical event: `rowEvent`
    re-derives every typed column from it. -/
structure SqliteLedgerStore where
  events : List LedgerEvent
  imports : List (JsString × JsString)
  state : Option PlanLedgerState
  deriving DecidableEq, Repr

def SqliteLedgerStore.empty : SqliteLedgerStore := ⟨[], [], none⟩

/-- What the transactions throw. -/
inductive SqliteLedgerError where
  | sequenceTaken (seq : Nat)
  | staleSeq (expected found : Nat)
  | appendSeq (expected received : Nat)
  | importMismatch
  | importNotContiguous (seq : Nat)
  | importedWithDifferentHash (source : JsString)
  | noAuthorityState
  | metadataMismatch (column : JsString)
  | uninitialized
  | parityNotClean
  | shadowVersionChanged (expected : JsString) (found : Option JsString)
  deriving DecidableEq, Repr

section Store

variable (sha256 : JsString → JsString) (eventHash : LedgerEvent → JsString)

/-! ## The state row -/

/-- `upsertState`: input, then the fallback the caller derived from the rows,
    then the stored row, then the column's default. -/
def upsertState (existing : Option PlanLedgerState) (input fallback : SqliteLedgerStateInput) :
    PlanLedgerState :=
  let projection := (input.terminalProjection.or fallback.terminalProjection).or
    (existing.bind PlanLedgerState.terminalProjection)
  { authorityMode := ((input.authorityMode.or fallback.authorityMode).or
      (existing.map PlanLedgerState.authorityMode)).getD .sqlite
    shadowStartedVersion := (input.shadowStartedVersion.or fallback.shadowStartedVersion).or
      (existing.bind PlanLedgerState.shadowStartedVersion)
    parityStatus := ((input.parityStatus.or fallback.parityStatus).or
      (existing.map PlanLedgerState.parityStatus)).getD .pending
    fileReplayHash := (input.fileReplayHash.or fallback.fileReplayHash).or
      (existing.bind PlanLedgerState.fileReplayHash)
    sqliteReplayHash := (input.sqliteReplayHash.or fallback.sqliteReplayHash).or
      (existing.bind PlanLedgerState.sqliteReplayHash)
    terminalProjectionHash := (input.terminalProjectionHash.or fallback.terminalProjectionHash).getD
      (match projection with
       | some text => sha256 text
       | none => (existing.map PlanLedgerState.terminalProjectionHash).getD [])
    lastSeq := ((input.lastSeq.or fallback.lastSeq).or
      (existing.map PlanLedgerState.lastSeq)).getD 0
    lastEventHash := (input.lastEventHash.or fallback.lastEventHash).or
      (existing.bind PlanLedgerState.lastEventHash)
    rootEventHash := (input.rootEventHash.or fallback.rootEventHash).or
      (existing.bind PlanLedgerState.rootEventHash)
    planId := (input.planId.or fallback.planId).or (existing.bind PlanLedgerState.planId)
    planEpoch := (input.planEpoch.or fallback.planEpoch).or
      (existing.bind PlanLedgerState.planEpoch)
    terminalPlanHash := (input.terminalPlanHash.or fallback.terminalPlanHash).or
      (existing.bind PlanLedgerState.terminalPlanHash)
    terminalProjection := projection
    terminalProjectionJson := ((input.terminalProjectionJson.or fallback.terminalProjectionJson).or
      (existing.bind PlanLedgerState.terminalProjectionJson)).or projection }

/-- `SELECT * … ORDER BY seq ASC`. -/
def SqliteLedgerStore.rows (store : SqliteLedgerStore) : List LedgerEvent :=
  store.events.insertionSort fun a b => a.seq ≤ b.seq

/-- `SELECT MAX(seq)`, with 0 for an empty table. -/
def SqliteLedgerStore.maxSeq (store : SqliteLedgerStore) : Nat :=
  store.events.foldr (fun event m => max event.seq m) 0

/-- The newest non-null `plan_epoch` of the rows. -/
def newestPlanEpoch (rows : List LedgerEvent) : Option JsString :=
  rows.reverse.findSome? LedgerEvent.planEpoch

/-- The newest non-null `root_event_hash`, else the hash of the first row. -/
def expectedRootEventHash (rows : List LedgerEvent) : Option JsString :=
  (rows.reverse.findSome? LedgerEvent.rootEventHash).or (rows.head?.map eventHash)

/-- The digest of the stored projection that `terminal_projection_hash` is
    checked against. -/
def PlanLedgerState.projectionDigest (state : PlanLedgerState) : JsString :=
  match state.terminalProjection with
  | some text => sha256 text
  | none =>
    match truthyString state.terminalProjectionJson with
    | some text => sha256 text
    | none => []

/-- The comparisons of `validateStateAgainstRows`, in the order it makes them,
    against a non-empty row list ending in `last`. -/
def stateChecks (state : PlanLedgerState) (rows : List LedgerEvent) (last : LedgerEvent) :
    List (JsString × Bool) :=
  [(js "last_seq", state.lastSeq == last.seq),
   (js "last_event_hash", state.lastEventHash == some (eventHash last)),
   (js "root_event_hash", state.rootEventHash == expectedRootEventHash eventHash rows),
   (js "plan_id", state.planId == some last.planId),
   (js "plan_epoch", state.planEpoch == newestPlanEpoch rows),
   (js "terminal_plan_hash", state.terminalPlanHash == some last.planHashAfter),
   (js "terminal_projection_hash", state.terminalProjectionHash == []
     || state.terminalProjectionHash == state.projectionDigest sha256)]

/-- The state row must agree with the last event. -/
def validateStateAgainstRows (state : Option PlanLedgerState) (rows : List LedgerEvent) :
    Except SqliteLedgerError Unit :=
  match rows.getLast? with
  | none => .ok ()
  | some last =>
    match state with
    | none => .error .noAuthorityState
    | some state =>
      match (stateChecks sha256 eventHash state rows last).find? fun check => !check.2 with
      | some check => .error (.metadataMismatch check.1)
      | none => .ok ()

/-- `readSqliteLedgerEvents`: the ordered rows and the state row, once they
    agree. -/
def readSqliteLedgerEvents (store : SqliteLedgerStore) :
    Except SqliteLedgerError (List LedgerEvent × Option PlanLedgerState) :=
  match validateStateAgainstRows sha256 eventHash store.state store.rows with
  | .error err => .error err
  | .ok () => .ok (store.rows, store.state)

/-! ## Transactions -/

/-- `insertEvent`: a taken sequence number must hold the same event. -/
def insertEvent (store : SqliteLedgerStore) (event : LedgerEvent) :
    Except SqliteLedgerError SqliteLedgerStore :=
  match store.events.find? fun row => row.seq == event.seq with
  | some row => if row = event then .ok store else .error (.sequenceTaken event.seq)
  | none => .ok { store with events := store.events ++ [event] }

/-- The fallback of an append: the metadata of the new row alone. -/
def appendFallback (event : LedgerEvent) : SqliteLedgerStateInput where
  lastSeq := some event.seq
  lastEventHash := some (eventHash event)
  rootEventHash := event.rootEventHash
  planId := some event.planId
  planEpoch := event.planEpoch
  terminalPlanHash := some event.planHashAfter

/-- An event behind the last one, at the sequence number expected. -/
def appendSqliteLedger (store : SqliteLedgerStore) (event : LedgerEvent) (expectedSeq : Nat)
    (input : SqliteLedgerStateInput) : Except SqliteLedgerError SqliteLedgerStore :=
  if expectedSeq ≠ store.maxSeq then .error (.staleSeq expectedSeq store.maxSeq)
  else if event.seq ≠ store.maxSeq + 1 then .error (.appendSeq (store.maxSeq + 1) event.seq)
  else
    match insertEvent store event with
    | .error err => .error err
    | .ok store' => .ok
        { store' with
          state := some (upsertState sha256 store.state input (appendFallback eventHash event)) }

/-- The insertion loop of `importInTransaction`. -/
def insertContiguous (previousSeq : Nat) (store : SqliteLedgerStore) :
    List LedgerEvent → Except SqliteLedgerError SqliteLedgerStore
  | [] => .ok store
  | event :: events =>
    if event.seq ≠ previousSeq + 1 then .error (.importNotContiguous event.seq)
    else
      match insertEvent store event with
      | .error err => .error err
      | .ok store' => insertContiguous event.seq store' events

/-- The table contents an import leaves: a non-empty table is only compared
    with the incoming events, by hash, unless it is being replaced. -/
def importEvents (replace : Bool) (store : SqliteLedgerStore) (events : List LedgerEvent) :
    Except SqliteLedgerError SqliteLedgerStore :=
  if !store.events.isEmpty && !replace then
    if store.rows.map eventHash = events.map eventHash then .ok store
    else .error .importMismatch
  else if replace then insertContiguous 0 { store with events := [], imports := [] } events
  else insertContiguous 0 store events

/-- The fallback of an import: a summary of all rows. -/
def importFallback (authorityMode : Option SqliteLedgerAuthorityMode) (rows : List LedgerEvent) :
    SqliteLedgerStateInput where
  authorityMode := authorityMode.or (some .fileShadow)
  lastSeq := some ((rows.getLast?.map LedgerEvent.seq).getD 0)
  lastEventHash := rows.getLast?.map eventHash
  rootEventHash := expectedRootEventHash eventHash rows
  planId := rows.getLast?.map LedgerEvent.planId
  planEpoch := newestPlanEpoch rows
  terminalPlanHash := rows.getLast?.map LedgerEvent.planHashAfter

/-- `importInTransaction`: insert, summarise the rows into the state row, record
    the source. -/
def importInTransaction (replace : Bool) (store : SqliteLedgerStore) (events : List LedgerEvent)
    (input : SqliteLedgerStateInput) (source sourceHash : JsString) :
    Except SqliteLedgerError SqliteLedgerStore :=
  match importEvents eventHash replace store events with
  | .error err => .error err
  | .ok store' =>
    let state := upsertState sha256 store.state input
      (importFallback eventHash input.authorityMode store'.rows)
    match store'.imports.find? fun row => row.1 == source with
    | some prior =>
      if prior.2 ≠ sourceHash then .error (.importedWithDifferentHash source)
      else .ok { store' with state := some state }
    | none =>
      .ok { store' with state := some state, imports := (source, sourceHash) :: store'.imports }

def importSqliteLedger := importInTransaction sha256 eventHash false
def replaceSqliteLedger := importInTransaction sha256 eventHash true

def recordSqliteLedgerParity (store : SqliteLedgerStore)
    (fileReplayHash sqliteReplayHash terminalProjectionHash : JsString)
    (parityStatus : SqliteLedgerParityStatus) : SqliteLedgerStore :=
  { store with
    state := some (upsertState sha256 store.state
      { fileReplayHash := some fileReplayHash
        sqliteReplayHash := some sqliteReplayHash
        terminalProjectionHash := some terminalProjectionHash
        parityStatus := some parityStatus } {}) }

/-- `cutoverSqliteLedger`: only from a clean parity record of the version the
    caller saw. -/
def cutoverSqliteLedger (store : SqliteLedgerStore) (expectedShadowStartedVersion : JsString) :
    Except SqliteLedgerError SqliteLedgerStore :=
  match store.state with
  | none => .error .uninitialized
  | some state =>
    if state.parityStatus ≠ .clean ∨ truthyString state.fileReplayHash = none
        ∨ state.fileReplayHash ≠ state.sqliteReplayHash then .error .parityNotClean
    else if state.shadowStartedVersion ≠ some expectedShadowStartedVersion then
      .error (.shadowVersionChanged expectedShadowStartedVersion state.shadowStartedVersion)
    else .ok { store with state := some { state with authorityMode := .sqlite } }

def clearSqliteLedger (_ : SqliteLedgerStore) : SqliteLedgerStore := .empty

end Store

end OpencodeSwarm
