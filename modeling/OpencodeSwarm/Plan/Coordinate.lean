/-
  OpencodeSwarm.Plan.Coordinate

  `coordinateLedger` (`src/plan/ledger.ts`): the reconciliation of the portable
  JSONL ledger with the SQLite store, run by every reader.  In `file_shadow`
  mode the file is authoritative and the store is imported, re-rooted or
  extended from it; in `sqlite` mode the store is, and the file is rewritten.

  A call returns the disk it leaves even when it throws, since a re-root that
  committed stays committed.  `LedgerCallEnv.defers` says which store
  transactions fail on their own; the code defers those.
-/
import OpencodeSwarm.Plan.LedgerSqliteRun
import OpencodeSwarm.Plan.Replay

namespace OpencodeSwarm

open Js

/-! ## The ledger file -/

/-- A non-empty line of `plan-ledger.jsonl`: an event, JSON of another shape, or
    text that `JSON.parse` rejects. -/
inductive LedgerFileLine where
  | event (e : LedgerEvent)
  | invalidShape (text : JsString)
  | unparsable (text : JsString)
  deriving DecidableEq, Repr

def LedgerFileLine.event? : LedgerFileLine → Option LedgerEvent
  | .event e => some e
  | _ => none

/-- `FileLedgerRead`; the exact lines are the events themselves. -/
structure FileLedgerRead where
  events : List LedgerEvent
  truncated : Bool
  badSuffix : Option (List LedgerFileLine)
  lenientEvents : List LedgerEvent
  deriving DecidableEq, Repr

/-- The events before the first bad line. -/
def goodPrefix : List LedgerFileLine → List LedgerEvent
  | .event e :: lines => e :: goodPrefix lines
  | _ => []

/-- The first bad line and everything after it. -/
def badSuffix : List LedgerFileLine → List LedgerFileLine
  | .event _ :: lines => badSuffix lines
  | lines => lines

/-- `readFileLedgerExact`; an absent file reads as an empty one. -/
def readFileLedgerExact (file : Option (List LedgerFileLine)) : FileLedgerRead :=
  let lines := file.getD []
  let bad := badSuffix lines
  { events := goodPrefix lines
    truncated := !bad.isEmpty
    badSuffix := if bad.isEmpty then none else some bad
    lenientEvents := lines.filterMap LedgerFileLine.event? }

/-- A complete read of these events. -/
def FileLedgerRead.ofEvents (events : List LedgerEvent) : FileLedgerRead where
  events := events
  truncated := false
  badSuffix := none
  lenientEvents := events

def exactPrefix (front complete : List LedgerEvent) : Bool := front.isPrefixOf complete

/-! ## The disk and the call -/

/-- What `.swarm` holds for the ledger. -/
structure LedgerDisk where
  file : Option (List LedgerFileLine)
  store : SqliteLedgerStore
  planJson : Option Plan
  resetting : Bool

/-- The store transactions of one `coordinateLedger` call that fail and are
    deferred, and the version of the calling package. -/
structure LedgerCallEnv where
  packageVersion : JsString
  deferImport : Bool := false
  deferReplace : Bool := false
  deferAppend : Nat → Bool := fun _ => false

inductive CoordinateError where
  | sqlite (error : SqliteLedgerError)
  | replay (error : ReplayError)
  /-- `PLAN_LEDGER_DIVERGED: malformed file prefix differs from SQLite authority`. -/
  | malformedPrefixDiverged
  /-- `PLAN_LEDGER_DIVERGED: JSONL and SQLite committed prefixes differ`. -/
  | committedPrefixDiverged
  deriving DecidableEq, Repr

section Coordinate

variable (sha256 : JsString → JsString) (eventHash : LedgerEvent → JsString)
  (printPlan : Option Plan → JsString) (fileHash : List LedgerFileLine → JsString)

/-- `eventsProjection`: the text of the replayed plan with the two hashes parity
    compares. -/
structure EventsProjection where
  replayHash : JsString
  projectionHash : JsString
  projection : JsString

def eventsProjection (planJson : Option Plan) (events : List LedgerEvent) :
    Except ReplayError EventsProjection :=
  (reconstructPlanFromEvents planJson events).map fun plan =>
    { replayHash :=
        match plan with
        | some plan => computePlanLedgerHash sha256 plan
        | none => sha256 (printPlan none)
      projectionHash := sha256 (printPlan plan)
      projection := printPlan plan }

/-- The context of `stateForEvents` at a store. -/
def callContext (call : LedgerCallEnv) (store : SqliteLedgerStore) (projection : JsString) :
    LedgerCallContext where
  stateRow := store.state
  packageVersion := call.packageVersion
  projection := projection

/-- Run a store call; a failure of any kind leaves the store. -/
def deferring (defers : Bool) (store : SqliteLedgerStore)
    (projection : Except ReplayError EventsProjection)
    (mkCall : EventsProjection → SqliteLedgerCall) : Option SqliteLedgerStore :=
  if defers then none
  else
    match projection with
    | .error _ => none
    | .ok projection =>
      match (mkCall projection).run sha256 eventHash store with
      | .error _ => none
      | .ok store' => some store'

/-- `importCanonicalIntoSqlite` inside its `try`. -/
def tryImport (call : LedgerCallEnv) (disk : LedgerDisk) (events : List LedgerEvent) :
    Option SqliteLedgerStore :=
  deferring sha256 eventHash call.deferImport disk.store
    (eventsProjection sha256 printPlan disk.planJson events) fun projection =>
      .importLedger (callContext call disk.store projection.projection) events projection.replayHash
        (fileHash (disk.file.getD []))

/-- `replaceSqliteLedger` with the file's events, inside its `try`.  The source
    hash is that of the inserted lines. -/
def tryReplace (call : LedgerCallEnv) (disk : LedgerDisk) (events : List LedgerEvent) :
    Option SqliteLedgerStore :=
  deferring sha256 eventHash call.deferReplace disk.store
    (eventsProjection sha256 printPlan disk.planJson events) fun projection =>
      .replaceLedger (callContext call disk.store projection.projection) events .fileShadow
        (js "plan_identity_reinitialized") (fileHash (events.map .event))

/-- The suffix-repair loop; the second component is `false` once an append was
    deferred. -/
def repairSuffix (call : LedgerCallEnv) (planJson : Option Plan) (store : SqliteLedgerStore)
    (done : List LedgerEvent) : List LedgerEvent → SqliteLedgerStore × Bool
  | [] => (store, true)
  | event :: rest =>
    match deferring sha256 eventHash (call.deferAppend done.length) store
        (eventsProjection sha256 printPlan planJson (done ++ [event])) (fun projection =>
          .appendReplayed (callContext call store projection.projection) done event done.length
            .fileShadow) with
    | none => (store, false)
    | some store' => repairSuffix call planJson store' (done ++ [event]) rest

/-- Parity compares the file's replay with the typed terminal hash of the rows
    and the stored projection hash. -/
def parityOf (fileProjection : EventsProjection) (sqliteReplayHash : JsString)
    (current : PlanLedgerState) : SqliteLedgerParityStatus :=
  if fileProjection.replayHash = sqliteReplayHash
      ∧ fileProjection.projectionHash = current.terminalProjectionHash then .clean
  else .diverged

/-- Record parity when the state row does not hold it already. -/
def recordParityIfChanged (store : SqliteLedgerStore) (current : PlanLedgerState)
    (fileProjection : EventsProjection) (sqliteReplayHash : JsString) : SqliteLedgerStore :=
  if current.parityStatus ≠ parityOf fileProjection sqliteReplayHash current
      ∨ current.fileReplayHash ≠ some fileProjection.replayHash
      ∨ current.sqliteReplayHash ≠ some sqliteReplayHash then
    recordSqliteLedgerParity sha256 store fileProjection.replayHash sqliteReplayHash
      current.terminalProjectionHash (parityOf fileProjection sqliteReplayHash current)
  else store

/-- Cut over when parity is clean and another version started the shadow. -/
def cutoverIfDue (call : LedgerCallEnv) (store : SqliteLedgerStore) :
    SqliteLedgerStore × Except CoordinateError Unit :=
  match store.state with
  | none => (store, .error (.sqlite .noAuthorityState))
  | some refreshed =>
    match refreshed.shadowStartedVersion with
    | none => (store, .ok ())
    | some version =>
      if refreshed.parityStatus = .clean ∧ version ≠ call.packageVersion then
        match cutoverSqliteLedger store version with
        | .error err => (store, .error (.sqlite err))
        | .ok store' => (store', .ok ())
      else (store, .ok ())

/-- The tail of the `file_shadow` branch: parity, then cutover. -/
def recordParityAndCutover (call : LedgerCallEnv) (planJson : Option Plan)
    (store : SqliteLedgerStore) (events : List LedgerEvent) :
    SqliteLedgerStore × Except CoordinateError Unit :=
  match readSqliteLedgerEvents sha256 eventHash store with
  | .error err => (store, .error (.sqlite err))
  | .ok (rows, state) =>
    match eventsProjection sha256 printPlan planJson events with
    | .error err => (store, .error (.replay err))
    | .ok fileProjection =>
      match state with
      | none => (store, .error (.sqlite .noAuthorityState))
      | some current =>
        cutoverIfDue call (recordParityIfChanged sha256 store current fileProjection
          ((rows.getLast?.map LedgerEvent.planHashAfter).getD []))

/-- The file starts a ledger of another identity than the rows. -/
def reRootNeeded (file rows : List LedgerEvent) : Bool :=
  match file.head? with
  | none => false
  | some first =>
    first.seq == 1 && first.eventType == .planCreated
      && rows.head?.map LedgerEvent.planId != some first.planId

/-- From the prefix comparison on: repair the suffix, then parity. -/
def coordinateShadowRows (call : LedgerCallEnv) (disk : LedgerDisk) (file : FileLedgerRead)
    (rows : List LedgerEvent) : LedgerDisk × Except CoordinateError FileLedgerRead :=
  if !exactPrefix rows file.events then (disk, .error .committedPrefixDiverged)
  else
    match repairSuffix sha256 eventHash printPlan call disk.planJson disk.store rows
        (file.events.drop rows.length) with
    | (store, false) => ({ disk with store := store }, .ok file)
    | (store, true) =>
      match recordParityAndCutover sha256 eventHash printPlan call disk.planJson store
          file.events with
      | (store, .error err) => ({ disk with store := store }, .error err)
      | (store, .ok ()) => ({ disk with store := store }, .ok file)

/-- The `file_shadow` branch over the rows already read. -/
def coordinateFileShadow (call : LedgerCallEnv) (disk : LedgerDisk) (file : FileLedgerRead)
    (rows : List LedgerEvent) : LedgerDisk × Except CoordinateError FileLedgerRead :=
  if disk.file.isNone then
    ({ disk with file := some (rows.map .event) }, .ok (.ofEvents rows))
  else if file.truncated then
    if exactPrefix file.events rows then (disk, .ok file)
      else (disk, .error .malformedPrefixDiverged)
  else if reRootNeeded file.events rows then
    match tryReplace sha256 eventHash printPlan fileHash call disk file.events with
    | none => (disk, .ok file)
    | some store =>
      match readSqliteLedgerEvents sha256 eventHash store with
      | .error _ => ({ disk with store := store }, .ok file)
      | .ok (rows, _) =>
        coordinateShadowRows sha256 eventHash printPlan call { disk with store := store } file rows
  else coordinateShadowRows sha256 eventHash printPlan call disk file rows

/-- The `sqlite` branch: repair the portable export. -/
def coordinateSqlite (disk : LedgerDisk) (file : FileLedgerRead) (rows : List LedgerEvent) :
    LedgerDisk × Except CoordinateError FileLedgerRead :=
  if file.truncated ∨ file.events.length ≠ rows.length ∨ !exactPrefix file.events rows then
    ({ disk with file := some (rows.map .event) }, .ok (.ofEvents rows))
  else (disk, .ok (.ofEvents rows))

/-- The ledger that is read, after the file and the shadow are compared. -/
def coordinateLedger (call : LedgerCallEnv) (disk : LedgerDisk) :
    LedgerDisk × Except CoordinateError FileLedgerRead :=
  if disk.resetting then (disk, .ok (.ofEvents []))
  else
    let file := readFileLedgerExact disk.file
    if disk.store.events.isEmpty then
      if !file.events.isEmpty && !file.truncated then
        match tryImport sha256 eventHash printPlan fileHash call disk file.events with
        | none => (disk, .ok file)
        | some store => ({ disk with store := store }, .ok file)
      else (disk, .ok file)
    else
      match readSqliteLedgerEvents sha256 eventHash disk.store with
      | .error err => (disk, .error (.sqlite err))
      | .ok (_, none) => (disk, .error (.sqlite .noAuthorityState))
      | .ok (rows, some state) =>
        match state.authorityMode with
        | .fileShadow => coordinateFileShadow sha256 eventHash printPlan fileHash call disk file rows
        | .sqlite => coordinateSqlite disk file rows

end Coordinate

end OpencodeSwarm
