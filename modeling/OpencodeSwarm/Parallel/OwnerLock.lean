/-
  OpencodeSwarm.Parallel.OwnerLock

  The owner lock of `file-locks.ts`: a `.lck` file created with `wx`, the break
  marker beside it, and the three calls that race on them.  Every file-system
  call and every liveness probe is one step of its process; the local code up to
  the next of them belongs to the step, as do its reads of the clock.
-/
import OpencodeSwarm.Lib.FileNames
import OpencodeSwarm.Lib.JsString
import OpencodeSwarm.Lib.Transition

namespace OpencodeSwarm

open Js Posix

def LOCK_TIMEOUT_MS : Int := 5 * 60 * 1000

def MARKER_STALE_MS : Int := 60 * 1000

/-! ## Files -/

/-- `newNonce()`: eight random bytes, here the process that drew them and which
    draw of its it was. -/
structure LockNonce where
  pid : Nat
  draw : Nat
  deriving DecidableEq, Repr

/-- `OwnerLockPayload`, whose `v` is 1. -/
structure OwnerLockPayload where
  nonce : LockNonce
  ownerPid : Int
  startBoundMs : Int
  agent : JsString
  taskId : JsString
  acquiredAtMs : Int
  deriving DecidableEq

/-- `MarkerPayload`, whose `v` is 1. -/
structure MarkerPayload where
  breakerPid : Int
  nonce : LockNonce
  createdAtMs : Int
  deriving DecidableEq

/-- The text of a lock artifact.  `other` bytes are no JSON of the two kinds. -/
inductive LockText where
  | empty
  | owner (payload : OwnerLockPayload)
  | marker (payload : MarkerPayload)
  | other (bytes : JsString)
  deriving DecidableEq

/-- `ownerLockPath`, `markerPathFor(ownerLockPath)`, and the names beside the
    marker: `.cand.<nonce>` and `.take.<nonce>`. -/
inductive LockPath where
  | lock
  | marker
  | candidate (nonce : LockNonce)
  | taken (nonce : LockNonce)
  deriving DecidableEq

/-- A file is known by the process that created it and its place among the files
    this one created. -/
structure LockFileId where
  creator : Nat
  count : Nat
  deriving DecidableEq

abbrev LockFiles := FileNames LockPath LockFileId LockText

/-- `parseOwnerPayload`: another shape, or a pid below 1, is no owner. -/
def parseOwnerPayload : Option LockText → Option OwnerLockPayload
  | some (.owner payload) => if 0 < payload.ownerPid then some payload else none
  | _ => none

def readMarker (files : LockFiles) (path : LockPath) : Option MarkerPayload :=
  match files.read path with
  | some (.marker payload) => some payload
  | _ => none

/-! ## Processes -/

inductive StaleLockBreakResult where
  | broken
  | live
  | unknown
  deriving DecidableEq

/-- The two marker checks of an acquire; behind the second the lock is written. -/
inductive MarkerCheck where
  | beforeCreate
  | afterWrite (payload : OwnerLockPayload)

/-- What `breakStaleLockIfOwnerDead` carries from its pre-validation on. -/
structure BreakAttempt where
  rawBefore : LockText
  parsedBefore : OwnerLockPayload
  nonce : LockNonce

/-- The next call of `acquireOwnerLockOnce`. -/
inductive AcquirePc where
  | markerExists (check : MarkerCheck)
  | markerRead (check : MarkerCheck)
  | breakerProbe (check : MarkerCheck) (marker : MarkerPayload)
  | lockCreate
  | payloadWrite (file : LockFileId) (payload : OwnerLockPayload)
  | selfRelease (payload : OwnerLockPayload)

/-- The next call of `releaseOwnerLock`; `ours` is the answer of
    `acquiredNonces`. -/
inductive ReleasePc where
  | payloadRead (self : OwnerLockPayload) (ours : Bool)
  | lockUnlink (self : OwnerLockPayload) (ours : Bool)
  | lockUnlinkAgain (self : OwnerLockPayload)

/-- The next call of `breakStaleLockIfOwnerDead`. -/
inductive BreakPc where
  | payloadRead (deadlineMs : Option Int)
  | ownerProbe (deadlineMs : Option Int) (rawBefore : LockText) (parsedBefore : OwnerLockPayload)
  | markerExists (attempt : BreakAttempt)
  | markerRead (attempt : BreakAttempt)
  | breakerProbe (attempt : BreakAttempt) (marker : MarkerPayload)
  | takeOver (attempt : BreakAttempt)
  | takenUnlink (attempt : BreakAttempt)
  | candidateCreate (attempt : BreakAttempt) (ourMarker : MarkerPayload)
  | candidateWrite (attempt : BreakAttempt) (ourMarker : MarkerPayload) (file : LockFileId)
  | candidateLink (attempt : BreakAttempt)
  | candidateUnlink (attempt : BreakAttempt) (published : Bool)
  | payloadReread (attempt : BreakAttempt)
  | ownerReprobe (attempt : BreakAttempt)
  | lockUnlink (attempt : BreakAttempt)
  | ownMarkerRead (attempt : BreakAttempt) (result : StaleLockBreakResult)
  | ownMarkerUnlink (attempt : BreakAttempt) (result : StaleLockBreakResult)

/-- Where a process stands; its JavaScript runs one call at a time. -/
inductive LockPc where
  | idle
  | acquire (pc : AcquirePc) (agent taskId : JsString) (startBoundMs : Int)
  | release (pc : ReleasePc)
  | breakStale (pc : BreakPc)

/-- One process.  `acquired` are the payloads of its successful acquires, whose
    releases it may call; `held` those of them not released yet. -/
structure LockProcess where
  alive : Bool
  pc : LockPc
  draws : Nat
  created : Nat
  acquired : List OwnerLockPayload
  held : List OwnerLockPayload
  acquiredNonce : Option LockNonce
  breakAttemptAt : Option Int
  breakResult : Option StaleLockBreakResult

structure LockWorld where
  files : LockFiles
  now : Int
  procs : Nat → LockProcess

def isPidAlive (w : LockWorld) (pid : Int) : Bool :=
  decide (0 < pid) && (w.procs pid.toNat).alive

/-! ## `acquireOwnerLockOnce` -/

namespace LockProcess

/-- An unsuccessful attempt returns. -/
def refused (proc : LockProcess) : LockProcess := { proc with pc := .idle }

/-- The attempt returns with the lock. -/
def gotLock (proc : LockProcess) (payload : OwnerLockPayload) : LockProcess :=
  { proc with
    pc := .idle
    acquired := payload :: proc.acquired
    held := payload :: proc.held
    acquiredNonce := some payload.nonce }

/-- Behind a check that found no live breaker. -/
def unblocked (proc : LockProcess) (check : MarkerCheck) (agent taskId : JsString)
    (startBoundMs : Int) : LockProcess :=
  match check with
  | .beforeCreate => { proc with pc := .acquire .lockCreate agent taskId startBoundMs }
  | .afterWrite payload => proc.gotLock payload

/-- Behind a check that found a live breaker. -/
def blocked (proc : LockProcess) (check : MarkerCheck) (agent taskId : JsString)
    (startBoundMs : Int) : LockProcess :=
  match check with
  | .beforeCreate => proc.refused
  | .afterWrite payload =>
      { proc with pc := .acquire (.selfRelease payload) agent taskId startBoundMs }

@[simp] theorem unblocked_alive (proc : LockProcess) (check : MarkerCheck)
    (agent taskId : JsString) (startBoundMs : Int) :
    (proc.unblocked check agent taskId startBoundMs).alive = proc.alive := by
  cases check <;> rfl

@[simp] theorem unblocked_created (proc : LockProcess) (check : MarkerCheck)
    (agent taskId : JsString) (startBoundMs : Int) :
    (proc.unblocked check agent taskId startBoundMs).created = proc.created := by
  cases check <;> rfl

@[simp] theorem blocked_alive (proc : LockProcess) (check : MarkerCheck)
    (agent taskId : JsString) (startBoundMs : Int) :
    (proc.blocked check agent taskId startBoundMs).alive = proc.alive := by
  cases check <;> rfl

@[simp] theorem blocked_created (proc : LockProcess) (check : MarkerCheck)
    (agent taskId : JsString) (startBoundMs : Int) :
    (proc.blocked check agent taskId startBoundMs).created = proc.created := by
  cases check <;> rfl

/-- The file of its next `openSync`. -/
def createdFile (proc : LockProcess) (pid : Nat) : LockFileId := ⟨pid, proc.created⟩

/-- The nonce of its next draw. -/
def nextNonce (proc : LockProcess) (pid : Nat) : LockNonce := ⟨pid, proc.draws⟩

end LockProcess

/-- The files and the process after one step of `acquireOwnerLockOnce`. -/
def acquireStep (w : LockWorld) (pid : Nat) (pc : AcquirePc) (agent taskId : JsString)
    (startBoundMs : Int) : LockFiles × LockProcess :=
  let proc := w.procs pid
  match pc with
  | .markerExists check =>
      match w.files.names .marker with
      | none => (w.files, proc.unblocked check agent taskId startBoundMs)
      | some _ =>
          (w.files, { proc with pc := .acquire (.markerRead check) agent taskId startBoundMs })
  | .markerRead check =>
      match readMarker w.files .marker with
      | none => (w.files, proc.unblocked check agent taskId startBoundMs)
      | some marker =>
          (w.files,
            { proc with pc := .acquire (.breakerProbe check marker) agent taskId startBoundMs })
  | .breakerProbe check marker =>
      if isPidAlive w marker.breakerPid then
        (w.files, proc.blocked check agent taskId startBoundMs)
      else
        (w.files, proc.unblocked check agent taskId startBoundMs)
  | .lockCreate =>
      match w.files.create .lock (proc.createdFile pid) .empty with
      | none => (w.files, proc.refused)
      | some files =>
          let payload : OwnerLockPayload :=
            { nonce := proc.nextNonce pid
              ownerPid := pid
              startBoundMs := startBoundMs
              agent := agent
              taskId := taskId
              acquiredAtMs := w.now }
          (files,
            { proc with
              pc := .acquire (.payloadWrite (proc.createdFile pid) payload) agent taskId
                startBoundMs
              draws := proc.draws + 1
              created := proc.created + 1 })
  | .payloadWrite file payload =>
      (w.files.write file (.owner payload),
        { proc with
          pc := .acquire (.markerExists (.afterWrite payload)) agent taskId startBoundMs })
  | .selfRelease _ =>
      -- a failing unlink is ignored
      ((w.files.unlink .lock).getD w.files, proc.refused)

/-! ## `releaseOwnerLock` -/

/-- The `finally` of a release, and its return. -/
def LockProcess.released (proc : LockProcess) (self : OwnerLockPayload) : LockProcess :=
  { proc with
    pc := .idle
    held := proc.held.filter (· ≠ self)
    acquiredNonce := none }

/-- `identityMatch`: the payload on disk names this generation. -/
def identityMatch (current : Option OwnerLockPayload) (self : OwnerLockPayload) : Bool :=
  match current with
  | none => false
  | some current =>
      current.ownerPid = self.ownerPid ∧ current.startBoundMs = self.startBoundMs
        ∧ current.nonce = self.nonce

/-- The files and the process after one step of `releaseOwnerLock`. -/
def releaseStep (w : LockWorld) (pid : Nat) (pc : ReleasePc) : LockFiles × LockProcess :=
  let proc := w.procs pid
  match pc with
  | .payloadRead self ours =>
      if !identityMatch (parseOwnerPayload (w.files.read .lock)) self && !ours then
        (w.files, proc.released self)
      else
        (w.files, { proc with pc := .release (.lockUnlink self ours) })
  | .lockUnlink self ours =>
      match w.files.unlink .lock with
      | some files => (files, proc.released self)
      | none =>
          -- the `catch` falls back to the acquire record
          if ours then (w.files, { proc with pc := .release (.lockUnlinkAgain self) })
          else (w.files, proc.released self)
  | .lockUnlinkAgain self =>
      ((w.files.unlink .lock).getD w.files, proc.released self)

/-! ## `breakStaleLockIfOwnerDead`, of class `dead-owner` -/

def cooldownAllows (proc : LockProcess) (now : Int) : Bool :=
  match proc.breakAttemptAt with
  | none => true
  | some last => LOCK_TIMEOUT_MS ≤ now - last

namespace LockProcess

/-- The call returns. -/
def breakReturns (proc : LockProcess) (result : StaleLockBreakResult) : LockProcess :=
  { proc with pc := .idle, breakResult := some result }

/-- The call goes on. -/
def breakAt (proc : LockProcess) (pc : BreakPc) : LockProcess := { proc with pc := .breakStale pc }

/-- No marker is in the way: `ourMarker` is composed for its candidate file. -/
def publishing (proc : LockProcess) (pid : Nat) (now : Int) (attempt : BreakAttempt) :
    LockProcess :=
  proc.breakAt (.candidateCreate attempt
    { breakerPid := pid, nonce := attempt.nonce, createdAtMs := now })

end LockProcess

/-- The files and the process after one step of `breakStaleLockIfOwnerDead`. -/
def breakStep (w : LockWorld) (pid : Nat) (pc : BreakPc) : LockFiles × LockProcess :=
  let proc := w.procs pid
  match pc with
  | .payloadRead deadlineMs =>
      match w.files.read .lock with
      | none => (w.files, proc.breakReturns .unknown)
      | some rawBefore =>
          match parseOwnerPayload (some rawBefore) with
          | none => (w.files, proc.breakReturns .unknown)
          | some parsedBefore =>
              (w.files, proc.breakAt (.ownerProbe deadlineMs rawBefore parsedBefore))
  | .ownerProbe deadlineMs rawBefore parsedBefore =>
      if isPidAlive w parsedBefore.ownerPid then
        (w.files, proc.breakReturns .live)
      else if deadlineMs.any (· < 1500) then
        (w.files, proc.breakReturns .unknown)
      else
        let attempt : BreakAttempt :=
          { rawBefore := rawBefore, parsedBefore := parsedBefore, nonce := proc.nextNonce pid }
        (w.files, { proc.breakAt (.markerExists attempt) with draws := proc.draws + 1 })
  | .markerExists attempt =>
      match w.files.names .marker with
      | none => (w.files, proc.publishing pid w.now attempt)
      | some _ => (w.files, proc.breakAt (.markerRead attempt))
  | .markerRead attempt =>
      match readMarker w.files .marker with
      | none => (w.files, proc.breakReturns .unknown)
      | some marker => (w.files, proc.breakAt (.breakerProbe attempt marker))
  | .breakerProbe attempt marker =>
      if isPidAlive w marker.breakerPid then
        (w.files, proc.breakReturns .live)
      else if w.now - marker.createdAtMs ≤ MARKER_STALE_MS then
        (w.files, proc.breakReturns .unknown)
      else
        (w.files, proc.breakAt (.takeOver attempt))
  | .takeOver attempt =>
      -- whatever the marker is by now
      match w.files.rename .marker (.taken attempt.nonce) with
      | none => (w.files, proc.breakReturns .unknown)
      | some files => (files, proc.breakAt (.takenUnlink attempt))
  | .takenUnlink attempt =>
      ((w.files.unlink (.taken attempt.nonce)).getD w.files, proc.publishing pid w.now attempt)
  | .candidateCreate attempt ourMarker =>
      match w.files.create (.candidate attempt.nonce) (proc.createdFile pid) .empty with
      | none => (w.files, proc.breakAt (.candidateUnlink attempt false))
      | some files =>
          (files,
            { proc.breakAt (.candidateWrite attempt ourMarker (proc.createdFile pid)) with
              created := proc.created + 1 })
  | .candidateWrite attempt ourMarker file =>
      (w.files.write file (.marker ourMarker), proc.breakAt (.candidateLink attempt))
  | .candidateLink attempt =>
      match w.files.link (.candidate attempt.nonce) .marker with
      | none => (w.files, proc.breakAt (.candidateUnlink attempt false))
      | some files => (files, proc.breakAt (.candidateUnlink attempt true))
  | .candidateUnlink attempt published =>
      let files := (w.files.unlink (.candidate attempt.nonce)).getD w.files
      if published then
        -- `recordBreakAttempt`: from here on the break right is held
        (files, { proc.breakAt (.payloadReread attempt) with breakAttemptAt := some w.now })
      else
        (files, proc.breakReturns .live)
  | .payloadReread attempt =>
      if w.files.read .lock ≠ some attempt.rawBefore then
        (w.files, proc.breakAt (.ownMarkerRead attempt .unknown))
      else
        (w.files, proc.breakAt (.ownerReprobe attempt))
  | .ownerReprobe attempt =>
      if isPidAlive w attempt.parsedBefore.ownerPid then
        (w.files, proc.breakAt (.ownMarkerRead attempt .live))
      else
        (w.files, proc.breakAt (.lockUnlink attempt))
  | .lockUnlink attempt =>
      match w.files.unlink .lock with
      | none => (w.files, proc.breakAt (.ownMarkerRead attempt .unknown))
      | some files =>
          (files,
            { proc.breakAt (.ownMarkerRead attempt .broken) with acquiredNonce := none })
  | .ownMarkerRead attempt result =>
      -- `removeOwnMarker`
      if (readMarker w.files .marker).any (·.nonce = attempt.nonce) then
        (w.files, proc.breakAt (.ownMarkerUnlink attempt result))
      else
        (w.files, proc.breakReturns result)
  | .ownMarkerUnlink _ result =>
      ((w.files.unlink .marker).getD w.files, proc.breakReturns result)

/-! ## The system -/

/-- What an idle process may call. -/
inductive LockCall where
  | acquireOwnerLockOnce (agent taskId : JsString) (startBoundMs : Int)
  | releaseOwnerLock (self : OwnerLockPayload)
  | breakStaleLockIfOwnerDead (deadlineMs : Option Int)

inductive LockEvent where
  | tick (ms : Nat)
  | crash (pid : Nat)
  | call (pid : Nat) (call : LockCall)
  | run (pid : Nat)

/-- The local code of a call up to its first step. -/
def LockProcess.enter (proc : LockProcess) (now : Int) : LockCall → LockProcess
  | .acquireOwnerLockOnce agent taskId startBoundMs =>
      { proc with pc := .acquire (.markerExists .beforeCreate) agent taskId startBoundMs }
  | .releaseOwnerLock self =>
      -- only a successful acquire hands out a release
      if self ∈ proc.acquired then
        { proc with pc := .release (.payloadRead self (proc.acquiredNonce = some self.nonce)) }
      else proc
  | .breakStaleLockIfOwnerDead deadlineMs =>
      if deadlineMs.any (· ≤ 0) then proc.breakReturns .unknown
      else if !cooldownAllows proc now then proc.breakReturns .live
      else proc.breakAt (.payloadRead deadlineMs)

/-- One step of the call a process is in. -/
def runStep (w : LockWorld) (pid : Nat) : LockFiles × LockProcess :=
  match (w.procs pid).pc with
  | .idle => (w.files, w.procs pid)
  | .acquire pc agent taskId startBoundMs => acquireStep w pid pc agent taskId startBoundMs
  | .release pc => releaseStep w pid pc
  | .breakStale pc => breakStep w pid pc

/-- One process replaced. -/
def LockWorld.setProc (w : LockWorld) (pid : Nat) (files : LockFiles) (proc : LockProcess) :
    LockWorld :=
  { w with files := files, procs := Function.update w.procs pid proc }

/-- One event.  A dead process does nothing any more, and its pid is not reused. -/
def lockStep (w : LockWorld) : LockEvent → LockWorld
  | .tick ms => { w with now := w.now + ms }
  | .crash pid => w.setProc pid w.files { w.procs pid with alive := false }
  | .call pid call =>
      match (w.procs pid).alive, (w.procs pid).pc with
      | true, .idle => w.setProc pid w.files ((w.procs pid).enter w.now call)
      | _, _ => w
  | .run pid =>
      if (w.procs pid).alive then w.setProc pid (runStep w pid).1 (runStep w pid).2 else w

end OpencodeSwarm
