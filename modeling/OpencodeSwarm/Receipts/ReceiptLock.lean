/-
  OpencodeSwarm.Receipts.ReceiptLock

  The correctness lock of the receipt ledger
  (`src/hooks/knowledge-receipt-ledger-storage.ts`): a file created with `wx`, and a
  recovery that renames a lock away before it looks at whose it was.  Every
  file-system call and every liveness probe is one step of its task, with the local
  code up to the next of them.

  A process may run several tasks; `pidOf` says which process a task belongs to.
  The project root is one, and calls that only check or flush are left out.
-/
import OpencodeSwarm.Lib.FileNames
import OpencodeSwarm.Lib.JsString
import OpencodeSwarm.Lib.Transition

namespace OpencodeSwarm

open Js Posix

def UNINITIALIZED_LOCK_STALE_MS : Int := 30000

/-! ## Files -/

/-- `randomUUID()`: the task that drew it and which draw of its it was. -/
structure ReceiptToken where
  task : Nat
  draw : Nat
  deriving DecidableEq

/-- `LockOwner`, whose `root_identity` is the one root. -/
structure ReceiptLockOwner where
  ownerToken : ReceiptToken
  pid : Nat
  createdAtMs : Int
  deriving DecidableEq

/-- The text of a lock.  `other` bytes do not parse as an owner. -/
inductive ReceiptLockText where
  | empty
  | owner (owner : ReceiptLockOwner)
  | other (bytes : JsString)
  deriving DecidableEq

/-- A lock as `stat` and `readFile` see it. -/
structure ReceiptLockFile where
  text : ReceiptLockText
  mtimeMs : Int
  deriving DecidableEq

/-- `paths.lockTarget`, and its name `.<token>.recovering`. -/
inductive ReceiptLockPath where
  | lockTarget
  | recovering (token : ReceiptToken)
  deriving DecidableEq

/-- A file is known by the task that created it and its place among the files this one
    created. -/
structure ReceiptFileId where
  creator : Nat
  count : Nat
  deriving DecidableEq

abbrev ReceiptLockFiles := FileNames ReceiptLockPath ReceiptFileId ReceiptLockFile

def readLockOwner (files : ReceiptLockFiles) (path : ReceiptLockPath) : Option ReceiptLockOwner :=
  match files.read path with
  | some { text := .owner owner, mtimeMs := _ } => if 0 < owner.pid then some owner else none
  | _ => none

/-! ## Tasks -/

/-- The next call of `recoverLockIfSafe`. -/
inductive RecoverPc where
  | stat
  | readOwner (mtimeMs : Int)
  | probe (owner : ReceiptLockOwner)
  | rename (observed : Option ReceiptLockOwner)
  | statClaimed (observed : Option ReceiptLockOwner)
  | readClaimed (observed : Option ReceiptLockOwner) (claimedMtimeMs : Int)
  | reprobe (owner : ReceiptLockOwner)
  | rmClaimed
  | lockExists
  | renameBack

/-- Where a task stands.  From the creation on it goes with the file it created. -/
inductive ReceiptLockPc where
  | idle
  | create (owner : ReceiptLockOwner)
  | write (owner : ReceiptLockOwner) (file : ReceiptFileId)
  | validate (owner : ReceiptLockOwner) (file : ReceiptFileId)
  | recover (owner : ReceiptLockOwner) (token : ReceiptToken) (pc : RecoverPc)
  | retry (owner : ReceiptLockOwner)
  | held (owner : ReceiptLockOwner) (file : ReceiptFileId)
  | releaseRead (owner : ReceiptLockOwner) (file : ReceiptFileId)
  | releaseRm (owner : ReceiptLockOwner) (file : ReceiptFileId)

structure ReceiptTask where
  pc : ReceiptLockPc
  draws : Nat
  created : Nat

structure ReceiptLockWorld where
  files : ReceiptLockFiles
  now : Int
  alive : Nat → Bool
  tasks : Nat → ReceiptTask

namespace ReceiptTask

def goto (task : ReceiptTask) (pc : ReceiptLockPc) : ReceiptTask := { task with pc }

end ReceiptTask

/-! ## Steps -/

section Steps

variable (pidOf : Nat → Nat)

/-- `isProcessAlive`.  A dead process may still be taken for a live one when the probe of
    its state fails. -/
def probeAlive (w : ReceiptLockWorld) (pid : Nat) (mistaken : Bool) : Bool :=
  w.alive pid || mistaken

/-- One step of `recoverLockIfSafe`; the answer is the files and how the task goes on. -/
def recoverStep (w : ReceiptLockWorld) (owner : ReceiptLockOwner) (token : ReceiptToken)
    (choice : Bool) : RecoverPc → ReceiptLockFiles × ReceiptLockPc
  | .stat =>
    match w.files.read .lockTarget with
    | none => (w.files, .retry owner)
    | some info => (w.files, .recover owner token (.readOwner info.mtimeMs))
  | .readOwner mtimeMs =>
    match readLockOwner w.files .lockTarget with
    | some observed => (w.files, .recover owner token (.probe observed))
    | none =>
      if w.now - mtimeMs < UNINITIALIZED_LOCK_STALE_MS then (w.files, .retry owner)
      else (w.files, .recover owner token (.rename none))
  | .probe observed =>
    if probeAlive w observed.pid choice then (w.files, .retry owner)
    else (w.files, .recover owner token (.rename (some observed)))
  | .rename observed =>
    match w.files.rename .lockTarget (.recovering token) with
    | none => (w.files, .retry owner)
    | some files => (files, .recover owner token (.statClaimed observed))
  | .statClaimed observed =>
    match w.files.read (.recovering token) with
    | none => (w.files, .idle)
    | some info => (w.files, .recover owner token (.readClaimed observed info.mtimeMs))
  | .readClaimed observed claimedMtimeMs =>
    let claimedOwner := readLockOwner w.files (.recovering token)
    match observed with
    | some observed =>
      if claimedOwner.map ReceiptLockOwner.ownerToken = some observed.ownerToken then
        (w.files, .recover owner token (.reprobe observed))
      else (w.files, .recover owner token .lockExists)
    | none =>
      if claimedOwner.isNone && decide (UNINITIALIZED_LOCK_STALE_MS ≤ w.now - claimedMtimeMs) then
        (w.files, .recover owner token .rmClaimed)
      else (w.files, .recover owner token .lockExists)
  | .reprobe observed =>
    if probeAlive w observed.pid choice then (w.files, .recover owner token .lockExists)
    else (w.files, .recover owner token .rmClaimed)
  | .rmClaimed => (w.files.setName (.recovering token) none, .retry owner)
  | .lockExists =>
    match w.files.names .lockTarget with
    | none => (w.files, .recover owner token .renameBack)
    | some _ =>
      -- `store_unavailable`: the claimed file stays where it is
      (w.files, .idle)
  | .renameBack =>
    match w.files.rename (.recovering token) .lockTarget with
    | none => (w.files, .idle)
    | some files => (files, .retry owner)

/-- One step of `acquireReceiptLock`, or of the release that it hands out. -/
def taskStep (w : ReceiptLockWorld) (task : Nat) (choice : Bool) :
    ReceiptLockFiles × ReceiptTask :=
  let self := w.tasks task
  match self.pc with
  | .idle => (w.files, self)
  | .create owner =>
    match w.files.create .lockTarget ⟨task, self.created⟩ { text := .empty, mtimeMs := w.now } with
    | some files =>
      (files,
        { self with pc := .write owner ⟨task, self.created⟩, created := self.created + 1 })
    | none =>
      (w.files,
        { self with
          pc := .recover owner { task, draw := self.draws } .stat
          draws := self.draws + 1 })
  | .write owner file =>
    (w.files.write file { text := .owner owner, mtimeMs := w.now },
      self.goto (.validate owner file))
  | .validate owner file => (w.files, self.goto (.held owner file))
  | .recover owner token pc =>
    let next := recoverStep w owner token choice pc
    (next.1, self.goto next.2)
  | .retry owner =>
    -- past the deadline the acquire gives up
    (w.files, self.goto (if choice then .create owner else .idle))
  | .held owner file => (w.files, self.goto (.releaseRead owner file))
  | .releaseRead owner file =>
    if (readLockOwner w.files .lockTarget).map ReceiptLockOwner.ownerToken = some owner.ownerToken
    then (w.files, self.goto (.releaseRm owner file))
    else (w.files, self.goto .idle)
  | .releaseRm _ _ => (w.files.setName .lockTarget none, self.goto .idle)

/-! ## The system -/

inductive ReceiptLockEvent where
  | tick (ms : Nat)
  | crash (pid : Nat)
  | acquire (task : Nat)
  | run (task : Nat) (choice : Bool)

/-- One event.  A dead process does nothing any more, and its pid is not reused. -/
def receiptLockStep (w : ReceiptLockWorld) : ReceiptLockEvent → ReceiptLockWorld
  | .tick ms => { w with now := w.now + ms }
  | .crash pid => { w with alive := Function.update w.alive pid false }
  | .acquire task =>
    match w.alive (pidOf task), (w.tasks task).pc with
    | true, .idle =>
      let self := w.tasks task
      let owner : ReceiptLockOwner :=
        { ownerToken := { task, draw := self.draws }, pid := pidOf task, createdAtMs := w.now }
      { w with
        tasks := Function.update w.tasks task
          { self with pc := .create owner, draws := self.draws + 1 } }
    | _, _ => w
  | .run task choice =>
    if w.alive (pidOf task) then
      { w with
        files := (taskStep w task choice).1
        tasks := Function.update w.tasks task (taskStep w task choice).2 }
    else w

end Steps

end OpencodeSwarm
