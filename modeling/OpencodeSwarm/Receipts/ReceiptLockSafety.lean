/-
  OpencodeSwarm.Receipts.ReceiptLockSafety

  Mutual exclusion of the receipt lock.  A task that is in the lock has its own file
  at the lock path, and what takes a file away from there is its own release or the
  rename of a recovery, which does not know whose file it takes.
-/
import OpencodeSwarm.Receipts.ReceiptLock

namespace OpencodeSwarm

open Js Posix Transition

/-- The file that a task has created and not released. -/
def ReceiptLockPc.file? : ReceiptLockPc → Option ReceiptFileId
  | .write _ file | .validate _ file | .held _ file | .releaseRead _ file
  | .releaseRm _ file => some file
  | .idle | .create _ | .recover _ _ _ | .retry _ => none

/-- The task is behind a successful acquire, and its release is not done. -/
def ReceiptLockPc.holds : ReceiptLockPc → Bool
  | .held _ _ | .releaseRead _ _ | .releaseRm _ _ => true
  | _ => false

/-- No two tasks of live processes hold the lock. -/
def ReceiptLockExclusive (pidOf : Nat → Nat) (w : ReceiptLockWorld) : Prop :=
  ∀ s t, w.alive (pidOf s) = true → w.alive (pidOf t) = true → (w.tasks s).pc.holds = true →
    (w.tasks t).pc.holds = true → s = t

/-- A recovery is about to rename the lock of a live process away, or to put a lock back
    over another one. -/
def renamesOverLiveLock (pidOf : Nat → Nat) (w : ReceiptLockWorld) : ReceiptLockEvent → Bool
  | .run task _ =>
    match (w.tasks task).pc with
    | .recover _ _ (.rename _) =>
      (w.files.names .lockTarget).any fun file => w.alive (pidOf file.creator)
    | .recover _ _ .renameBack => (w.files.names .lockTarget).isSome
    | _ => false
  | .tick _ | .crash _ | .acquire _ => false

/-- The tasks of live processes have not begun. -/
def ReceiptLockStart (pidOf : Nat → Nat) (w : ReceiptLockWorld) : Prop :=
  ∀ task, w.alive (pidOf task) = true → (w.tasks task).pc.file? = none

/-- A live task that has a file has it at the lock path. -/
def OwnFilesLocked (pidOf : Nat → Nat) (w : ReceiptLockWorld) : Prop :=
  ∀ task file, w.alive (pidOf task) = true → (w.tasks task).pc.file? = some file →
    w.files.names .lockTarget = some file ∧ file.creator = task

section Invariant

variable {pidOf : Nat → Nat} {w : ReceiptLockWorld} {task : Nat}

theorem OwnFilesLocked.exclusive (h : OwnFilesLocked pidOf w) : ReceiptLockExclusive pidOf w := by
  have hfile : ∀ pc : ReceiptLockPc, pc.holds = true → ∃ file, pc.file? = some file := by
    intro pc hpc
    cases pc with
    | held _ file | releaseRead _ file | releaseRm _ file => exact ⟨file, rfl⟩
    | idle | create | write | validate | recover | retry => cases hpc
  intro s t hs ht hsHolds htHolds
  obtain ⟨file, hsFile⟩ := hfile _ hsHolds
  obtain ⟨other, htFile⟩ := hfile _ htHolds
  obtain ⟨hlock, rfl⟩ := h s file hs hsFile
  obtain ⟨hlock', rfl⟩ := h t other ht htFile
  rw [hlock] at hlock'
  cases hlock'
  rfl

/-- A lock path that is free, or led to the file of a dead process, locks no live task. -/
theorem OwnFilesLocked.no_file (h : OwnFilesLocked pidOf w)
    (hlock : ∀ file, w.files.names .lockTarget = some file → w.alive (pidOf file.creator) = false)
    (halive : w.alive (pidOf task) = true) : (w.tasks task).pc.file? = none := by
  cases hfile : (w.tasks task).pc.file? with
  | none => rfl
  | some file =>
    obtain ⟨hname, rfl⟩ := h task file halive hfile
    rw [hlock file hname] at halive
    cases halive

variable {files : ReceiptLockFiles} {self : ReceiptTask}

/-- A task moves, and the lock path stays as it is for the others. -/
theorem OwnFilesLocked.moved (h : OwnFilesLocked pidOf w)
    (hself : ∀ file, self.pc.file? = some file →
      files.names .lockTarget = some file ∧ file.creator = task)
    (hothers : ∀ other file, other ≠ task → w.alive (pidOf other) = true →
      (w.tasks other).pc.file? = some file → files.names .lockTarget = some file) :
    OwnFilesLocked pidOf { w with files, tasks := Function.update w.tasks task self } := by
  intro other file halive hfile
  by_cases heq : other = task
  · subst heq
    change (Function.update w.tasks other self other).pc.file? = some file at hfile
    rw [Function.update_self] at hfile
    exact hself file hfile
  · change (Function.update w.tasks task self other).pc.file? = some file at hfile
    rw [Function.update_of_ne heq] at hfile
    exact ⟨hothers other file heq halive hfile, (h other file halive hfile).2⟩

/-- A step that leaves the lock path alone, to a place with the same file or none. -/
theorem OwnFilesLocked.kept (h : OwnFilesLocked pidOf w) (halive : w.alive (pidOf task) = true)
    (hnames : files.names .lockTarget = w.files.names .lockTarget)
    (hself : self.pc.file? = none ∨ self.pc.file? = (w.tasks task).pc.file?) :
    OwnFilesLocked pidOf { w with files, tasks := Function.update w.tasks task self } := by
  refine h.moved (fun file hfile => ?_) fun other file _ hother hfile => ?_
  · rw [hnames]
    rcases hself with hnone | hsame
    · rw [hnone] at hfile
      cases hfile
    · exact h task file halive (hsame ▸ hfile)
  · rw [hnames]
    exact (h other file hother hfile).1

theorem OwnFilesLocked.unlocked (h : OwnFilesLocked pidOf w)
    (hnone : ∀ other, w.alive (pidOf other) = true → (w.tasks other).pc.file? = none)
    (hself : self.pc.file? = none) :
    OwnFilesLocked pidOf { w with files, tasks := Function.update w.tasks task self } := by
  refine h.moved (fun file hfile => ?_) fun other file _ hother hfile => ?_
  · rw [hself] at hfile
    cases hfile
  · rw [hnone other hother] at hfile
    cases hfile

theorem recoverStep_file? (owner : ReceiptLockOwner) (token : ReceiptToken) (choice : Bool)
    (pc : RecoverPc) : (recoverStep w owner token choice pc).2.file? = none := by
  cases pc with
  | rmClaimed => rfl
  | stat | probe | rename | statClaimed | reprobe | lockExists | renameBack =>
    dsimp only [recoverStep]
    split <;> rfl
  | readOwner =>
    dsimp only [recoverStep]
    split
    · rfl
    · split <;> rfl
  | readClaimed observed =>
    cases observed with
    | none | some =>
      dsimp only [recoverStep]
      split <;> rfl

/-- Outside the two renames a recovery leaves the lock path alone. -/
theorem recoverStep_lockTarget (owner : ReceiptLockOwner) (token : ReceiptToken) (choice : Bool)
    {pc : RecoverPc} (hrename : ∀ observed, pc ≠ .rename observed) (hback : pc ≠ .renameBack) :
    (recoverStep w owner token choice pc).1.names .lockTarget = w.files.names .lockTarget := by
  cases pc with
  | rename observed => exact absurd rfl (hrename observed)
  | renameBack => exact absurd rfl hback
  | rmClaimed =>
    refine FileNames.setName_names_of_ne ?_
    intro heq
    cases heq
  | stat | probe | statClaimed | reprobe | lockExists =>
    dsimp only [recoverStep]
    split <;> rfl
  | readOwner =>
    dsimp only [recoverStep]
    split
    · rfl
    · split <;> rfl
  | readClaimed observed =>
    cases observed with
    | none | some =>
      dsimp only [recoverStep]
      split <;> rfl

/-- A step of a live task keeps the invariant when its recovery renames no live lock. -/
theorem OwnFilesLocked.taskStep (h : OwnFilesLocked pidOf w) (choice : Bool)
    (halive : w.alive (pidOf task) = true)
    (hguard : renamesOverLiveLock pidOf w (.run task choice) = false) :
    OwnFilesLocked pidOf { w with
        files := (taskStep w task choice).1
        tasks := Function.update w.tasks task (taskStep w task choice).2 } := by
  unfold renamesOverLiveLock at hguard
  unfold OpencodeSwarm.taskStep
  dsimp only
  cases hpc : (w.tasks task).pc with
  | idle => exact h.kept halive rfl (Or.inr rfl)
  | create owner =>
    dsimp only
    cases hcreate : w.files.create .lockTarget ⟨task, (w.tasks task).created⟩
        { text := .empty, mtimeMs := w.now } with
    | none => exact h.kept halive rfl (Or.inl rfl)
    | some files =>
      obtain ⟨hfree, rfl⟩ := FileNames.create_eq_some hcreate
      refine h.moved (fun file hfile => ?_) fun other file _ hother hfile => ?_
      · cases hfile
        exact ⟨FileNames.setName_names_self, rfl⟩
      · -- the path was free, so nobody else is in the lock
        have hname := (h other file hother hfile).1
        rw [hfree] at hname
        cases hname
  | write owner file | validate owner file | held owner file =>
    exact h.kept halive rfl (Or.inr (by rw [hpc]; rfl))
  | retry owner =>
    refine h.kept halive rfl (Or.inl ?_)
    dsimp only [ReceiptTask.goto]
    split <;> rfl
  | releaseRead owner file =>
    dsimp only
    split
    · exact h.kept halive rfl (Or.inr (by rw [hpc]; rfl))
    · exact h.kept halive rfl (Or.inl rfl)
  | releaseRm owner file =>
    refine h.moved (fun file hfile => nomatch hfile) fun other file' hne hother hfile => ?_
    -- the file that goes is the task's own, so no other task has it
    obtain ⟨hname, hcreator⟩ := h task file halive (by rw [hpc]; rfl)
    obtain ⟨hname', hcreator'⟩ := h other file' hother hfile
    rw [hname] at hname'
    cases hname'
    exact absurd (hcreator'.symm.trans hcreator) hne
  | recover owner token pc =>
    dsimp only at hguard
    rw [hpc] at hguard
    have hnoFile : (recoverStep w owner token choice pc).2.file? = none :=
      recoverStep_file? owner token choice pc
    by_cases hrename : ∃ observed, pc = .rename observed
    · obtain ⟨observed, rfl⟩ := hrename
      refine h.unlocked (fun other hother => h.no_file (fun file hname => ?_) hother) hnoFile
      dsimp only at hguard
      rw [hname, Option.any_some] at hguard
      exact hguard
    by_cases hback : pc = .renameBack
    · subst hback
      refine h.unlocked (fun other hother => h.no_file (fun file hname => ?_) hother) hnoFile
      dsimp only at hguard
      rw [hname] at hguard
      cases hguard
    · have hnames : (recoverStep w owner token choice pc).1.names .lockTarget
          = w.files.names .lockTarget :=
        recoverStep_lockTarget owner token choice (fun observed heq => hrename ⟨observed, heq⟩)
          hback
      exact h.kept halive hnames (Or.inl hnoFile)

theorem OwnFilesLocked.step (h : OwnFilesLocked pidOf w) {event : ReceiptLockEvent}
    (hguard : renamesOverLiveLock pidOf w event = false) :
    OwnFilesLocked pidOf (receiptLockStep pidOf w event) := by
  cases event with
  | tick ms => exact h
  | crash pid =>
    intro task file halive hfile
    refine h task file ?_ hfile
    change Function.update w.alive pid false (pidOf task) = true at halive
    by_cases heq : pidOf task = pid
    · rw [heq, Function.update_self] at halive
      cases halive
    · rwa [Function.update_of_ne heq] at halive
  | acquire task =>
    dsimp only [receiptLockStep]
    split
    · rename_i halive _
      exact h.kept halive rfl (Or.inl rfl)
    · exact h
  | run task choice =>
    dsimp only [receiptLockStep]
    split
    · rename_i halive
      exact h.taskStep choice halive hguard
    · exact h

end Invariant

/-- Mutual exclusion in every run whose recoveries rename only locks of dead processes away,
    and put one back only onto a free path. -/
theorem receiptLock_exclusive_of_run (pidOf : Nat → Nat) {w : ReceiptLockWorld}
    (hstart : ReceiptLockStart pidOf w) {events : List ReceiptLockEvent}
    (hguard : Along (receiptLockStep pidOf)
      (fun w event => renamesOverLiveLock pidOf w event = false) w events) :
    ReceiptLockExclusive pidOf (events.foldl (receiptLockStep pidOf) w) := by
  have hinvariant : OwnFilesLocked pidOf w := by
    intro task file halive hfile
    rw [hstart task halive] at hfile
    cases hfile
  have hrun := Run.of_foldl hguard
  have hfinal : OwnFilesLocked pidOf (events.foldl (receiptLockStep pidOf) w) := by
    refine Run.preserves ?_ hrun hinvariant
    rintro s event _ ⟨rfl, hdead⟩ hs
    exact hs.step hdead
  exact hfinal.exclusive

/-! ## A lock of a dead owner -/

/-- Task and process 1 are dead and have left a lock. -/
def deadReceiptLock : ReceiptLockWorld where
  files :=
    { names := fun path => if path = .lockTarget then some ⟨1, 0⟩ else none
      text := fun _ =>
        { text := .owner { ownerToken := ⟨1, 0⟩, pid := 1, createdAtMs := 0 }, mtimeMs := 0 } }
  now := 60000
  alive := fun pid => decide (1 < pid)
  tasks := fun _ => { pc := .idle, draws := 1, created := 1 }

def runsReceipt (task steps : Nat) : List ReceiptLockEvent :=
  List.replicate steps (.run task false)

/-- A task finds the lock, recovers it and takes it itself. -/
def recoversAndAcquires (task : Nat) : List ReceiptLockEvent :=
  .acquire task :: runsReceipt task 9 ++ .run task true :: runsReceipt task 3

theorem receiptLock_exclusive_oneRecovery :
    ReceiptLockExclusive id ((recoversAndAcquires 3).foldl (receiptLockStep id) deadReceiptLock) :=
  receiptLock_exclusive_of_run id (fun _ _ => rfl) (by decide +kernel)

/-- Task 2 has found the owner dead when task 3 recovers the lock and takes it; 2 renames
    the lock of 3 away, and task 4 finds the path free. -/
def recoveryRace : List ReceiptLockEvent :=
  .acquire 2 :: runsReceipt 2 4 ++ recoversAndAcquires 3 ++ runsReceipt 2 1
    ++ .acquire 4 :: runsReceipt 4 3

theorem not_receiptLockExclusive_recoveryRace :
    ReceiptLockStart id deadReceiptLock
      ∧ ¬ ReceiptLockExclusive id (recoveryRace.foldl (receiptLockStep id) deadReceiptLock) := by
  refine ⟨fun _ _ => rfl, fun h => ?_⟩
  have hsame : 3 = 4 := h 3 4 (by decide +kernel) (by decide +kernel) (by decide +kernel)
    (by decide +kernel)
  cases hsame

end OpencodeSwarm
