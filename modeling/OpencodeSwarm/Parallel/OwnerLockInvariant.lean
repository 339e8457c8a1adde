/-
  OpencodeSwarm.Parallel.OwnerLockInvariant

  Who relies on the owner lock.  The lock belongs to the process whose file it is,
  or to the breaker that holds the marker and found its owner dead; no two live
  processes rely on it at once, and what a process knows where it stands survives
  every step of another that leaves the names alone it relies on.
-/
import OpencodeSwarm.Parallel.OwnerLock

namespace OpencodeSwarm

open Js Posix

/-! ## Who relies on which name -/

/-- The lock is a new file of the process, or its payload names the process. -/
def OwnsLock (files : LockFiles) (pid : Nat) : Prop :=
  (∃ file, files.names .lock = some file ∧ files.text file = .empty ∧ file.creator = pid)
    ∨ ∃ payload : OwnerLockPayload,
        files.read .lock = some (.owner payload) ∧ payload.ownerPid = pid

def OwnsMarker (files : LockFiles) (pid : Nat) : Prop :=
  ∃ marker, readMarker files .marker = some marker ∧ marker.breakerPid = pid

/-- A breaker relies on the dead owner's lock while the marker is its own. -/
def ReliesOnLock (alive : Int → Bool) (files : LockFiles) (pid : Nat) : Prop :=
  OwnsLock files pid ∨ OwnsMarker files pid ∧
    ∃ owner, parseOwnerPayload (files.read .lock) = some owner ∧ alive owner.ownerPid = false

variable {owner : OwnerLockPayload}

theorem parseOwnerPayload_eq_some {raw : Option LockText} (h : parseOwnerPayload raw = some owner) :
    raw = some (.owner owner) ∧ 0 < owner.ownerPid := by
  unfold parseOwnerPayload at h
  split at h
  · split at h
    · rename_i hpos
      cases h
      exact ⟨rfl, hpos⟩
    · cases h
  · cases h

theorem readMarker_eq_some {files : LockFiles} {path : LockPath} {marker : MarkerPayload} :
    readMarker files path = some marker ↔ files.read path = some (.marker marker) := by
  unfold readMarker
  split
  · rename_i payload hread
    simp [hread]
  · rename_i hother
    constructor
    · intro h
      cases h
    · intro h
      exact absurd h (hother marker)

variable {p q : Nat}

theorem OwnsMarker.unique {files : LockFiles} (hp : OwnsMarker files p) (hq : OwnsMarker files q) :
    p = q := by
  obtain ⟨marker, hread, hpid⟩ := hp
  obtain ⟨marker', hread', hpid'⟩ := hq
  rw [hread] at hread'
  cases hread'
  rw [hpid] at hpid'
  exact Int.ofNat_inj.mp hpid'

theorem OwnsLock.unique {files : LockFiles} (hp : OwnsLock files p) (hq : OwnsLock files q) :
    p = q := by
  rcases hp with ⟨file, hname, hempty, hcreator⟩ | ⟨payload, hread, hpid⟩ <;>
    rcases hq with ⟨file', hname', hempty', hcreator'⟩ | ⟨payload', hread', hpid'⟩
  · rw [hname] at hname'
    cases hname'
    rw [← hcreator, ← hcreator']
  · simp [FileNames.read, hname, hempty] at hread'
  · simp [FileNames.read, hname', hempty'] at hread
  · rw [hread] at hread'
    cases hread'
    rw [hpid] at hpid'
    exact Int.ofNat_inj.mp hpid'

theorem OwnsLock.ownerPid_of_parse {files : LockFiles} {pid : Nat} (h : OwnsLock files pid)
    (hparse : parseOwnerPayload (files.read .lock) = some owner) : owner.ownerPid = pid := by
  have hread := (parseOwnerPayload_eq_some hparse).1
  rcases h with ⟨file, hname, hempty, -⟩ | ⟨payload, hread', hpid⟩
  · simp [FileNames.read, hname, hempty] at hread
  · rw [hread] at hread'
    cases hread'
    exact hpid

theorem ReliesOnLock.unique {alive : Int → Bool} {files : LockFiles}
    (hp : ReliesOnLock alive files p) (hq : ReliesOnLock alive files q) (halive : alive p = true)
    (halive' : alive q = true) : p = q := by
  rcases hp with hp | ⟨hp, owner, hparse, hdead⟩ <;>
    rcases hq with hq | ⟨hq, owner', hparse', hdead'⟩
  · exact hp.unique hq
  · rw [hp.ownerPid_of_parse hparse', halive] at hdead'
    cases hdead'
  · rw [hq.ownerPid_of_parse hparse, halive'] at hdead
    cases hdead
  · exact hp.unique hq

theorem ReliesOnLock.exists_file {alive : Int → Bool} {files : LockFiles} {pid : Nat}
    (h : ReliesOnLock alive files pid) : ∃ file, files.names .lock = some file := by
  rcases h with (⟨file, hname, -, -⟩ | ⟨payload, hread, -⟩) | ⟨-, owner, hparse, -⟩
  · exact ⟨file, hname⟩
  · obtain ⟨file, hname, -⟩ := FileNames.read_eq_some_iff.mp hread
    exact ⟨file, hname⟩
  · obtain ⟨file, hname, -⟩ :=
      FileNames.read_eq_some_iff.mp (parseOwnerPayload_eq_some hparse).1
    exact ⟨file, hname⟩

theorem OwnsMarker.exists_file {files : LockFiles} {pid : Nat} (h : OwnsMarker files pid) :
    ∃ file, files.names .marker = some file := by
  obtain ⟨marker, hread, -⟩ := h
  obtain ⟨file, hname, -⟩ := FileNames.read_eq_some_iff.mp (readMarker_eq_some.mp hread)
  exact ⟨file, hname⟩

/-! ## What a process knows where it stands -/

/-- A payload this process has composed and not yet recorded. -/
structure FreshPayload (pid : Nat) (proc : LockProcess) (payload : OwnerLockPayload) : Prop where
  ownerPid : payload.ownerPid = pid
  drawn : payload.nonce.draw < proc.draws
  unrecorded : ∀ own ∈ proc.acquired, own.nonce ≠ payload.nonce
  alone : proc.held = []

def MarkerCheck.Facts (files : LockFiles) (pid : Nat) (proc : LockProcess) : MarkerCheck → Prop
  | .beforeCreate => True
  | .afterWrite payload =>
      files.read .lock = some (.owner payload) ∧ FreshPayload pid proc payload

def AcquirePc.Facts (files : LockFiles) (pid : Nat) (proc : LockProcess) : AcquirePc → Prop
  | .markerExists check | .markerRead check | .breakerProbe check _ => check.Facts files pid proc
  | .lockCreate => True
  | .payloadWrite file payload =>
      files.names .lock = some file ∧ files.text file = .empty ∧ file.creator = pid
        ∧ FreshPayload pid proc payload
  | .selfRelease payload => (MarkerCheck.afterWrite payload).Facts files pid proc

/-- The lock is a generation of the process that `self` names. -/
def LockNamed (files : LockFiles) (pid : Nat) (self : OwnerLockPayload) : Prop :=
  ∃ current : OwnerLockPayload, files.read .lock = some (.owner current)
    ∧ current.ownerPid = pid ∧ current.nonce = self.nonce

def ReleasePc.Facts (files : LockFiles) (pid : Nat) (proc : LockProcess) : ReleasePc → Prop
  | .payloadRead self ours => self ∈ proc.acquired ∧ (ours = true → LockNamed files pid self)
  | .lockUnlink self _ | .lockUnlinkAgain self =>
      self ∈ proc.acquired ∧ LockNamed files pid self

/-- What pre-validation found, of an owner that stays dead. -/
structure BreakAttempt.Valid (alive : Int → Bool) (pid : Nat) (attempt : BreakAttempt) : Prop where
  parsed : parseOwnerPayload (some attempt.rawBefore) = some attempt.parsedBefore
  dead : alive attempt.parsedBefore.ownerPid = false
  nonce : attempt.nonce.pid = pid

/-- What a process knows at each step of a break. -/
def BreakPc.Facts (alive : Int → Bool) (files : LockFiles) (pid : Nat) : BreakPc → Prop
  | .payloadRead _ => True
  | .ownerProbe _ rawBefore parsedBefore => parseOwnerPayload (some rawBefore) = some parsedBefore
  | .markerExists attempt | .markerRead attempt | .breakerProbe attempt _ | .takeOver attempt
  | .takenUnlink attempt => attempt.Valid alive pid
  | .candidateCreate attempt ourMarker =>
      attempt.Valid alive pid ∧ ourMarker.breakerPid = pid
  | .candidateWrite attempt ourMarker file =>
      attempt.Valid alive pid ∧ ourMarker.breakerPid = pid
        ∧ files.names (.candidate attempt.nonce) = some file ∧ files.text file = .empty
        ∧ file.creator = pid
  | .candidateLink attempt =>
      attempt.Valid alive pid ∧ ∃ ourMarker : MarkerPayload,
        files.read (.candidate attempt.nonce) = some (.marker ourMarker)
          ∧ ourMarker.breakerPid = pid
  | .candidateUnlink attempt published =>
      attempt.Valid alive pid ∧ (published = true → OwnsMarker files pid)
  | .payloadReread attempt => attempt.Valid alive pid ∧ OwnsMarker files pid
  | .ownerReprobe attempt | .lockUnlink attempt =>
      attempt.Valid alive pid ∧ OwnsMarker files pid
        ∧ files.read .lock = some attempt.rawBefore
  | .ownMarkerRead _ _ | .ownMarkerUnlink _ _ => OwnsMarker files pid

def LockPc.Facts (alive : Int → Bool) (files : LockFiles) (pid : Nat) (proc : LockProcess) :
    LockPc → Prop
  | .idle => True
  | .acquire pc _ _ _ => pc.Facts files pid proc
  | .release pc => pc.Facts files pid proc
  | .breakStale pc => pc.Facts alive files pid

/-- What its acquires left a process with. -/
structure HoldingFacts (files : LockFiles) (pid : Nat) (proc : LockProcess) : Prop where
  drawn : ∀ own ∈ proc.acquired, own.ownerPid = pid ∧ own.nonce.draw < proc.draws
  distinct : ∀ own ∈ proc.acquired, ∀ own' ∈ proc.acquired, own.nonce = own'.nonce → own = own'
  held : ∀ own ∈ proc.held, own ∈ proc.acquired ∧ files.read .lock = some (.owner own)
  recorded : ∀ nonce, proc.acquiredNonce = some nonce → ∃ own ∈ proc.held, own.nonce = nonce

structure ProcessFacts (alive : Int → Bool) (files : LockFiles) (pid : Nat)
    (proc : LockProcess) : Prop where
  holding : HoldingFacts files pid proc
  pc : proc.pc.Facts alive files pid proc

structure LockInvariant (w : LockWorld) : Prop where
  noPidZero : (w.procs 0).alive = false
  numbered : ∀ path file, w.files.names path = some file →
    file.count < (w.procs file.creator).created
  facts : ∀ pid, (w.procs pid).alive = true →
    ProcessFacts (isPidAlive w) w.files pid (w.procs pid)

/-! ## What another process leaves alone -/

/-- New files are no trouble to a process: the names it relies on are the same,
    and so are the texts behind them. -/
structure Undisturbed (alive : Int → Bool) (files : LockFiles) (pid : Nat) (next : LockFiles) :
    Prop where
  lock : ReliesOnLock alive files pid → next.names .lock = files.names .lock
  marker : OwnsMarker files pid → next.names .marker = files.names .marker
  candidate : ∀ nonce : LockNonce, nonce.pid = pid →
    next.names (.candidate nonce) = files.names (.candidate nonce)
  text : ∀ path file, files.names path = some file →
    files.text file ≠ .empty ∨ file.creator = pid → next.text file = files.text file

section Undisturbed

variable {alive : Int → Bool} {files next : LockFiles} {pid : Nat}

theorem Undisturbed.refl : Undisturbed alive files pid files :=
  ⟨fun _ => rfl, fun _ => rfl, fun _ _ => rfl, fun _ _ _ _ => rfl⟩

variable {path : LockPath}

theorem Undisturbed.read (h : Undisturbed alive files pid next) {text : LockText}
    (hname : next.names path = files.names path) (hread : files.read path = some text)
    (htext : text ≠ .empty) : next.read path = some text := by
  obtain ⟨file, hfile, rfl⟩ := FileNames.read_eq_some_iff.mp hread
  have hsame := h.text path file hfile (Or.inl htext)
  exact FileNames.read_eq_some_iff.mpr ⟨file, hname.trans hfile, hsame⟩

theorem Undisturbed.read_owner (h : Undisturbed alive files pid next)
    {payload : OwnerLockPayload} (hread : files.read .lock = some (.owner payload))
    (hpid : payload.ownerPid = pid) : next.read .lock = some (.owner payload) := by
  have hrelies : ReliesOnLock alive files pid := Or.inl (Or.inr ⟨payload, hread, hpid⟩)
  exact h.read (h.lock hrelies) hread (by simp)

theorem Undisturbed.ownsMarker (h : Undisturbed alive files pid next)
    (hmarker : OwnsMarker files pid) : OwnsMarker next pid := by
  have hname := h.marker hmarker
  obtain ⟨marker, hread, hpid⟩ := hmarker
  have hnext := h.read hname (readMarker_eq_some.mp hread) (by simp)
  exact ⟨marker, readMarker_eq_some.mpr hnext, hpid⟩

theorem Undisturbed.text_own (h : Undisturbed alive files pid next) {file : LockFileId}
    (hname : files.names path = some file) (hcreator : file.creator = pid) :
    next.text file = files.text file :=
  h.text path file hname (Or.inr hcreator)

theorem Undisturbed.afterWrite (h : Undisturbed alive files pid next) {proc : LockProcess}
    {check : MarkerCheck} (hfacts : check.Facts files pid proc) : check.Facts next pid proc := by
  cases check with
  | beforeCreate => trivial
  | afterWrite payload => exact ⟨h.read_owner hfacts.1 hfacts.2.ownerPid, hfacts.2⟩

variable {proc : LockProcess}

theorem Undisturbed.acquire (h : Undisturbed alive files pid next) {pc : AcquirePc}
    (hfacts : pc.Facts files pid proc) : pc.Facts next pid proc := by
  cases pc with
  | markerExists check | markerRead check | breakerProbe check marker => exact h.afterWrite hfacts
  | lockCreate => trivial
  | payloadWrite file payload =>
    obtain ⟨hname, hempty, hcreator, hfresh⟩ := hfacts
    have hrelies : ReliesOnLock alive files pid := Or.inl (Or.inl ⟨file, hname, hempty, hcreator⟩)
    have hsame := h.text_own hname hcreator
    exact ⟨(h.lock hrelies).trans hname, hsame.trans hempty, hcreator, hfresh⟩
  | selfRelease payload =>
    have hwritten : (MarkerCheck.afterWrite payload).Facts files pid proc := hfacts
    exact h.afterWrite hwritten

theorem Undisturbed.lockNamed (h : Undisturbed alive files pid next) {self : OwnerLockPayload}
    (hnamed : LockNamed files pid self) : LockNamed next pid self := by
  obtain ⟨current, hread, hpid, hnonce⟩ := hnamed
  exact ⟨current, h.read_owner hread hpid, hpid, hnonce⟩

theorem Undisturbed.release (h : Undisturbed alive files pid next) {pc : ReleasePc}
    (hfacts : pc.Facts files pid proc) : pc.Facts next pid proc := by
  cases pc with
  | payloadRead self ours => exact ⟨hfacts.1, fun hours => h.lockNamed (hfacts.2 hours)⟩
  | lockUnlink self ours | lockUnlinkAgain self => exact ⟨hfacts.1, h.lockNamed hfacts.2⟩

theorem Undisturbed.rawBefore (h : Undisturbed alive files pid next) {attempt : BreakAttempt}
    (hvalid : attempt.Valid alive pid) (hmarker : OwnsMarker files pid)
    (hread : files.read .lock = some attempt.rawBefore) :
    next.read .lock = some attempt.rawBefore := by
  have hparse : parseOwnerPayload (files.read .lock) = some attempt.parsedBefore := by
    rw [hread]
    exact hvalid.parsed
  have hrelies : ReliesOnLock alive files pid :=
    Or.inr ⟨hmarker, attempt.parsedBefore, hparse, hvalid.dead⟩
  have howner : attempt.rawBefore = .owner attempt.parsedBefore :=
    Option.some.inj (parseOwnerPayload_eq_some hvalid.parsed).1
  refine h.read (h.lock hrelies) hread ?_
  rw [howner]
  simp

theorem Undisturbed.breakStale (h : Undisturbed alive files pid next) {pc : BreakPc}
    (hfacts : pc.Facts alive files pid) : pc.Facts alive next pid := by
  cases pc with
  | payloadRead _ => trivial
  | ownerProbe _ rawBefore parsedBefore | markerExists attempt | markerRead attempt
  | breakerProbe attempt marker | takeOver attempt | takenUnlink attempt
  | candidateCreate attempt ourMarker => exact hfacts
  | candidateWrite attempt ourMarker file =>
    obtain ⟨hvalid, hbreaker, hname, hempty, hcreator⟩ := hfacts
    have hnext := (h.candidate attempt.nonce hvalid.nonce).trans hname
    exact ⟨hvalid, hbreaker, hnext, (h.text_own hname hcreator).trans hempty, hcreator⟩
  | candidateLink attempt =>
    obtain ⟨hvalid, ourMarker, hread, hbreaker⟩ := hfacts
    have hnext := h.read (h.candidate attempt.nonce hvalid.nonce) hread (by simp)
    exact ⟨hvalid, ourMarker, hnext, hbreaker⟩
  | candidateUnlink attempt published =>
    exact ⟨hfacts.1, fun hpublished => h.ownsMarker (hfacts.2 hpublished)⟩
  | payloadReread attempt => exact ⟨hfacts.1, h.ownsMarker hfacts.2⟩
  | ownerReprobe attempt | lockUnlink attempt =>
    obtain ⟨hvalid, hmarker, hread⟩ := hfacts
    exact ⟨hvalid, h.ownsMarker hmarker, h.rawBefore hvalid hmarker hread⟩
  | ownMarkerRead attempt result | ownMarkerUnlink attempt result => exact h.ownsMarker hfacts

theorem Undisturbed.facts (h : Undisturbed alive files pid next)
    (hfacts : ProcessFacts alive files pid proc) : ProcessFacts alive next pid proc where
  holding := by
    obtain ⟨hdrawn, hdistinct, hheld, hrecorded⟩ := hfacts.holding
    refine ⟨hdrawn, hdistinct, fun own hown => ?_, hrecorded⟩
    obtain ⟨hacquired, hread⟩ := hheld own hown
    exact ⟨hacquired, h.read_owner hread (hdrawn own hacquired).1⟩
  pc := by
    have hpc := hfacts.pc
    cases hat : proc.pc with
    | idle => trivial
    | acquire pc agent taskId startBoundMs =>
      rw [hat] at hpc
      exact h.acquire hpc
    | release pc =>
      rw [hat] at hpc
      exact h.release hpc
    | breakStale pc =>
      rw [hat] at hpc
      exact h.breakStale hpc

/-- A change of names disturbs nobody who does not rely on the names changed. -/
theorem Undisturbed.of_names (changed : LockPath → Prop)
    (hnames : ∀ path, ¬ changed path → next.names path = files.names path)
    (hlock : changed .lock → ¬ ReliesOnLock alive files pid)
    (hmarker : changed .marker → ¬ OwnsMarker files pid)
    (hcandidate : ∀ nonce, changed (.candidate nonce) → nonce.pid ≠ pid)
    (htext : ∀ path file, files.names path = some file →
      files.text file ≠ .empty ∨ file.creator = pid → next.text file = files.text file) :
    Undisturbed alive files pid next where
  lock hrelies := hnames _ fun hchanged => hlock hchanged hrelies
  marker howns := hnames _ fun hchanged => hmarker hchanged howns
  candidate nonce hpid := hnames _ fun hchanged => hcandidate nonce hchanged hpid
  text := htext

end Undisturbed

end OpencodeSwarm
