/-
  OpencodeSwarm.Parallel.OwnerLockSafety

  Mutual exclusion of the owner lock over its runs.  Every step keeps the
  invariant but one: the takeover of a marker renames whatever it finds there,
  and where that is the marker of a live breaker two breakers work at once.
-/
import OpencodeSwarm.Parallel.OwnerLockInvariant

namespace OpencodeSwarm

open Js Posix Transition

/-- No two live processes stand between an acquire and its release. -/
def MutuallyExclusive (w : LockWorld) : Prop :=
  ∀ p q, (w.procs p).alive = true → (w.procs q).alive = true →
    (w.procs p).held ≠ [] → (w.procs q).held ≠ [] → p = q

/-- Nobody is in a call and nobody holds the lock; the files may hold anything,
    and each was created by the process its number names. -/
structure LockStart (w : LockWorld) : Prop where
  idle : ∀ pid, (w.procs pid).pc = .idle
  acquired : ∀ pid, (w.procs pid).acquired = []
  held : ∀ pid, (w.procs pid).held = []
  acquiredNonce : ∀ pid, (w.procs pid).acquiredNonce = none
  noPidZero : (w.procs 0).alive = false
  numbered : ∀ path file, w.files.names path = some file →
    file.count < (w.procs file.creator).created

/-- A takeover renames away the marker of a live breaker. -/
def takesLiveMarker (w : LockWorld) : LockEvent → Bool
  | .run pid =>
      match (w.procs pid).pc with
      | .breakStale (.takeOver _) =>
          (w.procs pid).alive
            && (readMarker w.files .marker).any fun marker => isPidAlive w marker.breakerPid
      | _ => false
  | _ => false

/-! ## Steps that keep the invariant -/

/-- What a step of one live process comes to. -/
structure SafeStep (w : LockWorld) (pid : Nat) (files : LockFiles) (proc : LockProcess) :
    Prop where
  alive : proc.alive = (w.procs pid).alive
  created : (w.procs pid).created ≤ proc.created
  numbered : ∀ path file, files.names path = some file →
    (∃ path', w.files.names path' = some file) ∨ file.creator = pid ∧ file.count < proc.created
  others : ∀ q, q ≠ pid → isPidAlive w q = true → Undisturbed (isPidAlive w) w.files q files
  facts : ProcessFacts (isPidAlive w) files pid proc

theorem LockInvariant.alive_self {w : LockWorld} (h : LockInvariant w) {pid : Nat}
    (halive : (w.procs pid).alive = true) : isPidAlive w pid = true := by
  have hne : pid ≠ 0 := by
    rintro rfl
    rw [h.noPidZero] at halive
    cases halive
  have hpos : 0 < pid := Nat.pos_of_ne_zero hne
  simp [isPidAlive, hpos, halive]

theorem isPidAlive_congr {w next : LockWorld}
    (h : ∀ pid, (next.procs pid).alive = (w.procs pid).alive) :
    isPidAlive next = isPidAlive w := by
  funext pid
  unfold isPidAlive
  rw [h]

theorem LockInvariant.setProc {w : LockWorld} (h : LockInvariant w) {pid : Nat}
    {files : LockFiles} {proc : LockProcess} (hstep : SafeStep w pid files proc) :
    LockInvariant (w.setProc pid files proc) := by
  have hproc : ∀ q, q ≠ pid → (w.setProc pid files proc).procs q = w.procs q :=
    fun q hne => Function.update_of_ne hne _ _
  have hself : (w.setProc pid files proc).procs pid = proc := Function.update_self _ _ _
  have halive : ∀ q, ((w.setProc pid files proc).procs q).alive = (w.procs q).alive := by
    intro q
    by_cases hq : q = pid
    · rw [hq, hself, hstep.alive]
    · rw [hproc q hq]
  refine ⟨?_, ?_, ?_⟩
  · rw [halive]
    exact h.noPidZero
  · intro path file hname
    by_cases hcreator : file.creator = pid
    · rw [hcreator, hself]
      rcases hstep.numbered path file hname with ⟨path', hold⟩ | ⟨-, hnew⟩
      · have hcount := h.numbered path' file hold
        rw [hcreator] at hcount
        exact lt_of_lt_of_le hcount hstep.created
      · exact hnew
    · rw [hproc _ hcreator]
      rcases hstep.numbered path file hname with ⟨path', hold⟩ | ⟨hown, -⟩
      · exact h.numbered path' file hold
      · exact absurd hown hcreator
  · intro q hq
    rw [isPidAlive_congr halive]
    rw [halive] at hq
    by_cases hqp : q = pid
    · rw [hqp, hself]
      exact hstep.facts
    · rw [hproc q hqp]
      exact (hstep.others q hqp (h.alive_self hq)).facts (h.facts q hq)

section Steps

variable {w : LockWorld} {pid : Nat} {proc : LockProcess}

theorem SafeStep.of_facts (halive : proc.alive = (w.procs pid).alive)
    (hcreated : (w.procs pid).created ≤ proc.created)
    (hfacts : ProcessFacts (isPidAlive w) w.files pid proc) : SafeStep w pid w.files proc where
  alive := halive
  created := hcreated
  numbered path _ hname := Or.inl ⟨path, hname⟩
  others _ _ _ := Undisturbed.refl
  facts := hfacts

variable {files : LockFiles} {after : LockProcess} {next : LockFiles}

/-- A process that has only moved on, past files it still reads the lock from. -/
theorem HoldingFacts.moved {before : LockProcess} (h : HoldingFacts files pid before)
    (hacquired : after.acquired = before.acquired) (hheld : after.held = before.held)
    (hnonce : after.acquiredNonce = before.acquiredNonce) (hdraws : before.draws ≤ after.draws)
    (hread : ∀ own ∈ before.held, files.read .lock = some (.owner own) →
      next.read .lock = some (.owner own)) : HoldingFacts next pid after where
  drawn own hown := by
    rw [hacquired] at hown
    exact ⟨(h.drawn own hown).1, lt_of_lt_of_le (h.drawn own hown).2 hdraws⟩
  distinct := by
    rw [hacquired]
    exact h.distinct
  held own hown := by
    rw [hheld] at hown
    rw [hacquired]
    exact ⟨(h.held own hown).1, hread own hown (h.held own hown).2⟩
  recorded := by
    rw [hnonce, hheld]
    exact h.recorded

theorem HoldingFacts.at_pc (h : HoldingFacts files pid proc) (pc : LockPc) :
    HoldingFacts files pid { proc with pc := pc } :=
  h.moved rfl rfl rfl le_rfl fun _ _ hread => hread

/-! ### `acquireOwnerLockOnce` -/

variable {check : MarkerCheck}

theorem MarkerCheck.Facts.at_pc (h : check.Facts files pid proc) (pc : LockPc) :
    check.Facts files pid { proc with pc := pc } := by
  cases check with
  | beforeCreate => trivial
  | afterWrite payload =>
    obtain ⟨hread, hpid, hdrawn, hunrecorded, halone⟩ := h
    exact ⟨hread, hpid, hdrawn, hunrecorded, halone⟩

variable {alive : Int → Bool}

theorem MarkerCheck.Facts.unblocked (h : check.Facts files pid proc)
    (hholding : HoldingFacts files pid proc) (agent taskId : JsString) (startBoundMs : Int) :
    ProcessFacts alive files pid (proc.unblocked check agent taskId startBoundMs) := by
  cases check with
  | beforeCreate => exact ⟨hholding.at_pc _, trivial⟩
  | afterWrite payload =>
    obtain ⟨hread, hpid, hdrawn, hunrecorded, halone⟩ := h
    refine ⟨⟨?_, ?_, ?_, ?_⟩, trivial⟩
    · intro own hown
      rcases List.mem_cons.mp hown with rfl | hown
      · exact ⟨hpid, hdrawn⟩
      · exact hholding.drawn own hown
    · intro own hown own' hown' hnonce
      rcases List.mem_cons.mp hown with hown | hown <;>
        rcases List.mem_cons.mp hown' with hown' | hown'
      · rw [hown, hown']
      · rw [hown] at hnonce
        exact absurd hnonce.symm (hunrecorded own' hown')
      · rw [hown'] at hnonce
        exact absurd hnonce (hunrecorded own hown)
      · exact hholding.distinct own hown own' hown' hnonce
    · intro own hown
      have hown' : own ∈ payload :: proc.held := hown
      rw [halone, List.mem_singleton] at hown'
      rw [hown']
      exact ⟨List.mem_cons_self, hread⟩
    · intro nonce hnonce
      exact ⟨payload, List.mem_cons_self, Option.some.inj hnonce⟩

theorem MarkerCheck.Facts.blocked (h : check.Facts files pid proc)
    (hholding : HoldingFacts files pid proc) (agent taskId : JsString) (startBoundMs : Int) :
    ProcessFacts alive files pid (proc.blocked check agent taskId startBoundMs) := by
  cases check with
  | beforeCreate => exact ⟨hholding.at_pc _, trivial⟩
  | afterWrite payload => exact ⟨hholding.at_pc _, h.at_pc _⟩

theorem FreshPayload.ownsLock {payload : OwnerLockPayload} (h : FreshPayload pid proc payload)
    (hread : files.read .lock = some (.owner payload)) : OwnsLock files pid :=
  Or.inr ⟨payload, hread, h.ownerPid⟩

theorem SafeStep.of_names (changed : LockPath → Prop)
    (hnames : ∀ path, ¬ changed path → next.names path = w.files.names path)
    (htext : next.text = w.files.text)
    (hold : ∀ path file, next.names path = some file → ∃ path', w.files.names path' = some file)
    (hlock : ∀ q, q ≠ pid → isPidAlive w q = true → changed .lock →
      ¬ ReliesOnLock (isPidAlive w) w.files q)
    (hmarker : ∀ q, q ≠ pid → isPidAlive w q = true → changed .marker → ¬ OwnsMarker w.files q)
    (hcandidate : ∀ nonce, changed (.candidate nonce) → nonce.pid = pid)
    (halive : proc.alive = (w.procs pid).alive) (hcreated : (w.procs pid).created ≤ proc.created)
    (hfacts : ProcessFacts (isPidAlive w) next pid proc) : SafeStep w pid next proc where
  alive := halive
  created := hcreated
  numbered path file hname := Or.inl (hold path file hname)
  others q hne hq := by
    refine Undisturbed.of_names changed hnames (hlock q hne hq) (hmarker q hne hq) ?_ ?_
    · intro nonce hchanged hpid
      rw [hcandidate nonce hchanged] at hpid
      exact hne hpid.symm
    · intro _ file _ _
      rw [htext]
  facts := hfacts

theorem SafeStep.of_unlink_lock (hinv : LockInvariant w) (hpid : (w.procs pid).alive = true)
    (hrelies : ReliesOnLock (isPidAlive w) w.files pid)
    (halive : proc.alive = (w.procs pid).alive) (hcreated : (w.procs pid).created ≤ proc.created)
    (hfacts : ProcessFacts (isPidAlive w) (w.files.setName .lock none) pid proc) :
    SafeStep w pid (w.files.setName .lock none) proc := by
  refine SafeStep.of_names (· = .lock) (fun path hpath => FileNames.setName_names_of_ne hpath) rfl
    ?_ ?_ ?_ ?_ halive hcreated hfacts
  · exact fun path _ hname => ⟨path, (FileNames.names_of_setName hname).resolve_left (by simp)⟩
  · intro q hne hq _ hrelies'
    exact hne (hrelies'.unique hrelies hq (hinv.alive_self hpid))
  · intro _ _ _ h
    cases h
  · intro nonce h
    cases h

variable {path : LockPath}

theorem SafeStep.of_create (hinv : LockInvariant w) (hnone : w.files.names path = none)
    (hpath : path = .lock ∨ ∃ nonce : LockNonce, nonce.pid = pid ∧ path = .candidate nonce)
    (halive : proc.alive = (w.procs pid).alive)
    (hcreated : proc.created = (w.procs pid).created + 1) (hfacts : ProcessFacts (isPidAlive w)
      ((w.files.write ((w.procs pid).createdFile pid) .empty).setName path
        (some ((w.procs pid).createdFile pid))) pid proc) : SafeStep w pid
      ((w.files.write ((w.procs pid).createdFile pid) .empty).setName path
        (some ((w.procs pid).createdFile pid))) proc where
  alive := halive
  created := by omega
  numbered other file hname := by
    rcases FileNames.names_of_setName hname with hnew | hold
    · cases hnew
      right
      rw [hcreated]
      exact ⟨rfl, Nat.lt_succ_self _⟩
    · exact Or.inl ⟨other, hold⟩
  others q hne hq := by
    refine Undisturbed.of_names (· = path) ?_ ?_ ?_ ?_ ?_
    · exact fun other hother => FileNames.setName_names_of_ne hother
    · intro hlock hrelies
      obtain ⟨file, hname⟩ := hrelies.exists_file
      rw [hlock, hnone] at hname
      cases hname
    · intro hmarker
      rcases hpath with rfl | ⟨nonce, -, rfl⟩ <;> cases hmarker
    · intro nonce hcandidate hpid
      rcases hpath with rfl | ⟨nonce', hown, rfl⟩
      · cases hcandidate
      · cases hcandidate
        exact hne (hpid.symm.trans hown)
    · intro other file hname _
      -- the number of the new file is not in use
      have hold : file ≠ (w.procs pid).createdFile pid := by
        rintro rfl
        exact absurd (hinv.numbered other _ hname) (lt_irrefl _)
      exact FileNames.write_text_of_ne hold
  facts := hfacts

variable {file : LockFileId} {text : LockText}

theorem SafeStep.of_write (hempty : w.files.text file = .empty) (hcreator : file.creator = pid)
    (halive : proc.alive = (w.procs pid).alive) (hcreated : (w.procs pid).created ≤ proc.created)
    (hfacts : ProcessFacts (isPidAlive w) (w.files.write file text) pid proc) :
    SafeStep w pid (w.files.write file text) proc where
  alive := halive
  created := hcreated
  numbered path _ hname := Or.inl ⟨path, hname⟩
  others q hne _ := by
    refine Undisturbed.of_names (fun _ => False) (fun _ _ => rfl) False.elim False.elim
      (fun _ => False.elim) fun path named _ htext => ?_
    have hother : named ≠ file := by
      rintro rfl
      rcases htext with htext | hown
      · exact htext hempty
      · exact hne (hown.symm.trans hcreator)
    exact FileNames.write_text_of_ne hother
  facts := hfacts

theorem HoldingFacts.held_eq_nil (h : HoldingFacts files pid proc)
    (hread : ∀ own : OwnerLockPayload, own.ownerPid = pid → files.read .lock ≠ some (.owner own)) :
    proc.held = [] := by
  refine List.eq_nil_iff_forall_not_mem.mpr fun own hown => ?_
  obtain ⟨hacquired, hlock⟩ := h.held own hown
  exact hread own (h.drawn own hacquired).1 hlock

theorem acquireStep_safe (hinv : LockInvariant w) (hpid : (w.procs pid).alive = true)
    {pc : AcquirePc} {agent taskId : JsString} {startBoundMs : Int}
    (hpc : (w.procs pid).pc = .acquire pc agent taskId startBoundMs) :
    SafeStep w pid (acquireStep w pid pc agent taskId startBoundMs).1
      (acquireStep w pid pc agent taskId startBoundMs).2 := by
  obtain ⟨hholding, hat⟩ := hinv.facts pid hpid
  rw [hpc] at hat
  cases pc with
  | markerExists check | markerRead check =>
    have hcheck : check.Facts w.files pid (w.procs pid) := hat
    simp only [acquireStep]
    split
    · exact SafeStep.of_facts (by simp) (by simp) (hcheck.unblocked hholding _ _ _)
    · exact SafeStep.of_facts rfl le_rfl ⟨hholding.at_pc _, hcheck.at_pc _⟩
  | breakerProbe check marker =>
    have hcheck : check.Facts w.files pid (w.procs pid) := hat
    simp only [acquireStep]
    split
    · exact SafeStep.of_facts (by simp) (by simp) (hcheck.blocked hholding _ _ _)
    · exact SafeStep.of_facts (by simp) (by simp) (hcheck.unblocked hholding _ _ _)
  | lockCreate =>
    simp only [acquireStep]
    split
    · exact SafeStep.of_facts rfl le_rfl ⟨hholding.at_pc _, trivial⟩
    rename_i files hcreate
    obtain ⟨hnone, rfl⟩ := FileNames.create_eq_some hcreate
    have halone : (w.procs pid).held = [] :=
      hholding.held_eq_nil fun own _ => by simp [FileNames.read, hnone]
    refine SafeStep.of_create hinv hnone (Or.inl rfl) rfl rfl ⟨?_, ?_⟩
    · refine hholding.moved rfl rfl rfl (Nat.le_succ _) fun own hown => ?_
      rw [halone] at hown
      cases hown
    · refine ⟨FileNames.setName_names_self, FileNames.write_text_self, rfl, rfl,
        Nat.lt_succ_self _, ?_, halone⟩
      intro own hown hnonce
      have hdraw := (hholding.drawn own hown).2
      rw [hnonce] at hdraw
      exact absurd hdraw (lt_irrefl _)
  | payloadWrite file payload =>
    obtain ⟨hname, hempty, hcreator, hfresh⟩ := hat
    refine SafeStep.of_write hempty hcreator rfl le_rfl ⟨?_, ?_⟩
    · refine hholding.moved rfl rfl rfl le_rfl fun own hown => ?_
      rw [hfresh.alone] at hown
      cases hown
    · have hwritten : (MarkerCheck.afterWrite payload).Facts (w.files.write file (.owner payload))
          pid (w.procs pid) := ⟨FileNames.read_write_self hname, hfresh⟩
      exact hwritten.at_pc _
  | selfRelease payload =>
    obtain ⟨hread, hfresh⟩ := hat
    simp only [acquireStep, FileNames.unlink_getD]
    refine SafeStep.of_unlink_lock hinv hpid (Or.inl (hfresh.ownsLock hread)) rfl le_rfl
      ⟨?_, trivial⟩
    refine hholding.moved rfl rfl rfl le_rfl fun own hown => ?_
    rw [hfresh.alone] at hown
    cases hown

/-! ### `releaseOwnerLock` -/

variable {self : OwnerLockPayload}

theorem LockNamed.ownsLock (h : LockNamed files pid self) : OwnsLock files pid := by
  obtain ⟨current, hread, hpid, -⟩ := h
  exact Or.inr ⟨current, hread, hpid⟩

theorem HoldingFacts.eq_of_named (h : HoldingFacts files pid proc) {own : OwnerLockPayload}
    (hself : self ∈ proc.acquired) (hnamed : LockNamed files pid self) (hown : own ∈ proc.held) :
    own = self := by
  obtain ⟨current, hread, -, hnonce⟩ := hnamed
  obtain ⟨hacquired, hlock⟩ := h.held own hown
  have hcurrent : current = own := by
    rw [hread] at hlock
    cases hlock
    rfl
  rw [hcurrent] at hnonce
  exact h.distinct own hacquired self hself hnonce

theorem HoldingFacts.released (h : HoldingFacts files pid proc)
    (hread : ∀ own ∈ proc.held, own ≠ self → next.read .lock = some (.owner own)) :
    HoldingFacts next pid (proc.released self) where
  drawn := h.drawn
  distinct := h.distinct
  held own hown := by
    obtain ⟨hheld, hne⟩ := List.mem_filter.mp hown
    exact ⟨(h.held own hheld).1, hread own hheld (of_decide_eq_true hne)⟩
  recorded nonce hnonce := by
    cases hnonce

theorem lockNamed_of_identityMatch (hself : self.ownerPid = pid)
    (h : identityMatch (parseOwnerPayload (files.read .lock)) self = true) :
    LockNamed files pid self := by
  unfold identityMatch at h
  split at h
  · cases h
  rename_i current hparse
  have hsame := of_decide_eq_true h
  exact ⟨current, (parseOwnerPayload_eq_some hparse).1, hsame.1.trans hself, hsame.2.2⟩

theorem releaseStep_safe (hinv : LockInvariant w) (hpid : (w.procs pid).alive = true)
    {pc : ReleasePc} (hpc : (w.procs pid).pc = .release pc) :
    SafeStep w pid (releaseStep w pid pc).1 (releaseStep w pid pc).2 := by
  obtain ⟨hholding, hat⟩ := hinv.facts pid hpid
  rw [hpc] at hat
  cases pc with
  | payloadRead self ours =>
    obtain ⟨hself, hours⟩ := hat
    simp only [releaseStep]
    split
    · refine SafeStep.of_facts rfl le_rfl ⟨?_, trivial⟩
      exact hholding.released fun own hown _ => (hholding.held own hown).2
    · rename_i hkept
      refine SafeStep.of_facts rfl le_rfl ⟨hholding.at_pc _, hself, ?_⟩
      by_cases hrecorded : ours = true
      · exact hours hrecorded
      · refine lockNamed_of_identityMatch (hholding.drawn self hself).1 ?_
        simpa [hrecorded] using hkept
  | lockUnlink self ours =>
    obtain ⟨hself, hnamed⟩ := hat
    have howns := hnamed.ownsLock
    simp only [releaseStep]
    split
    · rename_i files hunlink
      rw [FileNames.unlink_eq_some hunlink]
      refine SafeStep.of_unlink_lock hinv hpid (Or.inl howns) rfl le_rfl ⟨?_, trivial⟩
      refine hholding.released fun own hown hne => ?_
      exact absurd (hholding.eq_of_named hself hnamed hown) hne
    · rename_i hunlink
      obtain ⟨file, hname⟩ := ReliesOnLock.exists_file (Or.inl howns : ReliesOnLock
        (isPidAlive w) w.files pid)
      rw [FileNames.unlink_eq_none hunlink] at hname
      cases hname
  | lockUnlinkAgain self =>
    obtain ⟨hself, hnamed⟩ := hat
    simp only [releaseStep, FileNames.unlink_getD]
    refine SafeStep.of_unlink_lock hinv hpid (Or.inl hnamed.ownsLock) rfl le_rfl ⟨?_, trivial⟩
    refine hholding.released fun own hown hne => ?_
    exact absurd (hholding.eq_of_named hself hnamed hown) hne

/-! ### `breakStaleLockIfOwnerDead` -/

theorem HoldingFacts.past_setName (h : HoldingFacts files pid proc) {file : Option LockFileId}
    (hpath : LockPath.lock ≠ path) (hacquired : after.acquired = proc.acquired)
    (hheld : after.held = proc.held) (hnonce : after.acquiredNonce = proc.acquiredNonce)
    (hdraws : proc.draws ≤ after.draws) : HoldingFacts (files.setName path file) pid after := by
  refine h.moved hacquired hheld hnonce hdraws fun own _ hread => ?_
  rw [FileNames.read_setName_of_ne hpath]
  exact hread

theorem HoldingFacts.past_write (h : HoldingFacts files pid proc)
    (hunread : files.text file = .empty ∨ ∀ path, files.names path ≠ some file)
    (hacquired : after.acquired = proc.acquired) (hheld : after.held = proc.held)
    (hnonce : after.acquiredNonce = proc.acquiredNonce) (hdraws : proc.draws ≤ after.draws) :
    HoldingFacts (files.write file text) pid after := by
  refine h.moved hacquired hheld hnonce hdraws fun own _ hread => ?_
  have hother : files.names .lock ≠ some file := by
    intro hname
    rcases hunread with hempty | hunnamed
    · simp [FileNames.read, hname, hempty] at hread
    · exact hunnamed _ hname
  rw [FileNames.read_write_of_ne hother]
  exact hread

theorem LockInvariant.unnamed (hinv : LockInvariant w) (path : LockPath) :
    w.files.names path ≠ some ((w.procs pid).createdFile pid) := by
  intro hname
  exact absurd (hinv.numbered path _ hname) (lt_irrefl _)

/-- A name beside the lock and the marker, of this breaker's own, is unlinked. -/
theorem SafeStep.of_unlink_own (hlock : path ≠ .lock) (hmarker : path ≠ .marker)
    (hcandidate : ∀ nonce, path = .candidate nonce → nonce.pid = pid)
    (halive : proc.alive = (w.procs pid).alive) (hcreated : (w.procs pid).created ≤ proc.created)
    (hfacts : ProcessFacts (isPidAlive w) (w.files.setName path none) pid proc) :
    SafeStep w pid (w.files.setName path none) proc := by
  refine SafeStep.of_names (· = path) (fun other hother => FileNames.setName_names_of_ne hother)
    rfl ?_ ?_ ?_ ?_ halive hcreated hfacts
  · exact fun other _ hname => ⟨other, (FileNames.names_of_setName hname).resolve_left (by simp)⟩
  · exact fun _ _ _ h => absurd h.symm hlock
  · exact fun _ _ _ h => absurd h.symm hmarker
  · exact fun nonce h => hcandidate nonce h.symm

theorem OwnsMarker.past_setName (h : OwnsMarker files pid) {file : Option LockFileId}
    (hpath : LockPath.marker ≠ path) : OwnsMarker (files.setName path file) pid := by
  obtain ⟨marker, hread, hpid⟩ := h
  refine ⟨marker, ?_, hpid⟩
  rw [readMarker_eq_some, FileNames.read_setName_of_ne hpath]
  exact readMarker_eq_some.mp hread

section Break

/-- Nobody else has the marker that is removed. -/
theorem ownMarkerUnlink_safe (hholding : HoldingFacts w.files pid (w.procs pid))
    (hmarker : OwnsMarker w.files pid) {result : StaleLockBreakResult} :
    SafeStep w pid (w.files.setName .marker none) ((w.procs pid).breakReturns result) := by
  refine SafeStep.of_names (· = .marker)
    (fun path hpath => FileNames.setName_names_of_ne hpath) rfl ?_ ?_ ?_ ?_ rfl le_rfl
    ⟨hholding.past_setName (by simp) rfl rfl rfl le_rfl, trivial⟩
  · exact fun path _ hname => ⟨path, (FileNames.names_of_setName hname).resolve_left (by simp)⟩
  · intro _ _ _ h
    cases h
  · intro q hne _ _ howns
    exact hne (howns.unique hmarker)
  · intro _ h
    cases h

variable {attempt : BreakAttempt} {ourMarker : MarkerPayload} {files : LockFiles}
  (hholding : HoldingFacts w.files pid (w.procs pid)) (hvalid : attempt.Valid (isPidAlive w) pid)
include hholding hvalid

/-- A takeover leaves everyone safe where nobody alive published what it takes. -/
theorem takeOver_safe (hpid : (w.procs pid).alive = true)
    (hguard : takesLiveMarker w (.run pid) = false)
    (hpc : (w.procs pid).pc = .breakStale (.takeOver attempt))
    (hrename : w.files.rename .marker (.taken attempt.nonce) = some files) :
    SafeStep w pid files ((w.procs pid).breakAt (.takenUnlink attempt)) := by
  obtain ⟨file, hname, rfl⟩ := FileNames.rename_eq_some hrename
  refine SafeStep.of_names (fun path => path = .marker ∨ path = .taken attempt.nonce)
    ?_ rfl ?_ ?_ ?_ ?_ rfl le_rfl ⟨?_, hvalid⟩
  · intro path hpath
    rw [not_or] at hpath
    rw [FileNames.setName_names_of_ne hpath.2, FileNames.setName_names_of_ne hpath.1]
  · intro path named hnamed
    rcases FileNames.names_of_setName hnamed with htaken | hnamed
    · cases htaken
      exact ⟨_, hname⟩
    · exact ⟨path, (FileNames.names_of_setName hnamed).resolve_left (by simp)⟩
  · rintro _ _ _ (h | h) <;> cases h
  · rintro q - hq - ⟨marker, hread, hbreaker⟩
    simp [takesLiveMarker, hpc, hpid, hread, hbreaker, hq] at hguard
  · rintro nonce (h | h) <;> cases h
  · exact hholding.moved rfl rfl rfl le_rfl fun own _ hread => hread

/-- The link publishes the candidate's file as the marker, where none stood. -/
theorem candidateLink_safe
    (hread : w.files.read (.candidate attempt.nonce) = some (.marker ourMarker))
    (hbreaker : ourMarker.breakerPid = pid)
    (hlink : w.files.link (.candidate attempt.nonce) .marker = some files) :
    SafeStep w pid files ((w.procs pid).breakAt (.candidateUnlink attempt true)) := by
  obtain ⟨file, hname, hnone, rfl⟩ := FileNames.link_eq_some hlink
  refine SafeStep.of_names (· = .marker)
    (fun path hpath => FileNames.setName_names_of_ne hpath) rfl ?_ ?_ ?_ ?_ rfl le_rfl
    ⟨hholding.past_setName (by simp) rfl rfl rfl le_rfl, hvalid, fun _ => ?_⟩
  · intro path named hnamed
    rcases FileNames.names_of_setName hnamed with hlinked | hnamed
    · cases hlinked
      exact ⟨_, hname⟩
    · exact ⟨path, hnamed⟩
  · intro _ _ _ h
    cases h
  · intro _ _ _ _ howns
    obtain ⟨named, hnamed⟩ := howns.exists_file
    rw [hnone] at hnamed
    cases hnamed
  · intro _ h
    cases h
  · refine ⟨ourMarker, readMarker_eq_some.mpr ?_, hbreaker⟩
    obtain ⟨named, hnamed, htext⟩ := FileNames.read_eq_some_iff.mp hread
    rw [hname] at hnamed
    cases hnamed
    exact FileNames.read_eq_some_iff.mpr ⟨file, FileNames.setName_names_self, htext⟩

theorem candidateCreate_safe (hinv : LockInvariant w) (hbreaker : ourMarker.breakerPid = pid)
    (hcreate : w.files.create (.candidate attempt.nonce) ((w.procs pid).createdFile pid) .empty
      = some files) :
    SafeStep w pid files
      { (w.procs pid).breakAt (.candidateWrite attempt ourMarker ((w.procs pid).createdFile pid)) with
        created := (w.procs pid).created + 1 } := by
  obtain ⟨hnone, rfl⟩ := FileNames.create_eq_some hcreate
  refine SafeStep.of_create hinv hnone (Or.inr ⟨_, hvalid.nonce, rfl⟩) rfl rfl ⟨?_, ?_⟩
  · have hwritten : HoldingFacts
        (w.files.write ((w.procs pid).createdFile pid) .empty) pid (w.procs pid) :=
      hholding.past_write (Or.inr hinv.unnamed) rfl rfl rfl le_rfl
    exact hwritten.past_setName (by simp) rfl rfl rfl le_rfl
  · exact ⟨hvalid, hbreaker, FileNames.setName_names_self, FileNames.write_text_self, rfl⟩

theorem candidateUnlink_safe {published : Bool}
    (hmarker : published = true → OwnsMarker w.files pid) :
    SafeStep w pid (breakStep w pid (.candidateUnlink attempt published)).1
      (breakStep w pid (.candidateUnlink attempt published)).2 := by
  have hown : ∀ nonce, LockPath.candidate attempt.nonce = .candidate nonce → nonce.pid = pid := by
    rintro nonce h
    cases h
    exact hvalid.nonce
  simp only [breakStep, FileNames.unlink_getD]
  split
  · rename_i hpublished
    refine SafeStep.of_unlink_own (by simp) (by simp) hown rfl le_rfl
      ⟨hholding.past_setName (by simp) rfl rfl rfl le_rfl, hvalid, ?_⟩
    exact (hmarker hpublished).past_setName (by simp)
  · exact SafeStep.of_unlink_own (by simp) (by simp) hown rfl le_rfl
      ⟨hholding.past_setName (by simp) rfl rfl rfl le_rfl, trivial⟩

/-- The lock that is broken is of a dead process, so not one of its own. -/
theorem lockUnlink_safe (hinv : LockInvariant w) (hpid : (w.procs pid).alive = true)
    (hmarker : OwnsMarker w.files pid) (hread : w.files.read .lock = some attempt.rawBefore)
    (hunlink : w.files.unlink .lock = some files) :
    SafeStep w pid files
      { (w.procs pid).breakAt (.ownMarkerRead attempt .broken) with acquiredNonce := none } := by
  have hparse : parseOwnerPayload (w.files.read .lock) = some attempt.parsedBefore := by
    rw [hread]
    exact hvalid.parsed
  have halone : (w.procs pid).held = [] := by
    refine hholding.held_eq_nil fun own hown hlock => ?_
    have hdead := hvalid.dead
    have hnames := OwnsLock.ownerPid_of_parse (Or.inr ⟨own, hlock, hown⟩) hparse
    rw [hnames, hinv.alive_self hpid] at hdead
    cases hdead
  rw [FileNames.unlink_eq_some hunlink]
  refine SafeStep.of_unlink_lock hinv hpid
    (Or.inr ⟨hmarker, attempt.parsedBefore, hparse, hvalid.dead⟩) rfl le_rfl
    ⟨⟨hholding.drawn, hholding.distinct, fun own hown => ?_, fun _ h => by cases h⟩,
      hmarker.past_setName (by simp)⟩
  have hheld : own ∈ (w.procs pid).held := hown
  rw [halone] at hheld
  cases hheld

end Break

theorem breakStep_safe (hinv : LockInvariant w) (hpid : (w.procs pid).alive = true)
    (hguard : takesLiveMarker w (.run pid) = false) {pc : BreakPc}
    (hpc : (w.procs pid).pc = .breakStale pc) :
    SafeStep w pid (breakStep w pid pc).1 (breakStep w pid pc).2 := by
  obtain ⟨hholding, hat⟩ := hinv.facts pid hpid
  rw [hpc] at hat
  have hreturns : ∀ result,
      SafeStep w pid w.files ((w.procs pid).breakReturns result) := fun result =>
    SafeStep.of_facts rfl le_rfl
      ⟨hholding.moved rfl rfl rfl le_rfl fun _ _ hread => hread, trivial⟩
  have hmoves : ∀ next : BreakPc, next.Facts (isPidAlive w) w.files pid →
      SafeStep w pid w.files ((w.procs pid).breakAt next) := fun next hnext =>
    SafeStep.of_facts rfl le_rfl ⟨hholding.at_pc _, hnext⟩
  cases pc with
  | payloadRead deadlineMs =>
    simp only [breakStep]
    split
    · exact hreturns _
    split
    · exact hreturns _
    rename_i hparse
    exact hmoves _ hparse
  | ownerProbe deadlineMs rawBefore parsedBefore =>
    simp only [breakStep]
    split
    · exact hreturns _
    rename_i hdead
    split
    · exact hreturns _
    refine SafeStep.of_facts rfl le_rfl ⟨?_, hat, by simpa using hdead, rfl⟩
    exact hholding.moved rfl rfl rfl (Nat.le_succ _) fun _ _ hread => hread
  | markerExists attempt =>
    have hvalid : attempt.Valid (isPidAlive w) pid := hat
    simp only [breakStep]
    split
    · exact hmoves _ ⟨hvalid, rfl⟩
    · exact hmoves _ hvalid
  | markerRead attempt =>
    simp only [breakStep]
    split
    · exact hreturns _
    · exact hmoves _ hat
  | breakerProbe attempt marker =>
    simp only [breakStep]
    split
    · exact hreturns _
    split
    · exact hreturns _
    · exact hmoves _ hat
  | takeOver attempt =>
    have hvalid : attempt.Valid (isPidAlive w) pid := hat
    simp only [breakStep]
    split
    · exact hreturns _
    rename_i files hrename
    exact takeOver_safe hholding hvalid hpid hguard hpc hrename
  | takenUnlink attempt =>
    have hvalid : attempt.Valid (isPidAlive w) pid := hat
    simp only [breakStep, FileNames.unlink_getD]
    refine SafeStep.of_unlink_own (by simp) (by simp) (fun _ h => by cases h) rfl le_rfl
      ⟨?_, hvalid, rfl⟩
    exact hholding.past_setName (by simp) rfl rfl rfl le_rfl
  | candidateCreate attempt ourMarker =>
    obtain ⟨hvalid, hbreaker⟩ := hat
    simp only [breakStep]
    split
    · exact hmoves _ ⟨hvalid, fun h => by cases h⟩
    rename_i files hcreate
    exact candidateCreate_safe hholding hvalid hinv hbreaker hcreate
  | candidateWrite attempt ourMarker file =>
    obtain ⟨hvalid, hbreaker, hname, hempty, hcreator⟩ := hat
    refine SafeStep.of_write hempty hcreator rfl le_rfl
      ⟨hholding.past_write (Or.inl hempty) rfl rfl rfl le_rfl, ?_⟩
    exact ⟨hvalid, ourMarker, FileNames.read_write_self hname, hbreaker⟩
  | candidateLink attempt =>
    obtain ⟨hvalid, ourMarker, hread, hbreaker⟩ := hat
    simp only [breakStep]
    split
    · exact hmoves _ ⟨hvalid, fun h => by cases h⟩
    rename_i files hlink
    exact candidateLink_safe hholding hvalid hread hbreaker hlink
  | candidateUnlink attempt published => exact candidateUnlink_safe hholding hat.1 hat.2
  | payloadReread attempt =>
    obtain ⟨hvalid, hmarker⟩ := hat
    simp only [breakStep]
    split
    · exact hmoves _ hmarker
    rename_i hsame
    exact hmoves _ ⟨hvalid, hmarker, not_not.mp hsame⟩
  | ownerReprobe attempt =>
    simp only [breakStep]
    split
    · exact hmoves _ hat.2.1
    · exact hmoves _ hat
  | lockUnlink attempt =>
    obtain ⟨hvalid, hmarker, hread⟩ := hat
    simp only [breakStep]
    split
    · exact hmoves _ hmarker
    rename_i files hunlink
    exact lockUnlink_safe hholding hvalid hinv hpid hmarker hread hunlink
  | ownMarkerRead attempt result =>
    simp only [breakStep]
    split
    · exact hmoves _ hat
    · exact hreturns _
  | ownMarkerUnlink attempt result =>
    simp only [breakStep, FileNames.unlink_getD]
    exact ownMarkerUnlink_safe hholding hat

end Steps

/-! ## Runs -/

theorem SafeStep.enter {w : LockWorld} (hinv : LockInvariant w) {pid : Nat}
    (hpid : (w.procs pid).alive = true) (call : LockCall) :
    SafeStep w pid w.files ((w.procs pid).enter w.now call) := by
  obtain ⟨hholding, -⟩ := hinv.facts pid hpid
  have hreturns : ∀ result, SafeStep w pid w.files ((w.procs pid).breakReturns result) :=
    fun result => SafeStep.of_facts rfl le_rfl
      ⟨hholding.moved rfl rfl rfl le_rfl fun _ _ hread => hread, trivial⟩
  cases call with
  | acquireOwnerLockOnce agent taskId startBoundMs =>
    exact SafeStep.of_facts rfl le_rfl ⟨hholding.at_pc _, trivial⟩
  | releaseOwnerLock self =>
    simp only [LockProcess.enter]
    split
    · rename_i hself
      refine SafeStep.of_facts rfl le_rfl ⟨hholding.at_pc _, hself, fun hours => ?_⟩
      -- the acquire record names what is held
      obtain ⟨own, hown, hnonce⟩ := hholding.recorded _ (of_decide_eq_true hours)
      obtain ⟨hacquired, hread⟩ := hholding.held own hown
      exact ⟨own, hread, (hholding.drawn own hacquired).1, hnonce⟩
    · exact SafeStep.of_facts rfl le_rfl (hinv.facts pid hpid)
  | breakStaleLockIfOwnerDead deadlineMs =>
    simp only [LockProcess.enter]
    split
    · exact hreturns _
    split
    · exact hreturns _
    · exact SafeStep.of_facts rfl le_rfl ⟨hholding.at_pc _, trivial⟩

theorem runStep_safe {w : LockWorld} (hinv : LockInvariant w) {pid : Nat}
    (hpid : (w.procs pid).alive = true) (hguard : takesLiveMarker w (.run pid) = false) :
    SafeStep w pid (runStep w pid).1 (runStep w pid).2 := by
  unfold runStep
  split
  · exact SafeStep.of_facts rfl le_rfl (hinv.facts pid hpid)
  · rename_i hpc
    exact acquireStep_safe hinv hpid hpc
  · rename_i hpc
    exact releaseStep_safe hinv hpid hpc
  · rename_i hpc
    exact breakStep_safe hinv hpid hguard hpc

variable {alive alive' : Int → Bool}

theorem BreakAttempt.Valid.mono {pid : Nat} {attempt : BreakAttempt} (h : attempt.Valid alive pid)
    (hdead : ∀ pid, alive pid = false → alive' pid = false) : attempt.Valid alive' pid :=
  ⟨h.parsed, hdead _ h.dead, h.nonce⟩

theorem ProcessFacts.mono {files : LockFiles} {pid : Nat} {proc : LockProcess}
    (h : ProcessFacts alive files pid proc) (hdead : ∀ pid, alive pid = false → alive' pid = false) :
    ProcessFacts alive' files pid proc := by
  refine ⟨h.holding, ?_⟩
  have hpc := h.pc
  cases hat : proc.pc with
  | idle => trivial
  | acquire pc agent taskId startBoundMs | release pc =>
    rw [hat] at hpc
    exact hpc
  | breakStale pc =>
    rw [hat] at hpc
    have hfacts : pc.Facts alive files pid := hpc
    show pc.Facts alive' files pid
    cases pc with
    | payloadRead deadlineMs => trivial
    | ownerProbe deadlineMs rawBefore parsedBefore | ownMarkerRead attempt result
    | ownMarkerUnlink attempt result => exact hfacts
    | markerExists attempt | markerRead attempt | breakerProbe attempt marker | takeOver attempt
    | takenUnlink attempt => exact hfacts.mono hdead
    | candidateCreate attempt ourMarker | candidateWrite attempt ourMarker file
    | candidateLink attempt | candidateUnlink attempt published | payloadReread attempt
    | ownerReprobe attempt | lockUnlink attempt => exact ⟨hfacts.1.mono hdead, hfacts.2⟩

theorem LockInvariant.crash {w : LockWorld} (h : LockInvariant w) (pid : Nat) :
    LockInvariant (lockStep w (.crash pid)) := by
  have hproc : ∀ q, q ≠ pid → (lockStep w (.crash pid)).procs q = w.procs q :=
    fun q hne => Function.update_of_ne hne _ _
  have hself : (lockStep w (.crash pid)).procs pid = { w.procs pid with alive := false } :=
    Function.update_self _ _ _
  refine ⟨?_, ?_, ?_⟩
  · by_cases hzero : 0 = pid
    · rw [hzero, hself]
    · rw [hproc 0 hzero]
      exact h.noPidZero
  · intro path file hname
    have hcount := h.numbered path file hname
    by_cases hcreator : file.creator = pid
    · rw [hcreator] at hcount
      rw [hcreator, hself]
      exact hcount
    · rw [hproc _ hcreator]
      exact hcount
  · intro q hq
    by_cases hqp : q = pid
    · rw [hqp, hself] at hq
      cases hq
    · rw [hproc q hqp] at hq ⊢
      refine (h.facts q hq).mono fun other hdead => ?_
      unfold isPidAlive at hdead ⊢
      by_cases hother : other.toNat = pid
      · rw [hother, hself, Bool.and_false]
      · rw [hproc _ hother]
        exact hdead

theorem LockInvariant.step {w : LockWorld} (h : LockInvariant w) {event : LockEvent}
    (hguard : takesLiveMarker w event = false) : LockInvariant (lockStep w event) := by
  cases event with
  | tick ms => exact ⟨h.noPidZero, h.numbered, h.facts⟩
  | crash pid => exact h.crash pid
  | call pid call =>
    simp only [lockStep]
    split
    · rename_i hpid _
      exact h.setProc (SafeStep.enter h hpid call)
    · exact h
  | run pid =>
    simp only [lockStep]
    split
    · rename_i hpid
      exact h.setProc (runStep_safe h hpid hguard)
    · exact h

theorem LockStart.invariant {w : LockWorld} (h : LockStart w) : LockInvariant w := by
  refine ⟨h.noPidZero, h.numbered, fun pid _ => ⟨⟨?_, ?_, ?_, ?_⟩, ?_⟩⟩
  · intro own hown
    rw [h.acquired] at hown
    cases hown
  · intro own hown
    rw [h.acquired] at hown
    cases hown
  · intro own hown
    rw [h.held] at hown
    cases hown
  · intro nonce hnonce
    rw [h.acquiredNonce] at hnonce
    cases hnonce
  · rw [h.idle]
    trivial

theorem LockInvariant.mutuallyExclusive {w : LockWorld} (h : LockInvariant w) :
    MutuallyExclusive w := by
  have howns : ∀ pid, (w.procs pid).alive = true → (w.procs pid).held ≠ [] →
      OwnsLock w.files pid := by
    intro pid hpid hheld
    obtain ⟨hholding, -⟩ := h.facts pid hpid
    obtain ⟨own, hown⟩ := List.exists_mem_of_ne_nil _ hheld
    obtain ⟨hacquired, hread⟩ := hholding.held own hown
    exact Or.inr ⟨own, hread, (hholding.drawn own hacquired).1⟩
  intro p q hp hq hpheld hqheld
  exact (howns p hp hpheld).unique (howns q hq hqheld)

/-- Mutual exclusion over every run in which no takeover renames away the marker
    of a live breaker. -/
theorem mutuallyExclusive_of_run {w : LockWorld} (hstart : LockStart w) {events : List LockEvent}
    (hguard : Along lockStep (fun w event => takesLiveMarker w event = false) w events) :
    MutuallyExclusive (events.foldl lockStep w) := by
  have hrun := Run.of_foldl hguard
  have hinv : LockInvariant (events.foldl lockStep w) := by
    refine Run.preserves ?_ hrun hstart.invariant
    rintro s event _ ⟨rfl, hfree⟩ hs
    exact hs.step hfree
  exact hinv.mutuallyExclusive

/-! ## Two breakers -/

/-- A process that has done nothing yet. -/
def idleProcess (alive : Bool) : LockProcess where
  alive := alive
  pc := .idle
  draws := 1
  created := 1
  acquired := []
  held := []
  acquiredNonce := none
  breakAttemptAt := none
  breakResult := none

/-- The lock of the dead process 1, and the aged marker of the dead breaker 2. -/
def staleLock : LockWorld where
  files :=
    { names := fun path => match path with
        | .lock => some ⟨1, 0⟩
        | .marker => some ⟨2, 0⟩
        | _ => none
      text := fun file =>
        if file.creator = 1 then
          .owner
            { nonce := ⟨1, 0⟩, ownerPid := 1, startBoundMs := 0, agent := js "coder",
              taskId := js "1.1", acquiredAtMs := 0 }
        else .marker { breakerPid := 2, nonce := ⟨2, 0⟩, createdAtMs := 0 } }
  now := 60001
  procs := fun pid => idleProcess (decide (2 < pid))

theorem lockStart_staleLock : LockStart staleLock := by
  refine ⟨fun _ => rfl, fun _ => rfl, fun _ => rfl, fun _ => rfl, rfl, ?_⟩
  intro path file hname
  cases path with
  | lock | marker =>
    cases hname
    exact Nat.zero_lt_one
  | candidate nonce | taken nonce => cases hname

def acquires (pid : Nat) : LockEvent :=
  .call pid (.acquireOwnerLockOnce (js "coder") (js "1.2") 0)

def breaks (pid : Nat) : LockEvent := .call pid (.breakStaleLockIfOwnerDead none)

def runs (pid steps : Nat) : List LockEvent := List.replicate steps (.run pid)

/-- One breaker, then one acquire. -/
theorem mutuallyExclusive_oneBreaker :
    MutuallyExclusive
      ((breaks 3 :: runs 3 16 ++ .crash 4 :: acquires 5 :: runs 5 4).foldl lockStep staleLock) :=
  mutuallyExclusive_of_run lockStart_staleLock (by decide +kernel)

/-- Breaker 3 has read the dead breaker's marker when breaker 4 takes it over and
    publishes; 3 then renames the marker of 4 away, and each of them unlinks the
    lock, the second time that of process 5. -/
def breakRace : List LockEvent :=
  acquires 5 :: runs 5 3
    ++ breaks 3 :: runs 3 5
    ++ breaks 4 :: runs 4 13
    -- 3 takes the live marker over, and finds the lock as it was
    ++ runs 3 8
    -- 4 breaks the lock, 5 creates and writes it anew, 3 breaks that
    ++ runs 4 2 ++ runs 5 2 ++ runs 3 3
    -- no marker is left to stop 5, no lock to stop 6
    ++ runs 5 1
    ++ acquires 6 :: runs 6 4

theorem not_mutuallyExclusive_breakRace :
    LockStart staleLock ∧ ¬ MutuallyExclusive (breakRace.foldl lockStep staleLock) := by
  refine ⟨lockStart_staleLock, fun h => ?_⟩
  have hsame : 5 = 6 := h 5 6 (by decide +kernel) (by decide +kernel) (by decide +kernel)
    (by decide +kernel)
  cases hsame

end OpencodeSwarm
