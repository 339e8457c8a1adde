/-
  OpencodeSwarm.Plan.TruncatedRecovery

  `replaceTruncatedLedgerWithRecoveryRoot` (`src/plan/ledger.ts`): a malformed
  ledger file is replaced by a single `plan_created` root.  The SQLite shadow is
  not touched, so whether the recovery holds is decided by the next
  `coordinateLedger` calls.

  They accept the new root only when the shadow is empty or starts with another
  plan identity, and retains no plan epoch.  A shadow that extends a non-empty
  good prefix starts with the identity of the root and is refused as divergent.
-/
import OpencodeSwarm.Plan.Coordinate

namespace OpencodeSwarm

open Js Transition

section Recovery

variable (sha256 : JsString → JsString) (eventHash : LedgerEvent → JsString)
  (printPlan : Option Plan → JsString) (fileHash : List LedgerFileLine → JsString)

/-! ## The operation -/

/-- The order of `[...events].sort((a, b) => a.seq - b.seq)`. -/
def sortBySeq (events : List LedgerEvent) : List LedgerEvent :=
  events.insertionSort fun a b => a.seq ≤ b.seq

/-- `readLedgerEvents`: past a bad line it is lenient. -/
def readLedgerEvents (call : LedgerCallEnv) (disk : LedgerDisk) :
    LedgerDisk × Except CoordinateError (List LedgerEvent) :=
  let (disk', read) := coordinateLedger sha256 eventHash printPlan fileHash call disk
  (disk', read.map fun read =>
    sortBySeq (if read.truncated then read.lenientEvents else read.events))

def readLedgerEventsWithIntegrity (call : LedgerCallEnv) (disk : LedgerDisk) :
    LedgerDisk × Except CoordinateError FileLedgerRead :=
  if disk.file.isNone && disk.store.events.isEmpty then (disk, .ok (.ofEvents []))
  else
    let (disk', read) := coordinateLedger sha256 eventHash printPlan fileHash call disk
    (disk', read.map fun read => { read with events := sortBySeq read.events })

inductive RecoveryError where
  | coordinate (error : CoordinateError)
  | invalidPlan
  /-- `Stale writer: canonical ledger disappeared before truncated-ledger recovery`. -/
  | ledgerDisappeared
  /-- `Stale writer: ledger identity or tail changed before truncated-ledger recovery`. -/
  | tailChanged
  /-- `Stale writer: ledger is no longer truncated; retry against its current tail`. -/
  | noLongerTruncated
  /-- `Stale writer: raw ledger bytes no longer contain the malformed suffix …`. -/
  | noMalformedSuffix

/-- What the clock and the archive step contribute to the root: its timestamp
    and the text of `payload.recovery`. -/
structure RecoveryStamp where
  timestamp : JsString
  recovery : JsString

/-- The recovery root.  Unlike the roots of `initLedger` and
    `replacePlanLedgerWithRoot` its payload has no `plan_epoch`. -/
def recoveryRoot (stamp : RecoveryStamp) (plan : Plan) : LedgerEvent where
  seq := 1
  timestamp := stamp.timestamp
  planId := derivePlanId plan
  eventType := .planCreated
  source := js "save_plan_truncated_ledger_reconcile"
  planHashBefore := []
  planHashAfter := computePlanLedgerHash sha256 plan
  payload := some
    { plan := some plan
      payloadHash := some (computePlanLedgerHash sha256 plan)
      rest := stamp.recovery }

/-- `replaceTruncatedLedgerWithRecoveryRoot`, under the ledger lock; `call` and
    `call'` are the environments of its two coordinated reads. -/
def replaceTruncatedLedgerWithRecoveryRoot (call call' : LedgerCallEnv) (stamp : RecoveryStamp)
    (disk : LedgerDisk) (plan : Plan) (expected : ExpectedTail) :
    Except RecoveryError (LedgerDisk × LedgerEvent) :=
  if !plan.wellFormed then .error .invalidPlan
  else if disk.file.isNone then .error .ledgerDisappeared
  else
    match readLedgerEvents sha256 eventHash printPlan fileHash call disk with
    | (_, .error err) => .error (.coordinate err)
    | (disk, .ok events) =>
      if !(events.getLast?.any fun tail =>
            tail.seq == expected.seq && tail.planHashAfter == expected.ledgerHash)
          || events.head?.map LedgerEvent.planId != some (derivePlanId plan) then
        .error .tailChanged
      else
        match readLedgerEventsWithIntegrity sha256 eventHash printPlan fileHash call' disk with
        | (_, .error err) => .error (.coordinate err)
        | (disk, .ok integrity) =>
          if !integrity.truncated || integrity.badSuffix.isNone then .error .noLongerTruncated
          else if !((disk.file.getD []).any fun line => line matches .unparsable _) then
            .error .noMalformedSuffix
          else
            let root := recoveryRoot sha256 stamp plan
            .ok ({ disk with file := some [.event root] }, root)

end Recovery

section Facts

variable {sha256 : JsString → JsString} {eventHash : LedgerEvent → JsString}
  {printPlan : Option Plan → JsString} {fileHash : List LedgerFileLine → JsString}

/-! ## What a successful recovery starts from -/

/-- The store is empty, or readable and in shadow mode. -/
def ShadowReadable (sha256 : JsString → JsString) (eventHash : LedgerEvent → JsString)
    (store : SqliteLedgerStore) : Prop :=
  store.events = [] ∨ ∃ state, readSqliteLedgerEvents sha256 eventHash store
    = .ok (store.rows, some state) ∧ state.authorityMode = .fileShadow

variable {store : SqliteLedgerStore} {rows : List LedgerEvent}

theorem readSqliteLedgerEvents_eq_ok {state : Option PlanLedgerState}
    (h : readSqliteLedgerEvents sha256 eventHash store = .ok (rows, state)) :
    rows = store.rows ∧ state = store.state
      ∧ validateStateAgainstRows sha256 eventHash store.state store.rows = .ok () := by
  unfold readSqliteLedgerEvents at h
  split at h
  · cases h
  rename_i hvalid
  cases h
  exact ⟨rfl, rfl, hvalid⟩

variable {call : LedgerCallEnv} {disk disk' : LedgerDisk} {read : FileLedgerRead}

/-- Past the re-root the file is left alone and returned as it was read. -/
theorem coordinateShadowRows_eq_ok {file : FileLedgerRead}
    (h : coordinateShadowRows sha256 eventHash printPlan call disk file rows = (disk', .ok read)) :
    read = file ∧ disk'.file = disk.file := by
  unfold coordinateShadowRows at h
  split at h
  · cases h
  split at h
  · cases h
    exact ⟨rfl, rfl⟩
  · split at h <;> cases h
    exact ⟨rfl, rfl⟩

@[simp] theorem goodPrefix_map_event (events : List LedgerEvent) :
    goodPrefix (events.map .event) = events := by
  induction events with
  | nil => rfl
  | cons e events ih => rw [List.map_cons, goodPrefix, ih]

@[simp] theorem badSuffix_map_event (events : List LedgerEvent) :
    badSuffix (events.map .event) = [] := by
  induction events with
  | nil => rfl
  | cons e events ih => rw [List.map_cons, badSuffix, ih]

theorem readFileLedgerExact_map_event (events : List LedgerEvent) :
    readFileLedgerExact (some (events.map .event)) = .ofEvents events := by
  have hlenient : (events.map LedgerFileLine.event).filterMap LedgerFileLine.event? = events := by
    rw [List.filterMap_map]
    exact List.filterMap_some
  simp [readFileLedgerExact, FileLedgerRead.ofEvents, hlenient]

theorem map_event_of_badSuffix_nil {lines : List LedgerFileLine} (h : badSuffix lines = []) :
    lines = (goodPrefix lines).map .event := by
  induction lines with
  | nil => rfl
  | cons line lines ih =>
    cases line with
    | event e => rw [goodPrefix, List.map_cons, ← ih h]
    | invalidShape text => cases h
    | unparsable text => cases h

theorem readFileLedgerExact_of_complete {file : Option (List LedgerFileLine)}
    (h : (readFileLedgerExact file).truncated = false) :
    readFileLedgerExact file = .ofEvents (readFileLedgerExact file).events := by
  have hnil : badSuffix (file.getD []) = [] := by simpa [readFileLedgerExact] using h
  have hlines := map_event_of_badSuffix_nil hnil
  calc readFileLedgerExact file = readFileLedgerExact (some (file.getD [])) := rfl
    _ = readFileLedgerExact (some ((goodPrefix (file.getD [])).map .event)) := by rw [← hlines]
    _ = .ofEvents (readFileLedgerExact file).events := readFileLedgerExact_map_event _

theorem coordinateFileShadow_read
    (h : coordinateFileShadow sha256 eventHash printPlan fileHash call disk
      (readFileLedgerExact disk.file) rows = (disk', .ok read)) :
    read = readFileLedgerExact disk'.file ∧ (read.truncated = true → disk' = disk) := by
  unfold coordinateFileShadow at h
  split at h
  · cases h
    exact ⟨(readFileLedgerExact_map_event rows).symm, fun ht => by cases ht⟩
  · split at h
    · split at h
      · cases h
        exact ⟨rfl, fun _ => rfl⟩
      · cases h
    · next hcomplete =>
      -- from here on the file is returned as read, and it is complete
      have hdone : read = readFileLedgerExact disk.file ∧ disk'.file = disk.file →
          read = readFileLedgerExact disk'.file ∧ (read.truncated = true → disk' = disk) := by
        rintro ⟨rfl, hfile⟩
        exact ⟨by rw [hfile], fun ht => absurd ht hcomplete⟩
      split at h
      · split at h
        · cases h
          exact hdone ⟨rfl, rfl⟩
        · split at h
          · cases h
            exact hdone ⟨rfl, rfl⟩
          · obtain ⟨hread, hfile⟩ := coordinateShadowRows_eq_ok h
            exact hdone ⟨hread, hfile⟩
      · exact hdone (coordinateShadowRows_eq_ok h)

theorem eq_of_exactPrefix {front complete : List LedgerEvent}
    (hlength : front.length = complete.length) (h : exactPrefix front complete = true) :
    front = complete :=
  (List.isPrefixOf_iff_prefix.mp h).eq_of_length hlength

theorem coordinateSqlite_read
    (h : coordinateSqlite disk (readFileLedgerExact disk.file) rows = (disk', .ok read)) :
    read = readFileLedgerExact disk'.file ∧ read.truncated = false := by
  unfold coordinateSqlite at h
  split at h
  · cases h
    exact ⟨(readFileLedgerExact_map_event rows).symm, rfl⟩
  · next hsame =>
    cases h
    simp only [not_or, Bool.not_eq_true, Bool.not_eq_false', not_not, ne_eq] at hsame
    obtain ⟨hcomplete, hlength, hbegins⟩ := hsame
    have heq := eq_of_exactPrefix hlength (by simpa using hbegins)
    rw [readFileLedgerExact_of_complete hcomplete, heq]
    exact ⟨rfl, rfl⟩

/-- Outside a reset, a coordinated read returns what the file then holds; one
    that comes back truncated changed nothing and found the shadow readable. -/
theorem coordinateLedger_read (hreset : disk.resetting = false)
    (h : coordinateLedger sha256 eventHash printPlan fileHash call disk = (disk', .ok read)) :
    read = readFileLedgerExact disk'.file
      ∧ (read.truncated = true → disk' = disk ∧ ShadowReadable sha256 eventHash disk.store) := by
  rw [coordinateLedger, if_neg (by simp [hreset])] at h
  dsimp only at h
  split at h
  · next hempty =>
    have hnil : disk.store.events = [] := by simpa using hempty
    split at h
    · next hcomplete =>
      rw [Bool.and_eq_true, Bool.not_eq_true', Bool.not_eq_true'] at hcomplete
      split at h <;> cases h <;>
        exact ⟨rfl, fun ht => absurd ht (by rw [hcomplete.2]; exact Bool.false_ne_true)⟩
    · cases h
      exact ⟨rfl, fun _ => ⟨rfl, Or.inl hnil⟩⟩
  · split at h
    · cases h
    · cases h
    · next rows state hread =>
      obtain ⟨rfl, -, -⟩ := readSqliteLedgerEvents_eq_ok hread
      split at h
      · next hmode =>
        obtain ⟨hfile, hsame⟩ := coordinateFileShadow_read h
        exact ⟨hfile, fun ht => ⟨hsame ht, Or.inr ⟨state, hread, hmode⟩⟩⟩
      · obtain ⟨hfile, hcomplete⟩ := coordinateSqlite_read h
        exact ⟨hfile, fun ht => absurd ht (by rw [hcomplete]; exact Bool.false_ne_true)⟩

theorem coordinateLedger_resetting (h : disk.resetting = true) :
    coordinateLedger sha256 eventHash printPlan fileHash call disk
      = (disk, .ok (.ofEvents [])) := by
  rw [coordinateLedger, if_pos h]

variable (sha256 eventHash printPlan fileHash) in
theorem coordinateLedger_marker (call : LedgerCallEnv) (disk : LedgerDisk) :
    (coordinateLedger sha256 eventHash printPlan fileHash call disk).1.resetting = disk.resetting := by
  have hrows : ∀ (d : LedgerDisk) (file : FileLedgerRead) (rows : List LedgerEvent),
      (coordinateShadowRows sha256 eventHash printPlan call d file rows).1.resetting
        = d.resetting := by
    intro d file rows
    unfold coordinateShadowRows
    repeat' split
    all_goals rfl
  have hshadow : ∀ (file : FileLedgerRead) (rows : List LedgerEvent),
      (coordinateFileShadow sha256 eventHash printPlan fileHash call disk file rows).1.resetting
        = disk.resetting := by
    intro file rows
    unfold coordinateFileShadow
    repeat' split
    all_goals first | rfl | exact hrows _ _ _
  dsimp only [coordinateLedger, coordinateSqlite]
  repeat' split
  all_goals first | rfl | exact hshadow _ _

variable {events : List LedgerEvent}

theorem readLedgerEvents_eq_ok
    (h : readLedgerEvents sha256 eventHash printPlan fileHash call disk = (disk', .ok events)) :
    ∃ read, coordinateLedger sha256 eventHash printPlan fileHash call disk = (disk', .ok read)
      ∧ events = sortBySeq (if read.truncated then read.lenientEvents else read.events) := by
  unfold readLedgerEvents at h
  cases hread : coordinateLedger sha256 eventHash printPlan fileHash call disk with
  | mk disk₁ result =>
    rw [hread] at h
    cases result with
    | error err => cases h
    | ok read =>
      cases h
      exact ⟨read, rfl, rfl⟩

theorem readLedgerEventsWithIntegrity_truncated {integrity : FileLedgerRead}
    (h : readLedgerEventsWithIntegrity sha256 eventHash printPlan fileHash call disk
      = (disk', .ok integrity)) (htruncated : integrity.truncated = true) :
    ∃ read, coordinateLedger sha256 eventHash printPlan fileHash call disk = (disk', .ok read)
      ∧ read.truncated = true := by
  unfold readLedgerEventsWithIntegrity at h
  split at h
  · cases h
    cases htruncated
  · cases hread : coordinateLedger sha256 eventHash printPlan fileHash call disk with
    | mk disk₁ result =>
      rw [hread] at h
      cases result with
      | error err => cases h
      | ok read =>
        cases h
        exact ⟨read, rfl, htruncated⟩

variable {root : LedgerEvent} {plan : Plan}

theorem replaceTruncatedLedgerWithRecoveryRoot_eq_ok {call' : LedgerCallEnv} {stamp : RecoveryStamp}
    {expected : ExpectedTail}
    (h : replaceTruncatedLedgerWithRecoveryRoot sha256 eventHash printPlan fileHash call call' stamp
      disk plan expected = .ok (disk', root)) :
    root = recoveryRoot sha256 stamp plan ∧ disk' = { disk with file := some [.event root] }
      ∧ plan.wellFormed = true ∧ disk.resetting = false
      ∧ ShadowReadable sha256 eventHash disk.store := by
  unfold replaceTruncatedLedgerWithRecoveryRoot at h
  split at h
  · cases h
  rename_i hplan
  split at h
  · cases h
  split at h
  · cases h
  rename_i disk₁ events hread₁
  obtain ⟨read₁, hread₁, hevents⟩ := readLedgerEvents_eq_ok hread₁
  split at h
  · cases h
  rename_i htail
  split at h
  · cases h
  rename_i disk₂ integrity hread₂
  split at h
  · cases h
  rename_i htruncated
  rw [Bool.not_eq_true, Bool.or_eq_false_iff, Bool.not_eq_false'] at htruncated
  obtain ⟨read₂, hread₂, htruncated₂⟩ :=
    readLedgerEventsWithIntegrity_truncated hread₂ htruncated.1
  split at h
  · cases h
  cases h
  have hreset : disk.resetting = false := by
    -- under the reset marker the ledger reads as empty and has no tail
    cases hreset : disk.resetting with
    | false => rfl
    | true =>
      rw [coordinateLedger_resetting hreset] at hread₁
      cases hread₁
      rw [hevents] at htail
      exact absurd rfl htail
  have hreset₁ : disk₁.resetting = false := by
    have hmarker := coordinateLedger_marker sha256 eventHash printPlan fileHash
      call disk
    rw [hread₁] at hmarker
    exact hmarker.trans hreset
  obtain ⟨hfile₁, hsame₁⟩ := coordinateLedger_read hreset hread₁
  obtain ⟨hfile₂, hsame₂⟩ := coordinateLedger_read hreset₁ hread₂
  obtain ⟨rfl, hshadow⟩ := hsame₂ htruncated₂
  have htruncated₁ : read₁.truncated = true := by
    rw [hfile₁, ← hfile₂, htruncated₂]
  obtain ⟨rfl, -⟩ := hsame₁ htruncated₁
  exact ⟨rfl, rfl, by simpa using hplan, hreset, hshadow⟩

/-! ## Later reads -/

variable {contents : List LedgerEvent}

/-- The parity record, written now or already there, is the one just computed. -/
theorem recordParityIfChanged_faithful (hstore : store.Faithful sha256 eventHash contents)
    {current : PlanLedgerState} (hcurrent : store.state = some current)
    (hchecks : current.ProjectionChecks sha256) (fileProjection : EventsProjection)
    (sqliteReplayHash : JsString) :
    (recordParityIfChanged sha256 store current fileProjection sqliteReplayHash).Faithful sha256
        eventHash contents ∧ ∃ refreshed, (recordParityIfChanged sha256 store current fileProjection
            sqliteReplayHash).state = some refreshed
        ∧ refreshed.parityStatus = parityOf fileProjection sqliteReplayHash current
        ∧ refreshed.fileReplayHash = some fileProjection.replayHash
        ∧ refreshed.sqliteReplayHash = some sqliteReplayHash := by
  unfold recordParityIfChanged
  split
  · refine ⟨(run_recordParity_faithful_iff hstore _ _ _ _).mpr (Or.inr ?_), _, rfl, rfl, rfl, rfl⟩
    rw [hcurrent]
    rcases hchecks with hchecks | hchecks
    · exact Or.inl hchecks
    · refine Or.inr fun state hstate => ?_
      cases hstate
      exact hchecks
  · next hsame =>
    simp only [not_or, not_ne_iff] at hsame
    exact ⟨hstore, current, hcurrent, hsame⟩

/-- A due cutover succeeds: a clean record has equal, non-empty hashes. -/
theorem cutoverIfDue_faithful (call : LedgerCallEnv)
    (hstore : store.Faithful sha256 eventHash contents) {refreshed : PlanLedgerState}
    (hrefreshed : store.state = some refreshed)
    (hclean : refreshed.parityStatus = .clean → truthyString refreshed.fileReplayHash ≠ none
      ∧ refreshed.fileReplayHash = refreshed.sqliteReplayHash) :
    ∃ store', cutoverIfDue call store = (store', .ok ())
      ∧ store'.Faithful sha256 eventHash contents := by
  rw [cutoverIfDue, hrefreshed]
  dsimp only
  split
  · exact ⟨store, rfl, hstore⟩
  rename_i version hversion
  split
  · next hdue =>
    have hrun : cutoverSqliteLedger store version
        = .ok { store with state := some { refreshed with authorityMode := .sqlite } } := by
      rw [cutoverSqliteLedger, hrefreshed]
      dsimp only
      rw [if_neg, if_neg (not_ne_iff.mpr hversion)]
      rw [not_or, not_or, not_ne_iff, not_ne_iff]
      exact ⟨hdue.1, (hclean hdue.1).1, (hclean hdue.1).2⟩
    rw [hrun]
    exact ⟨_, rfl, run_cutover_faithful hstore hrun⟩
  · exact ⟨store, rfl, hstore⟩

variable {planJson : Option Plan}

theorem eventsProjection_replayHash_ne_nil (hdigest : ∀ text, sha256 text ≠ [])
    {projection : EventsProjection}
    (h : eventsProjection sha256 printPlan planJson events = .ok projection) :
    projection.replayHash ≠ [] := by
  cases hplan : reconstructPlanFromEvents planJson events with
  | error err => rw [eventsProjection, hplan] at h; cases h
  | ok plan =>
    rw [eventsProjection, hplan] at h
    cases h
    cases plan with
    | none | some plan => exact hdigest _

/-- Parity and cutover succeed on a readable non-empty store and keep it.  The
    digest is never the empty string, which is what the cutover guard rejects. -/
theorem recordParityAndCutover_faithful (hdigest : ∀ text, sha256 text ≠ []) (call : LedgerCallEnv)
    (hstore : store.Faithful sha256 eventHash contents) (hne : contents ≠ [])
    {projection : EventsProjection}
    (hproj : eventsProjection sha256 printPlan planJson events = .ok projection) :
    ∃ store', recordParityAndCutover sha256 eventHash printPlan call planJson store events
        = (store', .ok ()) ∧ store'.Faithful sha256 eventHash contents := by
  obtain ⟨last, hlast⟩ := Option.isSome_iff_exists.mp (List.getLast?_isSome.mpr hne)
  have hrows : store.rows = contents := by
    rw [rows_eq_of_contiguous (hstore.events_eq ▸ hstore.contiguous), hstore.events_eq]
  obtain ⟨state, hstate, -, -, hchecks⟩ := readable_state hlast (hrows ▸ hstore.readable)
  obtain ⟨hrecorded, refreshed, hrefreshed, hstatus, hfileHash, hsqliteHash⟩ :=
    recordParityIfChanged_faithful hstore hstate hchecks projection
      ((contents.getLast?.map LedgerEvent.planHashAfter).getD [])
  have hclean : refreshed.parityStatus = .clean → truthyString refreshed.fileReplayHash ≠ none
      ∧ refreshed.fileReplayHash = refreshed.sqliteReplayHash := by
    intro hstatus'
    rw [hstatus, parityOf] at hstatus'
    split at hstatus'
    · next hequal =>
      refine ⟨?_, by rw [hfileHash, hsqliteHash, hequal.1]⟩
      simpa [hfileHash, truthyString] using eventsProjection_replayHash_ne_nil hdigest hproj
    · cases hstatus'
  obtain ⟨store', hcutover, hfaithful⟩ := cutoverIfDue_faithful call hrecorded hrefreshed hclean
  refine ⟨store', ?_, hfaithful⟩
  rw [recordParityAndCutover, hstore.read, hstate, hproj]
  exact hcutover

/-- A store that accepts the root of the recovered file. -/
inductive AcceptsRoot (sha256 : JsString → JsString) (eventHash : LedgerEvent → JsString)
    (root : LedgerEvent) (store : SqliteLedgerStore) : Prop where
  /-- Nothing imported yet. -/
  | unimported (hevents : store.events = [])
      (hepoch : store.state.bind PlanLedgerState.planEpoch = none)
  /-- It holds exactly the root. -/
  | rooted (hstore : store.Faithful sha256 eventHash [root])
  /-- It holds another identity and no epoch, and is re-rooted when that is not
      deferred. -/
  | foreign (state : PlanLedgerState) (hne : store.events ≠ [])
      (hread : readSqliteLedgerEvents sha256 eventHash store = .ok (store.rows, some state))
      (hmode : state.authorityMode = .fileShadow)
      (hidentity : store.rows.head?.map LedgerEvent.planId ≠ some root.planId)
      (hepoch : state.planEpoch = none)

/-- The disk of a recovered ledger, kept by every later read. -/
structure RecoveredDisk (sha256 : JsString → JsString) (eventHash : LedgerEvent → JsString)
    (root : LedgerEvent) (disk : LedgerDisk) : Prop where
  file : disk.file = some [.event root]
  resetting : disk.resetting = false
  store : AcceptsRoot sha256 eventHash root disk.store

/-- A recovery root: its plan parses, and it numbers and types itself as a root
    without epoch metadata. -/
structure IsRecoveryRoot (root : LedgerEvent) (plan : Plan) : Prop where
  seq : root.seq = 1
  eventType : root.eventType = .planCreated
  plan : root.embeddedPlan = some plan
  planEpoch : root.planEpoch = none

theorem recoveryRoot_isRecoveryRoot (hplan : plan.wellFormed = true) (stamp : RecoveryStamp) :
    IsRecoveryRoot (recoveryRoot sha256 stamp plan) plan := by
  refine ⟨rfl, rfl, ?_, rfl⟩
  simp [LedgerEvent.embeddedPlan, recoveryRoot, hplan]

variable (sha256 printPlan) in
theorem IsRecoveryRoot.projection {root : LedgerEvent} {plan : Plan} (h : IsRecoveryRoot root plan)
    (planJson : Option Plan) :
    ∃ projection, eventsProjection sha256 printPlan planJson [root] = .ok projection := by
  rw [eventsProjection, reconstructPlanFromEvents_root h.eventType h.plan]
  exact ⟨_, rfl⟩

theorem readFileLedgerExact_root (root : LedgerEvent) :
    readFileLedgerExact (some [.event root]) = .ofEvents [root] :=
  readFileLedgerExact_map_event [root]

variable (printPlan) in
/-- The rooted store goes through the prefix check, parity and cutover. -/
theorem coordinateShadowRows_rooted (hdigest : ∀ text, sha256 text ≠ []) {root : LedgerEvent}
    {plan : Plan} (hroot : IsRecoveryRoot root plan) (call : LedgerCallEnv) (disk : LedgerDisk)
    (hstore : disk.store.Faithful sha256 eventHash [root]) :
    ∃ store, coordinateShadowRows sha256 eventHash printPlan call disk (.ofEvents [root]) [root]
        = ({ disk with store := store }, .ok (.ofEvents [root]))
      ∧ store.Faithful sha256 eventHash [root] := by
  obtain ⟨projection, hproj⟩ := hroot.projection sha256 printPlan disk.planJson
  obtain ⟨store, hparity, hfaithful⟩ := recordParityAndCutover_faithful hdigest call
    hstore (List.cons_ne_nil _ _) hproj
  refine ⟨store, ?_, hfaithful⟩
  simp [coordinateShadowRows, exactPrefix, FileLedgerRead.ofEvents, repairSuffix, hparity]

theorem tryReplace_root (hepoch : disk.store.state.bind PlanLedgerState.planEpoch = none)
    (h : tryReplace sha256 eventHash printPlan fileHash call disk [root] = some store) :
    store.Faithful sha256 eventHash [root] := by
  unfold tryReplace deferring at h
  split at h
  · cases h
  split at h
  · cases h
  split at h
  · cases h
  rename_i hrun
  cases h
  exact (run_replaceLedger_faithful_iff hrun).mpr (Or.inr (Or.inr hepoch))

theorem tryImport_root (hevents : disk.store.events = [])
    (hepoch : disk.store.state.bind PlanLedgerState.planEpoch = none)
    (h : tryImport sha256 eventHash printPlan fileHash call disk [root] = some store) :
    store.Faithful sha256 eventHash [root] := by
  have hempty : disk.store.Faithful sha256 eventHash [] := by
    refine ⟨hevents, rfl, ?_⟩
    rw [show disk.store.rows = [] by simp [SqliteLedgerStore.rows, hevents]]
    rfl
  unfold tryImport deferring at h
  split at h
  · cases h
  split at h
  · cases h
  split at h
  · cases h
  rename_i hrun
  cases h
  exact (run_importLedger_faithful_iff hempty hrun).mpr
    ⟨fun _ => Or.inr (Or.inr hepoch), fun hne => absurd hevents hne⟩

variable (printPlan fileHash) in
/-- One later read returns the root alone and leaves a recovered disk. -/
theorem coordinateLedger_recovered (hdigest : ∀ text, sha256 text ≠ []) {root : LedgerEvent}
    {plan : Plan} (hroot : IsRecoveryRoot root plan) (call : LedgerCallEnv) {disk : LedgerDisk}
    (hdisk : RecoveredDisk sha256 eventHash root disk) :
    ∃ disk', coordinateLedger sha256 eventHash printPlan fileHash call disk
        = (disk', .ok (.ofEvents [root])) ∧ RecoveredDisk sha256 eventHash root disk' := by
  have hfile : readFileLedgerExact disk.file = .ofEvents [root] := by
    rw [hdisk.file, readFileLedgerExact_root]
  have hkeep : ∀ store, AcceptsRoot sha256 eventHash root store →
      RecoveredDisk sha256 eventHash root { disk with store := store } :=
    fun store hstore => ⟨hdisk.file, hdisk.resetting, hstore⟩
  rw [coordinateLedger, if_neg (by simp [hdisk.resetting]), hfile]
  cases hdisk.store with
  | unimported hevents hepoch =>
    rw [if_pos (by simp [hevents]), if_pos (by simp [FileLedgerRead.ofEvents])]
    split
    · exact ⟨disk, rfl, hdisk⟩
    rename_i store himport
    exact ⟨_, rfl, hkeep store (.rooted (tryImport_root hevents hepoch himport))⟩
  | rooted hstore =>
    rw [if_neg (by simp [hstore.events_eq]), hstore.read]
    have hrows : disk.store.rows = [root] := by
      rw [rows_eq_of_contiguous (hstore.events_eq ▸ hstore.contiguous), hstore.events_eq]
    obtain ⟨state, hstate, -⟩ := readable_state (show [root].getLast? = some root from rfl)
      (hrows ▸ hstore.readable)
    rw [hstate]
    dsimp only
    cases hmode : state.authorityMode with
    | fileShadow =>
      have hsame : reRootNeeded [root] [root] = false := by
        simp [reRootNeeded, hroot.seq, hroot.eventType]
      obtain ⟨store, hshadow, hfaithful⟩ := coordinateShadowRows_rooted printPlan
        hdigest hroot call disk hstore
      refine ⟨_, ?_, hkeep store (.rooted hfaithful)⟩
      rw [coordinateFileShadow, if_neg (by simp [hdisk.file]),
        if_neg (by simp [FileLedgerRead.ofEvents]),
        if_neg (by simp [FileLedgerRead.ofEvents, hsame]), hshadow]
    | sqlite =>
      refine ⟨disk, ?_, hdisk⟩
      simp [coordinateSqlite, FileLedgerRead.ofEvents, exactPrefix]
  | foreign state hne hread hmode hidentity hepoch =>
    obtain ⟨-, hstate, -⟩ := readSqliteLedgerEvents_eq_ok hread
    rw [if_neg (by simpa using hne), hread]
    dsimp only
    rw [hmode]
    dsimp only
    have hdiffers : reRootNeeded [root] disk.store.rows = true := by
      simp [reRootNeeded, hroot.seq, hroot.eventType, hidentity]
    rw [coordinateFileShadow, if_neg (by simp [hdisk.file]),
      if_neg (by simp [FileLedgerRead.ofEvents]),
      if_pos (by simp [FileLedgerRead.ofEvents, hdiffers])]
    split
    · exact ⟨disk, rfl, hdisk⟩
    rename_i store hreplace
    have hfaithful : store.Faithful sha256 eventHash [root] :=
      tryReplace_root (by rw [← hstate]; exact hepoch) hreplace
    rw [hfaithful.read]
    obtain ⟨store', hshadow, hfaithful'⟩ := coordinateShadowRows_rooted printPlan
      hdigest hroot call { disk with store := store } hfaithful
    exact ⟨_, hshadow, hkeep store' (.rooted hfaithful')⟩

/-! ## When the recovery holds -/

/-- One later `coordinateLedger` call. -/
def CoordinateStep (sha256 : JsString → JsString) (eventHash : LedgerEvent → JsString)
    (printPlan : Option Plan → JsString) (fileHash : List LedgerFileLine → JsString)
    (disk : LedgerDisk) (call : LedgerCallEnv) (disk' : LedgerDisk) : Prop :=
  (coordinateLedger sha256 eventHash printPlan fileHash call disk).1 = disk'

/-- After any later reads, the next one returns an untruncated ledger that
    starts with the root and replays to the plan. -/
def RecoveryHolds (sha256 : JsString → JsString) (eventHash : LedgerEvent → JsString)
    (printPlan : Option Plan → JsString) (fileHash : List LedgerFileLine → JsString)
    (disk : LedgerDisk) (root : LedgerEvent) (plan : Plan) : Prop :=
  ∀ (calls : List LedgerCallEnv) (disk' : LedgerDisk),
    Run (CoordinateStep sha256 eventHash printPlan fileHash) disk calls disk' →
      ∀ call, ∃ disk'' read,
        coordinateLedger sha256 eventHash printPlan fileHash call disk' = (disk'', .ok read)
          ∧ read.truncated = false ∧ read.events.head? = some root
          ∧ reconstructPlanFromEvents disk'.planJson read.events = .ok (some plan)

/-- What the shadow must look like for the root to be accepted: no retained
    epoch, and no history under the root's identity. -/
def ShadowAdmitsRoot (store : SqliteLedgerStore) (root : LedgerEvent) : Prop :=
  store.state.bind PlanLedgerState.planEpoch = none
    ∧ (store.events = [] ∨ store.events = [root]
      ∨ store.rows.head?.map LedgerEvent.planId ≠ some root.planId)

theorem acceptsRoot_of_admits (hseq : root.seq = 1)
    (hshadow : ShadowReadable sha256 eventHash store) (hadmits : ShadowAdmitsRoot store root) :
    AcceptsRoot sha256 eventHash root store := by
  obtain ⟨hepoch, hevents⟩ := hadmits
  by_cases hempty : store.events = []
  · exact .unimported hempty hepoch
  obtain ⟨state, hread, hmode⟩ := hshadow.resolve_left hempty
  obtain ⟨-, hstate, hvalid⟩ := readSqliteLedgerEvents_eq_ok hread
  rcases hevents.resolve_left hempty with hroot | hidentity
  · refine .rooted ⟨hroot, ?_, hvalid⟩
    simp [ContiguousSeq, hseq]
  · refine .foreign state hempty hread hmode hidentity ?_
    rw [← hstate] at hepoch
    exact hepoch

theorem coordinateLedger_first_read (disk : LedgerDisk) (hfile : disk.file = some [.event root])
    (hreset : disk.resetting = false) (hshadow : ShadowReadable sha256 eventHash disk.store)
    (h : coordinateLedger sha256 eventHash printPlan fileHash call disk = (disk', .ok read)) :
    read = .ofEvents [root] := by
  have hread : readFileLedgerExact disk.file = .ofEvents [root] := by
    rw [hfile, readFileLedgerExact_root]
  rw [coordinateLedger, if_neg (by simp [hreset]), hread] at h
  dsimp only at h
  split at h
  · split at h
    · split at h <;> cases h <;> rfl
    · cases h
      rfl
  · next hne =>
    obtain ⟨state, hrows, hmode⟩ := hshadow.resolve_left (by simpa using hne)
    rw [hrows] at h
    dsimp only at h
    rw [hmode] at h
    dsimp only at h
    unfold coordinateFileShadow at h
    rw [if_neg (by simp [hfile]), if_neg (by simp [FileLedgerRead.ofEvents])] at h
    split at h
    · split at h
      · cases h
        rfl
      · split at h
        · cases h
          rfl
        · exact (coordinateShadowRows_eq_ok h).1
    · exact (coordinateShadowRows_eq_ok h).1

variable (sha256 eventHash printPlan fileHash) in
/-- A non-empty store that fails validation makes every read throw. -/
theorem coordinateLedger_unreadable (call : LedgerCallEnv) (disk : LedgerDisk)
    (hreset : disk.resetting = false) (hne : disk.store.events ≠ [])
    (hinvalid : validateStateAgainstRows sha256 eventHash disk.store.state disk.store.rows ≠ .ok ()) :
    ∃ err, coordinateLedger sha256 eventHash printPlan fileHash call disk = (disk, .error err) := by
  rw [coordinateLedger, if_neg (by simp [hreset]), if_neg (by simpa using hne)]
  unfold readSqliteLedgerEvents
  split
  · next herr =>
    split at herr
    · exact ⟨_, rfl⟩
    · cases herr
  · next herr =>
    split at herr
    · cases herr
    · next hvalid => exact absurd hvalid hinvalid
  · next herr =>
    split at herr
    · cases herr
    · next hvalid => exact absurd hvalid hinvalid

/-- A call that defers nothing. -/
def plainCall : LedgerCallEnv where
  packageVersion := []

variable (sha256 eventHash printPlan fileHash) in
theorem tryImport_root_isSome {root : LedgerEvent} {plan : Plan} (hroot : IsRecoveryRoot root plan)
    {disk : LedgerDisk} (hevents : disk.store.events = []) (himports : disk.store.imports = []) :
    ∃ store, tryImport sha256 eventHash printPlan fileHash plainCall disk [root] = some store
      ∧ store.events = [root] ∧ (store.Faithful sha256 eventHash [root]
        ↔ disk.store.state.bind PlanLedgerState.planEpoch = none) := by
  obtain ⟨projection, hproj⟩ := hroot.projection sha256 printPlan disk.planJson
  have hempty : disk.store.Faithful sha256 eventHash [] := by
    refine ⟨hevents, rfl, ?_⟩
    rw [show disk.store.rows = [] by simp [SqliteLedgerStore.rows, hevents]]
    rfl
  have hrun : ∃ store, importSqliteLedger sha256 eventHash disk.store [root]
      (importStateInput sha256 (callContext plainCall disk.store projection.projection) [root]
        projection.replayHash) (js "plan-ledger.jsonl") (fileHash (disk.file.getD [])) = .ok store
      ∧ store.events = [root] := by
    simp [importSqliteLedger, importInTransaction, importEvents, insertContiguous, insertEvent,
      hevents, himports, hroot.seq]
  obtain ⟨store, hrun, hstore⟩ := hrun
  refine ⟨store, ?_, hstore, ?_⟩
  · unfold tryImport deferring
    rw [if_neg (by simp [plainCall]), hproj]
    dsimp only [SqliteLedgerCall.run]
    rw [hrun]
  · rw [run_importLedger_faithful_iff hempty hrun]
    simp [hevents, EpochCarried, newestPlanEpoch, hroot.planEpoch]

variable (sha256 eventHash printPlan fileHash) in
theorem tryReplace_root_isSome {root : LedgerEvent} {plan : Plan} (hroot : IsRecoveryRoot root plan)
    (disk : LedgerDisk) :
    ∃ store, tryReplace sha256 eventHash printPlan fileHash plainCall disk [root] = some store
      ∧ store.events = [root] ∧ (store.Faithful sha256 eventHash [root]
        ↔ disk.store.state.bind PlanLedgerState.planEpoch = none) := by
  obtain ⟨projection, hproj⟩ := hroot.projection sha256 printPlan disk.planJson
  have hrun : ∃ store, replaceSqliteLedger sha256 eventHash disk.store [root]
      (stateForEvents sha256 (callContext plainCall disk.store projection.projection) [root]
        .fileShadow) (js "plan_identity_reinitialized") (fileHash ([root].map .event)) = .ok store
      ∧ store.events = [root] := by
    simp [replaceSqliteLedger, importInTransaction, importEvents, insertContiguous, insertEvent,
      hroot.seq]
  obtain ⟨store, hrun, hstore⟩ := hrun
  refine ⟨store, ?_, hstore, ?_⟩
  · unfold tryReplace deferring
    rw [if_neg (by simp [plainCall]), hproj]
    dsimp only [SqliteLedgerCall.run]
    rw [hrun]
  · rw [run_replaceLedger_faithful_iff hrun]
    simp [EpochCarried, newestPlanEpoch, hroot.planEpoch]

theorem not_readable_of_not_faithful (hseq : root.seq = 1) (hevents : store.events = [root])
    (h : ¬ store.Faithful sha256 eventHash [root]) :
    validateStateAgainstRows sha256 eventHash store.state store.rows ≠ .ok () :=
  fun hvalid => h ⟨hevents, by simp [ContiguousSeq, hseq], hvalid⟩

/-- A recovery whose shadow retains an epoch fails at the first or second read. -/
theorem not_recoveryHolds_of_epoch (hroot : IsRecoveryRoot root plan) (disk : LedgerDisk)
    (hfile : disk.file = some [.event root]) (hreset : disk.resetting = false)
    (hshadow : ShadowReadable sha256 eventHash disk.store)
    (himports : disk.store.events = [] → disk.store.imports = [])
    (hidentity : disk.store.events = []
      ∨ disk.store.rows.head?.map LedgerEvent.planId ≠ some root.planId)
    (hepoch : disk.store.state.bind PlanLedgerState.planEpoch ≠ none) :
    ¬ RecoveryHolds sha256 eventHash printPlan fileHash disk root plan := by
  intro hholds
  have hread : readFileLedgerExact disk.file = .ofEvents [root] := by
    rw [hfile, readFileLedgerExact_root]
  -- the first read installs the root over the retained epoch
  have hfirst : ∃ store, (coordinateLedger sha256 eventHash printPlan fileHash plainCall disk).1
      = { disk with store := store } ∧ store.events = [root]
      ∧ ¬ store.Faithful sha256 eventHash [root] := by
    by_cases hempty : disk.store.events = []
    · obtain ⟨store, himport, hstore, hiff⟩ := tryImport_root_isSome sha256 eventHash
        printPlan fileHash hroot hempty (himports hempty)
      refine ⟨store, ?_, hstore, fun h => hepoch (hiff.mp h)⟩
      rw [coordinateLedger, if_neg (by simp [hreset]), hread]
      simp [hempty, FileLedgerRead.ofEvents, himport]
    · obtain ⟨state, hrows, hmode⟩ := hshadow.resolve_left hempty
      obtain ⟨store, hreplace, hstore, hiff⟩ := tryReplace_root_isSome sha256 eventHash
        printPlan fileHash hroot disk
      have hnot : ¬ store.Faithful sha256 eventHash [root] := fun h => hepoch (hiff.mp h)
      have hinvalid := not_readable_of_not_faithful hroot.seq hstore hnot
      have hdiffers : reRootNeeded [root] disk.store.rows = true := by
        simp [reRootNeeded, hroot.seq, hroot.eventType, hidentity.resolve_left hempty]
      refine ⟨store, ?_, hstore, hnot⟩
      rw [coordinateLedger, if_neg (by simp [hreset]), hread, if_neg (by simpa using hempty), hrows]
      dsimp only
      rw [hmode]
      rw [coordinateFileShadow, if_neg (by simp [hfile]),
        if_neg (by simp [FileLedgerRead.ofEvents]),
        if_pos (by simp [FileLedgerRead.ofEvents, hdiffers]),
        show (FileLedgerRead.ofEvents [root]).events = [root] from rfl, hreplace]
      cases hvalid : validateStateAgainstRows sha256 eventHash store.state store.rows with
      | ok u => exact absurd hvalid hinvalid
      | error err => simp [readSqliteLedgerEvents, hvalid]
  obtain ⟨store, hdisk, hstore, hnot⟩ := hfirst
  -- the second read finds the mismatch
  obtain ⟨_, read, hsecond, -⟩ := hholds [plainCall] { disk with store := store }
    (Run.single hdisk) plainCall
  obtain ⟨err, hthrows⟩ := coordinateLedger_unreadable sha256 eventHash printPlan fileHash
    plainCall { disk with store := store } hreset (by simp [hstore])
    (not_readable_of_not_faithful hroot.seq hstore hnot)
  rw [hthrows] at hsecond
  cases hsecond

/-- A shadow under the root's own identity is refused as divergent. -/
theorem not_recoveryHolds_of_identity (disk : LedgerDisk) (hfile : disk.file = some [.event root])
    (hreset : disk.resetting = false) (hshadow : ShadowReadable sha256 eventHash disk.store)
    (hne : disk.store.events ≠ []) (hother : disk.store.events ≠ [root])
    (hidentity : disk.store.rows.head?.map LedgerEvent.planId = some root.planId) :
    ¬ RecoveryHolds sha256 eventHash printPlan fileHash disk root plan := by
  intro hholds
  obtain ⟨state, hrows, hmode⟩ := hshadow.resolve_left hne
  have hperm : disk.store.rows.Perm disk.store.events := List.perm_insertionSort _ _
  have hbegins : exactPrefix disk.store.rows [root] = false := by
    rw [Bool.eq_false_iff]
    intro h
    rcases List.prefix_cons_iff.mp (List.isPrefixOf_iff_prefix.mp h) with hnil | ⟨rest, hrest, hnil⟩
    · exact hne (List.perm_nil.mp (hnil ▸ hperm.symm))
    · rw [List.prefix_nil.mp hnil] at hrest
      exact hother (List.perm_singleton.mp (hrest ▸ hperm.symm))
  obtain ⟨_, read, hread, -⟩ := hholds [] disk (Run.nil disk) plainCall
  rw [coordinateLedger, if_neg (by simp [hreset]), if_neg (by simpa using hne), hrows] at hread
  dsimp only at hread
  rw [hmode] at hread
  have hsame : reRootNeeded [root] disk.store.rows = false := by
    simp [reRootNeeded, hidentity]
  rw [hfile, readFileLedgerExact_root, coordinateFileShadow, if_neg (by simp [hfile]),
    if_neg (by simp [FileLedgerRead.ofEvents]), if_neg (by simp [FileLedgerRead.ofEvents, hsame]),
    coordinateShadowRows, if_pos (by simp [FileLedgerRead.ofEvents, hbegins])] at hread
  cases hread

/-- A recovery that returned holds for every later read exactly when the shadow
    admits its root and the plan's cursor is already the active phase, as the
    only caller passes it. -/
theorem recoveryHolds_iff (hdigest : ∀ text, sha256 text ≠ []) {call call' : LedgerCallEnv}
    {stamp : RecoveryStamp} {disk disk' : LedgerDisk} {plan : Plan} {expected : ExpectedTail}
    {root : LedgerEvent} (himports : disk.store.events = [] → disk.store.imports = [])
    (hreturns : replaceTruncatedLedgerWithRecoveryRoot sha256 eventHash printPlan fileHash call call'
      stamp disk plan expected = .ok (disk', root)) :
    RecoveryHolds sha256 eventHash printPlan fileHash disk' root plan
      ↔ ShadowAdmitsRoot disk.store (recoveryRoot sha256 stamp plan) ∧ plan.cursorNormalized := by
  obtain ⟨hrootEq, rfl, hplan, hreset, hshadow⟩ :=
    replaceTruncatedLedgerWithRecoveryRoot_eq_ok hreturns
  rw [← hrootEq]
  have hroot : IsRecoveryRoot root plan := hrootEq ▸ recoveryRoot_isRecoveryRoot hplan stamp
  have hreplay : ∀ planJson, reconstructPlanFromEvents planJson [root]
      = .ok (some (normalizeCurrentPhase plan)) :=
    reconstructPlanFromEvents_root hroot.eventType hroot.plan
  constructor
  · intro hholds
    have hepoch : disk.store.events = []
        ∨ disk.store.rows.head?.map LedgerEvent.planId ≠ some root.planId →
        disk.store.state.bind PlanLedgerState.planEpoch = none := by
      intro hidentity
      by_contra hepoch
      exact not_recoveryHolds_of_epoch hroot { disk with file := some [.event root] } rfl
        hreset hshadow himports hidentity hepoch hholds
    have hevents : disk.store.events = [] ∨ disk.store.events = [root]
        ∨ disk.store.rows.head?.map LedgerEvent.planId ≠ some root.planId := by
      by_contra hnone
      simp only [not_or, not_not] at hnone
      exact not_recoveryHolds_of_identity { disk with file := some [.event root] } rfl
        hreset hshadow hnone.1 hnone.2.1 hnone.2.2 hholds
    refine ⟨⟨?_, hevents⟩, ?_⟩
    · rcases hevents with hempty | hrooted | hidentity
      · exact hepoch (Or.inl hempty)
      · -- a readable store of the root alone has the root's absent epoch
        obtain ⟨state, hread, -⟩ := hshadow.resolve_left
          (by rw [hrooted]; exact List.cons_ne_nil _ _)
        obtain ⟨-, -, hvalid⟩ := readSqliteLedgerEvents_eq_ok hread
        have hrows : disk.store.rows = [root] := by simp [SqliteLedgerStore.rows, hrooted]
        obtain ⟨state', hstate, -, hstateEpoch, -⟩ :=
          readable_state
            (show disk.store.rows.getLast? = some root by rw [hrows]; rfl) hvalid
        rw [hstate, Option.bind_some, hstateEpoch, hrows]
        simp [newestPlanEpoch, hroot.planEpoch]
      · exact hepoch (Or.inr hidentity)
    · obtain ⟨_, read, hread, -, -, hyields⟩ := hholds [] _ (Run.nil _) plainCall
      rw [coordinateLedger_first_read { disk with file := some [.event root] } rfl hreset
        hshadow hread] at hyields
      rw [show (FileLedgerRead.ofEvents [root]).events = [root] from rfl, hreplay] at hyields
      exact Option.some.inj (Except.ok.inj hyields)
  · rintro ⟨hadmits, hcursor⟩ calls disk'' hrun call'' 
    have hstart : RecoveredDisk sha256 eventHash root { disk with file := some [.event root] } :=
      ⟨rfl, hreset, acceptsRoot_of_admits hroot.seq hshadow hadmits⟩
    have hdisk : RecoveredDisk sha256 eventHash root disk'' := by
      refine hrun.preserves ?_ hstart
      rintro s call t rfl hs
      obtain ⟨s', hread, hs'⟩ := coordinateLedger_recovered printPlan fileHash hdigest hroot
        call hs
      rw [hread]
      exact hs'
    obtain ⟨disk₃, hread, -⟩ := coordinateLedger_recovered printPlan fileHash hdigest hroot
      call'' hdisk
    refine ⟨disk₃, _, hread, rfl, rfl, ?_⟩
    rw [show (FileLedgerRead.ofEvents [root]).events = [root] from rfl, hreplay,
      show normalizeCurrentPhase plan = plan from hcursor]

end Facts

/-! ### A truncated ledger with its shadow -/

/-- The root of the ledger before the corruption. -/
def lostRoot : LedgerEvent where
  seq := 1
  timestamp := js "t1"
  planId := derivePlanId (onePhasePlan [])
  eventType := .planCreated
  source := js "initLedger"
  planHashBefore := []
  planHashAfter := js "h"

/-- Its shadow row, with the state row an import writes. -/
def lostRootShadow : SqliteLedgerStore where
  events := [lostRoot]
  imports := []
  state := some
    { authorityMode := .fileShadow
      shadowStartedVersion := some (js "1")
      parityStatus := .clean
      fileReplayHash := some (js "h")
      sqliteReplayHash := some (js "h")
      terminalProjectionHash := []
      lastSeq := 1
      lastEventHash := some (js "t1")
      rootEventHash := some (js "t1")
      planId := some (derivePlanId (onePhasePlan []))
      planEpoch := none
      terminalPlanHash := some (js "h")
      terminalProjection := none
      terminalProjectionJson := none }

/-- The root, then a torn line. -/
def truncatedDisk : LedgerDisk where
  file := some [.event lostRoot, .unparsable (js "torn")]
  store := lostRootShadow
  planJson := none
  resetting := false

/-- A torn line, then the root; no shadow. -/
def truncatedDiskWithoutShadow : LedgerDisk where
  file := some [.unparsable (js "torn"), .event lostRoot]
  store := .empty
  planJson := none
  resetting := false

def recoveryStamp : RecoveryStamp := ⟨js "t2", js "archive"⟩

/-- With the ordinary shadow of its good prefix the recovered ledger reads as
    divergent. -/
theorem recovery_diverges_from_shadow :
    ¬ ∀ (sha256 : JsString → JsString) (eventHash : LedgerEvent → JsString)
        (printPlan : Option Plan → JsString) (fileHash : List LedgerFileLine → JsString),
      (∀ text, sha256 text ≠ []) →
      ∀ (call call' : LedgerCallEnv) (stamp : RecoveryStamp) (disk disk' : LedgerDisk) (plan : Plan)
        (expected : ExpectedTail) (root : LedgerEvent),
        disk.store.state.map PlanLedgerState.authorityMode = some .fileShadow →
        plan.cursorNormalized →
        replaceTruncatedLedgerWithRecoveryRoot sha256 eventHash printPlan fileHash call call' stamp
          disk plan expected = .ok (disk', root) →
        RecoveryHolds sha256 eventHash printPlan fileHash disk' root plan := by
  intro hall
  have hreturns : ∃ disk' root, replaceTruncatedLedgerWithRecoveryRoot (List.cons 0x61)
      LedgerEvent.timestamp (fun _ => []) (fun _ => []) plainCall plainCall recoveryStamp
      truncatedDisk (onePhasePlan []) ⟨1, js "h"⟩ = .ok (disk', root) := ⟨_, _, rfl⟩
  obtain ⟨disk', root, hreturns⟩ := hreturns
  have hholds := hall _ _ _ _ (fun text => List.cons_ne_nil _ _) _ _ _ _ _ _ _ _ rfl (by decide)
    hreturns
  obtain ⟨rfl, rfl, -, -, hshadow⟩ := replaceTruncatedLedgerWithRecoveryRoot_eq_ok hreturns
  exact not_recoveryHolds_of_identity
    { truncatedDisk with file := some [.event (recoveryRoot (List.cons 0x61) recoveryStamp
      (onePhasePlan []))] } rfl rfl hshadow (List.cons_ne_nil _ _) (by decide) rfl hholds

/-- Without a shadow the recovery holds. -/
theorem recoveryHolds_without_shadow :
    ∃ disk' root, replaceTruncatedLedgerWithRecoveryRoot (List.cons 0x61) LedgerEvent.timestamp
        (fun _ => []) (fun _ => []) plainCall plainCall recoveryStamp truncatedDiskWithoutShadow
        (onePhasePlan []) ⟨1, js "h"⟩ = .ok (disk', root)
      ∧ (RecoveryHolds (List.cons 0x61) LedgerEvent.timestamp (fun _ => []) (fun _ => [])
          disk' root (onePhasePlan []) ↔ ShadowAdmitsRoot truncatedDiskWithoutShadow.store
            (recoveryRoot (List.cons 0x61) recoveryStamp (onePhasePlan []))
          ∧ (onePhasePlan []).cursorNormalized) := by
  have hreturns : ∃ disk' root, replaceTruncatedLedgerWithRecoveryRoot (List.cons 0x61)
      LedgerEvent.timestamp (fun _ => []) (fun _ => []) plainCall plainCall recoveryStamp
      truncatedDiskWithoutShadow (onePhasePlan []) ⟨1, js "h"⟩ = .ok (disk', root) := ⟨_, _, rfl⟩
  obtain ⟨disk', root, hreturns⟩ := hreturns
  exact ⟨disk', root, hreturns,
    recoveryHolds_iff (fun text => List.cons_ne_nil _ _) (fun _ => rfl) hreturns⟩

end OpencodeSwarm
