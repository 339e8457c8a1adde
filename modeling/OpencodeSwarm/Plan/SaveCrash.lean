/-
  OpencodeSwarm.Plan.SaveCrash

  What a fresh process recovers when a save stops after any of its durable
  writes: the startup check of `loadPlan` over every prefix of the writes of
  `savePlan`, task id by task id.
-/
import OpencodeSwarm.Lib.Transition
import OpencodeSwarm.Plan.SaveSync

namespace OpencodeSwarm

open Js Crash

/-! ## Recovery -/

/-- What a fresh process loads. -/
def recoveredPlan (sha256 : JsString → JsString) (clock : SaveClock) (files : ProjectFiles) :
    Option Plan :=
  files.planJson.map fun current => (loadValidPlan sha256 clock true files current).2

/-- A ledger that replays is loaded as plan.json or as its replay. -/
theorem recoveredPlan_eq_or (sha256 : JsString → JsString) (clock : SaveClock)
    {files : ProjectFiles} {current replayed : Plan} (hcurrent : files.planJson = some current)
    (hreplay : replayFromLedger files = .ok (some replayed)) :
    recoveredPlan sha256 clock files = some current
      ∨ recoveredPlan sha256 clock files = some replayed := by
  unfold recoveredPlan loadValidPlan
  rw [hcurrent, Option.map_some, hreplay]
  dsimp only
  split_ifs
  · exact Or.inl rfl
  · exact Or.inl rfl
  · exact Or.inr rfl

/-- What a cut may leave of an id whose statuses were `old`, which the incoming
    plan gives `incoming` and the completed save `merged`. -/
structure CutSafe (old incoming merged recovered : List TaskStatus) : Prop where
  kept : old ≠ [] → merged ≠ [] → recovered ≠ []
  notInvented : old = [] → merged = [] → recovered = []
  known : ∀ status ∈ recovered, status ∈ old ∨ status ∈ incoming ∨ status ∈ merged
  oldOrMerged : old.length ≤ 1 → incoming.length ≤ 1 →
    ∀ status ∈ recovered, status ∈ old ∨ status ∈ merged

variable {old incoming merged : List TaskStatus}

theorem CutSafe.of_old : CutSafe old incoming merged old where
  kept := fun hold _ => hold
  notInvented := fun hold _ => hold
  known := fun _ hstatus => Or.inl hstatus
  oldOrMerged := fun _ _ _ hstatus => Or.inl hstatus

theorem CutSafe.of_merged : CutSafe old incoming merged merged where
  kept := fun _ hmerged => hmerged
  notInvented := fun _ hmerged => hmerged
  known := fun _ hstatus => Or.inr (Or.inr hstatus)
  oldOrMerged := fun _ _ _ hstatus => Or.inr hstatus

/-! ## A recorded prefix of the difference -/

theorem statusesOf_foldl_record_empty (inputs : List LedgerEventInput) (plan : Plan) :
    (inputs.foldl LedgerEventInput.record plan).statusesOf [] = plan.statusesOf [] := by
  have hrecord : ∀ (input : LedgerEventInput) (plan : Plan),
      (input.record plan).statusesOf [] = plan.statusesOf [] := by
    intro input plan
    unfold LedgerEventInput.record
    cases htruthy : truthyString input.taskId with
    | none => split <;> first | rfl | contradiction
    | some taskId =>
      have hne : taskId ≠ [] := by
        have hkept := (Option.filter_eq_some_iff.mp htruthy).2
        simpa using hkept
      split
      · next h =>
        cases h
        rw [Plan.statusesOf_removeTask, if_neg hne]
      · next h _ =>
        cases h
        rw [Plan.statusesOf_setTaskStatus, if_neg hne]
      · rfl
  induction inputs generalizing plan with
  | nil => rfl
  | cons input inputs ih => rw [List.foldl_cons, ih, hrecord]

section Cut

variable {sha256 : JsString → JsString} {clock : SaveClock} {files appended prepared : ProjectFiles}
  {current : Plan} {options : SaveOptions} {inputs : List LedgerEventInput} {replayed : Option Plan}
  {plan base : Plan}

/-- What the ledger replays to after any prefix of the difference. -/
theorem SaveTrace.cutSafe_recorded
    (h : SaveTrace sha256 clock files plan options prepared inputs appended replayed)
    (hcurrent : prepared.planJson = some current) {id : JsString}
    (hreplayed : replayed = some (normalizeCurrentPhase (inputs.foldl LedgerEventInput.record base)))
    (hbase : base.statusesOf id = (validatedPlan files plan options).statusesOf id
      ∨ base.statusesOf id = current.statusesOf id) (k : Nat) :
    CutSafe (current.statusesOf id) ((validatedPlan files plan options).statusesOf id)
      ((projectionCandidate appended (validatedPlan files plan options) replayed).statusesOf id)
      (((inputs.take k).foldl LedgerEventInput.record base).statusesOf id) := by
  have hdescribes : ∀ input ∈ inputs.take k, input.Describes (validatedPlan files plan options) :=
    fun input hinput => (mem_diffInputs h.differs (List.mem_of_mem_take hinput)).2
  obtain ⟨habsent, hpresent, hstatuses⟩ := statusesOf_foldl_record hdescribes base id
  have hmissing : (projectionCandidate appended (validatedPlan files plan options)
      replayed).statusesOf id = [] ↔ (validatedPlan files plan options).statusesOf id = [] :=
    statusesOf_projectionCandidate_eq_nil_iff
  have hknown : ∀ status ∈ ((inputs.take k).foldl LedgerEventInput.record base).statusesOf id,
      status ∈ current.statusesOf id ∨ status
        ∈ (validatedPlan files plan options).statusesOf id := by
    intro status hstatus
    rcases hstatuses status hstatus with hmem | hmem
    · rcases hbase with hsame | hsame
      · exact Or.inr (hsame ▸ hmem)
      · exact Or.inl (hsame ▸ hmem)
    · exact Or.inr hmem
  refine ⟨?_, ?_, ?_, ?_⟩
  · intro hold hmerged
    have hvalidated := mt hmissing.mpr hmerged
    refine hpresent hvalidated ?_
    rcases hbase with hsame | hsame
    · rwa [hsame]
    · rwa [hsame]
  · intro hold hmerged
    refine habsent ?_
    rcases hbase with hsame | hsame
    · rw [hsame, hmissing.mp hmerged]
    · rw [hsame, hold]
  · intro status hstatus
    exact (hknown status hstatus).imp_right Or.inl
  · intro holdLength hincoming status hstatus
    rcases hknown status hstatus with hmem | hmem
    · exact Or.inl hmem
    have hvalidated : (validatedPlan files plan options).statusesOf id = [status] := by
      obtain ⟨before, after, hsplit⟩ := List.append_of_mem hmem
      rw [hsplit, List.length_append, List.length_cons] at hincoming
      rw [hsplit, List.length_eq_zero_iff.mp (show before.length = 0 by omega),
        List.length_eq_zero_iff.mp (show after.length = 0 by omega)]
      rfl
    by_cases hempty : id = [] ∧ base.statusesOf id = current.statusesOf id
    · -- no event names the empty id, so plan.json's statuses are still there
      obtain ⟨rfl, hsame⟩ := hempty
      rw [statusesOf_foldl_record_empty, hsame] at hstatus
      exact Or.inl hstatus
    · have hnamed : base.statusesOf id = (validatedPlan files plan options).statusesOf id
          ∨ id ≠ [] ∧ base.statusesOf id = current.statusesOf id := by
        rcases hbase with hsame | hsame
        · exact Or.inl hsame
        · exact Or.inr ⟨fun hid => hempty ⟨hid, hsame⟩, hsame⟩
      have hrecorded := h.statusesOf_recorded hcurrent hvalidated holdLength hnamed
      have hmerged : (projectionCandidate appended (validatedPlan files plan options)
          replayed).statusesOf id = [status] := by
        refine statusesOf_projectionCandidate_of_single hvalidated ?_
        intro plan hplan
        rw [hreplayed] at hplan
        cases hplan
        exact hrecorded
      rw [hmerged]
      exact Or.inr (List.mem_singleton_self status)

/-! ## The cuts of a save -/

variable {validated : Plan} {reconciles : List DurableWrite}

/-- Before the difference is recorded a save has written nothing, or it leads to
    a ledger that starts from the validated plan, and so does every cut. -/
theorem preparation_cuts (hvalidated : validated.wellFormed = true)
    (h : reconcileWrites sha256 clock (files.writeAll (rootWrites sha256 clock files validated)) plan
      validated options = .ok reconciles) :
    rootWrites sha256 clock files validated ++ reconciles = []
      ∨ BasedOn (files.writeAll (rootWrites sha256 clock files validated ++ reconciles)) validated
        ∧ AtEveryCut ProjectFiles.write (fun state => state = files
            ∨ BasedOn state validated ∧ state.planJson = files.planJson) files
          (rootWrites sha256 clock files validated ++ reconciles) := by
  have hroot : rootWrites sha256 clock files validated = []
      ∨ ∃ event, rootWrites sha256 clock files validated = [.root event]
        ∧ BasedOn (files.write (.root event)) validated := by
    unfold rootWrites
    repeat' split
    · exact Or.inr ⟨_, rfl, basedOn_root hvalidated _ _⟩
    · exact Or.inr ⟨_, rfl, basedOn_root hvalidated _ _⟩
    · exact Or.inl rfl
  have hreconcile := reconcileWrites_eq_ok hvalidated h
  rcases hroot with hroot | ⟨root, hroot, hrooted⟩ <;> rw [hroot] at hreconcile ⊢ <;>
    rcases hreconcile with rfl | ⟨snapshot, rfl, -, hsnapshot⟩
  · exact Or.inl rfl
  · refine Or.inr ⟨hsnapshot, ?_⟩
    rw [List.nil_append, atEveryCut_cons, atEveryCut_nil]
    exact ⟨Or.inl rfl, Or.inr ⟨hsnapshot, rfl⟩⟩
  · refine Or.inr ⟨hrooted, ?_⟩
    rw [List.append_nil, atEveryCut_cons, atEveryCut_nil]
    exact ⟨Or.inl rfl, Or.inr ⟨hrooted, rfl⟩⟩
  · refine Or.inr ⟨hsnapshot, ?_⟩
    rw [List.singleton_append, atEveryCut_cons, atEveryCut_cons, atEveryCut_nil]
    exact ⟨Or.inl rfl, Or.inr ⟨hrooted, rfl⟩, Or.inr ⟨hsnapshot, rfl⟩⟩

/-- Until plan.json is renamed, a save adds nothing but snapshots of its
    projection. -/
theorem snapshot_cuts {candidate : Plan} (hcandidate : candidate.wellFormed = true)
    (hidentity : ∀ first ∈ appended.events.head?, first.planId = derivePlanId candidate) :
    AtEveryCut ProjectFiles.write (fun state => state = appended
        ∨ BasedOn state candidate ∧ state.planJson = appended.planJson) appended
      (structuralSnapshot sha256 clock appended replayed candidate ++ intervalSnapshot sha256 clock
          (appended.writeAll (structuralSnapshot sha256 clock appended replayed candidate))
          candidate options) := by
  unfold structuralSnapshot intervalSnapshot
  split_ifs
  · have hfirst : EndsWithSnapshot sha256 (appended.write (.append (snapshotEvent sha256 clock
        appended candidate (js "savePlan_structural_projection")))) candidate :=
      endsWithSnapshot_write hcandidate hidentity _
    rw [List.singleton_append, atEveryCut_cons, atEveryCut_cons, atEveryCut_nil]
    exact ⟨Or.inl rfl, Or.inr ⟨hfirst.based, rfl⟩,
      Or.inr ⟨(endsWithSnapshot_write hcandidate hfirst.identity _).based, rfl⟩⟩
  · have hfirst : EndsWithSnapshot sha256 (appended.write (.append (snapshotEvent sha256 clock
        appended candidate (js "savePlan_structural_projection")))) candidate :=
      endsWithSnapshot_write hcandidate hidentity _
    rw [List.append_nil, atEveryCut_cons, atEveryCut_nil]
    exact ⟨Or.inl rfl, Or.inr ⟨hfirst.based, rfl⟩⟩
  · rw [List.nil_append, atEveryCut_cons, atEveryCut_nil]
    exact ⟨Or.inl rfl, Or.inr ⟨(endsWithSnapshot_write hcandidate hidentity _).based, rfl⟩⟩
  · rw [List.nil_append, atEveryCut_nil]
    exact Or.inl rfl

/-! ## Recovery at every cut -/

/-- A fresh process recovers every id within the bounds of the save. -/
def RecoversWithin (sha256 : JsString → JsString) (recovery : SaveClock)
    (current validated merged : Plan) (files : ProjectFiles) : Prop :=
  ∃ recovered, recoveredPlan sha256 recovery files = some recovered
    ∧ ∀ id, CutSafe (current.statusesOf id) (validated.statusesOf id) (merged.statusesOf id)
      (recovered.statusesOf id)

variable {recovery : SaveClock} {merged disk : Plan}

theorem recoversWithin_of_replay {replayed : Plan} (hdisk : files.planJson = some disk)
    (hreplay : replayFromLedger files = .ok (some replayed))
    (hold : ∀ id, CutSafe (current.statusesOf id) (validated.statusesOf id) (merged.statusesOf id)
      (disk.statusesOf id))
    (hreplayed : ∀ id, CutSafe (current.statusesOf id) (validated.statusesOf id)
      (merged.statusesOf id) (replayed.statusesOf id)) :
    RecoversWithin sha256 recovery current validated merged files := by
  rcases recoveredPlan_eq_or sha256 recovery hdisk hreplay with hrecovered | hrecovered
  · exact ⟨disk, hrecovered, hold⟩
  · exact ⟨replayed, hrecovered, hreplayed⟩

theorem exists_replay_of_syncedAt (hsynced : ∀ id, SyncedAt files id) :
    ∃ current replayed, files.planJson = some current ∧ replayFromLedger files = .ok (some replayed)
      ∧ ∀ id, replayed.statusesOf id = current.statusesOf id := by
  obtain ⟨current, replayed, hcurrent, hreplay, -⟩ := hsynced []
  refine ⟨current, replayed, hcurrent, hreplay, fun id => ?_⟩
  obtain ⟨current', replayed', hcurrent', hreplay', hagree⟩ := hsynced id
  cases hcurrent.symm.trans hcurrent'
  cases hreplay.symm.trans hreplay'
  exact hagree

theorem recoversWithin_of_syncedAt (hsynced : ∀ id, SyncedAt files id)
    (hdisk : files.planJson = some disk)
    (hsafe : ∀ id, CutSafe (current.statusesOf id) (validated.statusesOf id) (merged.statusesOf id)
      (disk.statusesOf id)) : RecoversWithin sha256 recovery current validated merged files := by
  obtain ⟨disk', replayed, hdisk', hreplay, hagree⟩ := exists_replay_of_syncedAt hsynced
  cases hdisk.symm.trans hdisk'
  refine recoversWithin_of_replay hdisk hreplay hsafe fun id => ?_
  rw [hagree id]
  exact hsafe id

/-- The plan the difference is recorded over, and the cuts before it. -/
theorem SaveTrace.exists_base {replayed : Plan} {replayed' : Option Plan}
    (h : SaveTrace sha256 clock files plan options prepared inputs appended replayed')
    (hprepared : prepared = files.writeAll
      (rootWrites sha256 clock files (validatedPlan files plan options) ++ reconciles))
    (hreconciles : reconcileWrites sha256 clock
      (files.writeAll (rootWrites sha256 clock files (validatedPlan files plan options))) plan
      (validatedPlan files plan options) options = .ok reconciles)
    (hreplay : replayFromLedger files = .ok (some replayed)) :
    ∃ base, ReplaysTo prepared (derivePlanId (validatedPlan files plan options)) base
      ∧ (∀ id, base.statusesOf id = (validatedPlan files plan options).statusesOf id
        ∨ base.statusesOf id = replayed.statusesOf id) ∧ AtEveryCut ProjectFiles.write
        (fun state => state = files ∨ BasedOn state base ∧ state.planJson = files.planJson) files
        (rootWrites sha256 clock files (validatedPlan files plan options) ++ reconciles) := by
  rcases preparation_cuts h.wellFormed hreconciles with hnil | ⟨hbased, hcuts⟩
  · obtain ⟨base, hbase, hstart⟩ := h.prepares.replaysTo hreplay
    refine ⟨base, hbase, fun id => ?_, ?_⟩
    · rcases hstart with ⟨-, hsame⟩ | ⟨-, hsame⟩
      · exact Or.inl (by rw [hsame])
      · exact Or.inr (hsame id)
    · rw [hnil, atEveryCut_nil]
      exact Or.inl rfl
  · rw [← hprepared] at hbased
    exact ⟨validatedPlan files plan options, hbased.replaysTo, fun id => Or.inl rfl, hcuts⟩

theorem recordedPrefix_cuts {planId planHashAfter : JsString}
    (hdisk : prepared.planJson = some current) (hbase : ReplaysTo prepared planId base)
    (hplanId : ∀ input ∈ inputs, input.planId = planId)
    (hchanges : ∀ input ∈ inputs, input.IsChange)
    (hsafe : ∀ id k, CutSafe (current.statusesOf id) (validated.statusesOf id)
      (merged.statusesOf id) (((inputs.take k).foldl LedgerEventInput.record base).statusesOf id)) :
    AtEveryCut ProjectFiles.write (RecoversWithin sha256 recovery current validated merged) prepared
      ((appendedEvents sha256 clock prepared planHashAfter inputs).map DurableWrite.append) := by
  intro k
  rw [← List.map_take, appendedEvents_take]
  have happended : ReplaysTo (prepared.writeAll ((appendedEvents sha256 clock prepared planHashAfter
      (inputs.take k)).map DurableWrite.append)) planId
      ((inputs.take k).foldl LedgerEventInput.record base) := by
    refine hbase.append ?_ ?_
    · exact fun input hinput => hplanId input (List.mem_of_mem_take hinput)
    · exact fun input hinput => hchanges input (List.mem_of_mem_take hinput)
  exact recoversWithin_of_replay ((ProjectFiles.writeAll_map_append _ _).2.trans hdisk)
    happended.replayFromLedger (fun _ => .of_old) fun id => hsafe id k

/-- A cut behind the difference leaves the ledger as it is or starts it from the
    projection. -/
theorem projection_cuts (hdisk : appended.planJson = some current)
    (hvalidated : validated.wellFormed = true)
    (hidentity : ∀ first ∈ appended.events.head?, first.planId = derivePlanId validated)
    (happended : RecoversWithin sha256 recovery current validated
      (projectionCandidate appended validated replayed) appended)
    (hsynced : ∀ id, SyncedAt (appended.writeAll
      (projectionWrites sha256 clock appended validated options replayed)) id) :
    AtEveryCut ProjectFiles.write (RecoversWithin sha256 recovery current validated
        (projectionCandidate appended validated replayed)) appended
      (projectionWrites sha256 clock appended validated options replayed) := by
  have hpublished : (appended.writeAll (projectionWrites sha256 clock appended validated options
      replayed)).planJson = some (projectionCandidate appended validated replayed) :=
    (writeAll_projectionWrites hvalidated hidentity).1
  have hcandidate := projectionCandidate_wellFormed appended replayed hvalidated
  have hidentity' : ∀ first ∈ appended.events.head?,
      first.planId = derivePlanId (projectionCandidate appended validated replayed) := by
    rwa [derivePlanId_projectionCandidate]
  have hsnapshots : AtEveryCut ProjectFiles.write (RecoversWithin sha256 recovery current validated
      (projectionCandidate appended validated replayed)) appended
      (structuralSnapshot sha256 clock appended replayed
          (projectionCandidate appended validated replayed)
        ++ intervalSnapshot sha256 clock
          (appended.writeAll (structuralSnapshot sha256 clock appended
          replayed (projectionCandidate appended validated replayed)))
          (projectionCandidate appended validated replayed) options) := by
    refine (snapshot_cuts hcandidate hidentity').mono ?_
    rintro state (rfl | ⟨hbased, hplanJson⟩)
    · exact happended
    · exact recoversWithin_of_replay (hplanJson.trans hdisk) hbased.replaysTo.replayFromLedger
        (fun _ => .of_old) fun _ => .of_merged
  have hfinal : RecoversWithin sha256 recovery current validated
      (projectionCandidate appended validated replayed)
      (appended.writeAll (projectionWrites sha256 clock appended validated options replayed)) :=
    recoversWithin_of_syncedAt hsynced hpublished fun _ => .of_merged
  unfold projectionWrites at hfinal ⊢
  rw [ProjectFiles.writeAll, List.foldl_append] at hfinal
  rw [atEveryCut_append, atEveryCut_cons, atEveryCut_nil]
  exact ⟨hsnapshots, hsnapshots.complete, hfinal⟩

/-- Over files in sync, whatever write a save stops after, a fresh process
    recovers every id within the bounds of the save. -/
theorem recoversWithin_savePlanWrites (hsha : Function.Injective sha256) (recovery : SaveClock)
    {files : ProjectFiles} {plan current : Plan} {options : SaveOptions}
    {writes : List DurableWrite} (hsynced : ∀ id, SyncedAt files id)
    (hcurrent : files.planJson = some current)
    (hwrites : savePlanWrites sha256 clock files plan options = .ok writes) :
    ∃ merged, (files.writeAll writes).planJson = some merged ∧ AtEveryCut ProjectFiles.write
        (RecoversWithin sha256 recovery current (validatedPlan files plan options) merged) files
        writes := by
  obtain ⟨hplan, recorded, replayed, hrecorded, hreplayed, rfl⟩ := savePlanWrites_eq_ok hwrites
  obtain ⟨reconciles, inputs, hreconciles, hinputs, hparts⟩ := ledgerWrites_eq_ok hrecorded
  generalize hprepared : (files.writeAll (rootWrites sha256 clock files
    (validatedPlan files plan options))).writeAll reconciles = prepared at hinputs hparts
  have happended : files.writeAll recorded = prepared.writeAll
    ((appendedEvents sha256 clock prepared
      (computePlanLedgerHash sha256 (validatedPlan files plan options)) inputs).map
        DurableWrite.append) := by
    rw [hparts, ProjectFiles.writeAll_append, ProjectFiles.writeAll_append, hprepared]
  have htrace := saveTrace_of_parts (validatedPlan_wellFormed files options hplan) hprepared.symm
    hreconciles hinputs happended hreplayed
  have hprepared' : prepared = files.writeAll
      (rootWrites sha256 clock files (validatedPlan files plan options) ++ reconciles) := by
    rw [ProjectFiles.writeAll_append, hprepared]
  obtain ⟨current', before, hcurrent', hbefore, hagree⟩ := exists_replay_of_syncedAt hsynced
  cases hcurrent.symm.trans hcurrent'
  obtain ⟨base, hbase, hstatuses, hpreparation⟩ :=
    htrace.exists_base hprepared' hreconciles hbefore
  have hdisk : prepared.planJson = some current := htrace.prepares.planJson.trans hcurrent
  have hrecordedSafe : ∀ id k, CutSafe (current.statusesOf id)
      ((validatedPlan files plan options).statusesOf id)
      ((projectionCandidate (files.writeAll recorded) (validatedPlan files plan options)
        replayed).statusesOf id)
      (((inputs.take k).foldl LedgerEventInput.record base).statusesOf id) := fun id k =>
    htrace.cutSafe_recorded hdisk (htrace.replayed_eq hbase)
      ((hstatuses id).imp_right fun hsame => hsame.trans (hagree id)) k
  have hsave : savePlan sha256 clock files plan options = .ok (files.writeAll (recorded
      ++ projectionWrites sha256 clock (files.writeAll recorded) (validatedPlan files plan options)
        options replayed)) := by
    rw [savePlan, hwrites]
    rfl
  have hsynced' := fun id => (hsynced id).savePlan hsha hsave
  rw [ProjectFiles.writeAll_append] at hsynced' ⊢
  have hidentity := htrace.identity
  have happendedDisk : (files.writeAll recorded).planJson = some current := by
    rw [happended]
    exact (ProjectFiles.writeAll_map_append _ _).2.trans hdisk
  refine ⟨projectionCandidate (files.writeAll recorded) (validatedPlan files plan options) replayed,
    (writeAll_projectionWrites htrace.wellFormed hidentity).1, ?_⟩
  have hrecordedCuts : AtEveryCut ProjectFiles.write (RecoversWithin sha256 recovery current
      (validatedPlan files plan options) (projectionCandidate (files.writeAll recorded)
        (validatedPlan files plan options) replayed)) files
      (rootWrites sha256 clock files (validatedPlan files plan options) ++ reconciles
        ++ (appendedEvents sha256 clock prepared
          (computePlanLedgerHash sha256 (validatedPlan files plan options)) inputs).map
            DurableWrite.append) := by
    rw [atEveryCut_append]
    refine ⟨hpreparation.mono ?_, ?_⟩
    · rintro state (rfl | ⟨hbased, hplanJson⟩)
      · exact recoversWithin_of_syncedAt hsynced hcurrent fun _ => .of_old
      · exact recoversWithin_of_replay (hplanJson.trans hcurrent) hbased.replaysTo.replayFromLedger
          (fun _ => .of_old) fun id => hrecordedSafe id 0
    · rw [show (rootWrites sha256 clock files (validatedPlan files plan options)
        ++ reconciles).foldl ProjectFiles.write files = prepared from hprepared'.symm]
      exact recordedPrefix_cuts hdisk hbase
        (fun input hinput => (mem_diffInputs hinputs hinput).1)
        (fun input hinput => (mem_diffInputs hinputs hinput).2.isChange) hrecordedSafe
  rw [← hparts] at hrecordedCuts
  rw [atEveryCut_append]
  exact ⟨hrecordedCuts, projection_cuts happendedDisk htrace.wellFormed hidentity
    hrecordedCuts.complete hsynced'⟩

end Cut

/-! ### Two tasks with one id -/

/-- Two tasks of one id, the second of them blocked. -/
def twinTaskPlan (first : TaskStatus) : Plan :=
  derivePhaseStatuses (onePhasePlan [plainTask "1.1" first, plainTask "1.1" .blocked])

/-- The status event of the first task is replayed as it is, while the merge
    gives both tasks the status of the second: a crash between the two shows a
    status that is neither old nor merged. -/
theorem recovered_status_neither_old_nor_merged :
    ¬ ∀ sha256 : JsString → JsString, Function.Injective sha256 →
      ∀ (clock recovery : SaveClock) (files : ProjectFiles) (plan current : Plan)
        (options : SaveOptions) (writes : List DurableWrite),
        (∀ id, SyncedAt files id) → files.planJson = some current →
        savePlanWrites sha256 clock files plan options = .ok writes →
        ∃ merged, (files.writeAll writes).planJson = some merged ∧ ∀ k, ∃ recovered,
            recoveredPlan sha256 recovery (files.writeAll (writes.take k)) = some recovered
            ∧ ∀ id, ∀ status ∈ recovered.statusesOf id,
              status ∈ current.statusesOf id ∨ status ∈ merged.statusesOf id := by
  intro hall
  have hbased : BasedOn (savedFiles (twinTaskPlan .pending)) (twinTaskPlan .pending) :=
    basedOn_savedFiles (by decide)
  have hsynced := hbased.syncedAt rfl
  have hneither : (savePlanWrites id sampleClock (savedFiles (twinTaskPlan .pending))
      (twinTaskPlan .inProgress) {}).toOption.all (fun writes =>
        ((savedFiles (twinTaskPlan .pending)).writeAll writes).planJson.all fun merged =>
          (recoveredPlan id sampleClock
            ((savedFiles (twinTaskPlan .pending)).writeAll (writes.take 1))).all fun recovered =>
              decide (∀ status ∈ recovered.statusesOf (js "1.1"),
                status ∈ (twinTaskPlan .pending).statusesOf (js "1.1")
                  ∨ status ∈ merged.statusesOf (js "1.1"))) = false := by decide +kernel
  cases hwrites : savePlanWrites id sampleClock (savedFiles (twinTaskPlan .pending))
      (twinTaskPlan .inProgress) {} with
  | error err =>
    rw [hwrites] at hneither
    cases hneither
  | ok writes =>
    obtain ⟨merged, hmerged, hcuts⟩ :=
      hall id Function.injective_id _ sampleClock _ _ _ _ _ hsynced rfl hwrites
    obtain ⟨recovered, hrecovered, hstatuses⟩ := hcuts 1
    rw [hwrites] at hneither
    dsimp only [Except.toOption, Option.all_some] at hneither
    rw [hmerged, Option.all_some, hrecovered] at hneither
    exact of_decide_eq_false hneither (hstatuses (js "1.1"))

/-- Every cut of a save that completes one task and blocks another. -/
theorem recoversWithin_savePlanWrites_savedFiles :
    ∃ writes merged, savePlanWrites id sampleClock (savedFiles (threeTaskPlan .pending .pending))
        (threeTaskPlan .completed .blocked) {} = .ok writes
      ∧ ((savedFiles (threeTaskPlan .pending .pending)).writeAll writes).planJson = some merged
      ∧ AtEveryCut ProjectFiles.write (RecoversWithin id sampleClock
          (threeTaskPlan .pending .pending)
          (validatedPlan (savedFiles (threeTaskPlan .pending .pending))
            (threeTaskPlan .completed .blocked) {}) merged)
        (savedFiles (threeTaskPlan .pending .pending)) writes := by
  have hbased : BasedOn (savedFiles (threeTaskPlan .pending .pending))
      (threeTaskPlan .pending .pending) := basedOn_savedFiles (by decide)
  have hsynced := hbased.syncedAt rfl
  cases hwrites : savePlanWrites id sampleClock (savedFiles (threeTaskPlan .pending .pending))
      (threeTaskPlan .completed .blocked) {} with
  | error err =>
    have hok : (savePlanWrites id sampleClock (savedFiles (threeTaskPlan .pending .pending))
        (threeTaskPlan .completed .blocked) {}).toBool = true := by decide +kernel
    rw [hwrites] at hok
    cases hok
  | ok writes =>
    obtain ⟨merged, hmerged, hcuts⟩ := recoversWithin_savePlanWrites Function.injective_id
      sampleClock
      hsynced rfl hwrites
    exact ⟨writes, merged, rfl, hmerged, hcuts⟩

end OpencodeSwarm
