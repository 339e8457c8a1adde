/-
  OpencodeSwarm.Background.LastSnapshot

  Strict recovery of the delegation ledger gives the last snapshot of every id, or
  what compactions left of it, in every run in which no append repeats a millisecond
  that a checkpoint was cut in, and no second compaction stops between its checkpoint
  and its manifest.
-/
import OpencodeSwarm.Background.LedgerInvariant

namespace OpencodeSwarm

open Js TextLines Transition

section Invariant

variable {host : LedgerHost} {codec : CheckpointCodec} {files : DelegationFiles}
  {lines : List BackgroundDelegationRecord} {view : DelegationMap} {world : LedgerWorld}

/-! ## Compacting -/

/-- What a compaction plans, from the load and the ledger it was made from. -/
structure PlannedFrom (host : LedgerHost) (codec : CheckpointCodec) (files : DelegationFiles)
    (now : Int) (load : LedgerLoad) (ledger : List UInt8) (plan : CompactionPlan) : Prop where
  loaded : loadFoldedState host codec files false = .ok load
  ledger_eq : files.ledger = some ledger
  selects : Selects host.toCheckpointHost now load.records.values
    { live := plan.checkpoint.records, keptClosed := plan.checkpoint.closed }
  sequence : plan.checkpoint.sequence
    = max ((load.manifest.map (·.sequence)).getD 0) ((load.checkpoint.map (·.sequence)).getD 0) + 1
  createdAt : plan.checkpoint.createdAt = now
  cutBytes : plan.checkpoint.cutLedgerBytes = ledger.length
  cutDigest : plan.checkpoint.cutLedgerDigest = host.sha256 ledger
  bytes : codec.checkpointBytes plan.checkpoint.toCheckpointPayload ≤ maxCheckpointBytes
  checksum : plan.checkpoint.payloadChecksum
    = codec.payloadChecksum plan.checkpoint.toCheckpointPayload
  manifestSequence : plan.manifest.sequence = plan.checkpoint.sequence
  manifestChecksum : plan.manifest.checkpointChecksum = plan.checkpoint.payloadChecksum
  tailContent : plan.tailContent = []

variable {force : Bool}

theorem plannedFrom_of_ok {now : Int} {plan : CompactionPlan}
    (h : compactFiles host codec files now force = .ok plan) :
    ∃ load ledger, PlannedFrom host codec files now load ledger plan := by
  unfold compactFiles at h
  cases hload : loadFoldedState host codec files false with
  | error uncertainty =>
    rw [hload] at h
    cases h
  | ok load =>
    rw [hload] at h
    unfold planCompaction at h
    cases hledger : files.ledger with
    | none =>
      rw [hledger] at h
      cases h
    | some ledger =>
      rw [hledger] at h
      dsimp only at h
      split at h
      · cases h
      cases hselect : selectCheckpoint host.toCheckpointHost now ledger.length
          load.records.values with
      | error skip =>
        rw [hselect] at h
        cases h
      | ok selection =>
        rw [hselect] at h
        dsimp only at h
        split at h
        · cases h
        split at h
        · cases h
        rename_i hbytes
        cases h
        exact ⟨load, ledger, hload, hledger, selects_of_selectCheckpoint hselect, rfl, rfl,
          rfl, rfl, not_lt.mp hbytes, rfl, rfl, rfl, List.drop_length⟩

section Planned

variable {now : Int} {load : LedgerLoad} {ledger : List UInt8} {plan : CompactionPlan}

/-- What a compaction has loaded is the view, and the files it was cut from. -/
theorem PlannedFrom.of_holds (hsha : Function.Injective host.sha256)
    (h : HoldsFiles host codec files lines view)
    (hbound : (files.ledger.getD []).length ≤ maxRecoveryLedgerBytes)
    (hplan : PlannedFrom host codec files now load ledger plan) :
    load.records = view ∧ ledger = ledgerText host lines ∧ load.manifest = files.manifest
      ∧ (files.manifest ≠ none → load.checkpoint = files.checkpoint) := by
  obtain ⟨other, hother, hrecords, hmanifest, hcheckpoint⟩ := h.load hsha hbound false
  have hsame : other = load := by
    rw [hplan.loaded] at hother
    cases hother
    rfl
  subst hsame
  have htext := h.ledger_eq
  rw [hplan.ledger_eq] at htext
  exact ⟨hrecords, htext, hmanifest, hcheckpoint⟩

theorem Accounts.checkpointed {trace : JsString → Option TracedSnapshot} {id : JsString}
    (hkeyed : KeyedById view) (hselects : Selects host.toCheckpointHost now view.values
      { live := plan.checkpoint.records, keptClosed := plan.checkpoint.closed })
    (h : Accounts host.toCheckpointHost (trace id) (view.get? id)) :
    Accounts host.toCheckpointHost (stampTrace now trace id)
      ((checkpointRecords plan.checkpoint.toCheckpointPayload).get? id) := by
  have hids : (view.values.map (·.correlationId)).Nodup := by
    rw [hkeyed.ids_values]
    exact hkeyed.nodup
  have hnodup := hselects.nodup_retained hids
  cases hget : view.get? id with
  | none =>
    -- nothing is left of what was not there
    have hnone : (checkpointRecords plan.checkpoint.toCheckpointPayload).get? id = none := by
      rw [Option.eq_none_iff_forall_ne_some]
      intro left hleft
      obtain ⟨hmem, hid⟩ := (get?_checkpointRecords hnodup).mp hleft
      obtain ⟨record, hrecord, hof⟩ := hselects.exists_record hmem
      have hfound := hkeyed.mem_values.mp hrecord
      rw [← hof.sameSkeleton.correlationId, hid, hget] at hfound
      cases hfound
    rw [hnone]
    rw [hget] at h
    exact h.stamp now
  | some entry =>
    rw [hget] at h
    cases htrace : trace id with
    | none =>
      rw [htrace] at h
      cases h
    | some traced =>
      rw [htrace] at h
      have hstamped : stampTrace now trace id
          = some { traced with compactions := now :: traced.compactions } := by
        rw [stampTrace, htrace]
        rfl
      rw [hstamped]
      have hentryId : entry.correlationId = id := hkeyed.id_of_get? hget
      have hmem : entry ∈ view.values := hkeyed.mem_values.mpr (by rw [hentryId]; exact hget)
      cases hnew : (checkpointRecords plan.checkpoint.toCheckpointPayload).get? id with
      | none =>
        rcases hselects.exists_left hmem with ⟨left, hleft, hof⟩ | ⟨hclosed, hold⟩
        · have hfound := (get?_checkpointRecords hnodup).mpr
            ⟨hleft, hof.sameSkeleton.correlationId.trans hentryId⟩
          rw [hnew] at hfound
          cases hfound
        · exact h.evicted hclosed hold
      | some left =>
        obtain ⟨hleft, hid⟩ := (get?_checkpointRecords hnodup).mp hnew
        obtain ⟨record, hrecord, hof⟩ := hselects.exists_record hleft
        have hfound := hkeyed.mem_values.mp hrecord
        rw [← hof.sameSkeleton.correlationId, hid, hget] at hfound
        cases hfound
        exact h.left hof

variable {record : BackgroundDelegationRecord}

/-- Every line of the ledger is covered by an entry of the new checkpoint, or is old. -/
theorem LedgerInvariant.covered (h : LedgerInvariant host codec world lines view)
    (hclock : world.clock ≤ now)
    (hselects : Selects host.toCheckpointHost now view.values
      { live := plan.checkpoint.records, keptClosed := plan.checkpoint.closed })
    (hrecord : record ∈ lines) : record.updatedAt ≤ now
      ∧ ((∃ entry ∈ plan.checkpoint.records ++ plan.checkpoint.closed,
          entry.correlationId = record.correlationId ∧ record.updatedAt ≤ entry.updatedAt)
        ∨ record.updatedAt + tombstoneMinAgeMs ≤ now) := by
  obtain ⟨traced, htraced, hle⟩ := h.lineTraced record hrecord
  obtain ⟨hdated, hcompactions⟩ := h.dated _ _ htraced
  refine ⟨by omega, ?_⟩
  have haccounts := h.accounts record.correlationId
  rw [htraced] at haccounts
  have hkeyed := h.holds.keyed
  cases hget : view.get? record.correlationId with
  | none =>
    rw [hget] at haccounts
    rcases haccounts with hsame | ⟨-, -, summary, hsummary, -⟩ | ⟨-, -, earlier, hearlier, hage⟩
    · cases hsame
    · cases hsummary
    · have hbefore := hcompactions earlier hearlier
      exact Or.inr (by omega)
  | some entry =>
    rw [hget] at haccounts
    have hsame := haccounts.sameSkeleton.updatedAt
    have hid := hkeyed.id_of_get? hget
    have hmem : entry ∈ view.values := hkeyed.mem_values.mpr (by rw [hid]; exact hget)
    rcases hselects.exists_left hmem with ⟨left, hleft, hof⟩ | ⟨-, hold⟩
    · refine Or.inl ⟨left, hleft, hof.sameSkeleton.correlationId.trans hid, ?_⟩
      rw [hof.sameSkeleton.updatedAt]
      omega
    · have hage : ¬ now - entry.updatedAt < tombstoneMinAgeMs := of_decide_eq_false hold
      exact Or.inr (by omega)

variable {after : DelegationFiles} {manifest : BackgroundDelegationManifest}

theorem LedgerInvariant.publishes (h : LedgerInvariant host codec world lines view)
    (hsha : Function.Injective host.sha256) (hclock : world.clock ≤ now)
    (hplan : PlannedFrom host codec world.files now load ledger plan)
    (hmanifest : after.manifest = some manifest)
    (hcheckpoint : after.checkpoint = some plan.checkpoint)
    (hchecked : checkCheckpoint codec manifest plan.checkpoint = .ok ()) :
    PublishedFiles host codec after manifest plan.checkpoint lines [] := by
  obtain ⟨hrecords, htext, -, -⟩ := hplan.of_holds hsha h.holds h.bounded
  have hselects := hplan.selects
  rw [hrecords] at hselects
  have hids : (view.values.map (·.correlationId)).Nodup := by
    rw [h.holds.keyed.ids_values]
    exact h.holds.keyed.nodup
  refine ⟨hmanifest, hcheckpoint, hchecked, ?_, ?_, h.holds.valid, fun _ hmem => (nomatch hmem),
    hselects.nodup_retained hids, fun _ hmem => (nomatch hmem), ?_⟩
  · rw [hplan.cutBytes, htext]
  · rw [hplan.cutDigest, htext]
  · intro record hrecord
    rw [hplan.createdAt]
    exact h.covered hclock hselects hrecord

theorem LedgerInvariant.dated_stamp (h : LedgerInvariant host codec world lines view)
    (hclock : world.clock ≤ now) (id : JsString) (stamped : TracedSnapshot)
    (hstamped : stampTrace now world.traced id = some stamped) :
    stamped.snapshot.updatedAt ≤ now ∧ ∀ time ∈ stamped.compactions, time ≤ now := by
  obtain ⟨traced, htraced, rfl⟩ := Option.map_eq_some_iff.mp hstamped
  obtain ⟨hdated, hcompactions⟩ := h.dated id traced htraced
  refine ⟨by dsimp only; omega, fun time htime => ?_⟩
  rcases List.mem_cons.mp htime with rfl | hold
  · exact le_refl _
  · have hbefore := hcompactions time hold
    omega

theorem LedgerInvariant.lineTraced_stamp (h : LedgerInvariant host codec world lines view)
    (hrecord : record ∈ lines) :
    ∃ stamped, stampTrace now world.traced record.correlationId = some stamped
      ∧ record.updatedAt ≤ stamped.snapshot.updatedAt := by
  obtain ⟨traced, htraced, hle⟩ := h.lineTraced record hrecord
  refine ⟨{ traced with compactions := now :: traced.compactions }, ?_, hle⟩
  rw [stampTrace, htraced]
  rfl

theorem LedgerInvariant.checkpointed (h : LedgerInvariant host codec world lines view)
    (hsha : Function.Injective host.sha256) (hclock : world.clock ≤ now)
    (hplan : PlannedFrom host codec world.files now load ledger plan)
    {later : List BackgroundDelegationRecord} (hholds : HoldsFiles host codec after later
      (checkpointRecords plan.checkpoint.toCheckpointPayload))
    (hlater : ∀ record ∈ later, record ∈ lines)
    (hbound : (after.ledger.getD []).length ≤ maxRecoveryLedgerBytes)
    (hcut : publishedCut after = some now) : LedgerInvariant host codec
      { files := after
        clock := now
        traced := stampTrace now world.traced }
      later (checkpointRecords plan.checkpoint.toCheckpointPayload) := by
  obtain ⟨hrecords, -, -, -⟩ := hplan.of_holds hsha h.holds h.bounded
  have hselects := hplan.selects
  rw [hrecords] at hselects
  refine ⟨hholds, hbound, fun id => Accounts.checkpointed h.holds.keyed hselects (h.accounts id),
    h.dated_stamp hclock, fun record hrecord => h.lineTraced_stamp (hlater record hrecord), ?_⟩
  intro cut hcutAfter
  rw [hcut] at hcutAfter
  cases hcutAfter
  exact le_refl _

theorem LedgerInvariant.stamped (h : LedgerInvariant host codec world lines view)
    (hclock : world.clock ≤ now) (hholds : HoldsFiles host codec after lines view)
    (hledger : after.ledger = world.files.ledger)
    (hcut : ∀ cut, publishedCut after = some cut → publishedCut world.files = some cut) :
    LedgerInvariant host codec
      { files := after
        clock := now
        traced := stampTrace now world.traced } lines view := by
  refine ⟨hholds, by rw [hledger]; exact h.bounded, fun id => (h.accounts id).stamp now,
    h.dated_stamp hclock, fun record hrecord => h.lineTraced_stamp hrecord, ?_⟩
  intro cut hcutAfter
  have hbefore := h.cutBefore cut (hcut cut hcutAfter)
  dsimp only
  omega

/-! ### Where it stops -/

theorem PlannedFrom.checked (hplan : PlannedFrom host codec files now load ledger plan) :
    checkCheckpoint codec plan.manifest plan.checkpoint = .ok () := by
  unfold checkCheckpoint
  rw [if_neg (not_lt.mpr hplan.bytes), if_neg fun h => h.1 hplan.manifestSequence.symm,
    if_neg fun h => h.2 hplan.manifestChecksum, if_neg fun h => h hplan.checksum.symm]

theorem PlannedFrom.checked_ahead (hplan : PlannedFrom host codec files now load ledger plan)
    (hahead : plan.checkpoint.sequence = manifest.sequence + 1) :
    checkCheckpoint codec manifest plan.checkpoint = .ok () := by
  unfold checkCheckpoint
  rw [if_neg (not_lt.mpr hplan.bytes), if_neg fun h => h.2 hahead,
    if_neg fun h => absurd h.1 (by omega), if_neg fun h => h hplan.checksum.symm]

theorem LedgerInvariant.checkpointRenamed (h : LedgerInvariant host codec world lines view)
    (hsha : Function.Injective host.sha256) (hclock : world.clock ≤ now)
    (hplan : PlannedFrom host codec world.files now load ledger plan)
    (hwhole : halfPublished world.files = false) :
    ∃ later loaded, LedgerInvariant host codec
      { files := LedgerWrite.apply world.files (.checkpoint plan.checkpoint)
        clock := now
        traced := stampTrace now world.traced } later loaded := by
  obtain ⟨-, htext, hmanifest, hcheckpoint⟩ := hplan.of_holds hsha h.holds h.bounded
  cases hpublished : world.files.manifest with
  | none =>
    -- without a manifest readers ignore the checkpoint
    have hcut : ∀ files : DelegationFiles, files.manifest = none → publishedCut files = none := by
      intro files hnone
      rw [publishedCut, hnone]
    have hholds : HoldsFiles host codec
        (LedgerWrite.apply world.files (.checkpoint plan.checkpoint)) lines view := by
      cases h.holds with
      | legacy _ hledger hvalid => exact .legacy hpublished hledger hvalid
      | unrolled hfiles _ | rolled hfiles _ =>
        rw [hfiles.manifest_eq] at hpublished
        cases hpublished
    refine ⟨lines, view, h.stamped hclock hholds rfl fun cut hafter => ?_⟩
    rw [hcut (LedgerWrite.apply world.files (.checkpoint plan.checkpoint)) hpublished] at hafter
    cases hafter
  | some manifest =>
    have hold : ∃ checkpoint, world.files.checkpoint = some checkpoint := by
      cases h.holds with
      | legacy hnone _ _ =>
        rw [hnone] at hpublished
        cases hpublished
      | unrolled hfiles _ | rolled hfiles _ => exact ⟨_, hfiles.checkpoint_eq⟩
    obtain ⟨checkpoint, hcheckpointFile⟩ := hold
    have hsame : checkpoint.sequence = manifest.sequence := by
      rw [halfPublished, hpublished, hcheckpointFile] at hwhole
      exact bne_eq_false_iff_eq.mp hwhole
    have hahead : plan.checkpoint.sequence = manifest.sequence + 1 := by
      rw [hplan.sequence, hmanifest, hcheckpoint (by rw [hpublished]; exact Option.some_ne_none _),
        hpublished, hcheckpointFile, Option.map_some, Option.map_some, Option.getD_some,
        Option.getD_some, hsame, max_self]
    have hfiles : PublishedFiles host codec
        (LedgerWrite.apply world.files (.checkpoint plan.checkpoint)) manifest plan.checkpoint lines
        [] := h.publishes hsha hclock hplan hpublished rfl (hplan.checked_ahead hahead)
    refine ⟨lines, _, h.checkpointed hsha hclock hplan ?_ (fun _ => id) h.bounded ?_⟩
    · have hunrolled := HoldsFiles.unrolled hfiles
        (by rw [List.append_nil, ← htext]; exact hplan.ledger_eq)
      rwa [List.append_nil] at hunrolled
    · rw [hfiles.publishedCut_eq, hplan.createdAt]

/-- Behind its second rename the manifest is new too, and behind the third the ledger. -/
theorem LedgerInvariant.published (h : LedgerInvariant host codec world lines view)
    (hsha : Function.Injective host.sha256) (hclock : world.clock ≤ now)
    (hplan : PlannedFrom host codec world.files now load ledger plan)
    (hmanifest : after.manifest = some plan.manifest)
    (hcheckpoint : after.checkpoint = some plan.checkpoint)
    (hledger : after.ledger = world.files.ledger ∨ after.ledger = some []) :
    ∃ later loaded, LedgerInvariant host codec
      { files := after, clock := now, traced := stampTrace now world.traced } later loaded := by
  obtain ⟨-, htext, -, -⟩ := hplan.of_holds hsha h.holds h.bounded
  have hfiles := h.publishes hsha hclock hplan hmanifest hcheckpoint hplan.checked
  have hcut : publishedCut after = some now := by
    rw [hfiles.publishedCut_eq, hplan.createdAt]
  rcases hledger with hkept | hempty
  · refine ⟨lines, _, h.checkpointed hsha hclock hplan ?_ (fun _ => id) ?_ hcut⟩
    · have hunrolled := HoldsFiles.unrolled hfiles
        (by rw [List.append_nil, ← htext, hkept]; exact hplan.ledger_eq)
      rwa [List.append_nil] at hunrolled
    · rw [hkept]
      exact h.bounded
  · refine ⟨[], _, h.checkpointed hsha hclock hplan (HoldsFiles.rolled hfiles hempty)
      (fun _ hmem => (nomatch hmem)) ?_ hcut⟩
    rw [hempty]
    exact Nat.zero_le _

end Planned

theorem LedgerInvariant.compact {now : Int} {renames : Nat}
    (h : LedgerInvariant host codec world lines view) (hsha : Function.Injective host.sha256)
    (hpromised : PromisedLedgerCall host world (.compact now force renames))
    (hloses : LosesNothing host codec world (.compact now force renames)) :
    ∃ later loaded, LedgerInvariant host codec
      (ledgerStep host codec world (.compact now force renames)) later loaded := by
  have hclock : world.clock ≤ now := hpromised.1
  dsimp only [ledgerStep]
  cases hcompact : compactFiles host codec world.files now force with
  | error skip =>
    refine ⟨lines, view, h.holds, h.bounded, h.accounts, ?_, h.lineTraced, ?_⟩
    · intro id traced htraced
      obtain ⟨hdated, hcompactions⟩ := h.dated id traced htraced
      refine ⟨by dsimp only; omega, fun time htime => ?_⟩
      have hbefore := hcompactions time htime
      dsimp only
      omega
    · intro cut hcut
      have hbefore := h.cutBefore cut hcut
      dsimp only
      omega
  | ok plan =>
    dsimp only
    obtain ⟨load, ledger, hplan⟩ := plannedFrom_of_ok hcompact
    match renames with
    | 0 => exact ⟨lines, view, h.stamped hclock h.holds rfl fun _ => id⟩
    | 1 =>
      refine h.checkpointRenamed hsha hclock hplan ?_
      cases hhalf : halfPublished world.files with
      | false => rfl
      | true =>
        obtain ⟨skip, hskip⟩ := hloses rfl hhalf
        rw [hcompact] at hskip
        cases hskip
    | 2 => exact h.published hsha hclock hplan rfl rfl (Or.inl rfl)
    | renames + 3 =>
      have hall : plan.writes.take (renames + 3) = plan.writes :=
        List.take_of_length_le (by simp [CompactionPlan.writes])
      rw [hall]
      exact h.published hsha hclock hplan rfl rfl (Or.inr (congrArg some hplan.tailContent))

end Invariant

/-! ## Every run -/

/-- In every run that repeats no millisecond of a cut, and half-publishes no second
    checkpoint, strict recovery answers with the last snapshots. -/
theorem loadsLastSnapshots_of_run (host : LedgerHost) (codec : CheckpointCodec)
    (hsha : Function.Injective host.sha256) (clock : Int) (labels : List LedgerLabel)
    (hpromised : Along (ledgerStep host codec) (PromisedLedgerCall host) (.start clock) labels)
    (hloses : Along (ledgerStep host codec) (LosesNothing host codec) (.start clock) labels) :
    LoadsLastSnapshots host codec (labels.foldl (ledgerStep host codec) (.start clock)) := by
  have hinv : ∃ lines view, LedgerInvariant host codec (.start clock) lines view :=
    ⟨[], [], ledgerInvariant_start clock⟩
  generalize LedgerWorld.start clock = world at hinv hpromised hloses
  induction labels generalizing world with
  | nil =>
    obtain ⟨lines, view, hinv⟩ := hinv
    exact hinv.loadsLast hsha
  | cons label rest ih =>
    obtain ⟨lines, view, hinv⟩ := hinv
    refine ih _ ?_ hpromised.2 hloses.2
    cases label with
    | append record => exact ⟨_, _, hinv.append hpromised.1 hloses.1⟩
    | compact now force renames => exact hinv.compact hsha hpromised.1 hloses.1

/-! ### A lane of one delegation -/

/-- A delegation at a status and a time. -/
def ledgerLane (status : BackgroundDelegationStatus) (updatedAt : Int) :
    BackgroundDelegationRecord where
  schemaVersion := 1
  correlationId := js "a"
  jobId := none
  subagentSessionId := js "a"
  parentSessionId := js "p"
  callID := js "c"
  normalizedAgent := js "reviewer"
  swarmPrefixedAgent := js "reviewer"
  planTaskId := none
  evidenceTaskId := none
  status := status
  createdAt := 100
  updatedAt := updatedAt
  batchId := none
  laneId := none
  mode := none
  workflowLane := none
  ownedWorkflowLanes := none
  promptHash := none
  workspace := none
  taskChangeContext := none
  workflowGeneration := none
  worktree := none
  coderReservationId := none
  prompt := none
  generation := none
  terminalResult := none
  coderSettlement := none
  advisoryInbox := none
  legacyCoderSettlementTransfer := none
  result := none
  completedAt := none

/-- Its line. -/
def ledgerLaneText (status : String) : List UInt8 :=
  ("\x7b\"schemaVersion\":1,\"correlationId\":\"a\",\"jobId\":null,\"subagentSessionId\":\"a\","
    ++ "\"parentSessionId\":\"p\",\"callID\":\"c\",\"normalizedAgent\":\"reviewer\","
    ++ "\"swarmPrefixedAgent\":\"reviewer\",\"planTaskId\":null,\"evidenceTaskId\":null,"
    ++ "\"status\":\"" ++ status ++ "\",\"createdAt\":100,\"updatedAt\":100\x7d").toList.map
    fun c => UInt8.ofNat c.toNat

/-! The line, character by character, in the pieces of its definition. -/

def laneIds : List Char :=
    ['\x7b', '"', 's', 'c', 'h', 'e', 'm', 'a', 'V', 'e', 'r', 's', 'i', 'o', 'n', '"', ':', '1',
     ',', '"', 'c', 'o', 'r', 'r', 'e', 'l', 'a', 't', 'i', 'o', 'n', 'I', 'd', '"', ':', '"',
     'a', '"', ',', '"', 'j', 'o', 'b', 'I', 'd', '"', ':', 'n', 'u', 'l', 'l', ',', '"', 's',
     'u', 'b', 'a', 'g', 'e', 'n', 't', 'S', 'e', 's', 's', 'i', 'o', 'n', 'I', 'd', '"', ':',
     '"', 'a', '"', ',']

def laneAgents : List Char :=
    ['"', 'p', 'a', 'r', 'e', 'n', 't', 'S', 'e', 's', 's', 'i', 'o', 'n', 'I', 'd', '"', ':',
     '"', 'p', '"', ',', '"', 'c', 'a', 'l', 'l', 'I', 'D', '"', ':', '"', 'c', '"', ',', '"',
     'n', 'o', 'r', 'm', 'a', 'l', 'i', 'z', 'e', 'd', 'A', 'g', 'e', 'n', 't', '"', ':', '"',
     'r', 'e', 'v', 'i', 'e', 'w', 'e', 'r', '"', ',']

def laneTasks : List Char :=
    ['"', 's', 'w', 'a', 'r', 'm', 'P', 'r', 'e', 'f', 'i', 'x', 'e', 'd', 'A', 'g', 'e', 'n',
     't', '"', ':', '"', 'r', 'e', 'v', 'i', 'e', 'w', 'e', 'r', '"', ',', '"', 'p', 'l', 'a',
     'n', 'T', 'a', 's', 'k', 'I', 'd', '"', ':', 'n', 'u', 'l', 'l', ',', '"', 'e', 'v', 'i',
     'd', 'e', 'n', 'c', 'e', 'T', 'a', 's', 'k', 'I', 'd', '"', ':', 'n', 'u', 'l', 'l', ',']

def laneStatus : List Char :=
  ['"', 's', 't', 'a', 't', 'u', 's', '"', ':', '"']

def laneTimes : List Char :=
    ['"', ',', '"', 'c', 'r', 'e', 'a', 't', 'e', 'd', 'A', 't', '"', ':', '1', '0', '0', ',',
     '"', 'u', 'p', 'd', 'a', 't', 'e', 'd', 'A', 't', '"', ':', '1', '0', '0', '\x7d']

theorem ledgerLaneText_eq (status : String) :
    ledgerLaneText status = (laneIds ++ laneAgents ++ laneTasks ++ laneStatus ++ status.toList
      ++ laneTimes).map fun c => UInt8.ofNat c.toNat := by
  unfold ledgerLaneText
  iterate 5 rw [String.toList_append]
  have hids := congrArg₂ (· ++ ·) (@String.toList_ofList laneIds) (@String.toList_ofList laneAgents)
  have htasks := congrArg₂ (· ++ ·) hids (@String.toList_ofList laneTasks)
  have hstatus := congrArg₂ (· ++ ·) htasks (@String.toList_ofList laneStatus)
  exact congrArg (List.map _) (congrArg₂ (· ++ ·) (congrArg (· ++ status.toList) hstatus)
    (@String.toList_ofList laneTimes))

theorem ledgerLaneText_pending :
    ledgerLaneText "pending" = (laneIds ++ laneAgents ++ laneTasks ++ laneStatus
      ++ ['p', 'e', 'n', 'd', 'i', 'n', 'g'] ++ laneTimes).map fun c => UInt8.ofNat c.toNat := by
  rw [ledgerLaneText_eq, show "pending".toList = ['p', 'e', 'n', 'd', 'i', 'n', 'g'] from
    String.toList_ofList]

theorem ledgerLaneText_running :
    ledgerLaneText "running" = (laneIds ++ laneAgents ++ laneTasks ++ laneStatus
      ++ ['r', 'u', 'n', 'n', 'i', 'n', 'g'] ++ laneTimes).map fun c => UInt8.ofNat c.toNat := by
  rw [ledgerLaneText_eq, show "running".toList = ['r', 'u', 'n', 'n', 'i', 'n', 'g'] from
    String.toList_ofList]

/-- The surroundings, as far as the lane needs them: two of its snapshots are valid. -/
def ledgerLaneHost : LedgerHost where
  receipts :=
    { footer := fun _ _ => none, shedMarker := fun _ _ => none, markerOfFooter := fun _ _ => none }
  schema := fun record =>
    decide (record = ledgerLane .pending 100) || decide (record = ledgerLane .running 100)
  recordBytes := fun _ => 254
  overheadBytes := fun _ _ _ => 1000
  encode := fun record =>
    if record = ledgerLane .pending 100 then ledgerLaneText "pending"
    else if record = ledgerLane .running 100 then ledgerLaneText "running" else []
  readLine := fun line =>
    if line = [] then .blank
    else if line = ledgerLaneText "pending" then .record (ledgerLane .pending 100)
    else if line = ledgerLaneText "running" then .record (ledgerLane .running 100)
    else .malformedJson
  sha256 := fun bytes => bytes.map UInt8.toUInt16
  lineFeed_notMem := by
    intro record
    split
    · rw [ledgerLaneText_pending]
      decide +kernel
    · split
      · rw [ledgerLaneText_running]
        decide +kernel
      · exact List.not_mem_nil
  readLine_nil := if_pos rfl
  readLine_encode := by
    intro record hvalid
    rw [Bool.or_eq_true, decide_eq_true_eq, decide_eq_true_eq] at hvalid
    rcases hvalid with rfl | rfl
    · have hnonempty : ledgerLaneText "pending" ≠ [] := by
        rw [ledgerLaneText_pending]
        decide +kernel
      rw [if_pos rfl, if_neg hnonempty, if_pos rfl]
    · have hother : ledgerLane .running 100 ≠ ledgerLane .pending 100 := by decide +kernel
      have hnonempty : ledgerLaneText "running" ≠ [] := by
        rw [ledgerLaneText_running]
        decide +kernel
      have htext : ledgerLaneText "running" ≠ ledgerLaneText "pending" := by
        rw [ledgerLaneText_running, ledgerLaneText_pending]
        decide +kernel
      rw [if_neg hother, if_pos rfl, if_neg hnonempty, if_neg htext, if_pos rfl]

def ledgerLaneCodec : CheckpointCodec where
  payloadChecksum := fun _ => []
  checkpointBytes := fun _ => 1254

theorem ledgerLane_sha256_injective : Function.Injective ledgerLaneHost.sha256 := by
  refine List.map_injective_iff.mpr fun a b h => ?_
  have hnat := congrArg UInt16.toNat h
  exact UInt8.toNat_inj.mp hnat

theorem loadsLastSnapshots_pendingLane :
    LoadsLastSnapshots ledgerLaneHost ledgerLaneCodec
      ([.append (ledgerLane .pending 100), .compact 100 true 3].foldl
        (ledgerStep ledgerLaneHost ledgerLaneCodec) (.start 100)) := by
  refine loadsLastSnapshots_of_run ledgerLaneHost ledgerLaneCodec ledgerLane_sha256_injective 100 _
    ⟨⟨le_refl _, ?_, ?_⟩, ⟨le_refl _, trivial⟩, trivial⟩ ⟨?_, ?_, trivial⟩
  · decide +kernel
  · decide +kernel
  · exact fun _ _ htraced => nomatch htraced
  · exact fun hone => absurd hone (by decide)

/-- A snapshot in the millisecond of the compaction is not read back. -/
theorem not_loadsLastSnapshots_sameMillisecond :
    ¬ ∀ (host : LedgerHost) (codec : CheckpointCodec), Function.Injective host.sha256 →
      ∀ (clock : Int) (labels : List LedgerLabel),
        Along (ledgerStep host codec) (PromisedLedgerCall host) (.start clock) labels →
        LoadsLastSnapshots host codec (labels.foldl (ledgerStep host codec) (.start clock)) := by
  intro hall
  have hfirst : PromisedLedgerCall ledgerLaneHost (.start 100)
      (.append (ledgerLane .pending 100)) := by
    refine ⟨le_refl _, by decide +kernel, ?_⟩
    decide +kernel
  have hsecond : PromisedLedgerCall ledgerLaneHost
      (ledgerStep ledgerLaneHost ledgerLaneCodec (ledgerStep ledgerLaneHost ledgerLaneCodec
        (.start 100) (.append (ledgerLane .pending 100))) (.compact 100 true 3))
      (.append (ledgerLane .running 100)) := by
    refine ⟨?_, by decide +kernel, ?_⟩
    all_goals
      simp only [ledgerLaneHost, ledgerLaneText_pending, ledgerLaneText_running]
      decide +kernel
  obtain ⟨load, hload, haccounts⟩ := hall ledgerLaneHost ledgerLaneCodec
    ledgerLane_sha256_injective 100
    [.append (ledgerLane .pending 100), .compact 100 true 3, .append (ledgerLane .running 100)]
    ⟨hfirst, ⟨le_refl _, trivial⟩, hsecond, trivial⟩
  have hread : (match loadFoldedState ledgerLaneHost ledgerLaneCodec
      ([.append (ledgerLane .pending 100), .compact 100 true 3,
        .append (ledgerLane .running 100)].foldl (ledgerStep ledgerLaneHost ledgerLaneCodec)
          (.start 100)).files true with
      | .ok load => load.records.get? (js "a")
      | .error _ => none) = some (ledgerLane .pending 100) := by
    decide +kernel
  rw [hload] at hread
  have hlast := haccounts (js "a")
  dsimp only at hread
  rw [hread] at hlast
  rcases hlast with hsame | ⟨hclosed, -⟩ | ⟨hclosed, -⟩
  · exact absurd hsame (by decide +kernel)
  · exact absurd hclosed (by decide +kernel)
  · exact absurd hclosed (by decide +kernel)

end OpencodeSwarm
