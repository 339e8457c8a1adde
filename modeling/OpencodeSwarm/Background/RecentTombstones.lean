/-
  OpencodeSwarm.Background.RecentTombstones

  Which records maintenance removes, in either mode of the delegation store.  A
  compaction evicts what is closed and past the tombstone age, from the files and from
  the rows alike.  Pruning before an append goes by the number of rows alone, and keeps
  what is live and the newest of the closed rows.
-/
import OpencodeSwarm.Background.CoordinationRows
import OpencodeSwarm.Background.LastSnapshot

namespace OpencodeSwarm

open Js Sql TextLines Transition

/-! ## Runs -/

/-- The files, and the rows once the database exists. -/
structure RetentionWorld where
  files : DelegationFiles
  table : Option DelegationTable

/-- An append of a record, with the pruning before it, and a compaction. -/
inductive RetentionLabel where
  | append (now : Int) (nowIso : JsString) (applied : Bool) (record : BackgroundDelegationRecord)
  | compact (now : Int) (nowIso : JsString) (force : Bool)

def RetentionLabel.now : RetentionLabel → Int
  | .append now _ _ _ => now
  | .compact now _ _ => now

/-- `compactDelegationsLocked` up to its plan: the rows are the authority when there are
    any, and else the files. -/
def planStoreCompaction (host : LedgerHost) (codec : CheckpointCodec) (rowHost : RowHost)
    (world : RetentionWorld) (now : Int) (force : Bool) : Except CompactionSkip CompactionPlan :=
  match world.table with
  | none => compactFiles host codec world.files now force
  | some table =>
    match coordinationRowsToDelegations rowHost host.schema table.rows with
    | none => .error .uncertain
    | some folded =>
      planCompaction host codec
        { folded, manifest := world.files.manifest, checkpoint := world.files.checkpoint }
        world.files.ledger now force

/-- An append or a compaction, in the store of the mode. -/
def retentionStep (host : LedgerHost) (codec : CheckpointCodec) (rowHost : RowHost)
    (world : RetentionWorld) : RetentionLabel → RetentionWorld
  | .append _ nowIso applied record =>
    match world.table with
    | none => { world with files := appendLedgerRecord host world.files record }
    | some table => { world with table := some (table.append rowHost record nowIso applied) }
  | .compact now nowIso force =>
    match planStoreCompaction host codec rowHost world now force with
    | .error _ => world
    | .ok plan =>
      { files := plan.writes.foldl LedgerWrite.apply world.files
        table := world.table.map
          (DelegationTable.synchronize host.schema
            (plan.checkpoint.records ++ plan.checkpoint.closed) nowIso) }

/-- What a dispatch of the session finds: the row of the id, or the folded record. -/
def FindsRecord (host : LedgerHost) (codec : CheckpointCodec) (world : RetentionWorld)
    (id : JsString) (record : BackgroundDelegationRecord) : Prop :=
  match world.table with
  | some table => ∃ row ∈ table.rows, row.entityKey = id ∧ row.payload = record
  | none => ∃ load, loadFoldedState host codec world.files false = .ok load
      ∧ load.records.get? id = some record

/-- Maintenance keeps the id of every record that is live, or younger than a tombstone.
    An append to the files runs no maintenance. -/
def KeepsRecent (host : LedgerHost) (codec : CheckpointCodec) (rowHost : RowHost)
    (world : RetentionWorld) (label : RetentionLabel) : Prop :=
  (world.table = none → ∃ now nowIso force, label = .compact now nowIso force) →
    ∀ id record, FindsRecord host codec world id record →
      (isCheckpointLiveRecord record = true ∨ isYoung label.now record = true) →
      ∃ left, FindsRecord host codec (retentionStep host codec rowHost world label) id left

/-- What maintenance is there to keep.  A compaction goes by the age; the pruning before an
    append goes by the number of rows, and leaves what is live and what the terminal history
    has room for. -/
def KeepsHistory (host : LedgerHost) (codec : CheckpointCodec) (rowHost : RowHost)
    (world : RetentionWorld) : RetentionLabel → Prop
  | .append now nowIso applied record =>
    ∀ table, world.table = some table → ∀ row ∈ table.rows,
      (isCheckpointLiveRecord row.payload = true
        ∨ (closedSince rowHost table.rows row).length < maxCoordinationTerminalRows) →
      ∃ left, FindsRecord host codec
        (retentionStep host codec rowHost world (.append now nowIso applied record))
        row.entityKey left
  | .compact now nowIso force => KeepsRecent host codec rowHost world (.compact now nowIso force)

/-! ## Pruning -/

section Pruning

variable {rowHost : RowHost} {rows : List DelegationRow} {record : BackgroundDelegationRecord}
  {nowIso : JsString} {applied : Bool}

theorem key_mem_appendRow {row : DelegationRow}
    (h : row ∈ pruneCoordinationDelegationRows rowHost rows) :
    ∃ left ∈ appendRow rowHost rows record nowIso applied, left.entityKey = row.entityKey := by
  dsimp only [appendRow]
  split
  · exact ⟨row, h, rfl⟩
  split
  · by_cases hkey : row.entityKey = record.correlationId
    · exact ⟨_, List.mem_append_right _ (List.mem_singleton_self _), hkey.symm⟩
    · refine ⟨row, List.mem_append_left _ (List.mem_filter.mpr ⟨h, ?_⟩), rfl⟩
      exact decide_eq_true hkey
  · exact ⟨row, h, rfl⟩

theorem keepsHistory_append (host : LedgerHost) (codec : CheckpointCodec) (world : RetentionWorld)
    (now : Int) : KeepsHistory host codec rowHost world (.append now nowIso applied record) := by
  intro table htable row hrow hnewest
  have hkept : row ∈ pruneCoordinationDelegationRows rowHost table.rows := by
    refine (mem_prune table.nodup hrow).mpr fun hexcess => ?_
    rcases hnewest with hlive | hroom
    · rw [(mem_of_mem_excessTerminalRows hexcess).2] at hlive
      cases hlive
    · exact absurd hroom (not_lt.mpr (closedSince_of_mem_excess table.nodup hexcess))
  obtain ⟨left, hleft, hkey⟩ := @key_mem_appendRow rowHost table.rows record nowIso applied row hkept
  have hstep : (retentionStep host codec rowHost world (.append now nowIso applied record)).table
      = some (table.append rowHost record nowIso applied) := by
    rw [retentionStep, htable]
  refine ⟨left.payload, ?_⟩
  rw [FindsRecord, hstep]
  dsimp only [DelegationTable.append]
  exact ⟨left, hleft, hkey, rfl⟩

end Pruning

/-! ## Compacting -/

section Compacting

variable {host : LedgerHost} {codec : CheckpointCodec} {rowHost : RowHost} {strict : Bool}

theorem keyedById_foldLedgerTail {createdAt : Option Int} {start records : DelegationMap}
    {tail : List UInt8} (hstart : KeyedById start)
    (h : foldLedgerTail host strict createdAt start tail = .ok records) : KeyedById records := by
  unfold foldLedgerTail at h
  generalize tail.splitOn lineFeed = lines at h
  induction lines generalizing start with
  | nil =>
    cases h
    exact hstart
  | cons line rest ih =>
    rw [List.foldlM_cons] at h
    cases hline : foldLine host strict createdAt start line with
    | error uncertainty =>
      rw [hline] at h
      cases h
    | ok next =>
      rw [hline] at h
      refine ih ?_ h
      unfold foldLine at hline
      cases hread : host.readLine line with
      | blank =>
        simp only [hread] at hline
        cases hline
        exact hstart
      | malformedJson | invalidRecord =>
        simp only [hread] at hline
        split at hline
        · cases hline
        cases hline
        exact hstart
      | record record =>
        simp only [hread] at hline
        cases hline
        exact hstart.mergeRecord createdAt

variable {load : LedgerLoad}

theorem keyedById_map_ok {result : Except LoadUncertainty DelegationMap}
    {make : DelegationMap → LedgerLoad} (hmake : ∀ records, (make records).records = records)
    (hkeyed : ∀ records, result = .ok records → KeyedById records)
    (h : result.map make = .ok load) :
    KeyedById load.records := by
  cases result with
  | error uncertainty => cases h
  | ok records =>
    cases h
    rw [hmake]
    exact hkeyed records rfl

theorem keyedById_loadFoldedState {files : DelegationFiles}
    (h : loadFoldedState host codec files strict = .ok load) : KeyedById load.records := by
  unfold loadFoldedState at h
  split at h
  · unfold loadLegacyLedger at h
    split at h
    · cases h
      exact keyedById_nil
    · split at h
      · cases h
      exact keyedById_map_ok (fun _ => rfl)
        (fun _ hfold => keyedById_foldLedgerTail keyedById_nil hfold) h
  · split at h
    · cases h
    split at h
    · cases h
    split at h
    · cases h
    split at h
    · cases h
    exact keyedById_map_ok (fun _ => rfl)
      (fun _ hfold => keyedById_foldLedgerTail
        (keyedById_foldl_insert _ keyedById_nil) hfold) h

/-- The plan of a compaction over some records. -/
structure PlannedOver (host : LedgerHost) (codec : CheckpointCodec)
    (folded : List BackgroundDelegationRecord) (now : Int) (plan : CompactionPlan) : Prop where
  selects : Selects host.toCheckpointHost now folded
    { live := plan.checkpoint.records, keptClosed := plan.checkpoint.closed }
  bytes : codec.checkpointBytes plan.checkpoint.toCheckpointPayload ≤ maxCheckpointBytes
  checksum : plan.checkpoint.payloadChecksum
    = codec.payloadChecksum plan.checkpoint.toCheckpointPayload
  manifestSequence : plan.manifest.sequence = plan.checkpoint.sequence
  manifestChecksum : plan.manifest.checkpointChecksum = plan.checkpoint.payloadChecksum
  tailContent : plan.tailContent = []

variable {plan : CompactionPlan}

theorem plannedOver_of_ok {input : CompactionInput} {ledger : Option (List UInt8)} {now : Int}
    {force : Bool} (h : planCompaction host codec input ledger now force = .ok plan) :
    PlannedOver host codec input.folded now plan := by
  unfold planCompaction at h
  split at h
  · cases h
  rename_i bytes
  split at h
  · cases h
  cases hselect : selectCheckpoint host.toCheckpointHost now bytes.length input.folded with
  | error skip =>
    rw [hselect] at h
    cases h
  | ok selection =>
    rw [hselect] at h
    dsimp only at h
    split at h
    · cases h
    split at h
    · cases h
    rename_i hbytes
    cases h
    exact ⟨selects_of_selectCheckpoint hselect, not_lt.mp hbytes, rfl, rfl, rfl,
      List.drop_length⟩

theorem loadFoldedState_compacted {files : DelegationFiles} {now : Int}
    {folded : List BackgroundDelegationRecord} {plan : CompactionPlan}
    (hplan : PlannedOver host codec folded now plan) (strict : Bool) :
    ∃ load, loadFoldedState host codec (plan.writes.foldl LedgerWrite.apply files) strict = .ok load
      ∧ load.records = checkpointRecords plan.checkpoint.toCheckpointPayload := by
  have hchecked : checkCheckpoint codec plan.manifest plan.checkpoint = .ok () := by
    unfold checkCheckpoint
    rw [if_neg (not_lt.mpr hplan.bytes), if_neg fun h => h.1 hplan.manifestSequence.symm,
      if_neg fun h => h.2 hplan.manifestChecksum, if_neg fun h => h hplan.checksum.symm]
  have htail : postCutTail host plan.checkpoint.toCheckpointPayload [] = .ok [] := by
    rw [postCutTail, if_neg]
    · rfl
    · rintro ⟨hle, hpos, -⟩
      exact absurd hle (by rw [List.length_nil]; omega)
  have hfold := @foldLedgerTail_ledgerText host strict (some plan.checkpoint.createdAt)
    (checkpointRecords plan.checkpoint.toCheckpointPayload) [] (List.forall_mem_nil _)
  change foldLedgerTail host strict _ _ [] = _ at hfold
  have hfiles : plan.writes.foldl LedgerWrite.apply files
      = { ledger := some plan.tailContent, checkpoint := some plan.checkpoint
          manifest := some plan.manifest } := rfl
  rw [hfiles, hplan.tailContent]
  dsimp only [loadFoldedState]
  rw [hchecked]
  rw [htail]
  dsimp only
  rw [hfold]
  exact ⟨_, rfl, rfl⟩

variable {folded : List BackgroundDelegationRecord}

theorem PlannedOver.retains {now : Int} (hplan : PlannedOver host codec folded now plan)
    {record : BackgroundDelegationRecord} (hrecord : record ∈ folded)
    (hrecent : isCheckpointLiveRecord record = true ∨ isYoung now record = true) :
    ∃ left ∈ plan.checkpoint.records ++ plan.checkpoint.closed,
      left.correlationId = record.correlationId := by
  rcases hplan.selects.exists_left hrecord with ⟨left, hleft, hof⟩ | ⟨hclosed, hold⟩
  · exact ⟨left, hleft, hof.sameSkeleton.correlationId⟩
  · rcases hrecent with hlive | hyoung
    · rw [hclosed] at hlive
      cases hlive
    · rw [hold] at hyoung
      cases hyoung

theorem mem_of_coordinationRowsToDelegations {schema : BackgroundDelegationRecord → Bool}
    {rows : List DelegationRow}
    (h : coordinationRowsToDelegations rowHost schema rows = some folded) {row : DelegationRow}
    (hrow : row ∈ rows) : row.payload ∈ folded ∧ row.payload.correlationId = row.entityKey
      ∧ (listDelegationRows rows).length < maxCoordinationStateListRows := by
  unfold coordinationRowsToDelegations at h
  split at h
  · cases h
  rename_i hbound
  have hlt := not_le.mp hbound
  have hlisted := (mem_listDelegationRows_of_lt hlt).mpr hrow
  split at h
  · rename_i hall
    cases h
    have hbinds := List.all_eq_true.mp hall row hlisted
    simp only [rowIsBound, Bool.and_eq_true, decide_eq_true_eq] at hbinds
    refine ⟨?_, hbinds.1.1.2, hlt⟩
    rw [(sortBy_perm _ _).mem_iff]
    exact List.mem_map_of_mem hlisted
  · cases h

theorem keepsRecent_compact (host : LedgerHost) (codec : CheckpointCodec) (rowHost : RowHost)
    (world : RetentionWorld) (now : Int) (nowIso : JsString) (force : Bool) :
    KeepsRecent host codec rowHost world (.compact now nowIso force) := by
  intro _ id record hfinds hrecent
  dsimp only [retentionStep]
  cases hstore : planStoreCompaction host codec rowHost world now force with
  | error skip => exact ⟨record, hfinds⟩
  | ok plan =>
    unfold planStoreCompaction at hstore
    unfold FindsRecord at hfinds ⊢
    cases htable : world.table with
    | none =>
      rw [htable] at hstore hfinds
      obtain ⟨load, hload, hget⟩ := hfinds
      rw [compactFiles, hload] at hstore
      have hplan := plannedOver_of_ok hstore
      have hkeyed := keyedById_loadFoldedState hload
      have hid := hkeyed.id_of_get? hget
      have hmem : record ∈ load.records.values := hkeyed.mem_values.mpr (by rw [hid]; exact hget)
      obtain ⟨left, hleft, hsame⟩ := hplan.retains hmem hrecent
      obtain ⟨after, hafter, hrecords⟩ :=
        @loadFoldedState_compacted host codec world.files now _ plan hplan false
      have hnodup := hplan.selects.nodup_retained (by rw [hkeyed.ids_values]; exact hkeyed.nodup)
      refine ⟨left, after, hafter, ?_⟩
      rw [hrecords]
      exact (get?_checkpointRecords hnodup).mpr ⟨hleft, hsame.trans hid⟩
    | some table =>
      rw [htable] at hstore hfinds
      dsimp only at hstore hfinds
      obtain ⟨row, hrow, rfl, rfl⟩ := hfinds
      cases hread : coordinationRowsToDelegations rowHost host.schema table.rows with
      | none =>
        rw [hread] at hstore
        cases hstore
      | some folded =>
        rw [hread] at hstore
        have hplan := plannedOver_of_ok hstore
        obtain ⟨hmem, hkey, -⟩ := mem_of_coordinationRowsToDelegations hread hrow
        obtain ⟨left, hleft, hsame⟩ := hplan.retains hmem hrecent
        dsimp only [Option.map_some]
        unfold DelegationTable.synchronize synchronizeRows
        split
        · exact ⟨row.payload, row, hrow, rfl, rfl⟩
        split
        · exact ⟨row.payload, row, hrow, rfl, rfl⟩
        -- the row is kept under its key
        cases hafter : synchronizeRow (plan.checkpoint.records ++ plan.checkpoint.closed) nowIso
            row with
        | none =>
          rw [synchronizeRow, Option.map_eq_none_iff, List.find?_eq_none] at hafter
          exact absurd (decide_eq_true (hsame.trans hkey)) (hafter left hleft)
        | some after =>
          exact ⟨after.payload, after, List.mem_filterMap.mpr ⟨row, hrow, hafter⟩,
            entityKey_synchronizeRow hafter, rfl⟩

end Compacting

/-! ## Every run -/

/-- In every run, compactions keep what is live and what is recent, and prunings what is live
    and the newest of the terminal history. -/
theorem keepsHistory_of_run (host : LedgerHost) (codec : CheckpointCodec) (rowHost : RowHost)
    (start : RetentionWorld) (labels : List RetentionLabel) :
    Along (retentionStep host codec rowHost) (KeepsHistory host codec rowHost) start labels := by
  induction labels generalizing start with
  | nil => exact trivial
  | cons label rest ih =>
    refine ⟨?_, ih _⟩
    cases label with
    | append now nowIso applied record => exact keepsHistory_append host codec start now
    | compact now nowIso force => exact keepsRecent_compact host codec rowHost start now nowIso force

/-! ### A full terminal history -/

section Crowded

variable {rowHost : RowHost} {rows : List DelegationRow} {record : BackgroundDelegationRecord}
  {nowIso : JsString} {applied : Bool}

theorem mem_appendRow {row : DelegationRow}
    (h : row ∈ appendRow rowHost rows record nowIso applied) :
    row ∈ pruneCoordinationDelegationRows rowHost rows ∨ row.entityKey = record.correlationId := by
  dsimp only [appendRow] at h
  split at h
  · exact Or.inl h
  split at h
  · rcases List.mem_append.mp h with hold | hnew
    · exact Or.inl (List.mem_filter.mp hold).1
    · rw [List.mem_singleton.mp hnew]
      exact Or.inr rfl
  · exact Or.inl h

theorem not_keepsRecent_append (host : LedgerHost) (codec : CheckpointCodec)
    {world : RetentionWorld}
    {table : DelegationTable} (htable : world.table = some table) {gone : DelegationRow} {now : Int}
    (hgone : gone ∈ excessTerminalRows rowHost table.rows)
    (hyoung : isYoung now gone.payload = true)
    (hother : gone.entityKey ≠ record.correlationId) :
    ¬ KeepsRecent host codec rowHost world (.append now nowIso applied record) := by
  intro hkeeps
  have hrow := (mem_of_mem_excessTerminalRows hgone).1
  have hnotNone : world.table ≠ none := by
    rw [htable]
    exact Option.some_ne_none _
  have hfinds : FindsRecord host codec world gone.entityKey gone.payload := by
    rw [FindsRecord, htable]
    exact ⟨gone, hrow, rfl, rfl⟩
  obtain ⟨left, hleft⟩ := hkeeps (fun hnone => absurd hnone hnotNone) gone.entityKey gone.payload
    hfinds (Or.inr hyoung)
  have hstep : (retentionStep host codec rowHost world (.append now nowIso applied record)).table
      = some (table.append rowHost record nowIso applied) := by
    rw [retentionStep, htable]
  rw [FindsRecord, hstep] at hleft
  dsimp only [DelegationTable.append] at hleft
  obtain ⟨row, hmem, hkey, -⟩ := hleft
  rcases mem_appendRow hmem with hkept | hnew
  · have hsame : row = gone :=
      List.inj_on_of_nodup_map table.nodup (prune_sublist.subset hkept) hrow hkey
    rw [hsame] at hkept
    exact (mem_prune table.nodup hrow).mp hkept hgone
  · exact hother (hkey.symm.trans hnew)

/-- More closed rows than the terminal history holds leave some in excess. -/
theorem excessTerminalRows_ne_nil
    (hclosed : ∀ row ∈ rows, isCheckpointLiveRecord row.payload = false)
    (hmany : maxCoordinationTerminalRows < rows.length)
    (hfew : rows.length < maxCoordinationStateListRows) :
    excessTerminalRows rowHost rows ≠ [] := by
  have hlisted : (listDelegationRows rows).length = rows.length := by
    rw [listDelegationRows, List.length_take, List.length_insertionSort]
    omega
  have hall : (listDelegationRows rows).filter (fun row => !isCheckpointLiveRecord row.payload)
      = listDelegationRows rows := by
    rw [List.filter_eq_self]
    intro row hrow
    rw [hclosed row (mem_of_mem_listDelegationRows hrow)]
    rfl
  intro hnil
  have hlength := congrArg List.length hnil
  unfold excessTerminalRows at hlength
  rw [hall, List.length_take, (sortBy_perm _ _).length_eq, hlisted, List.length_nil] at hlength
  omega

end Crowded

/-- The row of a closed delegation. -/
def closedLaneRow (n : Nat) : DelegationRow :=
  rowOf
    { ledgerLane .completed 100 with correlationId := decimal n, subagentSessionId := decimal n }
    1 (js "1970-01-01T00:00:00.100Z")

theorem decimal_injective : Function.Injective decimal := by
  intro n m h
  rw [← decimalValue_decimal n, h, decimalValue_decimal]

/-- As many closed rows. -/
def closedLaneTable (count : Nat) : DelegationTable where
  rows := (List.range count).map closedLaneRow
  nodup := by
    rw [List.map_map]
    exact (List.nodup_range).map decimal_injective

theorem exists_of_mem_closedLaneTable {count : Nat} {row : DelegationRow}
    (hrow : row ∈ (closedLaneTable count).rows) : ∃ n, closedLaneRow n = row := by
  obtain ⟨n, -, hn⟩ := List.mem_map.mp hrow
  exact ⟨n, hn⟩

/-- The collation, on time stamps. -/
def stampCompare (a b : JsString) : Int := if a = b then 0 else if codeUnitLe a b then -1 else 1

theorem stampCompare_le_zero_iff {a b : JsString} :
    stampCompare a b ≤ 0 ↔ codeUnitLe a b = true := by
  unfold stampCompare
  by_cases heq : a = b
  · rw [if_pos heq, heq]
    exact iff_of_true (le_refl 0) ((codeUnitLe_total b b).elim id id)
  · rw [if_neg heq]
    cases codeUnitLe a b <;> decide

def stampHost : RowHost where
  localeCompare := stampCompare
  total a b := by
    rw [stampCompare_le_zero_iff, stampCompare_le_zero_iff]
    exact codeUnitLe_total a b
  trans a b c := by
    rw [stampCompare_le_zero_iff, stampCompare_le_zero_iff, stampCompare_le_zero_iff]
    exact codeUnitLe_trans

/-- One append too many forgets a delegation that was closed a millisecond ago. -/
theorem not_keepsRecent_crowded :
    ¬ ∀ (host : LedgerHost) (codec : CheckpointCodec) (rowHost : RowHost) (start : RetentionWorld)
      (labels : List RetentionLabel),
        Along (retentionStep host codec rowHost) (KeepsRecent host codec rowHost) start labels := by
  intro hall
  have hclosed : ∀ row ∈ (closedLaneTable 2049).rows,
      isCheckpointLiveRecord row.payload = false := by
    intro row hrow
    obtain ⟨n, rfl⟩ := exists_of_mem_closedLaneTable hrow
    exact show isCheckpointLiveRecord (closedLaneRow n).payload = false from rfl
  have hexcess : excessTerminalRows stampHost (closedLaneTable 2049).rows ≠ [] := by
    refine excessTerminalRows_ne_nil hclosed ?_ ?_
    · decide +kernel
    · decide +kernel
  obtain ⟨gone, hgone⟩ := List.exists_mem_of_ne_nil _ hexcess
  obtain ⟨n, rfl⟩ := exists_of_mem_closedLaneTable (mem_of_mem_excessTerminalRows hgone).1
  have hother : decimal n ≠ js "a" := by
    intro heq
    have hmem : (0x61 : UInt16) ∈ decimal n := by
      rw [heq]
      exact List.mem_singleton_self _
    have hdigit : isDigit 0x61 = true := isDigit_of_mem_decimal hmem
    cases hdigit
  exact @not_keepsRecent_append stampHost (ledgerLane .pending 100)
    (js "1970-01-01T00:00:00.101Z") true ledgerLaneHost ledgerLaneCodec
    { files := { ledger := none, checkpoint := none, manifest := none }
      table := some (closedLaneTable 2049) } _ rfl _ 101 hgone (by rfl) hother
    (hall ledgerLaneHost ledgerLaneCodec stampHost _ [_]).1

end OpencodeSwarm
