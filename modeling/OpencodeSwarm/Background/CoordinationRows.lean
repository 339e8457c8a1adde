/-
  OpencodeSwarm.Background.CoordinationRows

  The delegation rows of the project database, which are authoritative once it exists:
  how they are read, pruned before an append, and replaced by what a compaction keeps.

  A row is modelled with its payload parsed.  Calls hold the store lock, so a delete or
  an update of a row that was just listed finds its revision unchanged.
-/
import OpencodeSwarm.Background.DelegationLedger
import OpencodeSwarm.Lib.SqlRows

namespace OpencodeSwarm

open Js Sql

/-! ## Rows -/

/-- A row of the delegation namespace. -/
structure DelegationRow where
  entityKey : JsString
  revision : Nat
  generation : Nat
  status : BackgroundDelegationStatus
  payload : BackgroundDelegationRecord
  /-- An ISO time stamp. -/
  updatedAt : JsString
  deriving DecidableEq

/-- The rows, one for an entity key. -/
structure DelegationTable where
  rows : List DelegationRow
  nodup : (rows.map (·.entityKey)).Nodup

def maxCoordinationStateListRows : Nat := 25000
def maxCoordinationDelegationRows : Nat := maxCheckpointRecords * 2
def maxCoordinationTerminalRows : Nat := maxCheckpointRecords

/-- `listCoordinationStates`: by entity key, up to the limit. -/
def listDelegationRows (rows : List DelegationRow) : List DelegationRow :=
  (rows.insertionSort fun a b => utf8 a.entityKey ≤ utf8 b.entityKey).take
    maxCoordinationStateListRows

/-- `deleteCoordinationState` of a listed row. -/
def deleteRow (rows : List DelegationRow) (row : DelegationRow) : List DelegationRow :=
  rows.filter fun other => ! (other.entityKey = row.entityKey && other.revision = row.revision)

/-- The row of a record, at a revision. -/
def rowOf (record : BackgroundDelegationRecord) (revision : Nat) (nowIso : JsString) :
    DelegationRow where
  entityKey := record.correlationId
  revision := revision
  generation := max (record.generation.getD 1) 1
  status := record.status
  payload := record
  updatedAt := nowIso

/-- An applied `transitionCoordinationState` of a record. -/
def upsertRow (rows : List DelegationRow) (record : BackgroundDelegationRecord)
    (nowIso : JsString) : List DelegationRow :=
  let current := rows.find? fun row => row.entityKey = record.correlationId
  rows.filter (fun row => row.entityKey ≠ record.correlationId)
    ++ [rowOf record ((current.map (·.revision)).getD 0 + 1) nowIso]

/-! ## Reading -/

/-- The collation of the runtime, which orders the strings. -/
structure RowHost where
  localeCompare : JsString → JsString → Int
  total : ∀ a b, localeCompare a b ≤ 0 ∨ localeCompare b a ≤ 0
  trans : ∀ a b c, localeCompare a b ≤ 0 → localeCompare b c ≤ 0 → localeCompare a c ≤ 0

/-- The checks on one row. -/
def rowIsBound (schema : BackgroundDelegationRecord → Bool) (row : DelegationRow) : Bool :=
  schema row.payload && decide (row.payload.correlationId = row.entityKey)
    && decide (max (row.payload.generation.getD 1) 1 = row.generation)
    && decide (row.payload.status = row.status)

/-- `coordinationRowsToDelegations`; `none` when the rows cannot be read. -/
def coordinationRowsToDelegations (rowHost : RowHost) (schema : BackgroundDelegationRecord → Bool)
    (rows : List DelegationRow) : Option (List BackgroundDelegationRecord) :=
  if maxCoordinationStateListRows ≤ (listDelegationRows rows).length then none
  else if (listDelegationRows rows).all (rowIsBound schema) then
    some (sortBy
      (fun left right =>
        if left.createdAt = right.createdAt then
          rowHost.localeCompare left.correlationId right.correlationId
        else left.createdAt - right.createdAt)
      ((listDelegationRows rows).map (·.payload)))
  else none

/-! ## Pruning -/

/-- The oldest rows that are not live, beyond the bounded terminal history. -/
def excessTerminalRows (rowHost : RowHost) (rows : List DelegationRow) : List DelegationRow :=
  let terminals := sortBy (fun left right => rowHost.localeCompare left.updatedAt right.updatedAt)
    ((listDelegationRows rows).filter fun row => !isCheckpointLiveRecord row.payload)
  terminals.take (terminals.length - maxCoordinationTerminalRows)

/-- The other closed rows that are not older than a row. -/
def closedSince (rowHost : RowHost) (rows : List DelegationRow) (row : DelegationRow) :
    List DelegationRow :=
  rows.filter fun other => other ≠ row ∧ isCheckpointLiveRecord other.payload = false
    ∧ rowHost.localeCompare row.updatedAt other.updatedAt ≤ 0

/-- The deletes of `pruneCoordinationDelegationRows`. -/
def pruneCoordinationDelegationRows (rowHost : RowHost) (rows : List DelegationRow) :
    List DelegationRow :=
  (excessTerminalRows rowHost rows).foldl deleteRow rows

/-- `appendRecord` over the rows: what is deleted stays deleted when the row bound or the
    transition then refuses the record. -/
def appendRow (rowHost : RowHost) (rows : List DelegationRow) (record : BackgroundDelegationRecord)
    (nowIso : JsString) (applied : Bool) : List DelegationRow :=
  let remaining := pruneCoordinationDelegationRows rowHost rows
  if maxCoordinationDelegationRows ≤ (listDelegationRows remaining).length then remaining
  else if applied then upsertRow remaining record nowIso
  else remaining

/-! ## Synchronizing -/

/-- What synchronization makes of one row. -/
def synchronizeRow (retained : List BackgroundDelegationRecord) (nowIso : JsString)
    (row : DelegationRow) : Option DelegationRow :=
  (retained.find? fun record => record.correlationId = row.entityKey).map fun record =>
    if row.payload = record then row
    else { rowOf record (row.revision + 1) nowIso with entityKey := row.entityKey }

/-- `synchronizeCoordinationAfterCompaction`; what throws changes nothing. -/
def synchronizeRows (schema : BackgroundDelegationRecord → Bool)
    (retained : List BackgroundDelegationRecord) (nowIso : JsString) (rows : List DelegationRow) :
    List DelegationRow :=
  if maxCoordinationStateListRows ≤ (listDelegationRows rows).length then rows
  else if rows.any fun row =>
      (retained.any fun record => record.correlationId = row.entityKey) && !schema row.payload then
    rows
  else rows.filterMap (synchronizeRow retained nowIso)

/-! ## Tables -/

section Tables

variable {rowHost : RowHost} {rows : List DelegationRow} {row : DelegationRow}

theorem mem_of_mem_listDelegationRows (h : row ∈ listDelegationRows rows) : row ∈ rows :=
  (List.perm_insertionSort _ rows).mem_iff.mp (List.mem_of_mem_take h)

theorem mem_listDelegationRows_of_lt
    (h : (listDelegationRows rows).length < maxCoordinationStateListRows) :
    row ∈ listDelegationRows rows ↔ row ∈ rows := by
  refine ⟨mem_of_mem_listDelegationRows, fun hmem => ?_⟩
  unfold listDelegationRows at h ⊢
  rw [List.length_take, List.length_insertionSort] at h
  rw [List.take_of_length_le (by rw [List.length_insertionSort]; omega)]
  exact (List.perm_insertionSort _ rows).mem_iff.mpr hmem

theorem mem_of_mem_excessTerminalRows (h : row ∈ excessTerminalRows rowHost rows) :
    row ∈ rows ∧ isCheckpointLiveRecord row.payload = false := by
  have hsorted := List.mem_of_mem_take h
  rw [(sortBy_perm _ _).mem_iff] at hsorted
  obtain ⟨hlisted, hclosed⟩ := List.mem_filter.mp hsorted
  exact ⟨mem_of_mem_listDelegationRows hlisted, by simpa using hclosed⟩

/-- A row in excess has the whole terminal history behind it. -/
theorem closedSince_of_mem_excess (hnodup : (rows.map (·.entityKey)).Nodup)
    (h : row ∈ excessTerminalRows rowHost rows) :
    maxCoordinationTerminalRows ≤ (closedSince rowHost rows row).length := by
  obtain ⟨terminals, hterminals⟩ : ∃ terminals, sortBy
      (fun left right : DelegationRow => rowHost.localeCompare left.updatedAt right.updatedAt)
      ((listDelegationRows rows).filter fun row => !isCheckpointLiveRecord row.payload)
        = terminals := ⟨_, rfl⟩
  have hperm := hterminals ▸ sortBy_perm
    (fun left right : DelegationRow => rowHost.localeCompare left.updatedAt right.updatedAt)
    ((listDelegationRows rows).filter fun row => !isCheckpointLiveRecord row.payload)
  have hsorted : terminals.Pairwise fun left right =>
      rowHost.localeCompare left.updatedAt right.updatedAt ≤ 0 :=
    hterminals ▸ pairwise_sortBy
      (fun a b : DelegationRow => rowHost.total a.updatedAt b.updatedAt)
      (fun a b c => rowHost.trans a.updatedAt b.updatedAt c.updatedAt) _
  have hdistinct : terminals.Nodup := by
    refine hperm.nodup_iff.mpr (List.Nodup.filter _ (List.Nodup.sublist (List.take_sublist _ _) ?_))
    exact (List.perm_insertionSort _ rows).nodup_iff.mpr (hnodup.of_map _)
  dsimp only [excessTerminalRows] at h
  rw [hterminals] at h
  -- the rows behind the cut come after it in the sorted list
  obtain ⟨k, hk⟩ : ∃ k, terminals.length - maxCoordinationTerminalRows = k := ⟨_, rfl⟩
  rw [hk] at h
  rw [← List.take_append_drop k terminals] at hsorted hdistinct
  have hafter := (List.pairwise_append.mp hsorted).2.2 row h
  obtain ⟨-, hkept, hapart⟩ := List.nodup_append.mp hdistinct
  have hsub : terminals.drop k ⊆ closedSince rowHost rows row := by
    intro other hother
    obtain ⟨hlisted, hclosed⟩ := List.mem_filter.mp (hperm.mem_iff.mp (List.mem_of_mem_drop hother))
    refine List.mem_filter.mpr ⟨mem_of_mem_listDelegationRows hlisted, decide_eq_true ?_⟩
    exact ⟨fun heq => hapart row h other hother heq.symm, by simpa using hclosed,
      hafter other hother⟩
  have hlength := (List.subperm_of_subset hkept hsub).length_le
  have hpos := List.length_pos_of_mem h
  rw [List.length_drop] at hlength
  rw [List.length_take] at hpos
  omega

theorem mem_foldl_deleteRow (gone : List DelegationRow) (hnodup : (rows.map (·.entityKey)).Nodup)
    (hgone : ∀ other ∈ gone, other ∈ rows) (hrow : row ∈ rows) :
    row ∈ gone.foldl deleteRow rows ↔ row ∉ gone := by
  have hfilter : ∀ (others : List DelegationRow) (kept : List DelegationRow),
      row ∈ others.foldl deleteRow kept
        ↔ row ∈ kept ∧ ∀ other ∈ others,
          ¬ (row.entityKey = other.entityKey ∧ row.revision = other.revision) := by
    intro others
    induction others with
    | nil =>
      intro kept
      exact ⟨fun h => ⟨h, fun _ hmem => (nomatch hmem)⟩, fun h => h.1⟩
    | cons first rest ih =>
      intro kept
      rw [List.foldl_cons, ih, deleteRow, List.mem_filter, and_assoc, List.forall_mem_cons]
      refine and_congr_right fun _ => and_congr_left fun _ => ?_
      simp [imp_iff_not_or]
  rw [hfilter]
  constructor
  · exact fun h hmem => h.2 row hmem ⟨rfl, rfl⟩
  · refine fun hnot => ⟨hrow, fun other hother hsame => hnot ?_⟩
    rw [List.inj_on_of_nodup_map hnodup hrow (hgone other hother) hsame.1]
    exact hother

theorem foldl_deleteRow_sublist (gone rows : List DelegationRow) :
    (gone.foldl deleteRow rows).Sublist rows := by
  induction gone generalizing rows with
  | nil => exact List.Sublist.refl _
  | cons first rest ih => exact (ih (deleteRow rows first)).trans List.filter_sublist

theorem prune_sublist : (pruneCoordinationDelegationRows rowHost rows).Sublist rows :=
  foldl_deleteRow_sublist _ _

theorem mem_prune (hnodup : (rows.map (·.entityKey)).Nodup) (hrow : row ∈ rows) :
    row ∈ pruneCoordinationDelegationRows rowHost rows ↔ row ∉ excessTerminalRows rowHost rows :=
  mem_foldl_deleteRow _ hnodup (fun _ h => (mem_of_mem_excessTerminalRows h).1) hrow

variable {nowIso : JsString} {record : BackgroundDelegationRecord}

theorem nodup_upsertRow (hnodup : (rows.map (·.entityKey)).Nodup) :
    ((upsertRow rows record nowIso).map (·.entityKey)).Nodup := by
  rw [upsertRow, List.map_append, List.map_singleton, List.nodup_append']
  refine ⟨hnodup.sublist (List.filter_sublist.map _), List.nodup_singleton _, ?_⟩
  intro key hkey hnew
  obtain ⟨old, hold, rfl⟩ := List.mem_map.mp hkey
  have hne := of_decide_eq_true (List.mem_filter.mp hold).2
  exact hne (List.mem_singleton.mp hnew)

theorem nodup_appendRow {applied : Bool} (hnodup : (rows.map (·.entityKey)).Nodup) :
    ((appendRow rowHost rows record nowIso applied).map (·.entityKey)).Nodup := by
  have hpruned := hnodup.sublist ((@prune_sublist rowHost rows).map (·.entityKey))
  dsimp only [appendRow]
  split
  · exact hpruned
  split
  · exact nodup_upsertRow hpruned
  · exact hpruned

variable {retained : List BackgroundDelegationRecord}

theorem entityKey_synchronizeRow {after : DelegationRow}
    (h : synchronizeRow retained nowIso row = some after) : after.entityKey = row.entityKey := by
  obtain ⟨record, -, rfl⟩ := Option.map_eq_some_iff.mp h
  split
  · rfl
  · rfl

theorem nodup_synchronizeRows {schema : BackgroundDelegationRecord → Bool}
    (hnodup : (rows.map (·.entityKey)).Nodup) :
    ((synchronizeRows schema retained nowIso rows).map (·.entityKey)).Nodup := by
  have hkept : ((rows.filterMap (synchronizeRow retained nowIso)).map (·.entityKey)).Sublist
      (rows.map (·.entityKey)) := by
    clear hnodup
    induction rows with
    | nil => exact List.Sublist.refl _
    | cons first rest ih =>
      cases hfirst : synchronizeRow retained nowIso first with
      | none =>
        rw [List.filterMap_cons_none hfirst, List.map_cons]
        exact ih.cons _
      | some after =>
        rw [List.filterMap_cons_some hfirst, List.map_cons, List.map_cons,
          entityKey_synchronizeRow hfirst]
        exact ih.cons_cons _
  unfold synchronizeRows
  split
  · exact hnodup
  split
  · exact hnodup
  · exact hnodup.sublist hkept

end Tables

/-- The rows behind an append. -/
def DelegationTable.append (rowHost : RowHost) (table : DelegationTable)
    (record : BackgroundDelegationRecord) (nowIso : JsString) (applied : Bool) :
    DelegationTable where
  rows := appendRow rowHost table.rows record nowIso applied
  nodup := nodup_appendRow table.nodup

/-- The rows behind a synchronization. -/
def DelegationTable.synchronize (schema : BackgroundDelegationRecord → Bool)
    (retained : List BackgroundDelegationRecord) (nowIso : JsString) (table : DelegationTable) :
    DelegationTable where
  rows := synchronizeRows schema retained nowIso table.rows
  nodup := nodup_synchronizeRows table.nodup

end OpencodeSwarm
