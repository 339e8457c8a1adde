/-
  OpencodeSwarm.Background.DelegationLedger

  The files of the delegation store without its database: the ledger, the checkpoint
  and the manifest that publishes it.  `loadFoldedState` reads them in one of three
  ways: the whole ledger, a checkpoint and what the ledger holds behind a verified cut,
  or a checkpoint and the whole rolled ledger under an update-time merge.

  A compaction renames three files into place, one after the other.  One project root
  is modelled, so the binding of the files to their root is left out.
-/
import OpencodeSwarm.Background.CheckpointRetention
import OpencodeSwarm.Lib.OrderedMap
import OpencodeSwarm.Lib.TextLines

namespace OpencodeSwarm

open Js TextLines

/-! ## Lines -/

/-- The byte that ends a line. -/
def lineFeed : UInt8 := 0x0A

/-- What a line is read as: `line.trim()`, `JSON.parse` and `RecordSchema.safeParse`. -/
inductive LineRead where
  | blank
  | malformedJson
  | invalidRecord
  | record (record : BackgroundDelegationRecord)

/-- The surroundings of the files: how a record is written to a line and read from it,
    and the digests.  A schema-valid record is read back as it was written. -/
structure LedgerHost extends CheckpointHost where
  encode : BackgroundDelegationRecord → List UInt8
  readLine : List UInt8 → LineRead
  sha256 : List UInt8 → JsString
  lineFeed_notMem : ∀ record, lineFeed ∉ encode record
  readLine_nil : readLine [] = .blank
  readLine_encode : ∀ record, schema record = true → readLine (encode record) = .record record

/-- The lines of some records. -/
def ledgerText (host : LedgerHost) (records : List BackgroundDelegationRecord) : List UInt8 :=
  unlines lineFeed (records.map host.encode)

/-! ## Files -/

/-- What the checksum of a checkpoint is taken of. -/
structure CheckpointPayload where
  sequence : Nat
  createdAt : Int
  cutLedgerBytes : Nat
  cutLedgerDigest : JsString
  records : List BackgroundDelegationRecord
  closed : List BackgroundDelegationRecord

structure BackgroundDelegationCheckpoint extends CheckpointPayload where
  payloadChecksum : JsString

structure BackgroundDelegationManifest where
  sequence : Nat
  checkpointChecksum : JsString

structure DelegationFiles where
  ledger : Option (List UInt8)
  checkpoint : Option BackgroundDelegationCheckpoint
  manifest : Option BackgroundDelegationManifest

/-- The serialized forms of a checkpoint. -/
structure CheckpointCodec where
  /-- `checkpointPayloadChecksum` -/
  payloadChecksum : CheckpointPayload → JsString
  /-- `Buffer.byteLength(checkpointJson)` -/
  checkpointBytes : CheckpointPayload → Nat

/-! ## Folding -/

abbrev DelegationMap := OrderedMap JsString BackgroundDelegationRecord

def insertRecord (records : DelegationMap) (record : BackgroundDelegationRecord) : DelegationMap :=
  records.set record.correlationId record

/-- A tail line replaces an entry only when it is newer; without a checkpoint it always
    does. -/
def mergeRecord (createdAt : Option Int) (records : DelegationMap)
    (record : BackgroundDelegationRecord) : DelegationMap :=
  match createdAt, records.get? record.correlationId with
  | some createdAt, some existing =>
    if ¬ existing.updatedAt < record.updatedAt
        ∧ ¬ (record.updatedAt = existing.updatedAt ∧ createdAt < record.updatedAt) then records
    else insertRecord records record
  | _, _ => insertRecord records record

/-- Why the store is uncertain. -/
inductive LoadUncertainty where
  | malformedJson
  | invalidRecord
  /-- The checkpoint is invalid or missing while a manifest is published. -/
  | checkpointInvalid
  | sequenceMismatch
  | manifestChecksum
  | payloadChecksum
  | ledgerUnreadable
  | recoveryBound
  deriving DecidableEq

def foldLine (host : LedgerHost) (strict : Bool) (createdAt : Option Int) (records : DelegationMap)
    (line : List UInt8) : Except LoadUncertainty DelegationMap :=
  match host.readLine line with
  | .blank => .ok records
  | .malformedJson => if strict then .error .malformedJson else .ok records
  | .invalidRecord => if strict then .error .invalidRecord else .ok records
  | .record record => .ok (mergeRecord createdAt records record)

def foldLedgerTail (host : LedgerHost) (strict : Bool) (createdAt : Option Int)
    (records : DelegationMap) (tail : List UInt8) : Except LoadUncertainty DelegationMap :=
  (tail.splitOn lineFeed).foldlM (foldLine host strict createdAt) records

/-- The last bytes of the ledger, from the first whole line on. -/
def readBoundedRecentLedgerWindow (ledger : List UInt8) : List UInt8 :=
  if ledger.length ≤ maxRecoveryLedgerBytes then ledger
  else
    let window := ledger.drop (ledger.length - maxRecoveryLedgerBytes)
    match window.idxOf? lineFeed with
    | none => []
    | some firstNewline => window.drop (firstNewline + 1)

/-! ## Loading -/

/-- `LedgerLoad` with `status: 'ok'`. -/
structure LedgerLoad where
  records : DelegationMap
  manifest : Option BackgroundDelegationManifest
  checkpoint : Option BackgroundDelegationCheckpoint

def loadLegacyLedger (host : LedgerHost) (files : DelegationFiles) (strict : Bool) :
    Except LoadUncertainty LedgerLoad :=
  match files.ledger with
  | none => .ok { records := [], manifest := none, checkpoint := none }
  | some ledger =>
    if strict ∧ maxRecoveryLedgerBytes < ledger.length then .error .recoveryBound
    else (foldLedgerTail host strict none [] ledger).map fun records =>
      { records, manifest := none, checkpoint := none }

/-- The checkpoint's own entries. -/
def checkpointRecords (checkpoint : CheckpointPayload) : DelegationMap :=
  (checkpoint.records ++ checkpoint.closed).foldl insertRecord []

/-- The part of the ledger behind the cut. -/
def postCutTail (host : LedgerHost) (checkpoint : CheckpointPayload) (ledger : List UInt8) :
    Except LoadUncertainty (List UInt8) :=
  if checkpoint.cutLedgerBytes ≤ ledger.length ∧ 0 < checkpoint.cutLedgerBytes
      ∧ host.sha256 (ledger.take checkpoint.cutLedgerBytes) = checkpoint.cutLedgerDigest then
    if maxRecoveryLedgerBytes < ledger.length - checkpoint.cutLedgerBytes then
      .error .recoveryBound
    else .ok (ledger.drop checkpoint.cutLedgerBytes)
  else .ok (readBoundedRecentLedgerWindow ledger)

/-- The checks on a checkpoint under a published manifest. -/
def checkCheckpoint (codec : CheckpointCodec) (manifest : BackgroundDelegationManifest)
    (checkpoint : BackgroundDelegationCheckpoint) : Except LoadUncertainty Unit :=
  if maxCheckpointBytes < codec.checkpointBytes checkpoint.toCheckpointPayload then
    .error .checkpointInvalid
  else if checkpoint.sequence ≠ manifest.sequence ∧ checkpoint.sequence ≠ manifest.sequence + 1 then
    .error .sequenceMismatch
  else if checkpoint.sequence = manifest.sequence
      ∧ manifest.checkpointChecksum ≠ checkpoint.payloadChecksum then .error .manifestChecksum
  else if codec.payloadChecksum checkpoint.toCheckpointPayload ≠ checkpoint.payloadChecksum then
    .error .payloadChecksum
  else .ok ()

/-- The checkpoint and the tail behind its cut, or all lines without a manifest. -/
def loadFoldedState (host : LedgerHost) (codec : CheckpointCodec) (files : DelegationFiles)
    (strict : Bool) : Except LoadUncertainty LedgerLoad :=
  match files.manifest with
  | none => loadLegacyLedger host files strict
  | some manifest =>
    match files.checkpoint with
    | none => .error .checkpointInvalid
    | some checkpoint =>
      match checkCheckpoint codec manifest checkpoint with
      | .error uncertainty => .error uncertainty
      | .ok () =>
        match files.ledger with
        | none => .error .ledgerUnreadable
        | some ledger =>
          match postCutTail host checkpoint.toCheckpointPayload ledger with
          | .error uncertainty => .error uncertainty
          | .ok tail =>
            (foldLedgerTail host strict (some checkpoint.createdAt)
              (checkpointRecords checkpoint.toCheckpointPayload) tail).map fun records =>
                { records, manifest := some manifest, checkpoint := some checkpoint }

/-! ## Compacting -/

/-- The store as a compaction reads it. -/
structure CompactionInput where
  folded : List BackgroundDelegationRecord
  manifest : Option BackgroundDelegationManifest
  checkpoint : Option BackgroundDelegationCheckpoint

structure CompactionPlan where
  checkpoint : BackgroundDelegationCheckpoint
  manifest : BackgroundDelegationManifest
  tailContent : List UInt8

/-- `CheckpointSchema.safeParse` of a selection. -/
def normalizesCheckpoint (host : CheckpointHost) (selection : CheckpointSelection) : Bool :=
  selection.live.all host.schema && decide (selection.live.length ≤ maxCheckpointRecords)
    && selection.keptClosed.all host.schema

/-- `compactDelegationsLocked`, from what it has loaded to what it writes. -/
def planCompaction (host : LedgerHost) (codec : CheckpointCodec) (input : CompactionInput)
    (ledger : Option (List UInt8)) (now : Int) (force : Bool) :
    Except CompactionSkip CompactionPlan :=
  match ledger with
  | none => .error .noLedger
  | some ledger =>
    if ledger.length ≤ delegationCompactionHighWaterBytes ∧ force = false then
      .error .belowHighWater
    else
      match selectCheckpoint host.toCheckpointHost now ledger.length input.folded with
      | .error skip => .error skip
      | .ok selection =>
        let payload : CheckpointPayload :=
          { sequence := max ((input.manifest.map (·.sequence)).getD 0)
              ((input.checkpoint.map (·.sequence)).getD 0) + 1
            createdAt := now
            cutLedgerBytes := ledger.length
            cutLedgerDigest := host.sha256 ledger
            records := selection.live
            closed := selection.keptClosed }
        if !normalizesCheckpoint host.toCheckpointHost selection then .error .normalization
        else if maxCheckpointBytes < codec.checkpointBytes payload then .error .byteBudget
        else .ok
          { checkpoint :=
              { payload with payloadChecksum := codec.payloadChecksum payload }
            manifest :=
              { sequence := payload.sequence
                checkpointChecksum := codec.payloadChecksum payload }
            tailContent := ledger.drop payload.cutLedgerBytes }

/-- One rename into place. -/
inductive LedgerWrite where
  | checkpoint (checkpoint : BackgroundDelegationCheckpoint)
  | manifest (manifest : BackgroundDelegationManifest)
  | ledger (content : List UInt8)

def LedgerWrite.apply (files : DelegationFiles) : LedgerWrite → DelegationFiles
  | .checkpoint next => { files with checkpoint := some next }
  | .manifest next => { files with manifest := some next }
  | .ledger content => { files with ledger := some content }

/-- The publication order: checkpoint, manifest, rolled tail. -/
def CompactionPlan.writes (plan : CompactionPlan) : List LedgerWrite :=
  [.checkpoint plan.checkpoint, .manifest plan.manifest, .ledger plan.tailContent]

/-- A compaction of the files. -/
def compactFiles (host : LedgerHost) (codec : CheckpointCodec) (files : DelegationFiles) (now : Int)
    (force : Bool) : Except CompactionSkip CompactionPlan :=
  match loadFoldedState host codec files false with
  | .error _ => .error .uncertain
  | .ok load =>
    planCompaction host codec
      { folded := load.records.values, manifest := load.manifest, checkpoint := load.checkpoint }
      files.ledger now force

/-- `fs.appendFileSync` of a record. -/
def appendLedgerRecord (host : LedgerHost) (files : DelegationFiles)
    (record : BackgroundDelegationRecord) : DelegationFiles :=
  { files with ledger := some (files.ledger.getD [] ++ host.encode record ++ [lineFeed]) }

/-! ## Maps of records -/

section Maps

variable {records : DelegationMap} {record : BackgroundDelegationRecord}

/-- Distinct keys, each the id of its record. -/
structure KeyedById (records : DelegationMap) : Prop where
  key : ∀ binding ∈ records, binding.1 = binding.2.correlationId
  nodup : records.keys.Nodup

theorem keyedById_nil : KeyedById [] := ⟨fun _ h => (nomatch h), List.nodup_nil⟩

theorem KeyedById.insertRecord (h : KeyedById records) :
    KeyedById (insertRecord records record) where
  key := by
    intro binding hbinding
    rcases OrderedMap.mem_set hbinding with rfl | hold
    · rfl
    · exact h.key binding hold
  nodup := OrderedMap.nodup_keys_set h.nodup

theorem KeyedById.mergeRecord (h : KeyedById records) (createdAt : Option Int) :
    KeyedById (mergeRecord createdAt records record) := by
  unfold OpencodeSwarm.mergeRecord
  split
  · split
    · exact h
    · exact h.insertRecord
  · exact h.insertRecord

theorem KeyedById.ids_values (h : KeyedById records) :
    records.values.map (·.correlationId) = records.keys := by
  unfold OrderedMap.values OrderedMap.keys
  rw [List.map_map]
  exact List.map_congr_left fun binding hbinding => (h.key binding hbinding).symm

theorem KeyedById.mem_values (h : KeyedById records) :
    record ∈ records.values ↔ records.get? record.correlationId = some record := by
  constructor
  · intro hmem
    obtain ⟨binding, hbinding, rfl⟩ := List.mem_map.mp hmem
    refine OrderedMap.get?_of_mem h.nodup ?_
    rw [← h.key binding hbinding]
    exact hbinding
  · exact fun hget => List.mem_map_of_mem (OrderedMap.mem_of_get? hget)

variable {id : JsString}

theorem KeyedById.id_of_get? (h : KeyedById records) (hget : records.get? id = some record) :
    record.correlationId = id :=
  (h.key _ (OrderedMap.mem_of_get? hget)).symm

theorem get?_insertRecord (id : JsString) :
    (insertRecord records record).get? id
      = if id = record.correlationId then some record else records.get? id :=
  OrderedMap.get?_set records record.correlationId id record

theorem keyedById_foldl_insert (entries : List BackgroundDelegationRecord) (h : KeyedById records) :
    KeyedById (entries.foldl insertRecord records) := by
  induction entries generalizing records with
  | nil => exact h
  | cons entry rest ih => exact ih h.insertRecord

theorem get?_foldl_insert {entries : List BackgroundDelegationRecord}
    (hnodup : (entries.map (·.correlationId)).Nodup) (id : JsString) :
    (entries.foldl insertRecord records).get? id
      = ((entries.find? fun entry => entry.correlationId = id).or (records.get? id)) := by
  induction entries generalizing records with
  | nil => rfl
  | cons entry rest ih =>
    obtain ⟨hfirst, hrest⟩ := List.nodup_cons.mp hnodup
    rw [List.foldl_cons, ih hrest, get?_insertRecord]
    by_cases hid : id = entry.correlationId
    · subst hid
      have hnone : rest.find? (fun other => other.correlationId = entry.correlationId) = none := by
        rw [List.find?_eq_none]
        intro other hother hsame
        have hid : other.correlationId = entry.correlationId := of_decide_eq_true hsame
        exact hfirst (List.mem_map.mpr ⟨other, hother, hid⟩)
      rw [hnone, if_pos rfl, List.find?_cons_of_pos (by exact decide_eq_true rfl)]
      rfl
    · rw [if_neg hid, List.find?_cons_of_neg (by simpa using fun h => hid h.symm)]

theorem get?_checkpointRecords {payload : CheckpointPayload}
    (hnodup : ((payload.records ++ payload.closed).map (·.correlationId)).Nodup) :
    (checkpointRecords payload).get? id = some record
      ↔ record ∈ payload.records ++ payload.closed ∧ record.correlationId = id := by
  rw [checkpointRecords, get?_foldl_insert hnodup]
  have hempty : OrderedMap.get? ([] : DelegationMap) id = none := rfl
  rw [hempty, Option.or_none]
  constructor
  · intro hfind
    have hid : decide (record.correlationId = id) = true :=
      @List.find?_some BackgroundDelegationRecord
        (fun entry => decide (entry.correlationId = id)) _ _ hfind
    exact ⟨List.mem_of_find?_eq_some hfind, of_decide_eq_true hid⟩
  · rintro ⟨hmem, rfl⟩
    cases hfind : (payload.records ++ payload.closed).find?
        (fun entry => entry.correlationId = record.correlationId) with
    | none => exact absurd (decide_eq_true rfl) (List.find?_eq_none.mp hfind record hmem)
    | some other =>
      have hid : decide (other.correlationId = record.correlationId) = true :=
        @List.find?_some BackgroundDelegationRecord
          (fun entry => decide (entry.correlationId = record.correlationId)) _ _ hfind
      rw [List.inj_on_of_nodup_map hnodup (List.mem_of_find?_eq_some hfind) hmem (of_decide_eq_true hid)]

end Maps

/-! ## Lines of valid records -/

section Lines

variable {host : LedgerHost} {strict : Bool}

theorem ledgerText_append (records later : List BackgroundDelegationRecord) :
    ledgerText host (records ++ later) = ledgerText host records ++ ledgerText host later := by
  unfold ledgerText
  rw [List.map_append, unlines_append]

theorem ledgerText_concat (records : List BackgroundDelegationRecord)
    (record : BackgroundDelegationRecord) :
    ledgerText host (records ++ [record])
      = ledgerText host records ++ host.encode record ++ [lineFeed] := by
  rw [ledgerText_append, List.append_assoc]
  unfold ledgerText unlines
  rw [List.map_singleton, List.flatMap_singleton]

theorem splitOn_ledgerText (records : List BackgroundDelegationRecord) :
    (ledgerText host records).splitOn lineFeed = records.map host.encode ++ [[]] := by
  have hlines : ∀ line ∈ records.map host.encode, lineFeed ∉ line := by
    intro line hline
    obtain ⟨record, -, rfl⟩ := List.mem_map.mp hline
    exact host.lineFeed_notMem record
  have hsplit := splitOn_unlines_append hlines (List.not_mem_nil (a := lineFeed))
  rwa [List.append_nil] at hsplit

/-- Lines of valid records are folded in their order, strictly or not. -/
theorem foldLedgerTail_ledgerText (createdAt : Option Int) (start : DelegationMap)
    {records : List BackgroundDelegationRecord}
    (hvalid : ∀ record ∈ records, host.schema record = true) :
    foldLedgerTail host strict createdAt start (ledgerText host records)
      = .ok (records.foldl (mergeRecord createdAt) start) := by
  rw [foldLedgerTail, splitOn_ledgerText]
  induction records generalizing start with
  | nil =>
    have hblank : foldLine host strict createdAt start [] = .ok start := by
      rw [foldLine, host.readLine_nil]
    rw [List.map_nil, List.nil_append, List.foldlM_cons, hblank]
    rfl
  | cons record rest ih =>
    have hline : foldLine host strict createdAt start (host.encode record)
        = .ok (mergeRecord createdAt start record) := by
      rw [foldLine, host.readLine_encode record (hvalid record List.mem_cons_self)]
    rw [List.map_cons, List.cons_append, List.foldlM_cons, hline, List.foldl_cons]
    exact ih _ fun other hother => hvalid other (List.mem_cons_of_mem _ hother)

theorem encode_inj {record other : BackgroundDelegationRecord} (h : host.schema record = true)
    (h' : host.schema other = true) (heq : host.encode record = host.encode other) :
    record = other := by
  have hread := host.readLine_encode record h
  rw [heq, host.readLine_encode other h'] at hread
  cases hread
  rfl

theorem ledgerText_eq_nil {records : List BackgroundDelegationRecord}
    (h : ledgerText host records = []) : records = [] := by
  cases records with
  | nil => rfl
  | cons record rest =>
    have hlength := congrArg List.length h
    simp [ledgerText, unlines] at hlength

end Lines

end OpencodeSwarm
