/-
  OpencodeSwarm.Background.LedgerHistory

  Runs of appends and compactions over the files of the delegation store, and what
  the files hold in any of them.  A ghost trace keeps the last snapshot of every id
  and the times of the compactions since.

  Behind a published checkpoint the ledger is one of two things: the lines of the cut
  and of what came later, or the latter alone.  Either way the later lines are what
  recovery folds over the checkpoint.
-/
import OpencodeSwarm.Background.DelegationLedger
import OpencodeSwarm.Lib.Transition

namespace OpencodeSwarm

open Js TextLines Transition

/-! ## Runs -/

/-- The last snapshot that was appended for an id, and when compactions wrote since. -/
structure TracedSnapshot where
  snapshot : BackgroundDelegationRecord
  compactions : List Int

structure LedgerWorld where
  files : DelegationFiles
  clock : Int
  traced : JsString → Option TracedSnapshot

/-- An append of a record, whose `updatedAt` is the clock reading, and a compaction that
    renames this many of its files before it stops. -/
inductive LedgerLabel where
  | append (record : BackgroundDelegationRecord)
  | compact (now : Int) (force : Bool) (renames : Nat)

def LedgerLabel.time : LedgerLabel → Int
  | .append record => record.updatedAt
  | .compact now _ _ => now

/-- No file, and nothing appended. -/
def LedgerWorld.start (clock : Int) : LedgerWorld :=
  { files := { ledger := none, checkpoint := none, manifest := none }, clock
    traced := fun _ => none }

/-- A compaction at this time, in the trace. -/
def stampTrace (now : Int) (traced : JsString → Option TracedSnapshot) (id : JsString) :
    Option TracedSnapshot :=
  (traced id).map fun last => { last with compactions := now :: last.compactions }

/-- An append, or a compaction that stops behind some of its renames. -/
def ledgerStep (host : LedgerHost) (codec : CheckpointCodec) (world : LedgerWorld) :
    LedgerLabel → LedgerWorld
  | .append record =>
    { files := appendLedgerRecord host world.files record
      clock := record.updatedAt
      traced := Function.update world.traced record.correlationId
        (some { snapshot := record, compactions := [] }) }
  | .compact now force renames =>
    match compactFiles host codec world.files now force with
    | .error _ => { world with clock := now }
    | .ok plan =>
      { files := (plan.writes.take renames).foldl LedgerWrite.apply world.files
        clock := now
        traced := stampTrace now world.traced }

/-! ## What is asked of the files -/

/-- How the value that is read for an id answers for its last snapshot. -/
def Accounts (host : CheckpointHost) :
    Option TracedSnapshot → Option BackgroundDelegationRecord → Prop
  | none, loaded => loaded = none
  | some traced, loaded =>
    loaded = some traced.snapshot
      ∨ (isCheckpointLiveRecord traced.snapshot = false ∧ traced.compactions ≠ []
        ∧ ∃ summary, loaded = some summary
          ∧ IsSummaryOf host.receipts host.schema traced.snapshot summary)
      ∨ (isCheckpointLiveRecord traced.snapshot = false ∧ loaded = none
        ∧ ∃ now ∈ traced.compactions, tombstoneMinAgeMs ≤ now - traced.snapshot.updatedAt)

/-- Strict recovery answers, and for every id with its last snapshot. -/
def LoadsLastSnapshots (host : LedgerHost) (codec : CheckpointCodec) (world : LedgerWorld) : Prop :=
  ∃ load, loadFoldedState host codec world.files true = .ok load
    ∧ ∀ id, Accounts host.toCheckpointHost (world.traced id) (load.records.get? id)

/-- What the calls promise: the clock does not go back, records are schema-valid, and
    the ledger stays inside the recovery bound. -/
def PromisedLedgerCall (host : LedgerHost) (world : LedgerWorld) (label : LedgerLabel) : Prop :=
  world.clock ≤ label.time
    ∧ match label with
      | .append record =>
        host.schema record = true
          ∧ ((world.files.ledger.getD [] ++ host.encode record ++ [lineFeed]).length
              ≤ maxRecoveryLedgerBytes)
      | .compact _ _ _ => True

/-- The time of the checkpoint that readers use. -/
def publishedCut (files : DelegationFiles) : Option Int :=
  match files.manifest with
  | none => none
  | some _ => files.checkpoint.map (·.createdAt)

/-- A checkpoint is ahead of its manifest. -/
def halfPublished (files : DelegationFiles) : Bool :=
  match files.manifest, files.checkpoint with
  | some manifest, some checkpoint => checkpoint.sequence != manifest.sequence
  | _, _ => false

/-- No append repeats the millisecond of an id's last snapshot in the millisecond of the
    checkpoint, and no compaction stops behind its first rename while an earlier one has. -/
def LosesNothing (host : LedgerHost) (codec : CheckpointCodec) (world : LedgerWorld) :
    LedgerLabel → Prop
  | .append record =>
    ∀ traced cut, world.traced record.correlationId = some traced →
      publishedCut world.files = some cut →
      traced.snapshot.updatedAt < record.updatedAt ∨ cut < record.updatedAt
  | .compact now force renames =>
    renames = 1 → halfPublished world.files = true →
      ∃ skip, compactFiles host codec world.files now force = .error skip

/-! ## What the files hold -/

/-- Where the lines of a ledger stand that a checkpoint was cut from. -/
structure PublishedFiles (host : LedgerHost) (codec : CheckpointCodec) (files : DelegationFiles)
    (manifest : BackgroundDelegationManifest) (checkpoint : BackgroundDelegationCheckpoint)
    (cut tail : List BackgroundDelegationRecord) : Prop where
  manifest_eq : files.manifest = some manifest
  checkpoint_eq : files.checkpoint = some checkpoint
  checked : checkCheckpoint codec manifest checkpoint = .ok ()
  cutBytes : checkpoint.cutLedgerBytes = (ledgerText host cut).length
  cutDigest : checkpoint.cutLedgerDigest = host.sha256 (ledgerText host cut)
  validCut : ∀ record ∈ cut, host.schema record = true
  validTail : ∀ record ∈ tail, host.schema record = true
  nodup : ((checkpoint.records ++ checkpoint.closed).map (·.correlationId)).Nodup
  tailLate : ∀ record ∈ tail, checkpoint.createdAt ≤ record.updatedAt
    ∧ (checkpoint.createdAt < record.updatedAt
      ∨ ∀ entry ∈ checkpoint.records ++ checkpoint.closed,
        entry.correlationId = record.correlationId → entry.updatedAt < record.updatedAt)
  cutCovered : ∀ record ∈ cut, record.updatedAt ≤ checkpoint.createdAt
    ∧ ((∃ entry ∈ checkpoint.records ++ checkpoint.closed,
        entry.correlationId = record.correlationId ∧ record.updatedAt ≤ entry.updatedAt)
      ∨ record.updatedAt + tombstoneMinAgeMs ≤ checkpoint.createdAt)

/-- The files, with the records of their ledger and what a load makes of them. -/
inductive HoldsFiles (host : LedgerHost) (codec : CheckpointCodec) (files : DelegationFiles) :
    List BackgroundDelegationRecord → DelegationMap → Prop where
  | legacy {lines : List BackgroundDelegationRecord} :
      files.manifest = none → files.ledger.getD [] = ledgerText host lines →
      (∀ record ∈ lines, host.schema record = true) →
      HoldsFiles host codec files lines (lines.foldl (mergeRecord none) [])
  | unrolled {manifest : BackgroundDelegationManifest}
      {checkpoint : BackgroundDelegationCheckpoint} {cut tail : List BackgroundDelegationRecord} :
      PublishedFiles host codec files manifest checkpoint cut tail →
      files.ledger = some (ledgerText host (cut ++ tail)) →
      HoldsFiles host codec files (cut ++ tail)
        (tail.foldl (mergeRecord (some checkpoint.createdAt))
          (checkpointRecords checkpoint.toCheckpointPayload))
  | rolled {manifest : BackgroundDelegationManifest}
      {checkpoint : BackgroundDelegationCheckpoint} {cut tail : List BackgroundDelegationRecord} :
      PublishedFiles host codec files manifest checkpoint cut tail →
      files.ledger = some (ledgerText host tail) →
      HoldsFiles host codec files tail
        (tail.foldl (mergeRecord (some checkpoint.createdAt))
          (checkpointRecords checkpoint.toCheckpointPayload))

section Loading

variable {host : LedgerHost} {codec : CheckpointCodec} {files : DelegationFiles} {strict : Bool}
  {manifest : BackgroundDelegationManifest} {checkpoint : BackgroundDelegationCheckpoint}
  {cut tail : List BackgroundDelegationRecord}

theorem readBoundedRecentLedgerWindow_of_le {ledger : List UInt8}
    (h : ledger.length ≤ maxRecoveryLedgerBytes) : readBoundedRecentLedgerWindow ledger = ledger :=
  if_pos h

theorem PublishedFiles.not_prefix (h : PublishedFiles host codec files manifest checkpoint cut tail)
    (hcut : 0 < checkpoint.cutLedgerBytes) (rest : List UInt8) :
    ledgerText host tail ≠ ledgerText host cut ++ rest := by
  intro heq
  have hfree : ∀ records : List BackgroundDelegationRecord,
      ∀ line ∈ records.map host.encode, lineFeed ∉ line := by
    intro records line hline
    obtain ⟨record, -, rfl⟩ := List.mem_map.mp hline
    exact host.lineFeed_notMem record
  have hbegins := prefix_of_unlines_eq (hfree tail) (hfree cut) heq
  cases cut with
  | nil =>
    rw [h.cutBytes] at hcut
    exact absurd hcut (by simp [ledgerText, unlines])
  | cons first others =>
    obtain ⟨more, hmore⟩ := hbegins
    cases tail with
    | nil => cases hmore
    | cons record later =>
      -- the first line of the tail would be the first line of the cut
      have hsame : host.encode first = host.encode record := by
        exact (List.cons.inj hmore).1
      have heqRecord := encode_inj (h.validCut first List.mem_cons_self)
        (h.validTail record List.mem_cons_self) hsame
      subst heqRecord
      obtain ⟨hbefore, hcovered⟩ := h.cutCovered first List.mem_cons_self
      obtain ⟨hafter, hnewer⟩ := h.tailLate first List.mem_cons_self
      rcases hcovered with ⟨entry, hentry, hid, hle⟩ | hold
      · rcases hnewer with hlate | hall
        · omega
        · have hlt := hall entry hentry hid
          omega
      · have hage : (0 : Int) < tombstoneMinAgeMs := by decide
        omega

theorem PublishedFiles.postCutTail_unrolled
    (h : PublishedFiles host codec files manifest checkpoint cut tail)
    (hbound : (ledgerText host (cut ++ tail)).length ≤ maxRecoveryLedgerBytes) :
    postCutTail host checkpoint.toCheckpointPayload (ledgerText host (cut ++ tail))
      = .ok (ledgerText host tail) := by
  have hlength : (ledgerText host (cut ++ tail)).length
      = (ledgerText host cut).length + (ledgerText host tail).length := by
    rw [ledgerText_append, List.length_append]
  rw [postCutTail, h.cutBytes]
  by_cases hpos : 0 < (ledgerText host cut).length
  · have hverified : (ledgerText host cut).length ≤ (ledgerText host (cut ++ tail)).length
        ∧ 0 < (ledgerText host cut).length
        ∧ host.sha256 ((ledgerText host (cut ++ tail)).take (ledgerText host cut).length)
          = checkpoint.cutLedgerDigest := by
      refine ⟨by omega, hpos, ?_⟩
      rw [ledgerText_append, List.take_left', h.cutDigest]
      rfl
    rw [if_pos hverified, if_neg (by omega), ledgerText_append, List.drop_left' rfl]
  · have hempty : ledgerText host cut = [] := List.length_eq_zero_iff.mp (by omega)
    rw [if_neg fun hverified => hpos hverified.2.1, readBoundedRecentLedgerWindow_of_le hbound,
      ledgerText_append, hempty, List.nil_append]

theorem PublishedFiles.postCutTail_rolled
    (h : PublishedFiles host codec files manifest checkpoint cut tail)
    (hsha : Function.Injective host.sha256)
    (hbound : (ledgerText host tail).length ≤ maxRecoveryLedgerBytes) :
    postCutTail host checkpoint.toCheckpointPayload (ledgerText host tail)
      = .ok (ledgerText host tail) := by
  rw [postCutTail, if_neg, readBoundedRecentLedgerWindow_of_le hbound]
  rintro ⟨hle, hpos, hdigest⟩
  rw [h.cutDigest] at hdigest
  have htake := hsha hdigest
  refine h.not_prefix hpos ((ledgerText host tail).drop checkpoint.cutLedgerBytes) ?_
  rw [← htake, List.take_append_drop]

theorem HoldsFiles.load (hsha : Function.Injective host.sha256)
    {lines : List BackgroundDelegationRecord} {view : DelegationMap}
    (h : HoldsFiles host codec files lines view)
    (hbound : (files.ledger.getD []).length ≤ maxRecoveryLedgerBytes) (strict : Bool) :
    ∃ load, loadFoldedState host codec files strict = .ok load ∧ load.records = view
      ∧ load.manifest = files.manifest
      ∧ (files.manifest ≠ none → load.checkpoint = files.checkpoint) := by
  cases h with
  | legacy hmanifest hledger hvalid =>
    unfold loadFoldedState loadLegacyLedger
    rw [hmanifest]
    cases hfile : files.ledger with
    | none =>
      rw [hfile] at hledger
      rw [ledgerText_eq_nil hledger.symm]
      exact ⟨_, rfl, rfl, rfl, fun hne => absurd rfl hne⟩
    | some ledger =>
      rw [hfile] at hledger hbound
      simp only [Option.getD_some] at hledger hbound
      dsimp only
      rw [if_neg fun hlong => absurd hlong.2 (by omega), hledger,
        foldLedgerTail_ledgerText none [] hvalid]
      exact ⟨_, rfl, rfl, rfl, fun hne => absurd rfl hne⟩
  | @unrolled manifest checkpoint cut tail hfiles hledger =>
    rw [hledger, Option.getD_some] at hbound
    rw [loadFoldedState, hfiles.manifest_eq, hfiles.checkpoint_eq]
    dsimp only
    rw [hfiles.checked]
    rw [hledger]
    dsimp only
    rw [hfiles.postCutTail_unrolled hbound]
    dsimp only
    rw [foldLedgerTail_ledgerText _ _ hfiles.validTail]
    exact ⟨_, rfl, rfl, rfl, fun _ => rfl⟩
  | @rolled manifest checkpoint cut tail hfiles hledger =>
    rw [hledger, Option.getD_some] at hbound
    rw [loadFoldedState, hfiles.manifest_eq, hfiles.checkpoint_eq]
    dsimp only
    rw [hfiles.checked]
    rw [hledger]
    dsimp only
    rw [hfiles.postCutTail_rolled hsha hbound]
    dsimp only
    rw [foldLedgerTail_ledgerText _ _ hfiles.validTail]
    exact ⟨_, rfl, rfl, rfl, fun _ => rfl⟩

end Loading

end OpencodeSwarm
