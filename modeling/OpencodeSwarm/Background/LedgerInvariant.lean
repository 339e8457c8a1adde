/-
  OpencodeSwarm.Background.LedgerInvariant

  What holds of the files of the delegation store and of the trace of its appends, and
  how an append keeps it.  What is loaded for an id is its last snapshot, or what
  compactions left of that snapshot; an append that is newer than what is loaded takes
  its place.
-/
import OpencodeSwarm.Background.LedgerHistory

namespace OpencodeSwarm

open Js TextLines Transition

/-! ## Merging -/

section Merging

variable {createdAt : Option Int} {view : DelegationMap} {record : BackgroundDelegationRecord}

/-- A record that is newer than the entry of its id takes its place. -/
theorem mergeRecord_eq_insert
    (h : ∀ cut existing, createdAt = some cut → view.get? record.correlationId = some existing →
      existing.updatedAt < record.updatedAt
        ∨ record.updatedAt = existing.updatedAt ∧ cut < record.updatedAt) :
    mergeRecord createdAt view record = insertRecord view record := by
  unfold mergeRecord
  cases createdAt with
  | none => rfl
  | some cut =>
    cases hget : view.get? record.correlationId with
    | none => rfl
    | some existing =>
      dsimp only
      rw [if_neg]
      rintro ⟨hnewer, hequal⟩
      rcases h cut existing rfl hget with hlt | heq
      · exact hnewer hlt
      · exact hequal heq

theorem le_mergeRecord {cut : Int} {id : JsString} {entry : BackgroundDelegationRecord}
    (hentry : view.get? id = some entry) :
    ∃ later, (mergeRecord (some cut) view record).get? id = some later
      ∧ entry.updatedAt ≤ later.updatedAt := by
  unfold mergeRecord
  cases hget : view.get? record.correlationId with
  | none =>
    rw [get?_insertRecord]
    by_cases hid : id = record.correlationId
    · rw [hid, hget] at hentry
      cases hentry
    · rw [if_neg hid]
      exact ⟨entry, hentry, le_refl _⟩
  | some existing =>
    dsimp only
    split
    · exact ⟨entry, hentry, le_refl _⟩
    rename_i hreplaced
    rw [get?_insertRecord]
    by_cases hid : id = record.correlationId
    · rw [hid, hget] at hentry
      cases hentry
      rw [if_pos hid]
      refine ⟨record, rfl, ?_⟩
      by_contra hlt
      exact hreplaced ⟨by omega, fun heq => by omega⟩
    · rw [if_neg hid]
      exact ⟨entry, hentry, le_refl _⟩

theorem le_foldl_mergeRecord {cut : Int} (tail : List BackgroundDelegationRecord) {id : JsString}
    {entry : BackgroundDelegationRecord} (hentry : view.get? id = some entry) :
    ∃ later, (tail.foldl (mergeRecord (some cut)) view).get? id = some later
      ∧ entry.updatedAt ≤ later.updatedAt := by
  induction tail generalizing view entry with
  | nil => exact ⟨entry, hentry, le_refl _⟩
  | cons first rest ih =>
    obtain ⟨middle, hmiddle, hle⟩ := @le_mergeRecord view first cut id entry hentry
    obtain ⟨later, hlater, hle'⟩ := ih hmiddle
    exact ⟨later, hlater, by omega⟩

theorem keyedById_foldl_merge (tail : List BackgroundDelegationRecord) (h : KeyedById view) :
    KeyedById (tail.foldl (mergeRecord createdAt) view) := by
  induction tail generalizing view with
  | nil => exact h
  | cons first rest ih => exact ih (h.mergeRecord createdAt)

end Merging

/-! ## Accounting -/

section Accounting

variable {host : CheckpointHost} {traced : TracedSnapshot}
  {loaded : Option BackgroundDelegationRecord} {entry : BackgroundDelegationRecord}

theorem Accounts.sameSkeleton (h : Accounts host (some traced) (some entry)) :
    SameSkeleton entry traced.snapshot := by
  rcases h with hsame | ⟨-, -, summary, hsummary, hof⟩ | ⟨-, hnone, -⟩
  · cases hsame
    exact ⟨rfl, rfl, rfl⟩
  · cases hsummary
    exact hof.sameSkeleton
  · cases hnone

theorem Accounts.stamp {trace : JsString → Option TracedSnapshot} {id : JsString}
    (h : Accounts host (trace id) loaded) (now : Int) :
    Accounts host (stampTrace now trace id) loaded := by
  unfold stampTrace
  cases htrace : trace id with
  | none =>
    rw [htrace] at h
    exact h
  | some traced =>
    rw [htrace] at h
    rcases h with hsame | ⟨hclosed, -, hsummary⟩ | ⟨hclosed, hnone, old, hold, hage⟩
    · exact Or.inl hsame
    · exact Or.inr (Or.inl ⟨hclosed, List.cons_ne_nil _ _, hsummary⟩)
    · exact Or.inr (Or.inr ⟨hclosed, hnone, old, List.mem_cons_of_mem _ hold, hage⟩)

/-- What a compaction leaves of a summary, or of the snapshot itself. -/
theorem isSummaryOf_left {snapshot left : BackgroundDelegationRecord}
    (hclosed : isCheckpointLiveRecord entry = false)
    (hentry : entry = snapshot ∨ IsSummaryOf host.receipts host.schema snapshot entry)
    (hleft : LeftBy host entry left) : IsSummaryOf host.receipts host.schema snapshot left := by
  have hsummary : IsSummaryOf host.receipts host.schema snapshot
      (closedEntry host.receipts host.schema entry) := by
    rcases hentry with rfl | hof
    · exact .closed
    · exact .again hof
  rw [LeftBy, hclosed] at hleft
  rcases hleft with rfl | rfl
  · exact hsummary
  · exact .shed hsummary

/-- An entry that a compaction keeps is accounted for as before. -/
theorem Accounts.left {now : Int} {entry left : BackgroundDelegationRecord}
    (h : Accounts host (some traced) (some entry)) (hleft : LeftBy host entry left) :
    Accounts host (some { traced with compactions := now :: traced.compactions }) (some left) := by
  have hskeleton := h.sameSkeleton
  have hentry : entry = traced.snapshot
      ∨ IsSummaryOf host.receipts host.schema traced.snapshot entry := by
    rcases h with hsame | ⟨-, -, summary, hsummary, hof⟩ | ⟨-, hnone, -⟩
    · cases hsame
      exact Or.inl rfl
    · cases hsummary
      exact Or.inr hof
    · cases hnone
  by_cases hlive : isCheckpointLiveRecord entry = true
  · -- a live record is never a summary, and stays as it is
    rw [LeftBy, if_pos hlive] at hleft
    rw [hleft]
    exact @Accounts.stamp host (some entry) (fun _ => some traced) [] h now
  · have hclosed : isCheckpointLiveRecord entry = false := Bool.eq_false_iff.mpr hlive
    refine Or.inr (Or.inl ⟨hskeleton.live ▸ hclosed, List.cons_ne_nil _ _, left, rfl, ?_⟩)
    exact isSummaryOf_left hclosed hentry hleft

theorem Accounts.evicted {now : Int} (h : Accounts host (some traced) (some entry))
    (hclosed : isCheckpointLiveRecord entry = false) (hold : isYoung now entry = false) :
    Accounts host (some { traced with compactions := now :: traced.compactions }) none := by
  have hskeleton := h.sameSkeleton
  refine Or.inr (Or.inr ⟨hskeleton.live ▸ hclosed, rfl, now, List.mem_cons_self, ?_⟩)
  have hage : ¬ now - entry.updatedAt < tombstoneMinAgeMs := of_decide_eq_false hold
  rw [hskeleton.updatedAt] at hage
  exact not_lt.mp hage

end Accounting

/-! ## The invariant -/

/-- What holds of the files and of the trace in every state. -/
structure LedgerInvariant (host : LedgerHost) (codec : CheckpointCodec) (world : LedgerWorld)
    (lines : List BackgroundDelegationRecord) (view : DelegationMap) : Prop where
  holds : HoldsFiles host codec world.files lines view
  bounded : (world.files.ledger.getD []).length ≤ maxRecoveryLedgerBytes
  accounts : ∀ id, Accounts host.toCheckpointHost (world.traced id) (view.get? id)
  dated : ∀ id traced, world.traced id = some traced →
    traced.snapshot.updatedAt ≤ world.clock ∧ ∀ now ∈ traced.compactions, now ≤ world.clock
  lineTraced : ∀ record ∈ lines, ∃ traced, world.traced record.correlationId = some traced
    ∧ record.updatedAt ≤ traced.snapshot.updatedAt
  cutBefore : ∀ cut, publishedCut world.files = some cut → cut ≤ world.clock

section Invariant

variable {host : LedgerHost} {codec : CheckpointCodec} {files : DelegationFiles}
  {lines : List BackgroundDelegationRecord} {view : DelegationMap} {world : LedgerWorld}

theorem HoldsFiles.keyed (h : HoldsFiles host codec files lines view) : KeyedById view := by
  cases h with
  | legacy _ _ _ => exact keyedById_foldl_merge _ keyedById_nil
  | unrolled _ _ | rolled _ _ =>
    exact keyedById_foldl_merge _ (keyedById_foldl_insert _ keyedById_nil)

theorem HoldsFiles.valid (h : HoldsFiles host codec files lines view) :
    ∀ record ∈ lines, host.schema record = true := by
  cases h with
  | legacy _ _ hvalid => exact hvalid
  | unrolled hfiles _ =>
    intro record hrecord
    rcases List.mem_append.mp hrecord with hcut | htail
    · exact hfiles.validCut record hcut
    · exact hfiles.validTail record htail
  | rolled hfiles _ => exact hfiles.validTail

theorem HoldsFiles.ledger_eq (h : HoldsFiles host codec files lines view) :
    files.ledger.getD [] = ledgerText host lines := by
  cases h with
  | legacy _ hledger _ => exact hledger
  | unrolled _ hledger | rolled _ hledger =>
    rw [hledger]
    rfl

theorem LedgerInvariant.loadsLast (hsha : Function.Injective host.sha256)
    (h : LedgerInvariant host codec world lines view) : LoadsLastSnapshots host codec world := by
  obtain ⟨load, hload, hrecords, -, -⟩ := h.holds.load hsha h.bounded true
  refine ⟨load, hload, ?_⟩
  rw [hrecords]
  exact h.accounts

theorem ledgerInvariant_start (clock : Int) :
    LedgerInvariant host codec (.start clock) [] [] where
  holds := .legacy rfl rfl fun _ h => (nomatch h)
  bounded := Nat.zero_le _
  accounts := fun _ => rfl
  dated := fun _ _ h => nomatch h
  lineTraced := fun _ h => nomatch h
  cutBefore := fun _ h => nomatch h

/-! ## Appending -/

variable {manifest : BackgroundDelegationManifest} {checkpoint : BackgroundDelegationCheckpoint}
  {cut tail : List BackgroundDelegationRecord}

theorem PublishedFiles.append {record : BackgroundDelegationRecord}
    (h : PublishedFiles host codec files manifest checkpoint cut tail)
    (hvalid : host.schema record = true) (hlate : checkpoint.createdAt ≤ record.updatedAt
      ∧ (checkpoint.createdAt < record.updatedAt
        ∨ ∀ entry ∈ checkpoint.records ++ checkpoint.closed,
          entry.correlationId = record.correlationId → entry.updatedAt < record.updatedAt)) :
    PublishedFiles host codec (appendLedgerRecord host files record) manifest checkpoint cut
      (tail ++ [record]) where
  manifest_eq := h.manifest_eq
  checkpoint_eq := h.checkpoint_eq
  checked := h.checked
  cutBytes := h.cutBytes
  cutDigest := h.cutDigest
  validCut := h.validCut
  validTail := by
    intro other hother
    rcases List.mem_append.mp hother with hold | hnew
    · exact h.validTail other hold
    · rwa [List.mem_singleton.mp hnew]
  nodup := h.nodup
  tailLate := by
    intro other hother
    rcases List.mem_append.mp hother with hold | hnew
    · exact h.tailLate other hold
    · rwa [List.mem_singleton.mp hnew]
  cutCovered := h.cutCovered

theorem PublishedFiles.publishedCut_eq
    (h : PublishedFiles host codec files manifest checkpoint cut tail) :
    publishedCut files = some checkpoint.createdAt := by
  rw [publishedCut, h.manifest_eq, h.checkpoint_eq]
  rfl

/-- An append that repeats no millisecond of the cut is newer than what is loaded. -/
theorem LedgerInvariant.newer (h : LedgerInvariant host codec world lines view)
    {record existing : BackgroundDelegationRecord} {cut : Int}
    (hclock : world.clock ≤ record.updatedAt)
    (hloses : LosesNothing host codec world (.append record))
    (hcut : publishedCut world.files = some cut)
    (hexisting : view.get? record.correlationId = some existing) :
    existing.updatedAt < record.updatedAt
      ∨ record.updatedAt = existing.updatedAt ∧ cut < record.updatedAt := by
  have haccounts := h.accounts record.correlationId
  rw [hexisting] at haccounts
  cases htraced : world.traced record.correlationId with
  | none =>
    rw [htraced] at haccounts
    cases haccounts
  | some traced =>
    rw [htraced] at haccounts
    have hsame := haccounts.sameSkeleton.updatedAt
    have hdated := (h.dated _ _ htraced).1
    rcases hloses traced cut htraced hcut with hlt | hlate
    · omega
    · omega

theorem LedgerInvariant.late
    (hfiles : PublishedFiles host codec world.files manifest checkpoint cut tail)
    (h : LedgerInvariant host codec world lines
      (tail.foldl (mergeRecord (some checkpoint.createdAt))
        (checkpointRecords checkpoint.toCheckpointPayload))) {record : BackgroundDelegationRecord}
    (hclock : world.clock ≤ record.updatedAt)
    (hloses : LosesNothing host codec world (.append record)) :
    checkpoint.createdAt ≤ record.updatedAt ∧ (checkpoint.createdAt < record.updatedAt
        ∨ ∀ entry ∈ checkpoint.records ++ checkpoint.closed,
          entry.correlationId = record.correlationId → entry.updatedAt < record.updatedAt) := by
  have hcut := hfiles.publishedCut_eq
  have hbefore := h.cutBefore _ hcut
  refine ⟨by omega, ?_⟩
  by_cases hlate : checkpoint.createdAt < record.updatedAt
  · exact Or.inl hlate
  refine Or.inr fun entry hentry hid => ?_
  have hget : (checkpointRecords checkpoint.toCheckpointPayload).get? record.correlationId
      = some entry := (get?_checkpointRecords hfiles.nodup).mpr ⟨hentry, hid⟩
  obtain ⟨existing, hexisting, hle⟩ :=
    @le_foldl_mergeRecord _ checkpoint.createdAt tail _ _ hget
  rcases h.newer hclock hloses hcut hexisting with hlt | ⟨-, hcutLt⟩
  · omega
  · exact absurd hcutLt hlate

/-- An append that loses nothing leaves its record as the loaded one. -/
theorem HoldsFiles.append {record : BackgroundDelegationRecord}
    (h : LedgerInvariant host codec world lines view) (hclock : world.clock ≤ record.updatedAt)
    (hvalid : host.schema record = true) (hloses : LosesNothing host codec world (.append record)) :
    HoldsFiles host codec (appendLedgerRecord host world.files record) (lines ++ [record])
      (insertRecord view record) := by
  have hholds := h.holds
  have htext : world.files.ledger.getD [] ++ host.encode record ++ [lineFeed]
      = ledgerText host (lines ++ [record]) := by
    rw [hholds.ledger_eq, ledgerText_concat]
  cases hholds with
  | legacy hmanifest hledger hlines =>
    have hview : insertRecord (lines.foldl (mergeRecord none) []) record
        = (lines ++ [record]).foldl (mergeRecord none) [] := by
      rw [List.foldl_append, List.foldl_cons, List.foldl_nil]
      exact (mergeRecord_eq_insert fun cut _ hnone => by cases hnone).symm
    rw [hview]
    refine .legacy hmanifest htext ?_
    intro other hother
    rcases List.mem_append.mp hother with hold | hnew
    · exact hlines other hold
    · rwa [List.mem_singleton.mp hnew]
  | @unrolled manifest checkpoint cut tail hfiles hledger =>
    have hmerge := mergeRecord_eq_insert fun time existing htime hexisting =>
      h.newer hclock hloses (hfiles.publishedCut_eq.trans htime) hexisting
    rw [List.append_assoc, ← hmerge]
    have hnext := HoldsFiles.unrolled (hfiles.append hvalid (h.late hfiles hclock hloses))
      (by rw [← List.append_assoc]; exact congrArg some htext)
    rwa [List.foldl_append] at hnext
  | @rolled manifest checkpoint cut tail hfiles hledger =>
    have hmerge := mergeRecord_eq_insert fun time existing htime hexisting =>
      h.newer hclock hloses (hfiles.publishedCut_eq.trans htime) hexisting
    rw [← hmerge]
    have hnext := HoldsFiles.rolled (hfiles.append hvalid (h.late hfiles hclock hloses))
      (congrArg some htext)
    rwa [List.foldl_append] at hnext

theorem LedgerInvariant.append {record : BackgroundDelegationRecord}
    (h : LedgerInvariant host codec world lines view)
    (hpromised : PromisedLedgerCall host world (.append record))
    (hloses : LosesNothing host codec world (.append record)) :
    LedgerInvariant host codec (ledgerStep host codec world (.append record)) (lines ++ [record])
      (insertRecord view record) := by
  obtain ⟨hclock, hvalid, hbound⟩ := hpromised
  have hclock' : world.clock ≤ record.updatedAt := hclock
  refine ⟨HoldsFiles.append h hclock' hvalid hloses, hbound, ?_, ?_, ?_, ?_⟩
  · intro id
    rw [get?_insertRecord]
    by_cases hid : id = record.correlationId
    · rw [if_pos hid, hid]
      change Accounts _ (Function.update world.traced _ _ _) _
      rw [Function.update_self]
      exact Or.inl rfl
    · rw [if_neg hid]
      change Accounts _ (Function.update world.traced _ _ _) _
      rw [Function.update_of_ne hid]
      exact h.accounts id
  · intro id traced htraced
    change Function.update world.traced _ _ id = _ at htraced
    change traced.snapshot.updatedAt ≤ record.updatedAt
      ∧ ∀ now ∈ traced.compactions, now ≤ record.updatedAt
    by_cases hid : id = record.correlationId
    · rw [hid, Function.update_self] at htraced
      cases htraced
      exact ⟨le_refl _, fun _ hmem => nomatch hmem⟩
    · rw [Function.update_of_ne hid] at htraced
      obtain ⟨hsnapshot, hcompactions⟩ := h.dated id traced htraced
      refine ⟨by omega, fun now hnow => ?_⟩
      have hbefore := hcompactions now hnow
      omega
  · intro other hother
    change ∃ traced, Function.update world.traced _ _ other.correlationId = some traced ∧ _
    by_cases hid : other.correlationId = record.correlationId
    · rw [hid, Function.update_self]
      refine ⟨_, rfl, ?_⟩
      rcases List.mem_append.mp hother with hold | hnew
      · obtain ⟨traced, htraced, hle⟩ := h.lineTraced other hold
        have hdated := (h.dated _ _ htraced).1
        dsimp only
        omega
      · rw [List.mem_singleton.mp hnew]
    · rw [Function.update_of_ne hid]
      rcases List.mem_append.mp hother with hold | hnew
      · exact h.lineTraced other hold
      · rw [List.mem_singleton.mp hnew] at hid
        exact absurd rfl hid
  · intro cut hcut
    change cut ≤ record.updatedAt
    have hbefore := h.cutBefore cut hcut
    omega

end Invariant

end OpencodeSwarm
