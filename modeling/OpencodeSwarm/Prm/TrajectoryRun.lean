/-
  OpencodeSwarm.Prm.TrajectoryRun

  Runs of appends and crashes on one session.  The completed appends are kept as
  a list that no compaction touches; the invariant says what of it the file
  holds, and what the checkpoint knows of the rest.

  Two things are not kept.  Between the rewrite of a compaction and its
  checkpoint, nothing on disk tells that entries were dropped.  And a window
  drops its first line even where that line is whole, so an entry is out of
  sight as soon as it begins exactly where the window does.
-/
import OpencodeSwarm.Lib.Transition
import OpencodeSwarm.Prm.TrajectoryFile

namespace OpencodeSwarm

open Js TextLines JsonLines Transition

/-! ## Runs -/

/-- An append, and how it ends. -/
structure TrajectoryCall where
  entry : TrajectoryEntry
  ending : AppendEnd

/-- A session, and the appends whose whole record has come into its file. -/
structure TrajectoryWorld where
  store : TrajectoryStore
  completed : List TrajectoryEntry

def TrajectoryWorld.start : TrajectoryWorld := ⟨TrajectoryStore.empty, []⟩

section Run

variable (codec : TrajectoryCodec) (maxLines : Nat)

/-- How many bytes are written before the record is whole. -/
def landingBytes (file : List UInt8) (entry : TrajectoryEntry) : Nat :=
  (reframe file).length + (codec.line entry).length

/-- An append that ends so gets its whole record into the file. -/
def endingLands (file : List UInt8) (entry : TrajectoryEntry) : AppendEnd → Bool
  | .returns => true
  | .diesUnwritten => false
  | .diesEarly => false
  | .diesWriting bytes => decide (landingBytes codec file entry ≤ bytes)
  | .diesLate => true

/-- The whole record comes into the file. -/
def recordLands (store : TrajectoryStore) (call : TrajectoryCall) : Bool :=
  !isOversize codec call.entry && endingLands codec store.file call.entry call.ending

/-- One append. -/
def trajectoryStep (world : TrajectoryWorld) (call : TrajectoryCall) : TrajectoryWorld :=
  { store := appendTrajectoryEntry codec maxLines world.store call.entry call.ending
    completed :=
      if recordLands codec world.store call then world.completed ++ [call.entry]
      else world.completed }

/-! ## The property -/

/-- The valid lines on disk. -/
def validEntries (store : TrajectoryStore) : List TrajectoryEntry :=
  (parseWindow codec (decodeUtf8 store.file) false).entries

/-- No step is reused and no loss is silent. -/
structure TrajectoryKept (world : TrajectoryWorld) : Prop where
  suffix : validEntries codec world.store <:+ world.completed
  newest : world.completed ≠ [] → validEntries codec world.store ≠ []
  steps : ∀ entry ∈ world.completed, entry.step ≤ getCurrentStep codec world.store
  coverage : (readTrajectoryWithCoverage codec world.store).coverage = .complete →
    ∀ entry ∈ world.completed, entry ∈ (readTrajectoryWithCoverage codec world.store).entries

/-! ## The condition -/

/-- The step that the checkpoint holds. -/
def TrajectoryStore.highestStep (store : TrajectoryStore) : Int :=
  (store.checkpoint.map (·.highestStep)).getD 0

/-- The checkpoint tells of a loss. -/
def TrajectoryStore.Discloses (store : TrajectoryStore) : Prop :=
  0 < (store.checkpoint.map (·.droppedEntries)).getD 0
    ∨ 0 < (store.checkpoint.map (·.droppedBytes)).getD 0

/-- An entry is in the window that `getCurrentStep` reads: of a file of `total` bytes, so many are
    left from where it begins. -/
def InStepWindow (total fromEntry : Nat) : Prop :=
  total ≤ TRAJECTORY_LIMITS.stepReadMaxBytes ∨ fromEntry < TRAJECTORY_LIMITS.stepReadMaxBytes

/-- A compaction finds an entry, if there is one. -/
def FindsEntry (file : List UInt8) : Prop :=
  records codec file = [] ∨ file.length ≤ TRAJECTORY_LIMITS.compactMaxBytes
    ∨ bytesFromNewest codec file < TRAJECTORY_LIMITS.compactMaxBytes

/-- The checkpoint holds the newest step of the file. -/
def NewestStepHeld (store : TrajectoryStore) : Prop :=
  ∀ entry ∈ (records codec store.file).getLast?, entry.step ≤ store.highestStep

/-- The appended line is in the window of `getCurrentStep`, or the checkpoint holds its step. -/
def LineFits (store : TrajectoryStore) (entry : TrajectoryEntry) : Prop :=
  entry.step ≤ (appendBase codec maxLines store).highestStep
    ∨ InStepWindow (appendWritten codec maxLines store entry).file.length
        ((codec.line entry).length + 1)

/-- The call keeps clear of the two defects.

    A crash between a rewrite and its checkpoint: the rewrite drops nothing, or an earlier
    checkpoint tells of a loss already.  Whenever the call ends, the newest entry is in the window
    of `getCurrentStep`, or the checkpoint holds its step. -/
def Sheltered (store : TrajectoryStore) (call : TrajectoryCall) : Prop :=
  isOversize codec call.entry = false →
  match call.ending with
  | .diesUnwritten => True
  | .diesEarly => earlyDue maxLines store = true → FindsEntry codec store.file
      ∧ (keptEntries codec maxLines store.file = records codec store.file ∨ store.Discloses)
      ∧ ∀ newest ∈ (records codec store.file).getLast?, newest.step ≤ store.highestStep
        ∨ InStepWindow (keptBytes (keptLines codec maxLines store.file))
            ((codec.line newest).length + 1)
  | .diesWriting bytes =>
    if landingBytes codec store.file call.entry ≤ bytes then
      bytes = landingBytes codec store.file call.entry
        ∨ LineFits codec maxLines store call.entry
    else if earlyDue maxLines store then FindsEntry codec store.file
    else NewestStepHeld codec store
      ∨ InStepWindow (store.file.length + bytes) (bytesFromNewest codec store.file + bytes)
  | .returns => lateDue codec maxLines store call.entry = true
      ∨ LineFits codec maxLines store call.entry
  | .diesLate =>
    if lateDue codec maxLines store call.entry then
      (keptEntries codec maxLines (appendWritten codec maxLines store call.entry).file
          = records codec (appendWritten codec maxLines store call.entry).file
        ∨ (appendBase codec maxLines store).Discloses)
      ∧ (call.entry.step ≤ (appendBase codec maxLines store).highestStep
        ∨ InStepWindow
            (keptBytes (keptLines codec maxLines
              (appendWritten codec maxLines store call.entry).file))
            ((codec.line call.entry).length + 1))
    else LineFits codec maxLines store call.entry

end Run

/-! ## The invariant -/

section Invariant

variable {codec : TrajectoryCodec} {maxLines : Nat} {store : TrajectoryStore}
  {completed : List TrajectoryEntry} {entry : TrajectoryEntry}

/-- The entries come in the order of their steps. -/
def Ascending (entries : List TrajectoryEntry) : Prop :=
  entries.Pairwise fun a b => a.step < b.step

/-- What is on disk of the completed appends. -/
structure StoredEntries (codec : TrajectoryCodec) (store : TrajectoryStore)
    (completed : List TrajectoryEntry) : Prop where
  framed : Framed codec store.file
  suffix : records codec store.file <:+ completed
  disclosed : records codec store.file = completed ∨ store.Discloses

/-- And the newest of them is found. -/
structure StoredNewest (codec : TrajectoryCodec) (store : TrajectoryStore)
    (completed : List TrajectoryEntry) : Prop extends StoredEntries codec store completed where
  newest : completed ≠ [] → records codec store.file ≠ []
  known : NewestStepHeld codec store
    ∨ InStepWindow store.file.length (bytesFromNewest codec store.file)

variable {newest : TrajectoryEntry}

/-- No completed append has a step beyond the last entry of a suffix. -/
theorem le_newest (hascending : Ascending completed) {kept : List TrajectoryEntry}
    (hsuffix : kept <:+ completed) (hnewest : newest ∈ kept.getLast?) :
    ∀ entry ∈ completed, entry.step ≤ newest.step := by
  obtain ⟨front, rfl⟩ := hsuffix
  obtain ⟨init, rfl⟩ := List.getLast?_eq_some_iff.mp (Option.mem_def.mp hnewest)
  rw [Ascending, ← List.append_assoc, List.pairwise_append] at hascending
  intro entry hentry
  rw [← List.append_assoc] at hentry
  rcases List.mem_append.mp hentry with hold | hlast
  · exact Int.le_of_lt (hascending.2.2 entry hold newest (List.mem_singleton.mpr rfl))
  · rw [List.mem_singleton.mp hlast]

theorem getLast?_of_suffix {α : Type*} {kept all : List α} (hsuffix : kept <:+ all)
    (hne : kept ≠ []) : kept.getLast? = all.getLast? := by
  obtain ⟨front, rfl⟩ := hsuffix
  rw [List.getLast?_append_of_ne_nil _ hne]

/-! ### Compactions -/

variable {file : List UInt8}

theorem windowRecords_of_findsEntry (hfinds : FindsEntry codec file)
    (hsome : records codec file ≠ []) :
    windowRecords codec file TRAJECTORY_LIMITS.compactMaxBytes ≠ [] :=
  windowRecords_ne_nil hsome (hfinds.resolve_left hsome)

theorem records_compactedFile (h : Framed codec file) (maxLines : Nat) :
    records codec (compactedFile codec maxLines file) = keptEntries codec maxLines file := by
  rw [compactedFile_eq h]
  exact records_trajectoryLines (readable_kept h maxLines)

theorem framed_compactedFile (h : Framed codec file) (maxLines : Nat) :
    Framed codec (compactedFile codec maxLines file) := by
  rw [compactedFile_eq h]
  exact framed_trajectoryLines (readable_kept h maxLines)

theorem lastLine_compactedFile (h : Framed codec file) (maxLines : Nat) :
    lastLine JsonLines.newline (compactedFile codec maxLines file) = [] := by
  rw [lastLine, compactedFile_eq h, splitOn_trajectoryLines, List.getLastD_concat]

theorem length_compactedFile (h : Framed codec file) (maxLines : Nat) :
    (compactedFile codec maxLines file).length = keptBytes (keptLines codec maxLines file) := by
  rw [compactedFile_eq h, keptBytes_eq h]
  exact length_trajectoryLines _

theorem getLast?_keptEntries (h : Framed codec file) (maxLines : Nat)
    (hfinds : FindsEntry codec file) :
    (keptEntries codec maxLines file).getLast? = (records codec file).getLast? := by
  by_cases hsome : records codec file = []
  · have hnone := keptEntries_suffix h maxLines
    rw [hsome, List.suffix_nil] at hnone
    rw [hsome, hnone]
  · exact getLast?_of_suffix (keptEntries_suffix h maxLines)
      ((kept_spec h maxLines).some_ (windowRecords_of_findsEntry hfinds hsome))

theorem bytesFromNewest_compactedFile (h : Framed codec file) (maxLines : Nat)
    (hnewest : newest ∈ (keptEntries codec maxLines file).getLast?) :
    bytesFromNewest codec (compactedFile codec maxLines file) = (codec.line newest).length + 1 := by
  obtain ⟨init, hinit⟩ := List.getLast?_eq_some_iff.mp (Option.mem_def.mp hnewest)
  have hread := readable_kept h maxLines newest (by rw [hinit]; simp)
  rw [compactedFile_eq h, hinit]
  exact bytesFromNewest_trajectoryLines hread

theorem compactTrajectoryFile_of_ne (hfile : store.file ≠ []) :
    compactTrajectoryFile codec maxLines store = { store with
          file := compactedFile codec maxLines store.file
          checkpoint := some (compactedCheckpoint codec maxLines store) } := by
  unfold compactTrajectoryFile
  exact if_neg hfile

theorem rewriteTrajectoryFile_of_ne (hfile : store.file ≠ []) :
    rewriteTrajectoryFile codec maxLines store
      = { store with file := compactedFile codec maxLines store.file } := by
  exact if_neg hfile

variable {seen : TrajectoryEntry}

theorem le_highestStep_compact (hfile : store.file ≠ [])
    (hseen : seen ∈ windowRecords codec store.file TRAJECTORY_LIMITS.compactMaxBytes) :
    seen.step ≤ (compactTrajectoryFile codec maxLines store).highestStep := by
  have hcollected := @collected_parsed codec store.file TRAJECTORY_LIMITS.compactMaxBytes
  have hmem : seen ∈ ((readTailBytes store.file TRAJECTORY_LIMITS.compactMaxBytes).parsed
      codec).entries := by
    rw [hcollected.entries]
    exact hseen
  rw [compactTrajectoryFile_of_ne hfile]
  show seen.step ≤ (compactedCheckpoint codec maxLines store).highestStep
  exact Int.le_trans (hcollected.atMost seen hmem) (Int.le_max_left _ _)

theorem file_compact (hfile : store.file ≠ []) :
    (compactTrajectoryFile codec maxLines store).file
      = compactedFile codec maxLines store.file := by
  rw [compactTrajectoryFile_of_ne hfile]

theorem checkpoint_compact (hfile : store.file ≠ []) :
    (compactTrajectoryFile codec maxLines store).checkpoint
      = some (compactedCheckpoint codec maxLines store) := by
  rw [compactTrajectoryFile_of_ne hfile]

theorem file_rewrite (hfile : store.file ≠ []) :
    (rewriteTrajectoryFile codec maxLines store).file
      = compactedFile codec maxLines store.file := by
  rw [rewriteTrajectoryFile_of_ne hfile]

theorem checkpoint_rewrite (hfile : store.file ≠ []) :
    (rewriteTrajectoryFile codec maxLines store).checkpoint = store.checkpoint := by
  rw [rewriteTrajectoryFile_of_ne hfile]

theorem discloses_compact (hfile : store.file ≠ []) (h : Framed codec store.file)
    (hloss : keptEntries codec maxLines store.file ≠ records codec store.file ∨ store.Discloses) :
    (compactTrajectoryFile codec maxLines store).Discloses := by
  unfold TrajectoryStore.Discloses
  rw [checkpoint_compact hfile, Option.map_some, Option.map_some, Option.getD_some,
    Option.getD_some]
  dsimp only [compactedCheckpoint]
  rcases hloss with hlost | hknown
  · have hbytes := bytes_dropped h hlost
    right
    omega
  · unfold TrajectoryStore.Discloses at hknown
    cases hcheckpoint : store.checkpoint with
    | none =>
      rw [hcheckpoint] at hknown
      exact absurd hknown (by simp)
    | some checkpoint =>
      rw [hcheckpoint] at hknown
      simp only [Option.map_some, Option.getD_some] at hknown ⊢
      omega

theorem StoredEntries.compact (h : StoredEntries codec store completed) (hfile : store.file ≠ []) :
    StoredEntries codec (compactTrajectoryFile codec maxLines store) completed := by
  refine ⟨?_, ?_, ?_⟩
  · rw [file_compact hfile]
    exact framed_compactedFile h.framed maxLines
  · rw [file_compact hfile, records_compactedFile h.framed]
    exact (keptEntries_suffix h.framed maxLines).trans h.suffix
  · rw [file_compact hfile, records_compactedFile h.framed]
    by_cases hloss : keptEntries codec maxLines store.file = records codec store.file
    · rw [hloss]
      exact h.disclosed.imp id fun hknown => discloses_compact hfile h.framed (Or.inr hknown)
    · exact Or.inr (discloses_compact hfile h.framed (Or.inl hloss))

theorem StoredEntries.rewrite (h : StoredEntries codec store completed) (hfile : store.file ≠ [])
    (hloss : keptEntries codec maxLines store.file = records codec store.file ∨ store.Discloses) :
    StoredEntries codec (rewriteTrajectoryFile codec maxLines store) completed := by
  refine ⟨?_, ?_, ?_⟩
  · rw [file_rewrite hfile]
    exact framed_compactedFile h.framed maxLines
  · rw [file_rewrite hfile, records_compactedFile h.framed]
    exact (keptEntries_suffix h.framed maxLines).trans h.suffix
  · unfold TrajectoryStore.Discloses
    rw [file_rewrite hfile, records_compactedFile h.framed, checkpoint_rewrite hfile]
    rcases hloss with hsame | hknown
    · rw [hsame]
      exact h.disclosed
    · exact Or.inr hknown

/-- The checkpoint of a compaction holds the newest step of its file. -/
theorem StoredEntries.held_compact (h : StoredEntries codec store completed)
    (hfile : store.file ≠ []) :
    NewestStepHeld codec (compactTrajectoryFile codec maxLines store) := by
  intro newest hlast
  rw [file_compact hfile, records_compactedFile h.framed] at hlast
  apply le_highestStep_compact hfile
  have hmem : newest ∈ keptEntries codec maxLines store.file := List.mem_of_getLast? hlast
  exact (kept_spec h.framed maxLines).suffix.subset hmem

theorem StoredEntries.newest_compactedFile (h : StoredEntries codec store completed)
    (hnewest : completed ≠ [] → records codec store.file ≠ [])
    (hfinds : FindsEntry codec store.file) (hne : completed ≠ []) :
    records codec (compactedFile codec maxLines store.file) ≠ [] := by
  rw [records_compactedFile h.framed]
  exact (kept_spec h.framed maxLines).some_ (windowRecords_of_findsEntry hfinds (hnewest hne))

theorem StoredNewest.congr {other : TrajectoryStore} (h : StoredNewest codec store completed)
    (hfile : other.file = store.file) (hcheckpoint : other.checkpoint = store.checkpoint) :
    StoredNewest codec other completed := by
  obtain ⟨file, checkpoint, sinceCheck⟩ := store
  obtain ⟨file', checkpoint', sinceCheck'⟩ := other
  have hfile' : file' = file := hfile
  have hcheckpoint' : checkpoint' = checkpoint := hcheckpoint
  rw [hfile', hcheckpoint']
  exact ⟨⟨h.framed, h.suffix, h.disclosed⟩, h.newest, h.known⟩

/-! ### The append -/

theorem file_ne_nil_of_earlyDue (h : earlyDue maxLines store = true) : store.file ≠ [] := by
  intro hnil
  rw [earlyDue, hnil, decide_eq_true_eq] at h
  exact Nat.not_lt_zero _ h

theorem StoredEntries.base (h : StoredEntries codec store completed) :
    StoredEntries codec (appendBase codec maxLines store) completed := by
  unfold appendBase
  split
  · rename_i hdue
    exact h.compact (file_ne_nil_of_earlyDue hdue)
  · exact h

theorem StoredEntries.reframe_base (h : StoredEntries codec store completed)
    (hopen : lastLine JsonLines.newline (appendBase codec maxLines store).file ≠ []) :
    reframe store.file = [JsonLines.newline] := by
  unfold appendBase at hopen
  split at hopen
  · rename_i hdue
    rw [file_compact (file_ne_nil_of_earlyDue hdue), lastLine_compactedFile h.framed] at hopen
    exact absurd rfl hopen
  · exact reframe_of_lastLine hopen

variable {call : TrajectoryCall}

theorem recordLands_of_oversize (h : isOversize codec call.entry = true) :
    recordLands codec store call = false := by
  rw [recordLands, h]
  rfl

theorem recordLands_of_short (h : isOversize codec entry = false) (ending : AppendEnd) :
    recordLands codec store ⟨entry, ending⟩ = endingLands codec store.file entry ending := by
  rw [recordLands, h]
  rfl

theorem length_line_lt (h : isOversize codec entry = false) :
    (codec.line entry).length < TRAJECTORY_LIMITS.stepReadMaxBytes := by
  rw [isOversize, decide_eq_false_iff_not, List.length_append, List.length_singleton] at h
  have hsame : TRAJECTORY_LIMITS.maxLineBytes = TRAJECTORY_LIMITS.stepReadMaxBytes := rfl
  omega

theorem StoredEntries.landed {base : TrajectoryStore} (h : StoredEntries codec base completed)
    {text : List UInt8} (hland : LandedBehind codec entry base.file text) :
    StoredEntries codec { base with file := text } (completed ++ [entry])
      ∧ records codec text ≠ [] := by
  have hrecords := hland.records
  refine ⟨⟨hland.framed, ?_, ?_⟩, ?_⟩
  · rw [hrecords]
    obtain ⟨front, hfront⟩ := h.suffix
    exact ⟨front, by rw [← hfront, List.append_assoc]⟩
  · rw [hrecords]
    exact h.disclosed.imp (fun hsame => by rw [hsame]) id
  · rw [hrecords]
    exact List.append_ne_nil_of_right_ne_nil _ (List.cons_ne_nil _ _)

theorem StoredEntries.written (h : StoredEntries codec store completed)
    (hshort : isOversize codec entry = false) :
    StoredEntries codec (appendWritten codec maxLines store entry) (completed ++ [entry])
      ∧ records codec (appendWritten codec maxLines store entry).file
        = records codec (appendBase codec maxLines store).file ++ [entry]
      ∧ bytesFromNewest codec (appendWritten codec maxLines store entry).file
        = (codec.line entry).length + 1 := by
  have hcases := append_cases (@StoredEntries.base _ maxLines _ _ h).framed
    (reframe_cases store.file)
    h.reframe_base hshort (framedLine codec store.file entry).length
  have htotal : (framedLine codec store.file entry).length
      = (reframe store.file).length + ((codec.line entry).length + 1) := by
    rw [framedLine_eq, List.length_append, List.length_append, List.length_singleton]
  rcases hcases with ⟨hless, -⟩ | ⟨hsame, -⟩ | ⟨-, hland, htext, hbytes⟩
  · omega
  · omega
  · rw [htext] at hland hbytes
    exact ⟨(h.base.landed hland).1, hland.records, hbytes⟩

theorem known_of_lineFits {text : List UInt8} {base : TrajectoryStore}
    (hrecords : records codec text = records codec base.file ++ [entry])
    (hbytes : bytesFromNewest codec text = (codec.line entry).length + 1)
    (hfits : entry.step ≤ base.highestStep
      ∨ InStepWindow text.length ((codec.line entry).length + 1)) :
    NewestStepHeld codec { base with file := text }
      ∨ InStepWindow text.length (bytesFromNewest codec text) := by
  rw [hbytes]
  refine hfits.imp ?_ id
  intro hheld newest hnewest
  have hlast : (records codec text).getLast? = some entry := by
    rw [hrecords, List.getLast?_concat]
  have hsame : newest ∈ (records codec text).getLast? := hnewest
  rw [hlast] at hsame
  rw [← Option.some.inj hsame]
  exact hheld

theorem findsEntry_written {text : List UInt8} (hshort : isOversize codec entry = false)
    (hbytes : bytesFromNewest codec text = (codec.line entry).length + 1) :
    FindsEntry codec text := by
  have hline := length_line_lt hshort
  have hlimits : TRAJECTORY_LIMITS.stepReadMaxBytes < TRAJECTORY_LIMITS.compactMaxBytes := by
    decide
  right
  right
  omega

theorem written_file_ne_nil {text : List UInt8}
    (hrecords : records codec text = records codec store.file ++ [entry]) : text ≠ [] := by
  intro hnil
  have hnone : records codec [] = [] := by
    rfl
  rw [hnil, hnone] at hrecords
  exact absurd hrecords.symm (List.append_ne_nil_of_right_ne_nil _ (List.cons_ne_nil _ _))

/-! ### The step, ending by ending -/

theorem StoredNewest.diesEarly (h : StoredNewest codec store completed)
    (hdue : earlyDue maxLines store = true) (hfinds : FindsEntry codec store.file)
    (hloss : keptEntries codec maxLines store.file = records codec store.file ∨ store.Discloses)
    (hfits : ∀ newest ∈ (records codec store.file).getLast?, newest.step ≤ store.highestStep
      ∨ InStepWindow (keptBytes (keptLines codec maxLines store.file))
          ((codec.line newest).length + 1)) :
    StoredNewest codec (rewriteTrajectoryFile codec maxLines store) completed := by
  have hfile := file_ne_nil_of_earlyDue hdue
  refine ⟨h.toStoredEntries.rewrite hfile hloss, ?_, ?_⟩
  · rw [file_rewrite hfile]
    exact h.toStoredEntries.newest_compactedFile h.newest hfinds
  · have hlast := getLast?_keptEntries h.framed maxLines hfinds
    cases hnewest : (records codec store.file).getLast? with
    | none =>
      left
      intro newest hmem
      rw [file_rewrite hfile, records_compactedFile h.framed, hlast, hnewest] at hmem
      cases hmem
    | some newest =>
      rw [hnewest] at hlast
      refine (hfits newest hnewest).imp ?_ ?_
      · intro hheld other hmem
        rw [file_rewrite hfile, records_compactedFile h.framed, hlast] at hmem
        rw [← Option.some.inj hmem]
        unfold TrajectoryStore.highestStep at hheld ⊢
        rw [checkpoint_rewrite hfile]
        exact hheld
      · intro hwindow
        rw [file_rewrite hfile, length_compactedFile h.framed,
          bytesFromNewest_compactedFile h.framed maxLines hlast]
        exact hwindow

theorem StoredNewest.torn (h : StoredNewest codec store completed) {text : List UInt8}
    {bytes : Nat} (htorn : TornBehind codec (appendBase codec maxLines store).file text)
    (hlength : text.length = (appendBase codec maxLines store).file.length + bytes)
    (hfits : if earlyDue maxLines store then FindsEntry codec store.file
      else NewestStepHeld codec store
        ∨ InStepWindow (store.file.length + bytes) (bytesFromNewest codec store.file + bytes)) :
    StoredNewest codec { appendBase codec maxLines store with file := text } completed := by
  have hbase := @StoredEntries.base _ maxLines _ _ h.toStoredEntries
  have hstored : StoredEntries codec { appendBase codec maxLines store with file := text }
    completed := by
    refine ⟨htorn.framed, ?_, ?_⟩
    · rw [htorn.records]
      exact hbase.suffix
    · rw [htorn.records]
      exact hbase.disclosed
  have hheldOf : NewestStepHeld codec (appendBase codec maxLines store) →
      NewestStepHeld codec { appendBase codec maxLines store with file := text } := by
    intro hheld newest hmem
    rw [htorn.records] at hmem
    exact hheld newest hmem
  by_cases hdue : earlyDue maxLines store = true
  · rw [if_pos hdue] at hfits
    have hfile := file_ne_nil_of_earlyDue hdue
    have hcompact : appendBase codec maxLines store
        = compactTrajectoryFile codec maxLines store := by
      exact if_pos hdue
    refine ⟨hstored, ?_, Or.inl (hheldOf ?_)⟩
    · intro hne
      rw [htorn.records, hcompact, file_compact hfile]
      exact h.toStoredEntries.newest_compactedFile h.newest hfits hne
    · rw [hcompact]
      exact h.toStoredEntries.held_compact hfile
  · rw [if_neg hdue] at hfits
    have hsame : appendBase codec maxLines store = store := by
      exact if_neg hdue
    have hbytes := htorn.bytes
    rw [hsame] at hbytes hlength
    refine ⟨hstored, ?_, ?_⟩
    · intro hne
      rw [htorn.records, hsame]
      exact h.newest hne
    · refine hfits.imp (fun hheld => hheldOf (by rw [hsame]; exact hheld)) fun hwindow => ?_
      have hfrom : bytesFromNewest codec text = bytesFromNewest codec store.file + bytes := by
        omega
      show InStepWindow text.length (bytesFromNewest codec text)
      rw [hfrom, hlength]
      exact hwindow

/-- The line check, up to its checkpoint or only up to its rewrite. -/
theorem StoredEntries.lateCompact (h : StoredEntries codec store completed)
    (hshort : isOversize codec entry = false) :
    StoredNewest codec
      (compactTrajectoryFile codec maxLines (appendWritten codec maxLines store entry))
      (completed ++ [entry]) := by
  obtain ⟨hstored, hrecords, hbytes⟩ := @StoredEntries.written _ maxLines _ _ _ h hshort
  have hfile := written_file_ne_nil hrecords
  have hsome : completed ++ [entry] ≠ [] →
      records codec (appendWritten codec maxLines store entry).file ≠ [] := by
    intro _
    rw [hrecords]
    exact List.append_ne_nil_of_right_ne_nil _ (List.cons_ne_nil _ _)
  refine ⟨hstored.compact hfile, ?_, Or.inl (hstored.held_compact hfile)⟩
  rw [file_compact hfile]
  exact hstored.newest_compactedFile hsome (findsEntry_written hshort hbytes)

theorem StoredEntries.lateRewrite (h : StoredEntries codec store completed)
    (hshort : isOversize codec entry = false)
    (hloss : keptEntries codec maxLines (appendWritten codec maxLines store entry).file
        = records codec (appendWritten codec maxLines store entry).file
      ∨ (appendBase codec maxLines store).Discloses)
    (hfits : entry.step ≤ (appendBase codec maxLines store).highestStep ∨ InStepWindow
          (keptBytes (keptLines codec maxLines (appendWritten codec maxLines store entry).file))
          ((codec.line entry).length + 1)) :
    StoredNewest codec
      (rewriteTrajectoryFile codec maxLines (appendWritten codec maxLines store entry))
      (completed ++ [entry]) := by
  obtain ⟨hstored, hrecords, hbytes⟩ := @StoredEntries.written _ maxLines _ _ _ h hshort
  have hfile := written_file_ne_nil hrecords
  have hfinds := findsEntry_written hshort hbytes
  have hsome : completed ++ [entry] ≠ [] →
      records codec (appendWritten codec maxLines store entry).file ≠ [] := by
    intro _
    rw [hrecords]
    exact List.append_ne_nil_of_right_ne_nil _ (List.cons_ne_nil _ _)
  have hlast : (keptEntries codec maxLines
      (appendWritten codec maxLines store entry).file).getLast? = some entry := by
    rw [getLast?_keptEntries hstored.framed maxLines hfinds, hrecords, List.getLast?_concat]
  refine ⟨hstored.rewrite hfile hloss, ?_, ?_⟩
  · rw [file_rewrite hfile]
    exact hstored.newest_compactedFile hsome hfinds
  · refine hfits.imp ?_ ?_
    · intro hheld newest hmem
      rw [file_rewrite hfile, records_compactedFile hstored.framed, hlast] at hmem
      rw [← Option.some.inj hmem]
      unfold TrajectoryStore.highestStep at hheld ⊢
      rw [checkpoint_rewrite hfile]
      exact hheld
    · intro hwindow
      rw [file_rewrite hfile, length_compactedFile hstored.framed,
        bytesFromNewest_compactedFile hstored.framed maxLines hlast]
      exact hwindow

theorem StoredEntries.lineFits (h : StoredEntries codec store completed)
    (hshort : isOversize codec entry = false) (hfits : LineFits codec maxLines store entry) :
    StoredNewest codec (appendWritten codec maxLines store entry) (completed ++ [entry]) := by
  obtain ⟨hstored, hrecords, hbytes⟩ := @StoredEntries.written _ maxLines _ _ _ h hshort
  refine ⟨hstored, ?_, known_of_lineFits hrecords hbytes hfits⟩
  intro _
  rw [hrecords]
  exact List.append_ne_nil_of_right_ne_nil _ (List.cons_ne_nil _ _)

theorem storedNewest_step {world : TrajectoryWorld}
    (h : StoredNewest codec world.store world.completed)
    (hsheltered : Sheltered codec maxLines world.store call) :
    StoredNewest codec (trajectoryStep codec maxLines world call).store
      (trajectoryStep codec maxLines world call).completed := by
  unfold trajectoryStep
  cases hshort : isOversize codec call.entry with
  | true =>
    rw [recordLands_of_oversize hshort]
    rw [appendTrajectoryEntry, hshort]
    exact h
  | false =>
    have hcall := hsheltered hshort
    obtain ⟨entry, ending⟩ := call
    replace hshort : isOversize codec entry = false := hshort
    rw [appendTrajectoryEntry, hshort, if_neg Bool.false_ne_true, recordLands_of_short hshort]
    cases ending with
    | returns =>
      dsimp only at hcall ⊢
      by_cases hlate : lateDue codec maxLines world.store entry = true
      · rw [if_pos hlate]
        exact (h.toStoredEntries.lateCompact hshort).congr rfl rfl
      · rw [if_neg hlate]
        exact (h.toStoredEntries.lineFits hshort (hcall.resolve_left hlate)).congr rfl rfl
    | diesUnwritten =>
      exact h.congr rfl rfl
    | diesEarly =>
      by_cases hdue : earlyDue maxLines world.store = true
      · rw [if_pos hdue]
        obtain ⟨hfinds, hloss, hfits⟩ := hcall hdue
        exact (h.diesEarly hdue hfinds hloss hfits).congr rfl rfl
      · rw [if_neg hdue]
        exact h.congr rfl rfl
    | diesWriting bytes =>
      have hlanded : endingLands codec world.store.file entry (.diesWriting bytes)
          = decide (landingBytes codec world.store.file entry ≤ bytes) := rfl
      rw [hlanded]
      dsimp only at hcall ⊢
      have hcases := append_cases (@StoredEntries.base _ maxLines _ _ h.toStoredEntries).framed
        (reframe_cases world.store.file) h.toStoredEntries.reframe_base hshort bytes
      have hlanding : landingBytes codec world.store.file entry
          = (reframe world.store.file).length + (codec.line entry).length := rfl
      rcases hcases with ⟨hless, htorn, hlength⟩ | ⟨hsame, hland, hbytes⟩
          | ⟨hmore, hland, htext, hbytes⟩
      · have hnot : ¬landingBytes codec world.store.file entry ≤ bytes := by omega
        rw [if_neg hnot] at hcall
        rw [decide_eq_false hnot, if_neg Bool.false_ne_true]
        exact (h.torn htorn hlength hcall).congr rfl rfl
      · have hwhole : landingBytes codec world.store.file entry ≤ bytes := by omega
        rw [decide_eq_true hwhole, if_pos rfl]
        obtain ⟨hstored, hsome⟩ := h.toStoredEntries.base.landed hland
        have hknown : InStepWindow
            ((appendBase codec maxLines world.store).file
              ++ (framedLine codec world.store.file entry).take bytes).length
            (bytesFromNewest codec ((appendBase codec maxLines world.store).file
              ++ (framedLine codec world.store.file entry).take bytes)) := by
          right
          rw [framedLine_eq, hbytes]
          exact length_line_lt hshort
        have hall : StoredNewest codec
            { appendBase codec maxLines world.store with
              file := (appendBase codec maxLines world.store).file
                ++ (framedLine codec world.store.file entry).take bytes }
            (world.completed ++ [entry]) := ⟨hstored, fun _ => hsome, Or.inr hknown⟩
        exact hall.congr rfl rfl
      · have hwhole : landingBytes codec world.store.file entry ≤ bytes := by omega
        rw [if_pos hwhole] at hcall
        rw [decide_eq_true hwhole, if_pos rfl]
        have hfits := hcall.resolve_left (by omega)
        have hfile : (appendBase codec maxLines world.store).file
            ++ (framedLine codec world.store.file entry).take bytes
            = (appendWritten codec maxLines world.store entry).file := htext
        exact (h.toStoredEntries.lineFits hshort hfits).congr hfile rfl
    | diesLate =>
      dsimp only at hcall ⊢
      by_cases hlate : lateDue codec maxLines world.store entry = true
      · rw [if_pos hlate] at hcall ⊢
        exact (h.toStoredEntries.lateRewrite hshort hcall.1 hcall.2).congr rfl rfl
      · rw [if_neg hlate] at hcall ⊢
        exact (h.toStoredEntries.lineFits hshort hcall).congr rfl rfl

/-! ## Reading -/

theorem validEntries_eq (store : TrajectoryStore) :
    validEntries codec store = records codec store.file := by
  dsimp only [validEntries, parseWindow]
  rw [splitOn_decodeUtf8, if_neg Bool.false_ne_true]
  exact (collected_foldl (store.file.splitOn JsonLines.newline)).entries

theorem highestStep_le_getCurrentStep (store : TrajectoryStore) :
    store.highestStep ≤ getCurrentStep codec store := by
  dsimp only [getCurrentStep, TrajectoryStore.highestStep]
  split <;> omega

theorem le_getCurrentStep
    (hseen : seen ∈ windowRecords codec store.file TRAJECTORY_LIMITS.stepReadMaxBytes) :
    seen.step ≤ getCurrentStep codec store := by
  have hcollected := @collected_parsed codec store.file TRAJECTORY_LIMITS.stepReadMaxBytes
  have hmax := hcollected.atMost seen (by rw [hcollected.entries]; exact hseen)
  have hbytes : 0 < store.file.length := by
    rw [List.length_pos_iff]
    intro hnil
    rw [hnil] at hseen
    cases hseen
  have htotal : (readTailBytes store.file TRAJECTORY_LIMITS.stepReadMaxBytes).totalBytes
      = store.file.length := rfl
  dsimp only [getCurrentStep]
  split
  · exact hmax
  · omega

theorem entries_discloseCoverage (tail : TailWindow) (parsed : ParsedWindow)
    (checkpoint : Option TrajectoryCheckpoint) :
    (discloseCoverage tail parsed checkpoint).entries = parsed.entries := rfl

theorem coverage_discloseCoverage {tail : TailWindow} {parsed : ParsedWindow}
    (h : (discloseCoverage tail parsed store.checkpoint).coverage = .complete) :
    tail.offset = 0 ∧ ¬store.Discloses := by
  dsimp only [discloseCoverage] at h
  split at h
  · cases h
  split at h
  · cases h
  rename_i hwhole
  refine ⟨by omega, fun hknown => hwhole (Or.inr ?_)⟩
  exact hknown

/-- A read that claims to be complete shows the file, and the checkpoint tells of no loss. -/
theorem coverage_complete (h : (readTrajectoryWithCoverage codec store).coverage = .complete) :
    (readTrajectoryWithCoverage codec store).entries = records codec store.file
      ∧ ¬store.Discloses := by
  unfold readTrajectoryWithCoverage at h ⊢
  obtain ⟨hoffset, hsilent⟩ := coverage_discloseCoverage h
  have hle : store.file.length ≤ TRAJECTORY_LIMITS.readMaxBytes := by
    have hwhole : store.file.length - TRAJECTORY_LIMITS.readMaxBytes = 0 := hoffset
    omega
  refine ⟨?_, hsilent⟩
  rw [entries_discloseCoverage, entries_parsed, windowRecords_of_le hle]

theorem StoredNewest.kept (h : StoredNewest codec store completed)
    (hascending : Ascending completed) : TrajectoryKept codec ⟨store, completed⟩ := by
  refine ⟨?_, ?_, ?_, ?_⟩
  · rw [validEntries_eq]
    exact h.suffix
  · intro hne
    rw [validEntries_eq]
    exact h.newest hne
  · intro entry hentry
    have hsome := h.newest (List.ne_nil_of_mem hentry)
    rcases h.known with hheld | hwindow
    · -- the checkpoint holds the newest step
      have hlast : (records codec store.file).getLast hsome
          ∈ (records codec store.file).getLast? := List.getLast?_eq_some_getLast hsome
      calc entry.step ≤ ((records codec store.file).getLast hsome).step :=
            le_newest hascending h.suffix hlast entry hentry
        _ ≤ store.highestStep := hheld _ hlast
        _ ≤ getCurrentStep codec store := highestStep_le_getCurrentStep store
    · -- the window shows the newest entry
      have hwindowSome := windowRecords_ne_nil hsome hwindow
      have hlast : (windowRecords codec store.file TRAJECTORY_LIMITS.stepReadMaxBytes).getLast
          hwindowSome ∈ (windowRecords codec store.file
            TRAJECTORY_LIMITS.stepReadMaxBytes).getLast? := List.getLast?_eq_some_getLast hwindowSome
      have hsuffix := (@windowRecords_suffix codec store.file
        TRAJECTORY_LIMITS.stepReadMaxBytes).trans h.suffix
      exact Int.le_trans (le_newest hascending hsuffix hlast entry hentry)
        (le_getCurrentStep (List.getLast_mem hwindowSome))
  · intro hcomplete entry hentry
    obtain ⟨hentries, hsilent⟩ := coverage_complete hcomplete
    rw [hentries, h.disclosed.resolve_right hsilent]
    exact hentry

/-! ## Every run -/

theorem completed_sublist (maxLines : Nat) (calls : List TrajectoryCall) :
    (calls.foldl (trajectoryStep codec maxLines) .start).completed.Sublist
      (calls.map TrajectoryCall.entry) := by
  induction calls using List.reverseRecOn with
  | nil => exact List.Sublist.refl _
  | append_singleton calls call ih =>
    rw [List.foldl_concat, List.map_append, List.map_singleton]
    unfold trajectoryStep
    split
    · exact ih.append (List.Sublist.refl _)
    · exact ih.trans (List.sublist_append_left _ _)

theorem storedNewest_start : StoredNewest codec TrajectoryStore.empty [] := by
  have hsplit : ([] : List UInt8).splitOn JsonLines.newline = [[]] := rfl
  have hnone : records codec [] = [] := by
    rfl
  refine ⟨⟨?_, ?_, Or.inl hnone⟩, fun hne => absurd rfl hne, Or.inl ?_⟩
  · intro piece hpiece entry hentry
    have hmem : piece ∈ ([] : List UInt8).splitOn JsonLines.newline := hpiece
    rw [hsplit] at hmem
    rw [List.mem_singleton.mp hmem, entryOf_nil] at hentry
    cases hentry
  · show records codec [] <:+ []
    exact hnone ▸ List.suffix_refl _
  · intro newest hnewest
    have hmem : newest ∈ (records codec []).getLast? := hnewest
    cases hmem

/-- In a run whose calls keep clear of the two defects, no step is reused and no loss is silent,
    wherever the run stands. -/
theorem trajectoryKept_of_run (codec : TrajectoryCodec) (maxLines : Nat)
    (calls : List TrajectoryCall) (hsteps : calls.Pairwise fun a b => a.entry.step < b.entry.step)
    (hsheltered : Along (trajectoryStep codec maxLines)
      (fun world call => Sheltered codec maxLines world.store call) .start calls) :
    ∀ reached, reached <+: calls →
      TrajectoryKept codec (reached.foldl (trajectoryStep codec maxLines) .start) := by
  intro reached hreached
  obtain ⟨rest, rfl⟩ := hreached
  have hbefore := (along_append.mp hsheltered).1
  have hstored : StoredNewest codec (reached.foldl (trajectoryStep codec maxLines) .start).store
      (reached.foldl (trajectoryStep codec maxLines) .start).completed := by
    have hrun := Run.of_foldl hbefore
    refine @Run.preserves _ _ _ (fun world => StoredNewest codec world.store world.completed)
      ?_ _ _ _ hrun storedNewest_start
    intro world call next hstep hstored
    rw [← hstep.1]
    exact storedNewest_step hstored hstep.2
  have hascending : Ascending
      (reached.foldl (trajectoryStep codec maxLines) .start).completed := by
    have hcalls := (List.pairwise_append.mp hsteps).1
    have hentries : Ascending (reached.map TrajectoryCall.entry) := List.pairwise_map.mpr hcalls
    exact hentries.sublist (completed_sublist maxLines reached)
  exact hstored.kept hascending

end Invariant

/-! ## Entries as JSON -/

def TrajectoryResult.text : TrajectoryResult → JsString
  | .success => js "success"
  | .failure => js "failure"
  | .pending => js "pending"

/-- The fields that are printed. -/
def TrajectoryEntry.fields (entry : TrajectoryEntry) : List (JsString × Json) :=
  [(js "step", .num entry.step), (js "agent", .str entry.agent),
    (js "action", .str entry.action), (js "target", .str entry.target),
    (js "intent", .str entry.intent), (js "timestamp", .str entry.timestamp),
    (js "result", .str entry.result.text)]

theorem TrajectoryResult.text_injective : Function.Injective TrajectoryResult.text := by
  intro a b h
  cases a <;> cases b <;> first | rfl | exact absurd h (by decide)

theorem TrajectoryEntry.fields_injective : Function.Injective TrajectoryEntry.fields := by
  intro a b h
  simp only [fields, List.cons.injEq, Prod.mk.injEq, true_and, and_true, Json.num.injEq,
    Json.str.injEq, TrajectoryResult.text_injective.eq_iff] at h
  cases a
  cases b
  simpa using h

/-- Trajectories as JSON lines: what was printed is read, and nothing else. -/
noncomputable def trajectoryCodec : TrajectoryCodec where
  toCodec := Codec.printed TrajectoryEntry.fields id TrajectoryEntry.fields_injective
  toValue_eq _ := rfl
  utf8Bytes_line entry := by
    have hline : (Codec.printed TrajectoryEntry.fields id
        TrajectoryEntry.fields_injective).line entry = (Json.obj entry.fields).bytes := rfl
    rw [hline, Json.decodeUtf8_bytes, Json.trim_obj]
    rfl

theorem quoteBody_replicate (n : Nat) : quoteBody (List.replicate n 0x61) = List.replicate n 0x61 := by
  induction n with
  | zero => rfl
  | succ n ih =>
    cases n with
    | zero => rfl
    | succ n =>
      rw [List.replicate_succ, List.replicate_succ, quoteBody]
      rw [List.replicate_succ] at ih
      rw [ih]
      rfl

theorem length_encodeUtf8Char {c : CodeUnit} (h : c.toNat < 0x80) :
    (encodeUtf8Char (Char.ofNat c.toNat)).length = 1 := by
  unfold encodeUtf8Char
  have hsame : (Char.ofNat c.toNat).toNat = c.toNat := toNat_charOfNat (Or.inl (by omega))
  rw [hsame, if_pos h]
  rfl

theorem byteLength_ascii {text : JsString} (h : ∀ c ∈ text, c.toNat < 0x80) :
    byteLength text = text.length := by
  have hplain : ∀ {c : CodeUnit}, c.toNat < 0x80 →
      isHighSurrogate c = false ∧ isLowSurrogate c = false := by
    intro c hc
    have hhigh := isHighSurrogate_iff c
    have hlow := isLowSurrogate_iff c
    exact ⟨Bool.eq_false_iff.mpr fun hh => by have := hhigh.mp hh; omega,
      Bool.eq_false_iff.mpr fun hl => by have := hlow.mp hl; omega⟩
  unfold byteLength utf8Bytes encodeUtf8
  induction text using characters.induct with
  | case1 => rfl
  | case2 c =>
    have hc := h c List.mem_cons_self
    obtain ⟨hhigh, hlow⟩ := hplain hc
    rw [characters, hhigh, hlow, Bool.or_false, if_neg Bool.false_ne_true, List.flatMap_singleton,
      length_encodeUtf8Char hc]
    rfl
  | case3 c d rest hpair ih =>
    obtain ⟨hhigh, -⟩ := hplain (h c List.mem_cons_self)
    rw [hhigh] at hpair
    exact absurd hpair Bool.false_ne_true
  | case4 c d rest hpair ih =>
    have hc := h c List.mem_cons_self
    obtain ⟨hhigh, hlow⟩ := hplain hc
    rw [characters, if_neg hpair, hhigh, hlow, Bool.or_false, if_neg Bool.false_ne_true,
      List.flatMap_cons, List.length_append, length_encodeUtf8Char hc,
      ih fun e he => h e (List.mem_cons_of_mem c he), Nat.add_comm]
    rfl

/-- An entry whose intent is so many units wide. -/
def wideEntry (step : Int) (width : Nat) : TrajectoryEntry :=
  ⟨step, [], [], [], List.replicate width 0x61, [], .success⟩

/-- What is printed before the intent. -/
def wideFront (step : Int) : JsString :=
  0x7B :: (joinComma (Json.stringifyFields [(js "step", .num step), (js "agent", .str []),
    (js "action", .str []), (js "target", .str [])]) ++ 0x2C :: (quote (js "intent") ++ [0x3A, 0x22]))

/-- What is printed behind it. -/
def wideBack : JsString :=
  0x22 :: 0x2C :: (joinComma (Json.stringifyFields [(js "timestamp", .str []),
    (js "result", .str (js "success"))]) ++ [0x7D])

theorem stringify_wideEntry (step : Int) (width : Nat) :
    (Json.obj (wideEntry step width).fields).stringify
      = wideFront step ++ (List.replicate width 0x61 ++ wideBack) := by
  unfold wideEntry TrajectoryEntry.fields wideFront wideBack
  simp only [Json.stringify, Json.stringifyFields, joinComma, quote, quoteBody_replicate]
  simp only [List.cons_append, List.append_assoc, List.nil_append]
  rfl

theorem length_line_wideEntry {step : Int}
    (hstep : ((wideFront step ++ wideBack).all fun c => decide (c.toNat < 0x80)) = true)
    (width : Nat) : (trajectoryCodec.line (wideEntry step width)).length
      = (wideFront step ++ wideBack).length + width := by
  have hline : trajectoryCodec.line (wideEntry step width)
      = utf8Bytes (Json.obj (wideEntry step width).fields).stringify := rfl
  have hascii : ∀ c ∈ (Json.obj (wideEntry step width).fields).stringify, c.toNat < 0x80 := by
    intro c hc
    rw [stringify_wideEntry] at hc
    have hends := fun hmem => of_decide_eq_true (List.all_eq_true.mp hstep c hmem)
    rcases List.mem_append.mp hc with hfront | hrest
    · exact hends (List.mem_append_left _ hfront)
    · rcases List.mem_append.mp hrest with hwide | hback
      · rw [List.eq_of_mem_replicate hwide]
        decide
      · exact hends (List.mem_append_right _ hback)
  have hlength := byteLength_ascii hascii
  unfold byteLength at hlength
  rw [hline, hlength, stringify_wideEntry]
  simp only [List.length_append, List.length_replicate]
  omega
/-! ## Two runs -/

section Runs

theorem append_returns_plain {codec : TrajectoryCodec} {maxLines : Nat} {store : TrajectoryStore}
    {entry : TrajectoryEntry} (hshort : isOversize codec entry = false)
    (hsmall : store.file.length ≤ TRAJECTORY_LIMITS.minSessionMaxBytes)
    (hcheck : store.sinceCheck + 1 < TRAJECTORY_LIMITS.checkIntervalAppends) :
    appendTrajectoryEntry codec maxLines store entry .returns = { store with
          file := store.file ++ framedLine codec store.file entry
          sinceCheck := store.sinceCheck + 1 } := by
  have hearly : earlyDue maxLines store = false := by
    have hlimit : TRAJECTORY_LIMITS.minSessionMaxBytes ≤ sessionMaxBytesFor maxLines :=
      Nat.le_max_left _ _
    unfold earlyDue
    exact decide_eq_false (by omega)
  have hlate : lateDue codec maxLines store entry = false := by
    dsimp only [lateDue]
    rw [decide_eq_false (Nat.not_le.mpr hcheck), Bool.false_and]
  have hbase : appendBase codec maxLines store = store := by
    rw [appendBase, hearly]
    rfl
  have hnext : nextCheck store.sinceCheck = store.sinceCheck + 1 := by
    unfold nextCheck
    exact if_neg (Nat.not_le.mpr hcheck)
  dsimp only [appendTrajectoryEntry]
  rw [hshort, hlate, hnext, if_neg Bool.false_ne_true, if_neg Bool.false_ne_true]
  rw [appendWritten, hbase]

theorem isOversize_wideEntry {step : Int} {width : Nat}
    (hlength : (trajectoryCodec.line (wideEntry step width)).length < 65536) :
    isOversize trajectoryCodec (wideEntry step width) = false := by
  have hlimit : TRAJECTORY_LIMITS.maxLineBytes = 65536 := rfl
  rw [isOversize, List.length_append, List.length_singleton]
  exact decide_eq_false (by omega)

theorem length_line_digit (step : Int) (hstep : step ∈ [1, 2, 3]) (width : Nat) :
    (trajectoryCodec.line (wideEntry step width)).length = 91 + width := by
  have hends : ∀ step ∈ [(1 : Int), 2, 3],
      ((wideFront step ++ wideBack).all fun c => decide (c.toNat < 0x80)) = true
        ∧ (wideFront step ++ wideBack).length = 91 := by decide +kernel
  obtain ⟨hascii, hparts⟩ := hends step hstep
  rw [length_line_wideEntry hascii, hparts]

/-- A file that holds one line. -/
noncomputable def oneLine (entry : TrajectoryEntry) : List UInt8 :=
  trajectoryCodec.line entry ++ [JsonLines.newline]

theorem framedLine_of_ended {file : List UInt8} (hended : lastLine JsonLines.newline file = [])
    (entry : TrajectoryEntry) :
    framedLine trajectoryCodec file entry = oneLine entry := by
  have hnone : needsReframe file = false := by
    rw [Bool.eq_false_iff]
    intro hneeded
    exact needsReframe_iff.mp hneeded hended
  rw [framedLine, hnone]
  rfl

theorem trajectoryStep_first {maxLines : Nat} {entry : TrajectoryEntry}
    (hshort : isOversize trajectoryCodec entry = false) :
    trajectoryStep trajectoryCodec maxLines .start ⟨entry, .returns⟩
      = ⟨⟨oneLine entry, none, 1⟩, [entry]⟩ := by
  have hplain := @append_returns_plain trajectoryCodec maxLines .empty entry hshort
    (Nat.zero_le _) (by decide)
  have hframed : framedLine trajectoryCodec TrajectoryStore.empty.file entry = oneLine entry :=
    framedLine_of_ended rfl entry
  have hlands : recordLands trajectoryCodec .empty ⟨entry, .returns⟩ = true :=
    recordLands_of_short hshort .returns
  have hstart : TrajectoryWorld.start = ⟨TrajectoryStore.empty, []⟩ := rfl
  rw [trajectoryStep, hstart]
  rw [hplain, hframed, hlands, if_pos rfl]
  rfl

theorem lastLine_oneLine (entry : TrajectoryEntry) :
    lastLine JsonLines.newline (oneLine entry) = [] :=
  @lastLine_append_sep _ _ JsonLines.newline [] _ (newline_notMem_line trajectoryCodec entry)

/-- Behind a first entry, one whose line fills the window of `getCurrentStep`. -/
def fullLineRun : List TrajectoryCall :=
  [⟨wideEntry 1 0, .returns⟩, ⟨wideEntry 2 65444, .returns⟩]

theorem fullLineRun_eq (maxLines : Nat) :
    fullLineRun.foldl (trajectoryStep trajectoryCodec maxLines) .start
      = ⟨⟨oneLine (wideEntry 1 0) ++ oneLine (wideEntry 2 65444), none, 2⟩,
          [wideEntry 1 0, wideEntry 2 65444]⟩ := by
  have hfirst : isOversize trajectoryCodec (wideEntry 1 0) = false :=
    isOversize_wideEntry (by rw [length_line_digit 1 (by decide)]; omega)
  have hsecond : isOversize trajectoryCodec (wideEntry 2 65444) = false :=
    isOversize_wideEntry (by rw [length_line_digit 2 (by decide)]; omega)
  obtain ⟨wide, hwide⟩ : ∃ wide, wideEntry 2 65444 = wide := ⟨_, rfl⟩
  have hlength : (oneLine (wideEntry 1 0)).length ≤ TRAJECTORY_LIMITS.minSessionMaxBytes := by
    have hlimit : TRAJECTORY_LIMITS.minSessionMaxBytes = 65536 := rfl
    rw [oneLine, List.length_append, length_line_digit 1 (by decide), List.length_singleton]
    omega
  have hplain := @append_returns_plain trajectoryCodec maxLines
    ⟨oneLine (wideEntry 1 0), none, 1⟩ wide (by rw [← hwide]; exact hsecond) hlength (by decide)
  have hlands : recordLands trajectoryCodec ⟨oneLine (wideEntry 1 0), none, 1⟩ ⟨wide, .returns⟩
      = true := recordLands_of_short (by rw [← hwide]; exact hsecond) .returns
  unfold fullLineRun
  rw [hwide, List.foldl_cons, List.foldl_cons, List.foldl_nil, trajectoryStep_first hfirst]
  rw [trajectoryStep, hplain, hlands, if_pos rfl, framedLine_of_ended (lastLine_oneLine _)]
  rfl

/-- An entry whose line is as long as the window of `getCurrentStep` begins where the window does,
    and its step is given out again. -/
theorem not_trajectoryKept_fullLine :
    ¬∀ (codec : TrajectoryCodec) (maxLines : Nat) (calls : List TrajectoryCall), 1 ≤ maxLines →
      calls.Pairwise (fun a b => a.entry.step < b.entry.step) →
      TrajectoryKept codec (calls.foldl (trajectoryStep codec maxLines) .start) := by
  intro h
  have hincreasing : fullLineRun.Pairwise fun a b => a.entry.step < b.entry.step := by
    refine List.Pairwise.cons ?_ (List.pairwise_singleton _ _)
    intro later hlater
    rw [List.mem_singleton.mp hlater]
    exact (by decide : (1 : Int) < 2)
  have hkept := h trajectoryCodec 1 fullLineRun (Nat.le_refl 1) hincreasing
  rw [fullLineRun_eq] at hkept
  obtain ⟨wide, hwide⟩ : ∃ wide, wideEntry 2 65444 = wide := ⟨_, rfl⟩
  have hstep : wide.step = 2 := by
    rw [← hwide]
    rfl
  have hlength : (oneLine wide).length = TRAJECTORY_LIMITS.stepReadMaxBytes := by
    rw [← hwide]
    rw [oneLine, List.length_append, length_line_digit 2 (by decide), List.length_singleton]
    rfl
  rw [hwide] at hkept
  have hle := hkept.steps wide (by simp)
  -- the window is the line, and the line is dropped as torn
  have hnone : windowRecords trajectoryCodec (oneLine (wideEntry 1 0) ++ oneLine wide)
      TRAJECTORY_LIMITS.stepReadMaxBytes = [] := by
    have hoffset : (oneLine (wideEntry 1 0) ++ oneLine wide).length
        - TRAJECTORY_LIMITS.stepReadMaxBytes = (oneLine (wideEntry 1 0)).length := by
      rw [List.length_append, hlength, Nat.add_sub_cancel]
    have hpositive : 0 < (oneLine (wideEntry 1 0)).length := by
      unfold oneLine
      simp
    have hsplit : (oneLine wide).splitOn JsonLines.newline = [trajectoryCodec.line wide, []] := by
      unfold oneLine
      rw [splitOn_append_sep, List.splitOn_eq_singleton (newline_notMem_line trajectoryCodec wide)]
      rfl
    unfold windowRecords windowPieces
    rw [hoffset, if_pos hpositive, List.drop_left, hsplit]
    show [[]].filterMap (entryOf trajectoryCodec) = []
    rfl
  have hzero : getCurrentStep trajectoryCodec
      ⟨oneLine (wideEntry 1 0) ++ oneLine wide, none, 2⟩ = 0 := by
    have hcollected := @collected_parsed trajectoryCodec
      (oneLine (wideEntry 1 0) ++ oneLine wide) TRAJECTORY_LIMITS.stepReadMaxBytes
    obtain ⟨parsed, hparsed⟩ : ∃ parsed,
        (readTailBytes (oneLine (wideEntry 1 0) ++ oneLine wide)
          TRAJECTORY_LIMITS.stepReadMaxBytes).parsed trajectoryCodec = parsed := ⟨_, rfl⟩
    rw [hparsed] at hcollected
    have hmax : parsed.maxStep = 0 := by
      rcases hcollected.some_ with hmax | ⟨entry, hentry, -⟩
      · exact hmax
      · have hentries : parsed.entries = [] := hcollected.entries.trans hnone
        rw [hentries] at hentry
        cases hentry
    dsimp only [getCurrentStep]
    rw [hparsed, hmax]
    simp
  have hbad : (2 : Int) ≤ 0 := by
    rw [← hstep, ← hzero]
    exact hle
  exact absurd hbad (by decide)

/-- An append whose line is shorter than the window, whatever it finds. -/
theorem sheltered_returns {maxLines : Nat} {store : TrajectoryStore} {entry : TrajectoryEntry}
    (hlength : (trajectoryCodec.line entry).length + 1 < TRAJECTORY_LIMITS.stepReadMaxBytes) :
    Sheltered trajectoryCodec maxLines store ⟨entry, .returns⟩ :=
  fun _ => Or.inr (Or.inr (Or.inr hlength))

/-- A torn append between two whole ones. -/
def tornRun : List TrajectoryCall :=
  [⟨wideEntry 1 0, .returns⟩, ⟨wideEntry 2 0, .diesWriting 10⟩, ⟨wideEntry 3 0, .returns⟩]

theorem sheltered_tornRun (maxLines : Nat) : Along (trajectoryStep trajectoryCodec maxLines)
    (fun world call => Sheltered trajectoryCodec maxLines world.store call) .start tornRun := by
  have hwindow : TRAJECTORY_LIMITS.stepReadMaxBytes = 65536 := rfl
  have hfirst : isOversize trajectoryCodec (wideEntry 1 0) = false :=
    isOversize_wideEntry (by rw [length_line_digit 1 (by decide)]; omega)
  refine ⟨sheltered_returns (by rw [length_line_digit 1 (by decide)]; omega), ?_,
    sheltered_returns (by rw [length_line_digit 3 (by decide)]; omega), trivial⟩
  rw [trajectoryStep_first hfirst]
  have hfile : (oneLine (wideEntry 1 0)).length = 92 := by
    rw [oneLine, List.length_append, length_line_digit 1 (by decide), List.length_singleton]
  have hnot : ¬landingBytes trajectoryCodec (oneLine (wideEntry 1 0)) (wideEntry 2 0) ≤ 10 := by
    rw [landingBytes, length_line_digit 2 (by decide)]
    omega
  have hearly : ¬earlyDue maxLines ⟨oneLine (wideEntry 1 0), none, 1⟩ = true := by
    have hlimit : TRAJECTORY_LIMITS.minSessionMaxBytes ≤ sessionMaxBytesFor maxLines :=
      Nat.le_max_left _ _
    have hmin : TRAJECTORY_LIMITS.minSessionMaxBytes = 65536 := rfl
    rw [earlyDue, decide_eq_true_eq, hfile]
    omega
  intro _
  dsimp only
  rw [if_neg hnot, if_neg hearly]
  refine Or.inr (Or.inl ?_)
  omega

/-- The run of a torn append is one of those that lose nothing. -/
theorem trajectoryKept_tornRun :
    TrajectoryKept trajectoryCodec (tornRun.foldl (trajectoryStep trajectoryCodec 1) .start) := by
  refine trajectoryKept_of_run trajectoryCodec 1 tornRun ?_ (sheltered_tornRun 1) tornRun
    (List.prefix_refl _)
  have hsteps : (tornRun.map fun call => call.entry.step).Pairwise (· < ·) := by decide
  exact List.pairwise_map.mp hsteps

end Runs

end OpencodeSwarm
