/-
  OpencodeSwarm.Prm.TrajectoryStore

  The session trajectory (`src/prm/trajectory-store.ts`): a file of one entry a
  line next to a checkpoint, both under the lock of the session.  Appending
  reframes a torn last line and keeps the file within its budgets; readers see a
  window at the end of the file.

  An absent file and an empty one are read alike.  A compaction replaces the file
  whole and writes the checkpoint behind it; an append may be torn anywhere.
-/
import OpencodeSwarm.Lib.JsonCodec

namespace OpencodeSwarm

open Js TextLines JsonLines

/-! ## Limits -/

def TRAJECTORY_LIMITS.checkIntervalAppends : Nat := 25

def TRAJECTORY_LIMITS.readMaxBytes : Nat := 1024 * 1024

def TRAJECTORY_LIMITS.stepReadMaxBytes : Nat := 64 * 1024

def TRAJECTORY_LIMITS.compactMaxBytes : Nat := 1024 * 1024

def TRAJECTORY_LIMITS.maxLineBytes : Nat := 64 * 1024

def TRAJECTORY_LIMITS.estimatedLineBytes : Nat := 512

def TRAJECTORY_LIMITS.minSessionMaxBytes : Nat := 64 * 1024

def sessionMaxBytesFor (maxLines : Nat) : Nat :=
  max TRAJECTORY_LIMITS.minSessionMaxBytes
    (max 1 maxLines * TRAJECTORY_LIMITS.estimatedLineBytes)

/-! ## Entries -/

/-- The outcome of an action. -/
inductive TrajectoryResult where
  | success
  | failure
  | pending
  deriving DecidableEq

structure TrajectoryEntry where
  step : Int
  agent : JsString
  action : JsString
  target : JsString
  intent : JsString
  timestamp : JsString
  result : TrajectoryResult
  deriving DecidableEq

/-- The bytes of a text. -/
def utf8Bytes (text : JsString) : List UInt8 := encodeUtf8 (characters text)

/-- `Buffer.byteLength(text, 'utf-8')`. -/
def byteLength (text : JsString) : Nat := (utf8Bytes text).length

/-- `JSON.stringify` of an entry, and `JSON.parse`: what was written is read back, and the text of
    a line has the bytes that were written. -/
structure TrajectoryCodec extends Codec TrajectoryEntry TrajectoryEntry where
  toValue_eq : ∀ entry, toValue entry = entry
  utf8Bytes_line : ∀ entry, utf8Bytes (trim (decodeUtf8 (line entry))) = line entry

/-! ## Windows -/

structure TailWindow where
  content : JsString
  offset : Nat
  totalBytes : Nat

def readTailBytes (file : List UInt8) (maxBytes : Nat) : TailWindow :=
  let offset := file.length - maxBytes
  { content := decodeUtf8 (file.drop offset), offset := offset, totalBytes := file.length }

structure ParsedWindow where
  entries : List TrajectoryEntry
  lines : List JsString
  skippedMalformed : Nat
  skippedOversize : Nat
  maxStep : Int

structure TrajectoryCheckpoint where
  highestStep : Int
  droppedEntries : Nat
  droppedBytes : Nat

inductive TrajectoryCoverage where
  | complete
  | truncated
  | empty
  deriving DecidableEq

structure TrajectoryReadWithCoverage where
  entries : List TrajectoryEntry
  coverage : TrajectoryCoverage
  droppedByCompaction : Nat
  skippedMalformed : Nat

/-- A session on disk, and how many appends of the process the line check is behind. -/
structure TrajectoryStore where
  file : List UInt8
  checkpoint : Option TrajectoryCheckpoint
  sinceCheck : Nat

def TrajectoryStore.empty : TrajectoryStore := ⟨[], none, 0⟩

section Store

variable (codec : TrajectoryCodec)

/-- One line of `parseWindow`. -/
def parseLine (parsed : ParsedWindow) (line : JsString) : ParsedWindow :=
  let trimmed := trim line
  if trimmed = [] then parsed
  else if TRAJECTORY_LIMITS.maxLineBytes < byteLength trimmed then
    { parsed with skippedOversize := parsed.skippedOversize + 1 }
  else
    match codec.parse trimmed with
    | some entry =>
      { parsed with
        entries := parsed.entries ++ [entry]
        lines := parsed.lines ++ [trimmed]
        maxStep := if parsed.maxStep < entry.step then entry.step else parsed.maxStep }
    | none => { parsed with skippedMalformed := parsed.skippedMalformed + 1 }

def parseWindow (content : JsString) (windowTruncated : Bool) : ParsedWindow :=
  let lines := content.splitOn newlineUnit
  (if windowTruncated then lines.tail else lines).foldl (parseLine codec) ⟨[], [], 0, 0, 0⟩

/-- A window, parsed. -/
def TailWindow.parsed (window : TailWindow) : ParsedWindow :=
  parseWindow codec window.content (decide (0 < window.offset))

/-! ## Compaction -/

/-- The newest `keepCount` lines. -/
def newestLines (keepCount : Nat) (lines : List JsString) : List JsString :=
  lines.drop (lines.length - keepCount)

/-- What lines take, each with its newline. -/
def keptBytes (lines : List JsString) : Nat := (lines.map fun line => byteLength line + 1).sum

/-- The oldest lines are shed while the rest is too large, down to one. -/
def shedOldest (limitBytes : Nat) : List JsString → List JsString
  | line :: next :: rest =>
    if limitBytes < keptBytes (line :: next :: rest) then shedOldest limitBytes (next :: rest)
    else line :: next :: rest
  | lines => lines

/-- The lines that `compactTrajectoryFile` keeps. -/
def keptLines (maxLines : Nat) (file : List UInt8) : List JsString :=
  let parsed := (readTailBytes file TRAJECTORY_LIMITS.compactMaxBytes).parsed codec
  shedOldest (sessionMaxBytesFor maxLines)
    (newestLines (max 1 (max 1 maxLines / 2)) parsed.lines)

/-- The file that `compactTrajectoryFile` writes. -/
def compactedFile (maxLines : Nat) (file : List UInt8) : List UInt8 :=
  unlines JsonLines.newline ((keptLines codec maxLines file).map utf8Bytes)

/-- The checkpoint that `compactTrajectoryFile` writes. -/
def compactedCheckpoint (maxLines : Nat) (store : TrajectoryStore) : TrajectoryCheckpoint :=
  let parsed := (readTailBytes store.file TRAJECTORY_LIMITS.compactMaxBytes).parsed codec
  let kept := keptLines codec maxLines store.file
  let previous := store.checkpoint.getD ⟨0, 0, 0⟩
  let dropped :=
    parsed.entries.length + parsed.skippedMalformed + parsed.skippedOversize - kept.length
  { highestStep := max parsed.maxStep previous.highestStep
    droppedEntries := previous.droppedEntries + dropped
    droppedBytes := previous.droppedBytes + (store.file.length - keptBytes kept) }

/-- `compactTrajectoryFile`, up to its rewrite. -/
def rewriteTrajectoryFile (maxLines : Nat) (store : TrajectoryStore) : TrajectoryStore :=
  if store.file = [] then store
  else { store with file := compactedFile codec maxLines store.file }

def compactTrajectoryFile (maxLines : Nat) (store : TrajectoryStore) : TrajectoryStore :=
  if store.file = [] then store
  else
    { store with
      file := compactedFile codec maxLines store.file
      checkpoint := some (compactedCheckpoint codec maxLines store) }

/-! ## Appending -/

/-- How an append ends: it returns, or the process dies before it writes anything, behind the
    rewrite of the compaction before the append, with so many bytes of the append written, or
    behind the rewrite of the compaction after it. -/
inductive AppendEnd where
  | returns
  | diesUnwritten
  | diesEarly
  | diesWriting (bytes : Nat)
  | diesLate

/-- The last byte is no newline. -/
def needsReframe (file : List UInt8) : Bool :=
  let tail := readTailBytes file 1
  decide (0 < tail.totalBytes) && decide (tail.content ≠ [newlineUnit])

/-- The bytes that are appended. -/
def framedLine (file : List UInt8) (entry : TrajectoryEntry) : List UInt8 :=
  (if needsReframe file then [JsonLines.newline] else [])
    ++ (codec.line entry ++ [JsonLines.newline])

/-- The line is too long to be appended. -/
def isOversize (entry : TrajectoryEntry) : Bool :=
  decide (TRAJECTORY_LIMITS.maxLineBytes < (codec.line entry ++ [JsonLines.newline]).length)

/-- The byte ceiling is exceeded before the append. -/
def earlyDue (maxLines : Nat) (store : TrajectoryStore) : Bool :=
  decide (sessionMaxBytesFor maxLines < store.file.length)

/-- The store that the append finds. -/
def appendBase (maxLines : Nat) (store : TrajectoryStore) : TrajectoryStore :=
  if earlyDue maxLines store then compactTrajectoryFile codec maxLines store else store

/-- The store behind the append, before the line check. -/
def appendWritten (maxLines : Nat) (store : TrajectoryStore) (entry : TrajectoryEntry) :
    TrajectoryStore :=
  let base := appendBase codec maxLines store
  { base with file := base.file ++ framedLine codec store.file entry }

/-- The line check is due, and finds a file beyond its window or too many lines. -/
def lateDue (maxLines : Nat) (store : TrajectoryStore) (entry : TrajectoryEntry) : Bool :=
  let window :=
    readTailBytes (appendWritten codec maxLines store entry).file TRAJECTORY_LIMITS.readMaxBytes
  decide (TRAJECTORY_LIMITS.checkIntervalAppends ≤ store.sinceCheck + 1)
    && (decide (0 < window.offset) || decide (maxLines < (window.parsed codec).entries.length))

/-- A process that starts anew. -/
def TrajectoryStore.restarted (store : TrajectoryStore) : TrajectoryStore :=
  { store with sinceCheck := 0 }

/-- The counter behind an append. -/
def nextCheck (sinceCheck : Nat) : Nat :=
  if TRAJECTORY_LIMITS.checkIntervalAppends ≤ sinceCheck + 1 then 0 else sinceCheck + 1

/-- An append with the compactions around it, however it ends. -/
def appendTrajectoryEntry (maxLines : Nat) (store : TrajectoryStore) (entry : TrajectoryEntry)
    (ending : AppendEnd) : TrajectoryStore :=
  if isOversize codec entry then store
  else
    let base := appendBase codec maxLines store
    let written := appendWritten codec maxLines store entry
    match ending with
    | .returns =>
      let checked :=
        if lateDue codec maxLines store entry then compactTrajectoryFile codec maxLines written
        else written
      { checked with sinceCheck := nextCheck store.sinceCheck }
    | .diesUnwritten => store.restarted
    | .diesEarly =>
      (if earlyDue maxLines store then rewriteTrajectoryFile codec maxLines store
        else store).restarted
    | .diesWriting bytes =>
      { base with file := base.file ++ (framedLine codec store.file entry).take bytes }.restarted
    | .diesLate =>
      (if lateDue codec maxLines store entry then rewriteTrajectoryFile codec maxLines written
        else written).restarted

/-! ## Reading -/

/-- What `readTrajectoryWithCoverage` makes of a window and the checkpoint. -/
def discloseCoverage (tail : TailWindow) (parsed : ParsedWindow)
    (checkpoint : Option TrajectoryCheckpoint) : TrajectoryReadWithCoverage :=
  let dropped := (checkpoint.map (·.droppedEntries)).getD 0
  let droppedBytes := (checkpoint.map (·.droppedBytes)).getD 0
  { entries := parsed.entries
    coverage :=
      if parsed.entries.length = 0 ∧ tail.totalBytes = 0 then .empty
      else if 0 < tail.offset ∨ 0 < dropped ∨ 0 < droppedBytes then .truncated
      else .complete
    droppedByCompaction := dropped
    skippedMalformed := parsed.skippedMalformed + parsed.skippedOversize }

def readTrajectoryWithCoverage (store : TrajectoryStore) : TrajectoryReadWithCoverage :=
  let tail := readTailBytes store.file TRAJECTORY_LIMITS.readMaxBytes
  discloseCoverage tail (tail.parsed codec) store.checkpoint

def getCurrentStep (store : TrajectoryStore) : Int :=
  let maxStep := (store.checkpoint.map (·.highestStep)).getD 0
  let tail := readTailBytes store.file TRAJECTORY_LIMITS.stepReadMaxBytes
  let parsed := tail.parsed codec
  if 0 < tail.totalBytes ∧ maxStep < parsed.maxStep then parsed.maxStep else maxStep

end Store

/-! ## Lines -/

section Lines

variable {codec : TrajectoryCodec}

/-- What a line of a file is read as. -/
def entryOf (codec : TrajectoryCodec) (piece : List UInt8) : Option TrajectoryEntry :=
  let trimmed := trim (decodeUtf8 piece)
  if trimmed = [] ∨ TRAJECTORY_LIMITS.maxLineBytes < byteLength trimmed then none
  else codec.parse trimmed

/-- The entries of a file. -/
def records (codec : TrajectoryCodec) (file : List UInt8) : List TrajectoryEntry :=
  (file.splitOn JsonLines.newline).filterMap (entryOf codec)

/-- The lines of a window. -/
def windowPieces (file : List UInt8) (maxBytes : Nat) : List (List UInt8) :=
  let pieces := (file.drop (file.length - maxBytes)).splitOn JsonLines.newline
  if 0 < file.length - maxBytes then pieces.tail else pieces

/-- The entries of a window. -/
def windowRecords (codec : TrajectoryCodec) (file : List UInt8) (maxBytes : Nat) :
    List TrajectoryEntry :=
  (windowPieces file maxBytes).filterMap (entryOf codec)

/-- What a line is read as, next to its text. -/
def textOf (codec : TrajectoryCodec) (piece : List UInt8) : Option JsString :=
  (entryOf codec piece).map fun _ => trim (decodeUtf8 piece)

theorem filterMap_concat {α β : Type*} (f : α → Option β) (front : List α) (last : α) :
    (front ++ [last]).filterMap f = front.filterMap f ++ (f last).toList := by
  cases h : f last <;> simp [h]

/-- What parsing has collected, line by line. -/
structure Collected (codec : TrajectoryCodec) (pieces : List (List UInt8)) (parsed : ParsedWindow) :
    Prop where
  entries : parsed.entries = pieces.filterMap (entryOf codec)
  lines : parsed.lines = pieces.filterMap (textOf codec)
  atMost : ∀ entry ∈ parsed.entries, entry.step ≤ parsed.maxStep
  some_ : parsed.maxStep = 0 ∨ ∃ entry ∈ parsed.entries, parsed.maxStep = entry.step

variable {pieces : List (List UInt8)}

theorem parseLine_collected {parsed : ParsedWindow} (h : Collected codec pieces parsed)
    (piece : List UInt8) :
    Collected codec (pieces ++ [piece]) (parseLine codec parsed (decodeUtf8 piece)) := by
  have hskip : entryOf codec piece = none → ∀ parsed' : ParsedWindow,
      parsed'.entries = parsed.entries → parsed'.lines = parsed.lines →
      parsed'.maxStep = parsed.maxStep → Collected codec (pieces ++ [piece]) parsed' := by
    intro hnone parsed' hentries hlines hmax
    have htext : textOf codec piece = none := by
      rw [textOf, hnone]
      rfl
    constructor
    · rw [hentries, h.entries, filterMap_concat, hnone]
      exact (List.append_nil _).symm
    · rw [hlines, h.lines, filterMap_concat, htext]
      exact (List.append_nil _).symm
    · rw [hentries, hmax]
      exact h.atMost
    · rw [hentries, hmax]
      exact h.some_
  dsimp only [parseLine]
  split
  · rename_i hblank
    apply hskip
    · exact if_pos (Or.inl hblank)
    all_goals rfl
  · rename_i hblank
    split
    · rename_i hlong
      apply hskip
      · exact if_pos (Or.inr hlong)
      all_goals rfl
    · rename_i hlong
      have hentry : entryOf codec piece = codec.parse (trim (decodeUtf8 piece)) := by
        exact if_neg (fun hor => hor.elim hblank hlong)
      split
      · rename_i entry hparse
        rw [hparse] at hentry
        have htext : textOf codec piece = some (trim (decodeUtf8 piece)) := by
          rw [textOf, hentry]
          rfl
        constructor
        · rw [filterMap_concat, hentry, ← h.entries]
          rfl
        · rw [filterMap_concat, htext, ← h.lines]
          rfl
        · intro other hother
          dsimp only
          rcases List.mem_append.mp hother with hold | hnew
          · have hle := h.atMost other hold
            split <;> omega
          · rw [List.mem_singleton.mp hnew]
            split <;> omega
        · split
          · exact Or.inr ⟨entry, by simp, rfl⟩
          rcases h.some_ with hzero | ⟨other, hother, hmax⟩
          · exact Or.inl hzero
          · exact Or.inr ⟨other, List.mem_append_left _ hother, hmax⟩
      · rename_i hparse
        rw [hparse] at hentry
        exact hskip hentry _ rfl rfl rfl

theorem collected_foldl (pieces : List (List UInt8)) :
    Collected codec pieces ((pieces.map decodeUtf8).foldl (parseLine codec) ⟨[], [], 0, 0, 0⟩) := by
  induction pieces using List.reverseRecOn with
  | nil => exact ⟨rfl, rfl, fun _ h => (nomatch h), Or.inl rfl⟩
  | append_singleton pieces piece ih =>
    rw [List.map_append, List.map_singleton, List.foldl_concat]
    exact parseLine_collected ih piece

theorem collected_parsed (file : List UInt8) (maxBytes : Nat) :
    Collected codec (windowPieces file maxBytes) ((readTailBytes file maxBytes).parsed codec) := by
  dsimp only [windowPieces, TailWindow.parsed, parseWindow, readTailBytes]
  rw [splitOn_decodeUtf8]
  by_cases hcut : 0 < file.length - maxBytes
  · rw [if_pos hcut, decide_eq_true hcut, if_pos rfl, ← List.map_tail]
    exact collected_foldl _
  · rw [if_neg hcut, decide_eq_false hcut, if_neg Bool.false_ne_true]
    exact collected_foldl _

theorem entries_parsed (file : List UInt8) (maxBytes : Nat) :
    ((readTailBytes file maxBytes).parsed codec).entries = windowRecords codec file maxBytes :=
  (collected_parsed file maxBytes).entries

/-! ## Windows and files -/

theorem splitOn_append_sep (front back : List UInt8) :
    (front ++ JsonLines.newline :: back).splitOn JsonLines.newline
      = front.splitOn JsonLines.newline ++ back.splitOn JsonLines.newline := by
  obtain ⟨lines, tail, rfl, hlines, htail⟩ := exists_unlines JsonLines.newline front
  obtain ⟨later, rest, rfl, hlater, hrest⟩ := exists_unlines JsonLines.newline back
  have hall : ∀ line ∈ lines ++ [tail] ++ later, JsonLines.newline ∉ line := by
    intro line hline
    rcases List.mem_append.mp hline with hfront | hback
    · rcases List.mem_append.mp hfront with hin | hlast
      · exact hlines line hin
      · rw [List.mem_singleton.mp hlast]
        exact htail
    · exact hlater line hback
  have hshape : unlines JsonLines.newline lines ++ tail
      ++ JsonLines.newline :: (unlines JsonLines.newline later ++ rest)
      = unlines JsonLines.newline (lines ++ [tail] ++ later) ++ rest := by
    unfold unlines
    simp
  rw [hshape, splitOn_unlines_append hall hrest, splitOn_unlines_append hlines htail,
    splitOn_unlines_append hlater hrest]
  simp

/-- Behind its first line, a later part of the file has the lines of the file. -/
theorem tail_splitOn_suffix (front back : List UInt8) :
    (back.splitOn JsonLines.newline).tail <:+ (front ++ back).splitOn JsonLines.newline := by
  by_cases hmem : JsonLines.newline ∈ back
  · obtain ⟨first, rest, rfl, hfirst⟩ := List.eq_append_cons_of_mem hmem
    rw [← List.append_assoc, splitOn_append_sep, splitOn_append_sep,
      List.splitOn_eq_singleton hfirst]
    exact List.suffix_append _ _
  · rw [List.splitOn_eq_singleton hmem]
    exact List.nil_suffix

theorem windowPieces_suffix (file : List UInt8) (maxBytes : Nat) :
    windowPieces file maxBytes <:+ file.splitOn JsonLines.newline := by
  unfold windowPieces
  split
  · have hsuffix := tail_splitOn_suffix (file.take (file.length - maxBytes))
      (file.drop (file.length - maxBytes))
    rwa [List.take_append_drop] at hsuffix
  · rename_i hcut
    rw [Nat.eq_zero_of_not_pos hcut]
    exact List.suffix_refl _

theorem windowRecords_suffix (file : List UInt8) (maxBytes : Nat) :
    windowRecords codec file maxBytes <:+ records codec file :=
  (windowPieces_suffix file maxBytes).filterMap (entryOf codec)

variable {file : List UInt8} {maxBytes : Nat}

theorem windowRecords_of_le (h : file.length ≤ maxBytes) :
    windowRecords codec file maxBytes = records codec file := by
  unfold windowRecords windowPieces
  rw [Nat.sub_eq_zero_of_le h, if_neg (Nat.lt_irrefl 0)]
  rfl

/-- The bytes that lines take, each with its newline. -/
def linesBytes (pieces : List (List UInt8)) : Nat := (pieces.map fun piece => piece.length + 1).sum

theorem linesBytes_append (pieces later : List (List UInt8)) :
    linesBytes (pieces ++ later) = linesBytes pieces + linesBytes later := by
  unfold linesBytes
  rw [List.map_append, List.sum_append]

theorem unlines_bytes (pieces : List (List UInt8)) :
    (unlines JsonLines.newline pieces).length = linesBytes pieces := by
  unfold unlines linesBytes
  simp

theorem exists_end {front back : List (List UInt8)}
    (h : file.splitOn JsonLines.newline = front ++ back) (hback : back ≠ []) :
    ∃ rest, file = unlines JsonLines.newline front ++ rest
      ∧ rest.splitOn JsonLines.newline = back ∧ rest.length + 1 = linesBytes back := by
  obtain ⟨lines, tail, rfl, hlines, htail⟩ := exists_unlines JsonLines.newline file
  rw [splitOn_unlines_append hlines htail] at h
  obtain ⟨before, last, rfl⟩ : ∃ before last, back = before ++ [last] :=
    ⟨back.dropLast, back.getLast hback, (List.dropLast_append_getLast hback).symm⟩
  rw [← List.append_assoc] at h
  obtain ⟨rfl, hlast⟩ := List.append_inj' h rfl
  rw [List.singleton_inj.mp hlast] at htail ⊢
  refine ⟨unlines JsonLines.newline before ++ last, ?_, ?_, ?_⟩
  · rw [unlines_append, List.append_assoc]
  · exact splitOn_unlines_append (fun line hline => hlines line (List.mem_append_right _ hline)) htail
  · rw [List.length_append, unlines_bytes, linesBytes_append]
    unfold linesBytes
    simp
    omega

theorem splitOn_ne_nil' (file : List UInt8) : file.splitOn JsonLines.newline ≠ [] := by
  rw [splitOn_eq]
  exact List.append_ne_nil_of_right_ne_nil _ (List.cons_ne_nil _ _)

theorem length_add_one (file : List UInt8) :
    file.length + 1 = linesBytes (file.splitOn JsonLines.newline) := by
  obtain ⟨rest, hfile, -, hlength⟩ := exists_end (List.nil_append _).symm (splitOn_ne_nil' file)
  have hsame : file = rest := hfile
  rw [← hlength, hsame]

/-- The bytes from the newest entry on; the lines are given from the newest on. -/
def bytesBack (codec : TrajectoryCodec) : List (List UInt8) → Nat
  | [] => 0
  | piece :: older =>
    if (entryOf codec piece).isSome then piece.length else piece.length + 1 + bytesBack codec older

/-- The bytes from the newest entry to the end of the file. -/
def bytesFromNewest (codec : TrajectoryCodec) (file : List UInt8) : Nat :=
  bytesBack codec (file.splitOn JsonLines.newline).reverse

theorem exists_newest_line (h : pieces.filterMap (entryOf codec) ≠ []) :
    ∃ front piece entry back, pieces = front ++ piece :: back ∧ entryOf codec piece = some entry
      ∧ (∀ later ∈ back, entryOf codec later = none)
      ∧ bytesBack codec pieces.reverse + 1 = linesBytes (piece :: back) := by
  induction pieces using List.reverseRecOn with
  | nil => exact absurd rfl h
  | append_singleton pieces last ih =>
    have hback : ∀ older, bytesBack codec (last :: older)
        = if (entryOf codec last).isSome then last.length
          else last.length + 1 + bytesBack codec older := fun older => rfl
    rw [List.reverse_append, List.reverse_singleton, List.singleton_append, hback]
    cases hlast : entryOf codec last with
    | some entry =>
      refine ⟨pieces, last, entry, [], rfl, hlast, fun later hlater => (nomatch hlater), ?_⟩
      unfold linesBytes
      simp
    | none =>
      rw [filterMap_concat, hlast, Option.toList_none, List.append_nil] at h
      obtain ⟨front, piece, entry, back, hpieces, hentry, hnone, hbytes⟩ := ih h
      refine ⟨front, piece, entry, back ++ [last], ?_, hentry, ?_, ?_⟩
      · rw [hpieces]
        simp
      · intro later hlater
        rcases List.mem_append.mp hlater with hin | hend
        · exact hnone later hin
        · rw [List.mem_singleton.mp hend]
          exact hlast
      · have hone : linesBytes [last] = last.length + 1 := by
          unfold linesBytes
          simp
        rw [if_neg (by simp), ← List.cons_append, linesBytes_append, ← hbytes, hone]
        omega

theorem windowRecords_ne_nil (hsome : records codec file ≠ [])
    (h : file.length ≤ maxBytes ∨ bytesFromNewest codec file < maxBytes) :
    windowRecords codec file maxBytes ≠ [] := by
  by_cases hle : file.length ≤ maxBytes
  · rw [windowRecords_of_le hle]
    exact hsome
  · have hbytes := h.resolve_left hle
    obtain ⟨front, piece, entry, back, hpieces, hentry, -, hcount⟩ := exists_newest_line hsome
    obtain ⟨rest, hfile, hrest, hlength⟩ := exists_end hpieces (List.cons_ne_nil piece back)
    have hbound : rest.length < maxBytes := by
      unfold bytesFromNewest at hbytes
      omega
    -- the window begins before a newline that the entry stands behind
    have htotal : file.length = (unlines JsonLines.newline front).length + rest.length := by
      rw [hfile, List.length_append]
    obtain ⟨before, hbefore⟩ : ∃ before, unlines JsonLines.newline front
        = before ++ [JsonLines.newline] := by
      rcases List.eq_nil_or_concat front with rfl | ⟨lines, last, rfl⟩
      · have hzero : (unlines JsonLines.newline ([] : List (List UInt8))).length = 0 := rfl
        omega
      · refine ⟨unlines JsonLines.newline lines ++ last, ?_⟩
        unfold unlines
        simp
    have hoffset : file.length - maxBytes ≤ before.length := by
      have hcount' := congrArg List.length hbefore
      rw [List.length_append, List.length_singleton] at hcount'
      omega
    have hshape : file = before ++ JsonLines.newline :: rest := by
      rw [hfile, hbefore, List.append_assoc]
      rfl
    have hcut : 0 < file.length - maxBytes := by omega
    have hpieces' : windowPieces file maxBytes
        = ((before.drop (file.length - maxBytes)).splitOn JsonLines.newline).tail
          ++ piece :: back := by
      obtain ⟨offset, hoff⟩ : ∃ offset, file.length - maxBytes = offset := ⟨_, rfl⟩
      unfold windowPieces
      rw [hoff] at hcut hoffset ⊢
      rw [if_pos hcut, hshape, List.drop_append_of_le_length hoffset, splitOn_append_sep, hrest,
        List.tail_append_of_ne_nil (splitOn_ne_nil' _)]
    have hmem : entry ∈ windowRecords codec file maxBytes := by
      rw [windowRecords, hpieces', List.mem_filterMap]
      exact ⟨piece, by simp, hentry⟩
    exact List.ne_nil_of_mem hmem

end Lines

end OpencodeSwarm
