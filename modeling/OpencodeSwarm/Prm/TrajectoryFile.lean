/-
  OpencodeSwarm.Prm.TrajectoryFile

  What a compaction and an append make of a trajectory file, in entries and in
  bytes.  Every line of a file is one that was written whole, or one that no
  reader takes for an entry.
-/
import OpencodeSwarm.Prm.TrajectoryStore

namespace OpencodeSwarm

open Js TextLines JsonLines

variable {codec : TrajectoryCodec} {file : List UInt8} {entry : TrajectoryEntry}

/-- A line that is read as an entry is the line of that entry. -/
def FramedLines (codec : TrajectoryCodec) (pieces : List (List UInt8)) : Prop :=
  ∀ piece ∈ pieces, ∀ entry, entryOf codec piece = some entry → piece = codec.line entry

def Framed (codec : TrajectoryCodec) (file : List UInt8) : Prop :=
  FramedLines codec (file.splitOn JsonLines.newline)

/-- The text of an entry's line. -/
def lineText (codec : TrajectoryCodec) (entry : TrajectoryEntry) : JsString :=
  trim (decodeUtf8 (codec.line entry))

theorem utf8Bytes_lineText (codec : TrajectoryCodec) (entry : TrajectoryEntry) :
    utf8Bytes (lineText codec entry) = codec.line entry :=
  codec.utf8Bytes_line entry

theorem byteLength_lineText (codec : TrajectoryCodec) (entry : TrajectoryEntry) :
    byteLength (lineText codec entry) = (codec.line entry).length := by
  rw [byteLength, utf8Bytes_lineText]

theorem parse_lineText (codec : TrajectoryCodec) (entry : TrajectoryEntry) :
    codec.parse (lineText codec entry) = some entry := by
  have hparse := codec.parse_line entry
  rw [codec.toValue_eq] at hparse
  exact hparse

/-! ## Single lines -/

theorem entryOf_nil : entryOf codec [] = none := by
  unfold entryOf
  exact if_pos (Or.inl rfl)

theorem entryOf_line (h : isOversize codec entry = false) :
    entryOf codec (codec.line entry) = some entry := by
  have hshort : ¬TRAJECTORY_LIMITS.maxLineBytes < byteLength (lineText codec entry) := by
    rw [byteLength_lineText]
    rw [isOversize, decide_eq_false_iff_not, List.length_append, List.length_singleton] at h
    omega
  rw [entryOf, if_neg]
  · exact parse_lineText codec entry
  · exact fun hor => hor.elim (codec.notBlank entry) hshort

theorem entryOf_cut {part : List UInt8} (h : part <+: codec.line entry)
    (hcut : part ≠ codec.line entry) : entryOf codec part = none := by
  dsimp only [entryOf]
  split
  · rfl
  · exact codec.parse_cut entry part h hcut

theorem newline_notMem_line (codec : TrajectoryCodec) (entry : TrajectoryEntry) :
    JsonLines.newline ∉ codec.line entry :=
  codec.newline_notMem entry

theorem length_line_pos (codec : TrajectoryCodec) (entry : TrajectoryEntry) :
    0 < (codec.line entry).length := by
  rw [List.length_pos_iff]
  intro hnil
  apply codec.notBlank entry
  rw [hnil]
  rfl

/-! ## Files of whole lines -/

/-- The file that holds the entries and nothing else. -/
def trajectoryLines (codec : TrajectoryCodec) (entries : List TrajectoryEntry) : List UInt8 :=
  unlines JsonLines.newline (entries.map codec.line)

/-- The lines of the entries are read. -/
def ReadableLines (codec : TrajectoryCodec) (entries : List TrajectoryEntry) : Prop :=
  ∀ entry ∈ entries, entryOf codec (codec.line entry) = some entry

theorem splitOn_trajectoryLines (entries : List TrajectoryEntry) :
    (trajectoryLines codec entries).splitOn JsonLines.newline = entries.map codec.line ++ [[]] := by
  have hfree : ∀ line ∈ entries.map codec.line, JsonLines.newline ∉ line := by
    intro line hline
    obtain ⟨entry, -, rfl⟩ := List.mem_map.mp hline
    exact newline_notMem_line codec entry
  have hsplit := @splitOn_unlines_append _ _ JsonLines.newline _ [] hfree List.not_mem_nil
  rwa [List.append_nil] at hsplit

variable {entries : List TrajectoryEntry}

theorem records_trajectoryLines (h : ReadableLines codec entries) :
    records codec (trajectoryLines codec entries) = entries := by
  rw [records, splitOn_trajectoryLines, filterMap_concat, entryOf_nil, List.filterMap_map]
  have hall : entries.filterMap (entryOf codec ∘ codec.line) = entries.filterMap some := by
    apply List.filterMap_congr
    intro entry hentry
    exact h entry hentry
  rw [hall, List.filterMap_some]
  exact List.append_nil _

theorem framed_trajectoryLines (h : ReadableLines codec entries) :
    Framed codec (trajectoryLines codec entries) := by
  intro piece hpiece entry hentry
  rw [splitOn_trajectoryLines] at hpiece
  rcases List.mem_append.mp hpiece with hline | hlast
  · obtain ⟨written, hwritten, rfl⟩ := List.mem_map.mp hline
    rw [h written hwritten] at hentry
    rw [Option.some.inj hentry]
  · rw [List.mem_singleton.mp hlast, entryOf_nil] at hentry
    cases hentry

theorem length_trajectoryLines (entries : List TrajectoryEntry) :
    (trajectoryLines codec entries).length = linesBytes (entries.map codec.line) :=
  unlines_bytes _

theorem bytesFromNewest_trajectoryLines {newest : TrajectoryEntry}
    (h : entryOf codec (codec.line newest) = some newest) :
    bytesFromNewest codec (trajectoryLines codec (entries ++ [newest]))
      = (codec.line newest).length + 1 := by
  unfold bytesFromNewest
  rw [splitOn_trajectoryLines, List.reverse_append, List.map_append, List.reverse_append]
  have hblank : ∀ older, bytesBack codec ([] :: older) = 1 + bytesBack codec older := by
    intro older
    rw [bytesBack, entryOf_nil]
    simp
  have hline : ∀ older, bytesBack codec (codec.line newest :: older)
      = (codec.line newest).length := by
    intro older
    rw [bytesBack, h]
    simp
  have hshape : ([[]] : List (List UInt8)).reverse
      ++ (([newest].map codec.line).reverse ++ (entries.map codec.line).reverse)
      = [] :: codec.line newest :: (entries.map codec.line).reverse := rfl
  rw [hshape, hblank, hline, Nat.add_comm]

/-! ## Compaction -/

/-- The entries that a compaction keeps. -/
def keptEntries (codec : TrajectoryCodec) (maxLines : Nat) (file : List UInt8) :
    List TrajectoryEntry :=
  (keptLines codec maxLines file).filterMap codec.parse

theorem filterMap_textOf {pieces : List (List UInt8)} (h : FramedLines codec pieces) :
    pieces.filterMap (textOf codec) = (pieces.filterMap (entryOf codec)).map (lineText codec) := by
  rw [List.map_filterMap]
  apply List.filterMap_congr
  intro piece hpiece
  unfold textOf
  cases hentry : entryOf codec piece with
  | none => rfl
  | some entry =>
    rw [h piece hpiece entry hentry]
    rfl

theorem FramedLines.suffix {pieces later : List (List UInt8)} (h : FramedLines codec pieces)
    (hsuffix : later <:+ pieces) : FramedLines codec later :=
  fun piece hpiece => h piece (hsuffix.subset hpiece)

theorem shedOldest_suffix (limitBytes : Nat) (lines : List JsString) :
    shedOldest limitBytes lines <:+ lines := by
  induction lines with
  | nil => exact List.suffix_refl _
  | cons line rest ih =>
    cases rest with
    | nil => exact List.suffix_refl _
    | cons next others =>
      rw [shedOldest]
      split
      · exact ih.trans (List.suffix_cons _ _)
      · exact List.suffix_refl _

variable {lines : List JsString}

theorem shedOldest_ne_nil (limitBytes : Nat) (h : lines ≠ []) :
    shedOldest limitBytes lines ≠ [] := by
  induction lines with
  | nil => exact absurd rfl h
  | cons line rest ih =>
    cases rest with
    | nil => exact h
    | cons next others =>
      rw [shedOldest]
      split
      · exact ih (List.cons_ne_nil _ _)
      · exact List.cons_ne_nil _ _

theorem newestLines_ne_nil {keepCount : Nat} (hkeep : 0 < keepCount) (h : lines ≠ []) :
    newestLines keepCount lines ≠ [] := by
  have hpos := List.length_pos_iff.mpr h
  unfold newestLines
  intro hnil
  rw [List.drop_eq_nil_iff] at hnil
  omega

/-- What a compaction keeps: the lines of the newest entries it sees, of one at least. -/
structure KeptSpec (codec : TrajectoryCodec) (maxLines : Nat) (file : List UInt8) : Prop where
  lines : keptLines codec maxLines file = (keptEntries codec maxLines file).map (lineText codec)
  suffix : keptEntries codec maxLines file
    <:+ windowRecords codec file TRAJECTORY_LIMITS.compactMaxBytes
  some_ : windowRecords codec file TRAJECTORY_LIMITS.compactMaxBytes ≠ [] →
    keptEntries codec maxLines file ≠ []

theorem kept_spec (h : Framed codec file) (maxLines : Nat) : KeptSpec codec maxLines file := by
  have hlines : ((readTailBytes file TRAJECTORY_LIMITS.compactMaxBytes).parsed codec).lines
      = (windowRecords codec file TRAJECTORY_LIMITS.compactMaxBytes).map (lineText codec) := by
    rw [(collected_parsed file _).lines]
    exact filterMap_textOf (h.suffix (windowPieces_suffix file _))
  obtain ⟨seen, hseen⟩ : ∃ seen,
      windowRecords codec file TRAJECTORY_LIMITS.compactMaxBytes = seen := ⟨_, rfl⟩
  rw [hseen] at hlines
  have hsuffix : keptLines codec maxLines file <:+ seen.map (lineText codec) := by
    dsimp only [keptLines]
    rw [hlines]
    exact (shedOldest_suffix _ _).trans (List.drop_suffix _ _)
  obtain ⟨kept, hkept, hmap⟩ : ∃ kept, kept <:+ seen
      ∧ keptLines codec maxLines file = kept.map (lineText codec) := by
    obtain ⟨front, hfront⟩ := hsuffix
    obtain ⟨before, kept, hsplit, -, hmap⟩ := List.map_eq_append_iff.mp hfront.symm
    exact ⟨kept, ⟨before, hsplit.symm⟩, hmap.symm⟩
  have hentries : keptEntries codec maxLines file = kept := by
    rw [keptEntries, hmap, List.filterMap_map]
    have hall : kept.filterMap (codec.parse ∘ lineText codec) = kept.filterMap some :=
      List.filterMap_congr fun entry _ => parse_lineText codec entry
    rw [hall, List.filterMap_some]
  refine ⟨?_, ?_, ?_⟩
  · rw [hentries, hmap]
  · rw [hentries, hseen]
    exact hkept
  · rw [hseen]
    intro hsome hnil
    have hne : keptLines codec maxLines file ≠ [] := by
      dsimp only [keptLines]
      rw [hlines]
      apply shedOldest_ne_nil
      apply newestLines_ne_nil (by omega)
      rw [ne_eq, List.map_eq_nil_iff]
      exact hsome
    rw [hmap, ← hentries, hnil] at hne
    exact hne rfl

theorem keptEntries_suffix (h : Framed codec file) (maxLines : Nat) :
    keptEntries codec maxLines file <:+ records codec file :=
  (kept_spec h maxLines).suffix.trans (windowRecords_suffix file _)

theorem readable_records (h : Framed codec file) : ReadableLines codec (records codec file) := by
  intro entry hentry
  obtain ⟨piece, hpiece, hread⟩ := List.mem_filterMap.mp hentry
  rw [← h piece hpiece entry hread]
  exact hread

theorem readable_kept (h : Framed codec file) (maxLines : Nat) :
    ReadableLines codec (keptEntries codec maxLines file) :=
  fun entry hentry => readable_records h entry ((keptEntries_suffix h maxLines).subset hentry)

theorem compactedFile_eq (h : Framed codec file) (maxLines : Nat) :
    compactedFile codec maxLines file = trajectoryLines codec
      (keptEntries codec maxLines file) := by
  unfold compactedFile trajectoryLines
  rw [(kept_spec h maxLines).lines, List.map_map]
  congr 1
  apply List.map_congr_left
  intro entry _
  exact utf8Bytes_lineText codec entry

theorem keptBytes_eq (h : Framed codec file) (maxLines : Nat) :
    keptBytes (keptLines codec maxLines file)
      = linesBytes ((keptEntries codec maxLines file).map codec.line) := by
  unfold keptBytes linesBytes
  rw [(kept_spec h maxLines).lines, List.map_map, List.map_map]
  congr 1
  apply List.map_congr_left
  intro entry _
  rw [Function.comp_apply, Function.comp_apply, byteLength_lineText]

theorem linesBytes_records_le {pieces : List (List UInt8)} (h : FramedLines codec pieces) :
    linesBytes ((pieces.filterMap (entryOf codec)).map codec.line) ≤ linesBytes pieces := by
  induction pieces with
  | nil => exact Nat.le_refl _
  | cons piece rest ih =>
    have hrest := ih fun later hlater => h later (List.mem_cons_of_mem _ hlater)
    have hcons : ∀ (p : List UInt8) ps, linesBytes (p :: ps) = p.length + 1 + linesBytes ps := by
      unfold linesBytes
      simp
    cases hentry : entryOf codec piece with
    | none =>
      rw [List.filterMap_cons_none hentry, hcons]
      omega
    | some entry =>
      rw [List.filterMap_cons_some hentry, List.map_cons, hcons, hcons,
        ← h piece List.mem_cons_self entry hentry]
      omega

theorem bytes_dropped (h : Framed codec file) {maxLines : Nat}
    (hlost : keptEntries codec maxLines file ≠ records codec file) :
    keptBytes (keptLines codec maxLines file) < file.length := by
  obtain ⟨lost, hsplit⟩ := keptEntries_suffix h maxLines
  have hne : lost ≠ [] := by
    intro hnil
    rw [hnil, List.nil_append] at hsplit
    exact hlost hsplit
  have hle := linesBytes_records_le h
  have hrecords : (file.splitOn JsonLines.newline).filterMap (entryOf codec)
      = lost ++ keptEntries codec maxLines file := by
    rw [hsplit]
    rfl
  rw [hrecords, List.map_append, linesBytes_append, ← length_add_one] at hle
  obtain ⟨first, rest, rfl⟩ := List.exists_cons_of_ne_nil hne
  have hfirst := length_line_pos codec first
  have hlostBytes : 2 ≤ linesBytes ((first :: rest).map codec.line) := by
    simp only [linesBytes, List.map_cons, List.sum_cons]
    omega
  rw [keptBytes_eq h]
  omega

/-! ## Appending -/

theorem needsReframe_iff : needsReframe file = true ↔ lastLine JsonLines.newline file ≠ [] := by
  rcases List.eq_nil_or_concat file with rfl | ⟨front, last, rfl⟩
  · exact ⟨fun h => (nomatch h), fun h => absurd rfl h⟩
  rw [List.concat_eq_append]
  have htail : (readTailBytes (front ++ [last]) 1).content = decodeUtf8 [last] := by
    dsimp only [readTailBytes]
    rw [List.length_append, List.length_singleton, Nat.add_sub_cancel, List.drop_left]
  have hframe : needsReframe (front ++ [last]) = decide (decodeUtf8 [last] ≠ [newlineUnit]) := by
    have hbytes : 0 < (readTailBytes (front ++ [last]) 1).totalBytes := by
      show 0 < (front ++ [last]).length
      simp
    dsimp only [needsReframe]
    rw [htail, decide_eq_true hbytes, Bool.true_and]
  rw [hframe, decide_eq_true_eq]
  by_cases hlast : last = JsonLines.newline
  · rw [hlast]
    have hdecode : decodeUtf8 [JsonLines.newline] = [newlineUnit] := rfl
    have hended := @lastLine_append_sep _ _ JsonLines.newline front [] List.not_mem_nil
    rw [List.append_nil] at hended
    rw [hdecode, hended]
    exact ⟨fun h => absurd rfl h, fun h => absurd rfl h⟩
  · have hfree : JsonLines.newline ∉ [last] := fun hmem => hlast (List.mem_singleton.mp hmem).symm
    rw [lastLine_append hfree]
    constructor
    · simp
    · intro _ hsame
      have hnot := newlineUnit_notMem_decodeUtf8 hfree
      rw [hsame] at hnot
      exact hnot List.mem_cons_self

/-- What ends a torn line, if it has to. -/
def reframe (file : List UInt8) : List UInt8 :=
  if needsReframe file then [JsonLines.newline] else []

/-- A file whose last line is ended holds the same entries; `pieces` are its lines. -/
structure EndedLike (codec : TrajectoryCodec) (file ended : List UInt8)
    (pieces : List (List UInt8)) : Prop where
  splitOn : ended.splitOn JsonLines.newline = pieces ++ [[]]
  records : pieces.filterMap (entryOf codec) = records codec file
  framed : FramedLines codec pieces
  bytes : bytesFromNewest codec ended + file.length = bytesFromNewest codec file + ended.length

theorem bytesBack_concat_blank (pieces : List (List UInt8)) :
    bytesBack codec (pieces ++ [[]]).reverse = 1 + bytesBack codec pieces.reverse := by
  rw [List.reverse_append, List.reverse_singleton, List.singleton_append, bytesBack, entryOf_nil]
  simp

variable {ending : List UInt8}

theorem exists_endedLike (h : Framed codec file)
    (hending : ending = [] ∨ ending = [JsonLines.newline])
    (hneeded : lastLine JsonLines.newline file ≠ [] → ending = [JsonLines.newline]) :
    ∃ pieces, EndedLike codec file (file ++ ending) pieces := by
  rcases hending with hnil | hnewline
  · -- nothing to do: a newline ends the file
    have hended : lastLine JsonLines.newline file = [] := by
      by_contra hne
      rw [hneeded hne] at hnil
      cases hnil
    have hsplit := @splitOn_eq _ _ JsonLines.newline file
    rw [hended] at hsplit
    refine ⟨terminated JsonLines.newline file, ?_, ?_, ?_, ?_⟩
    · rw [hnil, List.append_nil]
      exact hsplit
    · rw [records, hsplit, filterMap_concat, entryOf_nil]
      exact (List.append_nil _).symm
    · intro piece hpiece
      apply h piece
      rw [hsplit]
      exact List.mem_append_left _ hpiece
    · rw [hnil, List.append_nil]
  · have hsplit : (file ++ [JsonLines.newline]).splitOn JsonLines.newline
        = file.splitOn JsonLines.newline ++ [[]] := by
      rw [splitOn_append_sep]
      rfl
    rw [hnewline]
    refine ⟨file.splitOn JsonLines.newline, hsplit, rfl, h, ?_⟩
    unfold bytesFromNewest
    rw [hsplit, bytesBack_concat_blank, List.length_append, List.length_singleton]
    omega

section Ended

variable {ended : List UInt8} {pieces : List (List UInt8)} {part : List UInt8}

theorem splitOn_append_part (h : EndedLike codec file ended pieces)
    (hpart : JsonLines.newline ∉ part) :
    (ended ++ part).splitOn JsonLines.newline = pieces ++ [part] := by
  have hsplit := @splitOn_eq _ _ JsonLines.newline ended
  rw [h.splitOn] at hsplit
  obtain ⟨hpieces, hlast⟩ := List.append_inj' hsplit rfl
  rw [splitOn_eq, terminated_append hpart, lastLine_append hpart, ← hpieces,
    ← List.singleton_inj.mp hlast, List.nil_append]

theorem append_unread (h : EndedLike codec file ended pieces) (hpart : JsonLines.newline ∉ part)
    (hunread : entryOf codec part = none) :
    Framed codec (ended ++ part) ∧ records codec (ended ++ part) = records codec file
      ∧ bytesFromNewest codec (ended ++ part) + file.length
        = bytesFromNewest codec file + (ended ++ part).length := by
  have hsplit := splitOn_append_part h hpart
  refine ⟨?_, ?_, ?_⟩
  · intro piece hpiece entry hentry
    rw [hsplit] at hpiece
    rcases List.mem_append.mp hpiece with hold | hnew
    · exact h.framed piece hold entry hentry
    · rw [List.mem_singleton.mp hnew, hunread] at hentry
      cases hentry
  · rw [records, hsplit, filterMap_concat, hunread, h.records]
    exact List.append_nil _
  · have hbytes := h.bytes
    unfold bytesFromNewest at hbytes ⊢
    rw [h.splitOn, bytesBack_concat_blank] at hbytes
    rw [hsplit, List.reverse_append, List.reverse_singleton, List.singleton_append, bytesBack,
      hunread, List.length_append]
    simp only [Option.isSome_none, Bool.false_eq_true, if_false]
    omega

theorem append_read (h : EndedLike codec file ended pieces)
    (hread : entryOf codec (codec.line entry) = some entry) :
    Framed codec (ended ++ codec.line entry)
      ∧ records codec (ended ++ codec.line entry) = records codec file ++ [entry]
      ∧ bytesFromNewest codec (ended ++ codec.line entry) = (codec.line entry).length := by
  have hsplit := splitOn_append_part h (newline_notMem_line codec entry)
  refine ⟨?_, ?_, ?_⟩
  · intro piece hpiece other hother
    rw [hsplit] at hpiece
    rcases List.mem_append.mp hpiece with hold | hnew
    · exact h.framed piece hold other hother
    · rw [List.mem_singleton.mp hnew] at hother ⊢
      rw [hread] at hother
      rw [Option.some.inj hother]
  · rw [records, hsplit, filterMap_concat, hread, h.records]
    rfl
  · unfold bytesFromNewest
    rw [hsplit, List.reverse_append, List.reverse_singleton, List.singleton_append, bytesBack,
      hread]
    simp

theorem append_newline {text : List UInt8} (h : Framed codec text) :
    Framed codec (text ++ [JsonLines.newline])
      ∧ records codec (text ++ [JsonLines.newline]) = records codec text
      ∧ bytesFromNewest codec (text ++ [JsonLines.newline]) = bytesFromNewest codec text + 1 := by
  have hsplit : (text ++ [JsonLines.newline]).splitOn JsonLines.newline
      = text.splitOn JsonLines.newline ++ [[]] := by
    rw [splitOn_append_sep]
    rfl
  refine ⟨?_, ?_, ?_⟩
  · intro piece hpiece entry hentry
    rw [hsplit] at hpiece
    rcases List.mem_append.mp hpiece with hold | hnew
    · exact h piece hold entry hentry
    · rw [List.mem_singleton.mp hnew, entryOf_nil] at hentry
      cases hentry
  · rw [records, hsplit, filterMap_concat, entryOf_nil]
    exact List.append_nil _
  · unfold bytesFromNewest
    rw [hsplit, bytesBack_concat_blank, Nat.add_comm]

end Ended

theorem framedLine_eq (file : List UInt8) (entry : TrajectoryEntry) :
    framedLine codec file entry = reframe file ++ (codec.line entry ++ [JsonLines.newline]) := rfl

theorem reframe_cases (file : List UInt8) :
    reframe file = [] ∨ reframe file = [JsonLines.newline] := by
  unfold reframe
  split
  · exact Or.inr rfl
  · exact Or.inl rfl

theorem reframe_of_lastLine (h : lastLine JsonLines.newline file ≠ []) :
    reframe file = [JsonLines.newline] := by
  exact if_pos (needsReframe_iff.mpr h)

/-- The write of a record stopped before the record was whole. -/
structure TornBehind (codec : TrajectoryCodec) (base text : List UInt8) : Prop where
  framed : Framed codec text
  records : records codec text = records codec base
  bytes : bytesFromNewest codec text + base.length = bytesFromNewest codec base + text.length

/-- The record of an entry stands behind a file. -/
structure LandedBehind (codec : TrajectoryCodec) (entry : TrajectoryEntry)
    (base text : List UInt8) : Prop where
  framed : Framed codec text
  records : records codec text = records codec base ++ [entry]

theorem append_cases {base : List UInt8} (hbase : Framed codec base)
    (hending : ending = [] ∨ ending = [JsonLines.newline])
    (hneeded : lastLine JsonLines.newline base ≠ [] → ending = [JsonLines.newline])
    (hshort : isOversize codec entry = false) (bytes : Nat) :
    let text := base ++ (ending ++ (codec.line entry ++ [JsonLines.newline])).take bytes
    (bytes < ending.length + (codec.line entry).length ∧ TornBehind codec base text
        ∧ text.length = base.length + bytes)
      ∨ (bytes = ending.length + (codec.line entry).length ∧ LandedBehind codec entry base text
        ∧ bytesFromNewest codec text = (codec.line entry).length)
      ∨ (ending.length + (codec.line entry).length < bytes ∧ LandedBehind codec entry base text
        ∧ text = base ++ (ending ++ (codec.line entry ++ [JsonLines.newline]))
        ∧ bytesFromNewest codec text = (codec.line entry).length + 1) := by
  intro text
  obtain ⟨pieces, hended⟩ := exists_endedLike hbase hending hneeded
  by_cases hfirst : bytes < ending.length
  · -- not even the reframing newline
    left
    have hzero : bytes = 0 := by
      rcases hending with hnil | hnewline
      · rw [hnil] at hfirst
        exact absurd hfirst (Nat.not_lt_zero _)
      · rw [hnewline, List.length_singleton] at hfirst
        omega
    have htext : text = base := by
      show base ++ (ending ++ (codec.line entry ++ [JsonLines.newline])).take bytes = base
      rw [hzero, List.take_zero, List.append_nil]
    rw [htext]
    exact ⟨by omega, ⟨hbase, rfl, rfl⟩, by omega⟩
  · obtain ⟨behind, rfl⟩ : ∃ behind, bytes = ending.length + behind :=
      ⟨bytes - ending.length, by omega⟩
    have htext : text = base ++ ending
        ++ (codec.line entry ++ [JsonLines.newline]).take behind := by
      show base ++ (ending ++ (codec.line entry ++ [JsonLines.newline])).take _ = _
      rw [List.take_length_add_append, List.append_assoc]
    rcases Nat.lt_trichotomy behind (codec.line entry).length with hless | hsame | hmore
    · left
      have hpart : (codec.line entry ++ [JsonLines.newline]).take behind
          = (codec.line entry).take behind := List.take_append_of_le_length (Nat.le_of_lt hless)
      have hstarts : (codec.line entry).take behind <+: codec.line entry := List.take_prefix _ _
      have hlength : ((codec.line entry).take behind).length = behind := by
        rw [List.length_take]
        omega
      have hcut : (codec.line entry).take behind ≠ codec.line entry := by
        intro hwhole
        rw [hwhole] at hlength
        omega
      have hfree : JsonLines.newline ∉ (codec.line entry).take behind :=
        fun hmem => newline_notMem_line codec entry (hstarts.subset hmem)
      obtain ⟨hframed, hrecords, hbytes⟩ :=
        append_unread hended hfree (entryOf_cut hstarts hcut)
      rw [htext, hpart]
      refine ⟨by omega, ⟨hframed, hrecords, hbytes⟩, ?_⟩
      rw [List.length_append, List.length_append, hlength]
      omega
    · right
      left
      have hpart : (codec.line entry ++ [JsonLines.newline]).take behind = codec.line entry := by
        rw [hsame]
        exact List.take_left
      obtain ⟨hframed, hrecords, hbytes⟩ := append_read hended (entryOf_line hshort)
      rw [htext, hpart]
      exact ⟨by omega, ⟨hframed, hrecords⟩, hbytes⟩
    · right
      right
      have hpart : (codec.line entry ++ [JsonLines.newline]).take behind
          = codec.line entry ++ [JsonLines.newline] := by
        apply List.take_of_length_le
        rw [List.length_append, List.length_singleton]
        omega
      obtain ⟨hframed, hrecords, hbytes⟩ := append_read hended (entryOf_line hshort)
      obtain ⟨hframed', hrecords', hbytes'⟩ := append_newline hframed
      rw [htext, hpart, ← List.append_assoc]
      refine ⟨by omega, ⟨hframed', hrecords'.trans hrecords⟩, ?_, ?_⟩
      · rw [List.append_assoc, List.append_assoc]
      · rw [hbytes', hbytes]

end OpencodeSwarm
