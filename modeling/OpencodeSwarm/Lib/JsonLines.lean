/-
  OpencodeSwarm.Lib.JsonLines

  Files of one JSON value a line, byte by byte: reading skips what does not
  parse, appending first truncates a line that no newline ends.  The offset of
  that truncation is counted in units of the decoded text, so it falls behind the
  last newline exactly when the lines are ASCII.
-/
import OpencodeSwarm.Lib.TextLines
import OpencodeSwarm.Lib.Utf8

namespace JsonLines

open Js TextLines

/-! ## Text and bytes -/

/-- A newline, as a byte. -/
def newline : UInt8 := 0x0A

/-- A newline, as a unit. -/
def newlineUnit : CodeUnit := 0x0A

theorem decodeUtf8_append_newline (left right : List UInt8) :
    decodeUtf8 (left ++ newline :: right) = decodeUtf8 left ++ newlineUnit :: decodeUtf8 right :=
  decodeUtf8_append_ascii left right (by decide)

theorem decodeUtf8_unlines_append (lines : List (List UInt8)) (rest : List UInt8) :
    decodeUtf8 (unlines newline lines ++ rest)
      = unlines newlineUnit (lines.map decodeUtf8) ++ decodeUtf8 rest := by
  induction lines with
  | nil => rfl
  | cons line others ih =>
    have hbytes : unlines newline (line :: others) ++ rest
        = line ++ newline :: (unlines newline others ++ rest) := by
      unfold unlines
      simp
    have hunits : unlines newlineUnit ((line :: others).map decodeUtf8) ++ decodeUtf8 rest
        = decodeUtf8 line
          ++ newlineUnit :: (unlines newlineUnit (others.map decodeUtf8) ++ decodeUtf8 rest) := by
      unfold unlines
      simp
    rw [hbytes, hunits, decodeUtf8_append_newline, ih]

theorem newlineUnit_notMem_decodeUtf8 {line : List UInt8} (h : newline ∉ line) :
    newlineUnit ∉ decodeUtf8 line :=
  newline_notMem_decodeUtf8 h

theorem splitOn_decodeUtf8 (bytes : List UInt8) :
    (decodeUtf8 bytes).splitOn newlineUnit = (bytes.splitOn newline).map decodeUtf8 := by
  obtain ⟨lines, tail, rfl, hlines, htail⟩ := exists_unlines newline bytes
  have hdecoded : ∀ line ∈ lines.map decodeUtf8, newlineUnit ∉ line := by
    intro line hline
    obtain ⟨original, horiginal, rfl⟩ := List.mem_map.mp hline
    exact newlineUnit_notMem_decodeUtf8 (hlines original horiginal)
  rw [decodeUtf8_unlines_append,
    splitOn_unlines_append hdecoded (newlineUnit_notMem_decodeUtf8 htail),
    splitOn_unlines_append hlines htail, List.map_append]
  rfl

/-! ## Codecs -/

/-- How the rows of a file are written, and what a line is read as: `line` gives the bytes of
    `JSON.stringify(row)`, `parse` what `JSON.parse` and the checks behind it make of a line
    without its blank ends.  A line that was cut does not parse. -/
structure Codec (Row Value : Type*) where
  toValue : Row → Value
  line : Row → List UInt8
  parse : JsString → Option Value
  newline_notMem : ∀ row, newline ∉ line row
  notBlank : ∀ row, trim (decodeUtf8 (line row)) ≠ []
  parse_line : ∀ row, parse (trim (decodeUtf8 (line row))) = some (toValue row)
  parse_cut : ∀ row part, part <+: line row → part ≠ line row →
    parse (trim (decodeUtf8 part)) = none

section Files

variable {Row Value : Type*} (codec : Codec Row Value)

/-- What one line is read as. -/
def lineValue (line : JsString) : Option Value :=
  let trimmed := trim line
  if trimmed = [] then none else codec.parse trimmed

def readJsonl (file : List UInt8) : List Value :=
  ((decodeUtf8 file).splitOn newlineUnit).filterMap (lineValue codec)

/-- `repairIncompleteJsonlTail`: the file is cut as many bytes long as its text has units up to
    the last newline. -/
def repairIncompleteJsonlTail (file : List UInt8) : List UInt8 :=
  let content := decodeUtf8 file
  if content = [] ∨ endsWith content [newlineUnit] then file
  else file.take (content.rdropWhile (· ≠ newlineUnit)).length

/-- `appendJsonl`: the bytes that are appended. -/
def appended (row : Row) : List UInt8 := codec.line row ++ [newline]

/-- `appendJsonl`, as far as the first so many bytes. -/
def appendJsonlCut (file : List UInt8) (row : Row) (cut : Nat) : List UInt8 :=
  file ++ (appended codec row).take cut

def appendJsonl (file : List UInt8) (row : Row) : List UInt8 := file ++ appended codec row

/-- `writeJsonlAtomic`: the new content of the file. -/
def jsonlContent (rows : List Row) : List UInt8 := unlines newline (rows.map codec.line)

/-! ## Rows -/

/-- What the terminated lines are read as. -/
def rows (file : List UInt8) : List Value :=
  (terminated newline file).filterMap fun line => lineValue codec (decodeUtf8 line)

/-- What the line is read as that no newline ends. -/
def tailRow (file : List UInt8) : Option Value :=
  lineValue codec (decodeUtf8 (lastLine newline file))

/-- A newline ends the file, if it has a byte. -/
def Ended (file : List UInt8) : Prop := lastLine newline file = []

instance (file : List UInt8) : Decidable (Ended file) := by
  unfold Ended
  infer_instance

/-- The truncation of the tail would leave the terminated lines whole. -/
def TruncatesTail (file : List UInt8) : Prop :=
  Ended file ∨ ∀ line ∈ terminated newline file, ∀ byte ∈ line, byte.toNat < 0x80

variable {codec}

theorem readJsonl_eq (file : List UInt8) :
    readJsonl codec file = rows codec file ++ (tailRow codec file).toList := by
  unfold readJsonl rows tailRow
  rw [splitOn_decodeUtf8, List.filterMap_map, splitOn_eq, List.filterMap_append]
  rfl

variable {file : List UInt8}

theorem tailRow_of_ended (h : Ended file) : tailRow codec file = none := by
  rw [tailRow, h]
  rfl

theorem readJsonl_of_ended (h : Ended file) : readJsonl codec file = rows codec file := by
  rw [readJsonl_eq, tailRow_of_ended h, Option.toList_none, List.append_nil]

/-! ## Repair -/

/-- The terminated lines. -/
def kept (file : List UInt8) : List UInt8 := unlines newline (terminated newline file)

theorem ended_kept (file : List UInt8) : Ended (kept file) := by
  obtain ⟨lines, tail, rfl, hlines, htail⟩ := exists_unlines newline file
  unfold kept Ended
  rw [terminated_unlines_append hlines htail]
  have hlast := @lastLine_unlines_append _ _ newline lines [] hlines List.not_mem_nil
  rwa [List.append_nil] at hlast

theorem terminated_kept (file : List UInt8) :
    terminated newline (kept file) = terminated newline file := by
  obtain ⟨lines, tail, rfl, hlines, htail⟩ := exists_unlines newline file
  rw [kept, terminated_unlines_append hlines htail]
  have hterminated := @terminated_unlines_append _ _ newline lines [] hlines List.not_mem_nil
  rwa [List.append_nil] at hterminated

theorem rows_kept (file : List UInt8) : rows codec (kept file) = rows codec file := by
  unfold rows
  rw [terminated_kept]

theorem kept_of_ended (h : Ended file) : kept file = file := by
  obtain ⟨lines, tail, rfl, hlines, htail⟩ := exists_unlines newline file
  rw [Ended, lastLine_unlines_append hlines htail] at h
  rw [kept, terminated_unlines_append hlines htail, h, List.append_nil]

theorem endsWith_newline_iff {units : JsString} :
    endsWith units [newlineUnit] = true ↔ ∃ front, units = front ++ [newlineUnit] := by
  rw [endsWith, List.isSuffixOf_iff_suffix]
  constructor
  · rintro ⟨front, rfl⟩
    exact ⟨front, rfl⟩
  · rintro ⟨front, rfl⟩
    exact ⟨front, rfl⟩

theorem unlines_concat {α : Type*} (sep : α) (lines : List (List α)) (line : List α) :
    unlines sep (lines ++ [line]) = unlines sep lines ++ line ++ [sep] := by
  rw [unlines_append, List.append_assoc]
  unfold unlines
  rw [List.flatMap_singleton]

theorem repair_of_ended (h : Ended file) : repairIncompleteJsonlTail file = file := by
  obtain ⟨lines, tail, rfl, hlines, htail⟩ := exists_unlines newline file
  rw [Ended, lastLine_unlines_append hlines htail] at h
  subst h
  rw [repairIncompleteJsonlTail, if_pos]
  rw [decodeUtf8_unlines_append]
  have hnil : decodeUtf8 [] = [] := rfl
  rw [hnil, List.append_nil]
  rcases List.eq_nil_or_concat lines with rfl | ⟨front, last, rfl⟩
  · exact Or.inl rfl
  · rw [List.concat_eq_append, List.map_append]
    refine Or.inr (endsWith_newline_iff.mpr
      ⟨unlines newlineUnit (front.map decodeUtf8) ++ decodeUtf8 last, ?_⟩)
    exact unlines_concat newlineUnit (front.map decodeUtf8) (decodeUtf8 last)

theorem repair_eq_kept (h : TruncatesTail file) : repairIncompleteJsonlTail file = kept file := by
  by_cases hended : Ended file
  · rw [repair_of_ended hended, kept_of_ended hended]
  have hascii := h.resolve_left hended
  obtain ⟨lines, tail, rfl, hlines, htail⟩ := exists_unlines newline file
  rw [Ended, lastLine_unlines_append hlines htail] at hended
  rw [terminated_unlines_append hlines htail] at hascii
  have hkept : kept (unlines newline lines ++ tail) = unlines newline lines := by
    rw [kept, terminated_unlines_append hlines htail]
  have hdecoded : decodeUtf8 (unlines newline lines)
      = unlines newlineUnit (lines.map decodeUtf8) := by
    have hwhole := decodeUtf8_unlines_append lines []
    rw [List.append_nil] at hwhole
    rw [hwhole]
    exact List.append_nil _
  have hlength : (decodeUtf8 (unlines newline lines)).length = (unlines newline lines).length := by
    rw [decodeUtf8_of_ascii, List.length_map]
    intro byte hbyte
    obtain ⟨line, hline, hmem⟩ := List.mem_flatMap.mp hbyte
    rcases List.mem_append.mp hmem with hinner | hnewline
    · exact hascii line hline byte hinner
    · rw [List.mem_singleton.mp hnewline]
      decide
  have htailUnits : newlineUnit ∉ decodeUtf8 tail := newlineUnit_notMem_decodeUtf8 htail
  have htailNe : decodeUtf8 tail ≠ [] := fun hnil => hended (decodeUtf8_eq_nil_iff.mp hnil)
  have hdrop : (decodeUtf8 (unlines newline lines ++ tail)).rdropWhile (· ≠ newlineUnit)
      = decodeUtf8 (unlines newline lines) := by
    rw [decodeUtf8_unlines_append, hdecoded]
    generalize decodeUtf8 tail = units at htailUnits
    induction units using List.reverseRecOn with
    | nil =>
      rw [List.append_nil]
      rcases List.eq_nil_or_concat lines with rfl | ⟨front, last, rfl⟩
      · rfl
      rw [List.concat_eq_append, List.map_append]
      have hconcat := unlines_concat newlineUnit (front.map decodeUtf8) (decodeUtf8 last)
      have hshape : (front.map decodeUtf8 ++ [last].map decodeUtf8)
          = front.map decodeUtf8 ++ [decodeUtf8 last] := rfl
      rw [hshape, hconcat, List.rdropWhile_concat_neg]
      simp
    | append_singleton front unit ih =>
      rw [List.mem_append, not_or] at htailUnits
      have hunit : unit ≠ newlineUnit := fun heq => htailUnits.2 (by rw [heq]; simp)
      rw [← List.append_assoc, List.rdropWhile_concat_pos _ _ _ (by simpa using hunit),
        ih htailUnits.1]
  rw [repairIncompleteJsonlTail, if_neg]
  · rw [hdrop, hlength, List.take_left, hkept]
  · rw [not_or]
    refine ⟨?_, ?_⟩
    · rw [decodeUtf8_eq_nil_iff, List.append_eq_nil_iff, not_and]
      exact fun _ => hended
    · intro hends
      obtain ⟨front, hfront⟩ := endsWith_newline_iff.mp hends
      rw [decodeUtf8_unlines_append] at hfront
      rcases List.eq_nil_or_concat (decodeUtf8 tail) with hnil | ⟨before, last, hlast⟩
      · exact htailNe hnil
      · rw [hlast, List.concat_eq_append, ← List.append_assoc] at hfront
        have hsame := (List.append_inj' hfront rfl).2
        rw [hlast, List.concat_eq_append] at htailUnits
        exact htailUnits (by rw [hsame]; simp)

/-! ## Appending -/

theorem mem_of_prefix_line {row : Row} {part : List UInt8} (h : part <+: codec.line row) :
    newline ∉ part := fun hmem => codec.newline_notMem row (h.subset hmem)

/-- Behind an ended file a cut append leaves the rows as they are, perhaps with the whole row
    unterminated, or the row is there. -/
theorem appendJsonlCut_cases {file : List UInt8} (hfile : Ended file) (row : Row) (cut : Nat) :
    (rows codec (appendJsonlCut codec file row cut) = rows codec file
        ∧ (tailRow codec (appendJsonlCut codec file row cut) = none
          ∨ tailRow codec (appendJsonlCut codec file row cut) = some (codec.toValue row)))
      ∨ appendJsonlCut codec file row cut = appendJsonl codec file row := by
  by_cases hcut : cut ≤ (codec.line row).length
  · left
    have hpart : (appended codec row).take cut = (codec.line row).take cut := by
      rw [appended, List.take_append_of_le_length hcut]
    have hstarts : (codec.line row).take cut <+: codec.line row := List.take_prefix cut _
    have hfree := mem_of_prefix_line hstarts
    unfold appendJsonlCut rows tailRow
    rw [hpart, terminated_append hfree, lastLine_append hfree, hfile, List.nil_append]
    refine ⟨rfl, ?_⟩
    dsimp only [lineValue]
    by_cases hwhole : (codec.line row).take cut = codec.line row
    · right
      rw [hwhole, if_neg (codec.notBlank row), codec.parse_line]
    · left
      split
      · rfl
      · exact codec.parse_cut row _ hstarts hwhole
  · right
    unfold appendJsonlCut appendJsonl
    rw [List.take_of_length_le]
    rw [appended, List.length_append, List.length_singleton]
    omega

theorem ended_appendJsonl (file : List UInt8) (row : Row) :
    Ended (appendJsonl codec file row) := by
  unfold Ended appendJsonl appended
  rw [← List.append_assoc]
  exact lastLine_append_sep (codec.newline_notMem row)

theorem rows_appendJsonl (hfile : Ended file) (row : Row) :
    rows codec (appendJsonl codec file row) = rows codec file ++ [codec.toValue row] := by
  unfold appendJsonl appended rows
  rw [← List.append_assoc, terminated_append_sep (codec.newline_notMem row), hfile,
    List.nil_append, List.filterMap_append]
  have hvalue : lineValue codec (decodeUtf8 (codec.line row)) = some (codec.toValue row) := by
    rw [lineValue, if_neg (codec.notBlank row), codec.parse_line]
  rw [List.filterMap_cons, hvalue]
  rfl

theorem ended_jsonlContent (written : List Row) : Ended (jsonlContent codec written) := by
  have hlines : ∀ line ∈ written.map codec.line, newline ∉ line := by
    intro line hline
    obtain ⟨row, -, rfl⟩ := List.mem_map.mp hline
    exact codec.newline_notMem row
  have hlast := @lastLine_unlines_append _ _ newline _ [] hlines List.not_mem_nil
  rwa [List.append_nil] at hlast

theorem rows_jsonlContent (written : List Row) :
    rows codec (jsonlContent codec written) = written.map codec.toValue := by
  unfold rows jsonlContent
  have hlines : ∀ line ∈ written.map codec.line, newline ∉ line := by
    intro line hline
    obtain ⟨row, -, rfl⟩ := List.mem_map.mp hline
    exact codec.newline_notMem row
  have hterminated := @terminated_unlines_append _ _ newline _ [] hlines List.not_mem_nil
  rw [List.append_nil] at hterminated
  rw [hterminated]
  induction written with
  | nil => rfl
  | cons row rest ih =>
    have hvalue : lineValue codec (decodeUtf8 (codec.line row)) = some (codec.toValue row) := by
      rw [lineValue, if_neg (codec.notBlank row), codec.parse_line]
    rw [List.map_cons, List.filterMap_cons, hvalue]
    rw [ih (fun line hline => hlines line (List.mem_cons_of_mem _ hline))]
    · rfl
    · have hrest : ∀ line ∈ rest.map codec.line, newline ∉ line :=
        fun line hline => hlines line (List.mem_cons_of_mem _ hline)
      have hthem := @terminated_unlines_append _ _ newline _ [] hrest List.not_mem_nil
      rwa [List.append_nil] at hthem

end Files

end JsonLines
