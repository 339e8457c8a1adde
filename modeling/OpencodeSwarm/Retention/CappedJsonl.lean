/-
  OpencodeSwarm.Retention.CappedJsonl

  The capped JSONL append (`src/retention/jsonl-cap.ts`).  The caps are enforced
  before the append: the file is rewritten without its oldest lines, and the new
  record is appended to it in a second step.

  A file is its decoded text.  The rewrite goes through a temporary file and a
  rename, so of the rewrite the file itself sees the rename only.
-/
import OpencodeSwarm.Lib.TextLines

namespace OpencodeSwarm

open Js TextLines

def newline : CodeUnit := 0xA

structure CappedJsonlOptions where
  maxEntries : Nat
  maxBytes : Option Nat

def wholeLines (content : JsString) : List JsString :=
  ((content.splitOn newline).map trim).filter fun line => decide (line ≠ [])

/-- The loop of `selectCompactionSurvivors`, from the newest line to the oldest. -/
def keepNewest (opts : CappedJsonlOptions) : List JsString → List JsString → Nat → List JsString
  | [], kept, _ => kept
  | line :: older, kept, keptBytes =>
    if opts.maxEntries ≤ kept.length then kept
    else
      let lineBytes := utf8Length (line ++ [newline])
      if !kept.isEmpty && opts.maxBytes.any (fun maxBytes => maxBytes < keptBytes + lineBytes) then
        kept
      else keepNewest opts older (line :: kept) (keptBytes + lineBytes)

def selectCompactionSurvivors (lines : List JsString) (opts : CappedJsonlOptions) :
    List JsString :=
  keepNewest opts lines.reverse [] 0

/-- The lines that `appendAndCap` counts, the new record last. -/
def combinedLines (existing line : JsString) : List JsString := wholeLines existing ++ [trim line]

/-- How many of them the caps drop. -/
def droppedCount (opts : CappedJsonlOptions) (existing line : JsString) : Nat :=
  (combinedLines existing line).length
    - (selectCompactionSurvivors (combinedLines existing line) opts).length

/-- The old lines that a compaction keeps. -/
def compactedLines (opts : CappedJsonlOptions) (existing line : JsString) : List JsString :=
  ((combinedLines existing line).take ((combinedLines existing line).length - 1)).drop
    (droppedCount opts existing line)

/-- The caps have room for the newest old line beside the record. -/
def leavesRoom (opts : CappedJsonlOptions) (lines : List JsString) (line : JsString) : Bool :=
  1 < opts.maxEntries && lines.getLast?.any fun newest =>
    opts.maxBytes.all fun maxBytes =>
      utf8Length (line ++ [newline]) + utf8Length (newest ++ [newline]) ≤ maxBytes

/-- The text that the rename puts in place. -/
def compactedText (lines : List JsString) : JsString :=
  if lines = [] then [] else [newline].intercalate lines ++ [newline]

/-- The file behind the rename, if there is one. -/
def capped (opts : CappedJsonlOptions) (existing line : JsString) : JsString :=
  if 0 < droppedCount opts existing line then compactedText (compactedLines opts existing line)
  else existing

/-- `appendAndCap`: the file behind both steps. -/
def appendAndCap (opts : CappedJsonlOptions) (existing line : JsString) : JsString :=
  capped opts existing line ++ trim line ++ [newline]

/-! ## Whole lines -/

/-- The records of a file: its lines that a newline ends. -/
def wholeRecords (content : JsString) : List JsString :=
  ((terminated newline content).map trim).filter fun line => decide (line ≠ [])

/-- What comes behind the last newline, as `wholeLines` takes it. -/
def tornLine (content : JsString) : JsString := trim (lastLine newline content)

theorem wholeLines_eq (content : JsString) :
    wholeLines content
      = wholeRecords content ++ if tornLine content = [] then [] else [tornLine content] := by
  unfold wholeLines wholeRecords tornLine
  rw [splitOn_eq, List.map_append, List.filter_append, List.map_singleton]
  by_cases h : trim (lastLine newline content) = []
  · rw [if_pos h, h]
    rfl
  · have hkept : [trim (lastLine newline content)].filter (fun line => decide (line ≠ []))
        = [trim (lastLine newline content)] := by
      rw [List.filter_singleton, decide_eq_true h, cond_true]
    rw [if_neg h, hkept]

variable {content : JsString}

theorem wholeLines_of_tornLine (h : tornLine content = []) :
    wholeLines content = wholeRecords content := by
  rw [wholeLines_eq, if_pos h, List.append_nil]

/-- Lines as a file keeps them. -/
def TidyLine (line : JsString) : Prop := newline ∉ line ∧ trim line = line ∧ line ≠ []

variable {line : JsString}

theorem tidyLine_of_mem_wholeLines (h : line ∈ wholeLines content) : TidyLine line := by
  obtain ⟨hmem, hne⟩ := List.mem_filter.mp h
  obtain ⟨raw, hraw, rfl⟩ := List.mem_map.mp hmem
  have hfree := sep_notMem_of_mem_splitOn hraw
  exact ⟨fun hnewline => hfree (mem_of_mem_trim hnewline), trim_trim raw, of_decide_eq_true hne⟩

theorem compactedText_eq (lines : List JsString) :
    compactedText lines = unlines newline lines := by
  unfold compactedText
  induction lines with
  | nil => rfl
  | cons line rest ih =>
    cases rest with
    | nil => simp [unlines]
    | cons second others =>
      rw [if_neg (List.cons_ne_nil _ _)] at ih
      rw [List.intercalate_cons_cons, List.append_assoc, ih]
      rfl

variable {lines : List JsString}

theorem wholeRecords_compactedText (h : ∀ line ∈ lines, TidyLine line) :
    wholeRecords (compactedText lines) = lines := by
  have hterminated := @terminated_unlines_append _ _ newline lines []
    (fun line hline => (h line hline).1) List.not_mem_nil
  rw [wholeRecords, compactedText_eq]
  rw [List.append_nil] at hterminated
  rw [hterminated]
  have htrim : lines.map trim = lines :=
    (List.map_congr_left fun line hline => (h line hline).2.1).trans (List.map_id lines)
  rw [htrim]
  exact List.filter_eq_self.mpr fun line hline => decide_eq_true (h line hline).2.2

theorem tornLine_compactedText (h : ∀ line ∈ lines, TidyLine line) :
    tornLine (compactedText lines) = [] := by
  have hlast := @lastLine_unlines_append _ _ newline lines []
    (fun line hline => (h line hline).1) List.not_mem_nil
  rw [tornLine, compactedText_eq]
  rw [List.append_nil] at hlast
  rw [hlast]
  rfl

variable {part : JsString}

theorem wholeRecords_append (h : newline ∉ part) :
    wholeRecords (content ++ part) = wholeRecords content := by
  unfold wholeRecords
  rw [terminated_append h]

theorem wholeRecords_append_record (htorn : tornLine content = []) (hline : TidyLine line) :
    wholeRecords (content ++ line ++ [newline]) = wholeRecords content ++ [line] := by
  have hkept : [line].filter (fun line => decide (line ≠ [])) = [line] := by
    rw [List.filter_singleton, decide_eq_true hline.2.2, cond_true]
  unfold wholeRecords
  rw [terminated_append_sep hline.1, List.map_append, List.filter_append, List.map_singleton,
    trim_append_of_blank htorn, hline.2.1, hkept]

theorem tornLine_append_record (h : newline ∉ line) :
    tornLine (content ++ line ++ [newline]) = [] := by
  rw [tornLine, lastLine_append_sep h]
  rfl

/-- Part of a record behind a file whose last line is ended, or blank. -/
theorem tornLine_append (htorn : tornLine content = []) (h : newline ∉ part) :
    tornLine (content ++ part) = trim part := by
  rw [tornLine, lastLine_append h, trim_append_of_blank htorn]

/-! ## What compaction keeps -/

theorem keepNewest_spec (opts : CappedJsonlOptions) (older kept : List JsString) (bytes : Nat)
    (hkept : kept.length ≤ opts.maxEntries) :
    kept <:+ keepNewest opts older kept bytes
      ∧ keepNewest opts older kept bytes <:+ older.reverse ++ kept
      ∧ (keepNewest opts older kept bytes).length ≤ opts.maxEntries := by
  induction older generalizing kept bytes with
  | nil => exact ⟨List.suffix_rfl, List.suffix_rfl, hkept⟩
  | cons line rest ih =>
    have hstop : kept <:+ (line :: rest).reverse ++ kept := List.suffix_append _ _
    unfold keepNewest
    split
    · exact ⟨List.suffix_rfl, hstop, hkept⟩
    dsimp only
    split
    · exact ⟨List.suffix_rfl, hstop, hkept⟩
    have hroom' : (line :: kept).length ≤ opts.maxEntries := by
      rw [List.length_cons]
      omega
    obtain ⟨hfirst, hrest, hlength⟩ := ih (line :: kept)
      (bytes + utf8Length (line ++ [newline])) hroom'
    refine ⟨(List.suffix_cons line kept).trans hfirst, ?_, hlength⟩
    rwa [List.reverse_cons, List.append_assoc]

variable {opts : CappedJsonlOptions}

theorem selectCompactionSurvivors_concat (hentries : 1 ≤ opts.maxEntries) (lines : List JsString)
    (line : JsString) : selectCompactionSurvivors (lines ++ [line]) opts
      = keepNewest opts lines.reverse [line] (0 + utf8Length (line ++ [newline])) := by
  unfold selectCompactionSurvivors
  rw [List.reverse_append, List.reverse_singleton, List.singleton_append, keepNewest]
  have hfirst : ¬ opts.maxEntries ≤ ([] : List JsString).length := by
    rw [List.length_nil]
    omega
  rw [if_neg hfirst]
  rfl

theorem selectCompactionSurvivors_spec (hentries : 1 ≤ opts.maxEntries) (lines : List JsString)
    (line : JsString) :
    ∃ kept, selectCompactionSurvivors (lines ++ [line]) opts = kept ++ [line] ∧ kept <:+ lines
      ∧ kept.length + 1 ≤ opts.maxEntries := by
  obtain ⟨hlast, hsuffix, hlength⟩ := keepNewest_spec opts lines.reverse [line]
    (0 + utf8Length (line ++ [newline])) hentries
  rw [selectCompactionSurvivors_concat hentries]
  obtain ⟨kept, hkept⟩ := hlast
  rw [← hkept, List.reverse_reverse] at hsuffix
  rw [← hkept, List.length_append, List.length_singleton] at hlength
  obtain ⟨gone, hgone⟩ := hsuffix
  rw [← List.append_assoc] at hgone
  exact ⟨kept, hkept.symm, ⟨gone, List.append_cancel_right hgone⟩, hlength⟩

/-- The record alone survives exactly when the caps leave no room beside it. -/
theorem selectCompactionSurvivors_singleton_iff (hentries : 1 ≤ opts.maxEntries)
    (lines : List JsString) (line : JsString) :
    selectCompactionSurvivors (lines ++ [line]) opts = [line]
      ↔ leavesRoom opts lines line = false := by
  rw [selectCompactionSurvivors_concat hentries, Nat.zero_add]
  rcases List.eq_nil_or_concat lines with rfl | ⟨older, newest, rfl⟩
  · simp [keepNewest, leavesRoom]
  rw [List.concat_eq_append, List.reverse_append, List.reverse_singleton, List.singleton_append,
    keepNewest, leavesRoom, List.getLast?_concat, Option.any_some]
  by_cases hroom : opts.maxEntries ≤ 1
  · simp [Nat.not_lt.mpr hroom]
  rw [if_neg (show ¬ opts.maxEntries ≤ [line].length from hroom)]
  dsimp only
  rw [show (! [line].isEmpty) = true from rfl, Bool.true_and]
  have hmany : 1 < opts.maxEntries := Nat.lt_of_not_le hroom
  cases hbytes : opts.maxBytes.any fun maxBytes =>
      maxBytes < utf8Length (line ++ [newline]) + utf8Length (newest ++ [newline]) with
  | true =>
    refine iff_of_true rfl ?_
    obtain ⟨maxBytes, hmax, hover⟩ := (Option.any_eq_true _ _).mp hbytes
    rw [hmax]
    have hover := of_decide_eq_true hover
    simp only [Option.all_some, Bool.and_eq_false_iff, decide_eq_false_iff_not]
    exact Or.inr (Nat.not_le.mpr hover)
  | false =>
    rw [if_neg Bool.false_ne_true]
    have hall : (opts.maxBytes.all fun maxBytes => utf8Length (line ++ [newline])
        + utf8Length (newest ++ [newline]) ≤ maxBytes) = true := by
      cases hmax : opts.maxBytes with
      | none => rfl
      | some maxBytes =>
        rw [hmax] at hbytes
        simpa using hbytes
    rw [hall, Bool.and_true, decide_eq_true hmany]
    refine iff_of_false (fun halone => ?_) Bool.noConfusion
    obtain ⟨⟨gone, hgone⟩, -, -⟩ := keepNewest_spec opts older.reverse [newest, line]
      (utf8Length (line ++ [newline]) + utf8Length (newest ++ [newline])) hmany
    rw [halone] at hgone
    have hlength := congrArg List.length hgone
    simp only [List.length_append, List.length_cons, List.length_nil] at hlength
    omega

/-- What is kept of the old lines: their newest ones, and room for the record. -/
theorem compactedLines_spec (hentries : 1 ≤ opts.maxEntries) (existing line : JsString) :
    compactedLines opts existing line <:+ wholeLines existing
      ∧ (compactedLines opts existing line).length + 1 ≤ opts.maxEntries
      ∧ (droppedCount opts existing line = 0 →
        compactedLines opts existing line = wholeLines existing)
      ∧ (compactedLines opts existing line = []
        ↔ leavesRoom opts (wholeLines existing) (trim line) = false) := by
  obtain ⟨kept, hkept, ⟨gone, hgone⟩, hlength⟩ :=
    selectCompactionSurvivors_spec hentries (wholeLines existing) (trim line)
  have hdropped : droppedCount opts existing line = gone.length := by
    unfold droppedCount combinedLines
    rw [hkept, ← hgone]
    simp only [List.length_append, List.length_singleton]
    omega
  have hcompacted : compactedLines opts existing line = kept := by
    rw [compactedLines, hdropped]
    unfold combinedLines
    rw [List.length_append, List.length_singleton, Nat.add_sub_cancel, List.take_left, ← hgone,
      List.drop_left]
  rw [hcompacted, hdropped, ← selectCompactionSurvivors_singleton_iff hentries, hkept]
  refine ⟨⟨gone, hgone⟩, hlength, fun hnone => ?_, List.append_left_eq_self.symm⟩
  rw [List.length_eq_zero_iff] at hnone
  rw [← hgone, hnone]
  rfl

end OpencodeSwarm
