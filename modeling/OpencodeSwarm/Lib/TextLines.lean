/-
  OpencodeSwarm.Lib.TextLines

  A text as lines that a separator ends, and what comes behind the last separator.
  Appending moves that last part only, until the next separator ends it.
-/
import Mathlib.Data.List.DropRight
import OpencodeSwarm.Lib.JsString

namespace TextLines

variable {α : Type*} [DecidableEq α] {sep : α}

/-- The lines, each with its separator. -/
def unlines (sep : α) (lines : List (List α)) : List α := lines.flatMap (· ++ [sep])

/-- The lines that a separator ends. -/
def terminated (sep : α) (text : List α) : List (List α) := (text.splitOn sep).dropLast

/-- What comes behind the last separator. -/
def lastLine (sep : α) (text : List α) : List α := (text.splitOn sep).getLastD []

theorem splitOn_unlines_append {lines : List (List α)} {tail : List α}
    (hlines : ∀ line ∈ lines, sep ∉ line) (htail : sep ∉ tail) :
    (unlines sep lines ++ tail).splitOn sep = lines ++ [tail] := by
  induction lines with
  | nil => exact List.splitOn_eq_singleton htail
  | cons line rest ih =>
    have hshape : unlines sep (line :: rest) ++ tail
        = line ++ sep :: (unlines sep rest ++ tail) := by
      rw [unlines, List.flatMap_cons, List.append_assoc, List.append_assoc]
      rfl
    rw [hshape, List.splitOn_append_cons_self_of_not_mem (hlines line List.mem_cons_self),
      ih fun other hother => hlines other (List.mem_cons_of_mem _ hother)]
    rfl

theorem terminated_unlines_append {lines : List (List α)} {tail : List α}
    (hlines : ∀ line ∈ lines, sep ∉ line) (htail : sep ∉ tail) :
    terminated sep (unlines sep lines ++ tail) = lines := by
  rw [terminated, splitOn_unlines_append hlines htail]
  exact List.dropLast_concat

theorem lastLine_unlines_append {lines : List (List α)} {tail : List α}
    (hlines : ∀ line ∈ lines, sep ∉ line) (htail : sep ∉ tail) :
    lastLine sep (unlines sep lines ++ tail) = tail := by
  rw [lastLine, splitOn_unlines_append hlines htail, List.getLastD_concat]

theorem exists_unlines (sep : α) (text : List α) :
    ∃ lines tail, text = unlines sep lines ++ tail ∧ (∀ line ∈ lines, sep ∉ line) ∧ sep ∉ tail := by
  induction text with
  | nil => exact ⟨[], [], rfl, fun _ h => (nomatch h), List.not_mem_nil⟩
  | cons c rest ih =>
    obtain ⟨lines, tail, rfl, hlines, htail⟩ := ih
    by_cases hc : c = sep
    · refine ⟨[] :: lines, tail, ?_, ?_, htail⟩
      · rw [hc]
        rfl
      · intro line hline
        rcases List.mem_cons.mp hline with rfl | hrest
        · exact List.not_mem_nil
        · exact hlines line hrest
    · -- the character opens the first line, or the only one
      have hopen : ∀ line : List α, sep ∉ line → sep ∉ c :: line := by
        intro line hline hmem
        rcases List.mem_cons.mp hmem with heq | hold
        · exact hc heq.symm
        · exact hline hold
      cases lines with
      | nil => exact ⟨[], c :: tail, rfl, fun _ h => (nomatch h), hopen tail htail⟩
      | cons first others =>
        refine ⟨(c :: first) :: others, tail, rfl, ?_, htail⟩
        intro line hline
        rcases List.mem_cons.mp hline with rfl | hrest
        · exact hopen first (hlines first List.mem_cons_self)
        · exact hlines line (List.mem_cons_of_mem _ hrest)

omit [DecidableEq α] in
theorem unlines_append (lines later : List (List α)) :
    unlines sep (lines ++ later) = unlines sep lines ++ unlines sep later :=
  List.flatMap_append

theorem splitOn_eq (text : List α) :
    text.splitOn sep = terminated sep text ++ [lastLine sep text] := by
  obtain ⟨lines, tail, rfl, hlines, htail⟩ := exists_unlines sep text
  rw [splitOn_unlines_append hlines htail, terminated_unlines_append hlines htail,
    lastLine_unlines_append hlines htail]

theorem sep_notMem_of_mem_splitOn {text line : List α} (h : line ∈ text.splitOn sep) :
    sep ∉ line := by
  obtain ⟨lines, tail, rfl, hlines, htail⟩ := exists_unlines sep text
  rw [splitOn_unlines_append hlines htail] at h
  rcases List.mem_append.mp h with hmem | hlast
  · exact hlines line hmem
  · rw [List.mem_singleton.mp hlast]
    exact htail

theorem prefix_of_unlines_eq {lines short : List (List α)} {rest : List α}
    (hlines : ∀ line ∈ lines, sep ∉ line) (hshort : ∀ line ∈ short, sep ∉ line)
    (h : unlines sep lines = unlines sep short ++ rest) : short <+: lines := by
  obtain ⟨others, tail, rfl, hothers, htail⟩ := exists_unlines sep rest
  have hall : ∀ line ∈ short ++ others, sep ∉ line := by
    intro line hline
    rcases List.mem_append.mp hline with hfirst | hlater
    · exact hshort line hfirst
    · exact hothers line hlater
  have hwhole : lines ++ [[]] = short ++ others ++ [tail] := by
    rw [← splitOn_unlines_append hall htail, unlines_append, List.append_assoc, ← h]
    have hsplit := splitOn_unlines_append hlines (List.not_mem_nil (a := sep))
    rwa [List.append_nil, eq_comm] at hsplit
  exact ⟨others, (List.append_inj_left' hwhole rfl).symm⟩

/-! ## Appending -/

section Append

variable {text part : List α}

theorem terminated_append (h : sep ∉ part) :
    terminated sep (text ++ part) = terminated sep text := by
  obtain ⟨lines, tail, rfl, hlines, htail⟩ := exists_unlines sep text
  have hjoined : sep ∉ tail ++ part := fun hmem => (List.mem_append.mp hmem).elim htail h
  rw [List.append_assoc, terminated_unlines_append hlines hjoined,
    terminated_unlines_append hlines htail]

theorem lastLine_append (h : sep ∉ part) :
    lastLine sep (text ++ part) = lastLine sep text ++ part := by
  obtain ⟨lines, tail, rfl, hlines, htail⟩ := exists_unlines sep text
  have hjoined : sep ∉ tail ++ part := fun hmem => (List.mem_append.mp hmem).elim htail h
  rw [List.append_assoc, lastLine_unlines_append hlines hjoined,
    lastLine_unlines_append hlines htail]

theorem unlines_lastLine (h : sep ∉ part) :
    ∃ lines, text ++ part ++ [sep] = unlines sep (lines ++ [lastLine sep text ++ part])
      ∧ lines = terminated sep text ∧ ∀ line ∈ lines ++ [lastLine sep text ++ part],
        sep ∉ line := by
  obtain ⟨lines, tail, rfl, hlines, htail⟩ := exists_unlines sep text
  refine ⟨lines, ?_, (terminated_unlines_append hlines htail).symm, ?_⟩
  · rw [lastLine_unlines_append hlines htail, unlines_append, List.append_assoc, List.append_assoc]
    unfold unlines
    rw [List.flatMap_singleton, List.append_assoc]
  · rw [lastLine_unlines_append hlines htail]
    intro line hline
    rcases List.mem_append.mp hline with hold | hnew
    · exact hlines line hold
    · rw [List.mem_singleton.mp hnew]
      exact fun hmem => (List.mem_append.mp hmem).elim htail h

theorem terminated_append_sep (h : sep ∉ part) :
    terminated sep (text ++ part ++ [sep])
      = terminated sep text ++ [lastLine sep text ++ part] := by
  obtain ⟨lines, hlines, rfl, hfree⟩ := @unlines_lastLine _ _ sep text part h
  have hterminated := @terminated_unlines_append _ _ sep _ [] hfree List.not_mem_nil
  rwa [List.append_nil, ← hlines] at hterminated

theorem lastLine_append_sep (h : sep ∉ part) : lastLine sep (text ++ part ++ [sep]) = [] := by
  obtain ⟨lines, hlines, rfl, hfree⟩ := @unlines_lastLine _ _ sep text part h
  have hlast := @lastLine_unlines_append _ _ sep _ [] hfree List.not_mem_nil
  rwa [List.append_nil, ← hlines] at hlast

end Append

end TextLines

/-! ## Blank ends -/

namespace Js

variable {s : JsString}

theorem mem_of_mem_trim {c : CodeUnit} (h : c ∈ trim s) : c ∈ s := by
  have hfirst := (List.dropWhile_suffix isSpace).subset (List.mem_reverse.mp h)
  exact (List.dropWhile_suffix isSpace).subset (List.mem_reverse.mp hfirst)

theorem isSpace_of_trim_eq_nil (h : trim s = []) : ∀ c ∈ s, isSpace c = true := by
  rw [trim, List.reverse_eq_nil_iff, List.dropWhile_eq_nil_iff] at h
  have hrest : s.dropWhile isSpace = [] := by
    cases hdrop : s.dropWhile isSpace with
    | nil => rfl
    | cons c rest =>
      have hspace : isSpace c = true := h c (by rw [hdrop]; simp)
      have hnot := List.head_dropWhile_not isSpace (by rw [hdrop]; exact List.cons_ne_nil _ _)
      simp only [hdrop, List.head_cons] at hnot
      rw [hspace] at hnot
      cases hnot
  exact List.dropWhile_eq_nil_iff.mp hrest

theorem trim_append_of_blank {blank : JsString} (h : trim blank = []) :
    trim (blank ++ s) = trim s := by
  unfold trim
  rw [List.dropWhile_append_of_pos (isSpace_of_trim_eq_nil h)]

theorem trim_trim (s : JsString) : trim (trim s) = trim s := by
  have hstart : (trim s).dropWhile isSpace = trim s := by
    cases htrim : trim s with
    | nil => rfl
    | cons c rest =>
      -- the first unit is the one that the left trim stopped at
      have hbegins : trim s <+: s.dropWhile isSpace := by
        have hsuffix : (s.dropWhile isSpace).reverse.dropWhile isSpace
            <:+ (s.dropWhile isSpace).reverse := List.dropWhile_suffix isSpace
        have hreversed := List.reverse_prefix.mpr hsuffix
        rwa [List.reverse_reverse] at hreversed
      rw [htrim] at hbegins
      obtain ⟨after, hafter⟩ := hbegins
      have hne : s.dropWhile isSpace ≠ [] := by
        rw [← hafter]
        exact List.cons_ne_nil _ _
      have hnot := List.head_dropWhile_not isSpace hne
      simp only [← hafter, List.cons_append, List.head_cons] at hnot
      rw [List.dropWhile_cons_of_neg (by rw [hnot]; exact Bool.false_ne_true)]
  have hend : (trim s).reverse.dropWhile isSpace = (trim s).reverse := by
    rw [trim, List.reverse_reverse, List.dropWhile_idempotent isSpace]
  calc trim (trim s) = (((trim s).dropWhile isSpace).reverse.dropWhile isSpace).reverse := rfl
    _ = ((trim s).reverse.dropWhile isSpace).reverse := by rw [hstart]
    _ = trim s := by rw [hend, List.reverse_reverse]

end Js
