/-
  OpencodeSwarm.Text.CollapsedBlanks

  Runs of blanks that are collapsed to one space, and the walk over both texts that
  finds the original positions again.  It lags one position behind while a run shows
  tabs only, and it is one position ahead behind the first space of a run.
-/
import OpencodeSwarm.Text.FuzzyMatch

namespace OpencodeSwarm

open Js

/-! ## Collapsing -/

/-- Whether a run is under way behind a text. -/
def runAfter (inRun : Bool) (front : JsString) : Bool :=
  front.foldl (fun _ c => isInlineBlank c) inRun

theorem runAfter_concat (inRun : Bool) (front : JsString) (c : CodeUnit) :
    runAfter inRun (front ++ [c]) = isInlineBlank c := by
  rw [runAfter, List.foldl_concat]

theorem collapseFrom_append (inRun : Bool) (front back : JsString) :
    collapseFrom inRun (front ++ back)
      = collapseFrom inRun front ++ collapseFrom (runAfter inRun front) back := by
  induction front generalizing inRun with
  | nil => rfl
  | cons c rest ih =>
    have hnext : runAfter inRun (c :: rest) = runAfter (isInlineBlank c) rest := rfl
    rw [hnext, List.cons_append, collapseFrom, collapseFrom]
    by_cases hc : isInlineBlank c = true
    · rw [if_pos hc, if_pos hc, hc, ih]
      cases inRun with
      | true => rw [if_pos rfl, if_pos rfl]
      | false => rw [if_neg Bool.false_ne_true, if_neg Bool.false_ne_true, List.cons_append]
    · have hplain : isInlineBlank c = false := Bool.eq_false_of_not_eq_true hc
      rw [if_neg hc, if_neg hc, hplain, ih, List.cons_append]

/-- What one more character adds. -/
def collapsedChar (inRun : Bool) (c : CodeUnit) : JsString :=
  if isInlineBlank c then if inRun then [] else [0x20] else [c]

theorem collapseFrom_singleton (inRun : Bool) (c : CodeUnit) :
    collapseFrom inRun [c] = collapsedChar inRun c := by
  unfold collapseFrom collapsedChar
  split
  · split
    · rfl
    · rfl
  · rfl

theorem collapseFrom_cons (inRun : Bool) (c : CodeUnit) (rest : JsString) :
    collapseFrom inRun (c :: rest) = collapsedChar inRun c
      ++ collapseFrom (isInlineBlank c) rest := by
  rw [← List.singleton_append, collapseFrom_append, collapseFrom_singleton]
  rfl

theorem collapseBlanks_concat (front : JsString) (c : CodeUnit) :
    collapseBlanks (front ++ [c]) = collapseBlanks front
      ++ collapsedChar (runAfter false front) c := by
  unfold collapseBlanks
  rw [collapseFrom_append, collapseFrom_singleton]

theorem collapseBlanks_eq_nil {s : JsString} (h : collapseBlanks s = []) : s = [] := by
  cases s with
  | nil => rfl
  | cons c rest =>
    rw [collapseBlanks, collapseFrom_cons] at h
    have hchar := (List.append_eq_nil_iff.mp h).1
    unfold collapsedChar at hchar
    split at hchar
    · cases hchar
    · cases hchar

/-! ### Positions -/

/-- How long the first `k` characters are, collapsed. -/
def collapsedLength (text : JsString) (k : Nat) : Nat := (collapseBlanks (text.take k)).length

def blankAt (text : JsString) (i : Nat) : Bool := text[i]?.any isInlineBlank

/-- A blank behind a blank. -/
def insideRun (text : JsString) (i : Nat) : Bool :=
  decide (0 < i) && blankAt text (i - 1) && blankAt text i

section Positions

variable {text : JsString} {i j : Nat}

theorem blankAt_of_lt (hi : i < text.length) : blankAt text i = isInlineBlank text[i] := by
  rw [blankAt, List.getElem?_eq_getElem hi, Option.any_some]

theorem lt_of_blankAt (h : blankAt text i = true) : i < text.length := by
  by_contra hout
  rw [blankAt, List.getElem?_eq_none (by omega)] at h
  cases h

theorem insideRun_iff :
    insideRun text i = true ↔ 0 < i ∧ blankAt text (i - 1) = true ∧ blankAt text i = true := by
  rw [insideRun, Bool.and_eq_true, Bool.and_eq_true, decide_eq_true_iff, and_assoc]

theorem runAfter_take (hi : i ≤ text.length) :
    runAfter false (text.take i) = (decide (0 < i) && blankAt text (i - 1)) := by
  cases i with
  | zero => rfl
  | succ k =>
    have hk : k < text.length := hi
    rw [← List.take_append_getElem hk, runAfter_concat, decide_eq_true (Nat.succ_pos k),
      Bool.true_and, Nat.add_sub_cancel, blankAt_of_lt hk]

theorem collapsedLength_zero (text : JsString) : collapsedLength text 0 = 0 := rfl

theorem collapsedLength_length (text : JsString) :
    collapsedLength text text.length = (collapseBlanks text).length := by
  rw [collapsedLength, List.take_length]

theorem collapsedLength_succ (hi : i < text.length) :
    collapsedLength text (i + 1)
      = collapsedLength text i + if insideRun text i = true then 0 else 1 := by
  have hblank := blankAt_of_lt hi
  unfold collapsedLength
  rw [← List.take_append_getElem hi, collapseBlanks_concat, List.length_append,
    runAfter_take hi.le]
  unfold collapsedChar insideRun
  rw [← hblank]
  cases blankAt text i with
  | false => rw [Bool.and_false]; rfl
  | true =>
    rw [Bool.and_true, if_pos rfl]
    split
    · rfl
    · rfl

theorem collapsedLength_mono (hij : i ≤ j) (hj : j ≤ text.length) :
    collapsedLength text i ≤ collapsedLength text j := by
  induction j with
  | zero =>
    have hzero : i = 0 := Nat.le_zero.mp hij
    rw [hzero]
  | succ k ih =>
    by_cases heq : i = k + 1
    · rw [heq]
    · rw [collapsedLength_succ (by omega)]
      omega

theorem insideRun_of_collapsedLength_eq (hj : j ≤ text.length)
    (h : collapsedLength text i = collapsedLength text j) {k : Nat} (hik : i ≤ k) (hkj : k < j) :
    insideRun text k = true := by
  by_contra houtside
  have hstep := @collapsedLength_succ text k (by omega)
  rw [if_neg houtside] at hstep
  have hfront := collapsedLength_mono hik (show k ≤ text.length by omega)
  have hback := collapsedLength_mono (show k + 1 ≤ j by omega) hj
  omega

theorem collapseBlanks_take (text : JsString) (j : Nat) :
    collapseBlanks (text.take j) = (collapseBlanks text).take (collapsedLength text j) := by
  have hwhole : collapseBlanks text = collapseBlanks (text.take j)
      ++ collapseFrom (runAfter false (text.take j)) (text.drop j) := by
    unfold collapseBlanks
    rw [← collapseFrom_append, List.take_append_drop]
  rw [collapsedLength, hwhole, List.take_left]

/-- A part of a text is collapsed to its part of the collapsed text, behind one more space
    if it begins inside a run. -/
theorem collapseBlanks_sliceOf (hij : i < j) (hj : j ≤ text.length) :
    collapseBlanks (sliceOf text i j) = (if insideRun text i = true then [0x20] else [])
      ++ sliceOf (collapseBlanks text) (collapsedLength text i) (collapsedLength text j) := by
  have hi : i < text.length := by omega
  have hpart : collapseFrom (runAfter false (text.take i)) (sliceOf text i j)
      = sliceOf (collapseBlanks text) (collapsedLength text i) (collapsedLength text j) := by
    have hfront := congrArg collapseBlanks (take_append_sliceOf text hij.le)
    unfold collapseBlanks at hfront
    rw [collapseFrom_append] at hfront
    show _ = ((collapseBlanks text).take (collapsedLength text j)).drop (collapsedLength text i)
    rw [← collapseBlanks_take]
    unfold collapsedLength collapseBlanks
    rw [← hfront, List.drop_left]
  have hhead : sliceOf text i j = text[i] :: sliceOf text (i + 1) j := by
    unfold sliceOf
    have hlt : i < (text.take j).length := by
      rw [List.length_take]
      omega
    rw [List.drop_eq_getElem_cons hlt, List.getElem_take]
  rw [← hpart, hhead, runAfter_take hi.le]
  rw [collapseBlanks, collapseFrom_cons, collapseFrom_cons, ← List.append_assoc]
  unfold collapsedChar insideRun
  rw [← blankAt_of_lt hi]
  cases blankAt text i with
  | false => rw [Bool.and_false]; rfl
  | true =>
    rw [Bool.and_true, if_pos rfl, if_pos rfl, if_neg Bool.false_ne_true]
    split
    · rfl
    · rfl

end Positions

/-! ## The walk -/

/-- The blanks at the end of a text. -/
def trailingBlanks (front : JsString) : JsString := front.rtakeWhile isInlineBlank

/-- A run of tabs is under way, and no space yet. -/
def tabsBehind (front : JsString) : Bool :=
  decide (trailingBlanks front ≠ []) && decide (0x20 ∉ trailingBlanks front)

/-- Something that is no blank comes next. -/
def wordNext (rest : JsString) : Bool := rest.head?.any fun next => !isInlineBlank next

/-- The normalized position where the walk stands. -/
def walkPosition (front rest : JsString) : Nat :=
  (collapseBlanks front).length - if tabsBehind front && !wordNext rest then 1 else 0

theorem trailingBlanks_concat (front : JsString) (c : CodeUnit) :
    trailingBlanks (front ++ [c])
      = if isInlineBlank c then trailingBlanks front ++ [c] else [] := by
  unfold trailingBlanks
  rw [List.rtakeWhile_concat]

theorem runAfter_eq (front : JsString) :
    runAfter false front = decide (trailingBlanks front ≠ []) := by
  induction front using List.reverseRecOn with
  | nil => rfl
  | append_singleton front c ih =>
    rw [runAfter_concat, trailingBlanks_concat]
    cases isInlineBlank c with
    | true =>
      exact (decide_eq_true (List.concat_ne_nil c _)).symm
    | false => rfl

theorem tabsBehind_concat (front : JsString) (c : CodeUnit) :
    tabsBehind (front ++ [c])
      = (isInlineBlank c && decide (c ≠ 0x20) && decide (0x20 ∉ trailingBlanks front)) := by
  rw [tabsBehind, trailingBlanks_concat]
  cases isInlineBlank c with
  | false => rfl
  | true =>
    rw [if_pos rfl, decide_eq_true (List.concat_ne_nil c _), Bool.true_and, Bool.true_and,
      ← Bool.decide_and]
    refine decide_eq_decide.mpr ?_
    rw [List.mem_append, List.mem_singleton, not_or, and_comm]
    exact and_congr_left' (not_congr eq_comm)

/-- Tabs behind make a run, whose space is the last collapsed character. -/
theorem runAfter_of_tabsBehind {front : JsString} (h : tabsBehind front = true) :
    runAfter false front = true := by
  rw [runAfter_eq]
  exact (Bool.and_eq_true_iff.mp h).1

theorem exists_collapsed_of_runAfter {front : JsString} (h : runAfter false front = true) :
    ∃ before, collapseBlanks front = before ++ [0x20] := by
  induction front using List.reverseRecOn with
  | nil => cases h
  | append_singleton front c ih =>
    rw [runAfter_concat] at h
    rw [collapseBlanks_concat]
    rw [collapsedChar, if_pos h]
    cases hrun : runAfter false front with
    | true =>
      obtain ⟨before, hbefore⟩ := ih hrun
      exact ⟨before, by rw [if_pos rfl, List.append_nil, hbefore]⟩
    | false => exact ⟨collapseBlanks front, rfl⟩

section Step

variable {front rest : JsString} {c : CodeUnit}

theorem collapse_split (front rest : JsString) :
    collapseBlanks (front ++ rest)
      = collapseBlanks front ++ collapseFrom (runAfter false front) rest := by
  unfold collapseBlanks
  rw [collapseFrom_append]

/-- Without a lag the walk stands behind what the front is collapsed to. -/
theorem drop_walk_of_level (hlevel : (tabsBehind front && !wordNext rest) = false) :
    walkPosition front rest = (collapseBlanks front).length
      ∧ (collapseBlanks (front ++ rest)).drop (walkPosition front rest)
        = collapseFrom (runAfter false front) rest := by
  have hposition : walkPosition front rest = (collapseBlanks front).length := by
    rw [walkPosition, hlevel]
    rfl
  refine ⟨hposition, ?_⟩
  rw [hposition, collapse_split, List.drop_left]

theorem drop_walk_of_lag (hlag : (tabsBehind front && !wordNext rest) = true) :
    walkPosition front rest + 1 = (collapseBlanks front).length
      ∧ (collapseBlanks (front ++ rest)).drop (walkPosition front rest)
        = 0x20 :: collapseFrom true rest := by
  have hrun := runAfter_of_tabsBehind (Bool.and_eq_true_iff.mp hlag).1
  obtain ⟨before, hbefore⟩ := exists_collapsed_of_runAfter hrun
  have hposition : walkPosition front rest = before.length := by
    rw [walkPosition, hlag, hbefore, List.length_append, if_pos rfl]
    rfl
  refine ⟨?_, ?_⟩
  · rw [hposition, hbefore, List.length_append]
    rfl
  · rw [hposition, collapse_split, hrun, hbefore, List.append_assoc, List.drop_left]
    rfl

theorem collapseFrom_true_head {rest others : JsString} {h : CodeUnit}
    (heq : collapseFrom true rest = h :: others) : isInlineBlank h = false := by
  induction rest with
  | nil => cases heq
  | cons c rest ih =>
    rw [collapseFrom] at heq
    split at heq
    · exact ih heq
    rename_i hc
    rw [← (List.cons.inj heq).1]
    exact Bool.eq_false_of_not_eq_true hc

theorem wordNext_cons_of_blank (hc : isInlineBlank c = true) (rest : JsString) :
    wordNext (c :: rest) = false := by
  show (!isInlineBlank c) = false
  rw [hc]
  rfl

theorem blankWalk_word (n : Nat) (hc : isInlineBlank c = false) :
    blankWalk n (c :: rest) ((collapseBlanks (front ++ c :: rest)).drop
        (walkPosition front (c :: rest))) (walkPosition front (c :: rest))
      = walkPosition front (c :: rest) :: blankWalk n rest
        ((collapseBlanks (front ++ c :: rest)).drop (walkPosition (front ++ [c]) rest))
        (walkPosition (front ++ [c]) rest) := by
  have hword : wordNext (c :: rest) = true := by
    show (!isInlineBlank c) = true
    rw [hc]
    rfl
  obtain ⟨hposition, hdrop⟩ := @drop_walk_of_level front (c :: rest) (by rw [hword, Bool.not_true,
    Bool.and_false])
  obtain ⟨hnext, hnextDrop⟩ := @drop_walk_of_level (front ++ [c]) rest (by
    rw [tabsBehind_concat, hc]
    rfl)
  have hone : (collapseBlanks (front ++ [c])).length = (collapseBlanks front).length + 1 := by
    rw [collapseBlanks_concat]
    rw [collapsedChar, hc, List.length_append]
    rfl
  rw [List.append_assoc, List.singleton_append, runAfter_concat, hc] at hnextDrop
  have hstep : walkPosition (front ++ [c]) rest = walkPosition front (c :: rest) + 1 := by omega
  rw [hnextDrop, hstep, hdrop, collapseFrom_cons]
  rw [collapsedChar, hc, if_neg Bool.false_ne_true, List.singleton_append, blankWalk, if_pos rfl]

/-- One step over a blank while the space of its run is still to come in the collapsed text. -/
theorem blankWalk_first (n : Nat) (hc : isInlineBlank c = true)
    (htabs : 0x20 ∉ trailingBlanks front)
    (hposition : walkPosition front (c :: rest) + 1 = (collapseBlanks (front ++ [c])).length)
    (hdrop : (collapseBlanks (front ++ c :: rest)).drop (walkPosition front (c :: rest))
      = 0x20 :: collapseFrom true rest) :
    blankWalk n (c :: rest) ((collapseBlanks (front ++ c :: rest)).drop
        (walkPosition front (c :: rest))) (walkPosition front (c :: rest))
      = walkPosition front (c :: rest) :: blankWalk n rest
        ((collapseBlanks (front ++ c :: rest)).drop (walkPosition (front ++ [c]) rest))
        (walkPosition (front ++ [c]) rest) := by
  have hjoined : front ++ [c] ++ rest = front ++ c :: rest := by
    rw [List.append_assoc, List.singleton_append]
  have htabsBehind : tabsBehind (front ++ [c]) = decide (c ≠ 0x20) := by
    rw [tabsBehind_concat, hc, decide_eq_true htabs, Bool.true_and, Bool.and_true]
  by_cases hlag : (tabsBehind (front ++ [c]) && !wordNext rest) = true
  · -- a tab, and the run may go on
    obtain ⟨hnext, hnextDrop⟩ := drop_walk_of_lag hlag
    obtain ⟨htab, hstay⟩ := Bool.and_eq_true_iff.mp hlag
    rw [htabsBehind, decide_eq_true_iff] at htab
    rw [Bool.not_eq_true'] at hstay
    have hsame : walkPosition (front ++ [c]) rest = walkPosition front (c :: rest) := by omega
    rw [hjoined] at hnextDrop
    rw [hnextDrop, hsame, hdrop, blankWalk, if_neg htab, if_pos ⟨hc, rfl⟩]
    have hhead : ¬ (rest.head?.any fun next => !isInlineBlank next) = true := by
      show ¬ wordNext rest = true
      rw [hstay]
      exact Bool.false_ne_true
    rw [if_neg hhead]
  · rw [Bool.not_eq_true] at hlag
    obtain ⟨hnext, hnextDrop⟩ := drop_walk_of_level hlag
    have hstep : walkPosition (front ++ [c]) rest = walkPosition front (c :: rest) + 1 := by omega
    rw [hjoined, runAfter_concat, hc] at hnextDrop
    rw [hnextDrop, hstep, hdrop, blankWalk]
    by_cases hspace : c = 0x20
    · rw [if_pos hspace]
    · rw [if_neg hspace, if_pos ⟨hc, rfl⟩]
      have hword : wordNext rest = true := by
        rw [htabsBehind, decide_eq_true hspace, Bool.true_and] at hlag
        simpa using hlag
      exact if_pos hword

/-- One step over a blank behind the first space of its run: the collapsed text waits. -/
theorem blankWalk_extra (hc : isInlineBlank c = true) (hrun : runAfter false front = true)
    (hspace : tabsBehind front = false) :
    blankWalk (collapseBlanks (front ++ c :: rest)).length (c :: rest)
        ((collapseBlanks (front ++ c :: rest)).drop (walkPosition front (c :: rest)))
        (walkPosition front (c :: rest)) = walkPosition front (c :: rest) ::
        blankWalk (collapseBlanks (front ++ c :: rest)).length rest
          ((collapseBlanks (front ++ c :: rest)).drop (walkPosition (front ++ [c]) rest))
          (walkPosition (front ++ [c]) rest) := by
  have hcollapsed : collapseFrom true (c :: rest) = collapseFrom true rest := by
    rw [collapseFrom, if_pos hc, if_pos rfl]
  obtain ⟨hposition, hdrop⟩ := @drop_walk_of_level front (c :: rest) (by
    rw [hspace, Bool.false_and])
  have hmember : 0x20 ∈ trailingBlanks front := by
    rw [runAfter_eq] at hrun
    rw [tabsBehind, hrun, Bool.true_and, decide_eq_false_iff_not, not_not] at hspace
    exact hspace
  obtain ⟨hnext, hnextDrop⟩ := @drop_walk_of_level (front ++ [c]) rest (by
    rw [tabsBehind_concat, decide_eq_false (not_not.mpr hmember), Bool.and_false, Bool.false_and])
  have hsame : collapseBlanks (front ++ [c]) = collapseBlanks front := by
    rw [collapseBlanks_concat]
    rw [collapsedChar, hc, hrun, if_pos rfl, if_pos rfl, List.append_nil]
  rw [List.append_assoc, List.singleton_append, runAfter_concat, hc] at hnextDrop
  rw [hsame] at hnext
  rw [hrun, hcollapsed] at hdrop
  rw [hnextDrop, hdrop, hnext, hposition]
  cases hrest : collapseFrom true rest with
  | nil =>
    have hwhole : (collapseBlanks (front ++ c :: rest)).length = (collapseBlanks front).length := by
      rw [collapse_split, hrun, hcollapsed, hrest, List.append_nil]
    rw [blankWalk, hwhole]
  | cons h others =>
    have hword := collapseFrom_true_head hrest
    have hne : c ≠ h := by
      intro heq
      rw [← heq, hc] at hword
      cases hword
    have hnotSpace : ¬ (isInlineBlank c = true ∧ h = 0x20) := by
      rintro ⟨-, heq⟩
      rw [heq] at hword
      cases hword
    rw [blankWalk, if_neg hne, if_neg hnotSpace]

theorem blankWalk_step (front rest : JsString) (c : CodeUnit) :
    blankWalk (collapseBlanks (front ++ c :: rest)).length (c :: rest)
        ((collapseBlanks (front ++ c :: rest)).drop (walkPosition front (c :: rest)))
        (walkPosition front (c :: rest)) = walkPosition front (c :: rest) ::
        blankWalk (collapseBlanks (front ++ c :: rest)).length rest
          ((collapseBlanks (front ++ c :: rest)).drop (walkPosition (front ++ [c]) rest))
          (walkPosition (front ++ [c]) rest) := by
  cases hc : isInlineBlank c with
  | false => exact blankWalk_word _ hc
  | true =>
    have hcollapsed : collapseFrom true (c :: rest) = collapseFrom true rest := by
      rw [collapseFrom, if_pos hc, if_pos rfl]
    have hwait := wordNext_cons_of_blank hc rest
    cases hrun : runAfter false front with
    | false =>
      have hnone : trailingBlanks front = [] := by
        rw [runAfter_eq, decide_eq_false_iff_not, not_not] at hrun
        exact hrun
      have hlevel : tabsBehind front = false := by
        rw [tabsBehind, hnone]
        rfl
      obtain ⟨hposition, hdrop⟩ := @drop_walk_of_level front (c :: rest) (by
        rw [hlevel, Bool.false_and])
      refine blankWalk_first _ hc (hnone ▸ List.not_mem_nil) ?_ ?_
      · rw [hposition, collapseBlanks_concat, hrun, List.length_append]
        rw [collapsedChar, hc]
        rfl
      · rw [hdrop, hrun, collapseFrom, if_pos hc, if_neg Bool.false_ne_true]
    | true =>
      cases htabs : tabsBehind front with
      | false => exact blankWalk_extra hc hrun htabs
      | true =>
        obtain ⟨hposition, hdrop⟩ := @drop_walk_of_lag front (c :: rest) (by
          rw [htabs, hwait]
          rfl)
        refine blankWalk_first _ hc (of_decide_eq_true (Bool.and_eq_true_iff.mp htabs).2) ?_ ?_
        · rw [hposition, collapseBlanks_concat, hrun]
          rw [collapsedChar, hc, if_pos rfl, if_pos rfl, List.append_nil]
        · rw [hdrop, hcollapsed]

end Step

theorem getElem?_blankWalk_from (front rest : JsString) {i : Nat} (hi : i < rest.length) :
    (blankWalk (collapseBlanks (front ++ rest)).length rest
        ((collapseBlanks (front ++ rest)).drop (walkPosition front rest))
        (walkPosition front rest))[i]?
      = some (walkPosition (front ++ rest.take i) (rest.drop i)) := by
  induction rest generalizing front i with
  | nil => exact absurd hi (Nat.not_lt_zero i)
  | cons c rest ih =>
    rw [blankWalk_step]
    cases i with
    | zero => rw [List.take_zero, List.append_nil, List.drop_zero, List.getElem?_cons_zero]
    | succ k =>
      have hrest := @ih (front ++ [c]) k (Nat.lt_of_succ_lt_succ hi)
      rw [List.append_assoc, List.singleton_append] at hrest
      rw [List.getElem?_cons_succ, hrest, List.take_succ_cons, List.drop_succ_cons,
        List.append_assoc, List.singleton_append]

theorem length_blankWalk (n : Nat) (original normalized : JsString) (normIdx : Nat) :
    (blankWalk n original normalized normIdx).length = original.length := by
  induction original generalizing normalized normIdx with
  | nil => rfl
  | cons c rest ih =>
    cases normalized with
    | nil => rw [blankWalk, List.length_cons, ih, List.length_cons]
    | cons next others =>
      rw [blankWalk]
      split
      · rw [List.length_cons, ih, List.length_cons]
      split
      · split
        · rw [List.length_cons, ih, List.length_cons]
        · rw [List.length_cons, ih, List.length_cons]
      · rw [List.length_cons, ih, List.length_cons]

/-! ### Lagging -/

/-- The walk lags at a blank behind tabs only. -/
def lagsAt (text : JsString) (i : Nat) : Bool := tabsBehind (text.take i) && blankAt text i

/-- The entry of the walk at a position. -/
def walkAt (text : JsString) (i : Nat) : Nat :=
  collapsedLength text i - if lagsAt text i then 1 else 0

section Lag

variable {text : JsString} {i : Nat}

theorem getElem?_blankWalk (hi : i < text.length) :
    (blankWalk (collapseBlanks text).length text (collapseBlanks text) 0)[i]?
      = some (walkAt text i) := by
  have hall := @getElem?_blankWalk_from [] text i hi
  have hstart : walkPosition [] text = 0 := rfl
  rw [List.nil_append, List.nil_append, hstart, List.drop_zero] at hall
  rw [hall]
  have hnext : (!wordNext (text.drop i)) = blankAt text i := by
    unfold wordNext blankAt
    rw [List.head?_drop, List.getElem?_eq_getElem hi, Option.any_some, Option.any_some,
      Bool.not_not]
  unfold walkPosition walkAt lagsAt collapsedLength
  rw [hnext]

theorem lt_of_getElem?_blankWalk {position : Nat}
    (h : (blankWalk (collapseBlanks text).length text (collapseBlanks text) 0)[i]? = some position) :
    i < text.length := by
  have hlt := (List.getElem?_eq_some_iff.mp h).1
  rwa [length_blankWalk] at hlt

theorem walkAt_of_level (h : lagsAt text i = false) : walkAt text i = collapsedLength text i := by
  rw [walkAt, h]
  rfl

theorem walkAt_of_lag (h : lagsAt text i = true) : walkAt text i = collapsedLength text i - 1 := by
  rw [walkAt, h]
  rfl

theorem trailingBlanks_take_succ (hi : i < text.length) :
    trailingBlanks (text.take (i + 1))
      = if blankAt text i then trailingBlanks (text.take i) ++ [text[i]] else [] := by
  rw [← List.take_append_getElem hi, trailingBlanks_concat, blankAt_of_lt hi]

theorem blankBefore_iff (hi : i ≤ text.length) :
    trailingBlanks (text.take i) ≠ [] ↔ 0 < i ∧ blankAt text (i - 1) = true := by
  have hrun := runAfter_eq (text.take i)
  rw [runAfter_take hi] at hrun
  constructor
  · intro hne
    rw [decide_eq_true hne] at hrun
    exact ⟨of_decide_eq_true (Bool.and_eq_true_iff.mp hrun).1, (Bool.and_eq_true_iff.mp hrun).2⟩
  · rintro ⟨hpos, hblank⟩
    rw [decide_eq_true hpos, hblank] at hrun
    exact of_decide_eq_true hrun.symm

/-- Inside a run, the walk lags exactly when the run has shown no space. -/
theorem lagsAt_iff (hi : i ≤ text.length) :
    lagsAt text i = true ↔ insideRun text i = true ∧ 0x20 ∉ trailingBlanks (text.take i) := by
  unfold lagsAt tabsBehind
  rw [insideRun_iff, Bool.and_eq_true, Bool.and_eq_true, decide_eq_true_iff, decide_eq_true_iff,
    blankBefore_iff hi]
  tauto

theorem insideRun_of_lag (hi : i ≤ text.length) (h : lagsAt text i = true) :
    insideRun text i = true :=
  ((lagsAt_iff hi).mp h).1

theorem lagsAt_of_space (h : 0x20 ∈ trailingBlanks (text.take i)) : lagsAt text i = false := by
  unfold lagsAt tabsBehind
  rw [decide_eq_false (not_not.mpr h), Bool.and_false, Bool.false_and]

theorem space_mem_of_level (hi : i ≤ text.length) (hinside : insideRun text i = true)
    (h : lagsAt text i = false) : 0x20 ∈ trailingBlanks (text.take i) := by
  by_contra hnot
  rw [(lagsAt_iff hi).mpr ⟨hinside, hnot⟩] at h
  cases h

theorem walkAt_pred_of_lag (hi : i < text.length) (h : lagsAt text i = true) :
    0 < i ∧ walkAt text (i - 1) = walkAt text i := by
  obtain ⟨hinside, htabs⟩ := (lagsAt_iff hi.le).mp h
  obtain ⟨hpos, hbefore, hblank⟩ := insideRun_iff.mp hinside
  obtain ⟨k, rfl⟩ : ∃ k, i = k + 1 := ⟨i - 1, by omega⟩
  rw [Nat.add_sub_cancel] at hbefore ⊢
  have hk : k < text.length := by omega
  have htrail := trailingBlanks_take_succ hk
  rw [hbefore, if_pos rfl] at htrail
  have htabs' : 0x20 ∉ trailingBlanks (text.take k) := by
    intro hmem
    rw [htrail] at htabs
    exact htabs (List.mem_append_left _ hmem)
  refine ⟨hpos, ?_⟩
  rw [walkAt_of_lag h, collapsedLength_succ hk]
  cases hrun : insideRun text k with
  | true =>
    rw [walkAt_of_lag ((lagsAt_iff hk.le).mpr ⟨hrun, htabs'⟩), if_pos rfl, Nat.add_zero]
  | false =>
    have hlevel : lagsAt text k = false := by
      by_contra hlag
      rw [Bool.not_eq_false] at hlag
      rw [insideRun_of_lag hk.le hlag] at hrun
      cases hrun
    rw [walkAt_of_level hlevel, if_neg Bool.false_ne_true, Nat.add_sub_cancel]

/-- Behind the first space of a run the entries stay what they are. -/
theorem walkAt_succ_of_space (hi : i + 1 < text.length) (hinside : insideRun text i = true)
    (hspace : 0x20 ∈ trailingBlanks (text.take i)) : walkAt text (i + 1) = walkAt text i := by
  obtain ⟨-, -, hblank⟩ := insideRun_iff.mp hinside
  have htrail := trailingBlanks_take_succ (show i < text.length by omega)
  rw [hblank, if_pos rfl] at htrail
  have hspace' : 0x20 ∈ trailingBlanks (text.take (i + 1)) := by
    rw [htrail]
    exact List.mem_append_left _ hspace
  rw [walkAt_of_level (lagsAt_of_space hspace'), walkAt_of_level (lagsAt_of_space hspace),
    collapsedLength_succ (by omega), hinside, if_pos rfl, Nat.add_zero]

end Lag

/-! ## Back to the original text -/

theorem lastIndices_concat (keys : List Nat) (last : Nat) :
    lastIndices (keys ++ [last]) = OrderedMap.set (lastIndices keys) last keys.length := by
  unfold lastIndices
  rw [List.zipIdx_append, List.foldl_append]
  simp

theorem get?_lastIndices_of {keys : List Nat} {key : Nat} (h : key ∈ keys) :
    ∃ index, OrderedMap.get? (lastIndices keys) key = some index ∧ keys[index]? = some key
      ∧ ∀ j, index < j → keys[j]? ≠ some key := by
  induction keys using List.reverseRecOn with
  | nil => cases h
  | append_singleton front last ih =>
    rw [lastIndices_concat]
    by_cases heq : key = last
    · refine ⟨front.length, ?_, ?_, fun j hj hat => ?_⟩
      · rw [OrderedMap.get?_set, if_pos heq]
      · rw [heq, List.getElem?_concat_length]
      · rw [List.getElem?_eq_none (by rw [List.length_append, List.length_singleton]; omega)] at hat
        cases hat
    · have hfront : key ∈ front := by
        rcases List.mem_append.mp h with hin | hlast
        · exact hin
        · exact absurd (List.mem_singleton.mp hlast) heq
      obtain ⟨index, hget, hat, hlater⟩ := ih hfront
      have hlt := (List.getElem?_eq_some_iff.mp hat).1
      refine ⟨index, ?_, ?_, fun j hj hat' => ?_⟩
      · rw [OrderedMap.get?_set, if_neg heq, hget]
      · rw [List.getElem?_append_left hlt, hat]
      · by_cases hin : j < front.length
        · rw [List.getElem?_append_left hin] at hat'
          exact hlater j hj hat'
        · rw [List.getElem?_append_right (by omega)] at hat'
          have hsingle := List.mem_of_getElem? hat'
          exact heq (List.mem_singleton.mp hsingle)

/-- A collapsed position right behind a space that another blank follows. -/
def SpaceThenBlank (content : JsString) (position : Nat) : Prop :=
  ∃ i, content[i]? = some 0x20 ∧ blankAt content (i + 1) = true
    ∧ collapsedLength content (i + 1) = position

section Back

variable {text : JsString}

/-- Every collapsed character comes from one that is not inside a run. -/
theorem exists_source {position : Nat} (h : position < (collapseBlanks text).length) :
    ∃ i < text.length, collapsedLength text i = position ∧ insideRun text i = false := by
  have hreach : ∃ j, position < collapsedLength text j :=
    ⟨text.length, by rw [collapsedLength_length]; exact h⟩
  have hspec := Nat.find_spec hreach
  have hmin : ∀ k < Nat.find hreach, ¬ position < collapsedLength text k := fun k hk =>
    Nat.find_min hreach hk
  have hle : Nat.find hreach ≤ text.length :=
    Nat.find_min' hreach (by rw [collapsedLength_length]; exact h)
  obtain ⟨j, hj⟩ : ∃ j, Nat.find hreach = j := ⟨_, rfl⟩
  rw [hj] at hspec hmin hle
  cases j with
  | zero => exact absurd hspec (Nat.not_lt_zero _)
  | succ i =>
    have hbefore := hmin i (Nat.lt_succ_self i)
    have hstep := @collapsedLength_succ text i hle
    cases hinside : insideRun text i with
    | true =>
      rw [hinside, if_pos rfl] at hstep
      omega
    | false =>
      rw [hinside, if_neg Bool.false_ne_true] at hstep
      exact ⟨i, hle, by omega, hinside⟩

theorem walkAt_source {i : Nat} (hi : i ≤ text.length) (h : insideRun text i = false) :
    walkAt text i = collapsedLength text i := by
  refine walkAt_of_level ?_
  by_contra hlag
  rw [Bool.not_eq_false] at hlag
  rw [insideRun_of_lag hi hlag] at h
  cases h

theorem mem_trailingBlanks_of_space {i : Nat} (h : text[i]? = some 0x20) :
    0x20 ∈ trailingBlanks (text.take (i + 1)) := by
  obtain ⟨hi, hchar⟩ := List.getElem?_eq_some_iff.mp h
  have hblank : blankAt text i = true := by
    rw [blankAt_of_lt hi, hchar]
    rfl
  rw [trailingBlanks_take_succ hi, hblank, if_pos rfl, hchar]
  exact List.mem_append_right _ (List.mem_singleton_self _)

/-- Where a match begins in the original: inside a run only behind its first space. -/
theorem exists_mappedStart {position : Nat} (h : position < (collapseBlanks text).length) :
    ∃ start, OrderedMap.get? (firstIndices (blankWalk (collapseBlanks text).length text
        (collapseBlanks text) 0)) position = some start
      ∧ start < text.length ∧ collapsedLength text start = position
      ∧ (insideRun text start = true ↔ SpaceThenBlank text position) := by
  obtain ⟨source, hsource, hposition, houtside⟩ := exists_source h
  have hat : (blankWalk (collapseBlanks text).length text (collapseBlanks text) 0)[source]?
      = some position := by
    rw [getElem?_blankWalk hsource, walkAt_source hsource.le houtside, hposition]
  obtain ⟨start, hstart⟩ : ∃ start, OrderedMap.get? (firstIndices
      (blankWalk (collapseBlanks text).length text (collapseBlanks text) 0)) position
        = some start := by
    rw [get?_firstIndices, if_pos (List.mem_of_getElem? hat)]
    exact ⟨_, rfl⟩
  obtain ⟨hfound, hfirst⟩ := get?_firstIndices_iff.mp hstart
  have hlt := lt_of_getElem?_blankWalk hfound
  rw [getElem?_blankWalk hlt] at hfound
  have hwalk := Option.some.inj hfound
  -- an earlier entry with the same value cannot be
  have hearlier : ∀ k < start, walkAt text k ≠ position := by
    intro k hk heq
    refine hfirst k hk ?_
    rw [getElem?_blankWalk (by omega), heq]
  have hlevel : lagsAt text start = false := by
    by_contra hlag
    rw [Bool.not_eq_false] at hlag
    obtain ⟨hpos, hsame⟩ := walkAt_pred_of_lag hlt hlag
    exact hearlier (start - 1) (by omega) (hsame.trans hwalk)
  rw [walkAt_of_level hlevel] at hwalk
  refine ⟨start, hstart, hlt, hwalk, ?_, ?_⟩
  · intro hinside
    obtain ⟨hpos, hbefore, hblank⟩ := insideRun_iff.mp hinside
    obtain ⟨k, rfl⟩ : ∃ k, start = k + 1 := ⟨start - 1, by omega⟩
    rw [Nat.add_sub_cancel] at hbefore
    have hk : k < text.length := by omega
    refine ⟨k, ?_, hblank, hwalk⟩
    by_contra htab
    -- the first space is further back, and the entry before is the same
    have hspace := space_mem_of_level hlt.le hinside hlevel
    rw [trailingBlanks_take_succ hk, hbefore, if_pos rfl] at hspace
    have hfront : 0x20 ∈ trailingBlanks (text.take k) := by
      rcases List.mem_append.mp hspace with hin | hlast
      · exact hin
      · exfalso
        rw [List.getElem?_eq_getElem hk] at htab
        exact htab (congrArg some (List.mem_singleton.mp hlast).symm)
    have hfrontBlank := (blankBefore_iff hk.le).mp (List.ne_nil_of_mem hfront)
    have hinsideBefore : insideRun text k = true :=
      insideRun_iff.mpr ⟨hfrontBlank.1, hfrontBlank.2, hbefore⟩
    have hsame := walkAt_succ_of_space hlt hinsideBefore hfront
    rw [walkAt_of_level hlevel, hwalk] at hsame
    exact hearlier k (by omega) hsame.symm
  · rintro ⟨i, hspace, hblank, hlength⟩
    have hi := lt_of_blankAt hblank
    have hentry : walkAt text (i + 1) = position := by
      rw [walkAt_of_level (lagsAt_of_space (mem_trailingBlanks_of_space hspace)), hlength]
    have hle : start ≤ i + 1 := by
      by_contra hlater
      exact hearlier (i + 1) (by omega) hentry
    by_cases heq : start = i + 1
    · rw [heq]
      refine insideRun_iff.mpr ⟨Nat.succ_pos i, ?_, hblank⟩
      obtain ⟨hlt', hchar⟩ := List.getElem?_eq_some_iff.mp hspace
      rw [Nat.add_sub_cancel, blankAt_of_lt hlt', hchar]
      rfl
    · exact insideRun_of_collapsedLength_eq hi.le (hwalk.trans hlength.symm) (le_refl start)
        (by omega)

/-- Where a match ends in the original, before the blanks that may still be skipped. -/
theorem exists_mappedEnd {position : Nat} (h : position < (collapseBlanks text).length) :
    ∃ last, OrderedMap.get? (lastIndices (blankWalk (collapseBlanks text).length text
        (collapseBlanks text) 0)) position = some last
      ∧ last < text.length ∧ collapsedLength text (last + 1) = position + 1 := by
  obtain ⟨source, hsource, hposition, houtside⟩ := exists_source h
  have hat : (blankWalk (collapseBlanks text).length text (collapseBlanks text) 0)[source]?
      = some position := by
    rw [getElem?_blankWalk hsource, walkAt_source hsource.le houtside, hposition]
  obtain ⟨last, hlast, hfound, hlater⟩ := get?_lastIndices_of (List.mem_of_getElem? hat)
  have hlt := lt_of_getElem?_blankWalk hfound
  rw [getElem?_blankWalk hlt] at hfound
  have hwalk := Option.some.inj hfound
  have hstep := collapsedLength_succ hlt
  have hbehind : ∀ k, last < k → k < text.length → walkAt text k ≠ position := by
    intro k hk hend heq
    refine hlater k hk ?_
    rw [getElem?_blankWalk hend, heq]
  refine ⟨last, hlast, hlt, ?_⟩
  cases hlag : lagsAt text last with
  | true =>
    have hinside := insideRun_of_lag hlt.le hlag
    have hpositive : 0 < collapsedLength text last := by
      obtain ⟨hpos, -, -⟩ := insideRun_iff.mp hinside
      have hfirst := @collapsedLength_succ text 0 (by omega)
      have hmono := collapsedLength_mono (show 0 + 1 ≤ last from hpos) hlt.le
      rw [collapsedLength_zero, if_neg (by simp [insideRun])] at hfirst
      omega
    rw [walkAt_of_lag hlag] at hwalk
    rw [hinside, if_pos rfl] at hstep
    omega
  | false =>
    rw [walkAt_of_level hlag] at hwalk
    cases hinside : insideRun text last with
    | false =>
      rw [hinside, if_neg Bool.false_ne_true] at hstep
      omega
    | true =>
      -- the run goes on, and so does its entry
      exfalso
      have hspace := space_mem_of_level hlt.le hinside hlag
      rw [hinside, if_pos rfl] at hstep
      by_cases hend : last + 1 < text.length
      · refine hbehind (last + 1) (Nat.lt_succ_self last) hend ?_
        rw [walkAt_succ_of_space hend hinside hspace, walkAt_of_level hlag, hwalk]
      · have hwhole : last + 1 = text.length := by omega
        rw [hwhole, collapsedLength_length] at hstep
        omega

/-- The last character of a collapsed part is a space only if a blank comes last. -/
theorem blankAt_of_collapsed_space {i : Nat} (hi : i < text.length)
    (h : (collapseBlanks text)[collapsedLength text (i + 1) - 1]? = some 0x20) :
    blankAt text i = true := by
  by_contra hword
  rw [Bool.not_eq_true] at hword
  have hchar : collapsedChar (runAfter false (text.take i)) text[i] = [text[i]] := by
    rw [collapsedChar, ← blankAt_of_lt hi, hword]
    rfl
  have htake := collapseBlanks_concat (text.take i) text[i]
  rw [List.take_append_getElem hi, hchar] at htake
  have hlength : collapsedLength text (i + 1) = (collapseBlanks (text.take i)).length + 1 := by
    rw [collapsedLength, htake, List.length_append]
    rfl
  have hat : ((collapseBlanks text).take (collapsedLength text (i + 1)))[
      collapsedLength text (i + 1) - 1]? = some 0x20 := by
    rw [List.getElem?_take, if_pos (by omega), h]
  rw [← collapseBlanks_take, htake, hlength, Nat.add_sub_cancel, List.getElem?_concat_length] at hat
  rw [blankAt_of_lt hi, Option.some.inj hat] at hword
  cases hword

/-- Skipping goes over blanks that add nothing, to a character that is none. -/
theorem skipBlanks_spec (left start : Nat) (hleft : start + left = text.length)
    (hbefore : 0 < start ∧ blankAt text (start - 1) = true) :
    start ≤ skipBlanks text left start ∧ skipBlanks text left start ≤ text.length
      ∧ collapsedLength text (skipBlanks text left start) = collapsedLength text start
      ∧ blankAt text (skipBlanks text left start) = false := by
  induction left generalizing start with
  | zero =>
    have hend : start = text.length := by omega
    refine ⟨le_refl _, hend.le, rfl, ?_⟩
    by_contra hblank
    rw [Bool.not_eq_false] at hblank
    have hlt := lt_of_blankAt hblank
    change start < text.length at hlt
    omega
  | succ left ih =>
    unfold skipBlanks
    by_cases hblank : (text[start]?.any isInlineBlank) = true
    · rw [if_pos hblank]
      obtain ⟨hle, hstop, hlength, hword⟩ := ih (start + 1) (by omega) ⟨Nat.succ_pos _, hblank⟩
      have hinside : insideRun text start = true :=
        insideRun_iff.mpr ⟨hbefore.1, hbefore.2, hblank⟩
      refine ⟨by omega, hstop, ?_, hword⟩
      rw [hlength, collapsedLength_succ (by omega), hinside, if_pos rfl, Nat.add_zero]
    · rw [if_neg hblank]
      exact ⟨le_refl _, by omega, rfl, Bool.eq_false_of_not_eq_true hblank⟩

variable {span : Span}

/-- A match goes back to a span that stands for the same collapsed part. -/
theorem mapNormalizedSpan_spec (hspan : span.1 < span.2)
    (hstop : span.2 ≤ (collapseBlanks text).length) :
    ∃ start stop, mapNormalizedSpan text (collapseBlanks text) (blankWalk
        (collapseBlanks text).length text (collapseBlanks text) 0) span = (start, stop)
      ∧ start < stop ∧ stop ≤ text.length ∧ collapsedLength text start = span.1
      ∧ collapsedLength text stop = span.2
      ∧ (insideRun text start = true ↔ SpaceThenBlank text span.1)
      ∧ (span.2 < (collapseBlanks text).length →
        (collapseBlanks text)[span.2 - 1]? = some 0x20 → blankAt text stop = false) := by
  obtain ⟨start, hgetStart, hstartLt, hstart, hrun⟩ :=
    @exists_mappedStart text span.1 (by omega)
  obtain ⟨last, hgetLast, hlastLt, hlast⟩ := @exists_mappedEnd text (span.2 - 1) (by omega)
  have hreach : collapsedLength text (last + 1) = span.2 := by omega
  have hless : ∀ stop, stop ≤ text.length → collapsedLength text stop = span.2 →
      start < stop := by
    intro stop hle heq
    by_contra hnot
    have hmono := collapsedLength_mono (show stop ≤ start by omega) hstartLt.le
    omega
  rw [mapNormalizedSpan, hgetStart, hgetLast]
  dsimp only [Option.getD_some]
  by_cases hextend : span.2 < (collapseBlanks text).length
      ∧ (collapseBlanks text)[span.2 - 1]? = some 0x20
  · have hblank : blankAt text last = true :=
      blankAt_of_collapsed_space hlastLt (by rw [hreach]; exact hextend.2)
    obtain ⟨hle, hstopLe, hsame, hword⟩ := @skipBlanks_spec text
      (text.length - (last + 1)) (last + 1) (by omega) ⟨Nat.succ_pos _, hblank⟩
    rw [if_pos hextend, Nat.min_eq_left hstopLe]
    exact ⟨start, _, rfl, hless _ hstopLe (hsame.trans hreach), hstopLe, hstart,
      hsame.trans hreach, hrun, fun _ _ => hword⟩
  · rw [if_neg hextend, Nat.min_eq_left hlastLt]
    exact ⟨start, last + 1, rfl, hless _ hlastLt hreach, hlastLt, hstart, hreach, hrun,
      fun hinside hspace => absurd ⟨hinside, hspace⟩ hextend⟩

/-- The span is collapsed to the match exactly when the match does not begin behind a space
    that another blank follows. -/
theorem collapseBlanks_span_iff {start stop : Nat} (hless : start < stop)
    (hstop : stop ≤ text.length) (hstart : collapsedLength text start = span.1)
    (hend : collapsedLength text stop = span.2)
    (hrun : insideRun text start = true ↔ SpaceThenBlank text span.1) :
    collapseBlanks (sliceOf text start stop) = sliceOf (collapseBlanks text) span.1 span.2
      ↔ ¬ SpaceThenBlank text span.1 := by
  rw [collapseBlanks_sliceOf hless hstop, hstart, hend, ← hrun]
  cases insideRun text start with
  | false =>
    exact iff_of_true rfl Bool.false_ne_true
  | true =>
    rw [if_pos rfl]
    refine iff_of_false (fun heq => ?_) (not_not.mpr rfl)
    have hlength := congrArg List.length heq
    rw [List.singleton_append, List.length_cons] at hlength
    omega

end Back

end OpencodeSwarm
