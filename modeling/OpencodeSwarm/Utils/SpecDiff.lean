/-
  OpencodeSwarm.Utils.SpecDiff

  The line diff behind the spec drift report (`computeLcsDiff` in
  `src/utils/spec-hash.ts`): a table of common-subsequence lengths, and a walk
  back through it from the last cell.
-/
import OpencodeSwarm.Lib.CommonSubsequence
import OpencodeSwarm.Lib.JsString

namespace OpencodeSwarm

open Js CommonSubsequence

/-! ## The table -/

/-- `dp[i][j]`. -/
abbrev LcsTable := Nat → Nat → Nat

def LcsTable.set (dp : LcsTable) (i j value : Nat) : LcsTable :=
  fun i' j' => if i' = i ∧ j' = j then value else dp i' j'

section Diff

variable (oldLines newLines : List JsString)

/-- `oldLines[i - 1] === newLines[j - 1]`, for indices inside the lists. -/
def sameLine (i j : Nat) : Bool := oldLines[i - 1]? == newLines[j - 1]?

/-- The inner statement of the two loops. -/
def fillCell (dp : LcsTable) (i j : Nat) : LcsTable :=
  dp.set i j
    (if sameLine oldLines newLines i j then dp (i - 1) (j - 1) + 1
     else max (dp (i - 1) j) (dp i (j - 1)))

def fillRow (dp : LcsTable) (i : Nat) : LcsTable :=
  (List.range' 1 newLines.length).foldl (fun dp j => fillCell oldLines newLines dp i j) dp

def lcsTable : LcsTable :=
  (List.range' 1 oldLines.length).foldl (fillRow oldLines newLines) fun _ _ => 0

/-! ## The walk back -/

inductive DiffType where
  | add | remove | unchanged
  deriving DecidableEq

structure DiffEntry where
  type : DiffType
  line : JsString
  deriving DecidableEq

structure WalkState where
  i : Nat
  j : Nat
  entries : List DiffEntry

/-- One turn of the loop, which runs while a line is left on either side. -/
def walkStep (dp : LcsTable) (s : WalkState) : WalkState :=
  if 0 < s.i ∧ 0 < s.j ∧ sameLine oldLines newLines s.i s.j then
    { i := s.i - 1
      j := s.j - 1
      entries := { type := .unchanged, line := (oldLines[s.i - 1]?).getD [] } :: s.entries }
  else if 0 < s.j ∧ (s.i = 0 ∨ dp (s.i - 1) s.j ≤ dp s.i (s.j - 1)) then
    { s with
      j := s.j - 1
      entries := { type := .add, line := (newLines[s.j - 1]?).getD [] } :: s.entries }
  else
    { s with
      i := s.i - 1
      entries := { type := .remove, line := (oldLines[s.i - 1]?).getD [] } :: s.entries }

/-- The loop, cut off after `fuel` turns. -/
def walkBack (dp : LcsTable) : Nat → WalkState → Option (List DiffEntry)
  | fuel, s =>
    if s.i = 0 ∧ s.j = 0 then some s.entries
    else
      match fuel with
      | 0 => none
      | fuel + 1 => walkBack dp fuel (walkStep oldLines newLines dp s)

def DiffEntry.text (entry : DiffEntry) : JsString :=
  match entry.type with
  | .unchanged => 0x20 :: entry.line
  | .add => 0x2B :: entry.line
  | .remove => 0x2D :: entry.line

/-- `computeLcsDiff` with its loop cut off after `|old| + |new|` turns. -/
def computeLcsDiff : Option (List JsString) :=
  (walkBack oldLines newLines (lcsTable oldLines newLines) (oldLines.length + newLines.length)
    { i := oldLines.length, j := newLines.length, entries := [] }).map (List.map DiffEntry.text)

/-! ## Reading a diff -/

/-- The lines with one of the prefixes, without it. -/
def linesUnder (marks : List CodeUnit) (diff : List JsString) : List JsString :=
  (diff.filter fun line => line.head?.any marks.contains).map (List.drop 1)

/-- A diff from `oldLines` to `newLines` that leaves as many lines as it can. -/
structure MinimalDiff (diff : List JsString) : Prop where
  old : linesUnder [0x20, 0x2D] diff = oldLines
  new : linesUnder [0x20, 0x2B] diff = newLines
  unchanged : IsLongest oldLines newLines (linesUnder [0x20] diff).length

/-! ## What the table holds -/

/-- The cells before `(i, j)` in the order of the loops, and the border, hold
    lengths of longest common subsequences of the prefixes. -/
def FilledTo (dp : LcsTable) (i j : Nat) : Prop :=
  ∀ i' j', i' ≤ oldLines.length → j' ≤ newLines.length →
    (i' = 0 ∨ j' = 0 ∨ i' < i ∨ (i' = i ∧ j' < j)) →
    IsLongest (oldLines.take i') (newLines.take j') (dp i' j')

variable {oldLines newLines}

theorem filledTo_start : FilledTo oldLines newLines (fun _ _ => 0) 1 1 := by
  intro i' j' _ _ hcell
  by_cases hi : i' = 0
  · subst hi
    exact isLongest_nil_left _
  · have hj : j' = 0 := by omega
    subst hj
    exact isLongest_nil_right _

variable {i j : Nat}

theorem isLongest_cell {dp : LcsTable} (hi : i < oldLines.length) (hj : j < newLines.length)
    (hdiagonal : IsLongest (oldLines.take i) (newLines.take j) (dp i j))
    (hup : IsLongest (oldLines.take i) (newLines.take (j + 1)) (dp i (j + 1)))
    (hleft : IsLongest (oldLines.take (i + 1)) (newLines.take j) (dp (i + 1) j)) :
    IsLongest (oldLines.take (i + 1)) (newLines.take (j + 1))
      (if sameLine oldLines newLines (i + 1) (j + 1) then dp i j + 1
       else max (dp i (j + 1)) (dp (i + 1) j)) := by
  have hold : oldLines.take (i + 1) = oldLines.take i ++ [oldLines[i]] :=
    (List.take_append_getElem hi).symm
  have hnew : newLines.take (j + 1) = newLines.take j ++ [newLines[j]] :=
    (List.take_append_getElem hj).symm
  have hsame : sameLine oldLines newLines (i + 1) (j + 1) = (oldLines[i] == newLines[j]) := by
    unfold sameLine
    rw [Nat.add_sub_cancel, Nat.add_sub_cancel, List.getElem?_eq_getElem hi,
      List.getElem?_eq_getElem hj]
    rfl
  rw [hsame]
  by_cases heq : oldLines[i] = newLines[j]
  · rw [if_pos (beq_iff_eq.mpr heq), hold, hnew, heq]
    exact hdiagonal.concat_same _
  · rw [if_neg (by simpa using heq)]
    rw [hnew] at hup
    rw [hold] at hleft
    rw [hold, hnew]
    exact hup.concat_other heq hleft

theorem FilledTo.fillCell {dp : LcsTable} {i j : Nat} (hi : i < oldLines.length)
    (hj : j < newLines.length) (h : FilledTo oldLines newLines dp (i + 1) (j + 1)) :
    FilledTo oldLines newLines (fillCell oldLines newLines dp (i + 1) (j + 1)) (i + 1) (j + 2) := by
  intro i' j' hi' hj' hcell
  unfold OpencodeSwarm.fillCell LcsTable.set
  by_cases hthis : i' = i + 1 ∧ j' = j + 1
  · obtain ⟨rfl, rfl⟩ := hthis
    rw [if_pos ⟨rfl, rfl⟩]
    exact isLongest_cell hi hj (h i j (by omega) (by omega) (by omega))
      (h i (j + 1) (by omega) (by omega) (by omega)) (h (i + 1) j (by omega) (by omega) (by omega))
  · rw [if_neg hthis]
    exact h i' j' hi' hj' (by omega)

theorem FilledTo.fillRow {dp : LcsTable} {i : Nat} (hi : i < oldLines.length)
    (h : FilledTo oldLines newLines dp (i + 1) 1) :
    FilledTo oldLines newLines (fillRow oldLines newLines dp (i + 1)) (i + 2) 1 := by
  have hcells : ∀ n ≤ newLines.length, FilledTo oldLines newLines
      ((List.range' 1 n).foldl (fun dp j => OpencodeSwarm.fillCell oldLines newLines dp (i + 1) j) dp)
      (i + 1) (n + 1) := by
    intro n hn
    induction n with
    | zero => exact h
    | succ n ih =>
      rw [List.range'_1_concat, List.foldl_concat, Nat.add_comm 1 n]
      exact (ih (by omega)).fillCell hi (by omega)
  intro i' j' hi' hj' hcell
  exact hcells newLines.length (Nat.le_refl _) i' j' hi' hj' (by omega)

theorem filledTo_lcsTable {i j : Nat} (hi : i ≤ oldLines.length) (hj : j ≤ newLines.length) :
    IsLongest (oldLines.take i) (newLines.take j) (lcsTable oldLines newLines i j) := by
  have hrows : ∀ m ≤ oldLines.length, FilledTo oldLines newLines
      ((List.range' 1 m).foldl (OpencodeSwarm.fillRow oldLines newLines) fun _ _ => 0)
        (m + 1) 1 := by
    intro m hm
    induction m with
    | zero => exact filledTo_start
    | succ m ih =>
      rw [List.range'_1_concat, List.foldl_concat, Nat.add_comm 1 m]
      exact (ih (by omega)).fillRow (by omega)
  exact hrows oldLines.length (Nat.le_refl _) i j hi hj (by omega)

theorem lcsTable_border (hi : i ≤ oldLines.length) (hj : j ≤ newLines.length) (h : i = 0 ∨ j = 0) :
    lcsTable oldLines newLines i j = 0 := by
  refine (filledTo_lcsTable hi hj).unique ?_
  rcases h with rfl | rfl
  · exact isLongest_nil_left _
  · exact isLongest_nil_right _

theorem lcsTable_cell {i j : Nat} (hi : i < oldLines.length) (hj : j < newLines.length) :
    lcsTable oldLines newLines (i + 1) (j + 1)
      = if sameLine oldLines newLines (i + 1) (j + 1) then lcsTable oldLines newLines i j + 1
        else max (lcsTable oldLines newLines i (j + 1)) (lcsTable oldLines newLines (i + 1) j) := by
  refine (filledTo_lcsTable hi hj).unique (isLongest_cell hi hj ?_ ?_ ?_)
  · exact filledTo_lcsTable hi.le hj.le
  · exact filledTo_lcsTable hi.le hj
  · exact filledTo_lcsTable hi hj.le

/-! ## What the walk keeps -/

def entryLines (entries : List DiffEntry) (types : List DiffType) : List JsString :=
  (entries.filter fun entry => types.contains entry.type).map DiffEntry.line

/-- The entries spell out what lies behind the position, and the table says how
    many unchanged ones are still to come. -/
structure WalkInvariant (oldLines newLines : List JsString) (s : WalkState) : Prop where
  insideOld : s.i ≤ oldLines.length
  insideNew : s.j ≤ newLines.length
  old : entryLines s.entries [.unchanged, .remove] = oldLines.drop s.i
  new : entryLines s.entries [.unchanged, .add] = newLines.drop s.j
  unchanged : lcsTable oldLines newLines s.i s.j + (entryLines s.entries [.unchanged]).length
    = lcsTable oldLines newLines oldLines.length newLines.length

theorem drop_pred {lines : List JsString} (hpos : 0 < i) (hi : i ≤ lines.length) :
    lines.drop (i - 1) = (lines[i - 1]?).getD [] :: lines.drop i := by
  have hlt : i - 1 < lines.length := by omega
  rw [List.drop_eq_getElem_cons hlt, Nat.sub_add_cancel hpos, List.getElem?_eq_getElem hlt]
  rfl

variable {s : WalkState}

theorem WalkInvariant.step (h : WalkInvariant oldLines newLines s) (hmore : ¬(s.i = 0 ∧ s.j = 0)) :
    WalkInvariant oldLines newLines (walkStep oldLines newLines (lcsTable oldLines newLines) s)
      ∧ (walkStep oldLines newLines (lcsTable oldLines newLines) s).i
          + (walkStep oldLines newLines (lcsTable oldLines newLines) s).j < s.i + s.j := by
  obtain ⟨i, j, entries⟩ := s
  obtain ⟨hi, hj, hold, hnew, hunchanged⟩ := h
  dsimp only at hi hj hold hnew hunchanged hmore
  dsimp only [walkStep]
  split
  · rename_i hsame
    obtain ⟨hipos, hjpos, hsame⟩ := hsame
    have hcell := @lcsTable_cell oldLines newLines (i - 1) (j - 1) (by omega) (by omega)
    rw [Nat.sub_add_cancel hipos, Nat.sub_add_cancel hjpos, if_pos hsame] at hcell
    have hlines : (oldLines[i - 1]?).getD [] = (newLines[j - 1]?).getD [] := by
      rw [beq_iff_eq.mp hsame]
    refine ⟨⟨by dsimp only; omega, by dsimp only; omega, ?_, ?_, ?_⟩, by dsimp only; omega⟩
    · show _ :: entryLines entries [.unchanged, .remove] = _
      rw [hold, ← drop_pred hipos hi]
    · show _ :: entryLines entries [.unchanged, .add] = _
      rw [hnew, hlines, ← drop_pred hjpos hj]
    · show _ + (entryLines entries [.unchanged]).length.succ = _
      dsimp only
      omega
  · rename_i hdiffers
    split
    · rename_i hadd
      obtain ⟨hjpos, hadd⟩ := hadd
      refine ⟨⟨hi, by dsimp only; omega, hold, ?_, ?_⟩, by dsimp only; omega⟩
      · show _ :: entryLines entries [.unchanged, .add] = _
        rw [hnew, ← drop_pred hjpos hj]
      · show lcsTable oldLines newLines i (j - 1) + (entryLines entries [.unchanged]).length = _
        rw [← hunchanged, Nat.add_right_cancel_iff]
        by_cases hizero : i = 0
        · rw [lcsTable_border hi (by omega) (Or.inl hizero), lcsTable_border hi hj (Or.inl hizero)]
        · have hcell := @lcsTable_cell oldLines newLines (i - 1) (j - 1) (by omega) (by omega)
          rw [Nat.sub_add_cancel (by omega), Nat.sub_add_cancel hjpos,
            if_neg fun hsame => hdiffers ⟨by omega, hjpos, hsame⟩] at hcell
          omega
    · rename_i hremove
      have hipos : 0 < i := by
        by_contra hzero
        exact hremove ⟨by omega, Or.inl (by omega)⟩
      refine ⟨⟨by dsimp only; omega, hj, ?_, hnew, ?_⟩, by dsimp only; omega⟩
      · show _ :: entryLines entries [.unchanged, .remove] = _
        rw [hold, ← drop_pred hipos hi]
      · show lcsTable oldLines newLines (i - 1) j + (entryLines entries [.unchanged]).length = _
        rw [← hunchanged, Nat.add_right_cancel_iff]
        by_cases hjzero : j = 0
        · rw [lcsTable_border (by omega) hj (Or.inr hjzero), lcsTable_border hi hj (Or.inr hjzero)]
        · have hcell := @lcsTable_cell oldLines newLines (i - 1) (j - 1) (by omega) (by omega)
          rw [Nat.sub_add_cancel hipos, Nat.sub_add_cancel (by omega),
            if_neg fun hsame => hdiffers ⟨hipos, by omega, hsame⟩] at hcell
          omega

theorem walkBack_spec {fuel : Nat} (h : WalkInvariant oldLines newLines s)
    (hfuel : s.i + s.j ≤ fuel) :
    ∃ entries, walkBack oldLines newLines (lcsTable oldLines newLines) fuel s = some entries
      ∧ WalkInvariant oldLines newLines { i := 0, j := 0, entries } := by
  induction fuel generalizing s with
  | zero =>
    have hdone : s.i = 0 ∧ s.j = 0 := by omega
    obtain ⟨i, j, entries⟩ := s
    obtain ⟨rfl, rfl⟩ := hdone
    refine ⟨entries, ?_, h⟩
    rw [walkBack, if_pos ⟨rfl, rfl⟩]
  | succ fuel ih =>
    by_cases hdone : s.i = 0 ∧ s.j = 0
    · obtain ⟨i, j, entries⟩ := s
      obtain ⟨rfl, rfl⟩ := hdone
      refine ⟨entries, ?_, h⟩
      rw [walkBack, if_pos ⟨rfl, rfl⟩]
    · obtain ⟨hstep, hless⟩ := h.step hdone
      obtain ⟨entries, hwalk, hend⟩ := ih hstep (by omega)
      refine ⟨entries, ?_, hend⟩
      rw [walkBack, if_neg hdone]
      exact hwalk

/-! ## The diff -/

def DiffType.mark : DiffType → CodeUnit
  | .unchanged => 0x20
  | .add => 0x2B
  | .remove => 0x2D

theorem linesUnder_text (types : List DiffType) (entries : List DiffEntry) :
    linesUnder (types.map DiffType.mark) (entries.map DiffEntry.text)
      = entryLines entries types := by
  have hmark : ∀ entry : DiffEntry, entry.text = entry.type.mark :: entry.line := by
    rintro ⟨type, line⟩
    cases type <;> rfl
  have hkept : ∀ type : DiffType,
      (types.map DiffType.mark).contains type.mark = types.contains type := by
    intro type
    rw [Bool.eq_iff_iff, List.contains_iff_mem, List.contains_iff_mem]
    refine List.mem_map_of_injective ?_
    intro a b hab
    cases a <;> cases b <;> first | rfl | (revert hab; decide)
  unfold linesUnder entryLines
  induction entries with
  | nil => rfl
  | cons entry entries ih =>
    have hhead : (entry.text.head?.any (types.map DiffType.mark).contains)
        = types.contains entry.type := by
      rw [hmark, ← hkept]
      rfl
    rw [List.map_cons, List.filter_cons, List.filter_cons, hhead]
    split
    · rw [List.map_cons, List.map_cons, ih, hmark]
      rfl
    · exact ih

end Diff

/-- The diff is exact and leaves as many lines unchanged as it can, and its loop
    ends within `|old| + |new|` turns. -/
theorem computeLcsDiff_spec (oldLines newLines : List JsString) :
    ∃ diff, computeLcsDiff oldLines newLines = some diff ∧ MinimalDiff oldLines newLines diff := by
  have hstart : WalkInvariant oldLines newLines
      { i := oldLines.length, j := newLines.length, entries := [] } :=
    ⟨Nat.le_refl _, Nat.le_refl _, List.drop_length.symm, List.drop_length.symm, rfl⟩
  obtain ⟨entries, hwalk, hend⟩ := walkBack_spec hstart (Nat.le_refl _)
  refine ⟨entries.map DiffEntry.text, ?_, ?_, ?_, ?_⟩
  · rw [computeLcsDiff, hwalk]
    rfl
  · exact (linesUnder_text [.unchanged, .remove] entries).trans hend.old
  · exact (linesUnder_text [.unchanged, .add] entries).trans hend.new
  · have hcount := hend.unchanged
    rw [lcsTable_border (Nat.zero_le _) (Nat.zero_le _) (Or.inl rfl), Nat.zero_add] at hcount
    have hlines := linesUnder_text [.unchanged] entries
    have hlongest := @filledTo_lcsTable oldLines newLines _ _ (Nat.le_refl _) (Nat.le_refl _)
    rw [List.take_length, List.take_length] at hlongest
    show IsLongest oldLines newLines
      (linesUnder ([DiffType.unchanged].map DiffType.mark) (entries.map DiffEntry.text)).length
    rw [hlines, hcount]
    exact hlongest

end OpencodeSwarm
