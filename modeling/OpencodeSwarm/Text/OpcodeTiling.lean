/-
  OpencodeSwarm.Text.OpcodeTiling

  The blocks that the stack finds are those of the recursion over shrinking ranges,
  none crosses another, and so the opcodes turn the first sequence into the second.
-/
import Mathlib.Data.List.Pairwise
import OpencodeSwarm.Text.LongestMatch

namespace OpencodeSwarm

open Js

section Matcher

variable {α : Type*}

/-! ## The recursion -/

/-- The blocks of a pair of ranges, in order: none if a range is empty or nothing matches,
    else those on the left of the longest, it, and those on its right. -/
inductive BlocksOf (longest : Ranges → Match → Prop) : Ranges → List Match → Prop where
  | empty {r : Ranges} (h : ¬ (r.alo < r.ahi ∧ r.blo < r.bhi)) : BlocksOf longest r []
  | none {r : Ranges} {m : Match} (h : r.alo < r.ahi ∧ r.blo < r.bhi) (hm : longest r m)
      (hsize : m.size = 0) : BlocksOf longest r []
  | split {r : Ranges} {m : Match} {left right : List Match} (h : r.alo < r.ahi ∧ r.blo < r.bhi)
      (hm : longest r m) (hsize : 0 < m.size)
      (hleft : BlocksOf longest ⟨r.alo, m.a, r.blo, m.b⟩ left)
      (hright : BlocksOf longest ⟨m.a + m.size, r.ahi, m.b + m.size, r.bhi⟩ right) :
      BlocksOf longest r (left ++ m :: right)

/-- Ranges of sequences of these lengths. -/
structure Ranges.Fits (r : Ranges) (la lb : Nat) : Prop where
  alo_le : r.alo ≤ r.ahi
  ahi_le : r.ahi ≤ la
  blo_le : r.blo ≤ r.bhi
  bhi_le : r.bhi ≤ lb

/-- A match that lies in its ranges. -/
def Ranges.Holds (r : Ranges) (m : Match) : Prop :=
  r.alo ≤ m.a ∧ m.a + m.size ≤ r.ahi ∧ r.blo ≤ m.b ∧ m.b + m.size ≤ r.bhi

/-! ## The stack -/

variable {la lb : Nat} {find : Ranges → Match}

/-- The loop takes a pair of ranges off the stack and comes to have added its blocks. -/
theorem collectBlocks_range (hfind : ∀ r : Ranges, r.Fits la lb → r.Holds (find r)) (width : Nat) :
    ∀ r : Ranges, r.Fits la lb → r.alo < r.ahi ∧ r.blo < r.bhi → r.ahi - r.alo ≤ width →
      ∃ steps found blocks, steps ≤ 2 * (r.ahi - r.alo) + 1 ∧ found.Perm blocks
        ∧ BlocksOf (fun r m => find r = m) r blocks
        ∧ ∀ fuel stack matches', collectBlocks find (fuel + steps) (r :: stack) matches'
          = collectBlocks find fuel stack (matches' ++ found) := by
  induction width with
  | zero =>
    omega
  | succ width ih =>
    intro r hfits hfull hwidth
    obtain ⟨m, hm⟩ : ∃ m, find r = m := ⟨_, rfl⟩
    by_cases hsize : 0 < m.size
    · have hheld := hfind r hfits
      rw [hm] at hheld
      obtain ⟨h1, h2, h3, h4⟩ := hheld
      have hfit1 := hfits.ahi_le
      have hfit2 := hfits.bhi_le
      let left : Ranges := ⟨r.alo, m.a, r.blo, m.b⟩
      let right : Ranges := ⟨m.a + m.size, r.ahi, m.b + m.size, r.bhi⟩
      -- a side is empty, or the loop goes through it
      have hside : ∀ side : Ranges, side.Fits la lb → side.ahi - side.alo ≤ width →
          ∃ steps found blocks, steps ≤ 2 * (side.ahi - side.alo) + 1 ∧ found.Perm blocks
            ∧ BlocksOf (fun r m => find r = m) side blocks
            ∧ ∀ fuel stack matches', collectBlocks find (fuel + steps)
                ((if side.alo < side.ahi ∧ side.blo < side.bhi then [side] else []) ++ stack)
                matches' = collectBlocks find fuel stack (matches' ++ found) := by
        intro side hside hless
        by_cases hproper : side.alo < side.ahi ∧ side.blo < side.bhi
        · obtain ⟨steps, found, blocks, hsteps, hperm, hblocks, hrun⟩ := ih side hside hproper hless
          refine ⟨steps, found, blocks, hsteps, hperm, hblocks, fun fuel stack matches' => ?_⟩
          rw [if_pos hproper, List.singleton_append]
          exact hrun fuel stack matches'
        · refine ⟨0, [], [], Nat.zero_le _, List.Perm.refl _, BlocksOf.empty hproper,
            fun fuel stack matches' => ?_⟩
          rw [if_neg hproper, List.nil_append, List.append_nil, Nat.add_zero]
      have hinside : m.a ≤ la ∧ m.b ≤ lb := ⟨by omega, by omega⟩
      have hleftFits : left.Fits la lb := ⟨h1, hinside.1, h3, hinside.2⟩
      have hrightFits : right.Fits la lb := ⟨h2, hfit1, h4, hfit2⟩
      obtain ⟨steps₁, found₁, blocks₁, hsteps₁, hperm₁, hblocks₁, hrun₁⟩ :=
        hside left hleftFits (show m.a - r.alo ≤ width by omega)
      obtain ⟨steps₂, found₂, blocks₂, hsteps₂, hperm₂, hblocks₂, hrun₂⟩ :=
        hside right hrightFits (show r.ahi - (m.a + m.size) ≤ width by omega)
      have hsteps₁ : steps₁ ≤ 2 * (m.a - r.alo) + 1 := hsteps₁
      have hsteps₂ : steps₂ ≤ 2 * (r.ahi - (m.a + m.size)) + 1 := hsteps₂
      refine ⟨steps₁ + steps₂ + 1, m :: (found₂ ++ found₁), blocks₁ ++ m :: blocks₂, by omega,
        ?_, BlocksOf.split hfull hm hsize hblocks₁ hblocks₂, ?_⟩
      · have hsides := (hperm₂.append hperm₁).trans List.perm_append_comm
        exact (hsides.cons m).trans List.perm_middle.symm
      · intro fuel stack matches'
        have hfuel : fuel + (steps₁ + steps₂ + 1) = fuel + steps₁ + steps₂ + 1 := by omega
        have hpushed : pushedRanges r m
            = (if right.alo < right.ahi ∧ right.blo < right.bhi then [right] else [])
              ++ (if left.alo < left.ahi ∧ left.blo < left.bhi then [left] else []) := rfl
        rw [hfuel]
        show (if 0 < (find r).size then collectBlocks find (fuel + steps₁ + steps₂)
            (pushedRanges r (find r) ++ stack) (matches' ++ [find r])
          else _) = _
        rw [hm, if_pos hsize, hpushed, List.append_assoc, hrun₂, hrun₁]
        simp
    · refine ⟨1, [], [], by omega, List.Perm.refl _,
        BlocksOf.none hfull hm (by omega), fun fuel stack matches' => ?_⟩
      show (if 0 < (find r).size then _ else collectBlocks find fuel stack matches') = _
      rw [hm, if_neg hsize, List.append_nil]

theorem collectBlocks_spec (hfind : ∀ r : Ranges, r.Fits la lb → r.Holds (find r)) :
    ∃ blocks, BlocksOf (fun r m => find r = m) ⟨0, la, 0, lb⟩ blocks
      ∧ (collectBlocks find (2 * la + 1) [⟨0, la, 0, lb⟩] []).Perm blocks := by
  have hfits : (⟨0, la, 0, lb⟩ : Ranges).Fits la lb :=
    ⟨Nat.zero_le _, le_refl _, Nat.zero_le _, le_refl _⟩
  by_cases hfull : 0 < la ∧ 0 < lb
  · obtain ⟨steps, found, blocks, hsteps, hperm, hblocks, hrun⟩ :=
      collectBlocks_range hfind la ⟨0, la, 0, lb⟩ hfits hfull (le_refl _)
    have hsteps : steps ≤ 2 * la + 1 := hsteps
    have hfuel : 2 * la + 1 = (2 * la + 1 - steps) + steps := by omega
    refine ⟨blocks, hblocks, ?_⟩
    rw [hfuel, hrun, List.nil_append]
    cases 2 * la + 1 - steps with
    | zero => exact hperm
    | succ fuel => exact hperm
  · refine ⟨[], BlocksOf.empty hfull, ?_⟩
    have hnone : ¬ 0 < (find ⟨0, la, 0, lb⟩).size := by
      intro hpositive
      obtain ⟨h1, h2, h3, h4⟩ := hfind _ hfits
      dsimp only at h1 h2 h3 h4
      exact hfull ⟨by omega, by omega⟩
    show (if 0 < (find ⟨0, la, 0, lb⟩).size then _
      else collectBlocks find (2 * la) [] []).Perm []
    rw [if_neg hnone]
    cases 2 * la with
    | zero | succ fuel => exact List.Perm.refl _

/-! ## Blocks in order -/

/-- From `(i, j)` to `(la, lb)`: equal stretches, each behind the one before in both sequences. -/
def Ascends (a b : List α) (la lb : Nat) : Nat → Nat → List Match → Prop
  | i, j, [] => i ≤ la ∧ j ≤ lb
  | i, j, m :: rest => i ≤ m.a ∧ j ≤ m.b ∧ 0 < m.size
      ∧ (∀ k < m.size, a[m.a + k]? = b[m.b + k]?)
      ∧ Ascends a b la lb (m.a + m.size) (m.b + m.size) rest

variable {a b : List α} {i j : Nat} {x y : Nat} {m : Match}

theorem Ascends.append {front back : List Match} (hfront : Ascends a b m.a m.b i j front)
    (hsize : 0 < m.size) (hequal : ∀ k < m.size, a[m.a + k]? = b[m.b + k]?) (hx : x = m.a + m.size)
    (hy : y = m.b + m.size) (hback : Ascends a b la lb x y back) :
    Ascends a b la lb i j (front ++ m :: back) := by
  induction front generalizing i j with
  | nil =>
    subst hx hy
    exact ⟨hfront.1, hfront.2, hsize, hequal, hback⟩
  | cons first rest ih =>
    obtain ⟨hi, hj, hpositive, hpairs, hrest⟩ := hfront
    exact ⟨hi, hj, hpositive, hpairs, ih hrest⟩

variable {blocks : List Match}

theorem BlocksOf.ascends {longest : Ranges → Match → Prop}
    (hblock : ∀ r m, r.Fits la lb → longest r m → IsBlock (fun i j => a[i]? = b[j]?) r m)
    {r : Ranges} (h : BlocksOf longest r blocks) (hfits : r.Fits la lb) :
    Ascends a b r.ahi r.bhi r.alo r.blo blocks := by
  induction h with
  | empty _ | none _ _ _ => exact ⟨hfits.alo_le, hfits.blo_le⟩
  | split _ hm hsize _ _ ihLeft ihRight =>
    have hm := hblock _ _ hfits hm
    have h1 := hm.alo_le
    have h2 := hm.le_ahi
    have h3 := hm.blo_le
    have h4 := hm.le_bhi
    have hahi := hfits.ahi_le
    have hbhi := hfits.bhi_le
    have hleft := ihLeft ⟨h1, by dsimp only; omega, h3, by dsimp only; omega⟩
    have hright := ihRight ⟨h2, hahi, h4, hbhi⟩
    exact Ascends.append hleft hsize hm.pairs rfl rfl hright

theorem Ascends.le_of_mem (h : Ascends a b la lb i j blocks) (hm : m ∈ blocks) :
    i ≤ m.a ∧ j ≤ m.b ∧ 0 < m.size := by
  induction blocks generalizing i j with
  | nil => cases hm
  | cons first rest ih =>
    obtain ⟨hi, hj, hpositive, -, hrest⟩ := h
    rcases List.mem_cons.mp hm with rfl | hm
    · exact ⟨hi, hj, hpositive⟩
    · obtain ⟨hi', hj', hpositive'⟩ := ih hrest hm
      exact ⟨by omega, by omega, hpositive'⟩

theorem Ascends.pairwise (h : Ascends a b la lb i j blocks) :
    blocks.Pairwise fun x y => x.a < y.a := by
  induction blocks generalizing i j with
  | nil => exact List.Pairwise.nil
  | cons first rest ih =>
    obtain ⟨hi, hj, hpositive, -, hrest⟩ := h
    refine List.pairwise_cons.mpr ⟨fun m hm => ?_, ih hrest⟩
    have hle := (hrest.le_of_mem hm).1
    omega

theorem compareBlocks_le_zero_iff (x y : Match) :
    compareBlocks x y ≤ 0 ↔ x.a < y.a ∨ x.a = y.a ∧ x.b ≤ y.b := by
  unfold compareBlocks
  split
  · omega
  · omega

theorem sortBy_of_ascends {found : List Match} (h : Ascends a b la lb i j blocks)
    (hperm : found.Perm blocks) : sortBy compareBlocks found = blocks := by
  have hsorted : (sortBy compareBlocks found).Pairwise fun x y => compareBlocks x y ≤ 0 := by
    refine pairwise_sortBy (fun x y => ?_) (fun x y z hxy hyz => ?_) found
    · rw [compareBlocks_le_zero_iff, compareBlocks_le_zero_iff]
      omega
    · rw [compareBlocks_le_zero_iff] at hxy hyz ⊢
      omega
  have hblocks : blocks.Pairwise fun x y => compareBlocks x y ≤ 0 :=
    h.pairwise.imp fun hless => (compareBlocks_le_zero_iff _ _).mpr (Or.inl hless)
  have hsame := (sortBy_perm compareBlocks found).trans hperm
  refine hsame.eq_of_pairwise (fun x y hx hy hxy hyx => ?_) hsorted hblocks
  rw [compareBlocks_le_zero_iff] at hxy hyx
  -- blocks that begin together are one block
  have hx := hsame.mem_iff.mp hx
  by_contra hne
  have happart : x.a ≠ y.a := by
    have hsymm : Std.Symm fun x y : Match => x.a ≠ y.a := ⟨fun _ _ hxy => hxy.symm⟩
    have hpairs : blocks.Pairwise fun x y => x.a ≠ y.a := h.pairwise.imp fun hless => hless.ne
    exact hpairs.forall hx hy hne
  omega

/-! ## What the matcher finds -/

/-- The blocks of the whole sequences, as the recursion over the longest matches gives them. -/
theorem getMatchingBlocks_spec [DecidableEq α] (isJunk : Option (α → Bool)) (autoJunk : Bool)
    (a b : List α) :
    ∃ blocks, BlocksOf (fun r m => findLongestMatch (chainB isJunk autoJunk b) a b r = m)
        ⟨0, a.length, 0, b.length⟩ blocks ∧ Ascends a b a.length b.length 0 0 blocks
      ∧ getMatchingBlocks isJunk autoJunk a b = blocks ++ [⟨a.length, b.length, 0⟩] := by
  have hblock : ∀ (r : Ranges) m, r.Fits a.length b.length →
      findLongestMatch (chainB isJunk autoJunk b) a b r = m →
      IsBlock (fun i j => a[i]? = b[j]?) r m := by
    rintro r m hfits rfl
    obtain ⟨run, -, hextension⟩ :=
      findLongestMatch_spec (indexes_chainB isJunk autoJunk b) hfits.alo_le hfits.blo_le
    exact hextension.block
  have hholds : ∀ r : Ranges, r.Fits a.length b.length →
      r.Holds (findLongestMatch (chainB isJunk autoJunk b) a b r) := by
    intro r hfits
    have hr := hblock r _ hfits rfl
    exact ⟨hr.alo_le, hr.le_ahi, hr.blo_le, hr.le_bhi⟩
  obtain ⟨blocks, hblocks, hperm⟩ := collectBlocks_spec hholds
  have hascends := hblocks.ascends hblock
    ⟨Nat.zero_le _, le_refl _, Nat.zero_le _, le_refl _⟩
  refine ⟨blocks, hblocks, hascends, ?_⟩
  unfold getMatchingBlocks foundBlocks
  rw [sortBy_of_ascends hascends hperm]

/-! ## Opcodes -/

/-- `s.slice(start, stop)`. -/
def sliceOf (s : List α) (start stop : Nat) : List α := (s.take stop).drop start

/-- Ranges that follow each other from `start` to `stop`. -/
def Tiles (start stop : Nat) : List (Nat × Nat) → Prop
  | [] => start = stop
  | (lo, hi) :: rest => lo = start ∧ lo ≤ hi ∧ Tiles hi stop rest

/-- What an opcode contributes: equal elements of `a`, or new elements of `b`. -/
def Opcode.written (a b : List α) (op : Opcode) : List α :=
  match op.tag with
  | .equal => sliceOf a op.i1 op.i2
  | .replace | .insert => sliceOf b op.j1 op.j2
  | .delete => []

/-- Opcodes that turn the rest of `a` from `i` on into the rest of `b` from `j` on. -/
structure TransformsFrom (a b : List α) (i j : Nat) (ops : List Opcode) : Prop where
  tilesA : Tiles i a.length (ops.map fun op => (op.i1, op.i2))
  tilesB : Tiles j b.length (ops.map fun op => (op.j1, op.j2))
  equal : ∀ op ∈ ops, op.tag = .equal → sliceOf a op.i1 op.i2 = sliceOf b op.j1 op.j2
  result : ops.flatMap (Opcode.written a b) = b.drop j

theorem sliceOf_append_drop (s : List α) {start stop : Nat} (h : start ≤ stop) :
    sliceOf s start stop ++ s.drop stop = s.drop start := by
  rw [sliceOf, List.drop_take]
  have hdrop : s.drop stop = (s.drop start).drop (stop - start) := by
    rw [List.drop_drop]
    congr 1
    omega
  rw [hdrop, List.take_append_drop]

theorem sliceOf_self (s : List α) (start : Nat) : sliceOf s start start = [] := by
  rw [sliceOf, List.drop_take, Nat.sub_self, List.take_zero]

theorem sliceOf_congr {n : Nat} (h : ∀ k < n, a[x + k]? = b[y + k]?) :
    sliceOf a x (x + n) = sliceOf b y (y + n) := by
  apply List.ext_getElem?
  intro k
  unfold sliceOf
  rw [List.drop_take, List.drop_take, Nat.add_sub_cancel_left, Nat.add_sub_cancel_left]
  by_cases hk : k < n
  · rw [List.getElem?_take_of_lt hk, List.getElem?_take_of_lt hk, List.getElem?_drop,
      List.getElem?_drop, h k hk]
  · rw [List.getElem?_take_eq_none (by omega), List.getElem?_take_eq_none (by omega)]

theorem TransformsFrom.cons {i j : Nat} {op : Opcode} {ops : List Opcode} (hi : op.i1 = i)
    (hj : op.j1 = j) (hi2 : op.i1 ≤ op.i2) (hj2 : op.j1 ≤ op.j2)
    (hequal : op.tag = .equal → sliceOf a op.i1 op.i2 = sliceOf b op.j1 op.j2)
    (hwritten : op.written a b = sliceOf b op.j1 op.j2)
    (hrest : TransformsFrom a b op.i2 op.j2 ops) : TransformsFrom a b i j (op :: ops) where
  tilesA := ⟨hi, hi2, hrest.tilesA⟩
  tilesB := ⟨hj, hj2, hrest.tilesB⟩
  equal := by
    intro other hother htag
    rcases List.mem_cons.mp hother with rfl | hother
    · exact hequal htag
    · exact hrest.equal other hother htag
  result := by
    rw [List.flatMap_cons, hwritten, hrest.result, sliceOf_append_drop b hj2, hj]

theorem transformsFrom_gap {ops : List Opcode} (hi : i ≤ x) (hj : j ≤ y)
    (hrest : TransformsFrom a b x y ops) :
    TransformsFrom a b i j ((if i < x ∧ j < y then [⟨.replace, i, x, j, y⟩]
      else if i < x then [⟨.delete, i, x, j, y⟩] else if j < y then [⟨.insert, i, x, j, y⟩]
      else []) ++ ops) := by
  split
  · exact hrest.cons rfl rfl hi hj (fun htag => by cases htag) rfl
  split
  · next hnot hdelete =>
    have hsame : j = y := by omega
    subst hsame
    refine hrest.cons rfl rfl hi hj (fun htag => by cases htag) ?_
    exact (sliceOf_self b j).symm
  · split
    · exact hrest.cons rfl rfl hi hj (fun htag => by cases htag) rfl
    have hsameI : i = x := by omega
    have hsameJ : j = y := by omega
    subst hsameI hsameJ
    exact hrest

theorem opcodesFrom_spec (h : Ascends a b a.length b.length i j blocks) :
    TransformsFrom a b i j (opcodesFrom i j (blocks ++ [⟨a.length, b.length, 0⟩])) := by
  induction blocks generalizing i j with
  | nil =>
    have hend : TransformsFrom a b a.length b.length [] :=
      { tilesA := rfl
        tilesB := rfl
        equal := List.forall_mem_nil _
        result := by rw [List.drop_length, List.flatMap_nil] }
    have hgap := transformsFrom_gap h.1 h.2 hend
    show TransformsFrom a b i j ((_ ++ []) ++ [])
    rw [List.append_nil]
    exact hgap
  | cons m rest ih =>
    obtain ⟨hi, hj, hpositive, hpairs, hrest⟩ := h
    have hequal := sliceOf_congr hpairs
    let op : Opcode := ⟨.equal, m.a, m.a + m.size, m.b, m.b + m.size⟩
    have hblock := @TransformsFrom.cons α a b m.a m.b op _ rfl rfl
      (Nat.le_add_right _ _) (Nat.le_add_right _ _) (fun _ => hequal) hequal (ih hrest)
    have hgap := transformsFrom_gap hi hj hblock
    have hops : opcodesFrom i j (m :: rest ++ [⟨a.length, b.length, 0⟩])
        = blockOpcodes i j m ++ opcodesFrom (m.a + m.size) (m.b + m.size)
            (rest ++ [⟨a.length, b.length, 0⟩]) := rfl
    rw [hops]
    rw [blockOpcodes, if_pos hpositive, List.append_assoc, List.singleton_append]
    exact hgap

theorem transformsFrom_getOpcodes [DecidableEq α] (isJunk : Option (α → Bool)) (autoJunk : Bool)
    (a b : List α) : TransformsFrom a b 0 0 (getOpcodes isJunk autoJunk a b) := by
  obtain ⟨blocks, -, hascends, hmatching⟩ := getMatchingBlocks_spec isJunk autoJunk a b
  rw [getOpcodes, hmatching]
  exact opcodesFrom_spec hascends

/-- Opcodes that turn `a` into `b`. -/
def Transforms (a b : List α) (ops : List Opcode) : Prop :=
  Tiles 0 a.length (ops.map fun op => (op.i1, op.i2))
    ∧ Tiles 0 b.length (ops.map fun op => (op.j1, op.j2))
    ∧ (∀ op ∈ ops, op.tag = .equal → sliceOf a op.i1 op.i2 = sliceOf b op.j1 op.j2)
    ∧ ops.flatMap (Opcode.written a b) = b

/-- The opcodes tile both sequences, and turn the first into the second. -/
theorem getOpcodes_transforms [DecidableEq α] (isJunk : Option (α → Bool)) (autoJunk : Bool)
    (a b : List α) : Transforms a b (getOpcodes isJunk autoJunk a b) := by
  have hops := transformsFrom_getOpcodes isJunk autoJunk a b
  exact ⟨hops.tilesA, hops.tilesB, hops.equal, hops.result⟩

end Matcher

end OpencodeSwarm
