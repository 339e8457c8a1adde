/-
  OpencodeSwarm.Text.RatioBounds

  The ratio as a measure of likeness: it lies between 0 and 1, and it is 1 for equal
  sequences only.  A sequence is matched with itself along the diagonal, also where
  no element of it anchors: then the empty match at the origin is extended over it.
-/
import Mathlib.Algebra.Order.Field.Basic
import Mathlib.Algebra.Order.Field.Rat
import Mathlib.Tactic.Positivity
import OpencodeSwarm.Text.CpythonRatio

namespace OpencodeSwarm

section Matcher

variable {α : Type*} [DecidableEq α] {a b : List α} {ok : α → Bool}

/-! ## Blocks in order -/

omit [DecidableEq α] in
theorem Ascends.totalSize_le {la lb i j : Nat} {blocks : List Match}
    (h : Ascends a b la lb i j blocks) :
    i + totalSize blocks ≤ la ∧ j + totalSize blocks ≤ lb := by
  induction blocks generalizing i j with
  | nil => exact h
  | cons m rest ih =>
    obtain ⟨hi, hj, -, -, hrest⟩ := h
    obtain ⟨hla, hlb⟩ := ih hrest
    have hsize : totalSize (m :: rest) = m.size + totalSize rest := by
      unfold totalSize
      rw [List.map_cons, List.sum_cons]
    omega

omit [DecidableEq α] in
theorem Ascends.getElem?_eq {i j : Nat} {blocks : List Match}
    (h : Ascends a b a.length b.length i j blocks) (ha : i + totalSize blocks = a.length)
    (hb : j + totalSize blocks = b.length) (k : Nat) : a[i + k]? = b[j + k]? := by
  induction blocks generalizing i j k with
  | nil =>
    have hi : a.length ≤ i + k := by
      have hnil : totalSize [] = 0 := rfl
      omega
    have hj : b.length ≤ j + k := by
      omega
    rw [List.getElem?_eq_none hi, List.getElem?_eq_none hj]
  | cons m rest ih =>
    obtain ⟨hi, hj, -, hpairs, hrest⟩ := h
    obtain ⟨hla, hlb⟩ := hrest.totalSize_le
    have hsize : totalSize (m :: rest) = m.size + totalSize rest := by
      unfold totalSize
      rw [List.map_cons, List.sum_cons]
    have hma : m.a = i := by omega
    have hmb : m.b = j := by omega
    by_cases hk : k < m.size
    · have hpair := hpairs k hk
      rwa [hma, hmb] at hpair
    · have hlater := ih hrest (by omega) (by omega) (k - m.size)
      have hindexA : m.a + m.size + (k - m.size) = i + k := by omega
      have hindexB : m.b + m.size + (k - m.size) = j + k := by omega
      rwa [hindexA, hindexB] at hlater

/-! ## A sequence beside itself -/

variable {m : Match}

/-- The longest run is on the diagonal: its mirror images are runs as well. -/
theorem IsLongestRun.diagonal
    (h : IsLongestRun (fun i j => anchored a a ok i j = true) ⟨0, a.length, 0, a.length⟩ m) :
    m.a = m.b := by
  have hhi := h.block.le_ahi
  have hbhi := h.block.le_bhi
  by_cases hsize : m.size = 0
  · rw [h.origin hsize]
  have hmirrored : ∀ start, (∀ k < m.size, ∃ ch, a[start + k]? = some ch ∧ ok ch = true) →
      start + m.size ≤ a.length → IsBlock (fun i j => anchored a a ok i j = true)
        ⟨0, a.length, 0, a.length⟩ ⟨start, start, m.size⟩ := by
    intro start hpairs hend
    refine ⟨Nat.zero_le _, hend, Nat.zero_le _, hend, fun k hk => ?_⟩
    obtain ⟨ch, hch, hok⟩ := hpairs k hk
    exact anchored_iff.mpr ⟨ch, hch, hch, hok⟩
  have hrows := hmirrored m.a (fun k hk => by
    obtain ⟨ch, ha, -, hok⟩ := anchored_iff.mp (h.block.pairs k hk)
    exact ⟨ch, ha, hok⟩) hhi
  have hcolumns := hmirrored m.b (fun k hk => by
    obtain ⟨ch, -, hb, hok⟩ := anchored_iff.mp (h.block.pairs k hk)
    exact ⟨ch, hb, hok⟩) hbhi
  have hleft := h.longest _ hrows (Nat.pos_of_ne_zero hsize)
  have hright := h.longest _ hcolumns (Nat.pos_of_ne_zero hsize)
  dsimp only at hleft hright
  omega

theorem LongestMatch.size_self (h : LongestMatch a a ok ⟨0, a.length, 0, a.length⟩ m) :
    m.size = a.length := by
  obtain ⟨run, hrun, hextension⟩ := h
  have hdiagonal := hrun.diagonal
  obtain ⟨back, forward, ha, hb, hsize⟩ := hextension.grown
  have hle := hextension.block.le_ahi
  have hback := hextension.stopsBack
  have hforward := hextension.stopsForward
  dsimp only at hle hback hforward
  have hsame : m.a = m.b := by omega
  rw [← hsame] at hback hforward
  have hstart : m.a = 0 := by
    by_contra hpositive
    exact hback ⟨by omega, by omega, rfl⟩
  by_contra hshort
  exact hforward ⟨by omega, by omega, rfl⟩

theorem totalSize_self {blocks : List Match} (h : WholeBlocks a a ok blocks) :
    a.length ≤ totalSize blocks := by
  cases h with
  | empty hempty =>
    dsimp only at hempty
    omega
  | none _ hm hsize =>
    rw [← hm.size_self, hsize]
    exact Nat.zero_le _
  | split _ hm _ _ _ =>
    have hsize := hm.size_self
    rw [totalSize_split]
    omega

/-! ## The ratio -/

theorem exists_ratioOf (isJunk : Option (α → Bool)) (autoJunk : Bool) (a b : List α) :
    ∃ total, ratio isJunk autoJunk a b = ratioOf a b total ∧ total ≤ a.length ∧ total ≤ b.length
      ∧ (total = a.length → total = b.length → a = b) ∧ (a = b → total = a.length) := by
  obtain ⟨blocks, hblocks, hratio⟩ := ratio_spec isJunk autoJunk a b
  have hascends : Ascends a b a.length b.length 0 0 blocks := by
    refine hblocks.ascends ?_ (fits_whole a b)
    rintro r m - ⟨run, -, hextension⟩
    exact hextension.block
  obtain ⟨hla, hlb⟩ := hascends.totalSize_le
  refine ⟨totalSize blocks, hratio, by omega, by omega, ?_, ?_⟩
  · intro ha hb
    apply List.ext_getElem?
    intro k
    have hsame := hascends.getElem?_eq (by omega) (by omega) k
    rwa [Nat.zero_add] at hsame
  · rintro rfl
    have hge := totalSize_self hblocks
    omega

/-- For every junk predicate and heuristic, the ratio is a number between 0 and 1 that is 1
    exactly for equal sequences. -/
theorem ratio_unit (isJunk : Option (α → Bool)) (autoJunk : Bool) (a b : List α) :
    0 ≤ ratio isJunk autoJunk a b ∧ ratio isJunk autoJunk a b ≤ 1
      ∧ (ratio isJunk autoJunk a b = 1 ↔ a = b) := by
  obtain ⟨total, hratio, hla, hlb, hfull, hself⟩ := exists_ratioOf isJunk autoJunk a b
  rw [hratio]
  unfold ratioOf
  by_cases hlength : a.length + b.length = 0
  · rw [if_pos hlength]
    refine ⟨zero_le_one, le_refl _, iff_of_true rfl ?_⟩
    rw [List.length_eq_zero_iff.mp (by omega : a.length = 0),
      List.length_eq_zero_iff.mp (by omega : b.length = 0)]
  rw [if_neg hlength]
  have hpositive : (0 : Rat) < ((a.length + b.length : Nat) : Rat) := by
    exact_mod_cast Nat.pos_of_ne_zero hlength
  refine ⟨by positivity, ?_, ?_⟩
  · rw [div_le_one hpositive]
    exact_mod_cast (by omega : 2 * total ≤ a.length + b.length)
  · rw [div_eq_one_iff_eq hpositive.ne']
    constructor
    · intro heq
      have hsum : 2 * total = a.length + b.length := by exact_mod_cast heq
      exact hfull (by omega) (by omega)
    · intro heq
      have htotal := hself heq
      have hsame : a.length = b.length := by rw [heq]
      exact_mod_cast (by omega : 2 * total = a.length + b.length)

end Matcher

end OpencodeSwarm
