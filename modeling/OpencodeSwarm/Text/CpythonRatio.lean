/-
  OpencodeSwarm.Text.CpythonRatio

  The ratio beside that of CPython's `difflib`: the two differ in the elements they
  take for popular, and so on every second sequence with an element between the
  two thresholds, for some first sequence.
-/
import Mathlib.Tactic.Ring
import Mathlib.Tactic.FieldSimp
import OpencodeSwarm.Text.OpcodeTiling

namespace OpencodeSwarm

open Js

section Matcher

variable {α : Type*} [DecidableEq α]

/-! ## The reference -/

/-- The longest run of pairs that anchor, first in `a`, then in `b`, extended over equal
    elements. -/
def LongestMatch (a b : List α) (ok : α → Bool) (r : Ranges) (m : Match) : Prop :=
  ∃ run, IsLongestRun (fun i j => anchored a b ok i j = true) r run ∧ IsExtension a b r run m

/-- The blocks of both whole sequences. -/
def WholeBlocks (a b : List α) (ok : α → Bool) (blocks : List Match) : Prop :=
  BlocksOf (LongestMatch a b ok) ⟨0, a.length, 0, b.length⟩ blocks

def totalSize (blocks : List Match) : Nat := (blocks.map Match.size).sum

/-- `2 * M / T`. -/
def ratioOf (a b : List α) (total : Nat) : Rat :=
  if a.length + b.length = 0 then 1 else 2 * total / ((a.length + b.length : Nat) : Rat)

/-- Popular in CPython: more often than one in a hundred, and once more. -/
def cpythonPopular (autoJunk : Bool) (b : List α) (ch : α) : Bool :=
  autoJunk && 200 ≤ b.length && b.length / 100 + 1 < b.count ch

/-- The ratio of CPython's matcher, without a junk predicate. -/
def CpythonRatio (autoJunk : Bool) (a b : List α) (q : Rat) : Prop :=
  ∃ blocks, WholeBlocks a b (fun ch => !cpythonPopular autoJunk b ch) blocks
    ∧ q = ratioOf a b (totalSize blocks)

/-! ## The port -/

variable {a b : List α} {ok : α → Bool}

omit [DecidableEq α] in
/-- The recursion depends on the longest match inside ranges of the sequences only. -/
theorem BlocksOf.mono {longest longest' : Ranges → Match → Prop} {la lb : Nat}
    (hmono : ∀ r m, r.Fits la lb → longest r m → longest' r m)
    (hholds : ∀ r m, r.Fits la lb → longest r m → r.Holds m) {r : Ranges} {blocks : List Match}
    (h : BlocksOf longest r blocks) (hfits : r.Fits la lb) : BlocksOf longest' r blocks := by
  induction h with
  | empty hempty => exact BlocksOf.empty hempty
  | none hfull hm hsize => exact BlocksOf.none hfull (hmono _ _ hfits hm) hsize
  | split hfull hm hsize _ _ ihLeft ihRight =>
    obtain ⟨h1, h2, h3, h4⟩ := hholds _ _ hfits hm
    have hahi := hfits.ahi_le
    have hbhi := hfits.bhi_le
    exact BlocksOf.split hfull (hmono _ _ hfits hm) hsize
      (ihLeft ⟨h1, by dsimp only; omega, h3, by dsimp only; omega⟩)
      (ihRight ⟨h2, hahi, h4, hbhi⟩)

omit [DecidableEq α] in
theorem fits_whole (a b : List α) :
    (⟨0, a.length, 0, b.length⟩ : Ranges).Fits a.length b.length :=
  ⟨Nat.zero_le _, le_refl _, Nat.zero_le _, le_refl _⟩

/-- The ratio is that of the recursion with the elements that anchor in the port. -/
theorem ratio_spec (isJunk : Option (α → Bool)) (autoJunk : Bool) (a b : List α) :
    ∃ blocks, WholeBlocks a b (anchors isJunk autoJunk b) blocks
      ∧ ratio isJunk autoJunk a b = ratioOf a b (totalSize blocks) := by
  obtain ⟨blocks, hblocks, -, hmatching⟩ := getMatchingBlocks_spec isJunk autoJunk a b
  have hlongest : ∀ r m, r.Fits a.length b.length →
      findLongestMatch (chainB isJunk autoJunk b) a b r = m →
      LongestMatch a b (anchors isJunk autoJunk b) r m := by
    rintro r m hfits rfl
    exact findLongestMatch_spec (indexes_chainB isJunk autoJunk b) hfits.alo_le hfits.blo_le
  refine ⟨blocks, hblocks.mono hlongest ?_ (fits_whole a b), ?_⟩
  · intro r m hfits hm
    obtain ⟨run, -, hextension⟩ := hlongest r m hfits hm
    exact ⟨hextension.block.alo_le, hextension.block.le_ahi, hextension.block.blo_le,
      hextension.block.le_bhi⟩
  · unfold ratio ratioOf totalSize
    rw [hmatching, List.map_append, List.sum_append]
    simp

variable {ok' : α → Bool}

theorem anchored_congr (h : ∀ ch ∈ b, ok ch = ok' ch) (i j : Nat) :
    anchored a b ok i j = anchored a b ok' i j := by
  rw [Bool.eq_iff_iff, anchored_iff, anchored_iff]
  constructor
  · rintro ⟨ch, ha, hb, hok⟩
    exact ⟨ch, ha, hb, h ch (List.mem_of_getElem? hb) ▸ hok⟩
  · rintro ⟨ch, ha, hb, hok⟩
    exact ⟨ch, ha, hb, (h ch (List.mem_of_getElem? hb)).symm ▸ hok⟩

theorem longestMatch_congr (h : ∀ ch ∈ b, ok ch = ok' ch) :
    LongestMatch a b ok = LongestMatch a b ok' := by
  unfold LongestMatch
  simp [anchored_congr h]

/-! ## Sizes of blocks -/

theorem totalSize_split (left right : List Match) (m : Match) :
    totalSize (left ++ m :: right) = totalSize left + (m.size + totalSize right) := by
  unfold totalSize
  rw [List.map_append, List.sum_append, List.map_cons, List.sum_cons]

variable {r : Ranges} {blocks : List Match}

theorem totalSize_of_empty {longest : Ranges → Match → Prop} (h : BlocksOf longest r blocks)
    (hempty : ¬ (r.alo < r.ahi ∧ r.blo < r.bhi)) : totalSize blocks = 0 := by
  cases h with
  | empty _ => rfl
  | none hfull _ _ | split hfull _ _ _ _ => exact absurd hfull hempty

variable {m block : Match}

theorem LongestMatch.size_ge (h : LongestMatch a b ok r m)
    (hblock : IsBlock (fun i j => anchored a b ok i j = true) r block) : block.size ≤ m.size := by
  obtain ⟨run, hrun, hextension⟩ := h
  obtain ⟨back, forward, -, -, hsize⟩ := hextension.grown
  by_cases hpositive : 0 < block.size
  · have hlongest := hrun.longest block hblock hpositive
    omega
  · omega

theorem le_totalSize (h : BlocksOf (LongestMatch a b ok) r blocks)
    (hblock : IsBlock (fun i j => anchored a b ok i j = true) r block) :
    block.size ≤ totalSize blocks := by
  have h1 := hblock.alo_le
  have h2 := hblock.le_ahi
  have h3 := hblock.blo_le
  have h4 := hblock.le_bhi
  cases h with
  | empty hempty =>
    by_contra hpositive
    exact hempty ⟨by omega, by omega⟩
  | none _ hm hsize =>
    have hge := hm.size_ge hblock
    omega
  | split _ hm _ _ _ =>
    have hge := hm.size_ge hblock
    rw [totalSize_split]
    omega

theorem totalSize_of_ne (h : BlocksOf (LongestMatch a b ok) r blocks)
    (hne : ∀ i j, r.alo ≤ i → i < r.ahi → r.blo ≤ j → j < r.bhi → a[i]? ≠ b[j]?) :
    totalSize blocks = 0 := by
  cases h with
  | empty _ => rfl
  | none _ _ _ => rfl
  | split _ hm hpositive _ _ =>
    obtain ⟨run, -, hextension⟩ := hm
    have h1 := hextension.block.alo_le
    have h2 := hextension.block.le_ahi
    have h3 := hextension.block.blo_le
    have h4 := hextension.block.le_bhi
    have hpair := hextension.block.pairs 0 hpositive
    exact absurd hpair (hne _ _ (by omega) (by omega) (by omega) (by omega))

/-- Without a pair that anchors, a match begins at the origin of its ranges. -/
theorem LongestMatch.atOrigin (h : LongestMatch a b ok r m)
    (hno : ∀ i j, r.alo ≤ i → i < r.ahi → anchored a b ok i j = false) :
    m.a = r.alo ∧ m.b = r.blo := by
  obtain ⟨run, hrun, hextension⟩ := h
  have hempty : run.size = 0 := by
    by_contra hpositive
    have h1 := hrun.block.alo_le
    have h2 := hrun.block.le_ahi
    have hpair := hrun.block.pairs 0 (by omega)
    rw [hno _ _ (by omega) (by omega)] at hpair
    cases hpair
  have horigin := hrun.origin hempty
  obtain ⟨back, forward, ha, hb, -⟩ := hextension.grown
  have h3 := hextension.block.blo_le
  rw [horigin] at ha hb
  dsimp only at ha hb
  constructor
  · omega
  · omega

/-! ## An element that only CPython anchors -/

section Gap

variable {x : α}

/-- More than the `x` that `b` begins with: `k` of them, and later one more. -/
structure BeginsWith (b : List α) (x : α) (k : Nat) : Prop where
  front : ∀ j < k, b[j]? = some x
  stops : b[k]? ≠ some x

omit [DecidableEq α] in
theorem getElem?_replicate_some {k i : Nat} (h : i < k) :
    (List.replicate k x)[i]? = some x := by
  rw [List.getElem?_replicate, if_pos h]

variable {blocks : List Match} {k : Nat}

/-- Without anchors the match of `k + 1` times `x` ends where `b` has something else. -/
theorem totalSize_le_of_replicate (hbegins : BeginsWith b x k) (hok : ok x = false)
    (h : WholeBlocks (List.replicate (k + 1) x) b ok blocks) : totalSize blocks ≤ k := by
  have hno : ∀ i j, i < k + 1 → anchored (List.replicate (k + 1) x) b ok i j = false := by
    intro i j hi
    rw [Bool.eq_false_iff]
    intro hanchored
    obtain ⟨ch, ha, -, hch⟩ := anchored_iff.mp hanchored
    rw [getElem?_replicate_some hi] at ha
    cases ha
    rw [hok] at hch
    cases hch
  have hlength : (List.replicate (k + 1) x).length = k + 1 := List.length_replicate
  rw [WholeBlocks, hlength] at h
  cases h with
  | empty _ | none _ _ _ => exact Nat.zero_le _
  | @split _ m left right _ hm hpositive hleft hright =>
    obtain ⟨hma, hmb⟩ := hm.atOrigin fun i j _ hi => hno i j hi
    dsimp only at hma hmb
    obtain ⟨run, -, hextension⟩ := hm
    have hsize : m.size ≤ k := by
      by_contra hlonger
      have hpair := hextension.block.pairs k (by omega)
      rw [hma, hmb, Nat.zero_add, getElem?_replicate_some (Nat.lt_succ_self k)] at hpair
      exact hbegins.stops hpair.symm
    have hzero : totalSize left = 0 := totalSize_of_empty hleft (by dsimp only; omega)
    rw [totalSize_split, hzero]
    by_cases hrest : m.a + m.size < k + 1 ∧ m.b + m.size < b.length
    · -- the match goes up to `k`, and what follows begins with different elements
      have hwhole : m.size = k := by
        by_contra hshorter
        refine hextension.stopsForward ⟨hrest.1, hrest.2, ?_⟩
        rw [hma, hmb, Nat.zero_add, getElem?_replicate_some (by omega)]
        exact (hbegins.front m.size (by omega)).symm
      have hright : totalSize right = 0 := by
        cases hright with
        | empty _ => rfl
        | none _ _ _ => rfl
        | @split _ m' _ _ _ hm' hpositive' _ _ =>
          obtain ⟨hma', hmb'⟩ := hm'.atOrigin fun i j _ hi => hno i j hi
          obtain ⟨run', -, hextension'⟩ := hm'
          have hpair : (List.replicate (k + 1) x)[m'.a]? = b[m'.b]? :=
            hextension'.block.pairs 0 hpositive'
          have hka : m'.a = k := by rw [hma', hma, hwhole, Nat.zero_add]
          have hkb : m'.b = k := by rw [hmb', hmb, hwhole, Nat.zero_add]
          rw [hka, hkb, getElem?_replicate_some (Nat.lt_succ_self k)] at hpair
          exact absurd hpair.symm hbegins.stops
      omega
    · have hright := totalSize_of_empty hright hrest
      omega

theorem lt_totalSize_of_replicate {j : Nat} (hbegins : BeginsWith b x k) (hok : ok x = true)
    (hkj : k < j) (hj : b[j]? = some x) (h : WholeBlocks (List.replicate (k + 1) x) b ok blocks) :
    k < totalSize blocks := by
  have hlength : (List.replicate (k + 1) x).length = k + 1 := List.length_replicate
  have hjlt : j < b.length := (List.getElem?_eq_some_iff.mp hj).1
  have hanchored : ∀ i l, i < k + 1 → b[l]? = some x →
      anchored (List.replicate (k + 1) x) b ok i l = true := fun i l hi hl =>
    anchored_iff.mpr ⟨x, getElem?_replicate_some hi, hl, hok⟩
  have hfront : IsBlock (fun i l => anchored (List.replicate (k + 1) x) b ok i l = true)
      ⟨0, k + 1, 0, b.length⟩ ⟨0, 0, k⟩ := by
    refine ⟨Nat.zero_le _, by dsimp only; omega, Nat.zero_le _, by dsimp only; omega, ?_⟩
    intro l hl
    have hl : l < k := hl
    exact hanchored _ _ (by dsimp only; omega) (by rw [Nat.zero_add]; exact hbegins.front l hl)
  rw [WholeBlocks, hlength] at h
  cases h with
  | empty hempty => exact absurd ⟨Nat.succ_pos k, by dsimp only; omega⟩ hempty
  | none _ hm hsize =>
    have hone : IsBlock (fun i l => anchored (List.replicate (k + 1) x) b ok i l = true)
        ⟨0, k + 1, 0, b.length⟩ ⟨0, j, 1⟩ := by
      refine ⟨Nat.zero_le _, by dsimp only; omega, Nat.zero_le _, by dsimp only; omega, ?_⟩
      intro l hl
      have hl : l = 0 := by dsimp only at hl; omega
      rw [hl]
      exact hanchored _ _ (Nat.succ_pos k) hj
    have hge := hm.size_ge hone
    dsimp only at hge
    omega
  | @split _ m left right _ hm hpositive hleft hright =>
    rw [totalSize_split]
    have hge := hm.size_ge hfront
    by_cases hlonger : k < m.size
    · omega
    -- the first run is the front of `b`, and the later `x` matches behind it
    obtain ⟨run, hrun, hextension⟩ := hm
    obtain ⟨back, forward, hback, hbackB, hgrown⟩ := hextension.grown
    have hfirst := hrun.longest ⟨0, 0, k⟩ hfront (by dsimp only; omega)
    dsimp only at hfirst
    have hone : IsBlock (fun i l => anchored (List.replicate (k + 1) x) b ok i l = true)
        ⟨m.a + m.size, k + 1, m.b + m.size, b.length⟩ ⟨k, j, 1⟩ := by
      refine ⟨by dsimp only; omega, le_refl _, by dsimp only; omega, by dsimp only; omega, ?_⟩
      intro l hl
      have hl : l = 0 := by dsimp only at hl; omega
      rw [hl]
      exact hanchored _ _ (Nat.lt_succ_self k) hj
    have hmore := le_totalSize hright hone
    dsimp only at hmore
    omega

/-- Where `b` begins with all its `x`, an element behind them hides two of them. -/
theorem totalSize_le_of_hidden {z : α} (hzx : z ≠ x) (hbegins : BeginsWith b x k)
    (hlater : ∀ j, k < j → b[j]? ≠ some x) (hk : 0 < k) (hok : ok x = false)
    (h : WholeBlocks [z, x, x] b ok blocks) : totalSize blocks ≤ 1 := by
  have hbehind : ∀ j, k ≤ j → b[j]? ≠ some x := by
    intro j hj
    by_cases heq : j = k
    · rw [heq]
      exact hbegins.stops
    · exact hlater j (by omega)
  have hsecond : ∀ i, 1 ≤ i → i < 3 → [z, x, x][i]? = some x := by
    intro i h1 h3
    have hi : i = 1 ∨ i = 2 := by omega
    rcases hi with rfl | rfl
    · rfl
    · rfl
  -- only the first element anchors
  have hanchor : ∀ i j, i < 3 → anchored [z, x, x] b ok i j = true → i = 0 ∧ b[j]? = some z := by
    intro i j hi hanchored
    obtain ⟨ch, ha, hb, hch⟩ := anchored_iff.mp hanchored
    by_cases hzero : i = 0
    · subst hzero
      cases ha
      exact ⟨rfl, hb⟩
    · rw [hsecond i (by omega) hi] at ha
      cases ha
      rw [hok] at hch
      cases hch
  cases h with
  | empty _ | none _ _ _ => exact Nat.zero_le _
  | @split _ m left right _ hm hpositive hleft hright =>
    obtain ⟨run, hrun, hextension⟩ := hm
    obtain ⟨back, forward, hback, hbackB, hgrown⟩ := hextension.grown
    have hrunAhi : run.a + run.size ≤ 3 := hrun.block.le_ahi
    have hposition : m.a = 0 ∧ b[m.b]? = some z := by
      by_cases hempty : run.size = 0
      · -- the origin: its elements differ
        have horigin := hrun.origin hempty
        rw [horigin] at hback hbackB
        dsimp only at hback hbackB
        have hma : m.a = 0 := by omega
        have hmb : m.b = 0 := by omega
        have hpair := hextension.block.pairs 0 hpositive
        rw [hma, hmb, Nat.add_zero, hbegins.front 0 hk] at hpair
        exact absurd (Option.some.inj hpair) hzx
      · have hpair := hanchor _ _ (by omega) (hrun.block.pairs 0 (by omega))
        have hma : m.a = 0 := by omega
        have hmb : m.b = run.b := by omega
        rw [hmb]
        exact ⟨hma, hpair.2⟩
    have hmb : k ≤ m.b := by
      by_contra hless
      have hx := hbegins.front m.b (by omega)
      rw [hposition.2] at hx
      exact hzx (Option.some.inj hx)
    have hne : ∀ i j, 1 ≤ i → i < 3 → k ≤ j → [z, x, x][i]? ≠ b[j]? := by
      intro i j h1 h3 hj heq
      rw [hsecond i h1 h3] at heq
      exact hbehind j hj heq.symm
    have hsize : m.size ≤ 1 := by
      by_contra hlong
      have hpair := hextension.block.pairs 1 (by omega)
      exact hne (m.a + 1) (m.b + 1) (by omega) (by omega) (by omega) hpair
    have hzero : totalSize left = 0 := totalSize_of_empty hleft (by
      dsimp only
      omega)
    have hright : totalSize right = 0 := totalSize_of_ne hright fun i j hi hi' hj _ =>
      hne i j (by dsimp only at hi; omega) hi' (by dsimp only at hj; omega)
    rw [totalSize_split, hzero, hright]
    omega

theorem two_le_totalSize {z : α} (hbegins : BeginsWith b x k) (hk : 2 ≤ k) (hok : ok x = true)
    (h : WholeBlocks [z, x, x] b ok blocks) : 2 ≤ totalSize blocks := by
  have hlast : 1 < b.length := (List.getElem?_eq_some_iff.mp (hbegins.front 1 (by omega))).1
  have htwo : IsBlock (fun i j => anchored [z, x, x] b ok i j = true)
      ⟨0, [z, x, x].length, 0, b.length⟩ ⟨1, 0, 2⟩ := by
    refine ⟨Nat.zero_le _, le_refl _, Nat.zero_le _, by dsimp only; omega, ?_⟩
    intro l hl
    have hl : l = 0 ∨ l = 1 := by dsimp only at hl; omega
    rcases hl with rfl | rfl
    · exact anchored_iff.mpr ⟨x, rfl, hbegins.front 0 (by omega), hok⟩
    · exact anchored_iff.mpr ⟨x, rfl, hbegins.front 1 (by omega), hok⟩
  exact le_totalSize h htwo

end Gap

/-! ## The ratios agree, and where not -/

/-- Popular in the port alone: one more than a hundredth, which is rounded down. -/
def OnlyPortPopular (autoJunk : Bool) (b : List α) (x : α) : Prop :=
  autoJunk = true ∧ 200 ≤ b.length ∧ b.length % 100 < 50 ∧ b.count x = b.length / 100 + 1

/-- The port and CPython take the same elements for popular, but for those. -/
theorem anchors_eq_or (autoJunk : Bool) (b : List α) (x : α) :
    OnlyPortPopular autoJunk b x ∧ anchors none autoJunk b x = false
        ∧ cpythonPopular autoJunk b x = false ∨ ¬ OnlyPortPopular autoJunk b x
        ∧ anchors none autoJunk b x = !cpythonPopular autoJunk b x := by
  unfold OnlyPortPopular anchors cpythonPopular
  cases autoJunk with
  | false => exact Or.inr ⟨fun h => absurd h.1 (by decide), by simp⟩
  | true =>
    by_cases hlong : 200 ≤ b.length
    · by_cases hgap : b.length % 100 < 50 ∧ b.count x = b.length / 100 + 1
      · refine Or.inl ⟨⟨rfl, hlong, hgap⟩, ?_, ?_⟩
        · have hpopular : b.length + 50 < 100 * b.count x := by omega
          simp [hlong, hpopular]
        · have hrare : ¬ b.length / 100 + 1 < b.count x := by omega
          simp [hrare]
      · refine Or.inr ⟨fun h => hgap h.2.2, ?_⟩
        have hsame : (b.length + 50 < 100 * b.count x) ↔ b.length / 100 + 1 < b.count x := by omega
        simp [hlong, hsame]
    · exact Or.inr ⟨fun h => hlong h.2.1, by simp [hlong]⟩

variable {autoJunk : Bool}

theorem cpythonRatio_of_forall (h : ∀ x ∈ b, ¬ OnlyPortPopular autoJunk b x) (a : List α) :
    CpythonRatio autoJunk a b (ratio none autoJunk a b) := by
  obtain ⟨blocks, hblocks, hratio⟩ := ratio_spec none autoJunk a b
  have hsame : ∀ ch ∈ b, anchors none autoJunk b ch = !cpythonPopular autoJunk b ch := by
    intro ch hch
    rcases anchors_eq_or autoJunk b ch with ⟨hgap, -⟩ | ⟨-, heq⟩
    · exact absurd hgap (h ch hch)
    · exact heq
  refine ⟨blocks, ?_, hratio⟩
  unfold WholeBlocks at hblocks ⊢
  rwa [longestMatch_congr hsame] at hblocks

omit [DecidableEq α] in
theorem ratioOf_inj {total other : Nat} (hlength : 0 < b.length)
    (h : ratioOf a b total = ratioOf a b other) : total = other := by
  have hpositive : a.length + b.length ≠ 0 := by omega
  have hcast : ((a.length + b.length : Nat) : Rat) ≠ 0 := Nat.cast_ne_zero.mpr hpositive
  unfold ratioOf at h
  rw [if_neg hpositive, if_neg hpositive, div_left_inj' hcast] at h
  have hdouble : (total : Rat) = other := mul_left_cancel₀ two_ne_zero h
  exact Nat.cast_injective hdouble

theorem not_cpythonRatio_of_totals (hlength : 0 < b.length) {n : Nat}
    (hport : ∀ blocks, WholeBlocks a b (anchors none autoJunk b) blocks → totalSize blocks ≤ n)
    (hcpython : ∀ blocks, WholeBlocks a b (fun ch => !cpythonPopular autoJunk b ch) blocks →
      n < totalSize blocks) : ¬ CpythonRatio autoJunk a b (ratio none autoJunk a b) := by
  rintro ⟨blocks, hblocks, hratio⟩
  obtain ⟨found, hfound, hsame⟩ := ratio_spec none autoJunk a b
  have htotal := ratioOf_inj hlength (hsame.symm.trans hratio)
  have hle := hport found hfound
  have hlt := hcpython blocks hblocks
  omega

theorem exists_beginsWith (b : List α) (x : α) :
    ∃ k ≤ b.count x, BeginsWith b x k ∧ ((∀ j, k < j → b[j]? ≠ some x) → k = b.count x) := by
  induction b with
  | nil =>
    exact ⟨0, le_refl _, ⟨fun j hj => absurd hj (Nat.not_lt_zero j), by simp⟩, fun _ => rfl⟩
  | cons first rest ih =>
    by_cases hfirst : first = x
    · subst hfirst
      obtain ⟨k, hk, ⟨hfront, hstops⟩, hall⟩ := ih
      rw [List.count_cons_self]
      refine ⟨k + 1, by omega, ⟨fun j hj => ?_, hstops⟩, fun hlater => ?_⟩
      · cases j with
        | zero => rfl
        | succ j => exact hfront j (by omega)
      · rw [hall fun j hj => hlater (j + 1) (by omega)]
    · refine ⟨0, Nat.zero_le _, ⟨fun j hj => absurd hj (Nat.not_lt_zero j), ?_⟩, fun hlater => ?_⟩
      · intro heq
        exact hfirst (Option.some.inj heq)
      · refine (List.count_eq_zero.mpr fun hmem => ?_).symm
        rcases List.mem_cons.mp hmem with heq | hrest
        · exact hfirst heq.symm
        · obtain ⟨j, hj⟩ := List.mem_iff_getElem?.mp hrest
          exact hlater (j + 1) (Nat.succ_pos j) hj

theorem OnlyPortPopular.spec {x : α} (h : OnlyPortPopular autoJunk b x) :
    anchors none autoJunk b x = false ∧ (!cpythonPopular autoJunk b x) = true := by
  rcases anchors_eq_or autoJunk b x with ⟨-, hport, hcpython⟩ | ⟨hnot, -⟩
  · exact ⟨hport, by rw [hcpython]; rfl⟩
  · exact absurd h hnot

theorem exists_not_cpythonRatio {x : α} (h : OnlyPortPopular autoJunk b x) :
    ∃ a, ¬ CpythonRatio autoJunk a b (ratio none autoJunk a b) := by
  obtain ⟨hok, hpopular⟩ := h.spec
  obtain ⟨-, hlong, -, hcount⟩ := h
  have hlength : 0 < b.length := by omega
  obtain ⟨k, hk, hbegins, hall⟩ := exists_beginsWith b x
  by_cases hlater : ∃ j, k < j ∧ b[j]? = some x
  · obtain ⟨j, hkj, hj⟩ := hlater
    exact ⟨List.replicate (k + 1) x, not_cpythonRatio_of_totals hlength
      (fun blocks hblocks => totalSize_le_of_replicate hbegins hok hblocks)
      (fun blocks hblocks => lt_totalSize_of_replicate hbegins hpopular hkj hj hblocks)⟩
  · have hnone : ∀ j, k < j → b[j]? ≠ some x := fun j hj heq => hlater ⟨j, hj, heq⟩
    have hwhole := hall hnone
    have hkb : k < b.length := by omega
    have hother : b[k] ≠ x := fun heq => hbegins.stops (by rw [List.getElem?_eq_getElem hkb, heq])
    exact ⟨[b[k], x, x], not_cpythonRatio_of_totals hlength
      (fun blocks hblocks =>
        totalSize_le_of_hidden hother hbegins hnone (by omega) hok hblocks)
      (fun blocks hblocks => two_le_totalSize hbegins (by omega) hpopular hblocks)⟩

/-- The ratio is CPython's for every first sequence exactly when no element of the second is
    popular in the port alone. -/
theorem ratio_cpython_iff (autoJunk : Bool) (b : List α) :
    (∀ a, CpythonRatio autoJunk a b (ratio none autoJunk a b))
      ↔ ∀ x ∈ b, ¬ OnlyPortPopular autoJunk b x := by
  constructor
  · intro h x _ hgap
    obtain ⟨a, hdiffer⟩ := exists_not_cpythonRatio hgap
    exact hdiffer (h a)
  · exact fun h a => cpythonRatio_of_forall h a

end Matcher

/-- Three `x` behind 197 other characters, and one `x`. -/
theorem not_cpythonRatio_three : ¬ ∀ (autoJunk : Bool) (a b : JsString),
    CpythonRatio autoJunk a b (ratio none autoJunk a b) := by
  intro hall
  obtain ⟨n, hn⟩ : ∃ n, n = 197 := ⟨_, rfl⟩
  let b : JsString := List.replicate n 0x79 ++ List.replicate 3 0x78
  have hlength : b.length = n + 3 := by
    rw [List.length_append, List.length_replicate, List.length_replicate]
  have hcount : b.count 0x78 = 3 := by
    rw [List.count_append, List.count_replicate, List.count_replicate]
    rfl
  have hbegins : BeginsWith b (0x78 : CodeUnit) 0 := by
    refine ⟨fun j hj => absurd hj (Nat.not_lt_zero j), ?_⟩
    rw [List.getElem?_append_left (by rw [List.length_replicate]; omega),
      List.getElem?_replicate, if_pos (by omega)]
    decide
  have hlater : b[n]? = some (0x78 : CodeUnit) := by
    rw [List.getElem?_append_right (by rw [List.length_replicate]), List.length_replicate,
      Nat.sub_self]
    rfl
  have hgap : OnlyPortPopular true b 0x78 := ⟨rfl, by omega, by omega, by omega⟩
  obtain ⟨hport, hcpython⟩ := hgap.spec
  exact not_cpythonRatio_of_totals (by omega)
    (fun blocks hblocks => totalSize_le_of_replicate hbegins hport hblocks)
    (fun blocks hblocks => lt_totalSize_of_replicate hbegins hcpython (by omega) hlater hblocks)
    (hall true [0x78] b)

end OpencodeSwarm
