/-
  OpencodeSwarm.Text.LongestMatch

  What `findLongestMatch` finds: among the runs of equal elements that anchor, the
  longest, of these the one that begins first in `a`, of these the one that begins
  first in `b`; then that run with the equal elements before it and behind it.
-/
import OpencodeSwarm.Text.SequenceMatcher

namespace OpencodeSwarm

open Js

section Matcher

variable {α : Type*} [DecidableEq α]

/-! ## The index -/

/-- The positions of an element. -/
def indicesOf (b : List α) (ch : α) : List Nat :=
  (b.zipIdx.filter fun entry => entry.1 = ch).map Prod.snd

theorem indicesOf_concat (b : List α) (last ch : α) :
    indicesOf (b ++ [last]) ch = indicesOf b ch ++ (if last = ch then [b.length] else []) := by
  unfold indicesOf
  rw [List.zipIdx_append, List.filter_append, List.map_append]
  by_cases h : last = ch
  · simp [h]
  · simp [h]

theorem length_indicesOf (b : List α) (ch : α) : (indicesOf b ch).length = b.count ch := by
  induction b using List.reverseRecOn with
  | nil => rfl
  | append_singleton front last ih =>
    rw [indicesOf_concat, List.length_append, ih, List.count_append, List.count_singleton]
    by_cases h : last = ch
    · simp [h]
    · simp [h]

variable {j : Nat}

theorem mem_indicesOf {b : List α} {ch : α} : j ∈ indicesOf b ch ↔ b[j]? = some ch := by
  rw [indicesOf, List.mem_map]
  constructor
  · rintro ⟨⟨element, index⟩, hmem, rfl⟩
    obtain ⟨hentry, hch⟩ := List.mem_filter.mp hmem
    have hget := List.mem_zipIdx_iff_getElem?.mp hentry
    rw [decide_eq_true_iff] at hch
    rw [hget, hch]
  · intro h
    refine ⟨(ch, j), List.mem_filter.mpr ⟨List.mem_zipIdx_iff_getElem?.mpr h, ?_⟩, rfl⟩
    exact decide_eq_true rfl

theorem indicesOf_pairwise (b : List α) (ch : α) : (indicesOf b ch).Pairwise (· < ·) := by
  induction b using List.reverseRecOn with
  | nil => exact List.Pairwise.nil
  | append_singleton front last ih =>
    rw [indicesOf_concat]
    split
    · rw [List.pairwise_append]
      refine ⟨ih, List.pairwise_singleton _ _, ?_⟩
      intro j hj k hk
      rw [List.mem_singleton.mp hk]
      have hget := mem_indicesOf.mp hj
      exact (List.getElem?_eq_some_iff.mp hget).1
    · rwa [List.append_nil]

theorem positionsOf_concat (b : List α) (last : α) :
    positionsOf (b ++ [last]) = OrderedMap.set (positionsOf b) last
      ((OrderedMap.get? (positionsOf b) last).getD [] ++ [b.length]) := by
  unfold positionsOf
  rw [List.zipIdx_append, List.foldl_append]
  simp

theorem nodup_positionsOf (b : List α) : (positionsOf b).keys.Nodup := by
  induction b using List.reverseRecOn with
  | nil => exact List.nodup_nil
  | append_singleton front last ih =>
    rw [positionsOf_concat]
    exact OrderedMap.nodup_keys_set ih

theorem get?_positionsOf (b : List α) (ch : α) :
    OrderedMap.get? (positionsOf b) ch = if ch ∈ b then some (indicesOf b ch) else none := by
  induction b using List.reverseRecOn with
  | nil => rfl
  | append_singleton front last ih =>
    rw [positionsOf_concat, OrderedMap.get?_set, indicesOf_concat]
    by_cases hlast : ch = last
    · subst hlast
      rw [if_pos rfl, if_pos rfl, if_pos (List.mem_append_right _ (List.mem_singleton_self _)), ih]
      split
      · rfl
      rename_i hnew
      have hnone : indicesOf front ch = [] := by
        apply List.eq_nil_of_length_eq_zero
        rw [length_indicesOf, List.count_eq_zero]
        exact hnew
      rw [hnone]
      rfl
    · have hother : ¬ last = ch := fun h => hlast h.symm
      have hmem : ch ∈ front ++ [last] ↔ ch ∈ front := by simp [hlast]
      rw [if_neg hlast, ih, if_neg hother, List.append_nil]
      simp [hmem]

theorem get?_filter_entries {β : Type*} {map : OrderedMap α β} (hnodup : map.keys.Nodup)
    (keep : α × β → Bool) (key : α) :
    OrderedMap.get? (List.filter keep map) key
      = (OrderedMap.get? map key).filter fun value => keep (key, value) := by
  have hfiltered : (OrderedMap.keys (List.filter keep map)).Nodup :=
    hnodup.sublist (List.Sublist.map _ List.filter_sublist)
  cases hget : OrderedMap.get? map key with
  | none =>
    rw [OrderedMap.get?_eq_none_iff] at hget
    rw [Option.filter_none, OrderedMap.get?_eq_none_iff]
    intro hmem
    obtain ⟨entry, hentry, rfl⟩ := List.mem_map.mp hmem
    exact hget (List.mem_map_of_mem (List.mem_filter.mp hentry).1)
  | some value =>
    have hmem := OrderedMap.mem_of_get? hget
    by_cases hkeep : keep (key, value) = true
    · rw [Option.filter_some, if_pos hkeep]
      exact OrderedMap.get?_of_mem hfiltered (List.mem_filter.mpr ⟨hmem, hkeep⟩)
    · rw [Option.filter_some, if_neg hkeep, OrderedMap.get?_eq_none_iff]
      intro hkeys
      obtain ⟨⟨other, stored⟩, hentry, hother⟩ := List.mem_map.mp hkeys
      obtain ⟨hin, hpass⟩ := List.mem_filter.mp hentry
      have hsame : other = key := hother
      subst hsame
      have hstored := OrderedMap.get?_of_mem hnodup hin
      rw [hget] at hstored
      cases hstored
      exact hkeep hpass

/-- Whether a match may begin at an element. -/
def anchors (isJunk : Option (α → Bool)) (autoJunk : Bool) (b : List α) (ch : α) : Bool :=
  !(isJunk.any fun isJunk => isJunk ch)
    && !(autoJunk && 200 ≤ b.length && b.length + 50 < 100 * b.count ch)

theorem get?_chainB (isJunk : Option (α → Bool)) (autoJunk : Bool) (b : List α) (ch : α) :
    OrderedMap.get? (chainB isJunk autoJunk b) ch
      = if ch ∈ b ∧ anchors isJunk autoJunk b ch = true then some (indicesOf b ch) else none := by
  have hkept : ∀ kept : OrderedMap α (List Nat), kept.keys.Nodup → ∀ junk : Bool,
      OrderedMap.get? kept ch = (if ch ∈ b ∧ junk = false then some (indicesOf b ch) else none) →
      OrderedMap.get? (if autoJunk && 200 ≤ b.length then
          kept.filter fun entry => !isPopular b.length entry.2 else kept) ch
        = if ch ∈ b ∧ (!junk
            && !(autoJunk && 200 ≤ b.length && b.length + 50 < 100 * b.count ch)) = true then
          some (indicesOf b ch) else none := by
    intro kept hnodup junk hget
    by_cases happlies : (autoJunk && 200 ≤ b.length) = true
    · rw [if_pos happlies, get?_filter_entries hnodup, hget]
      unfold isPopular
      by_cases hin : ch ∈ b ∧ junk = false
      · rw [if_pos hin, Option.filter_some, length_indicesOf, happlies, hin.2]
        simp [hin.1]
      · rw [if_neg hin, Option.filter_none, if_neg]
        rintro ⟨hmem, hboth⟩
        rw [Bool.and_eq_true, Bool.not_eq_true'] at hboth
        exact hin ⟨hmem, hboth.1⟩
    · rw [if_neg happlies, hget]
      simp [happlies]
  cases isJunk with
  | none =>
    have hget : OrderedMap.get? (positionsOf b) ch
        = if ch ∈ b ∧ false = false then some (indicesOf b ch) else none := by
      rw [get?_positionsOf]
      simp
    exact hkept (positionsOf b) (nodup_positionsOf b) false hget
  | some isJunk =>
    have hnodup : (OrderedMap.keys ((positionsOf b).filter fun entry => !isJunk entry.1)).Nodup :=
      (nodup_positionsOf b).sublist (List.Sublist.map _ List.filter_sublist)
    have hget : OrderedMap.get? ((positionsOf b).filter fun entry => !isJunk entry.1) ch
        = if ch ∈ b ∧ isJunk ch = false then some (indicesOf b ch) else none := by
      rw [get?_filter_entries (nodup_positionsOf b), get?_positionsOf]
      by_cases hin : ch ∈ b
      · by_cases hjunk : isJunk ch = true
        · simp [hjunk]
        · simp [hjunk, hin]
      · simp [hin]
    exact hkept _ hnodup (isJunk ch) hget

/-! ## Runs -/

/-- The elements at two positions are equal, and a match may begin there. -/
def anchored (a b : List α) (ok : α → Bool) (i j : Nat) : Bool :=
  a[i]?.any fun ch => decide (b[j]? = some ch) && ok ch

variable {i : Nat}

theorem anchored_iff {a b : List α} {ok : α → Bool} :
    anchored a b ok i j = true ↔ ∃ ch, a[i]? = some ch ∧ b[j]? = some ch ∧ ok ch = true := by
  rw [anchored, Option.any_eq_true]
  constructor
  · rintro ⟨ch, ha, hch⟩
    rw [Bool.and_eq_true, decide_eq_true_iff] at hch
    exact ⟨ch, ha, hch⟩
  · rintro ⟨ch, ha, hb, hok⟩
    refine ⟨ch, ha, ?_⟩
    rw [Bool.and_eq_true, decide_eq_true_iff]
    exact ⟨hb, hok⟩

/-- The length of the run of anchored pairs that ends in front of `(i, j)`. -/
def runEnding (a b : List α) (ok : α → Bool) (alo blo : Nat) : Nat → Nat → Nat
  | i + 1, j + 1 =>
    if alo ≤ i ∧ blo ≤ j ∧ anchored a b ok i j = true then
      runEnding a b ok alo blo i j + 1
    else 0
  | _, _ => 0

variable {blo : Nat} {alo : Nat}

theorem le_runEnding_iff {a b : List α} {ok : α → Bool} (n i j : Nat) :
    n + 1 ≤ runEnding a b ok alo blo i j ↔ alo + n + 1 ≤ i ∧ blo + n + 1 ≤ j
      ∧ ∀ k ≤ n, anchored a b ok (i - 1 - k) (j - 1 - k) = true := by
  induction n generalizing i j with
  | zero =>
    cases i with
    | zero =>
      unfold runEnding
      constructor
      · omega
      · omega
    | succ i =>
      cases j with
      | zero =>
        unfold runEnding
        constructor
        · omega
        · omega
      | succ j =>
        unfold runEnding
        split
        · next h =>
          refine ⟨fun _ => ⟨by omega, by omega, ?_⟩, fun _ => by omega⟩
          intro k hk
          have hzero : k = 0 := by omega
          subst hzero
          exact h.2.2
        · next h =>
          refine ⟨fun hle => absurd hle (by omega), ?_⟩
          rintro ⟨ha, hb, hrun⟩
          exact absurd ⟨by omega, by omega, hrun 0 (le_refl 0)⟩ h
  | succ n ih =>
    cases i with
    | zero =>
      unfold runEnding
      constructor
      · omega
      · omega
    | succ i =>
      cases j with
      | zero =>
        unfold runEnding
        constructor
        · omega
        · omega
      | succ j =>
        unfold runEnding
        split
        · next h =>
          rw [Nat.add_le_add_iff_right, ih]
          constructor
          · rintro ⟨ha, hb, hrun⟩
            refine ⟨by omega, by omega, ?_⟩
            intro k hk
            cases k with
            | zero => exact h.2.2
            | succ k =>
              have hpair := hrun k (by omega)
              have hi : i + 1 - 1 - (k + 1) = i - 1 - k := by omega
              have hj : j + 1 - 1 - (k + 1) = j - 1 - k := by omega
              rw [hi, hj]
              exact hpair
          · rintro ⟨ha, hb, hrun⟩
            refine ⟨by omega, by omega, ?_⟩
            intro k hk
            have hpair := hrun (k + 1) (by omega)
            have hi : i + 1 - 1 - (k + 1) = i - 1 - k := by omega
            have hj : j + 1 - 1 - (k + 1) = j - 1 - k := by omega
            rw [hi, hj] at hpair
            exact hpair
        · next h =>
          refine ⟨fun hle => absurd hle (by omega), ?_⟩
          rintro ⟨ha, hb, hrun⟩
          exact absurd ⟨by omega, by omega, hrun 0 (by omega)⟩ h

/-! ## The best run -/

/-- Of the runs that end at pairs that are done, `best` is the longest, and of the longest the
    one that ends first; without any it is `origin`. -/
structure BestOf (run : Nat → Nat → Nat) (origin : Match) (done : Nat → Nat → Prop)
    (best : Match) : Prop where
  most : ∀ i j, done i j → run i j ≤ best.size
  found : best = origin ∧ origin.size = 0
    ∨ ∃ i j, done i j ∧ 0 < run i j ∧ best = ⟨i + 1 - run i j, j + 1 - run i j, run i j⟩
      ∧ ∀ i' j', done i' j' → run i' j' = run i j → i < i' ∨ i = i' ∧ j ≤ j'

section Best

variable {run : Nat → Nat → Nat} {origin best : Match} {done more : Nat → Nat → Prop}

theorem BestOf.extend (h : BestOf run origin done best) (hdone : ∀ i j, done i j → more i j)
    (hmore : ∀ i j, more i j → done i j ∨ run i j = 0) : BestOf run origin more best where
  most := by
    intro i j hij
    rcases hmore i j hij with hold | hzero
    · exact h.most i j hold
    · omega
  found := by
    rcases h.found with horigin | ⟨i, j, hij, hpositive, hbest, hfirst⟩
    · exact Or.inl horigin
    · refine Or.inr ⟨i, j, hdone i j hij, hpositive, hbest, ?_⟩
      intro i' j' hmore' hrun
      rcases hmore i' j' hmore' with hold | hzero
      · exact hfirst i' j' hold hrun
      · omega

theorem BestOf.next (h : BestOf run origin done best) {i j : Nat}
    (hlast : ∀ i' j', done i' j' → i' < i ∨ i' = i ∧ j' < j)
    (hmore : ∀ i' j', more i' j' ↔ done i' j' ∨ i' = i ∧ j' = j) :
    BestOf run origin more
      (if best.size < run i j then ⟨i + 1 - run i j, j + 1 - run i j, run i j⟩ else best) := by
  have hhere : more i j := (hmore i j).mpr (Or.inr ⟨rfl, rfl⟩)
  split
  · next hlonger =>
    constructor
    · intro i' j' hmore'
      show run i' j' ≤ run i j
      rcases (hmore i' j').mp hmore' with hold | ⟨rfl, rfl⟩
      · have hle := h.most i' j' hold
        omega
      · exact le_refl _
    · refine Or.inr ⟨i, j, hhere, by omega, rfl, ?_⟩
      intro i' j' hmore' hrun
      rcases (hmore i' j').mp hmore' with hold | ⟨rfl, rfl⟩
      · have hle := h.most i' j' hold
        omega
      · exact Or.inr ⟨rfl, le_refl _⟩
  · next hnot =>
    constructor
    · intro i' j' hmore'
      rcases (hmore i' j').mp hmore' with hold | ⟨rfl, rfl⟩
      · exact h.most i' j' hold
      · omega
    · rcases h.found with horigin | ⟨i₀, j₀, hdone, hpositive, hbest, hfirst⟩
      · exact Or.inl horigin
      refine Or.inr ⟨i₀, j₀, (hmore i₀ j₀).mpr (Or.inl hdone), hpositive, hbest, ?_⟩
      intro i' j' hmore' hrun
      rcases (hmore i' j').mp hmore' with hold | ⟨rfl, rfl⟩
      · exact hfirst i' j' hold hrun
      · have hbefore := hlast i₀ j₀ hdone
        omega

end Best

/-! ## A row -/

/-- The pairs of the ranges before `(i, j)`, row by row. -/
def Before (alo blo bhi i j i' j' : Nat) : Prop :=
  alo ≤ i' ∧ blo ≤ j' ∧ j' < bhi ∧ (i' < i ∨ i' = i ∧ j' < j)

variable {bhi : Nat}

theorem BestOf.skip {run : Nat → Nat → Nat} {origin best : Match} {j' : Nat}
    (h : BestOf run origin (Before alo blo bhi i j) best) (hle : j ≤ j')
    (hnone : ∀ k, j ≤ k → k < j' → blo ≤ k → k < bhi → run i k = 0) :
    BestOf run origin (Before alo blo bhi i j') best := by
  refine h.extend ?_ ?_
  · rintro i' k ⟨ha, hb, hlt, hbefore⟩
    exact ⟨ha, hb, hlt, by omega⟩
  · rintro i' k ⟨ha, hb, hlt, hbefore⟩
    by_cases hold : i' < i ∨ i' = i ∧ k < j
    · exact Or.inl ⟨ha, hb, hlt, hold⟩
    · have hrow : i' = i := by omega
      rw [hrow]
      exact Or.inr (hnone k (by omega) (by omega) hb hlt)

theorem BestOf.endRow {run : Nat → Nat → Nat} {origin best : Match}
    (h : BestOf run origin (Before alo blo bhi i j) best)
    (hnone : ∀ k, j ≤ k → blo ≤ k → k < bhi → run i k = 0) :
    BestOf run origin (Before alo blo bhi (i + 1) 0) best := by
  have hrow := h.skip (le_max_left j bhi) fun k hk _ => hnone k hk
  refine hrow.extend ?_ ?_
  · rintro i' k ⟨ha, hb, hlt, hbefore⟩
    exact ⟨ha, hb, hlt, by omega⟩
  · rintro i' k ⟨ha, hb, hlt, hbefore⟩
    exact Or.inl ⟨ha, hb, hlt, by omega⟩

variable {positions : List Nat} {j2len : OrderedMap Nat Nat}

theorem get?_scanPositions (hsorted : positions.Pairwise (· < ·)) (scan : Scan) (j : Nat) :
    OrderedMap.get? (scanPositions i blo bhi j2len positions scan).j2len j
      = if j ∈ positions ∧ blo ≤ j ∧ j < bhi then some (runBefore j2len j + 1)
        else OrderedMap.get? scan.j2len j := by
  induction positions generalizing scan with
  | nil => rfl
  | cons first rest ih =>
    obtain ⟨hfirst, hrest⟩ := List.pairwise_cons.mp hsorted
    unfold scanPositions
    by_cases hleft : first < blo
    · rw [if_pos hleft, ih hrest]
      have hsame : (j ∈ first :: rest ∧ blo ≤ j ∧ j < bhi) ↔ (j ∈ rest ∧ blo ≤ j ∧ j < bhi) := by
        rw [List.mem_cons]
        constructor
        · rintro ⟨hj | hj, hbounds⟩
          · omega
          · exact ⟨hj, hbounds⟩
        · exact fun h => ⟨Or.inr h.1, h.2⟩
      simp only [hsame]
    · rw [if_neg hleft]
      by_cases hright : bhi ≤ first
      · rw [if_pos hright, if_neg]
        rintro ⟨hj, -, hlt⟩
        rcases List.mem_cons.mp hj with rfl | hj
        · omega
        · have hless := hfirst j hj
          omega
      · rw [if_neg hright]
        rw [ih hrest]
        by_cases hj : j ∈ rest ∧ blo ≤ j ∧ j < bhi
        · rw [if_pos hj, if_pos ⟨List.mem_cons_of_mem _ hj.1, hj.2⟩]
        rw [if_neg hj, OrderedMap.get?_set]
        by_cases heq : j = first
        · subst heq
          rw [if_pos rfl, if_pos ⟨List.mem_cons_self, by omega, by omega⟩]
        · rw [if_neg heq, if_neg]
          rintro ⟨hmem, hbounds⟩
          rcases List.mem_cons.mp hmem with h | h
          · exact heq h
          · exact hj ⟨h, hbounds⟩

variable {scan : Scan}

theorem best_scanPositions {run : Nat → Nat → Nat} {origin : Match} (halo : alo ≤ i)
    (hsorted : positions.Pairwise (· < ·))
    (hsize : ∀ j ∈ positions, blo ≤ j → j < bhi → runBefore j2len j + 1 = run i j) {bound : Nat}
    (hbound : ∀ j ∈ positions, bound ≤ j)
    (hrest : ∀ j, bound ≤ j → blo ≤ j → j < bhi → j ∉ positions → run i j = 0)
    (h : BestOf run origin (Before alo blo bhi i bound) scan.best) :
    BestOf run origin (Before alo blo bhi (i + 1) 0)
      (scanPositions i blo bhi j2len positions scan).best := by
  induction positions generalizing bound scan with
  | nil =>
    exact h.endRow fun j hj hb hlt => hrest j hj hb hlt List.not_mem_nil
  | cons first rest ih =>
    obtain ⟨hfirst, hsortedRest⟩ := List.pairwise_cons.mp hsorted
    have hsizeRest : ∀ j ∈ rest, blo ≤ j → j < bhi → runBefore j2len j + 1 = run i j :=
      fun j hj => hsize j (List.mem_cons_of_mem _ hj)
    have hle := hbound first List.mem_cons_self
    unfold scanPositions
    by_cases hleft : first < blo
    · rw [if_pos hleft]
      refine ih hsortedRest hsizeRest (fun j hj => hbound j (List.mem_cons_of_mem _ hj)) ?_ h
      intro j hj hb hlt hmem
      refine hrest j hj hb hlt fun hcons => ?_
      rcases List.mem_cons.mp hcons with rfl | hin
      · omega
      · exact hmem hin
    · rw [if_neg hleft]
      by_cases hright : bhi ≤ first
      · rw [if_pos hright]
        -- what is left of the row lies behind the range
        refine h.endRow fun j hj hb hlt => hrest j hj hb hlt fun hmem => ?_
        rcases List.mem_cons.mp hmem with rfl | hin
        · omega
        · have hless := hfirst j hin
          omega
      · rw [if_neg hright]
        have hrun := hsize first List.mem_cons_self (by omega) (by omega)
        rw [hrun]
        -- the pairs in front of `first` end no run
        have hfront : BestOf run origin (Before alo blo bhi i first) scan.best := by
          refine h.skip hle fun k hk hlt hb hhi => hrest k hk hb hhi fun hmem => ?_
          rcases List.mem_cons.mp hmem with rfl | hin
          · omega
          · have hless := hfirst k hin
            omega
        have hnext := @BestOf.next run origin scan.best (Before alo blo bhi i first)
          (Before alo blo bhi i (first + 1)) hfront i first (fun i' j' hdone => hdone.2.2.2) (by
            unfold Before
            omega)
        refine ih hsortedRest hsizeRest (fun j hj => hfirst j hj) ?_ hnext
        intro j hj hb hlt hmem
        refine hrest j (by omega) hb hlt fun hcons => ?_
        rcases List.mem_cons.mp hcons with rfl | hin
        · omega
        · exact hmem hin

/-! ## The whole scan -/

/-- An index of `b` by the elements that anchor. -/
def Indexes (b2j : OrderedMap α (List Nat)) (b : List α) (ok : α → Bool) : Prop :=
  ∀ ch, OrderedMap.get? b2j ch = if ch ∈ b ∧ ok ch = true then some (indicesOf b ch) else none

/-- The run that ends with a pair. -/
def runAt (a b : List α) (ok : α → Bool) (alo blo i j : Nat) : Nat :=
  runEnding a b ok alo blo (i + 1) (j + 1)

/-- What the rows leave behind before row `i`. -/
structure RowScanInvariant (a b : List α) (ok : α → Bool) (r : Ranges) (i : Nat) (scan : Scan) :
    Prop where
  runs : ∀ j, r.blo ≤ j → j < r.bhi → runBefore scan.j2len j = runEnding a b ok r.alo r.blo i j
  best : BestOf (runAt a b ok r.alo r.blo) ⟨r.alo, r.blo, 0⟩
    (Before r.alo r.blo r.bhi i 0) scan.best

variable {a b : List α} {ok : α → Bool} {r : Ranges} {b2j : OrderedMap α (List Nat)}

theorem runAt_eq (i j : Nat) : runAt a b ok r.alo r.blo i j
    = if r.alo ≤ i ∧ r.blo ≤ j ∧ anchored a b ok i j = true then
        runEnding a b ok r.alo r.blo i j + 1 else 0 := rfl

theorem anchored_of_get?_eq_none (hindex : Indexes b2j b ok)
    (h : a[i]?.bind (OrderedMap.get? b2j) = none) (j : Nat) : anchored a b ok i j = false := by
  rw [Bool.eq_false_iff]
  intro hanchored
  obtain ⟨ch, ha, hb, hok⟩ := anchored_iff.mp hanchored
  rw [ha, Option.bind_some, hindex ch, if_pos ⟨List.mem_of_getElem? hb, hok⟩] at h
  cases h

theorem anchored_iff_mem (hindex : Indexes b2j b ok)
    (h : a[i]?.bind (OrderedMap.get? b2j) = some positions) :
    positions.Pairwise (· < ·) ∧ ∀ j, anchored a b ok i j = true ↔ j ∈ positions := by
  obtain ⟨ch, ha, hget⟩ := Option.bind_eq_some_iff.mp h
  rw [hindex ch] at hget
  split at hget
  · next hch =>
    cases hget
    refine ⟨indicesOf_pairwise b ch, fun j => ?_⟩
    rw [anchored_iff, mem_indicesOf]
    constructor
    · rintro ⟨other, hother, hb, -⟩
      rw [ha] at hother
      cases hother
      exact hb
    · intro hb
      exact ⟨ch, ha, hb, hch.2⟩
  · cases hget

theorem scanRow_invariant (hindex : Indexes b2j b ok) (hi : r.alo ≤ i)
    (h : RowScanInvariant a b ok r i scan) :
    RowScanInvariant a b ok r (i + 1) (scanRow b2j a r.blo r.bhi scan i) := by
  unfold scanRow
  cases hget : a[i]?.bind (OrderedMap.get? b2j) with
  | none =>
    have hno := anchored_of_get?_eq_none hindex hget
    constructor
    · intro j hb hlt
      cases j with
      | zero => rfl
      | succ j =>
        show 0 = runAt a b ok r.alo r.blo i j
        rw [runAt_eq, if_neg]
        rintro ⟨-, -, hanchored⟩
        rw [hno j] at hanchored
        cases hanchored
    · refine h.best.endRow fun k _ _ _ => ?_
      rw [runAt_eq, if_neg]
      rintro ⟨-, -, hanchored⟩
      rw [hno k] at hanchored
      cases hanchored
  | some positions =>
    obtain ⟨hsorted, hmem⟩ := anchored_iff_mem hindex hget
    constructor
    · intro j hb hlt
      cases j with
      | zero => rfl
      | succ j =>
        show (OrderedMap.get? _ j).getD 0 = runAt a b ok r.alo r.blo i j
        rw [get?_scanPositions hsorted, runAt_eq]
        by_cases hin : j ∈ positions ∧ r.blo ≤ j ∧ j < r.bhi
        · rw [if_pos hin, if_pos ⟨hi, hin.2.1, (hmem j).mpr hin.1⟩, h.runs j hin.2.1 hin.2.2]
          rfl
        · rw [if_neg hin, if_neg]
          · rfl
          · rintro ⟨-, hblo, hanchored⟩
            exact hin ⟨(hmem j).mp hanchored, hblo, by omega⟩
    · refine best_scanPositions hi hsorted ?_ (fun _ _ => Nat.zero_le _) ?_ h.best
      · intro j hj hb hlt
        rw [runAt_eq, if_pos ⟨hi, hb, (hmem j).mpr hj⟩, h.runs j hb hlt]
      · intro j _ _ _ hj
        rw [runAt_eq, if_neg]
        rintro ⟨-, -, hanchored⟩
        exact hj ((hmem j).mp hanchored)

theorem scan_invariant (hindex : Indexes b2j b ok) (count : Nat) :
    RowScanInvariant a b ok r (r.alo + count)
      ((List.range' r.alo count).foldl (scanRow b2j a r.blo r.bhi) ⟨[], ⟨r.alo, r.blo, 0⟩⟩) := by
  induction count with
  | zero =>
    constructor
    · intro j hb hlt
      have hnone : runEnding a b ok r.alo r.blo (r.alo + 0) j = 0 := by
        by_contra hpositive
        have hle := (le_runEnding_iff 0 (r.alo + 0) j).mp (Nat.pos_of_ne_zero hpositive)
        omega
      rw [hnone]
      cases j with
      | zero => rfl
      | succ j => rfl
    · constructor
      · rintro i j ⟨ha, -, -, hbefore⟩
        omega
      · exact Or.inl ⟨rfl, rfl⟩
  | succ count ih =>
    rw [List.range'_1_concat, List.foldl_concat]
    exact scanRow_invariant hindex (Nat.le_add_right _ _) ih

/-! ## The longest run and its extension -/

/-- A block of pairs inside the ranges. -/
structure IsBlock (pair : Nat → Nat → Prop) (r : Ranges) (m : Match) : Prop where
  alo_le : r.alo ≤ m.a
  le_ahi : m.a + m.size ≤ r.ahi
  blo_le : r.blo ≤ m.b
  le_bhi : m.b + m.size ≤ r.bhi
  pairs : ∀ k < m.size, pair (m.a + k) (m.b + k)

/-- Of maximal size, then of minimal `a`, then of minimal `b`; empty at the origin if there is
    no pair. -/
structure IsLongestRun (pair : Nat → Nat → Prop) (r : Ranges) (m : Match) : Prop where
  block : IsBlock pair r m
  origin : m.size = 0 → m = ⟨r.alo, r.blo, 0⟩
  longest : ∀ other, IsBlock pair r other → 0 < other.size →
    other.size < m.size ∨ other.size = m.size ∧ (m.a < other.a ∨ m.a = other.a ∧ m.b ≤ other.b)

variable {m : Match}

theorem isLongestRun_of_best (halo : r.alo ≤ r.ahi) (hblo : r.blo ≤ r.bhi)
    (h : BestOf (runAt a b ok r.alo r.blo) ⟨r.alo, r.blo, 0⟩ (Before r.alo r.blo r.bhi r.ahi 0) m) :
    IsLongestRun (fun i j => anchored a b ok i j = true) r m := by
  -- a block is a run that ends with its last pair
  have hrun : ∀ other, IsBlock (fun i j => anchored a b ok i j = true) r other → 0 < other.size →
      ∃ i j, Before r.alo r.blo r.bhi r.ahi 0 i j ∧ other.a + other.size = i + 1
        ∧ other.b + other.size = j + 1 ∧ other.size ≤ runAt a b ok r.alo r.blo i j := by
    intro other hblock hpositive
    obtain ⟨n, hn⟩ : ∃ n, other.size = n + 1 := ⟨other.size - 1, by omega⟩
    have h1 := hblock.alo_le
    have h2 := hblock.le_ahi
    have h3 := hblock.blo_le
    have h4 := hblock.le_bhi
    refine ⟨other.a + n, other.b + n, ⟨by omega, by omega, by omega, by omega⟩, by omega,
      by omega, ?_⟩
    rw [hn]
    refine (le_runEnding_iff n _ _).mpr ⟨by omega, by omega, fun k hk => ?_⟩
    have hpair := hblock.pairs (n - k) (by omega)
    have hi : other.a + n + 1 - 1 - k = other.a + (n - k) := by omega
    have hj : other.b + n + 1 - 1 - k = other.b + (n - k) := by omega
    rw [hi, hj]
    exact hpair
  rcases h.found with ⟨horigin, -⟩ | ⟨i, j, hdone, hpositive, hbest, hfirst⟩
  · refine ⟨?_, fun _ => horigin, fun other hblock hpositive => ?_⟩
    · rw [horigin]
      exact ⟨le_refl _, halo, le_refl _, hblo, fun k hk => absurd hk (Nat.not_lt_zero k)⟩
    · obtain ⟨i, j, hdone, -, -, hle⟩ := hrun other hblock hpositive
      have hnone : runAt a b ok r.alo r.blo i j ≤ 0 := by
        have hmost := h.most i j hdone
        rwa [horigin] at hmost
      omega
  · let n := runAt a b ok r.alo r.blo i j - 1
    have hn : runAt a b ok r.alo r.blo i j = n + 1 := by omega
    obtain ⟨hi, hj, hpairs⟩ := (le_runEnding_iff n (i + 1) (j + 1)).mp hn.ge
    rw [hn] at hbest
    subst hbest
    obtain ⟨ha, hb, hlt, hrow⟩ := hdone
    refine ⟨⟨?_, ?_, ?_, ?_, ?_⟩, fun hzero => absurd hzero (Nat.succ_ne_zero n), ?_⟩
    · show r.alo ≤ i + 1 - (n + 1)
      omega
    · show i + 1 - (n + 1) + (n + 1) ≤ r.ahi
      omega
    · show r.blo ≤ j + 1 - (n + 1)
      omega
    · show j + 1 - (n + 1) + (n + 1) ≤ r.bhi
      omega
    · intro k hk
      have hk : k < n + 1 := hk
      have hpair := hpairs (n - k) (by omega)
      have hi' : i + 1 - 1 - (n - k) = i + 1 - (n + 1) + k := by omega
      have hj' : j + 1 - 1 - (n - k) = j + 1 - (n + 1) + k := by omega
      rw [hi', hj'] at hpair
      exact hpair
    · intro other hblock hother
      obtain ⟨i', j', hdone', hend, hend', hle⟩ := hrun other hblock hother
      have hmost : runAt a b ok r.alo r.blo i' j' ≤ n + 1 := h.most i' j' hdone'
      show other.size < n + 1 ∨ other.size = n + 1
        ∧ (i + 1 - (n + 1) < other.a ∨ i + 1 - (n + 1) = other.a ∧ j + 1 - (n + 1) ≤ other.b)
      by_cases hless : other.size < n + 1
      · exact Or.inl hless
      · have hlex := hfirst i' j' hdone' (by omega)
        omega

/-- A block with the equal elements in front of it and behind it. -/
structure IsExtension (a b : List α) (r : Ranges) (m extended : Match) : Prop where
  block : IsBlock (fun i j => a[i]? = b[j]?) r extended
  grown : ∃ back forward, extended.a + back = m.a ∧ extended.b + back = m.b
    ∧ extended.size = back + m.size + forward
  stopsBack : ¬ (r.alo < extended.a ∧ r.blo < extended.b
    ∧ a[extended.a - 1]? = b[extended.b - 1]?)
  stopsForward : ¬ (extended.a + extended.size < r.ahi ∧ extended.b + extended.size < r.bhi
    ∧ a[extended.a + extended.size]? = b[extended.b + extended.size]?)

/-! ## The two loops of the extension -/

theorem extendBack_spec (a b : List α) (alo blo i j size : Nat) :
    ∃ n, n ≤ i ∧ n ≤ j ∧ extendBack a b alo blo i j size = ⟨i - n, j - n, size + n⟩
      ∧ (n = 0 ∨ alo ≤ i - n ∧ blo ≤ j - n) ∧ (∀ k < n, a[i - n + k]? = b[j - n + k]?)
      ∧ ¬ (alo < i - n ∧ blo < j - n ∧ a[i - n - 1]? = b[j - n - 1]?) := by
  induction i generalizing j size with
  | zero =>
    refine ⟨0, le_refl _, Nat.zero_le _, ?_, Or.inl rfl, fun k hk => absurd hk (Nat.not_lt_zero k),
      by omega⟩
    rfl
  | succ i ih =>
    cases j with
    | zero =>
      refine ⟨0, Nat.zero_le _, le_refl _, ?_, Or.inl rfl,
        fun k hk => absurd hk (Nat.not_lt_zero k), by omega⟩
      rfl
    | succ j =>
      unfold extendBack
      split
      · next hstep =>
        obtain ⟨n, hi, hj, heq, hbounds, hpairs, hstops⟩ := ih j (size + 1)
        have hdi : i + 1 - (n + 1) = i - n := by omega
        have hdj : j + 1 - (n + 1) = j - n := by omega
        refine ⟨n + 1, by omega, by omega, ?_, Or.inr ⟨by omega, by omega⟩, ?_, ?_⟩
        · rw [heq, hdi, hdj]
          congr 1
          omega
        · intro k hk
          rw [hdi, hdj]
          by_cases hlast : k = n
          · have hei : i - n + k = i := by omega
            have hej : j - n + k = j := by omega
            rw [hei, hej]
            exact hstep.2.2
          · exact hpairs k (by omega)
        · rw [hdi, hdj]
          exact hstops
      · next hstop =>
        exact ⟨0, Nat.zero_le _, Nat.zero_le _, rfl, Or.inl rfl,
          fun k hk => absurd hk (Nat.not_lt_zero k), hstop⟩

theorem extendForward_spec (a b : List α) (ahi bhi left : Nat) (m : Match)
    (hleft : ahi ≤ m.a + m.size + left) :
    ∃ n, extendForward a b ahi bhi left m = { m with size := m.size + n }
      ∧ (n = 0 ∨ m.a + m.size + n ≤ ahi ∧ m.b + m.size + n ≤ bhi)
      ∧ (∀ k < n, a[m.a + m.size + k]? = b[m.b + m.size + k]?)
      ∧ ¬ (m.a + m.size + n < ahi ∧ m.b + m.size + n < bhi
        ∧ a[m.a + m.size + n]? = b[m.b + m.size + n]?) := by
  induction left generalizing m with
  | zero =>
    refine ⟨0, rfl, Or.inl rfl, fun k hk => absurd hk (Nat.not_lt_zero k), ?_⟩
    omega
  | succ left ih =>
    unfold extendForward
    split
    · next hstep =>
      obtain ⟨n, heq, hbounds, hpairs, hstops⟩ := ih { m with size := m.size + 1 }
        (show ahi ≤ m.a + (m.size + 1) + left by omega)
      dsimp only at heq hbounds hpairs hstops
      have ha : ∀ k, m.a + (m.size + 1) + k = m.a + m.size + (k + 1) := fun k => by omega
      have hb : ∀ k, m.b + (m.size + 1) + k = m.b + m.size + (k + 1) := fun k => by omega
      simp only [ha, hb] at hbounds hpairs hstops
      refine ⟨n + 1, ?_, ?_, ?_, hstops⟩
      · rw [heq, Nat.add_assoc, Nat.add_comm 1 n]
      · rcases hbounds with rfl | hbounds
        · exact Or.inr ⟨by omega, by omega⟩
        · exact Or.inr hbounds
      · intro k hk
        cases k with
        | zero => exact hstep.2.2
        | succ k => exact hpairs k (by omega)
    · next hstop =>
      exact ⟨0, rfl, Or.inl rfl, fun k hk => absurd hk (Nat.not_lt_zero k), hstop⟩

theorem isExtension_of_loops (hm : IsBlock (fun i j => a[i]? = b[j]?) r m) :
    let extended := extendBack a b r.alo r.blo m.a m.b m.size
    IsExtension a b r m
      (extendForward a b r.ahi r.bhi (r.ahi - (extended.a + extended.size)) extended) := by
  intro extended
  obtain ⟨back, hbackA, hbackB, hback, hbackBounds, hbackPairs, hbackStops⟩ :=
    extendBack_spec a b r.alo r.blo m.a m.b m.size
  have hextended : extended = ⟨m.a - back, m.b - back, m.size + back⟩ := hback
  obtain ⟨n, hforward, hbounds, hpairs, hstops⟩ :=
    extendForward_spec a b r.ahi r.bhi (r.ahi - (extended.a + extended.size)) extended (by omega)
  rw [hforward]
  rw [hextended] at hbounds hpairs hstops ⊢
  dsimp only at hbounds hpairs hstops ⊢
  have h1 := hm.alo_le
  have h2 := hm.le_ahi
  have h3 := hm.blo_le
  have h4 := hm.le_bhi
  have hendA : m.a - back + (m.size + back) = m.a + m.size := by omega
  have hendB : m.b - back + (m.size + back) = m.b + m.size := by omega
  rw [hendA, hendB] at hbounds hpairs hstops
  refine ⟨⟨?_, ?_, ?_, ?_, ?_⟩, ⟨back, n, ?_, ?_, ?_⟩, hbackStops, ?_⟩
  · show r.alo ≤ m.a - back
    omega
  · show m.a - back + (m.size + back + n) ≤ r.ahi
    omega
  · show r.blo ≤ m.b - back
    omega
  · show m.b - back + (m.size + back + n) ≤ r.bhi
    omega
  · intro k hk
    have hk : k < m.size + back + n := hk
    show a[m.a - back + k]? = b[m.b - back + k]?
    by_cases hfront : k < back
    · exact hbackPairs k hfront
    by_cases hmiddle : k < back + m.size
    · have hpair := hm.pairs (k - back) (by omega)
      have hi : m.a + (k - back) = m.a - back + k := by omega
      have hj : m.b + (k - back) = m.b - back + k := by omega
      rwa [hi, hj] at hpair
    · have hpair := hpairs (k - back - m.size) (by omega)
      have hi : m.a + m.size + (k - back - m.size) = m.a - back + k := by omega
      have hj : m.b + m.size + (k - back - m.size) = m.b - back + k := by omega
      rwa [hi, hj] at hpair
  · show m.a - back + back = m.a
    omega
  · show m.b - back + back = m.b
    omega
  · show m.size + back + n = back + m.size + n
    omega
  · show ¬ (m.a - back + (m.size + back + n) < r.ahi ∧ m.b - back + (m.size + back + n) < r.bhi
      ∧ a[m.a - back + (m.size + back + n)]? = b[m.b - back + (m.size + back + n)]?)
    have hi : m.a - back + (m.size + back + n) = m.a + m.size + n := by omega
    have hj : m.b - back + (m.size + back + n) = m.b + m.size + n := by omega
    rw [hi, hj]
    exact hstops

theorem findLongestMatch_spec (hindex : Indexes b2j b ok) (halo : r.alo ≤ r.ahi)
    (hblo : r.blo ≤ r.bhi) :
    ∃ m, IsLongestRun (fun i j => anchored a b ok i j = true) r m
      ∧ IsExtension a b r m (findLongestMatch b2j a b r) := by
  have hscan := @scan_invariant α _ a b ok r b2j hindex (r.ahi - r.alo)
  have hend : r.alo + (r.ahi - r.alo) = r.ahi := by omega
  rw [hend] at hscan
  have hlongest := isLongestRun_of_best halo hblo hscan.best
  refine ⟨_, hlongest, isExtension_of_loops ?_⟩
  refine ⟨hlongest.block.alo_le, hlongest.block.le_ahi, hlongest.block.blo_le,
    hlongest.block.le_bhi, fun k hk => ?_⟩
  obtain ⟨ch, ha, hb, -⟩ := anchored_iff.mp (hlongest.block.pairs k hk)
  rw [ha, hb]

theorem indexes_chainB (isJunk : Option (α → Bool)) (autoJunk : Bool) (b : List α) :
    Indexes (chainB isJunk autoJunk b) b (anchors isJunk autoJunk b) :=
  get?_chainB isJunk autoJunk b

end Matcher

end OpencodeSwarm
