/-
  OpencodeSwarm.Lib.ArraySort

  `Array.prototype.sort` with a comparator, by what its documentation promises: a
  permutation, and for a comparator that is consistent on the elements the stable
  sorted order.  For any other comparator the order is up to the engine.

  A comparator answers by sign; an answer that is not a number reads as zero.
-/
import Mathlib.Data.List.Sort
import Mathlib.Order.Compare

namespace Js

/-- The comparator is consistent on the elements of a list. -/
structure Consistent {α : Type} (compare : α → α → Ordering) (xs : List α) : Prop where
  swap : ∀ a ∈ xs, ∀ b ∈ xs, compare b a = (compare a b).swap
  trans : ∀ a ∈ xs, ∀ b ∈ xs, ∀ c ∈ xs,
    compare a b ≠ .gt → compare b c ≠ .gt → compare a c ≠ .gt

/-- An engine's sort. -/
structure ArraySort where
  sort : {α : Type} → (α → α → Ordering) → List α → List α
  perm : ∀ {α : Type} (compare : α → α → Ordering) (xs : List α), (sort compare xs).Perm xs
  sorted : ∀ {α : Type} (compare : α → α → Ordering) (xs : List α), Consistent compare xs →
    (sort compare xs).Pairwise fun a b => compare a b ≠ .gt
  stable : ∀ {α : Type} (compare : α → α → Ordering) (xs : List α), Consistent compare xs →
    ∀ a b, compare a b = .eq → [a, b].Sublist xs → [a, b].Sublist (sort compare xs)

section Sorted

variable {α : Type} {compare : α → α → Ordering} {xs ys : List α}

theorem Consistent.of_perm (h : Consistent compare xs) (hperm : ys.Perm xs) :
    Consistent compare ys := by
  refine ⟨?_, ?_⟩
  · intro a ha b hb
    exact h.swap a (hperm.mem_iff.mp ha) b (hperm.mem_iff.mp hb)
  · intro a ha b hb c hc
    exact h.trans a (hperm.mem_iff.mp ha) b (hperm.mem_iff.mp hb) c (hperm.mem_iff.mp hc)

theorem ArraySort.eq_of_perm (engine : ArraySort) (hperm : xs.Perm ys)
    (h : Consistent compare xs) (hapart : ∀ a ∈ xs, ∀ b ∈ xs, compare a b = .eq → a = b) :
    engine.sort compare xs = engine.sort compare ys := by
  have hys : Consistent compare ys := h.of_perm hperm.symm
  have hboth : (engine.sort compare xs).Perm (engine.sort compare ys) :=
    (engine.perm compare xs).trans (hperm.trans (engine.perm compare ys).symm)
  refine hboth.eq_of_pairwise ?_ (engine.sorted compare xs h) (engine.sorted compare ys hys)
  intro a b ha hb hab hba
  have ha : a ∈ xs := (engine.perm compare xs).mem_iff.mp ha
  have hb : b ∈ xs := hperm.mem_iff.mpr ((engine.perm compare ys).mem_iff.mp hb)
  refine hapart a ha b hb ?_
  rw [h.swap a ha b hb] at hba
  cases horder : compare a b with
  | lt =>
    rw [horder] at hba
    exact absurd rfl hba
  | eq => rfl
  | gt => exact absurd horder hab

/-! ## An engine -/

/-- Elements known to be in the list, in the order of the comparator. -/
def memberLe (compare : α → α → Ordering) (xs : List α) (a b : {x // x ∈ xs}) : Bool :=
  compare a b != .gt

open Classical in
/-- Merge sort for a consistent comparator; any other one leaves the list alone. -/
noncomputable def mergeOrKeep (compare : α → α → Ordering) (xs : List α) : List α :=
  if Consistent compare xs then (xs.attach.mergeSort (memberLe compare xs)).map Subtype.val else xs

theorem mergeOrKeep_perm (compare : α → α → Ordering) (xs : List α) :
    (mergeOrKeep compare xs).Perm xs := by
  unfold mergeOrKeep
  split
  · have hperm := (List.mergeSort_perm xs.attach (memberLe compare xs)).map Subtype.val
    rwa [List.attach_map_subtype_val] at hperm
  · exact List.Perm.refl xs

theorem memberLe_trans (h : Consistent compare xs) (a b c : {x // x ∈ xs})
    (hab : memberLe compare xs a b = true) (hbc : memberLe compare xs b c = true) :
    memberLe compare xs a c = true := by
  unfold memberLe at *
  rw [bne_iff_ne] at *
  exact h.trans a a.2 b b.2 c c.2 hab hbc

theorem memberLe_total (h : Consistent compare xs) (a b : {x // x ∈ xs}) :
    (memberLe compare xs a b || memberLe compare xs b a) = true := by
  unfold memberLe
  rw [Bool.or_eq_true, bne_iff_ne, bne_iff_ne, h.swap a a.2 b b.2]
  cases compare a.1 b.1
  · exact Or.inl (by decide)
  · exact Or.inl (by decide)
  · exact Or.inr (by decide)

theorem mergeOrKeep_sorted (h : Consistent compare xs) :
    (mergeOrKeep compare xs).Pairwise fun a b => compare a b ≠ .gt := by
  rw [mergeOrKeep, if_pos h, List.pairwise_map]
  refine (List.pairwise_mergeSort (memberLe_trans h) (memberLe_total h) xs.attach).imp ?_
  intro a b hle
  exact bne_iff_ne.mp hle

theorem mergeOrKeep_stable (h : Consistent compare xs) {a b : α} (htie : compare a b = .eq)
    (hsub : [a, b].Sublist xs) : [a, b].Sublist (mergeOrKeep compare xs) := by
  have ha : a ∈ xs := hsub.subset List.mem_cons_self
  have hb : b ∈ xs := hsub.subset (List.mem_cons_of_mem _ List.mem_cons_self)
  have hattach : [(⟨a, ha⟩ : {x // x ∈ xs}), ⟨b, hb⟩].Sublist xs.attach := by
    rw [← List.attach_map_subtype_val xs] at hsub
    obtain ⟨members, hmembers, heq⟩ := List.sublist_map_iff.mp hsub
    obtain ⟨first, rest, rfl, rfl, hrest⟩ := List.map_eq_cons_iff.mp heq.symm
    obtain ⟨second, rfl, rfl⟩ := List.map_eq_singleton_iff.mp hrest
    exact hmembers
  have hle : memberLe compare xs ⟨a, ha⟩ ⟨b, hb⟩ = true := by
    rw [memberLe, htie]
    rfl
  have hsorted := List.pair_sublist_mergeSort (memberLe_trans h) (memberLe_total h) hle hattach
  rw [mergeOrKeep, if_pos h]
  exact hsorted.map Subtype.val

/-- An engine that leaves a list alone when the comparator is not consistent. -/
noncomputable def keepingSort : ArraySort where
  sort := mergeOrKeep
  perm := mergeOrKeep_perm
  sorted _ _ h := mergeOrKeep_sorted h
  stable _ _ h _ _ htie hsub := mergeOrKeep_stable h htie hsub

/-- This engine never changes the order of two elements that compare equal. -/
theorem keepingSort_keeps {a b : α} (htie : compare a b = .eq) (hsub : [a, b].Sublist xs) :
    [a, b].Sublist (keepingSort.sort compare xs) := by
  by_cases h : Consistent compare xs
  · exact mergeOrKeep_stable h htie hsub
  · have hkeep : keepingSort.sort compare xs = xs := if_neg h
    rwa [hkeep]

end Sorted

end Js
