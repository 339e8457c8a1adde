/-
  OpencodeSwarm.Lib.CommonSubsequence

  The length of a longest common subsequence of two lists, and how it grows when
  each list gets one more element at its end.
-/
import Mathlib.Data.List.Basic

namespace CommonSubsequence

variable {α : Type*}

/-- `n` is the length of a longest common subsequence. -/
structure IsLongest (xs ys : List α) (n : Nat) : Prop where
  reached : ∃ common : List α, common.Sublist xs ∧ common.Sublist ys ∧ common.length = n
  bound : ∀ common : List α, common.Sublist xs → common.Sublist ys → common.length ≤ n

variable {xs ys : List α} {n : Nat}

theorem IsLongest.unique {m : Nat} (hn : IsLongest xs ys n) (hm : IsLongest xs ys m) : n = m := by
  obtain ⟨common, hxs, hys, rfl⟩ := hn.reached
  obtain ⟨other, hxs', hys', rfl⟩ := hm.reached
  exact Nat.le_antisymm (hm.bound common hxs hys) (hn.bound other hxs' hys')

theorem isLongest_nil_left (ys : List α) : IsLongest [] ys 0 := by
  refine ⟨⟨[], List.Sublist.refl [], List.nil_sublist ys, rfl⟩, fun common hxs _ => ?_⟩
  exact hxs.length_le

theorem isLongest_nil_right (xs : List α) : IsLongest xs [] 0 := by
  refine ⟨⟨[], List.nil_sublist xs, List.Sublist.refl [], rfl⟩, fun common _ hys => ?_⟩
  exact hys.length_le

/-- A subsequence of a longer list ends with its last element or is one without it. -/
theorem sublist_concat_cases {common : List α} {a : α} (h : common.Sublist (xs ++ [a])) :
    common.Sublist xs ∨ ∃ front, common = front ++ [a] ∧ front.Sublist xs := by
  obtain ⟨front, last, rfl, hfront, hlast⟩ := List.sublist_append_iff.mp h
  rcases List.sublist_cons_iff.mp hlast with hnil | ⟨more, rfl, hmore⟩
  · rw [List.sublist_nil.mp hnil, List.append_nil]
    exact Or.inl hfront
  · rw [List.sublist_nil.mp hmore]
    exact Or.inr ⟨front, rfl, hfront⟩

theorem IsLongest.concat_same (h : IsLongest xs ys n) (a : α) :
    IsLongest (xs ++ [a]) (ys ++ [a]) (n + 1) := by
  obtain ⟨common, hxs, hys, hlength⟩ := h.reached
  constructor
  · refine ⟨common ++ [a], hxs.append (List.Sublist.refl [a]), hys.append (List.Sublist.refl [a]), ?_⟩
    rw [List.length_append, List.length_singleton, hlength]
  · intro other hother hother'
    have hfront : ∀ {front : List α}, front.Sublist xs → front.Sublist ys →
        (front ++ [a]).length ≤ n + 1 := by
      intro front hfrontXs hfrontYs
      rw [List.length_append, List.length_singleton]
      exact Nat.succ_le_succ (h.bound front hfrontXs hfrontYs)
    have hwithout : ∀ {front zs : List α}, (front ++ [a]).Sublist zs → front.Sublist zs :=
      fun hsub => (List.sublist_append_left _ [a]).trans hsub
    rcases sublist_concat_cases hother with hin | ⟨front, rfl, hin⟩
    · rcases sublist_concat_cases hother' with hin' | ⟨front, rfl, hin'⟩
      · exact Nat.le_trans (h.bound other hin hin') (Nat.le_succ n)
      · exact hfront (hwithout hin) hin'
    · rcases sublist_concat_cases hother' with hin' | ⟨front', heq, hin'⟩
      · exact hfront hin (hwithout hin')
      · obtain rfl := List.append_cancel_right heq
        exact hfront hin hin'

theorem IsLongest.concat_other {a b : α} {up left : Nat} (hne : a ≠ b)
    (hup : IsLongest xs (ys ++ [b]) up) (hleft : IsLongest (xs ++ [a]) ys left) :
    IsLongest (xs ++ [a]) (ys ++ [b]) (max up left) := by
  constructor
  · rcases Nat.le_total up left with hle | hle
    · obtain ⟨common, hxs, hys, hlength⟩ := hleft.reached
      refine ⟨common, hxs, hys.trans (List.sublist_append_left ys [b]), ?_⟩
      rw [hlength, Nat.max_eq_right hle]
    · obtain ⟨common, hxs, hys, hlength⟩ := hup.reached
      refine ⟨common, hxs.trans (List.sublist_append_left xs [a]), hys, ?_⟩
      rw [hlength, Nat.max_eq_left hle]
  · intro other hother hother'
    rcases sublist_concat_cases hother with hin | ⟨front, rfl, hin⟩
    · exact Nat.le_trans (hup.bound other hin hother') (Nat.le_max_left up left)
    · rcases sublist_concat_cases hother' with hin' | ⟨front', heq, hin'⟩
      · exact Nat.le_trans (hleft.bound _ hother hin') (Nat.le_max_right up left)
      · exact absurd (List.append_inj_right' heq rfl) (by simpa using hne)

end CommonSubsequence
