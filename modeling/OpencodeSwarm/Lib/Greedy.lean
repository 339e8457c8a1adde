/-
  OpencodeSwarm.Lib.Greedy

  Greedy selection: the members of a list are taken in its order, and one is kept
  when it is admissible next to those kept before it.
-/
import Mathlib.Data.List.Basic
import Mathlib.Data.List.Induction
import Mathlib.Tactic.Common

namespace Greedy

variable {α : Type*} (admits : List α → α → Bool)

/-- One member. -/
def step (kept : List α) (a : α) : List α := if admits kept a then kept ++ [a] else kept

/-- The members that are kept. -/
def keep (order : List α) : List α := order.foldl (step admits) []

theorem keep_concat (front : List α) (a : α) :
    keep admits (front ++ [a])
      = if admits (keep admits front) a then keep admits front ++ [a] else keep admits front := by
  rw [keep, List.foldl_concat]
  rfl

theorem keep_prefix (front back : List α) : keep admits front <+: keep admits (front ++ back) := by
  induction back using List.reverseRecOn with
  | nil => simp
  | append_singleton back a ih =>
    rw [← List.append_assoc, keep_concat]
    split
    · exact ih.trans (List.prefix_append _ _)
    · exact ih

theorem keep_sublist (order : List α) : (keep admits order).Sublist order := by
  induction order using List.reverseRecOn with
  | nil => exact List.Sublist.refl _
  | append_singleton order a ih =>
    rw [keep_concat]
    split
    · exact ih.append (List.Sublist.refl _)
    · exact ih.trans (List.sublist_append_left _ _)

/-- A relation that every admission establishes holds between any two kept members. -/
theorem pairwise_keep {R : α → α → Prop}
    (h : ∀ kept a, admits kept a = true → ∀ b ∈ kept, R b a) (order : List α) :
    (keep admits order).Pairwise R := by
  induction order using List.reverseRecOn with
  | nil => exact List.Pairwise.nil
  | append_singleton order a ih =>
    rw [keep_concat]
    split
    · next hadmits =>
      refine List.pairwise_append.mpr ⟨ih, List.pairwise_singleton _ _, fun b hb other hother => ?_⟩
      rw [List.mem_singleton.mp hother]
      exact h _ _ hadmits b hb
    · exact ih

variable {a : α} {order : List α}

/-- Every kept member was admitted next to the kept ones before it. -/
theorem exists_split_of_keep {front' back' : List α}
    (h : keep admits order = front' ++ a :: back') :
    ∃ front back, order = front ++ a :: back ∧ keep admits front = front'
      ∧ admits front' a = true := by
  induction order using List.reverseRecOn generalizing back' with
  | nil => exact absurd h.symm (List.append_ne_nil_of_right_ne_nil _ (List.cons_ne_nil _ _))
  | append_singleton order last ih =>
    have hearlier : ∀ {rest}, keep admits order = front' ++ a :: rest →
        ∃ front back, order ++ [last] = front ++ a :: back ∧ keep admits front = front'
          ∧ admits front' a = true := by
      intro rest hrest
      obtain ⟨front, back, rfl, hfront, hadmits⟩ := ih hrest
      exact ⟨front, back ++ [last], by simp, hfront, hadmits⟩
    rw [keep_concat] at h
    split at h
    · next hadmits =>
      rcases List.eq_nil_or_concat back' with rfl | ⟨rest, final, rfl⟩
      · obtain ⟨hfront, hlast⟩ := List.append_inj' h rfl
        cases hlast
        exact ⟨order, [], rfl, hfront, hfront ▸ hadmits⟩
      · rw [List.concat_eq_append, ← List.cons_append, ← List.append_assoc] at h
        exact hearlier (List.append_inj' h rfl).1
    · exact hearlier h

variable {front back : List α}

theorem keep_of_admits (h : admits (keep admits front) a = true) :
    ∃ back', keep admits (front ++ a :: back) = keep admits front ++ a :: back' := by
  have hstep : keep admits (front ++ [a]) = keep admits front ++ [a] := by
    rw [keep_concat, if_pos h]
  obtain ⟨back', hback⟩ := keep_prefix admits (front ++ [a]) back
  rw [hstep, List.append_assoc, List.append_assoc, List.singleton_append] at hback
  exact ⟨back', hback.symm⟩

/-! ## Selections that ask for more -/

/-- Along the order, what is admitted next to the members of `selection` also has
    what it needs among them. -/
def Satisfied (needs : List α → α → Bool) (selection : List α → List α) (order : List α) : Prop :=
  ∀ front a back, order = front ++ a :: back → admits (selection front) a = true →
    needs (selection front) a = true

variable {admits} {needs : List α → α → Bool}

theorem satisfied_keep_iff (order : List α) :
    Satisfied admits needs (keep admits) order
      ↔ ∀ front a back, keep admits order = front ++ a :: back → needs front a = true := by
  constructor
  · intro h front' a back' hsplit
    obtain ⟨front, back, horder, rfl, hadmits⟩ := exists_split_of_keep admits hsplit
    exact h front a back horder hadmits
  · rintro h front a back rfl hadmits
    obtain ⟨back', hback⟩ := keep_of_admits admits hadmits
    exact h _ a back' hback

/-- Two selections that admit the same along one of them keep the same. -/
theorem keep_eq_of_agree (admits' : List α → α → Bool)
    (h : ∀ front a back, order = front ++ a :: back →
      admits' (keep admits front) a = admits (keep admits front) a) (hsplit : order = front ++ back) :
    keep admits' front = keep admits front := by
  induction front using List.reverseRecOn generalizing back with
  | nil => rfl
  | append_singleton front a ih =>
    rw [List.append_assoc, List.singleton_append] at hsplit
    rw [keep_concat, keep_concat, ih hsplit, h front a back hsplit]

theorem and_needs_eq {kept : List α} (h : admits kept a = true → needs kept a = true) :
    (admits kept a && needs kept a) = admits kept a := by
  cases hadmits : admits kept a with
  | false => exact Bool.false_and _
  | true => rw [h hadmits, Bool.and_self]

/-- Needs are met along the selection that ignores them exactly when they are met
    along the one that asks for them. -/
theorem satisfied_iff (order : List α) :
    Satisfied admits needs (keep admits) order
      ↔ Satisfied admits needs (keep fun kept a => admits kept a && needs kept a) order := by
  constructor
  · intro h front a back hsplit
    have hsame := keep_eq_of_agree (fun kept a => admits kept a && needs kept a)
      (fun front a back hsplit => and_needs_eq (h front a back hsplit)) hsplit
    rw [hsame]
    exact h front a back hsplit
  · intro h front a back hsplit
    have hsame := keep_eq_of_agree admits
      (fun front a back hsplit => (and_needs_eq (h front a back hsplit)).symm) hsplit
    rw [hsame]
    exact h front a back hsplit

end Greedy
