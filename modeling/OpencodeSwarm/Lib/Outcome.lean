/-
  OpencodeSwarm.Lib.Outcome

  Computations that may fail, taken apart at their binds.
-/
import Mathlib.Data.List.Forall2
import Mathlib.Tactic.Common

namespace Outcome

variable {ε α β : Type} {f : α → Except ε β}

theorem bind_eq_ok {x : Except ε α} {b : β} : x >>= f = .ok b ↔ ∃ a, x = .ok a ∧ f a = .ok b := by
  cases x with
  | error e =>
    constructor
    · intro h
      cases h
    · rintro ⟨a, h, -⟩
      cases h
  | ok a =>
    constructor
    · intro h
      exact ⟨a, rfl, h⟩
    · rintro ⟨a', h, h'⟩
      cases h
      exact h'

variable {xs : List α}

theorem mapM_eq_ok_of_forall {f : α → Except ε α} (h : ∀ a ∈ xs, f a = .ok a) :
    xs.mapM f = .ok xs := by
  induction xs with
  | nil => rfl
  | cons a xs ih =>
    have hrest := ih fun b hb => h b (List.mem_cons_of_mem _ hb)
    rw [List.mapM_cons, h a List.mem_cons_self, hrest]
    rfl

theorem eq_of_mapM_eq_ok {f : α → Except ε α} (hf : ∀ a b, f a = .ok b → b = a) {ys : List α}
    (h : xs.mapM f = .ok ys) : ys = xs := by
  induction xs generalizing ys with
  | nil =>
    cases h
    rfl
  | cons a xs ih =>
    rw [List.mapM_cons] at h
    obtain ⟨b, hb, hrest⟩ := bind_eq_ok.mp h
    obtain ⟨bs, hbs, hys⟩ := bind_eq_ok.mp hrest
    cases hys
    rw [hf a b hb, ih hbs]

theorem mapM_eq_ok_iff {ys : List β} :
    xs.mapM f = .ok ys ↔ List.Forall₂ (fun a b => f a = .ok b) xs ys := by
  induction xs generalizing ys with
  | nil =>
    rw [List.forall₂_nil_left_iff]
    constructor
    · intro h
      cases h
      rfl
    · rintro rfl
      rfl
  | cons a xs ih =>
    rw [List.mapM_cons, List.forall₂_cons_left_iff]
    constructor
    · intro h
      obtain ⟨b, hb, hrest⟩ := bind_eq_ok.mp h
      obtain ⟨bs, hbs, hys⟩ := bind_eq_ok.mp hrest
      cases hys
      exact ⟨b, bs, hb, ih.mp hbs, rfl⟩
    · rintro ⟨b, bs, hb, hbs, rfl⟩
      rw [hb, ih.mpr hbs]
      rfl

theorem exists_mapM_eq_ok (h : ∀ a ∈ xs, ∃ b, f a = .ok b) : ∃ ys, xs.mapM f = .ok ys := by
  induction xs with
  | nil => exact ⟨[], rfl⟩
  | cons a xs ih =>
    obtain ⟨b, hb⟩ := h a List.mem_cons_self
    obtain ⟨bs, hbs⟩ := ih fun c hc => h c (List.mem_cons_of_mem _ hc)
    refine ⟨b :: bs, ?_⟩
    rw [List.mapM_cons, hb, hbs]
    rfl

end Outcome
