/-
  OpencodeSwarm.Lib.FirstMatch

  `modifyFirst p f xs` rewrites the first element satisfying `p`: the list form
  of `const x = xs.find(p); if (x) x.field = …`.  Its companions `find?` and
  `eraseP` come from the standard library.
-/
import Mathlib.Data.List.Basic

namespace List

variable {α β : Type*}

/-- Rewrite the first element satisfying `p`. -/
def modifyFirst (p : α → Bool) (f : α → α) : List α → List α
  | [] => []
  | a :: as => if p a then f a :: as else a :: modifyFirst p f as

theorem modifyFirst_cons (p : α → Bool) (f : α → α) (a : α) (as : List α) :
    modifyFirst p f (a :: as) = if p a then f a :: as else a :: modifyFirst p f as := rfl

variable {p : α → Bool} {f : α → α}

theorem modifyFirst_eq_self {as : List α} (h : ∀ a ∈ as, p a = true → f a = a) :
    as.modifyFirst p f = as := by
  induction as with
  | nil => rfl
  | cons a as ih =>
    rw [modifyFirst_cons]
    cases hp : p a with
    | true => rw [if_pos rfl, h a mem_cons_self hp]
    | false => rw [if_neg Bool.false_ne_true, ih fun b hb => h b (mem_cons_of_mem a hb)]

theorem map_modifyFirst_of_eq {g : α → β} (h : ∀ a, p a = true → g (f a) = g a) (as : List α) :
    (as.modifyFirst p f).map g = as.map g := by
  induction as with
  | nil => rfl
  | cons a as ih =>
    rw [modifyFirst_cons]
    cases hp : p a with
    | true => simp [h a hp]
    | false => simpa using ih

/-! ## Appending and filtering -/

theorem modifyFirst_append (p : α → Bool) (f : α → α) (as bs : List α) :
    (as ++ bs).modifyFirst p f
      = if as.any p then as.modifyFirst p f ++ bs else as ++ bs.modifyFirst p f := by
  induction as with
  | nil => rfl
  | cons a as ih =>
    rw [cons_append, modifyFirst_cons, modifyFirst_cons, ih, any_cons]
    cases hp : p a with
    | true => rfl
    | false =>
      cases as.any p <;> rfl

/-- An edit of the first matching element, seen through a flattening: editing
    the first part that has a match edits the first match of the whole. -/
theorem flatMap_modifyFirst (f : α → List β) {g : α → α} {q : β → Bool} (edit : List β → List β)
    (hnil : edit [] = [])
    (happend : ∀ xs ys, edit (xs ++ ys) = if xs.any q then edit xs ++ ys else xs ++ edit ys)
    (hg : ∀ a, f (g a) = edit (f a)) (as : List α) :
    (as.modifyFirst (fun a => (f a).any q) g).flatMap f = edit (as.flatMap f) := by
  induction as with
  | nil => exact hnil.symm
  | cons a as ih =>
    rw [modifyFirst_cons, flatMap_cons, happend]
    cases hq : (f a).any q with
    | true => simp [hg]
    | false => simp [ih]

theorem filter_modifyFirst_self (hf : ∀ a, p (f a) = p a) (as : List α) :
    (as.modifyFirst p f).filter p = (as.filter p).modifyHead f := by
  induction as with
  | nil => rfl
  | cons a as ih =>
    rw [modifyFirst_cons]
    cases hp : p a with
    | true => simp [hp, hf]
    | false => simp [hp, ih]

variable {q : α → Bool}

theorem filter_modifyFirst_of_disjoint (hpq : ∀ a, p a = true → q a = false ∧ q (f a) = false)
    (as : List α) : (as.modifyFirst p f).filter q = as.filter q := by
  induction as with
  | nil => rfl
  | cons a as ih =>
    rw [modifyFirst_cons]
    cases hp : p a with
    | true => simp [hpq a hp]
    | false => simp [filter_cons, ih]

theorem filter_eraseP_self (p : α → Bool) (as : List α) :
    (as.eraseP p).filter p = (as.filter p).tail := by
  induction as with
  | nil => rfl
  | cons a as ih =>
    cases hp : p a with
    | true => simp [hp]
    | false => simp [hp, ih]

theorem filter_eraseP_of_disjoint (hpq : ∀ a, p a = true → q a = false) (as : List α) :
    (as.eraseP p).filter q = as.filter q := by
  induction as with
  | nil => rfl
  | cons a as ih =>
    rw [eraseP_cons]
    cases hp : p a with
    | true => simp [hpq a hp]
    | false => simp [filter_cons, ih]

end List
