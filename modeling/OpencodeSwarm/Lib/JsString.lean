/-
  OpencodeSwarm.Lib.JsString

  JavaScript strings as the runtime has them: finite sequences of 16-bit code
  units, lone surrogates included.  `length`, equality and the default order of
  `Array.prototype.sort` are all defined on code units, so `List` supplies the
  first two and this file supplies the order and the sort.
-/
import Mathlib.Data.List.Sort
import Mathlib.Data.List.Perm.Basic

namespace Js

/-! ## Code units -/

/-- One UTF-16 code unit. -/
abbrev CodeUnit := UInt16

/-- A JavaScript string.  Unlike `String` it may hold lone surrogates. -/
abbrev JsString := List CodeUnit

instance : LawfulBEq JsString := List.instLawfulBEq

/-- The UTF-16 encoding of one Unicode scalar value. -/
def encodeChar (c : Char) : JsString :=
  if c.toNat < 0x10000 then [UInt16.ofNat c.toNat]
  else [UInt16.ofNat (0xD800 + (c.toNat - 0x10000) / 0x400),
        UInt16.ofNat (0xDC00 + (c.toNat - 0x10000) % 0x400)]

/-- A string literal of the source. -/
def js (s : String) : JsString := s.toList.flatMap encodeChar

/-- An optional string as a condition sees it: the empty string is falsy. -/
def truthyString (s : Option JsString) : Option JsString := s.filter fun s => !s.isEmpty

/-- `WhiteSpace` and `LineTerminator`, which `trim` and `\s` go by. -/
def isSpace (c : CodeUnit) : Bool :=
  (0x9 ≤ c && c ≤ 0xD) || c == 0x20 || c == 0xA0 || c == 0x1680 || (0x2000 ≤ c && c ≤ 0x200A)
    || c == 0x2028 || c == 0x2029 || c == 0x202F || c == 0x205F || c == 0x3000 || c == 0xFEFF

/-- `s.trim().length === 0`. -/
def isBlank (s : JsString) : Bool := s.all isSpace

def trim (s : JsString) : JsString :=
  ((s.dropWhile isSpace).reverse.dropWhile isSpace).reverse

/-- `s.endsWith(ending)`. -/
def endsWith (s ending : JsString) : Bool := ending.isSuffixOf s

/-- `s.includes(part)`. -/
def includes (s part : JsString) : Bool := s.tails.any part.isPrefixOf

/-- `Buffer.byteLength(s, 'utf8')`; a lone surrogate is encoded as U+FFFD. -/
def utf8Length : JsString → Nat
  | [] => 0
  | [c] => unitLength c
  | c :: d :: rest =>
    if 0xD800 ≤ c ∧ c ≤ 0xDBFF ∧ 0xDC00 ≤ d ∧ d ≤ 0xDFFF then 4 + utf8Length rest
    else unitLength c + utf8Length (d :: rest)
where
  unitLength (c : CodeUnit) : Nat := if c < 0x80 then 1 else if c < 0x800 then 2 else 3

/-! ## The order of `Array.prototype.sort` -/

/-- `a <= b` in code-unit order, the order of the relational operators on
    strings. -/
def codeUnitLe : JsString → JsString → Bool
  | [], _ => true
  | _ :: _, [] => false
  | a :: as, b :: bs => a < b || (a == b && codeUnitLe as bs)

theorem codeUnitLe_total (s t : JsString) :
    codeUnitLe s t = true ∨ codeUnitLe t s = true := by
  induction s generalizing t with
  | nil => exact Or.inl rfl
  | cons a as ih =>
    cases t with
    | nil => exact Or.inr rfl
    | cons b bs =>
      simp only [codeUnitLe, Bool.or_eq_true, decide_eq_true_eq, Bool.and_eq_true, beq_iff_eq]
      rcases Nat.lt_trichotomy a.toNat b.toNat with h | h | h
      · exact Or.inl (Or.inl (UInt16.lt_iff_toNat_lt.mpr h))
      · obtain rfl : a = b := UInt16.toNat_inj.mp h
        rcases ih bs with h' | h'
        · exact Or.inl (Or.inr ⟨rfl, h'⟩)
        · exact Or.inr (Or.inr ⟨rfl, h'⟩)
      · exact Or.inr (Or.inl (UInt16.lt_iff_toNat_lt.mpr h))

theorem codeUnitLe_antisymm {s t : JsString}
    (hst : codeUnitLe s t = true) (hts : codeUnitLe t s = true) : s = t := by
  induction s generalizing t with
  | nil =>
    cases t with
    | nil => rfl
    | cons b bs => simp [codeUnitLe] at hts
  | cons a as ih =>
    cases t with
    | nil => simp [codeUnitLe] at hst
    | cons b bs =>
      simp only [codeUnitLe, Bool.or_eq_true, decide_eq_true_eq, Bool.and_eq_true,
        beq_iff_eq, UInt16.lt_iff_toNat_lt] at hst hts
      rcases hst with h | ⟨rfl, h⟩
      · rcases hts with h' | ⟨rfl, -⟩ <;> omega
      · rcases hts with h' | ⟨-, h'⟩
        · omega
        · rw [ih h h']

theorem codeUnitLe_trans {s t u : JsString}
    (hst : codeUnitLe s t = true) (htu : codeUnitLe t u = true) : codeUnitLe s u = true := by
  induction s generalizing t u with
  | nil => rfl
  | cons a as ih =>
    cases t with
    | nil => simp [codeUnitLe] at hst
    | cons b bs =>
      cases u with
      | nil => simp [codeUnitLe] at htu
      | cons c cs =>
        simp only [codeUnitLe, Bool.or_eq_true, decide_eq_true_eq, Bool.and_eq_true,
          beq_iff_eq, UInt16.lt_iff_toNat_lt] at hst htu ⊢
        rcases hst with h | ⟨rfl, h⟩
        · rcases htu with h' | ⟨rfl, -⟩
          · exact Or.inl (h.trans h')
          · exact Or.inl h
        · rcases htu with h' | ⟨rfl, h'⟩
          · exact Or.inl h'
          · exact Or.inr ⟨rfl, ih h h'⟩

/-! ## Sorting -/

/-- `[...xs].sort()` for an array of strings.  The order is total and equal
    strings are indistinguishable, so every sorting algorithm gives this. -/
def sortStrings (xs : List JsString) : List JsString :=
  xs.insertionSort (fun s t => codeUnitLe s t = true)

theorem sortStrings_perm (xs : List JsString) : (sortStrings xs).Perm xs :=
  List.perm_insertionSort _ xs

theorem sortStrings_pairwise (xs : List JsString) :
    (sortStrings xs).Pairwise (fun s t => codeUnitLe s t = true) := by
  have : Std.Total (fun s t : JsString => codeUnitLe s t = true) := ⟨codeUnitLe_total⟩
  have : IsTrans JsString (fun s t => codeUnitLe s t = true) :=
    ⟨fun _ _ _ => codeUnitLe_trans⟩
  exact List.pairwise_insertionSort _ xs

theorem sortStrings_eq_iff_perm {xs ys : List JsString} :
    sortStrings xs = sortStrings ys ↔ xs.Perm ys := by
  constructor
  · intro h
    exact (sortStrings_perm xs).symm.trans (h ▸ sortStrings_perm ys)
  · intro h
    have hperm : (sortStrings xs).Perm (sortStrings ys) :=
      (sortStrings_perm xs).trans (h.trans (sortStrings_perm ys).symm)
    exact hperm.eq_of_pairwise (fun s t _ _ hst hts => codeUnitLe_antisymm hst hts)
      (sortStrings_pairwise xs) (sortStrings_pairwise ys)

/-- `[...xs].sort(compare)`.  The sort is stable, so with a consistent comparator
    every algorithm gives this. -/
def sortBy {α : Type*} (compare : α → α → Int) (xs : List α) : List α :=
  xs.insertionSort fun a b => compare a b ≤ 0

theorem sortBy_perm {α : Type*} (compare : α → α → Int) (xs : List α) :
    (sortBy compare xs).Perm xs :=
  List.perm_insertionSort _ xs

theorem pairwise_sortBy {α : Type*} {compare : α → α → Int}
    (htotal : ∀ x y, compare x y ≤ 0 ∨ compare y x ≤ 0)
    (htrans : ∀ x y z, compare x y ≤ 0 → compare y z ≤ 0 → compare x z ≤ 0) (xs : List α) :
    (sortBy compare xs).Pairwise fun x y => compare x y ≤ 0 := by
  have : Std.Total fun x y : α => compare x y ≤ 0 := ⟨htotal⟩
  have : IsTrans α fun x y => compare x y ≤ 0 := ⟨htrans⟩
  exact List.pairwise_insertionSort _ xs

end Js
