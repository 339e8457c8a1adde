/-
  OpencodeSwarm.Lib.SqlRows

  Rows of a SQL table: the order of the `BINARY` collation, and
  `DELETE … WHERE rowid IN (SELECT rowid … WHERE p ORDER BY key LIMIT n)`.

  What such a delete leaves of the rows it chooses among is as many as there were
  less `n`, each of them not before any of those deleted.
-/
import Mathlib.Data.List.Lex
import OpencodeSwarm.Lib.JsString

namespace Js

/-! ## Text -/

/-- The UTF-8 encoding of one code point. -/
def utf8CodePoint (c : Nat) : List Nat :=
  if c < 0x80 then [c]
  else if c < 0x800 then [0xC0 + c / 0x40, 0x80 + c % 0x40]
  else if c < 0x10000 then [0xE0 + c / 0x1000, 0x80 + c / 0x40 % 0x40, 0x80 + c % 0x40]
  else [0xF0 + c / 0x40000, 0x80 + c / 0x1000 % 0x40, 0x80 + c / 0x40 % 0x40, 0x80 + c % 0x40]

/-- A lone surrogate is encoded as U+FFFD. -/
def utf8Unit (c : CodeUnit) : List Nat :=
  if 0xD800 ≤ c ∧ c ≤ 0xDFFF then utf8CodePoint 0xFFFD else utf8CodePoint c.toNat

/-- The bytes of a text, which the `BINARY` collation compares. -/
def utf8 : JsString → List Nat
  | [] => []
  | [c] => utf8Unit c
  | c :: d :: rest =>
    if 0xD800 ≤ c ∧ c ≤ 0xDBFF ∧ 0xDC00 ≤ d ∧ d ≤ 0xDFFF then
      utf8CodePoint (0x10000 + (c.toNat - 0xD800) * 0x400 + (d.toNat - 0xDC00)) ++ utf8 rest
    else utf8Unit c ++ utf8 (d :: rest)

end Js

namespace Sql

variable {α ι κ : Type*}

/-! ## Rowids -/

/-- The rowid of a new row: one more than the largest. -/
def nextRowid (rowid : α → Nat) (rows : List α) : Nat :=
  rows.foldr (fun row n => max (rowid row) n) 0 + 1

variable {row : α}

theorem lt_nextRowid {rowid : α → Nat} {rows : List α} (h : row ∈ rows) :
    rowid row < nextRowid rowid rows := by
  unfold nextRowid
  induction rows with
  | nil => cases h
  | cons first rows ih =>
    rw [List.foldr_cons]
    rcases List.mem_cons.mp h with rfl | h
    · omega
    · have hrest := ih h
      omega

theorem nodup_append_nextRowid {rowid : α → Nat} {rows : List α} (h : (rows.map rowid).Nodup)
    (hrow : rowid row = nextRowid rowid rows) : ((rows ++ [row]).map rowid).Nodup := by
  rw [List.map_append, List.map_singleton, List.nodup_append']
  refine ⟨h, List.nodup_singleton _, ?_⟩
  intro id hid hnew
  obtain ⟨old, hold, rfl⟩ := List.mem_map.mp hid
  rw [List.mem_singleton, hrow] at hnew
  exact Nat.ne_of_lt (lt_nextRowid hold) hnew

/-! ## Deleting the first rows -/

variable [DecidableEq ι] [LinearOrder κ]

/-- The first `n` rows with `p`, in the order of the key. -/
def firstRows (key : α → κ) (p : α → Bool) (n : Nat) (rows : List α) : List α :=
  ((rows.filter p).insertionSort fun a b => key a ≤ key b).take n

/-- Deleting them by rowid. -/
def deleteFirst (rowid : α → ι) (key : α → κ) (p : α → Bool) (n : Nat) (rows : List α) : List α :=
  rows.filter fun row => rowid row ∉ (firstRows key p n rows).map rowid

variable {rowid : α → ι} {key : α → κ} {p : α → Bool} {n : Nat} {rows : List α}

theorem deleteFirst_sublist : (deleteFirst rowid key p n rows).Sublist rows :=
  List.filter_sublist

theorem mem_of_mem_deleteFirst (h : row ∈ deleteFirst rowid key p n rows) : row ∈ rows :=
  deleteFirst_sublist.subset h

theorem mem_of_mem_firstRows (h : row ∈ firstRows key p n rows) : row ∈ rows ∧ p row = true := by
  have hsorted := List.mem_of_mem_take h
  rw [(List.perm_insertionSort _ _).mem_iff] at hsorted
  exact List.mem_filter.mp hsorted

theorem mem_deleteFirst (hnodup : (rows.map rowid).Nodup) :
    row ∈ deleteFirst rowid key p n rows ↔ row ∈ rows ∧ row ∉ firstRows key p n rows := by
  rw [deleteFirst, List.mem_filter, decide_eq_true_eq]
  refine and_congr_right fun hrow => not_congr ?_
  constructor
  · intro hmap
    obtain ⟨other, hother, hid⟩ := List.mem_map.mp hmap
    rwa [← List.inj_on_of_nodup_map hnodup (mem_of_mem_firstRows hother).1 hrow hid]
  · exact fun hmem => List.mem_map_of_mem hmem

theorem mem_deleteFirst_of_not (hnodup : (rows.map rowid).Nodup) (hrow : row ∈ rows)
    (hp : p row = false) : row ∈ deleteFirst rowid key p n rows := by
  rw [mem_deleteFirst hnodup]
  refine ⟨hrow, fun hfirst => ?_⟩
  rw [(mem_of_mem_firstRows hfirst).2] at hp
  cases hp

private theorem sorted_firstRows :
    ((rows.filter p).insertionSort fun a b => key a ≤ key b).Pairwise fun a b => key a ≤ key b := by
  exact List.pairwise_insertionSort _ _

theorem key_le_of_deleted (hnodup : (rows.map rowid).Nodup) {gone kept : α} (hgone : gone ∈ rows)
    (hdeleted : gone ∉ deleteFirst rowid key p n rows)
    (hkept : kept ∈ deleteFirst rowid key p n rows) (hp : p kept = true) :
    p gone = true ∧ key gone ≤ key kept := by
  rw [mem_deleteFirst hnodup, not_and, not_not] at hdeleted
  rw [mem_deleteFirst hnodup] at hkept
  have hfirst := hdeleted hgone
  refine ⟨(mem_of_mem_firstRows hfirst).2, ?_⟩
  have hsorted := @sorted_firstRows _ _ _ key p rows
  rw [← List.take_append_drop n (List.insertionSort _ _), List.pairwise_append] at hsorted
  refine hsorted.2.2 gone hfirst kept ?_
  have hmem : kept ∈ (rows.filter p).insertionSort fun a b => key a ≤ key b := by
    rw [(List.perm_insertionSort _ _).mem_iff]
    exact List.mem_filter.mpr ⟨hkept.1, hp⟩
  rw [← List.take_append_drop n (List.insertionSort _ _), List.mem_append] at hmem
  exact hmem.resolve_left hkept.2

theorem length_filter_deleteFirst (hnodup : (rows.map rowid).Nodup) :
    ((deleteFirst rowid key p n rows).filter p).length = (rows.filter p).length - n := by
  have hsame : (deleteFirst rowid key p n rows).filter p
      = (rows.filter p).filter fun row => rowid row ∉ (firstRows key p n rows).map rowid := by
    rw [deleteFirst, List.filter_filter, List.filter_filter]
    exact List.filter_congr fun row _ => Bool.and_comm _ _
  have hperm := List.perm_insertionSort (fun a b : α => key a ≤ key b) (rows.filter p)
  have hsorted : (((rows.filter p).insertionSort fun a b => key a ≤ key b).map rowid).Nodup :=
    (hperm.map rowid).nodup_iff.mpr (hnodup.sublist (List.filter_sublist.map rowid))
  rw [hsame, ← (hperm.filter _).length_eq, ← hperm.length_eq]
  unfold firstRows
  generalize (rows.filter p).insertionSort (fun a b => key a ≤ key b) = sorted at hsorted ⊢
  rw [← List.take_append_drop n sorted, List.map_append, List.nodup_append'] at hsorted
  have hcut : sorted.filter (fun row => rowid row ∉ (sorted.take n).map rowid) = sorted.drop n := by
    conv_lhs => rw [← List.take_append_drop n sorted]
    rw [List.filter_append, List.take_append_drop, List.filter_eq_nil_iff.mpr,
      List.filter_eq_self.mpr, List.nil_append]
    · intro row hrow
      rw [decide_eq_true_eq]
      exact fun hmap => hsorted.2.2 hmap (List.mem_map_of_mem hrow)
    · intro row hrow
      rw [decide_eq_true_eq, not_not]
      exact List.mem_map_of_mem hrow
  rw [hcut, List.length_drop]

/-- Where `bound` rows with `p` may stay, as many others are not before one that
    goes. -/
theorem bound_le_newer (hnodup : (rows.map rowid).Nodup) {bound : Int}
    (hn : ((rows.filter p).length : Int) - bound ≤ n)
    (hn' : (n : Int) ≤ (rows.filter p).length - bound)
    {gone : α} (hgone : gone ∈ rows) (hdeleted : gone ∉ deleteFirst rowid key p n rows) :
    bound ≤ ((rows.filter fun row =>
      p row && (decide (key gone ≤ key row) && decide (rowid row ≠ rowid gone))).length : Int) := by
  have hstay : ((deleteFirst rowid key p n rows).filter p).Sublist (rows.filter fun row =>
      p row && (decide (key gone ≤ key row) && decide (rowid row ≠ rowid gone))) := by
    have hnewer : (deleteFirst rowid key p n rows).filter p
        = (deleteFirst rowid key p n rows).filter fun row =>
          p row && (decide (key gone ≤ key row) && decide (rowid row ≠ rowid gone)) := by
      refine List.filter_congr fun kept hkept => ?_
      cases hp : p kept with
      | false => rfl
      | true =>
        have hage := (key_le_of_deleted hnodup hgone hdeleted hkept hp).2
        have hother : rowid kept ≠ rowid gone := by
          intro hsame
          rw [List.inj_on_of_nodup_map hnodup (mem_of_mem_deleteFirst hkept) hgone hsame] at hkept
          exact hdeleted hkept
        rw [Bool.true_and, decide_eq_true hage, decide_eq_true hother]
        rfl
    rw [hnewer]
    exact deleteFirst_sublist.filter _
  have hcount := @length_filter_deleteFirst _ _ _ _ _ rowid key p n rows hnodup
  have hle := hstay.length_le
  omega

theorem perm_kept_append_gone [DecidableEq α] {kept : List α} (hsub : kept.Sublist rows)
    (hnodup : rows.Nodup) : (kept ++ rows.filter (· ∉ kept)).Perm rows := by
  have hkept : kept.Perm (rows.filter (· ∈ kept)) := by
    rw [List.perm_ext_iff_of_nodup (hnodup.sublist hsub) (hnodup.sublist List.filter_sublist)]
    intro row
    rw [List.mem_filter, decide_eq_true_eq]
    exact ⟨fun h => ⟨hsub.subset h, h⟩, fun h => h.2⟩
  have hgone : rows.filter (· ∉ kept) = rows.filter (fun row => !decide (row ∈ kept)) :=
    List.filter_congr fun row _ => decide_not
  rw [hgone]
  exact (hkept.append_right _).trans (List.filter_append_perm _ rows)

end Sql
