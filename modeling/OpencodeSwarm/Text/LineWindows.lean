/-
  OpencodeSwarm.Text.LineWindows

  Windows of lines as spans of a text.  Two windows share text exactly when they share
  a line, save for an empty line that ends one and opens the other.
-/
import OpencodeSwarm.Text.NormalizedSpans

namespace OpencodeSwarm

open Js

/-! ## Spans in order -/

/-- In a list that is in order, the pairs of positions are the pairs in order. -/
theorem pairwise_iff_of_ordered {α : Type*} {lt R : α → α → Prop} {l : List α}
    (hordered : l.Pairwise lt) (hasymm : ∀ a ∈ l, ∀ b ∈ l, lt a b → ¬ lt b a) :
    l.Pairwise R ↔ ∀ a ∈ l, ∀ b ∈ l, lt a b → R a b := by
  induction l with
  | nil => exact iff_of_true List.Pairwise.nil fun a ha => absurd ha List.not_mem_nil
  | cons first rest ih =>
    obtain ⟨hfirst, hrest⟩ := List.pairwise_cons.mp hordered
    have htail := ih hrest fun a ha b hb =>
      hasymm a (List.mem_cons_of_mem _ ha) b (List.mem_cons_of_mem _ hb)
    rw [List.pairwise_cons, htail]
    constructor
    · rintro ⟨hhead, hall⟩ a ha b hb hless
      rcases List.mem_cons.mp ha with haFirst | haRest
      · rcases List.mem_cons.mp hb with hbFirst | hbRest
        · rw [haFirst, hbFirst] at hless
          exact absurd hless (hasymm first List.mem_cons_self first List.mem_cons_self hless)
        · rw [haFirst]
          exact hhead b hbRest
      · rcases List.mem_cons.mp hb with hbFirst | hbRest
        · rw [hbFirst] at hless
          exact absurd (hfirst a haRest) (hasymm a ha first List.mem_cons_self hless)
        · exact hall a haRest b hbRest hless
    · intro hall
      exact ⟨fun b hb => hall first List.mem_cons_self b (List.mem_cons_of_mem _ hb) (hfirst b hb),
        fun a ha b hb => hall a (List.mem_cons_of_mem _ ha) b (List.mem_cons_of_mem _ hb)⟩

/-- Spans of a content, in the order of their starts. -/
structure SpansIn (content : JsString) (spans : List Span) : Prop where
  le : ∀ span ∈ spans, span.1 ≤ span.2
  stop_le : ∀ span ∈ spans, span.2 ≤ content.length
  ascending : spans.Pairwise fun a b => a.1 < b.1

/-- No two spans share a character. -/
def Separate (spans : List Span) : Prop := spans.Pairwise fun a b => a.2 ≤ b.1 ∨ b.2 ≤ a.1

section Spans

variable {content : JsString} {spans : List Span}

theorem SpansIn.pairwise_iff (h : SpansIn content spans) {R : Span → Span → Prop} :
    spans.Pairwise R ↔ ∀ a ∈ spans, ∀ b ∈ spans, a.1 < b.1 → R a b :=
  pairwise_iff_of_ordered h.ascending fun _ _ _ _ hless hmore => absurd hless (Nat.lt_asymm hmore)

/-- Spans in order are separate when each ends before the next begins. -/
theorem SpansIn.separate_iff (h : SpansIn content spans) :
    Separate spans ↔ ∀ a ∈ spans, ∀ b ∈ spans, a.1 < b.1 → a.2 ≤ b.1 := by
  rw [Separate, h.pairwise_iff]
  refine forall₂_congr fun a ha => forall₂_congr fun b hb => forall_congr' fun hless => ?_
  refine ⟨fun hor => ?_, Or.inl⟩
  rcases hor with hfirst | hsecond
  · exact hfirst
  · have hspan := h.le b hb
    omega

theorem SpansIn.nil (content : JsString) : SpansIn content [] where
  le := List.forall_mem_nil _
  stop_le := List.forall_mem_nil _
  ascending := List.Pairwise.nil

theorem separate_nil : Separate [] := List.Pairwise.nil

end Spans

/-! ## Lines -/

section Lines

variable {lines : List JsString} {i j : Nat}

theorem lineStart_succ (hi : i < lines.length) :
    lineStart lines (i + 1) = lineStart lines i + (lines[i].length + 1) := by
  rw [lineStart, ← List.take_append_getElem hi, List.map_append, List.sum_append]
  rfl

theorem lineStart_lt (hij : i < j) (hj : j ≤ lines.length) :
    lineStart lines i < lineStart lines j := by
  induction j with
  | zero => exact absurd hij (Nat.not_lt_zero i)
  | succ k ih =>
    have hstep := @lineStart_succ lines k hj
    by_cases heq : i = k
    · rw [heq]
      omega
    · omega

theorem lineStart_le (hij : i ≤ j) (hj : j ≤ lines.length) :
    lineStart lines i ≤ lineStart lines j := by
  by_cases heq : i = j
  · rw [heq]
  · exact (lineStart_lt (by omega) hj).le

theorem length_unlines (lines : List JsString) :
    (TextLines.unlines lineFeedUnit lines).length = (lines.map fun text => text.length + 1).sum := by
  rw [TextLines.unlines, List.length_flatMap]
  congr 1
  exact List.map_congr_left fun line _ => by rw [List.length_append, List.length_singleton]

theorem lineStart_linesOf (content : JsString) :
    lineStart (linesOf content) (linesOf content).length = content.length + 1 := by
  obtain ⟨lines, tail, rfl, hlines, htail⟩ := TextLines.exists_unlines lineFeedUnit content
  have hsplit : linesOf (TextLines.unlines lineFeedUnit lines ++ tail) = lines ++ [tail] :=
    TextLines.splitOn_unlines_append hlines htail
  unfold lineStart
  rw [hsplit, List.take_length, List.map_append, List.sum_append, List.length_append,
    length_unlines, List.map_singleton, List.sum_singleton, Nat.add_assoc]

theorem length_linesOf_pos (content : JsString) : 0 < (linesOf content).length :=
  List.length_pos_of_ne_nil (List.splitOn_ne_nil lineFeedUnit content)

end Lines

/-! ## Windows -/

/-- No two accepted windows share text: they share no line, or only an empty one. -/
def WindowsApart (lines : List JsString) (count : Nat) (accepts : Nat → Bool) : Prop :=
  ∀ i i', i < i' → i' < i + count → i' + count ≤ lines.length → accepts i = true →
    accepts i' = true → i' + 1 = i + count ∧ lines[i']? = some []

section Windows

variable {content : JsString} {count : Nat} {accepts : Nat → Bool}

theorem mem_windowSpans {span : Span} :
    span ∈ windowSpans (linesOf content).length (linesOf content) count content.length accepts
      ↔ ∃ i, i + count ≤ (linesOf content).length ∧ accepts i = true
        ∧ span = (lineStart (linesOf content) i, lineStart (linesOf content) (i + count) - 1) := by
  have hend : ∀ i, i + count ≤ (linesOf content).length →
      calculateLinePositions (linesOf content) i (i + count) content.length
        = (lineStart (linesOf content) i, lineStart (linesOf content) (i + count) - 1) := by
    intro i hi
    have hle := lineStart_le hi (le_refl _)
    rw [lineStart_linesOf] at hle
    rw [calculateLinePositions, Nat.min_eq_right (by omega)]
  rw [windowSpans, List.mem_map]
  constructor
  · rintro ⟨i, hi, rfl⟩
    obtain ⟨hrange, haccepts⟩ := List.mem_filter.mp hi
    have hlt := List.mem_range.mp hrange
    exact ⟨i, by omega, haccepts, hend i (by omega)⟩
  · rintro ⟨i, hi, haccepts, rfl⟩
    exact ⟨i, List.mem_filter.mpr ⟨List.mem_range.mpr (by omega), haccepts⟩, hend i hi⟩

theorem spansIn_windowSpans (hcount : 0 < count) :
    SpansIn content
    (windowSpans (linesOf content).length (linesOf content) count content.length accepts) where
  le := by
    intro span hspan
    obtain ⟨i, hi, -, rfl⟩ := mem_windowSpans.mp hspan
    have hlt := lineStart_lt (show i < i + count by omega) hi
    show lineStart (linesOf content) i ≤ lineStart (linesOf content) (i + count) - 1
    omega
  stop_le := by
    intro span hspan
    obtain ⟨i, hi, -, rfl⟩ := mem_windowSpans.mp hspan
    have hle := lineStart_le hi (le_refl _)
    rw [lineStart_linesOf] at hle
    show lineStart (linesOf content) (i + count) - 1 ≤ content.length
    omega
  ascending := by
    rw [windowSpans, List.pairwise_map]
    refine List.Pairwise.imp_of_mem ?_ (List.pairwise_lt_range.filter accepts)
    intro i i' hi hi' hless
    have hlt' := List.mem_range.mp (List.mem_filter.mp hi').1
    exact lineStart_lt hless (by omega)

/-- Windows are separate exactly when they share no line but an empty one at their ends. -/
theorem separate_windowSpans_iff (hcount : 0 < count) :
    Separate (windowSpans (linesOf content).length (linesOf content) count content.length accepts)
      ↔ WindowsApart (linesOf content) count accepts := by
  have hin := @spansIn_windowSpans content count accepts hcount
  rw [hin.separate_iff]
  constructor
  · intro hall i i' hless hshare hi' haccepts haccepts'
    have hbefore := hall _ (mem_windowSpans.mpr ⟨i, by omega, haccepts, rfl⟩) _
      (mem_windowSpans.mpr ⟨i', hi', haccepts', rfl⟩) (lineStart_lt hless (by omega))
    have hlt' : i' < (linesOf content).length := by omega
    have hline := lineStart_succ hlt'
    have hlast : i' + 1 = i + count := by
      by_contra hmore
      have hfar := lineStart_lt (show i' + 1 < i + count by omega)
        (show i + count ≤ (linesOf content).length by omega)
      omega
    refine ⟨hlast, ?_⟩
    rw [← hlast] at hbefore
    rw [List.getElem?_eq_getElem hlt']
    exact congrArg some (List.eq_nil_of_length_eq_zero (by omega))
  · rintro hapart span hspan span' hspan' hless
    obtain ⟨i, hi, haccepts, rfl⟩ := mem_windowSpans.mp hspan
    obtain ⟨i', hi', haccepts', rfl⟩ := mem_windowSpans.mp hspan'
    have horder : i < i' := by
      by_contra hnot
      have hle := lineStart_le (show i' ≤ i by omega)
        (show i ≤ (linesOf content).length by omega)
      omega
    show lineStart (linesOf content) (i + count) - 1 ≤ lineStart (linesOf content) i'
    by_cases hshare : i' < i + count
    · obtain ⟨hlast, hempty⟩ := hapart i i' horder hshare hi' haccepts haccepts'
      obtain ⟨hlt', hline⟩ := List.getElem?_eq_some_iff.mp hempty
      have hstep := lineStart_succ hlt'
      rw [hline, List.length_nil] at hstep
      rw [← hlast]
      omega
    · have hle := lineStart_le (show i + count ≤ i' by omega)
        (show i' ≤ (linesOf content).length by omega)
      omega

end Windows

end OpencodeSwarm
