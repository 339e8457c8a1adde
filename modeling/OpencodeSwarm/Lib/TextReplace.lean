/-
  OpencodeSwarm.Lib.TextReplace

  Global replacement of a fixed word, and what it leaves as it was: the words made
  of letters it does not touch, and the runs of such a letter.
-/
import Mathlib.Algebra.GroupWithZero.Nat
import Mathlib.Data.List.Infix

namespace TextReplace

variable {α : Type*} [DecidableEq α]

/-! ## Replacement -/

/-- One pass over the text; `skip` letters of the last match are still to pass. -/
def replaceFrom (pattern replacement : List α) : Nat → List α → List α
  | _, [] => []
  | skip + 1, _ :: rest => replaceFrom pattern replacement skip rest
  | 0, c :: rest =>
    if pattern.isPrefixOf (c :: rest) then
      replacement ++ replaceFrom pattern replacement (pattern.length - 1) rest
    else c :: replaceFrom pattern replacement 0 rest

/-- Every match of `pattern`, from the left, is replaced. -/
def replaceAll (pattern replacement text : List α) : List α :=
  replaceFrom pattern replacement 0 text

variable {pattern replacement : List α}

theorem replaceFrom_skip (skipped rest : List α) :
    replaceFrom pattern replacement skipped.length (skipped ++ rest)
      = replaceAll pattern replacement rest := by
  induction skipped with
  | nil => rfl
  | cons c skipped ih => exact ih

theorem replaceAll_match (hne : pattern ≠ []) (rest : List α) :
    replaceAll pattern replacement (pattern ++ rest)
      = replacement ++ replaceAll pattern replacement rest := by
  cases hpattern : pattern with
  | nil => exact absurd hpattern hne
  | cons c tail =>
    have hprefix : (c :: tail).isPrefixOf (c :: (tail ++ rest)) = true :=
      List.isPrefixOf_iff_prefix.mpr (List.prefix_append (c :: tail) rest)
    show replaceFrom _ _ 0 (c :: (tail ++ rest)) = _
    rw [replaceFrom, if_pos hprefix]
    exact congrArg (replacement ++ ·) (replaceFrom_skip tail rest)

theorem replaceAll_unit {c : α} {rest : List α} (h : ¬pattern <+: c :: rest) :
    replaceAll pattern replacement (c :: rest) = c :: replaceAll pattern replacement rest := by
  have hprefix : ¬pattern.isPrefixOf (c :: rest) = true :=
    fun hcase => h (List.isPrefixOf_iff_prefix.mp hcase)
  unfold replaceAll
  rw [replaceFrom, if_neg hprefix]

theorem replaceInduction {motive : List α → Prop} (hne : pattern ≠ []) (nil : motive [])
    (found : ∀ rest, motive rest → motive (pattern ++ rest))
    (unit : ∀ c rest, ¬pattern <+: c :: rest → motive rest → motive (c :: rest)) (text : List α) :
    motive text := by
  generalize hsize : text.length = size
  induction size using Nat.strong_induction_on generalizing text with
  | _ size ih =>
    cases text with
    | nil => exact nil
    | cons c rest =>
      by_cases hmatch : pattern <+: c :: rest
      · obtain ⟨later, hlater⟩ := hmatch
        rw [← hlater]
        refine found later (ih later.length ?_ later rfl)
        have hlength := congrArg List.length hlater
        have hpositive := List.length_pos_iff.mpr hne
        rw [List.length_append, hsize] at hlength
        omega
      · refine unit c rest hmatch (ih rest.length ?_ rest rfl)
        rw [List.length_cons] at hsize
        omega

/-! ## Words the replacement does not touch -/

/-- The word shares no letter with the other. -/
def Apart (word other : List α) : Prop := ∀ c ∈ word, c ∉ other

variable {word : List α} {other : List α}

theorem apart_of_all (h : word.all (fun c => !other.contains c) = true) : Apart word other := by
  intro c hc hother
  have hcase := List.all_eq_true.mp h c hc
  rw [List.contains_iff_mem.mpr hother] at hcase
  cases hcase

omit [DecidableEq α] in
theorem not_prefix_append_of_apart {word other rest : List α} (hword : word ≠ [])
    (hother : other ≠ []) (h : Apart word other) : ¬word <+: other ++ rest := by
  cases word with
  | nil => exact absurd rfl hword
  | cons c word =>
    cases other with
    | nil => exact absurd rfl hother
    | cons d other =>
      rintro ⟨later, heq⟩
      have hsame : c = d := (List.cons.inj heq).1
      exact h c List.mem_cons_self (hsame ▸ List.mem_cons_self)

omit [DecidableEq α] in
theorem infix_append_iff_of_apart {word other rest : List α} (hword : word ≠ [])
    (h : Apart word other) : word <:+: other ++ rest ↔ word <:+: rest := by
  induction other with
  | nil => rfl
  | cons d other ih =>
    have htail : Apart word other := fun c hc hmem => h c hc (List.mem_cons_of_mem _ hmem)
    rw [List.cons_append, List.infix_cons_iff, ih htail]
    refine or_iff_right fun hbegins => ?_
    exact not_prefix_append_of_apart hword (List.cons_ne_nil d other) h hbegins

theorem prefix_replaceAll_iff (hpattern : pattern ≠ []) (hreplacement : replacement ≠ [])
    (hin : Apart word pattern) (hout : Apart word replacement) (text : List α) :
    word <+: replaceAll pattern replacement text ↔ word <+: text := by
  induction text using replaceInduction hpattern generalizing word with
  | nil => rfl
  | found rest ih =>
    cases word with
    | nil => exact iff_of_true List.nil_prefix List.nil_prefix
    | cons c word =>
      rw [replaceAll_match hpattern]
      exact iff_of_false
        (not_prefix_append_of_apart (List.cons_ne_nil c word) hreplacement hout)
        (not_prefix_append_of_apart (List.cons_ne_nil c word) hpattern hin)
  | unit d rest hunit ih =>
    cases word with
    | nil => exact iff_of_true List.nil_prefix List.nil_prefix
    | cons c word =>
      rw [replaceAll_unit hunit, List.cons_prefix_cons, List.cons_prefix_cons]
      refine and_congr_right fun _ => ih ?_ ?_
      · exact fun e he => hin e (List.mem_cons_of_mem _ he)
      · exact fun e he => hout e (List.mem_cons_of_mem _ he)

/-- A word of untouched letters is in the text after exactly when before. -/
theorem infix_replaceAll_iff (hpattern : pattern ≠ []) (hreplacement : replacement ≠ [])
    (hword : word ≠ []) (hin : Apart word pattern) (hout : Apart word replacement) (text : List α) :
    word <:+: replaceAll pattern replacement text ↔ word <:+: text := by
  induction text using replaceInduction hpattern with
  | nil => rfl
  | found rest ih =>
    rw [replaceAll_match hpattern, infix_append_iff_of_apart hword hout,
      infix_append_iff_of_apart hword hin, ih]
  | unit d rest hunit ih =>
    have hbegins := prefix_replaceAll_iff hpattern hreplacement hin hout (d :: rest)
    rw [replaceAll_unit hunit] at hbegins ⊢
    rw [List.infix_cons_iff, List.infix_cons_iff, hbegins, ih]

/-! ## Runs of a letter -/

/-- The lengths of the maximal runs of `x`, the run in hand being `n` long. -/
def runLengths (x : α) : Nat → List α → List Nat
  | n, [] => [n]
  | n, c :: rest => if c = x then runLengths x (n + 1) rest else n :: runLengths x 0 rest

variable {x : α}

theorem runLengths_replicate (n k : Nat) (rest : List α) :
    runLengths x n (List.replicate k x ++ rest) = runLengths x (n + k) rest := by
  induction k generalizing n with
  | zero => rfl
  | succ k ih =>
    rw [List.replicate_succ, List.cons_append, runLengths, if_pos rfl, ih, Nat.add_right_comm]
    rfl

theorem runLengths_other {c : α} (h : c ≠ x) (n : Nat) (rest : List α) :
    runLengths x n (c :: rest) = n :: runLengths x 0 rest := by
  rw [runLengths, if_neg h]

variable {bad : Nat → Prop}

theorem exists_runLengths_append (hother : other ≠ []) (h : x ∉ other) (hzero : ¬bad 0) (n : Nat)
    (rest : List α) :
    (∃ r ∈ runLengths x n (other ++ rest), bad r) ↔ bad n ∨ ∃ r ∈ runLengths x 0 rest, bad r := by
  induction other generalizing n with
  | nil => exact absurd rfl hother
  | cons c other ih =>
    have hc : c ≠ x := fun heq => h (heq ▸ List.mem_cons_self)
    rw [List.cons_append, runLengths_other hc, List.exists_mem_cons_iff]
    cases other with
    | nil => rfl
    | cons d other =>
      rw [ih (List.cons_ne_nil d other) fun hmem => h (List.mem_cons_of_mem _ hmem)]
      exact or_congr_right (or_iff_right hzero)

/-- Runs of a letter that neither word has are the same before and after. -/
theorem exists_runLengths_replaceAll (hpattern : pattern ≠ []) (hreplacement : replacement ≠ [])
    (hin : x ∉ pattern) (hout : x ∉ replacement) (hzero : ¬bad 0) (n : Nat) (text : List α) :
    (∃ r ∈ runLengths x n (replaceAll pattern replacement text), bad r)
      ↔ ∃ r ∈ runLengths x n text, bad r := by
  induction text using replaceInduction hpattern generalizing n with
  | nil => rfl
  | found rest ih =>
    rw [replaceAll_match hpattern, exists_runLengths_append hreplacement hout hzero,
      exists_runLengths_append hpattern hin hzero, ih]
  | unit c rest hunit ih =>
    rw [replaceAll_unit hunit]
    by_cases hc : c = x
    · rw [runLengths, runLengths, if_pos hc, if_pos hc, ih]
    · rw [runLengths_other hc, runLengths_other hc, List.exists_mem_cons_iff,
        List.exists_mem_cons_iff, ih]

omit [DecidableEq α] in
theorem replicate_prefix_iff {c : α} (h : c ≠ x) (m k : Nat) (rest : List α) :
    List.replicate m x <+: List.replicate k x ++ c :: rest ↔ m ≤ k := by
  induction k generalizing m with
  | zero =>
    cases m with
    | zero => exact iff_of_true List.nil_prefix (Nat.le_refl 0)
    | succ m =>
      refine iff_of_false ?_ (Nat.not_succ_le_zero m)
      exact fun hprefix => h (List.cons_prefix_cons.mp hprefix).1.symm
  | succ k ih =>
    cases m with
    | zero => exact iff_of_true List.nil_prefix (Nat.zero_le _)
    | succ m =>
      rw [List.replicate_succ, List.replicate_succ, List.cons_append, List.cons_prefix_cons, ih]
      exact ⟨fun hcase => Nat.succ_le_succ hcase.2,
        fun hcase => ⟨rfl, Nat.le_of_succ_le_succ hcase⟩⟩

omit [DecidableEq α] in
theorem replicate_infix_iff {c : α} (h : c ≠ x) (m k : Nat) (rest : List α) :
    List.replicate m x <:+: List.replicate k x ++ c :: rest
      ↔ m ≤ k ∨ List.replicate m x <:+: rest := by
  induction k with
  | zero =>
    have hzero := @replicate_prefix_iff _ x c h m 0 rest
    rw [List.replicate_zero, List.nil_append] at hzero ⊢
    rw [List.infix_cons_iff, hzero]
  | succ k ih =>
    have hprefix := @replicate_prefix_iff _ x c h m (k + 1) rest
    rw [List.replicate_succ, List.cons_append] at hprefix ⊢
    rw [List.infix_cons_iff, hprefix, ih, ← or_assoc]
    refine or_congr_left ⟨fun hcase => ?_, Or.inl⟩
    omega

/-! ## Occurrences -/

/-- How often a word occurs in a text. -/
def occurrences (word text : List α) : Nat := text.tails.countP fun rest => word.isPrefixOf rest

theorem occurrences_eq_zero_iff {text : List α} : occurrences word text = 0 ↔ ¬word <:+: text := by
  rw [occurrences, List.countP_eq_zero, List.infix_iff_prefix_suffix]
  simp only [List.mem_tails, List.isPrefixOf_iff_prefix, not_exists, not_and']

omit [DecidableEq α] in
theorem prefix_append_sep_iff {word a b : List α} {sep : α} (h : sep ∉ word) :
    word <+: a ++ sep :: b ↔ word <+: a := by
  refine ⟨fun hword => ?_, fun hword => hword.trans (List.prefix_append a _)⟩
  rcases List.prefix_or_prefix_of_prefix hword (List.prefix_append a (sep :: b)) with hin | hlong
  · exact hin
  obtain ⟨more, rfl⟩ := hlong
  rw [List.prefix_append_right_inj] at hword
  cases more with
  | nil => exact List.prefix_rfl.trans (by rw [List.append_nil])
  | cons c more =>
    have hsame : c = sep := (List.cons_prefix_cons.mp hword).1
    exact absurd (List.mem_append_right a (hsame ▸ List.mem_cons_self)) h

theorem occurrences_cons (word : List α) (c : α) (text : List α) :
    occurrences word (c :: text)
      = occurrences word text + if word.isPrefixOf (c :: text) then 1 else 0 := by
  unfold occurrences
  rw [List.tails_cons, List.countP_cons]

variable {sep : α}

/-- A word without the separator occurs on one side of it or the other. -/
theorem occurrences_append_sep (hword : word ≠ []) (h : sep ∉ word) (a b : List α) :
    occurrences word (a ++ sep :: b) = occurrences word a + occurrences word b := by
  induction a with
  | nil =>
    have hbegins : ¬word.isPrefixOf (sep :: b) = true := by
      rw [List.isPrefixOf_iff_prefix]
      intro hprefix
      have hempty := (@prefix_append_sep_iff _ word [] b sep h).mp hprefix
      exact hword (List.prefix_nil.mp hempty)
    have hnone : occurrences word ([] : List α) = 0 := by
      rw [occurrences_eq_zero_iff, List.infix_nil]
      exact hword
    rw [List.nil_append, occurrences_cons, if_neg hbegins, hnone, Nat.add_zero, Nat.zero_add]
  | cons c a ih =>
    have hbegins : word.isPrefixOf (c :: (a ++ sep :: b)) = word.isPrefixOf (c :: a) := by
      rw [Bool.eq_iff_iff, List.isPrefixOf_iff_prefix, List.isPrefixOf_iff_prefix]
      exact @prefix_append_sep_iff _ word (c :: a) b sep h
    rw [List.cons_append, occurrences_cons, occurrences_cons, ih, hbegins]
    omega

/-- A word without the separator occurs in the joined pieces as often as in each
    of them. -/
theorem occurrences_intercalate (hword : word ≠ []) (h : sep ∉ word) (pieces : List (List α)) :
    occurrences word ([sep].intercalate pieces) = (pieces.map (occurrences word)).sum := by
  induction pieces with
  | nil =>
    rw [List.intercalate_nil, occurrences_eq_zero_iff.mpr (by rw [List.infix_nil]; exact hword)]
    rfl
  | cons piece pieces ih =>
    cases pieces with
    | nil =>
      rw [List.intercalate_singleton, List.map_singleton, List.sum_singleton]
    | cons next pieces =>
      rw [List.intercalate_cons_cons, List.append_assoc, List.singleton_append,
        occurrences_append_sep hword h, ih]
      rfl

theorem splitOn_intercalate_flatMap {pieces : List (List α)} (h : pieces ≠ []) :
    ([sep].intercalate pieces).splitOn sep = pieces.flatMap fun piece => piece.splitOn sep := by
  induction pieces with
  | nil => exact absurd rfl h
  | cons piece pieces ih =>
    cases pieces with
    | nil => rw [List.intercalate_singleton, List.flatMap_singleton]
    | cons next pieces =>
      rw [List.intercalate_cons_cons, List.append_assoc, List.singleton_append,
        List.splitOn_append_cons_self, ih (List.cons_ne_nil next pieces)]
      rfl

/-- A word without the separator is in a text when it is in one of its lines. -/
theorem infix_iff_infix_line (hword : word ≠ []) (h : sep ∉ word) (text : List α) :
    word <:+: text ↔ ∃ line ∈ text.splitOn sep, word <:+: line := by
  have hnone : ¬word <:+: text ↔ ∀ line ∈ text.splitOn sep, ¬word <:+: line := by
    have hjoined : List.intercalate [sep] (text.splitOn sep) = text := List.intercalate_splitOn sep
    rw [← occurrences_eq_zero_iff]
    conv_lhs => rw [← hjoined]
    rw [occurrences_intercalate hword h, List.sum_eq_zero_iff_forall_eq_nat]
    simp [occurrences_eq_zero_iff]
  rw [← not_iff_not, hnone]
  simp

omit [DecidableEq α] in
theorem not_infix_of_notMem {word text : List α} {c : α} (hword : c ∈ word) (htext : c ∉ text) :
    ¬word <:+: text :=
  fun h => htext (h.subset hword)

end TextReplace
