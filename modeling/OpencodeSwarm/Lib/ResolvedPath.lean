/-
  OpencodeSwarm.Lib.ResolvedPath

  Absolute paths without empty, `.` and `..` words.  `path.posix.resolve` gives
  such a path, `normalize` keeps it, `dirname` drops its last word, and one lies
  below another, as strings, exactly when its words continue those of the other.
-/
import Mathlib.Data.List.DropRight
import OpencodeSwarm.Lib.PosixPath

namespace Posix

open Js

/-! ## File names -/

/-- What an entry of a directory may be called. -/
def IsFileName (name : JsString) : Prop :=
  name ≠ [] ∧ name ≠ [dot] ∧ name ≠ [dot, dot] ∧ slash ∉ name

instance (name : JsString) : Decidable (IsFileName name) := by
  unfold IsFileName
  infer_instance

/-- The absolute path with these words. -/
def absolutePath (names : List JsString) : JsString := slash :: join names

theorem join_singleton (name : JsString) : join [name] = name := List.intercalate_singleton

variable {left right : List JsString}

theorem join_append_of_ne_nil (hleft : left ≠ []) (hright : right ≠ []) :
    join (left ++ right) = join left ++ slash :: join right := by
  unfold join
  induction left with
  | nil => exact absurd rfl hleft
  | cons first rest ih =>
    by_cases hrest : rest = []
    · subst hrest
      rw [List.singleton_append, List.intercalate_cons_of_ne_nil hright, List.intercalate_singleton]
      simp
    · have happend : rest ++ right ≠ [] := by simp [hrest]
      rw [List.cons_append, List.intercalate_cons_of_ne_nil happend, ih hrest,
        List.intercalate_cons_of_ne_nil hrest]
      simp

theorem isFileName_of_mem_normalizeSegments {words : List JsString}
    (hslash : ∀ word ∈ words, slash ∉ word) :
    ∀ name ∈ normalizeSegments false words, IsFileName name := by
  have hfold : ∀ stack : List JsString, (∀ name ∈ stack, IsFileName name) →
      ∀ name ∈ words.foldl (pushSegment false) stack, IsFileName name := by
    induction words with
    | nil =>
      intro stack hstack
      exact hstack
    | cons word rest ih =>
      intro stack hstack
      refine ih (fun other hother => hslash other (List.mem_cons_of_mem _ hother)) _ ?_
      intro name hname
      unfold pushSegment at hname
      split at hname
      · exact hstack name hname
      rename_i hskip
      rw [not_or] at hskip
      split at hname
      · -- `..` takes a name off, or nothing
        cases stack with
        | nil =>
          cases hname
        | cons top below =>
          dsimp only at hname
          split at hname
          · exact hstack name hname
          · exact hstack name (List.mem_cons_of_mem _ hname)
      · rename_i hup
        rcases List.mem_cons.mp hname with rfl | hold
        · exact ⟨hskip.1, hskip.2, hup, hslash _ List.mem_cons_self⟩
        · exact hstack name hold
  intro name hname
  exact hfold [] (List.forall_mem_nil _) name (List.mem_reverse.mp hname)

/-! ## Their words -/

variable {names : List JsString}

theorem segments_absolutePath (hnames : ∀ name ∈ names, IsFileName name) (hne : names ≠ []) :
    segments (absolutePath names) = [] :: names := by
  have hjoined : segments (absolutePath names) = segments [] ++ segments (join names) :=
    segments_append [] (join names)
  rw [hjoined, segments_join (fun name hname => (hnames name hname).2.2.2) hne]
  rfl

theorem filter_segments_absolutePath (hnames : ∀ name ∈ names, IsFileName name) :
    (segments (absolutePath names)).filter (fun part => part ≠ [] ∧ part ≠ [dot]) = names := by
  by_cases hne : names = []
  · subst hne
    decide
  · rw [segments_absolutePath hnames hne, List.filter_cons_of_neg (by simp), List.filter_eq_self]
    intro name hname
    have hproper := hnames name hname
    simp [hproper.1, hproper.2.1]

theorem dotdot_notMem_segments_absolutePath (hnames : ∀ name ∈ names, IsFileName name) :
    [dot, dot] ∉ segments (absolutePath names) := by
  by_cases hne : names = []
  · subst hne
    decide
  · rw [segments_absolutePath hnames hne]
    intro hmem
    rcases List.mem_cons.mp hmem with hempty | hname
    · cases hempty
    · exact (hnames _ hname).2.2.1 rfl

theorem absolutePath_injective (hleft : ∀ name ∈ left, IsFileName name)
    (hright : ∀ name ∈ right, IsFileName name) (h : absolutePath left = absolutePath right) :
    left = right := by
  rw [← filter_segments_absolutePath hleft, h, filter_segments_absolutePath hright]

theorem rootSegments_absolutePath (hnames : ∀ name ∈ names, IsFileName name) :
    rootSegments (absolutePath names) = names := by
  by_cases hne : names = []
  · subst hne
    decide
  · unfold rootSegments
    rw [segments_absolutePath hnames hne, List.filter_cons_of_neg (by simp), List.filter_eq_self]
    intro name hname
    exact decide_eq_true (hnames name hname).1

/-! ## `relative` -/

theorem prefix_of_afterCommon (h : (afterCommon left right).1 = []) : left <+: right := by
  induction left generalizing right with
  | nil => exact List.nil_prefix
  | cons first left ih =>
    cases right with
    | nil => cases h
    | cons second right =>
      unfold afterCommon at h
      split at h
      · next hsame =>
        rw [hsame]
        exact List.prefix_cons_inj second |>.mpr (ih h)
      · cases h

theorem prefix_of_relative {start target : List JsString} (hstart : ∀ name ∈ start, IsFileName name)
    (htarget : ∀ name ∈ target, IsFileName name)
    (h : [dot, dot].isPrefixOf (relative (absolutePath start) (absolutePath target)) = false) :
    start <+: target := by
  rw [relative, rootSegments_absolutePath hstart, rootSegments_absolutePath htarget] at h
  dsimp only at h
  cases hup : (afterCommon start target).1 with
  | nil => exact prefix_of_afterCommon hup
  | cons first up =>
    rw [hup, List.map_cons, List.cons_append, Bool.eq_false_iff, ne_eq,
      List.isPrefixOf_iff_prefix] at h
    refine absurd ?_ h
    unfold join
    cases hrest : up.map (fun _ => [dot, dot]) ++ (afterCommon start target).2 with
    | nil => exact ⟨[], by rw [List.intercalate_singleton, List.append_nil]⟩
    | cons second rest =>
      exact List.prefix_append _ _

/-! ## `resolve` and `normalize` -/

/-- The words of `path.posix.resolve(cwd, path)`. -/
def resolvedNames (cwd path : JsString) : List JsString :=
  normalizeSegments false (segments (if isAbsolute path then path else cwd ++ slash :: path))

theorem resolve_eq_absolutePath (cwd path : JsString) :
    resolve cwd path = absolutePath (resolvedNames cwd path) := rfl

theorem isFileName_of_mem_resolvedNames {cwd path : JsString} :
    ∀ name ∈ resolvedNames cwd path, IsFileName name :=
  isFileName_of_mem_normalizeSegments fun _ hword => slash_notMem_of_mem_segments hword

variable {cwd : JsString}

theorem resolvedNames_absolutePath (hnames : ∀ name ∈ names, IsFileName name) :
    resolvedNames cwd (absolutePath names) = names := by
  have habsolute : isAbsolute (absolutePath names) = true := rfl
  rw [resolvedNames, if_pos habsolute,
    normalizeSegments_eq_filter (dotdot_notMem_segments_absolutePath hnames),
    filter_segments_absolutePath hnames]

theorem resolve_absolutePath (hnames : ∀ name ∈ names, IsFileName name) :
    resolve cwd (absolutePath names) = absolutePath names := by
  rw [resolve_eq_absolutePath, resolvedNames_absolutePath hnames]

theorem not_endsWith_absolutePath (hnames : ∀ name ∈ names, IsFileName name) (hne : names ≠ []) :
    endsWith (absolutePath names) [slash] = false := by
  rw [endsWith, Bool.eq_false_iff, ne_eq, List.isSuffixOf_iff_suffix]
  rintro ⟨before, heq⟩
  -- behind a last slash stands an empty word
  have hlast : segments (absolutePath names) = segments before ++ [[]] := by
    have hsplit : segments (before ++ slash :: []) = segments before ++ segments [] :=
      segments_append before []
    rw [← heq, hsplit]
    rfl
  have hempty : ([] : JsString) ∈ names := by
    rw [segments_absolutePath hnames hne] at hlast
    have hget : ([] :: names).getLast? = some [] := by rw [hlast]; simp
    rw [List.getLast?_cons_of_ne_nil hne] at hget
    exact List.mem_of_getLast? hget
  exact (hnames _ hempty).1 rfl

theorem normalize_absolutePath (hnames : ∀ name ∈ names, IsFileName name) :
    normalize (absolutePath names) = absolutePath names := by
  by_cases hne : names = []
  · subst hne
    decide
  · have hparts : normalizeSegments false (segments (absolutePath names)) = names := by
      rw [normalizeSegments_eq_filter (dotdot_notMem_segments_absolutePath hnames),
        filter_segments_absolutePath hnames]
    have habsolute : isAbsolute (absolutePath names) = true := rfl
    unfold normalize
    simp only [habsolute, Bool.not_true, hparts, hne, if_false, if_true,
      not_endsWith_absolutePath hnames hne, Bool.false_eq_true, List.append_nil]
    rfl

/-! ## `dirname` -/

def dirname (path : JsString) : JsString :=
  match path with
  | [] => [dot]
  | head :: tail =>
    -- up to the last slash that is not at the end, not counting a leading one
    let upToSlash := (tail.rdropWhile (· = slash)).rdropWhile (· ≠ slash)
    if upToSlash = [] then if head = slash then [slash] else [dot]
    else if head = slash ∧ upToSlash = [slash] then [slash, slash]
    else head :: upToSlash.dropLast

theorem dirname_absolutePath {name : JsString}
    (hnames : ∀ other ∈ names ++ [name], IsFileName other) :
    dirname (absolutePath (names ++ [name])) = absolutePath names := by
  have hname : IsFileName name := hnames name (by simp)
  have hlast : ∃ front c, name = front ++ [c] := by
    rcases List.eq_nil_or_concat name with hnil | ⟨front, c, hconcat⟩
    · exact absurd hnil hname.1
    · exact ⟨front, c, by rw [hconcat, List.concat_eq_append]⟩
  -- the text in front of the last word, slash included
  obtain ⟨before, hbefore, hslash⟩ : ∃ before : JsString,
      join (names ++ [name]) = before ++ name ∧
        (before = [] ∧ names = [] ∨ before = join names ++ [slash] ∧ names ≠ []) := by
    by_cases hne : names = []
    · subst hne
      exact ⟨[], join_singleton name, Or.inl ⟨rfl, rfl⟩⟩
    · refine ⟨join names ++ [slash], ?_, Or.inr ⟨rfl, hne⟩⟩
      rw [join_append_of_ne_nil hne (List.cons_ne_nil _ _), join_singleton]
      simp
  have htrim : (before ++ name).rdropWhile (· = slash) = before ++ name := by
    obtain ⟨front, c, rfl⟩ := hlast
    have hc : c ≠ slash := fun heq => hname.2.2.2 (by rw [heq]; simp)
    simpa using hc
  have hcut : (before ++ name).rdropWhile (· ≠ slash) = before := by
    have hdrop : ∀ word : JsString, slash ∉ word →
        (before ++ word).rdropWhile (· ≠ slash) = before.rdropWhile (· ≠ slash) := by
      intro word hword
      induction word using List.reverseRecOn with
      | nil => rw [List.append_nil]
      | append_singleton front c ih =>
        rw [List.mem_append, not_or] at hword
        have hc : c ≠ slash := fun heq => hword.2 (by rw [heq]; simp)
        rw [← List.append_assoc, List.rdropWhile_concat_pos _ _ _ (by simpa using hc), ih hword.1]
    rw [hdrop name hname.2.2.2]
    rcases hslash with ⟨rfl, -⟩ | ⟨rfl, -⟩
    · rfl
    · simp
  dsimp only [dirname, absolutePath]
  rw [hbefore, htrim, hcut]
  rcases hslash with ⟨rfl, rfl⟩ | ⟨rfl, hne⟩
  · rfl
  have hjoin : join names ≠ [] := by
    intro hnil
    have hempty : segments (join names) = [[]] := by rw [hnil]; rfl
    rw [segments_join (fun other hother => (hnames other (by simp [hother])).2.2.2) hne] at hempty
    exact (hnames [] (by rw [hempty]; simp)).1 rfl
  rw [if_neg (by simp), if_neg, List.dropLast_concat]
  rintro ⟨-, heq⟩
  exact hjoin (List.append_cancel_right (heq.trans (List.nil_append _).symm))

/-! ## Lying below -/

/-- The prefix that the paths below a directory have. -/
def belowPrefix (root : JsString) : JsString :=
  if endsWith root [slash] then root else root ++ [slash]

/-- A path lies below another when its words continue those of the other. -/
theorem below_iff_prefix {root : List JsString} (hroot : ∀ name ∈ root, IsFileName name)
    (hnames : ∀ name ∈ names, IsFileName name) : (absolutePath names = absolutePath root ∨
      belowPrefix (absolutePath root) <+: absolutePath names) ↔ root <+: names := by
  by_cases hne : root = []
  · subst hne
    constructor
    · intro _
      exact List.nil_prefix
    · intro _
      exact Or.inr ⟨join names, rfl⟩
  · have hstarts : belowPrefix (absolutePath root) = absolutePath root ++ [slash] := by
      rw [belowPrefix, not_endsWith_absolutePath hroot hne, if_neg Bool.false_ne_true]
    rw [hstarts]
    constructor
    · rintro (heq | ⟨rest, heq⟩)
      · have hsame := absolutePath_injective hnames hroot heq
        exact hsame ▸ List.prefix_refl root
      · -- the words on both sides of the slash
        have hwords := congrArg segments heq
        rw [List.append_assoc, List.singleton_append, segments_append,
          segments_absolutePath hroot hne] at hwords
        by_cases hempty : names = []
        · subst hempty
          have hroots : segments (absolutePath []) = [[], []] := by decide
          rw [hroots, List.cons_append, List.cons.injEq] at hwords
          cases root with
          | nil => exact absurd rfl hne
          | cons first others =>
            rw [List.cons_append, List.cons.injEq] at hwords
            exact absurd hwords.2.1 (hroot first List.mem_cons_self).1
        · rw [segments_absolutePath hnames hempty, List.cons_append, List.cons.injEq] at hwords
          exact ⟨_, hwords.2⟩
    · rintro ⟨rest, rfl⟩
      by_cases hrest : rest = []
      · subst hrest
        rw [List.append_nil]
        exact Or.inl rfl
      · refine Or.inr ⟨join rest, ?_⟩
        unfold absolutePath
        rw [join_append_of_ne_nil hne hrest]
        simp

end Posix
