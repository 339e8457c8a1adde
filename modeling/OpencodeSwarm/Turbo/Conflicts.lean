/-
  OpencodeSwarm.Turbo.Conflicts

  The path rule that tells tasks apart (`src/utils/path.ts`,
  `src/turbo/lean/conflicts.ts`): one normalizer, and the conflict of two
  normalized paths, on a POSIX host.  The normalizer leaves a normal path
  without backslashes as it is.
-/
import OpencodeSwarm.Lib.PosixPath

namespace OpencodeSwarm

open Js Posix

/-! ## `normalizePath` -/

/-- `.replace(/\/+/g, '/')`. -/
def collapseSlashes : JsString → JsString
  | a :: b :: rest =>
    if a = slash ∧ b = slash then collapseSlashes (b :: rest) else a :: collapseSlashes (b :: rest)
  | short => short

/-- `.replace(/^\.\//, '')`. -/
def dropDotSlash (text : JsString) : JsString :=
  if [dot, slash].isPrefixOf text then text.drop 2 else text

/-- `.replace(/(?:^|\/)\.\//g, '/')` behind the first position; a match is not
    looked at again. -/
def collapseDotsFrom : JsString → JsString
  | a :: b :: c :: rest =>
    if a = slash ∧ b = dot ∧ c = slash then slash :: collapseDotsFrom rest
    else a :: collapseDotsFrom (b :: c :: rest)
  | short => short

/-- `.replace(/(?:^|\/)\.\//g, '/')`. -/
def collapseDots (text : JsString) : JsString :=
  if [dot, slash].isPrefixOf text then slash :: collapseDotsFrom (text.drop 2)
  else collapseDotsFrom text

/-- `.replace(/ending$/, '')`. -/
def dropEnding (ending text : JsString) : JsString :=
  if endsWith text ending then text.take (text.length - ending.length) else text

def normalizePath (path : JsString) : JsString :=
  if path = [] then []
  else
    let collapsed := collapseDots (dropDotSlash (collapseSlashes (toSlashes path)))
    let result := dropEnding [slash, dot] (dropEnding [slash] collapsed)
    if result = [] then
      if toSlashes path = [dot] ∨ toSlashes path = [dot, slash] then [dot] else []
    else result

variable {text : JsString}

theorem collapseSlashes_eq_self (h : ¬ [slash, slash] <:+: text) : collapseSlashes text = text := by
  fun_induction collapseSlashes text with
  | case1 a b rest hboth => exact absurd ⟨[], rest, by simp [hboth]⟩ h
  | case2 a b rest _ ih =>
    rw [ih fun hwithin => h (hwithin.trans (List.suffix_cons a _).isInfix)]
  | case3 short => rfl

theorem collapseDotsFrom_eq_self (h : ¬ [slash, dot, slash] <:+: text) :
    collapseDotsFrom text = text := by
  induction text with
  | nil => rfl
  | cons a text ih =>
    rcases text with _ | ⟨b, _ | ⟨c, rest⟩⟩
    · rfl
    · rfl
    · change (if a = slash ∧ b = dot ∧ c = slash then _ else a :: collapseDotsFrom _) = _
      rw [if_neg, ih fun hwithin => h (hwithin.trans (List.suffix_cons a _).isInfix)]
      rintro ⟨rfl, rfl, rfl⟩
      exact h ⟨[], rest, rfl⟩

variable {path : JsString}

theorem normalizePath_eq_self (hnormal : IsNormal path) (hback : backslash ∉ path) :
    normalizePath path = path := by
  have hdouble : ¬ [slash, slash] <:+: path := by
    intro hwithin
    refine hnormal.not_within (Or.inl rfl) (hwithin.trans ⟨[slash], [slash], ?_⟩)
    simp
  have hstart : [dot, slash].isPrefixOf path = false := by
    rw [Bool.eq_false_iff, ne_eq, List.isPrefixOf_iff_prefix]
    rintro ⟨rest, heq⟩
    refine hnormal.not_within (Or.inr (Or.inl rfl)) ⟨[], rest ++ [slash], ?_⟩
    rw [← heq]
    simp
  have hmiddle : ¬ [slash, dot, slash] <:+: path := by
    intro hwithin
    refine hnormal.not_within (Or.inr (Or.inl rfl)) (hwithin.trans ⟨[slash], [slash], ?_⟩)
    simp
  have hdot : endsWith path [slash, dot] = false := by
    rw [endsWith, Bool.eq_false_iff, ne_eq, List.isSuffixOf_iff_suffix]
    rintro ⟨before, heq⟩
    refine hnormal.not_within (Or.inr (Or.inl rfl)) ⟨slash :: before, [], ?_⟩
    rw [← heq]
    simp
  have hcollapsed : collapseDots (dropDotSlash (collapseSlashes (toSlashes path))) = path := by
    rw [toSlashes_eq_self hback, collapseSlashes_eq_self hdouble, dropDotSlash, hstart]
    simp only [Bool.false_eq_true, if_false]
    rw [collapseDots, hstart]
    exact collapseDotsFrom_eq_self hmiddle
  have hresult : dropEnding [slash, dot] (dropEnding [slash] path) = path := by
    have hslash : dropEnding [slash] path = path := by
      rw [dropEnding, hnormal.not_endsWith_slash]
      rfl
    rw [hslash, dropEnding, hdot]
    rfl
  rw [normalizePath, if_neg hnormal.ne_nil]
  dsimp only
  rw [hcollapsed, hresult, if_neg hnormal.ne_nil]

/-! ## Conflicts -/

def pathsConflict (path₁ path₂ : JsString) : Bool :=
  if path₁ = path₂ then true
  else
    let (shorter, longer) :=
      if path₁.length ≤ path₂.length then (path₁, path₂) else (path₂, path₁)
    (shorter ++ [slash]).isPrefixOf longer

variable {path₁ path₂ : JsString}

theorem pathsConflict_of_beneath (h : path₁ ++ [slash] <+: path₂) :
    pathsConflict path₁ path₂ = true ∧ pathsConflict path₂ path₁ = true := by
  have hlength := h.length_le
  rw [List.length_append, List.length_singleton] at hlength
  have hne : path₁ ≠ path₂ := by
    rintro rfl
    omega
  have hshort : path₁.length ≤ path₂.length := by omega
  have hlong : ¬ path₂.length ≤ path₁.length := by omega
  have hbeneath : (path₁ ++ [slash]).isPrefixOf path₂ = true := List.isPrefixOf_iff_prefix.mpr h
  constructor
  · rw [pathsConflict, if_neg hne, if_pos hshort]
    exact hbeneath
  · rw [pathsConflict, if_neg hne.symm, if_neg hlong]
    exact hbeneath

theorem pathsConflict_of_cover (h₁ : path = path₁ ∨ path₁ ++ [slash] <+: path)
    (h₂ : path = path₂ ∨ path₂ ++ [slash] <+: path) : pathsConflict path₁ path₂ = true := by
  rcases h₁ with rfl | h₁
  · rcases h₂ with rfl | h₂
    · simp [pathsConflict]
    · exact (pathsConflict_of_beneath h₂).2
  · rcases h₂ with rfl | h₂
    · exact (pathsConflict_of_beneath h₁).1
    rcases List.prefix_or_prefix_of_prefix h₁ h₂ with h | h
    · rcases List.prefix_concat_iff.mp h with heq | hproper
      · obtain ⟨rfl, -⟩ := List.append_inj' heq rfl
        simp [pathsConflict]
      · exact (pathsConflict_of_beneath hproper).1
    · rcases List.prefix_concat_iff.mp h with heq | hproper
      · obtain ⟨rfl, -⟩ := List.append_inj' heq rfl
        simp [pathsConflict]
      · exact (pathsConflict_of_beneath hproper).2

/-- Two paths conflict when they are equal or one lies beneath the other. -/
theorem pathsConflict_iff : pathsConflict path₁ path₂ = true
      ↔ path₁ = path₂ ∨ path₁ ++ [slash] <+: path₂ ∨ path₂ ++ [slash] <+: path₁ := by
  constructor
  · intro h
    unfold pathsConflict at h
    split at h
    · rename_i heq
      exact Or.inl heq
    · split at h
      rename_i shorter longer horder
      rw [List.isPrefixOf_iff_prefix] at h
      split at horder
      · cases horder
        exact Or.inr (Or.inl h)
      · cases horder
        exact Or.inr (Or.inr h)
  · rintro (rfl | h | h)
    · simp [pathsConflict]
    · exact (pathsConflict_of_beneath h).1
    · exact (pathsConflict_of_beneath h).2

theorem pathsConflict_comm (path₁ path₂ : JsString) :
    pathsConflict path₁ path₂ = pathsConflict path₂ path₁ := by
  rw [Bool.eq_iff_iff, pathsConflict_iff, pathsConflict_iff, eq_comm]
  tauto

end OpencodeSwarm
