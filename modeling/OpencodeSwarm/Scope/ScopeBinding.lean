/-
  OpencodeSwarm.Scope.ScopeBinding

  Declared scopes (`src/scope/scope-binding.ts`, `src/scope/path-identity.ts`) on
  a POSIX host: how an entry is normalized when it is declared, and which paths
  the write gate takes as covered by a scope.
-/
import OpencodeSwarm.Turbo.Conflicts

namespace OpencodeSwarm

open Js Posix

/-! ## Declaring a scope -/

def isControlCharacter (c : CodeUnit) : Bool := c ≤ 0x1F || (0x7F ≤ c && c ≤ 0x9F)

def isBidiControlCharacter (c : CodeUnit) : Bool :=
  c == 0x061C || c == 0x200E || c == 0x200F || (0x202A ≤ c && c ≤ 0x202E)
    || (0x2066 ≤ c && c ≤ 0x2069)

def unsafePathTextReason (value : JsString) : Option String :=
  if value.any isControlCharacter then some "control characters are not allowed in paths"
  else if value.any isBidiControlCharacter then
    some "bidirectional control characters are not allowed in paths"
  else none

/-- `/^[A-Za-z]:\//`. -/
def hasDrive (path : JsString) : Bool :=
  match path with
  | letter :: colon :: separator :: _ =>
    ((0x41 ≤ letter && letter ≤ 0x5A) || (0x61 ≤ letter && letter ≤ 0x7A)) && colon == 0x3A
      && separator == slash
  | _ => false

/-- A relative path in one spelling, `none` if it is unsafe. -/
def normalizeScopePath (value : JsString) : Option JsString :=
  if (unsafePathTextReason value).isSome then none
  else
    let trimmed := toSlashes (trim value)
    if trimmed = [] ∨ 0 ∈ trimmed ∨ [dot, dot] ∈ segments trimmed ∨ isAbsolute trimmed
        ∨ hasDrive trimmed then none
    else
      let normalized := dropDotSlash (normalize trimmed)
      if normalized = [dot] ∨ normalized = [dot, dot]
          ∨ [dot, dot, slash].isPrefixOf normalized then none
      else some (if endsWith normalized [slash] then normalized.dropLast else normalized)

/-- `MAX_SCOPE_PATH_BYTES`. -/
def maxScopePathBytes : Nat := 4096

/-- `MAX_SCOPE_FILES_BYTES`. -/
def maxScopeFilesBytes : Nat := 1024 * 1024

/-- The loop of `normalizeScopeFiles`: the entries so far and their bytes. -/
def normalizeScopeEntries : List JsString → List JsString → Nat → Option (List JsString)
  | [], normalized, _ => some normalized
  | file :: files, normalized, totalBytes =>
    match (normalizeScopePath file).filter fun candidate => !candidate.isEmpty with
    | none => none
    | some candidate =>
      let bytes := utf8Length candidate
      if bytes > maxScopePathBytes ∨ totalBytes + bytes > maxScopeFilesBytes then none
      else
        normalizeScopeEntries files
          (if candidate ∈ normalized then normalized else normalized ++ [candidate])
          (totalBytes + bytes)

def normalizeScopeFiles (files : List JsString) : Option (List JsString) :=
  if files = [] ∨ files.length > 10000 then none
  else
    match normalizeScopeEntries files [] 0 with
    | some normalized => if normalized = [] then none else some (sortStrings normalized)
    | none => none

/-! ## The write gate -/

def normalizePathIdentity (value : JsString) : JsString := normalize value

def scopeContains (scope : List JsString) (candidate : JsString) : Bool :=
  let candidateIdentity := toSlashes (normalizePathIdentity candidate)
  scope.any fun entry =>
    let entryIdentity := toSlashes (normalizePathIdentity entry)
    candidateIdentity == entryIdentity || (entryIdentity ++ [slash]).isPrefixOf candidateIdentity

/-! ## Declared entries are normal -/

/-- What an entry of a declared scope looks like. -/
structure IsScopeEntry (entry : JsString) : Prop where
  normal : IsNormal entry
  backslash : backslash ∉ entry

variable {parts : List JsString}

theorem isNormal_join (hne : parts ≠ []) (hslash : ∀ part ∈ parts, slash ∉ part)
    (hparts : ∀ part ∈ parts, part ≠ [] ∧ part ≠ [dot] ∧ part ≠ [dot, dot]) :
    IsNormal (join parts) := by
  intro segment hsegment
  rw [segments_join hslash hne] at hsegment
  exact hparts segment hsegment

variable {c : CodeUnit}

theorem mem_join (h : c ∈ join parts) : c = slash ∨ ∃ part ∈ parts, c ∈ part := by
  induction parts with
  | nil => cases h
  | cons part rest ih =>
    cases rest with
    | nil =>
      simp only [join, List.intercalate_singleton] at h
      exact Or.inr ⟨part, List.mem_cons_self, h⟩
    | cons next rest =>
      have hcons : join (part :: next :: rest) = part ++ [slash] ++ join (next :: rest) :=
        List.intercalate_cons_cons
      rw [hcons, List.mem_append, List.mem_append, List.mem_singleton] at h
      rcases h with (h | h) | h
      · exact Or.inr ⟨part, List.mem_cons_self, h⟩
      · exact Or.inl h
      · rcases ih h with hslash | ⟨other, hother, hc⟩
        · exact Or.inl hslash
        · exact Or.inr ⟨other, List.mem_cons_of_mem _ hother, hc⟩

theorem mem_join_of_mem {part : JsString} (hpart : part ∈ parts) (hc : c ∈ part) :
    c ∈ join parts := by
  induction parts with
  | nil => cases hpart
  | cons first rest ih =>
    cases rest with
    | nil =>
      rw [List.mem_singleton] at hpart
      simpa [join, hpart] using hc
    | cons next rest =>
      have hcons : join (first :: next :: rest) = first ++ [slash] ++ join (next :: rest) :=
        List.intercalate_cons_cons
      rw [hcons, List.mem_append]
      rcases List.mem_cons.mp hpart with rfl | hrest
      · exact Or.inl (List.mem_append_left _ hc)
      · exact Or.inr (ih hrest)

/-- Behind a normal path, a trailing slash is what `dropDotSlash` and the last
    step of `normalizeScopePath` leave or take. -/
theorem dropTrailing_eq {path : JsString} (hnormal : IsNormal path) (trailing : Bool) :
    dropDotSlash (path ++ if trailing then [slash] else [])
        = path ++ (if trailing then [slash] else [])
      ∧ (if endsWith (path ++ if trailing then [slash] else []) [slash] then
          (path ++ if trailing then [slash] else []).dropLast
        else path ++ if trailing then [slash] else []) = path := by
  constructor
  · have hstart : [dot, slash].isPrefixOf (path ++ if trailing then [slash] else []) = false := by
      rw [Bool.eq_false_iff, ne_eq, List.isPrefixOf_iff_prefix]
      intro hbeneath
      have hslash : [dot, slash] <+: path ++ [slash] := by
        cases trailing with
        | true => exact hbeneath
        | false =>
          rw [if_neg Bool.false_ne_true, List.append_nil] at hbeneath
          exact hbeneath.trans (List.prefix_append _ _)
      obtain ⟨rest, hrest⟩ := hslash
      refine hnormal.not_within (Or.inr (Or.inl rfl)) ⟨[], rest, ?_⟩
      rw [← hrest]
      simp
    rw [dropDotSlash, hstart]
    rfl
  · cases trailing with
    | true => simp [endsWith]
    | false =>
      rw [if_neg Bool.false_ne_true, List.append_nil, hnormal.not_endsWith_slash]
      rfl

variable {entry : JsString}

theorem isScopeEntry_of_normalizeScopePath {value : JsString}
    (h : normalizeScopePath value = some entry) : entry = [] ∨ IsScopeEntry entry := by
  unfold normalizeScopePath at h
  split at h
  · cases h
  dsimp only at h
  have hfree := backslash_notMem_toSlashes (trim value)
  generalize toSlashes (trim value) = trimmed at h hfree
  split at h
  · cases h
  rename_i hrejected
  simp only [not_or, Bool.not_eq_true] at hrejected
  obtain ⟨hne, -, hup, habsolute, -⟩ := hrejected
  -- the segments that `normalize` keeps
  have hsegments : normalizeSegments true (segments trimmed)
      = (segments trimmed).filter fun part => part ≠ [] ∧ part ≠ [dot] :=
    normalizeSegments_eq_filter hup
  have hnormalize : normalize trimmed
      = if normalizeSegments true (segments trimmed) = [] then
          if endsWith trimmed [slash] then [dot, slash] else [dot]
        else join (normalizeSegments true (segments trimmed))
          ++ if endsWith trimmed [slash] then [slash] else [] := by
    simp [Posix.normalize, hne, habsolute]
  have hkept : ∀ part ∈ normalizeSegments true (segments trimmed),
      part ∈ segments trimmed ∧ part ≠ [] ∧ part ≠ [dot] := by
    intro part hpart
    rw [hsegments, List.mem_filter] at hpart
    simpa using hpart
  generalize normalizeSegments true (segments trimmed) = parts at hnormalize hkept
  rw [hnormalize] at h
  by_cases hparts : parts = []
  · rw [if_pos hparts] at h
    left
    cases htrailing : endsWith trimmed [slash] with
    | true =>
      rw [htrailing] at h
      simpa [dropDotSlash, endsWith] using h.symm
    | false =>
      rw [htrailing] at h
      simp [dropDotSlash] at h
  · right
    rw [if_neg hparts] at h
    have hnormal : IsNormal (join parts) := by
      refine isNormal_join hparts ?_ ?_
      · intro part hpart
        exact slash_notMem_of_mem_segments (hkept part hpart).1
      · intro part hpart
        exact ⟨(hkept part hpart).2.1, (hkept part hpart).2.2,
          fun heq => hup (heq ▸ (hkept part hpart).1)⟩
    obtain ⟨hstart, htake⟩ := dropTrailing_eq hnormal (endsWith trimmed [slash])
    rw [hstart, htake, Option.ite_none_left_eq_some, Option.some.injEq] at h
    obtain ⟨-, rfl⟩ := h
    refine ⟨hnormal, fun hmem => ?_⟩
    rcases mem_join hmem with hslash | ⟨part, hpart, hc⟩
    · exact absurd hslash (by decide)
    · refine hfree ?_
      rw [← join_segments trimmed]
      exact mem_join_of_mem (hkept part hpart).1 hc

variable {files : List JsString}

theorem isScopeEntry_of_entries {normalized result : List JsString} {totalBytes : Nat}
    (hnormalized : ∀ entry ∈ normalized, IsScopeEntry entry)
    (h : normalizeScopeEntries files normalized totalBytes = some result) :
    ∀ entry ∈ result, IsScopeEntry entry := by
  induction files generalizing normalized totalBytes with
  | nil =>
    cases h
    exact hnormalized
  | cons file files ih =>
    unfold normalizeScopeEntries at h
    cases hcandidate : (normalizeScopePath file).filter fun candidate => !candidate.isEmpty with
    | none =>
      rw [hcandidate] at h
      cases h
    | some candidate =>
      rw [hcandidate] at h
      dsimp only at h
      split at h
      · cases h
      refine ih ?_ h
      obtain ⟨hpath, hne⟩ := Option.filter_eq_some_iff.mp hcandidate
      have hentry : IsScopeEntry candidate := by
        rcases isScopeEntry_of_normalizeScopePath hpath with hempty | hentry
        · rw [hempty] at hne
          cases hne
        · exact hentry
      intro entry hmem
      split at hmem
      · exact hnormalized entry hmem
      rcases List.mem_append.mp hmem with hold | hnew
      · exact hnormalized entry hold
      · rw [List.mem_singleton.mp hnew]
        exact hentry

variable {scope : List JsString}

theorem isScopeEntry_of_mem (h : normalizeScopeFiles files = some scope) :
    ∀ entry ∈ scope, IsScopeEntry entry := by
  unfold normalizeScopeFiles at h
  split at h
  · cases h
  cases hentries : normalizeScopeEntries files [] 0 with
  | none =>
    rw [hentries] at h
    cases h
  | some normalized =>
    rw [hentries] at h
    dsimp only at h
    split at h
    · cases h
    cases h
    intro entry hentry
    refine isScopeEntry_of_entries ?_ hentries entry
      ((sortStrings_perm normalized).mem_iff.mp hentry)
    intro entry hmem
    cases hmem

theorem IsScopeEntry.identity (h : IsScopeEntry entry) :
    toSlashes (normalizePathIdentity entry) = entry := by
  rw [normalizePathIdentity, h.normal.normalize, toSlashes_eq_self h.backslash]

theorem IsScopeEntry.normalizePath (h : IsScopeEntry entry) :
    OpencodeSwarm.normalizePath entry = entry :=
  normalizePath_eq_self h.normal h.backslash

theorem exists_entry_of_scopeContains {candidate : JsString}
    (hscope : ∀ entry ∈ scope, IsScopeEntry entry) (h : scopeContains scope candidate = true) :
    ∃ entry ∈ scope, toSlashes (normalizePathIdentity candidate) = entry
      ∨ entry ++ [slash] <+: toSlashes (normalizePathIdentity candidate) := by
  rw [scopeContains, List.any_eq_true] at h
  obtain ⟨entry, hentry, hcovers⟩ := h
  refine ⟨entry, hentry, ?_⟩
  rw [(hscope entry hentry).identity, Bool.or_eq_true, beq_iff_eq,
    List.isPrefixOf_iff_prefix] at hcovers
  exact hcovers

end OpencodeSwarm
