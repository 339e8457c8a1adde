/-
  OpencodeSwarm.Lib.PosixPath

  The `path.posix` functions on JavaScript strings, over the segments between
  slashes.  A path is normal when no segment is empty, `.` or `..`; normal paths
  are fixed points, and the words between two slashes of `/p/` are its segments.
-/
import OpencodeSwarm.Lib.JsString

namespace Posix

open Js

/-! ## Segments -/

def slash : CodeUnit := 0x2F

def backslash : CodeUnit := 0x5C

def dot : CodeUnit := 0x2E

/-- `path.split('/')`. -/
def segments (path : JsString) : List JsString := path.splitOn slash

/-- `segments.join('/')`. -/
def join (parts : List JsString) : JsString := [slash].intercalate parts

/-- `text.replace(/\\/g, '/')`. -/
def toSlashes (text : JsString) : JsString := text.map fun c => if c = backslash then slash else c

theorem join_segments (path : JsString) : join (segments path) = path :=
  List.intercalate_splitOn slash

variable {parts : List JsString}

theorem segments_join (hslash : ∀ part ∈ parts, slash ∉ part) (hne : parts ≠ []) :
    segments (join parts) = parts :=
  List.splitOn_intercalate slash hslash hne

theorem segments_append (left right : JsString) :
    segments (left ++ slash :: right) = segments left ++ segments right :=
  List.splitOn_append_cons_self left right

variable {path segment : JsString}

theorem slash_notMem_of_mem_segments (h : segment ∈ segments path) : slash ∉ segment := by
  unfold segments at h
  induction path generalizing segment with
  | nil =>
    rw [List.splitOn_nil, List.mem_singleton] at h
    rw [h]
    exact List.not_mem_nil
  | cons c rest ih =>
    rw [List.splitOn_cons_eq_if_modifyHead] at h
    split at h
    · rcases List.mem_cons.mp h with rfl | htail
      · exact List.not_mem_nil
      · exact ih htail
    · rename_i hc
      cases hsegments : rest.splitOn slash with
      | nil => exact absurd hsegments (List.splitOn_ne_nil slash rest)
      | cons first others =>
        rw [hsegments, List.modifyHead_cons] at h
        rw [hsegments] at ih
        rcases List.mem_cons.mp h with rfl | htail
        · have hfirst := ih List.mem_cons_self
          simp only [List.mem_cons, not_or]
          exact ⟨fun heq => hc (by simp [heq]), hfirst⟩
        · exact ih (List.mem_cons_of_mem _ htail)

variable {word : JsString}

/-- A slash-free word between two slashes of `/path/` is a segment. -/
theorem mem_segments_of_within (hword : slash ∉ word)
    (h : slash :: (word ++ [slash]) <:+: slash :: (path ++ [slash])) : word ∈ segments path := by
  obtain ⟨before, after, heq⟩ := h
  have hshape : before ++ slash :: (word ++ slash :: after) = slash :: (path ++ [slash]) := by
    rw [← heq]
    simp
  have hleft : segments (before ++ slash :: (word ++ slash :: after))
      = segments before ++ (word :: segments after) := by
    rw [segments_append, segments_append]
    have hsingle : segments word = [word] := List.splitOn_eq_singleton hword
    rw [hsingle]
    rfl
  have hright : segments (slash :: (path ++ [slash])) = [] :: (segments path ++ [[]]) := by
    have hstart : slash :: (path ++ [slash]) = [] ++ slash :: (path ++ slash :: []) := rfl
    rw [hstart, segments_append, segments_append]
    rfl
  have hsegments : segments before ++ (word :: segments after)
      = [] :: (segments path ++ [[]]) := by
    rw [← hleft, hshape, hright]
  -- the word stands between the two empty outer segments
  cases hbefore : segments before with
  | nil => exact absurd hbefore (List.splitOn_ne_nil slash before)
  | cons first rest =>
    rw [hbefore, List.cons_append, List.cons.injEq] at hsegments
    have hinner := hsegments.2
    rcases List.eq_nil_or_concat (segments after) with hafter | ⟨others, last, hafter⟩
    · exact absurd hafter (List.splitOn_ne_nil slash after)
    · rw [hafter, List.concat_eq_append, ← List.cons_append, ← List.append_assoc] at hinner
      have hpath := (List.append_inj' hinner rfl).1
      rw [← hpath]
      simp

/-! ## Normal paths -/

/-- No segment is empty, `.` or `..`. -/
def IsNormal (path : JsString) : Prop :=
  ∀ segment ∈ segments path, segment ≠ [] ∧ segment ≠ [dot] ∧ segment ≠ [dot, dot]

theorem IsNormal.ne_nil (h : IsNormal path) : path ≠ [] := by
  rintro rfl
  exact (h [] (by simp [segments])).1 rfl

theorem IsNormal.not_within (h : IsNormal path)
    (hword : word = [] ∨ word = [dot] ∨ word = [dot, dot]) :
    ¬ slash :: (word ++ [slash]) <:+: slash :: (path ++ [slash]) := by
  intro hwithin
  have hfree : slash ∉ word := by rcases hword with rfl | rfl | rfl <;> decide
  have hsegment := h word (mem_segments_of_within hfree hwithin)
  rcases hword with rfl | rfl | rfl
  · exact hsegment.1 rfl
  · exact hsegment.2.1 rfl
  · exact hsegment.2.2 rfl

/-! ## `path.posix.normalize` -/

/-- One segment over the stack of those before it, the last one first. -/
def pushSegment (allowAboveRoot : Bool) (stack : List JsString) (segment : JsString) :
    List JsString :=
  if segment = [] ∨ segment = [dot] then stack
  else if segment = [dot, dot] then
    match stack with
    | [] => if allowAboveRoot then [segment] else []
    | top :: rest =>
      if top = [dot, dot] then if allowAboveRoot then segment :: stack else stack
      else rest
  else segment :: stack

/-- `normalizeString`, on segments. -/
def normalizeSegments (allowAboveRoot : Bool) (parts : List JsString) : List JsString :=
  (parts.foldl (pushSegment allowAboveRoot) []).reverse

def isAbsolute (path : JsString) : Bool := path.head? == some slash

def normalize (path : JsString) : JsString :=
  if path = [] then [dot]
  else
    let trailing := endsWith path [slash]
    let parts := normalizeSegments (!isAbsolute path) (segments path)
    if parts = [] then
      if isAbsolute path then [slash] else if trailing then [dot, slash] else [dot]
    else
      (if isAbsolute path then [slash] else []) ++ join parts ++ if trailing then [slash] else []

/-- `path.posix.resolve(cwd, path)`. -/
def resolve (cwd path : JsString) : JsString :=
  let whole := if isAbsolute path then path else cwd ++ slash :: path
  slash :: join (normalizeSegments false (segments whole))

/-- The segments of a resolved path. -/
def rootSegments (path : JsString) : List JsString := (segments path).filter (· ≠ [])

/-- What is left of two lists behind their common beginning. -/
def afterCommon : List JsString → List JsString → List JsString × List JsString
  | a :: as, b :: bs => if a = b then afterCommon as bs else (a :: as, b :: bs)
  | as, bs => (as, bs)

/-- `path.posix.relative`, of two resolved paths. -/
def relative (start target : JsString) : JsString :=
  let (up, down) := afterCommon (rootSegments start) (rootSegments target)
  join (up.map (fun _ => [dot, dot]) ++ down)

variable {allowAboveRoot : Bool} {stack : List JsString}

theorem pushSegment_skip (h : segment = [] ∨ segment = [dot]) :
    pushSegment allowAboveRoot stack segment = stack := by
  unfold pushSegment
  rw [if_pos h]

theorem pushSegment_push (h : ¬ (segment = [] ∨ segment = [dot])) (hup : segment ≠ [dot, dot]) :
    pushSegment allowAboveRoot stack segment = segment :: stack := by
  unfold pushSegment
  rw [if_neg h, if_neg hup]

theorem normalizeSegments_eq_filter (hup : [dot, dot] ∉ parts) :
    normalizeSegments allowAboveRoot parts = parts.filter fun part => part ≠ [] ∧ part ≠ [dot] := by
  have hfold : ∀ stack, parts.foldl (pushSegment allowAboveRoot) stack
      = (parts.filter fun part => part ≠ [] ∧ part ≠ [dot]).reverse ++ stack := by
    induction parts with
    | nil =>
      intro stack
      rfl
    | cons part rest ih =>
      intro stack
      simp only [List.mem_cons, not_or] at hup
      rw [List.foldl_cons, ih hup.2]
      by_cases hpart : part = [] ∨ part = [dot]
      · have hdrop : ¬ (part ≠ [] ∧ part ≠ [dot]) := by tauto
        rw [pushSegment_skip hpart, List.filter_cons, if_neg (by simpa using hdrop)]
      · have hkeep : part ≠ [] ∧ part ≠ [dot] := by tauto
        rw [pushSegment_push hpart (Ne.symm hup.1), List.filter_cons,
          if_pos (by simpa using hkeep)]
        simp
  rw [normalizeSegments, hfold, List.append_nil, List.reverse_reverse]

theorem IsNormal.normalizeSegments (h : IsNormal path) :
    Posix.normalizeSegments allowAboveRoot (segments path) = segments path := by
  have hup : [dot, dot] ∉ segments path := fun hmem => (h _ hmem).2.2 rfl
  rw [normalizeSegments_eq_filter hup, List.filter_eq_self]
  intro segment hsegment
  have hproper := h segment hsegment
  simp [hproper.1, hproper.2.1]

theorem IsNormal.not_endsWith_slash (h : IsNormal path) : endsWith path [slash] = false := by
  rw [endsWith, Bool.eq_false_iff, ne_eq, List.isSuffixOf_iff_suffix]
  rintro ⟨before, heq⟩
  refine h.not_within (Or.inl rfl) ⟨slash :: before, [], ?_⟩
  rw [← heq]
  simp

theorem IsNormal.not_isAbsolute (h : IsNormal path) : isAbsolute path = false := by
  cases path with
  | nil => rfl
  | cons c rest =>
    by_cases hc : c = slash
    · rw [hc] at h
      refine absurd ⟨[], rest ++ [slash], ?_⟩ (h.not_within (Or.inl rfl))
      simp
    · simp [isAbsolute, hc]

theorem IsNormal.normalize (h : IsNormal path) : Posix.normalize path = path := by
  have hparts : segments path ≠ [] := List.splitOn_ne_nil slash path
  rw [Posix.normalize, if_neg h.ne_nil]
  simp only [h.normalizeSegments, hparts, h.not_isAbsolute, h.not_endsWith_slash, if_false,
    Bool.false_eq_true, List.nil_append, List.append_nil]
  exact join_segments path

theorem toSlashes_eq_self {text : JsString} (h : backslash ∉ text) : toSlashes text = text := by
  have hsame : ∀ c ∈ text, (if c = backslash then slash else c) = id c := by
    intro c hc
    have hne : c ≠ backslash := fun heq => h (heq ▸ hc)
    rw [if_neg hne, id_eq]
  rw [toSlashes, List.map_congr_left hsame, List.map_id]

theorem backslash_notMem_toSlashes (text : JsString) : backslash ∉ toSlashes text := by
  intro hmem
  obtain ⟨c, -, hc⟩ := List.mem_map.mp hmem
  split at hc
  · cases hc
  · contradiction

end Posix
