/-
  OpencodeSwarm.Text.NormalizedSpans

  The spans that matches in a normalized text go back to: they stand for the pattern
  exactly when no match begins behind the first space of a longer run of blanks, and
  none ends inside a typographic character.
-/
import OpencodeSwarm.Text.CollapsedBlanks

namespace OpencodeSwarm

open Js

/-! ## Exact matches -/

section Exact

variable {content pattern : JsString}

theorem indexOf_nil (s : JsString) : indexOf [] s = some 0 := by
  cases s with
  | nil => rfl
  | cons c rest => rfl

theorem indexOf_spec {s : JsString} {found : Nat} (h : indexOf pattern s = some found) :
    found + pattern.length ≤ s.length ∧ sliceOf s found (found + pattern.length) = pattern := by
  induction s generalizing found with
  | nil =>
    unfold indexOf at h
    split at h
    · next hnil =>
      cases h
      rw [hnil]
      exact ⟨le_refl _, rfl⟩
    · cases h
  | cons c rest ih =>
    unfold indexOf at h
    split at h
    · next hbegins =>
      cases h
      have hopens := List.isPrefixOf_iff_prefix.mp hbegins
      refine ⟨by rw [Nat.zero_add]; exact hopens.length_le, ?_⟩
      rw [sliceOf, Nat.zero_add, List.drop_zero]
      exact (List.prefix_iff_eq_take.mp hopens).symm
    · obtain ⟨before, hbefore, rfl⟩ := Option.map_eq_some_iff.mp h
      obtain ⟨hle, hslice⟩ := ih hbefore
      refine ⟨by rw [List.length_cons]; omega, ?_⟩
      have hshift : before + 1 + pattern.length = before + pattern.length + 1 := by omega
      unfold sliceOf at hslice ⊢
      rw [hshift, List.take_succ_cons, List.drop_succ_cons, hslice]

/-- Matches of a pattern from a position on, one behind the other. -/
structure ExactMatches (content pattern : JsString) (start : Nat) (spans : List Span) : Prop where
  from_le : ∀ span ∈ spans, start ≤ span.1
  stop_eq : ∀ span ∈ spans, span.2 = span.1 + pattern.length
  stop_le : ∀ span ∈ spans, span.2 ≤ content.length
  slice_eq : ∀ span ∈ spans, sliceOf content span.1 span.2 = pattern
  ordered : spans.Pairwise fun earlier later => earlier.2 ≤ later.1

theorem ExactMatches.nil (start : Nat) : ExactMatches content pattern start [] where
  from_le := List.forall_mem_nil _
  stop_eq := List.forall_mem_nil _
  stop_le := List.forall_mem_nil _
  slice_eq := List.forall_mem_nil _
  ordered := List.Pairwise.nil

theorem ExactMatches.cons {start pos : Nat} {spans : List Span}
    (h : ExactMatches content pattern (pos + pattern.length) spans) (hstart : start ≤ pos)
    (hstop : pos + pattern.length ≤ content.length)
    (hslice : sliceOf content pos (pos + pattern.length) = pattern) :
    ExactMatches content pattern start ((pos, pos + pattern.length) :: spans) where
  from_le := List.forall_mem_cons.mpr ⟨hstart, fun span hspan => by
    have hlater := h.from_le span hspan
    omega⟩
  stop_eq := List.forall_mem_cons.mpr ⟨rfl, h.stop_eq⟩
  stop_le := List.forall_mem_cons.mpr ⟨hstop, h.stop_le⟩
  slice_eq := List.forall_mem_cons.mpr ⟨hslice, h.slice_eq⟩
  ordered := List.pairwise_cons.mpr ⟨h.from_le, h.ordered⟩

theorem exactFrom_spec (hpattern : pattern ≠ []) (rounds start : Nat)
    (hstart : start ≤ content.length) (hrounds : content.length < start + rounds) :
    ∃ spans, exactFrom content pattern rounds start = some spans
      ∧ ExactMatches content pattern start spans := by
  induction rounds generalizing start with
  | zero => exact absurd hrounds (by omega)
  | succ rounds ih =>
    have hlength : 0 < pattern.length := List.length_pos_of_ne_nil hpattern
    unfold exactFrom
    cases hindex : indexOf pattern (content.drop start) with
    | none => exact ⟨[], rfl, ExactMatches.nil start⟩
    | some found =>
      obtain ⟨hle, hslice⟩ := indexOf_spec hindex
      rw [List.length_drop] at hle
      obtain ⟨spans, hspans, hmatches⟩ :=
        ih (start + found + pattern.length) (by omega) (by omega)
      refine ⟨_, Option.map_eq_some_iff.mpr ⟨spans, hspans, rfl⟩,
        hmatches.cons (by omega) (by omega) ?_⟩
      have hshift : start + found + pattern.length = start + (found + pattern.length) := by omega
      have hnested : sliceOf content (start + found) (start + (found + pattern.length))
          = sliceOf (content.drop start) found (found + pattern.length) := by
        unfold sliceOf
        rw [List.take_drop, List.drop_drop]
      rw [hshift, hnested, hslice]

theorem strategyExact_spec (hpattern : pattern ≠ []) :
    ∃ spans, strategyExact content pattern = some spans ∧ ExactMatches content pattern 0 spans :=
  exactFrom_spec hpattern _ 0 (Nat.zero_le _) (by omega)

theorem strategyExact_nil (content : JsString) : strategyExact content [] = none := by
  have hall : ∀ rounds start, exactFrom content [] rounds start = none := by
    intro rounds
    induction rounds with
    | zero => exact fun _ => rfl
    | succ rounds ih =>
      intro start
      rw [exactFrom, indexOf_nil]
      dsimp only
      rw [ih]
      rfl
  exact hall _ 0

variable {spans : List Span}

theorem exactMatches_of_strategyExact (h : strategyExact content pattern = some spans) :
    pattern ≠ [] ∧ ExactMatches content pattern 0 spans := by
  have hpattern : pattern ≠ [] := by
    rintro rfl
    rw [strategyExact_nil] at h
    cases h
  obtain ⟨spans', hspans, hmatches⟩ := strategyExact_spec hpattern
  rw [h] at hspans
  exact ⟨hpattern, Option.some.inj hspans ▸ hmatches⟩

theorem ExactMatches.lt {start : Nat} (h : ExactMatches content pattern start spans)
    (hpattern : pattern ≠ []) {span : Span} (hspan : span ∈ spans) : span.1 < span.2 := by
  have hlength : 0 < pattern.length := List.length_pos_of_ne_nil hpattern
  have hstop := h.stop_eq span hspan
  omega

end Exact

/-! ## Collapsed blanks -/

/-- Every span of strategy 3 is collapsed to the collapsed pattern. -/
def MapsBackCollapsed (content pattern : JsString) : Prop :=
  ∀ spans, strategyWhitespaceNormalized content pattern = some spans → ∀ span ∈ spans,
    collapseBlanks (sliceOf content span.1 span.2) = collapseBlanks pattern

/-- No match of the collapsed pattern begins behind a space that another blank follows. -/
def BeginsAtWords (content pattern : JsString) : Prop :=
  ∀ found, strategyExact (collapseBlanks content) (collapseBlanks pattern) = some found →
    ∀ span ∈ found, ¬ SpaceThenBlank content span.1

theorem mapsBackCollapsed_iff (content pattern : JsString) :
    MapsBackCollapsed content pattern ↔ BeginsAtWords content pattern := by
  have hone : ∀ found, strategyExact (collapseBlanks content) (collapseBlanks pattern) = some found →
      ∀ span ∈ found, ∀ mapped, mapped = mapNormalizedSpan content (collapseBlanks content)
        (blankWalk (collapseBlanks content).length content (collapseBlanks content) 0) span →
      (collapseBlanks (sliceOf content mapped.1 mapped.2) = collapseBlanks pattern
        ↔ ¬ SpaceThenBlank content span.1) := by
    rintro found hfound span hspan mapped rfl
    obtain ⟨hpattern, hmatches⟩ := exactMatches_of_strategyExact hfound
    obtain ⟨start, stop, hmapped, hless, hstop, hstart, hend, hrun, -⟩ :=
      mapNormalizedSpan_spec (hmatches.lt hpattern hspan) (hmatches.stop_le span hspan)
    rw [hmapped, ← hmatches.slice_eq span hspan]
    exact collapseBlanks_span_iff hless hstop hstart hend hrun
  constructor
  · intro hmaps found hfound span hspan
    refine (hone found hfound span hspan _ rfl).mp (hmaps _ ?_ _ (List.mem_map_of_mem hspan))
    rw [strategyWhitespaceNormalized, hfound]
    rfl
  · intro hbegins spans hspans mapped hmapped
    obtain ⟨found, hfound, rfl⟩ := Option.map_eq_some_iff.mp hspans
    obtain ⟨span, hspan, rfl⟩ := List.mem_map.mp hmapped
    exact (hone found hfound span hspan _ rfl).mpr (hbegins found hfound span hspan)

/-! ## Typographic characters -/

/-- Every span that strategy 7 finds by an exact match is normalized to the normalized pattern. -/
def MapsBackUnicode (content pattern : JsString) : Prop :=
  ∀ found, strategyExact (unicodeNormalize content) (unicodeNormalize pattern) = some found →
    found ≠ [] → ∀ spans, strategyUnicodeNormalized content pattern = some spans →
    ∀ span ∈ spans, unicodeNormalize (sliceOf content span.1 span.2) = unicodeNormalize pattern

/-- A match of the normalized pattern that begins between characters ends between them. -/
def EndsBetweenCharacters (content pattern : JsString) : Prop :=
  ∀ found, strategyExact (unicodeNormalize content) (unicodeNormalize pattern) = some found →
    ∀ span ∈ found, BetweenCharacters content span.1 → BetweenCharacters content span.2

section Unicode

variable {content : JsString}

theorem mappedPosition_spec {span : Span} {start : Nat} (hspan : span.1 ≤ span.2)
    (hstop : span.2 ≤ (unicodeNormalize content).length)
    (hstart : OrderedMap.get? (normToOrig (buildOrigToNormMap content)) span.1 = some start) :
    ∃ stop, advanceEnd (buildOrigToNormMap content) content.length span.2
        (content.length - start) start = stop
      ∧ start ≤ stop ∧ stop ≤ content.length ∧ normLength content start = span.1
      ∧ span.2 ≤ normLength content stop ∧ (∀ t < stop, normLength content t < span.2)
      ∧ (normLength content stop = span.2 ↔ BetweenCharacters content span.2) := by
  obtain ⟨hlt, hposition⟩ := get?_normToOrig_iff.mp hstart
  obtain ⟨hle, hlast, hreach, hbefore⟩ := @advanceEnd_spec content span.2
    (by rw [normLength_length]; exact hstop) (content.length - start) start (by omega)
  obtain ⟨stop, heq⟩ : ∃ stop, advanceEnd (buildOrigToNormMap content) content.length span.2
      (content.length - start) start = stop := ⟨_, rfl⟩
  rw [heq] at hle hlast hreach hbefore
  have hall : ∀ t < stop, normLength content t < span.2 := by
    intro t ht
    by_cases hfar : start ≤ t
    · exact hbefore t hfar ht
    · have hshort := normLength_lt (show t < start by omega) hlt.le
      omega
  refine ⟨stop, heq, hle, hlast, hposition, hreach, hall, ?_, ?_⟩
  · exact fun hend => ⟨stop, hlast, hend⟩
  · rintro ⟨k, hk, hend⟩
    -- the first position that is far enough is the one between the characters
    have hfar : stop ≤ k := by
      by_contra hnear
      have hshort := hall k (by omega)
      omega
    have hmono := normLength_le hfar hk
    omega

variable {position : Nat}

theorem exists_get?_normToOrig (hlt : position < (unicodeNormalize content).length)
    (h : BetweenCharacters content position) :
    ∃ start, OrderedMap.get? (normToOrig (buildOrigToNormMap content)) position = some start := by
  obtain ⟨k, hk, hposition⟩ := h
  refine ⟨k, get?_normToOrig_iff.mpr ⟨?_, hposition⟩⟩
  by_contra hend
  have hlength : k = content.length := by omega
  rw [hlength, normLength_length] at hposition
  omega

theorem betweenCharacters_of_normal (h : unicodeNormalize content = content)
    (hle : position ≤ content.length) : BetweenCharacters content position := by
  refine ⟨position, hle, ?_⟩
  rw [normLength, unicodeNormalize_of_normal, List.length_take, Nat.min_eq_left hle]
  intro c hc
  have hmem : c ∈ unicodeNormalize content := by
    rw [h]
    exact List.mem_of_mem_take hc
  exact normal_of_mem_unicodeNormalize hmem

theorem mem_mapPositionsNormToOrig {normMatches : List Span} {mapped : Span} :
    mapped ∈ mapPositionsNormToOrig (buildOrigToNormMap content) normMatches
      ↔ ∃ span ∈ normMatches, ∃ start,
        OrderedMap.get? (normToOrig (buildOrigToNormMap content)) span.1 = some start
        ∧ mapped = (start, advanceEnd (buildOrigToNormMap content) content.length span.2
          (content.length - start) start) := by
  rw [mapPositionsNormToOrig, length_buildOrigToNormMap, Nat.add_sub_cancel]
  rw [List.mem_filterMap]
  refine exists_congr fun span => and_congr_right fun _ => ?_
  rw [Option.map_eq_some_iff]
  exact exists_congr fun start => and_congr_right fun _ => eq_comm

end Unicode

theorem mapsBackUnicode_iff (content pattern : JsString) :
    MapsBackUnicode content pattern ↔ EndsBetweenCharacters content pattern := by
  have hone : ∀ found, strategyExact (unicodeNormalize content) (unicodeNormalize pattern)
        = some found → ∀ span ∈ found, ∀ start stop,
      OrderedMap.get? (normToOrig (buildOrigToNormMap content)) span.1 = some start →
      advanceEnd (buildOrigToNormMap content) content.length span.2
          (content.length - start) start = stop →
      (unicodeNormalize (sliceOf content start stop) = unicodeNormalize pattern
        ↔ BetweenCharacters content span.2) := by
    intro found hfound span hspan start stop hstart hstop
    obtain ⟨hpattern, hmatches⟩ := exactMatches_of_strategyExact hfound
    obtain ⟨stop', hstop', hstartLe, hle, hposition, hreach, -, hbetween⟩ :=
      mappedPosition_spec (hmatches.lt hpattern hspan).le (hmatches.stop_le span hspan) hstart
    rw [hstop] at hstop'
    subst hstop'
    rw [← hbetween, unicodeNormalize_sliceOf hstartLe, hposition]
    constructor
    · intro heq
      have hlength := congrArg List.length heq
      have hend : normLength content stop ≤ (unicodeNormalize content).length := by
        rw [← normLength_length]
        exact normLength_le hle (le_refl _)
      have hwhole := hmatches.stop_eq span hspan
      rw [length_sliceOf _ hend] at hlength
      omega
    · intro heq
      rw [heq, hmatches.slice_eq span hspan]
  by_cases hnormal : unicodeNormalize content = content ∧ unicodeNormalize pattern = pattern
  · -- nothing is tried, and nothing could be cut
    refine iff_of_true ?_ ?_
    · intro found _ _ spans hspans span hspan
      rw [strategyUnicodeNormalized, if_pos hnormal] at hspans
      cases hspans
      cases hspan
    · intro found hfound span hspan _
      obtain ⟨-, hmatches⟩ := exactMatches_of_strategyExact hfound
      have hle := hmatches.stop_le span hspan
      rw [hnormal.1] at hle
      exact betweenCharacters_of_normal hnormal.1 hle
  · have hmapped : ∀ found, strategyExact (unicodeNormalize content) (unicodeNormalize pattern)
        = some found → found ≠ [] → strategyUnicodeNormalized content pattern
          = some (mapPositionsNormToOrig (buildOrigToNormMap content) found) := by
      intro found hfound hne
      rw [strategyUnicodeNormalized, if_neg hnormal, hfound, Option.map_some, if_neg hne]
    constructor
    · intro hmaps found hfound span hspan hbegin
      obtain ⟨hpattern, hmatches⟩ := exactMatches_of_strategyExact hfound
      have hlt := hmatches.lt hpattern hspan
      have hle := hmatches.stop_le span hspan
      obtain ⟨start, hstart⟩ := exists_get?_normToOrig (by omega) hbegin
      have hne : found ≠ [] := List.ne_nil_of_mem hspan
      refine (hone found hfound span hspan start _ hstart rfl).mp ?_
      exact hmaps found hfound hne _ (hmapped found hfound hne) (start, _)
        (mem_mapPositionsNormToOrig.mpr ⟨span, hspan, start, hstart, rfl⟩)
    · intro hends found hfound hne spans hspans mapped hmem
      rw [hmapped found hfound hne] at hspans
      rw [← Option.some.inj hspans] at hmem
      obtain ⟨span, hspan, start, hstart, rfl⟩ := mem_mapPositionsNormToOrig.mp hmem
      obtain ⟨hlt, hposition⟩ := get?_normToOrig_iff.mp hstart
      refine (hone found hfound span hspan start _ hstart rfl).mpr ?_
      exact hends found hfound span hspan ⟨start, hlt.le, hposition⟩

/-! ## Both strategies -/

/-- Normalized matches go back to text that really matches exactly when none of strategy 3
    begins behind the first space of a longer run and none of strategy 7 ends inside a
    character. -/
theorem mapsBack_iff (content pattern : JsString) :
    MapsBackCollapsed content pattern ∧ MapsBackUnicode content pattern
      ↔ BeginsAtWords content pattern ∧ EndsBetweenCharacters content pattern :=
  and_congr (mapsBackCollapsed_iff content pattern) (mapsBackUnicode_iff content pattern)

/-- Two spaces before the match: the second one is taken along. -/
theorem not_mapsBack_twoSpaces : ¬ ∀ content pattern : JsString,
    MapsBackCollapsed content pattern ∧ MapsBackUnicode content pattern := by
  intro hall
  obtain ⟨hcollapsed, -⟩ := hall [0x61, 0x20, 0x20, 0x62, 0x09, 0x63] [0x62, 0x20, 0x63]
  have hspan := hcollapsed [(2, 6)] (by decide +kernel) (2, 6) (List.mem_singleton_self _)
  exact absurd hspan (by decide +kernel)

end OpencodeSwarm
