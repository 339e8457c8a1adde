/-
  OpencodeSwarm.Text.FuzzyReplace

  What the chain of strategies does to a content: the first strategy that finds spans
  has them in order and in bounds, and replacing them is right exactly when no two of
  them share a character.
-/
import OpencodeSwarm.Text.LineWindows

namespace OpencodeSwarm

open Js

/-! ## Lines of a normalized text -/

section NormalizedLines

theorem lineFeed_notMem_normalizedChar {c : CodeUnit} (hc : c ≠ lineFeedUnit) :
    lineFeedUnit ∉ normalizedChar c := by
  have hall : (unicodeMap.all fun entry => decide (lineFeedUnit ∉ entry.2)) = true := by decide
  unfold normalizedChar unicodeReplacement
  cases hfind : unicodeMap.find? fun entry => entry.1 = c with
  | none => exact fun hmem => hc (List.mem_singleton.mp hmem).symm
  | some entry =>
    exact of_decide_eq_true (List.all_eq_true.mp hall entry (List.mem_of_find?_eq_some hfind))

theorem unicodeNormalize_lineFeed : unicodeNormalize [lineFeedUnit] = [lineFeedUnit] := by
  decide

theorem lineFeed_notMem_unicodeNormalize {line : JsString} (h : lineFeedUnit ∉ line) :
    lineFeedUnit ∉ unicodeNormalize line := by
  rw [unicodeNormalize_eq]
  intro hmem
  obtain ⟨c, hc, hin⟩ := List.mem_flatMap.mp hmem
  exact lineFeed_notMem_normalizedChar (fun heq => h (heq ▸ hc)) hin

theorem unicodeNormalize_unlines (lines : List JsString) :
    unicodeNormalize (TextLines.unlines lineFeedUnit lines)
      = TextLines.unlines lineFeedUnit (lines.map unicodeNormalize) := by
  unfold TextLines.unlines
  rw [unicodeNormalize_flatMap, List.flatMap_map]
  exact List.flatMap_congr fun line _ => by
    rw [unicodeNormalize_append, unicodeNormalize_lineFeed]

theorem linesOf_unicodeNormalize (content : JsString) :
    linesOf (unicodeNormalize content) = (linesOf content).map unicodeNormalize := by
  obtain ⟨lines, tail, rfl, hlines, htail⟩ := TextLines.exists_unlines lineFeedUnit content
  have hsplit : linesOf (TextLines.unlines lineFeedUnit lines ++ tail) = lines ++ [tail] :=
    TextLines.splitOn_unlines_append hlines htail
  have hnormal : ∀ line ∈ lines.map unicodeNormalize, lineFeedUnit ∉ line := by
    intro line hline
    obtain ⟨original, horiginal, rfl⟩ := List.mem_map.mp hline
    exact lineFeed_notMem_unicodeNormalize (hlines original horiginal)
  rw [hsplit, unicodeNormalize_append, unicodeNormalize_unlines, List.map_append]
  exact TextLines.splitOn_unlines_append hnormal (lineFeed_notMem_unicodeNormalize htail)

theorem betweenCharacters_lineStart (content : JsString) {i : Nat}
    (hi : i < (linesOf content).length) :
    BetweenCharacters content (lineStart (linesOf (unicodeNormalize content)) i) := by
  rw [linesOf_unicodeNormalize]
  obtain ⟨lines, tail, rfl, hlines, htail⟩ := TextLines.exists_unlines lineFeedUnit content
  have hsplit : linesOf (TextLines.unlines lineFeedUnit lines ++ tail) = lines ++ [tail] :=
    TextLines.splitOn_unlines_append hlines htail
  rw [hsplit, List.length_append, List.length_singleton] at hi
  have hfront : (lines ++ [tail]).take i = lines.take i :=
    List.take_append_of_le_length (by omega)
  have hdivide : TextLines.unlines lineFeedUnit lines ++ tail
    = TextLines.unlines lineFeedUnit (lines.take i)
      ++ (TextLines.unlines lineFeedUnit (lines.drop i) ++ tail) := by
    rw [← List.append_assoc, ← TextLines.unlines_append, List.take_append_drop]
  refine ⟨(TextLines.unlines lineFeedUnit (lines.take i)).length, ?_, ?_⟩
  · rw [hdivide, List.length_append]
    exact Nat.le_add_right _ _
  · unfold normLength lineStart
    rw [hsplit, hdivide, List.take_left, unicodeNormalize_unlines, length_unlines, ← List.map_take,
      hfront]

end NormalizedLines

/-! ## Spans in original coordinates -/

section Mapped

variable {content : JsString} {normSpans : List Span}

theorem mapped_bounds (hin : SpansIn (unicodeNormalize content) normSpans) {mapped : Span}
    (h : mapped ∈ mapPositionsNormToOrig (buildOrigToNormMap content) normSpans) :
    ∃ span ∈ normSpans, mapped.1 ≤ mapped.2 ∧ mapped.2 ≤ content.length
      ∧ normLength content mapped.1 = span.1 ∧ span.2 ≤ normLength content mapped.2
      ∧ ∀ t < mapped.2, normLength content t < span.2 := by
  obtain ⟨span, hspan, start, hstart, rfl⟩ := mem_mapPositionsNormToOrig.mp h
  obtain ⟨stop, hstop, hle, hend, hposition, hreach, hbefore, -⟩ :=
    mappedPosition_spec (hin.le span hspan) (hin.stop_le span hspan) hstart
  rw [hstop]
  exact ⟨span, hspan, hle, hend, hposition, hreach, hbefore⟩

theorem spansIn_mapPositions (hin : SpansIn (unicodeNormalize content) normSpans) :
    SpansIn content (mapPositionsNormToOrig (buildOrigToNormMap content) normSpans) where
  le := fun mapped hmapped => by
    obtain ⟨_, _, hle, _⟩ := mapped_bounds hin hmapped
    exact hle
  stop_le := fun mapped hmapped => by
    obtain ⟨_, _, _, hend, _⟩ := mapped_bounds hin hmapped
    exact hend
  ascending := by
    rw [mapPositionsNormToOrig, List.pairwise_filterMap]
    refine hin.ascending.imp ?_
    intro a b hless a' ha' b' hb'
    obtain ⟨start, hstart, rfl⟩ := Option.map_eq_some_iff.mp ha'
    obtain ⟨start', hstart', rfl⟩ := Option.map_eq_some_iff.mp hb'
    obtain ⟨hlt, hposition⟩ := get?_normToOrig_iff.mp hstart
    obtain ⟨hlt', hposition'⟩ := get?_normToOrig_iff.mp hstart'
    show start < start'
    by_contra hnot
    have hmono := normLength_le (show start' ≤ start by omega) hlt.le
    omega

/-- Spans that are separate in the normalized text are separate in the original. -/
theorem separate_mapPositions (hin : SpansIn (unicodeNormalize content) normSpans)
    (h : Separate normSpans) :
    Separate (mapPositionsNormToOrig (buildOrigToNormMap content) normSpans) := by
  rw [(spansIn_mapPositions hin).separate_iff]
  rw [hin.separate_iff] at h
  intro a ha b hb hless
  obtain ⟨span, hspan, hle, hend, hstart, -, hbefore⟩ := mapped_bounds hin ha
  obtain ⟨span', hspan', hle', hend', hstart', -, -⟩ := mapped_bounds hin hb
  have horder : span.1 < span'.1 := by
    rw [← hstart, ← hstart']
    exact normLength_lt hless (by omega)
  have hapart := h span hspan span' hspan' horder
  by_contra hnot
  have hshort := hbefore b.1 (by omega)
  omega

/-- Where every span begins between characters, the converse holds as well. -/
theorem separate_of_mapPositions (hin : SpansIn (unicodeNormalize content) normSpans)
    (hbegin : ∀ span ∈ normSpans, BetweenCharacters content span.1)
    (h : Separate (mapPositionsNormToOrig (buildOrigToNormMap content) normSpans)) :
    Separate normSpans := by
  rw [hin.separate_iff]
  rw [(spansIn_mapPositions hin).separate_iff] at h
  intro a ha b hb hless
  by_contra hshare
  have hstopA := hin.stop_le a ha
  have hleA := hin.le a ha
  obtain ⟨start, hstart⟩ := exists_get?_normToOrig (by omega) (hbegin a ha)
  obtain ⟨start', hstart'⟩ := exists_get?_normToOrig (by omega) (hbegin b hb)
  obtain ⟨stop, hstop, -, hend, hposition, hreach, -, -⟩ :=
    mappedPosition_spec hleA hstopA hstart
  obtain ⟨hlt, hat⟩ := get?_normToOrig_iff.mp hstart
  obtain ⟨hlt', hat'⟩ := get?_normToOrig_iff.mp hstart'
  have horder : start < start' := by
    by_contra hnot
    have hmono := normLength_le (show start' ≤ start by omega) hlt.le
    omega
  have hapart := h _ (mem_mapPositionsNormToOrig.mpr ⟨a, ha, start, hstart, rfl⟩) _
    (mem_mapPositionsNormToOrig.mpr ⟨b, hb, start', hstart', rfl⟩) horder
  dsimp only at hapart
  rw [hstop] at hapart
  have hmono := normLength_le hapart hlt'.le
  omega

end Mapped

/-! ## Spans of collapsed matches -/

/-- Behind a space that another blank follows, the collapsed text shows a space. -/
theorem collapsed_space_of_spaceThenBlank {content : JsString} {position : Nat}
    (h : SpaceThenBlank content position) :
    (collapseBlanks content)[position - 1]? = some 0x20 := by
  obtain ⟨i, hspace, -, hposition⟩ := h
  obtain ⟨hi, hchar⟩ := List.getElem?_eq_some_iff.mp hspace
  have hrun : runAfter false (content.take (i + 1)) = true := by
    rw [← List.take_append_getElem hi, runAfter_concat, hchar]
    rfl
  obtain ⟨before, hbefore⟩ := exists_collapsed_of_runAfter hrun
  have hlength : position = before.length + 1 := by
    rw [← hposition]
    rw [collapsedLength, hbefore, List.length_append]
    rfl
  have htake := collapseBlanks_take content (i + 1)
  rw [hposition, hbefore, hlength] at htake
  have hat := congrArg (fun text => text[before.length]?) htake
  rw [List.getElem?_concat_length, List.getElem?_take, if_pos (Nat.lt_succ_self _)] at hat
  rw [hlength, Nat.add_sub_cancel]
  exact hat.symm

/-- No match ends where another begins behind a space that another blank follows. -/
def CollapsedApart (content pattern : JsString) : Prop :=
  ∀ found, strategyExact (collapseBlanks content) (collapseBlanks pattern) = some found →
    ∀ a ∈ found, ∀ b ∈ found, a.2 = b.1 → ¬ SpaceThenBlank content b.1

section Collapsed

variable {content pattern : JsString} {start : Nat} {spans : List Span}

theorem ExactMatches.spansIn (h : ExactMatches content pattern start spans)
    (hpattern : pattern ≠ []) : SpansIn content spans where
  le := fun _ hspan => (h.lt hpattern hspan).le
  stop_le := h.stop_le
  ascending := h.ordered.imp_of_mem fun ha _ horder =>
    Nat.lt_of_lt_of_le (h.lt hpattern ha) horder

theorem ExactMatches.separate (h : ExactMatches content pattern start spans) : Separate spans :=
  h.ordered.imp Or.inl

theorem strategyWhitespaceNormalized_spec (hpattern : pattern ≠ []) :
    ∃ spans, strategyWhitespaceNormalized content pattern = some spans ∧ SpansIn content spans
      ∧ (Separate spans ↔ CollapsedApart content pattern) := by
  have hcollapsed : collapseBlanks pattern ≠ [] := fun h => hpattern (collapseBlanks_eq_nil h)
  obtain ⟨found, hfound, hmatches⟩ :=
    @strategyExact_spec (collapseBlanks content) (collapseBlanks pattern) hcollapsed
  obtain ⟨f, hf⟩ : ∃ f, mapNormalizedSpan content (collapseBlanks content) (blankWalk
      (collapseBlanks content).length content (collapseBlanks content) 0) = f := ⟨_, rfl⟩
  have hspec : ∀ span ∈ found, (f span).1 < (f span).2 ∧ (f span).2 ≤ content.length
      ∧ collapsedLength content (f span).1 = span.1 ∧ collapsedLength content (f span).2 = span.2
      ∧ (insideRun content (f span).1 = true ↔ SpaceThenBlank content span.1)
      ∧ (span.2 < (collapseBlanks content).length →
        (collapseBlanks content)[span.2 - 1]? = some 0x20 →
          blankAt content (f span).2 = false) := by
    intro span hspan
    obtain ⟨start, stop, hmapped, hall⟩ :=
      mapNormalizedSpan_spec (hmatches.lt hcollapsed hspan) (hmatches.stop_le span hspan)
    rw [hf] at hmapped
    rw [hmapped]
    exact hall
  have hin : SpansIn content (found.map f) := by
    refine ⟨?_, ?_, ?_⟩
    · intro mapped hmapped
      obtain ⟨span, hspan, rfl⟩ := List.mem_map.mp hmapped
      exact (hspec span hspan).1.le
    · intro mapped hmapped
      obtain ⟨span, hspan, rfl⟩ := List.mem_map.mp hmapped
      exact (hspec span hspan).2.1
    · rw [List.pairwise_map]
      refine (hmatches.spansIn hcollapsed).ascending.imp_of_mem ?_
      intro a b ha hb hless
      obtain ⟨hltA, hstopA, hstartA, -⟩ := hspec a ha
      obtain ⟨-, -, hstartB, -⟩ := hspec b hb
      by_contra hnot
      have hmono := collapsedLength_mono (show (f b).1 ≤ (f a).1 by omega)
        (show (f a).1 ≤ content.length by omega)
      omega
  refine ⟨found.map f, ?_, hin, ?_⟩
  · unfold strategyWhitespaceNormalized mapNormalizedPositions
    rw [hfound, hf, Option.map_some]
  · rw [Separate, List.pairwise_map, (hmatches.spansIn hcollapsed).pairwise_iff]
    rw [CollapsedApart, hfound]
    constructor
    · intro hall found' hsome a ha b hb htouch hspace
      rw [← Option.some.inj hsome] at ha hb
      obtain ⟨hltA, hstopA, hstartA, hendA, -, hword⟩ := hspec a ha
      obtain ⟨hltB, hstopB, hstartB, hendB, hrunB, -⟩ := hspec b hb
      have hlessA := hmatches.lt hcollapsed ha
      have hlessB := hmatches.lt hcollapsed hb
      have hendLe := hmatches.stop_le b hb
      have hinside := hrunB.mpr hspace
      have hendWord := hword (by omega)
        (by rw [htouch]; exact collapsed_space_of_spaceThenBlank hspace)
      have hle : (f a).2 ≤ (f b).1 := by
        rcases hall a ha b hb (by omega) with hfirst | hsecond
        · exact hfirst
        · have hmono := collapsedLength_mono (show (f b).2 ≤ (f a).1 from hsecond)
            (show (f a).1 ≤ content.length by omega)
          omega
      have hblank : blankAt content (f a).2 = true := by
        by_cases heq : (f a).2 = (f b).1
        · rw [heq]
          exact (insideRun_iff.mp hinside).2.2
        · have hcovered := insideRun_of_collapsedLength_eq
            (show (f b).1 ≤ content.length by omega)
            (show collapsedLength content (f a).2 = collapsedLength content (f b).1 by omega)
            (le_refl (f a).2) (by omega)
          exact (insideRun_iff.mp hcovered).2.2
      rw [hblank] at hendWord
      cases hendWord
    · intro hapart a ha b hb hless
      obtain ⟨hltA, hstopA, hstartA, hendA, -, -⟩ := hspec a ha
      obtain ⟨hltB, hstopB, hstartB, hendB, hrunB, -⟩ := hspec b hb
      have hordered : a.2 ≤ b.1 := by
        rcases (hmatches.spansIn hcollapsed).separate_iff.mp hmatches.separate a ha b hb hless with h
        exact h
      refine Or.inl ?_
      by_contra hshare
      have hmono := collapsedLength_mono (show (f b).1 ≤ (f a).2 by omega) hstopA
      -- the end of one lies inside the run before the other
      have htouch : a.2 = b.1 := by omega
      have hinside := insideRun_of_collapsedLength_eq hstopA
        (show collapsedLength content (f b).1 = collapsedLength content (f a).2 by omega)
        (le_refl (f b).1) (by omega)
      exact hapart found rfl a ha b hb htouch (hrunB.mp hinside)

end Collapsed

/-! ## Every strategy -/

/-- The windows of strategy 2. -/
def TrimmedApart (content pattern : JsString) : Prop :=
  WindowsApart (linesOf content) (linesOf (joinLines ((linesOf pattern).map trim))).length
    (blockMatches ((linesOf content).map trim) (joinLines ((linesOf pattern).map trim)))

/-- When the spans of a strategy share no character: always for exact matches, else if no two
    matching windows share a line, or no match of the collapsed text begins in the blanks that
    another one ends with. -/
def FuzzyStrategy.Apart (content pattern : JsString) : FuzzyStrategy → Prop
  | .exact | .escapeNormalized => True
  | .lineTrimmed => TrimmedApart content pattern
  | .whitespaceNormalized => CollapsedApart content pattern
  | .indentationFlexible =>
    WindowsApart (linesOf content) (linesOf (joinLines ((linesOf pattern).map stripLeading))).length
      (blockMatches ((linesOf content).map stripLeading)
        (joinLines ((linesOf pattern).map stripLeading)))
  | .trimmedBoundary =>
    WindowsApart (linesOf content) (trimEnds (linesOf pattern)).length
      (boundaryMatches (linesOf content) (trimEnds (linesOf pattern)))
  | .unicodeNormalized =>
    unicodeNormalize content ≠ content ∨ unicodeNormalize pattern ≠ pattern →
    strategyExact (unicodeNormalize content) (unicodeNormalize pattern) = some [] →
      TrimmedApart (unicodeNormalize content) (unicodeNormalize pattern)
  | .blockAnchor =>
    2 ≤ (linesOf (unicodeNormalize pattern)).length →
      WindowsApart (linesOf content) (linesOf (unicodeNormalize pattern)).length
        (anchorMatches (linesOf (unicodeNormalize content)) (linesOf (unicodeNormalize pattern)))
  | .contextAware =>
    (linesOf content).length * (linesOf pattern).length ≤ contextAwareMaxCells →
      WindowsApart (linesOf content) (linesOf pattern).length
        (contextMatches (linesOf content) (linesOf pattern))

section Strategies

variable {content pattern : JsString}

theorem findNormalizedMatches_spec (normalize : JsString → JsString)
    (patternNormalized : JsString) :
    SpansIn content (findNormalizedMatches content (linesOf content)
        ((linesOf content).map normalize) patternNormalized)
      ∧ (Separate (findNormalizedMatches content (linesOf content)
          ((linesOf content).map normalize) patternNormalized)
        ↔ WindowsApart (linesOf content) (linesOf patternNormalized).length
          (blockMatches ((linesOf content).map normalize) patternNormalized)) := by
  rw [findNormalizedMatches, List.length_map]
  have hcount := length_linesOf_pos patternNormalized
  exact ⟨spansIn_windowSpans hcount, separate_windowSpans_iff hcount⟩

theorem replacePair_ne_nil {c d repl : CodeUnit} {s : JsString} (h : s ≠ []) :
    replacePair c d repl s ≠ [] := by
  match s, h with
  | [a], _ => exact List.cons_ne_nil a []
  | a :: b :: rest, _ =>
    unfold replacePair
    split
    · exact List.cons_ne_nil _ _
    · exact List.cons_ne_nil _ _

theorem length_trimEnds_pos {lines : List JsString} (h : lines ≠ []) :
    0 < (trimEnds lines).length := by
  cases lines with
  | nil => exact absurd rfl h
  | cons first rest => exact Nat.succ_pos _

theorem unicodeNormalize_ne_nil (h : pattern ≠ []) : unicodeNormalize pattern ≠ [] := by
  cases pattern with
  | nil => exact absurd rfl h
  | cons c rest =>
    rw [unicodeNormalize_eq, List.flatMap_cons]
    intro hnil
    have hchar := (List.append_eq_nil_iff.mp hnil).1
    have hpositive := length_normalizedChar_pos c
    rw [hchar] at hpositive
    exact Nat.lt_irrefl 0 hpositive

/-- The windows of strategy 2 begin between characters when they are windows of a normalized
    text. -/
theorem betweenCharacters_of_mem_lineTrimmed {normPattern : JsString} {span : Span}
    (h : span ∈ strategyLineTrimmed (unicodeNormalize content) normPattern) :
    BetweenCharacters content span.1 := by
  unfold strategyLineTrimmed findNormalizedMatches at h
  rw [List.length_map] at h
  obtain ⟨i, hi, -, rfl⟩ := mem_windowSpans.mp h
  have hcount := length_linesOf_pos (joinLines ((linesOf normPattern).map trim))
  refine betweenCharacters_lineStart content ?_
  rw [linesOf_unicodeNormalize, List.length_map] at hi
  omega

theorem strategyUnicodeNormalized_spec (hpattern : pattern ≠ []) :
    ∃ spans, strategyUnicodeNormalized content pattern = some spans ∧ SpansIn content spans
      ∧ (Separate spans ↔ FuzzyStrategy.Apart content pattern .unicodeNormalized) := by
  by_cases hnormal : unicodeNormalize content = content ∧ unicodeNormalize pattern = pattern
  · refine ⟨[], ?_, SpansIn.nil content, iff_of_true separate_nil ?_⟩
    · rw [strategyUnicodeNormalized, if_pos hnormal]
    · rintro (hchanged | hchanged)
      · exact absurd hnormal.1 hchanged
      · exact absurd hnormal.2 hchanged
  · have hchanged : unicodeNormalize content ≠ content ∨ unicodeNormalize pattern ≠ pattern := by
      by_cases hsame : unicodeNormalize content = content
      · exact Or.inr fun heq => hnormal ⟨hsame, heq⟩
      · exact Or.inl hsame
    have hne := unicodeNormalize_ne_nil hpattern
    obtain ⟨found, hfound, hmatches⟩ :=
      @strategyExact_spec (unicodeNormalize content) (unicodeNormalize pattern) hne
    by_cases hempty : found = []
    · have hvalue : strategyUnicodeNormalized content pattern
          = some (mapPositionsNormToOrig (buildOrigToNormMap content)
            (strategyLineTrimmed (unicodeNormalize content) (unicodeNormalize pattern))) := by
        rw [strategyUnicodeNormalized, if_neg hnormal, hfound, Option.map_some, if_pos hempty]
      obtain ⟨hin, hseparate⟩ := @findNormalizedMatches_spec (unicodeNormalize content) trim
        (joinLines ((linesOf (unicodeNormalize pattern)).map trim))
      refine ⟨_, hvalue, spansIn_mapPositions hin, ?_⟩
      constructor
      · intro h _ _
        exact hseparate.mp (separate_of_mapPositions hin
          (fun span hspan => betweenCharacters_of_mem_lineTrimmed hspan) h)
      · intro hapart
        exact separate_mapPositions hin
          (hseparate.mpr (hapart hchanged (by rw [hfound, hempty])))
    · have hvalue : strategyUnicodeNormalized content pattern
          = some (mapPositionsNormToOrig (buildOrigToNormMap content) found) := by
        rw [strategyUnicodeNormalized, if_neg hnormal, hfound, Option.map_some, if_neg hempty]
      have hin := hmatches.spansIn hne
      refine ⟨_, hvalue, spansIn_mapPositions hin,
        iff_of_true (separate_mapPositions hin hmatches.separate) ?_⟩
      intro _ hnone
      rw [hfound] at hnone
      exact absurd (Option.some.inj hnone) hempty

theorem spec_unless {spans : List Span} {apart p q : Prop} [Decidable p] (hpq : q ↔ ¬ p)
    (h : SpansIn content spans ∧ (Separate spans ↔ apart)) :
    SpansIn content (if p then [] else spans)
      ∧ (Separate (if p then [] else spans) ↔ (q → apart)) := by
  by_cases hp : p
  · rw [if_pos hp]
    exact ⟨SpansIn.nil content, iff_of_true separate_nil fun hq => absurd hp (hpq.mp hq)⟩
  · rw [if_neg hp]
    exact ⟨h.1, h.2.trans ⟨fun hapart _ => hapart, fun hall => hall (hpq.mpr hp)⟩⟩

theorem FuzzyStrategy.find_spec (hpattern : pattern ≠ []) (strategy : FuzzyStrategy) :
    ∃ spans, strategy.find content pattern = some spans ∧ SpansIn content spans
      ∧ (Separate spans ↔ strategy.Apart content pattern) := by
  cases strategy with
  | exact =>
    obtain ⟨spans, hspans, hmatches⟩ := @strategyExact_spec content pattern hpattern
    exact ⟨spans, hspans, hmatches.spansIn hpattern, iff_of_true hmatches.separate trivial⟩
  | lineTrimmed => exact ⟨_, rfl, findNormalizedMatches_spec trim _⟩
  | whitespaceNormalized => exact strategyWhitespaceNormalized_spec hpattern
  | indentationFlexible => exact ⟨_, rfl, findNormalizedMatches_spec stripLeading _⟩
  | escapeNormalized =>
    by_cases hplain : unescapeLiterals pattern = pattern
    · refine ⟨[], ?_, SpansIn.nil content, iff_of_true separate_nil trivial⟩
      show strategyEscapeNormalized content pattern = some []
      rw [strategyEscapeNormalized, if_pos hplain]
    · have hne : unescapeLiterals pattern ≠ [] :=
        replacePair_ne_nil (replacePair_ne_nil (replacePair_ne_nil hpattern))
      obtain ⟨spans, hspans, hmatches⟩ := @strategyExact_spec content _ hne
      refine ⟨spans, ?_, hmatches.spansIn hne, iff_of_true hmatches.separate trivial⟩
      show strategyEscapeNormalized content pattern = some spans
      rw [strategyEscapeNormalized, if_neg hplain, hspans]
  | trimmedBoundary =>
    have hcount := length_trimEnds_pos (List.splitOn_ne_nil lineFeedUnit pattern)
    exact ⟨_, rfl, spansIn_windowSpans hcount, separate_windowSpans_iff hcount⟩
  | unicodeNormalized => exact @strategyUnicodeNormalized_spec content pattern hpattern
  | blockAnchor =>
    have hcount := length_linesOf_pos (unicodeNormalize pattern)
    have hlines : (linesOf (unicodeNormalize content)).length = (linesOf content).length := by
      rw [linesOf_unicodeNormalize, List.length_map]
    refine ⟨_, rfl, ?_⟩
    dsimp only [strategyBlockAnchor]
    rw [hlines]
    exact spec_unless Nat.not_lt.symm
      ⟨spansIn_windowSpans hcount, separate_windowSpans_iff hcount⟩
  | contextAware =>
    have hcount := length_linesOf_pos pattern
    refine ⟨_, rfl, ?_⟩
    exact spec_unless Nat.not_lt.symm
      ⟨spansIn_windowSpans hcount, separate_windowSpans_iff hcount⟩

end Strategies

end OpencodeSwarm
