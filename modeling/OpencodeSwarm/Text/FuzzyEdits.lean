/-
  OpencodeSwarm.Text.FuzzyEdits

  The edit that the chain makes: spans are replaced from the last to the first, which is
  the replacement of each exactly when no two of them share a character.
-/
import OpencodeSwarm.Text.FuzzyReplace

namespace OpencodeSwarm

open Js

/-! ## Replacing spans -/

/-- The content from a position on, with each span replaced. -/
def replaceSpans (content : JsString) (replacement : Span → JsString) : Nat → List Span → JsString
  | start, [] => content.drop start
  | start, span :: rest =>
    sliceOf content start span.1 ++ replacement span ++ replaceSpans content replacement span.2 rest

section Replace

variable {content : JsString} {spans : List Span}

theorem sortBy_compareStarts (h : spans.Pairwise fun a b => a.1 < b.1) :
    sortBy compareStarts spans = spans.reverse := by
  have hcompare : ∀ x y : Span, compareStarts x y ≤ 0 ↔ y.1 ≤ x.1 := by
    unfold compareStarts
    omega
  have hsorted := @pairwise_sortBy _ compareStarts
    (fun x y => by rw [hcompare, hcompare]; exact Nat.le_total _ _)
    (fun x y z => by rw [hcompare, hcompare, hcompare]; exact fun hyx hzy => hzy.trans hyx) spans
  have hreverse : spans.reverse.Pairwise fun x y => compareStarts x y ≤ 0 := by
    rw [List.pairwise_reverse]
    exact h.imp fun hless => (hcompare _ _).mpr (Nat.le_of_lt hless)
  refine List.Perm.eq_of_pairwise ?_ hsorted hreverse
    ((sortBy_perm compareStarts spans).trans spans.reverse_perm.symm)
  intro a b ha hb hab hba
  have hsame : a.1 = b.1 := Nat.le_antisymm ((hcompare _ _).mp hba) ((hcompare _ _).mp hab)
  have hmemA := (sortBy_perm compareStarts spans).mem_iff.mp ha
  have hmemB := List.mem_reverse.mp hb
  -- two spans with one start are one span
  have hnodup : (spans.map Prod.fst).Nodup := by
    rw [List.nodup_iff_pairwise_ne, List.pairwise_map]
    exact h.imp Nat.ne_of_lt
  exact List.inj_on_of_nodup_map hnodup hmemA hmemB hsame

/-- Replacing from the last span to the first leaves what is before the spans. -/
theorem foldr_replace (replacement : Span → JsString) (spans : List Span) (start : Nat)
    (hbounds : ∀ span ∈ spans, start ≤ span.1 ∧ span.1 ≤ span.2 ∧ span.2 ≤ content.length)
    (hordered : spans.Pairwise fun a b => a.2 ≤ b.1) :
    spans.foldr (fun span result =>
        result.take span.1 ++ replacement span ++ result.drop span.2) content
      = content.take start ++ replaceSpans content replacement start spans := by
  induction spans generalizing start with
  | nil => exact (List.take_append_drop start content).symm
  | cons span rest ih =>
    obtain ⟨⟨hstart, hle, hstop⟩, hrest⟩ := List.forall_mem_cons.mp hbounds
    obtain ⟨hbefore, hordered'⟩ := List.pairwise_cons.mp hordered
    have hinner := ih span.2
      (fun other hother => ⟨hbefore other hother, (hrest other hother).2⟩) hordered'
    have hlength : (content.take span.2).length = span.2 := by
      rw [List.length_take, Nat.min_eq_left hstop]
    have htake : (content.take span.2 ++ replaceSpans content replacement span.2 rest).take span.1
        = content.take start ++ sliceOf content start span.1 := by
      rw [List.take_append_of_le_length (by omega), List.take_take, Nat.min_eq_left hle,
        take_append_sliceOf content hstart]
    have hdrop : (content.take span.2 ++ replaceSpans content replacement span.2 rest).drop span.2
        = replaceSpans content replacement span.2 rest := List.drop_left' hlength
    rw [List.foldr_cons, hinner, htake, hdrop, replaceSpans, List.append_assoc, List.append_assoc,
      List.append_assoc]

theorem applyReplacements_eq (hin : SpansIn content spans) (h : Separate spans)
    (newString : JsString) (oldString : Option JsString) :
    applyReplacements content spans newString oldString
      = replaceSpans content (adjustedReplacement content newString oldString) 0 spans := by
  have hordered : spans.Pairwise fun a b => a.2 ≤ b.1 :=
    hin.pairwise_iff.mpr (hin.separate_iff.mp h)
  have hall := foldr_replace (adjustedReplacement content newString oldString) spans 0
    (fun span hspan => ⟨Nat.zero_le _, hin.le span hspan, hin.stop_le span hspan⟩) hordered
  rw [applyReplacements, sortBy_compareStarts hin.ascending, List.foldl_reverse, hall]
  rfl

end Replace

/-! ## The edit -/

/-- An edit at spans that are in bounds and share no character, each replaced on its own. -/
structure EditsSpans (content : JsString) (spans : List Span) (replacement : Span → JsString)
    (result : JsString) : Prop where
  bounds : ∀ span ∈ spans, span.1 ≤ span.2 ∧ span.2 ≤ content.length
  separate : Separate spans
  result_eq : result = replaceSpans content replacement 0 spans

/-- The call ends, and edits the spans of the strategy that it names, or fails and changes
    nothing. -/
def EditsDisjointSpans (content oldString newString : JsString)
    (replaceAll includeContextAware : Bool) : Prop :=
  ∃ result, fuzzyFindAndReplace content oldString newString replaceAll includeContextAware
      = some result
    ∧ (result.error ≠ none → result.content = content ∧ result.matchCount = 0)
    ∧ (result.error = none → ∃ strategy spans, result.strategy = some strategy
      ∧ strategy.find content oldString = some spans ∧ result.matchCount = spans.length
      ∧ EditsSpans content spans (adjustedReplacement content
          (effectiveNewString content oldString newString strategy spans)
          (strategy.reindentsFrom oldString)) result.content)

/-- The first strategy that finds spans, with what it finds. -/
def Wins (content oldString : JsString) (strategies : List FuzzyStrategy) (strategy : FuzzyStrategy)
    (spans : List Span) : Prop :=
  ∃ before after, strategies = before ++ strategy :: after
    ∧ (∀ other ∈ before, other.find content oldString = some [])
    ∧ strategy.find content oldString = some spans ∧ spans ≠ []

/-- At most one replacement is asked for, or the first strategy that finds spans finds them
    apart, or the guard against escape drift stops it. -/
def ReplacesApart (content oldString newString : JsString)
    (replaceAll includeContextAware : Bool) : Prop :=
  replaceAll = false ∨ oldString = newString
    ∨ ∀ strategy spans, Wins content oldString (fuzzyStrategies includeContextAware) strategy spans →
      strategy.Apart content oldString
        ∨ strategy ≠ .exact ∧ (detectEscapeDrift content spans oldString newString).isSome = true

section Chain

variable {content oldString newString : JsString} {replaceAll : Bool}

theorem tryStrategies_of_wins {strategies : List FuzzyStrategy} {strategy : FuzzyStrategy}
    {spans : List Span} (h : Wins content oldString strategies strategy spans) :
    tryStrategies content oldString newString replaceAll strategies
      = some (settleMatches content oldString newString replaceAll strategy spans) := by
  obtain ⟨before, after, rfl, hbefore, hfind, hne⟩ := h
  induction before with
  | nil => rw [List.nil_append, tryStrategies, hfind, Option.bind_some, if_neg hne]
  | cons other rest ih =>
    obtain ⟨hother, hrest⟩ := List.forall_mem_cons.mp hbefore
    rw [List.cons_append, tryStrategies, hother, Option.bind_some, if_pos rfl]
    exact ih hrest

theorem exists_wins_or (hold : oldString ≠ []) (strategies : List FuzzyStrategy) :
    (∃ strategy spans, Wins content oldString strategies strategy spans)
      ∨ tryStrategies content oldString newString replaceAll strategies
        = some (fuzzyFailure content (js "Could not find a match for old_string in the file")) := by
  induction strategies with
  | nil => exact Or.inr rfl
  | cons strategy rest ih =>
    obtain ⟨spans, hfind, -⟩ := @FuzzyStrategy.find_spec content oldString hold strategy
    by_cases hempty : spans = []
    · rw [hempty] at hfind
      rcases ih with ⟨winner, found, before, after, rfl, hbefore, hwinner⟩ | hnone
      · exact Or.inl ⟨winner, found, strategy :: before, after, rfl,
          List.forall_mem_cons.mpr ⟨hfind, hbefore⟩, hwinner⟩
      · refine Or.inr ?_
        rw [tryStrategies, hfind, Option.bind_some, if_pos rfl, hnone]
    · exact Or.inl ⟨strategy, spans, [], rest, rfl, List.forall_mem_nil _, hfind,
        hempty⟩

theorem separate_of_length_le {spans : List Span} (h : spans.length ≤ 1) : Separate spans := by
  match spans, h with
  | [], _ => exact List.Pairwise.nil
  | [span], _ => exact List.pairwise_singleton _ span

/-- What is done with the matches: a failure that changes nothing, or their replacement. -/
theorem settleMatches_cases (strategy : FuzzyStrategy) (spans : List Span) :
    (∃ error, settleMatches content oldString newString replaceAll strategy spans
        = fuzzyFailure content error ∧ (1 < spans.length ∧ replaceAll = false
        ∨ strategy ≠ .exact ∧ (detectEscapeDrift content spans oldString newString).isSome = true))
    ∨ settleMatches content oldString newString replaceAll strategy spans
        = ⟨applyReplacements content spans
            (effectiveNewString content oldString newString strategy spans)
            (strategy.reindentsFrom oldString), spans.length, some strategy, none⟩
      ∧ ¬ (1 < spans.length ∧ replaceAll = false) ∧ ¬ (strategy ≠ .exact
        ∧ (detectEscapeDrift content spans oldString newString).isSome = true) := by
  unfold settleMatches
  by_cases hambiguous : 1 < spans.length ∧ replaceAll = false
  · rw [if_pos hambiguous]
    exact Or.inl ⟨_, rfl, Or.inl hambiguous⟩
  · rw [if_neg hambiguous]
    by_cases hexact : strategy = .exact
    · rw [if_pos hexact]
      exact Or.inr ⟨rfl, hambiguous, fun h => h.1 hexact⟩
    · rw [if_neg hexact]
      cases hdrift : detectEscapeDrift content spans oldString newString with
      | some error => exact Or.inl ⟨error, rfl, Or.inr ⟨hexact, rfl⟩⟩
      | none => exact Or.inr ⟨rfl, hambiguous, fun h => Bool.false_ne_true h.2⟩

end Chain

/-- A call edits disjoint spans exactly when the strategy that wins finds its spans apart, or a
    guard stops it before. -/
theorem editsDisjointSpans_iff (content oldString newString : JsString)
    (replaceAll includeContextAware : Bool) (hold : oldString ≠ []) :
    EditsDisjointSpans content oldString newString replaceAll includeContextAware
      ↔ ReplacesApart content oldString newString replaceAll includeContextAware := by
  unfold EditsDisjointSpans fuzzyFindAndReplace
  rw [if_neg hold]
  by_cases hsame : oldString = newString
  · rw [if_pos hsame]
    exact iff_of_true ⟨_, rfl, fun _ => ⟨rfl, rfl⟩, fun h => nomatch h⟩ (Or.inr (Or.inl hsame))
  · rw [if_neg hsame]
    constructor
    · rintro ⟨result, hresult, -, hedit⟩
      by_cases hall : replaceAll = false
      · exact Or.inl hall
      refine Or.inr (Or.inr fun strategy spans hwins => ?_)
      rw [tryStrategies_of_wins hwins] at hresult
      obtain ⟨-, -, -, -, hfind, -⟩ := hwins
      obtain ⟨spans', hfind', -, hapart⟩ :=
        @FuzzyStrategy.find_spec content oldString hold strategy
      rw [hfind] at hfind'
      rw [← Option.some.inj hfind'] at hapart
      rcases settleMatches_cases strategy spans with
        ⟨error, hfailure, hguard⟩ | ⟨hsuccess, -, -⟩
      · rcases hguard with ⟨-, hone⟩ | hdrift
        · exact absurd hone hall
        · exact Or.inr hdrift
      · rw [hsuccess] at hresult
        obtain ⟨strategy', found, hstrategy, hfound, -, hspans⟩ :=
          hedit (by rw [← Option.some.inj hresult])
        rw [← Option.some.inj hresult] at hstrategy
        rw [← Option.some.inj hstrategy, hfind] at hfound
        rw [← Option.some.inj hfound] at hspans
        exact Or.inl (hapart.mp hspans.separate)
    · intro hcondition
      rcases @exists_wins_or content oldString newString replaceAll hold
          (fuzzyStrategies includeContextAware) with ⟨strategy, spans, hwins⟩ | hnone
      · refine ⟨_, tryStrategies_of_wins hwins, ?_⟩
        have hwins' := hwins
        obtain ⟨-, -, -, -, hfind, -⟩ := hwins'
        obtain ⟨spans', hfind', hin, hapart⟩ :=
          @FuzzyStrategy.find_spec content oldString hold strategy
        rw [hfind] at hfind'
        rw [← Option.some.inj hfind'] at hin hapart
        rcases settleMatches_cases strategy spans with
          ⟨error, hfailure, -⟩ | ⟨hsuccess, hfew, hclean⟩
        · rw [hfailure]
          exact ⟨fun _ => ⟨rfl, rfl⟩, fun h => nomatch h⟩
        · have hseparate : Separate spans := by
            rcases hcondition with hone | hequal | hall
            · exact separate_of_length_le (Nat.le_of_not_lt fun hmany => hfew ⟨hmany, hone⟩)
            · exact absurd hequal hsame
            · rcases hall strategy spans hwins with h | hdrift
              · exact hapart.mpr h
              · exact absurd hdrift hclean
          rw [hsuccess]
          refine ⟨fun h => absurd rfl h, fun _ => ⟨strategy, spans, rfl, hfind, rfl, ?_⟩⟩
          exact ⟨fun span hspan => ⟨hin.le span hspan, hin.stop_le span hspan⟩, hseparate,
            applyReplacements_eq hin hseparate _ _⟩
      · exact ⟨_, hnone, fun _ => ⟨rfl, rfl⟩, fun h => nomatch h⟩

/-- Two windows of two lines each, with a line between them: both are replaced. -/
theorem editsDisjointSpans_twoWindows : EditsDisjointSpans
    [0x78, 0x20, 0x0A, 0x78, 0x0A, 0x7A, 0x0A, 0x78, 0x20, 0x0A, 0x78] [0x78, 0x0A, 0x78] [0x79]
    true false := by
  refine (editsDisjointSpans_iff _ _ _ _ _ (by decide)).mpr
    (Or.inr (Or.inr fun strategy spans hwins => Or.inl ?_))
  have hexact : FuzzyStrategy.find [0x78, 0x20, 0x0A, 0x78, 0x0A, 0x7A, 0x0A, 0x78, 0x20, 0x0A, 0x78]
      [0x78, 0x0A, 0x78] .exact = some [] := by decide +kernel
  have htrimmed : FuzzyStrategy.find
      [0x78, 0x20, 0x0A, 0x78, 0x0A, 0x7A, 0x0A, 0x78, 0x20, 0x0A, 0x78] [0x78, 0x0A, 0x78]
      .lineTrimmed = some [(0, 4), (7, 11)] := by decide +kernel
  obtain ⟨before, after, hlist, hbefore, hfind, hne⟩ := hwins
  rcases before with _ | ⟨first, _ | ⟨second, others⟩⟩
  · -- the exact strategy finds nothing
    cases hlist
    exact absurd (Option.some.inj (hfind.symm.trans hexact)) hne
  · cases hlist
    obtain ⟨found, hfound, -, hapart⟩ :=
      @FuzzyStrategy.find_spec _ [0x78, 0x0A, 0x78] (by decide) .lineTrimmed
    cases htrimmed.symm.trans hfound
    exact hapart.mp (List.pairwise_pair.mpr (by decide))
  · have hsecond : second = .lineTrimmed := (List.cons.inj (List.cons.inj hlist).2).1.symm
    have hnone := hbefore second (List.mem_cons_of_mem _ List.mem_cons_self)
    rw [hsecond] at hnone
    cases htrimmed.symm.trans hnone

/-- Three equal lines with blanks at their ends hold two windows of two lines, which share the
    second line. -/
theorem not_editsDisjointSpans_lines : ¬ ∀ (content oldString newString : JsString)
    (replaceAll includeContextAware : Bool), oldString ≠ [] →
    EditsDisjointSpans content oldString newString replaceAll includeContextAware := by
  intro hall
  obtain ⟨result, hresult, -, hedit⟩ := hall
    [0x78, 0x20, 0x0A, 0x78, 0x20, 0x0A, 0x78, 0x20] [0x78, 0x0A, 0x78] [0x79] true false
    (by decide)
  have hvalue : fuzzyFindAndReplace [0x78, 0x20, 0x0A, 0x78, 0x20, 0x0A, 0x78, 0x20]
      [0x78, 0x0A, 0x78] [0x79] true false
        = some ⟨[0x79], 2, some .lineTrimmed, none⟩ := by decide +kernel
  rw [hvalue] at hresult
  obtain ⟨strategy, spans, hstrategy, hfind, -, hspans⟩ :=
    hedit (by rw [← Option.some.inj hresult])
  rw [← Option.some.inj hresult] at hstrategy
  have hline : strategy = .lineTrimmed := (Option.some.inj hstrategy).symm
  rw [hline] at hfind
  have hseparate := hspans.separate
  rw [← Option.some.inj hfind] at hseparate
  have hpair := (List.pairwise_cons.mp hseparate).1 (3, 8) (List.mem_singleton_self _)
  exact absurd hpair (by decide)

end OpencodeSwarm
