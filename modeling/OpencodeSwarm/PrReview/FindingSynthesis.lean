/-
  OpencodeSwarm.PrReview.FindingSynthesis

  What the synthesis of findings keeps.  A group covers its candidates whatever
  they are; findings keep apart unless two of them have one id material, and the
  provenance is kept unless one identity brings two records to one finding.
-/
import OpencodeSwarm.Lib.Outcome
import OpencodeSwarm.Lib.TextLines
import OpencodeSwarm.PrReview.FindingPolicy

namespace OpencodeSwarm

open Js LeaderGroups

/-! ## Reductions -/

theorem rank_le_highestBy {α : Type*} (rank : α → Nat) (first : α) (rest : List α) :
    ∀ v ∈ first :: rest, rank v ≤ rank (highestBy rank first rest) := by
  unfold highestBy
  induction rest using List.reverseRecOn with
  | nil =>
    intro v hv
    rw [List.mem_singleton.mp hv]
    exact Nat.le_refl _
  | append_singleton rest last ih =>
    intro v hv
    rw [List.foldl_concat]
    rcases List.mem_append.mp (show v ∈ (first :: rest) ++ [last] from hv) with hold | hnew
    · have hbest := ih v hold
      split
      · omega
      · exact hbest
    · rw [List.mem_singleton.mp hnew]
      split
      · exact Nat.le_refl _
      · omega

theorem lowestConfidence_le (first : ConfidenceLabel) (rest : List ConfidenceLabel) :
    ∀ v ∈ first :: rest, confidenceRank (lowestConfidence first rest) ≤ confidenceRank v := by
  unfold lowestConfidence
  induction rest using List.reverseRecOn with
  | nil =>
    intro v hv
    rw [List.mem_singleton.mp hv]
    exact Nat.le_refl _
  | append_singleton rest last ih =>
    intro v hv
    rw [List.foldl_concat]
    rcases List.mem_append.mp (show v ∈ (first :: rest) ++ [last] from hv) with hold | hnew
    · have hlowest := ih v hold
      split
      · omega
      · exact hlowest
    · rw [List.mem_singleton.mp hnew]
      split
      · exact Nat.le_refl _
      · omega

theorem eq_high_of_confidenceRank {label : ConfidenceLabel}
    (h : confidenceRank .high ≤ confidenceRank label) : label = .high := by
  cases label with
  | low | medium => exact absurd h (by decide)
  | high => rfl

/-! ## Provenance -/

/-- What the loop keeps: records of the list, the first of each identity. -/
structure KeepsIdentities (unique : OrderedMap JsString FindingProvenance)
    (values : List FindingProvenance) : Prop where
  ofKey : ∀ binding ∈ unique, provenanceKey binding.2 = binding.1
  nodup : (OrderedMap.keys unique).Nodup
  mem : ∀ value ∈ OrderedMap.values unique, value ∈ values
  key : ∀ value ∈ values, provenanceKey value ∈ OrderedMap.keys unique

theorem KeepsIdentities.next {unique : OrderedMap JsString FindingProvenance}
    {values : List FindingProvenance} (h : KeepsIdentities unique values)
    (value : FindingProvenance) :
    KeepsIdentities (if (unique.get? (provenanceKey value)).isSome then unique
      else unique.set (provenanceKey value) value) (values ++ [value]) := by
  split
  · next hkey =>
    refine ⟨h.ofKey, h.nodup, fun v hv => List.mem_append_left _ (h.mem v hv), fun v hv => ?_⟩
    rcases List.mem_append.mp hv with hold | hnew
    · exact h.key v hold
    · rw [List.mem_singleton.mp hnew]
      exact OrderedMap.mem_keys_iff.mpr hkey
  · next hkey =>
    refine ⟨fun binding hbinding => ?_, OrderedMap.nodup_keys_set h.nodup, fun v hv => ?_,
      fun v hv => OrderedMap.mem_keys_set_iff.mpr ?_⟩
    · rcases OrderedMap.mem_set hbinding with rfl | hold
      · rfl
      · exact h.ofKey binding hold
    · obtain ⟨binding, hbinding, rfl⟩ := List.mem_map.mp hv
      rcases OrderedMap.mem_set hbinding with rfl | hold
      · exact List.mem_append_right _ (List.mem_singleton_self _)
      · exact List.mem_append_left _ (h.mem _ (List.mem_map_of_mem hold))
    · rcases List.mem_append.mp hv with hold | hnew
      · exact Or.inr (h.key v hold)
      · exact Or.inl (by rw [List.mem_singleton.mp hnew])

variable {values : List FindingProvenance}

theorem uniqueProvenanceLoop_spec (hvalid : ∀ value ∈ values, trim value.identity ≠ []) :
    ∀ {unique : OrderedMap JsString FindingProvenance} {before : List FindingProvenance},
      KeepsIdentities unique before → ∃ unique', uniqueProvenanceLoop unique values = .ok unique' ∧
        KeepsIdentities unique' (before ++ values) := by
  induction values with
  | nil =>
    intro unique before h
    exact ⟨unique, rfl, by rwa [List.append_nil]⟩
  | cons value rest ih =>
    intro unique before h
    have hvalue : ¬ (trim value.identity).isEmpty = true := by
      rw [List.isEmpty_iff]
      exact hvalid value List.mem_cons_self
    obtain ⟨unique', hloop, hkeeps⟩ := ih (fun v hv => hvalid v (List.mem_cons_of_mem _ hv))
      (h.next value)
    rw [List.append_assoc, List.singleton_append] at hkeeps
    refine ⟨unique', ?_, hkeeps⟩
    rw [uniqueProvenanceLoop, if_neg hvalue]
    exact hloop

/-- The records of a finding: the first of each identity. -/
structure FirstRecords (records values : List FindingProvenance) : Prop where
  nodup : (records.map provenanceKey).Nodup
  mem : ∀ value ∈ records, value ∈ values
  key : ∀ value ∈ values, ∃ record ∈ records, provenanceKey record = provenanceKey value

theorem uniqueProvenance_spec (host : PolicyHost)
    (hvalid : ∀ value ∈ values, trim value.identity ≠ []) :
    ∃ records, uniqueProvenance host values = .ok records ∧ FirstRecords records values := by
  have hstart : KeepsIdentities [] [] :=
    ⟨List.forall_mem_nil _, List.nodup_nil, List.forall_mem_nil _,
      List.forall_mem_nil _⟩
  obtain ⟨unique, hloop, hkeeps⟩ := uniqueProvenanceLoop_spec hvalid hstart
  have hsorted := sortBy_perm (fun a b => host.localeCompare (provenanceKey a) (provenanceKey b))
    (OrderedMap.values unique)
  have hkeys : (OrderedMap.values unique).map provenanceKey = OrderedMap.keys unique := by
    unfold OrderedMap.values OrderedMap.keys
    rw [List.map_map]
    exact List.map_congr_left hkeeps.ofKey
  refine ⟨_, by rw [uniqueProvenance, hloop]; rfl, ⟨?_, fun value hv => ?_, fun value hv => ?_⟩⟩
  · rw [(hsorted.map provenanceKey).nodup_iff, hkeys]
    exact hkeeps.nodup
  · exact hkeeps.mem value (hsorted.mem_iff.mp hv)
  · obtain ⟨record, hrecord, hkey⟩ := List.mem_map.mp (hkeys ▸ hkeeps.key value hv)
    exact ⟨record, hsorted.mem_iff.mpr hrecord, hkey⟩

theorem FirstRecords.all_mem_iff {records : List FindingProvenance}
    (h : FirstRecords records values) : (∀ value ∈ values, value ∈ records)
      ↔ ∀ p ∈ values, ∀ q ∈ values, provenanceKey p = provenanceKey q → p = q := by
  constructor
  · intro hall p hp q hq hkey
    exact List.inj_on_of_nodup_map h.nodup (hall p hp) (hall q hq) hkey
  · intro hone value hvalue
    obtain ⟨record, hrecord, hkey⟩ := h.key value hvalue
    rw [← hone record (h.mem record hrecord) value hvalue hkey]
    exact hrecord

/-! ## One group -/

/-- A finding says at least what a candidate says, apart from its provenance. -/
structure CoversCandidate (finding : SynthesizedFinding) (c : FindingCandidate) : Prop where
  severity : severityRank c.severity ≤ severityRank finding.severity
  action : actionRank (findingAction c.action) ≤ actionRank finding.action
  status : findingStatusRank (findingStatus c.status) ≤ findingStatusRank finding.status
  sourceId : ∀ id ∈ c.sourceFindingId, id ∈ finding.sourceFindingIds

/-- High confidence is the candidates' own, or two identities agree. -/
def ConfidenceEarned (finding : SynthesizedFinding) (members : List FindingCandidate) : Prop :=
  finding.confidence = .high →
    (∀ c ∈ members, c.confidence = .high) ∨
      ∃ p ∈ members.flatMap FindingCandidate.provenance,
        ∃ q ∈ members.flatMap FindingCandidate.provenance, provenanceKey p ≠ provenanceKey q

variable {c : FindingCandidate}

theorem FindingGroup.rank_le_highest {α : Type*} (rank : α → Nat) (f : FindingCandidate → α)
    (group : FindingGroup) (hc : c ∈ group.members) :
    rank (f c) ≤ rank (FindingGroup.highest rank f group) := by
  apply rank_le_highestBy rank (f group.leader) (group.others.map f)
  exact List.mem_map_of_mem hc

/-- The finding of a group. -/
structure SynthesisOf (host : PolicyHost) (group : FindingGroup) (finding : SynthesizedFinding) :
    Prop where
  id : finding.id = findingId host group.leader
  covers : ∀ c ∈ group.members, CoversCandidate finding c
  confidence : ConfidenceEarned finding group.members
  records : FirstRecords finding.provenance (group.members.flatMap FindingCandidate.provenance)

theorem synthesizeGroup_spec (host : PolicyHost) {group : FindingGroup}
    (hvalid : ∀ c ∈ group.members, ∀ p ∈ c.provenance, trim p.identity ≠ []) :
    ∃ finding, synthesizeGroup host group = .ok finding ∧ SynthesisOf host group finding := by
  have hrecords : ∀ p ∈ group.members.flatMap FindingCandidate.provenance,
      trim p.identity ≠ [] := by
    intro p hp
    obtain ⟨c, hc, hmem⟩ := List.mem_flatMap.mp hp
    exact hvalid c hc p hmem
  obtain ⟨records, hrecords, hfirst⟩ := uniqueProvenance_spec host hrecords
  refine ⟨_, by rw [synthesizeGroup, hrecords], rfl, fun c hc => ⟨?_, ?_, ?_, ?_⟩, ?_, hfirst⟩
  · exact group.rank_le_highest severityRank FindingCandidate.severity hc
  · exact group.rank_le_highest actionRank (fun c => findingAction c.action) hc
  · exact group.rank_le_highest findingStatusRank (fun c => findingStatus c.status) hc
  · intro id hid
    apply (sortStrings_perm _).mem_iff.mpr
    rw [List.mem_dedup]
    exact List.mem_filterMap.mpr ⟨c, hc, hid⟩
  · intro hhigh
    dsimp only at hhigh
    split at hhigh
    · next hlength =>
      -- two records are two identities
      obtain ⟨p, q, rest, rfl⟩ : ∃ p q rest, records = p :: q :: rest := by
        match records, hlength with
        | p :: q :: rest, _ => exact ⟨p, q, rest, rfl⟩
      have hne : provenanceKey p ≠ provenanceKey q := by
        have hnodup := hfirst.nodup
        exact fun heq => (List.nodup_cons.mp hnodup).1 (heq ▸ List.mem_cons_self)
      exact Or.inr ⟨p, hfirst.mem p (by simp), q, hfirst.mem q (by simp), hne⟩
    · refine Or.inl fun c hc => eq_high_of_confidenceRank ?_
      have hle := lowestConfidence_le group.leader.confidence
        (group.others.map FindingCandidate.confidence) c.confidence (by
          exact List.mem_map_of_mem hc)
      rwa [hhigh] at hle

/-! ## Tokens -/

theorem not_sep_of_mem_splitOnP {α : Type*} {p : α → Bool} {xs piece : List α}
    (h : piece ∈ xs.splitOnP p) : ∀ c ∈ piece, p c = false := by
  induction xs generalizing piece with
  | nil =>
    rw [List.splitOnP_nil, List.mem_singleton] at h
    rw [h]
    exact fun c hc => absurd hc List.not_mem_nil
  | cons x xs ih =>
    rw [List.splitOnP_cons_eq_if_modifyHead] at h
    split at h
    · rcases List.mem_cons.mp h with rfl | hrest
      · exact fun c hc => absurd hc List.not_mem_nil
      · exact ih hrest
    · next hx =>
      cases hsplit : xs.splitOnP p with
      | nil =>
        rw [hsplit] at h
        cases h
      | cons first rest =>
        rw [hsplit, List.modifyHead_cons] at h
        rcases List.mem_cons.mp h with rfl | hrest
        · intro c hc
          rcases List.mem_cons.mp hc with rfl | htail
          · simpa using hx
          · exact ih (hsplit ▸ List.mem_cons_self) c htail
        · exact ih (hsplit ▸ List.mem_cons_of_mem _ hrest)

/-- A word of letters and digits. -/
def IsToken (token : JsString) : Prop := token ≠ [] ∧ ∀ c ∈ token, isTokenUnit c = true

variable {token : JsString}

theorem isToken_alias (h : token ∈ OrderedMap.values tokenAliases) : IsToken token := by
  have hall : (OrderedMap.values tokenAliases).all
      (fun token => !token.isEmpty && token.all isTokenUnit) = true := by decide +kernel
  have htoken := List.all_eq_true.mp hall token h
  rw [Bool.and_eq_true, Bool.not_eq_true', List.all_eq_true] at htoken
  refine ⟨fun hnil => ?_, htoken.2⟩
  rw [hnil] at htoken
  exact absurd htoken.1 (by decide)

variable {host : PolicyHost}

theorem isToken_of_mem_tokens {value : JsString} (h : token ∈ tokens host value) :
    IsToken token := by
  rw [tokens, List.mem_dedup] at h
  obtain ⟨word, hword, rfl⟩ := List.mem_map.mp h
  obtain ⟨hpiece, hlong⟩ := List.mem_filter.mp hword
  cases halias : OrderedMap.get? tokenAliases word with
  | some other =>
    exact isToken_alias (List.mem_map.mpr ⟨_, OrderedMap.mem_of_get? halias, rfl⟩)
  | none =>
    rw [Option.getD_none]
    refine ⟨fun hnil => ?_, fun c hc => by simpa using not_sep_of_mem_splitOnP hpiece c hc⟩
    rw [hnil] at hlong
    exact absurd hlong (by simp)

/-- `r` does not continue a token. -/
def EndsWord (r : JsString) : Prop := ∀ c ∈ r.head?, isTokenUnit c = false

theorem endsWord_cons {c : CodeUnit} (hc : isTokenUnit c = false) (r : JsString) :
    EndsWord (c :: r) := by simpa [EndsWord] using hc

theorem takeWhile_token {r : JsString} (h : IsToken token) (hr : EndsWord r) :
    (token ++ r).takeWhile isTokenUnit = token := by
  have hnil : r.takeWhile isTokenUnit = [] := by
    cases r with
    | nil => rfl
    | cons c r => simp [hr c (by simp)]
  rw [List.takeWhile_append_of_pos h.2, hnil, List.append_nil]

theorem IsToken.head (h : IsToken token) : ∃ c rest, token = c :: rest ∧ c ≠ 0x7C := by
  obtain ⟨hne, hunits⟩ := h
  cases token with
  | nil => exact absurd rfl hne
  | cons c rest =>
    refine ⟨c, rest, rfl, ?_⟩
    rintro rfl
    exact absurd (hunits _ List.mem_cons_self) (by decide)

variable {as : List JsString}

theorem joinComma_tokens_inj {bs : List JsString} (has : ∀ a ∈ as, IsToken a)
    (hbs : ∀ b ∈ bs, IsToken b) (h : joinComma as = joinComma bs) : as = bs := by
  have htext : joinComma (as.map id) ++ 0x7C :: [] = joinComma (bs.map id) ++ 0x7C :: [] := by
    rw [List.map_id, List.map_id, h]
  have hread : ∀ a ∈ as, ∀ b ∈ bs, ∀ r r', id a ++ r = id b ++ r' → EndsWord r → EndsWord r' →
      a = b ∧ r = r' := by
    intro a ha b hb r r' hab hr hr'
    have htake := congrArg (List.takeWhile isTokenUnit) hab
    rw [id_eq, id_eq, takeWhile_token (has a ha) hr, takeWhile_token (hbs b hb) hr'] at htake
    exact ⟨htake, List.append_cancel_left (htake ▸ hab)⟩
  have hpairs := joinComma_append_forall₂ (by decide) (fun r => endsWord_cons (by decide) r)
    (fun r => endsWord_cons (by decide) r) (fun a ha => (has a ha).head)
    (fun b hb => (hbs b hb).head) hread htext
  exact List.forall₂_eq_eq_eq ▸ hpairs.1

/-! ## The id material -/

theorem sep_notMem_joinComma (has : ∀ a ∈ as, IsToken a) : (0x7C : CodeUnit) ∉ joinComma as := by
  induction as using joinComma.induct with
  | case1 => exact List.not_mem_nil
  | case2 s =>
    intro h
    exact absurd ((has s List.mem_cons_self).2 _ h) (by decide)
  | case3 s t rest ih =>
    intro h
    rcases List.mem_append.mp h with hfirst | hrest
    · exact absurd ((has s List.mem_cons_self).2 _ hfirst) (by decide)
    · rcases List.mem_cons.mp hrest with hcomma | htail
      · exact absurd hcomma (by decide)
      · exact ih (fun a ha => has a (List.mem_cons_of_mem _ ha)) htail

theorem append_sep_inj {α : Type*} [DecidableEq α] {sep : α} {x x' y y' : List α} (hy : sep ∉ y)
    (hy' : sep ∉ y') (h : x ++ [sep] ++ y = x' ++ [sep] ++ y') : x = x' ∧ y = y' := by
  have hlast : ∀ {z part : List α}, sep ∉ part →
      TextLines.lastLine sep (z ++ [sep] ++ part) = part := by
    intro z part hpart
    have hnone := @TextLines.lastLine_append_sep _ _ sep z [] List.not_mem_nil
    rw [TextLines.lastLine_append hpart]
    rw [List.append_nil] at hnone
    rw [hnone, List.nil_append]
  have heq : y = y' := by rw [← hlast (z := x) hy, h, hlast hy']
  subst heq
  exact ⟨List.append_cancel_right (List.append_cancel_right h), rfl⟩

theorem sortedTokens_isToken (host : PolicyHost) (value : JsString) :
    ∀ token ∈ sortStrings (tokens host value), IsToken token := fun _ htoken =>
  isToken_of_mem_tokens ((sortStrings_perm _).mem_iff.mp htoken)

variable {l m : FindingCandidate}

theorem idMaterial_eq_iff : idMaterial host l = idMaterial host m
      ↔ placeText host l = placeText host m ∧
        (tokens host l.finding).Perm (tokens host m.finding) := by
  constructor
  · intro h
    obtain ⟨hplace, htokens⟩ := append_sep_inj
      (sep_notMem_joinComma (sortedTokens_isToken host l.finding))
      (sep_notMem_joinComma (sortedTokens_isToken host m.finding)) h
    exact ⟨hplace, sortStrings_eq_iff_perm.mp (joinComma_tokens_inj
      (sortedTokens_isToken host l.finding) (sortedTokens_isToken host m.finding) htokens)⟩
  · rintro ⟨hplace, htokens⟩
    rw [idMaterial, idMaterial, hplace, sortStrings_eq_iff_perm.mpr htokens]

/-! ## Identifiers -/

theorem hashText_inj {a b : UInt32} (h : hashText a = hashText b) : a = b := by
  have hdigits : ∀ place ∈ [7, 6, 5, 4, 3, 2, 1, 0],
      a.toNat / 16 ^ place % 16 = b.toNat / 16 ^ place % 16 := by
    intro place hplace
    have hdigit := List.map_inj_left.mp h place hplace
    have hvalue := congrArg hexValue hdigit
    rwa [hexValue_hexDigit (Nat.mod_lt _ (by decide)),
      hexValue_hexDigit (Nat.mod_lt _ (by decide))] at hvalue
  simp only [List.forall_mem_cons, List.not_mem_nil, false_imp_iff, implies_true, and_true] at hdigits
  have ha := a.toNat_lt
  have hb := b.toNat_lt
  apply UInt32.toNat_inj.mp
  omega

theorem idMaterial_eq_of_findingId
    (hhash : fnv1a 2166136261 (idMaterial host l) = fnv1a 2166136261 (idMaterial host m) →
      idMaterial host l = idMaterial host m) (h : findingId host l = findingId host m) :
    idMaterial host l = idMaterial host m :=
  hhash (hashText_inj (List.append_cancel_left h))

/-! ## When two candidates are one finding -/

def SamePlace (host : PolicyHost) (l m : FindingCandidate) : Prop :=
  normalizedCategory host l.category = normalizedCategory host m.category ∧
    normalizedLocation host l.location = normalizedLocation host m.location

theorem SamePlace.placeText {host : PolicyHost} {l m : FindingCandidate} (h : SamePlace host l m) :
    placeText host l = placeText host m := by
  rw [OpencodeSwarm.placeText, OpencodeSwarm.placeText, h.1, h.2]

theorem sameFinding_iff : sameFinding host l m = true
      ↔ SamePlace host l m ∧ (trim l.finding = trim m.finding ∨
          3 / 10 ≤ semanticSimilaritySets (tokens host l.finding) (tokens host m.finding)) := by
  unfold sameFinding SamePlace
  split_ifs with hcategory hlocation htext
  · exact iff_of_false id fun h => hcategory h.1.1
  · exact iff_of_false id fun h => hlocation h.1.2
  · exact iff_of_true rfl ⟨⟨not_not.mp hcategory, not_not.mp hlocation⟩, Or.inl htext⟩
  · rw [decide_eq_true_iff]
    constructor
    · exact fun h => ⟨⟨not_not.mp hcategory, not_not.mp hlocation⟩, Or.inr h⟩
    · exact fun h => h.2.resolve_left htext

theorem sameFinding_refl (host : PolicyHost) (c : FindingCandidate) : sameFinding host c c = true :=
  sameFinding_iff.mpr ⟨⟨rfl, rfl⟩, Or.inl rfl⟩

theorem similarity_of_nil (a : List JsString) : semanticSimilaritySets a [] = 0 := by
  rw [semanticSimilaritySets, if_pos (by simp)]

theorem similarity_of_perm {a b : List JsString} (hperm : a.Perm b) (hne : a ≠ []) :
    semanticSimilaritySets a b = 1 := by
  have hlength : a.length = b.length := hperm.length_eq
  have hpos : a.length ≠ 0 := fun h => hne (List.length_eq_zero_iff.mp h)
  have hall : a.filter b.contains = a := by
    rw [List.filter_eq_self]
    intro token htoken
    exact List.contains_iff_mem.mpr (hperm.mem_iff.mp htoken)
  have hcast : (a.length : ℚ) ≠ 0 := by exact_mod_cast hpos
  rw [semanticSimilaritySets, if_neg (by simp [hpos, ← hlength]), hall, ← hlength]
  simp only [add_sub_cancel_right]
  exact div_self hcast

/-! ## Findings apart -/

/-- Two candidates of one place without any token have one text. -/
def TextsTellApart (host : PolicyHost) (candidates : List FindingCandidate) : Prop :=
  ∀ c ∈ candidates, ∀ d ∈ candidates, SamePlace host c d →
    tokens host c.finding = [] → tokens host d.finding = [] → trim c.finding = trim d.finding

/-- Two leaders with the same tokens, and the same text for location and category,
    have the same location and category. -/
def PlacesTellApart (host : PolicyHost) (candidates : List FindingCandidate) : Prop :=
  ∀ l ∈ leaders (sameFinding host) candidates, ∀ m ∈ leaders (sameFinding host) candidates,
    (tokens host l.finding).Perm (tokens host m.finding) → placeText host l = placeText host m →
      SamePlace host l m

/-- The hash tells the materials of the candidates apart. -/
def HashTellsApart (host : PolicyHost) (candidates : List FindingCandidate) : Prop :=
  ∀ c ∈ candidates, ∀ d ∈ candidates,
    fnv1a 2166136261 (idMaterial host c) = fnv1a 2166136261 (idMaterial host d) →
      idMaterial host c = idMaterial host d

variable {candidates : List FindingCandidate}

theorem exists_leader (host : PolicyHost) (hc : c ∈ candidates) :
    ∃ l ∈ leaders (sameFinding host) candidates, sameFinding host l c = true := by
  obtain ⟨g, hg, hmem⟩ := @exists_group _ (sameFinding host) candidates c hc
  have hleader := leaderOf?_of_mem (sameFinding_refl host) hg hmem
  exact ⟨g.leader, List.mem_of_find?_eq_some hleader, by
    simpa using List.find?_some hleader⟩

/-- Identifiers are distinct exactly when texts and places tell the findings apart. -/
theorem nodup_findingIds_iff (htrim : ∀ c ∈ candidates, trim c.finding = c.finding)
    (hhash : HashTellsApart host candidates) :
    ((leaders (sameFinding host) candidates).map (findingId host)).Nodup
      ↔ TextsTellApart host candidates ∧ PlacesTellApart host candidates := by
  have hmem : ∀ l ∈ leaders (sameFinding host) candidates, l ∈ candidates := fun l hl =>
    (leaders_sublist _ candidates).subset hl
  constructor
  · intro hnodup
    have hone : ∀ l ∈ leaders (sameFinding host) candidates,
        ∀ m ∈ leaders (sameFinding host) candidates, placeText host l = placeText host m →
          (tokens host l.finding).Perm (tokens host m.finding) → l = m := by
      intro l hl m hm hplace htokens
      apply List.inj_on_of_nodup_map hnodup hl hm
      rw [findingId, findingId, idMaterial_eq_iff.mpr ⟨hplace, htokens⟩]
    refine ⟨fun c hc d hd hplace hctokens hdtokens => ?_, fun l hl m hm htokens hplace => ?_⟩
    · -- a candidate without tokens only follows a leader with its text
      have hleader : ∀ e ∈ candidates, tokens host e.finding = [] →
          ∃ l ∈ leaders (sameFinding host) candidates, SamePlace host l e ∧
            trim l.finding = trim e.finding ∧ tokens host l.finding = [] := by
        intro e he hnone
        obtain ⟨l, hl, hsame⟩ := exists_leader host he
        obtain ⟨hplace, htext⟩ := sameFinding_iff.mp hsame
        rw [hnone, similarity_of_nil] at htext
        have htext := htext.resolve_right (by norm_num)
        refine ⟨l, hl, hplace, htext, ?_⟩
        rwa [← htrim l (hmem l hl), htext, htrim e he]
      obtain ⟨l, hl, hlc, hltext, hlnone⟩ := hleader c hc hctokens
      obtain ⟨m, hm, hmd, hmtext, hmnone⟩ := hleader d hd hdtokens
      have hlm := hone l hl m hm (hlc.placeText.trans (hplace.placeText.trans hmd.placeText.symm))
        (by rw [hlnone, hmnone])
      rw [← hltext, hlm, hmtext]
    · rw [hone l hl m hm hplace htokens]
      exact ⟨rfl, rfl⟩
  · rintro ⟨htexts, hplaces⟩
    rw [List.Nodup, List.pairwise_map]
    refine (pairwise_leaders (sameFinding host) candidates).imp_of_mem fun {l m} hl hm hne hid => ?_
    have hmaterial := idMaterial_eq_of_findingId (hhash l (hmem l hl) m (hmem m hm)) hid
    obtain ⟨hplace, htokens⟩ := idMaterial_eq_iff.mp hmaterial
    have hsame := hplaces l hl m hm htokens hplace
    have htrue : sameFinding host l m = true := by
      apply sameFinding_iff.mpr ⟨hsame, ?_⟩
      by_cases hnone : tokens host l.finding = []
      · have hmnone : tokens host m.finding = [] := (hnone ▸ htokens).nil_eq.symm
        exact Or.inl (htexts l (hmem l hl) m (hmem m hm) hsame hnone hmnone)
      · rw [similarity_of_perm htokens hnone]
        exact Or.inr (by norm_num)
    rw [htrue] at hne
    cases hne

/-- The candidates of one finding bring at most one record of an identity. -/
def OneRecordPerIdentity (host : PolicyHost) (candidates : List FindingCandidate) : Prop :=
  ∀ c ∈ candidates, ∀ d ∈ candidates,
    leaderOf? (sameFinding host) candidates c = leaderOf? (sameFinding host) candidates d →
      ∀ p ∈ c.provenance, ∀ q ∈ d.provenance, provenanceKey p = provenanceKey q → p = q

theorem leader_inj {g h : FindingGroup} (hg : g ∈ groupCandidates host candidates)
    (hh : h ∈ groupCandidates host candidates) (hleader : g.leader = h.leader) : g = h := by
  have hnodup : ((groupCandidates host candidates).map Group.leader).Nodup := by
    rw [groupCandidates, leaders_groups]
    refine (pairwise_leaders (sameFinding host) candidates).imp fun {l m} hne heq => ?_
    rw [heq, sameFinding_refl] at hne
    cases hne
  exact List.inj_on_of_nodup_map hnodup hg hh hleader

theorem oneRecordPerIdentity_iff : OneRecordPerIdentity host candidates
      ↔ ∀ g ∈ groupCandidates host candidates, ∀ p ∈ g.members.flatMap FindingCandidate.provenance,
            ∀ q ∈ g.members.flatMap FindingCandidate.provenance,
              provenanceKey p = provenanceKey q → p = q := by
  constructor
  · intro hone g hg p hp q hq
    obtain ⟨c, hc, hpc⟩ := List.mem_flatMap.mp hp
    obtain ⟨d, hd, hqd⟩ := List.mem_flatMap.mp hq
    have hleader : leaderOf? (sameFinding host) candidates c
        = leaderOf? (sameFinding host) candidates d := by
      rw [leaderOf?_of_mem (sameFinding_refl host) hg hc,
        leaderOf?_of_mem (sameFinding_refl host) hg hd]
    exact hone c (mem_order_of_mem_members hg hc) d (mem_order_of_mem_members hg hd) hleader
      p hpc q hqd
  · intro hone c hc d hd hleader p hp q hq
    obtain ⟨g, hg, hcg⟩ := @exists_group _ (sameFinding host) candidates c hc
    obtain ⟨h, hh, hdh⟩ := @exists_group _ (sameFinding host) candidates d hd
    rw [leaderOf?_of_mem (sameFinding_refl host) hg hcg,
      leaderOf?_of_mem (sameFinding_refl host) hh hdh, Option.some.injEq] at hleader
    obtain rfl := leader_inj hg hh hleader
    exact hone g hg p (List.mem_flatMap.mpr ⟨c, hcg, hp⟩) q (List.mem_flatMap.mpr ⟨d, hdh, hq⟩)

/-! ## The synthesis -/

/-- A synthesis that loses nothing of the candidates, is conservative about them
    and keeps its findings apart. -/
structure FaithfulSynthesis (host : PolicyHost) (candidates : List FindingCandidate)
    (findings : List SynthesizedFinding) : Prop where
  partition : ((groupCandidates host candidates).flatMap Group.members).Perm candidates
  covers : List.Forall₂ (fun g finding => ∀ c ∈ Group.members g, CoversCandidate finding c)
    (groupCandidates host candidates) findings
  provenance : List.Forall₂ (fun g finding => ∀ c ∈ Group.members g, ∀ p ∈ c.provenance,
    p ∈ SynthesizedFinding.provenance finding) (groupCandidates host candidates) findings
  confidence : List.Forall₂ (fun g finding => ConfidenceEarned finding (Group.members g))
    (groupCandidates host candidates) findings
  ids : (findings.map SynthesizedFinding.id).Nodup

/-- The condition on the candidates. -/
structure KeepsFindingsApart (host : PolicyHost) (candidates : List FindingCandidate) : Prop where
  texts : TextsTellApart host candidates
  places : PlacesTellApart host candidates
  records : OneRecordPerIdentity host candidates

theorem trim_of_normalizeCandidate {raw : FindingCandidateInput}
    (h : normalizeCandidate host raw = .ok c) : trim c.finding = c.finding := by
  obtain ⟨severity, -, h⟩ := Outcome.bind_eq_ok.mp h
  obtain ⟨confidence, -, h⟩ := Outcome.bind_eq_ok.mp h
  dsimp only at h
  split at h
  · cases h
  cases h
  exact trim_trim _

theorem forall₂_both {α β : Type*} {R S : α → β → Prop} {as : List α} {bs : List β}
    (hR : List.Forall₂ R as bs) (hS : List.Forall₂ S as bs) :
    List.Forall₂ (fun a b => R a b ∧ S a b) as bs := by
  induction hR with
  | nil => exact .nil
  | cons hab _ ih =>
    cases hS with
    | cons hab' hrest => exact .cons ⟨hab, hab'⟩ (ih hrest)

/-- Findings and groups correspond, and the ids are those of the leaders. -/
theorem faithfulSynthesis_iff_of_groups {findings : List SynthesizedFinding}
    (htrim : ∀ c ∈ candidates, trim c.finding = c.finding) (hhash : HashTellsApart host candidates)
    (hgroups : List.Forall₂ (SynthesisOf host) (groupCandidates host candidates) findings) :
    FaithfulSynthesis host candidates findings ↔ KeepsFindingsApart host candidates := by
  have hids : findings.map SynthesizedFinding.id
      = (leaders (sameFinding host) candidates).map (findingId host) := by
    rw [← leaders_groups, List.map_map, ← List.forall₂_eq_eq_eq, List.forall₂_map_left_iff,
      List.forall₂_map_right_iff]
    exact hgroups.flip.imp fun finding g hof => hof.id
  have hapart := nodup_findingIds_iff htrim hhash
  rw [← hids] at hapart
  constructor
  · intro h
    obtain ⟨htexts, hplaces⟩ := hapart.mp h.ids
    refine ⟨htexts, hplaces, oneRecordPerIdentity_iff.mpr fun g hg => ?_⟩
    obtain ⟨finding, -, hof, hprovenance⟩ :=
      exists_of_forall₂ (forall₂_both hgroups h.provenance) hg
    apply hof.records.all_mem_iff.mp
    intro p hp
    obtain ⟨c, hc, hpc⟩ := List.mem_flatMap.mp hp
    exact hprovenance c hc p hpc
  · intro h
    have hone := oneRecordPerIdentity_iff.mp h.records
    refine ⟨flatMap_members_groups _ _, hgroups.imp fun _ _ hof => hof.covers, ?_,
      hgroups.imp fun _ _ hof => hof.confidence, hapart.mpr ⟨h.texts, h.places⟩⟩
    refine ((List.forall₂_and_left _ _).mpr ⟨hone, hgroups⟩).imp ?_
    rintro g finding ⟨hrecords, hof⟩ c hc p hp
    exact hof.records.all_mem_iff.mpr hrecords p (List.mem_flatMap.mpr ⟨c, hc, hp⟩)

/-- Valid candidates are normalized to trimmed ones, and each group of them to a finding. -/
theorem synthesizePrReviewFindings_spec {raws : List FindingCandidateInput}
    (hbound : raws.length ≤ maxFindingSynthesisCandidates)
    (hnormal : raws.mapM (normalizeCandidate host) = .ok candidates)
    (hidentities : ∀ c ∈ candidates, ∀ p ∈ c.provenance, trim p.identity ≠ []) :
    ∃ synthesis, synthesizePrReviewFindings host raws = .ok synthesis ∧
      (∀ c ∈ candidates, trim c.finding = c.finding) ∧
      List.Forall₂ (SynthesisOf host) (groupCandidates host candidates) synthesis.findings := by
  have htrim : ∀ c ∈ candidates, trim c.finding = c.finding := by
    intro c hc
    obtain ⟨raw, -, hraw⟩ := exists_of_forall₂ (Outcome.mapM_eq_ok_iff.mp hnormal).flip hc
    exact trim_of_normalizeCandidate hraw
  have hgroup : ∀ g ∈ groupCandidates host candidates,
      ∃ finding, synthesizeGroup host g = .ok finding ∧ SynthesisOf host g finding := by
    intro g hg
    exact synthesizeGroup_spec host fun c hc => hidentities c (mem_order_of_mem_members hg hc)
  obtain ⟨findings, hfindings⟩ := Outcome.exists_mapM_eq_ok fun g hg =>
    (hgroup g hg).imp fun _ h => h.1
  have hof : List.Forall₂ (SynthesisOf host) (groupCandidates host candidates) findings := by
    refine ((List.forall₂_and_left _ _).mpr ⟨hgroup, Outcome.mapM_eq_ok_iff.mp hfindings⟩).imp ?_
    rintro g finding ⟨⟨finding', hfinding', hof⟩, hfinding⟩
    rw [hfinding'] at hfinding
    cases hfinding
    exact hof
  refine ⟨⟨1, findings, (groupCandidates host candidates).flatMap (groupDiagnostics host)⟩, ?_,
    htrim, hof⟩
  rw [synthesizePrReviewFindings, if_neg (by omega), hnormal]
  dsimp only
  rw [hfindings]

/-- Synthesis of valid candidates succeeds, and it is faithful exactly when texts,
    places and identities tell the candidates apart. -/
theorem faithfulSynthesis_iff {host : PolicyHost} {raws : List FindingCandidateInput}
    {candidates : List FindingCandidate} (hbound : raws.length ≤ maxFindingSynthesisCandidates)
    (hnormal : raws.mapM (normalizeCandidate host) = .ok candidates)
    (hidentities : ∀ c ∈ candidates, ∀ p ∈ c.provenance, trim p.identity ≠ [])
    (hhash : HashTellsApart host candidates) :
    ∃ synthesis, synthesizePrReviewFindings host raws = .ok synthesis ∧
      (FaithfulSynthesis host candidates synthesis.findings
        ↔ KeepsFindingsApart host candidates) := by
  obtain ⟨synthesis, hsynthesis, htrim, hof⟩ :=
    synthesizePrReviewFindings_spec hbound hnormal hidentities
  exact ⟨synthesis, hsynthesis, faithfulSynthesis_iff_of_groups htrim hhash hof⟩

/-! ### Two reviewers, and two texts without a token -/

/-- Case is that of ASCII, and strings are compared by code units. -/
def asciiPolicyHost : PolicyHost where
  toLocaleLowerCase := List.map fun c => if 0x41 ≤ c ∧ c ≤ 0x5A then c + 0x20 else c
  toUpperCase := List.map fun c => if 0x61 ≤ c ∧ c ≤ 0x7A then c - 0x20 else c
  localeCompare := fun a b => if a = b then 0 else if codeUnitLe a b then -1 else 1

/-- A candidate of one reviewer at one line. -/
def reviewedInput (finding identity : JsString) : FindingCandidateInput where
  finding := finding
  severity := js "HIGH"
  action := none
  confidence := js "low"
  category := js "bug"
  location := { file := js "a.ts", line := 7, lineEnd := none }
  provenance := [{ identity := identity, lane := none, rest := [] }]
  status := none
  sourceFindingId := none

def reviewedCandidate (finding identity : JsString) : FindingCandidate where
  finding := finding
  severity := .high
  action := none
  confidence := .low
  category := js "bug"
  location := { file := js "a.ts", line := 7, lineEnd := none }
  provenance := [{ identity := identity, lane := none, rest := [] }]
  status := none
  sourceFindingId := none

theorem samePlace_reviewed (f f' i i' : JsString) :
    SamePlace asciiPolicyHost (reviewedCandidate f i) (reviewedCandidate f' i') := ⟨rfl, rfl⟩

variable {f f' : JsString}

/-- At one place the tokens decide the material, whatever the hash does. -/
theorem idMaterial_reviewed (i i' : JsString)
    (h : tokens asciiPolicyHost f = tokens asciiPolicyHost f') :
    idMaterial asciiPolicyHost (reviewedCandidate f i)
      = idMaterial asciiPolicyHost (reviewedCandidate f' i') :=
  idMaterial_eq_iff.mpr ⟨(samePlace_reviewed f f' i i').placeText, .of_eq h⟩

theorem hashTellsApart_reviewed (i i' : JsString)
    (h : tokens asciiPolicyHost f = tokens asciiPolicyHost f') :
    HashTellsApart asciiPolicyHost [reviewedCandidate f i, reviewedCandidate f' i'] := by
  intro c hc d hd _
  simp only [List.mem_cons, List.not_mem_nil, or_false] at hc hd
  rcases hc with rfl | rfl <;> rcases hd with rfl | rfl
  · rfl
  · exact idMaterial_reviewed i i' h
  · exact idMaterial_reviewed i' i h.symm
  · rfl

theorem identities_reviewed {i i' : JsString} (hi : trim i ≠ []) (hi' : trim i' ≠ []) :
    ∀ c ∈ [reviewedCandidate f i, reviewedCandidate f' i'], ∀ p ∈ c.provenance,
      trim p.identity ≠ [] := by
  intro c hc p hp
  simp only [List.mem_cons, List.not_mem_nil, or_false] at hc
  rcases hc with rfl | rfl
  · rw [List.mem_singleton.mp hp]
    exact hi
  · rw [List.mem_singleton.mp hp]
    exact hi'

/-- Two reviewers report one thing in the same words. -/
theorem faithfulSynthesis_reviewed :
    ∃ synthesis, synthesizePrReviewFindings asciiPolicyHost
        [reviewedInput (js "null read") (js "r1"), reviewedInput (js "null read") (js "r2")]
          = .ok synthesis ∧ FaithfulSynthesis asciiPolicyHost
        [reviewedCandidate (js "null read") (js "r1"), reviewedCandidate (js "null read") (js "r2")]
        synthesis.findings := by
  have hnormal : [reviewedInput (js "null read") (js "r1"),
      reviewedInput (js "null read") (js "r2")].mapM (normalizeCandidate asciiPolicyHost)
        = .ok [reviewedCandidate (js "null read") (js "r1"),
            reviewedCandidate (js "null read") (js "r2")] := by rfl
  have hone : trim (js "r1") ≠ [] := by decide
  have htwo : trim (js "r2") ≠ [] := by decide
  obtain ⟨synthesis, hsynthesis, hiff⟩ := faithfulSynthesis_iff (by decide) hnormal
    (identities_reviewed hone htwo) (hashTellsApart_reviewed _ _ rfl)
  have hreviewed : ∀ c ∈ [reviewedCandidate (js "null read") (js "r1"),
      reviewedCandidate (js "null read") (js "r2")],
      ∃ i ∈ [js "r1", js "r2"], c = reviewedCandidate (js "null read") i := by
    intro c hc
    simp only [List.mem_cons, List.not_mem_nil, or_false] at hc
    rcases hc with rfl | rfl
    · exact ⟨js "r1", by simp, rfl⟩
    · exact ⟨js "r2", by simp, rfl⟩
  refine ⟨synthesis, hsynthesis, hiff.mpr ⟨?_, ?_, ?_⟩⟩
  · intro c hc d hd _ _ _
    obtain ⟨i, -, rfl⟩ := hreviewed c hc
    obtain ⟨i', -, rfl⟩ := hreviewed d hd
    rfl
  · intro l hl m hm _ _
    obtain ⟨i, -, rfl⟩ := hreviewed l ((leaders_sublist _ _).subset hl)
    obtain ⟨i', -, rfl⟩ := hreviewed m ((leaders_sublist _ _).subset hm)
    exact samePlace_reviewed _ _ _ _
  · intro c hc d hd _ p hp q hq hkey
    obtain ⟨i, hi, rfl⟩ := hreviewed c hc
    obtain ⟨i', hi', rfl⟩ := hreviewed d hd
    obtain rfl := List.mem_singleton.mp hp
    obtain rfl := List.mem_singleton.mp hq
    have htrim : ∀ j ∈ [js "r1", js "r2"], trim j = j := by decide
    have heq : i = i' := by
      rw [← htrim i hi, ← htrim i' hi']
      exact hkey
    rw [heq]

/-- Two reviewers report two things, each in words without a Latin token. -/
theorem not_faithfulSynthesis_reviewed :
    HashTellsApart asciiPolicyHost
      [reviewedCandidate (js "内存泄漏") (js "r1"), reviewedCandidate (js "空指针") (js "r2")] ∧
    ∃ synthesis, synthesizePrReviewFindings asciiPolicyHost
        [reviewedInput (js "内存泄漏") (js "r1"), reviewedInput (js "空指针") (js "r2")] = .ok synthesis ∧
      ¬ FaithfulSynthesis asciiPolicyHost
        [reviewedCandidate (js "内存泄漏") (js "r1"), reviewedCandidate (js "空指针") (js "r2")]
        synthesis.findings := by
  have hhash := hashTellsApart_reviewed (js "r1") (js "r2")
    (show tokens asciiPolicyHost (js "内存泄漏") = tokens asciiPolicyHost (js "空指针") by
      decide +kernel)
  have hnormal : [reviewedInput (js "内存泄漏") (js "r1"),
      reviewedInput (js "空指针") (js "r2")].mapM (normalizeCandidate asciiPolicyHost)
        = .ok [reviewedCandidate (js "内存泄漏") (js "r1"),
            reviewedCandidate (js "空指针") (js "r2")] := by rfl
  have hone : trim (js "r1") ≠ [] := by decide
  have htwo : trim (js "r2") ≠ [] := by decide
  obtain ⟨synthesis, hsynthesis, htrim, hof⟩ := synthesizePrReviewFindings_spec (by decide) hnormal
    (identities_reviewed hone htwo)
  refine ⟨hhash, synthesis, hsynthesis, fun hfaithful => ?_⟩
  have htexts := ((faithfulSynthesis_iff_of_groups htrim hhash hof).mp hfaithful).texts
  have hsame := htexts _ List.mem_cons_self _ (List.mem_cons_of_mem _ List.mem_cons_self)
    (samePlace_reviewed _ _ _ _) (by decide +kernel) (by decide +kernel)
  exact absurd hsame (by decide +kernel)

end OpencodeSwarm
