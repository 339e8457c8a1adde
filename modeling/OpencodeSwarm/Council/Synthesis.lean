/-
  OpencodeSwarm.Council.Synthesis

  The synthesis of a council's verdicts (`src/council/council-service.ts`): the
  overall verdict, and the findings sorted into required fixes and advisory
  findings.  The task, phase and project councils have a copy each; what the
  three copies repeat is defined once here, and each synthesis keeps its own
  result and its own criteria rule.

  A finding is an object: the promotion of blocking concerns moves findings by
  identity, so each carries a reference.  Left out are the time stamp, the
  conflict texts and the Markdown, which nothing here depends on.
-/
import OpencodeSwarm.Council.RoundState
import Mathlib.Data.List.Dedup
import Mathlib.Data.List.Pairwise

namespace OpencodeSwarm

open Js

/-! ## Verdicts -/

inductive CouncilSeverity where
  | critical | high | medium | low
  deriving DecidableEq

inductive CouncilAgent where
  | critic | reviewer | sme | testEngineer | explorer
  deriving DecidableEq

structure CouncilFinding where
  /-- The object itself, as a `Set` compares it. -/
  ref : Nat
  severity : CouncilSeverity
  location : JsString
  detail : JsString
  evidence : JsString
  deriving DecidableEq

structure CouncilMemberVerdict where
  agent : CouncilAgent
  verdict : CouncilVerdict
  findings : List CouncilFinding
  criteriaAssessed : List JsString
  criteriaUnmet : List JsString
  deriving DecidableEq

/-- The verdicts of one submission.  They are parsed from one text, so no two
    findings are one object. -/
structure CouncilVerdicts where
  members : List CouncilMemberVerdict
  apart : (members.flatMap fun v => v.findings.map CouncilFinding.ref).Nodup

structure CouncilCriteriaItem where
  id : JsString
  description : JsString
  mandatory : Bool

/-- The part of `Partial<CouncilConfig>` that is read. -/
structure PartialCouncilConfig where
  vetoPriority : Option Bool

/-- `{ ...COUNCIL_DEFAULTS, ...config }.vetoPriority`. -/
def PartialCouncilConfig.vetoes (config : PartialCouncilConfig) : Bool :=
  config.vetoPriority.getD true

/-! ## What the three councils repeat -/

/-- `new Set(ids).size`. -/
def setSize {α : Type*} [DecidableEq α] (xs : List α) : Nat := xs.dedup.length

def quorumSize (verdicts : List CouncilMemberVerdict) : Nat :=
  setSize (verdicts.map CouncilMemberVerdict.agent)

def rejectingMembers (verdicts : List CouncilMemberVerdict) : List CouncilAgent :=
  (verdicts.filter fun v => v.verdict = .reject).map CouncilMemberVerdict.agent

def overallVerdict (config : PartialCouncilConfig) (verdicts : List CouncilMemberVerdict) :
    CouncilVerdict :=
  if config.vetoes && 0 < (rejectingMembers verdicts).length then .reject
  else if (verdicts.any fun v => v.verdict = .concerns)
      || (!config.vetoes && 0 < (rejectingMembers verdicts).length) then .concerns
  else .approve

def vetoFindings (rejectingSet : List CouncilAgent) (verdicts : List CouncilMemberVerdict) :
    List CouncilFinding :=
  (verdicts.filter fun v => rejectingSet.contains v.agent).flatMap CouncilMemberVerdict.findings

def isRequiredSeverity (f : CouncilFinding) : Bool :=
  f.severity = .critical || f.severity = .high || f.severity = .medium

def isBlockingSeverity (f : CouncilFinding) : Bool :=
  f.severity = .critical || f.severity = .high

/-- `for (let i = n - 1; i >= 0; i--) if (blockingSet.has(findings[i])) findings.splice(i, 1)`. -/
def spliceBlocking (blocking : List CouncilFinding) :
    (n : Nat) → List CouncilFinding → List CouncilFinding
  | 0, findings => findings
  | i + 1, findings =>
    let rest :=
      match findings[i]? with
      | some f => if (blocking.map CouncilFinding.ref).contains f.ref then findings.eraseIdx i
        else findings
      | none => findings
    spliceBlocking blocking i rest

/-- `promoteBlockingConcerns`: the count it returns, and the two arrays as it
    leaves them. -/
def promoteBlockingConcerns (verdicts : List CouncilMemberVerdict)
    (rejectingSet : List CouncilAgent) (requiredFixes advisoryFindings : List CouncilFinding) :
    Nat × List CouncilFinding × List CouncilFinding :=
  let concernsFindings := (verdicts.filter fun v =>
    v.verdict = .concerns && !rejectingSet.contains v.agent).flatMap CouncilMemberVerdict.findings
  let blocking := concernsFindings.filter isBlockingSeverity
  if blocking.length = 0 then (0, requiredFixes, advisoryFindings)
  else (blocking.length, requiredFixes ++ blocking,
    spliceBlocking blocking advisoryFindings.length advisoryFindings)

/-- The classification of the findings: the blocking count, the required fixes
    and the advisory findings. -/
def classifyFindings (verdicts : List CouncilMemberVerdict) :
    Nat × List CouncilFinding × List CouncilFinding :=
  let rejectingSet := rejectingMembers verdicts
  let veto := vetoFindings rejectingSet verdicts
  let requiredFixes := veto.filter isRequiredSeverity
  let advisoryFindings := (veto.filter fun f => f.severity = .low)
    ++ (verdicts.filter fun v => !rejectingSet.contains v.agent).flatMap
        CouncilMemberVerdict.findings
  promoteBlockingConcerns verdicts rejectingSet requiredFixes advisoryFindings

def vetoedBy (verdicts : List CouncilMemberVerdict) : Option (List CouncilAgent) :=
  if 0 < (rejectingMembers verdicts).length then some (rejectingMembers verdicts) else none

/-! ## The three councils -/

structure CouncilSynthesis where
  taskId : JsString
  swarmId : JsString
  overallVerdict : CouncilVerdict
  vetoedBy : Option (List CouncilAgent)
  memberVerdicts : List CouncilMemberVerdict
  requiredFixes : List CouncilFinding
  advisoryFindings : List CouncilFinding
  roundNumber : Nat
  allCriteriaMet : Bool
  quorumSize : Nat
  blockingConcernsCount : Nat
  emptyVerdictsWarning : Option Bool

/-- A mandatory criterion is met when a member assessed it and none found it unmet. -/
def mandatoryCriteriaMet (criteria : Option (List CouncilCriteriaItem))
    (verdicts : List CouncilMemberVerdict) : Bool :=
  let allAssessedIds := verdicts.flatMap CouncilMemberVerdict.criteriaAssessed
  let allUnmetIds := verdicts.flatMap CouncilMemberVerdict.criteriaUnmet
  let mandatoryIds := ((criteria.getD []).filter CouncilCriteriaItem.mandatory).map
    CouncilCriteriaItem.id
  mandatoryIds.all fun id => allAssessedIds.contains id && !allUnmetIds.contains id

/-- The verdicts of a task's council as one. -/
def synthesizeCouncilVerdicts (taskId swarmId : JsString) (verdicts : List CouncilMemberVerdict)
    (criteria : Option (List CouncilCriteriaItem)) (roundNumber : Nat)
    (config : PartialCouncilConfig) : CouncilSynthesis where
  taskId := taskId
  swarmId := swarmId
  overallVerdict := overallVerdict config verdicts
  vetoedBy := vetoedBy verdicts
  memberVerdicts := verdicts
  requiredFixes := (classifyFindings verdicts).2.1
  advisoryFindings := (classifyFindings verdicts).2.2
  roundNumber := roundNumber
  allCriteriaMet := mandatoryCriteriaMet criteria verdicts
  quorumSize := quorumSize verdicts
  blockingConcernsCount := (classifyFindings verdicts).1
  emptyVerdictsWarning := if verdicts.length = 0 then some true else none

/-- No criteria are declared for a phase or the project: one unmet criterion of
    a member is enough. -/
def noCriterionUnmet (verdicts : List CouncilMemberVerdict) : Bool :=
  setSize (verdicts.flatMap CouncilMemberVerdict.criteriaUnmet) = 0 && 0 < verdicts.length

structure PhaseCouncilSynthesis where
  phaseNumber : Nat
  overallVerdict : CouncilVerdict
  vetoedBy : Option (List CouncilAgent)
  memberVerdicts : List CouncilMemberVerdict
  requiredFixes : List CouncilFinding
  advisoryFindings : List CouncilFinding
  advisoryNotes : List JsString
  roundNumber : Nat
  allCriteriaMet : Bool
  quorumSize : Nat
  blockingConcernsCount : Nat
  evidencePath : JsString
  phaseSummary : JsString

/-- The verdicts of a phase's council as one, with notes. -/
def synthesizePhaseCouncilAdvisory (phaseNumber : Nat) (phaseSummary : JsString)
    (verdicts : List CouncilMemberVerdict) (roundNumber : Nat) (config : PartialCouncilConfig) :
    PhaseCouncilSynthesis where
  phaseNumber := phaseNumber
  overallVerdict := overallVerdict config verdicts
  vetoedBy := vetoedBy verdicts
  memberVerdicts := verdicts
  requiredFixes := (classifyFindings verdicts).2.1
  advisoryFindings := (classifyFindings verdicts).2.2
  advisoryNotes :=
    let advisoryFindings := (classifyFindings verdicts).2.2
    (if 0 < advisoryFindings.length then
      [js "Phase " ++ decimal phaseNumber ++ js " council found "
        ++ decimal advisoryFindings.length
        ++ js " advisory finding(s). Review before proceeding to next phase."] else [])
    ++ (if verdicts.length < 3 then
      [js "Phase council quorum is " ++ decimal verdicts.length
        ++ js " members — consider convening additional members for broader review coverage."]
      else [])
  roundNumber := roundNumber
  allCriteriaMet := noCriterionUnmet verdicts
  quorumSize := quorumSize verdicts
  blockingConcernsCount := (classifyFindings verdicts).1
  evidencePath := js ".swarm/evidence/" ++ decimal phaseNumber ++ js "/phase-council.json"
  phaseSummary := phaseSummary

structure FinalCouncilSynthesis where
  overallVerdict : CouncilVerdict
  vetoedBy : Option (List CouncilAgent)
  memberVerdicts : List CouncilMemberVerdict
  requiredFixes : List CouncilFinding
  advisoryFindings : List CouncilFinding
  advisoryNotes : List JsString
  roundNumber : Nat
  allCriteriaMet : Bool
  quorumSize : Nat
  evidencePath : JsString
  blockingConcernsCount : Nat
  projectSummary : JsString

/-- The verdicts of the final council as one, with notes. -/
def synthesizeFinalCouncilAdvisory (projectSummary : JsString)
    (verdicts : List CouncilMemberVerdict) (roundNumber : Nat) (config : PartialCouncilConfig) :
    FinalCouncilSynthesis where
  overallVerdict := overallVerdict config verdicts
  vetoedBy := vetoedBy verdicts
  memberVerdicts := verdicts
  requiredFixes := (classifyFindings verdicts).2.1
  advisoryFindings := (classifyFindings verdicts).2.2
  advisoryNotes :=
    let advisoryFindings := (classifyFindings verdicts).2.2
    (if 0 < advisoryFindings.length then
      [js "Final council found " ++ decimal advisoryFindings.length
        ++ js " advisory finding(s). Review before project close."] else [])
    ++ (if quorumSize verdicts < 3 then
      [js "Final council quorum is " ++ decimal (quorumSize verdicts)
        ++ js " members - dispatch additional project-scoped council members before closing the project."]
      else [])
  roundNumber := roundNumber
  allCriteriaMet := noCriterionUnmet verdicts
  quorumSize := quorumSize verdicts
  evidencePath := js ".swarm/evidence/final-council.json"
  blockingConcernsCount := (classifyFindings verdicts).1
  projectSummary := projectSummary

/-! ## The loop over the advisory findings -/

/-- A finding is no object of `blocking`. -/
def staysAdvisory (blocking : List CouncilFinding) (f : CouncilFinding) : Bool :=
  !(blocking.map CouncilFinding.ref).contains f.ref

/-- The loop has filtered what lies from `n` on; this is the rest. -/
theorem spliceBlocking_eq (blocking : List CouncilFinding) :
    ∀ (n : Nat) (findings : List CouncilFinding), n ≤ findings.length →
      spliceBlocking blocking n findings
        = (findings.take n).filter (staysAdvisory blocking) ++ findings.drop n := by
  intro n
  induction n with
  | zero => intro findings _; rw [spliceBlocking]; simp
  | succ i ih =>
    intro findings hlength
    have hget : findings[i]? = some findings[i] := List.getElem?_eq_getElem hlength
    have htake : findings.take (i + 1) = findings.take i ++ [findings[i]] :=
      List.take_succ_eq_append_getElem hlength
    rw [spliceBlocking]
    simp only [hget]
    by_cases hblocking : (blocking.map CouncilFinding.ref).contains findings[i].ref = true
    · have hstays : staysAdvisory blocking findings[i] = false := by
        rw [staysAdvisory, hblocking, Bool.not_true]
      have herase : findings.eraseIdx i = findings.take i ++ findings.drop (i + 1) :=
        List.eraseIdx_eq_take_drop_succ findings i
      have hfront : (findings.take i).length = i := by
        rw [List.length_take]
        omega
      rw [if_pos hblocking, ih _ (by rw [List.length_eraseIdx_of_lt hlength]; omega), herase,
        List.take_left' hfront, List.drop_left' hfront, htake, List.filter_append]
      simp [hstays]
    · have hstays : staysAdvisory blocking findings[i] = true := by
        simpa [staysAdvisory] using hblocking
      rw [if_neg hblocking, ih _ (by omega), htake, List.filter_append,
        List.drop_eq_getElem_cons hlength]
      simp [hstays]

/-- Promotion moves the blocking findings, whether or not there are any. -/
theorem promoteBlockingConcerns_eq (verdicts : List CouncilMemberVerdict)
    (rejectingSet : List CouncilAgent) (requiredFixes advisoryFindings : List CouncilFinding)
    {blocking : List CouncilFinding} (hblocking : blocking = ((verdicts.filter fun v =>
      v.verdict = .concerns && !rejectingSet.contains v.agent).flatMap
        CouncilMemberVerdict.findings).filter isBlockingSeverity) :
    promoteBlockingConcerns verdicts rejectingSet requiredFixes advisoryFindings
      = (blocking.length, requiredFixes ++ blocking,
          advisoryFindings.filter (staysAdvisory blocking)) := by
  dsimp only [promoteBlockingConcerns]
  rw [← hblocking]
  split
  · next hnone =>
    have hstays : advisoryFindings.filter (staysAdvisory []) = advisoryFindings :=
      List.filter_eq_self.mpr fun _ _ => rfl
    rw [List.length_eq_zero_iff.mp hnone, hstays, List.append_nil, List.length_nil]
  · rw [spliceBlocking_eq _ _ _ (Nat.le_refl _), List.take_length, List.drop_length,
      List.append_nil]

/-! ## Which findings are required -/

/-- A finding of `v` that has to be fixed. -/
def isRequiredOf (verdicts : List CouncilMemberVerdict) (v : CouncilMemberVerdict)
    (f : CouncilFinding) : Bool :=
  if (rejectingMembers verdicts).contains v.agent then isRequiredSeverity f
  else v.verdict = .concerns && isBlockingSeverity f

variable {v : CouncilMemberVerdict}

theorem isRequiredOf_of_rejecting {verdicts : List CouncilMemberVerdict}
    (h : (rejectingMembers verdicts).contains v.agent = true) (f : CouncilFinding) :
    isRequiredOf verdicts v f = isRequiredSeverity f := by rw [isRequiredOf, if_pos h]

theorem isRequiredOf_of_other {verdicts : List CouncilMemberVerdict}
    (h : (rejectingMembers verdicts).contains v.agent = false) (f : CouncilFinding) :
    isRequiredOf verdicts v f = (decide (v.verdict = .concerns) && isBlockingSeverity f) := by
  rw [isRequiredOf, if_neg (by rw [h]; exact Bool.false_ne_true)]

/-- No other verdict holds an object of this one, and no other finding is it. -/
theorem owner_unique (verdicts : CouncilVerdicts) {w : CouncilMemberVerdict} {f g : CouncilFinding}
    (hv : v ∈ verdicts.members) (hw : w ∈ verdicts.members) (hf : f ∈ v.findings)
    (hg : g ∈ w.findings) (href : f.ref = g.ref) : v = w ∧ f = g := by
  obtain ⟨hnodup, hdisjoint⟩ := List.nodup_flatMap.mp verdicts.apart
  have howner : v = w := by
    by_contra hne
    have hsymm : Std.Symm (Function.onFun List.Disjoint
        fun v : CouncilMemberVerdict => v.findings.map CouncilFinding.ref) := ⟨fun _ _ h => h.symm⟩
    have hapart := hdisjoint.forall hv hw hne
    exact hapart (List.mem_map_of_mem hf) (href ▸ List.mem_map_of_mem hg)
  subst howner
  exact ⟨rfl, List.inj_on_of_nodup_map (hnodup v hv) hf hg href⟩

/-! ## The two lists -/

theorem flatMap_filter_and {α β : Type*} (p q : α → Bool) (F : α → List β) (xs : List α) :
    (xs.filter fun a => p a && q a).flatMap F
      = (xs.filter q).flatMap fun a => if p a then F a else [] := by
  induction xs with
  | nil => rfl
  | cons a xs ih =>
    cases hq : q a with
    | false => rw [List.filter_cons_of_neg (by simp [hq]), List.filter_cons_of_neg (by simp [hq]), ih]
    | true =>
      rw [List.filter_cons_of_pos hq, List.flatMap_cons, ← ih]
      cases hp : p a with
      | false => rw [List.filter_cons_of_neg (by simp [hp])]; rfl
      | true => rw [List.filter_cons_of_pos (by simp [hp, hq]), List.flatMap_cons]; rfl

theorem perm_flatMap_filter {α β : Type*} (p : α → Bool) (F : α → List β) (xs : List α) :
    (xs.flatMap F).Perm ((xs.filter p).flatMap F ++ (xs.filter fun a => !p a).flatMap F) := by
  rw [← List.flatMap_append]
  exact (List.filter_append_perm p xs).symm.flatMap_right F

section Classification

variable (members : List CouncilMemberVerdict)

/-- The findings that promotion moves. -/
def blockingFindings : List CouncilFinding :=
  ((members.filter fun v => v.verdict = .concerns
    && !(rejectingMembers members).contains v.agent).flatMap
      CouncilMemberVerdict.findings).filter isBlockingSeverity

/-- The findings of the agents that did not reject. -/
def otherFindings : List CouncilFinding :=
  (members.filter fun v => !(rejectingMembers members).contains v.agent).flatMap
    CouncilMemberVerdict.findings

theorem classifyFindings_eq :
    classifyFindings members = ((blockingFindings members).length,
          (vetoFindings (rejectingMembers members) members).filter isRequiredSeverity
            ++ blockingFindings members,
          ((vetoFindings (rejectingMembers members) members).filter (fun f => f.severity = .low)
            ++ otherFindings members).filter (staysAdvisory (blockingFindings members))) := by
  rw [classifyFindings, promoteBlockingConcerns_eq members _ _ _ rfl]
  rfl

theorem vetoFindings_required :
    (vetoFindings (rejectingMembers members) members).filter isRequiredSeverity
      = (members.filter fun v => (rejectingMembers members).contains v.agent).flatMap fun v =>
          v.findings.filter (isRequiredOf members v) := by
  rw [vetoFindings, List.filter_flatMap]
  refine List.flatMap_congr fun v hv => List.filter_congr fun f _ => ?_
  exact (isRequiredOf_of_rejecting (List.mem_filter.mp hv).2 f).symm

/-- The blocking findings are the required ones of the other verdicts. -/
theorem blockingFindings_eq :
    blockingFindings members
      = (members.filter fun v => !(rejectingMembers members).contains v.agent).flatMap fun v =>
          v.findings.filter (isRequiredOf members v) := by
  rw [blockingFindings, List.filter_flatMap, flatMap_filter_and]
  refine List.flatMap_congr fun v hv => ?_
  have hother : (rejectingMembers members).contains v.agent = false := by
    simpa using List.of_mem_filter hv
  by_cases hconcerns : v.verdict = .concerns
  · rw [if_pos (decide_eq_true hconcerns)]
    refine List.filter_congr fun f _ => ?_
    rw [isRequiredOf_of_other hother, decide_eq_true hconcerns, Bool.true_and]
  · rw [if_neg (by simpa using hconcerns)]
    symm
    rw [List.filter_eq_nil_iff]
    intro f _
    rw [isRequiredOf_of_other hother, decide_eq_false hconcerns, Bool.false_and]
    exact Bool.false_ne_true

theorem required_perm :
    (classifyFindings members).2.1.Perm
      (members.flatMap fun v => v.findings.filter (isRequiredOf members v)) := by
  rw [classifyFindings_eq, vetoFindings_required, blockingFindings_eq]
  exact (perm_flatMap_filter _ _ members).symm

end Classification

/-- An object is moved exactly when it is a blocking finding of a verdict whose
    agent did not reject. -/
theorem staysAdvisory_eq (verdicts : CouncilVerdicts) {f : CouncilFinding}
    (hv : v ∈ verdicts.members) (hf : f ∈ v.findings) :
    staysAdvisory (blockingFindings verdicts.members) f
      = ((rejectingMembers verdicts.members).contains v.agent
          || !isRequiredOf verdicts.members v f) := by
  have hmoved : f.ref ∈ (blockingFindings verdicts.members).map CouncilFinding.ref
      ↔ (rejectingMembers verdicts.members).contains v.agent = false
        ∧ isRequiredOf verdicts.members v f = true := by
    rw [blockingFindings_eq, List.mem_map]
    constructor
    · rintro ⟨g, hg, href⟩
      obtain ⟨w, hw, hgw⟩ := List.mem_flatMap.mp hg
      obtain ⟨hmem, hother⟩ := List.mem_filter.mp hw
      obtain ⟨hgmem, hrequired⟩ := List.mem_filter.mp hgw
      obtain ⟨rfl, rfl⟩ := owner_unique verdicts hmem hv hgmem hf href
      exact ⟨by simpa using hother, hrequired⟩
    · rintro ⟨hother, hrequired⟩
      refine ⟨f, List.mem_flatMap.mpr ⟨v, ?_, List.mem_filter.mpr ⟨hf, hrequired⟩⟩, rfl⟩
      exact List.mem_filter.mpr ⟨hv, by rw [hother]; rfl⟩
  rw [staysAdvisory, Bool.eq_iff_iff]
  cases hrej : (rejectingMembers verdicts.members).contains v.agent <;>
    simp_all

/-- What is left of the other findings, together with the moved ones. -/
theorem otherFindings_perm (verdicts : CouncilVerdicts) :
    (blockingFindings verdicts.members ++ (otherFindings verdicts.members).filter
          (staysAdvisory (blockingFindings verdicts.members))).Perm
      (otherFindings verdicts.members) := by
  have hmoved : (otherFindings verdicts.members).filter
      (fun f => !staysAdvisory (blockingFindings verdicts.members) f)
        = blockingFindings verdicts.members := by
    conv_rhs => rw [blockingFindings_eq]
    rw [otherFindings, List.filter_flatMap]
    refine List.flatMap_congr fun v hv => List.filter_congr fun f hf => ?_
    obtain ⟨hmem, hother⟩ := List.mem_filter.mp hv
    have hnot : (rejectingMembers verdicts.members).contains v.agent = false := by
      simpa using hother
    rw [staysAdvisory_eq verdicts hmem hf, hnot, Bool.false_or, Bool.not_not]
  have hsplit := List.filter_append_perm
    (fun f => !staysAdvisory (blockingFindings verdicts.members) f)
    (otherFindings verdicts.members)
  simp only [Bool.not_not] at hsplit
  rw [hmoved] at hsplit
  exact hsplit

theorem lowFindings_stay (verdicts : CouncilVerdicts) :
    ((vetoFindings (rejectingMembers verdicts.members) verdicts.members).filter
        fun f => f.severity = .low).filter (staysAdvisory (blockingFindings verdicts.members))
      = (vetoFindings (rejectingMembers verdicts.members) verdicts.members).filter
          fun f => f.severity = .low := by
  rw [List.filter_eq_self]
  intro f hf
  obtain ⟨v, hv, hmem⟩ := List.mem_flatMap.mp (List.mem_of_mem_filter hf)
  obtain ⟨hverdict, hrejecting⟩ := List.mem_filter.mp hv
  rw [staysAdvisory_eq verdicts hverdict hmem, hrejecting, Bool.true_or]

theorem severity_perm (findings : List CouncilFinding) :
    (findings.filter isRequiredSeverity ++ findings.filter fun f => f.severity = .low).Perm
      findings := by
  have hlow : ∀ f : CouncilFinding, decide (f.severity = .low) = !isRequiredSeverity f := by
    intro f
    unfold isRequiredSeverity
    cases f.severity <;> rfl
  simp only [hlow]
  exact List.filter_append_perm isRequiredSeverity findings

theorem findings_perm (verdicts : CouncilVerdicts) :
    ((classifyFindings verdicts.members).2.1 ++ (classifyFindings verdicts.members).2.2).Perm
      (verdicts.members.flatMap CouncilMemberVerdict.findings) := by
  obtain ⟨veto, hveto⟩ : ∃ veto,
      vetoFindings (rejectingMembers verdicts.members) verdicts.members = veto := ⟨_, rfl⟩
  have hall : (veto ++ otherFindings verdicts.members).Perm
      (verdicts.members.flatMap CouncilMemberVerdict.findings) := by
    rw [← hveto]
    exact (perm_flatMap_filter _ _ _).symm
  refine List.Perm.trans ?_ hall
  rw [classifyFindings_eq, List.filter_append, lowFindings_stay, hveto]
  obtain ⟨kept, hkept⟩ : ∃ kept, (otherFindings verdicts.members).filter
      (staysAdvisory (blockingFindings verdicts.members)) = kept := ⟨_, rfl⟩
  have hothers := otherFindings_perm verdicts
  rw [hkept] at hothers ⊢
  calc veto.filter isRequiredSeverity ++ blockingFindings verdicts.members
        ++ ((veto.filter fun f => f.severity = .low) ++ kept)
      = veto.filter isRequiredSeverity ++ (blockingFindings verdicts.members
          ++ (veto.filter fun f => f.severity = .low)) ++ kept := by simp only [List.append_assoc]
    List.Perm _ (veto.filter isRequiredSeverity ++ ((veto.filter fun f => f.severity = .low)
          ++ blockingFindings verdicts.members) ++ kept) :=
        (List.perm_append_comm.append_left _).append_right _
    _ = (veto.filter isRequiredSeverity ++ veto.filter fun f => f.severity = .low)
          ++ (blockingFindings verdicts.members ++ kept) := by simp only [List.append_assoc]
    List.Perm _ (veto ++ otherFindings verdicts.members) := (severity_perm veto).append hothers

/-! ## The order of the verdicts -/

section Order

variable {members reordered : List CouncilMemberVerdict} (hperm : members.Perm reordered)
include hperm

theorem rejectingMembers_perm : (rejectingMembers members).Perm (rejectingMembers reordered) :=
  (hperm.filter _).map _

theorem quorumSize_perm : quorumSize members = quorumSize reordered :=
  ((hperm.map _).dedup).length_eq

theorem overallVerdict_perm (config : PartialCouncilConfig) :
    overallVerdict config members = overallVerdict config reordered := by
  have hconcerns : (members.any fun v => decide (v.verdict = .concerns))
      = reordered.any fun v => decide (v.verdict = .concerns) := hperm.any_eq
  rw [overallVerdict, overallVerdict, (rejectingMembers_perm hperm).length_eq, hconcerns]

theorem noCriterionUnmet_perm : noCriterionUnmet members = noCriterionUnmet reordered := by
  have hunmet := ((hperm.flatMap_right CouncilMemberVerdict.criteriaUnmet).dedup).length_eq
  rw [noCriterionUnmet, noCriterionUnmet, setSize, setSize, hunmet, hperm.length_eq]

theorem mandatoryCriteriaMet_perm (criteria : Option (List CouncilCriteriaItem)) :
    mandatoryCriteriaMet criteria members = mandatoryCriteriaMet criteria reordered := by
  have hcontains : ∀ (F : CouncilMemberVerdict → List JsString) (id : JsString),
      (members.flatMap F).contains id = (reordered.flatMap F).contains id := by
    intro F id
    rw [Bool.eq_iff_iff, List.contains_iff_mem, List.contains_iff_mem]
    exact (hperm.flatMap_right F).mem_iff
  exact List.all_congr rfl fun id => by rw [hcontains, hcontains]

theorem isRequiredOf_perm : isRequiredOf members = isRequiredOf reordered := by
  funext v f
  have hrejecting : (rejectingMembers members).contains v.agent
      = (rejectingMembers reordered).contains v.agent := by
    rw [Bool.eq_iff_iff, List.contains_iff_mem, List.contains_iff_mem]
    exact (rejectingMembers_perm hperm).mem_iff
  rw [isRequiredOf, isRequiredOf, hrejecting]

theorem requiredFixes_perm :
    (classifyFindings members).2.1.Perm (classifyFindings reordered).2.1 := by
  refine (required_perm members).trans (List.Perm.trans ?_ (required_perm reordered).symm)
  rw [isRequiredOf_perm hperm]
  exact hperm.flatMap_right _

end Order

variable {verdicts : CouncilVerdicts}

/-- What is not required is advisory, so the advisory findings follow. -/
theorem advisoryFindings_perm {reordered : CouncilVerdicts}
    (hperm : verdicts.members.Perm reordered.members) :
    (classifyFindings verdicts.members).2.2.Perm (classifyFindings reordered.members).2.2 := by
  have hall := (findings_perm verdicts).trans
    ((hperm.flatMap_right CouncilMemberVerdict.findings).trans (findings_perm reordered).symm)
  have hrequired := requiredFixes_perm hperm
  exact (List.perm_append_left_iff _).mp (hall.trans (hrequired.symm.append_right _))

/-! ## The results of the three councils -/

/-- What the three results have in common. -/
structure SynthesisView where
  overallVerdict : CouncilVerdict
  quorumSize : Nat
  allCriteriaMet : Bool
  requiredFixes : List CouncilFinding
  advisoryFindings : List CouncilFinding

def CouncilSynthesis.view (s : CouncilSynthesis) : SynthesisView :=
  ⟨s.overallVerdict, s.quorumSize, s.allCriteriaMet, s.requiredFixes, s.advisoryFindings⟩

def PhaseCouncilSynthesis.view (s : PhaseCouncilSynthesis) : SynthesisView :=
  ⟨s.overallVerdict, s.quorumSize, s.allCriteriaMet, s.requiredFixes, s.advisoryFindings⟩

def FinalCouncilSynthesis.view (s : FinalCouncilSynthesis) : SynthesisView :=
  ⟨s.overallVerdict, s.quorumSize, s.allCriteriaMet, s.requiredFixes, s.advisoryFindings⟩

/-- Every finding is in one of the two lists, once, and the first one has the
    findings that are required. -/
structure LosesNoFinding (verdicts : CouncilVerdicts) (view : SynthesisView) : Prop where
  all : (view.requiredFixes ++ view.advisoryFindings).Perm
    (verdicts.members.flatMap CouncilMemberVerdict.findings)
  once : ∀ v ∈ verdicts.members, ∀ f ∈ v.findings,
    (view.requiredFixes ++ view.advisoryFindings).count f = 1
  required : view.requiredFixes.Perm
    (verdicts.members.flatMap fun v => v.findings.filter (isRequiredOf verdicts.members v))

/-- The same outcome, up to the order inside the two lists. -/
structure SameOutcome (view other : SynthesisView) : Prop where
  overallVerdict : view.overallVerdict = other.overallVerdict
  quorumSize : view.quorumSize = other.quorumSize
  requiredFixes : view.requiredFixes.Perm other.requiredFixes
  advisoryFindings : view.advisoryFindings.Perm other.advisoryFindings

theorem nodup_findings (verdicts : CouncilVerdicts) :
    (verdicts.members.flatMap CouncilMemberVerdict.findings).Nodup := by
  apply List.Nodup.of_map CouncilFinding.ref
  rw [List.map_flatMap]
  exact verdicts.apart

theorem losesNoFinding_of_classify {view : SynthesisView}
    (hrequired : view.requiredFixes = (classifyFindings verdicts.members).2.1)
    (hadvisory : view.advisoryFindings = (classifyFindings verdicts.members).2.2) :
    LosesNoFinding verdicts view where
  all := by
    rw [hrequired, hadvisory]
    exact findings_perm verdicts
  once := by
    intro v hv f hf
    rw [hrequired, hadvisory, (findings_perm verdicts).count_eq]
    exact List.count_eq_one_of_mem (nodup_findings verdicts) (List.mem_flatMap.mpr ⟨v, hv, hf⟩)
  required := by
    rw [hrequired]
    exact required_perm verdicts.members

/-- A council's result for one config, as a function of the verdicts. -/
structure CouncilResults (config : PartialCouncilConfig) (members : List CouncilMemberVerdict)
    (view : SynthesisView) : Prop where
  overallVerdict : view.overallVerdict = OpencodeSwarm.overallVerdict config members
  quorumSize : view.quorumSize = OpencodeSwarm.quorumSize members
  requiredFixes : view.requiredFixes = (classifyFindings members).2.1
  advisoryFindings : view.advisoryFindings = (classifyFindings members).2.2

theorem CouncilResults.sameOutcome {config : PartialCouncilConfig} {reordered : CouncilVerdicts}
    (hperm : verdicts.members.Perm reordered.members) {view other : SynthesisView}
    (hview : CouncilResults config verdicts.members view)
    (hother : CouncilResults config reordered.members other) : SameOutcome view other where
  overallVerdict := by
    rw [hview.overallVerdict, hother.overallVerdict, overallVerdict_perm hperm]
  quorumSize := by rw [hview.quorumSize, hother.quorumSize, quorumSize_perm hperm]
  requiredFixes := by
    rw [hview.requiredFixes, hother.requiredFixes]
    exact requiredFixes_perm hperm
  advisoryFindings := by
    rw [hview.advisoryFindings, hother.advisoryFindings]
    exact advisoryFindings_perm hperm

section Councils

variable (taskId swarmId phaseSummary projectSummary : JsString) (phaseNumber roundNumber : Nat)
  (criteria : Option (List CouncilCriteriaItem)) (config : PartialCouncilConfig)

def taskView (members : List CouncilMemberVerdict) : SynthesisView :=
  (synthesizeCouncilVerdicts taskId swarmId members criteria roundNumber config).view

def phaseView (members : List CouncilMemberVerdict) : SynthesisView :=
  (synthesizePhaseCouncilAdvisory phaseNumber phaseSummary members roundNumber config).view

def finalView (members : List CouncilMemberVerdict) : SynthesisView :=
  (synthesizeFinalCouncilAdvisory projectSummary members roundNumber config).view

/-- The three results differ in their criteria result only, and the phase and
    the project follow one rule there. -/
def CouncilsAgree (members : List CouncilMemberVerdict) : Prop :=
  { taskView taskId swarmId roundNumber criteria config members with
      allCriteriaMet := noCriterionUnmet members }
    = phaseView phaseSummary phaseNumber roundNumber config members ∧
  phaseView phaseSummary phaseNumber roundNumber config members
    = finalView projectSummary roundNumber config members

/-- The order of the verdicts is not seen, in the criteria result either. -/
def OrderIrrelevant (view : List CouncilMemberVerdict → SynthesisView)
    (members : List CouncilMemberVerdict) : Prop :=
  ∀ reordered : CouncilVerdicts, members.Perm reordered.members →
    SameOutcome (view members) (view reordered.members) ∧
      (view members).allCriteriaMet = (view reordered.members).allCriteriaMet

/-- Synthesis loses no finding and ignores the order of the verdicts, in each of
    the three councils. -/
theorem councilSynthesis_lossless (verdicts : CouncilVerdicts) :
    (∀ view ∈ [taskView taskId swarmId roundNumber criteria config,
        phaseView phaseSummary phaseNumber roundNumber config,
        finalView projectSummary roundNumber config],
      LosesNoFinding verdicts (view verdicts.members) ∧ OrderIrrelevant view verdicts.members) ∧
    CouncilsAgree taskId swarmId phaseSummary projectSummary phaseNumber roundNumber criteria config
      verdicts.members := by
  refine ⟨?_, rfl, rfl⟩
  intro view hview
  have hresults : ∀ members, CouncilResults config members (view members) := by
    intro members
    simp only [List.mem_cons, List.not_mem_nil, or_false] at hview
    rcases hview with rfl | rfl | rfl <;> exact ⟨rfl, rfl, rfl, rfl⟩
  refine ⟨losesNoFinding_of_classify (hresults _).requiredFixes (hresults _).advisoryFindings, ?_⟩
  intro reordered hperm
  refine ⟨(hresults _).sameOutcome hperm (hresults _), ?_⟩
  simp only [List.mem_cons, List.not_mem_nil, or_false] at hview
  rcases hview with rfl | rfl | rfl
  · exact mandatoryCriteriaMet_perm hperm criteria
  · exact noCriterionUnmet_perm hperm
  · exact noCriterionUnmet_perm hperm

end Councils

def findingOf (ref : Nat) (severity : CouncilSeverity) : CouncilFinding :=
  ⟨ref, severity, js "src/a.ts", js "unchecked input", []⟩

/-- A rejection and a concern, with two findings each. -/
def mixedVerdicts : CouncilVerdicts where
  members :=
    [⟨.critic, .reject, [findingOf 0 .critical, findingOf 1 .low], [], []⟩,
      ⟨.reviewer, .concerns, [findingOf 2 .high, findingOf 3 .medium], [], []⟩]
  apart := by decide

theorem councilSynthesis_mixedVerdicts :
    (∀ view ∈ [taskView (js "1.1") (js "main") 1 none ⟨none⟩, phaseView [] 1 1 ⟨none⟩,
        finalView [] 1 ⟨none⟩], LosesNoFinding mixedVerdicts (view mixedVerdicts.members)
        ∧ (view mixedVerdicts.members).requiredFixes.map CouncilFinding.ref = [0, 2]) := by
  have hlossless := councilSynthesis_lossless (js "1.1") (js "main") [] [] 1 1 none ⟨none⟩
    mixedVerdicts
  exact fun view hview => ⟨(hlossless.1 view hview).1, by
    simp only [List.mem_cons, List.not_mem_nil, or_false] at hview
    rcases hview with rfl | rfl | rfl <;> decide⟩

/-- One member finds a criterion unmet that nobody declared. -/
def undeclaredUnmet : CouncilMemberVerdict :=
  { agent := .critic, verdict := .approve, findings := [], criteriaAssessed := [js "c1"],
    criteriaUnmet := [js "c1"] }

/-- The task council goes by the declared criteria, the phase council by any. -/
theorem criteriaResults_differ :
    (taskView (js "1.1") (js "main") 1 none ⟨none⟩ [undeclaredUnmet]).allCriteriaMet
      ≠ (phaseView [] 1 1 ⟨none⟩ [undeclaredUnmet]).allCriteriaMet := by
  decide

end OpencodeSwarm
