/-
  OpencodeSwarm.Scope.DisjointAuthority

  A disjoint verdict is disjoint write authority: two scopes that do not conflict
  cover no common path, in whatever spelling it is given.
-/
import OpencodeSwarm.Plan.ParallelVerdict
import OpencodeSwarm.Scope.ScopeBinding

namespace OpencodeSwarm

open Js Posix

variable {N : Type} [LinearOrder N]

/-- No candidate is covered by the scopes of two tasks. -/
def DisjointAuthority (taskIds : List JsString) (scopes : JsString → Option (List JsString)) :
    Prop :=
  ∀ candidate, ∀ a ∈ taskIds, ∀ b ∈ taskIds, a ≠ b → ∀ scopeA scopeB, scopes a = some scopeA →
    scopes b = some scopeB → scopeContains scopeA candidate = true →
      scopeContains scopeB candidate = false

theorem conflict_of_scopeContains {scopeA scopeB : List JsString} {candidate : JsString}
    {cochangePairs : List (CoChangeEntry N)} {threshold : CoChangeThreshold N}
    (hA : ∀ entry ∈ scopeA, IsScopeEntry entry) (hB : ∀ entry ∈ scopeB, IsScopeEntry entry)
    (hcoversA : scopeContains scopeA candidate = true)
    (hcoversB : scopeContains scopeB candidate = true) :
    (epicPairConflict scopeA scopeB cochangePairs threshold).conflict = true := by
  obtain ⟨entryA, hentryA, hbeneathA⟩ := exists_entry_of_scopeContains hA hcoversA
  obtain ⟨entryB, hentryB, hbeneathB⟩ := exists_entry_of_scopeContains hB hcoversB
  by_contra hfree
  rw [Bool.not_eq_true, conflict_eq_false_iff] at hfree
  have hpaths := hfree.1 entryA hentryA entryB hentryB
  rw [(hA entryA hentryA).normalizePath, (hB entryB hentryB).normalizePath,
    pathsConflict_of_cover hbeneathA hbeneathB] at hpaths
  cases hpaths

/-- An `all_disjoint` verdict over declared scopes leaves every path to at most
    one task. -/
theorem disjointAuthority_of_allDisjoint {bindings : JsString → Option (List JsString)}
    {defaultThreshold : CoChangeThreshold N} {taskIds : List JsString}
    {options : ParallelVerdictOptions N} {scopes : JsString → Option (List JsString)}
    (hexplicit : options.scopes = some scopes)
    (hdeclared : ∀ id ∈ taskIds, ∃ files scope, scopes id = some scope
      ∧ normalizeScopeFiles files = some scope)
    (hdisjoint : (computeParallelVerdict bindings defaultThreshold taskIds options).map (·.verdict)
      = some .allDisjoint) :
    DisjointAuthority taskIds scopes := by
  have hentries : ∀ id ∈ taskIds, ∀ scope, scopes id = some scope →
      ∀ entry ∈ scope, IsScopeEntry entry := by
    intro id hid scope hscope
    obtain ⟨files, declared, hdecl, hnormalized⟩ := hdeclared id hid
    cases hscope.symm.trans hdecl
    exact isScopeEntry_of_mem hnormalized
  obtain ⟨-, hresolved, hpairs⟩ := verdict_allDisjoint_iff.mp hdisjoint
  rw [hexplicit, Option.getD_some] at hresolved hpairs
  have hfree : ∀ a ∈ taskIds, ∀ scope, scopes a = some scope →
      resolveScope scopes a = some scope := by
    intro a ha scope hscope
    obtain ⟨files, hfiles⟩ := hresolved a ha
    have hsame := (Option.filter_eq_some_iff.mp hfiles).1
    cases hscope.symm.trans hsame
    exact hfiles
  intro candidate a ha b hb hne scopeA scopeB hA hB hcoversA
  by_contra hcoversB
  rw [Bool.not_eq_false] at hcoversB
  -- the verdict looked at the pair in one of the two orders
  rcases mem_pairsOf ha hb hne with hpair | hpair
  · have hnone := hpairs a b hpair scopeA scopeB (hfree a ha scopeA hA) (hfree b hb scopeB hB)
    rw [conflict_of_scopeContains (hentries a ha scopeA hA) (hentries b hb scopeB hB) hcoversA
      hcoversB] at hnone
    cases hnone
  · have hnone := hpairs b a hpair scopeB scopeA (hfree b hb scopeB hB) (hfree a ha scopeA hA)
    rw [conflict_of_scopeContains (hentries b hb scopeB hB) (hentries a ha scopeA hA) hcoversB
      hcoversA] at hnone
    cases hnone

/-- Two coders of one wave, and their declared scopes. -/
def twoScopes (id : JsString) : Option (List JsString) :=
  if id = js "1.1" then some [js "src/a", js "src/lib.ts"]
  else if id = js "1.2" then some [js "src/b.ts"]
  else none

theorem disjointAuthority_twoScopes : DisjointAuthority [js "1.1", js "1.2"] twoScopes := by
  refine @disjointAuthority_of_allDisjoint ℤ _ (fun _ => none) ⟨2, 3⟩ _
    { scopes := some twoScopes } twoScopes rfl ?_ ?_
  · intro id hid
    simp only [List.mem_cons, List.not_mem_nil, or_false] at hid
    rcases hid with rfl | rfl
    · exact ⟨[js "./src//lib.ts", js "src/a/"], _, rfl, by decide +kernel⟩
    · exact ⟨[js "src/./b.ts"], _, rfl, by decide +kernel⟩
  · decide +kernel

end OpencodeSwarm
