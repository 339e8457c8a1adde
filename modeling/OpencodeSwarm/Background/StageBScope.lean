/-
  OpencodeSwarm.Background.StageBScope

  What a fresh Stage B verdict says about the files inside the declared scope.
  The check compares names: the declared entries that two heads disagree on, and
  the declared entries that are dirty.  It answers for the contents of a file
  exactly when the file cannot slip through these two comparisons.
-/
import OpencodeSwarm.Background.StageBFreshness

namespace OpencodeSwarm

open Js Posix

/-! ## Workspaces -/

/-- A checked-out repository: the commit at HEAD and its tree, and the working tree. -/
structure Workspace (β : Type*) where
  root : JsString
  head : JsString
  headTree : JsString → Option β
  working : JsString → Option β
  head_isObjectId : isObjectId head = true

/-- `git status` lists exactly the paths whose working copy differs from HEAD. -/
def StatusLists {β : Type*} (w : Workspace β) (entries : List StatusEntry) : Prop :=
  ∀ path, path ∈ entries.flatMap StatusEntry.paths ↔ w.working path ≠ w.headTree path

/-- `git diff` lists exactly the paths whose blobs differ between the two commits, and a
    commit has one tree. -/
structure DiffLists {β : Type*} (w w' : Workspace β) (paths : List JsString) : Prop where
  mem_iff : ∀ path, path ∈ paths ↔ w.headTree path ≠ w'.headTree path
  tree : w.head = w'.head → w.headTree = w'.headTree

/-- The paths that a capture reports as dirty. -/
def reportedPaths (entries : List StatusEntry) : List JsString :=
  (entries.filterMap StatusEntry.withoutRuntime).flatMap StatusEntry.paths

/-- The snapshot of a workspace. -/
def Workspace.snapshot {β : Type*} (host : SnapshotHost) (w : Workspace β)
    (entries : List StatusEntry) (prHeadSha scope : Option JsString) : WorkspaceSnapshot :=
  captureWorkspaceSnapshot host w.root (some { branchOid := some w.head, entries := entries })
    prHeadSha scope

/-! ## The scope -/

/-- The file is a declared entry, as the check reads it. -/
def IsDeclared (scopeFiles : List JsString) (path : JsString) : Prop :=
  ∃ entry ∈ scopeFiles, normalizeAttributionPath path = some entry

/-- An entry that is a directory, with its slash. -/
def directoryPrefix (entry : JsString) : JsString :=
  if endsWith entry [slash] then entry else entry ++ [slash]

/-- The file lies inside the declared scope: it is an entry, or below one. -/
def InsideScope (scopeFiles : List JsString) (path : JsString) : Prop :=
  ∃ entry ∈ scopeFiles, path = entry ∨ entry = [dot] ∨ directoryPrefix entry <+: path

/-- Some file that is read as the entry is reported dirty. -/
def DirtyEntry (entries : List StatusEntry) (entry : JsString) : Prop :=
  ∃ path ∈ reportedPaths entries, normalizeAttributionPath path = some entry

/-- The names agree: no declared entry differs between the heads, and the same declared
    entries are dirty. -/
structure NamesAgree {β : Type*} (scopeFiles : List JsString) (w w' : Workspace β)
    (entries entries' : List StatusEntry) : Prop where
  committed : ∀ path, IsDeclared scopeFiles path → w.headTree path = w'.headTree path
  dirty : ∀ entry ∈ scopeFiles, DirtyEntry entries entry ↔ DirtyEntry entries' entry

/-- How the contents of a file can change while the names agree. -/
inductive Overlooked {β : Type*} (scopeFiles : List JsString) (w w' : Workspace β)
    (entries entries' : List StatusEntry) (path : JsString) : Prop where
  /-- It is below a declared directory, and no entry itself. -/
  | undeclared (h : ¬ IsDeclared scopeFiles path)
  /-- It is dirty both times, and was edited again. -/
  | dirtyTwice (h : w.working path ≠ w.headTree path) (h' : w'.working path ≠ w'.headTree path)
  /-- Git listed it at the dispatch, and its record was dropped as one of runtime state. -/
  | droppedBefore (h : path ∈ entries.flatMap StatusEntry.paths) (h' : path ∉ reportedPaths entries)
  /-- Git lists it now, and its record is dropped. -/
  | droppedNow (h : path ∈ entries'.flatMap StatusEntry.paths) (h' : path ∉ reportedPaths entries')
  /-- Another dirty file is read as the same entry. -/
  | shadowed (other : JsString) (hne : other ≠ path)
      (h : other ∈ reportedPaths entries ∨ other ∈ reportedPaths entries')
      (hsame : normalizeAttributionPath other = normalizeAttributionPath path)

/-! ## The check -/

variable {path : JsString}

theorem mem_changedPaths {output : PorcelainV2} :
    path ∈ output.changedPaths ↔ path ∈ output.entries.flatMap StatusEntry.paths := by
  rw [PorcelainV2.changedPaths, List.mem_eraseDups]
  simp only [List.mem_append, List.mem_flatMap, List.mem_filter, Bool.not_eq_true']
  constructor
  · rintro (⟨entry, ⟨hentry, -⟩, hpath⟩ | ⟨entry, ⟨hentry, -⟩, hpath⟩) <;>
      exact ⟨entry, hentry, hpath⟩
  · rintro ⟨entry, hentry, hpath⟩
    cases huntracked : entry.isUntracked with
    | false => exact Or.inl ⟨entry, ⟨hentry, huntracked⟩, hpath⟩
    | true => exact Or.inr ⟨entry, ⟨hentry, huntracked⟩, hpath⟩

theorem subset_of_reported {entries : List StatusEntry} (h : path ∈ reportedPaths entries) :
    path ∈ entries.flatMap StatusEntry.paths := by
  obtain ⟨entry', hentry', hpath⟩ := List.mem_flatMap.mp h
  obtain ⟨entry, hentry, hkept⟩ := List.mem_filterMap.mp hentry'
  refine List.mem_flatMap.mpr ⟨entry, hentry, ?_⟩
  cases entry with
  | renamed target original =>
    simp only [StatusEntry.withoutRuntime] at hkept
    split at hkept
    · cases hkept
    split at hkept
    · -- the original is replaced by the target
      cases hkept
      simp only [StatusEntry.paths, List.mem_cons, List.not_mem_nil, or_false, or_self] at hpath ⊢
      exact Or.inl hpath
    · cases hkept
      exact hpath
  | untracked target | ordinary target | unmerged target =>
    simp only [StatusEntry.withoutRuntime] at hkept
    split at hkept
    · cases hkept
    cases hkept
    exact hpath

variable {entry : JsString}

theorem mem_scopeDirtySlice {files scopeFiles : List JsString} :
    entry ∈ scopeDirtySlice files scopeFiles
      ↔ entry ∈ scopeFiles ∧ ∃ path ∈ files, normalizeAttributionPath path = some entry := by
  rw [scopeDirtySlice, List.mem_eraseDups, List.mem_filterMap]
  simp only [Option.filter_eq_some_iff, List.contains_iff_mem]
  constructor
  · rintro ⟨path, hpath, hnormalized, hentry⟩
    exact ⟨hentry, path, hpath, hnormalized⟩
  · rintro ⟨hentry, path, hpath, hnormalized⟩
    exact ⟨path, hpath, hnormalized, hentry⟩

theorem ne_nil_of_normalized (h : normalizeAttributionPath path = some entry) : entry ≠ [] := by
  dsimp only [normalizeAttributionPath] at h
  split at h
  · cases h
  rename_i hplain
  cases h
  intro hempty
  rw [hempty] at hplain
  exact hplain rfl

theorem nil_notMem_scopeFiles {scope : Option JsString} {scopeFiles : List JsString}
    (h : deriveScopeFiles scope = some scopeFiles) : [] ∉ scopeFiles := by
  unfold deriveScopeFiles at h
  split at h
  · cases h
  dsimp only at h
  split at h
  · cases h
  cases h
  rw [List.mem_eraseDups, List.mem_filterMap]
  rintro ⟨fragment, -, hfragment⟩
  exact ne_nil_of_normalized (Option.filter_eq_some_iff.mp hfragment).1 rfl

section Check

variable {β : Type*} {host : SnapshotHost} {w w' : Workspace β}
  {entries entries' : List StatusEntry} {paths scopeFiles : List JsString}

/-- Nothing in the scope was committed when the heads agree on every declared entry. -/
theorem committed_nil_iff (hnil : [] ∉ scopeFiles) (hdiff : DiffLists w w' paths) :
    (∃ committed, committedFilesBetween (some paths) (some w.head) (some w'.head) = some committed
      ∧ (committed.filter fun file =>
          scopeFiles.contains ((normalizeAttributionPath file).getD [])) = [])
      ↔ ∀ path, IsDeclared scopeFiles path → w.headTree path = w'.headTree path := by
  dsimp only [committedFilesBetween]
  split
  · rename_i hsame
    exact ⟨fun _ path _ => by rw [hdiff.tree hsame], fun _ => ⟨[], rfl, rfl⟩⟩
  · constructor
    · rintro ⟨committed, hcommitted, hnone⟩ path ⟨entry, hentry, hnormalized⟩
      cases hcommitted
      by_contra hdiffers
      have hne : 0 < path.length := by
        refine List.length_pos_of_ne_nil ?_
        rintro rfl
        cases hnormalized
      refine (List.filter_eq_nil_iff.mp hnone) path
        (List.mem_filter.mpr ⟨(hdiff.mem_iff path).mpr hdiffers, decide_eq_true hne⟩) ?_
      rw [hnormalized]
      exact List.contains_iff_mem.mpr hentry
    · intro hsame
      refine ⟨_, rfl, List.filter_eq_nil_iff.mpr fun path hpath hscope => ?_⟩
      have hdiffers := (hdiff.mem_iff path).mp (List.mem_of_mem_filter hpath)
      cases hnormalized : normalizeAttributionPath path with
      | some entry =>
        rw [hnormalized] at hscope
        exact hdiffers (hsame path ⟨entry, List.contains_iff_mem.mp hscope, hnormalized⟩)
      | none =>
        rw [hnormalized] at hscope
        exact hnil (List.contains_iff_mem.mp hscope)

/-- The dirty slices have the same members when the same declared entries are dirty. -/
theorem dirtySlices_iff {files files' : List JsString} :
    (¬ (0 < ((scopeDirtySlice files' scopeFiles).filter fun file =>
            !(scopeDirtySlice files scopeFiles).contains file).length
          ∨ 0 < ((scopeDirtySlice files scopeFiles).filter fun file =>
            !(scopeDirtySlice files' scopeFiles).contains file).length))
      ↔ ∀ entry ∈ scopeFiles, (∃ path ∈ files, normalizeAttributionPath path = some entry)
          ↔ ∃ path ∈ files', normalizeAttributionPath path = some entry := by
  have hempty : ∀ xs ys : List JsString,
      ¬ 0 < (xs.filter fun file => !ys.contains file).length ↔ ∀ file ∈ xs, file ∈ ys := by
    simp
  rw [not_or, hempty, hempty]
  simp only [mem_scopeDirtySlice]
  constructor
  · rintro ⟨hdirtied, hcleaned⟩ entry hentry
    exact ⟨fun h => (hcleaned entry ⟨hentry, h⟩).2, fun h => (hdirtied entry ⟨hentry, h⟩).2⟩
  · intro hsame
    exact ⟨fun entry h => ⟨h.1, (hsame entry h.1).mpr h.2⟩,
      fun entry h => ⟨h.1, (hsame entry h.1).mp h.2⟩⟩

theorem snapshot_gitHead (w : Workspace β) (prHeadSha scope : Option JsString) :
    (w.snapshot host entries prHeadSha scope).gitHead = some w.head := by
  simp [Workspace.snapshot, captureWorkspaceSnapshot, filterSwarmRuntimePorcelain,
    Option.filter, w.head_isObjectId]

theorem snapshot_changedFiles (w : Workspace β) (prHeadSha scope : Option JsString) :
    ∃ files, (w.snapshot host entries prHeadSha scope).changedFiles = some files
      ∧ ∀ path, path ∈ files ↔ path ∈ reportedPaths entries := by
  refine ⟨(filterSwarmRuntimePorcelain { branchOid := some w.head, entries }).changedPaths, ?_,
    fun path => mem_changedPaths⟩
  simp [Workspace.snapshot, captureWorkspaceSnapshot, filterSwarmRuntimePorcelain,
    Option.filter, w.head_isObjectId]

/-- A verdict of a role that must see its tree is fresh exactly when the names agree. -/
theorem compareStageB_fresh_iff {record : StageBRecord} {prHeadSha scope scope' : Option JsString}
    {directory : JsString} (hagent : record.normalizedAgent ≠ js "docs")
    (hworkspace : record.workspace = some (w.snapshot host entries prHeadSha scope))
    (hscope : deriveScopeFiles scope = some scopeFiles)
    (hroot : host.canonicalRootKey w.root = host.canonicalRootKey w'.root)
    (hdiff : DiffLists w w' paths) :
    compareStageBWorkspace host (some paths) record (w'.snapshot host entries' prHeadSha scope')
        (some directory) = .fresh ↔ NamesAgree scopeFiles w w' entries entries' := by
  obtain ⟨files, hfiles, hmem⟩ :=
    @snapshot_changedFiles β host entries w prHeadSha scope
  obtain ⟨files', hfiles', hmem'⟩ :=
    @snapshot_changedFiles β host entries' w' prHeadSha scope'
  have hidentity : workspaceSnapshotMatches host
      (some { w.snapshot host entries prHeadSha scope with gitHead := none, dirtyHash := none })
      { w'.snapshot host entries' prHeadSha scope' with gitHead := none, dirtyHash := none }
      = none := by
    dsimp only [workspaceSnapshotMatches]
    have hdirectory : (w.snapshot host entries prHeadSha scope).directory
        = (w'.snapshot host entries' prHeadSha scope').directory := hroot
    rw [if_neg (not_not.mpr (congrArg host.canonicalRootKey hdirectory))]
    cases prHeadSha with
    | none => rfl
    | some sha =>
      simp [matchField, Workspace.snapshot, captureWorkspaceSnapshot]
  have hscope' : (w.snapshot host entries prHeadSha scope).scope = scope := rfl
  have hcommitted := committed_nil_iff (nil_notMem_scopeFiles hscope) hdiff
  have hdirty := @dirtySlices_iff scopeFiles files files'
  simp only [hmem, hmem'] at hdirty
  simp only [hfiles, hfiles', hscope'] at hidentity
  rw [compareStageBWorkspace, hworkspace]
  simp only [if_neg hagent, hscope', hscope, snapshot_gitHead, hfiles, hfiles', hidentity]
  cases hbetween : committedFilesBetween (some paths) (some w.head) (some w'.head) with
  | none =>
    dsimp only [committedFilesBetween] at hbetween
    split at hbetween <;> cases hbetween
  | some committed =>
    rw [hbetween] at hcommitted
    simp only
    split
    · rename_i hlisted
      refine ⟨fun h => (nomatch h), fun hagree => ?_⟩
      obtain ⟨_, hsome, hnone⟩ := hcommitted.mpr hagree.committed
      cases hsome
      rw [hnone] at hlisted
      exact absurd hlisted (Nat.lt_irrefl 0)
    · rename_i hunlisted
      have hnone := List.length_eq_zero_iff.mp (Nat.le_zero.mp (Nat.not_lt.mp hunlisted))
      have hheads := hcommitted.mp ⟨committed, rfl, hnone⟩
      split
      · rename_i hchanged
        exact ⟨fun h => (nomatch h), fun hagree => absurd hchanged (hdirty.mpr hagree.dirty)⟩
      · rename_i hunchanged
        exact ⟨fun _ => ⟨hheads, hdirty.mp hunchanged⟩, fun _ => rfl⟩

/-- While the names agree, a file changes only where both comparisons overlook it. -/
theorem overlooked_of_changed (hstatus : StatusLists w entries)
    (hstatus' : StatusLists w' entries') (hagree : NamesAgree scopeFiles w w' entries entries')
    {path : JsString} (hchanged : w'.working path ≠ w.working path) :
    Overlooked scopeFiles w w' entries entries' path := by
  by_cases hdeclared : IsDeclared scopeFiles path
  · have hhead := hagree.committed path hdeclared
    obtain ⟨entry, hentry, hnormalized⟩ := hdeclared
    have hsame := hagree.dirty entry hentry
    by_cases hreported : path ∈ reportedPaths entries
    · obtain ⟨other, hother, hotherEntry⟩ := hsame.mp ⟨path, hreported, hnormalized⟩
      by_cases hne : other = path
      · subst hne
        exact .dirtyTwice ((hstatus other).mp (subset_of_reported hreported))
          ((hstatus' other).mp (subset_of_reported hother))
      · exact .shadowed other hne (Or.inr hother) (hotherEntry.trans hnormalized.symm)
    · by_cases hreported' : path ∈ reportedPaths entries'
      · obtain ⟨other, hother, hotherEntry⟩ := hsame.mpr ⟨path, hreported', hnormalized⟩
        by_cases hne : other = path
        · exact (hreported (hne ▸ hother)).elim
        · exact .shadowed other hne (Or.inl hother) (hotherEntry.trans hnormalized.symm)
      · -- reported neither time, and one of the two working copies is not the head's
        by_cases hclean : w.working path = w.headTree path
        · refine .droppedNow ((hstatus' path).mpr fun hclean' => hchanged ?_) hreported'
          rw [hclean', hclean, hhead]
        · exact .droppedBefore ((hstatus path).mpr hclean) hreported
  · exact .undeclared hdeclared

end Check

/-- A verdict that is not stale answers for the contents of every file inside the declared
    scope, unless the names agree and a file changed where the names overlook it. -/
theorem stageB_fresh_iff {β : Type*} (host : SnapshotHost) (w w' : Workspace β)
    (entries entries' : List StatusEntry) (paths scopeFiles : List JsString)
    (record : StageBRecord) (prHeadSha scope scope' : Option JsString) (directory : JsString)
    (hagent : record.normalizedAgent ≠ js "docs")
    (hworkspace : record.workspace = some (w.snapshot host entries prHeadSha scope))
    (hscope : deriveScopeFiles scope = some scopeFiles)
    (hroot : host.canonicalRootKey w.root = host.canonicalRootKey w'.root)
    (hstatus : StatusLists w entries) (hstatus' : StatusLists w' entries')
    (hdiff : DiffLists w w' paths) :
    (compareStageBWorkspace host (some paths) record (w'.snapshot host entries' prHeadSha scope')
          (some directory) = .fresh →
        ∀ path, InsideScope scopeFiles path → w'.working path = w.working path)
      ↔ ¬ (NamesAgree scopeFiles w w' entries entries'
          ∧ ∃ path, InsideScope scopeFiles path ∧ w'.working path ≠ w.working path
              ∧ Overlooked scopeFiles w w' entries entries' path) := by
  rw [compareStageB_fresh_iff hagent hworkspace hscope hroot hdiff]
  constructor
  · rintro hsound ⟨hagree, path, hinside, hchanged, -⟩
    exact hchanged (hsound hagree path hinside)
  · intro hnone hagree path hinside
    by_contra hchanged
    exact hnone ⟨hagree, path, hinside, hchanged,
      overlooked_of_changed hstatus hstatus' hagree hchanged⟩

/-! ## A dirty file that is edited again -/

/-- A repository with one file, committed with content 0. -/
def oneFile (content : Nat) : Workspace Nat where
  root := js "/p"
  head := List.replicate 40 0x30
  headTree := fun path => if path = js "a.ts" then some 0 else none
  working := fun path => if path = js "a.ts" then some content else none
  head_isObjectId := by decide

theorem statusLists_oneFile {content : Nat} (h : content ≠ 0) :
    StatusLists (oneFile content) [.ordinary (js "a.ts")] := by
  intro path
  show path ∈ [js "a.ts"] ↔ (if path = js "a.ts" then some content else none)
    ≠ if path = js "a.ts" then some 0 else none
  by_cases hpath : path = js "a.ts"
  · simp [hpath, h]
  · simp [hpath]

theorem diffLists_oneFile (content content' : Nat) :
    DiffLists (oneFile content) (oneFile content') [] where
  mem_iff := fun _ => ⟨fun h => (nomatch h), fun h => absurd rfl h⟩
  tree := fun _ => rfl

def plainSnapshots : SnapshotHost where
  canonicalRootKey := id
  digest := fun _ => []

/-- A reviewer dispatched on the file, dirty with the content. -/
def reviewerOf (content : Nat) : StageBRecord where
  normalizedAgent := js "reviewer"
  workspace := some ((oneFile content).snapshot plainSnapshots [.ordinary (js "a.ts")] none
    (some (js "a.ts")))

theorem stageB_fresh_iff_oneFile :
    (compareStageBWorkspace plainSnapshots (some []) (reviewerOf 1)
          ((oneFile 2).snapshot plainSnapshots [.ordinary (js "a.ts")] none none)
          (some (js "/p")) = .fresh →
        ∀ path, InsideScope [js "a.ts"] path → (oneFile 2).working path = (oneFile 1).working path)
      ↔ ¬ (NamesAgree [js "a.ts"] (oneFile 1) (oneFile 2) [.ordinary (js "a.ts")]
            [.ordinary (js "a.ts")] ∧ ∃ path, InsideScope [js "a.ts"] path
              ∧ (oneFile 2).working path ≠ (oneFile 1).working path
              ∧ Overlooked [js "a.ts"] (oneFile 1) (oneFile 2) [.ordinary (js "a.ts")]
                  [.ordinary (js "a.ts")] path) :=
  stageB_fresh_iff plainSnapshots (oneFile 1) (oneFile 2) _ _ [] [js "a.ts"] (reviewerOf 1) none
    (some (js "a.ts")) none (js "/p") (by decide) rfl (by decide +kernel) rfl
    (statusLists_oneFile (by decide)) (statusLists_oneFile (by decide)) (diffLists_oneFile 1 2)

/-- The reviewer saw content 1, the file holds content 2, and the verdict is fresh. -/
theorem not_stale_editedAgain :
    deriveScopeFiles (some (js "a.ts")) = some [js "a.ts"]
      ∧ StatusLists (oneFile 1) [.ordinary (js "a.ts")]
      ∧ StatusLists (oneFile 2) [.ordinary (js "a.ts")] ∧ DiffLists (oneFile 1) (oneFile 2) []
      ∧ compareStageBWorkspace plainSnapshots (some []) (reviewerOf 1)
          ((oneFile 2).snapshot plainSnapshots [.ordinary (js "a.ts")] none none)
          (some (js "/p")) = .fresh ∧ InsideScope [js "a.ts"] (js "a.ts")
      ∧ (oneFile 2).working (js "a.ts") ≠ (oneFile 1).working (js "a.ts") := by
  refine ⟨by decide +kernel, statusLists_oneFile (by decide), statusLists_oneFile (by decide),
    diffLists_oneFile 1 2, by decide +kernel, ⟨js "a.ts", List.mem_singleton_self _, Or.inl rfl⟩, ?_⟩
  show (some 2 : Option Nat) ≠ some 1
  decide

end OpencodeSwarm
