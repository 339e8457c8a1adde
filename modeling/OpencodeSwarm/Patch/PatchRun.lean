/-
  OpencodeSwarm.Patch.PatchRun

  The loop of `swarm_apply_patch` over the file diffs of a patch
  (`src/tools/apply-patch.ts`), and what a dry run says about the real one.  The
  guard against a patch that deletes all content is skipped in a dry run, and so is the
  deletion itself: the two part on exactly the files that the patch would empty and those
  that cannot be removed.
-/
import OpencodeSwarm.Patch.ApplyPatch

namespace OpencodeSwarm

open Js

/-! ## The loop -/

structure PatchSummary where
  totalFiles : Nat
  applied : Nat
  failed : Nat
  totalHunks : Nat
  deriving DecidableEq, Repr

/-- What the tool answers for a parsed patch. -/
structure ApplyPatchResult where
  success : Bool
  dryRun : Bool
  files : List ApplyPatchFileResult
  summary : PatchSummary
  deriving DecidableEq, Repr

/-- `fileDiff.isDelete ? fileDiff.oldPath! : fileDiff.newPath!`. -/
def ParsedFileDiff.targetPath (fileDiff : ParsedFileDiff) : JsString :=
  (if fileDiff.isDelete then fileDiff.oldPath else fileDiff.newPath).getD []

abbrev PatchFiles := OrderedMap JsString JsString

section Run

variable (host : PatchHost) (resolve : JsString → JsString)

/-- The file diffs, each processed on what the ones before it left. -/
def processFileDiffs (settings : PatchSettings) :
    PatchFiles → List ParsedFileDiff → List ApplyPatchFileResult × PatchFiles
  | files, [] => ([], files)
  | files, fileDiff :: rest =>
    let processed := processFileDiff host files fileDiff fileDiff.targetPath
      (resolve fileDiff.targetPath) settings
    let later := processFileDiffs settings processed.2 rest
    (processed.1 :: later.1, later.2)

/-- The answer behind the loop. -/
def patchResult (settings : PatchSettings) (parsedFiles : List ParsedFileDiff)
    (fileResults : List ApplyPatchFileResult) : ApplyPatchResult :=
  let totalFailed := fileResults.countP fun result => decide (result.status = .error)
  { success := totalFailed = 0
    dryRun := settings.dryRun
    files := fileResults
    summary :=
      { totalFiles := fileResults.length
        applied := fileResults.countP fun result =>
          decide (result.status = .applied) || decide (result.status = .created)
        failed := totalFailed
        totalHunks := (parsedFiles.map fun fileDiff => fileDiff.hunks.length).sum } }

/-- The tool on the files, from the parsed patch on. -/
def applyPatch (settings : PatchSettings) (files : PatchFiles)
    (parsedFiles : List ParsedFileDiff) : ApplyPatchResult × PatchFiles :=
  let processed := processFileDiffs host resolve settings files parsedFiles
  (patchResult settings parsedFiles processed.1, processed.2)

/-! ## What the file system says -/

/-- Where a path leads is not changed by what stands under other paths. -/
def PatchHost.Local : Prop :=
  ∀ (files files' : PatchFiles) (fullPath : JsString),
    files.get? fullPath = files'.get? fullPath →
      host.isCanonicalPathWithinWorkspace files fullPath
          = host.isCanonicalPathWithinWorkspace files' fullPath
        ∧ host.isCanonicalProtectedPath files fullPath
          = host.isCanonicalProtectedPath files' fullPath

/-- A file with content that the hunks of a modification would leave without any, although
    deletions are not allowed. -/
def WouldEmpty (settings : PatchSettings) (files : PatchFiles) (fileDiff : ParsedFileDiff)
    (fullPath : JsString) : Prop :=
  settings.allowDeletes = false ∧ fileDiff.hunks ≠ [] ∧ host.existsSync files fullPath = true
    ∧ ∃ content appliedLines, host.readFileSync files fullPath = .ok content ∧ content ≠ []
      ∧ applyHunks content fileDiff settings.hunkOptions = .ok appliedLines
      ∧ joinLines appliedLines = []

/-- An allowed deletion that the file system refuses. -/
def FailsToDelete (settings : PatchSettings) (files : PatchFiles) (fileDiff : ParsedFileDiff)
    (fullPath : JsString) : Prop :=
  settings.allowDeletes = true ∧ fileDiff.hunks ≠ [] ∧ host.existsSync files fullPath = true
    ∧ (host.unlinkError fullPath).isSome = true

/-- The file diffs that only the real run fails on. -/
def FailsForReal (settings : PatchSettings) (files : PatchFiles) (fileDiff : ParsedFileDiff)
    (fullPath : JsString) : Prop :=
  host.isCanonicalPathWithinWorkspace files fullPath = true
    ∧ host.isCanonicalProtectedPath files fullPath = false ∧ fileDiff.isNewFile = false
    ∧ if fileDiff.isDelete then FailsToDelete host settings files fileDiff fullPath
      else WouldEmpty host settings files fileDiff fullPath

/-- The files have the same under a path and under its directory. -/
def SameAt (files files' : PatchFiles) (fullPath : JsString) : Prop :=
  files.get? fullPath = files'.get? fullPath
    ∧ files.get? (host.dirname fullPath) = files'.get? (host.dirname fullPath)

end Run

/-! ## One file diff -/

section Step

variable {host : PatchHost} {files files' : PatchFiles} {fileDiff : ParsedFileDiff}
  {targetPath fullPath : JsString} {settings : PatchSettings}

/-- A file diff writes nothing, or it is a real run that writes or removes the target. -/
def TouchesTarget (settings : PatchSettings) (fullPath : JsString) (files after : PatchFiles) :
    Prop :=
  after = files ∨ settings.dryRun = false
    ∧ ((∃ content, after = files.set fullPath content) ∨ after = files.erase fullPath)

theorem touchesTarget_createFile : TouchesTarget settings fullPath files
    (createFile host files fileDiff targetPath fullPath settings).2 := by
  unfold createFile
  cases applyHunks [] fileDiff none with
  | error failure =>
    simp only [apply_ite Prod.snd, ite_self]
    exact Or.inl rfl
  | ok appliedLines =>
    simp only [apply_ite Prod.snd]
    cases hdry : settings.dryRun with
    | true =>
      simp only [if_true, ite_self]
      exact Or.inl rfl
    | false => split_ifs <;> first | exact Or.inl rfl | exact Or.inr ⟨hdry, Or.inl ⟨_, rfl⟩⟩

theorem touchesTarget_deleteFile : TouchesTarget settings fullPath files
    (deleteFile host files fileDiff targetPath fullPath settings).2 := by
  unfold deleteFile
  cases host.unlinkError fullPath with
  | some message =>
    simp only [apply_ite Prod.snd, ite_self]
    exact Or.inl rfl
  | none =>
    simp only [apply_ite Prod.snd]
    cases hdry : settings.dryRun with
    | true =>
      simp only [if_true, ite_self]
      exact Or.inl rfl
    | false => split_ifs <;> first | exact Or.inl rfl | exact Or.inr ⟨hdry, Or.inr rfl⟩

theorem touchesTarget_modifyFile : TouchesTarget settings fullPath files
    (modifyFile host files fileDiff targetPath fullPath settings).2 := by
  unfold modifyFile
  cases host.readFileSync files fullPath with
  | error message =>
    simp only [apply_ite Prod.snd, ite_self]
    exact Or.inl rfl
  | ok content =>
    dsimp only
    cases applyHunks content fileDiff settings.hunkOptions with
    | error failure =>
      simp only [apply_ite Prod.snd, ite_self]
      exact Or.inl rfl
    | ok appliedLines =>
      simp only [apply_ite Prod.snd]
      cases hdry : settings.dryRun with
      | true =>
        simp only [if_true, ite_self]
        exact Or.inl rfl
      | false => split_ifs <;> first | exact Or.inl rfl | exact Or.inr ⟨hdry, Or.inl ⟨_, rfl⟩⟩

theorem touchesTarget_processFileDiff : TouchesTarget settings fullPath files
    (processFileDiff host files fileDiff targetPath fullPath settings).2 := by
  unfold processFileDiff
  split_ifs
  · exact Or.inl rfl
  · exact Or.inl rfl
  · exact touchesTarget_createFile
  · exact touchesTarget_deleteFile
  · exact touchesTarget_modifyFile

theorem get?_processFileDiff {other : JsString} (hother : other ≠ fullPath) :
    (processFileDiff host files fileDiff targetPath fullPath settings).2.get? other
      = files.get? other := by
  rcases @touchesTarget_processFileDiff host files fileDiff targetPath fullPath settings with
    hsame | ⟨-, ⟨content, hset⟩ | herase⟩
  · rw [hsame]
  · rw [hset, OrderedMap.get?_set, if_neg hother]
  · rw [herase, OrderedMap.get?_erase, if_neg hother]

theorem processFileDiff_dryRun (hdry : settings.dryRun = true) :
    (processFileDiff host files fileDiff targetPath fullPath settings).2 = files := by
  rcases @touchesTarget_processFileDiff host files fileDiff targetPath fullPath settings with
    hsame | ⟨hreal, -⟩
  · exact hsame
  · exact absurd (hdry.symm.trans hreal) Bool.noConfusion

theorem processFileDiff_congr (hlocal : host.Local) (hsame : SameAt host files files' fullPath) :
    (processFileDiff host files fileDiff targetPath fullPath settings).1
      = (processFileDiff host files' fileDiff targetPath fullPath settings).1 := by
  obtain ⟨hwithin, hprotected⟩ := hlocal files files' fullPath hsame.1
  have hexists : host.existsSync files fullPath = host.existsSync files' fullPath := by
    unfold PatchHost.existsSync
    rw [hsame.1]
  have hparent : host.existsSync files (host.dirname fullPath)
      = host.existsSync files' (host.dirname fullPath) := by
    unfold PatchHost.existsSync
    rw [hsame.2]
  have hread : host.readFileSync files fullPath = host.readFileSync files' fullPath := by
    unfold PatchHost.readFileSync
    rw [hsame.1]
  have hcreate : (createFile host files fileDiff targetPath fullPath settings).1
      = (createFile host files' fileDiff targetPath fullPath settings).1 := by
    dsimp only [createFile]
    rw [hexists, hparent]
    cases applyHunks [] fileDiff none <;> simp only [apply_ite Prod.fst]
  have hdelete : (deleteFile host files fileDiff targetPath fullPath settings).1
      = (deleteFile host files' fileDiff targetPath fullPath settings).1 := by
    unfold deleteFile
    rw [hexists]
    cases host.unlinkError fullPath <;> simp only [apply_ite Prod.fst]
  have hmodify : (modifyFile host files fileDiff targetPath fullPath settings).1
      = (modifyFile host files' fileDiff targetPath fullPath settings).1 := by
    unfold modifyFile
    rw [hexists, hread]
    cases host.readFileSync files' fullPath with
    | error message => simp only [apply_ite Prod.fst]
    | ok content =>
      dsimp only
      cases applyHunks content fileDiff settings.hunkOptions <;> simp only [apply_ite Prod.fst]
  unfold processFileDiff
  rw [hwithin, hprotected]
  simp [apply_ite Prod.fst, hcreate, hdelete, hmodify]

/-- The settings of the dry run and of the real one. -/
def PatchSettings.dry (settings : PatchSettings) : PatchSettings := { settings with dryRun := true }

def PatchSettings.real (settings : PatchSettings) : PatchSettings :=
  { settings with dryRun := false }

theorem createFile_dry :
    (createFile host files fileDiff targetPath fullPath settings.dry).1
      = (createFile host files fileDiff targetPath fullPath settings.real).1 := by
  show (createFile host files fileDiff targetPath fullPath { settings with dryRun := true }).1
    = (createFile host files fileDiff targetPath fullPath { settings with dryRun := false }).1
  dsimp only [createFile]
  split
  · rfl
  split
  · rfl
  split
  · rfl
  split
  · rfl
  cases applyHunks [] fileDiff none with
  | error failure => rfl
  | ok appliedLines => rfl

/-- The refusal of the file system is the only difference. -/
theorem deleteFile_dry_iff :
    (deleteFile host files fileDiff targetPath fullPath settings.dry).1
        = (deleteFile host files fileDiff targetPath fullPath settings.real).1
      ↔ ¬ FailsToDelete host settings files fileDiff fullPath := by
  obtain ⟨dryRun, allowCreates, allowDeletes, hunkOptions⟩ := settings
  unfold deleteFile FailsToDelete
  dsimp only [PatchSettings.dry, PatchSettings.real]
  by_cases hhunks : fileDiff.hunks.length = 0
  · rw [if_pos hhunks, if_pos hhunks]
    refine iff_of_true rfl ?_
    rintro ⟨-, hne, -⟩
    exact hne (List.length_eq_zero_iff.mp hhunks)
  rw [if_neg hhunks, if_neg hhunks]
  cases allowDeletes with
  | false => simp
  | true =>
    cases host.existsSync files fullPath with
    | false => simp
    | true =>
      have hne : fileDiff.hunks ≠ [] := fun hnil => hhunks (List.length_eq_zero_iff.mpr hnil)
      cases host.unlinkError fullPath with
      | none => simp
      | some message => simp [hne, appliedFile, failedFile]

/-- The guard of the real run is the only difference. -/
theorem modifyFile_dry_iff :
    (modifyFile host files fileDiff targetPath fullPath settings.dry).1
        = (modifyFile host files fileDiff targetPath fullPath settings.real).1
      ↔ ¬ WouldEmpty host settings files fileDiff fullPath := by
  unfold modifyFile WouldEmpty
  cases host.existsSync files fullPath with
  | false => simp
  | true =>
  rw [Bool.not_true, if_neg Bool.false_ne_true, if_neg Bool.false_ne_true]
  cases hget : host.readFileSync files fullPath with
  | error message =>
    refine iff_of_true rfl ?_
    rintro ⟨-, -, -, content, appliedLines, hcontent, -⟩
    cases hcontent
  | ok content =>
    dsimp only [PatchSettings.dry, PatchSettings.real]
    by_cases hhunks : fileDiff.hunks.length = 0
    · rw [if_pos hhunks, if_pos hhunks]
      refine iff_of_true rfl ?_
      rintro ⟨-, hne, -⟩
      exact hne (List.length_eq_zero_iff.mp hhunks)
    rw [if_neg hhunks, if_neg hhunks]
    cases happly : applyHunks content fileDiff settings.hunkOptions with
    | error failure =>
      refine iff_of_true rfl ?_
      rintro ⟨-, -, -, content', appliedLines, hcontent, -, hlines, -⟩
      cases hcontent
      rw [happly] at hlines
      cases hlines
    | ok appliedLines =>
      simp only [Bool.true_eq_false, false_and, and_false, if_false, true_and]
      by_cases hguard : joinLines appliedLines = [] ∧ settings.allowDeletes = false
          ∧ 0 < content.length
      · have ⟨hempty, hdeletes, hcontent⟩ := hguard
        have hfinal : finalContent content appliedLines ≠ content := by
          rw [finalContent, if_pos hempty]
          rintro rfl
          exact Nat.lt_irrefl 0 hcontent
        rw [if_pos hguard, if_neg hfinal]
        refine iff_of_false (fun heq => ?_) (fun hno => hno ⟨hdeletes, ?_, content, appliedLines,
          rfl, List.ne_nil_of_length_pos hcontent, happly, hempty⟩)
        · have hstatus := congrArg ApplyPatchFileResult.status heq
          cases hstatus
        · intro hnil
          exact hhunks (List.length_eq_zero_iff.mpr hnil)
      · refine iff_of_true ?_ ?_
        · split
          · rfl
          · rfl
        · rintro ⟨hdeletes, -, content', lines, hcontent, hne, hlines, hempty⟩
          cases hcontent
          rw [happly] at hlines
          cases hlines
          exact hguard ⟨hempty, hdeletes, List.length_pos_iff.mpr hne⟩

theorem processFileDiff_dry_iff :
    (processFileDiff host files fileDiff targetPath fullPath settings.dry).1
        = (processFileDiff host files fileDiff targetPath fullPath settings.real).1
      ↔ ¬ FailsForReal host settings files fileDiff fullPath := by
  unfold processFileDiff FailsForReal
  cases hwithin : host.isCanonicalPathWithinWorkspace files fullPath with
  | false => simp
  | true =>
    cases hprotected : host.isCanonicalProtectedPath files fullPath with
    | true => simp
    | false =>
      cases hnew : fileDiff.isNewFile with
      | true => simp [createFile_dry]
      | false =>
        cases hdelete : fileDiff.isDelete with
        | true =>
          have hdeletes := @deleteFile_dry_iff host files fileDiff targetPath fullPath settings
          simpa using hdeletes
        | false =>
          have hmodify := @modifyFile_dry_iff host files fileDiff targetPath fullPath settings
          simpa using hmodify

end Step

/-! ## The whole patch -/

section Patch

variable {host : PatchHost} {resolve : JsString → JsString} {settings : PatchSettings}

/-- The step of the two loops: the rest of the patch finds under its own paths what the dry
    run finds there. -/
theorem processFileDiffs_dry_iff (hlocal : host.Local) {start : PatchFiles}
    {parsedFiles : List ParsedFileDiff}
    (hpaths : (parsedFiles.map fun fileDiff => resolve fileDiff.targetPath).Nodup)
    (hparents : ∀ fileDiff ∈ parsedFiles, ∀ other ∈ parsedFiles,
      host.dirname (resolve other.targetPath) ≠ resolve fileDiff.targetPath) {files : PatchFiles}
    (hsame : ∀ fileDiff ∈ parsedFiles, SameAt host start files (resolve fileDiff.targetPath)) :
    (processFileDiffs host resolve settings.dry start parsedFiles).1
        = (processFileDiffs host resolve settings.real files parsedFiles).1
      ↔ ∀ fileDiff ∈ parsedFiles,
        ¬ FailsForReal host settings start fileDiff (resolve fileDiff.targetPath) := by
  induction parsedFiles generalizing files with
  | nil => exact iff_of_true rfl fun _ h => absurd h List.not_mem_nil
  | cons fileDiff rest ih =>
    rw [List.map_cons, List.nodup_cons] at hpaths
    obtain ⟨hhead, htail⟩ := List.forall_mem_cons.mp hsame
    have hdry : (processFileDiff host start fileDiff fileDiff.targetPath
        (resolve fileDiff.targetPath) settings.dry).2 = start := processFileDiff_dryRun rfl
    have hlater : ∀ other ∈ rest, SameAt host start (processFileDiff host files fileDiff
        fileDiff.targetPath (resolve fileDiff.targetPath) settings.real).2
        (resolve other.targetPath) := by
      intro other hother
      rw [SameAt, get?_processFileDiff, get?_processFileDiff]
      · exact htail other hother
      · exact hparents _ List.mem_cons_self _ (List.mem_cons_of_mem _ hother)
      · intro heq
        exact hpaths.1 (heq ▸ List.mem_map_of_mem hother)
    have hrest := ih hpaths.2 (fun a ha b hb =>
      hparents a (List.mem_cons_of_mem _ ha) b (List.mem_cons_of_mem _ hb)) hlater
    dsimp only [processFileDiffs]
    rw [hdry, List.cons.injEq, hrest, List.forall_mem_cons,
      ← processFileDiff_congr hlocal hhead, processFileDiff_dry_iff]

theorem processFileDiffs_dryRun (files : PatchFiles) (parsedFiles : List ParsedFileDiff) :
    (processFileDiffs host resolve settings.dry files parsedFiles).2 = files := by
  induction parsedFiles generalizing files with
  | nil => rfl
  | cons fileDiff rest ih =>
    rw [processFileDiffs, ih, processFileDiff_dryRun rfl]

/-- A dry run changes no file.  For a patch that names every file once, and none as the
    directory of another, it reports what the real run reports, file by file and in the summary,
    exactly when no file with content would be emptied against `allowDeletes` and no deletion
    fails. -/
theorem applyPatch_dry_iff (hlocal : host.Local) (files : PatchFiles)
    (parsedFiles : List ParsedFileDiff)
    (hpaths : (parsedFiles.map fun fileDiff => resolve fileDiff.targetPath).Nodup)
    (hparents : ∀ fileDiff ∈ parsedFiles, ∀ other ∈ parsedFiles,
      host.dirname (resolve other.targetPath) ≠ resolve fileDiff.targetPath) :
    (applyPatch host resolve settings.dry files parsedFiles).2 = files
      ∧ ((applyPatch host resolve settings.dry files parsedFiles).1
          = { (applyPatch host resolve settings.real files parsedFiles).1 with dryRun := true }
        ↔ ∀ fileDiff ∈ parsedFiles,
          ¬ FailsForReal host settings files fileDiff (resolve fileDiff.targetPath)) := by
  refine ⟨processFileDiffs_dryRun files parsedFiles, ?_⟩
  rw [← processFileDiffs_dry_iff hlocal hpaths hparents fun _ _ => ⟨rfl, rfl⟩]
  constructor
  · intro heq
    exact congrArg ApplyPatchResult.files heq
  · intro heq
    show patchResult settings.dry parsedFiles _ = { patchResult settings.real parsedFiles _ with
      dryRun := true }
    rw [heq]
    rfl

/-- A workspace without links, with one directory in it. -/
def workspaceHost : PatchHost where
  isCanonicalPathWithinWorkspace := fun _ _ => true
  isCanonicalProtectedPath := fun _ _ => false
  dirname := fun _ => js "/w"
  directoryExists := fun path => decide (path = js "/w" ∨ path = js "d")
  readError := fun path =>
    if path = js "/w" ∨ path = js "d" then some (js "EISDIR") else none
  unlinkError := fun path =>
    if path = js "/w" ∨ path = js "d" then some (js "EPERM") else none
  directory_fails := by
    intro path hdirectory
    rw [if_pos (of_decide_eq_true hdirectory), if_pos (of_decide_eq_true hdirectory)]
    exact ⟨rfl, rfl⟩

/-- The only line of a file is removed. -/
def lastLineRemoved : ParsedFileDiff where
  oldPath := some (js "a")
  newPath := some (js "a")
  isNewFile := false
  isDelete := false
  hunks := [⟨1, 1, 0, 0, [⟨.removal, js "x"⟩]⟩]

/-- A deletion that names a directory. -/
def directoryRemoved : ParsedFileDiff where
  oldPath := some (js "d")
  newPath := none
  isNewFile := false
  isDelete := true
  hunks := [⟨1, 1, 0, 0, [⟨.removal, js "x"⟩]⟩]

/-- Removing its only line empties a file, which the real run refuses and the dry run does not
    see. -/
theorem applyPatch_dry_lastLine :
    let settings : PatchSettings := ⟨false, false, false, none⟩
    let files : PatchFiles := [(js "a", js "x")]
    (applyPatch workspaceHost id settings.dry files [lastLineRemoved]).2 = files
      ∧ (applyPatch workspaceHost id settings.dry files [lastLineRemoved]).1
        ≠ { (applyPatch workspaceHost id settings.real files [lastLineRemoved]).1 with
          dryRun := true } := by
  intro settings files
  obtain ⟨hfiles, hiff⟩ := @applyPatch_dry_iff workspaceHost id settings
    (fun _ _ _ _ => ⟨rfl, rfl⟩) files [lastLineRemoved] (List.nodup_singleton _) (by decide)
  refine ⟨hfiles, fun heq => hiff.mp heq lastLineRemoved List.mem_cons_self ?_⟩
  exact ⟨rfl, rfl, rfl, rfl, List.cons_ne_nil _ _, by decide, js "x", [], by rfl, by decide,
    by decide +kernel, rfl⟩

/-- So does a deletion that the file system refuses. -/
example : FailsForReal workspaceHost ⟨false, false, true, none⟩ [] directoryRemoved (js "d") :=
  ⟨rfl, rfl, rfl, rfl, List.cons_ne_nil _ _, by decide, by decide⟩

end Patch

end OpencodeSwarm
