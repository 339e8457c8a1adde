/-
  OpencodeSwarm.Patch.ApplyPatch

  Applying the hunks of a unified diff to a file (`src/tools/apply-patch.ts`): every hunk
  at the place its header names, shifted by the hunks before it, and the file written
  with one line end throughout.
-/
import OpencodeSwarm.Text.FuzzyEdits

namespace OpencodeSwarm

open Js

/-! ## Parsed diffs -/

inductive HunkLineType
  | context
  | addition
  | removal
  deriving DecidableEq, Repr

structure HunkLine where
  type : HunkLineType
  content : JsString
  deriving DecidableEq, Repr

structure ParsedHunk where
  oldStart : Nat
  oldCount : Nat
  newStart : Nat
  newCount : Nat
  lines : List HunkLine
  deriving DecidableEq, Repr

structure ParsedFileDiff where
  oldPath : Option JsString
  newPath : Option JsString
  isNewFile : Bool
  isDelete : Bool
  hunks : List ParsedHunk
  deriving DecidableEq, Repr

namespace ParsedHunk

/-- The context and the removed lines. -/
def expectedOldLines (hunk : ParsedHunk) : List JsString :=
  (hunk.lines.filter fun line => line.type ≠ .addition).map HunkLine.content

/-- The context and the added lines. -/
def newLines (hunk : ParsedHunk) : List JsString :=
  (hunk.lines.filter fun line => line.type ≠ .removal).map HunkLine.content

/-- How many lines the hunk adds to the file. -/
def lineDelta (hunk : ParsedHunk) : Int :=
  (hunk.newLines.length : Int) - hunk.expectedOldLines.length

/-- The declared position, shifted by the hunks before. -/
def searchStart (hunk : ParsedHunk) (accumulatedDelta : Int) : Nat :=
  ((hunk.oldStart : Int) - 1 + accumulatedDelta).toNat

end ParsedHunk

/-! ## Results -/

inductive PatchErrorType
  | contextMismatch
  | fileNotFound
  | fileUnchanged
  | createNotAllowed
  | deleteNotAllowed
  | binaryRejected
  | renameRejected
  deriving DecidableEq, Repr

structure ApplyPatchFileError where
  hunkIndex : Nat
  type : PatchErrorType
  message : JsString
  expected : Option JsString
  actual : Option JsString
  line : Option Nat
  deriving DecidableEq, Repr

inductive PatchStatus
  | applied
  | noChanges
  | created
  | error
  deriving DecidableEq, Repr

structure ApplyPatchFileResult where
  file : JsString
  status : PatchStatus
  hunks : Nat
  hunksApplied : Nat
  hunksFailed : Nat
  errors : List ApplyPatchFileError
  deriving DecidableEq, Repr

/-- The first hunk that fails. -/
structure HunkFailure where
  failedHunkIndex : Nat
  fuzzyAttempted : Bool
  error : ApplyPatchFileError
  deriving DecidableEq, Repr

structure ApplyHunksOptions where
  fuzzyMatch : Bool
  fuzzyMatchContextAware : Bool
  deriving DecidableEq, Repr

/-! ## `applyHunks` -/

def carriageReturn : CodeUnit := 0x0D

/-- `content.replace(/\r\n/g, '\n')`. -/
def normalizeCrlf (content : JsString) : JsString :=
  replacePair carriageReturn lineFeedUnit lineFeedUnit content

/-- `lines.slice(start, stop).join('\n')`. -/
def joinSlice (lines : List JsString) (start stop : Nat) : JsString :=
  joinLines (sliceOf lines start stop)

/-- The exact match at a position. -/
def matchesAt (fileLines : List JsString) (offset : Nat) (expectedOldLines : List JsString) : Bool :=
  decide (offset + expectedOldLines.length ≤ fileLines.length)
    && decide (sliceOf fileLines offset (offset + expectedOldLines.length) = expectedOldLines)

/-- `lines.splice(offset, count, ...added)`. -/
def spliceAt {α : Type*} (lines : List α) (offset count : Nat) (added : List α) : List α :=
  lines.take offset ++ added ++ lines.drop (offset + count)

/-- The text of a diagnostic, cut at 200 characters. -/
def truncated (text : JsString) : JsString :=
  if 200 < text.length then text.take 200 ++ js "... (truncated)" else text

/-- What the fuzzy fallback gives for a hunk.  The call always ends
    (`exists_fuzzyFindAndReplace`). -/
def fuzzyHunk (options : ApplyHunksOptions) (fileLines : List JsString) (hunk : ParsedHunk) :
    FuzzyResult :=
  (fuzzyFindAndReplace (joinLines fileLines) (joinLines hunk.expectedOldLines)
      (joinLines hunk.newLines) false options.fuzzyMatchContextAware).getD
    (fuzzyFailure (joinLines fileLines) [])

/-- Why the fallback failed. -/
def fuzzyFailureReason (fuzzy : FuzzyResult) : Option JsString :=
  match fuzzy.error.filter fun error => !(trim error).isEmpty with
  | some error => some (trim error)
  | none =>
    if 1 < fuzzy.matchCount then
      some (js "fuzzy match was ambiguous (" ++ decimal fuzzy.matchCount ++ js " candidates)")
    else none

def mismatchMessage (hunkIdx searchStart : Nat) (reason : Option JsString) : JsString :=
  js "Context mismatch in hunk " ++ decimal (hunkIdx + 1) ++ js " at line "
    ++ decimal (searchStart + 1) ++ js ": expected context does not match file content"
    ++ (match reason with
      | some text => js " (fuzzy fallback: " ++ text ++ js ")"
      | none => [])

/-- The diagnostics of a hunk that does not match. -/
def hunkFailure (fileLines : List JsString) (hunkIdx searchStart : Nat) (hunk : ParsedHunk)
    (fuzzy : Option FuzzyResult) : HunkFailure :=
  let diagStart := min searchStart fileLines.length
  let diagEnd := min (diagStart + hunk.expectedOldLines.length) fileLines.length
  { failedHunkIndex := hunkIdx
    fuzzyAttempted := fuzzy.isSome
    error :=
      { hunkIndex := hunkIdx
        type := .contextMismatch
        message := mismatchMessage hunkIdx searchStart (fuzzy.bind fuzzyFailureReason)
        expected := some (truncated (joinLines hunk.expectedOldLines))
        actual := some (truncated (joinSlice fileLines diagStart diagEnd))
        line := some (searchStart + 1) } }

/-- The loop over the hunks. -/
def applyHunksFrom (options : Option ApplyHunksOptions) :
    Nat → Int → List JsString → List ParsedHunk → Except HunkFailure (List JsString)
  | _, _, fileLines, [] => .ok fileLines
  | hunkIdx, accumulatedDelta, fileLines, hunk :: rest =>
    let searchStart := hunk.searchStart accumulatedDelta
    let next := accumulatedDelta + hunk.lineDelta
    if matchesAt fileLines searchStart hunk.expectedOldLines then
      applyHunksFrom options (hunkIdx + 1) next
        (spliceAt fileLines searchStart hunk.expectedOldLines.length hunk.newLines) rest
    else
      match options.filter ApplyHunksOptions.fuzzyMatch with
      | some enabled =>
        let fuzzy := fuzzyHunk enabled fileLines hunk
        if fuzzy.error = none ∧ fuzzy.matchCount = 1 then
          applyHunksFrom options (hunkIdx + 1) next (linesOf fuzzy.content) rest
        else .error (hunkFailure fileLines hunkIdx searchStart hunk (some fuzzy))
      | none => .error (hunkFailure fileLines hunkIdx searchStart hunk none)

def applyHunks (content : JsString) (fileDiff : ParsedFileDiff)
    (options : Option ApplyHunksOptions) : Except HunkFailure (List JsString) :=
  if fileDiff.isNewFile then .ok (fileDiff.hunks.flatMap ParsedHunk.newLines)
  else if fileDiff.isDelete then .ok []
  else applyHunksFrom options 0 0 (linesOf (normalizeCrlf content)) fileDiff.hunks

/-! ## Line ends -/

def lineEndCrlf : JsString := [carriageReturn, lineFeedUnit]

def detectLineEnding (content : JsString) : JsString :=
  if includes content lineEndCrlf then lineEndCrlf else [lineFeedUnit]

def ensureFinalNewline (content : JsString) (originalEndsWithNewline : Bool) : JsString :=
  if originalEndsWithNewline && !endsWith content [lineFeedUnit] then content ++ [lineFeedUnit]
  else if !originalEndsWithNewline && endsWith content [lineFeedUnit] then content.dropLast
  else content

/-- The content that the patched lines make in the place of the original. -/
def finalContent (content : JsString) (appliedLines : List JsString) : JsString :=
  let resultContent := joinLines appliedLines
  if resultContent = [] then []
  else
    let withLineEnding := if detectLineEnding content = lineEndCrlf then
      replaceAllOf resultContent lineFeedUnit lineEndCrlf else resultContent
    ensureFinalNewline withLineEnding (endsWith content [lineFeedUnit])

/-! ## Hints -/

/-- `text.split(/\r?\n/)`. -/
def splitLineBreaks (text : JsString) : List JsString := linesOf (normalizeCrlf text)

def findClosestLinesMaxLines : Nat := 10000

/-- `String(n).padStart(4, ' ')`. -/
def paddedNumber (n : Nat) : JsString :=
  List.replicate (4 - (decimal n).length) 0x20 ++ decimal n

/-- The line that the others are compared with. -/
def closestAnchor (oldLines : List JsString) : Option JsString :=
  (oldLines.find? fun line => !(trim line).isEmpty).map trim

/-- The numbered lines of a section. -/
def closestSection (contentLines : List JsString) (section' : Nat × Nat) : JsString :=
  joinLines ((List.range' section'.1 (section'.2 - section'.1)).map fun j =>
    paddedNumber (j + 1) ++ js "| " ++ contentLines.getD j [])

/-- `findClosestLines`, with its default context and number of results. -/
def findClosestLines (oldString content : JsString) : JsString :=
  if oldString = [] ∨ content = [] then []
  else
    let oldLines := splitLineBreaks oldString
    let contentLines := splitLineBreaks content
    if findClosestLinesMaxLines < contentLines.length then []
    else match closestAnchor oldLines with
      | none => []
      | some anchor =>
        let scored := contentLines.zipIdx.filterMap fun entry =>
          let stripped := trim entry.1
          if stripped = [] then none
          else
            let score := ratio none true anchor stripped
            if 3 / 10 < score then some (score, entry.2) else none
        let top := (sortBy (fun a b : Rat × Nat => if a.1 < b.1 then 1 else
          if b.1 < a.1 then -1 else 0) scored).take 3
        let sections := top.map fun entry =>
          (entry.2 - 2, min contentLines.length (entry.2 + oldLines.length + 2))
        List.intercalate (js "\n---\n") (sections.eraseDups.map (closestSection contentLines))

/-! ## `processFileDiff` -/

/-- What the file system says beside the contents: where a path leads, which directories are
    there, and what it throws when a path is read or removed.  A write that throws ends the
    call without a result, and is not modelled. -/
structure PatchHost where
  isCanonicalPathWithinWorkspace : OrderedMap JsString JsString → JsString → Bool
  isCanonicalProtectedPath : OrderedMap JsString JsString → JsString → Bool
  dirname : JsString → JsString
  directoryExists : JsString → Bool
  readError : JsString → Option JsString
  unlinkError : JsString → Option JsString
  directory_fails : ∀ path, directoryExists path = true →
    (readError path).isSome ∧ (unlinkError path).isSome

def PatchHost.existsSync (host : PatchHost) (files : OrderedMap JsString JsString)
    (path : JsString) : Bool :=
  host.directoryExists path || (OrderedMap.get? files path).isSome

/-- `readFileSync` of a path that exists: what it throws, or the content. -/
def PatchHost.readFileSync (host : PatchHost) (files : OrderedMap JsString JsString)
    (path : JsString) : Except JsString JsString :=
  match host.readError path with
  | some message => .error message
  | none => .ok ((OrderedMap.get? files path).getD [])

/-- The settings of a call. -/
structure PatchSettings where
  dryRun : Bool
  allowCreates : Bool
  allowDeletes : Bool
  hunkOptions : Option ApplyHunksOptions

/-- A result that fails with one error at the first hunk. -/
def failedFile (targetPath : JsString) (hunksTotal : Nat) (type : PatchErrorType)
    (message : JsString) : ApplyPatchFileResult :=
  ⟨targetPath, .error, hunksTotal, 0, hunksTotal, [⟨0, type, message, none, none, none⟩]⟩

def unchangedFile (targetPath : JsString) (hunksTotal : Nat) : ApplyPatchFileResult :=
  ⟨targetPath, .noChanges, hunksTotal, hunksTotal, 0, []⟩

def appliedFile (targetPath : JsString) (status : PatchStatus) (hunksTotal : Nat) :
    ApplyPatchFileResult :=
  ⟨targetPath, status, hunksTotal, hunksTotal, 0, []⟩

/-- The error of a failed hunk, with a hint where the fuzzy fallback was tried. -/
def hintedError (content : JsString) (settings : PatchSettings) (failure : HunkFailure) :
    ApplyPatchFileError :=
  if failure.fuzzyAttempted && settings.hunkOptions.any ApplyHunksOptions.fuzzyMatch then
    let hint := findClosestLines (failure.error.expected.getD []) content
    if hint = [] then failure.error
    else { failure.error with
      message := failure.error.message
        ++ js "\n\nDid you mean one of these sections?\n" ++ hint }
  else failure.error

/-- A new file. -/
def createFile (host : PatchHost) (files : OrderedMap JsString JsString)
    (fileDiff : ParsedFileDiff) (targetPath fullPath : JsString) (settings : PatchSettings) :
    ApplyPatchFileResult × OrderedMap JsString JsString :=
  let hunksTotal := fileDiff.hunks.length
  let parentDir := host.dirname fullPath
  if !settings.allowCreates then
    (failedFile targetPath hunksTotal .createNotAllowed
      (js "New file creation not allowed: " ++ targetPath ++ js " (set allowCreates to true)"), files)
  else if !host.existsSync files parentDir then
    (failedFile targetPath hunksTotal .fileNotFound
      (js "Parent directory does not exist: " ++ parentDir), files)
  else if host.existsSync files fullPath then
    (failedFile targetPath hunksTotal .fileNotFound
      (js "File already exists: " ++ targetPath ++ js " (cannot create — patch may be stale)"), files)
  else if hunksTotal = 0 then (unchangedFile targetPath 0, files)
  else match applyHunks [] fileDiff none with
    | .error failure =>
      (⟨targetPath, .error, hunksTotal, 0, hunksTotal, [failure.error]⟩, files)
    | .ok appliedLines =>
      (appliedFile targetPath .created hunksTotal,
        if settings.dryRun then files
        else OrderedMap.set files fullPath (ensureFinalNewline (joinLines appliedLines) true))

/-- A file to delete. -/
def deleteFile (host : PatchHost) (files : OrderedMap JsString JsString)
    (fileDiff : ParsedFileDiff) (targetPath fullPath : JsString) (settings : PatchSettings) :
    ApplyPatchFileResult × OrderedMap JsString JsString :=
  let hunksTotal := fileDiff.hunks.length
  if hunksTotal = 0 then (unchangedFile targetPath 0, files)
  else if !settings.allowDeletes then
    (failedFile targetPath hunksTotal .deleteNotAllowed
      (js "File deletion not allowed: " ++ targetPath ++ js " (set allowDeletes to true)"), files)
  else if !host.existsSync files fullPath then
    (failedFile targetPath hunksTotal .fileNotFound
      (js "File not found for deletion: " ++ targetPath), files)
  else if settings.dryRun then (appliedFile targetPath .applied hunksTotal, files)
  else match host.unlinkError fullPath with
    | some message =>
      (failedFile targetPath hunksTotal .fileNotFound (js "Failed to delete file: " ++ message),
        files)
    | none => (appliedFile targetPath .applied hunksTotal, OrderedMap.erase files fullPath)

/-- A file to change. -/
def modifyFile (host : PatchHost) (files : OrderedMap JsString JsString)
    (fileDiff : ParsedFileDiff) (targetPath fullPath : JsString) (settings : PatchSettings) :
    ApplyPatchFileResult × OrderedMap JsString JsString :=
  let hunksTotal := fileDiff.hunks.length
  if !host.existsSync files fullPath then
    (failedFile targetPath hunksTotal .fileNotFound (js "File not found: " ++ targetPath), files)
  else match host.readFileSync files fullPath with
  | .error message =>
    (failedFile targetPath hunksTotal .fileNotFound (js "Could not read file: " ++ message), files)
  | .ok content =>
    if hunksTotal = 0 then (unchangedFile targetPath 0, files)
    else match applyHunks content fileDiff settings.hunkOptions with
      | .error failure =>
        (⟨targetPath, .error, hunksTotal, 0, hunksTotal, [hintedError content settings failure]⟩,
          files)
      | .ok appliedLines =>
        if joinLines appliedLines = [] ∧ settings.dryRun = false ∧ settings.allowDeletes = false
            ∧ 0 < content.length then
          (⟨targetPath, .error, hunksTotal, hunksTotal, 0, [⟨0, .deleteNotAllowed,
            js "Patch would delete all content from " ++ targetPath
              ++ js ". Set allowDeletes to true to permit file deletion.", none, none, none⟩]⟩, files)
        else if finalContent content appliedLines = content then
          (unchangedFile targetPath hunksTotal, files)
        else
          (appliedFile targetPath .applied hunksTotal,
            if settings.dryRun then files
            else OrderedMap.set files fullPath (finalContent content appliedLines))

/-- `processFileDiff`, on the contents of the files. -/
def processFileDiff (host : PatchHost) (files : OrderedMap JsString JsString)
    (fileDiff : ParsedFileDiff) (targetPath fullPath : JsString) (settings : PatchSettings) :
    ApplyPatchFileResult × OrderedMap JsString JsString :=
  if !host.isCanonicalPathWithinWorkspace files fullPath then
    (failedFile targetPath fileDiff.hunks.length .contextMismatch
      (js "Path escapes workspace via symlink/junction: " ++ targetPath), files)
  else if host.isCanonicalProtectedPath files fullPath then
    (failedFile targetPath fileDiff.hunks.length .contextMismatch
      (js "Protected directory target rejected via symlink: " ++ targetPath), files)
  else if fileDiff.isNewFile then createFile host files fileDiff targetPath fullPath settings
  else if fileDiff.isDelete then deleteFile host files fileDiff targetPath fullPath settings
  else modifyFile host files fileDiff targetPath fullPath settings

end OpencodeSwarm
