/-
  OpencodeSwarm.Scope.PathSecurity

  The containment checks of `src/utils/path-security.ts` on a POSIX host: the
  textual checks of a target, the walk up to the nearest ancestor that resolves,
  and the checker that looks at links only and keeps what it read.
-/
import OpencodeSwarm.Lib.FileTree

namespace OpencodeSwarm

open Js Posix

/-! ## Textual checks -/

/-- A string with its ASCII letters in lower case, which is how `/i` reads `%2E`. -/
def lowerAscii (text : JsString) : JsString :=
  text.map fun c => if 0x41 ≤ c ∧ c ≤ 0x5A then c + 0x20 else c

def containsPathTraversal (str : JsString) : Bool :=
  let lower := lowerAscii str
  includes str (js "../") || includes str (js "..\\")
    || (segments (toSlashes str)).contains (js "..")
    || includes lower (js "%2e%2e") || includes lower (js "%2e.")
    || (includes lower (js "%2e") && includes str (js ".."))
    || includes lower (js "%252e%252e")
    || str.contains 0xFF0E || str.contains 0x3002 || str.contains 0xFF65
    || includes lower (js "%2f") || includes lower (js "%5c")

def containsControlChars (str : JsString) : Bool :=
  str.any fun code => code ≤ 0x1F || (0x7F ≤ code && code ≤ 0x9F)
    || (0x202A ≤ code && code ≤ 0x202E) || (0x2066 ≤ code && code ≤ 0x2069)

/-- `/^[A-Za-z]:[/\\]/`. -/
def hasDrivePrefix : JsString → Bool
  | letter :: colon :: separator :: _ =>
    ((0x41 ≤ letter && letter ≤ 0x5A) || (0x61 ≤ letter && letter ≤ 0x7A)) && colon == 0x3A
      && (separator == slash || separator == backslash)
  | _ => false

/-! ## The host -/

/-- The file system as one call sees it: the entries of its root, how many links a path may go
    through, and `process.cwd()`. -/
structure FileHost where
  entries : List (FileName × FileNode)
  maxLinks : Nat
  cwd : JsString

namespace FileHost

variable (host : FileHost)

def tree : FileNode := .dir host.entries

/-- `fs.realpathSync.native`. -/
def realpathSyncNative (path : JsString) : Option JsString :=
  match host.tree.walk host.maxLinks [] (segments path) with
  | .ok (loc, _) => some (absolutePath loc)
  | .error _ => none

def realpathSync (path : JsString) : Option JsString := realpathSyncNative host path

/-- `fs.lstatSync(path).isSymbolicLink()`. -/
def lstatSync (path : JsString) : Except Errno Bool :=
  match (segments path).getLast? with
  | none => .error .enoent
  | some last =>
    match host.tree.walk host.maxLinks [] (segments path).dropLast with
    | .error errno => .error errno
    | .ok (dir, _) =>
      match host.tree.enter dir last with
      | .error errno => .error errno
      | .ok (.place _) => .ok false
      | .ok (.through _ _) => .ok true

/-- `path.resolve(root, filePath)`. -/
def target (root filePath : JsString) : JsString := resolve (resolve host.cwd root) filePath

/-- Opening the target for writing. -/
def openForWriting (root filePath : JsString) : Except Errno Loc :=
  host.tree.openFile host.maxLinks [] (rootSegments (host.target root filePath))

end FileHost

/-! ## Canonical containment -/

section Checks

variable (host : FileHost)

def canonicalExistingFilesystemPath (entryPath : JsString) : Option JsString :=
  let resolvedInput := resolve host.cwd entryPath
  match host.realpathSyncNative resolvedInput with
  | some resolved => some (normalize resolved)
  | none => (host.realpathSync resolvedInput).map normalize

/-- `candidate === canonicalRoot || candidate.startsWith(rootPrefix)`. -/
def isWithinCanonicalRoot (canonicalRoot candidate : JsString) : Bool :=
  candidate = canonicalRoot || (belowPrefix canonicalRoot).isPrefixOf candidate

/-- The loop of `isCanonicalPathWithinRoot`. -/
def probeWithinRoot (canonicalRoot : JsString) : Nat → JsString → Bool
  | 0, _ => false
  | rounds + 1, probe =>
    match canonicalExistingFilesystemPath host probe with
    | some canonicalProbe => isWithinCanonicalRoot canonicalRoot canonicalProbe
    | none =>
      let parent := dirname probe
      if parent = probe then false else probeWithinRoot canonicalRoot rounds parent

def isCanonicalPathWithinRoot (targetPath rootPath : JsString) : Bool :=
  match canonicalExistingFilesystemPath host rootPath with
  | none => false
  | some canonicalRoot => probeWithinRoot host canonicalRoot 4096 (resolve host.cwd targetPath)

structure ContainmentCacheEntry where
  inaccessible : Bool
  isSymbolicLink : Bool
  canonicalPath : Option JsString

/-- What `readEntry` reads when it has not read it yet. -/
def freshEntry (entryPath : JsString) : ContainmentCacheEntry :=
  match host.lstatSync entryPath with
  | .ok isSymbolicLink =>
    { inaccessible := false
      isSymbolicLink := isSymbolicLink
      canonicalPath :=
        if isSymbolicLink then canonicalExistingFilesystemPath host entryPath else none }
  | .error code =>
    { inaccessible := code ≠ .enoent && code ≠ .enotdir
      isSymbolicLink := false
      canonicalPath := none }

def maxCacheEntries : Nat := 32768

abbrev EntryCache := List (JsString × ContainmentCacheEntry)

def readEntry (entryCache : EntryCache) (entryPath : JsString) :
    ContainmentCacheEntry × EntryCache :=
  match entryCache.lookup entryPath with
  | some cached => (cached, entryCache)
  | none =>
    let entry := freshEntry host entryPath
    let kept := if maxCacheEntries ≤ entryCache.length then [] else entryCache
    (entry, kept ++ [(entryPath, entry)])

/-- The loop of the checker. -/
def checkUpward (canonicalRoot resolvedRoot : JsString) :
    Nat → JsString → EntryCache → Bool × EntryCache
  | 0, _, entryCache => (false, entryCache)
  | rounds + 1, probe, entryCache =>
    let (entry, entryCache) := readEntry host entryCache probe
    if entry.inaccessible then (false, entryCache)
    else if entry.isSymbolicLink then
      (entry.canonicalPath.any (isWithinCanonicalRoot canonicalRoot), entryCache)
    else if probe = resolvedRoot then (true, entryCache)
    else
      let parent := dirname probe
      if parent = probe then (false, entryCache)
      else checkUpward canonicalRoot resolvedRoot rounds parent entryCache

/-- Whether a target stays inside the root, once links are followed. -/
def createCanonicalPathWithinRootChecker (rootPath : JsString) (entryCache : EntryCache)
    (targetPath : JsString) : Bool × EntryCache :=
  let resolvedRoot := resolve host.cwd rootPath
  match canonicalExistingFilesystemPath host rootPath with
  | none => (false, entryCache)
  | some canonicalRoot =>
    let resolvedTarget := resolve host.cwd targetPath
    let inside := relative resolvedRoot resolvedTarget
    if [dot, dot].isPrefixOf inside || isAbsolute inside then (false, entryCache)
    else checkUpward host canonicalRoot resolvedRoot 4096 resolvedTarget entryCache

/-! ## The validators -/

/-- The checks that both validators make on the text. -/
def targetTextReason (filePath root : JsString) : Option JsString :=
  if filePath = [] ∨ trim filePath = [] then some (js "Empty path")
  else if isAbsolute filePath ∨ hasDrivePrefix filePath then
    some (js "Absolute path rejected: " ++ filePath)
  else if containsPathTraversal filePath then some (js "Path traversal detected: " ++ filePath)
  else if containsControlChars filePath then
    some (js "Control characters detected in path: " ++ filePath)
  else
    let inside := relative (resolve host.cwd root) (host.target root filePath)
    if [dot, dot].isPrefixOf inside ∨ isAbsolute inside then
      some (js "Path escapes root: " ++ filePath)
    else none

def validateTargetWithinRoot (filePath root : JsString) : Option JsString :=
  match targetTextReason host filePath root with
  | some reason => some reason
  | none =>
    if isCanonicalPathWithinRoot host (host.target root filePath) root then none
    else some (js "Path escapes root via symlink/junction: " ++ filePath)

/-- A validator of `createTargetWithinRootValidator`, with what its checker has read. -/
def createTargetWithinRootValidator (root : JsString) (entryCache : EntryCache)
    (filePath : JsString) : Option JsString × EntryCache :=
  match targetTextReason host filePath root with
  | some reason => (some reason, entryCache)
  | none =>
    let (inside, entryCache) :=
      createCanonicalPathWithinRootChecker host root entryCache (host.target root filePath)
    (if inside then none else some (js "Path escapes root via symlink/junction: " ++ filePath),
      entryCache)

/-- What the checker of a validator has read after a batch of targets. -/
def cacheAfter (root : JsString) (filePaths : List JsString) : EntryCache :=
  filePaths.foldl (fun entryCache filePath =>
    (createTargetWithinRootValidator host root entryCache filePath).2) []

end Checks

end OpencodeSwarm
