/-
  OpencodeSwarm.Background.StageBFreshness

  The freshness check of a background Stage B verdict
  (`compareStageBWorkspace` in `src/background/stage-b-gates.ts`) over the
  workspace snapshots of `src/background/workspace-snapshot.ts`, on a platform
  whose paths are case-sensitive.
-/
import OpencodeSwarm.Lib.Json
import OpencodeSwarm.Lib.PosixPath

namespace OpencodeSwarm

open Js Posix

/-! ## Paths -/

/-- `/^[A-Za-z]:\//`. -/
def startsWithDriveSlash : JsString → Bool
  | letter :: 0x3A :: 0x2F :: _ =>
    (0x41 ≤ letter && letter ≤ 0x5A) || (0x61 ≤ letter && letter ≤ 0x7A)
  | _ => false

/-- `.replace(/^\.\/+/, '')`. -/
def withoutDotSlash : JsString → JsString
  | 0x2E :: 0x2F :: rest => rest.dropWhile (· == slash)
  | path => path

def normalizeAttributionPath (file : JsString) : Option JsString :=
  let normalized := withoutDotSlash (toSlashes (trim file))
  let hasControlCharacter := normalized.any fun c => c ≤ 31 || c == 127
  if normalized.isEmpty || normalized.head? == some slash || startsWithDriveSlash normalized
      || normalized == js ".." || (js "../").isPrefixOf normalized
      || (segments normalized).contains (js "..") || hasControlCharacter then
    none
  else some normalized

/-- `BARE_TASK_ID`. -/
def isBareTaskId (text : JsString) : Bool :=
  (text.splitOn dot).all fun number => !number.isEmpty && number.all isDigit

/-- `deriveScopeFiles`; a `Set` of entries, in the order they were declared. -/
def deriveScopeFiles (scope : Option JsString) : Option (List JsString) :=
  match truthyString scope with
  | none => none
  | some scope =>
    let files := ((scope.splitOn 0x2C).filterMap fun fragment =>
      (normalizeAttributionPath fragment).filter fun normalized => !isBareTaskId
        normalized).eraseDups
    if files.isEmpty then none else some files

def scopeDirtySlice (files scopeFiles : List JsString) : List JsString :=
  (files.filterMap fun file =>
    (normalizeAttributionPath file).filter fun normalized => scopeFiles.contains normalized).eraseDups

/-! ## `git status` -/

/-- One record of `git status --porcelain=v2 --untracked-files=all`. -/
inductive StatusEntry where
  | untracked (path : JsString)
  | ordinary (path : JsString)
  | renamed (path originalPath : JsString)
  | unmerged (path : JsString)
  deriving DecidableEq

/-- The paths that a record is about. -/
def StatusEntry.paths : StatusEntry → List JsString
  | .untracked path | .ordinary path | .unmerged path => [path]
  | .renamed path originalPath => [path, originalPath]

def SWARM_VISIBLE_CODE_EXTENSIONS : List JsString :=
  [js ".js", js ".jsx", js ".mjs", js ".cjs", js ".ts", js ".tsx", js ".py", js ".pyw", js ".go",
    js ".rs", js ".php", js ".pl", js ".java", js ".kt", js ".swift", js ".scala", js ".c", js ".h",
    js ".cpp", js ".cs", js ".rb", js ".lua", js ".r", js ".sh", js ".bash", js ".zsh", js ".ps1",
    js ".psm1", js ".bat", js ".cmd", js ".vb", js ".fs"]

/-- `toLowerCase`, as far as its result can be an ASCII word: besides the capitals only
    the Kelvin sign folds to an ASCII letter alone. -/
def lowerUnit (c : CodeUnit) : CodeUnit :=
  if 0x41 ≤ c ∧ c ≤ 0x5A then c + 0x20 else if c = 0x212A then 0x6B else c

/-- `p.slice(p.lastIndexOf('.'))` of a path that has a dot. -/
def extensionOf (p : JsString) : JsString :=
  dot :: (p.reverse.takeWhile (· ≠ dot)).reverse

def isSwarmRuntimePath (p : JsString) : Bool :=
  if p = js ".swarm" then true
  else if !(js ".swarm/").isPrefixOf p then false
  else !SWARM_VISIBLE_CODE_EXTENSIONS.contains ((extensionOf p).map lowerUnit)

/-- `filterSwarmRuntimePorcelain` of one record. -/
def StatusEntry.withoutRuntime : StatusEntry → Option StatusEntry
  | .renamed path originalPath =>
    if isSwarmRuntimePath path then none
    else if isSwarmRuntimePath originalPath then some (.renamed path path)
    else some (.renamed path originalPath)
  | .untracked path => if isSwarmRuntimePath path then none else some (.untracked path)
  | .ordinary path => if isSwarmRuntimePath path then none else some (.ordinary path)
  | .unmerged path => if isSwarmRuntimePath path then none else some (.unmerged path)

/-- What `git status` prints; `branchOid` is `(initial)` when there is none. -/
structure PorcelainV2 where
  branchOid : Option JsString
  entries : List StatusEntry

/-- The object names that `parsePorcelainV2Snapshot` takes. -/
def isObjectId (oid : JsString) : Bool :=
  (oid.length == 40 || oid.length == 64)
    && oid.all fun c => isDigit c || (0x61 ≤ c && c ≤ 0x66) || (0x41 ≤ c && c ≤ 0x46)

def filterSwarmRuntimePorcelain (output : PorcelainV2) : PorcelainV2 :=
  { output with entries := output.entries.filterMap StatusEntry.withoutRuntime }

def StatusEntry.isUntracked : StatusEntry → Bool
  | .untracked _ => true
  | _ => false

/-- `[...new Set([...dirtyTrackedPaths, ...untrackedPaths])]` of the parsed output. -/
def PorcelainV2.changedPaths (output : PorcelainV2) : List JsString :=
  ((output.entries.filter fun entry => !entry.isUntracked).flatMap StatusEntry.paths
    ++ (output.entries.filter StatusEntry.isUntracked).flatMap StatusEntry.paths).eraseDups

/-! ## Snapshots -/

/-- `BackgroundWorkspaceSnapshot`. -/
structure WorkspaceSnapshot where
  directory : JsString
  gitHead : Option JsString
  dirtyHash : Option JsString
  changedFiles : Option (List JsString)
  prHeadSha : Option JsString
  scope : Option JsString

/-- What a snapshot asks of its surroundings: the canonical key of a root, and the
    digest of a `git status` payload. -/
structure SnapshotHost where
  canonicalRootKey : JsString → JsString
  digest : PorcelainV2 → JsString

/-- `captureWorkspaceSnapshot`, from what `git status` printed, if it ran, and from the
    PR head as it was resolved. -/
def captureWorkspaceSnapshot (host : SnapshotHost) (directory : JsString)
    (status : Option PorcelainV2) (prHeadSha scope : Option JsString) : WorkspaceSnapshot :=
  let porcelain := status.map filterSwarmRuntimePorcelain
  let snapshot := porcelain.filter fun output => output.branchOid.all isObjectId
  { directory := host.canonicalRootKey directory
    gitHead := snapshot.bind PorcelainV2.branchOid
    dirtyHash := porcelain.map host.digest
    changedFiles := snapshot.map PorcelainV2.changedPaths
    prHeadSha := prHeadSha
    scope := scope }

/-- `committedFilesBetween`, from what `git diff` printed, if it ran. -/
def committedFilesBetween (diff : Option (List JsString)) (fromHead toHead : Option JsString) :
    Option (List JsString) :=
  match fromHead, toHead with
  | some fromHead, some toHead =>
    if fromHead = toHead then some []
    else diff.map fun paths => paths.filter fun path => 0 < path.length
  | _, _ => none

/-- `{ stale, reason }`. -/
inductive WorkspaceFreshness where
  | fresh
  | stale (reason : JsString)
  deriving DecidableEq

/-- One check of `workspaceSnapshotMatches`; an expected `null` matches everything. -/
def matchField (key : JsString) (expected current : Option JsString) : Option JsString :=
  match expected with
  | none => none
  | some value =>
    if current = some value then none
    else some (key ++ js " changed: expected " ++ value ++ js ", got "
      ++ current.getD (js "unknown"))

/-- `workspaceSnapshotMatches`: the reason of a mismatch.  `sameProjectRoot` compares
    canonical keys. -/
def workspaceSnapshotMatches (host : SnapshotHost) (expected : Option WorkspaceSnapshot)
    (current : WorkspaceSnapshot) : Option JsString :=
  match expected with
  | none => none
  | some expected =>
    if host.canonicalRootKey expected.directory ≠ host.canonicalRootKey current.directory then
      some (js "directory changed: expected " ++ expected.directory ++ js ", got "
        ++ current.directory)
    else
      (matchField (js "gitHead") expected.gitHead current.gitHead).or
        ((matchField (js "dirtyHash") expected.dirtyHash current.dirtyHash).or
          (matchField (js "prHeadSha") expected.prHeadSha current.prHeadSha))

def compareWorkspaceSnapshots (host : SnapshotHost) (expected : Option WorkspaceSnapshot)
    (current : WorkspaceSnapshot) : WorkspaceFreshness :=
  match workspaceSnapshotMatches host expected current with
  | none => .fresh
  | some reason => .stale reason

/-- `files.join(', ')`. -/
def joinNames (files : List JsString) : JsString := (js ", ").intercalate files

/-- The fields of a `BackgroundDelegationRecord` that the check reads. -/
structure StageBRecord where
  normalizedAgent : JsString
  workspace : Option WorkspaceSnapshot

/-- `compareStageBWorkspace`; `diff` is what `git diff` prints for the two heads. -/
def compareStageBWorkspace (host : SnapshotHost) (diff : Option (List JsString))
    (record : StageBRecord) (actualWorkspace : WorkspaceSnapshot) (directory : Option JsString) :
    WorkspaceFreshness :=
  match record.workspace with
  | none => .fresh
  | some workspace =>
    if record.normalizedAgent = js "docs" then
      compareWorkspaceSnapshots host (some { workspace with dirtyHash := none }) actualWorkspace
    else
      match deriveScopeFiles workspace.scope, workspace.gitHead, actualWorkspace.gitHead,
          workspace.changedFiles, actualWorkspace.changedFiles, directory with
      | some scopeFiles, some expectedHead, some currentHead, some expectedChanged,
          some currentChanged, some _ =>
        -- only the identity of root and PR head is compared as a whole
        match workspaceSnapshotMatches host
            (some { workspace with gitHead := none, dirtyHash := none })
            { actualWorkspace with gitHead := none, dirtyHash := none } with
        | some reason => .stale reason
        | none =>
          match committedFilesBetween diff (some expectedHead) (some currentHead) with
          | none => compareWorkspaceSnapshots host (some workspace) actualWorkspace
          | some committed =>
            let committedInScope := committed.filter fun file =>
              scopeFiles.contains ((normalizeAttributionPath file).getD [])
            if 0 < committedInScope.length then
              .stale (js "in-scope committed change: " ++ joinNames (committedInScope.take 5)
                ++ if 5 < committedInScope.length then
                  js " (+" ++ js (toString (committedInScope.length - 5)) ++ js " more)"
                else [])
            else
              let dispatchDirty := scopeDirtySlice expectedChanged scopeFiles
              let currentDirty := scopeDirtySlice currentChanged scopeFiles
              let dirtied := currentDirty.filter fun file => !dispatchDirty.contains file
              let cleaned := dispatchDirty.filter fun file => !currentDirty.contains file
              if 0 < dirtied.length ∨ 0 < cleaned.length then
                .stale (js "in-scope dirty set changed: +[" ++ joinNames dirtied ++ js "] -["
                  ++ joinNames cleaned ++ js "]")
              else .fresh
      | _, _, _, _, _, _ => compareWorkspaceSnapshots host (some workspace) actualWorkspace

end OpencodeSwarm
