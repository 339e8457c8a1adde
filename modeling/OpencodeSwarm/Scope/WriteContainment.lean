/-
  OpencodeSwarm.Scope.WriteContainment

  Where an accepted target lands when it is opened for writing.  The validator
  with a checker refuses every link that does not resolve inside the root; the
  simple one walks up to an ancestor that resolves, past a dangling last link,
  and then the link may lead out.
-/
import OpencodeSwarm.Scope.PathSecurity

namespace OpencodeSwarm

open Js Posix

variable {host : FileHost}

/-! ## Canonical paths -/

variable {names : List JsString}

theorem walk_segments (hnames : ∀ name ∈ names, IsFileName name) :
    host.tree.walk host.maxLinks [] (segments (absolutePath names))
      = host.tree.walk host.maxLinks [] names := by
  have hempty : host.tree.enter [] [] = .ok (.place []) := rfl
  by_cases hne : names = []
  · subst hne
    have hroot : segments (absolutePath []) = [[], []] := by decide
    rw [hroot, FileNode.walk_place hempty, FileNode.walk_place hempty]
  · rw [segments_absolutePath hnames hne, FileNode.walk_place hempty]

variable {path : JsString} {left : Nat} {loc : Loc}

theorem canonicalExistingFilesystemPath_of_walk
    (hwalk : host.tree.walk host.maxLinks [] (resolvedNames host.cwd path) = .ok (loc, left)) :
    canonicalExistingFilesystemPath host path = some (absolutePath loc) := by
  dsimp only [canonicalExistingFilesystemPath, FileHost.realpathSyncNative]
  rw [resolve_eq_absolutePath, walk_segments isFileName_of_mem_resolvedNames, hwalk]
  dsimp only
  rw [normalize_absolutePath (FileNode.isFileName_of_walk hwalk)]

variable {errno : Errno}

theorem canonicalExistingFilesystemPath_of_error
    (hwalk : host.tree.walk host.maxLinks [] (resolvedNames host.cwd path) = .error errno) :
    canonicalExistingFilesystemPath host path = none := by
  dsimp only [canonicalExistingFilesystemPath, FileHost.realpathSync, FileHost.realpathSyncNative]
  rw [resolve_eq_absolutePath, walk_segments isFileName_of_mem_resolvedNames, hwalk]
  rfl

theorem walk_of_canonicalExistingFilesystemPath {canonical : JsString}
    (h : canonicalExistingFilesystemPath host path = some canonical) :
    ∃ loc left, host.tree.walk host.maxLinks [] (resolvedNames host.cwd path) = .ok (loc, left)
      ∧ canonical = absolutePath loc := by
  cases hwalk : host.tree.walk host.maxLinks [] (resolvedNames host.cwd path) with
  | error errno =>
    rw [canonicalExistingFilesystemPath_of_error hwalk] at h
    cases h
  | ok found =>
    rw [canonicalExistingFilesystemPath_of_walk hwalk] at h
    cases h
    exact ⟨found.1, found.2, rfl, rfl⟩

variable {rootLoc : Loc}

theorem isWithinCanonicalRoot_iff (hroot : ∀ name ∈ rootLoc, IsFileName name)
    (hloc : ∀ name ∈ loc, IsFileName name) :
    isWithinCanonicalRoot (absolutePath rootLoc) (absolutePath loc) = true ↔ rootLoc <+: loc := by
  unfold isWithinCanonicalRoot
  rw [Bool.or_eq_true, decide_eq_true_iff, List.isPrefixOf_iff_prefix, below_iff_prefix hroot hloc]

/-! ## The target -/

/-- The words of the target. -/
def FileHost.targetNames (host : FileHost) (root filePath : JsString) : List JsString :=
  resolvedNames (resolve host.cwd root) filePath

theorem target_eq_absolutePath (root filePath : JsString) :
    host.target root filePath = absolutePath (host.targetNames root filePath) := rfl

theorem isFileName_of_mem_targetNames {root filePath : JsString} :
    ∀ name ∈ host.targetNames root filePath, IsFileName name :=
  isFileName_of_mem_resolvedNames

theorem openForWriting_eq (root filePath : JsString) :
    host.openForWriting root filePath
      = host.tree.openFile host.maxLinks [] (host.targetNames root filePath) := by
  unfold FileHost.openForWriting
  rw [target_eq_absolutePath, rootSegments_absolutePath isFileName_of_mem_targetNames]

/-- What a write to the target makes or changes is inside the root. -/
def LandsInside (host : FileHost) (root filePath : JsString) : Prop :=
  ∀ file, host.openForWriting root filePath = .ok file →
    ∃ rootLoc left, host.tree.walk host.maxLinks [] (resolvedNames host.cwd root)
      = .ok (rootLoc, left) ∧ rootLoc <+: file

/-! ## The simple validator -/

variable {rounds : Nat}

/-- The loop accepts a path with a prefix that resolves inside, the longest that resolves. -/
theorem exists_of_probeWithinRoot (hroot : ∀ name ∈ rootLoc, IsFileName name)
    (hnames : ∀ name ∈ names, IsFileName name)
    (h : probeWithinRoot host (absolutePath rootLoc) rounds (absolutePath names) = true) :
    ∃ front back loc left, names = front ++ back
      ∧ host.tree.walk host.maxLinks [] front = .ok (loc, left) ∧ rootLoc <+: loc
      ∧ back.length < rounds ∧ ∀ word rest, back = word :: rest →
          ∃ errno, host.tree.walk host.maxLinks [] (front ++ [word]) = .error errno := by
  induction rounds generalizing names with
  | zero => cases h
  | succ rounds ih =>
    unfold probeWithinRoot at h
    cases hwalk : host.tree.walk host.maxLinks [] names with
    | ok found =>
      have hresolved : host.tree.walk host.maxLinks []
          (resolvedNames host.cwd (absolutePath names)) = .ok (found.1, found.2) := by
        rw [resolvedNames_absolutePath hnames]
        exact hwalk
      rw [canonicalExistingFilesystemPath_of_walk hresolved] at h
      refine ⟨names, [], found.1, found.2, (List.append_nil names).symm, hwalk, ?_,
        Nat.succ_pos rounds, ?_⟩
      · exact (isWithinCanonicalRoot_iff hroot (FileNode.isFileName_of_walk hwalk)).mp h
      · intro word rest hback
        cases hback
    | error errno =>
      have hresolved : host.tree.walk host.maxLinks []
          (resolvedNames host.cwd (absolutePath names)) = .error errno := by
        rw [resolvedNames_absolutePath hnames]
        exact hwalk
      rw [canonicalExistingFilesystemPath_of_error hresolved] at h
      dsimp only at h
      rcases List.eq_nil_or_concat names with rfl | ⟨init, last, rfl⟩
      · rw [FileNode.walk_nil] at hwalk
        cases hwalk
      · rw [List.concat_eq_append] at hnames hwalk h ⊢
        rw [dirname_absolutePath hnames] at h
        split at h
        · cases h
        have hinit : ∀ name ∈ init, IsFileName name :=
          fun name hname => hnames name (List.mem_append_left _ hname)
        obtain ⟨front, mid, loc, left, hsplit, hfront, hinside, hfew, hnext⟩ := ih hinit h
        refine ⟨front, mid ++ [last], loc, left, ?_, hfront, hinside, ?_, ?_⟩
        · rw [hsplit, List.append_assoc]
        · rw [List.length_append]
          exact Nat.succ_lt_succ hfew
        · intro word rest hback
          cases mid with
          | nil =>
            cases hback
            rw [List.append_nil] at hsplit
            exact ⟨errno, hsplit ▸ hwalk⟩
          | cons second others =>
            rw [List.cons_append, List.cons.injEq] at hback
            exact hnext word others (by rw [hback.1])

/-- The last word of the target is a link that dangles, and its chain ends at a name that a
    directory outside the root does not have. -/
def LeadsOut (host : FileHost) (root filePath : JsString) : Prop :=
  targetTextReason host filePath root = none ∧
  ∃ (rootLoc dir out : Loc) (rootLeft left : Nat) (front : List JsString) (name last : JsString),
    host.tree.walk host.maxLinks [] (resolvedNames host.cwd root) = .ok (rootLoc, rootLeft)
      ∧ host.targetNames root filePath = front ++ [name]
      ∧ host.tree.walk host.maxLinks [] front = .ok (dir, left) ∧ rootLoc <+: dir
      ∧ FileNode.DanglesTo host.tree left dir [name] out last ∧ ¬ rootLoc <+: out

variable {root filePath : JsString}

theorem validateTargetWithinRoot_eq_none : validateTargetWithinRoot host filePath root = none ↔
      targetTextReason host filePath root = none
        ∧ isCanonicalPathWithinRoot host (host.target root filePath) root = true := by
  unfold validateTargetWithinRoot
  cases targetTextReason host filePath root with
  | some reason => simp
  | none =>
    cases isCanonicalPathWithinRoot host (host.target root filePath) root <;> simp

variable {dir : Loc} {rootLeft : Nat} {front : List JsString}

theorem isCanonicalPathWithinRoot_of_leadsOut {name : JsString}
    (hrootWalk : host.tree.walk host.maxLinks [] (resolvedNames host.cwd root)
      = .ok (rootLoc, rootLeft)) (hnames : host.targetNames root filePath = front ++ [name])
    (hfront : host.tree.walk host.maxLinks [] front = .ok (dir, left)) (hinside : rootLoc <+: dir)
    (hlast : host.tree.walk left dir [name] = .error errno) :
    isCanonicalPathWithinRoot host (host.target root filePath) root = true := by
  have hproper : ∀ other ∈ front ++ [name], IsFileName other := by
    rw [← hnames]
    exact isFileName_of_mem_targetNames
  have hfrontProper : ∀ other ∈ front, IsFileName other :=
    fun other hother => hproper other (List.mem_append_left _ hother)
  have hwhole : host.tree.walk host.maxLinks []
      (resolvedNames host.cwd (absolutePath (front ++ [name]))) = .error errno := by
    rw [resolvedNames_absolutePath hproper, FileNode.walk_append_of_ok hfront, hlast]
  have hparent : host.tree.walk host.maxLinks []
      (resolvedNames host.cwd (absolutePath front)) = .ok (dir, left) := by
    rw [resolvedNames_absolutePath hfrontProper, hfront]
  have hother : absolutePath front ≠ absolutePath (front ++ [name]) := by
    intro heq
    have hlength := congrArg List.length (absolutePath_injective hfrontProper hproper heq)
    rw [List.length_append, List.length_singleton] at hlength
    omega
  rw [isCanonicalPathWithinRoot, canonicalExistingFilesystemPath_of_walk hrootWalk]
  rw [target_eq_absolutePath, hnames, resolve_absolutePath hproper]
  unfold probeWithinRoot
  rw [canonicalExistingFilesystemPath_of_error hwhole]
  dsimp only
  rw [dirname_absolutePath hproper, if_neg hother]
  rw [probeWithinRoot, canonicalExistingFilesystemPath_of_walk hparent]
  exact (isWithinCanonicalRoot_iff (FileNode.isFileName_of_walk hrootWalk)
    (FileNode.isFileName_of_walk hfront)).mpr hinside

theorem not_landsInside_of_leadsOut (h : LeadsOut host root filePath) :
    validateTargetWithinRoot host filePath root = none ∧ ¬ LandsInside host root filePath := by
  obtain ⟨htext, rootLoc, dir, out, rootLeft, left, front, name, last, hroot, hnames, hfront,
    hinside, hdangles, hout⟩ := h
  refine ⟨validateTargetWithinRoot_eq_none.mpr ⟨htext,
    isCanonicalPathWithinRoot_of_leadsOut hroot hnames hfront hinside hdangles.walk_eq⟩, ?_⟩
  intro hlands
  have hopen : host.openForWriting root filePath = .ok (out ++ [last]) := by
    rw [openForWriting_eq, hnames, FileNode.openFile_append hfront (List.cons_ne_nil _ _)]
    exact hdangles.create_eq
  obtain ⟨loc, locLeft, hloc, hstarts⟩ := hlands _ hopen
  rw [hroot] at hloc
  cases hloc
  rcases List.prefix_concat_iff.mp hstarts with heq | hbefore
  · -- the root is there, the name at the end of the chain is not
    obtain ⟨node, hnode⟩ := FileNode.nodeAt_of_walk ⟨host.tree, rfl⟩ hroot
    rw [heq, FileNode.nodeAt_of_enter_enoent hdangles.enter_eq] at hnode
    cases hnode
  · exact hout hbefore

theorem landsInside_of_not_leadsOut (hvalid : validateTargetWithinRoot host filePath root = none)
    (hstays : ¬ LeadsOut host root filePath) : LandsInside host root filePath := by
  intro file hopen
  obtain ⟨htext, hwithin⟩ := validateTargetWithinRoot_eq_none.mp hvalid
  unfold isCanonicalPathWithinRoot at hwithin
  cases hcanonical : canonicalExistingFilesystemPath host root with
  | none =>
    rw [hcanonical] at hwithin
    cases hwithin
  | some canonicalRoot =>
    rw [hcanonical] at hwithin
    obtain ⟨rootLoc, rootLeft, hroot, rfl⟩ := walk_of_canonicalExistingFilesystemPath hcanonical
    have hproper := @isFileName_of_mem_targetNames host root filePath
    rw [target_eq_absolutePath, resolve_absolutePath hproper] at hwithin
    obtain ⟨front, back, loc, left, hnames, hfront, hinside, -, hnext⟩ :=
      exists_of_probeWithinRoot (FileNode.isFileName_of_walk hroot) hproper hwithin
    refine ⟨rootLoc, rootLeft, hroot, ?_⟩
    rw [openForWriting_eq, hnames] at hopen
    cases back with
    | nil =>
      rw [List.append_nil] at hopen
      rw [FileNode.openFile_of_walk hfront hopen]
      exact hinside
    | cons word rest =>
      obtain ⟨errno, herror⟩ := hnext word rest rfl
      rw [FileNode.walk_append_of_ok hfront] at herror
      rw [FileNode.openFile_append hfront (List.cons_ne_nil _ _)] at hopen
      cases rest with
      | nil =>
        obtain ⟨out, last, hdangles, rfl⟩ := FileNode.danglesTo_of_create herror hopen
        by_contra houtside
        refine hstays ⟨htext, rootLoc, loc, out, rootLeft, left, front, word, last, hroot, hnames,
          hfront, hinside, hdangles, ?_⟩
        exact fun hout => houtside (hout.trans (List.prefix_append out [last]))
      | cons second others =>
        -- a missing directory is made, a dangling link in its place is refused
        rw [FileNode.openFile, herror] at hopen
        dsimp only at hopen
        split at hopen
        · cases hopen
          exact hinside.trans (List.prefix_append loc _)
        · cases hopen

/-! ## The validator with a checker -/

/-- The checker has read what is there. -/
def ReadsTree (host : FileHost) (entryCache : EntryCache) : Prop :=
  ∀ entryPath entry, entryCache.lookup entryPath = some entry → entry = freshEntry host entryPath

variable {entryCache : EntryCache}

theorem readEntry_eq (hreads : ReadsTree host entryCache) (entryPath : JsString) :
    (readEntry host entryCache entryPath).1 = freshEntry host entryPath
      ∧ ReadsTree host (readEntry host entryCache entryPath).2 := by
  unfold readEntry
  cases hcached : entryCache.lookup entryPath with
  | some cached => exact ⟨hreads entryPath cached hcached, hreads⟩
  | none =>
    refine ⟨rfl, ?_⟩
    intro other entry hother
    rw [List.lookup_append] at hother
    rcases Option.or_eq_some_iff.mp hother with hkept | ⟨-, hnew⟩
    · split at hkept
      · cases hkept
      · exact hreads other entry hkept
    · rw [List.lookup_cons] at hnew
      split at hnew
      · rename_i hsame
        cases hnew
        rw [eq_of_beq hsame]
      · cases hnew

theorem checkUpward_readsTree {canonicalRoot resolvedRoot : JsString} {probe : JsString}
    (hreads : ReadsTree host entryCache) :
    ReadsTree host (checkUpward host canonicalRoot resolvedRoot rounds probe entryCache).2 := by
  induction rounds generalizing probe entryCache with
  | zero => exact hreads
  | succ rounds ih =>
    have hafter := (readEntry_eq hreads probe).2
    dsimp only [checkUpward]
    split
    · exact hafter
    split
    · exact hafter
    split
    · exact hafter
    split
    · exact hafter
    · exact ih hafter

theorem cacheAfter_readsTree (root : JsString) (filePaths : List JsString) :
    ReadsTree host (cacheAfter host root filePaths) := by
  have hstep : ∀ entryCache filePath, ReadsTree host entryCache →
      ReadsTree host (createTargetWithinRootValidator host root entryCache filePath).2 := by
    intro entryCache filePath hreads
    unfold createTargetWithinRootValidator
    split
    · exact hreads
    dsimp only [createCanonicalPathWithinRootChecker]
    split
    · exact hreads
    split
    · exact hreads
    · exact checkUpward_readsTree hreads
  have hfold : ∀ entryCache, ReadsTree host entryCache →
      ReadsTree host (filePaths.foldl (fun entryCache filePath =>
        (createTargetWithinRootValidator host root entryCache filePath).2) entryCache) := by
    induction filePaths with
    | nil => exact fun _ hreads => hreads
    | cons filePath rest ih =>
      intro entryCache hreads
      exact ih _ (hstep entryCache filePath hreads)
  exact hfold [] fun _ _ hlookup => nomatch hlookup

/-- `lstat` looks at the last word where the words before it lead. -/
theorem lstatSync_of_enter {word : JsString} {start : Loc} {words : List JsString}
    (hnames : ∀ name ∈ front ++ [word], IsFileName name)
    (hfront : host.tree.walk host.maxLinks [] front = .ok (dir, left))
    (hword : host.tree.enter dir word = .ok (.through start words)) :
    host.lstatSync (absolutePath (front ++ [word])) = .ok true := by
  have hempty : host.tree.enter [] [] = .ok (.place []) := rfl
  unfold FileHost.lstatSync
  rw [segments_absolutePath hnames (by simp), ← List.cons_append, List.getLast?_concat,
    List.dropLast_concat]
  rw [FileNode.walk_place hempty, hfront]
  dsimp only
  rw [hword]

/-- The loop accepts a path with a prefix that resolves inside and no link behind it. -/
theorem exists_of_checkUpward {rootNames : List JsString}
    (hrootNames : ∀ name ∈ rootNames, IsFileName name)
    (hroot : host.tree.walk host.maxLinks [] rootNames = .ok (rootLoc, rootLeft))
    (hnames : ∀ name ∈ names, IsFileName name) (hreads : ReadsTree host entryCache)
    (h : (checkUpward host (absolutePath rootLoc) (absolutePath rootNames) rounds
      (absolutePath names) entryCache).1 = true) : ∃ front back loc left, names = front ++ back
      ∧ host.tree.walk host.maxLinks [] front = .ok (loc, left) ∧ rootLoc <+: loc
      ∧ back.length < rounds ∧ ∀ mid word rest, back = mid ++ word :: rest → ∀ dir dirLeft,
          host.tree.walk host.maxLinks [] (front ++ mid) = .ok (dir, dirLeft) →
          ∀ start words, host.tree.enter dir word ≠ .ok (.through start words) := by
  induction rounds generalizing names entryCache with
  | zero => cases h
  | succ rounds ih =>
    have hentry := (readEntry_eq hreads (absolutePath names)).1
    have hnothing : ∀ (mid : List JsString) (word : JsString) (rest : List JsString),
        [] ≠ mid ++ word :: rest := fun mid word rest heq =>
      List.cons_ne_nil _ _ (List.append_eq_nil_iff.mp heq.symm).2
    dsimp only [checkUpward] at h
    rw [hentry] at h
    split at h
    · cases h
    split at h
    · -- a link, which resolves inside
      rename_i hlink
      have hcanonical : (freshEntry host (absolutePath names)).canonicalPath
          = canonicalExistingFilesystemPath host (absolutePath names) := by
        unfold freshEntry at hlink ⊢
        split at hlink
        · rw [if_pos hlink]
        · cases hlink
      rw [hcanonical] at h
      obtain ⟨canonical, hsome, hinside⟩ := (Option.any_eq_true _ _).mp h
      obtain ⟨loc, left, hwalk, rfl⟩ := walk_of_canonicalExistingFilesystemPath hsome
      rw [resolvedNames_absolutePath hnames] at hwalk
      refine ⟨names, [], loc, left, (List.append_nil names).symm, hwalk, ?_,
        Nat.succ_pos rounds, ?_⟩
      · exact (isWithinCanonicalRoot_iff (FileNode.isFileName_of_walk hroot)
          (FileNode.isFileName_of_walk hwalk)).mp hinside
      · intro mid word rest hback
        exact absurd hback (hnothing mid word rest)
    · rename_i hnotLink
      split at h
      · rename_i hsame
        have hnamesRoot := absolutePath_injective hnames hrootNames hsame
        refine ⟨names, [], rootLoc, rootLeft, (List.append_nil names).symm, ?_,
          List.prefix_refl rootLoc, Nat.succ_pos rounds, ?_⟩
        · rw [hnamesRoot]
          exact hroot
        · intro mid word rest hback
          exact absurd hback (hnothing mid word rest)
      · rcases List.eq_nil_or_concat names with rfl | ⟨init, last, rfl⟩
        · cases h
        rw [List.concat_eq_append] at hnames h hnotLink ⊢
        rw [dirname_absolutePath hnames] at h
        split at h
        · cases h
        have hinit : ∀ name ∈ init, IsFileName name :=
          fun name hname => hnames name (List.mem_append_left _ hname)
        obtain ⟨front, back, loc, left, hsplit, hfront, hinside, hfew, hlinks⟩ :=
          ih hinit (readEntry_eq hreads _).2 h
        refine ⟨front, back ++ [last], loc, left, ?_, hfront, hinside, ?_, ?_⟩
        · rw [hsplit, List.append_assoc]
        · rw [List.length_append]
          exact Nat.succ_lt_succ hfew
        · intro mid word rest hback dir dirLeft hwalk start words hword
          rcases List.eq_nil_or_concat rest with rfl | ⟨others, tail, rfl⟩
          · -- the last word itself is no link
            obtain ⟨rfl, hlast⟩ := List.append_inj' hback rfl
            cases hlast
            rw [← hsplit] at hwalk
            refine hnotLink ?_
            rw [freshEntry, lstatSync_of_enter hnames hwalk hword]
          · have hshorter : back = mid ++ word :: others := by
              rw [List.concat_eq_append, ← List.cons_append, ← List.append_assoc] at hback
              exact (List.append_inj' hback rfl).1
            exact hlinks mid word others hshorter dir dirLeft hwalk start words hword

/-- Whatever the checker has read before, a target it accepts lands inside. -/
theorem landsInside_of_checker {earlier : List JsString}
    (hvalid : (createTargetWithinRootValidator host root (cacheAfter host root earlier)
      filePath).1 = none) : LandsInside host root filePath := by
  intro file hopen
  unfold createTargetWithinRootValidator at hvalid
  split at hvalid
  · cases hvalid
  have hchecked : (createCanonicalPathWithinRootChecker host root (cacheAfter host root earlier)
      (host.target root filePath)).1 = true := by
    dsimp only at hvalid
    split at hvalid
    · assumption
    · cases hvalid
  unfold createCanonicalPathWithinRootChecker at hchecked
  cases hcanonical : canonicalExistingFilesystemPath host root with
  | none =>
    rw [hcanonical] at hchecked
    cases hchecked
  | some canonicalRoot =>
    rw [hcanonical] at hchecked
    dsimp only at hchecked
    split at hchecked
    · cases hchecked
    obtain ⟨rootLoc, rootLeft, hroot, rfl⟩ := walk_of_canonicalExistingFilesystemPath hcanonical
    have hproper := @isFileName_of_mem_targetNames host root filePath
    rw [target_eq_absolutePath, resolve_absolutePath hproper, resolve_eq_absolutePath]
      at hchecked
    obtain ⟨front, back, loc, left, hnames, hfront, hinside, -, hlinks⟩ :=
      exists_of_checkUpward isFileName_of_mem_resolvedNames hroot hproper
        (cacheAfter_readsTree root earlier) hchecked
    refine ⟨rootLoc, rootLeft, hroot, hinside.trans ?_⟩
    rw [openForWriting_eq, hnames] at hopen
    by_cases hback : back = []
    · rw [hback, List.append_nil] at hopen
      have hsame := FileNode.openFile_of_walk hfront hopen
      exact hsame ▸ List.prefix_refl loc
    · rw [FileNode.openFile_append hfront hback] at hopen
      refine FileNode.prefix_of_openFile ?_ hback ?_ hopen
      · intro name hname
        refine hproper name ?_
        rw [hnames]
        exact List.mem_append_right _ hname
      · intro mid word rest hsplit dir dirLeft hwalk start words
        rw [← FileNode.walk_append_of_ok hfront] at hwalk
        exact hlinks mid word rest hsplit dir dirLeft hwalk start words

/-! ## Both validators -/

/-- What the simple validator accepts lands inside unless it is a link that dangles out of
    the root; what a validator with a checker accepts always does. -/
theorem landsInside_of_accepted_iff (host : FileHost) (root filePath : JsString) :
    ((validateTargetWithinRoot host filePath root = none → LandsInside host root filePath)
        ↔ ¬ LeadsOut host root filePath)
      ∧ ∀ earlier, (createTargetWithinRootValidator host root (cacheAfter host root earlier)
          filePath).1 = none → LandsInside host root filePath := by
  refine ⟨⟨?_, ?_⟩, fun earlier hvalid => landsInside_of_checker hvalid⟩
  · intro hlands hout
    obtain ⟨hvalid, hnot⟩ := not_landsInside_of_leadsOut hout
    exact hnot (hlands hvalid)
  · intro hstays hvalid
    exact landsInside_of_not_leadsOut hvalid hstays

/-- A root with a link to a name that its sibling directory does not have. -/
def danglingHost : FileHost where
  entries := [(⟨js "r", by decide⟩, .dir [(⟨js "l", by decide⟩, .link (js "/o/x"))]),
    (⟨js "o", by decide⟩, .dir [])]
  maxLinks := 40
  cwd := js "/"

theorem landsInside_new :
    LandsInside danglingHost (js "/o") (js "n/x")
      ∧ danglingHost.openForWriting (js "/o") (js "n/x") = .ok [js "o", js "n", js "x"] :=
  ⟨(landsInside_of_accepted_iff danglingHost (js "/o") (js "n/x")).2 [js "n"] (by decide +kernel),
    by rfl⟩

theorem not_landsInside_dangling :
    ¬ ∀ (host : FileHost) (root filePath : JsString),
        validateTargetWithinRoot host filePath root = none
          ∨ (∃ earlier, (createTargetWithinRootValidator host root (cacheAfter host root earlier)
              filePath).1 = none) → LandsInside host root filePath := by
  intro hall
  have hvalid : validateTargetWithinRoot danglingHost (js "l") (js "/r") = none := by
    decide +kernel
  have hopen : danglingHost.openForWriting (js "/r") (js "l") = .ok [js "o", js "x"] := by rfl
  obtain ⟨rootLoc, left, hroot, hstarts⟩ :=
    hall danglingHost (js "/r") (js "l") (Or.inl hvalid) _ hopen
  cases hroot
  exact absurd hstarts (by decide)

end OpencodeSwarm
