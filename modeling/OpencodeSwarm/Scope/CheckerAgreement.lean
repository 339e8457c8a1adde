/-
  OpencodeSwarm.Scope.CheckerAgreement

  When the validator with a checker answers as the simple one.  The checker looks
  at links only, from the target upward, and stops at the first; the simple one
  resolves the nearest ancestor that resolves.  Up to the depth that the loops go,
  they differ over a link that does not resolve and over a link that leads out of
  the root and back into it.
-/
import OpencodeSwarm.Scope.WriteContainment

namespace OpencodeSwarm

open Js Posix

variable {host : FileHost}

/-! ## `lstat` -/

/-- `lstat` looks at the last name where the names before it lead. -/
theorem lstatSync_concat {front : List JsString} {word : JsString}
    (hnames : ∀ name ∈ front ++ [word], IsFileName name) :
    host.lstatSync (absolutePath (front ++ [word]))
      = match host.tree.walk host.maxLinks [] front with
        | .error errno => .error errno
        | .ok (dir, _) =>
          match host.tree.enter dir word with
          | .error errno => .error errno
          | .ok (.place _) => .ok false
          | .ok (.through _ _) => .ok true := by
  have hempty : host.tree.enter [] [] = .ok (.place []) := rfl
  unfold FileHost.lstatSync
  rw [segments_absolutePath hnames (by simp), ← List.cons_append, List.getLast?_concat,
    List.dropLast_concat]
  dsimp only
  have hwalk : host.tree.walk host.maxLinks [] ([] :: front)
      = host.tree.walk host.maxLinks [] front := FileNode.walk_place hempty
  generalize host.tree.walk host.maxLinks [] ([] :: front) = walked at hwalk
  subst hwalk
  rcases host.tree.walk host.maxLinks [] front with errno | ⟨dir, left⟩
  · rfl
  cases host.tree.enter dir word with
  | error errno => rfl
  | ok reached =>
    cases reached with
    | place next => rfl
    | through start words => rfl

/-- The names lead to a symbolic link, which is not followed. -/
def IsLink (host : FileHost) (names : List JsString) : Prop :=
  host.lstatSync (absolutePath names) = .ok true

/-- The checker goes on to the parent: no link, and nothing that is inaccessible. -/
def Passes (host : FileHost) (names : List JsString) : Prop :=
  host.lstatSync (absolutePath names) = .ok false
    ∨ host.lstatSync (absolutePath names) = .error .enoent
    ∨ host.lstatSync (absolutePath names) = .error .enotdir

theorem Passes.not_isLink {names : List JsString} (h : Passes host names) :
    ¬ IsLink host names := by
  unfold IsLink
  rcases h with h | h | h
  · rw [h]
    decide
  · rw [h]
    decide
  · rw [h]
    decide

theorem lstatSync_root : host.lstatSync (absolutePath []) = .ok false := by
  have hempty : host.tree.enter [] [] = .ok (.place []) := rfl
  show (match host.tree.walk host.maxLinks [] [[]] with
    | .error errno => .error errno
    | .ok (dir, _) => match host.tree.enter dir [] with
      | .error errno => .error errno
      | .ok (.place _) => .ok false
      | .ok (.through _ _) => .ok true) = Except.ok false
  rw [FileNode.walk_place hempty, FileNode.walk_nil]
  dsimp only
  rw [hempty]

theorem isLink_or_passes_of_walk {names : List JsString} (hnames : ∀ name ∈ names, IsFileName name)
    {loc : Loc} {left : Nat} (hwalk : host.tree.walk host.maxLinks [] names = .ok (loc, left)) :
    IsLink host names ∨ Passes host names := by
  rcases List.eq_nil_or_concat names with rfl | ⟨front, word, rfl⟩
  · exact Or.inr (Or.inl lstatSync_root)
  rw [List.concat_eq_append] at hnames hwalk ⊢
  unfold IsLink Passes
  rw [lstatSync_concat hnames]
  cases hfront : host.tree.walk host.maxLinks [] front with
  | error errno =>
    rw [FileNode.walk_append, hfront] at hwalk
    cases hwalk
  | ok found =>
    dsimp only
    cases hword : host.tree.enter found.1 word with
    | error errno =>
      rw [FileNode.walk_append_of_ok hfront, FileNode.walk_error hword] at hwalk
      cases hwalk
    | ok reached =>
      cases reached with
      | place next => exact Or.inr (Or.inl rfl)
      | through start words => exact Or.inl rfl

/-! ## The loop of the checker without its cache -/

/-- The answer of the loop, whatever the checker has read before. -/
def answerUpward (host : FileHost) (canonicalRoot resolvedRoot : JsString) (rounds : Nat)
    (probe : JsString) : Bool :=
  (checkUpward host canonicalRoot resolvedRoot rounds probe []).1

theorem readsTree_nil : ReadsTree host [] := fun _ _ hlookup => nomatch hlookup

theorem answer_checkUpward {canonicalRoot resolvedRoot : JsString} {rounds : Nat}
    {probe : JsString} {entryCache : EntryCache} (hreads : ReadsTree host entryCache) :
    (checkUpward host canonicalRoot resolvedRoot rounds probe entryCache).1
      = answerUpward host canonicalRoot resolvedRoot rounds probe := by
  have hboth : ∀ first second, ReadsTree host first → ReadsTree host second →
      (checkUpward host canonicalRoot resolvedRoot rounds probe first).1
        = (checkUpward host canonicalRoot resolvedRoot rounds probe second).1 := by
    induction rounds generalizing probe with
    | zero =>
      intro first second _ _
      rfl
    | succ rounds ih =>
      intro first second hfirst hsecond
      obtain ⟨hentry, hafter⟩ := readEntry_eq hfirst probe
      obtain ⟨hentry', hafter'⟩ := readEntry_eq hsecond probe
      dsimp only [checkUpward]
      rw [hentry, hentry']
      split
      · rfl
      split
      · rfl
      split
      · rfl
      split
      · rfl
      · exact ih _ _ hafter hafter'
  exact hboth entryCache [] hreads readsTree_nil

theorem answerUpward_succ (canonicalRoot resolvedRoot : JsString) (rounds : Nat)
    (probe : JsString) :
    answerUpward host canonicalRoot resolvedRoot (rounds + 1) probe
      = if (freshEntry host probe).inaccessible then false
        else if (freshEntry host probe).isSymbolicLink then
          (freshEntry host probe).canonicalPath.any (isWithinCanonicalRoot canonicalRoot)
        else if probe = resolvedRoot then true else if dirname probe = probe then false
        else answerUpward host canonicalRoot resolvedRoot rounds (dirname probe) := by
  obtain ⟨hentry, hafter⟩ := readEntry_eq (readsTree_nil : ReadsTree host []) probe
  conv_lhs => dsimp only [answerUpward, checkUpward]
  rw [hentry]
  split
  · rfl
  split
  · rfl
  split
  · rfl
  split
  · rfl
  · exact answer_checkUpward hafter

section Loop

variable {rootLoc : Loc} {rootNames : List JsString} {rootLeft : Nat}

/-- The loop for a root and a path, by their names. -/
def climbs (host : FileHost) (rootLoc : Loc) (rootNames : List JsString) (rounds : Nat)
    (names : List JsString) : Bool :=
  answerUpward host (absolutePath rootLoc) (absolutePath rootNames) rounds (absolutePath names)

theorem climbs_link {names : List JsString} (hnames : ∀ name ∈ names, IsFileName name)
    (hlink : IsLink host names) (rounds : Nat) :
    climbs host rootLoc rootNames (rounds + 1) names
      = match host.tree.walk host.maxLinks [] names with
        | .error _ => false
        | .ok (loc, _) => isWithinCanonicalRoot (absolutePath rootLoc) (absolutePath loc) := by
  rw [climbs, answerUpward_succ]
  rw [freshEntry, show host.lstatSync (absolutePath names) = .ok true from hlink]
  dsimp only
  rw [if_neg Bool.false_ne_true, if_pos rfl, if_pos rfl]
  have hresolved : resolvedNames host.cwd (absolutePath names) = names :=
    resolvedNames_absolutePath hnames
  cases hwalk : host.tree.walk host.maxLinks [] names with
  | error errno =>
    rw [canonicalExistingFilesystemPath_of_error (hresolved.symm ▸ hwalk)]
    rfl
  | ok found =>
    have hfound : host.tree.walk host.maxLinks [] (resolvedNames host.cwd (absolutePath names))
        = .ok (found.1, found.2) := hresolved.symm ▸ hwalk
    rw [canonicalExistingFilesystemPath_of_walk hfound]
    rfl

theorem climbs_refused {names : List JsString} (hlink : ¬ IsLink host names)
    (hpasses : ¬ Passes host names) (rounds : Nat) :
    climbs host rootLoc rootNames rounds names = false := by
  cases rounds with
  | zero => rfl
  | succ rounds =>
    rw [climbs, answerUpward_succ]
    unfold freshEntry
    unfold Passes at hpasses
    cases hstat : host.lstatSync (absolutePath names) with
    | ok isSymbolicLink =>
      cases isSymbolicLink with
      | true => exact absurd hstat hlink
      | false => exact absurd (Or.inl hstat) hpasses
    | error errno =>
      rw [hstat] at hpasses
      cases errno with
      | enoent => exact absurd (Or.inr (Or.inl rfl)) hpasses
      | enotdir => exact absurd (Or.inr (Or.inr rfl)) hpasses
      | eloop => rfl
      | eisdir => rfl

theorem climbs_pass {front : List JsString} {word : JsString}
    (hnames : ∀ name ∈ front ++ [word], IsFileName name)
    (hrootNames : ∀ name ∈ rootNames, IsFileName name) (hpasses : Passes host (front ++ [word]))
    (hroot : front ++ [word] ≠ rootNames) (rounds : Nat) :
    climbs host rootLoc rootNames (rounds + 1) (front ++ [word])
      = climbs host rootLoc rootNames rounds front := by
  have hfront : ∀ name ∈ front, IsFileName name :=
    fun name hname => hnames name (List.mem_append_left _ hname)
  have hparent : absolutePath front ≠ absolutePath (front ++ [word]) := by
    intro heq
    have hlength := congrArg List.length (absolutePath_injective hfront hnames heq)
    rw [List.length_append, List.length_singleton] at hlength
    omega
  have hother : absolutePath (front ++ [word]) ≠ absolutePath rootNames :=
    fun heq => hroot (absolutePath_injective hnames hrootNames heq)
  have hentry : (freshEntry host (absolutePath (front ++ [word]))).inaccessible = false
      ∧ (freshEntry host (absolutePath (front ++ [word]))).isSymbolicLink = false := by
    unfold freshEntry
    rcases hpasses with h | h | h
    · rw [h]
      exact ⟨rfl, rfl⟩
    · rw [h]
      exact ⟨rfl, rfl⟩
    · rw [h]
      exact ⟨rfl, rfl⟩
  unfold climbs
  rw [answerUpward_succ, hentry.1, hentry.2, if_neg Bool.false_ne_true, if_neg Bool.false_ne_true,
    if_neg hother, dirname_absolutePath hnames, if_neg hparent]

theorem climbs_root (hrootNames : ∀ name ∈ rootNames, IsFileName name)
    (hroot : host.tree.walk host.maxLinks [] rootNames = .ok (rootLoc, rootLeft)) (rounds : Nat) :
    climbs host rootLoc rootNames (rounds + 1) rootNames = true := by
  rcases isLink_or_passes_of_walk hrootNames hroot with hlink | hpasses
  · rw [climbs_link hrootNames hlink, hroot]
    have hproper := FileNode.isFileName_of_walk hroot
    exact (isWithinCanonicalRoot_iff hproper hproper).mpr (List.prefix_refl rootLoc)
  · rw [climbs, answerUpward_succ]
    unfold freshEntry
    rcases hpasses with h | h | h
    · rw [h]
      simp
    · rw [h]
      simp
    · rw [h]
      simp

theorem climbs_append {front back : List JsString}
    (hnames : ∀ name ∈ front ++ back, IsFileName name)
    (hrootNames : ∀ name ∈ rootNames, IsFileName name) (hbelow : rootNames <+: front)
    (hpasses : ∀ pre word rest, back = pre ++ word :: rest → Passes host (front ++ pre ++ [word]))
    (rounds : Nat) :
    climbs host rootLoc rootNames (rounds + back.length) (front ++ back)
      = climbs host rootLoc rootNames rounds front := by
  induction back using List.reverseRecOn with
  | nil => rw [List.append_nil, List.length_nil, Nat.add_zero]
  | append_singleton back word ih =>
    rw [← List.append_assoc] at hnames ⊢
    have hroot : front ++ back ++ [word] ≠ rootNames := by
      intro heq
      have hlength := hbelow.length_le
      rw [← heq, List.length_append, List.length_append, List.length_singleton] at hlength
      omega
    rw [List.length_append, List.length_singleton, ← Nat.add_assoc,
      climbs_pass hnames hrootNames (hpasses back word [] rfl) hroot]
    refine ih (fun name hname => hnames name (List.mem_append_left _ hname)) ?_
    intro pre other rest hsplit
    exact hpasses pre other (rest ++ [word]) (by rw [hsplit, List.append_assoc, List.cons_append])

theorem climbs_tooDeep {rounds : Nat} {names : List JsString}
    (hnames : ∀ name ∈ names, IsFileName name) (hrootNames : ∀ name ∈ rootNames, IsFileName name)
    (hdeep : rootNames.length + rounds ≤ names.length)
    (hlinks : ∀ pre word rest, names = pre ++ word :: rest → rest.length < rounds →
      ¬ IsLink host (pre ++ [word])) : climbs host rootLoc rootNames rounds names = false := by
  induction rounds generalizing names with
  | zero => rfl
  | succ rounds ih =>
    rcases List.eq_nil_or_concat names with rfl | ⟨front, word, rfl⟩
    · rw [List.length_nil] at hdeep
      omega
    · rw [List.concat_eq_append] at hnames hdeep hlinks ⊢
      have hlink : ¬ IsLink host (front ++ [word]) := hlinks front word [] rfl (Nat.succ_pos rounds)
      by_cases hpasses : Passes host (front ++ [word])
      · rw [List.length_append, List.length_singleton] at hdeep
        have hroot : front ++ [word] ≠ rootNames := by
          intro heq
          rw [← heq, List.length_append, List.length_singleton] at hdeep
          omega
        rw [climbs_pass hnames hrootNames hpasses hroot]
        refine ih (fun name hname => hnames name (List.mem_append_left _ hname)) (by omega) ?_
        intro pre other rest hsplit hfew
        refine hlinks pre other (rest ++ [word]) ?_ ?_
        · rw [hsplit, List.append_assoc, List.cons_append]
        · rw [List.length_append, List.length_singleton]
          omega
      · exact climbs_refused hlink hpasses (rounds + 1)

/-- Below what is passed lies a path that the loop refuses: so it refuses the whole. -/
theorem climbs_false_of_front {front back : List JsString}
    (hnames : ∀ name ∈ front ++ back, IsFileName name)
    (hrootNames : ∀ name ∈ rootNames, IsFileName name) (hbelow : rootNames <+: front)
    (hpasses : ∀ pre word rest, back = pre ++ word :: rest → Passes host (front ++ pre ++ [word]))
    (hfront : ∀ rounds, climbs host rootLoc rootNames rounds front = false) (rounds : Nat) :
    climbs host rootLoc rootNames rounds (front ++ back) = false := by
  rcases Nat.lt_or_ge rounds back.length with hfew | hmany
  · refine climbs_tooDeep hnames hrootNames ?_ ?_
    · have hlength := hbelow.length_le
      rw [List.length_append]
      omega
    · intro pre word rest hsplit hrest
      -- the name stands in `back`
      have hlength := congrArg List.length hsplit
      rw [List.length_append, List.length_append, List.length_cons] at hlength
      obtain ⟨mid, rfl⟩ := List.prefix_of_prefix_length_le (List.prefix_append front back)
        ⟨word :: rest, hsplit.symm⟩ (by omega)
      rw [List.append_assoc] at hsplit
      exact (hpasses mid word rest (List.append_cancel_left hsplit)).not_isLink
  · obtain ⟨more, rfl⟩ := Nat.exists_eq_add_of_le' hmany
    rw [climbs_append hnames hrootNames hbelow hpasses]
    exact hfront more

end Loop

/-! ## The nearest ancestor that resolves -/

/-- `front` is the longest part of a path that resolves, and leads to `loc`. -/
structure NearestAncestor (host : FileHost) (names front back : List JsString) (loc : Loc) :
    Prop where
  split : names = front ++ back
  resolves : ∃ left, host.tree.walk host.maxLinks [] front = .ok (loc, left)
  ends : ∀ word rest, back = word :: rest →
    ∃ errno, host.tree.walk host.maxLinks [] (front ++ [word]) = .error errno

section Nearest

variable {rootLoc : Loc} {names front back : List JsString} {loc : Loc}

theorem NearestAncestor.error (h : NearestAncestor host names front back loc) {word : JsString}
    {rest : List JsString} (hback : back = word :: rest) :
    ∃ errno, ∀ more, host.tree.walk host.maxLinks [] (front ++ word :: more) = .error errno := by
  obtain ⟨errno, herror⟩ := h.ends word rest hback
  refine ⟨errno, fun more => ?_⟩
  have hsplit : front ++ word :: more = (front ++ [word]) ++ more := by simp
  rw [hsplit, FileNode.walk_append, herror]
  rfl

theorem NearestAncestor.prefix_of_walk (h : NearestAncestor host names front back loc)
    {part : List JsString} (hpart : part <+: names) {found : Loc × Nat}
    (hwalk : host.tree.walk host.maxLinks [] part = .ok found) : part <+: front := by
  rw [h.split] at hpart
  rcases Nat.lt_or_ge front.length part.length with hlonger | hshorter
  · obtain ⟨more, rfl⟩ := List.prefix_of_prefix_length_le (List.prefix_append front back) hpart
      (Nat.le_of_lt hlonger)
    have hmore := (List.prefix_append_right_inj front).mp hpart
    cases more with
    | nil => exact ⟨[], by simp⟩
    | cons word more =>
      obtain ⟨rest, hrest⟩ := hmore
      obtain ⟨errno, herror⟩ := h.error hrest.symm
      rw [herror] at hwalk
      cases hwalk
  · exact List.prefix_of_prefix_length_le hpart (List.prefix_append front back) hshorter

/-- The simple check accepts where the nearest ancestor lies inside and near enough. -/
theorem probeWithinRoot_iff (hroot : ∀ name ∈ rootLoc, IsFileName name)
    (hnames : ∀ name ∈ names, IsFileName name) (rounds : Nat) :
    probeWithinRoot host (absolutePath rootLoc) rounds (absolutePath names) = true
      ↔ ∃ front back loc, NearestAncestor host names front back loc ∧ rootLoc <+: loc
        ∧ back.length < rounds := by
  constructor
  · intro h
    obtain ⟨front, back, loc, left, hsplit, hfront, hinside, hfew, hends⟩ :=
      exists_of_probeWithinRoot hroot hnames h
    exact ⟨front, back, loc, ⟨hsplit, ⟨left, hfront⟩, hends⟩, hinside, hfew⟩
  · rintro ⟨front, back, loc, hnearest, hinside, hfew⟩
    obtain ⟨left, hfront⟩ := hnearest.resolves
    have herror : ∀ pre word rest, back = pre ++ word :: rest →
        ∃ errno, host.tree.walk host.maxLinks [] (front ++ pre ++ [word]) = .error errno := by
      intro pre word rest hsplit
      cases pre with
      | nil =>
        rw [List.append_nil]
        exact hnearest.ends word rest hsplit
      | cons first others =>
        obtain ⟨errno, herror⟩ := hnearest.error hsplit
        refine ⟨errno, ?_⟩
        rw [List.append_assoc]
        exact herror (others ++ [word])
    rw [hnearest.split] at hnames ⊢
    clear hnearest
    induction back using List.reverseRecOn generalizing rounds with
    | nil =>
      rw [List.append_nil] at hnames ⊢
      obtain ⟨fewer, rfl⟩ := Nat.exists_eq_succ_of_ne_zero (Nat.pos_iff_ne_zero.mp hfew)
      unfold probeWithinRoot
      have hresolved : host.tree.walk host.maxLinks []
          (resolvedNames host.cwd (absolutePath front)) = .ok (loc, left) := by
        rw [resolvedNames_absolutePath hnames, hfront]
      rw [canonicalExistingFilesystemPath_of_walk hresolved]
      exact (isWithinCanonicalRoot_iff hroot (FileNode.isFileName_of_walk hfront)).mpr hinside
    | append_singleton back word ih =>
      rw [List.length_append, List.length_singleton] at hfew
      obtain ⟨fewer, rfl⟩ := Nat.exists_eq_succ_of_ne_zero (by omega : rounds ≠ 0)
      obtain ⟨errno, hlast⟩ := herror back word [] rfl
      rw [← List.append_assoc] at hnames ⊢
      have hfrontNames : ∀ name ∈ front ++ back, IsFileName name :=
        fun name hname => hnames name (List.mem_append_left _ hname)
      have hresolved : host.tree.walk host.maxLinks []
          (resolvedNames host.cwd (absolutePath (front ++ back ++ [word]))) = .error errno := by
        rw [resolvedNames_absolutePath hnames, hlast]
      have hparent : absolutePath (front ++ back) ≠ absolutePath (front ++ back ++ [word]) := by
        intro heq
        have hlength := congrArg List.length (absolutePath_injective hfrontNames hnames heq)
        have hone : (front ++ back ++ [word]).length = (front ++ back).length + 1 :=
          List.length_append
        omega
      rw [probeWithinRoot, canonicalExistingFilesystemPath_of_error hresolved]
      rw [dirname_absolutePath hnames, if_neg hparent]
      refine ih fewer hfrontNames (by omega) fun pre other rest hsplit => ?_
      exact herror pre other (rest ++ [word]) (by rw [hsplit, List.append_assoc, List.cons_append])

/-- Without a link on the way, the nearest ancestor is reached by going down. -/
theorem exists_nearest_below (hproper : ∀ name ∈ names, IsFileName name) {left : Nat}
    (hsplit : names = front ++ back)
    (hwalk : host.tree.walk host.maxLinks [] front = .ok (loc, left))
    (hlinks : ∀ mid word rest, back = mid ++ word :: rest → ∀ dir dirLeft,
      host.tree.walk host.maxLinks [] (front ++ mid) = .ok (dir, dirLeft) →
      ∀ start words, host.tree.enter dir word ≠ .ok (.through start words)) :
    ∃ longer shorter reached, NearestAncestor host names longer shorter reached ∧ loc <+: reached
      ∧ shorter.length ≤ back.length := by
  induction back generalizing front loc left with
  | nil =>
    refine ⟨front, [], loc, ⟨hsplit, ⟨left, hwalk⟩, ?_⟩, List.prefix_refl loc, Nat.le_refl _⟩
    intro word rest hnil
    cases hnil
  | cons word rest ih =>
    cases hnext : host.tree.walk host.maxLinks [] (front ++ [word]) with
    | error errno =>
      refine ⟨front, word :: rest, loc, ⟨hsplit, ⟨left, hwalk⟩, ?_⟩, List.prefix_refl loc,
        Nat.le_refl _⟩
      intro other others heq
      cases heq
      exact ⟨errno, hnext⟩
    | ok found =>
      have hname : IsFileName word := hproper word (by rw [hsplit]; simp)
      have hdirect := hlinks [] word rest rfl loc left (by rw [List.append_nil]; exact hwalk)
      have hone := hnext
      rw [FileNode.walk_append_of_ok hwalk] at hone
      cases hword : host.tree.enter loc word with
      | error errno =>
        rw [FileNode.walk_error hword] at hone
        cases hone
      | ok reached =>
        cases reached with
        | through start words => exact absurd hword (hdirect start words)
        | place place =>
          rw [FileNode.walk_place hword, FileNode.walk_nil] at hone
          cases hone
          obtain ⟨longer, shorter, reached, hnearest, hbelow, hfew⟩ := ih (by simp [hsplit]) hnext
            fun mid other others heq dir dirLeft hdir => hlinks (word :: mid) other others
              (by rw [heq, List.cons_append]) dir dirLeft (by simpa using hdir)
          refine ⟨longer, shorter, reached, hnearest, ?_, Nat.le_succ_of_le hfew⟩
          rw [FileNode.eq_of_enter_place hname hword] at hbelow
          exact (List.prefix_append loc [word]).trans hbelow

end Nearest

/-! ## Where the two validators differ -/

/-- The name behind the nearest ancestor that resolves is a link. -/
def DeadLink (host : FileHost) (loc : Loc) (back : List JsString) : Prop :=
  ∃ word rest start words, back = word :: rest
    ∧ host.tree.enter loc word = .ok (.through start words)

/-- The last link below the root, on the way to the nearest ancestor that resolves, leads out
    of the root. -/
def Detour (host : FileHost) (rootLoc : Loc) (rootNames front : List JsString) : Prop :=
  ∃ pre word mid out left, front = pre ++ word :: mid ∧ rootNames <+: pre
    ∧ IsLink host (pre ++ [word])
    ∧ host.tree.walk host.maxLinks [] (pre ++ [word]) = .ok (out, left) ∧ ¬ rootLoc <+: out
    ∧ ∀ mid' other rest, mid = mid' ++ other :: rest →
        ¬ IsLink host (pre ++ [word] ++ mid' ++ [other])

/-- The target is further below the root than the loops go, without a link in that part. -/
def TooDeep (host : FileHost) (rootNames names : List JsString) : Prop :=
  rootNames.length + 4096 ≤ names.length
    ∧ ∀ pre word rest, names = pre ++ word :: rest → rest.length < 4096 →
        ¬ IsLink host (pre ++ [word])

/-- The nearest ancestor of the target that resolves lies inside the root, near enough to be
    found, and a link misleads the checker or the depth stops it. -/
def Misled (host : FileHost) (root filePath : JsString) : Prop :=
  targetTextReason host filePath root = none ∧
  ∃ rootLoc rootLeft front back loc,
    host.tree.walk host.maxLinks [] (resolvedNames host.cwd root) = .ok (rootLoc, rootLeft)
      ∧ NearestAncestor host (host.targetNames root filePath) front back loc
      ∧ rootLoc <+: loc ∧ back.length < 4096
      ∧ (DeadLink host loc back ∨ Detour host rootLoc (resolvedNames host.cwd root) front
        ∨ TooDeep host (resolvedNames host.cwd root) (host.targetNames root filePath))

section Misled

variable {rootLoc loc : Loc} {rootNames names front back : List JsString} {rootLeft : Nat}

/-- Where no link stands behind the nearest ancestor, the checker passes what is missing. -/
theorem passes_of_not_deadLink (hnames : ∀ name ∈ names, IsFileName name)
    (h : NearestAncestor host names front back loc) (hdead : ¬ DeadLink host loc back)
    (pre : List JsString) (word : JsString) (rest : List JsString)
    (hback : back = pre ++ word :: rest) : Passes host (front ++ pre ++ [word]) := by
  have hproper : ∀ name ∈ front ++ pre ++ [word], IsFileName name := by
    intro name hname
    refine hnames name ?_
    rw [h.split, hback]
    simp only [List.mem_append, List.mem_cons, List.not_mem_nil, or_false] at hname ⊢
    tauto
  obtain ⟨left, hfront⟩ := h.resolves
  -- the first name behind the ancestor is missing, or the ancestor is no directory
  have hfirst : ∀ first others, back = first :: others → ∃ errno,
      (errno = .enoent ∨ errno = .enotdir) ∧ host.tree.enter loc first = .error errno := by
    intro first others hcons
    obtain ⟨errno, herror⟩ := h.ends first others hcons
    rw [FileNode.walk_append_of_ok hfront] at herror
    cases hword : host.tree.enter loc first with
    | error missing => exact ⟨missing, FileNode.errno_of_enter hword, rfl⟩
    | ok found =>
      cases found with
      | place next =>
        rw [FileNode.walk_place hword, FileNode.walk_nil] at herror
        cases herror
      | through start words => exact absurd ⟨first, others, start, words, hcons, hword⟩ hdead
  have hstat : ∃ errno, (errno = .enoent ∨ errno = .enotdir)
      ∧ host.lstatSync (absolutePath (front ++ pre ++ [word])) = .error errno := by
    rw [lstatSync_concat hproper]
    cases pre with
    | nil =>
      obtain ⟨errno, hkind, hword⟩ := hfirst word rest hback
      refine ⟨errno, hkind, ?_⟩
      rw [List.append_nil, hfront]
      dsimp only
      rw [hword]
    | cons first others =>
      obtain ⟨errno, hkind, hword⟩ := hfirst first (others ++ word :: rest) hback
      refine ⟨errno, hkind, ?_⟩
      rw [FileNode.walk_append_of_ok hfront, FileNode.walk_error hword]
  obtain ⟨errno, rfl | rfl, hstat⟩ := hstat
  · exact Or.inr (Or.inl hstat)
  · exact Or.inr (Or.inr hstat)

/-- On the way to the nearest ancestor, what is no link is passed. -/
theorem passes_of_not_isLink (hnames : ∀ name ∈ names, IsFileName name)
    (h : NearestAncestor host names front back loc) {part : List JsString} (hpart : part <+: front)
    (hlink : ¬ IsLink host part) : Passes host part := by
  obtain ⟨rest, rfl⟩ := hpart
  obtain ⟨left, hfront⟩ := h.resolves
  have hproper : ∀ name ∈ part, IsFileName name := by
    intro name hname
    refine hnames name ?_
    rw [h.split]
    exact List.mem_append_left _ (List.mem_append_left _ hname)
  rw [FileNode.walk_append] at hfront
  obtain ⟨found, hfound, -⟩ := Outcome.bind_eq_ok.mp hfront
  exact (isLink_or_passes_of_walk hproper hfound).resolve_left hlink

/-- From a link on the way downward, where no other link follows, everything is passed. -/
theorem passes_behind (hnames : ∀ name ∈ names, IsFileName name) {top mid : List JsString}
    (h : NearestAncestor host names (top ++ mid) back loc) (hdead : ¬ DeadLink host loc back)
    (hlinks : ∀ pre word rest, mid = pre ++ word :: rest → ¬ IsLink host (top ++ pre ++ [word]))
    (pre : List JsString) (word : JsString) (rest : List JsString)
    (hsplit : mid ++ back = pre ++ word :: rest) : Passes host (top ++ pre ++ [word]) := by
  rcases List.append_eq_append_iff.mp hsplit with ⟨behind, rfl, hback⟩ | ⟨more, hmid, hrest⟩
  · have hpasses := passes_of_not_deadLink hnames h hdead behind word rest hback
    rwa [List.append_assoc top] at hpasses
  · cases more with
    | nil =>
      -- the name is the first behind the ancestor
      rw [List.append_nil] at hmid
      have hpasses := passes_of_not_deadLink hnames h hdead [] word rest hrest.symm
      rwa [List.append_nil, hmid] at hpasses
    | cons first more =>
      obtain ⟨rfl, -⟩ := hrest
      refine passes_of_not_isLink hnames h ⟨more, ?_⟩ (hlinks pre word more hmid)
      rw [hmid]
      simp

theorem exists_last (P : List JsString → Prop) (below : List JsString) :
    (∀ pre word rest, below = pre ++ word :: rest → ¬ P (pre ++ [word]))
      ∨ ∃ pre word mid, below = pre ++ word :: mid ∧ P (pre ++ [word])
        ∧ ∀ mid' other rest, mid = mid' ++ other :: rest →
          ¬ P (pre ++ [word] ++ mid' ++ [other]) := by
  induction below using List.reverseRecOn with
  | nil => exact Or.inl fun pre word rest hnil => absurd hnil.symm (by simp)
  | append_singleton below last ih =>
    by_cases hlast : P (below ++ [last])
    · refine Or.inr ⟨below, last, [], rfl, hlast, ?_⟩
      intro mid' other rest hnil
      exact absurd hnil.symm (by simp)
    · rcases ih with hnone | ⟨pre, word, mid, hsplit, hword, hnone⟩
      · refine Or.inl fun pre word rest hsplit => ?_
        rcases List.eq_nil_or_concat rest with rfl | ⟨others, tail, rfl⟩
        · obtain ⟨rfl, hsame⟩ := List.append_inj' hsplit rfl
          rw [← hsame]
          exact hlast
        · rw [List.concat_eq_append, ← List.cons_append, ← List.append_assoc] at hsplit
          exact hnone pre word others (List.append_inj' hsplit rfl).1
      · refine Or.inr ⟨pre, word, mid ++ [last], by rw [hsplit]; simp, hword, ?_⟩
        intro mid' other rest hmid
        rcases List.eq_nil_or_concat rest with rfl | ⟨others, tail, rfl⟩
        · obtain ⟨rfl, hsame⟩ := List.append_inj' hmid rfl
          rw [List.cons.injEq] at hsame
          rw [← hsame.1]
          rw [hsplit] at hlast
          simpa using hlast
        · rw [List.concat_eq_append, ← List.cons_append, ← List.append_assoc] at hmid
          exact hnone mid' other others (List.append_inj' hmid rfl).1

variable (hnames : ∀ name ∈ names, IsFileName name)
  (hrootNames : ∀ name ∈ rootNames, IsFileName name)
  (hroot : host.tree.walk host.maxLinks [] rootNames = .ok (rootLoc, rootLeft))
  (hbelow : rootNames <+: names)

include hnames hrootNames hroot in
theorem exists_nearest_of_climbs {rounds : Nat}
    (h : climbs host rootLoc rootNames rounds names = true) :
    ∃ front back loc, NearestAncestor host names front back loc ∧ rootLoc <+: loc
      ∧ back.length < rounds := by
  obtain ⟨front, back, loc, left, hsplit, hfront, hinside, hfew, hlinks⟩ :=
    exists_of_checkUpward hrootNames hroot hnames readsTree_nil h
  obtain ⟨longer, shorter, reached, hnearest, hdown, hless⟩ :=
    exists_nearest_below hnames hsplit hfront hlinks
  exact ⟨longer, shorter, reached, hnearest, hinside.trans hdown, Nat.lt_of_le_of_lt hless hfew⟩

include hnames hrootNames in
/-- Above a part that is passed stands what the loop accepts, and near enough. -/
theorem climbs_of_tail {top tail : List JsString} (hsplit : names = top ++ tail)
    (hunder : rootNames <+: top)
    (hpasses : ∀ pre word rest, tail = pre ++ word :: rest → Passes host (top ++ pre ++ [word]))
    (htop : ∀ rounds, climbs host rootLoc rootNames (rounds + 1) top = true)
    (hnear : ¬ TooDeep host rootNames names) :
    climbs host rootLoc rootNames 4096 names = true := by
  rcases Nat.lt_or_ge tail.length 4096 with hfew | hmany
  · obtain ⟨more, hmore⟩ := Nat.exists_eq_add_of_lt hfew
    have hrounds : 4096 = (more + 1) + tail.length := by omega
    rw [hsplit] at hnames ⊢
    rw [hrounds, climbs_append hnames hrootNames hunder hpasses]
    exact htop more
  · refine absurd ⟨?_, ?_⟩ hnear
    · have hlength := hunder.length_le
      rw [hsplit, List.length_append]
      omega
    · intro pre word rest hword hrest
      -- the name stands in `tail`
      rw [hsplit] at hword
      have hlength := congrArg List.length hword
      rw [List.length_append, List.length_append, List.length_cons] at hlength
      obtain ⟨mid, rfl⟩ := List.prefix_of_prefix_length_le (List.prefix_append top tail)
        ⟨word :: rest, hword.symm⟩ (by omega)
      rw [List.append_assoc] at hword
      exact (hpasses mid word rest (List.append_cancel_left hword)).not_isLink

include hnames hrootNames hroot hbelow in
/-- Without a link that misleads, and near enough, the checker accepts. -/
theorem climbs_of_nearest (h : NearestAncestor host names front back loc)
    (hdead : ¬ DeadLink host loc back) (hdetour : ¬ Detour host rootLoc rootNames front)
    (hnear : ¬ TooDeep host rootNames names) :
    climbs host rootLoc rootNames 4096 names = true := by
  obtain ⟨below, rfl⟩ := h.prefix_of_walk hbelow hroot
  rcases exists_last (fun part => IsLink host (rootNames ++ part)) below with
    hnone | ⟨pre, word, mid, rfl, hlink, hlater⟩
  · -- no link below the root: the loop comes to the root
    have hsplit : names = rootNames ++ (below ++ back) := by rw [h.split, List.append_assoc]
    refine climbs_of_tail hnames hrootNames hsplit (List.prefix_refl rootNames)
      (passes_behind hnames h hdead ?_) (climbs_root hrootNames hroot) hnear
    intro pre word rest hword
    rw [List.append_assoc]
    exact hnone pre word rest hword
  · -- the last link: it leads inside
    have hfront : rootNames ++ (pre ++ word :: mid) = rootNames ++ pre ++ [word] ++ mid := by simp
    rw [← List.append_assoc] at hlink
    rw [hfront] at h hdetour
    have hproper : ∀ name ∈ rootNames ++ pre ++ [word], IsFileName name := by
      intro name hname
      refine hnames name ?_
      rw [h.split]
      exact List.mem_append_left _ (List.mem_append_left _ hname)
    have hlaterLinks : ∀ mid' other rest, mid = mid' ++ other :: rest →
        ¬ IsLink host (rootNames ++ pre ++ [word] ++ mid' ++ [other]) := by
      intro mid' other rest hmid
      have hnot := hlater mid' other rest hmid
      simpa using hnot
    obtain ⟨left, hwalk⟩ := h.resolves
    rw [FileNode.walk_append] at hwalk
    obtain ⟨⟨out, outLeft⟩, hout, -⟩ := Outcome.bind_eq_ok.mp hwalk
    have hleads : rootLoc <+: out := by
      by_contra houtside
      exact hdetour ⟨rootNames ++ pre, word, mid, out, outLeft, by simp,
        List.prefix_append rootNames pre, hlink, hout, houtside, hlaterLinks⟩
    have hsplit : names = rootNames ++ pre ++ [word] ++ (mid ++ back) := by
      rw [h.split, List.append_assoc _ mid back]
    refine climbs_of_tail hnames hrootNames hsplit ?_ (passes_behind hnames h hdead hlaterLinks) ?_
      hnear
    · rw [List.append_assoc]
      exact List.prefix_append rootNames (pre ++ [word])
    · intro rounds
      rw [climbs_link hproper hlink, hout]
      exact (isWithinCanonicalRoot_iff (FileNode.isFileName_of_walk hroot)
        (FileNode.isFileName_of_walk hout)).mpr hleads

/-- What lies behind a dead link is refused: the link does not resolve, the names behind it are
    missing. -/
theorem climbs_deadLink {top : List JsString} {word : JsString} {rest : List JsString}
    (hproper : ∀ name ∈ top ++ word :: rest, IsFileName name)
    (hrootNames : ∀ name ∈ rootNames, IsFileName name) (hunder : rootNames <+: top)
    (hlink : IsLink host (top ++ [word]))
    (hfails : ∃ errno, ∀ more, host.tree.walk host.maxLinks [] (top ++ word :: more) = .error errno)
    (rounds : Nat) : climbs host rootLoc rootNames rounds (top ++ word :: rest) = false := by
  obtain ⟨errno, hfails⟩ := hfails
  induction rest using List.reverseRecOn generalizing rounds with
  | nil =>
    cases rounds with
    | zero => rfl
    | succ rounds => rw [climbs_link hproper hlink, hfails []]
  | append_singleton rest last ih =>
    have hshift : top ++ word :: (rest ++ [last]) = (top ++ word :: rest) ++ [last] := by simp
    rw [hshift] at hproper ⊢
    have hstat : host.lstatSync (absolutePath ((top ++ word :: rest) ++ [last]))
        = .error errno := by
      rw [lstatSync_concat hproper, hfails rest]
    by_cases hpasses : Passes host ((top ++ word :: rest) ++ [last])
    · cases rounds with
      | zero => rfl
      | succ rounds =>
        have hother : (top ++ word :: rest) ++ [last] ≠ rootNames := by
          intro heq
          have hlength := hunder.length_le
          rw [← heq] at hlength
          simp only [List.length_append, List.length_cons, List.length_nil] at hlength
          omega
        rw [climbs_pass hproper hrootNames hpasses hother]
        exact ih (fun name hname => hproper name (List.mem_append_left _ hname)) rounds
    · refine climbs_refused ?_ hpasses rounds
      rw [IsLink, hstat]
      exact fun hlink => nomatch hlink

include hnames hrootNames hroot hbelow in
theorem climbs_of_misled (h : NearestAncestor host names front back loc)
    (hmisled : DeadLink host loc back ∨ Detour host rootLoc rootNames front
      ∨ TooDeep host rootNames names) : climbs host rootLoc rootNames 4096 names = false := by
  have hunder : rootNames <+: front := h.prefix_of_walk hbelow hroot
  by_cases hdead : DeadLink host loc back
  · obtain ⟨word, rest, start, words, rfl, hword⟩ := hdead
    obtain ⟨left, hfront⟩ := h.resolves
    have hlink : IsLink host (front ++ [word]) := by
      refine lstatSync_of_enter (fun name hname => hnames name ?_) hfront hword
      rw [h.split]
      simp only [List.mem_append, List.mem_cons, List.not_mem_nil, or_false] at hname ⊢
      tauto
    have hfails := h.error rfl
    rw [h.split] at hnames ⊢
    exact climbs_deadLink hnames hrootNames hunder hlink hfails 4096
  · rcases hmisled with hdead' | hdetour | ⟨hdeep, hlinks⟩
    · exact absurd hdead' hdead
    · obtain ⟨pre, word, mid, out, left, rfl, hpre, hlink, hout, houtside, hlater⟩ := hdetour
      have hfront : pre ++ word :: mid = pre ++ [word] ++ mid := by simp
      rw [hfront] at h
      have hsplit : names = pre ++ [word] ++ (mid ++ back) := by
        rw [h.split, List.append_assoc _ mid back]
      have hpasses := passes_behind hnames h hdead hlater
      rw [hsplit] at hnames ⊢
      refine climbs_false_of_front hnames hrootNames (hpre.trans (List.prefix_append pre [word]))
        hpasses ?_ 4096
      intro rounds
      cases rounds with
      | zero => rfl
      | succ rounds =>
        rw [climbs_link (fun name hname => hnames name (List.mem_append_left _ hname)) hlink, hout]
        dsimp only
        rw [Bool.eq_false_iff, ne_eq, isWithinCanonicalRoot_iff (FileNode.isFileName_of_walk hroot)
          (FileNode.isFileName_of_walk hout)]
        exact houtside
    · exact climbs_tooDeep hnames hrootNames hdeep hlinks

end Misled

/-! ## Both validators -/

section Validators

variable {root filePath : JsString}

theorem relative_of_targetTextReason (htext : targetTextReason host filePath root = none) :
    ([dot, dot].isPrefixOf (relative (resolve host.cwd root) (host.target root filePath))
      || isAbsolute (relative (resolve host.cwd root) (host.target root filePath))) = false := by
  unfold targetTextReason at htext
  split at htext
  · cases htext
  split at htext
  · cases htext
  split at htext
  · cases htext
  split at htext
  · cases htext
  dsimp only at htext
  split at htext
  · cases htext
  rename_i hinside
  rwa [← Bool.or_eq_true, Bool.not_eq_true] at hinside

theorem rootNames_prefix_of_text (htext : targetTextReason host filePath root = none) :
    resolvedNames host.cwd root <+: host.targetNames root filePath := by
  have hrelative := (Bool.or_eq_false_iff.mp (relative_of_targetTextReason htext)).1
  exact prefix_of_relative isFileName_of_mem_resolvedNames isFileName_of_mem_targetNames hrelative

/-- The simple validator accepts where the nearest ancestor lies inside and near enough. -/
theorem validateTargetWithinRoot_iff :
    validateTargetWithinRoot host filePath root = none ↔ targetTextReason host filePath root = none
        ∧ ∃ rootLoc rootLeft front back loc,
          host.tree.walk host.maxLinks [] (resolvedNames host.cwd root) = .ok (rootLoc, rootLeft)
            ∧ NearestAncestor host (host.targetNames root filePath) front back loc
            ∧ rootLoc <+: loc ∧ back.length < 4096 := by
  have hproper := @isFileName_of_mem_targetNames host root filePath
  rw [validateTargetWithinRoot_eq_none]
  refine and_congr_right fun _ => ?_
  rw [isCanonicalPathWithinRoot, target_eq_absolutePath, resolve_absolutePath hproper]
  cases hroot : host.tree.walk host.maxLinks [] (resolvedNames host.cwd root) with
  | error errno =>
    rw [canonicalExistingFilesystemPath_of_error hroot]
    simp
  | ok found =>
    rw [canonicalExistingFilesystemPath_of_walk hroot]
    rw [probeWithinRoot_iff (FileNode.isFileName_of_walk hroot) hproper]
    constructor
    · rintro ⟨front, back, loc, hnearest, hinside, hfew⟩
      exact ⟨found.1, found.2, front, back, loc, rfl, hnearest, hinside, hfew⟩
    · rintro ⟨rootLoc, rootLeft, front, back, loc, hfound, hnearest, hinside, hfew⟩
      cases hfound
      exact ⟨front, back, loc, hnearest, hinside, hfew⟩

/-- The validator with a checker accepts where the loop does, whatever it has read. -/
theorem createTargetWithinRootValidator_iff (earlier : List JsString) :
    (createTargetWithinRootValidator host root (cacheAfter host root earlier) filePath).1 = none
      ↔ targetTextReason host filePath root = none ∧ ∃ rootLoc rootLeft,
          host.tree.walk host.maxLinks [] (resolvedNames host.cwd root) = .ok (rootLoc, rootLeft)
            ∧ climbs host rootLoc (resolvedNames host.cwd root) 4096
              (host.targetNames root filePath) = true := by
  have hproper := @isFileName_of_mem_targetNames host root filePath
  unfold createTargetWithinRootValidator
  cases htext : targetTextReason host filePath root with
  | some reason => simp
  | none =>
    have hchecker : (createCanonicalPathWithinRootChecker host root (cacheAfter host root earlier)
        (host.target root filePath)).1 = true ↔ ∃ rootLoc rootLeft,
          host.tree.walk host.maxLinks [] (resolvedNames host.cwd root) = .ok (rootLoc, rootLeft)
            ∧ climbs host rootLoc (resolvedNames host.cwd root) 4096
              (host.targetNames root filePath) = true := by
      unfold createCanonicalPathWithinRootChecker
      cases hroot : host.tree.walk host.maxLinks [] (resolvedNames host.cwd root) with
      | error errno =>
        rw [canonicalExistingFilesystemPath_of_error hroot]
        simp
      | ok found =>
        have hrelative := relative_of_targetTextReason htext
        have htarget : resolve host.cwd (host.target root filePath)
            = host.target root filePath := by
          rw [target_eq_absolutePath, resolve_absolutePath hproper]
        rw [canonicalExistingFilesystemPath_of_walk hroot]
        dsimp only
        rw [htarget, hrelative, if_neg Bool.false_ne_true, answer_checkUpward
          (cacheAfter_readsTree root earlier)]
        constructor
        · exact fun h => ⟨found.1, found.2, rfl, h⟩
        · rintro ⟨rootLoc, rootLeft, hfound, h⟩
          cases hfound
          exact h
    cases hanswer : (createCanonicalPathWithinRootChecker host root (cacheAfter host root earlier)
        (host.target root filePath)).1 with
    | true => simpa [hanswer] using hchecker
    | false => simpa [hanswer] using hchecker

end Validators

/-- The validator with a checker, whatever it has read, accepts what the simple one does, unless
    a link or the depth misleads it. -/
theorem createTargetWithinRootValidator_agrees_iff (host : FileHost) (root filePath : JsString) :
    (∀ earlier, (createTargetWithinRootValidator host root (cacheAfter host root earlier)
        filePath).1 = none ↔ validateTargetWithinRoot host filePath root = none)
      ↔ ¬ Misled host root filePath := by
  have hproper := @isFileName_of_mem_targetNames host root filePath
  have hrootNames := @isFileName_of_mem_resolvedNames host.cwd root
  constructor
  · rintro hagrees ⟨htext, rootLoc, rootLeft, front, back, loc, hroot, hnearest, hinside, hfew,
      hmisled⟩
    have hsimple : validateTargetWithinRoot host filePath root = none :=
      validateTargetWithinRoot_iff.mpr
        ⟨htext, rootLoc, rootLeft, front, back, loc, hroot, hnearest, hinside, hfew⟩
    obtain ⟨-, rootLoc', rootLeft', hroot', hclimbs⟩ :=
      (createTargetWithinRootValidator_iff []).mp ((hagrees []).mpr hsimple)
    rw [hroot] at hroot'
    cases hroot'
    rw [climbs_of_misled hproper hrootNames hroot (rootNames_prefix_of_text htext) hnearest hmisled]
      at hclimbs
    cases hclimbs
  · intro hclear earlier
    rw [createTargetWithinRootValidator_iff, validateTargetWithinRoot_iff]
    refine and_congr_right fun htext => ⟨?_, ?_⟩
    · rintro ⟨rootLoc, rootLeft, hroot, hclimbs⟩
      obtain ⟨front, back, loc, hnearest, hinside, hfew⟩ :=
        exists_nearest_of_climbs hproper hrootNames hroot hclimbs
      exact ⟨rootLoc, rootLeft, front, back, loc, hroot, hnearest, hinside, hfew⟩
    · rintro ⟨rootLoc, rootLeft, front, back, loc, hroot, hnearest, hinside, hfew⟩
      have hnot : ¬ (DeadLink host loc back
          ∨ Detour host rootLoc (resolvedNames host.cwd root) front
          ∨ TooDeep host (resolvedNames host.cwd root) (host.targetNames root filePath)) :=
        fun hmisled => hclear ⟨htext, rootLoc, rootLeft, front, back, loc, hroot, hnearest, hinside,
          hfew, hmisled⟩
      rw [not_or, not_or] at hnot
      exact ⟨rootLoc, rootLeft, hroot, climbs_of_nearest hproper hrootNames hroot
        (rootNames_prefix_of_text htext) hnearest hnot.1 hnot.2.1 hnot.2.2⟩

/-- A link to a name that is missing: the simple validator goes on to the directory of the link,
    the other one stops at the link. -/
theorem createTargetWithinRootValidator_dangling :
    ¬ ∀ (host : FileHost) (root filePath : JsString) (earlier : List JsString),
        (createTargetWithinRootValidator host root (cacheAfter host root earlier) filePath).1 = none
          ↔ validateTargetWithinRoot host filePath root = none := by
  intro hall
  have hsimple : validateTargetWithinRoot danglingHost (js "l") (js "/r") = none := by
    decide +kernel
  have hchecker := (hall danglingHost (js "/r") (js "l") []).mpr hsimple
  have hrefused : (createTargetWithinRootValidator danglingHost (js "/r")
      (cacheAfter danglingHost (js "/r") []) (js "l")).1 ≠ none := by
    decide +kernel
  exact hrefused hchecker

end OpencodeSwarm
