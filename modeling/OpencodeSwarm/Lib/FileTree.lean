/-
  OpencodeSwarm.Lib.FileTree

  A file system as a tree of directories, files and symbolic links, and the
  resolution of paths in it with a budget of links.  `walk` follows every link;
  `create` is `open` with `O_CREAT`, which follows a last link to a name that is
  missing; `openFile` makes the missing directories first.
-/
import OpencodeSwarm.Lib.Outcome
import OpencodeSwarm.Lib.ResolvedPath

namespace Posix

open Js

/-! ## Trees -/

/-- The name of an entry. -/
abbrev FileName := { name : JsString // IsFileName name }

inductive FileNode where
  | file
  | link (target : JsString)
  | dir (entries : List (FileName × FileNode))

/-- A place in the tree: the names from the root down, through directories. -/
abbrev Loc := List JsString

/-- What fails. -/
inductive Errno where
  | enoent
  | enotdir
  | eloop
  | eisdir
  deriving DecidableEq

/-- Where a word leads: to a place, or through a link to be walked. -/
inductive Found where
  | place (loc : Loc)
  | through (start : Loc) (words : List JsString)

namespace FileNode

def isDir : FileNode → Bool
  | dir _ => true
  | _ => false

/-- The entry with a name. -/
def child : FileNode → JsString → Option FileNode
  | dir entries, name => (entries.find? fun entry => entry.1.1 = name).map Prod.snd
  | _, _ => none

/-- What is at a place. -/
def nodeAt (tree : FileNode) (loc : Loc) : Option FileNode := loc.foldlM child tree

theorem nodeAt_concat (tree : FileNode) (loc : Loc) (name : JsString) :
    tree.nodeAt (loc ++ [name]) = (tree.nodeAt loc).bind fun node => node.child name := by
  unfold nodeAt
  rw [List.foldlM_append]
  cases h : List.foldlM child tree loc with
  | none => rfl
  | some node => exact bind_pure (node.child name)

variable {name : JsString} {node : FileNode}

theorem isFileName_of_child {entry : FileNode} (h : node.child name = some entry) :
    IsFileName name := by
  cases node with
  | file => cases h
  | link target => cases h
  | dir entries =>
    obtain ⟨pair, hpair, -⟩ := Option.map_eq_some_iff.mp h
    have hname : pair.1.1 = name := of_decide_eq_true
      (@List.find?_some _ (fun entry : FileName × FileNode => decide (entry.1.1 = name)) pair
        entries hpair)
    exact hname ▸ pair.1.2

variable {tree : FileNode} {loc : Loc}

theorem isFileName_of_nodeAt (h : tree.nodeAt loc = some node) : ∀ name ∈ loc, IsFileName name := by
  induction loc using List.reverseRecOn generalizing node with
  | nil => exact List.forall_mem_nil _
  | append_singleton loc name ih =>
    rw [nodeAt_concat] at h
    obtain ⟨parent, hparent, hchild⟩ := Option.bind_eq_some_iff.mp h
    intro other hother
    rcases List.mem_append.mp hother with hloc | hlast
    · exact ih hparent other hloc
    · rw [List.mem_singleton.mp hlast]
      exact isFileName_of_child hchild

theorem nodeAt_dropLast (h : tree.nodeAt loc = some node) :
    ∃ parent, tree.nodeAt loc.dropLast = some parent := by
  induction loc using List.reverseRecOn with
  | nil => exact ⟨node, h⟩
  | append_singleton loc name _ =>
    rw [nodeAt_concat] at h
    obtain ⟨parent, hparent, -⟩ := Option.bind_eq_some_iff.mp h
    rw [List.dropLast_concat]
    exact ⟨parent, hparent⟩

/-! ## Resolution -/

/-- One word of a path, in the directory at a place. -/
def enter (tree : FileNode) (loc : Loc) (word : JsString) : Except Errno Found :=
  match tree.nodeAt loc with
  | some (dir entries) =>
    if word = [] ∨ word = [dot] then .ok (.place loc)
    else if word = [dot, dot] then .ok (.place loc.dropLast)
    else
      match (dir entries).child word with
      | none => .error .enoent
      | some (link target) =>
        .ok (.through (if isAbsolute target then [] else loc) (segments target))
      | some _ => .ok (.place (loc ++ [word]))
  | _ => .error .enotdir

/-- The words of a path, with a way to go on behind a link. -/
def walkWith (tree : FileNode) (follow : Loc → List JsString → Except Errno (Loc × Nat))
    (links : Nat) : Loc → List JsString → Except Errno (Loc × Nat)
  | loc, [] => .ok (loc, links)
  | loc, word :: rest =>
    match tree.enter loc word with
    | .error errno => .error errno
    | .ok (.place next) => walkWith tree follow links next rest
    | .ok (.through start words) => follow start (words ++ rest)

/-- The words of a path, through at most so many links: the place, and how many links are
    left. -/
def walk (tree : FileNode) : Nat → Loc → List JsString → Except Errno (Loc × Nat)
  | 0 => walkWith tree (fun _ _ => .error .eloop) 0
  | links + 1 => walkWith tree (walk tree links) (links + 1)

/-- `open` with `O_CREAT`, with a way to go on behind a link. -/
def createWith (tree : FileNode) (follow : Loc → List JsString → Except Errno Loc) :
    Loc → List JsString → Except Errno Loc
  | _, [] => .error .eisdir
  | loc, word :: rest =>
    match tree.enter loc word with
    | .error errno => if rest = [] ∧ errno = .enoent then .ok (loc ++ [word]) else .error errno
    | .ok (.place next) =>
      if rest = [] then
        if (tree.nodeAt next).any isDir then .error .eisdir else .ok next
      else createWith tree follow next rest
    | .ok (.through start words) => follow start (words ++ rest)

/-- `open` with `O_CREAT`: the place of the file, which is there or made. -/
def create (tree : FileNode) : Nat → Loc → List JsString → Except Errno Loc
  | 0 => createWith tree fun _ _ => .error .eloop
  | links + 1 => createWith tree (create tree links)

/-- Opening a path for writing: directories that are missing are made, then the file. -/
def openFile (tree : FileNode) : Nat → Loc → List JsString → Except Errno Loc
  | _, _, [] => .error .eisdir
  | links, loc, [word] => create tree links loc [word]
  | links, loc, word :: next :: rest =>
    match walk tree links loc [word] with
    | .ok (at', left) => openFile tree left at' (next :: rest)
    | .error errno =>
      if tree.enter loc word matches .error .enoent then .ok (loc ++ word :: next :: rest)
      else .error errno

/-! ## Walking -/

theorem walk_nil (tree : FileNode) (links : Nat) (loc : Loc) :
    walk tree links loc [] = .ok (loc, links) := by
  cases links <;> rfl

variable {links : Nat} {word : JsString} {rest : List JsString} {next : Loc}

theorem walk_place (h : tree.enter loc word = .ok (.place next)) :
    walk tree links loc (word :: rest) = walk tree links next rest := by
  cases links with
  | zero | succ links =>
    conv_lhs => unfold walk walkWith
    rw [h]
    rfl

variable {errno : Errno}

theorem walk_error (h : tree.enter loc word = .error errno) :
    walk tree links loc (word :: rest) = .error errno := by
  cases links with
  | zero | succ links =>
    unfold walk walkWith
    rw [h]

variable {words : List JsString} {start : Loc}

theorem walk_through_zero (h : tree.enter loc word = .ok (.through start words)) :
    walk tree 0 loc (word :: rest) = .error .eloop := by
  unfold walk walkWith
  rw [h]

theorem walk_through_succ (h : tree.enter loc word = .ok (.through start words)) :
    walk tree (links + 1) loc (word :: rest) = walk tree links start (words ++ rest) := by
  conv_lhs => unfold walk walkWith
  rw [h]

/-- Induction along a walk: over the links that are left, then over the words. -/
theorem walk_induction (tree : FileNode) {motive : Nat → Loc → List JsString → Prop}
    (nil : ∀ links loc, motive links loc [])
    (error : ∀ links loc word rest errno, tree.enter loc word = .error errno →
      motive links loc (word :: rest))
    (place : ∀ links loc word rest next, tree.enter loc word = .ok (.place next) →
      motive links next rest → motive links loc (word :: rest))
    (spent : ∀ loc word rest start words, tree.enter loc word = .ok (.through start words) →
      motive 0 loc (word :: rest)) (through : ∀ links loc word rest start words,
      tree.enter loc word = .ok (.through start words) → motive links start (words ++ rest) →
      motive (links + 1) loc (word :: rest))
    (links : Nat) (loc : Loc) (words : List JsString) : motive links loc words := by
  induction links generalizing loc words with
  | zero =>
    induction words generalizing loc with
    | nil => exact nil 0 loc
    | cons word rest ih =>
      cases hword : tree.enter loc word with
      | error errno => exact error 0 loc word rest errno hword
      | ok found =>
        cases found with
        | place next => exact place 0 loc word rest next hword (ih next)
        | through start words => exact spent loc word rest start words hword
  | succ links ihLinks =>
    induction words generalizing loc with
    | nil => exact nil (links + 1) loc
    | cons word rest ih =>
      cases hword : tree.enter loc word with
      | error errno => exact error (links + 1) loc word rest errno hword
      | ok found =>
        cases found with
        | place next => exact place (links + 1) loc word rest next hword (ih next)
        | through start words =>
          exact through links loc word rest start words hword (ihLinks start (words ++ rest))

theorem walk_append (tree : FileNode) (links : Nat) (loc : Loc) (front back : List JsString) :
    walk tree links loc (front ++ back)
      = (walk tree links loc front).bind fun found => walk tree found.2 found.1 back := by
  induction links, loc, front using walk_induction tree with
  | nil links loc =>
    rw [walk_nil]
    rfl
  | error links loc word rest errno hword =>
    rw [List.cons_append, walk_error hword, walk_error hword]
    rfl
  | place links loc word rest next hword ih =>
    rw [List.cons_append, walk_place hword, walk_place hword, ih]
  | spent loc word rest start words hword =>
    rw [List.cons_append, walk_through_zero hword, walk_through_zero hword]
    rfl
  | through links loc word rest start words hword ih =>
    rw [List.cons_append, walk_through_succ hword, walk_through_succ hword, ← List.append_assoc, ih]

variable {left : Nat} {at' : Loc} {front back : List JsString}

theorem walk_append_of_ok (h : walk tree links loc front = .ok (at', left)) :
    walk tree links loc (front ++ back) = walk tree left at' back := by
  rw [walk_append, h]
  rfl

theorem nodeAt_of_enter (h : tree.enter loc word = .ok (.place next)) :
    ∃ node, tree.nodeAt next = some node := by
  unfold enter at h
  split at h
  · rename_i entries hloc
    split at h
    · cases h
      exact ⟨_, hloc⟩
    · split at h
      · cases h
        exact nodeAt_dropLast hloc
      · split at h
        · cases h
        · cases h
        · rename_i node _ hchild
          cases h
          exact ⟨node, by rw [nodeAt_concat, hloc]; exact hchild⟩
  · cases h

theorem eq_of_enter_place (hname : IsFileName word) (h : tree.enter loc word = .ok (.place next)) :
    next = loc ++ [word] := by
  unfold enter at h
  split at h
  · split at h
    · rename_i hskip
      exact absurd hskip (not_or.mpr ⟨hname.1, hname.2.1⟩)
    · split at h
      · rename_i hup
        exact absurd hup hname.2.2.1
      · split at h
        · cases h
        · cases h
        · cases h
          rfl
  · cases h

/-- A word leads nowhere because it is missing, or not in a directory. -/
theorem errno_of_enter (h : tree.enter loc word = .error errno) :
    errno = .enoent ∨ errno = .enotdir := by
  unfold enter at h
  split at h
  · split at h
    · cases h
    split at h
    · cases h
    split at h
    · cases h
      exact Or.inl rfl
    · cases h
    · cases h
  · cases h
    exact Or.inr rfl

theorem nodeAt_of_enter_through (h : tree.enter loc word = .ok (.through start words)) :
    ∃ node, tree.nodeAt start = some node := by
  unfold enter at h
  split at h
  · rename_i entries hloc
    split at h
    · cases h
    split at h
    · cases h
    split at h
    · cases h
    · cases h
      split
      · exact ⟨tree, rfl⟩
      · exact ⟨_, hloc⟩
    · cases h
  · cases h

theorem nodeAt_of_walk (hloc : ∃ node, tree.nodeAt loc = some node)
    (h : walk tree links loc words = .ok (at', left)) : ∃ node, tree.nodeAt at' = some node := by
  induction links, loc, words using walk_induction tree with
  | nil links loc =>
    rw [walk_nil] at h
    cases h
    exact hloc
  | error links loc word rest errno hword =>
    rw [walk_error hword] at h
    cases h
  | place links loc word rest next hword ih =>
    rw [walk_place hword] at h
    exact ih (nodeAt_of_enter hword) h
  | spent loc word rest start words hword =>
    rw [walk_through_zero hword] at h
    cases h
  | through links loc word rest start words hword ih =>
    rw [walk_through_succ hword] at h
    exact ih (nodeAt_of_enter_through hword) h

theorem isFileName_of_walk (h : walk tree links [] words = .ok (at', left)) :
    ∀ name ∈ at', IsFileName name := by
  obtain ⟨node, hnode⟩ := nodeAt_of_walk ⟨tree, rfl⟩ h
  exact isFileName_of_nodeAt hnode

/-! ## Opening -/

theorem create_nil (tree : FileNode) (links : Nat) (loc : Loc) :
    create tree links loc [] = .error .eisdir := by
  cases links <;> rfl

theorem create_error (h : tree.enter loc word = .error errno) : create tree links loc (word :: rest)
      = if rest = [] ∧ errno = .enoent then .ok (loc ++ [word]) else .error errno := by
  cases links with
  | zero | succ links =>
    unfold create createWith
    rw [h]

theorem create_last (h : tree.enter loc word = .ok (.place next)) : create tree links loc [word]
      = if (tree.nodeAt next).any isDir then .error .eisdir else .ok next := by
  cases links with
  | zero | succ links =>
    unfold create createWith
    rw [h]
    rfl

theorem create_place (h : tree.enter loc word = .ok (.place next)) (hrest : rest ≠ []) :
    create tree links loc (word :: rest) = create tree links next rest := by
  cases links with
  | zero | succ links =>
    conv_lhs => unfold create createWith
    rw [h]
    dsimp only
    rw [if_neg hrest]
    rfl

theorem create_through_zero (h : tree.enter loc word = .ok (.through start words)) :
    create tree 0 loc (word :: rest) = .error .eloop := by
  unfold create createWith
  rw [h]

theorem create_through_succ (h : tree.enter loc word = .ok (.through start words)) :
    create tree (links + 1) loc (word :: rest) = create tree links start (words ++ rest) := by
  conv_lhs => unfold create createWith
  rw [h]

variable {file : Loc}

theorem create_of_walk (hwalk : walk tree links loc words = .ok (at', left))
    (hcreate : create tree links loc words = .ok file) : file = at' := by
  induction links, loc, words using walk_induction tree with
  | nil links loc =>
    rw [create_nil] at hcreate
    cases hcreate
  | error links loc word rest errno hword =>
    rw [walk_error hword] at hwalk
    cases hwalk
  | place links loc word rest next hword ih =>
    rw [walk_place hword] at hwalk
    by_cases hrest : rest = []
    · subst hrest
      rw [walk_nil] at hwalk
      rw [create_last hword] at hcreate
      split at hcreate
      · cases hcreate
      cases hwalk
      cases hcreate
      rfl
    · rw [create_place hword hrest] at hcreate
      exact ih hwalk hcreate
  | spent loc word rest start words hword =>
    rw [walk_through_zero hword] at hwalk
    cases hwalk
  | through links loc word rest start words hword ih =>
    rw [walk_through_succ hword] at hwalk
    rw [create_through_succ hword] at hcreate
    exact ih hwalk hcreate

theorem create_append (hwalk : walk tree links loc front = .ok (at', left)) (hback : back ≠ []) :
    create tree links loc (front ++ back) = create tree left at' back := by
  induction links, loc, front using walk_induction tree with
  | nil links loc =>
    rw [walk_nil] at hwalk
    cases hwalk
    rfl
  | error links loc word rest errno hword =>
    rw [walk_error hword] at hwalk
    cases hwalk
  | place links loc word rest next hword ih =>
    rw [walk_place hword] at hwalk
    have happend : rest ++ back ≠ [] := by simp [hback]
    rw [List.cons_append, create_place hword happend]
    exact ih hwalk
  | spent loc word rest start words hword =>
    rw [walk_through_zero hword] at hwalk
    cases hwalk
  | through links loc word rest start words hword ih =>
    rw [walk_through_succ hword] at hwalk
    rw [List.cons_append, create_through_succ hword, ← List.append_assoc]
    exact ih hwalk

/-- A chain of links that ends at a name its directory does not have. -/
inductive DanglesTo (tree : FileNode) : Nat → Loc → List JsString → Loc → JsString → Prop where
  | missing {links left : Nat} {loc dir : Loc} {front : List JsString} {name : JsString}
      (hfront : walk tree links loc front = .ok (dir, left))
      (hname : tree.enter dir name = .error .enoent) :
      DanglesTo tree links loc (front ++ [name]) dir name
  | through {links left : Nat} {loc dir start target : Loc} {front words : List JsString}
      {name last : JsString} (hfront : walk tree links loc front = .ok (dir, left + 1))
      (hname : tree.enter dir name = .ok (.through start words))
      (hwords : DanglesTo tree left start words target last) :
      DanglesTo tree links loc (front ++ [name]) target last

variable {dir : Loc}

theorem DanglesTo.enter_eq (h : DanglesTo tree links loc words dir name) :
    tree.enter dir name = .error .enoent := by
  induction h with
  | missing _ hname => exact hname
  | through _ _ _ ih => exact ih

/-- Through a dangling link `open` makes the name at the end of the chain. -/
theorem DanglesTo.create_eq (h : DanglesTo tree links loc words dir name) :
    create tree links loc words = .ok (dir ++ [name]) := by
  induction h with
  | missing hfront hname =>
    rw [create_append hfront (List.cons_ne_nil _ _), create_error hname, if_pos ⟨rfl, rfl⟩]
  | through hfront hname _ ih =>
    rw [create_append hfront (List.cons_ne_nil _ _), create_through_succ hname, List.append_nil, ih]

theorem DanglesTo.walk_eq (h : DanglesTo tree links loc words dir name) :
    walk tree links loc words = .error .enoent := by
  induction h with
  | missing hfront hname => rw [walk_append_of_ok hfront, walk_error hname]
  | through hfront hname _ ih =>
    rw [walk_append_of_ok hfront, walk_through_succ hname, List.append_nil, ih]

theorem DanglesTo.cons_place (hword : tree.enter loc word = .ok (.place next))
    (h : DanglesTo tree links next rest dir name) :
    DanglesTo tree links loc (word :: rest) dir name := by
  cases h with
  | missing hfront hname =>
    rw [← walk_place hword] at hfront
    exact DanglesTo.missing hfront hname
  | through hfront hname hwords =>
    rw [← walk_place hword] at hfront
    exact DanglesTo.through hfront hname hwords

theorem DanglesTo.cons_through (hword : tree.enter loc word = .ok (.through start words))
    (h : DanglesTo tree links start (words ++ rest) dir name) :
    DanglesTo tree (links + 1) loc (word :: rest) dir name := by
  rcases List.eq_nil_or_concat rest with rfl | ⟨init, last, rfl⟩
  · rw [List.append_nil] at h
    exact @DanglesTo.through tree (links + 1) links loc loc start dir [] words word name
      (walk_nil tree (links + 1) loc) hword h
  · rw [List.concat_eq_append] at h ⊢
    generalize hall : words ++ (init ++ [last]) = all at h
    cases h with
    | missing hfront hname =>
      rw [← List.append_assoc] at hall
      obtain ⟨rfl, hlast⟩ := List.append_inj' hall rfl
      cases hlast
      rw [← walk_through_succ hword] at hfront
      exact DanglesTo.missing hfront hname
    | through hfront hname hwords =>
      rw [← List.append_assoc] at hall
      obtain ⟨rfl, hlast⟩ := List.append_inj' hall rfl
      cases hlast
      rw [← walk_through_succ hword] at hfront
      exact DanglesTo.through hfront hname hwords

/-- What `open` makes where a path does not resolve is the end of such a chain. -/
theorem danglesTo_of_create (hwalk : walk tree links loc words = .error errno)
    (hcreate : create tree links loc words = .ok file) :
    ∃ dir name, DanglesTo tree links loc words dir name ∧ file = dir ++ [name] := by
  induction links, loc, words using walk_induction tree with
  | nil links loc =>
    rw [walk_nil] at hwalk
    cases hwalk
  | error links loc word rest errno hword =>
    rw [create_error hword] at hcreate
    split at hcreate
    · rename_i hlast
      obtain ⟨rfl, rfl⟩ := hlast
      cases hcreate
      exact ⟨loc, word, @DanglesTo.missing tree links links loc loc [] word
        (walk_nil tree links loc) hword, rfl⟩
    · cases hcreate
  | place links loc word rest next hword ih =>
    rw [walk_place hword] at hwalk
    by_cases hrest : rest = []
    · subst hrest
      rw [walk_nil] at hwalk
      cases hwalk
    · rw [create_place hword hrest] at hcreate
      obtain ⟨dir, name, hdangles, hfile⟩ := ih hwalk hcreate
      exact ⟨dir, name, hdangles.cons_place hword, hfile⟩
  | spent loc word rest start words hword =>
    rw [create_through_zero hword] at hcreate
    cases hcreate
  | through links loc word rest start words hword ih =>
    rw [walk_through_succ hword] at hwalk
    rw [create_through_succ hword] at hcreate
    obtain ⟨dir, name, hdangles, hfile⟩ := ih hwalk hcreate
    exact ⟨dir, name, hdangles.cons_through hword, hfile⟩

theorem nodeAt_of_enter_enoent (h : tree.enter loc word = .error .enoent) :
    tree.nodeAt (loc ++ [word]) = none := by
  unfold enter at h
  split at h
  · rename_i entries hloc
    split at h
    · cases h
    split at h
    · cases h
    split at h
    · rename_i hchild
      rw [nodeAt_concat, hloc]
      exact hchild
    · cases h
    · cases h
  · cases h

/-! ## Opening with directories -/

theorem openFile_append (hwalk : walk tree links loc front = .ok (at', left)) (hback : back ≠ []) :
    openFile tree links loc (front ++ back) = openFile tree left at' back := by
  induction front generalizing links loc with
  | nil =>
    rw [walk_nil] at hwalk
    cases hwalk
    rfl
  | cons word rest ih =>
    have hsplit : walk tree links loc (word :: rest)
        = (walk tree links loc [word]).bind fun found => walk tree found.2 found.1 rest :=
      walk_append tree links loc [word] rest
    obtain ⟨⟨next, nextLeft⟩, hnext, hrest⟩ := Outcome.bind_eq_ok.mp (hsplit.symm.trans hwalk)
    cases happend : rest ++ back with
    | nil => exact absurd (List.append_eq_nil_iff.mp happend).2 hback
    | cons second others =>
      rw [List.cons_append, happend, openFile, hnext, ← happend]
      exact ih hrest

/-- Where a path resolves, it is what it resolves to that is opened. -/
theorem openFile_of_walk (hwalk : walk tree links loc words = .ok (at', left))
    (hopen : openFile tree links loc words = .ok file) : file = at' := by
  rcases List.eq_nil_or_concat words with rfl | ⟨front, last, rfl⟩
  · cases hopen
  · rw [List.concat_eq_append] at hwalk hopen
    obtain ⟨⟨dir, dirLeft⟩, hfront, hlast⟩ :=
      Outcome.bind_eq_ok.mp ((walk_append tree links loc front [last]).symm.trans hwalk)
    rw [openFile_append hfront (List.cons_ne_nil _ _)] at hopen
    exact create_of_walk hlast hopen

/-- A path that goes on behind a missing name, or through no further link, stays below. -/
theorem prefix_of_openFile (hnames : ∀ word ∈ words, IsFileName word) (hwords : words ≠ [])
    (hlinks : ∀ front word back, words = front ++ word :: back → ∀ dir left,
      walk tree links loc front = .ok (dir, left) → ∀ start others,
      tree.enter dir word ≠ .ok (.through start others))
    (hopen : openFile tree links loc words = .ok file) : loc <+: file := by
  induction words generalizing links loc with
  | nil => exact absurd rfl hwords
  | cons word rest ih =>
    have hdirect := hlinks [] word rest rfl loc links (walk_nil tree links loc)
    have hbelow : ∀ next, tree.enter loc word = .ok (.place next) → loc <+: next := by
      intro next hnext
      rw [eq_of_enter_place (hnames word List.mem_cons_self) hnext]
      exact List.prefix_append loc [word]
    cases rest with
    | nil =>
      rw [openFile] at hopen
      cases hword : tree.enter loc word with
      | error errno =>
        rw [create_error hword] at hopen
        split at hopen
        · cases hopen
          exact List.prefix_append loc [word]
        · cases hopen
      | ok found =>
        cases found with
        | place next =>
          rw [create_last hword] at hopen
          split at hopen
          · cases hopen
          cases hopen
          exact hbelow _ hword
        | through start others => exact absurd hword (hdirect start others)
    | cons second others =>
      rw [openFile] at hopen
      cases hword : tree.enter loc word with
      | error errno =>
        rw [walk_error hword, hword] at hopen
        dsimp only at hopen
        split at hopen
        · cases hopen
          exact List.prefix_append loc _
        · cases hopen
      | ok found =>
        cases found with
        | place next =>
          rw [walk_place hword, walk_nil] at hopen
          refine (hbelow _ hword).trans (ih (fun name hname =>
            hnames name (List.mem_cons_of_mem _ hname)) (List.cons_ne_nil _ _) ?_ hopen)
          intro front name back hsplit dir left hwalk
          have hfull : word :: second :: others = (word :: front) ++ name :: back := by
            rw [hsplit, List.cons_append]
          rw [← walk_place hword] at hwalk
          exact hlinks (word :: front) name back hfull dir left hwalk
        | through start words => exact absurd hword (hdirect start words)

end FileNode

end Posix
