/-
  OpencodeSwarm.Epic.ComponentForest

  The union-find of the wave planner (`src/epic/components.ts`).  Its parents are
  a forest of pointers; the loop over the edges keeps it a forest whose roots
  tell what the edges so far connect, and `find` changes no root.  The groups and
  the edge counts go by these roots.
-/
import OpencodeSwarm.Epic.ComponentFacts
import OpencodeSwarm.Lib.PointerForest

namespace OpencodeSwarm

open Js PointerForest

variable {N : Type} [LinearOrder N]

/-! ## The parents as a forest -/

/-- The parent of an id; what has none is its own. -/
def pointer (parent : ParentMap) (id : JsString) : JsString :=
  (parent.get? id).getD id

theorem pointer_set (parent : ParentMap) (id root : JsString) :
    pointer (parent.set id root) = Function.update (pointer parent) id root := by
  funext other
  rw [pointer, OrderedMap.get?_set, Function.update_apply]
  split
  · rfl
  · rfl

theorem findRoot_eq_iterate (parent : ParentMap) (fuel : Nat) (id : JsString) :
    findRoot parent fuel id = (pointer parent)^[fuel] id := by
  induction fuel generalizing id with
  | zero => rfl
  | succ fuel ih =>
    have hstop : pointer parent id = id → (pointer parent)^[fuel + 1] id = id :=
      fun hfixed => Function.iterate_fixed hfixed (fuel + 1)
    unfold findRoot
    split
    · next hnone =>
      rw [hstop (by rw [pointer, hnone]; rfl)]
    · next next hnext =>
      have hpointer : pointer parent id = next := by rw [pointer, hnext]; rfl
      split
      · next hroot => rw [hstop (hpointer.trans hroot)]
      · rw [ih, Function.iterate_succ_apply, hpointer]

/-- The root of an id. -/
def rootOf (parent : ParentMap) (id : JsString) : JsString :=
  findRoot parent parent.length id

/-- The union-find over `nodes` has joined `edges`. -/
structure Joined (nodes : List JsString) (edges : List (JsString × JsString))
    (parent : ParentMap) : Prop where
  keys : parent.keys = nodes
  represents : Represents (pointer parent) nodes edges

section Forest

variable {nodes : List JsString} {edges : List (JsString × JsString)} {parent : ParentMap}
  {id root : JsString}

theorem Joined.leads_iff (h : Joined nodes edges parent) (hid : id ∈ nodes) :
    Leads (pointer parent) id root ↔ rootOf parent id = root := by
  have hlength : parent.length = nodes.length := by
    rw [← h.keys, OrderedMap.keys, List.length_map]
  have hfound : ∀ other, Leads (pointer parent) id other → rootOf parent id = other := by
    intro other hother
    rw [rootOf, findRoot_eq_iterate, hlength]
    exact hother.iterate_length h.represents.closed hid
  constructor
  · exact hfound root
  · intro hroot
    obtain ⟨other, hother⟩ := h.represents.leads id hid
    rw [← hroot, hfound other hother]
    exact hother

theorem Joined.get?_of_mem (h : Joined nodes edges parent) (hid : id ∈ nodes) :
    parent.get? id = some (pointer parent id) := by
  have hsome : (parent.get? id).isSome = true := OrderedMap.mem_keys_iff.mp (h.keys.symm ▸ hid)
  obtain ⟨next, hnext⟩ := Option.isSome_iff_exists.mp hsome
  rw [pointer, hnext, Option.getD_some]

theorem Joined.redirect (h : Joined nodes edges parent) (hid : id ∈ nodes)
    (hroot : Leads (pointer parent) id root) : Joined nodes edges (parent.set id root) := by
  refine ⟨?_, ?_⟩
  · rw [OrderedMap.keys_set_of_mem (h.keys ▸ hid), h.keys]
  · rw [pointer_set]
    exact h.represents.redirect hid hroot

theorem Joined.compressPath (h : Joined nodes edges parent) (fuel : Nat) {root node : JsString}
    (hnode : node ∈ nodes) (hroot : Leads (pointer parent) node root) :
    Joined nodes edges (compressPath root fuel node parent)
      ∧ ∀ id other, Leads (pointer parent) id other →
        Leads (pointer (compressPath root fuel node parent)) id other := by
  induction fuel generalizing node parent with
  | zero => exact ⟨h, fun _ _ hother => hother⟩
  | succ fuel ih =>
    unfold OpencodeSwarm.compressPath
    split
    · exact ⟨h, fun _ _ hother => hother⟩
    rw [h.get?_of_mem hnode, Option.getD_some]
    have hset : ∀ id other, Leads (pointer parent) id other →
        Leads (pointer (parent.set node root)) id other := by
      intro id other hother
      rw [pointer_set]
      exact hroot.redirect hother
    obtain ⟨hjoined, hkept⟩ := ih (h.redirect hnode hroot)
      (h.represents.closed node hnode) (hset _ root hroot.tail)
    exact ⟨hjoined, fun id other hother => hkept id other (hset id other hother)⟩

theorem Joined.find (h : Joined nodes edges parent) {id : JsString} (hid : id ∈ nodes) :
    (find parent id).1 = rootOf parent id ∧ Joined nodes edges (find parent id).2
      ∧ ∀ other ∈ nodes, rootOf (find parent id).2 other = rootOf parent other := by
  have hleads := (h.leads_iff hid).mpr rfl
  obtain ⟨hjoined, hkept⟩ := h.compressPath parent.length hid hleads
  refine ⟨rfl, hjoined, fun other hother => ?_⟩
  exact (hjoined.leads_iff hother).mp (hkept other _ ((h.leads_iff hother).mpr rfl))

theorem Joined.unite (h : Joined nodes edges parent) {edge : JsString × JsString}
    (hfirst : edge.1 ∈ nodes) (hsecond : edge.2 ∈ nodes) :
    Joined nodes (edges ++ [edge]) (unite parent edge) := by
  obtain ⟨hra, hafter, hkept⟩ := h.find hfirst
  obtain ⟨hrb, hlast, hkept'⟩ := hafter.find hsecond
  have hleft : Leads (pointer (OpencodeSwarm.find (OpencodeSwarm.find parent edge.1).2 edge.2).2)
      edge.1 (OpencodeSwarm.find parent edge.1).1 := by
    rw [hlast.leads_iff hfirst, hkept' _ hfirst, hkept _ hfirst, hra]
  have hright : Leads (pointer (OpencodeSwarm.find (OpencodeSwarm.find parent edge.1).2 edge.2).2)
      edge.2 (OpencodeSwarm.find (OpencodeSwarm.find parent edge.1).2 edge.2).1 := by
    rw [hlast.leads_iff hsecond, hkept' _ hsecond, hrb]
  unfold OpencodeSwarm.unite
  dsimp only
  split
  · next hne =>
    refine ⟨?_, ?_⟩
    · have hroot := hlast.represents.root_mem hfirst hleft
      rw [OrderedMap.keys_set_of_mem (hlast.keys.symm ▸ hroot), hlast.keys]
    · rw [pointer_set]
      exact hlast.represents.link hfirst hsecond hleft hright hne
  · next heq =>
    have heq : (OpencodeSwarm.find parent edge.1).1
        = (OpencodeSwarm.find (OpencodeSwarm.find parent edge.1).2 edge.2).1 := not_not.mp heq
    exact ⟨hlast.keys, hlast.represents.concat_same ⟨_, hleft, heq ▸ hright⟩⟩

theorem Joined.foldl_unite (h : Joined nodes [] parent)
    (hedges : ∀ edge ∈ edges, edge.1 ∈ nodes ∧ edge.2 ∈ nodes) :
    Joined nodes edges (edges.foldl OpencodeSwarm.unite parent) := by
  induction edges using List.reverseRecOn with
  | nil => exact h
  | append_singleton edges edge ih =>
    rw [List.foldl_concat]
    obtain ⟨hfirst, hsecond⟩ := hedges edge (List.mem_append_right _ List.mem_cons_self)
    exact (ih fun other hother => hedges other (List.mem_append_left _ hother)).unite hfirst hsecond

/-! ## Groups and edges by root -/

variable {ι σ : Type} {items : List ι}
  {step : OrderedMap JsString σ × ParentMap → ι → OrderedMap JsString σ × ParentMap}

/-- A tally of items by the roots of their nodes: each root gets what its own items
    add up to, and the finds of the tally move no root. -/
theorem Joined.foldl_tally (h : Joined nodes edges parent) (node : ι → JsString) (start : σ)
    (add : σ → ι → σ)
    (hstep : ∀ state item, step state item
      = let found := OpencodeSwarm.find state.2 (node item)
        (state.1.set found.1 (add ((state.1.get? found.1).getD start) item), found.2))
    (hitems : ∀ item ∈ items, node item ∈ nodes) :
    (∀ root, ((items.foldl step ([], parent)).1.get? root).getD start
        = (items.filter fun item => rootOf parent (node item) = root).foldl add start)
      ∧ (items.foldl step ([], parent)).1.keys.Nodup
      ∧ Joined nodes edges (items.foldl step ([], parent)).2
      ∧ ∀ id ∈ nodes, rootOf (items.foldl step ([], parent)).2 id = rootOf parent id := by
  induction items using List.reverseRecOn with
  | nil => exact ⟨fun _ => rfl, List.nodup_nil, h, fun _ _ => rfl⟩
  | append_singleton items last ih =>
    obtain ⟨htally, hnodup, hjoined, hkept⟩ :=
      ih fun item hitem => hitems item (List.mem_append_left _ hitem)
    rw [List.foldl_concat, hstep]
    generalize items.foldl step ([], parent) = state at htally hnodup hjoined hkept ⊢
    have hlast := hitems last (List.mem_append_right _ List.mem_cons_self)
    obtain ⟨hroot, hafter, hsame⟩ := hjoined.find hlast
    refine ⟨fun root => ?_, OrderedMap.nodup_keys_set hnodup, hafter, fun id hid => ?_⟩
    · dsimp only
      rw [hroot, hkept _ hlast, OrderedMap.get?_set, List.filter_append, List.foldl_append,
        ← htally root]
      by_cases heq : root = rootOf parent (node last)
      · rw [if_pos heq, heq, List.filter_cons_of_pos (by simp)]
        rfl
      · rw [if_neg heq, List.filter_cons_of_neg (by simpa using Ne.symm heq)]
        rfl
    · exact (hsame id hid).trans (hkept id hid)

theorem Joined.groupByRoot (h : Joined nodes edges parent) :
    (∀ root, ((groupByRoot parent).1.get? root).getD []
        = nodes.filter fun id => rootOf parent id = root) ∧ (groupByRoot parent).1.keys.Nodup
      ∧ Joined nodes edges (groupByRoot parent).2
      ∧ ∀ id ∈ nodes, rootOf (groupByRoot parent).2 id = rootOf parent id := by
  rw [OpencodeSwarm.groupByRoot, h.keys]
  obtain ⟨hgroups, hrest⟩ :=
    h.foldl_tally (fun id => id) [] (fun ids id => ids ++ [id]) (fun _ _ => rfl) fun _ hid => hid
  refine ⟨fun root => (hgroups root).trans ?_, hrest⟩
  rw [List.foldl_append_eq_append]
  simp [← List.flatMap_def]

theorem Joined.countEdges (h : Joined nodes edges parent) {counted : List (JsString × JsString)}
    (hcounted : ∀ edge ∈ counted, edge.1 ∈ nodes) (root : JsString) :
    ((countEdges counted parent).get? root).getD 0
      = counted.countP fun edge => rootOf parent edge.1 = root := by
  have htally := (h.foldl_tally Prod.fst 0 (fun count _ => count + 1) (fun _ _ => rfl) hcounted).1
  refine (htally root).trans ?_
  simp [List.countP_eq_length_filter]

end Forest

end OpencodeSwarm
