/-
  OpencodeSwarm.Epic.ConnectedComponents

  The components of the wave planner (`src/epic/components.ts`) are the connected
  components of the conflict graph: two tasks that are not exclusive share a
  component exactly when a path of edges inside the subset joins them, and a
  component counts each of its edges once.
-/
import OpencodeSwarm.Epic.ComponentForest
import OpencodeSwarm.Epic.WaveVerdict

namespace OpencodeSwarm

open Js PointerForest

variable {N : Type} [LinearOrder N]

/-! ## Unordered pairs -/

/-- A pair with the smaller id first. -/
def orient (pair : JsString × JsString) : JsString × JsString :=
  if codeUnitLe pair.1 pair.2 then pair else pair.swap

theorem orient_cases (pair : JsString × JsString) :
    orient pair = pair ∨ orient pair = pair.swap := by
  unfold orient
  split
  · exact Or.inl rfl
  · exact Or.inr rfl

variable {ids : List JsString}

/-- The unordered pairs of distinct ids, each oriented, are distinct. -/
theorem nodup_orient_pairsOf (hnodup : ids.Nodup) : ((pairsOf ids).map orient).Nodup := by
  induction ids with
  | nil => exact List.nodup_nil
  | cons first rest ih =>
    obtain ⟨hfirst, hrest⟩ := List.nodup_cons.mp hnodup
    rw [pairsOf, List.map_append, List.map_map]
    refine List.nodup_append.mpr ⟨?_, ih hrest, ?_⟩
    · refine List.Nodup.map_on ?_ hrest
      intro a ha b hb heq
      rcases orient_cases (first, a) with h | h <;> rcases orient_cases (first, b) with h' | h' <;>
        simp_all [Function.comp]
    · rintro pair hpair _ hother rfl
      obtain ⟨a, ha, rfl⟩ := List.mem_map.mp hpair
      obtain ⟨⟨b, c⟩, hbc, heq⟩ := List.mem_map.mp hother
      obtain ⟨hb, hc, -⟩ := ne_of_mem_pairsOf hrest hbc
      rcases orient_cases (first, a) with h | h <;> rcases orient_cases (b, c) with h' | h' <;>
        simp_all [Function.comp, Prod.ext_iff]

variable {edges : List (JsString × JsString)}

/-- A list of edges that holds each adjacent pair inside `ids` once, from the
    smaller id, has as many edges as there are unordered adjacent pairs. -/
theorem length_eq_countP_pairsOf (hnodup : ids.Nodup) {adjacent : JsString → JsString → Bool}
    (hsymm : ∀ a b, adjacent a b = adjacent b a) (hedges : edges.Nodup)
    (hmem : ∀ a b, (a, b) ∈ edges
      ↔ codeUnitLe a b = true ∧ a ≠ b ∧ adjacent a b = true ∧ a ∈ ids ∧ b ∈ ids) :
    edges.length = (pairsOf ids).countP fun pair => adjacent pair.1 pair.2 := by
  have hlength : (((pairsOf ids).filter fun pair => adjacent pair.1 pair.2).map orient).length
      = ((pairsOf ids).filter fun pair => adjacent pair.1 pair.2).length := List.length_map orient
  rw [List.countP_eq_length_filter, ← hlength]
  refine List.Perm.length_eq ((List.perm_ext_iff_of_nodup hedges ?_).mpr ?_)
  · exact (nodup_orient_pairsOf hnodup).sublist (List.filter_sublist.map orient)
  rintro ⟨a, b⟩
  rw [hmem, List.mem_map]
  constructor
  · rintro ⟨hle, hne, hadjacent, ha, hb⟩
    rcases mem_pairsOf ha hb hne with hpair | hpair
    · exact ⟨(a, b), List.mem_filter.mpr ⟨hpair, hadjacent⟩, if_pos hle⟩
    · refine ⟨(b, a), List.mem_filter.mpr ⟨hpair, hsymm a b ▸ hadjacent⟩, ?_⟩
      exact if_neg fun hge => hne (codeUnitLe_antisymm hle hge)
  · rintro ⟨⟨x, y⟩, hpair, heq⟩
    obtain ⟨hpair, hadjacent⟩ := List.mem_filter.mp hpair
    obtain ⟨hx, hy, hne⟩ := ne_of_mem_pairsOf hnodup hpair
    unfold orient at heq
    split at heq
    · next hle =>
      cases heq
      exact ⟨hle, hne, hadjacent, hx, hy⟩
    · next hle =>
      cases heq
      exact ⟨(codeUnitLe_total x y).resolve_left hle, hne.symm, hsymm x y ▸ hadjacent, hy, hx⟩

/-! ## The graph and its edges -/

/-- Two tasks have an edge. -/
def EpicConflictGraph.adjacent (graph : EpicConflictGraph) (a b : JsString) : Bool :=
  ((graph.adjacency.get? a).getD []).contains b

/-- What the type of the graph says of `adjacency`: a map of sets, whose edges are
    symmetric and among the tasks that are not exclusive. -/
structure IsConflictGraph (graph : EpicConflictGraph) : Prop where
  keys : graph.adjacency.keys.Nodup
  neighbours : ∀ a, ((graph.adjacency.get? a).getD []).Nodup
  symm : ∀ a b, graph.adjacent a b = graph.adjacent b a
  free : ∀ a b, graph.adjacent a b = true → graph.exclusive.get? a = none

/-- A path of edges inside the subset. -/
def PathInside (graph : EpicConflictGraph) (taskIds : List JsString) : JsString → JsString → Prop :=
  Relation.ReflTransGen fun x y => graph.adjacent x y = true ∧ x ∈ taskIds ∧ y ∈ taskIds

/-- The ids of the subset that are not exclusive. -/
def freeIds (graph : EpicConflictGraph) (taskIds : List JsString) : List JsString :=
  taskIds.eraseDups.filter fun id => (graph.exclusive.get? id).isNone

/-- The union-find before any edge. -/
def singletons (graph : EpicConflictGraph) (taskIds : List JsString) : ParentMap :=
  (freeIds graph taskIds).map fun id => (id, id)

section Edges

variable {graph : EpicConflictGraph} {taskIds : List JsString}

theorem mem_freeIds {id : JsString} :
    id ∈ freeIds graph taskIds ↔ id ∈ taskIds ∧ graph.exclusive.get? id = none := by
  rw [freeIds, List.mem_filter, List.mem_eraseDups, Option.isNone_iff_eq_none]

theorem keys_singletons (graph : EpicConflictGraph) (taskIds : List JsString) :
    (singletons graph taskIds).keys = freeIds graph taskIds := by
  rw [singletons, OrderedMap.keys, List.map_map]
  exact List.map_id _

theorem joined_singletons (graph : EpicConflictGraph) (taskIds : List JsString) :
    Joined (freeIds graph taskIds) [] (singletons graph taskIds) := by
  refine ⟨keys_singletons graph taskIds, Represents.start (fun id => ?_) _⟩
  unfold pointer
  cases hget : (singletons graph taskIds).get? id with
  | none => rfl
  | some next =>
    obtain ⟨other, -, heq⟩ := List.mem_map.mp (OrderedMap.mem_of_get? hget)
    cases heq
    rfl

variable {a b : JsString}

/-- The edges of the union-find are the adjacent pairs inside the subset, from the
    smaller id. -/
theorem mem_subsetEdges (h : IsConflictGraph graph) :
    (a, b) ∈ subsetEdges graph (singletons graph taskIds)
      ↔ codeUnitLe a b = true ∧ a ≠ b ∧ graph.adjacent a b = true
        ∧ a ∈ freeIds graph taskIds ∧ b ∈ freeIds graph taskIds := by
  have hkey : ∀ id, ((singletons graph taskIds).get? id).isSome = true
      ↔ id ∈ freeIds graph taskIds := by
    intro id
    rw [← OrderedMap.mem_keys_iff, keys_singletons]
  unfold subsetEdges EpicConflictGraph.adjacent
  rw [List.mem_flatMap]
  constructor
  · rintro ⟨⟨source, neighbours⟩, hbinding, hmem⟩
    dsimp only at hmem
    split at hmem
    · next hsource =>
      obtain ⟨target, htarget, heq⟩ := List.mem_map.mp hmem
      cases heq
      obtain ⟨hneighbour, hkept⟩ := List.mem_filter.mp htarget
      simp only [Bool.and_eq_true, bne_iff_ne, ne_eq] at hkept
      obtain ⟨⟨hle, hne⟩, hin⟩ := hkept
      rw [OrderedMap.get?_of_mem h.keys hbinding, Option.getD_some, List.contains_iff_mem]
      exact ⟨hle, hne, hneighbour, (hkey a).mp hsource, (hkey b).mp hin⟩
    · cases hmem
  · rintro ⟨hle, hne, hadjacent, ha, hb⟩
    rw [List.contains_iff_mem] at hadjacent
    cases hget : graph.adjacency.get? a with
    | none =>
      rw [hget] at hadjacent
      cases hadjacent
    | some neighbours =>
      rw [hget] at hadjacent
      refine ⟨(a, neighbours), OrderedMap.mem_of_get? hget, ?_⟩
      dsimp only
      rw [if_pos ((hkey a).mpr ha)]
      refine List.mem_map_of_mem (List.mem_filter.mpr ⟨hadjacent, ?_⟩)
      simp [hle, hne, (hkey b).mpr hb]

theorem nodup_subsetEdges (h : IsConflictGraph graph) (parent : ParentMap) :
    (subsetEdges graph parent).Nodup := by
  rw [subsetEdges, List.nodup_flatMap]
  constructor
  · rintro ⟨a, neighbours⟩ hbinding
    dsimp only
    have hset := h.neighbours a
    rw [OrderedMap.get?_of_mem h.keys hbinding, Option.getD_some] at hset
    split
    · exact (hset.filter _).map fun b c heq => (Prod.mk.inj heq).2
    · exact List.nodup_nil
  · refine (List.pairwise_map.mp h.keys).imp fun {x y} hne => ?_
    intro edge hx hy
    have hfirst : ∀ binding : JsString × List JsString,
        edge ∈ (if (parent.get? binding.1).isSome then (binding.2.filter fun b =>
          codeUnitLe binding.1 b && binding.1 != b && (parent.get? b).isSome).map
            fun b => (binding.1, b) else []) → edge.1 = binding.1 := by
      intro binding hmem
      split at hmem
      · obtain ⟨b, -, rfl⟩ := List.mem_map.mp hmem
        rfl
      · cases hmem
    exact hne ((hfirst x hx).symm.trans (hfirst y hy))

theorem eqvGen_subsetEdges_iff (h : IsConflictGraph graph) :
    Relation.EqvGen (fun x y => (x, y) ∈ subsetEdges graph (singletons graph taskIds)) a b
      ↔ PathInside graph taskIds a b := by
  have hback : ∀ x y, PathInside graph taskIds x y → PathInside graph taskIds y x := by
    intro x y hpath
    induction hpath with
    | refl => exact Relation.ReflTransGen.refl
    | @tail u v _ hstep ih =>
      exact Relation.ReflTransGen.head ⟨h.symm u v ▸ hstep.1, hstep.2.2, hstep.2.1⟩ ih
  constructor
  · intro hconnected
    induction hconnected with
    | rel x y hedge =>
      obtain ⟨-, -, hadjacent, hx, hy⟩ := (mem_subsetEdges h).mp hedge
      exact Relation.ReflTransGen.single ⟨hadjacent, (mem_freeIds.mp hx).1, (mem_freeIds.mp hy).1⟩
    | refl x => exact Relation.ReflTransGen.refl
    | symm x y _ ih => exact hback x y ih
    | trans x y z _ _ ih ih' => exact ih.trans ih'
  · intro hpath
    induction hpath with
    | refl => exact Relation.EqvGen.refl a
    | @tail x y _ hstep ih =>
      refine ih.trans _ _ _ ?_
      obtain ⟨hadjacent, hx, hy⟩ := hstep
      have hx := mem_freeIds.mpr ⟨hx, h.free x y hadjacent⟩
      have hy := mem_freeIds.mpr ⟨hy, h.free y x (h.symm x y ▸ hadjacent)⟩
      by_cases hne : x = y
      · exact hne ▸ Relation.EqvGen.refl x
      rcases codeUnitLe_total x y with hle | hle
      · exact Relation.EqvGen.rel x y ((mem_subsetEdges h).mpr ⟨hle, hne, hadjacent, hx, hy⟩)
      · refine Relation.EqvGen.symm y x (Relation.EqvGen.rel y x ((mem_subsetEdges h).mpr ?_))
        exact ⟨hle, Ne.symm hne, h.symm x y ▸ hadjacent, hy, hx⟩

end Edges

/-! ## The graph of a phase -/

theorem neighboursOf_append (front back : List (JsString × JsString)) (id : JsString) :
    neighboursOf (front ++ back) id = neighboursOf front id ++ neighboursOf back id :=
  List.filterMap_append

theorem mem_of_mem_neighboursOf {a b : JsString} (h : b ∈ neighboursOf edges a) :
    (a, b) ∈ edges ∨ (b, a) ∈ edges := by
  obtain ⟨⟨x, y⟩, hedge, heq⟩ := List.mem_filterMap.mp h
  split at heq
  · next hfirst =>
    cases heq
    exact Or.inl (hfirst ▸ hedge)
  · split at heq
    · next hsecond =>
      cases heq
      exact Or.inr (hsecond ▸ hedge)
    · cases heq

theorem nodup_neighboursOf_pairsOf (hnodup : ids.Nodup) (id : JsString) :
    (neighboursOf (pairsOf ids) id).Nodup := by
  induction ids with
  | nil => exact List.nodup_nil
  | cons first rest ih =>
    obtain ⟨hfirst, hrest⟩ := List.nodup_cons.mp hnodup
    have hinside : ∀ other, other ∈ neighboursOf (pairsOf rest) id → id ∈ rest ∧ other ∈ rest := by
      intro other hother
      rcases mem_of_mem_neighboursOf hother with hpair | hpair
      · exact ⟨(ne_of_mem_pairsOf hrest hpair).1, (ne_of_mem_pairsOf hrest hpair).2.1⟩
      · exact ⟨(ne_of_mem_pairsOf hrest hpair).2.1, (ne_of_mem_pairsOf hrest hpair).1⟩
    rw [pairsOf, neighboursOf_append]
    by_cases hid : first = id
    · -- the first task meets every later one, and is in no later pair
      have hnone : neighboursOf (pairsOf rest) id = [] := by
        rw [List.eq_nil_iff_forall_not_mem]
        intro other hother
        exact hfirst (hid ▸ (hinside other hother).1)
      have hall : neighboursOf (rest.map fun b => (first, b)) id = rest := by
        unfold neighboursOf
        simp [hid]
      rw [hnone, hall, List.append_nil]
      exact hrest
    · have hone : neighboursOf (rest.map fun b => (first, b)) id
          = (rest.filter fun b => b = id).map fun _ => first := by
        rw [neighboursOf, List.filterMap_map, ← List.filterMap_eq_map, List.filterMap_filter]
        simp [hid]
      have hcount : (rest.filter fun b => b = id).length ≤ 1 := by
        rw [← List.countP_eq_length_filter]
        have hone := List.nodup_iff_count_le_one.mp hrest id
        simpa only [List.count, beq_eq_decide] using hone
      refine List.nodup_append.mpr ⟨?_, ih hrest, ?_⟩
      · rw [hone, List.map_const']
        exact List.nodup_replicate.mpr hcount
      · rintro other hother _ hlater rfl
        rw [hone] at hother
        obtain ⟨-, -, rfl⟩ := List.mem_map.mp hother
        exact hfirst (hinside _ hlater).2

theorem isConflictGraph_buildEpicConflictGraph (host : PlanningHost) (numbers : PlanningNumbers N)
    (input : EpicConflictGraphInput N) :
    IsConflictGraph (buildEpicConflictGraph host numbers input) := by
  have hvertices := nodup_graphVertices host input
  have hget : ∀ a, ((buildEpicConflictGraph host numbers input).adjacency.get? a).getD []
      = if a ∈ graphVertices host input then neighboursOf (graphEdges host numbers input) a
        else [] := by
    intro a
    split
    · next ha => rw [get?_adjacency ha, Option.getD_some]
    · next ha =>
      rw [← keys_adjacency host numbers input] at ha
      rw [OrderedMap.get?_eq_none_iff.mpr ha, Option.getD_none]
  have hends : ∀ a b, (a, b) ∈ graphEdges host numbers input →
      a ∈ graphVertices host input ∧ b ∈ graphVertices host input ∧ a ≠ b := fun a b hedge =>
    ne_of_mem_pairsOf hvertices (List.mem_filter.mp hedge).1
  have hadjacent : ∀ a b, (buildEpicConflictGraph host numbers input).adjacent a b = true
      ↔ b ∈ neighboursOf (graphEdges host numbers input) a := by
    intro a b
    rw [EpicConflictGraph.adjacent, List.contains_iff_mem, hget]
    split
    · exact Iff.rfl
    rename_i ha
    refine ⟨fun hnone => absurd hnone List.not_mem_nil, fun hmem => ?_⟩
    rcases mem_of_mem_neighboursOf hmem with hedge | hedge
    · exact absurd (hends a b hedge).1 ha
    · exact absurd (hends b a hedge).2.1 ha
  have hne : ∀ a b, b ∈ neighboursOf (graphEdges host numbers input) a →
      a ∈ graphVertices host input ∧ a ≠ b := by
    intro a b hmem
    rcases mem_of_mem_neighboursOf hmem with hedge | hedge
    · exact ⟨(hends a b hedge).1, (hends a b hedge).2.2⟩
    · exact ⟨(hends b a hedge).2.1, (hends b a hedge).2.2.symm⟩
  refine ⟨?_, ?_, ?_, ?_⟩
  · rw [keys_adjacency]
    exact hvertices
  · intro a
    rw [hget]
    split
    · exact (List.Sublist.filterMap _ List.filter_sublist).nodup
        (nodup_neighboursOf_pairsOf hvertices a)
    · exact List.nodup_nil
  · intro a b
    rw [Bool.eq_iff_iff, hadjacent, hadjacent]
    exact ⟨fun hmem => mem_neighboursOf_comm (hne a b hmem).2.symm hmem,
      fun hmem => mem_neighboursOf_comm (hne b a hmem).2.symm hmem⟩
  · intro a b hab
    have hvertex := (hne a b ((hadjacent a b).mp hab)).1
    obtain ⟨classified, hmem, hid⟩ := List.mem_map.mp hvertex
    obtain ⟨hvalue, hnone⟩ := List.mem_filter.mp hmem
    rw [OrderedMap.get?_eq_none_iff]
    intro hkey
    obtain ⟨⟨_, reason⟩, hexclusive, rfl⟩ := List.mem_map.mp hkey
    obtain ⟨other, hother, hreason⟩ := List.mem_filterMap.mp hexclusive
    obtain ⟨_, hsome, heq⟩ := Option.map_eq_some_iff.mp hreason
    -- the map has one task of an id, so it is exclusive and not exclusive
    have hmap : IsTaskMap (epicPreflight host input).taskMap := isTaskMap_buildTaskMap _
    obtain ⟨⟨key, _⟩, hbinding, rfl⟩ := List.mem_map.mp hvalue
    obtain ⟨⟨key', _⟩, hbinding', rfl⟩ := List.mem_map.mp hother
    have hkeys : key = key' := (hmap.own _ hbinding).symm.trans
      ((hid.trans (congrArg Prod.fst heq).symm).trans (hmap.own _ hbinding'))
    subst hkeys
    have hsame := (OrderedMap.get?_of_mem hmap.nodup hbinding).symm.trans
      (OrderedMap.get?_of_mem hmap.nodup hbinding')
    rw [Option.some.inj hsame, hsome] at hnone
    cases hnone

/-! ## The components -/

section Components

variable {graph : EpicConflictGraph} {taskIds : List JsString}

/-- The union-find after the last edge. -/
def united (graph : EpicConflictGraph) (taskIds : List JsString) : ParentMap :=
  (subsetEdges graph (singletons graph taskIds)).foldl unite (singletons graph taskIds)

theorem joined_united (h : IsConflictGraph graph) (taskIds : List JsString) :
    Joined (freeIds graph taskIds) (subsetEdges graph (singletons graph taskIds))
      (united graph taskIds) := by
  refine (joined_singletons graph taskIds).foldl_unite ?_
  rintro ⟨a, b⟩ hedge
  obtain ⟨-, -, -, ha, hb⟩ := (mem_subsetEdges h).mp hedge
  exact ⟨ha, hb⟩

theorem rootOf_eq_iff (h : IsConflictGraph graph) {a b : JsString}
    (ha : a ∈ freeIds graph taskIds) (hb : b ∈ freeIds graph taskIds) :
    rootOf (united graph taskIds) a = rootOf (united graph taskIds) b
      ↔ PathInside graph taskIds a b := by
  have hjoined := joined_united h taskIds
  rw [← eqvGen_subsetEdges_iff h, ← hjoined.represents.sameRoot_iff ha hb]
  constructor
  · intro heq
    exact ⟨_, (hjoined.leads_iff ha).mpr heq, (hjoined.leads_iff hb).mpr rfl⟩
  · rintro ⟨root, hrootA, hrootB⟩
    rw [(hjoined.leads_iff ha).mp hrootA, (hjoined.leads_iff hb).mp hrootB]

/-- The component of one root. -/
def IsRootComponent (graph : EpicConflictGraph) (taskIds : List JsString) (root : JsString)
    (component : EpicComponent N) : Prop :=
  component.members.Perm
      ((freeIds graph taskIds).filter fun id => rootOf (united graph taskIds) id = root)
    ∧ component.edgeCount = (subsetEdges graph (singletons graph taskIds)).countP
      fun edge => rootOf (united graph taskIds) edge.1 = root

/-- The components are those of the roots and those of the exclusive tasks. -/
theorem unsortedComponents_spec (host : PlanningHost) (numbers : PlanningNumbers N)
    (h : IsConflictGraph graph) (taskIds : List JsString) (densityThreshold : N) :
    (∀ component ∈ unsortedComponents host numbers graph taskIds densityThreshold,
        (∃ root, IsRootComponent graph taskIds root component)
        ∨ ∃ id ∈ taskIds, (graph.exclusive.get? id).isSome = true ∧ component.members = [id]
          ∧ component.edgeCount = 0) ∧ (∀ id ∈ freeIds graph taskIds,
        ∃ component ∈ unsortedComponents host numbers graph taskIds densityThreshold,
          IsRootComponent graph taskIds (rootOf (united graph taskIds) id) component)
      ∧ ∀ id ∈ taskIds, (graph.exclusive.get? id).isSome = true →
        ∃ component ∈ unsortedComponents host numbers graph taskIds densityThreshold,
          component.members = [id] := by
  have hjoined := joined_united h taskIds
  obtain ⟨hgroups, hnodup, hlast, hroots⟩ := hjoined.groupByRoot
  have hedges : ∀ edge ∈ subsetEdges graph (singletons graph taskIds),
      edge.1 ∈ freeIds graph taskIds := by
    rintro ⟨a, b⟩ hedge
    exact ((mem_subsetEdges h).mp hedge).2.2.2.1
  -- the component of one group
  have hgroup : ∀ root group, (groupByRoot (united graph taskIds)).1.get? root = some group →
      IsRootComponent graph taskIds root (groupComponent host numbers densityThreshold
        (countEdges (subsetEdges graph (singletons graph taskIds))
          (groupByRoot (united graph taskIds)).2) root group) := by
    intro root group hget
    have hfilter := hgroups root
    rw [hget, Option.getD_some] at hfilter
    refine ⟨?_, ?_⟩
    · rw [← hfilter]
      exact sortBy_perm host.localeCompare group
    · show ((countEdges _ _).get? root).getD 0 = _
      rw [hlast.countEdges hedges]
      refine List.countP_congr fun edge hedge => ?_
      rw [hroots _ (hedges edge hedge)]
  refine ⟨?_, ?_, ?_⟩
  · intro component hcomponent
    rcases List.mem_append.mp hcomponent with hgrouped | halone
    · obtain ⟨⟨root, group⟩, hbinding, rfl⟩ := List.mem_map.mp hgrouped
      exact Or.inl ⟨root, hgroup root group (OrderedMap.get?_of_mem hnodup hbinding)⟩
    · obtain ⟨id, hid, hreason⟩ := List.mem_filterMap.mp halone
      obtain ⟨reason, hget, rfl⟩ := Option.map_eq_some_iff.mp hreason
      exact Or.inr ⟨id, List.mem_eraseDups.mp hid, by rw [hget]; rfl, rfl, rfl⟩
  · intro id hid
    have hown : id ∈ ((groupByRoot (united graph taskIds)).1.get?
        (rootOf (united graph taskIds) id)).getD [] := by
      rw [hgroups, List.mem_filter]
      exact ⟨hid, decide_eq_true rfl⟩
    cases hget : (groupByRoot (united graph taskIds)).1.get? (rootOf (united graph taskIds) id) with
    | none =>
      rw [hget] at hown
      cases hown
    | some group =>
      exact ⟨_, List.mem_append_left _ (List.mem_map_of_mem (OrderedMap.mem_of_get? hget)),
        hgroup _ group hget⟩
  · intro id hid hexclusive
    obtain ⟨reason, hget⟩ := Option.isSome_iff_exists.mp hexclusive
    refine ⟨exclusiveComponent numbers id reason, List.mem_append_right _ ?_, rfl⟩
    refine List.mem_filterMap.mpr ⟨id, List.mem_eraseDups.mpr hid, ?_⟩
    rw [hget, Option.map_some]

/-- The components of a subset of the tasks: every id is in exactly one, paths
    inside the subset join what shares one, exclusive tasks are alone, and each
    adjacent pair is counted once. -/
structure AreComponents (graph : EpicConflictGraph) (taskIds : List JsString)
    (components : List (EpicComponent N)) : Prop where
  once : (components.flatMap fun component => component.members).Perm taskIds.eraseDups
  connected : ∀ a ∈ taskIds, ∀ b ∈ taskIds,
    graph.exclusive.get? a = none → graph.exclusive.get? b = none →
    ((∃ component ∈ components, a ∈ component.members ∧ b ∈ component.members)
      ↔ PathInside graph taskIds a b)
  alone : ∀ id ∈ taskIds, (graph.exclusive.get? id).isSome = true →
    ∀ component ∈ components, id ∈ component.members → component.members = [id]
  counted : ∀ component ∈ components, component.edgeCount
    = (pairsOf component.members).countP fun pair => graph.adjacent pair.1 pair.2

omit [LinearOrder N] in
theorem IsRootComponent.mem_iff {root : JsString} {component : EpicComponent N}
    (hroot : IsRootComponent graph taskIds root component) {id : JsString} :
    id ∈ component.members
      ↔ id ∈ freeIds graph taskIds ∧ rootOf (united graph taskIds) id = root := by
  rw [hroot.1.mem_iff, List.mem_filter, decide_eq_true_eq]

omit [LinearOrder N] in
theorem IsRootComponent.edgeCount_eq (h : IsConflictGraph graph) {root : JsString}
    {component : EpicComponent N} (hroot : IsRootComponent graph taskIds root component) :
    component.edgeCount
      = (pairsOf component.members).countP fun pair => graph.adjacent pair.1 pair.2 := by
  have hfree : (freeIds graph taskIds).Nodup := (nodup_eraseDups taskIds).filter _
  have hmembers : component.members.Nodup := hroot.1.nodup_iff.mpr (hfree.filter _)
  rw [hroot.2, List.countP_eq_length_filter]
  refine length_eq_countP_pairsOf hmembers h.symm ((nodup_subsetEdges h _).filter _) fun a b => ?_
  rw [List.mem_filter, mem_subsetEdges h, decide_eq_true_eq, hroot.mem_iff, hroot.mem_iff]
  constructor
  · rintro ⟨⟨hle, hne, hadjacent, ha, hb⟩, hown⟩
    -- the other end of the edge has the same root
    have hpath : PathInside graph taskIds a b :=
      Relation.ReflTransGen.single ⟨hadjacent, (mem_freeIds.mp ha).1, (mem_freeIds.mp hb).1⟩
    have hsame := (rootOf_eq_iff h ha hb).mpr hpath
    exact ⟨hle, hne, hadjacent, ⟨ha, hown⟩, hb, hsame ▸ hown⟩
  · rintro ⟨hle, hne, hadjacent, ⟨ha, hown⟩, hb, -⟩
    exact ⟨⟨hle, hne, hadjacent, ha, hb⟩, hown⟩

theorem areComponents_unsortedComponents (host : PlanningHost) (numbers : PlanningNumbers N)
    (h : IsConflictGraph graph) (taskIds : List JsString) (densityThreshold : N) :
    AreComponents graph taskIds
      (unsortedComponents host numbers graph taskIds densityThreshold) := by
  obtain ⟨hcases, hfree, hexclusive⟩ :=
    unsortedComponents_spec host numbers h taskIds densityThreshold
  have hnodup := (members_unsortedComponents host numbers graph taskIds densityThreshold).1
  refine ⟨?_, ?_, ?_, ?_⟩
  · refine (List.perm_ext_iff_of_nodup hnodup (nodup_eraseDups taskIds)).mpr fun id => ?_
    rw [List.mem_flatMap, List.mem_eraseDups]
    constructor
    · rintro ⟨component, hcomponent, hid⟩
      rcases hcases component hcomponent with ⟨root, hroot⟩ | ⟨other, hother, -, hmembers, -⟩
      · exact (mem_freeIds.mp (hroot.mem_iff.mp hid).1).1
      · rw [hmembers, List.mem_singleton] at hid
        exact hid ▸ hother
    · intro hid
      cases hget : graph.exclusive.get? id with
      | none =>
        have hmem := mem_freeIds.mpr ⟨hid, hget⟩
        obtain ⟨component, hcomponent, hroot⟩ := hfree id hmem
        exact ⟨component, hcomponent, hroot.mem_iff.mpr ⟨hmem, rfl⟩⟩
      | some reason =>
        obtain ⟨component, hcomponent, hmembers⟩ := hexclusive id hid (by rw [hget]; rfl)
        exact ⟨component, hcomponent, hmembers ▸ List.mem_singleton_self id⟩
  · intro a ha b hb hfreeA hfreeB
    have ha := mem_freeIds.mpr ⟨ha, hfreeA⟩
    have hb := mem_freeIds.mpr ⟨hb, hfreeB⟩
    rw [← rootOf_eq_iff h ha hb]
    constructor
    · rintro ⟨component, hcomponent, hinA, hinB⟩
      rcases hcases component hcomponent with ⟨root, hroot⟩ | ⟨other, -, hother, hmembers, -⟩
      · rw [(hroot.mem_iff.mp hinA).2, (hroot.mem_iff.mp hinB).2]
      · rw [hmembers, List.mem_singleton] at hinA
        rw [← hinA, hfreeA] at hother
        cases hother
    · intro hsame
      obtain ⟨component, hcomponent, hroot⟩ := hfree a ha
      exact ⟨component, hcomponent, hroot.mem_iff.mpr ⟨ha, rfl⟩,
        hroot.mem_iff.mpr ⟨hb, hsame.symm⟩⟩
  · intro id _ hid component hcomponent hmem
    rcases hcases component hcomponent with ⟨root, hroot⟩ | ⟨other, -, -, hmembers, -⟩
    · rw [(mem_freeIds.mp (hroot.mem_iff.mp hmem).1).2] at hid
      cases hid
    · rw [hmembers, List.mem_singleton] at hmem
      rw [hmembers, hmem]
  · intro component hcomponent
    rcases hcases component hcomponent with ⟨root, hroot⟩ | ⟨other, -, -, hmembers, hcount⟩
    · exact hroot.edgeCount_eq h
    · rw [hmembers, hcount]
      rfl

/-- The planner's components are the connected components of the conflict graph
    inside the subset. -/
theorem areComponents_partitionEpicComponents (host : PlanningHost) (numbers : PlanningNumbers N)
    (h : IsConflictGraph graph) (taskIds : List JsString) (densityThreshold : N) :
    AreComponents graph taskIds
      (partitionEpicComponents host numbers graph taskIds densityThreshold).components := by
  have hunsorted := areComponents_unsortedComponents host numbers h taskIds densityThreshold
  rw [partitionEpicComponents_eq]
  have hperm := sortBy_perm (fun a b : EpicComponent N => host.localeCompare a.id b.id)
    (unsortedComponents host numbers graph taskIds densityThreshold)
  refine ⟨(hperm.flatMap_right _).trans hunsorted.once, ?_, ?_, ?_⟩
  · intro a ha b hb hfreeA hfreeB
    rw [← hunsorted.connected a ha b hb hfreeA hfreeB]
    simp [hperm.mem_iff]
  · intro id hid hexclusive component hcomponent
    exact hunsorted.alone id hid hexclusive component (hperm.mem_iff.mp hcomponent)
  · intro component hcomponent
    exact hunsorted.counted component (hperm.mem_iff.mp hcomponent)

end Components

/-- Three tasks in a row, each sharing a file with the next, and one without a
    scope. -/
def chainedTasks : EpicConflictGraphInput ℤ where
  directory := js "/repo"
  tasks := [pendingTask "1.1" [] [], pendingTask "1.2" [] [], pendingTask "1.3" [] [],
    pendingTask "1.4" [] []]
  scopes := fun id =>
    if id = js "1.1" then [js "a.ts"] else if id = js "1.2" then [js "a.ts", js "b.ts"]
    else if id = js "1.3" then [js "b.ts"] else []
  leanConfig := ⟨true⟩
  hotFiles := []
  coWrites := none
  cochange := none

/-- Without the third task: one edge, and a task on its own. -/
theorem areComponents_chainedTasks :
    AreComponents (buildEpicConflictGraph codeUnitHost wholeNumbers chainedTasks)
      [js "1.1", js "1.2", js "1.4"] (partitionEpicComponents codeUnitHost wholeNumbers
        (buildEpicConflictGraph codeUnitHost wholeNumbers chainedTasks)
        [js "1.1", js "1.2", js "1.4"] 0).components :=
  areComponents_partitionEpicComponents codeUnitHost wholeNumbers
    (isConflictGraph_buildEpicConflictGraph codeUnitHost wholeNumbers chainedTasks) _ _

end OpencodeSwarm
