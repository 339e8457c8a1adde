/-
  OpencodeSwarm.Epic.ComponentFacts

  The components of the conflict graph share no task.  The union-find never
  leaves its keys, every key goes into one group, and an exclusive task is no
  key; so a task finds its component under its id, and the mode of the component
  under the component's.
-/
import OpencodeSwarm.Epic.Components

namespace OpencodeSwarm

open Js

variable {N : Type} [LinearOrder N]

theorem nodup_eraseDups (ids : List JsString) : ids.eraseDups.Nodup := by
  induction ids using List.reverseRecOn with
  | nil => exact List.nodup_nil
  | append_singleton ids last ih =>
    rw [List.eraseDups_append]
    by_cases hmem : last ∈ ids
    · have hnone : [last].removeAll ids = [] := by simp [List.removeAll, hmem]
      rw [hnone, List.eraseDups_nil, List.append_nil]
      exact ih
    · have hlast : ([last].removeAll ids).eraseDups = [last] := by
        simp [List.removeAll, hmem, List.eraseDups_cons]
      rw [hlast]
      refine List.nodup_append.mpr ⟨ih, List.nodup_singleton _, ?_⟩
      rintro id hid other hother rfl
      rw [List.mem_singleton.mp hother] at hid
      exact hmem (List.mem_eraseDups.mp hid)

/-! ## The union-find keeps to its keys -/

/-- Parents are keys, and the keys are among `ids`. -/
structure KeepsTo (ids : List JsString) (parent : ParentMap) : Prop where
  nodup : parent.keys.Nodup
  within : ∀ id ∈ parent.keys, id ∈ ids
  parents : ∀ id next, parent.get? id = some next → next ∈ parent.keys

/-- The same keys, and still no other parents. -/
def SameKeys (ids : List JsString) (before after : ParentMap) : Prop :=
  KeepsTo ids after ∧ ∀ id, id ∈ after.keys ↔ id ∈ before.keys

section UnionFind

variable {ids : List JsString} {parent : ParentMap}

theorem KeepsTo.refl (h : KeepsTo ids parent) : SameKeys ids parent parent :=
  ⟨h, fun _ => Iff.rfl⟩

theorem SameKeys.trans {middle after : ParentMap} (h : SameKeys ids parent middle)
    (h' : SameKeys ids middle after) : SameKeys ids parent after :=
  ⟨h'.1, fun id => (h'.2 id).trans (h.2 id)⟩

theorem KeepsTo.set (h : KeepsTo ids parent) {id next : JsString} (hid : id ∈ parent.keys)
    (hnext : next ∈ parent.keys) : SameKeys ids parent (parent.set id next) := by
  have hkeys : ∀ other, other ∈ (parent.set id next).keys ↔ other ∈ parent.keys := by
    intro other
    rw [OrderedMap.mem_keys_set_iff]
    constructor
    · rintro (rfl | hold)
      · exact hid
      · exact hold
    · exact Or.inr
  refine ⟨⟨OrderedMap.nodup_keys_set h.nodup, ?_, ?_⟩, hkeys⟩
  · intro other hother
    exact h.within other ((hkeys other).mp hother)
  · intro other value hget
    rw [OrderedMap.get?_set] at hget
    split at hget
    · cases hget
      exact (hkeys next).mpr hnext
    · exact (hkeys value).mpr (h.parents other value hget)

theorem KeepsTo.findRoot_mem (h : KeepsTo ids parent) (fuel : Nat) {root : JsString}
    (hroot : root ∈ parent.keys) : findRoot parent fuel root ∈ parent.keys := by
  induction fuel generalizing root with
  | zero => exact hroot
  | succ fuel ih =>
    unfold findRoot
    split
    · exact hroot
    rename_i next hnext
    split
    · exact hroot
    · exact ih (h.parents root next hnext)

theorem KeepsTo.compressPath (h : KeepsTo ids parent) (fuel : Nat) {root node : JsString}
    (hroot : root ∈ parent.keys) (hnode : node ∈ parent.keys) :
    SameKeys ids parent (compressPath root fuel node parent) := by
  induction fuel generalizing node parent with
  | zero => exact h.refl
  | succ fuel ih =>
    unfold OpencodeSwarm.compressPath
    split
    · exact h.refl
    have hset := h.set hnode hroot
    have hnext : (parent.get? node).getD root ∈ parent.keys := by
      cases hget : parent.get? node with
      | none => exact hroot
      | some next => exact h.parents node next hget
    exact hset.trans (ih hset.1 ((hset.2 root).mpr hroot) ((hset.2 _).mpr hnext))

theorem KeepsTo.find (h : KeepsTo ids parent) {id : JsString} (hid : id ∈ parent.keys) :
    (find parent id).1 ∈ parent.keys ∧ SameKeys ids parent (find parent id).2 :=
  have hroot := h.findRoot_mem parent.length hid
  ⟨hroot, h.compressPath parent.length hroot hid⟩

theorem KeepsTo.unite (h : KeepsTo ids parent) {edge : JsString × JsString}
    (hfirst : edge.1 ∈ parent.keys) (hsecond : edge.2 ∈ parent.keys) :
    SameKeys ids parent (unite parent edge) := by
  obtain ⟨hra, hafter⟩ := h.find hfirst
  obtain ⟨hrb, hlast⟩ := hafter.1.find ((hafter.2 _).mpr hsecond)
  have hboth := hafter.trans hlast
  unfold OpencodeSwarm.unite
  dsimp only
  split
  · refine hboth.trans (hboth.1.set ((hboth.2 _).mpr hra) ?_)
    exact (hlast.2 _).mpr hrb
  · exact hboth

theorem KeepsTo.foldl_unite {edges : List (JsString × JsString)} (h : KeepsTo ids parent)
    (hedges : ∀ edge ∈ edges, edge.1 ∈ parent.keys ∧ edge.2 ∈ parent.keys) :
    SameKeys ids parent (edges.foldl OpencodeSwarm.unite parent) := by
  induction edges generalizing parent with
  | nil => exact h.refl
  | cons edge edges ih =>
    obtain ⟨hfirst, hsecond⟩ := hedges edge List.mem_cons_self
    have hunite := h.unite hfirst hsecond
    refine hunite.trans (ih hunite.1 fun other hother => ?_)
    obtain ⟨hother1, hother2⟩ := hedges other (List.mem_cons_of_mem _ hother)
    exact ⟨(hunite.2 _).mpr hother1, (hunite.2 _).mpr hother2⟩

theorem subsetEdges_mem (graph : EpicConflictGraph) {edge : JsString × JsString}
    (hedge : edge ∈ subsetEdges graph parent) :
    edge.1 ∈ parent.keys ∧ edge.2 ∈ parent.keys := by
  obtain ⟨⟨a, neighbours⟩, -, hmem⟩ := List.mem_flatMap.mp hedge
  dsimp only at hmem
  split at hmem
  · next ha =>
    obtain ⟨b, hb, rfl⟩ := List.mem_map.mp hmem
    have hkept := (List.mem_filter.mp hb).2
    rw [Bool.and_eq_true] at hkept
    exact ⟨OrderedMap.mem_keys_iff.mpr ha, OrderedMap.mem_keys_iff.mpr hkept.2⟩
  · cases hmem

theorem groupByRoot_spec (parent : ParentMap) :
    (groupByRoot parent).1.values.flatten.Perm parent.keys
      ∧ ∀ group ∈ (groupByRoot parent).1.values, group ≠ [] := by
  unfold groupByRoot
  generalize hids : parent.keys = ids
  clear hids
  induction ids using List.reverseRecOn with
  | nil => exact ⟨List.Perm.refl _, fun _ hgroup => (nomatch hgroup)⟩
  | append_singleton ids last ih =>
    rw [List.foldl_concat]
    generalize ids.foldl _ _ = state at ih ⊢
    obtain ⟨hperm, hne⟩ := ih
    dsimp only
    generalize (find state.2 last).1 = root
    refine ⟨(OrderedMap.flatten_values_push state.1 root last).trans
      (hperm.append_right [last]), ?_⟩
    intro group hgroup
    obtain ⟨binding, hbinding, rfl⟩ := List.mem_map.mp hgroup
    rcases OrderedMap.mem_set hbinding with rfl | hold
    · exact List.append_ne_nil_of_right_ne_nil _ (List.cons_ne_nil _ _)
    · exact hne _ (List.mem_map_of_mem hold)

end UnionFind

/-! ## The components -/

/-- `components` of `partitionEpicComponents`, before they are sorted by id. -/
def unsortedComponents (host : PlanningHost) (numbers : PlanningNumbers N)
    (graph : EpicConflictGraph) (taskIds : List JsString) (densityThreshold : N) :
    List (EpicComponent N) :=
  let members := taskIds.eraseDups
  let single : ParentMap :=
    (members.filter fun id => (graph.exclusive.get? id).isNone).map fun id => (id, id)
  let (groups, parent) := groupByRoot ((subsetEdges graph single).foldl unite single)
  groups.map (fun (root, group) =>
      groupComponent host numbers densityThreshold (countEdges (subsetEdges graph single) parent)
        root group)
    ++ members.filterMap fun id => (graph.exclusive.get? id).map (exclusiveComponent numbers id)

/-- The components are the sorted ones, and a task finds its component's id. -/
theorem partitionEpicComponents_eq (host : PlanningHost) (numbers : PlanningNumbers N)
    (graph : EpicConflictGraph) (taskIds : List JsString) (densityThreshold : N) :
    partitionEpicComponents host numbers graph taskIds densityThreshold
      = { components := sortBy (fun a b => host.localeCompare a.id b.id)
            (unsortedComponents host numbers graph taskIds densityThreshold)
          componentOf :=
            (unsortedComponents host numbers graph taskIds densityThreshold).foldl
              (fun (componentOf : OrderedMap JsString JsString) component =>
                component.members.foldl
                  (fun (componentOf : OrderedMap JsString JsString) id =>
                    componentOf.set id component.id) componentOf) []
          threshold := densityThreshold } := rfl

section Partition

variable {host : PlanningHost} {numbers : PlanningNumbers N} {graph : EpicConflictGraph}
  {taskIds : List JsString} {densityThreshold : N}

theorem members_unsortedComponents (host : PlanningHost) (numbers : PlanningNumbers N)
    (graph : EpicConflictGraph) (taskIds : List JsString) (densityThreshold : N) :
    ((unsortedComponents host numbers graph taskIds densityThreshold).flatMap
        fun component => component.members).Nodup
      ∧ ∀ component ∈ unsortedComponents host numbers graph taskIds densityThreshold,
          component.id ∈ component.members := by
  dsimp only [unsortedComponents]
  generalize hmembers : taskIds.eraseDups = members
  have hnodup : members.Nodup := by
    rw [← hmembers]
    exact nodup_eraseDups _
  generalize hsingle : ((members.filter fun id => (graph.exclusive.get? id).isNone).map
    fun id => (id, id) : ParentMap) = single
  have hkeys : OrderedMap.keys single = members.filter fun id =>
    (graph.exclusive.get? id).isNone := by
    rw [← hsingle, OrderedMap.keys, List.map_map]
    exact List.map_id _
  have hstart : KeepsTo (members.filter fun id => (graph.exclusive.get? id).isNone) single := by
    refine ⟨hkeys ▸ hnodup.filter _, fun id hid => hkeys ▸ hid, fun id next hget => ?_⟩
    have hmem := OrderedMap.mem_of_get? hget
    rw [← hsingle] at hmem
    obtain ⟨other, hother, heq⟩ := List.mem_map.mp hmem
    cases heq
    rwa [hkeys]
  have hunited := hstart.foldl_unite fun edge hedge => subsetEdges_mem graph hedge
  obtain ⟨hgroups, hne⟩ := groupByRoot_spec ((subsetEdges graph single).foldl unite single)
  generalize groupByRoot ((subsetEdges graph single).foldl unite single) = grouped at hgroups hne ⊢
  obtain ⟨groups, parent⟩ := grouped
  rw [List.flatMap_append]
  have hgrouped : ((groups.map fun binding => groupComponent host numbers densityThreshold
      (countEdges (subsetEdges graph single) parent) binding.1 binding.2).flatMap
        fun component => component.members).Perm
      ((subsetEdges graph single).foldl unite single).keys := by
    refine List.Perm.trans ?_ hgroups
    rw [List.flatMap_map]
    show (groups.flatMap fun binding => sortBy host.localeCompare binding.2).Perm
      (groups.map Prod.snd).flatten
    exact List.Perm.flatMap_left groups fun binding _ => sortBy_perm _ _
  have halone : (members.filterMap fun id => (graph.exclusive.get? id).map
      (exclusiveComponent numbers id)).flatMap (fun component => component.members)
      = members.filter fun id => (graph.exclusive.get? id).isSome := by
    clear hgrouped hunited hstart hkeys hsingle hnodup hmembers
    induction members with
    | nil => rfl
    | cons id rest ih =>
      cases hget : graph.exclusive.get? id with
      | none =>
        rw [List.filterMap_cons_none (by rw [hget]; rfl), List.filter_cons_of_neg (by simp [hget])]
        exact ih
      | some reason =>
        rw [List.filterMap_cons_some (by rw [hget]; rfl), List.filter_cons_of_pos (by simp [hget]),
          List.flatMap_cons, ih]
        rfl
  constructor
  · rw [halone]
    refine List.nodup_append.mpr ⟨hgrouped.nodup_iff.mpr hunited.1.nodup, hnodup.filter _, ?_⟩
    rintro id hid other hother rfl
    have hnone := hunited.1.within id (hgrouped.mem_iff.mp hid)
    have hnot := (List.mem_filter.mp hnone).2
    have hsome := (List.mem_filter.mp hother).2
    rw [Option.isNone_iff_eq_none] at hnot
    rw [hnot] at hsome
    cases hsome
  · intro component hcomponent
    rcases List.mem_append.mp hcomponent with hgroup | hexclusive
    · obtain ⟨binding, hbinding, rfl⟩ := List.mem_map.mp hgroup
      have hgroup := hne binding.2 (List.mem_map_of_mem hbinding)
      show (sortBy host.localeCompare binding.2).headD [] ∈ sortBy host.localeCompare binding.2
      have hperm := sortBy_perm host.localeCompare binding.2
      cases hsorted : sortBy host.localeCompare binding.2 with
      | nil =>
        rw [hsorted] at hperm
        exact absurd hperm.symm.eq_nil hgroup
      | cons first rest => exact List.mem_cons_self
    · obtain ⟨id, -, hid⟩ := List.mem_filterMap.mp hexclusive
      obtain ⟨reason, -, rfl⟩ := Option.map_eq_some_iff.mp hid
      exact List.mem_singleton_self id

variable {component : EpicComponent N}

theorem componentOf_of_mem
    (hcomponent : component
      ∈ (partitionEpicComponents host numbers graph taskIds densityThreshold).components)
    {id : JsString} (hid : id ∈ component.members) :
    (partitionEpicComponents host numbers graph taskIds densityThreshold).componentOf.get? id
      = some component.id := by
  rw [partitionEpicComponents_eq] at hcomponent ⊢
  have hnodup := (members_unsortedComponents host numbers graph taskIds densityThreshold).1
  have hmem := (sortBy_perm _ _).mem_iff.mp hcomponent
  generalize unsortedComponents host numbers graph taskIds densityThreshold = components at *
  have hbindings : components.foldl
      (fun (componentOf : OrderedMap JsString JsString) component =>
        component.members.foldl
          (fun (componentOf : OrderedMap JsString JsString) id => componentOf.set id component.id)
          componentOf) []
      = (components.flatMap fun component => component.members.map fun id => (id, component.id)).foldl
          (fun (componentOf : OrderedMap JsString JsString) binding =>
            componentOf.set binding.1 binding.2) [] := by
    rw [List.foldl_flatMap]
    congr 1
    funext componentOf component
    rw [List.foldl_map]
  rw [hbindings]
  refine OrderedMap.get?_foldl_set ?_ (List.mem_flatMap.mpr ⟨component, hmem, ?_⟩)
  · rw [List.map_flatMap]
    simpa only [List.map_map, Function.comp_def, List.map_id'] using hnodup
  · exact List.mem_map_of_mem hid

theorem modes_of_mem
    (hcomponent : component
      ∈ (partitionEpicComponents host numbers graph taskIds densityThreshold).components) :
    OrderedMap.get? ((partitionEpicComponents host numbers graph taskIds
      densityThreshold).components.foldl
        (fun modes component => OrderedMap.set modes component.id component.mode) [])
      component.id = some component.mode := by
  have hfacts := members_unsortedComponents host numbers graph taskIds densityThreshold
  rw [partitionEpicComponents_eq] at hcomponent ⊢
  have hperm := sortBy_perm (fun a b : EpicComponent N => host.localeCompare a.id b.id)
    (unsortedComponents host numbers graph taskIds densityThreshold)
  obtain ⟨hnodup, hown⟩ := hfacts
  have hids : ((unsortedComponents host numbers graph taskIds densityThreshold).map
      fun component => component.id).Nodup := by
    rw [List.nodup_flatMap] at hnodup
    refine List.pairwise_map.mpr (hnodup.2.imp_of_mem ?_)
    intro first second hfirst hsecond hdisjoint heq
    exact hdisjoint (hown first hfirst) (heq ▸ hown second hsecond)
  generalize unsortedComponents host numbers graph taskIds densityThreshold = components at *
  have hsortedIds := (hperm.map fun component => component.id).nodup_iff.mpr hids
  generalize sortBy (fun a b : EpicComponent N => host.localeCompare a.id b.id) components
    = sorted at *
  have hmap : sorted.foldl
      (fun modes component => OrderedMap.set modes component.id component.mode) []
      = (sorted.map fun component => (component.id, component.mode)).foldl
          (fun modes binding => OrderedMap.set modes binding.1 binding.2) [] := by
    rw [List.foldl_map]
  rw [hmap]
  refine OrderedMap.get?_foldl_set ?_ (List.mem_map_of_mem hcomponent)
  rw [List.map_map]
  exact hsortedIds

end Partition

end OpencodeSwarm
