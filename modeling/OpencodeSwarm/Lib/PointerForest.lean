/-
  OpencodeSwarm.Lib.PointerForest

  The forest of a union-find: each node points to another one, a root points to
  itself.  Two operations change it.  A node is redirected to its root, which
  changes no root; one root is linked to another one, which joins two classes.
-/
import Mathlib.Data.List.Nodup
import Mathlib.Data.List.Perm.Subperm
import Mathlib.Data.List.Range
import Mathlib.Data.Nat.Find
import Mathlib.Logic.Function.Iterate
import Mathlib.Logic.Relation

namespace PointerForest

variable {α : Type*} {next : α → α} {v w root other : α}

/-- The pointers lead from `v` to the root. -/
def Leads (next : α → α) (v root : α) : Prop :=
  next root = root ∧ ∃ n, next^[n] v = root

/-- Two nodes have one root. -/
def SameRoot (next : α → α) (v w : α) : Prop :=
  ∃ root, Leads next v root ∧ Leads next w root

theorem Leads.refl (h : next root = root) : Leads next root root := ⟨h, 0, rfl⟩

theorem iterate_of_le (hroot : next root = root) {m n : Nat} (h : next^[m] v = root)
    (hle : m ≤ n) : next^[n] v = root := by
  obtain ⟨k, rfl⟩ := Nat.exists_eq_add_of_le hle
  rw [Nat.add_comm, Function.iterate_add_apply, h]
  exact Function.iterate_fixed hroot k

theorem Leads.unique (h : Leads next v root) (h' : Leads next v other) : root = other := by
  obtain ⟨hroot, m, hm⟩ := h
  obtain ⟨hother, n, hn⟩ := h'
  rw [← iterate_of_le hroot hm (Nat.le_max_left m n),
    ← iterate_of_le hother hn (Nat.le_max_right m n)]

theorem Leads.cons (h : Leads next (next v) root) : Leads next v root := by
  obtain ⟨hroot, n, hn⟩ := h
  exact ⟨hroot, n + 1, hn⟩

theorem Leads.tail (h : Leads next v root) : Leads next (next v) root := by
  obtain ⟨hroot, n, hn⟩ := h
  refine ⟨hroot, n, ?_⟩
  rw [← Function.iterate_succ_apply, Function.iterate_succ_apply', hn, hroot]

theorem SameRoot.symm (h : SameRoot next v w) : SameRoot next w v := by
  obtain ⟨root, hv, hw⟩ := h
  exact ⟨root, hw, hv⟩

theorem SameRoot.trans {u : α} (h : SameRoot next u v) (h' : SameRoot next v w) :
    SameRoot next u w := by
  obtain ⟨root, hu, hv⟩ := h
  obtain ⟨other, hv', hw⟩ := h'
  exact ⟨root, hu, hv.unique hv' ▸ hw⟩

/-! ## The length of a path -/

/-- Inside a list of nodes the root is reached before the list is used up: the
    nodes of a shortest path are distinct. -/
theorem Leads.iterate_length {nodes : List α} (hclosed : ∀ u ∈ nodes, next u ∈ nodes)
    (hv : v ∈ nodes) (h : Leads next v root) : next^[nodes.length] v = root := by
  classical
  obtain ⟨hroot, hreach⟩ := h
  obtain ⟨n, hn, hmin⟩ : ∃ n, next^[n] v = root ∧ ∀ m < n, next^[m] v ≠ root :=
    ⟨Nat.find hreach, Nat.find_spec hreach, fun m hm => Nat.find_min hreach hm⟩
  have hinside : ∀ i, next^[i] v ∈ nodes := by
    intro i
    induction i with
    | zero => exact hv
    | succ i ih =>
      rw [Function.iterate_succ_apply']
      exact hclosed _ ih
  -- a node met twice would make the path shorter
  have hnodup : ((List.range n).map fun i => next^[i] v).Nodup := by
    refine List.Nodup.map_on ?_ List.nodup_range
    have hlt : ∀ i j, i < j → j < n → next^[i] v ≠ next^[j] v := by
      intro i j hij hj heq
      refine hmin (n - (j - i)) (by omega) ?_
      have hshort : n - (j - i) = (n - j) + i := by omega
      have hlong : n = (n - j) + j := by omega
      rw [hshort, Function.iterate_add_apply, heq, ← Function.iterate_add_apply, ← hlong, hn]
    intro i hi j hj heq
    rcases Nat.lt_trichotomy i j with h | h | h
    · exact absurd heq (hlt i j h (List.mem_range.mp hj))
    · exact h
    · exact absurd heq.symm (hlt j i h (List.mem_range.mp hi))
  have hsub : ((List.range n).map fun i => next^[i] v) ⊆ nodes := by
    intro u hu
    obtain ⟨i, -, rfl⟩ := List.mem_map.mp hu
    exact hinside i
  have hle := (List.Nodup.subperm hnodup hsub).length_le
  rw [List.length_map, List.length_range] at hle
  exact iterate_of_le hroot hn hle

/-! ## Redirecting a node -/

section Update

variable [DecidableEq α]

theorem update_root (hroot : next root = root) (v : α) :
    Function.update next v root root = root := by
  by_cases hv : root = v
  · rw [hv, Function.update_self]
  · rw [Function.update_of_ne hv, hroot]

theorem Leads.redirect (hv : Leads next v root) (h : Leads next w other) :
    Leads (Function.update next v root) w other := by
  have hstay := update_root hv.1 v
  obtain ⟨hother, n, hn⟩ := h
  induction n generalizing w with
  | zero =>
    subst hn
    by_cases hw : w = v
    · have heq : root = w := hv.unique (hw ▸ Leads.refl hother)
      rw [heq] at hstay ⊢
      exact Leads.refl hstay
    · refine Leads.refl ?_
      rwa [Function.update_of_ne hw]
  | succ n ih =>
    refine Leads.cons ?_
    by_cases hw : w = v
    · have heq : root = other := hv.unique ⟨hother, n + 1, hw ▸ hn⟩
      rw [hw, Function.update_self, ← heq]
      exact Leads.refl hstay
    · rw [Function.update_of_ne hw]
      exact ih hn

/-! ## Linking two roots -/

/-- One root is linked to another one: its class goes over to that root. -/
theorem Leads.link {ra rb : α} (hra : next ra = ra) (hrb : next rb = rb) (hne : ra ≠ rb)
    (h : Leads next w other) :
    Leads (Function.update next ra rb) w (if other = ra then rb else other) := by
  have hstay : Function.update next ra rb rb = rb := by
    rw [Function.update_of_ne hne.symm, hrb]
  obtain ⟨hother, n, hn⟩ := h
  induction n generalizing w with
  | zero =>
    have hn : w = other := hn
    subst hn
    split
    · next heq =>
      refine Leads.cons ?_
      rw [heq, Function.update_self]
      exact Leads.refl hstay
    · next hw =>
      refine Leads.refl ?_
      rwa [Function.update_of_ne hw]
  | succ n ih =>
    by_cases hw : w = ra
    · have heq : other = ra := by
        rw [← hn, hw]
        exact Function.iterate_fixed hra (n + 1)
      rw [if_pos heq, hw]
      refine Leads.cons ?_
      rw [Function.update_self]
      exact Leads.refl hstay
    · refine Leads.cons ?_
      rw [Function.update_of_ne hw]
      exact ih hn

end Update

/-! ## Classes -/

/-- `edges` are joined: every node leads to a root, along edges only, and the ends
    of an edge have one root. -/
structure Represents (next : α → α) (nodes : List α) (edges : List (α × α)) : Prop where
  closed : ∀ v ∈ nodes, next v ∈ nodes
  leads : ∀ v ∈ nodes, ∃ root, Leads next v root
  along : ∀ v ∈ nodes, ∀ root, Leads next v root →
    Relation.EqvGen (fun a b => (a, b) ∈ edges) v root
  joined : ∀ a b, (a, b) ∈ edges → SameRoot next a b

section Classes

variable {nodes : List α} {edges : List (α × α)}

theorem Represents.root_mem (h : Represents next nodes edges) (hv : v ∈ nodes)
    (hroot : Leads next v root) : root ∈ nodes := by
  obtain ⟨-, n, rfl⟩ := hroot
  induction n generalizing v with
  | zero => exact hv
  | succ n ih => exact ih (h.closed v hv)

theorem Represents.sameRoot_iff (h : Represents next nodes edges) (hv : v ∈ nodes)
    (hw : w ∈ nodes) :
    SameRoot next v w ↔ Relation.EqvGen (fun a b => (a, b) ∈ edges) v w := by
  constructor
  · rintro ⟨root, hleads, hleads'⟩
    exact (h.along v hv root hleads).trans _ _ _ ((h.along w hw root hleads').symm _ _)
  · intro hconnected
    have hor : v = w ∨ SameRoot next v w := by
      clear hv hw
      induction hconnected with
      | rel a b hedge => exact Or.inr (h.joined a b hedge)
      | refl a => exact Or.inl rfl
      | symm a b _ ih => exact ih.imp Eq.symm SameRoot.symm
      | trans a b c _ _ ih ih' =>
        rcases ih with rfl | hab
        · exact ih'
        · rcases ih' with rfl | hbc
          · exact Or.inr hab
          · exact Or.inr (hab.trans hbc)
    rcases hor with rfl | hsame
    · obtain ⟨root, hroot⟩ := h.leads v hv
      exact ⟨root, hroot, hroot⟩
    · exact hsame

theorem Represents.start (hself : ∀ v, next v = v) (nodes : List α) : Represents next nodes [] := by
  refine ⟨fun v hv => (hself v).symm ▸ hv, fun v _ => ⟨v, Leads.refl (hself v)⟩, ?_, ?_⟩
  · intro v _ root hroot
    rw [hroot.unique (Leads.refl (hself v))]
    exact Relation.EqvGen.refl v
  · intro a b hedge
    cases hedge

theorem Represents.concat_same (h : Represents next nodes edges) (hsame : SameRoot next v w) :
    Represents next nodes (edges ++ [(v, w)]) := by
  refine ⟨h.closed, h.leads, ?_, ?_⟩
  · intro u hu root hroot
    exact Relation.EqvGen.mono (fun _ _ => List.mem_append_left _) _ _ (h.along u hu root hroot)
  · intro a b hedge
    rcases List.mem_append.mp hedge with hold | hnew
    · exact h.joined a b hold
    · cases List.mem_singleton.mp hnew
      exact hsame

variable [DecidableEq α]

theorem Represents.redirect (h : Represents next nodes edges) (hv : v ∈ nodes)
    (hroot : Leads next v root) : Represents (Function.update next v root) nodes edges := by
  have hleads : ∀ u ∈ nodes, ∀ other, Leads (Function.update next v root) u other →
      Leads next u other := by
    intro u hu other hother
    obtain ⟨old, hold⟩ := h.leads u hu
    exact (hroot.redirect hold).unique hother ▸ hold
  refine ⟨?_, ?_, ?_, ?_⟩
  · intro u hu
    by_cases heq : u = v
    · rw [heq, Function.update_self]
      exact h.root_mem hv hroot
    · rw [Function.update_of_ne heq]
      exact h.closed u hu
  · intro u hu
    obtain ⟨old, hold⟩ := h.leads u hu
    exact ⟨old, hroot.redirect hold⟩
  · intro u hu other hother
    exact h.along u hu other (hleads u hu other hother)
  · intro a b hedge
    obtain ⟨other, ha, hb⟩ := h.joined a b hedge
    exact ⟨other, hroot.redirect ha, hroot.redirect hb⟩

/-- Linking the roots of two nodes adds an edge between the nodes. -/
theorem Represents.link (h : Represents next nodes edges) (hv : v ∈ nodes) (hw : w ∈ nodes)
    {ra rb : α} (hra : Leads next v ra) (hrb : Leads next w rb) (hne : ra ≠ rb) :
    Represents (Function.update next ra rb) nodes (edges ++ [(v, w)]) := by
  have hlink : ∀ {u other}, Leads next u other →
      Leads (Function.update next ra rb) u (if other = ra then rb else other) :=
    fun hother => hother.link hra.1 hrb.1 hne
  have hold : ∀ u ∈ nodes, ∀ other, Leads next u other →
      Relation.EqvGen (fun a b => (a, b) ∈ edges ++ [(v, w)]) u other := fun u hu other hother =>
    Relation.EqvGen.mono (fun _ _ => List.mem_append_left _) _ _ (h.along u hu other hother)
  have hjoin : Relation.EqvGen (fun a b => (a, b) ∈ edges ++ [(v, w)]) v w :=
    Relation.EqvGen.rel v w (List.mem_append_right _ List.mem_cons_self)
  refine ⟨?_, ?_, ?_, ?_⟩
  · intro u hu
    by_cases hra' : u = ra
    · rw [hra', Function.update_self]
      exact h.root_mem hw hrb
    · rw [Function.update_of_ne hra']
      exact h.closed u hu
  · intro u hu
    obtain ⟨other, hother⟩ := h.leads u hu
    exact ⟨_, hlink hother⟩
  · intro u hu other hother
    obtain ⟨before, hbefore⟩ := h.leads u hu
    rw [← (hlink hbefore).unique hother]
    split
    · next heq =>
      -- from `u` to the old root, back to `v`, over the new edge, and on to the other root
      have hu := hold u hu before hbefore
      rw [heq] at hu
      exact ((hu.trans _ _ _ ((hold v hv ra hra).symm _ _)).trans _ _ _ hjoin).trans _ _ _
        (hold w hw rb hrb)
    · exact hold u hu before hbefore
  · intro a b hedge
    rcases List.mem_append.mp hedge with hedge | hnew
    · obtain ⟨other, ha, hb⟩ := h.joined a b hedge
      exact ⟨_, hlink ha, hlink hb⟩
    · cases List.mem_singleton.mp hnew
      have hleft := hlink hra
      have hright := hlink hrb
      rw [if_pos rfl] at hleft
      rw [if_neg hne.symm] at hright
      exact ⟨rb, hleft, hright⟩

end Classes

end PointerForest
