/-
  OpencodeSwarm.Lib.Kahn

  Kahn's algorithm over a list of edges; how a vertex is put into the queue is
  left open.  A vertex enters the queue when the last edge from an unsorted
  vertex is released, so it enters it once, and as many rounds as there are
  vertices empty the queue.
-/
import Mathlib.Algebra.Group.Basic
import Mathlib.Data.List.Basic
import Mathlib.Data.List.Nodup
import Mathlib.Data.List.Perm.Subperm
import Mathlib.Logic.Function.Basic

namespace Kahn

variable {α : Type*} [DecidableEq α]

/-- The targets of the edges from a vertex, in the order of the edges. -/
def adjacent (edges : List (α × α)) (source : α) : List α :=
  (edges.filter fun edge => edge.1 = source).map Prod.snd

/-- The number of edges into a vertex from vertices that are not `done`. -/
def pending (edges : List (α × α)) (done : List α) (target : α) : Nat :=
  edges.countP fun edge => edge.1 ∉ done ∧ edge.2 = target

/-- In-degrees, queue and sorted vertices. -/
structure State (α : Type*) where
  degree : α → Int
  queue : List α
  sorted : List α

/-- One release: the in-degree falls, and a vertex without any is queued. -/
def release (insert : α → List α → List α) (front : (α → Int) × List α) (next : α) :
    (α → Int) × List α :=
  let lowered := front.1 next - 1
  (Function.update front.1 next lowered, if lowered = 0 then insert next front.2 else front.2)

/-- One round: the first vertex of the queue is sorted and its edges are released. -/
def visit (insert : α → List α → List α) (edges : List (α × α)) (state : State α) : State α :=
  match state.queue with
  | [] => state
  | current :: queue =>
    let front := (adjacent edges current).foldl (release insert) (state.degree, queue)
    { degree := front.1, queue := front.2, sorted := state.sorted ++ [current] }

/-- So many rounds. -/
def rounds (insert : α → List α → List α) (edges : List (α × α)) : Nat → State α → State α
  | 0, state => state
  | fuel + 1, state => rounds insert edges fuel (visit insert edges state)

/-! ## Counting edges -/

theorem count_adjacent (edges : List (α × α)) (source target : α) :
    (adjacent edges source).count target
      = edges.countP fun edge => edge.1 = source ∧ edge.2 = target := by
  rw [adjacent, List.count, List.countP_map, List.countP_filter]
  apply List.countP_congr
  simp [and_comm]

theorem pending_concat (edges : List (α × α)) {done : List α} {source : α} (hnew : source ∉ done)
    (target : α) :
    pending edges done target
      = pending edges (done ++ [source]) target + (adjacent edges source).count target := by
  rw [count_adjacent]
  unfold pending
  induction edges with
  | nil => rfl
  | cons edge edges ih =>
    simp only [List.countP_cons, ih]
    by_cases htarget : edge.2 = target
    · by_cases hsource : edge.1 = source
      · simp [htarget, hsource, hnew]
        omega
      · simp [htarget, hsource]
        omega
    · simp [htarget]

/-! ## One round -/

/-- What a round keeps: each vertex is queued or sorted at most once, and exactly
    when no edge into it is pending. -/
structure Invariant (vertices : List α) (edges : List (α × α)) (state : State α) : Prop where
  nodup : (state.sorted ++ state.queue).Nodup
  degree : ∀ v, state.degree v = pending edges state.sorted v
  free : ∀ v, v ∈ state.sorted ++ state.queue ↔ v ∈ vertices ∧ pending edges state.sorted v = 0

/-- The same between two releases: the edges of `rest` are not released yet. -/
structure Releasing (vertices : List α) (edges : List (α × α)) (done rest : List α)
    (front : (α → Int) × List α) : Prop where
  nodup : (done ++ front.2).Nodup
  degree : ∀ v, front.1 v = pending edges done v + rest.count v
  free : ∀ v, v ∈ done ++ front.2 ↔ v ∈ vertices ∧ pending edges done v + rest.count v = 0

section Rounds

variable {insert : α → List α → List α} {vertices : List α} {edges : List (α × α)} {done : List α}
  {rest : List α} {front : (α → Int) × List α}

theorem Releasing.step (hinsert : ∀ v queue, (insert v queue).Perm (v :: queue)) {next : α}
    (hnext : next ∈ vertices) (h : Releasing vertices edges done (next :: rest) front) :
    Releasing vertices edges done rest (release insert front next) := by
  have hlowered : front.1 next - 1 = pending edges done next + rest.count next := by
    rw [h.degree next, List.count_cons_self]
    omega
  have hdegree : ∀ v, (release insert front next).1 v = pending edges done v + rest.count v := by
    intro v
    unfold release
    by_cases hv : v = next
    · subst hv
      rw [← hlowered]
      exact Function.update_self ..
    · dsimp only
      rw [Function.update_of_ne hv, h.degree v, List.count_cons_of_ne (Ne.symm hv)]
  -- `next` still has a pending edge, so it is neither queued nor done
  have hout : next ∉ done ++ front.2 := by
    intro hmem
    have hzero := ((h.free next).mp hmem).2
    rw [List.count_cons_self] at hzero
    omega
  have hother : ∀ v, v ≠ next →
      (v ∈ done ++ front.2 ↔ v ∈ vertices ∧ pending edges done v + rest.count v = 0) := by
    intro v hv
    rw [h.free v, List.count_cons_of_ne (Ne.symm hv)]
  by_cases hzero : front.1 next - 1 = 0
  · have hqueue : (release insert front next).2 = insert next front.2 := if_pos hzero
    have hperm : (done ++ (release insert front next).2).Perm (next :: (done ++ front.2)) := by
      rw [hqueue]
      exact ((hinsert next front.2).append_left done).trans List.perm_middle
    refine ⟨?_, hdegree, ?_⟩
    · exact hperm.nodup_iff.mpr (List.nodup_cons.mpr ⟨hout, h.nodup⟩)
    · intro v
      rw [hperm.mem_iff, List.mem_cons]
      by_cases hv : v = next
      · subst hv
        have hnone : pending edges done v + rest.count v = 0 := by omega
        exact ⟨fun _ => ⟨hnext, hnone⟩, fun _ => Or.inl rfl⟩
      · rw [← hother v hv]
        exact ⟨fun hmem => hmem.resolve_left hv, Or.inr⟩
  · have hqueue : (release insert front next).2 = front.2 := if_neg hzero
    refine ⟨?_, hdegree, ?_⟩
    · rw [hqueue]
      exact h.nodup
    · intro v
      rw [hqueue]
      by_cases hv : v = next
      · subst hv
        constructor
        · intro hmem
          exact absurd hmem hout
        · rintro ⟨-, hnone⟩
          omega
      · exact hother v hv

theorem Releasing.foldl (hinsert : ∀ v queue, (insert v queue).Perm (v :: queue))
    (hrest : ∀ v ∈ rest, v ∈ vertices) (h : Releasing vertices edges done rest front) :
    Releasing vertices edges done [] (rest.foldl (release insert) front) := by
  induction rest generalizing front with
  | nil => exact h
  | cons next rest ih =>
    exact ih (fun v hv => hrest v (List.mem_cons_of_mem _ hv))
      (h.step hinsert (hrest next List.mem_cons_self))

theorem Invariant.visit (hinsert : ∀ v queue, (insert v queue).Perm (v :: queue))
    (hedges : ∀ edge ∈ edges, edge.2 ∈ vertices) {state : State α}
    (h : Invariant vertices edges state) : Invariant vertices edges (visit insert edges state) := by
  unfold Kahn.visit
  cases hqueue : state.queue with
  | nil => exact h
  | cons current queue =>
    have hnodup := h.nodup
    have hfree := h.free
    rw [hqueue] at hnodup hfree
    have hnew : current ∉ state.sorted := by
      intro hmem
      exact (List.nodup_append.mp hnodup).2.2 current hmem current List.mem_cons_self rfl
    have hsplit : state.sorted ++ current :: queue = (state.sorted ++ [current]) ++ queue := by
      simp
    have hstart : Releasing vertices edges (state.sorted ++ [current]) (adjacent edges current)
        (state.degree, queue) := by
      refine ⟨?_, ?_, ?_⟩
      · rw [← hsplit]
        exact hnodup
      · intro v
        have hdegree := h.degree v
        rw [pending_concat edges hnew v] at hdegree
        push_cast at hdegree
        exact hdegree
      · intro v
        rw [← hsplit, hfree v, pending_concat edges hnew v]
    have htargets : ∀ v ∈ adjacent edges current, v ∈ vertices := by
      intro v hv
      obtain ⟨edge, hedge, rfl⟩ := List.mem_map.mp hv
      exact hedges edge (List.mem_filter.mp hedge).1
    have hend := hstart.foldl hinsert htargets
    refine ⟨hend.nodup, ?_, ?_⟩
    · intro v
      simpa using hend.degree v
    · intro v
      simpa using hend.free v

theorem Invariant.rounds (hinsert : ∀ v queue, (insert v queue).Perm (v :: queue))
    (hedges : ∀ edge ∈ edges, edge.2 ∈ vertices) (fuel : Nat) {state : State α}
    (h : Invariant vertices edges state) :
    Invariant vertices edges (rounds insert edges fuel state) := by
  induction fuel generalizing state with
  | zero => exact h
  | succ fuel ih => exact ih (h.visit hinsert hedges)

/-! ## The queue runs empty -/

theorem queue_nil_or_length_sorted (fuel : Nat) (state : State α) :
    (rounds insert edges fuel state).queue = []
      ∨ (rounds insert edges fuel state).sorted.length = state.sorted.length + fuel := by
  induction fuel generalizing state with
  | zero => exact Or.inr rfl
  | succ fuel ih =>
    unfold rounds
    cases hqueue : state.queue with
    | nil =>
      left
      have hstay : ∀ fuel, (rounds insert edges fuel state) = state := by
        intro fuel
        induction fuel with
        | zero => rfl
        | succ fuel ih =>
          rw [rounds, Kahn.visit, hqueue]
          exact ih
      have hvisit : Kahn.visit insert edges state = state := by
        rw [Kahn.visit, hqueue]
      rw [hvisit, hstay, hqueue]
    | cons current queue =>
      have hlength : (Kahn.visit insert edges state).sorted.length = state.sorted.length + 1 := by
        rw [Kahn.visit, hqueue]
        simp
      rcases ih (Kahn.visit insert edges state) with hnil | hmore
      · exact Or.inl hnil
      · right
        omega

variable {state : State α}

theorem Invariant.queue_nil (hinsert : ∀ v queue, (insert v queue).Perm (v :: queue))
    (hedges : ∀ edge ∈ edges, edge.2 ∈ vertices) (h : Invariant vertices edges state) :
    (Kahn.rounds insert edges vertices.length state).queue = [] := by
  have hend := h.rounds hinsert hedges vertices.length
  rcases queue_nil_or_length_sorted vertices.length state with hnil | hmore
  · exact hnil
  have hsub : (Kahn.rounds insert edges vertices.length state).sorted
      ++ (Kahn.rounds insert edges vertices.length state).queue ⊆ vertices :=
    fun v hv => ((hend.free v).mp hv).1
  have hle := (List.Nodup.subperm hend.nodup hsub).length_le
  rw [List.length_append, hmore] at hle
  exact List.eq_nil_of_length_eq_zero (by omega)

/-! ## The order of the sorted vertices -/

/-- Every sorted vertex comes behind the sources of the edges into it. -/
def Ordered (edges : List (α × α)) (sorted : List α) : Prop :=
  ∀ front v back, sorted = front ++ v :: back → pending edges front v = 0

variable {edge : α × α}

theorem source_mem_of_pending {v : α} (h : pending edges done v = 0) (hedge : edge ∈ edges)
    (htarget : edge.2 = v) : edge.1 ∈ done := by
  by_contra hsource
  refine List.countP_eq_zero.mp h edge hedge ?_
  simp [hsource, htarget]

theorem exists_source_of_pending {v : α} (h : pending edges done v ≠ 0) :
    ∃ edge ∈ edges, edge.1 ∉ done ∧ edge.2 = v := by
  obtain ⟨edge, hedge, hcounted⟩ := List.countP_pos_iff.mp (Nat.pos_of_ne_zero h)
  exact ⟨edge, hedge, of_decide_eq_true hcounted⟩

theorem Ordered.visit {state : State α} (h : Invariant vertices edges state)
    (hordered : Ordered edges state.sorted) : Ordered edges (visit insert edges state).sorted := by
  unfold Kahn.visit
  cases hqueue : state.queue with
  | nil => exact hordered
  | cons current queue =>
    intro front v back hsplit
    rcases List.eq_nil_or_concat back with rfl | ⟨back, last, rfl⟩
    · obtain ⟨hfront, hlast⟩ := List.append_inj' hsplit rfl
      cases hlast
      have hmem : current ∈ state.sorted ++ state.queue := by
        rw [hqueue]
        exact List.mem_append_right _ List.mem_cons_self
      rw [← hfront]
      exact ((h.free current).mp hmem).2
    · have hsorted : state.sorted = front ++ v :: back := by
        have hinner : front ++ v :: (back ++ [last]) = (front ++ v :: back) ++ [last] := by simp
        rw [List.concat_eq_append, hinner] at hsplit
        exact (List.append_inj' hsplit rfl).1
      exact hordered front v back hsorted

theorem Ordered.rounds (hinsert : ∀ v queue, (insert v queue).Perm (v :: queue))
    (hedges : ∀ edge ∈ edges, edge.2 ∈ vertices) (fuel : Nat) {state : State α}
    (h : Invariant vertices edges state) (hordered : Ordered edges state.sorted) :
    Ordered edges (rounds insert edges fuel state).sorted := by
  induction fuel generalizing state with
  | zero => exact hordered
  | succ fuel ih => exact ih (h.visit hinsert hedges) (hordered.visit h)

theorem Invariant.of_perm (h : Invariant vertices edges state) {queue : List α}
    (hperm : queue.Perm state.queue) : Invariant vertices edges { state with queue := queue } := by
  have hall := hperm.append_left state.sorted
  refine ⟨hall.nodup_iff.mpr h.nodup, h.degree, ?_⟩
  intro v
  rw [hall.mem_iff]
  exact h.free v

/-- Edges that lead to higher ranks have no cycle, so every vertex is sorted when
    the queue is empty. -/
theorem Invariant.sorted_perm {state : State α} (h : Invariant vertices edges state)
    (hvertices : vertices.Nodup) (hqueue : state.queue = []) {rank : α → Nat}
    (hforward : ∀ edge ∈ edges, edge.1 ∈ vertices ∧ rank edge.1 < rank edge.2) :
    state.sorted.Perm vertices := by
  have hnodup := h.nodup
  have hfree := h.free
  rw [hqueue, List.append_nil] at hnodup hfree
  refine (List.perm_ext_iff_of_nodup hnodup hvertices).mpr fun v => ?_
  refine ⟨fun hv => ((hfree v).mp hv).1, fun hv => ?_⟩
  -- induction on the rank: an unsorted vertex has an unsorted source below it
  induction hrank : rank v using Nat.strongRecOn generalizing v with
  | _ n ih =>
    by_contra hunsorted
    have hpending : pending edges state.sorted v ≠ 0 :=
      fun hzero => hunsorted ((hfree v).mpr ⟨hv, hzero⟩)
    obtain ⟨edge, hedge, hsource, htarget⟩ := exists_source_of_pending hpending
    obtain ⟨hmem, hlt⟩ := hforward edge hedge
    rw [htarget, hrank] at hlt
    exact hsource (ih (rank edge.1) hlt edge.1 hmem rfl)

/-- In an ordered list the source of an edge stands before its target. -/
theorem Ordered.idxOf_lt [BEq α] [LawfulBEq α] {sorted : List α} (hordered : Ordered edges sorted)
    (hnodup : sorted.Nodup) (hedge : edge ∈ edges) (htarget : edge.2 ∈ sorted) :
    sorted.idxOf edge.1 < sorted.idxOf edge.2 := by
  obtain ⟨front, back, hsplit⟩ := List.append_of_mem htarget
  have hsource := source_mem_of_pending (hordered front edge.2 back hsplit) hedge rfl
  have hnew : edge.2 ∉ front := by
    rw [hsplit] at hnodup
    intro hmem
    exact (List.nodup_append.mp hnodup).2.2 edge.2 hmem edge.2 List.mem_cons_self rfl
  have hbehind : sorted.idxOf edge.2 = front.length := by
    rw [hsplit, List.idxOf_append_of_notMem hnew, List.idxOf_cons_self, Nat.add_zero]
  have hbefore : sorted.idxOf edge.1 = front.idxOf edge.1 := by
    rw [hsplit, List.idxOf_append_of_mem hsource]
  rw [hbehind, hbefore]
  exact List.idxOf_lt_length_of_mem hsource

end Rounds

end Kahn
