/-
  OpencodeSwarm.Plan.SerialOrder

  The serial order that a parallel verdict suggests
  (`src/plan/parallel-verdict.ts`): an order of all the tasks in which every
  conflict is kept in the order of the input.

  The sort appends a released task to its queue and sorts the queue after each
  task, so a round is a round of Kahn's algorithm up to the order of the queue.
  The edges follow the input, so there is no cycle, and the fallback for tasks
  that are left over is never taken.
-/
import OpencodeSwarm.Lib.Kahn
import OpencodeSwarm.Plan.ParallelVerdict

namespace OpencodeSwarm

open Js Posix

/-! ## The sort -/

/-- A released task goes to the end of the queue. -/
def atEnd (next : JsString) (queue : List JsString) : List JsString :=
  queue ++ [next]

theorem atEnd_perm (next : JsString) (queue : List JsString) :
    (atEnd next queue).Perm (next :: queue) :=
  List.perm_append_singleton next queue

section Order

variable {taskIds : List JsString} {edges : List (JsString × JsString)}

/-- What the loop returns is what some state of the algorithm has sorted; the
    queue of that state is empty, or the fuel was used up. -/
theorem exists_state_rounds (htargets : ∀ edge ∈ edges, edge.2 ∈ taskIds)
    {byInput : List JsString → List JsString} (hbyInput : ∀ queue, (byInput queue).Perm queue)
    (fuel : Nat) {degree : JsString → Int} {queue order : List JsString}
    (h : Kahn.Invariant taskIds edges ⟨degree, queue, order⟩)
    (hordered : Kahn.Ordered edges order) :
    ∃ state : Kahn.State JsString,
      state.sorted = topoSort.rounds (Kahn.adjacent edges) byInput fuel degree queue order
        ∧ Kahn.Invariant taskIds edges state ∧ Kahn.Ordered edges state.sorted
        ∧ (state.queue = [] ∨ state.sorted.length = order.length + fuel) := by
  induction fuel generalizing degree queue order with
  | zero => exact ⟨⟨degree, queue, order⟩, rfl, h, hordered, Or.inr rfl⟩
  | succ fuel ih =>
    cases queue with
    | nil => exact ⟨⟨degree, [], order⟩, rfl, h, hordered, Or.inl rfl⟩
    | cons current queue =>
      have hnext := (h.visit atEnd_perm htargets).of_perm (hbyInput _)
      have hnextOrdered :
          Kahn.Ordered edges (Kahn.visit atEnd edges ⟨degree, current :: queue, order⟩).sorted :=
        hordered.visit h
      obtain ⟨state, hsorted, hstate, hkept, hdone⟩ := ih hnext hnextOrdered
      refine ⟨state, hsorted, hstate, hkept, hdone.imp_right fun hlength => ?_⟩
      have hone : (order ++ [current]).length = order.length + 1 := List.length_append
      have hlength : state.sorted.length = (order ++ [current]).length + fuel := hlength
      omega

/-- The sort of forward edges lists every task once, the source of an edge before
    its target. -/
theorem topoSort_spec (hnodup : taskIds.Nodup)
    (hforward : ∀ edge ∈ edges, edge.1 ∈ taskIds ∧ edge.2 ∈ taskIds
      ∧ taskIds.idxOf edge.1 < taskIds.idxOf edge.2) :
    let order := topoSort taskIds (Kahn.adjacent edges) fun id => Kahn.pending edges [] id
    order.Perm taskIds ∧ ∀ edge ∈ edges, order.idxOf edge.1 < order.idxOf edge.2 := by
  have htargets : ∀ edge ∈ edges, edge.2 ∈ taskIds := fun edge hedge => (hforward edge hedge).2.1
  have hstart : Kahn.Invariant taskIds edges
      ⟨fun id => Kahn.pending edges [] id,
        taskIds.filter fun id => ((Kahn.pending edges [] id : Nat) : Int) = 0, []⟩ := by
    refine ⟨hnodup.filter _, fun _ => rfl, fun id => ?_⟩
    rw [List.nil_append, List.mem_filter, decide_eq_true_eq, Int.natCast_eq_zero]
  have hnone : Kahn.Ordered edges [] := fun front v back hsplit =>
    absurd hsplit.symm (List.append_ne_nil_of_right_ne_nil _ (List.cons_ne_nil _ _))
  obtain ⟨state, hsorted, hstate, hordered, hdone⟩ :=
    exists_state_rounds htargets (fun queue => List.perm_insertionSort
      (fun x y => taskIds.idxOf x ≤ taskIds.idxOf y) queue) (2 * taskIds.length) hstart hnone
  have hqueue : state.queue = [] := by
    rcases hdone with hqueue | hlength
    · exact hqueue
    · have hsub : state.sorted ++ state.queue ⊆ taskIds := fun v hv => ((hstate.free v).mp hv).1
      have hle := (List.Nodup.subperm hstate.nodup hsub).length_le
      rw [List.length_append, hlength, List.length_nil] at hle
      exact List.eq_nil_of_length_eq_zero (by omega)
  have hperm : state.sorted.Perm taskIds := @Kahn.Invariant.sorted_perm _ _ _ _ _ hstate hnodup hqueue
    (fun id => taskIds.idxOf id)
    fun edge hedge => ⟨(hforward edge hedge).1, (hforward edge hedge).2.2⟩
  -- every task is sorted, so the fallback is not taken
  have horder : topoSort taskIds (Kahn.adjacent edges) (fun id => Kahn.pending edges [] id)
      = state.sorted := by
    have hall : ¬ state.sorted.length < taskIds.length := by
      rw [hperm.length_eq]
      exact Nat.lt_irrefl _
    dsimp only [topoSort]
    rw [← hsorted, if_neg hall]
  dsimp only
  rw [horder]
  refine ⟨hperm, fun edge hedge => ?_⟩
  exact hordered.idxOf_lt (hperm.nodup_iff.mpr hnodup) hedge
    (hperm.mem_iff.mpr (htargets edge hedge))

end Order

theorem serialOrder_eq_topoSort (taskIds : List JsString) (conflicts : List (JsString × JsString)) :
    serialOrder taskIds conflicts = topoSort taskIds (Kahn.adjacent conflicts.eraseDups)
        fun id => Kahn.pending conflicts.eraseDups [] id := by
  have hdegree : ∀ id, (conflicts.eraseDups.filter (·.2 = id)).length
      = Kahn.pending conflicts.eraseDups [] id := by
    intro id
    rw [Kahn.pending, List.countP_eq_length_filter]
    simp
  simp only [serialOrder, hdegree]
  rfl

theorem idxOf_lt_of_mem_pairsOf {xs : List JsString} (hnodup : xs.Nodup) {a b : JsString}
    (h : (a, b) ∈ pairsOf xs) : xs.idxOf a < xs.idxOf b := by
  induction xs with
  | nil => cases h
  | cons x rest ih =>
    obtain ⟨hx, hrest⟩ := List.nodup_cons.mp hnodup
    rw [pairsOf, List.mem_append] at h
    rcases h with hhead | htail
    · obtain ⟨y, hy, heq⟩ := List.mem_map.mp hhead
      cases heq
      have hne : a ≠ b := fun heq => hx (heq ▸ hy)
      rw [List.idxOf_cons_self, List.idxOf_cons_ne _ hne]
      exact Nat.succ_pos _
    · obtain ⟨ha, hb, -⟩ := ne_of_mem_pairsOf hrest htail
      have hneA : x ≠ a := fun heq => hx (heq ▸ ha)
      have hneB : x ≠ b := fun heq => hx (heq ▸ hb)
      rw [List.idxOf_cons_ne _ hneA, List.idxOf_cons_ne _ hneB]
      exact Nat.succ_lt_succ (ih hrest htail)

/-! ## The verdict -/

section Verdict

variable {N : Type} [LinearOrder N]

/-- The scopes of two tasks are known and conflict. -/
def scopesConflict (bindings : JsString → Option (List JsString))
    (defaultThreshold : CoChangeThreshold N) (options : ParallelVerdictOptions N)
    (a b : JsString) : Prop :=
  ∃ filesA filesB, resolveScope (options.scopes.getD bindings) a = some filesA
    ∧ resolveScope (options.scopes.getD bindings) b = some filesB
    ∧ (epicPairConflict filesA filesB
        (if options.useCochange then options.cochangePairs.getD [] else [])
        (options.cochangeThreshold.getD defaultThreshold)).conflict = true

theorem pairVerdict_fst (resolved : JsString → Option (List JsString))
    (cochangePairs : List (CoChangeEntry N)) (threshold : CoChangeThreshold N)
    (pair : JsString × JsString) :
    ((pairVerdict resolved cochangePairs threshold pair).a,
      (pairVerdict resolved cochangePairs threshold pair).b) = pair := by
  dsimp only [pairVerdict]
  split
  · split
    · rfl
    · rfl
  · rfl

/-- For at most 64 distinct tasks there is a verdict; its serial order lists every
    task once, and of two tasks whose scopes conflict the one that came first in
    the input still comes first. -/
theorem suggestedSerialOrder_spec (bindings : JsString → Option (List JsString))
    (defaultThreshold : CoChangeThreshold N) (options : ParallelVerdictOptions N)
    {taskIds : List JsString} (hfew : taskIds.length ≤ maxParallelVerdictTasks)
    (hnodup : taskIds.Nodup) :
    ∃ verdict, computeParallelVerdict bindings defaultThreshold taskIds options = some verdict
      ∧ verdict.suggestedSerialOrder.Perm taskIds
      ∧ ∀ a ∈ taskIds, ∀ b ∈ taskIds, scopesConflict bindings defaultThreshold options a b →
        taskIds.idxOf a < taskIds.idxOf b →
        verdict.suggestedSerialOrder.idxOf a < verdict.suggestedSerialOrder.idxOf b := by
  have hmany : ¬ taskIds.length > maxParallelVerdictTasks := Nat.not_lt.mpr hfew
  refine ⟨_, if_neg hmany, ?_⟩
  generalize hpairs : (((pairsOf taskIds).map (pairVerdict
    (resolveScope (options.scopes.getD bindings))
    (if options.useCochange = true then options.cochangePairs.getD [] else [])
    (options.cochangeThreshold.getD defaultThreshold))).filter (·.verdict = .conflict)).map
      (fun pair => (pair.a, pair.b)) = conflicts
  -- the conflicts are the pairs of the input whose scopes conflict
  have hmem : ∀ a b, (a, b) ∈ conflicts
      ↔ (a, b) ∈ pairsOf taskIds ∧ scopesConflict bindings defaultThreshold options a b := by
    intro a b
    rw [← hpairs, List.mem_map]
    constructor
    · rintro ⟨found, hfound, heq⟩
      obtain ⟨hfound, hverdict⟩ := List.mem_filter.mp hfound
      obtain ⟨pair, hpair, rfl⟩ := List.mem_map.mp hfound
      rw [pairVerdict_fst] at heq
      subst heq
      exact ⟨hpair, pairVerdict_conflict_iff.mp (of_decide_eq_true hverdict)⟩
    · rintro ⟨hpair, hconflict⟩
      refine ⟨_, List.mem_filter.mpr ⟨List.mem_map_of_mem hpair, ?_⟩, pairVerdict_fst _ _ _ _⟩
      exact decide_eq_true (pairVerdict_conflict_iff.mpr hconflict)
  have hforward : ∀ edge ∈ conflicts.eraseDups, edge.1 ∈ taskIds ∧ edge.2 ∈ taskIds
      ∧ taskIds.idxOf edge.1 < taskIds.idxOf edge.2 := by
    rintro ⟨a, b⟩ hedge
    have hpair := ((hmem a b).mp (List.mem_eraseDups.mp hedge)).1
    obtain ⟨ha, hb, -⟩ := ne_of_mem_pairsOf hnodup hpair
    exact ⟨ha, hb, idxOf_lt_of_mem_pairsOf hnodup hpair⟩
  obtain ⟨hperm, hbefore⟩ := topoSort_spec hnodup hforward
  rw [← serialOrder_eq_topoSort] at hperm hbefore
  refine ⟨hperm, fun a ha b hb hconflict hlt => ?_⟩
  refine hbefore (a, b) (List.mem_eraseDups.mpr ((hmem a b).mpr ⟨?_, hconflict⟩))
  have hne : a ≠ b := fun heq => Nat.lt_irrefl _ (heq ▸ hlt)
  rcases mem_pairsOf ha hb hne with hpair | hpair
  · exact hpair
  · exact absurd (idxOf_lt_of_mem_pairsOf hnodup hpair) (Nat.lt_asymm hlt)

/-- Three tasks of one file keep their order. -/
theorem suggestedSerialOrder_spec_sameFile :
    ∃ verdict, computeParallelVerdict (N := Nat) (fun _ => some [js "a.ts"]) ⟨1, 1⟩
        [js "1.2", js "1.1", js "1.3"] {} = some verdict
      ∧ verdict.suggestedSerialOrder.Perm [js "1.2", js "1.1", js "1.3"]
      ∧ ∀ a ∈ [js "1.2", js "1.1", js "1.3"], ∀ b ∈ [js "1.2", js "1.1", js "1.3"],
        scopesConflict (N := Nat) (fun _ => some [js "a.ts"]) ⟨1, 1⟩ {} a b →
        [js "1.2", js "1.1", js "1.3"].idxOf a < [js "1.2", js "1.1", js "1.3"].idxOf b →
        verdict.suggestedSerialOrder.idxOf a < verdict.suggestedSerialOrder.idxOf b :=
  suggestedSerialOrder_spec _ _ _ (by decide) (by decide)

end Verdict

end OpencodeSwarm
