/-
  OpencodeSwarm.Coordination.EventRetention

  Streams and fences over whole runs.  The next version of a stream is computed from
  the events that retention leaves, so it goes on from the last one as long as the
  newest event of every stream stays; the rule for one stream keeps it when its
  bound is positive, the rule for all of them always.
-/
import OpencodeSwarm.Coordination.StoreFacts
import OpencodeSwarm.Lib.Transition

namespace OpencodeSwarm

open Js Sql Transition

/-! ## Stream versions -/

variable {events : List CoordinationEvent}

theorem version_le_streamVersion {event : CoordinationEvent} (h : event ∈ events) :
    event.version ≤ streamVersion events event.streamId := by
  unfold streamVersion
  have hmem : event.version ∈ (events.filter (·.streamId == event.streamId)).map
      CoordinationEvent.version :=
    List.mem_map_of_mem (List.mem_filter.mpr ⟨h, beq_self_eq_true _⟩)
  generalize (events.filter (·.streamId == event.streamId)).map CoordinationEvent.version = versions
    at hmem
  induction versions with
  | nil => cases hmem
  | cons v versions ih =>
    rw [List.foldr_cons]
    rcases List.mem_cons.mp hmem with hhead | htail
    · omega
    · have hrest := ih htail
      omega

theorem exists_newest (events : List CoordinationEvent) (streamId : JsString) :
    streamVersion events streamId = 0 ∨ ∃ event ∈ events, event.streamId = streamId
        ∧ event.version = streamVersion events streamId := by
  have hmax : ∀ versions : List Nat, versions.foldr max 0 = 0
    ∨ versions.foldr max 0 ∈ versions := by
    intro versions
    induction versions with
    | nil => exact Or.inl rfl
    | cons v versions ih =>
      rw [List.foldr_cons]
      rcases Nat.le_total v (versions.foldr max 0) with hle | hle
      · rw [Nat.max_eq_right hle]
        exact ih.imp id (List.mem_cons_of_mem v)
      · rw [Nat.max_eq_left hle]
        exact Or.inr List.mem_cons_self
  rcases hmax ((events.filter (·.streamId == streamId)).map CoordinationEvent.version) with
    hzero | hmem
  · exact Or.inl hzero
  · obtain ⟨event, hevent, hversion⟩ := List.mem_map.mp hmem
    obtain ⟨hin, hstream⟩ := List.mem_filter.mp hevent
    exact Or.inr ⟨event, hin, eq_of_beq hstream, hversion⟩

variable {streamId : JsString}

theorem streamVersion_le {n : Nat}
    (h : ∀ event ∈ events, event.streamId = streamId → event.version ≤ n) :
    streamVersion events streamId ≤ n := by
  rcases exists_newest events streamId with hzero | ⟨event, hevent, hstream, hversion⟩
  · omega
  · rw [← hversion]
    exact h event hevent hstream

/-- A stream that keeps its newest event keeps its version. -/
theorem streamVersion_of_kept {kept : List CoordinationEvent} (hsub : kept.Sublist events)
    (hnewest : ∀ event ∈ events, event.streamId = streamId →
      event.version = streamVersion events streamId → event ∈ kept) :
    streamVersion kept streamId = streamVersion events streamId := by
  apply Nat.le_antisymm
  · refine streamVersion_le fun event hevent hstream => ?_
    rw [← hstream]
    exact version_le_streamVersion (hsub.subset hevent)
  · rcases exists_newest events streamId with hzero | ⟨event, hevent, hstream, hversion⟩
    · omega
    · have hkept := version_le_streamVersion (hnewest event hevent hstream hversion)
      rw [hstream] at hkept
      omega

theorem streamVersion_append_row {row : CoordinationEvent}
    (hrow : row.version = streamVersion events row.streamId + 1) (streamId : JsString) :
    streamVersion (events ++ [row]) streamId
      = if row.streamId = streamId then row.version else streamVersion events streamId := by
  have hin : row ∈ events ++ [row] := List.mem_append_right _ List.mem_cons_self
  split_ifs with hstream
  · apply Nat.le_antisymm
    · refine streamVersion_le fun event hevent hof => ?_
      rcases List.mem_append.mp hevent with hold | hnew
      · have hle := version_le_streamVersion hold
        rw [hof, ← hstream] at hle
        omega
      · rw [List.mem_singleton.mp hnew]
    · rw [← hstream]
      exact version_le_streamVersion hin
  · apply Nat.le_antisymm
    · refine streamVersion_le fun event hevent hof => ?_
      rcases List.mem_append.mp hevent with hold | hnew
      · rw [← hof]
        exact version_le_streamVersion hold
      · rw [List.mem_singleton.mp hnew] at hof
        exact absurd hof hstream
    · rcases exists_newest events streamId with hzero | ⟨event, hevent, hof, hversion⟩
      · omega
      · rw [← hversion, ← hof]
        exact version_le_streamVersion (List.mem_append_left _ hevent)

/-! ## What retention leaves -/

theorem pruneStreamEvents_sublist (bound : Int) (streamId : JsString) (nextVersion : Nat)
    (events : List CoordinationEvent) :
    (pruneStreamEvents bound streamId nextVersion events).Sublist events := by
  dsimp only [pruneStreamEvents]
  split_ifs
  · exact List.filter_sublist
  · exact List.Sublist.refl _

theorem pruneTotalEvents_sublist (bound : Int) (events : List CoordinationEvent) :
    (pruneTotalEvents bound events).Sublist events := by
  dsimp only [pruneTotalEvents]
  split_ifs
  · exact deleteFirst_sublist
  · exact List.Sublist.refl _

variable {bound : Int}

/-- With a positive bound the newest event of the stream is above the floor. -/
theorem streamVersion_pruneStreamEvents (hbound : 1 ≤ bound) (other : JsString) :
    streamVersion (pruneStreamEvents bound streamId (streamVersion events streamId) events) other
      = streamVersion events other := by
  refine streamVersion_of_kept (pruneStreamEvents_sublist _ _ _ _) fun event hevent hof hnewest => ?_
  dsimp only [pruneStreamEvents]
  split_ifs with hfloor
  · refine List.mem_filter.mpr ⟨hevent, ?_⟩
    rw [Bool.not_eq_eq_eq_not, Bool.not_true, Bool.and_eq_false_iff]
    by_cases hstream : event.streamId = streamId
    · refine Or.inr (decide_eq_false ?_)
      rw [hnewest, ← hof, hstream]
      omega
    · exact Or.inl (beq_eq_false_iff_ne.mpr hstream)
  · exact hevent

theorem streamVersion_pruneTotalEvents (hids : (events.map CoordinationEvent.rowid).Nodup)
    (streamId : JsString) :
    streamVersion (pruneTotalEvents bound events) streamId = streamVersion events streamId := by
  refine streamVersion_of_kept (pruneTotalEvents_sublist _ _) fun event hevent hof hnewest => ?_
  dsimp only [pruneTotalEvents]
  split_ifs with hoverflow
  · refine mem_deleteFirst_of_not hids hevent (decide_eq_false ?_)
    rw [hof, hnewest]
    exact Nat.lt_irrefl _
  · exact hevent

theorem pruneStreamFences_sublist (bound : Int) (streamId : JsString)
    (fences : List CoordinationEventFence) :
    (pruneStreamFences bound streamId fences).Sublist fences := by
  dsimp only [pruneStreamFences]
  split_ifs
  · exact deleteFirst_sublist
  · exact List.Sublist.refl _

theorem pruneTotalFences_sublist (bound : Int) (fences : List CoordinationEventFence) :
    (pruneTotalFences bound fences).Sublist fences := by
  dsimp only [pruneTotalFences]
  split_ifs
  · exact deleteFirst_sublist
  · exact List.Sublist.refl _

/-- The other fences of its stream that are not older. -/
def newerOfStream (fences : List CoordinationEventFence) (fence : CoordinationEventFence) :
    List CoordinationEventFence :=
  fences.filter fun other => other.streamId == fence.streamId
    && (decide (fenceAge fence ≤ fenceAge other) && decide (other.rowid ≠ fence.rowid))

/-- The other fences that were not created earlier. -/
def newerOfAll (fences : List CoordinationEventFence) (fence : CoordinationEventFence) :
    List CoordinationEventFence :=
  fences.filter fun other =>
    decide (utf8 fence.createdAt ≤ utf8 other.createdAt) && decide (other.rowid ≠ fence.rowid)

variable {fences : List CoordinationEventFence} {fence : CoordinationEventFence}

/-- A fence is pruned when the bound is full of its newer ones. -/
theorem pruned_of_stream (hids : (fences.map CoordinationEventFence.rowid).Nodup)
    (hfence : fence ∈ fences) (hpruned : fence ∉ pruneStreamFences bound streamId fences) :
    bound ≤ (newerOfStream fences fence).length := by
  dsimp only [pruneStreamFences] at hpruned
  split_ifs at hpruned with hoverflow
  · have hof : fence.streamId = streamId := by
      by_contra hother
      exact hpruned (mem_deleteFirst_of_not hids hfence (beq_eq_false_iff_ne.mpr hother))
    subst hof
    exact bound_le_newer hids (by omega) (by omega) hfence hpruned
  · exact absurd hfence hpruned

theorem pruned_of_total (hids : (fences.map CoordinationEventFence.rowid).Nodup)
    (hfence : fence ∈ fences) (hpruned : fence ∉ pruneTotalFences bound fences) :
    bound ≤ (newerOfAll fences fence).length := by
  dsimp only [pruneTotalFences] at hpruned
  split_ifs at hpruned with hoverflow
  · have hall : fences.filter (fun _ => true) = fences := List.filter_eq_self.mpr fun _ _ => rfl
    have hcut : ((fences.filter fun _ => true).length : Int) - bound
        = (((fences.length : Int) - bound).toNat : Int) := by
      rw [hall, Int.toNat_of_nonneg hoverflow.le]
    have hbound := bound_le_newer hids hcut.le hcut.ge hfence hpruned
    refine hbound.trans (Int.ofNat_le.mpr (List.Sublist.length_le ?_))
    -- an order by time first is no order against time
    refine List.monotone_filter_right fences fun other hother => ?_
    rw [Bool.true_and, Bool.and_eq_true, decide_eq_true_eq] at hother
    rw [Bool.and_eq_true, decide_eq_true_eq]
    refine ⟨?_, hother.2⟩
    rcases Prod.Lex.le_iff.mp hother.1 with hlt | ⟨hsame, -⟩
    · exact le_of_lt hlt
    · exact le_of_eq hsame
  · exact absurd hfence hpruned

end OpencodeSwarm
