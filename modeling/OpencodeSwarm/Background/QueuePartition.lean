/-
  OpencodeSwarm.Background.QueuePartition

  Every id that the automation queue ever issued is queued, in flight, settled
  or dropped, and in one of these places only, after any calls in any order.
-/
import OpencodeSwarm.Background.AutomationQueue
import OpencodeSwarm.Lib.Transition

namespace OpencodeSwarm

open Js

variable {T : Type*}

/-! ## Calls -/

/-- The calls that change the queue, with the clock readings they make. -/
inductive AutomationCall (T : Type*) where
  | enqueue (payload : T) (priority : QueuePriority) (metadata : Option Json)
      (idTime createdAt : Int)
  | dequeue (now : Int)
  | complete (id : JsString) (now : Int)
  | retry (id : JsString) (lastAttempt now : Int)
  | remove (id : JsString)
  | clear

/-- The ids of the items that the queue holds. -/
def AutomationQueue.liveIds (queue : AutomationQueue T) : List JsString :=
  queue.items.map QueueItem.id ++ queue.inflight.keys

/-- The ids that a call took out of the queue. -/
def takenOut (before after : AutomationQueue T) : List JsString :=
  before.liveIds.filter fun id => decide (id ∉ after.liveIds)

/-- The queue with its history: the ids that `enqueue` answered, those that left by
    `complete` and by `retry`, those that were removed, evicted or cleared, and what was
    published. -/
structure AutomationWorld (T : Type*) where
  queue : AutomationQueue T
  issued : List JsString
  completed : List JsString
  exhausted : List JsString
  dropped : List JsString
  events : List AutomationEvent

def AutomationWorld.start (config : QueueConfig) : AutomationWorld T where
  queue := .new config
  issued := []
  completed := []
  exhausted := []
  dropped := []
  events := []

def AutomationEvent.evictedId : AutomationEvent → Option JsString
  | .evicted itemId => some itemId
  | _ => none

/-- A call that leaves `queue`, answers to have removed `removed` and publishes `events`:
    dropped are the ids of its answer and those of its evictions. -/
def AutomationWorld.drop (w : AutomationWorld T) (queue : AutomationQueue T)
    (removed : List JsString) (events : List AutomationEvent) : AutomationWorld T :=
  { w with
    queue := queue
    dropped := w.dropped ++ (removed ++ events.filterMap AutomationEvent.evictedId)
    events := w.events ++ events }

/-- A call on the queue, with what became of the ids that left it. -/
def automationStep (w : AutomationWorld T) : AutomationCall T → AutomationWorld T
  | .enqueue payload priority metadata idTime createdAt =>
    let effect := w.queue.enqueue payload priority metadata idTime createdAt
    { w.drop effect.queue [] effect.events with
      issued := w.issued ++ effect.result.toOption.toList }
  | .dequeue now =>
    let effect := w.queue.dequeue now
    w.drop effect.queue [] effect.events
  | .complete id now =>
    let effect := w.queue.complete id now
    { w with
      queue := effect.queue
      completed := w.completed ++ takenOut w.queue effect.queue
      events := w.events ++ effect.events }
  | .retry id lastAttempt now =>
    let effect := w.queue.retry id lastAttempt now
    { w with
      queue := effect.queue
      exhausted := w.exhausted ++ takenOut w.queue effect.queue
      events := w.events ++ effect.events }
  | .remove id =>
    let effect := w.queue.remove id
    w.drop effect.queue (if effect.result then [id] else []) effect.events
  | .clear =>
    let effect := w.queue.clear
    w.drop effect.queue [] effect.events

/-! ## What is asked of the history -/

inductive ItemPlace where
  | queued | inFlight | settled | dropped
  deriving DecidableEq, Repr

def AutomationWorld.At (w : AutomationWorld T) (id : JsString) : ItemPlace → Prop
  | .queued => ∃ item ∈ w.queue.items, item.id = id
  | .inFlight => id ∈ w.queue.inflight.keys
  | .settled => id ∈ w.completed ∨ id ∈ w.exhausted
  | .dropped => id ∈ w.dropped

/-- An item that the queue holds. -/
def AutomationQueue.Holds (queue : AutomationQueue T) (item : QueueItem T) : Prop :=
  item ∈ queue.items ∨ item ∈ queue.inflight.values

def AutomationEvent.isCompleted (id : JsString) : AutomationEvent → Bool
  | .completed itemId => itemId == id
  | _ => false

def AutomationEvent.isFailed (id : JsString) : AutomationEvent → Bool
  | .failed itemId _ => itemId == id
  | _ => false

/-- Nothing is lost and nothing is there twice. -/
structure AutomationWorld.KeepsWork (w : AutomationWorld T) : Prop where
  onePlace : ∀ id ∈ w.issued, ∃! place, w.At id place
  onlyIssued : ∀ id place, w.At id place → id ∈ w.issued
  issuedOnce : w.issued.Nodup
  heldOnce : w.queue.liveIds.Nodup
  attempts : ∀ item, w.queue.Holds item →
    ∀ retry, item.retry = some retry → (retry.attempts : Int) ≤ retry.maxAttempts
  failedAttempts : ∀ id (attempts : Nat), .failed id attempts ∈ w.events →
    (attempts : Int) ≤ w.queue.defaultMaxRetries
  completedOnce : ∀ id,
    w.events.countP (AutomationEvent.isCompleted id) = if id ∈ w.completed then 1 else 0
  failedOnce : ∀ id,
    w.events.countP (AutomationEvent.isFailed id) = if id ∈ w.exhausted then 1 else 0
  sorted : w.queue.items.Pairwise fun a b => comparePriority a b ≤ 0

/-! ## Order -/

theorem comparePriority_le_zero_iff (a b : QueueItem T) :
    comparePriority a b ≤ 0 ↔ a.priority.order < b.priority.order
      ∨ a.priority.order = b.priority.order ∧ a.createdAt ≤ b.createdAt := by
  dsimp only [comparePriority]
  split
  · omega
  · omega

theorem pairwise_sortItems (items : List (QueueItem T)) :
    (sortItems items).Pairwise fun a b => comparePriority a b ≤ 0 := by
  refine pairwise_sortBy (fun a b => ?_) (fun a b c hab hbc => ?_) items
  · rw [comparePriority_le_zero_iff, comparePriority_le_zero_iff]
    omega
  · rw [comparePriority_le_zero_iff] at hab hbc ⊢
    omega

theorem sortItems_perm (items : List (QueueItem T)) : (sortItems items).Perm items :=
  sortBy_perm comparePriority items

/-- Ids, priorities and creation times, all that the order and the places depend on. -/
def sortKey (item : QueueItem T) : JsString × Int × Int :=
  (item.id, item.priority.order, item.createdAt)

theorem pairwise_of_sortKeys {items others : List (QueueItem T)}
    (hkeys : items.map sortKey = others.map sortKey)
    (h : items.Pairwise fun a b => comparePriority a b ≤ 0) :
    others.Pairwise fun a b => comparePriority a b ≤ 0 := by
  have hpairs : ∀ l : List (QueueItem T), (l.Pairwise fun a b => comparePriority a b ≤ 0) ↔
      (l.map sortKey).Pairwise fun k m => k.2.1 < m.2.1 ∨ k.2.1 = m.2.1 ∧ k.2.2 ≤ m.2.2 := by
    intro l
    rw [List.pairwise_map]
    exact List.Pairwise.iff fun a b => comparePriority_le_zero_iff a b
  rw [hpairs] at h ⊢
  rwa [← hkeys]

/-! ## Lists and maps -/

theorem perm_of_spliceFirst {α : Type*} {p : α → Bool} {items rest : List α} {item : α}
    (h : AutomationQueue.spliceFirst p items = some (item, rest)) :
    items.Perm (item :: rest) ∧ rest.Sublist items ∧ p item = true := by
  induction items generalizing rest with
  | nil => cases h
  | cons head tail ih =>
    unfold AutomationQueue.spliceFirst at h
    split at h
    · next hp =>
      cases h
      exact ⟨List.Perm.refl _, List.sublist_cons_self _ _, hp⟩
    · obtain ⟨⟨found, others⟩, hfound, heq⟩ := Option.map_eq_some_iff.mp h
      cases heq
      obtain ⟨hperm, hsub, hp⟩ := ih hfound
      exact ⟨(hperm.cons head).trans (List.Perm.swap _ _ _), hsub.cons_cons head, hp⟩

theorem spliceFirst_eq_none_iff {α : Type*} {p : α → Bool} {items : List α} :
    AutomationQueue.spliceFirst p items = none ↔ ∀ item ∈ items, p item = false := by
  induction items with
  | nil =>
    constructor
    · intro _ item hitem
      cases hitem
    · intro _
      rfl
  | cons head tail ih =>
    unfold AutomationQueue.spliceFirst
    split
    · next hp => simp [hp]
    · next hp =>
      rw [Option.map_eq_none_iff, ih]
      simp [hp]

/-! ## What the calls do to the items -/

/-- An item that may fail once more before its attempts are used up. -/
def HasRetriesLeft (queue : AutomationQueue T) (item : QueueItem T) : Prop :=
  ∃ retry, item.retry = some retry ∧ retry.maxAttempts = queue.defaultMaxRetries
    ∧ (retry.attempts : Int) < queue.defaultMaxRetries

structure AutomationQueue.Sound (queue : AutomationQueue T) : Prop where
  sorted : queue.items.Pairwise fun a b => comparePriority a b ≤ 0
  keyed : ∀ binding ∈ queue.inflight, binding.2.id = binding.1
  retries : ∀ item, queue.Holds item → HasRetriesLeft queue item
  someRetry : 1 ≤ queue.defaultMaxRetries

/-- From `queue` to `after` the ids `new` came in and the ids `out` went. -/
structure QueueMoves (queue after : AutomationQueue T) (new out : List JsString) : Prop where
  sound : after.Sound
  balance : (queue.liveIds ++ new).Perm (out ++ after.liveIds)
  counter : after.itemCounter = queue.itemCounter + new.length
  maxRetries : after.defaultMaxRetries = queue.defaultMaxRetries

theorem QueueMoves.refl {queue : AutomationQueue T} (h : queue.Sound) :
    QueueMoves queue queue [] [] where
  sound := h
  balance := by rw [List.append_nil, List.nil_append]
  counter := rfl
  maxRetries := rfl

variable {out : List JsString}

theorem QueueMoves.markTerminal {queue after : AutomationQueue T} {new : List JsString}
    (h : QueueMoves queue after new out) (id : JsString) (time : Int) :
    QueueMoves queue (after.markTerminal id time) new out where
  sound := ⟨h.sound.sorted, h.sound.keyed, h.sound.retries, h.sound.someRetry⟩
  balance := h.balance
  counter := h.counter
  maxRetries := h.maxRetries

namespace AutomationQueue

variable {queue after : AutomationQueue T}

theorem Sound.of_holds (h : queue.Sound)
    (hsorted : after.items.Pairwise fun a b => comparePriority a b ≤ 0)
    (hkeyed : ∀ binding ∈ after.inflight, binding.2.id = binding.1)
    (hholds : ∀ item, after.Holds item → queue.Holds item)
    (hmax : after.defaultMaxRetries = queue.defaultMaxRetries) : after.Sound where
  sorted := hsorted
  keyed := hkeyed
  retries := by
    intro item hitem
    obtain ⟨retry, hretry, hretries, hless⟩ := h.retries item (hholds item hitem)
    exact ⟨retry, hretry, hretries.trans hmax.symm, hmax ▸ hless⟩
  someRetry := hmax ▸ h.someRetry

variable {id : JsString}

theorem mem_liveIds :
    id ∈ queue.liveIds ↔ (∃ item ∈ queue.items, item.id = id) ∨ id ∈ queue.inflight.keys := by
  rw [liveIds, List.mem_append, List.mem_map]

variable {item : QueueItem T}

theorem hasId_iff : hasId id item = true ↔ item.id = id :=
  beq_iff_eq

theorem liveIds_perm_of_splice {rest : List (QueueItem T)} (h : queue.items.Perm (item :: rest))
    (hid : item.id = id) (hafter : after.liveIds = rest.map QueueItem.id ++ queue.inflight.keys) :
    queue.liveIds.Perm (id :: after.liveIds) := by
  have hids := (h.map QueueItem.id).append_right queue.inflight.keys
  rw [List.map_cons, List.cons_append, hid] at hids
  rw [hafter]
  exact hids

theorem mem_liveIds_of_getItem (h : queue.getItem id = some item) : id ∈ queue.liveIds := by
  rw [mem_liveIds]
  rcases Option.or_eq_some_iff.mp h with hqueued | ⟨-, hflying⟩
  · have hid := hasId_iff.mp (List.find?_some hqueued)
    exact Or.inl ⟨item, List.mem_of_find?_eq_some hqueued, hid⟩
  · exact Or.inr (List.mem_map_of_mem (OrderedMap.mem_of_get? hflying))

theorem removeQueuedOrInflight_spec (hsound : queue.Sound) (hnodup : queue.liveIds.Nodup)
    (id : JsString) :
    (queue.removeQueuedOrInflight id = (queue, none) ∧ id ∉ queue.liveIds)
      ∨ ∃ after item, queue.removeQueuedOrInflight id = (after, some item)
        ∧ QueueMoves queue after [] [id] := by
  unfold removeQueuedOrInflight
  cases hsplice : spliceFirst (hasId id) queue.items with
  | some found =>
    obtain ⟨removed, rest⟩ := found
    obtain ⟨hperm, hsub, hid⟩ := perm_of_spliceFirst hsplice
    refine Or.inr ⟨_, removed, rfl, ?_, ?_, rfl, rfl⟩
    · refine hsound.of_holds (hsound.sorted.sublist hsub) hsound.keyed ?_ rfl
      rintro item (hitem | hitem)
      · exact Or.inl (hsub.subset hitem)
      · exact Or.inr hitem
    · rw [List.append_nil]
      exact liveIds_perm_of_splice hperm (hasId_iff.mp hid) rfl
  | none =>
    rw [spliceFirst_eq_none_iff] at hsplice
    have hqueued : ¬ ∃ item ∈ queue.items, item.id = id := by
      rintro ⟨item, hitem, hid⟩
      have hno := hsplice item hitem
      rw [hasId_iff.mpr hid] at hno
      cases hno
    cases hget : queue.inflight.get? id with
    | none =>
      refine Or.inl ⟨rfl, ?_⟩
      rw [mem_liveIds, not_or]
      exact ⟨hqueued, OrderedMap.get?_eq_none_iff.mp hget⟩
    | some item =>
      have hkey : id ∈ queue.inflight.keys := List.mem_map_of_mem (OrderedMap.mem_of_get? hget)
      refine Or.inr ⟨_, item, rfl, ?_, ?_, rfl, rfl⟩
      · refine hsound.of_holds hsound.sorted ?_ ?_ rfl
        · intro binding hbinding
          exact hsound.keyed binding (List.mem_filter.mp hbinding).1
        · rintro held (hheld | hheld)
          · exact Or.inl hheld
          · obtain ⟨binding, hbinding, heq⟩ := List.mem_map.mp hheld
            exact Or.inr (heq ▸ List.mem_map_of_mem (List.mem_filter.mp hbinding).1)
      · have hkeys := OrderedMap.perm_keys_erase (List.nodup_append.mp hnodup).2.1 hkey
        have hids := (hkeys.append_left (queue.items.map QueueItem.id)).trans List.perm_middle
        rw [List.append_nil]
        exact hids

theorem remove_spec (hsound : queue.Sound) (hnodup : queue.liveIds.Nodup) (id : JsString) :
    QueueMoves queue (queue.remove id).queue [] (if (queue.remove id).result then [id] else [])
      ∧ (queue.remove id).events = [] := by
  unfold remove
  split
  · exact ⟨QueueMoves.refl hsound, rfl⟩
  rcases removeQueuedOrInflight_spec hsound hnodup id with ⟨heq, -⟩ | ⟨after, item, heq, hmoves⟩
  · rw [heq]
    exact ⟨QueueMoves.refl hsound, rfl⟩
  · rw [heq]
    exact ⟨hmoves, rfl⟩

theorem complete_spec (hsound : queue.Sound) (hnodup : queue.liveIds.Nodup) (id : JsString)
    (now : Int) :
    QueueMoves queue (queue.complete id now).queue [] [] ∧ (queue.complete id now).events = []
      ∨ QueueMoves queue (queue.complete id now).queue [] [id]
        ∧ (queue.complete id now).events = [.completed id] := by
  unfold complete
  split
  · exact Or.inl ⟨QueueMoves.refl hsound, rfl⟩
  rcases removeQueuedOrInflight_spec hsound hnodup id with ⟨heq, -⟩ | ⟨after, item, heq, hmoves⟩
  · rw [heq]
    exact Or.inl ⟨QueueMoves.refl hsound, rfl⟩
  · rw [heq]
    exact Or.inr ⟨hmoves.markTerminal id now, rfl⟩

/-- The items that `clear` publishes as evicted are all that the queue held. -/
theorem evictedIds_clear (hsound : queue.Sound) :
    queue.clear.events.filterMap AutomationEvent.evictedId = queue.liveIds := by
  have hevicted : ∀ items : List (QueueItem T),
      (items.map fun item => AutomationEvent.evicted item.id).filterMap AutomationEvent.evictedId
        = items.map QueueItem.id := by
    intro items
    rw [List.filterMap_map]
    exact List.filterMap_eq_map.symm ▸ rfl
  have hkeys : queue.inflight.values.map QueueItem.id = queue.inflight.keys := by
    unfold OrderedMap.values OrderedMap.keys
    rw [List.map_map]
    exact List.map_congr_left hsound.keyed
  unfold clear liveIds
  rw [List.filterMap_append, hevicted, hevicted, hkeys]

theorem clear_spec (hsound : queue.Sound) : QueueMoves queue queue.clear.queue []
    (queue.clear.events.filterMap AutomationEvent.evictedId) where
  sound := by
    refine hsound.of_holds List.Pairwise.nil (List.forall_mem_nil _) ?_ rfl
    rintro item (h | h)
    · cases h
    · cases h
  balance := by
    rw [evictedIds_clear hsound]
    exact List.Perm.refl _
  counter := rfl
  maxRetries := rfl

theorem dequeue_spec (hsound : queue.Sound) (hnodup : queue.liveIds.Nodup) (now : Int) :
    QueueMoves queue (queue.dequeue now).queue [] []
      ∧ ∀ event ∈ (queue.dequeue now).events, ∃ id, event = .dequeued id := by
  unfold dequeue
  split
  · exact ⟨QueueMoves.refl hsound, List.forall_mem_nil _⟩
  cases hsplice : spliceFirst (isDue now) queue.items with
  | none => exact ⟨QueueMoves.refl hsound, List.forall_mem_nil _⟩
  | some found =>
    obtain ⟨item, rest⟩ := found
    obtain ⟨hperm, hsub, -⟩ := perm_of_spliceFirst hsplice
    have hitem : item ∈ queue.items := hperm.mem_iff.mpr List.mem_cons_self
    have hfresh : item.id ∉ queue.inflight.keys := fun hmem =>
      (List.nodup_append.mp hnodup).2.2 _ (List.mem_map_of_mem hitem) _ hmem rfl
    have hset := OrderedMap.set_of_notMem hfresh item
    dsimp only
    rw [hset]
    refine ⟨⟨?_, ?_, rfl, rfl⟩, ?_⟩
    · refine hsound.of_holds (hsound.sorted.sublist hsub) ?_ ?_ rfl
      · intro binding hbinding
        rcases List.mem_append.mp hbinding with hold | hnew
        · exact hsound.keyed binding hold
        · rw [List.mem_singleton.mp hnew]
      · rintro held (hheld | hheld)
        · exact Or.inl (hsub.subset hheld)
        · obtain ⟨binding, hbinding, rfl⟩ := List.mem_map.mp hheld
          rcases List.mem_append.mp hbinding with hold | hnew
          · exact Or.inr (List.mem_map_of_mem hold)
          · rw [List.mem_singleton.mp hnew]
            exact Or.inl hitem
    · -- the id moves from the items to the end of the map
      have hids := (hperm.map QueueItem.id).append_right queue.inflight.keys
      rw [List.append_nil, List.nil_append]
      refine hids.trans ?_
      show (item.id :: rest.map QueueItem.id ++ queue.inflight.keys).Perm
        (rest.map QueueItem.id ++ OrderedMap.keys (queue.inflight ++ [(item.id, item)]))
      have hkeys : OrderedMap.keys (queue.inflight ++ [(item.id, item)])
          = queue.inflight.keys ++ [item.id] := List.map_append
      rw [hkeys, ← List.append_assoc, List.cons_append]
      exact (List.perm_append_singleton _ _).symm
    · intro event hevent
      exact ⟨item.id, List.mem_singleton.mp hevent⟩

/-! ### A counted failure -/

variable {items : List (QueueItem T)} {changed : QueueItem T}

theorem changeItem_of_forall (h : ∀ item ∈ items, hasId id item = false) :
    changeItem id changed items = items := by
  induction items with
  | nil => rfl
  | cons head tail ih =>
    obtain ⟨hhead, htail⟩ := List.forall_mem_cons.mp h
    rw [changeItem, if_neg (by rw [hhead]; exact Bool.false_ne_true), ih htail]

theorem sortKeys_changeItem (hfind : items.find? (hasId id) = some item)
    (hkey : sortKey changed = sortKey item) :
    (changeItem id changed items).map sortKey = items.map sortKey := by
  induction items with
  | nil => cases hfind
  | cons head tail ih =>
    unfold changeItem
    split
    · next hhead =>
      rw [List.find?_cons_of_pos hhead] at hfind
      cases hfind
      rw [List.map_cons, List.map_cons, hkey]
    · next hhead =>
      rw [List.find?_cons_of_neg hhead] at hfind
      rw [List.map_cons, List.map_cons, ih hfind]

theorem mem_changeItem (h : item ∈ changeItem id changed items) :
    item = changed ∨ item ∈ items := by
  induction items with
  | nil => cases h
  | cons head tail ih =>
    unfold changeItem at h
    split at h
    · rcases List.mem_cons.mp h with heq | hrest
      · exact Or.inl heq
      · exact Or.inr (List.mem_cons_of_mem _ hrest)
    · rcases List.mem_cons.mp h with heq | hrest
      · exact Or.inr (heq ▸ List.mem_cons_self)
      · exact (ih hrest).imp_right (List.mem_cons_of_mem _)

theorem ids_of_sortKeys {others : List (QueueItem T)} (h : items.map sortKey = others.map sortKey) :
    items.map QueueItem.id = others.map QueueItem.id := by
  have hids := congrArg (List.map Prod.fst) h
  rwa [List.map_map, List.map_map] at hids

theorem schedule_spec (hsound : queue.Sound) (hnodup : queue.liveIds.Nodup) {id : JsString}
    {item changed : QueueItem T} (hget : queue.getItem id = some item)
    (hkey : sortKey changed = sortKey item) (hretries : HasRetriesLeft queue changed)
    (hafter : after = { queue with
        inflight := queue.inflight.erase id
        items :=
          if (changeItem id changed queue.items).any (hasId id)
          then changeItem id changed queue.items
          else sortItems (changeItem id changed queue.items ++ [changed]) }) :
    QueueMoves queue after [] [] := by
  have hkeyed : ∀ binding ∈ queue.inflight.erase id, binding.2.id = binding.1 :=
    fun binding hbinding => hsound.keyed binding (List.mem_filter.mp hbinding).1
  have hflying : ∀ held ∈ (queue.inflight.erase id).values, queue.Holds held := by
    intro held hheld
    obtain ⟨binding, hbinding, rfl⟩ := List.mem_map.mp hheld
    exact Or.inr (List.mem_map_of_mem (List.mem_filter.mp hbinding).1)
  cases hfind : queue.items.find? (hasId id) with
  | some found =>
    -- it is queued, and stays where it is
    have hfound : found = item := by
      rw [getItem, hfind] at hget
      exact Option.some.inj hget
    have hsame := sortKeys_changeItem hfind (hfound ▸ hkey)
    have hids := ids_of_sortKeys hsame
    have hmem := List.mem_of_find?_eq_some hfind
    have hid := hasId_iff.mp (List.find?_some hfind)
    have hfresh : id ∉ queue.inflight.keys := fun hinflight =>
      (List.nodup_append.mp hnodup).2.2 _ (List.mem_map_of_mem hmem) _ hinflight hid
    have hany : (changeItem id changed queue.items).any (hasId id) = true := by
      have hin : id ∈ (changeItem id changed queue.items).map QueueItem.id := by
        rw [hids, ← hid]
        exact List.mem_map_of_mem hmem
      obtain ⟨held, hheld, heq⟩ := List.mem_map.mp hin
      exact List.any_eq_true.mpr ⟨held, hheld, hasId_iff.mpr heq⟩
    rw [hany, if_pos rfl] at hafter
    subst hafter
    refine ⟨⟨pairwise_of_sortKeys hsame.symm hsound.sorted, hkeyed, ?_, hsound.someRetry⟩,
      ?_, rfl, rfl⟩
    · rintro held (hheld | hheld)
      · rcases mem_changeItem hheld with rfl | hold
        · exact hretries
        · exact hsound.retries held (Or.inl hold)
      · exact hsound.retries held (hflying held hheld)
    · rw [List.append_nil, List.nil_append]
      unfold liveIds
      rw [hids, OrderedMap.erase_of_notMem hfresh]
  | none =>
    -- it is in flight, and goes back to the items
    have hno : ∀ held ∈ queue.items, hasId id held = false := by
      intro held hheld
      exact Bool.eq_false_iff.mpr (List.find?_eq_none.mp hfind held hheld)
    have hgetFlying : queue.inflight.get? id = some item := by
      unfold getItem at hget
      rwa [hfind] at hget
    have hmem := OrderedMap.mem_of_get? hgetFlying
    have hid : changed.id = id := (congrArg Prod.fst hkey).trans (hsound.keyed _ hmem)
    have hany : queue.items.any (hasId id) = false := List.any_eq_false.mpr fun held hheld => by
      rw [hno held hheld]
      exact Bool.false_ne_true
    rw [changeItem_of_forall hno, hany, if_neg Bool.false_ne_true] at hafter
    subst hafter
    have hsorted := sortItems_perm (queue.items ++ [changed])
    refine ⟨⟨pairwise_sortItems _, hkeyed, ?_, hsound.someRetry⟩, ?_, rfl, rfl⟩
    · rintro held (hheld | hheld)
      · rcases List.mem_append.mp (hsorted.mem_iff.mp hheld) with hold | hnew
        · exact hsound.retries held (Or.inl hold)
        · rw [List.mem_singleton.mp hnew]
          exact hretries
      · exact hsound.retries held (hflying held hheld)
    · have hkeys := OrderedMap.perm_keys_erase (List.nodup_append.mp hnodup).2.1
        (List.mem_map_of_mem hmem)
      have hitems := (hsorted.map QueueItem.id).append_right (queue.inflight.erase id).keys
      rw [List.map_append, List.map_singleton, hid, List.append_assoc] at hitems
      rw [List.append_nil, List.nil_append]
      exact (hkeys.append_left _).trans hitems.symm

theorem retry_spec (hsound : queue.Sound) (hnodup : queue.liveIds.Nodup) (id : JsString)
    (lastAttempt now : Int) :
    QueueMoves queue (queue.retry id lastAttempt now).queue [] []
        ∧ (∀ event ∈ (queue.retry id lastAttempt now).events,
          ∃ attempt time backoff, event = .retryScheduled id attempt time backoff)
      ∨ ∃ attempts : Nat, QueueMoves queue (queue.retry id lastAttempt now).queue [] [id]
        ∧ (queue.retry id lastAttempt now).events = [.failed id attempts]
        ∧ (attempts : Int) ≤ queue.defaultMaxRetries := by
  unfold retry
  split
  · exact Or.inl ⟨QueueMoves.refl hsound, List.forall_mem_nil _⟩
  cases hget : queue.getItem id with
  | none => exact Or.inl ⟨QueueMoves.refl hsound, List.forall_mem_nil _⟩
  | some item =>
    have hlive : queue.Holds item := by
      rcases Option.or_eq_some_iff.mp hget with hqueued | ⟨-, hflying⟩
      · exact Or.inl (List.mem_of_find?_eq_some hqueued)
      · exact Or.inr (List.mem_map_of_mem (OrderedMap.mem_of_get? hflying))
    obtain ⟨retry, hretry, hmax, hless⟩ := hsound.retries item hlive
    dsimp only
    rw [hretry]
    dsimp only
    unfold retryItem
    split
    · next hspent =>
      refine Or.inr ⟨(retry.failedAgain lastAttempt).attempts, ?_, rfl, ?_⟩
      · rcases removeQueuedOrInflight_spec hsound hnodup id with
          ⟨-, hgone⟩ | ⟨after, removed, heq, hmoves⟩
        · exact absurd (mem_liveIds_of_getItem hget) hgone
        · rw [heq]
          exact hmoves.markTerminal id now
      · show ((retry.attempts + 1 : Nat) : Int) ≤ queue.defaultMaxRetries
        omega
    · next hspent =>
      have hleft : ¬ retry.maxAttempts ≤ ((retry.attempts + 1 : Nat) : Int) := hspent
      have hmore : ((retry.attempts + 1 : Nat) : Int) < queue.defaultMaxRetries := by omega
      let counted := retry.failedAgain lastAttempt
      have hmoves := @schedule_spec T queue _ hsound hnodup id item
        { item with
          retry := some { counted with nextAttemptAt := some (now + counted.backoff) } }
        hget rfl ⟨_, rfl, hmax, hmore⟩ rfl
      refine Or.inl ⟨hmoves, ?_⟩
      intro event hevent
      exact ⟨_, _, _, List.mem_singleton.mp hevent⟩

/-! ### A new item -/

theorem push_spec {out : List JsString} (h : QueueMoves queue after [] out)
    (hitem : HasRetriesLeft queue item) (published : List AutomationEvent) :
    QueueMoves queue (after.push item published).queue [item.id] out where
  sound := by
    have hsorted := sortItems_perm (after.items ++ [item])
    refine ⟨pairwise_sortItems _, h.sound.keyed, ?_, h.sound.someRetry⟩
    rintro held (hheld | hheld)
    · rcases List.mem_append.mp (hsorted.mem_iff.mp hheld) with hold | hnew
      · exact h.sound.retries held (Or.inl hold)
      · obtain ⟨retry, hretry, hmax, hless⟩ := hitem
        rw [List.mem_singleton.mp hnew]
        exact ⟨retry, hretry, hmax.trans h.maxRetries.symm, h.maxRetries ▸ hless⟩
    · exact h.sound.retries held (Or.inr hheld)
  balance := by
    have hids : (after.push item published).queue.liveIds.Perm (after.liveIds ++ [item.id]) := by
      have hsorted := (sortItems_perm (after.items ++ [item])).map QueueItem.id
      rw [List.map_append, List.map_singleton] at hsorted
      refine (hsorted.append_right after.inflight.keys).trans ?_
      rw [liveIds, List.append_assoc, List.append_assoc]
      exact List.perm_append_comm.append_left _
    have hbefore := h.balance
    rw [List.append_nil] at hbefore
    refine (hbefore.append_right [item.id]).trans ?_
    rw [List.append_assoc]
    exact hids.symm.append_left out
  counter := congrArg (· + 1) h.counter
  maxRetries := h.maxRetries

theorem perm_eraseIdx {α : Type*} (items : List α) (index : Nat) :
    items.Perm (items[index]?.toList ++ items.eraseIdx index) := by
  by_cases h : index < items.length
  · rw [List.getElem?_eq_getElem h]
    exact (List.getElem_cons_eraseIdx_perm h).symm
  · rw [List.getElem?_eq_none (by omega), List.eraseIdx_of_length_le (by omega)]
    exact List.Perm.refl _

theorem eraseIdx_moves (hsound : queue.Sound) (index : Nat) :
    QueueMoves queue { queue with items := queue.items.eraseIdx index } []
      (queue.items[index]?.toList.map QueueItem.id) where
  sound := by
    have hsub := List.eraseIdx_sublist queue.items index
    refine hsound.of_holds (hsound.sorted.sublist hsub) hsound.keyed ?_ rfl
    rintro item (hitem | hitem)
    · exact Or.inl (hsub.subset hitem)
    · exact Or.inr hitem
  balance := by
    have hids := ((perm_eraseIdx queue.items index).map QueueItem.id).append_right
      queue.inflight.keys
    rw [List.map_append, List.append_assoc] at hids
    rw [List.append_nil]
    exact hids
  counter := rfl
  maxRetries := rfl

theorem enqueue_spec (hsound : queue.Sound) (payload : T) (priority : QueuePriority)
    (metadata : Option Json) (idTime createdAt : Int) :
    let effect := queue.enqueue payload priority metadata idTime createdAt
    QueueMoves queue effect.queue effect.result.toOption.toList
        (effect.events.filterMap AutomationEvent.evictedId)
      ∧ (∀ id, effect.result = .ok id → id = itemId idTime (queue.itemCounter + 1))
      ∧ ∀ event ∈ effect.events,
        (∃ id, event = .evicted id) ∨ ∃ id priority, event = .enqueued id priority := by
  intro effect
  have hnew : HasRetriesLeft queue (queue.newItem payload priority metadata idTime createdAt) := by
    have hone := hsound.someRetry
    refine ⟨_, rfl, rfl, ?_⟩
    show ((0 : Nat) : Int) < queue.defaultMaxRetries
    omega
  by_cases hfull : queue.maxSize ≤ queue.items.length
  · cases hstrategy : queue.overflowStrategy with
    | throw =>
      have heffect : effect =
          { queue := queue, result := .error (queueFullError queue.maxSize), events := [] } := by
        show queue.enqueue payload priority metadata idTime createdAt = _
        rw [enqueue, if_pos hfull, hstrategy]
      rw [heffect]
      exact ⟨QueueMoves.refl hsound, (fun _ h => nomatch h), List.forall_mem_nil _⟩
    | evictOldest =>
      let index := oldestIdx queue.items
      have heffect : effect = push { queue with items := queue.items.eraseIdx index }
          (queue.newItem payload priority metadata idTime createdAt)
          (queue.items[index]?.toList.map fun evicted => .evicted evicted.id) := by
        show queue.enqueue payload priority metadata idTime createdAt = _
        rw [enqueue, if_pos hfull, hstrategy]
      rw [heffect]
      have hevicted : (queue.items[index]?.toList.map QueueItem.id)
          = (push { queue with items := queue.items.eraseIdx index }
            (queue.newItem payload priority metadata idTime createdAt)
            (queue.items[index]?.toList.map fun evicted => .evicted evicted.id)).events.filterMap
              AutomationEvent.evictedId := by
        cases queue.items[index]? with
        | none => rfl
        | some item => rfl
      refine ⟨hevicted ▸ push_spec (eraseIdx_moves hsound index) hnew _, ?_, ?_⟩
      · intro id hid
        exact (Except.ok.inj hid).symm
      · intro event hevent
        rcases List.mem_append.mp hevent with hevicted | henqueued
        · obtain ⟨item, -, rfl⟩ := List.mem_map.mp hevicted
          exact Or.inl ⟨_, rfl⟩
        · exact Or.inr ⟨_, _, List.mem_singleton.mp henqueued⟩
  · have heffect : effect = queue.push
        (queue.newItem payload priority metadata idTime createdAt) [] := by
      show queue.enqueue payload priority metadata idTime createdAt = _
      rw [enqueue, if_neg hfull]
    rw [heffect]
    refine ⟨push_spec (QueueMoves.refl hsound) hnew _, fun id hid => (Except.ok.inj hid).symm, ?_⟩
    intro event hevent
    exact Or.inr ⟨_, _, List.mem_singleton.mp hevent⟩

end AutomationQueue

/-! ## Accounts -/

open AutomationQueue

/-- Ids are issued once: the count is what stands behind the last dash. -/
theorem itemId_inj {now now' : Int} {count count' : Nat}
    (h : itemId now count = itemId now' count') :
    count = count' := by
  have hbody := List.append_cancel_left h
  have hrest := (readsUniquely_integerText now now' _ _ hbody (delimits_cons rfl _)
    (delimits_cons rfl _)).2
  have hdigits := congrArg decimalValue (List.cons.inj hrest).2
  rwa [decimalValue_decimal, decimalValue_decimal] at hdigits

def AutomationEvent.completedId : AutomationEvent → Option JsString
  | .completed itemId => some itemId
  | _ => none

def AutomationEvent.failedId : AutomationEvent → Option JsString
  | .failed itemId _ => some itemId
  | _ => none

theorem countP_isCompleted (id : JsString) (events : List AutomationEvent) :
    events.countP (AutomationEvent.isCompleted id)
      = (events.filterMap AutomationEvent.completedId).count id := by
  induction events with
  | nil => rfl
  | cons event rest ih =>
    rw [List.countP_cons, ih, List.filterMap_cons]
    cases event with
    | completed itemId => rw [AutomationEvent.completedId, List.count_cons,
      AutomationEvent.isCompleted]
    | _ => rfl

theorem countP_isFailed (id : JsString) (events : List AutomationEvent) :
    events.countP (AutomationEvent.isFailed id)
      = (events.filterMap AutomationEvent.failedId).count id := by
  induction events with
  | nil => rfl
  | cons event rest ih =>
    rw [List.countP_cons, ih, List.filterMap_cons]
    cases event with
    | failed itemId attempts => rw [AutomationEvent.failedId, List.count_cons,
      AutomationEvent.isFailed]
    | _ => rfl

/-- The issued ids are the ones held and the ones gone, each with its event. -/
structure AutomationWorld.Accounts (w : AutomationWorld T) : Prop where
  sound : w.queue.Sound
  balance : w.issued.Perm (w.queue.liveIds ++ (w.completed ++ w.exhausted ++ w.dropped))
  issuedOnce : w.issued.Nodup
  counted : ∀ id ∈ w.issued, ∃ now count, id = itemId now count ∧ count ≤ w.queue.itemCounter
  completedEvents : w.events.filterMap AutomationEvent.completedId = w.completed
  failedEvents : w.events.filterMap AutomationEvent.failedId = w.exhausted
  failedAttempts : ∀ id (attempts : Nat), .failed id attempts ∈ w.events →
    (attempts : Int) ≤ w.queue.defaultMaxRetries

namespace AutomationWorld

variable {w : AutomationWorld T}

theorem Accounts.liveNodup (h : w.Accounts) : w.queue.liveIds.Nodup :=
  (List.nodup_append.mp (h.balance.nodup h.issuedOnce)).1

variable {out : List JsString}

theorem Accounts.takenOut_perm (h : w.Accounts) {after : AutomationQueue T}
    (hmoves : QueueMoves w.queue after [] out) : (takenOut w.queue after).Perm out := by
  have hlive := hmoves.balance
  rw [List.append_nil] at hlive
  obtain ⟨hout, -, hdisjoint⟩ := List.nodup_append.mp (hlive.nodup h.liveNodup)
  refine (List.perm_ext_iff_of_nodup (h.liveNodup.filter _) hout).mpr fun id => ?_
  rw [List.mem_filter, decide_eq_true_eq]
  constructor
  · rintro ⟨hheld, hgone⟩
    exact (List.mem_append.mp (hlive.mem_iff.mp hheld)).resolve_right hgone
  · intro hid
    exact ⟨hlive.mem_iff.mpr (List.mem_append_left _ hid),
      fun hheld => hdisjoint id hid id hheld rfl⟩

/-- Events that settle nothing. -/
def Quiet (events : List AutomationEvent) : Prop :=
  events.filterMap AutomationEvent.completedId = []
    ∧ events.filterMap AutomationEvent.failedId = []

variable {events : List AutomationEvent}

theorem quiet_of_forall (h : ∀ event ∈ events, event.completedId = none ∧ event.failedId = none) :
    Quiet events :=
  ⟨List.filterMap_eq_nil_iff.mpr fun event hevent => (h event hevent).1,
    List.filterMap_eq_nil_iff.mpr fun event hevent => (h event hevent).2⟩

variable {id : JsString}

theorem failed_notMem_of_quiet (h : Quiet events) {attempts : Nat} :
    AutomationEvent.failed id attempts ∉ events := by
  intro hmem
  have hnone := List.filterMap_eq_nil_iff.mp h.2 _ hmem
  cases hnone

theorem Accounts.failedAttempts_of_quiet (h : w.Accounts) {after : AutomationQueue T}
    (hmax : after.defaultMaxRetries = w.queue.defaultMaxRetries) (hquiet : Quiet events)
    (id : JsString) (attempts : Nat) (hmem : .failed id attempts ∈ w.events ++ events) :
    (attempts : Int) ≤ after.defaultMaxRetries := by
  rcases List.mem_append.mp hmem with hold | hnew
  · exact hmax ▸ h.failedAttempts id attempts hold
  · exact absurd hnew (failed_notMem_of_quiet hquiet)

/-- A call that issues nothing and says what it completes and exhausts keeps the accounts, if
    what it took out is what is gone behind it. -/
theorem Accounts.settle (h : w.Accounts) {next : AutomationWorld T}
    (hmoves : QueueMoves w.queue next.queue [] out) (hissued : next.issued = w.issued)
    (hgone : (next.completed ++ next.exhausted ++ next.dropped).Perm
      (out ++ (w.completed ++ w.exhausted ++ w.dropped)))
    (hevents : next.events = w.events ++ events)
    (hcompleted : next.completed = w.completed ++ events.filterMap AutomationEvent.completedId)
    (hexhausted : next.exhausted = w.exhausted ++ events.filterMap AutomationEvent.failedId)
    (hattempts : ∀ id (attempts : Nat), .failed id attempts ∈ events →
      (attempts : Int) ≤ w.queue.defaultMaxRetries) : next.Accounts where
  sound := hmoves.sound
  balance := by
    have hlive := hmoves.balance
    rw [List.append_nil] at hlive
    rw [hissued]
    refine h.balance.trans ((hlive.append_right _).trans ?_)
    refine (List.perm_append_comm.append_right _).trans ?_
    rw [List.append_assoc]
    exact hgone.symm.append_left _
  issuedOnce := hissued ▸ h.issuedOnce
  counted := by
    intro id hid
    obtain ⟨now, count, heq, hcount⟩ := h.counted id (hissued ▸ hid)
    exact ⟨now, count, heq, by rw [hmoves.counter]; exact hcount⟩
  completedEvents := by rw [hevents, List.filterMap_append, h.completedEvents, hcompleted]
  failedEvents := by rw [hevents, List.filterMap_append, h.failedEvents, hexhausted]
  failedAttempts := by
    intro id attempts hmem
    rw [hevents] at hmem
    rw [hmoves.maxRetries]
    exact (List.mem_append.mp hmem).elim (h.failedAttempts id attempts) (hattempts id attempts)

theorem Accounts.drop (h : w.Accounts) {after : AutomationQueue T} {removed : List JsString}
    (hmoves : QueueMoves w.queue after [] (removed ++ events.filterMap AutomationEvent.evictedId))
    (hquiet : Quiet events) :
    (w.drop after removed events).Accounts := by
  refine h.settle hmoves rfl ?_ rfl ?_ ?_ fun _ _ hmem => absurd hmem
    (failed_notMem_of_quiet hquiet)
  · show (w.completed ++ w.exhausted ++ (w.dropped ++ _)).Perm _
    rw [← List.append_assoc]
    exact List.perm_append_comm
  · rw [hquiet.1]
    exact (List.append_nil _).symm
  · rw [hquiet.2]
    exact (List.append_nil _).symm

theorem Accounts.enqueue (h : w.Accounts) (payload : T) (priority : QueuePriority)
    (metadata : Option Json) (idTime createdAt : Int) :
    (automationStep w (.enqueue payload priority metadata idTime createdAt)).Accounts := by
  obtain ⟨hmoves, hid, hevents⟩ :=
    enqueue_spec h.sound payload priority metadata idTime createdAt
  let effect := w.queue.enqueue payload priority metadata idTime createdAt
  let new := effect.result.toOption.toList
  have hnewId : ∀ id ∈ new, id = itemId idTime (w.queue.itemCounter + 1)
      ∧ effect.queue.itemCounter = w.queue.itemCounter + 1 := by
    intro id hmem
    have hcounter := hmoves.counter
    cases hresult : effect.result with
    | error message =>
      rw [show new = [] by show effect.result.toOption.toList = []; rw [hresult]; rfl] at hmem
      cases hmem
    | ok issued =>
      have hnew : new = [issued] := by
        show effect.result.toOption.toList = [issued]
        rw [hresult]
        rfl
      rw [hnew] at hmem
      rw [List.mem_singleton.mp hmem]
      refine ⟨hid issued hresult, ?_⟩
      have hlength : new.length = 1 := by rw [hnew]; rfl
      rw [← hlength]
      exact hcounter
  have hfresh : ∀ id ∈ new, id ∉ w.issued := by
    intro id hmem hissued
    obtain ⟨now, count, heq, hcount⟩ := h.counted id hissued
    have hsame := itemId_inj (heq.symm.trans (hnewId id hmem).1)
    omega
  have hnewNodup : new.Nodup := by
    show effect.result.toOption.toList.Nodup
    cases effect.result.toOption with
    | none => exact List.nodup_nil
    | some id => exact List.nodup_singleton id
  have hissuedOnce : (w.issued ++ new).Nodup :=
    List.nodup_append.mpr ⟨h.issuedOnce, hnewNodup,
      fun id hid id' hid' heq => hfresh id' hid' (heq ▸ hid)⟩
  have hwhole := h.balance.append_right new
  have hquiet : Quiet effect.events := quiet_of_forall fun event hevent => by
    rcases hevents event hevent with ⟨id, rfl⟩ | ⟨id, priority, rfl⟩
    · exact ⟨rfl, rfl⟩
    · exact ⟨rfl, rfl⟩
  refine ⟨hmoves.sound, ?_, hissuedOnce, ?_, ?_, ?_,
    h.failedAttempts_of_quiet hmoves.maxRetries hquiet⟩
  · show (w.issued ++ new).Perm (effect.queue.liveIds
      ++ (w.completed ++ w.exhausted
        ++ (w.dropped ++ effect.events.filterMap AutomationEvent.evictedId)))
    -- the new id comes in, what was evicted goes over to the dropped
    have hgone := (@List.perm_append_comm _ (w.completed ++ w.exhausted ++ w.dropped)
      new).append_left w.queue.liveIds
    rw [List.append_assoc] at hwhole
    refine (hwhole.trans hgone).trans ?_
    rw [← List.append_assoc]
    refine (hmoves.balance.append_right _).trans ?_
    refine (List.perm_append_comm.append_right _).trans ?_
    rw [List.append_assoc, ← List.append_assoc (w.completed ++ w.exhausted)]
    exact List.perm_append_comm.append_left _
  · intro id hmem
    rcases List.mem_append.mp hmem with hold | hnew
    · obtain ⟨now, count, heq, hcount⟩ := h.counted id hold
      have hcounter : effect.queue.itemCounter = w.queue.itemCounter + new.length :=
        hmoves.counter
      refine ⟨now, count, heq, hcount.trans ?_⟩
      show w.queue.itemCounter ≤ effect.queue.itemCounter
      omega
    · obtain ⟨heq, hcounter⟩ := hnewId id hnew
      exact ⟨idTime, _, heq, hcounter.ge⟩
  · show (w.events ++ effect.events).filterMap _ = w.completed
    rw [List.filterMap_append, h.completedEvents, hquiet.1, List.append_nil]
  · show (w.events ++ effect.events).filterMap _ = w.exhausted
    rw [List.filterMap_append, h.failedEvents, hquiet.2, List.append_nil]

theorem Accounts.complete (h : w.Accounts) (id : JsString) (now : Int) :
    (automationStep w (.complete id now)).Accounts := by
  dsimp only [automationStep]
  rcases complete_spec h.sound h.liveNodup id now with ⟨hmoves, hevents⟩ | ⟨hmoves, hevents⟩
  · have htaken := List.perm_nil.mp (h.takenOut_perm hmoves)
    refine h.settle hmoves rfl ?_ rfl ?_ ?_ ?_
    · rw [htaken, List.append_nil]
      exact List.Perm.refl _
    · rw [htaken, hevents]
      rfl
    · rw [hevents]
      exact (List.append_nil _).symm
    · rw [hevents]
      exact fun _ _ hmem => absurd hmem List.not_mem_nil
  · have htaken := List.perm_singleton.mp (h.takenOut_perm hmoves)
    refine h.settle hmoves rfl ?_ rfl ?_ ?_ ?_
    · rw [htaken]
      simp
    · rw [htaken, hevents]
      rfl
    · rw [hevents]
      exact (List.append_nil _).symm
    · rw [hevents]
      exact fun _ _ hmem => nomatch List.mem_singleton.mp hmem

theorem Accounts.retry (h : w.Accounts) (id : JsString) (lastAttempt now : Int) :
    (automationStep w (.retry id lastAttempt now)).Accounts := by
  dsimp only [automationStep]
  rcases retry_spec h.sound h.liveNodup id lastAttempt now with
    ⟨hmoves, hevents⟩ | ⟨attempts, hmoves, hevents, hattempts⟩
  · have htaken := List.perm_nil.mp (h.takenOut_perm hmoves)
    have hquiet : Quiet (w.queue.retry id lastAttempt now).events := by
      refine quiet_of_forall fun event hevent => ?_
      obtain ⟨attempt, time, backoff, rfl⟩ := hevents event hevent
      exact ⟨rfl, rfl⟩
    refine h.settle hmoves rfl ?_ rfl ?_ ?_ ?_
    · rw [htaken, List.append_nil]
      exact List.Perm.refl _
    · rw [hquiet.1]
      exact (List.append_nil _).symm
    · rw [htaken, hquiet.2]
    · exact fun _ _ hmem => absurd hmem (failed_notMem_of_quiet hquiet)
  · have htaken := List.perm_singleton.mp (h.takenOut_perm hmoves)
    refine h.settle hmoves rfl ?_ rfl ?_ ?_ ?_
    · have hmiddle := @List.perm_middle _ id (w.completed ++ w.exhausted) w.dropped
      rw [htaken]
      simpa using hmiddle
    · rw [hevents]
      exact (List.append_nil _).symm
    · rw [htaken, hevents]
      rfl
    · rw [hevents]
      intro other count hmem
      cases List.mem_singleton.mp hmem
      exact hmoves.maxRetries ▸ hattempts

theorem Accounts.step (h : w.Accounts) (call : AutomationCall T) :
    (automationStep w call).Accounts := by
  cases call with
  | enqueue payload priority metadata idTime createdAt =>
    exact h.enqueue payload priority metadata idTime createdAt
  | dequeue now =>
    obtain ⟨hmoves, hevents⟩ := dequeue_spec h.sound h.liveNodup now
    have hkept : (w.queue.dequeue now).events.filterMap AutomationEvent.evictedId = [] := by
      refine List.filterMap_eq_nil_iff.mpr fun event hevent => ?_
      obtain ⟨id, rfl⟩ := hevents event hevent
      rfl
    refine h.drop (hkept.symm ▸ hmoves) (quiet_of_forall fun event hevent => ?_)
    obtain ⟨id, rfl⟩ := hevents event hevent
    exact ⟨rfl, rfl⟩
  | complete id now => exact h.complete id now
  | retry id lastAttempt now => exact h.retry id lastAttempt now
  | remove id =>
    obtain ⟨hmoves, hevents⟩ := remove_spec h.sound h.liveNodup id
    refine h.drop ?_ ?_
    · rw [hevents, List.filterMap_nil, List.append_nil]
      exact hmoves
    · rw [hevents]
      exact ⟨rfl, rfl⟩
  | clear =>
    refine h.drop (clear_spec h.sound) (quiet_of_forall fun event hevent => ?_)
    rcases List.mem_append.mp hevent with hqueued | hflying
    · obtain ⟨item, -, rfl⟩ := List.mem_map.mp hqueued
      exact ⟨rfl, rfl⟩
    · obtain ⟨item, -, rfl⟩ := List.mem_map.mp hflying
      exact ⟨rfl, rfl⟩

theorem Accounts.run (h : w.Accounts) (calls : List (AutomationCall T)) :
    (calls.foldl automationStep w).Accounts := by
  induction calls generalizing w with
  | nil => exact h
  | cons call rest ih => exact ih (h.step call)

theorem accounts_start {config : QueueConfig} (hretries : 1 ≤ config.defaultMaxRetries.getD 3) :
    (AutomationWorld.start config : AutomationWorld T).Accounts where
  sound :=
    { sorted := List.Pairwise.nil
      keyed := List.forall_mem_nil _
      retries := by
        rintro item (h | h)
        · cases h
        · cases h
      someRetry := hretries }
  balance := List.Perm.refl _
  issuedOnce := List.nodup_nil
  counted := List.forall_mem_nil _
  completedEvents := rfl
  failedEvents := rfl
  failedAttempts := fun _ _ h => absurd h List.not_mem_nil

theorem Accounts.mem_issued_iff (h : w.Accounts) (id : JsString) :
    id ∈ w.issued ↔ ∃ place, w.At id place := by
  rw [h.balance.mem_iff, List.mem_append, mem_liveIds, List.mem_append, List.mem_append]
  constructor
  · rintro ((hqueued | hflying) | hsettled | hdropped)
    · exact ⟨.queued, hqueued⟩
    · exact ⟨.inFlight, hflying⟩
    · exact ⟨.settled, hsettled⟩
    · exact ⟨.dropped, hdropped⟩
  · rintro ⟨place, hplace⟩
    cases place with
    | queued => exact Or.inl (Or.inl hplace)
    | inFlight => exact Or.inl (Or.inr hplace)
    | settled => exact Or.inr (Or.inl hplace)
    | dropped => exact Or.inr (Or.inr hplace)

variable {place : ItemPlace}

theorem Accounts.place_unique (h : w.Accounts) {other : ItemPlace} (hplace : w.At id place)
    (hother : w.At id other) : place = other := by
  have hnodup := h.balance.nodup h.issuedOnce
  obtain ⟨hlive, hgone, hapart⟩ := List.nodup_append.mp hnodup
  have hflying := (List.nodup_append.mp hlive).2.2
  have hdropped := (List.nodup_append.mp hgone).2.2
  have hout : ∀ {id}, (w.At id .queued ∨ w.At id .inFlight) →
      (w.At id .settled ∨ w.At id .dropped) → False := by
    intro id hheld hleft
    refine hapart id (mem_liveIds.mpr hheld) id ?_ rfl
    rw [List.mem_append, List.mem_append]
    exact hleft
  have hheld : ∀ {id}, w.At id .queued → w.At id .inFlight → False := by
    rintro id ⟨item, hitem, rfl⟩ hinflight
    exact hflying _ (List.mem_map_of_mem hitem) _ hinflight rfl
  have hleft : ∀ {id}, w.At id .settled → w.At id .dropped → False := by
    intro id hsettled hmem
    exact hdropped id (List.mem_append.mpr hsettled) id hmem rfl
  cases place with
  | queued =>
    cases other with
    | queued => rfl
    | inFlight => exact (hheld hplace hother).elim
    | settled => exact (hout (Or.inl hplace) (Or.inl hother)).elim
    | dropped => exact (hout (Or.inl hplace) (Or.inr hother)).elim
  | inFlight =>
    cases other with
    | queued => exact (hheld hother hplace).elim
    | inFlight => rfl
    | settled => exact (hout (Or.inr hplace) (Or.inl hother)).elim
    | dropped => exact (hout (Or.inr hplace) (Or.inr hother)).elim
  | settled =>
    cases other with
    | queued => exact (hout (Or.inl hother) (Or.inl hplace)).elim
    | inFlight => exact (hout (Or.inr hother) (Or.inl hplace)).elim
    | settled => rfl
    | dropped => exact (hleft hplace hother).elim
  | dropped =>
    cases other with
    | queued => exact (hout (Or.inl hother) (Or.inr hplace)).elim
    | inFlight => exact (hout (Or.inr hother) (Or.inr hplace)).elim
    | settled => exact (hleft hother hplace).elim
    | dropped => rfl

theorem Accounts.keepsWork (h : w.Accounts) : w.KeepsWork where
  onePlace := by
    intro id hid
    obtain ⟨place, hplace⟩ := (h.mem_issued_iff id).mp hid
    exact ⟨place, hplace, fun other hother => h.place_unique hother hplace⟩
  onlyIssued := fun id place hplace => (h.mem_issued_iff id).mpr ⟨place, hplace⟩
  issuedOnce := h.issuedOnce
  heldOnce := h.liveNodup
  attempts := by
    intro item hitem retry hretry
    obtain ⟨held, hheld, hmax, hless⟩ := h.sound.retries item hitem
    cases hheld.symm.trans hretry
    rw [hmax]
    exact hless.le
  failedAttempts := h.failedAttempts
  completedOnce := by
    intro id
    have hgone := (List.nodup_append.mp (h.balance.nodup h.issuedOnce)).2.1
    have hcompleted := (List.nodup_append.mp (List.nodup_append.mp hgone).1).1
    rw [countP_isCompleted, h.completedEvents, hcompleted.count]
  failedOnce := by
    intro id
    have hgone := (List.nodup_append.mp (h.balance.nodup h.issuedOnce)).2.1
    have hexhausted := (List.nodup_append.mp (List.nodup_append.mp hgone).1).2.1
    rw [countP_isFailed, h.failedEvents, hexhausted.count]
  sorted := h.sound.sorted

theorem at_step (call : AutomationCall T) (hplace : place = .settled ∨ place = .dropped)
    (h : w.At id place) : (automationStep w call).At id place := by
  rcases hplace with rfl | rfl
  · cases call with
    | complete other now => exact h.imp_left (List.mem_append_left _)
    | retry other lastAttempt now => exact h.imp_right (List.mem_append_left _)
    | enqueue payload priority metadata idTime createdAt | dequeue now | remove other | clear =>
      exact h
  · cases call with
    | complete other now | retry other lastAttempt now => exact h
    | enqueue payload priority metadata idTime createdAt | dequeue now | remove other | clear =>
      exact List.mem_append_left _ h

theorem at_run (calls : List (AutomationCall T)) (hplace : place = .settled ∨ place = .dropped)
    (h : w.At id place) : (calls.foldl automationStep w).At id place := by
  induction calls generalizing w with
  | nil => exact h
  | cons call rest ih => exact ih (at_step call hplace h)

end AutomationWorld

/-! ## Every run -/

/-- Whatever is called, and with whatever ids and times: every issued id is in one place,
    and what is settled or dropped is never queued or in flight again. -/
theorem keepsWork_of_calls (config : QueueConfig)
    (hretries : 1 ≤ config.defaultMaxRetries.getD 3) (calls later : List (AutomationCall T)) :
    let w := calls.foldl automationStep (AutomationWorld.start config)
    let after := later.foldl automationStep w
    w.KeepsWork ∧ ∀ id, (w.At id .settled ∨ w.At id .dropped) →
      ¬ after.At id .queued ∧ ¬ after.At id .inFlight := by
  intro w after
  have hw : w.Accounts := (AutomationWorld.accounts_start hretries).run calls
  have hafter : after.Accounts := hw.run later
  refine ⟨hw.keepsWork, ?_⟩
  have hstays : ∀ place, place = .settled ∨ place = .dropped → ∀ id, w.At id place →
      ¬ after.At id .queued ∧ ¬ after.At id .inFlight := by
    intro place hplace id hid
    have hlater := AutomationWorld.at_run later hplace hid
    constructor
    · intro hqueued
      cases hafter.place_unique hqueued hlater
      exact hplace.elim (fun h => nomatch h) fun h => nomatch h
    · intro hflying
      cases hafter.place_unique hflying hlater
      exact hplace.elim (fun h => nomatch h) fun h => nomatch h
  rintro id (hsettled | hdropped)
  · exact hstays .settled (Or.inl rfl) id hsettled
  · exact hstays .dropped (Or.inr rfl) id hdropped

/-- The default configuration, an item that fails once and is completed then. -/
theorem keepsWork_failsOnce :
    let w := [AutomationCall.enqueue () .normal none 5 5, .dequeue 6, .retry (itemId 5 1) 7 7,
      .dequeue 2000, .complete (itemId 5 1) 2001].foldl automationStep
        (AutomationWorld.start
          { maxSize := none
            defaultMaxRetries := none
            defaultBackoffMs := none
            maxBackoffMs := none
            overflowStrategy := none })
    w.KeepsWork ∧ w.completed = [itemId 5 1] := by
  refine ⟨(keepsWork_of_calls _ (by decide) _ []).1, ?_⟩
  decide +kernel

end OpencodeSwarm
