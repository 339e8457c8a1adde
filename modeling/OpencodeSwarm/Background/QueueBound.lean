/-
  OpencodeSwarm.Background.QueueBound

  The bound on the queued items.  `enqueue` looks at the capacity and `retry`
  does not, so a failed item that comes back from flight can pass the bound; the
  queue stays within it exactly when every such item finds a free place.
-/
import OpencodeSwarm.Background.QueuePartition

namespace OpencodeSwarm

open Js

variable {T : Type*}

namespace AutomationQueue

/-! ## The condition -/

/-- `retry(id)` puts an item in flight back into the queue: it is not settled, it is not
    queued, and it has an attempt left. -/
def Requeues (queue : AutomationQueue T) (id : JsString) : Prop :=
  queue.isTerminal id = false ∧ (∀ item ∈ queue.items, hasId id item = false)
    ∧ ∃ item retry, queue.inflight.get? id = some item ∧ item.retry = some retry
      ∧ (retry.attempts : Int) + 1 < retry.maxAttempts

/-- A call finds room: `enqueue` does not evict from a queue of no capacity, and `retry`
    puts nothing back into a full queue. -/
def FindsRoom (queue : AutomationQueue T) : AutomationCall T → Prop
  | .enqueue .. => queue.overflowStrategy = .evictOldest → 1 ≤ queue.maxSize
  | .retry id _ _ => queue.Requeues id → (queue.items.length : Int) < queue.maxSize
  | _ => True

def WithinBound (queue : AutomationQueue T) : Prop :=
  (queue.items.length : Int) ≤ queue.maxSize

/-! ## What the calls do to the number of items -/

variable (queue : AutomationQueue T)

/-- A call neither changes the capacity nor the overflow strategy. -/
structure SameLimits (queue after : AutomationQueue T) : Prop where
  maxSize : after.maxSize = queue.maxSize
  overflowStrategy : after.overflowStrategy = queue.overflowStrategy

theorem oldestFrom_lt (items : List (QueueItem T)) (i oldestIdx : Nat) (createdAt : Int)
    (h : oldestIdx < i) : oldestFrom items i oldestIdx createdAt < i + items.length := by
  induction items generalizing i oldestIdx createdAt with
  | nil =>
    show oldestIdx < i + 0
    omega
  | cons item rest ih =>
    rw [List.length_cons]
    unfold oldestFrom
    split
    · have hrest := ih (i + 1) i item.createdAt (by omega)
      omega
    · have hrest := ih (i + 1) oldestIdx createdAt (by omega)
      omega

theorem oldestIdx_lt (h : queue.items ≠ []) : oldestIdx queue.items < queue.items.length := by
  obtain ⟨item, rest, hitems⟩ := List.exists_cons_of_ne_nil h
  rw [hitems]
  have hlt := oldestFrom_lt rest 1 0 item.createdAt (by omega)
  show oldestFrom rest 1 0 item.createdAt < rest.length + 1
  omega

theorem length_sortItems (items : List (QueueItem T)) : (sortItems items).length = items.length :=
  (sortItems_perm items).length_eq

/-- `enqueue` adds an item below the capacity; at it, the queue is left alone or one item
    takes the place of another. -/
theorem length_enqueue (payload : T) (priority : QueuePriority) (metadata : Option Json)
    (idTime createdAt : Int) :
    (queue.enqueue payload priority metadata idTime createdAt).queue.items.length
      = if queue.maxSize ≤ queue.items.length then match queue.overflowStrategy with
          | .throw => queue.items.length
          | .evictOldest => max 1 queue.items.length
        else queue.items.length + 1 := by
  dsimp only [enqueue]
  split
  · cases queue.overflowStrategy with
    | throw => rfl
    | evictOldest =>
      show (sortItems (queue.items.eraseIdx (oldestIdx queue.items) ++ [_])).length = _
      rw [length_sortItems, List.length_append, List.length_singleton]
      by_cases hempty : queue.items = []
      · rw [hempty]
        rfl
      · have hlt := oldestIdx_lt queue hempty
        rw [List.length_eraseIdx_of_lt hlt]
        show _ = max 1 queue.items.length
        omega
  · show (sortItems (queue.items ++ [_])).length = _
    rw [length_sortItems, List.length_append, List.length_singleton]

theorem sameLimits_enqueue (payload : T) (priority : QueuePriority) (metadata : Option Json)
    (idTime createdAt : Int) :
    SameLimits queue (queue.enqueue payload priority metadata idTime createdAt).queue := by
  unfold enqueue
  split
  · split
    · exact ⟨rfl, rfl⟩
    · exact ⟨rfl, rfl⟩
  · exact ⟨rfl, rfl⟩

theorem length_of_spliceFirst {p : QueueItem T → Bool} {items rest : List (QueueItem T)}
    {item : QueueItem T} (h : spliceFirst p items = some (item, rest)) :
    items.length = rest.length + 1 := by
  rw [(perm_of_spliceFirst h).1.length_eq, List.length_cons]

theorem length_removeQueuedOrInflight (id : JsString) :
    (queue.removeQueuedOrInflight id).1.items.length ≤ queue.items.length
      ∧ SameLimits queue (queue.removeQueuedOrInflight id).1 := by
  unfold removeQueuedOrInflight
  split
  · next removed rest hsplice =>
    have hlength := length_of_spliceFirst hsplice
    refine ⟨?_, rfl, rfl⟩
    show rest.length ≤ queue.items.length
    omega
  · split
    · exact ⟨le_refl _, rfl, rfl⟩
    · exact ⟨le_refl _, rfl, rfl⟩

theorem length_dequeue (now : Int) :
    (queue.dequeue now).queue.items.length ≤ queue.items.length
      ∧ SameLimits queue (queue.dequeue now).queue := by
  unfold dequeue
  split
  · exact ⟨le_refl _, rfl, rfl⟩
  split
  · exact ⟨le_refl _, rfl, rfl⟩
  rename_i item rest hsplice
  have hlength := length_of_spliceFirst hsplice
  refine ⟨?_, rfl, rfl⟩
  show rest.length ≤ queue.items.length
  omega

theorem length_complete (id : JsString) (now : Int) :
    (queue.complete id now).queue.items.length ≤ queue.items.length
      ∧ SameLimits queue (queue.complete id now).queue := by
  have hremoved := queue.length_removeQueuedOrInflight id
  unfold complete
  split
  · exact ⟨le_refl _, rfl, rfl⟩
  split
  · exact ⟨le_refl _, rfl, rfl⟩
  rename_i rest item hrest
  rw [hrest] at hremoved
  exact ⟨hremoved.1, hremoved.2.maxSize, hremoved.2.overflowStrategy⟩

theorem length_remove (id : JsString) :
    (queue.remove id).queue.items.length ≤ queue.items.length
      ∧ SameLimits queue (queue.remove id).queue := by
  unfold remove
  split
  · exact ⟨le_refl _, rfl, rfl⟩
  · exact queue.length_removeQueuedOrInflight id

theorem length_changeItem (id : JsString) (changed : QueueItem T) (items : List (QueueItem T)) :
    (changeItem id changed items).length = items.length := by
  induction items with
  | nil => rfl
  | cons item rest ih =>
    unfold changeItem
    split
    · rfl
    · rw [List.length_cons, List.length_cons, ih]

variable {id : JsString}

theorem any_hasId_changeItem {changed : QueueItem T} (hid : changed.id = id)
    (items : List (QueueItem T)) :
    (changeItem id changed items).any (hasId id) = items.any (hasId id) := by
  induction items with
  | nil => rfl
  | cons item rest ih =>
    unfold changeItem
    split
    · next hitem =>
      rw [List.any_cons, List.any_cons, hitem, hasId_iff.mpr hid, Bool.true_or]
    · rw [List.any_cons, List.any_cons, ih]

theorem sameLimits_retry (id : JsString) (lastAttempt now : Int) :
    SameLimits queue (queue.retry id lastAttempt now).queue := by
  unfold retry
  split
  · exact ⟨rfl, rfl⟩
  split
  · exact ⟨rfl, rfl⟩
  split
  · exact ⟨rfl, rfl⟩
  unfold retryItem
  split
  · have hremoved := (queue.length_removeQueuedOrInflight id).2
    exact ⟨hremoved.maxSize, hremoved.overflowStrategy⟩
  · exact ⟨rfl, rfl⟩

/-- An item in flight that has an attempt left leaves the flight for the queue. -/
theorem retry_of_requeues (h : queue.Requeues id) (lastAttempt now : Int) :
    ∃ scheduled : QueueItem T, (queue.retry id lastAttempt now).queue = { queue with
          inflight := queue.inflight.erase id
          items := sortItems (queue.items ++ [scheduled]) } := by
  obtain ⟨hterminal, hqueued, item, retry, hget, hretry, hleft⟩ := h
  have hfind : queue.items.find? (hasId id) = none := by
    rw [List.find?_eq_none]
    intro other hother
    rw [hqueued other hother]
    exact Bool.false_ne_true
  have hitem : queue.getItem id = some item := by
    rw [getItem, hfind, hget]
    rfl
  have hany : queue.items.any (hasId id) = false := by
    rw [List.any_eq_false]
    intro other hother
    rw [hqueued other hother]
    exact Bool.false_ne_true
  rw [AutomationQueue.retry, if_neg (by rw [hterminal]; exact Bool.false_ne_true), hitem]
  dsimp only
  rw [hretry]
  dsimp only
  rw [retryItem, if_neg (by show ¬ retry.maxAttempts ≤ ((retry.attempts + 1 : Nat) : Int); omega)]
  dsimp only
  rw [changeItem_of_forall hqueued, if_neg (by rw [hany]; exact Bool.false_ne_true)]
  exact ⟨_, rfl⟩

theorem length_retry_of_requeues (h : queue.Requeues id) (lastAttempt now : Int) :
    (queue.retry id lastAttempt now).queue.items.length = queue.items.length + 1 := by
  obtain ⟨scheduled, hqueue⟩ := queue.retry_of_requeues h lastAttempt now
  rw [hqueue]
  show (sortItems (queue.items ++ [scheduled])).length = _
  rw [length_sortItems, List.length_append, List.length_singleton]

theorem length_retry_of_not_requeues (h : ¬ queue.Requeues id) (lastAttempt now : Int) :
    (queue.retry id lastAttempt now).queue.items.length ≤ queue.items.length := by
  unfold AutomationQueue.retry
  split
  · exact le_refl _
  rename_i hterminal
  split
  · exact le_refl _
  rename_i item hitem
  split
  · exact le_refl _
  rename_i retry hretry
  dsimp only [retryItem]
  split
  · exact (queue.length_removeQueuedOrInflight id).1
  rename_i hleft
  have hleft : ¬ retry.maxAttempts ≤ ((retry.attempts + 1 : Nat) : Int) := hleft
  unfold getItem at hitem
  cases hfind : queue.items.find? (hasId id) with
  | none =>
    -- nothing queued has the id, so the item came from flight
    rw [hfind, Option.none_or] at hitem
    have hqueued : ∀ other ∈ queue.items, hasId id other = false := by
      intro other hother
      exact Bool.eq_false_iff.mpr (List.find?_eq_none.mp hfind other hother)
    exact absurd ⟨Bool.eq_false_iff.mpr hterminal, hqueued, item, retry, hitem, hretry,
      by omega⟩ h
  | some found =>
    -- the item is queued, and stays where it stands
    rw [hfind, Option.some_or] at hitem
    cases hitem
    have hid : item.id = id := hasId_iff.mp (List.find?_some hfind)
    have hany : queue.items.any (hasId id) = true :=
      List.any_eq_true.mpr ⟨item, List.mem_of_find?_eq_some hfind, hasId_iff.mpr hid⟩
    rw [any_hasId_changeItem (by exact hid), hany, if_pos rfl, length_changeItem]

end AutomationQueue

/-! ## Every run -/

open AutomationQueue

theorem automationStep_sameLimits (w : AutomationWorld T) (call : AutomationCall T) :
    SameLimits w.queue (automationStep w call).queue := by
  cases call with
  | enqueue payload priority metadata idTime createdAt =>
    exact w.queue.sameLimits_enqueue payload priority metadata idTime createdAt
  | dequeue now => exact (w.queue.length_dequeue now).2
  | complete id now => exact (w.queue.length_complete id now).2
  | retry id lastAttempt now => exact w.queue.sameLimits_retry id lastAttempt now
  | remove id => exact (w.queue.length_remove id).2
  | clear => exact ⟨rfl, rfl⟩

theorem withinBound_of_length_le {queue after : AutomationQueue T} (h : queue.WithinBound)
    (hlength : after.items.length ≤ queue.items.length) (hlimits : SameLimits queue after) :
    after.WithinBound := by
  unfold WithinBound at h ⊢
  rw [hlimits.maxSize]
  omega

/-- From within the bound, a call leads beyond it exactly when it finds no room. -/
theorem withinBound_step_iff {w : AutomationWorld T} (h : w.queue.WithinBound)
    (call : AutomationCall T) :
    (automationStep w call).queue.WithinBound ↔ w.queue.FindsRoom call := by
  have hlimits := automationStep_sameLimits w call
  have hbound : (w.queue.items.length : Int) ≤ w.queue.maxSize := h
  cases call with
  | enqueue payload priority metadata idTime createdAt =>
    have hlength := w.queue.length_enqueue payload priority metadata idTime createdAt
    have hsize : (automationStep w (.enqueue payload priority metadata idTime createdAt)).queue
        = (w.queue.enqueue payload priority metadata idTime createdAt).queue := rfl
    rw [WithinBound, hlimits.maxSize, hsize, hlength]
    show _ ↔ (w.queue.overflowStrategy = .evictOldest → 1 ≤ w.queue.maxSize)
    by_cases hfull : w.queue.maxSize ≤ w.queue.items.length
    · rw [if_pos hfull]
      cases w.queue.overflowStrategy with
      | throw =>
        refine ⟨fun _ hstrategy => ?_, fun _ => hbound⟩
        cases hstrategy
      | evictOldest =>
        show ((max 1 w.queue.items.length : Nat) : Int) ≤ w.queue.maxSize ↔ _
        constructor
        · omega
        · intro hroom
          have hone := hroom rfl
          omega
    · rw [if_neg hfull]
      constructor
      · omega
      · omega
  | dequeue now =>
    exact iff_of_true (withinBound_of_length_le h (w.queue.length_dequeue now).1 hlimits) trivial
  | complete id now =>
    exact iff_of_true (withinBound_of_length_le h (w.queue.length_complete id now).1 hlimits)
      trivial
  | retry id lastAttempt now =>
    by_cases hrequeues : w.queue.Requeues id
    · have hlength := w.queue.length_retry_of_requeues hrequeues lastAttempt now
      have hsize : (automationStep w (.retry id lastAttempt now)).queue
          = (w.queue.retry id lastAttempt now).queue := rfl
      rw [WithinBound, hlimits.maxSize, hsize, hlength]
      constructor
      · intro hafter _
        omega
      · intro hroom
        have hless := hroom hrequeues
        omega
    · have hlength := w.queue.length_retry_of_not_requeues hrequeues lastAttempt now
      exact iff_of_true (withinBound_of_length_le h hlength hlimits)
        fun hcontra => absurd hcontra hrequeues
  | remove id =>
    exact iff_of_true (withinBound_of_length_le h (w.queue.length_remove id).1 hlimits) trivial
  | clear =>
    refine iff_of_true (withinBound_of_length_le h ?_ hlimits) trivial
    show (0 : Nat) ≤ _
    omega

/-- The queue stays within its bound in every state of a run exactly when the bound is not
    negative and every call finds room. -/
theorem withinBound_run_iff (config : QueueConfig) (calls : List (AutomationCall T)) :
    Crash.AtEveryCut automationStep (fun w => w.queue.WithinBound) (AutomationWorld.start config)
        calls ↔ 0 ≤ config.maxSize.getD 1000
        ∧ Transition.Along automationStep (fun w call => w.queue.FindsRoom call)
          (AutomationWorld.start config) calls := by
  exact Crash.atEveryCut_iff_along fun w call h => withinBound_step_iff h call

/-- A queue of one place: the item in flight comes back after the place is taken. -/
theorem not_withinBound_retry :
    ¬ ∀ (config : QueueConfig) (calls : List (AutomationCall Unit)),
      Crash.AtEveryCut automationStep (fun w => w.queue.WithinBound) (AutomationWorld.start config)
        calls := by
  intro hall
  have hlast := (hall
    { maxSize := some 1
      defaultMaxRetries := none
      defaultBackoffMs := none
      maxBackoffMs := none
      overflowStrategy := none }
    [.enqueue () .normal none 5 5, .dequeue 6, .enqueue () .normal none 7 7,
      .retry (itemId 5 1) 8 8]).complete
  unfold WithinBound at hlast
  revert hlast
  decide +kernel

/-! ## The bound that no call breaks -/

/-- Queued and in flight together: `enqueue` fills the queue up to the capacity, `dequeue`
    fills the flight up to it, and `retry` only moves items between the two. -/
structure WithinTwice (queue : AutomationQueue T) : Prop where
  inflight : (List.length queue.inflight : Int) ≤ max 0 queue.maxSize
  both : (queue.items.length : Int) + List.length queue.inflight ≤ 2 * max 1 queue.maxSize

theorem WithinTwice.of_le {queue after : AutomationQueue T} (h : WithinTwice queue)
    (hitems : after.items.length ≤ queue.items.length)
    (hinflight : List.length after.inflight ≤ List.length queue.inflight)
    (hlimits : SameLimits queue after) : WithinTwice after := by
  obtain ⟨hfirst, hboth⟩ := h
  constructor
  · rw [hlimits.maxSize]
    omega
  · rw [hlimits.maxSize]
    omega

theorem inflight_enqueue (queue : AutomationQueue T) (payload : T) (priority : QueuePriority)
    (metadata : Option Json) (idTime createdAt : Int) :
    (queue.enqueue payload priority metadata idTime createdAt).queue.inflight = queue.inflight := by
  unfold AutomationQueue.enqueue
  split
  · split
    · rfl
    · rfl
  · rfl

theorem inflight_removeQueuedOrInflight (queue : AutomationQueue T) (id : JsString) :
    List.length (queue.removeQueuedOrInflight id).1.inflight ≤ List.length queue.inflight := by
  unfold removeQueuedOrInflight
  split
  · exact le_refl _
  split
  · exact OrderedMap.length_erase_le _ _
  · exact le_refl _

theorem inflight_complete (queue : AutomationQueue T) (id : JsString) (now : Int) :
    List.length (queue.complete id now).queue.inflight ≤ List.length queue.inflight := by
  have hremoved := inflight_removeQueuedOrInflight queue id
  unfold complete
  split
  · exact le_refl _
  split
  · exact le_refl _
  rename_i rest item hrest
  rw [hrest] at hremoved
  exact hremoved

theorem inflight_remove (queue : AutomationQueue T) (id : JsString) :
    List.length (queue.remove id).queue.inflight ≤ List.length queue.inflight := by
  unfold remove
  split
  · exact le_refl _
  · exact inflight_removeQueuedOrInflight queue id

theorem WithinTwice.dequeue {queue : AutomationQueue T} (h : WithinTwice queue) (now : Int) :
    WithinTwice (queue.dequeue now).queue := by
  unfold AutomationQueue.dequeue
  split
  · exact h
  rename_i hroom
  split
  · exact h
  rename_i item rest hsplice
  have hlength := length_of_spliceFirst hsplice
  have hset := OrderedMap.length_set_le queue.inflight item.id item
  obtain ⟨hfirst, hboth⟩ := h
  constructor
  · show (List.length (queue.inflight.set item.id item) : Int) ≤ max 0 queue.maxSize
    omega
  · show (rest.length : Int) + List.length (queue.inflight.set item.id item)
      ≤ 2 * max 1 queue.maxSize
    omega

theorem WithinTwice.enqueue {queue : AutomationQueue T} (h : WithinTwice queue) (payload : T)
    (priority : QueuePriority) (metadata : Option Json) (idTime createdAt : Int) :
    WithinTwice (queue.enqueue payload priority metadata idTime createdAt).queue := by
  have hlength := queue.length_enqueue payload priority metadata idTime createdAt
  have hlimits := queue.sameLimits_enqueue payload priority metadata idTime createdAt
  have hinflight := inflight_enqueue queue payload priority metadata idTime createdAt
  obtain ⟨hfirst, hboth⟩ := h
  constructor
  · rw [hinflight, hlimits.maxSize]
    exact hfirst
  · rw [hinflight, hlimits.maxSize, hlength]
    split
    · cases queue.overflowStrategy with
      | throw => exact hboth
      | evictOldest =>
        show ((max 1 queue.items.length : Nat) : Int) + _ ≤ _
        omega
    · omega

theorem WithinTwice.retry {queue : AutomationQueue T} (h : WithinTwice queue) (id : JsString)
    (lastAttempt now : Int) : WithinTwice (queue.retry id lastAttempt now).queue := by
  have hlimits := queue.sameLimits_retry id lastAttempt now
  have hinflight : List.length (queue.retry id lastAttempt now).queue.inflight
      ≤ List.length queue.inflight := by
    unfold AutomationQueue.retry
    split
    · exact le_refl _
    split
    · exact le_refl _
    split
    · exact le_refl _
    unfold retryItem
    split
    · exact inflight_removeQueuedOrInflight queue id
    · exact OrderedMap.length_erase_le _ _
  by_cases hrequeues : queue.Requeues id
  · -- the item leaves the flight when it joins the queue
    have hlength := queue.length_retry_of_requeues hrequeues lastAttempt now
    have hless : List.length (queue.retry id lastAttempt now).queue.inflight
        < List.length queue.inflight := by
      obtain ⟨scheduled, hqueue⟩ := queue.retry_of_requeues hrequeues lastAttempt now
      obtain ⟨-, -, item, retry, hget, -, -⟩ := hrequeues
      rw [hqueue]
      exact OrderedMap.length_erase_lt hget
    obtain ⟨hfirst, hboth⟩ := h
    constructor
    · rw [hlimits.maxSize]
      omega
    · rw [hlimits.maxSize]
      omega
  · exact h.of_le (queue.length_retry_of_not_requeues hrequeues lastAttempt now) hinflight hlimits

theorem WithinTwice.step {w : AutomationWorld T} (h : WithinTwice w.queue)
    (call : AutomationCall T) : WithinTwice (automationStep w call).queue := by
  cases call with
  | enqueue payload priority metadata idTime createdAt =>
    exact h.enqueue payload priority metadata idTime createdAt
  | dequeue now => exact h.dequeue now
  | complete id now =>
    have hlength := w.queue.length_complete id now
    exact h.of_le hlength.1 (inflight_complete w.queue id now) hlength.2
  | retry id lastAttempt now => exact h.retry id lastAttempt now
  | remove id =>
    have hlength := w.queue.length_remove id
    exact h.of_le hlength.1 (inflight_remove w.queue id) hlength.2
  | clear =>
    refine h.of_le ?_ ?_ ⟨rfl, rfl⟩
    · show (0 : Nat) ≤ _
      omega
    · show (0 : Nat) ≤ _
      omega

/-- Without any condition, the queue and the flight together hold twice the capacity at
    most. -/
theorem withinTwice_run (config : QueueConfig) (calls : List (AutomationCall T)) :
    WithinTwice (calls.foldl automationStep (AutomationWorld.start config)).queue := by
  have hrun := Transition.Run.foldl automationStep (AutomationWorld.start config) calls
  have hnext : ∀ (w : AutomationWorld T) (call : AutomationCall T) (after : AutomationWorld T),
      automationStep w call = after → WithinTwice w.queue → WithinTwice after.queue := by
    rintro w call _ rfl hw
    exact hw.step call
  have hstart : WithinTwice (AutomationWorld.start config : AutomationWorld T).queue := by
    constructor
    · show ((0 : Nat) : Int) ≤ max 0 (config.maxSize.getD 1000)
      omega
    · show ((0 : Nat) : Int) + ((0 : Nat) : Int) ≤ 2 * max 1 (config.maxSize.getD 1000)
      omega
  exact hrun.preserves hnext hstart

end OpencodeSwarm
