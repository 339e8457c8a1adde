/-
  OpencodeSwarm.Background.QueueDispatch

  What the automation queue hands out.  Every hand-out of an item answers to a
  failure that was counted before it, so the attempts of an item bound how often
  it is executed; and `dequeue` takes the first due item of a list that every call
  leaves sorted.
-/
import OpencodeSwarm.Background.QueuePartition

namespace OpencodeSwarm

open Js AutomationQueue

variable {T : Type*}

/-! ## Hand-outs and failures -/

def AutomationEvent.isDequeued (id : JsString) : AutomationEvent → Bool
  | .dequeued itemId => itemId == id
  | _ => false

/-- How often an id was handed out. -/
def AutomationWorld.handedOut (w : AutomationWorld T) (id : JsString) : Nat :=
  w.events.countP (AutomationEvent.isDequeued id)

/-- The failures counted on an item. -/
def QueueItem.failures (item : QueueItem T) : Nat :=
  (item.retry.map RetryMetadata.attempts).getD 0

/-- A queued item failed as often as it was handed out, and one in flight may fail once
    more. -/
structure AutomationWorld.Metered (w : AutomationWorld T) (limit : Int) : Prop where
  retries : w.queue.defaultMaxRetries = limit
  queued : ∀ item ∈ w.queue.items, w.handedOut item.id ≤ item.failures
  inFlight : ∀ item ∈ w.queue.inflight.values, w.handedOut item.id ≤ item.failures + 1
  fresh : ∀ id, id ∉ w.issued → w.handedOut id = 0
  bounded : ∀ id, (w.handedOut id : Int) ≤ limit

variable {item : QueueItem T}

theorem AutomationQueue.Sound.failures_lt {queue : AutomationQueue T} (h : queue.Sound)
    (hitem : queue.Holds item) : (item.failures : Int) < queue.defaultMaxRetries := by
  obtain ⟨retry, hretry, -, hless⟩ := h.retries item hitem
  have hfailures : item.failures = retry.attempts := by
    rw [QueueItem.failures, hretry]
    rfl
  omega

/-! ## What is held after a call -/

namespace AutomationQueue

theorem held_removeQueuedOrInflight (queue : AutomationQueue T) (id : JsString) :
    (∀ item ∈ (queue.removeQueuedOrInflight id).1.items, item ∈ queue.items)
      ∧ ∀ item ∈ (queue.removeQueuedOrInflight id).1.inflight.values,
        item ∈ queue.inflight.values := by
  unfold removeQueuedOrInflight
  cases hsplice : spliceFirst (hasId id) queue.items with
  | some found =>
    obtain ⟨-, hsub, -⟩ := perm_of_spliceFirst hsplice
    exact ⟨fun item hitem => hsub.subset hitem, fun _ hitem => hitem⟩
  | none =>
    cases hget : queue.inflight.get? id with
    | none => exact ⟨fun _ hitem => hitem, fun _ hitem => hitem⟩
    | some flying =>
      refine ⟨fun _ hitem => hitem, ?_⟩
      intro item hitem
      obtain ⟨binding, hbinding, rfl⟩ := List.mem_map.mp hitem
      exact List.mem_map_of_mem (List.mem_filter.mp hbinding).1

theorem held_push (queue : AutomationQueue T) (item : QueueItem T)
    (published : List AutomationEvent) :
    ∀ held ∈ (queue.push item published).queue.items, held = item ∨ held ∈ queue.items := by
  intro held hheld
  have hmem := (sortItems_perm (queue.items ++ [item])).mem_iff.mp hheld
  rcases List.mem_append.mp hmem with hold | hnew
  · exact Or.inr hold
  · exact Or.inl (List.mem_singleton.mp hnew)

end AutomationQueue

/-! ## One call -/

namespace AutomationWorld

variable {w after : AutomationWorld T} {limit : Int}

theorem handedOut_append {events : List AutomationEvent}
    (hevents : after.events = w.events ++ events) (id : JsString) :
    after.handedOut id = w.handedOut id + events.countP (AutomationEvent.isDequeued id) := by
  unfold handedOut
  rw [hevents, List.countP_append]

/-- A call that hands nothing out: an item that comes in has its hand-outs covered. -/
theorem Metered.quiet (h : w.Metered limit) {events : List AutomationEvent}
    (hevents : after.events = w.events ++ events)
    (hquiet : ∀ event ∈ events, ∀ id, event.isDequeued id = false)
    (hqueued : ∀ item ∈ after.queue.items,
      item ∈ w.queue.items ∨ w.handedOut item.id ≤ item.failures)
    (hflying : ∀ item ∈ after.queue.inflight.values, item ∈ w.queue.inflight.values)
    (hissued : ∀ id, id ∉ after.issued → id ∉ w.issued)
    (hmax : after.queue.defaultMaxRetries = w.queue.defaultMaxRetries) : after.Metered limit := by
  have hsame : ∀ id, after.handedOut id = w.handedOut id := by
    intro id
    have hnone : events.countP (AutomationEvent.isDequeued id) = 0 := by
      rw [List.countP_eq_zero]
      intro event hevent
      rw [hquiet event hevent id]
      exact Bool.false_ne_true
    rw [handedOut_append hevents, hnone, Nat.add_zero]
  refine ⟨hmax.trans h.retries, ?_, ?_, ?_, ?_⟩
  · intro item hitem
    rw [hsame]
    rcases hqueued item hitem with hold | hcovered
    · exact h.queued item hold
    · exact hcovered
  · intro item hitem
    rw [hsame]
    exact h.inFlight item (hflying item hitem)
  · intro id hid
    rw [hsame]
    exact h.fresh id (hissued id hid)
  · intro id
    rw [hsame]
    exact h.bounded id

theorem Metered.enqueue (h : w.Metered limit) (haccounts : w.Accounts) (payload : T)
    (priority : QueuePriority) (metadata : Option Json) (idTime createdAt : Int) :
    (automationStep w (.enqueue payload priority metadata idTime createdAt)).Metered limit := by
  let item := w.queue.newItem payload priority metadata idTime createdAt
  have hfresh : w.handedOut item.id = 0 := by
    refine h.fresh _ fun hissued => ?_
    obtain ⟨now, count, heq, hcount⟩ := haccounts.counted _ hissued
    have hsame : w.queue.itemCounter + 1 = count := itemId_inj heq
    omega
  obtain ⟨hmoves, -, hevents⟩ :=
    enqueue_spec haccounts.sound payload priority metadata idTime createdAt
  have hquiet : ∀ event ∈ (w.queue.enqueue payload priority metadata idTime createdAt).events,
      ∀ id, event.isDequeued id = false := by
    intro event hevent id
    rcases hevents event hevent with ⟨other, rfl⟩ | ⟨other, priority', rfl⟩
    · rfl
    · rfl
  have hheld : (∀ held ∈ (w.queue.enqueue payload priority metadata idTime createdAt).queue.items,
        held = item ∨ held ∈ w.queue.items)
      ∧ (w.queue.enqueue payload priority metadata idTime createdAt).queue.inflight
        = w.queue.inflight := by
    unfold AutomationQueue.enqueue
    split
    · split
      · refine ⟨fun held hmem => ?_, rfl⟩
        rcases held_push _ _ _ held hmem with hnew | hold
        · exact Or.inl hnew
        · exact Or.inr ((List.eraseIdx_sublist _ _).subset hold)
      · exact ⟨fun held hmem => Or.inr hmem, rfl⟩
    · exact ⟨held_push _ _ _, rfl⟩
  refine h.quiet rfl hquiet ?_ ?_ ?_ hmoves.maxRetries
  · intro held hmem
    rcases hheld.1 held hmem with rfl | hold
    · exact Or.inr (hfresh ▸ Nat.zero_le _)
    · exact Or.inl hold
  · intro held hmem
    have hflying : held ∈
        (w.queue.enqueue payload priority metadata idTime createdAt).queue.inflight.values := hmem
    rw [hheld.2] at hflying
    exact hflying
  · intro id hid hissued
    exact hid (List.mem_append_left _ hissued)

theorem Metered.retry (h : w.Metered limit) (haccounts : w.Accounts) (id : JsString)
    (lastAttempt now : Int) : (automationStep w (.retry id lastAttempt now)).Metered limit := by
  have hspec := retry_spec haccounts.sound haccounts.liveNodup id lastAttempt now
  have hquiet : ∀ event ∈ (w.queue.retry id lastAttempt now).events,
      ∀ other, event.isDequeued other = false := by
    intro event hevent other
    rcases hspec with ⟨-, hevents⟩ | ⟨attempts, -, hevents, -⟩
    · obtain ⟨attempt, time, backoff, rfl⟩ := hevents event hevent
      rfl
    · rw [hevents, List.mem_singleton] at hevent
      rw [hevent]
      rfl
  have hmax : (w.queue.retry id lastAttempt now).queue.defaultMaxRetries
      = w.queue.defaultMaxRetries := by
    rcases hspec with ⟨hmoves, -⟩ | ⟨attempts, hmoves, -⟩
    · exact hmoves.maxRetries
    · exact hmoves.maxRetries
  suffices hheld : (∀ item ∈ (w.queue.retry id lastAttempt now).queue.items,
      item ∈ w.queue.items ∨ w.handedOut item.id ≤ item.failures)
      ∧ ∀ item ∈ (w.queue.retry id lastAttempt now).queue.inflight.values,
        item ∈ w.queue.inflight.values from
    h.quiet rfl hquiet hheld.1 hheld.2 (fun _ hid => hid) hmax
  unfold AutomationQueue.retry
  split
  · exact ⟨fun _ hitem => Or.inl hitem, fun _ hitem => hitem⟩
  cases hget : w.queue.getItem id with
  | none => exact ⟨fun _ hitem => Or.inl hitem, fun _ hitem => hitem⟩
  | some item =>
    dsimp only
    cases hretry : item.retry with
    | none => exact ⟨fun _ hitem => Or.inl hitem, fun _ hitem => hitem⟩
    | some retry =>
      -- in flight or queued, the item was handed out once more than it failed at most
      have hcovered : w.handedOut item.id ≤ retry.attempts + 1 := by
        have hfailures : item.failures = retry.attempts := by
          rw [QueueItem.failures, hretry]
          rfl
        rcases Option.or_eq_some_iff.mp hget with hqueued | ⟨-, hflying⟩
        · have hle := h.queued item (List.mem_of_find?_eq_some hqueued)
          omega
        · have hle := h.inFlight item (List.mem_map_of_mem (OrderedMap.mem_of_get? hflying))
          omega
      dsimp only
      unfold retryItem
      split
      · obtain ⟨hitems, hflying⟩ := held_removeQueuedOrInflight w.queue id
        exact ⟨fun held hmem => Or.inl (hitems held hmem), hflying⟩
      · let changed : QueueItem T :=
          { item with
            retry := some
              { retry.failedAgain lastAttempt with
                nextAttemptAt := some (now + (retry.failedAgain lastAttempt).backoff) } }
        have hchanged : w.handedOut changed.id ≤ changed.failures := hcovered
        have hfiled : ∀ held ∈ changeItem id changed w.queue.items,
            held ∈ w.queue.items ∨ w.handedOut held.id ≤ held.failures := by
          intro held hmem
          rcases mem_changeItem hmem with rfl | hold
          · exact Or.inr hchanged
          · exact Or.inl hold
        constructor
        · intro held hmem
          have hitems : held ∈ if (changeItem id changed w.queue.items).any (hasId id)
              then changeItem id changed w.queue.items
              else sortItems (changeItem id changed w.queue.items ++ [changed]) := hmem
          split at hitems
          · exact hfiled held hitems
          have hsorted := (sortItems_perm _).mem_iff.mp hitems
          rcases List.mem_append.mp hsorted with hold | hnew
          · exact hfiled held hold
          · rw [List.mem_singleton.mp hnew]
            exact Or.inr hchanged
        · intro held hmem
          obtain ⟨binding, hbinding, rfl⟩ := List.mem_map.mp hmem
          exact List.mem_map_of_mem (List.mem_filter.mp hbinding).1

/-- The item that is handed out is the only one whose count goes on. -/
theorem Metered.dequeue (h : w.Metered limit) (haccounts : w.Accounts) (now : Int) :
    (automationStep w (.dequeue now)).Metered limit := by
  have hissued : ∀ id, id ∉ (automationStep w (.dequeue now)).issued → id ∉ w.issued :=
    fun _ hid => hid
  have hmoves := (dequeue_spec haccounts.sound haccounts.liveNodup now).1
  by_cases hstays : w.queue.dequeue now = { queue := w.queue, result := none, events := [] }
  · refine @Metered.quiet _ w _ _ h [] ?_ (List.forall_mem_nil _) ?_ ?_
      hissued hmoves.maxRetries
    · show w.events ++ (w.queue.dequeue now).events = _
      rw [hstays]
    · intro item hitem
      have hsame : item ∈ (w.queue.dequeue now).queue.items := hitem
      rw [hstays] at hsame
      exact Or.inl hsame
    · intro item hitem
      have hsame : item ∈ (w.queue.dequeue now).queue.inflight.values := hitem
      rw [hstays] at hsame
      exact hsame
  -- an item goes over to the flight
  have hfound : ∃ item rest, spliceFirst (isDue now) w.queue.items = some (item, rest)
      ∧ w.queue.dequeue now =
        { queue := { w.queue with items := rest, inflight := w.queue.inflight.set item.id item }
          result := some item
          events := [.dequeued item.id] } := by
    unfold AutomationQueue.dequeue at hstays ⊢
    split
    · next hfull => exact absurd (if_pos hfull) hstays
    · next hfull =>
      rw [if_neg hfull] at hstays
      cases hsplice : spliceFirst (isDue now) w.queue.items with
      | none =>
        rw [hsplice] at hstays
        exact absurd rfl hstays
      | some found => exact ⟨found.1, found.2, rfl, rfl⟩
  obtain ⟨item, rest, hsplice, hdequeue⟩ := hfound
  obtain ⟨hperm, hsub, -⟩ := perm_of_spliceFirst hsplice
  have hitem : item ∈ w.queue.items := hperm.mem_iff.mpr List.mem_cons_self
  obtain ⟨hids, -, hapart⟩ := List.nodup_append.mp haccounts.liveNodup
  have hrest : ∀ held ∈ rest, held.id ≠ item.id := by
    intro held hheld heq
    have hcons := (hperm.map QueueItem.id).nodup hids
    exact (List.nodup_cons.mp hcons).1 (heq ▸ List.mem_map_of_mem hheld)
  have hnokey : item.id ∉ w.queue.inflight.keys := fun hkey =>
    hapart _ (List.mem_map_of_mem hitem) _ hkey rfl
  have hevents : (automationStep w (.dequeue now)).events = w.events ++ [.dequeued item.id] := by
    show w.events ++ (w.queue.dequeue now).events = _
    rw [hdequeue]
  have hcount : ∀ id, (automationStep w (.dequeue now)).handedOut id
      = w.handedOut id + if item.id = id then 1 else 0 := by
    intro id
    rw [handedOut_append hevents, List.countP_singleton]
    simp [AutomationEvent.isDequeued]
  have hother : ∀ {id}, id ≠ item.id →
      (automationStep w (.dequeue now)).handedOut id = w.handedOut id := by
    intro id hne
    rw [hcount, if_neg hne.symm, Nat.add_zero]
  have hown : (automationStep w (.dequeue now)).handedOut item.id ≤ item.failures + 1 := by
    have hle := h.queued item hitem
    rw [hcount, if_pos rfl]
    omega
  refine ⟨hmoves.maxRetries.trans h.retries, ?_, ?_, ?_, ?_⟩
  · intro held hheld
    have hmem : held ∈ (w.queue.dequeue now).queue.items := hheld
    rw [hdequeue] at hmem
    rw [hother (hrest held hmem)]
    exact h.queued held (hsub.subset hmem)
  · intro held hheld
    have hmem : held ∈ (w.queue.dequeue now).queue.inflight.values := hheld
    rw [hdequeue] at hmem
    rw [OrderedMap.set_of_notMem hnokey] at hmem
    obtain ⟨binding, hbinding, rfl⟩ := List.mem_map.mp hmem
    rcases List.mem_append.mp hbinding with hold | hnew
    · have hne : binding.2.id ≠ item.id := by
        rw [haccounts.sound.keyed binding hold]
        exact fun heq => hnokey (heq ▸ List.mem_map_of_mem hold)
      rw [hother hne]
      exact h.inFlight _ (List.mem_map_of_mem hold)
    · rw [List.mem_singleton.mp hnew]
      exact hown
  · intro id hid
    have hlive : item.id ∈ w.issued :=
      (haccounts.mem_issued_iff item.id).mpr ⟨.queued, item, hitem, rfl⟩
    have hne : id ≠ item.id := by
      intro heq
      rw [heq] at hid
      exact hid hlive
    rw [hother hne]
    exact h.fresh id hid
  · intro id
    by_cases hid : id = item.id
    · have hless := haccounts.sound.failures_lt (Or.inl hitem)
      have hlimit := h.retries
      rw [hid]
      omega
    · rw [hother hid]
      exact h.bounded id

theorem Metered.step (h : w.Metered limit) (haccounts : w.Accounts) (call : AutomationCall T) :
    (automationStep w call).Metered limit := by
  cases call with
  | enqueue payload priority metadata idTime createdAt =>
    exact h.enqueue haccounts payload priority metadata idTime createdAt
  | dequeue now => exact h.dequeue haccounts now
  | complete id now =>
    rcases complete_spec haccounts.sound haccounts.liveNodup id now with
      ⟨hmoves, hevents⟩ | ⟨hmoves, hevents⟩
    all_goals
      have hheld := held_removeQueuedOrInflight w.queue id
      have hqueue : (∀ item ∈ (w.queue.complete id now).queue.items, item ∈ w.queue.items)
          ∧ ∀ item ∈ (w.queue.complete id now).queue.inflight.values,
            item ∈ w.queue.inflight.values := by
        unfold AutomationQueue.complete
        split
        · exact ⟨fun _ hitem => hitem, fun _ hitem => hitem⟩
        split
        · exact ⟨fun _ hitem => hitem, fun _ hitem => hitem⟩
        rename_i heq
        rw [heq] at hheld
        exact hheld
      refine h.quiet rfl ?_ (fun item hitem => Or.inl (hqueue.1 item hitem)) hqueue.2
        (fun _ hid => hid) hmoves.maxRetries
      rw [hevents]
      intro event hevent other
    · cases hevent
    · rw [List.mem_singleton.mp hevent]
      rfl
  | retry id lastAttempt now => exact h.retry haccounts id lastAttempt now
  | remove id =>
    obtain ⟨hmoves, hevents⟩ := remove_spec haccounts.sound haccounts.liveNodup id
    have hheld : (∀ item ∈ (w.queue.remove id).queue.items, item ∈ w.queue.items)
        ∧ ∀ item ∈ (w.queue.remove id).queue.inflight.values, item ∈ w.queue.inflight.values := by
      unfold AutomationQueue.remove
      split
      · exact ⟨fun _ hitem => hitem, fun _ hitem => hitem⟩
      · exact held_removeQueuedOrInflight w.queue id
    refine h.quiet rfl ?_ (fun item hitem => Or.inl (hheld.1 item hitem)) hheld.2
      (fun _ hid => hid) hmoves.maxRetries
    rw [hevents]
    exact List.forall_mem_nil _
  | clear =>
    refine h.quiet rfl ?_ (List.forall_mem_nil _)
      (List.forall_mem_nil _) (fun _ hid => hid) rfl
    intro event hevent id
    rcases List.mem_append.mp hevent with hqueued | hflying
    · obtain ⟨item, -, rfl⟩ := List.mem_map.mp hqueued
      rfl
    · obtain ⟨item, -, rfl⟩ := List.mem_map.mp hflying
      rfl

theorem Metered.run (h : w.Metered limit) (haccounts : w.Accounts)
    (calls : List (AutomationCall T)) :
    (calls.foldl automationStep w).Metered limit := by
  induction calls generalizing w with
  | nil => exact h
  | cons call rest ih => exact ih (h.step haccounts call) (haccounts.step call)

end AutomationWorld

/-! ## Which item is handed out -/

/-- In a sorted list, the first item with a property comes before all others with it. -/
theorem le_of_spliceFirst {p : QueueItem T → Bool} {items rest : List (QueueItem T)}
    (hsorted : items.Pairwise fun a b => comparePriority a b ≤ 0)
    (h : spliceFirst p items = some (item, rest)) :
    ∀ other ∈ items, p other = true → comparePriority item other ≤ 0 := by
  induction items generalizing rest with
  | nil => cases h
  | cons head tail ih =>
    obtain ⟨hhead, htail⟩ := List.pairwise_cons.mp hsorted
    unfold spliceFirst at h
    split at h
    · cases h
      refine List.forall_mem_cons.mpr ⟨fun _ => ?_, fun other hother _ => hhead other hother⟩
      rw [comparePriority_le_zero_iff]
      omega
    · next hp =>
      obtain ⟨⟨found, others⟩, hfound, heq⟩ := Option.map_eq_some_iff.mp h
      cases heq
      intro other hother hdue
      rcases List.mem_cons.mp hother with rfl | hrest
      · exact absurd hdue hp
      · exact ih htail hfound other hrest hdue

/-- What `dequeue` answers at a time: the first of the due items queued then, and no other
    item leaves the queue. -/
structure DequeuesFirstDue (queue : AutomationQueue T) (now : Int) : Prop where
  idle : (queue.dequeue now).result = none ↔
    queue.maxSize ≤ List.length queue.inflight ∨ ∀ item ∈ queue.items, isDue now item = false
  first : ∀ item, (queue.dequeue now).result = some item →
    isDue now item = true ∧ item.id ∉ queue.inflight.keys
      ∧ (∀ other ∈ queue.items, isDue now other = true → comparePriority item other ≤ 0)
      ∧ queue.items.Perm (item :: (queue.dequeue now).queue.items)

theorem AutomationWorld.Accounts.dequeuesFirstDue {w : AutomationWorld T} (h : w.Accounts)
    (now : Int) : DequeuesFirstDue w.queue now := by
  obtain ⟨-, -, hapart⟩ := List.nodup_append.mp h.liveNodup
  by_cases hfull : w.queue.maxSize ≤ List.length w.queue.inflight
  · have hdequeue : (w.queue.dequeue now).result = none := by
      rw [AutomationQueue.dequeue, if_pos hfull]
    refine ⟨iff_of_true hdequeue (Or.inl hfull), ?_⟩
    intro item hitem
    rw [hdequeue] at hitem
    cases hitem
  cases hsplice : spliceFirst (isDue now) w.queue.items with
  | none =>
    have hdequeue : (w.queue.dequeue now).result = none := by
      rw [AutomationQueue.dequeue, if_neg hfull, hsplice]
    refine ⟨iff_of_true hdequeue (Or.inr (spliceFirst_eq_none_iff.mp hsplice)), ?_⟩
    intro item hitem
    rw [hdequeue] at hitem
    cases hitem
  | some found =>
    obtain ⟨item, rest⟩ := found
    obtain ⟨hperm, -, hdue⟩ := perm_of_spliceFirst hsplice
    have hitem : item ∈ w.queue.items := hperm.mem_iff.mpr List.mem_cons_self
    have hdequeue : (w.queue.dequeue now).result = some item
        ∧ (w.queue.dequeue now).queue.items = rest := by
      rw [AutomationQueue.dequeue, if_neg hfull, hsplice]
      exact ⟨rfl, rfl⟩
    constructor
    · rw [hdequeue.1]
      refine iff_of_false (fun hnone => nomatch hnone) ?_
      rintro (hmany | hnone)
      · exact hfull hmany
      · rw [hnone item hitem] at hdue
        cases hdue
    · intro answered hanswered
      cases hdequeue.1.symm.trans hanswered
      rw [hdequeue.2]
      exact ⟨hdue, fun hkey => hapart _ (List.mem_map_of_mem hitem) _ hkey rfl,
        le_of_spliceFirst h.sound.sorted hsplice, hperm⟩

/-! ## Every run -/

/-- An item is handed out as often as its attempts allow at most, however the calls
    interleave. -/
theorem handedOut_le_of_calls (config : QueueConfig)
    (hretries : 1 ≤ config.defaultMaxRetries.getD 3) (calls : List (AutomationCall T))
    (id : JsString) :
    ((calls.foldl automationStep (AutomationWorld.start config)).handedOut id : Int)
      ≤ config.defaultMaxRetries.getD 3 := by
  have haccounts := @AutomationWorld.accounts_start T config hretries
  have hstart : (AutomationWorld.start config : AutomationWorld T).Metered
      (config.defaultMaxRetries.getD 3) := by
    refine ⟨rfl, List.forall_mem_nil _, List.forall_mem_nil _,
      fun _ _ => rfl, fun id => ?_⟩
    show ((0 : Nat) : Int) ≤ config.defaultMaxRetries.getD 3
    omega
  exact (hstart.run haccounts calls).bounded id

/-- The default configuration, and an item that fails until its three attempts are used up. -/
theorem handedOut_le_failsThrice :
    let w := [AutomationCall.enqueue () .normal none 5 5, .dequeue 6, .retry (itemId 5 1) 7 7,
      .dequeue 2000, .retry (itemId 5 1) 2001 2001, .dequeue 9000, .retry (itemId 5 1) 9001 9001,
      .dequeue 20000].foldl automationStep
        (AutomationWorld.start
          { maxSize := none
            defaultMaxRetries := none
            defaultBackoffMs := none
            maxBackoffMs := none
            overflowStrategy := none })
    (w.handedOut (itemId 5 1) : Int) ≤ 3 ∧ w.handedOut (itemId 5 1) = 3 := by
  refine ⟨handedOut_le_of_calls _ (by decide) _ _, ?_⟩
  decide +kernel

/-- After any calls, `dequeue` answers the first due item by priority and creation time, and
    nothing exactly when the flight is full or no item is due. -/
theorem dequeuesFirstDue_of_calls (config : QueueConfig)
    (hretries : 1 ≤ config.defaultMaxRetries.getD 3) (calls : List (AutomationCall T)) (now : Int) :
    DequeuesFirstDue (calls.foldl automationStep (AutomationWorld.start config)).queue now :=
  ((AutomationWorld.accounts_start hretries).run calls).dequeuesFirstDue now

/-- A critical item that backs off lets a normal one through. -/
theorem dequeuesFirstDue_backsOff :
    let queue := ([AutomationCall.enqueue () .critical none 5 5, .dequeue 6,
      .retry (itemId 5 1) 7 7, .enqueue () .normal none 8 8].foldl automationStep
        (AutomationWorld.start
          { maxSize := none
            defaultMaxRetries := none
            defaultBackoffMs := none
            maxBackoffMs := none
            overflowStrategy := none })).queue
    DequeuesFirstDue queue 9
      ∧ ((queue.dequeue 9).result.map QueueItem.id) = some (itemId 8 2) := by
  refine ⟨dequeuesFirstDue_of_calls _ (by decide) _ 9, ?_⟩
  decide +kernel

end OpencodeSwarm
