/-
  OpencodeSwarm.Background.AutomationQueue

  The in-process automation queue: an array sorted by priority and creation
  time, the items in flight, and the bounded registry of terminal ids.
-/
import OpencodeSwarm.Lib.Json
import OpencodeSwarm.Lib.OrderedMap

namespace OpencodeSwarm

open Js

/-! ## Items -/

inductive QueuePriority where
  | critical | high | normal | low
  deriving DecidableEq, Repr

inductive OverflowStrategy where
  | throw | evictOldest
  deriving DecidableEq, Repr

structure RetryMetadata where
  attempts : Nat
  maxAttempts : Int
  lastAttempt : Option Int
  nextAttemptAt : Option Int
  backoffMs : Int
  maxBackoffMs : Int
  deriving DecidableEq

structure QueueItem (T : Type*) where
  id : JsString
  priority : QueuePriority
  payload : T
  createdAt : Int
  metadata : Option Json
  retry : Option RetryMetadata

structure QueueConfig where
  maxSize : Option Int
  defaultMaxRetries : Option Int
  defaultBackoffMs : Option Int
  maxBackoffMs : Option Int
  overflowStrategy : Option OverflowStrategy

def QueuePriority.order : QueuePriority → Int
  | .critical => 0
  | .high => 1
  | .normal => 2
  | .low => 3

variable {T : Type*}

def comparePriority (a b : QueueItem T) : Int :=
  let priorityDiff := a.priority.order - b.priority.order
  if priorityDiff ≠ 0 then priorityDiff else a.createdAt - b.createdAt

/-- `items.sort(comparePriority)`, a stable sort. -/
def sortItems (items : List (QueueItem T)) : List (QueueItem T) :=
  sortBy comparePriority items

def maxTerminalIds : Nat := 2048

/-- The retry data after one more failure at `lastAttempt`. -/
def RetryMetadata.failedAgain (retry : RetryMetadata) (lastAttempt : Int) : RetryMetadata :=
  { retry with attempts := retry.attempts + 1, lastAttempt := some lastAttempt }

/-- The exponential backoff after a counted failure. -/
def RetryMetadata.backoff (retry : RetryMetadata) : Int :=
  min (retry.backoffMs * 2 ^ (retry.attempts - 1)) retry.maxBackoffMs

/-! ## The queue -/

structure AutomationQueue (T : Type*) where
  items : List (QueueItem T)
  inflight : OrderedMap JsString (QueueItem T)
  terminalIds : OrderedMap JsString Int
  maxSize : Int
  defaultMaxRetries : Int
  defaultBackoffMs : Int
  maxBackoffMs : Int
  overflowStrategy : OverflowStrategy
  itemCounter : Nat

/-- What is published on the event bus. -/
inductive AutomationEvent where
  | enqueued (itemId : JsString) (priority : QueuePriority)
  | dequeued (itemId : JsString)
  | completed (itemId : JsString)
  | evicted (itemId : JsString)
  | failed (itemId : JsString) (attempts : Nat)
  | retryScheduled (itemId : JsString) (attempt : Nat) (nextAttemptAt backoffMs : Int)
  deriving DecidableEq

/-- What a call leaves, answers and publishes. -/
structure QueueEffect (T ρ : Type*) where
  queue : AutomationQueue T
  result : ρ
  events : List AutomationEvent

namespace AutomationQueue

/-- The constructor. -/
def new (config : QueueConfig) : AutomationQueue T where
  items := []
  inflight := []
  terminalIds := []
  maxSize := config.maxSize.getD 1000
  defaultMaxRetries := config.defaultMaxRetries.getD 3
  defaultBackoffMs := config.defaultBackoffMs.getD 1000
  maxBackoffMs := config.maxBackoffMs.getD 60000
  overflowStrategy := config.overflowStrategy.getD .throw
  itemCounter := 0

/-- The id that `generateId` gives at a time and a count. -/
def itemId (now : Int) (count : Nat) : JsString :=
  js "queue-" ++ (integerText now ++ 0x2D :: decimal count)

/-- `findIndex` and the `splice` of what it finds: the item and the others. -/
def spliceFirst {α : Type*} (p : α → Bool) : List α → Option (α × List α)
  | [] => none
  | item :: rest =>
    if p item then some (item, rest)
    else (spliceFirst p rest).map fun found => (found.1, item :: found.2)

/-- The scan for the smallest creation time behind index `i`. -/
def oldestFrom : List (QueueItem T) → (i oldestIdx : Nat) → (createdAt : Int) → Nat
  | [], _, oldestIdx, _ => oldestIdx
  | item :: rest, i, oldestIdx, createdAt =>
    if item.createdAt < createdAt then oldestFrom rest (i + 1) i item.createdAt
    else oldestFrom rest (i + 1) oldestIdx createdAt

def oldestIdx : List (QueueItem T) → Nat
  | [] => 0
  | item :: rest => oldestFrom rest 1 0 item.createdAt

def queueFullError (maxSize : Int) : JsString :=
  js "Queue is full (max " ++ (integerText maxSize ++ js " items)")

/-- The item that `enqueue` pushes. -/
def newItem (queue : AutomationQueue T) (payload : T) (priority : QueuePriority)
    (metadata : Option Json) (idTime createdAt : Int) : QueueItem T where
  id := itemId idTime (queue.itemCounter + 1)
  priority := priority
  payload := payload
  createdAt := createdAt
  metadata := metadata
  retry := some
    { attempts := 0
      maxAttempts := queue.defaultMaxRetries
      lastAttempt := none
      nextAttemptAt := none
      backoffMs := queue.defaultBackoffMs
      maxBackoffMs := queue.maxBackoffMs }

/-- The new item is pushed and the items are sorted. -/
def push (queue : AutomationQueue T) (item : QueueItem T) (published : List AutomationEvent) :
    QueueEffect T (Except JsString JsString) where
  queue :=
    { queue with
      items := sortItems (queue.items ++ [item])
      itemCounter := queue.itemCounter + 1 }
  result := .ok item.id
  events := published ++ [.enqueued item.id item.priority]

/-- `idTime` and `createdAt` are the two readings of the clock. -/
def enqueue (queue : AutomationQueue T) (payload : T) (priority : QueuePriority)
    (metadata : Option Json) (idTime createdAt : Int) : QueueEffect T (Except JsString JsString) :=
  let item := queue.newItem payload priority metadata idTime createdAt
  if queue.maxSize ≤ queue.items.length then
    match queue.overflowStrategy with
    | .evictOldest =>
      let index := oldestIdx queue.items
      push { queue with items := queue.items.eraseIdx index } item
        (queue.items[index]?.toList.map fun evicted => .evicted evicted.id)
    | .throw => { queue := queue, result := .error (queueFullError queue.maxSize), events := [] }
  else queue.push item []

def isDue (now : Int) (item : QueueItem T) : Bool :=
  match item.retry.bind RetryMetadata.nextAttemptAt with
  | none => true
  | some nextAttemptAt => decide (nextAttemptAt ≤ now)

/-- The first due item goes in flight, while there is room. -/
def dequeue (queue : AutomationQueue T) (now : Int) : QueueEffect T (Option (QueueItem T)) :=
  if queue.maxSize ≤ List.length queue.inflight then
    { queue := queue, result := none, events := [] }
  else
    match spliceFirst (isDue now) queue.items with
    | none => { queue := queue, result := none, events := [] }
    | some (item, rest) =>
      { queue := { queue with items := rest, inflight := queue.inflight.set item.id item }
        result := some item
        events := [.dequeued item.id] }

def hasId (id : JsString) (item : QueueItem T) : Bool := item.id == id

/-- `get(id)`. -/
def getItem (queue : AutomationQueue T) (id : JsString) : Option (QueueItem T) :=
  (queue.items.find? (hasId id)).or (queue.inflight.get? id)

def removeQueuedOrInflight (queue : AutomationQueue T) (id : JsString) :
    AutomationQueue T × Option (QueueItem T) :=
  match spliceFirst (hasId id) queue.items with
  | some (removed, rest) => ({ queue with items := rest }, some removed)
  | none =>
    match queue.inflight.get? id with
    | some item => ({ queue with inflight := queue.inflight.erase id }, some item)
    | none => (queue, none)

/-- The id is remembered as done; beyond the bound the oldest is forgotten. -/
def markTerminal (queue : AutomationQueue T) (id : JsString) (time : Int) : AutomationQueue T :=
  let terminalIds := queue.terminalIds.set id time
  { queue with
    terminalIds :=
      if maxTerminalIds < List.length terminalIds then
        match terminalIds.keys.head? with
        | some oldest => terminalIds.erase oldest
        | none => terminalIds
      else terminalIds }

def isTerminal (queue : AutomationQueue T) (id : JsString) : Bool :=
  (queue.terminalIds.get? id).isSome

def remove (queue : AutomationQueue T) (id : JsString) : QueueEffect T Bool :=
  if queue.isTerminal id then { queue := queue, result := false, events := [] }
  else
    let removed := queue.removeQueuedOrInflight id
    { queue := removed.1, result := removed.2.isSome, events := [] }

def complete (queue : AutomationQueue T) (id : JsString) (now : Int) : QueueEffect T Bool :=
  if queue.isTerminal id then { queue := queue, result := false, events := [] }
  else
    match queue.removeQueuedOrInflight id with
    | (_, none) => { queue := queue, result := false, events := [] }
    | (rest, some _) =>
      { queue := rest.markTerminal id now, result := true, events := [.completed id] }

/-- The object that `get` found is changed where it stands. -/
def changeItem (id : JsString) (changed : QueueItem T) : List (QueueItem T) → List (QueueItem T)
  | [] => []
  | item :: rest => if hasId id item then changed :: rest else item :: changeItem id changed rest

/-- A counted failure of a known item: `now` is when it is settled or scheduled again. -/
def retryItem (queue : AutomationQueue T) (id : JsString) (item : QueueItem T)
    (retry : RetryMetadata) (now : Int) : QueueEffect T Bool :=
  if retry.maxAttempts ≤ retry.attempts then
    { queue := (queue.removeQueuedOrInflight id).1.markTerminal id now
      result := false
      events := [.failed id retry.attempts] }
  else
    let nextAttemptAt := now + retry.backoff
    let scheduled :=
      { item with retry := some { retry with nextAttemptAt := some nextAttemptAt } }
    let items := changeItem id scheduled queue.items
    { queue :=
        { queue with
          inflight := queue.inflight.erase id
          items := if items.any (hasId id) then items else sortItems (items ++ [scheduled]) }
      result := true
      events := [.retryScheduled id retry.attempts nextAttemptAt retry.backoff] }

/-- `lastAttempt` and `now` are the two readings of the clock. -/
def retry (queue : AutomationQueue T) (id : JsString) (lastAttempt now : Int) :
    QueueEffect T Bool :=
  if queue.isTerminal id then { queue := queue, result := false, events := [] }
  else
    match queue.getItem id with
    | none => { queue := queue, result := false, events := [] }
    | some item =>
      match item.retry with
      | none => { queue := queue, result := false, events := [] }
      | some retry =>
        queue.retryItem id item (retry.failedAgain lastAttempt) now

def clear (queue : AutomationQueue T) : QueueEffect T Unit where
  queue := { queue with items := [], inflight := [] }
  result := ()
  events := (queue.items.map fun item => .evicted item.id)
    ++ queue.inflight.values.map fun item => .evicted item.id

end AutomationQueue

end OpencodeSwarm
