/-
  OpencodeSwarm.Utils.AdvisoryQueue

  The queue of pending advisories (`src/utils/advisory-queue.ts`).  It holds the
  rendered messages only, so whether an advisory with some key is queued is read
  off the texts.
-/
import OpencodeSwarm.Memory.MemoryRecord

namespace OpencodeSwarm

open Js

/-! ## The queue -/

def MAX_PENDING_ADVISORIES : Int := 25

structure PushAdvisoryOptions where
  dedupeKey : Option JsString
  maxPending : Option Int
  deriving DecidableEq

section Push

variable (toLowerCase : JsString → JsString)

def normalizeMessage (message : JsString) : JsString :=
  toLowerCase (trim (collapseSpaces message))

/-- The key of a push; an empty one is none. -/
def PushAdvisoryOptions.key (opts : PushAdvisoryOptions) : Option JsString :=
  truthyString opts.dedupeKey

/-- A matching advisory is already queued. -/
def alreadyQueued (pending : List JsString) (message : JsString) (opts : PushAdvisoryOptions) :
    Bool :=
  match opts.key with
  | some key => pending.any fun m => includes m key
  | none =>
    pending.any fun m => normalizeMessage toLowerCase m == normalizeMessage toLowerCase message

def PushAdvisoryOptions.cap (opts : PushAdvisoryOptions) : Int :=
  max 1 (opts.maxPending.getD MAX_PENDING_ADVISORIES)

/-- Drop the oldest until there is room for one more. -/
def makeRoom {α : Type} (cap : Int) : List α → List α
  | [] => []
  | oldest :: rest => if cap ≤ (oldest :: rest).length then makeRoom cap rest else oldest :: rest

/-- `pushAdvisory`: whether the message was enqueued, and the queue. -/
def pushAdvisory (pending : List JsString) (message : JsString) (opts : PushAdvisoryOptions) :
    Bool × List JsString :=
  if isBlank message then (false, pending)
  else if alreadyQueued toLowerCase pending message opts then (false, pending)
  else (true, makeRoom opts.cap pending ++ [message])

/-! ## Runs -/

inductive AdvisoryCall where
  | push (message : JsString) (opts : PushAdvisoryOptions)
  | drain

/-- What a call does to the queue. -/
def advisoryStep (pending : List JsString) : AdvisoryCall → List JsString
  | .push message opts => (pushAdvisory toLowerCase pending message opts).2
  | .drain => []

def pendingAdvisories (calls : List AdvisoryCall) : List JsString :=
  calls.foldl (advisoryStep toLowerCase) []

/-- Each keyed message contains its own key. -/
def EmbedsKeys (calls : List AdvisoryCall) : Prop :=
  ∀ message opts, .push message opts ∈ calls → ∀ key, opts.key = some key →
    includes message key = true

/-! ## Keys -/

/-- An advisory in the queue, with the key it was pushed with. -/
structure QueuedAdvisory where
  message : JsString
  key : Option JsString

/-- The queue beside the keys of what is in it. -/
def keyedStep (queued : List QueuedAdvisory) : AdvisoryCall → List QueuedAdvisory
  | .push message opts =>
    if (pushAdvisory toLowerCase (queued.map QueuedAdvisory.message) message opts).1 then
      makeRoom opts.cap queued ++ [{ message, key := opts.key }]
    else queued
  | .drain => []

def queuedAdvisories (calls : List AdvisoryCall) : List QueuedAdvisory :=
  calls.foldl (keyedStep toLowerCase) []

/-- A push under a key answers for that key: it is suppressed when an advisory
    pushed with the key is queued and enqueued as the newest otherwise. -/
structure AnswersForKey (before : List AdvisoryCall) (message : JsString)
    (opts : PushAdvisoryOptions) (key : JsString) : Prop where
  suppressed : (pushAdvisory toLowerCase (pendingAdvisories toLowerCase before) message opts).1
      = false ↔ ∃ advisory ∈ queuedAdvisories toLowerCase before, advisory.key = some key
  enqueued : (pushAdvisory toLowerCase (pendingAdvisories toLowerCase before) message opts).1
      = true →
    (pushAdvisory toLowerCase (pendingAdvisories toLowerCase before) message opts).2.getLast?
        = some message
      ∧ ((pushAdvisory toLowerCase (pendingAdvisories toLowerCase before) message opts).2.length
        : Int) ≤ opts.cap

/-- No queued advisory pushed under another key or none contains the key, unless
    one pushed with the key is queued as well. -/
def KeyApart (before : List AdvisoryCall) (key : JsString) : Prop :=
  ∀ advisory ∈ queuedAdvisories toLowerCase before, includes advisory.message key = true →
    ∃ same ∈ queuedAdvisories toLowerCase before, same.key = some key

variable {toLowerCase}

theorem length_makeRoom {α : Type} {cap : Int} (hcap : 1 ≤ cap) (pending : List α) :
    ((makeRoom cap pending).length : Int) < cap := by
  induction pending with
  | nil =>
    show ((0 : Nat) : Int) < cap
    omega
  | cons oldest rest ih =>
    unfold makeRoom
    split
    · exact ih
    · omega

theorem map_makeRoom {α β : Type} (f : α → β) (cap : Int) (pending : List α) :
    (makeRoom cap pending).map f = makeRoom cap (pending.map f) := by
  induction pending with
  | nil => rfl
  | cons oldest rest ih =>
    rw [List.map_cons, makeRoom, makeRoom, List.length_cons, List.length_cons, List.length_map]
    split
    · exact ih
    · rfl

theorem mem_of_mem_makeRoom {α : Type} {cap : Int} {pending : List α} {x : α}
    (h : x ∈ makeRoom cap pending) : x ∈ pending := by
  induction pending with
  | nil => cases h
  | cons oldest rest ih =>
    unfold makeRoom at h
    split at h
    · exact List.mem_cons_of_mem _ (ih h)
    · exact h

variable {message : JsString} {opts : PushAdvisoryOptions} {pending : List JsString}

theorem pushAdvisory_true (h : (pushAdvisory toLowerCase pending message opts).1 = true) :
    (pushAdvisory toLowerCase pending message opts).2 = makeRoom opts.cap pending ++ [message] := by
  unfold pushAdvisory at h ⊢
  split
  · rw [if_pos ‹_›] at h
    cases h
  · rw [if_neg ‹_›] at h
    split
    · rw [if_pos ‹_›] at h
      cases h
    · rfl

theorem pushAdvisory_false (h : (pushAdvisory toLowerCase pending message opts).1 = false) :
    (pushAdvisory toLowerCase pending message opts).2 = pending := by
  unfold pushAdvisory at h ⊢
  split
  · rfl
  rw [if_neg ‹_›] at h
  split
  · rfl
  rw [if_neg ‹_›] at h
  cases h

theorem map_message_queuedAdvisories (calls : List AdvisoryCall) :
    (queuedAdvisories toLowerCase calls).map QueuedAdvisory.message
      = pendingAdvisories toLowerCase calls := by
  unfold queuedAdvisories pendingAdvisories
  induction calls using List.reverseRecOn with
  | nil => rfl
  | append_singleton calls call ih =>
    rw [List.foldl_concat, List.foldl_concat]
    generalize calls.foldl (advisoryStep toLowerCase) [] = pending at ih ⊢
    subst ih
    cases call with
    | drain => rfl
    | push message opts =>
      dsimp only [keyedStep, advisoryStep]
      split
      · rename_i hpushed
        rw [pushAdvisory_true hpushed, List.map_append, map_makeRoom]
        rfl
      · rename_i hkept
        exact (pushAdvisory_false (Bool.eq_false_iff.mpr hkept)).symm

theorem pushed_of_mem_queuedAdvisories {calls : List AdvisoryCall} {advisory : QueuedAdvisory}
    (h : advisory ∈ queuedAdvisories toLowerCase calls) :
    ∃ opts : PushAdvisoryOptions, .push advisory.message opts ∈ calls
      ∧ opts.key = advisory.key := by
  unfold queuedAdvisories at h
  induction calls using List.reverseRecOn with
  | nil => cases h
  | append_singleton calls call ih =>
    have hearlier : advisory ∈ calls.foldl (keyedStep toLowerCase) [] →
        ∃ opts : PushAdvisoryOptions, .push advisory.message opts ∈ calls ++ [call]
          ∧ opts.key = advisory.key := by
      intro hmem
      obtain ⟨opts, hpush, hkey⟩ := ih hmem
      exact ⟨opts, List.mem_append_left _ hpush, hkey⟩
    rw [List.foldl_concat] at h
    cases call with
    | drain => cases h
    | push message opts =>
      dsimp only [keyedStep] at h
      split at h
      · rcases List.mem_append.mp h with hold | hnew
        · exact hearlier (mem_of_mem_makeRoom hold)
        · obtain rfl := List.mem_singleton.mp hnew
          exact ⟨opts, List.mem_append_right _ (List.mem_singleton_self _), rfl⟩
      · exact hearlier h

/-- A keyed push of a non-blank message is suppressed when its key is found in a
    queued text. -/
theorem pushAdvisory_keyed {pending : List JsString} {message key : JsString}
    {opts : PushAdvisoryOptions} (hblank : isBlank message = false) (hkey : opts.key = some key) :
    (pushAdvisory toLowerCase pending message opts).1 = false
      ↔ ∃ m ∈ pending, includes m key = true := by
  unfold pushAdvisory alreadyQueued
  rw [hblank, if_neg Bool.false_ne_true, hkey, ← List.any_eq_true]
  dsimp only
  split
  · rename_i hqueued
    exact iff_of_true rfl hqueued
  · rename_i hqueued
    exact iff_of_false (fun h => nomatch h) hqueued

theorem answersForKey_iff {before : List AdvisoryCall} (hembeds : EmbedsKeys before)
    {key : JsString} (hblank : isBlank message = false) (hkey : opts.key = some key) :
    AnswersForKey toLowerCase before message opts key ↔ KeyApart toLowerCase before key := by
  have hfound := @pushAdvisory_keyed toLowerCase (pendingAdvisories toLowerCase before) message key
    opts hblank hkey
  have htext : (∃ m ∈ pendingAdvisories toLowerCase before, includes m key = true)
      ↔ ∃ advisory ∈ queuedAdvisories toLowerCase before, includes advisory.message key = true := by
    rw [← map_message_queuedAdvisories]
    simp
  have hsame : (∃ advisory ∈ queuedAdvisories toLowerCase before, advisory.key = some key) →
      ∃ advisory ∈ queuedAdvisories toLowerCase before, includes advisory.message key = true := by
    rintro ⟨advisory, hmem, hown⟩
    obtain ⟨pushedOpts, hpushed, hpushedKey⟩ := pushed_of_mem_queuedAdvisories hmem
    exact ⟨advisory, hmem, hembeds _ _ hpushed key (hpushedKey.trans hown)⟩
  rw [htext] at hfound
  constructor
  · intro h advisory hmem hincludes
    exact h.suppressed.mp (hfound.mpr ⟨advisory, hmem, hincludes⟩)
  · intro h
    refine ⟨hfound.trans ⟨?_, hsame⟩, fun henqueued => ?_⟩
    · rintro ⟨advisory, hmem, hincludes⟩
      exact h advisory hmem hincludes
    · rw [pushAdvisory_true henqueued, List.length_append, List.length_singleton]
      refine ⟨List.getLast?_concat, ?_⟩
      have hcap : 1 ≤ opts.cap := Int.le_max_left 1 _
      have hroom := length_makeRoom hcap (pendingAdvisories toLowerCase before)
      omega

/-- Dedupe keys are identities through a run exactly when, at each keyed push, a
    queued text that contains the key comes with a queued advisory of that key. -/
theorem dedupeKeys_identities_iff (toLowerCase : JsString → JsString) (calls : List AdvisoryCall)
    (hembeds : EmbedsKeys calls) :
    (∀ before message opts after key, calls = before ++ .push message opts :: after →
        isBlank message = false → opts.key = some key →
        AnswersForKey toLowerCase before message opts key)
      ↔ ∀ before message opts after key, calls = before ++ .push message opts :: after →
        isBlank message = false → opts.key = some key → KeyApart toLowerCase before key := by
  have hfront : ∀ before call after, calls = before ++ call :: after → EmbedsKeys before := by
    rintro before call after rfl message opts hpush
    exact hembeds message opts (List.mem_append_left _ hpush)
  constructor
  · intro h before message opts after key hcalls hblank hkey
    exact (answersForKey_iff (hfront _ _ _ hcalls) hblank hkey).mp
      (h before message opts after key hcalls hblank hkey)
  · intro h before message opts after key hcalls hblank hkey
    exact (answersForKey_iff (hfront _ _ _ hcalls) hblank hkey).mpr
      (h before message opts after key hcalls hblank hkey)

end Push

def keyed (key : String) : PushAdvisoryOptions where
  dedupeKey := some (js key)
  maxPending := none

/-- A level-12 warning is queued when the level-1 warning comes. -/
def levelWarnings : List AdvisoryCall :=
  [.push (js "[prm:12] stop") (keyed "prm:12"), .push (js "[prm:1] slow") (keyed "prm:1")]

theorem embedsKeys_levelWarnings : EmbedsKeys levelWarnings := by
  intro message opts hpush key hkey
  rcases List.mem_cons.mp hpush with heq | hpush
  · cases heq
    cases hkey
    decide
  · cases List.mem_singleton.mp hpush
    cases hkey
    decide

theorem dedupeKeys_identities_levelWarnings :
    (∀ before message opts after key, levelWarnings = before ++ .push message opts :: after →
        isBlank message = false → opts.key = some key → AnswersForKey id before message opts key)
      ↔ ∀ before message opts after key, levelWarnings = before ++ .push message opts :: after →
        isBlank message = false → opts.key = some key → KeyApart id before key :=
  dedupeKeys_identities_iff id levelWarnings embedsKeys_levelWarnings

/-- The level-1 warning is dropped, its key being part of the other's. -/
theorem not_answersForKey_levelWarnings :
    EmbedsKeys levelWarnings
      ∧ levelWarnings = levelWarnings.take 1 ++ [.push (js "[prm:1] slow") (keyed "prm:1")]
      ∧ isBlank (js "[prm:1] slow") = false ∧ (keyed "prm:1").key = some (js "prm:1")
      ∧ ¬AnswersForKey id (levelWarnings.take 1) (js "[prm:1] slow") (keyed "prm:1") (js "prm:1") := by
  refine ⟨embedsKeys_levelWarnings, rfl, by decide, rfl, fun h => ?_⟩
  obtain ⟨advisory, hmem, hkey⟩ := h.suppressed.mp (by decide)
  obtain rfl := List.mem_singleton.mp hmem
  revert hkey
  decide

end OpencodeSwarm
