/-
  OpencodeSwarm.Knowledge.FairScan

  Whole sweeps by any number of claimers.  Within a generation the cursor only moves
  forward and every batch lies between its two positions, so no entry is handed out
  twice.  What a claimer's list does not have, though, the cursor passes by: a list
  read before an entry was there can complete the sweep without it.
-/
import Mathlib.Logic.Function.Basic
import OpencodeSwarm.Knowledge.ScanCursor
import OpencodeSwarm.Lib.Transition

namespace OpencodeSwarm

open Js Transition

/-! ## Runs -/

/-- The store, the list each claimer has read, and the cursor.  The rest is history:
    the batches returned, and the ids that have been present and active since before
    the first claim of the cursor's generation. -/
structure ScanWorld where
  store : List KnowledgeEntry
  lists : Nat → Option (List KnowledgeEntry)
  cursor : Option ScanCursorState
  batches : List ScanBatch
  steady : List JsString

inductive ScanEvent where
  /-- The unlocked read of a claimer. -/
  | read (claimer : Nat)
  /-- Its locked read, select and write of the cursor. -/
  | claim (claimer batchSize : Nat) (cohortId now : JsString)
  | append (entry : KnowledgeEntry)
  | setStatus (id : JsString) (status : Option JsString)

def activeIds (entries : List KnowledgeEntry) : List JsString :=
  (entries.filter fun entry => isActiveStatus entry.status).map KnowledgeEntry.id

/-- A claim on this cursor is the first of its generation. -/
def startsSweep (cursor : Option ScanCursorState) : Bool := cursor.all ScanCursorState.completed

/-- The steady ids, once the claim at hand is counted among those of its generation. -/
def ScanWorld.steadyNow (w : ScanWorld) : List JsString :=
  if startsSweep w.cursor then activeIds w.store else w.steady

def setEntryStatus (id : JsString) (status : Option JsString) (entry : KnowledgeEntry) :
    KnowledgeEntry :=
  if entry.id = id then { entry with status := status } else entry

/-- A claim from the claimer's list. -/
def ScanWorld.claim (w : ScanWorld) (claimer batchSize : Nat) (cohortId now : JsString)
    (entries : List KnowledgeEntry) : ScanWorld where
  store := w.store
  lists := Function.update w.lists claimer none
  cursor := some (claimNextScanBatch cohortId now entries batchSize w.cursor).2
  batches := w.batches ++ [(claimNextScanBatch cohortId now entries batchSize w.cursor).1]
  steady := w.steadyNow

/-- A claimer reads or claims, or the store changes. -/
def scanStep (w : ScanWorld) : ScanEvent → ScanWorld
  | .read claimer => { w with lists := Function.update w.lists claimer (some w.store) }
  | .claim claimer batchSize cohortId now =>
    match w.lists claimer with
    | none => w
    | some entries => w.claim claimer batchSize cohortId now entries
  | .append entry =>
    if entry.id ∈ w.store.map KnowledgeEntry.id then w
    else { w with store := w.store ++ [entry] }
  | .setStatus id status =>
    { w with
      store := w.store.map (setEntryStatus id status)
      steady := if isActiveStatus status then w.steady else w.steady.filter (· ≠ id) }

/-- The ids handed out in one generation. -/
def ScanWorld.visited (w : ScanWorld) (generation : Nat) : List JsString :=
  (w.batches.filter (·.generation == generation)).flatMap fun batch =>
    batch.entries.map KnowledgeEntry.id

/-- No id is handed out twice in a generation, and a completed one has handed out
    every id that was there throughout. -/
structure FairScan (w : ScanWorld) : Prop where
  once : ∀ generation, (w.visited generation).Nodup
  covered : ∀ cursor ∈ w.cursor, cursor.completed = true →
    ∀ id ∈ w.steady, id ∈ w.visited cursor.generation

/-! ## The condition -/

/-- The position a claim starts from. -/
def startKey (cursor : Option ScanCursorState) : JsString :=
  match cursor with
  | none => []
  | some cursor => if cursor.completed then [] else cursor.lastVisitedSortKey

/-- A steady entry beyond the cursor is not active in the claimer's list. -/
def missesSteady (w : ScanWorld) (entries : List KnowledgeEntry) : Bool :=
  w.store.any fun entry => entry.id ∈ w.steadyNow
    && isBeyond (entrySortKey entry) (startKey w.cursor) && entry.id ∉ activeIds entries

/-- The batch ends between two entries of one sort key. -/
def splitsSortKey (w : ScanWorld) (batchSize : Nat) (entries : List KnowledgeEntry) : Bool :=
  let pending := pendingEntries (startKey w.cursor) (eligibleEntries entries)
  match (pending.take batchSize).getLast?, (pending.drop batchSize).head? with
  | some last, some next => entrySortKey last == entrySortKey next
  | _, _ => false

/-- The claim may pass by an entry. -/
def passesBy (w : ScanWorld) : ScanEvent → Bool
  | .claim claimer batchSize _ _ =>
    (w.lists claimer).any fun entries =>
      missesSteady w entries || splitsSortKey w batchSize entries
  | _ => false

/-- A store with distinct ids, before any claim. -/
structure ScanStart (w : ScanWorld) : Prop where
  ids : (w.store.map KnowledgeEntry.id).Nodup
  lists : ∀ claimer, w.lists claimer = none
  cursor : w.cursor = none
  batches : w.batches = []
  steady : w.steady = []

/-! ## One claim -/

section Claim

variable {cohortId now : JsString} {entries : List KnowledgeEntry} {batchSize : Nat}
  {onDisk : Option ScanCursorState}

/-- The generation a claim works in. -/
def sweepGeneration (onDisk : Option ScanCursorState) : Nat :=
  match onDisk with
  | none => 1
  | some cursor => if cursor.completed then cursor.generation + 1 else cursor.generation

theorem sweepCursor_eq (cohortId now : JsString) (eligible : List KnowledgeEntry)
    (onDisk : Option ScanCursorState) :
    (sweepCursor cohortId now eligible onDisk).lastVisitedSortKey = startKey onDisk
      ∧ (sweepCursor cohortId now eligible onDisk).generation = sweepGeneration onDisk := by
  unfold sweepCursor startKey sweepGeneration
  cases onDisk with
  | none => exact ⟨rfl, rfl⟩
  | some cursor =>
    dsimp only
    split_ifs <;> exact ⟨rfl, rfl⟩

/-- The entries a claim chooses among. -/
def claimable (entries : List KnowledgeEntry) (onDisk : Option ScanCursorState) :
    List KnowledgeEntry :=
  pendingEntries (startKey onDisk) (eligibleEntries entries)

/-- The position a claim leaves. -/
def endKey (entries : List KnowledgeEntry) (batchSize : Nat) (onDisk : Option ScanCursorState) :
    JsString :=
  (((claimable entries onDisk).take batchSize).getLast?.map entrySortKey).getD (startKey onDisk)

theorem claimNextScanBatch_eq :
    (claimNextScanBatch cohortId now entries batchSize onDisk).1.entries
        = (claimable entries onDisk).take batchSize
      ∧ (claimNextScanBatch cohortId now entries batchSize onDisk).1.generation
        = sweepGeneration onDisk
      ∧ (claimNextScanBatch cohortId now entries batchSize onDisk).2.generation
        = sweepGeneration onDisk
      ∧ (claimNextScanBatch cohortId now entries batchSize onDisk).2.lastVisitedSortKey
        = endKey entries batchSize onDisk
      ∧ (claimNextScanBatch cohortId now entries batchSize onDisk).2.completed
        = ((claimable entries onDisk).drop batchSize).isEmpty := by
  obtain ⟨hkey, hgeneration⟩ := sweepCursor_eq cohortId now (eligibleEntries entries) onDisk
  dsimp only [claimNextScanBatch, endKey, claimable]
  rw [hkey, hgeneration]
  refine ⟨rfl, rfl, rfl, rfl, ?_⟩
  rw [Bool.eq_iff_iff, beq_iff_eq, List.isEmpty_iff, List.drop_eq_nil_iff, List.length_take]
  omega

variable {entry : KnowledgeEntry}

theorem mem_claimable :
    entry ∈ claimable entries onDisk ↔ entry ∈ entries ∧ isActiveStatus entry.status = true
      ∧ isBeyond (entrySortKey entry) (startKey onDisk) = true := by
  rw [claimable, pendingEntries, List.mem_filter, mem_eligibleEntries, and_assoc]

theorem claimable_sorted :
    (claimable entries onDisk).Pairwise
      fun a b => codeUnitLe (entrySortKey a) (entrySortKey b) = true :=
  (eligibleEntries_sorted entries).sublist List.filter_sublist

theorem claimable_ids (hids : (entries.map KnowledgeEntry.id).Nodup) :
    ((claimable entries onDisk).map KnowledgeEntry.id).Nodup := by
  have heligible : ((eligibleEntries entries).map KnowledgeEntry.id).Nodup :=
    ((eligibleEntries_perm entries).map _).nodup_iff.mpr
      (hids.sublist (List.filter_sublist.map _))
  exact heligible.sublist (List.filter_sublist.map _)

/-- The last entry of a sorted batch is behind none of its entries. -/
theorem le_getLast {batch : List KnowledgeEntry} {last : KnowledgeEntry}
    (hsorted : batch.Pairwise fun a b => codeUnitLe (entrySortKey a) (entrySortKey b) = true)
    (hlast : batch.getLast? = some last) (hentry : entry ∈ batch) :
    codeUnitLe (entrySortKey entry) (entrySortKey last) = true := by
  obtain ⟨init, rfl⟩ := List.getLast?_eq_some_iff.mp hlast
  rcases List.mem_append.mp hentry with hinit | hsame
  · exact (List.pairwise_append.mp hsorted).2.2 entry hinit last List.mem_cons_self
  · rw [List.mem_singleton.mp hsame]
    exact (codeUnitLe_total _ _).elim id id

theorem le_endKey (hentry : entry ∈ (claimable entries onDisk).take batchSize) :
    codeUnitLe (entrySortKey entry) (endKey entries batchSize onDisk) = true := by
  unfold endKey
  cases hlast : ((claimable entries onDisk).take batchSize).getLast? with
  | none =>
    rw [List.getLast?_eq_none_iff.mp hlast] at hentry
    cases hentry
  | some last =>
    exact le_getLast (claimable_sorted.sublist (List.take_sublist _ _)) hlast hentry

theorem startKey_le_endKey :
    codeUnitLe (startKey onDisk) (endKey entries batchSize onDisk) = true := by
  unfold endKey
  cases hlast : ((claimable entries onDisk).take batchSize).getLast? with
  | none => exact (codeUnitLe_total _ _).elim id id
  | some last =>
    have hmem := List.mem_of_mem_take (List.mem_of_getLast? hlast)
    have hbeyond := (mem_claimable.mp hmem).2.2
    rw [isBeyond_iff] at hbeyond
    refine (codeUnitLe_total _ _).resolve_right ?_
    rw [Option.map_some, Option.getD_some, hbeyond]
    exact Bool.false_ne_true

/-- What a batch that splits no key leaves is beyond the new position. -/
theorem isBeyond_endKey
    (hsplit : ∀ last next, ((claimable entries onDisk).take batchSize).getLast? = some last →
      ((claimable entries onDisk).drop batchSize).head? = some next →
      entrySortKey last ≠ entrySortKey next)
    (hentry : entry ∈ (claimable entries onDisk).drop batchSize) :
    isBeyond (entrySortKey entry) (endKey entries batchSize onDisk) = true := by
  unfold endKey
  cases hlast : ((claimable entries onDisk).take batchSize).getLast? with
  | none => exact (mem_claimable.mp (List.mem_of_mem_drop hentry)).2.2
  | some last =>
    have hsorted : (claimable entries onDisk).Pairwise
        fun a b => codeUnitLe (entrySortKey a) (entrySortKey b) = true := claimable_sorted
    rw [← List.take_append_drop batchSize (claimable entries onDisk), List.pairwise_append] at hsorted
    obtain ⟨-, hrest, hcross⟩ := hsorted
    cases hdrop : (claimable entries onDisk).drop batchSize with
    | nil =>
      rw [hdrop] at hentry
      cases hentry
    | cons next rest =>
      rw [hdrop] at hentry hrest hcross hsplit
      -- the next entry is strictly behind the batch, and the others behind that
      have hnext := isBeyond_of_le_of_ne
        (hcross last (List.mem_of_getLast? hlast) next List.mem_cons_self)
        (hsplit last next hlast rfl)
      rcases List.mem_cons.mp hentry with rfl | hlater
      · exact hnext
      · exact isBeyond_of_le (List.rel_of_pairwise_cons hrest hlater) hnext

end Claim

/-! ## The invariant -/

/-- The entry is one of the store, up to its status. -/
def Stored (store : List KnowledgeEntry) (entry : KnowledgeEntry) : Prop :=
  ∃ stored ∈ store, stored.id = entry.id ∧ entrySortKey stored = entrySortKey entry

/-- What holds of the batches and of the cursor in every run. -/
structure ScanInvariant (w : ScanWorld) : Prop where
  ids : (w.store.map KnowledgeEntry.id).Nodup
  lists : ∀ claimer entries, w.lists claimer = some entries →
    (entries.map KnowledgeEntry.id).Nodup ∧ ∀ entry ∈ entries, Stored w.store entry
  handed : ∀ batch ∈ w.batches, ∀ entry ∈ batch.entries, Stored w.store entry
  past : ∀ batch ∈ w.batches, ∃ cursor ∈ w.cursor, batch.generation ≤ cursor.generation
    ∧ (batch.generation = cursor.generation → ∀ entry ∈ batch.entries,
      codeUnitLe (entrySortKey entry) cursor.lastVisitedSortKey = true)
  once : ∀ generation, (w.visited generation).Nodup
  steady : ∀ id ∈ w.steady, id ∈ w.store.map KnowledgeEntry.id
  progress : ∀ cursor ∈ w.cursor, ∀ entry ∈ w.store, entry.id ∈ w.steady →
    entry.id ∈ w.visited cursor.generation
      ∨ cursor.completed = false
        ∧ isBeyond (entrySortKey entry) cursor.lastVisitedSortKey = true

@[simp] theorem setEntryStatus_id (id : JsString) (status : Option JsString)
    (entry : KnowledgeEntry) : (setEntryStatus id status entry).id = entry.id := by
  unfold setEntryStatus
  split_ifs <;> rfl

@[simp] theorem entrySortKey_setEntryStatus (id : JsString) (status : Option JsString)
    (entry : KnowledgeEntry) : entrySortKey (setEntryStatus id status entry) = entrySortKey entry := by
  unfold setEntryStatus
  split_ifs <;> rfl

variable {store : List KnowledgeEntry} {entry : KnowledgeEntry}

theorem Stored.append (h : Stored store entry) (new : KnowledgeEntry) :
    Stored (store ++ [new]) entry := by
  obtain ⟨stored, hmem, hsame⟩ := h
  exact ⟨stored, List.mem_append_left _ hmem, hsame⟩

theorem Stored.setStatus (h : Stored store entry) (id : JsString) (status : Option JsString) :
    Stored (store.map (setEntryStatus id status)) entry := by
  obtain ⟨stored, hmem, hid, hkey⟩ := h
  refine ⟨setEntryStatus id status stored, List.mem_map_of_mem hmem, ?_, ?_⟩
  · rw [setEntryStatus_id, hid]
  · rw [entrySortKey_setEntryStatus, hkey]

theorem Stored.sortKey_eq (hids : (store.map KnowledgeEntry.id).Nodup) {a b : KnowledgeEntry}
    (ha : Stored store a) (hb : Stored store b) (hid : a.id = b.id) :
    entrySortKey a = entrySortKey b := by
  obtain ⟨storedA, hmemA, hidA, hkeyA⟩ := ha
  obtain ⟨storedB, hmemB, hidB, hkeyB⟩ := hb
  have hsame : storedA = storedB := List.inj_on_of_nodup_map hids hmemA hmemB
    (hidA.trans (hid.trans hidB.symm))
  rw [← hkeyA, ← hkeyB, hsame]

theorem stored_of_mem (h : entry ∈ store) : Stored store entry := ⟨entry, h, rfl, rfl⟩

variable {w : ScanWorld}

theorem ScanStart.invariant (h : ScanStart w) : ScanInvariant w := by
  have hvisited : ∀ generation, w.visited generation = [] := by
    intro generation
    rw [ScanWorld.visited, h.batches]
    rfl
  refine ⟨h.ids, ?_, ?_, ?_, ?_, ?_, ?_⟩
  · intro claimer entries hlist
    rw [h.lists] at hlist
    cases hlist
  · intro batch hbatch
    rw [h.batches] at hbatch
    cases hbatch
  · intro batch hbatch
    rw [h.batches] at hbatch
    cases hbatch
  · intro generation
    rw [hvisited]
    exact List.nodup_nil
  · intro id hid
    rw [h.steady] at hid
    cases hid
  · intro cursor hcursor
    rw [h.cursor] at hcursor
    cases hcursor

variable {claimer : Nat}

theorem visited_claim {batchSize : Nat} {cohortId now : JsString} {entries : List KnowledgeEntry}
    (generation : Nat) : (w.claim claimer batchSize cohortId now entries).visited generation
      = w.visited generation ++ if sweepGeneration w.cursor = generation then
          ((claimable entries w.cursor).take batchSize).map KnowledgeEntry.id else [] := by
  obtain ⟨hentries, hgeneration, -⟩ := @claimNextScanBatch_eq cohortId now entries batchSize
    w.cursor
  unfold ScanWorld.visited ScanWorld.claim
  rw [List.filter_append, List.flatMap_append, List.filter_singleton, hgeneration]
  by_cases hsame : sweepGeneration w.cursor = generation
  · rw [if_pos hsame, hsame, beq_self_eq_true, ← hentries]
    exact congrArg _ (List.append_nil _)
  · rw [if_neg hsame, beq_eq_false_iff_ne.mpr hsame]
    rfl

/-- The batches of the generation a claim works in are before its position. -/
theorem ScanInvariant.before_startKey (hinv : ScanInvariant w) {batch : ScanBatch}
    (hbatch : batch ∈ w.batches) : batch.generation ≤ sweepGeneration w.cursor
      ∧ (batch.generation = sweepGeneration w.cursor → ∀ entry ∈ batch.entries,
        codeUnitLe (entrySortKey entry) (startKey w.cursor) = true) := by
  obtain ⟨cursor, hcursor, hle, hpast⟩ := hinv.past batch hbatch
  have hcursor' : w.cursor = some cursor := hcursor
  rw [hcursor', sweepGeneration, startKey]
  split_ifs with hcompleted
  · refine ⟨by omega, fun hsame => ?_⟩
    omega
  · exact ⟨hle, hpast⟩

theorem ScanInvariant.claim_once (hinv : ScanInvariant w) {batchSize : Nat}
    {cohortId now : JsString} {entries : List KnowledgeEntry}
    (hlist : w.lists claimer = some entries) (generation : Nat) :
    ((w.claim claimer batchSize cohortId now entries).visited generation).Nodup := by
  obtain ⟨hids, hstored⟩ := hinv.lists claimer entries hlist
  rw [visited_claim, List.nodup_append']
  refine ⟨hinv.once generation, ?_, ?_⟩
  · split_ifs
    · exact (claimable_ids hids).sublist ((List.take_sublist _ _).map _)
    · exact List.nodup_nil
  · split_ifs with hgeneration
    · intro id hold hnew
      obtain ⟨batch, hbatch, hin⟩ := List.mem_flatMap.mp hold
      obtain ⟨hbatch, hof⟩ := List.mem_filter.mp hbatch
      obtain ⟨earlier, hearlier, rfl⟩ := List.mem_map.mp hin
      obtain ⟨later, hlater, hid⟩ := List.mem_map.mp hnew
      -- the two have one key, on both sides of the position
      have hmem := mem_claimable.mp (List.mem_of_mem_take hlater)
      have hkey := Stored.sortKey_eq hinv.ids (hstored later hmem.1)
        (hinv.handed batch hbatch earlier hearlier) hid
      have hbefore := (hinv.before_startKey hbatch).2
        ((eq_of_beq hof).trans hgeneration.symm) earlier hearlier
      have hbeyond := isBeyond_iff.mp hmem.2.2
      rw [hkey, hbefore] at hbeyond
      cases hbeyond
    · exact List.disjoint_nil_right _

/-- Every steady entry is handed out, or still ahead of the new position. -/
theorem ScanInvariant.claim_progress (hinv : ScanInvariant w) {batchSize : Nat}
    {cohortId now : JsString} {entries : List KnowledgeEntry}
    (hlist : w.lists claimer = some entries) (hmisses : missesSteady w entries = false)
    (hsplits : splitsSortKey w batchSize entries = false) (hentry : entry ∈ w.store)
    (hsteady : entry.id ∈ w.steadyNow) :
    entry.id ∈ (w.claim claimer batchSize cohortId now entries).visited (sweepGeneration w.cursor)
      ∨ ((claimable entries w.cursor).drop batchSize).isEmpty = false
        ∧ isBeyond (entrySortKey entry) (endKey entries batchSize w.cursor) = true := by
  rw [visited_claim, if_pos rfl, List.mem_append]
  have hstart : entry.id ∈ w.visited (sweepGeneration w.cursor)
      ∨ isBeyond (entrySortKey entry) (startKey w.cursor) = true := by
    cases hcursor : w.cursor with
    | none => exact Or.inr (isBeyond_nil entry)
    | some cursor =>
      dsimp only [sweepGeneration, startKey]
      split_ifs with hcompleted
      · exact Or.inr (isBeyond_nil entry)
      · have hold : entry.id ∈ w.steady := by
          rwa [ScanWorld.steadyNow, hcursor, startsSweep, Option.all_some, if_neg hcompleted]
            at hsteady
        exact (hinv.progress cursor hcursor entry hentry hold).imp id And.right
  rcases hstart with hvisited | hbeyond
  · exact Or.inl (Or.inl hvisited)
  -- the claimer has it in its list, and so among the pending entries
  have hactive : entry.id ∈ activeIds entries := by
    by_contra hmissing
    have hany := List.any_eq_false.mp hmisses entry hentry
    rw [decide_eq_true hsteady, hbeyond, decide_eq_true hmissing] at hany
    exact hany rfl
  obtain ⟨listed, hlisted, hid⟩ := List.mem_map.mp hactive
  obtain ⟨hin, hstatus⟩ := List.mem_filter.mp hlisted
  have hkey : entrySortKey listed = entrySortKey entry := Stored.sortKey_eq hinv.ids
    ((hinv.lists claimer entries hlist).2 listed hin) (stored_of_mem hentry) hid
  have hpending : listed ∈ claimable entries w.cursor :=
    mem_claimable.mpr ⟨hin, hstatus, by rw [hkey]; exact hbeyond⟩
  rw [← List.take_append_drop batchSize (claimable entries w.cursor), List.mem_append] at hpending
  rcases hpending with hbatch | hleft
  · exact Or.inl (Or.inr (List.mem_map.mpr ⟨listed, hbatch, hid⟩))
  refine Or.inr ⟨?_, ?_⟩
  · rw [List.isEmpty_eq_false_iff]
    exact List.ne_nil_of_mem hleft
  · rw [← hkey]
    refine isBeyond_endKey (fun last next hlast hnext => ?_) hleft
    have hpending : pendingEntries (startKey w.cursor) (eligibleEntries entries)
        = claimable entries w.cursor := rfl
    simp only [splitsSortKey] at hsplits
    rw [hpending, hlast, hnext] at hsplits
    exact ne_of_beq_false hsplits

/-- The ids that are steady when a claim is over are in the store. -/
theorem ScanInvariant.steadyNow (hinv : ScanInvariant w) {id : JsString} (hid : id ∈ w.steadyNow) :
    id ∈ w.store.map KnowledgeEntry.id := by
  unfold ScanWorld.steadyNow at hid
  split_ifs at hid
  · exact (List.filter_sublist.map KnowledgeEntry.id).subset hid
  · exact hinv.steady id hid

theorem ScanInvariant.claim (hinv : ScanInvariant w) {batchSize : Nat} {cohortId now : JsString}
    {entries : List KnowledgeEntry} (hlist : w.lists claimer = some entries)
    (hmisses : missesSteady w entries = false)
    (hsplits : splitsSortKey w batchSize entries = false) :
    ScanInvariant (w.claim claimer batchSize cohortId now entries) := by
  obtain ⟨hentries, hgeneration, hnext, hkey, hcompleted⟩ :=
    @claimNextScanBatch_eq cohortId now entries batchSize w.cursor
  obtain ⟨-, hstored⟩ := hinv.lists claimer entries hlist
  refine ⟨hinv.ids, ?_, ?_, ?_, hinv.claim_once hlist, fun id hid => hinv.steadyNow hid, ?_⟩
  · intro other list hother
    have hnow : Function.update w.lists claimer none other = some list := hother
    by_cases hsame : other = claimer
    · rw [hsame, Function.update_self] at hnow
      cases hnow
    · rw [Function.update_of_ne hsame] at hnow
      exact hinv.lists other list hnow
  · intro batch hbatch entry hentry
    rcases List.mem_append.mp hbatch with hold | hnew
    · exact hinv.handed batch hold entry hentry
    · rw [List.mem_singleton.mp hnew, hentries] at hentry
      exact hstored entry (mem_claimable.mp (List.mem_of_mem_take hentry)).1
  · intro batch hbatch
    refine ⟨_, rfl, ?_⟩
    rw [hnext, hkey]
    rcases List.mem_append.mp hbatch with hold | hnew
    · obtain ⟨hle, hbefore⟩ := hinv.before_startKey hold
      exact ⟨hle, fun hsame entry hentry =>
        codeUnitLe_trans (hbefore hsame entry hentry) startKey_le_endKey⟩
    · rw [List.mem_singleton.mp hnew, hgeneration, hentries]
      exact ⟨Nat.le_refl _, fun _ entry hentry => le_endKey hentry⟩
  · intro cursor hcursor entry hentry hsteady
    have hwritten : (claimNextScanBatch cohortId now entries batchSize w.cursor).2 = cursor :=
      Option.some.inj hcursor
    rw [← hwritten, hnext, hcompleted, hkey]
    exact hinv.claim_progress hlist hmisses hsplits hentry hsteady

theorem ScanInvariant.restore (hinv : ScanInvariant w) {steady : List JsString}
    (hids : (store.map KnowledgeEntry.id).Nodup)
    (hkept : ∀ entry, Stored w.store entry → Stored store entry)
    (hsteady : ∀ id ∈ steady, id ∈ w.steady)
    (hsame : ∀ entry ∈ store, entry.id ∈ steady → Stored w.store entry) :
    ScanInvariant { w with store := store, steady := steady } := by
  refine ⟨hids, ?_, ?_, hinv.past, hinv.once, ?_, ?_⟩
  · intro claimer entries hlist
    obtain ⟨hnodup, hstored⟩ := hinv.lists claimer entries hlist
    exact ⟨hnodup, fun entry hentry => hkept entry (hstored entry hentry)⟩
  · exact fun batch hbatch entry hentry => hkept entry (hinv.handed batch hbatch entry hentry)
  · intro id hid
    obtain ⟨old, hold, rfl⟩ := List.mem_map.mp (hinv.steady id (hsteady id hid))
    obtain ⟨stored, hstored, hsameId, -⟩ := hkept old (stored_of_mem hold)
    exact List.mem_map.mpr ⟨stored, hstored, hsameId⟩
  · intro cursor hcursor entry hentry hid
    obtain ⟨old, hold, hsameId, hsameKey⟩ := hsame entry hentry hid
    have holdSteady : old.id ∈ w.steady := by
      rw [hsameId]
      exact hsteady _ hid
    have hprogress := hinv.progress cursor hcursor old hold holdSteady
    rw [hsameId, hsameKey] at hprogress
    exact hprogress

theorem ScanInvariant.step (hinv : ScanInvariant w) {event : ScanEvent}
    (hguard : passesBy w event = false) : ScanInvariant (scanStep w event) := by
  cases event with
  | read claimer =>
    refine ⟨hinv.ids, ?_, hinv.handed, hinv.past, hinv.once, hinv.steady, hinv.progress⟩
    intro other entries hlist
    have hnow : Function.update w.lists claimer (some w.store) other = some entries := hlist
    by_cases hsame : other = claimer
    · rw [hsame, Function.update_self] at hnow
      cases hnow
      exact ⟨hinv.ids, fun entry hentry => stored_of_mem hentry⟩
    · rw [Function.update_of_ne hsame] at hnow
      exact hinv.lists other entries hnow
  | claim claimer batchSize cohortId now =>
    simp only [scanStep]
    cases hlist : w.lists claimer with
    | none => exact hinv
    | some entries =>
      rw [passesBy, hlist, Option.any_some, Bool.or_eq_false_iff] at hguard
      exact hinv.claim hlist hguard.1 hguard.2
  | append entry =>
    simp only [scanStep]
    split_ifs with hknown
    · exact hinv
    · have hids : ((w.store ++ [entry]).map KnowledgeEntry.id).Nodup := by
        rw [List.map_append, List.map_singleton, List.nodup_append']
        refine ⟨hinv.ids, List.nodup_singleton _, ?_⟩
        intro id hold hnew
        rw [List.mem_singleton.mp hnew] at hold
        exact hknown hold
      refine hinv.restore hids (fun old hold => hold.append entry) (fun _ hid => hid) ?_
      intro other hother hsteady
      rcases List.mem_append.mp hother with hold | hnew
      · exact stored_of_mem hold
      · -- a new entry was not there throughout
        rw [List.mem_singleton.mp hnew] at hsteady
        exact absurd (hinv.steady _ hsteady) hknown
  | setStatus id status =>
    have hids : ((w.store.map (setEntryStatus id status)).map KnowledgeEntry.id).Nodup := by
      rw [List.map_map]
      have hcomp : KnowledgeEntry.id ∘ setEntryStatus id status = KnowledgeEntry.id :=
        funext fun entry => setEntryStatus_id id status entry
      rw [hcomp]
      exact hinv.ids
    refine hinv.restore hids (fun old hold => hold.setStatus id status) ?_ ?_
    · intro other hother
      split_ifs at hother
      · exact hother
      · exact (List.mem_filter.mp hother).1
    · intro entry hentry _
      obtain ⟨old, hold, rfl⟩ := List.mem_map.mp hentry
      exact ⟨old, hold, (setEntryStatus_id id status old).symm,
        (entrySortKey_setEntryStatus id status old).symm⟩

theorem ScanInvariant.fairScan (hinv : ScanInvariant w) : FairScan w := by
  refine ⟨hinv.once, fun cursor hcursor hcompleted id hid => ?_⟩
  obtain ⟨entry, hentry, rfl⟩ := List.mem_map.mp (hinv.steady id hid)
  rcases hinv.progress cursor hcursor entry hentry hid with hvisited | ⟨hopen, -⟩
  · exact hvisited
  · rw [hcompleted] at hopen
    cases hopen

/-- Every interleaving in which no claim passes an entry by. -/
theorem fairScan_of_run {w : ScanWorld} (hstart : ScanStart w) {events : List ScanEvent}
    (hguard : Along scanStep (fun w event => passesBy w event = false) w events) :
    FairScan (events.foldl scanStep w) := by
  have hinv : ScanInvariant (events.foldl scanStep w) := by
    refine Run.preserves ?_ (Run.of_foldl hguard) hstart.invariant
    rintro s event _ ⟨rfl, hfree⟩ hs
    exact hs.step hfree
  exact hinv.fairScan

/-! ## A list that has gone stale -/

/-- An entry of January. -/
def januaryEntry (day : String) : KnowledgeEntry where
  id := js "k-" ++ js day
  createdAt := some (js "2026-01-" ++ js day)
  status := none

def oneEntry : ScanWorld where
  store := [januaryEntry "01"]
  lists := fun _ => none
  cursor := none
  batches := []
  steady := []

theorem scanStart_oneEntry : ScanStart oneEntry :=
  ⟨by decide +kernel, fun _ => rfl, rfl, rfl, rfl⟩

def claimOne (claimer : Nat) : ScanEvent := .claim claimer 1 (js "cohort") (js "2026-02-01")

/-- Both claimers read two entries; each of them claims one. -/
theorem fairScan_twoClaimers :
    FairScan ([.append (januaryEntry "02"), .read 1, .read 2, claimOne 1, claimOne 2].foldl scanStep
      oneEntry) :=
  fairScan_of_run scanStart_oneEntry (by decide +kernel)

/-- Claimer 1 has read the store before the second entry came; 2 starts the sweep,
    and 1 completes it from its list. -/
theorem not_fairScan_staleList :
    ScanStart oneEntry ∧ ¬ FairScan
      ([.read 1, .append (januaryEntry "02"), .read 2, claimOne 2, claimOne 1].foldl scanStep
        oneEntry) := by
  refine ⟨scanStart_oneEntry, fun h => ?_⟩
  have hvisited := h.covered _ rfl (by decide +kernel) (januaryEntry "02").id (by decide +kernel)
  exact absurd hvisited (by decide +kernel)

end OpencodeSwarm
