/-
  OpencodeSwarm.Knowledge.MergeTree

  Trees of merges.  Counters, source references and array ownership come through
  any tree; what an entry was itself merged from does not, and a list of
  confirmations that repeats a record is only cleaned where it is the second one.
-/
import OpencodeSwarm.Knowledge.EntryMerge
import Mathlib.Data.List.Dedup

namespace OpencodeSwarm

open Js

/-! ## One merge -/

section Merge

variable (host : EntryHost) (next : Nat) (target src : KnowledgeEntryBase)

def entryCounter (k : OutcomeCounter) (e : KnowledgeEntryBase) : Nat :=
  (e.retrievalOutcomes.bind fun o => o.counters k).getD 0

def confirmationKeys (e : KnowledgeEntryBase) : List JsString :=
  (arrayItems e.confirmedBy).map confirmationKey

def entrySourceRefs (e : KnowledgeEntryBase) : List JsString := arrayItems (e.arrays .sourceRefs)

def mergedFromIds (e : KnowledgeEntryBase) : List JsString := arrayItems (e.arrays .mergedFrom)

theorem entryCounter_merge (k : OutcomeCounter) :
    entryCounter k (mergeEntryFields host next target src)
      = entryCounter k target + entryCounter k src := by
  unfold entryCounter mergeEntryFields sumRetrievalOutcomes
  cases hsrc : src.retrievalOutcomes with
  | none => simp
  | some s =>
    cases htarget : target.retrievalOutcomes with
    | none => simp [cloneRetrievalOutcomes]
    | some t =>
      cases ht : t.counters k with
      | none => cases hs : s.counters k <;> simp [sumCounter, ht, hs]
      | some n => simp [sumCounter, ht]

theorem mem_entrySourceRefs_merge {ref : JsString} :
    ref ∈ entrySourceRefs (mergeEntryFields host next target src)
      ↔ ref ∈ entrySourceRefs target ∨ ref ∈ entrySourceRefs src := by
  have hunion : ∀ (fresh : Nat) (t s : Option (HeapArray JsString)),
      ref ∈ arrayItems (unionSourceRefs fresh t s) ↔ ref ∈ arrayItems t ∨ ref ∈ arrayItems s := by
    intro fresh t s
    unfold unionSourceRefs
    split
    · next hnone =>
      rw [Bool.and_eq_true, Option.isNone_iff_eq_none, Option.isNone_iff_eq_none] at hnone
      rw [hnone.1, hnone.2]
      simp
    · simp [arrayItems, or_comm]
  exact hunion _ _ _

theorem mem_mergedFromIds_merge {id : JsString} :
    id ∈ mergedFromIds (mergeEntryFields host next target src)
      ↔ id ∈ mergedFromIds target ∨ id = src.id := by
  show id ∈ (if (mergedFromIds target).contains src.id then mergedFromIds target
    else mergedFromIds target ++ [src.id]) ↔ _
  split
  · next hthere =>
    refine ⟨Or.inl, fun h => h.elim (fun hold => hold) ?_⟩
    rintro rfl
    exact List.contains_iff_mem.mp hthere
  · rw [List.mem_append, List.mem_singleton]

end Merge

/-! ### Confirmations -/

/-- What the loop adds: records of the second list whose key is new, once each. -/
theorem unionConfirmedLoop_spec (b : List ConfirmationRecord) :
    ∀ (seen : List JsString) (merged : List ConfirmationRecord),
      (∀ k, k ∈ seen ↔ k ∈ merged.map confirmationKey) →
      (∀ k, k ∈ (unionConfirmedLoop seen merged b).map confirmationKey
        ↔ k ∈ merged.map confirmationKey ∨ k ∈ b.map confirmationKey) ∧
      (((unionConfirmedLoop seen merged b).map confirmationKey).Nodup
        ↔ (merged.map confirmationKey).Nodup) := by
  induction b with
  | nil =>
    simp [unionConfirmedLoop]
  | cons rec rest ih =>
    intro seen merged hseen
    rw [unionConfirmedLoop]
    split
    · next hthere =>
      have hkey : confirmationKey rec ∈ merged.map confirmationKey :=
        (hseen _).mp (List.contains_iff_mem.mp hthere)
      obtain ⟨hmem, hnodup⟩ := ih seen merged hseen
      refine ⟨fun k => ?_, hnodup⟩
      rw [hmem, List.map_cons, List.mem_cons]
      constructor
      · exact fun h => h.imp_right Or.inr
      · rintro (h | rfl | h)
        · exact Or.inl h
        · exact Or.inl hkey
        · exact Or.inr h
    · next hnew =>
      have hkey : confirmationKey rec ∉ merged.map confirmationKey := fun h =>
        hnew (List.contains_iff_mem.mpr ((hseen _).mpr h))
      have hseen' : ∀ k, k ∈ confirmationKey rec :: seen
          ↔ k ∈ (merged ++ [rec]).map confirmationKey := by
        intro k
        rw [List.mem_cons, hseen, List.map_append, List.mem_append, List.map_singleton,
          List.mem_singleton]
        exact or_comm
      obtain ⟨hmem, hnodup⟩ := ih _ _ hseen'
      refine ⟨fun k => ?_, ?_⟩
      · rw [hmem, List.map_append, List.mem_append, List.map_singleton, List.mem_singleton,
          List.map_cons, List.mem_cons, or_assoc]
      · rw [hnodup, List.map_append, List.map_singleton, List.nodup_append]
        constructor
        · exact fun h => h.1
        · refine fun h => ⟨h, List.nodup_singleton _, fun k hk k' hk' => ?_⟩
          rw [List.mem_singleton.mp hk']
          exact fun heq => hkey (heq ▸ hk)

theorem mem_confirmationKeys_merge (host : EntryHost) (next : Nat)
    (target src : KnowledgeEntryBase) {k : JsString} :
    k ∈ confirmationKeys (mergeEntryFields host next target src)
      ↔ k ∈ confirmationKeys target ∨ k ∈ confirmationKeys src := by
  show k ∈ (unionConfirmedBy next target.confirmedBy src.confirmedBy).items.map confirmationKey ↔ _
  unfold confirmationKeys arrayItems unionConfirmedBy
  cases target.confirmedBy with
  | none => cases src.confirmedBy <;> simp
  | some a =>
    cases src.confirmedBy with
    | none => simp
    | some b => exact (unionConfirmedLoop_spec b.items _ _ fun _ => Iff.rfl).1 k

theorem nodup_confirmationKeys_merge (host : EntryHost) (next : Nat)
    (target src : KnowledgeEntryBase) :
    (confirmationKeys (mergeEntryFields host next target src)).Nodup
      ↔ (if target.confirmedBy.isSome then (confirmationKeys target).Nodup
          else (confirmationKeys src).Nodup) := by
  show ((unionConfirmedBy next target.confirmedBy src.confirmedBy).items.map
    confirmationKey).Nodup ↔ _
  unfold confirmationKeys arrayItems unionConfirmedBy
  cases target.confirmedBy with
  | none => cases src.confirmedBy <;> simp
  | some a =>
    cases src.confirmedBy with
    | none => simp
    | some b => exact (unionConfirmedLoop_spec b.items _ _ fun _ => Iff.rfl).2

/-! ### Arrays -/

def stringArrayFields : List StringArrayField :=
  [.tags, .sourceRefs, .requiredActions, .forbiddenActions, .verificationChecks, .appliesToAgents,
    .appliesToTools, .triggers, .sourceKnowledgeIds, .mergedFrom]

/-- Where the arrays of an entry are. -/
def arrayAddresses (e : KnowledgeEntryBase) : List Nat :=
  (e.confirmedBy.toList.map HeapArray.address)
    ++ stringArrayFields.flatMap (fun field => (e.arrays field).toList.map HeapArray.address)
    ++ ((e.retrievalOutcomes.bind RetrievalOutcome.violationTimestamps).toList.map HeapArray.address)

/-- An address that a merge at `next` may take. -/
def IsFresh (next address : Nat) : Prop := next ≤ address ∧ address < next + arraysPerMerge

theorem isFresh_freshFor (next : Nat) (field : StringArrayField) :
    IsFresh next (freshFor next field) := by
  unfold IsFresh arraysPerMerge freshFor
  cases field <;> constructor <;> dsimp only <;> omega

theorem mergedArrays_address (host : EntryHost) {next : Nat} {target src : KnowledgeEntryBase}
    {field : StringArrayField} {array : HeapArray JsString}
    (h : mergedArrays host next target src field = some array) :
    IsFresh next array.address ∨ target.arrays field = some array := by
  have hunion : ∀ {f : StringArrayField} {t s : Option (HeapArray JsString)} {cap : Nat}
      {array : HeapArray JsString}, unionArrayField host (freshFor next f) t s cap = some array →
      IsFresh next array.address ∨ t = some array := by
    intro f t s cap array h
    unfold unionArrayField at h
    split at h
    · exact Or.inr h
    cases h
    exact Or.inl (isFresh_freshFor next f)
  cases field with
  | tags =>
    rw [mergedArrays] at h
    cases hunited : unionArrayField host (freshFor next .tags) (target.arrays .tags)
      (src.arrays .tags) mergeFieldCap with
    | none =>
      rw [hunited] at h
      cases h
      exact Or.inl (isFresh_freshFor next .tags)
    | some united =>
      rw [hunited] at h
      cases h
      exact hunion hunited
  | sourceRefs =>
    rw [mergedArrays, unionSourceRefs] at h
    split at h
    · exact Or.inr h
    cases h
    exact Or.inl (isFresh_freshFor next .sourceRefs)
  | mergedFrom =>
    cases h
    exact Or.inl (isFresh_freshFor next .mergedFrom)
  | _ => exact hunion h

/-- A merge leaves the target with arrays of its own: those it had, and new ones. -/
theorem mem_arrayAddresses_merge (host : EntryHost) {next : Nat} {target src : KnowledgeEntryBase}
    {address : Nat} (h : address ∈ arrayAddresses (mergeEntryFields host next target src)) :
    address ∈ arrayAddresses target ∨ IsFresh next address := by
  rcases List.mem_append.mp h with hfront | houtcomes
  · rcases List.mem_append.mp hfront with hconfirmed | hfields
    · right
      obtain ⟨array, harray, rfl⟩ := List.mem_map.mp hconfirmed
      have hat : array.address = next := by
        rw [Option.mem_toList] at harray
        cases harray
        unfold unionConfirmedBy
        split <;> rfl
      unfold IsFresh arraysPerMerge
      omega
    · obtain ⟨field, hfield, hmem⟩ := List.mem_flatMap.mp hfields
      obtain ⟨array, harray, rfl⟩ := List.mem_map.mp hmem
      rcases mergedArrays_address host (Option.mem_toList.mp harray) with hfresh | hold
      · exact Or.inr hfresh
      · refine Or.inl (List.mem_append_left _ (List.mem_append_right _ ?_))
        exact List.mem_flatMap.mpr ⟨field, hfield,
          List.mem_map.mpr ⟨array, Option.mem_toList.mpr hold, rfl⟩⟩
  · obtain ⟨array, harray, rfl⟩ := List.mem_map.mp houtcomes
    rw [Option.mem_toList] at harray
    obtain ⟨outcomes, houtcomes, htimes⟩ := Option.bind_eq_some_iff.mp harray
    have hsum : sumRetrievalOutcomes (next + 11) target.retrievalOutcomes src.retrievalOutcomes
        = some outcomes := houtcomes
    unfold sumRetrievalOutcomes at hsum
    have hkept : ∀ {o : RetrievalOutcome}, target.retrievalOutcomes = some o →
        o.violationTimestamps = some array → array.address ∈ arrayAddresses target := by
      intro o htarget ho
      refine List.mem_append_right _ (List.mem_map.mpr ⟨array, ?_, rfl⟩)
      rw [htarget]
      exact Option.mem_toList.mpr ho
    split at hsum
    · exact Or.inl (hkept hsum htimes)
    split at hsum
    · cases hsum
      obtain ⟨_, -, rfl⟩ := Option.map_eq_some_iff.mp htimes
      right
      dsimp only [IsFresh, arraysPerMerge]
      omega
    · next t htarget =>
      cases hsum
      exact Or.inl (hkept htarget htimes)

/-! ## Trees -/

/-- Entries merged pairwise: the survivor of the left tree takes in that of the right. -/
inductive MergeTree where
  | entry (e : KnowledgeEntryBase)
  | merge (target src : MergeTree)

namespace MergeTree

def leaves : MergeTree → List KnowledgeEntryBase
  | .entry e => [e]
  | .merge target src => target.leaves ++ src.leaves

/-- The entry that survives under its id. -/
def root : MergeTree → KnowledgeEntryBase
  | .entry e => e
  | .merge target _ => target.root

/-- The entries whose survivors the root takes in itself. -/
def direct : MergeTree → List KnowledgeEntryBase
  | .entry _ => []
  | .merge target src => target.direct ++ [src.root]

/-- The confirmations that stand first in the survivor's list: those of the root,
    or of the first tree it takes in when it has no list. -/
def firstConfirmed : MergeTree → Option (List ConfirmationRecord)
  | .entry e => e.confirmedBy.map HeapArray.items
  | .merge target src => some (target.firstConfirmed.getD (src.firstConfirmed.getD []))

end MergeTree

/-- The survivor, the absorbed entries as their merge found them, and the next
    free address. -/
structure MergeRun where
  survivor : KnowledgeEntryBase
  absorbed : List KnowledgeEntryBase
  next : Nat

def MergeTree.run (host : EntryHost) : MergeTree → (next : Nat) → MergeRun
  | .entry e, next => ⟨e, [], next⟩
  | .merge target src, next =>
    let t := target.run host next
    let s := src.run host t.next
    ⟨mergeEntryFields host s.next t.survivor s.survivor, t.absorbed ++ s.absorbed ++ [s.survivor],
      s.next + arraysPerMerge⟩

section Trees

variable (host : EntryHost) (tree : MergeTree) (next : Nat)

theorem run_id : (tree.run host next).survivor.id = tree.root.id := by
  induction tree generalizing next with
  | entry e => rfl
  | merge target src iht _ => exact iht next

theorem entryCounter_run (k : OutcomeCounter) :
    entryCounter k (tree.run host next).survivor = (tree.leaves.map (entryCounter k)).sum := by
  induction tree generalizing next with
  | entry e => simp [MergeTree.run, MergeTree.leaves]
  | merge target src iht ihs =>
    rw [MergeTree.run, entryCounter_merge, iht, ihs, MergeTree.leaves, List.map_append,
      List.sum_append]

theorem mem_entrySourceRefs_run (ref : JsString) :
    ref ∈ entrySourceRefs (tree.run host next).survivor
      ↔ ∃ e ∈ tree.leaves, ref ∈ entrySourceRefs e := by
  induction tree generalizing next with
  | entry e => simp [MergeTree.run, MergeTree.leaves]
  | merge target src iht ihs =>
    rw [MergeTree.run, mem_entrySourceRefs_merge, iht, ihs, MergeTree.leaves]
    simp only [List.mem_append, or_and_right, exists_or]

theorem mem_confirmationKeys_run (k : JsString) :
    k ∈ confirmationKeys (tree.run host next).survivor
      ↔ ∃ e ∈ tree.leaves, k ∈ confirmationKeys e := by
  induction tree generalizing next with
  | entry e => simp [MergeTree.run, MergeTree.leaves]
  | merge target src iht ihs =>
    rw [MergeTree.run, mem_confirmationKeys_merge, iht, ihs, MergeTree.leaves]
    simp only [List.mem_append, or_and_right, exists_or]

theorem isSome_confirmedBy_run :
    (tree.run host next).survivor.confirmedBy.isSome = tree.firstConfirmed.isSome := by
  cases tree with
  | entry e => cases h : e.confirmedBy <;> simp [MergeTree.run, MergeTree.firstConfirmed, h]
  | merge target src => rfl

/-- A key is repeated in the survivor's list when it was in the first one. -/
theorem nodup_confirmationKeys_run :
    (confirmationKeys (tree.run host next).survivor).Nodup
      ↔ ((tree.firstConfirmed.getD []).map confirmationKey).Nodup := by
  induction tree generalizing next with
  | entry e => rfl
  | merge target src iht ihs =>
    rw [MergeTree.run, nodup_confirmationKeys_merge, isSome_confirmedBy_run, iht, ihs,
      MergeTree.firstConfirmed]
    cases target.firstConfirmed with
    | none => rfl
    | some first => rfl

theorem mem_mergedFromIds_run (id : JsString) :
    id ∈ mergedFromIds (tree.run host next).survivor
      ↔ id ∈ mergedFromIds tree.root ∨ ∃ e ∈ tree.direct, e.id = id := by
  induction tree generalizing next with
  | entry e => simp [MergeTree.run, MergeTree.root, MergeTree.direct]
  | merge target src iht _ =>
    rw [MergeTree.run, mem_mergedFromIds_merge, iht, run_id, MergeTree.root, MergeTree.direct,
      or_assoc]
    refine or_congr_right ?_
    simp only [List.mem_append, List.mem_singleton, or_and_right, exists_or, exists_eq_left]
    exact or_congr_right eq_comm

/-! ### Ownership -/

/-- The arrays of a run: the survivor's are no absorbed entry's, and each is an
    array of a leaf or was built by the run. -/
structure OwnsArrays (leaves : List KnowledgeEntryBase) (start : Nat) (run : MergeRun) : Prop where
  apart : ∀ e ∈ run.absorbed, List.Disjoint (arrayAddresses run.survivor) (arrayAddresses e)
  origin : ∀ e ∈ run.survivor :: run.absorbed, ∀ address ∈ arrayAddresses e,
    (∃ leaf ∈ leaves, address ∈ arrayAddresses leaf) ∨ start ≤ address ∧ address < run.next
  later : start ≤ run.next

/-- The leaves' arrays are below the next free address. -/
def ArraysBelow (leaves : List KnowledgeEntryBase) (next : Nat) : Prop :=
  ∀ leaf ∈ leaves, ∀ address ∈ arrayAddresses leaf, address < next

/-- No two leaves have an array in common. -/
def ArraysApart (leaves : List KnowledgeEntryBase) : Prop :=
  leaves.Pairwise fun a b => List.Disjoint (arrayAddresses a) (arrayAddresses b)

/-- Two runs after one another, over leaves apart, have no array in common. -/
theorem OwnsArrays.disjoint {leaves leaves' : List KnowledgeEntryBase} {start : Nat}
    {run run' : MergeRun} (h : OwnsArrays leaves start run) (h' : OwnsArrays leaves' run.next run')
    (hbelow : ArraysBelow leaves start) (hbelow' : ArraysBelow leaves' start)
    (hapart : ∀ a ∈ leaves, ∀ b ∈ leaves', List.Disjoint (arrayAddresses a) (arrayAddresses b))
    {e e' : KnowledgeEntryBase} (he : e ∈ run.survivor :: run.absorbed)
    (he' : e' ∈ run'.survivor :: run'.absorbed) :
    List.Disjoint (arrayAddresses e) (arrayAddresses e') := by
  intro address hmem hmem'
  have hlater := h.later
  rcases h.origin e he address hmem with ⟨leaf, hleaf, hin⟩ | ⟨hlow, hhigh⟩
  · have hold := hbelow leaf hleaf address hin
    rcases h'.origin e' he' address hmem' with ⟨leaf', hleaf', hin'⟩ | ⟨hlow', -⟩
    · exact hapart leaf hleaf leaf' hleaf' hin hin'
    · omega
  · rcases h'.origin e' he' address hmem' with ⟨leaf', hleaf', hin'⟩ | ⟨hlow', -⟩
    · have hold := hbelow' leaf' hleaf' address hin'
      omega
    · omega

theorem ownsArrays_run (hbelow : ArraysBelow tree.leaves next) (hapart : ArraysApart tree.leaves) :
    OwnsArrays tree.leaves next (tree.run host next) := by
  induction tree generalizing next with
  | entry e =>
    refine ⟨fun e he => absurd he List.not_mem_nil, fun e' he' address haddress => ?_,
      Nat.le_refl _⟩
    rw [List.mem_singleton.mp he'] at haddress
    exact Or.inl ⟨e, List.mem_singleton_self _, haddress⟩
  | merge target src iht ihs =>
    obtain ⟨hapartT, hapartS, hcross⟩ := List.pairwise_append.mp hapart
    have hbelowT : ArraysBelow target.leaves next := fun leaf hleaf =>
      hbelow leaf (List.mem_append_left _ hleaf)
    have hbelowS : ArraysBelow src.leaves next := fun leaf hleaf =>
      hbelow leaf (List.mem_append_right _ hleaf)
    have ht := iht next hbelowT hapartT
    obtain ⟨t, hrunT⟩ : ∃ t, target.run host next = t := ⟨_, rfl⟩
    rw [hrunT] at ht
    have hlaterT := ht.later
    have hs := ihs t.next (fun leaf hleaf address haddress =>
      Nat.lt_of_lt_of_le (hbelowS leaf hleaf address haddress) hlaterT) hapartS
    obtain ⟨s, hrunS⟩ : ∃ s, src.run host t.next = s := ⟨_, rfl⟩
    rw [hrunS] at hs
    have hlaterS := hs.later
    have hdisjoint := fun {e e'} => @OwnsArrays.disjoint _ _ _ _ _ ht hs hbelowT hbelowS hcross e e'
    rw [MergeTree.run, hrunT, hrunS, MergeTree.leaves]
    -- what the old entries have is below the addresses of this merge
    have hold : ∀ e, e ∈ t.survivor :: t.absorbed ∨ e ∈ s.survivor :: s.absorbed →
        ∀ address ∈ arrayAddresses e,
          (∃ leaf ∈ target.leaves ++ src.leaves, address ∈ arrayAddresses leaf)
            ∨ next ≤ address ∧ address < s.next := by
      intro e he address haddress
      rcases he with he | he
      · rcases ht.origin e he address haddress with ⟨leaf, hleaf, hin⟩ | hbuilt
        · exact Or.inl ⟨leaf, List.mem_append_left _ hleaf, hin⟩
        · exact Or.inr ⟨hbuilt.1, by omega⟩
      · rcases hs.origin e he address haddress with ⟨leaf, hleaf, hin⟩ | hbuilt
        · exact Or.inl ⟨leaf, List.mem_append_right _ hleaf, hin⟩
        · exact Or.inr ⟨by omega, hbuilt.2⟩
    have hbelowNew : ∀ e, e ∈ t.survivor :: t.absorbed ∨ e ∈ s.survivor :: s.absorbed →
        ∀ address ∈ arrayAddresses e, address < s.next := by
      intro e he address haddress
      rcases hold e he address haddress with ⟨leaf, hleaf, hin⟩ | hbuilt
      · have hleafBelow := hbelow leaf hleaf address hin
        omega
      · exact hbuilt.2
    have habsorbed : ∀ e ∈ t.absorbed ++ s.absorbed ++ [s.survivor],
        e ∈ t.absorbed ∨ e ∈ s.survivor :: s.absorbed := by
      intro e he
      rcases List.mem_append.mp he with hfront | hlast
      · rcases List.mem_append.mp hfront with hin | hin
        · exact Or.inl hin
        · exact Or.inr (List.mem_cons_of_mem _ hin)
      · rw [List.mem_singleton.mp hlast]
        exact Or.inr List.mem_cons_self
    have hlater : next ≤ s.next + arraysPerMerge := by omega
    refine ⟨fun e he address hmem hmem' => ?_, fun e he address haddress => ?_, hlater⟩
    · rcases mem_arrayAddresses_merge host hmem with hkept | hfresh
      · rcases habsorbed e he with hin | hin
        · exact ht.apart e hin hkept hmem'
        · exact hdisjoint List.mem_cons_self hin hkept hmem'
      · have hlow := hfresh.1
        have hhigh := hbelowNew e ((habsorbed e he).imp_left (List.mem_cons_of_mem _)) address hmem'
        omega
    · have hwiden : ∀ e, e ∈ t.survivor :: t.absorbed ∨ e ∈ s.survivor :: s.absorbed →
          address ∈ arrayAddresses e →
          (∃ leaf ∈ target.leaves ++ src.leaves, address ∈ arrayAddresses leaf)
            ∨ next ≤ address ∧ address < s.next + arraysPerMerge := fun e he haddress =>
        (hold e he address haddress).imp_right fun h => ⟨h.1, by omega⟩
      rcases List.mem_cons.mp he with rfl | habs
      · rcases mem_arrayAddresses_merge host haddress with hkept | hfresh
        · exact hwiden t.survivor (Or.inl List.mem_cons_self) hkept
        · exact Or.inr ⟨by have := hfresh.1; omega, hfresh.2⟩
      · exact hwiden e ((habsorbed e habs).imp_left (List.mem_cons_of_mem _)) haddress

end Trees

/-! ## What a tree of merges keeps -/

/-- The survivor of a tree has everything of its entries. -/
structure KeepsEverything (leaves : List KnowledgeEntryBase) (run : MergeRun) : Prop where
  provenance : ∀ e ∈ leaves, e.id ≠ run.survivor.id → e.id ∈ mergedFromIds run.survivor
  counters : ∀ k, entryCounter k run.survivor = (leaves.map (entryCounter k)).sum
  confirmed : ∀ key, (confirmationKeys run.survivor).count key
    = if ∃ e ∈ leaves, key ∈ confirmationKeys e then 1 else 0
  sourceRefs : ∀ ref, ref ∈ entrySourceRefs run.survivor ↔ ∃ e ∈ leaves, ref ∈ entrySourceRefs e
  arrays : ∀ e ∈ run.absorbed, List.Disjoint (arrayAddresses run.survivor) (arrayAddresses e)

/-- The condition: what the root does not take in itself it already lists, and the
    confirmations that come first repeat no key. -/
structure CarriesThrough (tree : MergeTree) : Prop where
  provenance : ∀ e ∈ tree.leaves, e.id ≠ tree.root.id →
    e.id ∈ mergedFromIds tree.root ∨ ∃ d ∈ tree.direct, d.id = e.id
  confirmed : ((tree.firstConfirmed.getD []).map confirmationKey).Nodup

/-- Each key is there once exactly when the first list repeats none. -/
theorem confirmed_run_iff (host : EntryHost) (tree : MergeTree) (next : Nat) :
    (∀ key, (confirmationKeys (tree.run host next).survivor).count key
        = if ∃ e ∈ tree.leaves, key ∈ confirmationKeys e then 1 else 0)
      ↔ ((tree.firstConfirmed.getD []).map confirmationKey).Nodup := by
  rw [← nodup_confirmationKeys_run host tree next]
  constructor
  · intro h
    rw [List.nodup_iff_count_le_one]
    intro key
    rw [h]
    split <;> omega
  · intro hnodup key
    split
    · next hthere =>
      exact List.count_eq_one_of_mem hnodup
        ((mem_confirmationKeys_run host tree next key).mpr hthere)
    · next hnone =>
      exact List.count_eq_zero.mpr fun hmem =>
        hnone ((mem_confirmationKeys_run host tree next key).mp hmem)

/-- A tree of merges keeps everything exactly when the condition holds. -/
theorem keepsEverything_run_iff (host : EntryHost) {tree : MergeTree} {next : Nat}
    (hbelow : ArraysBelow tree.leaves next) (hapart : ArraysApart tree.leaves) :
    KeepsEverything tree.leaves (tree.run host next) ↔ CarriesThrough tree := by
  constructor
  · intro h
    refine ⟨fun e he hne => ?_, (confirmed_run_iff host tree next).mp h.confirmed⟩
    apply (mem_mergedFromIds_run host tree next e.id).mp
    apply h.provenance e he
    rwa [run_id]
  · intro h
    refine ⟨fun e he hne => ?_, fun k => entryCounter_run host tree next k,
      (confirmed_run_iff host tree next).mpr h.confirmed,
      fun ref => mem_entrySourceRefs_run host tree next ref,
      (ownsArrays_run host tree next hbelow hapart).apart⟩
    apply (mem_mergedFromIds_run host tree next e.id).mpr
    apply h.provenance e he
    rwa [run_id] at hne

/-! ### An entry absorbed twice removed -/

/-- An entry confirmed once, with its list at `address`. -/
def confirmedEntry (id : JsString) (address : Nat) (phase : Int) : KnowledgeEntryBase where
  id := id
  lesson := js "pin the toolchain"
  confirmedBy := some ⟨address, [.record (some phase) (some (js "app")) none []]⟩
  arrays := fun _ => none
  directivePriority := none
  retrievalOutcomes := none
  confidence := 1 / 2
  createdAt := none
  updatedAt := none
  contentHash := none
  revision := none

def plainEntryHost : EntryHost := ⟨id, id⟩

/-- `a` takes in `b`. -/
def pairTree : MergeTree :=
  .merge (.entry (confirmedEntry (js "a") 0 1)) (.entry (confirmedEntry (js "b") 1 2))

/-- `c` takes in the survivor of `a` and `b`. -/
def chainTree : MergeTree := .merge (.entry (confirmedEntry (js "c") 2 3)) pairTree

theorem arrayAddresses_confirmedEntry (id : JsString) (address : Nat) (phase : Int) :
    arrayAddresses (confirmedEntry id address phase) = [address] := rfl

theorem arraysBelow_pairTree : ArraysBelow pairTree.leaves 2 := by
  intro leaf hleaf address haddress
  have hleaves : pairTree.leaves
      = [confirmedEntry (js "a") 0 1, confirmedEntry (js "b") 1 2] := rfl
  rw [hleaves] at hleaf
  simp only [List.mem_cons, List.not_mem_nil, or_false] at hleaf
  rcases hleaf with rfl | rfl <;>
    (rw [arrayAddresses_confirmedEntry, List.mem_singleton] at haddress; omega)

theorem arraysApart_pairTree : ArraysApart pairTree.leaves := by
  refine List.pairwise_pair.mpr fun address ha hb => ?_
  rw [arrayAddresses_confirmedEntry, List.mem_singleton] at ha hb
  omega

/-- One merge keeps everything. -/
theorem keepsEverything_pairTree :
    KeepsEverything pairTree.leaves (pairTree.run plainEntryHost 2) := by
  refine (keepsEverything_run_iff plainEntryHost arraysBelow_pairTree arraysApart_pairTree).mpr
    ⟨fun e he hne => ?_, List.nodup_singleton _⟩
  have hleaves : pairTree.leaves
      = [confirmedEntry (js "a") 0 1, confirmedEntry (js "b") 1 2] := rfl
  rw [hleaves] at he
  simp only [List.mem_cons, List.not_mem_nil, or_false] at he
  rcases he with rfl | rfl
  · exact absurd rfl hne
  · exact Or.inr ⟨_, List.mem_singleton_self _, rfl⟩

/-- After a second one, `c` does not say that it came from `b`. -/
theorem not_keepsEverything_chainTree :
    (chainTree.leaves.map KnowledgeEntryBase.id).Nodup ∧
      ¬ KeepsEverything chainTree.leaves (chainTree.run plainEntryHost 3) := by
  refine ⟨by decide, fun hkept => ?_⟩
  have hb : confirmedEntry (js "b") 1 2 ∈ chainTree.leaves :=
    List.mem_append_right _ (List.mem_append_right _ (List.mem_singleton_self _))
  have hid : (confirmedEntry (js "b") 1 2).id
      ≠ (chainTree.run plainEntryHost 3).survivor.id := by
    show js "b" ≠ js "c"
    decide
  have hmerged := (mem_mergedFromIds_run plainEntryHost chainTree 3 _).mp
    (hkept.provenance _ hb hid)
  rcases hmerged with hold | ⟨e, he, heq⟩
  · cases hold
  · rw [List.mem_singleton.mp he] at heq
    exact absurd heq (by decide)

end OpencodeSwarm
