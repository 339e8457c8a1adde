/-
  OpencodeSwarm.Memory.NewestRows

  What the loaders make of a file: the newest row of an identity decides, and a
  memory is loaded when that row and what it materializes to pass the rules.
-/
import OpencodeSwarm.Memory.CuratorDecision

namespace OpencodeSwarm

open Js JsonLines

/-! ## The newest value of an identity -/

section Newest

variable {α β : Type*} {idOf : α → JsString} {check : α → Option β}

/-- The newest value with an identity. -/
def newestValue (idOf : α → JsString) (values : List α) (id : JsString) : Option α :=
  values.reverse.find? fun value => idOf value = id

theorem newestValue_concat (values : List α) (value : α) (id : JsString) :
    newestValue idOf (values ++ [value]) id
      = if idOf value = id then some value else newestValue idOf values id := by
  unfold newestValue
  by_cases h : idOf value = id <;> simp [h]

variable {values : List α} {id : JsString} {value : α}

theorem idOf_of_newestValue (h : newestValue idOf values id = some value) : idOf value = id :=
  of_decide_eq_true (@List.find?_some _ (fun value => decide (idOf value = id)) value
    values.reverse h)

theorem mem_of_newestValue (h : newestValue idOf values id = some value) : value ∈ values :=
  List.mem_reverse.mp (List.mem_of_find?_eq_some h)

/-- What passes has an identity. -/
def PassesWithId (idOf : α → JsString) (check : α → Option β) : Prop :=
  ∀ value passed, check value = some passed → idOf value ≠ []

variable {passed : β}

theorem mem_newestFirst (hid : PassesWithId idOf check) {seen : List JsString} :
    passed ∈ newestFirst idOf check values seen ↔
      ∃ value, (values.find? fun other => idOf other = idOf value) = some value
        ∧ idOf value ∉ seen ∧ check value = some passed := by
  induction values generalizing seen with
  | nil =>
    unfold newestFirst
    simp
  | cons first older ih =>
    unfold newestFirst
    by_cases hseen : idOf first ∈ seen
    · rw [if_pos hseen, ih]
      constructor
      · rintro ⟨value, hfind, hnew, hcheck⟩
        have hne : idOf first ≠ idOf value := fun heq => hnew (heq ▸ hseen)
        exact ⟨value, by rw [List.find?_cons_of_neg (by simpa using hne), hfind], hnew, hcheck⟩
      · rintro ⟨value, hfind, hnew, hcheck⟩
        have hne : idOf first ≠ idOf value := fun heq => hnew (heq ▸ hseen)
        rw [List.find?_cons_of_neg (by simpa using hne)] at hfind
        exact ⟨value, hfind, hnew, hcheck⟩
    · rw [if_neg hseen, List.mem_append, Option.mem_toList, ih]
      constructor
      · rintro (hfirst | ⟨value, hfind, hnew, hcheck⟩)
        · exact ⟨first, by rw [List.find?_cons_of_pos (by simp)], hseen, hfirst⟩
        · have hvalue := hid value passed hcheck
          have hnotSeen : idOf value ∉ seen ∧ idOf first ≠ idOf value := by
            split at hnew
            · rename_i hempty
              exact ⟨hnew, fun heq => hvalue (heq.symm.trans hempty)⟩
            · rw [List.mem_cons, not_or] at hnew
              exact ⟨hnew.2, fun heq => hnew.1 heq.symm⟩
          exact ⟨value, by rw [List.find?_cons_of_neg (by simpa using hnotSeen.2), hfind],
            hnotSeen.1, hcheck⟩
      · rintro ⟨value, hfind, hnew, hcheck⟩
        by_cases hsame : idOf first = idOf value
        · rw [List.find?_cons_of_pos (by simpa using hsame)] at hfind
          cases hfind
          exact Or.inl hcheck
        · rw [List.find?_cons_of_neg (by simpa using hsame)] at hfind
          refine Or.inr ⟨value, hfind, ?_, hcheck⟩
          split
          · exact hnew
          rw [List.mem_cons, not_or]
          exact ⟨fun heq => hsame heq.symm, hnew⟩

/-- A row is taken exactly when it is the newest of its identity and passes. -/
theorem mem_newestPassing (hid : PassesWithId idOf check) :
    passed ∈ newestPassing idOf check values ↔
      ∃ value, newestValue idOf values (idOf value) = some value ∧ check value = some passed := by
  unfold newestPassing newestValue
  rw [List.mem_reverse, mem_newestFirst hid]
  constructor
  · rintro ⟨value, hfind, -, hcheck⟩
    exact ⟨value, hfind, hcheck⟩
  · rintro ⟨value, hfind, hcheck⟩
    exact ⟨value, hfind, List.not_mem_nil, hcheck⟩

variable {idOf' : β → JsString}

theorem nodup_newestFirst
    (hkeep : ∀ value passed, check value = some passed → idOf' passed = idOf value)
    (hid : PassesWithId idOf check) (values : List α) (seen : List JsString) :
    ((newestFirst idOf check values seen).map idOf').Nodup := by
  induction values generalizing seen with
  | nil => exact List.nodup_nil
  | cons first older ih =>
    unfold newestFirst
    split
    · exact ih seen
    cases hcheck : check first with
    | none => exact ih _
    | some passed =>
      rw [Option.toList_some, List.singleton_append, List.map_cons, List.nodup_cons]
      refine ⟨?_, ih _⟩
      intro hmem
      obtain ⟨other, hother, hsame⟩ := List.mem_map.mp hmem
      obtain ⟨value, -, hnew, hvalue⟩ := (mem_newestFirst hid).mp hother
      rw [if_neg (hid first passed hcheck), List.mem_cons, not_or] at hnew
      refine hnew.1 ?_
      rw [← hkeep value other hvalue, hsame, hkeep first passed hcheck]

/-- No identity is taken twice. -/
theorem nodup_newestPassing
    (hkeep : ∀ value passed, check value = some passed → idOf' passed = idOf value)
    (hid : PassesWithId idOf check) (values : List α) :
    ((newestPassing idOf check values).map idOf').Nodup := by
  rw [newestPassing, List.map_reverse, List.nodup_reverse]
  exact nodup_newestFirst hkeep hid _ _

end Newest

/-! ## Loaded memories -/

theorem materializeOutcomeRecord_id (base : MemoryRecord) (events : List MemoryOutcomeEvent) :
    (materializeOutcomeRecord base events).id = base.id := by
  unfold materializeOutcomeRecord
  split <;> rfl

variable {key : JsString}

/-- Materializing touches no other key of the metadata. -/
theorem get?_metadata_materialize (base : MemoryRecord) (events : List MemoryOutcomeEvent)
    (hkey : key ≠ js "outcomeEventIds") :
    OrderedMap.get? (materializeOutcomeRecord base events).metadata key
      = OrderedMap.get? base.metadata key := by
  unfold materializeOutcomeRecord
  split
  · rfl
  · rfl
  · dsimp only
    split
    · rw [OrderedMap.get?_erase, if_neg hkey]
    · rw [OrderedMap.get?_set, if_neg hkey]

theorem get?_metadata_strip (record : MemoryRecord) (hkey : key ≠ js "outcomeEventIds") :
    OrderedMap.get? (stripMaterializedOutcomes record).metadata key
      = OrderedMap.get? record.metadata key := by
  rw [stripMaterializedOutcomes, OrderedMap.get?_erase, if_neg hkey]

theorem materializeOutcomeRecord_deleted (base : MemoryRecord) (events : List MemoryOutcomeEvent) :
    (materializeOutcomeRecord base events).deleted = base.deleted := by
  unfold MemoryRecord.deleted
  rw [get?_metadata_materialize base events (by decide)]

theorem stripMaterializedOutcomes_deleted (record : MemoryRecord) :
    (stripMaterializedOutcomes record).deleted = record.deleted := by
  unfold MemoryRecord.deleted
  rw [get?_metadata_strip record (by decide)]

theorem validateMemoryRecordRules_id {host : MemoryHost} {rejectDurableSecrets : Bool}
    {record : MemoryRecord} (h : validateMemoryRecordRules host rejectDurableSecrets record = true) :
    record.id ≠ [] := by
  unfold validateMemoryRecordRules memoryBodyRules at h
  simp only [Bool.and_eq_true, beq_iff_eq] at h
  have hid := h.1.1.1.2.1.1.1.1.2
  rw [hid]
  intro hnil
  have hstart := (List.append_eq_nil_iff.mp hnil).1
  cases hstart

section Loading

variable {host : MemoryHost} {codecs : MemoryCodecs} {config : MemoryConfig} {record : MemoryRecord}

theorem checkRow_eq_some {row : MemoryRow} :
    checkRow host config row = some record ↔ row = .record record
      ∧ validateMemoryRecordRules host config.rejectDurableSecrets record = true := by
  unfold checkRow
  cases row with
  | record stored =>
    dsimp only
    constructor
    · intro h
      split at h
      · cases h
        exact ⟨rfl, by assumption⟩
      · cases h
    · rintro ⟨heq, hvalid⟩
      cases heq
      exact if_pos hvalid
  | other id =>
    constructor
    · intro h
      cases h
    · rintro ⟨heq, -⟩
      cases heq

variable {events : List MemoryOutcomeEvent} {base : MemoryRecord}

theorem checkMaterialized_eq_some : checkMaterialized host config events base = some record ↔
      record = materializeOutcomeRecord base events
        ∧ validateMemoryRecordRules host config.rejectDurableSecrets record = true := by
  dsimp only [checkMaterialized]
  constructor
  · intro h
    split at h
    · cases h
      exact ⟨rfl, by assumption⟩
    · cases h
  · rintro ⟨rfl, hvalid⟩
    exact if_pos hvalid

theorem passesWithId_checkRow : PassesWithId MemoryRow.candidateId (checkRow host config) := by
  intro row passed hpassed
  obtain ⟨rfl, hvalid⟩ := checkRow_eq_some.mp hpassed
  exact validateMemoryRecordRules_id hvalid

theorem passesWithId_checkMaterialized (events : List MemoryOutcomeEvent) :
    PassesWithId MemoryRecord.id (checkMaterialized host config events) := by
  intro base passed hpassed
  obtain ⟨rfl, hvalid⟩ := checkMaterialized_eq_some.mp hpassed
  have hid := validateMemoryRecordRules_id hvalid
  rwa [materializeOutcomeRecord_id] at hid

theorem mem_validateLoadedMemories {values : List MemoryRow} :
    base ∈ validateLoadedMemories host config values ↔
      newestValue MemoryRow.candidateId values base.id = some (.record base)
        ∧ validateMemoryRecordRules host config.rejectDurableSecrets base = true := by
  rw [validateLoadedMemories, mem_newestPassing passesWithId_checkRow]
  constructor
  · rintro ⟨row, hnewest, hcheck⟩
    obtain ⟨rfl, hvalid⟩ := checkRow_eq_some.mp hcheck
    exact ⟨hnewest, hvalid⟩
  · rintro ⟨hnewest, hvalid⟩
    exact ⟨.record base, hnewest, checkRow_eq_some.mpr ⟨rfl, hvalid⟩⟩

theorem nodup_validateLoadedMemories (values : List MemoryRow) :
    ((validateLoadedMemories host config values).map MemoryRecord.id).Nodup := by
  refine nodup_newestPassing ?_ passesWithId_checkRow values
  intro row passed hpassed
  obtain ⟨rfl, -⟩ := checkRow_eq_some.mp hpassed
  rfl

theorem newestValue_of_mem {records : List MemoryRecord}
    (hnodup : (records.map MemoryRecord.id).Nodup) (h : base ∈ records) :
    newestValue MemoryRecord.id records base.id = some base := by
  have hmem : base ∈ records.reverse := List.mem_reverse.mpr h
  have hunique : (records.reverse.map MemoryRecord.id).Nodup := by
    rw [List.map_reverse, List.nodup_reverse]
    exact hnodup
  unfold newestValue
  generalize records.reverse = newest at hmem hunique
  induction newest with
  | nil => cases hmem
  | cons first rest ih =>
    obtain ⟨hfirst, hrest⟩ := List.nodup_cons.mp hunique
    rcases List.mem_cons.mp hmem with rfl | hlater
    · rw [List.find?_cons_of_pos (by simp)]
    · have hne : first.id ≠ base.id := fun heq => hfirst (heq ▸ List.mem_map_of_mem hlater)
      rw [List.find?_cons_of_neg (by simpa using hne)]
      exact ih hlater hrest

/-- A memory is loaded when its newest row and what it materializes to pass. -/
theorem mem_validateMaterializedMemories {values : List MemoryRow} :
    record ∈ validateMaterializedMemories host config
        (validateLoadedMemories host config values) events ↔
      ∃ base, newestValue MemoryRow.candidateId values base.id = some (.record base)
        ∧ validateMemoryRecordRules host config.rejectDurableSecrets base = true
        ∧ record = materializeOutcomeRecord base events
        ∧ validateMemoryRecordRules host config.rejectDurableSecrets record = true := by
  rw [validateMaterializedMemories, mem_newestPassing (passesWithId_checkMaterialized events)]
  constructor
  · rintro ⟨base, hnewest, hcheck⟩
    obtain ⟨hrecord, hvalid⟩ := checkMaterialized_eq_some.mp hcheck
    obtain ⟨hrow, hbase⟩ := mem_validateLoadedMemories.mp (mem_of_newestValue hnewest)
    exact ⟨base, hrow, hbase, hrecord, hvalid⟩
  · rintro ⟨base, hnewest, hbase, hrecord, hvalid⟩
    have hmem := mem_validateLoadedMemories.mpr ⟨hnewest, hbase⟩
    exact ⟨base, newestValue_of_mem (nodup_validateLoadedMemories values) hmem,
      checkMaterialized_eq_some.mpr ⟨hrecord, hvalid⟩⟩

variable {memories : List MemoryRecord}

theorem mem_of_refresh {files : MemoryFiles}
    (h : refreshMemoriesUnlocked host codecs config files = some (memories, events)) :
    readOutcomeEventsSync codecs files = some events
      ∧ memories = validateMaterializedMemories host config (validateLoadedMemories host config
          (readJsonl codecs.memories files.memories)) events := by
  obtain ⟨read, hread, heq⟩ := Option.map_eq_some_iff.mp h
  cases heq
  exact ⟨hread, rfl⟩

variable {id : JsString}

theorem id_of_getMemory (h : getMemory memories id = some record) : record.id = id :=
  of_decide_eq_true (@List.find?_some _ (fun record : MemoryRecord => decide (record.id = id))
    record memories h)

theorem mem_of_getMemory (h : getMemory memories id = some record) :
    record ∈ memories := List.mem_of_find?_eq_some h

end Loading

end OpencodeSwarm
