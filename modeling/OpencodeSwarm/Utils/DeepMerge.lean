/-
  OpencodeSwarm.Utils.DeepMerge

  `src/utils/merge.ts`: the merge of a configuration with its override, behind a
  scan for the keys that reach a prototype.  The scan looks at ten levels; the
  merge copies an override subtree whole wherever the base has no object, at
  whatever depth that subtree goes on.
-/
import OpencodeSwarm.Lib.OrderedMap
import OpencodeSwarm.Lib.Json
import OpencodeSwarm.Utils.PlainValue

namespace OpencodeSwarm

open Js

/-! ## The source -/

section Merge

variable {N : Type*}

abbrev PlainFields (N : Type*) := List (JsString × PlainValue N)

def maxMergeDepth : Nat := 10

def dangerousMergeKeys : List JsString := [js "__proto__", js "constructor", js "prototype"]

/-- What `deepMerge` throws. -/
inductive MergeError where
  | dangerousKey (key path : JsString)
  | exceededDepth
  deriving DecidableEq

mutual
def scanOverrideForDangerousKeys :
    PlainValue N → (path : JsString) → (depth : Nat) → Except MergeError Unit
  | .arr elems, path, depth =>
    if maxMergeDepth ≤ depth then .ok () else scanElems elems 0 path depth
  | .obj fields, path, depth =>
    if maxMergeDepth ≤ depth then .ok () else scanFields fields path depth
  | _, _, _ => .ok ()

def scanElems : List (PlainValue N) → (index : Nat) → (path : JsString) → (depth : Nat) →
    Except MergeError Unit
  | [], _, _, _ => .ok ()
  | v :: rest, index, path, depth =>
    match scanOverrideForDangerousKeys v (path ++ js "[" ++ decimal index ++ js "]") (depth + 1) with
    | .error e => .error e
    | .ok () => scanElems rest (index + 1) path depth

def scanFields : PlainFields N → (path : JsString) → (depth : Nat) → Except MergeError Unit
  | [], _, _ => .ok ()
  | (key, v) :: rest, path, depth =>
    if key ∈ dangerousMergeKeys then .error (.dangerousKey key path)
    else
      match scanOverrideForDangerousKeys v (path ++ js "." ++ key) (depth + 1) with
      | .error e => .error e
      | .ok () => scanFields rest path depth
end

mutual
/-- The loop over the keys of the override.  No key is `__proto__` here: the scan
    has been over every object the merge reaches.  What `base` inherits under
    another key is a function, which the test for an object refuses like nothing. -/
def mergeFields (base : PlainFields N) (depth : Nat) :
    (result override : PlainFields N) → Except MergeError (PlainFields N)
  | result, [] => .ok result
  | result, (key, overrideVal) :: rest =>
    match mergeValue (OrderedMap.get? base key) depth overrideVal with
    | .error e => .error e
    | .ok value => mergeFields base depth (OrderedMap.set result key value) rest

/-- The value of one key: two objects are merged one level down, anything else
    is the override's own value. -/
def mergeValue (baseVal : Option (PlainValue N)) (depth : Nat) :
    PlainValue N → Except MergeError (PlainValue N)
  | .obj override =>
    match baseVal with
    | some (.obj base) =>
      if maxMergeDepth ≤ depth + 1 then .error .exceededDepth
      else (mergeFields base (depth + 1) base override).map PlainValue.obj
    | _ => .ok (.obj override)
  | overrideVal => .ok overrideVal
end

def deepMergeInternal (base override : PlainFields N) (depth : Nat) :
    Except MergeError (PlainFields N) :=
  if maxMergeDepth ≤ depth then .error .exceededDepth else mergeFields base depth base override

theorem mergeValue_obj (base override : PlainFields N) (depth : Nat) :
    mergeValue (some (.obj base)) depth (.obj override)
      = (deepMergeInternal base override (depth + 1)).map PlainValue.obj := by
  rw [mergeValue, deepMergeInternal]
  split
  · rfl
  · rfl

def deepMerge (base override : Option (PlainFields N)) :
    Except MergeError (Option (PlainFields N)) :=
  match base, override with
  | none, override => .ok override
  | some base, none => .ok (some base)
  | some base, some override =>
    match scanOverrideForDangerousKeys (.obj override) (js "$") 0 with
    | .error e => .error e
    | .ok () => (deepMergeInternal base override 0).map some

end Merge

/-! ## Conditions on the two sides -/

/-- One of the keys is an own key of an object somewhere in the value. -/
inductive HasDangerousKey {N : Type*} : PlainValue N → Prop
  | own {fields : PlainFields N} {f : JsString × PlainValue N} (hf : f ∈ fields)
      (hkey : f.1 ∈ dangerousMergeKeys) : HasDangerousKey (.obj fields)
  | field {fields : PlainFields N} {f : JsString × PlainValue N} (hf : f ∈ fields)
      (hvalue : HasDangerousKey f.2) : HasDangerousKey (.obj fields)
  | elem {elems : List (PlainValue N)} {v : PlainValue N} (hv : v ∈ elems)
      (hvalue : HasDangerousKey v) : HasDangerousKey (.arr elems)

/-- One of the keys is an own key of an object on the first `levels` levels. -/
inductive DangerousWithin {N : Type*} : (levels : Nat) → PlainValue N → Prop
  | own {levels : Nat} {fields : PlainFields N} {f : JsString × PlainValue N} (hf : f ∈ fields)
      (hkey : f.1 ∈ dangerousMergeKeys) : DangerousWithin (levels + 1) (.obj fields)
  | field {levels : Nat} {fields : PlainFields N} {f : JsString × PlainValue N} (hf : f ∈ fields)
      (hvalue : DangerousWithin levels f.2) : DangerousWithin (levels + 1) (.obj fields)
  | elem {levels : Nat} {elems : List (PlainValue N)} {v : PlainValue N} (hv : v ∈ elems)
      (hvalue : DangerousWithin levels v) : DangerousWithin (levels + 1) (.arr elems)

/-- A chain of `length` keys that leads from object to object on both sides. -/
def SharedChain {N : Type*} : (length : Nat) → (base override : PlainFields N) → Prop
  | 0, _, _ => True
  | length + 1, base, override =>
    ∃ key base' override', OrderedMap.get? base key = some (.obj base') ∧
      (key, .obj override') ∈ override ∧ SharedChain length base' override'

/-- The merge throws, or returns a value without any of the keys. -/
def MergeKeepsKeysOut {N : Type*} (base override : PlainFields N) : Prop :=
  ∀ result, deepMerge (some base) (some override) = .ok (some result) →
    ¬ HasDangerousKey (.obj result)

/-! ## The scan -/

section Scan

variable {N : Type*}

theorem DangerousWithin.hasDangerousKey {levels : Nat} {v : PlainValue N}
    (h : DangerousWithin levels v) : HasDangerousKey v := by
  induction h with
  | own hf hkey => exact .own hf hkey
  | field hf _ ih => exact .field hf ih
  | elem hv _ ih => exact .elem hv ih

theorem scanElems_ok_iff (elems : List (PlainValue N)) (index : Nat) (path : JsString)
    (depth : Nat) (P : PlainValue N → Prop)
    (h : ∀ v ∈ elems, ∀ path, scanOverrideForDangerousKeys v path (depth + 1) = .ok () ↔ P v) :
    scanElems elems index path depth = .ok () ↔ ∀ v ∈ elems, P v := by
  induction elems generalizing index with
  | nil => simp [scanElems]
  | cons v rest ih =>
    have hv := h v List.mem_cons_self (path ++ js "[" ++ decimal index ++ js "]")
    have hrest := ih (index + 1) fun w hw => h w (List.mem_cons_of_mem _ hw)
    rw [List.forall_mem_cons, ← hv, ← hrest, scanElems]
    split
    · next e he =>
      rw [he]
      simp
    · next he =>
      rw [he]
      simp

theorem scanFields_ok_iff (fields : PlainFields N) (path : JsString) (depth : Nat)
    (P : PlainValue N → Prop)
    (h : ∀ f ∈ fields, ∀ path, scanOverrideForDangerousKeys f.2 path (depth + 1) = .ok () ↔ P f.2) :
    scanFields fields path depth = .ok () ↔ ∀ f ∈ fields, f.1 ∉ dangerousMergeKeys ∧ P f.2 := by
  induction fields with
  | nil => simp [scanFields]
  | cons f rest ih =>
    obtain ⟨key, v⟩ := f
    have hv := h (key, v) List.mem_cons_self (path ++ js "." ++ key)
    have hrest := ih fun g hg => h g (List.mem_cons_of_mem _ hg)
    rw [List.forall_mem_cons, ← hv, ← hrest, scanFields]
    by_cases hkey : key ∈ dangerousMergeKeys
    · simp [hkey]
    rw [if_neg hkey]
    split
    · next e he =>
      rw [he]
      simp
    · next he =>
      rw [he]
      simp [hkey]

/-- The scan passes exactly the values that are clean on the levels it looks at. -/
theorem scanOverrideForDangerousKeys_ok_iff (v : PlainValue N) (path : JsString) (depth : Nat) :
    scanOverrideForDangerousKeys v path depth = .ok ()
      ↔ ¬ DangerousWithin (maxMergeDepth - depth) v := by
  induction v using PlainValue.treeInduction generalizing path depth with
  | arr elems ih =>
    rw [scanOverrideForDangerousKeys]
    split
    · next hdepth =>
      rw [Nat.sub_eq_zero_of_le hdepth]
      exact iff_of_true rfl fun h => by cases h
    · next hdepth =>
      obtain ⟨levels, hlevels⟩ : ∃ levels, maxMergeDepth - depth = levels + 1 :=
        ⟨maxMergeDepth - depth - 1, by omega⟩
      have hbelow : maxMergeDepth - (depth + 1) = levels := by omega
      rw [scanElems_ok_iff elems 0 path depth (fun v => ¬ DangerousWithin levels v)
        (fun v hv path => by rw [ih v hv path (depth + 1), hbelow]), hlevels]
      constructor
      · rintro hclean h
        cases h with
        | elem hv hvalue => exact hclean _ hv hvalue
      · exact fun hclean v hv hvalue => hclean (.elem hv hvalue)
  | obj fields ih =>
    rw [scanOverrideForDangerousKeys]
    split
    · next hdepth =>
      rw [Nat.sub_eq_zero_of_le hdepth]
      exact iff_of_true rfl fun h => by cases h
    · next hdepth =>
      obtain ⟨levels, hlevels⟩ : ∃ levels, maxMergeDepth - depth = levels + 1 :=
        ⟨maxMergeDepth - depth - 1, by omega⟩
      have hbelow : maxMergeDepth - (depth + 1) = levels := by omega
      rw [scanFields_ok_iff fields path depth (fun v => ¬ DangerousWithin levels v)
        (fun f hf path => by rw [ih f hf path (depth + 1), hbelow]), hlevels]
      constructor
      · rintro hclean h
        cases h with
        | own hf hkey => exact (hclean _ hf).1 hkey
        | field hf hvalue => exact (hclean _ hf).2 hvalue
      · exact fun hclean f hf =>
          ⟨fun hkey => hclean (.own hf hkey), fun hvalue => hclean (.field hf hvalue)⟩
  | undefined | null | bool b | num n | str s =>
    exact iff_of_true rfl fun h => by cases h.hasDangerousKey

end Scan

/-! ## The merge -/

section MergeFacts

variable {N : Type*} {depth : Nat} {base result merged : PlainFields N}
  {f : JsString × PlainValue N}

theorem mergeFields_cons_ok {rest : PlainFields N}
    (h : mergeFields base depth result (f :: rest) = .ok merged) :
    ∃ value, mergeValue (OrderedMap.get? base f.1) depth f.2 = .ok value ∧
      mergeFields base depth (OrderedMap.set result f.1 value) rest = .ok merged := by
  rw [mergeFields] at h
  split at h
  · cases h
  · next value hvalue => exact ⟨value, hvalue, h⟩

variable {override : PlainFields N}

theorem get?_mergeFields_of_notMem (h : mergeFields base depth result override = .ok merged)
    {key : JsString} (hkey : key ∉ override.map Prod.fst) :
    OrderedMap.get? merged key = OrderedMap.get? result key := by
  induction override generalizing result with
  | nil =>
    cases h
    rfl
  | cons f rest ih =>
    obtain ⟨value, -, hrest⟩ := mergeFields_cons_ok h
    rw [List.map_cons, List.mem_cons, not_or] at hkey
    rw [ih hrest hkey.2, OrderedMap.get?_set, if_neg hkey.1]

theorem get?_mergeFields_of_mem (hkeys : (override.map Prod.fst).Nodup)
    (h : mergeFields base depth result override = .ok merged) (hf : f ∈ override) :
    ∃ value, mergeValue (OrderedMap.get? base f.1) depth f.2 = .ok value ∧
      OrderedMap.get? merged f.1 = some value := by
  induction override generalizing result with
  | nil => cases hf
  | cons first rest ih =>
    obtain ⟨value, hvalue, hrest⟩ := mergeFields_cons_ok h
    rw [List.map_cons, List.nodup_cons] at hkeys
    rcases List.mem_cons.mp hf with rfl | htail
    · refine ⟨value, hvalue, ?_⟩
      rw [get?_mergeFields_of_notMem hrest hkeys.1, OrderedMap.get?_set, if_pos rfl]
    · exact ih hkeys.2 hrest htail

/-- A property of the result comes from one side, or is a merged one. -/
theorem mem_mergeFields (h : mergeFields base depth result override = .ok merged)
    {g : JsString × PlainValue N} (hg : g ∈ merged) : g ∈ result ∨ ∃ f ∈ override, f.1 = g.1 ∧
      mergeValue (OrderedMap.get? base f.1) depth f.2 = .ok g.2 := by
  induction override generalizing result with
  | nil =>
    cases h
    exact Or.inl hg
  | cons first rest ih =>
    obtain ⟨value, hvalue, hrest⟩ := mergeFields_cons_ok h
    rcases ih hrest with hresult | ⟨f, hf, hkey, hmerge⟩
    · rcases OrderedMap.mem_set hresult with rfl | hold
      · exact Or.inr ⟨first, List.mem_cons_self, rfl, hvalue⟩
      · exact Or.inl hold
    · exact Or.inr ⟨f, List.mem_cons_of_mem _ hf, hkey, hmerge⟩

theorem exists_of_map_ok {ε α β : Type*} {f : α → β} {x : Except ε α} {b : β}
    (h : x.map f = .ok b) : ∃ a, x = .ok a ∧ f a = b := by
  cases x with
  | error e => cases h
  | ok a => exact ⟨a, rfl, Except.ok.inj h⟩

variable {baseVal : Option (PlainValue N)} {v : PlainValue N}

/-- A value is merged one level down, or it is the override's own. -/
theorem mergeValue_cases {value : PlainValue N} (h : mergeValue baseVal depth v = .ok value) :
    value = v ∨ ∃ base override merged, baseVal = some (.obj base) ∧ v = .obj override ∧
      value = .obj merged ∧ depth + 1 < maxMergeDepth ∧
      mergeFields base (depth + 1) base override = .ok merged := by
  unfold mergeValue at h
  split at h
  · next override =>
    split at h
    · next base =>
      split at h
      · cases h
      rename_i hdepth
      obtain ⟨merged, hmerged, rfl⟩ := exists_of_map_ok h
      exact Or.inr ⟨base, override, merged, rfl, rfl, rfl, by omega, hmerged⟩
    · cases h
      exact Or.inl rfl
  · cases h
    exact Or.inl rfl

theorem mergeValue_of_not_objects
    (h : ¬ ∃ base override, baseVal = some (.obj base) ∧ v = .obj override) (depth : Nat) :
    mergeValue baseVal depth v = .ok v := by
  unfold mergeValue
  split
  · next override =>
    split
    · next base => exact absurd ⟨base, override, rfl, rfl⟩ h
    · rfl
  · rfl

/-- A merged object has only keys of the two sides, when its merged values do. -/
theorem not_hasDangerousKey_mergeFields (hbase : ¬ HasDangerousKey (.obj base))
    (hfree : ¬ HasDangerousKey (.obj override))
    (hvalues : ∀ f ∈ override, ∀ {value}, ¬ HasDangerousKey f.2 →
      (∀ w ∈ OrderedMap.get? base f.1, ¬ HasDangerousKey w) →
      mergeValue (OrderedMap.get? base f.1) depth f.2 = .ok value → ¬ HasDangerousKey value)
    (h : mergeFields base depth base override = .ok merged) : ¬ HasDangerousKey (.obj merged) := by
  intro hdanger
  cases hdanger with
  | own hg hkey =>
    rcases mem_mergeFields h hg with hold | ⟨f, hf, heq, -⟩
    · exact hbase (.own hold hkey)
    · exact hfree (.own hf (heq ▸ hkey))
  | @field _ g hg hvalue =>
    rcases mem_mergeFields h hg with hold | ⟨f, hf, -, hmerge⟩
    · exact hbase (.field hold hvalue)
    · apply hvalues f hf (fun hdanger => hfree (.field hf hdanger)) ?_ hmerge hvalue
      intro w hw hdanger
      exact hbase (.field (OrderedMap.mem_of_get? hw) hdanger)

theorem not_hasDangerousKey_mergeValue (v : PlainValue N) :
    ∀ {baseVal : Option (PlainValue N)} {depth : Nat} {value : PlainValue N},
      ¬ HasDangerousKey v → (∀ w ∈ baseVal, ¬ HasDangerousKey w) →
      mergeValue baseVal depth v = .ok value → ¬ HasDangerousKey value := by
  induction v using PlainValue.treeInduction with
  | obj fields ih =>
    intro baseVal depth value hv hbase h
    rcases mergeValue_cases h with rfl | ⟨base, override, merged, rfl, hobj, rfl, -, hmerged⟩
    · exact hv
    · cases hobj
      exact not_hasDangerousKey_mergeFields (hbase _ rfl) hv (fun f hf => ih f hf) hmerged
  | _ =>
    intro baseVal depth value hv _ h
    rcases mergeValue_cases h with rfl | ⟨_, _, _, _, hobj, _⟩
    · exact hv
    · cases hobj

/-- A key that the scan does not reach is still there after the merge. -/
theorem hasDangerousKey_mergeValue (v : PlainValue N) :
    ∀ {baseVal : Option (PlainValue N)} {depth : Nat} {value : PlainValue N}, v.IsJson →
      ¬ DangerousWithin (maxMergeDepth - (depth + 1)) v → HasDangerousKey v →
      mergeValue baseVal depth v = .ok value → HasDangerousKey value := by
  induction v using PlainValue.treeInduction with
  | obj fields ih =>
    intro baseVal depth value hjson hclean hv h
    rcases mergeValue_cases h with rfl | ⟨base, override, merged, rfl, hobj, rfl, hdepth, hmerged⟩
    · exact hv
    cases hobj
    obtain ⟨levels, hlevels⟩ : ∃ levels, maxMergeDepth - (depth + 1) = levels + 1 :=
      ⟨maxMergeDepth - (depth + 1) - 1, by omega⟩
    rw [hlevels] at hclean
    cases hv with
    | own hf hkey => exact absurd (.own hf hkey) hclean
    | @field _ f hf hvalue =>
      -- the property is one of the merged object, and its subtree was as far from the scan
      obtain ⟨value, hmerge, hget⟩ := get?_mergeFields_of_mem hjson.nodup_keys hmerged hf
      have hbelow : maxMergeDepth - (depth + 1 + 1) = levels := by omega
      have hclean' : ¬ DangerousWithin (maxMergeDepth - (depth + 1 + 1)) f.2 := by
        rw [hbelow]
        exact fun hdanger => hclean (.field hf hdanger)
      exact .field (OrderedMap.mem_of_get? hget)
        (ih f hf (hjson.of_mem_obj hf) hclean' hvalue hmerge)
  | _ =>
    intro baseVal depth value _ _ hv h
    rcases mergeValue_cases h with rfl | ⟨_, _, _, _, hobj, _⟩
    · exact hv
    · cases hobj

/-! ### When the merge throws -/

theorem mergeFields_ok_iff : (∃ merged, mergeFields base depth result override = .ok merged)
      ↔ ∀ f ∈ override, ∃ value, mergeValue (OrderedMap.get? base f.1) depth f.2 = .ok value := by
  induction override generalizing result with
  | nil => simp [mergeFields]
  | cons f rest ih =>
    rw [List.forall_mem_cons]
    constructor
    · rintro ⟨merged, h⟩
      obtain ⟨value, hvalue, hrest⟩ := mergeFields_cons_ok h
      exact ⟨⟨value, hvalue⟩, ih.mp ⟨merged, hrest⟩⟩
    · rintro ⟨⟨value, hvalue⟩, hrest⟩
      obtain ⟨merged, hmerged⟩ := (@ih (OrderedMap.set result f.1 value)).mpr hrest
      refine ⟨merged, ?_⟩
      rw [mergeFields, hvalue]
      exact hmerged

theorem mergeFields_error {e : MergeError} (hvalues : ∀ f ∈ override, ∀ {baseVal e},
      mergeValue baseVal depth f.2 = .error e → e = .exceededDepth)
    (h : mergeFields base depth result override = .error e) : e = .exceededDepth := by
  induction override generalizing result with
  | nil => cases h
  | cons f rest ih =>
    rw [mergeFields] at h
    split at h
    · next e' hvalue =>
      cases h
      exact hvalues f List.mem_cons_self hvalue
    · exact ih (fun g hg => hvalues g (List.mem_cons_of_mem _ hg)) h

/-- The bound is all the merge itself throws for. -/
theorem mergeValue_error (v : PlainValue N) : ∀ {depth : Nat} {baseVal : Option (PlainValue N)}
    {e : MergeError}, mergeValue baseVal depth v = .error e → e = .exceededDepth := by
  induction v using PlainValue.treeInduction with
  | obj fields ih =>
    intro depth baseVal e h
    by_cases hobjects : ∃ base override, baseVal = some (.obj base)
        ∧ PlainValue.obj fields = .obj override
    · obtain ⟨base, _, rfl, -⟩ := hobjects
      rw [mergeValue] at h
      split at h
      · exact (Except.error.inj h).symm
      cases hfields : mergeFields base (depth + 1) base fields with
      | ok merged =>
        rw [hfields] at h
        cases h
      | error e' =>
        rw [hfields] at h
        cases h
        exact mergeFields_error (fun f hf => ih f hf) hfields
    · rw [mergeValue_of_not_objects hobjects] at h
      cases h
  | _ =>
    intro depth baseVal e h
    cases h

/-- The merge returns unless both sides go on together to the bound. -/
theorem deepMergeInternal_ok_iff (override : PlainFields N) (base : PlainFields N) (depth : Nat) :
    (∃ merged, deepMergeInternal base override depth = .ok merged)
      ↔ ¬ SharedChain (maxMergeDepth - depth) base override := by
  -- by induction on the distance to the bound
  obtain ⟨length, hlength⟩ : ∃ length, maxMergeDepth - depth = length := ⟨_, rfl⟩
  rw [hlength]
  induction length generalizing override base depth with
  | zero =>
    have hdepth : maxMergeDepth ≤ depth := by omega
    rw [deepMergeInternal, if_pos hdepth]
    simp [SharedChain]
  | succ length ih =>
    have hdepth : ¬ maxMergeDepth ≤ depth := by omega
    rw [deepMergeInternal, if_neg hdepth, mergeFields_ok_iff]
    constructor
    · rintro hfields ⟨key, base', override', hbase, hmem, hchain⟩
      obtain ⟨value, hvalue⟩ := hfields _ hmem
      rw [hbase, mergeValue_obj] at hvalue
      obtain ⟨merged, hmerged, -⟩ := exists_of_map_ok hvalue
      exact (ih override' base' (depth + 1) (by omega)).mp ⟨merged, hmerged⟩ hchain
    · rintro hchain ⟨key, v⟩ hmem
      by_cases hobjects : ∃ base' override', OrderedMap.get? base key = some (.obj base') ∧
          v = .obj override'
      · obtain ⟨base', override', hbase, rfl⟩ := hobjects
        have hbelow := (ih override' base' (depth + 1) (by omega)).mpr
          fun hchain' => hchain ⟨key, base', override', hbase, hmem, hchain'⟩
        obtain ⟨merged, hmerged⟩ := hbelow
        rw [hbase, mergeValue_obj, hmerged]
        exact ⟨_, rfl⟩
      · exact ⟨v, mergeValue_of_not_objects hobjects depth⟩

end MergeFacts

/-! ## No key gets through: exactly when -/

section Exactly

variable {N : Type*}

theorem deepMerge_ok_iff {base override result : PlainFields N} :
    deepMerge (some base) (some override) = .ok (some result)
      ↔ ¬ DangerousWithin maxMergeDepth (.obj override) ∧
        deepMergeInternal base override 0 = .ok result := by
  have hscan := scanOverrideForDangerousKeys_ok_iff (.obj override) (js "$") 0
  dsimp only [deepMerge]
  split
  · next e he =>
    rw [he] at hscan
    constructor
    · intro h
      cases h
    · rintro ⟨hclean, -⟩
      cases hscan.mpr hclean
  · next he =>
    refine ⟨fun h => ?_, fun h => by rw [h.2]; rfl⟩
    obtain ⟨merged, hmerged, hsome⟩ := exists_of_map_ok h
    cases hsome
    exact ⟨hscan.mp he, hmerged⟩

/-- The condition under which no key gets through, on the two sides as they come. -/
def KeysStayOut (base override : PlainFields N) : Prop :=
  DangerousWithin maxMergeDepth (.obj override) ∨ SharedChain maxMergeDepth base override ∨
    ¬ HasDangerousKey (.obj override)

/-- No key gets through exactly when the scan meets one, the merge gives up, or
    the override has none. -/
theorem mergeKeepsKeysOut_iff {base override : PlainFields N}
    (hbase : ¬ HasDangerousKey (.obj base)) (hjson : (PlainValue.obj override).IsJson) :
    MergeKeepsKeysOut base override ↔ KeysStayOut base override := by
  have hmerges := deepMergeInternal_ok_iff override base 0
  constructor
  · intro hkept
    by_cases hclean : DangerousWithin maxMergeDepth (.obj override)
    · exact Or.inl hclean
    by_cases hchain : SharedChain maxMergeDepth base override
    · exact Or.inr (Or.inl hchain)
    refine Or.inr (Or.inr fun hdanger => ?_)
    obtain ⟨result, hresult⟩ := hmerges.mpr hchain
    apply hkept result (deepMerge_ok_iff.mpr ⟨hclean, hresult⟩)
    cases hdanger with
    | own hf hkey => exact absurd (.own hf hkey) hclean
    | @field _ f hf hvalue =>
      obtain ⟨value, hmerge, hget⟩ := get?_mergeFields_of_mem hjson.nodup_keys hresult hf
      have hclean' : ¬ DangerousWithin (maxMergeDepth - (0 + 1)) f.2 :=
        fun hwithin => hclean (.field hf hwithin)
      exact .field (OrderedMap.mem_of_get? hget)
        (hasDangerousKey_mergeValue f.2 (hjson.of_mem_obj hf) hclean' hvalue hmerge)
  · intro hcond result hresult
    obtain ⟨hclean, hmerged⟩ := deepMerge_ok_iff.mp hresult
    have hfree : ¬ HasDangerousKey (.obj override) :=
      (hcond.resolve_left hclean).resolve_left (hmerges.mp ⟨result, hmerged⟩)
    exact not_hasDangerousKey_mergeFields hbase hfree
      (fun f _ => not_hasDangerousKey_mergeValue f.2) hmerged

end Exactly

/-! ## Merging again -/

section Again

variable {N : Type*} {depth : Nat} {base result override merged : PlainFields N}

/-- A chain of `length` keys of the override that leads from object to object. -/
def ObjectChain : (length : Nat) → (override : PlainFields N) → Prop
  | 0, _ => True
  | length + 1, override =>
    ∃ key override', (key, .obj override') ∈ override ∧ ObjectChain length override'

/-- Each property of the override was merged into a value that `merged` has under its key. -/
def MergedInto (override merged : PlainFields N) : Prop :=
  ∀ f ∈ override, ∃ baseVal depth value, mergeValue baseVal depth f.2 = .ok value
    ∧ OrderedMap.get? merged f.1 = some value

theorem mergedInto_of_mergeFields (hkeys : (override.map Prod.fst).Nodup)
    (h : mergeFields base depth result override = .ok merged) : MergedInto override merged := by
  intro f hf
  exact ⟨_, depth, get?_mergeFields_of_mem hkeys h hf⟩

/-- What an object was merged into is an object, and has what its properties gave. -/
theorem mergedInto_of_mergeValue {baseVal : Option (PlainValue N)} {value : PlainValue N}
    (hkeys : (override.map Prod.fst).Nodup)
    (h : mergeValue baseVal depth (.obj override) = .ok value) :
    ∃ merged, value = .obj merged ∧ MergedInto override merged := by
  rcases mergeValue_cases h with rfl | ⟨base, _, merged, -, hobj, rfl, -, hfields⟩
  · refine ⟨override, rfl, fun f hf => ⟨none, depth, f.2, ?_, OrderedMap.get?_of_mem hkeys hf⟩⟩
    exact mergeValue_of_not_objects (fun ⟨_, _, hnone, _⟩ => nomatch hnone) depth
  · cases hobj
    exact ⟨merged, rfl, mergedInto_of_mergeFields hkeys hfields⟩

theorem mergeFields_of_fixed
    (hfixed : ∀ f ∈ override, ∃ value, OrderedMap.get? result f.1 = some value ∧
      ∀ again, mergeValue (OrderedMap.get? base f.1) depth f.2 = .ok again → again = value)
    (h : mergeFields base depth result override = .ok merged) : merged = result := by
  induction override with
  | nil =>
    exact (Except.ok.inj h).symm
  | cons f rest ih =>
    obtain ⟨value, hvalue, hrest⟩ := mergeFields_cons_ok h
    obtain ⟨kept, hget, hsame⟩ := hfixed f List.mem_cons_self
    rw [hsame value hvalue, OrderedMap.set_of_get? hget] at hrest
    exact ih (fun g hg => hfixed g (List.mem_cons_of_mem _ hg)) hrest

theorem mergeValue_again (v : PlainValue N) :
    ∀ {baseVal : Option (PlainValue N)} {depth later : Nat} {value again : PlainValue N},
      v.IsJson → mergeValue baseVal depth v = .ok value →
      mergeValue (some value) later v = .ok again → again = value := by
  induction v using PlainValue.treeInduction with
  | obj fields ih =>
    intro baseVal depth later value again hjson h hagain
    obtain ⟨merged, rfl, hmerged⟩ := mergedInto_of_mergeValue hjson.nodup_keys h
    rw [mergeValue] at hagain
    split at hagain
    · cases hagain
    obtain ⟨merged', hmerged', rfl⟩ := exists_of_map_ok hagain
    congr 1
    refine mergeFields_of_fixed (fun f hf => ?_) hmerged'
    obtain ⟨lower, depth', value, hvalue, hget⟩ := hmerged f hf
    refine ⟨value, hget, fun again' hagain' => ?_⟩
    rw [hget] at hagain'
    exact ih f hf (hjson.of_mem_obj hf) hvalue hagain'
  | _ =>
    intro baseVal depth later value again _ h hagain
    rcases mergeValue_cases h with rfl | ⟨_, _, _, _, hobj, _⟩
    · rcases mergeValue_cases hagain with rfl | ⟨_, _, _, _, hobj, _⟩
      · rfl
      · cases hobj
    · cases hobj

/-- Both sides of the second merge go on together as long as the override goes on. -/
theorem sharedChain_iff_objectChain (hjson : (PlainValue.obj override).IsJson)
    (h : MergedInto override merged) (length : Nat) :
    SharedChain length merged override ↔ ObjectChain length override := by
  induction length generalizing override merged with
  | zero => exact Iff.rfl
  | succ length ih =>
    constructor
    · rintro ⟨key, base', override', hget, hmem, hchain⟩
      obtain ⟨lower, depth, value, hvalue, hget'⟩ := h _ hmem
      have hbelow := hjson.of_mem_obj hmem
      obtain ⟨merged', rfl, hmerged'⟩ := mergedInto_of_mergeValue hbelow.nodup_keys hvalue
      cases hget.symm.trans hget'
      exact ⟨key, override', hmem, (ih hbelow hmerged').mp hchain⟩
    · rintro ⟨key, override', hmem, hchain⟩
      obtain ⟨lower, depth, value, hvalue, hget⟩ := h _ hmem
      have hbelow := hjson.of_mem_obj hmem
      obtain ⟨merged', rfl, hmerged'⟩ := mergedInto_of_mergeValue hbelow.nodup_keys hvalue
      exact ⟨key, merged', override', hget, hmem, (ih hbelow hmerged').mpr hchain⟩

/-- Merging the same override once more returns the same object, unless the override goes on
    to the bound: a first merge copies what the base has no object for, a second one has to
    walk it, and throws. -/
theorem deepMerge_again (hjson : (PlainValue.obj override).IsJson)
    (h : deepMerge (some base) (some override) = .ok (some merged)) :
    (¬ ObjectChain maxMergeDepth override →
        deepMerge (some merged) (some override) = .ok (some merged)) ∧
      (ObjectChain maxMergeDepth override →
        deepMerge (some merged) (some override) = .error .exceededDepth) := by
  obtain ⟨hclean, hmerged⟩ := deepMerge_ok_iff.mp h
  have hinto := mergedInto_of_mergeFields hjson.nodup_keys hmerged
  have hreturns := deepMergeInternal_ok_iff override merged 0
  rw [Nat.sub_zero, sharedChain_iff_objectChain hjson hinto] at hreturns
  refine ⟨fun hchain => deepMerge_ok_iff.mpr ⟨hclean, ?_⟩, fun hchain => ?_⟩
  · obtain ⟨again, hagain⟩ := hreturns.mpr hchain
    have hfields := hagain
    have hsame : again = merged := by
      refine mergeFields_of_fixed (fun f hf => ?_) hfields
      obtain ⟨lower, depth, value, hvalue, hget⟩ := hinto f hf
      refine ⟨value, hget, fun again' hagain' => ?_⟩
      rw [hget] at hagain'
      exact mergeValue_again f.2 (hjson.of_mem_obj hf) hvalue hagain'
    rw [hagain, hsame]
  · -- the scan passes as it did, so that what throws is the merge
    have hscan := (scanOverrideForDangerousKeys_ok_iff (.obj override) (js "$") 0).mpr hclean
    cases hagain : deepMergeInternal merged override 0 with
    | ok again => exact absurd hchain (hreturns.mp ⟨again, hagain⟩)
    | error e =>
      rw [deepMerge, hscan, hagain]
      rw [mergeFields_error (fun f _ => mergeValue_error f.2) hagain]
      rfl

end Again

/-! ### A key inside and a key below the scan -/

/-- The key inside `levels` objects. -/
def nestedOverride : (levels : Nat) → PlainFields Int
  | 0 => [(js "__proto__", .obj [])]
  | levels + 1 => [(js "git", .obj (nestedOverride levels))]

theorem isJson_nestedOverride (levels : Nat) : (PlainValue.obj (nestedOverride levels)).IsJson := by
  induction levels with
  | zero =>
    refine .obj (List.nodup_singleton _) fun f hf => ?_
    rw [List.mem_singleton.mp hf]
    exact .obj List.nodup_nil fun g hg => by cases hg
  | succ levels ih =>
    refine .obj (List.nodup_singleton _) fun f hf => ?_
    rw [List.mem_singleton.mp hf]
    exact ih

theorem dangerousWithin_nestedOverride (levels : Nat) :
    DangerousWithin (levels + 1) (.obj (nestedOverride levels)) := by
  induction levels with
  | zero => exact .own List.mem_cons_self List.mem_cons_self
  | succ levels ih => exact .field List.mem_cons_self ih

theorem objectChain_nestedOverride {length levels : Nat} (h : length ≤ levels + 1) :
    ObjectChain length (nestedOverride levels) := by
  induction length generalizing levels with
  | zero => trivial
  | succ length ih =>
    cases levels with
    | zero =>
      cases Nat.le_zero.mp (Nat.le_of_succ_le_succ h)
      exact ⟨_, _, List.mem_cons_self, trivial⟩
    | succ levels => exact ⟨_, _, List.mem_cons_self, ih (Nat.le_of_succ_le_succ h)⟩

/-- An override that a first merge copies whole and a second one does not get through. -/
theorem deepMerge_again_nestedOverride :
    deepMerge (some []) (some (nestedOverride 10)) = .ok (some (nestedOverride 10)) ∧
      deepMerge (some (nestedOverride 10)) (some (nestedOverride 10)) = .error .exceededDepth :=
  ⟨rfl, (@deepMerge_again Int [] _ _ (isJson_nestedOverride 10) rfl).2
    (objectChain_nestedOverride (by decide))⟩

theorem not_hasDangerousKey_empty : ¬ HasDangerousKey (PlainValue.obj ([] : PlainFields Int)) := by
  intro h
  cases h with
  | own hf _ => cases hf
  | field hf _ => cases hf

/-- A key on the last level of the scan is refused. -/
theorem mergeKeepsKeysOut_nestedOverride : MergeKeepsKeysOut [] (nestedOverride 9) :=
  (mergeKeepsKeysOut_iff not_hasDangerousKey_empty (isJson_nestedOverride 9)).mpr
    (Or.inl (dangerousWithin_nestedOverride 9))

/-- One level further down it is copied into the result. -/
theorem not_mergeKeepsKeysOut_nestedOverride :
    ¬ HasDangerousKey (PlainValue.obj ([] : PlainFields Int)) ∧
      (PlainValue.obj (nestedOverride 10)).IsJson ∧ ¬ MergeKeepsKeysOut [] (nestedOverride 10) := by
  refine ⟨not_hasDangerousKey_empty, isJson_nestedOverride 10, fun hkept => ?_⟩
  have hresult : deepMerge (some []) (some (nestedOverride 10))
    = .ok (some (nestedOverride 10)) := by
    rfl
  exact hkept _ hresult (dangerousWithin_nestedOverride 10).hasDangerousKey

end OpencodeSwarm
