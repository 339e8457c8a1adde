/-
  OpencodeSwarm.Lib.OrderedMap

  `Map` of the runtime: bindings in insertion order, and writing a key that is
  present keeps its place.
-/
import Mathlib.Algebra.GroupWithZero.Nat
import Mathlib.Data.List.Basic
import Mathlib.Data.List.Induction
import Mathlib.Data.List.Nodup

namespace Js

/-- A `Map`, as the list of its bindings in insertion order. -/
abbrev OrderedMap (α β : Type*) := List (α × β)

namespace OrderedMap

variable {α β : Type*} [DecidableEq α]

/-- `map.get(key)`. -/
def get? (map : OrderedMap α β) (key : α) : Option β :=
  (List.find? (fun binding => decide (binding.1 = key)) map).map Prod.snd

/-- `map.set(key, value)`. -/
def set : OrderedMap α β → α → β → OrderedMap α β
  | [], key, value => [(key, value)]
  | binding :: rest, key, value =>
    if binding.1 = key then (key, value) :: rest else binding :: set rest key value

def keys (map : OrderedMap α β) : List α := List.map Prod.fst map

def values (map : OrderedMap α β) : List β := List.map Prod.snd map

variable {key : α} {map : OrderedMap α β} {value : β}

theorem mem_set {binding : α × β} (h : binding ∈ map.set key value) :
    binding = (key, value) ∨ binding ∈ map := by
  induction map with
  | nil => exact Or.inl (List.mem_singleton.mp h)
  | cons first rest ih =>
    unfold set at h
    split at h
    · rcases List.mem_cons.mp h with rfl | hrest
      · exact Or.inl rfl
      · exact Or.inr (List.mem_cons_of_mem _ hrest)
    · rcases List.mem_cons.mp h with rfl | hrest
      · exact Or.inr List.mem_cons_self
      · rcases ih hrest with hnew | hold
        · exact Or.inl hnew
        · exact Or.inr (List.mem_cons_of_mem _ hold)

variable {other : α}

theorem mem_keys_set (h : other ∈ (map.set key value).keys) : other = key ∨ other ∈ map.keys := by
  obtain ⟨binding, hbinding, rfl⟩ := List.mem_map.mp h
  rcases mem_set hbinding with rfl | hold
  · exact Or.inl rfl
  · exact Or.inr (List.mem_map_of_mem hold)

theorem nodup_keys_set (h : map.keys.Nodup) : (map.set key value).keys.Nodup := by
  induction map with
  | nil => exact List.nodup_singleton key
  | cons first rest ih =>
    obtain ⟨hfirst, hrest⟩ := List.nodup_cons.mp h
    unfold set
    split
    · rename_i hkey
      rw [hkey] at hfirst
      exact List.nodup_cons.mpr ⟨hfirst, hrest⟩
    · rename_i hkey
      refine List.nodup_cons.mpr ⟨fun hmem => ?_, ih hrest⟩
      rcases mem_keys_set hmem with hsame | hold
      · exact hkey hsame
      · exact hfirst hold

theorem mem_of_get? (h : map.get? key = some value) : (key, value) ∈ map := by
  obtain ⟨binding, hfind, rfl⟩ := Option.map_eq_some_iff.mp h
  have hkey := List.find?_some hfind
  rw [decide_eq_true_eq] at hkey
  rw [← hkey]
  exact List.mem_of_find?_eq_some hfind

theorem get?_set (map : OrderedMap α β) (key other : α) (value : β) :
    (map.set key value).get? other = if other = key then some value else map.get? other := by
  unfold get?
  induction map with
  | nil => by_cases h : other = key <;> simp [set, h, eq_comm]
  | cons binding rest ih =>
    unfold set
    by_cases hkey : binding.1 = key
    · rw [if_pos hkey]
      by_cases h : other = key
      · simp [h]
      · have hne : binding.1 ≠ other := fun heq => h (heq.symm.trans hkey)
        simp [h, hne, Ne.symm h]
    · rw [if_neg hkey]
      by_cases hbinding : binding.1 = other
      · have h : other ≠ key := fun heq => hkey (hbinding.trans heq)
        simp [hbinding, h]
      · simp only [List.find?_cons, hbinding, decide_false]
        exact ih

theorem get?_of_mem (hnodup : map.keys.Nodup) (h : (key, value) ∈ map) :
    map.get? key = some value := by
  unfold get?
  induction map with
  | nil => cases h
  | cons binding rest ih =>
    obtain ⟨hfirst, hrest⟩ := List.nodup_cons.mp hnodup
    rcases List.mem_cons.mp h with heq | hmem
    · simp [← heq]
    · have hne : binding.1 ≠ key := by
        intro heq
        exact hfirst (heq ▸ List.mem_map_of_mem hmem)
      simp only [List.find?_cons, hne, decide_false]
      exact ih hrest hmem

theorem get?_eq_none_iff : map.get? key = none ↔ key ∉ map.keys := by
  unfold get? keys
  rw [Option.map_eq_none_iff, List.find?_eq_none, List.mem_map]
  constructor
  · rintro h ⟨binding, hbinding, rfl⟩
    exact h binding hbinding (decide_eq_true rfl)
  · intro h binding hbinding hkey
    exact h ⟨binding, hbinding, of_decide_eq_true hkey⟩

theorem get?_map (map : OrderedMap α β) (f : α × β → α × β)
    (hf : ∀ binding, (f binding).1 = binding.1) (key : α) :
    get? (List.map f map) key = (map.get? key).map fun value => (f (key, value)).2 := by
  unfold get?
  induction map with
  | nil => rfl
  | cons binding rest ih =>
    by_cases hkey : binding.1 = key
    · obtain ⟨first, value⟩ := binding
      obtain rfl : first = key := hkey
      simp [hf]
    · simp only [List.map_cons, List.find?_cons, hf, hkey, decide_false]
      exact ih

omit [DecidableEq α] in
theorem keys_map (map : OrderedMap α β) (f : α × β → α × β)
    (hf : ∀ binding, (f binding).1 = binding.1) : keys (List.map f map) = map.keys := by
  rw [keys, List.map_map]
  exact List.map_congr_left fun binding _ => hf binding

omit [DecidableEq α] in
/-- A map with distinct keys is as short as any list that has them all. -/
theorem length_le_of_keys {map : OrderedMap α β} {bound : List α} (hnodup : map.keys.Nodup)
    (hmem : ∀ key ∈ map.keys, key ∈ bound) : map.length ≤ bound.length := by
  have hlength := hnodup.length_le_of_subset hmem
  rwa [keys, List.length_map] at hlength

/-- Writing a key replaces what its binding adds to a sum over the values. -/
theorem sum_values_set (map : OrderedMap α β) (key : α) (value : β) (f : β → Nat) :
    ((map.set key value).values.map f).sum + ((map.get? key).map f).getD 0
      = (map.values.map f).sum + f value := by
  unfold values get?
  induction map with
  | nil => simp [set]
  | cons binding rest ih =>
    unfold set
    by_cases hkey : binding.1 = key
    · simp [hkey]
      omega
    · rw [if_neg hkey]
      simp only [List.map_cons, List.sum_cons, List.find?_cons, hkey, decide_false]
      omega

/-- `map.delete(key)`. -/
def erase (map : OrderedMap α β) (key : α) : OrderedMap α β :=
  List.filter (fun binding => decide (binding.1 ≠ key)) map

theorem get?_erase (map : OrderedMap α β) (key other : α) :
    (map.erase key).get? other = if other = key then none else map.get? other := by
  unfold erase get?
  induction map with
  | nil => simp
  | cons binding rest ih =>
    by_cases hkey : binding.1 = key
    · rw [List.filter_cons_of_neg (by simpa using hkey), ih]
      by_cases hother : other = key
      · rw [if_pos hother, if_pos hother]
      · have hne : ¬ binding.1 = other := fun heq => hother (heq ▸ hkey)
        rw [if_neg hother, if_neg hother, List.find?_cons_of_neg (by simpa using hne)]
    · rw [List.filter_cons_of_pos (by simpa using hkey)]
      by_cases hother : binding.1 = other
      · have hne : ¬ other = key := fun heq => hkey (hother.trans heq)
        rw [List.find?_cons_of_pos (by simpa using hother),
          List.find?_cons_of_pos (by simpa using hother), if_neg hne]
      · rw [List.find?_cons_of_neg (by simpa using hother), ih,
          List.find?_cons_of_neg (by simpa using hother)]

theorem mem_keys_erase (h : other ∈ (map.erase key).keys) : other ≠ key ∧ other ∈ map.keys := by
  obtain ⟨binding, hbinding, rfl⟩ := List.mem_map.mp h
  obtain ⟨hmem, hne⟩ := List.mem_filter.mp hbinding
  exact ⟨of_decide_eq_true hne, List.mem_map_of_mem hmem⟩

theorem nodup_keys_erase (h : map.keys.Nodup) : (map.erase key).keys.Nodup :=
  h.sublist (List.Sublist.map _ List.filter_sublist)

theorem mem_keys_iff : key ∈ map.keys ↔ (map.get? key).isSome = true := by
  rw [Option.isSome_iff_ne_none, ne_eq, get?_eq_none_iff, not_not]

theorem mem_keys_set_iff : other ∈ (map.set key value).keys ↔ other = key ∨ other ∈ map.keys := by
  rw [mem_keys_iff, mem_keys_iff, get?_set]
  by_cases h : other = key
  · simp [h]
  · simp [h]

theorem keys_set_of_mem (h : key ∈ map.keys) (value : β) : (map.set key value).keys = map.keys := by
  induction map with
  | nil => cases h
  | cons binding rest ih =>
    unfold set
    by_cases hkey : binding.1 = key
    · rw [if_pos hkey]
      show key :: keys rest = binding.1 :: keys rest
      rw [hkey]
    · rw [if_neg hkey]
      have hrest : key ∈ keys rest := (List.mem_cons.mp h).resolve_left (Ne.symm hkey)
      show binding.1 :: keys (set rest key value) = binding.1 :: keys rest
      rw [ih hrest]

theorem set_of_notMem (h : key ∉ map.keys) (value : β) :
    map.set key value = map ++ [(key, value)] := by
  induction map with
  | nil => rfl
  | cons binding rest ih =>
    have hne : binding.1 ≠ key := fun heq => h (List.mem_cons.mpr (Or.inl heq.symm))
    have hrest : key ∉ keys rest := fun hmem => h (List.mem_cons_of_mem _ hmem)
    rw [set, if_neg hne, ih hrest, List.cons_append]

theorem set_of_get? (h : map.get? key = some value) : map.set key value = map := by
  induction map with
  | nil => exact nomatch h
  | cons binding rest ih =>
    unfold set
    by_cases hkey : binding.1 = key
    · have hvalue : binding.2 = value := by simpa [get?, hkey] using h
      rw [if_pos hkey, ← hkey, ← hvalue]
    · rw [if_neg hkey, ih (by simpa [get?, hkey] using h)]

theorem length_set_le (map : OrderedMap α β) (key : α) (value : β) :
    List.length (map.set key value) ≤ List.length map + 1 := by
  induction map with
  | nil => exact Nat.le_refl _
  | cons binding rest ih =>
    unfold set
    split
    · rw [List.length_cons, List.length_cons]
      omega
    · rw [List.length_cons, List.length_cons]
      omega

/-- The values of bindings written one after the other, when their keys are distinct. -/
theorem get?_foldl_set {bindings : List (α × β)} (hnodup : (bindings.map Prod.fst).Nodup)
    (h : (key, value) ∈ bindings) :
    (bindings.foldl (fun map binding => map.set binding.1 binding.2) map).get? key = some value := by
  induction bindings using List.reverseRecOn with
  | nil => cases h
  | append_singleton bindings last ih =>
    rw [List.map_append, List.nodup_append] at hnodup
    obtain ⟨hfront, -, hapart⟩ := hnodup
    rw [List.foldl_concat, get?_set]
    rcases List.mem_append.mp h with hold | hnew
    · have hne : ¬ key = last.1 :=
        hapart key (List.mem_map_of_mem hold) last.1 (List.mem_singleton_self _)
      rw [if_neg hne]
      exact ih hfront hold
    · rw [← List.mem_singleton.mp hnew]
      exact if_pos rfl

/-- An element pushed onto the list of its key: the lists hold one element more. -/
theorem flatten_values_push {γ : Type*} (map : OrderedMap α (List γ)) (key : α) (element : γ) :
    (map.set key ((map.get? key).getD [] ++ [element])).values.flatten.Perm
      (map.values.flatten ++ [element]) := by
  unfold values get?
  induction map with
  | nil => exact List.Perm.refl _
  | cons binding rest ih =>
    unfold set
    by_cases hkey : binding.1 = key
    · rw [if_pos hkey, List.find?_cons_of_pos (by simpa using hkey)]
      show (binding.2 ++ [element] ++ (List.map Prod.snd rest).flatten).Perm
        (binding.2 ++ (List.map Prod.snd rest).flatten ++ [element])
      rw [List.append_assoc, List.append_assoc]
      exact (List.perm_append_comm).append_left binding.2
    · rw [if_neg hkey, List.find?_cons_of_neg (by simpa using hkey)]
      show (binding.2 ++ (List.map Prod.snd (set rest key _)).flatten).Perm
        (binding.2 ++ (List.map Prod.snd rest).flatten ++ [element])
      rw [List.append_assoc]
      exact ih.append_left binding.2

theorem keys_erase (map : OrderedMap α β) (key : α) :
    (map.erase key).keys = map.keys.filter fun other => decide (other ≠ key) := by
  unfold erase keys
  rw [List.filter_map]
  rfl

theorem perm_keys_erase (hnodup : map.keys.Nodup) (h : key ∈ map.keys) :
    map.keys.Perm (key :: (map.erase key).keys) := by
  have hfilter : (map.erase key).keys = map.keys.erase key := by
    rw [keys_erase, hnodup.erase_eq_filter key]
    refine List.filter_congr fun other _ => ?_
    by_cases heq : other = key
    · simp [heq]
    · simp [heq]
  rw [hfilter]
  exact List.perm_cons_erase h

theorem erase_of_notMem (h : key ∉ map.keys) : map.erase key = map := by
  rw [erase, List.filter_eq_self]
  intro binding hbinding
  exact decide_eq_true fun heq => h (heq ▸ List.mem_map_of_mem hbinding)

theorem length_erase_le (map : OrderedMap α β) (key : α) :
    List.length (map.erase key) ≤ List.length map := List.length_filter_le _ _

theorem length_erase_lt (h : map.get? key = some value) :
    List.length (map.erase key) < List.length map := by
  have hmem := mem_of_get? h
  apply List.length_filter_lt_length_iff_exists.mpr
  exact ⟨_, hmem, by simp⟩

theorem get?_filterMap {keys : List α} {f : α → Option β} (h : key ∈ keys) :
    get? (keys.filterMap fun key => (f key).map fun value => (key, value)) key = f key := by
  induction keys with
  | nil => cases h
  | cons first rest ih =>
    cases hfirst : f first with
    | none =>
      have hskip : (first :: rest).filterMap (fun key => (f key).map fun value => (key, value))
          = rest.filterMap fun key => (f key).map fun value => (key, value) :=
        List.filterMap_cons_none (by rw [hfirst]; rfl)
      rw [hskip]
      by_cases hrest : key ∈ rest
      · exact ih hrest
      rw [(List.mem_cons.mp h).resolve_right hrest, hfirst]
      rw [get?, Option.map_eq_none_iff, List.find?_eq_none]
      intro binding hbinding
      obtain ⟨other, hother, heq⟩ := List.mem_filterMap.mp hbinding
      obtain ⟨value, hvalue, rfl⟩ := Option.map_eq_some_iff.mp heq
      simp only [decide_eq_true_eq]
      rintro rfl
      rw [hfirst] at hvalue
      cases hvalue
    | some value =>
      have htake : (first :: rest).filterMap (fun key => (f key).map fun value => (key, value))
          = (first, value) :: rest.filterMap fun key => (f key).map fun value => (key, value) :=
        List.filterMap_cons_some (by rw [hfirst]; rfl)
      rw [htake]
      by_cases heq : first = key
      · subst heq
        unfold get?
        simp [hfirst]
      · have hrest : key ∈ rest := (List.mem_cons.mp h).resolve_left (Ne.symm heq)
        rw [← ih hrest]
        unfold get?
        simp [heq]

end OrderedMap

end Js
