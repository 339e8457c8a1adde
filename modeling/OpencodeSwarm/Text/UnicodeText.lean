/-
  OpencodeSwarm.Text.UnicodeText

  Typographic characters and their ASCII equivalents (`src/utils/fuzzy-match.ts`):
  normalization, and the map of positions between a text and its normalized form,
  where one character may stand for two or three.
-/
import OpencodeSwarm.Lib.OrderedMap
import OpencodeSwarm.Lib.TextLines

namespace OpencodeSwarm

open Js

/-! ## Normalization -/

/-- `UNICODE_MAP`. -/
def unicodeMap : List (CodeUnit × JsString) :=
  [(0x201C, js "\""), (0x201D, js "\""), (0x2018, js "'"), (0x2019, js "'"), (0x2014, js "--"),
    (0x2013, js "-"), (0x2026, js "..."), (0x00A0, js " ")]

/-- `text.split(char).join(repl)`. -/
def replaceAllOf (text : JsString) (char : CodeUnit) (repl : JsString) : JsString :=
  List.intercalate repl (text.splitOn char)

def unicodeNormalize (text : JsString) : JsString :=
  unicodeMap.foldl (fun out entry => replaceAllOf out entry.1 entry.2) text

/-- `UNICODE_MAP[char]`. -/
def unicodeReplacement (char : CodeUnit) : Option JsString :=
  (unicodeMap.find? fun entry => entry.1 = char).map Prod.snd

/-- What a character is normalized to. -/
def normalizedChar (char : CodeUnit) : JsString := (unicodeReplacement char).getD [char]

theorem replaceAllOf_eq (text : JsString) (char : CodeUnit) (repl : JsString) :
    replaceAllOf text char repl = text.flatMap fun c => if c = char then repl else [c] := by
  unfold replaceAllOf
  induction text with
  | nil => rfl
  | cons c rest ih =>
    rw [List.flatMap_cons, ← ih, List.splitOn_cons_eq_if_modifyHead]
    by_cases hc : c = char
    · rw [if_pos (by simpa using hc), if_pos hc]
      cases hrest : rest.splitOn char with
      | nil => exact absurd hrest (List.splitOn_ne_nil char rest)
      | cons first others => simp [List.intercalate_cons_cons]
    · rw [if_neg (by simpa using hc), if_neg hc]
      cases hrest : rest.splitOn char with
      | nil => exact absurd hrest (List.splitOn_ne_nil char rest)
      | cons first others =>
        cases others with
        | nil => simp
        | cons second others => simp [List.intercalate_cons_cons]

/-- The keys of the map, one after the other, on one character. -/
def normalizedBy (entries : List (CodeUnit × JsString)) (c : CodeUnit) : JsString :=
  entries.foldl (fun out entry => replaceAllOf out entry.1 entry.2) [c]

theorem foldl_replaceAllOf (entries : List (CodeUnit × JsString)) (text : JsString) :
    entries.foldl (fun out entry => replaceAllOf out entry.1 entry.2) text
      = text.flatMap (normalizedBy entries) := by
  induction entries generalizing text with
  | nil => exact (List.flatMap_singleton' text).symm
  | cons entry rest ih =>
    rw [List.foldl_cons, ih, replaceAllOf_eq, List.flatMap_assoc]
    congr 1
    funext c
    rw [normalizedBy, List.foldl_cons, replaceAllOf_eq, List.flatMap_singleton]
    exact (ih _).symm

theorem normalizedBy_cons (entry : CodeUnit × JsString) (rest : List (CodeUnit × JsString))
    (c : CodeUnit) :
    normalizedBy (entry :: rest) c
      = (if c = entry.1 then entry.2 else [c]).flatMap (normalizedBy rest) := by
  unfold normalizedBy
  rw [List.foldl_cons, replaceAllOf_eq, List.flatMap_singleton, foldl_replaceAllOf]
  rfl

variable {c : CodeUnit} {entries : List (CodeUnit × JsString)}

theorem normalizedBy_of_notKey (h : ∀ entry ∈ entries, entry.1 ≠ c) :
    normalizedBy entries c = [c] := by
  induction entries with
  | nil => rfl
  | cons entry rest ih =>
    obtain ⟨hentry, hrest⟩ := List.forall_mem_cons.mp h
    rw [normalizedBy_cons, if_neg fun heq => hentry heq.symm, List.flatMap_singleton, ih hrest]

/-- Where no replacement holds a key, a character is replaced once. -/
theorem normalizedBy_eq (hplain : ∀ entry ∈ entries, ∀ d ∈ entry.2, ∀ other ∈ entries, other.1 ≠ d)
    (c : CodeUnit) :
    normalizedBy entries c = ((entries.find? fun entry => entry.1 = c).map Prod.snd).getD [c] := by
  induction entries with
  | nil => rfl
  | cons entry rest ih =>
    obtain ⟨hentry, hrest⟩ := List.forall_mem_cons.mp hplain
    rw [normalizedBy_cons]
    by_cases hc : c = entry.1
    · have hfound : ((entry :: rest).find? fun entry => decide (entry.1 = c)) = some entry :=
        List.find?_cons_of_pos (decide_eq_true hc.symm)
      rw [if_pos hc, hfound]
      have hsame : ∀ d ∈ entry.2, normalizedBy rest d = [d] := fun d hd =>
        normalizedBy_of_notKey fun other hother =>
          hentry d hd other (List.mem_cons_of_mem _ hother)
      rw [List.flatMap_congr hsame]
      exact List.flatMap_singleton' entry.2
    · have hother : ((entry :: rest).find? fun entry => decide (entry.1 = c))
          = rest.find? fun entry => decide (entry.1 = c) :=
        List.find?_cons_of_neg (by simpa using fun heq => hc heq.symm)
      rw [if_neg hc, hother, List.flatMap_singleton]
      exact ih fun e he d hd other hmem => hrest e he d hd other (List.mem_cons_of_mem _ hmem)

theorem unicodeMap_plain : ∀ entry ∈ unicodeMap, ∀ d ∈ entry.2, ∀ other ∈ unicodeMap,
    other.1 ≠ d := by
  have hall : (unicodeMap.all fun entry => entry.2.all fun d =>
      unicodeMap.all fun other => decide (other.1 ≠ d)) = true := by decide
  intro entry hentry d hd other hother
  have hentries := List.all_eq_true.mp hall entry hentry
  have hunits := List.all_eq_true.mp hentries d hd
  exact of_decide_eq_true (List.all_eq_true.mp hunits other hother)

theorem unicodeNormalize_eq (text : JsString) :
    unicodeNormalize text = text.flatMap normalizedChar := by
  have hchar : normalizedBy unicodeMap = normalizedChar :=
    funext fun c => normalizedBy_eq unicodeMap_plain c
  rw [unicodeNormalize, foldl_replaceAllOf, hchar]

theorem unicodeNormalize_append (text more : JsString) :
    unicodeNormalize (text ++ more) = unicodeNormalize text ++ unicodeNormalize more := by
  rw [unicodeNormalize_eq, unicodeNormalize_eq, unicodeNormalize_eq, List.flatMap_append]

theorem length_normalizedChar_pos (c : CodeUnit) : 0 < (normalizedChar c).length := by
  have hall : (unicodeMap.all fun entry => decide (0 < entry.2.length)) = true := by decide
  unfold normalizedChar unicodeReplacement
  cases hfind : unicodeMap.find? fun entry => entry.1 = c with
  | none => exact Nat.one_pos
  | some entry =>
    exact of_decide_eq_true (List.all_eq_true.mp hall entry (List.mem_of_find?_eq_some hfind))

theorem normalizedChar_of_mem {d : CodeUnit} (hd : d ∈ normalizedChar c) :
    normalizedChar d = [d] := by
  have hnone : unicodeMap.find? (fun entry => entry.1 = d) = none := by
    refine List.find?_eq_none.mpr fun other hother heq => ?_
    rw [decide_eq_true_iff] at heq
    unfold normalizedChar unicodeReplacement at hd
    cases hfind : unicodeMap.find? fun entry => entry.1 = c with
    | none =>
      rw [hfind] at hd
      have hdc : d = c := List.mem_singleton.mp hd
      have hno := List.find?_eq_none.mp hfind other hother
      rw [decide_eq_true_iff] at hno
      exact hno (heq.trans hdc)
    | some entry =>
      rw [hfind] at hd
      exact unicodeMap_plain entry (List.mem_of_find?_eq_some hfind) d hd other hother heq
  unfold normalizedChar unicodeReplacement
  rw [hnone]
  rfl

variable {text : JsString}

theorem unicodeNormalize_of_normal (h : ∀ c ∈ text, normalizedChar c = [c]) :
    unicodeNormalize text = text := by
  rw [unicodeNormalize_eq, List.flatMap_congr h]
  exact List.flatMap_singleton' text

theorem normal_of_mem_unicodeNormalize (hc : c ∈ unicodeNormalize text) :
    normalizedChar c = [c] := by
  rw [unicodeNormalize_eq] at hc
  obtain ⟨d, -, hd⟩ := List.mem_flatMap.mp hc
  exact normalizedChar_of_mem hd

/-! ## Positions -/

def origToNormFrom : JsString → Nat → List Nat
  | [], normPos => [normPos]
  | c :: rest, normPos =>
    normPos :: origToNormFrom rest (normPos + match unicodeReplacement c with
      | some repl => repl.length
      | none => 1)

/-- The normalized position of every position, the end included. -/
def buildOrigToNormMap (original : JsString) : List Nat := origToNormFrom original 0

/-- Keys with the first index where they stand: the loop that sets what is not there yet. -/
def firstIndices (keys : List Nat) : OrderedMap Nat Nat :=
  keys.zipIdx.foldl (fun map entry =>
    if (OrderedMap.get? map entry.1).isSome then map else OrderedMap.set map entry.1 entry.2) []

/-- `while (end < length && positions[end] < stop) end++`, with the steps that are left. -/
def advanceEnd (positions : List Nat) (length stop : Nat) : Nat → Nat → Nat
  | 0, last => last
  | left + 1, last =>
    if last < length ∧ (positions[last]?.any fun position => decide (position < stop)) = true then
      advanceEnd positions length stop left (last + 1)
    else last

/-- How long the first `k` characters are, normalized. -/
def normLength (text : JsString) (k : Nat) : Nat := (unicodeNormalize (text.take k)).length

theorem length_replacement (c : CodeUnit) :
    (match unicodeReplacement c with
      | some repl => repl.length
      | none => 1) = (normalizedChar c).length := by
  unfold normalizedChar
  cases unicodeReplacement c with
  | none => rfl
  | some repl => rfl

theorem normLength_zero (text : JsString) : normLength text 0 = 0 := by
  rw [normLength, List.take_zero, unicodeNormalize_eq, List.flatMap_nil, List.length_nil]

theorem normLength_succ (c : CodeUnit) (rest : JsString) (k : Nat) :
    normLength (c :: rest) (k + 1) = (normalizedChar c).length + normLength rest k := by
  unfold normLength
  rw [List.take_succ_cons, unicodeNormalize_eq, unicodeNormalize_eq, List.flatMap_cons,
    List.length_append]

variable {k : Nat}

theorem getElem?_origToNormFrom (text : JsString) (start : Nat) (hk : k ≤ text.length) :
    (origToNormFrom text start)[k]? = some (start + normLength text k) := by
  induction text generalizing start k with
  | nil =>
    have hzero : k = 0 := Nat.le_zero.mp hk
    rw [hzero, normLength_zero, Nat.add_zero, origToNormFrom, List.getElem?_cons_zero]
  | cons c rest ih =>
    cases k with
    | zero => rw [normLength_zero, Nat.add_zero, origToNormFrom, List.getElem?_cons_zero]
    | succ k =>
      have hrest : k ≤ rest.length := Nat.le_of_succ_le_succ hk
      rw [origToNormFrom, List.getElem?_cons_succ, ih _ hrest, length_replacement,
        normLength_succ, Nat.add_assoc]

theorem length_origToNormFrom (text : JsString) (start : Nat) :
    (origToNormFrom text start).length = text.length + 1 := by
  induction text generalizing start with
  | nil => rfl
  | cons c rest ih => rw [origToNormFrom, List.length_cons, ih, List.length_cons]

theorem length_buildOrigToNormMap (text : JsString) :
    (buildOrigToNormMap text).length = text.length + 1 :=
  length_origToNormFrom text 0

theorem getElem?_buildOrigToNormMap (text : JsString) (hk : k ≤ text.length) :
    (buildOrigToNormMap text)[k]? = some (normLength text k) := by
  rw [buildOrigToNormMap, getElem?_origToNormFrom text 0 hk, Nat.zero_add]

theorem normLength_length (text : JsString) :
    normLength text text.length = (unicodeNormalize text).length := by
  rw [normLength, List.take_length]

variable {j : Nat}

theorem normLength_lt (hjk : j < k) (hk : k ≤ text.length) :
    normLength text j < normLength text k := by
  have hsplit : text.take k = text.take j ++ (text.take k).drop j := by
    have htake : (text.take k).take j = text.take j := by
      rw [List.take_take]
      congr 1
      omega
    rw [← htake, List.take_append_drop]
  have hmore : 0 < ((text.take k).drop j).length := by
    rw [List.length_drop, List.length_take]
    omega
  unfold normLength
  rw [hsplit, unicodeNormalize_append, List.length_append]
  have hpositive : 0 < (unicodeNormalize ((text.take k).drop j)).length := by
    rw [unicodeNormalize_eq]
    cases hdrop : (text.take k).drop j with
    | nil =>
      rw [hdrop] at hmore
      exact absurd hmore (Nat.lt_irrefl 0)
    | cons c rest =>
      rw [List.flatMap_cons, List.length_append]
      have hc := length_normalizedChar_pos c
      omega
  omega

theorem normLength_le (hjk : j ≤ k) (hk : k ≤ text.length) :
    normLength text j ≤ normLength text k := by
  by_cases heq : j = k
  · rw [heq]
  · exact (normLength_lt (by omega) hk).le

/-! ### First indices -/

theorem firstIndices_concat (keys : List Nat) (last : Nat) :
    firstIndices (keys ++ [last])
      = if (OrderedMap.get? (firstIndices keys) last).isSome then firstIndices keys
        else OrderedMap.set (firstIndices keys) last keys.length := by
  unfold firstIndices
  rw [List.zipIdx_append, List.foldl_append]
  simp

theorem get?_firstIndices (keys : List Nat) (key : Nat) :
    OrderedMap.get? (firstIndices keys) key
      = if key ∈ keys then some (keys.idxOf key) else none := by
  induction keys using List.reverseRecOn generalizing key with
  | nil => rfl
  | append_singleton front last ih =>
    have hmem : key ∈ front ++ [last] ↔ key ∈ front ∨ key = last := by simp
    rw [firstIndices_concat, ih last]
    by_cases hlast : last ∈ front
    · rw [if_pos hlast, Option.isSome_some, if_pos rfl, ih key]
      have hsame : key ∈ front ++ [last] ↔ key ∈ front := by
        rw [hmem]
        exact ⟨fun h => h.elim id fun heq => heq ▸ hlast, Or.inl⟩
      simp only [hsame]
      split
      · next hin => rw [List.idxOf_append_of_mem hin]
      · rfl
    · rw [if_neg hlast, Option.isSome_none, if_neg Bool.false_ne_true, OrderedMap.get?_set]
      by_cases heq : key = last
      · subst heq
        rw [if_pos rfl, if_pos (hmem.mpr (Or.inr rfl)), List.idxOf_append_of_notMem hlast]
        simp
      · rw [if_neg heq, ih key]
        have hsame : key ∈ front ++ [last] ↔ key ∈ front := by
          rw [hmem]
          exact ⟨fun h => h.elim id fun h => absurd h heq, Or.inl⟩
        simp only [hsame]
        split
        · next hin => rw [List.idxOf_append_of_mem hin]
        · rfl

variable {keys : List Nat} {key : Nat}

theorem idxOf_le_of_getElem? (h : keys[j]? = some key) : keys.idxOf key ≤ j := by
  induction keys generalizing j with
  | nil => cases h
  | cons first rest ih =>
    by_cases hfirst : first = key
    · rw [hfirst, List.idxOf_cons_self]
      exact Nat.zero_le j
    · rw [List.idxOf_cons_ne _ hfirst]
      cases j with
      | zero => exact absurd (Option.some.inj h) hfirst
      | succ j => exact Nat.succ_le_succ (ih h)

theorem get?_firstIndices_iff {index : Nat} : OrderedMap.get? (firstIndices keys) key = some index
      ↔ keys[index]? = some key ∧ ∀ j < index, keys[j]? ≠ some key := by
  rw [get?_firstIndices]
  constructor
  · intro h
    split at h
    · next hmem =>
      cases h
      refine ⟨?_, fun j hj heq => ?_⟩
      · rw [List.getElem?_eq_getElem (List.idxOf_lt_length_of_mem hmem), List.getElem_idxOf]
      · have hle := idxOf_le_of_getElem? heq
        omega
    · cases h
  · rintro ⟨hat, hfirst⟩
    have hmem := List.mem_of_getElem? hat
    rw [if_pos hmem]
    congr 1
    have hidx : keys[keys.idxOf key]? = some key := by
      rw [List.getElem?_eq_getElem (List.idxOf_lt_length_of_mem hmem), List.getElem_idxOf]
    by_contra hne
    by_cases hless : keys.idxOf key < index
    · exact hfirst _ hless hidx
    · have hle := idxOf_le_of_getElem? hat
      omega

/-! ### Back to the original -/

/-- The first positions of the normalized positions, without the end. -/
def normToOrig (origToNorm : List Nat) : OrderedMap Nat Nat := firstIndices origToNorm.dropLast

theorem get?_normToOrig_iff {position : Nat} :
    OrderedMap.get? (normToOrig (buildOrigToNormMap text)) position = some k
      ↔ k < text.length ∧ normLength text k = position := by
  have hkeys : ∀ j, (buildOrigToNormMap text).dropLast[j]?
      = if j < text.length then some (normLength text j) else none := by
    intro j
    rw [List.getElem?_dropLast, length_buildOrigToNormMap, Nat.add_sub_cancel]
    split
    · next h => exact getElem?_buildOrigToNormMap text h.le
    · rfl
  rw [normToOrig, get?_firstIndices_iff, hkeys]
  constructor
  · rintro ⟨hat, -⟩
    split at hat
    · next h => exact ⟨h, Option.some.inj hat⟩
    · cases hat
  · rintro ⟨hk, hposition⟩
    rw [if_pos hk, hposition]
    refine ⟨rfl, fun j hj => ?_⟩
    rw [hkeys, if_pos (by omega)]
    have hlt := normLength_lt hj hk.le
    intro heq
    have hsame := Option.some.inj heq
    omega

/-- The end goes to the first position that is normalized to `stop` or behind. -/
theorem advanceEnd_spec {text : JsString} {stop : Nat} (hstop : stop ≤ normLength text text.length)
    (left start : Nat) (hleft : start + left = text.length) :
    let last := advanceEnd (buildOrigToNormMap text) text.length stop left start
    start ≤ last ∧ last ≤ text.length ∧ stop ≤ normLength text last
      ∧ ∀ t, start ≤ t → t < last → normLength text t < stop := by
  induction left generalizing start with
  | zero =>
    have hstart : start = text.length := by omega
    refine ⟨le_refl _, hstart.le, ?_, fun t ht hlt => absurd ht (Nat.not_le.mpr hlt)⟩
    show stop ≤ normLength text start
    rw [hstart]
    exact hstop
  | succ left ih =>
    have hat := getElem?_buildOrigToNormMap text (show start ≤ text.length by omega)
    rw [advanceEnd, hat, Option.any_some]
    split
    · next hstep =>
      obtain ⟨hle, hlast, hreach, hbefore⟩ := ih (start + 1) (by omega)
      refine ⟨by omega, hlast, hreach, fun t ht hlt => ?_⟩
      by_cases heq : t = start
      · rw [heq]
        exact of_decide_eq_true hstep.2
      · exact hbefore t (by omega) hlt
    · next hstay =>
      refine ⟨le_refl _, by omega, ?_, fun t ht hlt => absurd ht (Nat.not_le.mpr hlt)⟩
      by_contra hless
      exact hstay ⟨by omega, decide_eq_true (by omega)⟩

end OpencodeSwarm
