/-
  OpencodeSwarm.Utils.StableStringify

  `src/utils/stable-stringify.ts`: the canonical text of a value, which callers
  hash to compare values.  The text is a faithful fingerprint of a JSON value up
  to the order of keys: an induction on the value shows that a text followed by
  a delimiter is read back in one way, and a sorted list of keys is a function
  of the set of keys.
-/
import OpencodeSwarm.Lib.Json
import OpencodeSwarm.Lib.OrderedMap
import OpencodeSwarm.Utils.PlainValue

namespace OpencodeSwarm

open Js

/-! ## The source -/

section StableStringify

variable {N : Type*} (numberText : N → JsString)

mutual
/-- `numberText` is `JSON.stringify` on a number. -/
def stableCanonicalStringify : PlainValue N → JsString
  | .undefined => js "null"
  | .null => js "null"
  | .bool true => js "true"
  | .bool false => js "false"
  | .num n => numberText n
  | .str s => quote s
  | .arr elems => 0x5B :: (joinComma (stableElemTexts elems) ++ [0x5D])
  | .obj fields =>
    let texts := stablePropertyTexts fields
    let keys := sortStrings (OrderedMap.keys texts)
    let entries := keys.map fun k => quote k ++ 0x3A :: (OrderedMap.get? texts k).getD []
    0x7B :: (joinComma entries ++ [0x7D])

def stableElemTexts : List (PlainValue N) → List JsString
  | [] => []
  | v :: rest => stableCanonicalStringify v :: stableElemTexts rest

/-- `stableCanonicalStringify(obj[k])` for each key `k`. -/
def stablePropertyTexts : List (JsString × PlainValue N) → OrderedMap JsString JsString
  | [] => []
  | (k, v) :: rest => (k, stableCanonicalStringify v) :: stablePropertyTexts rest
end

theorem stableElemTexts_eq_map (elems : List (PlainValue N)) :
    stableElemTexts numberText elems = elems.map (stableCanonicalStringify numberText) := by
  induction elems with
  | nil => rfl
  | cons v rest ih => rw [stableElemTexts, ih, List.map_cons]

theorem stablePropertyTexts_eq_map (fields : List (JsString × PlainValue N)) :
    stablePropertyTexts numberText fields
      = fields.map fun f => (f.1, stableCanonicalStringify numberText f.2) := by
  induction fields with
  | nil => rfl
  | cons f rest ih => rw [stablePropertyTexts, ih, List.map_cons]

end StableStringify

/-! ## Equality up to the order of keys -/

/-- Two values that differ at most in the order of keys, at any depth. -/
inductive SameUpToKeyOrder {N : Type*} : PlainValue N → PlainValue N → Prop
  | null : SameUpToKeyOrder .null .null
  | bool (b : Bool) : SameUpToKeyOrder (.bool b) (.bool b)
  | num (n : N) : SameUpToKeyOrder (.num n) (.num n)
  | str (s : JsString) : SameUpToKeyOrder (.str s) (.str s)
  | arr {elems elems' : List (PlainValue N)} (hlength : elems.length = elems'.length)
      (helems : ∀ p ∈ elems.zip elems', SameUpToKeyOrder p.1 p.2) :
      SameUpToKeyOrder (.arr elems) (.arr elems')
  | obj {fields fields' : List (JsString × PlainValue N)}
      (hkeys : (fields.map Prod.fst).Perm (fields'.map Prod.fst))
      (hfields : ∀ f ∈ fields, ∀ g ∈ fields', f.1 = g.1 → SameUpToKeyOrder f.2 g.2) :
      SameUpToKeyOrder (.obj fields) (.obj fields')

/-! ## Number tokens -/

/-- The units of a number's text. -/
def isNumberUnit (c : CodeUnit) : Bool :=
  isDigit c || c == 0x2D || c == 0x2B || c == 0x2E || c == 0x65

/-- What is relied on of `JSON.stringify` on numbers: one text belongs to one
    number, and it is a token of its own. -/
structure NumberTokens {N : Type*} (numberText : N → JsString) : Prop where
  injective : Function.Injective numberText
  nonempty : ∀ n, numberText n ≠ []
  units : ∀ n, ∀ c ∈ numberText n, isNumberUnit c = true

/-- `r` does not continue a number. -/
def EndsNumber (r : JsString) : Prop := ∀ c ∈ r.head?, isNumberUnit c = false

theorem endsNumber_cons {c : CodeUnit} (hc : isNumberUnit c = false) (r : JsString) :
    EndsNumber (c :: r) := by simpa [EndsNumber] using hc

theorem numberTokens_integerText : NumberTokens integerText where
  injective := by
    intro n m h
    have htext : integerText n ++ [] = integerText m ++ [] := by rw [h]
    exact (readsUniquely_integerText n m [] [] htext delimits_nil delimits_nil).1
  nonempty := by
    intro n
    unfold integerText
    split
    · exact List.cons_ne_nil _ _
    · exact decimal_ne_nil _
  units := by
    intro n c hc
    have hdigit : ∀ d ∈ decimal n.natAbs, isNumberUnit d = true := by
      intro d hd
      simp [isNumberUnit, isDigit_of_mem_decimal hd]
    unfold integerText at hc
    split at hc
    · rcases List.mem_cons.mp hc with rfl | hrest
      · decide
      · exact hdigit c hrest
    · exact hdigit c hc

/-! ## The text determines the value -/

section Reading

variable {N : Type*} {numberText : N → JsString} {r : JsString}

theorem takeWhile_numberText (hnumbers : NumberTokens numberText) (n : N) (hr : EndsNumber r) :
    (numberText n ++ r).takeWhile isNumberUnit = numberText n := by
  have hnil : r.takeWhile isNumberUnit = [] := by
    cases r with
    | nil => rfl
    | cons c r => simp [hr c (by simp)]
  rw [List.takeWhile_append_of_pos (hnumbers.units n), hnil, List.append_nil]

variable {r' : JsString}

theorem numberText_append_inj (hnumbers : NumberTokens numberText) {n m : N}
    (h : numberText n ++ r = numberText m ++ r') (hr : EndsNumber r) (hr' : EndsNumber r') :
    n = m ∧ r = r' := by
  have htext : numberText n = numberText m := by
    rw [← takeWhile_numberText hnumbers n hr, h, takeWhile_numberText hnumbers m hr']
  exact ⟨hnumbers.injective htext, List.append_cancel_left (htext ▸ h)⟩

/-- Which constructor a text starts, by its first unit. -/
def tokenKind (c : CodeUnit) : Kind := if isNumberUnit c then .num else kindOfUnit c

def PlainValue.kind : PlainValue N → Kind
  | .undefined => .none
  | .null => .null
  | .bool true => .true
  | .bool false => .false
  | .num _ => .num
  | .str _ => .str
  | .arr _ => .arr
  | .obj _ => .obj

variable {v : PlainValue N}

theorem stableCanonicalStringify_head (hnumbers : NumberTokens numberText) (hv : v.IsJson) :
    ∃ c rest, stableCanonicalStringify numberText v = c :: rest ∧ tokenKind c = v.kind := by
  cases hv with
  | null => exact ⟨0x6E, js "ull", by simp only [stableCanonicalStringify]; decide,
      by simp only [PlainValue.kind]; decide⟩
  | bool b =>
    cases b with
    | true => exact ⟨0x74, js "rue", by simp only [stableCanonicalStringify]; decide,
        by simp only [PlainValue.kind]; decide⟩
    | false => exact ⟨0x66, js "alse", by simp only [stableCanonicalStringify]; decide,
        by simp only [PlainValue.kind]; decide⟩
  | num n =>
    cases htext : numberText n with
    | nil => exact absurd htext (hnumbers.nonempty n)
    | cons c rest =>
      have hc : isNumberUnit c = true := hnumbers.units n c (htext ▸ List.mem_cons_self)
      refine ⟨c, rest, ?_, ?_⟩
      · rw [stableCanonicalStringify, htext]
      · rw [tokenKind, if_pos hc, PlainValue.kind]
  | str s => exact ⟨0x22, _, rfl, by simp only [PlainValue.kind]; decide⟩
  | arr _ => exact ⟨0x5B, _, rfl, by simp only [PlainValue.kind]; decide⟩
  | obj _ _ => exact ⟨0x7B, _, rfl, by simp only [PlainValue.kind]; decide⟩

variable {w : PlainValue N}

theorem kind_eq_of_stableText (hnumbers : NumberTokens numberText) (hv : v.IsJson) (hw : w.IsJson)
    (h : stableCanonicalStringify numberText v ++ r = stableCanonicalStringify numberText w ++ r') :
    v.kind = w.kind := by
  obtain ⟨c, cs, hc, hcv⟩ := stableCanonicalStringify_head hnumbers hv
  obtain ⟨d, ds, hd, hdw⟩ := stableCanonicalStringify_head hnumbers hw
  rw [hc, hd, List.cons_append, List.cons_append] at h
  rw [← hcv, ← hdw, (List.cons.inj h).1]

variable {fields : List (JsString × PlainValue N)}

/-- The text looked up for the key of a property is that of its value. -/
theorem get?_stablePropertyTexts (hkeys : (fields.map Prod.fst).Nodup) {f : JsString × PlainValue N}
    (hf : f ∈ fields) : OrderedMap.get? (stablePropertyTexts numberText fields) f.1
      = some (stableCanonicalStringify numberText f.2) := by
  rw [stablePropertyTexts_eq_map]
  apply OrderedMap.get?_of_mem
  · rw [OrderedMap.keys, List.map_map]
    exact hkeys
  · exact List.mem_map.mpr ⟨f, hf, rfl⟩

theorem keys_stablePropertyTexts (fields : List (JsString × PlainValue N)) :
    OrderedMap.keys (stablePropertyTexts numberText fields) = fields.map Prod.fst := by
  rw [stablePropertyTexts_eq_map, OrderedMap.keys, List.map_map]
  rfl

/-- What the text of `v`, followed by a delimiter, says of another value with
    the same text. -/
def ReadsUpToKeyOrder (numberText : N → JsString) (v : PlainValue N) : Prop :=
  v.IsJson → ∀ w, w.IsJson → ∀ r r',
    stableCanonicalStringify numberText v ++ r = stableCanonicalStringify numberText w ++ r' →
      EndsNumber r → EndsNumber r' → SameUpToKeyOrder v w ∧ r = r'

theorem head_ne_of_isJson (hnumbers : NumberTokens numberText) (hv : v.IsJson) :
    ∃ c rest, stableCanonicalStringify numberText v = c :: rest ∧ c ≠ 0x5D := by
  obtain ⟨c, rest, hc, hkind⟩ := stableCanonicalStringify_head hnumbers hv
  refine ⟨c, rest, hc, ?_⟩
  rintro rfl
  cases hv with
  | bool b => cases b <;> cases hkind
  | _ => cases hkind

theorem readsUpToKeyOrder_arr (hnumbers : NumberTokens numberText)
    {elems : List (PlainValue N)} (ih : ∀ v ∈ elems, ReadsUpToKeyOrder numberText v) :
    ReadsUpToKeyOrder numberText (.arr elems) := by
  intro hv w hw r r' htext hr hr'
  have hkind := kind_eq_of_stableText hnumbers hv hw htext
  cases hw with
  | @arr elems' helems' =>
    simp only [stableCanonicalStringify, stableElemTexts_eq_map, List.cons_append,
      List.append_assoc, List.nil_append, List.cons.injEq, true_and] at htext
    have hpairs : List.Forall₂ SameUpToKeyOrder elems elems' ∧ r = r' := by
      refine joinComma_append_forall₂ (by decide) (fun _ => endsNumber_cons (by decide) _)
        (fun _ => endsNumber_cons (by decide) _) ?_ ?_ ?_ htext
      · exact fun v hmem => head_ne_of_isJson hnumbers (hv.of_mem_arr hmem)
      · exact fun v hmem => head_ne_of_isJson hnumbers (helems' v hmem)
      · intro v hmem w hmem' s s' h hs hs'
        exact ih v hmem (hv.of_mem_arr hmem) w (helems' w hmem') s s' h hs hs'
    obtain ⟨hlength, hzip⟩ := List.forall₂_iff_zip.mp hpairs.1
    exact ⟨.arr hlength fun p hp => hzip hp, hpairs.2⟩
  | bool b => cases b <;> cases hkind
  | _ => cases hkind

theorem readsUpToKeyOrder_obj (hnumbers : NumberTokens numberText)
    (ih : ∀ f ∈ fields, ReadsUpToKeyOrder numberText f.2) :
    ReadsUpToKeyOrder numberText (.obj fields) := by
  intro hv w hw r r' htext hr hr'
  have hkind := kind_eq_of_stableText hnumbers hv hw htext
  cases hw with
  | @obj fields' hkeys' hfields' =>
    simp only [stableCanonicalStringify, keys_stablePropertyTexts, List.cons_append,
      List.append_assoc, List.nil_append, List.cons.injEq, true_and] at htext
    have hpairs : List.Forall₂
        (fun k k' => k = k' ∧ ∀ f ∈ fields, ∀ g ∈ fields', f.1 = k → g.1 = k' →
          SameUpToKeyOrder f.2 g.2)
        (sortStrings (fields.map Prod.fst)) (sortStrings (fields'.map Prod.fst)) ∧ r = r' := by
      refine joinComma_append_forall₂ (by decide) (fun _ => endsNumber_cons (by decide) _)
        (fun _ => endsNumber_cons (by decide) _) ?_ ?_ ?_ htext
      · exact fun k _ => ⟨0x22, _, rfl, by decide⟩
      · exact fun k _ => ⟨0x22, _, rfl, by decide⟩
      · intro k hk k' hk' s s' h hs hs'
        obtain ⟨f, hf, rfl⟩ := List.mem_map.mp ((sortStrings_perm _).mem_iff.mp hk)
        obtain ⟨g, hg, rfl⟩ := List.mem_map.mp ((sortStrings_perm _).mem_iff.mp hk')
        rw [get?_stablePropertyTexts hv.nodup_keys hf, get?_stablePropertyTexts hkeys' hg,
          Option.getD_some, Option.getD_some, List.append_assoc, List.append_assoc] at h
        obtain ⟨hkey, hrest⟩ := quote_append_inj h
        obtain ⟨hsame, htail⟩ := ih f hf (hv.of_mem_obj hf) g.2 (hfields' g hg) s s'
          (List.cons.inj hrest).2 hs hs'
        refine ⟨⟨hkey, fun f' hf' g' hg' hfst hgst => ?_⟩, htail⟩
        -- a key has one property
        obtain rfl := List.inj_on_of_nodup_map hv.nodup_keys hf' hf hfst
        obtain rfl := List.inj_on_of_nodup_map hkeys' hg' hg hgst
        exact hsame
    have hsorted : sortStrings (fields.map Prod.fst) = sortStrings (fields'.map Prod.fst) := by
      rw [← List.forall₂_eq_eq_eq]
      exact hpairs.1.imp fun _ _ hrel => hrel.1
    refine ⟨.obj (sortStrings_eq_iff_perm.mp hsorted) ?_, hpairs.2⟩
    intro f hf g hg hkey
    have hmem : f.1 ∈ sortStrings (fields.map Prod.fst) :=
      (sortStrings_perm _).mem_iff.mpr (List.mem_map_of_mem hf)
    obtain ⟨k', -, heq, hsame⟩ := exists_of_forall₂ hpairs.1 hmem
    exact hsame f hf g hg rfl (hkey.symm.trans heq)
  | bool b => cases b <;> cases hkind
  | _ => cases hkind

theorem readsUpToKeyOrder (hnumbers : NumberTokens numberText) (v : PlainValue N) :
    ReadsUpToKeyOrder numberText v := by
  induction v using PlainValue.treeInduction with
  | undefined => exact fun hv => nomatch hv
  | null =>
    intro hv w hw r r' h _ _
    have hkind := kind_eq_of_stableText hnumbers hv hw h
    cases hw with
    | null => exact ⟨.null, List.append_cancel_left h⟩
    | bool b => cases b <;> cases hkind
    | _ => cases hkind
  | bool b =>
    intro hv w hw r r' h _ _
    have hkind := kind_eq_of_stableText hnumbers hv hw h
    cases hw with
    | bool b' =>
      have hb : b = b' := by cases b <;> cases b' <;> first | rfl | cases hkind
      subst hb
      exact ⟨.bool b, List.append_cancel_left h⟩
    | _ => cases b <;> cases hkind
  | num n =>
    intro hv w hw r r' h hr hr'
    have hkind := kind_eq_of_stableText hnumbers hv hw h
    cases hw with
    | num m =>
      obtain ⟨rfl, htail⟩ := numberText_append_inj hnumbers h hr hr'
      exact ⟨.num n, htail⟩
    | bool b => cases b <;> cases hkind
    | _ => cases hkind
  | str s =>
    intro hv w hw r r' h _ _
    have hkind := kind_eq_of_stableText hnumbers hv hw h
    cases hw with
    | str t =>
      obtain ⟨rfl, htail⟩ := quote_append_inj h
      exact ⟨.str s, htail⟩
    | bool b => cases b <;> cases hkind
    | _ => cases hkind
  | arr elems ih => exact readsUpToKeyOrder_arr hnumbers ih
  | obj fields ih => exact readsUpToKeyOrder_obj hnumbers ih

/-! ## The text is a function of the value up to key order -/

theorem stableCanonicalStringify_congr (h : SameUpToKeyOrder v w) (hv : v.IsJson) (hw : w.IsJson) :
    stableCanonicalStringify numberText v = stableCanonicalStringify numberText w := by
  induction h with
  | null | bool b | num n | str s => rfl
  | @arr elems elems' hlength _ ih =>
    have htexts : elems.map (stableCanonicalStringify numberText)
        = elems'.map (stableCanonicalStringify numberText) := by
      rw [← List.forall₂_eq_eq_eq, List.forall₂_map_left_iff, List.forall₂_map_right_iff,
        List.forall₂_iff_zip]
      refine ⟨hlength, fun {a b} hab => ?_⟩
      obtain ⟨ha, hb⟩ := List.of_mem_zip hab
      exact ih (a, b) hab (hv.of_mem_arr ha) (hw.of_mem_arr hb)
    rw [stableCanonicalStringify, stableCanonicalStringify, stableElemTexts_eq_map,
      stableElemTexts_eq_map, htexts]
  | @obj fields fields' hkeys _ ih =>
    have hsorted : sortStrings (fields.map Prod.fst) = sortStrings (fields'.map Prod.fst) :=
      sortStrings_eq_iff_perm.mpr hkeys
    have hentries : ∀ k ∈ sortStrings (fields'.map Prod.fst),
        OrderedMap.get? (stablePropertyTexts numberText fields) k
          = OrderedMap.get? (stablePropertyTexts numberText fields') k := by
      intro k hk
      have hk' : k ∈ fields'.map Prod.fst := (sortStrings_perm _).mem_iff.mp hk
      obtain ⟨g, hg, rfl⟩ := List.mem_map.mp hk'
      obtain ⟨f, hf, hkey⟩ := List.mem_map.mp (hkeys.mem_iff.mpr hk')
      rw [get?_stablePropertyTexts hw.nodup_keys hg, ← hkey,
        get?_stablePropertyTexts hv.nodup_keys hf,
        ih f hf g hg hkey (hv.of_mem_obj hf) (hw.of_mem_obj hg)]
    simp only [stableCanonicalStringify, keys_stablePropertyTexts, hsorted]
    rw [List.map_congr_left fun k hk => by rw [hentries k hk]]

/-- The canonical text is a fingerprint of a JSON value up to the order of keys. -/
theorem stableCanonicalStringify_eq_iff (hnumbers : NumberTokens numberText)
    {v w : PlainValue N} (hv : v.IsJson) (hw : w.IsJson) :
    stableCanonicalStringify numberText v = stableCanonicalStringify numberText w
      ↔ SameUpToKeyOrder v w := by
  constructor
  · intro h
    have htext : stableCanonicalStringify numberText v ++ []
        = stableCanonicalStringify numberText w ++ [] := by rw [h]
    have hends : EndsNumber [] := by simp [EndsNumber]
    exact (readsUpToKeyOrder hnumbers v hv w hw [] [] htext hends hends).1
  · exact fun h => stableCanonicalStringify_congr h hv hw

end Reading

/-- A call's arguments, and the same ones with the keys of the inner object exchanged. -/
def sampleArguments : PlainValue Int :=
  .obj [(js "b", .arr [.num 1, .null]), (js "a", .obj [(js "x", .bool true), (js "y", .str (js "]"))])]

def sampleReordered : PlainValue Int :=
  .obj [(js "a", .obj [(js "y", .str (js "]")), (js "x", .bool true)]), (js "b", .arr [.num 1, .null])]

theorem isJson_sampleArguments : sampleArguments.IsJson := by
  refine .obj (by decide) ?_
  simp only [List.forall_mem_cons, List.not_mem_nil, false_imp_iff, implies_true, and_true]
  refine ⟨.arr ?_, .obj (by decide) ?_⟩
  · simp only [List.forall_mem_cons, List.not_mem_nil, false_imp_iff, implies_true, and_true]
    exact ⟨.num 1, .null⟩
  · simp only [List.forall_mem_cons, List.not_mem_nil, false_imp_iff, implies_true, and_true]
    exact ⟨.bool true, .str _⟩

theorem isJson_sampleReordered : sampleReordered.IsJson := by
  refine .obj (by decide) ?_
  simp only [List.forall_mem_cons, List.not_mem_nil, false_imp_iff, implies_true, and_true]
  refine ⟨.obj (by decide) ?_, .arr ?_⟩
  · simp only [List.forall_mem_cons, List.not_mem_nil, false_imp_iff, implies_true, and_true]
    exact ⟨.str _, .bool true⟩
  · simp only [List.forall_mem_cons, List.not_mem_nil, false_imp_iff, implies_true, and_true]
    exact ⟨.num 1, .null⟩

theorem sameUpToKeyOrder_sample : SameUpToKeyOrder sampleArguments sampleReordered :=
  (stableCanonicalStringify_eq_iff numberTokens_integerText isJson_sampleArguments
    isJson_sampleReordered).mp (by decide +kernel)

end OpencodeSwarm
