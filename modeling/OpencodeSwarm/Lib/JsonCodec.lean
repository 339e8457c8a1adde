/-
  OpencodeSwarm.Lib.JsonCodec

  `JSON.stringify(row)` as the bytes of a line: what it prints is read back, has
  no newline, and a cut of it is no printed object.  So objects that determine
  their rows make a codec.
-/
import OpencodeSwarm.Lib.Json
import OpencodeSwarm.Lib.JsonLines

namespace Js

/-! ## Texts of whole characters -/

/-- The characters of a text: half of a surrogate pair is read as U+FFFD. -/
def characters : JsString → List Char
  | [] => []
  | [c] => [if isHighSurrogate c || isLowSurrogate c then Char.ofNat 0xFFFD else Char.ofNat c.toNat]
  | c :: d :: rest =>
    if isHighSurrogate c && isLowSurrogate d then
      Char.ofNat (0x10000 + (c.toNat - 0xD800) * 0x400 + (d.toNat - 0xDC00)) :: characters rest
    else
      (if isHighSurrogate c || isLowSurrogate c then Char.ofNat 0xFFFD else Char.ofNat c.toNat)
        :: characters (d :: rest)

theorem isHighSurrogate_iff (c : CodeUnit) :
    isHighSurrogate c = true ↔ 0xD800 ≤ c.toNat ∧ c.toNat < 0xDC00 := by
  unfold isHighSurrogate
  rw [Bool.and_eq_true, decide_eq_true_iff, decide_eq_true_iff, UInt16.le_iff_toNat_le,
    UInt16.lt_iff_toNat_lt]
  exact Iff.rfl

theorem isLowSurrogate_iff (c : CodeUnit) :
    isLowSurrogate c = true ↔ 0xDC00 ≤ c.toNat ∧ c.toNat < 0xE000 := by
  unfold isLowSurrogate
  rw [Bool.and_eq_true, decide_eq_true_iff, decide_eq_true_iff, UInt16.le_iff_toNat_le,
    UInt16.lt_iff_toNat_lt]
  exact Iff.rfl

theorem toNat_charOfNat (h : n < 0xD800 ∨ 0xDFFF < n ∧ n < 0x110000) :
    (Char.ofNat n).toNat = n := by
  rw [Char.ofNat, dif_pos h]
  rfl

variable {c : CodeUnit}

theorem encodeChar_of_unit (hhigh : isHighSurrogate c = false) (hlow : isLowSurrogate c = false) :
    encodeChar (Char.ofNat c.toNat) = [c] := by
  have hbound := UInt16.toNat_lt c
  have hnothigh : ¬(0xD800 ≤ c.toNat ∧ c.toNat < 0xDC00) :=
    fun h => absurd ((isHighSurrogate_iff c).mpr h) (by rw [hhigh]; decide)
  have hnotlow : ¬(0xDC00 ≤ c.toNat ∧ c.toNat < 0xE000) :=
    fun h => absurd ((isLowSurrogate_iff c).mpr h) (by rw [hlow]; decide)
  rw [encodeChar, toNat_charOfNat (by omega), if_pos (by omega), UInt16.ofNat_toNat]

variable {d : CodeUnit}

theorem encodeChar_of_pair (hc : isHighSurrogate c = true) (hd : isLowSurrogate d = true) :
    encodeChar (Char.ofNat (0x10000 + (c.toNat - 0xD800) * 0x400 + (d.toNat - 0xDC00)))
      = [c, d] := by
  rw [isHighSurrogate_iff] at hc
  rw [isLowSurrogate_iff] at hd
  rw [encodeChar, toNat_charOfNat (by omega), if_neg (by omega)]
  have hfirst : 0xD800 + (0x10000 + (c.toNat - 0xD800) * 0x400 + (d.toNat - 0xDC00) - 0x10000)
      / 0x400 = c.toNat := by omega
  have hsecond : 0xDC00 + (0x10000 + (c.toNat - 0xD800) * 0x400 + (d.toNat - 0xDC00) - 0x10000)
      % 0x400 = d.toNat := by omega
  rw [hfirst, hsecond, UInt16.ofNat_toNat, UInt16.ofNat_toNat]

/-- A text of whole characters, without half a surrogate pair. -/
def Paired (s : JsString) : Prop := (characters s).flatMap encodeChar = s

theorem paired_nil : Paired [] := rfl

variable {rest : JsString}

theorem paired_append_of_pair (hc : isHighSurrogate c = true) (hd : isLowSurrogate d = true) :
    Paired (c :: d :: rest) ↔ Paired rest := by
  unfold Paired
  rw [characters, if_pos (by rw [hc, hd]; rfl), List.flatMap_cons, encodeChar_of_pair hc hd]
  simp

theorem paired_cons_of_unit (hhigh : isHighSurrogate c = false) (hlow : isLowSurrogate c = false) :
    Paired (c :: rest) ↔ Paired rest := by
  have hplain : (isHighSurrogate c || isLowSurrogate c) = false := by rw [hhigh, hlow]; rfl
  unfold Paired
  cases rest with
  | nil =>
    have hone : characters [c] = [Char.ofNat c.toNat] := by
      rw [characters, hplain, if_neg Bool.false_ne_true]
    rw [hone, List.flatMap_singleton, encodeChar_of_unit hhigh hlow]
    exact ⟨fun _ => rfl, fun _ => rfl⟩
  | cons d rest =>
    rw [characters, if_neg (by rw [hhigh]; simp), if_neg (by rw [hplain]; decide),
      List.flatMap_cons, encodeChar_of_unit hhigh hlow]
    simp

theorem paired_append_of_plain {front : JsString}
    (h : ∀ c ∈ front, isHighSurrogate c = false ∧ isLowSurrogate c = false) :
    Paired (front ++ rest) ↔ Paired rest := by
  induction front with
  | nil => exact Iff.rfl
  | cons c front ih =>
    obtain ⟨hhigh, hlow⟩ := h c List.mem_cons_self
    rw [List.cons_append, paired_cons_of_unit hhigh hlow]
    exact ih fun d hd => h d (List.mem_cons_of_mem _ hd)

/-! ## Printed values -/

theorem plain_of_lt (h : c.toNat < 0xD800) :
    isHighSurrogate c = false ∧ isLowSurrogate c = false := by
  constructor
  · rw [Bool.eq_false_iff, Ne, isHighSurrogate_iff]
    omega
  · rw [Bool.eq_false_iff, Ne, isLowSurrogate_iff]
    omega

/-- A check that runs through a text's characters holds of each of them. -/
theorem forall_mem_of_all {text : JsString} {p : CodeUnit → Prop} [DecidablePred p]
    (h : (text.all fun c => decide (p c)) = true) : ∀ c ∈ text, p c := by
  intro c hc
  exact of_decide_eq_true (List.all_eq_true.mp h c hc)

theorem letter_of_shortEscape? {e : CodeUnit} (h : shortEscape? c = some e) :
    e.toNat < 0xD800 ∧ 0x20 ≤ e.toNat := by
  have hletter : e ∈ ([0x62, 0x74, 0x6E, 0x66, 0x72, 0x22, 0x5C] : JsString) := by
    unfold shortEscape? at h
    repeat' split at h
    all_goals
      cases h
      try decide
  have hall : ∀ d ∈ ([0x62, 0x74, 0x6E, 0x66, 0x72, 0x22, 0x5C] : JsString),
      d.toNat < 0xD800 ∧ 0x20 ≤ d.toNat := forall_mem_of_all (by decide)
  exact hall e hletter

/-- What a unit is quoted as: printable units and no surrogate. -/
theorem units_quoteUnit (c : CodeUnit) : ∀ d ∈ quoteUnit c,
    0x20 ≤ d.toNat ∧ isHighSurrogate d = false ∧ isLowSurrogate d = false := by
  have hdigit : ∀ n, n < 16 → 0x20 ≤ (hexDigit n).toNat
      ∧ isHighSurrogate (hexDigit n) = false ∧ isLowSurrogate (hexDigit n) = false := by
    intro n hn
    interval_cases n <;> decide
  intro d hd
  unfold quoteUnit at hd
  split at hd
  · rename_i e he
    rcases List.mem_cons.mp hd with rfl | hlast
    · decide
    · rw [List.mem_singleton.mp hlast]
      exact ⟨(letter_of_shortEscape? he).2, plain_of_lt (letter_of_shortEscape? he).1⟩
  split at hd
  · have hbound := UInt16.toNat_lt c
    simp only [unicodeEscape, List.mem_cons, List.not_mem_nil, or_false] at hd
    rcases hd with rfl | rfl | rfl | rfl | rfl | rfl
    · decide
    · decide
    · exact hdigit _ (by omega)
    · exact hdigit _ (by omega)
    · exact hdigit _ (by omega)
    · exact hdigit _ (by omega)
  · rename_i hplain
    simp only [Bool.or_eq_true, not_or, Bool.not_eq_true, decide_eq_false_iff_not,
      UInt16.not_lt] at hplain
    rw [List.mem_singleton.mp hd]
    exact ⟨UInt16.le_iff_toNat_le.mp hplain.1.1, hplain.1.2, hplain.2⟩

theorem paired_quoteBody_append (s rest : JsString) :
    Paired (quoteBody s ++ rest) ↔ Paired rest := by
  fun_induction quoteBody s with
  | case1 => exact Iff.rfl
  | case2 c => exact paired_append_of_plain fun d hd => (units_quoteUnit c d hd).2
  | case3 c d tail hpair ih =>
    rw [Bool.and_eq_true] at hpair
    rw [List.cons_append, List.cons_append, paired_append_of_pair hpair.1 hpair.2]
    exact ih
  | case4 c d tail hpair ih =>
    rw [List.append_assoc, paired_append_of_plain fun d hd => (units_quoteUnit c d hd).2]
    exact ih

theorem paired_cons_ascii (h : c.toNat < 0xD800) : Paired (c :: rest) ↔ Paired rest :=
  paired_cons_of_unit (plain_of_lt h).1 (plain_of_lt h).2

theorem paired_quote_append (s rest : JsString) : Paired (quote s ++ rest) ↔ Paired rest := by
  unfold quote
  rw [List.cons_append, paired_cons_ascii (by decide), List.append_assoc, paired_quoteBody_append,
    List.singleton_append, paired_cons_ascii (by decide)]

variable {parts : List JsString}

theorem paired_joinComma_append (h : ∀ part ∈ parts, ∀ rest, Paired (part ++ rest) ↔ Paired rest)
    (rest : JsString) : Paired (joinComma parts ++ rest) ↔ Paired rest := by
  induction parts with
  | nil => exact Iff.rfl
  | cons part others ih =>
    rw [joinComma_cons, h part List.mem_cons_self]
    split
    · exact Iff.rfl
    rw [paired_cons_ascii (by decide)]
    exact ih fun other hother => h other (List.mem_cons_of_mem _ hother)

/-- A printed integer is of printable units below the surrogates. -/
theorem units_integerText (n : Int) :
    ∀ c ∈ integerText n, 0x20 ≤ c.toNat ∧ c.toNat < 0xD800 := by
  have hdecimal : ∀ k, ∀ c ∈ decimal k, 0x20 ≤ c.toNat ∧ c.toNat < 0xD800 := by
    intro k c hc
    have hdigit := isDigit_of_mem_decimal hc
    rw [isDigit, Bool.and_eq_true, decide_eq_true_iff, decide_eq_true_iff, UInt16.le_iff_toNat_le,
      UInt16.le_iff_toNat_le] at hdigit
    have hzero : (0x30 : CodeUnit).toNat = 0x30 := by decide
    have hnine : (0x39 : CodeUnit).toNat = 0x39 := by decide
    omega
  intro c hc
  unfold integerText at hc
  split at hc
  · rcases List.mem_cons.mp hc with rfl | hrest
    · decide
    · exact hdecimal _ c hrest
  · exact hdecimal _ c hc

mutual
theorem Json.paired_stringify_append : (v : Json) → (rest : JsString) →
    (Paired (v.stringify ++ rest) ↔ Paired rest)
  | .null, rest => paired_append_of_plain (forall_mem_of_all (by decide))
  | .bool true, rest => paired_append_of_plain (forall_mem_of_all (by decide))
  | .bool false, rest => paired_append_of_plain (forall_mem_of_all (by decide))
  | .num n, rest => paired_append_of_plain fun c hc => plain_of_lt (units_integerText n c hc).2
  | .str s, rest => paired_quote_append s rest
  | .arr elems, rest => by
    rw [Json.stringify, List.cons_append, paired_cons_ascii (by decide), List.append_assoc,
      paired_joinComma_append (Json.paired_elems_append elems), List.singleton_append,
      paired_cons_ascii (by decide)]
  | .obj fields, rest => by
    rw [Json.stringify, List.cons_append, paired_cons_ascii (by decide), List.append_assoc,
      paired_joinComma_append (Json.paired_fields_append fields), List.singleton_append,
      paired_cons_ascii (by decide)]

theorem Json.paired_elems_append : (vs : List Json) →
    ∀ part ∈ Json.stringifyElems vs, ∀ rest, Paired (part ++ rest) ↔ Paired rest
  | [], _, hpart, _ => by cases hpart
  | v :: vs, part, hpart, rest => by
    rcases List.mem_cons.mp hpart with heq | hlater
    · rw [heq]
      exact v.paired_stringify_append rest
    · exact Json.paired_elems_append vs part hlater rest

theorem Json.paired_fields_append : (fs : List (JsString × Json)) →
    ∀ part ∈ Json.stringifyFields fs, ∀ rest, Paired (part ++ rest) ↔ Paired rest
  | [], _, hpart, _ => by cases hpart
  | (k, v) :: fs, part, hpart, rest => by
    rcases List.mem_cons.mp hpart with heq | hlater
    · rw [heq, List.append_assoc, paired_quote_append, List.cons_append,
        paired_cons_ascii (by decide)]
      exact v.paired_stringify_append rest
    · exact Json.paired_fields_append fs part hlater rest
end

theorem Json.paired_stringify (v : Json) : Paired v.stringify := by
  rw [← List.append_nil v.stringify, v.paired_stringify_append]
  exact paired_nil

/-! ## Printed units -/

theorem printable_quote (s : JsString) : ∀ c ∈ quote s, 0x20 ≤ c.toNat := by
  have hbody : ∀ c ∈ quoteBody s, 0x20 ≤ c.toNat := by
    fun_induction quoteBody s with
    | case1 => exact List.forall_mem_nil _
    | case2 c => exact fun d hd => (units_quoteUnit c d hd).1
    | case3 c d tail hpair ih =>
      rw [Bool.and_eq_true, isHighSurrogate_iff, isLowSurrogate_iff] at hpair
      intro e he
      rcases List.mem_cons.mp he with rfl | hlater
      · omega
      · rcases List.mem_cons.mp hlater with rfl | htail
        · omega
        · exact ih e htail
    | case4 c d tail hpair ih =>
      intro e he
      rcases List.mem_append.mp he with hfirst | hlater
      · exact (units_quoteUnit c e hfirst).1
      · exact ih e hlater
  intro c hc
  rcases List.mem_cons.mp hc with rfl | hrest
  · decide
  · rcases List.mem_append.mp hrest with hinner | hlast
    · exact hbody c hinner
    · rw [List.mem_singleton.mp hlast]
      decide

theorem printable_joinComma (h : ∀ part ∈ parts, ∀ c ∈ part, 0x20 ≤ c.toNat) :
    ∀ c ∈ joinComma parts, 0x20 ≤ c.toNat := by
  induction parts with
  | nil => exact List.forall_mem_nil _
  | cons part others ih =>
    intro c hc
    rw [← List.append_nil (joinComma (part :: others)), joinComma_cons] at hc
    rcases List.mem_append.mp hc with hfirst | hlater
    · exact h part List.mem_cons_self c hfirst
    split at hlater
    · cases hlater
    rcases List.mem_cons.mp hlater with rfl | hrest
    · decide
    · rw [List.append_nil] at hrest
      exact ih (fun other hother => h other (List.mem_cons_of_mem _ hother)) c hrest

variable {first last : CodeUnit} {inner : JsString}

theorem printable_bracketed (hfirst : 0x20 ≤ first.toNat) (hlast : 0x20 ≤ last.toNat)
    (hinner : ∀ c ∈ inner, 0x20 ≤ c.toNat) : ∀ c ∈ first :: (inner ++ [last]), 0x20 ≤ c.toNat := by
  intro c hc
  rcases List.mem_cons.mp hc with rfl | hrest
  · exact hfirst
  · rcases List.mem_append.mp hrest with hmiddle | hend
    · exact hinner c hmiddle
    · rw [List.mem_singleton.mp hend]
      exact hlast

mutual
theorem Json.printable_stringify : (v : Json) → ∀ c ∈ v.stringify, 0x20 ≤ c.toNat
  | .null => forall_mem_of_all (by decide)
  | .bool true => forall_mem_of_all (by decide)
  | .bool false => forall_mem_of_all (by decide)
  | .num n => fun c hc => (units_integerText n c hc).1
  | .str s => printable_quote s
  | .arr elems =>
    printable_bracketed (by decide) (by decide)
      (printable_joinComma (Json.printable_elems elems))
  | .obj fields =>
    printable_bracketed (by decide) (by decide)
      (printable_joinComma (Json.printable_fields fields))

theorem Json.printable_elems :
    (vs : List Json) → ∀ part ∈ Json.stringifyElems vs, ∀ c ∈ part, 0x20 ≤ c.toNat
  | [], _, hpart, _, _ => by cases hpart
  | v :: vs, part, hpart, c, hc => by
    rcases List.mem_cons.mp hpart with heq | hlater
    · rw [heq] at hc
      exact v.printable_stringify c hc
    · exact Json.printable_elems vs part hlater c hc

theorem Json.printable_fields :
    (fs : List (JsString × Json)) → ∀ part ∈ Json.stringifyFields fs, ∀ c ∈ part, 0x20 ≤ c.toNat
  | [], _, hpart, _, _ => by cases hpart
  | (k, v) :: fs, part, hpart, c, hc => by
    rcases List.mem_cons.mp hpart with heq | hlater
    · rw [heq] at hc
      rcases List.mem_append.mp hc with hkey | hvalue
      · exact printable_quote k c hkey
      · rcases List.mem_cons.mp hvalue with rfl | hrest
        · decide
        · exact v.printable_stringify c hrest
    · exact Json.printable_fields fs part hlater c hc
end

/-! ## Objects -/

theorem Json.obj_append_inj {fields fields' : List (JsString × Json)} {r r' : JsString}
    (h : (Json.obj fields).stringify ++ r = (Json.obj fields').stringify ++ r') :
    fields = fields' ∧ r = r' := by
  simp only [Json.stringify, Json.stringifyFields_eq_map, List.cons_append, List.append_assoc,
    List.nil_append, List.cons.injEq, true_and] at h
  have hhead : ∀ f : JsString × Json,
      ∃ c rest, Json.stringifyField f = c :: rest ∧ c ≠ 0x7D :=
    fun f => ⟨0x22, _, rfl, by decide⟩
  exact joinComma_append_inj (by decide) (by decide) hhead
    (fun f _ => readsUniquely_field f.2.readsUniquely) h

theorem Json.obj_bracketed (fields : List (JsString × Json)) :
    ∃ inner, (Json.obj fields).stringify = 0x7B :: (inner ++ [0x7D]) := ⟨_, rfl⟩

theorem trim_of_ends (hfirst : isSpace first = false) (hlast : isSpace last = false) :
    trim (first :: (inner ++ [last])) = first :: (inner ++ [last]) := by
  unfold trim
  rw [List.dropWhile_cons_of_neg (by rw [hfirst]; exact Bool.false_ne_true), List.reverse_cons,
    List.reverse_append, List.reverse_singleton, List.singleton_append, List.cons_append,
    List.dropWhile_cons_of_neg (by rw [hlast]; exact Bool.false_ne_true)]
  simp

theorem Json.trim_obj (fields : List (JsString × Json)) :
    trim (Json.obj fields).stringify = (Json.obj fields).stringify := by
  exact trim_of_ends (by decide) (by decide)

theorem trim_of_head {first : CodeUnit} {rest : JsString} (hfirst : isSpace first = false) :
    ∃ after, first :: rest = trim (first :: rest) ++ after ∧ ∀ c ∈ after, isSpace c = true := by
  rw [trim, List.dropWhile_cons_of_neg (by rw [hfirst]; exact Bool.false_ne_true)]
  refine ⟨(List.takeWhile isSpace (first :: rest).reverse).reverse, ?_, ?_⟩
  · rw [← List.reverse_append, List.takeWhile_append_dropWhile, List.reverse_reverse]
  · intro c hc
    exact List.mem_takeWhile_imp (List.mem_reverse.mp hc)

/-! ## Bytes -/

/-- `JSON.stringify(value)`, as the bytes that are written. -/
def Json.bytes (v : Json) : List UInt8 := encodeUtf8 (characters v.stringify)

theorem Json.decodeUtf8_bytes (v : Json) : decodeUtf8 v.bytes = v.stringify := by
  rw [Json.bytes, decodeUtf8_encodeUtf8]
  exact v.paired_stringify

theorem Json.newline_notMem_bytes (v : Json) : JsonLines.newline ∉ v.bytes := by
  intro hmem
  obtain ⟨left, right, hbytes⟩ := List.append_of_mem hmem
  have hdecode := JsonLines.decodeUtf8_append_newline left right
  rw [← hbytes, v.decodeUtf8_bytes] at hdecode
  have hunit : JsonLines.newlineUnit ∈ v.stringify := by
    rw [hdecode]
    simp
  have hprinted := v.printable_stringify _ hunit
  revert hprinted
  decide

/-- A cut of a printed object is no printed object, whatever is trimmed off. -/
theorem Json.trim_cut_ne {fields other : List (JsString × Json)} {part : List UInt8}
    (hpart : part <+: (Json.obj fields).bytes) (hcut : part ≠ (Json.obj fields).bytes) :
    trim (decodeUtf8 part) ≠ (Json.obj other).stringify := by
  intro htrim
  obtain ⟨inner, hinner⟩ := Json.obj_bracketed other
  obtain ⟨front, hfront, hcases⟩ := decodeUtf8_cut hpart
  obtain ⟨behind, hbehind⟩ := hfront
  have hwhole : front.flatMap encodeChar ++ behind.flatMap encodeChar
      = (Json.obj fields).stringify := by
    have hpaired : (characters (Json.obj fields).stringify).flatMap encodeChar
        = (Json.obj fields).stringify := (Json.obj fields).paired_stringify
    rw [← hbehind, List.flatMap_append] at hpaired
    exact hpaired
  -- nothing stands before the brace that the text begins with
  have hshape : ∃ after, decodeUtf8 part = (Json.obj other).stringify ++ after
      ∧ ∀ c ∈ after, isSpace c = true := by
    cases hdecoded : decodeUtf8 part with
    | nil =>
      rw [hdecoded, hinner] at htrim
      cases htrim
    | cons first rest =>
      have hfirst : isSpace first = false := by
        rcases hcases with ⟨hdecode, -⟩ | hdecode
        · cases hunits : front.flatMap encodeChar with
          | nil =>
            rw [hdecode, hunits] at hdecoded
            cases hdecoded
          | cons unit units =>
            obtain ⟨body, hbody⟩ := Json.obj_bracketed fields
            rw [hunits, hbody] at hwhole
            rw [hdecode, hunits] at hdecoded
            rw [← (List.cons.inj hdecoded).1, (List.cons.inj hwhole).1]
            decide
        · cases hunits : front.flatMap encodeChar with
          | nil =>
            rw [hdecode, hunits] at hdecoded
            rw [← (List.cons.inj hdecoded).1]
            decide
          | cons unit units =>
            obtain ⟨body, hbody⟩ := Json.obj_bracketed fields
            rw [hunits, hbody] at hwhole
            rw [hdecode, hunits] at hdecoded
            rw [← (List.cons.inj hdecoded).1, (List.cons.inj hwhole).1]
            decide
      obtain ⟨after, hafter, hspaces⟩ := @trim_of_head first rest hfirst
      rw [hdecoded] at htrim
      rw [htrim] at hafter
      exact ⟨after, hafter, hspaces⟩
  obtain ⟨after, hafter, hspaces⟩ := hshape
  rcases hcases with ⟨hdecode, hbytes⟩ | hdecode
  · -- whole characters: the object would end before its end
    rw [hdecode] at hafter
    rw [hafter, List.append_assoc] at hwhole
    have hsame : (Json.obj other).stringify ++ (after ++ behind.flatMap encodeChar)
        = (Json.obj fields).stringify ++ [] := by
      rw [hwhole, List.append_nil]
    have hnothing := (Json.obj_append_inj hsame).2
    have hbehindNil : behind = [] := by
      cases behind with
      | nil => rfl
      | cons c later =>
        have hchar : encodeChar c ≠ [] := by
          unfold encodeChar
          split <;> exact List.cons_ne_nil _ _
        exact absurd (List.append_eq_nil_iff.mp (List.append_eq_nil_iff.mp hnothing).2).1 hchar
    rw [hbehindNil, List.append_nil] at hbehind
    apply hcut
    rw [hbytes, hbehind]
    rfl
  · -- a replacement is neither a brace nor blank
    rw [hdecode, hinner, ← List.cons_append, List.append_assoc] at hafter
    rcases List.eq_nil_or_concat after with hnil | ⟨before, last, hlast⟩
    · rw [hnil, List.append_nil] at hafter
      have hend := (List.append_inj' hafter rfl).2
      exact absurd hend (by decide)
    · rw [hlast, List.concat_eq_append, ← List.append_assoc, ← List.append_assoc] at hafter
      have hend := (List.append_inj' hafter rfl).2
      have hspace := hspaces last (by rw [hlast, List.concat_eq_append]; simp)
      rw [← List.singleton_inj.mp hend] at hspace
      exact absurd hspace (by decide)

end Js

namespace JsonLines

open Js

/-! ## Codecs of printed objects -/

section Printed

variable {Row Value : Type*} (fields : Row → List (JsString × Json)) (toValue : Row → Value)

open Classical in
/-- The row whose object was printed. -/
noncomputable def readPrinted (text : JsString) : Option Value :=
  if h : ∃ row, (Json.obj (fields row)).stringify = text then some (toValue h.choose) else none

/-- Rows that are printed as objects which determine them. -/
noncomputable def Codec.printed (hinjective : Function.Injective fields) : Codec Row Value where
  toValue := toValue
  line row := (Json.obj (fields row)).bytes
  parse := readPrinted fields toValue
  newline_notMem row := Json.newline_notMem_bytes _
  notBlank row := by
    rw [Json.decodeUtf8_bytes, Json.trim_obj]
    obtain ⟨inner, hinner⟩ := Json.obj_bracketed (fields row)
    rw [hinner]
    exact List.cons_ne_nil _ _
  parse_line row := by
    rw [Json.decodeUtf8_bytes, Json.trim_obj]
    unfold readPrinted
    have hexists : ∃ other, (Json.obj (fields other)).stringify
        = (Json.obj (fields row)).stringify := ⟨row, rfl⟩
    rw [dif_pos hexists]
    have hsame := Json.stringify_injective hexists.choose_spec
    rw [hinjective (Json.obj.inj hsame)]
  parse_cut row part hpart hcut := by
    unfold readPrinted
    rw [dif_neg]
    rintro ⟨other, hother⟩
    exact Json.trim_cut_ne hpart hcut hother.symm

end Printed

end JsonLines
