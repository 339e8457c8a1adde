/-
  OpencodeSwarm.Lib.Json

  JSON values and `JSON.stringify` on them, as code-unit strings.  The main
  result is that the text determines the value (`Json.stringify_injective`):
  a printed value is never a proper prefix of another printed value followed
  by a delimiter, which is what `ReadsUniquely` says one constructor at a time.
-/
import OpencodeSwarm.Lib.JsString
import Mathlib.Tactic.IntervalCases

namespace Js

/-! ## Quoting -/

/-- Lowercase hexadecimal digit, as `UnicodeEscape` prints it. -/
def hexDigit (n : Nat) : CodeUnit :=
  if n < 10 then UInt16.ofNat (0x30 + n) else UInt16.ofNat (0x57 + n)

/-- `\uXXXX`. -/
def unicodeEscape (c : CodeUnit) : JsString :=
  [0x5C, 0x75, hexDigit (c.toNat / 4096), hexDigit (c.toNat / 256 % 16),
    hexDigit (c.toNat / 16 % 16), hexDigit (c.toNat % 16)]

def isHighSurrogate (c : CodeUnit) : Bool := 0xD800 ≤ c && c < 0xDC00
def isLowSurrogate (c : CodeUnit) : Bool := 0xDC00 ≤ c && c < 0xE000

/-- The letter of the two-unit escapes `\b \t \n \f \r \" \\`. -/
def shortEscape? (c : CodeUnit) : Option CodeUnit :=
  if c = 0x08 then some 0x62
  else if c = 0x09 then some 0x74
  else if c = 0x0A then some 0x6E
  else if c = 0x0C then some 0x66
  else if c = 0x0D then some 0x72
  else if c = 0x22 then some 0x22
  else if c = 0x5C then some 0x5C
  else none

/-- One unit that is not half of a surrogate pair. -/
def quoteUnit (c : CodeUnit) : JsString :=
  match shortEscape? c with
  | some e => [0x5C, e]
  | none =>
    if c < 0x20 || isHighSurrogate c || isLowSurrogate c then unicodeEscape c else [c]

/-- The body of a quoted string: surrogate pairs are copied, everything else
    goes through `quoteUnit`. -/
def quoteBody : JsString → JsString
  | [] => []
  | [c] => quoteUnit c
  | c :: d :: rest =>
    if isHighSurrogate c && isLowSurrogate d then c :: d :: quoteBody rest
    else quoteUnit c ++ quoteBody (d :: rest)

def quote (s : JsString) : JsString := 0x22 :: (quoteBody s ++ [0x22])

/-! ### Reading a quoted body back -/

def hexValue (c : CodeUnit) : Nat :=
  if c < 0x40 then c.toNat - 0x30 else c.toNat - 0x57

def unshortEscape (e : CodeUnit) : CodeUnit :=
  if e = 0x62 then 0x08
  else if e = 0x74 then 0x09
  else if e = 0x6E then 0x0A
  else if e = 0x66 then 0x0C
  else if e = 0x72 then 0x0D
  else e

/-- Reads a quoted body up to its closing quote; the second component is what
    follows the quote. -/
def unquote : JsString → Option (JsString × JsString)
  | [] => none
  | c :: rest =>
    if c = 0x22 then some ([], rest)
    else if c = 0x5C then
      match rest with
      | [] => none
      | e :: rest' =>
        if e = 0x75 then
          match rest' with
          | h₁ :: h₂ :: h₃ :: h₄ :: rest'' =>
            (unquote rest'').map fun p =>
              (UInt16.ofNat (4096 * hexValue h₁ + 256 * hexValue h₂ + 16 * hexValue h₃
                + hexValue h₄) :: p.1, p.2)
          | _ => none
        else (unquote rest').map fun p => (unshortEscape e :: p.1, p.2)
    else (unquote rest).map fun p => (c :: p.1, p.2)

variable {n : Nat}

theorem hexValue_hexDigit (hn : n < 16) : hexValue (hexDigit n) = n := by
  interval_cases n <;> decide

theorem unquote_close (r : JsString) : unquote (0x22 :: r) = some ([], r) := by
  rw [unquote.eq_def]
  simp

variable {c : CodeUnit}

theorem unquote_plain (hq : c ≠ 0x22) (hb : c ≠ 0x5C) (r : JsString) :
    unquote (c :: r) = (unquote r).map fun p => (c :: p.1, p.2) := by
  rw [unquote.eq_def]
  simp only [if_neg hq, if_neg hb]

variable {e : CodeUnit}

theorem unquote_shortEscape (he : e ≠ 0x75) (r : JsString) :
    unquote (0x5C :: e :: r) = (unquote r).map fun p => (unshortEscape e :: p.1, p.2) := by
  rw [unquote.eq_def]
  simp [he]

theorem unquote_unicodeEscape (c : CodeUnit) (r : JsString) :
    unquote (unicodeEscape c ++ r) = (unquote r).map fun p => (c :: p.1, p.2) := by
  have hc : c.toNat < 65536 := c.toNat_lt
  have hval : 4096 * hexValue (hexDigit (c.toNat / 4096))
      + 256 * hexValue (hexDigit (c.toNat / 256 % 16))
      + 16 * hexValue (hexDigit (c.toNat / 16 % 16)) + hexValue (hexDigit (c.toNat % 16))
      = c.toNat := by
    rw [hexValue_hexDigit (by omega), hexValue_hexDigit (by omega),
      hexValue_hexDigit (by omega), hexValue_hexDigit (by omega)]
    omega
  rw [unicodeEscape, List.cons_append, List.cons_append, unquote.eq_def]
  simp [hval, UInt16.ofNat_toNat]

theorem shortEscape?_spec (h : shortEscape? c = some e) : e ≠ 0x75 ∧ unshortEscape e = c := by
  simp only [shortEscape?] at h
  split_ifs at h with h₁ h₂ h₃ h₄ h₅ h₆ h₇ <;> cases h <;> subst_vars <;> decide

theorem shortEscape?_none (h : shortEscape? c = none) : c ≠ 0x22 ∧ c ≠ 0x5C := by
  constructor <;> rintro rfl <;> simp [shortEscape?] at h

theorem unquote_quoteUnit (c : CodeUnit) (r : JsString) :
    unquote (quoteUnit c ++ r) = (unquote r).map fun p => (c :: p.1, p.2) := by
  unfold quoteUnit
  split
  · next e he =>
    obtain ⟨hu, hc⟩ := shortEscape?_spec he
    rw [List.cons_append, List.cons_append, List.nil_append, unquote_shortEscape hu, hc]
  · next he =>
    obtain ⟨hq, hb⟩ := shortEscape?_none he
    split
    · exact unquote_unicodeEscape c r
    · exact unquote_plain hq hb r

theorem ne_of_isHighSurrogate (h : isHighSurrogate c = true) : c ≠ 0x22 ∧ c ≠ 0x5C := by
  constructor <;> rintro rfl <;> simp [isHighSurrogate] at h

theorem ne_of_isLowSurrogate (h : isLowSurrogate c = true) : c ≠ 0x22 ∧ c ≠ 0x5C := by
  constructor <;> rintro rfl <;> simp [isLowSurrogate] at h

/-- Quoting round trips: reading a quoted body gives the string back and stops
    at its closing quote. -/
theorem unquote_quoteBody (s r : JsString) :
    unquote (quoteBody s ++ 0x22 :: r) = some (s, r) := by
  induction s using quoteBody.induct with
  | case1 => exact unquote_close r
  | case2 c =>
    rw [quoteBody, unquote_quoteUnit, unquote_close]
    rfl
  | case3 c d rest hpair ih =>
    rw [Bool.and_eq_true] at hpair
    obtain ⟨hcq, hcb⟩ := ne_of_isHighSurrogate hpair.1
    obtain ⟨hdq, hdb⟩ := ne_of_isLowSurrogate hpair.2
    simp only [quoteBody, hpair, Bool.and_self, if_true, List.cons_append]
    rw [unquote_plain hcq hcb, unquote_plain hdq hdb, ih]
    rfl
  | case4 c d rest hpair ih =>
    rw [quoteBody, if_neg hpair, List.append_assoc, unquote_quoteUnit, ih]
    rfl

variable {r r' : JsString}

theorem quote_append_inj {s t : JsString} (h : quote s ++ r = quote t ++ r') : s = t ∧ r = r' := by
  simp only [quote, List.cons_append, List.append_assoc, List.nil_append, List.cons.injEq,
    true_and] at h
  have hs := unquote_quoteBody s r
  rw [h, unquote_quoteBody t r'] at hs
  simp only [Option.some.injEq, Prod.mk.injEq] at hs
  exact ⟨hs.1.symm, hs.2.symm⟩

/-! ## Numbers -/

/-- Decimal digits of a natural number. -/
def decimal (n : Nat) : JsString := (Nat.toDigits 10 n).flatMap encodeChar

/-- `String(n)` for an integer in the range printed without an exponent. -/
def integerText (n : Int) : JsString :=
  if n < 0 then 0x2D :: decimal n.natAbs else decimal n.natAbs

def isDigit (c : CodeUnit) : Bool := 0x30 ≤ c && c ≤ 0x39

def decimalValue (s : JsString) : Nat := s.foldl (fun n c => 10 * n + (c.toNat - 0x30)) 0

theorem encodeChar_digitChar {d : Nat} (hd : d < 10) :
    encodeChar (Nat.digitChar d) = [UInt16.ofNat (0x30 + d)] := by
  interval_cases d <;> decide

theorem decimal_eq (n : Nat) :
    decimal n = (if n < 10 then [] else decimal (n / 10)) ++ [UInt16.ofNat (0x30 + n % 10)] := by
  rw [decimal, Nat.toDigits_eq_if (by decide)]
  split
  · next h => simp [encodeChar_digitChar h, Nat.mod_eq_of_lt h]
  · next h => simp [decimal, encodeChar_digitChar (Nat.mod_lt n (by decide : 10 > 0))]

theorem decimalValue_decimal (n : Nat) : decimalValue (decimal n) = n := by
  induction n using Nat.strongRecOn with
  | ind n ih =>
    have hlast : (UInt16.ofNat (0x30 + n % 10)).toNat - 0x30 = n % 10 := by
      rw [UInt16.toNat_ofNat_of_lt' (by simp only [UInt16.size]; omega)]
      omega
    rw [decimal_eq, decimalValue, List.foldl_append]
    simp only [List.foldl_cons, List.foldl_nil, hlast]
    split
    · simp only [List.foldl_nil]
      omega
    · have hdiv := ih (n / 10) (by omega)
      rw [decimalValue] at hdiv
      omega

theorem isDigit_of_mem_decimal (hc : c ∈ decimal n) : isDigit c = true := by
  induction n using Nat.strongRecOn with
  | ind n ih =>
    rw [decimal_eq, List.mem_append, List.mem_singleton] at hc
    rcases hc with hc | rfl
    · split at hc
      · cases hc
      · exact ih (n / 10) (by omega) hc
    · have hlt : n % 10 < 10 := Nat.mod_lt n (by decide)
      generalize n % 10 = d at hlt
      interval_cases d <;> decide

theorem decimal_ne_nil (n : Nat) : decimal n ≠ [] := by
  rw [decimal_eq]
  simp

/-! ## Values and their text -/

/-- JSON values whose numbers are integers. -/
inductive Json where
  | null
  | bool (b : Bool)
  | num (n : Int)
  | str (s : JsString)
  | arr (elems : List Json)
  | obj (fields : List (JsString × Json))

/-- `parts.join(',')`. -/
def joinComma : List JsString → JsString
  | [] => []
  | [s] => s
  | s :: t :: rest => s ++ 0x2C :: joinComma (t :: rest)

mutual
def Json.stringify : Json → JsString
  | .null => js "null"
  | .bool true => js "true"
  | .bool false => js "false"
  | .num n => integerText n
  | .str s => quote s
  | .arr elems => 0x5B :: (joinComma (stringifyElems elems) ++ [0x5D])
  | .obj fields => 0x7B :: (joinComma (stringifyFields fields) ++ [0x7D])

def Json.stringifyElems : List Json → List JsString
  | [] => []
  | v :: vs => v.stringify :: stringifyElems vs

def Json.stringifyFields : List (JsString × Json) → List JsString
  | [] => []
  | (k, v) :: fs => (quote k ++ 0x3A :: v.stringify) :: stringifyFields fs
end

theorem Json.stringifyElems_eq_map (vs : List Json) :
    Json.stringifyElems vs = vs.map Json.stringify := by
  induction vs with
  | nil => rfl
  | cons v vs ih => rw [Json.stringifyElems, ih, List.map_cons]

/-- A `"key":value` member of an object's text. -/
def Json.stringifyField (f : JsString × Json) : JsString := quote f.1 ++ 0x3A :: f.2.stringify

theorem Json.stringifyFields_eq_map (fs : List (JsString × Json)) :
    Json.stringifyFields fs = fs.map Json.stringifyField := by
  induction fs with
  | nil => rfl
  | cons f fs ih => rw [Json.stringifyFields, ih, List.map_cons, Json.stringifyField]

example : (Json.obj [(js "a", .arr [.num (-10), .bool true]), (js "b", .str (js "\n"))]).stringify
    = js "\x7b\"a\":[-10,true],\"b\":\"\\n\"\x7d" := by decide

/-! ## The text determines the value -/

/-- `r` does not continue a number. -/
def Delimits (r : JsString) : Prop := ∀ c ∈ r.head?, isDigit c = false

/-- The text of `a`, followed by a delimiter, is read back in one way only. -/
def ReadsUniquely {α : Type*} (print : α → JsString) (a : α) : Prop :=
  ∀ (b : α) (r r' : JsString), print a ++ r = print b ++ r' → Delimits r → Delimits r' →
    a = b ∧ r = r'

theorem delimits_nil : Delimits [] := by simp [Delimits]

theorem delimits_cons (hc : isDigit c = false) (r : JsString) :
    Delimits (c :: r) := by simpa [Delimits] using hc

theorem span_decimal (hr : Delimits r) : (decimal n ++ r).takeWhile isDigit = decimal n := by
  rw [List.takeWhile_append_of_pos fun _ => isDigit_of_mem_decimal]
  have hnil : r.takeWhile isDigit = [] := by
    cases r with
    | nil => rfl
    | cons c r => simp [hr c (by simp)]
  rw [hnil, List.append_nil]

theorem decimal_append_inj {m : Nat} (h : decimal n ++ r = decimal m ++ r') (hr : Delimits r)
    (hr' : Delimits r') : n = m ∧ r = r' := by
  have hdec : decimal n = decimal m := by rw [← span_decimal hr, h, span_decimal hr']
  refine ⟨?_, List.append_cancel_left (hdec ▸ h)⟩
  rw [← decimalValue_decimal n, hdec, decimalValue_decimal]

theorem decimal_head (n : Nat) : ∃ c rest, decimal n = c :: rest ∧ isDigit c = true := by
  cases hdec : decimal n with
  | nil => exact absurd hdec (decimal_ne_nil n)
  | cons c rest => exact ⟨c, rest, rfl, isDigit_of_mem_decimal (hdec ▸ List.mem_cons_self)⟩

theorem readsUniquely_integerText (n : Int) : ReadsUniquely integerText n := by
  intro m r r' h hr hr'
  obtain ⟨c, cs, hc, hcd⟩ := decimal_head n.natAbs
  obtain ⟨d, ds, hd, hdd⟩ := decimal_head m.natAbs
  simp only [integerText] at h
  split_ifs at h with hn hm hm
  · obtain ⟨habs, htail⟩ := decimal_append_inj (List.cons.inj h).2 hr hr'
    exact ⟨by omega, htail⟩
  · rw [hd] at h
    rw [← (List.cons.inj h).1] at hdd
    exact absurd hdd (by decide)
  · rw [hc] at h
    rw [(List.cons.inj h).1] at hcd
    exact absurd hcd (by decide)
  · obtain ⟨habs, htail⟩ := decimal_append_inj h hr hr'
    exact ⟨by omega, htail⟩

/-- Which constructor a text starts. -/
inductive Kind where
  | null | true | false | num | str | arr | obj | none
  deriving DecidableEq

def Json.kind : Json → Kind
  | .null => .null
  | .bool true => .true
  | .bool false => .false
  | .num _ => .num
  | .str _ => .str
  | .arr _ => .arr
  | .obj _ => .obj

def kindOfUnit (c : CodeUnit) : Kind :=
  if c = 0x6E then .null
  else if c = 0x74 then .true
  else if c = 0x66 then .false
  else if isDigit c || c = 0x2D then .num
  else if c = 0x22 then .str
  else if c = 0x5B then .arr
  else if c = 0x7B then .obj
  else .none

theorem kindOfUnit_digit (hc : isDigit c = true) : kindOfUnit c = .num := by
  have hn : c ≠ 0x6E := by rintro rfl; exact absurd hc (by decide)
  have ht : c ≠ 0x74 := by rintro rfl; exact absurd hc (by decide)
  have hf : c ≠ 0x66 := by rintro rfl; exact absurd hc (by decide)
  simp [kindOfUnit, hn, ht, hf, hc]

theorem Json.stringify_head (v : Json) :
    ∃ c rest, v.stringify = c :: rest ∧ kindOfUnit c = v.kind := by
  cases v with
  | null => exact ⟨0x6E, js "ull", by decide, by decide⟩
  | bool b =>
    cases b with
    | true => exact ⟨0x74, js "rue", by decide, by decide⟩
    | false => exact ⟨0x66, js "alse", by decide, by decide⟩
  | num n =>
    rw [Json.stringify, integerText]
    split
    · exact ⟨0x2D, _, rfl, by simp [Json.kind, kindOfUnit, isDigit]⟩
    obtain ⟨c, rest, hc, hdigit⟩ := decimal_head n.natAbs
    exact ⟨c, rest, hc, kindOfUnit_digit hdigit⟩
  | str s => exact ⟨0x22, _, rfl, by simp [Json.kind, kindOfUnit, isDigit]⟩
  | arr elems => exact ⟨0x5B, _, rfl, by simp [Json.kind, kindOfUnit, isDigit]⟩
  | obj fields => exact ⟨0x7B, _, rfl, by simp [Json.kind, kindOfUnit, isDigit]⟩

theorem Json.kind_eq_of_stringify {v w : Json} (h : v.stringify ++ r = w.stringify ++ r') :
    v.kind = w.kind := by
  obtain ⟨c, cs, hc, hcv⟩ := v.stringify_head
  obtain ⟨d, ds, hd, hdw⟩ := w.stringify_head
  rw [hc, hd, List.cons_append, List.cons_append] at h
  rw [← hcv, ← hdw, (List.cons.inj h).1]

/-! ### Separated lists -/

theorem joinComma_cons (s : JsString) (rest : List JsString) (t : JsString) :
    joinComma (s :: rest) ++ t = s ++ (if rest = [] then t else 0x2C :: (joinComma rest ++ t)) := by
  cases rest with
  | nil | cons s' rest => simp [joinComma]

/-- Two separated lists with one text, up to a closing unit that starts no item:
    their items correspond, when a text read on both sides relates the two items
    and stops at one place. -/
theorem joinComma_append_forall₂ {α β : Type*} {printLeft : α → JsString}
    {printRight : β → JsString} {close : CodeUnit} {R : α → β → Prop} {ends : JsString → Prop}
    (hcomma : close ≠ 0x2C) (hclose : ∀ r, ends (close :: r)) (hsep : ∀ r, ends (0x2C :: r))
    {as : List α} {bs : List β} (hleft : ∀ a ∈ as, ∃ c rest, printLeft a = c :: rest ∧ c ≠ close)
    (hright : ∀ b ∈ bs, ∃ c rest, printRight b = c :: rest ∧ c ≠ close)
    (hread : ∀ a ∈ as, ∀ b ∈ bs, ∀ r r', printLeft a ++ r = printRight b ++ r' → ends r → ends r' →
      R a b ∧ r = r')
    (h : joinComma (as.map printLeft) ++ close :: r = joinComma (bs.map printRight) ++ close :: r') :
    List.Forall₂ R as bs ∧ r = r' := by
  have hends : ∀ (xs : List JsString) (t : JsString),
      ends (if xs = [] then close :: t else 0x2C :: (joinComma xs ++ close :: t)) := by
    intro xs t
    split
    · exact hclose t
    · exact hsep _
  induction as generalizing bs with
  | nil =>
    cases bs with
    | nil => exact ⟨.nil, (List.cons.inj h).2⟩
    | cons b bs =>
      obtain ⟨c, rest, hc, hne⟩ := hright b List.mem_cons_self
      rw [List.map_cons, joinComma_cons, hc] at h
      exact absurd (List.cons.inj h).1.symm hne
  | cons a as ih =>
    cases bs with
    | nil =>
      obtain ⟨c, rest, hc, hne⟩ := hleft a List.mem_cons_self
      rw [List.map_cons, joinComma_cons, hc] at h
      exact absurd (List.cons.inj h).1 hne
    | cons b bs =>
      rw [List.map_cons, List.map_cons, joinComma_cons, joinComma_cons] at h
      obtain ⟨hab, htail⟩ := hread a List.mem_cons_self b List.mem_cons_self _ _ h
        (hends _ _) (hends _ _)
      cases as with
      | nil =>
        cases bs with
        | nil => exact ⟨.cons hab .nil, (List.cons.inj htail).2⟩
        | cons b' bs => exact absurd (List.cons.inj htail).1 hcomma
      | cons a' as =>
        cases bs with
        | nil => exact absurd (List.cons.inj htail).1.symm hcomma
        | cons b' bs =>
          obtain ⟨hrest, hr⟩ := ih (fun x hx => hleft x (List.mem_cons_of_mem _ hx))
            (fun y hy => hright y (List.mem_cons_of_mem _ hy))
            (fun x hx y hy => hread x (List.mem_cons_of_mem _ hx) y (List.mem_cons_of_mem _ hy))
            (List.cons.inj htail).2
          exact ⟨.cons hab hrest, hr⟩

theorem exists_of_forall₂ {α β : Type*} {R : α → β → Prop} {as : List α} {bs : List β}
    (h : List.Forall₂ R as bs) {a : α} (ha : a ∈ as) : ∃ b ∈ bs, R a b := by
  induction h with
  | nil => cases ha
  | cons hab _ ih =>
    rcases List.mem_cons.mp ha with rfl | hrest
    · exact ⟨_, List.mem_cons_self, hab⟩
    · obtain ⟨b, hb, hrel⟩ := ih hrest
      exact ⟨b, List.mem_cons_of_mem _ hb, hrel⟩

section Separated

variable {α : Type*} {print : α → JsString} {close : CodeUnit}

/-- A separated list whose items read uniquely, up to a closing unit that
    starts no item, reads uniquely. -/
theorem joinComma_append_inj (hdigit : isDigit close = false) (hcomma : close ≠ 0x2C)
    (hhead : ∀ a, ∃ c rest, print a = c :: rest ∧ c ≠ close) {as bs : List α} {r r' : JsString}
    (hread : ∀ a ∈ as, ReadsUniquely print a)
    (h : joinComma (as.map print) ++ close :: r = joinComma (bs.map print) ++ close :: r') :
    as = bs ∧ r = r' := by
  have hpairs : List.Forall₂ Eq as bs ∧ r = r' := by
    refine joinComma_append_forall₂ hcomma (fun r => delimits_cons hdigit r)
      (fun r => delimits_cons (by decide) r) (fun a _ => hhead a) (fun b _ => hhead b) ?_ h
    intro a ha b _ s s' htext hs hs'
    exact hread a ha b s s' htext hs hs'
  rw [List.forall₂_eq_eq_eq] at hpairs
  exact hpairs

end Separated

theorem readsUniquely_field {f : JsString × Json}
    (hf : ReadsUniquely Json.stringify f.2) : ReadsUniquely Json.stringifyField f := by
  intro g r r' h hr hr'
  simp only [Json.stringifyField, List.append_assoc, List.cons_append] at h
  obtain ⟨hkey, hrest⟩ := quote_append_inj h
  obtain ⟨hval, htail⟩ := hf g.2 r r' (List.cons.inj hrest).2 hr hr'
  exact ⟨Prod.ext hkey hval, htail⟩

theorem Json.readsUniquely_arr {elems : List Json}
    (h : ∀ v ∈ elems, ReadsUniquely Json.stringify v) :
    ReadsUniquely Json.stringify (.arr elems) := by
  intro w r r' htext hr hr'
  have hkind := Json.kind_eq_of_stringify htext
  cases w with
  | arr elems' =>
    simp only [Json.stringify, Json.stringifyElems_eq_map, List.cons_append, List.append_assoc,
      List.nil_append, List.cons.injEq, true_and] at htext
    have hhead : ∀ v : Json, ∃ c rest, v.stringify = c :: rest ∧ c ≠ 0x5D := by
      intro v
      obtain ⟨c, rest, hc, hk⟩ := v.stringify_head
      refine ⟨c, rest, hc, ?_⟩
      rintro rfl
      cases v with
      | bool b => cases b <;> exact absurd hk (by decide)
      | _ => exact absurd hk (by simp [Json.kind, kindOfUnit, isDigit])
    obtain ⟨rfl, rfl⟩ := joinComma_append_inj (by decide) (by decide) hhead h htext
    exact ⟨rfl, rfl⟩
  | bool b => cases b <;> simp [Json.kind] at hkind
  | _ => simp [Json.kind] at hkind

theorem Json.readsUniquely_obj {fields : List (JsString × Json)}
    (h : ∀ f ∈ fields, ReadsUniquely Json.stringify f.2) :
    ReadsUniquely Json.stringify (.obj fields) := by
  intro w r r' htext hr hr'
  have hkind := Json.kind_eq_of_stringify htext
  cases w with
  | obj fields' =>
    simp only [Json.stringify, Json.stringifyFields_eq_map, List.cons_append, List.append_assoc,
      List.nil_append, List.cons.injEq, true_and] at htext
    have hhead : ∀ f : JsString × Json,
        ∃ c rest, Json.stringifyField f = c :: rest ∧ c ≠ 0x7D :=
      fun f => ⟨0x22, _, rfl, by decide⟩
    obtain ⟨rfl, rfl⟩ := joinComma_append_inj (by decide) (by decide) hhead
      (fun f hf => readsUniquely_field (h f hf)) htext
    exact ⟨rfl, rfl⟩
  | bool b => cases b <;> simp [Json.kind] at hkind
  | _ => simp [Json.kind] at hkind

mutual
theorem Json.readsUniquely : (v : Json) → ReadsUniquely Json.stringify v
  | .null => by
    intro w r r' h _ _
    have hkind := Json.kind_eq_of_stringify h
    cases w with
    | null => exact ⟨rfl, List.append_cancel_left h⟩
    | bool b => cases b <;> simp [Json.kind] at hkind
    | _ => simp [Json.kind] at hkind
  | .bool b => by
    intro w r r' h _ _
    have hkind := Json.kind_eq_of_stringify h
    cases w with
    | bool b' =>
      have hb : b = b' := by
        cases b <;> cases b' <;> first | rfl | simp [Json.kind] at hkind
      subst hb
      exact ⟨rfl, List.append_cancel_left h⟩
    | _ => cases b <;> simp [Json.kind] at hkind
  | .num n => by
    intro w r r' h hr hr'
    have hkind := Json.kind_eq_of_stringify h
    cases w with
    | num m =>
      obtain ⟨rfl, htail⟩ := readsUniquely_integerText n m r r' h hr hr'
      exact ⟨rfl, htail⟩
    | bool b => cases b <;> simp [Json.kind] at hkind
    | _ => simp [Json.kind] at hkind
  | .str s => by
    intro w r r' h _ _
    have hkind := Json.kind_eq_of_stringify h
    cases w with
    | str t =>
      obtain ⟨rfl, htail⟩ := quote_append_inj h
      exact ⟨rfl, htail⟩
    | bool b => cases b <;> simp [Json.kind] at hkind
    | _ => simp [Json.kind] at hkind
  | .arr elems => Json.readsUniquely_arr (Json.readsUniquely_elems elems)
  | .obj fields => Json.readsUniquely_obj (Json.readsUniquely_fields fields)

theorem Json.readsUniquely_elems :
    (vs : List Json) → ∀ v ∈ vs, ReadsUniquely Json.stringify v
  | [], _, hv => by cases hv
  | v :: vs, w, hw => by
    rcases List.mem_cons.mp hw with hw | hw
    · rw [hw]
      exact v.readsUniquely
    · exact Json.readsUniquely_elems vs w hw

theorem Json.readsUniquely_fields :
    (fs : List (JsString × Json)) → ∀ f ∈ fs, ReadsUniquely Json.stringify f.2
  | [], _, hf => by cases hf
  | (k, v) :: fs, g, hg => by
    rcases List.mem_cons.mp hg with hg | hg
    · rw [hg]
      exact v.readsUniquely
    · exact Json.readsUniquely_fields fs g hg
end

theorem Json.stringify_injective : Function.Injective Json.stringify := by
  intro v w h
  have htext : v.stringify ++ [] = w.stringify ++ [] := by rw [h]
  exact (v.readsUniquely w [] [] htext delimits_nil delimits_nil).1

/-! ## Object literals with omitted fields -/

/-- An object literal as `JSON.stringify` sees it: a field that is `undefined`
    is left out. -/
def Json.ofFields (fields : List (JsString × Option Json)) : Json :=
  .obj (fields.filterMap fun f => f.2.map fun v => (f.1, v))

variable {fs gs : List (JsString × Option Json)}

theorem filterMap_fields_inj (hkeys : fs.map Prod.fst = gs.map Prod.fst)
    (hnodup : (fs.map Prod.fst).Nodup)
    (h : fs.filterMap (fun f => f.2.map fun v => (f.1, v))
      = gs.filterMap (fun f => f.2.map fun v => (f.1, v))) : fs = gs := by
  induction fs generalizing gs with
  | nil => exact (List.map_eq_nil_iff.mp hkeys.symm).symm
  | cons f fs ih =>
    cases gs with
    | nil => cases hkeys
    | cons g gs =>
      obtain ⟨k, v⟩ := f
      obtain ⟨k', w⟩ := g
      simp only [List.map_cons, List.cons.injEq, List.nodup_cons] at hkeys hnodup
      obtain ⟨rfl, hkeys⟩ := hkeys
      -- a field present on one side only would have to reappear in the other tail
      have habsent : ∀ (xs : List (JsString × Option Json)) (u : Json), k ∉ xs.map Prod.fst →
          (k, u) ∉ xs.filterMap (fun f => f.2.map fun v => (f.1, v)) := by
        intro xs u hk hmem
        obtain ⟨⟨k', o⟩, hx, ho⟩ := List.mem_filterMap.mp hmem
        cases o with
        | none => cases ho
        | some o =>
          cases ho
          exact hk (List.mem_map.mpr ⟨_, hx, rfl⟩)
      cases v with
      | none =>
        cases w with
        | none => rw [ih hkeys hnodup.2 h]
        | some w =>
          have hmem : (k, w) ∈ fs.filterMap (fun f => f.2.map fun v => (f.1, v)) := by
            rw [List.filterMap_cons_none rfl] at h
            rw [h]
            exact List.mem_cons_self
          exact absurd hmem (habsent fs w hnodup.1)
      | some v =>
        cases w with
        | none =>
          have hmem : (k, v) ∈ gs.filterMap (fun f => f.2.map fun v => (f.1, v)) := by
            have h' := h.symm
            rw [List.filterMap_cons_none rfl] at h'
            rw [h']
            exact List.mem_cons_self
          exact absurd hmem (habsent gs v (hkeys ▸ hnodup.1))
        | some w =>
          simp only [List.filterMap_cons, Option.map_some, List.cons.injEq, Prod.mk.injEq,
            true_and] at h
          rw [h.1, ih hkeys hnodup.2 h.2]

/-- With the field names fixed, an object literal determines every field,
    the omitted ones included. -/
theorem Json.ofFields_eq_iff (hkeys : fs.map Prod.fst = gs.map Prod.fst)
    (hnodup : (fs.map Prod.fst).Nodup) : Json.ofFields fs = Json.ofFields gs ↔ fs = gs :=
  ⟨fun h => filterMap_fields_inj hkeys hnodup (Json.obj.inj h), fun h => h ▸ rfl⟩

/-! ## Coercions -/

mutual
/-- `String(value)`. -/
def Json.text : Json → JsString
  | .null => js "null"
  | .bool true => js "true"
  | .bool false => js "false"
  | .num n => integerText n
  | .str s => s
  | .arr elems => joinComma (elementTexts elems)
  | .obj _ => js "[object Object]"

/-- The parts `Array.prototype.join` joins. -/
def Json.elementTexts : List Json → List JsString
  | [] => []
  | .null :: vs => [] :: elementTexts vs
  | v :: vs => v.text :: elementTexts vs
end

/-- The value as a condition. -/
def Json.truthy : Json → Bool
  | .null => false
  | .bool b => b
  | .num n => n != 0
  | .str s => !s.isEmpty
  | .arr _ | .obj _ => true

/-- `value + 1`, for `undefined` too; `NaN` is `null`, as JSON has it. -/
def Json.addOne : Option Json → Json
  | none => .null
  | some .null => .num 1
  | some (.bool b) => .num (b.toNat + 1)
  | some (.num n) => .num (n + 1)
  | some value => .str (value.text ++ js "1")

end Js
