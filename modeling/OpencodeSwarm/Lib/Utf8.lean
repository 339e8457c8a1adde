/-
  OpencodeSwarm.Lib.Utf8

  Decoding UTF-8 as the runtime does it: a byte that does not continue the
  character it stands in ends that character with U+FFFD.  A byte below 0x80
  always stands for itself, so decoding goes line by line.  The bytes of a text
  are decoded to it, and a cut within a character leaves a replacement.
-/
import Mathlib.Tactic.Ring
import OpencodeSwarm.Lib.JsString

namespace Js

/-! ## The decoder -/

/-- A character that has begun: how many bytes it lacks, its bits so far, and the least and the
    greatest byte that may come next. -/
structure Utf8Pending where
  lacking : Nat
  bits : Nat
  lower : Nat
  upper : Nat

/-- The replacement character. -/
def replacement : CodeUnit := 0xFFFD

/-- The first byte of a character. -/
def utf8Begin (byte : UInt8) : JsString × Option Utf8Pending :=
  let b := byte.toNat
  if b < 0x80 then ([UInt16.ofNat b], none)
  else if b < 0xC2 then ([replacement], none)
  else if b < 0xE0 then ([], some ⟨1, b - 0xC0, 0x80, 0xBF⟩)
  else if b < 0xF0 then
    ([], some ⟨2, b - 0xE0, if b = 0xE0 then 0xA0 else 0x80, if b = 0xED then 0x9F else 0xBF⟩)
  else if b < 0xF5 then
    ([], some ⟨3, b - 0xF0, if b = 0xF0 then 0x90 else 0x80, if b = 0xF4 then 0x8F else 0xBF⟩)
  else ([replacement], none)

/-- One byte. -/
def utf8Feed (pending : Option Utf8Pending) (byte : UInt8) : JsString × Option Utf8Pending :=
  match pending with
  | none => utf8Begin byte
  | some p =>
    if p.lower ≤ byte.toNat ∧ byte.toNat ≤ p.upper then
      let bits := p.bits * 64 + (byte.toNat - 0x80)
      if p.lacking = 1 then (encodeChar (Char.ofNat bits), none)
      else ([], some ⟨p.lacking - 1, bits, 0x80, 0xBF⟩)
    else
      let (units, next) := utf8Begin byte
      (replacement :: units, next)

def utf8From (pending : Option Utf8Pending) : List UInt8 → JsString
  | [] => if pending.isSome then [replacement] else []
  | byte :: rest =>
    (utf8Feed pending byte).1 ++ utf8From (utf8Feed pending byte).2 rest

/-- `readFile(path, 'utf-8')`, of the bytes. -/
def decodeUtf8 (bytes : List UInt8) : JsString := utf8From none bytes

/-! ## Pending characters -/

/-- What the decoder keeps pending is neither overlong nor ended by a byte below 0x80. -/
structure Utf8Pending.Proper (p : Utf8Pending) : Prop where
  lacks : 1 ≤ p.lacking
  above : 0x80 ≤ p.lower
  large : 0x80 ≤ (p.bits * 64 + (p.lower - 0x80)) * 64 ^ (p.lacking - 1)

variable {byte : UInt8} {p : Utf8Pending}

theorem proper_of_utf8Begin {units : JsString} (h : utf8Begin byte = (units, some p)) :
    p.Proper := by
  dsimp only [utf8Begin] at h
  generalize byte.toNat = b at h
  split at h
  · cases h
  split at h
  · cases h
  split at h
  · cases h
    exact ⟨le_refl 1, le_refl 0x80, show 0x80 ≤ ((b - 0xC0) * 64 + (0x80 - 0x80)) * 1 by omega⟩
  · split at h
    · cases h
      constructor
      · show 1 ≤ 2
        omega
      · show 0x80 ≤ if b = 0xE0 then 0xA0 else 0x80
        split <;> omega
      · show 0x80 ≤ ((b - 0xE0) * 64 + ((if b = 0xE0 then 0xA0 else 0x80) - 0x80)) * 64
        split <;> omega
    · split at h
      · cases h
        constructor
        · show 1 ≤ 3
          omega
        · show 0x80 ≤ if b = 0xF0 then 0x90 else 0x80
          split <;> omega
        · show 0x80 ≤ ((b - 0xF0) * 64 + ((if b = 0xF0 then 0x90 else 0x80) - 0x80)) * 4096
          split <;> omega
      · cases h

theorem Utf8Pending.Proper.next {p : Utf8Pending} (h : p.Proper) {b : Nat} (hb : p.lower ≤ b) :
    0x80 ≤ (p.bits * 64 + (b - 0x80)) * 64 ^ (p.lacking - 1) :=
  calc 0x80 ≤ (p.bits * 64 + (p.lower - 0x80)) * 64 ^ (p.lacking - 1) := h.large
    _ ≤ (p.bits * 64 + (b - 0x80)) * 64 ^ (p.lacking - 1) := by
      apply Nat.mul_le_mul_right
      omega

variable {pending : Option Utf8Pending}

theorem proper_of_utf8Feed (hpending : ∀ q, pending = some q → q.Proper)
    (h : (utf8Feed pending byte).2 = some p) : p.Proper := by
  unfold utf8Feed at h
  split at h
  · exact proper_of_utf8Begin (Prod.ext rfl h)
  rename_i q
  have hq := hpending q rfl
  split at h
  · rename_i hrange
    split at h
    · cases h
    have hnext := hq.next hrange.1
    have hlacks := hq.lacks
    obtain ⟨more, hmore⟩ : ∃ more, q.lacking - 1 = more + 1 := ⟨q.lacking - 2, by omega⟩
    rw [hmore] at hnext h
    rw [Option.some.injEq] at h
    rw [← h]
    constructor
    · show 1 ≤ more + 1
      omega
    · exact le_refl 0x80
    · show 0x80 ≤ ((q.bits * 64 + (byte.toNat - 0x80)) * 64 + (0x80 - 0x80))
        * 64 ^ (more + 1 - 1)
      rw [Nat.pow_succ] at hnext
      rw [Nat.sub_self, Nat.add_zero, Nat.add_sub_cancel, Nat.mul_right_comm]
      rw [← Nat.mul_assoc] at hnext
      exact hnext
  · exact proper_of_utf8Begin (Prod.ext rfl h)

theorem utf8Begin_ascii (h : byte.toNat < 0x80) :
    utf8Begin byte = ([UInt16.ofNat byte.toNat], none) := by
  rw [utf8Begin, if_pos h]

theorem utf8From_append_ascii (hpending : ∀ p, pending = some p → p.Proper)
    (left right : List UInt8) (h : byte.toNat < 0x80) : utf8From pending (left ++ byte :: right)
      = utf8From pending left ++ UInt16.ofNat byte.toNat :: utf8From none right := by
  induction left generalizing pending with
  | nil =>
    rw [List.nil_append, utf8From, utf8From]
    cases pending with
    | none =>
      rw [utf8Feed, utf8Begin_ascii h]
      rfl
    | some p =>
      have hproper := (hpending p rfl).above
      dsimp only [utf8Feed]
      rw [if_neg (by omega), utf8Begin_ascii h]
      rfl
  | cons first rest ih =>
    rw [List.cons_append, utf8From, utf8From, List.append_assoc]
    congr 1
    refine ih ?_
    intro p hp
    exact proper_of_utf8Feed hpending hp

theorem decodeUtf8_append_ascii (left right : List UInt8) (h : byte.toNat < 0x80) :
    decodeUtf8 (left ++ byte :: right)
      = decodeUtf8 left ++ UInt16.ofNat byte.toNat :: decodeUtf8 right :=
  utf8From_append_ascii (fun _ hp => absurd hp (Option.some_ne_none _).symm) left right h

theorem decodeUtf8_cons_ascii (rest : List UInt8) (h : byte.toNat < 0x80) :
    decodeUtf8 (byte :: rest) = UInt16.ofNat byte.toNat :: decodeUtf8 rest :=
  decodeUtf8_append_ascii [] rest h

variable {bytes : List UInt8}

theorem decodeUtf8_of_ascii (h : ∀ byte ∈ bytes, byte.toNat < 0x80) :
    decodeUtf8 bytes = bytes.map fun byte => UInt16.ofNat byte.toNat := by
  induction bytes with
  | nil => rfl
  | cons byte rest ih =>
    rw [decodeUtf8_cons_ascii rest (h byte List.mem_cons_self),
      ih fun other hother => h other (List.mem_cons_of_mem _ hother)]
    rfl

/-! ## What is not there -/

theorem utf8From_ne_nil (h : pending.isSome ∨ bytes ≠ []) : utf8From pending bytes ≠ [] := by
  induction bytes generalizing pending with
  | nil =>
    rcases h with hpending | hne
    · rw [utf8From, if_pos hpending]
      exact List.cons_ne_nil _ _
    · exact absurd rfl hne
  | cons byte rest ih =>
    intro hnil
    obtain ⟨hunits, hrest⟩ := List.append_eq_nil_iff.mp hnil
    have hdone : (utf8Feed pending byte).2.isSome = false := by
      by_contra hsome
      rw [Bool.not_eq_false] at hsome
      exact ih (Or.inl hsome) hrest
    -- a byte that gives nothing leaves something pending
    have hbegin : (utf8Begin byte).1 = [] → (utf8Begin byte).2.isSome = true := by
      dsimp only [utf8Begin]
      intro hnothing
      split at hnothing
      · cases hnothing
      rename_i hlow
      rw [if_neg hlow]
      split at hnothing
      · cases hnothing
      rename_i hcontinuation
      rw [if_neg hcontinuation]
      split
      · rfl
      rename_i htwo
      rw [if_neg htwo] at hnothing
      split
      · rfl
      rename_i hthree
      rw [if_neg hthree] at hnothing
      split
      · rfl
      rename_i hfour
      rw [if_neg hfour] at hnothing
      cases hnothing
    have hchar : ∀ c : Char, encodeChar c ≠ [] := by
      intro c
      unfold encodeChar
      split <;> exact List.cons_ne_nil _ _
    unfold utf8Feed at hunits hdone
    split at hunits
    · rw [hbegin hunits] at hdone
      cases hdone
    · split at hunits
      · rename_i hrange
        dsimp only at hdone
        rw [if_pos hrange] at hdone
        split at hunits
        · dsimp only at hunits
          exact hchar _ hunits
        · rename_i hlacking
          rw [if_neg hlacking] at hdone
          cases hdone
      · cases hunits

theorem decodeUtf8_eq_nil_iff : decodeUtf8 bytes = [] ↔ bytes = [] := by
  constructor
  · intro h
    by_contra hne
    exact utf8From_ne_nil (Or.inr hne) h
  · rintro rfl
    rfl

theorem newline_notMem_encodeChar {c : Char} (hc : c.toNat ≠ 0x0A) : 0x0A ∉ encodeChar c := by
  have hvalid : c.toNat < 0x110000 := by
    rcases c.valid with hlow | ⟨-, hhigh⟩
    · exact lt_trans hlow (by decide)
    · exact hhigh
  have hunit : ∀ n : Nat, n < 0x10000 → n ≠ 0x0A → (0x0A : UInt16) ≠ UInt16.ofNat n := by
    intro n hn hne heq
    have hnat := congrArg UInt16.toNat heq
    rw [UInt16.toNat_ofNat_of_lt' hn] at hnat
    have hnewline : (0x0A : UInt16).toNat = 0x0A := by decide
    exact hne (hnat.symm.trans hnewline)
  unfold encodeChar
  split
  · rename_i hsmall
    intro hmem
    exact hunit _ hsmall hc (List.mem_singleton.mp hmem)
  · intro hmem
    rcases List.mem_cons.mp hmem with hfirst | hsecond
    · exact hunit _ (by omega) (by omega) hfirst
    · exact hunit _ (by omega) (by omega) (List.mem_singleton.mp hsecond)

variable {n : Nat}

theorem toNat_ofNat_ne_newline (h : n ≠ 0x0A) : (Char.ofNat n).toNat ≠ 0x0A := by
  unfold Char.ofNat
  by_cases hvalid : n.isValidChar
  · rw [dif_pos hvalid]
    exact h
  · rw [dif_neg hvalid]
    decide

theorem newline_notMem_utf8Begin (h : byte ≠ 0x0A) : 0x0A ∉ (utf8Begin byte).1 := by
  have hnat : byte.toNat ≠ 0x0A := fun heq => h (UInt8.toNat_inj.mp heq)
  dsimp only [utf8Begin]
  split
  · intro hmem
    have heq := congrArg UInt16.toNat (List.mem_singleton.mp hmem)
    rw [UInt16.toNat_ofNat_of_lt' (lt_trans (by assumption) (by decide))] at heq
    exact hnat heq.symm
  · split
    · decide
    split
    · exact List.not_mem_nil
    split
    · exact List.not_mem_nil
    split
    · exact List.not_mem_nil
    · decide

theorem newline_notMem_utf8From (hpending : ∀ p, pending = some p → p.Proper) (h : 0x0A ∉ bytes) :
    0x0A ∉ utf8From pending bytes := by
  induction bytes generalizing pending with
  | nil =>
    unfold utf8From
    split
    · decide
    · exact List.not_mem_nil
  | cons byte rest ih =>
    rw [List.mem_cons, not_or] at h
    have hbyte : byte ≠ 0x0A := fun heq => h.1 heq.symm
    rw [utf8From, List.mem_append, not_or]
    refine ⟨?_, ih (fun p hp => proper_of_utf8Feed hpending hp) h.2⟩
    unfold utf8Feed
    split
    · exact newline_notMem_utf8Begin hbyte
    rename_i p
    split
    · rename_i hrange
      split
      · rename_i hlacking
        have hnext := (hpending p rfl).next hrange.1
        rw [hlacking] at hnext
        dsimp only
        exact newline_notMem_encodeChar (toNat_ofNat_ne_newline (by omega))
      · exact List.not_mem_nil
    · intro hmem
      rcases List.mem_cons.mp hmem with heq | hunits
      · exact absurd heq (by decide)
      · exact newline_notMem_utf8Begin hbyte hunits

theorem newline_notMem_decodeUtf8 (h : 0x0A ∉ bytes) : 0x0A ∉ decodeUtf8 bytes :=
  newline_notMem_utf8From (fun _ hp => absurd hp (Option.some_ne_none _).symm) h

/-! ## Encoding -/

/-- The bytes of a character. -/
def encodeUtf8Char (c : Char) : List UInt8 :=
  let n := c.toNat
  if n < 0x80 then [UInt8.ofNat n]
  else if n < 0x800 then [UInt8.ofNat (0xC0 + n / 64), UInt8.ofNat (0x80 + n % 64)]
  else if n < 0x10000 then
    [UInt8.ofNat (0xE0 + n / 4096), UInt8.ofNat (0x80 + n / 64 % 64), UInt8.ofNat (0x80 + n % 64)]
  else
    [UInt8.ofNat (0xF0 + n / 262144), UInt8.ofNat (0x80 + n / 4096 % 64),
      UInt8.ofNat (0x80 + n / 64 % 64), UInt8.ofNat (0x80 + n % 64)]

theorem char_toNat_bounds (c : Char) :
    c.toNat < 0x110000 ∧ (c.toNat < 0xD800 ∨ 0xDFFF < c.toNat) := by
  rcases c.valid with hlow | ⟨hmiddle, hhigh⟩
  · have hlow' : c.toNat < 0xD800 := hlow
    omega
  · have hmiddle' : 0xDFFF < c.toNat := hmiddle
    have hhigh' : c.toNat < 0x110000 := hhigh
    omega

variable {b : Nat}

theorem toNat_byte (h : b < 256) : (UInt8.ofNat b).toNat = b :=
  UInt8.toNat_ofNat_of_lt' h

theorem utf8Begin_two (hlow : 0x80 ≤ n) (hhigh : n < 0x800) :
    utf8Begin (UInt8.ofNat (0xC0 + n / 64)) = ([], some ⟨1, n / 64, 0x80, 0xBF⟩) := by
  rw [utf8Begin, toNat_byte (by omega)]
  rw [if_neg (by omega), if_neg (by omega), if_pos (by omega), Nat.add_sub_cancel_left]

theorem utf8Begin_three (hlow : 0x800 ≤ n) (hhigh : n < 0x10000) :
    utf8Begin (UInt8.ofNat (0xE0 + n / 4096))
      = ([], some ⟨2, n / 4096, if 0xE0 + n / 4096 = 0xE0 then 0xA0 else 0x80,
          if 0xE0 + n / 4096 = 0xED then 0x9F else 0xBF⟩) := by
  rw [utf8Begin, toNat_byte (by omega)]
  rw [if_neg (by omega), if_neg (by omega), if_neg (by omega), if_pos (by omega),
    Nat.add_sub_cancel_left]

theorem utf8Begin_four (hlow : 0x10000 ≤ n) (hhigh : n < 0x110000) :
    utf8Begin (UInt8.ofNat (0xF0 + n / 262144))
      = ([], some ⟨3, n / 262144, if 0xF0 + n / 262144 = 0xF0 then 0x90 else 0x80,
          if 0xF0 + n / 262144 = 0xF4 then 0x8F else 0xBF⟩) := by
  rw [utf8Begin, toNat_byte (by omega)]
  rw [if_neg (by omega), if_neg (by omega), if_neg (by omega), if_neg (by omega),
    if_pos (by omega), Nat.add_sub_cancel_left]

theorem utf8Feed_between (hb : b < 256) (hlower : p.lower ≤ b) (hupper : b ≤ p.upper) :
    utf8Feed (some p) (UInt8.ofNat b)
      = if p.lacking = 1 then (encodeChar (Char.ofNat (p.bits * 64 + (b - 0x80))), none)
        else ([], some ⟨p.lacking - 1, p.bits * 64 + (b - 0x80), 0x80, 0xBF⟩) := by
  dsimp only [utf8Feed]
  rw [toNat_byte hb, if_pos ⟨hlower, hupper⟩]

variable {rest : List UInt8} {bits lower upper : Nat}

theorem utf8From_second {lacking : Nat} (hb : b < 256) (hlower : lower ≤ b) (hupper : b ≤ upper)
    (hlacking : lacking ≠ 1) : utf8From (some ⟨lacking, bits, lower, upper⟩) (UInt8.ofNat b :: rest)
      = utf8From (some ⟨lacking - 1, bits * 64 + (b - 0x80), 0x80, 0xBF⟩) rest := by
  rw [utf8From, utf8Feed_between hb hlower hupper]
  rw [if_neg hlacking]
  rfl

theorem utf8From_last (hb : b < 256) (hlower : lower ≤ b) (hupper : b ≤ upper) :
    utf8From (some ⟨1, bits, lower, upper⟩) (UInt8.ofNat b :: rest)
      = encodeChar (Char.ofNat (bits * 64 + (b - 0x80))) ++ utf8From none rest := by
  rw [utf8From, utf8Feed_between hb hlower hupper]
  rw [if_pos rfl]

theorem utf8From_first (h : utf8Begin byte = ([], some p)) :
    utf8From none (byte :: rest) = utf8From (some p) rest := by
  rw [utf8From, utf8Feed, h]
  rfl

theorem utf8From_encodeUtf8Char (c : Char) (rest : List UInt8) :
    utf8From none (encodeUtf8Char c ++ rest) = encodeChar c ++ utf8From none rest := by
  obtain ⟨hmax, hsurrogate⟩ := char_toNat_bounds c
  have hofNat : Char.ofNat c.toNat = c := Char.ofNat_toNat c
  dsimp only [encodeUtf8Char]
  generalize hn : c.toNat = n at *
  split
  · have hchar : encodeChar c = [UInt16.ofNat n] := by
      rw [encodeChar, hn, if_pos (by omega)]
    have hbyte : (UInt8.ofNat n).toNat = n := toNat_byte (by omega)
    rw [List.singleton_append, utf8From, utf8Feed, utf8Begin_ascii (by omega), hbyte, hchar]
  · split
    · rename_i htwo
      rw [List.cons_append, List.singleton_append, utf8From_first (utf8Begin_two (by omega) htwo),
        utf8From_last (by omega) (by omega) (by omega)]
      have hbits : n / 64 * 64 + (0x80 + n % 64 - 0x80) = n := by omega
      rw [hbits, hofNat]
    · split
      · rename_i hthree
        rw [List.cons_append, List.cons_append, List.singleton_append,
          utf8From_first (utf8Begin_three (by omega) hthree),
          utf8From_second (by omega) (by split <;> omega) (by split <;> omega) (by decide),
          utf8From_last (by omega) (by omega) (by omega)]
        have hbits : (n / 4096 * 64 + (0x80 + n / 64 % 64 - 0x80)) * 64
            + (0x80 + n % 64 - 0x80) = n := by omega
        rw [hbits, hofNat]
      · rw [List.cons_append, List.cons_append, List.cons_append, List.singleton_append,
          utf8From_first (utf8Begin_four (by omega) hmax),
          utf8From_second (by omega) (by split <;> omega) (by split <;> omega) (by decide),
          utf8From_second (by omega) (by omega) (by omega) (by decide),
          utf8From_last (by omega) (by omega) (by omega)]
        have hbits : ((n / 262144 * 64 + (0x80 + n / 4096 % 64 - 0x80)) * 64
            + (0x80 + n / 64 % 64 - 0x80)) * 64 + (0x80 + n % 64 - 0x80) = n := by omega
        rw [hbits, hofNat]

/-- Some, but not all, bytes of a character are decoded to a replacement. -/
theorem utf8From_cut (c : Char) {count : Nat} (hsome : 0 < count)
    (hcut : count < (encodeUtf8Char c).length) :
    utf8From none ((encodeUtf8Char c).take count) = [replacement] := by
  obtain ⟨hmax, hsurrogate⟩ := char_toNat_bounds c
  unfold encodeUtf8Char at hcut ⊢
  dsimp only at hcut ⊢
  generalize c.toNat = n at *
  split
  · rename_i hone
    rw [if_pos hone, List.length_singleton] at hcut
    omega
  · rename_i hone
    rw [if_neg hone] at hcut
    split
    · rename_i htwo
      rw [if_pos htwo] at hcut
      have hcount : count = 1 := by
        simp only [List.length_cons, List.length_nil] at hcut
        omega
      rw [hcount]
      exact utf8From_first (utf8Begin_two (by omega) htwo)
    · rename_i htwo
      rw [if_neg htwo] at hcut
      split
      · rename_i hthree
        rw [if_pos hthree] at hcut
        have hcount : count = 1 ∨ count = 2 := by
          simp only [List.length_cons, List.length_nil] at hcut
          omega
        have hfirst := utf8Begin_three (show 0x800 ≤ n by omega) hthree
        rcases hcount with rfl | rfl
        · exact utf8From_first hfirst
        · exact (utf8From_first hfirst).trans
            (utf8From_second (by omega) (by split <;> omega) (by split <;> omega) (by decide))
      · rename_i hthree
        rw [if_neg hthree] at hcut
        have hcount : count = 1 ∨ count = 2 ∨ count = 3 := by
          simp only [List.length_cons, List.length_nil] at hcut
          omega
        have hfirst := utf8Begin_four (show 0x10000 ≤ n by omega) hmax
        rcases hcount with rfl | rfl | rfl
        · exact utf8From_first hfirst
        · exact (utf8From_first hfirst).trans
            (utf8From_second (by omega) (by split <;> omega) (by split <;> omega) (by decide))
        · refine (utf8From_first hfirst).trans ?_
          refine (utf8From_second (by omega) (by split <;> omega) (by split <;> omega)
            (by decide)).trans ?_
          exact utf8From_second (by omega) (by omega) (by omega) (by decide)

/-- The bytes of a text, character by character. -/
def encodeUtf8 (chars : List Char) : List UInt8 := chars.flatMap encodeUtf8Char

theorem utf8From_encodeUtf8_append (chars : List Char) (rest : List UInt8) :
    utf8From none (encodeUtf8 chars ++ rest) = chars.flatMap encodeChar ++ utf8From none rest := by
  unfold encodeUtf8
  induction chars with
  | nil => rfl
  | cons c others ih =>
    rw [List.flatMap_cons, List.flatMap_cons, List.append_assoc, utf8From_encodeUtf8Char, ih,
      List.append_assoc]

theorem decodeUtf8_encodeUtf8 (chars : List Char) :
    decodeUtf8 (encodeUtf8 chars) = chars.flatMap encodeChar := by
  have h := utf8From_encodeUtf8_append chars []
  rw [List.append_nil] at h
  rw [decodeUtf8, h]
  exact List.append_nil _

/-- What is left of a text when its bytes are cut: the characters before the cut, with a
    replacement where it falls within one. -/
theorem decodeUtf8_cut {chars : List Char} {part : List UInt8} (h : part <+: encodeUtf8 chars) :
    ∃ front, front <+: chars ∧ (decodeUtf8 part = front.flatMap encodeChar ∧ part = encodeUtf8 front
      ∨ decodeUtf8 part = front.flatMap encodeChar ++ [replacement]) := by
  induction chars generalizing part with
  | nil =>
    have hnil : part = [] := List.prefix_nil.mp h
    subst hnil
    exact ⟨[], List.prefix_refl _, Or.inl ⟨rfl, rfl⟩⟩
  | cons c others ih =>
    have hwhole : encodeUtf8 (c :: others) = encodeUtf8Char c ++ encodeUtf8 others := by
      unfold encodeUtf8
      rw [List.flatMap_cons]
    rw [hwhole] at h
    by_cases hshort : part.length < (encodeUtf8Char c).length
    · have htake : part = (encodeUtf8Char c).take part.length := by
        have hpart := List.prefix_iff_eq_take.mp h
        rwa [List.take_append_of_le_length (le_of_lt hshort)] at hpart
      refine ⟨[], List.nil_prefix, ?_⟩
      by_cases hnil : part = []
      · left
        rw [hnil]
        exact ⟨rfl, rfl⟩
      · right
        rw [htake]
        exact utf8From_cut c (List.length_pos_of_ne_nil hnil) hshort
    · obtain ⟨later, rfl⟩ : encodeUtf8Char c <+: part :=
        List.prefix_of_prefix_length_le (List.prefix_append _ _) h (by omega)
      have hlater : later <+: encodeUtf8 others := (List.prefix_append_right_inj _).mp h
      obtain ⟨front, hfront, hcases⟩ := ih hlater
      refine ⟨c :: front, List.cons_prefix_cons.mpr ⟨rfl, hfront⟩, ?_⟩
      have hdecode : decodeUtf8 (encodeUtf8Char c ++ later) = encodeChar c ++ decodeUtf8 later :=
        utf8From_encodeUtf8Char c later
      rw [hdecode, List.flatMap_cons]
      rcases hcases with ⟨hdecoded, hbytes⟩ | hdecoded
      · left
        rw [hdecoded, hbytes]
        refine ⟨rfl, ?_⟩
        unfold encodeUtf8
        rw [List.flatMap_cons]
      · right
        rw [hdecoded, List.append_assoc]

end Js
