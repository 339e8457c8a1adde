/-
  OpencodeSwarm.Text.UnicodePreserved

  The replacement that keeps the file's typographic characters: it stands for the
  requested text exactly when the diff cuts none of them in two.
-/
import OpencodeSwarm.Text.OpcodeTiling
import OpencodeSwarm.Text.UnicodeText

namespace OpencodeSwarm

open Js

/-! ## `preserveUnicodeInReplacement` -/

/-- A `[start, end)` character span. -/
abbrev Span := Nat × Nat

/-- The matched regions, one behind the other. -/
def regionOf (content : JsString) (matches' : List Span) : JsString :=
  matches'.flatMap fun span => sliceOf content span.1 span.2

/-- What an opcode puts into the result. -/
def preservedPart (fileRegion newString : JsString) (op : Opcode) : JsString :=
  match op.tag with
  | .equal =>
    let origToNorm := buildOrigToNormMap fileRegion
    let origStart := (OrderedMap.get? (normToOrig origToNorm) op.i1).getD 0
    let origEnd :=
      advanceEnd origToNorm fileRegion.length op.i2 (fileRegion.length - origStart) origStart
    sliceOf fileRegion origStart origEnd
  | .replace | .insert => sliceOf newString op.j1 op.j2
  | .delete => []

def preserveUnicodeInReplacement (content : JsString) (matches' : List Span)
    (oldString newString : JsString) : JsString :=
  let fileRegion := regionOf content matches'
  let normOld := unicodeNormalize oldString
  if normOld ≠ unicodeNormalize fileRegion then newString
  else (getOpcodes none true normOld newString).flatMap (preservedPart fileRegion newString)

/-- A normalized position between two characters of the region. -/
def BetweenCharacters (fileRegion : JsString) (position : Nat) : Prop :=
  ∃ k ≤ fileRegion.length, normLength fileRegion k = position

/-! ## Slices -/

section Slices

variable {α : Type*} {start stop : Nat}

theorem length_sliceOf (s : List α) (hstop : stop ≤ s.length) :
    (sliceOf s start stop).length = stop - start := by
  rw [sliceOf, List.length_drop, List.length_take]
  omega

/-- A text is what is before a slice, the slice, and what is behind it. -/
theorem take_append_sliceOf (s : List α) (h : start ≤ stop) :
    s.take start ++ sliceOf s start stop = s.take stop := by
  unfold sliceOf
  have htake : (s.take stop).take start = s.take start := by
    rw [List.take_take]
    congr 1
    omega
  rw [← htake, List.take_append_drop]

end Slices

variable {start stop : Nat}

theorem unicodeNormalize_sliceOf {text : JsString} (h : start ≤ stop) :
    unicodeNormalize (sliceOf text start stop)
      = sliceOf (unicodeNormalize text) (normLength text start) (normLength text stop) := by
  have hfront := congrArg unicodeNormalize (take_append_sliceOf text h)
  rw [unicodeNormalize_append] at hfront
  have hwhole : unicodeNormalize text
      = unicodeNormalize (text.take stop) ++ unicodeNormalize (text.drop stop) := by
    rw [← unicodeNormalize_append, List.take_append_drop]
  unfold normLength sliceOf
  rw [hwhole, List.take_left, ← hfront, List.drop_left]
  rfl

/-! ## One opcode -/

section Part

variable {fileRegion newString : JsString} {op : Opcode}

theorem exists_preservedPart (htag : op.tag = .equal) (hless : op.i1 < op.i2)
    (hstop : op.i2 ≤ (unicodeNormalize fileRegion).length) :
    ∃ first last, first ≤ last ∧ last ≤ fileRegion.length
      ∧ unicodeNormalize (preservedPart fileRegion newString op)
        = sliceOf (unicodeNormalize fileRegion) (normLength fileRegion first)
          (normLength fileRegion last)
      ∧ (normLength fileRegion first = op.i1 ∨ first = 0 ∧ ¬ BetweenCharacters fileRegion op.i1)
      ∧ op.i2 ≤ normLength fileRegion last
      ∧ (BetweenCharacters fileRegion op.i2 → normLength fileRegion last = op.i2) := by
  obtain ⟨first, hfirst⟩ : ∃ first,
      (OrderedMap.get? (normToOrig (buildOrigToNormMap fileRegion)) op.i1).getD 0 = first :=
    ⟨_, rfl⟩
  have hstart : first ≤ fileRegion.length ∧ normLength fileRegion first ≤ op.i1
      ∧ (normLength fileRegion first = op.i1
        ∨ first = 0 ∧ ¬ BetweenCharacters fileRegion op.i1) := by
    cases hget : OrderedMap.get? (normToOrig (buildOrigToNormMap fileRegion)) op.i1 with
    | some k =>
      rw [hget] at hfirst
      have hk : k = first := hfirst
      subst hk
      obtain ⟨hlt, hposition⟩ := get?_normToOrig_iff.mp hget
      exact ⟨hlt.le, hposition.le, Or.inl hposition⟩
    | none =>
      rw [hget] at hfirst
      have hzero : first = 0 := hfirst.symm
      subst hzero
      refine ⟨Nat.zero_le _, by rw [normLength_zero]; exact Nat.zero_le _, Or.inr ⟨rfl, ?_⟩⟩
      rintro ⟨k, hk, hposition⟩
      have hlt : k < fileRegion.length := by
        by_contra hend
        have hkend : k = fileRegion.length := by omega
        rw [hkend, normLength_length] at hposition
        omega
      rw [get?_normToOrig_iff.mpr ⟨hlt, hposition⟩] at hget
      cases hget
  obtain ⟨hfirstLe, hfirstStop, hcase⟩ := hstart
  have hreach : op.i2 ≤ normLength fileRegion fileRegion.length := by
    rw [normLength_length]
    exact hstop
  obtain ⟨hle, hlast, hend, hbefore⟩ :=
    advanceEnd_spec hreach (fileRegion.length - first) first (by omega)
  have hpart : preservedPart fileRegion newString op = sliceOf fileRegion first
      (advanceEnd (buildOrigToNormMap fileRegion) fileRegion.length op.i2
        (fileRegion.length - first) first) := by
    rw [preservedPart, htag]
    dsimp only
    rw [hfirst]
  refine ⟨first, _, hle, hlast, ?_, hcase, hend, ?_⟩
  · rw [hpart, unicodeNormalize_sliceOf hle]
  · rintro ⟨k, hk, hposition⟩
    -- the first position that is far enough is the one between the characters
    by_contra hne
    have hfar : first ≤ k := by
      by_contra hnear
      have hlt := normLength_lt (show k < first by omega) hfirstLe
      omega
    by_cases hless' : k < advanceEnd (buildOrigToNormMap fileRegion) fileRegion.length op.i2
        (fileRegion.length - first) first
    · have hshort := hbefore k hfar hless'
      omega
    · by_cases heq : k = advanceEnd (buildOrigToNormMap fileRegion) fileRegion.length op.i2
          (fileRegion.length - first) first
      · exact hne (heq ▸ hposition)
      · have hlater : advanceEnd (buildOrigToNormMap fileRegion) fileRegion.length op.i2
            (fileRegion.length - first) first < k := by omega
        have hlt := normLength_lt hlater hk
        omega

/-- An equal part stands for its slice, or is longer because a character was cut. -/
theorem preservedPart_or (htag : op.tag = .equal) (hless : op.i1 < op.i2)
    (hstop : op.i2 ≤ (unicodeNormalize fileRegion).length) :
    unicodeNormalize (preservedPart fileRegion newString op)
          = sliceOf (unicodeNormalize fileRegion) op.i1 op.i2
        ∧ BetweenCharacters fileRegion op.i1 ∧ BetweenCharacters fileRegion op.i2
      ∨ op.i2 - op.i1 < (unicodeNormalize (preservedPart fileRegion newString op)).length
        ∧ ¬ (BetweenCharacters fileRegion op.i1 ∧ BetweenCharacters fileRegion op.i2) := by
  obtain ⟨first, last, hle, hlast, hpart, hfirst, hend, hexact⟩ :=
    @exists_preservedPart fileRegion newString op htag hless hstop
  have hlastLe : normLength fileRegion last ≤ (unicodeNormalize fileRegion).length := by
    rw [← normLength_length]
    exact normLength_le hlast (le_refl _)
  rw [hpart]
  by_cases haligned : BetweenCharacters fileRegion op.i1 ∧ BetweenCharacters fileRegion op.i2
  · left
    have hstart : normLength fileRegion first = op.i1 :=
      hfirst.resolve_right fun h => h.2 haligned.1
    rw [hstart, hexact haligned.2]
    exact ⟨rfl, haligned⟩
  · right
    refine ⟨?_, haligned⟩
    rw [length_sliceOf _ hlastLe]
    rcases hfirst with hstart | ⟨rfl, hcut⟩
    · -- the end is cut, and what is behind the cut comes along
      have hcutEnd : ¬ BetweenCharacters fileRegion op.i2 := fun h =>
        haligned ⟨⟨first, hle.trans hlast, hstart⟩, h⟩
      have hne : normLength fileRegion last ≠ op.i2 := fun heq => hcutEnd ⟨last, hlast, heq⟩
      omega
    · -- the start is cut: the part begins with the region
      have hpositive : 0 < op.i1 := by
        by_contra hzero
        have hzero : op.i1 = 0 := by omega
        exact hcut ⟨0, Nat.zero_le _, by rw [hzero, normLength_zero]⟩
      rw [normLength_zero]
      omega

end Part

/-! ## All opcodes -/

/-- Parts that are equal or longer make a text that is equal only where all of them are. -/
theorem flatMap_eq_iff_of_longer {α β : Type*} {ops : List α} {f g : α → List β} {good : α → Prop}
    (h : ∀ op ∈ ops, f op = g op ∧ good op ∨ (g op).length < (f op).length ∧ ¬ good op) :
    ops.flatMap f = ops.flatMap g ↔ ∀ op ∈ ops, good op := by
  have hle : ∀ rest : List α, (∀ op ∈ rest, op ∈ ops) →
      (rest.flatMap g).length ≤ (rest.flatMap f).length := by
    intro rest hrest
    induction rest with
    | nil => exact le_refl _
    | cons op rest ih =>
      have htail := ih fun other hother => hrest other (List.mem_cons_of_mem _ hother)
      rw [List.flatMap_cons, List.flatMap_cons, List.length_append, List.length_append]
      rcases h op (hrest op List.mem_cons_self) with ⟨heq, -⟩ | ⟨hlonger, -⟩
      · rw [heq]
        omega
      · omega
  constructor
  · intro heq op hop
    by_contra hbad
    obtain ⟨front, back, rfl⟩ := List.append_of_mem hop
    have hlonger : (g op).length < (f op).length := by
      rcases h op hop with ⟨-, hgood⟩ | ⟨hlonger, -⟩
      · exact absurd hgood hbad
      · exact hlonger
    have hfront := hle front fun other hother => List.mem_append_left _ hother
    have hback := hle back fun other hother =>
      List.mem_append_right _ (List.mem_cons_of_mem _ hother)
    have hlength := congrArg List.length heq
    rw [List.flatMap_append, List.flatMap_append, List.flatMap_cons, List.flatMap_cons,
      List.length_append, List.length_append, List.length_append, List.length_append] at hlength
    omega
  · intro hall
    refine List.flatMap_congr fun op hop => ?_
    rcases h op hop with ⟨heq, -⟩ | ⟨-, hbad⟩
    · exact heq
    · exact absurd (hall op hop) hbad

theorem unicodeNormalize_flatMap {α : Type*} (ops : List α) (f : α → JsString) :
    unicodeNormalize (ops.flatMap f) = ops.flatMap fun op => unicodeNormalize (f op) := by
  rw [unicodeNormalize_eq, List.flatMap_assoc]
  exact List.flatMap_congr fun op _ => (unicodeNormalize_eq (f op)).symm

variable {i j : Nat}

theorem lt_of_mem_opcodesFrom {blocks : List Match} {op : Opcode} (h : op ∈ opcodesFrom i j blocks)
    (htag : op.tag = .equal) : op.i1 < op.i2 := by
  induction blocks generalizing i j with
  | nil => cases h
  | cons block rest ih =>
    rcases List.mem_append.mp h with hblock | hrest
    · rcases List.mem_append.mp hblock with hgap | hequal
      · split at hgap
        · rw [List.mem_singleton.mp hgap] at htag
          cases htag
        · split at hgap
          · rw [List.mem_singleton.mp hgap] at htag
            cases htag
          · split at hgap
            · rw [List.mem_singleton.mp hgap] at htag
              cases htag
            · cases hgap
      · split at hequal
        · next hsize =>
          rw [List.mem_singleton.mp hequal]
          exact Nat.lt_add_of_pos_right hsize
        · cases hequal
    · exact ih hrest

theorem Tiles.le_of_mem {ranges : List (Nat × Nat)} (h : Tiles start stop ranges) :
    start ≤ stop ∧ ∀ range ∈ ranges, range.2 ≤ stop := by
  induction ranges generalizing start with
  | nil => exact ⟨h.le, List.forall_mem_nil _⟩
  | cons range rest ih =>
    obtain ⟨hlo, hle, hrest⟩ := h
    obtain ⟨hstop, hall⟩ := ih hrest
    refine ⟨by omega, fun other hother => ?_⟩
    rcases List.mem_cons.mp hother with rfl | hother
    · exact hstop
    · exact hall other hother

theorem TransformsFrom.stop_le {α : Type*} {a b : List α} {ops : List Opcode}
    (h : TransformsFrom a b i j ops) {op : Opcode} (hop : op ∈ ops) : op.i2 ≤ a.length :=
  h.tilesA.le_of_mem.2 (op.i1, op.i2) (List.mem_map_of_mem hop)

/-- The result is normalized as the new string is exactly when every equal opcode begins and
    ends between characters of the region. -/
theorem preserveUnicode_normalize_iff (content : JsString) (matches' : List Span)
    (oldString newString : JsString)
    (h : unicodeNormalize oldString = unicodeNormalize (regionOf content matches')) :
    unicodeNormalize (preserveUnicodeInReplacement content matches' oldString newString)
        = unicodeNormalize newString
      ↔ ∀ op ∈ getOpcodes none true (unicodeNormalize oldString) newString, op.tag = .equal →
        BetweenCharacters (regionOf content matches') op.i1
          ∧ BetweenCharacters (regionOf content matches') op.i2 := by
  have hops := transformsFrom_getOpcodes none true (unicodeNormalize oldString) newString
  have hnew : unicodeNormalize newString
      = (getOpcodes none true (unicodeNormalize oldString) newString).flatMap fun op =>
        unicodeNormalize (op.written (unicodeNormalize oldString) newString) := by
    rw [← unicodeNormalize_flatMap, hops.result]
    rfl
  rw [preserveUnicodeInReplacement, if_neg (not_not.mpr h), unicodeNormalize_flatMap, hnew]
  refine flatMap_eq_iff_of_longer fun op hop => ?_
  by_cases htag : op.tag = .equal
  · have hless := lt_of_mem_opcodesFrom hop htag
    have hstop := hops.stop_le hop
    have hwritten : unicodeNormalize (op.written (unicodeNormalize oldString) newString)
        = sliceOf (unicodeNormalize oldString) op.i1 op.i2 := by
      rw [Opcode.written, htag]
      refine unicodeNormalize_of_normal fun c hc => ?_
      exact normal_of_mem_unicodeNormalize (List.mem_of_mem_take (List.mem_of_mem_drop hc))
    rw [hwritten]
    rw [h] at hstop ⊢
    rcases @preservedPart_or (regionOf content matches') newString op htag hless hstop with
      ⟨heq, haligned⟩ | ⟨hlonger, hcut⟩
    · exact Or.inl ⟨heq, fun _ => haligned⟩
    · refine Or.inr ⟨?_, fun hgood => hcut (hgood htag)⟩
      rw [length_sliceOf _ hstop]
      exact hlonger
  · refine Or.inl ⟨?_, fun heq => absurd heq htag⟩
    unfold preservedPart Opcode.written
    cases hop' : op.tag with
    | equal => exact absurd hop' htag
    | replace | delete | insert => rfl

/-- An ellipsis is kept, and the letter behind it is changed. -/
theorem preserveUnicode_normalize_ellipsis :
    unicodeNormalize (preserveUnicodeInReplacement [0x61, 0x2026, 0x62] [(0, 3)]
        [0x61, 0x2E, 0x2E, 0x2E, 0x62] [0x61, 0x2E, 0x2E, 0x2E, 0x63])
      = unicodeNormalize [0x61, 0x2E, 0x2E, 0x2E, 0x63] := by
  refine (preserveUnicode_normalize_iff _ _ _ _ (by decide +kernel)).mpr ?_
  intro op hop htag
  rcases List.mem_cons.mp hop with rfl | hop
  · exact ⟨⟨0, by decide +kernel, by decide +kernel⟩, ⟨2, by decide +kernel, by decide +kernel⟩⟩
  · rw [List.mem_singleton.mp hop] at htag
    cases htag

/-- One of the two dashes that an em dash stands for is to go: the em dash stays. -/
theorem not_preserveUnicode_normalize_dash : ¬ ∀ (content : JsString) (matches' : List Span)
    (oldString newString : JsString),
    unicodeNormalize oldString = unicodeNormalize (regionOf content matches') →
    unicodeNormalize (preserveUnicodeInReplacement content matches' oldString newString)
      = unicodeNormalize newString := by
  intro hall
  have hkept := hall [0x61, 0x2014, 0x62] [(0, 3)] [0x61, 0x2D, 0x2D, 0x62] [0x61, 0x2D, 0x62]
    (by decide +kernel)
  exact absurd hkept (by decide +kernel)

end OpencodeSwarm
