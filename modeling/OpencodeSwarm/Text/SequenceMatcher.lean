/-
  OpencodeSwarm.Text.SequenceMatcher

  The sequence matcher (`src/utils/sequence-matcher.ts`): the index of the second
  sequence without its junk and popular elements, the longest match in a pair of
  ranges, the matching blocks found with a stack of ranges, the ratio, and the
  opcodes.
-/
import Mathlib.Data.Rat.Defs
import OpencodeSwarm.Lib.JsString
import OpencodeSwarm.Lib.OrderedMap

namespace OpencodeSwarm

open Js

/-! ## Blocks, ranges, opcodes -/

structure Match where
  a : Nat
  b : Nat
  size : Nat
  deriving DecidableEq

/-- A pair of ranges on the stack: `[alo, ahi)` and `[blo, bhi)`. -/
structure Ranges where
  alo : Nat
  ahi : Nat
  blo : Nat
  bhi : Nat
  deriving DecidableEq

inductive OpcodeTag where
  | equal
  | replace
  | delete
  | insert
  deriving DecidableEq

structure Opcode where
  tag : OpcodeTag
  i1 : Nat
  i2 : Nat
  j1 : Nat
  j2 : Nat
  deriving DecidableEq

section Matcher

variable {α : Type*} [DecidableEq α]

/-! ## `chainB` -/

/-- The positions of every element, in order: the loop over `b`. -/
def positionsOf (b : List α) : OrderedMap α (List Nat) :=
  b.zipIdx.foldl (fun b2j entry =>
    OrderedMap.set b2j entry.1 ((OrderedMap.get? b2j entry.1).getD [] ++ [entry.2])) []

/-- More positions than one in a hundred, and a half. -/
def isPopular (length : Nat) (indices : List Nat) : Bool := length + 50 < 100 * indices.length

/-- `b2j`, without the junk and, where the heuristic applies, without the popular elements. -/
def chainB (isJunk : Option (α → Bool)) (autoJunk : Bool) (b : List α) :
    OrderedMap α (List Nat) :=
  let kept := match isJunk with
    | some isJunk => (positionsOf b).filter fun entry => !isJunk entry.1
    | none => positionsOf b
  if autoJunk && 200 ≤ b.length then
    kept.filter fun entry => !isPopular b.length entry.2
  else kept

/-! ## `findLongestMatch` -/

/-- The lengths of the runs that end in a row, and the best match so far. -/
structure Scan where
  j2len : OrderedMap Nat Nat
  best : Match

/-- `j2len.get(j - 1) ?? 0`. -/
def runBefore (j2len : OrderedMap Nat Nat) : Nat → Nat
  | 0 => 0
  | j + 1 => (OrderedMap.get? j2len j).getD 0

/-- The loop over the positions of `a[i]`. -/
def scanPositions (i blo bhi : Nat) (j2len : OrderedMap Nat Nat) : List Nat → Scan → Scan
  | [], scan => scan
  | j :: rest, scan =>
    if j < blo then scanPositions i blo bhi j2len rest scan
    else if bhi ≤ j then scan
    else
      let size := runBefore j2len j + 1
      scanPositions i blo bhi j2len rest
        { j2len := OrderedMap.set scan.j2len j size
          best := if scan.best.size < size then ⟨i + 1 - size, j + 1 - size, size⟩ else scan.best }

/-- One row. -/
def scanRow (b2j : OrderedMap α (List Nat)) (a : List α) (blo bhi : Nat) (scan : Scan) (i : Nat) :
    Scan :=
  match a[i]?.bind (OrderedMap.get? b2j) with
  | none => { scan with j2len := [] }
  | some positions => scanPositions i blo bhi scan.j2len positions { scan with j2len := [] }

/-- The first loop of the extension. -/
def extendBack (a b : List α) (alo blo : Nat) : Nat → Nat → Nat → Match
  | i + 1, j + 1, size =>
    if alo < i + 1 ∧ blo < j + 1 ∧ a[i]? = b[j]? then extendBack a b alo blo i j (size + 1)
    else ⟨i + 1, j + 1, size⟩
  | i, j, size => ⟨i, j, size⟩

/-- The second loop, as often as there are elements left in the range of `a`. -/
def extendForward (a b : List α) (ahi bhi : Nat) : Nat → Match → Match
  | 0, best => best
  | left + 1, best =>
    if best.a + best.size < ahi ∧ best.b + best.size < bhi
        ∧ a[best.a + best.size]? = b[best.b + best.size]? then
      extendForward a b ahi bhi left { best with size := best.size + 1 }
    else best

def findLongestMatch (b2j : OrderedMap α (List Nat)) (a b : List α) (r : Ranges) : Match :=
  let best := ((List.range' r.alo (r.ahi - r.alo)).foldl (scanRow b2j a r.blo r.bhi)
    ⟨[], ⟨r.alo, r.blo, 0⟩⟩).best
  let extended := extendBack a b r.alo r.blo best.a best.b best.size
  extendForward a b r.ahi r.bhi (r.ahi - (extended.a + extended.size)) extended

/-! ## `getMatchingBlocks` -/

/-- The ranges that are pushed behind a match: the one pushed last is popped first. -/
def pushedRanges (r : Ranges) (m : Match) : List Ranges :=
  let left : Ranges := ⟨r.alo, m.a, r.blo, m.b⟩
  let right : Ranges := ⟨m.a + m.size, r.ahi, m.b + m.size, r.bhi⟩
  (if m.a + m.size < r.ahi ∧ m.b + m.size < r.bhi then [right] else [])
    ++ (if r.alo < m.a ∧ r.blo < m.b then [left] else [])

/-- The loop over the stack, its top first. -/
def collectBlocks (find : Ranges → Match) : Nat → List Ranges → List Match → List Match
  | 0, _, matches' => matches'
  | _ + 1, [], matches' => matches'
  | fuel + 1, r :: stack, matches' =>
    let m := find r
    if 0 < m.size then collectBlocks find fuel (pushedRanges r m ++ stack) (matches' ++ [m])
    else collectBlocks find fuel stack matches'

/-- The order of the blocks. -/
def compareBlocks (x y : Match) : Int :=
  if (x.a : Int) - y.a ≠ 0 then (x.a : Int) - y.a else (x.b : Int) - y.b

/-- The blocks that are found in the whole of both sequences. -/
def foundBlocks (isJunk : Option (α → Bool)) (autoJunk : Bool) (a b : List α) : List Match :=
  collectBlocks (findLongestMatch (chainB isJunk autoJunk b) a b) (2 * a.length + 1)
    [⟨0, a.length, 0, b.length⟩] []

def getMatchingBlocks (isJunk : Option (α → Bool)) (autoJunk : Bool) (a b : List α) : List Match :=
  sortBy compareBlocks (foundBlocks isJunk autoJunk a b) ++ [⟨a.length, b.length, 0⟩]

def ratio (isJunk : Option (α → Bool)) (autoJunk : Bool) (a b : List α) : Rat :=
  let m := ((getMatchingBlocks isJunk autoJunk a b).map Match.size).sum
  let t := a.length + b.length
  if t = 0 then 1 else 2 * m / t

/-! ## `getOpcodes` -/

/-- The opcodes of a block, behind those before `(i, j)`. -/
def blockOpcodes (i j : Nat) (block : Match) : List Opcode :=
  (if i < block.a ∧ j < block.b then [⟨.replace, i, block.a, j, block.b⟩]
    else if i < block.a then [⟨.delete, i, block.a, j, block.b⟩]
    else if j < block.b then [⟨.insert, i, block.a, j, block.b⟩]
    else [])
  ++ (if 0 < block.size then
      [⟨.equal, block.a, block.a + block.size, block.b, block.b + block.size⟩] else [])

/-- The loop over the blocks. -/
def opcodesFrom : Nat → Nat → List Match → List Opcode
  | _, _, [] => []
  | i, j, block :: rest =>
    blockOpcodes i j block ++ opcodesFrom (block.a + block.size) (block.b + block.size) rest

def getOpcodes (isJunk : Option (α → Bool)) (autoJunk : Bool) (a b : List α) : List Opcode :=
  opcodesFrom 0 0 (getMatchingBlocks isJunk autoJunk a b)

end Matcher

example : getOpcodes none true (js "qabxcd") (js "abycdf")
    = [⟨.delete, 0, 1, 0, 0⟩, ⟨.equal, 1, 3, 0, 2⟩, ⟨.replace, 3, 4, 2, 3⟩, ⟨.equal, 4, 6, 3, 5⟩,
      ⟨.insert, 6, 6, 5, 6⟩] := by decide +kernel

end OpencodeSwarm
