/-
  OpencodeSwarm.Knowledge.EntryMerge

  The merge of one knowledge entry into another (`src/knowledge/entry-merge.ts`).
  The target is changed in place and the source is left as it is, so a merge is
  a function to the target's new state.  An array is an object: it carries an
  address, and a merge that builds arrays takes them from the next free ones.
-/
import OpencodeSwarm.Lib.Json
import Mathlib.Data.Rat.Defs
import Mathlib.Algebra.Order.Field.Rat

namespace OpencodeSwarm

open Js

/-! ## Entries -/

/-- An array of the heap: where it is, and what it holds. -/
structure HeapArray (α : Type*) where
  address : Nat
  items : List α

/-- The items of an optional array, none when the field has no array. -/
def arrayItems {α : Type*} (array : Option (HeapArray α)) : List α :=
  (array.map HeapArray.items).getD []

/-- A record of `confirmed_by`: the fields its key is made of and the rest, or a
    value that is no object, as its JSON text. -/
inductive ConfirmationRecord where
  | record (phaseNumber : Option Int) (projectName confirmedAt : Option JsString) (rest : JsString)
  | other (text : JsString)
  deriving DecidableEq

/-- The string arrays of an entry. -/
inductive StringArrayField where
  | tags | sourceRefs | requiredActions | forbiddenActions | verificationChecks | appliesToAgents
  | appliesToTools | triggers | sourceKnowledgeIds | mergedFrom
  deriving DecidableEq

/-- `numericKeys`. -/
inductive OutcomeCounter where
  | applied | succeededAfter | failedAfter | shown | acknowledged | appliedExplicit | ignored
  | violated | contradicted | notApplicable | succeededAfterShown | failedAfterShown
  | partialAfterShown
  deriving DecidableEq

structure RetrievalOutcome where
  counters : OutcomeCounter → Option Nat
  lastAppliedAt : Option JsString
  violationTimestamps : Option (HeapArray JsString)

structure KnowledgeEntryBase where
  id : JsString
  lesson : JsString
  confirmedBy : Option (HeapArray ConfirmationRecord)
  arrays : StringArrayField → Option (HeapArray JsString)
  directivePriority : Option JsString
  retrievalOutcomes : Option RetrievalOutcome
  confidence : ℚ
  createdAt : Option JsString
  updatedAt : Option JsString
  contentHash : Option JsString
  revision : Option Nat

/-- What a merge takes from elsewhere. -/
structure EntryHost where
  toLowerCase : JsString → JsString
  computeContentHash : JsString → JsString

/-! ## Unions -/

def mergeFieldCap : Nat := 20
def mergeSourceKnowledgeIdCap : Nat := 50

/-- The loop of `dedupeCapped`, with the keys it has seen and what it has put out. -/
def dedupeCappedLoop (host : EntryHost) (cap : Nat) :
    (seen out : List JsString) → List JsString → List JsString
  | _, out, [] => out
  | seen, out, item :: rest =>
    if cap ≤ out.length then out
    else
      let key := host.toLowerCase item
      if seen.contains key then dedupeCappedLoop host cap seen out rest
      else dedupeCappedLoop host cap (key :: seen) (out ++ [item]) rest

def dedupeCapped (host : EntryHost) (values : List JsString) (cap : Nat) : List JsString :=
  dedupeCappedLoop host cap [] [] values

/-- `unionArrayField`, for the field of one name. -/
def unionArrayField (host : EntryHost) (fresh : Nat) (target src : Option (HeapArray JsString))
    (cap : Nat) : Option (HeapArray JsString) :=
  if target.isNone && src.isNone then target
  else some ⟨fresh, dedupeCapped host (arrayItems target ++ arrayItems src) cap⟩

/-- `Array.from(new Set([...target, ...src]))`. -/
def unionSourceRefs (fresh : Nat) (target src : Option (HeapArray JsString)) :
    Option (HeapArray JsString) :=
  if target.isNone && src.isNone then target
  else some ⟨fresh, ((arrayItems target ++ arrayItems src).reverse.dedup).reverse⟩

/-- The composite key of a record. -/
def confirmationKey : ConfirmationRecord → JsString
  | .record phaseNumber projectName confirmedAt _ =>
    (phaseNumber.map integerText).getD [] ++ js "|" ++ projectName.getD [] ++ js "|"
      ++ confirmedAt.getD []
  | .other text => text

/-- The loop over the second list, with the keys it has seen and the merged list. -/
def unionConfirmedLoop : (seen : List JsString) → (merged rest : List ConfirmationRecord) →
    List ConfirmationRecord
  | _, merged, [] => merged
  | seen, merged, rec :: rest =>
    let k := confirmationKey rec
    if seen.contains k then unionConfirmedLoop seen merged rest
    else unionConfirmedLoop (k :: seen) (merged ++ [rec]) rest

def unionConfirmedBy (fresh : Nat) (a b : Option (HeapArray ConfirmationRecord)) :
    HeapArray ConfirmationRecord :=
  match a, b with
  | none, none => ⟨fresh, []⟩
  | none, some b => ⟨fresh, b.items⟩
  | some a, none => ⟨fresh, a.items⟩
  | some a, some b => ⟨fresh, unionConfirmedLoop (a.items.map confirmationKey) a.items b.items⟩

def cloneRetrievalOutcomes (fresh : Nat) (source : RetrievalOutcome) : RetrievalOutcome :=
  { source with
    violationTimestamps := source.violationTimestamps.map fun array => ⟨fresh, array.items⟩ }

/-- One counter of the target. -/
def sumCounter (tv sv : Option Nat) : Option Nat :=
  if tv.isSome || sv.isSome then some (tv.getD 0 + sv.getD 0) else tv

/-- `s < t` on strings. -/
def stringLt (s t : JsString) : Bool := !codeUnitLe t s

/-- The outcomes of two entries together. -/
def sumRetrievalOutcomes (fresh : Nat) (target src : Option RetrievalOutcome) :
    Option RetrievalOutcome :=
  match src with
  | none => target
  | some s =>
    match target with
    | none => some (cloneRetrievalOutcomes fresh s)
    | some t =>
      some {
        counters := fun k => sumCounter (t.counters k) (s.counters k)
        lastAppliedAt :=
          match truthyString s.lastAppliedAt with
          | none => t.lastAppliedAt
          | some last =>
            if (truthyString t.lastAppliedAt).all fun old => stringLt old last then some last
            else t.lastAppliedAt
        violationTimestamps := t.violationTimestamps }

/-! ## Confidence -/

def evidenceWeight (outcomes : Option RetrievalOutcome)
    (confirmedBy : Option (HeapArray ConfirmationRecord)) : ℚ :=
  let counted := [OutcomeCounter.shown, .acknowledged, .appliedExplicit].map fun k =>
    ((outcomes.bind fun o => o.counters k).getD 0)
  max ((counted.sum + (arrayItems confirmedBy).length : Nat) : ℚ) (1 / 2)

/-- It runs on the target as the union and the sum have left it. -/
def weightedConfidence (target src : KnowledgeEntryBase) : ℚ :=
  let wt := evidenceWeight target.retrievalOutcomes target.confirmedBy
  let ws := evidenceWeight src.retrievalOutcomes src.confirmedBy
  (target.confidence * wt + src.confidence * ws) / (wt + ws)

/-! ## The merge -/

/-- The address of the array that a merge builds for a field. -/
def freshFor (next : Nat) : StringArrayField → Nat
  | .tags => next + 1
  | .sourceRefs => next + 2
  | .requiredActions => next + 3
  | .forbiddenActions => next + 4
  | .verificationChecks => next + 5
  | .appliesToAgents => next + 6
  | .appliesToTools => next + 7
  | .triggers => next + 8
  | .sourceKnowledgeIds => next + 9
  | .mergedFrom => next + 10

/-- How many arrays a merge may build. -/
def arraysPerMerge : Nat := 12

/-- The array fields of the target after a merge. -/
def mergedArrays (host : EntryHost) (next : Nat) (target src : KnowledgeEntryBase) :
    StringArrayField → Option (HeapArray JsString)
  | .tags =>
    -- the one field that is required, so it is there afterwards in any case
    let tags := unionArrayField host (freshFor next .tags) (target.arrays .tags) (src.arrays .tags)
      mergeFieldCap
    some (tags.getD ⟨freshFor next .tags, []⟩)
  | .sourceRefs =>
    unionSourceRefs (freshFor next .sourceRefs) (target.arrays .sourceRefs)
      (src.arrays .sourceRefs)
  | .sourceKnowledgeIds =>
    unionArrayField host (freshFor next .sourceKnowledgeIds) (target.arrays .sourceKnowledgeIds)
      (src.arrays .sourceKnowledgeIds) mergeSourceKnowledgeIdCap
  | .mergedFrom =>
    let trail := arrayItems (target.arrays .mergedFrom)
    some ⟨freshFor next .mergedFrom, if trail.contains src.id then trail else trail ++ [src.id]⟩
  | field =>
    unionArrayField host (freshFor next field) (target.arrays field) (src.arrays field)
      mergeFieldCap

/-- `mergeEntryFields`: the target as the call leaves it. -/
def mergeEntryFields (host : EntryHost) (next : Nat) (target src : KnowledgeEntryBase) :
    KnowledgeEntryBase :=
  let confirmedBy := unionConfirmedBy next target.confirmedBy src.confirmedBy
  let outcomes := sumRetrievalOutcomes (next + 11) target.retrievalOutcomes src.retrievalOutcomes
  let united : KnowledgeEntryBase :=
    { target with confirmedBy := some confirmedBy, retrievalOutcomes := outcomes }
  let swapped : Bool := target.lesson.length < src.lesson.length
  { id := target.id
    lesson := if swapped then src.lesson else target.lesson
    confirmedBy := some confirmedBy
    arrays := mergedArrays host next target src
    directivePriority := target.directivePriority.orElse fun _ => src.directivePriority
    retrievalOutcomes := outcomes
    confidence := weightedConfidence united src
    createdAt :=
      match truthyString src.createdAt with
      | none => target.createdAt
      | some created =>
        if target.createdAt.any fun old => stringLt created old then some created
        else target.createdAt
    updatedAt :=
      match truthyString src.updatedAt with
      | none => target.updatedAt
      | some updated =>
        if target.updatedAt.any fun old => stringLt old updated then some updated
        else target.updatedAt
    contentHash := if swapped then some (host.computeContentHash src.lesson) else target.contentHash
    revision := if swapped then some (target.revision.getD 0 + 1) else target.revision }

end OpencodeSwarm
