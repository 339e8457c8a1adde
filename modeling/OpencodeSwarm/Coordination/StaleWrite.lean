/-
  OpencodeSwarm.Coordination.StaleWrite

  Compare-and-swap on coordination rows.  A row's revision grows with every
  transition, but a row that was deleted starts again at 1: a transition whose read
  is from before the deletion is refused only while the new row has not come to the
  same revision, or is of a newer generation.
-/
import OpencodeSwarm.Coordination.StoreFacts
import OpencodeSwarm.Lib.Transition

namespace OpencodeSwarm

open Js Sql Transition

/-! ## Clients -/

/-- What a client has read of an entity and not yet used. -/
structure CoordinationRead where
  client : Nat
  namespace_ : JsString
  entityKey : JsString
  state : Option CoordinationState
  deriving DecidableEq

/-- What a client adds to its read in a transition; the generation is of use when
    the row was absent. -/
structure CoordinationWrite where
  generation : Int
  status : JsString
  payload : JsString
  event : Option CoordinationEventInput
  deriving DecidableEq

/-- The transition of a client: the read revision, or null, and the read
    generation. -/
def CoordinationRead.input (read : CoordinationRead) (write : CoordinationWrite) :
    CoordinationTransitionInput where
  namespace_ := read.namespace_
  entityKey := read.entityKey
  expectedRevision := match read.state with
    | none => .absent
    | some seen => .revision seen.revision
  generation := match read.state with
    | none => write.generation
    | some seen => seen.generation
  status := write.status
  payload := write.payload
  event := write.event

structure CoordinationWorld where
  db : CoordinationDb
  reads : List CoordinationRead
  deriving DecidableEq

/-- A client, or another process, at the store. -/
inductive CoordinationStep where
  /-- `getCoordinationState`. -/
  | read (client : Nat) (namespace_ entityKey : JsString)
  /-- A client uses its read. -/
  | transition (read : CoordinationRead) (write : CoordinationWrite) (bounds : EventBounds)
      (now : JsString)
  /-- A client forgets its read. -/
  | forget (read : CoordinationRead)
  /-- A transition with any other input. -/
  | otherTransition (input : CoordinationTransitionInput) (bounds : EventBounds) (now : JsString)
  | delete (namespace_ entityKey : JsString) (expectedRevision : Option Nat)

section Step

variable (digestPayload : JsString → JsString)

/-- One call, as a transaction. -/
def coordinationStep (w : CoordinationWorld) : CoordinationStep → CoordinationWorld
  | .read client namespace_ entityKey =>
    match readState w.db namespace_ entityKey with
    | .error _ => w
    | .ok state => { w with reads := w.reads ++ [⟨client, namespace_, entityKey, state⟩] }
  | .transition read write bounds now =>
    if read ∈ w.reads then
      { db := w.db.after digestPayload bounds now (read.input write), reads := w.reads.erase read }
    else w
  | .forget read => { w with reads := w.reads.erase read }
  | .otherTransition input bounds now => { w with db := w.db.after digestPayload bounds now input }
  | .delete namespace_ entityKey expectedRevision =>
    { w with db := (deleteCoordinationState w.db namespace_ entityKey expectedRevision).2 }

/-- The row is as the client read it. -/
def CoordinationState.sameAs (seen row : CoordinationState) : Bool :=
  row.payload == seen.payload && row.status == seen.status && row.generation == seen.generation

/-- The transition gives the row the revision that the client has read, with other
    content and no newer generation. -/
def reissues (db : CoordinationDb) (input : CoordinationTransitionInput)
    (read : CoordinationRead) : Bool :=
  let current := db.row input.namespace_ input.entityKey
  transitionOutcome digestPayload db input current == .applied
    && (read.namespace_, read.entityKey) == (input.namespace_, input.entityKey)
    && read.state.any fun seen =>
      (nextState [] input current).revision == seen.revision && input.generation ≤ seen.generation
        && !seen.sameAs (nextState [] input current)

/-- The call reissues a revision that a client still holds. -/
def reissuesRevision (w : CoordinationWorld) : CoordinationStep → Bool
  | .transition read write _ _ =>
      (w.reads.erase read).any (reissues digestPayload w.db (read.input write))
  | .otherTransition input _ _ => w.reads.any (reissues digestPayload w.db input)
  | _ => false

/-- The row is still what the client read, or still absent. -/
def CoordinationRead.StillCurrent (read : CoordinationRead) (db : CoordinationDb) : Prop :=
  match read.state with
  | none => db.row read.namespace_ read.entityKey = none
  | some seen => ∃ row, db.row read.namespace_ read.entityKey = some row ∧ seen.sameAs row = true

/-- No transition of a client is answered `applied` on a row that is not what the
    client read. -/
def NoStaleWrite (w : CoordinationWorld) : Prop :=
  ∀ read ∈ w.reads, ∀ write bounds now next result,
    transitionCoordinationState digestPayload bounds now w.db (read.input write)
      = .ok (next, result) →
      result.outcome = .applied → read.StillCurrent w.db

end Step

/-- Before any read. -/
structure CoordinationStart (w : CoordinationWorld) : Prop where
  keyed : w.db.Keyed
  reads : w.reads = []

/-! ## The invariant -/

/-- A row of the revision the client read has what the client read, or a newer
    generation. -/
def Fenced (db : CoordinationDb) (read : CoordinationRead) : Prop :=
  ∀ seen ∈ read.state, ∀ row ∈ db.row read.namespace_ read.entityKey,
    row.revision = seen.revision → seen.generation < row.generation ∨ seen.sameAs row = true

structure CoordinationInvariant (w : CoordinationWorld) : Prop where
  keyed : w.db.Keyed
  fenced : ∀ read ∈ w.reads, Fenced w.db read

variable {digestPayload : JsString → JsString}

theorem CoordinationState.sameAs_self (row : CoordinationState) : row.sameAs row = true := by
  rw [sameAs, beq_self_eq_true, beq_self_eq_true, beq_self_eq_true]
  rfl

variable {db : CoordinationDb}

theorem Fenced.after {read : CoordinationRead} {input : CoordinationTransitionInput}
    (h : Fenced db read) (bounds : EventBounds) (now : JsString)
    (hguard : reissues digestPayload db input read = false) :
    Fenced (db.after digestPayload bounds now input) read := by
  rcases after_cases db bounds now input with hsame | happlies
  · rw [hsame]
    exact h
  · by_cases hentity : (input.namespace_, input.entityKey) = (read.namespace_, read.entityKey)
    · intro seen hseen row hrow hrevision
      obtain ⟨hns, hkey⟩ := Prod.mk.inj hentity
      have hself := happlies.row_self
      rw [hns, hkey] at hself
      rw [hself, Option.mem_some_iff] at hrow
      subst hrow
      by_contra hneither
      rw [not_or, not_lt] at hneither
      obtain ⟨hgeneration, hcontent⟩ := hneither
      -- the guard names exactly this write
      have hreissues : reissues digestPayload db input read = true := by
        have hstate : read.state = some seen := hseen
        have houtcome := happlies.outcome
        simp only [reissues, hstate, Option.any_some, Bool.and_eq_true, beq_iff_eq,
          decide_eq_true_eq, Bool.not_eq_eq_eq_not, Bool.not_true]
        refine ⟨⟨houtcome, hentity.symm⟩, ⟨?_, hgeneration⟩, ?_⟩
        · rw [hns, hkey]
          exact hrevision
        · exact Bool.not_eq_true _ ▸ hcontent
      rw [hguard] at hreissues
      cases hreissues
    · intro seen hseen row hrow
      rw [happlies.row_of_ne hentity] at hrow
      exact h seen hseen row hrow

theorem Keyed.after (h : db.Keyed) (bounds : EventBounds) (now : JsString)
    (input : CoordinationTransitionInput) : (db.after digestPayload bounds now input).Keyed := by
  rcases after_cases db bounds now input with hsame | happlies
  · rw [hsame]
    exact h
  · exact happlies.keyed h

variable {w : CoordinationWorld}

theorem CoordinationStart.invariant (h : CoordinationStart w) : CoordinationInvariant w := by
  refine ⟨h.keyed, fun read hread => ?_⟩
  rw [h.reads] at hread
  cases hread

theorem CoordinationInvariant.step (h : CoordinationInvariant w) {event : CoordinationStep}
    (hguard : reissuesRevision digestPayload w event = false) :
    CoordinationInvariant (coordinationStep digestPayload w event) := by
  obtain ⟨hkeyed, hfenced⟩ := h
  cases event with
  | read client namespace_ entityKey =>
    simp only [coordinationStep]
    split
    · exact ⟨hkeyed, hfenced⟩
    rename_i state hstate
    refine ⟨hkeyed, fun read hread => ?_⟩
    rcases List.mem_append.mp hread with hold | hnew
    · exact hfenced read hold
    -- a fresh read shows the row itself
    rw [List.mem_singleton.mp hnew]
    intro seen hseen row hrow _
    have hcurrent := readState_eq_ok hstate
    have hsame : seen = row := Option.some.inj (hseen.symm.trans (hcurrent.symm.trans hrow))
    rw [hsame]
    exact Or.inr row.sameAs_self
  | transition read write bounds now =>
    simp only [coordinationStep]
    split_ifs with hheld
    · refine ⟨Keyed.after hkeyed bounds now _, fun other hother => ?_⟩
      have hfree := List.any_eq_false.mp hguard other hother
      exact (hfenced other (List.mem_of_mem_erase hother)).after bounds now
        (Bool.not_eq_true _ ▸ hfree)
    · exact ⟨hkeyed, hfenced⟩
  | forget read =>
    exact ⟨hkeyed, fun other hother => hfenced other (List.mem_of_mem_erase hother)⟩
  | otherTransition input bounds now =>
    refine ⟨Keyed.after hkeyed bounds now _, fun other hother => ?_⟩
    have hfree := List.any_eq_false.mp hguard other hother
    exact (hfenced other hother).after bounds now (Bool.not_eq_true _ ▸ hfree)
  | delete namespace_ entityKey expectedRevision =>
    have hdelete := row_deleteCoordinationState hkeyed namespace_ entityKey expectedRevision
    refine ⟨(hdelete [] []).1, fun read hread seen hseen row hrow => ?_⟩
    rcases (hdelete read.namespace_ read.entityKey).2 with hnone | hsame
    · have hgone : none = some row := hnone.symm.trans hrow
      cases hgone
    · refine hfenced read hread seen hseen row ?_
      rw [← hsame]
      exact hrow

/-! ## Runs -/

/-- Behind the fence a transition writes only what its client has read. -/
theorem CoordinationInvariant.noStaleWrite (h : CoordinationInvariant w) :
    NoStaleWrite digestPayload w := by
  intro read hread write bounds now next result hanswer happlied
  rcases transition_cases hanswer with ⟨hnot, -⟩ | ⟨-, happlies, -⟩
  · exact absurd happlied hnot
  obtain ⟨-, hgeneration, hrevision⟩ := outcome_eq_applied happlies.outcome
  have hfenced := h.fenced read hread
  unfold CoordinationRead.StillCurrent
  cases hstate : read.state with
  | none =>
    simp only [CoordinationRead.input, hstate, revisionConflicts] at hrevision
    exact Option.isNone_iff_eq_none.mp (Option.isSome_eq_false_iff.mp hrevision)
  | some seen =>
    simp only [CoordinationRead.input, hstate, revisionConflicts] at hrevision hgeneration
    cases hrow : w.db.row read.namespace_ read.entityKey with
    | none =>
      rw [hrow] at hrevision
      cases hrevision
    | some row =>
      rw [hrow] at hrevision hgeneration
      refine ⟨row, rfl, ?_⟩
      have hsame : row.revision = seen.revision := by
        rw [Option.all_some, decide_eq_false_iff_not, not_not] at hrevision
        exact Int.ofNat.inj hrevision
      have hle := hgeneration row rfl
      rcases hfenced seen hstate row hrow hsame with hnewer | hcontent
      · omega
      · exact hcontent

/-- Compare-and-swap over whole runs. -/
theorem noStaleWrite_of_run {w : CoordinationWorld} (hstart : CoordinationStart w)
    {events : List CoordinationStep} (hguard : Along (coordinationStep digestPayload)
      (fun w event => reissuesRevision digestPayload w event = false) w events) :
    NoStaleWrite digestPayload (events.foldl (coordinationStep digestPayload) w) := by
  have hinv : CoordinationInvariant (events.foldl (coordinationStep digestPayload) w) := by
    refine Run.preserves ?_ (Run.of_foldl hguard) hstart.invariant
    rintro s event _ ⟨rfl, hfree⟩ hs
    exact hs.step hfree
  exact hinv.noStaleWrite

/-! ## A row created anew -/

/-- The row of a task, written by whom the status says. -/
def taskWrite (expected : ExpectedRevision) (generation : Int) (status : JsString) :
    CoordinationTransitionInput where
  namespace_ := js "tasks"
  entityKey := js "1.1"
  expectedRevision := expected
  generation := generation
  status := status
  payload := js "1"
  event := none

def emptyCoordination : CoordinationWorld := ⟨⟨[], [], []⟩, []⟩

theorem coordinationStart_empty : CoordinationStart emptyCoordination := ⟨List.nodup_nil, rfl⟩

/-- What client 1 reads of the first row. -/
def firstRead : CoordinationRead where
  client := 1
  namespace_ := js "tasks"
  entityKey := js "1.1"
  state := some (nextState (js "t1") (taskWrite .absent 0 (js "running")) none)

/-- Client 1 reads the row; others delete it and create it at the generation. -/
def recreate (generation : Int) : List CoordinationStep :=
  [.otherTransition (taskWrite .absent 0 (js "running")) defaultEventBounds (js "t1"),
    .read 1 (js "tasks") (js "1.1"),
    .delete (js "tasks") (js "1.1") none,
    .otherTransition (taskWrite .absent generation (js "done")) defaultEventBounds (js "t2")]

/-- The new row is of a newer generation. -/
theorem noStaleWrite_newGeneration :
    NoStaleWrite id ((recreate 1).foldl (coordinationStep id) emptyCoordination) :=
  noStaleWrite_of_run coordinationStart_empty (by decide +kernel)

/-- The new row has the revision and the generation of the old one, and the client
    that read the old one overwrites it. -/
theorem not_noStaleWrite_recreated :
    CoordinationStart emptyCoordination
      ∧ ¬ NoStaleWrite id ((recreate 0).foldl (coordinationStep id) emptyCoordination) := by
  refine ⟨coordinationStart_empty, fun h => ?_⟩
  have hcurrent := h firstRead (by decide +kernel) ⟨0, js "failed", js "2", none⟩
    defaultEventBounds (js "t3") _ _ rfl (by decide +kernel)
  obtain ⟨row, hrow, hsame⟩ := hcurrent
  have hfound : row = nextState (js "t2") (taskWrite .absent 0 (js "done")) none :=
    Option.some.inj (hrow.symm.trans (by decide +kernel))
  rw [hfound] at hsame
  exact absurd hsame (by decide +kernel)

end OpencodeSwarm
