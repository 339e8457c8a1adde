/-
  OpencodeSwarm.Background.LoopProtection

  `LoopProtection` (`src/background/circuit-breaker.ts`): attempts on an operation
  are counted from the first of a window on, `recordAttempt` counts one more and
  judges it, `canProceed` judges without counting.
-/
import Mathlib.Data.Rat.Defs
import Mathlib.Algebra.Order.Ring.Rat
import OpencodeSwarm.Lib.JsString
import OpencodeSwarm.Lib.OrderedMap

namespace OpencodeSwarm

open Js

/-! ## The two methods -/

structure LoopProtectionConfig where
  maxIterations : ℚ
  timeWindowMs : ℚ
  operationKey : JsString

structure ProtectionRecord where
  count : Nat
  firstAttempt : ℚ
  lastAttempt : ℚ
  deriving DecidableEq

abbrev ProtectionRecords := OrderedMap JsString ProtectionRecord

section Methods

variable (config : LoopProtectionConfig)

/-- The record of a key, unless the time window it counts over has passed. -/
def liveRecord (records : ProtectionRecords) (operationKey : JsString) (now : ℚ) :
    Option ProtectionRecord :=
  (records.get? operationKey).filter fun record =>
    decide (now - record.firstAttempt ≤ config.timeWindowMs)

def LoopProtectionConfig.keyOf (key : Option JsString) : JsString := key.getD config.operationKey

/-- One more attempt on a live record, or the first on a new one. -/
def countAttempt (live : Option ProtectionRecord) (now : ℚ) : Bool × ProtectionRecord :=
  match live with
  | none => (true, { count := 1, firstAttempt := now, lastAttempt := now })
  | some record =>
    let record := { record with count := record.count + 1, lastAttempt := now }
    (!decide (config.maxIterations < record.count), record)

/-- `recordAttempt`, with the records it leaves. -/
def recordAttempt (records : ProtectionRecords) (key : Option JsString) (now : ℚ) :
    Bool × ProtectionRecords :=
  let operationKey := config.keyOf key
  let counted := countAttempt config (liveRecord config records operationKey now) now
  (counted.1, records.set operationKey counted.2)

def canProceed (records : ProtectionRecords) (key : Option JsString) (now : ℚ) : Bool :=
  match liveRecord config records (config.keyOf key) now with
  | none => true
  | some record => decide ((record.count : ℚ) ≤ config.maxIterations)

/-- `reset`. -/
def resetAttempts (records : ProtectionRecords) (key : Option JsString) : ProtectionRecords :=
  records.erase (config.keyOf key)

/-! ## Histories -/

inductive ProtectionCall where
  | recordAttempt (key : Option JsString) (now : ℚ)
  | reset (key : Option JsString)

def protectionStep (records : ProtectionRecords) : ProtectionCall → ProtectionRecords
  | .recordAttempt key now => (recordAttempt config records key now).2
  | .reset key => resetAttempts config records key

def loopRecords (history : List ProtectionCall) : ProtectionRecords :=
  history.foldl (protectionStep config) []

/-- An attempt joins the open window, or opens one behind its end. -/
def joinWindow (window : List ℚ) (now : ℚ) : List ℚ :=
  match window with
  | [] => [now]
  | first :: rest =>
    if now - first ≤ config.timeWindowMs then first :: (rest ++ [now]) else [now]

/-- What a call does to the window of a key. -/
def windowStep (operationKey : JsString) (window : List ℚ) : ProtectionCall → List ℚ
  | .recordAttempt key now =>
    if config.keyOf key = operationKey then joinWindow config window now else window
  | .reset key => if config.keyOf key = operationKey then [] else window

/-- The times of the attempts in the window that a history leaves open. -/
def openWindow (history : List ProtectionCall) (operationKey : JsString) : List ℚ :=
  history.foldl (windowStep config operationKey) []

/-- The open window holds exactly as many attempts as the limit lets through. -/
def AtLimit (window : List ℚ) (now : ℚ) : Prop :=
  ∃ first rest, window = first :: rest ∧ now - first ≤ config.timeWindowMs
    ∧ (window.length : ℚ) ≤ config.maxIterations ∧ config.maxIterations < window.length + 1

/-! ## The records of a history -/

/-- A record stands for a window. -/
def RecordsWindow (record : Option ProtectionRecord) (window : List ℚ) : Prop :=
  match record, window with
  | none, [] => True
  | some record, first :: rest =>
    record.count = (first :: rest).length ∧ record.firstAttempt = first
  | _, _ => False

variable {config}

theorem liveRecord_of_window {records : ProtectionRecords} {operationKey : JsString} {first : ℚ}
    {rest : List ℚ} (h : RecordsWindow (records.get? operationKey) (first :: rest)) (now : ℚ) :
    ∃ record, record.count = (first :: rest).length ∧ record.firstAttempt = first
      ∧ liveRecord config records operationKey now
        = if now - first ≤ config.timeWindowMs then some record else none := by
  unfold liveRecord
  cases hrecord : records.get? operationKey with
  | none =>
    rw [hrecord] at h
    exact h.elim
  | some record =>
    rw [hrecord] at h
    refine ⟨record, h.1, h.2, ?_⟩
    rw [Option.filter_some, h.2]
    simp

variable {records : ProtectionRecords} {operationKey : JsString}

theorem liveRecord_of_closed (h : RecordsWindow (records.get? operationKey) []) (now : ℚ) :
    liveRecord config records operationKey now = none := by
  unfold liveRecord
  cases hrecord : records.get? operationKey with
  | none => rfl
  | some record =>
    rw [hrecord] at h
    exact h.elim

variable {window : List ℚ}

theorem recordsWindow_countAttempt (h : RecordsWindow (records.get? operationKey) window)
    (now : ℚ) :
    RecordsWindow
      (some (countAttempt config (liveRecord config records operationKey now) now).2)
      (joinWindow config window now) := by
  cases window with
  | nil =>
    rw [liveRecord_of_closed h]
    exact ⟨rfl, rfl⟩
  | cons first rest =>
    obtain ⟨record, hcount, hfirst, hlive⟩ := @liveRecord_of_window config _ _ _ _ h now
    rw [hlive]
    show RecordsWindow _
      (if now - first ≤ config.timeWindowMs then first :: (rest ++ [now]) else [now])
    by_cases hopen : now - first ≤ config.timeWindowMs
    · rw [if_pos hopen, if_pos hopen]
      refine ⟨?_, hfirst⟩
      show record.count + 1 = _
      rw [hcount, List.length_cons, List.length_cons, List.length_append, List.length_singleton]
    · rw [if_neg hopen, if_neg hopen]
      exact ⟨rfl, rfl⟩

theorem recordsWindow_step (h : RecordsWindow (records.get? operationKey) window)
    (call : ProtectionCall) : RecordsWindow ((protectionStep config records call).get? operationKey)
      (windowStep config operationKey window call) := by
  cases call with
  | recordAttempt key now =>
    show RecordsWindow ((records.set (config.keyOf key) _).get? operationKey)
      (if config.keyOf key = operationKey then joinWindow config window now else window)
    rw [OrderedMap.get?_set]
    by_cases hkey : config.keyOf key = operationKey
    · subst hkey
      rw [if_pos rfl, if_pos rfl]
      exact recordsWindow_countAttempt h now
    · rw [if_neg fun heq => hkey heq.symm, if_neg hkey]
      exact h
  | reset key =>
    show RecordsWindow ((records.erase (config.keyOf key)).get? operationKey)
      (if config.keyOf key = operationKey then [] else window)
    rw [OrderedMap.get?_erase]
    by_cases hkey : config.keyOf key = operationKey
    · rw [if_pos hkey.symm, if_pos hkey]
      trivial
    · rw [if_neg fun heq => hkey heq.symm, if_neg hkey]
      exact h

/-- After every history, the record of a key stands for its open window. -/
theorem recordsWindow_history (history : List ProtectionCall) (operationKey : JsString) :
    RecordsWindow ((loopRecords config history).get? operationKey)
      (openWindow config history operationKey) := by
  unfold loopRecords openWindow
  induction history using List.reverseRecOn with
  | nil => trivial
  | append_singleton history call ih =>
    rw [List.foldl_concat, List.foldl_concat]
    exact recordsWindow_step ih call

/-! ## Asking and doing -/

/-- Asking answers what doing would, except at the limit: there the last allowed
    attempt is counted already, and asking still says yes. -/
theorem canProceed_eq_recordAttempt_iff (config : LoopProtectionConfig)
    (history : List ProtectionCall) (key : Option JsString) (now : ℚ) :
    canProceed config (loopRecords config history) key now
        = (recordAttempt config (loopRecords config history) key now).1
      ↔ ¬AtLimit config (openWindow config history (config.keyOf key)) now := by
  have hwindow := @recordsWindow_history config history (config.keyOf key)
  dsimp only [canProceed, recordAttempt]
  cases hopen : openWindow config history (config.keyOf key) with
  | nil =>
    rw [hopen] at hwindow
    rw [liveRecord_of_closed hwindow]
    refine iff_of_true rfl ?_
    rintro ⟨first, rest, heq, -⟩
    cases heq
  | cons first rest =>
    rw [hopen] at hwindow
    obtain ⟨record, hcount, hfirst, hlive⟩ := @liveRecord_of_window config _ _ _ _ hwindow now
    rw [hlive]
    by_cases hinside : now - first ≤ config.timeWindowMs
    · rw [if_pos hinside]
      show decide ((record.count : ℚ) ≤ config.maxIterations)
        = !decide (config.maxIterations < ((record.count + 1 : Nat) : ℚ)) ↔ _
      rw [hcount]
      have hlimit : AtLimit config (first :: rest) now
          ↔ (((first :: rest).length : Nat) : ℚ) ≤ config.maxIterations
            ∧ config.maxIterations < (((first :: rest).length : Nat) : ℚ) + 1 := by
        refine ⟨?_, fun h => ⟨first, rest, rfl, hinside, h⟩⟩
        rintro ⟨first', rest', heq, -, h⟩
        exact h
      rw [hlimit, Nat.cast_add, Nat.cast_one]
      generalize (((first :: rest).length : Nat) : ℚ) = attempts
      by_cases hbelow : attempts ≤ config.maxIterations
      · by_cases hnext : config.maxIterations < attempts + 1
        · rw [decide_eq_true hbelow, decide_eq_true hnext]
          exact iff_of_false (fun h => nomatch h) fun h => h ⟨hbelow, hnext⟩
        · rw [decide_eq_true hbelow, decide_eq_false hnext]
          exact iff_of_true rfl fun h => hnext h.2
      · have hnext : config.maxIterations < attempts + 1 :=
          (not_le.mp hbelow).trans (lt_add_one attempts)
        rw [decide_eq_false hbelow, decide_eq_true hnext]
        exact iff_of_true rfl fun h => hbelow h.1
    · rw [if_neg hinside]
      refine iff_of_true rfl ?_
      rintro ⟨first', rest', heq, hinside', -⟩
      cases heq
      exact hinside hinside'

/-- One attempt of one allowed: asking says yes and doing says no. -/
theorem not_canProceed_eq_recordAttempt :
    let config : LoopProtectionConfig :=
      { maxIterations := 1, timeWindowMs := 1000, operationKey := js "op" }
    canProceed config (loopRecords config [.recordAttempt none 0]) none 0 = true
      ∧ (recordAttempt config (loopRecords config [.recordAttempt none 0]) none 0).1 = false := by
  decide +kernel

end Methods

end OpencodeSwarm
