/-
  OpencodeSwarm.Lib.Transition

  Runs of a labelled transition system.  A guarded run is a run of the relation
  `fun s a t => step s a t ∧ guard s a`, so one invariant rule covers both.

  Crashes of an operation that is a list of writes: a property holds at every
  cut when it holds after every prefix.
-/
import Mathlib.Tactic.Common

namespace Transition

variable {σ α : Type*}

/-- `Run step s as t`: the labels `as`, taken in order, lead from `s` to `t`. -/
inductive Run (step : σ → α → σ → Prop) : σ → List α → σ → Prop where
  | nil (s : σ) : Run step s [] s
  | snoc {s t u : σ} {as : List α} {a : α} :
      Run step s as t → step t a u → Run step s (as ++ [a]) u

/-- `step`, restricted to the labels its state admits. -/
def Guarded (step : σ → α → σ → Prop) (guard : σ → α → Prop) (s : σ) (a : α) (t : σ) : Prop :=
  step s a t ∧ guard s a

variable {step : σ → α → σ → Prop} {guard : σ → α → Prop} {inv : σ → Prop} {s : σ} {t : σ}

theorem Run.single {a : α} (h : step s a t) : Run step s [a] t :=
  Run.snoc (Run.nil s) h

variable {as : List α} {bs : List α}

theorem Run.append {u : σ} (hst : Run step s as t) (htu : Run step t bs u) :
    Run step s (as ++ bs) u := by
  induction htu with
  | nil => rwa [List.append_nil]
  | snoc _ hlast ih =>
    rw [← List.append_assoc]
    exact Run.snoc ih hlast

theorem Run.preserves (hstep : ∀ s a t, step s a t → inv s → inv t) {s t : σ} {as : List α}
    (hrun : Run step s as t) (hinv : inv s) : inv t := by
  induction hrun with
  | nil => exact hinv
  | snoc _ hlast ih => exact hstep _ _ _ hlast ih

theorem Run.of_foldlM {f : σ → α → Option σ} (h : as.foldlM f s = some t) :
    Run (fun s a t => f s a = some t) s as t := by
  induction as generalizing s with
  | nil =>
    cases h
    exact Run.nil _
  | cons a as ih =>
    obtain ⟨next, hnext, hrest⟩ := Option.bind_eq_some_iff.mp h
    exact (Run.single hnext).append (ih hrest)

theorem Run.mono {step' : σ → α → σ → Prop} (hmono : ∀ s a t, step s a t → step' s a t)
    (h : Run step s as t) : Run step' s as t := by
  induction h with
  | nil => exact Run.nil s
  | snoc _ hlast ih => exact Run.snoc ih (hmono _ _ _ hlast)

theorem Run.of_guarded (h : Run (Guarded step guard) s as t) : Run step s as t :=
  h.mono fun _ _ _ hstep => hstep.1

/-- The guard holds at every label of a trace of a step function. -/
def Along (f : σ → α → σ) (guard : σ → α → Prop) : σ → List α → Prop
  | _, [] => True
  | s, a :: as => guard s a ∧ Along f guard (f s a) as

instance Along.decidable {f : σ → α → σ} [∀ s a, Decidable (guard s a)] :
    ∀ (as : List α) (s : σ), Decidable (Along f guard s as)
  | [], _ => isTrue trivial
  | a :: as, s =>
      @instDecidableAnd (guard s a) (Along f guard (f s a) as) _ (Along.decidable as (f s a))

variable {f : σ → α → σ}

theorem Along.of_forall (h : ∀ a ∈ as, ∀ s, guard s a) (s : σ) : Along f guard s as := by
  induction as generalizing s with
  | nil => exact trivial
  | cons a as ih =>
    exact ⟨h a List.mem_cons_self s, ih (fun b hb => h b (List.mem_cons_of_mem _ hb)) _⟩

theorem along_append :
    Along f guard s (as ++ bs) ↔ Along f guard s as ∧ Along f guard (as.foldl f s) bs := by
  induction as generalizing s with
  | nil => exact ⟨fun h => ⟨trivial, h⟩, fun h => h.2⟩
  | cons a as ih =>
    show guard s a ∧ Along f guard (f s a) (as ++ bs) ↔ _
    rw [ih, ← and_assoc]
    exact Iff.rfl

theorem along_of_splits
    (h : ∀ before a after, as = before ++ a :: after → guard (before.foldl f s) a) :
    Along f guard s as := by
  induction as generalizing s with
  | nil => exact trivial
  | cons a as ih =>
    refine ⟨h [] a as rfl, ih fun before b after hsplit => ?_⟩
    exact h (a :: before) b after (by rw [hsplit, List.cons_append])

theorem Run.of_foldl (h : Along f guard s as) :
    Run (Guarded (fun s a t => f s a = t) guard) s as (as.foldl f s) := by
  induction as generalizing s with
  | nil => exact Run.nil s
  | cons a as ih =>
    have hfirst : Guarded (fun s a t => f s a = t) guard s a (f s a) := ⟨rfl, h.1⟩
    exact (Run.single hfirst).append (ih h.2)

theorem Run.foldl (f : σ → α → σ) (s : σ) (as : List α) :
    Run (fun s a t => f s a = t) s as (as.foldl f s) := by
  have hfree : ∀ (as : List α) (s : σ), Along f (fun _ _ => True) s as := by
    intro as
    induction as with
    | nil => exact fun _ => trivial
    | cons a as ih => exact fun s => ⟨trivial, ih (f s a)⟩
  exact (Run.of_foldl (hfree as s)).of_guarded

/-- Forward simulation: what a step function does along a trace, a run of a related state
    follows. -/
theorem Run.of_simulation {τ : Type*} {related : σ → τ → Prop} {f : τ → α → τ}
    {guard : τ → α → Prop}
    (hsim : ∀ s c a, related s c → guard c a → ∃ t, step s a t ∧ related t (f c a)) {as : List α}
    {s : σ} {c : τ} (hrelated : related s c) (h : Along f guard c as) :
    ∃ t, Run step s as t ∧ related t (as.foldl f c) := by
  induction as generalizing s c with
  | nil => exact ⟨s, Run.nil s, hrelated⟩
  | cons a as ih =>
    obtain ⟨next, hstep, hnext⟩ := hsim s c a hrelated h.1
    obtain ⟨t, hrun, ht⟩ := ih hnext h.2
    exact ⟨t, (Run.single hstep).append hrun, ht⟩

end Transition

namespace Crash

variable {σ ω : Type*}

/-- The property holds after every prefix of the writes. -/
def AtEveryCut (write : σ → ω → σ) (property : σ → Prop) (s : σ) (writes : List ω) : Prop :=
  ∀ k, property ((writes.take k).foldl write s)

variable {write : σ → ω → σ} {property : σ → Prop} {s : σ} {writes : List ω}

theorem AtEveryCut.mono {weaker : σ → Prop} (h : AtEveryCut write property s writes)
    (hweaker : ∀ s, property s → weaker s) :
    AtEveryCut write weaker s writes := fun k => hweaker _ (h k)

theorem AtEveryCut.complete (h : AtEveryCut write property s writes) :
    property (writes.foldl write s) := by
  have hall := h writes.length
  rwa [List.take_length] at hall

theorem atEveryCut_nil : AtEveryCut write property s [] ↔ property s := by
  simp [AtEveryCut]

theorem atEveryCut_cons {w : ω} : AtEveryCut write property s (w :: writes)
      ↔ property s ∧ AtEveryCut write property (write s w) writes := by
  constructor
  · intro h
    exact ⟨h 0, fun k => h (k + 1)⟩
  · rintro ⟨hstart, hrest⟩ k
    cases k with
    | zero => exact hstart
    | succ k => exact hrest k

/-- A cut of two parts falls in the first, or in the second over the first. -/
theorem atEveryCut_append {later : List ω} : AtEveryCut write property s (writes ++ later)
      ↔ AtEveryCut write property s writes
        ∧ AtEveryCut write property (writes.foldl write s) later := by
  induction writes generalizing s with
  | nil =>
    rw [List.nil_append, atEveryCut_nil, List.foldl_nil]
    exact ⟨fun h => ⟨h 0, h⟩, fun h => h.2⟩
  | cons w writes ih =>
    rw [List.cons_append, atEveryCut_cons, atEveryCut_cons, ih, List.foldl_cons, and_assoc]

/-- A property that a guarded step keeps holds after every prefix of a guarded trace. -/
theorem atEveryCut_of_along {guard : σ → ω → Prop}
    (hstep : ∀ s w, property s → guard s w → property (write s w)) (hstart : property s)
    (h : Transition.Along write guard s writes) : AtEveryCut write property s writes := by
  induction writes generalizing s with
  | nil => exact atEveryCut_nil.mpr hstart
  | cons w writes ih =>
    exact atEveryCut_cons.mpr ⟨hstart, ih (hstep s w hstart h.1) h.2⟩

/-- A property that a step keeps exactly when its guard holds stays true exactly along
    the guarded traces. -/
theorem atEveryCut_iff_along {guard : σ → ω → Prop}
    (hstep : ∀ s w, property s → (property (write s w) ↔ guard s w)) :
    AtEveryCut write property s writes ↔ property s ∧ Transition.Along write guard s writes := by
  induction writes generalizing s with
  | nil =>
    rw [atEveryCut_nil]
    exact ⟨fun h => ⟨h, trivial⟩, fun h => h.1⟩
  | cons w writes ih =>
    rw [atEveryCut_cons, ih]
    constructor
    · rintro ⟨hstart, hnext, hrest⟩
      exact ⟨hstart, (hstep s w hstart).mp hnext, hrest⟩
    · rintro ⟨hstart, hguard, hrest⟩
      exact ⟨hstart, (hstep s w hstart).mpr hguard, hrest⟩

end Crash
