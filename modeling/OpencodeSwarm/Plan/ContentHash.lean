/-
  OpencodeSwarm.Plan.ContentHash

  `computePlanContentHash` of `src/plan/manager.ts`, the digest in the header of
  plan.md: phases, tasks and dependencies are sorted first, the tasks by the
  numbers between the dots of their ids.

  The hash `bunHash`, the engine's sort and the rounding of integers to numbers
  are parameters.
-/
import Mathlib.Data.List.Forall2
import Mathlib.Data.List.GetD
import Mathlib.Data.List.Pairwise
import OpencodeSwarm.Lib.ArraySort
import OpencodeSwarm.Plan.PlanHash

namespace OpencodeSwarm

open Js

/-! ## The order of task ids -/

section TaskIds

variable {N : Type} [LinearOrder N]

/-- `parseInt(text, 10)`: leading digits behind spaces and a sign; `none` is NaN. -/
def parseInt (numberOf : ℤ → N) (text : JsString) : Option N :=
  let text := text.dropWhile isSpace
  let (negative, text) :=
    match text with
    | c :: rest => if c = 0x2D then (true, rest) else if c = 0x2B then (false, rest)
      else (false, c :: rest)
    | [] => (false, [])
  let digits := text.takeWhile isDigit
  let value : ℤ := digits.foldl (fun value c => 10 * value + (c.toNat - 0x30)) 0
  if digits = [] then none else some (numberOf (if negative then -value else value))

/-- One round of the loop of `compareTaskIds`: two numbers decide unless they are
    equal, and NaN is not equal to anything. -/
def compareNumbers (numA numB : Option N) (rest : Option Ordering) : Option Ordering :=
  match numA, numB with
  | some a, some b => if a = b then rest else some (compare a b)
  | _, _ => none

/-- `parts[i] ?? 0`. -/
def partAt (zero : N) (parts : List (Option N)) (i : Nat) : Option N := parts.getD i (some zero)

/-- The loop of `compareTaskIds`, so many rounds from index `i` on. -/
def compareFrom (zero : N) (partsA partsB : List (Option N)) : Nat → Nat → Option Ordering
  | 0, _ => some .eq
  | rounds + 1, i =>
    compareNumbers (partAt zero partsA i) (partAt zero partsB i)
      (compareFrom zero partsA partsB rounds (i + 1))

/-- `a.split('.').map((n) => parseInt(n, 10))`. -/
def idParts (numberOf : ℤ → N) (id : JsString) : List (Option N) :=
  (id.splitOn 0x2E).map (parseInt numberOf)

/-- `compareTaskIds`, by the sign of its answer; `none` is NaN. -/
def compareTaskIds (numberOf : ℤ → N) (a b : JsString) : Option Ordering :=
  let partsA := idParts numberOf a
  let partsB := idParts numberOf b
  compareFrom (numberOf 0) partsA partsB (max partsA.length partsB.length) 0

/-- `compareTaskIds` as a sort reads it: NaN is zero. -/
def taskIdOrder (numberOf : ℤ → N) (a b : JsString) : Ordering :=
  (compareTaskIds numberOf a b).getD .eq

/-! ### What comes before what -/

/-- The first parts that differ are numbers, and the first one is smaller. -/
def Below (f g : Nat → Option N) : Prop :=
  ∃ i, (∀ j < i, ∃ n, f j = some n ∧ g j = some n)
    ∧ ∃ m n, f i = some m ∧ g i = some n ∧ m < n

theorem Below.trans {f g h : Nat → Option N} (hfg : Below f g) (hgh : Below g h) : Below f h := by
  obtain ⟨i, hbefore, m, n, hm, hn, hlt⟩ := hfg
  obtain ⟨j, hbefore', m', n', hm', hn', hlt'⟩ := hgh
  -- the first part in which `f` and `h` differ is the smaller of `i` and `j`
  have hequal : ∀ k, k < i → k < j → ∃ n, f k = some n ∧ h k = some n := by
    intro k hki hkj
    obtain ⟨x, hx, hgx⟩ := hbefore k hki
    obtain ⟨y, hgy, hy⟩ := hbefore' k hkj
    rw [hgx] at hgy
    exact ⟨x, hx, hy.trans hgy.symm⟩
  rcases Nat.lt_trichotomy i j with hij | hij | hij
  · obtain ⟨y, hgy, hy⟩ := hbefore' i hij
    rw [hn] at hgy
    exact ⟨i, fun k hk => hequal k hk (Nat.lt_trans hk hij), m, n, hm, hy.trans hgy.symm, hlt⟩
  · subst hij
    rw [hn] at hm'
    cases hm'
    exact ⟨i, fun k hk => hequal k hk hk, m, n', hm, hn', lt_trans hlt hlt'⟩
  · obtain ⟨x, hx, hgx⟩ := hbefore j hij
    rw [hm'] at hgx
    exact ⟨j, fun k hk => hequal k (Nat.lt_trans hk hij) hk, m', n', hx.trans hgx.symm, hn', hlt'⟩

theorem compareNumbers_eq_lt_iff {numA numB : Option N} {rest : Option Ordering} :
    compareNumbers numA numB rest = some .lt ↔ (∃ m n, numA = some m ∧ numB = some n ∧ m < n)
        ∨ (∃ n, numA = some n ∧ numB = some n) ∧ rest = some .lt := by
  unfold compareNumbers
  split
  · next a b =>
    by_cases heq : a = b
    · rw [if_pos heq]
      constructor
      · intro hrest
        exact Or.inr ⟨⟨a, rfl, heq ▸ rfl⟩, hrest⟩
      · rintro (⟨m, n, hm, hn, hlt⟩ | ⟨-, hrest⟩)
        · cases hm
          cases hn
          exact absurd (heq ▸ hlt) (lt_irrefl _)
        · exact hrest
    · rw [if_neg heq, Option.some.injEq, compare_lt_iff_lt]
      constructor
      · intro hlt
        exact Or.inl ⟨a, b, rfl, rfl, hlt⟩
      · rintro (⟨m, n, hm, hn, hlt⟩ | ⟨⟨n, hm, hn⟩, -⟩)
        · cases hm
          cases hn
          exact hlt
        · cases hm
          cases hn
          exact absurd rfl heq
  · next hnone =>
    constructor
    · intro h
      cases h
    · rintro (⟨m, n, hm, hn, -⟩ | ⟨⟨n, hm, hn⟩, -⟩)
      · exact absurd hn (hnone m n hm)
      · exact absurd hn (hnone n n hm)

theorem compareFrom_eq_lt_iff {zero : N} {partsA partsB : List (Option N)} {rounds i : Nat} :
    compareFrom zero partsA partsB rounds i = some .lt ↔ ∃ k < rounds,
        (∀ j < k, ∃ n, partAt zero partsA (i + j) = some n ∧ partAt zero partsB (i + j) = some n)
        ∧ ∃ m n, partAt zero partsA (i + k) = some m ∧ partAt zero partsB (i + k) = some n
          ∧ m < n := by
  induction rounds generalizing i with
  | zero =>
    constructor
    · intro h
      cases h
    · rintro ⟨k, hk, -⟩
      exact absurd hk (Nat.not_lt_zero k)
  | succ rounds ih =>
    rw [compareFrom, compareNumbers_eq_lt_iff, ih]
    constructor
    · rintro (hdiffer | ⟨hequal, k, hk, hbefore, hdiffer⟩)
      · exact ⟨0, Nat.succ_pos rounds, fun j hj => absurd hj (Nat.not_lt_zero j), hdiffer⟩
      · refine ⟨k + 1, Nat.succ_lt_succ hk, fun j hj => ?_, ?_⟩
        · cases j with
          | zero => exact hequal
          | succ j =>
            rw [← Nat.add_assoc, Nat.add_right_comm]
            exact hbefore j (Nat.lt_of_succ_lt_succ hj)
        · rw [← Nat.add_assoc, Nat.add_right_comm]
          exact hdiffer
    · rintro ⟨k, hk, hbefore, hdiffer⟩
      cases k with
      | zero => exact Or.inl hdiffer
      | succ k =>
        refine Or.inr ⟨hbefore 0 (Nat.succ_pos k), k, Nat.lt_of_succ_lt_succ hk, fun j hj => ?_, ?_⟩
        · rw [Nat.add_right_comm, Nat.add_assoc]
          exact hbefore (j + 1) (Nat.succ_lt_succ hj)
        · rw [Nat.add_right_comm, Nat.add_assoc]
          exact hdiffer

theorem compareNumbers_swap (numA numB : Option N) (rest : Option Ordering) :
    compareNumbers numB numA (rest.map Ordering.swap)
      = (compareNumbers numA numB rest).map Ordering.swap := by
  cases numA with
  | none => cases numB <;> rfl
  | some a =>
    cases numB with
    | none => rfl
    | some b =>
      dsimp only [compareNumbers]
      by_cases heq : a = b
      · rw [if_pos heq, if_pos heq.symm]
      · have hswap : compare b a = (compare a b).swap := Std.OrientedCmp.eq_swap
        rw [if_neg heq, if_neg (Ne.symm heq), Option.map_some, hswap]

theorem compareFrom_swap (zero : N) (partsA partsB : List (Option N)) (rounds i : Nat) :
    compareFrom zero partsB partsA rounds i
      = (compareFrom zero partsA partsB rounds i).map Ordering.swap := by
  induction rounds generalizing i with
  | zero => rfl
  | succ rounds ih => rw [compareFrom, compareFrom, ih, compareNumbers_swap]

theorem taskIdOrder_swap (numberOf : ℤ → N) (a b : JsString) :
    taskIdOrder numberOf b a = (taskIdOrder numberOf a b).swap := by
  unfold taskIdOrder compareTaskIds
  rw [compareFrom_swap, Nat.max_comm]
  generalize compareFrom (numberOf 0) (idParts numberOf a) (idParts numberOf b) _ 0 = answer
  cases answer with
  | none => rfl
  | some order => rfl

theorem taskIdOrder_eq_lt_iff {numberOf : ℤ → N} {a b : JsString} :
    taskIdOrder numberOf a b = .lt
      ↔ Below (partAt (numberOf 0) (idParts numberOf a))
        (partAt (numberOf 0) (idParts numberOf b)) := by
  have hsome : taskIdOrder numberOf a b = .lt ↔ compareTaskIds numberOf a b = some .lt := by
    unfold taskIdOrder
    cases compareTaskIds numberOf a b with
    | none => simp
    | some order => simp
  rw [hsome, compareTaskIds, compareFrom_eq_lt_iff]
  simp only [Nat.zero_add]
  constructor
  · rintro ⟨k, -, hbelow⟩
    exact ⟨k, hbelow⟩
  · rintro ⟨k, hbefore, m, n, hm, hn, hlt⟩
    refine ⟨k, ?_, hbefore, m, n, hm, hn, hlt⟩
    -- behind the longer id all parts are zero
    by_contra hbehind
    rw [Nat.not_lt, Nat.max_le] at hbehind
    have hzeroA : partAt (numberOf 0) (idParts numberOf a) k = some (numberOf 0) :=
      List.getD_eq_default _ _ hbehind.1
    have hzeroB : partAt (numberOf 0) (idParts numberOf b) k = some (numberOf 0) :=
      List.getD_eq_default _ _ hbehind.2
    rw [hzeroA] at hm
    rw [hzeroB] at hn
    cases hm
    cases hn
    exact absurd hlt (lt_irrefl _)

theorem consistent_of_apart {α : Type} {idOf : α → JsString} {numberOf : ℤ → N} {xs : List α}
    (hapart : ∀ a ∈ xs, ∀ b ∈ xs, taskIdOrder numberOf (idOf a) (idOf b) = .eq → a = b) :
    Consistent (fun a b => taskIdOrder numberOf (idOf a) (idOf b)) xs := by
  refine ⟨fun a _ b _ => taskIdOrder_swap numberOf (idOf a) (idOf b), ?_⟩
  intro a ha b hb c hc hab hbc
  cases hfirst : taskIdOrder numberOf (idOf a) (idOf b) with
  | gt => exact absurd hfirst hab
  | eq =>
    rw [hapart a ha b hb hfirst]
    exact hbc
  | lt =>
    cases hsecond : taskIdOrder numberOf (idOf b) (idOf c) with
    | gt => exact absurd hsecond hbc
    | eq =>
      rw [← hapart b hb c hc hsecond]
      exact hab
    | lt =>
      have hlt := (taskIdOrder_eq_lt_iff.mp hfirst).trans (taskIdOrder_eq_lt_iff.mp hsecond)
      show taskIdOrder numberOf (idOf a) (idOf c) ≠ .gt
      rw [taskIdOrder_eq_lt_iff.mpr hlt]
      decide

end TaskIds

/-! ## The hashed object -/

section Content

variable {N : Type} [LinearOrder N] (engine : ArraySort) (numberOf : ℤ → N)

/-- A task as it is hashed: `depends` and `files_touched` are sorted and `fr_refs`
    is left out. -/
def Task.content (task : Task) : Task :=
  { task with
    depends := engine.sort (taskIdOrder numberOf) task.depends
    filesTouched := sortStrings task.filesTouched
    frRefs := none }

/-- A phase as it is hashed: its tasks are sorted by id. -/
def Phase.content (phase : Phase) : Phase :=
  { phase with
    tasks := engine.sort (fun a b => taskIdOrder numberOf a.id b.id)
      (phase.tasks.map (Task.content engine numberOf))
    type := none
    requiredAgents := none }

/-- `phases` of `content`. -/
def Plan.contentPhases (plan : Plan) : List Phase :=
  engine.sort (fun a b => compare a.id b.id) (plan.phases.map (Phase.content engine numberOf))

def Task.contentJson (task : Task) : Json :=
  .ofFields [
    (js "id", some (.str task.id)),
    (js "phase", some (natJson task.phase)),
    (js "status", some (.str task.status.text)),
    (js "size", some (.str task.size.text)),
    (js "description", some (.str task.description)),
    (js "depends", some (stringsJson task.depends)),
    (js "acceptance", task.acceptance.map .str),
    (js "files_touched", some (stringsJson task.filesTouched)),
    (js "evidence_path", task.evidencePath.map .str),
    (js "blocked_reason", task.blockedReason.map .str),
    (js "evidence_class", task.evidenceClass.map fun c => .str c.text),
    (js "evidence_anchors",
      task.evidenceAnchors.map fun as => .arr (as.map ExternalEvidenceAnchor.json))]

def Phase.contentJson (phase : Phase) : Json :=
  .ofFields [
    (js "id", some (natJson phase.id)),
    (js "name", some (.str phase.name)),
    (js "status", some (.str phase.status.text)),
    (js "tasks", some (.arr (phase.tasks.map Task.contentJson)))]

/-- `content` of `computePlanContentHash`. -/
def Plan.contentJson (plan : Plan) : Json :=
  .ofFields [
    (js "schema_version", some (.str (js "1.0.0"))),
    (js "title", some (.str plan.title)),
    (js "swarm", some (.str plan.swarm)),
    (js "current_phase", plan.currentPhase.map natJson),
    (js "migration_status", plan.migrationStatus.map fun s => .str s.text),
    (js "execution_profile", plan.executionProfile.map ExecutionProfile.normalizedForHash),
    (js "phases", some (.arr ((plan.contentPhases engine numberOf).map Phase.contentJson)))]

def computePlanContentHash (bunHash : JsString → JsString) (plan : Plan) : JsString :=
  bunHash (plan.contentJson engine numberOf).stringify

end Content

/-! ## Presentation order -/

/-- The same phase with its tasks in another order. -/
def Reordered (before after : Phase) : Prop :=
  ∃ tasks, tasks.Perm before.tasks ∧ after = { before with tasks := tasks }

/-- The same plan with its phases, and the tasks of each phase, in another order. -/
def Rearranged (plan other : Plan) : Prop :=
  ∃ phases shuffled, List.Forall₂ Reordered plan.phases phases ∧ shuffled.Perm phases
    ∧ other = { plan with phases := shuffled }

/-- The comparison of ids tells the tasks of each phase apart. -/
def IdsApart {N : Type} [LinearOrder N] (numberOf : ℤ → N) (plan : Plan) : Prop :=
  ∀ phase ∈ plan.phases, phase.tasks.Pairwise fun a b => taskIdOrder numberOf a.id b.id ≠ .eq

section Invariance

variable {N : Type} [LinearOrder N] {engine : ArraySort} {numberOf : ℤ → N}

theorem id_eq_of_apart {tasks : List Task}
    (hapart : tasks.Pairwise fun a b => taskIdOrder numberOf a.id b.id ≠ .eq) {a b : Task}
    (ha : a ∈ tasks) (hb : b ∈ tasks) (heq : taskIdOrder numberOf a.id b.id = .eq) : a = b := by
  by_contra hne
  have : Std.Symm fun x y : Task => taskIdOrder numberOf x.id y.id ≠ .eq := by
    refine ⟨fun x y h => ?_⟩
    rw [taskIdOrder_swap]
    cases horder : taskIdOrder numberOf x.id y.id with
    | eq => exact absurd horder h
    | lt => decide
    | gt => decide
  exact hapart.forall ha hb hne heq

/-- A phase hashes its tasks in one order, whichever order they come in. -/
theorem content_of_reordered {before after : Phase} (h : Reordered before after)
    (hapart : before.tasks.Pairwise fun a b => taskIdOrder numberOf a.id b.id ≠ .eq) :
    after.content engine numberOf = before.content engine numberOf := by
  obtain ⟨tasks, hperm, rfl⟩ := h
  have hone : ∀ a ∈ before.tasks.map (Task.content engine numberOf),
      ∀ b ∈ before.tasks.map (Task.content engine numberOf),
      taskIdOrder numberOf a.id b.id = .eq → a = b := by
    intro a ha b hb heq
    obtain ⟨x, hx, rfl⟩ := List.mem_map.mp ha
    obtain ⟨y, hy, rfl⟩ := List.mem_map.mp hb
    rw [id_eq_of_apart hapart hx hy heq]
  have hsorted := engine.eq_of_perm (hperm.symm.map (Task.content engine numberOf))
    (consistent_of_apart hone) hone
  unfold Phase.content
  rw [hsorted]

theorem consistent_compare {α : Type} (idOf : α → Nat) (xs : List α) :
    Consistent (fun a b => compare (idOf a) (idOf b)) xs := by
  refine ⟨fun a _ b _ => Std.OrientedCmp.eq_swap, fun a _ b _ c _ hab hbc => ?_⟩
  rw [compare_le_iff_le] at hab hbc ⊢
  exact Nat.le_trans hab hbc

variable {plan : Plan} {other : Plan}

theorem contentPhases_of_rearranged (hphases : (plan.phases.map Phase.id).Nodup)
    (h : Rearranged plan other) (hapart : IdsApart numberOf plan) :
    other.contentPhases engine numberOf = plan.contentPhases engine numberOf := by
  obtain ⟨phases, shuffled, hsame, hperm, rfl⟩ := h
  have hcontents : phases.map (Phase.content engine numberOf)
      = plan.phases.map (Phase.content engine numberOf) := by
    unfold IdsApart at hapart
    clear hperm hphases
    generalize plan.phases = before at hsame hapart
    induction hsame with
    | nil => rfl
    | @cons before after befores afters hone _ ih =>
      rw [List.map_cons, List.map_cons,
        content_of_reordered hone (hapart before List.mem_cons_self),
        ih fun phase hphase => hapart phase (List.mem_cons_of_mem _ hphase)]
  have hall := (hperm.map (Phase.content engine numberOf)).symm
  rw [hcontents] at hall
  refine (engine.eq_of_perm hall (consistent_compare _ _) ?_).symm
  intro a ha b hb heq
  obtain ⟨x, hx, rfl⟩ := List.mem_map.mp ha
  obtain ⟨y, hy, rfl⟩ := List.mem_map.mp hb
  have hids : x.id = y.id := compare_eq_iff_eq.mp heq
  rw [List.inj_on_of_nodup_map hphases hx hy hids]

/-! ## Two tasks that compare equal -/

theorem map_eq_of_map_eq {α β γ : Type} {f : α → β} {g : α → γ}
    (h : ∀ a b, f a = f b → g a = g b) {xs ys : List α} (hmap : xs.map f = ys.map f) :
    xs.map g = ys.map g := by
  induction xs generalizing ys with
  | nil => rw [List.map_eq_nil_iff.mp hmap.symm]
  | cons x xs ih =>
    obtain ⟨y, ys, rfl, hfirst, hrest⟩ := List.map_eq_cons_iff.mp hmap.symm
    rw [List.map_cons, List.map_cons, h y x hfirst, ih hrest.symm]

theorem not_both_orders {α : Type} {xs : List α} (hnodup : xs.Nodup) {a b : α}
    (hab : [a, b].Sublist xs) (hba : [b, a].Sublist xs) : False := by
  induction xs with
  | nil => cases hab
  | cons x xs ih =>
    obtain ⟨hx, hrest⟩ := List.nodup_cons.mp hnodup
    cases hab with
    | cons _ hab =>
      cases hba with
      | cons _ hba => exact ih hrest hab hba
      | cons_cons _ hba => exact hx (hab.subset (List.mem_cons_of_mem _ List.mem_cons_self))
    | cons_cons _ hb =>
      have hb := hb.subset List.mem_cons_self
      cases hba with
      | cons _ hba => exact hx (hba.subset (List.mem_cons_of_mem _ List.mem_cons_self))
      | cons_cons _ _ => exact hx hb

/-- What the hashed object shows of its phases: ids, and the task ids in order. -/
theorem ids_of_contentJson
    (h : plan.contentJson engine numberOf = other.contentJson engine numberOf) :
    (plan.contentPhases engine numberOf).map (fun phase => (phase.id, phase.tasks.map Task.id))
      = (other.contentPhases engine numberOf).map fun phase =>
        (phase.id, phase.tasks.map Task.id) := by
  have htask : ∀ a b : Task, a.contentJson = b.contentJson → a.id = b.id := by
    intro a b hab
    have hfields := (Json.ofFields_eq_iff (by rfl) (by exact of_decide_eq_true rfl)).mp hab
    simp only [List.cons.injEq, Prod.mk.injEq, true_and, Option.some.injEq, Json.str.injEq]
      at hfields
    exact hfields.1
  have hphase : ∀ a b : Phase, a.contentJson = b.contentJson →
      (a.id, a.tasks.map Task.id) = (b.id, b.tasks.map Task.id) := by
    intro a b hab
    have hfields := (Json.ofFields_eq_iff (by rfl) (by exact of_decide_eq_true rfl)).mp hab
    simp only [List.cons.injEq, Prod.mk.injEq, true_and, Option.some.injEq, Json.arr.injEq,
      natJson_inj, and_true] at hfields
    obtain ⟨hid, -, -, htasks⟩ := hfields
    rw [hid, map_eq_of_map_eq htask htasks]
  have hfields := (Json.ofFields_eq_iff (by rfl) (by exact of_decide_eq_true rfl)).mp h
  simp only [List.cons.injEq, Prod.mk.injEq, true_and, Option.some.injEq, Json.arr.injEq,
    and_true] at hfields
  exact map_eq_of_map_eq hphase hfields.2.2.2.2.2

/-- A plan has one task order that its phases are hashed in, so a phase whose tasks
    are taken in the order of another phase with its id shows the same task ids. -/
theorem taskIds_of_contentJson
    (h : plan.contentJson engine numberOf = other.contentJson engine numberOf)
    (hphases : (plan.phases.map Phase.id).Nodup) {phase phase' : Phase}
    (hphase : phase ∈ plan.phases) (hphase' : phase' ∈ other.phases) (hid : phase.id = phase'.id) :
    (phase.content engine numberOf).tasks.map Task.id
      = (phase'.content engine numberOf).tasks.map Task.id := by
  have hids := ids_of_contentJson h
  have hmem : ∀ {p : Plan} {q : Phase}, q ∈ p.phases →
      q.content engine numberOf ∈ p.contentPhases engine numberOf := fun hq =>
    (engine.perm _ _).mem_iff.mpr (List.mem_map_of_mem hq)
  have hshown := List.mem_map_of_mem (f := fun phase : Phase =>
    (phase.id, phase.tasks.map Task.id)) (hmem hphase')
  rw [← hids] at hshown
  obtain ⟨found, hfound, heq⟩ := List.mem_map.mp hshown
  obtain ⟨source, hsource, rfl⟩ := List.mem_map.mp ((engine.perm _ _).mem_iff.mp hfound)
  obtain ⟨hfoundId, htasks⟩ := Prod.mk.inj heq
  rw [← List.inj_on_of_nodup_map hphases hsource hphase (hfoundId.trans hid.symm)]
  exact htasks

/-- Two tasks of a phase that compare equal: the plan with the tasks rotated between
    them is hashed with the two the other way round. -/
theorem exists_rearranged_ne (hphases : (plan.phases.map Phase.id).Nodup)
    (htasks : (plan.tasks.map Task.id).Nodup) (hties : ¬ IdsApart numberOf plan) :
    ∃ other, Rearranged plan other
      ∧ other.contentJson keepingSort numberOf ≠ plan.contentJson keepingSort numberOf := by
  unfold IdsApart at hties
  push Not at hties
  obtain ⟨phase, hphase, hties⟩ := hties
  rw [List.pairwise_iff_forall_sublist] at hties
  push Not at hties
  obtain ⟨a, b, hsub, htie⟩ := hties
  obtain ⟨front, back, hsplit, ha, hb⟩ := List.cons_sublist_iff.mp hsub
  have hb : b ∈ back := hb.subset List.mem_cons_self
  -- the tasks from `b` on go to the front
  let rotated : Phase := { phase with tasks := back ++ front }
  let other : Plan :=
    { plan with phases := plan.phases.map fun p => if p.id = phase.id then rotated else p }
  have hrotated : Reordered phase rotated := by
    refine ⟨back ++ front, ?_, rfl⟩
    rw [hsplit]
    exact List.perm_append_comm
  have hrearranged : Rearranged plan other := by
    refine ⟨_, _, ?_, List.Perm.refl _, rfl⟩
    rw [List.forall₂_map_right_iff, List.forall₂_same]
    intro p hp
    split
    · next hid => rwa [List.inj_on_of_nodup_map hphases hp hphase hid]
    · exact ⟨p.tasks, List.Perm.refl _, rfl⟩
  refine ⟨other, hrearranged, fun h => ?_⟩
  have hmem : rotated ∈ other.phases := List.mem_map.mpr ⟨phase, hphase, if_pos rfl⟩
  have hsame := taskIds_of_contentJson h.symm hphases hphase hmem rfl
  have hpair : ∀ {p : Phase} {x y : Task}, taskIdOrder numberOf x.id y.id = .eq →
      [x, y].Sublist p.tasks →
      [x.id, y.id].Sublist ((p.content keepingSort numberOf).tasks.map Task.id) := by
    intro p x y hxy hsub
    have hcontent := hsub.map (Task.content keepingSort numberOf)
    have hkept : [x.content keepingSort numberOf, y.content keepingSort numberOf].Sublist
        (p.content keepingSort numberOf).tasks := keepingSort_keeps hxy hcontent
    exact hkept.map Task.id
  have hba : taskIdOrder numberOf b.id a.id = .eq := by
    rw [taskIdOrder_swap, htie]
    rfl
  have hrotatedSub : [b, a].Sublist rotated.tasks :=
    (List.singleton_sublist.mpr hb).append (List.singleton_sublist.mpr ha)
  have hnodup : ((phase.content keepingSort numberOf).tasks.map Task.id).Nodup := by
    have hperm := (keepingSort.perm (fun a b : Task => taskIdOrder numberOf a.id b.id)
      (phase.tasks.map (Task.content keepingSort numberOf))).map Task.id
    rw [List.map_map] at hperm
    have hown : (phase.tasks.map Task.id).Sublist (plan.tasks.map Task.id) :=
      (List.sublist_flatten_of_mem (List.mem_map_of_mem hphase)).map Task.id
    exact hperm.nodup_iff.mpr (hown.nodup htasks)
  exact not_both_orders hnodup (hpair htie hsub) (hsame ▸ hpair hba hrotatedSub)

/-- The digest of a plan with distinct ids does not depend on the order in which its
    phases and tasks come exactly when the comparison of ids tells the tasks of
    each phase apart. -/
theorem computePlanContentHash_rearranged_iff (numberOf : ℤ → N) {plan : Plan}
    (hphases : (plan.phases.map Phase.id).Nodup) (htasks : (plan.tasks.map Task.id).Nodup) :
    (∀ (engine : ArraySort) (bunHash : JsString → JsString) (other : Plan), Rearranged plan other →
        computePlanContentHash engine numberOf bunHash other
          = computePlanContentHash engine numberOf bunHash plan) ↔ IdsApart numberOf plan := by
  constructor
  · intro hsame
    by_contra hties
    obtain ⟨other, hrearranged, hne⟩ := exists_rearranged_ne hphases htasks hties
    exact hne (Json.stringify_injective (hsame keepingSort id other hrearranged))
  · intro hapart engine bunHash other hrearranged
    have hcontents : other.contentPhases engine numberOf = plan.contentPhases engine numberOf :=
      contentPhases_of_rearranged hphases hrearranged hapart
    obtain ⟨phases, shuffled, -, -, rfl⟩ := hrearranged
    unfold computePlanContentHash Plan.contentJson
    rw [hcontents]

end Invariance

/-- Ids that are compared number by number, not as text. -/
theorem computePlanContentHash_numericIds :
    IdsApart (id : ℤ → ℤ) (onePhasePlan [plainTask "1.10" .pending, plainTask "1.2" .pending])
      ∧ ∀ (engine : ArraySort) (bunHash : JsString → JsString) (other : Plan),
        Rearranged (onePhasePlan [plainTask "1.10" .pending, plainTask "1.2" .pending]) other →
          computePlanContentHash engine (id : ℤ → ℤ) bunHash other
            = computePlanContentHash engine (id : ℤ → ℤ) bunHash
              (onePhasePlan [plainTask "1.10" .pending, plainTask "1.2" .pending]) := by
  have hapart : IdsApart (id : ℤ → ℤ)
      (onePhasePlan [plainTask "1.10" .pending, plainTask "1.2" .pending]) := by
    unfold IdsApart
    decide
  exact ⟨hapart,
    (computePlanContentHash_rearranged_iff id (by decide) (by decide)).mpr hapart⟩

/-- A part that is missing counts as zero, so `1.1` and `1.1.0` compare equal and the
    digest keeps the order in which they come. -/
theorem computePlanContentHash_trailingZero :
    (onePhasePlan [plainTask "1.1" .pending, plainTask "1.1.0" .pending]).wellFormed = true
      ∧ ∃ (engine : ArraySort) (bunHash : JsString → JsString) (other : Plan),
        Rearranged (onePhasePlan [plainTask "1.1" .pending, plainTask "1.1.0" .pending]) other
          ∧ computePlanContentHash engine (id : ℤ → ℤ) bunHash other
            ≠ computePlanContentHash engine (id : ℤ → ℤ) bunHash
              (onePhasePlan [plainTask "1.1" .pending, plainTask "1.1.0" .pending]) := by
  have hties : ¬ IdsApart (id : ℤ → ℤ)
      (onePhasePlan [plainTask "1.1" .pending, plainTask "1.1.0" .pending]) := by
    unfold IdsApart
    decide
  obtain ⟨other, hrearranged, hne⟩ := exists_rearranged_ne (by decide) (by decide) hties
  exact ⟨by decide, keepingSort, id, other, hrearranged,
    fun heq => hne (Json.stringify_injective heq)⟩

end OpencodeSwarm
