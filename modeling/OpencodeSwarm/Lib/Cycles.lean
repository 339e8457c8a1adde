/-
  OpencodeSwarm.Lib.Cycles

  Dependencies among finitely many things.  What can never be done first is what
  lies on a cycle, is blocked, or leads to one of these; a list in which every
  member waits for a member or for a blocked thing holds nothing else.
-/
import Mathlib.Data.Finite.Defs
import Mathlib.Data.Set.Finite.List
import Mathlib.Logic.Relation
import Mathlib.Order.WellFounded
import Mathlib.Order.RelClasses
import Mathlib.Data.Fintype.Card
import Mathlib.Tactic.Common

namespace Dependency

open Relation

variable {α : Type*} (dependsOn : α → α → Prop) (blocked : α → Prop)

/-- Blocked or on a cycle. -/
def Hopeless (a : α) : Prop := blocked a ∨ TransGen dependsOn a a

/-- Hopeless, or dependent on something hopeless. -/
def Stuck (a : α) : Prop := ∃ b, ReflTransGen dependsOn a b ∧ Hopeless dependsOn blocked b

variable {dependsOn blocked} {a : α}

theorem Stuck.of_hopeless (h : Hopeless dependsOn blocked a) :
    Stuck dependsOn blocked a := ⟨a, ReflTransGen.refl, h⟩

theorem Stuck.of_dependsOn {b : α} (hab : dependsOn a b) (h : Stuck dependsOn blocked b) :
    Stuck dependsOn blocked a := by
  obtain ⟨c, hbc, hopeless⟩ := h
  exact ⟨c, ReflTransGen.head hab hbc, hopeless⟩

/-- Members that all wait, for each other or for something blocked, are stuck. -/
theorem stuck_of_waiting {members : List α}
    (hwaits : ∀ a ∈ members, ∃ b, dependsOn a b ∧ (b ∈ members ∨ blocked b)) :
    ∀ a ∈ members, Stuck dependsOn blocked a := by
  by_contra hsome
  push Not at hsome
  obtain ⟨a, ha, hfree⟩ := hsome
  -- the members that are not stuck: none of them is on a cycle, yet each waits for another
  let Free := { b : α // b ∈ members ∧ ¬ Stuck dependsOn blocked b }
  let waits : Free → Free → Prop := fun b c => TransGen dependsOn c.1 b.1
  have hfinite : Finite Free :=
    Set.Finite.to_subtype ((List.finite_toSet members).subset fun b hb => hb.1)
  have hirrefl : Std.Irrefl waits := ⟨fun b hb => b.2.2 (.of_hopeless (Or.inr hb))⟩
  have hwf : WellFounded waits := Finite.wellFounded_of_trans_of_irrefl waits
  obtain ⟨least, -, hleast⟩ := hwf.has_min Set.univ ⟨⟨a, ha, hfree⟩, trivial⟩
  obtain ⟨next, hnext, hmember⟩ := hwaits least.1 least.2.1
  have hnotStuck : ¬ Stuck dependsOn blocked next := fun hstuck =>
    least.2.2 (hstuck.of_dependsOn hnext)
  rcases hmember with hmem | hblocked
  · exact hleast ⟨next, hmem, hnotStuck⟩ trivial (TransGen.single hnext)
  · exact hnotStuck (.of_hopeless (Or.inl hblocked))

theorem Stuck.cases (h : Stuck dependsOn blocked a) :
    blocked a ∨ ∃ b, dependsOn a b ∧ Stuck dependsOn blocked b := by
  obtain ⟨c, hac, hopeless⟩ := h
  rcases ReflTransGen.cases_head hac with rfl | ⟨b, hab, hbc⟩
  · rcases hopeless with hblocked | hcycle
    · exact Or.inl hblocked
    · obtain ⟨b, hab, hba⟩ := TransGen.head'_iff.mp hcycle
      exact Or.inr ⟨b, hab, a, hba, Or.inr hcycle⟩
  · exact Or.inr ⟨b, hab, c, hbc, hopeless⟩

end Dependency
