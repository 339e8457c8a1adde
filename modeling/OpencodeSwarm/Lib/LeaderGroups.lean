/-
  OpencodeSwarm.Lib.LeaderGroups

  Greedy grouping: the members of a list are taken in its order, and one joins
  the first group whose leader it is the same as, or leads a group of its own.
  The relation need not be transitive, so a group is known by its leader only.
-/
import OpencodeSwarm.Lib.Greedy
import Mathlib.Data.List.Perm.Basic

namespace LeaderGroups

variable {α : Type*}

/-- A group is never empty: its first member leads it. -/
structure Group (α : Type*) where
  leader : α
  others : List α

def Group.members (g : Group α) : List α := g.leader :: g.others

section Grouping

variable (same : α → α → Bool)

/-- One member. -/
def place : List (Group α) → α → List (Group α)
  | [], a => [⟨a, []⟩]
  | g :: rest, a =>
    if same g.leader a then ⟨g.leader, g.others ++ [a]⟩ :: rest else g :: place rest a

def groups (order : List α) : List (Group α) := order.foldl (place same) []

/-- The members that lead a group, as a selection of the list. -/
def leaders (order : List α) : List α :=
  Greedy.keep (fun kept a => !kept.any fun l => same l a) order

theorem groups_concat (front : List α) (a : α) :
    groups same (front ++ [a]) = place same (groups same front) a := by
  unfold groups
  rw [List.foldl_concat]

/-! ## Nothing is lost -/

theorem flatMap_members_place (gs : List (Group α)) (a : α) :
    ((place same gs a).flatMap Group.members).Perm (gs.flatMap Group.members ++ [a]) := by
  induction gs with
  | nil => exact List.Perm.refl _
  | cons g rest ih =>
    rw [place]
    split
    · have hmove : ([a] ++ rest.flatMap Group.members).Perm (rest.flatMap Group.members ++ [a]) :=
        List.perm_append_comm
      simp only [List.flatMap_cons, Group.members, List.cons_append, List.append_assoc]
      exact (hmove.append_left g.others).cons g.leader
    · rw [List.flatMap_cons, List.flatMap_cons, List.append_assoc]
      exact ih.append_left _

theorem flatMap_members_groups (order : List α) :
    ((groups same order).flatMap Group.members).Perm order := by
  induction order using List.reverseRecOn with
  | nil => exact List.Perm.refl _
  | append_singleton order a ih =>
    rw [groups_concat]
    exact (flatMap_members_place same _ a).trans (ih.append_right [a])

/-! ## The leaders -/

theorem leaders_place (gs : List (Group α)) (a : α) :
    (place same gs a).map Group.leader
      = if (gs.map Group.leader).any (fun l => same l a) then gs.map Group.leader
        else gs.map Group.leader ++ [a] := by
  induction gs with
  | nil => rfl
  | cons g rest ih =>
    rw [place]
    by_cases hsame : same g.leader a = true
    · simp [hsame]
    · rw [if_neg hsame, List.map_cons, ih, List.map_cons, List.any_cons]
      simp only [hsame, Bool.false_or]
      split
      · rfl
      · rw [List.cons_append]

theorem leaders_groups (order : List α) :
    (groups same order).map Group.leader = leaders same order := by
  induction order using List.reverseRecOn with
  | nil => rfl
  | append_singleton order a ih =>
    rw [groups_concat, leaders_place, ih]
    unfold leaders
    rw [Greedy.keep_concat]
    cases (Greedy.keep (fun kept a => !kept.any fun l => same l a) order).any fun l => same l a with
    | true => rfl
    | false => rfl

theorem pairwise_leaders (order : List α) :
    (leaders same order).Pairwise fun l m => same l m = false := by
  apply Greedy.pairwise_keep
  intro kept a hadmitted l hl
  rw [Bool.not_eq_true', List.any_eq_false] at hadmitted
  exact Bool.not_eq_true _ ▸ hadmitted l hl

theorem leaders_sublist (order : List α) : (leaders same order).Sublist order :=
  Greedy.keep_sublist _ order

/-! ## Where a member goes -/

/-- The leader of the group a member joins. -/
def leaderOf? (order : List α) (a : α) : Option α := (leaders same order).find? fun l => same l a

variable {same} {b : α} {g : Group α}

/-- A member of a group was one before, or it is the new one in the place it gets. -/
theorem mem_members_place {gs : List (Group α)} {a : α} (hg : g ∈ place same gs a)
    (hb : b ∈ g.members) : (∃ old ∈ gs, old.leader = g.leader ∧ b ∈ old.members) ∨
      b = a ∧ ((gs.map Group.leader).find? (fun l => same l a)).getD a = g.leader := by
  induction gs with
  | nil =>
    obtain rfl := List.mem_singleton.mp hg
    exact Or.inr ⟨List.mem_singleton.mp hb, rfl⟩
  | cons first rest ih =>
    rw [place] at hg
    by_cases hsame : same first.leader a = true
    · rw [if_pos hsame] at hg
      rcases List.mem_cons.mp hg with rfl | hrest
      · rcases List.mem_append.mp (show b ∈ (first.leader :: first.others) ++ [a] from hb)
          with hold | hnew
        · exact Or.inl ⟨first, List.mem_cons_self, rfl, hold⟩
        · refine Or.inr ⟨List.mem_singleton.mp hnew, ?_⟩
          rw [List.map_cons, List.find?_cons_of_pos (p := fun l => same l a) hsame,
            Option.getD_some]
      · exact Or.inl ⟨g, List.mem_cons_of_mem _ hrest, rfl, hb⟩
    · rw [if_neg hsame] at hg
      rcases List.mem_cons.mp hg with rfl | hrest
      · exact Or.inl ⟨g, List.mem_cons_self, rfl, hb⟩
      · rcases ih hrest with ⟨old, hold, hleader, hmem⟩ | ⟨rfl, hfind⟩
        · exact Or.inl ⟨old, List.mem_cons_of_mem _ hold, hleader, hmem⟩
        · refine Or.inr ⟨rfl, ?_⟩
          rw [List.map_cons, List.find?_cons_of_neg (by simpa using hsame)]
          exact hfind

variable {order : List α}

/-- A member is in the group of the first leader it is the same as. -/
theorem leaderOf?_of_mem (hrefl : ∀ a, same a a = true) (hg : g ∈ groups same order)
    (hb : b ∈ g.members) : leaderOf? same order b = some g.leader := by
  unfold leaderOf?
  induction order using List.reverseRecOn generalizing g b with
  | nil => cases hg
  | append_singleton order a ih =>
    have hnext := leaders_place same (groups same order) a
    rw [← groups_concat, leaders_groups, leaders_groups] at hnext
    rw [groups_concat] at hg
    rw [hnext]
    rcases mem_members_place hg hb with ⟨old, hold, hleader, hmem⟩ | ⟨rfl, hfind⟩
    · -- an earlier member has found its leader among the earlier ones
      have hfound := ih hold hmem
      split
      · rw [hfound, hleader]
      · rw [List.find?_append, hfound, Option.some_or, hleader]
    · rw [leaders_groups] at hfind
      split
      · next hany =>
        obtain ⟨l, hl⟩ : ∃ l, (leaders same order).find? (fun l => same l b) = some l := by
          rw [← Option.isSome_iff_exists, List.find?_isSome]
          exact List.any_eq_true.mp hany
        rw [hl, Option.getD_some] at hfind
        rw [hl, hfind]
      · next hany =>
        have hnone : (leaders same order).find? (fun l => same l b) = none := by
          rw [List.find?_eq_none]
          intro l hl hsame
          exact hany (List.any_eq_true.mpr ⟨l, hl, hsame⟩)
        rw [hnone, Option.getD_none] at hfind
        rw [List.find?_append, hnone, Option.none_or, ← hfind]
        exact List.find?_cons_of_pos (p := fun l => same l b) (hrefl b)

theorem exists_group (order : List α) {b : α} (hb : b ∈ order) :
    ∃ g ∈ groups same order, b ∈ g.members :=
  List.mem_flatMap.mp ((flatMap_members_groups same order).mem_iff.mpr hb)

theorem mem_order_of_mem_members (hg : g ∈ groups same order) (hb : b ∈ g.members) : b ∈ order :=
  (flatMap_members_groups same order).mem_iff.mp (List.mem_flatMap.mpr ⟨g, hg, hb⟩)

end Grouping

end LeaderGroups
