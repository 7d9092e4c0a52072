import RuleLexer.Proofs.Grouping

/-! The groups of a simpler tree. They are among those of the tree: what is repeated zero times is
dropped with its groups, and the branches that a shared beginning stands in front of keep no other
ones. -/
namespace RuleLexer.Regex.Ast

theorem groups_andThen (a b : Ast) : (a.andThen b).groups = a.groups ++ b.groups := by
  fun_induction andThen a b with
  | case1 | case4 => rfl
  | case2 a rest b ih =>
    show a.groups ++ (rest.andThen b).groups = (a.groups ++ rest.groups) ++ b.groups
    rw [ih, List.append_assoc]
  | case3 => exact (List.append_nil _).symm

theorem groups_branches (a : Ast) : a.branches.flatMap groups = a.groups := by
  induction a with
  | alt a b _ ihb =>
    show a.groups ++ b.branches.flatMap groups = _
    rw [ihb]
    rfl
  | empty | set | look | seq | scope | group | repeated => exact List.flatMap_singleton _ _

theorem groups_parts (a : Ast) : a.parts.flatMap groups = a.groups := by
  induction a with
  | seq a b _ ihb =>
    show a.groups ++ b.parts.flatMap groups = _
    rw [ihb]
    rfl
  | empty => rfl
  | set | look | alt | scope | group | repeated => exact List.flatMap_singleton _ _

theorem groups_units (a : Ast) : a.units.flatten.flatMap groups = a.groups := by
  rw [units, List.flatten_splitBy, groups_parts]

theorem groups_ofBranches_subset (branches : List Ast) :
    (ofBranches branches).groups ⊆ branches.flatMap groups := by
  unfold ofBranches
  split
  · exact List.nil_subset _
  · rw [groups_alts]
    exact List.Subset.refl _

theorem groups_row_subset {a : Ast} {row : List (List Ast)} (h : row ⊆ a.units) :
    (seqs row.flatten).groups ⊆ a.groups := by
  rw [groups_seqs, ← groups_units a]
  intro g hg
  obtain ⟨part, hpart, hg⟩ := List.mem_flatMap.1 hg
  obtain ⟨u, hu, hpart⟩ := List.mem_flatten.1 hpart
  exact List.mem_flatMap.2 ⟨part, List.mem_flatten.2 ⟨u, h hu, hpart⟩, hg⟩

theorem groups_oneOf_subset (branches : List Ast) :
    (oneOf branches).groups ⊆ branches.flatMap groups := by
  have hplain : (alts branches).groups ⊆ branches.flatMap groups := by
    rw [groups_alts]
    exact List.Subset.refl _
  unfold oneOf
  split
  · exact hplain
  · exact hplain
  · next first others =>
    split
    · exact List.nil_subset _
    · dsimp only
      split
      · rw [groups_andThen]
        refine List.append_subset.2 ⟨?_, fun g hg => ?_⟩
        · exact List.Subset.trans (groups_row_subset (List.take_subset _ _))
            (List.subset_append_left _ _)
        · obtain ⟨branch, hbranch, hg⟩ := List.mem_flatMap.1 (groups_ofBranches_subset _ hg)
          obtain ⟨rest, hrest, hbranch⟩ := List.mem_flatMap.1 hbranch
          rw [← List.map_cons] at hrest
          obtain ⟨row, hrow, rfl⟩ := List.mem_map.1 hrest
          obtain ⟨a, ha, rfl⟩ := List.mem_map.1 hrow
          have hrest : g ∈ List.flatMap groups _ := List.mem_flatMap.2 ⟨branch, hbranch, hg⟩
          rw [groups_branches] at hrest
          exact List.mem_flatMap.2 ⟨a, ha, groups_row_subset (List.drop_subset _ _) hrest⟩
      · exact hplain
    · exact hplain

theorem groups_times_subset (low : Nat) (high : Option Nat) (greedy : Bool) (a : Ast) :
    (times low high greedy a).groups ⊆ a.groups := by
  unfold times
  generalize (if a.onlyEmpty then (min low 1, some (min (high.getD 1) 1)) else (low, high)) = bounds
  dsimp only
  split
  · exact List.nil_subset _
  · split <;> exact List.Subset.refl _

theorem groups_simpleBranches_subset (a : Ast) : a.simpleBranches.flatMap groups ⊆ a.groups := by
  have hone {a : Ast} (h : a.simpleBranches.flatMap groups ⊆ a.groups) :
      (oneOf a.simpleBranches).groups ⊆ a.groups := List.Subset.trans (groups_oneOf_subset _) h
  induction a with
  | empty | set | look => exact List.Subset.refl _
  | seq a b iha ihb =>
    rw [simpleBranches, groups_branches, groups_andThen]
    exact List.append_subset.2 ⟨List.subset_append_of_subset_left _ (hone iha),
      List.subset_append_of_subset_right _ (hone ihb)⟩
  | alt a b iha ihb =>
    rw [simpleBranches, List.flatMap_append, groups_branches]
    exact List.append_subset.2 ⟨List.subset_append_of_subset_left _ (hone iha),
      List.subset_append_of_subset_right _ ihb⟩
  | scope a ih =>
    rw [simpleBranches, groups_branches]
    exact hone ih
  | group i name a ih =>
    rw [simpleBranches, List.flatMap_singleton]
    exact List.cons_subset_cons _ (hone ih)
  | repeated low high greedy a ih =>
    rw [simpleBranches, groups_branches]
    exact List.Subset.trans (groups_times_subset low high greedy _) (hone ih)

theorem groups_simplify_subset (a : Ast) : a.simplify.groups ⊆ a.groups :=
  List.Subset.trans (groups_oneOf_subset _) (groups_simpleBranches_subset a)

theorem simplify_seq_group (a b : Ast) (i : Nat) (name : Option (List Char)) :
    (seq a (group i name b)).simplify = a.simplify.andThen (group i name b.simplify) := by
  have hbranches (a : Ast) : (a.andThen (group i name b.simplify)).branches =
      [a.andThen (group i name b.simplify)] := by
    cases a <;> rfl
  have hgroup : (group i name b).simplify = group i name b.simplify := rfl
  rw [simplify, simpleBranches, ← simplify, ← simplify, hgroup, hbranches]
  rfl

end RuleLexer.Regex.Ast
