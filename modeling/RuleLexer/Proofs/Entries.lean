import RuleLexer.Entries

/-! Texts under names. Names that ascend are there once each, so a list of entries is known by what
is found in it; and inserting an entry changes what is found under its name, and nothing else. -/
namespace RuleLexer.Entries

def Ascending (e : Entries) : Prop := e.Pairwise fun a b => a.1 < b.1

section insertion
variable {e : Entries} {name value other : String}

theorem get?_cons (entry : String × String) : get? (entry :: e) other =
    if other = entry.1 then some entry.2 else e.get? other := by
  rw [get?, get?, List.lookup_cons]
  split
  · next h => rw [if_pos (beq_iff_eq.1 h)]
  · next h => rw [if_neg (beq_eq_false_iff_ne.1 h)]

theorem get?_insert : (e.insert name value).get? other =
    if other = name then some value else e.get? other := by
  fun_induction insert name value e with
  | case1 => rw [get?_cons]
  | case2 => rw [get?_cons]
  | case3 v rest _ =>
    rw [get?_cons, get?_cons]
    split <;> rfl
  | case4 n v rest _ hne ih =>
    rw [get?_cons, ih, get?_cons]
    by_cases h : other = name
    · subst h
      simp [hne]
    · simp [h]

theorem fst_mem_insert {entry : String × String} (h : entry ∈ e.insert name value) :
    entry.1 = name ∨ entry ∈ e := by
  fun_induction insert name value e with
  | case1 => exact .inl (congrArg Prod.fst (List.mem_singleton.1 h))
  | case2 n v rest _ => exact (List.mem_cons.1 h).imp_left (congrArg Prod.fst)
  | case3 v rest _ =>
    exact (List.mem_cons.1 h).imp (congrArg Prod.fst) (List.mem_cons_of_mem _)
  | case4 n v rest _ _ ih =>
    rcases List.mem_cons.1 h with rfl | h
    · exact .inr List.mem_cons_self
    · exact (ih h).imp_right (List.mem_cons_of_mem _)

theorem Ascending.insert (h : Ascending e) : Ascending (e.insert name value) := by
  fun_induction Entries.insert name value e with
  | case1 => exact List.pairwise_singleton _ _
  | case2 n v rest hfront =>
    refine List.pairwise_cons.2 ⟨List.forall_mem_cons.2 ⟨hfront, fun entry hentry => ?_⟩, h⟩
    exact String.lt_trans hfront (List.rel_of_pairwise_cons h hentry)
  | case3 v rest _ => exact List.pairwise_cons.2 (List.pairwise_cons.1 h)
  | case4 n v rest hfront hne ih =>
    refine List.pairwise_cons.2 ⟨fun entry hentry => ?_, ih h.of_cons⟩
    rcases fst_mem_insert hentry with hname | hrest
    · rw [hname]
      have hle : n ≤ name := String.not_lt.1 hfront
      exact Decidable.not_not.1 fun hlt => hne (String.le_antisymm (String.not_lt.1 hlt) hle)
    · exact List.rel_of_pairwise_cons h hrest

end insertion

section ascending
variable {e e' : Entries} (h : Ascending e)
include h

theorem Ascending.get?_eq_some_iff {name value : String} :
    e.get? name = some value ↔ (name, value) ∈ e := by
  induction e with
  | nil => simp [get?]
  | cons entry rest ih =>
    rw [get?_cons, List.mem_cons]
    split
    · next hname =>
      have hrest : (name, value) ∉ rest := fun hmem => by
        have hlt : entry.1 < name := List.rel_of_pairwise_cons h hmem
        exact String.lt_irrefl name (hname ▸ hlt)
      rw [or_iff_left hrest, Option.some_inj, Prod.ext_iff, eq_comm (a := entry.2)]
      exact (and_iff_right hname).symm
    · next hname => rw [ih h.of_cons, or_iff_right fun heq => hname (congrArg Prod.fst heq)]

theorem Ascending.ext (h' : Ascending e') (hget : ∀ name, e.get? name = e'.get? name) : e = e' := by
  have hnodup : ∀ {e : Entries}, Ascending e → e.Nodup := by
    intro e h
    refine List.Pairwise.imp (fun {a b} hlt => ?_) h
    rintro rfl
    exact String.lt_irrefl _ hlt
  have hperm : e.Perm e' := (List.perm_ext_iff_of_nodup (hnodup h) (hnodup h')).2 fun entry => by
    rw [← h.get?_eq_some_iff, hget, h'.get?_eq_some_iff]
  exact hperm.eq_of_pairwise (fun a b _ _ hab hba => absurd hba (String.lt_asymm hab)) h h'

end ascending

end RuleLexer.Entries
