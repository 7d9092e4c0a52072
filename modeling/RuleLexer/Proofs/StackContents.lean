import RuleLexer.Proofs.StackShapes

/-! What operations make of the states on a stack. Bottom first, the states are a list that keeps
its first `maxDepth` entries and always one of them; the generation does not go back, and no
operation leaves other states under the generation that was there before. -/
namespace RuleLexer

namespace StackOp
variable {σ : Type}

/-- What an operation makes of a list of states, bottom first, of which so many fit. -/
def onList (room : Nat) : StackOp σ → List σ → List σ
  | push states, contents => (contents ++ states).take room
  | pushCurrent, contents => (contents ++ contents.getLast?.toList).take room
  | pop count, contents => contents.take (max 1 (contents.length - count))
  | replace [], contents => contents.take (max 1 (contents.length - 1))
  | replace (state :: rest), contents => (contents.dropLast ++ state :: rest).take room
  | reset state, _ => [state]

theorem length_onList_le {room : Nat} (hroom : 0 < room) (op : StackOp σ) {contents : List σ}
    (h : contents.length ≤ room) : (op.onList room contents).length ≤ room := by
  cases op with
  | push states => exact List.length_take_le ..
  | pushCurrent => exact List.length_take_le ..
  | pop count => exact Nat.le_trans (List.length_take_le' ..) h
  | replace states =>
    cases states with
    | nil => exact Nat.le_trans (List.length_take_le' ..) h
    | cons state rest => exact List.length_take_le ..
  | reset state => exact hroom

end StackOp

theorem take_append_take {α : Type} (n : Nat) (front back : List α) :
    (front.take n ++ back).take n = (front ++ back).take n := by
  rcases Nat.le_total front.length n with h | h
  · rw [List.take_of_length_le h]
  · have hfull : (front.take n).length = n := List.length_take_of_le h
    rw [List.take_append_of_le_length (Nat.le_of_eq hfull.symm), List.take_take, Nat.min_self,
      List.take_append_of_le_length h]

namespace Stack
variable {s s' s'' : Stack}

theorem length_toList (s : Stack) : s.toList.length = s.depth := by
  rw [toList, List.length_reverse, length_entries]

theorem toList_eq (s : Stack) : s.toList = s.below.reverse ++ [s.top] := List.reverse_cons

theorem toList_ofList (generation : Nat) {states : List StateId} (h : states ≠ [])
    (fallback : StateId) : (ofList generation states fallback).toList = states.take maxDepth := by
  have hkept : (states.take maxDepth).reverse ≠ [] := by simp [h, maxDepth]
  obtain ⟨top, below, hreverse⟩ := List.exists_cons_of_ne_nil hkept
  simp only [ofList, hreverse]
  rw [toList, entries, ← hreverse, List.reverse_reverse]

theorem toList_push (h : s.depth ≤ maxDepth) (state : StateId) :
    (s.push state).1.toList = (s.toList ++ [state]).take maxDepth := by
  rw [← length_toList] at h
  rw [push]
  split
  · next hfull =>
    rw [← length_toList] at hfull
    rw [List.take_append_of_le_length hfull, List.take_of_length_le h]
  · next hroom =>
    rw [← length_toList] at hroom
    have hall : (s.toList ++ [state]).length ≤ maxDepth := by
      rw [List.length_append, List.length_singleton]
      omega
    rw [List.take_of_length_le hall, toList, entries, List.reverse_cons, toList]

theorem toList_pushAll (h : s.depth ≤ maxDepth) (states : List StateId) :
    (s.pushAll states).1.toList = (s.toList ++ states).take maxDepth := by
  induction states generalizing s with
  | nil =>
    rw [← length_toList] at h
    rw [List.append_nil, List.take_of_length_le h]
    rfl
  | cons state rest ih =>
    have hfits : (s.push state).1.depth ≤ maxDepth := by
      rw [← length_toList, toList_push h]
      exact List.length_take_le ..
    calc (s.pushAll (state :: rest)).1.toList
        = ((s.push state).1.toList ++ rest).take maxDepth := ih hfits
      _ = (s.toList ++ [state] ++ rest).take maxDepth := by rw [toList_push h, take_append_take]
      _ = (s.toList ++ state :: rest).take maxDepth := by rw [List.append_assoc]; rfl

theorem toList_pop (s : Stack) (count : Nat) :
    (s.pop count).1.toList = s.toList.take (max 1 (s.toList.length - count)) := by
  have hlength : s.entries.length = s.below.length + 1 := rfl
  rw [toList, entries_pop, List.reverse_drop, ← toList, length_toList, ← length_entries]
  congr 1
  omega

theorem toList_replace (h : s.depth ≤ maxDepth) (state : StateId) (rest : List StateId) :
    (s.replace (state :: rest)).1.toList =
      (s.toList.dropLast ++ state :: rest).take maxDepth := by
  rw [s.toList_eq, List.dropLast_concat]
  cases hbelow : s.below with
  | nil =>
    simp only [replace, hbelow]
    exact toList_ofList _ (List.cons_ne_nil _ _) _
  | cons top below =>
    simp only [replace, hbelow]
    refine toList_pushAll ?_ _
    rw [depth, hbelow, List.length_cons] at h
    exact Nat.le_of_succ_le h

/-- On a stack that is not too deep, an operation does what it does on a list. -/
theorem toList_apply (h : s.depth ≤ maxDepth) (op : StackOp StateId) :
    (s.apply op).1.toList = op.onList maxDepth s.toList := by
  cases op with
  | push states => exact toList_pushAll h states
  | pushCurrent =>
    have htop : s.toList.getLast?.toList = [s.top] := by rw [toList_eq, List.getLast?_concat]; rfl
    rw [StackOp.onList, htop]
    exact toList_pushAll h [s.top]
  | pop count => exact s.toList_pop count
  | replace states =>
    cases states with
    | nil => exact s.toList_pop 1
    | cons state rest => exact toList_replace h state rest
  | reset state =>
    rw [apply, toList, entries_reset]
    rfl

/-- `s'` may come behind `s`: its generation is no lower, and is higher if its states are others. -/
structure Onward (s s' : Stack) : Prop where
  le : s.generation ≤ s'.generation
  lt : s'.toList ≠ s.toList → s.generation < s'.generation

namespace Onward

theorem refl (s : Stack) : s.Onward s := ⟨Nat.le_refl _, fun h => absurd rfl h⟩

theorem of_lt (h : s.generation < s'.generation) : s.Onward s' := ⟨Nat.le_of_lt h, fun _ => h⟩

theorem trans (h : s.Onward s') (h' : s'.Onward s'') : s.Onward s'' := by
  refine ⟨Nat.le_trans h.le h'.le, fun hother => ?_⟩
  by_cases hsame : s'.toList = s.toList
  · exact Nat.lt_of_le_of_lt h.le (h'.lt (hsame ▸ hother))
  · exact Nat.lt_of_lt_of_le (h.lt hsame) h'.le

end Onward

theorem onward_push (s : Stack) (state : StateId) : s.Onward (s.push state).1 := by
  rw [push]
  split
  · exact .refl s
  · exact .of_lt (Nat.lt_succ_self _)

theorem onward_pushAll (s : Stack) (states : List StateId) : s.Onward (s.pushAll states).1 := by
  induction states generalizing s with
  | nil => exact .refl s
  | cons state rest ih => exact (s.onward_push state).trans (ih _)

theorem onward_pop (s : Stack) (count : Nat) : s.Onward (s.pop count).1 := by
  by_cases hnone : min count s.below.length = 0
  · have hsame : (s.pop count).1 = s := by simp [pop, hnone, entries]
    rw [hsame]
    exact .refl s
  · refine .of_lt ?_
    rw [pop]
    split
    · rw [if_neg hnone]
      exact Nat.lt_succ_self _
    · next hdrop =>
      rw [List.drop_eq_nil_iff, entries, List.length_cons] at hdrop
      omega

theorem generation_lt_replace (s : Stack) (state : StateId) (rest : List StateId) :
    s.generation < (s.replace (state :: rest)).1.generation := by
  cases hbelow : s.below with
  | nil =>
    simp only [replace, hbelow, ofList]
    split <;> exact Nat.lt_succ_self _
  | cons top below =>
    simp only [replace, hbelow]
    exact (onward_pushAll ⟨top, below, s.generation + 1⟩ (state :: rest)).le

theorem onward_replace (s : Stack) (states : List StateId) : s.Onward (s.replace states).1 := by
  cases states with
  | nil => exact s.onward_pop 1
  | cons state rest => exact .of_lt (s.generation_lt_replace state rest)

theorem onward_apply (s : Stack) (op : StackOp StateId) : s.Onward (s.apply op).1 := by
  cases op with
  | push states => exact s.onward_pushAll states
  | pushCurrent => exact s.onward_pushAll [s.top]
  | pop count => exact s.onward_pop count
  | replace states => exact s.onward_replace states
  | reset state =>
    rw [apply, reset]
    split
    · exact .refl s
    · exact .of_lt (Nat.lt_succ_self _)

theorem onward_applied (s : Stack) (op? : Option (StackOp StateId)) : s.Onward (s.applied op?) := by
  cases op? with
  | none => exact .refl s
  | some op => exact s.onward_apply op

def applyAll (s : Stack) (ops : List (StackOp StateId)) : Stack :=
  ops.foldl (fun s op => (s.apply op).1) s

theorem toList_start (initial : List StateId) (fallback : StateId) :
    (start initial fallback).toList =
      if initial = [] then [fallback] else initial.take maxDepth := by
  split
  · next hnone =>
    subst hnone
    rfl
  · next hsome => exact toList_ofList 0 hsome fallback

theorem depth_start_le (initial : List StateId) (fallback : StateId) :
    (start initial fallback).depth ≤ maxDepth := by
  rw [← length_toList, toList_start]
  split
  · rw [List.length_singleton]
    decide
  · exact List.length_take_le ..

theorem applyAll_onList (h : s.depth ≤ maxDepth) (ops : List (StackOp StateId)) :
    (s.applyAll ops).toList = ops.foldl (fun contents op => op.onList maxDepth contents) s.toList ∧
      (s.applyAll ops).depth ≤ maxDepth ∧ s.Onward (s.applyAll ops) := by
  induction ops generalizing s with
  | nil => exact ⟨rfl, h, .refl s⟩
  | cons op ops ih =>
    have hop := toList_apply h op
    have hdepth : (s.apply op).1.depth ≤ maxDepth := by
      rw [← length_toList] at h ⊢
      rw [hop]
      exact op.length_onList_le (by decide) h
    obtain ⟨hlist, hfits, honward⟩ := ih hdepth
    rw [hop] at hlist
    exact ⟨hlist, hfits, (s.onward_apply op).trans honward⟩

/-- A stack that is started on some states is a list that is cut to what fits: after any operations
the next ones make of its states what they make of the list, and the generation neither goes back
nor stays as it is while the states become others. -/
theorem operations_act_on_list (initial : List StateId) (fallback : StateId)
    (before next : List (StackOp StateId)) :
    let s := (start initial fallback).applyAll before
    let s' := s.applyAll next
    (start initial fallback).toList =
        (if initial = [] then [fallback] else initial.take maxDepth) ∧
      s'.toList = next.foldl (fun contents op => op.onList maxDepth contents) s.toList ∧
      s.generation ≤ s'.generation ∧ (s'.toList = s.toList ∨ s.generation < s'.generation) := by
  intro s s'
  obtain ⟨-, hfits, -⟩ := applyAll_onList (depth_start_le initial fallback) before
  obtain ⟨hlist, -, honward⟩ := applyAll_onList hfits next
  exact ⟨toList_start initial fallback, hlist, honward.le,
    Decidable.or_iff_not_imp_left.2 honward.lt⟩

end Stack

end RuleLexer
