import RuleLexer.Proofs.Binding
import RuleLexer.Proofs.Step

/-! Shapes of stacks. As long as there is room, what becomes of a stack depends on nothing but the
states on it, so it can be told beforehand from their names. -/
namespace RuleLexer

namespace StackOp
variable {σ τ : Type} {R : σ → τ → Prop}

/-- What an operation makes of the entries of a stack, top first, that has room for it. -/
def effect : StackOp σ → List σ → List σ
  | push states, entries => states.reverse ++ entries
  | pushCurrent, entries => entries.head?.toList ++ entries
  | pop count, entries => entries.drop (min count (entries.length - 1))
  | replace [], entries => entries.drop (min 1 (entries.length - 1))
  | replace (state :: rest), entries => (state :: rest).reverse ++ entries.tail
  | reset state, _ => [state]

def effect? (op? : Option (StackOp σ)) (entries : List σ) : List σ :=
  op?.elim entries fun op => op.effect entries

theorem Rel.effect {op : StackOp σ} {op' : StackOp τ} (h : StackOp.Rel R op op') {entries : List σ}
    {entries' : List τ} (hentries : List.Forall₂ R entries entries') :
    List.Forall₂ R (op.effect entries) (op'.effect entries') := by
  have hlength := hentries.length_eq
  cases h with
  | push hstates => exact List.rel_append (List.rel_reverse hstates) hentries
  | pushCurrent =>
    refine List.rel_append ?_ hentries
    cases hentries with
    | nil => exact .nil
    | cons htop _ => exact .cons htop .nil
  | pop count =>
    simp only [StackOp.effect, hlength]
    exact List.forall₂_drop _ hentries
  | replace hstates =>
    cases hstates with
    | nil =>
      simp only [StackOp.effect, hlength]
      exact List.forall₂_drop _ hentries
    | cons hstate hrest =>
      refine List.rel_append (List.rel_reverse (.cons hstate hrest)) ?_
      cases hentries with
      | nil => exact .nil
      | cons _ hbelow => exact hbelow
  | reset hstate => exact .cons hstate .nil

section bound
variable {op? : Option (StackOp τ)} {state : σ}

theorem exists_push (h : Option.Rel (StackOp.Rel R) (some (.push [state])) op?) :
    ∃ id, R state id ∧ op? = some (.push [id]) := by
  cases h with
  | some h =>
    cases h with
    | push hids =>
      obtain ⟨id, _, hid, hnil, rfl⟩ := List.forall₂_cons_left_iff.1 hids
      cases hnil
      exact ⟨id, hid, rfl⟩

theorem exists_replace (h : Option.Rel (StackOp.Rel R) (some (.replace [state])) op?) :
    ∃ id, R state id ∧ op? = some (.replace [id]) := by
  cases h with
  | some h =>
    cases h with
    | replace hids =>
      obtain ⟨id, _, hid, hnil, rfl⟩ := List.forall₂_cons_left_iff.1 hids
      cases hnil
      exact ⟨id, hid, rfl⟩

theorem exists_reset (h : Option.Rel (StackOp.Rel R) (some (.reset state)) op?) :
    ∃ id, R state id ∧ op? = some (.reset id) := by
  cases h with
  | some h =>
    cases h with
    | reset hid => exact ⟨_, hid, rfl⟩

theorem eq_pop {count : Nat} (h : Option.Rel (StackOp.Rel R) (some (.pop count)) op?) :
    op? = some (.pop count) := by
  cases h with
  | some h =>
    cases h
    rfl

theorem eq_pushCurrent (h : Option.Rel (StackOp.Rel R) (some .pushCurrent) op?) :
    op? = some .pushCurrent := by
  cases h with
  | some h =>
    cases h
    rfl

end bound

theorem effect?_rel {op? : Option (StackOp σ)} {op'? : Option (StackOp τ)}
    (h : Option.Rel (StackOp.Rel R) op? op'?) {entries : List σ} {entries' : List τ}
    (hentries : List.Forall₂ R entries entries') :
    List.Forall₂ R (effect? op? entries) (effect? op'? entries') := by
  cases h with
  | none => exact hentries
  | some hop => exact hop.effect hentries

end StackOp

namespace Stack
variable {s : Stack}

theorem length_entries (s : Stack) : s.entries.length = s.depth := rfl

theorem pushAll_of_room {states : List StateId} (hroom : s.depth + states.length ≤ maxDepth) :
    (s.pushAll states).1.entries = states.reverse ++ s.entries ∧ (s.pushAll states).2 = 0 := by
  induction states generalizing s with
  | nil => exact ⟨rfl, rfl⟩
  | cons state rest ih =>
    rw [List.length_cons] at hroom
    have hpush : s.push state = (⟨state, s.entries, s.generation + 1⟩, true) :=
      if_neg (by omega)
    have hdepth : (⟨state, s.entries, s.generation + 1⟩ : Stack).depth = s.depth + 1 := rfl
    obtain ⟨hentries, hrefused⟩ := @ih ⟨state, s.entries, s.generation + 1⟩ (by omega)
    simp only [pushAll, hpush, hentries, hrefused]
    simp [entries]

theorem entries_pop (s : Stack) (count : Nat) :
    (s.pop count).1.entries = s.entries.drop (min count (s.entries.length - 1)) := by
  have hkept : s.entries.drop (min count s.below.length) ≠ [] := by
    rw [ne_eq, List.drop_eq_nil_iff]
    simp only [entries, List.length_cons]
    omega
  obtain ⟨top, below, hdrop⟩ := List.exists_cons_of_ne_nil hkept
  have hlength : s.entries.length - 1 = s.below.length := rfl
  rw [hlength, pop, hdrop]
  rfl

theorem replace_of_room {state : StateId} {rest : List StateId}
    (hroom : (state :: rest).length + s.below.length ≤ maxDepth) :
    (s.replace (state :: rest)).1.entries = (state :: rest).reverse ++ s.below ∧
      (s.replace (state :: rest)).2 = 0 := by
  cases hbelow : s.below with
  | nil =>
    rw [hbelow] at hroom
    have hall : (state :: rest).take maxDepth = state :: rest := List.take_of_length_le hroom
    obtain ⟨top, below, hreverse⟩ :=
      List.exists_cons_of_ne_nil (List.reverse_ne_nil_iff.2 (List.cons_ne_nil state rest))
    simp only [replace, hbelow, ofList, hall, hreverse]
    simp [entries]
  | cons top below =>
    have hdepth : (⟨top, below, s.generation + 1⟩ : Stack).depth = s.below.length := by
      rw [hbelow, List.length_cons, depth]
    simp only [replace, hbelow]
    exact pushAll_of_room (by omega)

theorem apply_of_room {op : StackOp StateId} (hroom : (op.effect s.entries).length ≤ maxDepth) :
    (s.apply op).1.entries = op.effect s.entries ∧ (s.apply op).2 = 0 := by
  cases op with
  | push states =>
    rw [StackOp.effect, List.length_append, List.length_reverse, length_entries] at hroom
    exact pushAll_of_room (by omega)
  | pushCurrent => exact pushAll_of_room (by simpa [StackOp.effect, entries, depth] using hroom)
  | pop count => exact ⟨s.entries_pop count, rfl⟩
  | replace states =>
    cases states with
    | nil => exact ⟨s.entries_pop 1, rfl⟩
    | cons state rest =>
      rw [StackOp.effect, List.length_append, List.length_reverse] at hroom
      exact replace_of_room hroom
  | reset state => exact ⟨s.entries_reset state, rfl⟩

theorem applied_of_room {op? : Option (StackOp StateId)}
    (hroom : (StackOp.effect? op? s.entries).length ≤ maxDepth) :
    (s.applied op?).entries = StackOp.effect? op? s.entries := by
  cases op? with
  | none => rfl
  | some op => exact (apply_of_room hroom).1

/-- The names of the states on a stack, top first. -/
def Shaped (names : List String) (shape : List String) (s : Stack) : Prop :=
  List.Forall₂ (Named names) shape s.entries

theorem shaped_start {names : List String} {states : List String} {ids : List StateId}
    (h : List.Forall₂ (Named names) states ids) (hne : ids ≠ [])
    (hfits : states.length ≤ maxDepth) (fallback : StateId) :
    (start ids fallback).Shaped names states.reverse := by
  have hall : ids.take maxDepth = ids := List.take_of_length_le (h.length_eq ▸ hfits)
  obtain ⟨top, below, hreverse⟩ := List.exists_cons_of_ne_nil (List.reverse_ne_nil_iff.2 hne)
  have hentries : (start ids fallback).entries = ids.reverse := by
    simp only [start, ofList, hall, hreverse]
    rfl
  rw [Shaped, hentries]
  exact List.rel_reverse h

theorem applied_push (s : Stack) (id : StateId) :
    s.applied (some (.push [id])) = (s.push id).1 := rfl

theorem shaped_reset {known : List String} {state : String} {id : StateId}
    (hid : Named known state id) (s : Stack) : (s.reset id).Shaped known [state] := by
  rw [Shaped, entries_reset]
  exact .cons hid .nil

namespace Shaped
variable {names shape : List String}

theorem applied (h : s.Shaped names shape) {op? : Option (StackOp String)}
    {bound? : Option (StackOp StateId)} (hop : Option.Rel (StackOp.Rel (Named names)) op? bound?)
    (hroom : (StackOp.effect? op? shape).length ≤ maxDepth) :
    (s.applied bound?).Shaped names (StackOp.effect? op? shape) := by
  have hentries := StackOp.effect?_rel hop h
  rw [hentries.length_eq] at hroom
  rwa [Shaped, applied_of_room hroom]

theorem entries_eq (h : s.Shaped names shape) {s' : Stack} (h' : s'.Shaped names shape) :
    s'.entries = s.entries := by
  have hunique : Relator.RightUnique (Named names) :=
    fun _ _ _ hid hid' => Option.some.inj (hid.symm.trans hid')
  exact (hunique.forall₂ h h').symm

section operations
variable {known : List String} {state : String} {id : StateId}

theorem push (h : s.Shaped known names) (hid : Named known state id) :
    s.push id = (s, false) ∧ maxDepth ≤ names.length ∨
      (s.push id).1.Shaped known (state :: names) ∧ (s.push id).1.generation ≠ s.generation := by
  have hdepth : s.depth = names.length := by rw [← length_entries, ← h.length_eq]
  rw [Stack.push, hdepth]
  by_cases hfull : maxDepth ≤ names.length
  · exact .inl ⟨if_pos hfull, hfull⟩
  · rw [if_neg hfull]
    exact .inr ⟨.cons hid h, Nat.succ_ne_self _⟩

theorem pop {below : String} (h : s.Shaped known (state :: below :: names)) :
    (s.applied (some (.pop 1))).Shaped known (below :: names) ∧
      (s.applied (some (.pop 1))).generation ≠ s.generation := by
  obtain ⟨top, rest, generation⟩ := s
  cases h with
  | cons _ h =>
    cases h with
    | cons hbelow hrest => exact ⟨.cons hbelow hrest, Nat.succ_ne_self _⟩

theorem pop_bottom (h : s.Shaped known [state]) :
    (s.applied (some (.pop 1))).Shaped known [state] := by
  obtain ⟨top, rest, generation⟩ := s
  cases h with
  | cons hstate hnil =>
    cases hnil
    exact .cons hstate .nil

theorem replace {below next : String} (h : s.Shaped known [state, below])
    (hid : Named known next id) :
    (s.applied (some (.replace [id]))).Shaped known [next, below] ∧
      (s.applied (some (.replace [id]))).generation ≠ s.generation := by
  obtain ⟨top, rest, generation⟩ := s
  cases h with
  | cons _ h =>
    cases h with
    | cons hbelow hnil =>
      cases hnil
      refine ⟨.cons hid (.cons hbelow .nil), ?_⟩
      show generation + 1 + 1 ≠ generation
      omega

end operations

end Shaped

end Stack

end RuleLexer
