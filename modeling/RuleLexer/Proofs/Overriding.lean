import RuleLexer.Proofs.Binding

/-! Lists in which the last item counts. Items that are read one by one fail at the first that
cannot be read. Where each tells what becomes of some part of a state, or nothing of it, that part is in
the end what it is told last, or what it was. -/
namespace RuleLexer

theorem exists_split_cons {α : Type} {P : List α → α → List α → Prop} {x : α} {xs : List α} :
    (∃ before y after, x :: xs = before ++ y :: after ∧ P before y after) ↔
      P [] x xs ∨ ∃ before y after, xs = before ++ y :: after ∧ P (x :: before) y after := by
  constructor
  · rintro ⟨before, y, after, hsplit, h⟩
    cases before with
    | nil =>
      obtain ⟨rfl, rfl⟩ := List.cons.inj hsplit
      exact .inl h
    | cons z before =>
      obtain ⟨rfl, rfl⟩ := List.cons.inj hsplit
      exact .inr ⟨before, y, after, rfl, h⟩
  · rintro (h | ⟨before, y, after, rfl, h⟩)
    · exact ⟨[], x, xs, rfl, h⟩
    · exact ⟨x :: before, y, after, rfl, h⟩

section reading
variable {ε α β σ : Type} {f : α → Except ε β} {xs : List α}

theorem exists_mapM : (∃ ys, xs.mapM f = .ok ys) ↔ ∀ x ∈ xs, ∃ y, f x = .ok y := by
  simp only [mapM_ok_iff, exists_forall₂]

theorem bind_error {x : Except ε α} {f : α → Except ε β} {e : ε} :
    x >>= f = .error e ↔ x = .error e ∨ ∃ a, x = .ok a ∧ f a = .error e := by
  cases x <;> simp [bind, Except.bind]

theorem mapM_error_iff {e : ε} : xs.mapM f = .error e ↔
    ∃ before x after, xs = before ++ x :: after ∧ (∀ earlier ∈ before, ∃ y, f earlier = .ok y) ∧
      f x = .error e := by
  induction xs with
  | nil => exact iff_of_false (by simp [pure, Except.pure]) (by simp)
  | cons x xs ih =>
    have hpure : ∀ y ys, (pure (y :: ys) : Except ε (List β)) ≠ .error e := fun y ys h => by cases h
    simp only [List.mapM_cons, bind_error, hpure, and_false, exists_false, or_false, ih,
      exists_split_cons, List.forall_mem_cons]
    refine or_congr (by simp) ⟨?_, ?_⟩
    · rintro ⟨y, hy, before, z, after, hsplit, hbefore, hz⟩
      exact ⟨before, z, after, hsplit, ⟨⟨y, hy⟩, hbefore⟩, hz⟩
    · rintro ⟨before, z, after, hsplit, ⟨⟨y, hy⟩, hbefore⟩, hz⟩
      exact ⟨y, hy, before, z, after, hsplit, hbefore, hz⟩

theorem foldlM_eq_map_mapM (step : σ → β → σ) (s : σ) :
    xs.foldlM (fun s x => f x >>= fun b => .ok (step s b)) s =
      (fun bs => bs.foldl step s) <$> xs.mapM f := by
  induction xs generalizing s with
  | nil => rfl
  | cons x xs ih =>
    rw [List.foldlM_cons, List.mapM_cons]
    cases f x with
    | error e => rfl
    | ok b =>
      refine (ih (step s b)).trans ?_
      cases hrest : xs.mapM f with
      | error e => simp [bind, Except.bind, Functor.map, Except.map]
      | ok bs => simp [bind, Except.bind, Functor.map, Except.map, pure, Except.pure]

end reading

section last
variable {α β γ σ : Type} {tells : α → γ → Prop} {x : α} {xs : List α} {c : γ}

def Silent (tells : α → γ → Prop) (xs : List α) : Prop := ∀ x ∈ xs, ∀ c, ¬tells x c

/-- The last item that tells anything tells this. -/
def LastTells (tells : α → γ → Prop) (xs : List α) (c : γ) : Prop :=
  ∃ before x after, xs = before ++ x :: after ∧ tells x c ∧ Silent tells after

theorem silent_nil : Silent tells [] := by simp [Silent]

theorem silent_cons : Silent tells (x :: xs) ↔ (∀ c, ¬tells x c) ∧ Silent tells xs :=
  List.forall_mem_cons

theorem not_lastTells_nil : ¬LastTells tells [] c := by simp [LastTells]

theorem lastTells_cons :
    LastTells tells (x :: xs) c ↔ LastTells tells xs c ∨ Silent tells xs ∧ tells x c := by
  rw [LastTells, exists_split_cons, or_comm, and_comm (a := tells x c)]
  rfl

theorem LastTells.exists_mem (h : LastTells tells xs c) : ∃ x ∈ xs, tells x c := by
  obtain ⟨before, x, after, rfl, htells, -⟩ := h
  exact ⟨x, by simp, htells⟩

theorem lastTells_of_same (h : ∃ x ∈ xs, tells x c) (hsame : ∀ x ∈ xs, ∀ d, tells x d → d = c) :
    LastTells tells xs c := by
  induction xs with
  | nil => simp at h
  | cons x xs ih =>
    rw [List.forall_mem_cons] at hsame
    rw [lastTells_cons]
    by_cases hrest : ∃ y ∈ xs, tells y c
    · exact .inl (ih hrest hsame.2)
    · have hsilent : Silent tells xs := fun y hy d hd => by
        obtain rfl := hsame.2 y hy d hd
        exact hrest ⟨y, hy, hd⟩
      obtain ⟨y, hy, htells⟩ := h
      rcases List.mem_cons.1 hy with rfl | hy
      · exact .inr ⟨hsilent, htells⟩
      · exact absurd ⟨y, hy, htells⟩ hrest

variable {ys : List β} {tells' : β → γ → Prop} {R : α → β → Prop}

theorem silent_iff_of_forall₂ (h : List.Forall₂ R xs ys)
    (hR : ∀ x y, R x y → ∀ c, tells x c ↔ tells' y c) : Silent tells xs ↔ Silent tells' ys := by
  induction h with
  | nil => exact iff_of_true silent_nil silent_nil
  | cons hhead _ ih => rw [silent_cons, silent_cons, ih, forall_congr' fun c => not_congr (hR _ _ hhead c)]

theorem lastTells_iff_of_forall₂ (h : List.Forall₂ R xs ys)
    (hR : ∀ x y, R x y → ∀ c, tells x c ↔ tells' y c) : LastTells tells xs c ↔ LastTells tells' ys c := by
  induction h with
  | nil => exact iff_of_false not_lastTells_nil not_lastTells_nil
  | cons hhead hrest ih =>
    rw [lastTells_cons, lastTells_cons, ih, silent_iff_of_forall₂ hrest hR, hR _ _ hhead c]

/-- What holds of a fold is what is told last, or what held at the start. -/
theorem foldl_iff_lastTells {step : σ → α → σ} (holds : σ → γ → Prop)
    (hstep : ∀ s x c, holds (step s x) c ↔ tells x c ∨ (∀ d, ¬tells x d) ∧ holds s c) (s : σ) :
    holds (xs.foldl step s) c ↔ LastTells tells xs c ∨ Silent tells xs ∧ holds s c := by
  induction xs generalizing s with
  | nil => simp [not_lastTells_nil, silent_nil]
  | cons x xs ih =>
    rw [List.foldl_cons, ih, hstep, lastTells_cons, silent_cons]
    tauto

end last

end RuleLexer
