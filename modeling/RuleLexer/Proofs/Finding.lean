import RuleLexer.Proofs.Walk

/-! What a pattern can match is found. A choice or a loop is entered once at a place, so all that a
second visit would lead to has to be in the frontier when the first one is over; this needs that a
number stands for one choice or loop with one continuation. A frontier of which that is true keeps a
thread on every way, and a run finds a match wherever there is a way. -/
namespace RuleLexer.Regex
open RuleLexer.Text

namespace Node

def number? : Node → Option Nat
  | alt id _ _ | loop id _ _ => some id
  | _ => none

/-- The choices and loops in a node, each with what follows it. -/
def forks : Node → (rest : List Node) → List (List Node)
  | empty, _ | set _, _ | look _, _ | mark _, _ => []
  | seq a b, rest => a.forks (b :: rest) ++ b.forks rest
  | alt id a b, rest => (alt id a b :: rest) :: (a.forks rest ++ b.forks rest)
  | loop id greedy a, rest =>
      (loop id greedy a :: rest) :: a.forks (loop id greedy a :: rest)

end Node

def forksOf : List Node → List (List Node)
  | [] => []
  | n :: rest => n.forks rest ++ forksOf rest

section subset
variable {forks : List (List Node)} {id : Nat} {greedy : Bool} {a b : Node} {rest : List Node}

theorem forksOf_seq (a b : Node) (rest : List Node) :
    forksOf (.seq a b :: rest) = forksOf (a :: b :: rest) := List.append_assoc ..

theorem forksOf_tail {n : Node} (h : forksOf (n :: rest) ⊆ forks) : forksOf rest ⊆ forks :=
  (List.append_subset.1 h).2

theorem forksOf_alt (h : forksOf (.alt id a b :: rest) ⊆ forks) :
    .alt id a b :: rest ∈ forks ∧ forksOf (a :: rest) ⊆ forks ∧ forksOf (b :: rest) ⊆ forks := by
  simp only [forksOf, Node.forks, List.append_subset, List.cons_subset] at h ⊢
  exact ⟨h.1.1, ⟨h.1.2.1, h.2⟩, h.1.2.2, h.2⟩

theorem forksOf_loop (h : forksOf (.loop id greedy a :: rest) ⊆ forks) :
    .loop id greedy a :: rest ∈ forks ∧ forksOf (a :: .loop id greedy a :: rest) ⊆ forks := by
  have hfirst := (List.append_subset.1 h).1
  rw [Node.forks, List.cons_subset] at hfirst
  exact ⟨hfirst.1, List.append_subset.2 ⟨hfirst.2, h⟩⟩

end subset

def Numbered (forks : List (List Node)) : Prop :=
  ∀ l ∈ forks, ∀ l' ∈ forks, l.head?.bind Node.number? = l'.head?.bind Node.number? → l = l'

instance (forks : List (List Node)) : Decidable (Numbered forks) :=
  inferInstanceAs (Decidable (∀ l ∈ forks, ∀ l' ∈ forks,
    l.head?.bind Node.number? = l'.head?.bind Node.number? → l = l'))

namespace Frontier

/-- All that nodes lead to without consuming is in the frontier, or was entered; nothing is missing
when something has matched. -/
inductive Holds (f : Frontier) (p : Place) : List Node → Prop
  | matched (h : f.matched.isSome) (nodes : List Node) : Holds f p nodes
  | empty {rest : List Node} (h : Holds f p rest) : Holds f p (.empty :: rest)
  | set {t : Thread} (h : t ∈ f.threads) : Holds f p (.set t.awaits :: t.rest)
  | look {l : Look} {rest : List Node} (h : l.holds p → Holds f p rest) :
      Holds f p (.look l :: rest)
  | mark (slot : Nat) {rest : List Node} (h : Holds f p rest) : Holds f p (.mark slot :: rest)
  | seq {a b : Node} {rest : List Node} (h : Holds f p (a :: b :: rest)) :
      Holds f p (.seq a b :: rest)
  | alt {id : Nat} (h : f.entered.testBit id) (a b : Node) (rest : List Node) :
      Holds f p (.alt id a b :: rest)
  | loop {id : Nat} (h : f.entered.testBit id) (greedy : Bool) (a : Node) (rest : List Node) :
      Holds f p (.loop id greedy a :: rest)

structure Grows (f f' : Frontier) : Prop where
  entered : ∀ id, f.entered.testBit id → f'.entered.testBit id
  threads : f.threads ⊆ f'.threads
  matched : f.matched.isSome → f'.matched.isSome

namespace Grows
variable {f f' f'' : Frontier}

theorem refl (f : Frontier) : f.Grows f := ⟨fun _ h => h, List.Subset.refl _, fun h => h⟩

theorem trans (h : f.Grows f') (h' : f'.Grows f'') : f.Grows f'' :=
  ⟨fun id hid => h'.entered id (h.entered id hid), List.Subset.trans h.threads h'.threads,
    fun hm => h'.matched (h.matched hm)⟩

end Grows

theorem Holds.mono {f f' : Frontier} {p : Place} {nodes : List Node} (h : f.Holds p nodes)
    (hgrows : f.Grows f') : f'.Holds p nodes := by
  induction h with
  | matched h nodes => exact .matched (hgrows.matched h) nodes
  | empty _ ih => exact .empty ih
  | set h => exact .set (hgrows.threads h)
  | look _ ih => exact .look ih
  | mark slot _ ih => exact .mark slot ih
  | seq _ ih => exact .seq ih
  | alt h => exact .alt (hgrows.entered _ h) _ _ _
  | loop h => exact .loop (hgrows.entered _ h) _ _ _

/-- Of the choices and loops that were entered, all but those that are `begun` are over, and all
that they lead to is there. -/
structure Closed (forks : List (List Node)) (p : Place) (begun : Nat → Prop) (f : Frontier) :
    Prop where
  entered : ∀ id, begun id → f.entered.testBit id
  alts : ∀ id a b rest, .alt id a b :: rest ∈ forks → f.entered.testBit id → ¬begun id →
    f.Holds p (a :: rest) ∧ f.Holds p (b :: rest)
  loops : ∀ id greedy a rest, .loop id greedy a :: rest ∈ forks → f.entered.testBit id →
    ¬begun id → f.Holds p (a :: .loop id greedy a :: rest) ∧ f.Holds p rest
  rests : ∀ t ∈ f.threads, forksOf t.rest ⊆ forks

structure Reached (forks : List (List Node)) (p : Place) (begun : Nat → Prop)
    (nodes : List Node) (f f' : Frontier) : Prop where
  grows : f.Grows f'
  closed : f'.Closed forks p begun
  holds : f'.Holds p nodes

section closed
variable {forks : List (List Node)} {p : Place} {begun : Nat → Prop} {f : Frontier}

theorem closed_none : Frontier.none.Closed forks p fun _ => False := by
  constructor <;> simp [none]

theorem testBit_enter (entered id j : Nat) :
    (entered ||| 1 <<< id).testBit j = (entered.testBit j || decide (id = j)) := by
  rw [Nat.testBit_or, Nat.one_shiftLeft, Nat.testBit_two_pow]

theorem Closed.addThread (h : f.Closed forks p begun) {t : Thread}
    (ht : forksOf t.rest ⊆ forks) :
    Reached forks p begun (.set t.awaits :: t.rest) f (f.addThread t) := by
  unfold Frontier.addThread
  split
  · next hmatched => exact ⟨.refl f, h, .matched hmatched _⟩
  · have hgrows : f.Grows { f with threads := t :: f.threads } :=
      ⟨fun _ h => h, List.subset_cons_self _ _, fun h => h⟩
    refine ⟨hgrows, ⟨h.entered, fun id a b rest hk hid hnot => ?_,
      fun id greedy a rest hk hid hnot => ?_, List.forall_mem_cons.2 ⟨ht, h.rests⟩⟩,
      .set List.mem_cons_self⟩
    · exact (h.alts id a b rest hk hid hnot).imp (·.mono hgrows) (·.mono hgrows)
    · exact (h.loops id greedy a rest hk hid hnot).imp (·.mono hgrows) (·.mono hgrows)

theorem Closed.addMatch (h : f.Closed forks p begun) (σ : Slots) :
    Reached forks p begun [] f (f.addMatch σ) := by
  unfold Frontier.addMatch
  split
  · next hmatched => exact ⟨.refl f, h, .matched hmatched _⟩
  · exact ⟨⟨fun _ h => h, List.Subset.refl _, fun _ => rfl⟩,
      ⟨h.entered, fun _ _ _ _ _ _ _ => ⟨.matched rfl _, .matched rfl _⟩,
        fun _ _ _ _ _ _ _ => ⟨.matched rfl _, .matched rfl _⟩, h.rests⟩, .matched rfl _⟩

theorem Closed.begin (h : f.Closed forks p begun) (id : Nat) :
    let f' : Frontier := { f with entered := f.entered ||| 1 <<< id }
    f.Grows f' ∧ f'.Closed forks p fun j => begun j ∨ j = id := by
  intro f'
  have hbit (j : Nat) : f'.entered.testBit j = (f.entered.testBit j || decide (id = j)) :=
    testBit_enter ..
  have hgrows : f.Grows f' := ⟨fun j hj => by simp [hbit, hj], List.Subset.refl _, fun h => h⟩
  have hold {j : Nat} (hj : f'.entered.testBit j) (hnot : ¬(begun j ∨ j = id)) :
      f.entered.testBit j ∧ ¬begun j := by
    rw [hbit, Bool.or_eq_true, decide_eq_true_eq] at hj
    exact ⟨hj.resolve_right fun heq => hnot (.inr heq.symm), fun hj => hnot (.inl hj)⟩
  refine ⟨hgrows, fun j hj => ?_, fun j a b rest hk hj hnot => ?_,
    fun j greedy a rest hk hj hnot => ?_, h.rests⟩
  · rcases hj with hj | rfl
    · exact hgrows.entered j (h.entered j hj)
    · simp [hbit]
  · obtain ⟨hj, hnot⟩ := hold hj hnot
    exact (h.alts j a b rest hk hj hnot).imp (·.mono hgrows) (·.mono hgrows)
  · obtain ⟨hj, hnot⟩ := hold hj hnot
    exact (h.loops j greedy a rest hk hj hnot).imp (·.mono hgrows) (·.mono hgrows)

theorem Closed.finish {id : Nat} (h : f.Closed forks p fun j => begun j ∨ j = id)
    (hnumbered : Numbered forks) {n : Node} {rest : List Node} (hn : n.number? = some id)
    (hfork : n :: rest ∈ forks)
    (halt : ∀ a b, n = .alt id a b → f.Holds p (a :: rest) ∧ f.Holds p (b :: rest))
    (hloop : ∀ greedy a, n = .loop id greedy a → f.Holds p (a :: n :: rest) ∧ f.Holds p rest) :
    f.Closed forks p begun := by
  have hsame {n' : Node} {rest' : List Node} (hk : n' :: rest' ∈ forks)
      (hn' : n'.number? = some id) : n' = n ∧ rest' = rest := by
    have heq := hnumbered _ hk _ hfork (by simp [hn, hn'])
    exact List.cons.inj heq
  refine ⟨fun j hj => h.entered j (.inl hj), fun j a b rest' hk hj hnot => ?_,
    fun j greedy a rest' hk hj hnot => ?_, h.rests⟩
  · by_cases hid : j = id
    · subst hid
      obtain ⟨rfl, rfl⟩ := hsame hk rfl
      exact halt a b rfl
    · exact h.alts j a b rest' hk hj fun hor => hor.elim hnot hid
  · by_cases hid : j = id
    · subst hid
      obtain ⟨rfl, rfl⟩ := hsame hk rfl
      exact hloop greedy a rfl
    · exact h.loops j greedy a rest' hk hj fun hor => hor.elim hnot hid

end closed

end Frontier

open Frontier

section expand
variable {forks : List (List Node)} {p : Place} (hnumbered : Numbered forks)
include hnumbered

theorem Node.expand_reached (node : Node) {begun : Nat → Prop} {rest : List Node}
    {next : Slots → Frontier → Frontier} (hforks : forksOf (node :: rest) ⊆ forks)
    (hnext : ∀ begun' : Nat → Prop, (∀ id, begun id → begun' id) → ∀ σ f,
      f.Closed forks p begun' → Reached forks p begun' rest f (next σ f))
    (σ : Slots) {f : Frontier} (hf : f.Closed forks p begun) :
    Reached forks p begun (node :: rest) f (node.expand p rest next σ f) := by
  induction node generalizing begun rest next σ f with
  | empty =>
    have hreached := hnext begun (fun _ h => h) σ f hf
    exact ⟨hreached.grows, hreached.closed, .empty hreached.holds⟩
  | set s => exact hf.addThread (t := ⟨s, rest, σ⟩) hforks
  | look l =>
    rw [Node.expand]
    split
    · have hreached := hnext begun (fun _ h => h) σ f hf
      exact ⟨hreached.grows, hreached.closed, .look fun _ => hreached.holds⟩
    · next hfails => exact ⟨.refl f, hf, .look fun h => absurd h hfails⟩
  | mark slot =>
    have hreached := hnext begun (fun _ h => h) (σ.set slot (some p.offset)) f hf
    exact ⟨hreached.grows, hreached.closed, .mark slot hreached.holds⟩
  | seq a b iha ihb =>
    rw [forksOf_seq] at hforks
    have hreached := iha hforks (fun begun' hmore σ f hf =>
      ihb (forksOf_tail hforks)
        (fun begun'' hmore' => hnext begun'' fun id hid => hmore' id (hmore id hid)) σ hf) σ hf
    exact ⟨hreached.grows, hreached.closed, .seq hreached.holds⟩
  | alt id a b iha ihb =>
    rw [Node.expand, Frontier.enter]
    split
    · next hentered => exact ⟨.refl f, hf, .alt hentered a b rest⟩
    · obtain ⟨hfork, hfirst, hsecond⟩ := forksOf_alt hforks
      obtain ⟨hbegin, hbegun⟩ := hf.begin id
      have hnext' := fun begun' (hmore : ∀ j, begun j ∨ j = id → begun' j) =>
        hnext begun' fun j hj => hmore j (.inl hj)
      have ha := iha hfirst hnext' σ hbegun
      have hb := ihb hsecond hnext' σ ha.closed
      refine ⟨hbegin.trans (ha.grows.trans hb.grows), ?_,
        .alt (hb.closed.entered id (.inr rfl)) a b rest⟩
      refine hb.closed.finish hnumbered rfl hfork (fun a' b' heq => ?_) fun _ _ heq => ?_
      · cases heq
        exact ⟨ha.holds.mono hb.grows, hb.holds⟩
      · cases heq
  | loop id greedy a iha =>
    rw [Node.expand, Frontier.enter]
    split
    · next hentered => exact ⟨.refl f, hf, .loop hentered greedy a rest⟩
    · obtain ⟨hfork, hround⟩ := forksOf_loop hforks
      obtain ⟨hbegin, hbegun⟩ := hf.begin id
      -- a round that consumes nothing is back at the loop, which is begun
      have again {f : Frontier} (hf : f.Closed forks p fun j => begun j ∨ j = id) :
          Reached forks p (fun j => begun j ∨ j = id) (a :: .loop id greedy a :: rest) f
            (a.expand p (.loop id greedy a :: rest) (fun _ f => f) σ f) :=
        iha hround (fun begun' hmore _ f hf =>
          ⟨.refl f, hf, .loop (hf.entered id (hmore id (.inr rfl))) greedy a rest⟩) σ hf
      have leaves {f : Frontier} (hf : f.Closed forks p fun j => begun j ∨ j = id) :=
        hnext (fun j => begun j ∨ j = id) (fun _ => .inl) σ f hf
      have finish {f : Frontier} (hf : f.Closed forks p fun j => begun j ∨ j = id)
          (hagain : f.Holds p (a :: .loop id greedy a :: rest)) (hleaves : f.Holds p rest) :
          f.Closed forks p begun := by
        refine hf.finish hnumbered rfl hfork (fun _ _ heq => ?_) fun greedy' a' heq => ?_
        · cases heq
        · cases heq
          exact ⟨hagain, hleaves⟩
      dsimp only
      split
      · have hagain := again hbegun
        have hleaves := leaves hagain.closed
        exact ⟨hbegin.trans (hagain.grows.trans hleaves.grows),
          finish hleaves.closed (hagain.holds.mono hleaves.grows) hleaves.holds,
          .loop (hleaves.closed.entered id (.inr rfl)) greedy a rest⟩
      · have hleaves := leaves hbegun
        have hagain := again hleaves.closed
        exact ⟨hbegin.trans (hleaves.grows.trans hagain.grows),
          finish hagain.closed hagain.holds (hleaves.holds.mono hagain.grows),
          .loop (hagain.closed.entered id (.inr rfl)) greedy a rest⟩

theorem expandAll_reached (nodes : List Node) (hforks : forksOf nodes ⊆ forks)
    {begun : Nat → Prop} (σ : Slots) {f : Frontier} (hf : f.Closed forks p begun) :
    Reached forks p begun nodes f (expandAll p nodes σ f) := by
  induction nodes generalizing begun σ f with
  | nil => exact hf.addMatch σ
  | cons n rest ih =>
    exact n.expand_reached hnumbered hforks (fun begun' _ σ f hf =>
      ih (forksOf_tail hforks) σ hf) σ hf

theorem advance_reached {d : Char} {threads : List Thread} {f : Frontier}
    (hf : f.Closed forks p fun _ => False) (hrests : ∀ t ∈ threads, forksOf t.rest ⊆ forks) :
    f.Grows (advance p d threads f) ∧ (advance p d threads f).Closed forks p (fun _ => False) ∧
      ∀ t ∈ threads, t.awaits.mem d → (advance p d threads f).Holds p t.rest := by
  induction threads generalizing f with
  | nil => exact ⟨.refl f, hf, by simp⟩
  | cons t threads ih =>
    obtain ⟨ht, hrests⟩ := List.forall_mem_cons.1 hrests
    rw [advance]
    split
    · next hmatched => exact ⟨.refl f, hf, fun _ _ _ => .matched hmatched _⟩
    · split
      · have hreached := expandAll_reached hnumbered t.rest ht t.slots hf
        obtain ⟨hgrows, hclosed, hholds⟩ := ih hreached.closed hrests
        exact ⟨hreached.grows.trans hgrows, hclosed,
          List.forall_mem_cons.2 ⟨fun _ => hreached.holds.mono hgrows, hholds⟩⟩
      · next hnot =>
        obtain ⟨hgrows, hclosed, hholds⟩ := ih hf hrests
        exact ⟨hgrows, hclosed, List.forall_mem_cons.2 ⟨fun hmem => absurd hmem hnot, hholds⟩⟩

end expand

/-! Ways go on -/

theorem Node.Leads.slots {n : Node} {c c' : Cursor} {σ σ' : Slots} (h : n.Leads c σ c' σ')
    (τ : Slots) : ∃ τ', n.Leads c τ c' τ' := by
  induction h generalizing τ with
  | empty c => exact ⟨τ, .empty c τ⟩
  | set mem passes => exact ⟨τ, .set mem passes τ⟩
  | look holds => exact ⟨τ, .look holds τ⟩
  | mark slot c => exact ⟨_, .mark slot c τ⟩
  | seq _ _ ihfirst ihsecond =>
    obtain ⟨τ', hfirst⟩ := ihfirst τ
    obtain ⟨τ'', hsecond⟩ := ihsecond τ'
    exact ⟨τ'', .seq hfirst hsecond⟩
  | preferred _ id b ih =>
    obtain ⟨τ', h⟩ := ih τ
    exact ⟨τ', .preferred h id b⟩
  | other _ id a ih =>
    obtain ⟨τ', h⟩ := ih τ
    exact ⟨τ', .other h id a⟩
  | done id greedy a c => exact ⟨τ, .done id greedy a c τ⟩
  | again _ _ ihround ihlater =>
    obtain ⟨τ', hround⟩ := ihround τ
    obtain ⟨τ'', hlater⟩ := ihlater τ'
    exact ⟨τ'', .again hround hlater⟩

def Node.Way (n : Node) (c c' : Cursor) : Prop := ∀ σ, ∃ σ', n.Leads c σ c' σ'

theorem Node.Leads.way {n : Node} {c c' : Cursor} {σ σ' : Slots} (h : n.Leads c σ c' σ') :
    n.Way c c' := h.slots

inductive Ways : List Node → Cursor → Cursor → Prop
  | nil (c : Cursor) : Ways [] c c
  | cons {n : Node} {rest : List Node} {c c' c'' : Cursor} (first : n.Way c c')
      (later : Ways rest c' c'') : Ways (n :: rest) c c''

theorem Ways.append {nodes rest : List Node} {c c' c'' : Cursor} (h : Ways nodes c c')
    (h' : Ways rest c' c'') : Ways (nodes ++ rest) c c'' := by
  induction h with
  | nil => exact h'
  | cons first _ ih => exact .cons first (ih h')

namespace Frontier

/-- A thread of the frontier awaits the next character, and goes on from there through `nodes` to
`c'` and then through `rest`. -/
def Awaits (f : Frontier) (c : Cursor) (nodes : List Node) (c' : Cursor) (rest : List Node) :
    Prop :=
  ∃ t ∈ f.threads, ∃ d c₁, t.awaits.mem d ∧ c.Passes [d] c₁ ∧ t.rest = nodes ++ rest ∧
    Ways nodes c₁ c'

section goes
variable {forks : List (List Node)} {f : Frontier} {c c' : Cursor}
  (hclosed : f.Closed forks (.at c) fun _ => False)
include hclosed

/-- A way through a node ends where it began, with all that follows in the frontier, or some thread
is on it. -/
theorem Closed.way {n : Node} {c₀ : Cursor} {σ σ' : Slots} (h : n.Leads c₀ σ c' σ') (hc : c₀ = c)
    {rest : List Node} (hforks : forksOf (n :: rest) ⊆ forks)
    (hholds : f.Holds (.at c) (n :: rest)) :
    f.matched.isSome ∨ (c' = c ∧ f.Holds (.at c) rest) ∨ ∃ nodes, f.Awaits c nodes c' rest := by
  induction h generalizing rest with
  | empty c₁ =>
    cases hholds with
    | matched h => exact .inl h
    | empty h => exact .inr (.inl ⟨hc, h⟩)
  | @set s d c₁ c₂ mem passes =>
    subst hc
    cases hholds with
    | matched h => exact .inl h
    | @set t h => exact .inr (.inr ⟨[], t, h, d, c₂, mem, passes, rfl, .nil c₂⟩)
  | look holds =>
    subst hc
    cases hholds with
    | matched h => exact .inl h
    | look h => exact .inr (.inl ⟨rfl, h holds⟩)
  | mark slot c₁ =>
    cases hholds with
    | matched h => exact .inl h
    | mark _ h => exact .inr (.inl ⟨hc, h⟩)
  | @seq a b _ c₁ c₂ _ _ _ first second ihfirst ihsecond =>
    rw [forksOf_seq] at hforks
    cases hholds with
    | matched h => exact .inl h
    | seq h =>
      rcases ihfirst hc hforks h with h | ⟨rfl, h⟩ | ⟨nodes, t, ht, d, c₃, hmem, hpasses, hrest, hways⟩
      · exact .inl h
      · exact ihsecond rfl (forksOf_tail hforks) h
      · exact .inr (.inr ⟨nodes ++ [b], t, ht, d, c₃, hmem, hpasses, by simp [hrest],
          hways.append (.cons second.way (.nil _))⟩)
  | @preferred a _ _ _ _ _ id b ih =>
    obtain ⟨hfork, hfirst, -⟩ := forksOf_alt hforks
    cases hholds with
    | matched h => exact .inl h
    | alt h =>
      exact ih hc hfirst (hclosed.alts id a b rest hfork h not_false).1
  | @other b _ _ _ _ _ id a ih =>
    obtain ⟨hfork, -, hsecond⟩ := forksOf_alt hforks
    cases hholds with
    | matched h => exact .inl h
    | alt h =>
      exact ih hc hsecond (hclosed.alts id a b rest hfork h not_false).2
  | done id greedy a c₁ =>
    obtain ⟨hfork, -⟩ := forksOf_loop hforks
    cases hholds with
    | matched h => exact .inl h
    | loop h => exact .inr (.inl ⟨hc, (hclosed.loops id greedy a rest hfork h not_false).2⟩)
  | @again id greedy a c₁ c₂ c₃ _ _ _ round later ihround ihlater =>
    obtain ⟨hfork, hround⟩ := forksOf_loop hforks
    cases hholds with
    | matched h => exact .inl h
    | loop h =>
      rcases ihround hc hround (hclosed.loops id greedy a rest hfork h not_false).1 with
        h | ⟨rfl, h⟩ | ⟨nodes, t, ht, d, c₄, hmem, hpasses, hrest, hways⟩
      · exact .inl h
      · exact ihlater rfl hforks h
      · exact .inr (.inr ⟨nodes ++ [.loop id greedy a], t, ht, d, c₄, hmem, hpasses,
          by simp [hrest], hways.append (.cons later.way (.nil _))⟩)

theorem Closed.ways {nodes : List Node} (h : Ways nodes c c') (hforks : forksOf nodes ⊆ forks)
    (hholds : f.Holds (.at c) nodes) :
    f.matched.isSome ∨ ∃ nodes, f.Awaits c nodes c' [] := by
  generalize hc : c = c₀ at h
  induction h with
  | nil =>
    cases hholds with
    | matched h => exact .inl h
  | @cons n rest c₁ c₂ c₃ first later ih =>
    subst hc
    obtain ⟨_, hfirst⟩ := first []
    rcases hclosed.way hfirst rfl hforks hholds with
      h | ⟨rfl, h⟩ | ⟨nodes, t, ht, d, c₄, hmem, hpasses, hrest, hways⟩
    · exact .inl h
    · exact ih (forksOf_tail hforks) h rfl
    · exact .inr ⟨nodes ++ rest, t, ht, d, c₄, hmem, hpasses, by simp [hrest], hways.append later⟩

end goes

end Frontier

theorem isSome_scan_of_awaits {forks : List (List Node)} (hnumbered : Numbered forks)
    {threads : List Thread} (hrests : ∀ t ∈ threads, forksOf t.rest ⊆ forks) {c c' : Cursor}
    {nodes : List Node} (h : (⟨0, threads, none⟩ : Frontier).Awaits c nodes c' [])
    (best : Option Found) : (scan best c.offset threads c.ahead).isSome := by
  induction hahead : c.ahead generalizing c threads nodes best with
  | nil =>
    obtain ⟨t, -, d, c₁, -, hpasses, -⟩ := h
    rw [hpasses.ahead] at hahead
    cases hahead
  | cons d ahead ih =>
    obtain ⟨t, ht, d', c₁, hmem, hpasses, hrest, hways⟩ := h
    obtain ⟨rfl, rfl⟩ : d' = d ∧ c₁.ahead = ahead := by
      rw [hpasses.ahead] at hahead
      exact List.cons.inj hahead
    obtain ⟨first, threads, rfl⟩ := List.exists_cons_of_ne_nil (List.ne_nil_of_mem ht)
    have hplace : (⟨some d', c₁.ahead.head?, c.offset + d'.utf8Size⟩ : Place) = .at c₁ := by
      simp [Place.at, hpasses.passed, hpasses.offset]
    obtain ⟨-, hclosed, hholds⟩ := advance_reached (p := .at c₁) (d := d') hnumbered
      Frontier.closed_none hrests
    rw [List.append_nil] at hrest
    rw [scan, hplace]
    rcases hclosed.ways (hrest ▸ hways) (hrests t ht) (hholds t ht hmem) with hmatched | ⟨nodes, hway⟩
    · refine isSome_scan ?_
      rw [Option.isSome_or, Frontier.found?, Option.isSome_map, hmatched, Bool.true_or]
    · have hoffset : c.offset + d'.utf8Size = c₁.offset := by simp [hpasses.offset]
      rw [hoffset]
      obtain ⟨t', ht', hmore⟩ := hway
      exact ih (fun t ht => hclosed.rests t (List.mem_reverse.1 ht))
        ⟨t', List.mem_reverse.2 ht', hmore⟩ _ rfl

theorem Node.isSome_run_iff {n : Node} (hnumbered : Numbered (n.forks [])) (slotCount : Nat)
    (c : Cursor) : (n.run slotCount c.passed.head? c.offset c.ahead).isSome ↔ ∃ c', n.Way c c' := by
  constructor
  · intro h
    obtain ⟨found, hfound⟩ := Option.isSome_iff_exists.1 h
    obtain ⟨c', hleads, -⟩ := Node.run_leads hfound
    exact ⟨c', hleads.way⟩
  · rintro ⟨c', hway⟩
    have hforks : forksOf [n] ⊆ n.forks [] := by simp [forksOf]
    have hreached := expandAll_reached (p := .at c) hnumbered [n] hforks
      (List.replicate slotCount none) Frontier.closed_none
    rw [Node.run]
    rcases hreached.closed.ways (.cons hway (.nil c')) hforks hreached.holds with
      hmatched | ⟨nodes, t, ht, hway⟩
    · refine isSome_scan ?_
      rw [Frontier.found?, Option.isSome_map]
      exact hmatched
    · exact isSome_scan_of_awaits hnumbered
        (fun t ht => hreached.closed.rests t (List.mem_reverse.1 ht))
        ⟨t, List.mem_reverse.2 ht, hway⟩ _

end RuleLexer.Regex
