import RuleLexer.Proofs.KeptGroups
import RuleLexer.Proofs.Lazy

/-! What is built of a tree. Whatever the tree, no two choices or loops of its node share a number,
so a run of the node finds a match wherever there is one; and on every way through it a group is
marked as a whole, from where it begins to where it ends. -/
namespace RuleLexer.Regex
open RuleLexer.Text

namespace Builder

def choice (a b : Builder) : Builder := fun n =>
  let (a, m) := a (n + 1)
  let (b, m) := b m
  (.alt n a b, m)

def group (i : Nat) (a : Builder) : Builder := fun n =>
  let (a, m) := a n
  (.seq (.mark (2 * i)) (.seq a (.mark (2 * i + 1))), m)

/-- Builders that are put together as those of trees are, with these groups. -/
inductive Made (among : Nat → Prop) : Builder → Prop
  | empty : Made among .empty
  | set (s : CharSet) : Made among fun n => (.set s, n)
  | look (l : Look) : Made among fun n => (.look l, n)
  | seq {a b : Builder} (ha : Made among a) (hb : Made among b) : Made among (a.seq b)
  | choice {a b : Builder} (ha : Made among a) (hb : Made among b) : Made among (a.choice b)
  | star (greedy : Bool) {a : Builder} (ha : Made among a) : Made among (.star greedy a)
  | plus (greedy : Bool) {a : Builder} (ha : Made among a) : Made among (.plus greedy a)
  | group {i : Nat} (hi : among i) {a : Builder} (ha : Made among a) : Made among (a.group i)

variable {among : Nat → Prop} {a b : Builder}

namespace Made

theorem optional (greedy : Bool) (ha : Made among a) : Made among (.optional greedy a) := by
  cases greedy
  · exact .choice .empty ha
  · exact .choice ha .empty

theorem copies (ha : Made among a) (k : Nat) : Made among (a.copies k) := by
  induction k with
  | zero => exact .empty
  | succ k ih =>
    cases k with
    | zero => exact ha
    | succ k => exact .seq ha ih

theorem upTo (greedy : Bool) (ha : Made among a) (k : Nat) : Made among (.upTo greedy a k) := by
  induction k with
  | zero => exact .empty
  | succ k ih =>
    cases k with
    | zero => exact ha.optional greedy
    | succ k => exact .optional greedy (.seq ha ih)

theorem repeated (low : Nat) (high : Option Nat) (greedy nullable : Bool) (ha : Made among a) :
    Made among (.repeated low high greedy nullable a) := by
  unfold Builder.repeated
  split
  · split
    · exact (ha.plus greedy).optional greedy
    · exact ha.star greedy
  · exact ha.plus greedy
  · exact .seq (ha.copies _) (ha.plus greedy)
  · exact ha.upTo greedy _
  · split
    · exact ha.copies _
    · exact .seq (ha.copies _) (ha.upTo greedy _)

end Made

end Builder

theorem Ast.made_build (tree : Ast) {among : Nat → Prop} (h : ∀ g ∈ tree.groups, among g.1) :
    tree.build.Made among := by
  induction tree with
  | empty => exact .empty
  | set s => exact .set s
  | look l => exact .look l
  | seq a b iha ihb =>
    obtain ⟨ha, hb⟩ := List.forall_mem_append.1 h
    exact .seq (iha ha) (ihb hb)
  | alt a b iha ihb =>
    obtain ⟨ha, hb⟩ := List.forall_mem_append.1 h
    exact .choice (iha ha) (ihb hb)
  | scope a ih => exact ih h
  | group i name a ih =>
    obtain ⟨hi, ha⟩ := List.forall_mem_cons.1 h
    exact .group hi (ih ha)
  | repeated low high greedy a ih => exact (ih h).repeated low high greedy _

/-! Numbers -/

def Between (first next : Nat) (forks : List (List Node)) : Prop :=
  ∀ l ∈ forks, ∃ id, l.head?.bind Node.number? = some id ∧ first ≤ id ∧ id < next

section numbers
variable {forks forks' : List (List Node)} {first middle next : Nat}

theorem Between.mono (h : Between first next forks) {first' next' : Nat} (hfirst : first' ≤ first)
    (hnext : next ≤ next') : Between first' next' forks := fun l hl => by
  obtain ⟨id, hid, hle, hlt⟩ := h l hl
  exact ⟨id, hid, Nat.le_trans hfirst hle, Nat.lt_of_lt_of_le hlt hnext⟩

theorem Numbered.append (h : Numbered forks) (h' : Numbered forks')
    (hbefore : Between first middle forks) (hafter : Between middle next forks') :
    Numbered (forks ++ forks') := by
  have hapart {l l' : List Node} (hl : l ∈ forks) (hl' : l' ∈ forks') :
      l.head?.bind Node.number? ≠ l'.head?.bind Node.number? := by
    obtain ⟨id, hid, -, hlt⟩ := hbefore l hl
    obtain ⟨id', hid', hle, -⟩ := hafter l' hl'
    rw [hid, hid']
    exact fun heq => absurd (Option.some.inj heq) (by omega)
  intro l hl l' hl' heq
  rcases List.mem_append.1 hl with hl | hl <;> rcases List.mem_append.1 hl' with hl' | hl'
  · exact h l hl l' hl' heq
  · exact absurd heq (hapart hl hl')
  · exact absurd heq.symm (hapart hl' hl)
  · exact h' l hl l' hl' heq

theorem Numbered.of_subset (h : Numbered forks') (hsubset : forks ⊆ forks') : Numbered forks :=
  fun l hl l' hl' => h l (hsubset hl) l' (hsubset hl')

theorem Between.append (h : Between first next forks) (h' : Between first next forks') :
    Between first next (forks ++ forks') := List.forall_mem_append.2 ⟨h, h'⟩

theorem Between.begin {node : Node} (hnode : node.number? = some first) (hle : first < next)
    (h : Between (first + 1) next forks) (rest : List Node) :
    Between first next ((node :: rest) :: forks) :=
  List.forall_mem_cons.2
    ⟨⟨first, hnode, Nat.le_refl _, hle⟩, h.mono (Nat.le_succ _) (Nat.le_refl _)⟩

theorem Numbered.begin {node : Node} (hnode : node.number? = some first)
    (h : Numbered forks) (hafter : Between (first + 1) next forks) (rest : List Node) :
    Numbered ((node :: rest) :: forks) := by
  have hown : Numbered [node :: rest] := fun l hl l' hl' _ => by
    rw [List.mem_singleton.1 hl, List.mem_singleton.1 hl']
  have hfirst : Between first (first + 1) [node :: rest] :=
    .begin hnode (Nat.lt_succ_self _) (fun _ hl => absurd hl List.not_mem_nil) rest
  exact hown.append h hfirst hafter

end numbers

/-- A node whose choices and loops have each a number of their own. -/
structure Numbers (node : Node) (first next : Nat) : Prop where
  le : first ≤ next
  between : ∀ rest, Between first next (node.forks rest)
  numbered : ∀ rest, Numbered (node.forks rest)

theorem numbers_plain {node : Node} (h : ∀ rest, node.forks rest = []) (n : Nat) :
    Numbers node n n :=
  ⟨Nat.le_refl n, fun rest => by rw [h]; exact nofun, fun rest => by rw [h]; exact nofun⟩

namespace Numbers
variable {a b : Node} {n first middle next : Nat}

theorem seq (ha : Numbers a first middle) (hb : Numbers b middle next) :
    Numbers (.seq a b) first next where
  le := Nat.le_trans ha.le hb.le
  between _ := ((ha.between _).mono (Nat.le_refl _) hb.le).append
    ((hb.between _).mono ha.le (Nat.le_refl _))
  numbered _ := (ha.numbered _).append (hb.numbered _) (ha.between _) (hb.between _)

theorem alt (ha : Numbers a (n + 1) middle) (hb : Numbers b middle next) :
    Numbers (.alt n a b) n next where
  le := Nat.le_of_succ_le (ha.seq hb).le
  between rest := .begin rfl (ha.seq hb).le (((ha.between rest).mono (Nat.le_refl _) hb.le).append
    ((hb.between rest).mono ha.le (Nat.le_refl _))) rest
  numbered rest := .begin rfl ((ha.numbered rest).append (hb.numbered rest) (ha.between rest)
    (hb.between rest)) (((ha.between rest).mono (Nat.le_refl _) hb.le).append
    ((hb.between rest).mono ha.le (Nat.le_refl _))) rest

theorem loop (greedy : Bool) (ha : Numbers a (n + 1) next) : Numbers (.loop n greedy a) n next where
  le := Nat.le_of_succ_le ha.le
  between rest := .begin rfl ha.le (ha.between _) rest
  numbered rest := .begin rfl (ha.numbered _) (ha.between _) rest

theorem plus (greedy : Bool) (ha : Numbers a (n + 1) next) :
    Numbers (.seq a (.loop n greedy a)) n next := by
  have hsubset (rest : List Node) : (Node.seq a (.loop n greedy a)).forks rest ⊆
      (Node.loop n greedy a).forks rest := by
    refine List.append_subset.2 ⟨?_, List.Subset.refl _⟩
    exact List.subset_cons_self _ _
  exact ⟨(ha.loop greedy).le, fun rest l hl => (ha.loop greedy).between rest l (hsubset rest hl),
    fun rest => ((ha.loop greedy).numbered rest).of_subset (hsubset rest)⟩

end Numbers

theorem Builder.Made.numbers {among : Nat → Prop} {b : Builder} (h : b.Made among) (n : Nat) :
    Numbers (b n).1 n (b n).2 := by
  induction h generalizing n with
  | empty | set | look => exact numbers_plain (fun _ => rfl) n
  | seq _ _ iha ihb => exact (iha n).seq (ihb _)
  | choice _ _ iha ihb => exact (iha (n + 1)).alt (ihb _)
  | star greedy _ ih => exact (ih (n + 1)).loop greedy
  | plus greedy _ ih => exact (ih (n + 1)).plus greedy
  | group _ _ ih =>
    exact (numbers_plain (fun _ => rfl) n).seq ((ih n).seq (numbers_plain (fun _ => rfl) _))

theorem Ast.numbered_build (tree : Ast) (n : Nat) : Numbered ((tree.build n).1.forks []) := by
  have hmade : tree.build.Made fun _ => True := tree.made_build fun _ _ => trivial
  exact (hmade.numbers n).numbered []

/-! Ways -/

theorem Builder.Made.alike {among : Nat → Prop} {b : Builder} (h : b.Made among) (n m : Nat) :
    (b n).1.alike (b m).1 := by
  induction h generalizing n m with
  | empty => rfl
  | set s => exact beq_self_eq_true s
  | look l => exact beq_self_eq_true l
  | seq _ _ iha ihb => exact Bool.and_eq_true_iff.2 ⟨iha _ _, ihb _ _⟩
  | choice _ _ iha ihb => exact Bool.and_eq_true_iff.2 ⟨iha _ _, ihb _ _⟩
  | star greedy _ ih => exact ih _ _
  | plus greedy _ ih => exact Bool.and_eq_true_iff.2 ⟨ih _ _, ih _ _⟩
  | group _ _ ih => exact Bool.and_eq_true_iff.2 ⟨beq_self_eq_true _,
      Bool.and_eq_true_iff.2 ⟨ih _ _, beq_self_eq_true _⟩⟩

namespace Ast
variable {a b tree : Ast} {c c' c'' : Cursor} {σ σ' σ'' : Slots}

def Leads (tree : Ast) (c : Cursor) (σ : Slots) (c' : Cursor) (σ' : Slots) : Prop :=
  (tree.build 1).1.Leads c σ c' σ'

def Way (tree : Ast) (c c' : Cursor) : Prop := ∀ σ, ∃ σ', tree.Leads c σ c' σ'

theorem Leads.way (h : tree.Leads c σ c' σ') : tree.Way c c' := Node.Leads.way h

/-- It does not matter at which number the building starts. -/
theorem leads_build (n : Nat) : (tree.build n).1.Leads c σ c' σ' ↔ tree.Leads c σ c' σ' := by
  have hmade : tree.build.Made fun _ => True := tree.made_build fun _ _ => trivial
  exact ⟨fun h => h.of_alike (hmade.alike n 1), fun h => h.of_alike (hmade.alike 1 n)⟩

theorem leads_seq : (seq a b).Leads c σ c'' σ'' ↔
    ∃ c' σ', a.Leads c σ c' σ' ∧ b.Leads c' σ' c'' σ'' := by
  constructor
  · intro h
    cases h with
    | seq first second => exact ⟨_, _, first, (leads_build _).1 second⟩
  · rintro ⟨c', σ', first, second⟩
    exact .seq first ((leads_build _).2 second)

theorem leads_empty : empty.Leads c σ c' σ' ↔ c' = c ∧ σ' = σ := by
  constructor
  · intro h
    cases h
    exact ⟨rfl, rfl⟩
  · rintro ⟨rfl, rfl⟩
    exact .empty _ _

theorem leads_group {i : Nat} {name : Option (List Char)} : (group i name a).Leads c σ c' σ' ↔
    ∃ σ₁, a.Leads c (σ.set (2 * i) (some c.offset)) c' σ₁ ∧
      σ' = σ₁.set (2 * i + 1) (some c'.offset) := by
  constructor
  · intro h
    cases h with
    | seq first later =>
      cases first
      cases later with
      | seq own last =>
        cases last
        exact ⟨_, own, rfl⟩
  · rintro ⟨σ₁, own, rfl⟩
    exact .seq (.mark _ _ _) (.seq own (.mark _ _ _))

theorem leads_andThen : (a.andThen b).Leads c σ c'' σ'' ↔
    ∃ c' σ', a.Leads c σ c' σ' ∧ b.Leads c' σ' c'' σ'' := by
  fun_induction andThen a b generalizing c σ with
  | case1 b => simp [leads_empty]
  | case2 a rest b ih =>
    simp only [leads_seq, ih]
    constructor
    · rintro ⟨c₁, σ₁, first, c₂, σ₂, second, third⟩
      exact ⟨c₂, σ₂, ⟨c₁, σ₁, first, second⟩, third⟩
    · rintro ⟨c₂, σ₂, ⟨c₁, σ₁, first, second⟩, third⟩
      exact ⟨c₁, σ₁, first, c₂, σ₂, second, third⟩
  | case3 => simp [leads_empty]
  | case4 => exact leads_seq

end Ast

/-! Marks -/

/-- The marks of a group are as they were, or the group begins and ends on the way. -/
def MarksGroup (among : Nat → Prop) (i : Nat) (c : Cursor) (σ : Slots) (c' : Cursor) (σ' : Slots) :
    Prop :=
  (σ'[2 * i]? = σ[2 * i]? ∧ σ'[2 * i + 1]? = σ[2 * i + 1]?) ∨
    among i ∧ ∃ first last, σ'[2 * i]? = some (some first) ∧ σ'[2 * i + 1]? = some (some last) ∧
      c.offset ≤ first ∧ first ≤ last ∧ last ≤ c'.offset

section marks
variable {among : Nat → Prop} {i : Nat} {c c' c'' : Cursor} {σ σ' σ'' : Slots}

theorem MarksGroup.refl (among : Nat → Prop) (i : Nat) (c : Cursor) (σ : Slots) :
    MarksGroup among i c σ c σ := .inl ⟨rfl, rfl⟩

theorem MarksGroup.trans (h : MarksGroup among i c σ c' σ') (h' : MarksGroup among i c' σ' c'' σ'')
    (hle : c.offset ≤ c'.offset) (hle' : c'.offset ≤ c''.offset) :
    MarksGroup among i c σ c'' σ'' := by
  rcases h' with ⟨hfirst, hlast⟩ | ⟨hi, first, last, hfirst, hlast, hstart, horder, hstop⟩
  · rcases h with ⟨hfirst', hlast'⟩ | ⟨hi, first, last, hfirst', hlast', hstart, horder, hstop⟩
    · exact .inl ⟨hfirst.trans hfirst', hlast.trans hlast'⟩
    · exact .inr ⟨hi, first, last, hfirst.trans hfirst', hlast.trans hlast', hstart, horder,
        Nat.le_trans hstop hle'⟩
  · exact .inr ⟨hi, first, last, hfirst, hlast, Nat.le_trans hle hstart, horder, hstop⟩

def Node.MarksWhole (among : Nat → Prop) (i : Nat) (node : Node) : Prop :=
  ∀ ⦃c σ c' σ'⦄, node.Leads c σ c' σ' → 2 * i + 1 < σ.length → MarksGroup among i c σ c' σ'

namespace Node.MarksWhole
variable {a b : Node}

theorem seq (ha : a.MarksWhole among i) (hb : b.MarksWhole among i) :
    (Node.seq a b).MarksWhole among i := by
  intro c σ c' σ' h hi
  cases h with
  | seq first second =>
    exact (ha first hi).trans (hb second (first.length_eq.symm ▸ hi)) first.offset_le
      second.offset_le

theorem alt (id : Nat) (ha : a.MarksWhole among i) (hb : b.MarksWhole among i) :
    (Node.alt id a b).MarksWhole among i := by
  intro c σ c' σ' h hi
  cases h with
  | preferred h => exact ha h hi
  | other h => exact hb h hi

theorem loop (id : Nat) (greedy : Bool) (ha : a.MarksWhole among i) :
    (Node.loop id greedy a).MarksWhole among i := by
  intro c σ c' σ' h hi
  generalize hnode : Node.loop id greedy a = node at h
  induction h with
  | done => exact .refl among i _ _
  | again round later _ ih =>
    cases hnode
    exact (ha round hi).trans (ih (round.length_eq.symm ▸ hi) rfl) round.offset_le later.offset_le
  | empty | set | look | mark | seq | preferred | other => cases hnode

theorem group {j : Nat} (hj : among j) (ha : a.MarksWhole among i) :
    (Node.seq (.mark (2 * j)) (.seq a (.mark (2 * j + 1)))).MarksWhole among i := by
  intro c σ c' σ' h hi
  cases h with
  | seq first later =>
    cases first
    cases later with
    | seq own last =>
      have hown := ha own (by rwa [List.length_set])
      have hlength := own.length_eq
      have hle := own.offset_le
      cases last
      rw [List.length_set] at hlength
      by_cases hij : j = i
      · subst hij
        refine .inr ⟨hj, ?_⟩
        rw [List.getElem?_set_ne (by omega), List.getElem?_set_self (by omega)]
        rcases hown with ⟨hfirst, -⟩ | ⟨-, first, last, hfirst, -, hstart, horder, hstop⟩
        · rw [List.getElem?_set_self (by omega)] at hfirst
          exact ⟨_, _, hfirst, rfl, Nat.le_refl _, hle, Nat.le_refl _⟩
        · exact ⟨first, _, hfirst, rfl, hstart, Nat.le_trans horder hstop, Nat.le_refl _⟩
      · rw [MarksGroup, List.getElem?_set_ne (by omega), List.getElem?_set_ne (by omega)]
        rw [MarksGroup, List.getElem?_set_ne (by omega), List.getElem?_set_ne (by omega)] at hown
        exact hown

end Node.MarksWhole

theorem Builder.Made.marksWhole {b : Builder} (h : b.Made among) (i n : Nat) :
    (b n).1.MarksWhole among i := by
  induction h generalizing n with
  | empty =>
    rintro c σ c' σ' ⟨⟩ -
    exact .refl among i c σ
  | set =>
    rintro c σ c' σ' ⟨⟩ -
    exact .inl ⟨rfl, rfl⟩
  | look =>
    rintro c σ c' σ' ⟨⟩ -
    exact .refl among i c σ
  | seq _ _ iha ihb => exact .seq (iha _) (ihb _)
  | choice _ _ iha ihb => exact .alt _ (iha _) (ihb _)
  | star greedy _ ih => exact .loop _ greedy (ih _)
  | plus greedy _ ih => exact .seq (ih _) (.loop _ greedy (ih _))
  | group hj _ ih => exact .group hj (ih _)

theorem Ast.Leads.marks {tree : Ast} (h : tree.Leads c σ c' σ') (among : Nat → Prop)
    (hgroups : ∀ g ∈ tree.groups, among g.1) (hi : 2 * i + 1 < σ.length) :
    MarksGroup among i c σ c' σ' := (tree.made_build hgroups).marksWhole i 1 h hi

end marks

end RuleLexer.Regex
