import Mathlib.Data.List.Chain
import Mathlib.Data.List.Nodup
import Mathlib.Data.List.Perm.Subperm
import Mathlib.Logic.Relation
import RuleLexer.Table.Compile

/-! States that take in one another, by their places in a table. Each state is expanded once and
its rules are remembered, so what counts is what is remembered: the rules of a state that is done
are those that stand in its slots, with the rules of each state taken in written in its place. The
expansion of a table fails only along a cycle, and a table with a cycle has no expansion. -/
namespace RuleLexer

/-- The path leads back to where it starts, and passes nothing else twice. -/
def IsCycle {α : Type} (r : α → α → Prop) (path : List α) : Prop :=
  ∃ first rest, path = first :: rest ++ [first] ∧ (first :: rest).Nodup ∧ path.IsChain r

theorem IsCycle.transGen {α : Type} {r : α → α → Prop} {path : List α} (h : IsCycle r path) :
    ∃ a, Relation.TransGen r a a := by
  obtain ⟨first, rest, rfl, -, hchain⟩ := h
  cases rest with
  | nil =>
    have hstep : r first first := by simpa using hchain
    exact ⟨first, .single hstep⟩
  | cons next rest =>
    rw [List.cons_append, List.cons_append, List.isChain_cons_cons] at hchain
    have hback : Relation.ReflTransGen r next first :=
      List.relationReflTransGen_of_exists_isChain_cons _ hchain.2 (by simp)
    exact ⟨first, .head' hchain.1 hback⟩

theorem not_transGen_of_acc {α : Type} {r : α → α → Prop} {a : α}
    (h : Acc (fun b a => r a b) a) : ¬Relation.TransGen r a a := by
  induction h with
  | intro a _ ih =>
    intro hround
    obtain ⟨b, hab, hba⟩ := Relation.TransGen.head'_iff.1 hround
    exact ih b hab (.tail' hba hab)

namespace TableDraft
variable {names : List String} {slots : List (List Slot)}

def Takes (slots : List (List Slot)) (state other : StateId) : Prop :=
  ∃ place, slots[state]? = some place ∧ .includes other ∈ place

/-- Every state that is taken in has slots of its own. -/
def Linked (slots : List (List Slot)) : Prop :=
  ∀ state other, Takes slots state other → other < slots.length

/-- Slots with the rules of each state that they take in written in its place. -/
inductive Spliced (slots : List (List Slot)) : List Slot → List CompiledRule → Prop
  | nil : Spliced slots [] []
  | rule {r : CompiledRule} {rest : List Slot} {rules : List CompiledRule}
      (later : Spliced slots rest rules) : Spliced slots (.rule r :: rest) (r :: rules)
  | includes {state : StateId} {place rest : List Slot} {taken rules : List CompiledRule}
      (found : slots[state]? = some place) (within : Spliced slots place taken)
      (later : Spliced slots rest rules) :
      Spliced slots (.includes state :: rest) (taken ++ rules)

namespace Spliced
variable {place : List Slot} {rules : List CompiledRule}

/-- However states take in one another, each rule stands in the slots of one of them. -/
theorem mem (h : Spliced slots place rules) {rule : CompiledRule} (hrule : rule ∈ rules) :
    .rule rule ∈ place ∨ ∃ other ∈ slots, .rule rule ∈ other := by
  induction h with
  | nil => simp at hrule
  | rule _ ih =>
    rcases List.mem_cons.1 hrule with rfl | hrule
    · exact .inl List.mem_cons_self
    · exact (ih hrule).imp_left (List.mem_cons_of_mem _)
  | includes found _ _ ihwithin ihlater =>
    rcases List.mem_append.1 hrule with hrule | hrule
    · rcases ihwithin hrule with hplace | hother
      · exact .inr ⟨_, List.mem_of_getElem? found, hplace⟩
      · exact .inr hother
    · exact (ihlater hrule).imp_left (List.mem_cons_of_mem _)

theorem acc (h : Spliced slots place rules) :
    ∀ other, .includes other ∈ place → Acc (fun b a => Takes slots a b) other := by
  induction h with
  | nil => simp
  | rule _ ih => exact fun other hother => ih other (by simpa using hother)
  | includes found _ _ ihwithin ihlater =>
    intro other hother
    rcases List.mem_cons.1 hother with heq | hother
    · cases heq
      refine .intro _ fun b hb => ?_
      obtain ⟨place, hplace, hmem⟩ := hb
      rw [found] at hplace
      cases hplace
      exact ihwithin b hmem
    · exact ihlater other hother

theorem unique (h : Spliced slots place rules) {others : List CompiledRule}
    (hothers : Spliced slots place others) : others = rules := by
  induction h generalizing others with
  | nil =>
    cases hothers
    rfl
  | rule _ ih =>
    cases hothers with
    | rule later => rw [ih later]
  | includes found _ _ ihwithin ihlater =>
    cases hothers with
    | includes found' within later =>
      rw [found] at found'
      cases found'
      rw [ihwithin within, ihlater later]

theorem of_rules (slots : List (List Slot)) (rules : List CompiledRule) :
    Spliced slots (rules.map .rule) rules := by
  induction rules with
  | nil => exact .nil
  | cons r rules ih => exact .rule ih

end Spliced

theorem not_transGen_of_spliced
    (h : ∀ (state : StateId) place, slots[state]? = some place → ∃ rules, Spliced slots place rules)
    (state : StateId) : ¬Relation.TransGen (Takes slots) state state := by
  intro hround
  obtain ⟨other, htakes, -⟩ := Relation.TransGen.head'_iff.1 hround
  obtain ⟨place, hplace, -⟩ := htakes
  obtain ⟨rules, hrules⟩ := h state place hplace
  refine not_transGen_of_acc (.intro state fun b hb => ?_) hround
  obtain ⟨_, hsame, hmem⟩ := hb
  rw [hplace] at hsame
  cases hsame
  exact hrules.acc b hmem

/-- An expansion ends in a result, or it finds states that take in one another. -/
def Ends {α : Type} (names : List String) (slots : List (List Slot)) (P : α → Prop) :
    Except TableError α → Prop
  | .ok a => P a
  | .error e => ∃ path, IsCycle (Takes slots) path ∧
      e = .includeCycle (path.filterMap (names[·]?))

section ends
variable {α β : Type} {P : α → Prop} {Q : β → Prop}

theorem Ends.bind {x : Except TableError α} {f : α → Except TableError β}
    (h : Ends names slots P x) (hf : ∀ a, P a → Ends names slots Q (f a)) :
    Ends names slots Q (x >>= f) := by
  cases x with
  | ok a => exact hf a h
  | error e => exact h

end ends

namespace Expanded

/-- What is remembered of a state is its expansion. -/
structure Sound (slots : List (List Slot)) (done : Expanded) : Prop where
  length : done.length = slots.length
  spliced : ∀ {state : StateId} {place rules}, slots[state]? = some place →
    done.rules? state = some rules → Spliced slots place rules

def Keeps (done done' : Expanded) : Prop :=
  ∀ {state : StateId} {rules}, done.rules? state = some rules → done'.rules? state = some rules

variable {done done' : Expanded} {state : StateId} {place : List Slot}
  {rules : List CompiledRule}

theorem rules?_set_self (h : state < done.length) :
    Expanded.rules? (done.set state (some rules)) state = some rules := by
  simp [Expanded.rules?, h]

theorem rules?_set_ne {other : StateId} (h : state ≠ other) :
    Expanded.rules? (done.set state (some rules)) other = done.rules? other := by
  simp [Expanded.rules?, h]

theorem rules?_replicate (count : Nat) (state : StateId) :
    Expanded.rules? (List.replicate count none) state = none := by
  by_cases h : state < count <;> simp [Expanded.rules?, h]

theorem Sound.replicate (slots : List (List Slot)) :
    Sound slots (List.replicate slots.length none) := by
  refine ⟨by simp, fun _ hrules => ?_⟩
  rw [rules?_replicate] at hrules
  cases hrules

theorem Sound.set (h : Sound slots done) (hplace : slots[state]? = some place)
    (hspliced : Spliced slots place rules) : Sound slots (done.set state (some rules)) := by
  have hstate : state < done.length := by
    rw [h.length]
    exact (List.getElem?_eq_some_iff.1 hplace).1
  refine ⟨by simp [h.length], fun {other} otherPlace otherRules hother hrules => ?_⟩
  by_cases hsame : state = other
  · subst hsame
    rw [rules?_set_self hstate] at hrules
    rw [hplace] at hother
    cases hrules
    cases hother
    exact hspliced
  · rw [rules?_set_ne hsame] at hrules
    exact h.spliced hother hrules

theorem Keeps.set (h : Keeps done done') (hnew : done.rules? state = none) :
    Keeps done (done'.set state (some rules)) := by
  intro other otherRules hother
  have hne : state ≠ other := by
    rintro rfl
    rw [hnew] at hother
    cases hother
  rw [rules?_set_ne hne]
  exact h hother

end Expanded

/-- A visit of a state expands it, and forgets nothing. -/
def Visits (names : List String) (slots : List (List Slot))
    (visit : StateId → Expanded → Except TableError Expanded) (state : StateId) : Prop :=
  ∀ done : Expanded, done.Sound slots → Ends names slots (fun done' : Expanded =>
    done'.Sound slots ∧ done.Keeps done' ∧ ∃ rules, done'.rules? state = some rules)
      (visit state done)

theorem ends_splice {visit : StateId → Expanded → Except TableError Expanded} {place : List Slot}
    (hlinked : ∀ other, .includes other ∈ place → other < slots.length)
    (hvisit : ∀ other, .includes other ∈ place → Visits names slots visit other)
    {done : Expanded} (hdone : done.Sound slots) :
    Ends names slots (fun result : List CompiledRule × Expanded =>
        Spliced slots place result.1 ∧ result.2.Sound slots ∧ done.Keeps result.2)
      (splice visit place done) := by
  induction place generalizing done with
  | nil => exact ⟨.nil, hdone, id⟩
  | cons slot rest ih =>
    have hrest {done : Expanded} (hdone : done.Sound slots) :=
      ih (fun other h => hlinked other (List.mem_cons_of_mem _ h))
        (fun other h => hvisit other (List.mem_cons_of_mem _ h)) hdone
    cases slot with
    | rule r =>
      refine (hrest hdone).bind fun result hresult => ?_
      obtain ⟨hspliced, hsound, hkeeps⟩ := hresult
      exact ⟨.rule hspliced, hsound, hkeeps⟩
    | includes other =>
      refine (hvisit other List.mem_cons_self done hdone).bind fun done' hdone' => ?_
      obtain ⟨hsound, hkeeps, taken, htaken⟩ := hdone'
      refine (hrest hsound).bind fun result hresult => ?_
      obtain ⟨hspliced, hsound', hkeeps'⟩ := hresult
      have hplace := List.getElem?_eq_getElem (hlinked other List.mem_cons_self)
      refine ⟨?_, hsound', fun h => hkeeps' (hkeeps h)⟩
      rw [htaken]
      exact .includes hplace (hsound.spliced hplace htaken) hspliced

/-- Different states in a row, each taken in by the one behind it. -/
structure Trail (slots : List (List Slot)) (visiting : List StateId) (state : StateId) :
    Prop where
  nodup : visiting.Nodup
  inside : ∀ other ∈ state :: visiting, other < slots.length
  chain : (state :: visiting).IsChain fun a b => Takes slots b a

namespace Trail
variable {visiting : List StateId} {state : StateId}

theorem start (h : state < slots.length) : Trail slots [] state :=
  ⟨List.nodup_nil, by simpa using h, .singleton state⟩

theorem step (h : Trail slots visiting state) (hnew : state ∉ visiting) {other : StateId}
    (hother : Takes slots state other) (hinside : other < slots.length) :
    Trail slots (state :: visiting) other where
  nodup := List.nodup_cons.2 ⟨hnew, h.nodup⟩
  inside := List.forall_mem_cons.2 ⟨hinside, h.inside⟩
  chain := List.isChain_cons_cons.2 ⟨hother, h.chain⟩

theorem length_le (h : Trail slots visiting state) : visiting.length ≤ slots.length := by
  have hsub : visiting ⊆ List.range slots.length := fun other hother =>
    List.mem_range.2 (h.inside other (List.mem_cons_of_mem _ hother))
  simpa using (h.nodup.subperm hsub).length_le

theorem isCycle (h : Trail slots visiting state) (hmem : state ∈ visiting) :
    IsCycle (Takes slots)
      (state :: (visiting.takeWhile (· != state)).reverse ++ [state]) := by
  obtain ⟨front, behind, rfl, hfront⟩ := List.eq_append_cons_of_mem hmem
  have htake : (front ++ state :: behind).takeWhile (· != state) = front := by
    have hall : ∀ other ∈ front, (other != state) = true := by
      intro other hother
      simpa using fun heq : other = state => hfront (heq ▸ hother)
    rw [List.takeWhile_append_of_pos hall]
    simp
  rw [htake]
  refine ⟨state, front.reverse, rfl, ?_, ?_⟩
  · have hnodup := (List.nodup_append.1 h.nodup).1
    exact List.nodup_cons.2 ⟨by simpa using hfront, List.nodup_reverse.2 hnodup⟩
  · have hchain := h.chain
    have hwhole : state :: (front ++ state :: behind) = (state :: front ++ [state]) ++ behind := by
      simp
    rw [hwhole] at hchain
    have hround := List.isChain_reverse.2 hchain.left_of_append
    simpa using hround

end Trail

theorem ends_expand (hlinked : Linked slots) {levels : Nat} {visiting : List StateId}
    {state : StateId} (htrail : Trail slots visiting state)
    (hlevels : slots.length < levels + visiting.length) :
    Visits names slots (expand names slots levels visiting) state := by
  intro done hdone
  induction levels generalizing visiting state done with
  | zero =>
    have := htrail.length_le
    omega
  | succ levels ih =>
    rw [expand]
    split
    · next hsome => exact ⟨hdone, id, Option.isSome_iff_exists.1 hsome⟩
    · next hnone =>
      have hnone : done.rules? state = none := by simpa using hnone
      split
      · next hopen =>
        have hmem : state ∈ visiting := by simpa using hopen
        exact ⟨_, htrail.isCycle hmem, rfl⟩
      · next hclosed =>
        have hnew : state ∉ visiting := by simpa using hclosed
        have hstate : state < slots.length := htrail.inside state List.mem_cons_self
        have hplace := List.getElem?_eq_getElem hstate
        have htakes : ∀ other, .includes other ∈ slots[state] → Takes slots state other :=
          fun other h => ⟨_, hplace, h⟩
        -- what the state takes in lies one step further on the trail, one level down
        have hvisit : ∀ other, .includes other ∈ slots[state] →
            Visits names slots (expand names slots levels (state :: visiting)) other := by
          intro other hother done hdone
          have hinside := hlinked state other (htakes other hother)
          have hstep := htrail.step hnew (htakes other hother) hinside
          exact ih hstep (by simp; omega) done hdone
        have hsplice :=
          ends_splice (fun other h => hlinked state other (htakes other h)) hvisit hdone
        rw [hplace, Option.getD_some]
        refine hsplice.bind fun result hresult => ?_
        obtain ⟨hspliced, hsound, hkeeps⟩ := hresult
        have hlength : state < result.2.length := by rwa [hsound.length]
        exact ⟨hsound.set hplace hspliced, hkeeps.set hnone, _, Expanded.rules?_set_self hlength⟩

theorem ends_foldlM (hlinked : Linked slots) {levels : Nat} (hlevels : slots.length < levels)
    {states : List StateId} (hstates : ∀ state ∈ states, state < slots.length) {done : Expanded}
    (hdone : done.Sound slots) :
    Ends names slots (fun done' : Expanded => done'.Sound slots ∧ done.Keeps done' ∧
        ∀ state ∈ states, ∃ rules, done'.rules? state = some rules)
      (states.foldlM (fun done state => expand names slots levels [] state done) done) := by
  induction states generalizing done with
  | nil => exact ⟨hdone, id, by simp⟩
  | cons state states ih =>
    obtain ⟨hstate, hstates⟩ := List.forall_mem_cons.1 hstates
    rw [List.foldlM_cons]
    refine (ends_expand hlinked (.start hstate) (by simpa using hlevels) done hdone).bind
      fun done' hdone' => ?_
    obtain ⟨hsound, hkeeps, rules, hrules⟩ := hdone'
    have hlater := ih hstates hsound
    cases hresult : states.foldlM (fun done state => expand names slots levels [] state done)
        done' with
    | error e =>
      rw [hresult] at hlater
      exact hlater
    | ok last =>
      rw [hresult] at hlater
      obtain ⟨hsound', hkeeps', hall⟩ := hlater
      exact ⟨hsound', fun h => hkeeps' (hkeeps h),
        List.forall_mem_cons.2 ⟨⟨rules, hkeeps' hrules⟩, hall⟩⟩

/-- All states are expanded, or some take in one another. -/
theorem ends_expandAll (hlinked : Linked slots) (hnames : names.length = slots.length) :
    Ends names slots (List.Forall₂ (Spliced slots) slots) (expandAll names slots) := by
  rw [expandAll, hnames]
  have hstates : ∀ state ∈ List.range slots.length, state < slots.length := by simp
  refine (ends_foldlM hlinked (by simp [levels, hnames]) hstates (.replicate slots)).bind
    fun done hdone => ?_
  obtain ⟨hsound, -, hall⟩ := hdone
  refine List.forall₂_iff_get.2 ⟨by simp [hsound.length], fun i hi hi' => ?_⟩
  obtain ⟨rules, hrules⟩ := hall i (by simpa using hi)
  have hplace := List.getElem?_eq_getElem hi
  have hspliced := hsound.spliced hplace hrules
  have hlast : i < done.length := by rwa [hsound.length]
  have hdone : done[i] = some rules := by
    simpa [Expanded.rules?, hlast] using hrules
  simpa [hdone] using hspliced

theorem expandAll_rules {rules : List (List CompiledRule)} (hnames : names.length = rules.length) :
    expandAll names (rules.map fun own => own.map .rule) = .ok rules := by
  let slots : List (List Slot) := rules.map fun own => own.map .rule
  have hlength : names.length = slots.length := by simpa [slots] using hnames
  have hnone : ∀ state other, ¬Takes slots state other := by
    rintro state other ⟨place, hplace, hother⟩
    obtain ⟨own, -, rfl⟩ := List.mem_map.1 (List.mem_of_getElem? hplace)
    simp at hother
  have hends := ends_expandAll (fun state other h => absurd h (hnone state other)) hlength
  show expandAll names slots = .ok rules
  cases hexpand : expandAll names slots with
  | error e =>
    rw [hexpand] at hends
    obtain ⟨path, hcycle, -⟩ := hends
    obtain ⟨state, hround⟩ := hcycle.transGen
    obtain ⟨other, htakes, -⟩ := Relation.TransGen.head'_iff.1 hround
    exact absurd htakes (hnone state other)
  | ok others =>
    rw [hexpand] at hends
    have hall : List.Forall₂ (Spliced slots) slots others := hends
    have hothers : List.Forall₂ (fun own other => other = own) rules others :=
      (List.forall₂_map_left_iff.1 hall).imp fun own _ h => (Spliced.of_rules slots own).unique h
    have hsame : List.Forall₂ (· = ·) rules others := hothers.imp fun _ _ h => h.symm
    rw [List.forall₂_eq_eq_eq] at hsame
    rw [hsame]

end TableDraft

end RuleLexer
