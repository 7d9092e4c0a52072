import RuleLexer.Proofs.Smooth

/-! Stacks on which some states have their seats. One state is at the bottom of every stack and
nowhere else, some stand on one other state only, and some that are taken in by others are never
pushed. Where the rules that need not consume anything start from such places, each of them leads to
a state of higher rank, so only a few of them follow one another. -/
namespace RuleLexer
open RuleLexer.Text RuleLexer.Regex

structure Seating where
  bottom : String
  /-- The states that no stack has. -/
  others : List String
  /-- States, each with the one that it stands on. -/
  seats : List (String × String)
  apart : bottom ∉ others
  lifted : ∀ seat ∈ seats, seat.1 ≠ bottom

namespace Seating

def Allows (g : Seating) (below above : String) : Prop :=
  above ≠ g.bottom ∧ above ∉ g.others ∧ ∀ seat ∈ g.seats, seat.1 = above → seat.2 = below

instance (g : Seating) (below above : String) : Decidable (g.Allows below above) :=
  inferInstanceAs (Decidable (_ ∧ _))

/-- The names of the states on a stack, top first. -/
inductive Seats (g : Seating) : List String → Prop
  | bottom : Seats g [g.bottom]
  | push {above below : String} {names : List String} (h : Seats g (below :: names))
      (allowed : g.Allows below above) : Seats g (above :: below :: names)

namespace Seats
variable {g : Seating} {state : String} {names : List String}

theorem eq_nil (h : g.Seats (g.bottom :: names)) : names = [] := by
  cases h with
  | bottom => rfl
  | push _ allowed => exact absurd rfl allowed.1

theorem exists_seat (h : g.Seats (state :: names)) {seat : String}
    (hseat : (state, seat) ∈ g.seats) :
    ∃ rest, names = seat :: rest ∧ g.Seats (seat :: rest) := by
  cases h with
  | bottom => exact absurd rfl (g.lifted _ hseat)
  | push h allowed =>
    cases allowed.2.2 _ hseat rfl
    exact ⟨_, rfl, h⟩

theorem not_other (h : g.Seats (state :: names)) : state ∉ g.others := by
  cases h with
  | bottom => exact g.apart
  | push _ allowed => exact allowed.2.1

theorem tail {below : String} (h : g.Seats (state :: below :: names)) :
    g.Seats (below :: names) := by
  cases h with
  | push h _ => exact h

end Seats

/-- An operation of a rule in a state leaves the states in their seats. -/
def leads (g : Seating) (state : String) : Option (StackOp String) → Bool
  | none | some (.pop 1) => true
  | some (.push [next]) => decide (g.Allows state next)
  | some .pushCurrent => decide (g.Allows state state)
  | some (.replace [next]) => decide ((state, g.bottom) ∈ g.seats ∧ g.Allows g.bottom next)
  | some (.reset next) => next == g.bottom
  | _ => false

/-- It leads to a state of higher rank, and there is room for it. -/
def raises (g : Seating) (rank : String → Nat) (state : String) : Option (StackOp String) → Bool
  | some (.push [next]) => state == g.bottom && decide (rank state < rank next)
  | some (.pop 1) => g.seats.any fun seat => seat.1 == state && decide (rank state < rank seat.2)
  | some (.replace [next]) =>
      decide ((state, g.bottom) ∈ g.seats) && decide (rank state < rank next)
  | _ => false

/-! Operations -/

variable {g : Seating}

/-- The states on the stack are in their seats. -/
def Seated (g : Seating) (known : List String) (s : Stack) : Prop :=
  ∃ state below, s.Shaped known (state :: below) ∧ g.Seats (state :: below)

section operations
variable {known below : List String} {s : Stack} {state : String}
  (hshaped : s.Shaped known (state :: below)) (hseats : g.Seats (state :: below))
  {op? : Option (StackOp String)} {bound? : Option (StackOp StateId)}
  (hop : Option.Rel (StackOp.Rel (Named known)) op? bound?)
include hshaped hseats hop

theorem Seated.applied (hleads : g.leads state op?) : g.Seated known (s.applied bound?) := by
  have hpush : ∀ {next : String} {id : StateId}, Named known next id → g.Allows state next →
      g.Seated known (s.push id).1 := by
    intro next id hid hallowed
    rcases hshaped.push hid with ⟨hrefused, -⟩ | ⟨hpushed, -⟩
    · rw [hrefused]
      exact ⟨_, _, hshaped, hseats⟩
    · exact ⟨_, _, hpushed, .push hseats hallowed⟩
  unfold leads at hleads
  split at hleads
  · cases hop
    exact ⟨_, _, hshaped, hseats⟩
  · obtain rfl := StackOp.eq_pop hop
    cases below with
    | nil => exact ⟨_, _, hshaped.pop_bottom, hseats⟩
    | cons _ _ => exact ⟨_, _, hshaped.pop.1, hseats.tail⟩
  · obtain ⟨id, hid, rfl⟩ := StackOp.exists_push hop
    exact hpush hid (of_decide_eq_true hleads)
  · obtain rfl := StackOp.eq_pushCurrent hop
    exact hpush (List.forall₂_cons.1 hshaped).1 (of_decide_eq_true hleads)
  · obtain ⟨id, hid, rfl⟩ := StackOp.exists_replace hop
    obtain ⟨hseat, hallowed⟩ := of_decide_eq_true hleads
    obtain ⟨rest, rfl, hrest⟩ := hseats.exists_seat hseat
    cases hrest.eq_nil
    exact ⟨_, _, (hshaped.replace hid).1, .push .bottom hallowed⟩
  · obtain ⟨id, hid, rfl⟩ := StackOp.exists_reset hop
    cases eq_of_beq hleads
    exact ⟨_, _, Stack.shaped_reset hid s, .bottom⟩
  · cases hleads

theorem Seats.raised {rank : String → Nat} (hraises : g.raises rank state op?) :
    (s.applied bound?).generation ≠ s.generation ∧
      ∃ state' below', (s.applied bound?).Shaped known (state' :: below') ∧
        rank state < rank state' := by
  unfold raises at hraises
  split at hraises
  all_goals
    simp only [Bool.and_eq_true, decide_eq_true_eq, beq_iff_eq, List.any_eq_true,
      Bool.false_eq_true] at hraises
  · obtain ⟨rfl, hrank⟩ := hraises
    cases hseats.eq_nil
    obtain ⟨id, hid, rfl⟩ := StackOp.exists_push hop
    obtain ⟨hpushed, hchanged⟩ := (hshaped.push hid).resolve_left fun hfull =>
      absurd hfull.2 (show ¬Stack.maxDepth ≤ 1 by decide)
    exact ⟨hchanged, _, _, hpushed, hrank⟩
  · obtain ⟨seat, hseat, rfl, hrank⟩ := hraises
    obtain ⟨rest, rfl, -⟩ := hseats.exists_seat hseat
    obtain rfl := StackOp.eq_pop hop
    exact ⟨hshaped.pop.2, _, _, hshaped.pop.1, hrank⟩
  · obtain ⟨hseat, hrank⟩ := hraises
    obtain ⟨rest, rfl, hrest⟩ := hseats.exists_seat hseat
    cases hrest.eq_nil
    obtain ⟨id, hid, rfl⟩ := StackOp.exists_replace hop
    obtain ⟨hreplaced, hchanged⟩ := hshaped.replace hid
    exact ⟨hchanged, _, _, hreplaced, hrank⟩

end operations

/-! Runs -/

/-- The rules of a lexer keep the states in their seats, and those that take nothing raise the rank,
which may depend on what stands ahead. -/
structure Governs (g : Seating) (l : Lexer) (rank : Cursor → String → Nat) : Prop where
  few : ∀ place state, rank place state < maxZeroSteps
  root : Named l.table.names g.bottom l.table.root
  wins : ∀ {r : Run} {rule : CompiledRule} {found : Match} {state : String} {below : List String},
    r.lexer = l → r.stack.Shaped l.table.names (state :: below) → g.Seats (state :: below) →
      r.winner? = some (rule, found) → (∀ f, rule.action ≠ .callback f) ∧
        ∃ op?, Option.Rel (StackOp.Rel (Named l.table.names)) op? rule.op? ∧ g.leads state op? ∧
          (r.cursor.upTo found.stop ≠ [] ∨ g.raises (rank r.cursor) state op?)

theorem Governs.climbs {l : Lexer} {rank : Cursor → String → Nat} (h : g.Governs l rank) :
    l.Climbs (g.Seated l.table.names)
      fun s place => rank place (l.table.names[s.top]?.getD g.bottom) where
  few _ _ := h.few _ _
  root s := ⟨_, _, Stack.shaped_reset h.root s, .bottom⟩
  keeps := by
    intro r rule found hlexer ⟨state, below, hshaped, hseats⟩ hwinner
    obtain ⟨hplain, op?, hop, hleads, -⟩ := h.wins hlexer hshaped hseats hwinner
    rw [r.stack_follow _ rule found hplain]
    exact Seated.applied hshaped hseats hop hleads
  rises := by
    intro r rule found hlexer ⟨state, below, hshaped, hseats⟩ hwinner followed
    obtain ⟨hplain, op?, hop, -, hprogress⟩ := h.wins hlexer hshaped hseats hwinner
    refine hprogress.imp (fun hpiece => Run.offset_lt_follow hwinner hplain hpiece _) fun hraises => ?_
    obtain ⟨hchanged, state', below', hshaped', hrank⟩ := Seats.raised hshaped hseats hop hraises
    have hstack : followed.1.stack = r.stack.applied rule.op? := r.stack_follow _ rule found hplain
    have htop := (List.forall₂_cons.1 hshaped).1.getElem?
    have htop' := (List.forall₂_cons.1 hshaped').1.getElem?
    rw [hstack]
    refine ⟨hchanged, ?_⟩
    rwa [htop, htop', Option.getD_some, Option.getD_some]

theorem seated_start {known states : List String} {ids : List StateId}
    (hnamed : List.Forall₂ (Named known) states ids) (hne : ids ≠ [])
    (hfits : states.length ≤ Stack.maxDepth) (hseats : g.Seats states.reverse)
    (fallback : StateId) : g.Seated known (Stack.start ids fallback) := by
  have hshaped := Stack.shaped_start hnamed hne hfits fallback
  generalize states.reverse = names at hseats hshaped
  cases hseats with
  | bottom => exact ⟨_, _, hshaped, .bottom⟩
  | push h allowed => exact ⟨_, _, hshaped, .push h allowed⟩

end Seating

/-! Tables -/

namespace TableDraft
variable {d : TableDraft} {tops : String → List String}

/-- The states on top of which the rules of a state can be tried. -/
def Carries (d : TableDraft) (tops : String → List String) : Prop :=
  ∀ state ∈ d.states, state.1 ∈ tops state.1 ∧
    ∀ name ∈ state.2.filterMap Entry.included?, ∀ owner ∈ d.names,
      name ∈ tops owner → state.1 ∈ tops owner

instance (d : TableDraft) (tops : String → List String) : Decidable (d.Carries tops) :=
  inferInstanceAs (Decidable (∀ state ∈ d.states, state.1 ∈ tops state.1 ∧
    ∀ name ∈ state.2.filterMap Entry.included?, ∀ owner ∈ d.names,
      name ∈ tops owner → state.1 ∈ tops owner))

theorem Carries.mem_tops (h : d.Carries tops) {state owner : String}
    (howner : Relation.ReflTransGen d.Includes state owner) (hmem : owner ∈ d.names) :
    state ∈ tops owner := by
  induction howner using Relation.ReflTransGen.head_induction_on with
  | refl =>
    obtain ⟨entry, hentry, rfl⟩ := List.mem_map.1 hmem
    exact (h entry hentry).1
  | head hincludes _ ih =>
    obtain ⟨entries, hstate, he⟩ := hincludes
    exact (h _ hstate).2 _ (List.mem_filterMap.2 ⟨_, he, rfl⟩) owner hmem ih

theorem Surveyed.exists_top {check : String → Rule Delegate → Node → Node → Bool}
    (h : d.Surveyed check) (hcarries : d.Carries tops) {t : Table} (htable : d.compile = .ok t)
    {r : Run} (hr : r.table = t) {state : String} (hstate : Named d.names state r.stack.top)
    {rule : CompiledRule} {found : Match} (hwinner : r.winner? = some (rule, found)) :
    ∃ owner q body after, state ∈ tops owner ∧ q.Binds d.flags d.names rule ∧
      check owner q body after ∧ found.Leads r.cursor body after := by
  have hrule := (Run.firstMatch_some hwinner).1
  rw [hr] at hrule
  obtain ⟨owner, q, howner, ⟨_, hmem, he⟩, hbinds, hshows⟩ := h.exists_rule htable hstate hrule
  obtain ⟨body, after, hcheck, hleads⟩ := hbinds.leads hshows (Run.matchAt_of_firstMatch hwinner)
  exact ⟨owner, q, body, after, hcarries.mem_tops howner (List.mem_map.2 ⟨_, hmem, rfl⟩), hbinds,
    hcheck, hleads⟩

theorem Surveyed.governs {check : String → Rule Delegate → Node → Node → Bool}
    (h : d.Surveyed check) (hcarries : d.Carries tops) (hcallbacks : d.callbacks = []) {t : Table}
    (htable : d.compile = .ok t) {l : Lexer} (hl : l.table = t) {g : Seating}
    (hbottom : g.bottom = d.root) {rank : Cursor → String → Nat}
    (few : ∀ place state, rank place state < maxZeroSteps)
    (rules : ∀ {r : Run} {rule : CompiledRule} {found : Match} {state owner : String}
      {q : Rule Delegate} {body after : Node}, r.table = t →
        r.winner? = some (rule, found) → Named d.names state r.stack.top → state ∉ g.others →
        state ∈ tops owner → q.Binds d.flags d.names rule → check owner q body after →
        found.Leads r.cursor body after → g.leads state q.op? ∧
          (r.cursor.upTo found.stop ≠ [] ∨ g.raises (rank r.cursor) state q.op?)) :
    g.Governs l rank where
  few := few
  root := by
    rw [hl, hbottom]
    exact named_root htable
  wins := by
    intro r rule found state below hlexer hshaped hseats hwinner
    have hr : r.table = t := by rw [Run.table, hlexer, hl]
    rw [hl, names_of_compile_ok htable] at hshaped ⊢
    have hstate := (List.forall₂_cons.1 hshaped).1
    obtain ⟨owner, q, body, after, htop, hbinds, hcheck, hleads⟩ :=
      h.exists_top hcarries htable hr hstate hwinner
    exact ⟨plain_of_callbacks hcallbacks htable hr hwinner, q.op?, hbinds.op,
      rules hr hwinner hstate hseats.not_other htop hbinds hcheck hleads⟩

end TableDraft

end RuleLexer
