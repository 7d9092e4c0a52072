import RuleLexer.Proofs.BoundedStacks
import RuleLexer.Proofs.Resuming
import RuleLexer.Proofs.StackContents
import RuleLexer.Proofs.Stalling

/-! Runs of which no step stalls. Steps that stay where they are climb: each of them raises a rank
that is lower than the number of steps that may stay. Where every rule consumes something there is
nothing to climb, and where the rules that need not do so take states off a small stack, the rank is
the room above it. -/
namespace RuleLexer
open RuleLexer.Text RuleLexer.Regex

/-- No step of the run stalls, nor one of a run within it. -/
def Run.Smooth (r : Run) : Prop :=
  ∀ inner turns reason, r.Within inner → ¬(Point.after turns inner).Stalls reason

/-- However deep they are, the runs of a lexer from the states that it starts in are smooth. -/
def Lexer.Smooth (l : Lexer) : Prop := ∀ text depth, (Run.start l l.initial text depth).Smooth

theorem Lexer.smooth_of_quiet {l : Lexer}
    (hquiet : ∀ rules ∈ l.table.rules, ∀ rule ∈ rules, ∀ target, ¬rule.action.HandsTo target)
    (h : ∀ text depth turns reason,
      ¬(Point.after turns (Run.start l l.initial text depth)).Stalls reason) : l.Smooth := by
  intro text depth inner turns reason hwithin
  rw [Run.eq_of_within hquiet hwithin]
  exact h text depth turns reason

/-! Climbing -/

/-- The stacks of a run keep to `P`, and a rule that wins moves on or raises the rank. -/
structure Lexer.Climbs (l : Lexer) (P : Stack → Prop) (rank : Stack → Cursor → Nat) : Prop where
  few : ∀ s place, rank s place < maxZeroSteps
  root : ∀ s : Stack, P (s.reset l.table.root)
  keeps : ∀ {r : Run} {rule : CompiledRule} {found : Match}, r.lexer = l → P r.stack →
    r.winner? = some (rule, found) → P (r.follow (Run.runner? r.levels) rule found).1.stack
  rises : ∀ {r : Run} {rule : CompiledRule} {found : Match}, r.lexer = l → P r.stack →
    r.winner? = some (rule, found) →
      let followed := r.follow (Run.runner? r.levels) rule found
      r.position < followed.2.offset ∨ followed.1.stack.generation ≠ r.stack.generation ∧
        rank r.stack r.cursor < rank followed.1.stack r.cursor

namespace Lexer.Climbs
variable {l : Lexer} {P : Stack → Prop} {rank : Stack → Cursor → Nat} (h : l.Climbs P rank)
include h

theorem scan {r : Run} (hlexer : r.lexer = l) (hstack : P r.stack)
    (hfew : r.zeroSteps ≤ rank r.stack r.cursor) (hend : r.cursor.ahead ≠ []) :
    (∀ reason, ¬r.Stalls reason) ∧ P r.scan.stack ∧
      r.scan.zeroSteps ≤ rank r.scan.stack r.scan.cursor := by
  have hkept : P r.scan.stack := Run.stack_scan_induction hstack
    (fun s => by rw [Run.table, hlexer]; exact h.root s) fun _ _ => h.keeps hlexer hstack
  cases hwinner : r.winner? with
  | none =>
    obtain ⟨c, rest, hahead⟩ := List.exists_cons_of_ne_nil hend
    have hscan : r.scan = r.fallback := by rw [Run.scan, Run.step_eq, hwinner]
    refine ⟨fun reason hstalls => ?_, hkept, ?_⟩
    · obtain ⟨_, _, hsome, -⟩ := hstalls
      rw [hwinner] at hsome
      cases hsome
    · rw [hscan, Run.fallback_eq hahead]
      exact Nat.zero_le _
  | some winner =>
    obtain ⟨rule, found⟩ := winner
    have hfollowed := (Run.firstMatch_some hwinner).2
    obtain ⟨piece, hpasses, -⟩ :=
      Run.emits_follow (Run.runner?_covering r.levels) r rule hfollowed
    have hrises := h.rises hlexer hstack hwinner
    have hprogress : piece ≠ [] ∨
        (r.follow (Run.runner? r.levels) rule found).1.stack.generation ≠ r.stack.generation := by
      refine hrises.imp (fun hmoves => ?_) And.left
      rintro rfl
      rw [hpasses.eq_of_nil] at hmoves
      exact Nat.lt_irrefl _ hmoves
    have ha := Run.accepts_of_progress hwinner (Nat.lt_of_le_of_lt hfew (h.few _ _)) hpasses
      hprogress
    refine ⟨ha.smooth, hkept, ?_⟩
    rw [ha.zeroSteps, ha.stack]
    split
    · next hpiece =>
      subst hpiece
      rw [ha.passes.eq_of_nil]
      refine Nat.succ_le_of_lt (Nat.lt_of_le_of_lt hfew (hrises.resolve_left ?_).2)
      rw [hpasses.eq_of_nil]
      exact Nat.lt_irrefl _
    · exact Nat.zero_le _

theorem not_stalls {states : List StateId} (hstart : P (Stack.start states l.table.root))
    (text : List Char) (depth turns : Nat) (reason : NoProgress) :
    ¬(Point.after turns (Run.start l states text depth)).Stalls reason := by
  obtain ⟨hlexer, hstack, hfew⟩ := Point.after_induction (r := Run.start l states text depth)
    (P := fun r => r.lexer = l ∧ P r.stack ∧ r.zeroSteps ≤ rank r.stack r.cursor)
    ⟨rfl, hstart, Nat.zero_le _⟩ (fun _ _ hr => hr)
    (fun r _ hend ⟨hlexer, hstack, hfew⟩ =>
      have ⟨_, hstep⟩ := Run.steps_scan hend
      ⟨hstep.lexer.trans hlexer, (h.scan hlexer hstack hfew hend).2⟩) turns
  exact fun hstalls => (h.scan hlexer hstack hfew hstalls.ahead).1 reason hstalls.refused

theorem smooth {others : List Lexer} (hands : ∀ rules ∈ l.table.rules, ∀ rule ∈ rules,
      ∀ target, rule.action.HandsTo target → target.Keeps l P others)
    (hstart : P (Stack.start l.initial l.table.root)) (hothers : ∀ other ∈ others, other.Smooth) :
    l.Smooth := by
  intro text depth inner turns reason hwithin
  rcases hwithin.keeps hands hstart with
    ⟨states, text, depth, rfl, hstates⟩ | ⟨other, hother, text, depth, hwithin⟩
  · exact h.not_stalls hstates text depth turns reason
  · exact hothers other hother text depth inner turns reason hwithin

end Lexer.Climbs

/-! Rules that consume something -/

theorem Lexer.Climbs.of_moves {l : Lexer} (h : ∀ {r : Run} {rule : CompiledRule} {found : Match},
      r.lexer = l → r.winner? = some (rule, found) →
        r.position < (r.follow (Run.runner? r.levels) rule found).2.offset) :
    l.Climbs (fun _ => True) fun _ _ => 0 where
  few _ _ := by decide
  root _ := trivial
  keeps _ _ _ := trivial
  rises hlexer _ hwinner := .inl (h hlexer hwinner)

theorem Rule.shows_mono {check other : Node → Node → Bool}
    (hall : ∀ body after, check body after → other body after) {flags : PatternFlags}
    {r : Rule Delegate} (h : r.shows check flags) : r.shows other flags := by
  obtain ⟨source, _, _⟩ := r
  cases source with
  | matcher => cases h
  | pattern source ahead? => exact Pattern.shows_mono hall h

namespace TableDraft
variable {d : TableDraft} {check : String → Rule Delegate → Node → Node → Bool} {t : Table}

/-- Whatever they do with it, the rules consume something. -/
def Moves (d : TableDraft) : Prop :=
  ∀ state r, d.Holds state (.rule r) → r.shows (fun body _ => body.moves) d.flags

theorem Surveyed.moves (h : d.Surveyed check)
    (hcheck : ∀ state r body after, check state r body after → body.moves) : d.Moves :=
  fun state r hholds => Rule.shows_mono (hcheck state r) (h.shows state r hholds)

theorem Moves.upTo_ne_nil (h : d.Moves) (htable : d.compile = .ok t) {r : Run} (hr : r.table = t)
    {rule : CompiledRule} {found : Match} (hwinner : r.winner? = some (rule, found)) :
    r.cursor.upTo found.stop ≠ [] := by
  obtain ⟨rules, hrules, hrule⟩ := Run.exists_rules_of_winner hwinner
  rw [hr] at hrules
  obtain ⟨state, hstate, q, hq, hbinds⟩ := (compile_ok htable).2.2 rules hrules rule hrule
  obtain ⟨body, after, hmoves, hleads⟩ :=
    hbinds.leads (h state.1 q ⟨state.2, hstate, hq⟩) (Run.matchAt_of_firstMatch hwinner)
  exact hleads.upTo_ne_nil hmoves

theorem plain_of_callbacks (hnone : d.callbacks = []) (htable : d.compile = .ok t) {r : Run}
    (hr : r.table = t) {rule : CompiledRule} {found : Match}
    (hwinner : r.winner? = some (rule, found)) (f : Callback) : rule.action ≠ .callback f := by
  intro hf
  obtain ⟨rules, hrules, hrule⟩ := Run.exists_rules_of_winner hwinner
  have hmem := mem_callbacks htable (hr ▸ hrules) hrule hf
  rw [hnone] at hmem
  cases hmem

end TableDraft

/-- A match that is not empty is passed over, unless a callback decides. -/
theorem Run.offset_lt_follow {r : Run} {rule : CompiledRule} {found : Match}
    (hwinner : r.winner? = some (rule, found)) (hplain : ∀ f, rule.action ≠ .callback f)
    (hpiece : r.cursor.upTo found.stop ≠ []) (runner? : Option Runner) :
    r.position < (r.follow runner? rule found).2.offset := by
  obtain ⟨-, hnext⟩ := r.follow_plain runner? rule found hplain
  rw [hnext]
  exact (Cursor.passes_boundary (firstMatch_some hwinner).2.stop).1.offset_lt hpiece

namespace TableDraft
variable {d : TableDraft} {t : Table} (htable : d.compile = .ok t) {l : Lexer} (hl : l.table = t)
include htable hl

theorem Moves.climbs (h : d.Moves) (hcallbacks : d.callbacks = []) :
    l.Climbs (fun _ => True) fun _ _ => 0 :=
  .of_moves fun {r _ _} hlexer hwinner => by
    have hr : r.table = t := by rw [Run.table, hlexer, hl]
    exact Run.offset_lt_follow hwinner (plain_of_callbacks hcallbacks htable hr hwinner)
      (h.upTo_ne_nil htable hr hwinner) _

/-- Where the stack does not matter, a lexer is smooth if those are to which it hands text. -/
theorem smooth_of_climbs {rank : Stack → Cursor → Nat} (h : l.Climbs (fun _ => True) rank)
    (hwhole : ∀ other states, .lexer other (some states) ∉ d.delegates)
    (hothers : ∀ other ∈ d.lexers, other.Smooth) : l.Smooth :=
  h.smooth (hands htable hl trivial (fun _ _ _ _ _ => trivial) hwhole) trivial hothers

end TableDraft

/-! Rules that take states off -/

theorem Stack.Shaped.shortened {s : Stack} {names shape : List String}
    (h : s.Shaped names shape) {op? : Option (StackOp String)} {bound? : Option (StackOp StateId)}
    (hop : Option.Rel (StackOp.Rel (Named names)) op? bound?) (hfits : shape.length ≤ maxDepth)
    (hless : (StackOp.effect? op? shape).length < shape.length) :
    (s.applied bound?).depth < s.depth ∧ (s.applied bound?).generation ≠ s.generation := by
  have happlied := h.applied hop (Nat.le_trans (Nat.le_of_lt hless) hfits)
  have hdepth : (s.applied bound?).depth < s.depth := by
    rw [← length_entries, ← length_entries, ← happlied.length_eq, ← h.length_eq]
    exact hless
  refine ⟨hdepth, Nat.ne_of_gt ((s.onward_applied bound?).lt fun hsame => ?_)⟩
  rw [← length_toList, ← length_toList, hsame] at hdepth
  exact Nat.lt_irrefl _ hdepth

/-- A rule of a state takes some states off each of these shapes on which it can be tried. -/
def StackOp.Shortens (base : String) (shapes : List (List String)) (state : String)
    (op? : Option (StackOp String)) : Prop :=
  ∀ shape ∈ shapes, shape.head? = some state ∨ state = base →
    (effect? op? shape).length < shape.length

instance (base : String) (shapes : List (List String)) (state : String)
    (op? : Option (StackOp String)) : Decidable (StackOp.Shortens base shapes state op?) :=
  inferInstanceAs (Decidable (∀ shape ∈ shapes, shape.head? = some state ∨ state = base →
    (StackOp.effect? op? shape).length < shape.length))

namespace TableDraft.Keeps
variable {d : TableDraft} {base : String} {shapes : List (List String)} (h : d.Keeps base shapes)
  {check : String → Rule Delegate → Node → Node → Bool} (hsurveyed : d.Surveyed check)
  (hcheck : ∀ state r body after, check state r body after →
    body.moves ∨ StackOp.Shortens base shapes state r.op?)
  (hfew : ∀ shape ∈ shapes, shape.length ≤ maxZeroSteps) (hcallbacks : d.callbacks = [])
  {t : Table} (htable : d.compile = .ok t) {l : Lexer} (hl : l.table = t)
include h hsurveyed hcheck hfew hcallbacks htable hl

/-- Where each rule consumes something or takes states off, the stack is lower with each step that
stays. -/
theorem climbs : l.Climbs (Stack.Among l.table.names shapes) fun s _ => maxZeroSteps - s.depth where
  few s _ := Nat.sub_lt (by decide) (Nat.succ_pos s.below.length)
  root := (h.lexer htable hl).root
  keeps hlexer hstack hwinner := (h.lexer htable hl).follow hlexer hstack hwinner
  rises := by
    intro r rule found hlexer hstack hwinner followed
    have hr : r.table = t := by rw [Run.table, hlexer, hl]
    have hnames : l.table.names = d.names := by rw [hl, names_of_compile_ok htable]
    have hplain := plain_of_callbacks hcallbacks htable hr hwinner
    have hrule := (Run.firstMatch_some hwinner).1
    rw [hr] at hrule
    obtain ⟨shape, hshape, hshaped⟩ := hstack
    rw [hnames] at hshaped
    obtain ⟨state, below, hstate, -, rfl⟩ := List.forall₂_cons_right_iff.1 hshaped
    obtain ⟨owner, q, howner, -, hbinds, hshows⟩ := hsurveyed.exists_rule htable hstate hrule
    obtain ⟨body, after, hchecked, hleads⟩ :=
      hbinds.leads hshows (Run.matchAt_of_firstMatch hwinner)
    rcases hcheck owner q body after hchecked with hmoves | hshortens
    · exact .inl (Run.offset_lt_follow hwinner hplain (hleads.upTo_ne_nil hmoves) _)
    · have hless := hshortens _ hshape
        ((h.rests.owner howner).imp_left fun hown => by rw [hown, List.head?_cons])
      obtain ⟨hdepth, hchanged⟩ := hshaped.shortened hbinds.op (h.fits hshape) hless
      have hsmall : r.stack.depth ≤ maxZeroSteps :=
        Nat.le_trans (Nat.le_of_eq hshaped.length_eq.symm) (hfew _ hshape)
      have happlied : followed.1.stack = r.stack.applied rule.op? :=
        r.stack_follow _ rule found hplain
      refine .inr ⟨happlied ▸ hchanged, ?_⟩
      rw [happlied]
      exact Nat.sub_lt_sub_left (Nat.lt_of_lt_of_le hdepth hsmall) hdepth

theorem smooth (hstart : (Stack.start l.initial l.table.root).Among l.table.names shapes)
    (hothers : ∀ other ∈ d.lexers, other.Smooth) : l.Smooth :=
  (h.climbs hsurveyed hcheck hfew hcallbacks htable hl).smooth (h.hands htable hl hstart) hstart
    hothers

end TableDraft.Keeps

end RuleLexer
