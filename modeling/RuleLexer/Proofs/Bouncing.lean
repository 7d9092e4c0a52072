import RuleLexer.Proofs.Stalling
import RuleLexer.Proofs.Survey

/-! States that lead to one another and back. Where one state pushes another that takes itself off
the stack again, and neither rule consumes anything, a run that comes to one of them stays until a
step stalls. -/
namespace RuleLexer
open RuleLexer.Text RuleLexer.Coverage

/-- The first rule of a state that matches at a place consumes nothing and has an operation. -/
def TableOf.Turns (t : Table) (place : Cursor) (state : StateId) (op : StackOp StateId) : Prop :=
  ∃ rule found category, Run.firstMatch place (t.rulesOf state) = some (rule, found) ∧
    found.stop ≤ place.offset ∧ rule.action = .emit category ∧ rule.op? = some op

namespace Run
variable {r : Run} {op : StackOp StateId}

theorem exists_follow_of_turns (h : r.table.Turns r.cursor r.stack.top op) :
    ∃ rule found, r.winner? = some (rule, found) ∧
      (r.follow (runner? r.levels) rule found).2.offset ≤ r.position ∧
      (r.follow (runner? r.levels) rule found).1.stack = (r.stack.apply op).1 := by
  obtain ⟨rule, found, category, hwinner, hstop, haction, hop⟩ := h
  refine ⟨rule, found, hwinner, ?_, ?_⟩
  · rw [follow_snd, haction]
    exact Cursor.offset_seek_le hstop
  · rw [follow, hop, haction]
    show ((r.emit found.start category _).change op).stack = _
    rw [change_eq, emit_eq]

section turns
variable (h : r.table.Turns r.cursor r.stack.top op)
  (hchanged : (r.stack.apply op).1.generation ≠ r.stack.generation)
include h hchanged

theorem lingers_of_turns : r.Lingers := by
  obtain ⟨rule, found, hwinner, hnext, hstack⟩ := exists_follow_of_turns h
  exact ⟨rule, found, hwinner, hnext, hstack ▸ hchanged⟩

theorem stack_scan_of_turns (hfew : r.zeroSteps < maxZeroSteps) :
    r.scan.stack = (r.stack.apply op).1 := by
  obtain ⟨rule, found, hwinner, hnext, hstack⟩ := exists_follow_of_turns h
  obtain ⟨hcursor, -, hzero, -⟩ := follow_kept hwinner
  have hstill : (r.follow (runner? r.levels) rule found).2.offset ≤
      (r.follow (runner? r.levels) rule found).1.position := by
    rw [position, hcursor]
    exact hnext
  rw [scan_of_winner hwinner, settle_of_changed hstill (hstack ▸ hchanged),
    if_neg (by rw [hzero]; omega)]
  exact hstack

end turns

/-- A run that lingers as long as it stays comes to a step that stalls. -/
theorem exists_turns_stalls {P : Run → Prop} (hlingers : ∀ r, P r → r.Lingers)
    (hscan : ∀ r, P r → r.cursor.ahead ≠ [] → r.zeroSteps < maxZeroSteps →
      r.scan.cursor = r.cursor → P r.scan)
    {p : Point} (hp : P p.run) (hsteady : p.run.Steady) (hpending : p.run.pending = [])
    (hend : p.run.cursor.ahead ≠ []) :
    ∃ turns, (Point.turn^[turns] p).Stalls .tooManySteps := by
  induction hleft : maxZeroSteps - p.run.zeroSteps generalizing p with
  | zero =>
    rw [Steady] at hsteady
    exact ⟨0, hpending, hend, (hlingers _ hp).stalls (by omega)⟩
  | succ left ih =>
    have hturn := Point.turn_of_scan hpending hend
    rcases (hlingers _ hp).scan hend hsteady with ⟨hfew, hcursor, hsame⟩ | ⟨hmany, -⟩
    · obtain ⟨piece, hstep⟩ := steps_scan hend
      have hpiece : piece = [] :=
        hstep.passes.nil_of_offset_le (Nat.le_of_eq (congrArg Cursor.offset hcursor))
      obtain ⟨hzero, -⟩ := hstep.stays hpiece
      obtain ⟨turns, hstalls⟩ := ih (p := p.turn)
        (by rw [hturn]; exact hscan _ hp hend hfew hcursor)
        (by rw [hturn]; exact hstep.steady)
        (by rw [hturn]; exact hsame.trans hpending)
        (by rw [hturn]; exact hcursor ▸ hend)
        (by rw [hturn]; show maxZeroSteps - p.run.scan.zeroSteps = left; omega)
      exact ⟨turns + 1, hstalls⟩
    · omega

end Run

/-- Where `outer` pushes `inner`, which takes itself off the stack. -/
structure TableOf.Bounces (t : Table) (place : Cursor) (outer inner : StateId) : Prop where
  pushes : t.Turns place outer (.push [inner])
  pops : t.Turns place inner (.pop 1)

namespace Run

/-- The run stands where two states lead to one another, in one of them. -/
structure Between (t : Table) (place : Cursor) (outer inner : StateId) (r : Run) : Prop where
  table : r.table = t
  cursor : r.cursor = place
  stack : (r.stack.top = outer ∧ r.stack.below.length + 1 < Stack.maxDepth) ∨
    (r.stack.top = inner ∧ ∃ below, r.stack.below = outer :: below ∧
      below.length + 1 < Stack.maxDepth)

namespace Between
variable {t : Table} {place : Cursor} {outer inner : StateId} {r : Run}

theorem turns (h : r.Between t place outer inner) (hbounces : t.Bounces place outer inner) :
    ∃ op, r.table.Turns r.cursor r.stack.top op ∧
      (r.stack.apply op).1.generation ≠ r.stack.generation ∧
      ∀ r' : Run, r'.table = r.table → r'.cursor = r.cursor →
        r'.stack = (r.stack.apply op).1 → r'.Between t place outer inner := by
  obtain ⟨rfl, rfl, hstack⟩ := h
  rcases hstack with ⟨rfl, hroom⟩ | ⟨rfl, below, hbelow, hroom⟩
  · have hpush : (r.stack.apply (.push [inner])).1 =
        ⟨inner, r.stack.entries, r.stack.generation + 1⟩ := by
      simp [Stack.apply, Stack.pushAll, Stack.push, Stack.depth, Nat.not_le.2 hroom]
    refine ⟨.push [inner], hbounces.pushes, by simp [hpush], fun r' htable hcursor hstack => ?_⟩
    rw [hpush] at hstack
    exact ⟨htable, hcursor, .inr ⟨by rw [hstack], r.stack.below, by rw [hstack]; rfl, hroom⟩⟩
  · have hpop : (r.stack.apply (.pop 1)).1 = ⟨outer, below, r.stack.generation + 1⟩ := by
      simp [Stack.apply, Stack.pop, Stack.entries, hbelow]
    refine ⟨.pop 1, hbounces.pops, by simp [hpop], fun r' htable hcursor hstack => ?_⟩
    rw [hpop] at hstack
    exact ⟨htable, hcursor, .inl ⟨by rw [hstack], by rw [hstack]; exact hroom⟩⟩

theorem exists_turns_stalls (hbounces : t.Bounces place outer inner) {p : Point}
    (h : p.run.Between t place outer inner) (hsteady : p.run.Steady)
    (hpending : p.run.pending = []) (hend : place.ahead ≠ []) :
    ∃ turns, (Point.turn^[turns] p).Stalls .tooManySteps := by
  refine Run.exists_turns_stalls (P := Between t place outer inner) (fun r hr => ?_)
    (fun r hr hahead hfew hsame => ?_) h hsteady hpending (h.cursor ▸ hend)
  · obtain ⟨op, hturns, hchanged, -⟩ := hr.turns hbounces
    exact lingers_of_turns hturns hchanged
  · obtain ⟨op, hturns, hchanged, hagain⟩ := hr.turns hbounces
    obtain ⟨_, hstep⟩ := steps_scan hahead
    exact hagain _ (congrArg LexerOf.table hstep.lexer) hsame
      (stack_scan_of_turns hturns hchanged hfew)

end Between

end Run

/-- What the source of a rule makes of a place, when it can be read. -/
def Rule.tries {δ : Type} (flags : PatternFlags) (place : Cursor) (r : Rule δ) :
    Option (Option Match) :=
  match r.source with
  | .pattern source ahead? =>
      (Pattern.compile source ahead? flags).toOption.map (·.matchAt place)
  | .matcher m => some (m.matchAt place)

section tries
variable {flags : PatternFlags} {names : List String} {place : Cursor}

theorem Rule.Binds.matchAt {r : Rule Delegate} {rule : CompiledRule} (h : r.Binds flags names rule)
    {found? : Option Match} (htries : r.tries flags place = some found?) :
    rule.matcher.matchAt place = found? := by
  obtain ⟨source, action, op?⟩ := r
  obtain ⟨matcher, _, _⟩ := rule
  obtain ⟨hsource, -, -⟩ := h
  cases hsource with
  | matcher => exact Option.some.inj htries
  | pattern compiles =>
    rw [Rule.tries] at htries
    dsimp only at htries
    rw [compiles] at htries
    exact Option.some.inj htries

theorem firstMatch_of_tries {before after : List (Rule Delegate)} {r : Rule Delegate}
    {compiled : List CompiledRule} {found : Match}
    (h : List.Forall₂ (Rule.Binds flags names) (before ++ r :: after) compiled)
    (hbefore : ∀ q ∈ before, q.tries flags place = some none)
    (hr : r.tries flags place = some (some found)) :
    ∃ rule, r.Binds flags names rule ∧ Run.firstMatch place compiled = some (rule, found) := by
  obtain ⟨rule, hbinds, hfirst⟩ := Run.firstMatch_behind h fun q hq c hc =>
    hc.matchAt (hbefore q hq)
  exact ⟨rule, hbinds, hfirst found (hbinds.matchAt hr)⟩

end tries

/-- A state turns a run where its expansion has a rule that consumes nothing, behind rules that do
not match. -/
theorem TableDraft.Resolved.turns {d : TableDraft} (h : d.Resolved) {table : Table}
    (hcompile : d.compile = .ok table) (state : String × List (Entry Delegate))
    (hstate : state ∈ d.states) {id : StateId} (hid : Named d.names state.1 id) {place : Cursor}
    (before : List (Rule Delegate)) (r : Rule Delegate)
    (hshape : ∀ rules, d.Expands state.2 rules → ∃ after, rules = before ++ r :: after)
    (hbefore : ∀ q ∈ before, q.tries d.flags place = some none) {found : Match}
    (hr : r.tries d.flags place = some (some found)) (hstop : found.stop ≤ place.offset)
    {category : Category} (haction : r.action = .emit category) {op : StackOp String}
    (hop : r.op? = some op) {bound : StackOp StateId}
    (hbound : ∀ other, op.Rel (Named d.names) other → other = bound) :
    table.Turns place id bound := by
  obtain ⟨rules, hexpands, hcompiled⟩ := h.exists_rules hcompile hstate hid
  obtain ⟨after, rfl⟩ := hshape rules hexpands
  obtain ⟨rule, hbinds, hfirst⟩ := firstMatch_of_tries hcompiled hbefore hr
  obtain ⟨-, hrop, hraction⟩ := hbinds
  rw [haction] at hraction
  rw [hop] at hrop
  cases hruleaction : rule.action with
  | emit =>
    cases hruleop : rule.op? with
    | none =>
      rw [hruleop] at hrop
      cases hrop
    | some other =>
      rw [hruleop] at hrop
      cases hrop with
      | some hother =>
        exact ⟨rule, found, _, hfirst, hstop, hruleaction,
          hruleop.trans (congrArg some (hbound other hother))⟩
  | groups | delegate | callback =>
    rw [hruleaction] at hraction
    cases hraction

end RuleLexer
