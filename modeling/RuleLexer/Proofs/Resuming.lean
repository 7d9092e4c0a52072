import RuleLexer.Proofs.Callbacks
import RuleLexer.Proofs.Depth
import RuleLexer.Proofs.KnownStart
import RuleLexer.Proofs.Resynchronising
import RuleLexer.Proofs.StackShapes

/-! Runs that are resumed. Where no callback keeps anything in the memo, the tokens that a run gives
behind a place of its text are those of any run that stands there with the same states, so a run
over a text can be followed from place to place, by the rule that wins at each. -/
namespace RuleLexer
open RuleLexer.Text RuleLexer.Coverage

theorem Rule.Binds.hands {flags : PatternFlags} {names : List String} {r : Rule Delegate}
    {c : CompiledRule} (h : r.Binds flags names c) {l : Lexer}
    (haction : r.action = .delegate (.lexer l none)) : c.action = .delegate (.lexer l none) := by
  have hrel := h.action
  rw [haction] at hrel
  generalize c.action = action at hrel
  cases hrel with
  | delegate hbinds =>
    cases hbinds with
    | lexer hstates =>
      cases hstates
      rfl

namespace Run

/-- A run that goes on at an offset of a text, from some states. -/
def resume (l : Lexer) (states : List StateId) (text : List Char) (offset : Nat) : Run :=
  { start l states text 0 with cursor := (Cursor.start text).seek offset }

theorem tokens_end {r : Run} (hend : r.cursor.ahead = []) (hpending : r.pending = []) :
    r.tokens = [] := by
  have hbound : r.tokenBound = 0 := by rw [tokenBound, hend, hpending]; rfl
  rw [tokens, hbound]
  rfl

theorem tokens_resume_end (l : Lexer) (states : List StateId) (text : List Char) :
    (resume l states text (byteLength text)).tokens = [] := by
  have hpasses : (Cursor.start text).Passes text ⟨text.reverse, [], byteLength text⟩ :=
    ⟨(List.append_nil _).symm, (List.append_nil _).symm, (Nat.zero_add _).symm⟩
  have hcursor : (resume l states text (byteLength text)).cursor = _ :=
    Cursor.seek_of_passes hpasses
  exact tokens_end (congrArg Cursor.ahead hcursor) rfl

def behind (r : Run) : Run := { r.scan with pending := [] }

theorem tokens_scan {r : Run} (hsteady : r.Steady) (hpending : r.pending = [])
    (hend : r.cursor.ahead ≠ []) : r.tokens = r.scan.ready ++ r.behind.tokens := by
  obtain ⟨piece, hstep⟩ := steps_scan hend
  have hless : r.scan.stepsLeft < r.stepsLeft := hstep.stepsLeft_lt hsteady hend
  have hsame : ({ r with pending := [] } : Run) = r := by rw [← hpending]
  have hrest := tokens_eq_drain (r := r.behind) hstep.steady hless
  have hlevels : r.behind.levels = r.levels := hstep.levels
  rw [tokens_eq_drain hsteady (Nat.lt_succ_self _), drain_succ hend, hsame, hrest, hlevels,
    ready, hpending]
  exact drain_pending _ _ _

theorem Twin.tokens_eq {r r' : Run} (h : r.Twin r') (hsteady : r.Steady)
    (hplain : ∀ rules ∈ r.table.rules, ∀ rule ∈ rules, ∀ f, rule.action ≠ .callback f) :
    r'.tokens = r.tokens := by
  have hsteady' : r'.Steady := by rwa [Steady, h.zeroSteps]
  obtain ⟨turns, hdone, htaken, -⟩ :=
    Point.exists_turns_drain (p := { run := r }) hsteady (stepsLeft_lt_stepBound r)
  obtain ⟨turns', hdone', htaken', -⟩ :=
    Point.exists_turns_drain (p := { run := r' }) hsteady' (stepsLeft_lt_stepBound r')
  have htwins : Point.Twins r.lexer [] [] { run := r } { run := r' } := ⟨rfl, h, [], rfl, rfl⟩
  obtain ⟨given, hgiven, hgiven'⟩ := (htwins.iterate hplain (turns + turns')).given
  rw [Nat.add_comm, Function.iterate_add_apply, hdone.iterate, htaken] at hgiven
  rw [Function.iterate_add_apply, hdone'.iterate, htaken'] at hgiven'
  rw [tokens_eq_drain hsteady (stepsLeft_lt_stepBound r),
    tokens_eq_drain hsteady' (stepsLeft_lt_stepBound r')]
  exact hgiven'.trans hgiven.symm

/-! Lexers that hand nothing on -/

section quiet
variable {l : Lexer}
  (hquiet : ∀ rules ∈ l.table.rules, ∀ rule ∈ rules, ∀ target, ¬rule.action.HandsTo target)
include hquiet

theorem jobs_of_quiet {r : Run} (hlexer : r.lexer = l) : r.jobs = [] := by
  refine List.eq_nil_iff_forall_not_mem.2 fun job hjob => ?_
  rw [jobs] at hjob
  split at hjob
  · cases hjob
  · next rule found hwinner =>
    obtain ⟨p, hp, hjob⟩ := List.mem_filterMap.1 hjob
    obtain ⟨target, hfate, -, -⟩ := Piece.mem_job?_iff.1 hjob
    obtain ⟨rules, hrules, hrule⟩ := exists_rules_of_winner hwinner
    rw [table, hlexer] at hrules
    exact hquiet rules hrules rule hrule target (handsTo_of_mem_pieces hp hfate)

theorem eq_of_within {states : List StateId} {text : List Char} {depth : Nat} {inner : Run}
    (h : (start l states text depth).Within inner) : inner = start l states text depth := by
  induction h with
  | outermost => rfl
  | inner turns _ _ hnested ih =>
    subst ih
    obtain ⟨-, job, hjob, -⟩ := mem_nested hnested
    rw [jobs_of_quiet hquiet (Point.Holds.after l states text depth turns).lexer] at hjob
    cases hjob

theorem tokens_of_quiet (states : List StateId) (text : List Char) (depth : Nat) :
    (start l states text depth).tokens = (start l states text 0).tokens := by
  have hroom : ∀ inner turns, (start l states text depth).Within inner →
      ¬(Point.after turns inner).TooDeep := by
    intro inner turns hinner hdeep
    have hjobs := hdeep.jobs
    rw [eq_of_within hquiet hinner] at hjobs
    exact hjobs (jobs_of_quiet hquiet (Point.Holds.after l states text depth turns).lexer)
  have hplayed := Point.played_of_under (Point.after_under (Nat.zero_le depth) hroom)
  rw [tokens_eq_played, tokens_eq_played, hplayed]

end quiet

/-! Runs followed from place to place -/

theorem runFrom_eq {l : Lexer} {states : List String} {ids : List StateId}
    (h : List.Forall₂ (Named l.table.names) states ids) (hne : states ≠ []) (text : String) :
    l.runFrom text states = .ok (start l ids text.toList 0) := by
  have hresolve : l.table.resolve "<tokenize>" states = .ok ids := by
    obtain ⟨state, rest, rfl⟩ := List.exists_cons_of_ne_nil hne
    exact mapM_ok_iff.2 (h.imp fun _ _ hnamed => TableDraft.lookup_ok_iff.2 hnamed)
  rw [LexerOf.runFrom, hresolve]
  rfl

/-- A run stands between two parts of its text with nothing pending and these states on its stack,
top first. -/
structure StandsAt (l : Lexer) (before behind : List Char) (shape : List String) (r : Run) :
    Prop where
  lexer : r.lexer = l
  depth : r.depth = 0
  passes : (Cursor.start (before ++ behind)).Passes before r.cursor
  stack : r.stack.Shaped l.table.names shape
  pending : r.pending = []
  zeroSteps : r.zeroSteps = 0

section stands
variable {l : Lexer} {before behind : List Char} {shape : List String} {r : Run}

theorem standsAt_resume {state : String} {id : StateId} (hid : Named l.table.names state id) :
    StandsAt l before behind [state] (resume l [id] (before ++ behind) (byteLength before)) := by
  let place : Cursor := ⟨before.reverse, behind, byteLength before⟩
  have hpasses : (Cursor.start (before ++ behind)).Passes before place :=
    ⟨rfl, (List.append_nil _).symm, (Nat.zero_add _).symm⟩
  have hcursor : (resume l [id] (before ++ behind) (byteLength before)).cursor = place :=
    Cursor.seek_of_passes hpasses
  exact ⟨rfl, rfl, hcursor ▸ hpasses, .cons hid .nil, rfl, rfl⟩

theorem standsAt_start_all {states : List String} {ids : List StateId}
    (hids : List.Forall₂ (Named l.table.names) states ids) (hne : ids ≠ [])
    (hfits : states.length ≤ Stack.maxDepth) (text : List Char) :
    StandsAt l [] text states.reverse (start l ids text 0) :=
  ⟨rfl, rfl, .refl _, Stack.shaped_start hids hne hfits _, rfl, rfl⟩

theorem standsAt_start {state : String} {id : StateId} (hid : Named l.table.names state id)
    (text : List Char) : StandsAt l [] text [state] (start l [id] text 0) :=
  standsAt_start_all (.cons hid .nil) (List.cons_ne_nil _ _)
    (show 1 ≤ Stack.maxDepth by decide) text

namespace StandsAt

theorem ahead (h : StandsAt l before behind shape r) : r.cursor.ahead = behind :=
  (List.append_cancel_left h.passes.ahead).symm

theorem position (h : StandsAt l before behind shape r) : r.position = byteLength before :=
  h.passes.offset.trans (Nat.zero_add _)

theorem tokens_end (h : StandsAt l before [] shape r) : r.tokens = [] :=
  Run.tokens_end h.ahead h.pending

/-- What has been before makes no difference to the tokens that are to come. -/
theorem tokens_eq (h : StandsAt l before behind shape r) {r' : Run}
    (h' : StandsAt l before behind shape r')
    (hplain : ∀ rules ∈ l.table.rules, ∀ rule ∈ rules, ∀ f, rule.action ≠ .callback f) :
    r'.tokens = r.tokens := by
  have htwin : r.Twin r' := by
    refine ⟨h'.lexer.trans h.lexer.symm, ?_, h.stack.entries_eq h'.stack, ?_, ?_, ?_⟩
    · rw [← Cursor.seek_of_passes h.passes, ← Cursor.seek_of_passes h'.passes]
      exact congrArg _ (h'.position.trans h.position.symm)
    · rw [h.pending, h'.pending]
    · rw [h.zeroSteps, h'.zeroSteps]
    · rw [h.depth, h'.depth]
  refine htwin.tokens_eq (by rw [Steady, h.zeroSteps]; exact Nat.zero_le _) ?_
  rwa [Run.table, h.lexer]

theorem scan {piece : List Char} (h : StandsAt l before (piece ++ behind) shape r)
    (hpiece : piece ≠ []) {rule : CompiledRule} {found : Match}
    (hwinner : r.winner? = some (rule, found)) (hplain : ∀ f, rule.action ≠ .callback f)
    (hspan : r.cursor.upTo found.stop = piece) {op? : Option (StackOp String)}
    (hop : Option.Rel (StackOp.Rel (Named l.table.names)) op? rule.op?)
    (hroom : (StackOp.effect? op? shape).length ≤ Stack.maxDepth) : ∃ r' : Run,
    StandsAt l (before ++ piece) behind (StackOp.effect? op? shape) r' ∧
      r.tokens = ((found.pieces r.cursor rule.action).flatMap
        (Piece.tokens (runner? r.levels) l)).map l.recategorise ++ r'.tokens := by
  have hfits := (firstMatch_some hwinner).2
  obtain ⟨-, hnext⟩ := r.follow_plain (runner? r.levels) rule found hplain
  have hmoves : r.cursor.Passes piece (r.follow (runner? r.levels) rule found).2 := by
    rw [hnext, ← hspan]
    exact (Cursor.passes_boundary hfits.stop).1
  have haccepts := accepts_of_progress hwinner
    (by rw [h.zeroSteps]; exact Nat.zero_lt_succ _) hmoves (.inl hpiece)
  have hend : r.cursor.ahead ≠ [] := by simp [h.ahead, hpiece]
  obtain ⟨_, hstep⟩ := steps_scan hend
  have hpending := haccepts.pending
  rw [r.pending_follow _ rule found hplain, h.pending, h.lexer, List.nil_append] at hpending
  refine ⟨r.behind, ⟨?_, ?_, ?_, ?_, rfl, ?_⟩, ?_⟩
  · exact haccepts.lexer.trans h.lexer
  · exact hstep.depth.trans h.depth
  · rw [List.append_assoc]
    exact h.passes.trans haccepts.passes
  · show r.scan.stack.Shaped _ _
    rw [haccepts.stack, r.stack_follow _ rule found hplain]
    exact h.stack.applied hop hroom
  · show r.scan.zeroSteps = 0
    rw [haccepts.zeroSteps, if_neg hpiece]
  · rw [tokens_scan (by rw [Steady, h.zeroSteps]; exact Nat.zero_le _) h.pending hend, ready,
      hpending, haccepts.lexer, h.lexer]

section rules
variable {flags : PatternFlags} {state : String} {rules : List (Rule Delegate)}

theorem exists_rules (h : StandsAt l before behind (state :: shape) r)
    (hbinds : ∀ id, Named l.table.names state id →
      List.Forall₂ (Rule.Binds flags l.table.names) rules (l.table.rulesOf id)) :
    ∃ compiled, List.Forall₂ (Rule.Binds flags l.table.names) rules compiled ∧
      r.winner? = firstMatch r.cursor compiled := by
  have htop : Named l.table.names state r.stack.top := (List.forall₂_cons.1 h.stack).1
  exact ⟨_, hbinds _ htop, by rw [winner?, Run.table, h.lexer]⟩

theorem emits_piece {piece : List Char}
    (h : StandsAt l before (piece ++ behind) (state :: shape) r)
    (hbinds : ∀ id, Named l.table.names state id →
      List.Forall₂ (Rule.Binds flags l.table.names) rules (l.table.rulesOf id))
    (hpiece : piece ≠ []) {q : Rule Delegate} {category : Category}
    (haction : q.action = .emit category)
    (hwins : ∀ compiled, List.Forall₂ (Rule.Binds flags l.table.names) rules compiled →
      ∃ c found, q.Binds flags l.table.names c ∧
        firstMatch r.cursor compiled = some (c, found) ∧ r.cursor.upTo found.stop = piece)
    (hroom : (StackOp.effect? q.op? (state :: shape)).length ≤ Stack.maxDepth) : ∃ r' : Run,
    StandsAt l (before ++ piece) behind (StackOp.effect? q.op? (state :: shape)) r' ∧
      r.tokens =
        l.recategorise ⟨byteLength before, category, String.ofList piece⟩ :: r'.tokens := by
  obtain ⟨compiled, hall, hwinner⟩ := h.exists_rules hbinds
  obtain ⟨c, found, hbind, hfirst, hspan⟩ := hwins compiled hall
  rw [hfirst] at hwinner
  have hstart : found.start = byteLength before :=
    (firstMatch_some hfirst).2.start.trans h.position
  have hcategory := hbind.emit haction
  obtain ⟨r', hstands, htokens⟩ :=
    h.scan hpiece hwinner (by simp [hcategory]) hspan hbind.op hroom
  refine ⟨r', hstands, htokens.trans ?_⟩
  simp [hcategory, Match.pieces, Piece.tokens, hstart, hspan, tokensOf_ne_nil _ _ hpiece]

theorem emits {w : List Char × List Char}
    (h : StandsAt l before (w.1 ++ (w.2 ++ behind)) (state :: shape) r)
    (hbinds : ∀ id, Named l.table.names state id →
      List.Forall₂ (Rule.Binds flags l.table.names) rules (l.table.rulesOf id))
    {i : Nat} {q : Rule Delegate} (hq : rules[i]? = some q)
    (hwins : Rule.wins flags [w.1 ++ w.2] i rules) (hspans : q.spans flags [w])
    {category : Category} (haction : q.action = .emit category) (hnonempty : w.1 ≠ [])
    (hroom : (StackOp.effect? q.op? (state :: shape)).length ≤ Stack.maxDepth) : ∃ r' : Run,
    StandsAt l (before ++ w.1) (w.2 ++ behind) (StackOp.effect? q.op? (state :: shape)) r' ∧
      r.tokens =
        l.recategorise ⟨byteLength before, category, String.ofList w.1⟩ :: r'.tokens := by
  have hahead : w.1 ++ w.2 <+: r.cursor.ahead := by
    rw [h.ahead, ← List.append_assoc]
    exact List.prefix_append _ _
  refine h.emits_piece hbinds hnonempty haction (fun compiled hall => ?_) hroom
  obtain ⟨q', c, found, hq', hbind, hfirst⟩ :=
    firstMatch_of_wins hwins hall (List.mem_singleton_self _) hahead
  cases hq.symm.trans hq'
  exact ⟨c, found, hbind, hfirst,
    hbind.upTo_eq hspans (List.mem_singleton_self w) hahead (matchAt_of_firstMatch hfirst)⟩

theorem hands {piece : List Char} (h : StandsAt l before (piece ++ behind) (state :: shape) r)
    (hbinds : ∀ id, Named l.table.names state id →
      List.Forall₂ (Rule.Binds flags l.table.names) rules (l.table.rulesOf id))
    (hpiece : piece ≠ []) {q : Rule Delegate} {inner : Lexer}
    (haction : q.action = .delegate (.lexer inner none))
    (hwins : ∀ compiled, List.Forall₂ (Rule.Binds flags l.table.names) rules compiled →
      ∃ c found, q.Binds flags l.table.names c ∧
        firstMatch r.cursor compiled = some (c, found) ∧ r.cursor.upTo found.stop = piece)
    (hroom : (StackOp.effect? q.op? (state :: shape)).length ≤ Stack.maxDepth) : ∃ r' : Run,
    StandsAt l (before ++ piece) behind (StackOp.effect? q.op? (state :: shape)) r' ∧
      r.tokens = ((start inner inner.initial piece 1).tokens.map
        (·.shift (byteLength before))).map l.recategorise ++ r'.tokens := by
  obtain ⟨compiled, hall, hwinner⟩ := h.exists_rules hbinds
  obtain ⟨c, found, hbind, hfirst, hspan⟩ := hwins compiled hall
  rw [hfirst] at hwinner
  have hstart : found.start = byteLength before :=
    (firstMatch_some hfirst).2.start.trans h.position
  have hdelegate := hbind.hands haction
  obtain ⟨runner, hrunner, hgiven⟩ := exists_runner (r := r) (by rw [h.depth]; decide)
  obtain ⟨r', hstands, htokens⟩ :=
    h.scan hpiece hwinner (by simp [hdelegate]) hspan hbind.op hroom
  refine ⟨r', hstands, htokens.trans ?_⟩
  simp [hdelegate, Match.pieces, Piece.tokens, delegated, hrunner, hgiven, hstart, hspan, hpiece,
    h.depth, Target.lexerIn, Target.statesIn]

end rules

end StandsAt

end stands

end Run

end RuleLexer
