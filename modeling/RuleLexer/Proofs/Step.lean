import RuleLexer.Proofs.Piece

/-! Single steps. What a rule does adds tokens for the text up to the place where scanning is to go
on, whichever action it has and whatever its callback calls. So a step passes over a piece of the
text, adds tokens that cover it, and has passed over nothing only when it counts as one more step
in a row that stays where it is. -/
namespace RuleLexer
open RuleLexer.Text RuleLexer.Coverage

namespace Run

/-- `r'` has added tokens for a piece of text to those of `r` and moved nowhere. -/
structure Emits (r : Run) (offset : Nat) (piece : List Char) (r' : Run) : Prop where
  lexer : r'.lexer = r.lexer
  cursor : r'.cursor = r.cursor
  zeroSteps : r'.zeroSteps = r.zeroSteps
  depth : r'.depth = r.depth
  tokens : ∃ tokens, r'.pending = r.pending ++ tokens ∧ Covers offset piece tokens

namespace Emits
variable {r r' r'' : Run} {offset : Nat} {piece more : List Char}

theorem nothing (offset : Nat) (lexer : r'.lexer = r.lexer) (cursor : r'.cursor = r.cursor)
    (zeroSteps : r'.zeroSteps = r.zeroSteps) (depth : r'.depth = r.depth)
    (pending : r'.pending = r.pending) : r.Emits offset [] r' :=
  ⟨lexer, cursor, zeroSteps, depth, [], by simp [pending], .nil offset⟩

theorem refl (r : Run) (offset : Nat) : r.Emits offset [] r := .nothing offset rfl rfl rfl rfl rfl

theorem trans (h : r.Emits offset piece r')
    (h' : r'.Emits (offset + byteLength piece) more r'') : r.Emits offset (piece ++ more) r'' := by
  obtain ⟨tokens, hpending, hcovers⟩ := h.tokens
  obtain ⟨tokens', hpending', hcovers'⟩ := h'.tokens
  refine ⟨h'.lexer.trans h.lexer, h'.cursor.trans h.cursor, h'.zeroSteps.trans h.zeroSteps,
    h'.depth.trans h.depth, tokens ++ tokens', ?_, hcovers.append hcovers'⟩
  rw [hpending', hpending, List.append_assoc]

end Emits

theorem emits_emit (r : Run) (offset : Nat) (category : Category) (piece : List Char) :
    r.Emits offset piece (r.emit offset category piece) := by
  rw [emit_eq]
  exact ⟨rfl, rfl, rfl, rfl, _, rfl, covers_tokensOf _ _ _⟩

theorem emits_putAll {runner? : Option Runner}
    (hrunner : ∀ runner ∈ runner?, Runner.Covering runner) (r : Run) {stop : Cursor}
    {pieces : List Piece} (h : Tiles r.cursor pieces stop) :
    r.Emits r.position (pieces.flatMap Piece.text) (r.putAll runner? pieces) := by
  rw [putAll_eq]
  exact ⟨rfl, rfl, rfl, rfl, _, rfl, Piece.covers_flatMap r.lexer hrunner h⟩

theorem noteRefused_eq (r : Run) (refused : Nat) :
    r.noteRefused refused = { r with notices := (r.noteRefused refused).notices } := by
  induction refused generalizing r with
  | zero => rfl
  | succ refused ih =>
    rw [noteRefused, ih]
    rfl

theorem change_eq (r : Run) (op : StackOp StateId) :
    r.change op =
      { r with stack := (r.stack.apply op).1, notices := (r.change op).notices } :=
  noteRefused_eq { r with stack := (r.stack.apply op).1 } _

end Run

namespace Session

/-- `s` is a callback's view of `r` after it has emitted tokens for a piece of text. -/
structure Since (s : Session) (r : Run) (piece : List Char) : Prop where
  passes : r.cursor.Passes piece s.cursor
  emits : r.Emits r.position piece s.run

variable {s : Session} {r : Run} {piece : List Char}

theorem Since.withRun (h : s.Since r piece) {run : Run}
    (hrun : s.run.Emits s.cursor.offset [] run) :
    ({ s with run } : Session).Since r piece where
  passes := h.passes
  emits := by
    rw [h.passes.offset] at hrun
    simpa using h.emits.trans hrun

theorem Since.same (h : s.Since r piece) : ∃ more, s.Since r (piece ++ more) :=
  ⟨[], by rwa [List.append_nil]⟩

theorem Since.emit (h : s.Since r piece) (stop : Nat) (category : Category) :
    ∃ more, (s.emit stop category).Since r (piece ++ more) := by
  unfold Session.emit
  dsimp only
  split
  · exact h.same
  · next hlater =>
    have hle : s.cursor.offset ≤ stop :=
      Nat.le_of_not_lt fun hlt => hlater (Cursor.offset_seek_le (Nat.le_of_lt hlt))
    have hpasses := Cursor.passes_seek hle
    refine ⟨s.cursor.upTo stop, h.passes.trans hpasses, ?_⟩
    rw [Cursor.upTo_of_passes hpasses]
    have hemit := s.run.emits_emit s.cursor.offset category (s.cursor.upTo stop)
    rw [h.passes.offset] at hemit
    exact h.emits.trans (h.passes.offset ▸ hemit)

theorem Since.unknownState (h : s.Since r piece) (state : String) :
    (s.unknownState state).1.Since r piece :=
  h.withRun (.nothing _ rfl rfl rfl rfl rfl)

theorem Since.push (h : s.Since r piece) (state : String) : (s.push state).1.Since r piece := by
  unfold Session.push
  split
  · exact h.unknownState state
  · refine h.withRun ?_
    split
    · exact .nothing _ rfl rfl rfl rfl rfl
    · rw [Run.noteRefused_eq]
      exact .nothing _ rfl rfl rfl rfl rfl

theorem Since.reset (h : s.Since r piece) (state : String) : (s.reset state).1.Since r piece := by
  unfold Session.reset
  split
  · exact h.unknownState state
  · exact h.withRun (.nothing _ rfl rfl rfl rfl rfl)

theorem Since.perform (h : s.Since r piece) (call : Call) :
    ∃ more, (s.perform call).1.Since r (piece ++ more) := by
  cases call with
  | emit stop category => exact h.emit stop category
  | emitRange start stop category =>
    obtain ⟨gap, hgap⟩ := h.emit start .text
    obtain ⟨more, hmore⟩ := hgap.emit stop category
    exact ⟨gap ++ more, by rwa [← List.append_assoc]⟩
  | continueAt offset => exact Since.same ⟨h.passes, h.emits⟩
  | push state => exact Since.same (h.push state)
  | reset state => exact Since.same (h.reset state)
  | pop | keep | drop | dropAll | observe =>
    exact Since.same (h.withRun (.nothing _ rfl rfl rfl rfl rfl))

theorem Since.play (h : s.Since r piece) (script : Script) :
    ∃ more, (s.play script).Since r (piece ++ more) := by
  induction script generalizing s piece with
  | done => exact h.same
  | call c next ih =>
    obtain ⟨first, hfirst⟩ := h.perform c
    obtain ⟨more, hmore⟩ := ih _ _ hfirst
    exact ⟨first ++ more, by rwa [← List.append_assoc]⟩

end Session

namespace Stack

def applied (s : Stack) (op? : Option (StackOp StateId)) : Stack :=
  op?.elim s fun op => (s.apply op).1

theorem entries_reset (s : Stack) (state : StateId) : (s.reset state).entries = [state] := by
  rw [reset]
  split
  · next h => rw [entries, h.1, h.2]
  · rfl

end Stack

namespace Run
variable {runner? : Option Runner}

theorem emits_act (hrunner : ∀ runner ∈ runner?, Runner.Covering runner) (r : Run)
    (action : Action Target) {found : Match} (h : found.Fits r.cursor) :
    ∃ piece, r.cursor.Passes piece (r.act runner? action found).2 ∧
      r.Emits r.position piece (r.act runner? action found).1 := by
  by_cases hcallback : ∃ f, action = .callback f
  · obtain ⟨f, rfl⟩ := hcallback
    let s : Session := ⟨r, r.cursor, r.cursor.seek found.stop⟩
    have hs : s.Since r [] := ⟨.refl _, .refl r _⟩
    obtain ⟨piece, hplay⟩ := hs.play (f found r.cursor s.view)
    obtain ⟨more, hclose⟩ := hplay.emit (s.play (f found r.cursor s.view)).position.offset .text
    exact ⟨_, hclose.passes, hclose.emits⟩
  · have hplain : ∀ f, action ≠ .callback f := fun f hf => hcallback ⟨f, hf⟩
    have htiles := h.tiles_pieces action hplain
    rw [act_eq runner? r action found hplain]
    exact ⟨_, htiles.passes, emits_putAll hrunner r htiles⟩

/-- What a rule does with its match, and where scanning goes on. -/
def follow (runner? : Option Runner) (r : Run) (rule : CompiledRule) (found : Match) :
    Run × Cursor :=
  let (r', next) := r.act runner? rule.action found
  (match rule.op? with
    | none => r'
    | some op => r'.change op, next)

theorem follow_snd (runner? : Option Runner) (r : Run) (rule : CompiledRule) (found : Match) :
    (r.follow runner? rule found).2 = (r.act runner? rule.action found).2 := rfl

theorem follow_eq (runner? : Option Runner) (r : Run) (rule : CompiledRule) (found : Match) :
    (r.follow runner? rule found).1 =
      { (r.act runner? rule.action found).1 with
        stack := (r.follow runner? rule found).1.stack
        notices := (r.follow runner? rule found).1.notices } := by
  unfold follow
  cases rule.op? with
  | none => rfl
  | some op =>
    dsimp only
    rw [change_eq]

theorem follow_plain (runner? : Option Runner) (r : Run) (rule : CompiledRule) (found : Match)
    (hplain : ∀ f, rule.action ≠ .callback f) :
    (r.follow runner? rule found).1.cursor = r.cursor ∧
      (r.follow runner? rule found).2 = r.cursor.seek found.stop := by
  rw [follow_eq, follow_snd, act_eq _ _ _ _ hplain, putAll_eq]
  exact ⟨rfl, rfl⟩

theorem stack_follow_eq (runner? : Option Runner) (r : Run) (rule : CompiledRule)
    (found : Match) : (r.follow runner? rule found).1.stack =
      (r.act runner? rule.action found).1.stack.applied rule.op? := by
  unfold follow
  cases rule.op? with
  | none => rfl
  | some op =>
    dsimp only
    rw [change_eq]
    rfl

theorem stack_follow (runner? : Option Runner) (r : Run) (rule : CompiledRule) (found : Match)
    (hplain : ∀ f, rule.action ≠ .callback f) :
    (r.follow runner? rule found).1.stack = r.stack.applied rule.op? := by
  have hact := r.act_eq runner? rule.action found hplain
  rw [putAll_eq] at hact
  rw [stack_follow_eq, hact]

theorem pending_follow (runner? : Option Runner) (r : Run) (rule : CompiledRule) (found : Match)
    (hplain : ∀ f, rule.action ≠ .callback f) :
    (r.follow runner? rule found).1.pending =
      r.pending ++
        (found.pieces r.cursor rule.action).flatMap (Piece.tokens runner? r.lexer) := by
  rw [follow_eq, act_eq _ _ _ _ hplain, putAll_eq]

theorem emits_follow (hrunner : ∀ runner ∈ runner?, Runner.Covering runner) (r : Run)
    (rule : CompiledRule) {found : Match} (h : found.Fits r.cursor) :
    ∃ piece, r.cursor.Passes piece (r.follow runner? rule found).2 ∧
      r.Emits r.position piece (r.follow runner? rule found).1 := by
  obtain ⟨piece, hpasses, hemits⟩ := emits_act hrunner r rule.action h
  rw [follow_eq]
  exact ⟨piece, hpasses, hemits.lexer, hemits.cursor, hemits.zeroSteps, hemits.depth,
    hemits.tokens⟩

def apply (runner? : Option Runner) (r : Run) (rule : CompiledRule) (found : Match) : Run :=
  (r.follow runner? rule found).1.settle (r.follow runner? rule found).2 r.stack.generation

/-- Two rules that win do the same: they are one, with one match, or both emit the whole of their
matches, which span the same, under one category and with one operation. -/
inductive SameWin : CompiledRule × Match → CompiledRule × Match → Prop
  | refl (winner : CompiledRule × Match) : SameWin winner winner
  | emits {rule rule' : CompiledRule} {category : Category} (action : rule.action = .emit category)
      (action' : rule'.action = .emit category) (op : rule'.op? = rule.op?) (found : Match) :
      SameWin (rule, found) (rule', found.whole)

theorem SameWin.apply_eq {winner winner' : CompiledRule × Match} (h : SameWin winner winner')
    (runner? : Option Runner) (r : Run) :
    r.apply runner? winner'.1 winner'.2 = r.apply runner? winner.1 winner.2 := by
  cases h with
  | refl => rfl
  | emits action action' op found =>
    simp only [apply, follow, act, action, action', op]
    rfl

def winner? (r : Run) : Option (CompiledRule × Match) :=
  firstMatch r.cursor (r.table.rulesOf r.stack.top)

theorem step_eq (runner? : Option Runner) (r : Run) :
    r.step runner? =
      match r.winner? with
      | none => r.fallback
      | some (rule, found) => r.apply runner? rule found := rfl

theorem firstMatch_some {place : Cursor} {rules : List CompiledRule} {rule : CompiledRule}
    {found : Match} (h : firstMatch place rules = some (rule, found)) :
    rule ∈ rules ∧ found.Fits place := by
  induction rules with
  | nil => cases h
  | cons first rest ih =>
    rw [firstMatch] at h
    split at h
    · next hmatch =>
      cases h
      exact ⟨List.mem_cons_self, Matcher.matchAt_fits hmatch⟩
    · obtain ⟨hmem, hfits⟩ := ih h
      exact ⟨List.mem_cons_of_mem _ hmem, hfits⟩

theorem matchAt_of_firstMatch {place : Cursor} {rules : List CompiledRule} {rule : CompiledRule}
    {found : Match} (h : firstMatch place rules = some (rule, found)) :
    rule.matcher.matchAt place = some found := by
  induction rules with
  | nil => cases h
  | cons first rest ih =>
    rw [firstMatch] at h
    split at h
    · next hmatch =>
      cases h
      exact hmatch
    · exact ih h

theorem exists_rules_of_winner {r : Run} {rule : CompiledRule} {found : Match}
    (h : r.winner? = some (rule, found)) : ∃ rules ∈ r.table.rules, rule ∈ rules := by
  have hrule := (firstMatch_some h).1
  rw [TableOf.rulesOf] at hrule
  cases hrules : r.table.rules[r.stack.top]? with
  | none =>
    rw [hrules] at hrule
    cases hrule
  | some rules =>
    rw [hrules] at hrule
    exact ⟨rules, List.mem_of_getElem? hrules, hrule⟩

def fallbackCategory (r : Run) (c : Char) : Category :=
  if c = '\n' ∧ r.table.resetsOnNewline then .text else r.table.fallback

theorem fallback_eq {r : Run} {c : Char} {rest : List Char} (h : r.cursor.ahead = c :: rest) :
    r.fallback =
      { r with
        cursor := r.cursor.seek (r.position + 1)
        stack :=
          if c = '\n' ∧ r.table.resetsOnNewline then r.stack.reset r.table.root else r.stack
        pending := r.pending ++ [⟨r.position, r.fallbackCategory c, String.ofList [c]⟩]
        zeroSteps := 0
        notices := r.fallback.notices } := by
  rw [fallback, h]
  by_cases hreset : c = '\n' ∧ r.table.resetsOnNewline
  · simp [hreset, fallbackCategory, emit_eq, tokensOf, position]
  · simp [hreset, fallbackCategory, emit_eq, tokensOf, position, note]

theorem warn_eq (r : Run) (reason : NoProgress) :
    r.warn reason = { r with warned := true, notices := (r.warn reason).notices } := by
  unfold warn
  split
  · next h => rw [← h]
  · rfl

structure Steps (r : Run) (piece : List Char) (r' : Run) : Prop where
  lexer : r'.lexer = r.lexer
  depth : r'.depth = r.depth
  passes : r.cursor.Passes piece r'.cursor
  tokens : ∃ tokens, r'.pending = r.pending ++ tokens ∧ Covers r.position piece tokens
  stays : piece = [] → r'.zeroSteps = r.zeroSteps + 1 ∧ r'.zeroSteps ≤ maxZeroSteps
  moves : piece ≠ [] → r'.zeroSteps = 0

theorem steps_fallback {r r' : Run} (lexer : r'.lexer = r.lexer) (depth : r'.depth = r.depth)
    (cursor : r'.cursor = r.cursor) (pending : r'.pending = r.pending) {c : Char}
    {rest : List Char} (hahead : r.cursor.ahead = c :: rest) : r.Steps [c] r'.fallback := by
  rw [fallback_eq (cursor.symm ▸ hahead)]
  refine ⟨lexer, depth, ?_, ?_, by simp, fun _ => rfl⟩
  · simpa [position, cursor] using Cursor.passes_next hahead
  · have hposition : r'.position = r.position := by rw [position, cursor, position]
    refine ⟨tokensOf r.position (r'.fallbackCategory c) [c], ?_, covers_tokensOf _ _ _⟩
    rw [pending, hposition, tokensOf_ne_nil _ _ (List.cons_ne_nil c [])]

theorem Emits.pending_eq {r r' : Run} {offset : Nat} (h : r.Emits offset [] r') :
    r'.pending = r.pending := by
  obtain ⟨tokens, hpending, hcovers⟩ := h.tokens
  rw [hpending, hcovers.eq_nil, List.append_nil]

theorem Emits.steps_fallback {r r' : Run} (h : r.Emits r.position [] r') {c : Char}
    {rest : List Char} (hahead : r.cursor.ahead = c :: rest) (zeroSteps : Nat)
    (reason : NoProgress) :
    r.Steps [c] (({ r' with zeroSteps } : Run).warn reason).fallback := by
  have hpending := h.pending_eq
  obtain ⟨hlexer, hcursor, -, hdepth, -⟩ := h
  rw [warn_eq]
  apply Run.steps_fallback
  all_goals assumption

theorem settle_of_lt {r : Run} {next : Cursor} (hnext : r.position < next.offset)
    (generation : Nat) : r.settle next generation = { r with cursor := next, zeroSteps := 0 } :=
  if_pos hnext

/-- Two steps end in the same way when both have changed the stack or neither has, and their
outcomes are related in each of these ways. -/
theorem settle_rel {Q : Run → Run → Prop} {r r' : Run} {next : Cursor}
    {generation generation' : Nat} (cursor : r'.cursor = r.cursor)
    (zeroSteps : r'.zeroSteps = r.zeroSteps)
    (changed : r'.stack.generation = generation' ↔ r.stack.generation = generation)
    (moved : Q { r with cursor := next, zeroSteps := 0 } { r' with cursor := next, zeroSteps := 0 })
    (counted : ∀ zeroSteps, Q { r with zeroSteps } { r' with zeroSteps })
    (refused : ∀ zeroSteps reason, Q (({ r with zeroSteps } : Run).warn reason).fallback
      (({ r' with zeroSteps } : Run).warn reason).fallback) :
    Q (r.settle next generation) (r'.settle next generation') := by
  have hoffset : r'.cursor.offset = r.cursor.offset := by rw [cursor]
  rw [settle, settle, hoffset]
  by_cases hnext : r.cursor.offset < next.offset
  · rw [if_pos hnext, if_pos hnext]
    exact moved
  · rw [if_neg hnext, if_neg hnext]
    by_cases hsame : r.stack.generation = generation
    · rw [if_pos hsame, if_pos (changed.2 hsame)]
      have hsteps : ({ r' with zeroSteps := r.zeroSteps } : Run) = r' := by rw [← zeroSteps]
      have hrefused := refused r.zeroSteps .stackUnchanged
      rwa [hsteps] at hrefused
    · rw [if_neg hsame, if_neg (mt changed.1 hsame), zeroSteps]
      dsimp only
      split
      · exact refused _ _
      · exact counted _

theorem settle_of_changed {r : Run} {next : Cursor} {generation : Nat}
    (hstill : next.offset ≤ r.position) (hchanged : r.stack.generation ≠ generation) :
    r.settle next generation =
      if maxZeroSteps < r.zeroSteps + 1 then
        (({ r with zeroSteps := r.zeroSteps + 1 } : Run).warn .tooManySteps).fallback
      else { r with zeroSteps := r.zeroSteps + 1 } := by
  have hstill : ¬r.cursor.offset < next.offset := Nat.not_lt.2 hstill
  rw [settle, if_neg hstill, if_neg hchanged]

theorem steps_settle {r r' : Run} {piece : List Char} {next : Cursor}
    (hpasses : r.cursor.Passes piece next) (hemits : r.Emits r.position piece r')
    (hend : r.cursor.ahead ≠ []) (generation : Nat) :
    ∃ piece, r.Steps piece (r'.settle next generation) := by
  obtain ⟨c, rest, hahead⟩ := List.exists_cons_of_ne_nil hend
  rw [settle]
  split
  · next hlt =>
    have hne : piece ≠ [] := by
      rintro rfl
      rw [hemits.cursor, hpasses.eq_of_nil] at hlt
      omega
    exact ⟨piece, hemits.lexer, hemits.depth, hpasses, hemits.tokens, fun h => absurd h hne,
      fun _ => rfl⟩
  · next hle =>
    have hnil : piece = [] := hpasses.nil_of_offset_le (by rw [hemits.cursor] at hle; omega)
    subst hnil
    split
    · exact ⟨[c], hemits.steps_fallback hahead r'.zeroSteps _⟩
    · dsimp only
      split
      · exact ⟨[c], hemits.steps_fallback hahead _ _⟩
      · next hfew =>
        refine ⟨[], hemits.lexer, hemits.depth, ?_, hemits.tokens, fun _ => ?_, by simp⟩
        · simpa [hemits.cursor] using Cursor.Passes.refl r.cursor
        · exact ⟨by rw [hemits.zeroSteps], Nat.le_of_not_lt hfew⟩

theorem steps_step {runner? : Option Runner}
    (hrunner : ∀ runner ∈ runner?, Runner.Covering runner) {r : Run} (hend : r.cursor.ahead ≠ []) :
    ∃ piece, r.Steps piece (r.step runner?) := by
  rw [step_eq]
  split
  · obtain ⟨c, rest, hahead⟩ := List.exists_cons_of_ne_nil hend
    exact ⟨[c], steps_fallback rfl rfl rfl rfl hahead⟩
  · next rule found hwinner =>
    obtain ⟨piece, hpasses, hemits⟩ := emits_follow hrunner r rule (firstMatch_some hwinner).2
    exact steps_settle hpasses hemits hend _

end Run

end RuleLexer
