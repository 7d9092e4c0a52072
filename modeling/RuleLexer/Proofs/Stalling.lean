import RuleLexer.Proofs.Played
import RuleLexer.Proofs.Progress

/-! Steps without progress. A step stalls when its rule leaves the cursor where it is and either
leaves the stack as it is, too, or changes it once more than is allowed in a row. A run says that
there was no progress when it has stalled, or a run within it has, and never otherwise. -/
namespace RuleLexer
open RuleLexer.Text RuleLexer.Coverage

namespace Run
variable {r : Run} {reason : NoProgress}

theorem follow_kept {rule : CompiledRule} {found : Match}
    (hwinner : r.winner? = some (rule, found)) :
    let followed := (r.follow (runner? r.levels) rule found).1
    followed.cursor = r.cursor ∧ followed.lexer = r.lexer ∧
      followed.zeroSteps = r.zeroSteps ∧ followed.warned = r.warned := by
  obtain ⟨_, -, hemits⟩ :=
    emits_follow (runner?_covering r.levels) r rule (firstMatch_some hwinner).2
  exact ⟨hemits.cursor, hemits.lexer, hemits.zeroSteps, (changes_follow _ r rule found).warned⟩

/-- A step that moves or changes the stack is accepted, unless too many before it stayed. -/
theorem scan_of_progress {rule : CompiledRule} {found : Match}
    (hwinner : r.winner? = some (rule, found)) (hfew : r.zeroSteps < maxZeroSteps) :
    let followed := r.follow (runner? r.levels) rule found
    (r.position < followed.2.offset ∨ followed.1.stack.generation ≠ r.stack.generation) →
      (∀ reason, ¬r.Stalls reason) ∧ r.scan = { followed.1 with
        cursor := followed.2
        zeroSteps := if r.position < followed.2.offset then 0 else r.zeroSteps + 1 } := by
  intro followed hprogress
  obtain ⟨piece, hpasses, hemits⟩ :=
    emits_follow (runner?_covering r.levels) r rule (firstMatch_some hwinner).2
  have hposition : followed.1.position = r.position := congrArg Cursor.offset hemits.cursor
  constructor
  · rintro reason ⟨rule', found', hwinner', hstuck⟩
    cases hwinner.symm.trans hwinner'
    rw [stuck?, hposition, hemits.zeroSteps] at hstuck
    split at hstuck
    · cases hstuck
    · next hstill =>
      rw [if_neg (hprogress.resolve_left hstill), if_neg (by omega)] at hstuck
      cases hstuck
  · rw [scan_of_winner hwinner]
    by_cases hmoves : r.position < followed.2.offset
    · rw [settle_of_lt (hposition.symm ▸ hmoves), if_pos hmoves]
    · have hstill : followed.2.offset ≤ followed.1.position := by rw [hposition]; omega
      have hpiece : piece = [] := hpasses.nil_of_offset_le (Nat.le_of_not_lt hmoves)
      subst hpiece
      have hcursor : followed.2 = followed.1.cursor := by rw [hpasses.eq_of_nil, hemits.cursor]
      rw [settle_of_changed hstill (hprogress.resolve_left hmoves), if_neg hmoves,
        if_neg (by rw [hemits.zeroSteps]; omega), hcursor, hemits.zeroSteps]

structure Accepts (r : Run) (rule : CompiledRule) (found : Match) (piece : List Char) : Prop where
  smooth : ∀ reason, ¬r.Stalls reason
  lexer : r.scan.lexer = r.lexer
  passes : r.cursor.Passes piece r.scan.cursor
  stack : r.scan.stack = (r.follow (runner? r.levels) rule found).1.stack
  pending : r.scan.pending = (r.follow (runner? r.levels) rule found).1.pending
  zeroSteps : r.scan.zeroSteps = if piece = [] then r.zeroSteps + 1 else 0

theorem accepts_of_progress {rule : CompiledRule} {found : Match}
    (hwinner : r.winner? = some (rule, found)) (hfew : r.zeroSteps < maxZeroSteps)
    {piece : List Char}
    (hpasses : r.cursor.Passes piece (r.follow (runner? r.levels) rule found).2)
    (hprogress : piece ≠ [] ∨
      (r.follow (runner? r.levels) rule found).1.stack.generation ≠ r.stack.generation) :
    r.Accepts rule found piece := by
  have hmoves : r.position < (r.follow (runner? r.levels) rule found).2.offset ↔ piece ≠ [] := by
    refine ⟨?_, hpasses.offset_lt⟩
    rintro hlt rfl
    rw [hpasses.eq_of_nil, position] at hlt
    exact Nat.lt_irrefl _ hlt
  obtain ⟨hsmooth, hscan⟩ := scan_of_progress hwinner hfew (hprogress.imp_left hmoves.2)
  obtain ⟨-, hlexer, -, -⟩ := follow_kept hwinner
  rw [ite_congr (propext hmoves) (fun _ => rfl) (fun _ => rfl)] at hscan
  refine ⟨hsmooth, ?_, ?_, ?_, ?_, ?_⟩ <;> rw [hscan]
  · exact hlexer
  · exact hpasses
  · simp

/-- `r'` is a step behind `r` that has emitted a piece of the text under one category. -/
structure Emitted (r : Run) (category : Category) (op? : Option (StackOp StateId))
    (piece : List Char) (r' : Run) : Prop where
  lexer : r'.lexer = r.lexer
  passes : r.cursor.Passes piece r'.cursor
  stack : r'.stack = r.stack.applied op?
  pending : r'.pending = r.pending ++ tokensOf r.position category piece
  zeroSteps : r'.zeroSteps = if piece = [] then r.zeroSteps + 1 else 0

theorem scan_emit {rule : CompiledRule} {found : Match} (hwinner : r.winner? = some (rule, found))
    {category : Category} (haction : rule.action = .emit category)
    (hfew : r.zeroSteps < maxZeroSteps)
    (hprogress : r.cursor.upTo found.stop ≠ [] ∨
      (r.stack.applied rule.op?).generation ≠ r.stack.generation) :
    (∀ reason, ¬r.Stalls reason) ∧
      r.Emitted category rule.op? (r.cursor.upTo found.stop) r.scan := by
  have hfits := (firstMatch_some hwinner).2
  have hplain : ∀ f, rule.action ≠ .callback f := by simp [haction]
  have hstack := r.stack_follow (runner? r.levels) rule found hplain
  have hpending : (r.follow (runner? r.levels) rule found).1.pending =
      r.pending ++ tokensOf r.position category (r.cursor.upTo found.stop) := by
    rw [r.pending_follow (runner? r.levels) rule found hplain, haction, position, ← hfits.start]
    simp [Match.pieces, Piece.tokens]
  obtain ⟨-, hnext⟩ := r.follow_plain (runner? r.levels) rule found hplain
  have haccepts := accepts_of_progress hwinner hfew
    (hnext ▸ (Cursor.passes_boundary hfits.stop).1) (hstack ▸ hprogress)
  exact ⟨haccepts.smooth, haccepts.lexer, haccepts.passes, haccepts.stack.trans hstack,
    haccepts.pending.trans hpending, haccepts.zeroSteps⟩

/-- Only the last of too many steps stalls although the stack has changed. -/
theorem Stalls.zeroSteps (h : r.Stalls .tooManySteps) (hsteady : r.Steady) :
    r.zeroSteps = maxZeroSteps := by
  obtain ⟨rule, found, hwinner, hstuck⟩ := h
  obtain ⟨-, -, hzero, -⟩ := follow_kept hwinner
  rw [stuck?, hzero] at hstuck
  rw [Steady] at hsteady
  split at hstuck
  · cases hstuck
  · split at hstuck
    · cases hstuck
    · split at hstuck
      · omega
      · cases hstuck

theorem Lingers.stalls (h : r.Lingers) (hmany : r.zeroSteps = maxZeroSteps) :
    r.Stalls .tooManySteps := by
  obtain ⟨rule, found, hwinner, hnext, hgeneration⟩ := h
  obtain ⟨hcursor, -, hzero, -⟩ := follow_kept hwinner
  have hstill : ¬r.cursor.offset < (r.follow (runner? r.levels) rule found).2.offset :=
    Nat.not_lt.2 hnext
  refine ⟨rule, found, hwinner, ?_⟩
  rw [stuck?, position, hcursor, if_neg hstill, if_neg hgeneration, hzero, if_pos (by omega)]

theorem Stalls.scan_eq (h : r.Stalls reason) : ∃ r' : Run, r'.cursor = r.cursor ∧
    r'.lexer = r.lexer ∧ r'.warned = r.warned ∧ r.scan = (r'.warn reason).fallback := by
  obtain ⟨rule, found, hwinner, hstuck⟩ := h
  obtain ⟨hcursor, hlexer, -, hwarned⟩ := follow_kept hwinner
  rcases (r.follow (runner? r.levels) rule found).1.settle_cases
    (r.follow (runner? r.levels) rule found).2 r.stack.generation with
    ⟨hnone, -⟩ | ⟨_, hsome, zeroSteps, hsettle⟩
  · rw [hstuck] at hnone
    cases hnone
  · cases hsome.symm.trans hstuck
    refine ⟨{ (r.follow (runner? r.levels) rule found).1 with zeroSteps }, hcursor, hlexer, hwarned,
      ?_⟩
    rw [scan_of_winner hwinner, hsettle]

theorem warned_fallback (r : Run) : r.fallback.warned = r.warned := by
  cases hahead : r.cursor.ahead with
  | nil => rw [fallback, hahead]
  | cons c rest => rw [fallback_eq hahead]

theorem Stalls.noted (h : r.Stalls reason) (hend : r.cursor.ahead ≠ [])
    (hfirst : r.warned = false) :
    ∃ state, .noProgress reason r.position r.lexer.name state ∈ r.scan.notices := by
  obtain ⟨r', hcursor, hlexer, hwarned, hscan⟩ := h.scan_eq
  obtain ⟨c, rest, hahead⟩ := List.exists_cons_of_ne_nil hend
  have hplace : (r'.warn reason).cursor = r.cursor := by rw [warn_eq, hcursor]
  have hnoted : (r'.warn reason).notices =
      .noProgress reason r.position r.lexer.name r'.stateName :: r'.notices := by
    rw [warn, hwarned, hfirst, position, hcursor, hlexer]
    rfl
  refine ⟨r'.stateName, ?_⟩
  rw [hscan]
  refine (adds_fallback (hplace.symm ▸ hahead)).subset ?_
  rw [hnoted]
  exact List.mem_cons_self

theorem stalls_or_warned (r : Run) : (∃ reason, r.Stalls reason) ∨ r.scan.warned = r.warned := by
  cases hwinner : r.winner? with
  | none =>
    have hscan : r.scan = r.fallback := by rw [scan, step_eq, hwinner]
    exact .inr (hscan ▸ r.warned_fallback)
  | some winner =>
    obtain ⟨rule, found⟩ := winner
    rcases (r.follow (runner? r.levels) rule found).1.settle_cases
      (r.follow (runner? r.levels) rule found).2 r.stack.generation with
      ⟨-, cursor, zeroSteps, hsettle⟩ | ⟨reason, hsome, -⟩
    · rw [scan_of_winner hwinner, hsettle]
      exact .inr (follow_kept hwinner).2.2.2
    · exact .inl ⟨reason, rule, found, hwinner, hsome⟩

/-- A run that has warned has noted why. -/
def Honest (r : Run) : Prop :=
  r.warned → ∃ reason offset name state, .noProgress reason offset name state ∈ r.notices

theorem Honest.scan (h : r.Honest) (hend : r.cursor.ahead ≠ []) : r.scan.Honest := by
  intro hwarned
  cases hbefore : r.warned with
  | true =>
    obtain ⟨reason, offset, name, state, hnoted⟩ := h hbefore
    exact ⟨reason, offset, name, state, (adds_scan hend).subset hnoted⟩
  | false =>
    rcases r.stalls_or_warned with ⟨reason, hstalls⟩ | hsame
    · obtain ⟨state, hnoted⟩ := hstalls.noted hend hbefore
      exact ⟨reason, _, _, state, hnoted⟩
    · rw [hsame, hbefore] at hwarned
      cases hwarned

end Run

namespace Point

structure Stalls (p : Point) (reason : NoProgress) : Prop where
  pending : p.run.pending = []
  ahead : p.run.cursor.ahead ≠ []
  refused : p.run.Stalls reason

theorem honest_after {r : Run} (h : r.warned = false) (turns : Nat) : (after turns r).run.Honest :=
  after_induction (fun hwarned => by rw [h] at hwarned; cases hwarned) (fun _ _ h => h)
    (fun _ _ hend h => h.scan hend) turns

theorem Stalls.exists_noted {r : Run} {turns : Nat} {reason : NoProgress}
    (h : (after turns r).Stalls reason) (hr : r.warned = false) :
    ∃ reason offset name state,
      .noProgress reason offset name state ∈ (after (turns + 1) r).run.notices := by
  have hturn := turn_of_scan h.pending h.ahead
  rw [after_succ, hturn]
  cases hwarned : (after turns r).run.warned with
  | true =>
    obtain ⟨reason, offset, name, state, hnoted⟩ := honest_after hr turns hwarned
    exact ⟨reason, offset, name, state, (Run.adds_scan h.ahead).subset hnoted⟩
  | false =>
    obtain ⟨state, hnoted⟩ := h.refused.noted h.ahead hwarned
    exact ⟨reason, _, _, state, hnoted⟩

def Explained (r : Run) (p : Point) : Prop :=
  ∀ reason offset name state, .noProgress reason offset name state ∈ p.run.notices →
    ∃ inner turns, r.Within inner ∧ (after turns inner).Stalls reason ∧
      (after turns inner).run.position = offset ∧ (after turns inner).run.lexer.name = name

theorem Explained.scan {r : Run} {turns : Nat} (h : Explained r (after turns r))
    (hpending : (after turns r).run.pending = []) (hend : (after turns r).run.cursor.ahead ≠ [])
    (hinner : ∀ inner ∈ (after turns r).run.nested, ∀ more, Explained inner (after more inner)) :
    Explained r (after turns r).turn := by
  intro reason offset name state hnoted
  rw [turn_of_scan hpending hend] at hnoted
  rcases (Run.adds_scan hend).mem hnoted with hnoted | hnotes
  · exact h reason offset name state hnoted
  · cases hnotes with
    | stalls hrefused => exact ⟨r, turns, .outermost, ⟨hpending, hend, hrefused⟩, rfl, rfl⟩
    | callback _ _ asked =>
      obtain ⟨t, c, hcall⟩ := asked
      cases hcall
    | nested started noted =>
      have hstarted := Run.mem_nested_of_nestedAt started
      have hpoints := hinner _ hstarted
      obtain ⟨-, job, -, rfl⟩ := Run.mem_nested hstarted
      obtain ⟨more, -, -, hnotices⟩ := Run.exists_turns_played job.lexer job.states job.text
        ((after turns r).run.depth + 1)
      obtain ⟨inner, last, hwithin, hstalls⟩ :=
        hpoints more reason offset name state (hnotices ▸ noted)
      exact ⟨inner, last, .trans (.inner turns .outermost hpending hstarted) hwithin, hstalls⟩

theorem mem_complete_of_within {l : Lexer} {states : List StateId} {text : List Char} {depth : Nat}
    {inner : Run} (h : (Run.start l states text depth).Within inner) {turns : Nat} {n : Notice}
    (hn : n ∈ (after turns inner).run.notices) :
    n ∈ (Run.start l states text depth).complete.2.notices := by
  induction h generalizing turns with
  | outermost => exact Run.mem_complete_of_after l states text depth hn
  | @inner r inner last _ hpending hinner ih =>
    obtain ⟨offset, hstarted⟩ : ∃ offset, (offset, inner) ∈ (after last r).run.nestedAt := by
      rw [← Run.snd_nestedAt] at hinner
      obtain ⟨⟨offset, _⟩, hstarted, rfl⟩ := List.mem_map.1 hinner
      exact ⟨offset, hstarted⟩
    obtain ⟨hend, hscan⟩ := Run.mem_scan_of_nested hstarted
    obtain ⟨-, job, -, rfl⟩ := Run.mem_nested hinner
    have hplayed := Run.mem_complete_of_after job.lexer job.states job.text _ hn
    refine @ih (last + 1) ?_
    rw [after_succ, turn_of_scan hpending hend]
    refine hscan n ?_
    rw [Run.played_eq_complete]
    exact hplayed

theorem explained_after (l : Lexer) (states : List StateId) (text : List Char)
    (depth turns : Nat) :
    Explained (Run.start l states text depth) (after turns (Run.start l states text depth)) := by
  refine start_induction (K := fun _ => True) (Q := Explained) ?_ ?_ (fun _ _ _ _ _ => trivial)
    (fun r turns hpending hend h hinner => h.scan hpending hend hinner) trivial turns
  · intro l states text depth _ reason offset name state hnoted
    cases hnoted
  · intro r p t pending hpending h reason offset name state hnoted
    rw [turn_of_pending hpending] at hnoted
    exact h reason offset name state hnoted

end Point

/-- A run says that there was no progress exactly if a step of it or of a run within it stalls; it
says so of such a step only, and one that stalls although its rule has changed the stack is the last
of as many in a row as are allowed. -/
theorem no_progress_noted (l : Lexer) (states : List StateId) (text : List Char) (depth : Nat) :
    let r := Run.start l states text depth
    (∀ reason offset name state,
      .noProgress reason offset name state ∈ r.complete.2.notices →
        ∃ inner turns, r.Within inner ∧ (Point.after turns inner).Stalls reason ∧
          (Point.after turns inner).run.position = offset ∧
          (Point.after turns inner).run.lexer.name = name) ∧
    (∀ inner turns reason, r.Within inner → (Point.after turns inner).Stalls reason →
      (∃ reason offset name state,
        .noProgress reason offset name state ∈ r.complete.2.notices) ∧
      (reason = .tooManySteps → (Point.after turns inner).stays = maxZeroSteps)) := by
  intro r
  constructor
  · obtain ⟨turns, -, -, hrun⟩ := Run.exists_turns_complete l states text depth
    exact hrun ▸ Point.explained_after l states text depth turns
  · intro inner turns reason hwithin hstalls
    obtain ⟨lexer, states', text', depth', rfl⟩ : ∃ lexer states text depth,
        inner = Run.start lexer states text depth := by
      rcases hwithin.start_eq with rfl | ⟨lexer, states, text, depth, -, rfl⟩
      · exact ⟨l, states, text, depth, rfl⟩
      · exact ⟨lexer, states, text, depth, rfl⟩
    constructor
    · obtain ⟨reason, offset, name, state, hnoted⟩ := hstalls.exists_noted rfl
      exact ⟨reason, offset, name, state, Point.mem_complete_of_within hwithin hnoted⟩
    · rintro rfl
      have hp := Point.Holds.after lexer states' text' depth' turns
      exact hp.stays ▸ hstalls.refused.zeroSteps hp.steady

end RuleLexer
