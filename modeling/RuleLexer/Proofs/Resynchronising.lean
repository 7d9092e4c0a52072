import RuleLexer.Proofs.Lockstep
import RuleLexer.Proofs.Stalling

/-! Line ends. Where the table says so, a newline that is emitted by itself resets the stack, and with
it all that told two runs over the same text apart: what they still differ in are the generation of
the stack, the memo, and what has been noted, and without callbacks none of it decides what comes. -/
namespace RuleLexer
open RuleLexer.Text RuleLexer.Coverage

namespace Stack

/-- What becomes of a stack does not depend on its generation, and nor does how far the generation
is moved on. -/
def Uniform {α : Type} (f : Stack → Stack × α) : Prop :=
  ∀ s : Stack, ∃ changes, ∀ generation, f { s with generation } =
    ({ (f s).1 with generation := generation + changes }, (f s).2)

theorem uniform_push (state : StateId) : Uniform (·.push state) := by
  intro s
  by_cases hfull : maxDepth ≤ s.depth
  · refine ⟨0, fun generation => ?_⟩
    have hfull' : maxDepth ≤ ({ s with generation } : Stack).depth := hfull
    simp [push, hfull, hfull']
  · refine ⟨1, fun generation => ?_⟩
    have hfull' : ¬maxDepth ≤ ({ s with generation } : Stack).depth := hfull
    simp [push, hfull, hfull', entries]

theorem uniform_pushAll (states : List StateId) : Uniform (·.pushAll states) := by
  induction states with
  | nil => exact fun s => ⟨0, fun _ => rfl⟩
  | cons state states ih =>
    intro s
    obtain ⟨first, hfirst⟩ := uniform_push state s
    obtain ⟨rest, hrest⟩ := ih (s.push state).1
    refine ⟨first + rest, fun generation => ?_⟩
    simp only [pushAll] at hfirst hrest ⊢
    rw [hfirst, hrest, Nat.add_assoc]

theorem uniform_pop (count : Nat) : Uniform (·.pop count) := by
  intro s
  have hentries : ∀ generation, ({ s with generation } : Stack).entries = s.entries :=
    fun _ => rfl
  have hkept : s.entries.drop (min count s.below.length) ≠ [] := by
    rw [Ne, List.drop_eq_nil_iff, entries, List.length_cons]
    omega
  obtain ⟨top, below, hdrop⟩ := List.exists_cons_of_ne_nil hkept
  by_cases hnone : min count s.below.length = 0
  · refine ⟨0, fun generation => ?_⟩
    simp only [pop, hentries, hdrop, if_pos hnone, Nat.add_zero]
  · refine ⟨1, fun generation => ?_⟩
    simp only [pop, hentries, hdrop, if_neg hnone]

theorem uniform_ofList (states : List StateId) (state : StateId) :
    Uniform fun s => (ofList (s.generation + 1) states state, 0) := by
  intro s
  refine ⟨1, fun generation => ?_⟩
  simp only [ofList]
  split <;> rfl

theorem uniform_replace (states : List StateId) : Uniform (·.replace states) := by
  intro s
  cases states with
  | nil =>
    obtain ⟨changes, h⟩ := uniform_pop 1 s
    refine ⟨changes, fun generation => ?_⟩
    simp only [replace] at h ⊢
    rw [h]
  | cons state states =>
    cases hbelow : s.below with
    | nil =>
      obtain ⟨changes, h⟩ := uniform_ofList (state :: states) state s
      refine ⟨changes, fun generation => ?_⟩
      simp only [replace, hbelow]
      exact h generation
    | cons top below =>
      obtain ⟨changes, h⟩ := uniform_pushAll (state :: states) ⟨top, below, s.generation + 1⟩
      refine ⟨1 + changes, fun generation => ?_⟩
      have hmore := h (generation + 1)
      simp only [replace, hbelow] at hmore ⊢
      rw [hmore, Nat.add_assoc]

theorem uniform_reset (state : StateId) : Uniform fun s => (s.reset state, 0) := by
  intro s
  by_cases hsame : s.below = [] ∧ s.top = state
  · exact ⟨0, fun generation => by simp [reset, hsame]⟩
  · exact ⟨1, fun generation => by simp [reset, hsame]⟩

theorem uniform_apply (op : StackOp StateId) : Uniform (·.apply op) := by
  intro s
  cases op with
  | push states => exact uniform_pushAll states s
  | pushCurrent => exact uniform_pushAll [s.top] s
  | pop count =>
    obtain ⟨changes, h⟩ := uniform_pop count s
    refine ⟨changes, fun generation => ?_⟩
    simp only [apply] at h ⊢
    rw [h]
  | replace states => exact uniform_replace states s
  | reset state => exact uniform_reset state s

theorem Uniform.congr {α : Type} {f : Stack → Stack × α} (hf : Uniform f) {s s' : Stack}
    (h : s'.entries = s.entries) :
    (f s').1.entries = (f s).1.entries ∧ (f s').2 = (f s).2 ∧
      ∃ changes, (f s).1.generation = s.generation + changes ∧
        (f s').1.generation = s'.generation + changes := by
  obtain ⟨changes, hchanges⟩ := hf s
  obtain ⟨htop, hbelow⟩ := List.cons.inj h
  have hsame : s' = { s with generation := s'.generation } := by rw [← htop, ← hbelow]
  have hfirst := hchanges s.generation
  have hsecond := hchanges s'.generation
  rw [← hsame] at hsecond
  refine ⟨?_, ?_, changes, ?_, ?_⟩
  · rw [hsecond]
    rfl
  · rw [hsecond]
  · exact congrArg (·.1.generation) hfirst
  · rw [hsecond]

end Stack

namespace Run

/-- The runs differ at most in the generation of their stacks, their memos, whether they have warned
and what they have noted. -/
structure Twin (r r' : Run) : Prop where
  lexer : r'.lexer = r.lexer
  cursor : r'.cursor = r.cursor
  entries : r'.stack.entries = r.stack.entries
  pending : r'.pending = r.pending
  zeroSteps : r'.zeroSteps = r.zeroSteps
  depth : r'.depth = r.depth

namespace Twin
variable {r r' : Run}

theorem warn (h : r.Twin r') (reason : NoProgress) : (r.warn reason).Twin (r'.warn reason) := by
  rw [warn_eq r, warn_eq r']
  exact ⟨h.lexer, h.cursor, h.entries, h.pending, h.zeroSteps, h.depth⟩

theorem fallback (h : r.Twin r') : r.fallback.Twin r'.fallback := by
  cases hahead : r.cursor.ahead with
  | nil =>
    have hahead' : r'.cursor.ahead = [] := by rw [h.cursor, hahead]
    rw [Run.fallback, Run.fallback, hahead, hahead']
    exact h
  | cons c rest =>
    have hahead' : r'.cursor.ahead = c :: rest := by rw [h.cursor, hahead]
    have htable : r'.table = r.table := by rw [table, table, h.lexer]
    have hposition : r'.position = r.position := by rw [position, position, h.cursor]
    rw [fallback_eq hahead, fallback_eq hahead']
    refine ⟨h.lexer, ?_, ?_, ?_, rfl, h.depth⟩
    · rw [h.cursor, hposition]
    · simp only [htable]
      split
      · rw [Stack.entries_reset, Stack.entries_reset]
      · exact h.entries
    · simp only [fallbackCategory, htable, hposition, h.pending]

theorem settle (h : r.Twin r') (next : Cursor) {generation generation' : Nat}
    (hsame : r'.stack.generation = generation' ↔ r.stack.generation = generation) :
    (r.settle next generation).Twin (r'.settle next generation') := by
  have hcounted : ∀ zeroSteps, ({ r with zeroSteps } : Run).Twin { r' with zeroSteps } :=
    fun _ => ⟨h.lexer, h.cursor, h.entries, h.pending, rfl, h.depth⟩
  exact settle_rel h.cursor h.zeroSteps hsame
    ⟨h.lexer, rfl, h.entries, h.pending, rfl, h.depth⟩ hcounted
    fun zeroSteps reason => ((hcounted zeroSteps).warn reason).fallback

theorem change (h : r.Twin r') (op : StackOp StateId) : (r.change op).Twin (r'.change op) := by
  have hentries := ((Stack.uniform_apply op).congr h.entries).1
  rw [change_eq r, change_eq r']
  exact ⟨h.lexer, h.cursor, hentries, h.pending, h.zeroSteps, h.depth⟩

theorem follow (h : r.Twin r') (runner? : Option Runner) {rule : CompiledRule}
    (hplain : ∀ f, rule.action ≠ .callback f) (found : Match) :
    (r.follow runner? rule found).1.Twin (r'.follow runner? rule found).1 ∧
      (r'.follow runner? rule found).2 = (r.follow runner? rule found).2 ∧
      ((r'.follow runner? rule found).1.stack.generation = r'.stack.generation ↔
        (r.follow runner? rule found).1.stack.generation = r.stack.generation) := by
  let pieces := found.pieces r.cursor rule.action
  have hpieces : found.pieces r'.cursor rule.action = pieces := by rw [h.cursor]
  have hput : (r.putAll runner? pieces).Twin (r'.putAll runner? pieces) := by
    rw [putAll_eq runner? r, putAll_eq runner? r', h.lexer]
    exact ⟨rfl, h.cursor, h.entries, by rw [h.pending], h.zeroSteps, h.depth⟩
  have hstack : (r.putAll runner? pieces).stack = r.stack := by rw [putAll_eq]
  have hstack' : (r'.putAll runner? pieces).stack = r'.stack := by rw [putAll_eq]
  rw [Run.follow, Run.follow, act_eq _ _ _ _ hplain, act_eq _ _ _ _ hplain, hpieces, h.cursor]
  cases rule.op? with
  | none =>
    refine ⟨hput, rfl, ?_⟩
    simp only [hstack, hstack', pieces]
  | some op =>
    refine ⟨hput.change op, rfl, ?_⟩
    obtain ⟨-, -, changes, hfirst, hsecond⟩ := (Stack.uniform_apply op).congr h.entries
    have hchange : ∀ s : Run, (s.change op).stack = (s.stack.apply op).1 := fun s => by
      rw [change_eq]
    dsimp only
    rw [hchange, hchange, hstack, hstack', hfirst, hsecond]
    omega

theorem scan (h : r.Twin r')
    (hplain : ∀ rules ∈ r.table.rules, ∀ rule ∈ rules, ∀ f, rule.action ≠ .callback f) :
    r.scan.Twin r'.scan := by
  have hwinner : r'.winner? = r.winner? := by
    have htop := (List.cons.inj h.entries).1
    rw [winner?, winner?, table, table, h.lexer, h.cursor, htop]
  have hlevels : r'.levels = r.levels := by rw [levels, levels, h.depth]
  cases hfirst : r.winner? with
  | none =>
    rw [Run.scan, Run.scan, step_eq, step_eq, hwinner, hfirst]
    exact h.fallback
  | some winner =>
    obtain ⟨rule, found⟩ := winner
    obtain ⟨rules, hrules, hrule⟩ := exists_rules_of_winner hfirst
    obtain ⟨htwin, hnext, hsame⟩ := h.follow (runner? r.levels) (hplain rules hrules rule hrule) found
    rw [scan_of_winner hfirst, scan_of_winner (hwinner.trans hfirst), hlevels, hnext]
    exact htwin.settle _ hsame

end Twin

/-- The character at the cursor is emitted by itself: no rule matches, or the step of the one that
wins is refused. -/
def GivesUp (r : Run) : Prop := r.winner? = none ∨ ∃ reason, r.Stalls reason

theorem GivesUp.scan_eq {r : Run} (h : r.GivesUp) : ∃ r' : Run, r'.lexer = r.lexer ∧
    r'.cursor = r.cursor ∧ r'.pending = r.pending ∧ r'.depth = r.depth ∧
      r.scan = r'.fallback := by
  rcases h with hnone | ⟨reason, rule, found, hwinner, hstuck⟩
  · have hscan : r.scan = r.fallback := by rw [scan, step_eq, hnone]
    exact ⟨r, rfl, rfl, rfl, rfl, hscan⟩
  · obtain ⟨piece, hpasses, hemits⟩ :=
      emits_follow (runner?_covering r.levels) r rule (firstMatch_some hwinner).2
    have hstill : (r.follow (runner? r.levels) rule found).2.offset ≤ r.cursor.offset := by
      refine Nat.le_of_not_lt fun hmoves => ?_
      rw [stuck?, position, hemits.cursor, if_pos hmoves] at hstuck
      cases hstuck
    have hpiece := hpasses.nil_of_offset_le hstill
    subst hpiece
    have hpending := hemits.pending_eq
    have hsettle := (r.follow (runner? r.levels) rule found).1.settle_cases
      (r.follow (runner? r.levels) rule found).2 r.stack.generation
    rw [hstuck] at hsettle
    obtain ⟨hnone, -⟩ | ⟨_, -, zeroSteps, hrefused⟩ := hsettle
    · cases hnone
    · refine ⟨_, ?_, ?_, ?_, ?_, (scan_of_winner hwinner).trans hrefused⟩ <;> rw [warn_eq]
      exacts [hemits.lexer, hemits.cursor, hpending, hemits.depth]

theorem GivesUp.newline {r : Run} (h : r.GivesUp) {rest : List Char}
    (hahead : r.cursor.ahead = '\n' :: rest) (hresets : r.table.resetsOnNewline) :
    r.scan.cursor = r.cursor.seek (r.position + 1) ∧ r.scan.stack.entries = [r.table.root] ∧
      r.scan.pending = r.pending ++ [⟨r.position, .text, "\n"⟩] ∧ r.scan.zeroSteps = 0 := by
  obtain ⟨r', hlexer, hcursor, hpending, -, hscan⟩ := h.scan_eq
  have htable : r'.table = r.table := by rw [table, table, hlexer]
  have hposition : r'.position = r.position := by rw [position, position, hcursor]
  have hcategory : r'.fallbackCategory '\n' = .text := by simp [fallbackCategory, htable, hresets]
  rw [hscan, fallback_eq (hcursor.symm ▸ hahead)]
  refine ⟨by rw [hcursor, hposition], ?_, ?_, rfl⟩
  · simp [htable, hresets, Stack.entries_reset]
  · rw [hpending, hposition, hcategory]

end Run

namespace Point

/-- The run is about to emit the newline at `place` by itself. -/
structure AtNewline (p : Point) (place : Nat) : Prop where
  pending : p.run.pending = []
  position : p.run.position = place
  newline : ∃ rest, p.run.cursor.ahead = '\n' :: rest
  givesUp : p.run.GivesUp

theorem Holds.cursor_eq {l : Lexer} {text : List Char} {depth : Nat} {p : Point}
    (h : Holds l text depth p) : p.run.cursor = (Cursor.start text).seek p.run.position :=
  (Cursor.seek_of_passes h.passes).symm

theorem AtNewline.turn_eq {p : Point} {place : Nat} (h : p.AtNewline place) :
    p.turn.run = p.run.scan ∧ p.turn.taken = p.taken := by
  obtain ⟨rest, hahead⟩ := h.newline
  rw [turn_of_scan h.pending (by simp [hahead])]
  exact ⟨rfl, rfl⟩

theorem AtNewline.emits {l : Lexer} {text : List Char} {depth place : Nat} {p : Point}
    (hresets : l.table.resetsOnNewline) (hp : Holds l text depth p) (h : p.AtNewline place) :
    p.turn.run.pending = [⟨place, .text, "\n"⟩] ∧ p.turn.run.stack.toList = [l.table.root] := by
  obtain ⟨rest, hahead⟩ := h.newline
  have htable : p.run.table = l.table := congrArg _ hp.lexer
  obtain ⟨-, hstack, hpending, -⟩ := h.givesUp.newline hahead (by rwa [htable])
  rw [h.turn_eq.1, hpending, h.pending, h.position, Stack.toList, hstack, htable]
  exact ⟨rfl, rfl⟩

/-- Behind the newline, the runs differ in nothing that counts. -/
theorem AtNewline.twin {l : Lexer} {text : List Char} {depth place : Nat} {p p' : Point}
    (hresets : l.table.resetsOnNewline) (hp : Holds l text depth p) (hp' : Holds l text depth p')
    (h : p.AtNewline place) (h' : p'.AtNewline place) : p.run.scan.Twin p'.run.scan := by
  obtain ⟨rest, hahead⟩ := h.newline
  obtain ⟨rest', hahead'⟩ := h'.newline
  have hcursor : p'.run.cursor = p.run.cursor := by
    rw [hp.cursor_eq, hp'.cursor_eq, h.position, h'.position]
  have htable : p.run.table = l.table := congrArg _ hp.lexer
  have htable' : p'.run.table = l.table := congrArg _ hp'.lexer
  obtain ⟨hplace, hstack, hpending, hzero⟩ :=
    h.givesUp.newline hahead (by rwa [htable])
  obtain ⟨hplace', hstack', hpending', hzero'⟩ :=
    h'.givesUp.newline hahead' (by rwa [htable'])
  obtain ⟨_, hstep⟩ := Run.steps_scan (r := p.run) (by simp [hahead])
  obtain ⟨_, hstep'⟩ := Run.steps_scan (r := p'.run) (by simp [hahead'])
  refine ⟨?_, ?_, ?_, ?_, ?_, ?_⟩
  · rw [hstep.lexer, hstep'.lexer, hp.lexer, hp'.lexer]
  · rw [hplace, hplace', hcursor, h.position, h'.position]
  · rw [hstack, hstack', htable, htable']
  · rw [hpending, hpending', h.pending, h'.pending, h.position, h'.position]
  · rw [hzero, hzero']
  · rw [hstep.depth, hstep'.depth, hp.depth, hp'.depth]

/-- Points of two runs of a lexer that differ in nothing that counts, and have given out the same
tokens since they left two others. -/
structure Twins (l : Lexer) (taken taken' : List Token) (q q' : Point) : Prop where
  lexer : q.run.lexer = l
  run : q.run.Twin q'.run
  given : ∃ given, q.taken = taken ++ given ∧ q'.taken = taken' ++ given

theorem Twins.iterate {l : Lexer} {p p' : Point}
    (hplain : ∀ rules ∈ l.table.rules, ∀ rule ∈ rules, ∀ f, rule.action ≠ .callback f)
    {taken taken' : List Token} (h : Twins l taken taken' p p') (turns : Nat) :
    Twins l taken taken' (turn^[turns] p) (turn^[turns] p') := by
  refine lockstep h (fun q q' h => by rw [h.run.pending]) (fun q q' h => by rw [h.run.cursor])
    (fun q q' t t' rest rest' hq hq' h => ?_) (fun turns hpending hpending' hend h => ?_) turns
  · obtain ⟨rfl, rfl⟩ : t' = t ∧ rest' = rest := by
      have hsame := h.run.pending
      rw [hq, hq'] at hsame
      exact List.cons.inj hsame
    obtain ⟨given, htaken, htaken'⟩ := h.given
    rw [turn_of_pending hq, turn_of_pending hq']
    refine ⟨h.lexer, ⟨h.run.lexer, h.run.cursor, h.run.entries, rfl, h.run.zeroSteps, h.run.depth⟩,
      given ++ [l.recategorise t'], ?_, ?_⟩
    · rw [htaken, h.lexer, List.append_assoc]
    · rw [htaken', h.run.lexer, h.lexer, List.append_assoc]
  · generalize turn^[turns] p = q at hpending hend h
    generalize turn^[turns] p' = q' at hpending' h
    have hend' : q'.run.cursor.ahead ≠ [] := by rwa [h.run.cursor]
    obtain ⟨_, hstep⟩ := Run.steps_scan hend
    have htable : q.run.table = l.table := congrArg _ h.lexer
    rw [turn_of_scan hpending hend, turn_of_scan hpending' hend']
    exact ⟨hstep.lexer.trans h.lexer, h.run.scan (by rwa [htable]), h.given⟩

theorem Holds.filter_taken {l : Lexer} {text : List Char} {depth : Nat} {p : Point}
    (h : Holds l text depth p) (hpending : p.run.pending = []) :
    p.taken.filter (p.run.position < ·.offset) = [] := by
  have hcovers := h.covers
  have hposition : p.run.position = 0 + byteLength p.run.cursor.passed.reverse := h.passes.offset
  rw [hpending, List.append_nil] at hcovers
  refine List.filter_eq_nil_iff.2 fun t ht => ?_
  have hbounds := (hcovers.mem_bounds ht).2
  rw [hposition, decide_eq_true_eq]
  omega

end Point

/-- A newline resynchronises. Two runs of a lexer over a text, from any states, may come to the same
newline with nothing that matches it. If the table resets on newlines and leaves no match to a
callback, both emit it as text with nothing but the root left on their stacks, and from then on they
stand at the same places with the same stacks, and give the same tokens. -/
theorem newline_resynchronises (l : Lexer) (hresets : l.table.resetsOnNewline)
    (hplain : ∀ rules ∈ l.table.rules, ∀ rule ∈ rules, ∀ f, rule.action ≠ .callback f)
    (text : List Char) (depth : Nat) (states states' : List StateId) (turns turns' place : Nat)
    (h : (Point.after turns (Run.start l states text depth)).AtNewline place)
    (h' : (Point.after turns' (Run.start l states' text depth)).AtNewline place) :
    let r := Run.start l states text depth
    let r' := Run.start l states' text depth
    let p := Point.after (turns + 1) r
    let p' := Point.after (turns' + 1) r'
    p.run.pending = [⟨place, .text, "\n"⟩] ∧ p'.run.pending = [⟨place, .text, "\n"⟩] ∧
    p.run.stack.toList = [l.table.root] ∧ p'.run.stack.toList = [l.table.root] ∧
    (∀ more,
      let q := Point.turn^[more] p
      let q' := Point.turn^[more] p'
      q'.run.cursor = q.run.cursor ∧ q'.run.stack.toList = q.run.stack.toList ∧
        q'.run.pending = q.run.pending ∧
        ∃ given, q.taken = p.taken ++ given ∧ q'.taken = p'.taken ++ given) ∧
    r'.tokens.filter (place < ·.offset) = r.tokens.filter (place < ·.offset) := by
  intro r r' p p'
  have hholds := Point.Holds.after l states text depth turns
  have hholds' := Point.Holds.after l states' text depth turns'
  have hp : p = (Point.after turns r).turn := Point.after_succ turns r
  have hp' : p' = (Point.after turns' r').turn := Point.after_succ turns' r'
  have htwins : Point.Twins l p.taken p'.taken p p' := by
    refine ⟨(Point.Holds.after l states text depth (turns + 1)).lexer, ?_, [], ?_, ?_⟩
    · rw [hp, hp', h.turn_eq.1, h'.turn_eq.1]
      exact h.twin hresets hholds hholds' h'
    · exact (List.append_nil _).symm
    · exact (List.append_nil _).symm
  have hmore := fun more => htwins.iterate hplain more
  obtain ⟨hpending, hstack⟩ := h.emits hresets hholds
  obtain ⟨hpending', hstack'⟩ := h'.emits hresets hholds'
  rw [← hp] at hpending hstack
  rw [← hp'] at hpending' hstack'
  refine ⟨hpending, hpending', hstack, hstack', fun more => ?_, ?_⟩
  · have hrun := (hmore more).run
    exact ⟨hrun.cursor, congrArg List.reverse hrun.entries, hrun.pending, (hmore more).given⟩
  · obtain ⟨last, hdone, htokens, -⟩ := Run.exists_turns_played l states text depth
    obtain ⟨last', hdone', htokens', -⟩ := Run.exists_turns_played l states' text depth
    have hend : Point.turn^[last + last'] p = Point.after last r := by
      rw [← hdone.after_eq (Nat.le_add_right last (last' + (turns + 1))), ← Nat.add_assoc]
      exact (Function.iterate_add_apply ..).symm
    have hend' : Point.turn^[last + last'] p' = Point.after last' r' := by
      rw [← hdone'.after_eq (Nat.le_add_left last' (last + (turns' + 1))), Nat.add_right_comm]
      exact (Function.iterate_add_apply ..).symm
    obtain ⟨given, htaken, htaken'⟩ := (hmore (last + last')).given
    have hbefore : p.taken.filter (place < ·.offset) = [] := by
      rw [hp, h.turn_eq.2, ← h.position]
      exact hholds.filter_taken h.pending
    have hbefore' : p'.taken.filter (place < ·.offset) = [] := by
      rw [hp', h'.turn_eq.2, ← h'.position]
      exact hholds'.filter_taken h'.pending
    rw [Run.tokens_eq_played, Run.tokens_eq_played, ← htokens, ← htokens', ← hend, ← hend', htaken,
      htaken', List.filter_append, List.filter_append, hbefore, hbefore']

/-- Takes letters in its root, and pushes without end in its other state. -/
def spinningDraft : TableDraft where
  states := [("root", [.emit "[a-z]" .name]), ("spin", [Entry.fallthrough.push "spin"])]

def spinningTable : Table := spinningDraft.compile.toOption.get (by decide +kernel)

def spinningLexer : Lexer := ⟨⟨"spinning", [], [], []⟩, spinningTable, [0], none, []⟩

def Action.emitsMatch {δ : Type} : Action δ → Bool
  | .emit _ => true
  | _ => false

theorem not_callback_spinningTable : ∀ rules ∈ spinningTable.rules, ∀ rule ∈ rules, ∀ f,
    rule.action ≠ .callback f := by
  have hemits : spinningTable.rules.all fun rules => rules.all fun rule =>
      rule.action.emitsMatch := by decide +kernel
  intro rules hrules rule hrule f hf
  have hrule := List.all_eq_true.1 (List.all_eq_true.1 hemits rules hrules) rule hrule
  rw [hf] at hrule
  cases hrule

theorem atNewline_spinningLexer :
    (Point.after 2 (Run.start spinningLexer [0] ['a', '\n', 'b'] 0)).AtNewline 1 ∧
      (Point.after (2 * maxZeroSteps + 2)
        (Run.start spinningLexer [0, 1] ['a', '\n', 'b'] 0)).AtNewline 1 := by
  have hnone : (Point.after 2 (Run.start spinningLexer [0] ['a', '\n', 'b'] 0)).run.winner?.isNone :=
    by decide +kernel
  have hlingers : (Point.after (2 * maxZeroSteps + 2)
      (Run.start spinningLexer [0, 1] ['a', '\n', 'b'] 0)).run.Lingers := by decide +kernel
  have hstalls := hlingers.stalls (by decide +kernel)
  constructor
  · exact ⟨by decide +kernel, by decide +kernel, ⟨['b'], by decide +kernel⟩,
      .inl (Option.isNone_iff_eq_none.1 hnone)⟩
  · exact ⟨by decide +kernel, by decide +kernel, ⟨['b'], by decide +kernel⟩, .inr ⟨_, hstalls⟩⟩

theorem newline_resynchronises_spinning :
    let r := Run.start spinningLexer [0] ['a', '\n', 'b'] 0
    let r' := Run.start spinningLexer [0, 1] ['a', '\n', 'b'] 0
    (Point.after 2 r).AtNewline 1 ∧ (Point.after (2 * maxZeroSteps + 2) r').AtNewline 1 ∧
      r.tokens = [⟨0, .name, "a"⟩, ⟨1, .text, "\n"⟩, ⟨2, .name, "b"⟩] ∧
      r'.tokens = [⟨0, .text, "a"⟩, ⟨1, .text, "\n"⟩, ⟨2, .name, "b"⟩] ∧
      r'.tokens.filter (1 < ·.offset) = r.tokens.filter (1 < ·.offset) := by
  intro r r'
  obtain ⟨hfirst, hsecond⟩ := atNewline_spinningLexer
  have htokens : r.tokens = [⟨0, .name, "a"⟩, ⟨1, .text, "\n"⟩, ⟨2, .name, "b"⟩] := by
    decide +kernel
  have htokens' : r'.tokens = [⟨0, .text, "a"⟩, ⟨1, .text, "\n"⟩, ⟨2, .name, "b"⟩] := by
    decide +kernel
  obtain ⟨-, -, -, -, -, hsame⟩ := newline_resynchronises spinningLexer (by decide +kernel)
    not_callback_spinningTable ['a', '\n', 'b'] 0 [0] [0, 1] _ _ 1 hfirst hsecond
  exact ⟨hfirst, hsecond, htokens, htokens', hsame⟩

end RuleLexer
