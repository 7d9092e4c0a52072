import RuleLexer.Proofs.Callbacks
import RuleLexer.Proofs.SassRules
import RuleLexer.Proofs.Stalling

/-! Lines in Sass. However deep the states of a line lie, the step over its newline leads back to the
root, be it by the rule for the newline or because no rule takes it. What a step takes has a newline
at its end at most, and no step stalls: the states that a rule can push without taking anything lie
near the bottom of the stack, and lead on to ones where every rule takes something. -/
namespace RuleLexer.Language.Sass
open RuleLexer.Text RuleLexer.Regex RuleLexer.Coverage RuleLexer.Indentation

/-! Stacks -/

theorem length_le {state : String} {names : List String} (h : seating.Seats (state :: names))
    (hstate : state = "root" ∨ state ∈ ["content", "old-style-attr"]) :
    (state :: names).length ≤ 3 := by
  have hroot : ∀ {names}, seating.Seats ("root" :: names) → ("root" :: names).length ≤ 1 :=
    fun h => by rw [h.eq_nil]; exact Nat.le_refl 1
  have hcontent : ∀ {names}, seating.Seats ("content" :: names) →
      ("content" :: names).length ≤ 2 := by
    intro names h
    obtain ⟨rest, rfl, hrest⟩ := h.exists_seat (.head _)
    exact Nat.succ_le_succ (hroot hrest)
  simp only [List.mem_cons, List.not_mem_nil, or_false] at hstate
  rcases hstate with rfl | rfl | rfl
  · exact (hroot h).trans (by decide)
  · exact (hcontent h).trans (by decide)
  · obtain ⟨rest, rfl, hrest⟩ := h.exists_seat (.tail _ (.head _))
    exact Nat.succ_le_succ (hcontent hrest)

theorem rank_le (state : String) : rank state ≤ 2 := by
  rw [rank]
  split_ifs <;> decide

/-! Steps -/

/-- Where a run stands, and how often it can have stayed. -/
structure Stands (r : Run) (state : String) (names : List String) : Prop where
  named : r.stack.Shaped table.names (state :: names)
  seats : seating.Seats (state :: names)
  few : r.zeroSteps ≤ rank state

/-- The next step does not stall, and takes a newline only on its way back to the root. -/
structure Goes (r : Run) : Prop where
  smooth : ∀ reason, ¬r.Stalls reason
  lands : ∃ piece state names, r.cursor.Passes piece r.scan.cursor ∧ '\n' ∉ piece.dropLast ∧
    Stands r.scan state names ∧ ('\n' ∈ piece → state :: names = ["root"])

section winner
variable {r : Run} {state : String} {names : List String} {rule : CompiledRule} {found : Match}
  (h : Stands r state names) (hwinner : r.winner? = some (rule, found))
include h hwinner

theorem Stands.goes {piece : List Char}
    (hpasses : r.cursor.Passes piece (r.follow (Run.runner? r.levels) rule found).2)
    (hprogress : piece ≠ [] ∨
      (r.follow (Run.runner? r.levels) rule found).1.stack.generation ≠ r.stack.generation)
    {state' : String} {names' : List String}
    (named : (r.follow (Run.runner? r.levels) rule found).1.stack.Shaped table.names
      (state' :: names')) (seats : seating.Seats (state' :: names'))
    (few : piece = [] → rank state < rank state') (line : '\n' ∉ piece.dropLast)
    (root : '\n' ∈ piece → state' :: names' = ["root"]) : Goes r := by
  have hfew : r.zeroSteps < maxZeroSteps :=
    Nat.lt_of_le_of_lt (h.few.trans (rank_le state)) (by decide)
  have ha := Run.accepts_of_progress hwinner hfew hpasses hprogress
  refine ⟨ha.smooth, piece, state', names', ha.passes, line, ⟨?_, seats, ?_⟩, root⟩
  · rwa [ha.stack]
  · rw [ha.zeroSteps]
    split
    · next hpiece => exact Nat.succ_le_of_lt (Nat.lt_of_le_of_lt h.few (few hpiece))
    · exact Nat.zero_le _

theorem Stands.goes_plain (hplain : ∀ f, rule.action ≠ .callback f) {body after : Node}
    {op? : Option (StackOp String)} (hshows : Shows state body op?)
    (hop : Option.Rel (StackOp.Rel (Named table.names)) op? rule.op?)
    (hleads : found.Leads r.cursor body after) : Goes r := by
  have hstack := r.stack_follow (Run.runner? r.levels) rule found hplain
  obtain ⟨-, hnext⟩ := r.follow_plain (Run.runner? r.levels) rule found hplain
  have hpasses := hleads.passes.1
  rw [← hnext] at hpasses
  have hgoes := @Stands.goes r state names rule found h hwinner _ hpasses
  rw [hstack] at hgoes
  generalize rule.op? = bound? at hop hgoes
  have hnone : body.lacks '\n' → '\n' ∉ r.cursor.upTo found.stop := hleads.not_mem
  have hline : body.lacks '\n' → '\n' ∉ (r.cursor.upTo found.stop).dropLast :=
    fun hlacks hmem => hnone hlacks (List.dropLast_subset _ hmem)
  cases hshows with
  | stays moves line =>
    cases hop
    have hpiece := hleads.upTo_ne_nil moves
    refine hgoes (.inl hpiece) h.named h.seats (fun hnil => absurd hnil hpiece) ?_ ?_
    · exact line.elim hline fun hends => hleads.not_mem_dropLast hends.2
    · intro hmem
      rcases line with hlacks | ⟨rfl, -⟩
      · exact absurd hmem (hnone hlacks)
      · rw [h.seats.eq_nil]
  | pushes line seated grows =>
    obtain ⟨id, hid, rfl⟩ := StackOp.exists_push hop
    have hlacks : ∀ {p : Prop}, '\n' ∈ r.cursor.upTo found.stop → p :=
      fun hmem => absurd hmem (hnone line)
    rcases h.named.push hid with ⟨hrefused, hfull⟩ | ⟨hpushed, hchanged⟩
    · have hmoves : body.moves := by
        refine grows.resolve_right fun hstill => ?_
        have hroot := length_le h.seats (.inr hstill.1)
        rw [Stack.maxDepth] at hfull
        omega
      have hpiece := hleads.upTo_ne_nil hmoves
      rw [Stack.applied_push, hrefused] at hgoes
      exact hgoes (.inl hpiece) h.named h.seats (fun hnil => absurd hnil hpiece) (hline line) hlacks
    · refine hgoes (.inr hchanged) hpushed (.push h.seats seated) (fun hnil => ?_) (hline line)
        hlacks
      exact (grows.resolve_left fun hmoves => hleads.upTo_ne_nil hmoves hnil).2
  | pops line grows =>
    obtain rfl := StackOp.eq_pop hop
    have hlacks : ∀ {p : Prop}, '\n' ∈ r.cursor.upTo found.stop → p :=
      fun hmem => absurd hmem (hnone line)
    cases names with
    | nil =>
      cases h.seats
      have hpiece := hleads.upTo_ne_nil (grows.resolve_right (by decide))
      exact hgoes (.inl hpiece) h.named.pop_bottom .bottom (fun hnil => absurd hnil hpiece)
        (hline line) hlacks
    | cons below names =>
      obtain ⟨hnamed, hchanged⟩ := h.named.pop
      refine hgoes (.inr hchanged) hnamed h.seats.tail (fun hnil => ?_) (hline line) hlacks
      obtain ⟨hrank, hseat⟩ := grows.resolve_left fun hmoves => hleads.upTo_ne_nil hmoves hnil
      obtain ⟨_, heq, -⟩ := h.seats.exists_seat hseat
      cases heq
      rw [hrank]
      decide
  | resets moves line =>
    obtain ⟨id, hid, rfl⟩ := StackOp.exists_reset hop
    have hpiece := hleads.upTo_ne_nil moves
    exact hgoes (.inl hpiece) (Stack.shaped_reset hid _) .bottom (fun hnil => absurd hnil hpiece)
      (hleads.not_mem_dropLast line) fun _ => rfl

theorem Stands.goes_starts (hroot : state = "root") (hnames : r.table.names = table.names)
    (hmemo : Keeps blocks r.memo) (haction : rule.action = .callback (lineStart "content"))
    (hop : rule.op? = none) {body after : Node} (hline : body.lacks '\n')
    (hleads : found.Leads r.cursor body after) : Goes r := by
  subst hroot
  obtain ⟨hpasses, hoffset⟩ := hleads.passes
  have hstop : r.cursor.offset ≤ found.stop := by
    rw [← hoffset, hpasses.offset]
    exact Nat.le_add_right _ _
  have hknown : ∀ state ∈ "content" :: blocks, ∃ id, r.table.stateId? state = some id := by
    have hall : ∀ state ∈ "content" :: blocks, state ∈ table.names := by decide
    intro state hstate
    obtain ⟨id, hid⟩ := exists_named.2 (hall state hstate)
    exact ⟨id, by rwa [TableOf.stateId?, hnames]⟩
  obtain ⟨state, hstate, id, hid, hnext, hstack⟩ :=
    act_lineStart (Run.runner? r.levels) hstop hmemo hknown
  rw [← haction] at hnext hstack
  have hfollowed : (r.follow (Run.runner? r.levels) rule found).1.stack = (r.stack.push id).1 := by
    rw [Run.stack_follow_eq, hop, hstack]
    rfl
  have hnamed : Named table.names state id := by rwa [TableOf.stateId?, hnames] at hid
  have hnot := hleads.not_mem hline
  have hfit : ∀ state ∈ "content" :: blocks,
      seating.Allows "root" state ∧ rank "root" < rank state := by
    decide
  obtain ⟨hseated, hrank⟩ := hfit state hstate
  have hbottom := h.seats.eq_nil
  subst hbottom
  rcases h.named.push hnamed with ⟨-, hfull⟩ | ⟨hpushed, hchanged⟩
  · exact absurd hfull (by decide)
  · rw [← hfollowed] at hpushed hchanged
    exact h.goes hwinner (Run.follow_snd _ r rule found ▸ hnext ▸ hpasses) (.inr hchanged) hpushed
      (.push .bottom hseated) (fun _ => hrank) (fun hmem => hnot (List.dropLast_subset _ hmem))
      fun hmem => absurd hmem hnot

theorem Stands.goes_opens {category : Category} {block : String}
    (haction : rule.action = .callback (opensBlock category block))
    (hop : Option.Rel (StackOp.Rel (Named table.names)) (some (.reset "root")) rule.op?)
    {body after : Node} (hmoves : body.moves) (hline : body.lacks '\n')
    (hleads : found.Leads r.cursor body after) : Goes r := by
  obtain ⟨hpasses, hoffset⟩ := hleads.passes
  have hstop : r.cursor.offset ≤ found.stop := by
    rw [← hoffset, hpasses.offset]
    exact Nat.le_add_right _ _
  obtain ⟨hnext, hstack⟩ := act_opensBlock (Run.runner? r.levels) hstop category block
  rw [← haction] at hnext hstack
  have hfollowed := Run.stack_follow_eq (Run.runner? r.levels) r rule found
  rw [hstack] at hfollowed
  have hpiece := hleads.upTo_ne_nil hmoves
  have hnot := hleads.not_mem hline
  obtain ⟨id, hid, hbound⟩ := StackOp.exists_reset hop
  rw [hbound] at hfollowed
  exact h.goes hwinner (Run.follow_snd _ r rule found ▸ hnext ▸ hpasses) (.inl hpiece)
    (hfollowed ▸ Stack.shaped_reset hid _) .bottom (fun hnil => absurd hnil hpiece)
    (fun hmem => hnot (List.dropLast_subset _ hmem)) fun hmem => absurd hmem hnot

end winner

theorem Stands.goes_fallback {r : Run} {state : String} {names : List String}
    (h : Stands r state names) (hwinner : r.winner? = none) (hahead : r.cursor.ahead ≠ [])
    (hroot : Named table.names "root" r.table.root) (hresets : r.table.resetsOnNewline) :
    Goes r := by
  obtain ⟨c, rest, hahead⟩ := List.exists_cons_of_ne_nil hahead
  have hscan : r.scan = r.fallback := by rw [Run.scan, Run.step_eq, hwinner]
  refine ⟨fun reason hstalls => ?_, ?_⟩
  · obtain ⟨_, _, hsome, -⟩ := hstalls
    rw [hwinner] at hsome
    cases hsome
  · rw [hscan, Run.fallback_eq hahead]
    by_cases hreset : c = '\n'
    · refine ⟨[c], "root", [], Cursor.passes_next hahead, by simp, ⟨?_, .bottom, Nat.zero_le _⟩,
        fun _ => rfl⟩
      simp only [if_pos (And.intro hreset hresets)]
      exact Stack.shaped_reset hroot _
    · refine ⟨[c], state, names, Cursor.passes_next hahead, by simp, ⟨?_, h.seats, Nat.zero_le _⟩,
        fun hmem => absurd (List.mem_singleton.1 hmem).symm hreset⟩
      simp only [if_neg (mt And.left hreset)]
      exact h.named

/-! Runs -/

def OneLine (t : Token) : Prop := '\n' ∉ t.text.toList.dropLast

structure InLines (t : Table) (p : Point) : Prop where
  lexer : p.run.lexer = lexerOf t
  memo : Keeps blocks p.run.memo
  stands : ∃ state names, Stands p.run state names ∧
    (p.run.zeroSteps = 0 → (∀ d ∈ p.run.cursor.passed.head?, d = '\n') → state :: names = ["root"])
  lines : ∀ u ∈ p.taken ++ p.run.pending, OneLine u

theorem exists_table : ∃ t, table.compile = .ok t ∧ t.names = table.names ∧
    Named table.names "root" t.root ∧ t.resetsOnNewline := by
  obtain ⟨t, hcompile, hnames, hroot, -, hresets⟩ := surveyed_table.exists_table
  exact ⟨t, hcompile, hnames, hroot, hresets⟩

section points
variable {t : Table} {p : Point} (htable : table.compile = .ok t)

theorem Stands.root {r : Run} {state : String} {names : List String} (h : Stands r state names)
    (hlexer : r.lexer = lexerOf t) (hnames : t.names = table.names)
    (hroot : state :: names = ["root"]) : r.stackNames = ["root"] := by
  have hnamed := h.named
  rw [hroot] at hnamed
  obtain ⟨id, _, hid, hnil, hentries⟩ := List.forall₂_cons_left_iff.1 hnamed
  cases hnil
  have hname : r.lexer.table.stateName? id = some "root" := by
    rw [hlexer, lexerOf, TableOf.stateName?, hnames]
    exact hid.getElem?
  rw [Run.stackNames, LexerOf.namesOf, Stack.toList, hentries]
  simp [hname]

include htable

theorem asks_table : t.Asks (Keeps blocks) := by
  have hcallbacks : table.callbacks = [lineStart "content",
      opensBlock .commentSingle "single-comment", opensBlock .commentMultiline "multi-comment"] :=
    rfl
  refine .of_compile htable fun f hf found place view hview => ?_
  rw [hcallbacks] at hf
  rcases List.mem_cons.1 hf with rfl | hf
  · exact asks_lineStart (by decide) (by decide) found place hview
  · rcases List.mem_pair.1 hf with rfl | rfl
    · exact asks_opensBlock (by decide) _ found place hview
    · exact asks_opensBlock (by decide) _ found place hview

theorem InLines.goes (h : InLines t p) (hahead : p.run.cursor.ahead ≠ []) : Goes p.run := by
  obtain ⟨state, names, hstands, -⟩ := h.stands
  obtain ⟨t', htable', hnames, hroot, hresets⟩ := exists_table
  cases htable.symm.trans htable'
  have hown : p.run.table = t := by rw [Run.table, h.lexer, lexerOf]
  cases hwinner : p.run.winner? with
  | none => exact hstands.goes_fallback hwinner hahead (hown ▸ hroot) (hown ▸ hresets)
  | some winner =>
    obtain ⟨rule, found⟩ := winner
    have htop : Named table.names state p.run.stack.top := by
      have hnamed := hstands.named
      cases hnamed with
      | cons htop _ => exact htop
    cases shown_winner htable h.lexer hwinner htop with
    | plain plain shows op leads => exact hstands.goes_plain hwinner plain shows op leads
    | starts root action op line leads =>
      exact hstands.goes_starts hwinner root (hown ▸ hnames) h.memo action op line leads
    | opens known action op moves line leads =>
      exact hstands.goes_opens hwinner action op moves line leads

theorem InLines.turn (h : InLines t p) : InLines t p.turn := by
  cases hpending : p.run.pending with
  | cons u pending =>
    have hsame : p.run.lexer.recategorise u = u := by
      rw [h.lexer]
      rfl
    obtain ⟨state, names, hstands, hline⟩ := h.stands
    rw [Point.turn_of_pending hpending, hsame]
    refine ⟨h.lexer, h.memo, ⟨state, names, ⟨hstands.named, hstands.seats, hstands.few⟩, hline⟩, ?_⟩
    rw [List.append_assoc, List.singleton_append, ← hpending]
    exact h.lines
  | nil =>
    by_cases hahead : p.run.cursor.ahead = []
    · rwa [Point.turn_of_done hpending hahead]
    · obtain ⟨piece, state, names, hpasses, hline, hstands, hroot⟩ := (h.goes htable hahead).lands
      obtain ⟨other, hstep⟩ := Run.steps_scan hahead
      have hsame : other = piece := by
        rw [← Cursor.upTo_of_passes hpasses, Cursor.upTo_of_passes hstep.passes]
      subst hsame
      have hown : p.run.table = t := by rw [Run.table, h.lexer, lexerOf]
      rw [Point.turn_of_scan hpending hahead]
      refine ⟨hstep.lexer.trans h.lexer, Run.form_scan h.memo (hown ▸ asks_table htable),
        ⟨state, names, hstands, fun hzero hbefore => hroot ?_⟩, ?_⟩
      · have hne : other ≠ [] := by
          rintro rfl
          have hstays := (hstep.stays rfl).1
          dsimp only at hzero
          omega
        obtain ⟨front, last, rfl⟩ := (List.eq_nil_or_concat other).resolve_left hne
        have hlast : last = '\n' := hbefore last (by simp [hpasses.passed])
        simp [hlast]
      · obtain ⟨tokens, hadded, hcovers⟩ := hstep.tokens
        dsimp only
        rw [hadded, hpending, List.nil_append]
        intro u hu
        rcases List.mem_append.1 hu with hu | hu
        · exact h.lines u (List.mem_append_left _ hu)
        · exact hcovers.not_mem_dropLast hline hu

theorem InLines.root_of_newline (h : InLines t p) (hnames : t.names = table.names)
    {piece : List Char} (hpasses : p.run.cursor.Passes piece p.turn.run.cursor)
    (hmem : '\n' ∈ piece) : p.turn.run.stackNames = ["root"] := by
  have hstill : p.turn.run.cursor ≠ p.run.cursor := fun heq => by
    rw [hpasses.nil_of_offset_le (by rw [heq])] at hmem
    cases hmem
  cases hpending : p.run.pending with
  | cons u pending => exact absurd (by rw [Point.turn_of_pending hpending]) hstill
  | nil =>
    by_cases hahead : p.run.cursor.ahead = []
    · exact absurd (by rw [Point.turn_of_done hpending hahead]) hstill
    · obtain ⟨other, state, names, hother, -, hstands, hroot⟩ := (h.goes htable hahead).lands
      have hlexer := (h.turn htable).lexer
      rw [Point.turn_of_scan hpending hahead] at hpasses hlexer ⊢
      have hsame : other = piece := by
        rw [← Cursor.upTo_of_passes hother, ← Cursor.upTo_of_passes hpasses]
      exact hstands.root hlexer hnames (hroot (hsame ▸ hmem))

theorem inLines_after (text : List Char) (depth turns : Nat) :
    InLines t (Point.after turns (Run.start (lexerOf t) [t.root] text depth)) := by
  induction turns with
  | zero =>
    obtain ⟨t', htable', -, hroot, -⟩ := exists_table
    cases htable.symm.trans htable'
    refine ⟨rfl, fun state hmem => ?_, ⟨"root", [], ⟨.cons hroot .nil, .bottom, Nat.zero_le _⟩,
      fun _ _ => rfl⟩, fun u hu => ?_⟩
    · exact absurd hmem List.not_mem_nil
    · exact absurd hu List.not_mem_nil
  | succ turns ih =>
    rw [Point.after_succ]
    exact ih.turn htable

end points

/-- Sass is line oriented. A newline stands at the end of its token, no step stalls, and the step
that takes a newline leaves the root alone on the stack, so each line starts with that. -/
theorem starts_lines_at_root : ∃ l, lexer.outcome.1 = .ok l ∧ ∀ text : String,
    (∀ t ∈ (l.run text).tokens, '\n' ∉ t.text.toList.dropLast) ∧
    ∀ turns, let p := Point.after turns (l.run text)
      (∀ reason, ¬p.Stalls reason) ∧
      (∀ piece, p.run.cursor.Passes piece p.turn.run.cursor → '\n' ∈ piece →
        p.turn.run.stackNames = ["root"]) ∧
      (p.stays = 0 → (∀ d ∈ p.run.cursor.passed.head?, d = '\n') →
        p.run.stackNames = ["root"]) := by
  obtain ⟨t, htable, hnames, -⟩ := exists_table
  refine ⟨lexerOf t, Build.outcome_plain htable info, fun text => ⟨?_, fun turns => ?_⟩⟩
  · obtain ⟨turns, -, htokens, -⟩ := Run.exists_turns_played (lexerOf t) [t.root] text.toList 0
    intro u hu
    refine (inLines_after htable text.toList 0 turns).lines u (List.mem_append_left _ ?_)
    rw [htokens, ← Run.tokens_eq_played]
    exact hu
  · have h := inLines_after htable text.toList 0 turns
    have hp := Point.Holds.after (lexerOf t) [t.root] text.toList 0 turns
    refine ⟨fun reason hstalls => ?_, fun piece hpasses hmem => ?_, fun hstays hbefore => ?_⟩
    · exact (h.goes htable hstalls.ahead).smooth reason hstalls.refused
    · exact h.root_of_newline htable hnames hpasses hmem
    · obtain ⟨state, names, hstands, hline⟩ := h.stands
      exact hstands.root h.lexer hnames (hline (hp.stays.trans hstays) hbefore)

end RuleLexer.Language.Sass
