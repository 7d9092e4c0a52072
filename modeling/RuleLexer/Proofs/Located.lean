import RuleLexer.Proofs.Delegation
import RuleLexer.Proofs.Partition
import RuleLexer.Proofs.Played
import RuleLexer.Proofs.StackSafety

/-! Where a run says that it fell back. A character that is emitted by itself is noted at the place
where the run stands in its own text. In a run within another that text is the piece which was
handed on, so the place counts from the start of the piece: the token is found where the piece's
own place in the outer text has been added. For a run that hands nothing on there is nothing to
add. -/
namespace RuleLexer
open RuleLexer.Text RuleLexer.Coverage

namespace Run

/-- The starts of a run and of all runs within it, each with the place where its text stands in the
text of the outer run. -/
inductive WithinAt (outer : Run) : Nat → Run → Prop
  | outermost : WithinAt outer 0 outer
  | inner {base offset : Nat} {r inner : Run} (turns : Nat) (h : WithinAt outer base r)
      (pending : (Point.after turns r).run.pending = [])
      (nested : (offset, inner) ∈ (Point.after turns r).run.nestedAt) :
      WithinAt outer (base + offset) inner

theorem WithinAt.trans {outer r inner : Run} {base offset : Nat} (h : outer.WithinAt base r)
    (h' : r.WithinAt offset inner) : outer.WithinAt (base + offset) inner := by
  induction h' with
  | outermost => exact h
  | inner turns _ pending nested ih =>
    rw [← Nat.add_assoc]
    exact .inner turns ih pending nested

/-- From some place on, a span is that of one of the tokens. -/
def Located (outer : Run) (tokens : List Token) (span : Span) : Prop :=
  ∃ base inner, outer.WithinAt base inner ∧
    ∃ t ∈ tokens, t.span = ⟨base + span.start, base + span.stop⟩

namespace Located
variable {outer inner : Run} {tokens others : List Token} {span : Span}

theorem mono (h : outer.Located tokens span)
    (hothers : ∀ t ∈ tokens, ∃ u ∈ others, u.span = t.span) : outer.Located others span := by
  obtain ⟨base, inner, hwithin, t, ht, hspan⟩ := h
  obtain ⟨u, hu, hsame⟩ := hothers t ht
  exact ⟨base, inner, hwithin, u, hu, hsame.trans hspan⟩

theorem shift (h : inner.Located tokens span) {place : Nat} (hwithin : outer.WithinAt place inner)
    (hothers : ∀ t ∈ tokens, t.shift place ∈ others) : outer.Located others span := by
  obtain ⟨base, r, hr, t, ht, hspan⟩ := h
  obtain ⟨hstart, hstop⟩ := Span.mk.inj hspan
  refine ⟨place + base, r, hwithin.trans hr, t.shift place, hothers t ht, ?_⟩
  rw [Token.span, Token.offset_shift, Token.stop_shift, hstart, hstop]
  simp only [Span.mk.injEq]
  omega

end Located

end Run

namespace Point

def Locates (outer : Run) (p : Point) : Prop :=
  ∀ span state, .fallback span state ∈ p.run.notices →
    outer.Located (p.taken ++ p.run.pending) span

namespace Locates
variable {outer : Run} {p : Point}

theorem give (h : p.Locates outer) {t : Token} {pending : List Token}
    (hpending : p.run.pending = t :: pending) : p.turn.Locates outer := by
  intro span state hnoted
  rw [turn_of_pending hpending] at hnoted ⊢
  refine (h span state hnoted).mono fun u hu => ?_
  rw [hpending] at hu
  rcases List.mem_append.1 hu with hu | hu
  · exact ⟨u, by simp [hu], rfl⟩
  · rcases List.mem_cons.1 hu with rfl | hu
    · exact ⟨p.run.lexer.recategorise u, by simp, by simp [Token.span]⟩
    · exact ⟨u, by simp [hu], rfl⟩

theorem scan (h : p.Locates outer) (hpending : p.run.pending = [])
    (hend : p.run.cursor.ahead ≠ [])
    (hinner : ∀ offset inner, (offset, inner) ∈ p.run.nestedAt → outer.WithinAt offset inner ∧
      ∀ span state, .fallback span state ∈ inner.played.2 →
        inner.Located inner.played.1 span) : p.turn.Locates outer := by
  intro span state hnoted
  rw [turn_of_scan hpending hend] at hnoted ⊢
  have hbefore : .fallback span state ∈ p.run.notices →
      outer.Located (p.taken ++ p.run.scan.pending) span := by
    intro hnoted
    refine (h span state hnoted).mono fun t ht => ?_
    rw [hpending, List.append_nil] at ht
    exact ⟨t, List.mem_append_left _ ht, rfl⟩
  rcases (Run.adds_scan hend).mem hnoted with hnoted | hnotes
  · exact hbefore hnoted
  · cases hnotes with
    | @fallback c rest category _ ahead given =>
      refine ⟨0, outer, .outermost, _, List.mem_append_right _ given, ?_⟩
      simp [Token.span, Token.stop, Token.size]
    | callback _ _ asked =>
      obtain ⟨t, c, hcall⟩ := asked
      cases hcall
    | @nested offset inner _ started noted given =>
      obtain ⟨hwithin, hlocated⟩ := hinner offset inner started
      refine (hlocated span state noted).shift hwithin fun t ht => ?_
      exact List.mem_append_right _ (given t ht)

end Locates

theorem locates_after (l : Lexer) (states : List StateId) (text : List Char) (depth turns : Nat) :
    (after turns (Run.start l states text depth)).Locates (Run.start l states text depth) := by
  refine start_induction (K := fun _ => True) (Q := fun r p => p.Locates r)
    (fun _ _ _ _ _ _ _ h => nomatch h) (fun _ _ _ _ hpending h => h.give hpending)
    (fun _ _ _ _ _ => trivial) (fun r turns hpending hend h hinner => ?_) trivial turns
  refine h.scan hpending hend fun offset inner hstarted => ?_
  refine ⟨Nat.zero_add offset ▸ .inner turns .outermost hpending hstarted, ?_⟩
  intro span state hnoted
  have hpoints := hinner inner (Run.mem_nested_of_nestedAt hstarted)
  obtain ⟨-, job, -, rfl⟩ := Run.mem_nested (Run.mem_nested_of_nestedAt hstarted)
  obtain ⟨more, hdone, htaken, hnotices⟩ := Run.exists_turns_played job.lexer job.states job.text
    ((after turns r).run.depth + 1)
  have hlocated := hpoints more span state (hnotices ▸ hnoted)
  rwa [hdone.pending, List.append_nil, htaken] at hlocated

end Point

section stands
variable {lexer : Lexer} {states : List StateId} {text : List Char} {depth : Nat}

/-- The piece that a run within another is over stands in the outer text at its place. -/
theorem Run.WithinAt.stands {base : Nat} {inner : Run}
    (h : (Run.start lexer states text depth).WithinAt base inner) :
    (∃ l states text depth, inner = Run.start l states text depth) ∧
      ∃ before after, text = before ++ inner.cursor.ahead ++ after ∧ byteLength before = base := by
  induction h with
  | outermost => exact ⟨⟨_, _, _, _, rfl⟩, [], [], by simp [Run.start, Cursor.start], rfl⟩
  | @inner base offset r inner turns _ _ hnested ih =>
    obtain ⟨⟨l, states, piece, depth, rfl⟩, before, after, htext, rfl⟩ := ih
    obtain ⟨_, rule, found, -, hwinner, p, hp, job, hjob, rfl, rfl⟩ :=
      Run.mem_nestedAt_iff.1 hnested
    obtain ⟨target, -, -, rfl⟩ := Piece.mem_job?_iff.1 hjob
    have hplain : ∀ f, rule.action ≠ .callback f := fun f hf => by simp [hf, Match.pieces] at hp
    obtain ⟨front, back, hpieces⟩ := List.append_of_mem hp
    have htiles := (Run.firstMatch_some hwinner).2.tiles_pieces rule.action hplain
    rw [hpieces] at htiles
    obtain ⟨begun, hfront, hoffset, rest, hrest⟩ := htiles.middle
    have hpassed := (Point.Holds.after l states piece depth turns).passes.trans hfront
    have hpiece := hpassed.ahead
    have hplace := hpassed.offset
    rw [← hrest] at hpiece
    simp only [Cursor.start, Nat.zero_add] at hpiece hplace
    let passed := (Point.after turns (Run.start l states piece depth)).run.cursor.passed.reverse ++
      front.flatMap Piece.text
    refine ⟨⟨_, _, _, _, rfl⟩, before ++ passed, rest ++ after, ?_, ?_⟩
    · have hpassed : piece = passed ++ (p.text ++ rest) := hpiece
      calc text = before ++ piece ++ after := htext
        _ = before ++ (passed ++ (p.text ++ rest)) ++ after := by rw [← hpassed]
        _ = before ++ passed ++ p.text ++ (rest ++ after) := by simp only [List.append_assoc]
    · rw [byteLength_append, hoffset, hplace]

end stands

def Lexer.Alone (l : Lexer) : Prop :=
  ∀ rules ∈ l.table.rules, ∀ rule ∈ rules, ∀ target, ¬rule.action.HandsTo target

namespace Run

theorem WithinAt.eq_zero {l : Lexer} (hl : Lexer.Alone l) {states : List StateId}
    {text : List Char} {depth base : Nat} {inner : Run}
    (h : (start l states text depth).WithinAt base inner) :
    base = 0 ∧ inner = start l states text depth := by
  induction h with
  | outermost => exact ⟨rfl, rfl⟩
  | @inner base offset r inner turns _ _ hnested ih =>
    obtain ⟨rfl, rfl⟩ := ih
    obtain ⟨_, rule, found, -, hwinner, p, hp, job, hjob, -, -⟩ := mem_nestedAt_iff.1 hnested
    obtain ⟨target, hfate, -, -⟩ := Piece.mem_job?_iff.1 hjob
    have hlexer := (Point.Holds.after l states text depth turns).lexer
    obtain ⟨rules, hrules, hrule⟩ := exists_rules_of_winner hwinner
    rw [table, hlexer] at hrules
    exact absurd (handsTo_of_mem_pieces hp hfate) (hl rules hrules rule hrule target)

end Run

def StandsAt (text piece : String) (span : Span) : Prop :=
  ∃ before after, text = before ++ piece ++ after ∧ before.utf8ByteSize = span.start ∧
    span.start + piece.utf8ByteSize = span.stop

/-- Each character that a run notes as emitted by itself is a token of the run. The token is at the
place that was noted, counted from where the text of some run within it stands; that is the start
of the text when the lexer hands nothing on. -/
theorem fallbacks_located (l : Lexer) (states : List StateId) (text : String) (depth : Nat) :
    let r := Run.start l states text.toList depth
    ∀ span state, .fallback span state ∈ r.complete.2.notices → ∃ base inner,
      r.WithinAt base inner ∧
      (∃ before after, text.toList = before ++ inner.cursor.ahead ++ after ∧
        byteLength before = base) ∧
      (∃ t ∈ r.complete.1, t.offset = base + span.start ∧
        StandsAt text t.text ⟨base + span.start, base + span.stop⟩) ∧
      (Lexer.Alone l → base = 0) := by
  intro r span state hnoted
  obtain ⟨turns, hdone, htaken, hrun⟩ := Run.exists_turns_complete l states text.toList depth
  have hgiven : (Point.after turns r).taken ++ (Point.after turns r).run.pending =
      r.complete.1 := by
    rw [hdone.pending, List.append_nil, htaken]
  have hlocated := Point.locates_after l states text.toList depth turns span state (hrun ▸ hnoted)
  obtain ⟨base, inner, hwithin, t, ht, hspan⟩ := hlocated
  obtain ⟨hstart, hstop⟩ := Span.mk.inj hspan
  have hpartition := (Point.Holds.after l states text.toList depth turns).partition
  obtain ⟨before, after, htext, hbefore⟩ := hpartition.slices t ht
  refine ⟨base, inner, hwithin, hwithin.stands.2, ⟨t, hgiven ▸ ht, hstart, before, after, htext,
    hbefore.trans hstart, ?_⟩, fun hl => (hwithin.eq_zero hl).1⟩
  rw [← hstart, ← hstop]
  rfl

/-- Hands the letters behind the first ones to the running lexer, which has no rule for them. -/
def echoDraft : TableDraft where
  states := [("root", [.groups "(bb)(a+)" [.token .keyword, .delegate (.this none)]])]

def echoTable : Table := echoDraft.compile.toOption.get (by decide +kernel)

def echoLexer : Lexer := ⟨⟨"echo", [], [], []⟩, echoTable, [0], none, []⟩

theorem built_echoLexer : Lexer.Built echoLexer := by
  refine .compile (t := echoDraft) (d := ⟨⟨"echo", [], [], []⟩, echoTable, none, none, []⟩)
    (fun other states? hother => ?_) rfl rfl
  obtain ⟨state, hstate, r, hr, hhands⟩ := hother
  cases List.mem_singleton.1 hstate
  cases List.mem_singleton.1 hr
  cases hhands with
  | group hmem => simp at hmem

theorem complete_echoLexer :
    (echoLexer.run "bba").complete.1 = [⟨0, .keyword, "bb"⟩, ⟨2, .text, "a"⟩] ∧
      .fallback ⟨0, 1⟩ "root" ∈ (echoLexer.run "bba").complete.2.notices := by
  decide +kernel

theorem fallbacks_located_echo : ∃ base inner, (echoLexer.run "bba").WithinAt base inner ∧
    ∃ t ∈ (echoLexer.run "bba").complete.1, t.offset = base ∧
      StandsAt "bba" t.text ⟨base, base + 1⟩ := by
  obtain ⟨base, inner, hwithin, -, hgiven, -⟩ :=
    fallbacks_located echoLexer [0] "bba" 0 ⟨0, 1⟩ "root" complete_echoLexer.2
  exact ⟨base, inner, hwithin, hgiven⟩

/-- At the place as it was noted there may be no token. -/
theorem fallbacks_misplaced : ¬∀ l, Lexer.Built l → ∀ text span state,
    .fallback span state ∈ (l.run text).complete.2.notices →
      ∃ t ∈ (l.run text).complete.1, t.offset = span.start ∧ StandsAt text t.text span := by
  intro h
  obtain ⟨htokens, hnoted⟩ := complete_echoLexer
  obtain ⟨t, ht, hstart, -, -, -, -, hsize⟩ :=
    h echoLexer built_echoLexer "bba" ⟨0, 1⟩ "root" hnoted
  rw [htokens] at ht
  rcases List.mem_cons.1 ht with rfl | ht
  · exact absurd hsize (by decide)
  · cases List.mem_singleton.1 ht
    exact absurd hstart (by decide)

end RuleLexer
