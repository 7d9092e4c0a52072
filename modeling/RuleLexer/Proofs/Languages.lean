import RuleLexer.Proofs.SmoothLanguages

/-! What the languages of the catalog say of their own rules. The callbacks that there are name
states of their tables only, and no other lexers are handed text than those of the catalog, so no
run says that a state is not there. That there was no progress is said of steps that stall, and
there is a language with a text where a step does. -/
namespace RuleLexer
open RuleLexer.Text RuleLexer.Language

theorem Language.Php.asks_heredoc {names : List String} {form : Memo → Prop} (found : Match)
    (place : Cursor) {view : View} (h : form view.memo) :
    (heredoc found place view).Asks names form view.memo := by
  rw [heredoc]
  split <;> exact .run (by simp [Call.state?]) (.run (by simp [Call.state?]) (.done h))

namespace Build

section asks
variable {d : TableDraft} {draft : Table → LexerDraft} (hdraft : ∀ t, (draft t).table = t)
include hdraft

/-- A lexer over a table names known states if those callbacks do with which the table is written,
and those lexers to which it hands text. -/
theorem ensures_asks (form : Memo → Prop) (empty : form .empty)
    (callbacks : ∀ f ∈ d.callbacks, ∀ found place view, form view.memo →
      (f found place view).Asks d.names form view.memo)
    (lexers : ∀ other ∈ d.lexers, Lexer.Asks other) :
    (table d >>= fun t => lexer (draft t)).Ensures Lexer.Asks :=
  (ensures_table d).bind fun t ht notices l hl =>
    have htable := ensures_lexer (draft t) notices l hl
    .of_compile ht (htable.trans (hdraft t)) empty callbacks lexers

theorem ensures_asks_of_quiet (hcallbacks : d.callbacks = [])
    (lexers : ∀ other ∈ d.lexers, Lexer.Asks other) :
    (table d >>= fun t => lexer (draft t)).Ensures Lexer.Asks :=
  ensures_asks hdraft (fun _ => True) trivial (by simp [hcallbacks]) lexers

theorem ensures_asks_of_alone (hcallbacks : d.callbacks = []) (hlexers : d.lexers = []) :
    (table d >>= fun t => lexer (draft t)).Ensures Lexer.Asks :=
  ensures_asks_of_quiet hdraft hcallbacks (by simp [hlexers])

end asks

end Build

namespace Catalog
open Build

theorem asks_javaScript : JavaScript.lexer.Ensures Lexer.Asks :=
  ensures_asks_of_alone (fun _ => rfl) rfl rfl

theorem asks_css : Css.lexer.Ensures Lexer.Asks := ensures_asks_of_alone (fun _ => rfl) rfl rfl

theorem asks_actionScript3 : ActionScript.lexer3.Ensures Lexer.Asks :=
  ensures_asks_of_alone (fun _ => rfl) rfl rfl

theorem asks_html : Html.lexer.Ensures Lexer.Asks := by
  refine asks_javaScript.bind fun script hscript => asks_css.bind fun style hstyle =>
    ensures_asks_of_quiet (fun _ => rfl) rfl fun other hother => ?_
  have hlexers : (Html.table script style).lexers = [script, style] := rfl
  rcases List.mem_pair.1 (hlexers ▸ hother) with rfl | rfl
  · exact hscript
  · exact hstyle

theorem asks_mxml : Xml.mxmlLexer.Ensures Lexer.Asks := by
  refine asks_actionScript3.bind fun script hscript =>
    ensures_asks_of_quiet (fun _ => rfl) rfl fun other hother => ?_
  have hlexers : (Xml.mxmlTable script).lexers = [script] := rfl
  obtain rfl : other = script := List.mem_singleton.1 (hlexers ▸ hother)
  exact hscript

theorem asks_php (options : Options) : (Php.lexer options).Ensures Lexer.Asks := by
  have hcallbacks : Php.table.callbacks = [Php.heredoc] := rfl
  have hlexers : Php.table.lexers = [] := rfl
  refine (ensures_true _).bind fun _ _ => ensures_asks (fun _ => rfl) (fun _ => True)
    trivial (fun f hf found place view h => ?_) (by simp [hlexers])
  obtain rfl : f = Php.heredoc := List.mem_singleton.1 (hcallbacks ▸ hf)
  exact Php.asks_heredoc found place h

theorem asks_sass : Sass.lexer.Ensures Lexer.Asks := by
  have hcallbacks : Sass.table.callbacks = [Indentation.lineStart "content",
      Indentation.opensBlock .commentSingle "single-comment",
      Indentation.opensBlock .commentMultiline "multi-comment"] := rfl
  have hlexers : Sass.table.lexers = [] := rfl
  refine ensures_asks (fun _ => rfl) (Indentation.Keeps ["single-comment", "multi-comment"])
    (fun state hmem => by cases hmem) (fun f hf found place view h => ?_) (by simp [hlexers])
  rw [hcallbacks] at hf
  rcases List.mem_cons.1 hf with rfl | hf
  · exact Indentation.asks_lineStart (by decide) (by decide) found place h
  · rcases List.mem_pair.1 hf with rfl | rfl
    · exact Indentation.asks_opensBlock (by decide) _ found place h
    · exact Indentation.asks_opensBlock (by decide) _ found place h

theorem asks_languages {language : Language} (h : language ∈ languages) (options : Options) :
    (language.build options).Ensures Lexer.Asks := by
  simp only [languages, List.mem_cons, List.not_mem_nil, or_false] at h
  rcases h with rfl | rfl | rfl | rfl | rfl | rfl | rfl | rfl | rfl | rfl | rfl | rfl | rfl | rfl
  · exact asks_javaScript
  · exact ensures_asks_of_alone (fun _ => rfl) rfl rfl
  · exact asks_actionScript3
  · exact asks_css
  · exact ensures_asks_of_alone (fun _ => rfl) rfl rfl
  · exact asks_html
  · exact asks_php options
  · exact ensures_asks_of_alone (fun _ => rfl) rfl rfl
  · exact ensures_asks_of_alone (fun _ => rfl) rfl rfl
  · exact asks_mxml
  · exact ensures_asks_of_alone (fun _ => rfl) rfl rfl
  · exact asks_sass
  · exact ensures_asks_of_alone (fun _ => rfl) rfl rfl
  · exact ensures_asks_of_alone (fun _ => rfl) rfl rfl

/-- Whatever the text, no run in a language of the catalog says that a state is not there, nor does
one that it starts; and it says that there was no progress exactly if a step of one of them stalls,
and then says where. In all the languages but CoffeeScript and haXe no step of any of them does. -/
theorem warnings_explained {language : Language} (h : language ∈ languages) (options : Options)
    {l : Lexer} (hbuild : (language.build options).outcome.1 = .ok l) (text : String) :
    let r := l.run text
    (∀ span state, .unknownState span state ∉ r.complete.2.notices) ∧
    (∀ reason offset name state, .noProgress reason offset name state ∈ r.complete.2.notices →
      ∃ inner turns, r.Within inner ∧ (Point.after turns inner).Stalls reason ∧
        (Point.after turns inner).run.position = offset ∧
        (Point.after turns inner).run.lexer.name = name) ∧
    (∀ inner turns reason, r.Within inner → (Point.after turns inner).Stalls reason →
      (∃ reason offset name state,
        .noProgress reason offset name state ∈ r.complete.2.notices) ∧
      (reason = .tooManySteps → (Point.after turns inner).stays = maxZeroSteps)) ∧
    (language.info.name ∉ mayStall → ∀ inner turns reason, r.Within inner →
      ¬(Point.after turns inner).Stalls reason) := by
  obtain ⟨hexplained, hnoted⟩ := no_progress_noted l l.initial text.toList 0
  have hknown := (asks_languages h options).outcome hbuild
  refine ⟨unknownState_not_noted hknown l.initial text.toList 0, hexplained, hnoted,
    fun hsmooth => ?_⟩
  exact (smooth_languages h hsmooth options).outcome hbuild text.toList 0

theorem warnings_explained_opening : ∃ l, CoffeeScript.lexer.outcome.1 = .ok l ∧
    let r := l.run "<!--"
    (∀ span state, .unknownState span state ∉ r.complete.2.notices) ∧
    ∃ reason offset name state, .noProgress reason offset name state ∈ r.complete.2.notices := by
  obtain ⟨t, htable, hroot⟩ := CoffeeScript.exists_table
  have hbuild := CoffeeScript.outcome_lexer htable
  obtain ⟨turns, hstalls⟩ := CoffeeScript.stalls_opening htable hroot
  obtain ⟨hknown, -, hnoted, -⟩ := warnings_explained mem_coffeeScript {} hbuild "<!--"
  exact ⟨_, hbuild, hknown, (hnoted _ turns _ .outermost hstalls).1⟩

/-- Not every run in a language of the catalog makes progress. -/
theorem coffeeScript_stalls : ¬∀ language ∈ languages, ∀ options l,
    (language.build options).outcome.1 = .ok l → ∀ text reason offset name state,
      .noProgress reason offset name state ∉ (l.run text).complete.2.notices := by
  intro hnever
  obtain ⟨t, htable, hroot⟩ := CoffeeScript.exists_table
  have hbuild := CoffeeScript.outcome_lexer htable
  obtain ⟨turns, hstalls⟩ := CoffeeScript.stalls_opening htable hroot
  obtain ⟨-, hnoted⟩ := no_progress_noted (CoffeeScript.lexerOf t) [t.root] "<!--".toList 0
  obtain ⟨⟨reason, offset, name, state, hmem⟩, -⟩ := hnoted _ turns _ .outermost hstalls
  exact hnever _ mem_coffeeScript {} _ hbuild "<!--" reason offset name state hmem

end Catalog

end RuleLexer
