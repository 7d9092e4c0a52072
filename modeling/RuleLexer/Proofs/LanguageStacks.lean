import RuleLexer.Catalog
import RuleLexer.Proofs.ActionScript
import RuleLexer.Proofs.CoffeeScript
import RuleLexer.Proofs.Ensuring
import RuleLexer.Proofs.Html

/-! How deep the stacks of the languages are. -/
namespace RuleLexer
open RuleLexer.Text RuleLexer.Language

namespace Build

/-- A lexer is bounded when its table keeps to small stacks, and so are those that it hands text
to. -/
theorem ensures_bounded {d : TableDraft} {base : String} {shapes : List (List String)}
    (h : d.Keeps base shapes) {draft : Table → LexerDraft} (hdraft : ∀ t, (draft t).table = t)
    {name : String} (hname : ∀ t, (draft t).info.name = name)
    (hinitial : ∀ t, ((draft t).initial?.getD [d.root]).reverse ∈ shapes)
    {bound? : String → Option Nat} {bound : Nat} (hbound : bound? name = some bound)
    (hsmall : ∀ shape ∈ shapes, shape.length ≤ bound) {but : List String}
    (hothers : ∀ other ∈ d.lexers, other.Bounded bound? but) :
    (table d >>= fun t => lexer (draft t)).Ensures
      fun l => l.name = name ∧ l.Bounded bound? but := by
  refine (ensures_table d).bind fun t ht => ensures_accept (fun l hl => ?_) _ _
  have hroot := TableDraft.named_root ht
  have hdrafted := hdraft t
  obtain ⟨hinfo, htable, hne, hnamed⟩ := LexerDraft.named_initial hl (hdrafted.symm ▸ hroot)
  rw [hdrafted] at htable hnamed
  have hstart := h.start ht htable hnamed hne (hinitial t)
  have hl : l.name = name := (congrArg LexerInfo.name hinfo).trans (hname t)
  exact ⟨hl, (h.lexer ht htable).bounded (h.hands ht htable hstart) hstart (hl ▸ hbound) hsmall
    hothers⟩

theorem ensures_bounded_plain {d : TableDraft} {base : String} {shapes : List (List String)}
    (h : d.Keeps base shapes) {info : LexerInfo} {bound? : String → Option Nat} {bound : Nat}
    (hbound : bound? info.name = some bound) (hsmall : ∀ shape ∈ shapes, shape.length ≤ bound)
    {but : List String} (hothers : ∀ other ∈ d.lexers, other.Bounded bound? but) :
    (plain info d).Ensures fun l => l.name = info.name ∧ l.Bounded bound? but := by
  let draft (t : Table) : LexerDraft := { info, table := t }
  have hdraft : ∀ t, (draft t).table = t := fun _ => rfl
  exact ensures_bounded h hdraft (fun _ => rfl) (fun _ => h.root) hbound hsmall hothers

end Build

namespace Catalog
open Build

/-- The most states that a run in a language has on its stack. -/
def deepest? (name : String) : Option Nat :=
  [("JavaScript", 2), ("CoffeeScript", 2), ("ActionScript", 1), ("ActionScript 3", 3), ("HTML", 4),
    ("XML", 3), ("XSLT", 3), ("MXML", 3), ("PHP", 3)].lookup name

def Bounded (info : LexerInfo) (but : List String) (l : Lexer) : Prop :=
  l.name = info.name ∧ l.Bounded deepest? but

def operandShapes : List (List String) :=
  [["root"], ["slashstartsregex", "root"], ["badregex", "root"]]

def operandsOfJavaScript : Shaping :=
  ⟨JavaScript.table.outline, "commentsandwhitespace", operandShapes, by decide +kernel⟩

def operandsOfCoffeeScript : Shaping :=
  ⟨CoffeeScript.table.outline, "commentsandwhitespace", operandShapes, by decide +kernel⟩

def classes : Shaping := ⟨ActionScript.table.outline, "", [["root"]], by decide +kernel⟩

def parameters : Shaping where
  outline := ActionScript.table3.outline
  base := ""
  shapes := ActionScript.parameterShapes
  keeps := by decide +kernel

def markup : Shaping where
  outline := Xml.table.outline
  base := ""
  shapes := [["root"], ["comment", "root"], ["tag", "root"], ["attr", "tag", "root"]]
  keeps := by decide +kernel

def bodies : Shaping where
  outline := Html.frame.outline
  base := ""
  shapes := markup.shapes ++ ["script-content", "style-content"].flatMap fun content =>
    [[content, "root"], ["tag", content, "root"], ["attr", "tag", content, "root"]]
  keeps := by decide +kernel

def statements : Shaping where
  outline := Php.table.outline
  base := ""
  shapes := [["root"], ["php", "root"], ["classname", "php", "root"],
    ["functionname", "php", "root"], ["string", "php", "root"]]
  keeps := by decide +kernel

theorem bounded_javaScript : JavaScript.lexer.Ensures (Bounded JavaScript.info []) :=
  have hlexers : JavaScript.table.lexers = [] := rfl
  ensures_bounded_plain
    (.of_quiet _ _ operandsOfJavaScript.keeps (by decide) rfl rfl) rfl (by decide)
    (by simp [hlexers])

theorem bounded_coffeeScript : CoffeeScript.lexer.Ensures (Bounded CoffeeScript.info []) :=
  have hlexers : CoffeeScript.table.lexers = [] := rfl
  ensures_bounded_plain
    (.of_quiet _ _ operandsOfCoffeeScript.keeps (by decide) rfl rfl) rfl (by decide)
    (by simp [hlexers])

theorem bounded_actionScript : ActionScript.lexer.Ensures (Bounded ActionScript.info []) :=
  have hlexers : ActionScript.table.lexers = [] := rfl
  ensures_bounded_plain (.of_quiet _ _ classes.keeps (by decide) rfl rfl) rfl (by decide)
    (by simp [hlexers])

theorem keeps_actionScript3 : ActionScript.table3.Keeps "" parameters.shapes :=
  .of_quiet _ _ parameters.keeps (by decide) rfl rfl

theorem bounded_actionScript3 : ActionScript.lexer3.Ensures (Bounded ActionScript.info3 []) :=
  have hlexers : ActionScript.table3.lexers = [] := rfl
  ensures_bounded_plain keeps_actionScript3 rfl (by decide) (by simp [hlexers])

theorem keeps_xml : Xml.table.Keeps "" markup.shapes :=
  .of_quiet _ _ markup.keeps (by decide) rfl rfl

theorem bounded_xml : Xml.lexer.Ensures (Bounded Xml.info []) :=
  have hlexers : Xml.table.lexers = [] := rfl
  ensures_bounded_plain keeps_xml rfl (by decide) (by simp [hlexers])

theorem bounded_xslt : Xml.xsltLexer.Ensures (Bounded Xml.xsltInfo []) := by
  let draft (table : Table) : LexerDraft :=
    { info := Xml.xsltInfo, table, filter? := some Xml.markInstructions }
  have hdraft : ∀ t, (draft t).table = t := fun _ => rfl
  have hlexers : Xml.table.lexers = [] := rfl
  exact ensures_bounded keeps_xml hdraft (fun _ => rfl) (fun _ => keeps_xml.root) rfl (by decide)
    (by simp [hlexers])

theorem bounded_mxml : Xml.mxmlLexer.Ensures (Bounded Xml.mxmlInfo []) := by
  refine bounded_actionScript3.bind fun script hscript => ?_
  have hlexers : (Xml.mxmlTable script).lexers = [script] := rfl
  have houtline : (Xml.mxmlTable script).outline = Xml.table.outline := rfl
  have hkeeps : (Xml.mxmlTable script).Keeps "" markup.shapes :=
    .of_quiet "" markup.shapes (houtline ▸ markup.keeps) (TableDraft.restsOn_of_none rfl "") rfl rfl
  refine ensures_bounded_plain hkeeps rfl (by decide) fun other hother => ?_
  obtain rfl : other = script := List.mem_singleton.1 (hlexers ▸ hother)
  exact hscript.2

theorem bounded_css : Css.lexer.Ensures (Lexer.Bounded deepest? [Css.info.name]) := by
  refine ensures_plain fun t ht => ?_
  have hquiet := TableDraft.not_handsTo ht rfl
  intro text depth inner turns hwithin
  rw [Run.eq_of_within hquiet hwithin]
  exact .inl (List.mem_singleton_self _)

theorem bounded_html : Html.lexer.Ensures (Bounded Html.info [Css.info.name]) := by
  refine bounded_javaScript.bind fun script hscript => bounded_css.bind fun style hstyle => ?_
  have hlexers : (Html.table script style).lexers = [script, style] := rfl
  have houtline : (Html.table script style).outline = Html.frame.outline := rfl
  have hkeeps : (Html.table script style).Keeps "" bodies.shapes :=
    .of_quiet "" bodies.shapes (houtline ▸ bodies.keeps)
      (TableDraft.restsOn_of_none (Html.included_none script style) "") rfl rfl
  refine ensures_bounded_plain hkeeps rfl (by decide) fun other hother => ?_
  rcases List.mem_pair.1 (hlexers ▸ hother) with rfl | rfl
  · exact hscript.2.mono (List.nil_subset _)
  · exact hstyle

theorem leavesStack_heredoc (found : Match) (place : Cursor) (view : View) :
    (Php.heredoc found place view).LeavesStack := by
  rw [Php.heredoc]
  split <;> exact .run rfl (.run rfl .done)

theorem bounded_php (options : Options) : (Php.lexer options).Ensures (Bounded Php.info []) := by
  have hcallbacks : Php.table.callbacks = [Php.heredoc] := rfl
  have hlexers : Php.table.lexers = [] := rfl
  have hkeeps : Php.table.Keeps "" statements.shapes := by
    refine ⟨statements.keeps, by decide, rfl, fun f hf found place view => ?_⟩
    obtain rfl : f = Php.heredoc := List.mem_singleton.1 (hcallbacks ▸ hf)
    exact leavesStack_heredoc found place view
  have hstart : ∀ inline : Bool,
      ((if inline then some ["root", "php"] else none).getD ["root"]).reverse ∈ statements.shapes := by
    decide
  have hbound : deepest? Php.info.name = some 3 := rfl
  rw [Php.lexer]
  refine (ensures_true _).bind fun _ _ => ?_
  refine ensures_bounded hkeeps ?_ ?_ ?_ hbound ?_ ?_
  · exact fun _ => rfl
  · exact fun _ => rfl
  · exact fun _ => hstart _
  · decide
  · simp [hlexers]

/-- The languages whose runs are not bounded, of those that text of a language is handed to. -/
def unbounded (info : LexerInfo) : List String :=
  if info = Html.info then [Css.info.name] else []

theorem bounded_languages {language : Language} (h : language ∈ languages)
    (hknown : (deepest? language.info.name).isSome) (options : Options) :
    (language.build options).Ensures (Bounded language.info (unbounded language.info)) := by
  simp only [languages, List.mem_cons, List.not_mem_nil, or_false] at h
  rcases h with rfl | rfl | rfl | rfl | rfl | rfl | rfl | rfl | rfl | rfl | rfl | rfl | rfl | rfl
  · exact bounded_javaScript
  · exact bounded_actionScript
  · exact bounded_actionScript3
  · cases hknown
  · cases hknown
  · exact bounded_html
  · exact bounded_php options
  · exact bounded_xml
  · exact bounded_xslt
  · exact bounded_mxml
  · cases hknown
  · cases hknown
  · cases hknown
  · exact bounded_coffeeScript

/-- Whatever the text, a run in one of these languages never has more states on its stack than is
said of the language, nor do the runs that it starts, but for style sheets in HTML. None of them
makes a push onto a full stack, so none is noted as refused, unless by a style sheet. -/
theorem stacks_stay_small {language : Language} (h : language ∈ languages) {bound : Nat}
    (hbound : deepest? language.info.name = some bound) (options : Options) {l : Lexer}
    (hbuild : (language.build options).outcome.1 = .ok l) (text : String) :
    let r := l.run text
    (∀ turns, (Point.after turns r).run.stack.depth ≤ bound ∧ ¬(Point.after turns r).Refuses) ∧
    (∀ inner turns, r.Within inner → inner.lexer.name ∉ unbounded language.info →
      ∃ bound, deepest? inner.lexer.name = some bound ∧
        (Point.after turns inner).run.stack.depth ≤ bound ∧ ¬(Point.after turns inner).Refuses) ∧
    (RefusalIn r.complete.2.notices → ∃ inner turns, r.Within inner ∧
      inner.lexer.name ∈ unbounded language.info ∧ (Point.after turns inner).Refuses) := by
  intro r
  obtain ⟨hname, hbounded⟩ :=
    (bounded_languages h (by rw [hbound]; rfl) options).outcome hbuild
  have hother : l.name ∉ unbounded language.info := by
    rw [hname, unbounded]
    split
    · next hinfo =>
      rw [hinfo]
      decide
    · exact List.not_mem_nil
  have hwithin : ∀ inner turns, r.Within inner → inner.lexer.name ∉ unbounded language.info →
      ∃ bound, deepest? inner.lexer.name = some bound ∧
        (Point.after turns inner).run.stack.depth ≤ bound ∧ ¬(Point.after turns inner).Refuses :=
    fun inner turns hinner hnot => (hbounded _ 0 inner turns hinner).resolve_left hnot
  refine ⟨fun turns => ?_, hwithin, fun hrefusal => ?_⟩
  · obtain ⟨bound', hbound', hdepth, hnot⟩ := hwithin r turns .outermost hother
    have hsame : deepest? l.name = some bound := hname ▸ hbound
    cases hsame.symm.trans hbound'
    exact ⟨hdepth, hnot⟩
  · obtain ⟨inner, turns, hinner, hrefuses⟩ :=
      (refusalIn_complete l l.initial text.toList 0).1 hrefusal
    by_cases hmem : inner.lexer.name ∈ unbounded language.info
    · exact ⟨inner, turns, hinner, hmem, hrefuses⟩
    · obtain ⟨_, -, -, hnot⟩ := hwithin inner turns hinner hmem
      exact absurd hrefuses hnot

theorem mem_coffeeScript :
    ⟨CoffeeScript.info, fun _ => CoffeeScript.lexer, nothing⟩ ∈ languages := by
  simp [languages]

theorem stacks_stay_small_opening : ∃ l, CoffeeScript.lexer.outcome.1 = .ok l ∧
    deepest? CoffeeScript.info.name = some 2 ∧
    let r := l.run "<!--"
    (∀ turns, (Point.after turns r).run.stack.depth ≤ 2) ∧
      ¬RefusalIn r.complete.2.notices := by
  obtain ⟨t, htable, -⟩ := CoffeeScript.exists_table
  have hbuild := CoffeeScript.outcome_lexer htable
  obtain ⟨hdepth, -, hrefusal⟩ :=
    stacks_stay_small mem_coffeeScript (rfl : _ = some 2) {} hbuild "<!--"
  refine ⟨_, hbuild, rfl, fun turns => (hdepth turns).1, fun hnoted => ?_⟩
  obtain ⟨_, _, -, hmem, -⟩ := hrefusal hnoted
  cases hmem

end Catalog

end RuleLexer
