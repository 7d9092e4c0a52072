import RuleLexer.Proofs.HeredocEnd
import RuleLexer.Proofs.LanguageStacks
import RuleLexer.Proofs.ObjectiveJ
import RuleLexer.Proofs.Sass
import RuleLexer.Proofs.Scss
import RuleLexer.Proofs.UnclosedHeredoc
import RuleLexer.Proofs.Xslt

/-! Languages no step of which stalls. The rules of most of them consume something, the end of a
text in PHP included, and those of ActionScript 3 that need not do so leave a state behind. In SCSS
and Objective-J they raise the rank of the state, and what is known of the runs of JavaScript and of
Sass says it of theirs. -/
namespace RuleLexer
open RuleLexer.Text RuleLexer.Language

namespace Language.Php
variable {place : Cursor} {found : Match}

theorem passes_heredocStop {stop : Nat} (hfound : Boundary place.offset place.ahead found.stop)
    (h : heredocStop? found place = some stop) :
    ∃ piece next, place.Passes piece next ∧ piece ≠ [] ∧ next.offset = stop := by
  rw [heredocStop?] at h
  split at h
  · next opening name closing _ _ _ =>
    obtain ⟨-, h⟩ := Option.ite_none_right_eq_some.1 h
    obtain ⟨end?, hend, hsees⟩ := heredocEnd?_eq name hfound
    rw [hend] at h
    obtain ⟨line, ⟨before, hline⟩, hlook, -⟩ := (hsees stop).1 h
    obtain ⟨piece, next, hcloses, hoffset⟩ := (closingEnd?_eq_some.1 hlook).exists_passes
    obtain ⟨hpasses, -⟩ := Cursor.passes_boundary hfound
    exact ⟨_, next, (hpasses.trans hline).trans hcloses, by simp, hoffset⟩
  · cases h

/-- Whether the text is closed or not, something is emitted and passed over. -/
theorem heredoc_passes {names : List String} {c : CompiledRule}
    (h : heredocRule.Binds table.flags names c) (hfound : c.matcher.matchAt place = some found)
    (hfits : found.Fits place) : ∃ piece next category, place.Passes piece next ∧ piece ≠ [] ∧
      ∀ view, heredoc found place view =
        .run (.emit next.offset category) (.run (.continueAt next.offset) .done) := by
  cases hstop : heredocStop? found place with
  | some stop =>
    obtain ⟨piece, next, hpasses, hpiece, rfl⟩ := passes_heredocStop hfits.stop hstop
    exact ⟨piece, next, .string, hpasses, hpiece, fun view => by rw [heredoc, hstop]⟩
  | none =>
    obtain ⟨next, hnext, -, hspan⟩ := brackets_of_heredocRule h hfound
    exact ⟨brackets, next, .operator, hnext, List.cons_ne_nil _ _,
      heredoc_of_none hstop hnext hfits.start hspan⟩

theorem moves_table : table.Moves := surveyed_table.moves fun _ _ _ _ h => h

theorem smooth_of_table {t : Table} (htable : table.compile = .ok t) {l : Lexer}
    (hl : l.table = t) : l.Smooth := by
  have hlexers : table.lexers = [] := rfl
  refine TableDraft.smooth_of_climbs htable hl (.of_moves fun {r rule found} hlexer hwinner => ?_)
    (fun other states hmem => by cases delegates_table _ hmem) (by simp [hlexers])
  have hr : r.table = t := by rw [Run.table, hlexer, hl]
  by_cases hcallback : ∃ f, rule.action = .callback f
  · obtain ⟨f, hf⟩ := hcallback
    obtain ⟨rules, hrules, hrule⟩ := Run.exists_rules_of_winner hwinner
    obtain ⟨state, hstate, q, hq, hbinds⟩ :=
      (TableDraft.compile_ok htable).2.2 rules (hr ▸ hrules) rule hrule
    obtain rfl := eq_heredocRule ⟨_, hstate, hq⟩ hbinds hf
    have hscript : f = heredoc := by
      have hrel := (hbinds.callback_iff f).1 hf
      cases hrel
      rfl
    subst hscript
    obtain ⟨piece, next, category, hpasses, hpiece, hruns⟩ :=
      heredoc_passes hbinds (Run.matchAt_of_firstMatch hwinner) (Run.firstMatch_some hwinner).2
    rw [Run.follow_snd, Run.act_of_callback _ hpasses hpiece hf hruns]
    exact hpasses.offset_lt hpiece
  · exact Run.offset_lt_follow hwinner (fun f hf => hcallback ⟨f, hf⟩)
      (moves_table.upTo_ne_nil htable hr hwinner) _

end Language.Php

namespace Language.Xml

theorem moves_table : table.Moves :=
  surveyed_table.moves fun _ _ _ _ h => (Bool.and_eq_true_iff.1 h).1

def cdata : String := "(<!\\[CDATA\\[)(.*?)(\\]\\]>)"

theorem shows_cdata : Pattern.shows (fun body _ => body.moves) table.flags cdata.toList none := by
  decide +kernel

theorem moves_mxmlTable (script : Lexer) : (mxmlTable script).Moves := by
  intro state r ⟨entries, hstate, he⟩
  have hstates : (mxmlTable script).states =
      ("root", table.states[0].2.take 2 ++
        Entry.groups cdata [.token .string, .delegate (.through script), .token .string] ::
          table.states[0].2.drop 3) :: table.states.drop 1 := rfl
  rw [hstates] at hstate
  rcases List.mem_cons.1 hstate with heq | hstate
  · cases heq
    rcases List.mem_append.1 he with he | he
    · exact moves_table "root" r ⟨_, mem_root, List.mem_of_mem_take he⟩
    · rcases List.mem_cons.1 he with heq | he
      · cases heq
        exact shows_cdata
      · exact moves_table "root" r ⟨_, mem_root, List.mem_of_mem_drop he⟩
  · exact moves_table state r ⟨_, List.mem_of_mem_drop hstate, he⟩

end Language.Xml

namespace Build

theorem ensures_smooth_of_moves {d : TableDraft} (h : d.Moves) (hcallbacks : d.callbacks = [])
    (hwhole : ∀ other states, .lexer other (some states) ∉ d.delegates)
    (hothers : ∀ other ∈ d.lexers, other.Smooth) {draft : Table → LexerDraft}
    (hdraft : ∀ t, (draft t).table = t) :
    (table d >>= fun t => lexer (draft t)).Ensures Lexer.Smooth :=
  (ensures_table d).bind fun t ht notices l hl =>
    have htable : l.table = t := (ensures_lexer (draft t) notices l hl).trans (hdraft t)
    TableDraft.smooth_of_climbs ht htable (h.climbs ht htable hcallbacks) hwhole hothers

theorem ensures_smooth_of_alone {d : TableDraft} (h : d.Moves) (hcallbacks : d.callbacks = [])
    (hdelegates : d.delegates = []) (hlexers : d.lexers = []) {draft : Table → LexerDraft}
    (hdraft : ∀ t, (draft t).table = t) :
    (table d >>= fun t => lexer (draft t)).Ensures Lexer.Smooth :=
  ensures_smooth_of_moves h hcallbacks (by simp [hdelegates]) (by simp [hlexers]) hdraft

end Build

namespace Catalog
open Build

theorem smooth_javaScript : JavaScript.lexer.Ensures Lexer.Smooth := by
  refine ensures_plain fun t ht => ?_
  obtain ⟨t', ht', -, hroot, -⟩ := JavaScript.exists_table
  cases ht.symm.trans ht'
  exact Lexer.smooth_of_quiet (TableDraft.not_handsTo ht rfl) fun text depth turns =>
    (JavaScript.keeps_after ht text depth hroot turns).not_stalls ht (.after _ _ _ _ turns)

theorem smooth_sass : Sass.lexer.Ensures Lexer.Smooth := by
  refine ensures_plain fun t ht => Lexer.smooth_of_quiet (TableDraft.not_handsTo ht rfl)
    fun text depth turns reason hstalls => ?_
  exact ((Sass.inLines_after ht text depth turns).goes ht hstalls.ahead).smooth reason
    hstalls.refused

theorem smooth_scss : Sass.scssLexer.Ensures Lexer.Smooth :=
  ensures_plain fun _ ht => Scss.smooth_lexer ht

theorem smooth_objectiveJ : ObjectiveJ.lexer.Ensures Lexer.Smooth :=
  ensures_plain fun _ ht => ObjectiveJ.smooth_lexer ht

theorem smooth_actionScript : ActionScript.lexer.Ensures Lexer.Smooth :=
  ensures_smooth_of_alone (ActionScript.surveyed_table.moves fun _ _ _ _ h => h) rfl rfl rfl
    fun _ => rfl

theorem smooth_actionScript3 : ActionScript.lexer3.Ensures Lexer.Smooth := by
  have hlexers : ActionScript.table3.lexers = [] := rfl
  have hkeeps := keeps_actionScript3
  refine ensures_plain fun t ht => ?_
  have hroot := TableDraft.named_root ht
  exact hkeeps.smooth ActionScript.surveyed_table3
    (fun _ _ _ _ h => (Bool.or_eq_true_iff.1 h).imp_right of_decide_eq_true) (by decide) rfl ht rfl
    (hkeeps.start ht rfl (.cons hroot .nil) (List.cons_ne_nil _ _) hkeeps.root)
    (by simp [hlexers])

theorem smooth_css : Css.lexer.Ensures Lexer.Smooth :=
  ensures_smooth_of_alone (Css.surveyed_table.moves fun _ _ _ _ h => (Bool.and_eq_true_iff.1 h).1)
    rfl rfl rfl fun _ => rfl

theorem smooth_html : Html.lexer.Ensures Lexer.Smooth := by
  refine smooth_javaScript.bind fun script hscript => smooth_css.bind fun style hstyle => ?_
  have hlexers : (Html.table script style).lexers = [script, style] := rfl
  have hdelegates : (Html.table script style).delegates =
      [.lexer script none, .lexer style none] := rfl
  refine ensures_smooth_of_moves ((Html.surveyed_table script style).moves fun _ _ _ _ h => h) rfl
    (by simp [hdelegates]) (fun other hother => ?_) fun _ => rfl
  rcases List.mem_pair.1 (hlexers ▸ hother) with rfl | rfl
  · exact hscript
  · exact hstyle

theorem smooth_php (options : Options) : (Php.lexer options).Ensures Lexer.Smooth := by
  rw [Php.lexer]
  refine (ensures_true _).bind fun _ _ => (ensures_table Php.table).bind fun t ht notices l hl => ?_
  exact Php.smooth_of_table ht (ensures_lexer _ notices l hl)

theorem smooth_xml : Xml.lexer.Ensures Lexer.Smooth :=
  ensures_smooth_of_alone Xml.moves_table rfl rfl rfl fun _ => rfl

theorem smooth_xslt : Xml.xsltLexer.Ensures Lexer.Smooth :=
  ensures_smooth_of_alone Xml.moves_table rfl rfl rfl fun _ => rfl

theorem smooth_mxml : Xml.mxmlLexer.Ensures Lexer.Smooth := by
  refine smooth_actionScript3.bind fun script hscript => ?_
  have hlexers : (Xml.mxmlTable script).lexers = [script] := rfl
  have hdelegates : (Xml.mxmlTable script).delegates = [.lexer script none] := rfl
  refine ensures_smooth_of_moves (Xml.moves_mxmlTable script) rfl (by simp [hdelegates])
    (fun other hother => ?_) fun _ => rfl
  obtain rfl : other = script := List.mem_singleton.1 (hlexers ▸ hother)
  exact hscript

/-- The languages a step of which may stall. -/
def mayStall : List String := [Haxe.info.name, CoffeeScript.info.name]

theorem smooth_languages {language : Language} (h : language ∈ languages)
    (hsmooth : language.info.name ∉ mayStall) (options : Options) :
    (language.build options).Ensures Lexer.Smooth := by
  simp only [languages, List.mem_cons, List.not_mem_nil, or_false] at h
  rcases h with rfl | rfl | rfl | rfl | rfl | rfl | rfl | rfl | rfl | rfl | rfl | rfl | rfl | rfl
  · exact smooth_javaScript
  · exact smooth_actionScript
  · exact smooth_actionScript3
  · exact smooth_css
  · exact smooth_objectiveJ
  · exact smooth_html
  · exact smooth_php options
  · exact smooth_xml
  · exact smooth_xslt
  · exact smooth_mxml
  · exact absurd (.head _) hsmooth
  · exact smooth_sass
  · exact smooth_scss
  · exact absurd (.tail _ (.head _)) hsmooth

end Catalog

end RuleLexer
