import RuleLexer.Language.Html
import RuleLexer.Proofs.Css
import RuleLexer.Proofs.Endings
import RuleLexer.Proofs.JavaScript
import RuleLexer.Proofs.Resuming

/-! Bodies of scripts and style sheets. What stands between the tags is handed on as a whole, up to
the first closing tag, whatever it looks like; then the run goes on as one that starts there. -/
namespace RuleLexer

namespace Language.Html
open RuleLexer.Text RuleLexer.Regex Entry

/-! The table -/

def bare : Lexer := ⟨info, ⟨[], [], 0, .text, false, {}⟩, [], none, []⟩

def frame : TableDraft := table bare bare

def closes (ending : String) : Rule Delegate :=
  ⟨.pattern ending none, .emit .nameTag, some (.pop 1)⟩

def takes (ending : String) (l : Lexer) : Rule Delegate :=
  ⟨.pattern ".+?" (some ending), .delegate (.lexer l none), none⟩

def found (e : Entry Delegate) : Bool := e.checks (fun _ body _ => body.moves) frame.flags frame.names

section table
variable (script style : Lexer)

theorem states_eq : (table script style).states = frame.states.take 3 ++
    [("script-content", [.rule (closes scriptEnd), .rule (takes scriptEnd script)]),
      ("style-content", [.rule (closes styleEnd), .rule (takes styleEnd style)])] ++
    frame.states.drop 5 := rfl

theorem names_eq : (table script style).names = frame.names := rfl

theorem found_others : (frame.states.take 3).all (·.2.all found) ∧
    (frame.states.drop 5).all (·.2.all found) := by
  decide +kernel

def endings : {endings : List String // ∀ ending ∈ endings,
    Pattern.shows (fun body _ => body.moves) frame.flags ending.toList none ∧
      Pattern.shows (fun body _ => body.moves) frame.flags ['.', '+', '?'] (some ending)} :=
  ⟨[scriptEnd, styleEnd], by decide +kernel⟩

theorem found_content {ending : String} (hending : ending ∈ endings.1) (l : Lexer) :
    ∀ e ∈ [.rule (closes ending), .rule (takes ending l)], found e := by
  obtain ⟨hcloses, htakes⟩ := endings.2 ending hending
  simp [found, closes, takes, checks, Rule.finds, Rule.shows, Action.finds, Delegate.finds,
    StackOp.states, hcloses, htakes]

theorem found_all : ∀ state ∈ (table script style).states, ∀ e ∈ state.2, found e := by
  obtain ⟨hfirst, hlast⟩ := found_others
  rw [states_eq, List.forall_mem_append, List.forall_mem_append, List.forall_mem_cons,
    List.forall_mem_singleton]
  exact ⟨⟨fun state hstate => List.all_eq_true.1 (List.all_eq_true.1 hfirst state hstate),
    found_content (by simp [endings]) script, found_content (by simp [endings]) style⟩,
    fun state hstate => List.all_eq_true.1 (List.all_eq_true.1 hlast state hstate)⟩

theorem included_none :
    (table script style).states.flatMap (·.2.filterMap Entry.included?) = [] := rfl

theorem restsOn_table : (table script style).RestsOn "root" :=
  TableDraft.restsOn_of_none (included_none script style) "root"

theorem surveyed_table : (table script style).Surveyed fun _ _ body _ => body.moves :=
  have hframe : frame.names.Nodup ∧ frame.root ∈ frame.names ∧
      frame.names.length ≤ TableError.maxStates := by decide
  .of_checks rfl hframe.1 hframe.2.1 hframe.2.2 (restsOn_table script style).acyclic
    (found_all script style)

theorem mem_root : ("root", frame.states[0].2) ∈ (table script style).states :=
  List.mem_of_getElem? (show (table script style).states[0]? = _ from rfl)

theorem mem_tag : ("tag", frame.states[2].2) ∈ (table script style).states :=
  List.mem_of_getElem? (show (table script style).states[2]? = _ from rfl)

def lexerOf (t : Table) : Lexer := ⟨info, t, [t.root], none, []⟩

theorem exists_table : ∃ t, (table script style).compile = .ok t ∧ t.names = frame.names ∧
    t.root = 0 := by
  obtain ⟨t, hcompile, hnames, hroot, -⟩ := (surveyed_table script style).exists_table
  have hplace : Named frame.names frame.root 0 := rfl
  exact ⟨t, hcompile, hnames, Option.some.inj (hroot.symm.trans hplace)⟩

theorem callbacks_table : (table script style).callbacks = [] := rfl

variable {script style} {t : Table} (htable : (table script style).compile = .ok t)
include htable

theorem binds_rules {state : String} {entries : List (Entry Delegate)}
    (hstate : (state, entries) ∈ (table script style).states) (id : StateId)
    (hid : Named t.names state id) :
    List.Forall₂ (Rule.Binds frame.flags t.names) (entries.filterMap Entry.rule?)
      (t.rulesOf id) := by
  rw [TableDraft.names_of_compile_ok htable] at hid ⊢
  exact (surveyed_table script style).resolved.binds_written htable (included_none script style) hstate hid

end table

/-! Bodies -/

inductive Element
  | script
  | style

namespace Element

def name : Element → String
  | script => "script"
  | style => "style"

def opening (e : Element) : List Char := '<' :: e.name.toList

def closing (e : Element) : List Char := ['<', '/'] ++ e.name.toList ++ ['>']

def ending : Element → String
  | script => scriptEnd
  | style => styleEnd

def content : Element → String
  | script => "script-content"
  | style => "style-content"

def place : Element → Nat
  | script => 6
  | style => 7

def opens (e : Element) : Rule Delegate :=
  ⟨.pattern ("<\\s*" ++ e.name ++ "\\s*") none, .emit .nameTag, some (.push [e.content, "tag"])⟩

def pick (script style : Lexer) : Element → Lexer
  | .script => script
  | .style => style

def reader : Element → Build Lexer
  | script => JavaScript.lexer
  | style => Css.lexer

end Element

def rootRules : List (Rule Delegate) := frame.states[0].2.filterMap Entry.rule?

def tagRules : List (Rule Delegate) := frame.states[2].2.filterMap Entry.rule?

def tagEnd : Rule Delegate := ⟨.pattern "/?\\s*>" none, .emit .nameTag, some (.pop 1)⟩

theorem rules_at (e : Element) :
    rootRules[e.place]? = some e.opens ∧ tagRules[3]? = some tagEnd := by
  cases e <;> exact ⟨rfl, rfl⟩

theorem wins_opens (e : Element) : Rule.wins frame.flags [e.opening ++ ['>']] e.place rootRules ∧
    e.opens.spans frame.flags [(e.opening, ['>'])] := by
  cases e <;> decide +kernel

theorem wins_tagEnd : Rule.wins frame.flags [['>']] 3 tagRules ∧
    tagEnd.spans frame.flags [(['>'], [])] := by
  decide +kernel

theorem wins_closes (e : Element) (l : Lexer) :
    Rule.wins frame.flags [e.closing ++ []] 0 [closes e.ending, takes e.ending l] ∧
      (closes e.ending).spans frame.flags [(e.closing, [])] := by
  show (closes e.ending).takes frame.flags [e.closing ++ []] ∧ _
  cases e <;> decide +kernel

theorem ends_closing (e : Element) :
    Pattern.ends frame.flags e.ending '<' ('/' :: e.name.toList ++ ['>']) := by
  cases e <;> decide +kernel

theorem mem_content (script style : Lexer) (e : Element) :
    (e.content, [.rule (closes e.ending), .rule (takes e.ending (e.pick script style))]) ∈
      (table script style).states := by
  rw [states_eq]
  cases e <;> simp [Element.content, Element.ending, Element.pick]

section bodies
variable {script style : Lexer} {t : Table} (htable : (table script style).compile = .ok t)
include htable

theorem not_callback : ∀ rules ∈ t.rules, ∀ rule ∈ rules, ∀ f, rule.action ≠ .callback f := by
  intro rules hrules rule hrule f hf
  have hmem := TableDraft.mem_callbacks htable hrules hrule hf
  rw [callbacks_table] at hmem
  cases hmem

theorem tokens_body (e : Element) {alone : Pattern}
    (halone : Pattern.compile e.ending none frame.flags = .ok alone) {body : List Char}
    (hbody : body ≠ []) (hnone : alone.regex.isMatch body = false) (rest : List Char) :
    let start := e.opening ++ ['>']
    let reader := e.pick script style
    (Run.start (lexerOf t) [0] (start ++ body ++ e.closing ++ rest) 0).tokens =
      [⟨0, .nameTag, String.ofList e.opening⟩, ⟨byteLength e.opening, .nameTag, ">"⟩] ++
      (Run.start reader reader.initial body 1).tokens.map (·.shift (byteLength start)) ++
      ⟨byteLength (start ++ body), .nameTag, String.ofList e.closing⟩ ::
      (Run.resume (lexerOf t) [0] (start ++ body ++ e.closing ++ rest)
        (byteLength (start ++ body ++ e.closing))).tokens := by
  intro start reader
  have hroot : Named t.names "root" 0 := by
    rw [TableDraft.names_of_compile_ok htable]
    rfl
  have hrules := @binds_rules script style t htable
  obtain ⟨hopens, htagEnd⟩ := rules_at e
  have hroom : 3 ≤ Stack.maxDepth ∧ 2 ≤ Stack.maxDepth ∧ 1 ≤ Stack.maxDepth := by decide
  have h₀ := Run.standsAt_start (l := lexerOf t) hroot
    (e.opening ++ (['>'] ++ (body ++ (e.closing ++ rest))))
  obtain ⟨r₁, h₁, htokens₁⟩ := h₀.emits (w := (e.opening, ['>'])) (hrules (mem_root script style))
    hopens (wins_opens e).1 (wins_opens e).2 rfl (List.cons_ne_nil _ _) hroom.1
  have h₁ : Run.StandsAt (lexerOf t) e.opening (['>'] ++ (body ++ (e.closing ++ rest)))
      ["tag", e.content, "root"] r₁ := h₁
  obtain ⟨r₂, h₂, htokens₂⟩ := h₁.emits (w := (['>'], [])) (hrules (mem_tag script style))
    htagEnd wins_tagEnd.1 wins_tagEnd.2 rfl (List.cons_ne_nil _ _) hroom.2.1
  have h₂ : Run.StandsAt (lexerOf t) start (body ++ (e.closing ++ rest)) [e.content, "root"] r₂ :=
    h₂
  obtain ⟨r₃, h₃, htokens₃⟩ := h₂.hands (q := takes e.ending reader)
    (hrules (mem_content script style e)) hbody rfl (fun compiled hcompiled =>
      Run.firstMatch_ending (ends_closing e) rfl rfl hcompiled halone hbody hnone h₂.ahead)
    hroom.2.1
  have h₃ : Run.StandsAt (lexerOf t) (start ++ body) (e.closing ++ rest) [e.content, "root"] r₃ :=
    h₃
  obtain ⟨r₄, h₄, htokens₄⟩ := h₃.emits (w := (e.closing, [])) (hrules (mem_content script style e))
    (q := closes e.ending) (i := 0) rfl (wins_closes e reader).1 (wins_closes e reader).2 rfl
    (by simp [Element.closing]) hroom.2.2
  have h₄ : Run.StandsAt (lexerOf t) (start ++ body ++ e.closing) rest ["root"] r₄ := h₄
  have htokens₄' := (Run.standsAt_resume hroot).tokens_eq h₄ (not_callback htable)
  have htext : start ++ body ++ e.closing ++ rest =
      e.opening ++ (['>'] ++ (body ++ (e.closing ++ rest))) := by simp [start]
  have hfirst := congrArg (fun text => (Run.start (lexerOf t) [0] text 0).tokens) htext
  have hsame : ∀ token, (lexerOf t).recategorise token = token := fun _ => rfl
  rw [hfirst, htokens₁, htokens₂, htokens₃, htokens₄, htokens₄']
  simp [hsame]

end bodies

def Element.bodyStart : Element → Nat
  | .script => 8
  | .style => 7

/-- A body that is not empty and in which nothing closes its element is handed on as a whole: the
tokens of a run over it alone stand between those of the tags, moved to its place, and what comes
behind is what a run gives that goes on there in the root. -/
theorem bodies_handed_on : ∃ html, lexer.outcome.1 = .ok html ∧
    html.namesOf [html.table.root] = ["root"] ∧ ∀ e : Element, ∃ reader closes,
      e.reader.outcome.1 = .ok reader ∧
      Pattern.compile e.ending none frame.flags = .ok closes ∧
      ∀ body rest : String, body ≠ "" → closes.regex.isMatch body.toList = false →
        let element := "<" ++ e.name ++ ">" ++ body
        let closing := "</" ++ e.name ++ ">"
        let text := element ++ closing ++ rest
        html.tokens text =
          [⟨0, .nameTag, "<" ++ e.name⟩, ⟨e.bodyStart - 1, .nameTag, ">"⟩] ++
          (reader.tokens body).map (·.shift e.bodyStart) ++
          [⟨element.utf8ByteSize, .nameTag, closing⟩] ++
          (Run.resume html [html.table.root] text.toList
            (element ++ closing).utf8ByteSize).tokens := by
  obtain ⟨js, hjs, -⟩ := JavaScript.exists_table
  obtain ⟨css, hcss, -⟩ := Css.exists_table
  obtain ⟨t, htable, hnames, hroot⟩ := exists_table (JavaScript.lexerOf js) (Css.lexerOf css)
  have hlexer : lexer.Yields (lexerOf t) :=
    (Build.yields_plain hjs JavaScript.info).bind
      ((Build.yields_plain hcss Css.info).bind (Build.yields_plain htable info))
  have hname : t.stateName? 0 = some "root" := by
    rw [TableOf.stateName?, hnames]
    rfl
  refine ⟨lexerOf t, hlexer.outcome, by simp [LexerOf.namesOf, lexerOf, hroot, hname], fun e => ?_⟩
  let reader := e.pick (JavaScript.lexerOf js) (Css.lexerOf css)
  have hreader : e.reader.outcome.1 = .ok reader := by
    cases e
    · exact (Build.yields_plain hjs _).outcome
    · exact (Build.yields_plain hcss _).outcome
  have hquiet : ∀ rules ∈ reader.table.rules, ∀ rule ∈ rules, ∀ target,
      ¬rule.action.HandsTo target := by
    cases e
    · exact TableDraft.not_handsTo hjs rfl
    · exact TableDraft.not_handsTo hcss rfl
  obtain ⟨alone, -, -, halone, -⟩ := Pattern.exists_ending (ends_closing e)
  refine ⟨reader, alone, hreader, halone, fun body rest hbody hnone => ?_⟩
  intro element closing text
  have hopening : "<" ++ e.name = String.ofList e.opening := by cases e <;> decide
  have hclosing : closing = String.ofList e.closing := by cases e <;> decide
  have hstart : byteLength e.opening = e.bodyStart - 1 ∧
      byteLength (e.opening ++ ['>']) = e.bodyStart := by cases e <;> decide
  have helement : element.toList = e.opening ++ ['>'] ++ body.toList := by
    simp [element, hopening]
  have htext : text.toList = e.opening ++ ['>'] ++ body.toList ++ e.closing ++ rest.toList := by
    simp [text, helement, hclosing]
  have hbody' : body.toList ≠ [] := by simpa using hbody
  have htokens := tokens_body htable e halone hbody' hnone rest.toList
  have hdepth := Run.tokens_of_quiet hquiet reader.initial body.toList 1
  have hrun : (lexerOf t).tokens text = (Run.start (lexerOf t) [0] text.toList 0).tokens := by
    rw [LexerOf.tokens, LexerOf.run, lexerOf, hroot]
  have hbody : element.utf8ByteSize = byteLength (e.opening ++ ['>'] ++ body.toList) := by
    rw [← byteLength_toList, helement]
  have hrest : (element ++ closing).utf8ByteSize =
      byteLength (e.opening ++ ['>'] ++ body.toList ++ e.closing) := by
    rw [← byteLength_toList, String.toList_append, helement, hclosing, String.toList_ofList]
  dsimp only at htokens
  rw [hdepth, ← htext, hstart.1, hstart.2, ← hbody, ← hrest, ← hopening, ← hclosing] at htokens
  simpa [hrun, lexerOf, hroot, LexerOf.tokens, LexerOf.run] using htokens

theorem half_closes_nothing : ∃ closes, Pattern.compile scriptEnd none frame.flags = .ok closes ∧
    closes.regex.isMatch "</b".toList = false := by
  have hhalf : (Pattern.tree? frame.flags scriptEnd.toList none).any fun tree =>
      tree.fitsWith CharSet.roughRoom && !tree.regex.isMatch "</b".toList := by decide +kernel
  obtain ⟨tree, htree, htests⟩ := (Option.any_eq_true _ _).1 hhalf
  simp only [Bool.and_eq_true, Bool.not_eq_true'] at htests
  obtain ⟨closes, hcompile, hregex, -⟩ :=
    Pattern.compile_of_tree htree (Ast.fits_of_rough htests.1)
  exact ⟨closes, hcompile, hregex ▸ htests.2⟩

theorem bodies_handed_on_half : ∃ html reader closes, lexer.outcome.1 = .ok html ∧
    JavaScript.lexer.outcome.1 = .ok reader ∧
    Pattern.compile scriptEnd none frame.flags = .ok closes ∧
    "</b" ≠ "" ∧ closes.regex.isMatch "</b".toList = false ∧
    html.tokens "<script></b</script>" =
      [⟨0, .nameTag, "<script"⟩, ⟨7, .nameTag, ">"⟩] ++ (reader.tokens "</b").map (·.shift 8) ++
        [⟨11, .nameTag, "</script>"⟩] := by
  obtain ⟨html, hhtml, -, hall⟩ := bodies_handed_on
  obtain ⟨reader, closes, hreader, hcompile, hbodies⟩ := hall .script
  obtain ⟨closes', hcompile', hnone⟩ := half_closes_nothing
  cases hcompile.symm.trans hcompile'
  have htokens := hbodies "</b" "" (by decide) hnone
  have hend := Run.tokens_resume_end html [html.table.root] "<script></b</script>".toList
  refine ⟨html, reader, closes, hhtml, hreader, hcompile, by decide, hnone, htokens.trans ?_⟩
  show _ ++ (Run.resume html [html.table.root] "<script></b</script>".toList
    (byteLength "<script></b</script>".toList)).tokens = _
  rw [hend, List.append_nil]
  rfl

end Language.Html

end RuleLexer
