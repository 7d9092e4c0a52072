import RuleLexer.Proofs.Bouncing
import RuleLexer.Proofs.Greedy
import RuleLexer.Proofs.Php

/-! Texts that are opened and not closed. The rule that opens one matches only where three brackets
come and no character of an operator behind them. So what is left of it when it is not closed is just
what the rule for operators takes, which wins there if the other rule is taken out of the table. -/
namespace RuleLexer
open RuleLexer.Text RuleLexer.Regex

def Regex.Node.opens : List Char → Node → Bool
  | [], _ => true
  | d :: word, .seq (.set s) n => s == .single d && n.opens word
  | _ :: _, _ => false

theorem Regex.Node.Leads.opens {n : Node} {c c' : Cursor} {σ σ' : Slots} (h : n.Leads c σ c' σ')
    {word : List Char} (hopens : n.opens word) : ∃ more, c.Passes (word ++ more) c' := by
  induction word generalizing n c σ with
  | nil => exact h.passes
  | cons d word ih =>
    rw [Node.opens.eq_def] at hopens
    split at hopens
    · next hnil => cases hnil
    · next hcons =>
      cases hcons
      obtain ⟨hset, hrest⟩ := Bool.and_eq_true_iff.1 hopens
      cases h with
      | seq first second =>
        cases first with
        | set mem passes =>
          rw [eq_of_beq hset, CharSet.mem_single, beq_iff_eq] at mem
          obtain ⟨more, hmore⟩ := ih second hrest
          exact ⟨more, mem ▸ passes.trans hmore⟩
    · cases hopens

def Rule.opens (flags : PatternFlags) (word : List Char) (r : Rule Delegate) : Bool :=
  r.shows (fun body _ => body.opens word) flags

theorem Rule.Binds.exists_opens {flags : PatternFlags} {names : List String} {r : Rule Delegate}
    {c : CompiledRule} (h : r.Binds flags names c) {word : List Char} (hopens : r.opens flags word)
    {place : Cursor} {found : Match} (hfound : c.matcher.matchAt place = some found) :
    ∃ more, place.upTo found.stop = word ++ more ∧ word ++ more <+: place.ahead := by
  obtain ⟨body, after, hcheck, _, _, _, _, _, _, hbody, -, -, hstop⟩ := h.leads hopens hfound
  obtain ⟨more, hpasses⟩ := hbody.opens hcheck
  exact ⟨more, by rw [hstop, Cursor.upTo_of_passes hpasses], ⟨_, hpasses.ahead.symm⟩⟩

/-! Steps over a piece of the text -/

namespace Session
variable {s : Session} {piece : List Char} {next : Cursor}

theorem emit_of_passes (h : s.cursor.Passes piece next) (hpiece : piece ≠ []) (category : Category) :
    s.emit next.offset category =
      { s with run := s.run.emit s.cursor.offset category piece, cursor := next } := by
  have hlt := h.offset_lt hpiece
  simp only [emit, Cursor.seek_of_passes h, Nat.not_le.2 hlt, if_false, Cursor.upTo_of_passes h]

theorem emit_here (category : Category) : s.emit s.cursor.offset category = s := by
  simp only [emit, Cursor.seek_of_passes (Cursor.Passes.refl s.cursor), Nat.le_refl, if_true]

end Session

namespace Run
variable {r : Run} {rule : CompiledRule} {found : Match} {piece : List Char} {next : Cursor}
  (runner? : Option Runner)

def emitted (r : Run) (category : Category) (piece : List Char) (next : Cursor) : Run :=
  { r.emit r.position category piece with cursor := next, zeroSteps := 0 }

def onTable (r : Run) (t : Table) : Run := { r with lexer := { r.lexer with table := t } }

theorem onTable_emitted (t : Table) (category : Category) :
    (r.onTable t).emitted category piece next = (r.emitted category piece next).onTable t := by
  simp only [emitted, emit_eq]
  rfl

/-- A callback that emits a piece of the text and goes on behind it. -/
theorem act_of_callback (hpasses : r.cursor.Passes piece next) (hpiece : piece ≠ []) {f : Callback}
    {category : Category} (haction : rule.action = .callback f)
    (hf : ∀ view, f found r.cursor view =
      .run (.emit next.offset category) (.run (.continueAt next.offset) .done)) :
    r.act runner? rule.action found = (r.emit r.position category piece, next) := by
  let s : Session := ⟨r, r.cursor, r.cursor.seek found.stop⟩
  have hemit : s.emit next.offset category =
      { s with run := r.emit r.position category piece, cursor := next } :=
    Session.emit_of_passes hpasses hpiece category
  have hplay : s.play (f found r.cursor s.view) =
      ⟨r.emit r.position category piece, next, next⟩ := by
    rw [hf]
    simp only [Script.run, Session.play, Session.perform, hemit,
      Cursor.seek_of_passes (Cursor.Passes.refl next)]
  rw [haction]
  show (s.play (f found r.cursor s.view)).close = _
  rw [hplay, Session.close, Session.emit_here]

section step
variable (hwinner : r.winner? = some (rule, found)) (hop : rule.op? = none)
  (hpasses : r.cursor.Passes piece next) (hpiece : piece ≠ [])
include hwinner hop hpasses hpiece

theorem step_of_act {category : Category}
    (hact : r.act runner? rule.action found = (r.emit r.position category piece, next)) :
    r.step runner? = r.emitted category piece next := by
  have hlt : r.cursor.offset < next.offset := hpasses.offset_lt hpiece
  rw [step_eq, hwinner]
  simp only [apply, follow, hact, hop]
  rw [settle, emit_eq, if_pos hlt, emitted, emit_eq]

theorem step_of_emit {category : Category} (haction : rule.action = .emit category)
    (hspan : r.cursor.upTo found.stop = piece) :
    r.step runner? = r.emitted category piece next := by
  have hfits := (firstMatch_some hwinner).2
  obtain ⟨hmatch, -⟩ := Cursor.passes_boundary hfits.stop
  rw [hspan] at hmatch
  obtain ⟨-, hnext⟩ := hmatch.eq_of_offset hpasses (hmatch.offset.trans hpasses.offset.symm)
  refine step_of_act runner? hwinner hop hpasses hpiece ?_
  rw [haction, act, hfits.start, hspan, hnext]
  rfl

theorem step_of_callback {f : Callback} {category : Category} (haction : rule.action = .callback f)
    (hf : ∀ view, f found r.cursor view =
      .run (.emit next.offset category) (.run (.continueAt next.offset) .done)) :
    r.step runner? = r.emitted category piece next :=
  step_of_act runner? hwinner hop hpasses hpiece
    (act_of_callback runner? hpasses hpiece haction hf)

end step

end Run

namespace Language.Php

/-! The table without the rule -/

/-- The table without the rule that opens texts. -/
def plainTable : TableDraft :=
  { table with
    states := table.states.take 1 ++ [("php", phpEntries.take 1 ++ phpEntries.drop 2)] ++
      table.states.drop 2 }

theorem holds_table {state : String} {e : Entry Delegate} (h : plainTable.Holds state e) :
    table.Holds state e := by
  obtain ⟨entries, hstate, he⟩ := h
  simp only [plainTable, List.append_assoc, List.mem_append, List.mem_singleton] at hstate
  rcases hstate with hstate | hstate | hstate
  · exact ⟨entries, List.mem_of_mem_take hstate, he⟩
  · cases hstate
    refine ⟨phpEntries, List.getElem_mem (l := table.states) (n := 1) (by decide), ?_⟩
    rcases List.mem_append.1 he with he | he
    · exact List.mem_of_mem_take he
    · exact List.mem_of_mem_drop he
  · exact ⟨entries, List.mem_of_mem_drop hstate, he⟩

theorem resolved_plainTable : plainTable.Resolved :=
  ⟨rfl, resolved_table.distinct, resolved_table.root, resolved_table.few,
    fun state e h => resolved_table.entries state e (holds_table h)⟩

theorem exists_plainTable : ∃ t, plainTable.compile = .ok t := by
  have hrests : plainTable.RestsOn "root" := TableDraft.restsOn_of_none rfl "root"
  obtain ⟨_, _, _, -, -, -, hcompile⟩ := resolved_plainTable.compile_ok hrests.acyclic
  exact ⟨_, hcompile⟩

/-! Its rules -/

def heredocRule : Rule Delegate := ⟨.pattern heredocOpener none, .callback heredoc, none⟩

def operatorRule : Rule Delegate :=
  ⟨.pattern "[~!%^&*+=|:.<>/?@-]+" none, .emit .operator, none⟩

def phpRules : List (Rule Delegate) := phpEntries.filterMap Entry.rule?

def rulesBefore : List (Rule Delegate) := phpRules.take 1 ++ (phpRules.drop 2).take 7

def plainRules : List (Rule Delegate) := phpRules.take 1 ++ phpRules.drop 2

theorem phpRules_eq : phpRules = phpRules.take 1 ++ heredocRule :: phpRules.drop 2 := rfl

theorem plainRules_eq : plainRules = rulesBefore ++ operatorRule :: phpRules.drop 10 := rfl

def operatorSet : CharSet := .unions (operatorChars.map .single)

theorem mem_operatorSet (c : Char) : operatorSet.mem c = operatorChars.contains c := by
  rw [operatorSet, CharSet.mem_unions, Bool.eq_iff_iff]
  simp [CharSet.mem_single]

def brackets : List Char := List.replicate 3 '<'

theorem mem_brackets {d : Char} (hd : d ∈ brackets) : operatorChars.contains d := by
  have hbracket : operatorChars.contains '<' := by decide +kernel
  rwa [List.eq_of_mem_replicate hd]

theorem checks_rules : (∀ r ∈ rulesBefore, r.misses table.flags [['<']]) ∧
    heredocRule.opens table.flags brackets ∧
    heredocRule.misses table.flags (operatorChars.map fun d => brackets ++ [d]) ∧
    operatorRule.takesAll table.flags 1 operatorSet := by
  decide +kernel

theorem binds_php {t : Table} (h : table.compile = .ok t) {id : StateId}
    (hid : Named table.names "php" id) :
    List.Forall₂ (Rule.Binds table.flags table.names) phpRules (t.rulesOf id) := by
  have hstate : ("php", phpEntries) ∈ table.states := List.mem_cons_of_mem _ List.mem_cons_self
  exact resolved_table.binds_written h rfl hstate hid

theorem binds_plain {t : Table} (h : plainTable.compile = .ok t) {id : StateId}
    (hid : Named table.names "php" id) :
    List.Forall₂ (Rule.Binds table.flags table.names) plainRules (t.rulesOf id) := by
  have hstate : ("php", phpEntries.take 1 ++ phpEntries.drop 2) ∈ plainTable.states :=
    List.mem_append_left _ (List.mem_append_right _ (List.mem_singleton_self _))
  exact resolved_plainTable.binds_written h rfl hstate hid

theorem eq_heredocRule {names : List String} {state : String} {r : Rule Delegate}
    (hr : table.Holds state (.rule r)) {c : CompiledRule} (h : r.Binds table.flags names c)
    {f : Callback} (haction : c.action = .callback f) : r = heredocRule := by
  have hcallback : r.action.callback?.isSome := by
    rw [(h.callback_iff f).1 haction]
    rfl
  have hothers : (table.states.flatMap fun state => state.2.filterMap Entry.rule?).filter
      (·.action.callback?.isSome) = [heredocRule] := rfl
  obtain ⟨_, hstate, he⟩ := hr
  have hmem : r ∈ table.states.flatMap fun state => state.2.filterMap Entry.rule? :=
    List.mem_flatMap.2 ⟨_, hstate, List.mem_filterMap.2 ⟨_, he, rfl⟩⟩
  exact List.mem_singleton.1 (hothers ▸ List.mem_filter.2 ⟨hmem, hcallback⟩)

/-! What the rules make of the brackets -/

variable {names : List String} {place next : Cursor} {c : CompiledRule} {found : Match}

theorem brackets_of_heredocRule (h : heredocRule.Binds table.flags names c)
    (hfound : c.matcher.matchAt place = some found) :
    ∃ next, place.Passes brackets next ∧ (∀ d ∈ next.ahead.head?, operatorSet.mem d = false) ∧
      (place.upTo found.stop).takeWhile operatorChars.contains = brackets := by
  obtain ⟨-, hopens, hmisses, -⟩ := checks_rules
  obtain ⟨more, hspan, rest, hahead⟩ := h.exists_opens hopens hfound
  let next : Cursor := ⟨brackets.reverse ++ place.passed, more ++ rest, place.offset + 3⟩
  have hnext : place.Passes brackets next :=
    ⟨by rw [← hahead, List.append_assoc], rfl, rfl⟩
  have hother : ∀ d ∈ (more ++ rest).head?, operatorChars.contains d = false := by
    intro d hd
    obtain ⟨rest', hrest⟩ := List.head?_eq_some_iff.1 hd
    by_contra hcontains
    have hmem : brackets ++ [d] ∈ operatorChars.map fun d => brackets ++ [d] :=
      List.mem_map_of_mem (by simpa using hcontains)
    have hprefix : brackets ++ [d] <+: place.ahead :=
      ⟨rest', by rw [hnext.ahead, List.append_assoc]; exact congrArg (brackets ++ ·) hrest.symm⟩
    cases (h.matchAt_eq_none hmisses hmem hprefix).symm.trans hfound
  refine ⟨next, hnext, fun d hd => (mem_operatorSet d).trans (hother d hd), ?_⟩
  have hmore : more.takeWhile operatorChars.contains = [] := by
    cases more with
    | nil => rfl
    | cons d more => exact List.takeWhile_cons_of_neg (Bool.eq_false_iff.1 (hother d rfl))
  rw [hspan, List.takeWhile_append_of_pos fun d hd => mem_brackets hd, hmore, List.append_nil]

theorem operatorRule_wins {compiled : List CompiledRule}
    (hbinds : List.Forall₂ (Rule.Binds table.flags names) plainRules compiled)
    (hnext : place.Passes brackets next)
    (hother : ∀ d ∈ next.ahead.head?, operatorSet.mem d = false) :
    ∃ c found, operatorRule.Binds table.flags names c ∧
      Run.firstMatch place compiled = some (c, found) ∧ place.upTo found.stop = brackets := by
  obtain ⟨hmisses, -, -, htakes⟩ := checks_rules
  have hfirst : ['<'] <+: place.ahead := ⟨_, hnext.ahead.symm⟩
  rw [plainRules_eq] at hbinds
  obtain ⟨c, hbind, hwins⟩ := Run.firstMatch_behind hbinds fun r hr c hc =>
    hc.matchAt_eq_none (hmisses r hr) (List.mem_singleton_self _) hfirst
  obtain ⟨found, hfound, hspan⟩ := hbind.exists_takesAll htakes hnext.ahead
    (List.cons_ne_nil _ _) (fun d hd => (mem_operatorSet d).trans (mem_brackets hd)) hother
  exact ⟨c, found, hbind, hwins found hfound, hspan⟩

theorem heredoc_of_none (h : heredocStop? found place = none) (hnext : place.Passes brackets next)
    (hstart : found.start = place.offset)
    (hspan : (place.upTo found.stop).takeWhile operatorChars.contains = brackets) (view : View) :
    heredoc found place view =
      .run (.emit next.offset .operator) (.run (.continueAt next.offset) .done) := by
  rw [heredoc, h]
  simp only [hspan, hstart, ← hnext.offset]

/-- Where the rule that opens texts wins and the text is not closed, the step is the one that is made
at the same place over the table without this rule. -/
theorem unclosed_steps_without_rule : ∃ t t', table.compile = .ok t ∧ plainTable.compile = .ok t' ∧
    ∀ (r : Run) (runner? : Option Runner) (rule : CompiledRule) (found : Match), r.table = t →
      r.stateName = "php" → r.winner? = some (rule, found) → rule.action = .callback heredoc →
        heredocStop? found r.cursor = none →
          (r.onTable t').step runner? = (r.step runner?).onTable t' := by
  obtain ⟨t, htable, hnames, -⟩ := exists_table
  obtain ⟨t', hplain⟩ := exists_plainTable
  refine ⟨t, t', htable, hplain, fun r runner? rule found hrun hstate hwinner haction hstop => ?_⟩
  have hid : Named table.names "php" r.stack.top := by
    rw [Run.stateName, Run.nameOf, hrun, TableOf.stateName?, hnames, Option.getD_eq_iff] at hstate
    exact named_of_getElem? resolved_table.distinct (hstate.resolve_right (by simp))
  obtain ⟨rules, hrules, hrule⟩ := Run.exists_rules_of_winner hwinner
  obtain ⟨state, hphp, q, hq, hbind⟩ :=
    (TableDraft.compile_ok htable).2.2 rules (hrun ▸ hrules) rule hrule
  obtain rfl := eq_heredocRule ⟨_, hphp, hq⟩ hbind haction
  obtain ⟨next, hnext, hother, hspan⟩ :=
    brackets_of_heredocRule hbind (Run.matchAt_of_firstMatch hwinner)
  obtain ⟨c, found', hbind', hwins, hspan'⟩ := operatorRule_wins (binds_plain hplain hid) hnext hother
  have hstep : r.step runner? = r.emitted .operator brackets next :=
    Run.step_of_callback runner? hwinner (hbind.op_none rfl) hnext (List.cons_ne_nil _ _) haction
      (heredoc_of_none hstop hnext (Run.firstMatch_some hwinner).2.start hspan)
  have hwinner' : (r.onTable t').winner? = some (c, found') := hwins
  have hstep' : (r.onTable t').step runner? = (r.onTable t').emitted .operator brackets next :=
    Run.step_of_emit runner? hwinner' (hbind'.op_none rfl) hnext (List.cons_ne_nil _ _)
      (hbind'.emit rfl) hspan'
  rw [hstep, hstep', Run.onTable_emitted]

def unclosed : Cursor := .start "<<<EOT\nx".toList

theorem tries_unclosed : heredocRule.tries table.flags unclosed =
    some (some ⟨0, 7, [some ⟨3, 3⟩, some ⟨3, 6⟩, some ⟨6, 6⟩]⟩) := by
  decide +kernel

theorem unclosed_steps_without_rule_start : ∃ t t' rule found, ∃ r : Run,
    table.compile = .ok t ∧ plainTable.compile = .ok t' ∧ r.table = t ∧ r.stateName = "php" ∧
      r.winner? = some (rule, found) ∧ rule.action = .callback heredoc ∧
        heredocStop? found r.cursor = none ∧
          (r.onTable t').step none = (r.step none).onTable t' := by
  obtain ⟨t, t', htable, hplain, hsteps⟩ := unclosed_steps_without_rule
  let r : Run := .start ⟨info, t, [], none, []⟩ [1] "<<<EOT\nx".toList 0
  have hid : Named table.names "php" r.stack.top := rfl
  have hstate : r.stateName = "php" := by
    show (t.names[1]?).getD "" = "php"
    rw [TableDraft.names_of_compile_ok htable]
    rfl
  have hbinds := binds_php htable hid
  rw [phpRules_eq] at hbinds
  obtain ⟨rule, hbind, hwins⟩ := Run.firstMatch_behind hbinds fun q hq c hc =>
    hc.matchAt_eq_none (checks_rules.1 q (List.mem_append_left _ hq)) (List.mem_singleton_self _)
      (show ['<'] <+: unclosed.ahead from ⟨"<<EOT\nx".toList, rfl⟩)
  have hwinner : r.winner? = some (rule, _) := hwins _ (hbind.matchAt tries_unclosed)
  have haction : rule.action = .callback heredoc := (hbind.callback_iff heredoc).2 rfl
  have hstop : heredocStop? ⟨0, 7, [some ⟨3, 3⟩, some ⟨3, 6⟩, some ⟨6, 6⟩]⟩ r.cursor = none := rfl
  exact ⟨t, t', rule, _, r, htable, hplain, rfl, hstate, hwinner, haction, hstop,
    hsteps r none rule _ rfl hstate hwinner haction hstop⟩

end Language.Php

end RuleLexer
