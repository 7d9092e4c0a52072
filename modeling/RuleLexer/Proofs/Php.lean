import RuleLexer.Language.Php
import RuleLexer.Proofs.BoundedStacks

/-! The table of PHP. It builds, so there is a lexer over it whatever the options are, and it starts
in the states that they ask for. -/
namespace RuleLexer.Language.Php
open RuleLexer.Text RuleLexer.Regex Entry

def found (e : Entry Delegate) : Bool :=
  e.checks (fun _ body _ => body.moves) table.flags table.names

def phpEntries : List (Entry Delegate) := table.states[1].2

def keywordEntry : Entry Delegate := emit keywordPattern .keyword

def keywordChars : List Char :=
  '(' :: (['|'].intercalate (keywordList.map String.toList) ++ [')', '\\', 'b'])

theorem toList_keywordPattern : keywordPattern.toList = keywordChars := by
  simp [keywordPattern, keywordChars]

theorem states_eq : table.states = table.states.take 1 ++
    [("php", phpEntries.take 15 ++ keywordEntry :: phpEntries.drop 16)] ++
    table.states.drop 2 := rfl

theorem found_others : (table.states.take 1).all (·.2.all found) ∧
    (phpEntries.take 15).all found ∧
    Pattern.shows (fun body _ => body.moves) table.flags keywordChars none ∧
    (phpEntries.drop 16).all found ∧ (table.states.drop 2).all (·.2.all found) := by
  and_intros
  all_goals decide +kernel

theorem found_emit {source : String}
    (h : Pattern.shows (fun body _ => body.moves) table.flags source.toList none)
    (category : Category) : found (emit source category) :=
  Bool.and_eq_true_iff.2 ⟨rfl, h⟩

theorem shows_keywords :
    Pattern.shows (fun body _ => body.moves) table.flags keywordPattern.toList none := by
  have hsame := congrArg (Pattern.shows (fun body _ => body.moves) table.flags · none) toList_keywordPattern
  exact hsame.trans found_others.2.2.1

theorem found_all : ∀ state ∈ table.states, ∀ e ∈ state.2, found e := by
  obtain ⟨hfirst, hbefore, -, hbehind, hlast⟩ := found_others
  rw [states_eq, List.forall_mem_append, List.forall_mem_append, List.forall_mem_singleton,
    List.forall_mem_append, List.forall_mem_cons]
  exact ⟨⟨fun state hstate => List.all_eq_true.1 (List.all_eq_true.1 hfirst state hstate),
    List.all_eq_true.1 hbefore, found_emit shows_keywords _, List.all_eq_true.1 hbehind⟩,
    fun state hstate => List.all_eq_true.1 (List.all_eq_true.1 hlast state hstate)⟩

theorem delegates_table : ∀ d ∈ table.delegates, d = .this (some ["root", "php"]) := by
  have hdelegates : table.delegates =
    [.this (some ["root", "php"]), .this (some ["root", "php"])] := rfl
  simp [hdelegates]

theorem surveyed_table : table.Surveyed fun _ _ body _ => body.moves :=
  have hrests : table.RestsOn "root" := TableDraft.restsOn_of_none rfl "root"
  .of_checks rfl (by decide) (by decide) (by decide) hrests.acyclic found_all

theorem resolved_table : table.Resolved := surveyed_table.resolved

theorem exists_table : ∃ t, table.compile = .ok t ∧ t.names = table.names ∧ t.root = 0 := by
  obtain ⟨t, hcompile, hnames, hroot, -⟩ := surveyed_table.exists_table
  have hplace : Named table.names table.root 0 := rfl
  exact ⟨t, hcompile, hnames, Option.some.inj (hroot.symm.trans hplace)⟩

end RuleLexer.Language.Php
