import RuleLexer.Proofs.SassRules

/-! The table of SCSS. The rules that need not take anything push a state onto the root, or lead back
from what follows the sign of a selector; every other rule consumes something. -/
namespace RuleLexer.Language.Scss
open RuleLexer.Text RuleLexer.Regex Entry

abbrev table : TableDraft := Sass.scssTable

def seating : Seating where
  bottom := "root"
  others := []
  seats := [("pseudo-class", "selector"), ("class", "selector"), ("id", "selector")]
  apart := List.not_mem_nil
  lifted := by decide +kernel

def rank (state : String) : Nat :=
  if state ∈ ["root", "pseudo-class", "class", "id"] then 0 else 1

def tops (state : String) : List String :=
  if state = "value" then ["value", "interpolation", "for"] else [state]

def check (state : String) (r : Rule Delegate) (body _after : Node) : Bool :=
  (tops state).all fun top => seating.leads top r.op? &&
    (body.moves || seating.raises rank top r.op?)

def found (state : String) (e : Entry Delegate) : Bool :=
  e.checks (check state) table.flags table.names

def lineEnd : List (Entry Delegate) :=
  [emit "\\n" .text, (emit "[;\\\x7b\\\x7d]" .punctuation).reset "root"]

theorem states_eq : table.states = table.states.take 3 ++
    ("value", Sass.value.take 4 ++ Sass.wordEntries ++ (Sass.value.drop 7 ++ lineEnd)) ::
      table.states.drop 4 := rfl

theorem found_others : (table.states.take 3).all (fun state => state.2.all (found state.1)) ∧
    (table.states.drop 4).all (fun state => state.2.all (found state.1)) ∧
    (Sass.value.take 4).all (found "value") ∧
    (Sass.value.drop 7 ++ lineEnd).all (found "value") := by
  decide +kernel

set_option maxRecDepth 4000 in
theorem showsWords_properties : Sass.ShowsWords table.flags Css.properties := by
  simp only [Sass.ShowsWords, Css.properties, List.map, String.reduceToList]
  decide +kernel

theorem showsWords_colors :
    ∀ list ∈ [Css.extendedColors, Css.basicColors], Sass.ShowsWords table.flags list := by
  simp only [Sass.ShowsWords, List.forall_mem_cons, Css.extendedColors, Css.basicColors, List.map,
    String.reduceToList]
  decide +kernel

theorem found_words : ∀ e ∈ Sass.wordEntries, found "value" e :=
  Sass.checks_wordEntries (List.forall_mem_cons.2 ⟨showsWords_properties, showsWords_colors⟩)
    fun _ _ _ _ hmoves _ => by simp [check, Seating.leads, hmoves]

theorem found_all : ∀ state ∈ table.states, ∀ e ∈ state.2, found state.1 e := by
  obtain ⟨hbefore, hbehind, hfirst, hlast⟩ := found_others
  rw [states_eq, List.forall_mem_append, List.forall_mem_cons, List.forall_mem_append,
    List.forall_mem_append]
  exact ⟨fun state hstate => List.all_eq_true.1 (List.all_eq_true.1 hbefore state hstate),
    ⟨⟨List.all_eq_true.1 hfirst, found_words⟩, List.all_eq_true.1 hlast⟩,
    fun state hstate => List.all_eq_true.1 (List.all_eq_true.1 hbehind state hstate)⟩

theorem restsOn_table : table.RestsOn "value" := by decide

theorem carries_table : table.Carries tops := by decide +kernel

theorem surveyed_table : table.Surveyed check :=
  .of_checks rfl (by decide) (by decide) (by decide) restsOn_table.acyclic found_all

def lexerOf (t : Table) : Lexer := ⟨Sass.scssInfo, t, [t.root], none, []⟩

section lexer
variable {t : Table} (htable : table.compile = .ok t)
include htable

theorem governs : seating.Governs (lexerOf t) fun _ => rank := by
  refine surveyed_table.governs carries_table rfl htable rfl rfl (fun _ state => ?_)
    fun {_ _ _ state _ _ _ _} _ _ _ _ htop _ hcheck hleads => ?_
  · rw [rank]
    split_ifs <;> decide
  · obtain ⟨hkept, hprogress⟩ := Bool.and_eq_true_iff.1 (List.all_eq_true.1 hcheck state htop)
    exact ⟨hkept, (Bool.or_eq_true_iff.1 hprogress).imp_left hleads.upTo_ne_nil⟩

theorem smooth_lexer : (lexerOf t).Smooth := by
  have hlexers : table.lexers = [] := rfl
  have hdelegates : table.delegates = [] := rfl
  have hstart : seating.Seated (lexerOf t).table.names
      (Stack.start (lexerOf t).initial (lexerOf t).table.root) :=
    Seating.seated_start (.cons (TableDraft.named_root htable) .nil) (List.cons_ne_nil _ _)
      (by decide) .bottom _
  refine (governs htable).climbs.smooth (TableDraft.hands htable rfl hstart ?_ ?_) hstart
    (by simp [hlexers])
  · simp [hdelegates]
  · simp [hdelegates]

end lexer

end RuleLexer.Language.Scss
