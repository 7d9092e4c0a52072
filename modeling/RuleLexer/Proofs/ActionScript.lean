import RuleLexer.Language.ActionScript
import RuleLexer.Proofs.Smooth
import RuleLexer.Proofs.WordPatterns

/-! The tables of ActionScript. Each rule of the first version consumes something; version 3 has
rules that need not do so, for what may follow a parameter and for what may have no type, and each
of them takes states off the stack. -/
namespace RuleLexer.Language.ActionScript
open RuleLexer.Regex Entry

def wordLists :
    {lists : List (List String) // ∀ list ∈ lists, Words.Fit (list.map String.toList)} :=
  ⟨[declarations, globalFunctions, keywordList, constants, builtinClasses, keywordList3,
    constants3], by decide +kernel⟩

theorem checks_word {check : Rule Delegate → Node → Node → Bool} {flags : PatternFlags}
    {names : List String} {list : List String} {category : Category}
    (hcheck : ∀ r body after, body.moves → check r body after) (hcase : flags.ignoreCase = false)
    (h : Words.Fit (list.map String.toList)) :
    (keywords list category).checks check flags names :=
  checks_words rfl (Pattern.shows_mono (hcheck _) (h.shows hcase))

/-! The first version -/

def check (_state : String) (_r : Rule Delegate) (body _after : Node) : Bool := body.moves

def found (e : Entry Delegate) : Bool := e.checks (check "root") table.flags table.names

def rootEntries : List (Entry Delegate) := table.states[0].2

def wordEntries : List (Entry Delegate) :=
  [keywords keywordList .keyword, keywords declarations .keywordDeclaration,
    keywords constants .keywordConstant, keywords builtinClasses .nameBuiltin,
    keywords globalFunctions .nameFunction]

theorem states_eq : table.states =
    [("root", rootEntries.take 6 ++ wordEntries ++ rootEntries.drop 11)] := rfl

theorem found_others : (rootEntries.take 6).all found ∧ (rootEntries.drop 11).all found := by
  decide +kernel

theorem found_words : ∀ e ∈ wordEntries, found e := by
  have hfit := wordLists.2
  simp only [wordLists, List.forall_mem_cons] at hfit
  obtain ⟨hdeclaration, hfunction, hkeyword, hconstant, hclass, -⟩ := hfit
  have hcheck : ∀ r body after, body.moves → check "root" r body after := fun _ _ _ h => h
  simp only [wordEntries, List.forall_mem_cons]
  exact ⟨checks_word hcheck rfl hkeyword, checks_word hcheck rfl hdeclaration,
    checks_word hcheck rfl hconstant, checks_word hcheck rfl hclass,
    checks_word hcheck rfl hfunction, List.forall_mem_nil _⟩

theorem found_all : ∀ state ∈ table.states, ∀ e ∈ state.2, found e := by
  obtain ⟨hfirst, hlast⟩ := found_others
  rw [states_eq, List.forall_mem_singleton, List.forall_mem_append, List.forall_mem_append]
  exact ⟨⟨List.all_eq_true.1 hfirst, found_words⟩, List.all_eq_true.1 hlast⟩

theorem surveyed_table : table.Surveyed check :=
  have hrests : table.RestsOn "" := TableDraft.restsOn_of_none rfl ""
  .of_checks rfl (by decide) (by decide) (by decide) hrests.acyclic found_all

/-! Version 3 -/

def parameterShapes : List (List String) :=
  [["root"], ["funcparams", "root"], ["defval", "funcparams", "root"],
    ["type", "funcparams", "root"]]

def check3 (state : String) (r : Rule Delegate) (body _after : Node) : Bool :=
  body.moves || decide (StackOp.Shortens "" parameterShapes state r.op?)

def found3 (state : String) (e : Entry Delegate) : Bool :=
  e.checks (check3 state) table3.flags table3.names

def rootEntries3 : List (Entry Delegate) := table3.states[0].2

def wordEntries3 : List (Entry Delegate) :=
  [keywords keywordList3 .keyword, keywords declarations .keywordDeclaration,
    keywords constants3 .keywordConstant, keywords globalFunctions .nameFunction]

theorem states_eq3 : table3.states =
    ("root", rootEntries3.take 9 ++ wordEntries3 ++ rootEntries3.drop 13) ::
      table3.states.drop 1 := rfl

theorem found_others3 : (rootEntries3.take 9).all (found3 "root") ∧
    (rootEntries3.drop 13).all (found3 "root") ∧
    (table3.states.drop 1).all fun state => state.2.all (found3 state.1) := by
  decide +kernel

theorem found_words3 : ∀ e ∈ wordEntries3, found3 "root" e := by
  have hfit := wordLists.2
  simp only [wordLists, List.forall_mem_cons] at hfit
  obtain ⟨hdeclaration, hfunction, -, -, -, hkeyword, hconstant, -⟩ := hfit
  have hcheck : ∀ r body after, body.moves → check3 "root" r body after := fun _ _ _ h =>
    Bool.or_eq_true_iff.2 (.inl h)
  simp only [wordEntries3, List.forall_mem_cons]
  exact ⟨checks_word hcheck rfl hkeyword, checks_word hcheck rfl hdeclaration,
    checks_word hcheck rfl hconstant, checks_word hcheck rfl hfunction, List.forall_mem_nil _⟩

theorem found_all3 : ∀ state ∈ table3.states, ∀ e ∈ state.2, found3 state.1 e := by
  obtain ⟨hfirst, hlast, hothers⟩ := found_others3
  rw [states_eq3, List.forall_mem_cons, List.forall_mem_append, List.forall_mem_append]
  exact ⟨⟨⟨List.all_eq_true.1 hfirst, found_words3⟩, List.all_eq_true.1 hlast⟩,
    fun state hstate => List.all_eq_true.1 (List.all_eq_true.1 hothers state hstate)⟩

theorem surveyed_table3 : table3.Surveyed check3 :=
  have hrests : table3.RestsOn "" := TableDraft.restsOn_of_none rfl ""
  .of_checks rfl (by decide) (by decide) (by decide) hrests.acyclic found_all3

end RuleLexer.Language.ActionScript
