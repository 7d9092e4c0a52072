import RuleLexer.Language.Css
import RuleLexer.Proofs.WordPatterns

/-! The table of style sheets. It builds, and each of its rules emits what it matches, which is never
empty. -/
namespace RuleLexer.Language.Css
open RuleLexer.Regex Entry

def check (r : Rule Delegate) (body _after : Node) : Bool :=
  body.moves && match r.action with
    | .emit _ => true
    | _ => false

def found (e : Entry Delegate) : Bool := e.checks check table.flags table.names

def contentEntries : List (Entry Delegate) := table.states[4].2

def wordLists : List (List String) :=
  [properties ++ ["overflow-x", "overflow-y"], basicColors ++ extendedColors]

theorem states_eq : table.states = table.states.take 4 ++
    [("content", contentEntries.take 4 ++
      [keywords wordLists[0] .keyword, keywords wordLists[1] .nameBuiltin] ++
      contentEntries.drop 6)] := rfl

theorem found_others : (table.states.take 4).all (fun state => state.2.all found) ∧
    (contentEntries.take 4).all found ∧ (contentEntries.drop 6).all found := by
  decide +kernel

theorem fit_words : ∀ list ∈ wordLists, Words.Fit (list.map String.toList) := by
  decide +kernel

theorem found_word {list : List String} (hlist : list ∈ wordLists) (category : Category) :
    found (keywords list category) :=
  checks_words rfl (Pattern.shows_mono (fun _ _ h => by simp [check, h])
    ((fit_words list hlist).shows rfl))

theorem found_all : ∀ state ∈ table.states, ∀ e ∈ state.2, found e := by
  obtain ⟨hstart, hfirst, hlast⟩ := found_others
  rw [states_eq, List.forall_mem_append, List.forall_mem_singleton, List.forall_mem_append,
    List.forall_mem_append, List.forall_mem_cons, List.forall_mem_singleton]
  exact ⟨fun state hstate => List.all_eq_true.1 (List.all_eq_true.1 hstart state hstate),
    ⟨List.all_eq_true.1 hfirst, found_word (List.getElem_mem _) _,
      found_word (List.getElem_mem _) _⟩,
    List.all_eq_true.1 hlast⟩

theorem restsOn_table : table.RestsOn "basics" := by decide

theorem surveyed_table : table.Surveyed fun _ => check :=
  .of_checks rfl (by decide) (by decide) (by decide) restsOn_table.acyclic found_all

def lexerOf (t : Table) : Lexer := ⟨info, t, [t.root], none, []⟩

theorem exists_table : ∃ t, table.compile = .ok t ∧ t.names = table.names ∧ t.root = 0 := by
  obtain ⟨t, hcompile, hnames, hroot, -⟩ := surveyed_table.exists_table
  have hplace : Named table.names table.root 0 := rfl
  exact ⟨t, hcompile, hnames, Option.some.inj (hroot.symm.trans hplace)⟩

end RuleLexer.Language.Css
