import RuleLexer.Catalog
import RuleLexer.Proofs.Bouncing
import RuleLexer.Proofs.WordPatterns

/-! CoffeeScript at the start of a text. What opens a comment in JavaScript leads from the root to
the state for regular expressions, as it does there, but that state has no rule for it and gives up
at once. The run goes to and fro between the two until a step stalls. -/
namespace RuleLexer
open RuleLexer.Text RuleLexer.Language

namespace Language.CoffeeScript
open Entry

def found (e : Entry Delegate) : Bool := e.checks (fun _ _ _ => true) table.flags table.names

def rootEntries : List (Entry Delegate) := table.states[3].2

def wordEntries : List (Entry Delegate) :=
  [(keywords keywordList .keyword).push "slashstartsregex", keywords constants .keywordConstant,
    keywords JavaScript.builtins .nameBuiltin]

theorem states_eq : table.states = table.states.take 3 ++
    [("root", rootEntries.take 6 ++ wordEntries ++ rootEntries.drop 9)] := rfl

theorem found_others : (table.states.take 3).all (fun state => state.2.all found) ∧
    (rootEntries.take 6).all found ∧ (rootEntries.drop 9).all found := by
  decide +kernel

def wordLists : {lists : List (List String) // ∀ list ∈ lists, Words.Fit (list.map String.toList)} :=
  ⟨[keywordList, constants, JavaScript.builtins], by decide +kernel⟩

theorem found_words : ∀ e ∈ wordEntries, found e := by
  have hall : ∀ list ∈ wordLists.1, Pattern.shows (fun _ _ => true)
      table.flags (Words.chars (list.map String.toList) [] ['\\', 'b']) none := fun list hlist =>
    Pattern.shows_mono (fun _ _ _ => rfl) ((wordLists.2 list hlist).shows rfl)
  simp only [wordLists, List.forall_mem_cons] at hall
  simp only [wordEntries, List.forall_mem_cons]
  exact ⟨checks_words rfl hall.1, checks_words rfl hall.2.1,
    checks_words rfl hall.2.2.1, List.forall_mem_nil _⟩

theorem found_all : ∀ state ∈ table.states, ∀ e ∈ state.2, found e := by
  obtain ⟨hstart, hfirst, hlast⟩ := found_others
  rw [states_eq, List.forall_mem_append, List.forall_mem_singleton, List.forall_mem_append,
    List.forall_mem_append]
  exact ⟨fun state hstate => List.all_eq_true.1 (List.all_eq_true.1 hstart state hstate),
    ⟨List.all_eq_true.1 hfirst, found_words⟩, List.all_eq_true.1 hlast⟩

theorem restsOn_table : table.RestsOn "commentsandwhitespace" := by decide

theorem surveyed_table : table.Surveyed fun _ _ _ _ => true :=
  .of_checks rfl (by decide) (by decide) (by decide) restsOn_table.acyclic found_all

def opening : Cursor := .start "<!--".toList

/-- The rule that leads from the start of a text to the state for regular expressions. -/
def opener : Rule Delegate :=
  ⟨.pattern "^" (some "\\s|/|<!--"), .emit .text, some (.push ["slashstartsregex"])⟩

def regexRules : List (Rule Delegate) :=
  [⟨.pattern "\\s+" none, .emit .text, none⟩, ⟨.pattern "#.*?\\n" none, .emit .commentSingle, none⟩,
    ⟨.pattern slashRegex none, .emit .stringRegex, some (.pop 1)⟩,
    ⟨.pattern "" (some "/"), .emit .text, some (.replace ["badregex"])⟩]

def giveUp : Rule Delegate := ⟨.pattern "" none, .emit .text, some (.pop 1)⟩

theorem tries_opening : (∀ r ∈ regexRules, r.tries table.flags opening = some none) ∧
    opener.tries table.flags opening = some (some ⟨0, 0, []⟩) ∧
    giveUp.tries table.flags opening = some (some ⟨0, 0, []⟩) := by
  decide +kernel

theorem expands_regex : table.Expands table.states[1].2 (regexRules ++ [giveUp]) := by
  show table.Expands _ (regexRules.take 2 ++ (regexRules.drop 2 ++ [giveUp]))
  exact .includes List.mem_cons_self (.rule (.rule .nil)) (.rule (.rule (.rule .nil)))

/-- The rule that opens the root leads to the state for regular expressions, which leads back. -/
theorem bounces_table {t : Table} (h : table.compile = .ok t) : t.Bounces opening 3 1 where
  pushes := by
    refine surveyed_table.resolved.turns h table.states[3] (List.getElem_mem _) rfl [] opener
      (fun rules hrules => ?_) (by simp) tries_opening.2.1 (Nat.le_refl 0) rfl rfl fun other hother => ?_
    · have hrules : table.Expands (.rule opener :: table.states[3].2.tail) rules := hrules
      cases hrules with
      | rule => exact ⟨_, rfl⟩
    · cases hother with
      | push hids =>
        obtain ⟨id, _, hid, hnil, rfl⟩ := List.forall₂_cons_left_iff.1 hids
        cases hnil
        have hstate : Named table.names "slashstartsregex" 1 := rfl
        cases hstate.symm.trans hid
        rfl
  pops := by
    refine surveyed_table.resolved.turns h table.states[1] (List.getElem_mem _) rfl regexRules giveUp
      (fun rules hrules => ⟨[], (expands_regex.unique surveyed_table.resolved.distinct hrules)⟩)
      tries_opening.1 tries_opening.2.2 (Nat.le_refl 0) rfl rfl fun other hother => ?_
    cases hother
    rfl

def lexerOf (t : Table) : Lexer := ⟨info, t, [t.root], none, []⟩

theorem exists_table : ∃ t, table.compile = .ok t ∧ t.root = 3 := by
  obtain ⟨t, hcompile, -, hroot, -⟩ := surveyed_table.exists_table
  have hplace : Named table.names table.root 3 := rfl
  exact ⟨t, hcompile, Option.some.inj (hroot.symm.trans hplace)⟩

theorem outcome_lexer {t : Table} (h : table.compile = .ok t) :
    lexer.outcome.1 = .ok (lexerOf t) :=
  Build.outcome_plain h info

theorem stalls_opening {t : Table} (h : table.compile = .ok t) (hroot : t.root = 3) :
    ∃ turns, (Point.after turns ((lexerOf t).run "<!--")).Stalls .tooManySteps := by
  have hbetween : ((lexerOf t).run "<!--").Between t opening 3 1 := by
    refine ⟨rfl, rfl, .inl ⟨hroot, ?_⟩⟩
    show ([] : List StateId).length + 1 < Stack.maxDepth
    decide
  exact hbetween.exists_turns_stalls (bounces_table h) (p := { run := (lexerOf t).run "<!--" })
    (Run.steady_start _ _ _ _) rfl (List.cons_ne_nil _ _)

end Language.CoffeeScript

end RuleLexer
