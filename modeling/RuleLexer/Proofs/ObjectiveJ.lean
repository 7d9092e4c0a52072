import RuleLexer.Language.ObjectiveJ
import RuleLexer.Proofs.JavaScript
import RuleLexer.Proofs.Seating

/-! The table of Objective-J. At the start of a line a rule of the root takes nothing and pushes the
state for an operand, which gives up where there is none. Spaces and comments are taken before, so a
slash is ahead where the rule wins, and where a slash is ahead that state does not give up. -/
namespace RuleLexer.Language.ObjectiveJ
open RuleLexer.Text RuleLexer.Regex Entry

def seating : Seating where
  bottom := "root"
  others := ["whitespace", "statements"]
  seats := [("slashstartsregex", "root"), ("badregex", "root"), ("function_signature", "root")]
  apart := by decide
  lifted := by decide +kernel

/-- Whether a slash is ahead decides what becomes of the state for an operand. -/
def rank (place : Cursor) (state : String) : Nat :=
  if state = "badregex" then 3
  else if state = "slashstartsregex" then if place.ahead.head? = some '/' then 2 else 0
  else if state = "function_signature" then 0
  else 1

def tops (state : String) : List String :=
  if state = "whitespace" then
    ["whitespace", "root", "slashstartsregex", "function_signature", "function_parameters"]
  else if state = "statements" then ["statements", "root"]
  else [state]

/-- The rules that need not take anything. -/
def Silent (state : String) (op? : Option (StackOp String)) (body after : Node) : Prop :=
  state = "statements" ∧ op? = some (.push ["slashstartsregex"]) ∧ body.words? = some [[]] ∧
      after.words? = some JavaScript.openings ∨
    state = "slashstartsregex" ∧ (op? = some (.replace ["badregex"]) ∨ op? = some (.pop 1)) ∨
    state = "function_signature" ∧ op? = some (.pop 1)

instance (state : String) (op? : Option (StackOp String)) (body after : Node) :
    Decidable (Silent state op? body after) :=
  inferInstanceAs (Decidable (_ ∨ _))

def check (state : String) (r : Rule Delegate) (body after : Node) : Bool :=
  ((tops state).all fun top => seating.others.contains top || seating.leads top r.op?) &&
    (body.moves || decide (Silent state r.op? body after))

def found (state : String) (e : Entry Delegate) : Bool :=
  e.checks (check state) table.flags table.names

def wordEntries : List (Entry Delegate) :=
  [(keywords keywordList .keyword).push "slashstartsregex",
    (keywords ["var", "with", "function"] .keywordDeclaration).push "slashstartsregex",
    keywords directives .keyword, keywords types .keywordType, keywords constants .keywordConstant,
    keywords ["true", "false", "null", "NaN", "Infinity", "undefined"] .keywordConstant,
    keywords functions .keywordConstant, keywords JavaScript.builtins .nameBuiltin]

theorem states_eq : table.states = table.states.take 4 ++
    ("statements", statements.take 14 ++ wordEntries.take 4 ++ [statements[18]] ++
      wordEntries.drop 4 ++ statements.drop 23) :: table.states.drop 5 := rfl

theorem found_others : (table.states.take 4).all (fun state => state.2.all (found state.1)) ∧
    (statements.take 14).all (found "statements") ∧ found "statements" statements[18] ∧
    (statements.drop 23).all (found "statements") ∧
    (table.states.drop 5).all fun state => state.2.all (found state.1) := by
  and_intros
  all_goals decide +kernel

def wordLists :
    {lists : List (List String) // ∀ list ∈ lists, Words.Fit (list.map String.toList)} :=
  ⟨[keywordList, directives, types, constants, functions], by decide +kernel⟩

theorem found_word {list : List String} {category : Category} {op? : Option (StackOp String)}
    (hop : (op?.elim [] StackOp.states).all table.names.contains)
    (hleads : seating.leads "root" op?) (h : Words.Fit (list.map String.toList)) :
    found "statements" (.rule ⟨.pattern (words list "" "\\b") none, .emit category, op?⟩) := by
  refine checks_words hop (Pattern.shows_mono (fun body after hmoves => ?_) (h.shows rfl))
  simpa [check, tops, seating, hmoves] using hleads

theorem found_words : ∀ e ∈ wordEntries, found "statements" e := by
  have hfit := wordLists.2
  have hshared := JavaScript.wordLists.2
  simp only [wordLists, JavaScript.wordLists, List.forall_mem_cons] at hfit hshared
  obtain ⟨hkeyword, hdirective, htype, hconstant, hfunction, -⟩ := hfit
  obtain ⟨-, hdeclaration, -, hvalue, hbuiltin, -⟩ := hshared
  simp only [wordEntries, List.forall_mem_cons]
  exact ⟨found_word rfl rfl hkeyword, found_word rfl rfl hdeclaration,
    found_word rfl rfl hdirective, found_word rfl rfl htype, found_word rfl rfl hconstant,
    found_word rfl rfl hvalue, found_word rfl rfl hfunction, found_word rfl rfl hbuiltin,
    List.forall_mem_nil _⟩

theorem found_all : ∀ state ∈ table.states, ∀ e ∈ state.2, found state.1 e := by
  obtain ⟨hbefore, hfirst, hself, hlast, hbehind⟩ := found_others
  have hword : ∀ list : List (Entry Delegate), list ⊆ wordEntries →
      ∀ e ∈ list, found "statements" e := fun _ hsub e he => found_words e (hsub he)
  rw [states_eq, List.forall_mem_append, List.forall_mem_cons, List.forall_mem_append,
    List.forall_mem_append, List.forall_mem_append, List.forall_mem_append,
    List.forall_mem_singleton]
  exact ⟨fun state hstate => List.all_eq_true.1 (List.all_eq_true.1 hbefore state hstate),
    ⟨⟨⟨⟨List.all_eq_true.1 hfirst, hword _ (List.take_subset _ _)⟩, hself⟩,
      hword _ (List.drop_subset _ _)⟩, List.all_eq_true.1 hlast⟩,
    fun state hstate => List.all_eq_true.1 (List.all_eq_true.1 hbehind state hstate)⟩

theorem risesIn_table : table.RisesIn ["whitespace", "statements"] := by decide

theorem carries_table : table.Carries tops := by decide +kernel

theorem surveyed_table : table.Surveyed check :=
  .of_checks rfl (by decide) (by decide) (by decide) risesIn_table.acyclic found_all

/-! Spaces, comments and slashes -/

def whitespaceRules : List (Rule Delegate) := table.states[1].2.filterMap Entry.rule?

def operandRules : List (Rule Delegate) :=
  [⟨.pattern slashRegex none, .emit .stringRegex, some (.pop 1)⟩,
    ⟨.pattern "" (some "/"), .emit .text, some (.replace ["badregex"])⟩]

def giveUp : Rule Delegate := ⟨.pattern "" none, .emit .text, some (.pop 1)⟩

theorem expands_whitespace : table.Expands table.states[1].2 whitespaceRules :=
  .rule (.rule (.rule (.rule (.rule (.rule (.rule (.rule (.rule (.rule (.rule (.rule .nil)))))))))))

theorem expands_operand :
    table.Expands table.states[2].2 (whitespaceRules ++ operandRules ++ [giveUp]) := by
  rw [List.append_assoc]
  exact .includes (List.getElem_mem (l := table.states) (n := 1) (by decide)) expands_whitespace
    (.rule (.rule (.rule .nil)))

theorem expands_root {rules : List (Rule Delegate)}
    (h : table.Expands table.states[0].2 rules) : ∃ later, rules = whitespaceRules ++ later := by
  cases h with
  | includes hstate hwithin _ =>
    have hentries := TableDraft.entries_eq surveyed_table.resolved.distinct
      (List.getElem_mem (l := table.states) (n := 1) (by decide)) hstate
    rw [hentries] at hwithin
    exact ⟨_, congrArg (· ++ _)
      (expands_whitespace.unique surveyed_table.resolved.distinct hwithin)⟩

theorem shows_rules : (∀ r ∈ whitespaceRules, r.shows (fun body _ => body.moves) table.flags) ∧
    ∀ r ∈ operandRules, r.shows
      (fun body _ => body.moves || decide (r.op? = some (.replace ["badregex"]))) table.flags := by
  decide +kernel

theorem trees_eq :
    Pattern.tree? table.flags "\\s+".toList none = some JavaScript.spaceTree ∧
    Pattern.tree? table.flags "<!--".toList none = some JavaScript.commentTree ∧
    Pattern.tree? table.flags "".toList (some "/") = some JavaScript.slashTree := by
  decide +kernel

theorem exists_rule_of_opening {place : Cursor} (h : JavaScript.Opening place)
    (hslash : place.ahead.head? ≠ some '/') : ∃ q ∈ whitespaceRules,
      ∀ c, q.Binds table.flags table.names c → (c.matcher.matchAt place).isSome := by
  obtain ⟨hspace, hcomment, -⟩ := trees_eq
  obtain ⟨-, -, -, hfitsSpace, hfitsComment, -⟩ := JavaScript.trees_eq
  obtain ⟨piece, ⟨rest, hahead⟩, word, hword, hmem⟩ := h
  simp only [JavaScript.openings, List.mem_cons, List.not_mem_nil, or_false] at hword
  rcases hword with rfl | rfl | rfl
  · obtain ⟨d, _, hd, hnil, rfl⟩ := List.forall₂_cons_left_iff.1 hmem
    cases hnil
    refine ⟨whitespaceRules[7], List.getElem_mem _, fun c hc => ?_⟩
    rw [hc.isSome_matchAt rfl hspace hfitsSpace, ← hahead]
    exact JavaScript.matches_space _ _ _ hd
  · have hpiece : piece = ['/'] := JavaScript.eq_of_singles hmem
    rw [← hahead, hpiece] at hslash
    exact absurd rfl hslash
  · have hpiece : piece = ['<', '!', '-', '-'] := JavaScript.eq_of_singles hmem
    refine ⟨whitespaceRules[11], List.getElem_mem _, fun c hc => ?_⟩
    rw [hc.isSome_matchAt rfl hcomment hfitsComment, ← hahead, hpiece]
    exact JavaScript.matches_comment _ _ _

theorem matches_of_slash {place : Cursor} (h : place.ahead.head? = some '/') {c : CompiledRule}
    (hc : operandRules[1].Binds table.flags table.names c) :
    (c.matcher.matchAt place).isSome := by
  obtain ⟨-, -, hslash⟩ := trees_eq
  obtain ⟨-, -, -, -, -, hfits⟩ := JavaScript.trees_eq
  obtain ⟨rest, hahead⟩ := List.head?_eq_some_iff.1 h
  rw [hc.isSome_matchAt rfl hslash hfits, hahead]
  exact JavaScript.matches_slash _ _ _

/-! Rules that win -/

section winner
variable {t : Table} (htable : table.compile = .ok t) {r : Run} (hr : r.table = t)
  {rule : CompiledRule} {found : Match} (hwinner : r.winner? = some (rule, found))
include htable hr hwinner

theorem takes_whitespace (htop : Named table.names "root" r.stack.top)
    (h : ∃ q ∈ whitespaceRules,
      ∀ c, q.Binds table.flags table.names c → (c.matcher.matchAt r.cursor).isSome) :
    r.cursor.upTo found.stop ≠ [] := by
  obtain ⟨rules, hexpands, hbinds⟩ := surveyed_table.resolved.exists_rules htable
    (List.getElem_mem (l := table.states) (n := 0) (by decide)) htop
  obtain ⟨later, rfl⟩ := expands_root hexpands
  obtain ⟨q, hq, hmatches⟩ := h
  have hfirst : Run.firstMatch r.cursor (t.rulesOf r.stack.top) = some (rule, found) :=
    hr ▸ hwinner
  obtain ⟨p, hp, hbind⟩ := Run.winner_before hbinds hq hmatches hfirst
  obtain ⟨body, after, hmoves, hleads⟩ :=
    hbind.leads (shows_rules.1 p hp) (Run.matchAt_of_firstMatch hwinner)
  exact hleads.upTo_ne_nil hmoves

theorem keeps_slash (htop : Named table.names "slashstartsregex" r.stack.top)
    (hslash : r.cursor.ahead.head? = some '/') : r.cursor.upTo found.stop ≠ [] ∨
      Option.Rel (StackOp.Rel (Named table.names)) (some (.replace ["badregex"])) rule.op? := by
  obtain ⟨rules, hexpands, hbinds⟩ := surveyed_table.resolved.exists_rules htable
    (List.getElem_mem (l := table.states) (n := 2) (by decide)) htop
  cases expands_operand.unique surveyed_table.resolved.distinct hexpands
  have hmem : operandRules[1] ∈ whitespaceRules ++ operandRules :=
    List.mem_append_right _ (List.getElem_mem _)
  have hfirst : Run.firstMatch r.cursor (t.rulesOf r.stack.top) = some (rule, found) :=
    hr ▸ hwinner
  obtain ⟨p, hp, hbind⟩ :=
    Run.winner_before hbinds hmem (fun c hc => matches_of_slash hslash hc) hfirst
  have hmatch := Run.matchAt_of_firstMatch hwinner
  rcases List.mem_append.1 hp with hp | hp
  · obtain ⟨body, after, hmoves, hleads⟩ := hbind.leads (shows_rules.1 p hp) hmatch
    exact .inl (hleads.upTo_ne_nil hmoves)
  · obtain ⟨body, after, hshown, hleads⟩ := hbind.leads (shows_rules.2 p hp) hmatch
    refine (Bool.or_eq_true_iff.1 hshown).imp hleads.upTo_ne_nil fun hop => ?_
    exact of_decide_eq_true hop ▸ hbind.op

theorem Silent.progress {owner state : String} {op? : Option (StackOp String)} {body after : Node}
    (h : Silent owner op? body after) (htop : state ∈ tops owner)
    (hother : state ∉ seating.others) (hstate : Named table.names state r.stack.top)
    (hop : Option.Rel (StackOp.Rel (Named table.names)) op? rule.op?)
    (hleads : found.Leads r.cursor body after) :
    r.cursor.upTo found.stop ≠ [] ∨ seating.raises (rank r.cursor) state op? := by
  rcases h with ⟨rfl, rfl, hbody, hafter⟩ | ⟨rfl, rfl | rfl⟩ | ⟨rfl, rfl⟩
  · obtain rfl : state = "root" := by
      have hmem : state ∈ ["statements", "root"] := htop
      rcases List.mem_pair.1 hmem with rfl | rfl
      · exact absurd (by decide) hother
      · rfl
    by_cases hslash : r.cursor.ahead.head? = some '/'
    · exact .inr (by simp [Seating.raises, rank, seating, hslash])
    · obtain ⟨word, hword, hpiece⟩ := hleads.exists_word hbody
      cases List.mem_singleton.1 hword
      have hnil := List.forall₂_nil_left_iff.1 hpiece
      have hopening : JavaScript.Opening r.cursor :=
        hleads.exists_word_after hafter (hnil ▸ .refl r.cursor)
      exact .inl (takes_whitespace htable hr hwinner hstate
        (exists_rule_of_opening hopening hslash))
  · obtain rfl : state = "slashstartsregex" := List.mem_singleton.1 htop
    have hlow : rank r.cursor "slashstartsregex" < rank r.cursor "badregex" := by
      by_cases hslash : r.cursor.ahead.head? = some '/' <;> simp [rank, hslash]
    exact .inr (by simp [Seating.raises, seating, hlow])
  · obtain rfl : state = "slashstartsregex" := List.mem_singleton.1 htop
    by_cases hslash : r.cursor.ahead.head? = some '/'
    · refine .inl ((keeps_slash htable hr hwinner hstate hslash).resolve_right fun hreplace => ?_)
      obtain ⟨id, -, hbound⟩ := StackOp.exists_replace hreplace
      cases (StackOp.eq_pop hop).symm.trans hbound
    · exact .inr (by simp [Seating.raises, rank, seating, hslash])
  · obtain rfl : state = "function_signature" := List.mem_singleton.1 htop
    exact .inr (by simp [Seating.raises, rank, seating])

end winner

/-! The lexer -/

def lexerOf (t : Table) : Lexer := ⟨info, t, [t.root], none, []⟩

section lexer
variable {t : Table} (htable : table.compile = .ok t)
include htable

theorem governs : seating.Governs (lexerOf t) rank := by
  refine surveyed_table.governs carries_table rfl htable rfl rfl (fun place state => ?_)
    fun {r rule found state _ q body after} hr hwinner hstate hother htop hbinds hcheck hleads => ?_
  · rw [rank]
    split_ifs <;> decide
  · obtain ⟨hkept, hprogress⟩ := Bool.and_eq_true_iff.1 hcheck
    have hlead : seating.leads state q.op? :=
      (Bool.or_eq_true_iff.1 (List.all_eq_true.1 hkept state htop)).resolve_left
        fun hmem => hother (List.contains_iff_mem.1 hmem)
    refine ⟨hlead, ?_⟩
    rcases Bool.or_eq_true_iff.1 hprogress with hmoves | hsilent
    · exact .inl (hleads.upTo_ne_nil hmoves)
    · exact (of_decide_eq_true hsilent).progress htable hr hwinner htop hother hstate hbinds.op
        hleads

theorem smooth_lexer : (lexerOf t).Smooth := by
  have hlexers : table.lexers = [] := rfl
  have hkeeps : table.delegates.all (Delegate.keeps [["function_signature", "root"]]) := rfl
  have hstart : seating.Seated (lexerOf t).table.names
      (Stack.start (lexerOf t).initial (lexerOf t).table.root) :=
    Seating.seated_start (.cons (TableDraft.named_root htable) .nil) (List.cons_ne_nil _ _)
      (by decide) .bottom _
  refine (governs htable).climbs.smooth (TableDraft.hands htable rfl hstart ?_ ?_) hstart
    (by simp [hlexers])
  · intro states ids hmem hne hnamed
    have hstates := List.contains_iff_mem.1 (List.all_eq_true.1 hkeeps _ hmem)
    obtain rfl : states = ["root", "function_signature"] :=
      List.reverse_injective (List.mem_singleton.1 hstates)
    exact Seating.seated_start hnamed hne (by decide) (.push .bottom (by decide)) _
  · intro other states hmem
    cases List.all_eq_true.1 hkeeps _ hmem

end lexer

end RuleLexer.Language.ObjectiveJ
