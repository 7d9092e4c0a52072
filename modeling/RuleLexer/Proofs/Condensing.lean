import RuleLexer.Proofs.Inlining
import RuleLexer.Proofs.OwnRuns

/-! The rules of a state as one matcher. A matcher of a state tries the patterns of its rules in
their order, as a scan in the state does, and shows nothing of the match but its span. A rule that
emits its match asks for nothing else, so one rule for such a matcher stands for a block of rules
that emit the same and do the same to the stack. -/
namespace RuleLexer
open RuleLexer.Text

namespace Run
variable {place : Cursor}

theorem firstMatch_append (rules more : List CompiledRule) :
    firstMatch place (rules ++ more) = (firstMatch place rules).or (firstMatch place more) := by
  induction rules with
  | nil => rfl
  | cons rule rules ih =>
    rw [List.cons_append, firstMatch, firstMatch, ih]
    cases rule.matcher.matchAt place <;> rfl

theorem matchFirst_matchers (rules : List CompiledRule) :
    Matcher.matchFirst place (rules.map (·.matcher)) = (firstMatch place rules).map Prod.snd := by
  induction rules with
  | nil => rfl
  | cons rule rules ih =>
    rw [List.map_cons, Matcher.matchFirst, ih, firstMatch]
    cases rule.matcher.matchAt place <;> rfl

/-- Wherever rules of the one list win, there win rules of the other that do the same. -/
def CondenseTo (rules rules' : List CompiledRule) : Prop :=
  ∀ place, Option.Rel SameWin (firstMatch place rules) (firstMatch place rules')

namespace CondenseTo
variable {rules rules' more more' : List CompiledRule}

theorem refl (rules : List CompiledRule) : CondenseTo rules rules := by
  intro place
  cases firstMatch place rules with
  | none => exact .none
  | some winner => exact .some (.refl winner)

theorem append (h : CondenseTo rules rules') (h' : CondenseTo more more') :
    CondenseTo (rules ++ more) (rules' ++ more') := by
  intro place
  have hfirst := h place
  rw [firstMatch_append, firstMatch_append]
  revert hfirst
  cases firstMatch place rules <;> cases firstMatch place rules' <;> intro hfirst
  · exact h' place
  · cases hfirst
  · cases hfirst
  · exact hfirst

theorem block {category : Category} {op? : Option (StackOp StateId)} (state : String)
    (h : ∀ rule ∈ rules, rule.action = .emit category ∧ rule.op? = op?) :
    CondenseTo rules [⟨.state state (rules.map (·.matcher)), .emit category, op?⟩] := by
  intro place
  have hwhole : Matcher.matchAt place (.state state (rules.map (·.matcher))) =
      (firstMatch place rules).map fun winner => winner.2.whole := by
    rw [Matcher.matchAt, matchFirst_matchers, Option.map_map]
    rfl
  cases hfirst : firstMatch place rules with
  | none =>
    rw [hfirst] at hwhole
    simp only [firstMatch, hwhole, Option.map_none]
    exact .none
  | some winner =>
    obtain ⟨rule, found⟩ := winner
    obtain ⟨haction, hop⟩ := h rule (firstMatch_some hfirst).1
    rw [hfirst] at hwhole
    simp only [firstMatch, hwhole, Option.map_some]
    exact .some (.emits haction rfl hop.symm found)

end CondenseTo

end Run

open Run

/-- Slots of which blocks of rules are condensed, each into one rule; `done` are the rules of the
block that has begun. -/
inductive Condensed : (done : List CompiledRule) → List Slot → List Slot → Prop
  | nil : Condensed [] [] []
  | keep (slot : Slot) {place place' : List Slot} (later : Condensed [] place place') :
      Condensed [] (slot :: place) (slot :: place')
  | take {done : List CompiledRule} (rule : CompiledRule) {place place' : List Slot}
      (later : Condensed (done ++ [rule]) place place') : Condensed done (.rule rule :: place) place'
  | last {done : List CompiledRule} {rule rule' : CompiledRule} {place place' : List Slot}
      (same : CondenseTo (done ++ [rule]) [rule']) (later : Condensed [] place place') :
      Condensed done (.rule rule :: place) (.rule rule' :: place')

namespace Condensed

theorem keeps (kept : List Slot) {place place' : List Slot} (h : Condensed [] place place') :
    Condensed [] (kept ++ place) (kept ++ place') := by
  induction kept with
  | nil => exact h
  | cons slot kept ih => exact .keep slot ih

theorem refl (place : List Slot) : Condensed [] place place := by
  have h := keeps place .nil
  rwa [List.append_nil] at h

theorem block {rules done : List CompiledRule} {rule' : CompiledRule} (nonempty : rules ≠ [])
    (same : CondenseTo (done ++ rules) [rule']) {place place' : List Slot}
    (h : Condensed [] place place') :
    Condensed done (rules.map .rule ++ place) (.rule rule' :: place') := by
  induction rules generalizing done with
  | nil => exact absurd rfl nonempty
  | cons rule rules ih =>
    cases rules with
    | nil => exact .last same h
    | cons next rules =>
      refine .take rule (ih (by simp) ?_)
      rwa [List.append_assoc]

theorem spliced {slots slots' : List (List Slot)} (hslots : List.Forall₂ (Condensed []) slots slots')
    {done : List CompiledRule} {place place' : List Slot} {rules : List CompiledRule}
    (h : Condensed done place place') (hspliced : TableDraft.Spliced slots place rules) :
    ∃ rules', TableDraft.Spliced slots' place' rules' ∧ CondenseTo (done ++ rules) rules' := by
  induction hspliced generalizing done place' with
  | nil =>
    cases h
    exact ⟨[], .nil, .refl []⟩
  | @rule r rest rules _ ih =>
    cases h with
    | keep _ later =>
      obtain ⟨rules', hrules, hsame⟩ := ih later
      exact ⟨r :: rules', .rule hrules, (CondenseTo.refl [r]).append hsame⟩
    | take _ later =>
      obtain ⟨rules', hrules, hsame⟩ := ih later
      exact ⟨rules', hrules, by rwa [List.append_assoc] at hsame⟩
    | last same later =>
      obtain ⟨rules', hrules, hsame⟩ := ih later
      refine ⟨_ :: rules', .rule hrules, ?_⟩
      have hboth := same.append hsame
      rwa [List.append_assoc] at hboth
  | @includes state within rest taken rules found _ _ ihwithin ihlater =>
    cases h with
    | keep _ later =>
      obtain ⟨hstate, rfl⟩ := List.getElem?_eq_some_iff.1 found
      have hstate' : state < slots'.length := hslots.length_eq ▸ hstate
      obtain ⟨taken', htaken, hwithin⟩ := ihwithin (hslots.get hstate hstate')
      obtain ⟨rules', hrules, hsame⟩ := ihlater later
      exact ⟨taken' ++ rules', .includes (List.getElem?_eq_getElem hstate') htaken hrules,
        hwithin.append hsame⟩

end Condensed

/-- A matcher of a state whose rules look for these sources, in a table that reads its patterns as
`flags` say. -/
inductive Matcher.Gathers (flags : PatternFlags) (sources : List RuleSource) : Matcher → Prop
  | state {d : TableDraft} {t : Table} {name : String} {entries : List (Entry Delegate)}
      {rules : List (Rule Delegate)} {m : Matcher} (same : d.flags = flags)
      (distinct : d.names.Nodup) (built : d.compile = .ok t) (found : (name, entries) ∈ d.states)
      (expands : d.Expands entries rules) (patterns : rules.map (·.source) = sources)
      (given : t.matcher? name = some m) : Gathers flags sources m

theorem Matcher.Gathers.exists_reads {flags : PatternFlags} {sources : List RuleSource} {m : Matcher}
    (h : m.Gathers flags sources) : ∃ name among, m = .state name among ∧
      List.Forall₂ (RuleSource.Reads flags) sources among := by
  cases h with
  | @state d t name entries rules _ same distinct built found expands patterns given =>
    have hresolved := TableDraft.resolved_of_compile_ok distinct built
    obtain ⟨own, compiled, hown, hnamed, hcompiled⟩ := hresolved.rulesNamed?_eq built found
    cases expands.unique distinct hown
    rw [TableOf.matcher?, hnamed, Option.map_some, Option.some.injEq] at given
    simp only [mapM_ok_iff, TableDraft.compileRule_ok_iff] at hcompiled
    refine ⟨name, _, given.symm, ?_⟩
    rw [← patterns, ← same, List.forall₂_map_left_iff, List.forall₂_map_right_iff]
    exact hcompiled.imp fun _ _ h => h.source

/-- The draft with one rule in the place of some that stand in a row in one of its states: they all
emit the same and have the same operation, and so does the one, for a matcher of their patterns. -/
inductive TableDraft.Condenses (d : TableDraft) : TableDraft → Prop
  | block {front back : List (String × List (Entry Delegate))} {state : String}
      {before after : List (Entry Delegate)} {rules : List (Rule Delegate)} {category : Category}
      {op? : Option (StackOp String)} {m : Matcher}
      (states : d.states = front ++ (state, before ++ (rules.map .rule ++ after)) :: back)
      (nonempty : rules ≠ [])
      (alike : ∀ rule ∈ rules, rule.action = .emit category ∧ rule.op? = op?)
      (gathers : m.Gathers d.flags (rules.map (·.source))) :
      Condenses d { d with states := front ++
        (state, before ++ .rule ⟨.matcher m, .emit category, op?⟩ :: after) :: back }

namespace TableDraft.Condenses
variable {d d' : TableDraft}

theorem names_eq (h : d.Condenses d') : d'.names = d.names := by
  cases h with
  | block states => simp [names, states]

theorem holds (h : d.Condenses d') {state : String} {e : Entry Delegate} (he : d'.Holds state e) :
    d.Holds state e ∨ ∃ m rule category, e = .rule ⟨.matcher m, .emit category, rule.op?⟩ ∧
      ∃ state, d.Holds state (.rule rule) := by
  cases h with
  | @block front back changed before after rules category op? m states nonempty alike gathers =>
    obtain ⟨entries, hstate, he⟩ := he
    have hmem : (changed, before ++ (rules.map .rule ++ after)) ∈ d.states := by simp [states]
    rcases List.mem_append.1 hstate with hfront | hstate
    · exact .inl ⟨entries, by simp [states, hfront], he⟩
    · rcases List.mem_cons.1 hstate with hsame | hback
      · cases hsame
        rcases List.mem_append.1 he with hbefore | he
        · exact .inl ⟨_, hmem, by simp [hbefore]⟩
        · rcases List.mem_cons.1 he with rfl | hafter
          · obtain ⟨rule, rest, rfl⟩ := List.exists_cons_of_ne_nil nonempty
            obtain ⟨-, hop⟩ := alike rule List.mem_cons_self
            exact .inr ⟨m, rule, category, by rw [hop], _, _, hmem, by simp⟩
          · exact .inl ⟨_, hmem, by simp [hafter]⟩
      · exact .inl ⟨entries, by simp [states, hback], he⟩

theorem resolved (h : d.Condenses d') (hresolved : d.Resolved) : d'.Resolved := by
  have hnames := h.names_eq
  have hsame : d' = { d with states := d'.states } := by
    cases h
    rfl
  refine ⟨by rw [hsame]; exact hresolved.once, hnames ▸ hresolved.distinct,
    by rw [hnames, hsame]; exact hresolved.root, hnames ▸ hresolved.few, fun state e he => ?_⟩
  have hflags : d'.flags = d.flags := by rw [hsame]
  rw [hnames, hflags]
  rcases h.holds he with hold | ⟨m, rule, category, rfl, state, hrule⟩
  · exact hresolved.entries state e hold
  · obtain ⟨-, hop, -⟩ := hresolved.entries state _ hrule
    exact ⟨trivial, hop, fun _ hhands => by cases hhands⟩

theorem acyclic (h : d.Condenses d') (hacyclic : d.Acyclic) : d'.Acyclic := by
  intro state hround
  refine hacyclic state (hround.lift id fun state other hincludes => ?_)
  rcases h.holds hincludes with hold | ⟨_, _, _, hrule, -⟩
  · exact hold
  · cases hrule

end TableDraft.Condenses

section binding
variable {flags : PatternFlags} {names : List String}

theorem Rule.exists_compiled {rules : List (Rule Delegate)} {place : List Slot}
    (h : List.Forall₂ (Entry.Binds flags names) (rules.map .rule) place) :
    ∃ compiled, place = compiled.map .rule ∧
      List.Forall₂ (Rule.Binds flags names) rules compiled := by
  induction rules generalizing place with
  | nil => exact ⟨[], by simpa using h, .nil⟩
  | cons r rules ih =>
    obtain ⟨slot, rest, hslot, hrest, rfl⟩ := List.forall₂_cons_left_iff.1 h
    obtain ⟨compiled, rfl, hcompiled⟩ := ih hrest
    cases hslot with
    | @rule _ c hc => exact ⟨c :: compiled, rfl, .cons hc hcompiled⟩

theorem Rule.condenseTo {rules : List (Rule Delegate)} {compiled : List CompiledRule}
    {category : Category} {op? : Option (StackOp String)} {m : Matcher} {c : CompiledRule}
    (hbinds : List.Forall₂ (Rule.Binds flags names) rules compiled)
    (alike : ∀ rule ∈ rules, rule.action = .emit category ∧ rule.op? = op?)
    (gathers : m.Gathers flags (rules.map (·.source)))
    (hc : Rule.Binds flags names ⟨.matcher m, .emit category, op?⟩ c) : CondenseTo compiled [c] := by
  obtain ⟨matcher, action, bound?⟩ := c
  obtain ⟨hsource, hop, haction⟩ := hc
  cases hsource
  cases haction
  obtain ⟨name, among, rfl, hamong⟩ := gathers.exists_reads
  have hmatchers : among = compiled.map (·.matcher) := by
    refine RuleSource.rightUnique_reads.forall₂ hamong ?_
    rw [List.forall₂_map_left_iff, List.forall₂_map_right_iff]
    exact hbinds.imp fun _ _ h => h.source
  rw [hmatchers]
  refine .block name fun rule hrule => ?_
  obtain ⟨r, hr, hbinds⟩ := exists_mem_of_forall₂ hbinds hrule
  obtain ⟨hraction, hrop⟩ := alike r hr
  obtain ⟨-, hop', haction'⟩ := hbinds
  rw [hraction] at haction'
  rw [hrop] at hop'
  refine ⟨?_, StackOp.rel_unique hop hop'⟩
  generalize rule.action = action at haction'
  cases haction'
  rfl

end binding

namespace TableDraft.Condenses
variable {d d' : TableDraft}

theorem slots (h : d.Condenses d') {slots slots' : List (List Slot)}
    (hslots : d.stateSlots = .ok slots) (hslots' : d'.stateSlots = .ok slots') :
    List.Forall₂ (Condensed []) slots slots' := by
  have hnames := h.names_eq
  rw [stateSlots_ok_iff] at hslots hslots'
  rw [hnames] at hslots'
  cases h with
  | @block front back state before after rules category op? m states nonempty alike gathers =>
    have hplace : Relator.RightUnique (List.Forall₂ (Entry.Binds d.flags d.names)) :=
      Entry.rightUnique_binds.forall₂
    have hstate : Relator.RightUnique fun (s : String × List (Entry Delegate)) place =>
        List.Forall₂ (Entry.Binds d.flags d.names) s.2 place := fun _ _ _ h h' => hplace h h'
    have hsame (place : List (List Slot)) : List.Forall₂ (Condensed []) place place :=
      List.forall₂_same.2 fun slots _ => .refl slots
    rw [states] at hslots
    obtain ⟨first, _, rfl, hfirst, hrest⟩ := exists_append_of_forall₂ hslots
    obtain ⟨own, last, hown, hlast, rfl⟩ := List.forall₂_cons_left_iff.1 hrest
    obtain ⟨first', _, rfl, hfirst', hrest'⟩ := exists_append_of_forall₂ hslots'
    obtain ⟨own', last', hown', hlast', rfl⟩ := List.forall₂_cons_left_iff.1 hrest'
    rw [hstate.forall₂ hfirst' hfirst, hstate.forall₂ hlast' hlast]
    refine List.rel_append (hsame first) (.cons ?_ (hsame last))
    obtain ⟨kept, _, rfl, hkept, hrest⟩ := exists_append_of_forall₂ hown
    obtain ⟨_, behind, rfl, hrules, hbehind⟩ := exists_append_of_forall₂ hrest
    obtain ⟨kept', _, rfl, hkept', hrest'⟩ := exists_append_of_forall₂ hown'
    obtain ⟨_, behind', hrule', hbehind', rfl⟩ := List.forall₂_cons_left_iff.1 hrest'
    obtain ⟨compiled, rfl, hcompiled⟩ := Rule.exists_compiled hrules
    rw [hplace hkept' hkept, hplace hbehind' hbehind]
    cases hrule' with
    | rule hc =>
      have hnonempty : compiled ≠ [] := fun hnil => by
        rw [hnil, List.forall₂_nil_right_iff] at hcompiled
        exact nonempty hcompiled
      exact .keeps kept (.block hnonempty (Rule.condenseTo hcompiled alike gathers hc) (.refl behind))

end TableDraft.Condenses

structure TableOf.CondensesTo (t t' : Table) : Prop where
  names : t'.names = t.names
  root : t'.root = t.root
  fallback : t'.fallback = t.fallback
  resetsOnNewline : t'.resetsOnNewline = t.resetsOnNewline
  rules : ∀ state, CondenseTo (t.rulesOf state) (t'.rulesOf state)

theorem TableDraft.Condenses.exists_table {d d' : TableDraft} (h : d.Condenses d')
    (hnames : d.names.Nodup) {t : Table} (ht : d.compile = .ok t) :
    ∃ t', d'.compile = .ok t' ∧ TableOf.CondensesTo t t' := by
  have hresolved := resolved_of_compile_ok hnames ht
  have hacyclic := acyclic_of_compile_ok hnames ht
  obtain ⟨root, slots, rules, hroot, hslots, hrules, hcompile⟩ := hresolved.compile_ok hacyclic
  obtain ⟨root', slots', rules', hroot', hslots', hrules', hcompile'⟩ :=
    (h.resolved hresolved).compile_ok (h.acyclic hacyclic)
  cases ht.symm.trans hcompile
  have hsame : d' = { d with states := d'.states } := by
    cases h
    rfl
  have hroots : root' = root := by
    rw [h.names_eq, hsame] at hroot'
    exact Option.some.inj (hroot'.symm.trans hroot)
  have hcondensed := h.slots hslots hslots'
  refine ⟨_, hcompile', h.names_eq, hroots, by rw [hsame], by rw [hsame], fun state => ?_⟩
  have hlength : rules'.length = rules.length := by
    rw [← hrules'.length_eq, ← hcondensed.length_eq, hrules.length_eq]
  show CondenseTo (rules[state]?.getD []) (rules'[state]?.getD [])
  by_cases hstate : state < rules.length
  · have hplace : state < slots.length := by rwa [hrules.length_eq]
    have hplace' : state < slots'.length := by rwa [← hcondensed.length_eq]
    have hstate' : state < rules'.length := by rwa [hlength]
    rw [List.getElem?_eq_getElem hstate, List.getElem?_eq_getElem hstate']
    obtain ⟨own, hown, hdoes⟩ :=
      (hcondensed.get hplace hplace').spliced hcondensed (hrules.get hplace hstate)
    have hsplice : Spliced slots' slots'[state] rules'[state] := hrules'.get hplace' hstate'
    rw [hown.unique hsplice]
    exact hdoes
  · have hstate := Nat.le_of_not_lt hstate
    rw [List.getElem?_eq_none hstate, List.getElem?_eq_none (hlength.symm ▸ hstate)]
    exact .refl []

section running
variable {l : Lexer} {t' : Table}

theorem TableOf.CondensesTo.sameFrame (h : TableOf.CondensesTo l.table t') :
    Lexer.SameFrame l { l with table := t' } :=
  ⟨rfl, h.names, h.root, h.fallback, h.resetsOnNewline⟩

theorem Point.beside_of_condensed (h : TableOf.CondensesTo l.table t') (states : List StateId)
    (text : List Char) (depth turns : Nat) :
    (after turns (Run.start l states text depth)).Beside l { l with table := t' } Eq Eq
      (after turns (Run.start { l with table := t' } states text depth)) := by
  refine beside_own (K := fun _ => True) (T := fun _ => Eq) (G := fun _ => Eq) h.sameFrame
    (fun _ _ _ _ _ _ _ => trivial) (fun r t u htu => congrArg l.recategorise htu) ?_
    states text depth trivial turns
  intro states text depth turns q r p _ hpending hend hbeside hinner
  have hdepth : p.run.depth = depth := (Holds.after l states text depth turns).depth
  have hwinner : Option.Rel SameWin p.run.winner? q.run.winner? := by
    obtain ⟨⟨hlexer, pending, hrun, -⟩, -⟩ := hbeside
    have hrules := h.rules p.run.stack.top p.run.cursor
    rw [← hlexer] at hrules
    rwa [hrun]
  refine hbeside.run.scan_of_sameWin h.sameFrame rfl hwinner fun offset states' piece hstarts => ?_
  rw [hdepth] at hstarts ⊢
  obtain ⟨htokens, hnotices⟩ := hinner offset states' piece hstarts
  rw [List.forall₂_eq_eq_eq] at htokens
  exact Prod.ext htokens.symm hnotices

end running

/-- A matcher of a state says what a scan in the state does: it matches where a rule of the state
wins, and its match spans what that of the rule does, without its groups. So a block of rules in a
state of a table that emit one category and do the same to the stack can be condensed into one, for
a matcher of a state with their patterns: the table builds, and on every text a lexer gives the same
tokens over it, turn by turn at the same place, with the same stack. -/
theorem matcher_stands_for_rules :
    (∀ (r : Run) (name : String) (m : Matcher), r.table.stateId? name = some r.stack.top →
      r.table.matcher? name = some m →
        m.matchAt r.cursor = r.winner?.map fun winner => winner.2.whole) ∧
    (∀ (d d' : TableDraft) (t : Table), d.names.Nodup → d.compile = .ok t → d.Condenses d' →
      ∃ t', d'.compile = .ok t' ∧ ∀ (l : Lexer), l.table = t →
        ∀ (states : List StateId) (text : List Char) (depth : Nat),
          let l' := { l with table := t' }
          let r := Run.start l states text depth
          let r' := Run.start l' states text depth
          (∀ turns, (Point.after turns r').taken = (Point.after turns r).taken ∧
            (Point.after turns r').run = { (Point.after turns r).run with lexer := l' }) ∧
          r'.tokens = r.tokens) := by
  constructor
  · intro r name m hstate hmatcher
    rw [TableOf.matcher?, TableOf.rulesNamed?, hstate, Option.map_some, Option.map_some] at hmatcher
    cases hmatcher
    rw [Matcher.matchAt, matchFirst_matchers, Option.map_map]
    rfl
  · intro d d' t hnames ht hcondenses
    obtain ⟨t', ht', htables⟩ := hcondenses.exists_table hnames ht
    refine ⟨t', ht', fun l hl states text depth => ?_⟩
    subst hl
    exact Point.Beside.same (Point.beside_of_condensed htables states text depth)

/-- The root emits two kinds of words as keywords, each in front of a number. -/
def wordDraft : TableDraft where
  states :=
    [("root", [.emit "x" .name, (Entry.emit "a+" .keyword).push "digits",
      ((Entry.emit "[bc]" .keyword).ahead "1").push "digits"]),
      ("digits", [(Entry.emit "1" .number).pop 1])]

def wordTable : Table := wordDraft.compile.toOption.get (by decide +kernel)

def wordsAlone : TableDraft where
  states := [("words", [.emit "a+" .text, (Entry.emit "[bc]" .text).ahead "1"])]
  root := "words"

def wordsTable : Table := wordsAlone.compile.toOption.get (by decide +kernel)

def wordMatcher : Matcher := (wordsTable.matcher? "words").get (by decide +kernel)

def condensedDraft : TableDraft where
  states :=
    [("root", [.emit "x" .name, .rule ⟨.matcher wordMatcher, .emit .keyword, some (.push ["digits"])⟩]),
      ("digits", [(Entry.emit "1" .number).pop 1])]

theorem gathers_wordMatcher :
    wordMatcher.Gathers {} [.pattern "a+" none, .pattern "[bc]" (some "1")] :=
  .state (d := wordsAlone) (t := wordsTable) rfl (by decide) rfl List.mem_cons_self
    (.rule (.rule .nil)) rfl rfl

theorem condenses_wordDraft : wordDraft.Condenses condensedDraft :=
  @TableDraft.Condenses.block wordDraft [] [("digits", [(Entry.emit "1" .number).pop 1])] "root"
    [.emit "x" .name] []
    [⟨.pattern "a+" none, .emit .keyword, some (.push ["digits"])⟩,
      ⟨.pattern "[bc]" (some "1"), .emit .keyword, some (.push ["digits"])⟩]
    .keyword (some (.push ["digits"])) wordMatcher rfl (by simp) (by simp) gathers_wordMatcher

def wordLexer : Lexer := ⟨⟨"words", [], [], []⟩, wordTable, [0], none, []⟩

theorem matcher_stands_for_rules_words :
    (∃ m, wordTable.matcher? "root" = some m ∧ m.matchAt (wordLexer.run "b1").cursor =
      (wordLexer.run "b1").winner?.map fun winner => winner.2.whole) ∧
    wordDraft.Condenses condensedDraft ∧ ∃ t', condensedDraft.compile = .ok t' ∧
      ({ wordLexer with table := t' }.run "xb1aa1").tokens = (wordLexer.run "xb1aa1").tokens := by
  obtain ⟨m, hm⟩ := Option.isSome_iff_exists.1
    (show (wordTable.matcher? "root").isSome by decide +kernel)
  obtain ⟨t', ht', hruns⟩ := matcher_stands_for_rules.2 wordDraft condensedDraft wordTable
    (by decide) rfl condenses_wordDraft
  exact ⟨⟨m, hm, matcher_stands_for_rules.1 (wordLexer.run "b1") "root" m rfl hm⟩,
    condenses_wordDraft, t', ht', (hruns wordLexer rfl [0] _ 0).2⟩

end RuleLexer
