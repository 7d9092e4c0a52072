import RuleLexer.Language.JavaScript
import RuleLexer.Proofs.Stalling
import RuleLexer.Proofs.WordPatterns

/-! Regular expressions in JavaScript. A slash opens one in the state that the root pushes behind an
operator, a keyword or an opening bracket, and at the very start of a text. What that state takes
before it gives up is space and comments, so the tokens that were emitted last say on which of the
two sides of an operand the lexer stands. -/
namespace RuleLexer.Language.JavaScript
open RuleLexer.Text RuleLexer.Regex RuleLexer.Coverage Entry

/-- Neither plain text nor a comment. -/
def Significant (t : Token) : Prop := t.category ≠ .text ∧ t.category.isA .comment = false

instance (t : Token) : Decidable (Significant t) := inferInstanceAs (Decidable (_ ∧ _))

def ExpectsOperand (t : Token) : Prop :=
  t.category = .operator ∨ t.category = .keyword ∨ t.category = .keywordDeclaration ∨
    t.category = .punctuation ∧ t.text ∈ ["\x7b", "(", "[", ";", ","]

def lastSignificant? (tokens : List Token) : Option Token := tokens.reverse.find? (Significant ·)

/-! The rules -/

def openers : CharSet := .unions (['{', '(', '[', ';', ','].map .single)

/-- What may stand at the start of a text for a slash there to be looked at. -/
def openings : List (List CharSet) :=
  [[.property .space], [.single '/'], ['<', '!', '-', '-'].map .single]

section rules
variable (category : Category) (op? : Option (StackOp String)) (body after : Node)

def SpaceShows : Prop := op? = none ∧ body.moves ∧ ¬Significant ⟨0, category, ""⟩

/-- A literal, a slash that opens none, or nothing. -/
def OperandShows : Prop :=
  op? = some (.pop 1) ∧ (category = .text ∨ category = .stringRegex ∧ body.moves) ∨
    op? = some (.replace ["badregex"]) ∧ category = .text

def BadShows : Prop := op? = some (.pop 1) ∧ category = .text ∧ body.moves

/-- What an operand follows pushes the state for one, and so does the start of a text. -/
def RootShows : Prop :=
  op? = none ∧ body.moves ∧ category ≠ .stringRegex ∨
    op? = some (.push ["slashstartsregex"]) ∧
      (category = .text ∧ body.atStart ∧ body.words? = some [[]] ∧ after.words? = some openings ∨
        body.moves ∧ (category ∈ [.operator, .keyword, .keywordDeclaration] ∨
          category = .punctuation ∧ body.words? = some [[openers]]))

instance : Decidable (SpaceShows category op? body) := inferInstanceAs (Decidable (_ ∧ _))
instance : Decidable (OperandShows category op? body) := inferInstanceAs (Decidable (_ ∨ _))
instance : Decidable (BadShows category op? body) := inferInstanceAs (Decidable (_ ∧ _))
instance : Decidable (RootShows category op? body after) := inferInstanceAs (Decidable (_ ∨ _))

def Shows (state : String) : Prop :=
  if state = "commentsandwhitespace" then SpaceShows category op? body
  else if state = "slashstartsregex" then OperandShows category op? body
  else if state = "badregex" then BadShows category op? body
  else RootShows category op? body after

instance (state : String) : Decidable (Shows category op? body after state) :=
  inferInstanceAs (Decidable (if state = "commentsandwhitespace" then _
    else if state = "slashstartsregex" then _ else if state = "badregex" then _ else _))

end rules

def check (state : String) (r : Rule Delegate) (body after : Node) : Bool :=
  match r.action with
  | .emit category => decide (Shows category r.op? body after state)
  | _ => false

def found (state : String) (e : Entry Delegate) : Bool :=
  e.checks (check state) table.flags table.names

def rootEntries : List (Entry Delegate) := table.states[3].2

def wordEntries : List (Entry Delegate) :=
  [(keywords keywordList .keyword).push "slashstartsregex",
    (keywords ["var", "with", "function"] .keywordDeclaration).push "slashstartsregex",
    keywords reservedList .keywordReserved,
    keywords ["true", "false", "null", "NaN", "Infinity", "undefined"] .keywordConstant,
    keywords builtins .nameBuiltin]

theorem states_eq : table.states = table.states.take 3 ++
    [("root", rootEntries.take 6 ++ wordEntries ++ rootEntries.drop 11)] := rfl

theorem found_others : (table.states.take 3).all (fun state => state.2.all (found state.1)) ∧
    (rootEntries.take 6).all (found "root") ∧ (rootEntries.drop 11).all (found "root") := by
  decide +kernel

def wordLists : {lists : List (List String) // ∀ list ∈ lists, Words.Fit (list.map String.toList)} :=
  ⟨[keywordList, ["var", "with", "function"], reservedList,
    ["true", "false", "null", "NaN", "Infinity", "undefined"], builtins], by decide +kernel⟩

theorem found_word {list : List String} {category : Category} {op? : Option (StackOp String)}
    (hop : (op?.elim [] StackOp.states).all table.names.contains)
    (hroot : ∀ body after, body.moves → RootShows category op? body after)
    (h : Words.Fit (list.map String.toList)) :
    found "root" (.rule ⟨.pattern (words list "" "\\b") none, .emit category, op?⟩) := by
  refine checks_words hop (Pattern.shows_mono (fun body after hmoves => ?_) (h.shows rfl))
  exact decide_eq_true (p := Shows category op? body after "root") (hroot body after hmoves)

theorem found_words : ∀ e ∈ wordEntries, found "root" e := by
  have hfit := wordLists.2
  simp only [wordLists, List.forall_mem_cons] at hfit
  obtain ⟨hkeyword, hdeclaration, hreserved, hconstant, hbuiltin, -⟩ := hfit
  simp only [wordEntries, List.forall_mem_cons]
  refine ⟨found_word rfl (fun _ _ hmoves => ?_) hkeyword,
    found_word rfl (fun _ _ hmoves => ?_) hdeclaration,
    found_word rfl (fun _ _ hmoves => ?_) hreserved,
    found_word rfl (fun _ _ hmoves => ?_) hconstant,
    found_word rfl (fun _ _ hmoves => ?_) hbuiltin, List.forall_mem_nil _⟩
  · exact .inr ⟨rfl, .inr ⟨hmoves, .inl (by simp)⟩⟩
  · exact .inr ⟨rfl, .inr ⟨hmoves, .inl (by simp)⟩⟩
  all_goals exact .inl ⟨rfl, hmoves, by decide⟩

theorem found_all : ∀ state ∈ table.states, ∀ e ∈ state.2, found state.1 e := by
  obtain ⟨hstart, hfirst, hlast⟩ := found_others
  rw [states_eq, List.forall_mem_append, List.forall_mem_singleton, List.forall_mem_append,
    List.forall_mem_append]
  exact ⟨fun state hstate => List.all_eq_true.1 (List.all_eq_true.1 hstart state hstate),
    ⟨List.all_eq_true.1 hfirst, found_words⟩, List.all_eq_true.1 hlast⟩

theorem restsOn_table : table.RestsOn "commentsandwhitespace" := by decide

theorem surveyed_table : table.Surveyed check :=
  .of_checks rfl (by decide) (by decide) (by decide) restsOn_table.acyclic found_all

def lexerOf (t : Table) : Lexer := ⟨info, t, [t.root], none, []⟩

/-! What the last tokens say -/

/-- If there is a token that counts, an operand is expected behind the last one. -/
def Ready (tokens : List Token) : Prop := ∀ t ∈ lastSignificant? tokens, ExpectsOperand t

def Regular (tokens : List Token) : Prop :=
  ∀ before t after, tokens = before ++ t :: after → t.category = .stringRegex → Ready before

section tokens
variable {tokens : List Token} {t : Token} {category : Category}

theorem lastSignificant?_concat (tokens : List Token) (t : Token) :
    lastSignificant? (tokens ++ [t]) =
      if Significant t then some t else lastSignificant? tokens := by
  rw [lastSignificant?, List.reverse_append, List.reverse_singleton, List.singleton_append,
    List.find?_cons, lastSignificant?]
  by_cases h : Significant t <;> simp [h]

theorem ExpectsOperand.significant (h : ExpectsOperand t) : Significant t := by
  rcases h with h | h | h | ⟨h, -⟩ <;> rw [Significant, h] <;> decide

theorem ExpectsOperand.category_ne (h : ExpectsOperand t) : t.category ≠ .stringRegex := by
  rcases h with h | h | h | ⟨h, -⟩ <;> rw [h] <;> decide

theorem ExpectsOperand.ready (h : ExpectsOperand t) : Ready (tokens ++ [t]) := by
  intro last hlast
  rw [lastSignificant?_concat, if_pos h.significant] at hlast
  cases hlast
  exact h

theorem Ready.tokensOf (h : Ready tokens) (hcategory : ¬Significant ⟨0, category, ""⟩)
    (offset : Nat) (piece : List Char) : Ready (tokens ++ tokensOf offset category piece) := by
  by_cases hpiece : piece = []
  · rwa [hpiece, tokensOf_nil, List.append_nil]
  · have hnot : ¬Significant ⟨offset, category, String.ofList piece⟩ := hcategory
    rw [tokensOf_ne_nil _ _ hpiece, Ready, lastSignificant?_concat, if_neg hnot]
    exact h

theorem Regular.concat (h : Regular tokens) (ht : t.category = .stringRegex → Ready tokens) :
    Regular (tokens ++ [t]) := by
  intro before u after heq hu
  rcases List.eq_nil_or_concat after with rfl | ⟨more, last, rfl⟩
  · obtain ⟨rfl, htail⟩ := List.append_inj' heq rfl
    cases htail
    exact ht hu
  · rw [List.concat_eq_append, ← List.cons_append, ← List.append_assoc] at heq
    obtain ⟨rfl, -⟩ := List.append_inj' heq rfl
    exact h before u more rfl hu

theorem Regular.tokensOf (h : Regular tokens)
    (hcategory : category = .stringRegex → Ready tokens) (offset : Nat) (piece : List Char) :
    Regular (tokens ++ tokensOf offset category piece) := by
  by_cases hpiece : piece = []
  · rwa [hpiece, tokensOf_nil, List.append_nil]
  · rw [tokensOf_ne_nil _ _ hpiece]
    exact h.concat hcategory

end tokens

/-! Where the lexer stands -/

def Opening (place : Cursor) : Prop :=
  ∃ piece, piece <+: place.ahead ∧
    ∃ word ∈ openings, List.Forall₂ (fun s d => s.mem d) word piece

/-- The state on top, what the tokens so far say then, and how often the lexer can have stayed. -/
inductive Stands (tokens : List Token) (r : Run) : Prop
  | root (stack : r.stack.entries = [3]) (few : r.zeroSteps ≤ 2)
      (fresh : r.cursor.passed = [] → r.zeroSteps = 0)
  | operand (stack : r.stack.entries = [1, 3]) (few : r.zeroSteps ≤ 1) (ready : Ready tokens)
      (opening : r.cursor.passed = [] → Opening r.cursor)
  | bad (stack : r.stack.entries = [2, 3]) (few : r.zeroSteps ≤ 2)

theorem Stands.few {tokens : List Token} {r : Run} (h : Stands tokens r) :
    r.zeroSteps < maxZeroSteps := by
  cases h <;> simp only [maxZeroSteps] <;> omega

section operations
variable {s : Stack}

theorem applied_push (h : s.entries = [3]) :
    (s.applied (some (.push [1]))).entries = [1, 3] ∧
      (s.applied (some (.push [1]))).generation ≠ s.generation := by
  obtain ⟨top, below, generation⟩ := s
  cases h
  exact ⟨rfl, Nat.succ_ne_self generation⟩

theorem applied_pop {top : StateId} (h : s.entries = [top, 3]) :
    (s.applied (some (.pop 1))).entries = [3] ∧
      (s.applied (some (.pop 1))).generation ≠ s.generation := by
  obtain ⟨top, below, generation⟩ := s
  cases h
  exact ⟨rfl, Nat.succ_ne_self generation⟩

theorem applied_replace {top : StateId} (h : s.entries = [top, 3]) :
    (s.applied (some (.replace [2]))).entries = [2, 3] ∧
      (s.applied (some (.replace [2]))).generation ≠ s.generation := by
  obtain ⟨top, below, generation⟩ := s
  cases h
  refine ⟨rfl, ?_⟩
  show generation + 1 + 1 ≠ generation
  omega

end operations

def Shown (state : String) (place : Cursor) (rule : CompiledRule) (found : Match) : Prop :=
  ∃ category op? body after, Shows category op? body after state ∧
    rule.action = .emit category ∧ Option.Rel (StackOp.Rel (Named table.names)) op? rule.op? ∧
    found.Leads place body after

theorem shown_winner {t : Table} {r : Run} {rule : CompiledRule} {found : Match}
    (htable : table.compile = .ok t) (hlexer : r.lexer = lexerOf t)
    (hwinner : r.winner? = some (rule, found)) {state : String}
    (htop : Named table.names state r.stack.top) :
    Shown state r.cursor rule found ∨ Shown "commentsandwhitespace" r.cursor rule found := by
  have hrules : r.table.rulesOf r.stack.top = t.rulesOf r.stack.top := by
    rw [Run.table, hlexer, lexerOf]
  have hmem := (Run.firstMatch_some hwinner).1
  rw [hrules] at hmem
  obtain ⟨owner, q, howner, -, hbinds, hshows⟩ := surveyed_table.exists_rule htable htop hmem
  obtain ⟨body, after, hcheck, hleads⟩ := hbinds.leads hshows (Run.matchAt_of_firstMatch hwinner)
  have hshown : Shown owner r.cursor rule found := by
    rw [check] at hcheck
    split at hcheck
    · next category haction =>
      exact ⟨category, q.op?, body, after, of_decide_eq_true hcheck, hbinds.emit haction,
        hbinds.op, hleads⟩
    · cases hcheck
  rcases restsOn_table.owner howner with rfl | rfl
  · exact .inl hshown
  · exact .inr hshown

/-! The start of a text -/

/-- The rules of the state for an operand but for the last, which gives up. -/
def operandRules : List (Rule Delegate) :=
  [⟨.pattern "\\s+" none, .emit .text, none⟩, ⟨.pattern "<!--" none, .emit .comment, none⟩,
    ⟨.pattern "//.*?\\n" none, .emit .commentSingle, none⟩,
    ⟨.pattern "/\\*.*?\\*/" none, .emit .commentMultiline, none⟩,
    ⟨.pattern slashRegex none, .emit .stringRegex, some (.pop 1)⟩,
    ⟨.pattern "" (some "/"), .emit .text, some (.replace ["badregex"])⟩]

def giveUp : Rule Delegate := ⟨.pattern "" none, .emit .text, some (.pop 1)⟩

theorem expands_operand : table.Expands table.states[1].2 (operandRules ++ [giveUp]) := by
  show table.Expands _ (operandRules.take 4 ++ (operandRules.drop 4 ++ [giveUp]))
  exact .includes List.mem_cons_self (.rule (.rule (.rule (.rule .nil))))
    (.rule (.rule (.rule .nil)))

def spaceTree : Ast := .repeated 1 none true (.set (.property .space))

def commentTree : Ast := .seqs (['<', '!', '-', '-'].map fun c => .set (.single c))

def slashTree : Ast := .group 1 (some Pattern.aheadGroup.toList) (.set (.single '/'))

theorem trees_eq : Pattern.tree? table.flags "\\s+".toList none = some spaceTree ∧
    Pattern.tree? table.flags "<!--".toList none = some commentTree ∧
    Pattern.tree? table.flags "".toList (some "/") = some slashTree ∧
    spaceTree.fits ∧ commentTree.fits ∧ slashTree.fits := by
  decide +kernel

section trees
variable (before : Option Char) (offset : Nat) (rest : List Char)

theorem matches_space {d : Char} (h : (CharSet.property .space).mem d) :
    (spaceTree.regex.matchAt before offset (d :: rest)).isSome := by
  have hnode : spaceTree.regex.node =
      .seq (.set (.property .space)) (.loop 1 true (.set (.property .space))) := rfl
  rw [Regex.matchAt, hnode, Node.run]
  simp [expandAll, Node.expand, Frontier.addThread, Frontier.none, Frontier.found?,
    Frontier.enter, Frontier.addMatch, scan_thread h, isSome_scan]

theorem matches_comment :
    (commentTree.regex.matchAt before offset ('<' :: '!' :: '-' :: '-' :: rest)).isSome := by
  have hnode : commentTree.regex.node = .seq (.set (.single '<'))
      (.seq (.set (.single '!')) (.seq (.set (.single '-')) (.set (.single '-')))) := rfl
  rw [Regex.matchAt, hnode, Node.run]
  simp [expandAll, Node.expand, Frontier.addThread, Frontier.none, Frontier.found?,
    Frontier.addMatch, scan_thread, CharSet.mem_single, isSome_scan]

theorem matches_slash : (slashTree.regex.matchAt before offset ('/' :: rest)).isSome := by
  have hnode : slashTree.regex.node = .seq (.mark 2) (.seq (.set (.single '/')) (.mark 3)) := rfl
  rw [Regex.matchAt, hnode, Node.run]
  simp [expandAll, Node.expand, Frontier.addThread, Frontier.none, Frontier.found?,
    Frontier.addMatch, scan_thread, CharSet.mem_single, isSome_scan]

end trees

theorem eq_of_singles {word piece : List Char}
    (h : List.Forall₂ (fun s d => s.mem d) (word.map CharSet.single) piece) : piece = word := by
  have heq : List.Forall₂ (· = ·) word piece := by
    simpa [List.forall₂_map_left_iff, CharSet.mem_single] using h
  rw [List.forall₂_eq_eq_eq] at heq
  exact heq.symm

theorem Opening.exists_rule {place : Cursor} (h : Opening place) : ∃ q ∈ operandRules,
    ∀ c, q.Binds table.flags table.names c → (c.matcher.matchAt place).isSome := by
  obtain ⟨hspace, hcomment, hslash, hfitsSpace, hfitsComment, hfitsSlash⟩ := trees_eq
  obtain ⟨piece, ⟨rest, hahead⟩, word, hword, hmem⟩ := h
  simp only [openings, List.mem_cons, List.not_mem_nil, or_false] at hword
  rcases hword with rfl | rfl | rfl
  · obtain ⟨d, _, hd, hnil, rfl⟩ := List.forall₂_cons_left_iff.1 hmem
    cases hnil
    refine ⟨operandRules[0], by simp [operandRules], fun c hc => ?_⟩
    rw [hc.isSome_matchAt rfl hspace hfitsSpace, ← hahead]
    exact matches_space _ _ _ hd
  · have hpiece : piece = ['/'] := eq_of_singles hmem
    refine ⟨operandRules[5], by simp [operandRules], fun c hc => ?_⟩
    rw [hc.isSome_matchAt rfl hslash hfitsSlash, ← hahead, hpiece]
    exact matches_slash _ _ _
  · have hpiece : piece = ['<', '!', '-', '-'] := eq_of_singles hmem
    refine ⟨operandRules[1], by simp [operandRules], fun c hc => ?_⟩
    rw [hc.isSome_matchAt rfl hcomment hfitsComment, ← hahead, hpiece]
    exact matches_comment _ _ _

/-- There it does not give up. -/
theorem Opening.not_givesUp {t : Table} {r : Run} {rule : CompiledRule} {found : Match}
    (h : Opening r.cursor) (htable : table.compile = .ok t) (hlexer : r.lexer = lexerOf t)
    (htop : r.stack.top = 1) (hwinner : r.winner? = some (rule, found))
    (haction : rule.action = .emit .text) : rule.op? ≠ some (.pop 1) := by
  have hname : Named table.names table.states[1].1 1 := rfl
  obtain ⟨rules, hexpands, hbinds⟩ :=
    surveyed_table.resolved.exists_rules htable (List.getElem_mem _) hname
  cases expands_operand.unique surveyed_table.resolved.distinct hexpands
  obtain ⟨q, hq, hmatches⟩ := h.exists_rule
  have hrules : r.table.rulesOf r.stack.top = t.rulesOf 1 := by
    rw [Run.table, hlexer, lexerOf, htop]
  have hfirst : Run.firstMatch r.cursor (t.rulesOf 1) = some (rule, found) := hrules ▸ hwinner
  obtain ⟨p, hp, hbind⟩ := Run.winner_before hbinds hq hmatches hfirst
  intro hop
  have hrel := hbind.op
  rw [hop] at hrel
  simp only [operandRules, List.mem_cons, List.not_mem_nil, or_false] at hp
  rcases hp with rfl | rfl | rfl | rfl | rfl | rfl
  · cases hrel
  · cases hrel
  · cases hrel
  · cases hrel
  · have hregex := hbind.emit rfl
    rw [haction] at hregex
    cases hregex
  · cases hrel with
    | some h => cases h

/-! Steps -/

structure Keeps (t : Table) (tokens : List Token) (r : Run) : Prop where
  lexer : r.lexer = lexerOf t
  stands : Stands tokens r
  regular : Regular tokens

section keeps
variable {t : Table} {taken : List Token} {r r' : Run} {category : Category}
  {op? : Option (StackOp StateId)} {piece : List Char}

theorem Stands.same (h : Stands taken r) (hstack : r'.stack = r.stack)
    (hzero : r'.zeroSteps = r.zeroSteps) (hcursor : r'.cursor = r.cursor) : Stands taken r' := by
  cases h with
  | root stack few fresh => exact .root (hstack ▸ stack) (hzero ▸ few) (hcursor ▸ hzero ▸ fresh)
  | operand stack few ready opening =>
    exact .operand (hstack ▸ stack) (hzero ▸ few) ready (hcursor ▸ opening)
  | bad stack few => exact .bad (hstack ▸ stack) (hzero ▸ few)

theorem Stands.stay (h : Stands taken r) (hstack : r'.stack.entries = r.stack.entries)
    (hzero : r'.zeroSteps = 0) (hpassed : r'.cursor.passed ≠ []) {tokens : List Token}
    (hready : Ready taken → Ready tokens) : Stands tokens r' := by
  cases h with
  | root stack => exact .root (hstack.trans stack) (by omega) fun _ => hzero
  | operand stack few ready =>
    exact .operand (hstack.trans stack) (by omega) (hready ready) fun h => absurd h hpassed
  | bad stack => exact .bad (hstack.trans stack) (by omega)

theorem passed_ne_nil {c c' : Cursor} (h : c.Passes piece c') (hmoved : piece ≠ [] ∨ c.passed ≠ []) :
    c'.passed ≠ [] := by
  rw [h.passed]
  rcases hmoved with hpiece | hpassed
  · exact fun hnil => hpiece (List.reverse_eq_nil_iff.1 (List.append_eq_nil_iff.1 hnil).1)
  · exact fun hnil => hpassed (List.append_eq_nil_iff.1 hnil).2

theorem Keeps.space (h : Keeps t taken r) (hpending : r.pending = [])
    (he : r.Emitted category none piece r') (hpiece : piece ≠ [])
    (hcategory : ¬Significant ⟨0, category, ""⟩) : Keeps t (taken ++ r'.pending) r' := by
  rw [he.pending, hpending, List.nil_append]
  refine ⟨he.lexer.trans h.lexer, ?_, h.regular.tokensOf (fun hregex => ?_) _ _⟩
  · refine h.stands.stay (by rw [he.stack]; rfl) (by rw [he.zeroSteps, if_neg hpiece])
      (passed_ne_nil he.passes (.inl hpiece)) fun hready => hready.tokensOf hcategory _ _
  · subst hregex
    exact absurd (by decide) hcategory

theorem Keeps.passes (h : Keeps t taken r) (hstack : r.stack.entries = [3])
    (hpending : r.pending = []) (he : r.Emitted category none piece r') (hpiece : piece ≠ [])
    (hcategory : category ≠ .stringRegex) : Keeps t (taken ++ r'.pending) r' := by
  have hzero : r'.zeroSteps = 0 := by rw [he.zeroSteps, if_neg hpiece]
  rw [he.pending, hpending, List.nil_append]
  refine ⟨he.lexer.trans h.lexer, .root ?_ ?_ fun _ => hzero,
    h.regular.tokensOf (fun hregex => absurd hregex hcategory) _ _⟩
  · rw [he.stack]
    exact hstack
  · rw [hzero]
    exact Nat.zero_le 2

theorem Keeps.opens (h : Keeps t taken r) (hstack : r.stack.entries = [3])
    (hpending : r.pending = []) (he : r.Emitted category (some (.push [1])) piece r')
    (hpiece : piece ≠ []) (hexpects : ExpectsOperand ⟨r.position, category, String.ofList piece⟩) :
    Keeps t (taken ++ r'.pending) r' := by
  have htokens := tokensOf_ne_nil r.position category hpiece
  have hregular : Regular (taken ++ tokensOf r.position category piece) :=
    h.regular.tokensOf (fun hregex => absurd hregex hexpects.category_ne) _ _
  rw [he.pending, hpending, List.nil_append]
  refine ⟨he.lexer.trans h.lexer, .operand ?_ ?_ ?_ fun hnil => ?_, hregular⟩
  · rw [he.stack]
    exact (applied_push hstack).1
  · rw [he.zeroSteps, if_neg hpiece]
    exact Nat.zero_le 1
  · rw [htokens]
    exact hexpects.ready
  · exact absurd hnil (passed_ne_nil he.passes (.inl hpiece))

theorem Keeps.begins (h : Keeps t [] r) (hstack : r.stack.entries = [3])
    (hfresh : r.zeroSteps = 0) (hpending : r.pending = [])
    (he : r.Emitted category (some (.push [1])) [] r') (hopening : Opening r'.cursor) :
    Keeps t r'.pending r' := by
  have hnone : r'.pending = [] := by rw [he.pending, hpending, tokensOf_nil, List.append_nil]
  rw [hnone]
  refine ⟨he.lexer.trans h.lexer, .operand ?_ ?_ (fun _ hlast => ?_) fun _ => hopening, h.regular⟩
  · rw [he.stack]
    exact (applied_push hstack).1
  · rw [he.zeroSteps, if_pos rfl, hfresh]
  · cases hlast

theorem Keeps.closes (h : Keeps t taken r) {top : StateId} (hstack : r.stack.entries = [top, 3])
    (hfew : piece = [] → r.zeroSteps ≤ 1) (hpending : r.pending = [])
    (he : r.Emitted category (some (.pop 1)) piece r')
    (hmoved : piece ≠ [] ∨ r.cursor.passed ≠ []) (hready : category = .stringRegex → Ready taken) :
    Keeps t (taken ++ r'.pending) r' := by
  rw [he.pending, hpending, List.nil_append]
  refine ⟨he.lexer.trans h.lexer, .root ?_ ?_ fun hnil => ?_, h.regular.tokensOf hready _ _⟩
  · rw [he.stack]
    exact (applied_pop hstack).1
  · rw [he.zeroSteps]
    split
    · next hpiece => exact Nat.succ_le_succ (hfew hpiece)
    · exact Nat.zero_le 2
  · exact absurd hnil (passed_ne_nil he.passes hmoved)

theorem Keeps.misses (h : Keeps t taken r) (hstack : r.stack.entries = [1, 3])
    (hfew : r.zeroSteps ≤ 1) (hpending : r.pending = [])
    (he : r.Emitted category (some (.replace [2])) piece r') (hcategory : category = .text) :
    Keeps t (taken ++ r'.pending) r' := by
  rw [he.pending, hpending, List.nil_append]
  refine ⟨he.lexer.trans h.lexer, .bad ?_ ?_, h.regular.tokensOf (fun hregex => ?_) _ _⟩
  · rw [he.stack]
    exact (applied_replace hstack).1
  · rw [he.zeroSteps]
    split
    · exact Nat.succ_le_succ hfew
    · exact Nat.zero_le 2
  · rw [hcategory] at hregex
    cases hregex

theorem Keeps.fallback (h : Keeps t taken r) (hroot : t.root = 3) (hfallback : t.fallback = .text)
    (hpending : r.pending = []) (hahead : r.cursor.ahead ≠ []) :
    Keeps t (taken ++ r.fallback.pending) r.fallback := by
  obtain ⟨c, rest, hahead⟩ := List.exists_cons_of_ne_nil hahead
  have hpassed : (r.cursor.seek (r.position + 1)).passed ≠ [] :=
    passed_ne_nil (Cursor.passes_next hahead) (.inl (List.cons_ne_nil c []))
  have htable : r.table = t := by rw [Run.table, h.lexer, lexerOf]
  have hcategory : r.fallbackCategory c = .text := by
    rw [Run.fallbackCategory, htable, hfallback, ite_self]
  have htokens : [⟨r.position, r.fallbackCategory c, String.ofList [c]⟩] =
      tokensOf r.position .text [c] := by
    rw [hcategory, tokensOf_ne_nil _ _ (List.cons_ne_nil c [])]
  have hregular : Regular (taken ++ tokensOf r.position .text [c]) :=
    h.regular.tokensOf (fun hregex => absurd hregex (by decide)) _ _
  rw [Run.fallback_eq hahead, hpending, List.nil_append, htokens]
  refine ⟨h.lexer, ?_, hregular⟩
  by_cases hreset : c = '\n' ∧ r.table.resetsOnNewline
  · refine .root ?_ (Nat.zero_le 2) fun _ => rfl
    simp only [if_pos hreset]
    rw [Stack.entries_reset, htable, hroot]
  · have hready : Ready taken → Ready (taken ++ tokensOf r.position .text [c]) :=
      fun hready => hready.tokensOf (by decide) _ _
    refine h.stands.stay ?_ rfl hpassed hready
    simp only [if_neg hreset]

end keeps

theorem op_push : Option.Rel (StackOp.Rel (Named table.names))
    (some (.push ["slashstartsregex"])) (some (.push [1])) :=
  .some (.push (.cons rfl .nil))

theorem op_replace : Option.Rel (StackOp.Rel (Named table.names))
    (some (.replace ["badregex"])) (some (.replace [2])) :=
  .some (.replace (.cons rfl .nil))

theorem opener_mem {piece : List Char} {word : List CharSet} (hword : word ∈ [[openers]])
    (hmem : List.Forall₂ (fun s d => s.mem d) word piece) :
    String.ofList piece ∈ ["\x7b", "(", "[", ";", ","] := by
  cases List.mem_singleton.1 hword
  obtain ⟨d, _, hd, hnil, rfl⟩ := List.forall₂_cons_left_iff.1 hmem
  cases hnil
  simp only [openers, CharSet.mem_unions, List.any_map, List.any_eq_true, Function.comp_apply,
    CharSet.mem_single, beq_iff_eq, exists_eq_right] at hd
  exact List.mem_map_of_mem (f := fun c => String.ofList [c]) hd

/-- The next step is accepted, and what holds of the run and its tokens goes on to hold. -/
def Goes (t : Table) (taken : List Token) (r : Run) : Prop :=
  (∀ reason, ¬r.Stalls reason) ∧ Keeps t (taken ++ r.scan.pending) r.scan

section winner
variable {t : Table} {taken : List Token} {r : Run} {rule : CompiledRule} {found : Match}
  (h : Keeps t taken r) (hwinner : r.winner? = some (rule, found))
include h hwinner

theorem Keeps.emits {category : Category} (haction : rule.action = .emit category)
    {op? : Option (StackOp String)} {bound? : Option (StackOp StateId)}
    (hop : Option.Rel (StackOp.Rel (Named table.names)) op? rule.op?)
    (hbound : Option.Rel (StackOp.Rel (Named table.names)) op? bound?)
    (hprogress : r.cursor.upTo found.stop ≠ [] ∨
      (r.stack.applied bound?).generation ≠ r.stack.generation) :
    (∀ reason, ¬r.Stalls reason) ∧ r.Emitted category bound? (r.cursor.upTo found.stop) r.scan := by
  cases StackOp.rel_unique hop hbound
  exact Run.scan_emit hwinner haction h.stands.few hprogress

variable (hpending : r.pending = [])
include hpending

theorem goes_space
    (hshown : Shown "commentsandwhitespace" r.cursor rule found) : Goes t taken r := by
  obtain ⟨category, _, body, after, ⟨rfl, hmoves, hcategory⟩, haction, hop, hleads⟩ := hshown
  have hpiece := hleads.upTo_ne_nil hmoves
  obtain ⟨hsmooth, he⟩ := h.emits hwinner haction hop .none (.inl hpiece)
  exact ⟨hsmooth, h.space hpending he hpiece hcategory⟩

theorem goes_root (hstack : r.stack.entries = [3]) (hfresh : r.cursor.passed = [] → r.zeroSteps = 0)
    (hfirst : r.cursor.passed = [] → taken = []) (hshown : Shown "root" r.cursor rule found) :
    Goes t taken r := by
  obtain ⟨category, op?, body, after, hshows, haction, hop, hleads⟩ := hshown
  rcases hshows with ⟨rfl, hmoves, hcategory⟩ | ⟨rfl, hshows⟩
  · have hpiece := hleads.upTo_ne_nil hmoves
    obtain ⟨hsmooth, he⟩ := h.emits hwinner haction hop .none (.inl hpiece)
    exact ⟨hsmooth, h.passes hstack hpending he hpiece hcategory⟩
  · obtain ⟨hpushed, hchanged⟩ := applied_push hstack
    obtain ⟨hsmooth, he⟩ := h.emits hwinner haction hop op_push (.inr hchanged)
    refine ⟨hsmooth, ?_⟩
    rcases hshows with ⟨rfl, hstart, hword, hwords⟩ | ⟨hmoves, hcategory⟩
    · have hpassed := hleads.passed_eq_nil hstart
      obtain ⟨word, hmem, hpiece⟩ := hleads.exists_word hword
      cases List.mem_singleton.1 hmem
      cases hfirst hpassed
      have hnil := List.forall₂_nil_left_iff.1 hpiece
      rw [hnil] at he
      exact h.begins hstack (hfresh hpassed) hpending he
        (hleads.exists_word_after hwords (hnil ▸ he.passes))
    · have hpiece := hleads.upTo_ne_nil hmoves
      refine h.opens hstack hpending he hpiece ?_
      rcases hcategory with hcategory | ⟨rfl, hword⟩
      · simp only [List.mem_cons, List.not_mem_nil, or_false] at hcategory
        exact hcategory.imp_right (·.imp_right .inl)
      · obtain ⟨word, hmem, hpiece⟩ := hleads.exists_word hword
        exact .inr (.inr (.inr ⟨rfl, opener_mem hmem hpiece⟩))

theorem goes_bad (hstack : r.stack.entries = [2, 3])
    (hshown : Shown "badregex" r.cursor rule found) : Goes t taken r := by
  obtain ⟨category, _, body, after, ⟨rfl, rfl, hmoves⟩, haction, hop, hleads⟩ := hshown
  have hpiece := hleads.upTo_ne_nil hmoves
  obtain ⟨hsmooth, he⟩ := h.emits hwinner haction hop (.some (.pop 1)) (.inl hpiece)
  exact ⟨hsmooth, h.closes hstack (fun hnil => absurd hnil hpiece) hpending he (.inl hpiece)
    fun hregex => absurd hregex (by decide)⟩

theorem goes_operand (htable : table.compile = .ok t) (hstack : r.stack.entries = [1, 3])
    (hfew : r.zeroSteps ≤ 1) (hready : Ready taken)
    (hopening : r.cursor.passed = [] → Opening r.cursor)
    (hshown : Shown "slashstartsregex" r.cursor rule found) : Goes t taken r := by
  obtain ⟨category, _, body, after, ⟨rfl, hshows⟩ | ⟨rfl, rfl⟩, haction, hop, hleads⟩ := hshown
  · have hpop := Option.Rel.some (StackOp.Rel.pop (R := Named table.names) 1)
    obtain ⟨hsmooth, he⟩ := h.emits hwinner haction hop hpop (.inr (applied_pop hstack).2)
    refine ⟨hsmooth, h.closes hstack (fun _ => hfew) hpending he ?_ fun _ => hready⟩
    rcases hshows with rfl | ⟨-, hmoves⟩
    · have htop : r.stack.top = 1 := (List.cons.inj hstack).1
      exact .inr fun hnil => (hopening hnil).not_givesUp htable h.lexer htop hwinner haction
        (StackOp.rel_unique hpop hop)
    · exact .inl (hleads.upTo_ne_nil hmoves)
  · obtain ⟨hsmooth, he⟩ :=
      h.emits hwinner haction hop op_replace (.inr (applied_replace hstack).2)
    exact ⟨hsmooth, h.misses hstack hfew hpending he rfl⟩

end winner

theorem exists_table : ∃ t, table.compile = .ok t ∧ t.names = table.names ∧ t.root = 3 ∧
    t.fallback = .text := by
  obtain ⟨t, hcompile, hnames, hroot, hfallback, -⟩ := surveyed_table.exists_table
  have hplace : Named table.names table.root 3 := rfl
  exact ⟨t, hcompile, hnames, Option.some.inj (hroot.symm.trans hplace), hfallback⟩

/-- One step keeps all of it. -/
theorem Keeps.goes {t : Table} {taken : List Token} {r : Run} (htable : table.compile = .ok t)
    (h : Keeps t taken r) (hpending : r.pending = []) (hahead : r.cursor.ahead ≠ [])
    (hfirst : r.cursor.passed = [] → taken = []) : Goes t taken r := by
  cases hwinner : r.winner? with
  | none =>
    obtain ⟨t', htable', -, hroot, hfallback⟩ := exists_table
    cases htable.symm.trans htable'
    refine ⟨fun reason hstalls => ?_, ?_⟩
    · obtain ⟨_, _, hsome, -⟩ := hstalls
      rw [hwinner] at hsome
      cases hsome
    · have hscan : r.scan = r.fallback := by rw [Run.scan, Run.step_eq, hwinner]
      rw [hscan]
      exact h.fallback hroot hfallback hpending hahead
  | some winner =>
    obtain ⟨rule, found⟩ := winner
    have hspace := goes_space h hwinner hpending
    cases h.stands with
    | root stack few fresh =>
      have htop : Named table.names "root" r.stack.top := (List.cons.inj stack).1 ▸ rfl
      exact (shown_winner htable h.lexer hwinner htop).elim
        (goes_root h hwinner hpending stack fresh hfirst) hspace
    | operand stack few ready opening =>
      have htop : Named table.names "slashstartsregex" r.stack.top := (List.cons.inj stack).1 ▸ rfl
      exact (shown_winner htable h.lexer hwinner htop).elim
        (goes_operand h hwinner hpending htable stack few ready opening) hspace
    | bad stack few =>
      have htop : Named table.names "badregex" r.stack.top := (List.cons.inj stack).1 ▸ rfl
      exact (shown_winner htable h.lexer hwinner htop).elim
        (goes_bad h hwinner hpending stack) hspace

/-! Runs -/

theorem Keeps.named {t : Table} {tokens : List Token} {r : Run} (h : Keeps t tokens r)
    (hnames : t.names = table.names) :
    r.stackNames ∈ [["root"], ["root", "slashstartsregex"], ["root", "badregex"]] := by
  have hstack : r.stackNames = r.stack.entries.reverse.filterMap (table.names[·]?) := by
    rw [Run.stackNames, h.lexer, LexerOf.namesOf, Stack.toList, ← hnames]
    rfl
  rw [hstack]
  cases h.stands with
  | root stack => exact stack ▸ .head _
  | operand stack => exact stack ▸ .tail _ (.head _)
  | bad stack => exact stack ▸ .tail _ (.tail _ (.head _))

section points
variable {t : Table} {p : Point} {text : List Char} {depth : Nat} (htable : table.compile = .ok t)

theorem taken_eq_nil (hp : p.Holds (lexerOf t) text depth) (hpending : p.run.pending = [])
    (hpassed : p.run.cursor.passed = []) : p.taken = [] := by
  have hcovers := hp.covers
  rw [hpassed, hpending, List.append_nil] at hcovers
  exact hcovers.eq_nil

include htable

theorem Keeps.not_stalls (hp : p.Holds (lexerOf t) text depth)
    (h : Keeps t (p.taken ++ p.run.pending) p.run) (reason : NoProgress) : ¬p.Stalls reason := by
  intro hstalls
  rw [hstalls.pending, List.append_nil] at h
  exact (h.goes htable hstalls.pending hstalls.ahead (taken_eq_nil hp hstalls.pending)).1 reason
    hstalls.refused

theorem Keeps.turn (hp : p.Holds (lexerOf t) text depth)
    (h : Keeps t (p.taken ++ p.run.pending) p.run) :
    Keeps t (p.turn.taken ++ p.turn.run.pending) p.turn.run := by
  cases hpending : p.run.pending with
  | cons u pending =>
    have hsame : p.run.lexer.recategorise u = u := by rw [h.lexer]; rfl
    rw [Point.turn_of_pending hpending, hsame, List.append_assoc, List.singleton_append,
      ← hpending]
    exact ⟨h.lexer, h.stands.same rfl rfl rfl, h.regular⟩
  | nil =>
    by_cases hahead : p.run.cursor.ahead = []
    · rwa [Point.turn_of_done hpending hahead]
    · rw [hpending, List.append_nil] at h
      rw [Point.turn_of_scan hpending hahead]
      exact (h.goes htable hpending hahead (taken_eq_nil hp hpending)).2

theorem keeps_after (text : List Char) (depth : Nat) (hroot : t.root = 3) (turns : Nat) :
    let p := Point.after turns (Run.start (lexerOf t) [t.root] text depth)
    Keeps t (p.taken ++ p.run.pending) p.run := by
  induction turns with
  | zero =>
    refine ⟨rfl, .root ?_ (Nat.zero_le 2) fun _ => rfl, fun before u after heq => ?_⟩
    · exact congrArg (fun root => [root]) hroot
    · exact absurd heq.symm (by simp [Point.after, Run.start])
  | succ turns ih =>
    rw [Point.after_succ]
    exact Keeps.turn htable (.after _ _ _ _ turns) ih

end points

/-- The lexer of JavaScript is in the root, or in a state for what may follow an operator, no step
of it stalls, and a regular expression stands only where an operand is expected. -/
theorem regex_where_operand_expected : ∃ l, lexer.outcome.1 = .ok l ∧ ∀ text : String,
    (∀ turns, let p := Point.after turns (l.run text)
      p.run.stackNames ∈ [["root"], ["root", "slashstartsregex"], ["root", "badregex"]] ∧
        ∀ reason, ¬p.Stalls reason) ∧
    ∀ before t after, (l.run text).tokens = before ++ t :: after → t.category = .stringRegex →
      ∀ last ∈ lastSignificant? before, ExpectsOperand last := by
  obtain ⟨t, htable, hnames, hroot, -⟩ := exists_table
  refine ⟨lexerOf t, Build.outcome_plain htable info, fun text => ⟨fun turns => ⟨?_, ?_⟩, ?_⟩⟩
  · exact (keeps_after htable text.toList 0 hroot turns).named hnames
  · exact (keeps_after htable text.toList 0 hroot turns).not_stalls htable (.after _ _ _ _ turns)
  · obtain ⟨turns, hdone, htokens, -⟩ :=
      Run.exists_turns_played (lexerOf t) [t.root] text.toList 0
    have hregular := (keeps_after htable text.toList 0 hroot turns).regular
    rw [hdone.pending, List.append_nil, htokens, ← Run.tokens_eq_played] at hregular
    exact hregular

end RuleLexer.Language.JavaScript
