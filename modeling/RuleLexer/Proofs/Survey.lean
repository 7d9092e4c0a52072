import RuleLexer.Build
import RuleLexer.Proofs.Inlining
import RuleLexer.Proofs.Room
import RuleLexer.Proofs.Shape
import RuleLexer.Proofs.Step

/-! Tables that are looked over entry by entry. Whether all that a table names is found, whether its
patterns can be read, and what can be read off their nodes is evaluated on the table as it is
written; the table that it builds then has rules of which all of this is known. -/
namespace RuleLexer
open RuleLexer.Text RuleLexer.Regex

namespace Words

/-! The words of a pattern put in order by their characters, as `sorted` puts them in order. -/

def notBehind : List Char → List Char → Bool
  | [], _ => true
  | _ :: _, [] => false
  | a :: as, b :: bs => decide (a.toNat < b.toNat) || (a == b && notBehind as bs)

def beforeChars (a b : List Char) : Bool :=
  if byteLength a = byteLength b then notBehind a b else decide (byteLength b < byteLength a)

def dedupChars : List (List Char) → List (List Char)
  | a :: b :: rest => if a = b then dedupChars (b :: rest) else a :: dedupChars (b :: rest)
  | rest => rest

def insertChars (word : List Char) : List (List Char) → List (List Char)
  | [] => [word]
  | w :: rest => if beforeChars word w then word :: w :: rest else w :: insertChars word rest

def sortedChars (words : List (List Char)) : List (List Char) :=
  dedupChars (words.foldr insertChars [])

def chars (list : List (List Char)) (before after : List Char) : List Char :=
  let alternatives := (sortedChars list).map escape
  before ++ "(?:".toList ++ ['|'].intercalate alternatives ++ [')'] ++ after

theorem notBehind_iff (as bs : List Char) :
    notBehind as bs ↔ ¬List.Lex (fun x y : Char => x.val < y.val) bs as := by
  induction as generalizing bs with
  | nil => simp [notBehind]
  | cons a as ih =>
    cases bs with
    | nil => simp [notBehind]
    | cons b bs =>
      have hless : ∀ c d : Char, c.val < d.val ↔ c.toNat < d.toNat := fun _ _ =>
        UInt32.lt_iff_toNat_lt
      have hsame : a = b ↔ a.toNat = b.toNat := Char.toNat_inj.symm
      rw [notBehind, List.cons_lex_cons_iff, Bool.or_eq_true, Bool.and_eq_true, ih,
        decide_eq_true_eq, beq_iff_eq, hless, eq_comm (b := a), hsame]
      by_cases hlex : List.Lex (fun x y : Char => x.val < y.val) bs as
      · simp only [hlex, not_true_eq_false, and_false, or_false, and_true]
        omega
      · simp only [hlex, not_false_eq_true, and_true, and_false, or_false]
        omega

theorem beforeChars_toList (a b : String) : beforeChars a.toList b.toList = Words.before a b := by
  have hle : notBehind a.toList b.toList = decide (a ≤ b) := by
    rw [Bool.eq_iff_iff, notBehind_iff, decide_eq_true_eq]
    exact Iff.rfl
  rw [beforeChars, before, byteLength_toList, byteLength_toList, hle]

theorem map_toList_dedup (words : List String) :
    (dedup words).map String.toList = dedupChars (words.map String.toList) := by
  fun_induction dedup words with
  | case1 b rest ih =>
    simp only [List.map_cons] at ih ⊢
    rw [dedupChars, if_pos rfl, ih]
  | case2 a b rest hne ih =>
    simp only [List.map_cons] at ih ⊢
    rw [dedupChars, if_neg (fun hsame => hne (String.toList_inj.1 hsame)), ih]
  | case3 rest hshort =>
    cases rest with
    | nil => rfl
    | cons a rest =>
      cases rest with
      | nil => rfl
      | cons b rest => exact absurd rfl (hshort a b rest)

theorem map_toList_insert (word : String) (words : List String) :
    (insert word words).map String.toList = insertChars word.toList (words.map String.toList) := by
  induction words with
  | nil => rfl
  | cons w rest ih =>
    rw [insert, List.map_cons, insertChars, beforeChars_toList]
    split
    · rfl
    · rw [List.map_cons, ih]

theorem map_toList_sorted (words : List String) :
    (sorted words).map String.toList = sortedChars (words.map String.toList) := by
  have hinsert : (words.foldr insert []).map String.toList =
      (words.map String.toList).foldr insertChars [] := by
    induction words with
    | nil => rfl
    | cons w rest ih => rw [List.foldr_cons, map_toList_insert, ih, List.map_cons, List.foldr_cons]
  rw [sorted, map_toList_dedup, hinsert, sortedChars]

end Words

theorem toList_words (list : List String) (before after : String) :
    (words list before after).toList =
      Words.chars (list.map String.toList) before.toList after.toList := by
  simp [words, Words.chars, ← Words.map_toList_sorted, Function.comp_def]

def Regex.Ast.regex (tree : Ast) : Regex := ⟨(tree.build 1).1, tree.groups⟩

namespace Pattern

def tree? (flags : PatternFlags) (source : List Char) (ahead? : Option String) : Option Ast :=
  let after := ahead?.elim [] fun ahead => "(?P<ahead>".toList ++ ahead.toList ++ [')']
  (Regex.parse (flags.header.toList ++ "(?:".toList ++ source ++ [')'] ++ after)).toOption.map
    Ast.simplify

/-- Evaluates to whether a pattern can be read, fits by the estimates and has parts that pass a
check. -/
def shows (check : Node → Node → Bool) (flags : PatternFlags) (source : List Char)
    (ahead? : Option String) : Bool :=
  (tree? flags source ahead?).any fun tree => tree.fitsWith CharSet.roughRoom &&
    (tree.regex.parts? ahead?.isSome).any fun parts => check parts.1 parts.2

theorem compile_eq_of_tree {flags : PatternFlags} {source : String} {ahead? : Option String}
    {tree : Ast} (htree : tree? flags source.toList ahead? = some tree) :
    compile source ahead? flags =
      if tree.fits then .ok ⟨source, ahead?, tree.regex,
        tree.regex.groupCount - (if ahead?.isSome then 1 else 0)⟩
      else .error .tooLarge := by
  have hsource : (fullSource source ahead? flags).toList = flags.header.toList ++ "(?:".toList ++
      source.toList ++ [')'] ++ ahead?.elim [] fun ahead =>
        "(?P<ahead>".toList ++ ahead.toList ++ [')'] := by
    cases ahead? <;> simp [fullSource, aheadGroup]
  obtain ⟨parsed, hparsed, rfl⟩ := Option.map_eq_some_iff.1 htree
  have hcompile : Regex.compile (fullSource source ahead? flags).toList =
      if parsed.simplify.fits then .ok parsed.simplify.regex else .error .tooLarge := by
    rw [hsource, Regex.compile]
    cases hparse : Regex.parse (flags.header.toList ++ "(?:".toList ++ source.toList ++ [')'] ++
        ahead?.elim [] fun ahead => "(?P<ahead>".toList ++ ahead.toList ++ [')']) with
    | ok ast =>
      rw [hparse] at hparsed
      cases hparsed
      rfl
    | error e =>
      rw [hparse] at hparsed
      cases hparsed
  rw [compile, hcompile]
  split <;> rfl

theorem compile_of_tree {flags : PatternFlags} {source : String} {ahead? : Option String}
    {tree : Ast} (htree : tree? flags source.toList ahead? = some tree) (hfits : tree.fits) :
    ∃ p, compile source ahead? flags = .ok p ∧ p.regex = tree.regex ∧ p.ahead? = ahead? :=
  ⟨_, (compile_eq_of_tree htree).trans (if_pos hfits), rfl, rfl⟩

theorem exists_of_shows {check : Node → Node → Bool} {flags : PatternFlags} {source : String}
    {ahead? : Option String} (h : shows check flags source.toList ahead?) :
    ∃ p body after, compile source ahead? flags = .ok p ∧
      p.regex.parts? p.ahead?.isSome = some (body, after) ∧ check body after := by
  obtain ⟨tree, htree, h⟩ := (Option.any_eq_true _ _).1 h
  obtain ⟨hfits, h⟩ := Bool.and_eq_true_iff.1 h
  obtain ⟨⟨body, after⟩, hparts, hcheck⟩ := (Option.any_eq_true _ _).1 h
  obtain ⟨p, hcompile, hregex, hahead⟩ := compile_of_tree htree (Ast.fits_of_rough hfits)
  exact ⟨p, body, after, hcompile, by rw [hregex, hahead, hparts], hcheck⟩

theorem shows_mono {check other : Node → Node → Bool}
    (hall : ∀ body after, check body after → other body after) {flags : PatternFlags}
    {source : List Char} {ahead? : Option String} (h : shows check flags source ahead?) :
    shows other flags source ahead? := by
  obtain ⟨tree, htree, h⟩ := (Option.any_eq_true _ _).1 h
  obtain ⟨hfits, h⟩ := Bool.and_eq_true_iff.1 h
  obtain ⟨parts, hparts, hcheck⟩ := (Option.any_eq_true _ _).1 h
  simp [shows, htree, hfits, hparts, hall _ _ hcheck]

end Pattern

/-- The states that are said are among these; another lexer starts as it does by itself. -/
def Delegate.finds (names : List String) : Delegate → Bool
  | .this states? => states?.all fun states => !states.isEmpty && states.all names.contains
  | .lexer _ states? => states?.isNone

def Action.finds (names : List String) : Action Delegate → Bool
  | .emit _ | .callback _ => true
  | .groups emissions => emissions.all fun
    | .token _ => true
    | .delegate target => target.finds names
  | .delegate target => target.finds names

theorem Delegate.resolves_of_finds {target : Delegate} {names : List String}
    (h : target.finds names) : target.Resolves names := by
  cases target with
  | this states? =>
    intro states hstates
    cases hstates
    obtain ⟨hne, hall⟩ := Bool.and_eq_true_iff.1 h
    refine ⟨?_, fun name hname => List.contains_iff_mem.1 (List.all_eq_true.1 hall name hname)⟩
    rintro rfl
    cases hne
  | lexer l states? =>
    cases Option.isNone_iff_eq_none.1 h
    simp [Resolves]

theorem Action.finds_of_handsTo {action : Action Delegate} {names : List String}
    (h : action.finds names) {target : Delegate} (hhands : action.HandsTo target) :
    target.finds names := by
  cases hhands with
  | whole => exact h
  | group hmem => exact List.all_eq_true.1 h _ hmem

section checks
variable {flags : PatternFlags} {names : List String} {r : Rule Delegate}

namespace Rule

def finds (names : List String) (r : Rule Delegate) : Bool :=
  r.action.finds names && (r.op?.elim [] StackOp.states).all names.contains

def shows (check : Node → Node → Bool) (flags : PatternFlags) (r : Rule Delegate) : Bool :=
  match r.source with
  | .pattern source ahead? => Pattern.shows check flags source.toList ahead?
  | .matcher _ => false

variable {check : Node → Node → Bool}

theorem readable_of_shows (h : r.shows check flags) : r.source.Readable flags := by
  cases hsource : r.source with
  | matcher m => trivial
  | pattern source ahead? =>
    rw [shows, hsource] at h
    obtain ⟨p, _, _, hcompile, -⟩ := Pattern.exists_of_shows h
    exact ⟨p, hcompile⟩

theorem resolves_of_shows (hfinds : r.finds names) (hshows : r.shows check flags) :
    r.Resolves flags names := by
  obtain ⟨haction, hop⟩ := Bool.and_eq_true_iff.1 hfinds
  refine ⟨readable_of_shows hshows, fun op hmem name hname => ?_, fun d hd =>
    Delegate.resolves_of_finds (Action.finds_of_handsTo haction hd)⟩
  rw [Option.mem_def.1 hmem] at hop
  exact List.contains_iff_mem.1 (List.all_eq_true.1 hop name hname)

/-- A match of a rule goes the ways that the rule's pattern shows. -/
theorem Binds.leads {c : CompiledRule} (h : r.Binds flags names c) (hshows : r.shows check flags)
    {place : Cursor} {found : Match} (hfound : c.matcher.matchAt place = some found) :
    ∃ body after, check body after ∧ found.Leads place body after := by
  obtain ⟨source, action, op?⟩ := r
  obtain ⟨matcher, _, _⟩ := c
  obtain ⟨hsource, -, -⟩ := h
  cases hsource with
  | matcher => cases hshows
  | pattern compiles =>
    obtain ⟨p, body, after, hcompile, hparts, hcheck⟩ := Pattern.exists_of_shows hshows
    cases compiles.symm.trans hcompile
    exact ⟨body, after, hcheck, Pattern.matchAt_leads hfound hparts⟩

theorem Binds.isSome_matchAt {c : CompiledRule} (h : r.Binds flags names c) {source : String}
    {ahead? : Option String} (hsource : r.source = .pattern source ahead?) {tree : Ast}
    (htree : Pattern.tree? flags source.toList ahead? = some tree) (hfits : tree.fits)
    (place : Cursor) : (c.matcher.matchAt place).isSome =
      (tree.regex.matchAt place.passed.head? place.offset place.ahead).isSome := by
  obtain ⟨p, hcompile, hregex, -⟩ := Pattern.compile_of_tree htree hfits
  have hreads := h.source
  rw [hsource] at hreads
  generalize c.matcher = matcher at hreads
  cases hreads with
  | pattern compiles =>
    cases compiles.symm.trans hcompile
    rw [Matcher.matchAt, Pattern.matchAt, Option.isSome_map, hregex]

theorem Binds.emit {c : CompiledRule} (h : r.Binds flags names c) {category : Category}
    (haction : r.action = .emit category) : c.action = .emit category := by
  have hrel := h.action
  rw [haction] at hrel
  generalize c.action = action at hrel
  cases hrel
  rfl

theorem Binds.of_emit {c : CompiledRule} (h : r.Binds flags names c) {category : Category}
    (haction : c.action = .emit category) : r.action = .emit category := by
  have hrel := h.action
  rw [haction] at hrel
  generalize r.action = action at hrel
  cases hrel
  rfl

theorem Binds.callback_iff {c : CompiledRule} (h : r.Binds flags names c) (f : Callback) :
    c.action = .callback f ↔ r.action = .callback f := by
  have hrel := h.action
  constructor
  · intro haction
    rw [haction] at hrel
    generalize r.action = action at hrel
    cases hrel
    rfl
  · intro haction
    rw [haction] at hrel
    generalize c.action = action at hrel
    cases hrel
    rfl

theorem Binds.op_none {c : CompiledRule} (h : r.Binds flags names c) (hop : r.op? = none) :
    c.op? = none := by
  have hrel := h.op
  rw [hop] at hrel
  generalize c.op? = op? at hrel
  cases hrel
  rfl

end Rule

def Entry.checks (check : Rule Delegate → Node → Node → Bool) (flags : PatternFlags)
    (names : List String) : Entry Delegate → Bool
  | .rule r => r.finds names && r.shows (check r) flags
  | .includes state => names.contains state

variable {check : Rule Delegate → Node → Node → Bool}

theorem Entry.resolves_of_checks {e : Entry Delegate} (h : e.checks check flags names) :
    e.Resolves flags names := by
  cases e with
  | includes state => exact List.contains_iff_mem.1 h
  | rule r =>
    obtain ⟨hfinds, hshows⟩ := Bool.and_eq_true_iff.1 h
    exact Rule.resolves_of_shows hfinds hshows

theorem Entry.checks_words {list : List String} {category : Category}
    {op? : Option (StackOp String)} (hfound : (op?.elim [] StackOp.states).all names.contains)
    (h : Pattern.shows (check ⟨.pattern (words list "" "\\b") none, .emit category, op?⟩) flags
      (Words.chars (list.map String.toList) [] ['\\', 'b']) none) :
    Entry.checks check flags names
      (.rule ⟨.pattern (words list "" "\\b") none, .emit category, op?⟩) := by
  have hchars : (words list "" "\\b").toList =
      Words.chars (list.map String.toList) [] ['\\', 'b'] := toList_words list "" "\\b"
  rw [← hchars] at h
  simp [checks, Rule.finds, Action.finds, Rule.shows, hfound, h]

end checks

def Entry.included? : Entry Delegate → Option String
  | .includes state => some state
  | .rule _ => none

def Entry.rule? : Entry Delegate → Option (Rule Delegate)
  | .rule r => some r
  | .includes _ => none

/-- Entries with the rules among others written in the place of each state that they take in. -/
def Entry.inlined (others : List (Entry Delegate)) (entries : List (Entry Delegate)) :
    List (Rule Delegate) :=
  entries.flatMap fun
    | .rule r => [r]
    | .includes _ => others.filterMap Entry.rule?

theorem Entry.inlined_of_rules {entries : List (Entry Delegate)}
    (h : entries.filterMap Entry.included? = []) (others : List (Entry Delegate)) :
    Entry.inlined others entries = entries.filterMap Entry.rule? := by
  induction entries with
  | nil => rfl
  | cons e entries ih =>
    cases e with
    | includes => cases h
    | rule r => exact congrArg (r :: ·) (ih h)

namespace TableDraft
variable {d : TableDraft}

def RisesIn (d : TableDraft) (order : List String) : Prop :=
  ∀ state ∈ d.states, ∀ name ∈ state.2.filterMap Entry.included?,
    order.idxOf name < order.idxOf state.1

instance (d : TableDraft) (order : List String) : Decidable (d.RisesIn order) :=
  inferInstanceAs (Decidable (∀ state ∈ d.states, ∀ name ∈ state.2.filterMap Entry.included?,
    order.idxOf name < order.idxOf state.1))

theorem RisesIn.acyclic {order : List String} (h : d.RisesIn order) : d.Acyclic := by
  have hless : ∀ state name, Relation.TransGen d.Includes state name →
      order.idxOf name < order.idxOf state := by
    intro state name hround
    induction hround with
    | single hincludes =>
      obtain ⟨entries, hstate, hmem⟩ := hincludes
      exact h _ hstate _ (List.mem_filterMap.2 ⟨_, hmem, rfl⟩)
    | tail _ hincludes ih =>
      obtain ⟨entries, hstate, hmem⟩ := hincludes
      exact (h _ hstate _ (List.mem_filterMap.2 ⟨_, hmem, rfl⟩)).trans ih
  exact fun state hround => Nat.lt_irrefl _ (hless state state hround)

/-- No other state than `base` is taken in, and that one takes in none. -/
def RestsOn (d : TableDraft) (base : String) : Prop :=
  ∀ state ∈ d.states, ∀ name ∈ state.2.filterMap Entry.included?, name = base ∧ state.1 ≠ base

instance (d : TableDraft) (base : String) : Decidable (d.RestsOn base) :=
  inferInstanceAs (Decidable (∀ state ∈ d.states, ∀ name ∈ state.2.filterMap Entry.included?,
    name = base ∧ state.1 ≠ base))

theorem restsOn_of_none (h : d.states.flatMap (·.2.filterMap Entry.included?) = [])
    (base : String) : d.RestsOn base := by
  intro state hstate name hname
  rw [List.flatMap_eq_nil_iff.1 h state hstate] at hname
  cases hname

section base
variable {base : String} (h : d.RestsOn base)
include h

theorem RestsOn.includes {state name : String} (hincludes : d.Includes state name) :
    name = base ∧ state ≠ base := by
  obtain ⟨entries, hstate, hmem⟩ := hincludes
  exact h _ hstate name (List.mem_filterMap.2 ⟨_, hmem, rfl⟩)

theorem RestsOn.acyclic : d.Acyclic := by
  have hrises : d.RisesIn [base] := by
    intro state hstate name hname
    obtain ⟨rfl, hne⟩ := h state hstate name hname
    simp [hne.symm]
  exact hrises.acyclic

theorem RestsOn.owner {state owner : String}
    (howner : Relation.ReflTransGen d.Includes state owner) : owner = state ∨ owner = base := by
  rcases (Relation.ReflTransGen.cases_tail_iff _ _ _).1 howner with heq | ⟨_, -, hlast⟩
  · exact .inl heq
  · exact .inr (h.includes hlast).1

theorem RestsOn.expands {basis : List (Entry Delegate)} (hbase : (base, basis) ∈ d.states)
    {state : String × List (Entry Delegate)} (hstate : state ∈ d.states) :
    d.Expands state.2 (Entry.inlined basis state.2) := by
  have hbasis : ∀ entries : List (Entry Delegate), entries ⊆ basis →
      d.Expands entries (entries.filterMap Entry.rule?) := by
    intro entries hsub
    induction entries with
    | nil => exact .nil
    | cons e entries ih =>
      obtain ⟨he, hentries⟩ := List.cons_subset.1 hsub
      cases e with
      | rule r => exact .rule (ih hentries)
      | includes name => exact absurd rfl (h.includes ⟨basis, hbase, he⟩).2
  have hall : ∀ entries : List (Entry Delegate), entries ⊆ state.2 →
      d.Expands entries (Entry.inlined basis entries) := by
    intro entries hsub
    induction entries with
    | nil => exact .nil
    | cons e entries ih =>
      obtain ⟨he, hentries⟩ := List.cons_subset.1 hsub
      cases e with
      | rule r => exact .rule (ih hentries)
      | includes name =>
        obtain ⟨rfl, -⟩ := h.includes ⟨state.2, hstate, he⟩
        exact .includes hbase (hbasis basis (List.Subset.refl _)) (ih hentries)
  exact hall _ (List.Subset.refl _)

end base

theorem Expands.exists_owner {entries : List (Entry Delegate)} {rules : List (Rule Delegate)}
    (h : d.Expands entries rules) {state : String}
    (hentries : ∀ e ∈ entries, d.Holds state e) {r : Rule Delegate} (hr : r ∈ rules) :
    ∃ owner, Relation.ReflTransGen d.Includes state owner ∧ d.Holds owner (.rule r) := by
  induction h generalizing state with
  | nil => cases hr
  | rule _ ih =>
    rcases List.mem_cons.1 hr with rfl | hr
    · exact ⟨state, .refl, hentries _ List.mem_cons_self⟩
    · exact ih (fun e he => hentries e (List.mem_cons_of_mem _ he)) hr
  | includes found _ _ ihwithin ihlater =>
    rcases List.mem_append.1 hr with hr | hr
    · obtain ⟨owner, howner, hholds⟩ := ihwithin (fun e he => ⟨_, found, he⟩) hr
      exact ⟨owner, .head (hentries _ List.mem_cons_self) howner, hholds⟩
    · exact ihlater (fun e he => hentries e (List.mem_cons_of_mem _ he)) hr

section rules
variable {t : Table} (h : d.Resolved) (hcompile : d.compile = .ok t)
include h hcompile

theorem Resolved.binds_inlined {base : String} (hrests : d.RestsOn base)
    {basis : List (Entry Delegate)} (hbase : (base, basis) ∈ d.states)
    {state : String × List (Entry Delegate)} (hstate : state ∈ d.states) {id : StateId}
    (hid : Named d.names state.1 id) :
    List.Forall₂ (Rule.Binds d.flags d.names) (Entry.inlined basis state.2) (t.rulesOf id) := by
  obtain ⟨rules, hexpands, hbinds⟩ := h.exists_rules hcompile hstate hid
  rwa [hexpands.unique h.distinct (hrests.expands hbase hstate)]

theorem Resolved.binds_written (hnone : d.states.flatMap (·.2.filterMap Entry.included?) = [])
    {state : String × List (Entry Delegate)} (hstate : state ∈ d.states) {id : StateId}
    (hid : Named d.names state.1 id) :
    List.Forall₂ (Rule.Binds d.flags d.names) (state.2.filterMap Entry.rule?) (t.rulesOf id) := by
  have hown : state.2.filterMap Entry.included? = [] := List.flatMap_eq_nil_iff.1 hnone _ hstate
  rw [← Entry.inlined_of_rules hown state.2]
  exact h.binds_inlined hcompile (restsOn_of_none hnone state.1) hstate hstate hid

end rules

/-- A draft that builds, whose rules pass a check that knows the state in which a rule stands. -/
structure Surveyed (d : TableDraft) (check : String → Rule Delegate → Node → Node → Bool) :
    Prop where
  resolved : d.Resolved
  acyclic : d.Acyclic
  shows : ∀ state r, d.Holds state (.rule r) → r.shows (check state r) d.flags

namespace Surveyed
variable {check : String → Rule Delegate → Node → Node → Bool}

theorem of_checks (once : d.duplicate? = none) (distinct : d.names.Nodup) (root : d.root ∈ d.names)
    (few : d.names.length ≤ TableError.maxStates) (acyclic : d.Acyclic)
    (checks : ∀ state ∈ d.states, ∀ e ∈ state.2, e.checks (check state.1) d.flags d.names) :
    d.Surveyed check where
  resolved := ⟨once, distinct, root, few, fun _ _ ⟨_, hstate, he⟩ =>
    Entry.resolves_of_checks (checks _ hstate _ he)⟩
  acyclic := acyclic
  shows _ _ h := by
    obtain ⟨_, hstate, he⟩ := h
    exact (Bool.and_eq_true_iff.1 (checks _ hstate _ he)).2

section table
variable (h : d.Surveyed check) {t : Table} (hcompile : d.compile = .ok t)
include h

theorem exists_table : ∃ t, d.compile = .ok t ∧ t.names = d.names ∧ Named d.names d.root t.root ∧
    t.fallback = d.fallback ∧ t.resetsOnNewline = d.resetsOnNewline := by
  obtain ⟨root, _, _, hroot, -, -, hcompile⟩ := h.resolved.compile_ok h.acyclic
  exact ⟨_, hcompile, rfl, hroot, rfl, rfl⟩

include hcompile

theorem exists_rule {state : String} {id : StateId} (hid : Named d.names state id)
    {c : CompiledRule} (hc : c ∈ t.rulesOf id) :
    ∃ owner r, Relation.ReflTransGen d.Includes state owner ∧ d.Holds owner (.rule r) ∧
      r.Binds d.flags d.names c ∧ r.shows (check owner r) d.flags := by
  obtain ⟨⟨name, entries⟩, hstate, rfl⟩ := List.mem_map.1 (exists_named.1 ⟨id, hid⟩)
  obtain ⟨rules, hexpands, hbinds⟩ := h.resolved.exists_rules hcompile hstate hid
  obtain ⟨r, hr, hbinds⟩ := exists_mem_of_forall₂ hbinds hc
  obtain ⟨owner, howner, hholds⟩ := hexpands.exists_owner (fun e he => ⟨entries, hstate, he⟩) hr
  exact ⟨owner, r, howner, hholds, hbinds, h.shows owner r hholds⟩

end table

end Surveyed

end TableDraft

theorem Run.firstMatch_behind {flags : PatternFlags} {names : List String} {place : Cursor}
    {before after : List (Rule Delegate)} {q : Rule Delegate} {compiled : List CompiledRule}
    (h : List.Forall₂ (Rule.Binds flags names) (before ++ q :: after) compiled)
    (hmisses : ∀ r ∈ before, ∀ c, r.Binds flags names c → c.matcher.matchAt place = none) :
    ∃ c, q.Binds flags names c ∧ ∀ found, c.matcher.matchAt place = some found →
      firstMatch place compiled = some (c, found) := by
  induction before generalizing compiled with
  | nil =>
    obtain ⟨c, rest, hbinds, -, rfl⟩ := List.forall₂_cons_left_iff.1 h
    exact ⟨c, hbinds, fun found hfound => by rw [firstMatch, hfound]⟩
  | cons r before ih =>
    obtain ⟨first, rest, hbinds, hrest, rfl⟩ := List.forall₂_cons_left_iff.1 h
    obtain ⟨c, hc, hfirst⟩ := ih hrest fun q hq => hmisses q (List.mem_cons_of_mem _ hq)
    refine ⟨c, hc, fun found hfound => ?_⟩
    rw [firstMatch, hmisses r List.mem_cons_self first hbinds, hfirst found hfound]

/-- A rule that matches keeps those behind it from winning. -/
theorem Run.winner_before {flags : PatternFlags} {names : List String} {place : Cursor}
    {before after : List (Rule Delegate)} {compiled : List CompiledRule}
    (h : List.Forall₂ (Rule.Binds flags names) (before ++ after) compiled) {q : Rule Delegate}
    (hq : q ∈ before)
    (hmatches : ∀ c, q.Binds flags names c → (c.matcher.matchAt place).isSome)
    {rule : CompiledRule} {found : Match} (hfirst : firstMatch place compiled = some (rule, found)) :
    ∃ r ∈ before, r.Binds flags names rule := by
  induction before generalizing compiled with
  | nil => cases hq
  | cons r before ih =>
    obtain ⟨c, rest, hbinds, hrest, rfl⟩ := List.forall₂_cons_left_iff.1 h
    rw [firstMatch] at hfirst
    split at hfirst
    · cases hfirst
      exact ⟨r, List.mem_cons_self, hbinds⟩
    · next hnone =>
      rcases List.mem_cons.1 hq with rfl | hq
      · have hsome := hmatches c hbinds
        rw [hnone] at hsome
        cases hsome
      · obtain ⟨p, hp, hrule⟩ := ih hrest hq hfirst
        exact ⟨p, List.mem_cons_of_mem _ hp, hrule⟩

namespace Build
variable {α β : Type}

def Yields (b : Build α) (a : α) : Prop := ∀ notices, (b.run notices).1 = .ok a

theorem Yields.outcome {b : Build α} {a : α} (h : b.Yields a) : b.outcome.1 = .ok a := h []

theorem Yields.bind {b : Build α} {a : α} (h : b.Yields a) {f : α → Build β} {c : β}
    (hf : (f a).Yields c) : (b >>= f).Yields c := by
  intro notices
  show (ExceptT.bindCont f (b.run notices).1 (b.run notices).2).1 = _
  rw [h]
  exact hf _

theorem yields_accept {result : Except TableError α} {a : α} (h : result = .ok a)
    (built : α → Notice) (rejected : TableError → Notice) :
    (accept result built rejected).Yields a := by
  intro notices
  rw [h]
  rfl

theorem yields_table {d : TableDraft} {t : Table} (h : d.compile = .ok t) : (table d).Yields t :=
  yields_accept h _ _

theorem yields_lexer {d : LexerDraft} {l : Lexer} (h : d.compile = .ok l) : (lexer d).Yields l :=
  yields_accept h _ _

theorem yields_plain {d : TableDraft} {t : Table} (h : d.compile = .ok t) (info : LexerInfo) :
    (plain info d).Yields ⟨info, t, [t.root], none, []⟩ :=
  (yields_table h).bind (yields_lexer rfl)

theorem outcome_plain {d : TableDraft} {t : Table} (h : d.compile = .ok t) (info : LexerInfo) :
    (plain info d).outcome.1 = .ok ⟨info, t, [t.root], none, []⟩ :=
  (yields_plain h info).outcome

end Build

end RuleLexer
