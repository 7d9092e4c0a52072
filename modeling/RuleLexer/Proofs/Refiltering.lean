import RuleLexer.Proofs.Binding
import RuleLexer.Proofs.Lockstep

/-! Filters do not scan. Two lexers may differ in their filters, and so may the lexers that their
rules hand text to, at any depth. Their runs give tokens at the same places, with the same texts, and
all that decides how a run goes on is the same in both after each token. -/
namespace RuleLexer
open RuleLexer.Text RuleLexer.Coverage

inductive RuleOf.Rel {σ τ : Type} (R : σ → τ → Prop) : RuleOf σ → RuleOf τ → Prop
  | rule (matcher : Matcher) {action : Action σ} {other : Action τ} (h : action.Rel R other)
      (op? : Option (StackOp StateId)) : Rel R ⟨matcher, action, op?⟩ ⟨matcher, other, op?⟩

inductive Target.Rel (R : Lexer → Lexer → Prop) : Target → Target → Prop
  | this (states? : Option (List StateId)) : Rel R (.this states?) (.this states?)
  | lexer {l l' : Lexer} (h : R l l') (states? : Option (List StateId)) :
      Rel R (.lexer l states?) (.lexer l' states?)

/-- The other lexer is the same with any other filters, its own and those of the lexers that take
part in its runs. -/
inductive Lexer.Refiltered : Lexer → Lexer → Prop
  | refilter {l l' : Lexer} (info : l'.info = l.info) (initial : l'.initial = l.initial)
      (optionErrors : l'.optionErrors = l.optionErrors) (names : l'.table.names = l.table.names)
      (root : l'.table.root = l.table.root) (fallback : l'.table.fallback = l.table.fallback)
      (resetsOnNewline : l'.table.resetsOnNewline = l.table.resetsOnNewline)
      (flags : l'.table.flags = l.table.flags)
      (rules : List.Forall₂ (List.Forall₂ (RuleOf.Rel (Target.Rel Refiltered))) l.table.rules
        l'.table.rules) : Refiltered l l'

def LexerOf.withFilter {τ : Type} (l : LexerOf τ) (filter? : Option TokenFilter) : LexerOf τ :=
  { l with filter? }

theorem Action.HandsTo.sizeOf_lt {action : Action Target} {target : Target}
    (h : action.HandsTo target) : sizeOf target < sizeOf action := by
  cases h with
  | whole => simp
  | @group emissions hmem =>
    have hsize := List.sizeOf_lt_of_mem hmem
    simp only [Emission.delegate.sizeOf_spec, Action.groups.sizeOf_spec] at hsize ⊢
    omega

namespace Lexer.Refiltered

/-- The relation asks nothing of filters. The lexers that a lexer hands text to are within it, so
the recursion ends. -/
theorem refl (l : Lexer) : Refiltered l l := by
  refine .refilter rfl rfl rfl rfl rfl rfl rfl rfl (List.forall₂_same.2 fun rules hrules =>
    List.forall₂_same.2 fun rule hrule => ?_)
  obtain ⟨matcher, action, op?⟩ := rule
  refine .rule matcher (Action.rel_refl fun target htarget => ?_) op?
  cases target with
  | this states? => exact .this states?
  | lexer m states? => exact .lexer (refl m) states?
termination_by sizeOf l
decreasing_by
  have hstate := List.sizeOf_lt_of_mem hrules
  have hsize := List.sizeOf_lt_of_mem hrule
  have htarget := htarget.sizeOf_lt
  obtain ⟨info, table, initial, filter?, optionErrors⟩ := l
  obtain ⟨names, rules, root, fallback, resetsOnNewline, flags⟩ := table
  simp only [LexerOf.mk.sizeOf_spec, TableOf.mk.sizeOf_spec, RuleOf.mk.sizeOf_spec,
    Target.lexer.sizeOf_spec] at *
  omega

variable {l l' : Lexer} (h : Lexer.Refiltered l l')
include h

theorem withFilter (first second : Option TokenFilter) :
    Refiltered (l.withFilter first) (l'.withFilter second) := by
  cases h with
  | refilter info initial optionErrors names root fallback resetsOnNewline flags rules =>
    exact .refilter info initial optionErrors names root fallback resetsOnNewline flags rules

theorem initial_eq : l'.initial = l.initial := by
  cases h
  assumption

theorem sameFrame : Lexer.SameFrame l l' := by
  cases h
  constructor <;> assumption

theorem rulesOf (state : StateId) :
    List.Forall₂ (RuleOf.Rel (Target.Rel Refiltered)) (l.table.rulesOf state)
      (l'.table.rulesOf state) := by
  have hrules : List.Forall₂ (List.Forall₂ (RuleOf.Rel (Target.Rel Refiltered))) l.table.rules
      l'.table.rules := by
    cases h
    assumption
  rw [TableOf.rulesOf, TableOf.rulesOf]
  generalize l.table.rules = rules at hrules
  generalize l'.table.rules = others at hrules
  induction hrules generalizing state with
  | nil => exact .nil
  | cons hfirst _ ih =>
    cases state with
    | zero => exact hfirst
    | succ state => exact ih state

end Lexer.Refiltered

/-- The tokens are the same piece of the text, whatever their categories. -/
def Token.SamePiece (t u : Token) : Prop := u.offset = t.offset ∧ u.text = t.text

namespace Token

theorem SamePiece.refl (t : Token) : t.SamePiece t := ⟨rfl, rfl⟩

theorem SamePiece.shift {t u : Token} (h : t.SamePiece u) (bytes : Nat) :
    (t.shift bytes).SamePiece (u.shift bytes) := by
  simpa [SamePiece] using h

theorem SamePiece.recategorise {t u : Token} (h : t.SamePiece u) (l l' : Lexer) :
    (l.recategorise t).SamePiece (l'.recategorise u) := by
  simpa [SamePiece] using h

end Token

def Runner.Unfiltered (runner : Runner) : Prop :=
  ∀ l l', Lexer.Refiltered l l' → ∀ states text,
    List.Forall₂ Token.SamePiece (runner l states text).1 (runner l' states text).1 ∧
      (runner l' states text).2 = (runner l states text).2

structure Piece.Refiltered (p p' : Piece) : Prop where
  offset : p'.offset = p.offset
  text : p'.text = p.text
  fate : p.fate.Rel (Target.Rel Lexer.Refiltered) p'.fate

namespace Target.Rel
variable {l l' : Lexer} {target target' : Target} (h : Target.Rel Lexer.Refiltered target target')
include h

theorem lexerIn (hl : Lexer.Refiltered l l') :
    Lexer.Refiltered (target.lexerIn l) (target'.lexerIn l') := by
  cases h with
  | this states? => exact hl
  | lexer h states? => exact h

theorem statesIn (hl : Lexer.Refiltered l l') : target'.statesIn l' = target.statesIn l := by
  cases h with
  | this states? => rw [Target.statesIn, Target.statesIn, hl.initial_eq]
  | lexer h states? => rw [Target.statesIn, Target.statesIn, h.initial_eq]

end Target.Rel

section steps
variable {l l' : Lexer} {runner? : Option Runner}

theorem Match.refiltered_pieces (found : Match) (place : Cursor) {action action' : Action Target}
    (h : action.Rel (Target.Rel Lexer.Refiltered) action') :
    List.Forall₂ Piece.Refiltered (found.pieces place action) (found.pieces place action') := by
  cases h with
  | emit category => exact .cons ⟨rfl, rfl, .token category⟩ .nil
  | delegate h => exact .cons ⟨rfl, rfl, .delegate h⟩ .nil
  | callback f => exact .nil
  | groups h =>
    rw [pieces, pieces]
    generalize 1 = index
    induction h generalizing index place with
    | nil => exact .cons ⟨rfl, rfl, .token .text⟩ .nil
    | cons hfirst _ ih =>
      rw [groupPieces, groupPieces]
      split
      · exact ih _ _
      · split
        · exact ih _ _
        · exact .cons ⟨rfl, rfl, .token .text⟩ (.cons ⟨rfl, rfl, hfirst⟩ (ih _ _))

theorem Piece.Refiltered.beside (hl : Lexer.Refiltered l l')
    (hrunner : ∀ runner ∈ runner?, Runner.Unfiltered runner) (depth : Nat) {p p' : Piece}
    (h : p.Refiltered p') : Piece.Beside l l' Token.SamePiece runner? runner? depth p p' := by
  have hname : l'.name = l.name := congrArg LexerInfo.name hl.sameFrame.info
  obtain ⟨offset, text, fate⟩ := p
  obtain ⟨offset', text', fate'⟩ := p'
  obtain ⟨rfl, rfl, hfate⟩ := h
  cases hfate with
  | token category => exact ⟨List.forall₂_same.2 fun t _ => .refl t, rfl⟩
  | @delegate target other htarget =>
    by_cases hempty : text' = []
    · constructor <;> simp [Piece.tokens, Piece.noted, Piece.job?, delegated, hempty]
    · cases runner? with
      | none =>
        constructor
        · simp [Piece.tokens, delegated, hempty, Token.SamePiece]
        · simp [Piece.noted, Piece.job?, hempty, hname]
      | some runner =>
        obtain ⟨htokens, hnoted⟩ := hrunner runner rfl _ _ (htarget.lexerIn hl)
          (target.statesIn l) text'
        constructor
        · simp only [Piece.tokens, delegated, List.isEmpty_iff, hempty, if_false,
            htarget.statesIn hl]
          rw [List.forall₂_map_left_iff, List.forall₂_map_right_iff]
          exact htokens.imp fun t u htu => htu.shift offset'
        · simpa [Piece.noted, Piece.job?, hempty, htarget.statesIn hl] using hnoted

variable {r r' : Run}

theorem Run.winner?_refiltered (hl : Lexer.Refiltered l l')
    (h : r.Beside l l' Token.SamePiece r') :
    Option.Rel (fun w w' => RuleOf.Rel (Target.Rel Lexer.Refiltered) w.1 w'.1 ∧ w'.2 = w.2)
      r.winner? r'.winner? := by
  have htables : r.table = l.table ∧ r'.table = l'.table := by
    obtain ⟨rfl, pending, rfl, -⟩ := h
    exact ⟨rfl, rfl⟩
  have hrules := hl.rulesOf r.stack.top
  rw [winner?, winner?, h.cursor_eq, h.stack_eq, htables.1, htables.2]
  generalize l.table.rulesOf r.stack.top = rules at hrules
  generalize l'.table.rulesOf r.stack.top = others at hrules
  induction hrules with
  | nil => exact .none
  | cons hfirst _ ih =>
    cases hfirst with
    | rule matcher h op? =>
      rw [firstMatch, firstMatch]
      cases matcher.matchAt r.cursor with
      | none => exact ih
      | some found => exact .some ⟨.rule matcher h op?, rfl⟩

theorem Run.Beside.step_refiltered (hl : Lexer.Refiltered l l')
    (hrunner : ∀ runner ∈ runner?, Runner.Unfiltered runner)
    (h : r.Beside l l' Token.SamePiece r') :
    (r.step runner?).Beside l l' Token.SamePiece (r'.step runner?) := by
  have hwinner := winner?_refiltered hl h
  generalize hfirst : r.winner? = first at hwinner
  generalize hsecond : r'.winner? = second at hwinner
  cases hwinner with
  | none => exact h.step_of_none hl.sameFrame Token.SamePiece.refl hfirst hsecond
  | @some w w' hsame =>
    obtain ⟨rule, found⟩ := w
    obtain ⟨rule', found'⟩ := w'
    obtain ⟨hrule, hfound⟩ := hsame
    simp only at hrule hfound
    subst hfound
    cases hrule with
    | rule matcher haction op? =>
      refine h.step_of_some hl.sameFrame Token.SamePiece.refl hfirst hsecond rfl ?_
      cases haction with
      | callback f => exact .callback f
      | emit | groups | delegate =>
        refine .pieces (by simp) (by simp) ?_
        refine (Match.refiltered_pieces _ _ ?_).imp fun p p' hp => hp.beside hl hrunner _
        constructor <;> assumption

theorem Run.Beside.ready (h : r.Beside l l' Token.SamePiece r') :
    List.Forall₂ Token.SamePiece r.ready r'.ready := by
  rw [Run.ready, Run.ready, List.forall₂_map_left_iff, List.forall₂_map_right_iff]
  exact h.forall₂.imp fun t u htu => htu.recategorise _ _

theorem Run.Beside.drain_refiltered (hl : Lexer.Refiltered l l')
    (hrunner : ∀ runner ∈ runner?, Runner.Unfiltered runner) (fuel : Nat)
    (h : r.Beside l l' Token.SamePiece r') :
    List.Forall₂ Token.SamePiece (drain runner? fuel r).1 (drain runner? fuel r').1 ∧
      (drain runner? fuel r').2 = (drain runner? fuel r).2 := by
  induction fuel generalizing r r' with
  | zero => exact ⟨h.ready, h.notices_eq⟩
  | succ fuel ih =>
    have hahead : r'.cursor.ahead = r.cursor.ahead := by rw [h.cursor_eq]
    by_cases hend : r.cursor.ahead = []
    · rw [drain_of_atEnd hend, drain_of_atEnd (hahead.trans hend)]
      exact ⟨h.ready, h.notices_eq⟩
    · rw [drain_succ hend, drain_succ (hahead ▸ hend)]
      have hgiven := h.withPending (.nil : List.Forall₂ Token.SamePiece [] [])
      obtain ⟨htokens, hnotices⟩ := ih (hgiven.step_refiltered hl hrunner)
      exact ⟨List.rel_append h.ready htokens, hnotices⟩

theorem Run.Beside.advance_refiltered (hl : Lexer.Refiltered l l')
    (hrunner : ∀ runner ∈ runner?, Runner.Unfiltered runner) (fuel : Nat)
    (h : r.Beside l l' Token.SamePiece r') :
    (advance runner? fuel r).Beside l l' Token.SamePiece (advance runner? fuel r') := by
  induction fuel generalizing r r' with
  | zero => exact h
  | succ fuel ih =>
    have hahead : r'.cursor.ahead = r.cursor.ahead := by rw [h.cursor_eq]
    by_cases hpending : r.pending = []
    · have hpending' := h.pending_eq_nil_iff.1 hpending
      by_cases hend : r.cursor.ahead = []
      · rwa [advance_of_atEnd hend, advance_of_atEnd (hahead.trans hend)]
      · rw [advance_succ hpending hend, advance_succ hpending' (hahead ▸ hend)]
        exact ih (h.step_refiltered hl hrunner)
    · have hpending' := mt h.pending_eq_nil_iff.2 hpending
      rwa [advance_of_pending hpending, advance_of_pending hpending']

end steps

theorem Run.runner?_unfiltered (levels : Nat) :
    ∀ runner ∈ runner? levels, Runner.Unfiltered runner := by
  induction levels with
  | zero => simp [runner?]
  | succ levels ih =>
    rintro runner hrunner l l' hl states text
    cases hrunner
    exact (Beside.started hl.sameFrame states text _).drain_refiltered hl ih _

namespace Run

/-- One call for the next token: the answer, which is none at the end, and the run as it stands
then. -/
def call (r : Run) : Option Token × Run :=
  match r.next? with
  | some (t, r') => (some t, r')
  | none => (none, advance (runner? r.levels) (maxZeroSteps + 1) r)

def calls (r : Run) : Nat → List (Option Token) × Run
  | 0 => ([], r)
  | n + 1 => ((r.calls n).1 ++ [(r.calls n).2.call.1], (r.calls n).2.call.2)

theorem Beside.call_refiltered {l l' : Lexer} {r r' : Run} (hl : Lexer.Refiltered l l')
    (h : r.Beside l l' Token.SamePiece r') :
    Option.Rel Token.SamePiece r.call.1 r'.call.1 ∧
      r.call.2.Beside l l' Token.SamePiece r'.call.2 := by
  have hadvance := h.advance_refiltered hl (runner?_unfiltered r.levels) (maxZeroSteps + 1)
  have hforall := hadvance.forall₂
  rw [call, call, next?, next?, h.levels_eq]
  generalize advance (runner? r.levels) (maxZeroSteps + 1) r = s at hadvance hforall
  generalize advance (runner? r.levels) (maxZeroSteps + 1) r' = s' at hadvance hforall
  generalize hfirst : s.pending = first at hforall
  generalize hsecond : s'.pending = second at hforall
  cases hforall with
  | nil => exact ⟨.none, hadvance⟩
  | cons ht hrest => exact ⟨.some (ht.recategorise _ _), hadvance.withPending hrest⟩

theorem Beside.calls_refiltered {l l' : Lexer} {r r' : Run} (hl : Lexer.Refiltered l l')
    (h : r.Beside l l' Token.SamePiece r') (n : Nat) :
    List.Forall₂ (Option.Rel Token.SamePiece) (r.calls n).1 (r'.calls n).1 ∧
      (r.calls n).2.Beside l l' Token.SamePiece (r'.calls n).2 := by
  induction n with
  | zero => exact ⟨.nil, h⟩
  | succ n ih =>
    obtain ⟨hanswer, hrun⟩ := ih.2.call_refiltered hl
    exact ⟨List.rel_append ih.1 (.cons hanswer .nil), hrun⟩

end Run

/-- Filters have no influence on scanning. Whatever filters the lexer that runs has, and those that
it hands text to, after any number of calls the same pieces of the text have been given out and the
run is at the same place, with the same stack and memo, as many tokens pending and the same
notices. -/
theorem filters_never_scan {l l' : Lexer} (h : Lexer.Refiltered l l') (states : List StateId)
    (text : List Char) (depth calls : Nat) :
    let given := (Run.start l states text depth).calls calls
    let given' := (Run.start l' states text depth).calls calls
    List.Forall₂ (Option.Rel Token.SamePiece) given.1 given'.1 ∧
      given'.2.position = given.2.position ∧ given'.2.stack = given.2.stack ∧
      given'.2.memo = given.2.memo ∧ given'.2.pending.length = given.2.pending.length ∧
      given'.2.notices = given.2.notices := by
  intro given given'
  have hstart := Run.Beside.started (T := Token.SamePiece) h.sameFrame states text depth
  obtain ⟨hgiven, hrun⟩ := hstart.calls_refiltered h calls
  exact ⟨hgiven, hrun.position_eq, hrun.stack_eq, hrun.memo_eq, hrun.forall₂.length_eq.symm,
    hrun.notices_eq⟩

def naming : TokenFilter := fun _ _ => .name

/-- Hands the word between two brackets to another lexer. -/
def enclosingDraft (filter? : Option TokenFilter) : TableDraft where
  states :=
    [("root", [.groups "<([a-z]+)>" [.delegate (.lexer (nestingLexer.withFilter filter?) none)]])]

def enclosingTable : Table := (enclosingDraft none).compile.toOption.get (by decide +kernel)

def namingTable : Table := (enclosingDraft (some naming)).compile.toOption.get (by decide +kernel)

def enclosingLexer : Lexer := ⟨⟨"enclosing", [], [], []⟩, enclosingTable, [0], none, []⟩

def namingLexer : Lexer := ⟨⟨"enclosing", [], [], []⟩, namingTable, [0], some naming, []⟩

theorem rel_namingTable : List.Forall₂ (List.Forall₂ (RuleOf.Rel (Target.Rel Lexer.Refiltered)))
    enclosingTable.rules namingTable.rules := by
  have hinner := (Lexer.Refiltered.refl nestingLexer).withFilter none (some naming)
  exact .cons (.cons (.rule _ (.groups (.cons (.delegate (.lexer hinner none)) .nil)) none) .nil)
    .nil

theorem refiltered_namingLexer : Lexer.Refiltered enclosingLexer namingLexer := by
  have hnames : namingTable.names = enclosingTable.names := by decide +kernel
  have hroot : namingTable.root = enclosingTable.root := by decide +kernel
  have hfallback : namingTable.fallback = enclosingTable.fallback := by decide +kernel
  have hresets : namingTable.resetsOnNewline = enclosingTable.resetsOnNewline := by
    decide +kernel
  have hflags : namingTable.flags = enclosingTable.flags := by decide +kernel
  exact .refilter rfl rfl rfl hnames hroot hfallback hresets hflags rel_namingTable

theorem filters_never_scan_enclosing :
    let given := (Run.start enclosingLexer [0] ['<', 'b', 'a', '>'] 0).calls 2
    let given' := (Run.start namingLexer [0] ['<', 'b', 'a', '>'] 0).calls 2
    given.1 = [some ⟨0, .text, "<"⟩, some ⟨1, .keyword, "b"⟩] ∧
      given'.1 = [some ⟨0, .name, "<"⟩, some ⟨1, .name, "b"⟩] ∧
      Lexer.Refiltered enclosingLexer namingLexer ∧ given'.2.position = given.2.position ∧
      given'.2.stack = given.2.stack ∧ given'.2.pending.length = given.2.pending.length := by
  intro given given'
  have hgiven : given.1 = [some ⟨0, .text, "<"⟩, some ⟨1, .keyword, "b"⟩] := by decide +kernel
  have hgiven' : given'.1 = [some ⟨0, .name, "<"⟩, some ⟨1, .name, "b"⟩] := by decide +kernel
  obtain ⟨-, hposition, hstack, -, hpending, -⟩ :=
    filters_never_scan refiltered_namingLexer [0] ['<', 'b', 'a', '>'] 0 2
  exact ⟨hgiven, hgiven', refiltered_namingLexer, hposition, hstack, hpending⟩

end RuleLexer
