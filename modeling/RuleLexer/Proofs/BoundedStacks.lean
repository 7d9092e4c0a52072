import RuleLexer.Proofs.Callbacks
import RuleLexer.Proofs.Refusing
import RuleLexer.Proofs.StackShapes
import RuleLexer.Proofs.Survey

/-! Stacks that stay small. Where the operations of a table lead from stacks of some shapes to
stacks of these shapes only, and callbacks leave the stack alone, no run ever has another stack, so
it is never deeper than the largest shape, and no push is refused. Which shapes do can be checked on
the table as it is written. -/
namespace RuleLexer
open RuleLexer.Text

def Stack.Among (names : List String) (shapes : List (List String)) (s : Stack) : Prop :=
  ∃ shape ∈ shapes, s.Shaped names shape

/-! Callbacks -/

def Call.leavesStack : Call → Bool
  | .push _ | .pop _ | .reset _ => false
  | _ => true

inductive Script.LeavesStack : Script → Prop
  | done : LeavesStack .done
  | call {c : Call} {next : View → Reply → Script} (leaves : c.leavesStack)
      (later : ∀ view reply, LeavesStack (next view reply)) : LeavesStack (.call c next)

theorem Script.LeavesStack.run {c : Call} {rest : Script} (leaves : c.leavesStack)
    (later : rest.LeavesStack) : (Script.run c rest).LeavesStack :=
  .call leaves fun _ _ => later

namespace Session

theorem stack_perform (s : Session) {c : Call} (h : c.leavesStack) :
    (s.perform c).1.run.stack = s.run.stack := by
  cases c with
  | emit stop category => exact (lexer_emit stop category).2
  | emitRange start stop category =>
    exact (lexer_emit stop category).2.trans (lexer_emit start .text).2
  | push | pop | reset => cases h
  | continueAt | keep | drop | dropAll | observe => rfl

theorem stack_play (s : Session) {script : Script} (h : script.LeavesStack) :
    (s.play script).run.stack = s.run.stack ∧ ¬s.Refused script := by
  induction h generalizing s with
  | done => exact ⟨rfl, fun hrefused => by cases hrefused⟩
  | @call c next leaves _ ih =>
    obtain ⟨hstack, hnot⟩ := ih (s.perform c).1.view (s.perform c).2 (s.perform c).1
    refine ⟨hstack.trans (s.stack_perform leaves), fun hrefused => ?_⟩
    cases hrefused with
    | now => cases leaves
    | later rest => exact hnot rest

end Session

/-! Runs -/

/-- The rules of a lexer lead from stacks of these shapes to no others. -/
structure Lexer.Keeps (l : Lexer) (shapes : List (List String)) : Prop where
  fits : ∀ shape ∈ shapes, shape.length ≤ Stack.maxDepth
  root : ∀ s : Stack, (s.reset l.table.root).Among l.table.names shapes
  rules : ∀ top below id, top :: below ∈ shapes → Named l.table.names top id →
    ∀ rule ∈ l.table.rulesOf id, ∃ op?,
      Option.Rel (StackOp.Rel (Named l.table.names)) op? rule.op? ∧
        StackOp.effect? op? (top :: below) ∈ shapes
  callbacks : ∀ rules ∈ l.table.rules, ∀ rule ∈ rules, ∀ f, rule.action = .callback f →
    ∀ found place view, (f found place view).LeavesStack

namespace Run

/-- At the end of a step the stack is as the rule has left it, or there is the root alone. -/
theorem stack_scan_induction {P : Stack → Prop} {r : Run} (stay : P r.stack)
    (reset : ∀ s : Stack, P (s.reset r.table.root))
    (rule : ∀ rule found, r.winner? = some (rule, found) →
      P (r.follow (runner? r.levels) rule found).1.stack) : P r.scan.stack := by
  have hfallback : ∀ r' : Run, r'.table = r.table → P r'.stack → P r'.fallback.stack := by
    intro r' htable hstack
    cases hahead : r'.cursor.ahead with
    | nil => rwa [fallback, hahead]
    | cons c rest =>
      rw [fallback_eq hahead]
      dsimp only
      split
      · exact htable ▸ reset _
      · exact hstack
  cases hwinner : r.winner? with
  | none =>
    rw [scan, step_eq, hwinner]
    exact hfallback r rfl stay
  | some winner =>
    obtain ⟨won, found⟩ := winner
    have hstack := rule won found hwinner
    have htable := (changes_follow (runner? r.levels) r won found).table
    rw [scan_of_winner hwinner]
    rcases (r.follow (runner? r.levels) won found).1.settle_cases
      (r.follow (runner? r.levels) won found).2 r.stack.generation with
      ⟨-, _, _, hsettle⟩ | ⟨reason, -, zeroSteps, hsettle⟩
    · rwa [hsettle]
    · rw [hsettle, warn_eq]
      exact hfallback _ htable hstack

end Run

namespace Lexer.Keeps
variable {l : Lexer} {shapes : List (List String)} (h : l.Keeps shapes)
include h

theorem applied {s : Stack} (hs : s.Among l.table.names shapes) {rule : CompiledRule}
    (hrule : rule ∈ l.table.rulesOf s.top) : (s.applied rule.op?).Among l.table.names shapes ∧
      ∀ op, rule.op? = some op → (s.apply op).2 = 0 := by
  obtain ⟨shape, hshape, hshaped⟩ := hs
  obtain ⟨top, below, htop, -, rfl⟩ := List.forall₂_cons_right_iff.1 hshaped
  obtain ⟨op?, hop, heffect⟩ := h.rules top below s.top hshape htop rule hrule
  have hroom := h.fits _ heffect
  refine ⟨⟨_, heffect, hshaped.applied hop hroom⟩, fun op hsome => ?_⟩
  have hentries := (StackOp.effect?_rel hop hshaped).length_eq
  rw [hentries, hsome] at hroom
  exact (Stack.apply_of_room hroom).2

section scan
variable {r : Run} (hlexer : r.lexer = l) (hstack : r.stack.Among l.table.names shapes)
include hlexer

theorem stack_act {rule : CompiledRule} {found : Match} (hwinner : r.winner? = some (rule, found)) :
    (r.act (Run.runner? r.levels) rule.action found).1.stack = r.stack ∧
      ∀ f, rule.action = .callback f →
        let s : Session := ⟨r, r.cursor, r.cursor.seek found.stop⟩
        ¬s.Refused (f found r.cursor s.view) := by
  by_cases hcallback : ∃ f, rule.action = .callback f
  · obtain ⟨f, hf⟩ := hcallback
    obtain ⟨rules, hrules, hrule⟩ := Run.exists_rules_of_winner hwinner
    rw [Run.table, hlexer] at hrules
    let s : Session := ⟨r, r.cursor, r.cursor.seek found.stop⟩
    obtain ⟨hplay, hnot⟩ :=
      s.stack_play (h.callbacks rules hrules rule hrule f hf found r.cursor s.view)
    refine ⟨?_, fun f' hf' => ?_⟩
    · rw [hf]
      exact (Session.lexer_emit _ _).2.trans hplay
    · cases hf.symm.trans hf'
      exact hnot
  · rw [Run.act_eq _ _ _ _ fun f hf => hcallback ⟨f, hf⟩, Run.putAll_eq]
    exact ⟨rfl, fun f hf => absurd ⟨f, hf⟩ hcallback⟩

include hstack

theorem follow {rule : CompiledRule} {found : Match} (hwinner : r.winner? = some (rule, found)) :
    (r.follow (Run.runner? r.levels) rule found).1.stack.Among l.table.names shapes := by
  have hrule := (Run.firstMatch_some hwinner).1
  rw [Run.table, hlexer] at hrule
  rw [Run.stack_follow_eq, (h.stack_act hlexer hwinner).1]
  exact (h.applied hstack hrule).1

theorem scan : r.scan.stack.Among l.table.names shapes :=
  Run.stack_scan_induction hstack (fun s => by rw [Run.table, hlexer]; exact h.root s)
    fun _ _ => h.follow hlexer hstack

theorem not_refuses : ¬r.Refuses := by
  intro hrefuses
  cases hrefuses with
  | @rule rule found op hwinner hop hrefused =>
    have hrule := (Run.firstMatch_some hwinner).1
    rw [Run.table, hlexer] at hrule
    rw [(h.stack_act hlexer hwinner).1] at hrefused
    exact hrefused ((h.applied hstack hrule).2 op hop)
  | callback hwinner hf hrefused => exact (h.stack_act hlexer hwinner).2 _ hf hrefused

end scan

/-- No run that starts with such a stack ever has another, and none of its pushes is refused. -/
theorem after {states : List StateId}
    (hstart : (Stack.start states l.table.root).Among l.table.names shapes) (text : List Char)
    (depth turns : Nat) : let p := Point.after turns (Run.start l states text depth)
    p.run.stack.Among l.table.names shapes ∧ ¬p.Refuses := by
  have hall : ∀ turns, (Point.after turns (Run.start l states text depth)).run.stack.Among
      l.table.names shapes := fun turns => by
    have hboth := Point.after_induction (r := Run.start l states text depth)
      (P := fun r => r.lexer = l ∧ r.stack.Among l.table.names shapes) ⟨rfl, hstart⟩
      (fun _ _ hr => hr) (fun r _ hend hr => ?_) turns
    · exact hboth.2
    · obtain ⟨_, hstep⟩ := Run.steps_scan hend
      exact ⟨hstep.lexer.trans hr.1, h.scan hr.1 hr.2⟩
  refine ⟨hall turns, fun hrefuses => ?_⟩
  exact h.not_refuses (Point.Holds.after l states text depth turns).lexer (hall turns)
    hrefuses.refuses

end Lexer.Keeps

/-! Runs within runs -/

/-- What a rule hands on is run by its own lexer from such a stack, or by one of the others from the
states in which it starts. -/
inductive Target.Keeps (l : Lexer) (P : Stack → Prop) (others : List Lexer) : Target → Prop
  | running (initial : P (Stack.start l.initial l.table.root)) : Keeps l P others (.this none)
  | states {ids : List StateId} (kept : P (Stack.start ids l.table.root)) :
      Keeps l P others (.this (some ids))
  | other {other : Lexer} (mem : other ∈ others) : Keeps l P others (.lexer other none)

/-- Each run within one of a lexer is one of the lexer, too, or within one of another lexer. -/
theorem Run.Within.keeps {l : Lexer} {P : Stack → Prop} {others : List Lexer}
    (h : ∀ rules ∈ l.table.rules, ∀ rule ∈ rules, ∀ target, rule.action.HandsTo target →
      target.Keeps l P others) {states : List StateId}
    (hstart : P (Stack.start states l.table.root)) {text : List Char} {depth : Nat} {inner : Run}
    (hwithin : (Run.start l states text depth).Within inner) :
    (∃ states text depth, inner = Run.start l states text depth ∧
      P (Stack.start states l.table.root)) ∨
    ∃ other ∈ others, ∃ text depth,
      (Run.start other other.initial text depth).Within inner := by
  induction hwithin with
  | outermost => exact .inl ⟨states, text, depth, rfl, hstart⟩
  | @inner r inner turns _ hpending hnested ih =>
    rcases ih with ⟨states, text, depth, rfl, -⟩ | ⟨other, hother, text, depth, hwithin⟩
    · obtain ⟨-, job, hjob, rfl⟩ := Run.mem_nested hnested
      rw [Run.jobs] at hjob
      split at hjob
      · cases hjob
      · next rule found hwinner =>
        obtain ⟨p, hp, hjob⟩ := List.mem_filterMap.1 hjob
        obtain ⟨target, hfate, -, rfl⟩ := Piece.mem_job?_iff.1 hjob
        have hlexer := (Point.Holds.after l states text depth turns).lexer
        obtain ⟨rules, hrules, hrule⟩ := Run.exists_rules_of_winner hwinner
        rw [Run.table, hlexer] at hrules
        rw [hlexer]
        cases h rules hrules rule hrule target (Run.handsTo_of_mem_pieces hp hfate) with
        | running hinitial => exact .inl ⟨_, _, _, rfl, hinitial⟩
        | states hkept => exact .inl ⟨_, _, _, rfl, hkept⟩
        | other hmem => exact .inr ⟨_, hmem, _, _, .outermost⟩
    · exact .inr ⟨other, hother, text, depth, .inner turns hwithin hpending hnested⟩

/-- The runs of a lexer and all that they start never have more states on their stacks than the
bound for their lexers, and refuse no push, but for lexers of some names. -/
def Lexer.Bounded (bound? : String → Option Nat) (but : List String) (l : Lexer) : Prop :=
  ∀ text depth inner turns, (Run.start l l.initial text depth).Within inner →
    inner.lexer.name ∈ but ∨ ∃ bound, bound? inner.lexer.name = some bound ∧
      (Point.after turns inner).run.stack.depth ≤ bound ∧ ¬(Point.after turns inner).Refuses

namespace Lexer
variable {bound? : String → Option Nat} {but : List String} {l : Lexer}

theorem Bounded.mono (h : l.Bounded bound? but) {more : List String} (hmore : but ⊆ more) :
    l.Bounded bound? more :=
  fun text depth inner turns hwithin =>
    (h text depth inner turns hwithin).imp_left fun hname => hmore hname

theorem Keeps.bounded {shapes : List (List String)} (h : l.Keeps shapes) {others : List Lexer}
    (hands : ∀ rules ∈ l.table.rules, ∀ rule ∈ rules, ∀ target, rule.action.HandsTo target →
      target.Keeps l (Stack.Among l.table.names shapes) others)
    (hstart : (Stack.start l.initial l.table.root).Among l.table.names shapes) {bound : Nat}
    (hbound : bound? l.name = some bound) (hsmall : ∀ shape ∈ shapes, shape.length ≤ bound)
    (hothers : ∀ other ∈ others, other.Bounded bound? but) : l.Bounded bound? but := by
  intro text depth inner turns hwithin
  rcases hwithin.keeps hands hstart with
    ⟨states, text, depth, rfl, hamong⟩ | ⟨other, hother, text, depth, hwithin⟩
  · obtain ⟨⟨shape, hshape, hshaped⟩, hnot⟩ := h.after hamong text depth turns
    have hlength : shape.length =
        (Point.after turns (Run.start l states text depth)).run.stack.depth := hshaped.length_eq
    exact .inr ⟨bound, hbound, hlength ▸ hsmall shape hshape, hnot⟩
  · exact hothers other hother text depth inner turns hwithin

end Lexer

/-! Tables as they are written -/

/-- The states that are said are one of the shapes, bottom first, or those in which another lexer
starts. -/
def Delegate.keeps (shapes : List (List String)) : Delegate → Bool
  | .this none => true
  | .this (some states) => shapes.contains states.reverse
  | .lexer _ states? => states?.isNone

namespace TableDraft

def ops (d : TableDraft) : List (String × List (Option (StackOp String))) :=
  d.states.map fun state => (state.1, (state.2.filterMap Entry.rule?).map (·.op?))

end TableDraft

structure Outline where
  names : List String
  root : String
  ops : List (String × List (Option (StackOp String)))

/-- The rules of the state on top, and those of `base`, lead from each of these shapes to one of
them. -/
def Outline.Keeps (o : Outline) (base : String) (shapes : List (List String)) : Prop :=
  o.names.Nodup ∧ [o.root] ∈ shapes ∧ ∀ shape ∈ shapes, shape.length ≤ Stack.maxDepth ∧
    ∀ state ∈ o.ops, shape.head? = some state.1 ∨ state.1 = base →
      ∀ op? ∈ state.2, StackOp.effect? op? shape ∈ shapes

instance (o : Outline) (base : String) (shapes : List (List String)) :
    Decidable (o.Keeps base shapes) :=
  inferInstanceAs (Decidable (o.names.Nodup ∧ [o.root] ∈ shapes ∧ ∀ shape ∈ shapes,
    shape.length ≤ Stack.maxDepth ∧ ∀ state ∈ o.ops, shape.head? = some state.1 ∨ state.1 = base →
      ∀ op? ∈ state.2, StackOp.effect? op? shape ∈ shapes))

structure Shaping where
  outline : Outline
  base : String
  shapes : List (List String)
  keeps : outline.Keeps base shapes

namespace TableDraft

def outline (d : TableDraft) : Outline := ⟨d.names, d.root, d.ops⟩

/-- Runs keep to stacks of these shapes, where no other state than `base` is taken in. -/
structure Keeps (d : TableDraft) (base : String) (shapes : List (List String)) : Prop where
  outline : d.outline.Keeps base shapes
  rests : d.RestsOn base
  delegates : d.delegates.all (Delegate.keeps shapes)
  callbacks : ∀ f ∈ d.callbacks, ∀ found place view, (f found place view).LeavesStack

theorem Keeps.of_quiet {d : TableDraft} (base : String) (shapes : List (List String))
    (outline : d.outline.Keeps base shapes) (rests : d.RestsOn base)
    (delegates : d.delegates.all (Delegate.keeps shapes)) (callbacks : d.callbacks = []) :
    d.Keeps base shapes :=
  ⟨outline, rests, delegates, by simp [callbacks]⟩

theorem exists_op {d : TableDraft} (hnames : d.names.Nodup) {t : Table} (h : d.compile = .ok t)
    {base : String} (hrests : d.RestsOn base) {state : String} {id : StateId}
    (hid : Named d.names state id) {rule : CompiledRule} (hrule : rule ∈ t.rulesOf id) :
    ∃ own ∈ d.ops, (own.1 = state ∨ own.1 = base) ∧ ∃ op? ∈ own.2,
      Option.Rel (StackOp.Rel (Named d.names)) op? rule.op? := by
  obtain ⟨⟨name, entries⟩, hstate, rfl⟩ := List.mem_map.1 (exists_named.1 ⟨id, hid⟩)
  obtain ⟨rules, hexpands, hcompiled⟩ :=
    (resolved_of_compile_ok hnames h).exists_rules h hstate hid
  obtain ⟨r, hr, hbinds⟩ := exists_mem_of_forall₂ hcompiled hrule
  obtain ⟨owner, howner, own, hown, hmem⟩ :=
    hexpands.exists_owner (fun e he => ⟨entries, hstate, he⟩) hr
  exact ⟨_, List.mem_map.2 ⟨_, hown, rfl⟩, hrests.owner howner, r.op?,
    List.mem_map.2 ⟨r, List.mem_filterMap.2 ⟨_, hmem, rfl⟩, rfl⟩, hbinds.op⟩

end TableDraft

theorem TableDraft.named_root {d : TableDraft} {t : Table} (h : d.compile = .ok t) :
    Named t.names d.root t.root := by
  obtain ⟨-, -, root, _, _, hroot, -, -, heq⟩ := compile_ok_iff.1 h
  rwa [heq]

theorem LexerDraft.named_initial {d : LexerDraft} {l : Lexer} (h : d.compile = .ok l)
    {root : String} (hroot : Named d.table.names root d.table.root) :
    l.info = d.info ∧ l.table = d.table ∧ l.initial ≠ [] ∧
      List.Forall₂ (Named d.table.names) (d.initial?.getD [root]) l.initial := by
  rw [compile] at h
  split at h
  · next hnone =>
    cases h
    rw [hnone]
    exact ⟨rfl, rfl, List.cons_ne_nil _ _, .cons hroot .nil⟩
  · next names hsome =>
    obtain ⟨initial, hinitial, hl⟩ := bind_ok.1 h
    cases hl
    rw [hsome]
    cases names with
    | nil => cases hinitial
    | cons name names =>
      have hnamed := mapM_ok_iff.1 hinitial
      simp only [TableDraft.lookup_ok_iff] at hnamed
      refine ⟨rfl, rfl, fun hnil => ?_, hnamed⟩
      rw [show initial = [] from hnil] at hnamed
      cases hnamed

/-- Where other lexers are handed text as they are, all goes to the running lexer or to them. -/
theorem TableDraft.hands {d : TableDraft} {t : Table} (htable : d.compile = .ok t) {l : Lexer}
    (hl : l.table = t) {P : Stack → Prop} (hinitial : P (Stack.start l.initial l.table.root))
    (hstates : ∀ states ids, .this (some states) ∈ d.delegates → ids ≠ [] →
      List.Forall₂ (Named t.names) states ids → P (Stack.start ids l.table.root))
    (hothers : ∀ other states, .lexer other (some states) ∉ d.delegates) :
    ∀ rules ∈ l.table.rules, ∀ rule ∈ rules, ∀ target, rule.action.HandsTo target →
      target.Keeps l P d.lexers := by
  intro rules hrules rule hrule target hhands
  obtain ⟨action, haction, hrel⟩ := exists_action (hl ▸ htable) hrules hrule
  obtain ⟨delegate, hdelegate, hbinds⟩ := hrel.handsTo hhands
  have hmem : delegate ∈ d.delegates :=
    List.mem_flatMap.2 ⟨action, haction, Action.mem_delegates hdelegate⟩
  cases hbinds with
  | this hbound =>
    cases hbound with
    | unsaid => exact .running hinitial
    | @said states ids hne hnamed =>
      refine .states (hstates states ids hmem ?_ (hl ▸ hnamed))
      rintro rfl
      cases hnamed
      exact hne rfl
  | lexer hbound =>
    cases hbound with
    | unsaid => exact .other (List.mem_flatMap.2 ⟨action, haction, Action.mem_lexers hdelegate⟩)
    | said => exact absurd hmem (hothers _ _)

namespace TableDraft.Keeps
variable {d : TableDraft} {base : String} {shapes : List (List String)} (h : d.Keeps base shapes)
  {t : Table} (htable : d.compile = .ok t) {l : Lexer} (hl : l.table = t)
include h

theorem root : [d.root] ∈ shapes := h.outline.2.1

theorem fits {shape : List String} (hshape : shape ∈ shapes) : shape.length ≤ Stack.maxDepth :=
  (h.outline.2.2 shape hshape).1

include htable hl

theorem start {states : List String} {ids : List StateId}
    (hnamed : List.Forall₂ (Named t.names) states ids) (hne : ids ≠ [])
    (hshape : states.reverse ∈ shapes) :
    (Stack.start ids l.table.root).Among l.table.names shapes := by
  subst hl
  have hfits := h.fits hshape
  rw [List.length_reverse] at hfits
  exact ⟨_, hshape, Stack.shaped_start hnamed hne hfits _⟩

theorem lexer : l.Keeps shapes := by
  subst hl
  have hnames := names_of_compile_ok htable
  refine ⟨fun _ => h.fits, fun s => ⟨_, h.root, ?_⟩,
    fun top below id hshape htop rule hrule => ?_, ?_⟩
  · rw [Stack.Shaped, Stack.entries_reset]
    exact .cons (named_root htable) .nil
  · rw [hnames] at htop ⊢
    obtain ⟨own, hown, howner, op?, hop?, hop⟩ :=
      exists_op h.outline.1 htable h.rests htop hrule
    refine ⟨op?, hop,
      (h.outline.2.2 _ hshape).2 own hown (howner.imp_left fun hhead => ?_) op? hop?⟩
    rw [hhead, List.head?_cons]
  · intro rules hrules rule hrule f hf
    exact h.callbacks f (mem_callbacks htable hrules hrule hf)

theorem hands (hinitial : (Stack.start l.initial l.table.root).Among l.table.names shapes) :
    ∀ rules ∈ l.table.rules, ∀ rule ∈ rules, ∀ target, rule.action.HandsTo target →
      target.Keeps l (Stack.Among l.table.names shapes) d.lexers := by
  have hkeeps := List.all_eq_true.1 h.delegates
  refine TableDraft.hands htable hl hinitial (fun states ids hmem hne hnamed => ?_)
    fun other states hmem => by cases hkeeps _ hmem
  exact h.start htable hl hnamed hne (List.contains_iff_mem.1 (hkeeps _ hmem))

end TableDraft.Keeps

end RuleLexer
