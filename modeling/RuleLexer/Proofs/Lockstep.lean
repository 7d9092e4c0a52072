import Mathlib.Data.List.Forall2
import RuleLexer.Proofs.Played

/-! Two runs in step. Where two lexers are alike but for rules and filters, and the rules that win
do the same with the same match, their runs pass through the same places, stacks and memos; only
what becomes of their tokens may differ, one by one. What has to be shown of two lexers is what the
pieces come to that one scan hands on; callbacks, the end of a step and whole runs follow here. -/
namespace RuleLexer
open RuleLexer.Text RuleLexer.Coverage

/-- A run finds no difference between the lexers but in their rules, filters and initial states. -/
structure Lexer.SameFrame (l l' : Lexer) : Prop where
  info : l'.info = l.info
  names : l'.table.names = l.table.names
  root : l'.table.root = l.table.root
  fallback : l'.table.fallback = l.table.fallback
  resetsOnNewline : l'.table.resetsOnNewline = l.table.resetsOnNewline

section
variable {l l' : Lexer} {T : Token → Token → Prop}

/-- The runs are of two lexers and have two lists of tokens pending, which are related one by one;
nothing else tells them apart. -/
def Run.Beside (l l' : Lexer) (T : Token → Token → Prop) (r r' : Run) : Prop :=
  r.lexer = l ∧ ∃ pending, r' = { r with lexer := l', pending } ∧ List.Forall₂ T r.pending pending

namespace Run.Beside
variable {r r' : Run}

theorem stack_eq (h : r.Beside l l' T r') : r'.stack = r.stack := by
  obtain ⟨rfl, pending, rfl, -⟩ := h
  rfl

theorem cursor_eq (h : r.Beside l l' T r') : r'.cursor = r.cursor := by
  obtain ⟨rfl, pending, rfl, -⟩ := h
  rfl

theorem position_eq (h : r.Beside l l' T r') : r'.position = r.position := by
  rw [position, h.cursor_eq, position]

theorem zeroSteps_eq (h : r.Beside l l' T r') : r'.zeroSteps = r.zeroSteps := by
  obtain ⟨rfl, pending, rfl, -⟩ := h
  rfl

theorem memo_eq (h : r.Beside l l' T r') : r'.memo = r.memo := by
  obtain ⟨rfl, pending, rfl, -⟩ := h
  rfl

theorem depth_eq (h : r.Beside l l' T r') : r'.depth = r.depth := by
  obtain ⟨rfl, pending, rfl, -⟩ := h
  rfl

theorem levels_eq (h : r.Beside l l' T r') : r'.levels = r.levels := by
  rw [levels, h.depth_eq, levels]

theorem notices_eq (h : r.Beside l l' T r') : r'.notices = r.notices := by
  obtain ⟨rfl, pending, rfl, -⟩ := h
  rfl

theorem forall₂ (h : r.Beside l l' T r') : List.Forall₂ T r.pending r'.pending := by
  obtain ⟨rfl, pending, rfl, hpending⟩ := h
  exact hpending

theorem pending_eq_nil_iff (h : r.Beside l l' T r') : r.pending = [] ↔ r'.pending = [] := by
  have hforall := h.forall₂
  constructor
  · intro hnil
    rw [hnil] at hforall
    exact List.forall₂_nil_left_iff.1 hforall
  · intro hnil
    rw [hnil] at hforall
    exact List.forall₂_nil_right_iff.1 hforall

theorem winner?_eq (h : r.Beside l l' T r') (htable : l'.table = l.table) :
    r'.winner? = r.winner? := by
  obtain ⟨rfl, pending, rfl, -⟩ := h
  rw [winner?, winner?, table, table, htable]

theorem mono {U : Token → Token → Prop} (h : r.Beside l l' T r')
    (hU : ∀ t u, t ∈ r.pending → T t u → U t u) : r.Beside l l' U r' := by
  obtain ⟨rfl, pending, rfl, hforall⟩ := h
  refine ⟨rfl, pending, rfl, ?_⟩
  rw [List.forall₂_iff_get] at hforall ⊢
  exact ⟨hforall.1, fun i hi hi' => hU _ _ (List.get_mem ..) (hforall.2 i hi hi')⟩

theorem of_pending_nil {U : Token → Token → Prop} (h : r.Beside l l' T r')
    (hpending : r.pending = []) : r.Beside l l' U r' := by
  obtain ⟨rfl, pending, rfl, hforall⟩ := h
  rw [hpending, List.forall₂_nil_left_iff] at hforall
  exact ⟨rfl, pending, rfl, by simp [hpending, hforall]⟩

theorem emit (h : r.Beside l l' T r') (hT : ∀ t, T t t) (offset : Nat) (category : Category)
    (piece : List Char) :
    (r.emit offset category piece).Beside l l' T (r'.emit offset category piece) := by
  obtain ⟨rfl, pending, rfl, hpending⟩ := h
  rw [emit_eq, emit_eq]
  exact ⟨rfl, _, rfl, List.rel_append hpending (List.forall₂_same.2 fun t _ => hT t)⟩

theorem note (h : r.Beside l l' T r') (n : Notice) : (r.note n).Beside l l' T (r'.note n) := by
  obtain ⟨rfl, pending, rfl, hpending⟩ := h
  exact ⟨rfl, _, rfl, hpending⟩

theorem withPending {U : Token → Token → Prop} (h : r.Beside l l' T r')
    {pending pending' : List Token} (hpending : List.Forall₂ U pending pending') :
    ({ r with pending } : Run).Beside l l' U { r' with pending := pending' } := by
  obtain ⟨rfl, _, rfl, -⟩ := h
  exact ⟨rfl, _, rfl, hpending⟩

theorem withStack (h : r.Beside l l' T r') (stack : Stack) :
    ({ r with stack } : Run).Beside l l' T { r' with stack } := by
  obtain ⟨rfl, pending, rfl, hpending⟩ := h
  exact ⟨rfl, _, rfl, hpending⟩

theorem withMemo (h : r.Beside l l' T r') (memo : Memo) :
    ({ r with memo } : Run).Beside l l' T { r' with memo } := by
  obtain ⟨rfl, pending, rfl, hpending⟩ := h
  exact ⟨rfl, _, rfl, hpending⟩

theorem withPlace (h : r.Beside l l' T r') (cursor : Cursor) (zeroSteps : Nat) :
    ({ r with cursor, zeroSteps } : Run).Beside l l' T { r' with cursor, zeroSteps } := by
  obtain ⟨rfl, pending, rfl, hpending⟩ := h
  exact ⟨rfl, _, rfl, hpending⟩

theorem counted (h : r.Beside l l' T r') (zeroSteps : Nat) :
    ({ r with zeroSteps } : Run).Beside l l' T { r' with zeroSteps } := by
  obtain ⟨rfl, pending, rfl, hpending⟩ := h
  exact ⟨rfl, _, rfl, hpending⟩

theorem noteRefused (h : r.Beside l l' T r') (refused : Nat) :
    (r.noteRefused refused).Beside l l' T (r'.noteRefused refused) := by
  induction refused generalizing r r' with
  | zero => exact h
  | succ refused ih => exact ih (h.note _)

theorem change (h : r.Beside l l' T r') (op : StackOp StateId) :
    (r.change op).Beside l l' T (r'.change op) := by
  rw [Run.change, Run.change, h.stack_eq]
  exact (h.withStack _).noteRefused _

theorem settle_of_lt (h : r.Beside l l' T r') {next : Cursor} (hnext : r.position < next.offset)
    (generation : Nat) :
    (r.settle next generation).Beside l l' T (r'.settle next generation) := by
  rw [Run.settle_of_lt hnext, Run.settle_of_lt (r := r') (by rwa [h.position_eq])]
  exact h.withPlace next 0

variable (hframe : Lexer.SameFrame l l')
include hframe

theorem started (states : List StateId) (text : List Char) (depth : Nat) :
    (start l states text depth).Beside l l' T (start l' states text depth) := by
  refine ⟨rfl, [], ?_, .nil⟩
  simp [Run.start, hframe.root]

theorem nameOf_eq (h : r.Beside l l' T r') (state : StateId) :
    r'.nameOf state = r.nameOf state := by
  obtain ⟨rfl, pending, rfl, -⟩ := h
  simp [nameOf, table, TableOf.stateName?, hframe.names]

theorem stateName_eq (h : r.Beside l l' T r') : r'.stateName = r.stateName := by
  rw [stateName, stateName, h.nameOf_eq hframe, h.stack_eq]

theorem warn (h : r.Beside l l' T r') (reason : NoProgress) :
    (r.warn reason).Beside l l' T (r'.warn reason) := by
  have hname := h.stateName_eq hframe
  obtain ⟨rfl, pending, rfl, hpending⟩ := h
  have hnotice : Notice.noProgress reason r.position l'.name r.stateName =
      .noProgress reason r.position r.lexer.name r.stateName := by
    rw [LexerOf.name, LexerOf.name, hframe.info]
  rw [Run.warn, Run.warn, hname]
  by_cases hwarned : r.warned
  · rw [if_pos hwarned, if_pos hwarned]
    exact ⟨rfl, _, rfl, hpending⟩
  · rw [if_neg hwarned, if_neg hwarned]
    refine ⟨rfl, pending, ?_, hpending⟩
    simpa [Run.note, position] using hnotice

theorem fallback (h : r.Beside l l' T r') (hT : ∀ t, T t t) :
    r.fallback.Beside l l' T r'.fallback := by
  have hname := h.stateName_eq hframe
  have htable : r'.table.resetsOnNewline = r.table.resetsOnNewline ∧
      r'.table.root = r.table.root ∧ r'.table.fallback = r.table.fallback := by
    obtain ⟨rfl, pending, rfl, -⟩ := h
    exact ⟨hframe.resetsOnNewline, hframe.root, hframe.fallback⟩
  obtain ⟨hresets, hroot, hcategory⟩ := htable
  unfold Run.fallback
  rw [h.position_eq, h.cursor_eq, h.stack_eq, hresets, hroot, hcategory, hname]
  split
  · exact h
  · next c rest _ =>
    refine withPlace ?_ _ _
    split
    · exact (h.emit hT _ _ _).withStack _
    · exact (h.emit hT _ _ _).note _

theorem settle (h : r.Beside l l' T r') (hT : ∀ t, T t t) (next : Cursor) (generation : Nat) :
    (r.settle next generation).Beside l l' T (r'.settle next generation) := by
  have hgeneration : r'.stack.generation = r.stack.generation := by rw [h.stack_eq]
  exact settle_rel h.cursor_eq h.zeroSteps_eq (by rw [hgeneration]) (h.withPlace next 0) h.counted
    fun zeroSteps reason => ((h.counted zeroSteps).warn hframe reason).fallback hframe hT

end Run.Beside

structure Session.Beside (l l' : Lexer) (T : Token → Token → Prop) (s s' : Session) : Prop where
  run : s.run.Beside l l' T s'.run
  cursor : s'.cursor = s.cursor
  position : s'.position = s.position

namespace Session.Beside
variable {s s' : Session}

theorem emit (h : s.Beside l l' T s') (hT : ∀ t, T t t) (stop : Nat) (category : Category) :
    (s.emit stop category).Beside l l' T (s'.emit stop category) := by
  unfold Session.emit
  rw [h.cursor]
  dsimp only
  split
  · exact h
  · exact ⟨h.run.emit hT _ _ _, rfl, h.position⟩

theorem unknownState (h : s.Beside l l' T s') (state : String) :
    (s.unknownState state).1.Beside l l' T (s'.unknownState state).1 := by
  unfold Session.unknownState
  rw [h.cursor, h.position]
  exact ⟨h.run.note _, rfl, rfl⟩

variable (hframe : Lexer.SameFrame l l')
include hframe

theorem view_eq (h : s.Beside l l' T s') : s'.view = s.view := by
  rw [view, view, h.cursor, h.position, funext (h.run.nameOf_eq hframe), h.run.stack_eq,
    h.run.memo_eq]

theorem stateId?_eq (h : s.Beside l l' T s') (state : String) :
    s'.run.table.stateId? state = s.run.table.stateId? state := by
  obtain ⟨⟨rfl, pending, hrun, -⟩, -, -⟩ := h
  rw [hrun, Run.table, TableOf.stateId?, hframe.names]
  rfl

theorem perform (h : s.Beside l l' T s') (hT : ∀ t, T t t) (c : Call) :
    (s.perform c).1.Beside l l' T (s'.perform c).1 ∧ (s'.perform c).2 = (s.perform c).2 := by
  have hstack := h.run.stack_eq
  cases c with
  | emit stop category => exact ⟨h.emit hT _ _, rfl⟩
  | emitRange start stop category => exact ⟨(h.emit hT _ _).emit hT _ _, rfl⟩
  | continueAt offset => exact ⟨⟨h.run, h.cursor, by simp only [Session.perform, h.cursor]⟩, rfl⟩
  | push state =>
    simp only [Session.perform, Session.push, h.stateId?_eq hframe, hstack]
    split
    · exact ⟨h.unknownState state, rfl⟩
    · refine ⟨⟨?_, h.cursor, h.position⟩, rfl⟩
      dsimp only
      split
      · exact h.run.withStack _
      · exact (h.run.withStack _).noteRefused 1
  | pop count =>
    simp only [Session.perform, Session.pop, hstack, and_true]
    exact ⟨h.run.withStack _, h.cursor, h.position⟩
  | reset state =>
    simp only [Session.perform, Session.reset, h.stateId?_eq hframe, hstack]
    split
    · exact ⟨h.unknownState state, rfl⟩
    · exact ⟨⟨h.run.withStack _, h.cursor, h.position⟩, rfl⟩
  | keep key value =>
    simp only [Session.perform, Session.withMemo, h.run.memo_eq, and_true]
    exact ⟨h.run.withMemo _, h.cursor, h.position⟩
  | drop key =>
    simp only [Session.perform, Session.withMemo, h.run.memo_eq, and_true]
    exact ⟨h.run.withMemo _, h.cursor, h.position⟩
  | dropAll => exact ⟨⟨h.run.withMemo _, h.cursor, h.position⟩, rfl⟩
  | observe label =>
    simp only [Session.perform, Session.observe, h.view_eq hframe, and_true]
    exact ⟨h.run.note _, h.cursor, h.position⟩

theorem play (h : s.Beside l l' T s') (hT : ∀ t, T t t) (script : Script) :
    (s.play script).Beside l l' T (s'.play script) := by
  induction script generalizing s s' with
  | done => exact h
  | call c next ih =>
    obtain ⟨hbeside, hreply⟩ := h.perform hframe hT c
    simp only [Session.play]
    rw [hreply, hbeside.view_eq hframe]
    exact ih _ _ hbeside

end Session.Beside

structure Piece.Beside (l l' : Lexer) (T : Token → Token → Prop) (runner? runner?' : Option Runner)
    (depth : Nat) (p p' : Piece) : Prop where
  tokens : List.Forall₂ T (p.tokens runner? l) (p'.tokens runner?' l')
  noted : p'.noted runner?' l' depth = p.noted runner? l depth

/-- Two actions that leave a match to the same callback, or cut it into pieces that come to tokens
one beside the other. -/
inductive Action.Beside (l l' : Lexer) (T : Token → Token → Prop)
    (runner? runner?' : Option Runner) (r : Run) (found : Match) :
    Action Target → Action Target → Prop
  | callback (f : Callback) : Beside l l' T runner? runner?' r found (.callback f) (.callback f)
  | pieces {action action' : Action Target} (plain : ∀ f, action ≠ .callback f)
      (plain' : ∀ f, action' ≠ .callback f)
      (h : List.Forall₂ (Piece.Beside l l' T runner? runner?' r.depth)
        (found.pieces r.cursor action) (found.pieces r.cursor action')) :
      Beside l l' T runner? runner?' r found action action'

namespace Run.Beside
variable {runner? runner?' : Option Runner} {r r' : Run}

theorem put (h : r.Beside l l' T r') {p p' : Piece}
    (hp : Piece.Beside l l' T runner? runner?' r.depth p p') :
    (r.put runner? p).Beside l l' T (r'.put runner?' p') := by
  obtain ⟨rfl, pending, rfl, hpending⟩ := h
  rw [put_eq, notices_put, put_eq, notices_put, hp.noted]
  exact ⟨rfl, _, rfl, List.rel_append hpending hp.tokens⟩

theorem putAll (h : r.Beside l l' T r') {pieces pieces' : List Piece}
    (hpieces : List.Forall₂ (Piece.Beside l l' T runner? runner?' r.depth) pieces pieces') :
    (r.putAll runner? pieces).Beside l l' T (r'.putAll runner?' pieces') := by
  generalize hdepth : r.depth = depth at hpieces
  induction hpieces generalizing r r' with
  | nil => exact h
  | cons hp _ ih =>
    refine ih (h.put (hdepth ▸ hp)) ?_
    rw [put_eq]
    exact hdepth

variable {rule rule' : CompiledRule} {found : Match}

theorem changed (h : r.Beside l l' T r') (op? : Option (StackOp StateId)) :
    (match op? with | none => r | some op => r.change op).Beside l l' T
      (match op? with | none => r' | some op => r'.change op) := by
  cases op? with
  | none => exact h
  | some op => exact h.change op

theorem follow_pieces (h : r.Beside l l' T r') (hop : rule'.op? = rule.op?)
    (plain : ∀ f, rule.action ≠ .callback f) (plain' : ∀ f, rule'.action ≠ .callback f)
    (hpieces : List.Forall₂ (Piece.Beside l l' T runner? runner?' r.depth)
      (found.pieces r.cursor rule.action) (found.pieces r.cursor rule'.action)) :
    (r.follow runner? rule found).1.Beside l l' T (r'.follow runner?' rule' found).1 ∧
      (r'.follow runner?' rule' found).2 = (r.follow runner? rule found).2 := by
  rw [follow, follow, hop, act_eq _ _ _ _ plain, act_eq _ _ _ _ plain', h.cursor_eq]
  exact ⟨(h.putAll hpieces).changed rule.op?, rfl⟩

theorem step_of_pieces (h : r.Beside l l' T r') (hwinner : r.winner? = some (rule, found))
    (hwinner' : r'.winner? = some (rule', found)) (hop : rule'.op? = rule.op?)
    (plain : ∀ f, rule.action ≠ .callback f) (plain' : ∀ f, rule'.action ≠ .callback f)
    (hpieces : List.Forall₂ (Piece.Beside l l' T runner? runner?' r.depth)
      (found.pieces r.cursor rule.action) (found.pieces r.cursor rule'.action))
    (hmoves : r.position < (r.cursor.seek found.stop).offset) :
    (r.step runner?).Beside l l' T (r'.step runner?') := by
  obtain ⟨hfollow, hnext⟩ := h.follow_pieces hop plain plain' hpieces
  obtain ⟨hcursor, hstop⟩ := r.follow_plain runner? rule found plain
  rw [step_eq, step_eq, hwinner, hwinner']
  simp only [apply]
  rw [hnext, h.stack_eq, hstop]
  refine hfollow.settle_of_lt ?_ _
  rwa [position, hcursor]

variable (hframe : Lexer.SameFrame l l')
include hframe

theorem follow_callback (h : r.Beside l l' T r') (hT : ∀ t, T t t) (hop : rule'.op? = rule.op?)
    {f : Callback} (haction : rule.action = .callback f) (haction' : rule'.action = .callback f) :
    (r.follow runner? rule found).1.Beside l l' T (r'.follow runner?' rule' found).1 ∧
      (r'.follow runner?' rule' found).2 = (r.follow runner? rule found).2 := by
  let s : Session := ⟨r, r.cursor, r.cursor.seek found.stop⟩
  let s' : Session := ⟨r', r'.cursor, r'.cursor.seek found.stop⟩
  have hs : s.Beside l l' T s' := ⟨h, h.cursor_eq, by simp only [s, s', h.cursor_eq]⟩
  have hplay := hs.play hframe hT (f found r.cursor s.view)
  have hclose := hplay.emit hT (s.play (f found r.cursor s.view)).position.offset .text
  have hact : r'.act runner?' (.callback f) found =
      (s'.play (f found r.cursor s.view)).close := by
    rw [act, ← hs.view_eq hframe, ← h.cursor_eq]
  rw [follow, follow, hop, haction, haction', hact]
  rw [act, Session.close, Session.close, hplay.position]
  exact ⟨hclose.run.changed rule.op?, hclose.cursor⟩

theorem step_of_none (h : r.Beside l l' T r') (hT : ∀ t, T t t) (hnone : r.winner? = none)
    (hnone' : r'.winner? = none) : (r.step runner?).Beside l l' T (r'.step runner?') := by
  rw [step_eq, step_eq, hnone, hnone']
  exact h.fallback hframe hT

theorem applied (h : r.Beside l l' T r') (hT : ∀ t, T t t) (hop : rule'.op? = rule.op?)
    (haction : Action.Beside l l' T runner? runner?' r found rule.action rule'.action) :
    (r.apply runner? rule found).Beside l l' T (r'.apply runner?' rule' found) := by
  have hfollow : (r.follow runner? rule found).1.Beside l l' T
      (r'.follow runner?' rule' found).1 ∧
        (r'.follow runner?' rule' found).2 = (r.follow runner? rule found).2 := by
    generalize hown : rule.action = action at haction
    generalize hown' : rule'.action = action' at haction
    cases haction with
    | callback f => exact h.follow_callback hframe hT hop hown hown'
    | pieces plain plain' hpieces =>
      subst hown hown'
      exact h.follow_pieces hop plain plain' hpieces
  rw [apply, apply, hfollow.2, h.stack_eq]
  exact hfollow.1.settle hframe hT _ _

theorem step_of_some (h : r.Beside l l' T r') (hT : ∀ t, T t t)
    (hwinner : r.winner? = some (rule, found)) (hwinner' : r'.winner? = some (rule', found))
    (hop : rule'.op? = rule.op?)
    (haction : Action.Beside l l' T runner? runner?' r found rule.action rule'.action) :
    (r.step runner?).Beside l l' T (r'.step runner?') := by
  rw [step_eq, step_eq, hwinner, hwinner']
  exact h.applied hframe hT hop haction

end Run.Beside

structure Point.Beside (l l' : Lexer) (T G : Token → Token → Prop) (p p' : Point) : Prop where
  run : p.run.Beside l l' T p'.run
  taken : List.Forall₂ G p.taken p'.taken

end

namespace Point

/-- Two runs make their turns together: what holds where they start, and is kept when both give out
a token and when both scan, holds after any number of turns. -/
theorem lockstep {Q : Point → Point → Prop} {p p' : Point} (start : Q p p')
    (pending : ∀ q q', Q q q' → (q.run.pending = [] ↔ q'.run.pending = []))
    (ahead : ∀ q q', Q q q' → q'.run.cursor.ahead = q.run.cursor.ahead)
    (give : ∀ q q' t t' rest rest', q.run.pending = t :: rest → q'.run.pending = t' :: rest' →
      Q q q' → Q q.turn q'.turn)
    (scan : ∀ turns, (turn^[turns] p).run.pending = [] → (turn^[turns] p').run.pending = [] →
      (turn^[turns] p).run.cursor.ahead ≠ [] → Q (turn^[turns] p) (turn^[turns] p') →
        Q (turn^[turns] p).turn (turn^[turns] p').turn) (turns : Nat) :
    Q (turn^[turns] p) (turn^[turns] p') := by
  induction turns with
  | zero => exact start
  | succ turns ih =>
    have hpending := pending _ _ ih
    have hahead := ahead _ _ ih
    rw [Function.iterate_succ_apply', Function.iterate_succ_apply']
    cases hfirst : (turn^[turns] p).run.pending with
    | cons t rest =>
      obtain ⟨t', rest', hsecond⟩ := List.exists_cons_of_ne_nil
        (fun hnil => by simp [hpending.2 hnil] at hfirst : (turn^[turns] p').run.pending ≠ [])
      exact give _ _ t t' rest rest' hfirst hsecond ih
    | nil =>
      have hsecond := hpending.1 hfirst
      by_cases hend : (turn^[turns] p).run.cursor.ahead = []
      · rw [turn_of_done hfirst hend, turn_of_done hsecond (hahead.trans hend)]
        exact ih
      · exact scan turns hfirst hsecond hend ih

namespace Beside
variable {l l' : Lexer} {T G : Token → Token → Prop} {p p' : Point}

theorem start (hframe : Lexer.SameFrame l l') (states : List StateId) (text : List Char)
    (depth : Nat) : Beside l l' T G { run := Run.start l states text depth }
      { run := Run.start l' states text depth } :=
  ⟨.started hframe states text depth, .nil⟩

theorem pending_eq_nil_iff (h : p.Beside l l' T G p') :
    p.run.pending = [] ↔ p'.run.pending = [] := h.run.pending_eq_nil_iff

theorem ahead_eq (h : p.Beside l l' T G p') : p'.run.cursor.ahead = p.run.cursor.ahead := by
  rw [h.run.cursor_eq]

theorem done_iff (h : p.Beside l l' T G p') : p.Done ↔ p'.Done :=
  ⟨fun hdone => ⟨h.pending_eq_nil_iff.1 hdone.pending, h.ahead_eq.trans hdone.atEnd⟩,
    fun hdone => ⟨h.pending_eq_nil_iff.2 hdone.pending, h.ahead_eq.symm.trans hdone.atEnd⟩⟩

theorem give (h : p.Beside l l' T G p')
    (hG : ∀ t u, T t u → G (l.recategorise t) (l'.recategorise u)) {t t' : Token}
    {rest rest' : List Token} (hpending : p.run.pending = t :: rest)
    (hpending' : p'.run.pending = t' :: rest') : p.turn.Beside l l' T G p'.turn := by
  obtain ⟨⟨hlexer, pending, hsame, hforall⟩, htaken⟩ := h
  rw [hsame] at hpending'
  subst hpending'
  rw [hpending] at hforall
  obtain ⟨hfirst, hrest⟩ := List.forall₂_cons.1 hforall
  rw [turn_of_pending hpending, turn_of_pending (p := p') (by rw [hsame])]
  refine ⟨⟨hlexer, rest', by simp [hsame], hrest⟩, ?_⟩
  refine List.rel_append htaken (.cons ?_ .nil)
  rw [hlexer, hsame]
  exact hG t t' hfirst

theorem played {states states' : List StateId} {text : List Char} {depth : Nat}
    (h : ∀ turns, (after turns (Run.start l states text depth)).Beside l l' T G
      (after turns (Run.start l' states' text depth))) :
    List.Forall₂ G (Run.start l states text depth).played.1
      (Run.start l' states' text depth).played.1 ∧
        (Run.start l' states' text depth).played.2 = (Run.start l states text depth).played.2 := by
  obtain ⟨turns, hdone, htaken, hnotices⟩ := Run.exists_turns_played l states text depth
  obtain ⟨more, hdone', htaken', hnotices'⟩ := Run.exists_turns_played l' states' text depth
  have hstep := h turns
  rw [(hstep.done_iff.1 hdone).unique hdone'] at hstep
  rw [← htaken, ← htaken', ← hnotices, ← hnotices']
  exact ⟨hstep.taken, hstep.run.notices_eq⟩

theorem same {states : List StateId} {text : List Char} {depth : Nat}
    (h : ∀ turns, (after turns (Run.start l states text depth)).Beside l l' Eq Eq
      (after turns (Run.start l' states text depth))) :
    (∀ turns, (after turns (Run.start l' states text depth)).taken =
        (after turns (Run.start l states text depth)).taken ∧
      (after turns (Run.start l' states text depth)).run =
        { (after turns (Run.start l states text depth)).run with lexer := l' }) ∧
    (Run.start l' states text depth).tokens = (Run.start l states text depth).tokens := by
  constructor
  · intro turns
    obtain ⟨⟨-, pending, hrun, hpending⟩, htaken⟩ := h turns
    rw [List.forall₂_eq_eq_eq] at hpending htaken
    exact ⟨htaken.symm, by rw [hrun, ← hpending]⟩
  · have hplayed := (played h).1
    rw [List.forall₂_eq_eq_eq] at hplayed
    rw [Run.tokens_eq_played, Run.tokens_eq_played, hplayed]

end Beside

end Point

end RuleLexer
