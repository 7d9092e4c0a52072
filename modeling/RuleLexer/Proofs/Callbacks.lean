import RuleLexer.Build
import RuleLexer.Indentation
import RuleLexer.Proofs.Asking

/-! Callbacks of tables as they are written. A table that is built has the callbacks that it is
written with, so what they ask for can be read off the draft; those for blocks by indentation push
the states that the rules which open blocks have left in the memo. -/
namespace RuleLexer
open RuleLexer.Text

def Action.lexers : Action Delegate → List Lexer
  | .delegate (.lexer l _) => [l]
  | .groups emissions => emissions.filterMap fun
    | .delegate (.lexer l _) => some l
    | _ => none
  | _ => []

def Action.delegates : Action Delegate → List Delegate
  | .delegate d => [d]
  | .groups emissions => emissions.filterMap fun
    | .delegate d => some d
    | .token _ => none
  | _ => []

theorem Action.mem_delegates {action : Action Delegate} {d : Delegate} (h : action.HandsTo d) :
    d ∈ action.delegates := by
  cases h with
  | whole => exact List.mem_singleton_self d
  | group hmem => exact List.mem_filterMap.2 ⟨_, hmem, rfl⟩

def Action.callback? {δ : Type} : Action δ → Option Callback
  | .callback f => some f
  | _ => none

namespace TableDraft

def actions (d : TableDraft) : List (Action Delegate) :=
  d.states.flatMap fun state => state.2.filterMap fun
    | .rule r => some r.action
    | .includes _ => none

def callbacks (d : TableDraft) : List Callback := d.actions.filterMap Action.callback?

def lexers (d : TableDraft) : List Lexer := d.actions.flatMap Action.lexers

def delegates (d : TableDraft) : List Delegate := d.actions.flatMap Action.delegates

end TableDraft

theorem Action.mem_lexers {action : Action Delegate} {l : Lexer} {states? : Option (List String)}
    (h : action.HandsTo (.lexer l states?)) : l ∈ action.lexers := by
  cases h with
  | whole => exact List.mem_singleton_self l
  | group hmem => exact List.mem_filterMap.2 ⟨_, hmem, rfl⟩

section compiled
variable {d : TableDraft} {t : Table}

theorem TableDraft.exists_action (h : d.compile = .ok t) {rules : List CompiledRule}
    (hrules : rules ∈ t.rules) {rule : CompiledRule} (hrule : rule ∈ rules) :
    ∃ action ∈ d.actions, action.Rel (Delegate.Binds t.names) rule.action := by
  obtain ⟨-, -, hbinds⟩ := TableDraft.compile_ok h
  obtain ⟨state, hstate, r, hr, hbound⟩ := hbinds rules hrules rule hrule
  exact ⟨r.action, List.mem_flatMap.2 ⟨state, hstate, List.mem_filterMap.2 ⟨_, hr, rfl⟩⟩,
    hbound.action⟩

theorem TableDraft.mem_callbacks (h : d.compile = .ok t) {rules : List CompiledRule}
    (hrules : rules ∈ t.rules) {rule : CompiledRule} (hrule : rule ∈ rules) {f : Callback}
    (hf : rule.action = .callback f) : f ∈ d.callbacks := by
  obtain ⟨action, haction, hrel⟩ := exists_action h hrules hrule
  rw [hf] at hrel
  cases hrel
  exact List.mem_filterMap.2 ⟨_, haction, rfl⟩

theorem TableDraft.not_handsTo (h : d.compile = .ok t) (hnone : d.delegates = []) :
    ∀ rules ∈ t.rules, ∀ rule ∈ rules, ∀ target, ¬rule.action.HandsTo target := by
  intro rules hrules rule hrule target hhands
  obtain ⟨action, haction, hrel⟩ := exists_action h hrules hrule
  obtain ⟨delegate, hdelegate, -⟩ := hrel.handsTo hhands
  have hmem : delegate ∈ d.delegates :=
    List.mem_flatMap.2 ⟨action, haction, Action.mem_delegates hdelegate⟩
  rw [hnone] at hmem
  cases hmem

theorem TableOf.Asks.of_compile (h : d.compile = .ok t) {form : Memo → Prop}
    (callbacks : ∀ f ∈ d.callbacks, ∀ found place view, form view.memo →
      (f found place view).Asks d.names form view.memo) : t.Asks form := by
  intro rules hrules rule hrule f hf
  rw [TableDraft.names_of_compile_ok h]
  exact callbacks f (TableDraft.mem_callbacks h hrules hrule hf)

theorem Lexer.Asks.of_compile (h : d.compile = .ok t) {l : Lexer} (hl : l.table = t)
    {form : Memo → Prop} (empty : form .empty)
    (callbacks : ∀ f ∈ d.callbacks, ∀ found place view, form view.memo →
      (f found place view).Asks d.names form view.memo)
    (lexers : ∀ other ∈ d.lexers, Lexer.Asks other) : Lexer.Asks l := by
  subst hl
  refine .intro empty (TableOf.Asks.of_compile h callbacks)
    fun rules hrules rule hrule other states? hhands => ?_
  obtain ⟨action, haction, hrel⟩ := TableDraft.exists_action h hrules hrule
  obtain ⟨delegate, hdelegate, hbinds⟩ := hrel.handsTo hhands
  cases hbinds
  exact lexers other (List.mem_flatMap.2 ⟨action, haction, Action.mem_lexers hdelegate⟩)

end compiled

namespace Script.Asks
variable {names : List String} {form : Memo → Prop} {memo : Memo} {c : Call}

theorem run {rest : Script} (known : ∀ state ∈ c.state?, state ∈ names)
    (later : rest.Asks names form (c.memo memo)) : (Script.run c rest).Asks names form memo :=
  .call known fun _ _ _ => later

theorem see {rest : View → Script} (known : ∀ state ∈ c.state?, state ∈ names)
    (later : ∀ view, view.memo = c.memo memo → (rest view).Asks names form (c.memo memo)) :
    (Script.see c rest).Asks names form memo :=
  .call known fun view _ hview => later view hview

end Script.Asks

namespace Indentation

/-- What a line does behind its blanks: it goes on in the block, or leaves it. -/
def entering (content : String) (indent : List Char) (memo : Memo) : Script :=
  match blockState? indent memo with
  | some state => .run (.push state) .done
  | none => .run (.drop stateKey) <| .run (.drop blockKey) <| .run (.push content) .done

theorem lineStart_eq (content : String) (found : Match) (place : Cursor) (view : View) :
    lineStart content found place view =
      .run (.emit found.stop .text)
        (.see (.keep lastKey (.text (String.ofList (place.upTo found.stop)))) fun view =>
          entering content (place.upTo found.stop) view.memo) := rfl

variable {names : List String} {memo : Memo}

/-- The state for a block's lines that is kept in the memo is one of these. -/
def Keeps (names : List String) (memo : Memo) : Prop :=
  ∀ state, (stateKey, .text state) ∈ memo → state ∈ names

theorem Keeps.set (h : Keeps names memo) {key : String} {value : MemoValue}
    (hvalue : key = stateKey → ∀ state, value = .text state → state ∈ names) :
    Keeps names (memo.set key value) := by
  intro state hmem
  rcases List.mem_cons.1 hmem with heq | hmem
  · cases heq
    exact hvalue rfl state rfl
  · exact h state (List.mem_of_mem_filter hmem)

theorem Keeps.erase (h : Keeps names memo) (key : String) : Keeps names (memo.erase key) :=
  fun state hmem => h state (List.mem_of_mem_filter hmem)

theorem Keeps.of_blockState? (h : Keeps names memo) {indent : List Char} {state : String}
    (hstate : blockState? indent memo = some state) : state ∈ names := by
  rw [blockState?] at hstate
  split at hstate
  · next kept block hkept _ =>
    obtain ⟨-, heq⟩ := Option.ite_none_right_eq_some.1 hstate
    cases heq
    rw [Memo.text?] at hkept
    split at hkept
    · next value hget =>
      cases hkept
      obtain ⟨before, after, hmemo, -⟩ := List.lookup_eq_some_iff.1 hget
      exact h state (by simp [hmemo])
    · cases hkept
  · cases hstate

theorem asks_opensBlock {blocks : List String} {state : String} (hstate : state ∈ blocks)
    (category : Category) (found : Match) (place : Cursor) {view : View}
    (h : Keeps blocks view.memo) :
    (opensBlock category state found place view).Asks names (Keeps blocks) view.memo := by
  refine .see (by simp [Call.state?]) fun later _ => .run (by simp [Call.state?])
    (.run (by simp [Call.state?]) (.done ?_))
  refine (h.set fun hkey => absurd hkey (by decide)).set fun _ other hother => ?_
  cases hother
  exact hstate

theorem asks_lineStart {blocks : List String} (hblocks : blocks ⊆ names) {content : String}
    (hcontent : content ∈ names) (found : Match) (place : Cursor) {view : View}
    (h : Keeps blocks view.memo) :
    (lineStart content found place view).Asks names (Keeps blocks) view.memo := by
  refine .run (by simp [Call.state?]) (.see (by simp [Call.state?]) fun later hlater => ?_)
  have hkept : Keeps blocks later.memo := by
    rw [hlater]
    exact h.set fun hkey => absurd hkey (by decide)
  rw [← hlater]
  cases hblock : blockState? (place.upTo found.stop) later.memo with
  | some state =>
    refine .run (fun state' hstate' => ?_) (.done hkept)
    cases hstate'
    exact hblocks (hkept.of_blockState? hblock)
  | none =>
    refine .run (by simp [Call.state?]) (.run (by simp [Call.state?])
      (.run (fun state' hstate' => ?_) (.done ((hkept.erase _).erase _))))
    cases hstate'
    exact hcontent

end Indentation

namespace Session
variable (s : Session)

theorem cursor_emit {stop : Nat} (h : s.cursor.offset ≤ stop) (category : Category) :
    (s.emit stop category).cursor = s.cursor.seek stop := by
  unfold emit
  dsimp only
  split
  · next hstill =>
    have hpasses := Cursor.passes_seek h
    rw [hpasses.nil_of_offset_le hstill] at hpasses
    exact hpasses.eq_of_nil.symm
  · rfl

theorem position_emit (stop : Nat) (category : Category) :
    (s.emit stop category).position = s.position := by
  unfold emit
  dsimp only
  split <;> rfl

theorem close_of_reached {s : Session} (h : s.cursor = s.position) : s.close = (s.run, s.cursor) := by
  have hseek : s.cursor.seek s.position.offset = s.cursor :=
    h ▸ Cursor.seek_of_passes (.refl s.cursor)
  have hstill : s.emit s.position.offset .text = s := by
    unfold emit
    dsimp only
    rw [hseek, if_pos (Nat.le_refl _)]
  rw [close, hstill]

theorem push_of_known {state : String} {id : StateId} (h : s.run.table.stateId? state = some id) :
    (s.push state).1.run.stack = (s.run.stack.push id).1 ∧
      (s.push state).1.cursor = s.cursor ∧ (s.push state).1.position = s.position := by
  rw [push, h]
  dsimp only
  split
  · exact ⟨rfl, rfl, rfl⟩
  · rw [Run.noteRefused_eq]
    exact ⟨rfl, rfl, rfl⟩

end Session

namespace Indentation
variable {r : Run} {found : Match} (runner? : Option Runner) (hstop : r.cursor.offset ≤ found.stop)
include hstop

theorem emit_match (category : Category) :
    let s : Session := (⟨r, r.cursor, r.cursor.seek found.stop⟩ : Session).emit found.stop category
    s.cursor = r.cursor.seek found.stop ∧ s.position = r.cursor.seek found.stop ∧
      s.run.stack = r.stack ∧ s.run.lexer = r.lexer ∧ s.run.memo = r.memo := by
  intro s
  have hcursor := Session.cursor_emit ⟨r, r.cursor, r.cursor.seek found.stop⟩ hstop category
  have hposition :=
    Session.position_emit ⟨r, r.cursor, r.cursor.seek found.stop⟩ found.stop category
  have hrun := Session.emit_run ⟨r, r.cursor, r.cursor.seek found.stop⟩ found.stop category
  refine ⟨hcursor, hposition, ?_⟩
  show s.run.stack = r.stack ∧ s.run.lexer = r.lexer ∧ s.run.memo = r.memo
  rw [show s.run = { r with pending := s.run.pending } from hrun]
  exact ⟨rfl, rfl, rfl⟩

theorem act_opensBlock (category : Category) (state : String) :
    let acted := r.act runner? (.callback (opensBlock category state)) found
    acted.2 = r.cursor.seek found.stop ∧ acted.1.stack = r.stack := by
  obtain ⟨hcursor, hposition, hstack, -, -⟩ := emit_match hstop category
  let s : Session := (⟨r, r.cursor, r.cursor.seek found.stop⟩ : Session).emit found.stop category
  let memo := (s.run.memo.set blockKey (.text ((s.run.memo.text? lastKey).getD ""))).set stateKey
    (.text state)
  have hreached : (s.withMemo memo).1.cursor = (s.withMemo memo).1.position :=
    hcursor.trans hposition.symm
  have hact : r.act runner? (.callback (opensBlock category state)) found =
      (s.withMemo memo).1.close := rfl
  intro acted
  rw [show acted = _ from hact, Session.close_of_reached hreached]
  exact ⟨hcursor, hstack⟩

theorem act_lineStart {blocks : List String} (hmemo : Keeps blocks r.memo) {content : String}
    (hknown : ∀ state ∈ content :: blocks, ∃ id, r.table.stateId? state = some id) :
    let acted := r.act runner? (.callback (lineStart content)) found
    ∃ state ∈ content :: blocks, ∃ id, r.table.stateId? state = some id ∧
      acted.2 = r.cursor.seek found.stop ∧ acted.1.stack = (r.stack.push id).1 := by
  obtain ⟨hcursor, hposition, hstack, hlexer, hsame⟩ := emit_match hstop .text
  let s : Session := (⟨r, r.cursor, r.cursor.seek found.stop⟩ : Session).emit found.stop .text
  let indent := r.cursor.upTo found.stop
  let memo := s.run.memo.set lastKey (.text (String.ofList indent))
  have hkept : Keeps blocks memo := by
    refine Keeps.set ?_ fun hkey => absurd hkey (by decide)
    show Keeps blocks s.run.memo
    rwa [show s.run.memo = r.memo from hsame]
  have hpush : ∀ (memo : Memo) (state : String) (id : StateId),
      r.table.stateId? state = some id →
        (((s.withMemo memo).1.push state).1.close).2 = r.cursor.seek found.stop ∧
          (((s.withMemo memo).1.push state).1.close).1.stack = (r.stack.push id).1 := by
    intro memo state id hid
    have hknown : (s.withMemo memo).1.run.table.stateId? state = some id := by
      show s.run.table.stateId? state = some id
      rwa [Run.table, show s.run.lexer = r.lexer from hlexer]
    obtain ⟨hpushed, hplace, hgoal⟩ := Session.push_of_known _ hknown
    have hreached := (hplace.trans (hcursor.trans hposition.symm)).trans hgoal.symm
    rw [Session.close_of_reached hreached]
    refine ⟨hplace.trans hcursor, hpushed.trans ?_⟩
    show (s.run.stack.push id).1 = (r.stack.push id).1
    rw [show s.run.stack = r.stack from hstack]
  have hact : r.act runner? (.callback (lineStart content)) found =
      ((s.withMemo memo).1.play (entering content indent memo)).close := rfl
  intro acted
  rw [show acted = _ from hact, entering]
  cases hblock : blockState? indent memo with
  | some state =>
    have hstate := hkept.of_blockState? hblock
    obtain ⟨id, hid⟩ := hknown state (List.mem_cons_of_mem _ hstate)
    exact ⟨state, List.mem_cons_of_mem _ hstate, id, hid, hpush memo state id hid⟩
  | none =>
    obtain ⟨id, hid⟩ := hknown content List.mem_cons_self
    exact ⟨content, List.mem_cons_self, id, hid,
      hpush ((memo.erase stateKey).erase blockKey) content id hid⟩

end Indentation

end RuleLexer
