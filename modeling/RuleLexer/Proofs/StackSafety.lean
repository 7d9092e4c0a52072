import RuleLexer.Proofs.Built
import RuleLexer.Proofs.Nested

/-! The stack of a run at every moment. The states on it come from the lexer, from operations of
rules, from callbacks that name them, and from the rules of a run around it; wherever they come
from, they are states of the table of the lexer that runs, so a step never looks for rules of a
state that is not there. -/
namespace RuleLexer
open RuleLexer.Text

inductive Session.Through : Session → Script → Session → Prop
  | now (s : Session) (script : Script) : Through s script s
  | later {s s' : Session} {c : Call} {next : View → Reply → Script}
      (rest : Through (s.perform c).1 (next (s.perform c).1.view (s.perform c).2) s') :
      Through s (.call c next) s'

namespace Run

/-- `s` is a session of the callback that the next step of `r` plays. -/
def Amid (r : Run) (s : Session) : Prop :=
  ∃ rule found f, r.winner? = some (rule, found) ∧ rule.action = .callback f ∧
    let begun : Session := ⟨r, r.cursor, r.cursor.seek found.stop⟩
    begun.Through (f found r.cursor begun.view) s

/-- The lexer comes from drafts, and the stack holds states of its table. -/
structure Safe (r : Run) : Prop where
  built : Lexer.Built r.lexer
  stack : r.stack.Valid r.table.stateCount

namespace Safe
variable {r r' : Run}

theorem congr (h : r.Safe) (lexer : r'.lexer = r.lexer) (stack : r'.stack = r.stack) :
    r'.Safe := by
  refine ⟨lexer ▸ h.built, ?_⟩
  rw [table, lexer, stack]
  exact h.stack

theorem start {lexer : Lexer} (hlexer : Lexer.Built lexer) {states : List StateId}
    (hstates : Listed lexer.table.stateCount states) (text : List Char) (depth : Nat) :
    (Run.start lexer states text depth).Safe :=
  ⟨hlexer, Stack.valid_start hstates hlexer.sound.root⟩

theorem change (h : r.Safe) {op : StackOp StateId} (hop : Listed r.table.stateCount op.states) :
    (r.change op).Safe := by
  rw [change_eq]
  exact ⟨h.built, h.stack.apply hop⟩

theorem warn (h : r.Safe) (reason : NoProgress) : (r.warn reason).Safe := by
  rw [warn_eq]
  exact ⟨h.built, h.stack⟩

theorem fallback (h : r.Safe) : r.fallback.Safe := by
  cases hahead : r.cursor.ahead with
  | nil =>
    rw [Run.fallback, hahead]
    exact h
  | cons c rest =>
    rw [fallback_eq hahead]
    refine ⟨h.built, ?_⟩
    dsimp only
    split
    · exact h.stack.reset h.built.sound.root
    · exact h.stack

theorem settle (h : r.Safe) (next : Cursor) (generation : Nat) :
    (r.settle next generation).Safe := by
  rw [Run.settle]
  split
  · exact h.congr rfl rfl
  · split
    · exact (h.warn _).fallback
    · have hcount : ({ r with zeroSteps := r.zeroSteps + 1 } : Run).Safe := h.congr rfl rfl
      dsimp only
      split
      · exact (hcount.warn _).fallback
      · exact hcount

end Safe

end Run

namespace Session
variable {s s' : Session}

theorem lexer_emit (stop : Nat) (category : Category) :
    (s.emit stop category).run.lexer = s.run.lexer ∧
      (s.emit stop category).run.stack = s.run.stack := by
  unfold Session.emit
  dsimp only
  split
  · exact ⟨rfl, rfl⟩
  · rw [Run.emit_eq]
    exact ⟨rfl, rfl⟩

theorem safe_emit (h : s.run.Safe) (stop : Nat) (category : Category) :
    (s.emit stop category).run.Safe :=
  h.congr (lexer_emit stop category).1 (lexer_emit stop category).2

theorem stateId?_lt {t : Table} {name : String} {id : StateId} (h : t.stateId? name = some id) :
    id < t.stateCount :=
  (List.idxOf?_eq_some_iff.1 h).1

theorem safe_perform (h : s.run.Safe) (call : Call) : (s.perform call).1.run.Safe := by
  cases call with
  | emit stop category => exact safe_emit h stop category
  | emitRange start stop category => exact safe_emit (safe_emit h start .text) stop category
  | push name =>
    simp only [perform, push]
    split
    · exact h.congr rfl rfl
    · next id hid =>
      have hpushed : ({ s.run with stack := (s.run.stack.push id).1 } : Run).Safe :=
        ⟨h.built, h.stack.push (stateId?_lt hid)⟩
      dsimp only
      split
      · exact hpushed
      · rw [Run.noteRefused_eq]
        exact hpushed.congr rfl rfl
  | pop count => exact ⟨h.built, h.stack.pop count⟩
  | reset name =>
    simp only [perform, reset]
    split
    · exact h.congr rfl rfl
    · next id hid => exact ⟨h.built, h.stack.reset (stateId?_lt hid)⟩
  | continueAt | keep | drop | dropAll | observe => exact h.congr rfl rfl

theorem Through.safe {script : Script} (h : s.Through script s') (hs : s.run.Safe) :
    s'.run.Safe := by
  induction h with
  | now => exact hs
  | @later s _ c _ _ ih => exact ih (safe_perform hs c)

theorem Through.since {script : Script} (h : s.Through script s') {r : Run} {piece : List Char}
    (hs : s.Since r piece) : ∃ more, s'.Since r (piece ++ more) := by
  induction h generalizing piece with
  | now => exact hs.same
  | @later s _ c _ _ ih =>
    obtain ⟨first, hfirst⟩ := hs.perform c
    obtain ⟨more, hmore⟩ := ih hfirst
    exact ⟨first ++ more, by rwa [← List.append_assoc]⟩

theorem through_play (s : Session) (script : Script) : s.Through script (s.play script) := by
  induction script generalizing s with
  | done => exact .now s .done
  | call c next ih => exact .later (ih _ _ _)

end Session

namespace Run
variable {r : Run}

theorem Safe.rules_top (h : r.Safe) :
    r.table.rules[r.stack.top]? = some (r.table.rulesOf r.stack.top) := by
  have htop := h.stack.top_lt
  rw [table, ← h.built.sound.rules] at htop
  rw [TableOf.rulesOf, table, List.getElem?_eq_getElem htop, Option.getD_some]

theorem Safe.winner (h : r.Safe) {rule : CompiledRule} {found : Match}
    (hwinner : r.winner? = some (rule, found)) : rule.Valid r.table.stateCount :=
  h.built.sound.valid _ (List.mem_of_getElem? h.rules_top) _ (firstMatch_some hwinner).1

theorem Safe.act (h : r.Safe) (runner? : Option Runner) (action : Action Target) (found : Match) :
    (r.act runner? action found).1.Safe := by
  by_cases hcallback : ∃ f, action = .callback f
  · obtain ⟨f, rfl⟩ := hcallback
    exact Session.safe_emit ((Session.through_play _ _).safe h) _ _
  · rw [act_eq _ _ _ _ fun f hf => hcallback ⟨f, hf⟩, putAll_eq]
    exact h.congr rfl rfl

theorem Safe.follow (h : r.Safe) {rule : CompiledRule} {found : Match}
    (hwinner : r.winner? = some (rule, found)) :
    (r.follow (runner? r.levels) rule found).1.Safe := by
  have hact := h.act (runner? r.levels) rule.action found
  obtain ⟨_, -, hemits⟩ :=
    emits_act (runner?_covering r.levels) r rule.action (firstMatch_some hwinner).2
  rw [Run.follow]
  cases hop : rule.op? with
  | none => exact hact
  | some op =>
    refine hact.change ?_
    rw [table, hemits.lexer]
    exact (h.winner hwinner).op op hop

theorem Safe.scan (h : r.Safe) : r.scan.Safe := by
  rw [Run.scan, step_eq]
  split
  · exact h.fallback
  · next hwinner => exact (h.follow hwinner).settle _ _

theorem fate_of_mem_groupPieces {found : Match} {index : Nat} {place : Cursor}
    {emissions : List (Emission Target)} {p : Piece}
    (hp : p ∈ found.groupPieces index place emissions) :
    p.fate = .token .text ∨ p.fate ∈ emissions := by
  induction emissions generalizing index place with
  | nil =>
    rw [Match.groupPieces, List.mem_singleton] at hp
    exact .inl (hp ▸ rfl)
  | cons e rest ih =>
    have hlater {place : Cursor} (hp : p ∈ found.groupPieces (index + 1) place rest) :=
      (ih hp).imp_right (List.mem_cons_of_mem e)
    rw [Match.groupPieces] at hp
    split at hp
    · exact hlater hp
    · split at hp
      · exact hlater hp
      · simp only [List.mem_cons] at hp
        rcases hp with rfl | rfl | hp
        · exact .inl rfl
        · exact .inr List.mem_cons_self
        · exact hlater hp

theorem handsTo_of_mem_pieces {found : Match} {place : Cursor} {action : Action Target}
    {p : Piece} {target : Target} (hp : p ∈ found.pieces place action)
    (hfate : p.fate = .delegate target) : action.HandsTo target := by
  cases action with
  | emit category =>
    rw [Match.pieces, List.mem_singleton] at hp
    rw [hp] at hfate
    cases hfate
  | groups emissions =>
    rcases fate_of_mem_groupPieces hp with htext | hmem
    · rw [hfate] at htext
      cases htext
    · exact .group (hfate ▸ hmem)
  | delegate d =>
    rw [Match.pieces, List.mem_singleton] at hp
    rw [hp] at hfate
    cases hfate
    exact .whole
  | callback f => cases hp

theorem Safe.nested (h : r.Safe) {inner : Run} (hinner : inner ∈ r.nested) : inner.Safe := by
  obtain ⟨-, job, hjob, rfl⟩ := mem_nested hinner
  rw [jobs] at hjob
  split at hjob
  · cases hjob
  · next rule found hwinner =>
    obtain ⟨p, hp, hjob⟩ := List.mem_filterMap.1 hjob
    rw [Piece.job?] at hjob
    split at hjob
    · cases hjob
    · next target hfate =>
      split at hjob
      · cases hjob
      · cases hjob
        have htarget := (h.winner hwinner).targets target (handsTo_of_mem_pieces hp hfate)
        cases target with
        | this states? =>
          refine .start h.built (fun id hid => ?_) _ _
          cases states? with
          | none => exact h.built.sound.initial id hid
          | some states => exact htarget states rfl id hid
        | lexer l states? =>
          obtain ⟨hbuilt, hstates⟩ := htarget
          refine .start hbuilt (fun id hid => ?_) _ _
          cases states? with
          | none => exact hbuilt.sound.initial id hid
          | some states => exact hstates states rfl id hid

end Run

theorem Point.safe_after {r : Run} (h : r.Safe) (turns : Nat) : (after turns r).run.Safe :=
  after_induction h (fun _ _ h => h.congr rfl rfl) (fun _ _ _ h => h.scan) turns

theorem Run.Within.safe {outer r : Run} (h : Within outer r) (houter : outer.Safe) : r.Safe := by
  induction h with
  | outermost => exact houter
  | inner turns _ _ hnested ih => exact (Point.safe_after ih turns).nested hnested

namespace Run
variable {r : Run}

structure StackSafe (r : Run) : Prop where
  nonempty : r.stack.toList ≠ []
  bounded : r.stack.toList.length ≤ Stack.maxDepth
  defined : ∀ id ∈ r.stack.toList, ∃ name, r.table.stateName? id = some name
  names : r.stackNames.map some = r.stack.toList.map r.table.stateName?
  counted : r.stackNames.length = r.stack.toList.length
  rules : r.table.rules[r.stack.top]? = some (r.table.rulesOf r.stack.top)

theorem Safe.stackSafe (h : r.Safe) : r.StackSafe := by
  have hdefined : ∀ id ∈ r.stack.toList, ∃ name, r.table.stateName? id = some name :=
    fun id hid => ⟨_, List.getElem?_eq_getElem (h.stack.listed.reverse id hid)⟩
  have hnames : r.stackNames.map some = r.stack.toList.map r.table.stateName? := by
    rw [stackNames, LexerOf.namesOf, List.map_filterMap_some_eq_filter_map_isSome]
    refine List.filter_eq_self.2 fun name? hname => ?_
    obtain ⟨id, hid, rfl⟩ := List.mem_map.1 hname
    obtain ⟨name, hname⟩ := hdefined id hid
    exact Option.isSome_of_eq_some hname
  refine ⟨by simp [Stack.toList, Stack.entries], ?_, hdefined, hnames, ?_, h.rules_top⟩
  · rw [Stack.toList, List.length_reverse]
    exact h.stack.bounded
  · simpa using congrArg List.length hnames

end Run

/-- At every turn of a run over a text, of every run within it, and in the middle of a callback,
the stack is safe with respect to the table of the lexer that runs. -/
theorem stack_stays_safe {l : Lexer} (hl : Lexer.Built l) {text : String} {outer : Run}
    (houter : outer = l.run text ∨ ∃ names, l.runFrom text names = .ok outer) {r : Run}
    (hwithin : outer.Within r) (turns : Nat) :
    let q := (Point.after turns r).run
    (q.lexer = r.lexer ∧ q.StackSafe) ∧
      ∀ s, q.Amid s → s.run.lexer = r.lexer ∧ s.run.StackSafe := by
  intro q
  obtain ⟨states, hstates, rfl⟩ : ∃ states, Listed l.table.stateCount states ∧
      outer = Run.start l states text.toList 0 := by
    rcases houter with rfl | ⟨names, hrun⟩
    · exact ⟨l.initial, hl.sound.initial, rfl⟩
    · obtain ⟨states, hresolve, hrun⟩ := bind_ok.1 hrun
      cases hrun
      exact ⟨states, TableOf.listed_resolve hresolve, rfl⟩
  have hsafe : q.Safe := Point.safe_after (hwithin.safe (.start hl hstates _ _)) turns
  have hlexer : q.lexer = r.lexer := by
    rcases hwithin.start_eq with rfl | ⟨lexer, states, text, depth, -, rfl⟩
    · exact (Point.Holds.after ..).lexer
    · exact (Point.Holds.after ..).lexer
  refine ⟨⟨hlexer, hsafe.stackSafe⟩, fun s hs => ?_⟩
  obtain ⟨rule, found, f, -, -, hthrough⟩ := hs
  obtain ⟨_, hsince⟩ := hthrough.since ⟨.refl _, .refl q _⟩
  have hsession := hthrough.safe hsafe
  exact ⟨hsince.emits.lexer.trans hlexer, hsession.stackSafe⟩

theorem built_nestingLexer : Lexer.Built nestingLexer := by
  refine .compile (t := nestingDraft) (d := ⟨⟨"nesting", [], [], []⟩, nestingTable, none, none, []⟩)
    (fun other states? hother => ?_) rfl rfl
  obtain ⟨state, hstate, r, hr, hhands⟩ := hother
  rcases List.mem_cons.1 hstate with rfl | hstate
  · cases List.mem_singleton.1 hr
    cases hhands with
    | group hmem => simp at hmem
  · cases List.mem_singleton.1 hstate
    cases List.mem_singleton.1 hr
    cases hhands

theorem stack_stays_safe_nested : ∃ inner, (nestingLexer.run "baa").Within inner ∧
    inner.depth = 1 ∧ (Point.after 1 inner).run.stack.toList = [1, 1] ∧
      (Point.after 1 inner).run.StackSafe := by
  have hnested : (Point.after 0 (nestingLexer.run "baa")).run.nested.map
      (fun inner => (inner.depth, (Point.after 1 inner).run.stack.toList)) = [(1, [1, 1])] := by
    decide +kernel
  obtain ⟨inner, hinner, hstate⟩ := List.mem_map.1 (hnested ▸ List.mem_cons_self)
  have hwithin := Run.Within.inner 0 .outermost rfl hinner
  obtain ⟨hdepth, hstack⟩ := Prod.mk.inj hstate
  exact ⟨inner, hwithin, hdepth, hstack,
    (stack_stays_safe built_nestingLexer (.inl rfl) hwithin 1).1.2⟩

end RuleLexer
