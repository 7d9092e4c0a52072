import RuleLexer.Proofs.Callbacks

/-! Blocks by indentation over a whole run. What the callbacks of a step ask for, and what they
leave in the memo, is a list of calls. From it the memo is either inside a block, with the block's
state and the blanks of the line that opened it, or outside of all blocks; the first line that is
not deeper leads outside, and only a rule that opens a block leads in again. -/
namespace RuleLexer
open RuleLexer.Text

namespace Memo
variable (m : Memo) {key other : String} (value : MemoValue)

@[simp] theorem get?_set (key : String) : (m.set key value).get? key = some value := by
  simp [get?, set]

theorem lookup_filter (h : other ≠ key) :
    (m.filter fun entry => entry.1 != key).lookup other = m.lookup other := by
  induction m with
  | nil => rfl
  | cons entry rest ih =>
    obtain ⟨name, value⟩ := entry
    by_cases hname : name = key
    · simp [List.lookup_cons, hname, beq_false_of_ne h, ih]
    · by_cases hother : other = name <;> simp [List.lookup_cons, hname, hother, ih]

theorem get?_set_of_ne (h : other ≠ key) : (m.set key value).get? other = m.get? other := by
  simp [get?, set, List.lookup_cons, beq_false_of_ne h, lookup_filter m h]

@[simp] theorem get?_erase (key : String) : (m.erase key).get? key = none := by
  have hne : ∀ entry ∈ m.erase key, (key != entry.1) = true := by simp [erase, ne_comm]
  exact List.lookup_eq_none_iff.2 hne

theorem get?_erase_of_ne (h : other ≠ key) : (m.erase key).get? other = m.get? other :=
  lookup_filter m h

end Memo

namespace Session

def calls (s : Session) : Script → List Call
  | .done => []
  | .call c next => c :: calls (s.perform c).1 (next (s.perform c).1.view (s.perform c).2)

@[simp] theorem calls_done (s : Session) : s.calls .done = [] := rfl

@[simp] theorem calls_run (s : Session) (c : Call) (rest : Script) :
    s.calls (.run c rest) = c :: (s.perform c).1.calls rest := rfl

@[simp] theorem calls_see (s : Session) (c : Call) (rest : View → Script) :
    s.calls (.see c rest) = c :: (s.perform c).1.calls (rest (s.perform c).1.view) := rfl

theorem memo_play (s : Session) (script : Script) :
    (s.play script).run.memo = (s.calls script).foldl Call.memo s.run.memo := by
  induction script generalizing s with
  | done => rfl
  | call c next ih => rw [play, calls, ih, List.foldl_cons, memo_perform]

end Session

namespace Call

def isForStack : Call → Bool
  | .push _ | .pop _ | .reset _ => true
  | _ => false

end Call

namespace Run

def plays (r : Run) : List Call :=
  match r.winner? with
  | some (rule, found) =>
      rule.action.callback?.elim [] fun f =>
        let s : Session := ⟨r, r.cursor, r.cursor.seek found.stop⟩
        s.calls (f found r.cursor s.view)
  | none => []

/-- What the next step's callback asks for of the stack. -/
def asked (r : Run) : List Call := r.plays.filter Call.isForStack

section scan
variable {r : Run} {rule : CompiledRule} {found : Match}

theorem plays_of_winner (hwinner : r.winner? = some (rule, found)) {f : Callback}
    (haction : rule.action = .callback f) :
    let s : Session := ⟨r, r.cursor, r.cursor.seek found.stop⟩
    r.plays = s.calls (f found r.cursor s.view) := by
  simp [plays, hwinner, haction, Action.callback?]

theorem exists_callback (h : r.plays ≠ []) :
    ∃ rule found f, r.winner? = some (rule, found) ∧ rule.action = .callback f := by
  cases hwinner : r.winner? with
  | none => simp [plays, hwinner] at h
  | some winner =>
    obtain ⟨rule, found⟩ := winner
    cases haction : rule.action with
    | callback f => exact ⟨rule, found, f, rfl, haction⟩
    | emit | groups | delegate => simp [plays, hwinner, haction, Action.callback?] at h

theorem memo_scan (r : Run) : r.scan.memo = r.plays.foldl Call.memo r.memo := by
  cases hwinner : r.winner? with
  | none => simp [scan, step_eq, plays, hwinner, memo_fallback]
  | some winner =>
    obtain ⟨rule, found⟩ := winner
    rw [scan_of_winner hwinner, memo_settle, follow_eq]
    cases haction : rule.action with
    | callback f =>
      show ((Session.play _ _).emit _ _).run.memo = _
      rw [Session.emit_run, plays_of_winner hwinner haction]
      exact Session.memo_play _ _
    | emit | groups | delegate =>
      have hplain : ∀ f, rule.action ≠ .callback f := by simp [haction]
      rw [← haction, act_eq _ _ _ _ hplain, putAll_eq]
      simp [plays, hwinner, haction, Action.callback?]

end scan

end Run

def TableOf.Indents (t : Table) : Prop :=
  ∀ rules ∈ t.rules, ∀ rule ∈ rules, ∀ f, rule.action = .callback f →
    (∃ content, f = Indentation.lineStart content) ∨
      ∃ category state, f = Indentation.opensBlock category state

namespace Point

/-- The next turn is a step whose rule hands its match to a callback. -/
structure Fires (p : Point) (f : Callback) (found : Match) : Prop where
  pending : p.run.pending = []
  ahead : p.run.cursor.ahead ≠ []
  winner : ∃ rule, p.run.winner? = some (rule, found) ∧ rule.action = .callback f

/-- The next turn matches the blanks at the start of a line. -/
def StartsLine (p : Point) (content : String) (indent : List Char) : Prop :=
  ∃ found, p.Fires (Indentation.lineStart content) found ∧
    p.run.cursor.upTo found.stop = indent

/-- The next turn opens a block. -/
def OpensBlock (p : Point) (category : Category) (state : String) : Prop :=
  ∃ found, p.Fires (Indentation.opensBlock category state) found

/-- A line that starts here lies deeper than a block: the block's blanks and more. -/
def LiesDeeper (p : Point) (block : List Char) : Prop :=
  ∀ content indent, p.StartsLine content indent → block <+: indent ∧ block ≠ indent

end Point

namespace Indentation

/-- The memo is inside a block that was opened behind these blanks. -/
structure Inside (block : List Char) (state : String) (memo : Memo) : Prop where
  block : memo.get? blockKey = some (.text (String.ofList block))
  state : memo.get? stateKey = some (.text state)

structure Outside (memo : Memo) : Prop where
  block : memo.get? blockKey = none
  state : memo.get? stateKey = none

def latest (memo : Memo) : List Char := ((memo.text? lastKey).getD "").toList

section memo
variable {memo : Memo} {block indent : List Char} {state : String}

theorem isDeeper_iff : isDeeper indent block = true ↔ block <+: indent ∧ block ≠ indent := by
  simp only [isDeeper, Bool.and_eq_true, List.isPrefixOf_iff_prefix, bne_iff_ne, ne_comm]

theorem blockState?_of_inside (h : Inside block state memo) :
    blockState? indent memo = if isDeeper indent block then some state else none := by
  simp [blockState?, Memo.text?, h.block, h.state]

theorem blockState?_of_outside (h : Outside memo) : blockState? indent memo = none := by
  simp [blockState?, Memo.text?, h.state]

theorem Inside.line (h : Inside block state memo) (value : MemoValue) :
    Inside block state (memo.set lastKey value) := by
  constructor
  · rw [Memo.get?_set_of_ne _ _ (by decide), h.block]
  · rw [Memo.get?_set_of_ne _ _ (by decide), h.state]

theorem Outside.line (h : Outside memo) (value : MemoValue) :
    Outside (memo.set lastKey value) := by
  constructor
  · rw [Memo.get?_set_of_ne _ _ (by decide), h.block]
  · rw [Memo.get?_set_of_ne _ _ (by decide), h.state]

theorem outside_erase (memo : Memo) : Outside ((memo.erase stateKey).erase blockKey) := by
  constructor
  · rw [Memo.get?_erase]
  · rw [Memo.get?_erase_of_ne _ (by decide), Memo.get?_erase]

theorem latest_set (memo : Memo) (indent : List Char) :
    latest (memo.set lastKey (.text (String.ofList indent))) = indent := by
  simp [latest, Memo.text?]

theorem latest_congr {memo' : Memo} (h : memo'.get? lastKey = memo.get? lastKey) :
    latest memo' = latest memo := by
  rw [latest, latest, Memo.text?, Memo.text?, h]

theorem calls_lineStart (s : Session) (content : String) (found : Match) (place : Cursor)
    (view : View) :
    let indent := place.upTo found.stop
    let memo := s.run.memo.set lastKey (.text (String.ofList indent))
    s.calls (lineStart content found place view) =
      .emit found.stop .text :: .keep lastKey (.text (String.ofList indent)) ::
        (blockState? indent memo).elim [.drop stateKey, .drop blockKey, .push content]
          fun state => [.push state] := by
  intro indent memo
  have hmemo : ((s.perform (.emit found.stop .text)).1.perform
      (.keep lastKey (.text (String.ofList indent)))).1.run.memo = memo := by
    rw [Session.memo_perform, Session.memo_perform]
    rfl
  rw [lineStart_eq, Session.calls_run, Session.calls_see, Session.view, hmemo, entering]
  cases blockState? indent memo with
  | some state => simp [indent]
  | none => simp [indent]

theorem calls_opensBlock (s : Session) (category : Category) (state : String) (found : Match)
    (place : Cursor) (view : View) :
    s.calls (opensBlock category state found place view) =
      [.emit found.stop category,
        .keep blockKey (.text (String.ofList (latest s.run.memo))),
        .keep stateKey (.text state)] := by
  have hmemo : (s.perform (.emit found.stop category)).1.run.memo = s.run.memo :=
    Session.memo_perform ..
  simp [opensBlock, Session.view, hmemo, latest]

end memo

end Indentation

namespace Point
open Indentation
variable {p : Point} {content : String} {block indent : List Char} {category : Category}
  {state : String}

theorem Fires.memo_turn {f : Callback} {found : Match} (h : p.Fires f found) :
    p.turn.run.memo = p.run.plays.foldl Call.memo p.run.memo := by
  rw [turn_of_scan h.pending h.ahead]
  exact Run.memo_scan _

theorem memo_turn (hl : p.run.table.Indents)
    (hlines : ∀ content indent, ¬p.StartsLine content indent)
    (hopens : ∀ category state, ¬p.OpensBlock category state) :
    p.turn.run.memo = p.run.memo := by
  cases hpending : p.run.pending with
  | cons t pending => rw [turn_of_pending hpending]
  | nil =>
    by_cases hend : p.run.cursor.ahead = []
    · rw [turn_of_done hpending hend]
    · have hcalls : p.run.plays = [] := by
        by_contra hne
        obtain ⟨rule, found, f, hwinner, haction⟩ := Run.exists_callback hne
        obtain ⟨rules, hrules, hrule⟩ := Run.exists_rules_of_winner hwinner
        have hfires : p.Fires f found := ⟨hpending, hend, rule, hwinner, haction⟩
        rcases hl rules hrules rule hrule f haction with ⟨content, rfl⟩ | ⟨category, state, rfl⟩
        · exact hlines content _ ⟨found, hfires, rfl⟩
        · exact hopens category state ⟨found, hfires⟩
      rw [turn_of_scan hpending hend]
      show p.run.scan.memo = _
      rw [Run.memo_scan, hcalls, List.foldl_nil]

theorem StartsLine.unique {content' : String} {indent' : List Char}
    (h : p.StartsLine content indent) (h' : p.StartsLine content' indent') : indent' = indent := by
  obtain ⟨found, ⟨-, -, rule, hwinner, -⟩, rfl⟩ := h
  obtain ⟨found', ⟨-, -, rule', hwinner', -⟩, rfl⟩ := h'
  rw [hwinner] at hwinner'
  cases hwinner'
  rfl

theorem StartsLine.liesDeeper_iff (h : p.StartsLine content indent) :
    p.LiesDeeper block ↔ isDeeper indent block = true := by
  rw [isDeeper_iff]
  refine ⟨fun hdeeper => hdeeper content indent h, fun hdeeper content' indent' h' => ?_⟩
  rwa [h.unique h']

theorem StartsLine.calls (h : p.StartsLine content indent) :
    let memo := p.run.memo.set lastKey (.text (String.ofList indent))
    ∃ stop, p.run.plays =
      .emit stop .text :: .keep lastKey (.text (String.ofList indent)) ::
        (blockState? indent memo).elim [.drop stateKey, .drop blockKey, .push content]
          fun state => [.push state] := by
  obtain ⟨found, ⟨-, -, rule, hwinner, haction⟩, rfl⟩ := h
  exact ⟨found.stop, (Run.plays_of_winner hwinner haction).trans (calls_lineStart ..)⟩

theorem OpensBlock.calls (h : p.OpensBlock category state) :
    ∃ stop, p.run.plays = [.emit stop category,
      .keep blockKey (.text (String.ofList (latest p.run.memo))), .keep stateKey (.text state)] := by
  obtain ⟨found, -, -, rule, hwinner, haction⟩ := h
  exact ⟨found.stop, (Run.plays_of_winner hwinner haction).trans (calls_opensBlock ..)⟩

theorem StartsLine.inside (h : p.StartsLine content indent) (hin : Inside block state p.run.memo)
    (hdeeper : isDeeper indent block = true) :
    p.run.asked = [.push state] ∧ Inside block state p.turn.run.memo := by
  obtain ⟨stop, hcalls⟩ := h.calls
  obtain ⟨found, hfires, -⟩ := h
  have hkept := hin.line (.text (String.ofList indent))
  rw [blockState?_of_inside hkept, if_pos hdeeper] at hcalls
  constructor
  · simp [Run.asked, hcalls, Call.isForStack]
  · rw [hfires.memo_turn, hcalls]
    exact hkept

theorem StartsLine.outside (h : p.StartsLine content indent)
    (hnone : blockState? indent (p.run.memo.set lastKey (.text (String.ofList indent))) = none) :
    p.run.asked = [.push content] ∧ Outside p.turn.run.memo := by
  obtain ⟨stop, hcalls⟩ := h.calls
  obtain ⟨found, hfires, -⟩ := h
  rw [hnone] at hcalls
  constructor
  · simp [Run.asked, hcalls, Call.isForStack]
  · rw [hfires.memo_turn, hcalls]
    exact outside_erase _

theorem StartsLine.latest_turn (h : p.StartsLine content indent) :
    latest p.turn.run.memo = indent := by
  obtain ⟨stop, hcalls⟩ := h.calls
  obtain ⟨found, hfires, -⟩ := h
  have hset := latest_set p.run.memo indent
  rw [hfires.memo_turn, hcalls]
  cases hblock : blockState? indent (p.run.memo.set lastKey (.text (String.ofList indent))) with
  | some state => exact hset
  | none =>
    refine (latest_congr ?_).trans hset
    simp only [Option.elim_none, List.foldl_cons, List.foldl_nil, Call.memo]
    rw [Memo.get?_erase_of_ne _ (by decide), Memo.get?_erase_of_ne _ (by decide)]

theorem OpensBlock.asked (h : p.OpensBlock category state) :
    p.run.plays ≠ [] ∧ p.run.asked = [] := by
  obtain ⟨stop, hcalls⟩ := h.calls
  simp [Run.asked, hcalls, Call.isForStack]

theorem OpensBlock.inside (h : p.OpensBlock category state) :
    Inside (latest p.run.memo) state p.turn.run.memo := by
  obtain ⟨stop, hcalls⟩ := h.calls
  obtain ⟨found, hfires⟩ := h
  rw [hfires.memo_turn, hcalls]
  constructor
  · simp only [List.foldl_cons, List.foldl_nil, Call.memo]
    rw [Memo.get?_set_of_ne _ _ (by decide), Memo.get?_set]
  · simp [Call.memo]

theorem OpensBlock.latest_turn (h : p.OpensBlock category state) :
    latest p.turn.run.memo = latest p.run.memo := by
  obtain ⟨stop, hcalls⟩ := h.calls
  obtain ⟨found, hfires⟩ := h
  rw [hfires.memo_turn, hcalls]
  refine latest_congr ?_
  simp only [List.foldl_cons, List.foldl_nil, Call.memo]
  rw [Memo.get?_set_of_ne _ _ (by decide), Memo.get?_set_of_ne _ _ (by decide)]

end Point

namespace Indentation

section run
variable {l : Lexer} (hl : l.table.Indents) (states : List StateId) (text : List Char)
  (depth : Nat)

/-- The blanks of the latest line before a turn, none if there is no such line. -/
def IsLatest (point : Nat → Point) (turn : Nat) (block : List Char) : Prop :=
  (∃ line < turn, (∃ content, (point line).StartsLine content block) ∧
    ∀ later < turn, line < later → ∀ content indent, ¬(point later).StartsLine content indent) ∨
  (block = [] ∧ ∀ earlier < turn, ∀ content indent, ¬(point earlier).StartsLine content indent)

def NoneOpens (point : Nat → Point) (first last : Nat) : Prop :=
  ∀ turn < last, first < turn → ∀ category state, ¬(point turn).OpensBlock category state

include hl

theorem indents_after (turns : Nat) :
    (Point.after turns (Run.start l states text depth)).run.table.Indents := by
  rw [Run.table, (Point.Holds.after l states text depth turns).lexer]
  exact hl

theorem inside_or_outside (turns : Nat) :
    let memo := (Point.after turns (Run.start l states text depth)).run.memo
    Outside memo ∨ ∃ block state, Inside block state memo := by
  induction turns with
  | zero => exact .inl ⟨rfl, rfl⟩
  | succ turns ih =>
    dsimp only at ih ⊢
    rw [Point.after_succ]
    by_cases hopens : ∃ category state,
        (Point.after turns (Run.start l states text depth)).OpensBlock category state
    · obtain ⟨category, state, hopens⟩ := hopens
      exact .inr ⟨_, _, hopens.inside⟩
    · push Not at hopens
      by_cases hlines : ∃ content indent,
          (Point.after turns (Run.start l states text depth)).StartsLine content indent
      · obtain ⟨content, indent, hline⟩ := hlines
        rcases ih with hout | ⟨block, state, hin⟩
        · exact .inl (hline.outside (blockState?_of_outside (hout.line _))).2
        · by_cases hdeeper : isDeeper indent block = true
          · exact .inr ⟨block, state, (hline.inside hin hdeeper).2⟩
          · refine .inl (hline.outside ?_).2
            rw [blockState?_of_inside (hin.line _), if_neg hdeeper]
      · push Not at hlines
        rwa [Point.memo_turn (indents_after hl states text depth turns) hlines hopens]

theorem isLatest_latest (turns : Nat) :
    let point := fun turn => Point.after turn (Run.start l states text depth)
    IsLatest point turns (latest (point turns).run.memo) := by
  intro point
  induction turns with
  | zero => exact .inr ⟨rfl, by simp⟩
  | succ turns ih =>
    have hturn : point (turns + 1) = (point turns).turn := Point.after_succ ..
    rw [hturn]
    by_cases hlines : ∃ content indent, (point turns).StartsLine content indent
    · obtain ⟨content, indent, hline⟩ := hlines
      rw [hline.latest_turn]
      exact .inl ⟨turns, by omega, ⟨content, hline⟩, fun later hlater hafter => by omega⟩
    · push Not at hlines
      have hsame : latest (point turns).turn.run.memo = latest (point turns).run.memo := by
        by_cases hopens : ∃ category state, (point turns).OpensBlock category state
        · obtain ⟨category, state, hopens⟩ := hopens
          exact hopens.latest_turn
        · push Not at hopens
          rw [Point.memo_turn (indents_after hl states text depth turns) hlines hopens]
      have hnone {later : Nat} (hlater : later < turns + 1)
          (h : later < turns → ∀ content indent, ¬(point later).StartsLine content indent) :
          ∀ content indent, ¬(point later).StartsLine content indent := by
        rcases Nat.lt_succ_iff_lt_or_eq.1 hlater with hlt | rfl
        · exact h hlt
        · exact hlines
      rw [hsame]
      rcases ih with ⟨line, hline, hstarts, hlast⟩ | ⟨hnil, hnever⟩
      · exact .inl ⟨line, by omega, hstarts, fun later hlater hafter =>
          hnone hlater fun hlt => hlast later hlt hafter⟩
      · exact .inr ⟨hnil, fun earlier hearlier => hnone hearlier (hnever earlier)⟩

/-- Behind a turn that opens a block, the memo is inside as long as all lines are deeper, and
outside from the first that is not, until the next block is opened. -/
theorem inside_iff_deeper {opening : Nat} {category : Category} {state : String} {turns : Nat} :
    let point := fun turn => Point.after turn (Run.start l states text depth)
    let block := latest (point opening).run.memo
    (point opening).OpensBlock category state → opening < turns →
      NoneOpens point opening turns →
      ((∀ line < turns, opening < line → (point line).LiesDeeper block) ∧
        Inside block state (point turns).run.memo) ∨
      (∃ line < turns, opening < line ∧ ¬(point line).LiesDeeper block) ∧
        Outside (point turns).run.memo := by
  intro point block hopens hlt
  induction turns, hlt using Nat.le_induction with
  | base =>
    intro _
    refine .inl ⟨fun line hline hafter => by omega, ?_⟩
    rw [show point (opening + 1) = (point opening).turn from Point.after_succ ..]
    exact hopens.inside
  | succ turns hlt ih =>
    intro hnone
    have ih := ih fun turn hturn => hnone turn (by omega)
    rw [show point (turns + 1) = (point turns).turn from Point.after_succ ..]
    by_cases hlines : ∃ content indent, (point turns).StartsLine content indent
    · obtain ⟨content, indent, hline⟩ := hlines
      rcases ih with ⟨hall, hin⟩ | ⟨⟨line, hbefore, hafter, hnot⟩, hout⟩
      · by_cases hdeeper : isDeeper indent block = true
        · refine .inl ⟨fun line hbefore hafter => ?_, (hline.inside hin hdeeper).2⟩
          rcases Nat.lt_succ_iff_lt_or_eq.1 hbefore with hbefore | rfl
          · exact hall line hbefore hafter
          · exact hline.liesDeeper_iff.2 hdeeper
        · refine .inr ⟨⟨turns, by omega, by omega, mt hline.liesDeeper_iff.1 hdeeper⟩, ?_⟩
          refine (hline.outside ?_).2
          rw [blockState?_of_inside (hin.line _), if_neg hdeeper]
      · exact .inr ⟨⟨line, by omega, hafter, hnot⟩,
          (hline.outside (blockState?_of_outside (hout.line _))).2⟩
    · push Not at hlines
      have hopens := hnone turns (by omega) (by omega)
      rw [Point.memo_turn (indents_after hl states text depth turns) hlines hopens]
      rcases ih with ⟨hall, hin⟩ | ⟨⟨line, hbefore, hafter, hnot⟩, hout⟩
      · refine .inl ⟨fun line hbefore hafter => ?_, hin⟩
        rcases Nat.lt_succ_iff_lt_or_eq.1 hbefore with hbefore | rfl
        · exact hall line hbefore hafter
        · exact fun content indent hline => absurd hline (hlines content indent)
      · exact .inr ⟨⟨line, by omega, hafter, hnot⟩, hout⟩

/-- The state of a block and its blanks are noted together; and a line behind a rule that opened a
block asks for the block's state exactly if it and all lines since then are deeper than the latest
line before the block, and for its own content otherwise. -/
theorem blocks_last_while_deeper :
    let point : Nat → Point := fun turn => Point.after turn (Run.start l states text depth)
    (∀ turn, (point turn).run.memo.contains stateKey = (point turn).run.memo.contains blockKey) ∧
    ∀ opening category state, (point opening).OpensBlock category state →
      ∃ block, IsLatest point opening block ∧
        ∀ turn content indent, opening < turn → (point turn).StartsLine content indent →
          NoneOpens point opening turn →
          ((∀ line ≤ turn, opening < line → (point line).LiesDeeper block) →
            (point turn).run.asked = [.push state]) ∧
          ∀ line ≤ turn, opening < line → ¬(point line).LiesDeeper block →
            (point turn).run.asked = [.push content] := by
  intro point
  constructor
  · intro turn
    rcases inside_or_outside hl states text depth turn with hout | ⟨block, state, hin⟩
    · simp [point, Memo.contains, hout.block, hout.state]
    · simp [point, Memo.contains, hin.block, hin.state]
  · intro opening category state hopens
    refine ⟨_, isLatest_latest hl states text depth opening, ?_⟩
    intro turn content indent hlt hline hnone
    rcases inside_iff_deeper hl states text depth hopens hlt hnone with
      ⟨hall, hin⟩ | ⟨⟨line, hbefore, hafter, hnot⟩, hout⟩
    · constructor
      · intro hdeeper
        exact (hline.inside hin (hline.liesDeeper_iff.1 (hdeeper turn le_rfl hlt))).1
      · intro line hle hafter hnot
        obtain rfl : line = turn := by
          by_contra hne
          exact hnot (hall line (by omega) hafter)
        refine (hline.outside ?_).1
        rw [blockState?_of_inside (hin.line _), if_neg (mt hline.liesDeeper_iff.2 hnot)]
    · have hasked := (hline.outside (blockState?_of_outside (hout.line _))).1
      exact ⟨fun hdeeper => absurd (hdeeper line (by omega) hafter) hnot, fun _ _ _ _ => hasked⟩

end run

/-- Notes and names in lines; a note goes on in the deeper lines below it. -/
def notesDraft : TableDraft where
  states := [
    ("root", [.pattern "[ \\t]*" (.callback (lineStart "content"))]),
    ("content", [.pattern "//[^\\n]*" (.callback (opensBlock .commentSingle "comment")),
      .emit "[^\\n]+" .name, (Entry.emit "\\n" .text).reset "root"]),
    ("comment", [.emit "[^\\n]+" .commentSingle, (Entry.emit "\\n" .text).reset "root"])]

def notesTable : Table := notesDraft.compile.toOption.get (by decide +kernel)

def notesLexer : Lexer := ⟨⟨"notes", [], [], []⟩, notesTable, [0], none, []⟩

/-- A note, a line that belongs to it, one that does not, and a deeper one that comes too late. -/
def notesPoint (turn : Nat) : Point :=
  Point.after turn
    (Run.start notesLexer [0] ['/', '/', 'a', '\n', ' ', 'b', '\n', 'c', '\n', ' ', 'd'] 0)

theorem actions_notesTable : notesTable.rules.map (·.map (·.action)) =
    [[.callback (lineStart "content")],
      [.callback (opensBlock .commentSingle "comment"), .emit .name, .emit .text],
      [.emit .commentSingle, .emit .text]] := rfl

theorem indents_notesTable : notesTable.Indents := by
  intro rules hrules rule hrule f hf
  have hmem : rule.action ∈ (notesTable.rules.map (·.map (·.action))).flatten :=
    List.mem_flatten.2 ⟨_, List.mem_map_of_mem hrules, List.mem_map_of_mem hrule⟩
  rw [actions_notesTable, hf] at hmem
  simp only [List.flatten_cons, List.flatten_nil, List.mem_append, List.mem_cons, List.not_mem_nil,
    Action.callback.injEq, reduceCtorEq, or_false] at hmem
  rcases hmem with rfl | rfl
  · exact .inl ⟨_, rfl⟩
  · exact .inr ⟨_, _, rfl⟩

theorem fires_notes {turn : Nat} (hpending : (notesPoint turn).run.pending = [])
    (hend : (notesPoint turn).run.cursor.ahead ≠ []) (hcalls : (notesPoint turn).run.plays ≠ []) :
    ((notesPoint turn).run.stack.top = 0 →
      (notesPoint turn).StartsLine "content" (latest (notesPoint turn).turn.run.memo)) ∧
    ((notesPoint turn).run.stack.top = 1 →
      (notesPoint turn).OpensBlock .commentSingle "comment") := by
  obtain ⟨rule, found, f, hwinner, haction⟩ := Run.exists_callback hcalls
  have hmem := List.mem_map_of_mem (f := (·.action)) (Run.firstMatch_some hwinner).1
  have hfires : (notesPoint turn).Fires f found := ⟨hpending, hend, rule, hwinner, haction⟩
  have hlexer : (notesPoint turn).run.lexer = notesLexer := (Point.Holds.after ..).lexer
  rw [Run.table, hlexer, haction] at hmem
  constructor
  · intro htop
    rw [htop, show (notesLexer.table.rulesOf 0).map (·.action) =
      [.callback (lineStart "content")] from rfl] at hmem
    simp at hmem
    subst hmem
    have hline : (notesPoint turn).StartsLine "content" _ := ⟨found, hfires, rfl⟩
    rwa [hline.latest_turn]
  · intro htop
    rw [htop, show (notesLexer.table.rulesOf 1).map (·.action) =
      [.callback (opensBlock .commentSingle "comment"), .emit .name, .emit .text] from rfl] at hmem
    simp at hmem
    subst hmem
    exact ⟨found, hfires⟩

theorem blocks_last_while_deeper_notes :
    notesLexer.table.Indents ∧ (notesPoint 1).OpensBlock .commentSingle "comment" ∧
      (notesPoint 5).StartsLine "content" [' '] ∧ (notesPoint 16).StartsLine "content" [' '] ∧
      NoneOpens notesPoint 1 16 ∧ (∀ line ≤ 5, 1 < line → (notesPoint line).LiesDeeper []) ∧
      ¬(notesPoint 11).LiesDeeper [] ∧
      (notesPoint 5).run.asked = [.push "comment"] ∧
      (notesPoint 16).run.asked = [.push "content"] := by
  have hopens : (notesPoint 1).OpensBlock .commentSingle "comment" :=
    (fires_notes (by decide +kernel) (by decide +kernel) (by decide +kernel)).2 (by decide +kernel)
  have hline {turn : Nat} {indent : List Char}
      (h : (notesPoint turn).run.pending = [] ∧ (notesPoint turn).run.cursor.ahead ≠ [] ∧
        (notesPoint turn).run.plays ≠ [] ∧ (notesPoint turn).run.stack.top = 0 ∧
        latest (notesPoint turn).turn.run.memo = indent) :
      (notesPoint turn).StartsLine "content" indent := by
    obtain ⟨hpending, hend, hcalls, htop, rfl⟩ := h
    exact (fires_notes hpending hend hcalls).1 htop
  have hnone : NoneOpens notesPoint 1 16 := by
    have hasks : ∀ turn < 16, 1 < turn →
        (notesPoint turn).run.plays = [] ∨ (notesPoint turn).run.asked ≠ [] := by decide +kernel
    intro turn hlt hafter category state hopens
    exact (hasks turn hlt hafter).elim hopens.asked.1 (· hopens.asked.2)
  have hdeeper : ∀ line ≤ 5, 1 < line → (notesPoint line).LiesDeeper [] := by
    have hlatest : ∀ line ≤ 5, 1 < line → (notesPoint line).run.pending = [] →
        (notesPoint line).run.plays ≠ [] → latest (notesPoint line).turn.run.memo ≠ [] := by
      decide +kernel
    intro line hle hafter content indent h
    obtain ⟨stop, hcalls⟩ := h.calls
    have hne := hlatest line hle hafter h.choose_spec.1.pending (by simp [hcalls])
    rw [h.latest_turn] at hne
    exact ⟨List.nil_prefix, hne.symm⟩
  have hleft : ¬(notesPoint 11).LiesDeeper [] := fun hdeeper =>
    (hdeeper "content" [] (hline (by decide +kernel))).2 rfl
  have hfirst : (notesPoint 5).StartsLine "content" [' '] := hline (by decide +kernel)
  have hlate : (notesPoint 16).StartsLine "content" [' '] := hline (by decide +kernel)
  obtain ⟨-, hblocks⟩ := blocks_last_while_deeper (l := notesLexer) indents_notesTable [0]
    ['/', '/', 'a', '\n', ' ', 'b', '\n', 'c', '\n', ' ', 'd'] 0
  obtain ⟨block, hblock, hlines⟩ := hblocks 1 _ _ hopens
  obtain rfl : block = [] := by
    rcases hblock with ⟨line, hlt, ⟨content, hstarts⟩, -⟩ | ⟨hnil, -⟩
    · obtain rfl : line = 0 := by omega
      have hzero : (notesPoint 0).StartsLine "content" [] := hline (by decide +kernel)
      exact hzero.unique hstarts
    · exact hnil
  have hdeeperAsks := (hlines 5 _ _ (by omega) hfirst fun turn hlt => hnone turn (by omega)).1
  have hlateAsks := (hlines 16 _ _ (by omega) hlate hnone).2 11 (by omega) (by omega) hleft
  exact ⟨indents_notesTable, hopens, hfirst, hlate, hnone, hdeeper, hleft, hdeeperAsks hdeeper,
    hlateAsks⟩

end Indentation

end RuleLexer
