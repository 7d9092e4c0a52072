import RuleLexer.Proofs.Binding
import RuleLexer.Proofs.Played
import RuleLexer.Proofs.StackSafety

/-! States that callbacks name. A callback may take the name of a state from the memo, where an
earlier one has left it, so what it names is known only as long as the memo keeps to a form which
all callbacks of the table preserve. Then no run of the lexer, and no run within one, asks for a
state that is not there. -/
namespace RuleLexer
open RuleLexer.Text RuleLexer.Coverage

/-- Played where the memo has this form, a script names known states only, and leaves a memo that
has the form again. -/
inductive Script.Asks (names : List String) (form : Memo → Prop) : Memo → Script → Prop
  | done {memo : Memo} (h : form memo) : Asks names form memo .done
  | call {memo : Memo} {c : Call} {next : View → Reply → Script}
      (known : ∀ state ∈ c.state?, state ∈ names)
      (later : ∀ view reply, view.memo = c.memo memo → Asks names form (c.memo memo)
        (next view reply)) : Asks names form memo (.call c next)

def TableOf.Asks (t : Table) (form : Memo → Prop) : Prop :=
  ∀ rules ∈ t.rules, ∀ rule ∈ rules, ∀ f, rule.action = .callback f →
    ∀ found place view, form view.memo →
      (f found place view).Asks t.names form view.memo

/-- No callback of the lexer, or of one that it hands text to, names a state that is not there. -/
inductive Lexer.Asks : Lexer → Prop
  | intro {l : Lexer} {form : Memo → Prop} (empty : form .empty) (own : l.table.Asks form)
      (others : ∀ rules ∈ l.table.rules, ∀ rule ∈ rules, ∀ other states?,
        rule.action.HandsTo (.lexer other states?) → Asks other) : Asks l

namespace Session
variable {s : Session} {form : Memo → Prop} {memo : Memo}

theorem play_asks {script : Script} (h : script.Asks s.run.table.names form memo)
    (hmemo : s.run.memo = memo) : form (s.play script).run.memo ∧
      ∀ span state, .unknownState span state ∈ (s.play script).run.notices →
        .unknownState span state ∈ s.run.notices := by
  generalize hnames : s.run.table.names = names at h
  induction h generalizing s with
  | done h => exact ⟨hmemo ▸ h, fun _ _ h => h⟩
  | @call memo c next known _ ih =>
    have hlater := s.memo_perform c
    rw [hmemo] at hlater
    obtain ⟨hform, hnoted⟩ := ih (s.perform c).1.view (s.perform c).2 hlater hlater
      (by rw [(s.changes_perform c).table, hnames])
    refine ⟨hform, fun span state h => ?_⟩
    rcases (s.adds_perform c).mem (hnoted span state h) with h | h
    · exact h
    · cases h with
      | unknown asked hnone =>
        rw [TableOf.stateId?, hnames, List.idxOf?_eq_none_iff] at hnone
        exact absurd (known state asked) hnone

end Session

namespace Run
variable {r : Run} {form : Memo → Prop}

theorem memo_fallback (r : Run) : r.fallback.memo = r.memo := by
  cases hahead : r.cursor.ahead with
  | nil => rw [fallback, hahead]
  | cons c rest => rw [fallback_eq hahead]

theorem memo_settle (r : Run) (next : Cursor) (generation : Nat) :
    (r.settle next generation).memo = r.memo := by
  rcases r.settle_cases next generation with ⟨-, _, _, h⟩ | ⟨_, -, zeroSteps, h⟩
  · rw [h]
  · rw [h, memo_fallback, warn_eq]

theorem act_asks (hform : form r.memo) (ht : r.table.Asks form) {rule : CompiledRule}
    {found : Match} (hwinner : r.winner? = some (rule, found)) {f : Callback}
    (haction : rule.action = .callback f) (runner? : Option Runner) :
    form (r.act runner? rule.action found).1.memo ∧
      ∀ span state, .unknownState span state ∈ (r.act runner? rule.action found).1.notices →
        .unknownState span state ∈ r.notices := by
  obtain ⟨rules, hrules, hrule⟩ := exists_rules_of_winner hwinner
  let s : Session := ⟨r, r.cursor, r.cursor.seek found.stop⟩
  have hasks := ht rules hrules rule hrule f haction found r.cursor s.view hform
  obtain ⟨hmemo, hnoted⟩ := Session.play_asks (s := s) hasks rfl
  rw [haction]
  constructor
  · show form ((s.play _).emit _ _).run.memo
    rw [Session.emit_run]
    exact hmemo
  · intro span state hmem
    have hmem : .unknownState span state ∈ ((s.play (f found r.cursor s.view)).emit
      (s.play (f found r.cursor s.view)).position.offset .text).run.notices := hmem
    rw [Session.notices_emit] at hmem
    exact hnoted span state hmem

theorem form_scan (hform : form r.memo) (ht : r.table.Asks form) : form r.scan.memo := by
  cases hwinner : r.winner? with
  | none =>
    rw [Run.scan, step_eq, hwinner]
    exact r.memo_fallback ▸ hform
  | some winner =>
    obtain ⟨rule, found⟩ := winner
    rw [scan_of_winner hwinner, memo_settle, follow_eq]
    by_cases hcallback : ∃ f, rule.action = .callback f
    · obtain ⟨f, hf⟩ := hcallback
      exact (act_asks hform ht hwinner hf _).1
    · rw [act_eq _ _ _ _ fun f hf => hcallback ⟨f, hf⟩, putAll_eq]
      exact hform

structure Informed (form : Memo → Prop) (r : Run) : Prop where
  memo : form r.memo
  known : ∀ span state, .unknownState span state ∉ r.notices

theorem Informed.scan (h : r.Informed form) (ht : r.table.Asks form) (hend : r.cursor.ahead ≠ [])
    (hinner : ∀ inner ∈ r.nested, ∀ span state, .unknownState span state ∉ inner.played.2) :
    r.scan.Informed form := by
  refine ⟨form_scan h.memo ht, fun span state hmem => ?_⟩
  rcases (adds_scan hend).mem hmem with hmem | hnotes
  · exact h.known span state hmem
  · cases hnotes with
    | callback winner action _ noted =>
      exact h.known span state ((act_asks h.memo ht winner action _).2 span state noted)
    | nested started noted => exact hinner _ (mem_nested_of_nestedAt started) span state noted

end Run

structure Point.Asks (r : Run) (p : Point) : Prop where
  lexer : p.run.lexer = r.lexer
  known : Lexer.Asks r.lexer
  informed : ∃ form, r.table.Asks form ∧ p.run.Informed form

namespace Lexer.Asks

theorem nested {r inner : Run} (h : Lexer.Asks r.lexer) (hinner : inner ∈ r.nested) :
    Lexer.Asks inner.lexer := by
  obtain ⟨-, job, hjob, rfl⟩ := Run.mem_nested hinner
  rw [Run.jobs] at hjob
  split at hjob
  · cases hjob
  · next rule found hwinner =>
    obtain ⟨p, hp, hjob⟩ := List.mem_filterMap.1 hjob
    obtain ⟨target, hfate, -, rfl⟩ := Piece.mem_job?_iff.1 hjob
    cases target with
    | this states? => exact h
    | lexer l states? =>
      cases h with
      | intro _ _ others =>
        obtain ⟨rules, hrules, hrule⟩ := Run.exists_rules_of_winner hwinner
        exact others rules hrules rule hrule l states? (Run.handsTo_of_mem_pieces hp hfate)

theorem start {l : Lexer} (h : Lexer.Asks l) (states : List StateId) (text : List Char)
    (depth : Nat) :
    Point.Asks (Run.start l states text depth) { run := Run.start l states text depth } := by
  cases h with
  | @intro _ form empty own others =>
    refine ⟨rfl, .intro empty own others, form, own, empty, fun _ _ hmem => ?_⟩
    cases hmem

end Lexer.Asks

namespace Point.Asks
variable {r : Run} {p : Point}

theorem give (h : p.Asks r) {t : Token} {pending : List Token}
    (hpending : p.run.pending = t :: pending) : p.turn.Asks r := by
  obtain ⟨hlexer, hknown, form, hform, hmemo, hquiet⟩ := h
  rw [turn_of_pending hpending]
  exact ⟨hlexer, hknown, form, hform, hmemo, hquiet⟩

theorem scan (h : p.Asks r) (hpending : p.run.pending = []) (hend : p.run.cursor.ahead ≠ [])
    (hinner : ∀ inner ∈ p.run.nested, ∀ more, (after more inner).Asks inner) :
    p.turn.Asks r := by
  obtain ⟨hlexer, hknown, form, hform, hinformed⟩ := h
  obtain ⟨_, hstep⟩ := Run.steps_scan hend
  rw [turn_of_scan hpending hend]
  refine ⟨hstep.lexer.trans hlexer, hknown, form, hform, ?_⟩
  refine hinformed.scan (by rwa [Run.table, hlexer]) hend fun inner hstarted span state hmem => ?_
  have hpoints := hinner inner hstarted
  obtain ⟨-, job, -, rfl⟩ := Run.mem_nested hstarted
  obtain ⟨more, -, -, hnotices⟩ :=
    Run.exists_turns_played job.lexer job.states job.text (p.run.depth + 1)
  obtain ⟨-, -, _, -, hlast⟩ := hpoints more
  exact hlast.known span state (hnotices ▸ hmem)

end Point.Asks

theorem unknownState_not_noted {l : Lexer} (hl : Lexer.Asks l) (states : List StateId)
    (text : List Char) (depth : Nat) (span : Span) (state : String) :
    .unknownState span state ∉ (Run.start l states text depth).complete.2.notices := by
  obtain ⟨turns, -, -, hrun⟩ := Run.exists_turns_complete l states text depth
  have hpoint : (Point.after turns (Run.start l states text depth)).Asks
      (Run.start l states text depth) := Point.start_induction (K := fun r => Lexer.Asks r.lexer)
    (Q := fun r p => p.Asks r)
    (fun l states text depth hl => Lexer.Asks.start hl states text depth)
    (fun r p t pending hpending h => h.give hpending)
    (fun r p h inner hinner => (h.lexer ▸ h.known).nested hinner)
    (fun r turns hpending hend h hinner => h.scan hpending hend hinner) hl turns
  obtain ⟨-, -, _, -, hinformed⟩ := hpoint
  exact hrun ▸ hinformed.known span state

end RuleLexer
