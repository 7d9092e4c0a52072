import Mathlib.Logic.Function.Iterate
import RuleLexer.Proofs.Drain

/-! Points of a run. A run makes turns: it gives out the next pending token or, when none is
pending, scans once more, until its text is at an end. A point is what so many turns lead to; it
remembers the tokens that were given out and counts the scans. What holds at every point is derived
here once, from what a single step does. -/
namespace RuleLexer
open RuleLexer.Text RuleLexer.Coverage

structure Point where
  run : Run
  /-- Given out so far. -/
  taken : List Token := []
  scans : Nat := 0
  /-- Scans in a row, up to the last one, that stayed where they were. -/
  stays : Nat := 0

namespace Point

def turn (p : Point) : Point :=
  match p.run.pending with
  | t :: pending =>
      { p with
        run := { p.run with pending }
        taken := p.taken ++ [p.run.lexer.recategorise t] }
  | [] =>
      if p.run.cursor.atEnd then p
      else
        { p with
          run := p.run.scan
          scans := p.scans + 1
          stays := if p.run.scan.position = p.run.position then p.stays + 1 else 0 }

def after (turns : Nat) (r : Run) : Point := turn^[turns] { run := r }

theorem after_succ (turns : Nat) (r : Run) : after (turns + 1) r = (after turns r).turn :=
  Function.iterate_succ_apply' ..

section turn
variable {p : Point}

theorem turn_of_pending {t : Token} {pending : List Token} (h : p.run.pending = t :: pending) :
    p.turn =
      { p with
        run := { p.run with pending }
        taken := p.taken ++ [p.run.lexer.recategorise t] } := by
  rw [turn, h]

theorem turn_of_done (hpending : p.run.pending = []) (hend : p.run.cursor.ahead = []) :
    p.turn = p := by
  simp [turn, hpending, Cursor.atEnd, hend]

theorem turn_of_scan (hpending : p.run.pending = []) (hend : p.run.cursor.ahead ≠ []) :
    p.turn =
      { p with
        run := p.run.scan
        scans := p.scans + 1
        stays := if p.run.scan.position = p.run.position then p.stays + 1 else 0 } := by
  simp [turn, hpending, Cursor.atEnd, hend]

end turn

/-- What giving out a token and scanning keep holds of the run at every point. -/
theorem after_induction {P : Run → Prop} {r : Run} (start : P r)
    (give : ∀ (r : Run) (pending : List Token), P r → P { r with pending })
    (scan : ∀ r : Run, r.pending = [] → r.cursor.ahead ≠ [] → P r → P r.scan) (turns : Nat) :
    P (after turns r).run := by
  induction turns with
  | zero => exact start
  | succ turns ih =>
    rw [after_succ]
    cases hpending : (after turns r).run.pending with
    | cons t pending =>
      rw [turn_of_pending hpending]
      exact give _ pending ih
    | nil =>
      by_cases hend : (after turns r).run.cursor.ahead = []
      · rwa [turn_of_done hpending hend]
      · rw [turn_of_scan hpending hend]
        exact scan _ hpending hend ih

/-- What holds at every point of a run of a lexer over a text. -/
structure Holds (l : Lexer) (text : List Char) (depth : Nat) (p : Point) : Prop where
  lexer : p.run.lexer = l
  depth : p.run.depth = depth
  passes : (Cursor.start text).Passes p.run.cursor.passed.reverse p.run.cursor
  covers : Covers 0 p.run.cursor.passed.reverse (p.taken ++ p.run.pending)
  stays : p.run.zeroSteps = p.stays
  steady : p.run.Steady
  scans : p.scans + p.run.stepsLeft ≤ (maxZeroSteps + 1) * text.length

namespace Holds
variable {l : Lexer} {text : List Char} {depth : Nat} {p : Point}

theorem start (l : Lexer) (states : List StateId) (text : List Char) (depth : Nat) :
    Holds l text depth { run := Run.start l states text depth } where
  lexer := rfl
  depth := rfl
  passes := .refl _
  covers := .nil 0
  stays := rfl
  steady := Run.steady_start l states text depth
  scans := by simp [Run.stepsLeft, Run.start, Cursor.start]

theorem give (h : Holds l text depth p) {t : Token} {pending : List Token}
    (hpending : p.run.pending = t :: pending) : Holds l text depth p.turn := by
  rw [turn_of_pending hpending]
  exact { h with covers := h.covers.congr (by simp [hpending]) }

theorem scan (h : Holds l text depth p) (hpending : p.run.pending = [])
    (hend : p.run.cursor.ahead ≠ []) : Holds l text depth p.turn := by
  obtain ⟨piece, hstep⟩ := Run.steps_scan hend
  have hcursor := hstep.passes
  have hpassed : p.run.scan.cursor.passed.reverse = p.run.cursor.passed.reverse ++ piece := by
    rw [hcursor.passed, List.reverse_append, List.reverse_reverse]
  rw [turn_of_scan hpending hend]
  refine ⟨hstep.lexer.trans h.lexer, hstep.depth.trans h.depth, ?_, ?_, ?_, hstep.steady, ?_⟩
  · rw [hpassed]
    exact h.passes.trans hcursor
  · obtain ⟨tokens, hgiven, hcovers⟩ := hstep.tokens
    rw [hpassed, hgiven, hpending, List.nil_append]
    have htaken := h.covers
    rw [hpending, List.append_nil] at htaken
    refine htaken.append ?_
    have hplace := h.passes.offset
    rw [Cursor.start] at hplace
    exact hplace ▸ hcovers
  · by_cases hpiece : piece = []
    · subst hpiece
      have hstill : p.run.scan.position = p.run.position := by
        rw [Run.position, hcursor.eq_of_nil, Run.position]
      rw [(hstep.stays rfl).1, h.stays, if_pos hstill]
    · have hmoved : p.run.scan.position ≠ p.run.position :=
        Nat.ne_of_gt (hcursor.offset_lt hpiece)
      rw [hstep.moves hpiece, if_neg hmoved]
  · have hless := hstep.stepsLeft_lt h.steady hend
    have hscans := h.scans
    show p.scans + 1 + p.run.scan.stepsLeft ≤ _
    omega

theorem turn (h : Holds l text depth p) : Holds l text depth p.turn := by
  cases hpending : p.run.pending with
  | cons t pending => exact h.give hpending
  | nil =>
    by_cases hend : p.run.cursor.ahead = []
    · rwa [turn_of_done hpending hend]
    · exact h.scan hpending hend

theorem iterate (h : Holds l text depth p) (turns : Nat) :
    Holds l text depth (Point.turn^[turns] p) := by
  induction turns with
  | zero => exact h
  | succ turns ih =>
    rw [Function.iterate_succ_apply']
    exact ih.turn

theorem after (l : Lexer) (states : List StateId) (text : List Char) (depth turns : Nat) :
    Holds l text depth (Point.after turns (Run.start l states text depth)) :=
  (start l states text depth).iterate turns

theorem next? (h : Holds l text depth p) {t : Token} {r : Run}
    (hnext : p.run.next? = some (t, r)) :
    ∃ turns, (Point.turn^[turns] p).run = r ∧ (Point.turn^[turns] p).taken = p.taken ++ [t] := by
  induction hleft : p.run.stepsLeft using Nat.strongRecOn generalizing p with
  | ind left ih =>
    cases hpending : p.run.pending with
    | cons u pending =>
      rw [Run.next?_of_pending hpending] at hnext
      cases hnext
      exact ⟨1, by simp [turn_of_pending hpending]⟩
    | nil =>
      have hend : p.run.cursor.ahead ≠ [] := fun hend => by
        simp [Run.next?_of_done hpending hend] at hnext
      obtain ⟨piece, hstep⟩ := Run.steps_scan hend
      have hless := hstep.stepsLeft_lt h.steady hend
      have hturn := turn_of_scan hpending hend
      have hrun : p.turn.run = p.run.scan := by rw [hturn]
      have htaken : p.turn.taken = p.taken := by rw [hturn]
      rw [← Run.next?_scan hpending hend, ← hrun] at hnext
      rw [← hrun, hleft] at hless
      obtain ⟨turns, hr, ht⟩ := ih _ hless h.turn hnext rfl
      exact ⟨turns + 1, hr, htaken ▸ ht⟩

theorem history (h : Holds l text depth p) {limit i : Nat} {t : Token} {r : Run}
    (hentry : (p.run.history limit)[i]? = some (t, r)) :
    ∃ turns, (Point.turn^[turns] p).run = r ∧ (Point.turn^[turns] p).taken =
      p.taken ++ ((p.run.history limit).take (i + 1)).map Prod.fst := by
  induction limit generalizing p i with
  | zero => simp [Run.history] at hentry
  | succ limit ih =>
    cases hnext : p.run.next? with
    | none => simp [Run.history, hnext] at hentry
    | some entry =>
      obtain ⟨u, s⟩ := entry
      obtain ⟨turns, hrun, htaken⟩ := h.next? hnext
      simp only [Run.history, hnext] at hentry ⊢
      cases i with
      | zero =>
        cases hentry
        exact ⟨turns, hrun, by simpa using htaken⟩
      | succ i =>
        rw [List.getElem?_cons_succ, ← hrun] at hentry
        obtain ⟨more, hr, ht⟩ := ih (h.iterate turns) hentry
        rw [← Function.iterate_add_apply] at hr ht
        refine ⟨more + turns, hr, ?_⟩
        rw [ht, htaken, hrun]
        simp

end Holds

end Point

end RuleLexer
