import Mathlib.Data.List.Chain
import RuleLexer.Proofs.Notices

/-! The end of a run. A run that is played at once, as the runs within others are, and one that is
asked for its tokens one by one come to the same last point, and nothing that was noted on the way
is missing there. -/
namespace RuleLexer
open RuleLexer.Text RuleLexer.Coverage

namespace Point

structure Done (p : Point) : Prop where
  pending : p.run.pending = []
  atEnd : p.run.cursor.ahead = []

theorem Done.iterate {p : Point} (h : p.Done) (turns : Nat) : turn^[turns] p = p :=
  Function.iterate_fixed (turn_of_done h.pending h.atEnd) turns

theorem Done.after_eq {r : Run} {turns more : Nat} (h : (after turns r).Done)
    (hle : turns ≤ more) : after more r = after turns r := by
  obtain ⟨extra, rfl⟩ := Nat.exists_eq_add_of_le' hle
  have hsame : turn^[extra] (after turns r) = after turns r := h.iterate extra
  rwa [after, ← Function.iterate_add_apply] at hsame

theorem Done.unique {r : Run} {turns more : Nat} (h : (after turns r).Done)
    (h' : (after more r).Done) : after turns r = after more r := by
  have hfirst : turn^[more] (after turns r) = after turns r := h.iterate more
  have hsecond : turn^[turns] (after more r) = after more r := h'.iterate turns
  rw [after, ← Function.iterate_add_apply] at hfirst hsecond
  rw [after, ← hfirst, Nat.add_comm, hsecond]
  rfl

theorem exists_turns_taken (p : Point) : ∃ turns, turn^[turns] p =
    { p with run := { p.run with pending := [] }, taken := p.taken ++ p.run.ready } := by
  obtain ⟨run, taken, scans, stays⟩ := p
  induction hpending : run.pending generalizing run taken with
  | nil =>
    have hsame : ({ run with pending := [] } : Run) = run := by rw [← hpending]
    exact ⟨0, by simp [Run.ready, hpending, hsame]⟩
  | cons t pending ih =>
    obtain ⟨turns, hturns⟩ :=
      ih { run with pending } (taken ++ [run.lexer.recategorise t]) rfl
    refine ⟨turns + 1, ?_⟩
    rw [Function.iterate_succ_apply, turn_of_pending hpending, hturns]
    simp [Run.ready, hpending]

theorem exists_turns_drain {p : Point} {fuel : Nat} (hsteady : p.run.Steady)
    (hfuel : p.run.stepsLeft < fuel) : ∃ turns, (turn^[turns] p).Done ∧
      (turn^[turns] p).taken = p.taken ++ (Run.drain (Run.runner? p.run.levels) fuel p.run).1 ∧
      (turn^[turns] p).run.notices = (Run.drain (Run.runner? p.run.levels) fuel p.run).2 := by
  obtain ⟨turns, hturns⟩ := p.exists_turns_taken
  induction fuel generalizing p turns with
  | zero => omega
  | succ fuel ih =>
    by_cases hend : p.run.cursor.ahead = []
    · rw [Run.drain_of_atEnd hend]
      exact ⟨turns, by rw [hturns]; exact ⟨rfl, hend⟩, by rw [hturns], by rw [hturns]⟩
    · rw [Run.drain_succ hend]
      let q : Point :=
        { p with run := { p.run with pending := [] }, taken := p.taken ++ p.run.ready }
      have hturn := turn_of_scan (p := q) rfl hend
      obtain ⟨piece, hstep⟩ := Run.steps_scan (r := q.run) hend
      have hless : q.run.scan.stepsLeft < p.run.stepsLeft := hstep.stepsLeft_lt hsteady hend
      have hlevels : q.turn.run.levels = p.run.levels := by
        rw [hturn]
        exact hstep.levels
      obtain ⟨more, hmore⟩ := q.turn.exists_turns_taken
      obtain ⟨later, hdone, htaken, hnotices⟩ :=
        ih (p := q.turn) (by rw [hturn]; exact hstep.steady)
          (by rw [hturn]; show q.run.scan.stepsLeft < fuel; omega) more hmore
      rw [hlevels] at htaken hnotices
      have hafter : turn^[later + 1 + turns] p = turn^[later] q.turn := by
        rw [Function.iterate_add_apply, hturns, Function.iterate_add_apply]
        rfl
      refine ⟨later + 1 + turns, ?_, ?_, ?_⟩
      · rwa [hafter]
      · rw [hafter, htaken, hturn, ← List.append_assoc]
        rfl
      · rw [hafter, hnotices, hturn]
        rfl

/-- What holds at every point of every run of a kind: it holds at the start, giving out a token
keeps it, and so does a scan when it holds at all points of the runs that the scan starts, which are
of the kind, too. -/
theorem start_induction {K : Run → Prop} {Q : Run → Point → Prop}
    (start : ∀ l states text depth, K (Run.start l states text depth) →
      Q (Run.start l states text depth) { run := Run.start l states text depth })
    (give : ∀ r p t pending, p.run.pending = t :: pending → Q r p → Q r p.turn)
    (nested : ∀ r p, Q r p → ∀ inner ∈ p.run.nested, K inner)
    (scan : ∀ r turns, (after turns r).run.pending = [] → (after turns r).run.cursor.ahead ≠ [] →
      Q r (after turns r) →
      (∀ inner ∈ (after turns r).run.nested, ∀ more, Q inner (after more inner)) →
      Q r (after turns r).turn)
    {l : Lexer} {states : List StateId} {text : List Char} {depth : Nat}
    (kind : K (Run.start l states text depth)) (turns : Nat) :
    Q (Run.start l states text depth) (after turns (Run.start l states text depth)) := by
  -- a run within has a level less, and within one run the induction is on the turns
  induction hlevels : maxDelegation - depth using Nat.strongRecOn
    generalizing l states text depth turns with
  | ind levels ihlevels =>
    induction turns with
    | zero => exact start _ _ _ _ kind
    | succ turns ih =>
      rw [after_succ]
      cases hpending : (after turns (Run.start l states text depth)).run.pending with
      | cons t pending => exact give _ _ t pending hpending ih
      | nil =>
        by_cases hend : (after turns (Run.start l states text depth)).run.cursor.ahead = []
        · rw [turn_of_done hpending hend]
          exact ih
        · refine scan _ turns hpending hend ih fun inner hinner more => ?_
          have hkind := nested _ _ ih inner hinner
          obtain ⟨hdepth, job, -, rfl⟩ := Run.mem_nested hinner
          rw [(Holds.after l states text depth turns).depth] at hdepth hkind ⊢
          exact ihlevels _ (by omega) hkind more rfl

theorem notices_iterate {p : Point} {n : Notice} (hn : n ∈ p.run.notices) (turns : Nat) :
    n ∈ (turn^[turns] p).run.notices := by
  induction turns with
  | zero => exact hn
  | succ turns ih =>
    rw [Function.iterate_succ_apply']
    cases hpending : (turn^[turns] p).run.pending with
    | cons t pending =>
      rw [turn_of_pending hpending]
      exact ih
    | nil =>
      by_cases hend : (turn^[turns] p).run.cursor.ahead = []
      · rwa [turn_of_done hpending hend]
      · rw [turn_of_scan hpending hend]
        exact (Run.adds_scan hend).subset ih

end Point

namespace Run

section ends
variable (l : Lexer) (states : List StateId) (text : List Char) (depth : Nat)

theorem exists_turns_played : let r := start l states text depth
    ∃ turns, (Point.after turns r).Done ∧ (Point.after turns r).taken = r.played.1 ∧
      (Point.after turns r).run.notices = r.played.2 :=
  Point.exists_turns_drain (steady_start l states text depth) (stepsLeft_lt_stepBound _)

theorem tokens_eq_played : let r := start l states text depth
    r.tokens = r.played.1 :=
  tokens_eq_drain (steady_start l states text depth) (stepsLeft_lt_stepBound _)

theorem exists_turns_complete : let r := start l states text depth
    ∃ turns, (Point.after turns r).Done ∧ (Point.after turns r).taken = r.complete.1 ∧
      (Point.after turns r).run = r.complete.2 := by
  intro r
  have hr := Point.Holds.start l states text depth
  have hsteady := steady_start l states text depth
  have hcount : r.tokens.length ≤ r.tokenBound := by
    rw [tokens_eq_drain hsteady (stepsLeft_lt_stepBound r)]
    exact length_drain_le hsteady (stepsLeft_lt_stepBound r)
  have hnone := (gives_tokens hsteady).next?_getLast hcount
  obtain ⟨turns, htaken, hrun⟩ : ∃ turns, (Point.after turns r).taken = r.complete.1 ∧
      (Point.after turns r).run = r.complete.2 := by
    cases hlast : (r.history r.tokenBound).getLast? with
    | none =>
      have hnil := List.getLast?_eq_none_iff.1 hlast
      exact ⟨0, by simp [complete, hnil, Point.after], by simp [complete, hnil, Point.after]⟩
    | some last =>
      obtain ⟨t, s⟩ := last
      rw [List.getLast?_eq_getElem?] at hlast
      obtain ⟨turns, hrun, htaken⟩ := hr.history hlast
      have hbound := (List.getElem?_eq_some_iff.1 hlast).1
      have hwhole : (r.history r.tokenBound).take ((r.history r.tokenBound).length - 1 + 1) =
          r.history r.tokenBound := List.take_of_length_le (by omega)
      refine ⟨turns, htaken.trans (congrArg (List.map Prod.fst) hwhole), ?_⟩
      rw [complete, List.getLast?_eq_getElem?, hlast]
      exact hrun
  refine ⟨turns, ?_, htaken, hrun⟩
  have hlater := (hr.iterate turns).steady
  have hpoint : (Point.turn^[turns] { run := r }).run = r.complete.2 := hrun
  rw [hpoint] at hlater
  obtain ⟨hpending, hend⟩ := (next?_eq_none_iff hlater).1 hnone
  exact ⟨hrun ▸ hpending, hrun ▸ hend⟩

theorem played_eq_complete : let r := start l states text depth
    r.played = (r.complete.1, r.complete.2.notices) := by
  intro r
  obtain ⟨turns, hdone, htaken, hnotices⟩ := exists_turns_played l states text depth
  obtain ⟨more, hdone', htaken', hrun⟩ := exists_turns_complete l states text depth
  rw [hdone.unique hdone'] at htaken hnotices
  rw [← htaken', ← hrun, htaken, hnotices]

theorem mem_complete_of_after {turns : Nat} {n : Notice} : let r := start l states text depth
    n ∈ (Point.after turns r).run.notices → n ∈ r.complete.2.notices := by
  intro r hn
  obtain ⟨more, hdone, -, hrun⟩ := exists_turns_complete l states text depth
  have hlater := Point.notices_iterate hn more
  have hsame : Point.turn^[more] (Point.after turns r) = Point.after more r := by
    rw [Point.after, ← Function.iterate_add_apply, Nat.add_comm, Function.iterate_add_apply]
    exact hdone.iterate turns
  rwa [hsame, hrun] at hlater

end ends

end Run

namespace Point

/-- A run comes to every place of its text that no scan goes on over. -/
theorem exists_passed {l : Lexer} {states : List StateId} {text : List Char} {depth : Nat}
    {R : Char → Char → Prop} {before behind : List Char} (hsplit : text = before ++ behind)
    (hcut : ∀ c ∈ before.getLast?, ∀ d ∈ behind.head?, ¬R c d) :
    let r := Run.start l states text depth
    (∀ turns, (after turns r).run.pending = [] → (after turns r).run.cursor.ahead ≠ [] →
      ∃ piece, piece.IsChain R ∧
        (after turns r).run.cursor.Passes piece (after turns r).run.scan.cursor) →
    ∃ turns, (after turns r).run.cursor.passed.reverse = before := by
  intro r hscan
  have htext : ∀ turns, (after turns r).run.cursor.passed.reverse <+: text := fun turns =>
    ⟨_, (Holds.after l states text depth turns).passes.ahead.symm⟩
  have hall : ∀ turns, (∃ turns, (after turns r).run.cursor.passed.reverse = before) ∨
      (after turns r).run.cursor.passed.reverse <+: before := by
    intro turns
    induction turns with
    | zero => exact .inr List.nil_prefix
    | succ turns ih =>
      refine ih.elim .inl fun hpassed => ?_
      have hnext := htext (turns + 1)
      rw [after_succ] at hnext ⊢
      cases hpending : (after turns r).run.pending with
      | cons u pending =>
        rw [turn_of_pending hpending]
        exact .inr hpassed
      | nil =>
        by_cases hend : (after turns r).run.cursor.ahead = []
        · rw [turn_of_done hpending hend]
          exact .inr hpassed
        · obtain ⟨piece, hchain, hpasses⟩ := hscan turns hpending hend
          rw [turn_of_scan hpending hend] at hnext ⊢
          dsimp only at hnext ⊢
          rw [hpasses.passed, List.reverse_append, List.reverse_reverse] at hnext ⊢
          obtain ⟨first, rfl⟩ := hpassed
          rcases List.prefix_or_prefix_of_prefix hnext (hsplit ▸ List.prefix_append _ _) with h | h
          · exact .inr h
          · obtain ⟨second, hsecond⟩ := h
            rw [List.append_assoc, List.append_cancel_left_eq] at hsecond
            subst hsecond
            obtain ⟨rest, hrest⟩ := hnext
            rw [hsplit, List.append_assoc, List.append_assoc, List.append_assoc,
              List.append_cancel_left_eq, List.append_cancel_left_eq] at hrest
            rcases List.eq_nil_or_concat first with rfl | ⟨front, c, rfl⟩
            · exact .inl ⟨turns, (List.append_nil _).symm⟩
            · cases second with
              | nil => exact .inr ⟨[], by simp⟩
              | cons d second =>
                refine absurd ((List.isChain_append.1 hchain).2.2 c (by simp) d (by simp)) ?_
                exact hcut c (by simp) d (by rw [← hrest]; rfl)
  obtain ⟨turns, hdone, -⟩ := Run.exists_turns_played l states text depth
  refine (hall turns).elim id fun h => ⟨turns, h.eq_of_length_le ?_⟩
  have hpasses := (Holds.after l states text depth turns).passes.ahead
  rw [hdone.atEnd, List.append_nil] at hpasses
  rw [← hpasses]
  exact List.IsPrefix.length_le ⟨behind, hsplit.symm⟩

end Point

end RuleLexer
