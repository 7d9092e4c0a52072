import RuleLexer.Proofs.Step

/-! Runs to their end. The steps left to a run fall with each step, so the bounds that runs are
played with are never reached: nested runs come to the end of their text and cover it, a search for
the next token finds one unless there is none, and a run played at once gives the tokens that one
gets by asking for them until there are no more. -/
namespace RuleLexer
open RuleLexer.Text RuleLexer.Coverage

namespace Run

def stepsLeft (r : Run) : Nat := (maxZeroSteps + 1) * r.cursor.ahead.length - r.zeroSteps

/-- The run has not stayed where it is for too long. -/
def Steady (r : Run) : Prop := r.zeroSteps ≤ maxZeroSteps

theorem steady_start (lexer : Lexer) (states : List StateId) (text : List Char) (depth : Nat) :
    (start lexer states text depth).Steady := Nat.zero_le _

theorem stepsLeft_lt_stepBound (r : Run) : r.stepsLeft < r.stepBound := by
  rw [stepsLeft, stepBound]
  omega

namespace Steps
variable {r r' : Run} {piece : List Char}

theorem steady (h : r.Steps piece r') : r'.Steady := by
  by_cases hpiece : piece = []
  · exact (h.stays hpiece).2
  · rw [Steady, h.moves hpiece]
    exact Nat.zero_le _

theorem pending_ne_nil (h : r.Steps piece r') (hpiece : piece ≠ []) : r'.pending ≠ [] := by
  obtain ⟨tokens, hpending, hcovers⟩ := h.tokens
  rw [hpending]
  exact List.append_ne_nil_of_right_ne_nil _ (hcovers.ne_nil hpiece)

theorem stepsLeft_lt (h : r.Steps piece r') (hsteady : r.Steady) (hend : r.cursor.ahead ≠ []) :
    r'.stepsLeft < r.stepsLeft := by
  have hlength := congrArg List.length h.passes.ahead
  have hpos := List.length_pos_iff.2 hend
  rw [List.length_append] at hlength
  rw [Steady] at hsteady
  simp only [stepsLeft, maxZeroSteps] at *
  cases piece with
  | nil =>
    have hstays := h.stays rfl
    simp only [List.length_nil] at hlength
    omega
  | cons c rest =>
    have hmoves := h.moves (List.cons_ne_nil c rest)
    simp only [List.length_cons] at hlength
    omega

end Steps

theorem drain_of_atEnd {runner? : Option Runner} {fuel : Nat} {r : Run}
    (hend : r.cursor.ahead = []) : drain runner? fuel r = (r.ready, r.notices) := by
  cases fuel with
  | zero => rfl
  | succ fuel => simp [drain, Cursor.atEnd, hend]

theorem drain_succ {runner? : Option Runner} {fuel : Nat} {r : Run} (hend : r.cursor.ahead ≠ []) :
    drain runner? (fuel + 1) r =
      (r.ready ++ (drain runner? fuel (({ r with pending := [] } : Run).step runner?)).1,
        (drain runner? fuel (({ r with pending := [] } : Run).step runner?)).2) := by
  simp [drain, Cursor.atEnd, hend]

theorem covers_drain {runner? : Option Runner}
    (hrunner : ∀ runner ∈ runner?, Runner.Covering runner) {fuel : Nat} {r : Run}
    (hsteady : r.Steady) (hfuel : r.stepsLeft < fuel) {offset : Nat} {before : List Char}
    (hbefore : Covers offset before r.pending) (hplace : r.position = offset + byteLength before) :
    Covers offset (before ++ r.cursor.ahead) (drain runner? fuel r).1 := by
  induction fuel generalizing r offset before with
  | zero => omega
  | succ fuel ih =>
    rw [drain]
    split
    · next hend =>
      rw [List.isEmpty_iff.1 hend, List.append_nil]
      exact hbefore.recategorise r.lexer
    · next hend =>
      have hend : r.cursor.ahead ≠ [] := fun h => hend (List.isEmpty_iff.2 h)
      obtain ⟨piece, hstep⟩ := steps_step hrunner (r := { r with pending := [] }) hend
      obtain ⟨tokens, hpending, hcovers⟩ := hstep.tokens
      have hless : _ < r.stepsLeft := hstep.stepsLeft_lt hsteady hend
      have hrest := ih hstep.steady (by omega) (hpending ▸ hcovers) hstep.passes.offset
      rw [hstep.passes.ahead]
      exact (hbefore.recategorise r.lexer).append (hplace ▸ hrest)

theorem runner?_covering (levels : Nat) :
    ∀ runner ∈ runner? levels, Runner.Covering runner := by
  induction levels with
  | zero => simp [runner?]
  | succ levels ih =>
    intro runner hrunner lexer states text
    cases hrunner
    exact covers_drain ih (steady_start ..) (stepsLeft_lt_stepBound _) (.nil 0) rfl

def scan (r : Run) : Run := r.step (runner? r.levels)

theorem steps_scan {r : Run} (hend : r.cursor.ahead ≠ []) : ∃ piece, r.Steps piece r.scan :=
  steps_step (runner?_covering _) hend

theorem Steps.levels {r r' : Run} {piece : List Char} (h : r.Steps piece r') :
    r'.levels = r.levels := by rw [Run.levels, h.depth, Run.levels]

section advance
variable {r : Run} {fuel : Nat}

theorem advance_of_pending {runner? : Option Runner} (h : r.pending ≠ []) :
    advance runner? fuel r = r := by
  cases fuel with
  | zero => rfl
  | succ fuel => simp [advance, h]

theorem advance_of_atEnd {runner? : Option Runner} (h : r.cursor.ahead = []) :
    advance runner? fuel r = r := by
  cases fuel with
  | zero => rfl
  | succ fuel => simp [advance, Cursor.atEnd, h]

theorem advance_succ {runner? : Option Runner} (hpending : r.pending = [])
    (hend : r.cursor.ahead ≠ []) :
    advance runner? (fuel + 1) r = advance runner? fuel (r.step runner?) := by
  simp [advance, Cursor.atEnd, hpending, hend]

/-- More steps than a run may stay where it is change nothing. -/
theorem advance_stable {runner? : Option Runner}
    (hrunner : ∀ runner ∈ runner?, Runner.Covering runner)
    (hfuel : maxZeroSteps < fuel + r.zeroSteps) (hsteady : r.Steady) :
    advance runner? (fuel + 1) r = advance runner? fuel r := by
  induction fuel generalizing r with
  | zero =>
    rw [Steady] at hsteady
    omega
  | succ fuel ih =>
    by_cases hpending : r.pending = []
    · by_cases hend : r.cursor.ahead = []
      · rw [advance_of_atEnd hend, advance_of_atEnd hend]
      · rw [advance_succ hpending hend, advance_succ hpending hend]
        obtain ⟨piece, hstep⟩ := steps_step hrunner hend
        by_cases hpiece : piece = []
        · refine ih ?_ hstep.steady
          have := (hstep.stays hpiece).1
          omega
        · have hgiven := hstep.pending_ne_nil hpiece
          rw [advance_of_pending hgiven, advance_of_pending hgiven]
    · rw [advance_of_pending hpending, advance_of_pending hpending]

end advance

section next?
variable {r : Run}

theorem next?_of_pending {t : Token} {pending : List Token} (h : r.pending = t :: pending) :
    r.next? = some (r.lexer.recategorise t, { r with pending }) := by
  simp [next?, advance_of_pending (h ▸ List.cons_ne_nil t pending), h]

theorem next?_of_done (hpending : r.pending = []) (hend : r.cursor.ahead = []) :
    r.next? = none := by
  simp [next?, advance_of_atEnd hend, hpending]

theorem next?_scan (hpending : r.pending = []) (hend : r.cursor.ahead ≠ []) :
    r.scan.next? = r.next? := by
  obtain ⟨piece, hstep⟩ := steps_scan hend
  have hadvance : advance (runner? r.levels) (maxZeroSteps + 1) r.scan =
      advance (runner? r.levels) maxZeroSteps r.scan := by
    by_cases hpiece : piece = []
    · have := (hstep.stays hpiece).1
      exact advance_stable (runner?_covering _) (by omega) hstep.steady
    · have hgiven := hstep.pending_ne_nil hpiece
      rw [advance_of_pending hgiven, advance_of_pending hgiven]
  rw [next?, next?, hstep.levels, hadvance, advance_succ hpending hend]
  rfl

theorem next?_isSome (hsteady : r.Steady) (hend : r.cursor.ahead ≠ []) : r.next?.isSome := by
  induction hleft : r.stepsLeft using Nat.strongRecOn generalizing r with
  | ind left ih =>
    cases hpending : r.pending with
    | cons t pending => simp [next?_of_pending hpending]
    | nil =>
      rw [← next?_scan hpending hend]
      obtain ⟨piece, hstep⟩ := steps_scan hend
      by_cases hpiece : piece = []
      · subst hpiece
        have hless := hstep.stepsLeft_lt hsteady hend
        exact ih _ (hleft ▸ hless) hstep.steady (hstep.passes.eq_of_nil ▸ hend) rfl
      · obtain ⟨t, pending, hgiven⟩ := List.exists_cons_of_ne_nil (hstep.pending_ne_nil hpiece)
        simp [next?_of_pending hgiven]

theorem next?_eq_none_iff (hsteady : r.Steady) :
    r.next? = none ↔ r.pending = [] ∧ r.cursor.ahead = [] := by
  constructor
  · intro hnone
    have hend : r.cursor.ahead = [] := Classical.byContradiction fun hend => by
      simpa [hnone] using next?_isSome hsteady hend
    refine ⟨?_, hend⟩
    cases hpending : r.pending with
    | nil => rfl
    | cons t pending => simp [next?_of_pending hpending] at hnone
  · rintro ⟨hpending, hend⟩
    exact next?_of_done hpending hend

end next?

/-- The tokens that one gets from a run by asking for the next until there is none. -/
inductive Gives : Run → List Token → Prop
  | none {r : Run} (h : r.next? = none) : Gives r []
  | some {r r' : Run} {t : Token} {tokens : List Token} (h : r.next? = some (t, r'))
      (later : Gives r' tokens) : Gives r (t :: tokens)

namespace Gives
variable {r : Run} {tokens : List Token}

theorem history_eq (h : Gives r tokens) {limit : Nat} (hlimit : tokens.length ≤ limit) :
    (r.history limit).map Prod.fst = tokens := by
  induction h generalizing limit with
  | none h => cases limit <;> simp [history, h]
  | @some r r' t tokens h later ih =>
    cases limit with
    | zero => simp at hlimit
    | succ limit => simp [history, h, ih (Nat.le_of_succ_le_succ hlimit)]

theorem next?_getLast (h : Gives r tokens) {limit : Nat} (hlimit : tokens.length ≤ limit) :
    (((r.history limit).getLast?.map Prod.snd).getD r).next? = Option.none := by
  induction h generalizing limit with
  | none h => cases limit <;> simp [history, h]
  | @some r r' t tokens h later ih =>
    cases limit with
    | zero => simp at hlimit
    | succ limit =>
      have hlast := ih (Nat.le_of_succ_le_succ hlimit)
      simp only [history, h, List.getLast?_cons, Option.map_some, Option.getD_some]
      cases hlater : (r'.history limit).getLast? with
      | none => simpa [hlater] using hlast
      | some last => simpa [hlater] using hlast

theorem of_pending (pending : List Token) (h : Gives { r with pending := [] } tokens) :
    Gives { r with pending } (pending.map r.lexer.recategorise ++ tokens) := by
  induction pending with
  | nil => exact h
  | cons t pending ih => exact .some (next?_of_pending rfl) ih

theorem of_scan (hpending : r.pending = []) (hend : r.cursor.ahead ≠ [])
    (h : Gives r.scan tokens) : Gives r tokens := by
  have hscan := next?_scan hpending hend
  cases h with
  | none h => exact .none (hscan.symm.trans h)
  | some h later => exact .some (hscan.symm.trans h) later

end Gives

theorem gives_drain {fuel : Nat} {r : Run} (hsteady : r.Steady) (hfuel : r.stepsLeft < fuel) :
    Gives r (drain (runner? r.levels) fuel r).1 := by
  induction fuel generalizing r with
  | zero => omega
  | succ fuel ih =>
    rw [drain]
    split
    · next hend =>
      have hdone := Gives.of_pending r.pending (.none (next?_of_done rfl (List.isEmpty_iff.1 hend)))
      rwa [List.append_nil] at hdone
    · next hend =>
      have hend : r.cursor.ahead ≠ [] := fun h => hend (List.isEmpty_iff.2 h)
      obtain ⟨piece, hstep⟩ := steps_scan (r := { r with pending := [] }) hend
      have hless : _ < r.stepsLeft := hstep.stepsLeft_lt hsteady hend
      have hlater := ih hstep.steady (by omega)
      rw [hstep.levels] at hlater
      exact .of_pending r.pending (.of_scan rfl hend hlater)

theorem drain_pending (runner? : Option Runner) (fuel : Nat) (r : Run) :
    (drain runner? fuel r).1 = r.ready ++ (drain runner? fuel { r with pending := [] }).1 := by
  cases fuel with
  | zero => simp [drain, ready]
  | succ fuel =>
    rw [drain, drain]
    split <;> simp_all [ready]

theorem length_drain_le {fuel : Nat} {r : Run} (hsteady : r.Steady) (hfuel : r.stepsLeft < fuel) :
    (drain (runner? r.levels) fuel r).1.length ≤ r.tokenBound := by
  have hplace : ({ r with pending := [] } : Run).position = r.position + byteLength [] := rfl
  have hcovers := covers_drain (r := { r with pending := [] }) (runner?_covering r.levels) hsteady
    hfuel (.nil _) hplace
  have hlength := hcovers.length_le
  rw [drain_pending, List.length_append, ready, List.length_map, tokenBound]
  simp only [List.nil_append] at hlength
  omega

/-- A run played at once gives the tokens that one gets by asking for each. -/
theorem tokens_eq_drain {fuel : Nat} {r : Run} (hsteady : r.Steady) (hfuel : r.stepsLeft < fuel) :
    r.tokens = (drain (runner? r.levels) fuel r).1 :=
  (gives_drain hsteady hfuel).history_eq (length_drain_le hsteady hfuel)

theorem covers_tokens (lexer : Lexer) (states : List StateId) (text : List Char) (depth : Nat) :
    Covers 0 text (start lexer states text depth).tokens := by
  rw [tokens_eq_drain (steady_start ..) (stepsLeft_lt_stepBound _)]
  exact covers_drain (runner?_covering _) (steady_start ..) (stepsLeft_lt_stepBound _) (.nil 0) rfl

theorem gives_tokens {r : Run} (hsteady : r.Steady) : Gives r r.tokens := by
  rw [tokens_eq_drain hsteady (stepsLeft_lt_stepBound r)]
  exact gives_drain hsteady (stepsLeft_lt_stepBound r)

end Run

end RuleLexer
