import RuleLexer.Proofs.Nested

/-! Runs come to their end. No scan goes back, so many in a row pass over a character at least, and
among scans that only change the stack the last allowed one is the only one that ends with a
character emitted by itself. The steps of a run, and the depth of the runs within it, are bounded
whatever the rules say, and a run that has no token left has none ever after. -/
namespace RuleLexer
open RuleLexer.Text RuleLexer.Coverage

namespace Run

/-- The rule that wins leaves the cursor where it is and changes the stack. -/
def Lingers (r : Run) : Prop :=
  ∃ rule found, r.winner? = some (rule, found) ∧
    (r.follow (runner? r.levels) rule found).2.offset ≤ r.position ∧
      (r.follow (runner? r.levels) rule found).1.stack.generation ≠ r.stack.generation

instance (r : Run) : Decidable r.Lingers :=
  decidable_of_iff
    (∃ winner ∈ r.winner?, (r.follow (runner? r.levels) winner.1 winner.2).2.offset ≤ r.position ∧
      (r.follow (runner? r.levels) winner.1 winner.2).1.stack.generation ≠ r.stack.generation)
    ⟨fun ⟨winner, h⟩ => ⟨winner.1, winner.2, h⟩, fun ⟨rule, found, h⟩ => ⟨(rule, found), h⟩⟩

/-- `r'` has emitted the character at the cursor by itself and nothing else. -/
def FallsBack (r r' : Run) : Prop :=
  ∃ c rest, r.cursor.ahead = c :: rest ∧ r'.cursor = r.cursor.seek (r.position + 1) ∧
    r'.pending = r.pending ++ [⟨r.position, r.fallbackCategory c, String.ofList [c]⟩]

variable {r r' : Run}

theorem FallsBack.position_lt (h : r.FallsBack r') : r.position < r'.position := by
  obtain ⟨c, rest, hahead, hcursor, -⟩ := h
  rw [position, position, hcursor]
  exact (Cursor.passes_next hahead).offset_lt (List.cons_ne_nil c [])

theorem fallsBack_fallback {c : Char} {rest : List Char} (hahead : r.cursor.ahead = c :: rest)
    (lexer : r'.lexer = r.lexer) (cursor : r'.cursor = r.cursor)
    (pending : r'.pending = r.pending) : r.FallsBack r'.fallback := by
  have hcategory : r'.fallbackCategory c = r.fallbackCategory c := by
    rw [fallbackCategory, fallbackCategory, table, table, lexer]
  have hposition : r'.position = r.position := by rw [position, position, cursor]
  rw [fallback_eq (cursor.symm ▸ hahead), hcategory, hposition]
  exact ⟨c, rest, hahead, by rw [cursor], by rw [pending]⟩

theorem Lingers.scan (h : r.Lingers) (hend : r.cursor.ahead ≠ []) (hsteady : r.Steady) :
    (r.zeroSteps < maxZeroSteps ∧ r.scan.cursor = r.cursor ∧ r.scan.pending = r.pending) ∨
      (r.zeroSteps = maxZeroSteps ∧ r.FallsBack r.scan) := by
  obtain ⟨c, rest, hahead⟩ := List.exists_cons_of_ne_nil hend
  obtain ⟨rule, found, hwinner, hnext, hgeneration⟩ := h
  obtain ⟨piece, hpasses, hemits⟩ :=
    emits_follow (runner?_covering r.levels) r rule (firstMatch_some hwinner).2
  obtain rfl := hpasses.nil_of_offset_le hnext
  have hpending := hemits.pending_eq
  obtain ⟨hlexer, hcursor, hzero, -, -⟩ := hemits
  have hstill : (r.follow (runner? r.levels) rule found).2.offset ≤
      (r.follow (runner? r.levels) rule found).1.position := by rwa [position, hcursor]
  rw [Steady] at hsteady
  simp only [Run.scan, step_eq, hwinner, apply, settle_of_changed hstill hgeneration]
  split
  · refine .inr ⟨by omega, ?_⟩
    rw [warn_eq]
    exact fallsBack_fallback hahead hlexer hcursor hpending
  · exact .inl ⟨by omega, hcursor, hpending⟩

/-- So many scans in a row pass over a character. -/
theorem exists_scans_pass (hsteady : r.Steady) (hend : r.cursor.ahead ≠ []) :
    ∃ scans ≤ maxZeroSteps + 1 - r.zeroSteps, ∃ c piece,
      r.cursor.Passes (c :: piece) (scan^[scans] r).cursor := by
  induction hleft : maxZeroSteps - r.zeroSteps generalizing r with
  | zero =>
    obtain ⟨piece, hstep⟩ := steps_scan hend
    cases piece with
    | nil =>
      have := hstep.stays rfl
      rw [Steady] at hsteady
      omega
    | cons c piece => exact ⟨1, by rw [Steady] at hsteady; omega, c, piece, hstep.passes⟩
  | succ left ih =>
    obtain ⟨piece, hstep⟩ := steps_scan hend
    cases piece with
    | nil =>
      obtain ⟨hzero, -⟩ := hstep.stays rfl
      have hcursor := hstep.passes.eq_of_nil
      obtain ⟨scans, hscans, c, piece, hpasses⟩ :=
        ih hstep.steady (hcursor ▸ hend) (by rw [hzero]; omega)
      refine ⟨scans + 1, by omega, c, piece, ?_⟩
      rwa [hcursor] at hpasses
    | cons c piece => exact ⟨1, by omega, c, piece, hstep.passes⟩

theorem exists_scans_end (hsteady : r.Steady) :
    ∃ scans ≤ r.stepsLeft, (scan^[scans] r).cursor.ahead = [] := by
  induction hleft : r.stepsLeft using Nat.strongRecOn generalizing r with
  | ind left ih =>
    by_cases hend : r.cursor.ahead = []
    · exact ⟨0, Nat.zero_le _, hend⟩
    · obtain ⟨piece, hstep⟩ := steps_scan hend
      have hless := hstep.stepsLeft_lt hsteady hend
      obtain ⟨scans, hscans, hdone⟩ := ih _ (hleft ▸ hless) hstep.steady rfl
      exact ⟨scans + 1, by omega, hdone⟩

theorem advance_of_none (hsteady : r.Steady) (hnone : r.next? = none) (fuel : Nat) :
    advance (runner? r.levels) fuel r = r :=
  advance_of_atEnd ((next?_eq_none_iff hsteady).1 hnone).2

end Run

namespace Point.Holds
variable {l : Lexer} {text : List Char} {depth : Nat} {p : Point}

theorem ahead_ne_nil (h : Holds l text depth p) (hplace : p.run.position < byteLength text) :
    p.run.cursor.ahead ≠ [] := by
  intro hend
  have htext := h.passes.ahead
  have hoffset := h.passes.offset
  simp only [Cursor.start, Nat.zero_add, hend, List.append_nil] at htext hoffset
  rw [Run.position, hoffset, ← htext] at hplace
  exact Nat.lt_irrefl _ hplace

theorem exists_turns_done (h : Holds l text depth p) {tokens : List Token}
    (hgives : p.run.Gives tokens) : ∃ turns, (Point.turn^[turns] p).run.next? = none := by
  induction tokens generalizing p with
  | nil =>
    cases hgives with
    | none hnone => exact ⟨0, hnone⟩
  | cons t tokens ih =>
    cases hgives with
    | some hnext hlater =>
      obtain ⟨turns, hrun, -⟩ := h.next? hnext
      obtain ⟨more, hdone⟩ := ih (h.iterate turns) (hrun ▸ hlater)
      exact ⟨more + turns, by rwa [Function.iterate_add_apply]⟩

theorem falls_back_iff (h : Holds l text depth p) (hend : p.run.cursor.ahead ≠ [])
    (hlingers : p.run.Lingers) :
    (p.run.FallsBack p.run.scan ↔ p.stays = maxZeroSteps) ∧
      (p.stays < maxZeroSteps →
        p.run.scan.cursor = p.run.cursor ∧ p.run.scan.pending = p.run.pending) := by
  have hscan := hlingers.scan hend h.steady
  rw [h.stays] at hscan
  rcases hscan with ⟨hfew, hcursor, hpending⟩ | ⟨hmany, hfalls⟩
  · refine ⟨⟨fun hfalls => ?_, by omega⟩, fun _ => ⟨hcursor, hpending⟩⟩
    have hmoved := hfalls.position_lt
    rw [Run.position, Run.position, hcursor] at hmoved
    omega
  · exact ⟨⟨fun _ => hmany, fun _ => hfalls⟩, by omega⟩

end Point.Holds

/-- Every run of a lexer makes progress and ends, and so do all runs within it. -/
theorem run_ends (l : Lexer) (states : List StateId) (text : List Char) (depth turns : Nat) :
    let r := Run.start l states text depth
    let p := Point.after turns r
    (p.run.position < byteLength text →
      p.run.position ≤ p.run.scan.position ∧
      (∃ scans ≤ maxZeroSteps + 1, ∃ c piece,
        p.run.cursor.Passes (c :: piece) (Run.scan^[scans] p.run).cursor) ∧
      (p.run.Lingers →
        (p.run.FallsBack p.run.scan ↔ p.stays + 1 = maxZeroSteps + 1) ∧
        (p.stays + 1 ≤ maxZeroSteps →
          p.run.scan.cursor = p.run.cursor ∧ p.run.scan.pending = p.run.pending))) ∧
    p.stays ≤ maxZeroSteps ∧
    p.scans ≤ (maxZeroSteps + 1) * text.length ∧
    (∃ more, (Point.turn^[more] p).run.next? = none) ∧
    (p.run.next? = none → ∀ asked,
      ((Run.advance (Run.runner? p.run.levels) (maxZeroSteps + 1))^[asked] p.run).next? = none) ∧
    (∀ f g : Runner, (∀ job ∈ p.run.jobs,
        f job.lexer job.states job.text = g job.lexer job.states job.text) →
      p.run.step (some f) = p.run.step (some g)) ∧
    (depth ≤ maxDelegation → ∀ inner, r.Within inner → inner.depth ≤ maxDelegation ∧
      ∃ scans ≤ (maxZeroSteps + 1) * inner.cursor.ahead.length,
        (Run.scan^[scans] inner).cursor.ahead = []) := by
  intro r p
  have hp : p.Holds l text depth := .after l states text depth turns
  refine ⟨fun hplace => ?_, ?_, ?_, ?_, ?_, fun f g h => Run.step_congr h, ?_⟩
  · have hend := hp.ahead_ne_nil hplace
    refine ⟨?_, ?_, fun hlingers => ?_⟩
    · obtain ⟨piece, hstep⟩ := Run.steps_scan hend
      rw [Run.position, Run.position, hstep.passes.offset]
      omega
    · obtain ⟨scans, hscans, hpasses⟩ := Run.exists_scans_pass hp.steady hend
      exact ⟨scans, by omega, hpasses⟩
    · obtain ⟨hiff, hfew⟩ := hp.falls_back_iff hend hlingers
      exact ⟨hiff.trans (by omega), fun h => hfew (by omega)⟩
  · exact hp.stays ▸ hp.steady
  · have := hp.scans
    omega
  · exact hp.exists_turns_done (Run.gives_tokens hp.steady)
  · intro hnone asked
    rw [Function.iterate_fixed (Run.advance_of_none hp.steady hnone _)]
    exact hnone
  · intro hdepth inner hwithin
    obtain ⟨lexer, states, text, depth, hle, rfl⟩ : ∃ lexer states text depth,
        depth ≤ maxDelegation ∧ inner = Run.start lexer states text depth := by
      rcases hwithin.start_eq with rfl | hinner
      · exact ⟨l, states, text, depth, hdepth, rfl⟩
      · exact hinner
    exact ⟨hle, Run.exists_scans_end (Run.steady_start ..)⟩

/-- Pushes its only state wherever it stands, and consumes nothing. -/
def churningDraft : TableDraft where
  states := [("root", [Entry.fallthrough.push "root"])]

def churningTable : Table := churningDraft.compile.toOption.get (by decide +kernel)

def churningLexer : Lexer := ⟨⟨"churning", [], [], []⟩, churningTable, [0], none, []⟩

def churningPoint : Point := .after maxZeroSteps (churningLexer.run "a")

theorem run_ends_churning :
    churningPoint.stays + 1 = maxZeroSteps + 1 ∧ churningPoint.run.Lingers ∧
      churningPoint.run.FallsBack churningPoint.run.scan := by
  have hplace : churningPoint.run.position < byteLength ['a'] := by decide +kernel
  have hstays : churningPoint.stays + 1 = maxZeroSteps + 1 := by decide +kernel
  have hlingers : churningPoint.run.Lingers := by decide +kernel
  have hruns := run_ends churningLexer [0] ['a'] 0 maxZeroSteps
  obtain ⟨-, -, hfalls⟩ := hruns.1 hplace
  exact ⟨hstays, hlingers, (hfalls hlingers).1.2 hstays⟩

end RuleLexer
