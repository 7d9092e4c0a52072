import RuleLexer.Proofs.Played
import RuleLexer.Proofs.StackSafety

/-! How deep a run is. The number of runs around a run counts only where the run would hand a piece
of its text on and has no level left to do so. Until then every operation takes the run to the same
place with fewer runs around it, and so do the runs that it starts, each a level deeper. -/
namespace RuleLexer
open RuleLexer.Text

def Run.under (depth : Nat) (r : Run) : Run := { r with depth }

namespace Session

def under (depth : Nat) (s : Session) : Session := { s with run := s.run.under depth }

theorem view_under (depth : Nat) (s : Session) : (s.under depth).view = s.view := rfl

end Session

namespace Run
variable (depth : Nat) (r : Run)

theorem under_emit (offset : Nat) (category : Category) (piece : List Char) :
    (r.under depth).emit offset category piece = (r.emit offset category piece).under depth := by
  rw [emit_eq, emit_eq]
  rfl

theorem under_noteRefused (refused : Nat) :
    (r.under depth).noteRefused refused = (r.noteRefused refused).under depth := by
  induction refused generalizing r with
  | zero => rfl
  | succ refused ih => exact ih (r.note _)

theorem under_change (op : StackOp StateId) :
    (r.under depth).change op = (r.change op).under depth :=
  under_noteRefused depth { r with stack := (r.stack.apply op).1 } _

theorem under_warn (reason : NoProgress) :
    (r.under depth).warn reason = (r.warn reason).under depth := by
  rw [warn, warn]
  show (if r.warned then _ else _) = _
  split <;> rfl

theorem under_fallback : (r.under depth).fallback = r.fallback.under depth := by
  cases hahead : r.cursor.ahead with
  | nil => simp [fallback, under, hahead]
  | cons c rest =>
    by_cases hreset : c = '\n' ∧ r.lexer.table.resetsOnNewline
    · simp [fallback, under, table, hahead, hreset, emit_eq, position]
    · simp [fallback, under, table, hahead, hreset, emit_eq, position, note, stateName, nameOf]

theorem under_settle (next : Cursor) (generation : Nat) :
    (r.under depth).settle next generation = (r.settle next generation).under depth :=
  settle_rel (Q := fun r r' => r' = r.under depth) rfl rfl Iff.rfl rfl (fun _ => rfl)
    fun zeroSteps reason => by
      rw [← under_fallback, ← under_warn]
      rfl

end Run

namespace Session
variable (depth : Nat) (s : Session)

theorem under_emit (stop : Nat) (category : Category) :
    (s.under depth).emit stop category = (s.emit stop category).under depth := by
  simp only [emit, under, Run.under_emit]
  split <;> rfl

theorem under_perform (c : Call) :
    (s.under depth).perform c = ((s.perform c).1.under depth, (s.perform c).2) := by
  cases c with
  | emit stop category => simp only [perform, under_emit]
  | emitRange start stop category => simp only [perform, under_emit]
  | push state =>
    have hstate : (s.under depth).run.table.stateId? state = s.run.table.stateId? state := rfl
    simp only [perform, push, hstate]
    split
    · rfl
    · next id _ =>
      cases haccepted : (s.run.stack.push id).2 <;>
        simp [under, Run.under, haccepted, Run.noteRefused, Run.note]
  | reset state =>
    have hstate : (s.under depth).run.table.stateId? state = s.run.table.stateId? state := rfl
    simp only [perform, reset, hstate]
    split <;> rfl
  | continueAt | pop | keep | drop | dropAll | observe => rfl

theorem under_play (script : Script) :
    (s.under depth).play script = (s.play script).under depth := by
  induction script generalizing s with
  | done => rfl
  | call c next ih =>
    simp only [play, under_perform, view_under]
    exact ih _ _ _

end Session

namespace Run

section step
variable {depth : Nat} {r : Run} {runner : Runner}

theorem under_putAll (pieces : List Piece) :
    (r.under depth).putAll (some runner) pieces =
      (r.putAll (some runner) pieces).under depth := by
  have hnoted : Piece.noted (some runner) r.lexer depth =
      Piece.noted (some runner) r.lexer r.depth := by
    funext p
    cases hjob : p.job? r.lexer <;> simp [Piece.noted, hjob]
  have hnotices : ((r.under depth).putAll (some runner) pieces).notices =
      (r.putAll (some runner) pieces).notices := by
    rw [notices_putAll, notices_putAll, ← hnoted]
    rfl
  rw [putAll_eq _ (r.under depth), putAll_eq _ r, hnotices]
  rfl

theorem under_act (action : Action Target) (found : Match) :
    (r.under depth).act (some runner) action found =
      ((r.act (some runner) action found).1.under depth,
        (r.act (some runner) action found).2) := by
  by_cases hcallback : ∃ f, action = .callback f
  · obtain ⟨f, rfl⟩ := hcallback
    let s : Session := ⟨r, r.cursor, r.cursor.seek found.stop⟩
    show ((s.under depth).play (f found r.cursor s.view)).close = _
    rw [Session.under_play, Session.close, Session.under_emit]
    rfl
  · have hplain : ∀ f, action ≠ .callback f := fun f hf => hcallback ⟨f, hf⟩
    rw [act_eq _ _ _ _ hplain, act_eq _ _ _ _ hplain, under_putAll]
    rfl

theorem under_follow (rule : CompiledRule) (found : Match) :
    (r.under depth).follow (some runner) rule found =
      ((r.follow (some runner) rule found).1.under depth,
        (r.follow (some runner) rule found).2) := by
  rw [follow, follow, under_act]
  cases rule.op? with
  | none => rfl
  | some op => simp only [under_change]

theorem under_step : (r.under depth).step (some runner) = (r.step (some runner)).under depth := by
  have hwinner : (r.under depth).winner? = r.winner? := rfl
  rw [step_eq, step_eq, hwinner]
  cases r.winner? with
  | none => exact under_fallback depth r
  | some winner =>
    simp only [apply, under_follow, under_settle]
    rfl

end step

section scan
variable {r : Run}

/-- A scan that hands nothing on, or has a level left to do so, takes from each run that it starts
what the run gives when it is played a level deeper. -/
theorem scan_of_room (hroom : r.jobs ≠ [] → r.depth < maxDelegation) :
    r.scan =
      r.step (some fun lexer states text => (start lexer states text (r.depth + 1)).played) := by
  refine step_of_answers fun job hjob => ?_
  obtain ⟨runner, hrunner, -⟩ := exists_runner_drain (hroom (List.ne_nil_of_mem hjob))
  rw [Piece.Job.answer?, hrunner, Option.map_some, runner_eq_played hrunner job]
  rfl

theorem under_scan {depth : Nat} (hle : depth ≤ r.depth)
    (hroom : r.jobs ≠ [] → r.depth < maxDelegation)
    (hplayed : ∀ job ∈ r.jobs, (start job.lexer job.states job.text (depth + 1)).played =
      (start job.lexer job.states job.text (r.depth + 1)).played) :
    (r.under depth).scan = r.scan.under depth := by
  have hfewer : (r.under depth).jobs ≠ [] → (r.under depth).depth < maxDelegation :=
    fun hjobs => Nat.lt_of_le_of_lt hle (hroom hjobs)
  rw [scan_of_room hfewer, scan_of_room hroom, under_step]
  exact congrArg (under depth) (step_congr hplayed)

theorem start_mem_nested {job : Piece.Job} (hjob : job ∈ r.jobs) (hdepth : r.depth < maxDelegation) :
    start job.lexer job.states job.text (r.depth + 1) ∈ r.nested := by
  obtain ⟨runner, hrunner, -⟩ := exists_runner_drain hdepth
  rw [nested, hrunner]
  exact List.mem_map_of_mem hjob

end scan

end Run

namespace Point

/-- The next turn hands a piece on although the runs around the run are as many as allowed. -/
structure TooDeep (p : Point) : Prop where
  pending : p.run.pending = []
  jobs : p.run.jobs ≠ []
  depth : maxDelegation ≤ p.run.depth

theorem TooDeep.noted {p : Point} (h : p.TooDeep) : ∃ span,
    .delegationRefused span p.run.lexer.name p.run.depth ∈ p.turn.run.notices := by
  obtain ⟨job, jobs, hjobs⟩ := List.exists_cons_of_ne_nil h.jobs
  have hjob : job ∈ p.run.jobs := by simp [hjobs]
  rw [Run.jobs] at hjob
  cases hwinner : p.run.winner? with
  | none => simp [hwinner] at hjob
  | some winner =>
    obtain ⟨rule, found⟩ := winner
    simp only [hwinner] at hjob
    obtain ⟨piece, hpiece, hjob⟩ := List.mem_filterMap.1 hjob
    have hend := Run.ahead_ne_nil_of_job hwinner hpiece hjob
    rw [turn_of_scan h.pending hend]
    refine ⟨⟨piece.offset, piece.offset + byteLength job.text⟩,
      Run.mem_scan_of_noted hwinner hpiece hend ?_⟩
    simp only [Piece.noted, hjob, Run.runner?_eq_none h.depth, List.mem_singleton]

def under (depth : Nat) (p : Point) : Point := { p with run := p.run.under depth }

theorem under_turn {depth : Nat} {p : Point}
    (h : p.run.pending = [] → (p.run.under depth).scan = p.run.scan.under depth) :
    (p.under depth).turn = p.turn.under depth := by
  cases hpending : p.run.pending with
  | cons t pending =>
    rw [turn_of_pending hpending, turn_of_pending (p := p.under depth) hpending]
    rfl
  | nil =>
    by_cases hend : p.run.cursor.ahead = []
    · rw [turn_of_done hpending hend, turn_of_done (p := p.under depth) hpending hend]
    · rw [turn_of_scan hpending hend, turn_of_scan (p := p.under depth) hpending hend]
      have hscan : (p.under depth).run.scan = p.run.scan.under depth := h hpending
      rw [hscan]
      rfl

theorem played_of_under {l : Lexer} {states : List StateId} {text : List Char} {depth depth' : Nat}
    (h : ∀ turns, after turns (Run.start l states text depth) =
      (after turns (Run.start l states text depth')).under depth) :
    (Run.start l states text depth).played = (Run.start l states text depth').played := by
  obtain ⟨turns, hdone, htaken, hnotices⟩ := Run.exists_turns_played l states text depth
  obtain ⟨more, hdone', htaken', hnotices'⟩ := Run.exists_turns_played l states text depth'
  rw [h] at hdone htaken hnotices
  have hdone : (after turns (Run.start l states text depth')).Done := ⟨hdone.pending, hdone.atEnd⟩
  have hlast := hdone.unique hdone'
  rw [hlast] at htaken hnotices
  exact Prod.ext (htaken.symm.trans htaken') (hnotices.symm.trans hnotices')

/-- With fewer runs around it, a run makes the same turns as one that, and within which no run, is
ever too deep. -/
theorem after_under {l : Lexer} {states : List StateId} {text : List Char} {depth depth' : Nat}
    (hle : depth ≤ depth') (hroom : ∀ inner turns, (Run.start l states text depth').Within inner →
      ¬(after turns inner).TooDeep) (turns : Nat) :
    after turns (Run.start l states text depth) =
      (after turns (Run.start l states text depth')).under depth := by
  induction hlevels : maxDelegation - depth' using Nat.strongRecOn
    generalizing l states text depth depth' turns with
  | ind levels ihlevels =>
    induction turns with
    | zero => rfl
    | succ turns ih =>
      let r := Run.start l states text depth'
      have hdepth : (after turns r).run.depth = depth' := (Holds.after l states text depth' turns).depth
      rw [after_succ, after_succ, ih]
      refine under_turn fun hpending => ?_
      have hscans : (after turns r).run.jobs ≠ [] → (after turns r).run.depth < maxDelegation :=
        fun hjobs => Nat.lt_of_not_le fun hdeep =>
          hroom r turns .outermost ⟨hpending, hjobs, hdeep⟩
      refine Run.under_scan (hdepth.symm ▸ hle) hscans fun job hjob => ?_
      have hless := hscans (List.ne_nil_of_mem hjob)
      have hinner := Run.start_mem_nested hjob hless
      rw [hdepth] at hless hinner ⊢
      refine played_of_under fun more => ?_
      refine ihlevels _ (by omega) (Nat.succ_le_succ hle) (fun inner last hwithin => ?_) more rfl
      exact hroom inner last (.trans (.inner turns .outermost hpending hinner) hwithin)

end Point

/-- How deep a run is counts for the limit only. When neither a run nor any run within it hands a
piece on too deep inside, the run under fewer runs is the same turn by turn: it gives the same
tokens, and stands at the same place with the same stack and the same memo. -/
theorem depth_only_limits (l : Lexer) (states : List StateId) (text : List Char)
    {depth depth' : Nat} (hle : depth ≤ depth')
    (hroom : ∀ inner turns, (Run.start l states text depth').Within inner →
      ¬(Point.after turns inner).TooDeep) :
    let r := Run.start l states text depth
    let r' := Run.start l states text depth'
    (∀ turns, (Point.after turns r).taken = (Point.after turns r').taken ∧
      (Point.after turns r).run = { (Point.after turns r').run with depth }) ∧
    r.tokens = r'.tokens := by
  intro r r'
  have hafter := Point.after_under hle hroom
  constructor
  · intro turns
    rw [hafter turns]
    exact ⟨rfl, rfl⟩
  · rw [Run.tokens_eq_played, Run.tokens_eq_played, Point.played_of_under hafter]

theorem lexer_of_nesting {r : Run} (hlexer : r.lexer = nestingLexer) {job : Piece.Job}
    (hjob : job ∈ r.jobs) : job.lexer = nestingLexer := by
  have hactions : nestingTable.rules.flatten.map (·.action) =
      [.groups [.token .keyword, .delegate (.this (some [1]))], .emit .number] := rfl
  rw [Run.jobs] at hjob
  cases hwinner : r.winner? with
  | none => simp [hwinner] at hjob
  | some winner =>
    obtain ⟨rule, found⟩ := winner
    simp only [hwinner] at hjob
    obtain ⟨p, hp, hjob⟩ := List.mem_filterMap.1 hjob
    obtain ⟨target, hfate, -, rfl⟩ := Piece.mem_job?_iff.1 hjob
    have hhands := Run.handsTo_of_mem_pieces hp hfate
    obtain ⟨rules, hrules, hrule⟩ := Run.exists_rules_of_winner hwinner
    rw [Run.table, hlexer] at hrules
    have haction : rule.action ∈ nestingTable.rules.flatten.map (·.action) :=
      List.mem_map_of_mem (List.mem_flatten.2 ⟨rules, hrules, hrule⟩)
    rw [hactions] at haction
    generalize rule.action = action at haction hhands
    cases hhands <;> simp_all [Target.lexerIn]

theorem job_nestingLexer (turns : Nat) :
    ∀ job ∈ (Point.after turns (Run.start nestingLexer [0] ['b', 'a', 'a'] 31)).run.jobs,
      job = ⟨nestingLexer, [1], ['a', 'a']⟩ := by
  let r := Run.start nestingLexer [0] ['b', 'a', 'a'] 31
  have hdone : (Point.after 4 r).Done := ⟨by decide +kernel, by decide +kernel⟩
  have hjobs : ∀ turns < 5, ∀ job ∈ (Point.after turns r).run.jobs.map
      fun job => (job.states, job.text), job = ([1], ['a', 'a']) := by decide +kernel
  intro job hjob
  have hlexer := lexer_of_nesting
    (Point.Holds.after nestingLexer [0] ['b', 'a', 'a'] 31 turns).lexer hjob
  have hsame : (job.states, job.text) = ([1], ['a', 'a']) := by
    by_cases hbefore : turns < 5
    · exact hjobs turns hbefore _ (List.mem_map_of_mem hjob)
    · rw [hdone.after_eq (by omega)] at hjob
      exact hjobs 4 (by decide) _ (List.mem_map_of_mem hjob)
  obtain ⟨lexer, states, text⟩ := job
  simp_all

theorem jobs_letters (turns : Nat) :
    (Point.after turns (Run.start nestingLexer [1] ['a', 'a'] 32)).run.jobs = [] := by
  let r := Run.start nestingLexer [1] ['a', 'a'] 32
  have hdone : (Point.after 4 r).Done := ⟨by decide +kernel, by decide +kernel⟩
  have hjobs : ∀ turns < 5, (Point.after turns r).run.jobs.length = 0 := by decide +kernel
  refine List.eq_nil_of_length_eq_zero ?_
  by_cases hbefore : turns < 5
  · exact hjobs turns hbefore
  · rw [hdone.after_eq (by omega)]
    exact hjobs 4 (by decide)

theorem not_tooDeep_nestingLexer {inner : Run} (turns : Nat)
    (h : (Run.start nestingLexer [0] ['b', 'a', 'a'] 31).Within inner) :
    ¬(Point.after turns inner).TooDeep := by
  have hwithin : inner = Run.start nestingLexer [0] ['b', 'a', 'a'] 31 ∨
      inner = Run.start nestingLexer [1] ['a', 'a'] 32 := by
    induction h with
    | outermost => exact .inl rfl
    | inner turns _ _ hnested ih =>
      obtain ⟨hdepth, job, hjob, rfl⟩ := Run.mem_nested hnested
      rcases ih with rfl | rfl
      · rw [(Point.Holds.after nestingLexer [0] ['b', 'a', 'a'] 31 turns).depth,
          job_nestingLexer turns job hjob]
        exact .inr rfl
      · simp [jobs_letters] at hjob
  rintro ⟨-, hjobs, hdeep⟩
  rcases hwithin with rfl | rfl
  · rw [(Point.Holds.after nestingLexer [0] ['b', 'a', 'a'] 31 turns).depth] at hdeep
    exact absurd hdeep (by decide)
  · exact hjobs (jobs_letters turns)

theorem depth_only_limits_nesting : 0 ≤ 31 ∧
    (∀ inner turns, (Run.start nestingLexer [0] ['b', 'a', 'a'] 31).Within inner →
      ¬(Point.after turns inner).TooDeep) ∧
    (Run.start nestingLexer [0] ['b', 'a', 'a'] 0).tokens =
      (Run.start nestingLexer [0] ['b', 'a', 'a'] 31).tokens :=
  ⟨by decide, fun _ => not_tooDeep_nestingLexer,
    (depth_only_limits nestingLexer [0] ['b', 'a', 'a'] (show 0 ≤ 31 by decide)
      fun _ => not_tooDeep_nestingLexer).2⟩

end RuleLexer
