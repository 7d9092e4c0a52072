import RuleLexer.Proofs.Stalling

/-! Refused pushes. A push onto a full stack is noted as refused, whether the operation of a rule
makes it or a callback asks for it, and nothing else is noted so; what a run says of refused pushes
tells exactly whether it, or a run within it, comes to a step that makes one. -/
namespace RuleLexer
open RuleLexer.Text

def RefusalIn (notices : List Notice) : Prop := ∃ depth, .pushRefused depth ∈ notices

theorem refusalIn_cons {n : Notice} {notices : List Notice} :
    RefusalIn (n :: notices) ↔ (∃ depth, n = .pushRefused depth) ∨ RefusalIn notices := by
  simp only [RefusalIn, List.mem_cons, exists_or, eq_comm]

theorem refusalIn_append {added notices : List Notice} :
    RefusalIn (added ++ notices) ↔ RefusalIn added ∨ RefusalIn notices := by
  simp only [RefusalIn, List.mem_append, exists_or]

inductive Session.Refused : Session → Script → Prop
  | now {s : Session} {state : String} {id : StateId} {next : View → Reply → Script}
      (known : s.run.table.stateId? state = some id) (full : (s.run.stack.push id).2 = false) :
      Refused s (.call (.push state) next)
  | later {s : Session} {c : Call} {next : View → Reply → Script}
      (rest : Refused (s.perform c).1 (next (s.perform c).1.view (s.perform c).2)) :
      Refused s (.call c next)

namespace Run

inductive Refuses (r : Run) : Prop
  | rule {rule : CompiledRule} {found : Match} {op : StackOp StateId}
      (winner : r.winner? = some (rule, found)) (op? : rule.op? = some op)
      (refused : ((r.act (runner? r.levels) rule.action found).1.stack.apply op).2 ≠ 0)
  | callback {rule : CompiledRule} {found : Match} {f : Callback}
      (winner : r.winner? = some (rule, found)) (action : rule.action = .callback f)
      (refused : let s : Session := ⟨r, r.cursor, r.cursor.seek found.stop⟩
        s.Refused (f found r.cursor s.view))

theorem refusalIn_noteRefused (r : Run) (refused : Nat) :
    RefusalIn (r.noteRefused refused).notices ↔ refused ≠ 0 ∨ RefusalIn r.notices := by
  induction refused generalizing r with
  | zero => simp [noteRefused]
  | succ refused ih =>
    rw [noteRefused, ih]
    simp [note, refusalIn_cons]

end Run

namespace Session

section calls
variable {s : Session}

theorem refusalIn_push (s : Session) (state : String) : RefusalIn (s.push state).1.run.notices ↔
    (∃ id, s.run.table.stateId? state = some id ∧ (s.run.stack.push id).2 = false) ∨
      RefusalIn s.run.notices := by
  rw [push]
  cases hid : s.run.table.stateId? state with
  | none => simp [unknownState, Run.note, refusalIn_cons]
  | some id =>
    cases haccepted : (s.run.stack.push id).2 <;> simp [haccepted, Run.refusalIn_noteRefused]

theorem refusalIn_perform {c : Call} (h : ∀ state, c ≠ .push state) :
    RefusalIn (s.perform c).1.run.notices ↔ RefusalIn s.run.notices := by
  obtain ⟨added, hadded, hkind⟩ := s.adds_perform c
  have hother : ¬RefusalIn added := fun ⟨_, hmem⟩ => by
    cases hkind _ hmem with
    | refused state => exact h state rfl
  rw [hadded, refusalIn_append]
  simp [hother]

theorem refused_call {c : Call} {next : View → Reply → Script} (h : ∀ state, c ≠ .push state) :
    s.Refused (.call c next) ↔
      (s.perform c).1.Refused (next (s.perform c).1.view (s.perform c).2) := by
  refine ⟨fun hrefused => ?_, .later⟩
  cases hrefused with
  | now => exact absurd rfl (h _)
  | later rest => exact rest

theorem refused_push {state : String} {next : View → Reply → Script} :
    s.Refused (.call (.push state) next) ↔
      (∃ id, s.run.table.stateId? state = some id ∧ (s.run.stack.push id).2 = false) ∨
        (s.push state).1.Refused (next (s.push state).1.view (s.push state).2) := by
  constructor
  · intro hrefused
    cases hrefused with
    | now known full => exact .inl ⟨_, known, full⟩
    | later rest => exact .inr rest
  · rintro (⟨_, known, full⟩ | rest)
    · exact .now known full
    · exact .later rest

theorem refusalIn_play (s : Session) (script : Script) : RefusalIn (s.play script).run.notices ↔
    s.Refused script ∨ RefusalIn s.run.notices := by
  induction script generalizing s with
  | done =>
    have hnot : ¬s.Refused .done := fun h => by cases h
    simp [play, hnot]
  | call c next ih =>
    rw [play, ih]
    by_cases hpush : ∃ state, c = .push state
    · obtain ⟨state, rfl⟩ := hpush
      rw [refused_push, perform, refusalIn_push, or_left_comm, or_assoc]
    · have hother : ∀ state, c ≠ .push state := fun state hc => hpush ⟨state, hc⟩
      rw [refused_call hother, refusalIn_perform hother]

end calls

end Session

namespace Run
variable {r : Run}

def NestedRefusal (r : Run) : Prop :=
  ∃ offset inner, (offset, inner) ∈ r.nestedAt ∧ RefusalIn inner.played.2

theorem refusalIn_act_callback {runner? : Option Runner} {f : Callback} {found : Match} :
    let s : Session := ⟨r, r.cursor, r.cursor.seek found.stop⟩
    RefusalIn (r.act runner? (.callback f) found).1.notices ↔
      s.Refused (f found r.cursor s.view) ∨ RefusalIn r.notices := by
  intro s
  show RefusalIn (s.play (f found r.cursor s.view)).close.1.notices ↔ _
  rw [Session.close, Session.notices_emit, Session.refusalIn_play]

theorem nestedRefusal_of_act {rule : CompiledRule} {found : Match}
    (hwinner : r.winner? = some (rule, found)) (hplain : ∀ f, rule.action ≠ .callback f)
    (h : RefusalIn (r.act (runner? r.levels) rule.action found).1.notices) :
    r.NestedRefusal ∨ RefusalIn r.notices := by
  rw [act_eq _ _ _ _ hplain, notices_putAll, refusalIn_append] at h
  refine h.imp_left fun ⟨depth, hadded⟩ => ?_
  obtain ⟨p, hp, hnoted⟩ := List.mem_flatMap.1 hadded
  unfold Piece.noted at hnoted
  split at hnoted
  · cases hnoted
  · cases List.mem_singleton.1 hnoted
  · next job runner hjob hrunner =>
    rw [runner_eq_played hrunner job] at hnoted
    exact ⟨_, _, mem_nestedAt_iff.2 ⟨runner, rule, found, hrunner, hwinner, p,
      List.mem_reverse.1 hp, job, hjob, rfl, rfl⟩, depth, hnoted⟩

theorem refusalIn_follow {runner? : Option Runner} {rule : CompiledRule} {found : Match} :
    RefusalIn (r.follow runner? rule found).1.notices ↔
      (∃ op, rule.op? = some op ∧
        ((r.act runner? rule.action found).1.stack.apply op).2 ≠ 0) ∨
      RefusalIn (r.act runner? rule.action found).1.notices := by
  rw [follow]
  cases rule.op? with
  | none => simp
  | some op => simp [change, refusalIn_noteRefused]

theorem refusalIn_scan_of_winner {rule : CompiledRule} {found : Match}
    (hwinner : r.winner? = some (rule, found)) (hend : r.cursor.ahead ≠ []) :
    RefusalIn r.scan.notices ↔
      RefusalIn (r.follow (runner? r.levels) rule found).1.notices := by
  obtain ⟨hcursor, -⟩ := follow_kept hwinner
  have hsettle := adds_settle (r := (r.follow (runner? r.levels) rule found).1)
    (r.follow (runner? r.levels) rule found).2 r.stack.generation (hcursor ▸ hend)
  rw [scan_of_winner hwinner]
  refine ⟨fun ⟨depth, h⟩ => ?_, fun ⟨depth, h⟩ => ⟨depth, hsettle.subset h⟩⟩
  rcases hsettle.mem h with h | ⟨_, _, -, h⟩ | ⟨_, _, _, _, -, h, -⟩
  · exact ⟨depth, h⟩
  · cases h
  · cases h

theorem refusalIn_scan (hend : r.cursor.ahead ≠ []) :
    RefusalIn r.scan.notices ↔ r.Refuses ∨ r.NestedRefusal ∨ RefusalIn r.notices := by
  constructor
  · intro h
    cases hwinner : r.winner? with
    | none =>
      obtain ⟨c, rest, hahead⟩ := List.exists_cons_of_ne_nil hend
      have hscan : r.scan = r.fallback := by rw [scan, step_eq, hwinner]
      rw [hscan] at h
      obtain ⟨depth, h⟩ := h
      rcases (adds_fallback hahead).mem h with h | h
      · exact .inr (.inr ⟨depth, h⟩)
      · cases h
    | some winner =>
      obtain ⟨rule, found⟩ := winner
      rcases refusalIn_follow.1 ((refusalIn_scan_of_winner hwinner hend).1 h) with
        ⟨op, hop, hrefused⟩ | h
      · exact .inl (.rule hwinner hop hrefused)
      · by_cases hcallback : ∃ f, rule.action = .callback f
        · obtain ⟨f, hf⟩ := hcallback
          rw [hf] at h
          exact (refusalIn_act_callback.1 h).imp (.callback hwinner hf) .inr
        · exact .inr (nestedRefusal_of_act hwinner (fun f hf => hcallback ⟨f, hf⟩) h)
  · rintro (hrefuses | ⟨offset, inner, hstarted, depth, hnoted⟩ | ⟨depth, h⟩)
    · cases hrefuses with
      | rule hwinner hop hrefused =>
        exact (refusalIn_scan_of_winner hwinner hend).2
          (refusalIn_follow.2 (.inl ⟨_, hop, hrefused⟩))
      | callback hwinner hf hrefused =>
        refine (refusalIn_scan_of_winner hwinner hend).2 (refusalIn_follow.2 (.inr ?_))
        rw [hf]
        exact refusalIn_act_callback.2 (.inl hrefused)
    · exact ⟨depth, (mem_scan_of_nested hstarted).2 _ hnoted⟩
    · exact ⟨depth, (adds_scan hend).subset h⟩

end Run

namespace Point

/-- The next turn is a step that makes a push onto a full stack. -/
structure Refuses (p : Point) : Prop where
  pending : p.run.pending = []
  ahead : p.run.cursor.ahead ≠ []
  refuses : p.run.Refuses

theorem refuses_of_noted (l : Lexer) (states : List StateId) (text : List Char)
    (depth turns : Nat) : let r := Run.start l states text depth
    RefusalIn (after turns r).run.notices →
      ∃ inner turns, r.Within inner ∧ (after turns inner).Refuses := by
  refine start_induction (K := fun _ => True)
    (Q := fun r p => RefusalIn p.run.notices →
      ∃ inner turns, r.Within inner ∧ (after turns inner).Refuses)
    ?_ ?_ (fun _ _ _ _ _ => trivial) ?_ trivial turns
  · rintro l states text depth - ⟨_, hnoted⟩
    cases hnoted
  · intro r p t pending hpending h hnoted
    rw [turn_of_pending hpending] at hnoted
    exact h hnoted
  · intro r turns hpending hend h hinner hnoted
    rw [turn_of_scan hpending hend] at hnoted
    rcases (Run.refusalIn_scan hend).1 hnoted with
      hrefuses | ⟨offset, inner, hstarted, hnoted⟩ | hnoted
    · exact ⟨r, turns, .outermost, hpending, hend, hrefuses⟩
    · have hnested := Run.mem_nested_of_nestedAt hstarted
      obtain ⟨-, job, -, rfl⟩ := Run.mem_nested hnested
      obtain ⟨more, -, -, hnotices⟩ := Run.exists_turns_played job.lexer job.states job.text
        ((after turns r).run.depth + 1)
      obtain ⟨within, last, hwithin, hrefuses⟩ := hinner _ hnested more (hnotices ▸ hnoted)
      exact ⟨within, last, .trans (.inner turns .outermost hpending hnested) hwithin, hrefuses⟩
    · exact h hnoted

end Point

/-- A run says that a push was refused exactly if a step of it, or of a run within it, makes a push
onto a full stack. -/
theorem refusalIn_complete (l : Lexer) (states : List StateId) (text : List Char) (depth : Nat) :
    let r := Run.start l states text depth
    RefusalIn r.complete.2.notices ↔
      ∃ inner turns, r.Within inner ∧ (Point.after turns inner).Refuses := by
  intro r
  constructor
  · obtain ⟨turns, -, -, hrun⟩ := Run.exists_turns_complete l states text depth
    exact hrun ▸ Point.refuses_of_noted l states text depth turns
  · rintro ⟨inner, turns, hwithin, hpending, hend, hrefuses⟩
    obtain ⟨depth, hnoted⟩ := (Run.refusalIn_scan hend).2 (.inl hrefuses)
    have hlater : .pushRefused depth ∈ (Point.after (turns + 1) inner).run.notices := by
      rwa [Point.after_succ, Point.turn_of_scan hpending hend]
    exact ⟨depth, Point.mem_complete_of_within hwithin hlater⟩

end RuleLexer
