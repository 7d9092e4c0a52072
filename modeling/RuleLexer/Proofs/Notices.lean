import RuleLexer.Proofs.Nested

/-! What a run notes. Each operation adds notices of its own kind in front of those that were there
and takes none away: a full stack, a nesting that is too deep, a callback's questions, a step
without progress, a character that is emitted by itself. A step that hands text on adds those of the
runs it starts, as they are. -/
namespace RuleLexer
open RuleLexer.Text RuleLexer.Coverage

namespace Run

/-- `r'` has all notices of `r` and others of one kind. -/
def Adds (P : Notice → Prop) (r r' : Run) : Prop :=
  ∃ added, r'.notices = added ++ r.notices ∧ ∀ n ∈ added, P n

namespace Adds
variable {P Q : Notice → Prop} {r r' r'' : Run} {n : Notice}

theorem of_eq (h : r'.notices = r.notices) : r.Adds P r' := ⟨[], h, by simp⟩

theorem of_cons (h : r'.notices = n :: r.notices) (hn : P n) : r.Adds P r' :=
  ⟨[n], h, by simpa using hn⟩

theorem trans (h : r.Adds P r') (h' : r'.Adds P r'') : r.Adds P r'' := by
  obtain ⟨added, hadded, hkind⟩ := h
  obtain ⟨more, hmore, hkind'⟩ := h'
  refine ⟨more ++ added, by rw [hmore, hadded, List.append_assoc], fun n hn => ?_⟩
  rcases List.mem_append.1 hn with hn | hn
  · exact hkind' n hn
  · exact hkind n hn

theorem mono (h : r.Adds P r') (hPQ : ∀ n, P n → Q n) : r.Adds Q r' := by
  obtain ⟨added, hadded, hkind⟩ := h
  exact ⟨added, hadded, fun n hn => hPQ n (hkind n hn)⟩

theorem mem (h : r.Adds P r') (hn : n ∈ r'.notices) : n ∈ r.notices ∨ P n := by
  obtain ⟨added, hadded, hkind⟩ := h
  rw [hadded] at hn
  exact (List.mem_append.1 hn).symm.imp_right (hkind n)

theorem subset (h : r.Adds P r') (hn : n ∈ r.notices) : n ∈ r'.notices := by
  obtain ⟨added, hadded, -⟩ := h
  rw [hadded]
  exact List.mem_append_right _ hn

end Adds

section operations
variable {r : Run}

theorem adds_noteRefused (refused : Nat) :
    r.Adds (· = .pushRefused Stack.maxDepth) (r.noteRefused refused) := by
  induction refused generalizing r with
  | zero => exact .of_eq rfl
  | succ refused ih => exact Adds.trans (.of_cons rfl rfl) ih

theorem adds_change (op : StackOp StateId) :
    r.Adds (· = .pushRefused Stack.maxDepth) (r.change op) :=
  adds_noteRefused (r := { r with stack := (r.stack.apply op).1 }) _

theorem adds_warn (reason : NoProgress) :
    r.Adds (· = .noProgress reason r.position r.lexer.name r.stateName) (r.warn reason) := by
  rw [warn]
  split
  · exact .of_eq rfl
  · exact .of_cons rfl rfl

theorem adds_fallback {c : Char} {rest : List Char} (hahead : r.cursor.ahead = c :: rest) :
    r.Adds (· = .fallback ⟨r.position, r.position + c.utf8Size⟩ r.stateName) r.fallback := by
  have hnext : (r.cursor.seek (r.cursor.offset + 1)).offset = r.position + c.utf8Size := by
    rw [(Cursor.passes_next hahead).offset, byteLength_singleton, position]
  by_cases hreset : c = '\n' ∧ r.table.resetsOnNewline
  · refine .of_eq ?_
    simp [fallback, hahead, hreset, emit_eq]
  · refine .of_cons ?_ rfl
    simp [fallback, hahead, hreset, emit_eq, note, position] at hnext ⊢
    exact hnext

end operations

end Run

def Piece.noted (runner? : Option Runner) (running : Lexer) (depth : Nat) (p : Piece) :
    List Notice :=
  match p.job? running, runner? with
  | none, _ => []
  | some job, none =>
      [.delegationRefused ⟨p.offset, p.offset + byteLength job.text⟩ running.name depth]
  | some job, some runner => (runner job.lexer job.states job.text).2

namespace Run
variable {r : Run} {runner? : Option Runner}

theorem notices_put (p : Piece) :
    (r.put runner? p).notices = p.noted runner? r.lexer r.depth ++ r.notices := by
  obtain ⟨offset, text, fate⟩ := p
  cases fate with
  | token category => simp [put, emit_eq, Piece.noted, Piece.job?]
  | delegate target =>
    by_cases hempty : text.isEmpty
    · simp [put, delegate, Piece.noted, Piece.job?, hempty]
    · cases runner? with
      | none => simp [put, delegate, Piece.noted, Piece.job?, hempty, emit_eq, note]
      | some runner =>
        cases target <;>
          simp [put, delegate, Piece.noted, Piece.job?, hempty, Target.lexerIn, Target.statesIn]

theorem notices_putAll (pieces : List Piece) : (r.putAll runner? pieces).notices =
    pieces.reverse.flatMap (Piece.noted runner? r.lexer r.depth) ++ r.notices := by
  induction pieces generalizing r with
  | nil => simp [putAll]
  | cons p pieces ih =>
    rw [putAll, List.foldl_cons, ← putAll, ih, notices_put, put_eq]
    simp [List.flatMap_append]

end Run

def Call.state? : Call → Option String
  | .push state | .reset state => some state
  | _ => none

def Call.memo (memo : Memo) : Call → Memo
  | .keep key value => memo.set key value
  | .drop key => memo.erase key
  | .dropAll => .empty
  | _ => memo

/-- The runs differ in what a rule can change: what is pending, the stack, the memo, the notices. -/
def Run.Changes (r r' : Run) : Prop :=
  ∃ pending stack memo notices, r' = { r with pending, stack, memo, notices }

namespace Run.Changes
variable {r r' r'' : Run}

theorem trans (h : r.Changes r') (h' : r'.Changes r'') : r.Changes r'' := by
  obtain ⟨pending, stack, memo, notices, rfl⟩ := h
  obtain ⟨pending, stack, memo, notices, rfl⟩ := h'
  exact ⟨_, _, _, _, rfl⟩

theorem warned (h : r.Changes r') : r'.warned = r.warned := by
  obtain ⟨_, _, _, _, rfl⟩ := h
  rfl

theorem table (h : r.Changes r') : r'.table = r.table := by
  obtain ⟨_, _, _, _, rfl⟩ := h
  rfl

end Run.Changes

namespace Session

theorem emit_run (s : Session) (stop : Nat) (category : Category) :
    (s.emit stop category).run = { s.run with pending := (s.emit stop category).run.pending } := by
  unfold Session.emit
  dsimp only
  split
  · rfl
  · rw [Run.emit_eq]

theorem notices_emit (s : Session) (stop : Nat) (category : Category) :
    (s.emit stop category).run.notices = s.run.notices := by rw [emit_run]

theorem changes_emit (s : Session) (stop : Nat) (category : Category) :
    s.run.Changes (s.emit stop category).run :=
  ⟨_, _, _, _, s.emit_run stop category⟩

theorem changes_perform (s : Session) (c : Call) : s.run.Changes (s.perform c).1.run := by
  cases c with
  | emit stop category => exact s.changes_emit stop category
  | emitRange start stop category =>
    exact (s.changes_emit start .text).trans (changes_emit _ stop category)
  | push state =>
    simp only [perform, push]
    split
    · exact ⟨_, _, _, _, rfl⟩
    · dsimp only
      split
      · exact ⟨_, _, _, _, rfl⟩
      · rw [Run.noteRefused_eq]
        exact ⟨_, _, _, _, rfl⟩
  | reset state =>
    simp only [perform, reset]
    split <;> exact ⟨_, _, _, _, rfl⟩
  | continueAt | pop | keep | drop | dropAll | observe => exact ⟨_, _, _, _, rfl⟩

theorem changes_play (s : Session) (script : Script) : s.run.Changes (s.play script).run := by
  induction script generalizing s with
  | done => exact ⟨_, _, _, _, rfl⟩
  | call c next ih => exact (s.changes_perform c).trans (ih _ _ _)

theorem memo_perform (s : Session) (c : Call) :
    (s.perform c).1.run.memo = c.memo s.run.memo := by
  cases c with
  | emit stop category =>
    simp only [perform, Call.memo]
    rw [emit_run]
  | emitRange start stop category =>
    simp only [perform, Call.memo]
    rw [emit_run, emit_run]
  | push state =>
    simp only [perform, push, Call.memo]
    split
    · rfl
    · dsimp only
      split
      · rfl
      · rw [Run.noteRefused_eq]
  | reset state =>
    simp only [perform, reset, Call.memo]
    split <;> rfl
  | continueAt | pop | keep | drop | dropAll | observe => rfl

/-- What a call can add: a push that is refused, a state that is not there, an answer. -/
inductive Noted (t : Table) : Call → Notice → Prop
  | refused (state : String) : Noted t (.push state) (.pushRefused Stack.maxDepth)
  | unknown {c : Call} {state : String} (asked : state ∈ c.state?) (h : t.stateId? state = none)
      (span : Span) : Noted t c (.unknownState span state)
  | observed (label : String) (cursor position : Nat) (state : String) (depth : Nat) :
      Noted t (.observe label) (.observed label cursor position state depth)

theorem adds_perform (s : Session) (c : Call) :
    s.run.Adds (Noted s.run.table c) (s.perform c).1.run := by
  cases c with
  | emit stop category => exact .of_eq (s.notices_emit stop category)
  | emitRange start stop category =>
    exact .of_eq ((notices_emit _ _ _).trans (s.notices_emit start .text))
  | push state =>
    simp only [perform, push]
    split
    · next hnone => exact .of_cons rfl (.unknown rfl hnone _)
    · dsimp only
      split
      · exact .of_eq rfl
      · exact .of_cons rfl (.refused state)
  | reset state =>
    simp only [perform, reset]
    split
    · next hnone => exact .of_cons rfl (.unknown rfl hnone _)
    · exact .of_eq rfl
  | observe label => exact .of_cons rfl (.observed ..)
  | continueAt | pop | keep | drop | dropAll => exact .of_eq rfl

theorem adds_play (s : Session) (script : Script) :
    s.run.Adds (fun n => ∃ t c, Noted t c n) (s.play script).run := by
  induction script generalizing s with
  | done => exact .of_eq rfl
  | call c next ih =>
    exact ((s.adds_perform c).mono fun n hn => ⟨_, c, hn⟩).trans (ih _ _ _)

end Session

namespace Run

section rules
variable {r : Run} {runner? : Option Runner}

theorem changes_act (runner? : Option Runner) (r : Run) (action : Action Target) (found : Match) :
    r.Changes (r.act runner? action found).1 := by
  by_cases hcallback : ∃ f, action = .callback f
  · obtain ⟨f, rfl⟩ := hcallback
    exact (Session.changes_play ⟨r, r.cursor, r.cursor.seek found.stop⟩ _).trans
      (Session.changes_emit _ _ _)
  · rw [act_eq _ _ _ _ fun f hf => hcallback ⟨f, hf⟩, putAll_eq]
    exact ⟨_, _, _, _, rfl⟩

theorem changes_follow (runner? : Option Runner) (r : Run) (rule : CompiledRule) (found : Match) :
    r.Changes (r.follow runner? rule found).1 := by
  rw [follow_eq]
  exact (changes_act runner? r rule.action found).trans ⟨_, _, _, _, rfl⟩

theorem adds_callback (runner? : Option Runner) (r : Run) (f : Callback) (found : Match) :
    r.Adds (fun n => ∃ t c, Session.Noted t c n) (r.act runner? (.callback f) found).1 := by
  let s : Session := ⟨r, r.cursor, r.cursor.seek found.stop⟩
  exact (s.adds_play (f found r.cursor s.view)).trans (.of_eq (Session.notices_emit _ _ _))

theorem adds_follow (rule : CompiledRule) (found : Match) :
    (r.act runner? rule.action found).1.Adds (· = .pushRefused Stack.maxDepth)
      (r.follow runner? rule found).1 := by
  rw [follow]
  cases rule.op? with
  | none => exact .of_eq rfl
  | some op => exact adds_change op

end rules

section nested
variable {r : Run}

/-- Why a step is refused that comes to this place. -/
def stuck? (r : Run) (next : Cursor) (generation : Nat) : Option NoProgress :=
  if r.position < next.offset then none
  else if r.stack.generation = generation then some .stackUnchanged
  else if maxZeroSteps < r.zeroSteps + 1 then some .tooManySteps
  else none

/-- A step is accepted as it is, or refused with a warning. -/
theorem settle_cases (r : Run) (next : Cursor) (generation : Nat) :
    (r.stuck? next generation = none ∧
      ∃ cursor zeroSteps, r.settle next generation = { r with cursor, zeroSteps }) ∨
    ∃ reason, r.stuck? next generation = some reason ∧
      ∃ zeroSteps, r.settle next generation =
        (({ r with zeroSteps } : Run).warn reason).fallback := by
  rw [settle, stuck?, position]
  split
  · exact .inl ⟨rfl, _, _, rfl⟩
  · split
    · exact .inr ⟨_, rfl, r.zeroSteps, rfl⟩
    · dsimp only
      split
      · exact .inr ⟨_, rfl, _, rfl⟩
      · exact .inl ⟨rfl, _, _, rfl⟩

/-- The rule that wins leads to a step that is refused. -/
def Stalls (r : Run) (reason : NoProgress) : Prop :=
  ∃ rule found, r.winner? = some (rule, found) ∧
    (r.follow (runner? r.levels) rule found).1.stuck? (r.follow (runner? r.levels) rule found).2
      r.stack.generation = some reason

def nestedAt (r : Run) : List (Nat × Run) :=
  match runner? r.levels, r.winner? with
  | some _, some (rule, found) =>
      (found.pieces r.cursor rule.action).filterMap fun p =>
        (p.job? r.lexer).map fun job =>
          (p.offset, start job.lexer job.states job.text (r.depth + 1))
  | _, _ => []

theorem snd_nestedAt (r : Run) : r.nestedAt.map Prod.snd = r.nested := by
  rw [nestedAt, nested, jobs]
  cases runner? r.levels <;> cases r.winner? <;>
    simp [List.map_filterMap, Function.comp_def]

def played (r : Run) : List Token × List Notice := drain (runner? r.levels) r.stepBound r

theorem runner_eq_played {runner : Runner} (hrunner : runner? r.levels = some runner)
    (job : Piece.Job) : runner job.lexer job.states job.text =
      (start job.lexer job.states job.text (r.depth + 1)).played := by
  have hdepth : r.depth < maxDelegation := by
    refine Nat.lt_of_not_le fun hdeep => ?_
    rw [runner?_eq_none hdeep] at hrunner
    cases hrunner
  obtain ⟨_, hsame, hplays⟩ := exists_runner_drain hdepth
  cases hsame.symm.trans hrunner
  exact hplays ..

theorem mem_nestedAt_iff {inner : Run} {offset : Nat} :
    (offset, inner) ∈ r.nestedAt ↔ ∃ runner rule found, runner? r.levels = some runner ∧
      r.winner? = some (rule, found) ∧ ∃ p ∈ found.pieces r.cursor rule.action,
        ∃ job ∈ p.job? r.lexer, offset = p.offset ∧
          inner = start job.lexer job.states job.text (r.depth + 1) := by
  constructor
  · intro h
    rw [nestedAt] at h
    split at h
    · next rule found hrunner hwinner =>
      obtain ⟨p, hp, hstart⟩ := List.mem_filterMap.1 h
      obtain ⟨job, hjob, hsame⟩ := Option.map_eq_some_iff.1 hstart
      cases hsame
      exact ⟨_, rule, found, hrunner, hwinner, p, hp, job, hjob, rfl, rfl⟩
    · cases h
  · rintro ⟨runner, rule, found, hrunner, hwinner, p, hp, job, hjob, rfl, rfl⟩
    rw [nestedAt, hrunner, hwinner]
    exact List.mem_filterMap.2 ⟨p, hp, by rw [hjob]; rfl⟩

theorem mem_nested_of_nestedAt {inner : Run} {offset : Nat} (h : (offset, inner) ∈ r.nestedAt) :
    inner ∈ r.nested :=
  r.snd_nestedAt ▸ List.mem_map_of_mem h

end nested

/-- What a scan can note: why a push or a run within was refused, what a callback has asked, why
the step was refused, a character that was emitted by itself, and all that the runs which it started
have noted. -/
inductive Notes (r : Run) : Notice → Prop
  | pushRefused : Notes r (.pushRefused Stack.maxDepth)
  | tooDeep (span : Span) (name : String) (depth : Nat) :
      Notes r (.delegationRefused span name depth)
  | stalls {reason : NoProgress} (h : r.Stalls reason) (state : String) :
      Notes r (.noProgress reason r.position r.lexer.name state)
  | fallback {c : Char} {rest : List Char} {category : Category} (state : String)
      (ahead : r.cursor.ahead = c :: rest)
      (given : ⟨r.position, category, String.ofList [c]⟩ ∈ r.scan.pending) :
      Notes r (.fallback ⟨r.position, r.position + c.utf8Size⟩ state)
  | callback {rule : CompiledRule} {found : Match} {f : Callback} {n : Notice}
      (winner : r.winner? = some (rule, found)) (action : rule.action = .callback f)
      (asked : ∃ t c, Session.Noted t c n)
      (noted : n ∈ (r.act (runner? r.levels) rule.action found).1.notices) : Notes r n
  | nested {offset : Nat} {inner : Run} {n : Notice} (started : (offset, inner) ∈ r.nestedAt)
      (noted : n ∈ inner.played.2)
      (given : ∀ t ∈ inner.played.1, t.shift offset ∈ r.scan.pending) : Notes r n

section scan
variable {r : Run}

theorem scan_of_winner {rule : CompiledRule} {found : Match}
    (hwinner : r.winner? = some (rule, found)) : r.scan =
      (r.follow (runner? r.levels) rule found).1.settle
        (r.follow (runner? r.levels) rule found).2 r.stack.generation := by
  rw [scan, step_eq, hwinner]
  rfl

theorem pending_fallback (r : Run) : r.pending <+: r.fallback.pending := by
  cases hahead : r.cursor.ahead with
  | nil =>
    have hsame : r.fallback = r := by rw [fallback, hahead]
    exact hsame.symm ▸ List.prefix_refl _
  | cons c rest =>
    rw [fallback_eq hahead]
    exact List.prefix_append _ _

theorem pending_warn (r : Run) (reason : NoProgress) : (r.warn reason).pending = r.pending := by
  rw [warn_eq]

theorem pending_settle (r : Run) (next : Cursor) (generation : Nat) :
    r.pending <+: (r.settle next generation).pending := by
  rcases r.settle_cases next generation with ⟨-, _, _, h⟩ | ⟨reason, -, zeroSteps, h⟩
  · exact h.symm ▸ List.prefix_refl _
  · have hprefix := pending_fallback (({ r with zeroSteps } : Run).warn reason)
    rwa [pending_warn, ← h] at hprefix

theorem given_fallback {c : Char} {rest : List Char} (hahead : r.cursor.ahead = c :: rest) :
    ∃ category, ⟨r.position, category, String.ofList [c]⟩ ∈ r.fallback.pending := by
  rw [fallback_eq hahead]
  exact ⟨_, List.mem_append_right _ List.mem_cons_self⟩

theorem adds_settle (next : Cursor) (generation : Nat) (hend : r.cursor.ahead ≠ []) :
    r.Adds (fun n =>
      (∃ reason state, r.stuck? next generation = some reason ∧
        n = .noProgress reason r.position r.lexer.name state) ∨
      ∃ c rest category state, r.cursor.ahead = c :: rest ∧
        n = .fallback ⟨r.position, r.position + c.utf8Size⟩ state ∧
        ⟨r.position, category, String.ofList [c]⟩ ∈ (r.settle next generation).pending)
      (r.settle next generation) := by
  rcases r.settle_cases next generation with ⟨-, _, _, h⟩ | ⟨reason, hreason, zeroSteps, h⟩
  · rw [h]
    exact .of_eq rfl
  · obtain ⟨c, rest, hahead⟩ := List.exists_cons_of_ne_nil hend
    let stuck : Run := ({ r with zeroSteps } : Run).warn reason
    have hwarn := adds_warn (r := { r with zeroSteps }) reason
    have hcursor : stuck.cursor = r.cursor := by
      show (({ r with zeroSteps } : Run).warn reason).cursor = r.cursor
      rw [warn_eq]
    have hposition : stuck.position = r.position := by rw [position, hcursor, position]
    have hfallback := adds_fallback (r := stuck) (hcursor ▸ hahead)
    obtain ⟨category, hgiven⟩ := given_fallback (r := stuck) (hcursor ▸ hahead)
    rw [hposition] at hfallback hgiven
    rw [h]
    refine Adds.trans (hwarn.mono ?_) (hfallback.mono ?_)
    · rintro n rfl
      exact .inl ⟨reason, _, hreason, rfl⟩
    · rintro n rfl
      exact .inr ⟨c, rest, category, _, hahead, rfl, hgiven⟩

theorem tokens_of_job {runner : Runner} {p : Piece} {job : Piece.Job}
    (hjob : job ∈ p.job? r.lexer) : p.tokens (some runner) r.lexer =
      (runner job.lexer job.states job.text).1.map (·.shift p.offset) := by
  obtain ⟨target, hfate, hne, rfl⟩ := Piece.mem_job?_iff.1 hjob
  simp [Piece.tokens, hfate, delegated, hne]

theorem notes_of_noted {rule : CompiledRule} {found : Match}
    (hwinner : r.winner? = some (rule, found)) (hplain : ∀ f, rule.action ≠ .callback f)
    (hpending : (r.act (runner? r.levels) rule.action found).1.pending <+: r.scan.pending)
    {p : Piece} (hp : p ∈ found.pieces r.cursor rule.action) {n : Notice}
    (hn : n ∈ p.noted (runner? r.levels) r.lexer r.depth) : r.Notes n := by
  unfold Piece.noted at hn
  split at hn
  · cases hn
  · cases List.mem_singleton.1 hn
    exact .tooDeep _ _ _
  · next job runner hjob hrunner =>
    rw [runner_eq_played hrunner job] at hn
    refine .nested (mem_nestedAt_iff.2
      ⟨runner, rule, found, hrunner, hwinner, p, hp, job, hjob, rfl, rfl⟩) hn fun t ht => ?_
    refine hpending.subset ?_
    rw [act_eq _ _ _ _ hplain, putAll_eq]
    refine List.mem_append_right _ (List.mem_flatMap.2 ⟨p, hp, ?_⟩)
    rw [hrunner, tokens_of_job hjob, runner_eq_played hrunner job]
    exact List.mem_map_of_mem ht

theorem adds_act {rule : CompiledRule} {found : Match} (hwinner : r.winner? = some (rule, found))
    (hpending : (r.act (runner? r.levels) rule.action found).1.pending <+: r.scan.pending) :
    r.Adds r.Notes (r.act (runner? r.levels) rule.action found).1 := by
  by_cases hcallback : ∃ f, rule.action = .callback f
  · obtain ⟨f, hf⟩ := hcallback
    obtain ⟨added, hadded, hasked⟩ := adds_callback (runner? r.levels) r f found
    rw [← hf] at hadded
    refine ⟨added, hadded, fun n hn => .callback hwinner hf (hasked n hn) ?_⟩
    rw [hadded]
    exact List.mem_append_left _ hn
  · have hplain : ∀ f, rule.action ≠ .callback f := fun f hf => hcallback ⟨f, hf⟩
    refine ⟨_, by rw [act_eq _ _ _ _ hplain, notices_putAll], fun n hn => ?_⟩
    obtain ⟨p, hp, hn⟩ := List.mem_flatMap.1 hn
    exact notes_of_noted hwinner hplain hpending (List.mem_reverse.1 hp) hn

/-- A scan takes no notice away, and adds only what it can note. -/
theorem adds_scan (hend : r.cursor.ahead ≠ []) : r.Adds r.Notes r.scan := by
  cases hwinner : r.winner? with
  | none =>
    obtain ⟨c, rest, hahead⟩ := List.exists_cons_of_ne_nil hend
    obtain ⟨category, hgiven⟩ := given_fallback hahead
    have hscan : r.scan = r.fallback := by rw [scan, step_eq, hwinner]
    rw [hscan]
    refine (adds_fallback hahead).mono ?_
    rintro n rfl
    exact .fallback _ hahead (hscan ▸ hgiven)
  | some winner =>
    obtain ⟨rule, found⟩ := winner
    obtain ⟨_, -, hemits⟩ :=
      emits_follow (runner?_covering r.levels) r rule (firstMatch_some hwinner).2
    let followed := (r.follow (runner? r.levels) rule found).1
    let next := (r.follow (runner? r.levels) rule found).2
    have hscan : r.scan = followed.settle next r.stack.generation := scan_of_winner hwinner
    have hposition : followed.position = r.position := by
      rw [position, hemits.cursor, position]
    have hact : (r.act (runner? r.levels) rule.action found).1.pending = followed.pending := by
      show _ = (r.follow (runner? r.levels) rule found).1.pending
      rw [follow_eq]
    have hpending : followed.pending <+: r.scan.pending := hscan ▸ pending_settle _ _ _
    have hsettle :=
      adds_settle (r := followed) next r.stack.generation (hemits.cursor ▸ hend)
    rw [← hscan, hposition, hemits.lexer] at hsettle
    refine (adds_act hwinner (hact ▸ hpending)).trans
      (((adds_follow rule found).mono ?_).trans (hsettle.mono ?_))
    · rintro n rfl
      exact .pushRefused
    · rintro n (⟨reason, state, hreason, rfl⟩ | ⟨c, rest, category, state, hahead, rfl, hgiven⟩)
      · exact .stalls ⟨rule, found, hwinner, hreason⟩ state
      · exact .fallback state (hemits.cursor ▸ hahead) hgiven

section pieces
variable {rule : CompiledRule} {found : Match} {p : Piece}

theorem ahead_ne_nil_of_job (hwinner : r.winner? = some (rule, found))
    (hp : p ∈ found.pieces r.cursor rule.action) {job : Piece.Job} (hjob : job ∈ p.job? r.lexer) :
    r.cursor.ahead ≠ [] := by
  have hplain : ∀ f, rule.action ≠ .callback f := fun f hf => by simp [hf, Match.pieces] at hp
  have htiles := (firstMatch_some hwinner).2.tiles_pieces rule.action hplain
  obtain ⟨front, back, hpieces⟩ := List.append_of_mem hp
  obtain ⟨_, -, hne, -⟩ := Piece.mem_job?_iff.1 hjob
  rw [htiles.passes.ahead, hpieces]
  simp [hne]

theorem mem_scan_of_noted (hwinner : r.winner? = some (rule, found))
    (hp : p ∈ found.pieces r.cursor rule.action) (hend : r.cursor.ahead ≠ []) {n : Notice}
    (hn : n ∈ p.noted (runner? r.levels) r.lexer r.depth) : n ∈ r.scan.notices := by
  have hplain : ∀ f, rule.action ≠ .callback f := fun f hf => by simp [hf, Match.pieces] at hp
  obtain ⟨_, -, hemits⟩ :=
    emits_follow (runner?_covering r.levels) r rule (firstMatch_some hwinner).2
  have hact : n ∈ (r.act (runner? r.levels) rule.action found).1.notices := by
    rw [act_eq _ _ _ _ hplain, notices_putAll]
    exact List.mem_append_left _ (List.mem_flatMap.2 ⟨p, List.mem_reverse.2 hp, hn⟩)
  have hsettle := adds_settle (r := (r.follow (runner? r.levels) rule found).1)
    (r.follow (runner? r.levels) rule found).2 r.stack.generation (hemits.cursor ▸ hend)
  rw [scan_of_winner hwinner]
  exact hsettle.subset ((adds_follow rule found).subset hact)

end pieces

theorem mem_scan_of_nested {offset : Nat} {inner : Run} (h : (offset, inner) ∈ r.nestedAt) :
    r.cursor.ahead ≠ [] ∧ ∀ n ∈ inner.played.2, n ∈ r.scan.notices := by
  obtain ⟨runner, rule, found, hrunner, hwinner, p, hp, job, hjob, -, rfl⟩ := mem_nestedAt_iff.1 h
  have hend := ahead_ne_nil_of_job hwinner hp hjob
  refine ⟨hend, fun n hn => mem_scan_of_noted hwinner hp hend ?_⟩
  rw [← runner_eq_played hrunner job] at hn
  simpa only [Piece.noted, Option.mem_def.1 hjob, hrunner] using hn

end scan

end Run

end RuleLexer
