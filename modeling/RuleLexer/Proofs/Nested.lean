import RuleLexer.Proofs.Point

/-! Runs within runs. A step starts a run for each piece of text that its rule hands on, unless the
runs around it are as many as allowed. What it calls a runner with is among these pieces, and what
the runner answers with are all the tokens of a run one level deeper. -/
namespace RuleLexer
open RuleLexer.Text RuleLexer.Coverage

structure Piece.Job where
  lexer : Lexer
  states : List StateId
  text : List Char

def Piece.Job.answer? (runner? : Option Runner) (job : Piece.Job) :
    Option (List Token × List Notice) :=
  runner?.map fun runner => runner job.lexer job.states job.text

def Piece.job? (running : Lexer) (p : Piece) : Option Piece.Job :=
  match p.fate with
  | .token _ => none
  | .delegate target =>
      if p.text.isEmpty then none
      else some ⟨target.lexerIn running, target.statesIn running, p.text⟩

theorem Piece.mem_job?_iff {running : Lexer} {p : Piece} {job : Piece.Job} :
    job ∈ p.job? running ↔ ∃ target, p.fate = .delegate target ∧ p.text ≠ [] ∧
      job = ⟨target.lexerIn running, target.statesIn running, p.text⟩ := by
  obtain ⟨offset, text, fate⟩ := p
  cases fate with
  | token category => simp [Piece.job?]
  | delegate target =>
    by_cases hempty : text = []
    · simp [Piece.job?, hempty]
    · simp only [Piece.job?, List.isEmpty_iff, hempty, if_false, Option.mem_def, Option.some.injEq,
        Emission.delegate.injEq, ne_eq, not_false_eq_true, true_and, exists_eq_left']
      exact eq_comm

namespace Run

/-- The runs that the rule which wins at the cursor asks for. -/
def jobs (r : Run) : List Piece.Job :=
  match r.winner? with
  | none => []
  | some (rule, found) => (found.pieces r.cursor rule.action).filterMap (Piece.job? r.lexer)

def nested (r : Run) : List Run :=
  match runner? r.levels with
  | none => []
  | some _ => r.jobs.map fun job => start job.lexer job.states job.text (r.depth + 1)

/-- The starts of a run and of all runs within it, at any depth. -/
inductive Within (outer : Run) : Run → Prop
  | outermost : Within outer outer
  | inner {r inner : Run} (turns : Nat) (h : Within outer r)
      (pending : (Point.after turns r).run.pending = [])
      (nested : inner ∈ (Point.after turns r).run.nested) : Within outer inner

section jobs
variable {runner? runner?' : Option Runner} {r : Run}

theorem put_congr {p : Piece}
    (h : ∀ job ∈ p.job? r.lexer, job.answer? runner? = job.answer? runner?') :
    r.put runner? p = r.put runner?' p := by
  obtain ⟨offset, text, fate⟩ := p
  cases fate with
  | token category => rfl
  | delegate target =>
    by_cases hempty : text.isEmpty
    · simp [put, delegate, hempty]
    · have hcall := h ⟨target.lexerIn r.lexer, target.statesIn r.lexer, text⟩
        (by simp [Piece.job?, hempty])
      cases runner? with
      | none =>
        rw [Option.map_eq_none_iff.1 hcall.symm]
      | some f =>
        obtain ⟨g, rfl, hsame⟩ := Option.map_eq_some_iff.1 hcall.symm
        cases target <;> simp only [Target.lexerIn, Target.statesIn] at hsame <;>
          simp [put, delegate, hempty, hsame]

theorem putAll_congr {pieces : List Piece}
    (h : ∀ job ∈ pieces.filterMap (Piece.job? r.lexer),
      job.answer? runner? = job.answer? runner?') :
    r.putAll runner? pieces = r.putAll runner?' pieces := by
  induction pieces generalizing r with
  | nil => rfl
  | cons p pieces ih =>
    have hfirst : r.put runner? p = r.put runner?' p :=
      put_congr fun job hjob => h job (List.mem_filterMap.2 ⟨p, List.mem_cons_self, hjob⟩)
    have hlexer : (r.put runner?' p).lexer = r.lexer := by rw [put_eq]
    have hrest := ih (r := r.put runner?' p) fun job hjob => by
      obtain ⟨q, hq, hjob⟩ := List.mem_filterMap.1 hjob
      exact h job (List.mem_filterMap.2 ⟨q, List.mem_cons_of_mem _ hq, hlexer ▸ hjob⟩)
    rw [putAll, putAll, List.foldl_cons, List.foldl_cons, hfirst]
    exact hrest

/-- Whether there is a runner, and what it answers, counts for the jobs of a step only. -/
theorem step_of_answers (h : ∀ job ∈ r.jobs, job.answer? runner? = job.answer? runner?') :
    r.step runner? = r.step runner?' := by
  rw [step_eq, step_eq]
  rw [jobs] at h
  cases hwinner : r.winner? with
  | none => rfl
  | some winner =>
    obtain ⟨rule, found⟩ := winner
    simp only [hwinner] at h ⊢
    have hact : r.act runner? rule.action found = r.act runner?' rule.action found := by
      cases haction : rule.action with
      | callback f => rfl
      | emit | groups | delegate =>
        rw [act_eq _ _ _ _ (by simp), act_eq _ _ _ _ (by simp), ← haction, putAll_congr h]
    rw [apply, apply, follow, follow, hact]

theorem step_congr {f g : Runner}
    (h : ∀ job ∈ r.jobs, f job.lexer job.states job.text = g job.lexer job.states job.text) :
    r.step (some f) = r.step (some g) :=
  step_of_answers fun job hjob => congrArg some (h job hjob)

end jobs

theorem exists_runner_drain {r : Run} (hdepth : r.depth < maxDelegation) :
    ∃ runner, runner? r.levels = some runner ∧ ∀ lexer states text,
      let inner := start lexer states text (r.depth + 1)
      runner lexer states text = drain (runner? inner.levels) inner.stepBound inner := by
  obtain ⟨levels, hlevels⟩ : ∃ levels, r.levels = levels + 1 :=
    ⟨maxDelegation - (r.depth + 1), by rw [Run.levels]; omega⟩
  have hinner : maxDelegation - levels = r.depth + 1 := by
    rw [Run.levels] at hlevels
    omega
  rw [hlevels]
  refine ⟨_, rfl, fun lexer states text => ?_⟩
  have hsame : (start lexer states text (r.depth + 1)).levels = levels := by
    rw [Run.levels] at hlevels ⊢
    show maxDelegation - (r.depth + 1) = levels
    omega
  dsimp only
  rw [hsame, hinner]

theorem exists_runner {r : Run} (hdepth : r.depth < maxDelegation) :
    ∃ runner, runner? r.levels = some runner ∧ ∀ lexer states text,
      (runner lexer states text).1 = (start lexer states text (r.depth + 1)).tokens := by
  obtain ⟨runner, hrunner, hplays⟩ := exists_runner_drain hdepth
  refine ⟨runner, hrunner, fun lexer states text => ?_⟩
  rw [hplays, tokens_eq_drain (steady_start ..) (stepsLeft_lt_stepBound _)]

theorem runner?_eq_none {r : Run} (hdepth : maxDelegation ≤ r.depth) :
    runner? r.levels = none := by
  rw [Run.levels, Nat.sub_eq_zero_of_le hdepth]
  rfl

theorem mem_nested {r inner : Run} (h : inner ∈ r.nested) :
    r.depth < maxDelegation ∧ ∃ job ∈ r.jobs,
      inner = start job.lexer job.states job.text (r.depth + 1) := by
  rw [nested] at h
  split at h
  · cases h
  · next runner hrunner =>
    obtain ⟨job, hjob, rfl⟩ := List.mem_map.1 h
    refine ⟨Nat.lt_of_not_le fun hdeep => ?_, job, hjob, rfl⟩
    rw [runner?_eq_none hdeep] at hrunner
    cases hrunner

namespace Within
variable {outer r : Run}

theorem start_eq (h : Within outer r) : r = outer ∨ ∃ lexer states text depth,
    depth ≤ maxDelegation ∧ r = start lexer states text depth := by
  cases h with
  | outermost => exact .inl rfl
  | inner _ _ _ hnested =>
    obtain ⟨hdepth, job, -, rfl⟩ := mem_nested hnested
    exact .inr ⟨job.lexer, job.states, job.text, _, hdepth, rfl⟩

theorem trans {inner : Run} (h : Within outer r) (h' : Within r inner) : Within outer inner := by
  induction h' with
  | outermost => exact h
  | inner turns _ pending nested ih => exact .inner turns ih pending nested

end Within

end Run

/-- Hands the letters behind the first to the running lexer, in another state. -/
def nestingDraft : TableDraft where
  states :=
    [("root", [.groups "(b)(a+)" [.token .keyword, .delegate (.this (some ["inner"]))]]),
      ("inner", [(Entry.emit "a" .number).push "inner"])]

def nestingTable : Table := nestingDraft.compile.toOption.get (by decide +kernel)

def nestingLexer : Lexer := ⟨⟨"nesting", [], [], []⟩, nestingTable, [0], none, []⟩

end RuleLexer
