import RuleLexer.Language.Sass
import RuleLexer.Proofs.Seating

/-! The rules of Sass, as far as their patterns show it. A match has a newline at its end at most,
and where it has one the rule leads back to the root or stands there. A rule that takes nothing
leads from a state to one of higher rank, so no more than two of them follow one another. -/
namespace RuleLexer.Language.Sass
open RuleLexer.Text RuleLexer.Regex RuleLexer.Indentation Entry

def seating : Seating where
  bottom := "root"
  others := []
  seats := [("content", "root"), ("old-style-attr", "content"), ("pseudo-class", "selector"),
    ("class", "selector"), ("id", "selector")]
  apart := List.not_mem_nil
  lifted := by decide +kernel

/-- So many rules that take nothing can have led to a state. -/
def rank (state : String) : Nat :=
  if state ∈ ["new-style-attr", "selector"] then 2
  else if state ∈ ["content", "single-comment", "multi-comment", "value"] then 1
  else 0

def blocks : List String := ["single-comment", "multi-comment"]

inductive Shows (state : String) (body : Node) : Option (StackOp String) → Prop
  | stays (moves : body.moves) (line : body.lacks '\n' ∨ state = "root" ∧ body.endsAt '\n') :
      Shows state body none
  | pushes {next : String} (line : body.lacks '\n') (seated : seating.Allows state next)
      (grows : body.moves ∨ state ∈ ["content", "old-style-attr"] ∧ rank state < rank next) :
      Shows state body (some (.push [next]))
  | pops (line : body.lacks '\n')
      (grows : body.moves ∨ rank state = 0 ∧ (state, "selector") ∈ seating.seats) :
      Shows state body (some (.pop 1))
  | resets (moves : body.moves) (line : body.endsAt '\n') :
      Shows state body (some (.reset "root"))

/-- A callback comes from the root at the start of a line, or opens a block. -/
inductive CallbackShows (state : String) (body : Node) : Option (StackOp String) → Prop
  | starts (root : state = "root") (line : body.lacks '\n') : CallbackShows state body none
  | opens (moves : body.moves) (line : body.lacks '\n') :
      CallbackShows state body (some (.reset "root"))

def shows (state : String) (body : Node) : Option (StackOp String) → Bool
  | none => body.moves && (body.lacks '\n' || state == "root" && body.endsAt '\n')
  | some (.push [next]) => body.lacks '\n' && decide (seating.Allows state next) &&
      (body.moves || decide (state ∈ ["content", "old-style-attr"] ∧ rank state < rank next))
  | some (.pop 1) => body.lacks '\n' &&
      (body.moves || rank state == 0 && seating.seats.contains (state, "selector"))
  | some (.reset next) => next == "root" && body.moves && body.endsAt '\n'
  | _ => false

def callbackShows (state : String) (body : Node) : Option (StackOp String) → Bool
  | none => state == "root" && body.lacks '\n'
  | some (.reset next) => next == "root" && body.moves && body.lacks '\n'
  | _ => false

section shows
variable {state : String} {body : Node} {op? : Option (StackOp String)}

theorem Shows.of_shows (h : shows state body op?) : Shows state body op? := by
  unfold shows at h
  split at h
  all_goals
    simp only [Bool.and_eq_true, Bool.or_eq_true, beq_iff_eq, decide_eq_true_eq,
      List.contains_iff_mem, Bool.false_eq_true] at h
  · exact .stays h.1 h.2
  · exact .pushes h.1.1 h.1.2 h.2
  · exact .pops h.1 h.2
  · obtain ⟨⟨rfl, hmoves⟩, hline⟩ := h
    exact .resets hmoves hline

theorem CallbackShows.of_shows (h : callbackShows state body op?) :
    CallbackShows state body op? := by
  unfold callbackShows at h
  split at h
  all_goals simp only [Bool.and_eq_true, beq_iff_eq, Bool.false_eq_true] at h
  · exact .starts h.1 h.2
  · obtain ⟨⟨rfl, hmoves⟩, hline⟩ := h
    exact .opens hmoves hline

/-- No state stands on the one for values only, so its rules can stand in any state. -/
theorem Shows.of_value (h : Shows "value" body op?) (state : String) : Shows state body op? := by
  have hnot : ∀ seat ∈ seating.seats, seat.2 ≠ "value" := by decide
  cases h with
  | stays moves line =>
    exact .stays moves (line.imp_right fun h => absurd h.1 (by decide))
  | pushes line seated grows =>
    refine .pushes line ⟨seated.1, seated.2.1, fun seat hseat heq => ?_⟩
      (.inl (grows.resolve_right fun h => absurd h.1 (by decide)))
    exact absurd (seated.2.2 seat hseat heq) (hnot seat hseat)
  | pops line grows =>
    exact .pops line (.inl (grows.resolve_right fun h => absurd h.2 (by decide)))
  | resets moves line => exact .resets moves line

end shows

def check (state : String) (r : Rule Delegate) (body _after : Node) : Bool :=
  match r.action with
  | .callback _ => callbackShows state body r.op?
  | _ => shows state body r.op?

def found (state : String) (e : Entry Delegate) : Bool :=
  e.checks (check state) table.flags table.names

def wordEntries : List (Entry Delegate) :=
  [keywords Css.properties .nameConstant, keywords Css.extendedColors .nameEntity,
    keywords Css.basicColors .nameBuiltin]

theorem states_eq : table.states = table.states.take 8 ++
    ("value", value.take 4 ++ wordEntries ++ (value.drop 7 ++ [(emit "\\n" .text).reset "root"])) ::
      table.states.drop 9 := rfl

theorem found_others : (table.states.take 8).all (fun state => state.2.all (found state.1)) ∧
    (table.states.drop 9).all (fun state => state.2.all (found state.1)) ∧
    (value.take 4).all (found "value") ∧
    (value.drop 7 ++ [(emit "\\n" .text).reset "root"]).all (found "value") := by
  and_intros
  all_goals decide +kernel

/-- The words make a pattern that takes something, and no newline. -/
def ShowsWords (flags : PatternFlags) (list : List String) : Prop :=
  Pattern.shows (fun body _ => body.moves && body.lacks '\n') flags
    (Words.chars (list.map String.toList) [] ['\\', 'b']) none

theorem checks_wordEntries {check : Rule Delegate → Node → Node → Bool} {flags : PatternFlags}
    {names : List String}
    (h : ∀ list ∈ [Css.properties, Css.extendedColors, Css.basicColors], ShowsWords flags list)
    (hcheck : ∀ source category body after, body.moves → body.lacks '\n' →
      check ⟨source, .emit category, none⟩ body after) :
    ∀ e ∈ wordEntries, e.checks check flags names := by
  have hword : ∀ {list}, ShowsWords flags list → ∀ category,
      (keywords list category).checks check flags names := by
    intro list hlist category
    refine checks_words rfl (Pattern.shows_mono (fun body after hword => ?_) hlist)
    obtain ⟨hmoves, hlacks⟩ := Bool.and_eq_true_iff.1 hword
    exact hcheck _ _ body after hmoves hlacks
  simp only [List.forall_mem_cons] at h
  simp only [wordEntries, List.forall_mem_cons]
  exact ⟨hword h.1 _, hword h.2.1 _, hword h.2.2.1 _, List.forall_mem_nil _⟩

set_option maxRecDepth 4000 in
theorem showsWords_properties : ShowsWords table.flags Css.properties := by
  simp only [ShowsWords, Css.properties, List.map, String.reduceToList]
  decide +kernel

theorem showsWords_colors :
    ∀ list ∈ [Css.extendedColors, Css.basicColors], ShowsWords table.flags list := by
  simp only [ShowsWords, List.forall_mem_cons, Css.extendedColors, Css.basicColors, List.map,
    String.reduceToList]
  decide +kernel

theorem found_words : ∀ e ∈ wordEntries, found "value" e :=
  checks_wordEntries (List.forall_mem_cons.2 ⟨showsWords_properties, showsWords_colors⟩)
    fun _ _ _ _ hmoves hlacks => by simp [check, shows, hmoves, hlacks]

theorem found_all : ∀ state ∈ table.states, ∀ e ∈ state.2, found state.1 e := by
  obtain ⟨hbefore, hbehind, hfirst, hlast⟩ := found_others
  rw [states_eq, List.forall_mem_append, List.forall_mem_cons, List.forall_mem_append,
    List.forall_mem_append]
  exact ⟨fun state hstate => List.all_eq_true.1 (List.all_eq_true.1 hbefore state hstate),
    ⟨⟨List.all_eq_true.1 hfirst, found_words⟩, List.all_eq_true.1 hlast⟩,
    fun state hstate => List.all_eq_true.1 (List.all_eq_true.1 hbehind state hstate)⟩

theorem restsOn_table : table.RestsOn "value" := by decide

theorem surveyed_table : table.Surveyed check :=
  .of_checks rfl (by decide) (by decide) (by decide) restsOn_table.acyclic found_all

/-! The callbacks -/

def spoken (d : TableDraft) : List (Option (StackOp String) × Callback) :=
  d.states.flatMap fun state => state.2.filterMap fun
    | .rule ⟨_, .callback f, op?⟩ => some (op?, f)
    | _ => none

theorem spoken_table : spoken table = [(none, lineStart "content"),
    (some (.reset "root"), opensBlock .commentSingle "single-comment"),
    (some (.reset "root"), opensBlock .commentMultiline "multi-comment")] := rfl

theorem mem_spoken {state : String} {r : Rule Delegate} (h : table.Holds state (.rule r))
    {f : Callback} (haction : r.action = .callback f) : (r.op?, f) ∈ spoken table := by
  obtain ⟨source, action, op?⟩ := r
  cases haction
  obtain ⟨entries, hstate, hentry⟩ := h
  exact List.mem_flatMap.2 ⟨_, hstate, List.mem_filterMap.2 ⟨_, hentry, rfl⟩⟩

/-! Rules that win -/

inductive Shown (state : String) (place : Cursor) (rule : CompiledRule) (found : Match) : Prop
  | plain {op? : Option (StackOp String)} {body after : Node}
      (plain : ∀ f, rule.action ≠ .callback f) (shows : Shows state body op?)
      (op : Option.Rel (StackOp.Rel (Named table.names)) op? rule.op?)
      (leads : found.Leads place body after)
  | starts {body after : Node} (root : state = "root")
      (action : rule.action = .callback (lineStart "content")) (op : rule.op? = none)
      (line : body.lacks '\n') (leads : found.Leads place body after)
  | opens {body after : Node} {category : Category} {block : String} (known : block ∈ blocks)
      (action : rule.action = .callback (opensBlock category block))
      (op : Option.Rel (StackOp.Rel (Named table.names)) (some (.reset "root")) rule.op?)
      (moves : body.moves) (line : body.lacks '\n') (leads : found.Leads place body after)

def lexerOf (t : Table) : Lexer := ⟨info, t, [t.root], none, []⟩

theorem shown_winner {t : Table} {r : Run} {rule : CompiledRule} {found : Match}
    (htable : table.compile = .ok t) (hlexer : r.lexer = lexerOf t)
    (hwinner : r.winner? = some (rule, found)) {state : String}
    (htop : Named table.names state r.stack.top) : Shown state r.cursor rule found := by
  have hrules : r.table.rulesOf r.stack.top = t.rulesOf r.stack.top := by
    rw [Run.table, hlexer, lexerOf]
  have hmem := (Run.firstMatch_some hwinner).1
  rw [hrules] at hmem
  obtain ⟨owner, q, howner, hholds, hbinds, hshows⟩ :=
    surveyed_table.exists_rule htable htop hmem
  obtain ⟨body, after, hcheck, hleads⟩ := hbinds.leads hshows (Run.matchAt_of_firstMatch hwinner)
  have hstate := restsOn_table.owner howner
  by_cases hcallback : ∃ f, q.action = .callback f
  · obtain ⟨f, haction⟩ := hcallback
    have hcompiled : rule.action = .callback f := (hbinds.callback_iff f).2 haction
    have hspoken := mem_spoken hholds haction
    rw [spoken_table] at hspoken
    rw [check, haction] at hcheck
    have hop := hbinds.op
    have hnone := hbinds.op_none
    generalize q.op? = op? at hcheck hop hspoken hnone
    cases CallbackShows.of_shows hcheck with
    | starts root line =>
      have hf : f = lineStart "content" := by simpa using hspoken
      refine .starts (hstate.elim (fun heq => heq ▸ root) fun heq => ?_) (hf ▸ hcompiled)
        (hnone rfl) line hleads
      exact absurd (heq ▸ root) (by decide)
    | opens moves line =>
      have hf : f = opensBlock .commentSingle "single-comment" ∨
          f = opensBlock .commentMultiline "multi-comment" := by simpa using hspoken
      rcases hf with rfl | rfl
      · exact .opens (.head _) hcompiled hop moves line hleads
      · exact .opens (.tail _ (.head _)) hcompiled hop moves line hleads
  · have hplain : ∀ f, rule.action ≠ .callback f := fun f hf =>
      hcallback ⟨f, (hbinds.callback_iff f).1 hf⟩
    have hshown : Shows owner body q.op? := by
      rw [check] at hcheck
      split at hcheck
      · next f haction => exact absurd ⟨f, haction⟩ hcallback
      · exact .of_shows hcheck
    refine .plain hplain ?_ hbinds.op hleads
    rcases hstate with rfl | rfl
    · exact hshown
    · exact hshown.of_value state

end RuleLexer.Language.Sass
