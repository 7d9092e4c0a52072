import Mathlib.Data.List.Forall2
import RuleLexer.Table.Compile

/-! What the names in a rule are bound to. A rule as it is written and the rule that runs stand in a
relation that says nothing of the state that holds the rule or of its place there: both matter to
errors alone. A rule can be bound when everything that it names is found, each name in the table in
which the rule's run will look it up, and its pattern can be read. -/
namespace RuleLexer

section results
variable {ε α β : Type}

theorem bind_ok {x : Except ε α} {f : α → Except ε β} {b : β} :
    x >>= f = .ok b ↔ ∃ a, x = .ok a ∧ f a = .ok b := by
  cases x <;> simp [bind, Except.bind]

theorem map_ok {x : Except ε α} {f : α → β} {b : β} :
    f <$> x = .ok b ↔ ∃ a, x = .ok a ∧ f a = b := by
  cases x <;> simp [Functor.map, Except.map]

theorem mapM_ok_iff {f : α → Except ε β} {xs : List α} {ys : List β} :
    xs.mapM f = .ok ys ↔ List.Forall₂ (fun x y => f x = .ok y) xs ys := by
  induction xs generalizing ys with
  | nil =>
    rw [List.forall₂_nil_left_iff]
    exact ⟨fun h => by cases h; rfl, fun h => by rw [h]; rfl⟩
  | cons x xs ih =>
    rw [List.mapM_cons, bind_ok, List.forall₂_cons_left_iff]
    constructor
    · rintro ⟨y, hy, h⟩
      obtain ⟨rest, hrest, h⟩ := bind_ok.1 h
      cases h
      exact ⟨y, rest, hy, ih.1 hrest, rfl⟩
    · rintro ⟨y, rest, hy, hrest, rfl⟩
      exact ⟨y, hy, bind_ok.2 ⟨rest, ih.2 hrest, rfl⟩⟩

end results

section relations
variable {α β : Type} {R : α → β → Prop}

theorem exists_forall₂ {xs : List α} :
    (∃ ys, List.Forall₂ R xs ys) ↔ ∀ x ∈ xs, ∃ y, R x y := by
  induction xs with
  | nil => simp
  | cons x xs ih =>
    simp only [List.forall_mem_cons, ← ih, List.forall₂_cons_left_iff]
    constructor
    · rintro ⟨_, y, ys, hy, hys, rfl⟩
      exact ⟨⟨y, hy⟩, ys, hys⟩
    · rintro ⟨⟨y, hy⟩, ys, hys⟩
      exact ⟨y :: ys, y, ys, hy, hys, rfl⟩

theorem exists_mem_of_forall₂ {xs : List α} {ys : List β} (h : List.Forall₂ R xs ys) {y : β}
    (hy : y ∈ ys) : ∃ x ∈ xs, R x y := by
  obtain ⟨i, hi, rfl⟩ := List.mem_iff_getElem.1 hy
  have hxs : i < xs.length := by rwa [h.length_eq]
  exact ⟨xs[i], List.getElem_mem hxs, h.get hxs hi⟩

theorem exists_append_of_forall₂ {xs more : List α} {ys : List β}
    (h : List.Forall₂ R (xs ++ more) ys) :
    ∃ first rest, ys = first ++ rest ∧ List.Forall₂ R xs first ∧ List.Forall₂ R more rest := by
  have hflip := h.flip
  exact ⟨ys.take xs.length, ys.drop xs.length, (List.take_append_drop _ _).symm,
    (List.forall₂_take_append _ _ _ hflip).flip, (List.forall₂_drop_append _ _ _ hflip).flip⟩

theorem exists_optionRel {a? : Option α} :
    (∃ b?, Option.Rel R a? b?) ↔ ∀ a ∈ a?, ∃ b, R a b := by
  cases a? with
  | none => exact ⟨fun _ => by simp, fun _ => ⟨_, .none⟩⟩
  | some a =>
    constructor
    · rintro ⟨b?, h⟩ _ ⟨⟩
      cases h with
      | some h => exact ⟨_, h⟩
    · intro h
      obtain ⟨b, hb⟩ := h a rfl
      exact ⟨_, .some hb⟩

theorem exists_mem_of_optionRel {a? : Option α} {b? : Option β} (h : Option.Rel R a? b?) {b : β}
    (hb : b ∈ b?) : ∃ a ∈ a?, R a b := by
  cases h with
  | none => cases hb
  | some h =>
    cases hb
    exact ⟨_, rfl, h⟩

end relations

inductive Action.HandsTo {δ : Type} (target : δ) : Action δ → Prop
  | whole : HandsTo target (.delegate target)
  | group {emissions : List (Emission δ)} (h : .delegate target ∈ emissions) :
      HandsTo target (.groups emissions)

section lifting
variable {σ τ : Type}

/-- The same operation, on states that are related. -/
inductive StackOp.Rel (R : σ → τ → Prop) : StackOp σ → StackOp τ → Prop
  | push {states : List σ} {others : List τ} (h : List.Forall₂ R states others) :
      Rel R (.push states) (.push others)
  | pushCurrent : Rel R .pushCurrent .pushCurrent
  | pop (count : Nat) : Rel R (.pop count) (.pop count)
  | replace {states : List σ} {others : List τ} (h : List.Forall₂ R states others) :
      Rel R (.replace states) (.replace others)
  | reset {state : σ} {other : τ} (h : R state other) : Rel R (.reset state) (.reset other)

inductive Emission.Rel (R : σ → τ → Prop) : Emission σ → Emission τ → Prop
  | token (category : Category) : Rel R (.token category) (.token category)
  | delegate {target : σ} {other : τ} (h : R target other) :
      Rel R (.delegate target) (.delegate other)

inductive Action.Rel (R : σ → τ → Prop) : Action σ → Action τ → Prop
  | emit (category : Category) : Rel R (.emit category) (.emit category)
  | groups {emissions : List (Emission σ)} {others : List (Emission τ)}
      (h : List.Forall₂ (Emission.Rel R) emissions others) :
      Rel R (.groups emissions) (.groups others)
  | delegate {target : σ} {other : τ} (h : R target other) :
      Rel R (.delegate target) (.delegate other)
  | callback (f : Callback) : Rel R (.callback f) (.callback f)

variable {R : σ → τ → Prop}

theorem StackOp.mapM_ok_iff {ε : Type} {f : σ → Except ε τ} {op : StackOp σ} {other : StackOp τ} :
    op.mapM f = .ok other ↔ op.Rel (fun state id => f state = .ok id) other := by
  cases op with
  | push states =>
    simp only [StackOp.mapM, map_ok, RuleLexer.mapM_ok_iff]
    constructor
    · rintro ⟨ids, hids, rfl⟩
      exact .push hids
    · intro h
      cases h with
      | push h => exact ⟨_, h, rfl⟩
  | replace states =>
    simp only [StackOp.mapM, map_ok, RuleLexer.mapM_ok_iff]
    constructor
    · rintro ⟨ids, hids, rfl⟩
      exact .replace hids
    · intro h
      cases h with
      | replace h => exact ⟨_, h, rfl⟩
  | reset state =>
    rw [StackOp.mapM, map_ok]
    constructor
    · rintro ⟨id, hid, rfl⟩
      exact .reset hid
    · intro h
      cases h with
      | reset h => exact ⟨_, h, rfl⟩
  | pushCurrent | pop count =>
    constructor
    · rintro ⟨⟩
      constructor
    · rintro ⟨⟩
      rfl

theorem StackOp.Rel.states {op : StackOp σ} {other : StackOp τ} (h : op.Rel R other) :
    List.Forall₂ R op.states other.states := by
  cases h with
  | push h | replace h => exact h
  | reset h => exact .cons h .nil
  | pushCurrent | pop => exact .nil

theorem StackOp.exists_rel {op : StackOp σ} :
    (∃ other, op.Rel R other) ↔ ∀ state ∈ op.states, ∃ id, R state id := by
  rw [← exists_forall₂]
  constructor
  · rintro ⟨other, h⟩
    exact ⟨_, h.states⟩
  · rintro ⟨ids, h⟩
    cases op with
    | push states => exact ⟨_, .push h⟩
    | replace states => exact ⟨_, .replace h⟩
    | reset state =>
      obtain ⟨id, _, hid, -, -⟩ := List.forall₂_cons_left_iff.1 h
      exact ⟨_, .reset hid⟩
    | pushCurrent => exact ⟨_, .pushCurrent⟩
    | pop count => exact ⟨_, .pop count⟩

theorem Emission.rel_refl {R : σ → σ → Prop} {e : Emission σ}
    (h : ∀ target, e = .delegate target → R target target) : e.Rel R e := by
  cases e with
  | token category => exact .token category
  | delegate target => exact .delegate (h target rfl)

theorem Action.rel_refl {R : σ → σ → Prop} {action : Action σ}
    (h : ∀ target, action.HandsTo target → R target target) : action.Rel R action := by
  cases action with
  | emit category => exact .emit category
  | callback f => exact .callback f
  | delegate target => exact .delegate (h target .whole)
  | groups emissions =>
    refine .groups (List.forall₂_same.2 fun e he => Emission.rel_refl fun target htarget => ?_)
    exact h target (.group (htarget ▸ he))

theorem Action.Rel.handsTo {action : Action σ} {other : Action τ} (h : action.Rel R other)
    {target : τ} (ht : other.HandsTo target) : ∃ d, action.HandsTo d ∧ R d target := by
  cases ht with
  | whole =>
    cases h with
    | delegate h => exact ⟨_, .whole, h⟩
  | group hmem =>
    cases h with
    | groups h =>
      obtain ⟨e, he, hrel⟩ := exists_mem_of_forall₂ h hmem
      cases hrel with
      | delegate hd => exact ⟨_, .group he, hd⟩

theorem Action.exists_rel {action : Action σ} :
    (∃ other, action.Rel R other) ↔ ∀ d, action.HandsTo d → ∃ target, R d target := by
  constructor
  · rintro ⟨other, h⟩ d hd
    cases hd with
    | whole =>
      cases h with
      | delegate h => exact ⟨_, h⟩
    | group hmem =>
      cases h with
      | groups h =>
        obtain ⟨_, -, hrel⟩ := exists_mem_of_forall₂ h.flip hmem
        cases hrel with
        | delegate hd => exact ⟨_, hd⟩
  · intro h
    cases action with
    | emit category => exact ⟨_, .emit category⟩
    | callback f => exact ⟨_, .callback f⟩
    | delegate d =>
      obtain ⟨target, htarget⟩ := h d .whole
      exact ⟨_, .delegate htarget⟩
    | groups emissions =>
      have hall : ∀ e ∈ emissions, ∃ other, Emission.Rel R e other := by
        intro e he
        cases e with
        | token category => exact ⟨_, .token category⟩
        | delegate d =>
          obtain ⟨target, htarget⟩ := h d (.group he)
          exact ⟨_, .delegate htarget⟩
      obtain ⟨others, hothers⟩ := exists_forall₂.2 hall
      exact ⟨_, .groups hothers⟩

end lifting

/-- A state by its name and by its place. -/
def Named (names : List String) (name : String) (id : StateId) : Prop :=
  names.idxOf? name = some id

theorem Named.lt {names : List String} {name : String} {id : StateId} (h : Named names name id) :
    id < names.length :=
  (List.idxOf?_eq_some_iff.1 h).1

theorem exists_named {names : List String} {name : String} :
    (∃ id, Named names name id) ↔ name ∈ names := by
  rw [← List.isSome_idxOf?, Option.isSome_iff_exists]
  rfl

/-- The states of a delegate, when it says some: it has to say at least one. -/
inductive BindsStates (names : List String) :
    Option (List String) → Option (List StateId) → Prop
  | unsaid : BindsStates names none none
  | said {states : List String} {ids : List StateId} (nonempty : states ≠ [])
      (named : List.Forall₂ (Named names) states ids) : BindsStates names (some states) (some ids)

/-- The states of another lexer are looked up in that lexer's table. -/
inductive Delegate.Binds (names : List String) : Delegate → Target → Prop
  | this {states? : Option (List String)} {ids? : Option (List StateId)}
      (states : BindsStates names states? ids?) : Binds names (.this states?) (.this ids?)
  | lexer {l : Lexer} {states? : Option (List String)} {ids? : Option (List StateId)}
      (states : BindsStates l.table.names states? ids?) :
      Binds names (.lexer l states?) (.lexer l ids?)

inductive RuleSource.Reads (flags : PatternFlags) : RuleSource → Matcher → Prop
  | matcher (m : Matcher) : Reads flags (.matcher m) m
  | pattern {source : String} {ahead? : Option String} {p : Pattern}
      (compiles : Pattern.compile source ahead? flags = .ok p) :
      Reads flags (.pattern source ahead?) (.pattern p)

structure Rule.Binds (flags : PatternFlags) (names : List String) (r : Rule Delegate)
    (c : CompiledRule) : Prop where
  source : r.source.Reads flags c.matcher
  op : Option.Rel (StackOp.Rel (Named names)) r.op? c.op?
  action : r.action.Rel (Delegate.Binds names) c.action

inductive Entry.Binds (flags : PatternFlags) (names : List String) :
    Entry Delegate → Slot → Prop
  | rule {r : Rule Delegate} {c : CompiledRule} (h : r.Binds flags names c) :
      Binds flags names (.rule r) (.rule c)
  | includes {name : String} {id : StateId} (h : Named names name id) :
      Binds flags names (.includes name) (.includes id)

/-- A delegate that says states says at least one, and they are in the table of its lexer. -/
def Delegate.Resolves (names : List String) : Delegate → Prop
  | .this states? => ∀ states ∈ states?, states ≠ [] ∧ ∀ name ∈ states, name ∈ names
  | .lexer l states? => ∀ states ∈ states?, states ≠ [] ∧ ∀ name ∈ states, name ∈ l.table.names

def RuleSource.Readable (flags : PatternFlags) : RuleSource → Prop
  | .matcher _ => True
  | .pattern source ahead? => ∃ p, Pattern.compile source ahead? flags = .ok p

structure Rule.Resolves (flags : PatternFlags) (names : List String) (r : Rule Delegate) :
    Prop where
  readable : r.source.Readable flags
  op : ∀ op ∈ r.op?, ∀ name ∈ op.states, name ∈ names
  delegates : ∀ d, r.action.HandsTo d → d.Resolves names

def Entry.Resolves (flags : PatternFlags) (names : List String) : Entry Delegate → Prop
  | .rule r => r.Resolves flags names
  | .includes name => name ∈ names

section resolving
variable {flags : PatternFlags} {names : List String}

theorem exists_bindsStates {states? : Option (List String)} :
    (∃ ids?, BindsStates names states? ids?) ↔
      ∀ states ∈ states?, states ≠ [] ∧ ∀ name ∈ states, name ∈ names := by
  constructor
  · rintro ⟨ids?, h⟩ states hstates
    cases h with
    | unsaid => cases hstates
    | said nonempty named =>
      cases hstates
      have hall := exists_forall₂.1 ⟨_, named⟩
      exact ⟨nonempty, fun name hname => exists_named.1 (hall name hname)⟩
  · intro h
    cases states? with
    | none => exact ⟨_, .unsaid⟩
    | some states =>
      obtain ⟨nonempty, hall⟩ := h states rfl
      obtain ⟨ids, hids⟩ := exists_forall₂.2 fun name hname => exists_named.2 (hall name hname)
      exact ⟨_, .said nonempty hids⟩

theorem Delegate.exists_binds {d : Delegate} :
    (∃ target, d.Binds names target) ↔ d.Resolves names := by
  cases d with
  | this states? =>
    rw [Delegate.Resolves, ← exists_bindsStates]
    constructor
    · rintro ⟨target, h⟩
      cases h with
      | this states => exact ⟨_, states⟩
    · rintro ⟨ids?, states⟩
      exact ⟨_, .this states⟩
  | lexer l states? =>
    rw [Delegate.Resolves, ← exists_bindsStates]
    constructor
    · rintro ⟨target, h⟩
      cases h with
      | lexer states => exact ⟨_, states⟩
    · rintro ⟨ids?, states⟩
      exact ⟨_, .lexer states⟩

theorem RuleSource.exists_reads {source : RuleSource} :
    (∃ m, source.Reads flags m) ↔ source.Readable flags := by
  cases source with
  | matcher m => exact ⟨fun _ => trivial, fun _ => ⟨m, .matcher m⟩⟩
  | pattern source ahead? =>
    constructor
    · rintro ⟨m, h⟩
      cases h with
      | pattern compiles => exact ⟨_, compiles⟩
    · rintro ⟨p, compiles⟩
      exact ⟨_, .pattern compiles⟩

theorem Rule.exists_binds {r : Rule Delegate} :
    (∃ c, r.Binds flags names c) ↔ r.Resolves flags names := by
  constructor
  · rintro ⟨c, hsource, hop, haction⟩
    refine ⟨RuleSource.exists_reads.1 ⟨_, hsource⟩, fun op hmem name hname => ?_, fun d hd => ?_⟩
    · obtain ⟨bound, hbound⟩ := exists_optionRel.1 ⟨_, hop⟩ op hmem
      exact exists_named.1 (StackOp.exists_rel.1 ⟨_, hbound⟩ name hname)
    · exact Delegate.exists_binds.1 (Action.exists_rel.1 ⟨_, haction⟩ d hd)
  · rintro ⟨readable, hop, hdelegates⟩
    obtain ⟨m, hm⟩ := RuleSource.exists_reads.2 readable
    obtain ⟨op?, hop⟩ := exists_optionRel.2 fun op hmem =>
      StackOp.exists_rel.2 fun name hname => exists_named.2 (hop op hmem name hname)
    obtain ⟨action, haction⟩ := Action.exists_rel.2 fun d hd =>
      Delegate.exists_binds.2 (hdelegates d hd)
    exact ⟨⟨m, action, op?⟩, hm, hop, haction⟩

theorem Entry.exists_binds {e : Entry Delegate} :
    (∃ slot, e.Binds flags names slot) ↔ e.Resolves flags names := by
  cases e with
  | rule r =>
    rw [Entry.Resolves, ← Rule.exists_binds]
    constructor
    · rintro ⟨slot, h⟩
      cases h with
      | rule h => exact ⟨_, h⟩
    · rintro ⟨c, h⟩
      exact ⟨_, .rule h⟩
  | includes name =>
    rw [Entry.Resolves, ← exists_named]
    constructor
    · rintro ⟨slot, h⟩
      cases h with
      | includes h => exact ⟨_, h⟩
    · rintro ⟨id, h⟩
      exact ⟨_, .includes h⟩

end resolving

namespace TableDraft
variable {flags : PatternFlags} {names : List String}

theorem lookup_ok_iff {origin name : String} {id : StateId} :
    lookup names origin name = .ok id ↔ Named names name id := by
  rw [lookup, Named]
  cases names.idxOf? name <;> simp

theorem bindStates?_ok_iff {origin : String} {states? : Option (List String)}
    {ids? : Option (List StateId)} :
    bindStates? names origin states? = .ok ids? ↔ BindsStates names states? ids? := by
  rcases states? with _ | _ | ⟨state, states⟩
  · constructor
    · rintro ⟨⟩
      exact .unsaid
    · rintro ⟨⟩
      rfl
  · constructor
    · rintro ⟨⟩
    · intro h
      cases h with
      | said nonempty _ => exact absurd rfl nonempty
  · show some <$> (state :: states).mapM (lookup names origin) = .ok ids? ↔ _
    simp only [map_ok, mapM_ok_iff, lookup_ok_iff]
    constructor
    · rintro ⟨ids, hids, rfl⟩
      exact .said (by simp) hids
    · intro h
      cases h with
      | said _ hids => exact ⟨_, hids, rfl⟩

theorem bindDelegate_ok_iff {state : String} {d : Delegate} {target : Target} :
    bindDelegate names state d = .ok target ↔ d.Binds names target := by
  cases d with
  | this states? =>
    rw [bindDelegate, map_ok]
    simp only [bindStates?_ok_iff]
    constructor
    · rintro ⟨ids?, hids, rfl⟩
      exact .this hids
    · intro h
      cases h with
      | this h => exact ⟨_, h, rfl⟩
  | lexer l states? =>
    rw [bindDelegate, map_ok]
    simp only [bindStates?_ok_iff]
    constructor
    · rintro ⟨ids?, hids, rfl⟩
      exact .lexer hids
    · intro h
      cases h with
      | lexer h => exact ⟨_, h, rfl⟩

theorem bindEmission_ok_iff {state : String} {e : Emission Delegate} {bound : Emission Target} :
    bindEmission names state e = .ok bound ↔ e.Rel (Delegate.Binds names) bound := by
  cases e with
  | token category =>
    constructor
    · rintro ⟨⟩
      exact .token category
    · rintro ⟨⟩
      rfl
  | delegate d =>
    rw [bindEmission, map_ok]
    simp only [bindDelegate_ok_iff]
    constructor
    · rintro ⟨target, htarget, rfl⟩
      exact .delegate htarget
    · intro h
      cases h with
      | delegate h => exact ⟨_, h, rfl⟩

theorem bindAction_ok_iff {state : String} {action : Action Delegate} {bound : Action Target} :
    bindAction names state action = .ok bound ↔ action.Rel (Delegate.Binds names) bound := by
  cases action with
  | emit | callback =>
    constructor
    · rintro ⟨⟩
      constructor
    · rintro ⟨⟩
      rfl
  | groups emissions =>
    rw [bindAction, map_ok]
    simp only [mapM_ok_iff, bindEmission_ok_iff]
    constructor
    · rintro ⟨bounds, hbounds, rfl⟩
      exact .groups hbounds
    · intro h
      cases h with
      | groups h => exact ⟨_, h, rfl⟩
  | delegate d =>
    rw [bindAction, map_ok]
    simp only [bindDelegate_ok_iff]
    constructor
    · rintro ⟨target, htarget, rfl⟩
      exact .delegate htarget
    · intro h
      cases h with
      | delegate h => exact ⟨_, h, rfl⟩

theorem compileMatcher_ok_iff {state : String} {index : Nat} {source : RuleSource}
    {m : Matcher} : compileMatcher flags state index source = .ok m ↔ source.Reads flags m := by
  cases source with
  | matcher =>
    constructor
    · rintro ⟨⟩
      exact .matcher _
    · rintro ⟨⟩
      rfl
  | pattern source ahead? =>
    rw [compileMatcher]
    cases hread : Pattern.compile source ahead? flags with
    | ok p =>
      constructor
      · rintro ⟨⟩
        exact .pattern hread
      · intro h
        cases h with
        | pattern compiles =>
          cases hread.symm.trans compiles
          rfl
    | error reason =>
      constructor
      · rintro ⟨⟩
      · intro h
        cases h with
        | pattern compiles => cases hread.symm.trans compiles

theorem bindOp?_ok_iff {state : String} {op? : Option (StackOp String)}
    {bound? : Option (StackOp StateId)} :
    bindOp? names state op? = .ok bound? ↔ Option.Rel (StackOp.Rel (Named names)) op? bound? := by
  cases op? with
  | none =>
    constructor
    · rintro ⟨⟩
      exact .none
    · rintro ⟨⟩
      rfl
  | some op =>
    rw [bindOp?, map_ok]
    simp only [StackOp.mapM_ok_iff, lookup_ok_iff]
    constructor
    · rintro ⟨bound, hbound, rfl⟩
      exact .some hbound
    · intro h
      cases h with
      | some h => exact ⟨_, h, rfl⟩

theorem compileRule_ok_iff {state : String} {index : Nat} {r : Rule Delegate}
    {c : CompiledRule} :
    compileRule flags names state index r = .ok c ↔ r.Binds flags names c := by
  simp only [compileRule, bind_ok, compileMatcher_ok_iff, bindOp?_ok_iff, bindAction_ok_iff]
  constructor
  · rintro ⟨matcher, hmatcher, op?, hop, action, haction, h⟩
    cases h
    exact ⟨hmatcher, hop, haction⟩
  · rintro ⟨hmatcher, hop, haction⟩
    exact ⟨_, hmatcher, _, hop, _, haction, rfl⟩

theorem compileEntry_ok_iff {state : String} {index : Nat} {e : Entry Delegate} {slot : Slot} :
    compileEntry flags names state index e = .ok slot ↔ e.Binds flags names slot := by
  cases e with
  | rule r =>
    rw [compileEntry, map_ok]
    simp only [compileRule_ok_iff]
    constructor
    · rintro ⟨c, hc, rfl⟩
      exact .rule hc
    · intro h
      cases h with
      | rule h => exact ⟨_, h, rfl⟩
  | includes name =>
    rw [compileEntry, map_ok]
    simp only [lookup_ok_iff]
    constructor
    · rintro ⟨id, hid, rfl⟩
      exact .includes hid
    · intro h
      cases h with
      | includes h => exact ⟨_, h, rfl⟩

theorem compileEntries_ok_iff {state : String} {index : Nat} {entries : List (Entry Delegate)}
    {slots : List Slot} : compileEntries flags names state index entries = .ok slots ↔
      List.Forall₂ (Entry.Binds flags names) entries slots := by
  induction entries generalizing index slots with
  | nil =>
    rw [List.forall₂_nil_left_iff, compileEntries]
    simp [eq_comm]
  | cons e rest ih =>
    rw [compileEntries, List.forall₂_cons_left_iff]
    simp only [bind_ok, map_ok, compileEntry_ok_iff, ih]
    constructor
    · rintro ⟨slot, hslot, later, hlater, rfl⟩
      exact ⟨slot, later, hslot, hlater, rfl⟩
    · rintro ⟨slot, later, hslot, hlater, rfl⟩
      exact ⟨slot, hslot, later, hlater, rfl⟩

end TableDraft

section unique
variable {flags : PatternFlags} {names : List String}

theorem Entry.rightUnique_binds : Relator.RightUnique (Entry.Binds flags names) := by
  intro e slot other h hother
  have hslot : TableDraft.compileEntry flags names "" 0 e = .ok slot :=
    TableDraft.compileEntry_ok_iff.2 h
  rw [TableDraft.compileEntry_ok_iff.2 hother] at hslot
  exact (Except.ok.inj hslot).symm

theorem RuleSource.rightUnique_reads : Relator.RightUnique (RuleSource.Reads flags) := by
  intro source m other h hother
  have hm : TableDraft.compileMatcher flags "" 0 source = .ok m :=
    TableDraft.compileMatcher_ok_iff.2 h
  rw [TableDraft.compileMatcher_ok_iff.2 hother] at hm
  exact (Except.ok.inj hm).symm

theorem StackOp.rel_unique {op? : Option (StackOp String)} {bound? other? : Option (StackOp StateId)}
    (h : Option.Rel (StackOp.Rel (Named names)) op? bound?)
    (hother : Option.Rel (StackOp.Rel (Named names)) op? other?) : other? = bound? := by
  have hbound : TableDraft.bindOp? names "" op? = .ok bound? := TableDraft.bindOp?_ok_iff.2 h
  rw [TableDraft.bindOp?_ok_iff.2 hother] at hbound
  exact Except.ok.inj hbound

end unique

end RuleLexer
