import RuleLexer.Proofs.Binding
import RuleLexer.Proofs.Expansion
import RuleLexer.Proofs.StackStates

/-! What a table that builds promises. Every state that a rule names is found in the table that the
rule's run will look it up in: the states of stack operations, and those in which the running lexer
is to run again, in the table of the rule itself, and those of another lexer in the table of that
lexer. -/
namespace RuleLexer

def TableDraft.HandsTo (d : TableDraft) (target : Delegate) : Prop :=
  ∃ state ∈ d.states, ∃ r, .rule r ∈ state.2 ∧ r.action.HandsTo target

/-- The lexer comes from a draft over a table that comes from a draft, and so do all the lexers that
it hands text to. -/
inductive Lexer.Built : Lexer → Prop
  | compile {t : TableDraft} {d : LexerDraft} {l : Lexer}
      (others : ∀ other states?, t.HandsTo (.lexer other states?) → Built other)
      (table : t.compile = .ok d.table) (lexer : d.compile = .ok l) : Built l

namespace Target

/-- The states of a target are in the table of the lexer that it hands text to. -/
def InRange (count : Nat) : Target → Prop
  | this states? => ∀ states ∈ states?, Listed count states
  | lexer l states? => ∀ states ∈ states?, Listed l.table.stateCount states

def Valid (count : Nat) : Target → Prop
  | this states? => ∀ states ∈ states?, Listed count states
  | lexer l states? => Lexer.Built l ∧ ∀ states ∈ states?, Listed l.table.stateCount states

end Target

structure RuleOf.InRange (count : Nat) (rule : CompiledRule) : Prop where
  op : ∀ op ∈ rule.op?, Listed count op.states
  targets : ∀ target, rule.action.HandsTo target → target.InRange count

structure RuleOf.Valid (count : Nat) (rule : CompiledRule) : Prop where
  op : ∀ op ∈ rule.op?, Listed count op.states
  targets : ∀ target, rule.action.HandsTo target → target.Valid count

section binding
variable {names : List String}

theorem listed_of_named {states : List String} {ids : List StateId}
    (h : List.Forall₂ (Named names) states ids) : Listed names.length ids := by
  intro id hid
  obtain ⟨name, -, hname⟩ := exists_mem_of_forall₂ h hid
  exact hname.lt

theorem BindsStates.listed {states? : Option (List String)} {ids? : Option (List StateId)}
    (h : BindsStates names states? ids?) : ∀ ids ∈ ids?, Listed names.length ids := by
  cases h with
  | unsaid => simp
  | said _ named => simpa using listed_of_named named

theorem Delegate.Binds.inRange {d : Delegate} {target : Target} (h : d.Binds names target) :
    target.InRange names.length := by
  cases h with
  | this states | lexer states => exact states.listed

theorem Delegate.Binds.valid {d : Delegate} {target : Target} (h : d.Binds names target)
    (hothers : ∀ other states?, d = .lexer other states? → Lexer.Built other) :
    target.Valid names.length := by
  cases h with
  | this states => exact states.listed
  | @lexer l states? _ states => exact ⟨hothers l states? rfl, states.listed⟩

namespace Rule.Binds
variable {flags : PatternFlags} {r : Rule Delegate} {rule : CompiledRule}

theorem listed_op (h : r.Binds flags names rule) :
    ∀ op ∈ rule.op?, Listed names.length op.states := by
  intro op hop
  obtain ⟨_, -, hrel⟩ := exists_mem_of_optionRel h.op hop
  exact listed_of_named hrel.states

theorem inRange (h : r.Binds flags names rule) : rule.InRange names.length := by
  refine ⟨h.listed_op, fun target htarget => ?_⟩
  obtain ⟨d, -, hd⟩ := h.action.handsTo htarget
  exact hd.inRange

theorem valid (h : r.Binds flags names rule)
    (hothers : ∀ other states?, r.action.HandsTo (.lexer other states?) → Lexer.Built other) :
    rule.Valid names.length := by
  refine ⟨h.listed_op, fun target htarget => ?_⟩
  obtain ⟨d, hhands, hd⟩ := h.action.handsTo htarget
  exact hd.valid fun other states? hsame => hothers other states? (hsame ▸ hhands)

end Rule.Binds

end binding

namespace TableDraft

def stateSlots (d : TableDraft) : Except TableError (List (List Slot)) :=
  d.states.mapM fun s => compileEntries d.flags d.names s.1 0 s.2

theorem stateSlots_ok_iff {d : TableDraft} {slots : List (List Slot)} :
    d.stateSlots = .ok slots ↔
      List.Forall₂ (fun s place => List.Forall₂ (Entry.Binds d.flags d.names) s.2 place)
        d.states slots := by
  simp only [stateSlots, mapM_ok_iff, compileEntries_ok_iff]

theorem length_stateSlots {d : TableDraft} {slots : List (List Slot)}
    (h : d.stateSlots = .ok slots) : d.names.length = slots.length := by
  simpa [names] using (stateSlots_ok_iff.1 h).length_eq

theorem linked_stateSlots {d : TableDraft} {slots : List (List Slot)}
    (h : d.stateSlots = .ok slots) : Linked slots := by
  rintro state other ⟨place, hplace, hother⟩
  obtain ⟨_, -, hentries⟩ :=
    exists_mem_of_forall₂ (stateSlots_ok_iff.1 h) (List.mem_of_getElem? hplace)
  obtain ⟨_, -, hbinds⟩ := exists_mem_of_forall₂ hentries hother
  rw [← length_stateSlots h]
  cases hbinds with
  | includes hnamed => exact hnamed.lt

theorem compile_eq {d : TableDraft} {root : StateId} (once : d.duplicate? = none)
    (hroot : d.names.idxOf? d.root = some root) (few : d.names.length ≤ TableError.maxStates) :
    d.compile = d.stateSlots >>= fun slots => expandAll d.names slots >>= fun rules =>
      .ok ⟨d.names, rules, root, d.fallback, d.resetsOnNewline, d.flags⟩ := by
  simp only [compile, once, hroot, if_neg (Nat.not_lt.2 few)]
  rfl

theorem compile_ok_iff {d : TableDraft} {table : Table} :
    d.compile = .ok table ↔ d.duplicate? = none ∧ d.names.length ≤ TableError.maxStates ∧
      ∃ root slots rules, d.names.idxOf? d.root = some root ∧ d.stateSlots = .ok slots ∧
        expandAll d.names slots = .ok rules ∧
        table = ⟨d.names, rules, root, d.fallback, d.resetsOnNewline, d.flags⟩ := by
  constructor
  · intro h
    cases once : d.duplicate? with
    | some state =>
      rw [compile, once] at h
      cases h
    | none =>
      cases hroot : d.names.idxOf? d.root with
      | none =>
        simp only [compile, once, hroot] at h
        cases h
      | some root =>
        by_cases few : d.names.length ≤ TableError.maxStates
        · rw [compile_eq once hroot few] at h
          obtain ⟨slots, hslots, h⟩ := bind_ok.1 h
          obtain ⟨rules, hrules, h⟩ := bind_ok.1 h
          cases h
          exact ⟨rfl, few, root, slots, rules, rfl, hslots, hrules, rfl⟩
        · simp only [compile, once, hroot, if_pos (Nat.lt_of_not_le few)] at h
          cases h
  · rintro ⟨once, few, root, slots, rules, hroot, hslots, hrules, rfl⟩
    rw [compile_eq once hroot few]
    exact bind_ok.2 ⟨slots, hslots, bind_ok.2 ⟨rules, hrules, rfl⟩⟩

theorem names_of_compile_ok {d : TableDraft} {table : Table} (h : d.compile = .ok table) :
    table.names = d.names := by
  obtain ⟨-, -, _, _, _, -, -, -, rfl⟩ := compile_ok_iff.1 h
  rfl

theorem compile_ok {d : TableDraft} {table : Table} (h : d.compile = .ok table) :
    table.root < table.stateCount ∧ table.rules.length = table.stateCount ∧
      ∀ rules ∈ table.rules, ∀ rule ∈ rules, ∃ state ∈ d.states, ∃ r,
        .rule r ∈ state.2 ∧ r.Binds d.flags table.names rule := by
  obtain ⟨-, -, root, slots, rules, hroot, hslots, hrules, rfl⟩ := compile_ok_iff.1 h
  have hends := ends_expandAll (linked_stateSlots hslots) (length_stateSlots hslots)
  rw [hrules] at hends
  have hlength := length_stateSlots hslots
  refine ⟨(List.idxOf?_eq_some_iff.1 hroot).1, ?_, fun own hown rule hrule => ?_⟩
  · show rules.length = d.names.length
    rw [hlength, List.Forall₂.length_eq hends]
  · obtain ⟨i, hi, rfl⟩ := List.mem_iff_getElem.1 hown
    have hplace : i < slots.length := by rwa [List.Forall₂.length_eq hends]
    have hspliced : Spliced slots slots[i] rules[i] := List.Forall₂.get hends hplace hi
    obtain ⟨place, hplace, hrule⟩ : ∃ place ∈ slots, .rule rule ∈ place := by
      rcases hspliced.mem hrule with hmem | hother
      · exact ⟨_, List.getElem_mem hplace, hmem⟩
      · exact hother
    obtain ⟨state, hstate, hentries⟩ :=
      exists_mem_of_forall₂ (stateSlots_ok_iff.1 hslots) hplace
    obtain ⟨_, hr, hbinds⟩ := exists_mem_of_forall₂ hentries hrule
    cases hbinds with
    | rule hbinds => exact ⟨state, hstate, _, hr, hbinds⟩

end TableDraft

/-- The root and the states that a lexer starts in are in its table, which has rules for all its
states, and so are those that its rules name. -/
structure Lexer.Sound (l : Lexer) : Prop where
  root : l.table.root < l.table.stateCount
  rules : l.table.rules.length = l.table.stateCount
  initial : Listed l.table.stateCount l.initial
  valid : ∀ rules ∈ l.table.rules, ∀ rule ∈ rules, rule.Valid l.table.stateCount

theorem TableOf.listed_resolve {τ : Type} {t : TableOf τ} {origin : String} {names : List String}
    {states : List StateId} (h : t.resolve origin names = .ok states) :
    Listed t.stateCount states := by
  cases names with
  | nil => cases h
  | cons name names =>
    have hnamed := mapM_ok_iff.1 h
    simp only [TableDraft.lookup_ok_iff] at hnamed
    exact listed_of_named hnamed

theorem LexerDraft.compile_ok {d : LexerDraft} {l : Lexer} (h : d.compile = .ok l) :
    l.table = d.table ∧ (l.initial = [l.table.root] ∨
      ∃ names, l.table.resolve "<initial stack>" names = .ok l.initial) := by
  rw [compile] at h
  split at h
  · cases h
    exact ⟨rfl, .inl rfl⟩
  · next names _ =>
    obtain ⟨initial, hinitial, hl⟩ := bind_ok.1 h
    cases hl
    exact ⟨rfl, .inr ⟨names, hinitial⟩⟩

theorem Lexer.Built.sound {l : Lexer} (h : Lexer.Built l) : Lexer.Sound l := by
  cases h with
  | @compile t d _ others table lexer =>
    obtain ⟨hroot, hrules, hvalid⟩ := TableDraft.compile_ok table
    obtain ⟨hsame, hinitial⟩ := LexerDraft.compile_ok lexer
    rw [← hsame] at hroot hrules hvalid
    refine ⟨hroot, hrules, ?_, fun rules hmem rule hrule => ?_⟩
    · rcases hinitial with hinitial | ⟨names, hinitial⟩
      · simpa [Listed, hinitial] using hroot
      · exact TableOf.listed_resolve hinitial
    · obtain ⟨state, hstate, r, hr, hbinds⟩ := hvalid rules hmem rule hrule
      exact hbinds.valid
        fun other states? hhands => others other states? ⟨state, hstate, r, hr, hhands⟩

end RuleLexer
