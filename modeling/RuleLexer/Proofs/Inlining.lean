import RuleLexer.Proofs.Includes
import RuleLexer.Run

/-! Includes written out. A table is as good as one in which the rules that each state expands to
stand in the state itself: both drafts come to the same table, in which the rules of a state are
those of its expansion, in order. -/
namespace RuleLexer

/-- The tokens of a run, each with the states on the stack behind it. -/
def Run.trace (r : Run) : List (Token × List String) :=
  (r.history r.tokenBound).map fun given => (given.1, given.2.stackNames)

namespace TableDraft
variable {d inlined : TableDraft}

/-- The same draft, with the rules that its states expand to in the place of their entries. -/
structure Inlines (d inlined : TableDraft) : Prop where
  same : inlined = { d with states := inlined.states }
  states : List.Forall₂ (fun state own => own.1 = state.1 ∧
    ∃ rules, d.Expands state.2 rules ∧ own.2 = rules.map .rule) d.states inlined.states

namespace Inlines

theorem names_eq (h : d.Inlines inlined) : inlined.names = d.names := by
  have hsame : List.Forall₂ (· = ·) (inlined.states.map Prod.fst) (d.states.map Prod.fst) := by
    rw [List.forall₂_map_left_iff, List.forall₂_map_right_iff]
    exact (h.states.imp fun state own hown => hown.1).flip
  rwa [List.forall₂_eq_eq_eq] at hsame

theorem stateSlots_eq (h : d.Inlines inlined) (hnames : d.names.Nodup) {slots : List (List Slot)}
    (hslots : d.stateSlots = .ok slots) {rules : List (List CompiledRule)}
    (hrules : List.Forall₂ (Spliced slots) slots rules) :
    inlined.stateSlots = .ok (rules.map fun own => own.map .rule) := by
  have hplaces := stateSlots_ok_iff.1 hslots
  have hflags : inlined.flags = d.flags := by rw [h.same]
  rw [stateSlots_ok_iff, List.forall₂_map_right_iff, hflags, h.names_eq]
  have hlength : inlined.states.length = rules.length := by
    rw [← h.states.length_eq, hplaces.length_eq, hrules.length_eq]
  refine List.forall₂_iff_get.2 ⟨hlength, fun i hown hrule => ?_⟩
  have hstate : i < d.states.length := by rwa [h.states.length_eq]
  have hplace : i < slots.length := by rwa [← hplaces.length_eq]
  obtain ⟨-, written, hwritten, hentries⟩ := h.states.get hstate hown
  obtain ⟨expanded, hexpanded, hbinds⟩ :=
    expands_of_spliced hslots (hplaces.get hstate hplace) (hrules.get hplace hrule)
  rw [hentries, hexpanded.unique hnames hwritten, List.forall₂_map_left_iff,
    List.forall₂_map_right_iff]
  exact hbinds.imp fun _ _ => .rule

end Inlines

namespace Resolved

/-- A draft and its inlined form come to the same table. -/
theorem compile_inlined (h : d.Resolved) (hacyclic : d.Acyclic) (hinlines : d.Inlines inlined) :
    inlined.compile = d.compile := by
  obtain ⟨root, slots, rules, hroot, hslots, hrules, hcompile⟩ := h.compile_ok hacyclic
  have hnames := hinlines.names_eq
  have hlength : inlined.names.length = rules.length := by
    rw [hnames, length_stateSlots hslots, hrules.length_eq]
  have hsame := hinlines.same
  have once : inlined.duplicate? = none := by rw [hsame, h.once]
  have hroot : inlined.names.idxOf? inlined.root = some root := by rw [hnames, hsame, hroot]
  rw [hcompile, compile_ok_iff]
  refine ⟨once, hnames ▸ h.few, root, _, rules, hroot,
    hinlines.stateSlots_eq h.distinct hslots hrules, expandAll_rules hlength, ?_⟩
  rw [hnames, hsame]

theorem rulesNamed?_eq (h : d.Resolved) {table : Table} (hcompile : d.compile = .ok table)
    {state : String × List (Entry Delegate)} (hstate : state ∈ d.states) :
    ∃ rules compiled, d.Expands state.2 rules ∧ table.rulesNamed? state.1 = some compiled ∧
      rules.mapM (compileRule d.flags d.names state.1 0) = .ok compiled := by
  obtain ⟨root, slots, rules, -, hslots, hrules, htable⟩ :=
    h.compile_ok (acyclic_of_compile_ok h.distinct hcompile)
  cases hcompile.symm.trans htable
  obtain ⟨id, place, hname, hplace, hentries⟩ := slots_of_state hslots hstate
  obtain ⟨hlt, rfl⟩ := List.getElem?_eq_some_iff.1 hplace
  have hid : id < rules.length := by rwa [← hrules.length_eq]
  obtain ⟨expanded, hexpands, hbinds⟩ :=
    expands_of_spliced hslots hentries (hrules.get hlt hid)
  have hnamed := named_of_getElem? h.distinct hname
  refine ⟨expanded, rules[id], hexpands, ?_, ?_⟩
  · show (d.names.idxOf? state.1).map (fun id => rules[id]?.getD []) = _
    rw [hnamed, Option.map_some, List.getElem?_eq_getElem hid, Option.getD_some]
  · simp only [mapM_ok_iff, compileRule_ok_iff]
    exact hbinds

theorem exists_rules (h : d.Resolved) {table : Table} (hcompile : d.compile = .ok table)
    {state : String × List (Entry Delegate)} (hstate : state ∈ d.states) {id : StateId}
    (hid : Named d.names state.1 id) : ∃ rules, d.Expands state.2 rules ∧
      List.Forall₂ (Rule.Binds d.flags d.names) rules (table.rulesOf id) := by
  obtain ⟨rules, compiled, hexpands, hnamed, hcompiled⟩ := h.rulesNamed?_eq hcompile hstate
  simp only [mapM_ok_iff, compileRule_ok_iff] at hcompiled
  rw [TableOf.rulesNamed?, TableOf.stateId?, names_of_compile_ok hcompile, hid] at hnamed
  cases hnamed
  exact ⟨rules, hexpands, hcompiled⟩

theorem exists_inlines (h : d.Resolved) (hacyclic : d.Acyclic) : ∃ inlined, d.Inlines inlined := by
  obtain ⟨root, slots, rules, -, -, -, hcompile⟩ := h.compile_ok hacyclic
  have hall : ∀ state ∈ d.states, ∃ own : String × List (Entry Delegate),
      own.1 = state.1 ∧ ∃ rules, d.Expands state.2 rules ∧ own.2 = rules.map .rule := by
    intro state hstate
    obtain ⟨rules, -, hexpands, -⟩ := h.rulesNamed?_eq hcompile hstate
    exact ⟨(state.1, rules.map .rule), rfl, rules, hexpands, rfl⟩
  obtain ⟨states, hstates⟩ := exists_forall₂.2 hall
  exact ⟨{ d with states }, rfl, hstates⟩

end Resolved

/-- Where everything that a draft names is found, it builds unless some state takes itself in on
some way round, and then the build stops at such a way. In the table that it builds, the rules of a
state are those of its one expansion, and so are those of the inlined draft: over both tables, the
same lexer gives the same tokens and passes through the same stacks. -/
theorem compile_expands (h : d.Resolved) :
    (d.Acyclic → ∃ table, d.compile = .ok table ∧
      (∀ state ∈ d.states, ∃ rules compiled, d.Expands state.2 rules ∧
        (∀ others, d.Expands state.2 others → others = rules) ∧
        (∀ other : TableDraft, other.states.Perm d.states → other.Expands state.2 rules) ∧
        table.rulesNamed? state.1 = some compiled ∧
        rules.mapM (compileRule d.flags d.names state.1 0) = .ok compiled) ∧
      (∃ inlined, d.Inlines inlined) ∧
      ∀ inlined, d.Inlines inlined → inlined.names = d.names ∧
        ∃ table', inlined.compile = .ok table' ∧ ∀ (l : LexerDraft) (text : String),
          (LexerDraft.compile { l with table := table' }).map (fun l => (l.run text).trace) =
            (LexerDraft.compile { l with table }).map fun l => (l.run text).trace) ∧
    (¬d.Acyclic → ∃ path, d.compile = .error (.includeCycle path) ∧ IsCycle d.Includes path) := by
  refine ⟨fun hacyclic => ?_, h.compile_error⟩
  obtain ⟨root, slots, rules, -, -, -, hcompile⟩ := h.compile_ok hacyclic
  refine ⟨_, hcompile, fun state hstate => ?_, h.exists_inlines hacyclic,
    fun inlined hinlines => ?_⟩
  · obtain ⟨rules, compiled, hexpands, hnamed, hcompiled⟩ := h.rulesNamed?_eq hcompile hstate
    exact ⟨rules, compiled, hexpands, fun _ => hexpands.unique h.distinct,
      fun _ hperm => hexpands.perm hperm, hnamed, hcompiled⟩
  · have hsame := (h.compile_inlined hacyclic hinlines).trans hcompile
    exact ⟨hinlines.names_eq, _, hsame, fun _ _ => rfl⟩

/-- The root takes in two states that both take in a third, which is written last. -/
def diamondDraft : TableDraft where
  states :=
    [("root", [.includes "left", .includes "right"]),
      ("left", [.emit "l" .keyword, .includes "base"]),
      ("right", [.includes "base", .emit "r" .name]),
      ("base", [.emit "b" .number])]

def roundDraft : TableDraft where
  states := [("root", [.includes "there"]), ("back", [.includes "there"]),
    ("there", [.includes "back"])]

def diamondTable : Table := diamondDraft.compile.toOption.get (by decide +kernel)

theorem compile_expands_diamond :
    (∃ inlined table, diamondDraft.Inlines inlined ∧ inlined.compile = .ok table ∧
      diamondDraft.compile = .ok diamondTable ∧
      diamondTable.patterns? "root" = some ["l", "b", "b", "r"]) ∧
    roundDraft.compile = .error (.includeCycle ["there", "back", "there"]) ∧
      IsCycle roundDraft.Includes ["there", "back", "there"] := by
  constructor
  · have hcompile : diamondDraft.compile = .ok diamondTable := rfl
    have hnames : diamondDraft.names.Nodup := by decide
    obtain ⟨hbuilds, -⟩ := compile_expands (resolved_of_compile_ok hnames hcompile)
    obtain ⟨_, -, -, ⟨inlined, hinlined⟩, hsame⟩ :=
      hbuilds (acyclic_of_compile_ok hnames hcompile)
    obtain ⟨-, table, htable, -⟩ := hsame inlined hinlined
    exact ⟨inlined, table, hinlined, htable, hcompile, by decide +kernel⟩
  · have hresolved : roundDraft.Resolved := by
      refine ⟨rfl, by decide, by decide, by decide, fun state e h => ?_⟩
      obtain ⟨entries, hstate, he⟩ := h
      simp only [roundDraft, List.mem_cons, List.not_mem_nil, or_false, Prod.mk.injEq] at hstate
      rcases hstate with ⟨rfl, rfl⟩ | ⟨rfl, rfl⟩ | ⟨rfl, rfl⟩ <;> rw [List.mem_singleton.1 he]
      · show "there" ∈ roundDraft.names
        decide
      · show "there" ∈ roundDraft.names
        decide
      · show "back" ∈ roundDraft.names
        decide
    have hback : roundDraft.Includes "back" "there" :=
      ⟨[.includes "there"], by simp [roundDraft], by simp⟩
    have hthere : roundDraft.Includes "there" "back" :=
      ⟨[.includes "back"], by simp [roundDraft], by simp⟩
    obtain ⟨path, hpath, hcycle⟩ := (compile_expands hresolved).2 fun hacyclic =>
      hacyclic "there" (.tail (.single hthere) hback)
    have hfound : roundDraft.compile = .error (.includeCycle ["there", "back", "there"]) := rfl
    cases hfound.symm.trans hpath
    exact ⟨hfound, hcycle⟩

end TableDraft

end RuleLexer
