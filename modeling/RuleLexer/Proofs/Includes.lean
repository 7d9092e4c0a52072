import RuleLexer.Proofs.Built

/-! States that take in one another, by name. A draft says by name which state takes in which, and
its slots say it by place; with different names for all states both say the same. A draft in which
everything that is named is found builds unless a state takes itself in on some way round, and then
the rules of each state are those to which its entries expand. -/
namespace RuleLexer

theorem IsCycle.exists_rel {α : Type} {r : α → α → Prop} {path : List α} (h : IsCycle r path)
    {a : α} (ha : a ∈ path) : ∃ b, r a b := by
  obtain ⟨first, rest, rfl, -, hchain⟩ := h
  have hmem : a ∈ first :: rest := by
    rcases List.mem_append.1 ha with hmem | hlast
    · exact hmem
    · exact List.mem_singleton.1 hlast ▸ List.mem_cons_self
  obtain ⟨i, hi, rfl⟩ := List.mem_iff_getElem.1 hmem
  have hnext : i + 1 < (first :: rest ++ [first]).length := by
    rw [List.length_append, List.length_singleton]
    omega
  have hstep := List.isChain_iff_getElem.1 hchain i hnext
  rw [List.getElem_append_left hi] at hstep
  exact ⟨_, hstep⟩

theorem IsCycle.map {α β : Type} {r : α → α → Prop} {s : β → β → Prop} {f : α → β}
    {path : List α} (h : IsCycle r path) (hrel : ∀ a b, r a b → s (f a) (f b))
    (hinj : ∀ a ∈ path, ∀ b ∈ path, f a = f b → a = b) : IsCycle s (path.map f) := by
  obtain ⟨first, rest, rfl, hnodup, hchain⟩ := h
  refine ⟨f first, rest.map f, by simp, ?_, ?_⟩
  · refine hnodup.map_on fun a ha b hb => ?_
    exact hinj a (List.mem_append_left _ ha) b (List.mem_append_left _ hb)
  · exact (List.isChain_map f).2 (hchain.imp hrel)

theorem Named.getElem? {names : List String} {name : String} {id : StateId}
    (h : Named names name id) : names[id]? = some name := by
  obtain ⟨hlt, hname, -⟩ := List.idxOf?_eq_some_iff.1 h
  rw [List.getElem?_eq_getElem hlt, hname]

theorem Named.idxOf_eq {names : List String} {name : String} {id : StateId}
    (h : Named names name id) : names.idxOf name = id := by
  rw [List.idxOf_eq_getD_idxOf?, h, Option.getD_some]

theorem named_of_getElem? {names : List String} (hnames : names.Nodup) {name : String}
    {id : StateId} (h : names[id]? = some name) : Named names name id := by
  obtain ⟨other, hother⟩ := exists_named.2 (List.mem_of_getElem? h)
  obtain ⟨hlt, rfl⟩ := List.getElem?_eq_some_iff.1 h
  have hsame : other = id := hother.idxOf_eq.symm.trans (hnames.idxOf_getElem id hlt)
  rwa [hsame] at hother

namespace TableDraft
variable {d : TableDraft} {slots : List (List Slot)}

def Holds (d : TableDraft) (state : String) (e : Entry Delegate) : Prop :=
  ∃ entries, (state, entries) ∈ d.states ∧ e ∈ entries

def Includes (d : TableDraft) (state other : String) : Prop := d.Holds state (.includes other)

/-- Entries with the rules of each state that they take in written in its place. -/
inductive Expands (d : TableDraft) : List (Entry Delegate) → List (Rule Delegate) → Prop
  | nil : Expands d [] []
  | rule {r : Rule Delegate} {rest : List (Entry Delegate)} {rules : List (Rule Delegate)}
      (later : Expands d rest rules) : Expands d (.rule r :: rest) (r :: rules)
  | includes {state : String} {entries rest : List (Entry Delegate)}
      {taken rules : List (Rule Delegate)} (found : (state, entries) ∈ d.states)
      (within : Expands d entries taken) (later : Expands d rest rules) :
      Expands d (.includes state :: rest) (taken ++ rules)

/-- No state is written twice, there are not too many, and all that they name is found. -/
structure Resolved (d : TableDraft) : Prop where
  once : d.duplicate? = none
  distinct : d.names.Nodup
  root : d.root ∈ d.names
  few : d.names.length ≤ TableError.maxStates
  entries : ∀ state e, d.Holds state e → e.Resolves d.flags d.names

/-- No state takes itself in, on no way round. -/
def Acyclic (d : TableDraft) : Prop := ∀ state, ¬Relation.TransGen d.Includes state state

theorem mem_names {state : String × List (Entry Delegate)} (h : state ∈ d.states) :
    state.1 ∈ d.names :=
  List.mem_map_of_mem h

theorem entries_eq (hnames : d.names.Nodup) {state : String}
    {entries others : List (Entry Delegate)} (h : (state, entries) ∈ d.states)
    (hothers : (state, others) ∈ d.states) : others = entries :=
  congrArg Prod.snd (List.inj_on_of_nodup_map hnames hothers h rfl)

theorem Expands.unique (hnames : d.names.Nodup) {entries : List (Entry Delegate)}
    {rules : List (Rule Delegate)} (h : d.Expands entries rules) {others : List (Rule Delegate)}
    (hothers : d.Expands entries others) : others = rules := by
  induction h generalizing others with
  | nil =>
    cases hothers
    rfl
  | rule _ ih =>
    cases hothers with
    | rule later => rw [ih later]
  | includes found _ _ ihwithin ihlater =>
    cases hothers with
    | includes found' within later =>
      rw [entries_eq hnames found found'] at within
      rw [ihwithin within, ihlater later]

/-- The order in which states are written does not matter to what they expand to. -/
theorem Expands.perm {other : TableDraft} (hperm : other.states.Perm d.states)
    {entries : List (Entry Delegate)} {rules : List (Rule Delegate)}
    (h : d.Expands entries rules) : other.Expands entries rules := by
  induction h with
  | nil => exact .nil
  | rule _ ih => exact .rule ih
  | includes found _ _ ihwithin ihlater =>
    exact .includes (hperm.mem_iff.2 found) ihwithin ihlater

section slots
variable (hslots : d.stateSlots = .ok slots)

include hslots

theorem states_of_slots {id : StateId} {place : List Slot} (h : slots[id]? = some place) :
    ∃ state ∈ d.states, d.names[id]? = some state.1 ∧
      List.Forall₂ (Entry.Binds d.flags d.names) state.2 place := by
  obtain ⟨hlt, rfl⟩ := List.getElem?_eq_some_iff.1 h
  have hall := stateSlots_ok_iff.1 hslots
  have hstate : id < d.states.length := by rwa [hall.length_eq]
  refine ⟨d.states[id], List.getElem_mem hstate, ?_, hall.get hstate hlt⟩
  simp [names, hstate]

theorem slots_of_state {state : String × List (Entry Delegate)} (h : state ∈ d.states) :
    ∃ (id : StateId) (place : List Slot), d.names[id]? = some state.1 ∧ slots[id]? = some place ∧
      List.Forall₂ (Entry.Binds d.flags d.names) state.2 place := by
  obtain ⟨id, hlt, rfl⟩ := List.mem_iff_getElem.1 h
  have hall := stateSlots_ok_iff.1 hslots
  have hplace : id < slots.length := by rwa [← hall.length_eq]
  exact ⟨id, slots[id], by simp [names, hlt], List.getElem?_eq_getElem hplace, hall.get hlt hplace⟩

theorem includes_of_takes {id other : StateId} (h : Takes slots id other) :
    ∃ state name, d.names[id]? = some state ∧ d.names[other]? = some name ∧
      d.Includes state name := by
  obtain ⟨place, hplace, hmem⟩ := h
  obtain ⟨⟨state, entries⟩, hstate, hname, hentries⟩ := states_of_slots hslots hplace
  obtain ⟨e, he, hbinds⟩ := exists_mem_of_forall₂ hentries hmem
  cases hbinds with
  | @includes name _ hnamed => exact ⟨state, name, hname, hnamed.getElem?, entries, hstate, he⟩

theorem takes_of_includes (hnames : d.names.Nodup) {state name : String}
    (h : d.Includes state name) : Takes slots (d.names.idxOf state) (d.names.idxOf name) := by
  obtain ⟨entries, hstate, hmem⟩ := h
  obtain ⟨id, place, hname, hplace, hentries⟩ := slots_of_state hslots hstate
  obtain ⟨slot, hslot, hbinds⟩ := exists_mem_of_forall₂ hentries.flip hmem
  cases hbinds with
  | @includes _ other hnamed =>
    rw [(named_of_getElem? hnames hname).idxOf_eq, hnamed.idxOf_eq]
    exact ⟨place, hplace, hslot⟩

theorem isCycle_includes (hnames : d.names.Nodup) {path : List StateId}
    (h : IsCycle (Takes slots) path) :
    IsCycle d.Includes (path.filterMap (d.names[·]?)) := by
  let name (id : StateId) : String := d.names[id]?.getD ""
  have hname : ∀ id ∈ path, d.names[id]? = some (name id) := by
    intro id hid
    obtain ⟨other, htakes⟩ := h.exists_rel hid
    obtain ⟨state, -, hstate, -, -⟩ := includes_of_takes hslots htakes
    simp [name, hstate]
  have hmap : path.filterMap (d.names[·]?) = path.map name := by
    rw [← List.filterMap_eq_map]
    exact List.filterMap_congr hname
  rw [hmap]
  refine h.map (fun id other htakes => ?_) fun id hid other hother hsame => ?_
  · obtain ⟨state, included, hstate, hincluded, hincludes⟩ := includes_of_takes hslots htakes
    simpa [name, hstate, hincluded] using hincludes
  · have hid := named_of_getElem? hnames (hname id hid)
    have hother := named_of_getElem? hnames (hname other hother)
    rw [hsame, Named, hother] at hid
    exact (Option.some.inj hid).symm

theorem expands_of_spliced {entries : List (Entry Delegate)} {place : List Slot}
    {compiled : List CompiledRule}
    (hentries : List.Forall₂ (Entry.Binds d.flags d.names) entries place)
    (h : Spliced slots place compiled) :
    ∃ rules, d.Expands entries rules ∧
      List.Forall₂ (Rule.Binds d.flags d.names) rules compiled := by
  induction h generalizing entries with
  | nil =>
    rw [List.forall₂_nil_right_iff.1 hentries]
    exact ⟨[], .nil, .nil⟩
  | rule _ ih =>
    obtain ⟨e, rest, he, hrest, rfl⟩ := List.forall₂_cons_right_iff.1 hentries
    obtain ⟨rules, hexpands, hrules⟩ := ih hrest
    cases he with
    | rule hbinds => exact ⟨_, .rule hexpands, .cons hbinds hrules⟩
  | includes found _ _ ihwithin ihlater =>
    obtain ⟨e, rest, he, hrest, rfl⟩ := List.forall₂_cons_right_iff.1 hentries
    obtain ⟨⟨state, within⟩, hstate, hname, hwithin⟩ := states_of_slots hslots found
    obtain ⟨taken, htaken, hcompiled⟩ := ihwithin hwithin
    obtain ⟨rules, hexpands, hrules⟩ := ihlater hrest
    cases he with
    | includes hnamed =>
      cases hname.symm.trans hnamed.getElem?
      exact ⟨_, .includes hstate htaken hexpands, List.rel_append hcompiled hrules⟩

end slots

theorem Resolved.compile_eq (h : d.Resolved) : ∃ root slots, Named d.names d.root root ∧
    d.stateSlots = .ok slots ∧ d.compile = expandAll d.names slots >>= fun rules =>
      .ok ⟨d.names, rules, root, d.fallback, d.resetsOnNewline, d.flags⟩ := by
  obtain ⟨root, hroot⟩ := exists_named.2 h.root
  obtain ⟨slots, hslots⟩ : ∃ slots, d.stateSlots = .ok slots := by
    simp only [stateSlots_ok_iff, exists_forall₂]
    intro state hstate e he
    exact Entry.exists_binds.2 (h.entries state.1 e ⟨state.2, hstate, he⟩)
  refine ⟨root, slots, hroot, hslots, ?_⟩
  rw [TableDraft.compile_eq h.once hroot h.few, hslots]
  rfl

theorem Resolved.compile_ok (h : d.Resolved) (hacyclic : d.Acyclic) :
    ∃ root slots rules, Named d.names d.root root ∧ d.stateSlots = .ok slots ∧
      List.Forall₂ (Spliced slots) slots rules ∧
      d.compile = .ok ⟨d.names, rules, root, d.fallback, d.resetsOnNewline, d.flags⟩ := by
  obtain ⟨root, slots, hroot, hslots, hcompile⟩ := h.compile_eq
  have hends := ends_expandAll (linked_stateSlots hslots) (length_stateSlots hslots)
  cases hexpand : expandAll d.names slots with
  | ok rules =>
    rw [hexpand] at hends hcompile
    exact ⟨root, slots, rules, hroot, hslots, hends, hcompile⟩
  | error e =>
    rw [hexpand] at hends
    obtain ⟨path, hcycle, -⟩ := hends
    obtain ⟨state, hround⟩ := (isCycle_includes hslots h.distinct hcycle).transGen
    exact absurd hround (hacyclic state)

theorem acyclic_of_compile_ok (hnames : d.names.Nodup) {table : Table}
    (h : d.compile = .ok table) : d.Acyclic := by
  obtain ⟨-, -, root, slots, rules, -, hslots, hexpand, -⟩ := compile_ok_iff.1 h
  have hends := ends_expandAll (linked_stateSlots hslots) (length_stateSlots hslots)
  rw [hexpand] at hends
  have hall : List.Forall₂ (Spliced slots) slots rules := hends
  intro state hround
  refine not_transGen_of_spliced (fun id place hplace => ?_) (d.names.idxOf state)
    (hround.lift d.names.idxOf fun _ _ => takes_of_includes hslots hnames)
  obtain ⟨compiled, -, hspliced⟩ :=
    exists_mem_of_forall₂ hall.flip (List.mem_of_getElem? hplace)
  exact ⟨compiled, hspliced⟩

theorem resolved_of_compile_ok (hnames : d.names.Nodup) {table : Table}
    (h : d.compile = .ok table) : d.Resolved := by
  obtain ⟨once, few, root, slots, rules, hroot, hslots, -, -⟩ := compile_ok_iff.1 h
  refine ⟨once, hnames, exists_named.1 ⟨root, hroot⟩, few, fun state e h => ?_⟩
  obtain ⟨entries, hstate, he⟩ := h
  obtain ⟨place, -, hplace⟩ := exists_mem_of_forall₂ (stateSlots_ok_iff.1 hslots).flip hstate
  obtain ⟨slot, -, hslot⟩ := exists_mem_of_forall₂ (List.Forall₂.flip hplace) he
  exact Entry.exists_binds.1 ⟨slot, hslot⟩

/-- Where a state takes itself in, the build stops at such a way round. -/
theorem Resolved.compile_error (h : d.Resolved) (hcyclic : ¬d.Acyclic) :
    ∃ path, d.compile = .error (.includeCycle path) ∧ IsCycle d.Includes path := by
  obtain ⟨root, slots, hroot, hslots, hcompile⟩ := h.compile_eq
  have hends := ends_expandAll (linked_stateSlots hslots) (length_stateSlots hslots)
  cases hexpand : expandAll d.names slots with
  | ok rules =>
    rw [hexpand] at hcompile
    exact absurd (acyclic_of_compile_ok h.distinct hcompile) hcyclic
  | error e =>
    rw [hexpand] at hends hcompile
    obtain ⟨path, hcycle, rfl⟩ := hends
    exact ⟨_, hcompile, isCycle_includes hslots h.distinct hcycle⟩

end TableDraft

end RuleLexer
