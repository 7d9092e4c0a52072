import Mathlib.Data.List.Dedup
import RuleLexer.Build
import RuleLexer.Proofs.Includes

/-! Which drafts build. A draft is written by directives, in any order: a state can be defined
before or behind those that name it, and rules can be added to it later. Whether the draft builds
can be told from the directives, and a table that builds has its states numbered one by one, with
nothing in its rules that leads out of the tables in which it is looked up. -/
namespace RuleLexer

theorem Build.outcome_table (d : TableDraft) : (table d).outcome.1 = d.compile := by
  rw [Build.outcome, Build.table]
  cases d.compile <;> rfl

/-- The states of a table are numbered one by one, and its rules stay within their tables. -/
structure TableOf.Consistent (t : Table) : Prop where
  inverse : ∀ name id, t.stateId? name = some id ↔ t.stateName? id = some name
  total : ∀ id < t.stateCount, ∃ name, t.stateName? id = some name
  rules : t.rules.length = t.stateCount
  inRange : ∀ rules ∈ t.rules, ∀ rule ∈ rules, rule.InRange t.stateCount

namespace TableDraft

/-- What is said of a table, one thing at a time. -/
inductive Directive
  | flags (given : PatternFlags)
  | fallback (category : Category)
  | root (name : String)
  | keepStackOnNewline
  | state (name : String) (entries : List (Entry Delegate))
  | extend (name : String) (entries : List (Entry Delegate))

namespace Directive

def apply (d : TableDraft) : Directive → TableDraft
  | flags given => { d with flags := given }
  | fallback category => { d with fallback := category }
  | root name => { d with root := name }
  | keepStackOnNewline => { d with resetsOnNewline := false }
  | state name entries => d.state name entries
  | extend name entries => d.extend name entries

def written? : Directive → Option (String × List (Entry Delegate))
  | state name entries | extend name entries => some (name, entries)
  | _ => none

def flags? : Directive → Option PatternFlags
  | flags given => some given
  | _ => none

def root? : Directive → Option String
  | root name => some name
  | _ => none

end Directive

def written (directives : List Directive) : TableDraft := directives.foldl Directive.apply {}

section directives
variable (directives : List Directive)

/-- The names that directives define, each as often as it is written to. -/
def defined : List String := (directives.filterMap Directive.written?).map Prod.fst

def DefinesOnce : Prop :=
  ∀ before name entries, before ++ [.state name entries] <+: directives → name ∉ defined before

def Writes (state : String) (e : Entry Delegate) : Prop :=
  ∃ entries, (state, entries) ∈ directives.filterMap Directive.written? ∧ e ∈ entries

def lastFlags : PatternFlags := (directives.filterMap Directive.flags?).getLast?.getD {}

def lastRoot : String := (directives.filterMap Directive.root?).getLast?.getD "root"

/-- The directives write a table: no state is defined once more, the root is there, the states are
not too many, each name is that of a state in the table where it is looked up, a delegate that says
states says one at least, all patterns can be read, and no state takes itself in. -/
structure WellFormed : Prop where
  once : DefinesOnce directives
  root : lastRoot directives ∈ defined directives
  few : (defined directives).dedup.length ≤ TableError.maxStates
  includes : ∀ state other, Writes directives state (.includes other) → other ∈ defined directives
  ops : ∀ state r, Writes directives state (.rule r) → ∀ op ∈ r.op?, ∀ name ∈ op.states,
    name ∈ defined directives
  running : ∀ state r states, Writes directives state (.rule r) →
    r.action.HandsTo (.this (some states)) → ∀ name ∈ states, name ∈ defined directives
  others : ∀ state r l states, Writes directives state (.rule r) →
    r.action.HandsTo (.lexer l (some states)) → ∀ name ∈ states, name ∈ l.table.names
  nonempty : ∀ state r, Writes directives state (.rule r) →
    ¬r.action.HandsTo (.this (some [])) ∧ ∀ l, ¬r.action.HandsTo (.lexer l (some []))
  patterns : ∀ state r source ahead?, Writes directives state (.rule r) →
    r.source = .pattern source ahead? →
      ∃ p, Pattern.compile source ahead? (lastFlags directives) = .ok p
  acyclic : ∀ state, ¬Relation.TransGen
    (fun state other => Writes directives state (.includes other)) state state

end directives

section concat
variable (directives : List Directive) (c : Directive)

theorem defined_concat :
    defined (directives ++ [c]) = defined directives ++ (c.written?.map Prod.fst).toList := by
  cases c <;> simp [defined, Directive.written?]

theorem writes_concat {state : String} {e : Entry Delegate} :
    Writes (directives ++ [c]) state e ↔
      Writes directives state e ∨ ∃ entries, c.written? = some (state, entries) ∧ e ∈ entries := by
  simp only [Writes, List.filterMap_append, List.mem_append, List.mem_filterMap,
    List.mem_singleton, exists_eq_left, or_and_right, exists_or]

theorem lastFlags_concat :
    lastFlags (directives ++ [c]) = c.flags?.getD (lastFlags directives) := by
  cases c <;> simp [lastFlags, Directive.flags?]

theorem lastRoot_concat : lastRoot (directives ++ [c]) = c.root?.getD (lastRoot directives) := by
  cases c <;> simp [lastRoot, Directive.root?]

theorem definesOnce_concat : DefinesOnce (directives ++ [c]) ↔ DefinesOnce directives ∧
    ∀ name entries, c = .state name entries → name ∉ defined directives := by
  simp only [DefinesOnce, List.prefix_concat_iff]
  constructor
  · intro h
    refine ⟨fun before name entries hbefore => h before name entries (.inr hbefore), ?_⟩
    rintro name entries rfl
    exact h directives name entries (.inl rfl)
  · rintro ⟨hbefore, hlast⟩ before name entries (heq | hprefix)
    · obtain ⟨rfl, hc⟩ := List.append_inj' heq rfl
      exact hlast name entries (List.cons.inj hc).1.symm
    · exact hbefore before name entries hprefix

end concat

section steps
variable {d : TableDraft} {name : String} {entries : List (Entry Delegate)}

theorem names_appendTo (states : List (String × List (Entry Delegate))) :
    (appendTo name entries states).map Prod.fst =
      if name ∈ states.map Prod.fst then states.map Prod.fst
      else states.map Prod.fst ++ [name] := by
  induction states with
  | nil => simp [appendTo]
  | cons state rest ih =>
    obtain ⟨own, before⟩ := state
    by_cases hsame : own = name
    · simp [appendTo, hsame]
    · have hne : name ≠ own := fun h => hsame h.symm
      simp only [appendTo, if_neg hsame, List.map_cons, ih, List.mem_cons, hne, false_or]
      split <;> simp

theorem mem_appendTo {states : List (String × List (Entry Delegate))} {state : String}
    {e : Entry Delegate} :
    (∃ own, (state, own) ∈ appendTo name entries states ∧ e ∈ own) ↔
      (∃ own, (state, own) ∈ states ∧ e ∈ own) ∨ state = name ∧ e ∈ entries := by
  induction states with
  | nil => simp [appendTo, and_assoc]
  | cons first rest ih =>
    obtain ⟨own, before⟩ := first
    by_cases hsame : own = name
    · subst hsame
      simp only [appendTo, if_pos, List.mem_cons, Prod.mk.injEq, or_and_right, exists_or,
        and_assoc, exists_eq_left, exists_and_left, List.mem_append, and_or_left]
      rw [or_right_comm]
    · simp only [appendTo, if_neg hsame, List.mem_cons, or_and_right, exists_or, ih, or_assoc]

theorem names_extend : (d.extend name entries).names =
    if name ∈ d.names then d.names else d.names ++ [name] :=
  names_appendTo d.states

theorem holds_extend {state : String} {e : Entry Delegate} :
    (d.extend name entries).Holds state e ↔ d.Holds state e ∨ state = name ∧ e ∈ entries :=
  mem_appendTo

theorem appendTo_of_not_mem {states : List (String × List (Entry Delegate))}
    (h : name ∉ states.map Prod.fst) :
    appendTo name entries states = states ++ [(name, entries)] := by
  induction states with
  | nil => rfl
  | cons state rest ih =>
    simp only [List.map_cons, List.mem_cons, not_or] at h
    rw [appendTo, if_neg fun hsame => h.1 hsame.symm, ih h.2]
    rfl

theorem state_of_not_mem (h : name ∉ d.names) : d.state name entries = d.extend name entries := by
  have hnone : d.states.any (·.1 == name) = false := by
    rw [List.any_eq_false]
    intro state hstate hsame
    exact h (eq_of_beq hsame ▸ mem_names hstate)
  rw [state, hnone, extend, appendTo_of_not_mem h]
  rfl

theorem state_of_mem (h : name ∈ d.names) :
    d.state name entries = { d with duplicate? := d.duplicate?.or (some name) } := by
  have hany : d.states.any (·.1 == name) = true := by
    obtain ⟨state, hstate, rfl⟩ := List.mem_map.1 h
    exact List.any_eq_true.2 ⟨state, hstate, beq_self_eq_true _⟩
  rw [state, hany]
  rfl

end steps

/-- A draft is as directives say. Where a state is defined once more, what the draft holds does not
matter. -/
structure Agrees (directives : List Directive) (d : TableDraft) : Prop where
  distinct : d.names.Nodup
  names : ∀ name, name ∈ d.names ↔ name ∈ defined directives
  flags : d.flags = lastFlags directives
  root : d.root = lastRoot directives
  once : d.duplicate? = none ↔ DefinesOnce directives
  holds : d.duplicate? = none → ∀ state e, d.Holds state e ↔ Writes directives state e

namespace Agrees
variable {directives : List Directive} {d : TableDraft}

theorem start : Agrees [] {} where
  distinct := List.nodup_nil
  names := by simp [TableDraft.names, defined]
  flags := rfl
  root := rfl
  once := by simp [DefinesOnce]
  holds := by simp [Holds, Writes]

theorem apply_of_none (h : Agrees directives d) {c : Directive} (hc : c.written? = none)
    {other : TableDraft} (states : other.states = d.states)
    (duplicate : other.duplicate? = d.duplicate?)
    (flags : other.flags = c.flags?.getD d.flags) (root : other.root = c.root?.getD d.root) :
    Agrees (directives ++ [c]) other := by
  have hnames : other.names = d.names := by rw [TableDraft.names, states, TableDraft.names]
  have honce : DefinesOnce (directives ++ [c]) ↔ DefinesOnce directives := by
    rw [definesOnce_concat, and_iff_left]
    rintro name entries rfl
    cases hc
  refine ⟨hnames ▸ h.distinct, fun name => ?_, ?_, ?_, ?_, fun hnone state e => ?_⟩
  · rw [hnames, defined_concat, hc, h.names]
    simp
  · rw [flags, lastFlags_concat, h.flags]
  · rw [root, lastRoot_concat, h.root]
  · rw [duplicate, honce, h.once]
  · have hsame : other.Holds state e ↔ d.Holds state e := by rw [Holds, Holds, states]
    rw [hsame, writes_concat, hc, h.holds (duplicate ▸ hnone)]
    simp

theorem apply_of_some (h : Agrees directives d) {c : Directive} {name : String}
    {entries : List (Entry Delegate)} (hc : c.written? = some (name, entries))
    (hnew : ∀ name entries, c = .state name entries → name ∉ defined directives) :
    Agrees (directives ++ [c]) (d.extend name entries) := by
  have hflags : c.flags? = none ∧ c.root? = none := by
    cases c with
    | state | extend => exact ⟨rfl, rfl⟩
    | flags | fallback | root | keepStackOnNewline => cases hc
  refine ⟨?_, fun other => ?_, ?_, ?_, ?_, fun hnone state e => ?_⟩
  · rw [names_extend]
    split
    · exact h.distinct
    · next hmem => simpa [List.nodup_append] using ⟨h.distinct, fun a ha hsame => hmem (hsame ▸ ha)⟩
  · rw [names_extend, defined_concat, hc]
    split <;> simp_all [h.names]
  · rw [lastFlags_concat, hflags.1, Option.getD_none, ← h.flags]
    rfl
  · rw [lastRoot_concat, hflags.2, Option.getD_none, ← h.root]
    rfl
  · rw [definesOnce_concat, and_iff_left hnew, ← h.once]
    rfl
  · rw [holds_extend, writes_concat, hc, h.holds hnone]
    simp [eq_comm]

theorem apply_state_of_mem (h : Agrees directives d) {name : String} (hname : name ∈ d.names)
    (entries : List (Entry Delegate)) :
    Agrees (directives ++ [.state name entries]) (d.state name entries) := by
  -- from here on `once` fails, so nothing is said of what the draft holds
  have hdefined := (h.names name).1 hname
  rw [state_of_mem hname]
  refine ⟨h.distinct, fun other => ?_, ?_, ?_, ?_, fun hnone => ?_⟩
  · rw [defined_concat, List.mem_append, ← h.names]
    refine ⟨.inl, fun hother => ?_⟩
    rcases hother with hother | hother
    · exact hother
    · simp only [Directive.written?, Option.map_some, Option.toList_some,
        List.mem_singleton] at hother
      exact hother ▸ hname
  · rw [lastFlags_concat, ← h.flags]
    rfl
  · rw [lastRoot_concat, ← h.root]
    rfl
  · rw [definesOnce_concat]
    refine iff_of_false (by simp) fun honce => honce.2 name entries rfl hdefined
  · simp at hnone

theorem apply (h : Agrees directives d) (c : Directive) :
    Agrees (directives ++ [c]) (c.apply d) := by
  cases c with
  | flags | fallback | root | keepStackOnNewline => exact h.apply_of_none rfl rfl rfl rfl rfl
  | extend name entries => exact h.apply_of_some rfl (by simp)
  | state name entries =>
    by_cases hname : name ∈ d.names
    · exact h.apply_state_of_mem hname entries
    · have hnew : name ∉ defined directives := fun hmem => hname ((h.names name).2 hmem)
      rw [Directive.apply, state_of_not_mem hname]
      refine h.apply_of_some rfl fun other others hsame => ?_
      cases hsame
      exact hnew

theorem written (directives : List Directive) : Agrees directives (written directives) := by
  induction directives using List.reverseRecOn with
  | nil => exact start
  | append_singleton directives c ih =>
    rw [TableDraft.written, List.foldl_append]
    exact ih.apply c

theorem length_names (h : Agrees directives d) :
    d.names.length = (defined directives).dedup.length := by
  refine ((List.perm_ext_iff_of_nodup h.distinct (List.nodup_dedup _)).2 fun name => ?_).length_eq
  rw [List.mem_dedup, h.names]

theorem resolves (h : Agrees directives d) (hwell : WellFormed directives) {state : String}
    {e : Entry Delegate} (he : Writes directives state e) : e.Resolves d.flags d.names := by
  cases e with
  | includes other => exact (h.names other).2 (hwell.includes state other he)
  | rule r =>
    refine ⟨?_, fun op hop name hname => ?_, fun target htarget => ?_⟩
    · cases hsource : r.source with
      | matcher m => trivial
      | pattern source ahead? =>
        rw [h.flags]
        exact hwell.patterns state r source ahead? he hsource
    · exact (h.names name).2 (hwell.ops state r he op hop name hname)
    · obtain ⟨hthis, hlexer⟩ := hwell.nonempty state r he
      cases target with
      | this states? =>
        rintro states rfl
        refine ⟨?_, fun name hname => ?_⟩
        · rintro rfl
          exact hthis htarget
        · exact (h.names name).2 (hwell.running state r states he htarget name hname)
      | lexer l states? =>
        rintro states rfl
        refine ⟨?_, hwell.others state r l states he htarget⟩
        rintro rfl
        exact hlexer l htarget

theorem wellFormed (h : Agrees directives d) (hresolved : d.Resolved) (hacyclic : d.Acyclic) :
    WellFormed directives := by
  have hholds := h.holds hresolved.once
  have hentry : ∀ {state e}, Writes directives state e → e.Resolves d.flags d.names :=
    fun he => hresolved.entries _ _ ((hholds _ _).2 he)
  have hrule : ∀ {state r}, Writes directives state (.rule r) → r.Resolves d.flags d.names :=
    fun he => hentry he
  refine ⟨h.once.1 hresolved.once, ?_, ?_, fun state other he => ?_,
    fun state r he op hop name hname => ?_, fun state r states he hhands name hname => ?_,
    fun state r l states he hhands => ?_, fun state r he => ?_,
    fun state r source ahead? he hsource => ?_, fun state hround => ?_⟩
  · rw [← h.root]
    exact (h.names _).1 hresolved.root
  · rw [← h.length_names]
    exact hresolved.few
  · exact (h.names other).1 (hentry he)
  · exact (h.names name).1 ((hrule he).op op hop name hname)
  · exact (h.names name).1 (((hrule he).delegates _ hhands states rfl).2 name hname)
  · exact ((hrule he).delegates _ hhands states rfl).2
  · refine ⟨fun hhands => ?_, fun l hhands => ?_⟩
    · exact ((hrule he).delegates _ hhands [] rfl).1 rfl
    · exact ((hrule he).delegates _ hhands [] rfl).1 rfl
  · have hreadable := (hrule he).readable
    rw [hsource, h.flags] at hreadable
    exact hreadable
  · have hincludes := Relation.TransGen.mono (fun _ _ he => (hholds _ _).2 he) state state hround
    exact hacyclic state hincludes

end Agrees

theorem Resolved.of_wellFormed {directives : List Directive} (h : WellFormed directives) :
    (written directives).Resolved ∧ (written directives).Acyclic := by
  have hagrees := Agrees.written directives
  have once := hagrees.once.2 h.once
  refine ⟨⟨once, hagrees.distinct, ?_, ?_, fun state e he => ?_⟩, fun state hround => ?_⟩
  · rw [hagrees.root]
    exact (hagrees.names _).2 h.root
  · rw [hagrees.length_names]
    exact h.few
  · exact hagrees.resolves h ((hagrees.holds once state e).1 he)
  · refine h.acyclic state (Relation.TransGen.mono (fun _ _ he => ?_) state state hround)
    exact (hagrees.holds once _ _).1 he

theorem consistent_of_compile_ok {d : TableDraft} (hnames : d.names.Nodup) {table : Table}
    (h : d.compile = .ok table) : table.Consistent := by
  obtain ⟨-, hlength, hbinds⟩ := compile_ok h
  obtain ⟨-, -, root, slots, rules, -, -, -, rfl⟩ := compile_ok_iff.1 h
  refine ⟨fun name id => ⟨fun hid => ?_, fun hname => ?_⟩, fun id hid => ?_, hlength,
    fun rules hrules rule hrule => ?_⟩
  · exact Named.getElem? hid
  · exact named_of_getElem? hnames hname
  · exact ⟨_, List.getElem?_eq_getElem hid⟩
  · obtain ⟨state, -, r, -, hr⟩ := hbinds rules hrules rule hrule
    exact hr.inRange

/-- Directives make a table exactly when they are well formed. The table's states then are those
that the directives define, numbered one by one, its root is the one that was said last, and the
states that its rules name lie within the tables in which they are looked up. -/
theorem builds_iff_wellFormed (directives : List Directive) :
    ((∃ table, (Build.table (written directives)).outcome.1 = .ok table) ↔
      WellFormed directives) ∧
    ∀ table, (Build.table (written directives)).outcome.1 = .ok table →
      table.Consistent ∧ table.stateId? (lastRoot directives) = some table.root ∧
        ∀ name, name ∈ defined directives ↔ ∃ id, table.stateId? name = some id := by
  have hagrees := Agrees.written directives
  rw [Build.outcome_table]
  refine ⟨⟨fun hbuilds => ?_, fun hwell => ?_⟩, fun table htable => ?_⟩
  · obtain ⟨table, htable⟩ := hbuilds
    exact hagrees.wellFormed (resolved_of_compile_ok hagrees.distinct htable)
      (acyclic_of_compile_ok hagrees.distinct htable)
  · obtain ⟨hresolved, hacyclic⟩ := Resolved.of_wellFormed hwell
    obtain ⟨_, _, _, -, -, -, htable⟩ := hresolved.compile_ok hacyclic
    exact ⟨_, htable⟩
  · refine ⟨consistent_of_compile_ok hagrees.distinct htable, ?_, fun name => ?_⟩
    · obtain ⟨-, -, root, _, _, hroot, -, -, rfl⟩ := compile_ok_iff.1 htable
      rw [← hagrees.root]
      exact hroot
    · obtain ⟨-, -, _, _, _, -, -, -, rfl⟩ := compile_ok_iff.1 htable
      rw [← hagrees.names]
      exact exists_named.symm

def laterDirectives : List Directive :=
  [.root "start", .state "start" [.includes "word", (Entry.emit "b" .keyword).push "start"],
    .extend "word" [.emit "a" .name]]

theorem builds_iff_wellFormed_later : WellFormed laterDirectives ∧
    (∃ table, (Build.table (written laterDirectives)).outcome.1 = .ok table ∧
      table.stateId? "start" = some table.root) ∧
    ¬WellFormed (laterDirectives ++ [.state "word" []]) := by
  have hok : (Build.table (written laterDirectives)).outcome.1.toOption.isSome := by
    decide +kernel
  obtain ⟨table, htable⟩ : ∃ table,
      (Build.table (written laterDirectives)).outcome.1 = .ok table := by
    cases hresult : (Build.table (written laterDirectives)).outcome.1 with
    | ok table => exact ⟨table, rfl⟩
    | error e =>
      rw [hresult] at hok
      cases hok
  obtain ⟨hiff, hsound⟩ := builds_iff_wellFormed laterDirectives
  refine ⟨hiff.1 ⟨table, htable⟩, ⟨table, htable, (hsound table htable).2.1⟩, fun hwell => ?_⟩
  obtain ⟨other, hother⟩ := (builds_iff_wellFormed _).1.2 hwell
  have hrefused : (Build.table (written (laterDirectives ++ [.state "word" []]))).outcome.1 =
      .error (.duplicateState "word") := rfl
  cases hrefused.symm.trans hother

end TableDraft

end RuleLexer
