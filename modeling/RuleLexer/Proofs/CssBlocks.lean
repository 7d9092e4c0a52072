import RuleLexer.Proofs.Css
import RuleLexer.Proofs.KnownStart
import RuleLexer.Proofs.Stalling

/-! Blocks of style sheets. Items stand in one another to any depth: what one of their characters
does to the stack depends on the state on top, and a relation between a text and the stacks before
and behind it says so character by character. Each scan takes a piece of which all characters but
the first leave the stack as it is, so a run goes along this relation. -/
namespace RuleLexer.Language.Css
open RuleLexer.Text RuleLexer.Regex Entry

structure StackAt (r : Run) (place : Nat) (names : List String) : Prop where
  comes : ∃ turns, (Point.after turns r).run.position = place
  names : ∀ turns, (Point.after turns r).run.position = place →
    (Point.after turns r).run.stackNames = names

/-! Items -/

def nameChars : List Char :=
  (List.range 26).map (fun i => Char.ofNat ('a'.toNat + i)) ++
    (List.range 26).map (fun i => Char.ofNat ('A'.toNat + i)) ++
    (List.range 10).map (fun i => Char.ofNat ('0'.toNat + i)) ++ ['_', '-']

structure Name where
  chars : List Char
  nonempty : chars ≠ []
  plain : ∀ c ∈ chars, c ∈ nameChars

inductive Item
  /-- A block without declarations. -/
  | block (name : Name)
  /-- An at-rule without a block. -/
  | statement (name : Name)
  /-- An at-rule with items in its block. -/
  | nested (name : Name) (items : List Item)

mutual

def Item.render : Item → List Char
  | .block name => name.chars ++ [' ', '{', ' ', '}']
  | .statement name => '@' :: name.chars ++ [' ', ';']
  | .nested name items => '@' :: name.chars ++ [' ', '{', ' '] ++ renderAll items ++ [' ', '}']

def renderAll : List Item → List Char
  | [] => []
  | [item] => item.render
  | item :: next :: rest => item.render ++ ' ' :: renderAll (next :: rest)

end

mutual

/-- How much deeper than before the stack gets. -/
def Item.need : Item → Nat
  | .block _ | .statement _ => 1
  | .nested _ items => 2 + needAll items

def needAll : List Item → Nat
  | [] => 0
  | item :: rest => max item.need (needAll rest)

end

/-- An item, at some level, and what stands before it in the text of the items. -/
inductive Occurs : List Item → List Char → Item → Prop
  | here (item : Item) (rest : List Item) : Occurs (item :: rest) [] item
  | later (first : Item) {rest : List Item} {before : List Char} {item : Item}
      (h : Occurs rest before item) : Occurs (first :: rest) (first.render ++ ' ' :: before) item
  | within (name : Name) {inner : List Item} {before : List Char} {item : Item}
      (h : Occurs inner before item) (rest : List Item) :
      Occurs (.nested name inner :: rest) ('@' :: name.chars ++ [' ', '{', ' '] ++ before) item

theorem needAll_le {items : List Item} {room : Nat} (h : ∀ item ∈ items, item.need ≤ room) :
    needAll items ≤ room := by
  induction items with
  | nil => exact Nat.zero_le _
  | cons item rest ih =>
    obtain ⟨hitem, hrest⟩ := List.forall_mem_cons.1 h
    rw [needAll]
    exact Nat.max_le.2 ⟨hitem, ih hrest⟩

/-! What characters do to the stack -/

/-- A character of an item that stands before `next`, and the entries of the stack before and
behind it. On top is the root, or the state of an at-rule, of rules in a block, or of
declarations. -/
inductive Meets : List StateId → Char → (next : Option Char) → List StateId → Prop
  | space {top : StateId} (htop : top ∈ [0, 2, 3, 4]) (below : List StateId)
      (next : Option Char) : Meets (top :: below) ' ' next (top :: below)
  | name {top : StateId} (htop : top ∈ [0, 2, 3]) {c : Char} (hc : c ∈ nameChars)
      (below : List StateId) (next : Option Char) : Meets (top :: below) c next (top :: below)
  | begins {top : StateId} (htop : top ∈ [0, 3]) {below : List StateId}
      (hroom : below.length + 1 < Stack.maxDepth) {d : Char} (hd : d ∈ nameChars) :
      Meets (top :: below) '@' (some d) (2 :: top :: below)
  | opensRules {below : List StateId} (hroom : below.length + 1 < Stack.maxDepth)
      (next : Option Char) : Meets (2 :: below) '{' next (3 :: 2 :: below)
  | opens {top : StateId} (htop : top ∈ [0, 3]) {below : List StateId}
      (hroom : below.length + 1 < Stack.maxDepth) (next : Option Char) :
      Meets (top :: below) '{' next (4 :: top :: below)
  | ends (top : StateId) (below : List StateId) (next : Option Char) :
      Meets (2 :: top :: below) ';' next (top :: below)
  | closes (top : StateId) (below : List StateId) (next : Option Char) :
      Meets (4 :: top :: below) '}' next (top :: below)
  | closesRules (top : StateId) (below : List StateId) (next : Option Char) :
      Meets (3 :: 2 :: top :: below) '}' next (top :: below)

/-- A text that stands before `rest`, and the entries of the stack before and behind it. -/
inductive Reads : List StateId → List Char → (rest : List Char) → List StateId → Prop
  | nil (entries : List StateId) (rest : List Char) : Reads entries [] rest entries
  | cons {entries entries' entries'' : List StateId} {c : Char} {text rest : List Char}
      (first : Meets entries c (text ++ rest).head? entries') (later : Reads entries' text rest entries'') :
      Reads entries (c :: text) rest entries''

def alphabet : List Char := [' ', '@', '{', '}', ';'] ++ nameChars

theorem marks_not_name : ' ' ∉ nameChars ∧ '@' ∉ nameChars ∧ '{' ∉ nameChars ∧
    '}' ∉ nameChars ∧ ';' ∉ nameChars := by
  decide +kernel

theorem Meets.mem_alphabet {entries entries' : List StateId} {c : Char} {next : Option Char}
    (h : Meets entries c next entries') : c ∈ alphabet := by
  cases h with
  | name _ hc => exact List.mem_append_right _ hc
  | space | begins | opensRules | opens | ends | closes | closesRules => simp [alphabet]

theorem Meets.unique {entries entries' entries'' : List StateId} {c : Char} {next : Option Char}
    (h : Meets entries c next entries') (h' : Meets entries c next entries'') :
    entries' = entries'' := by
  have hmarks := marks_not_name
  cases h <;> cases h' <;> simp_all

section reads
variable {entries entries' entries'' : List StateId} {text more rest : List Char}

theorem Reads.append (h : Reads entries text (more ++ rest) entries')
    (h' : Reads entries' more rest entries'') : Reads entries (text ++ more) rest entries'' := by
  generalize hbehind : more ++ rest = behind at h
  induction h with
  | nil => exact h'
  | cons first _ ih =>
    subst hbehind
    rw [← List.append_assoc] at first
    rw [List.cons_append]
    exact .cons first (ih h' rfl)

theorem Reads.split (h : Reads entries (text ++ more) rest entries'') :
    ∃ entries', Reads entries text (more ++ rest) entries' ∧ Reads entries' more rest entries'' := by
  induction text generalizing entries with
  | nil => exact ⟨entries, .nil _ _, h⟩
  | cons c text ih =>
    rw [List.cons_append] at h
    cases h with
    | cons first later =>
      obtain ⟨entries', hfirst, hlater⟩ := ih later
      rw [List.append_assoc] at first
      exact ⟨entries', .cons first hfirst, hlater⟩

theorem Reads.unique (h : Reads entries text rest entries') (h' : Reads entries text rest entries'') :
    entries' = entries'' := by
  induction h with
  | nil => cases h'; rfl
  | cons first _ ih =>
    cases h' with
    | cons first' later' =>
      cases first.unique first'
      exact ih later'

theorem Reads.mem_alphabet (h : Reads entries text rest entries') : ∀ c ∈ text, c ∈ alphabet := by
  induction h with
  | nil => simp
  | cons first _ ih => exact List.forall_mem_cons.2 ⟨first.mem_alphabet, ih⟩

theorem Reads.of_stay (h : ∀ c ∈ text, ∀ next, Meets entries c next entries) :
    Reads entries text rest entries := by
  induction text with
  | nil => exact .nil _ _
  | cons c text ih =>
    obtain ⟨hc, htext⟩ := List.forall_mem_cons.1 h
    exact .cons (hc _) (ih htext)

end reads

/-! What items do to the stack -/

theorem mem_of_items {top : StateId} (h : top ∈ [0, 3]) : top ∈ [0, 2, 3] ∧ top ∈ [0, 2, 3, 4] := by
  simp only [List.mem_cons, List.not_mem_nil, or_false] at h ⊢
  rcases h with rfl | rfl <;> simp

section items
variable {top : StateId} {below : List StateId} (htop : top ∈ [0, 3])
include htop

theorem Name.reads (name : Name) (rest : List Char) :
    Reads (top :: below) name.chars rest (top :: below) := by
  exact .of_stay fun c hc next => .name (mem_of_items htop).1 (name.plain c hc) below next

theorem Name.reads_at (hroom : below.length + 1 < Stack.maxDepth) (name : Name)
    (rest : List Char) : Reads (top :: below) ('@' :: name.chars) rest (2 :: top :: below) := by
  obtain ⟨d, chars, hchars⟩ := List.exists_cons_of_ne_nil name.nonempty
  have hd : d ∈ nameChars := name.plain d (by rw [hchars]; exact List.mem_cons_self)
  refine .cons ?_ (.of_stay fun c hc next => .name (by simp) (name.plain c hc) _ next)
  rw [hchars]
  exact .begins htop hroom hd

end items

mutual

/-- Behind an item the stack is what it was before. -/
theorem Item.reads (top : StateId) (below : List StateId) (htop : top ∈ [0, 3]) (item : Item)
    (hroom : below.length + 1 + item.need ≤ Stack.maxDepth) (rest : List Char) :
    Reads (top :: below) item.render rest (top :: below) := by
  have hspace := (mem_of_items htop).2
  cases item with
  | block name =>
    rw [Item.need] at hroom
    rw [Item.render]
    refine (name.reads htop _).append ?_
    exact .cons (.space hspace _ _) (.cons (.opens htop (by omega) _)
      (.cons (.space (by simp) _ _) (.cons (.closes _ _ _) (.nil _ _))))
  | statement name =>
    rw [Item.need] at hroom
    rw [Item.render]
    refine (name.reads_at htop (by omega) _).append ?_
    exact .cons (.space (by simp) _ _) (.cons (.ends _ _ _) (.nil _ _))
  | nested name items =>
    rw [Item.need] at hroom
    have hinner := reads_all 3 (2 :: top :: below) (by simp) items
      (by rw [List.length_cons, List.length_cons]; omega) ([' ', '}'] ++ rest)
    rw [Item.render]
    refine Reads.append (Reads.append (Reads.append (name.reads_at htop (by omega) _) ?_) hinner) ?_
    · exact .cons (.space (by simp) _ _) (.cons (.opensRules (by rw [List.length_cons]; omega) _)
        (.cons (.space (by simp) _ _) (.nil _ _)))
    · exact .cons (.space (by simp) _ _) (.cons (.closesRules _ _ _) (.nil _ _))

theorem reads_all (top : StateId) (below : List StateId) (htop : top ∈ [0, 3])
    (items : List Item) (hroom : below.length + 1 + needAll items ≤ Stack.maxDepth)
    (rest : List Char) : Reads (top :: below) (renderAll items) rest (top :: below) := by
  match items with
  | [] => exact .nil _ _
  | [item] =>
    rw [needAll] at hroom
    exact Item.reads top below htop item (by omega) rest
  | item :: next :: more =>
    rw [needAll] at hroom
    have hspace := (mem_of_items htop).2
    rw [renderAll]
    refine (Item.reads top below htop item (by omega) _).append (.cons (.space hspace _ _) ?_)
    exact reads_all top below htop (next :: more) (by omega) rest

end

theorem renderAll_cons (first : Item) {rest : List Item} (hrest : rest ≠ []) :
    renderAll (first :: rest) = first.render ++ ' ' :: renderAll rest := by
  cases rest with
  | nil => exact absurd rfl hrest
  | cons next rest => rw [renderAll]

theorem Occurs.ne_nil {items : List Item} {before : List Char} {item : Item}
    (h : Occurs items before item) : items ≠ [] := by
  cases h <;> simp

theorem Occurs.reads {items : List Item} {before : List Char} {item : Item}
    (h : Occurs items before item) {top : StateId} {below : List StateId} (htop : top ∈ [0, 3])
    (hroom : below.length + 1 + needAll items ≤ Stack.maxDepth) (rest : List Char) :
    ∃ after entries, renderAll items = before ++ (item.render ++ after) ∧
      Reads (top :: below) before (item.render ++ after ++ rest) entries ∧
      Reads entries item.render (after ++ rest) entries := by
  induction h generalizing top below rest with
  | here item more =>
    rw [needAll] at hroom
    obtain ⟨after, hafter⟩ : ∃ after, renderAll (item :: more) = item.render ++ after := by
      cases more with
      | nil => exact ⟨[], by simp [renderAll]⟩
      | cons next more => exact ⟨_, by rw [renderAll]⟩
    exact ⟨after, _, hafter, .nil _ _, item.reads top below htop (by omega) _⟩
  | @later first more before item h ih =>
    rw [needAll] at hroom
    obtain ⟨after, entries, hrender, hbefore, hitem⟩ := @ih top below htop (by omega) rest
    have hspace := (mem_of_items htop).2
    refine ⟨after, entries, by rw [renderAll_cons first h.ne_nil, hrender]; simp, ?_, hitem⟩
    exact (first.reads top below htop (by omega) _).append (.cons (.space hspace below _) hbefore)
  | @within name inner before item h more ih =>
    rw [needAll, Item.need] at hroom
    obtain ⟨after, hafter⟩ : ∃ after, renderAll (.nested name inner :: more) =
        (Item.nested name inner).render ++ after := by
      cases more with
      | nil => exact ⟨[], by simp [renderAll]⟩
      | cons next more => exact ⟨_, by rw [renderAll]⟩
    obtain ⟨afterInner, entries, hrender, hbefore, hitem⟩ := @ih 3
      (2 :: top :: below) (by simp) (by rw [List.length_cons, List.length_cons]; omega)
      ([' ', '}'] ++ after ++ rest)
    refine ⟨afterInner ++ [' ', '}'] ++ after, entries,
      by rw [hafter, Item.render, hrender]; simp, ?_, by simpa using hitem⟩
    refine Reads.append (Reads.append (name.reads_at htop (by omega) _) ?_) (by simpa using hbefore)
    exact .cons (.space (by simp) _ _) (.cons (.opensRules (by rw [List.length_cons]; omega) _)
      (.cons (.space (by simp) _ _) (.nil _ _)))

/-! Rules -/

def basicEntries : List (Entry Delegate) := table.states[1].2

theorem mem_basics : ("basics", basicEntries) ∈ table.states :=
  List.mem_of_getElem? (show table.states[1]? = some ("basics", basicEntries) from rfl)

def rulesOf (id : StateId) : List (Rule Delegate) :=
  inlined basicEntries (table.states[id]?.elim [] Prod.snd)

/-- Where one of the words comes next, a rule of a state wins. Its match goes on behind the first
character over so many characters only. -/
structure Win where
  state : StateId
  words : List (List Char)
  rule : Nat
  op? : Option (StackOp String)
  more : List Char

namespace Win

def space (state : StateId) (rule : Nat) : Win := ⟨state, [[' ']], rule, none, [' ']⟩

def name (state : StateId) (rule : Nat) : Win :=
  ⟨state, nameChars.map ([·]), rule, none, nameChars⟩

def begins (state : StateId) : Win :=
  ⟨state, nameChars.map (['@', ·]), 6, some (.push ["atrule"]), nameChars⟩

def mark (state : StateId) (c : Char) (rule : Nat) (op : StackOp String) : Win :=
  ⟨state, [[c]], rule, some op, []⟩

def all : List Win :=
  [space 0 0, space 2 2, space 3 0, space 4 0, name 0 7, name 2 9, name 3 7, begins 0, begins 3,
    mark 2 '{' 0 (.push ["atcontent"]), mark 0 '{' 2 (.push ["content"]),
    mark 3 '{' 2 (.push ["content"]), mark 2 ';' 1 (.pop 1), mark 4 '}' 1 (.pop 1),
    mark 3 '}' 11 (.pop 2)]

def holds (win : Win) : Bool :=
  [0, 2, 3, 4].contains win.state && Rule.wins table.flags win.words win.rule (rulesOf win.state) &&
    (rulesOf win.state)[win.rule]?.any fun r => r.op? == win.op? &&
      r.shows (fun body _ => alphabet.all fun d => win.more.contains d || body.beginsAt d)
        table.flags

theorem holds_all : ∀ win ∈ all, win.holds := by decide +kernel

end Win

theorem exists_state {id : StateId} (hid : id ∈ [0, 2, 3, 4]) : ∃ state ∈ table.states,
    Named table.names state.1 id ∧ rulesOf id = inlined basicEntries state.2 := by
  simp only [List.mem_cons, List.not_mem_nil, or_false] at hid
  rcases hid with rfl | rfl | rfl | rfl
  · exact ⟨table.states[0], List.getElem_mem _, rfl, rfl⟩
  · exact ⟨table.states[2], List.getElem_mem _, rfl, rfl⟩
  · exact ⟨table.states[3], List.getElem_mem _, rfl, rfl⟩
  · exact ⟨table.states[4], List.getElem_mem _, rfl, rfl⟩

theorem Win.scan {t : Table} (htable : table.compile = .ok t) {win : Win} (hwin : win ∈ all)
    {r : Run} (hlexer : r.lexer = lexerOf t) (htop : r.stack.top = win.state)
    (hzero : r.zeroSteps = 0) {w : List Char} (hw : w ∈ win.words) (hahead : w <+: r.cursor.ahead) :
    ∃ category op? piece, Option.Rel (StackOp.Rel (Named table.names)) win.op? op? ∧
      r.Emitted category op? piece r.scan ∧ piece ≠ [] ∧
      ∀ d ∈ alphabet, d ∈ piece.tail → d ∈ win.more := by
  have hholds := holds_all win hwin
  simp only [holds, Bool.and_eq_true, List.contains_iff_mem] at hholds
  obtain ⟨⟨hstate, hwins⟩, hrule⟩ := hholds
  obtain ⟨state, hmem, hnamed, hrules⟩ := exists_state hstate
  have hbinds := surveyed_table.resolved.binds_inlined htable restsOn_table mem_basics hmem hnamed
  rw [← hrules] at hbinds
  obtain ⟨q, c, found, hq, hbind, hfirst⟩ := Run.firstMatch_of_wins hwins hbinds hw hahead
  have hwinner : r.winner? = some (c, found) := by
    rw [Run.winner?, Run.table, hlexer, htop]
    exact hfirst
  rw [hq, Option.any_some, Bool.and_eq_true] at hrule
  obtain ⟨hop, hshows⟩ := hrule
  obtain ⟨body, after, htail, hleads⟩ := hbind.leads hshows (Run.matchAt_of_firstMatch hfirst)
  obtain ⟨_, q', -, -, hbind', hshows'⟩ :=
    surveyed_table.exists_rule htable hnamed (Run.firstMatch_some hfirst).1
  obtain ⟨body', after', hcheck, hleads'⟩ :=
    hbind'.leads hshows' (Run.matchAt_of_firstMatch hfirst)
  obtain ⟨hmoves, hemits⟩ := Bool.and_eq_true_iff.1 hcheck
  obtain ⟨category, haction⟩ : ∃ category, q'.action = .emit category := by
    split at hemits
    · next category haction => exact ⟨category, haction⟩
    · cases hemits
  have hpiece := hleads'.upTo_ne_nil hmoves
  obtain ⟨-, hemitted⟩ := Run.scan_emit hwinner (hbind'.emit haction)
    (by rw [hzero]; exact Nat.zero_lt_succ _) (.inl hpiece)
  refine ⟨category, c.op?, _, eq_of_beq hop ▸ hbind.op, hemitted, hpiece, fun d hd hmore => ?_⟩
  have hbegins := List.all_eq_true.1 htail d hd
  rw [Bool.or_eq_true, List.contains_iff_mem] at hbegins
  exact hbegins.resolve_right fun h => hleads.not_mem_tail h hmore

/-! Scans -/

/-- A scan that takes the first character may take the second with it. -/
def GoesOn (c d : Char) : Prop :=
  c = ' ' ∧ d = ' ' ∨ (c = '@' ∨ c ∈ nameChars) ∧ d ∈ nameChars

section stack
variable {s : Stack} {entries : List StateId} {op? : Option (StackOp StateId)}

theorem entries_none (h : Option.Rel (StackOp.Rel (Named table.names)) none op?) :
    (s.applied op?).entries = s.entries := by
  cases h
  rfl

theorem entries_push {name : String} {id : StateId} (hid : Named table.names name id)
    (h : Option.Rel (StackOp.Rel (Named table.names)) (some (.push [name])) op?)
    (hroom : s.depth < Stack.maxDepth) : (s.applied op?).entries = id :: s.entries := by
  cases StackOp.rel_unique (.some (.push (.cons hid .nil))) h
  simp [Stack.applied, Stack.apply, Stack.pushAll, Stack.push, Nat.not_le.2 hroom, Stack.entries]

theorem named_states : Named table.names "atrule" 2 ∧ Named table.names "atcontent" 3 ∧
    Named table.names "content" 4 := ⟨rfl, rfl, rfl⟩

theorem entries_pop {count : Nat} (taken : List StateId) {top : StateId} {below : List StateId}
    (h : Option.Rel (StackOp.Rel (Named table.names)) (some (.pop count)) op?)
    (hentries : s.entries = taken ++ top :: below) (hcount : taken.length = count) :
    (s.applied op?).entries = top :: below := by
  cases StackOp.rel_unique (.some (.pop count)) h
  have hlength := congrArg List.length hentries
  simp only [Stack.entries, List.length_cons, List.length_append] at hlength
  have hremoved : min count s.below.length = taken.length := by omega
  have hdrop : s.entries.drop taken.length = top :: below := by rw [hentries, List.drop_left]
  simp only [Stack.applied, Option.elim, Stack.apply, Stack.pop, hremoved, hdrop]
  rfl

end stack

/-- A rule wins where a character of an item stands, and does to the stack what the character
does. All that its match can go on over leaves the stack as it is then. -/
theorem Meets.exists_win {entries entries' : List StateId} {c : Char} {next : Option Char}
    (h : Meets entries c next entries') : ∃ win ∈ Win.all, entries.head? = some win.state ∧
      (∃ w ∈ win.words, w = [c] ∨ ∃ d ∈ next, w = [c, d]) ∧
      (∀ b ∈ c :: win.more, ∀ d ∈ win.more, GoesOn b d) ∧
      (∀ d ∈ win.more, ∀ next, Meets entries' d next entries') ∧
      ∀ (s : Stack) op?, s.entries = entries →
        Option.Rel (StackOp.Rel (Named table.names)) win.op? op? →
        (s.applied op?).entries = entries' := by
  obtain ⟨hatrule, hatcontent, hcontent⟩ := named_states
  have hname : ∀ b, b = '@' ∨ b ∈ nameChars → ∀ d ∈ nameChars, GoesOn b d :=
    fun b hb d hd => .inr ⟨hb, hd⟩
  cases h with
  | @space top htop below =>
    refine ⟨.space top (if top = 2 then 2 else 0), ?_, rfl, ⟨_, List.mem_singleton_self _, .inl rfl⟩,
      ?_, ?_, fun s op? hs hop => (entries_none hop).trans hs⟩
    · simp only [List.mem_cons, List.not_mem_nil, or_false] at htop
      rcases htop with rfl | rfl | rfl | rfl <;> simp [Win.all]
    · simp [Win.space, GoesOn]
    · rintro d hd next
      cases List.mem_singleton.1 hd
      exact .space htop below next
  | @name top htop _ hc below =>
    refine ⟨.name top (if top = 2 then 9 else 7), ?_, rfl,
      ⟨_, List.mem_map_of_mem hc, .inl rfl⟩, ?_, fun d hd next => .name htop hd below next,
      fun s op? hs hop => (entries_none hop).trans hs⟩
    · simp only [List.mem_cons, List.not_mem_nil, or_false] at htop
      rcases htop with rfl | rfl | rfl <;> simp [Win.all]
    · exact List.forall_mem_cons.2 ⟨hname c (.inr hc), fun b hb => hname b (.inr hb)⟩
  | @begins top htop below hroom d hd =>
    refine ⟨.begins top, ?_, rfl, ⟨_, List.mem_map_of_mem hd, .inr ⟨d, rfl, rfl⟩⟩, ?_,
      fun d hd next => .name (by simp) hd _ next, fun s op? hs hop => ?_⟩
    · simp only [List.mem_cons, List.not_mem_nil, or_false] at htop
      rcases htop with rfl | rfl <;> simp [Win.all]
    · exact List.forall_mem_cons.2 ⟨hname '@' (.inl rfl), fun b hb => hname b (.inr hb)⟩
    · cases (List.cons.inj hs).2
      rw [entries_push hatrule hop hroom, hs]
  | @opensRules below hroom =>
    refine ⟨.mark 2 '{' 0 (.push ["atcontent"]), by simp [Win.all], rfl,
      ⟨_, List.mem_singleton_self _, .inl rfl⟩, by simp [Win.mark], by simp [Win.mark],
      fun s op? hs hop => ?_⟩
    cases (List.cons.inj hs).2
    rw [entries_push hatcontent hop hroom, hs]
  | @opens top htop below hroom =>
    refine ⟨.mark top '{' 2 (.push ["content"]), ?_, rfl, ⟨_, List.mem_singleton_self _, .inl rfl⟩,
      by simp [Win.mark], by simp [Win.mark], fun s op? hs hop => ?_⟩
    · simp only [List.mem_cons, List.not_mem_nil, or_false] at htop
      rcases htop with rfl | rfl <;> simp [Win.all]
    · cases (List.cons.inj hs).2
      rw [entries_push hcontent hop hroom, hs]
  | ends top below =>
    exact ⟨.mark 2 ';' 1 (.pop 1), by simp [Win.all], rfl,
      ⟨_, List.mem_singleton_self _, .inl rfl⟩, by simp [Win.mark], by simp [Win.mark],
      fun s op? hs hop => entries_pop [2] hop hs rfl⟩
  | closes top below =>
    exact ⟨.mark 4 '}' 1 (.pop 1), by simp [Win.all], rfl,
      ⟨_, List.mem_singleton_self _, .inl rfl⟩, by simp [Win.mark], by simp [Win.mark],
      fun s op? hs hop => entries_pop [4] hop hs rfl⟩
  | closesRules top below =>
    exact ⟨.mark 3 '}' 11 (.pop 2), by simp [Win.all], rfl,
      ⟨_, List.mem_singleton_self _, .inl rfl⟩, by simp [Win.mark], by simp [Win.mark],
      fun s op? hs hop => entries_pop [3, 2] hop hs rfl⟩

/-- A run of the lexer that stands in a text of items, with `last` behind the text. -/
structure Follows (t : Table) (last : List StateId) (r : Run) : Prop where
  lexer : r.lexer = lexerOf t
  zeroSteps : r.zeroSteps = 0
  behind : Reads [0] r.cursor.passed.reverse r.cursor.ahead r.stack.entries
  ahead : Reads r.stack.entries r.cursor.ahead [] last

theorem Follows.stackNames {t : Table} {last : List StateId} {r : Run} (h : Follows t last r)
    (hnames : t.names = table.names) :
    r.stackNames = r.stack.entries.reverse.filterMap (table.names[·]?) := by
  rw [Run.stackNames, h.lexer, LexerOf.namesOf, ← hnames]
  rfl

section runs
variable {t : Table} (htable : table.compile = .ok t) {last : List StateId}
include htable

theorem Follows.scan {r : Run} (h : Follows t last r) (hend : r.cursor.ahead ≠ []) :
    ∃ piece, piece.IsChain GoesOn ∧ r.cursor.Passes piece r.scan.cursor ∧
      Follows t last r.scan := by
  obtain ⟨c, rest, hahead⟩ := List.exists_cons_of_ne_nil hend
  have hreads := h.ahead
  rw [hahead] at hreads
  cases hreads with
  | @cons _ entries' _ _ _ _ first later =>
    rw [List.append_nil] at first
    obtain ⟨win, hwin, hstate, ⟨w, hw, hword⟩, hjoins, hstays, hstack⟩ := first.exists_win
    have htop : r.stack.top = win.state := by simpa [Stack.entries] using hstate
    have hprefix : w <+: r.cursor.ahead := by
      rw [hahead]
      rcases hword with rfl | ⟨d, hd, rfl⟩
      · exact ⟨rest, rfl⟩
      · obtain ⟨more, rfl⟩ := List.head?_eq_some_iff.1 hd
        exact ⟨more, rfl⟩
    obtain ⟨category, op?, piece, hop, hemitted, hpiece, htail⟩ :=
      win.scan htable hwin h.lexer htop h.zeroSteps hw hprefix
    have hpasses := hemitted.passes
    obtain ⟨b, more, rfl⟩ := List.exists_cons_of_ne_nil hpiece
    obtain ⟨rfl, hrest⟩ : b = c ∧ more ++ r.scan.cursor.ahead = rest :=
      List.cons.inj (hpasses.ahead.symm.trans hahead)
    have hmore : ∀ d ∈ more, d ∈ win.more := fun d hd =>
      htail d (h.ahead.mem_alphabet d (by rw [hpasses.ahead]; simp [hd])) hd
    have hentries : r.scan.stack.entries = entries' := by
      rw [hemitted.stack]
      exact hstack r.stack op? rfl hop
    have hread : Reads r.stack.entries (b :: more) r.scan.cursor.ahead r.scan.stack.entries := by
      rw [hentries]
      exact .cons (by rwa [hrest]) (.of_stay fun d hd => hstays d (hmore d hd))
    refine ⟨b :: more, ?_, hpasses, hemitted.lexer.trans h.lexer, ?_, ?_, ?_⟩
    · refine List.Pairwise.isChain (List.pairwise_cons.2 ⟨fun d hd => ?_, ?_⟩)
      · exact hjoins b List.mem_cons_self d (hmore d hd)
      · exact List.pairwise_of_forall_mem_list fun d hd d' hd' =>
          hjoins d (List.mem_cons_of_mem _ (hmore d hd)) d' (hmore d' hd')
    · rw [hemitted.zeroSteps, if_neg hpiece]
    · have hbehind := h.behind
      rw [hpasses.ahead] at hbehind
      rw [hpasses.passed, List.reverse_append, List.reverse_reverse]
      exact hbehind.append hread
    · have hwhole := h.ahead
      rw [hpasses.ahead] at hwhole
      obtain ⟨entries'', hfirst, hlater⟩ := hwhole.split
      rw [List.append_nil] at hfirst
      rwa [hread.unique hfirst]

variable {text : List Char} (htext : Reads [0] text [] last)
include htext

theorem follows_after (turns : Nat) :
    Follows t last (Point.after turns (Run.start (lexerOf t) [0] text 0)).run := by
  refine Point.after_induction ⟨rfl, rfl, .nil _ _, htext⟩ (fun r pending h => ⟨h.1, h.2, h.3, h.4⟩)
    (fun r _ hend h => ?_) turns
  obtain ⟨_, -, -, hscan⟩ := h.scan htable hend
  exact hscan

theorem stackAt {before after : List Char} {entries : List StateId} (hsplit : text = before ++ after)
    (hcut : ∀ c ∈ before.getLast?, ∀ d ∈ after.head?, ¬GoesOn c d)
    (hbefore : Reads [0] before after entries) (hnames : t.names = table.names) :
    StackAt (Run.start (lexerOf t) [0] text 0) (byteLength before)
      (entries.reverse.filterMap (table.names[·]?)) := by
  have hplace : (Cursor.start text).Passes before ⟨before.reverse, after, byteLength before⟩ :=
    ⟨hsplit, by simp [Cursor.start], by simp [Cursor.start]⟩
  have hholds := Point.Holds.after (lexerOf t) [0] text 0
  constructor
  · obtain ⟨turns, hturns⟩ := Point.exists_passed (l := lexerOf t) hsplit hcut fun turns _ hend => by
      obtain ⟨piece, hchain, hpasses, -⟩ := (follows_after htable htext turns).scan htable hend
      exact ⟨piece, hchain, hpasses⟩
    refine ⟨turns, ?_⟩
    have hoffset := (hholds turns).passes.offset
    rwa [hturns, ← hplace.offset] at hoffset
  · intro turns hturns
    have hcursor : (Point.after turns (Run.start (lexerOf t) [0] text 0)).run.cursor =
        ⟨before.reverse, after, byteLength before⟩ := by
      rw [← Cursor.seek_of_passes (hholds turns).passes, ← Cursor.seek_of_passes hplace]
      exact congrArg _ hturns
    have hfollows := follows_after htable htext turns
    have hbehind := hfollows.behind
    rw [hcursor, List.reverse_reverse] at hbehind
    rw [hbefore.unique hbehind, hfollows.stackNames hnames]

end runs

/-! Runs over items -/

theorem not_goesOn_of_space {d : Char} (hd : d = '@' ∨ d ∈ nameChars) : ¬GoesOn ' ' d := by
  obtain ⟨hspace, -⟩ := marks_not_name
  rintro (⟨-, rfl⟩ | ⟨h, -⟩)
  · exact hd.elim (by decide) hspace
  · exact h.elim (by decide) hspace

theorem not_goesOn_of_mark {c : Char} (hc : c = ';' ∨ c = '}') (d : Char) : ¬GoesOn c d := by
  have hmarks := marks_not_name
  rcases hc with rfl | rfl <;> simp [GoesOn, hmarks]

theorem Item.getLast?_render (item : Item) :
    ∃ c, item.render.getLast? = some c ∧ (c = ';' ∨ c = '}') := by
  cases item with
  | block name => exact ⟨'}', by simp [Item.render], .inr rfl⟩
  | statement name => exact ⟨';', by simp [Item.render, List.getLast?_cons], .inl rfl⟩
  | nested name items => exact ⟨'}', by simp [Item.render, List.getLast?_cons], .inr rfl⟩

theorem Item.head?_render (item : Item) :
    ∃ c, item.render.head? = some c ∧ (c = '@' ∨ c ∈ nameChars) := by
  cases item with
  | block name =>
    obtain ⟨d, chars, hchars⟩ := List.exists_cons_of_ne_nil name.nonempty
    exact ⟨d, by simp [Item.render, hchars], .inr (name.plain d (by simp [hchars]))⟩
  | statement name => exact ⟨'@', by simp [Item.render], .inl rfl⟩
  | nested name items => exact ⟨'@', by simp [Item.render], .inl rfl⟩

theorem Occurs.getLast?_before {items : List Item} {before : List Char} {item : Item}
    (h : Occurs items before item) : ∀ c ∈ before.getLast?, c = ' ' := by
  induction h with
  | here => simp
  | @later first _ before _ _ ih =>
    intro c hc
    cases before with
    | nil => simpa using hc.symm
    | cons b before => exact ih c (by simpa [List.getLast?_append, List.getLast?_cons] using hc)
  | @within name _ before _ _ _ ih =>
    intro c hc
    cases before with
    | nil => simpa [List.getLast?_cons] using hc.symm
    | cons b before => exact ih c (by simpa [List.getLast?_append, List.getLast?_cons] using hc)

/-- Behind each item of a text of items, at every level, the stack is what it was before the item,
and behind all of them it is the root alone, as long as none is nested too deeply. -/
theorem blocks_nest : ∃ l, lexer.outcome.1 = .ok l ∧ ∀ items : List Item,
    (∀ item ∈ items, item.need ≤ Stack.maxDepth - 1) →
      let r := l.run (String.ofList (renderAll items))
      r.complete.2.stackNames = ["root"] ∧ ∀ before item, Occurs items before item →
        ∃ names, StackAt r (byteLength before) names ∧
          StackAt r (byteLength (before ++ item.render)) names := by
  obtain ⟨t, htable, hnames, hroot⟩ := exists_table
  refine ⟨lexerOf t, Build.outcome_plain htable info, fun items hneed => ?_⟩
  have hroom : ([] : List StateId).length + 1 + needAll items ≤ Stack.maxDepth := by
    have hall := needAll_le hneed
    rw [List.length_nil, Stack.maxDepth] at *
    omega
  have htext : Reads [0] (renderAll items) [] [0] := reads_all 0 [] (by simp) items hroom []
  have hrun : LexerOf.run (lexerOf t) (String.ofList (renderAll items)) =
      Run.start (lexerOf t) [0] (renderAll items) 0 := by
    rw [LexerOf.run, lexerOf, hroot, String.toList_ofList]
  dsimp only
  rw [hrun]
  refine ⟨?_, fun before item hoccurs => ?_⟩
  · obtain ⟨turns, hdone, -, hcomplete⟩ :=
      Run.exists_turns_complete (lexerOf t) [0] (renderAll items) 0
    have hfollows := follows_after htable htext turns
    have hahead := hfollows.ahead
    rw [hdone.atEnd] at hahead
    rw [← hcomplete, hfollows.stackNames hnames]
    generalize (Point.after turns _).run.stack.entries = entries at hahead ⊢
    cases hahead
    rfl
  · obtain ⟨after, entries, hrender, hbefore, hitem⟩ :=
      @Occurs.reads _ _ _ hoccurs 0 [] (by simp) hroom []
    rw [List.append_nil] at hbefore hitem
    have hwhole : renderAll items = (before ++ item.render) ++ after := by
      rw [hrender, List.append_assoc]
    obtain ⟨first, hfirst, hstarts⟩ := item.head?_render
    obtain ⟨last, hlast, hends⟩ := item.getLast?_render
    refine ⟨_, stackAt htable htext hrender (fun c hc d hd => ?_) hbefore hnames,
      stackAt htable htext hwhole (fun c hc d _ => ?_) (hbefore.append hitem) hnames⟩
    · have hd : d = first := by simpa [List.head?_append, hfirst] using hd.symm
      rw [hoccurs.getLast?_before c hc, hd]
      exact not_goesOn_of_space hstarts
    · have hc : c = last := by simpa [List.getLast?_append, hlast] using hc.symm
      rw [hc]
      exact not_goesOn_of_mark hends d

theorem plain_words : (∀ c ∈ ['m', 'e', 'd', 'i', 'a'], c ∈ nameChars) ∧
    ∀ c ∈ ['p', 'a', 'g', 'e'], c ∈ nameChars := by
  simp only [List.forall_mem_cons, List.not_mem_nil, false_imp_iff, implies_true]
  decide +kernel

def mediaItem : Item :=
  .nested ⟨['m', 'e', 'd', 'i', 'a'], by decide, plain_words.1⟩
    [.block ⟨['p', 'a', 'g', 'e'], by decide, plain_words.2⟩,
      .statement ⟨['p', 'a', 'g', 'e'], by decide, plain_words.2⟩]

theorem blocks_nest_media : (∀ item ∈ [mediaItem], item.need ≤ Stack.maxDepth - 1) ∧
    ∃ l, lexer.outcome.1 = .ok l ∧
      (l.run "@media \x7b page \x7b \x7d @page ; \x7d").complete.2.stackNames = ["root"] := by
  have hneed : ∀ item ∈ [mediaItem], item.need ≤ Stack.maxDepth - 1 := by decide +kernel
  obtain ⟨l, hl, hall⟩ := blocks_nest
  exact ⟨hneed, l, hl, (hall [mediaItem] hneed).1⟩

end RuleLexer.Language.Css
