import RuleLexer.Pattern
import RuleLexer.Proofs.Wrapping

/-! The parts of a pattern and the whole of it. What each part comes to by itself, with the flags of
the whole and the groups before it counted, stands in the tree of the whole; and what a part does
not come to by itself, the whole does not come to either, but for the parentheses. -/
namespace RuleLexer.Regex

def Ast.names (a : Ast) : List (List Char) := a.groups.filterMap Prod.snd

namespace Parser
variable {p q r : Parser}

def start (flags : Flags) (groups : Nat) (text : List Char) : Parser :=
  ⟨text, flags, [], [], groups, []⟩

theorem Runs.trans (h : p.Runs q) (h' : q.Runs r) : p.Runs r := by
  induction h with
  | refl => exact h'
  | step hblanks hrest hstep _ ih => exact .step hblanks hrest hstep (ih h')

theorem Runs.ends {x : Reading Ast} (h : p.Runs q) (h' : q.Ends r x) : p.Ends r x := by
  induction h with
  | refl => exact h'
  | step hblanks hrest hstep _ ih => exact (ih h').of_step hblanks hrest hstep

theorem Ends.opens {flags : Flags} {groups : Nat} {text : List Char} {tree : Ast}
    (h : (start flags groups text).Ends q (.ok tree)) :
    tree.groups.map Prod.fst = List.range' (groups + 1) tree.groups.length ∧
      q.groups = groups + tree.groups.length ∧ q.names = tree.names.reverse := by
  obtain ⟨new, hnew⟩ := h.runs.opens
  have hseen : tree.groups = new := by
    generalize hx : Except.ok tree = x at h
    cases h with
    | refused => cases hx
    | done =>
      have hgroups := groups_closeBranches q.items q.frames
      unfold finish at hx
      split at hx
      · next t hclosed =>
        split at hx <;> cases hx
        rw [hclosed] at hgroups
        exact hgroups.trans hnew.seen
      · cases hx
  refine ⟨hseen ▸ hnew.numbers, hseen ▸ hnew.groups, ?_⟩
  rw [hnew.names, Ast.names, hseen]
  exact List.append_nil _

theorem Ends.number {flags : Flags} {groups : Nat} {text : List Char} {tree : Ast}
    (h : (start flags groups text).Ends q (.ok tree)) {g : Group} (hg : g ∈ tree.groups) :
    groups < g.1 ∧ g.1 ≤ groups + tree.groups.length := by
  have hmem := List.mem_map_of_mem (f := Prod.fst) hg
  rw [h.opens.1, List.mem_range'_1] at hmem
  omega

theorem Runs.parse_eq {text : List Char} (h : (start {} 0 text).Runs q) :
    ∃ fuel, q.rest.length < fuel ∧ parse text = loop fuel q := h.loop_eq (Nat.lt_succ_self _)

theorem Ends.parse_eq {text : List Char} {x : Reading Ast} (h : (start {} 0 text).Ends q x) :
    parse text = x := h.loop_eq (Nat.lt_succ_self _)

/-! Parts in their groups -/

/-- Around a part stands its group, and in front of that what was read before. -/
def around (p : Parser) (kind : GroupKind) (tail : List Char) : Surroundings where
  behind := ')' :: tail
  frames := .group p.items p.flags kind :: p.frames
  names := p.names
  closing := fun _ hc => (Option.mem_some.1 hc).symm
  fresh := nofun

theorem within_around {flags : Flags} {same : Prop} (hflags : flags.Alike same p.flags)
    {groups : Nat} (hgroups : Same same groups p.groups) (kind : GroupKind)
    (text tail : List Char) : (start flags groups text).Within same (p.around kind tail)
      (openGroup p kind p.flags (text ++ ')' :: tail)) where
  rest := rfl
  flags := hflags
  items := .nil
  frames := ⟨[], .nil, rfl⟩
  groups := hgroups
  names := rfl

section parts
variable {text : List Char} {tree : Ast}

theorem Ends.closes (h : (start p.flags p.groups text).Ends q (.ok tree))
    (hclear : ∀ name ∈ tree.names, name ∉ p.names) (kind : GroupKind) (tail : List Char) :
    ∃ depth, (openGroup p kind p.flags (text ++ ')' :: tail)).Runs { p with
      rest := tail, items := ⟨.tree (kind.wrap tree), depth⟩ :: p.items,
      groups := p.groups + tree.groups.length, names := tree.names.reverse ++ p.names } := by
  obtain ⟨-, hgroups, hnames⟩ := h.opens
  have hwithin := within_around (.refl True p.flags) (fun _ => rfl) kind text tail
  obtain ⟨c, hruns, hc⟩ := h.runs.within hwithin fun name hname =>
    hclear name (by rwa [hnames, List.mem_reverse] at hname)
  generalize hx : Except.ok tree = x at h
  cases h with
  | refused => cases hx
  | done _ hblanks hrest =>
    obtain ⟨tree', depth, htree, hclose⟩ := closeGroup_within hc hx.symm rfl tail
    obtain rfl := htree trivial
    have hrest' : c.rest = ')' :: tail := by rw [hc.rest, hrest]; rfl
    have hstep : Regex.step c (')' :: tail) = .ok _ := hclose
    refine ⟨depth, hruns.trans (.step (hc.flags.verbose ▸ hblanks) hrest' ?_ (.refl _))⟩
    rw [hstep, ← hgroups, hc.groups trivial, ← hnames, hc.names]
    rfl

theorem Ends.clashes (h : (start p.flags p.groups text).Ends q (.ok tree)) {name : List Char}
    (hname : name ∈ tree.names) (hclash : name ∈ p.names) (kind : GroupKind) (tail : List Char) :
    ∃ d, (openGroup p kind p.flags (text ++ ')' :: tail)).Ends d (.error .duplicateGroupName) := by
  obtain ⟨-, -, hnames⟩ := h.opens
  have hwithin := within_around (.refl True p.flags) (fun _ => rfl) kind text tail
  exact h.runs.clash hwithin nofun (by rwa [hnames, List.mem_reverse]) hclash

end parts

/-! Parts by themselves -/

def readFrom (flags : Flags) (groups : Nat) (text : List Char) : Reading Ast :=
  loop (text.length + 1) (start flags groups text)

theorem Ends.readFrom_eq {flags : Flags} {groups : Nat} {text : List Char} {x : Reading Ast}
    (h : (start flags groups text).Ends q x) : readFrom flags groups text = x :=
  h.loop_eq (Nat.lt_succ_self _)

/-- In a text by itself blanks count from end to end. -/
def isPlain (text : List Char) : Bool := (start {} 0 text).plainly (text.length + 1)

variable {text : List Char} (hplain : isPlain text) {flags : Flags}
  (hunicode : flags.unicode = true) (hblanks : flags.verbose = false)

include hplain in
theorem exists_ends_start : ∃ q, (start {} 0 text).Ends q (parse text) := by
  obtain ⟨q, x, hends⟩ := exists_ends (Nat.lt_succ_self _) hplain
  rw [hends.parse_eq]
  exact ⟨q, hends⟩

include hplain hunicode hblanks in
theorem exists_ends_flags {tree : Ast} (h : parse text = .ok tree) (groups : Nat) :
    ∃ q tree', (start flags groups text).Ends q (.ok tree') ∧ tree'.names = tree.names := by
  obtain ⟨b, hends⟩ := exists_ends_start hplain
  rw [h] at hends
  have hwithin : (start {} 0 text).Within False alone (start flags groups text) :=
    ⟨(List.append_nil _).symm, ⟨hunicode.symm, hblanks.symm, nofun⟩, .nil, ⟨[], .nil, rfl⟩, nofun,
      rfl⟩
  obtain ⟨d, hruns, hd⟩ := hends.runs.within hwithin fun _ _ => List.not_mem_nil
  have hnames := hends.opens.2.2
  generalize hx : Except.ok tree = x at hends
  cases hends with
  | refused => cases hx
  | done _ hblanks' hrest =>
    have hrest' : d.rest = [] := by rw [hd.rest, hrest]; rfl
    obtain ⟨tree', hfinish⟩ : ∃ tree', finish d = .ok tree' := by
      obtain ⟨htree, inner, hinner, hclosed⟩ := closeBranches_within hd
      unfold finish at hx ⊢
      generalize closeBranches b.items b.frames = y at *
      generalize closeBranches d.items d.frames = z at *
      obtain ⟨t, frames⟩ := y
      obtain ⟨t', frames'⟩ := z
      dsimp only at htree hinner hclosed hx ⊢
      subst hclosed
      cases hinner with
      | cons => cases hx
      | nil =>
        dsimp only at hx ⊢
        split at hx
        · next hdepth => exact ⟨t'.value, if_pos (htree.1 ▸ hdepth)⟩
        · cases hx
    have hends' := Ends.done hruns (hd.flags.verbose ▸ hblanks') hrest'
    rw [hfinish] at hends'
    refine ⟨d, tree', hends', List.reverse_injective ?_⟩
    rw [← hnames, ← hends'.opens.2.2, hd.names]
    exact List.append_nil _

include hplain in
theorem loop_openGroup_ne {e : SyntaxError} (h : parse text = .error e) (he : e ≠ .unopenedGroup)
    (hunicode : p.flags.unicode = true) (hblanks : p.flags.verbose = false) (kind : GroupKind)
    {fuel : Nat} (hfuel : text.length + 1 < fuel) (tree : Ast) :
    loop fuel (openGroup p kind p.flags (text ++ [')'])) ≠ .ok tree := by
  obtain ⟨q, hends⟩ := exists_ends_start hplain
  rw [h] at hends
  have halike : Flags.Alike False {} p.flags := ⟨hunicode.symm, hblanks.symm, nofun⟩
  have hwithin : (start {} 0 text).Within False (p.around kind []) _ :=
    within_around halike nofun kind text []
  exact hends.spoils he hwithin rfl nofun nofun (by simpa [openGroup] using hfuel) tree

end Parser

end RuleLexer.Regex

/-! The whole -/

namespace RuleLexer
open Regex

def PatternFlags.read (flags : PatternFlags) : Flags :=
  { ignoreCase := flags.ignoreCase, multiLine := flags.multiLine, dotAll := flags.dotAll }

namespace Pattern
variable {flags : PatternFlags} {body : String}

def aheadName : List Char := aheadGroup.toList

def tailOf : Option String → List Char
  | none => []
  | some ahead => '(' :: '?' :: 'P' :: '<' :: (aheadName ++ '>' :: (ahead.toList ++ [')']))

theorem toList_fullSource (body : String) (ahead? : Option String) (flags : PatternFlags) :
    (fullSource body ahead? flags).toList =
      flags.header.toList ++ '(' :: '?' :: ':' :: (body.toList ++ ')' :: tailOf ahead?) := by
  cases ahead? <;> simp [fullSource, tailOf, aheadName]

/-- In front of the body the reader has the flags, and no more than a directive behind it. -/
def front (flags : PatternFlags) (items : List (Nested Item)) : Parser :=
  ⟨[], flags.read, items, [], 0, []⟩

/-- In front of what has to follow it has counted the groups of the body, and the one it is in. -/
def behindBody (flags : PatternFlags) (b : Ast) (items : List (Nested Item)) : Parser :=
  ⟨[], flags.read, items, [], b.groups.length + 1, aheadName :: b.names.reverse⟩

theorem exists_runs_header (flags : PatternFlags) (rest : List Char) :
    ∃ items, (∀ item ∈ items, item.value = Item.directive) ∧
      (Parser.start {} 0 (flags.header.toList ++ rest)).Runs { front flags items with rest } := by
  have hstep (letters : List Char) (hletters : letters ∈ [['i'], ['m'], ['s'], ['i', 'm'],
      ['i', 's'], ['m', 's'], ['i', 'm', 's']]) :
      (Parser.start {} 0 ('(' :: '?' :: (letters ++ ')' :: rest))).Runs
        ⟨rest, Flags.apply {} letters, [.flat .directive], [], 0, []⟩ := by
    simp only [List.mem_cons, List.not_mem_nil, or_false] at hletters
    rcases hletters with rfl | rfl | rfl | rfl | rfl | rfl | rfl <;>
      exact .step rfl rfl rfl (.refl _)
  obtain ⟨ignoreCase, multiLine, dotAll⟩ := flags
  cases ignoreCase <;> cases multiLine <;> cases dotAll
  · exact ⟨[], nofun, .refl _⟩
  · exact ⟨_, by simp [Nested.flat], hstep ['s'] (by simp)⟩
  · exact ⟨_, by simp [Nested.flat], hstep ['m'] (by simp)⟩
  · exact ⟨_, by simp [Nested.flat], hstep ['m', 's'] (by simp)⟩
  · exact ⟨_, by simp [Nested.flat], hstep ['i'] (by simp)⟩
  · exact ⟨_, by simp [Nested.flat], hstep ['i', 's'] (by simp)⟩
  · exact ⟨_, by simp [Nested.flat], hstep ['i', 'm'] (by simp)⟩
  · exact ⟨_, by simp [Nested.flat], hstep ['i', 'm', 's'] (by simp)⟩

theorem exists_runs_body (body : String) (ahead? : Option String) (flags : PatternFlags) :
    ∃ items, (∀ item ∈ items, item.value = Item.directive) ∧
      (Parser.start {} 0 (fullSource body ahead? flags).toList).Runs (openGroup (front flags items)
        .scope flags.read (body.toList ++ ')' :: tailOf ahead?)) := by
  rw [toList_fullSource]
  obtain ⟨items, hitems, hruns⟩ :=
    exists_runs_header flags ('(' :: '?' :: ':' :: (body.toList ++ ')' :: tailOf ahead?))
  exact ⟨items, hitems, hruns.trans (.step rfl rfl rfl (.refl _))⟩

theorem value_sequence_behind {items : List (Nested Item)}
    (hitems : ∀ item ∈ items, item.value = Item.directive) (later : List (Nested Item)) :
    (sequence (later ++ items)).value = (sequence later).value := by
  rw [value_sequence, value_sequence, List.map_append, List.reverse_append, List.filterMap_append,
    List.filterMap_eq_nil_iff.2, List.nil_append]
  intro item hitem
  obtain ⟨part, hpart, rfl⟩ := List.mem_map.1 (List.mem_reverse.1 hitem)
  rw [hitems part hpart]

theorem finish_flat {p : Parser} (hframes : p.frames = []) : finish p =
    if (sequence p.items).depth ≤ maxNesting then .ok (sequence p.items).value
    else .error .nestedTooDeeply := by
  rw [finish, closeBranches_eq, hframes]
  rfl

theorem step_ahead {p : Parser} (hblanks : p.flags.verbose = false) (rest : List Char) :
    Regex.step p ('(' :: '?' :: 'P' :: '<' :: (aheadName ++ '>' :: rest)) =
      if p.names.contains aheadName then .error .duplicateGroupName
      else .ok (openGroup { p with groups := p.groups + 1, names := aheadName :: p.names }
        (.capture (p.groups + 1) (some aheadName)) p.flags rest) := by
  have hstep (rest : List Char) : Regex.step p ('(' :: rest) = readGroup p rest := rfl
  have hname : openNamed p (aheadName ++ '>' :: rest) = openName p aheadName rest := by
    rw [openNamed_eq]
    rfl
  rw [hstep, readGroup_named hblanks, hname, openName, if_neg (by decide)]

def Clash (b a : Ast) : Prop := aheadName ∈ b.names ∨ ∃ name ∈ a.names, name ∈ aheadName :: b.names

section combining
variable {q : Parser} {b : Ast}
  (hbody : (Parser.start flags.read 0 body.toList).Ends q (.ok b))
include hbody

theorem exists_runs_closed (ahead? : Option String) :
    ∃ items depth, (∀ item ∈ items, item.value = Item.directive) ∧
      (Parser.start {} 0 (fullSource body ahead? flags).toList).Runs ⟨tailOf ahead?, flags.read,
        ⟨.tree (.scope b), depth⟩ :: items, [], b.groups.length, b.names.reverse⟩ := by
  obtain ⟨items, hitems, hopen⟩ := exists_runs_body body ahead? flags
  obtain ⟨depth, hclose⟩ := Parser.Ends.closes (p := front flags items) hbody
    (fun _ _ => List.not_mem_nil) .scope (tailOf ahead?)
  refine ⟨items, depth, hitems, ?_⟩
  have hruns := hopen.trans hclose
  simpa only [front, GroupKind.wrap, Nat.zero_add, List.append_nil] using hruns

/-- With nothing that has to follow, the whole is the body in its group. -/
theorem parse_body : parse (fullSource body none flags).toList = .ok (.scope b) ∨
    parse (fullSource body none flags).toList = .error .nestedTooDeeply := by
  obtain ⟨items, depth, hitems, hruns⟩ := exists_runs_closed hbody none
  have hends := hruns.ends (.done (.refl _) rfl rfl)
  rw [hends.parse_eq, finish_flat rfl]
  split
  · exact .inl (congrArg _ (value_sequence_behind hitems [_]))
  · exact .inr rfl

theorem exists_runs_ahead (hnew : aheadName ∉ b.names) (ahead : String) :
    ∃ items depth, (∀ item ∈ items, item.value = Item.directive) ∧
      (Parser.start {} 0 (fullSource body (some ahead) flags).toList).Runs (openGroup
        (behindBody flags b (⟨.tree (.scope b), depth⟩ :: items))
        (.capture (b.groups.length + 1) (some aheadName)) flags.read (ahead.toList ++ [')'])) := by
  obtain ⟨items, depth, hitems, hruns⟩ := exists_runs_closed hbody (some ahead)
  refine ⟨items, depth, hitems, hruns.trans (.step rfl rfl ?_ (.refl _))⟩
  rw [step_ahead rfl, if_neg (by simpa using hnew)]
  rfl

theorem parse_of_known (hknown : aheadName ∈ b.names) (ahead : String) :
    parse (fullSource body (some ahead) flags).toList = .error .duplicateGroupName := by
  obtain ⟨items, depth, -, hruns⟩ := exists_runs_closed hbody (some ahead)
  have hends := hruns.ends (.refused (.refl _) rfl rfl
    ((step_ahead rfl _).trans (if_pos (by simpa using hknown))))
  exact hends.parse_eq

/-- With something that has to follow, the whole is the body in its group with a named group
behind it, unless a name comes twice. -/
theorem parse_body_ahead {ahead : String} {a : Ast} {q' : Parser}
    (hahead : (Parser.start flags.read (b.groups.length + 1) ahead.toList).Ends q' (.ok a)) :
    Clash b a ∧ parse (fullSource body (some ahead) flags).toList = .error .duplicateGroupName ∨
      ¬Clash b a ∧ (parse (fullSource body (some ahead) flags).toList =
          .ok (.seq (.scope b) (.group (b.groups.length + 1) (some aheadName) a)) ∨
        parse (fullSource body (some ahead) flags).toList = .error .nestedTooDeeply) := by
  by_cases hknown : aheadName ∈ b.names
  · exact .inl ⟨.inl hknown, parse_of_known hbody hknown ahead⟩
  obtain ⟨items, depth, hitems, hruns⟩ := exists_runs_ahead hbody hknown ahead
  by_cases hclash : ∃ name ∈ a.names, name ∈ aheadName :: b.names
  · obtain ⟨name, hname, hold⟩ := hclash
    obtain ⟨d, hends⟩ := hahead.clashes (p := behindBody flags b _) hname
      (by simpa [behindBody] using hold) (.capture (b.groups.length + 1) (some aheadName)) []
    exact .inl ⟨.inr ⟨name, hname, hold⟩, (hruns.ends hends).parse_eq⟩
  · refine .inr ⟨not_or.2 ⟨hknown, hclash⟩, ?_⟩
    simp only [not_exists, not_and] at hclash
    obtain ⟨depth', hclose⟩ := hahead.closes (p := behindBody flags b _)
      (fun name hname => by simpa [behindBody] using hclash name hname)
      (.capture (b.groups.length + 1) (some aheadName)) []
    have hends := (hruns.trans hclose).ends (.done (.refl _) rfl rfl)
    rw [hends.parse_eq, finish_flat rfl]
    split
    · exact .inl (congrArg _ (value_sequence_behind hitems [_, _]))
    · exact .inr rfl

/-- What has to follow and is not well formed spoils the whole, unless what is wrong with it is a
parenthesis. -/
theorem parse_ne_of_ahead {ahead : String} (hplain : Parser.isPlain ahead.toList) {e : SyntaxError}
    (h : parse ahead.toList = .error e) (he : e ≠ .unopenedGroup) (tree : Ast) :
    parse (fullSource body (some ahead) flags).toList ≠ .ok tree := by
  by_cases hknown : aheadName ∈ b.names
  · rw [parse_of_known hbody hknown]
    exact refused_ne_found _ _
  obtain ⟨items, depth, -, hruns⟩ := exists_runs_ahead hbody hknown ahead
  obtain ⟨fuel, hfuel, hloop⟩ := hruns.parse_eq
  rw [hloop]
  exact Parser.loop_openGroup_ne hplain h he rfl rfl _ (by simpa [openGroup] using hfuel) tree

end combining

theorem parse_ne_of_body (hplain : Parser.isPlain body.toList) {e : SyntaxError}
    (h : parse body.toList = .error e) (he : e ≠ .unopenedGroup) (tree : Ast) :
    parse (fullSource body none flags).toList ≠ .ok tree := by
  obtain ⟨items, -, hruns⟩ := exists_runs_body body none flags
  obtain ⟨fuel, hfuel, hloop⟩ := hruns.parse_eq
  rw [hloop]
  exact Parser.loop_openGroup_ne hplain h he rfl rfl .scope
    (by simpa [openGroup, tailOf] using hfuel) tree

/-! Compiling -/

def ofTree (body : String) (ahead? : Option String) (tree : Ast) : Pattern :=
  ⟨body, ahead?, ⟨(tree.simplify.build 1).1, tree.simplify.groups⟩,
    tree.simplify.groups.length - (if ahead?.isSome then 1 else 0)⟩

def ofFitting (body : String) (ahead? : Option String) (tree : Ast) :
    Except SyntaxError Pattern :=
  if tree.simplify.fits then .ok (ofTree body ahead? tree) else .error .tooLarge

theorem compile_eq (body : String) (ahead? : Option String) (flags : PatternFlags) :
    compile body ahead? flags =
      parse (fullSource body ahead? flags).toList >>= ofFitting body ahead? := by
  unfold compile Regex.compile
  cases parse (fullSource body ahead? flags).toList with
  | error => rfl
  | ok tree =>
    change (if tree.simplify.fits then _ else _) >>= _ = ofFitting body ahead? tree
    unfold ofFitting
    split <;> rfl

theorem eq_tooLarge {ahead? : Option String} {tree : Ast} {e : SyntaxError}
    (h : ofFitting body ahead? tree = .error e) : e = .tooLarge := by
  unfold ofFitting at h
  split at h <;> cases h
  rfl

theorem eq_ofTree {ahead? : Option String} {p : Pattern} (h : compile body ahead? flags = .ok p) :
    ∃ tree, parse (fullSource body ahead? flags).toList = .ok tree ∧
      p = ofTree body ahead? tree := by
  rw [compile_eq] at h
  cases hparse : parse (fullSource body ahead? flags).toList with
  | ok tree =>
    rw [hparse] at h
    change ofFitting body ahead? tree = .ok p at h
    unfold ofFitting at h
    split at h <;> cases h
    exact ⟨tree, rfl, rfl⟩
  | error =>
    rw [hparse] at h
    cases h

/-- A text that is a pattern by itself. -/
def WellFormed (text : String) : Prop := ∃ tree, parse text.toList = .ok tree

instance (text : String) : Decidable (WellFormed text) :=
  match h : parse text.toList with
  | .ok tree => isTrue ⟨tree, h⟩
  | .error _ => isFalse fun ⟨_, htree⟩ => nomatch h.symm.trans htree

theorem exists_ends_read {text : List Char} (hplain : Parser.isPlain text) {tree : Ast}
    (h : parse text = .ok tree) (flags : PatternFlags) (groups : Nat) :
    ∃ q tree', (Parser.start flags.read groups text).Ends q (.ok tree') ∧
      tree'.names = tree.names := Parser.exists_ends_flags hplain rfl rfl h groups

/-- Parts in which blanks count are taken apart as they are put together. From well-formed parts a
pattern is made, unless a name comes twice, it nests too deeply or takes too much room. And the
pattern that is made has well-formed parts, but for a parenthesis too many: that closes the group
around its part. A body that is not well formed may do more in front of what has to follow, so there
the body has to be well formed. -/
theorem compile_takes_apart {ahead? : Option String} (hbody : Parser.isPlain body.toList)
    (hahead : ∀ ahead ∈ ahead?, Parser.isPlain ahead.toList) (flags : PatternFlags) :
    (WellFormed body → (∀ ahead ∈ ahead?, WellFormed ahead) →
      ∀ e, compile body ahead? flags = .error e →
        e = .nestedTooDeeply ∨ e = .tooLarge ∨ e = .duplicateGroupName ∧
          ∃ ahead ∈ ahead?, ∃ b a, parse body.toList = .ok b ∧ parse ahead.toList = .ok a ∧
            Clash b a) ∧
    (∀ p, compile body ahead? flags = .ok p →
      (ahead? = none → WellFormed body ∨ parse body.toList = .error .unopenedGroup) ∧
      (WellFormed body → ∀ ahead ∈ ahead?,
        WellFormed ahead ∨ parse ahead.toList = .error .unopenedGroup)) := by
  constructor
  · rintro ⟨b₀, hb₀⟩ hwell e he
    obtain ⟨q, b, hends, hnames⟩ := exists_ends_read hbody hb₀ flags 0
    rw [compile_eq] at he
    cases ahead? with
    | none =>
      rcases parse_body hends with hparse | hparse <;> rw [hparse] at he
      · exact .inr (.inl (eq_tooLarge he))
      · cases he
        exact .inl rfl
    | some ahead =>
      obtain ⟨a₀, ha₀⟩ := hwell ahead rfl
      obtain ⟨q', a, hends', hnames'⟩ := exists_ends_read (hahead ahead rfl) ha₀ flags
        (b.groups.length + 1)
      rcases parse_body_ahead hends hends' with ⟨hclash, hparse⟩ | ⟨-, hparse | hparse⟩ <;>
        rw [hparse] at he
      · cases he
        rw [Clash, hnames, hnames'] at hclash
        exact .inr (.inr ⟨rfl, ahead, rfl, b₀, a₀, hb₀, ha₀, hclash⟩)
      · exact .inr (.inl (eq_tooLarge he))
      · cases he
        exact .inl rfl
  · intro p hp
    obtain ⟨tree, htree, -⟩ := eq_ofTree hp
    constructor
    · rintro rfl
      cases hparse : parse body.toList with
      | ok b => exact .inl ⟨b, hparse⟩
      | error e =>
        refine .inr (congrArg _ ?_)
        by_contra hne
        exact parse_ne_of_body hbody hparse hne tree htree
    · rintro ⟨b₀, hb₀⟩ ahead rfl
      obtain ⟨q, b, hends, -⟩ := exists_ends_read hbody hb₀ flags 0
      cases hparse : parse ahead.toList with
      | ok a => exact .inl ⟨a, hparse⟩
      | error e =>
        refine .inr (congrArg _ ?_)
        by_contra hne
        exact parse_ne_of_ahead hends (hahead ahead rfl) hparse hne tree htree

/-- Parts that are well formed, and share a name. -/
theorem compile_takes_apart_named_twice :
    Parser.isPlain "(?P<x>a)".toList ∧ Parser.isPlain "(?P<x>b)".toList ∧
      ∃ b a, parse "(?P<x>a)".toList = .ok b ∧ parse "(?P<x>b)".toList = .ok a ∧ Clash b a := by
  have hbody : Parser.isPlain "(?P<x>a)".toList := by decide +kernel
  have hahead : Parser.isPlain "(?P<x>b)".toList := by decide +kernel
  have hrefused : compile "(?P<x>a)" (some "(?P<x>b)") {} = .error .duplicateGroupName := by rfl
  refine ⟨hbody, hahead, ?_⟩
  have hahead' : ∀ ahead ∈ some "(?P<x>b)", Parser.isPlain ahead.toList := by
    rintro _ ⟨⟩
    exact hahead
  have hmade : WellFormed "(?P<x>a)" := by decide +kernel
  have hfollows : ∀ ahead ∈ some "(?P<x>b)", WellFormed ahead := by
    rintro _ ⟨⟩
    decide +kernel
  obtain h | h | ⟨-, _, ⟨⟩, hclash⟩ :=
    (compile_takes_apart hbody hahead' {}).1 hmade hfollows _ hrefused
  · cases h
  · cases h
  · exact hclash

/-- A body that is not well formed is made a pattern: its first parenthesis closes the group around
it and its second one opens another. And one that is well formed is refused: its comment goes on
over the parenthesis that closes the group. -/
theorem group_around_body_leaks :
    ((compile "a)(b" none {}).toOption.isSome ∧ ¬WellFormed "a)(b") ∧
      WellFormed "(?x)a # b" ∧ compile "(?x)a # b" none {} = .error .unclosedGroup := by
  refine ⟨⟨by decide +kernel, by decide +kernel⟩, by decide +kernel, by rfl⟩

end Pattern

end RuleLexer
