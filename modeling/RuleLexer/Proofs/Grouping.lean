import RuleLexer.Proofs.Embedding

/-! The groups of a pattern while it is read. A step of the reader adds a part, opens or closes a
group, begins a branch or repeats the last part, and of the groups it opens one at most. So the
groups that are seen are numbered one after the other, in the order of their opening parentheses,
and the names are those of the groups. -/
namespace RuleLexer.Regex

inductive Parser.Moves (p : Parser) : Parser → Prop
  | add {a : Ast} (none : a.groups = []) (depth : Nat) (rest : List Char) :
      Moves p { p with rest, items := ⟨.tree a, depth⟩ :: p.items }
  | direct (flags : Flags) (rest : List Char) :
      Moves p { p with rest, flags, items := .flat .directive :: p.items }
  | scope (flags : Flags) (rest : List Char) : Moves p (openGroup p .scope flags rest)
  | capture (rest : List Char) :
      Moves p (openGroup { p with groups := p.groups + 1 } (.capture (p.groups + 1) none) p.flags
        rest)
  | named {name : List Char} (fresh : name ∉ p.names) (rest : List Char) :
      Moves p (openGroup { p with groups := p.groups + 1, names := name :: p.names }
        (.capture (p.groups + 1) (some name)) p.flags rest)
  | close {tree : Nested Ast} {outer : List (Nested Item)} {flags : Flags} {kind : GroupKind}
      {frames : List Frame}
      (closed : closeBranches p.items p.frames = (tree, .group outer flags kind :: frames))
      (rest : List Char) :
      Moves p { p with
        rest, flags, frames, items := ⟨.tree (kind.wrap tree.value), tree.depth + 1⟩ :: outer }
  | branch (rest : List Char) : Moves p (addBranch p rest)
  | again {a : Ast} {depth : Nat} {items : List (Nested Item)}
      (last : p.items = ⟨.tree a, depth⟩ :: items) (low : Nat) (high : Option Nat) (greedy : Bool)
      (rest : List Char) :
      Moves p { p with rest, items := ⟨.tree (.repeated low high greedy a), depth + 1⟩ :: items }

section moves
variable {p q : Parser} {rest : List Char}

theorem openNamed_moves {text : List Char} (h : openNamed p text = .ok q) : p.Moves q := by
  obtain ⟨after, -, hname⟩ := openNamed_ok_iff.1 h
  obtain ⟨-, hfresh, rfl⟩ := openName_ok_iff.1 hname
  exact .named hfresh after

theorem flagged_moves {letters text : List Char} (h : flagged p letters text = .ok q) :
    p.Moves q ∧ q.names = p.names := by
  unfold flagged at h
  split at h
  · split at h <;> cases h
    exact ⟨.direct _ _, rfl⟩
  · cases h
    exact ⟨.scope _ _, rfl⟩

theorem repeatLast_moves {low : Nat} {high : Option Nat} {lazyMark : Bool}
    (h : repeatLast p low high lazyMark rest = .ok q) : p.Moves q ∧ q.names = p.names := by
  unfold repeatLast at h
  split at h
  · next hitems =>
    cases h
    exact ⟨.again hitems _ _ _ _, rfl⟩
  · cases h

theorem repeatMark_moves {low : Nat} {high : Option Nat}
    (h : repeatMark p low high rest = .ok q) : p.Moves q ∧ q.names = p.names := by
  unfold repeatMark at h
  split at h <;> exact repeatLast_moves h

theorem closeGroup_moves (h : closeGroup p rest = .ok q) : p.Moves q ∧ q.names = p.names := by
  unfold closeGroup at h
  split at h
  · next hclosed =>
    cases h
    exact ⟨.close hclosed rest, rfl⟩
  · cases h

theorem addTree_moves {a : Ast} (ha : a.groups = []) (rest : List Char) :
    p.Moves (addTree p a rest) ∧ (addTree p a rest).names = p.names := ⟨.add ha 0 rest, rfl⟩

theorem literal_moves {d : Char} {byte : Bool}
    (h : (do .ok (addTree p (.set (← literalSet p.flags d byte)) rest)) = Except.ok q) :
    p.Moves q ∧ q.names = p.names := by
  obtain ⟨set, -, h⟩ := bind_ok.1 h
  cases h
  exact addTree_moves rfl rest

variable (hblanks : p.flags.verbose = false)
include hblanks

theorem readGroup_moves {text : List Char} (h : readGroup p text = .ok q) : p.Moves q := by
  cases groupText text with
  | plain hhead =>
    rw [readGroup_capture hblanks hhead] at h
    cases h
    exact .capture text
  | ahead hd rest =>
    rw [(readGroup_look hblanks hd _).1] at h
    cases h
  | back hd rest =>
    rw [(readGroup_look hblanks hd _).2] at h
    cases h
  | angle hequal hnot =>
    rw [readGroup_angle hblanks hequal hnot] at h
    exact openNamed_moves h
  | named rest =>
    rw [readGroup_named hblanks] at h
    exact openNamed_moves h
  | flags hequal hnot hangle hname =>
    rw [readGroup_flags hblanks hequal hnot hangle hname] at h
    split at h
    · exact (flagged_moves h).1
    · cases h

theorem step_moves {d : Char} (h : step p (d :: rest) = .ok q) :
    p.Moves q ∧ (d ≠ '(' → q.names = p.names) := by
  by_cases hd : d ∈ special
  case neg =>
    rw [step_other hd] at h
    obtain ⟨hmoves, hnames⟩ := literal_moves h
    exact ⟨hmoves, fun _ => hnames⟩
  have hkeeps (hboth : p.Moves q ∧ q.names = p.names) :
      p.Moves q ∧ (d ≠ '(' → q.names = p.names) := ⟨hboth.1, fun _ => hboth.2⟩
  simp only [special, List.mem_cons, List.not_mem_nil, or_false] at hd
  rcases hd with rfl | rfl | rfl | rfl | rfl | rfl | rfl | rfl | rfl | rfl | rfl | rfl
  · exact ⟨readGroup_moves hblanks h, fun hne => absurd rfl hne⟩
  · exact hkeeps (closeGroup_moves h)
  · cases h
    exact hkeeps ⟨.branch rest, by rw [addBranch_eq]⟩
  · obtain ⟨x, -, h⟩ := bind_ok.1 (show readClass p.flags rest >>= _ = _ from h)
    cases h
    exact hkeeps ⟨.add rfl x.1.depth x.2, rfl⟩
  · exact hkeeps (repeatMark_moves h)
  · exact hkeeps (repeatMark_moves h)
  · exact hkeeps (repeatMark_moves h)
  · obtain ⟨x, -, h⟩ := bind_ok.1 (show readBounds p.flags.verbose rest >>= _ = _ from h)
    exact hkeeps (repeatLast_moves h)
  · obtain ⟨set, -, h⟩ := bind_ok.1 (show dotSet p.flags >>= _ = _ from h)
    cases h
    exact hkeeps (addTree_moves rfl rest)
  · cases h
    exact hkeeps (addTree_moves rfl rest)
  · cases h
    exact hkeeps (addTree_moves rfl rest)
  · obtain ⟨⟨part, rest'⟩, -, h⟩ := bind_ok.1 (show readEscape p.flags rest >>= _ = _ from h)
    cases part with
    | literal d byte => exact hkeeps (literal_moves h)
    | set | look =>
      cases h
      exact hkeeps (addTree_moves rfl rest')

end moves

/-! The groups that are seen -/

abbrev Group := Nat × Option (List Char)

def Item.groups : Item → List Group
  | .directive => []
  | .tree a => a.groups

def groupsOfItems (items : List (Nested Item)) : List Group :=
  items.reverse.flatMap (·.value.groups)

def groupsOfBranches (before : List (Nested Ast)) : List Group :=
  before.reverse.flatMap (·.value.groups)

def GroupKind.groups : GroupKind → List Group
  | .scope => []
  | .capture index name => [(index, name)]

def Frame.groups : Frame → List Group
  | .group outer _ kind => groupsOfItems outer ++ kind.groups
  | .branches before => groupsOfBranches before

/-- The groups whose opening parentheses are read, in their order. -/
def Parser.seen (p : Parser) : List Group :=
  p.frames.reverse.flatMap Frame.groups ++ groupsOfItems p.items

theorem groups_seqs (parts : List Ast) : (Ast.seqs parts).groups = parts.flatMap Ast.groups := by
  induction parts with
  | nil => rfl
  | cons a rest ih =>
    cases rest with
    | nil => simp [Ast.seqs]
    | cons b rest =>
      show a.groups ++ (Ast.seqs (b :: rest)).groups = _
      rw [ih]
      rfl

theorem groups_alts (branches : List Ast) :
    (Ast.alts branches).groups = branches.flatMap Ast.groups := by
  induction branches with
  | nil => rfl
  | cons a rest ih =>
    cases rest with
    | nil => simp [Ast.alts]
    | cons b rest =>
      show a.groups ++ (Ast.alts (b :: rest)).groups = _
      rw [ih]
      rfl

theorem groups_sequence (items : List (Nested Item)) :
    (sequence items).value.groups = groupsOfItems items := by
  rw [value_sequence, groups_seqs, groupsOfItems, ← List.map_reverse]
  induction items.reverse with
  | nil => rfl
  | cons item rest ih =>
    obtain ⟨value, depth⟩ := item
    cases value with
    | directive => simpa [Item.groups] using ih
    | tree a => simpa [Item.groups] using ih

@[simp] theorem groupsOfItems_nil : groupsOfItems [] = [] := rfl

@[simp] theorem groupsOfItems_cons (item : Nested Item) (items : List (Nested Item)) :
    groupsOfItems (item :: items) = groupsOfItems items ++ item.value.groups := by
  simp [groupsOfItems]

@[simp] theorem groupsOfBranches_cons (branch : Nested Ast) (before : List (Nested Ast)) :
    groupsOfBranches (branch :: before) = groupsOfBranches before ++ branch.value.groups := by
  simp [groupsOfBranches]

theorem groups_opened (frames : List Frame) :
    (opened frames).2.reverse.flatMap Frame.groups ++ groupsOfBranches (opened frames).1 =
      frames.reverse.flatMap Frame.groups := by
  cases frames with
  | nil => rfl
  | cons frame frames => cases frame <;> simp [opened, Frame.groups, groupsOfBranches]

theorem groups_closeBranches (items : List (Nested Item)) (frames : List Frame) :
    (closeBranches items frames).2.reverse.flatMap Frame.groups ++
        (closeBranches items frames).1.value.groups =
      frames.reverse.flatMap Frame.groups ++ groupsOfItems items := by
  rw [closeBranches_eq, ← groups_opened frames, ← groups_sequence]
  simp only [Nested.value_gather, groups_alts, List.append_assoc]
  rw [← List.map_reverse, List.flatMap_map]
  simp [groupsOfBranches]

theorem GroupKind.groups_wrap (kind : GroupKind) (a : Ast) :
    (kind.wrap a).groups = kind.groups ++ a.groups := by
  cases kind <;> rfl

/-- Groups numbered one after the other from `p` on to `q`, with the names that are new in `q`. -/
structure Parser.Opens (p q : Parser) (new : List Group) : Prop where
  seen : q.seen = p.seen ++ new
  numbers : new.map Prod.fst = List.range' (p.groups + 1) new.length
  groups : q.groups = p.groups + new.length
  names : q.names = (new.filterMap Prod.snd).reverse ++ p.names

namespace Parser
variable {p q r : Parser} {new new' : List Group}

theorem Opens.refl (p : Parser) : p.Opens p [] := ⟨by simp, rfl, rfl, rfl⟩

theorem Opens.trans (h : p.Opens q new) (h' : q.Opens r new') : p.Opens r (new ++ new') where
  seen := by rw [h'.seen, h.seen, List.append_assoc]
  numbers := by
    rw [List.map_append, h.numbers, h'.numbers, h.groups, List.length_append, Nat.add_right_comm,
      ← List.range'_append_1]
  groups := by rw [h'.groups, h.groups, List.length_append, Nat.add_assoc]
  names := by
    rw [h'.names, h.names, List.filterMap_append, List.reverse_append, List.append_assoc]

theorem seen_openGroup (p : Parser) (kind : GroupKind) (flags : Flags) (rest : List Char) :
    (openGroup p kind flags rest).seen = p.seen ++ kind.groups := by
  simp [seen, openGroup, Frame.groups]

theorem Moves.opens (h : p.Moves q) : ∃ new, p.Opens q new := by
  have hseen {q : Parser} (hseen : q.seen = p.seen) (hgroups : q.groups = p.groups)
      (hnames : q.names = p.names) : ∃ new, p.Opens q new :=
    ⟨[], by simp [hseen], rfl, hgroups, hnames⟩
  cases h with
  | add hnone depth rest => exact hseen (by simp [seen, Item.groups, hnone]) rfl rfl
  | direct flags rest =>
    exact hseen (by simp [seen, Nested.flat, Item.groups]) rfl rfl
  | scope flags rest => exact hseen (by simp [seen_openGroup, GroupKind.groups]) rfl rfl
  | capture rest => exact ⟨[(p.groups + 1, none)], seen_openGroup _ _ _ _, rfl, rfl, rfl⟩
  | @named name hfresh rest =>
    exact ⟨[(p.groups + 1, some name)], seen_openGroup _ _ _ _, rfl, rfl, rfl⟩
  | @close tree outer flags kind frames hclosed rest =>
    refine hseen ?_ rfl rfl
    have hgroups := groups_closeBranches p.items p.frames
    rw [hclosed] at hgroups
    rw [seen, seen, groupsOfItems_cons, ← hgroups]
    simp [Frame.groups, Item.groups, GroupKind.groups_wrap]
  | branch rest =>
    rw [addBranch_eq]
    refine hseen ?_ rfl rfl
    rw [seen, seen, ← groups_opened p.frames]
    simp [Frame.groups, groups_sequence]
  | again hlast low high greedy rest =>
    refine hseen ?_ rfl rfl
    simp [seen, hlast, Item.groups, Ast.groups]

end Parser

end RuleLexer.Regex
