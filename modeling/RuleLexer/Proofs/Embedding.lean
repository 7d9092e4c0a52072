import RuleLexer.Proofs.ClassReading
import RuleLexer.Proofs.WordPatterns

/-! A pattern inside another one. The reader of a pattern that stands between parentheses keeps to
the reader of the pattern by itself, step by step, up to the closing parenthesis: it has the frames
around the pattern below its own, and has counted the groups and names before it. -/
namespace RuleLexer.Regex

inductive Item.Alike (same : Prop) : Item → Item → Prop
  | directive : Alike same .directive .directive
  | tree {a b : Ast} (h : Same same a b) : Alike same (.tree a) (.tree b)

inductive Frame.Alike (same : Prop) : Frame → Frame → Prop
  | group {outer outer' : List (Nested Item)} {f g : Flags} {kind kind' : GroupKind}
      (houter : List.Forall₂ (Nested.Alike (Item.Alike same)) outer outer')
      (hflags : f.Alike same g) (hkind : Same same kind kind') :
      Alike same (.group outer f kind) (.group outer' g kind')
  | branches {before before' : List (Nested Ast)}
      (h : List.Forall₂ (Nested.Alike (Same same)) before before') :
      Alike same (.branches before) (.branches before')

theorem forall₂_item_refl (same : Prop) (items : List (Nested Item)) :
    List.Forall₂ (Nested.Alike (Item.Alike same)) items items :=
  List.forall₂_same.2 fun item _ => ⟨rfl, by
    cases item.value with
    | directive => exact .directive
    | tree a => exact .tree fun _ => rfl⟩

theorem Frame.Alike.refl (same : Prop) (frame : Frame) : frame.Alike same frame := by
  cases frame with
  | group outer flags kind =>
    exact .group (forall₂_item_refl same outer) (.refl same flags) fun _ => rfl
  | branches before => exact .branches (List.forall₂_same.2 fun _ _ => ⟨rfl, fun _ => rfl⟩)

/-- What surrounds a pattern: the frames below its own, the text behind it, and the names before
it. No alternation of its own is begun there. -/
structure Surroundings where
  behind : List Char
  frames : List Frame
  names : List (List Char)
  closing : Closing behind
  fresh : ∀ before, frames.head? ≠ some (.branches before)

/-- `c` reads in its surroundings what `a` reads by itself. -/
structure Parser.Within (same : Prop) (s : Surroundings) (a c : Parser) : Prop where
  rest : c.rest = a.rest ++ s.behind
  flags : a.flags.Alike same c.flags
  items : List.Forall₂ (Nested.Alike (Item.Alike same)) a.items c.items
  frames : ∃ inner, List.Forall₂ (Frame.Alike same) a.frames inner ∧ c.frames = inner ++ s.frames
  groups : Same same a.groups c.groups
  names : c.names = a.names ++ s.names

section machine
variable {same : Prop} {s : Surroundings} {a c : Parser}

theorem sequence_alike {items items' : List (Nested Item)}
    (h : List.Forall₂ (Nested.Alike (Item.Alike same)) items items') :
    (sequence items).Alike (Same same) (sequence items') := by
  refine .gather (fun values values' hvalues hsame => ?_) h
  have heq : values = values' := by
    induction hvalues with
    | nil => rfl
    | cons hvalue _ ih =>
      cases hvalue with
      | directive => rw [ih]
      | tree h => rw [h hsame, ih]
  rw [heq]

theorem opened_within (h : a.Within same s c) :
    List.Forall₂ (Nested.Alike (Same same)) (opened a.frames).1 (opened c.frames).1 ∧
      ∃ inner, List.Forall₂ (Frame.Alike same) (opened a.frames).2 inner ∧
        (opened c.frames).2 = inner ++ s.frames := by
  obtain ⟨inner, hinner, hframes⟩ := h.frames
  rw [hframes]
  generalize a.frames = frames at hinner
  cases hinner with
  | nil =>
    have hopened : opened s.frames = ([], s.frames) := by
      unfold opened
      split
      · next heq => exact absurd (congrArg List.head? heq) (s.fresh _)
      · rfl
    rw [List.nil_append, hopened]
    exact ⟨.nil, [], .nil, rfl⟩
  | cons hframe hrest =>
    cases hframe with
    | group houter hflags hkind => exact ⟨.nil, _, .cons (.group houter hflags hkind) hrest, rfl⟩
    | branches hbefore => exact ⟨hbefore, _, hrest, rfl⟩

theorem closeBranches_within (h : a.Within same s c) :
    (closeBranches a.items a.frames).1.Alike (Same same) (closeBranches c.items c.frames).1 ∧
      ∃ inner, List.Forall₂ (Frame.Alike same) (closeBranches a.items a.frames).2 inner ∧
        (closeBranches c.items c.frames).2 = inner ++ s.frames := by
  obtain ⟨hbefore, hframes⟩ := opened_within h
  rw [closeBranches_eq, closeBranches_eq]
  exact ⟨.gather (fun _ _ hvalues hsame => by rw [same_of_forall₂ hvalues hsame])
    (.cons (sequence_alike h.items) hbefore), hframes⟩

/-- The surroundings are still open, and there is nothing left that could close them. A parenthesis
that closes nothing by itself closes the surrounding group, so of that nothing is said. -/
def Parser.Spoiled (s : Surroundings) (e : SyntaxError) (q : Parser) : Prop :=
  e ≠ .unopenedGroup → s.behind = [')'] → q.rest ∈ spoiled ∧ ∃ inner, q.frames = inner ++ s.frames

/-- A text in its surroundings is read on, or lost, as the text by itself is. -/
abbrev CarriesParser (same : Prop) (s : Surroundings) (bound : Nat) :
    Reading Parser → Reading Parser → Prop :=
  Carries (fun q q' : Parser => q.Within same s q' ∧ q.rest.length ≤ bound) (Parser.Spoiled s)

theorem CarriesParser.weaken {bound bound' : Nat} {x y : Reading Parser}
    (h : CarriesParser same s bound x y) (hle : bound ≤ bound') : CarriesParser same s bound' x y :=
  h.mono (fun _ _ hq => ⟨hq.1, Nat.le_trans hq.2 hle⟩) fun _ _ hlost => hlost

theorem Parser.Within.surrounded (h : a.Within same s c) :
    ∃ inner, c.frames = inner ++ s.frames := by
  obtain ⟨inner, -, hframes⟩ := h.frames
  exact ⟨inner, hframes⟩

theorem openGroup_within (h : a.Within same s c) {kind kind' : GroupKind}
    (hkind : Same same kind kind') {f g : Flags} (hflags : f.Alike same g) (rest : List Char) :
    (openGroup a kind f rest).Within same s (openGroup c kind' g (rest ++ s.behind)) := by
  obtain ⟨inner, hinner, hframes⟩ := h.frames
  exact ⟨rfl, hflags, .nil, ⟨_, .cons (.group h.items h.flags hkind) hinner,
    congrArg (_ :: ·) hframes⟩, h.groups, h.names⟩

theorem Parser.Within.counted (h : a.Within same s c) (own : List (List Char)) :
    Parser.Within same s { a with groups := a.groups + 1, names := own ++ a.names }
      { c with groups := c.groups + 1, names := own ++ c.names } :=
  ⟨h.rest, h.flags, h.items, h.frames, fun hsame => congrArg (· + 1) (h.groups hsame),
    by rw [h.names, List.append_assoc]⟩

def openName (p : Parser) (name rest : List Char) : Reading Parser :=
  if !validName name then .error .groupName
  else if p.names.contains name then .error .duplicateGroupName
  else .ok (openGroup { p with groups := p.groups + 1, names := name :: p.names }
    (.capture (p.groups + 1) (some name)) p.flags rest)

theorem openNamed_eq (p : Parser) (text : List Char) : openNamed p text =
    behindMark '>' .groupName (openName p (text.takeWhile (· != '>')))
      (text.dropWhile (· != '>')) := by
  unfold openNamed
  cases text.dropWhile (· != '>') with
  | nil => rfl
  | cons c after =>
    by_cases hc : c = '>'
    · subst hc
      rfl
    · simp [behindMark, hc]

theorem openName_ok_iff {p q : Parser} {name rest : List Char} :
    openName p name rest = .ok q ↔ validName name ∧ name ∉ p.names ∧
      q = openGroup { p with groups := p.groups + 1, names := name :: p.names }
        (.capture (p.groups + 1) (some name)) p.flags rest := by
  unfold openName
  cases validName name <;> by_cases hknown : name ∈ p.names <;> simp [hknown, eq_comm]

theorem openNamed_ok_iff {p q : Parser} {text : List Char} : openNamed p text = .ok q ↔
    ∃ after, text.dropWhile (· != '>') = '>' :: after ∧
      openName p (text.takeWhile (· != '>')) after = .ok q := by
  rw [openNamed_eq]
  cases text.dropWhile (· != '>') with
  | nil => simp [behindMark]
  | cons c after => by_cases hc : c = '>' <;> simp [behindMark, hc]

theorem openNamed_append (h : a.Within same s c) {text : List Char} {q : Parser}
    (hopen : openNamed a text = .ok q) (hclear : ∀ name ∈ q.names, name ∉ s.names) :
    ∃ q', openNamed c (text ++ s.behind) = .ok q' ∧ q.Within same s q' ∧
      q.rest.length ≤ text.length := by
  obtain ⟨after, hafter, hname⟩ := openNamed_ok_iff.1 hopen
  obtain ⟨hvalid, hold, rfl⟩ := openName_ok_iff.1 hname
  obtain ⟨htake, hdrop⟩ := takeWhile_stopped hafter s.behind
  have hle := length_dropWhile_le (· != '>') text
  rw [hafter] at hle
  have hnew : text.takeWhile (· != '>') ∉ c.names := by
    rw [h.names, List.mem_append, not_or]
    exact ⟨hold, hclear _ List.mem_cons_self⟩
  refine ⟨_, openNamed_ok_iff.2 ⟨_, hdrop, openName_ok_iff.2 ⟨?_, ?_, rfl⟩⟩, ?_,
    Nat.le_of_succ_le hle⟩
  · rwa [htake]
  · rwa [htake]
  · rw [htake]
    exact openGroup_within (h.counted [_]) (fun hsame => by rw [h.groups hsame]) h.flags after

theorem openNamed_of_append (h : a.Within same s c) {text : List Char} {q' : Parser}
    (hopen : openNamed c (text ++ s.behind) = .ok q') (hbehind : s.behind = [')']) :
    ∃ q, openNamed a text = .ok q := by
  obtain ⟨after', hafter, hname⟩ := openNamed_ok_iff.1 hopen
  cases htext : text.dropWhile (· != '>') with
  | nil =>
    rw [(takeWhile_open htext s.behind).2, hbehind] at hafter
    cases hafter
  | cons d after =>
    obtain ⟨htake, hdrop⟩ := takeWhile_stopped htext s.behind
    rw [hdrop] at hafter
    obtain ⟨rfl, rfl⟩ := List.cons.inj hafter
    rw [htake] at hname
    obtain ⟨hvalid, hnew, -⟩ := openName_ok_iff.1 hname
    rw [h.names, List.mem_append, not_or] at hnew
    exact ⟨_, openNamed_ok_iff.2 ⟨after, htext, openName_ok_iff.2 ⟨hvalid, hnew.1, rfl⟩⟩⟩

theorem openNamed_carries (h : a.Within same s c) (text : List Char)
    (hclear : ∀ q, openNamed a text = .ok q → ∀ name ∈ q.names, name ∉ s.names) :
    CarriesParser same s text.length (openNamed a text) (openNamed c (text ++ s.behind)) := by
  cases hopen : openNamed a text with
  | ok q =>
    obtain ⟨q', hopen', hq⟩ := openNamed_append h hopen (hclear q hopen)
    rw [hopen']
    exact .ok hq
  | error e =>
    refine Carries.of_error fun q' hopen' _ hbehind => ?_
    obtain ⟨q, hfound⟩ := openNamed_of_append h hopen' hbehind
    cases hopen.symm.trans hfound

theorem readGroup_capture (hblanks : a.flags.verbose = false) {text : List Char}
    (h : text.head? ≠ some '?') : readGroup a text =
      .ok (openGroup { a with groups := a.groups + 1 } (.capture (a.groups + 1) none) a.flags
        text) := by
  simp only [readGroup, hblanks, skip_false]
  split
  case h_8 => rfl
  all_goals exact absurd rfl h

def isFlagEnd (c : Char) : Bool := c != ':' && c != ')'

def flagged (p : Parser) (letters : List Char) : List Char → Reading Parser
  | ')' :: rest =>
      if letters = [] then .error .nothingToRepeat
      else .ok
        { p with rest, flags := p.flags.apply letters, items := .flat .directive :: p.items }
  | rest => .ok (openGroup p .scope (p.flags.apply letters) (rest.drop 1))

def areFlags (letters : List Char) : Bool :=
  letters.all flagLetters.contains && decide letters.Nodup && letters.getLast? != some '-'

theorem readGroup_flags (hblanks : a.flags.verbose = false) {text : List Char}
    (hequal : ∀ rest, text ≠ '=' :: rest) (hnot : ∀ rest, text ≠ '!' :: rest)
    (hangle : ∀ rest, text ≠ '<' :: rest) (hname : ∀ rest, text ≠ 'P' :: '<' :: rest) :
    readGroup a ('?' :: text) =
      if areFlags (text.takeWhile isFlagEnd) && !(text.dropWhile isFlagEnd).isEmpty
      then flagged a (text.takeWhile isFlagEnd) (text.dropWhile isFlagEnd)
      else .error .flag := by
  simp only [readGroup, hblanks, skip_false]
  split
  case h_7 _ _ heq =>
    obtain rfl := (List.cons.inj heq).2
    simp only [readFlags]
    rw [show (fun c : Char => c != ':' && c != ')') = isFlagEnd from rfl]
    generalize text.takeWhile isFlagEnd = letters
    generalize text.dropWhile isFlagEnd = rest
    rw [areFlags]
    split
    · cases rest with
      | nil => cases letters <;> rfl
      | cons d rest =>
        by_cases hd : d = ')'
        · subst hd
          cases letters <;> rfl
        · have hflagged : flagged a letters (d :: rest) =
              .ok (openGroup a .scope (a.flags.apply letters) rest) := by
            simp [flagged, hd]
          rw [hflagged]
          simp [bind, Except.bind, hd]
    · rfl
  case h_1 _ _ heq => exact absurd (List.cons.inj heq).2 (hequal _)
  case h_2 _ _ heq => exact absurd (List.cons.inj heq).2 (hnot _)
  case h_3 _ _ heq | h_4 _ _ heq | h_6 _ _ _ _ heq =>
    exact absurd (List.cons.inj heq).2 (hangle _)
  case h_5 _ _ heq => exact absurd (List.cons.inj heq).2 (hname _)
  case h_8 hflags => exact (hflags _ rfl).elim

theorem readGroup_look (hblanks : a.flags.verbose = false) {d : Char} (hd : d = '=' ∨ d = '!')
    (text : List Char) : readGroup a ('?' :: d :: text) = .error .unsupportedLookaround ∧
      readGroup a ('?' :: '<' :: d :: text) = .error .unsupportedLookaround := by
  rcases hd with rfl | rfl <;> simp only [readGroup, hblanks, skip_false, and_self]

theorem readGroup_named (hblanks : a.flags.verbose = false) (text : List Char) :
    readGroup a ('?' :: 'P' :: '<' :: text) = openNamed a text := by
  simp only [readGroup, hblanks, skip_false]

theorem readGroup_angle (hblanks : a.flags.verbose = false) {text : List Char}
    (hequal : ∀ rest, text ≠ '=' :: rest) (hnot : ∀ rest, text ≠ '!' :: rest) :
    readGroup a ('?' :: '<' :: text) = openNamed a text := by
  simp only [readGroup, hblanks, skip_false]

theorem flagged_carries (h : a.Within same s c) (letters : List Char) (d : Char)
    (after : List Char) : CarriesParser same s after.length (flagged a letters (d :: after))
      (flagged c letters (d :: (after ++ s.behind))) := by
  by_cases hd : d = ')'
  · subst hd
    simp only [flagged]
    split
    · exact .refused _ _
    · exact .ok ⟨⟨rfl, h.flags.apply letters, .cons (.flat .directive) h.items, h.frames, h.groups,
        h.names⟩, Nat.le_refl _⟩
  · have hflagged (p : Parser) (after : List Char) : flagged p letters (d :: after) =
        .ok (openGroup p .scope (p.flags.apply letters) after) := by
      simp [flagged, hd]
    rw [hflagged, hflagged]
    exact .ok ⟨openGroup_within h (fun _ => rfl) (h.flags.apply letters) after, Nat.le_refl _⟩

/-- What can follow an opening parenthesis: a group without a name, a look around, a named group in
either notation, or flags. -/
inductive GroupText : List Char → Prop
  | plain {text : List Char} (h : text.head? ≠ some '?') : GroupText text
  | ahead {d : Char} (hd : d = '=' ∨ d = '!') (text : List Char) : GroupText ('?' :: d :: text)
  | back {d : Char} (hd : d = '=' ∨ d = '!') (text : List Char) :
      GroupText ('?' :: '<' :: d :: text)
  | angle {text : List Char} (hequal : ∀ rest, text ≠ '=' :: rest)
      (hnot : ∀ rest, text ≠ '!' :: rest) : GroupText ('?' :: '<' :: text)
  | named (text : List Char) : GroupText ('?' :: 'P' :: '<' :: text)
  | flags {text : List Char} (hequal : ∀ rest, text ≠ '=' :: rest)
      (hnot : ∀ rest, text ≠ '!' :: rest) (hangle : ∀ rest, text ≠ '<' :: rest)
      (hname : ∀ rest, text ≠ 'P' :: '<' :: rest) : GroupText ('?' :: text)

theorem groupText (text : List Char) : GroupText text := by
  by_cases hmark : ∃ rest, text = '?' :: rest
  case neg =>
    refine .plain fun hhead => ?_
    obtain ⟨rest, rfl⟩ := List.head?_eq_some_iff.1 hhead
    exact hmark ⟨rest, rfl⟩
  obtain ⟨text, rfl⟩ := hmark
  by_cases hlook : ∃ d rest, (d = '=' ∨ d = '!') ∧ (text = d :: rest ∨ text = '<' :: d :: rest)
  · obtain ⟨d, rest, hd, rfl | rfl⟩ := hlook
    · exact .ahead hd rest
    · exact .back hd rest
  simp only [not_exists, not_and] at hlook
  by_cases hangle : ∃ rest, text = '<' :: rest
  · obtain ⟨rest, rfl⟩ := hangle
    exact .angle (fun more heq => hlook '=' more (.inl rfl) (.inr (by rw [heq])))
      fun more heq => hlook '!' more (.inr rfl) (.inr (by rw [heq]))
  by_cases hname : ∃ rest, text = 'P' :: '<' :: rest
  · obtain ⟨rest, rfl⟩ := hname
    exact .named rest
  exact .flags (fun rest heq => hlook '=' rest (.inl rfl) (.inl heq))
    (fun rest heq => hlook '!' rest (.inr rfl) (.inl heq)) (not_exists.1 hangle)
    (not_exists.1 hname)

theorem flags_carries (h : a.Within same s c) (hblanks : a.flags.verbose = false)
    {text : List Char} (hequal : ∀ rest, text ≠ '=' :: rest) (hnot : ∀ rest, text ≠ '!' :: rest)
    (hangle : ∀ rest, text ≠ '<' :: rest) (hname : ∀ rest, text ≠ 'P' :: '<' :: rest) :
    CarriesParser same s text.length (readGroup a ('?' :: text))
      (readGroup c ('?' :: text ++ s.behind)) := by
  have hblanks' : c.flags.verbose = false := h.flags.verbose ▸ hblanks
  have hname' : ∀ rest, text ++ s.behind ≠ 'P' :: '<' :: rest := by
    intro rest heq
    obtain ⟨more, rfl, hmore⟩ := s.closing.starts (by decide) heq
    obtain ⟨more', rfl, -⟩ := s.closing.starts (by decide) hmore.symm
    exact hname more' rfl
  have hend := s.closing.fails (p := isFlagEnd) (by decide)
  have hle := length_dropWhile_le isFlagEnd text
  rw [readGroup_flags hblanks hequal hnot hangle hname, List.cons_append,
    readGroup_flags hblanks' (s.closing.not_starts (by decide) hequal)
      (s.closing.not_starts (by decide) hnot) (s.closing.not_starts (by decide) hangle) hname',
    takeWhile_closing hend, dropWhile_closing hend]
  generalize text.takeWhile isFlagEnd = letters
  cases hrest : text.dropWhile isFlagEnd with
  | nil =>
    rw [List.isEmpty_nil, Bool.not_true, Bool.and_false]
    refine Carries.of_error fun q hq _ hmore => ?_
    rw [hmore] at hq
    split at hq
    · simp only [List.nil_append, flagged] at hq
      split at hq <;> cases hq
      exact ⟨List.mem_cons_self, h.surrounded⟩
    · cases hq
  | cons e after =>
    rw [hrest] at hle
    simp only [List.cons_append, List.isEmpty_cons, Bool.not_false, Bool.and_true]
    split
    · exact (flagged_carries h letters e after).weaken (by
        simp only [List.length_cons] at hle ⊢; omega)
    · exact .refused _ _

theorem readGroup_carries (h : a.Within same s c) (hblanks : a.flags.verbose = false)
    (text : List Char)
    (hclear : ∀ q, readGroup a text = .ok q → ∀ name ∈ q.names, name ∉ s.names) :
    CarriesParser same s text.length (readGroup a text) (readGroup c (text ++ s.behind)) := by
  have hblanks' : c.flags.verbose = false := h.flags.verbose ▸ hblanks
  cases groupText text with
  | plain hhead =>
    rw [readGroup_capture hblanks hhead,
      readGroup_capture hblanks' (s.closing.head?_ne (by decide) hhead)]
    refine .ok ⟨openGroup_within (h.counted []) (fun hsame => ?_) h.flags text, Nat.le_refl _⟩
    rw [h.groups hsame]
  | ahead hd rest =>
    rw [(readGroup_look hblanks hd _).1, List.cons_append, List.cons_append,
      (readGroup_look hblanks' hd _).1]
    exact .refused _ _
  | back hd rest =>
    rw [(readGroup_look hblanks hd _).2, List.cons_append, List.cons_append, List.cons_append,
      (readGroup_look hblanks' hd _).2]
    exact .refused _ _
  | @angle rest hequal hnot =>
    rw [readGroup_angle hblanks hequal hnot] at hclear ⊢
    rw [List.cons_append, List.cons_append, readGroup_angle hblanks'
      (s.closing.not_starts (by decide) hequal) (s.closing.not_starts (by decide) hnot)]
    exact (openNamed_carries h rest hclear).weaken (by simp only [List.length_cons]; omega)
  | named rest =>
    rw [readGroup_named hblanks] at hclear ⊢
    rw [List.cons_append, List.cons_append, List.cons_append, readGroup_named hblanks']
    exact (openNamed_carries h rest hclear).weaken (by simp only [List.length_cons]; omega)
  | @flags text hequal hnot hangle hname =>
    exact (flags_carries h hblanks hequal hnot hangle hname).weaken (Nat.le_succ _)

theorem closeGroup_carries (h : a.Within same s c) (rest : List Char) :
    CarriesParser same s rest.length (closeGroup a rest) (closeGroup c (rest ++ s.behind)) := by
  obtain ⟨htree, inner, hinner, hframes⟩ := closeBranches_within h
  unfold closeGroup
  generalize closeBranches a.items a.frames = x at *
  generalize closeBranches c.items c.frames = y at *
  obtain ⟨tree, frames⟩ := x
  obtain ⟨tree', frames'⟩ := y
  dsimp only at hinner hframes htree
  subst hframes
  cases hinner with
  | nil => exact .of_error fun q hq hnot => absurd rfl hnot
  | cons hframe hrest =>
    cases hframe with
    | branches hbefore => exact .of_error fun q hq hnot => absurd rfl hnot
    | group houter hflags hkind =>
      refine .ok ⟨⟨rfl, hflags, .cons ⟨congrArg (· + 1) htree.1, .tree fun hsame => ?_⟩ houter,
        ⟨_, hrest, rfl⟩, h.groups, h.names⟩, Nat.le_refl _⟩
      rw [hkind hsame, htree.2 hsame]

theorem addBranch_eq (p : Parser) (rest : List Char) : addBranch p rest = { p with
    rest, items := [],
    frames := .branches (sequence p.items :: (opened p.frames).1) :: (opened p.frames).2 } :=
  Except.ok.inj (step_bar p rest)

theorem addBranch_within (h : a.Within same s c) (rest : List Char) :
    (addBranch a rest).Within same s (addBranch c (rest ++ s.behind)) := by
  obtain ⟨hbefore, inner, hinner, hframes⟩ := opened_within h
  rw [addBranch_eq, addBranch_eq, hframes]
  exact ⟨rfl, h.flags, .nil,
    ⟨_, .cons (.branches (.cons (sequence_alike h.items) hbefore)) hinner, rfl⟩, h.groups, h.names⟩

theorem repeatLast_carries (h : a.Within same s c) (low : Nat) (high : Option Nat)
    (lazyMark : Bool) (rest : List Char) :
    CarriesParser same s rest.length (repeatLast a low high lazyMark rest)
      (repeatLast c low high lazyMark (rest ++ s.behind)) := by
  have hitems := h.items
  unfold repeatLast
  generalize a.items = items at hitems
  generalize c.items = items' at hitems
  cases hitems with
  | nil => exact .refused _ _
  | @cons item item' _ _ hitem hrest =>
    obtain ⟨value, depth⟩ := item
    obtain ⟨value', depth'⟩ := item'
    obtain ⟨hdepth, hvalue⟩ := hitem
    cases hvalue with
    | directive => exact .refused _ _
    | tree htree =>
      refine .ok ⟨⟨rfl, h.flags, .cons ⟨congrArg (· + 1) hdepth, .tree fun hsame => ?_⟩ hrest,
        h.frames, h.groups, h.names⟩, Nat.le_refl _⟩
      rw [htree hsame, h.flags.eq hsame]

theorem repeatMark_carries (h : a.Within same s c) (low : Nat) (high : Option Nat)
    (rest : List Char) : CarriesParser same s rest.length (repeatMark a low high rest)
      (repeatMark c low high (rest ++ s.behind)) := by
  by_cases hlazy : ∃ more, rest = '?' :: more
  · obtain ⟨more, rfl⟩ := hlazy
    exact (repeatLast_carries h low high true more).weaken (Nat.le_succ _)
  · have hplain (p : Parser) {rest : List Char} (hne : ∀ more, rest ≠ '?' :: more) :
        repeatMark p low high rest = repeatLast p low high false rest := by
      unfold repeatMark
      split
      · exact absurd rfl (hne _)
      · rfl
    rw [not_exists] at hlazy
    rw [hplain a hlazy, hplain c (s.closing.not_starts (by decide) hlazy)]
    exact repeatLast_carries h low high false rest

section sets
variable {f g : Flags} (hflags : f.Alike same g) (Lost : SyntaxError → CharSet → Prop)
include hflags

theorem literalSet_carries (c : Char) (byte : Bool) :
    Carries (Same same) Lost (literalSet f c byte) (literalSet g c byte) := by
  have hok (f : Flags) : (∃ s, literalSet f c byte = .ok s) ↔
      f.unicode || !(byte && decide (128 ≤ c.toNat)) := by
    unfold literalSet
    cases f.unicode <;> cases byte && decide (128 ≤ c.toNat) <;> simp
    split <;> exact ⟨_, rfl⟩
  exact .of_same (fun hsame => by rw [hflags.eq hsame]) (by rw [hok, hok, hflags.unicode])

theorem dotSet_carries : Carries (Same same) Lost (dotSet f) (dotSet g) := by
  have hok (f : Flags) : (∃ s, dotSet f = .ok s) ↔ f.unicode := by
    unfold dotSet
    cases f.unicode <;> simp
    split
    · exact ⟨_, rfl⟩
    · split <;> exact ⟨_, rfl⟩
  exact .of_same (fun hsame => by rw [hflags.eq hsame]) (by rw [hok, hok, hflags.unicode])

end sets

theorem addTree_within (h : a.Within same s c) {tree tree' : Ast} (htree : Same same tree tree')
    (rest : List Char) :
    (addTree a tree rest).Within same s (addTree c tree' (rest ++ s.behind)) :=
  ⟨rfl, h.flags, .cons (.flat (.tree htree)) h.items, h.frames, h.groups, h.names⟩

section steps
variable (h : a.Within same s c) (rest : List Char)
include h

theorem step_dot_carries :
    CarriesParser same s rest.length (step a ('.' :: rest)) (step c ('.' :: (rest ++ s.behind))) :=
  (dotSet_carries h.flags fun _ _ => False).bind (fun _ _ hset => .ok
    ⟨addTree_within h (fun hsame => by rw [hset hsame]) rest, Nat.le_refl _⟩)
      fun _ _ hlost => hlost.elim

theorem literal_carries (d : Char) (byte : Bool) :
    CarriesParser same s rest.length
      (do .ok (addTree a (.set (← literalSet a.flags d byte)) rest))
      (do .ok (addTree c (.set (← literalSet c.flags d byte)) (rest ++ s.behind))) :=
  (literalSet_carries h.flags (fun _ _ => False) d byte).bind (fun _ _ hset => .ok
    ⟨addTree_within h (fun hsame => by rw [hset hsame]) rest, Nat.le_refl _⟩)
      fun _ _ hlost => hlost.elim

theorem look_carries {l m : Look} (hl : Same same l m) : CarriesParser same s rest.length
    (.ok (addTree a (.look l) rest)) (.ok (addTree c (.look m) (rest ++ s.behind))) :=
  .ok ⟨addTree_within h (fun hsame => by rw [hl hsame]) rest, Nat.le_refl _⟩

variable (hblanks : a.flags.verbose = false)
include hblanks

theorem step_class_carries :
    CarriesParser same s rest.length (step a ('[' :: rest))
      (step c ('[' :: (rest ++ s.behind))) := by
  simp only [step]
  refine (readClass_carries s.closing h.flags hblanks rest).bind (fun x y hxy => ?_)
    fun _ y hlost q hq _ hmore => ?_
  · obtain ⟨set, rest'⟩ := x
    obtain ⟨set', _⟩ := y
    obtain ⟨hset, rfl, hle⟩ := hxy
    exact .ok ⟨⟨rfl, h.flags, .cons ⟨hset.1, .tree fun hsame => congrArg _ (hset.2 hsame)⟩ h.items,
      h.frames, h.groups, h.names⟩, hle⟩
  · cases hq
    exact ⟨hlost hmore, h.surrounded⟩

theorem step_bounds_carries :
    CarriesParser same s rest.length (step a ('{' :: rest))
      (step c ('{' :: (rest ++ s.behind))) := by
  have hblanks' : c.flags.verbose = false := h.flags.verbose ▸ hblanks
  simp only [step, hblanks, hblanks', readBounds_closing s.closing]
  cases hbounds : readBounds false rest with
  | error e => exact .refused _ _
  | ok x =>
    exact (repeatLast_carries h x.1.low x.1.high x.1.lazyMark x.2).weaken
      (Nat.le_of_lt (length_readBounds_le hbounds))

theorem step_escape_carries : CarriesParser same s rest.length (step a ('\\' :: rest))
    (step c ('\\' :: (rest ++ s.behind))) := by
  simp only [step]
  refine (readEscape_carries s.closing h.flags hblanks rest).bind (fun x y hxy => ?_)
    fun _ y hlost q hq _ hmore => ?_
  · obtain ⟨part, rest'⟩ := x
    obtain ⟨part', _⟩ := y
    obtain ⟨hpart, rfl, hle⟩ := hxy
    dsimp only at hpart hle ⊢
    cases part <;> cases part' <;> first | exact hpart.elim | skip
    case literal.literal d byte d' byte' =>
      obtain ⟨rfl, rfl⟩ := hpart
      exact (literal_carries h rest' d byte).weaken hle
    case set.set =>
      exact .ok ⟨addTree_within h (fun hsame => by rw [hpart hsame]) rest', hle⟩
    case look.look =>
      exact (look_carries h rest' hpart).weaken hle
  · have hstate : q.rest = y.2 ∧ q.frames = c.frames := by
      obtain ⟨part', rest'⟩ := y
      dsimp only at hq ⊢
      cases part' with
      | literal d byte =>
        dsimp only at hq
        cases hset : literalSet c.flags d byte <;> rw [hset] at hq <;> cases hq
        exact ⟨rfl, rfl⟩
      | set | look =>
        cases hq
        exact ⟨rfl, rfl⟩
    rw [hstate.1, hstate.2]
    exact ⟨hlost hmore, h.surrounded⟩

end steps

def special : List Char := ['(', ')', '|', '[', '?', '*', '+', '\x7b', '.', '^', '$', '\\']

theorem step_other {d : Char} (hd : d ∉ special) (p : Parser) (rest : List Char) :
    step p (d :: rest) = (do .ok (addTree p (.set (← literalSet p.flags d false)) rest)) := by
  unfold step
  split
  case h_13 heq =>
    obtain ⟨rfl, rfl⟩ := List.cons.inj heq
    rfl
  case h_14 heq => cases heq
  all_goals
    rename_i heq
    obtain ⟨rfl, rfl⟩ := List.cons.inj heq
    exact absurd (by decide) hd

/-- One step of the reader, in its surroundings as by itself. -/
theorem step_carries (h : a.Within same s c) (hblanks : a.flags.verbose = false) (d : Char)
    (rest : List Char)
    (hclear : ∀ q, step a (d :: rest) = .ok q → ∀ name ∈ q.names, name ∉ s.names) :
    CarriesParser same s rest.length (step a (d :: rest)) (step c (d :: (rest ++ s.behind))) := by
  by_cases hd : d ∈ special
  case neg =>
    rw [step_other hd, step_other hd]
    exact literal_carries h rest d false
  simp only [special, List.mem_cons, List.not_mem_nil, or_false] at hd
  rcases hd with rfl | rfl | rfl | rfl | rfl | rfl | rfl | rfl | rfl | rfl | rfl | rfl
  · exact readGroup_carries h hblanks rest hclear
  · exact closeGroup_carries h rest
  · refine .ok ⟨addBranch_within h rest, ?_⟩
    rw [addBranch_eq]
  · exact step_class_carries h rest hblanks
  · exact repeatMark_carries h _ _ rest
  · exact repeatMark_carries h _ _ rest
  · exact repeatMark_carries h _ _ rest
  · exact step_bounds_carries h rest hblanks
  · exact step_dot_carries h rest
  · exact look_carries h rest fun hsame => by rw [h.flags.eq hsame]
  · exact look_carries h rest fun hsame => by rw [h.flags.eq hsame]
  · exact step_escape_carries h rest hblanks

end machine

end RuleLexer.Regex
