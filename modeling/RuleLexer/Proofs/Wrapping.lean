import RuleLexer.Proofs.Grouping

/-! Patterns that are put together. The body of a pattern stands in a group without a number, what
has to follow in a named one behind it. Read by itself, a text that ends well is read alike in its
group; so the tree of the whole is put together from the trees of its parts. A text that ends
badly spoils the whole, unless it is a closing parenthesis too many: then the group ends there. -/
namespace RuleLexer.Regex

/-! Depth -/

theorem le_foldl_max (depths : List Nat) (start : Nat) :
    start ≤ depths.foldl max start ∧ ∀ n ∈ depths, n ≤ depths.foldl max start := by
  induction depths generalizing start with
  | nil => simp
  | cons m depths ih =>
    obtain ⟨hstart, hall⟩ := ih (max start m)
    refine ⟨Nat.le_trans (Nat.le_max_left _ _) hstart, List.forall_mem_cons.2 ⟨?_, hall⟩⟩
    exact Nat.le_trans (Nat.le_max_right _ _) hstart

theorem Nested.depth_le_gather {α β : Type} (f : List α → β) {part : Nested α}
    {parts : List (Nested α)} (h : part ∈ parts) : part.depth ≤ (Nested.gather f parts).depth := by
  unfold Nested.gather
  split
  · rw [List.mem_singleton.1 h]
  · cases h
  · exact Nat.le_succ_of_le ((le_foldl_max _ 0).2 _ (List.mem_map_of_mem h))

theorem depth_le_closeBranches {items : List (Nested Item)} {item : Nested Item}
    (h : item ∈ items) (frames : List Frame) :
    item.depth ≤ (closeBranches items frames).1.depth := by
  rw [closeBranches_eq]
  exact Nat.le_trans (Nested.depth_le_gather _ h)
    (Nested.depth_le_gather _ List.mem_cons_self)

/-! Runs -/

namespace Parser

inductive Runs : Parser → Parser → Prop
  | refl (p : Parser) : Runs p p
  | step {p q r : Parser} {d : Char} {rest : List Char} (hblanks : p.flags.verbose = false)
      (hrest : p.rest = d :: rest) (h : Regex.step p (d :: rest) = .ok q) (later : Runs q r) :
      Runs p r

/-- Where a run ends: at the end of the text, or where a step fails. -/
inductive Ends (p q : Parser) : Reading Ast → Prop
  | done (runs : p.Runs q) (hblanks : q.flags.verbose = false) (hrest : q.rest = []) :
      Ends p q (finish q)
  | refused (runs : p.Runs q) (hblanks : q.flags.verbose = false) {d : Char} {rest : List Char}
      (hrest : q.rest = d :: rest) {e : SyntaxError} (h : Regex.step q (d :: rest) = .error e) :
      Ends p q (.error e)

/-- Nowhere in a run do blanks cease to count. -/
def plainly : (fuel : Nat) → Parser → Bool
  | 0, p => !p.flags.verbose
  | fuel + 1, p => !p.flags.verbose && match p.rest with
      | [] => true
      | text => match Regex.step p text with
          | .ok q => plainly fuel q
          | .error _ => true

variable {p q r : Parser} {same : Prop} {s : Surroundings} {a b c : Parser}

theorem Ends.of_step {d : Char} {rest : List Char} {x : Reading Ast}
    (hblanks : p.flags.verbose = false) (hrest : p.rest = d :: rest)
    (hstep : Regex.step p (d :: rest) = .ok q) (h : q.Ends r x) : p.Ends r x := by
  cases h with
  | done hruns hdone hend => exact .done (.step hblanks hrest hstep hruns) hdone hend
  | refused hruns hdone hend herror =>
    exact .refused (.step hblanks hrest hstep hruns) hdone hend herror

theorem Ends.runs {x : Reading Ast} (h : p.Ends q x) : p.Runs q := by
  cases h with
  | done hruns => exact hruns
  | refused hruns => exact hruns

theorem Runs.opens (h : p.Runs q) : ∃ new, p.Opens q new := by
  induction h with
  | refl p => exact ⟨[], .refl p⟩
  | step hblanks hrest hstep _ ih =>
    obtain ⟨new, hnew⟩ := (step_moves hblanks hstep).1.opens
    obtain ⟨new', hnew'⟩ := ih
    exact ⟨new ++ new', hnew.trans hnew'⟩

theorem Runs.names_subset (h : p.Runs q) : p.names ⊆ q.names := by
  obtain ⟨new, hnew⟩ := h.opens
  rw [hnew.names]
  exact List.subset_append_right _ _

def alone : Surroundings := ⟨[], [], [], nofun, nofun⟩

theorem within_alone (p : Parser) : p.Within True alone p where
  rest := (List.append_nil _).symm
  flags := .refl True p.flags
  items := forall₂_item_refl True p.items
  frames := ⟨p.frames, List.forall₂_same.2 fun frame _ => .refl True frame,
    (List.append_nil _).symm⟩
  groups _ := rfl
  names := (List.append_nil _).symm

theorem length_step_le {d : Char} {rest : List Char} (hblanks : p.flags.verbose = false)
    (h : Regex.step p (d :: rest) = .ok q) : q.rest.length ≤ rest.length := by
  have hcarries := step_carries (within_alone p) hblanks d rest fun _ _ _ _ => List.not_mem_nil
  rw [h] at hcarries
  obtain ⟨_, -, -, hle⟩ := hcarries.of_ok
  exact hle

theorem loop_cons {d : Char} {rest : List Char} (hblanks : p.flags.verbose = false)
    (hrest : p.rest = d :: rest) (fuel : Nat) :
    loop (fuel + 1) p = Regex.step p (d :: rest) >>= loop fuel := by
  rw [loop, hblanks, hrest, skip_false]

theorem Runs.loop_eq (h : p.Runs q) {fuel : Nat} (hfuel : p.rest.length < fuel) :
    ∃ fuel', q.rest.length < fuel' ∧ loop fuel p = loop fuel' q := by
  induction h generalizing fuel with
  | refl p => exact ⟨fuel, hfuel, rfl⟩
  | @step p q r d rest hblanks hrest hstep _ ih =>
    obtain ⟨fuel, rfl⟩ := Nat.exists_eq_succ_of_ne_zero (Nat.ne_zero_of_lt hfuel)
    have hle := length_step_le hblanks hstep
    rw [hrest, List.length_cons] at hfuel
    obtain ⟨fuel', hfuel', hloop⟩ := ih (Nat.lt_of_le_of_lt hle (Nat.lt_of_succ_lt_succ hfuel))
    refine ⟨fuel', hfuel', ?_⟩
    rw [loop_cons hblanks hrest, hstep]
    exact hloop

theorem Ends.loop_eq {x : Reading Ast} (h : p.Ends q x) {fuel : Nat}
    (hfuel : p.rest.length < fuel) : loop fuel p = x := by
  cases h with
  | done hruns hblanks hrest =>
    obtain ⟨fuel', -, hloop⟩ := hruns.loop_eq hfuel
    rw [hloop, loop_of_done hblanks hrest]
  | refused hruns hblanks hrest hstep =>
    obtain ⟨fuel', hfuel', hloop⟩ := hruns.loop_eq hfuel
    obtain ⟨fuel', rfl⟩ := Nat.exists_eq_succ_of_ne_zero (Nat.ne_zero_of_lt hfuel')
    rw [hloop, loop_cons hblanks hrest, hstep]
    rfl

theorem exists_ends {fuel : Nat} (hfuel : p.rest.length < fuel) (hplain : p.plainly fuel) :
    ∃ q x, p.Ends q x := by
  induction fuel generalizing p with
  | zero => cases hfuel
  | succ fuel ih =>
    rw [plainly, Bool.and_eq_true, Bool.not_eq_true'] at hplain
    obtain ⟨hblanks, hlater⟩ := hplain
    cases hrest : p.rest with
    | nil => exact ⟨p, _, .done (.refl p) hblanks hrest⟩
    | cons d rest =>
      rw [hrest] at hlater hfuel
      cases hstep : Regex.step p (d :: rest) with
      | error e => exact ⟨p, _, .refused (.refl p) hblanks hrest hstep⟩
      | ok q =>
        have hle := length_step_le hblanks hstep
        simp only [hstep] at hlater
        obtain ⟨r, x, hends⟩ := ih (by rw [List.length_cons] at hfuel; omega) hlater
        exact ⟨r, x, hends.of_step hblanks hrest hstep⟩

/-! Runs in their surroundings -/

/-- A run that comes upon no name from around it goes the same way in its surroundings. -/
theorem Runs.within (h : a.Runs b) (hac : a.Within same s c)
    (hclear : ∀ name ∈ b.names, name ∉ s.names) : ∃ d, c.Runs d ∧ b.Within same s d := by
  induction h generalizing c with
  | refl a => exact ⟨c, .refl c, hac⟩
  | @step a q b d rest hblanks hrest hstep hlater ih =>
    have hcarries := step_carries hac hblanks d rest fun q' hq' name hname => by
      rw [hstep] at hq'
      cases hq'
      exact hclear name (hlater.names_subset hname)
    rw [hstep] at hcarries
    obtain ⟨q', hstep', hq, -⟩ := hcarries.of_ok
    obtain ⟨d', hruns, hb⟩ := ih hq hclear
    have hrest' : c.rest = d :: (rest ++ s.behind) := by rw [hac.rest, hrest, List.cons_append]
    exact ⟨d', .step (hac.flags.verbose ▸ hblanks) hrest' hstep' hruns, hb⟩

theorem openNamed_clash (hac : a.Within same s c) {text : List Char} {name : List Char}
    (h : openNamed a text = .ok q) (hname : name ∈ q.names) (hnew : name ∉ a.names)
    (hclash : name ∈ s.names) :
    openNamed c (text ++ s.behind) = .error .duplicateGroupName := by
  obtain ⟨after, hafter, hopen⟩ := openNamed_ok_iff.1 h
  obtain ⟨hvalid, -, rfl⟩ := openName_ok_iff.1 hopen
  obtain ⟨htake, hdrop⟩ := takeWhile_stopped hafter s.behind
  have heq : name = text.takeWhile (· != '>') := (List.mem_cons.1 hname).resolve_right hnew
  have hknown : c.names.contains (text.takeWhile (· != '>')) := by
    rw [List.contains_eq_mem, decide_eq_true_eq, hac.names, ← heq]
    exact List.mem_append_right _ hclash
  rw [openNamed_eq, htake, hdrop, behindMark, if_pos rfl, openName, if_neg (by simpa using hvalid),
    if_pos hknown]

theorem step_clash (hac : a.Within same s c) (hblanks : a.flags.verbose = false) {d : Char}
    {rest name : List Char} (h : Regex.step a (d :: rest) = .ok q) (hname : name ∈ q.names)
    (hnew : name ∉ a.names) (hclash : name ∈ s.names) :
    Regex.step c (d :: (rest ++ s.behind)) = .error .duplicateGroupName := by
  have hblanks' : c.flags.verbose = false := hac.flags.verbose ▸ hblanks
  by_cases hd : d = '('
  case neg =>
    rw [(step_moves hblanks h).2 hd] at hname
    exact absurd hname hnew
  subst hd
  change readGroup a rest = .ok q at h
  change readGroup c (rest ++ s.behind) = _
  cases groupText rest with
  | plain hhead =>
    rw [readGroup_capture hblanks hhead] at h
    cases h
    exact absurd hname hnew
  | ahead hd rest =>
    rw [(readGroup_look hblanks hd _).1] at h
    cases h
  | back hd rest =>
    rw [(readGroup_look hblanks hd _).2] at h
    cases h
  | angle hequal hnot =>
    rw [readGroup_angle hblanks hequal hnot] at h
    rw [List.cons_append, List.cons_append, readGroup_angle hblanks'
      (s.closing.not_starts (by decide) hequal) (s.closing.not_starts (by decide) hnot)]
    exact openNamed_clash hac h hname hnew hclash
  | named rest =>
    rw [readGroup_named hblanks] at h
    rw [List.cons_append, List.cons_append, List.cons_append, readGroup_named hblanks']
    exact openNamed_clash hac h hname hnew hclash
  | flags hequal hnot hangle hname' =>
    rw [readGroup_flags hblanks hequal hnot hangle hname'] at h
    split at h
    · rw [(flagged_moves h).2] at hname
      exact absurd hname hnew
    · cases h

theorem Runs.clash (h : a.Runs b) (hac : a.Within same s c)
    (hfresh : ∀ name ∈ a.names, name ∉ s.names) {name : List Char} (hname : name ∈ b.names)
    (hclash : name ∈ s.names) : ∃ d, c.Ends d (.error .duplicateGroupName) := by
  induction h generalizing c with
  | refl a => exact absurd hclash (hfresh name hname)
  | @step a q b d rest hblanks hrest hstep hlater ih =>
    have hblanks' : c.flags.verbose = false := hac.flags.verbose ▸ hblanks
    have hrest' : c.rest = d :: (rest ++ s.behind) := by rw [hac.rest, hrest, List.cons_append]
    by_cases hclear : ∀ name ∈ q.names, name ∉ s.names
    · have hcarries := step_carries hac hblanks d rest fun q' hq' name hname => by
        rw [hstep] at hq'
        cases hq'
        exact hclear name hname
      rw [hstep] at hcarries
      obtain ⟨q', hstep', hq, -⟩ := hcarries.of_ok
      obtain ⟨d', hends⟩ := ih hq hclear hname
      exact ⟨d', hends.of_step hblanks' hrest' hstep'⟩
    · simp only [not_forall, not_not] at hclear
      obtain ⟨new, hnew, hknown⟩ := hclear
      have hnew' : new ∉ a.names := fun hold => hfresh new hold hknown
      exact ⟨c, .refused (.refl c) hblanks' hrest' (step_clash hac hblanks hstep hnew hnew' hknown)⟩

/-! Surroundings that stay open -/

theorem opened_ne_nil (hopen : s.frames ≠ []) (inner : List Frame) :
    (opened (inner ++ s.frames)).2 ≠ [] := by
  cases inner with
  | nil =>
    have hfresh := s.fresh
    rw [List.nil_append]
    unfold opened
    split
    · next heq => exact absurd (congrArg List.head? heq) (hfresh _)
    · exact hopen
  | cons frame inner => cases frame <;> simp [opened, hopen]

theorem finish_open (hframes : ∃ inner, q.frames = inner ++ s.frames) (hopen : s.frames ≠ []) :
    finish q = .error .unclosedGroup := by
  obtain ⟨inner, hframes⟩ := hframes
  have hne := opened_ne_nil hopen inner
  rw [finish, closeBranches_eq, hframes]
  generalize (opened (inner ++ s.frames)).2 = frames at hne
  split
  · next heq => exact absurd (Prod.mk.inj heq).2 hne
  · rfl

theorem loop_of_nil (hrest : q.rest = []) (fuel : Nat) : loop fuel q = finish q := by
  cases fuel with
  | zero => rfl
  | succ fuel =>
    rw [loop, hrest, show skip q.flags.verbose [] = [] by cases q.flags.verbose <;> rfl]

theorem loop_spoiled (hrest : q.rest ∈ spoiled) (hframes : ∃ inner, q.frames = inner ++ s.frames)
    (hopen : s.frames ≠ []) (fuel : Nat) (tree : Ast) : loop fuel q ≠ .ok tree := by
  have hfinish : finish q ≠ .ok tree := by
    rw [finish_open hframes hopen]
    exact refused_ne_found _ _
  simp only [spoiled, List.mem_cons, List.not_mem_nil, or_false] at hrest
  rcases hrest with hrest | hrest
  · rw [loop_of_nil hrest]
    exact hfinish
  cases fuel with
  | zero => exact hfinish
  | succ fuel =>
    have hstep : Regex.step q ['{', ')'] = .error .repetitionCount := by
      simp only [Regex.step]
      cases q.flags.verbose <;> rfl
    rw [loop, hrest, show skip q.flags.verbose ['{', ')'] = ['{', ')'] by
      cases q.flags.verbose <;> rfl]
    simp only [hstep]
    exact refused_ne_found _ _

theorem closeGroup_within (h : b.Within same s c) {tree : Ast} (hfinish : finish b = .ok tree)
    {outer : List (Nested Item)} {flags : Flags} {kind : GroupKind} {base : List Frame}
    (hframes : s.frames = .group outer flags kind :: base) (rest : List Char) :
    ∃ tree' depth, Same same tree tree' ∧ closeGroup c rest = .ok { c with
      rest, flags, frames := base, items := ⟨.tree (kind.wrap tree'), depth⟩ :: outer } := by
  obtain ⟨htree, inner, hinner, hclosed⟩ := closeBranches_within h
  unfold finish at hfinish
  unfold closeGroup
  generalize closeBranches b.items b.frames = x at *
  generalize closeBranches c.items c.frames = y at *
  obtain ⟨t, frames⟩ := x
  obtain ⟨t', frames'⟩ := y
  dsimp only at htree hinner hclosed
  cases hinner with
  | nil =>
    rw [List.nil_append, hframes] at hclosed
    subst hclosed
    dsimp only at hfinish
    split at hfinish
    · cases hfinish
      exact ⟨t'.value, t'.depth + 1, htree.2, rfl⟩
    · cases hfinish
  | cons => cases hfinish

/-- Behind a text that ends badly, though with no step that fails, the parenthesis closes a group of
the text and leaves the surroundings open, or what it closes is too deep. -/
theorem finish_closeGroup (h : b.Within same s c) {e : SyntaxError}
    (hfinish : finish b = .error e) (hopen : s.frames ≠ []) {q : Parser}
    (hclose : closeGroup c [] = .ok q) : ∃ e, finish q = .error e := by
  obtain ⟨htree, inner, hinner, hclosed⟩ := closeBranches_within h
  unfold finish at hfinish
  unfold closeGroup at hclose
  generalize closeBranches b.items b.frames = x at *
  generalize closeBranches c.items c.frames = y at *
  obtain ⟨t, frames⟩ := x
  obtain ⟨t', frames'⟩ := y
  dsimp only at htree hinner hclosed
  subst hclosed
  cases hinner with
  | nil =>
    dsimp only at hfinish
    split at hfinish
    · cases hfinish
    next hdeep =>
    rw [List.nil_append] at hclose
    dsimp only at hclose
    split at hclose
    next t'' outer flags kind base heq =>
      obtain ⟨rfl, hframes⟩ := Prod.mk.inj heq
      cases hclose
      have hle := depth_le_closeBranches (List.mem_cons_self (a := ⟨.tree (kind.wrap t'.value),
        t'.depth + 1⟩) (l := outer)) base
      rw [finish]
      split
      · next tree hdone =>
        rw [hdone] at hle
        have hdepth := htree.1
        rw [if_neg (by dsimp only at hle; omega)]
        exact ⟨_, rfl⟩
      · exact ⟨_, rfl⟩
    · cases hclose
  | cons hframe hrest =>
    rw [List.cons_append] at hclose
    cases hframe with
    | branches => cases hclose
    | group houter hflags hkind =>
      cases hclose
      exact ⟨_, finish_open (s := s) ⟨_, rfl⟩ hopen⟩

section spoiling
variable {e : SyntaxError} (hbc : b.Within same s c) (hblanks : b.flags.verbose = false)
  (hbehind : s.behind = [')']) (hopen : s.frames ≠ [])
include hbc hblanks hbehind hopen

theorem loop_ne_of_finish (hrest : b.rest = []) (hfinish : finish b = .error e) (fuel : Nat)
    (tree : Ast) : loop (fuel + 1) c ≠ .ok tree := by
  have hrest' : c.rest = [')'] := by rw [hbc.rest, hrest, hbehind, List.nil_append]
  rw [loop_cons (hbc.flags.verbose ▸ hblanks) hrest']
  change closeGroup c [] >>= loop fuel ≠ _
  cases hclose : closeGroup c [] with
  | error => exact refused_ne_found _ _
  | ok q =>
    obtain ⟨e', hfinish⟩ := finish_closeGroup hbc hfinish hopen hclose
    have hdone : q.rest = [] := by
      unfold closeGroup at hclose
      split at hclose <;> cases hclose
      rfl
    change loop fuel q ≠ _
    rw [loop_of_nil hdone, hfinish]
    exact refused_ne_found _ _

theorem loop_ne_of_step {d : Char} {rest : List Char} (hrest : b.rest = d :: rest)
    (hstep : Regex.step b (d :: rest) = .error e) (he : e ≠ .unopenedGroup) (fuel : Nat)
    (tree : Ast) : loop (fuel + 1) c ≠ .ok tree := by
  have hrest' : c.rest = d :: (rest ++ s.behind) := by rw [hbc.rest, hrest, List.cons_append]
  have hcarries := step_carries hbc hblanks d rest fun q hq => by
    rw [hstep] at hq
    cases hq
  rw [hstep] at hcarries
  rw [loop_cons (hbc.flags.verbose ▸ hblanks) hrest']
  cases hnext : Regex.step c (d :: (rest ++ s.behind)) with
  | error => exact refused_ne_found _ _
  | ok q =>
    rw [hnext] at hcarries
    obtain ⟨hlost, hframes⟩ := hcarries.lost he hbehind
    exact loop_spoiled hlost hframes hopen fuel tree

end spoiling

/-- A text that ends badly spoils what surrounds it, unless it closes a group that it did not
open. -/
theorem Ends.spoils {e : SyntaxError} (h : a.Ends b (.error e)) (he : e ≠ .unopenedGroup)
    (hac : a.Within same s c) (hbehind : s.behind = [')']) (hopen : s.frames ≠ [])
    (hfresh : ∀ name ∈ a.names, name ∉ s.names) {fuel : Nat} (hfuel : c.rest.length < fuel)
    (tree : Ast) : loop fuel c ≠ .ok tree := by
  by_cases hclear : ∀ name ∈ b.names, name ∉ s.names
  case neg =>
    simp only [not_forall, not_not] at hclear
    obtain ⟨name, hname, hclash⟩ := hclear
    obtain ⟨d, hends⟩ := h.runs.clash hac hfresh hname hclash
    rw [hends.loop_eq hfuel]
    exact refused_ne_found _ _
  obtain ⟨d, hd, hbd⟩ := h.runs.within hac hclear
  obtain ⟨fuel', hfuel', hloop⟩ := hd.loop_eq hfuel
  obtain ⟨fuel', rfl⟩ := Nat.exists_eq_succ_of_ne_zero (Nat.ne_zero_of_lt hfuel')
  rw [hloop]
  generalize hx : Except.error e = x at h
  cases h with
  | done _ hblanks hrest =>
    exact loop_ne_of_finish hbd hblanks hbehind hopen hrest hx.symm fuel' tree
  | refused _ hblanks hrest hstep =>
    cases hx
    exact loop_ne_of_step hbd hblanks hbehind hopen hrest hstep he fuel' tree

end Parser

end RuleLexer.Regex
