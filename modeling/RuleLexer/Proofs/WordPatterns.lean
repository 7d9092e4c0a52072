import Mathlib.Data.List.SplitBy
import RuleLexer.Proofs.Survey

/-! Patterns for words. However many words there are, the reader takes their characters one by one and
comes to an alternation of texts, which is as simple as it gets, and the room of which is bounded by
the number of bytes that the words have. So such a pattern can be read, and never matches nothing. -/
namespace RuleLexer.Regex
open RuleLexer.Text RuleLexer.Words

/-! Reading -/

namespace Parser

/-- From one state the reader comes to another, and takes a character for each step at least. -/
def Reads (p p' : Parser) : Prop := ∃ steps, steps + p'.rest.length ≤ p.rest.length ∧
  ∀ fuel, loop (fuel + steps) p = loop fuel p'

/-- Characters stand for themselves, and blanks count. -/
structure Literal (flags : Flags) : Prop where
  unicode : flags.unicode
  caseful : flags.ignoreCase = false
  blanks : flags.verbose = false

variable {p p' p'' : Parser}

theorem Reads.refl (p : Parser) : p.Reads p := ⟨0, by simp, fun _ => rfl⟩

theorem Reads.trans (h : p.Reads p') (h' : p'.Reads p'') : p.Reads p'' := by
  obtain ⟨steps, hless, hloop⟩ := h
  obtain ⟨more, hmore, hloop'⟩ := h'
  refine ⟨more + steps, by omega, fun fuel => ?_⟩
  rw [← Nat.add_assoc, hloop, hloop']

theorem reads_step (hblanks : p.flags.verbose = false) (h : step p p.rest = .ok p')
    (hless : p'.rest.length < p.rest.length) : p.Reads p' := by
  refine ⟨1, by omega, fun fuel => ?_⟩
  have hsome : p.rest ≠ [] := fun hnil => by simp [hnil] at hless
  have hskip : skip p.flags.verbose p.rest = p.rest := by simp [skip, hblanks]
  rw [loop, hskip]
  split
  · next hnil => exact absurd hnil hsome
  · rw [h]
    rfl

theorem loop_of_done (hblanks : p.flags.verbose = false) (h : p.rest = []) (fuel : Nat) :
    loop fuel p = finish p := by
  cases fuel <;> simp [loop, skip, hblanks, h]

theorem Reads.parse_eq {pattern : List Char} (h : (⟨pattern, {}, [], [], 0, []⟩ : Parser).Reads p)
    (hblanks : p.flags.verbose = false) (hrest : p.rest = []) : parse pattern = finish p := by
  obtain ⟨steps, hless, hloop⟩ := h
  have hsteps : steps ≤ pattern.length := by simpa [hrest] using hless
  have hfuel : pattern.length + 1 = (pattern.length + 1 - steps) + steps := by omega
  rw [parse, hfuel, hloop, loop_of_done hblanks hrest]

end Parser

/-! Characters -/

theorem readEscape_of_meta {c : Char} (h : isMeta c) (flags : Flags) (rest : List Char) :
    readEscape flags (c :: rest) = .ok (.literal c false, rest) := by
  have hmem : c ∈ "\\.+*?()|[]\x7b\x7d^$#&-~".toList := by
    rw [isMeta, Bool.and_eq_true] at h
    exact List.contains_iff_mem.1 h.2
  simp only [String.reduceToList, List.mem_cons, List.not_mem_nil, or_false] at hmem
  rcases hmem with rfl | rfl | rfl | rfl | rfl | rfl | rfl | rfl | rfl | rfl | rfl | rfl | rfl |
    rfl | rfl | rfl | rfl | rfl <;> rfl

def letter (c : Char) : Nested Item := .flat (.tree (.set (.single c)))

theorem step_escape {p : Parser} (hflags : Parser.Literal p.flags) (c : Char) (rest : List Char) :
    step p (escape [c] ++ rest) = .ok { p with rest, items := letter c :: p.items } := by
  have hliteral : literalSet p.flags c false = .ok (.single c) := by
    simp [literalSet, hflags.unicode, hflags.caseful]
  by_cases hmeta : isMeta c = true
  · have hescape : escape [c] = ['\\', c] := by simp [escape, hmeta]
    simp only [hescape, List.cons_append, List.nil_append, step, readEscape_of_meta hmeta]
    show (do Except.ok (addTree p (.set (← literalSet p.flags c false)) rest)) = _
    rw [hliteral]
    rfl
  · have hescape : escape [c] = [c] := by simp [escape, hmeta]
    rw [hescape, List.singleton_append, step.eq_def]
    split
    case h_13 heq =>
      cases heq
      rw [hliteral]
      rfl
    case h_14 heq => cases heq
    all_goals next heq =>
      cases heq
      exact absurd (by decide) hmeta

/-! Words -/

section words
variable {p : Parser} {rest : List Char}

theorem reads_text (hflags : Parser.Literal p.flags) {word : List Char}
    (hrest : p.rest = escape word ++ rest) :
    p.Reads { p with rest, items := (word.map letter).reverse ++ p.items } := by
  induction word generalizing p with
  | nil =>
    have hsame : ({ p with rest, items := p.items } : Parser) = p := by
      rw [escape, List.flatMap_nil, List.nil_append] at hrest
      rw [← hrest]
    simpa [hsame] using Parser.Reads.refl p
  | cons c word ih =>
    have hescape : escape (c :: word) = escape [c] ++ escape word := by simp [escape]
    have hlength : 0 < (escape [c]).length := by
      simp only [escape, List.flatMap_cons, List.flatMap_nil, List.append_nil]
      split <;> simp
    rw [hescape, List.append_assoc] at hrest
    have hfirst := Parser.reads_step hflags.blanks (hrest ▸ step_escape hflags c _)
      (by simp only [hrest, List.length_append]; omega)
    have hlater := hfirst.trans (ih hflags rfl)
    simpa using hlater

/-- The branches in front of the one that is being read, and what stands around them. -/
def opened : List Frame → List (Nested Ast) × List Frame
  | .branches before :: frames => (before, frames)
  | frames => ([], frames)

theorem closeBranches_eq (items : List (Nested Item)) (frames : List Frame) :
    closeBranches items frames =
      (.gather .alts (sequence items :: (opened frames).1), (opened frames).2) := by
  cases frames with
  | nil => rfl
  | cons frame frames => cases frame <;> rfl

theorem step_bar (p : Parser) (rest : List Char) : step p ('|' :: rest) = .ok { p with
    rest, items := [],
    frames := .branches (sequence p.items :: (opened p.frames).1) :: (opened p.frames).2 } := by
  show Except.ok (addBranch p rest) = _
  unfold addBranch opened
  split <;> simp_all

def wordTree (word : List Char) : Nested Ast := sequence (word.map letter).reverse

theorem reads_words (hflags : Parser.Literal p.flags) (hitems : p.items = []) {word : List Char}
    {words : List (List Char)}
    (hrest : p.rest = ['|'].intercalate ((word :: words).map escape) ++ rest) :
    ∃ items frames, p.Reads { p with rest, items, frames } ∧ closeBranches items frames =
      (.gather .alts (((word :: words).map wordTree).reverse ++ (opened p.frames).1),
        (opened p.frames).2) := by
  induction words generalizing p word with
  | nil =>
    have hword : p.rest = escape word ++ rest := by simpa [List.intercalate] using hrest
    have hread := reads_text hflags hword
    refine ⟨_, p.frames, hread, ?_⟩
    simp [closeBranches_eq, hitems, wordTree]
  | cons next words ih =>
    let behind := ['|'].intercalate ((next :: words).map escape) ++ rest
    have hsplit : p.rest = escape word ++ '|' :: behind := by
      simp [hrest, behind, List.intercalate]
    have hword := reads_text hflags hsplit
    rw [hitems, List.append_nil] at hword
    let bar : Parser := { p with
      rest := behind, items := [],
      frames := .branches (wordTree word :: (opened p.frames).1) :: (opened p.frames).2 }
    have hbar : p.Reads bar :=
      hword.trans (Parser.reads_step hflags.blanks (step_bar _ behind) (by simp [bar]))
    obtain ⟨items, frames, hread, hclose⟩ := ih (p := bar) hflags rfl rfl
    refine ⟨items, frames, hbar.trans hread, ?_⟩
    rw [hclose]
    simp [bar, opened]

end words

/-! The whole pattern -/

namespace Nested
variable {α β : Type} (f : List α → β) {parts : List (Nested α)}

theorem value_gather (parts : List (Nested α)) :
    (gather f parts).value = f (parts.map value).reverse := by
  unfold gather
  split <;> simp [flat]

theorem depth_gather_le {n : Nat} (h : ∀ part ∈ parts, part.depth ≤ n) :
    (gather f parts).depth ≤ n + 1 := by
  have hmax : ∀ depths : List Nat, ∀ start ≤ n, (∀ m ∈ depths, m ≤ n) →
      depths.foldl max start ≤ n := by
    intro depths
    induction depths with
    | nil => simp
    | cons m depths ih =>
      intro start hstart hdepths
      obtain ⟨hm, hdepths⟩ := List.forall_mem_cons.1 hdepths
      exact ih _ (by omega) hdepths
  unfold gather
  split
  · next a =>
    have ha := h a (by simp)
    show a.depth ≤ n + 1
    omega
  · simp [flat]
  · have hall := hmax (parts.map depth) 0 (by omega) (by simpa using h)
    show (parts.map depth).foldl max 0 + 1 ≤ n + 1
    omega

end Nested

theorem value_sequence (items : List (Nested Item)) : (sequence items).value =
    .seqs ((items.map Nested.value).reverse.filterMap fun
      | .directive => none
      | .tree a => some a) := Nested.value_gather ..

def textTree (word : List Char) : Ast := .seqs (word.map fun c => .set (.single c))

theorem value_wordTree (word : List Char) : (wordTree word).value = textTree word := by
  have hvalues : ((word.map letter).map Nested.value).filterMap (fun
      | .directive => none
      | .tree a => some a) = word.map fun c => Ast.set (.single c) := by
    induction word with
    | nil => rfl
    | cons c word ih =>
      simp only [List.map_cons, letter, Nested.flat, List.filterMap_cons, List.cons.injEq, true_and]
      exact ih
  rw [wordTree, value_sequence, List.map_reverse, List.reverse_reverse, hvalues, textTree]

theorem depth_wordTree_le (word : List Char) : (wordTree word).depth ≤ 1 := by
  refine Nested.depth_gather_le _ fun part hpart => ?_
  simp only [List.mem_reverse, List.mem_map] at hpart
  obtain ⟨c, -, rfl⟩ := hpart
  exact Nat.le_refl 0

section pattern
variable {p : Parser} (hflags : Parser.Literal p.flags)
include hflags

theorem step_open (rest : List Char) : step p ('(' :: '?' :: ':' :: rest) =
    .ok (openGroup p .scope p.flags rest) := by
  have hread : readFlags (':' :: rest) = .ok ([], ':' :: rest) := by
    simp [readFlags, flagLetters]
  show readGroup p ('?' :: ':' :: rest) = _
  simp [readGroup, skip, hflags.blanks, hread]
  rfl

theorem step_boundary (rest : List Char) : step p ('\\' :: 'b' :: ')' :: rest) =
    .ok (addTree p (.look (.word .boundary true)) (')' :: rest)) := by
  simp [step, readEscape, readWordEdge, hflags.unicode]
  rfl

end pattern

theorem exists_reads_header {flags : PatternFlags} (hcase : flags.ignoreCase = false)
    (rest : List Char) : ∃ read items, Parser.Literal read ∧ (items = [] ∨ items = [.flat .directive]) ∧
      Parser.Reads ⟨flags.header.toList ++ rest, {}, [], [], 0, []⟩ ⟨rest, read, items, [], 0, []⟩ := by
  obtain ⟨ignoreCase, multiLine, dotAll⟩ := flags
  cases hcase
  have hstep : ∀ letters : List Char, letters ∈ [['m'], ['s'], ['m', 's']] →
      Parser.Reads ⟨'(' :: '?' :: (letters ++ ')' :: rest), {}, [], [], 0, []⟩
        ⟨rest, Flags.apply {} letters, [.flat .directive], [], 0, []⟩ := by
    intro letters hletters
    simp only [List.mem_cons, List.not_mem_nil, or_false] at hletters
    rcases hletters with rfl | rfl | rfl <;>
      exact Parser.reads_step rfl rfl (by simp only [List.length_append, List.length_cons]; omega)
  cases multiLine <;> cases dotAll
  · exact ⟨_, _, ⟨rfl, rfl, rfl⟩, .inl rfl, .refl _⟩
  · exact ⟨_, _, ⟨rfl, rfl, rfl⟩, .inr rfl, hstep ['s'] (by simp)⟩
  · exact ⟨_, _, ⟨rfl, rfl, rfl⟩, .inr rfl, hstep ['m'] (by simp)⟩
  · exact ⟨_, _, ⟨rfl, rfl, rfl⟩, .inr rfl, hstep ['m', 's'] (by simp)⟩

theorem exists_reads_group {p : Parser} (hflags : Parser.Literal p.flags) {word : List Char}
    {words : List (List Char)} {rest : List Char} (hrest : p.rest = '(' :: '?' :: ':' ::
      (['|'].intercalate ((word :: words).map escape) ++ ')' :: rest)) :
    ∃ group, p.Reads { p with rest, items := group :: p.items } ∧ group.depth ≤ 3 ∧
      group.value = .tree (.scope (.alts ((word :: words).map textTree))) := by
  let text := ['|'].intercalate ((word :: words).map escape) ++ ')' :: rest
  have hopen : p.Reads (openGroup p .scope p.flags text) :=
    Parser.reads_step hflags.blanks (hrest ▸ step_open hflags text) (by
      simp only [openGroup, hrest, List.length_cons, text]
      omega)
  obtain ⟨items, frames, hlast, hclose⟩ := reads_words (p := openGroup p .scope p.flags text) hflags
    rfl rfl
  let branches : Nested Ast := .gather .alts ((word :: words).map wordTree).reverse
  let group : Nested Item := ⟨.tree (.scope branches.value), branches.depth + 1⟩
  have hgroup : p.Reads { p with rest, items := group :: p.items } := by
    refine (hopen.trans hlast).trans (Parser.reads_step hflags.blanks ?_ (by simp))
    simp [step, closeGroup, hclose, openGroup, opened, group, branches, GroupKind.wrap]
  have hdepth : branches.depth ≤ 2 := Nested.depth_gather_le _ fun part hpart => by
    obtain ⟨word, -, rfl⟩ := List.mem_map.1 (List.mem_reverse.1 hpart)
    exact depth_wordTree_le word
  have hvalue : branches.value = .alts ((word :: words).map textTree) := by
    have htexts : ((word :: words).map wordTree).map Nested.value = (word :: words).map textTree := by
      simp [value_wordTree]
    rw [← htexts]
    simp [branches, Nested.value_gather]
  exact ⟨group, hgroup, Nat.succ_le_succ hdepth, by simp [group, hvalue]⟩

theorem exists_reads_words {flags : PatternFlags} (hcase : flags.ignoreCase = false)
    {words : List (List Char)} (hwords : words ≠ []) (rest : List Char) : ∃ read items group,
      Parser.Literal read ∧ (items = [] ∨ items = [.flat .directive]) ∧
        Parser.Reads ⟨flags.header.toList ++ "(?:".toList ++ ("(?:".toList ++
            ['|'].intercalate (words.map escape) ++ [')'] ++ rest), {}, [], [], 0, []⟩
          ⟨rest, read, [group], [.group items read .scope], 0, []⟩ ∧
        group.depth ≤ 3 ∧ group.value = .tree (.scope (.alts (words.map textTree))) := by
  obtain ⟨word, words, rfl⟩ := List.exists_cons_of_ne_nil hwords
  let inner := '(' :: '?' :: ':' ::
    (['|'].intercalate ((word :: words).map escape) ++ ')' :: rest)
  obtain ⟨read, items, hread, hitems, hheader⟩ :=
    exists_reads_header hcase ('(' :: '?' :: ':' :: inner)
  let frames : List Frame := [.group items read .scope]
  have hopen : Parser.Reads _ ⟨inner, read, [], frames, 0, []⟩ :=
    hheader.trans (Parser.reads_step hread.blanks (step_open hread inner) (by
      simp only [List.length_cons]
      omega))
  obtain ⟨group, hgroup, hdepth, hvalue⟩ :=
    exists_reads_group (p := ⟨inner, read, [], frames, 0, []⟩) hread rfl
  refine ⟨read, items, group, hread, hitems, ?_, hdepth, hvalue⟩
  simpa [inner, frames] using hopen.trans hgroup

theorem parse_of_reads {pattern : List Char} {read : Flags} {items inside : List (Nested Item)}
    (hread : Parser.Literal read) (hitems : items = [] ∨ items = [.flat .directive])
    (h : Parser.Reads ⟨pattern, {}, [], [], 0, []⟩
      ⟨[')'], read, inside, [.group items read .scope], 0, []⟩)
    (hinside : ∀ part ∈ inside, part.depth ≤ 3) :
    parse pattern = .ok (.scope (sequence inside).value) := by
  let whole : Nested Item :=
    ⟨.tree (.scope (sequence inside).value), (sequence inside).depth + 1⟩
  have hdone : Parser.Reads _ ⟨[], read, whole :: items, [], 0, []⟩ :=
    h.trans (Parser.reads_step hread.blanks rfl (by simp))
  have hwhole : (sequence inside).depth ≤ 4 := Nested.depth_gather_le _ hinside
  have hdepth : (sequence (whole :: items)).depth ≤ maxNesting := by
    refine (Nested.depth_gather_le _ (n := 5) fun part hpart => ?_).trans (by decide)
    rcases List.mem_cons.1 hpart with rfl | hpart
    · exact Nat.succ_le_succ hwhole
    · rcases hitems with rfl | rfl
      · cases hpart
      · simp [List.mem_singleton.1 hpart, Nested.flat]
  have hvalue : (sequence (whole :: items)).value = .scope (sequence inside).value := by
    rcases hitems with rfl | rfl <;> simp [value_sequence, whole, Nested.flat, Ast.seqs]
  rw [hdone.parse_eq hread.blanks rfl, finish]
  simp [closeBranches_eq, opened, Nested.gather, Ast.alts, hdepth, hvalue]

def wordsTree (words : List (List Char)) : Ast :=
  .scope (.seq (.scope (.alts (words.map textTree))) (.look (.word .boundary true)))

theorem parse_words {flags : PatternFlags} (hcase : flags.ignoreCase = false)
    {words : List (List Char)} (hwords : words ≠ []) :
    parse (flags.header.toList ++ "(?:".toList ++ ("(?:".toList ++
      ['|'].intercalate (words.map escape) ++ [')'] ++ ['\\', 'b']) ++ [')']) =
        .ok (wordsTree words) := by
  obtain ⟨read, items, group, hread, hitems, hgroup, hdepth, hvalue⟩ :=
    exists_reads_words hcase hwords ['\\', 'b', ')']
  let edge : Nested Item := .flat (.tree (.look (.word .boundary true)))
  have hbound : Parser.Reads _ ⟨[')'], read, [edge, group], [.group items read .scope], 0, []⟩ :=
    hgroup.trans (Parser.reads_step hread.blanks (step_boundary hread []) (by simp))
  have hparse := parse_of_reads hread hitems hbound (by simp [edge, Nested.flat, hdepth])
  have htree : Ast.scope (sequence [edge, group]).value = wordsTree words := by
    simp [value_sequence, edge, hvalue, wordsTree, Nested.flat, Ast.seqs]
  rw [← htree, ← hparse]
  simp

/-! The simpler tree -/

namespace Ast
variable {word : List Char} {words : List (List Char)}

theorem exists_set_or_seq (h : word ≠ []) : ∃ s, textTree word = .set s ∨
    ∃ next rest, next :: rest = word.tail ∧ textTree word = .seq (.set s) (textTree (next :: rest)) := by
  obtain ⟨c, rest, rfl⟩ := List.exists_cons_of_ne_nil h
  cases rest with
  | nil => exact ⟨.single c, .inl rfl⟩
  | cons d rest => exact ⟨.single c, .inr ⟨d, rest, rfl, rfl⟩⟩

theorem branches_text (word : List Char) : (textTree word).branches = [textTree word] := by
  by_cases h : word = []
  · rw [h]
    rfl
  · obtain ⟨s, hset | ⟨next, rest, -, hseq⟩⟩ := exists_set_or_seq h
    · rw [hset, branches]
      simp
    · rw [hseq, branches]
      simp

theorem simpleBranches_text (word : List Char) :
    (textTree word).simpleBranches = [textTree word] := by
  induction word with
  | nil => rfl
  | cons c word ih =>
    cases word with
    | nil => rfl
    | cons d word =>
      have hseq : textTree (c :: d :: word) = .seq (.set (.single c)) (textTree (d :: word)) := rfl
      have hjoin : (Ast.set (.single c)).andThen (textTree (d :: word)) = textTree (c :: d :: word) := by
        cases word <;> rfl
      rw [hseq, simpleBranches, ih, simpleBranches]
      simp only [oneOf, alts]
      rw [hjoin, branches_text, hseq]

theorem branches_alts (hwords : words ≠ []) :
    (alts (words.map textTree)).branches = words.map textTree := by
  induction words with
  | nil => exact absurd rfl hwords
  | cons word words ih =>
    cases words with
    | nil => exact branches_text word
    | cons next words =>
      show textTree word :: (alts ((next :: words).map textTree)).branches = _
      rw [ih (List.cons_ne_nil _ _)]
      rfl

theorem simpleBranches_alts (hwords : words ≠ []) :
    (alts (words.map textTree)).simpleBranches = words.map textTree := by
  induction words with
  | nil => exact absurd rfl hwords
  | cons word words ih =>
    cases words with
    | nil => exact simpleBranches_text word
    | cons next words =>
      show (oneOf (textTree word).simpleBranches).branches ++
        (alts ((next :: words).map textTree)).simpleBranches = _
      rw [ih (List.cons_ne_nil _ _), simpleBranches_text]
      simp only [oneOf, alts, branches_text]
      rfl

theorem setOf?_eq_none {branches : List Ast} {a : Ast} (ha : a ∈ branches)
    (hset : ∀ s, a ≠ .set s) : setOf? branches = none := by
  rw [setOf?, Option.map_eq_none_iff]
  induction branches with
  | nil => cases ha
  | cons b branches ih =>
    rw [List.mapM_cons]
    rcases List.mem_cons.1 ha with rfl | ha
    · cases a <;> first | rfl | exact absurd rfl (hset _)
    · rw [ih ha]
      cases b <;> rfl

theorem only?_single (c : Char) : (CharSet.single c).only? = some c := if_pos rfl

theorem units_text (h : word ≠ []) : (textTree word).units = [word.map fun c => .set (.single c)] := by
  have hparts : (textTree word).parts = word.map fun c => .set (.single c) := by
    induction word with
    | nil => exact absurd rfl h
    | cons c word ih =>
      cases word with
      | nil => rfl
      | cons d word =>
        show Ast.set (.single c) :: (textTree (d :: word)).parts = _
        rw [ih (List.cons_ne_nil _ _)]
        rfl
  rw [units, hparts]
  refine List.splitBy_of_isChain (by simpa using h) ?_
  refine List.Pairwise.isChain (List.pairwise_of_forall_mem_list fun a ha b hb => ?_)
  obtain ⟨c, -, rfl⟩ := List.mem_map.1 ha
  obtain ⟨d, -, rfl⟩ := List.mem_map.1 hb
  simp [only?_single]

/-- So texts share no unit, and an alternation of them stays one. -/
theorem oneOf_texts (hlong : ∃ word ∈ words, word.length ≠ 1) :
    oneOf (words.map textTree) = alts (words.map textTree) := by
  obtain ⟨long, hmem, hlength⟩ := hlong
  have hnone : setOf? (words.map textTree) = none := by
    refine setOf?_eq_none (List.mem_map_of_mem hmem) fun s hs => ?_
    match long, hlength with
    | [], _ => cases hs
    | [c], hone => exact hone rfl
    | c :: d :: rest, _ => cases hs
  match words with
  | [] => rfl
  | [word] => rfl
  | word :: next :: rest =>
    rw [oneOf.eq_def]
    simp only [List.map_cons] at hnone ⊢
    rw [hnone]
    split
    · next heq => simp at heq
    · next hseq _ =>
      have hword : word ≠ [] := by
        rintro rfl
        cases hseq
      simp [units_text hword]
    · rfl

theorem oneOf_simpleBranches_scope (hwords : words ≠ [])
    (hlong : ∃ word ∈ words, word.length ≠ 1) :
    oneOf (Ast.scope (alts (words.map textTree))).simpleBranches = alts (words.map textTree) := by
  have hone := oneOf_texts hlong
  rw [simpleBranches, simpleBranches_alts hwords, hone, branches_alts hwords, hone]

theorem simplify_words (hmany : 2 ≤ words.length) (hlong : ∃ word ∈ words, word.length ≠ 1) :
    (wordsTree words).simplify =
      .seq (.alts (words.map textTree)) (.look (.word .boundary true)) := by
  have hne : words ≠ [] := by
    rintro rfl
    simp at hmany
  have hinner := oneOf_simpleBranches_scope hne hlong
  have hjoin : (alts (words.map textTree)).andThen (.look (.word .boundary true)) =
      .seq (alts (words.map textTree)) (.look (.word .boundary true)) := by
    match words, hmany with
    | _ :: _ :: _, _ => rfl
  rw [simplify, wordsTree, simpleBranches, simpleBranches, hinner, simpleBranches]
  simp only [oneOf]
  show oneOf (oneOf ((alts (words.map textTree)).andThen (.look (.word .boundary true))).branches).branches = _
  rw [hjoin]
  rfl

end Ast

/-! Room -/

namespace Room

def weight (texts : List (List UInt8)) : Nat := (texts.map List.length).sum

theorem weight_filter (p : List UInt8 → Bool) (texts : List (List UInt8)) :
    weight (texts.filter p) + weight (texts.filter fun text => !p text) = weight texts := by
  induction texts with
  | nil => rfl
  | cons text texts ih =>
    simp only [weight, List.filter_cons] at ih ⊢
    cases p text <;> simp <;> omega

theorem sum_weight_eraseDups (keys : List UInt8) (texts : List (List UInt8)) :
    (keys.eraseDups.map fun key => weight (texts.filter (·.head? == some key))).sum ≤
      weight texts := by
  induction hlength : keys.length using Nat.strongRecOn generalizing keys texts with
  | ind n ih =>
    cases keys with
    | nil => simp
    | cons key keys =>
      have hless : (keys.filter fun b => !b == key).length < n := by
        have hle := (List.filter_sublist (p := fun b => !b == key) (l := keys)).length_le
        simp only [List.length_cons] at hlength
        omega
      have hlater := ih _ hless (keys.filter fun b => !b == key)
        (texts.filter fun text => !(text.head? == some key)) rfl
      have hsame : ∀ other ∈ (keys.filter fun b => !b == key).eraseDups,
          weight (texts.filter (·.head? == some other)) =
            weight ((texts.filter fun text => !(text.head? == some key)).filter
              (·.head? == some other)) := by
        intro other hother
        have hne : other ≠ key := by
          simpa using (List.mem_filter.1 (List.mem_eraseDups.1 hother)).2
        rw [List.filter_filter]
        congr 1
        refine List.filter_congr fun text _ => ?_
        by_cases hhead : text.head? = some other <;> simp [hhead, hne]
      have hsplit := weight_filter (·.head? == some key) texts
      rw [List.eraseDups_cons, List.map_cons, List.sum_cons, List.map_congr_left hsame]
      omega

theorem weight_tailsOf (head : UInt8) (texts : List (List UInt8)) :
    (tailsOf head texts).length + weight (tailsOf head texts) =
      weight (texts.filter (·.head? == some head)) := by
  induction texts with
  | nil => rfl
  | cons text texts ih =>
    simp only [tailsOf, weight] at ih ⊢
    cases text with
    | nil => simpa using ih
    | cons b rest =>
      by_cases hb : b = head
      · simp only [List.head?_cons, hb, beq_self_eq_true, List.filter_cons_of_pos, List.map_cons,
          List.length_cons, List.sum_cons, List.tail_cons]
        omega
      · simpa [List.filter_cons, hb] using ih

theorem chunks_sublist (texts : List (List UInt8)) : (chunks texts).flatten.Sublist texts := by
  fun_induction chunks texts with
  | case1 => simp
  | case2 rest ih => simpa using ih.cons _
  | case3 text rest _ chunk later hchunks ih =>
    rw [hchunks] at ih
    simpa using ih
  | case4 text rest _ hchunks ih => simp

theorem length_chunks_le (texts : List (List UInt8)) :
    (chunks texts).length ≤ texts.length + 1 := by
  fun_induction chunks texts with
  | case1 => simp
  | case2 rest ih => simpa using ih
  | case3 text rest _ chunk later hchunks ih =>
    rw [hchunks] at ih
    simp only [List.length_cons] at ih ⊢
    omega
  | case4 => simp

theorem length_heads_le (texts : List (List UInt8)) : (heads texts).length ≤ texts.length :=
  (eraseDups_sublist _).length_le.trans (List.length_filterMap_le _ _)

theorem treeRoom_le (fuel : Nat) (texts : List (List UInt8)) :
    treeRoom fuel texts ≤ 32 + 80 * (texts.length + weight texts) := by
  induction fuel generalizing texts with
  | zero => simp [treeRoom]
  | succ fuel ih =>
    let cut := (texts.takeWhile List.isEmpty).take 1 ++ texts.dropWhile List.isEmpty
    let full := (chunks cut).filter (!·.isEmpty)
    have hcut : cut.Sublist texts := by
      have h := (List.take_sublist 1 (texts.takeWhile List.isEmpty)).append
        (List.Sublist.refl (texts.dropWhile List.isEmpty))
      rwa [List.takeWhile_append_dropWhile] at h
    have hfull : full.flatten.Sublist texts :=
      (List.filter_sublist.flatten).trans ((chunks_sublist cut).trans hcut)
    have hchunks := length_chunks_le cut
    have hchunk : ∀ chunk ∈ full, (if (heads chunk).length = 1 then perState
        else stepState (heads chunk).length) + total ((heads chunk).map fun head =>
          if (tailsOf head chunk).all List.isEmpty then 0 else treeRoom fuel (tailsOf head chunk)) ≤
        72 * chunk.length + 80 * weight chunk := by
      intro chunk hmem
      have hpos : 0 < chunk.length := by
        have hne := (List.mem_filter.1 hmem).2
        exact List.length_pos_iff.2 (by simpa using hne)
      have hterm : ∀ head ∈ heads chunk, (if (tailsOf head chunk).all List.isEmpty then 0
          else treeRoom fuel (tailsOf head chunk)) ≤
            32 + 80 * weight (chunk.filter (·.head? == some head)) := by
        intro head _
        have hrests := ih (tailsOf head chunk)
        rw [weight_tailsOf] at hrests
        split <;> omega
      have hsum := List.sum_le_sum hterm
      have hheads := length_heads_le chunk
      have hweight : ((heads chunk).map fun head =>
          weight (chunk.filter (·.head? == some head))).sum ≤ weight chunk :=
        sum_weight_eraseDups _ chunk
      rw [List.sum_map_add, List.sum_map_mul_left, List.map_const', List.sum_replicate,
        smul_eq_mul] at hsum
      rw [total_eq_sum, stepState, perState, perStep]
      split <;> omega
    have hsum := List.sum_le_sum hchunk
    have hlengths : (full.map List.length).sum ≤ texts.length := by
      rw [← List.length_flatten]
      exact hfull.length_le
    have hweights : (full.map weight).sum ≤ weight texts := by
      have hflat : (full.map weight).sum = weight full.flatten := by
        simp only [weight, List.map_flatten, List.sum_flatten, List.map_map]
        rfl
      rw [hflat]
      exact (hfull.map _).sum_le_sum fun _ _ => Nat.zero_le _
    have hcount : full.length ≤ (full.map List.length).sum := by
      have h := List.length_le_sum_of_one_le (full.map List.length) fun n hn => ?_
      · rwa [List.length_map] at h
      · obtain ⟨chunk, hmem, rfl⟩ := List.mem_map.1 hn
        have hne := (List.mem_filter.1 hmem).2
        exact List.length_pos_iff.2 (by simpa using hne)
    have hcutLength := hcut.length_le
    have hrooms : treeRoom (fuel + 1) texts = linkState (full.length + ((chunks cut).length - 1)) +
        (full.map fun chunk => (if (heads chunk).length = 1 then perState
          else stepState (heads chunk).length) + total ((heads chunk).map fun head =>
            if (tailsOf head chunk).all List.isEmpty then 0
            else treeRoom fuel (tailsOf head chunk))).sum := by
      rw [treeRoom, total_eq_sum]
    have hbound : (full.map fun chunk => 72 * chunk.length + 80 * weight chunk).sum =
        72 * (full.map List.length).sum + 80 * (full.map weight).sum := by
      rw [List.sum_map_add, List.sum_map_mul_left, List.sum_map_mul_left]
    rw [hbound] at hsum
    rw [hrooms, linkState, perState, perLink]
    simp only [perState] at hsum
    omega

end Room

/-! The room of words -/

open Room

def encoded (word : List Char) : List UInt8 := word.flatMap String.utf8EncodeChar

theorem length_encoded (word : List Char) : (encoded word).length = byteLength word := by
  induction word with
  | nil => rfl
  | cons c word ih =>
    rw [encoded] at ih ⊢
    rw [List.flatMap_cons, List.length_append, String.length_utf8EncodeChar, ih, byteLength_cons]

def Plain (f : CharSet → Nat) : Prop := ∀ c : Char, f (.single c) = perState * c.utf8Size

theorem plain_setRoom (d : Direction) : Plain (setRoom d) := fun c => by
  rw [setRoom, Ast.only?_single]

theorem plain_roughRoom (d : Direction) : Plain (CharSet.roughRoom d) := plain_setRoom d

namespace Ast
variable {f : CharSet → Nat} (hf : Plain f) (d : Direction)
include hf

theorem choice_text (word : List Char) : ((textTree word).choice f d).count = 1 ∧
    ((textTree word).choice f d).room ≤ perState * (1 + byteLength word) ∧
      ∀ texts ∈ ((textTree word).choice f d).texts, texts = [encoded word] := by
  induction word with
  | nil => exact ⟨rfl, Nat.le_refl _, fun texts h => by cases h⟩
  | cons c word ih =>
    have hset : (Ast.set (.single c)).choice f d =
        ⟨some [String.utf8EncodeChar c], 1, perState * c.utf8Size⟩ := by
      rw [choice, only?_single, hf]
      rfl
    cases word with
    | nil =>
      have hone : (textTree [c]).choice f d = _ := hset
      rw [hone]
      refine ⟨rfl, ?_, ?_⟩
      · simp only [byteLength_cons, byteLength_nil, perState]
        omega
      · intro texts h
        simpa [encoded] using (Option.some.inj h).symm
    | cons next word =>
      obtain ⟨hcount, hroom, htexts⟩ := ih
      have hseq : (textTree (c :: next :: word)).choice f d =
          (Ast.seq (.set (.single c)) (textTree (next :: word))).choice f d := rfl
      rw [hseq, choice, hset]
      refine ⟨rfl, ?_, ?_⟩
      · simp only [Choice.total, hcount, Nat.le_refl, if_true]
        rw [byteLength_cons]
        simp only [perState] at hroom ⊢
        omega
      · intro texts h
        cases hlater : ((textTree (next :: word)).choice f d).texts with
        | none => simp [hlater] at h
        | some later =>
          rw [hlater, htexts later hlater] at h
          simpa [encoded] using h.symm

theorem choice_alts {words : List (List Char)} (hwords : words ≠ []) :
    ((alts (words.map textTree)).choice f d).count = words.length ∧
      ((alts (words.map textTree)).choice f d).room ≤
        perState * (words.length + (words.map byteLength).sum) ∧
      ∀ texts ∈ ((alts (words.map textTree)).choice f d).texts, texts = words.map encoded := by
  induction words with
  | nil => exact absurd rfl hwords
  | cons word words ih =>
    obtain ⟨hcount, hroom, htexts⟩ := choice_text hf d word
    cases words with
    | nil =>
      refine ⟨hcount, hroom.trans ?_, htexts⟩
      simp
    | cons next words =>
      have hlater := ih (List.cons_ne_nil _ _)
      have halt : alts ((word :: next :: words).map textTree) =
        .alt (textTree word) (alts ((next :: words).map textTree)) := rfl
      rw [halt, choice]
      generalize (alts ((next :: words).map textTree)).choice f d = others at hlater
      obtain ⟨hcounts, hrooms, hall⟩ := hlater
      refine ⟨congrArg (· + 1) hcounts, ?_, ?_⟩
      · simp only [Choice.total, hcount, Nat.le_refl, if_true, perState, List.map_cons,
          List.sum_cons, List.length_cons] at hroom hrooms ⊢
        omega
      · intro texts h
        cases hfirst : ((textTree word).choice f d).texts with
        | none => simp [hfirst] at h
        | some first =>
          cases hothers : others.texts with
          | none => simp [hfirst, hothers] at h
          | some later =>
            rw [hfirst, hothers, htexts first hfirst, hall later hothers] at h
            exact (Option.some.inj h).symm

end Ast

theorem textsRoom_le (d : Direction) (texts : List (List UInt8)) :
    textsRoom d texts ≤ 64 + 80 * (texts.length + weight texts) := by
  cases d with
  | forward =>
    have htree := treeRoom_le ((texts.map List.length).foldl max 0 + 1) texts
    simp only [textsRoom, perState]
    omega
  | backward =>
    have htree := treeRoom_le (((texts.map List.reverse).map List.length).foldl max 0 + 1)
      (texts.map List.reverse)
    have hweight : weight (texts.map List.reverse) = weight texts := by
      simp [weight, Function.comp_def]
    rw [hweight, List.length_map] at htree
    simp only [textsRoom, perState]
    omega

theorem Ast.total_alts_le {f : CharSet → Nat} (hf : Plain f) (d : Direction)
    {words : List (List Char)} (hwords : words ≠ []) :
    ((alts (words.map textTree)).choice f d).total d ≤
      64 + 80 * (words.length + (words.map byteLength).sum) := by
  obtain ⟨hcount, hroom, htexts⟩ := choice_alts hf d hwords
  rw [Choice.total]
  split
  · rw [perState] at hroom
    omega
  · split
    · next texts hsome =>
      have hle := textsRoom_le d (words.map encoded)
      have hweight : weight (words.map encoded) = (words.map byteLength).sum := by
        simp [weight, Function.comp_def, length_encoded]
      rw [hweight, List.length_map] at hle
      rwa [htexts texts hsome]
    · rw [hcount, linkState, perState, perLink]
      rw [perState] at hroom
      omega

theorem Ast.fitsWith_of_le {f : Direction → CharSet → Nat} {a : Ast}
    (h : ∀ d, (a.choice (f d) d).total d ≤ 10485000) : a.fitsWith f := by
  have hroom : ∀ d, a.room (f d) d ≤ limit := by
    intro d
    have hmarks : (if d = .forward then 2 * perState else 0) ≤ 64 := by split <;> decide
    have hwhole : ((Ast.group 0 none a).choice (f d) d).total d =
      (a.choice (f d) d).total d + if d = .forward then 2 * perState else 0 := rfl
    have hbody := h d
    rw [room, hwhole]
    simp only [linkState, stepState, perState, perLink, perStep, limit] at hmarks ⊢
    omega
  simp only [fitsWith, hroom, decide_true, Bool.and_self]

theorem Ast.fitsWith_words {f : Direction → CharSet → Nat} (hf : ∀ d, Plain (f d))
    {words : List (List Char)} (hwords : words ≠ [])
    (hsmall : words.length + (words.map byteLength).sum ≤ 100000) (l : Look) :
    (Ast.seq (alts (words.map textTree)) (.look l)).fitsWith f := by
  refine fitsWith_of_le fun d => ?_
  have hall := total_alts_le (hf d) d hwords
  show ((alts (words.map textTree)).choice (f d) d).total d + perState ≤ _
  rw [perState]
  omega

end RuleLexer.Regex

namespace RuleLexer
open RuleLexer.Text

/-! Words of a table -/

namespace Words
open Regex

theorem dedupChars_sublist (words : List (List Char)) : (dedupChars words).Sublist words := by
  fun_induction dedupChars words with
  | case1 b rest ih => exact ih.cons _
  | case2 a b rest _ ih => exact ih.cons_cons a
  | case3 => exact .refl _

theorem mem_dedupChars {words : List (List Char)} {word : List Char} :
    word ∈ dedupChars words ↔ word ∈ words := by
  fun_induction dedupChars words with
  | case1 b rest ih => simp [ih]
  | case2 a b rest _ ih => simp [ih]
  | case3 => rfl

theorem insertChars_perm (word : List Char) (words : List (List Char)) :
    (insertChars word words).Perm (word :: words) := by
  induction words with
  | nil => exact .refl _
  | cons w rest ih =>
    rw [insertChars]
    split
    · exact .refl _
    · exact (ih.cons w).trans (.swap ..)

theorem insertedChars_perm (words : List (List Char)) :
    (words.foldr insertChars []).Perm words := by
  induction words with
  | nil => exact .refl _
  | cons word words ih => exact (insertChars_perm word _).trans (ih.cons word)

theorem mem_sortedChars {words : List (List Char)} {word : List Char} :
    word ∈ sortedChars words ↔ word ∈ words := by
  rw [sortedChars, mem_dedupChars, (insertedChars_perm words).mem_iff]

theorem size_sortedChars_le (words : List (List Char)) :
    (sortedChars words).length + ((sortedChars words).map byteLength).sum ≤
      words.length + (words.map byteLength).sum := by
  have hperm := insertedChars_perm words
  have hsub : (sortedChars words).Sublist (words.foldr insertChars []) := dedupChars_sublist _
  have hlength := hsub.length_le
  have hsum := (hsub.map byteLength).sum_le_sum fun _ _ => Nat.zero_le _
  rw [hperm.length_eq] at hlength
  rw [(hperm.map byteLength).sum_eq] at hsum
  omega

/-- Words of which a pattern can be made: none is empty, they are not all the same, one has more than
a single character, and there are not very many. -/
structure Fit (words : List (List Char)) : Prop where
  nonempty : ∀ word ∈ words, word ≠ []
  several : ∃ word ∈ words, 2 ≤ word.length ∧ ∃ other ∈ words, other ≠ word
  few : words.length + (words.map byteLength).sum ≤ 100000

instance (words : List (List Char)) : Decidable (Fit words) :=
  decidable_of_iff ((∀ word ∈ words, word ≠ []) ∧
    (∃ word ∈ words, 2 ≤ word.length ∧ ∃ other ∈ words, other ≠ word) ∧
    words.length + (words.map byteLength).sum ≤ 100000)
    ⟨fun ⟨h₁, h₂, h₃⟩ => ⟨h₁, h₂, h₃⟩, fun ⟨h₁, h₂, h₃⟩ => ⟨h₁, h₂, h₃⟩⟩

theorem Fit.sorted {words : List (List Char)} (h : Fit words) :
    Fit (sortedChars words) ∧ 2 ≤ (sortedChars words).length := by
  obtain ⟨word, hword, hlong, other, hother, hne⟩ := h.several
  rw [← mem_sortedChars] at hword hother
  refine ⟨⟨fun w hw => h.nonempty w (mem_sortedChars.1 hw),
    ⟨word, hword, hlong, other, hother, hne⟩, (size_sortedChars_le words).trans h.few⟩, ?_⟩
  generalize sortedChars words = sorted at hword hother
  match sorted with
  | [] => cases hword
  | [only] =>
    rw [List.mem_singleton] at hword hother
    exact absurd (hother.trans hword.symm) hne
  | _ :: _ :: _ => simp

end Words

theorem Regex.moves_text {word : List Char} (h : word ≠ []) (n : Nat) :
    ((Regex.textTree word).build n).1.moves := by
  obtain ⟨s, hset | ⟨next, rest, -, hseq⟩⟩ := Regex.Ast.exists_set_or_seq h
  · rw [hset]
    rfl
  · rw [hseq]
    rfl

theorem Regex.moves_alts {words : List (List Char)} (hwords : words ≠ [])
    (h : ∀ word ∈ words, word ≠ []) (n : Nat) :
    ((Regex.Ast.alts (words.map Regex.textTree)).build n).1.moves := by
  induction words generalizing n with
  | nil => exact absurd rfl hwords
  | cons word words ih =>
    obtain ⟨hword, hrest⟩ := List.forall_mem_cons.1 h
    cases words with
    | nil => exact Regex.moves_text hword n
    | cons next words =>
      exact Bool.and_eq_true_iff.2 ⟨Regex.moves_text hword _, ih (List.cons_ne_nil _ _) hrest _⟩

/-- A pattern for words can be read, and what it matches is never empty. -/
theorem Words.Fit.shows {words : List (List Char)} (h : Words.Fit words) {flags : PatternFlags}
    (hcase : flags.ignoreCase = false) : Pattern.shows (fun body _ => body.moves) flags
      (Words.chars words [] ['\\', 'b']) none := by
  obtain ⟨hfit, hmany⟩ := h.sorted
  have hne : Words.sortedChars words ≠ [] := by
    intro hnil
    simp [hnil] at hmany
  obtain ⟨long, hlong, hlength, -⟩ := hfit.several
  have hparse := Regex.parse_words hcase hne
  have hsimple := Regex.Ast.simplify_words hmany ⟨long, hlong, by omega⟩
  have htree : Pattern.tree? flags (Words.chars words [] ['\\', 'b']) none =
      some (.seq (.alts ((Words.sortedChars words).map Regex.textTree))
        (.look (.word .boundary true))) := by
    rw [← hsimple, Pattern.tree?]
    simp only [Option.elim, List.append_nil, Words.chars, List.nil_append]
    rw [hparse]
    rfl
  have hfits := Regex.Ast.fitsWith_words Regex.plain_roughRoom hne hfit.few (.word .boundary true)
  have hmoves := Regex.moves_alts hne hfit.nonempty 1
  rw [Pattern.shows, htree, Option.any_some, hfits, Bool.true_and]
  exact Bool.or_eq_true_iff.2 (.inl hmoves)

end RuleLexer
