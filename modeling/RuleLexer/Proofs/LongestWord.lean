import Mathlib.Data.List.Sort
import RuleLexer.Proofs.FirstWord

/-! Which of its words a pattern for words matches. Longer words stand in front of shorter ones, so
the first word that comes is the longest; and the order depends on nothing but the words, so neither
does the pattern. -/
namespace RuleLexer
open RuleLexer.Text RuleLexer.Regex

/-! The order of the words -/

namespace Words

theorem before_iff {a b : String} : before a b ↔
    b.utf8ByteSize < a.utf8ByteSize ∨ (a.utf8ByteSize = b.utf8ByteSize ∧ a ≤ b) := by
  rw [before]
  split
  · next hsame => simp [hsame]
  · next hother => simp [hother]

theorem before_antisymm {a b : String} (h : before a b) (h' : before b a) : a = b := by
  rcases before_iff.1 h with h | ⟨_, hle⟩ <;> rcases before_iff.1 h' with h' | ⟨_, hle'⟩
  · omega
  · omega
  · omega
  · exact le_antisymm hle hle'

instance : Std.Total fun a b => before a b = true where
  total a b := by
    rw [before_iff, before_iff]
    rcases Nat.lt_trichotomy a.utf8ByteSize b.utf8ByteSize with h | h | h
    · exact .inr (.inl h)
    · exact (le_total a b).imp (fun hle => .inr ⟨h, hle⟩) fun hle => .inr ⟨h.symm, hle⟩
    · exact .inl (.inl h)

instance : IsTrans String fun a b => before a b = true where
  trans a b c h h' := by
    rw [before_iff]
    rcases before_iff.1 h with h | ⟨hsame, hle⟩ <;>
      rcases before_iff.1 h' with h' | ⟨hsame', hle'⟩
    · exact .inl (h'.trans h)
    · exact .inl (hsame' ▸ h)
    · exact .inl (hsame ▸ h')
    · exact .inr ⟨hsame.trans hsame', hle.trans hle'⟩

theorem inserted_eq (words : List String) :
    words.foldr insert [] = words.insertionSort fun a b => before a b := by
  have hinsert : ∀ word rest, insert word rest =
      List.orderedInsert (fun a b => before a b) word rest := by
    intro word rest
    induction rest with
    | nil => rfl
    | cons w rest ih => rw [insert, List.orderedInsert_cons, ih]
  induction words with
  | nil => rfl
  | cons word words ih => rw [List.foldr_cons, hinsert, ih, List.insertionSort_cons]

theorem mem_dedup {words : List String} {word : String} : word ∈ dedup words ↔ word ∈ words := by
  fun_induction dedup words with
  | case1 b rest ih => simp [ih]
  | case2 a b rest _ ih => simp [ih]
  | case3 => rfl

theorem mem_sorted {words : List String} {word : String} : word ∈ sorted words ↔ word ∈ words := by
  rw [sorted, mem_dedup, inserted_eq, List.mem_insertionSort]

theorem texts_ne_nil {list : List String} (h : list ≠ []) :
    (sorted list).map String.toList ≠ [] := by
  obtain ⟨word, hword⟩ := List.exists_mem_of_ne_nil list h
  exact List.ne_nil_of_mem (List.mem_map_of_mem (mem_sorted.2 hword))

theorem pairwise_dedup {words : List String} (h : words.Pairwise fun a b => before a b) :
    (dedup words).Pairwise fun a b => before a b ∧ a ≠ b := by
  fun_induction dedup words with
  | case1 b rest ih => exact ih h.of_cons
  | case2 a b rest hne ih =>
    refine List.pairwise_cons.2 ⟨fun c hc => ?_, ih h.of_cons⟩
    rw [mem_dedup] at hc
    refine ⟨List.rel_of_pairwise_cons h hc, ?_⟩
    -- an entry that comes again further back would have everything between equal to it
    rintro rfl
    rcases List.mem_cons.1 hc with hsame | hrest
    · exact hne hsame
    · exact hne (before_antisymm (List.rel_of_pairwise_cons h List.mem_cons_self)
        (List.rel_of_pairwise_cons h.of_cons hrest))
  | case3 rest hshort =>
    cases rest with
    | nil => exact .nil
    | cons a rest =>
      cases rest with
      | nil => exact List.pairwise_singleton _ a
      | cons b rest => exact absurd rfl (hshort a b rest)

theorem pairwise_sorted (words : List String) :
    (sorted words).Pairwise fun a b => before a b ∧ a ≠ b := by
  rw [sorted, inserted_eq]
  exact pairwise_dedup (List.pairwise_insertionSort _ words)

theorem sorted_eq_of_mem_iff {words other : List String} (h : ∀ word, word ∈ other ↔ word ∈ words) :
    sorted other = sorted words := by
  have hnodup : ∀ words, (sorted words).Nodup := fun words =>
    (pairwise_sorted words).imp fun hab => hab.2
  have hperm : (sorted other).Perm (sorted words) :=
    (List.perm_ext_iff_of_nodup (hnodup _) (hnodup _)).2 fun word => by
      rw [mem_sorted, mem_sorted, h]
  exact hperm.eq_of_pairwise (fun a b _ _ hab hba => before_antisymm hab.1 hba.1)
    (pairwise_sorted other) (pairwise_sorted words)

structure Longest (list : List String) (text : List Char) (word : String) : Prop where
  listed : word ∈ list
  begins : word.toList <+: text
  longest : ∀ other ∈ list, other.toList <+: text → other.utf8ByteSize ≤ word.utf8ByteSize

theorem Longest.unique {list : List String} {text : List Char} {word other : String}
    (h : Longest list text word) (h' : Longest list text other) : other = word := by
  have hsize := Nat.le_antisymm (h.longest other h'.listed h'.begins)
    (h'.longest word h.listed h.begins)
  rw [← byteLength_toList, ← byteLength_toList] at hsize
  obtain ⟨rest, hrest⟩ := h.begins
  obtain ⟨rest', hrest'⟩ := h'.begins
  have hpasses : (Cursor.start text).Passes word.toList ⟨_, rest, _⟩ := ⟨hrest.symm, rfl, rfl⟩
  have hpasses' : (Cursor.start text).Passes other.toList ⟨_, rest', _⟩ := ⟨hrest'.symm, rfl, rfl⟩
  exact String.toList_inj.1 (hpasses'.eq_of_offset hpasses (by simp [Cursor.start, hsize])).1

theorem find?_sorted_eq_some_iff {list : List String} {text : List Char} {word : String} :
    (sorted list).find? (·.toList.isPrefixOf text) = some word ↔ Longest list text word := by
  have hlongest : ∀ {word}, (sorted list).find? (·.toList.isPrefixOf text) = some word →
      Longest list text word := by
    intro word hfind
    obtain ⟨hbegins, front, back, hsplit, hfront⟩ := List.find?_eq_some_iff_append.1 hfind
    have horder : ∀ other ∈ back, before word other ∧ word ≠ other := by
      have hpairs := pairwise_sorted list
      rw [hsplit] at hpairs
      exact fun other => List.rel_of_pairwise_cons (List.pairwise_append.1 hpairs).2.1
    have hlisted : word ∈ sorted list := by simp [hsplit]
    refine ⟨mem_sorted.1 hlisted, List.isPrefixOf_iff_prefix.1 hbegins, ?_⟩
    intro other hother hother'
    rw [← mem_sorted, hsplit, List.mem_append, List.mem_cons] at hother
    rcases hother with hother | rfl | hother
    · have hmisses := hfront other hother
      rw [List.isPrefixOf_iff_prefix.2 hother'] at hmisses
      cases hmisses
    · exact Nat.le_refl _
    · have hbefore := before_iff.1 (horder other hother).1
      omega
  refine ⟨hlongest, fun h => ?_⟩
  cases hfind : (sorted list).find? (·.toList.isPrefixOf text) with
  | none =>
    have hnot := List.find?_eq_none.1 hfind word (mem_sorted.2 h.listed)
    exact absurd (List.isPrefixOf_iff_prefix.2 h.begins) hnot
  | some found => rw [h.unique (hlongest hfind)]

end Words

/-! Patterns -/

theorem compile_words {list : List String} (hlist : list ≠ []) :
    let tree := choiceTree ((Words.sorted list).map String.toList)
    Pattern.compile (words list "" "") none .none =
      if tree.fits then .ok ⟨words list "" "", none, tree.regex, 0⟩ else .error .tooLarge := by
  intro tree
  have hsorted := Words.texts_ne_nil hlist
  obtain ⟨read, items, group, hread, hitems, hgroup, hdepth, hvalue⟩ :=
    @exists_reads_words .none rfl _ hsorted [')']
  have hparse := parse_of_reads hread hitems hgroup (by simpa using hdepth)
  have hsource : (words list "" "").toList = "(?:".toList ++
      ['|'].intercalate (((Words.sorted list).map String.toList).map Words.escape) ++ [')'] := by
    simp [toList_words, Words.chars, Words.map_toList_sorted]
  have htree : Pattern.tree? .none (words list "" "").toList none = some tree := by
    rw [Pattern.tree?, hsource, Option.elim_none, List.append_nil, List.append_assoc, hparse]
    simp [Except.toOption, value_sequence, hvalue, Ast.seqs, tree, choiceTree]
  have hgroups : tree.regex.groupCount = 0 := by
    rw [Regex.groupCount, Ast.regex, groups_choiceTree hsorted]
    rfl
  rw [Pattern.compile_eq_of_tree htree, hgroups]
  rfl

/-- What such a pattern matches at a place is the first of its words that comes. -/
theorem matchAt_words {list : List String} (hlist : list ≠ []) {pattern : Pattern}
    (hpattern : Pattern.compile (words list "" "") none .none = .ok pattern) (place : Cursor) :
    pattern.matchAt place =
      ((Words.sorted list).find? (·.toList.isPrefixOf place.ahead)).map fun word =>
        ⟨place.offset, place.offset + word.utf8ByteSize, []⟩ := by
  let tree := choiceTree ((Words.sorted list).map String.toList)
  have hparts : pattern = ⟨words list "" "", none, tree.regex, 0⟩ := by
    rw [compile_words hlist] at hpattern
    split at hpattern
    · exact (Except.ok.inj hpattern).symm
    · cases hpattern
  have hrun := run_choiceTree (Words.texts_ne_nil hlist) 1 tree.regex.slotCount
    place.passed.head? place.offset place.ahead
  rw [List.find?_map, Option.map_map] at hrun
  rw [hparts, Pattern.matchAt, Regex.matchAt]
  refine (congrArg _ hrun).trans ?_
  rw [Option.map_map]
  simp only [Function.comp_def, byteLength_toList]
  rfl

/-- A pattern for some words matches where one of them comes, and then the longest of those that do,
in whatever order they are listed and however often. No such pattern is refused but for its size. -/
theorem words_find_longest (list : List String) (hlist : list ≠ []) :
    (∀ e, Pattern.compile (words list "" "") none .none = .error e →
      e = .tooLarge ∧ 3900 < list.length + (list.map String.utf8ByteSize).sum) ∧
    (∀ pattern, Pattern.compile (words list "" "") none .none = .ok pattern → ∀ place : Cursor,
      ((∃ found, pattern.matchAt place = some found) ↔
        ∃ word ∈ list, word.toList <+: place.ahead) ∧
      ∀ found, pattern.matchAt place = some found ↔ ∃ word, Words.Longest list place.ahead word ∧
        ⟨place.offset, place.offset + word.utf8ByteSize, []⟩ = found) ∧
    ∀ other, (∀ word, word ∈ other ↔ word ∈ list) → ∀ before after : String,
      words other before after = words list before after := by
  refine ⟨fun e he => ?_, fun pattern hpattern place => ?_, fun other hother before after => ?_⟩
  · rw [compile_words hlist] at he
    split at he
    · cases he
    · next hfits =>
      refine ⟨(Except.error.inj he).symm, Nat.lt_of_not_le fun hsmall => hfits ?_⟩
      refine fits_choiceTree (Words.texts_ne_nil hlist) ?_
      have hsize := Words.size_sortedChars_le (list.map String.toList)
      rw [← Words.map_toList_sorted] at hsize
      refine hsize.trans ?_
      simpa [Function.comp_def, byteLength_toList] using hsmall
  · rw [matchAt_words hlist hpattern]
    constructor
    · rw [← Option.isSome_iff_exists, Option.isSome_map, List.find?_isSome]
      simp only [Words.mem_sorted, List.isPrefixOf_iff_prefix]
    · intro found
      simp only [Option.map_eq_some_iff, Words.find?_sorted_eq_some_iff]
  · rw [words, words, Words.sorted_eq_of_mem_iff hother]

/-- Of "ab" and "a", listed in one order or the other and one of them twice, the longer is found. -/
theorem words_find_longest_two : ["a", "ab"] ≠ [] ∧
    (∃ pattern, Pattern.compile (words ["a", "ab"] "" "") none .none = .ok pattern ∧
      pattern.matchAt (Cursor.start "abc".toList) = some ⟨0, 2, []⟩) ∧
    words ["ab", "a", "ab"] "(" ")" = words ["a", "ab"] "(" ")" := by
  have hlist : ["a", "ab"] ≠ [] := by decide
  obtain ⟨herror, hmatch, hsame⟩ := words_find_longest ["a", "ab"] hlist
  refine ⟨hlist, ?_, hsame _ (by simp [or_comm]) "(" ")"⟩
  cases hcompile : Pattern.compile (words ["a", "ab"] "" "") none .none with
  | error e => exact absurd (herror e hcompile).2 (by decide)
  | ok pattern =>
    refine ⟨pattern, rfl, ?_⟩
    obtain ⟨hiff, hfound⟩ := hmatch pattern hcompile (Cursor.start "abc".toList)
    obtain ⟨found, h⟩ := hiff.2 ⟨"a", by simp, by decide⟩
    obtain ⟨word, hword, rfl⟩ := (hfound found).1 h
    have hlong := hword.longest "ab" (by simp) (by decide)
    have hlisted : word = "a" ∨ word = "ab" := by simpa using hword.listed
    rcases hlisted with rfl | rfl
    · exact absurd hlong (by decide)
    · exact h

end RuleLexer
