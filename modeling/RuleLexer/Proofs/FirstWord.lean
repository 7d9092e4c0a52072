import RuleLexer.Proofs.Finding
import RuleLexer.Proofs.WordPatterns

/-! A choice between texts. A run of texts that are tried in order finds the first of them that the
text begins with: the threads of a place are what is left of the texts that have come so far, and
there is none for a text behind one that has come to its end. -/
namespace RuleLexer.Regex
open RuleLexer.Text

/-! Texts as nodes -/

def textNode : List Char → Node
  | [] => .empty
  | [c] => .set (.single c)
  | c :: rest => .seq (.set (.single c)) (textNode rest)

theorem build_textTree (word : List Char) (n : Nat) :
    (textTree word).build n = (textNode word, n) := by
  induction word with
  | nil => rfl
  | cons c word ih =>
    cases word with
    | nil => rfl
    | cons d word =>
      show Builder.seq (fun n => (.set (.single c), n)) (textTree (d :: word)).build n = _
      simp only [Builder.seq, ih]
      rfl

def following : List Char → List Node
  | [] => []
  | rest => [textNode rest]

def Frontier.addText (σ : Slots) (f : Frontier) : List Char → Frontier
  | [] => f.addMatch σ
  | c :: rest => f.addThread ⟨.single c, following rest, σ⟩

theorem expand_textNode (p : Place) (σ : Slots) (f : Frontier) (word : List Char) :
    (textNode word).expand p [] (expandAll p []) σ f = f.addText σ word := by
  cases word with
  | nil => rfl
  | cons c word => cases word <;> rfl

theorem expandAll_following (p : Place) (σ : Slots) (f : Frontier) (rest : List Char) :
    expandAll p (following rest) σ f = f.addText σ rest := by
  cases rest with
  | nil => rfl
  | cons c rest => exact expand_textNode p σ f (c :: rest)

/-! The threads of some texts -/

/-- The threads of texts in order; behind a text that is at its end there is none. -/
def threadsOf (σ : Slots) : List (List Char) → List Thread
  | (c :: rest) :: words => ⟨.single c, following rest, σ⟩ :: threadsOf σ words
  | _ => []

/-- What is left of the texts that go on with a character, up to one that is at its end. -/
def leftBehind (c : Char) : List (List Char) → List (List Char)
  | (d :: rest) :: words => if d = c then rest :: leftBehind c words else leftBehind c words
  | _ => []

def matchedBy (σ : Slots) (words : List (List Char)) : Option Slots :=
  if [] ∈ words then some σ else none

section frontier
variable {σ : Slots} {f : Frontier}

theorem foldl_addText_of_matched (h : f.matched.isSome) (words : List (List Char)) :
    words.foldl (Frontier.addText σ) f = f := by
  induction words with
  | nil => rfl
  | cons word words ih =>
    have hsame : f.addText σ word = f := by
      cases word <;> simp [Frontier.addText, Frontier.addMatch, Frontier.addThread, h]
    rw [List.foldl_cons, hsame, ih]

theorem foldl_addText (h : f.matched = none) (words : List (List Char)) :
    words.foldl (Frontier.addText σ) f = { f with
      threads := (threadsOf σ words).reverse ++ f.threads
      matched := matchedBy σ words } := by
  induction words generalizing f with
  | nil => simp [threadsOf, matchedBy, ← h]
  | cons word words ih =>
    cases word with
    | nil =>
      have hmatch : f.addText σ [] = { f with matched := some σ } := by
        simp [Frontier.addText, Frontier.addMatch, h]
      rw [List.foldl_cons, hmatch, foldl_addText_of_matched rfl]
      simp [threadsOf, matchedBy]
    | cons c rest =>
      let f' : Frontier := { f with threads := ⟨.single c, following rest, σ⟩ :: f.threads }
      have hthread : f.addText σ (c :: rest) = f' := by
        simp [Frontier.addText, Frontier.addThread, h, f']
      rw [List.foldl_cons, hthread, ih (f := f') h]
      simp [threadsOf, matchedBy, f']

theorem advance_threadsOf (p : Place) (c : Char) (words : List (List Char)) (f : Frontier) :
    advance p c (threadsOf σ words) f = (leftBehind c words).foldl (Frontier.addText σ) f := by
  fun_induction threadsOf σ words generalizing f with
  | case1 d rest words ih =>
    rw [advance]
    split
    · next hmatched => rw [foldl_addText_of_matched hmatched]
    · rw [CharSet.mem_single, leftBehind, ih]
      by_cases hd : d = c <;> simp [hd, expandAll_following]
  | case2 words hshort =>
    cases words with
    | nil => rfl
    | cons word words =>
      cases word with
      | nil => rfl
      | cons c rest => exact absurd rfl (hshort c rest words)

end frontier

/-! The first text -/

theorem find?_isPrefixOf_nil (words : List (List Char)) :
    words.find? (·.isPrefixOf []) = if [] ∈ words then some [] else none := by
  induction words with
  | nil => rfl
  | cons word words ih => cases word <;> simp [ih]

theorem find?_isPrefixOf_cons (c : Char) (text : List Char) (words : List (List Char)) :
    words.find? (·.isPrefixOf (c :: text)) =
      (((leftBehind c words).find? (·.isPrefixOf text)).map (c :: ·)).or
        (if [] ∈ words then some [] else none) := by
  induction words with
  | nil => rfl
  | cons word words ih =>
    cases word with
    | nil => simp [leftBehind]
    | cons d rest =>
      rw [leftBehind]
      by_cases hd : d = c
      · by_cases hrest : rest.isPrefixOf text = true <;> simp [hd, hrest, ih]
      · simp [hd, ih]

theorem find?_singletons (c : Char) (text cs : List Char) :
    (cs.map ([·])).find? (·.isPrefixOf (c :: text)) = if c ∈ cs then some [c] else none := by
  induction cs with
  | nil => rfl
  | cons d cs ih => by_cases hd : c = d <;> simp [hd, ih, eq_comm (a := d)]

theorem scan_cons (best : Option Found) (offset : Nat) (threads : List Thread) (c : Char)
    (text : List Char) : scan best offset threads (c :: text) =
      let stop := offset + c.utf8Size
      let f := advance ⟨some c, text.head?, stop⟩ c threads .none
      scan ((f.found? stop).or best) stop f.threads.reverse text := by
  cases threads with
  | nil =>
    cases text <;> rfl
  | cons t threads => rfl

theorem scan_threadsOf (σ : Slots) (words : List (List Char)) (best : Option Found) (offset : Nat)
    (text : List Char) :
    scan (((matchedBy σ words).map (⟨offset, ·⟩)).or best) offset (threadsOf σ words) text =
      ((words.find? (·.isPrefixOf text)).map fun word =>
        ⟨offset + byteLength word, σ⟩).or best := by
  induction text generalizing words best offset with
  | nil =>
    have hscan : ∀ best, scan best offset (threadsOf σ words) [] = best := fun best => by
      cases threadsOf σ words <;> rfl
    rw [hscan, find?_isPrefixOf_nil, matchedBy]
    split <;> rfl
  | cons c text ih =>
    -- a text that is at its end here stays the best match if none of those that go on comes
    have hfrontier := foldl_addText (σ := σ) (f := .none) rfl (leftBehind c words)
    rw [scan_cons]
    simp only [advance_threadsOf, hfrontier, Frontier.found?]
    rw [show Frontier.none.threads = [] from rfl, List.append_nil, List.reverse_reverse, ih,
      find?_isPrefixOf_cons, matchedBy]
    cases (leftBehind c words).find? (·.isPrefixOf text) with
    | none => split <;> rfl
    | some word => simp [Nat.add_assoc]

/-! Runs -/

theorem entered_addText (σ : Slots) (f : Frontier) (word : List Char) :
    (f.addText σ word).entered = f.entered := by
  cases word <;> simp only [Frontier.addText, Frontier.addMatch, Frontier.addThread] <;>
    split <;> rfl

theorem addText_with_entered (σ : Slots) (f : Frontier) (entered : Nat) (word : List Char) :
    Frontier.addText σ { f with entered } word = { f.addText σ word with entered } := by
  cases word <;> simp only [Frontier.addText, Frontier.addMatch, Frontier.addThread] <;>
    split <;> rfl

theorem foldl_addText_with_entered (σ : Slots) (f : Frontier) (entered : Nat)
    (words : List (List Char)) : words.foldl (Frontier.addText σ) { f with entered } =
      { words.foldl (Frontier.addText σ) f with entered } := by
  induction words generalizing f with
  | nil => rfl
  | cons word words ih => rw [List.foldl_cons, addText_with_entered, ih, List.foldl_cons]

/-- Nothing with a number from `n` on has been entered. -/
def Frontier.Fresh (f : Frontier) (n : Nat) : Prop := ∀ i, n ≤ i → f.entered.testBit i = false

theorem expand_alts {words : List (List Char)} (hwords : words ≠ []) {n : Nat} {f : Frontier}
    (hfresh : f.Fresh n) (p : Place) (σ : Slots) : ∃ entered,
      ((Ast.alts (words.map textTree)).build n).1.expand p [] (expandAll p []) σ f =
        { words.foldl (Frontier.addText σ) f with entered } := by
  induction words generalizing n f with
  | nil => exact absurd rfl hwords
  | cons word words ih =>
    cases words with
    | nil =>
      refine ⟨(f.addText σ word).entered, ?_⟩
      show ((textTree word).build n).1.expand p [] (expandAll p []) σ f = _
      rw [build_textTree, expand_textNode]
      rfl
    | cons next words =>
      let f' : Frontier := { f with entered := f.entered ||| 1 <<< n }
      have hlater : (f'.addText σ word).Fresh (n + 1) := by
        intro i hi
        have hother : n ≠ i := by omega
        rw [entered_addText, Frontier.testBit_enter, hfresh i (by omega)]
        simp [hother]
      obtain ⟨entered, h⟩ := ih (List.cons_ne_nil _ _) hlater
      refine ⟨entered, ?_⟩
      have hbuild : ((Ast.alts ((word :: next :: words).map textTree)).build n).1 =
          .alt n (textNode word) ((Ast.alts ((next :: words).map textTree)).build (n + 1)).1 := by
        show (Node.alt n ((textTree word).build (n + 1)).1 ((Ast.alts ((next :: words).map
          textTree)).build ((textTree word).build (n + 1)).2).1) = _
        rw [build_textTree]
      rw [hbuild, Node.expand, Frontier.enter, hfresh n (Nat.le_refl n)]
      simp only [Bool.false_eq_true, if_false]
      rw [expand_textNode, h, addText_with_entered, foldl_addText_with_entered]
      rfl

theorem run_alts {words : List (List Char)} (hwords : words ≠ []) (n slotCount : Nat)
    (before : Option Char) (offset : Nat) (text : List Char) :
    ((Ast.alts (words.map textTree)).build n).1.run slotCount before offset text =
      (words.find? (·.isPrefixOf text)).map fun word =>
        ⟨offset + byteLength word, List.replicate slotCount none⟩ := by
  have hfresh : Frontier.none.Fresh n := fun i _ => Nat.zero_testBit i
  obtain ⟨entered, h⟩ :=
    expand_alts hwords hfresh ⟨before, text.head?, offset⟩ (List.replicate slotCount none)
  have hscan := scan_threadsOf (List.replicate slotCount none) words none offset text
  rw [Option.or_none, Option.or_none] at hscan
  rw [Node.run, expandAll, h, foldl_addText rfl, ← hscan]
  simp [Frontier.found?, Frontier.none]

theorem run_set (s : CharSet) (slotCount : Nat) (before : Option Char) (offset : Nat)
    (text : List Char) : (Node.set s).run slotCount before offset text =
      (text.head?.filter s.mem).map fun c =>
        ⟨offset + c.utf8Size, List.replicate slotCount none⟩ := by
  have hrun : (Node.set s).run slotCount before offset text =
    scan none offset [⟨s, [], List.replicate slotCount none⟩] text := rfl
  rw [hrun]
  cases text with
  | nil => rfl
  | cons c text =>
    by_cases hc : s.mem c = true
    · rw [scan_thread hc]
      simp [expandAll, Frontier.addMatch, Frontier.none, Frontier.found?, scan, hc]
    · simp [scan, advance, hc, Frontier.none, Frontier.found?]

/-! The whole pattern -/

def choiceTree (words : List (List Char)) : Ast :=
  (Ast.scope (.scope (.alts (words.map textTree)))).simplify

theorem oneOf_sets {sets : List CharSet} (hsets : sets ≠ []) :
    Ast.oneOf (sets.map .set) = .set (.unions sets) := by
  have hall : Ast.setOf? (sets.map .set) = some (.unions sets) := by
    rw [Ast.setOf?, Option.map_eq_some_iff]
    refine ⟨sets, ?_, rfl⟩
    clear hsets
    induction sets with
    | nil => rfl
    | cons s sets ih =>
      rw [List.map_cons, List.mapM_cons, ih]
      rfl
  obtain ⟨s, sets, rfl⟩ := List.exists_cons_of_ne_nil hsets
  cases sets with
  | nil => rfl
  | cons t sets =>
    rw [List.map_cons, List.map_cons] at hall ⊢
    rw [Ast.oneOf.eq_def]
    simp only [hall]

theorem choiceTree_cases {words : List (List Char)} (hwords : words ≠ []) :
    choiceTree words = .alts (words.map textTree) ∨
      ∃ cs : List Char, words = cs.map ([·]) ∧
        choiceTree words = .set (.unions (cs.map .single)) := by
  rw [choiceTree, Ast.simplify, Ast.simpleBranches]
  by_cases hlong : ∃ word ∈ words, word.length ≠ 1
  · left
    rw [Ast.oneOf_simpleBranches_scope hwords hlong, Ast.branches_alts hwords,
      Ast.oneOf_texts hlong]
  · right
    have hchars : words = words.flatten.map ([·]) := by
      have hone : ∀ word ∈ words, word.length = 1 := by simpa using hlong
      clear hlong hwords
      induction words with
      | nil => rfl
      | cons word words ih =>
        obtain ⟨hword, hrest⟩ := List.forall_mem_cons.1 hone
        obtain ⟨c, rfl⟩ := List.length_eq_one_iff.1 hword
        simpa using ih hrest
    refine ⟨words.flatten, hchars, ?_⟩
    have htexts : words.map textTree = (words.flatten.map CharSet.single).map .set := by
      conv_lhs => rw [hchars]
      simp only [List.map_map]
      rfl
    have hsets : words.flatten.map CharSet.single ≠ [] := by
      intro hnil
      rw [List.map_eq_nil_iff] at hnil
      rw [hnil] at hchars
      exact hwords hchars
    rw [Ast.simpleBranches, Ast.simpleBranches_alts hwords, htexts, oneOf_sets hsets]
    rfl

/-- A run of a choice between texts finds the first of them that comes. -/
theorem run_choiceTree {words : List (List Char)} (hwords : words ≠ []) (n slotCount : Nat)
    (before : Option Char) (offset : Nat) (text : List Char) :
    ((choiceTree words).build n).1.run slotCount before offset text =
      (words.find? (·.isPrefixOf text)).map fun word =>
        ⟨offset + byteLength word, List.replicate slotCount none⟩ := by
  rcases choiceTree_cases hwords with htree | ⟨cs, rfl, htree⟩
  · rw [htree, run_alts hwords]
  · rw [htree]
    refine (run_set _ slotCount before offset text).trans ?_
    cases text with
    | nil => simp
    | cons c text =>
      rw [find?_singletons]
      by_cases hc : c ∈ cs <;> simp [CharSet.mem_unions, CharSet.mem_single, hc]

theorem groups_choiceTree {words : List (List Char)} (hwords : words ≠ []) :
    (choiceTree words).groups = [] := by
  have htext : ∀ word, (textTree word).groups = [] := by
    intro word
    induction word with
    | nil => rfl
    | cons c word ih =>
      cases word with
      | nil => rfl
      | cons d word => exact ih
  rcases choiceTree_cases hwords with htree | ⟨cs, -, htree⟩
  · rw [htree]
    clear htree
    induction words with
    | nil => exact absurd rfl hwords
    | cons word words ih =>
      cases words with
      | nil => exact htext word
      | cons next words =>
        show (textTree word).groups ++ (Ast.alts ((next :: words).map textTree)).groups = []
        rw [htext, ih (List.cons_ne_nil _ _), List.append_nil]
  · rw [htree]
    rfl

theorem rows_unions_single (cs : List Char) (hcs : cs ≠ []) :
    (CharSet.unions (cs.map .single)).rows = cs.length := by
  induction cs with
  | nil => exact absurd rfl hcs
  | cons c cs ih =>
    have hone : (CharSet.single c).rows = 1 := by
      simp [CharSet.single, CharSet.rows, CharSet.allCodes]
    cases cs with
    | nil => exact hone
    | cons d cs =>
      show (CharSet.single c).rows + (CharSet.unions ((d :: cs).map .single)).rows = _
      rw [hone, ih (List.cons_ne_nil _ _), List.length_cons (a := c), Nat.add_comm]

theorem fits_choiceTree {words : List (List Char)} (hwords : words ≠ [])
    (hsmall : words.length + (words.map byteLength).sum ≤ 3900) : (choiceTree words).fits := by
  refine Ast.fitsWith_of_le (f := Room.setRoom) fun d => ?_
  rcases choiceTree_cases hwords with htree | ⟨cs, rfl, htree⟩
  · have hall := Ast.total_alts_le (plain_setRoom d) d hwords
    rw [htree]
    omega
  · have hcs : cs ≠ [] := by simpa using hwords
    have hrows := CharSet.setRoom_le_rows d (.unions (cs.map .single))
    have hbytes : cs.length ≤ ((cs.map ([·])).map byteLength).sum := by
      have h := List.length_le_sum_of_one_le (((cs.map ([·])).map byteLength)) fun n hn => ?_
      · simpa using h
      · simp only [List.map_map, List.mem_map, Function.comp_apply] at hn
        obtain ⟨c, -, rfl⟩ := hn
        rw [byteLength_singleton]
        exact c.utf8Size_pos
    rw [rows_unions_single cs hcs] at hrows
    rw [List.length_map] at hsmall
    rw [htree]
    show Room.setRoom d _ ≤ _
    omega

end RuleLexer.Regex
