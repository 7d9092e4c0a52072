import RuleLexer.Listing
import RuleLexer.Proofs.Drain
import RuleLexer.Proofs.Quoting
import RuleLexer.Proofs.StyleSheet

/-! Tokens listed line by line. A line holds no line break but the one it ends with and its first
tab stands behind the category, so that the lines can be told apart and read: categories and texts
are all there, and since tokens cover their text, so is the text. -/
namespace RuleLexer
open RuleLexer.Text RuleLexer.Coverage

namespace Category

theorem ofPath?_fullName_of_mem : ∀ c ∈ all, ofPath? c.fullName = some c ∧
    c.fullName.toList.all Quoted.isPlain = true := by
  decide +kernel

theorem ofPath?_fullName (c : Category) : ofPath? c.fullName = some c :=
  (ofPath?_fullName_of_mem c c.mem_all).1

theorem isPlain_of_mem_fullName {c : Category} {d : Char} (h : d ∈ c.fullName.toList) :
    Quoted.isPlain d = true :=
  List.all_eq_true.1 (ofPath?_fullName_of_mem c c.mem_all).2 d h

end Category

namespace Listing

def entry (t : Token) : Category × String := (t.category, t.text)

def line (t : Token) : List Char :=
  t.category.fullName.toList ++ '\t' :: Quoted.encode t.text.toList

/-- Reads a line: a category up to the first tab, and a quoted text behind it. -/
def readLine? (line : List Char) : Option (Category × String) := do
  let category ← Category.ofPath? (String.ofList (line.takeWhile (· != '\t')))
  let text ← Quoted.decode ((line.dropWhile (· != '\t')).drop 1)
  some (category, String.ofList text)

def read? (listing : String) : Option (List (Category × String)) :=
  (listing.toList.splitOn '\n').dropLast.mapM readLine?

theorem not_mem_line (t : Token) : '\n' ∉ line t := by
  have hbreak : Quoted.isPlain '\n' = false := by decide
  rw [line, List.mem_append, List.mem_cons]
  rintro (hname | htab | htext)
  · exact Quoted.ne_of_isPlain (Category.isPlain_of_mem_fullName hname) hbreak rfl
  · exact absurd htab (by decide)
  · exact Quoted.ne_of_isPlain (Quoted.isPlain_of_mem_encode htext) hbreak rfl

theorem toList_raw (tokens : List Token) :
    (raw tokens).toList = tokens.flatMap fun t => line t ++ ['\n'] := by
  simp [raw, line, List.flatMap_map]

theorem count_raw (tokens : List Token) : (raw tokens).toList.count '\n' = tokens.length := by
  rw [toList_raw]
  induction tokens with
  | nil => rfl
  | cons t tokens ih =>
    rw [List.flatMap_cons, List.count_append, ih, List.count_append,
      List.count_eq_zero.2 (not_mem_line t), List.count_singleton_self, List.length_cons]
    omega

theorem splitOn_raw (tokens : List Token) :
    (raw tokens).toList.splitOn '\n' = tokens.map line ++ [[]] := by
  rw [toList_raw]
  induction tokens with
  | nil => rfl
  | cons t tokens ih =>
    rw [List.flatMap_cons, List.append_assoc, List.singleton_append,
      List.splitOn_append_cons_self_of_not_mem (not_mem_line t), ih]
    rfl

theorem readLine?_line (t : Token) : readLine? (line t) = some (entry t) := by
  have hname : ∀ d ∈ t.category.fullName.toList, (d != '\t') = true := by
    intro d hd
    exact bne_iff_ne.2 (Quoted.ne_of_isPlain (Category.isPlain_of_mem_fullName hd) (by decide))
  rw [readLine?, line, List.takeWhile_append_of_pos hname, List.dropWhile_append_of_pos hname,
    List.takeWhile_cons_of_neg (by decide), List.dropWhile_cons_of_neg (by decide), List.append_nil,
    String.ofList_toList, Category.ofPath?_fullName, List.drop_one, List.tail_cons,
    Quoted.decode_encode]
  show some (t.category, String.ofList t.text.toList) = some (entry t)
  rw [String.ofList_toList]
  rfl

theorem read?_raw (tokens : List Token) : read? (raw tokens) = some (tokens.map entry) := by
  rw [read?, splitOn_raw, List.dropLast_concat]
  induction tokens with
  | nil => rfl
  | cons t tokens ih =>
    rw [List.map_cons, List.mapM_cons, readLine?_line, ih]
    rfl

theorem raw_congr {first second : List Token} (h : first.map entry = second.map entry) :
    raw first = raw second := by
  have hraw : ∀ tokens, raw tokens = String.join ((tokens.map entry).map fun (category, text) =>
      category.fullName ++ "\t" ++ String.ofList (Quoted.encode text.toList) ++ "\n") := by
    intro tokens
    rw [raw, List.map_map]
    rfl
  rw [hraw, hraw, h]

end Listing

theorem Coverage.Covers.join {offset : Nat} {text : List Char} {tokens : List Token}
    (h : Covers offset text tokens) :
    (String.join (tokens.map Token.text)).toList = text := by
  induction h with
  | nil => rfl
  | cons _ _ ih => rw [List.map_cons, String.join_cons, String.toList_append, ih]

/-- Listing tokens line by line loses nothing of them. Whichever lexer gives the tokens of a text,
there is a line for each, the lines are read as their categories and texts, and the texts make up
the text that was cut; and any tokens in which a category or a text differs are listed
differently. -/
theorem Listing.raw_is_lossless (l : Lexer) (text : String) :
    let tokens := l.tokens text
    (raw tokens).toList.count '\n' = tokens.length ∧
      read? (raw tokens) = some (tokens.map entry) ∧
      String.join ((tokens.map entry).map Prod.snd) = text ∧
      ∀ first second : List Token,
        raw first = raw second ↔ first.map entry = second.map entry := by
  intro tokens
  refine ⟨count_raw tokens, read?_raw tokens, ?_, fun first second => ⟨fun hraw => ?_, raw_congr⟩⟩
  · have hcovers : Covers 0 text.toList tokens := Run.covers_tokens l l.initial text.toList 0
    rw [List.map_map]
    exact String.toList_inj.1 hcovers.join
  · have hread : some (first.map entry) = some (second.map entry) := by
      rw [← read?_raw, hraw, read?_raw]
    exact Option.some.inj hread

end RuleLexer
