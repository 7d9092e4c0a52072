import RuleLexer.Proofs.Binding
import RuleLexer.Style

/-! Definitions of styles: which of them can be read, and what they do to a style. -/
namespace RuleLexer
namespace Style

/-- A hash sign with three or six digits of base sixteen. -/
def IsColor (value : List Char) : Prop :=
  ∃ digits, value = '#' :: digits ∧ (digits.length = 3 ∨ digits.length = 6) ∧
    ∀ c ∈ digits, isHexDigit c

def IsLabelled (label : String) (word : List Char) : Prop :=
  ∃ value, word = label.toList ++ value ∧ (value = [] ∨ IsColor value)

def IsWord (word : List Char) : Prop :=
  String.ofList word ∈ Word.plain.map Prod.fst ∨ IsLabelled "bg:" word ∨
    IsLabelled "border:" word ∨ IsColor word

def WellFormed (definition : String) : Prop :=
  ∀ word ∈ Text.words definition.toList, IsWord word

def SixDigits (value? : Option String) : Prop :=
  ∀ value ∈ value?, value.toList.length = 6 ∧ ∀ c ∈ value.toList, isHexDigit c

theorem sixDigits_none : SixDigits none := by
  intro value hvalue
  cases hvalue

theorem sixDigits_ofList {digits : List Char} (hlength : digits.length = 6)
    (hhex : ∀ c ∈ digits, isHexDigit c) : SixDigits (some (String.ofList digits)) := by
  rintro value ⟨⟩
  rw [String.toList_ofList]
  exact ⟨hlength, hhex⟩

structure WellColored (s : Style) : Prop where
  color : SixDigits s.color?
  background : SixDigits s.background?
  border : SixDigits s.border?

theorem wellColored_empty : WellColored {} := ⟨sixDigits_none, sixDigits_none, sixDigits_none⟩

/-! Colors -/

/-- Behind a hash sign six digits are a color, and three stand for each of them twice. -/
inductive Shows : (value : List Char) → (color : String) → Prop
  | six {a b c d e f : Char} (hhex : ∀ digit ∈ [a, b, c, d, e, f], isHexDigit digit) :
      Shows ['#', a, b, c, d, e, f] (String.ofList [a, b, c, d, e, f])
  | three {a b c : Char} (hhex : ∀ digit ∈ [a, b, c], isHexDigit digit) :
      Shows ['#', a, b, c] (String.ofList [a, a, b, b, c, c])

section colors
variable {value : List Char} {color : String}

theorem isColor_iff : IsColor value ↔ ∃ color, Shows value color := by
  constructor
  · rintro ⟨digits, rfl, hlength | hlength, hhex⟩
    · obtain ⟨a, b, c, rfl⟩ := List.length_eq_three.1 hlength
      exact ⟨_, .three hhex⟩
    · match digits, hlength, hhex with
      | [a, b, c, d, e, f], _, hhex => exact ⟨_, .six hhex⟩
  · rintro ⟨_, hhex | hhex⟩
    · exact ⟨_, rfl, .inr rfl, hhex⟩
    · exact ⟨_, rfl, .inl rfl, hhex⟩

theorem readColor_eq_some_iff : readColor value = some (some color) ↔ Shows value color := by
  constructor
  · fun_cases readColor value with
    | case1 => nofun
    | case2 a b c hhex =>
      rintro ⟨⟩
      exact .three (List.all_eq_true.1 hhex)
    | case3 a b c d e f hhex =>
      rintro ⟨⟩
      exact .six (List.all_eq_true.1 hhex)
    | case4 => nofun
    | case5 => nofun
    | case6 => nofun
  · rintro (hhex | hhex)
    · rw [readColor, if_pos (List.all_eq_true.2 hhex)]
    · rw [readColor, if_pos (List.all_eq_true.2 hhex)]

theorem readColor_eq_none_iff : readColor value = some none ↔ value = [] := by
  fun_cases readColor value <;> simp_all

theorem exists_readColor :
    (∃ color?, readColor value = some color?) ↔ value = [] ∨ IsColor value := by
  rw [Option.exists, readColor_eq_none_iff, isColor_iff]
  simp only [readColor_eq_some_iff]

theorem sixDigits_of_readColor {color? : Option String} (h : readColor value = some color?) :
    SixDigits color? := by
  cases color? with
  | none => exact sixDigits_none
  | some color =>
    cases readColor_eq_some_iff.1 h with
    | six hhex => exact sixDigits_ofList rfl hhex
    | three hhex => exact sixDigits_ofList rfl (by simpa using hhex)

end colors

/-! Words -/

namespace Word

theorem after?_eq_some {label word rest : List Char} :
    after? label word = some rest ↔ word = label ++ rest := by
  fun_induction after? label word with
  | case1 word => simp
  | case2 => simp
  | case3 l label word ih => simp [ih]
  | case4 l label c word hne => simp [Ne.symm hne]

def WellColored : Word → Prop
  | color value? | background value? | border value? => SixDigits value?
  | _ => True

inductive Reads : (word : List Char) → Word → Prop
  | plain {name : String} {w : Word} (h : (name, w) ∈ plain) : Reads name.toList w
  | background {value : List Char} {color? : Option String} (h : readColor value = some color?) :
      Reads ("bg:".toList ++ value) (.background color?)
  | border {value : List Char} {color? : Option String} (h : readColor value = some color?) :
      Reads ("border:".toList ++ value) (.border color?)
  | color {value : List Char} {color : String} (h : Shows value color) :
      Reads value (.color (some color))

/-- What the error holds, for a word that is not known: the color, or the word. -/
inductive Blames (category : Category) : (word : List Char) → StyleError → Prop
  | background (value : List Char) :
      Blames category ("bg:".toList ++ value) (.invalidColor category (String.ofList value))
  | border (value : List Char) :
      Blames category ("border:".toList ++ value) (.invalidColor category (String.ofList value))
  | color (digits : List Char) :
      Blames category ('#' :: digits) (.invalidColor category (String.ofList ('#' :: digits)))
  | word {word : List Char} (hbackground : ¬"bg:".toList <+: word)
      (hborder : ¬"border:".toList <+: word) (hcolor : ¬['#'] <+: word) :
      Blames category word (.invalidWord category (String.ofList word))

section read
variable {category : Category} {word value : List Char} {w : Word} {e : StyleError}

theorem lookup_plain_eq_none (h : ':' ∈ word ∨ '#' ∈ word) :
    plain.lookup (String.ofList word) = none := by
  have hplain : plain.all (fun p => p.1.toList.all fun c => c != ':' && c != '#') := by decide
  rw [List.lookup_eq_none_iff]
  intro p hp
  rw [bne_iff_ne]
  intro hname
  have hword : p.1.toList = word := by rw [← hname, String.toList_ofList]
  have hall := List.all_eq_true.1 (List.all_eq_true.1 hplain p hp)
  rw [hword] at hall
  rcases h with h | h
  · simpa using hall _ h
  · simpa using hall _ h

theorem read_plain (h : plain.lookup (String.ofList word) = some w) :
    read category word = .ok w := by
  rw [read.eq_def, h]

theorem read_background :
    read category ("bg:".toList ++ value) = colored category background value := by
  rw [read.eq_def, lookup_plain_eq_none (.inl (by simp))]
  rfl

theorem read_border :
    read category ("border:".toList ++ value) = colored category border value := by
  rw [read.eq_def, lookup_plain_eq_none (.inl (by simp))]
  rfl

theorem read_hash :
    read category ('#' :: value) = colored category color ('#' :: value) := by
  rw [read.eq_def, lookup_plain_eq_none (.inr (by simp))]
  rfl

theorem colored_of_some {make : Option String → Word} {color? : Option String}
    (h : readColor value = some color?) : colored category make value = .ok (make color?) := by
  rw [colored, h]

theorem colored_spec {make : Option String → Word}
    (hreads : ∀ color?, readColor value = some color? → Reads word (make color?))
    (hblames : Blames category word (.invalidColor category (String.ofList value))) :
    (∃ w, colored category make value = .ok w ∧ Reads word w) ∨
      ∃ e, colored category make value = .error e ∧ Blames category word e := by
  rw [colored]
  cases hvalue : readColor value with
  | some color? => exact .inl ⟨_, rfl, hreads color? hvalue⟩
  | none => exact .inr ⟨_, rfl, hblames⟩

theorem read_spec (category : Category) (word : List Char) :
    (∃ w, read category word = .ok w ∧ Reads word w) ∨
      ∃ e, read category word = .error e ∧ Blames category word e := by
  cases hplain : plain.lookup (String.ofList word) with
  | some w =>
    obtain ⟨before, after, hsplit, -⟩ := List.lookup_eq_some_iff.1 hplain
    have hreads : Reads (String.ofList word).toList w := .plain (by rw [hsplit]; simp)
    rw [String.toList_ofList] at hreads
    exact .inl ⟨w, read_plain hplain, hreads⟩
  | none =>
    cases hbackground : after? "bg:".toList word with
    | some value =>
      obtain rfl := after?_eq_some.1 hbackground
      rw [read_background]
      exact colored_spec (fun _ => .background) (.background value)
    | none =>
      cases hborder : after? "border:".toList word with
      | some value =>
        obtain rfl := after?_eq_some.1 hborder
        rw [read_border]
        exact colored_spec (fun _ => .border) (.border value)
      | none =>
        by_cases hhash : ['#'] <+: word
        · obtain ⟨digits, rfl⟩ := hhash
          rw [List.singleton_append, read_hash]
          refine colored_spec (fun color? hcolor => ?_) (.color digits)
          cases color? with
          | some color => exact .color (readColor_eq_some_iff.1 hcolor)
          | none => cases readColor_eq_none_iff.1 hcolor
        · refine .inr ⟨.invalidWord category (String.ofList word), ?_, .word ?_ ?_ hhash⟩
          · rw [read.eq_def, hplain]
            simp only [hbackground, hborder]
            split
            · next h => cases h
            · next h => cases h
            · next digits _ _ => exact absurd ⟨digits, rfl⟩ hhash
            · rfl
          · rintro ⟨rest, hrest⟩
            rw [after?_eq_some.2 hrest.symm] at hbackground
            cases hbackground
          · rintro ⟨rest, hrest⟩
            rw [after?_eq_some.2 hrest.symm] at hborder
            cases hborder

theorem read_ok_iff : read category word = .ok w ↔ Reads word w := by
  constructor
  · intro h
    rcases read_spec category word with ⟨w', hread, hreads⟩ | ⟨e, hread, -⟩
    · rw [h] at hread
      cases hread
      exact hreads
    · rw [h] at hread
      cases hread
  · rintro (h | h | h | h)
    · have hplain : ∀ p ∈ plain, plain.lookup p.1 = some p.2 := by decide
      exact read_plain (by rw [String.ofList_toList]; exact hplain _ h)
    · rw [read_background, colored_of_some h]
    · rw [read_border, colored_of_some h]
    · have hcolor := readColor_eq_some_iff.2 h
      cases h with
      | six => rw [read_hash, colored_of_some hcolor]
      | three => rw [read_hash, colored_of_some hcolor]

theorem Reads.unique {w' : Word} (h : Reads word w) (h' : Reads word w') : w = w' := by
  have hread : read .token word = .ok w := read_ok_iff.2 h
  rw [read_ok_iff.2 h', Except.ok.injEq] at hread
  exact hread.symm

theorem exists_read : (∃ w, read category word = .ok w) ↔ IsWord word := by
  simp only [read_ok_iff]
  constructor
  · rintro ⟨w, h | h | h | h⟩
    · exact .inl (by simpa using ⟨w, h⟩)
    · exact .inr (.inl ⟨_, rfl, exists_readColor.1 ⟨_, h⟩⟩)
    · exact .inr (.inr (.inl ⟨_, rfl, exists_readColor.1 ⟨_, h⟩⟩))
    · exact .inr (.inr (.inr (isColor_iff.2 ⟨_, h⟩)))
  · rintro (hplain | ⟨value, rfl, hvalue⟩ | ⟨value, rfl, hvalue⟩ | hcolor)
    · obtain ⟨⟨name, w⟩, hmem, hname⟩ := List.mem_map.1 hplain
      have hreads : Reads name.toList w := .plain hmem
      rw [show name = String.ofList word from hname, String.toList_ofList] at hreads
      exact ⟨w, hreads⟩
    · obtain ⟨color?, hread⟩ := exists_readColor.2 hvalue
      exact ⟨_, .background hread⟩
    · obtain ⟨color?, hread⟩ := exists_readColor.2 hvalue
      exact ⟨_, .border hread⟩
    · obtain ⟨color, hshows⟩ := isColor_iff.1 hcolor
      exact ⟨_, .color hshows⟩

theorem read_noInherit : read category word = .ok .noInherit ↔ word = "noinherit".toList := by
  rw [read_ok_iff]
  constructor
  · intro h
    cases h with
    | @plain name _ h =>
      have hname : name = "noinherit" := by simpa [plain] using h
      rw [hname]
  · rintro rfl
    exact .plain (by decide)

theorem wellColored_of_read (h : read category word = .ok w) : w.WellColored := by
  rw [read_ok_iff] at h
  cases h with
  | plain h =>
    have hall : ∀ p ∈ plain, p.2.WellColored := by simp [plain, WellColored]
    exact hall _ h
  | background h => exact sixDigits_of_readColor h
  | border h => exact sixDigits_of_readColor h
  | color h => exact sixDigits_of_readColor (readColor_eq_some_iff.2 h)

end read

end Word

/-! Definitions -/

section definitions
variable {category : Category} {definition : String}

theorem exists_read : (∃ ws, read category definition = .ok ws) ↔ WellFormed definition := by
  simp only [read, mapM_ok_iff, exists_forall₂, Word.exists_read, WellFormed]

theorem mem_noInherit {ws : List Word} (h : read category definition = .ok ws) :
    .noInherit ∈ ws ↔ "noinherit".toList ∈ Text.words definition.toList := by
  have hread := mapM_ok_iff.1 h
  constructor
  · intro hmem
    obtain ⟨word, hword, hread⟩ := exists_mem_of_forall₂ hread hmem
    rwa [← Word.read_noInherit.1 hread]
  · intro hmem
    obtain ⟨w, hw, hread⟩ := exists_mem_of_forall₂ hread.flip hmem
    rw [Word.read_noInherit.2 rfl] at hread
    cases hread
    exact hw

theorem define_ok_iff {base inherited s : Style} :
    define category base inherited definition = .ok s ↔
      ∃ ws, read category definition = .ok ws ∧ s = ws.foldl set
        (if "noinherit".toList ∈ Text.words definition.toList then base else inherited) := by
  rw [define]
  refine map_ok.trans ?_
  refine exists_congr fun ws => and_congr_right fun hread => ?_
  simp only [apply, List.contains_iff_mem, mem_noInherit hread]
  exact eq_comm

theorem exists_define {base inherited : Style} :
    (∃ s, define category base inherited definition = .ok s) ↔ WellFormed definition := by
  rw [← exists_read]
  constructor
  · rintro ⟨s, h⟩
    obtain ⟨ws, hread, -⟩ := define_ok_iff.1 h
    exact ⟨ws, hread⟩
  · rintro ⟨ws, hread⟩
    exact ⟨_, define_ok_iff.2 ⟨ws, hread, rfl⟩⟩

theorem wellColored_set {s : Style} (hs : s.WellColored) {w : Word} (hw : w.WellColored) :
    (s.set w).WellColored := by
  cases w with
  | color => exact ⟨hw, hs.background, hs.border⟩
  | background => exact ⟨hs.color, hw, hs.border⟩
  | border => exact ⟨hs.color, hs.background, hw⟩
  | _ => exact ⟨hs.color, hs.background, hs.border⟩

theorem wellColored_foldl {ws : List Word} (hws : ∀ w ∈ ws, w.WellColored) {s : Style}
    (hs : s.WellColored) : (ws.foldl set s).WellColored :=
  List.foldlRecOn ws set hs fun _ hs w hw => wellColored_set hs (hws w hw)

theorem wellColored_define {base inherited s : Style} (hbase : base.WellColored)
    (hinherited : inherited.WellColored)
    (h : define category base inherited definition = .ok s) : s.WellColored := by
  obtain ⟨ws, hread, rfl⟩ := define_ok_iff.1 h
  refine wellColored_foldl (fun w hw => ?_) (by split <;> assumption)
  obtain ⟨word, -, hword⟩ := exists_mem_of_forall₂ (mapM_ok_iff.1 hread) hw
  exact Word.wellColored_of_read hword

end definitions

end Style

end RuleLexer
