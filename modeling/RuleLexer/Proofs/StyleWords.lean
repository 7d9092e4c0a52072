import RuleLexer.Proofs.Overriding
import RuleLexer.Proofs.StyleDefinition

/-! What the words of a style definition decide. A word tells of one attribute at most, and an
attribute is in the end what the last word on it tells. So a definition that is applied to what came
of it changes nothing, and one that is not well formed fails at the first word that tells nothing
without being one of the words that need not. -/
namespace RuleLexer
namespace Style

inductive Attribute
  | color
  | background
  | border
  | bold
  | italic
  | underline

abbrev Attribute.Value : Attribute → Type
  | .color | .background | .border => Option String
  | .bold | .italic | .underline => Bool

def get (s : Style) : (a : Attribute) → a.Value
  | .color => s.color?
  | .background => s.background?
  | .border => s.border?
  | .bold => s.bold
  | .italic => s.italic
  | .underline => s.underline

theorem ext_get {s t : Style} (h : ∀ a, s.get a = t.get a) : s = t := by
  obtain ⟨color?, background?, border?, bold, italic, underline⟩ := s
  have hcolor := h .color
  have hbackground := h .background
  have hborder := h .border
  have hbold := h .bold
  have hitalic := h .italic
  have hunderline := h .underline
  simp only [get] at hcolor hbackground hborder hbold hitalic hunderline
  rw [hcolor, hbackground, hborder, hbold, hitalic, hunderline]

/-! What words say, as they are written -/

inductive Tells : (a : Attribute) → (word : List Char) → a.Value → Prop
  | color {value : List Char} {color : String} (h : Shows value color) :
      Tells .color value (some color)
  | background {value : List Char} {color : String} (h : Shows value color) :
      Tells .background ("bg:".toList ++ value) (some color)
  | noBackground : Tells .background "bg:".toList none
  | border {value : List Char} {color : String} (h : Shows value color) :
      Tells .border ("border:".toList ++ value) (some color)
  | noBorder : Tells .border "border:".toList none
  | bold : Tells .bold "bold".toList true
  | noBold : Tells .bold "nobold".toList false
  | italic : Tells .italic "italic".toList true
  | noItalic : Tells .italic "noitalic".toList false
  | underline : Tells .underline "underline".toList true
  | noUnderline : Tells .underline "nounderline".toList false

def quiet : List String := ["noinherit", "roman", "sans", "mono"]

def Known (word : List Char) : Prop :=
  String.ofList word ∈ quiet ∨ ∃ a value, Tells a word value

namespace Word

/-- What a word that has been read decides of an attribute. -/
def about : (a : Attribute) → Word → Option a.Value
  | .color, color value? => some value?
  | .background, background value? => some value?
  | .border, border value? => some value?
  | .bold, bold yes => some yes
  | .italic, italic yes => some yes
  | .underline, underline yes => some yes
  | _, _ => none

section read
variable {category : Category} {word : List Char} {w : Word} {e : StyleError}

theorem exists_reads_of_tells {a : Attribute} {v : a.Value} (h : Tells a word v) :
    ∃ w, Reads word w ∧ w.about a = some v := by
  cases h with
  | color h => exact ⟨_, .color h, rfl⟩
  | background h => exact ⟨_, .background (readColor_eq_some_iff.2 h), rfl⟩
  | noBackground => exact ⟨_, .background (readColor_eq_none_iff.2 rfl), rfl⟩
  | border h => exact ⟨_, .border (readColor_eq_some_iff.2 h), rfl⟩
  | noBorder => exact ⟨_, .border (readColor_eq_none_iff.2 rfl), rfl⟩
  | bold => exact ⟨.bold true, .plain (by decide), rfl⟩
  | noBold => exact ⟨.bold false, .plain (by decide), rfl⟩
  | italic => exact ⟨.italic true, .plain (by decide), rfl⟩
  | noItalic => exact ⟨.italic false, .plain (by decide), rfl⟩
  | underline => exact ⟨.underline true, .plain (by decide), rfl⟩
  | noUnderline => exact ⟨.underline false, .plain (by decide), rfl⟩

theorem tells_plain {a : Attribute} {v : a.Value} {name : String} (h : (name, w) ∈ plain)
    (habout : w.about a = some v) : Tells a name.toList v := by
  simp only [plain, List.mem_cons, Prod.mk.injEq, List.not_mem_nil, or_false] at h
  rcases h with ⟨rfl, rfl⟩ | ⟨rfl, rfl⟩ | ⟨rfl, rfl⟩ | ⟨rfl, rfl⟩ | ⟨rfl, rfl⟩ | ⟨rfl, rfl⟩ |
    ⟨rfl, rfl⟩ | ⟨rfl, rfl⟩ | ⟨rfl, rfl⟩ | ⟨rfl, rfl⟩ <;> cases a <;> cases habout <;> constructor

theorem Reads.tells_iff (h : Reads word w) {a : Attribute} {v : a.Value} :
    Tells a word v ↔ w.about a = some v := by
  constructor
  · intro htells
    obtain ⟨w', hreads, habout⟩ := exists_reads_of_tells htells
    rwa [h.unique hreads]
  · intro habout
    cases h with
    | plain h => exact tells_plain h habout
    | @background value color? h =>
      cases a with
      | background =>
        cases habout
        cases color? with
        | some color => exact .background (readColor_eq_some_iff.1 h)
        | none =>
          rw [readColor_eq_none_iff.1 h, List.append_nil]
          exact .noBackground
      | _ => cases habout
    | @border value color? h =>
      cases a with
      | border =>
        cases habout
        cases color? with
        | some color => exact .border (readColor_eq_some_iff.1 h)
        | none =>
          rw [readColor_eq_none_iff.1 h, List.append_nil]
          exact .noBorder
      | _ => cases habout
    | color h =>
      cases a with
      | color =>
        cases habout
        exact .color h
      | _ => cases habout

theorem quiet_or_about (w : Word) : (w = .noInherit ∨ w = .family) ∨ ∃ a v, w.about a = some v := by
  cases w with
  | noInherit => exact .inl (.inl rfl)
  | family => exact .inl (.inr rfl)
  | bold yes => exact .inr ⟨.bold, yes, rfl⟩
  | italic yes => exact .inr ⟨.italic, yes, rfl⟩
  | underline yes => exact .inr ⟨.underline, yes, rfl⟩
  | color value? => exact .inr ⟨.color, value?, rfl⟩
  | background value? => exact .inr ⟨.background, value?, rfl⟩
  | border value? => exact .inr ⟨.border, value?, rfl⟩

theorem quiet_of_reads (h : Reads word w) (hquiet : w = .noInherit ∨ w = .family) :
    String.ofList word ∈ quiet := by
  cases h with
  | plain h =>
    have hplain : ∀ p ∈ plain, p.2 = .noInherit ∨ p.2 = .family → p.1 ∈ quiet := by decide
    rw [String.ofList_toList]
    exact hplain _ h hquiet
  | background => simp at hquiet
  | border => simp at hquiet
  | color => simp at hquiet

theorem known_iff : Known word ↔ ∃ w, Reads word w := by
  constructor
  · rintro (hquiet | ⟨a, v, htells⟩)
    · have hplain : ∀ name ∈ quiet, name ∈ plain.map Prod.fst := by decide
      obtain ⟨⟨name, w⟩, hmem, hname⟩ := List.mem_map.1 (hplain _ hquiet)
      have hreads : Reads name.toList w := .plain hmem
      rw [show name = String.ofList word from hname, String.toList_ofList] at hreads
      exact ⟨w, hreads⟩
    · obtain ⟨w, hreads, -⟩ := exists_reads_of_tells htells
      exact ⟨w, hreads⟩
  · rintro ⟨w, hreads⟩
    rcases quiet_or_about w with hquiet | ⟨a, v, habout⟩
    · exact .inl (quiet_of_reads hreads hquiet)
    · exact .inr ⟨a, v, hreads.tells_iff.2 habout⟩

theorem exists_read_iff_known (category : Category) :
    (∃ w, read category word = .ok w) ↔ Known word := by
  simp only [read_ok_iff, known_iff]

theorem isWord_iff : IsWord word ↔ Known word :=
  exists_read.symm.trans (exists_read_iff_known .token)

theorem colored_error {make : Option String → Word} (h : colored category make value = .error e) :
    e = .invalidColor category (String.ofList value) := by
  rw [colored] at h
  split at h
  · cases h
  · cases h
    rfl

theorem eq_of_blames (hblames : Blames category word e) {e' : StyleError}
    (h : read category word = .error e') (hblames' : Blames category word e') : e = e' := by
  cases hblames with
  | background => exact (colored_error (read_background ▸ h)).symm
  | border => exact (colored_error (read_border ▸ h)).symm
  | color => exact (colored_error (read_hash ▸ h)).symm
  | word hbackground hborder hcolor =>
    cases hblames' with
    | background value => exact absurd ⟨value, rfl⟩ hbackground
    | border value => exact absurd ⟨value, rfl⟩ hborder
    | color digits => exact absurd ⟨digits, rfl⟩ hcolor
    | word => rfl

theorem read_error_iff : read category word = .error e ↔ ¬Known word ∧ Blames category word e := by
  rw [known_iff]
  rcases read_spec category word with ⟨w, hread, hreads⟩ | ⟨e', hread, hblames⟩
  · rw [hread]
    exact iff_of_false nofun fun h => h.1 ⟨w, hreads⟩
  · have hunknown : ¬∃ w, Reads word w := by
      rintro ⟨w, hreads⟩
      rw [read_ok_iff.2 hreads] at hread
      cases hread
    constructor
    · intro h
      rw [hread] at h
      cases h
      exact ⟨hunknown, hblames⟩
    · rintro ⟨-, h⟩
      rw [eq_of_blames h hread hblames, hread]

end read

end Word

/-! Definitions -/

section definitions
variable {category : Category} {base inherited s : Style} {definition : String} {e : StyleError}

theorem get_set (s : Style) (w : Word) (a : Attribute) :
    (s.set w).get a = (w.about a).getD (s.get a) := by
  cases w <;> cases a <;> rfl

theorem define_error_iff : define category base inherited definition = .error e ↔
    read category definition = .error e := by
  rw [define]
  cases read category definition <;> simp [Except.map]

theorem get_define {start : Style} {ws : List Word} (h : read category definition = .ok ws)
    (a : Attribute) (v : a.Value) : (ws.foldl set start).get a = v ↔
      LastTells (Tells a) (Text.words definition.toList) v ∨
        Silent (Tells a) (Text.words definition.toList) ∧ start.get a = v := by
  have hreads := mapM_ok_iff.1 h
  have htells : ∀ word w, Word.read category word = .ok w →
      ∀ v, Tells a word v ↔ w.about a = some v :=
    fun word w hread v => (Word.read_ok_iff.1 hread).tells_iff
  rw [lastTells_iff_of_forall₂ hreads htells, silent_iff_of_forall₂ hreads htells]
  refine foldl_iff_lastTells (fun s v => s.get a = v) (fun s w v => ?_) start
  rw [get_set]
  cases w.about a <;> simp

theorem foldl_set_twice (start : Style) {ws : List Word} (h : read category definition = .ok ws) :
    ws.foldl set (ws.foldl set start) = ws.foldl set start := by
  refine ext_get fun a => (get_define h a _).2 ?_
  exact ((get_define h a _).1 rfl).imp_right fun hsilent => ⟨hsilent.1, rfl⟩

/-- Whichever style it is that a definition has led to, it stays when the definition is applied
again, to that style with the old base or with that style as the base. -/
theorem define_again (h : define category base inherited definition = .ok s) :
    define category base s definition = .ok s ∧ define category s s definition = .ok s := by
  obtain ⟨ws, hread, rfl⟩ := define_ok_iff.1 h
  have htwice := foldl_set_twice
    (if "noinherit".toList ∈ Text.words definition.toList then base else inherited) hread
  constructor
  · refine define_ok_iff.2 ⟨ws, hread, ?_⟩
    split
    · rfl
    · next hinherits => rwa [if_neg hinherits, eq_comm] at htwice
  · refine define_ok_iff.2 ⟨ws, hread, ?_⟩
    rw [ite_self, htwice]

end definitions

/-- A definition can be read when all its words are known, and the error is about the first that is
not. Each attribute is what the last word on it tells, or else as in the style that the definition
starts from. What a definition has led to it leads to again. -/
theorem words_decide (category : Category) (base inherited : Style) (definition : String) :
    let words := Text.words definition.toList
    ((∃ s, define category base inherited definition = .ok s) ↔ ∀ word ∈ words, Known word) ∧
    (∀ e, define category base inherited definition = .error e ↔
      ∃ before word after, words = before ++ word :: after ∧
        (∀ earlier ∈ before, Known earlier) ∧ ¬Known word ∧ Word.Blames category word e) ∧
    ∀ s, define category base inherited definition = .ok s →
      (∀ (a : Attribute) (v : a.Value), s.get a = v ↔ LastTells (Tells a) words v ∨
        Silent (Tells a) words ∧
          (if "noinherit".toList ∈ words then base else inherited).get a = v) ∧
      define category base s definition = .ok s ∧ define category s s definition = .ok s := by
  refine ⟨?_, fun e => ?_, fun s h => ⟨fun a v => ?_, define_again h⟩⟩
  · simp only [exists_define, WellFormed, Word.isWord_iff]
  · simp only [define_error_iff, read, mapM_error_iff, Word.read_error_iff, Word.exists_read_iff_known]
  · obtain ⟨ws, hread, rfl⟩ := define_ok_iff.1 h
    exact get_define hread a v

example : define .token { underline := true } { bold := true } "#abc italic noinherit" =
    .ok { color? := some "aabbcc", italic := true, underline := true } := by rfl

end Style

end RuleLexer
