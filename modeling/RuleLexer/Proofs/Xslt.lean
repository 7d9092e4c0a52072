import RuleLexer.Language.Xml
import RuleLexer.Proofs.Emitting
import RuleLexer.Proofs.Resuming

/-! Tags of transformations. A tag is a bracket, perhaps a slash, and a name, with blanks between
them, and an instruction is known by what its tag spells. So the tags of instructions are marked
where they are written without blanks; a tag with blanks has the same name and stays as it is. -/
namespace RuleLexer

namespace Regex
open RuleLexer.Text

inductive Node.Reads : Node → List Char → Prop
  | empty : Reads .empty []
  | set {s : CharSet} {d : Char} (mem : s.mem d) : Reads (.set s) [d]
  | look (l : Look) : Reads (.look l) []
  | mark (slot : Nat) : Reads (.mark slot) []
  | seq {a b : Node} {piece more : List Char} (first : Reads a piece) (second : Reads b more) :
      Reads (.seq a b) (piece ++ more)
  | preferred {a : Node} {piece : List Char} (h : Reads a piece) (id : Nat) (b : Node) :
      Reads (.alt id a b) piece
  | other {b : Node} {piece : List Char} (h : Reads b piece) (id : Nat) (a : Node) :
      Reads (.alt id a b) piece
  | done (id : Nat) (greedy : Bool) (a : Node) : Reads (.loop id greedy a) []
  | again {id : Nat} {greedy : Bool} {a : Node} {piece more : List Char} (round : Reads a piece)
      (later : Reads (.loop id greedy a) more) : Reads (.loop id greedy a) (piece ++ more)

theorem Node.Leads.reads {n : Node} {c c' : Cursor} {σ σ' : Slots} (h : n.Leads c σ c' σ') :
    ∃ piece, c.Passes piece c' ∧ n.Reads piece := by
  induction h with
  | empty c => exact ⟨[], .refl _, .empty⟩
  | look _ _ => exact ⟨[], .refl _, .look _⟩
  | mark _ c => exact ⟨[], .refl _, .mark _⟩
  | done _ _ _ c => exact ⟨[], .refl _, .done _ _ _⟩
  | set mem passes => exact ⟨_, passes, .set mem⟩
  | preferred _ _ _ ih => exact ih.imp fun _ h => ⟨h.1, .preferred h.2 _ _⟩
  | other _ _ _ ih => exact ih.imp fun _ h => ⟨h.1, .other h.2 _ _⟩
  | seq _ _ ihfirst ihsecond =>
    obtain ⟨piece, hpiece, hfirst⟩ := ihfirst
    obtain ⟨more, hmore, hsecond⟩ := ihsecond
    exact ⟨piece ++ more, hpiece.trans hmore, .seq hfirst hsecond⟩
  | again _ _ ihround ihlater =>
    obtain ⟨piece, hpiece, hround⟩ := ihround
    obtain ⟨more, hmore, hlater⟩ := ihlater
    exact ⟨piece ++ more, hpiece.trans hmore, .again hround hlater⟩

section reads
variable {a b : Node} {s : CharSet} {piece : List Char}

theorem Node.reads_seq (h : (Node.seq a b).Reads piece) :
    ∃ first second, a.Reads first ∧ b.Reads second ∧ piece = first ++ second := by
  cases h with
  | seq first second => exact ⟨_, _, first, second, rfl⟩

theorem Node.reads_set (h : (Node.set s).Reads piece) : ∃ d, s.mem d ∧ piece = [d] := by
  cases h with
  | set mem => exact ⟨_, mem, rfl⟩

theorem Node.reads_many {id : Nat} {greedy : Bool} (h : (Node.loop id greedy (.set s)).Reads piece) :
    ∀ c ∈ piece, s.mem c := by
  generalize hn : Node.loop id greedy (.set s) = n at h
  induction h with
  | again round later _ ih =>
    cases hn
    obtain ⟨d, hd, rfl⟩ := reads_set round
    exact List.forall_mem_cons.2 ⟨hd, ih rfl⟩
  | done => simp
  | empty | set | look | mark | seq | preferred | other => cases hn

end reads

end Regex

open RuleLexer.Text RuleLexer.Regex in
theorem Match.Leads.reads {m : Match} {place : Cursor} {body after : Node}
    (h : m.Leads place body after) : body.Reads (place.upTo m.stop) := by
  obtain ⟨_, _, _, _, _, _, hbody, -, -, hstop⟩ := h
  obtain ⟨piece, hpasses, hreads⟩ := hbody.reads
  rwa [hstop, Cursor.upTo_of_passes hpasses]

namespace Language.Xml
open RuleLexer.Text RuleLexer.Regex RuleLexer.Unicode

/-! What the rules for tags take -/

def nameSet : CharSet :=
  .unions [.range 'a' 'z', .range 'A' 'Z', .range '0' '9', .single ':', .single '.', .single '_',
    .single '-']

def many (id : Nat) (s : CharSet) : Node := .loop id true (.set s)

def blanks (id : Nat) : Node := many id (.property .space)

def name (id : Nat) : Node := .seq (.set nameSet) (many id nameSet)

def char (c : Char) : Node := .set (.single c)

def opening : Node := .seq (char '<') (.seq (blanks 1) (name 2))

def closing : Node :=
  .seq (char '<') (.seq (blanks 1) (.seq (char '/') (.seq (blanks 2)
    (.seq (name 3) (.seq (blanks 4) (char '>'))))))

def ending : Node := .seq (.alt 1 (char '/') .empty) (.seq (blanks 2) (char '>'))

def IsName (text : List Char) : Prop := text ≠ [] ∧ ∀ c ∈ text, nameSet.mem c

def Blank (text : List Char) : Prop := ∀ c ∈ text, isSpace c

/-- What a tag looks like: the start of one that opens an element, one that closes an element, or
the end of one that opens an element. -/
inductive Tag : List Char → Prop
  | opening {b name : List Char} (blank : Blank b) (isName : IsName name) : Tag ('<' :: (b ++ name))
  | closing {b b' name b'' : List Char} (blank : Blank b) (blank' : Blank b')
      (isName : IsName name) (blank'' : Blank b'') :
      Tag ('<' :: (b ++ '/' :: (b' ++ (name ++ (b'' ++ ['>'])))))
  | ending {slash b : List Char} (hslash : slash = [] ∨ slash = ['/']) (blank : Blank b) :
      Tag (slash ++ (b ++ ['>']))

theorem reads_char {c : Char} {piece : List Char} (h : (char c).Reads piece) : piece = [c] := by
  obtain ⟨d, hd, rfl⟩ := Node.reads_set h
  have hsame : c.toNat = d.toNat := by
    simp only [CharSet.single, CharSet.mem, Bool.and_eq_true, decide_eq_true_eq] at hd
    omega
  rw [Char.toNat_inj.1 hsame]

theorem reads_blanks {id : Nat} {piece : List Char} (h : (blanks id).Reads piece) : Blank piece :=
  Node.reads_many h

theorem reads_name {id : Nat} {piece : List Char} (h : (name id).Reads piece) : IsName piece := by
  obtain ⟨_, more, hfirst, hmore, rfl⟩ := Node.reads_seq h
  obtain ⟨d, hd, rfl⟩ := Node.reads_set hfirst
  exact ⟨List.cons_ne_nil _ _, List.forall_mem_cons.2 ⟨hd, Node.reads_many hmore⟩⟩

theorem tag_of_opening {piece : List Char} (h : opening.Reads piece) : Tag piece := by
  obtain ⟨_, _, hbracket, h₁, rfl⟩ := Node.reads_seq h
  obtain ⟨_, _, hblank, hname, rfl⟩ := Node.reads_seq h₁
  rw [reads_char hbracket, List.singleton_append]
  exact .opening (reads_blanks hblank) (reads_name hname)

theorem tag_of_closing {piece : List Char} (h : closing.Reads piece) : Tag piece := by
  obtain ⟨_, _, hbracket, h₁, rfl⟩ := Node.reads_seq h
  obtain ⟨_, _, hblank, h₂, rfl⟩ := Node.reads_seq h₁
  obtain ⟨_, _, hslash, h₃, rfl⟩ := Node.reads_seq h₂
  obtain ⟨_, _, hblank', h₄, rfl⟩ := Node.reads_seq h₃
  obtain ⟨_, _, hname, h₅, rfl⟩ := Node.reads_seq h₄
  obtain ⟨_, _, hblank'', hend, rfl⟩ := Node.reads_seq h₅
  rw [reads_char hbracket, reads_char hslash, reads_char hend, List.singleton_append,
    List.singleton_append]
  exact .closing (reads_blanks hblank) (reads_blanks hblank') (reads_name hname)
    (reads_blanks hblank'')

theorem tag_of_ending {piece : List Char} (h : ending.Reads piece) : Tag piece := by
  obtain ⟨_, _, hslash, hrest, rfl⟩ := Node.reads_seq h
  obtain ⟨_, _, hblank, hend, rfl⟩ := Node.reads_seq hrest
  rw [reads_char hend]
  refine .ending ?_ (reads_blanks hblank)
  cases hslash with
  | preferred h => exact .inr (reads_char h)
  | other h =>
    cases h
    exact .inl rfl

/-! What a tag is called -/

/-- What is behind a character, if it stands first, and behind the blanks there. -/
def behind (c : Char) (text : List Char) : List Char :=
  trimStart (if text.head? = some c then text.tail else text)

/-- A tag without its brackets, its slash and the blanks beside them. -/
def elementName (tag : List Char) : List Char :=
  (behind '>' (behind '/' (behind '<' tag)).reverse).reverse

def Instructs (tag : List Char) : Prop :=
  ∃ i ∈ instructions, elementName tag = "xsl:".toList ++ i.toList

instance (tag : List Char) : Decidable (Instructs tag) :=
  inferInstanceAs (Decidable (∃ i ∈ instructions, elementName tag = "xsl:".toList ++ i.toList))

def Solid (text : List Char) : Prop := ∀ c ∈ text, isSpace c = false

instance (text : List Char) : Decidable (Solid text) :=
  inferInstanceAs (Decidable (∀ c ∈ text, isSpace c = false))

theorem solid_nameSet {c : Char} (h : nameSet.mem c) : isSpace c = false := by
  simp only [nameSet, CharSet.unions, CharSet.single, CharSet.mem, Bool.or_eq_true,
    Bool.and_eq_true, decide_eq_true_eq, Char.reduceToNat] at h
  rw [isSpace, if_pos (by omega)]
  simp
  omega

theorem Blank.eq_nil {b : List Char} (h : Blank b) (hsolid : Solid b) : b = [] :=
  List.eq_nil_iff_forall_not_mem.2 fun c hc => by simpa [hsolid c hc] using h c hc

section behind
variable {c : Char} {b rest : List Char} (hb : Blank b)
  (hrest : ∀ d ∈ rest.head?, isSpace d = false ∧ d ≠ c)
include hrest

theorem trimStart_self : trimStart rest = rest := by
  cases rest with
  | nil => rfl
  | cons d rest => exact List.dropWhile_cons_of_neg (by simp [(hrest d rfl).1])

theorem behind_self : behind c rest = rest := by
  have hhead : rest.head? ≠ some c := fun h => (hrest c h).2 rfl
  rw [behind, if_neg hhead, trimStart_self hrest]

include hb

theorem trimStart_append : trimStart (b ++ rest) = rest := by
  rw [trimStart, List.dropWhile_append_of_pos hb]
  exact trimStart_self hrest

theorem behind_cons : behind c (c :: (b ++ rest)) = rest := by
  simp [behind, trimStart_append hb hrest]

theorem behind_append (hc : isSpace c = false) : behind c (b ++ rest) = rest := by
  have hhead : (b ++ rest).head? ≠ some c := by
    cases b with
    | nil => exact fun h => (hrest c h).2 rfl
    | cons d b =>
      rintro ⟨⟩
      simpa [hc] using hb c List.mem_cons_self
  rw [behind, if_neg hhead, trimStart_append hb hrest]

end behind

section name
variable {name : List Char} (h : IsName name) {c : Char} (hc : nameSet.mem c = false)
include h

theorem IsName.solid : Solid name := fun d hd => solid_nameSet (h.2 d hd)

theorem IsName.reverse : IsName name.reverse :=
  ⟨mt List.reverse_eq_nil_iff.1 h.1, fun d hd => h.2 d (List.mem_reverse.1 hd)⟩

include hc

theorem IsName.ne : ∀ d ∈ name, d ≠ c := by
  rintro d hd rfl
  simp [h.2 d hd] at hc

theorem IsName.head (rest : List Char) :
    ∀ d ∈ (name ++ rest).head?, isSpace d = false ∧ d ≠ c := by
  have hsolid := h.solid
  have hne := h.ne hc
  obtain ⟨e, name, rfl⟩ := List.exists_cons_of_ne_nil h.1
  rintro d ⟨⟩
  exact ⟨hsolid e List.mem_cons_self, hne e List.mem_cons_self⟩

theorem IsName.behind : behind c name = name := by
  have hhead := h.head hc []
  rw [List.append_nil] at hhead
  exact behind_self hhead

end name

section elementName
variable {b b' b'' name slash : List Char} (hb : Blank b) (hb' : Blank b') (hb'' : Blank b'')
  (hname : IsName name)

include hb hname in
theorem elementName_opening : elementName ('<' :: (b ++ name)) = name := by
  have hopen : behind '<' ('<' :: (b ++ name)) = name :=
    behind_cons hb (by simpa using hname.head (c := '<') rfl [])
  rw [elementName, hopen, hname.behind rfl, hname.reverse.behind rfl, List.reverse_reverse]

include hb hb' hb'' hname in
theorem elementName_closing :
    elementName ('<' :: (b ++ '/' :: (b' ++ (name ++ (b'' ++ ['>']))))) = name := by
  let rest := name ++ (b'' ++ ['>'])
  have hopen : behind '<' ('<' :: (b ++ '/' :: (b' ++ rest))) = '/' :: (b' ++ rest) :=
    behind_cons hb (by rintro d ⟨⟩; decide)
  have hslash : behind '/' ('/' :: (b' ++ rest)) = rest := behind_cons hb' (hname.head rfl _)
  have hreverse : rest.reverse = '>' :: (b''.reverse ++ name.reverse) := by simp [rest]
  have hclose : behind '>' ('>' :: (b''.reverse ++ name.reverse)) = name.reverse :=
    behind_cons (fun d hd => hb'' d (List.mem_reverse.1 hd))
      (by simpa using hname.reverse.head (c := '>') rfl [])
  rw [elementName, hopen, hslash, hreverse, hclose, List.reverse_reverse]

include hb in
theorem elementName_ending (hslash : slash = [] ∨ slash = ['/']) :
    elementName (slash ++ (b ++ ['>'])) = [] := by
  have hbehind : behind '/' (behind '<' (slash ++ (b ++ ['>']))) = ['>'] := by
    rcases hslash with rfl | rfl
    · have hopen : behind '<' (b ++ ['>']) = ['>'] :=
        behind_append hb (by rintro d ⟨⟩; decide) rfl
      rw [List.nil_append, hopen]
      rfl
    · have hopen : behind '<' ('/' :: (b ++ ['>'])) = '/' :: (b ++ ['>']) :=
        behind_self (by rintro d ⟨⟩; decide)
      exact (congrArg _ hopen).trans (behind_cons hb (by rintro d ⟨⟩; decide))
  rw [elementName, hbehind]
  rfl

end elementName

example : elementName "< / xsl:if >".toList = "xsl:if".toList := by decide +kernel

/-! What is marked -/

theorem instruction?_eq_some {tag i : List Char} : instruction? tag = some i ↔
    ∃ slash rest, (slash = [] ∨ slash = ['/']) ∧
      tag = '<' :: (slash ++ ("xsl:".toList ++ rest)) ∧ rest.takeWhile (· != '>') = i := by
  constructor
  · intro h
    simp only [instruction?] at h
    split at h
    · next rest =>
      split at h
      · exact ⟨['/'], _, .inr rfl, rfl, Option.some.inj h⟩
      · cases h
    · next rest _ =>
      split at h
      · exact ⟨[], _, .inl rfl, rfl, Option.some.inj h⟩
      · cases h
    · cases h
  · rintro ⟨slash, rest, rfl | rfl, rfl, rfl⟩ <;> rfl

theorem mem_takeWhile {c d : Char} {text : List Char} (hnot : d ∉ text.dropLast) (hc : c ∈ text)
    (hne : c ≠ d) : c ∈ text.takeWhile (· != d) := by
  induction text with
  | nil => cases hc
  | cons e text ih =>
    cases text with
    | nil =>
      cases List.mem_singleton.1 hc
      simp [hne]
    | cons e' text =>
      rw [List.dropLast_cons_cons, List.mem_cons, not_or] at hnot
      rw [List.takeWhile_cons_of_pos (by simpa using Ne.symm hnot.1)]
      rcases List.mem_cons.1 hc with rfl | hc
      · exact List.mem_cons_self
      · exact List.mem_cons_of_mem _ (ih hnot.2 hc)

theorem Blank.not_mem {b : List Char} (h : Blank b) : '>' ∉ b := fun hmem => by
  cases h '>' hmem

theorem IsName.not_mem {name : List Char} (h : IsName name) : '>' ∉ name := fun hmem =>
  h.ne rfl '>' hmem rfl

theorem Tag.not_mem_dropLast {tag : List Char} (h : Tag tag) : '>' ∉ tag.dropLast := by
  cases h with
  | @opening b name hb hname =>
    refine fun hmem => ?_
    simpa [hb.not_mem, hname.not_mem] using List.dropLast_subset _ hmem
  | @closing b b' name b'' hb hb' hname hb'' =>
    have hsplit : '<' :: (b ++ '/' :: (b' ++ (name ++ (b'' ++ ['>'])))) =
        '<' :: (b ++ '/' :: (b' ++ (name ++ b''))) ++ ['>'] := by simp
    rw [hsplit, List.dropLast_concat]
    simp [hb.not_mem, hb'.not_mem, hname.not_mem, hb''.not_mem]
  | @ending slash b hslash hb =>
    rw [← List.append_assoc, List.dropLast_concat]
    rcases hslash with rfl | rfl <;> simp [hb.not_mem]

theorem spelled_instructions : instructions.all fun i => i.toList.all nameSet.mem := by
  decide +kernel

theorem solid_instructions {i : String} (h : i ∈ instructions) : Solid i.toList := fun c hc =>
  solid_nameSet (List.all_eq_true.1 (List.all_eq_true.1 spelled_instructions i h) c hc)

theorem Tag.solid {tag i : List Char} (h : Tag tag) (hi : instruction? tag = some i)
    (hmem : String.ofList i ∈ instructions) : Solid tag := by
  have hsolid := solid_instructions hmem
  rw [String.toList_ofList] at hsolid
  intro c hc
  by_cases hclose : c = '>'
  · rw [hclose]
    rfl
  · have hkept := mem_takeWhile h.not_mem_dropLast hc hclose
    obtain ⟨slash, rest, hslash, rfl, rfl⟩ := instruction?_eq_some.1 hi
    have hbefore : ∀ c ∈ '<' :: (slash ++ "xsl:".toList), c ≠ '>' ∧ isSpace c = false := by
      rcases hslash with rfl | rfl <;> simp [isSpace]
    rw [← List.append_assoc, ← List.cons_append,
      List.takeWhile_append_of_pos (by simpa using fun c hc => (hbefore c hc).1)] at hkept
    rcases List.mem_append.1 hkept with hc | hc
    · exact (hbefore c hc).2
    · exact hsolid c hc

theorem takeWhile_append {text close : List Char} (h : '>' ∉ text)
    (hclose : close = [] ∨ close = ['>']) : (text ++ close).takeWhile (· != '>') = text := by
  have hall : ∀ c ∈ text, (c != '>') = true := fun c hc => by
    simpa using ne_of_mem_of_not_mem hc h
  rw [List.takeWhile_append_of_pos hall]
  rcases hclose with rfl | rfl <;> simp

section solid
variable {slash name close : List Char} (hslash : slash = [] ∨ slash = ['/']) (hname : IsName name)
  (hclose : close = [] ∨ close = ['>'])
include hslash hname hclose

theorem instruction?_solid {i : List Char} :
    instruction? ('<' :: (slash ++ (name ++ close))) = some i ↔ name = "xsl:".toList ++ i := by
  rw [instruction?_eq_some]
  constructor
  · rintro ⟨slash', rest, hslash', htag, rfl⟩
    have hsame : name ++ close = "xsl:".toList ++ rest := by
      obtain ⟨-, htag⟩ := List.cons.inj htag
      rcases hslash with rfl | rfl <;> rcases hslash' with rfl | rfl
      · exact htag
      · exact absurd rfl (hname.head (c := '/') rfl close '/'
          (congrArg List.head? htag)).2
      · cases htag
      · exact (List.cons.inj htag).2
    calc
      name = (name ++ close).takeWhile (· != '>') := (takeWhile_append hname.not_mem hclose).symm
      _ = ("xsl:".toList ++ rest).takeWhile (· != '>') := by rw [hsame]
      _ = "xsl:".toList ++ rest.takeWhile (· != '>') :=
        List.takeWhile_append_of_pos (by simp)
  · rintro rfl
    have hnot : '>' ∉ i := fun hi => hname.not_mem (List.mem_append_right _ hi)
    exact ⟨slash, i ++ close, hslash, by simp, takeWhile_append hnot hclose⟩

end solid

theorem Tag.shape {tag : List Char} (h : Tag tag) (hsolid : Solid tag) :
    (∃ slash name close, (slash = [] ∨ slash = ['/']) ∧ IsName name ∧
      (close = [] ∨ close = ['>']) ∧ tag = '<' :: (slash ++ (name ++ close)) ∧
      elementName tag = name) ∨ instruction? tag = none ∧ elementName tag = [] := by
  have hnone {b : List Char} (hb : Blank b) (hmem : ∀ c ∈ b, c ∈ tag) : b = [] :=
    hb.eq_nil fun c hc => hsolid c (hmem c hc)
  cases h with
  | opening hb hname =>
    obtain rfl := hnone hb fun c hc => by simp [hc]
    exact .inl ⟨[], _, [], .inl rfl, hname, .inl rfl, by simp, elementName_opening hb hname⟩
  | closing hb hb' hname hb'' =>
    obtain rfl := hnone hb fun c hc => by simp [hc]
    obtain rfl := hnone hb' fun c hc => by simp [hc]
    obtain rfl := hnone hb'' fun c hc => by simp [hc]
    exact .inl ⟨['/'], _, ['>'], .inr rfl, hname, .inr rfl, rfl,
      elementName_closing hb hb' hb'' hname⟩
  | ending hslash hb =>
    obtain rfl := hnone hb fun c hc => by simp [hc]
    refine .inr ⟨?_, elementName_ending hb hslash⟩
    rcases hslash with rfl | rfl <;> rfl

/-- A tag is marked when its element is an instruction and nothing in it is blank. -/
theorem Tag.marked_iff {tag : List Char} (h : Tag tag) :
    (∃ i, instruction? tag = some i ∧ String.ofList i ∈ instructions) ↔
      Instructs tag ∧ Solid tag := by
  constructor
  · rintro ⟨i, hi, hmem⟩
    have hsolid := h.solid hi hmem
    refine ⟨⟨_, hmem, ?_⟩, hsolid⟩
    obtain ⟨slash, name, close, hslash, hname, hclose, rfl, hcalled⟩ | ⟨hnone, -⟩ := h.shape hsolid
    · rw [hcalled]
      exact (instruction?_solid hslash hname hclose).1
        (hi.trans (congrArg some String.toList_ofList.symm))
    · cases hnone.symm.trans hi
  · rintro ⟨⟨i, hmem, hi⟩, hsolid⟩
    obtain ⟨slash, name, close, hslash, hname, hclose, rfl, hcalled⟩ | ⟨-, hnone⟩ := h.shape hsolid
    · refine ⟨i.toList, ?_, by rwa [String.ofList_toList]⟩
      rw [instruction?_solid hslash hname hclose, ← hcalled, hi]
    · cases hnone.symm.trans hi

theorem markInstructions_eq {category : Category} {text : String}
    (h : category = .nameTag → Tag text.toList) : markInstructions category text =
      if category = .nameTag ∧ Instructs text.toList ∧ Solid text.toList then .keyword
      else category := by
  by_cases htag : category = .nameTag
  · have hmarked := (h htag).marked_iff
    rw [markInstructions]
    split
    · next i hi => simp [htag, ← hmarked, hi]
    · next hnone => simp [htag, ← hmarked, hnone]
  · rw [markInstructions, if_neg fun hmarked => htag hmarked.1]
    split <;> simp [htag]

/-! The lexers -/

def check (r : Rule Delegate) (body _after : Node) : Bool :=
  body.moves && match r.action with
    | .emit .nameTag => [opening, closing, ending].contains body
    | _ => true

def found (e : Entry Delegate) : Bool := e.checks check table.flags table.names

theorem found_all : table.states.all (·.2.all found) := by
  decide +kernel

theorem restsOn_table : table.RestsOn "root" := TableDraft.restsOn_of_none rfl "root"

theorem surveyed_table : table.Surveyed fun _ => check :=
  .of_checks rfl (by decide) (by decide) (by decide) restsOn_table.acyclic
    fun state hstate e he =>
      List.all_eq_true.1 (List.all_eq_true.1 found_all state hstate) e he

theorem emitsMatch_table : table.actions.all Action.emitsMatch := by
  decide

section lexers
variable {t : Table} (htable : table.compile = .ok t)

def lexerOf (t : Table) : Lexer := ⟨info, t, [t.root], none, []⟩

def xsltLexerOf (t : Table) : Lexer := ⟨xsltInfo, t, [t.root], some markInstructions, []⟩

include htable

theorem yields_lexer : lexer.Yields (lexerOf t) := Build.yields_plain htable info

theorem yields_xsltLexer : xsltLexer.Yields (xsltLexerOf t) :=
  (Build.yields_table htable).bind (Build.yields_lexer rfl)

theorem gives_tags {l : Lexer} (hl : l.table = t) :
    l.Gives fun token => token.category = .nameTag → Tag token.text.toList where
  matched r hr rule found category hwinner haction offset := by
    rintro rfl
    obtain ⟨rules, hrules, hrule⟩ := Run.exists_rules_of_winner hwinner
    rw [Run.table, hr, hl] at hrules
    obtain ⟨state, hstate, q, hq, hbinds⟩ :=
      (TableDraft.compile_ok htable).2.2 rules hrules rule hrule
    have hemit := hbinds.of_emit haction
    obtain ⟨body, after, hcheck, hleads⟩ :=
      hbinds.leads (surveyed_table.shows state.1 q ⟨state.2, hstate, hq⟩)
        (Run.matchAt_of_firstMatch hwinner)
    rw [check, hemit] at hcheck
    replace hcheck := (Bool.and_eq_true_iff.1 hcheck).2
    have hreads := hleads.reads
    rw [String.toList_ofList]
    rcases List.mem_cons.1 (List.contains_iff_mem.1 hcheck) with rfl | hbody
    · exact tag_of_opening hreads
    · rcases List.mem_cons.1 hbody with rfl | hbody
      · exact tag_of_closing hreads
      · cases List.mem_singleton.1 hbody
        exact tag_of_ending hreads
  single r hr offset c := by
    obtain ⟨_, hcompile, -, -, hfallback, -⟩ := surveyed_table.exists_table
    cases htable.symm.trans hcompile
    have hcategory : r.fallbackCategory c ≠ .nameTag := by
      rw [Run.fallbackCategory, Run.table, hr, hl, hfallback]
      split <;> decide
    exact fun h => absurd h hcategory

theorem onlyEmits : t.OnlyEmits := TableDraft.onlyEmits htable emitsMatch_table

theorem tokens_xslt (text : String) : (xsltLexerOf t).tokens text =
    ((lexerOf t).tokens text).map fun token =>
      if token.category = .nameTag ∧ Instructs token.text.toList ∧ Solid token.text.toList then
        token.retag .keyword
      else token := by
  have hsame : (xsltLexerOf t).table = (lexerOf t).table := rfl
  obtain ⟨raw, htokens, htokens'⟩ :=
    Run.tokens_of_one_table hsame (onlyEmits htable) [t.root] text.toList 0
  have hraw : (Run.start (lexerOf t) [t.root] text.toList 0).tokens = raw :=
    htokens.trans (List.map_id raw)
  have hgives := Run.forall_tokens (onlyEmits htable) (gives_tags htable (l := lexerOf t) rfl)
    [t.root] text.toList 0
  rw [hraw] at hgives
  show (Run.start (xsltLexerOf t) [t.root] text.toList 0).tokens =
    (Run.start (lexerOf t) [t.root] text.toList 0).tokens.map _
  rw [htokens', hraw]
  refine List.map_congr_left fun token htoken => ?_
  obtain ⟨_, rfl, htag⟩ := hgives token htoken
  show token.retag (markInstructions token.category token.text) = _
  rw [markInstructions_eq htag]
  split <;> rfl

end lexers

/-- The lexer for transformations cuts a text as the one for markup does, and of the tags it marks
those without blanks whose element is an instruction. So the tags of all instructions are marked in
just those texts in which none of them has a blank. -/
theorem instructions_marked (text : String) : ∃ xml xslt, lexer.outcome.1 = .ok xml ∧
    xsltLexer.outcome.1 = .ok xslt ∧
    (xslt.tokens text = (xml.tokens text).map fun token =>
      if token.category = .nameTag ∧ Instructs token.text.toList ∧ Solid token.text.toList then
        token.retag .keyword
      else token) ∧
    ((xslt.tokens text = (xml.tokens text).map fun token =>
        if token.category = .nameTag ∧ Instructs token.text.toList then token.retag .keyword
        else token) ↔
      ∀ token ∈ xml.tokens text, token.category = .nameTag → Instructs token.text.toList →
        Solid token.text.toList) := by
  obtain ⟨t, htable, -⟩ := surveyed_table.exists_table
  refine ⟨_, _, (yields_lexer htable).outcome, (yields_xsltLexer htable).outcome,
    tokens_xslt htable text, ?_⟩
  rw [tokens_xslt htable, List.map_inj_left]
  refine forall₂_congr fun token _ => ?_
  have hmarked : token.category = .nameTag → token ≠ token.retag .keyword := by
    intro htag hsame
    cases htag.symm.trans (congrArg Token.category hsame)
  by_cases hsolid : Solid token.text.toList
  · simp [hsolid]
  · simp only [hsolid, and_false, if_false, imp_false]
    split
    · next h => exact iff_of_false (hmarked h.1) fun hnone => hnone h.1 h.2
    · next h => exact iff_of_true rfl fun htag hinstructs => h ⟨htag, hinstructs⟩

/-! A tag with a blank -/

def blankTag : String := "</xsl:if >"

def rootRules : List (Rule Delegate) := table.states[0].2.filterMap Entry.rule?

def closes : Rule Delegate :=
  ⟨.pattern "<\\s*/\\s*[a-zA-Z0-9:._-]+\\s*>" none, .emit .nameTag, none⟩

theorem wins_closes : Rule.wins table.flags [blankTag.toList ++ []] 7 rootRules ∧
    closes.spans table.flags [(blankTag.toList, [])] := by
  decide +kernel

theorem mem_root : ("root", table.states[0].2) ∈ table.states :=
  List.mem_of_getElem? (show table.states[0]? = _ from rfl)

section blankTag
variable {t : Table} (htable : table.compile = .ok t)
include htable

theorem binds_rules (id : StateId) (hid : Named t.names "root" id) :
    List.Forall₂ (Rule.Binds table.flags t.names) rootRules (t.rulesOf id) := by
  rw [TableDraft.names_of_compile_ok htable] at hid ⊢
  exact surveyed_table.resolved.binds_written htable rfl mem_root hid

theorem tokens_blankTag {l : Lexer} (hl : l.table = t) (hinitial : l.initial = [t.root]) :
    l.tokens blankTag = [l.recategorise ⟨0, .nameTag, blankTag⟩] := by
  obtain ⟨_, hcompile, hnames, hroot, -⟩ := surveyed_table.exists_table
  cases htable.symm.trans hcompile
  subst hl
  have hroot : Named l.table.names "root" l.table.root := by rwa [hnames]
  have hstart := Run.standsAt_start (l := l) hroot (blankTag.toList ++ ([] ++ []))
  obtain ⟨r, hend, htokens⟩ := hstart.emits (w := (blankTag.toList, []))
    (binds_rules htable) (q := closes) (i := 7) rfl wins_closes.1 wins_closes.2 rfl
    (by decide) (by decide)
  show (Run.start l l.initial blankTag.toList 0).tokens = _
  have htext : blankTag.toList = blankTag.toList ++ ([] ++ []) := by simp
  rw [hinitial, htext, htokens, hend.tokens_end, String.ofList_toList]
  rfl

end blankTag

/-- The name alone does not decide: with a blank, the tag that closes an instruction is left as
it is. -/
theorem blank_leaves_instruction_unmarked : ∃ xml xslt, lexer.outcome.1 = .ok xml ∧
    xsltLexer.outcome.1 = .ok xslt ∧ xslt.tokens "</xsl:if >" = [⟨0, .nameTag, "</xsl:if >"⟩] ∧
      ((xml.tokens "</xsl:if >").map fun token =>
        if token.category = .nameTag ∧ Instructs token.text.toList then token.retag .keyword
        else token) = [⟨0, .keyword, "</xsl:if >"⟩] := by
  obtain ⟨t, htable, -⟩ := surveyed_table.exists_table
  have hsame : markInstructions .nameTag blankTag = .nameTag ∧ Instructs blankTag.toList := by
    decide +kernel
  have hxml := tokens_blankTag htable (l := lexerOf t) rfl rfl
  have hxslt := tokens_blankTag htable (l := xsltLexerOf t) rfl rfl
  refine ⟨_, _, (yields_lexer htable).outcome, (yields_xsltLexer htable).outcome, ?_, ?_⟩
  · refine hxslt.trans ?_
    show [Token.mk 0 (markInstructions .nameTag blankTag) blankTag] = _
    rw [hsame.1, blankTag]
  · refine (congrArg (List.map _) hxml).trans ?_
    show [ite (Category.nameTag = .nameTag ∧ Instructs blankTag.toList) _ _] = _
    rw [if_pos ⟨rfl, hsame.2⟩]
    rfl

end Language.Xml

end RuleLexer
