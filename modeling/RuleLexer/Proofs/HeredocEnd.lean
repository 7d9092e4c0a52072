import RuleLexer.Language.Php
import RuleLexer.Proofs.Boundary

/-! The end of a text that goes on to a line with its name. The line is looked for behind one line
break after the other, and the text is cut in the middle of lines at offsets that are counted in
bytes; each offset at which it is cut is a place between two of its characters. -/
namespace RuleLexer.Language.Php
open RuleLexer.Text

theorem cut_of_passes {c c' : Cursor} {piece : List Char} (h : c.Passes piece c') {offset : Nat}
    (hoffset : c'.offset = offset) : cut c offset = .ok c' := by
  rw [cut, ← hoffset, h.seek?]

/-! One line -/

/-- At most a semicolon stands before the end of the line, and the next one begins at an offset. -/
def Ends (place : Cursor) (stop : Nat) : Prop :=
  ∃ semicolon rest, place.ahead = semicolon ++ '\n' :: rest ∧
    (semicolon = [] ∨ semicolon = [';']) ∧ stop = place.offset + byteLength semicolon + 1

/-- The line at a place is the name, the case of ASCII letters aside, up to such an end. -/
def Closes (name : List Char) (line : Cursor) (stop : Nat) : Prop :=
  ∃ word behind, line.Passes word behind ∧ byteLength word = byteLength name ∧
    sameIgnoringCase word name ∧ Ends behind stop

theorem Closes.exists_passes {name : List Char} {line : Cursor} {stop : Nat}
    (h : Closes name line stop) : ∃ piece next, line.Passes piece next ∧ next.offset = stop := by
  obtain ⟨word, behind, hword, -, -, semicolon, rest, hahead, -, rfl⟩ := h
  refine ⟨word ++ (semicolon ++ ['\n']),
    ⟨(semicolon ++ ['\n']).reverse ++ behind.passed, rest,
      behind.offset + byteLength (semicolon ++ ['\n'])⟩,
    hword.trans ⟨by simpa using hahead, rfl, rfl⟩, ?_⟩
  rw [byteLength_append]
  rfl

theorem ends_semicolon {place : Cursor} {rest : List Char} (h : place.ahead = ';' :: rest)
    (stop : Nat) : Ends place stop ↔ rest.head? = some '\n' ∧ stop = place.offset + 2 := by
  constructor
  · rintro ⟨semicolon, rest', hahead, rfl | rfl, rfl⟩
    · cases h.symm.trans hahead
    · cases h.symm.trans hahead
      exact ⟨rfl, rfl⟩
  · rintro ⟨hrest, rfl⟩
    obtain ⟨rest, rfl⟩ := List.head?_eq_some_iff.1 hrest
    exact ⟨[';'], rest, h, .inr rfl, rfl⟩

theorem ends_other {place : Cursor} (h : place.ahead.head? ≠ some ';') (stop : Nat) :
    Ends place stop ↔ place.ahead.head? = some '\n' ∧ stop = place.offset + 1 := by
  constructor
  · rintro ⟨semicolon, rest, hahead, rfl | rfl, rfl⟩
    · exact ⟨by rw [hahead]; rfl, rfl⟩
    · exact absurd (by rw [hahead]; rfl) h
  · rintro ⟨hahead, rfl⟩
    obtain ⟨rest, hrest⟩ := List.head?_eq_some_iff.1 hahead
    exact ⟨[], rest, hrest, .inl rfl, rfl⟩

theorem closes_iff {name word : List Char} {line behind : Cursor} (h : line.Passes word behind)
    (hword : byteLength word = byteLength name) (stop : Nat) :
    Closes name line stop ↔ sameIgnoringCase word name ∧ Ends behind stop := by
  constructor
  · rintro ⟨word', behind', hpasses, hlength, hsame, hends⟩
    obtain ⟨rfl, rfl⟩ := h.eq_of_offset hpasses (by rw [h.offset, hpasses.offset, hword, hlength])
    exact ⟨hsame, hends⟩
  · rintro ⟨hsame, hends⟩
    exact ⟨word, behind, h, hword, hsame, hends⟩

theorem lineEnd?_eq {word : List Char} {line behind : Cursor} (h : line.Passes word behind) :
    ∃ end?, lineEnd? line behind.offset = .ok end? ∧
      ∀ stop, end? = some stop ↔ Ends behind stop := by
  have hcut : cut line behind.offset = .ok behind := cut_of_passes h rfl
  by_cases hhead : behind.ahead.head? = some ';'
  · obtain ⟨rest, hahead⟩ := List.head?_eq_some_iff.1 hhead
    have hnext : behind.Passes [';'] ⟨';' :: behind.passed, rest, behind.offset + 1⟩ :=
      ⟨hahead, rfl, rfl⟩
    have hlast : cut line (behind.offset + 1) = .ok _ := cut_of_passes (h.trans hnext) rfl
    refine ⟨if rest.head? = some '\n' then some (behind.offset + 2) else none, ?_, fun stop => ?_⟩
    · simp only [lineEnd?, hcut, bind, Except.bind, if_pos hhead, hlast, pure, Except.pure]
    · rw [ends_semicolon hahead]
      split <;> simp_all [eq_comm]
  · refine ⟨if behind.ahead.head? = some '\n' then some (behind.offset + 1) else none, ?_,
      fun stop => ?_⟩
    · simp only [lineEnd?, hcut, bind, Except.bind, if_neg hhead, pure, Except.pure]
    · rw [ends_other hhead]
      split <;> simp_all [eq_comm]

theorem closingEnd?_eq (name : List Char) (line : Cursor) :
    ∃ end?, closingEnd? name line = .ok end? ∧ ∀ stop, end? = some stop ↔ Closes name line stop := by
  have hle : line.offset ≤ line.offset + byteLength name := Nat.le_add_right _ _
  rw [closingEnd?]
  cases hseek : line.seek? (line.offset + byteLength name) with
  | none =>
    refine ⟨none, rfl, fun stop => iff_of_false (Option.some_ne_none _).symm ?_⟩
    rintro ⟨word, behind, hpasses, hlength, -⟩
    have hplace := hpasses.seek?
    rw [hpasses.offset, hlength, hseek] at hplace
    cases hplace
  | some behind =>
    obtain ⟨hpasses, hoffset⟩ := (Cursor.seek?_eq_some_iff hle).1 hseek
    have hlength := hpasses.offset
    rw [hoffset, Nat.add_left_cancel_iff] at hlength
    simp only [closes_iff hpasses hlength.symm]
    split
    · next hsame =>
      obtain ⟨end?, hend, hends⟩ := lineEnd?_eq hpasses
      exact ⟨end?, hoffset ▸ hend, by simpa [hsame] using hends⟩
    · next hsame => exact ⟨none, rfl, by simp [hsame]⟩

theorem closingEnd?_eq_some {name : List Char} {line : Cursor} {stop : Nat} :
    closingEnd? name line = .ok (some stop) ↔ Closes name line stop := by
  obtain ⟨end?, hend, hcloses⟩ := closingEnd?_eq name line
  rw [hend, Except.ok.injEq, hcloses]

theorem closingEnd?_eq_none {name : List Char} {line : Cursor} :
    closingEnd? name line = .ok none ↔ ∀ stop, ¬Closes name line stop := by
  obtain ⟨end?, hend, hcloses⟩ := closingEnd?_eq name line
  rw [hend, Except.ok.injEq, Option.eq_none_iff_forall_ne_some]
  exact forall_congr' fun stop => not_congr (hcloses stop)

/-! All lines -/

def Breaks (c line : Cursor) : Prop := ∃ before, c.Passes (before ++ ['\n']) line

theorem Breaks.offset_lt {c line : Cursor} (h : Breaks c line) : c.offset < line.offset := by
  obtain ⟨before, hpasses⟩ := h
  exact hpasses.offset_lt (by simp)

theorem breaks_iff {c next : Cursor} {d : Char} (h : c.Passes [d] next) (line : Cursor) :
    Breaks c line ↔ (d = '\n' ∧ line = next) ∨ Breaks next line := by
  constructor
  · rintro ⟨before, hpasses⟩
    have hahead := hpasses.ahead
    rw [h.ahead] at hahead
    cases before with
    | nil =>
      obtain ⟨rfl, -⟩ := List.cons.inj hahead
      exact .inl ⟨rfl, (hpasses.eq_of_offset h (hpasses.offset.trans h.offset.symm)).2⟩
    | cons e before =>
      obtain ⟨rfl, -⟩ := List.cons.inj hahead
      obtain ⟨place, hfirst, hrest⟩ :=
        Cursor.Passes.split (show c.Passes ([d] ++ _) line from hpasses)
      obtain ⟨-, rfl⟩ := hfirst.eq_of_offset h (hfirst.offset.trans h.offset.symm)
      exact .inr ⟨before, hrest⟩
  · rintro (⟨rfl, rfl⟩ | ⟨before, hpasses⟩)
    · exact ⟨[], h⟩
    · exact ⟨d :: before, h.trans hpasses⟩

/-- Something is seen behind one of the line breaks ahead, and nothing behind those before it. -/
def Sees (look : Cursor → Except CutError (Option Nat)) (c : Cursor) (stop : Nat) : Prop :=
  ∃ line, Breaks c line ∧ look line = .ok (some stop) ∧
    ∀ other, Breaks c other → other.offset < line.offset → look other = .ok none

section sees
variable {look : Cursor → Except CutError (Option Nat)} {c next : Cursor} {d : Char}
  (hnext : c.Passes [d] next)
include hnext

theorem sees_here (hbreak : d = '\n') {first : Nat} (hfirst : look next = .ok (some first))
    (stop : Nat) : Sees look c stop ↔ first = stop := by
  constructor
  · rintro ⟨line, hline, hlook, hothers⟩
    rcases (breaks_iff hnext line).1 hline with ⟨-, rfl⟩ | hlater
    · cases hfirst.symm.trans hlook
      rfl
    · have hnone := hothers next ((breaks_iff hnext next).2 (.inl ⟨hbreak, rfl⟩)) hlater.offset_lt
      cases hfirst.symm.trans hnone
  · rintro rfl
    refine ⟨next, (breaks_iff hnext next).2 (.inl ⟨hbreak, rfl⟩), hfirst, fun other hother hlt => ?_⟩
    rcases (breaks_iff hnext other).1 hother with ⟨-, rfl⟩ | hlater
    · exact absurd hlt (Nat.lt_irrefl _)
    · exact absurd hlater.offset_lt (Nat.lt_asymm hlt)

theorem sees_later (hnone : d = '\n' → look next = .ok none) (stop : Nat) :
    Sees look c stop ↔ Sees look next stop := by
  constructor
  · rintro ⟨line, hline, hlook, hothers⟩
    rcases (breaks_iff hnext line).1 hline with ⟨hbreak, rfl⟩ | hlater
    · cases hlook.symm.trans (hnone hbreak)
    · exact ⟨line, hlater, hlook, fun other hother =>
        hothers other ((breaks_iff hnext other).2 (.inr hother))⟩
  · rintro ⟨line, hline, hlook, hothers⟩
    refine ⟨line, (breaks_iff hnext line).2 (.inr hline), hlook, fun other hother hlt => ?_⟩
    rcases (breaks_iff hnext other).1 hother with ⟨hbreak, rfl⟩ | hlater
    · exact hnone hbreak
    · exact hothers other hlater hlt

end sees

theorem searchLines_eq {look : Cursor → Except CutError (Option Nat)}
    (hlook : ∀ line, ∃ end?, look line = .ok end?) (c : Cursor) : ∃ end?,
      searchLines look c.passed c.offset c.ahead = .ok end? ∧
        ∀ stop, end? = some stop ↔ Sees look c stop := by
  induction hahead : c.ahead generalizing c with
  | nil =>
    refine ⟨none, rfl, fun stop => iff_of_false (Option.some_ne_none _).symm ?_⟩
    rintro ⟨line, ⟨before, hpasses⟩, -⟩
    have hnone := hpasses.ahead
    rw [hahead] at hnone
    simp at hnone
  | cons d ahead ih =>
    let next : Cursor := ⟨d :: c.passed, ahead, c.offset + d.utf8Size⟩
    have hnext : c.Passes [d] next := ⟨hahead, rfl, by simp [next]⟩
    obtain ⟨end?, hend, hsees⟩ := ih next rfl
    rw [searchLines]
    split
    · next hbreak =>
      obtain ⟨first?, hfirst⟩ := hlook next
      rw [show look ⟨d :: c.passed, ahead, c.offset + d.utf8Size⟩ = .ok first? from hfirst]
      cases first? with
      | none =>
        exact ⟨end?, hend, fun stop =>
          (hsees stop).trans (sees_later hnext (fun _ => hfirst) stop).symm⟩
      | some first =>
        exact ⟨some first, rfl, fun stop =>
          Option.some_inj.trans (sees_here hnext hbreak hfirst stop).symm⟩
    · next hother =>
      exact ⟨end?, hend, fun stop =>
        (hsees stop).trans (sees_later hnext (fun h => absurd h hother) stop).symm⟩

/-! The whole search -/

/-- Behind a line break at an offset stands a line that is the name, the case of ASCII letters
aside, with at most a semicolon behind it, and the next line begins at another offset. -/
def ClosesAt (name text : List Char) (n stop : Nat) : Prop :=
  ∃ before word semicolon rest, text = before ++ '\n' :: (word ++ (semicolon ++ '\n' :: rest)) ∧
    byteLength before = n ∧ byteLength word = byteLength name ∧ sameIgnoringCase word name ∧
      (semicolon = [] ∨ semicolon = [';']) ∧
        stop = n + 1 + byteLength word + byteLength semicolon + 1

theorem closesAt_iff {name text front : List Char} {body : Cursor}
    (h : (Cursor.start text).Passes front body) {n : Nat} (hle : body.offset ≤ n) (stop : Nat) :
    ClosesAt name text n stop ↔
      ∃ line, Breaks body line ∧ line.offset = n + 1 ∧ Closes name line stop := by
  constructor
  · rintro ⟨before, word, semicolon, rest, htext, rfl, hlength, hsame, hsemicolon, rfl⟩
    let place : Cursor :=
      ⟨before.reverse, '\n' :: (word ++ (semicolon ++ '\n' :: rest)), byteLength before⟩
    let line : Cursor :=
      ⟨'\n' :: before.reverse, word ++ (semicolon ++ '\n' :: rest), byteLength before + 1⟩
    have hplace : (Cursor.start text).Passes before place :=
      ⟨htext, (List.append_nil _).symm, (Nat.zero_add _).symm⟩
    have hline : place.Passes ['\n'] line := ⟨rfl, rfl, rfl⟩
    obtain ⟨more, -, hmore⟩ := h.between hplace hle
    refine ⟨line, ⟨more, hmore.trans hline⟩, rfl, word, ⟨_, _, _⟩, ⟨rfl, rfl, rfl⟩, hlength, hsame,
      semicolon, rest, rfl, hsemicolon, rfl⟩
  · rintro ⟨line, ⟨before, hbreaks⟩, hn, word, behind, hword, hlength, hsame, semicolon, rest,
      hahead, hsemicolon, rfl⟩
    have hwhole := h.trans hbreaks
    have hbefore : byteLength (front ++ before) + 1 = line.offset := by
      rw [hwhole.offset, ← List.append_assoc, byteLength_append (front ++ before)]
      exact (Nat.zero_add _).symm
    refine ⟨front ++ before, word, semicolon, rest, ?_, by omega, hlength, hsame, hsemicolon, ?_⟩
    · have htext : text = _ := hwhole.ahead
      simp [htext, hword.ahead, hahead]
    · rw [hword.offset, hn]

/-- Where the search starts at a place, it comes to an end: no cut fails. -/
theorem heredocEnd?_eq (name : List Char) {c : Cursor} {start : Nat}
    (h : Boundary c.offset c.ahead start) : ∃ end?, heredocEnd? name c start = .ok end? ∧
      ∀ stop, end? = some stop ↔ Sees (closingEnd? name) (c.seek start) stop := by
  obtain ⟨hpasses, hoffset⟩ := Cursor.passes_boundary h
  obtain ⟨end?, hend, hsees⟩ :=
    searchLines_eq (fun line => (closingEnd?_eq name line).imp fun _ => And.left) (c.seek start)
  have hplace : c.seek? start = some (c.seek start) := by rw [← hpasses.seek?, hoffset]
  exact ⟨end?, by rw [heredocEnd?, hplace]; exact hend, hsees⟩

/-- The search gives the end of the line behind the first line break, at or behind the offset, behind
which a line closes the text, and never cuts the text but between two characters. -/
theorem heredoc_ends_at_first (name : List Char) {text : List Char} {start : Nat}
    (h : Boundary 0 text start) : ∃ end?, heredocEnd? name (.start text) start = .ok end? ∧
      ∀ stop, end? = some stop ↔ ∃ n, start ≤ n ∧ ClosesAt name text n stop ∧
        ∀ n' stop', start ≤ n' → ClosesAt name text n' stop' → n ≤ n' := by
  obtain ⟨end?, hend, hsees⟩ := heredocEnd?_eq name (c := .start text) h
  obtain ⟨hpasses, hoffset⟩ := Cursor.passes_boundary (c := .start text) h
  have hcloses {n : Nat} (hn : start ≤ n) (stop : Nat) : ClosesAt name text n stop ↔ _ :=
    closesAt_iff hpasses (Nat.le_trans (Nat.le_of_eq hoffset) hn) stop
  refine ⟨end?, hend, fun stop => (hsees stop).trans ⟨?_, ?_⟩⟩
  · rintro ⟨line, hline, hlook, hothers⟩
    have hlt := hline.offset_lt
    refine ⟨line.offset - 1, by omega, (hcloses (by omega) stop).2
      ⟨line, hline, by omega, closingEnd?_eq_some.1 hlook⟩, fun n' stop' hn' hcloses' => ?_⟩
    obtain ⟨other, hother, hnext, hstop'⟩ := (hcloses hn' stop').1 hcloses'
    exact Nat.not_lt.1 fun hless =>
      closingEnd?_eq_none.1 (hothers other hother (by omega)) stop' hstop'
  · rintro ⟨n, hn, hstop, hleast⟩
    obtain ⟨line, hline, hnext, hstop⟩ := (hcloses hn stop).1 hstop
    refine ⟨line, hline, closingEnd?_eq_some.2 hstop, fun other hother hlt =>
      closingEnd?_eq_none.2 fun stop' hstop' => ?_⟩
    have hlt' := hother.offset_lt
    have hle := hleast (other.offset - 1) stop' (by omega)
      ((hcloses (by omega) stop').2 ⟨other, hother, by omega, hstop'⟩)
    omega

/-- Three bytes behind its line breaks lie inside a character, behind a line break, and at the end
of a name. -/
def shortLines : List Char := "\naaé\nE\neot;\n".toList

theorem heredoc_ends_at_first_short_lines : ∃ end?,
    heredocEnd? ['E', 'O', 'T'] (.start shortLines) 0 = .ok end? ∧ end? = some 13 ∧
      ∀ stop, end? = some stop ↔ ∃ n, 0 ≤ n ∧ ClosesAt ['E', 'O', 'T'] shortLines n stop ∧
        ∀ n' stop', 0 ≤ n' → ClosesAt ['E', 'O', 'T'] shortLines n' stop' → n ≤ n' := by
  have hvalue : heredocEnd? ['E', 'O', 'T'] (.start shortLines) 0 = .ok (some 13) := rfl
  obtain ⟨end?, hend, hfirst⟩ := heredoc_ends_at_first ['E', 'O', 'T'] (Boundary.here 0 shortLines)
  cases hvalue.symm.trans hend
  exact ⟨_, hvalue, rfl, hfirst⟩

end RuleLexer.Language.Php
