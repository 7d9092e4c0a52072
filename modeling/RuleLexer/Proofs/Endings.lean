import RuleLexer.Proofs.Lazy

/-! What is taken up to an ending. Where a pattern begins with a character that it has nowhere else,
a match of it cannot begin in what stands before one and go on into it. So a rule that takes any
characters up to the next match of the pattern takes a whole text in which there is none. -/
namespace RuleLexer
open RuleLexer.Text RuleLexer.Regex

namespace Regex

/-- A pattern that asks for nothing but characters, the first of which it has nowhere else. -/
structure BeginsAlone (r : Regex) (d : Char) : Prop where
  plain : r.node.plain
  begins : r.node.beginsAt d
  numbered : Numbered (r.anywhere.forks [])

instance (r : Regex) (d : Char) : Decidable (r.BeginsAlone d) :=
  decidable_of_iff (r.node.plain ∧ r.node.beginsAt d ∧ Numbered (r.anywhere.forks []))
    ⟨fun ⟨h₁, h₂, h₃⟩ => ⟨h₁, h₂, h₃⟩, fun ⟨h₁, h₂, h₃⟩ => ⟨h₁, h₂, h₃⟩⟩

theorem BeginsAlone.not_leads {r : Regex} {d : Char} (h : r.BeginsAlone d)
    {front back rest : List Char} (hnone : r.isMatch (front ++ back) = false) (hback : back ≠ [])
    {c c' : Cursor} (hahead : c.ahead = back ++ d :: rest) (σ σ' : Slots) :
    ¬r.node.Leads c σ c' σ' := by
  intro hleads
  obtain ⟨piece, hpasses, hcrosses⟩ := hleads.crosses h.plain
  obtain ⟨piece', hpasses', hnot⟩ := hleads.not_mem_tail h.begins
  have hsame : piece' = piece :=
    (Cursor.upTo_of_passes hpasses').symm.trans (Cursor.upTo_of_passes hpasses)
  subst hsame
  have hwithin : ∀ more, back ≠ piece' ++ more := by
    rintro more rfl
    rw [isMatch_of_crosses h.numbered hcrosses] at hnone
    cases hnone
  have hsplit := hpasses.ahead
  rw [hahead] at hsplit
  rcases List.append_eq_append_iff.1 hsplit with ⟨more, hpiece, hmore⟩ | ⟨more, hmore, -⟩
  · cases more with
    | nil => exact hwithin [] (by simp [hpiece])
    | cons e more =>
      obtain ⟨rfl, -⟩ := List.cons.inj hmore
      obtain ⟨b, back, rfl⟩ := List.exists_cons_of_ne_nil hback
      exact hnot (by simp [hpiece])
  · exact hwithin more hmore

end Regex

/-! Rules -/

/-- Evaluates to whether a pattern is an ending that matches a word and begins with a character that
it has nowhere else, and whether one can take any characters up to it. -/
def Pattern.ends (flags : PatternFlags) (ending : String) (d : Char) (word : List Char) : Bool :=
  (tree? flags ending.toList none).any fun alone =>
    (tree? flags ".+?".toList (some ending)).any fun upTo =>
      alone.fitsWith CharSet.roughRoom && upTo.fitsWith CharSet.roughRoom &&
        decide (alone.regex.BeginsAlone d) &&
          (upTo.regex.parts? true).any fun parts => decide (upTo.regex.TakesFewest 1 1 parts.2) &&
            parts.2.plain && parts.2.alike alone.regex.node &&
              (parts.2.left (some (d :: word))).contains (some [])

section rules
variable {flags : PatternFlags} {ending : String} {d : Char} {word : List Char}

theorem Pattern.exists_ending (h : ends flags ending d word) : ∃ alone upTo next,
    compile ending none flags = .ok alone ∧ compile ".+?" (some ending) flags = .ok upTo ∧
      alone.regex.BeginsAlone d ∧ alone.ahead? = none ∧ upTo.ahead? = some ending ∧
      upTo.regex.TakesFewest 1 1 next ∧ next.alike alone.regex.node ∧
      next.Crosses (d :: word) := by
  obtain ⟨aloneTree, halone, h⟩ := (Option.any_eq_true _ _).1 h
  obtain ⟨upToTree, hupTo, h⟩ := (Option.any_eq_true _ _).1 h
  simp only [Bool.and_eq_true, decide_eq_true_eq] at h
  obtain ⟨⟨⟨haloneFits, hupToFits⟩, hbegins⟩, hparts⟩ := h
  obtain ⟨⟨body, next⟩, -, hnext⟩ := (Option.any_eq_true _ _).1 hparts
  simp only [Bool.and_eq_true, decide_eq_true_eq, List.contains_iff_mem] at hnext
  obtain ⟨⟨⟨hfewest, hplain⟩, halike⟩, hleft⟩ := hnext
  obtain ⟨alone, hcompile, hregex, hahead⟩ :=
    compile_of_tree halone (Ast.fits_of_rough haloneFits)
  obtain ⟨upTo, hcompile', hregex', hahead'⟩ :=
    compile_of_tree hupTo (Ast.fits_of_rough hupToFits)
  obtain ⟨piece, hpiece, hcrosses⟩ := Node.exists_crosses_of_left hplain hleft
  rw [List.append_nil] at hpiece
  rw [← hregex] at hbegins halike
  rw [← hregex'] at hfewest
  rw [← Option.some.inj hpiece] at hcrosses
  exact ⟨alone, upTo, next, hcompile, hcompile', hbegins, hahead, hahead', hfewest, halike,
    hcrosses⟩

theorem Rule.Binds.matchAt_eq {names : List String} {r : Rule Delegate} {c : CompiledRule}
    (h : r.Binds flags names c) {source : String} {ahead? : Option String}
    (hsource : r.source = .pattern source ahead?) {p : Pattern}
    (hcompile : Pattern.compile source ahead? flags = .ok p) (place : Cursor) :
    c.matcher.matchAt place = p.matchAt place := by
  have hreads := h.source
  rw [hsource] at hreads
  generalize c.matcher = matcher at hreads
  cases hreads with
  | pattern compiles =>
    cases compiles.symm.trans hcompile
    rfl

/-- Of a rule for the ending and one for what stands before it, the second wins, and takes all of a
text without an ending in it. -/
theorem Run.firstMatch_ending {names : List String} {closes takes : Rule Delegate}
    (h : Pattern.ends flags ending d word) (hcloses : closes.source = .pattern ending none)
    (htakes : takes.source = .pattern ".+?" (some ending)) {compiled : List CompiledRule}
    (hbinds : List.Forall₂ (Rule.Binds flags names) [closes, takes] compiled) {alone : Pattern}
    (halone : Pattern.compile ending none flags = .ok alone) {body rest : List Char}
    (hbody : body ≠ []) (hnone : alone.regex.isMatch body = false) {place : Cursor}
    (hahead : place.ahead = body ++ (d :: word ++ rest)) :
    ∃ c found, takes.Binds flags names c ∧ firstMatch place compiled = some (c, found) ∧
      place.upTo found.stop = body := by
  obtain ⟨alone', upTo, next, hcompile, hcompile', hbegins, haheadNone, haheadSome, hfewest, halike,
    hcrosses⟩ := Pattern.exists_ending h
  cases halone.symm.trans hcompile
  obtain ⟨first, _, hfirst, hrest, rfl⟩ := List.forall₂_cons_left_iff.1 hbinds
  obtain ⟨second, _, hsecond, hnil, rfl⟩ := List.forall₂_cons_left_iff.1 hrest
  cases hnil
  have hmisses : first.matcher.matchAt place = none := by
    rw [hfirst.matchAt_eq hcloses hcompile]
    cases hfound : alone.matchAt place with
    | none => rfl
    | some m =>
      have hparts : alone.regex.parts? alone.ahead?.isSome = some (alone.regex.node, .empty) := by
        rw [haheadNone]
        rfl
      obtain ⟨_, _, σ, σ', _, _, hleads, -⟩ := Pattern.matchAt_leads hfound hparts
      have hwhole : alone.regex.isMatch ([] ++ body) = false := hnone
      exact absurd hleads (hbegins.not_leads hwhole hbody hahead σ σ')
  obtain ⟨stop, hstop⟩ : ∃ stop, place.Passes body stop := ⟨⟨_, _, _⟩, hahead, rfl, rfl⟩
  obtain ⟨stop', hstop'⟩ : ∃ stop', stop.Passes (d :: word) stop' :=
    ⟨⟨_, _, _⟩, List.append_cancel_left (hstop.ahead.symm.trans hahead), rfl, rfl⟩
  obtain ⟨m, hfound, -, hm⟩ := Pattern.matchAt_fewest (by rw [haheadSome]; rfl) hfewest hstop hbody
    (fun front back c hsplit _ hback hpasses c' hway => by
      obtain ⟨σ', hleads⟩ := hway []
      have hmore : c.ahead = back ++ d :: (word ++ rest) := by
        rw [hpasses.ahead, hsplit, List.append_assoc] at hahead
        exact List.append_cancel_left hahead
      subst hsplit
      exact hbegins.not_leads hnone hback hmore [] σ' (hleads.of_alike halike))
    (hcrosses stop stop' hstop')
  refine ⟨second, m, hsecond, ?_, ?_⟩
  · rw [firstMatch, hmisses, firstMatch, hsecond.matchAt_eq htakes hcompile', hfound]
  · rw [hm, Cursor.upTo_of_passes hstop]

end rules

end RuleLexer
