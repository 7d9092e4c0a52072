import RuleLexer.Proofs.OwnRuns
import RuleLexer.Proofs.Refiltering
import RuleLexer.Proofs.StackSafety

/-! How often a filter is applied. A run gives its tokens out through the filter of its lexer, and
so does each run of the same lexer that the text of the token has passed through. A filter changes
nothing else: the tokens are those of the lexer without it, each with the filter applied as often as
there are runs of that lexer around it. -/
namespace RuleLexer
open RuleLexer.Text RuleLexer.Coverage

def Token.retagged (f : TokenFilter) (times : Nat) (t : Token) : Token :=
  t.retag ((f · t.text)^[times] t.category)

namespace Token
variable (f : TokenFilter) (times : Nat) (t : Token)

@[simp] theorem offset_retagged : (t.retagged f times).offset = t.offset := rfl

@[simp] theorem text_retagged : (t.retagged f times).text = t.text := rfl

theorem retagged_succ : t.retagged f (times + 1) =
    (t.retagged f times).retag (f (t.retagged f times).category t.text) := by
  simp only [retagged, retag, Function.iterate_succ_apply']

variable {f}

theorem retagged_of_idempotent (h : ∀ c text, f (f c text) text = f c text) :
    t.retagged f (times + 1) = t.retag (f t.category t.text) := by
  induction times with
  | zero => rfl
  | succ times ih =>
    rw [retagged_succ, ih]
    simp [retag, h]

end Token

section retagging
variable {l : Lexer} {f : TokenFilter}

theorem sameFrame_withFilter (l : Lexer) (first second : Option TokenFilter) :
    Lexer.SameFrame (l.withFilter first) (l.withFilter second) :=
  ((Lexer.Refiltered.refl l).withFilter first second).sameFrame

/-- `u` is `t` with the filter applied for each run of the own lexer within `r` that is around it,
and so many times more. -/
def Run.Retags (r : Run) (f : TokenFilter) (more : Nat) (t u : Token) : Prop :=
  ∃ own, r.Around own t.offset ∧ ¬r.Around (own + 1) t.offset ∧ u = t.retagged f (own + more)

def Point.Retags (l : Lexer) (f : TokenFilter) (r : Run) (p p' : Point) : Prop :=
  p.Beside (l.withFilter none) (l.withFilter (some f)) (r.Retags f 0) (r.Retags f 1) p'

variable {states : List StateId} {text : List Char} {depth turns : Nat} {q : Point}

theorem Run.retags_refl {t : Token} :
    let r := start l states text depth
    let p := Point.after turns r
    p.run.pending = [] → p.run.cursor.ahead ≠ [] → p.run.position ≤ t.offset →
      t.offset < p.run.scan.position →
      (∀ offset inner, p.run.StartsOwn offset inner → offset ≤ t.offset →
        offset + byteLength inner.cursor.ahead ≤ t.offset) → r.Retags f 0 t t := by
  intro r p hpending hend hle hlt hothers
  have hholds := Point.Holds.after l states text depth (turns + 1)
  have hplace := hholds.position_le
  rw [Point.position_after_scan hpending hend] at hplace
  refine ⟨0, around_zero (Nat.lt_of_lt_of_le hlt hplace), fun haround => ?_, rfl⟩
  obtain ⟨offset, inner, hstarts, hoffset, hinner⟩ :=
    (around_succ_iff hpending hend hle hlt).1 haround
  have hbehind := hothers offset inner hstarts hoffset
  have hinside := hstarts.lt_of_around hinner
  omega

theorem Run.Retags.shift {t u : Token} {offset : Nat} {inner : Run} :
    let r := start l states text depth
    let p := Point.after turns r
    p.run.pending = [] → p.run.StartsOwn offset inner → inner.Retags f 1 t u →
      r.Retags f 0 (t.shift offset) (u.shift offset) := by
  rintro r p hpending hstarts ⟨own, haround, hno, rfl⟩
  have hend := hstarts.ahead_ne_nil
  have hbounds := hstarts.bounds
  have hinner := hstarts.lt_of_around haround
  have hle : p.run.position ≤ (t.shift offset).offset := by
    rw [Token.offset_shift]
    omega
  have hlt : (t.shift offset).offset < p.run.scan.position := by
    rw [Token.offset_shift]
    omega
  have hback : (t.shift offset).offset - offset = t.offset := by simp
  refine ⟨own + 1, (around_succ_iff hpending hend hle hlt).2 ?_, fun hmore => ?_, rfl⟩
  · exact ⟨offset, inner, hstarts, by simp, by rwa [hback]⟩
  · obtain ⟨offset', inner', hstarts', hoffset, hdeeper⟩ :=
      (around_succ_iff hpending hend hle hlt).1 hmore
    have hinner' := hstarts'.lt_of_around hdeeper
    have hstart : offset ≤ (t.shift offset).offset := by simp
    have hstop : (t.shift offset).offset < offset + byteLength inner.cursor.ahead := by
      rw [Token.offset_shift]
      omega
    obtain ⟨rfl, rfl⟩ := hstarts.unique hstarts' hstart hstop hoffset (by omega)
    rw [hback] at hdeeper
    exact hno hdeeper

theorem Point.Retags.scan :
    let r := Run.start (l.withFilter none) states text depth
    let p := after turns r
    p.run.pending = [] → p.run.cursor.ahead ≠ [] → p.Retags l f r q →
    (∀ offset states piece,
      let inner := Run.start (l.withFilter none) states piece (depth + 1)
      let filtered := Run.start (l.withFilter (some f)) states piece (depth + 1)
      p.run.StartsOwn offset inner →
        List.Forall₂ (inner.Retags f 1) inner.played.1 filtered.played.1 ∧
          filtered.played.2 = inner.played.2) →
    p.run.scan.Beside (l.withFilter none) (l.withFilter (some f)) (r.Retags f 0) q.run.scan := by
  intro r p hpending hend hq hinner
  have hframe := sameFrame_withFilter l none (some f)
  have hdepth : p.run.depth = depth := (Holds.after _ states text depth turns).depth
  have hwinner := hq.run.winner?_eq rfl
  by_cases hnone : ∀ offset inner, ¬p.run.StartsOwn offset inner
  · have hscan := (hq.run.of_pending_nil hpending).scan_of_played hframe rfl hwinner
      fun offset states piece hstarts => absurd hstarts (hnone _ _)
    refine hscan.mono fun t u ht heq => ?_
    subst heq
    have hbounds := Run.mem_scan_bounds hpending hend ht
    exact Run.retags_refl hpending hend hbounds.1 hbounds.2
      fun offset inner hstarts => absurd hstarts (hnone _ _)
  · simp only [not_forall, not_not] at hnone
    obtain ⟨offset, inner, hstarts⟩ := hnone
    obtain ⟨rule, found, hfirst, hplain, hcursor, hmoves, htiles⟩ := hstarts.exists_winner
    have hroom := hstarts.depth_lt
    have hpieces := Run.forall₂_pieces (T := r.Retags f 0) hframe rfl hq.run.1 hfirst
      (fun piece hp hother t ht => ?_) (fun offset states piece hstarts => ?_)
    · rw [Run.scan, Run.scan, hq.run.levels_eq]
      refine hq.run.step_of_pieces hfirst (hwinner.trans hfirst) rfl hplain hplain hpieces ?_
      rwa [← hcursor]
    · have hother : ¬piece.Own := fun hown => Nat.not_le.2 hroom (hother hown)
      have hcovers := piece.covers_tokens (l.withFilter none) (Run.runner?_covering p.run.levels)
      have hplace := hcovers.mem_bounds ht
      have hpiece : p.run.position ≤ piece.offset ∧
          piece.offset + byteLength piece.text ≤ p.run.scan.position := htiles.mem_bounds hp
      refine Run.retags_refl hpending hend (Nat.le_trans hpiece.1 hplace.1)
        (Nat.lt_of_lt_of_le hplace.2 hpiece.2) fun offset inner hstarts hoffset => ?_
      refine Nat.le_of_not_lt fun hinner => hother ?_
      obtain ⟨states?, hfate, -⟩ :=
        hstarts.eq_piece hfirst hp hplace.1 hplace.2 hoffset hinner
      exact ⟨states?, hfate, fun hnil => by simp [hnil] at hplace; omega⟩
    · rw [hdepth] at hstarts
      obtain ⟨htokens, hnoted⟩ := hinner _ _ _ hstarts
      rw [hdepth]
      exact ⟨htokens.imp fun t u htu => htu.shift hpending hstarts, hnoted⟩

/-- Every turn keeps the count, in the run and in all runs of its own lexer within it. -/
theorem Point.retags_after (l : Lexer) (f : TokenFilter) (states : List StateId)
    (text : List Char) (depth turns : Nat) :
    let r := Run.start (l.withFilter none) states text depth
    let filtered := Run.start (l.withFilter (some f)) states text depth
    Retags l f r (after turns r) (after turns filtered) := by
  refine beside_own (K := fun _ => True) (T := fun r => r.Retags f 0) (G := fun r => r.Retags f 1)
    (sameFrame_withFilter l none (some f)) (fun _ _ _ _ _ _ _ => trivial) ?_
    (fun states text depth turns q _ => Retags.scan) states text depth trivial turns
  rintro r t u ⟨own, haround, hno, rfl⟩
  exact ⟨own, haround, hno, (Token.retagged_succ f own t).symm⟩

theorem Run.not_around_succ {l : Lexer} (hl : ∀ rules ∈ l.table.rules, ∀ rule ∈ rules, ∀ states?,
    ¬rule.action.HandsTo (.this states?)) (own place : Nat) :
    ¬(start l states text depth).Around (own + 1) place := by
  rintro ⟨base, last, howns, -, -⟩
  cases howns with
  | inner turns pending started later =>
    cases started with
    | handed room winner nonempty mem =>
      have hlexer := (Point.Holds.after l states text depth turns).lexer
      obtain ⟨rules, hrules, hrule⟩ := exists_rules_of_winner winner
      rw [table, hlexer] at hrules
      exact hl rules hrules _ hrule _ (handsTo_of_mem_pieces mem rfl)

/-- A filter that changes nothing more when it is applied again, or that is never applied again,
can be applied to the tokens that there are without it. -/
theorem Run.tokens_withFilter (l : Lexer) (f : TokenFilter)
    (honce : (∀ c text, f (f c text) text = f c text) ∨
      ∀ rules ∈ l.table.rules, ∀ rule ∈ rules, ∀ states?, ¬rule.action.HandsTo (.this states?))
    (states : List StateId) (text : List Char) (depth : Nat) :
    (start (l.withFilter (some f)) states text depth).tokens =
      (start (l.withFilter none) states text depth).tokens.map
        fun t => t.retag (f t.category t.text) := by
  have hplayed := (Point.Beside.played (Point.retags_after l f states text depth)).1
  have hretagged : List.Forall₂ (fun t u => t.retag (f t.category t.text) = u)
      (start (l.withFilter none) states text depth).played.1
      (start (l.withFilter (some f)) states text depth).played.1 := by
    refine hplayed.imp fun t u htu => ?_
    obtain ⟨own, haround, -, rfl⟩ := htu
    rcases honce with hidempotent | hquiet
    · exact (t.retagged_of_idempotent own hidempotent).symm
    · cases own with
      | zero => rfl
      | succ own =>
        have hnone : ¬(start (l.withFilter none) states text depth).Around (own + 1) t.offset :=
          not_around_succ (l := l.withFilter none) hquiet own t.offset
        exact absurd haround hnone
  rw [tokens_eq_played, tokens_eq_played, ← List.forall₂_eq_eq_eq, List.forall₂_map_right_iff]
  exact hretagged.flip.imp fun t u h => h.symm

theorem Run.tokens_withErrors (l : Lexer) (optionErrors : List OptionError)
    (states : List StateId) (text : List Char) (depth : Nat) :
    (start { l with optionErrors } states text depth).tokens =
      (start l states text depth).tokens := by
  have hframe : Lexer.SameFrame l { l with optionErrors } := ⟨rfl, rfl, rfl, rfl, rfl⟩
  refine (Point.Beside.same fun turns => ?_).2
  refine Point.beside_own (K := fun _ => True) (T := fun _ => Eq) (G := fun _ => Eq) hframe
    (fun _ _ _ _ _ _ _ => trivial) (fun r t u htu => congrArg l.recategorise htu) ?_
    states text depth trivial turns
  intro states text depth turns q r p _ hpending hend hbeside hinner
  have hdepth : p.run.depth = depth := (Point.Holds.after l states text depth turns).depth
  refine hbeside.run.scan_of_played hframe rfl (hbeside.run.winner?_eq rfl)
    fun offset states' piece hstarts => ?_
  rw [hdepth] at hstarts ⊢
  obtain ⟨htokens, hnotices⟩ := hinner offset states' piece hstarts
  rw [List.forall₂_eq_eq_eq] at htokens
  exact Prod.ext htokens.symm hnotices

end retagging

/-- A filter changes no token but in its category, and is applied to it once for the run that it is
given out by and once more for each run of the same lexer within that one that is around it. What is
filtered is as if each token had been filtered once when the filter is idempotent, and when no rule
hands text to the lexer that runs. -/
theorem filter_applied_per_run (l : Lexer) (f : TokenFilter) (states : List StateId)
    (text : List Char) (depth : Nat) :
    let plain := Run.start (l.withFilter none) states text depth
    let filtered := Run.start (l.withFilter (some f)) states text depth
    List.Forall₂ (fun t u => ∃ own, (∀ n, plain.Around n t.offset ↔ n ≤ own) ∧
      u = t.retagged f (own + 1)) plain.tokens filtered.tokens ∧
    ((∀ c text, f (f c text) text = f c text) ∨
        (∀ rules ∈ l.table.rules, ∀ rule ∈ rules, ∀ states?,
          ¬rule.action.HandsTo (.this states?)) →
      filtered.tokens = plain.tokens.map fun t => t.retag (f t.category t.text)) := by
  intro plain filtered
  refine ⟨?_, fun honce => Run.tokens_withFilter l f honce states text depth⟩
  have hplayed := (Point.Beside.played (Point.retags_after l f states text depth)).1
  rw [Run.tokens_eq_played, Run.tokens_eq_played]
  refine hplayed.imp fun t u htu => ?_
  obtain ⟨own, haround, hno, hretagged⟩ := htu
  exact ⟨own, fun n => Run.around_iff_le haround hno, hretagged⟩

/-- Makes a number a name, and a name plain text. -/
def fading : TokenFilter := fun category _ =>
  if category = .number then .name else if category = .name then .text else category

theorem filter_applied_per_run_nesting :
    (∃ own, (∀ n, ((nestingLexer.withFilter none).run "baa").Around n 1 ↔ n ≤ own) ∧
      ⟨1, .text, "a"⟩ = Token.retagged fading (own + 1) ⟨1, .number, "a"⟩) ∧
    ((nestingLexer.withFilter (some fun _ _ => .name)).run "baa").tokens =
      ((nestingLexer.withFilter none).run "baa").tokens.map fun t => t.retag .name := by
  have hplain : ((nestingLexer.withFilter none).run "baa").tokens =
      [⟨0, .keyword, "b"⟩, ⟨1, .number, "a"⟩, ⟨2, .number, "a"⟩] := by decide +kernel
  have hfiltered : ((nestingLexer.withFilter (some fading)).run "baa").tokens =
      [⟨0, .keyword, "b"⟩, ⟨1, .text, "a"⟩, ⟨2, .text, "a"⟩] := by decide +kernel
  have hcount := (filter_applied_per_run nestingLexer fading [0] ['b', 'a', 'a'] 0).1
  have honce := (filter_applied_per_run nestingLexer (fun _ _ => .name) [0] ['b', 'a', 'a'] 0).2
    (.inl fun _ _ => rfl)
  refine ⟨?_, honce⟩
  have hcount : List.Forall₂ _ ((nestingLexer.withFilter none).run "baa").tokens
    ((nestingLexer.withFilter (some fading)).run "baa").tokens := hcount
  rw [hplain, hfiltered] at hcount
  simp only [List.forall₂_cons] at hcount
  exact hcount.2.1

/-- Where a rule hands text to the lexer that runs, a filter may be applied more than once. -/
theorem filter_applied_twice : ¬∀ l, Lexer.Built l → ∀ f text,
    ((l.withFilter (some f)).run text).tokens =
      ((l.withFilter none).run text).tokens.map fun t => t.retag (f t.category t.text) := by
  intro h
  have honce := h nestingLexer built_nestingLexer fading "baa"
  exact absurd honce (by decide +kernel)

end RuleLexer
