import RuleLexer.Proofs.Callbacks
import RuleLexer.Proofs.Resynchronising

/-! Tables whose rules emit what they match, and nothing else. What a lexer over such a table is
called is only noted, and what its filter does is seen only in the tokens that it gives out, so all
lexers over the table cut a text into the same pieces; and what is said of every match and of every
character that is emitted by itself holds of all tokens. -/
namespace RuleLexer
open RuleLexer.Text RuleLexer.Coverage

def TableOf.OnlyEmits {τ : Type} (t : TableOf τ) : Prop :=
  ∀ rules ∈ t.rules, ∀ rule ∈ rules, ∃ category, rule.action = .emit category

theorem TableDraft.onlyEmits {d : TableDraft} {t : Table} (h : d.compile = .ok t)
    (hemits : d.actions.all Action.emitsMatch) : t.OnlyEmits := by
  intro rules hrules rule hrule
  obtain ⟨action, haction, hrel⟩ := exists_action h hrules hrule
  have hemit := List.all_eq_true.1 hemits action haction
  generalize rule.action = bound at hrel
  cases hrel with
  | emit category => exact ⟨category, rfl⟩
  | _ => cases hemit

/-- The same run by another lexer, which may have noted other things. -/
def Run.Alias (l l' : Lexer) (r r' : Run) : Prop :=
  r.lexer = l ∧ ∃ notices, r' = { r with lexer := l', notices }

structure Point.Alias (l l' : Lexer) (p p' : Point) : Prop where
  run : p.run.Alias l l' p'.run
  taken : ∃ raw : List Token, p.taken = raw.map l.recategorise ∧
    p'.taken = raw.map l'.recategorise

section lexers
variable {l l' : Lexer}

namespace Run.Alias
variable {r r' : Run} (h : r.Alias l l' r')
include h

theorem warn (reason : NoProgress) : (r.warn reason).Alias l l' (r'.warn reason) := by
  obtain ⟨rfl, notices, rfl⟩ := h
  rw [warn_eq r, warn_eq { r with lexer := l', notices }]
  exact ⟨rfl, _, rfl⟩

theorem change (op : StackOp StateId) : (r.change op).Alias l l' (r'.change op) := by
  obtain ⟨rfl, notices, rfl⟩ := h
  rw [change_eq r, change_eq { r with lexer := l', notices }]
  exact ⟨rfl, _, rfl⟩

theorem follow (runner? : Option Runner) {rule : CompiledRule} (found : Match)
    {category : Category} (haction : rule.action = .emit category) :
    (r.follow runner? rule found).1.Alias l l' (r'.follow runner? rule found).1 ∧
      (r'.follow runner? rule found).2 = (r.follow runner? rule found).2 := by
  obtain ⟨rfl, notices, rfl⟩ := h
  have hemit : (r.emit found.start category (r.cursor.upTo found.stop)).Alias r.lexer l'
      (({ r with lexer := l', notices } : Run).emit found.start category
        (r.cursor.upTo found.stop)) := by
    rw [emit_eq, emit_eq]
    exact ⟨rfl, notices, rfl⟩
  rw [Run.follow, Run.follow, haction]
  cases rule.op? with
  | none => exact ⟨hemit, rfl⟩
  | some op => exact ⟨hemit.change op, rfl⟩

variable (htable : l'.table = l.table)
include htable

theorem table_eq : r'.table = r.table := by
  obtain ⟨rfl, notices, rfl⟩ := h
  exact htable

theorem fallback : r.fallback.Alias l l' r'.fallback := by
  have htable := h.table_eq htable
  obtain ⟨rfl, notices, rfl⟩ := h
  cases hahead : r.cursor.ahead with
  | nil =>
    rw [Run.fallback, Run.fallback]
    simp only [hahead]
    exact ⟨rfl, notices, rfl⟩
  | cons c rest =>
    rw [fallback_eq hahead, fallback_eq (r := { r with lexer := l', notices }) hahead]
    have hcategory : ({ r with lexer := l', notices } : Run).fallbackCategory c =
        r.fallbackCategory c := by
      rw [fallbackCategory, fallbackCategory, htable]
    rw [htable, hcategory]
    exact ⟨rfl, _, rfl⟩

theorem settle (next : Cursor) (generation : Nat) :
    (r.settle next generation).Alias l l' (r'.settle next generation) := by
  have hcounted : ∀ zeroSteps, ({ r with zeroSteps } : Run).Alias l l' { r' with zeroSteps } := by
    obtain ⟨rfl, notices, rfl⟩ := h
    exact fun _ => ⟨rfl, notices, rfl⟩
  have hrefused := fun zeroSteps reason => ((hcounted zeroSteps).warn reason).fallback htable
  obtain ⟨rfl, notices, rfl⟩ := h
  exact settle_rel rfl rfl Iff.rfl ⟨rfl, notices, rfl⟩ hcounted hrefused

theorem scan (hemits : l.table.OnlyEmits) : r.scan.Alias l l' r'.scan := by
  have htable' := h.table_eq htable
  obtain ⟨hlexer, notices, hsame⟩ := h
  have hwinner : r'.winner? = r.winner? := by rw [winner?, winner?, htable', hsame]
  have hlevels : r'.levels = r.levels := by rw [levels, levels, hsame]
  have hstack : r'.stack = r.stack := by rw [hsame]
  cases hfirst : r.winner? with
  | none =>
    rw [Run.scan, Run.scan, step_eq, step_eq, hwinner, hfirst]
    exact fallback ⟨hlexer, notices, hsame⟩ htable
  | some winner =>
    obtain ⟨rule, found⟩ := winner
    obtain ⟨rules, hrules, hrule⟩ := exists_rules_of_winner hfirst
    rw [table, hlexer] at hrules
    obtain ⟨category, haction⟩ := hemits rules hrules rule hrule
    obtain ⟨hfollow, hnext⟩ :=
      follow ⟨hlexer, notices, hsame⟩ (runner? r.levels) found haction
    rw [scan_of_winner hfirst, scan_of_winner (hwinner.trans hfirst), hlevels, hstack, hnext]
    exact hfollow.settle htable _ _

end Run.Alias

/-- Two lexers over one table that only emits give the same pieces. -/
theorem Run.tokens_of_one_table (htable : l'.table = l.table) (hemits : l.table.OnlyEmits)
    (states : List StateId) (text : List Char) (depth : Nat) :
    ∃ raw : List Token, (start l states text depth).tokens = raw.map l.recategorise ∧
      (start l' states text depth).tokens = raw.map l'.recategorise := by
  have hstart : (start l states text depth).Alias l l' (start l' states text depth) :=
    ⟨rfl, [], by rw [start, start, htable]⟩
  have hafter : ∀ turns, Point.Alias l l' (Point.after turns (start l states text depth))
      (Point.after turns (start l' states text depth)) := by
    refine Point.lockstep (Q := Point.Alias l l') ⟨hstart, [], rfl, rfl⟩ ?_ ?_ ?_ ?_
    · rintro q q' ⟨⟨-, notices, hrun⟩, -⟩
      rw [hrun]
    · rintro q q' ⟨⟨-, notices, hrun⟩, -⟩
      rw [hrun]
    · rintro q q' t t' rest rest' hfirst hsecond ⟨⟨hlexer, notices, hrun⟩, raw, htaken, htaken'⟩
      obtain ⟨rfl, rfl⟩ : t = t' ∧ rest = rest' := by
        rw [hrun, hfirst] at hsecond
        exact List.cons.inj hsecond
      rw [Point.turn_of_pending hfirst, Point.turn_of_pending hsecond]
      refine ⟨⟨hlexer, notices, by simp [hrun]⟩, raw ++ [t], ?_, ?_⟩
      · simp [htaken, hlexer]
      · simp [htaken', hrun]
    · rintro turns hfirst hsecond hend ⟨⟨hlexer, notices, hrun⟩, htaken⟩
      rw [Point.turn_of_scan hfirst hend, Point.turn_of_scan hsecond (by rwa [hrun])]
      exact ⟨Alias.scan ⟨hlexer, notices, hrun⟩ htable hemits, htaken⟩
  obtain ⟨turns, hdone, hplayed, -⟩ := exists_turns_played l states text depth
  obtain ⟨turns', hdone', hplayed', -⟩ := exists_turns_played l' states text depth
  obtain ⟨⟨-, notices, hrun⟩, raw, htaken, htaken'⟩ := hafter turns
  have hends : (Point.after turns (start l' states text depth)).Done := by
    refine ⟨?_, ?_⟩ <;> rw [hrun]
    exacts [hdone.pending, hdone.atEnd]
  rw [hends.unique hdone'] at htaken'
  rw [tokens_eq_played, tokens_eq_played, ← hplayed, ← hplayed']
  exact ⟨raw, htaken, htaken'⟩

/-! What is emitted -/

section emitted
variable {P : Token → Prop}

/-- What holds of a match under the category of its rule, and of a character by itself. -/
structure Lexer.Gives (l : Lexer) (P : Token → Prop) : Prop where
  matched : ∀ r : Run, r.lexer = l → ∀ rule found category, r.winner? = some (rule, found) →
    rule.action = .emit category → ∀ offset,
      P ⟨offset, category, String.ofList (r.cursor.upTo found.stop)⟩
  single : ∀ r : Run, r.lexer = l → ∀ offset c,
    P ⟨offset, r.fallbackCategory c, String.ofList [c]⟩

namespace Run
variable {r : Run}

theorem forall_pending_fallback (hlexer : r.lexer = l) (hgives : l.Gives P)
    (hpending : ∀ t ∈ r.pending, P t) : ∀ t ∈ r.fallback.pending, P t := by
  cases hahead : r.cursor.ahead with
  | nil =>
    rw [fallback, hahead]
    exact hpending
  | cons c rest =>
    rw [fallback_eq hahead]
    intro t ht
    rcases List.mem_append.1 ht with ht | ht
    · exact hpending t ht
    · rw [List.mem_singleton.1 ht]
      exact hgives.single r hlexer _ c

theorem forall_pending_scan (hlexer : r.lexer = l) (hemits : l.table.OnlyEmits)
    (hgives : l.Gives P) (hpending : ∀ t ∈ r.pending, P t) : ∀ t ∈ r.scan.pending, P t := by
  cases hwinner : r.winner? with
  | none =>
    rw [scan, step_eq, hwinner]
    exact forall_pending_fallback hlexer hgives hpending
  | some winner =>
    obtain ⟨rule, found⟩ := winner
    obtain ⟨rules, hrules, hrule⟩ := exists_rules_of_winner hwinner
    rw [table, hlexer] at hrules
    obtain ⟨category, haction⟩ := hemits rules hrules rule hrule
    have hplain : ∀ f, rule.action ≠ .callback f := by simp [haction]
    have hfollow : ∀ t ∈ (r.follow (runner? r.levels) rule found).1.pending, P t := by
      rw [pending_follow _ _ _ _ hplain, haction]
      intro t ht
      rcases List.mem_append.1 ht with ht | ht
      · exact hpending t ht
      · simp only [Match.pieces, List.flatMap_cons, List.flatMap_nil, List.append_nil,
          Piece.tokens, tokensOf] at ht
        split at ht
        · cases ht
        · rw [List.mem_singleton.1 ht]
          exact hgives.matched r hlexer rule found category hwinner haction _
    have hkept : (r.follow (runner? r.levels) rule found).1.lexer = l := by
      rwa [follow_eq, act_eq _ _ _ _ hplain, putAll_eq]
    rw [scan_of_winner hwinner]
    rcases settle_cases (r.follow (runner? r.levels) rule found).1
      (r.follow (runner? r.levels) rule found).2 r.stack.generation with
      ⟨-, _, _, hsettle⟩ | ⟨reason, -, zeroSteps, hsettle⟩
    · rw [hsettle]
      exact hfollow
    · rw [hsettle]
      refine forall_pending_fallback ?_ hgives ?_ <;> rw [warn_eq]
      exacts [hkept, hfollow]

theorem forall_tokens_after (hemits : l.table.OnlyEmits) (hgives : l.Gives P)
    (states : List StateId) (text : List Char) (depth turns : Nat) :
    let p := Point.after turns (start l states text depth)
    (∀ t ∈ p.run.pending, P t) ∧ ∀ u ∈ p.taken, ∃ t, u = l.recategorise t ∧ P t := by
  induction turns with
  | zero => exact ⟨by simp [Point.after, start], by simp [Point.after]⟩
  | succ turns ih =>
    intro p
    obtain ⟨hpending, htaken⟩ := ih
    have hlexer := (Point.Holds.after l states text depth turns).lexer
    simp only [p, Point.after_succ]
    cases hfirst : (Point.after turns (start l states text depth)).run.pending with
    | cons t rest =>
      rw [hfirst] at hpending
      obtain ⟨ht, hrest⟩ := List.forall_mem_cons.1 hpending
      rw [Point.turn_of_pending hfirst]
      refine ⟨hrest, fun u hu => ?_⟩
      rcases List.mem_append.1 hu with hu | hu
      · exact htaken u hu
      · exact ⟨t, by rw [List.mem_singleton.1 hu, hlexer], ht⟩
    | nil =>
      by_cases hend : (Point.after turns (start l states text depth)).run.cursor.ahead = []
      · rw [Point.turn_of_done hfirst hend]
        exact ⟨hpending, htaken⟩
      · rw [Point.turn_of_scan hfirst hend]
        exact ⟨forall_pending_scan hlexer hemits hgives hpending, htaken⟩

theorem forall_tokens (hemits : l.table.OnlyEmits) (hgives : l.Gives P) (states : List StateId)
    (text : List Char) (depth : Nat) :
    ∀ u ∈ (start l states text depth).tokens, ∃ t, u = l.recategorise t ∧ P t := by
  obtain ⟨turns, -, htaken, -⟩ := exists_turns_played l states text depth
  rw [tokens_eq_played, ← htaken]
  exact (forall_tokens_after hemits hgives states text depth turns).2

end Run

end emitted

end lexers

end RuleLexer
