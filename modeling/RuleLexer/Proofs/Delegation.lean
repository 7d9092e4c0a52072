import RuleLexer.Proofs.Nested

/-! Delegation as a splice. Where a rule hands a piece of text on, the tokens of a whole run over
that piece stand in the place of the one token that the piece would else be, moved to the offset of
the piece. Whatever that run does, the run around it goes on as if there had been only a token. -/
namespace RuleLexer
open RuleLexer.Text RuleLexer.Coverage

def Emission.plain (category : Category) : Emission Target → Emission Target
  | .token c => .token c
  | .delegate _ => .token category

def Action.plain (category : Category) : Action Target → Action Target
  | .emit c => .emit c
  | .groups emissions => .groups (emissions.map (Emission.plain category))
  | .delegate _ => .emit category
  | .callback f => .callback f

namespace Run

/-- The runs differ in their tokens and notices at most. -/
def Alike (r r' : Run) : Prop := ∃ pending notices, r' = { r with pending, notices }

namespace Alike
variable {r r' : Run}

theorem refl (r : Run) : r.Alike r := ⟨_, _, rfl⟩

theorem symm (h : r.Alike r') : r'.Alike r := by
  obtain ⟨pending, notices, rfl⟩ := h
  exact ⟨r.pending, r.notices, rfl⟩

theorem trans {r'' : Run} (h : r.Alike r') (h' : r'.Alike r'') : r.Alike r'' := by
  obtain ⟨pending, notices, rfl⟩ := h
  obtain ⟨pending, notices, rfl⟩ := h'
  exact ⟨_, _, rfl⟩

theorem change (h : r.Alike r') (op : StackOp StateId) : (r.change op).Alike (r'.change op) := by
  obtain ⟨pending, notices, rfl⟩ := h
  rw [change_eq r, change_eq { r with pending, notices }]
  exact ⟨_, _, rfl⟩

theorem warn (h : r.Alike r') (reason : NoProgress) : (r.warn reason).Alike (r'.warn reason) := by
  obtain ⟨pending, notices, rfl⟩ := h
  rw [warn_eq r, warn_eq { r with pending, notices }]
  exact ⟨_, _, rfl⟩

theorem fallback (h : r.Alike r') : r.fallback.Alike r'.fallback := by
  obtain ⟨pending, notices, rfl⟩ := h
  cases hahead : r.cursor.ahead with
  | nil => simpa [Run.fallback, hahead] using ⟨_, _, rfl⟩
  | cons c rest =>
    rw [fallback_eq hahead, fallback_eq (r := { r with pending, notices }) hahead]
    exact ⟨_, _, rfl⟩

theorem settle (h : r.Alike r') (next : Cursor) (generation : Nat) :
    (r.settle next generation).Alike (r'.settle next generation) := by
  have hcounted : ∀ zeroSteps, ({ r with zeroSteps } : Run).Alike { r' with zeroSteps } := by
    obtain ⟨pending, notices, rfl⟩ := h
    exact fun _ => ⟨_, _, rfl⟩
  have hrefused := fun zeroSteps reason => ((hcounted zeroSteps).warn reason).fallback
  obtain ⟨pending, notices, rfl⟩ := h
  exact settle_rel rfl rfl Iff.rfl ⟨_, _, rfl⟩ hcounted hrefused

end Alike

theorem alike_putAll (runner? : Option Runner) (r : Run) (pieces : List Piece) :
    r.Alike (r.putAll runner? pieces) := by
  rw [putAll_eq]
  exact ⟨_, _, rfl⟩

theorem alike_apply_plain (runner? : Option Runner) (r : Run) (rule : CompiledRule)
    (found : Match) (category : Category) :
    (r.apply runner? rule found).Alike
      (r.apply runner? { rule with action := rule.action.plain category } found) := by
  have hact : (r.act runner? rule.action found).1.Alike
      (r.act runner? (rule.action.plain category) found).1 ∧
      (r.act runner? (rule.action.plain category) found).2 =
        (r.act runner? rule.action found).2 := by
    cases haction : rule.action with
    | callback f => exact ⟨.refl _, rfl⟩
    | emit | groups | delegate =>
      rw [act_eq _ _ _ _ (by simp), act_eq _ _ _ _ (by simp [Action.plain])]
      exact ⟨(alike_putAll ..).symm.trans (alike_putAll ..), rfl⟩
  rw [apply, apply, follow, follow, hact.2]
  dsimp only
  cases rule.op? with
  | none => exact hact.1.settle _ _
  | some op => exact (hact.1.change op).settle _ _

theorem pending_apply {runner? : Option Runner} {r : Run} {rule : CompiledRule} {found : Match}
    (hcursor : (r.follow runner? rule found).1.cursor = r.cursor)
    (hmoves : r.position < (r.follow runner? rule found).2.offset) :
    (r.apply runner? rule found).pending = (r.follow runner? rule found).1.pending := by
  rw [apply, settle, if_pos (by rwa [hcursor])]

end Run

theorem Tiles.middle {place stop : Cursor} {before after : List Piece} {p : Piece}
    (h : Tiles place (before ++ p :: after) stop) :
    ∃ begun, place.Passes (before.flatMap Piece.text) begun ∧ p.offset = begun.offset ∧
      p.text <+: begun.ahead := by
  induction before generalizing place with
  | nil =>
    cases h with
    | cons offset passes _ => exact ⟨place, .refl place, offset, _, passes.ahead.symm⟩
  | cons q before ih =>
    cases h with
    | cons _ passes later =>
      obtain ⟨begun, hbefore, hp⟩ := ih later
      exact ⟨begun, passes.trans hbefore, hp⟩

/-- The tokens of a piece that is handed on are those that a run over the piece gives, started in
the states that are asked for, one level deeper and moved to the place of the piece; when the runs
around it are as many as allowed they are one token. They stand between those of the pieces before
and behind, and all else is as if there were a token in the place of what was handed on. -/
theorem delegation_splices (r : Run) {rule : CompiledRule} {found : Match}
    (hwinner : r.winner? = some (rule, found)) {before after : List Piece} {offset : Nat}
    {text : List Char} {target : Target}
    (hpieces : found.pieces r.cursor rule.action =
      before ++ ⟨offset, text, .delegate target⟩ :: after) :
    let runner? := Run.runner? r.levels
    let tokens := Piece.tokens runner? r.lexer
    let inner := Run.start (target.lexerIn r.lexer) (target.statesIn r.lexer) text (r.depth + 1)
    ∃ spliced,
      (r.follow runner? rule found).1.pending =
        r.pending ++ before.flatMap tokens ++ spliced ++ after.flatMap tokens ∧
      (text = [] → spliced = []) ∧
      (text ≠ [] →
        r.scan.pending = r.pending ++ before.flatMap tokens ++ spliced ++ after.flatMap tokens ∧
        (∃ place, r.cursor.Passes (before.flatMap Piece.text) place ∧ offset = place.offset ∧
          text <+: place.ahead) ∧
        (r.depth < maxDelegation →
          ∃ given, inner.Gives given ∧ spliced = given.map (·.shift offset)) ∧
        (maxDelegation ≤ r.depth → spliced = [⟨offset, .other, String.ofList text⟩])) ∧
      ∀ category, r.scan.Alike
        (r.apply runner? { rule with action := rule.action.plain category } found) := by
  intro runner? tokens inner
  have hplain : ∀ f, rule.action ≠ .callback f := fun f hf => by simp [hf, Match.pieces] at hpieces
  have hfits := (Run.firstMatch_some hwinner).2
  have htiles := hfits.tiles_pieces rule.action hplain
  rw [hpieces] at htiles
  have hscan : r.scan = r.apply runner? rule found := by rw [Run.scan, Run.step_eq, hwinner]
  have hpending := Run.pending_follow runner? r rule found hplain
  rw [hpieces, List.flatMap_append, List.flatMap_cons, ← List.append_assoc,
    ← List.append_assoc] at hpending
  have hfollow : (r.follow runner? rule found).1.cursor = r.cursor ∧
      (r.follow runner? rule found).2 = r.cursor.seek found.stop := by
    rw [Run.follow_eq, Run.follow_snd, Run.act_eq _ _ _ _ hplain, Run.putAll_eq]
    exact ⟨rfl, rfl⟩
  refine ⟨_, hpending, ?_, fun hne => ⟨?_, ?_, ?_, ?_⟩, ?_⟩
  · rintro rfl
    rfl
  · rw [hscan, ← hpending]
    refine Run.pending_apply hfollow.1 ?_
    rw [hfollow.2]
    exact htiles.passes.offset_lt (by simp [hne])
  · exact htiles.middle
  · intro hdepth
    obtain ⟨runner, hrunner, hgiven⟩ := Run.exists_runner hdepth
    refine ⟨inner.tokens, Run.gives_tokens (Run.steady_start ..), ?_⟩
    simp [Piece.tokens, delegated, runner?, hrunner, hne, hgiven, inner]
  · intro hdepth
    simp [Piece.tokens, delegated, runner?, Run.runner?_eq_none hdepth, hne]
  · intro category
    rw [hscan]
    exact Run.alike_apply_plain runner? r rule found category

theorem delegation_splices_group : ∃ given,
    (Run.start nestingLexer [1] ['a', 'a'] 1).Gives given ∧
      (nestingLexer.run "baa").scan.pending = ⟨0, .keyword, "b"⟩ :: given.map (·.shift 1) := by
  have hactions : (nestingTable.rulesOf 0).map (·.action) =
      [.groups [.token .keyword, .delegate (.this (some [1]))]] := rfl
  have hfound : (nestingLexer.run "baa").winner?.map Prod.snd =
      some ⟨0, 3, [some ⟨0, 1⟩, some ⟨1, 3⟩]⟩ := by decide +kernel
  obtain ⟨⟨rule, found⟩, hwinner, rfl⟩ := Option.map_eq_some_iff.1 hfound
  have haction : rule.action ∈ (nestingTable.rulesOf 0).map (·.action) :=
    List.mem_map_of_mem (Run.firstMatch_some hwinner).1
  rw [hactions, List.mem_singleton] at haction
  have hpieces : Match.pieces ⟨0, 3, [some ⟨0, 1⟩, some ⟨1, 3⟩]⟩ (nestingLexer.run "baa").cursor
      rule.action = [⟨0, [], .token .text⟩, ⟨0, ['b'], .token .keyword⟩, ⟨1, [], .token .text⟩] ++
        ⟨1, ['a', 'a'], .delegate (.this (some [1]))⟩ :: [⟨3, [], .token .text⟩] := by
    rw [haction]
    rfl
  obtain ⟨spliced, -, -, hnonempty, -⟩ := delegation_splices _ hwinner hpieces
  obtain ⟨hpending, -, hgiven, -⟩ := hnonempty (by simp)
  obtain ⟨given, hgives, rfl⟩ := hgiven (by decide)
  refine ⟨given, hgives, hpending.trans ?_⟩
  simp [Piece.tokens, Coverage.tokensOf, LexerOf.run, Run.start]

end RuleLexer
