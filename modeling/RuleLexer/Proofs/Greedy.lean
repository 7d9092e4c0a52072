import RuleLexer.Proofs.Endings

/-! Texts of characters that are known to be of a kind. A node that needs a character of another kind
has no way there; and a repetition that prefers more characters of the kind has one thread at every
place, so a match of it goes on as long as they come. -/
namespace RuleLexer
open RuleLexer.Text RuleLexer.Regex

namespace Regex

/-- Every way needs a character that is not of these. -/
def Node.bars (alphabet : List Char) : Node → Bool
  | empty | look _ | mark _ | loop .. => false
  | set s => !alphabet.any s.mem
  | seq a b => a.bars alphabet || b.bars alphabet
  | alt _ a b => a.bars alphabet && b.bars alphabet

theorem Node.Leads.not_bars {n : Node} {c c' : Cursor} {σ σ' : Slots} (h : n.Leads c σ c' σ')
    {alphabet : List Char} (hahead : ∀ d ∈ c.ahead, d ∈ alphabet) : n.bars alphabet = false := by
  induction h with
  | empty | look | mark | done | again => rfl
  | @set s d c c' hmem hpasses =>
    have hd : d ∈ alphabet := hahead d (hpasses.ahead ▸ List.mem_cons_self)
    have hany : alphabet.any s.mem := List.any_eq_true.2 ⟨d, hd, hmem⟩
    simp [bars, hany]
  | seq hfirst _ ihfirst ihsecond =>
    obtain ⟨piece, hpasses⟩ := hfirst.passes
    have hrest := ihsecond fun d hd => hahead d (hpasses.ahead ▸ List.mem_append_right _ hd)
    simp [bars, ihfirst hahead, hrest]
  | preferred _ _ _ ih => simp [bars, ih hahead]
  | other _ _ _ ih => simp [bars, ih hahead]

def Node.oneOrMore (id : Nat) (s : CharSet) : Node := .seq (.set s) (.loop id true (.set s))

def Thread.more (id : Nat) (s : CharSet) (σ : Slots) : Thread := ⟨s, [.loop id true (.set s)], σ⟩

theorem expandAll_more (p : Place) (id : Nat) (s : CharSet) (σ : Slots) :
    expandAll p (Thread.more id s σ).rest σ .none = ⟨0 ||| 1 <<< id, [.more id s σ], some σ⟩ := by
  simp [Thread.more, expandAll, Node.expand, Frontier.enter, Frontier.none, Frontier.addThread,
    Frontier.addMatch]

theorem scan_more (id : Nat) (s : CharSet) (σ : Slots) (best : Option Found) (offset : Nat)
    (text : List Char) : scan best offset [.more id s σ] text =
      if text.takeWhile s.mem = [] then best
      else some ⟨offset + byteLength (text.takeWhile s.mem), σ⟩ := by
  induction text generalizing best offset with
  | nil => rfl
  | cons d text ih =>
    by_cases hd : s.mem d = true
    · have hstep := scan_thread hd best offset (Thread.more id s σ).rest σ text
      simp only [expandAll_more] at hstep
      refine hstep.trans ((ih _ _).trans ?_)
      rw [List.takeWhile_cons_of_pos hd, if_neg (List.cons_ne_nil _ _), byteLength_cons,
        ← Nat.add_assoc]
      split
      · next hnil => simp [hnil, Frontier.found?]
      · rfl
    · rw [List.takeWhile_cons_of_neg hd, if_pos rfl]
      simp [scan, advance, Thread.more, hd, Frontier.none, Frontier.found?]

end Regex

theorem Pattern.matchAt_oneOrMore {p : Pattern} {id : Nat} {s : CharSet} (hahead : p.ahead? = none)
    (hnode : p.regex.node = .oneOrMore id s) (place : Cursor) :
    (p.matchAt place).map (fun found => place.upTo found.stop) =
      if place.ahead.takeWhile s.mem = [] then none else some (place.ahead.takeWhile s.mem) := by
  let σ : Slots := List.replicate p.regex.slotCount none
  have hrun : p.regex.matchAt place.passed.head? place.offset place.ahead =
      scan none place.offset [.more id s σ] place.ahead := by
    rw [Regex.matchAt, hnode]
    rfl
  obtain ⟨rest, hrest⟩ := List.takeWhile_prefix s.mem (l := place.ahead)
  have hpasses : place.Passes (place.ahead.takeWhile s.mem) ⟨_, rest, _⟩ := ⟨hrest.symm, rfl, rfl⟩
  rw [matchAt, hrun, scan_more]
  split
  · rfl
  · simp only [Option.map_some, Option.some.injEq]
    exact (congrArg place.upTo (by simp [stopOf, hahead])).trans (Cursor.upTo_of_passes hpasses)

/-! Rules -/

namespace Rule
variable {flags : PatternFlags} {names : List String} {r : Rule Delegate} {c : CompiledRule}

def bars (flags : PatternFlags) (alphabet : List Char) (r : Rule Delegate) : Bool :=
  r.shows (fun body _ => body.bars alphabet) flags

theorem Binds.matchAt_of_bars {alphabet : List Char} (h : r.Binds flags names c)
    (hbars : r.bars flags alphabet) {place : Cursor} (hahead : ∀ d ∈ place.ahead, d ∈ alphabet) :
    c.matcher.matchAt place = none := by
  cases hfound : c.matcher.matchAt place with
  | none => rfl
  | some found =>
    obtain ⟨body, after, hcheck, _, _, _, _, _, _, hbody, -⟩ := h.leads hbars hfound
    exact absurd hcheck (by simp [hbody.not_bars hahead])

def takesAll (flags : PatternFlags) (id : Nat) (s : CharSet) (r : Rule Delegate) : Bool :=
  match r.source with
  | .pattern source none =>
      Pattern.shows (fun body _ => body == .oneOrMore id s) flags source.toList none
  | _ => false

theorem Binds.exists_takesAll (h : r.Binds flags names c) {id : Nat} {s : CharSet}
    (hall : r.takesAll flags id s) {place : Cursor} {piece rest : List Char}
    (hahead : place.ahead = piece ++ rest) (hpiece : piece ≠ []) (hmem : ∀ d ∈ piece, s.mem d)
    (hrest : ∀ d ∈ rest.head?, s.mem d = false) :
    ∃ found, c.matcher.matchAt place = some found ∧ place.upTo found.stop = piece := by
  rw [takesAll] at hall
  split at hall
  · next source hsource =>
    obtain ⟨p, body, after, hcompile, hparts, hbody⟩ := Pattern.exists_of_shows hall
    have hnone := Pattern.ahead?_of_compile hcompile
    rw [hnone] at hparts
    have hnode : p.regex.node = body := (Prod.mk.inj (Option.some.inj hparts)).1
    have htaken : place.ahead.takeWhile s.mem = piece := by
      have hstops : rest.takeWhile s.mem = [] := by
        cases rest with
        | nil => rfl
        | cons d rest => exact List.takeWhile_cons_of_neg (by simp [hrest d rfl])
      rw [hahead, List.takeWhile_append_of_pos hmem, hstops, List.append_nil]
    have hfound := Pattern.matchAt_oneOrMore hnone (hnode.trans (eq_of_beq hbody)) place
    rw [htaken, if_neg hpiece, Option.map_eq_some_iff] at hfound
    rwa [h.matchAt_eq hsource hcompile]
  · cases hall

end Rule

end RuleLexer
