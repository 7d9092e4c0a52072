import RuleLexer.Proofs.Cover
import RuleLexer.Proofs.MatchSpan
import RuleLexer.Run

/-! What an action makes of a match, as a list of pieces. Unless a callback decides, an action cuts
the match into pieces that follow one another, and each piece becomes a token or what a nested run
makes of it; nothing else of the run changes but its notices. -/
namespace RuleLexer
open RuleLexer.Text RuleLexer.Coverage

/-- A part of a match and what becomes of it. -/
structure Piece where
  offset : Nat
  text : List Char
  fate : Emission Target

namespace Match

def groupPieces (found : Match) :
    (index : Nat) → (place : Cursor) → List (Emission Target) → List Piece
  | _, place, [] => [⟨place.offset, place.upTo found.stop, .token .text⟩]
  | index, place, e :: rest =>
      match found.group? index with
      | none => groupPieces found (index + 1) place rest
      | some span =>
          if span.stop ≤ span.start ∨ span.start < place.offset then
            groupPieces found (index + 1) place rest
          else
            let begun := place.seek span.start
            ⟨place.offset, place.upTo span.start, .token .text⟩ ::
              ⟨span.start, begun.upTo span.stop, e⟩ ::
                groupPieces found (index + 1) (begun.seek span.stop) rest

/-- The pieces that an action cuts a match into, none when a callback decides. -/
def pieces (found : Match) (place : Cursor) : Action Target → List Piece
  | .emit category => [⟨found.start, place.upTo found.stop, .token category⟩]
  | .groups emissions => found.groupPieces 1 place emissions
  | .delegate target => [⟨found.start, place.upTo found.stop, .delegate target⟩]
  | .callback _ => []

end Match

namespace Target

def lexerIn (running : Lexer) : Target → Lexer
  | this _ => running
  | lexer l _ => l

def statesIn (running : Lexer) : Target → List StateId
  | this states? => states?.getD running.initial
  | lexer l states? => states?.getD l.initial

end Target

def delegated (runner? : Option Runner) (running : Lexer) (target : Target) (offset : Nat)
    (piece : List Char) : List Token :=
  if piece.isEmpty then []
  else match runner? with
    | none => [⟨offset, .other, String.ofList piece⟩]
    | some runner =>
        (runner (target.lexerIn running) (target.statesIn running) piece).1.map (·.shift offset)

def Piece.tokens (runner? : Option Runner) (running : Lexer) (p : Piece) : List Token :=
  match p.fate with
  | .token category => tokensOf p.offset category p.text
  | .delegate target => delegated runner? running target p.offset p.text

namespace Run
variable (runner? : Option Runner) (r : Run)

theorem emit_eq (offset : Nat) (category : Category) (piece : List Char) :
    r.emit offset category piece =
      { r with pending := r.pending ++ tokensOf offset category piece } := by
  rw [emit, tokensOf]
  split <;> simp

theorem delegate_eq (target : Target) (offset : Nat) (piece : List Char) :
    r.delegate runner? target offset piece =
      { r with
        pending := r.pending ++ delegated runner? r.lexer target offset piece
        notices := (r.delegate runner? target offset piece).notices } := by
  by_cases hempty : piece.isEmpty
  · simp [delegate, delegated, hempty]
  · cases runner? with
    | none => simp [delegate, delegated, hempty, emit_eq, tokensOf, note]
    | some runner =>
      cases target <;>
        simp [delegate, delegated, hempty, Target.lexerIn, Target.statesIn]

def put (p : Piece) : Run :=
  match p.fate with
  | .token category => r.emit p.offset category p.text
  | .delegate target => r.delegate runner? target p.offset p.text

theorem put_eq (p : Piece) :
    r.put runner? p =
      { r with
        pending := r.pending ++ p.tokens runner? r.lexer
        notices := (r.put runner? p).notices } := by
  rw [put, Piece.tokens]
  split
  · rw [emit_eq]
  · exact delegate_eq runner? r _ _ _

def putAll (pieces : List Piece) : Run := pieces.foldl (put runner?) r

theorem putAll_eq (pieces : List Piece) :
    r.putAll runner? pieces =
      { r with
        pending := r.pending ++ pieces.flatMap (Piece.tokens runner? r.lexer)
        notices := (r.putAll runner? pieces).notices } := by
  induction pieces generalizing r with
  | nil => simp [putAll]
  | cons p pieces ih =>
    have h := ih (r.put runner? p)
    rw [put_eq] at h
    rw [putAll, List.foldl_cons, ← putAll, put_eq, h]
    simp [List.append_assoc]

theorem emitGroups_eq (found : Match) (index : Nat) (place : Cursor)
    (emissions : List (Emission Target)) :
    r.emitGroups runner? found index place emissions =
      r.putAll runner? (found.groupPieces index place emissions) := by
  induction emissions generalizing r index place with
  | nil => rfl
  | cons e rest ih =>
    cases hgroup : found.group? index with
    | none => simp only [emitGroups, Match.groupPieces, hgroup, ih]
    | some span =>
      by_cases hskip : span.stop ≤ span.start ∨ span.start < place.offset
      · simp only [emitGroups, Match.groupPieces, hgroup, if_pos hskip, ih]
      · simp only [emitGroups, Match.groupPieces, hgroup, if_neg hskip, ih]
        cases e <;> rfl

theorem act_eq (action : Action Target) (found : Match) (h : ∀ f, action ≠ .callback f) :
    r.act runner? action found =
      (r.putAll runner? (found.pieces r.cursor action), r.cursor.seek found.stop) := by
  cases action with
  | emit category => rfl
  | groups emissions => rw [act, emitGroups_eq]; rfl
  | delegate target => rfl
  | callback f => exact absurd rfl (h f)

end Run

/-- Pieces that follow one another from one place to another. -/
inductive Tiles : Cursor → List Piece → Cursor → Prop
  | nil (place : Cursor) : Tiles place [] place
  | cons {place next stop : Cursor} {p : Piece} {pieces : List Piece}
      (offset : p.offset = place.offset) (passes : place.Passes p.text next)
      (later : Tiles next pieces stop) : Tiles place (p :: pieces) stop

namespace Tiles
variable {place next stop : Cursor} {pieces : List Piece} {n : Nat}

theorem cons_upTo (fate : Emission Target) (h : Boundary place.offset place.ahead n)
    (later : Tiles (place.seek n) pieces stop) :
    Tiles place (⟨place.offset, place.upTo n, fate⟩ :: pieces) stop :=
  .cons rfl (Cursor.passes_boundary h).1 later

theorem passes (h : Tiles place pieces stop) :
    place.Passes (pieces.flatMap Piece.text) stop := by
  induction h with
  | nil place => exact .refl place
  | cons _ passes _ ih => exact passes.trans ih

end Tiles

namespace Match.Fits
variable {found : Match} {origin place : Cursor} {piece : List Char}

theorem group (h : found.Fits origin) {i : Nat} {span : Span}
    (hgroup : found.group? (i + 1) = some span) :
    Boundary origin.offset origin.ahead span.start ∧
      Boundary origin.offset origin.ahead span.stop ∧
      span.start ≤ span.stop ∧ span.stop ≤ found.stop :=
  h.groups span (List.mem_of_getElem? (Option.join_eq_some_iff.1 hgroup))

theorem tiles_groupPieces (h : found.Fits origin) (index : Nat)
    (emissions : List (Emission Target)) (hplace : origin.Passes piece place)
    (hle : place.offset ≤ found.stop) :
    Tiles place (found.groupPieces (index + 1) place emissions) (place.seek found.stop) := by
  induction emissions generalizing index place piece with
  | nil => exact .cons_upTo _ (hplace.boundary_behind h.stop hle) (.nil _)
  | cons e rest ih =>
    rw [groupPieces]
    split
    · exact ih (index + 1) hplace hle
    · next span hgroup =>
      split
      · exact ih (index + 1) hplace hle
      · next hcounts =>
        obtain ⟨hstart, hstop, hspan, hinside⟩ := h.group hgroup
        have hstart := hplace.boundary_behind hstart (by omega)
        obtain ⟨hgap, hbegun⟩ := Cursor.passes_boundary hstart
        have hstop := (hplace.trans hgap).boundary_behind hstop (by omega)
        obtain ⟨hbody, hdone⟩ := Cursor.passes_boundary hstop
        have hrest := hplace.trans (hgap.trans hbody)
        have hend := hrest.boundary_behind h.stop (by omega)
        rw [← (hgap.trans hbody).seek_eq hend]
        exact .cons_upTo _ hstart (.cons hbegun.symm hbody (ih (index + 1) hrest (by omega)))

theorem tiles_pieces (h : found.Fits origin) (action : Action Target)
    (hcallback : ∀ f, action ≠ .callback f) :
    Tiles origin (found.pieces origin action) (origin.seek found.stop) := by
  cases action with
  | emit category =>
    rw [pieces, h.start]
    exact .cons_upTo _ h.stop (.nil _)
  | groups emissions => exact h.tiles_groupPieces 0 emissions (.refl origin) h.stop.le
  | delegate target =>
    rw [pieces, h.start]
    exact .cons_upTo _ h.stop (.nil _)
  | callback f => exact absurd rfl (hcallback f)

end Match.Fits

def Runner.Covering (runner : Runner) : Prop :=
  ∀ lexer states text, Covers 0 text (runner lexer states text).1

namespace Piece
variable {runner? : Option Runner} (running : Lexer)

theorem covers_tokens (hrunner : ∀ runner ∈ runner?, Runner.Covering runner) (p : Piece) :
    Covers p.offset p.text (p.tokens runner? running) := by
  rw [tokens]
  split
  · exact covers_tokensOf _ _ _
  · next target _ =>
    unfold delegated
    split
    · next hempty =>
      rw [List.isEmpty_iff.1 hempty]
      exact .nil _
    · next hempty =>
      cases runner? with
      | none =>
        rw [← tokensOf_ne_nil _ _ (by simpa using hempty)]
        exact covers_tokensOf _ _ _
      | some runner =>
        have h := hrunner runner rfl (target.lexerIn running) (target.statesIn running) p.text
        simpa using h.shift p.offset

theorem covers_flatMap (hrunner : ∀ runner ∈ runner?, Runner.Covering runner)
    {place stop : Cursor} {pieces : List Piece} (h : Tiles place pieces stop) :
    Covers place.offset (pieces.flatMap Piece.text) (pieces.flatMap (tokens runner? running)) := by
  induction h with
  | nil place => exact .nil _
  | @cons place next stop p pieces offset passes _ ih =>
    rw [passes.offset] at ih
    exact .append (offset ▸ p.covers_tokens running hrunner) ih

end Piece

end RuleLexer
