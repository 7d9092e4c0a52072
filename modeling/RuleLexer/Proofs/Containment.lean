import Mathlib.Order.Bounds.Basic
import RuleLexer.Proofs.Blocks
import RuleLexer.Proofs.StackSafety

/-! What a callback can do to the text. Whatever offsets its calls are given, a session stays at
places of the text: an offset inside a character or beyond the end is rounded to the first place
that is not before it, the cursor does not go back, and what has been emitted covers the text up to
the cursor. -/
namespace RuleLexer
open RuleLexer.Text RuleLexer.Coverage

namespace Text

/-- `m` is the first place of a text at a byte offset or behind it, the end where there is none. -/
def IsRounded (text : List Char) (n m : Nat) : Prop :=
  IsLeast {place | Boundary 0 text place ∧ min n (byteLength text) ≤ place} m

theorem isRounded_of_boundary {text : List Char} {n : Nat} (h : Boundary 0 text n) :
    IsRounded text n n := by
  refine ⟨⟨h, Nat.min_le_left _ _⟩, fun m ⟨_, hle⟩ => ?_⟩
  obtain ⟨piece, ⟨rest, rfl⟩, hn⟩ := h
  rw [byteLength_append] at hle
  omega

namespace Cursor
variable {c c' : Cursor} {text piece : List Char}

def In (c : Cursor) (text : List Char) : Prop := (start text).Passes c.passed.reverse c

namespace In

theorem of_passes (h : (start text).Passes piece c) : c.In text := by
  have hpassed : c.passed.reverse = piece := by
    rw [h.passed, start, List.append_nil, List.reverse_reverse]
  rwa [In, hpassed]

theorem passes (h : c.In text) (h' : c.Passes piece c') : c'.In text := of_passes (h.trans h')

theorem text_eq (h : c.In text) : text = c.passed.reverse ++ c.ahead := h.ahead

theorem offset_eq (h : c.In text) : c.offset = byteLength c.passed.reverse := by
  rw [h.offset, start, Nat.zero_add]

theorem boundary (h : c.In text) : Boundary 0 text c.offset :=
  ⟨c.passed.reverse, ⟨c.ahead, h.text_eq.symm⟩, by rw [h.offset_eq, Nat.zero_add]⟩

theorem offset_le (h : c.In text) : c.offset ≤ byteLength text := by
  have hoffset := h.offset_eq
  rw [h.text_eq, byteLength_append]
  omega

theorem back {d : Char} {passed ahead : List Char} {offset : Nat}
    (h : (⟨d :: passed, ahead, offset⟩ : Cursor).In text) :
    (⟨passed, d :: ahead, offset - d.utf8Size⟩ : Cursor).In text := by
  have htext : text = (d :: passed).reverse ++ ahead := h.text_eq
  have hoffset : offset = byteLength (d :: passed).reverse := h.offset_eq
  rw [List.reverse_cons, List.append_assoc] at htext
  rw [List.reverse_cons, byteLength_append, byteLength_singleton] at hoffset
  refine ⟨htext, by simp [start], ?_⟩
  show offset - d.utf8Size = 0 + byteLength passed.reverse
  omega

theorem backward {passed ahead : List Char} {offset : Nat} (bytes : Nat)
    (h : (⟨passed, ahead, offset⟩ : Cursor).In text) :
    (Cursor.backward bytes passed ahead offset).In text := by
  induction passed generalizing bytes ahead offset with
  | nil => exact h
  | cons d passed ih =>
    rw [Cursor.backward]
    split
    · exact ih _ h.back
    · exact h

theorem seek (h : c.In text) (n : Nat) : (c.seek n).In text := by
  by_cases hle : c.offset ≤ n
  · exact h.passes (passes_seek hle)
  · rw [Cursor.seek, if_neg hle]
    exact backward _ h

theorem lt_of_boundary (h : c.In text) {d : Char} {rest : List Char} (hlast : c.passed = d :: rest)
    {n : Nat} (hn : Boundary 0 text n) (hlt : n < c.offset) : n + d.utf8Size ≤ c.offset := by
  obtain ⟨front, ⟨back, hback⟩, rfl⟩ := hn
  have htext := h.text_eq
  have hoffset := h.offset_eq
  rw [hlast, List.reverse_cons] at htext hoffset
  rw [← hback, List.append_assoc] at htext
  rw [byteLength_append, byteLength_singleton] at hoffset
  rcases List.append_eq_append_iff.1 htext with ⟨more, hmore, -⟩ | ⟨more, rfl, hmore⟩
  · have hlength := congrArg byteLength hmore
    rw [byteLength_append] at hlength
    omega
  · cases more with
    | nil =>
      rw [List.append_nil]
      omega
    | cons d' more =>
      obtain ⟨rfl, -⟩ := List.cons.inj hmore
      simp only [byteLength_append, byteLength_cons] at hlt
      omega

theorem isRounded (h : c.In text) {n : Nat} (hreached : n ≤ c.offset ∨ c.ahead = [])
    (hlast : ∀ d rest, c.passed = d :: rest → c.offset < n + d.utf8Size) :
    IsRounded text n c.offset := by
  have hend : c.ahead = [] → c.offset = byteLength text := by
    intro hnone
    rw [h.offset_eq, h.text_eq, hnone, List.append_nil]
  refine ⟨⟨h.boundary, ?_⟩, fun m ⟨hm, hle⟩ => Nat.le_of_not_lt fun hlt => ?_⟩
  · rcases hreached with hreached | hnone
    · exact Nat.le_trans (Nat.min_le_left _ _) hreached
    · exact Nat.le_trans (Nat.min_le_right _ _) (Nat.le_of_eq (hend hnone).symm)
  · cases hpassed : c.passed with
    | nil =>
      have hoffset := h.offset_eq
      rw [hpassed] at hoffset
      rw [hoffset] at hlt
      exact absurd hlt (Nat.not_lt_zero m)
    | cons d rest =>
      have hbefore := h.lt_of_boundary hpassed hm hlt
      have hlast := hlast d rest hpassed
      have htext := h.offset_le
      have hpos := d.utf8Size_pos
      omega

end In

theorem forward_stops (bytes : Nat) (passed ahead : List Char) (offset : Nat) :
    let c := forward bytes passed ahead offset
    (offset + bytes ≤ c.offset ∨ c.ahead = []) ∧
      ∀ d rest, c.passed = d :: rest → c.offset < offset + bytes + d.utf8Size := by
  induction ahead generalizing bytes passed offset with
  | nil =>
    have hhere : forward bytes passed [] offset = ⟨passed, [], offset⟩ := by cases bytes <;> rfl
    rw [hhere]
    refine ⟨.inr rfl, fun d rest _ => ?_⟩
    have hpos := d.utf8Size_pos
    show offset < _
    omega
  | cons d ahead ih =>
    cases bytes with
    | zero => exact ⟨.inl (Nat.le_refl _), fun d _ _ => Nat.lt_add_of_pos_right d.utf8Size_pos⟩
    | succ bytes =>
      rw [forward]
      by_cases hfits : d.utf8Size ≤ bytes + 1
      · have hrest := ih (bytes + 1 - d.utf8Size) (d :: passed) (offset + d.utf8Size)
        rwa [Nat.add_assoc, Nat.add_sub_cancel' hfits] at hrest
      · rw [Nat.sub_eq_zero_of_le (by omega)]
        refine ⟨.inl ?_, fun d' rest hlast => ?_⟩
        · simp only [forward]
          omega
        · simp only [forward] at hlast ⊢
          cases hlast
          omega

theorem backward_stops {bytes offset : Nat} (h : bytes ≤ offset) (passed ahead : List Char) :
    let c := backward bytes passed ahead offset
    offset - bytes ≤ c.offset ∧
      ∀ d rest, c.passed = d :: rest → c.offset < offset - bytes + d.utf8Size := by
  induction passed generalizing bytes ahead offset with
  | nil => exact ⟨Nat.sub_le _ _, fun _ _ hlast => by cases hlast⟩
  | cons d passed ih =>
    rw [backward]
    split
    · next hfits =>
      have hrest := ih (Nat.sub_le_sub_right h d.utf8Size) (d :: ahead)
      rwa [Nat.sub_sub_sub_cancel_right hfits] at hrest
    · next hstops =>
      refine ⟨Nat.sub_le _ _, fun d' rest hlast => ?_⟩
      cases hlast
      show offset < _
      omega

theorem In.isRounded_seek (h : c.In text) (n : Nat) : IsRounded text n (c.seek n).offset := by
  by_cases hle : c.offset ≤ n
  · obtain ⟨hreached, hlast⟩ := forward_stops (n - c.offset) c.passed c.ahead c.offset
    rw [Nat.add_sub_cancel' hle] at hreached hlast
    refine (h.seek n).isRounded ?_ ?_ <;> rwa [Cursor.seek, if_pos hle]
  · obtain ⟨hreached, hlast⟩ := backward_stops (Nat.sub_le c.offset n) c.passed c.ahead
    rw [Nat.sub_sub_self (Nat.le_of_not_le hle)] at hreached hlast
    refine (h.seek n).isRounded (.inl ?_) ?_ <;> rwa [Cursor.seek, if_neg hle]

theorem In.seek_offset (h : c.In text) {n m : Nat} (hm : IsRounded text n m) :
    (c.seek n).offset = m := (h.isRounded_seek n).unique hm

end Cursor

end Text

def Call.goal? : Call → Option Nat
  | .continueAt offset => some offset
  | _ => none

/-- Where some calls say that scanning is to go on: at the last offset that is given, rounded, and
at `stop` when none is. -/
def IsGoal (text : List Char) (stop : Nat) (calls : List Call) (m : Nat) : Prop :=
  match (calls.filterMap Call.goal?).getLast? with
  | none => m = stop
  | some n => IsRounded text n m

namespace IsGoal
variable {text : List Char} {stop m : Nat} {c : Call} {calls : List Call}

theorem cons_of_none (hc : c.goal? = none) (h : IsGoal text stop calls m) :
    IsGoal text stop (c :: calls) m := by
  rwa [IsGoal, List.filterMap_cons_none hc]

theorem cons_of_some {n place : Nat} (hc : c.goal? = some n) (hplace : IsRounded text n place)
    (h : IsGoal text place calls m) : IsGoal text stop (c :: calls) m := by
  rw [IsGoal, List.filterMap_cons_some hc, List.getLast?_cons]
  rw [IsGoal] at h
  cases hlater : (calls.filterMap Call.goal?).getLast? with
  | none =>
    rw [hlater] at h
    exact h ▸ hplace
  | some later => rwa [hlater] at h

end IsGoal

namespace Session
variable {s : Session} {text : List Char} {n m : Nat}

theorem emit_of_le (h : s.cursor.In text) (hm : IsRounded text n m) (hle : m ≤ s.cursor.offset)
    (category : Category) : s.emit n category = s := by
  unfold emit
  dsimp only
  rw [h.seek_offset hm, if_pos hle]

theorem emit_of_lt (h : s.cursor.In text) (hm : IsRounded text n m) (hlt : s.cursor.offset < m)
    (category : Category) : ∃ piece, s.cursor.Passes piece (s.emit n category).cursor ∧
      (s.emit n category).cursor.offset = m ∧ (s.emit n category).run.pending =
        s.run.pending ++ [⟨s.cursor.offset, category, String.ofList piece⟩] := by
  have hseek := h.seek_offset hm
  have hle : s.cursor.offset ≤ n := by
    refine Nat.le_of_not_lt fun hback => ?_
    have hstill := Cursor.offset_seek_le (Nat.le_of_lt hback)
    omega
  have hpasses := Cursor.passes_seek hle
  have hpiece : s.cursor.upTo n ≠ [] := by
    intro hnil
    rw [hnil] at hpasses
    rw [hpasses.eq_of_nil] at hseek
    omega
  have hemit : s.emit n category =
      { s with
        run := s.run.emit s.cursor.offset category (s.cursor.upTo n)
        cursor := s.cursor.seek n } := by
    unfold emit
    dsimp only
    rw [if_neg (by omega), Cursor.upTo_of_passes hpasses]
  rw [hemit]
  refine ⟨_, hpasses, hseek, ?_⟩
  rw [Run.emit_eq, tokensOf_ne_nil _ _ hpiece]

theorem offset_emit (h : s.cursor.In text) (hm : IsRounded text n m) (category : Category) :
    (s.emit n category).cursor.offset = max s.cursor.offset m := by
  by_cases hle : m ≤ s.cursor.offset
  · rw [emit_of_le h hm hle, Nat.max_eq_left hle]
  · obtain ⟨_, -, hoffset, -⟩ := emit_of_lt h hm (Nat.lt_of_not_le hle) category
    rw [hoffset, Nat.max_eq_right (Nat.le_of_not_le hle)]

theorem position_perform {c : Call} (hc : c.goal? = none) :
    (s.perform c).1.position = s.position := by
  cases c with
  | emit stop category => exact s.position_emit stop category
  | emitRange start stop category =>
    exact (position_emit _ stop category).trans (s.position_emit start .text)
  | continueAt offset => cases hc
  | push state =>
    simp only [perform, push]
    split <;> rfl
  | reset state =>
    simp only [perform, reset]
    split <;> rfl
  | pop | keep | drop | dropAll | observe => rfl

variable {r : Run} {piece : List Char}

/-- The position is where the calls say. -/
theorem Since.goal_play (h : s.Since r piece) (hcursor : r.cursor.In text)
    (hposition : s.position.In text) (script : Script) :
    (s.play script).position.In text ∧
      IsGoal text s.position.offset (s.calls script) (s.play script).position.offset := by
  induction script generalizing s piece with
  | done => exact ⟨hposition, rfl⟩
  | call c next ih =>
    obtain ⟨more, hmore⟩ := h.perform c
    rw [Session.play, calls]
    cases hc : c.goal? with
    | none =>
      have hsame := s.position_perform hc
      obtain ⟨hin, hgoal⟩ := ih _ _ hmore (hsame ▸ hposition)
      exact ⟨hin, .cons_of_none hc (hsame ▸ hgoal)⟩
    | some n =>
      cases c with
      | continueAt offset =>
        cases hc
        have hplace := hcursor.passes h.passes
        obtain ⟨hin, hgoal⟩ := ih _ _ hmore (hplace.seek n)
        exact ⟨hin, .cons_of_some rfl (hplace.isRounded_seek n) hgoal⟩
      | _ => cases hc

theorem Since.offset_le_perform (h : s.Since r piece) (c : Call) :
    s.cursor.offset ≤ (s.perform c).1.cursor.offset := by
  obtain ⟨more, hmore⟩ := h.perform c
  rw [h.passes.offset, hmore.passes.offset, byteLength_append]
  omega

/-- Where emitting takes place: between the calls of a script, or in the middle of one that emits
what lies before a range first. -/
def Emitting (s : Session) (script : Script) (s' : Session) : Prop :=
  ∃ between, s.Through script between ∧ (s' = between ∨ ∃ n, s' = between.emit n .text)

theorem Emitting.since {script : Script} {s' : Session} (h : s.Emitting script s')
    (hs : s.Since r piece) : ∃ more, s'.Since r (piece ++ more) := by
  obtain ⟨between, hthrough, rfl | ⟨n, rfl⟩⟩ := h
  · exact hthrough.since hs
  · obtain ⟨first, hfirst⟩ := hthrough.since hs
    obtain ⟨more, hmore⟩ := hfirst.emit n .text
    exact ⟨first ++ more, by rwa [← List.append_assoc]⟩

def between (r : Run) (text : List Char) (start stop : Nat) : Session :=
  let place := (Cursor.start text).seek start
  ⟨{ r with cursor := place }, place, place.seek stop⟩

/-- What holds of a script that is played from `start` on, where scanning goes on at `stop` unless
the script says otherwise. -/
structure Contained (text : List Char) (start stop : Nat) (s : Session) (script : Script) :
    Prop where
  /-- Scanning goes on at a place of the text that is not before the start. -/
  boundary : Boundary 0 text (s.play script).close.2.offset
  start_le : start ≤ (s.play script).close.2.offset
  le_length : (s.play script).close.2.offset ≤ byteLength text
  /-- It is where the calls say, or the cursor if that is farther. -/
  next : ∃ goal, IsGoal text stop (s.calls script) goal ∧
    (s.play script).close.2.offset = max (s.play script).cursor.offset goal
  /-- The tokens that are added cover the text up to there. -/
  covers : ∃ front piece back tokens, text = front ++ piece ++ back ∧ byteLength front = start ∧
    byteLength (front ++ piece) = (s.play script).close.2.offset ∧
      (s.play script).close.1.pending = s.run.pending ++ tokens ∧ Covers start piece tokens
  /-- No call moves the cursor back. -/
  onward : ∀ s', s.Through script s' → ∀ c, s'.cursor.offset ≤ (s'.perform c).1.cursor.offset
  /-- An offset that is not past the cursor when it is rounded emits nothing. -/
  behind : ∀ s', s.Emitting script s' → ∀ n m, IsRounded text n m → m ≤ s'.cursor.offset →
    ∀ category, s'.emit n category = s'
  /-- Any other emits one token, from the cursor up to the offset. -/
  ahead : ∀ s', s.Emitting script s' → ∀ n m, IsRounded text n m → s'.cursor.offset < m →
    ∀ category, ∃ piece, s'.cursor.Passes piece (s'.emit n category).cursor ∧
      (s'.emit n category).cursor.offset = m ∧ (s'.emit n category).run.pending =
        s'.run.pending ++ [⟨s'.cursor.offset, category, String.ofList piece⟩]

end Session

/-- Between two places of a text a callback is contained, whatever it calls. -/
theorem callbacks_stay_contained (r : Run) {text : List Char} {start stop : Nat}
    (hstart : Boundary 0 text start) (hstop : Boundary 0 text stop) (script : Script) :
    (Session.between r text start stop).Contained text start stop script := by
  let place := (Cursor.start text).seek start
  let begun := Session.between r text start stop
  let played := begun.play script
  obtain ⟨hfront, hplace⟩ := Cursor.passes_boundary (c := Cursor.start text) hstart
  have hin : place.In text := .of_passes hfront
  have hsince : begun.Since { r with cursor := place } [] := ⟨.refl _, .refl _ _⟩
  obtain ⟨hposition, hgoal⟩ := hsince.goal_play hin (hin.seek stop) script
  have hbegun : begun.position.offset = stop := hin.seek_offset (isRounded_of_boundary hstop)
  rw [hbegun] at hgoal
  obtain ⟨emitted, hplayed⟩ := hsince.play script
  obtain ⟨last, hclosed⟩ := hplayed.emit played.position.offset .text
  have hnext := played.offset_emit (hin.passes hplayed.passes)
    (isRounded_of_boundary hposition.boundary) .text
  have hend := hin.passes hclosed.passes
  have hpassed := hfront.trans hclosed.passes
  have hstart_le : start ≤ played.close.2.offset :=
    calc start = place.offset := hplace.symm
      _ ≤ place.offset + _ := Nat.le_add_right _ _
      _ = played.close.2.offset := hclosed.passes.offset.symm
  obtain ⟨tokens, hpending, hcovers⟩ := hclosed.emits.tokens
  have hfrom : ({ r with cursor := place } : Run).position = start := hplace
  rw [hfrom] at hcovers
  have hbefore : byteLength ((Cursor.start text).upTo start) = start := by
    have hoffset := hfront.offset
    rw [hplace] at hoffset
    exact (hoffset.trans (Nat.zero_add _)).symm
  exact {
    boundary := hend.boundary
    start_le := hstart_le
    le_length := hend.offset_le
    next := ⟨_, hgoal, hnext⟩
    covers := ⟨_, _, _, tokens, hpassed.ahead, hbefore,
      (hpassed.offset.trans (Nat.zero_add _)).symm, hpending, hcovers⟩
    onward := fun s hs c => by
      obtain ⟨_, hs⟩ := hs.since hsince
      exact hs.offset_le_perform c
    behind := fun s hs n m hm hbehind => by
      obtain ⟨_, hs⟩ := hs.since hsince
      exact Session.emit_of_le (hin.passes hs.passes) hm hbehind
    ahead := fun s hs n m hm hahead => by
      obtain ⟨_, hs⟩ := hs.since hsince
      exact Session.emit_of_lt (hin.passes hs.passes) hm hahead }

/-- Calls with offsets inside characters, behind the cursor and beyond the text, and with a state
that is not in the table. -/
theorem callbacks_stay_contained_rounding :
    let text := ['a', 'é', 'b', 'c', 'é', 'd']
    let script := Script.run (.emit 2 .keyword) <| .run (.emit 0 .name) <| .run (.continueAt 99) <|
      .run (.push "missing") <| .run (.continueAt 6) <| .run (.emitRange 4 2 .name) .done
    let s := Session.between (nestingLexer.run "") text 1 4
    Boundary 0 text 1 ∧ Boundary 0 text 4 ∧ s.Contained text 1 4 script ∧
      (s.play script).close.2.offset = 7 ∧ (s.play script).close.1.pending =
        [⟨1, .keyword, "é"⟩, ⟨3, .text, "b"⟩, ⟨4, .text, "cé"⟩] := by
  intro text script s
  have hstart : Boundary 0 text 1 := ⟨['a'], by simp [text], rfl⟩
  have hstop : Boundary 0 text 4 := ⟨['a', 'é', 'b'], by simp [text], rfl⟩
  exact ⟨hstart, hstop, callbacks_stay_contained _ hstart hstop script, by decide +kernel,
    by decide +kernel⟩

end RuleLexer
