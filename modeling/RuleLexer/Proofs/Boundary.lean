import RuleLexer.Text.Cursor

/-! Moves of a cursor. `Passes` says which characters lie between two places, and `Boundary` that a
byte offset lies between two characters; seeking a boundary ends exactly there, and any other
offset ahead is rounded to the end of a character. -/
namespace RuleLexer.Text

theorem foldl_utf8Size (text : List Char) (n : Nat) :
    text.foldl (fun n c => n + c.utf8Size) n = n + byteLength text := by
  induction text generalizing n with
  | nil => rfl
  | cons c text ih =>
    rw [byteLength, List.foldl_cons, List.foldl_cons, ih, ih]
    omega

@[simp] theorem byteLength_nil : byteLength [] = 0 := rfl

@[simp] theorem byteLength_cons (c : Char) (text : List Char) :
    byteLength (c :: text) = c.utf8Size + byteLength text := by
  rw [byteLength, List.foldl_cons, foldl_utf8Size]
  omega

theorem byteLength_singleton (c : Char) : byteLength [c] = c.utf8Size := by simp

@[simp] theorem byteLength_append (a b : List Char) :
    byteLength (a ++ b) = byteLength a + byteLength b := by
  induction a with
  | nil => simp
  | cons c a ih => simp [ih, Nat.add_assoc]

@[simp] theorem byteLength_eq_zero {text : List Char} : byteLength text = 0 ↔ text = [] := by
  cases text with
  | nil => simp
  | cons c text =>
    have := c.utf8Size_pos
    simp
    omega

theorem utf8ByteSize_ofList (text : List Char) :
    (String.ofList text).utf8ByteSize = byteLength text := by
  induction text with
  | nil => rfl
  | cons c text ih =>
    rw [String.ofList_cons, String.utf8ByteSize_append, ih, byteLength_cons]
    simp

theorem byteLength_toList (text : String) : byteLength text.toList = text.utf8ByteSize := by
  rw [← utf8ByteSize_ofList, String.ofList_toList]

/-- The byte offset `n` lies between two characters of a text that starts at `offset`. -/
def Boundary (offset : Nat) (text : List Char) (n : Nat) : Prop :=
  ∃ piece, piece <+: text ∧ n = offset + byteLength piece

namespace Boundary

theorem here (offset : Nat) (text : List Char) : Boundary offset text offset :=
  ⟨[], List.nil_prefix, rfl⟩

theorem le {offset n : Nat} {text : List Char} (h : Boundary offset text n) : offset ≤ n := by
  obtain ⟨piece, -, rfl⟩ := h
  omega

theorem min {offset m n : Nat} {text : List Char} (hm : Boundary offset text m)
    (hn : Boundary offset text n) : Boundary offset text (min m n) := by
  rcases Nat.le_total m n with h | h
  · rwa [Nat.min_eq_left h]
  · rwa [Nat.min_eq_right h]

end Boundary

namespace Cursor

/-- `c'` stands behind `piece`, which `c` stands in front of. -/
structure Passes (c : Cursor) (piece : List Char) (c' : Cursor) : Prop where
  ahead : c.ahead = piece ++ c'.ahead
  passed : c'.passed = piece.reverse ++ c.passed
  offset : c'.offset = c.offset + byteLength piece

namespace Passes
variable {c c' c'' : Cursor} {piece piece' : List Char}

theorem refl (c : Cursor) : c.Passes [] c := ⟨rfl, rfl, rfl⟩

theorem trans (h : c.Passes piece c') (h' : c'.Passes piece' c'') :
    c.Passes (piece ++ piece') c'' where
  ahead := by rw [h.ahead, h'.ahead, List.append_assoc]
  passed := by rw [h'.passed, h.passed, List.reverse_append, List.append_assoc]
  offset := by rw [h'.offset, h.offset, byteLength_append, Nat.add_assoc]

theorem split (h : c.Passes (piece ++ piece') c'') :
    ∃ c', c.Passes piece c' ∧ c'.Passes piece' c'' := by
  refine ⟨⟨piece.reverse ++ c.passed, piece' ++ c''.ahead, c.offset + byteLength piece⟩,
    ⟨by rw [h.ahead, List.append_assoc], rfl, rfl⟩, rfl, ?_, ?_⟩
  · rw [h.passed, List.reverse_append, List.append_assoc]
  · rw [h.offset, byteLength_append, Nat.add_assoc]

theorem eq_of_nil (h : c.Passes [] c') : c' = c := by
  obtain ⟨ahead, passed, offset⟩ := h
  cases c
  cases c'
  simp_all

theorem nil_of_offset_le (h : c.Passes piece c') (hle : c'.offset ≤ c.offset) : piece = [] := by
  have := h.offset
  exact byteLength_eq_zero.1 (by omega)

theorem offset_lt (h : c.Passes piece c') (hne : piece ≠ []) : c.offset < c'.offset := by
  have := h.offset
  have : byteLength piece ≠ 0 := mt byteLength_eq_zero.1 hne
  omega

end Passes

theorem Passes.boundary_behind {c c' : Cursor} {piece : List Char} {n : Nat}
    (h : c.Passes piece c') (hn : Boundary c.offset c.ahead n) (hle : c'.offset ≤ n) :
    Boundary c'.offset c'.ahead n := by
  obtain ⟨front, ⟨rest, hfront⟩, rfl⟩ := hn
  rw [h.ahead] at hfront
  rw [h.offset] at hle ⊢
  rcases List.append_eq_append_iff.1 hfront with ⟨more, rfl, -⟩ | ⟨more, rfl, hmore⟩
  · have : more = [] := byteLength_eq_zero.1 (by rw [byteLength_append] at hle; omega)
    subst this
    exact ⟨[], List.nil_prefix, by simp⟩
  · exact ⟨more, ⟨rest, hmore.symm⟩, by rw [byteLength_append]; omega⟩

theorem forward_eq (n : Nat) (ahead : List Char) :
    ∃ piece rest, ahead = piece ++ rest ∧ ∀ passed offset,
      forward n passed ahead offset =
        ⟨piece.reverse ++ passed, rest, offset + byteLength piece⟩ := by
  induction ahead generalizing n with
  | nil => exact ⟨[], [], rfl, fun passed offset => by cases n <;> simp [forward]⟩
  | cons c ahead ih =>
    cases n with
    | zero => exact ⟨[], c :: ahead, rfl, fun passed offset => by simp [forward]⟩
    | succ n =>
      obtain ⟨piece, rest, rfl, h⟩ := ih (n + 1 - c.utf8Size)
      refine ⟨c :: piece, rest, rfl, fun passed offset => ?_⟩
      rw [forward, h]
      simp [Nat.add_assoc]

theorem forward_byteLength (piece rest passed : List Char) (offset : Nat) :
    forward (byteLength piece) passed (piece ++ rest) offset =
      ⟨piece.reverse ++ passed, rest, offset + byteLength piece⟩ := by
  induction piece generalizing passed offset with
  | nil => simp [forward]
  | cons c piece ih =>
    have hpos := c.utf8Size_pos
    obtain ⟨n, hn⟩ : ∃ n, byteLength (c :: piece) = n + 1 :=
      ⟨byteLength (c :: piece) - 1, by rw [byteLength_cons]; omega⟩
    have hrest : n + 1 - c.utf8Size = byteLength piece := by
      rw [byteLength_cons] at hn
      omega
    rw [hn, List.cons_append, forward, hrest, ih, ← hn]
    simp [Nat.add_assoc]

theorem offset_backward_le (n : Nat) (passed ahead : List Char) (offset : Nat) :
    (backward n passed ahead offset).offset ≤ offset := by
  induction passed generalizing n ahead offset with
  | nil => simp [backward]
  | cons c passed ih =>
    rw [backward]
    split
    · exact Nat.le_trans (ih _ _ _) (Nat.sub_le _ _)
    · exact Nat.le_refl _

theorem passes_seek {c : Cursor} {n : Nat} (h : c.offset ≤ n) :
    c.Passes (c.upTo n) (c.seek n) := by
  obtain ⟨piece, rest, hahead, hforward⟩ := forward_eq (n - c.offset) c.ahead
  rw [seek, if_pos h, upTo, hforward, hforward]
  exact ⟨by simpa using hahead, by simp, by simp⟩

theorem seek_of_passes {c c' : Cursor} {piece : List Char} (h : c.Passes piece c') :
    c.seek c'.offset = c' := by
  rw [seek, if_pos (by rw [h.offset]; omega), h.offset, Nat.add_sub_cancel_left, h.ahead,
    forward_byteLength, ← h.passed, ← h.offset]

theorem upTo_of_passes {c c' : Cursor} {piece : List Char} (h : c.Passes piece c') :
    c.upTo c'.offset = piece := by
  rw [upTo, h.offset, Nat.add_sub_cancel_left, h.ahead, forward_byteLength]
  simp

theorem offset_seek_le {c : Cursor} {n : Nat} (h : n ≤ c.offset) :
    (c.seek n).offset ≤ c.offset := by
  rcases Nat.eq_or_lt_of_le h with rfl | hlt
  · simp [seek, forward]
  · rw [seek, if_neg (by omega)]
    exact offset_backward_le _ _ _ _

theorem passes_boundary {c : Cursor} {n : Nat} (h : Boundary c.offset c.ahead n) :
    c.Passes (c.upTo n) (c.seek n) ∧ (c.seek n).offset = n := by
  obtain ⟨piece, ⟨rest, hahead⟩, rfl⟩ := h
  refine ⟨passes_seek (by omega), ?_⟩
  rw [seek, if_pos (by omega), Nat.add_sub_cancel_left, ← hahead, forward_byteLength]

theorem Passes.seek_eq {c c' : Cursor} {piece : List Char} {n : Nat} (h : c.Passes piece c')
    (hn : Boundary c'.offset c'.ahead n) : c'.seek n = c.seek n := by
  obtain ⟨hpasses, hoffset⟩ := passes_boundary hn
  have hseek := seek_of_passes (h.trans hpasses)
  rw [hoffset] at hseek
  exact hseek.symm

theorem passes_next {c : Cursor} {d : Char} {rest : List Char} (h : c.ahead = d :: rest) :
    c.Passes [d] (c.seek (c.offset + 1)) := by
  have hpos := d.utf8Size_pos
  have hseek : c.seek (c.offset + 1) = ⟨d :: c.passed, rest, c.offset + d.utf8Size⟩ := by
    rw [seek, if_pos (by omega), Nat.add_sub_cancel_left, h, forward,
      Nat.sub_eq_zero_of_le (by omega), forward]
  rw [hseek]
  exact ⟨by simpa using h, by simp, by simp⟩

theorem Passes.eq_of_offset {c c' c'' : Cursor} {piece piece' : List Char} (h : c.Passes piece c')
    (h' : c.Passes piece' c'') (hoffset : c'.offset = c''.offset) : piece = piece' ∧ c' = c'' :=
  ⟨by rw [← upTo_of_passes h, ← upTo_of_passes h', hoffset],
    by rw [← seek_of_passes h, ← seek_of_passes h', hoffset]⟩

theorem seek?_eq_some_iff {c c' : Cursor} {n : Nat} (h : c.offset ≤ n) :
    c.seek? n = some c' ↔ c.Passes (c.upTo n) c' ∧ c'.offset = n := by
  rw [seek?]
  constructor
  · intro hfound
    split at hfound
    · next hoffset =>
      cases hfound
      exact ⟨passes_seek h, hoffset⟩
    · cases hfound
  · rintro ⟨hpasses, rfl⟩
    rw [seek_of_passes hpasses]
    exact if_pos rfl

theorem Passes.seek? {c c' : Cursor} {piece : List Char} (h : c.Passes piece c') :
    c.seek? c'.offset = some c' := by
  have hle : c.offset ≤ c'.offset := h.offset ▸ Nat.le_add_right _ _
  exact (seek?_eq_some_iff hle).2 ⟨(upTo_of_passes h).symm ▸ h, rfl⟩

theorem Passes.between {c c' c'' : Cursor} {piece piece' : List Char} (h : c.Passes piece c')
    (h' : c.Passes piece' c'') (hle : c'.offset ≤ c''.offset) :
    ∃ more, piece' = piece ++ more ∧ c'.Passes more c'' := by
  have hboundary : Boundary c.offset c.ahead c''.offset :=
    ⟨piece', ⟨c''.ahead, h'.ahead.symm⟩, h'.offset⟩
  obtain ⟨hmore, hoffset⟩ := passes_boundary (h.boundary_behind hboundary hle)
  obtain ⟨hpiece, hplace⟩ := h'.eq_of_offset (h.trans hmore) hoffset.symm
  rw [← hplace] at hmore
  exact ⟨_, hpiece, hmore⟩

end Cursor

end RuleLexer.Text
