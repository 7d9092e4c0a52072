import RuleLexer.Log.Event

/-! Messages that are too long. From the limit the search goes back to the last place between
characters, which is the start of the message if there is no other, so nothing fails; what is kept
is the longest start of the message that is within the limit. -/
namespace RuleLexer.Log
variable {text : String} {offset stop : Nat}

theorem isBoundary_iff :
    isBoundary text offset ↔ ∃ start rest, text = start ++ rest ∧ start.utf8ByteSize = offset := by
  rw [isBoundary, String.Pos.Raw.isValid_eq_true_iff, String.Pos.Raw.isValid_iff_exists_append]
  constructor
  · rintro ⟨start, rest, htext, hplace⟩
    exact ⟨start, rest, htext, (congrArg String.Pos.Raw.byteIdx hplace).symm⟩
  · rintro ⟨start, rest, htext, rfl⟩
    exact ⟨start, rest, htext, rfl⟩

theorem isBoundary_zero (text : String) : isBoundary text 0 :=
  isBoundary_iff.2 ⟨"", text, by simp, rfl⟩

theorem exists_searchBack (text : String) (offset : Nat) :
    ∃ stop, searchBack text offset = .ok stop := by
  induction offset with
  | zero => exact ⟨0, if_pos (isBoundary_zero text)⟩
  | succ offset ih =>
    rw [searchBack]
    split
    · exact ⟨_, rfl⟩
    · exact ih

/-- What it finds is the last place between characters that is not behind where it began. -/
theorem last_of_searchBack (h : searchBack text offset = .ok stop) :
    isBoundary text stop ∧ stop ≤ offset ∧ ∀ n ≤ offset, isBoundary text n → n ≤ stop := by
  induction offset with
  | zero =>
    rw [searchBack, if_pos (isBoundary_zero text)] at h
    cases h
    exact ⟨isBoundary_zero text, Nat.le_refl 0, fun n hn _ => hn⟩
  | succ offset ih =>
    rw [searchBack] at h
    split at h
    · next hhere =>
      cases h
      exact ⟨hhere, Nat.le_refl _, fun n hn _ => hn⟩
    · next hhere =>
      obtain ⟨hstop, hle, hlast⟩ := ih h
      refine ⟨hstop, Nat.le_succ_of_le hle, fun n hn hboundary => ?_⟩
      have hne : n ≠ offset + 1 := fun heq => hhere (heq ▸ hboundary)
      exact hlast n (by omega) hboundary

example : searchBack "aé" 2 = .ok 1 := by rfl

theorem upTo_of_isBoundary (h : isBoundary text offset) : ∃ start rest,
    upTo text offset = .ok start ∧ text = start ++ rest ∧ start.utf8ByteSize = offset := by
  have hvalid := String.Pos.Raw.isValid_eq_true_iff.1 h
  have hplace : text.pos? ⟨offset⟩ = some (text.pos ⟨offset⟩ hvalid) := by
    simp [String.pos?, String.Slice.pos?, hvalid, String.pos]
  have hsplits := (text.pos ⟨offset⟩ hvalid).splits
  refine ⟨_, _, by rw [upTo, hplace], hsplits.eq_append, ?_⟩
  rw [← String.byteIdx_rawEndPos, ← hsplits.offset_eq_rawEndPos, String.offset_pos]

/-- The longest of the starts of a text that have no more than so many bytes. -/
structure LongestStart (limit : Nat) (text start : String) : Prop where
  begins : ∃ rest, text = start ++ rest
  fits : start.utf8ByteSize ≤ limit
  longest : ∀ other rest, text = other ++ rest → other.utf8ByteSize ≤ limit →
    other.utf8ByteSize ≤ start.utf8ByteSize

theorem LongestStart.limit_lt {limit : Nat} {start : String} (h : LongestStart limit text start)
    (hlong : limit < text.utf8ByteSize) : limit < start.utf8ByteSize + 4 := by
  obtain ⟨rest, htext⟩ := h.begins
  have hfits := h.fits
  cases hrest : rest.toList with
  | nil =>
    rw [htext, String.utf8ByteSize_append, String.toList_eq_nil_iff.1 hrest] at hlong
    simp at hlong
    omega
  | cons c later =>
    have hmore : text = (start ++ String.singleton c) ++ String.ofList later := by
      rw [htext, String.append_assoc, ← String.toList_inj]
      simp [hrest]
    have hsize : (start ++ String.singleton c).utf8ByteSize = start.utf8ByteSize + c.utf8Size := by
      rw [String.utf8ByteSize_append, String.utf8ByteSize_singleton]
    have hlongest := h.longest _ _ hmore
    have hpos := c.utf8Size_pos
    have hfour := c.utf8Size_le_four
    omega

theorem exists_shorten (message : String) : ∃ stop start,
    searchBack message maxMessage = .ok stop ∧ start.utf8ByteSize = stop ∧
      LongestStart maxMessage message start ∧ shorten message = .ok (start ++ "...") := by
  obtain ⟨stop, hsearch⟩ := exists_searchBack message maxMessage
  obtain ⟨hstop, hle, hlast⟩ := last_of_searchBack hsearch
  obtain ⟨start, rest, hstart, hmessage, rfl⟩ := upTo_of_isBoundary hstop
  refine ⟨_, start, hsearch, rfl, ⟨⟨rest, hmessage⟩, hle, fun other rest hother hfits => ?_⟩, ?_⟩
  · exact hlast _ hfits (isBoundary_iff.2 ⟨other, rest, hother, rfl⟩)
  · rw [shorten, hsearch]
    show (upTo message start.utf8ByteSize >>= fun start => pure (start ++ "...")) = _
    rw [hstart]
    rfl

/-- An event has its message as it is while that is within the limit. Of a longer one it has the
longest start within the limit, to which the search has gone back over three bytes at most, and dots
behind it. -/
theorem message_cut_at_boundary (level : Level) (code : Code) (message : String) :
    let noted := (Event.of level code message).message
    (message.utf8ByteSize ≤ maxMessage → noted = message) ∧
    (maxMessage < message.utf8ByteSize → ∃ stop start,
      searchBack message maxMessage = .ok stop ∧ start.utf8ByteSize = stop ∧
        maxMessage < stop + 4 ∧ LongestStart maxMessage message start ∧ noted = start ++ "...") ∧
    noted.utf8ByteSize ≤ maxMessage + 3 := by
  intro noted
  have hnoted : noted = cutMessage message := rfl
  by_cases hshort : message.utf8ByteSize ≤ maxMessage
  · rw [cutMessage, if_pos hshort] at hnoted
    refine ⟨fun _ => hnoted, fun hlong => absurd hshort (Nat.not_le.2 hlong), ?_⟩
    rw [hnoted]
    exact Nat.le_add_right_of_le hshort
  · obtain ⟨stop, start, hsearch, hsize, hlongest, hshorten⟩ := exists_shorten message
    rw [cutMessage, if_neg hshort, hshorten] at hnoted
    refine ⟨fun h => absurd h hshort, fun hlong => ?_, ?_⟩
    · exact ⟨stop, start, hsearch, hsize, hsize ▸ hlongest.limit_lt hlong, hlongest, hnoted⟩
    · rw [hnoted, String.utf8ByteSize_append]
      exact Nat.add_le_add_right hlongest.fits 3

end RuleLexer.Log
