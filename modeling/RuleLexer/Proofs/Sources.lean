import RuleLexer.Source

/-! What can be read at a place. Reading ends with the text of a file, without the mark at its start
where that is to be left out; it fails where there is no file of a size that can be read, and where
the bytes of the file are no text. -/
namespace RuleLexer
open RuleLexer.Log RuleLexer.Text

theorem Text.Utf8.decode_toUTF8 (text : String) : Utf8.decode text.toUTF8 = .ok text := by
  have hread : String.fromUTF8? text.toUTF8 = some text := dif_pos text.isValidUTF8
  rw [Utf8.decode, hread]

theorem Text.Utf8.eq_toUTF8_of_decode {bytes : ByteArray} {text : String}
    (h : Utf8.decode bytes = .ok text) : bytes = text.toUTF8 := by
  rw [Utf8.decode] at h
  split at h
  · next whole hread =>
    cases h
    rw [String.fromUTF8?] at hread
    split at hread
    · cases hread
      rfl
    · cases hread
  · cases h

namespace Source

/-- What is left of a text when a mark at its start is left out, where that is asked for. -/
inductive Unmarks : (strip : Bool) → (whole text : String) → Prop
  | marked (text : String) : Unmarks true (String.singleton mark ++ text) text
  | unmarked {text : String} (h : ∀ rest, text ≠ String.singleton mark ++ rest) :
      Unmarks true text text
  | kept (text : String) : Unmarks false text text

theorem unmarks_withoutMark (strip : Bool) (whole : String) :
    Unmarks strip whole (withoutMark strip whole).1 := by
  cases strip with
  | false => exact .kept whole
  | true =>
    rw [withoutMark.eq_def]
    split
    · next c rest _ hwhole =>
      have hsplit : whole = String.singleton c ++ String.ofList rest := by
        rw [← String.toList_inj, hwhole]
        simp
      split
      · next hmark =>
        rw [hsplit, hmark]
        exact .marked _
      · next hmark =>
        refine .unmarked fun other hother => hmark ?_
        rw [hother, String.toList_append, String.toList_singleton] at hwhole
        exact (List.cons.inj hwhole).1.symm
    · next hnone =>
      refine .unmarked fun rest hrest => hnone mark rest.toList rfl ?_
      rw [hrest, String.toList_append, String.toList_singleton]
      rfl

end Source

namespace Place

def Lacking (place : Place) : Prop :=
  ∀ path size bytes, place = .file path size (.ok bytes) → Source.maxSize < size

def Garbled (place : Place) : Prop :=
  ∃ path size bytes, place = .file path size (.ok bytes) ∧ ∀ text : String, bytes ≠ text.toUTF8

/-- There is a file of the size that can be read, and this is its text. -/
def Holds (strip : Bool) (place : Place) (text : String) : Prop :=
  ∃ path size whole, place = .file path size (.ok (String.toUTF8 whole)) ∧ size ≤ Source.maxSize ∧
    Source.Unmarks strip whole text

variable {place : Place} {strip : Bool} {text : String}

theorem Holds.not_lacking (h : place.Holds strip text) : ¬place.Lacking := by
  obtain ⟨path, size, whole, hplace, hsize, -⟩ := h
  exact fun hlacking => Nat.not_lt.2 hsize (hlacking _ _ _ hplace)

theorem Holds.not_garbled (h : place.Holds strip text) : ¬place.Garbled := by
  obtain ⟨path, size, whole, rfl, -⟩ := h
  rintro ⟨_, _, _, hplace, hbytes⟩
  cases hplace
  exact hbytes whole rfl

end Place

namespace Source
variable {place : Place} {reading : Reading} {asked path : String} {size : Nat}

theorem read_cases (reading : Reading) (hasked : asked ≠ "") (place : Place) :
    (∃ source, (read reading asked place).1 = .ok source ∧
      place.Holds reading.stripMark source.text) ∨
    ∃ e, (read reading asked place).1 = .error e ∧ (place.Lacking ∨ place.Garbled) := by
  have hnamed : ¬asked.isEmpty = true := by simpa using hasked
  rw [read.eq_def, if_neg hnamed]
  cases place with
  | missing => exact .inr ⟨_, rfl, .inl nofun⟩
  | notFile => exact .inr ⟨_, rfl, .inl nofun⟩
  | unresolved failure => exact .inr ⟨_, rfl, .inl nofun⟩
  | unmeasured path failure => exact .inr ⟨_, rfl, .inl nofun⟩
  | file path size content =>
    by_cases hsize : maxSize < size
    · simp only [if_pos hsize]
      refine .inr ⟨_, rfl, .inl fun _ _ _ hplace => ?_⟩
      cases hplace
      exact hsize
    · simp only [if_neg hsize]
      cases content with
      | error failure => exact .inr ⟨_, rfl, .inl nofun⟩
      | ok bytes =>
        show (∃ source, (ofBytes reading asked path size bytes).1 = .ok source ∧ _) ∨
          ∃ e, (ofBytes reading asked path size bytes).1 = .error e ∧ _
        rw [ofBytes]
        cases hbytes : Utf8.decode bytes with
        | error offset =>
          refine .inr ⟨_, rfl, .inr ⟨path, size, bytes, rfl, ?_⟩⟩
          rintro text rfl
          cases hbytes.symm.trans (Utf8.decode_toUTF8 text)
        | ok whole =>
          refine .inl ⟨_, rfl, path, size, whole, ?_, Nat.le_of_not_lt hsize,
            unmarks_withoutMark _ _⟩
          rw [Utf8.eq_toUTF8_of_decode hbytes]

end Source

end RuleLexer
