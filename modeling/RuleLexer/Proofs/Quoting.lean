import RuleLexer.Text.Quoted

/-! Quoted text. What is written shows by itself, whatever the text, so a quoted text is on one line
and holds no tab; and it is read back, character by character, each up to where the next one
begins. -/
namespace RuleLexer.Text.Quoted

theorem ne_of_isPlain {c d : Char} (hc : isPlain c = true) (hd : isPlain d = false) : c ≠ d := by
  rintro rfl
  rw [hc] at hd
  cases hd

theorem digitChar_spec : ∀ d < 16, isPlain d.digitChar = true ∧ d.digitChar ≠ '\x7d' ∧
    hexDigitValue? d.digitChar = some d := by
  decide

theorem exists_of_mem_hexDigits {c : Char} {n : Nat} (h : c ∈ hexDigits n) :
    ∃ d < 16, c = d.digitChar := by
  induction n using Nat.strongRecOn with
  | _ n ih =>
    rw [hexDigits] at h
    by_cases hlt : n < 16
    · rw [Nat.toDigits_of_lt_base hlt, List.mem_singleton] at h
      exact ⟨n, hlt, h⟩
    · rw [Nat.toDigits_of_base_le (by decide) (Nat.le_of_not_lt hlt), List.mem_append] at h
      rcases h with h | h
      · exact ih (n / 16) (by omega) h
      · exact ⟨n % 16, Nat.mod_lt _ (by decide), List.mem_singleton.1 h⟩

theorem isPlain_of_mem_escape {c d : Char} (h : d ∈ escape c) : isPlain d = true := by
  have hcode : ∀ d ∈ escapeCode c, isPlain d = true := by
    intro d hd
    rw [escapeCode, List.mem_append, List.mem_append] at hd
    rcases hd with (hd | hd) | hd
    · exact List.all_eq_true.1 (by decide) d hd
    · obtain ⟨n, hn, rfl⟩ := exists_of_mem_hexDigits hd
      exact (digitChar_spec n hn).1
    · exact List.all_eq_true.1 (by decide) d hd
  unfold escape at h
  split at h
  case h_7 =>
    split at h
    · next hplain => exact List.mem_singleton.1 h ▸ hplain
    · exact hcode d h
  all_goals exact List.all_eq_true.1 (by decide) d h

theorem isPlain_of_mem_encode {text : List Char} {d : Char} (h : d ∈ encode text) :
    isPlain d = true := by
  rw [encode, List.mem_append, List.mem_cons, List.mem_flatMap, List.mem_singleton] at h
  rcases h with (rfl | ⟨c, -, hc⟩) | rfl
  · decide
  · exact isPlain_of_mem_escape hc
  · decide

theorem decodeCode_digit (code : Nat) {d : Nat} (h : d < 16) (rest : List Char) :
    decodeCode code (d.digitChar :: rest) = decodeCode (code * 16 + d) rest := by
  obtain ⟨-, hne, hvalue⟩ := digitChar_spec d h
  rw [decodeCode, hvalue]
  · rfl
  · exact hne

theorem decodeCode_hexDigits (n : Nat) (rest : List Char) :
    decodeCode 0 (hexDigits n ++ rest) = decodeCode n rest := by
  induction n using Nat.strongRecOn generalizing rest with
  | _ n ih =>
    rw [hexDigits]
    by_cases hlt : n < 16
    · rw [Nat.toDigits_of_lt_base hlt, List.singleton_append, decodeCode_digit 0 hlt, Nat.zero_mul,
        Nat.zero_add]
    · have hhigh := ih (n / 16) (by omega) ((n % 16).digitChar :: rest)
      rw [Nat.toDigits_of_base_le (by decide) (Nat.le_of_not_lt hlt), List.append_assoc,
        List.singleton_append, ← hexDigits, hhigh, decodeCode_digit _ (Nat.mod_lt _ (by decide)),
        Nat.div_add_mod']

theorem decodeChar_of_ne {c : Char} (h : c ≠ '\\') (rest : List Char) :
    decodeChar (c :: rest) = some (c, rest) := by
  unfold decodeChar
  split <;> simp_all

theorem decodeChar_escape (c : Char) (rest : List Char) :
    decodeChar (escape c ++ rest) = some (c, rest) := by
  unfold escape
  split
  case h_7 hne =>
    split
    · exact decodeChar_of_ne hne rest
    · calc decodeChar (escapeCode c ++ rest)
          = decodeCode 0 (hexDigits c.toNat ++ '\x7d' :: rest) := by simp [escapeCode, decodeChar]
        _ = decodeCode c.toNat ('\x7d' :: rest) := decodeCode_hexDigits _ _
        _ = some (c, rest) := by rw [decodeCode, Char.ofNat_toNat]
  all_goals rfl

theorem escape_ne_nil (c : Char) : escape c ≠ [] := by
  intro hnil
  have hread := decodeChar_escape c []
  rw [hnil] at hread
  cases hread

theorem length_le_escape (text : List Char) : text.length ≤ (text.flatMap escape).length := by
  induction text with
  | nil => exact Nat.le_refl 0
  | cons c text ih =>
    have hpos := List.length_pos_iff.2 (escape_ne_nil c)
    rw [List.flatMap_cons, List.length_append, List.length_cons]
    omega

theorem decodeBody_escape (text : List Char) {fuel : Nat} (h : text.length < fuel) :
    decodeBody fuel (text.flatMap escape ++ ['"']) = some text := by
  induction text generalizing fuel with
  | nil =>
    cases fuel with
    | zero => cases h
    | succ fuel => rfl
  | cons c text ih =>
    cases fuel with
    | zero => cases h
    | succ fuel =>
      have hmore : text.flatMap escape ++ ['"'] ≠ [] := by simp
      have hopen : escape c ++ (text.flatMap escape ++ ['"']) ≠ ['"'] := by
        intro hquote
        obtain ⟨hnil, -⟩ | ⟨-, hnil⟩ := List.append_eq_singleton_iff.1 hquote
        · exact escape_ne_nil c hnil
        · exact hmore hnil
      rw [List.flatMap_cons, List.append_assoc, decodeBody, decodeChar_escape]
      · show (c :: ·) <$> decodeBody fuel (text.flatMap escape ++ ['"']) = some (c :: text)
        rw [ih (Nat.lt_of_succ_lt_succ h)]
        rfl
      · exact hopen

theorem decode_encode (text : List Char) : decode (encode text) = some text := by
  have hfuel : text.length < (text.flatMap escape ++ ['"']).length := by
    rw [List.length_append, List.length_singleton]
    exact Nat.lt_succ_of_le (length_le_escape text)
  rw [encode, List.cons_append, decode]
  exact decodeBody_escape text hfuel

end RuleLexer.Text.Quoted
