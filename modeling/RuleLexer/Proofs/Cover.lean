import RuleLexer.Coverage
import RuleLexer.Proofs.Boundary
import RuleLexer.Table

/-! Tokens that cover a text: covers of adjacent texts join, and neither a shift nor new categories
take anything away. A cover passes the check. -/
namespace RuleLexer
open RuleLexer.Text

namespace Token

@[simp] theorem text_shift (t : Token) (bytes : Nat) : (t.shift bytes).text = t.text := rfl

@[simp] theorem offset_shift (t : Token) (bytes : Nat) :
    (t.shift bytes).offset = t.offset + bytes := rfl

@[simp] theorem stop_shift (t : Token) (bytes : Nat) : (t.shift bytes).stop = t.stop + bytes := by
  simp [stop, size, Nat.add_right_comm]

theorem stop_eq (t : Token) : t.stop = t.offset + byteLength t.text.toList := by
  rw [stop, size, byteLength_toList]

end Token

namespace LexerOf
variable {τ : Type} (l : LexerOf τ) (t : Token)

@[simp] theorem text_recategorise : (l.recategorise t).text = t.text := by
  rw [recategorise]
  split <;> rfl

@[simp] theorem offset_recategorise : (l.recategorise t).offset = t.offset := by
  rw [recategorise]
  split <;> rfl

@[simp] theorem stop_recategorise : (l.recategorise t).stop = t.stop := by
  simp [Token.stop, Token.size]

end LexerOf

namespace Coverage
variable {offset : Nat} {text front back : List Char} {tokens first second : List Token}

def tokensOf (offset : Nat) (category : Category) (piece : List Char) : List Token :=
  if piece.isEmpty then [] else [⟨offset, category, String.ofList piece⟩]

@[simp] theorem tokensOf_nil (offset : Nat) (category : Category) :
    tokensOf offset category [] = [] := rfl

theorem tokensOf_ne_nil (offset : Nat) (category : Category) {piece : List Char}
    (h : piece ≠ []) :
    tokensOf offset category piece = [⟨offset, category, String.ofList piece⟩] := by
  simp [tokensOf, h]

theorem Covers.cons_at {t : Token} (hoffset : t.offset = offset) (hnonempty : t.text ≠ "")
    (h : Covers t.stop text tokens) : Covers offset (t.text.toList ++ text) (t :: tokens) := by
  subst hoffset
  exact .cons hnonempty h

theorem covers_tokensOf (offset : Nat) (category : Category) (piece : List Char) :
    Covers offset piece (tokensOf offset category piece) := by
  cases piece with
  | nil => exact .nil offset
  | cons c rest =>
    rw [tokensOf_ne_nil _ _ (List.cons_ne_nil c rest)]
    have h := Covers.cons (t := ⟨offset, category, String.ofList (c :: rest)⟩) (by simp) (.nil _)
    simpa using h

theorem Covers.append (h : Covers offset front first)
    (h' : Covers (offset + byteLength front) back second) :
    Covers offset (front ++ back) (first ++ second) := by
  induction h with
  | nil offset => simpa using h'
  | @cons t rest tokens nonempty _ ih =>
    rw [byteLength_append, ← Nat.add_assoc, ← t.stop_eq] at h'
    rw [List.append_assoc]
    exact .cons nonempty (ih h')

theorem Covers.shift (h : Covers offset text tokens) (bytes : Nat) :
    Covers (offset + bytes) text (tokens.map (·.shift bytes)) := by
  induction h with
  | nil offset => exact .nil _
  | @cons t rest tokens nonempty _ ih =>
    exact cons_at (t := t.shift bytes) rfl nonempty (by simpa using ih)

theorem Covers.congr {tokens' : List Token} (h : Covers offset text tokens)
    (hsame : tokens'.map (fun t => (t.offset, t.text)) = tokens.map fun t => (t.offset, t.text)) :
    Covers offset text tokens' := by
  induction h generalizing tokens' with
  | nil offset =>
    obtain rfl := List.map_eq_nil_iff.1 hsame
    exact .nil offset
  | @cons t rest tokens nonempty _ ih =>
    obtain ⟨u, tail, rfl, hhead, htail⟩ := List.map_eq_cons_iff.1 hsame
    obtain ⟨hoffset, htext⟩ := Prod.mk.inj hhead
    have hstop : u.stop = t.stop := by
      rw [Token.stop, Token.stop, hoffset, Token.size, htext, Token.size]
    rw [← htext] at nonempty ⊢
    exact cons_at hoffset nonempty (hstop ▸ ih htail)

theorem Covers.recategorise {τ : Type} (l : LexerOf τ) (h : Covers offset text tokens) :
    Covers offset text (tokens.map l.recategorise) :=
  h.congr (by simp)

theorem Covers.eq_nil (h : Covers offset [] tokens) : tokens = [] := by
  cases tokens with
  | nil => rfl
  | cons t tokens =>
    generalize htext : ([] : List Char) = text at h
    cases h with
    | cons nonempty later =>
      obtain ⟨hnil, -⟩ := List.append_eq_nil_iff.1 htext.symm
      exact absurd (String.toList_eq_nil_iff.1 hnil) nonempty

theorem Covers.ne_nil (h : Covers offset text tokens) (htext : text ≠ []) : tokens ≠ [] := by
  cases h with
  | nil => exact absurd rfl htext
  | cons => exact List.cons_ne_nil _ _

theorem Covers.mem_bounds (h : Covers offset text tokens) {t : Token} (ht : t ∈ tokens) :
    offset ≤ t.offset ∧ t.offset < offset + byteLength text := by
  induction h with
  | nil => cases ht
  | @cons u rest tokens nonempty _ ih =>
    have hsize : byteLength u.text.toList ≠ 0 := by
      simpa [byteLength_eq_zero] using nonempty
    have hstop := u.stop_eq
    rw [byteLength_append]
    rcases List.mem_cons.1 ht with rfl | ht
    · omega
    · have hrest := ih ht
      omega

theorem Covers.not_mem_dropLast {d : Char} (h : Covers offset text tokens) (hd : d ∉ text.dropLast)
    {t : Token} (ht : t ∈ tokens) : d ∉ t.text.toList.dropLast := by
  induction h with
  | nil => cases ht
  | @cons u rest tokens _ hrest ih =>
    by_cases hnil : rest = []
    · subst hnil
      rw [List.append_nil] at hd
      rw [hrest.eq_nil] at ht
      cases List.mem_singleton.1 ht
      exact hd
    · rw [List.dropLast_append_of_ne_nil hnil, List.mem_append, not_or] at hd
      rcases List.mem_cons.1 ht with rfl | ht
      · exact fun hmem => hd.1 (List.dropLast_subset _ hmem)
      · exact ih hd.2 ht

theorem Covers.length_le (h : Covers offset text tokens) : tokens.length ≤ text.length := by
  induction h with
  | nil => simp
  | @cons t rest tokens nonempty _ ih =>
    have : t.text.toList.length ≠ 0 := by simpa using nonempty
    simp only [List.length_cons, List.length_append]
    omega

theorem dropText?_append (piece rest : List Char) :
    dropText? piece (piece ++ rest) = some rest := by
  induction piece with
  | nil => rfl
  | cons c piece ih => simp [dropText?, ih]

theorem Covers.checkFrom (h : Covers offset text tokens) (index : Nat) :
    checkFrom index offset text tokens = .ok () := by
  induction h generalizing index with
  | nil => rfl
  | @cons t rest tokens nonempty _ ih =>
    simp [checkFrom_cons, Token.isEmpty, nonempty, dropText?_append, ih]

theorem Covers.check {text : String} (h : Covers 0 text.toList tokens) :
    check text tokens = .ok () := h.checkFrom 0

end Coverage

end RuleLexer
