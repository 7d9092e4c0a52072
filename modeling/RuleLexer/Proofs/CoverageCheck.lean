import Mathlib.Algebra.GroupWithZero.Nat
import RuleLexer.Proofs.Cover

/-! The check of a cover is exact: it passes the tokens that cut the text into its pieces and no
others, and what it names otherwise is the first thing wrong. `Begins` says that tokens cut what the
text begins with; a `Violation` is a `Fault` when the tokens in front of it do, and it is the check
that fails behind them. -/
namespace RuleLexer
open RuleLexer.Text

namespace Token

def extent (tokens : List Token) : Nat := (tokens.map size).sum

@[simp] theorem extent_nil : extent [] = 0 := rfl

@[simp] theorem extent_cons (t : Token) (tokens : List Token) :
    extent (t :: tokens) = t.size + extent tokens := rfl

@[simp] theorem concat_nil : concat [] = "" := rfl

@[simp] theorem toList_concat_cons (t : Token) (tokens : List Token) :
    (concat (t :: tokens)).toList = t.text.toList ++ (concat tokens).toList := by
  rw [concat, List.map_cons, String.join_cons, String.toList_append, concat]

theorem toList_concat_append (first second : List Token) :
    (concat (first ++ second)).toList = (concat first).toList ++ (concat second).toList := by
  induction first with
  | nil => rfl
  | cons t first ih => simp [ih]

theorem byteLength_concat (tokens : List Token) :
    byteLength (concat tokens).toList = extent tokens := by
  induction tokens with
  | nil => rfl
  | cons t tokens ih => rw [toList_concat_cons, byteLength_append, ih, byteLength_toList]; rfl

theorem take_succ_of_getElem? {tokens : List Token} {i : Nat} {t : Token}
    (h : tokens[i]? = some t) : tokens.take (i + 1) = tokens.take i ++ [t] := by
  rw [List.take_add_one, h]
  rfl

end Token

namespace Coverage
variable {text : String} {tokens : List Token} {i : Nat} {t : Token} {v : Violation}

namespace Violation

/-- The token that a violation is about, none when it is about the text behind all of them. -/
def index? : Violation → Option Nat
  | discontinuity index _ _ | emptyToken index _ | textMismatch index _ => some index
  | incomplete _ _ => none

end Violation

/-- The tokens cut what a text begins with into pieces: none is empty, the text starts with their
texts, and each is at the offset where the texts before it end. -/
structure Begins (text : String) (tokens : List Token) : Prop where
  nonempty : ∀ t ∈ tokens, t.text ≠ ""
  texts : (Token.concat tokens).toList <+: text.toList
  offsets : ∀ (i : Nat) (h : i < tokens.length), tokens[i].offset = Token.extent (tokens.take i)

/-- What the check names of tokens that do not cover a text. Each violation of a token comes behind
tokens that cut what the text begins with, and the kinds come in the order in which a token is
looked at. -/
inductive Fault (text : String) (tokens : List Token) : Violation → Prop
  | discontinuity {i : Nat} {t : Token} (found : tokens[i]? = some t)
      (begins : Begins text (tokens.take i)) (elsewhere : t.offset ≠ Token.extent (tokens.take i)) :
      Fault text tokens (.discontinuity i (Token.extent (tokens.take i)) t.offset)
  | emptyToken {i : Nat} {t : Token} (found : tokens[i]? = some t)
      (begins : Begins text (tokens.take i)) (here : t.offset = Token.extent (tokens.take i))
      (empty : t.text = "") : Fault text tokens (.emptyToken i t.offset)
  | textMismatch {i : Nat} {t : Token} (found : tokens[i]? = some t)
      (begins : Begins text (tokens.take i)) (here : t.offset = Token.extent (tokens.take i))
      (nonempty : t.text ≠ "")
      (differs : ¬ (Token.concat (tokens.take (i + 1))).toList <+: text.toList) :
      Fault text tokens (.textMismatch i t.offset)
  | incomplete (begins : Begins text tokens) (short : Token.concat tokens ≠ text) :
      Fault text tokens (.incomplete (Token.extent tokens) text.utf8ByteSize)

theorem dropText?_eq_some {piece text rest : List Char} (h : dropText? piece text = some rest) :
    text = piece ++ rest := by
  induction piece generalizing text with
  | nil => exact Option.some.inj h
  | cons c piece ih =>
    cases text with
    | nil => cases h
    | cons d text =>
      rw [dropText?] at h
      split at h
      next heq => rw [← heq, ih h, List.cons_append]
      next => cases h

theorem dropText?_eq_none {piece text : List Char} :
    dropText? piece text = none ↔ ¬ piece <+: text := by
  constructor
  · rintro h ⟨rest, rfl⟩
    rw [dropText?_append] at h
    cases h
  · intro h
    cases hdrop : dropText? piece text with
    | none => rfl
    | some rest => exact absurd ⟨rest, (dropText?_eq_some hdrop).symm⟩ h

theorem offset_le_of_mem_checkNoting {index offset : Nat} {text : List Char}
    (h : t ∈ (checkNoting index offset text tokens).2) : t.offset ≤ offset + byteLength text := by
  induction tokens generalizing index offset text with
  | nil =>
    rw [checkNoting] at h
    split at h <;> cases h
  | cons u tokens ih =>
    rw [checkNoting] at h
    split at h
    · cases h
    next hoffset =>
    have hoffset : u.offset = offset := Decidable.not_not.1 hoffset
    split at h
    · cases h
    split at h
    · obtain rfl := List.mem_singleton.1 h
      omega
    next rest hdrop =>
    rcases List.mem_cons.1 h with rfl | hlater
    · omega
    · have hle := ih hlater
      have hstop := u.stop_eq
      rw [dropText?_eq_some hdrop, byteLength_append]
      omega

theorem covers_concat {offset : Nat} (hnonempty : ∀ t ∈ tokens, t.text ≠ "")
    (hoffsets : ∀ (i : Nat) (h : i < tokens.length),
      tokens[i].offset = offset + Token.extent (tokens.take i)) :
    Covers offset (Token.concat tokens).toList tokens := by
  induction tokens generalizing offset with
  | nil => exact .nil offset
  | cons t tokens ih =>
    rw [List.forall_mem_cons] at hnonempty
    have hoffset : t.offset = offset := hoffsets 0 (Nat.zero_lt_succ _)
    rw [Token.toList_concat_cons]
    refine Covers.cons_at hoffset hnonempty.1 (ih hnonempty.2 fun i h => ?_)
    have := hoffsets (i + 1) (Nat.succ_lt_succ h)
    rw [List.getElem_cons_succ, List.take_succ_cons, Token.extent_cons] at this
    rw [this, Token.stop, hoffset, Nat.add_assoc]

theorem Begins.covers (h : Begins text tokens) : Covers 0 (Token.concat tokens).toList tokens :=
  covers_concat h.nonempty (by simpa using h.offsets)

theorem Begins.nil (text : String) : Begins text [] where
  nonempty := by simp
  texts := List.nil_prefix
  offsets _ h := absurd h (Nat.not_lt_zero _)

theorem begins_take_succ_iff (found : tokens[i]? = some t) (h : Begins text (tokens.take i)) :
    Begins text (tokens.take (i + 1)) ↔
      t.offset = Token.extent (tokens.take i) ∧ t.text ≠ "" ∧
        (Token.concat (tokens.take (i + 1))).toList <+: text.toList := by
  obtain ⟨hi, heq⟩ := List.getElem?_eq_some_iff.1 found
  have htake := Token.take_succ_of_getElem? found
  have hlength : (tokens.take i).length = i := List.length_take_of_le (Nat.le_of_lt hi)
  constructor
  · intro h'
    refine ⟨?_, h'.nonempty t (by simp [htake]), h'.texts⟩
    have := h'.offsets i (by rw [List.length_take_of_le hi]; exact Nat.lt_succ_self i)
    rwa [List.getElem_take, heq, List.take_take, Nat.min_eq_left (Nat.le_succ i)] at this
  · rintro ⟨hoffset, hnonempty, htexts⟩
    refine ⟨?_, htexts, fun j hj => ?_⟩
    · rw [htake]
      intro u hu
      rcases List.mem_append.1 hu with hu | hu
      · exact h.nonempty u hu
      · exact List.mem_singleton.1 hu ▸ hnonempty
    · rw [List.getElem_take, List.take_take]
      rw [List.length_take_of_le hi] at hj
      rw [Nat.min_eq_left (Nat.le_of_lt hj)]
      rcases Nat.lt_succ_iff_lt_or_eq.1 hj with hj | rfl
      · have := h.offsets j (by rwa [hlength])
        rwa [List.getElem_take, List.take_take, Nat.min_eq_left (Nat.le_of_lt hj)] at this
      · rw [heq, hoffset]

theorem checkFrom_append {offset : Nat} {front : List Char} {first : List Token}
    (rest : List Char) (later : List Token) (h : Covers offset front first) (index : Nat) :
    checkFrom index offset (front ++ rest) (first ++ later) =
      checkFrom (index + first.length) (offset + byteLength front) rest later := by
  induction h generalizing index with
  | nil => rfl
  | @cons t front first nonempty _ ih =>
    rw [List.cons_append, List.append_assoc, checkFrom_cons, if_neg (Decidable.not_not.2 rfl),
      if_neg (by simpa [Token.isEmpty] using nonempty), dropText?_append]
    simp only
    rw [ih, t.stop_eq, byteLength_append, List.length_cons]
    congr 1 <;> omega

/-- The check arrives at the first token that is not known to go on. -/
theorem Begins.check_eq (h : Begins text (tokens.take i)) (hi : i ≤ tokens.length) :
    ∃ rest, (Token.concat (tokens.take i)).toList ++ rest = text.toList ∧
      check text tokens = checkFrom i (Token.extent (tokens.take i)) rest (tokens.drop i) := by
  obtain ⟨rest, hrest⟩ := h.texts
  refine ⟨rest, hrest, ?_⟩
  have happend := checkFrom_append rest (tokens.drop i) h.covers 0
  rwa [List.take_append_drop, hrest, Token.byteLength_concat, List.length_take_of_le hi,
    Nat.zero_add, Nat.zero_add] at happend

theorem Begins.check_eq_of_found (h : Begins text (tokens.take i)) (found : tokens[i]? = some t) :
    ∃ rest, (Token.concat (tokens.take i)).toList ++ rest = text.toList ∧
      check text tokens =
        checkFrom i (Token.extent (tokens.take i)) rest (t :: tokens.drop (i + 1)) := by
  obtain ⟨hi, heq⟩ := List.getElem?_eq_some_iff.1 found
  obtain ⟨rest, hrest, hcheck⟩ := h.check_eq (Nat.le_of_lt hi)
  rw [List.drop_eq_getElem_cons hi, heq] at hcheck
  exact ⟨rest, hrest, hcheck⟩

theorem dropText?_eq_none_iff_mismatch {rest : List Char} (found : tokens[i]? = some t)
    (hrest : (Token.concat (tokens.take i)).toList ++ rest = text.toList) :
    dropText? t.text.toList rest = none ↔
      ¬ (Token.concat (tokens.take (i + 1))).toList <+: text.toList := by
  rw [dropText?_eq_none, Token.take_succ_of_getElem? found, Token.toList_concat_append, ← hrest,
    List.prefix_append_right_inj]
  simp

theorem Fault.check (h : Fault text tokens v) : check text tokens = .error v := by
  cases h with
  | discontinuity found begins elsewhere =>
    obtain ⟨rest, -, hcheck⟩ := begins.check_eq_of_found found
    rw [hcheck, checkFrom_cons, if_pos elsewhere]
  | emptyToken found begins here empty =>
    obtain ⟨rest, -, hcheck⟩ := begins.check_eq_of_found found
    rw [hcheck, checkFrom_cons, if_neg (Decidable.not_not.2 here),
      if_pos (by simp [Token.isEmpty, empty]), here]
  | textMismatch found begins here nonempty differs =>
    obtain ⟨rest, hrest, hcheck⟩ := begins.check_eq_of_found found
    rw [hcheck, checkFrom_cons, if_neg (Decidable.not_not.2 here),
      if_neg (by simpa [Token.isEmpty] using nonempty),
      (dropText?_eq_none_iff_mismatch found hrest).2 differs, here]
  | incomplete begins short =>
    have hall : tokens.take tokens.length = tokens := List.take_length
    obtain ⟨rest, hrest, hcheck⟩ := (hall.symm ▸ begins).check_eq (Nat.le_refl _)
    rw [hall] at hrest hcheck
    have hne : rest ≠ [] := by
      rintro rfl
      rw [List.append_nil] at hrest
      exact short (String.toList_inj.1 hrest)
    rw [hcheck, List.drop_length, checkFrom_nil, if_neg (by simpa using hne), ← byteLength_toList text,
      ← hrest, byteLength_append, Token.byteLength_concat]

/-- Token by token, either they go on cutting the text or there is a fault. -/
theorem begins_or_fault (text : String) (hi : i ≤ tokens.length) :
    Begins text (tokens.take i) ∨ ∃ v, Fault text tokens v := by
  induction i with
  | zero => exact .inl (.nil text)
  | succ i ih =>
    obtain hbegins | hfault := ih (Nat.le_of_succ_le hi)
    · have found : tokens[i]? = some tokens[i] := List.getElem?_eq_getElem hi
      by_cases here : tokens[i].offset = Token.extent (tokens.take i)
      · by_cases empty : tokens[i].text = ""
        · exact .inr ⟨_, .emptyToken found hbegins here empty⟩
        · by_cases htexts : (Token.concat (tokens.take (i + 1))).toList <+: text.toList
          · exact .inl ((begins_take_succ_iff found hbegins).2 ⟨here, empty, htexts⟩)
          · exact .inr ⟨_, .textMismatch found hbegins here empty htexts⟩
      · exact .inr ⟨_, .discontinuity found hbegins here⟩
    · exact .inr hfault

theorem covers_or_fault (text : String) (tokens : List Token) :
    (Begins text tokens ∧ Token.concat tokens = text) ∨ ∃ v, Fault text tokens v := by
  rcases begins_or_fault text (Nat.le_refl tokens.length) with hbegins | hfault
  · rw [List.take_length] at hbegins
    by_cases htext : Token.concat tokens = text
    · exact .inl ⟨hbegins, htext⟩
    · exact .inr ⟨_, .incomplete hbegins htext⟩
  · exact .inr hfault

theorem check_eq_ok_iff :
    check text tokens = .ok () ↔ Begins text tokens ∧ Token.concat tokens = text := by
  constructor
  · intro hok
    obtain hcovers | ⟨v, hfault⟩ := covers_or_fault text tokens
    · exact hcovers
    · rw [hfault.check] at hok
      cases hok
  · rintro ⟨hbegins, rfl⟩
    exact hbegins.covers.check

theorem check_eq_error_iff : check text tokens = .error v ↔ Fault text tokens v := by
  refine ⟨fun herror => ?_, Fault.check⟩
  obtain hcovers | ⟨v', hfault⟩ := covers_or_fault text tokens
  · rw [check_eq_ok_iff.2 hcovers] at herror
    cases herror
  · rw [hfault.check] at herror
    exact Except.error.inj herror ▸ hfault

namespace Fault

theorem first (h : Fault text tokens v) (hi : v.index? = some i) :
    i < tokens.length ∧ Begins text (tokens.take i) ∧ ¬ Begins text (tokens.take (i + 1)) := by
  cases h with
  | discontinuity found begins elsewhere =>
    cases hi
    exact ⟨(List.getElem?_eq_some_iff.1 found).1, begins,
      fun h => elsewhere ((begins_take_succ_iff found begins).1 h).1⟩
  | emptyToken found begins _ empty =>
    cases hi
    exact ⟨(List.getElem?_eq_some_iff.1 found).1, begins,
      fun h => ((begins_take_succ_iff found begins).1 h).2.1 empty⟩
  | textMismatch found begins _ _ differs =>
    cases hi
    exact ⟨(List.getElem?_eq_some_iff.1 found).1, begins, fun h => differs h.texts⟩
  | incomplete => cases hi

theorem extent_lt (begins : Begins text tokens) (short : Token.concat tokens ≠ text) :
    Token.extent tokens < text.utf8ByteSize := by
  obtain ⟨rest, hrest⟩ := begins.texts
  have hne : byteLength rest ≠ 0 := by
    rw [ne_eq, byteLength_eq_zero]
    rintro rfl
    rw [List.append_nil] at hrest
    exact short (String.toList_inj.1 hrest)
  rw [← byteLength_toList, ← hrest, byteLength_append, Token.byteLength_concat]
  omega

theorem goes_on (h : Fault text tokens v) (hi : v.index? = none) :
    Begins text tokens ∧ v = .incomplete (Token.extent tokens) text.utf8ByteSize ∧
      Token.extent tokens < text.utf8ByteSize := by
  cases h with
  | incomplete begins short => exact ⟨begins, rfl, extent_lt begins short⟩
  | discontinuity | emptyToken | textMismatch => cases hi

theorem span_start_le_stop (h : Fault text tokens v) : v.span.start ≤ v.span.stop := by
  cases h with
  | discontinuity =>
    simp only [Violation.span]
    omega
  | emptyToken | textMismatch => exact Nat.le_refl _
  | incomplete begins short => exact Nat.le_of_lt (extent_lt begins short)

end Fault

/-- The check is exact. It passes the tokens of which none is empty, whose texts make up the text
and which start where the texts before them end, and no others. What it names of others is a fault:
about a token, the first with which the tokens no longer cut what the text begins with; about none,
that all tokens are fine and the text goes on. The span of a violation is in order, and the end of a
token is added up only where the token starts within the text. -/
theorem check_exact (text : String) (tokens : List Token) :
    (check text tokens = .ok () ↔
      (∀ t ∈ tokens, t.text ≠ "") ∧ Token.concat tokens = text ∧
        ∀ (i : Nat) (h : i < tokens.length),
          tokens[i].offset = ((tokens.take i).map Token.size).sum) ∧
    (∀ v, check text tokens = .error v ↔ Fault text tokens v) ∧
    (∀ v, check text tokens = .error v →
      (∀ i, v.index? = some i →
        i < tokens.length ∧ Begins text (tokens.take i) ∧ ¬ Begins text (tokens.take (i + 1))) ∧
      (v.index? = none → Begins text tokens ∧ ∃ covered length,
        v = .incomplete covered length ∧ covered = Token.extent tokens ∧
          length = text.utf8ByteSize ∧ covered < length) ∧
      v.span.start ≤ v.span.stop) ∧
    (checkNoting 0 0 text.toList tokens).1 = check text tokens ∧
    ∀ t ∈ (checkNoting 0 0 text.toList tokens).2, t.offset ≤ text.utf8ByteSize := by
  refine ⟨?_, fun _ => check_eq_error_iff, fun v herror => ?_, rfl, fun t ht => ?_⟩
  · rw [check_eq_ok_iff]
    constructor
    · rintro ⟨hbegins, htext⟩
      exact ⟨hbegins.nonempty, htext, hbegins.offsets⟩
    · rintro ⟨hnonempty, htext, hoffsets⟩
      exact ⟨⟨hnonempty, htext ▸ List.prefix_rfl, hoffsets⟩, htext⟩
  · have hfault := check_eq_error_iff.1 herror
    refine ⟨fun i hi => hfault.first hi, fun hi => ?_, hfault.span_start_le_stop⟩
    obtain ⟨hbegins, hv, hlt⟩ := hfault.goes_on hi
    exact ⟨hbegins, _, _, hv, rfl, rfl, hlt⟩
  · have hle := offset_le_of_mem_checkNoting ht
    rwa [byteLength_toList, Nat.zero_add] at hle

end Coverage

end RuleLexer
