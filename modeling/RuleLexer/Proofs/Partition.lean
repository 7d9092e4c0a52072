import Mathlib.Data.List.Chain
import RuleLexer.Proofs.Nested

/-! Tokens cut a text into pieces. At every point of a run of any lexer, the tokens given out and
those still pending are the pieces of the text up to the place where scanning goes on, in order and
without a gap; when there are no more tokens, that place is the end of the text. -/
namespace RuleLexer
open RuleLexer.Text RuleLexer.Coverage

/-- The tokens are the pieces, in order, of the first `position` bytes of a text. -/
structure Partition (text : String) (tokens : List Token) (position : Nat) : Prop where
  nonempty : ∀ t ∈ tokens, t.text ≠ ""
  starts : ∀ t ∈ tokens.head?, t.offset = 0
  contiguous : tokens.IsChain fun t u => u.offset = t.stop
  /-- The text of each is what stands at its offset. -/
  slices : ∀ t ∈ tokens, ∃ before after,
    text = before ++ t.text ++ after ∧ before.utf8ByteSize = t.offset
  stops : (tokens.getLast?.map Token.stop).getD 0 = position

namespace Coverage.Covers
variable {offset : Nat} {text : List Char} {tokens : List Token}

theorem text_ne_empty (h : Covers offset text tokens) : ∀ t ∈ tokens, t.text ≠ "" := by
  induction h with
  | nil => simp
  | cons nonempty _ ih =>
    rintro t ht
    rcases List.mem_cons.1 ht with rfl | ht
    · exact nonempty
    · exact ih t ht

theorem offset_head (h : Covers offset text tokens) : ∀ t ∈ tokens.head?, t.offset = offset := by
  cases h with
  | nil => simp
  | cons => simp

theorem isChain (h : Covers offset text tokens) :
    tokens.IsChain fun t u => u.offset = t.stop := by
  induction h with
  | nil => exact .nil
  | cons _ later ih => exact List.isChain_cons.2 ⟨later.offset_head, ih⟩

theorem slices (h : Covers offset text tokens) : ∀ t ∈ tokens, ∃ before after,
    text = before ++ t.text.toList ++ after ∧ offset + byteLength before = t.offset := by
  induction h with
  | nil => simp
  | @cons u rest tokens _ _ ih =>
    intro t ht
    rcases List.mem_cons.1 ht with rfl | ht
    · exact ⟨[], rest, rfl, rfl⟩
    · obtain ⟨before, after, rfl, hoffset⟩ := ih t ht
      refine ⟨u.text.toList ++ before, after, by simp, ?_⟩
      rw [byteLength_append, ← Nat.add_assoc, ← u.stop_eq, hoffset]

theorem stop_getLast (h : Covers offset text tokens) :
    (tokens.getLast?.map Token.stop).getD offset = offset + byteLength text := by
  induction h with
  | nil => simp
  | @cons t rest tokens _ _ ih =>
    rw [List.getLast?_cons, byteLength_append, ← Nat.add_assoc, ← t.stop_eq, ← ih]
    cases tokens.getLast? <;> simp

theorem partition (h : Covers 0 text tokens) (rest : List Char) :
    Partition (String.ofList (text ++ rest)) tokens (byteLength text) where
  nonempty := h.text_ne_empty
  starts := h.offset_head
  contiguous := h.isChain
  slices t ht := by
    obtain ⟨before, after, rfl, hoffset⟩ := h.slices t ht
    refine ⟨String.ofList before, String.ofList (after ++ rest), ?_, ?_⟩
    · simp [String.ofList_append, String.append_assoc]
    · rw [utf8ByteSize_ofList, ← hoffset, Nat.zero_add]
  stops := by simpa using h.stop_getLast

end Coverage.Covers

namespace Point.Holds
variable {l : Lexer} {text : String} {depth : Nat} {p : Point}

theorem partition (h : Holds l text.toList depth p) :
    Partition text (p.taken ++ p.run.pending) p.run.position := by
  have hpassed := h.covers.partition p.run.cursor.ahead
  have hplace := h.passes.offset
  have htext := h.passes.ahead
  simp only [Cursor.start, Nat.zero_add] at hplace htext
  rw [← htext, String.ofList_toList] at hpassed
  rwa [Run.position, hplace]

theorem done (h : Holds l text.toList depth p) (hnone : p.run.next? = none) :
    p.run.position = text.utf8ByteSize ∧ check text p.taken = .ok () := by
  obtain ⟨hpending, hend⟩ := (Run.next?_eq_none_iff h.steady).1 hnone
  have hplace := h.passes.offset
  have htext := h.passes.ahead
  have hcovers := h.covers
  simp only [Cursor.start, Nat.zero_add, hend, List.append_nil] at hplace htext
  rw [← htext, hpending, List.append_nil] at hcovers
  exact ⟨by rw [Run.position, hplace, ← htext, byteLength_toList], hcovers.check⟩

end Point.Holds

/-- The tokens of a run are the pieces of its text: at every turn, behind every token that it gives
out, and when there are no more. -/
theorem tokens_partition_text (l : Lexer) (states : List StateId) (text : String)
    (depth turns : Nat) :
    let r := Run.start l states text.toList depth
    let p := Point.after turns r
    Partition text (p.taken ++ p.run.pending) p.run.position ∧
      (∀ limit i t s, (r.history limit)[i]? = some (t, s) →
        Partition text (((r.history limit).take (i + 1)).map Prod.fst ++ s.pending) s.position) ∧
      (p.run.next? = none →
        p.run.position = text.utf8ByteSize ∧ check text p.taken = .ok ()) ∧
      check text r.tokens = .ok () := by
  intro r p
  have hp : p.Holds l text.toList depth := .after l states text.toList depth turns
  refine ⟨hp.partition, ?_, hp.done, ?_⟩
  · intro limit i t s hentry
    have hr := Point.Holds.start l states text.toList depth
    obtain ⟨turns, hrun, htaken⟩ := hr.history hentry
    have hpartition := (hr.iterate turns).partition
    rwa [hrun, htaken] at hpartition
  · have hplace : r.position = 0 + byteLength [] := rfl
    have hdrain := Run.covers_drain (Run.runner?_covering r.levels)
      (Run.steady_start l states text.toList depth) (Run.stepsLeft_lt_stepBound r) (.nil 0) hplace
    rw [← Run.tokens_eq_drain (Run.steady_start ..) (Run.stepsLeft_lt_stepBound r)] at hdrain
    exact hdrain.check

theorem tokens_partition_text_nesting :
    let p := Point.after 4 (nestingLexer.run "baa")
    p.run.next? = none ∧ p.run.position = 3 ∧ check "baa" p.taken = .ok () := by
  intro p
  have hnone : (Point.after 4 (nestingLexer.run "baa")).run.next?.isNone := by decide +kernel
  have hnone := Option.isNone_iff_eq_none.1 hnone
  have hpartition := tokens_partition_text nestingLexer [0] "baa" 0 4
  obtain ⟨hplace, hcheck⟩ := hpartition.2.2.1 hnone
  exact ⟨hnone, hplace, hcheck⟩

end RuleLexer
