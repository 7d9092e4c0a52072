import RuleLexer.Stack

/-! The states on a stack. A stack whose states are all among those of a table keeps them so under
every operation that names only such states, and never grows beyond its bound. -/
namespace RuleLexer

def Listed (count : Nat) (states : List StateId) : Prop := ∀ id ∈ states, id < count

namespace Listed
variable {count : Nat} {state : StateId} {states : List StateId}

theorem nil : Listed count [] := by simp [Listed]

theorem cons_iff : Listed count (state :: states) ↔ state < count ∧ Listed count states :=
  List.forall_mem_cons

theorem sublist {part : List StateId} (h : Listed count states) (hpart : part.Sublist states) :
    Listed count part :=
  fun id hid => h id (hpart.subset hid)

theorem reverse (h : Listed count states) : Listed count states.reverse :=
  fun id hid => h id (List.mem_reverse.1 hid)

end Listed

namespace Stack

structure Valid (count : Nat) (s : Stack) : Prop where
  listed : Listed count s.entries
  bounded : s.depth ≤ maxDepth

variable {count : Nat}

theorem valid_ofList (generation : Nat) {states : List StateId} {fallback : StateId}
    (hstates : Listed count states) (hfallback : fallback < count) :
    (ofList generation states fallback).Valid count := by
  have hlisted := (hstates.sublist (List.take_sublist maxDepth states)).reverse
  have hlength : (states.take maxDepth).reverse.length ≤ maxDepth := by
    rw [List.length_reverse]
    exact List.length_take_le _ _
  rw [ofList]
  split
  · exact ⟨Listed.cons_iff.2 ⟨hfallback, .nil⟩, by simp [depth, maxDepth]⟩
  · next hsome =>
    rw [hsome] at hlisted hlength
    exact ⟨hlisted, hlength⟩

theorem valid_start {states : List StateId} {fallback : StateId} (hstates : Listed count states)
    (hfallback : fallback < count) : (start states fallback).Valid count :=
  valid_ofList 0 hstates hfallback

namespace Valid
variable {s : Stack} {state : StateId}

theorem push (h : s.Valid count) (hstate : state < count) : (s.push state).1.Valid count := by
  rw [Stack.push]
  split
  · exact h
  · next hroom => exact ⟨Listed.cons_iff.2 ⟨hstate, h.listed⟩, Nat.lt_of_not_le hroom⟩

theorem pushAll (h : s.Valid count) {states : List StateId} (hstates : Listed count states) :
    (s.pushAll states).1.Valid count := by
  induction states generalizing s with
  | nil => exact h
  | cons state rest ih =>
    obtain ⟨hstate, hrest⟩ := Listed.cons_iff.1 hstates
    exact ih (h.push hstate) hrest

theorem pop (h : s.Valid count) (n : Nat) : (s.pop n).1.Valid count := by
  have hpart := List.drop_sublist (min n s.below.length) s.entries
  rw [Stack.pop]
  split
  · next hdrop =>
    rw [hdrop] at hpart
    exact ⟨h.listed.sublist hpart, Nat.le_trans hpart.length_le h.bounded⟩
  · exact h

theorem reset (h : s.Valid count) (hstate : state < count) : (s.reset state).Valid count := by
  rw [Stack.reset]
  split
  · exact h
  · exact ⟨Listed.cons_iff.2 ⟨hstate, .nil⟩, by simp [depth, maxDepth]⟩

theorem replace (h : s.Valid count) {states : List StateId} (hstates : Listed count states) :
    (s.replace states).1.Valid count := by
  cases states with
  | nil => exact h.pop 1
  | cons state rest =>
    obtain ⟨top, below, generation⟩ := s
    cases below with
    | nil => exact valid_ofList _ hstates (Listed.cons_iff.1 hstates).1
    | cons next below =>
      have hrest : (⟨next, below, generation + 1⟩ : Stack).Valid count :=
        ⟨(Listed.cons_iff.1 h.listed).2, Nat.le_of_succ_le h.bounded⟩
      exact hrest.pushAll hstates

theorem top_lt (h : s.Valid count) : s.top < count := (Listed.cons_iff.1 h.listed).1

theorem apply (h : s.Valid count) {op : StackOp StateId} (hop : Listed count op.states) :
    (s.apply op).1.Valid count := by
  cases op with
  | push states => exact h.pushAll hop
  | pushCurrent => exact h.pushAll (Listed.cons_iff.2 ⟨h.top_lt, .nil⟩)
  | pop n => exact h.pop n
  | replace states => exact h.replace hop
  | reset state => exact h.reset (Listed.cons_iff.1 hop).1

end Valid

end Stack

end RuleLexer
