import Mathlib.Data.List.Forall2
import RuleLexer.Pattern
import RuleLexer.Proofs.Walk

/-! The shape of a pattern and what it tells of its matches. That a node consumes something, that it
passes over no newline, or that it stands at the start of a text only can be read off the node, and
holds of all its ways. What has to follow a match is the last group of its pattern, so a match ends
where the way through that group begins. -/
namespace RuleLexer.Regex
open RuleLexer.Text

namespace Node

def moves : Node → Bool
  | empty | look _ | mark _ | loop _ _ _ => false
  | set _ => true
  | seq a b => a.moves || b.moves
  | alt _ a b => a.moves && b.moves

/-- Passes over no such character on any way. -/
def lacks (d : Char) : Node → Bool
  | empty | look _ | mark _ => true
  | set s => !s.mem d
  | seq a b | alt _ a b => a.lacks d && b.lacks d
  | loop _ _ a => a.lacks d

/-- Passes over such a character as the last one at most. -/
def endsAt (d : Char) : Node → Bool
  | empty | look _ | mark _ | set _ => true
  | seq a b => a.lacks d && b.endsAt d
  | alt _ a b => a.endsAt d && b.endsAt d
  | loop _ _ a => a.lacks d

def beginsAt (d : Char) : Node → Bool
  | empty | look _ | mark _ | set _ => true
  | seq a b => a.beginsAt d && b.lacks d
  | alt _ a b => a.beginsAt d && b.beginsAt d
  | loop _ _ a => a.lacks d

def atStart : Node → Bool
  | look l => l == .textStart
  | seq a _ => a.atStart
  | _ => false

/-- The texts that a node without loops passes over, each as the sets of its characters. -/
def words? : Node → Option (List (List CharSet))
  | empty | look _ | mark _ => some [[]]
  | set s => some [[s]]
  | seq a b => a.words?.bind fun starts => b.words?.map fun ends =>
      starts.flatMap fun first => ends.map (first ++ ·)
  | alt _ a b => a.words?.bind fun words => b.words?.map (words ++ ·)
  | loop _ _ _ => none

def marks (slot : Nat) : Node → Bool
  | empty | set _ | look _ => false
  | mark k => k == slot
  | seq a b | alt _ a b => a.marks slot || b.marks slot
  | loop _ _ a => a.marks slot

/-- What stands before a group at the end of a node, and what stands in it. -/
def cut? (slot : Nat) : Node → Option (Node × Node)
  | seq (mark k) (seq a (mark k')) =>
      if k = slot ∧ k' = slot + 1 then some (empty, a) else none
  | seq a b => (b.cut? slot).map fun parts => (seq a parts.1, parts.2)
  | _ => none

namespace Leads
variable {n : Node} {c c' : Cursor} {σ σ' : Slots} {d : Char} {slot : Nat}

theorem offset_le (h : n.Leads c σ c' σ') : c.offset ≤ c'.offset := by
  obtain ⟨piece, hpasses⟩ := h.passes
  rw [hpasses.offset]
  exact Nat.le_add_right _ _

theorem offset_lt (h : n.Leads c σ c' σ') (hmoves : n.moves) : c.offset < c'.offset := by
  induction h with
  | empty | look | mark | done | again => cases hmoves
  | set _ passes => exact passes.offset_lt (List.cons_ne_nil _ _)
  | seq first second ihfirst ihsecond =>
    rcases Bool.or_eq_true_iff.1 hmoves with hfirst | hsecond
    · exact Nat.lt_of_lt_of_le (ihfirst hfirst) second.offset_le
    · exact Nat.lt_of_le_of_lt first.offset_le (ihsecond hsecond)
  | preferred _ _ _ ih => exact ih (Bool.and_eq_true_iff.1 hmoves).1
  | other _ _ _ ih => exact ih (Bool.and_eq_true_iff.1 hmoves).2

theorem not_mem (h : n.Leads c σ c' σ') (hlacks : n.lacks d) :
    ∃ piece, c.Passes piece c' ∧ d ∉ piece := by
  induction h with
  | empty c | look _ _ | mark _ c | done _ _ _ c => exact ⟨[], .refl _, List.not_mem_nil⟩
  | set mem passes =>
    refine ⟨_, passes, fun hd => ?_⟩
    rw [← List.mem_singleton.1 hd] at mem
    simp [lacks, mem] at hlacks
  | seq _ _ ihfirst ihsecond =>
    obtain ⟨hfirst, hsecond⟩ := Bool.and_eq_true_iff.1 hlacks
    obtain ⟨piece, hpiece, hnot⟩ := ihfirst hfirst
    obtain ⟨more, hmore, hnotMore⟩ := ihsecond hsecond
    exact ⟨piece ++ more, hpiece.trans hmore, by simp [hnot, hnotMore]⟩
  | preferred _ _ _ ih => exact ih (Bool.and_eq_true_iff.1 hlacks).1
  | other _ _ _ ih => exact ih (Bool.and_eq_true_iff.1 hlacks).2
  | again _ _ ihround ihlater =>
    obtain ⟨piece, hpiece, hnot⟩ := ihround hlacks
    obtain ⟨more, hmore, hnotMore⟩ := ihlater hlacks
    exact ⟨piece ++ more, hpiece.trans hmore, by simp [hnot, hnotMore]⟩

theorem not_mem_dropLast (h : n.Leads c σ c' σ') (hends : n.endsAt d) :
    ∃ piece, c.Passes piece c' ∧ d ∉ piece.dropLast := by
  induction h with
  | empty c | look _ _ | mark _ c | done _ _ _ c => exact ⟨[], .refl _, List.not_mem_nil⟩
  | set _ passes => exact ⟨_, passes, List.not_mem_nil⟩
  | seq first _ _ ihsecond =>
    obtain ⟨hfirst, hsecond⟩ := Bool.and_eq_true_iff.1 hends
    obtain ⟨piece, hpiece, hnot⟩ := first.not_mem hfirst
    obtain ⟨more, hmore, hnotMore⟩ := ihsecond hsecond
    refine ⟨piece ++ more, hpiece.trans hmore, fun hd => ?_⟩
    cases more with
    | nil => exact hnot (List.dropLast_subset _ (by simpa using hd))
    | cons e more =>
      rw [List.dropLast_append_cons] at hd
      rcases List.mem_append.1 hd with hd | hd
      · exact hnot hd
      · exact hnotMore hd
  | preferred _ _ _ ih => exact ih (Bool.and_eq_true_iff.1 hends).1
  | other _ _ _ ih => exact ih (Bool.and_eq_true_iff.1 hends).2
  | again round later =>
    obtain ⟨piece, hpiece, hnot⟩ := (Leads.again round later).not_mem hends
    exact ⟨piece, hpiece, fun hd => hnot (List.dropLast_subset _ hd)⟩

theorem not_mem_tail (h : n.Leads c σ c' σ') (hbegins : n.beginsAt d) :
    ∃ piece, c.Passes piece c' ∧ d ∉ piece.tail := by
  induction h with
  | empty c | look _ _ | mark _ c | done _ _ _ c => exact ⟨[], .refl _, List.not_mem_nil⟩
  | set _ passes => exact ⟨_, passes, List.not_mem_nil⟩
  | seq _ second ihfirst _ =>
    obtain ⟨hfirst, hsecond⟩ := Bool.and_eq_true_iff.1 hbegins
    obtain ⟨piece, hpiece, hnot⟩ := ihfirst hfirst
    obtain ⟨more, hmore, hnotMore⟩ := second.not_mem hsecond
    refine ⟨piece ++ more, hpiece.trans hmore, fun hd => ?_⟩
    cases piece with
    | nil => exact hnotMore (List.mem_of_mem_tail hd)
    | cons e piece => exact (List.mem_append.1 hd).elim hnot hnotMore
  | preferred _ _ _ ih => exact ih (Bool.and_eq_true_iff.1 hbegins).1
  | other _ _ _ ih => exact ih (Bool.and_eq_true_iff.1 hbegins).2
  | again round later =>
    obtain ⟨piece, hpiece, hnot⟩ := (Leads.again round later).not_mem hbegins
    exact ⟨piece, hpiece, fun hd => hnot (List.mem_of_mem_tail hd)⟩

theorem passed_eq_nil (h : n.Leads c σ c' σ') (hstart : n.atStart) : c.passed = [] := by
  induction h with
  | look holds =>
    cases eq_of_beq hstart
    simpa [Look.holds, Place.at] using holds
  | seq _ _ ih => exact ih hstart
  | empty | set | mark | preferred | other | done | again => cases hstart

theorem exists_word (h : n.Leads c σ c' σ') {words : List (List CharSet)}
    (hwords : n.words? = some words) : ∃ piece, c.Passes piece c' ∧
      ∃ word ∈ words, List.Forall₂ (fun s d => s.mem d) word piece := by
  induction h generalizing words with
  | empty c | look _ _ | mark _ c =>
    cases hwords
    exact ⟨[], .refl _, [], List.mem_singleton_self _, .nil⟩
  | set mem passes =>
    cases hwords
    exact ⟨_, passes, _, List.mem_singleton_self _, .cons mem .nil⟩
  | seq _ _ ihfirst ihsecond =>
    obtain ⟨starts, hstarts, hrest⟩ := Option.bind_eq_some_iff.1 hwords
    obtain ⟨ends, hends, rfl⟩ := Option.map_eq_some_iff.1 hrest
    obtain ⟨piece, hpiece, first, hfirst, hmem⟩ := ihfirst hstarts
    obtain ⟨more, hmore, second, hsecond, hmemMore⟩ := ihsecond hends
    refine ⟨piece ++ more, hpiece.trans hmore, first ++ second, ?_, List.rel_append hmem hmemMore⟩
    exact List.mem_flatMap.2 ⟨first, hfirst, List.mem_map.2 ⟨second, hsecond, rfl⟩⟩
  | preferred _ _ _ ih =>
    obtain ⟨own, hown, hrest⟩ := Option.bind_eq_some_iff.1 hwords
    obtain ⟨others, -, rfl⟩ := Option.map_eq_some_iff.1 hrest
    obtain ⟨piece, hpiece, word, hword, hmem⟩ := ih hown
    exact ⟨piece, hpiece, word, List.mem_append_left _ hword, hmem⟩
  | other _ _ _ ih =>
    obtain ⟨others, -, hrest⟩ := Option.bind_eq_some_iff.1 hwords
    obtain ⟨own, hown, rfl⟩ := Option.map_eq_some_iff.1 hrest
    obtain ⟨piece, hpiece, word, hword, hmem⟩ := ih hown
    exact ⟨piece, hpiece, word, List.mem_append_right _ hword, hmem⟩
  | done | again => cases hwords

theorem getElem?_eq (h : n.Leads c σ c' σ') (hmarks : n.marks slot = false) :
    σ'[slot]? = σ[slot]? := by
  induction h with
  | empty | set | look | done => rfl
  | mark k => exact List.getElem?_set_ne (by simpa [marks] using hmarks)
  | seq _ _ ihfirst ihsecond =>
    obtain ⟨hfirst, hsecond⟩ := Bool.or_eq_false_iff.1 hmarks
    rw [ihsecond hsecond, ihfirst hfirst]
  | preferred _ _ _ ih => exact ih (Bool.or_eq_false_iff.1 hmarks).1
  | other _ _ _ ih => exact ih (Bool.or_eq_false_iff.1 hmarks).2
  | again _ _ ihround ihlater => rw [ihlater hmarks, ihround hmarks]

theorem cut (h : n.Leads c σ c' σ') {body a : Node} (hcut : n.cut? slot = some (body, a))
    (hmarks : a.marks slot = false) (hlength : slot + 1 < σ.length) :
    ∃ c₁ σ₁ σ₂ σ₃, body.Leads c σ c₁ σ₁ ∧ a.Leads c₁ σ₂ c' σ₃ ∧
      σ'[slot]? = some (some c₁.offset) ∧ σ'[slot + 1]? = some (some c'.offset) := by
  induction n generalizing c σ body with
  | seq first rest _ ihrest =>
    cases h with
    | @seq _ _ _ c₀ _ _ σ₀ _ hfirst hrest =>
      rw [cut?.eq_def] at hcut
      split at hcut
      · next k own k' heq =>
        cases heq
        obtain ⟨⟨rfl, rfl⟩, heq⟩ := Option.ite_none_right_eq_some.1 hcut
        cases heq
        cases hfirst
        cases hrest with
        | seq hown hmark =>
          have hsame := hown.getElem?_eq hmarks
          have hkept := hown.length_eq
          cases hmark
          rw [List.length_set] at hkept
          refine ⟨c, σ, _, _, .empty c σ, hown, ?_, ?_⟩
          · rw [List.getElem?_set_ne (by omega), hsame, List.getElem?_set_self (by omega)]
          · exact List.getElem?_set_self (by omega)
      · next heq =>
        cases heq
        obtain ⟨⟨own, _⟩, hparts, heq⟩ := Option.map_eq_some_iff.1 hcut
        cases heq
        obtain ⟨c₁, σ₁, σ₂, σ₃, hbody, hahead, hstart, hstop⟩ :=
          ihrest hrest hparts (hfirst.length_eq.symm ▸ hlength)
        exact ⟨c₁, σ₁, σ₂, σ₃, .seq hfirst hbody, hahead, hstart, hstop⟩
      · cases hcut
  | empty | set | look | mark | alt | loop => cases hcut

end Leads

end Node

end Regex

open RuleLexer.Regex RuleLexer.Text

/-- What a match of a pattern consumes, and what has to follow it. -/
def Regex.parts? (r : Regex) (ahead : Bool) : Option (Node × Node) :=
  if ahead then
    (r.groupNamed? Pattern.aheadGroup).bind fun i => (r.node.cut? (2 * i)).filter fun parts =>
      !parts.2.marks (2 * i) && decide (2 * i + 1 < r.slotCount)
  else some (r.node, .empty)

/-- A match is a way through a body, with a way through what has to follow behind it. -/
def Match.Leads (m : Match) (place : Cursor) (body after : Node) : Prop :=
  ∃ c c' σ σ₁ σ₂ σ₃, body.Leads place σ c σ₁ ∧ after.Leads c σ₂ c' σ₃ ∧
    m.start = place.offset ∧ m.stop = c.offset

/-- What a match of a pattern consumes lies on a way through its body. -/
theorem Pattern.matchAt_leads {p : Pattern} {place : Cursor} {m : Match}
    (h : p.matchAt place = some m) {body after : Node}
    (hparts : p.regex.parts? p.ahead?.isSome = some (body, after)) :
    m.Leads place body after := by
  rw [matchAt] at h
  obtain ⟨found, hfound, rfl⟩ := Option.map_eq_some_iff.1 h
  obtain ⟨c, hleads, hstop⟩ := Node.run_leads hfound
  rw [Regex.parts?] at hparts
  cases hahead : p.ahead? with
  | none =>
    rw [hahead] at hparts
    cases hparts
    have hend : p.stopOf found = c.offset := by rw [stopOf, hahead, ← hstop]
    exact ⟨c, c, _, _, found.slots, found.slots, hleads, .empty c _, rfl, hend⟩
  | some source =>
    rw [hahead] at hparts
    obtain ⟨i, hi, hparts⟩ := Option.bind_eq_some_iff.1 hparts
    obtain ⟨hcut, hrest⟩ := Option.filter_eq_some_iff.1 hparts
    simp only [Bool.and_eq_true, Bool.not_eq_true', decide_eq_true_eq] at hrest
    obtain ⟨c₁, σ₁, σ₂, σ₃, hbody, hafter, hfirst, hlast⟩ :=
      hleads.cut hcut hrest.1 (by rw [List.length_replicate]; exact hrest.2)
    refine ⟨c₁, c, _, σ₁, σ₂, σ₃, hbody, hafter, rfl, ?_⟩
    simp [stopOf, hahead, hi, Found.group?, hfirst, hlast]

namespace Match.Leads
variable {m : Match} {place : Cursor} {body after : Node} {d : Char}

theorem start_eq (h : m.Leads place body after) : m.start = place.offset := by
  obtain ⟨_, _, _, _, _, _, -, -, hstart, -⟩ := h
  exact hstart

theorem upTo_ne_nil (h : m.Leads place body after) (hmoves : body.moves) :
    place.upTo m.stop ≠ [] := by
  obtain ⟨_, _, _, _, _, _, hbody, -, -, hstop⟩ := h
  obtain ⟨piece, hpasses⟩ := hbody.passes
  rw [hstop, Cursor.upTo_of_passes hpasses]
  rintro rfl
  exact Nat.lt_irrefl _ (hpasses.eq_of_nil ▸ hbody.offset_lt hmoves)

theorem passes (h : m.Leads place body after) :
    place.Passes (place.upTo m.stop) (place.seek m.stop) ∧ (place.seek m.stop).offset = m.stop := by
  obtain ⟨_, _, _, _, _, _, hbody, -, -, hstop⟩ := h
  obtain ⟨piece, hpasses⟩ := hbody.passes
  rw [hstop, Cursor.upTo_of_passes hpasses, Cursor.seek_of_passes hpasses]
  exact ⟨hpasses, rfl⟩

theorem passed_eq_nil (h : m.Leads place body after) (hstart : body.atStart) :
    place.passed = [] := by
  obtain ⟨_, _, _, _, _, _, hbody, -, -, -⟩ := h
  exact hbody.passed_eq_nil hstart

theorem not_mem (h : m.Leads place body after) (hlacks : body.lacks d) :
    d ∉ place.upTo m.stop := by
  obtain ⟨_, _, _, _, _, _, hbody, -, -, hstop⟩ := h
  obtain ⟨piece, hpasses, hnot⟩ := hbody.not_mem hlacks
  rwa [hstop, Cursor.upTo_of_passes hpasses]

theorem not_mem_dropLast (h : m.Leads place body after) (hends : body.endsAt d) :
    d ∉ (place.upTo m.stop).dropLast := by
  obtain ⟨_, _, _, _, _, _, hbody, -, -, hstop⟩ := h
  obtain ⟨piece, hpasses, hnot⟩ := hbody.not_mem_dropLast hends
  rwa [hstop, Cursor.upTo_of_passes hpasses]

theorem not_mem_tail (h : m.Leads place body after) (hbegins : body.beginsAt d) :
    d ∉ (place.upTo m.stop).tail := by
  obtain ⟨_, _, _, _, _, _, hbody, -, -, hstop⟩ := h
  obtain ⟨piece, hpasses, hnot⟩ := hbody.not_mem_tail hbegins
  rwa [hstop, Cursor.upTo_of_passes hpasses]

theorem exists_word (h : m.Leads place body after) {words : List (List CharSet)}
    (hwords : body.words? = some words) :
    ∃ word ∈ words, List.Forall₂ (fun s d => s.mem d) word (place.upTo m.stop) := by
  obtain ⟨_, _, _, _, _, _, hbody, -, -, hstop⟩ := h
  obtain ⟨piece, hpasses, word⟩ := hbody.exists_word hwords
  rwa [hstop, Cursor.upTo_of_passes hpasses]

theorem exists_word_after (h : m.Leads place body after) {words : List (List CharSet)}
    (hwords : after.words? = some words) {behind : Cursor}
    (hbehind : place.Passes (place.upTo m.stop) behind) : ∃ piece, piece <+: behind.ahead ∧
      ∃ word ∈ words, List.Forall₂ (fun s d => s.mem d) word piece := by
  obtain ⟨c, c', _, _, _, _, hbody, hafter, -, hstop⟩ := h
  obtain ⟨_, hpasses⟩ := hbody.passes
  obtain ⟨piece, hahead, word⟩ := hafter.exists_word hwords
  rw [hstop, Cursor.upTo_of_passes hpasses] at hbehind
  have hsame : c.ahead = behind.ahead :=
    List.append_cancel_left (hpasses.ahead.symm.trans hbehind.ahead)
  exact ⟨piece, ⟨c'.ahead, hsame ▸ hahead.ahead.symm⟩, word⟩

end Match.Leads

end RuleLexer
