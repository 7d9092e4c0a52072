import RuleLexer.Proofs.Boundary
import RuleLexer.Table

/-! Where matches end. Whatever a pattern is, every offset that a run of it marks lies between two
characters at or behind the place where it starts, and so does the end of the match; the groups of
a match do not reach beyond its end. -/
namespace RuleLexer
open RuleLexer.Text

namespace Regex

def Slots.All (P : Nat → Prop) (slots : Slots) : Prop := ∀ n, some n ∈ slots → P n

structure Frontier.All (P : Nat → Prop) (f : Frontier) : Prop where
  threads : ∀ t ∈ f.threads, Slots.All P t.slots
  matched : ∀ slots ∈ f.matched, Slots.All P slots

variable {P : Nat → Prop}

theorem Slots.All.set {slots : Slots} {n : Nat} (h : Slots.All P slots) (hn : P n) (slot : Nat) :
    Slots.All P (slots.set slot (some n)) := by
  intro m hm
  rcases List.mem_or_eq_of_mem_set hm with hm | hm
  · exact h m hm
  · cases hm
    exact hn

theorem Slots.all_replicate (count : Nat) : Slots.All P (List.replicate count none) := by
  intro n hn
  simp at hn

namespace Frontier

theorem all_none : Frontier.none.All P := ⟨by simp [none], by simp [none]⟩

theorem All.addThread {f : Frontier} {t : Thread} (h : f.All P) (ht : Slots.All P t.slots) :
    (f.addThread t).All P := by
  rw [Frontier.addThread]
  split
  · exact h
  · refine ⟨fun u hu => ?_, h.matched⟩
    rcases List.mem_cons.1 hu with rfl | hu
    · exact ht
    · exact h.threads u hu

theorem All.addMatch {f : Frontier} {slots : Slots} (h : f.All P) (hs : Slots.All P slots) :
    (f.addMatch slots).All P := by
  rw [Frontier.addMatch]
  split
  · exact h
  · exact ⟨h.threads, by simpa using hs⟩

theorem All.enter {f : Frontier} {id : Nat} {go : Frontier → Frontier} (h : f.All P)
    (hgo : ∀ f : Frontier, f.All P → (go f).All P) : (f.enter id go).All P := by
  rw [Frontier.enter]
  split
  · exact h
  · exact hgo _ ⟨h.threads, h.matched⟩

end Frontier

theorem Node.expand_all {p : Place} (hp : P p.offset) (node : Node) {rest : List Node}
    {next : Slots → Frontier → Frontier}
    (hnext : ∀ slots f, Slots.All P slots → f.All P → (next slots f).All P)
    {slots : Slots} {f : Frontier} (hs : Slots.All P slots) (hf : f.All P) :
    (node.expand p rest next slots f).All P := by
  induction node generalizing rest next slots f with
  | empty => exact hnext _ _ hs hf
  | set s => exact hf.addThread hs
  | look l =>
    rw [Node.expand]
    split
    · exact hnext _ _ hs hf
    · exact hf
  | mark slot => exact hnext _ _ (hs.set hp slot) hf
  | seq a b iha ihb => exact iha (fun slots f hs hf => ihb hnext hs hf) hs hf
  | alt id a b iha ihb => exact hf.enter fun f hf => ihb hnext hs (iha hnext hs hf)
  | loop id greedy a iha =>
    refine hf.enter fun f hf => ?_
    have again {f : Frontier} (hf : f.All P) :
        (a.expand p (loop id greedy a :: rest) (fun _ f => f) slots f).All P :=
      iha (fun _ _ _ hf => hf) hs hf
    dsimp only
    split
    · exact hnext _ _ hs (again hf)
    · exact again (hnext _ _ hs hf)

theorem expandAll_all {p : Place} (hp : P p.offset) (nodes : List Node) {slots : Slots}
    {f : Frontier} (hs : Slots.All P slots) (hf : f.All P) : (expandAll p nodes slots f).All P := by
  induction nodes generalizing slots f with
  | nil => exact hf.addMatch hs
  | cons node rest ih => exact node.expand_all hp (fun slots f hs hf => ih hs hf) hs hf

theorem advance_all {p : Place} (hp : P p.offset) (c : Char) {threads : List Thread} {f : Frontier}
    (ht : ∀ t ∈ threads, Slots.All P t.slots) (hf : f.All P) : (advance p c threads f).All P := by
  induction threads generalizing f with
  | nil => exact hf
  | cons t rest ih =>
    rw [advance]
    split
    · exact hf
    · refine ih (fun u hu => ht u (List.mem_cons_of_mem _ hu)) ?_
      split
      · exact expandAll_all hp _ (ht t List.mem_cons_self) hf
      · exact hf

structure Found.Within (found : Found) (offset : Nat) (text : List Char) : Prop where
  stop : Boundary offset text found.stop
  slots : Slots.All (Boundary offset text) found.slots

theorem Frontier.All.found_within {f : Frontier} {offset stop : Nat} {text : List Char}
    (h : f.All (Boundary offset text)) (hstop : Boundary offset text stop) {found : Found}
    (hfound : f.found? stop = some found) : found.Within offset text := by
  obtain ⟨slots, hslots, rfl⟩ := Option.map_eq_some_iff.1 hfound
  exact ⟨hstop, h.matched slots hslots⟩

theorem scan_within {offset : Nat} {passed text : List Char} {threads : List Thread}
    {best : Option Found} (hbest : ∀ found ∈ best, found.Within offset (passed ++ text))
    (ht : ∀ t ∈ threads, Slots.All (Boundary offset (passed ++ text)) t.slots) {found : Found}
    (h : scan best (offset + byteLength passed) threads text = some found) :
    found.Within offset (passed ++ text) := by
  induction text generalizing passed threads best with
  | nil => cases threads <;> exact hbest found h
  | cons c text ih =>
    cases threads with
    | nil => exact hbest found h
    | cons t threads =>
      rw [scan, Nat.add_assoc, ← byteLength_singleton c, ← byteLength_append] at h
      have hplace : Boundary offset (passed ++ c :: text)
          (offset + byteLength (passed ++ [c])) := ⟨passed ++ [c], ⟨text, by simp⟩, rfl⟩
      have hf := advance_all (p := ⟨some c, text.head?, _⟩) hplace c ht Frontier.all_none
      rw [List.append_cons] at hbest hf hplace ⊢
      refine ih (fun found hfound => ?_) ?_ h
      · rcases Option.or_eq_some_iff.1 hfound with hnew | ⟨-, hold⟩
        · exact hf.found_within hplace hnew
        · exact hbest found hold
      · exact fun u hu => hf.threads u (List.mem_reverse.1 hu)

theorem Node.run_within {node : Node} {slotCount offset : Nat} {before : Option Char}
    {text : List Char} {found : Found} (h : node.run slotCount before offset text = some found) :
    found.Within offset text := by
  have hplace := Boundary.here offset text
  have hf := expandAll_all (p := ⟨before, text.head?, offset⟩) hplace [node]
    (Slots.all_replicate slotCount) Frontier.all_none
  refine @scan_within offset [] text _ _ (fun found hfound => hf.found_within hplace hfound) ?_ _ h
  exact fun t ht => hf.threads t (List.mem_reverse.1 ht)

theorem Found.Within.group {found : Found} {offset : Nat} {text : List Char}
    (h : found.Within offset text) {i first last : Nat}
    (hgroup : found.group? i = some (first, last)) :
    Boundary offset text first ∧ Boundary offset text last := by
  rw [Found.group?] at hgroup
  split at hgroup
  · next hfirst hlast =>
    cases hgroup
    exact ⟨h.slots _ (List.mem_of_getElem? hfirst), h.slots _ (List.mem_of_getElem? hlast)⟩
  · cases hgroup

end Regex

/-- A match that starts at a place, ends at a boundary and has its groups inside. -/
structure Match.Fits (m : Match) (place : Cursor) : Prop where
  start : m.start = place.offset
  stop : Boundary place.offset place.ahead m.stop
  groups : ∀ span, some span ∈ m.groups →
    Boundary place.offset place.ahead span.start ∧ Boundary place.offset place.ahead span.stop ∧
      span.start ≤ span.stop ∧ span.stop ≤ m.stop

namespace Pattern

theorem stopOf_boundary (p : Pattern) {found : Regex.Found} {offset : Nat} {text : List Char}
    (h : found.Within offset text) : Boundary offset text (p.stopOf found) := by
  rw [stopOf]
  split
  · exact h.stop
  · split
    · next hgroup =>
      obtain ⟨i, -, hi⟩ := Option.bind_eq_some_iff.1 hgroup
      exact (h.group hi).1
    · exact h.stop

theorem matchAt_fits {p : Pattern} {place : Cursor} {m : Match} (h : p.matchAt place = some m) :
    m.Fits place := by
  obtain ⟨found, hfound, rfl⟩ := Option.map_eq_some_iff.1 h
  have hwithin : found.Within place.offset place.ahead := Regex.Node.run_within hfound
  refine ⟨rfl, p.stopOf_boundary hwithin, fun span hspan => ?_⟩
  obtain ⟨i, -, hi⟩ := List.mem_map.1 hspan
  obtain ⟨⟨first, last⟩, hgroup, hclip⟩ := Option.bind_eq_some_iff.1 hi
  obtain ⟨hfirst, hlast⟩ := hwithin.group hgroup
  rw [clip] at hclip
  split at hclip
  · next hle =>
    cases hclip
    exact ⟨hfirst, hlast.min (p.stopOf_boundary hwithin), hle, Nat.min_le_right _ _⟩
  · cases hclip

end Pattern

namespace Matcher

theorem whole_fits {m : Match} {place : Cursor} (h : m.Fits place) : m.whole.Fits place :=
  ⟨h.start, h.stop, by simp [Match.whole]⟩

mutual

theorem matchAt_fits {place : Cursor} {m : Match} :
    {matcher : Matcher} → matcher.matchAt place = some m → m.Fits place
  | .pattern _, h => Pattern.matchAt_fits h
  | .state _ among, h => by
    rw [matchAt] at h
    obtain ⟨found, hfound, rfl⟩ := Option.map_eq_some_iff.1 h
    exact whole_fits (matchFirst_fits hfound)

theorem matchFirst_fits {place : Cursor} {m : Match} :
    {among : List Matcher} → matchFirst place among = some m → m.Fits place
  | [], h => by simp [matchFirst] at h
  | first :: rest, h => by
    rw [matchFirst] at h
    rcases Option.or_eq_some_iff.1 h with hfirst | ⟨-, hrest⟩
    · exact matchAt_fits hfirst
    · exact matchFirst_fits hrest

end

end Matcher

end RuleLexer
