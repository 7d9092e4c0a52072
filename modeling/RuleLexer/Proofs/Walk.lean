import RuleLexer.Proofs.Boundary
import RuleLexer.Regex.Basic

/-! Ways of a pattern through a text. A node leads from one place to another, and from one setting
of the marks to another, in the ways that its parts do; whatever preferences decide among them,
what a run of the node finds is one of its ways. -/
namespace RuleLexer.Regex
open RuleLexer.Text

def Place.at (c : Cursor) : Place := ⟨c.passed.head?, c.ahead.head?, c.offset⟩

inductive Node.Leads : Node → Cursor → Slots → Cursor → Slots → Prop
  | empty (c : Cursor) (σ : Slots) : Leads .empty c σ c σ
  | set {s : CharSet} {d : Char} {c c' : Cursor} (mem : s.mem d) (passes : c.Passes [d] c')
      (σ : Slots) : Leads (.set s) c σ c' σ
  | look {l : Look} {c : Cursor} (holds : l.holds (.at c)) (σ : Slots) : Leads (.look l) c σ c σ
  | mark (slot : Nat) (c : Cursor) (σ : Slots) :
      Leads (.mark slot) c σ c (σ.set slot (some c.offset))
  | seq {a b : Node} {c c' c'' : Cursor} {σ σ' σ'' : Slots} (first : Leads a c σ c' σ')
      (second : Leads b c' σ' c'' σ'') : Leads (.seq a b) c σ c'' σ''
  | preferred {a : Node} {c c' : Cursor} {σ σ' : Slots} (h : Leads a c σ c' σ') (id : Nat)
      (b : Node) : Leads (.alt id a b) c σ c' σ'
  | other {b : Node} {c c' : Cursor} {σ σ' : Slots} (h : Leads b c σ c' σ') (id : Nat)
      (a : Node) : Leads (.alt id a b) c σ c' σ'
  | done (id : Nat) (greedy : Bool) (a : Node) (c : Cursor) (σ : Slots) :
      Leads (.loop id greedy a) c σ c σ
  | again {id : Nat} {greedy : Bool} {a : Node} {c c' c'' : Cursor} {σ σ' σ'' : Slots}
      (round : Leads a c σ c' σ') (later : Leads (.loop id greedy a) c' σ' c'' σ'') :
      Leads (.loop id greedy a) c σ c'' σ''

inductive LeadAll : List Node → Cursor → Slots → Cursor → Slots → Prop
  | nil (c : Cursor) (σ : Slots) : LeadAll [] c σ c σ
  | cons {n : Node} {rest : List Node} {c c' c'' : Cursor} {σ σ' σ'' : Slots}
      (first : n.Leads c σ c' σ') (later : LeadAll rest c' σ' c'' σ'') :
      LeadAll (n :: rest) c σ c'' σ''

theorem Node.Leads.passes {n : Node} {c c' : Cursor} {σ σ' : Slots} (h : n.Leads c σ c' σ') :
    ∃ piece, c.Passes piece c' := by
  induction h with
  | empty c | look _ _ | mark _ c | done _ _ _ c => exact ⟨[], .refl _⟩
  | set _ passes => exact ⟨_, passes⟩
  | preferred _ _ _ ih | other _ _ _ ih => exact ih
  | seq _ _ ihfirst ihsecond =>
    obtain ⟨piece, hpiece⟩ := ihfirst
    obtain ⟨more, hmore⟩ := ihsecond
    exact ⟨piece ++ more, hpiece.trans hmore⟩
  | again _ _ ihround ihlater =>
    obtain ⟨piece, hpiece⟩ := ihround
    obtain ⟨more, hmore⟩ := ihlater
    exact ⟨piece ++ more, hpiece.trans hmore⟩

theorem Node.Leads.length_eq {n : Node} {c c' : Cursor} {σ σ' : Slots} (h : n.Leads c σ c' σ') :
    σ'.length = σ.length := by
  induction h with
  | empty | set | look | done => rfl
  | mark => exact List.length_set
  | preferred _ _ _ ih | other _ _ _ ih => exact ih
  | seq _ _ ihfirst ihsecond => rw [ihsecond, ihfirst]
  | again _ _ ihround ihlater => rw [ihlater, ihround]

/-- All ways that lead on from here through `rest` end in what `W` says. -/
def On (W : Cursor → Slots → Prop) (rest : List Node) (c : Cursor) (σ : Slots) : Prop :=
  ∀ c' σ', LeadAll rest c σ c' σ' → W c' σ'

/-- What the threads of a place wait for leads on to what `W` says, and a match is there. -/
structure Frontier.Leading (W : Cursor → Slots → Prop) (c : Cursor) (f : Frontier) : Prop where
  threads : ∀ t ∈ f.threads, ∀ d c', t.awaits.mem d → c.Passes [d] c' → On W t.rest c' t.slots
  matched : ∀ σ ∈ f.matched, W c σ

variable {W : Cursor → Slots → Prop} {c : Cursor}

namespace Frontier

theorem leading_none : Frontier.none.Leading W c := ⟨by simp [none], by simp [none]⟩

theorem Leading.addThread {f : Frontier} {t : Thread} (h : f.Leading W c)
    (ht : ∀ d c', t.awaits.mem d → c.Passes [d] c' → On W t.rest c' t.slots) :
    (f.addThread t).Leading W c := by
  rw [Frontier.addThread]
  split
  · exact h
  · refine ⟨fun u hu => ?_, h.matched⟩
    rcases List.mem_cons.1 hu with rfl | hu
    · exact ht
    · exact h.threads u hu

theorem Leading.addMatch {f : Frontier} {σ : Slots} (h : f.Leading W c) (hσ : W c σ) :
    (f.addMatch σ).Leading W c := by
  rw [Frontier.addMatch]
  split
  · exact h
  · exact ⟨h.threads, by simpa using hσ⟩

theorem Leading.enter {f : Frontier} {id : Nat} {go : Frontier → Frontier} (h : f.Leading W c)
    (hgo : ∀ f : Frontier, f.Leading W c → (go f).Leading W c) : (f.enter id go).Leading W c := by
  rw [Frontier.enter]
  split
  · exact h
  · exact hgo _ ⟨h.threads, h.matched⟩

end Frontier

theorem Node.expand_leading (node : Node) {rest : List Node}
    {next : Slots → Frontier → Frontier}
    (hnext : ∀ σ f, On W rest c σ → f.Leading W c → (next σ f).Leading W c)
    {σ : Slots} {f : Frontier} (hon : On W (node :: rest) c σ) (hf : f.Leading W c) :
    (node.expand (.at c) rest next σ f).Leading W c := by
  induction node generalizing rest next σ f with
  | empty => exact hnext _ _ (fun c' σ' h => hon c' σ' (.cons (.empty c σ) h)) hf
  | set s =>
    exact hf.addThread fun d c' hmem hpasses c'' σ'' h => hon c'' σ'' (.cons (.set hmem hpasses σ) h)
  | look l =>
    rw [Node.expand]
    split
    · next hholds => exact hnext _ _ (fun c' σ' h => hon c' σ' (.cons (.look hholds σ) h)) hf
    · exact hf
  | mark slot => exact hnext _ _ (fun c' σ' h => hon c' σ' (.cons (.mark slot c σ) h)) hf
  | seq a b iha ihb =>
    refine iha (fun σ f hon hf => ihb hnext hon hf) (fun c' σ' h => ?_) hf
    cases h with
    | cons first later =>
      cases later with
      | cons second later => exact hon c' σ' (.cons (.seq first second) later)
  | alt id a b iha ihb =>
    refine hf.enter fun f hf => ?_
    have hfirst := iha hnext (fun c' σ' h => by
      cases h with
      | cons first later => exact hon c' σ' (.cons (.preferred first id b) later)) hf
    refine ihb hnext (fun c' σ' h => ?_) hfirst
    cases h with
    | cons first later => exact hon c' σ' (.cons (.other first id a) later)
  | loop id greedy a iha =>
    refine hf.enter fun f hf => ?_
    have hdone : On W rest c σ := fun c' σ' h => hon c' σ' (.cons (.done id greedy a c σ) h)
    have again {f : Frontier} (hf : f.Leading W c) :
        (a.expand (.at c) (loop id greedy a :: rest) (fun _ f => f) σ f).Leading W c := by
      refine iha (fun _ _ _ hf => hf) (fun c' σ' h => ?_) hf
      cases h with
      | cons round later =>
        cases later with
        | cons more later => exact hon c' σ' (.cons (.again round more) later)
    dsimp only
    split
    · exact hnext _ _ hdone (again hf)
    · exact again (hnext _ _ hdone hf)

theorem expandAll_leading (nodes : List Node) {σ : Slots} {f : Frontier} (hon : On W nodes c σ)
    (hf : f.Leading W c) : (expandAll (.at c) nodes σ f).Leading W c := by
  induction nodes generalizing σ f with
  | nil => exact hf.addMatch (hon c σ (.nil c σ))
  | cons node rest ih => exact node.expand_leading (fun σ f hon hf => ih hon hf) hon hf

theorem advance_leading {d : Char} {c' : Cursor} (hpasses : c.Passes [d] c')
    {threads : List Thread} {f : Frontier}
    (ht : ∀ t ∈ threads, ∀ d c', t.awaits.mem d → c.Passes [d] c' → On W t.rest c' t.slots)
    (hf : f.Leading W c') : (advance (.at c') d threads f).Leading W c' := by
  induction threads generalizing f with
  | nil => exact hf
  | cons t rest ih =>
    rw [advance]
    split
    · exact hf
    · refine ih (fun u hu => ht u (List.mem_cons_of_mem _ hu)) ?_
      split
      · next hmem => exact expandAll_leading _ (ht t List.mem_cons_self d c' hmem hpasses) hf
      · exact hf

def Found.Ends (W : Cursor → Slots → Prop) (found : Found) : Prop :=
  ∃ c, W c found.slots ∧ found.stop = c.offset

theorem Frontier.Leading.found {f : Frontier} (h : f.Leading W c) {found : Found}
    (hfound : f.found? c.offset = some found) : found.Ends W := by
  obtain ⟨σ, hσ, rfl⟩ := Option.map_eq_some_iff.1 hfound
  exact ⟨c, h.matched σ hσ, rfl⟩

theorem scan_ends {threads : List Thread} {best : Option Found}
    (hbest : ∀ found ∈ best, found.Ends W)
    (ht : ∀ t ∈ threads, ∀ d c', t.awaits.mem d → c.Passes [d] c' → On W t.rest c' t.slots)
    {found : Found} (h : scan best c.offset threads c.ahead = some found) : found.Ends W := by
  induction hahead : c.ahead generalizing c threads best with
  | nil =>
    rw [hahead] at h
    cases threads <;> exact hbest found h
  | cons d ahead ih =>
    rw [hahead] at h
    cases threads with
    | nil => exact hbest found h
    | cons t threads =>
      let c' : Cursor := ⟨d :: c.passed, ahead, c.offset + d.utf8Size⟩
      have hpasses : c.Passes [d] c' := ⟨hahead, rfl, by simp [c']⟩
      have hf : (advance (.at c') d (t :: threads) .none).Leading W c' :=
        advance_leading hpasses ht Frontier.leading_none
      rw [scan] at h
      refine ih (c := c') (fun found hfound => ?_)
        (fun u hu => hf.threads u (List.mem_reverse.1 hu)) h rfl
      rcases Option.or_eq_some_iff.1 hfound with hnew | ⟨-, hold⟩
      · exact hf.found hnew
      · exact hbest found hold

theorem isSome_scan {best : Option Found} {offset : Nat} {threads : List Thread}
    {text : List Char} (h : best.isSome) : (scan best offset threads text).isSome := by
  induction text generalizing best offset threads with
  | nil => cases threads <;> exact h
  | cons d text ih =>
    cases threads with
    | nil => exact h
    | cons t threads =>
      refine ih ?_
      obtain ⟨found, rfl⟩ := Option.isSome_iff_exists.1 h
      simp

theorem scan_thread {s : CharSet} {d : Char} (h : s.mem d) (best : Option Found) (offset : Nat)
    (rest : List Node) (σ : Slots) (text : List Char) :
    scan best offset [⟨s, rest, σ⟩] (d :: text) =
      let stop := offset + d.utf8Size
      let f := expandAll ⟨some d, text.head?, stop⟩ rest σ .none
      scan ((f.found? stop).or best) stop f.threads.reverse text := by
  simp [scan, advance, h, Frontier.none]

/-- What a run of a node finds is where one of its ways ends. -/
theorem Node.run_leads {n : Node} {slotCount : Nat} {c : Cursor} {found : Found}
    (h : n.run slotCount c.passed.head? c.offset c.ahead = some found) :
    ∃ c', n.Leads c (List.replicate slotCount none) c' found.slots ∧ found.stop = c'.offset := by
  let W : Cursor → Slots → Prop := fun c' σ => n.Leads c (List.replicate slotCount none) c' σ
  have hon : On W [n] c (List.replicate slotCount none) := by
    intro c' σ' hleads
    cases hleads with
    | cons first later =>
      cases later
      exact first
  have hf : (expandAll (.at c) [n] (List.replicate slotCount none) .none).Leading W c :=
    expandAll_leading [n] hon Frontier.leading_none
  refine scan_ends (W := W) (c := c) (fun found hfound => hf.found hfound) ?_ h
  exact fun t ht => hf.threads t (List.mem_reverse.1 ht)

end RuleLexer.Regex
