import RuleLexer.Proofs.KnownStart

/-! What follows a lazy repetition. A repetition of any characters that prefers fewer of them lets
what follows it try at one place after another, and the first place at which that has a way decides:
the threads of the earlier places lead nowhere, and those of later ones come behind. -/
namespace RuleLexer
open RuleLexer.Text RuleLexer.Regex

namespace Regex

section expand
variable {id : Nat} {p : Place} {forks : List (List Node)}

theorem Node.expand_entered (hid : ∀ l ∈ forks, l.head?.bind Node.number? ≠ some id) (node : Node)
    {rest : List Node} {next : Slots → Frontier → Frontier} (hforks : forksOf (node :: rest) ⊆ forks)
    (hnext : ∀ σ f, (next σ f).entered.testBit id = f.entered.testBit id) (σ : Slots)
    (f : Frontier) : (node.expand p rest next σ f).entered.testBit id = f.entered.testBit id := by
  induction node generalizing rest next σ f with
  | empty => exact hnext σ f
  | set s =>
    show (f.addThread _).entered.testBit id = _
    rw [Frontier.addThread]
    split <;> rfl
  | look l =>
    rw [Node.expand]
    split
    · exact hnext σ f
    · rfl
  | mark slot => exact hnext _ f
  | seq a b iha ihb =>
    rw [forksOf_seq] at hforks
    exact iha hforks (fun σ f => ihb (forksOf_tail hforks) hnext σ f) σ f
  | alt k a b iha ihb =>
    obtain ⟨hfork, hfirst, hsecond⟩ := forksOf_alt hforks
    have hk : k ≠ id := fun h => hid _ hfork (congrArg some h)
    rw [Node.expand, Frontier.enter]
    split
    · rfl
    · rw [ihb hsecond hnext, iha hfirst hnext, Frontier.testBit_enter]
      simp [hk]
  | loop k greedy a iha =>
    obtain ⟨hfork, hround⟩ := forksOf_loop hforks
    have hk : k ≠ id := fun h => hid _ hfork (congrArg some h)
    have again (f : Frontier) : (a.expand p (loop k greedy a :: rest) (fun _ f => f) σ f).entered.testBit
        id = f.entered.testBit id := iha hround (fun _ _ => rfl) σ f
    rw [Node.expand, Frontier.enter]
    split
    · rfl
    · dsimp only
      split
      · rw [hnext, again, Frontier.testBit_enter]
        simp [hk]
      · rw [again, hnext, Frontier.testBit_enter]
        simp [hk]

theorem expandAll_entered (hid : ∀ l ∈ forks, l.head?.bind Node.number? ≠ some id)
    (nodes : List Node) (hforks : forksOf nodes ⊆ forks) (σ : Slots) (f : Frontier) :
    (expandAll p nodes σ f).entered.testBit id = f.entered.testBit id := by
  induction nodes generalizing σ f with
  | nil =>
    show (f.addMatch σ).entered.testBit id = _
    rw [Frontier.addMatch]
    split <;> rfl
  | cons n rest ih =>
    exact n.expand_entered hid hforks (fun σ f => ih (forksOf_tail hforks) σ f) σ f

theorem advance_entered (hid : ∀ l ∈ forks, l.head?.bind Node.number? ≠ some id) (d : Char)
    {threads : List Thread} (hrests : ∀ t ∈ threads, forksOf t.rest ⊆ forks) (f : Frontier) :
    (advance p d threads f).entered.testBit id = f.entered.testBit id := by
  induction threads generalizing f with
  | nil => rfl
  | cons t threads ih =>
    obtain ⟨ht, hrests⟩ := List.forall_mem_cons.1 hrests
    rw [advance]
    split
    · rfl
    · rw [ih hrests]
      split
      · exact expandAll_entered hid t.rest ht t.slots f
      · rfl

theorem Node.expand_suffix (node : Node) {rest : List Node} {next : Slots → Frontier → Frontier}
    (hnext : ∀ σ f, f.threads <:+ (next σ f).threads) (σ : Slots) (f : Frontier) :
    f.threads <:+ (node.expand p rest next σ f).threads := by
  induction node generalizing rest next σ f with
  | empty => exact hnext σ f
  | set s =>
    show f.threads <:+ (f.addThread _).threads
    rw [Frontier.addThread]
    split
    · exact List.suffix_refl _
    · exact List.suffix_cons _ _
  | look l =>
    rw [Node.expand]
    split
    · exact hnext σ f
    · exact List.suffix_refl _
  | mark slot => exact hnext _ f
  | seq a b iha ihb => exact iha (fun σ f => ihb hnext σ f) σ f
  | alt k a b iha ihb =>
    rw [Node.expand, Frontier.enter]
    split
    · exact List.suffix_refl _
    · exact (iha hnext σ { f with entered := f.entered ||| 1 <<< k }).trans (ihb hnext σ _)
  | loop k greedy a iha =>
    have again (f : Frontier) :
        f.threads <:+ (a.expand p (loop k greedy a :: rest) (fun _ f => f) σ f).threads :=
      iha (fun _ f => List.suffix_refl _) σ f
    rw [Node.expand, Frontier.enter]
    split
    · exact List.suffix_refl _
    · dsimp only
      split
      · exact (again { f with entered := f.entered ||| 1 <<< k }).trans (hnext σ _)
      · exact (hnext σ { f with entered := f.entered ||| 1 <<< k }).trans (again _)

theorem expandAll_suffix (nodes : List Node) (σ : Slots) (f : Frontier) :
    f.threads <:+ (expandAll p nodes σ f).threads := by
  induction nodes generalizing σ f with
  | nil =>
    show f.threads <:+ (f.addMatch σ).threads
    rw [Frontier.addMatch]
    split <;> exact List.suffix_refl _
  | cons n rest ih => exact n.expand_suffix (fun σ f => ih σ f) σ f

theorem advance_suffix (d : Char) (threads : List Thread) (f : Frontier) :
    f.threads <:+ (advance p d threads f).threads := by
  induction threads generalizing f with
  | nil => exact List.suffix_refl _
  | cons t threads ih =>
    rw [advance]
    split
    · exact List.suffix_refl _
    · refine List.IsSuffix.trans ?_ (ih _)
      split
      · exact expandAll_suffix t.rest t.slots f
      · exact List.suffix_refl _

end expand

theorem advance_of_matched {p : Place} {d : Char} {threads : List Thread} {f : Frontier}
    (h : f.matched.isSome) : advance p d threads f = f := by
  cases threads with
  | nil => rfl
  | cons t threads => rw [advance, if_pos h]

theorem advance_append (p : Place) (d : Char) (threads more : List Thread) (f : Frontier) :
    advance p d (threads ++ more) f = advance p d more (advance p d threads f) := by
  induction threads generalizing f with
  | nil => rfl
  | cons t threads ih =>
    rw [List.cons_append, advance, advance]
    split
    · next h => rw [advance_of_matched h]
    · exact ih _

theorem scan_passes {c c' : Cursor} {d : Char} (hpasses : c.Passes [d] c') {threads : List Thread}
    (hne : threads ≠ []) (best : Option Found) : scan best c.offset threads c.ahead =
      scan (((advance (.at c') d threads .none).found? c'.offset).or best) c'.offset
        (advance (.at c') d threads .none).threads.reverse c'.ahead := by
  obtain ⟨t, threads, rfl⟩ := List.exists_cons_of_ne_nil hne
  have hahead : c.ahead = d :: c'.ahead := hpasses.ahead
  have hoffset : c'.offset = c.offset + d.utf8Size := by simp [hpasses.offset]
  have hplace : (⟨some d, c'.ahead.head?, c'.offset⟩ : Place) = .at c' := by
    simp [Place.at, hpasses.passed]
  rw [hahead, scan, ← hoffset, hplace]

section first
variable {W : Cursor → Slots → Prop}

theorem scan_matched {c : Cursor} {f : Frontier} (hlead : f.Leading W c) (hmatched : f.matched.isSome)
    (best : Option Found) :
    ∃ found, scan ((f.found? c.offset).or best) c.offset f.threads.reverse c.ahead = some found ∧
      found.Ends W := by
  obtain ⟨first, hfirst⟩ : ∃ first, f.found? c.offset = some first :=
    Option.isSome_iff_exists.1 (by rw [Frontier.found?, Option.isSome_map]; exact hmatched)
  rw [hfirst, Option.some_or]
  have hsome : (scan (some first) c.offset f.threads.reverse c.ahead).isSome := isSome_scan rfl
  obtain ⟨last, hlast⟩ := Option.isSome_iff_exists.1 hsome
  refine ⟨last, hlast, scan_ends (fun found hfound => ?_)
    (fun u hu => hlead.threads u (List.mem_reverse.1 hu)) hlast⟩
  cases hfound
  exact hlead.found hfirst

variable {forks : List (List Node)} (hnumbered : Numbered forks)
include hnumbered

/-- Threads of which one is on a way win over those that come behind them. -/
theorem scan_first {c c' : Cursor} {threads : List Thread}
    (hrests : ∀ t ∈ threads, forksOf t.rest ⊆ forks)
    (hleads : ∀ t ∈ threads, ∀ d c', t.awaits.mem d → c.Passes [d] c' → On W t.rest c' t.slots)
    {nodes : List Node} (hway : (⟨0, threads, none⟩ : Frontier).Awaits c nodes c' [])
    (more : List Thread) (best : Option Found) :
    ∃ found, scan best c.offset (threads ++ more) c.ahead = some found ∧ found.Ends W := by
  induction hahead : c.ahead generalizing c threads more nodes best with
  | nil =>
    obtain ⟨t, -, d, c₁, -, hpasses, -⟩ := hway
    rw [hpasses.ahead] at hahead
    cases hahead
  | cons d ahead ih =>
    obtain ⟨t, ht, d', c₁, hmem, hpasses, hrest, hways⟩ := hway
    obtain ⟨rfl, hahead₁⟩ : d' = d ∧ c₁.ahead = ahead := by
      rw [hpasses.ahead] at hahead
      exact List.cons.inj hahead
    rw [List.append_nil] at hrest
    have hlead := advance_leading hpasses hleads Frontier.leading_none
    obtain ⟨-, hclosed, hholds⟩ := advance_reached (p := .at c₁) (d := d') hnumbered
      Frontier.closed_none hrests
    have hne : threads ++ more ≠ [] := List.append_ne_nil_of_left_ne_nil (List.ne_nil_of_mem ht) _
    rw [← hahead, scan_passes hpasses hne, advance_append]
    rcases hclosed.ways (hrest ▸ hways) (hrests t ht) (hholds t ht hmem) with hmatched | ⟨nodes, hway⟩
    · rw [advance_of_matched hmatched]
      exact scan_matched hlead hmatched best
    · obtain ⟨new, hnew⟩ := advance_suffix (p := .at c₁) d' more (advance (.at c₁) d' threads .none)
      rw [← hnew, List.reverse_append]
      obtain ⟨u, hu, hmore⟩ := hway
      rw [hahead₁]
      exact ih (fun u hu => hclosed.rests u (List.mem_reverse.1 hu))
        (fun u hu => hlead.threads u (List.mem_reverse.1 hu)) ⟨u, List.mem_reverse.2 hu, hmore⟩
        new.reverse _ hahead₁

end first

/-! The repetition -/

namespace Node

def fewest (id : Nat) (next : Node) : List Node := [.loop id false (.set .all), next]

end Node

def Thread.fewest (id : Nat) (next : Node) (σ : Slots) : Thread := ⟨.all, Node.fewest id next, σ⟩

theorem Frontier.Leading.mono {W W' : Cursor → Slots → Prop} {c : Cursor} {f : Frontier}
    (h : f.Leading W c) (hmono : ∀ c σ, W c σ → W' c σ) : f.Leading W' c :=
  ⟨fun t ht d c' hmem hpasses c'' σ hleads => hmono _ _ (h.threads t ht d c' hmem hpasses c'' σ hleads),
    fun σ hσ => hmono _ _ (h.matched σ hσ)⟩

theorem Frontier.Closed.enter {forks : List (List Node)} {p : Place} {id : Nat} {f : Frontier}
    (h : f.Closed forks p fun _ => False) (hid : ∀ l ∈ forks, l.head?.bind Node.number? ≠ some id) :
    ({ f with entered := f.entered ||| 1 <<< id } : Frontier).Closed forks p fun _ => False := by
  have hgrows := (h.begin id).1
  have hold {l : List Node} (hl : l ∈ forks) {j : Nat} (hj : l.head?.bind Node.number? = some j)
      (hentered : (f.entered ||| 1 <<< id).testBit j) : f.entered.testBit j := by
    rw [testBit_enter, Bool.or_eq_true, decide_eq_true_eq] at hentered
    exact hentered.resolve_right fun heq => hid l hl (heq ▸ hj)
  refine ⟨fun _ hj => hj.elim, fun j a b rest hk hj hnot => ?_, fun j greedy a rest hk hj hnot => ?_,
    h.rests⟩
  · exact (h.alts j a b rest hk (hold hk rfl hj) hnot).imp (·.mono hgrows) (·.mono hgrows)
  · exact (h.loops j greedy a rest hk (hold hk rfl hj) hnot).imp (·.mono hgrows) (·.mono hgrows)

section fewest
variable {id : Nat} {next : Node}

theorem expandAll_fewest {p : Place} {σ : Slots} {f : Frontier} (hid : f.entered.testBit id = false) :
    expandAll p (Node.fewest id next) σ f =
      (expandAll p [next] σ { f with entered := f.entered ||| 1 <<< id }).addThread
        (.fewest id next σ) := by
  rw [Node.fewest, expandAll, Node.expand, Frontier.enter, if_neg (by rw [hid]; exact Bool.false_ne_true)]
  rfl

variable (hnumbered : Numbered (next.forks []))
  (hid : ∀ l ∈ next.forks [], l.head?.bind Node.number? ≠ some id)
include hnumbered hid

/-- Where what follows has no way from the places between, but from the last one, it is found there,
whatever was tried before. -/
theorem scan_fewest {σ : Slots} {c stop c' : Cursor} {piece : List Char}
    (hpasses : c.Passes piece stop) (hpiece : piece ≠ [])
    (hnone : ∀ front back c₁, piece = front ++ back → front ≠ [] → back ≠ [] → c.Passes front c₁ →
      ∀ c', ¬next.Way c₁ c')
    (hway : next.Way stop c') {threads : List Thread}
    (hrests : ∀ t ∈ threads, forksOf t.rest ⊆ next.forks [])
    (hnowhere : ∀ t ∈ threads, ∀ d c', t.awaits.mem d → c.Passes [d] c' →
      On (fun _ _ => False) t.rest c' t.slots) :
    ∃ found, scan none c.offset (threads ++ [.fewest id next σ]) c.ahead = some found ∧
      found.Ends fun c' σ' => next.Leads stop σ c' σ' := by
  induction piece generalizing c threads with
  | nil => exact absurd rfl hpiece
  | cons d piece ih =>
    have hsplit : c.Passes ([d] ++ piece) stop := hpasses
    obtain ⟨c₁, hfirst, hlater⟩ := hsplit.split
    have hforks : forksOf [next] ⊆ next.forks [] := by simp [forksOf]
    have hlead := advance_leading hfirst hnowhere Frontier.leading_none
    obtain ⟨-, hclosed, -⟩ := advance_reached (p := .at c₁) (d := d) hnumbered
      Frontier.closed_none hrests
    have hentered := advance_entered (p := .at c₁) hid d hrests .none
    rw [scan_passes hfirst (by simp), advance_append]
    generalize advance (.at c₁) d threads .none = f at hlead hclosed hentered ⊢
    have hmatched : f.matched = none :=
      Option.eq_none_iff_forall_not_mem.2 fun σ hσ => hlead.matched σ hσ
    have hstep : advance (.at c₁) d [.fewest id next σ] f = (expandAll (.at c₁) [next] σ
        { f with entered := f.entered ||| 1 <<< id }).addThread (.fewest id next σ) := by
      have hany : (Thread.fewest id next σ).awaits.mem d = true := rfl
      rw [advance, if_neg (by simp [hmatched]), if_pos hany]
      exact expandAll_fewest (hentered.trans (Nat.zero_testBit id))
    have hreached := expandAll_reached hnumbered [next] hforks σ (hclosed.enter hid)
    have hon : On (fun c' σ' => next.Leads c₁ σ c' σ') [next] c₁ σ := by
      rintro c' σ' (_ | ⟨first, later⟩)
      cases later
      exact first
    have hleads : (expandAll (.at c₁) [next] σ { f with entered := f.entered ||| 1 <<< id }).Leading
        (fun c' σ' => next.Leads c₁ σ c' σ') c₁ :=
      expandAll_leading [next] hon ⟨(hlead.mono fun _ _ h => h.elim).threads,
        (hlead.mono fun _ _ h => h.elim).matched⟩
    rw [hstep]
    generalize expandAll (.at c₁) [next] σ { f with entered := f.entered ||| 1 <<< id } = g
      at hreached hleads ⊢
    by_cases hend : piece = []
    · subst hend
      cases hlater.eq_of_nil
      by_cases hfound : g.matched.isSome
      · rw [Frontier.addThread, if_pos hfound]
        exact scan_matched hleads hfound none
      · rcases hreached.closed.ways (.cons hway (.nil c')) hforks hreached.holds with
          hfound' | ⟨nodes, t, ht, hmore⟩
        · exact absurd hfound' hfound
        · rw [Frontier.addThread, if_neg hfound, List.reverse_cons]
          exact scan_first hnumbered
            (fun t ht => hreached.closed.rests t (List.mem_reverse.1 ht))
            (fun t ht => hleads.threads t (List.mem_reverse.1 ht))
            ⟨t, List.mem_reverse.2 ht, hmore⟩ _ _
    · have hnoway := hnone [d] piece c₁ rfl (List.cons_ne_nil _ _) hend hfirst
      have hleads : g.Leading (fun _ _ => False) c₁ :=
        hleads.mono fun c' σ' h => hnoway c' h.way
      have hunmatched : g.matched = none :=
        Option.eq_none_iff_forall_not_mem.2 fun σ hσ => hleads.matched σ hσ
      rw [Frontier.addThread, if_neg (by simp [hunmatched]), List.reverse_cons]
      simp only [Frontier.found?, hunmatched, Option.map_none, Option.none_or]
      refine ih hlater hend (fun front back c₂ hsplit hfront hback hpasses => ?_)
        (fun t ht => hreached.closed.rests t (List.mem_reverse.1 ht))
        (fun t ht => hleads.threads t (List.mem_reverse.1 ht))
      exact hnone (d :: front) back c₂ (by rw [hsplit, List.cons_append])
        (List.cons_ne_nil _ _) hback (hfirst.trans hpasses)

end fewest

/-! Ways elsewhere -/

namespace Node

/-- The same but for the numbers of choices and loops. -/
def alike : Node → Node → Bool
  | empty, empty => true
  | set s, set t => s == t
  | look l, look m => l == m
  | mark j, mark k => j == k
  | seq a b, seq c d | alt _ a b, alt _ c d => a.alike c && b.alike d
  | loop _ _ a, loop _ _ b => a.alike b
  | _, _ => false

theorem Leads.of_alike {n m : Node} {c c' : Cursor} {σ σ' : Slots} (h : n.Leads c σ c' σ')
    (halike : n.alike m) : m.Leads c σ c' σ' := by
  induction h generalizing m with
  | empty c σ =>
    cases m <;> try cases halike
    exact .empty c σ
  | set mem passes σ =>
    cases m <;> try cases halike
    exact .set (eq_of_beq halike ▸ mem) passes σ
  | look holds σ =>
    cases m <;> try cases halike
    exact .look (eq_of_beq halike ▸ holds) σ
  | mark slot c σ =>
    cases m <;> try cases halike
    exact eq_of_beq halike ▸ .mark slot c σ
  | seq _ _ ihfirst ihsecond =>
    cases m <;> try cases halike
    obtain ⟨hfirst, hsecond⟩ := Bool.and_eq_true_iff.1 halike
    exact .seq (ihfirst hfirst) (ihsecond hsecond)
  | preferred _ _ _ ih =>
    cases m <;> try cases halike
    exact .preferred (ih (Bool.and_eq_true_iff.1 halike).1) _ _
  | other _ _ _ ih =>
    cases m <;> try cases halike
    exact .other (ih (Bool.and_eq_true_iff.1 halike).2) _ _
  | done id greedy a c σ =>
    cases m <;> try cases halike
    exact .done _ _ _ c σ
  | again _ _ ihround ihlater =>
    cases m <;> try cases halike
    exact .again (ihround halike) (ihlater halike)

theorem Leads.crosses {n : Node} {c c' : Cursor} {σ σ' : Slots} (h : n.Leads c σ c' σ')
    (hplain : n.plain) : ∃ piece, c.Passes piece c' ∧ n.Crosses piece := by
  induction h with
  | empty c => exact ⟨[], .refl c, .empty⟩
  | set mem passes => exact ⟨_, passes, .set mem⟩
  | look => cases hplain
  | mark slot c => exact ⟨[], .refl c, .mark slot⟩
  | seq _ _ ihfirst ihsecond =>
    obtain ⟨hfirst, hsecond⟩ := Bool.and_eq_true_iff.1 hplain
    obtain ⟨piece, hpiece, hcrosses⟩ := ihfirst hfirst
    obtain ⟨more, hmore, hcrossesMore⟩ := ihsecond hsecond
    exact ⟨piece ++ more, hpiece.trans hmore, hcrosses.seq hcrossesMore⟩
  | preferred _ id b ih =>
    obtain ⟨piece, hpiece, hcrosses⟩ := ih (Bool.and_eq_true_iff.1 hplain).1
    exact ⟨piece, hpiece, hcrosses.preferred id b⟩
  | other _ id a ih =>
    obtain ⟨piece, hpiece, hcrosses⟩ := ih (Bool.and_eq_true_iff.1 hplain).2
    exact ⟨piece, hpiece, hcrosses.other id a⟩
  | done id greedy a c => exact ⟨[], .refl c, .done id greedy a⟩
  | again _ _ ihround ihlater =>
    obtain ⟨piece, hpiece, hcrosses⟩ := ihround hplain
    obtain ⟨more, hmore, hcrossesMore⟩ := ihlater hplain
    exact ⟨piece ++ more, hpiece.trans hmore, hcrosses.again hcrossesMore⟩

theorem crosses_any (id : Nat) (greedy : Bool) (piece : List Char) :
    (loop id greedy (.set .all)).Crosses piece := by
  induction piece with
  | nil => exact .done id greedy _
  | cons d piece ih => exact Crosses.again (.set rfl) ih

end Node

theorem isMatch_of_crosses {r : Regex} (hnumbered : Numbered (r.anywhere.forks []))
    {front piece back : List Char}
    (hcrosses : r.node.Crosses piece) : r.isMatch (front ++ (piece ++ back)) := by
  let c : Cursor := .start (front ++ (piece ++ back))
  let c₁ : Cursor := ⟨front.reverse ++ [], piece ++ back, 0 + byteLength front⟩
  let c₂ : Cursor := ⟨piece.reverse ++ c₁.passed, back, c₁.offset + byteLength piece⟩
  have hfront : c.Passes front c₁ := ⟨rfl, rfl, rfl⟩
  have hpiece : c₁.Passes piece c₂ := ⟨rfl, rfl, rfl⟩
  refine (Node.isSome_run_iff hnumbered r.slotCount c).2 ⟨c₂, fun σ => ?_⟩
  obtain ⟨σ₁, hskips⟩ := Node.crosses_any 0 false front c c₁ hfront σ
  obtain ⟨σ₂, hleads⟩ := hcrosses c₁ c₂ hpiece (σ₁.set 0 (some c₁.offset))
  exact ⟨_, .seq hskips (.seq (.mark 0 c₁ σ₁) (.seq hleads (.mark 1 c₂ σ₂)))⟩

/-! Patterns -/

/-- A regular expression that takes any characters, as few as possible, in front of its group for
what has to follow. -/
structure TakesFewest (r : Regex) (id i : Nat) (next : Node) : Prop where
  node : r.node = .seq (.seq (.set .all) (.loop id false (.set .all)))
    (.seq (.mark (2 * i)) (.seq next (.mark (2 * i + 1))))
  group : r.groupNamed? Pattern.aheadGroup = some i
  slots : 2 * i + 1 < r.slotCount
  unmarked : next.marks (2 * i) = false
  numbered : Numbered (next.forks [.mark (2 * i + 1)])
  other : ∀ l ∈ next.forks [.mark (2 * i + 1)], l.head?.bind Node.number? ≠ some id

instance (r : Regex) (id i : Nat) (next : Node) : Decidable (TakesFewest r id i next) :=
  decidable_of_iff (r.node = .seq (.seq (.set .all) (.loop id false (.set .all)))
      (.seq (.mark (2 * i)) (.seq next (.mark (2 * i + 1)))) ∧
    r.groupNamed? Pattern.aheadGroup = some i ∧ 2 * i + 1 < r.slotCount ∧
    next.marks (2 * i) = false ∧ Numbered (next.forks [.mark (2 * i + 1)]) ∧
    ∀ l ∈ next.forks [.mark (2 * i + 1)], l.head?.bind Node.number? ≠ some id)
    ⟨fun ⟨h₁, h₂, h₃, h₄, h₅, h₆⟩ => ⟨h₁, h₂, h₃, h₄, h₅, h₆⟩,
      fun ⟨h₁, h₂, h₃, h₄, h₅, h₆⟩ => ⟨h₁, h₂, h₃, h₄, h₅, h₆⟩⟩

end Regex

theorem Regex.Node.way_group {j k : Nat} {n : Node} {c c' : Cursor} :
    (Node.seq (.mark j) (.seq n (.mark k))).Way c c' ↔ n.Way c c' := by
  constructor <;> intro hway σ
  · obtain ⟨_, hleads⟩ := hway σ
    cases hleads with
    | seq first second =>
      cases first
      cases second with
      | seq hn hmark =>
        cases hmark
        exact hn.slots σ
  · obtain ⟨σ', hn⟩ := hway (σ.set j (some c.offset))
    exact ⟨_, .seq (.mark j c σ) (.seq hn (.mark k c' σ'))⟩

theorem Pattern.matchAt_fewest {p : Pattern} {id i : Nat} {next : Node} (hahead : p.ahead?.isSome)
    (h : p.regex.TakesFewest id i next) {place stop c' : Cursor} {piece : List Char}
    (hpasses : place.Passes piece stop) (hpiece : piece ≠ [])
    (hnone : ∀ front back c, piece = front ++ back → front ≠ [] → back ≠ [] →
      place.Passes front c → ∀ c', ¬next.Way c c')
    (hway : next.Way stop c') :
    ∃ m, p.matchAt place = some m ∧ m.start = place.offset ∧ m.stop = stop.offset := by
  let group : Node := .seq (.mark (2 * i)) (.seq next (.mark (2 * i + 1)))
  let σ : Slots := List.replicate p.regex.slotCount none
  have hforks : group.forks [] = next.forks [.mark (2 * i + 1)] := by simp [group, Node.forks]
  obtain ⟨found, hfound, c₁, hleads, -⟩ : ∃ found,
      scan none place.offset ([] ++ [.fewest id group σ]) place.ahead = some found ∧
        found.Ends fun c' σ' => group.Leads stop σ c' σ' :=
    scan_fewest (hforks ▸ h.numbered) (hforks ▸ h.other) hpasses hpiece
      (fun front back c hsplit hfront hback hc c' hway =>
        hnone front back c hsplit hfront hback hc c' (Node.way_group.1 hway))
      (Node.way_group.2 hway) (by simp) (by simp)
  have hrun : p.regex.matchAt place.passed.head? place.offset place.ahead = some found := by
    rw [Regex.matchAt, h.node]
    exact hfound
  have hcut : group.cut? (2 * i) = some (.empty, next) := by simp [group, Node.cut?]
  obtain ⟨c₂, _, _, _, hempty, -, hfirst, hlast⟩ :=
    hleads.cut hcut h.unmarked (by rw [List.length_replicate]; exact h.slots)
  cases hempty
  obtain ⟨source, hsource⟩ := Option.isSome_iff_exists.1 hahead
  refine ⟨_, by rw [Pattern.matchAt, hrun]; rfl, rfl, ?_⟩
  simp [stopOf, hsource, h.group, Found.group?, hfirst, hlast]

end RuleLexer
