import RuleLexer.Proofs.Finding
import RuleLexer.Proofs.Survey

/-! Patterns where the next characters are known. What a way through a node leaves of them can be
evaluated, up to ways that go on beyond them; so it can be evaluated that a rule does not match
there, or that it does. Where the rules before one of a state do not match and it does, it wins. -/
namespace RuleLexer
open RuleLexer.Text RuleLexer.Regex

/-- What is left of the characters that are known, nothing behind them. -/
abbrev Known := Option (List Char)

namespace Known

def room : Known → Nat
  | none => 0
  | some word => word.length + 1

def Leaves (w w' : Known) (c c' : Cursor) : Prop :=
  ∀ word ∈ w', ∃ piece, w = some (piece ++ word) ∧ c.Passes piece c'

def Ahead (w : Known) (c : Cursor) : Prop := ∀ word ∈ w, word <+: c.ahead

variable {w w' w'' : Known} {c c' c'' : Cursor}

theorem Leaves.refl (w : Known) (c : Cursor) : w.Leaves w c c :=
  fun _ hword => ⟨[], hword, .refl c⟩

theorem Leaves.trans (h : w.Leaves w' c c') (h' : w'.Leaves w'' c' c'') : w.Leaves w'' c c'' := by
  intro word hword
  obtain ⟨more, hmore, hpasses'⟩ := h' word hword
  obtain ⟨piece, rfl, hpasses⟩ := h _ hmore
  exact ⟨piece ++ more, by rw [List.append_assoc], hpasses.trans hpasses'⟩

theorem Leaves.ahead (h : w.Leaves w' c c') (hw : w.Ahead c) : w'.Ahead c' := by
  intro word hword
  obtain ⟨piece, rfl, hpasses⟩ := h word hword
  have hprefix := hw _ rfl
  rwa [hpasses.ahead, List.prefix_append_right_inj] at hprefix

theorem Leaves.room_lt (h : w.Leaves w' c c') : w' = w ∨ w'.room < w.room := by
  cases w' with
  | none => cases w <;> simp [room]
  | some word =>
    obtain ⟨piece, rfl, -⟩ := h word rfl
    cases piece with
    | nil => exact .inl rfl
    | cons d piece => exact .inr (by simp [room])

end Known

namespace Regex.Node

def rounds (round : Known → List Known) : Nat → Known → List Known
  | 0, w => [w]
  | n + 1, w => w :: (round w).flatMap (rounds round n)

/-- What ways through a node leave of the characters that are known. -/
def left : Node → Known → List Known
  | empty, w | look _, w | mark _, w => [w]
  | set _, none | set _, some [] => [none]
  | set s, some (d :: word) => if s.mem d then [some word] else []
  | seq a b, w => (a.left w).flatMap b.left
  | alt _ a b, w => a.left w ++ b.left w
  | loop _ _ a, w => rounds a.left w.room w

theorem mem_rounds (round : Known → List Known) (n : Nat) (w : Known) : w ∈ rounds round n w := by
  cases n <;> simp [rounds]

theorem rounds_subset {round : Known → List Known} {m n : Nat} (h : m ≤ n) (w : Known) :
    rounds round m w ⊆ rounds round n w := by
  induction m generalizing n w with
  | zero => simp [rounds, mem_rounds]
  | succ m ih =>
    obtain ⟨n, rfl⟩ : ∃ k, n = k + 1 := ⟨n - 1, by omega⟩
    refine List.cons_subset_cons _ fun w' hw' => ?_
    obtain ⟨w₁, hw₁, hw'⟩ := List.mem_flatMap.1 hw'
    exact List.mem_flatMap.2 ⟨w₁, hw₁, ih (by omega) w₁ hw'⟩

/-- Every way leaves something of this. -/
theorem Leads.left {n : Node} {c c' : Cursor} {σ σ' : Slots} (h : n.Leads c σ c' σ') {w : Known}
    (hw : w.Ahead c) : ∃ w' ∈ n.left w, w.Leaves w' c c' := by
  induction h generalizing w with
  | empty c | look _ _ | mark _ c => exact ⟨w, List.mem_singleton_self w, .refl w _⟩
  | @set s d c c' mem passes =>
    cases w with
    | none => exact ⟨none, List.mem_singleton_self _, by simp [Known.Leaves]⟩
    | some word =>
      cases word with
      | nil => exact ⟨none, List.mem_singleton_self _, by simp [Known.Leaves]⟩
      | cons e word =>
        obtain ⟨rest, hahead⟩ := hw _ rfl
        rw [passes.ahead] at hahead
        obtain ⟨rfl, -⟩ : e = d ∧ word ++ rest = c'.ahead := List.cons.inj hahead
        refine ⟨some word, by simp [Node.left, mem], fun more hmore => ?_⟩
        cases hmore
        exact ⟨[e], rfl, passes⟩
  | preferred _ id b ih =>
    obtain ⟨w', hmem, hleaves⟩ := ih hw
    exact ⟨w', List.mem_append_left _ hmem, hleaves⟩
  | other _ id a ih =>
    obtain ⟨w', hmem, hleaves⟩ := ih hw
    exact ⟨w', List.mem_append_right _ hmem, hleaves⟩
  | seq _ _ ihfirst ihsecond =>
    obtain ⟨w', hmem, hleaves⟩ := ihfirst hw
    obtain ⟨w'', hmem', hleaves'⟩ := ihsecond (hleaves.ahead hw)
    exact ⟨w'', List.mem_flatMap.2 ⟨w', hmem, hmem'⟩, hleaves.trans hleaves'⟩
  | done id greedy a c => exact ⟨w, mem_rounds _ _ w, .refl w c⟩
  | @again id greedy a _ _ _ _ _ _ _ _ ihround ihlater =>
    obtain ⟨w', hmem, hleaves⟩ := ihround hw
    obtain ⟨w'', hmem', hleaves'⟩ := ihlater (hleaves.ahead hw)
    refine ⟨w'', ?_, hleaves.trans hleaves'⟩
    rcases hleaves.room_lt with rfl | hlt
    · exact hmem'
    · show w'' ∈ rounds a.left w.room w
      obtain ⟨k, hk⟩ : ∃ k, w.room = k + 1 := ⟨w.room - 1, by omega⟩
      rw [hk]
      exact List.mem_cons_of_mem _ (List.mem_flatMap.2
        ⟨w', hmem, rounds_subset (by omega) w' hmem'⟩)

def plain : Node → Bool
  | empty | set _ | mark _ => true
  | look _ => false
  | seq a b | alt _ a b => a.plain && b.plain
  | loop _ _ a => a.plain

def Crosses (n : Node) (piece : List Char) : Prop := ∀ c c', c.Passes piece c' → n.Way c c'

namespace Crosses
variable {a b : Node} {piece more : List Char}

theorem empty : Node.empty.Crosses [] := fun c c' hpasses σ => by
  rw [hpasses.eq_of_nil]
  exact ⟨σ, .empty c σ⟩

theorem mark (slot : Nat) : (Node.mark slot).Crosses [] := fun c c' hpasses σ => by
  rw [hpasses.eq_of_nil]
  exact ⟨_, .mark slot c σ⟩

theorem set {s : CharSet} {d : Char} (mem : s.mem d) : (Node.set s).Crosses [d] :=
  fun _ _ hpasses σ => ⟨σ, .set mem hpasses σ⟩

theorem seq (h : a.Crosses piece) (h' : b.Crosses more) : (Node.seq a b).Crosses (piece ++ more) := by
  intro c c' hpasses σ
  obtain ⟨c₁, hpiece, hmore⟩ := hpasses.split
  obtain ⟨σ', hleads⟩ := h c c₁ hpiece σ
  obtain ⟨σ'', hleads'⟩ := h' c₁ c' hmore σ'
  exact ⟨σ'', .seq hleads hleads'⟩

theorem preferred (h : a.Crosses piece) (id : Nat) (b : Node) : (Node.alt id a b).Crosses piece :=
  fun c c' hpasses σ => (h c c' hpasses σ).imp fun _ h => .preferred h id b

theorem other (h : b.Crosses piece) (id : Nat) (a : Node) : (Node.alt id a b).Crosses piece :=
  fun c c' hpasses σ => (h c c' hpasses σ).imp fun _ h => .other h id a

theorem done (id : Nat) (greedy : Bool) (a : Node) : (Node.loop id greedy a).Crosses [] :=
  fun c c' hpasses σ => by
    rw [hpasses.eq_of_nil]
    exact ⟨σ, .done id greedy a c σ⟩

theorem again {id : Nat} {greedy : Bool} (h : a.Crosses piece)
    (h' : (Node.loop id greedy a).Crosses more) :
    (Node.loop id greedy a).Crosses (piece ++ more) := by
  intro c c' hpasses σ
  obtain ⟨c₁, hpiece, hmore⟩ := hpasses.split
  obtain ⟨σ', hleads⟩ := h c c₁ hpiece σ
  obtain ⟨σ'', hleads'⟩ := h' c₁ c' hmore σ'
  exact ⟨σ'', .again hleads hleads'⟩

end Crosses

theorem exists_crosses_of_left {n : Node} (hplain : n.plain) {w : Known} {word : List Char}
    (h : some word ∈ n.left w) : ∃ piece, w = some (piece ++ word) ∧ n.Crosses piece := by
  induction n generalizing w word with
  | empty => exact ⟨[], (List.mem_singleton.1 h).symm, .empty⟩
  | mark slot => exact ⟨[], (List.mem_singleton.1 h).symm, .mark slot⟩
  | look l => cases hplain
  | set s =>
    rcases w with _ | _ | ⟨d, rest⟩
    · simp [Node.left] at h
    · simp [Node.left] at h
    · by_cases hmem : s.mem d = true
      · simp only [Node.left, hmem, if_true, List.mem_singleton, Option.some.injEq] at h
        subst h
        exact ⟨[d], rfl, .set hmem⟩
      · simp [Node.left, hmem] at h
  | seq a b iha ihb =>
    obtain ⟨ha, hb⟩ := Bool.and_eq_true_iff.1 hplain
    obtain ⟨w', hmem, hmem'⟩ := List.mem_flatMap.1 h
    obtain ⟨more, rfl, hsecond⟩ := ihb hb hmem'
    obtain ⟨piece, rfl, hfirst⟩ := iha ha hmem
    exact ⟨piece ++ more, by rw [List.append_assoc], hfirst.seq hsecond⟩
  | alt id a b iha ihb =>
    obtain ⟨ha, hb⟩ := Bool.and_eq_true_iff.1 hplain
    rcases List.mem_append.1 h with h | h
    · obtain ⟨piece, rfl, hway⟩ := iha ha h
      exact ⟨piece, rfl, hway.preferred id b⟩
    · obtain ⟨piece, rfl, hway⟩ := ihb hb h
      exact ⟨piece, rfl, hway.other id a⟩
  | loop id greedy a iha =>
    have hrounds : ∀ n w, some word ∈ rounds a.left n w →
        ∃ piece, w = some (piece ++ word) ∧ (loop id greedy a).Crosses piece := by
      intro n
      induction n with
      | zero => exact fun w h => ⟨[], (List.mem_singleton.1 h).symm, .done id greedy a⟩
      | succ n ih =>
        intro w h
        rcases List.mem_cons.1 h with h | h
        · exact ⟨[], h.symm, .done id greedy a⟩
        · obtain ⟨w', hmem, hmem'⟩ := List.mem_flatMap.1 h
          obtain ⟨more, rfl, hlater⟩ := ih w' hmem'
          obtain ⟨piece, rfl, hround⟩ := iha hplain hmem
          exact ⟨piece ++ more, by rw [List.append_assoc], hround.again hlater⟩
    exact hrounds _ _ h

end Regex.Node

theorem Pattern.ahead?_of_compile {source : String} {ahead? : Option String}
    {flags : PatternFlags} {p : Pattern} (h : compile source ahead? flags = .ok p) :
    p.ahead? = ahead? := by
  rw [compile] at h
  cases hregex : Regex.compile (fullSource source ahead? flags).toList with
  | error e =>
    rw [hregex] at h
    cases h
  | ok regex =>
    rw [hregex] at h
    cases h
    rfl

section rules
variable {flags : PatternFlags} {names : List String} {r : Rule Delegate} {c : CompiledRule}

namespace Rule

def misses (flags : PatternFlags) (words : List (List Char)) (r : Rule Delegate) : Bool :=
  r.shows (fun body after => words.all fun w =>
    ((body.left (some w)).flatMap after.left).isEmpty) flags

def takes (flags : PatternFlags) (words : List (List Char)) (r : Rule Delegate) : Bool :=
  match r.source with
  | .pattern source none => Pattern.shows (fun body _ => body.plain &&
      decide (Numbered (body.forks [])) && words.all fun w =>
        (body.left (some w)).any Option.isSome) flags source.toList none
  | _ => false

/-- Evaluates to whether a match of a rule consumes the first of two words and no more, where the
second comes behind it. -/
def spans (flags : PatternFlags) (words : List (List Char × List Char)) (r : Rule Delegate) :
    Bool :=
  r.shows (fun body _ => words.all fun w => body.left (some (w.1 ++ w.2)) == [some w.2]) flags

theorem Binds.matchAt_eq_none {words : List (List Char)} (h : r.Binds flags names c)
    (hmisses : r.misses flags words) {w : List Char} (hw : w ∈ words) {place : Cursor}
    (hahead : w <+: place.ahead) : c.matcher.matchAt place = none := by
  cases hfound : c.matcher.matchAt place with
  | none => rfl
  | some found =>
    obtain ⟨body, after, hcheck, _, _, _, _, _, _, hbody, hafter, -⟩ := h.leads hmisses hfound
    have hnone := List.isEmpty_iff.1 (List.all_eq_true.1 hcheck w hw)
    have hknown : Known.Ahead (some w) place := by
      rintro _ ⟨⟩
      exact hahead
    obtain ⟨w', hmem, hleaves⟩ := hbody.left hknown
    obtain ⟨w'', hmem', -⟩ := hafter.left (hleaves.ahead hknown)
    exact absurd (List.mem_flatMap.2 ⟨w', hmem, hmem'⟩) (hnone ▸ List.not_mem_nil)

theorem Binds.isSome_of_takes {words : List (List Char)} (h : r.Binds flags names c)
    (htakes : r.takes flags words) {w : List Char} (hw : w ∈ words) {place : Cursor}
    (hahead : w <+: place.ahead) : (c.matcher.matchAt place).isSome := by
  rw [takes] at htakes
  split at htakes
  · next source hsource =>
    obtain ⟨p, body, after, hcompile, hparts, hcheck⟩ := Pattern.exists_of_shows htakes
    simp only [Bool.and_eq_true, decide_eq_true_eq, List.all_eq_true] at hcheck
    obtain ⟨⟨hplain, hnumbered⟩, hwords⟩ := hcheck
    obtain ⟨left, hleft, hsome⟩ := List.any_eq_true.1 (hwords w hw)
    obtain ⟨word, rfl⟩ := Option.isSome_iff_exists.1 hsome
    obtain ⟨piece, heq, hway⟩ := Node.exists_crosses_of_left hplain hleft
    cases heq
    obtain ⟨rest, hrest⟩ := hahead
    have hpasses : place.Passes piece
        ⟨piece.reverse ++ place.passed, word ++ rest, place.offset + byteLength piece⟩ :=
      ⟨by rw [← hrest, List.append_assoc], rfl, rfl⟩
    have hnode : body = p.regex.node := by
      rw [Pattern.ahead?_of_compile hcompile] at hparts
      exact (Prod.mk.inj (Option.some.inj hparts)).1.symm
    have hreads := h.source
    rw [hsource] at hreads
    generalize c.matcher = matcher at hreads
    cases hreads with
    | pattern compiles =>
      cases compiles.symm.trans hcompile
      rw [Matcher.matchAt, Pattern.matchAt, Option.isSome_map, Regex.matchAt]
      exact (Node.isSome_run_iff (hnode ▸ hnumbered) _ place).2 ⟨_, hnode ▸ hway place _ hpasses⟩
  · cases htakes

theorem Binds.upTo_eq {words : List (List Char × List Char)} (h : r.Binds flags names c)
    (hspans : r.spans flags words) {w : List Char × List Char} (hw : w ∈ words) {place : Cursor}
    (hahead : w.1 ++ w.2 <+: place.ahead) {found : Match}
    (hfound : c.matcher.matchAt place = some found) : place.upTo found.stop = w.1 := by
  obtain ⟨body, after, hcheck, _, _, _, _, _, _, hbody, -, -, hstop⟩ := h.leads hspans hfound
  have hknown : Known.Ahead (some (w.1 ++ w.2)) place := by
    rintro _ ⟨⟩
    exact hahead
  obtain ⟨w', hmem, hleaves⟩ := hbody.left hknown
  rw [eq_of_beq (List.all_eq_true.1 hcheck w hw), List.mem_singleton] at hmem
  obtain ⟨piece, heq, hpasses⟩ := hleaves w.2 (hmem ▸ rfl)
  rw [hstop, Cursor.upTo_of_passes hpasses]
  exact (List.append_cancel_right (Option.some.inj heq)).symm

end Rule

/-- Evaluates to whether the rule at a place of a list is the first that matches where one of the
words comes next. -/
def Rule.wins (flags : PatternFlags) (words : List (List Char)) : Nat → List (Rule Delegate) → Bool
  | 0, r :: _ => r.takes flags words
  | i + 1, r :: rest => r.misses flags words && wins flags words i rest
  | _, [] => false

theorem Run.firstMatch_of_wins {words : List (List Char)} {i : Nat} {rules : List (Rule Delegate)}
    (hwins : Rule.wins flags words i rules) {compiled : List CompiledRule}
    (h : List.Forall₂ (Rule.Binds flags names) rules compiled) {w : List Char} (hw : w ∈ words)
    {place : Cursor} (hahead : w <+: place.ahead) :
    ∃ q c found, rules[i]? = some q ∧ q.Binds flags names c ∧
      firstMatch place compiled = some (c, found) := by
  induction i generalizing rules compiled with
  | zero =>
    cases h with
    | nil => cases hwins
    | @cons r c rules compiled hbinds =>
      obtain ⟨found, hfound⟩ := Option.isSome_iff_exists.1 (hbinds.isSome_of_takes hwins hw hahead)
      exact ⟨r, c, found, rfl, hbinds, by rw [firstMatch, hfound]⟩
  | succ i ih =>
    cases h with
    | nil => cases hwins
    | @cons r c rules compiled hbinds hrest =>
      obtain ⟨hmisses, hlater⟩ := Bool.and_eq_true_iff.1 hwins
      obtain ⟨q, c', found, hq, hbinds', hfirst⟩ := ih hlater hrest
      refine ⟨q, c', found, by rw [List.getElem?_cons_succ, hq], hbinds', ?_⟩
      rw [firstMatch, hbinds.matchAt_eq_none hmisses hw hahead, hfirst]

end rules

end RuleLexer
