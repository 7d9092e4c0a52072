import RuleLexer.Proofs.Building
import RuleLexer.Proofs.Combining

/-! What has to follow a match. It stands in the last group of its pattern, which is numbered behind
those of the body and in front of its own. A match stops where that group begins, so of the groups
behind it nothing is left but where they are empty, and those of the body are shown as they are. -/
namespace RuleLexer
open RuleLexer.Text RuleLexer.Regex

namespace Regex

/-! The groups that a run leaves -/

section groups
variable {σ τ : Slots} {i s t first last : Nat}

theorem Found.group?_eq_some : Found.group? ⟨s, σ⟩ i = some (first, last) ↔
    σ[2 * i]? = some (some first) ∧ σ[2 * i + 1]? = some (some last) := by
  unfold Found.group?
  split
  · next hfirst hlast =>
    rw [hfirst, hlast]
    simp
  · next hnot =>
    constructor
    · exact nofun
    · rintro ⟨hfirst, hlast⟩
      exact absurd hlast (hnot _ _ hfirst)

theorem Found.group?_congr (hfirst : σ[2 * i]? = τ[2 * i]?)
    (hlast : σ[2 * i + 1]? = τ[2 * i + 1]?) :
    Found.group? ⟨s, σ⟩ i = Found.group? ⟨t, τ⟩ i := by
  rw [Found.group?, Found.group?]
  dsimp only
  rw [hfirst, hlast]

theorem Found.group?_of_le (h : σ.length ≤ 2 * i + 1) : Found.group? ⟨s, σ⟩ i = none := by
  rw [Option.eq_none_iff_forall_not_mem]
  rintro ⟨first, last⟩ hgroup
  have hlast := (Found.group?_eq_some.1 hgroup).2
  rw [List.getElem?_eq_none h] at hlast
  cases hlast

theorem Found.group?_replicate (k : Nat) : Found.group? ⟨s, List.replicate k none⟩ i = none := by
  rw [Option.eq_none_iff_forall_not_mem]
  rintro ⟨first, last⟩ hgroup
  have hfirst := (Found.group?_eq_some.1 hgroup).1
  simp [List.getElem?_replicate] at hfirst

end groups

theorem Ast.Leads.group {tree : Ast} {c c' : Cursor} {σ σ' : Slots} (h : tree.Leads c σ c' σ')
    (among : Nat → Prop) (hgroups : ∀ g ∈ tree.groups, among g.1) (s i : Nat) :
    Found.group? ⟨s, σ'⟩ i = Found.group? ⟨s, σ⟩ i ∨
      among i ∧ ∃ first last, Found.group? ⟨s, σ'⟩ i = some (first, last) ∧
        c.offset ≤ first ∧ first ≤ last ∧ last ≤ c'.offset := by
  by_cases hi : 2 * i + 1 < σ.length
  · rcases h.marks among hgroups hi with ⟨hfirst, hlast⟩ | ⟨hi, first, last, hfirst, hlast, hlies⟩
    · exact .inl (Found.group?_congr hfirst hlast)
    · exact .inr ⟨hi, first, last, Found.group?_eq_some.2 ⟨hfirst, hlast⟩, hlies⟩
  · have hlength : σ'.length = σ.length := Node.Leads.length_eq h
    rw [Found.group?_of_le (by omega), Found.group?_of_le (by omega)]
    exact .inl rfl

theorem Ast.Leads.own_group {tree : Ast} {k : Nat} {name : Option (List Char)} {c c' : Cursor}
    {σ σ' : Slots} (h : (Ast.group k name tree).Leads c σ c' σ')
    (hinner : ∀ g ∈ tree.groups, k < g.1) (hk : 2 * k + 1 < σ.length) (s : Nat) :
    Found.group? ⟨s, σ'⟩ k = some (c.offset, c'.offset) := by
  obtain ⟨σ₁, hleads, rfl⟩ := Ast.leads_group.1 h
  have hlength := Node.Leads.length_eq hleads
  rw [List.length_set] at hlength
  have hfirst : σ₁[2 * k]? = some (some c.offset) := by
    rcases hleads.marks (k < ·) hinner (i := k) (by rwa [List.length_set]) with
      ⟨hsame, -⟩ | ⟨hlt, -⟩
    · rw [hsame, List.getElem?_set_self (by omega)]
    · exact absurd hlt (Nat.lt_irrefl k)
  rw [Found.group?_eq_some, List.getElem?_set_ne (by omega), List.getElem?_set_self (by omega)]
  exact ⟨hfirst, rfl⟩

end Regex

namespace Pattern

/-- A pattern of a body and what has to follow it, as trees. -/
structure Joins (p : Pattern) (x y : Ast) (n : Nat) : Prop where
  ahead : p.ahead?.isSome
  node : p.regex.node = ((x.andThen (.group (n + 1) (some aheadName) y)).build 1).1
  groups : p.regex.groups = x.groups ++ (n + 1, some aheadName) :: y.groups
  count : p.groupCount = x.groups.length + y.groups.length
  before : ∀ g ∈ x.groups, g.1 ≤ n ∧ g.2 ≠ some aheadName
  after : ∀ g ∈ y.groups, n + 1 < g.1

namespace Joins
variable {p : Pattern} {x y : Ast} {n : Nat} (h : p.Joins x y n) {place : Cursor}
include h

theorem groupNamed : p.regex.groupNamed? aheadGroup = some (n + 1) := by
  have hbefore : x.groups.find? (fun g => g.2 == some aheadGroup.toList) = none :=
    List.find?_eq_none.2 fun g hg heq => (h.before g hg).2 (eq_of_beq heq)
  rw [Regex.groupNamed?, h.groups, List.find?_append, hbefore, Option.none_or,
    List.find?_cons_of_pos]
  · rfl
  · exact beq_self_eq_true _

theorem lt_slotCount : 2 * (n + 1) + 1 < p.regex.slotCount := by
  have hmem : n + 1 ∈ p.regex.groups.map Prod.fst := by simp [h.groups]
  have hle := (le_foldl_max (p.regex.groups.map Prod.fst) 0).2 _ hmem
  rw [Regex.slotCount]
  omega

/-- The pattern matches where its body leads to a place from which what has to follow leads on. -/
theorem isSome_matchAt : (p.matchAt place).isSome ↔
    ∃ stop behind, x.Way place stop ∧ y.Way stop behind := by
  rw [matchAt, Option.isSome_map, Regex.matchAt, h.node,
    Node.isSome_run_iff (Ast.numbered_build _ 1)]
  constructor
  · rintro ⟨behind, hway⟩
    obtain ⟨σ', hleads⟩ := hway []
    obtain ⟨stop, σ, hx, hgroup⟩ := Ast.leads_andThen.1 hleads
    obtain ⟨σ₁, hy, -⟩ := Ast.leads_group.1 hgroup
    exact ⟨stop, behind, hx.way, hy.way⟩
  · rintro ⟨stop, behind, hx, hy⟩
    refine ⟨behind, fun σ => ?_⟩
    obtain ⟨σ₁, hfirst⟩ := hx σ
    obtain ⟨σ₂, hsecond⟩ := hy (σ₁.set (2 * (n + 1)) (some stop.offset))
    exact ⟨_, Ast.leads_andThen.2 ⟨stop, σ₁, hfirst, Ast.leads_group.2 ⟨σ₂, hsecond, rfl⟩⟩⟩

end Joins

/-- How a run ends: the body has led to `stop`, and what has to follow has led on from there. -/
structure Ended (p : Pattern) (x y : Ast) (n : Nat) (place stop : Cursor) (σ : Slots)
    (found : Found) : Prop where
  body : x.Leads place (List.replicate p.regex.slotCount none) stop σ
  ahead : ∃ behind, y.Way stop behind
  /-- The groups up to `n` are those of the body, -/
  before : ∀ i ≤ n, found.group? i = Found.group? ⟨stop.offset, σ⟩ i
  /-- the next one begins where the body ends, -/
  own : ∃ last, found.group? (n + 1) = some (stop.offset, last) ∧ stop.offset ≤ last
  /-- and no other one begins earlier. -/
  after : ∀ i > n, ∀ first last, found.group? i = some (first, last) → stop.offset ≤ first

theorem Joins.exists_ended {p : Pattern} {x y : Ast} {n : Nat} (h : p.Joins x y n) {place : Cursor}
    {found : Found}
    (hfound : p.regex.matchAt place.passed.head? place.offset place.ahead = some found) :
    ∃ stop σ, Ended p x y n place stop σ found := by
  rw [Regex.matchAt, h.node] at hfound
  obtain ⟨behind, hleads, -⟩ := Node.run_leads hfound
  obtain ⟨stop, σ, hx, hgroup⟩ := Ast.leads_andThen.1 hleads
  obtain ⟨_, hy, -⟩ := Ast.leads_group.1 hgroup
  have hlength : σ.length = p.regex.slotCount := by
    rw [Node.Leads.length_eq hx, List.length_replicate]
  have hlater (i : Nat) := hgroup.group (n < ·) (List.forall_mem_cons.2
    ⟨Nat.lt_succ_self n, fun g hg => Nat.lt_of_succ_lt (h.after g hg)⟩) found.stop i
  have hown := hgroup.own_group h.after (hlength ▸ h.lt_slotCount) found.stop
  refine ⟨stop, σ, hx, ⟨behind, hy.way⟩, fun i hi => ?_, ⟨_, hown, Node.Leads.offset_le hy⟩,
    fun i hi first last hfirst => ?_⟩
  · rcases hlater i with hsame | ⟨hlt, -⟩
    · exact hsame
    · omega
  · rcases hlater i with hsame | ⟨-, first', last', heq, hle, -⟩
    · rcases hx.group (· ≤ n) (fun g hg => (h.before g hg).1) found.stop i with hnone | ⟨hle, -⟩
      · rw [hsame, hnone, Found.group?_replicate] at hfirst
        cases hfirst
      · omega
    · cases hfirst.symm.trans heq
      exact hle

/-- A match consumes the body and shows its groups. Of the `n` groups of the body those that it has
room for come first, with the spans that the run has left them; the groups behind them hold no
text. -/
structure Splits (p : Pattern) (x y : Ast) (n : Nat) (place stop : Cursor) (m : Match) : Prop where
  length : m.groups.length = p.groupCount
  starts : m.start = place.offset
  stops : m.stop = stop.offset
  ahead : ∃ behind, y.Way stop behind
  shown : ∃ found σ, p.regex.matchAt place.passed.head? place.offset place.ahead = some found ∧
    x.Leads place (List.replicate p.regex.slotCount none) stop σ ∧
    ∀ i < n, found.group? (i + 1) = Found.group? ⟨stop.offset, σ⟩ (i + 1) ∧
      (i < p.groupCount →
        m.groups[i]? = some ((found.group? (i + 1)).map fun g => ⟨g.1, g.2⟩))
  inside : ∀ i < n, ∀ span, m.groups[i]? = some (some span) →
    place.offset ≤ span.start ∧ span.start ≤ span.stop ∧ span.stop ≤ m.stop
  hidden : ∀ i ≥ n, ∀ span, m.groups[i]? = some (some span) → span.start = span.stop

theorem Joins.stopOf_eq {p : Pattern} {x y : Ast} {n : Nat} (h : p.Joins x y n)
    {place stop : Cursor} {σ : Slots} {found : Found} (hended : Ended p x y n place stop σ found) :
    p.stopOf found = stop.offset := by
  obtain ⟨source, hsource⟩ := Option.isSome_iff_exists.1 h.ahead
  obtain ⟨last, hown, -⟩ := hended.own
  simp [stopOf, hsource, h.groupNamed, hown]

theorem exists_group_of_shown {found : Found} {stop count i : Nat} {span : Span}
    (h : ((List.range count).map fun i => (found.group? (i + 1)).bind (clip stop))[i]? =
      some (some span)) : ∃ first last, found.group? (i + 1) = some (first, last) ∧
        first ≤ min last stop ∧ span = ⟨first, min last stop⟩ := by
  rw [List.getElem?_map] at h
  obtain ⟨j, hj, hspan⟩ := Option.map_eq_some_iff.1 h
  obtain rfl : j = i := by
    obtain ⟨hlt, heq⟩ := List.getElem?_eq_some_iff.1 hj
    rw [← heq, List.getElem_range]
  obtain ⟨⟨first, last⟩, hgroup, hclip⟩ := Option.bind_eq_some_iff.1 hspan
  rw [clip] at hclip
  split at hclip
  · next hle =>
    cases hclip
    exact ⟨first, last, hgroup, hle, rfl⟩
  · cases hclip

theorem Joins.exists_splits {p : Pattern} {x y : Ast} {n : Nat} (h : p.Joins x y n) {place : Cursor}
    {m : Match} (hm : p.matchAt place = some m) : ∃ stop, p.Splits x y n place stop m := by
  obtain ⟨found, hfound, rfl⟩ := Option.map_eq_some_iff.1 hm
  obtain ⟨stop, σ, hended⟩ := h.exists_ended hfound
  rw [h.stopOf_eq hended]
  have hlies {i first last : Nat} (hi : i < n)
      (hgroup : found.group? (i + 1) = some (first, last)) :
      place.offset ≤ first ∧ first ≤ last ∧ last ≤ stop.offset := by
    rw [hended.before _ hi] at hgroup
    rcases hended.body.group (· ≤ n) (fun g hg => (h.before g hg).1) stop.offset (i + 1) with
      hnone | ⟨-, first', last', heq, hle⟩
    · rw [hnone, Found.group?_replicate] at hgroup
      cases hgroup
    · cases hgroup.symm.trans heq
      exact hle
  refine ⟨stop, by simp, rfl, rfl, hended.ahead,
    ⟨found, σ, hfound, hended.body, fun i hi => ⟨hended.before _ hi, fun hcount => ?_⟩⟩,
    fun i hi span hspan => ?_, fun i hi span hspan => ?_⟩
  · simp only [List.getElem?_map, List.getElem?_range hcount, Option.map_some]
    cases hgroup : found.group? (i + 1) with
    | none => rfl
    | some group =>
      obtain ⟨-, horder, hstop⟩ := hlies hi hgroup
      simp only [Option.bind_some, Option.map_some, clip, Nat.min_eq_left hstop, if_pos horder]
  · obtain ⟨first, last, hgroup, hle, rfl⟩ := exists_group_of_shown hspan
    obtain ⟨hstart, -, -⟩ := hlies hi hgroup
    exact ⟨hstart, hle, Nat.min_le_right _ _⟩
  · obtain ⟨first, last, hgroup, hle, rfl⟩ := exists_group_of_shown hspan
    have hstart := hended.after (i + 1) (Nat.lt_succ_of_le hi) first last hgroup
    exact Nat.le_antisymm hle (Nat.le_trans (Nat.min_le_right _ _) hstart)

section compiled
variable {body ahead : String} {flags : PatternFlags} {p : Pattern}
  (hbody : Parser.isPlain body.toList) (hahead : Parser.isPlain ahead.toList)
  (hwell : WellFormed body) (hwell' : WellFormed ahead)
  (h : compile body (some ahead) flags = .ok p)
include hbody hahead hwell hwell' h

theorem exists_joins : ∃ b a, Parser.readFrom flags.read 0 body.toList = .ok b ∧
    Parser.readFrom flags.read (b.groups.length + 1) ahead.toList = .ok a ∧
    (∀ q, compile body none flags = .ok q → q.regex.node = (b.scope.simplify.build 1).1) ∧
    p.Joins b.scope.simplify a.simplify b.groups.length := by
  obtain ⟨b₀, hb₀⟩ := hwell
  obtain ⟨a₀, ha₀⟩ := hwell'
  obtain ⟨q, b, hends, -⟩ := exists_ends_read hbody hb₀ flags 0
  obtain ⟨q', a, hends', -⟩ := exists_ends_read hahead ha₀ flags (b.groups.length + 1)
  obtain ⟨tree, htree, rfl⟩ := eq_ofTree h
  rcases parse_body_ahead hends hends' with ⟨-, hparse⟩ | ⟨hclear, hparse | hparse⟩ <;>
    rw [hparse] at htree <;> cases htree
  refine ⟨b, a, hends.readFrom_eq, hends'.readFrom_eq, fun q hq => ?_, ?_⟩
  · obtain ⟨tree, htree, rfl⟩ := eq_ofTree hq
    rcases parse_body hends with hparse | hparse <;> rw [hparse] at htree <;> cases htree
    rfl
  · have hgroups : (Ast.seq (.scope b) (.group (b.groups.length + 1) (some aheadName)
        a)).simplify.groups = b.scope.simplify.groups ++
          (b.groups.length + 1, some aheadName) :: a.simplify.groups := by
      rw [Ast.simplify_seq_group, Ast.groups_andThen]
      rfl
    have hsubset : b.scope.simplify.groups ⊆ b.groups := Ast.groups_simplify_subset (.scope b)
    refine ⟨rfl, ?_, hgroups, ?_, fun g hg => ⟨?_, fun hname => ?_⟩, fun g hg => ?_⟩
    · rw [ofTree, Ast.simplify_seq_group]
    · rw [ofTree, hgroups]
      simp
    · have hle := (hends.number (hsubset hg)).2
      rwa [Nat.zero_add] at hle
    · exact hclear (.inl (List.mem_filterMap.2 ⟨g, hsubset hg, hname⟩))
    · exact (hends'.number (Ast.groups_simplify_subset _ hg)).1

/-- Where a body and what has to follow it are well formed and come to a pattern, that matches at a
place exactly where the body leads to another place and what has to follow leads on from there. A
match is what the body consumes. It has as many groups as the two keep: first those of the body,
with the spans that the run has left them and all within the match, then such as hold no text. -/
theorem matchAt_splits : ∃ b a, Parser.readFrom flags.read 0 body.toList = .ok b ∧
    Parser.readFrom flags.read (b.groups.length + 1) ahead.toList = .ok a ∧
    (∀ q, compile body none flags = .ok q → q.regex.node = (b.scope.simplify.build 1).1) ∧
    p.groupCount = b.scope.simplify.groups.length + a.simplify.groups.length ∧
    ∀ place, ((p.matchAt place).isSome ↔
        ∃ stop behind, b.scope.simplify.Way place stop ∧ a.simplify.Way stop behind) ∧
      ∀ m, p.matchAt place = some m →
        ∃ stop, p.Splits b.scope.simplify a.simplify b.groups.length place stop m := by
  obtain ⟨b, a, hb, ha, hq, hjoins⟩ := exists_joins hbody hahead hwell hwell' h
  exact ⟨b, a, hb, ha, hq, hjoins.count,
    fun place => ⟨hjoins.isSome_matchAt, fun m hm => hjoins.exists_splits hm⟩⟩

end compiled

/-- A body whose second group may take no part. -/
theorem matchAt_splits_optional : Parser.isPlain "(a)(b)?".toList ∧ Parser.isPlain "(c)".toList ∧
    WellFormed "(a)(b)?" ∧ WellFormed "(c)" ∧
      ∃ p, compile "(a)(b)?" (some "(c)") {} = .ok p ∧
        ∃ b a : Ast, p.groupCount = b.scope.simplify.groups.length + a.simplify.groups.length ∧
          ∀ place m, p.matchAt place = some m →
            ∃ stop, p.Splits b.scope.simplify a.simplify b.groups.length place stop m := by
  have hbody : Parser.isPlain "(a)(b)?".toList := by decide +kernel
  have hahead : Parser.isPlain "(c)".toList := by decide +kernel
  have hwell : WellFormed "(a)(b)?" := by decide +kernel
  have hwell' : WellFormed "(c)" := by decide +kernel
  have hmade : (compile "(a)(b)?" (some "(c)") {}).toOption.isSome := by decide +kernel
  refine ⟨hbody, hahead, hwell, hwell', ?_⟩
  cases h : compile "(a)(b)?" (some "(c)") {} with
  | error =>
    rw [h] at hmade
    cases hmade
  | ok p =>
    obtain ⟨b, a, -, -, -, hcount, hsplits⟩ := matchAt_splits hbody hahead hwell hwell' h
    exact ⟨p, rfl, b, a, hcount, fun place m => (hsplits place).2 m⟩

/-- A group that is repeated zero times keeps its number, but is not counted. So there is no room
for the last group of the body, which has captured a text. -/
theorem dropped_group_hides_last :
    (parse "(a){0}(b)".toList).toOption.map (·.groups.length) = some 2 ∧
      (compile "(a){0}(b)" (some "c") {}).toOption.map (fun p =>
        (p.groupCount, p.matchAt (.start "bc".toList),
          (p.regex.matchAt none 0 "bc".toList).bind (·.group? 2))) =
        some (1, some ⟨0, 1, [none]⟩, some (0, 1)) := by
  decide +kernel

end Pattern

end RuleLexer
