import Mathlib.Data.List.Chain
import RuleLexer.Proofs.Nested

/-! Matches by groups. The groups are gone through in order, and one counts that holds text and
starts where the last one that counted ends, or behind; what lies before, between and behind those
that count is in gaps, as long as they can be, so that all of the match is in one part or
another. -/
namespace RuleLexer
open RuleLexer.Text RuleLexer.Coverage

def Piece.span (p : Piece) : Span := ⟨p.offset, p.offset + byteLength p.text⟩

/-- A part of a match by groups: a group, with its place among the emissions, or a gap. -/
structure Part where
  piece : Piece
  group? : Option Nat

namespace Part

def gap (offset : Nat) (text : List Char) : List Part :=
  if text.isEmpty then [] else [⟨⟨offset, text, .token .text⟩, none⟩]

def groups (parts : List Part) : List Nat := parts.filterMap Part.group?

/-- Where the last group before the `i`-th ends, `start` where there is none. -/
def stopBefore (start : Nat) (parts : List Part) (i : Nat) : Nat :=
  ((parts.filter fun p => p.group?.any (· < i)).getLast?.map (·.piece.span.stop)).getD start

variable {offset : Nat} {text : List Char} {parts : List Part}

theorem mem_gap {p : Part} (h : p ∈ gap offset text) :
    text ≠ [] ∧ p = ⟨⟨offset, text, .token .text⟩, none⟩ := by
  rw [gap] at h
  split at h
  · cases h
  · next hsome => exact ⟨by simpa using hsome, List.mem_singleton.1 h⟩

theorem groups_gap_append (offset : Nat) (text : List Char) (parts : List Part) :
    groups (gap offset text ++ parts) = groups parts := by
  rw [gap]
  split <;> rfl

theorem stopBefore_gap_append (start i offset : Nat) (text : List Char) (parts : List Part) :
    stopBefore start (gap offset text ++ parts) i = stopBefore start parts i := by
  rw [gap]
  split <;> rfl

theorem mem_groups {i : Nat} : i ∈ groups parts ↔ ∃ p ∈ parts, p.group? = some i :=
  List.mem_filterMap

theorem stopBefore_of_le {i : Nat} (h : ∀ j ∈ groups parts, i ≤ j) (start : Nat) :
    stopBefore start parts i = start := by
  have hnone : (parts.filter fun p => p.group?.any (· < i)) = [] := by
    refine List.filter_eq_nil_iff.2 fun p hp => ?_
    cases hgroup : p.group? with
    | none => simp
    | some j =>
      have := h j (mem_groups.2 ⟨p, hp, hgroup⟩)
      simp [this]
  rw [stopBefore, hnone]
  rfl

theorem stopBefore_group_cons {piece : Piece} {i j : Nat} (h : i < j) (start : Nat)
    (parts : List Part) : stopBefore start (⟨piece, some i⟩ :: parts) j =
      stopBefore piece.span.stop parts j := by
  rw [stopBefore, List.filter_cons_of_pos (by simpa using h), List.getLast?_cons, stopBefore]
  cases (parts.filter fun p => p.group?.any (· < j)).getLast? <;> rfl

end Part

/-- How the groups of a match from the `i`-th on are gone through from a place to the end of the
match, and the parts that come of it. -/
inductive Match.Cuts (found : Match) (stop : Cursor) :
    (i : Nat) → Cursor → List (Emission Target) → List Part → Prop
  | done {i : Nat} {place : Cursor} {text : List Char} (rest : place.Passes text stop) :
      Cuts found stop i place [] (Part.gap place.offset text)
  | passesOver {i : Nat} {place : Cursor} {e : Emission Target} {emissions : List (Emission Target)}
      {parts : List Part}
      (skipped : ∀ span, found.group? (i + 1) = some span →
        ¬(span.start < span.stop ∧ place.offset ≤ span.start))
      (later : Cuts found stop (i + 1) place emissions parts) :
      Cuts found stop i place (e :: emissions) parts
  | takes {i : Nat} {place begun behind : Cursor} {front body : List Char} {e : Emission Target}
      {emissions : List (Emission Target)} {parts : List Part}
      (group : found.group? (i + 1) = some ⟨begun.offset, behind.offset⟩)
      (before : place.Passes front begun) (within : begun.Passes body behind) (nonempty : body ≠ [])
      (later : Cuts found stop (i + 1) behind emissions parts) :
      Cuts found stop i place (e :: emissions)
        (Part.gap place.offset front ++ ⟨⟨begun.offset, body, e⟩, some i⟩ :: parts)

namespace Match.Cuts
variable {found : Match} {stop place : Cursor} {i : Nat} {emissions : List (Emission Target)}
  {parts : List Part}

theorem tiles_gap {next : Cursor} {text : List Char} {pieces : List Piece}
    (h : place.Passes text next) (later : Tiles next pieces stop) :
    Tiles place ((Part.gap place.offset text).map Part.piece ++ pieces) stop := by
  rw [Part.gap]
  split
  · next hnone =>
    rw [List.isEmpty_iff.1 hnone] at h
    rwa [← h.eq_of_nil]
  · exact .cons rfl h later

theorem tiles (h : found.Cuts stop i place emissions parts) :
    Tiles place (parts.map Part.piece) stop := by
  induction h with
  | done rest => simpa using tiles_gap rest (.nil stop)
  | passesOver _ _ ih => exact ih
  | takes _ before within _ _ ih =>
    rw [List.map_append]
    exact tiles_gap before (.cons rfl within ih)

theorem nonempty (h : found.Cuts stop i place emissions parts) :
    ∀ p ∈ parts, p.piece.text ≠ [] := by
  induction h with
  | done =>
    intro p hp
    obtain ⟨hsome, rfl⟩ := Part.mem_gap hp
    exact hsome
  | passesOver _ _ ih => exact ih
  | takes _ _ _ hbody _ ih =>
    intro p hp
    rcases List.mem_append.1 hp with hp | hp
    · obtain ⟨hsome, rfl⟩ := Part.mem_gap hp
      exact hsome
    · rcases List.mem_cons.1 hp with rfl | hp
      · exact hbody
      · exact ih p hp

theorem plain (h : found.Cuts stop i place emissions parts) :
    ∀ p ∈ parts, p.group? = none → p.piece.fate = .token .text := by
  induction h with
  | done =>
    intro p hp _
    rw [(Part.mem_gap hp).2]
  | passesOver _ _ ih => exact ih
  | takes _ _ _ _ _ ih =>
    intro p hp hnone
    rcases List.mem_append.1 hp with hp | hp
    · rw [(Part.mem_gap hp).2]
    · rcases List.mem_cons.1 hp with rfl | hp
      · cases hnone
      · exact ih p hp hnone

theorem separated (h : found.Cuts stop i place emissions parts) :
    parts.IsChain fun p q => p.group?.isSome ∨ q.group?.isSome := by
  have hgap : ∀ offset text, (Part.gap offset text).IsChain fun p q =>
      p.group?.isSome ∨ q.group?.isSome := by
    intro offset text
    rw [Part.gap]
    split
    · exact .nil
    · exact .singleton _
  induction h with
  | done => exact hgap _ _
  | passesOver _ _ ih => exact ih
  | takes _ _ _ _ _ ih =>
    refine List.isChain_append.2 ⟨hgap _ _, List.isChain_cons.2 ⟨?_, ih⟩, ?_⟩
    · exact fun _ _ => .inl rfl
    · intro p _ q hq
      cases Option.mem_some_iff.1 hq
      exact .inr rfl

theorem captured (h : found.Cuts stop i place emissions parts) {p : Part} (hp : p ∈ parts) {j : Nat}
    (hgroup : p.group? = some j) : ∃ k, j = i + k ∧ emissions[k]? = some p.piece.fate ∧
      found.group? (j + 1) = some p.piece.span := by
  induction h with
  | done =>
    rw [(Part.mem_gap hp).2] at hgroup
    cases hgroup
  | passesOver _ _ ih =>
    obtain ⟨k, rfl, hfate, hspan⟩ := ih hp
    exact ⟨k + 1, by omega, hfate, hspan⟩
  | takes hcaptured _ hwithin _ _ ih =>
    rcases List.mem_append.1 hp with hp | hp
    · rw [(Part.mem_gap hp).2] at hgroup
      cases hgroup
    · rcases List.mem_cons.1 hp with rfl | hp
      · cases hgroup
        rw [hwithin.offset] at hcaptured
        exact ⟨0, rfl, rfl, hcaptured⟩
      · obtain ⟨k, rfl, hfate, hspan⟩ := ih hp
        exact ⟨k + 1, by omega, hfate, hspan⟩

theorem le_of_mem_groups (h : found.Cuts stop i place emissions parts) :
    ∀ j ∈ Part.groups parts, i ≤ j := by
  intro j hj
  obtain ⟨p, hp, hgroup⟩ := Part.mem_groups.1 hj
  obtain ⟨k, rfl, -⟩ := h.captured hp hgroup
  exact Nat.le_add_right i k

theorem groups_takes (piece : Piece) (i offset : Nat) (text : List Char) (parts : List Part) :
    Part.groups (Part.gap offset text ++ ⟨piece, some i⟩ :: parts) = i :: Part.groups parts := by
  rw [Part.groups_gap_append]
  rfl

theorem ascending (h : found.Cuts stop i place emissions parts) :
    (Part.groups parts).Pairwise (· < ·) := by
  induction h with
  | done =>
    rw [← List.append_nil (Part.gap _ _), Part.groups_gap_append]
    exact .nil
  | passesOver _ _ ih => exact ih
  | takes _ _ _ _ later ih =>
    rw [groups_takes]
    exact List.pairwise_cons.2 ⟨later.le_of_mem_groups, ih⟩

theorem mem_groups_iff (h : found.Cuts stop i place emissions parts) {k : Nat}
    (hk : k < emissions.length) : i + k ∈ Part.groups parts ↔
      ∃ span, found.group? (i + k + 1) = some span ∧ span.start < span.stop ∧
        Part.stopBefore place.offset parts (i + k) ≤ span.start := by
  induction h generalizing k with
  | done => cases hk
  | @passesOver i place _ emissions parts skipped later ih =>
    cases k with
    | zero =>
      have hlater : ∀ j ∈ Part.groups parts, i ≤ j :=
        fun j hj => Nat.le_of_succ_le (later.le_of_mem_groups j hj)
      refine iff_of_false (fun hmem => ?_) ?_
      · exact absurd (later.le_of_mem_groups _ hmem) (Nat.not_succ_le_self i)
      · rintro ⟨span, hspan, hsome, hbehind⟩
        rw [Nat.add_zero, Part.stopBefore_of_le hlater] at hbehind
        exact skipped span hspan ⟨hsome, hbehind⟩
    | succ k =>
      have hnext := ih (k := k) (Nat.lt_of_succ_lt_succ hk)
      rwa [Nat.add_right_comm, Nat.add_assoc] at hnext
  | @takes i place begun behind front body e emissions parts group before within nonempty later
      ih =>
    have hstop : (⟨begun.offset, body, e⟩ : Piece).span.stop = behind.offset := within.offset.symm
    rw [groups_takes, Part.stopBefore_gap_append]
    cases k with
    | zero =>
      have hall : ∀ j ∈ Part.groups (⟨⟨begun.offset, body, e⟩, some i⟩ :: parts), i ≤ j := by
        intro j hj
        rcases List.mem_cons.1 hj with rfl | hj
        · exact Nat.le_refl _
        · exact Nat.le_of_succ_le (later.le_of_mem_groups j hj)
      refine iff_of_true List.mem_cons_self ⟨_, group, within.offset_lt nonempty, ?_⟩
      rw [Nat.add_zero, Part.stopBefore_of_le hall, before.offset]
      exact Nat.le_add_right _ _
    | succ k =>
      have hnext := ih (k := k) (Nat.lt_of_succ_lt_succ hk)
      rw [Nat.add_right_comm, Nat.add_assoc] at hnext
      rw [Part.stopBefore_group_cons (by omega), hstop, List.mem_cons, or_iff_right (by omega),
        hnext]

end Match.Cuts

namespace Run
variable (runner? : Option Runner) (r : Run)

theorem putAll_gap (offset : Nat) (text : List Char) :
    r.putAll runner? ((Part.gap offset text).map Part.piece) = r.emit offset .text text := by
  rw [Part.gap]
  split
  · next hnone => rw [emit, if_pos hnone]; rfl
  · rfl

theorem putAll_append (front back : List Piece) :
    r.putAll runner? (front ++ back) = (r.putAll runner? front).putAll runner? back :=
  List.foldl_append

theorem putAll_takes (offset : Nat) (text : List Char) (p : Part) (parts : List Part) :
    r.putAll runner? ((Part.gap offset text ++ p :: parts).map Part.piece) =
      ((r.emit offset .text text).put runner? p.piece).putAll runner? (parts.map Part.piece) := by
  rw [List.map_append, putAll_append, putAll_gap]
  rfl

end Run

theorem Match.Fits.exists_cuts {found : Match} {origin place : Cursor} {front : List Char}
    (h : found.Fits origin) (runner? : Option Runner) (i : Nat) (emissions : List (Emission Target))
    (hplace : origin.Passes front place) (hle : place.offset ≤ found.stop) :
    ∃ parts, found.Cuts (origin.seek found.stop) i place emissions parts ∧
      ∀ r : Run, r.emitGroups runner? found (i + 1) place emissions =
        r.putAll runner? (parts.map Part.piece) := by
  induction emissions generalizing i place front with
  | nil =>
    have hstop := hplace.boundary_behind h.stop hle
    have hrest : place.Passes (place.upTo found.stop) (origin.seek found.stop) := by
      rw [← hplace.seek_eq hstop]
      exact (Cursor.passes_boundary hstop).1
    exact ⟨_, .done hrest, fun r => (r.putAll_gap runner? _ _).symm⟩
  | cons e rest ih =>
    by_cases hcounts : ∃ span, found.group? (i + 1) = some span ∧ span.start < span.stop ∧
        place.offset ≤ span.start
    · obtain ⟨span, hgroup, hsome, hbehind⟩ := hcounts
      obtain ⟨hstart, hstop, -, hinside⟩ := h.group hgroup
      obtain ⟨hgap, hbegun⟩ := Cursor.passes_boundary (hplace.boundary_behind hstart hbehind)
      obtain ⟨hbody, hdone⟩ := Cursor.passes_boundary
        ((hplace.trans hgap).boundary_behind hstop (by omega))
      obtain ⟨parts, hcuts, hemits⟩ := ih (i + 1) (hplace.trans (hgap.trans hbody)) (by omega)
      have hne : (place.seek span.start).upTo span.stop ≠ [] := by
        intro hnil
        rw [hnil] at hbody
        rw [hbody.eq_of_nil] at hdone
        omega
      have hspan : span = ⟨(place.seek span.start).offset,
          ((place.seek span.start).seek span.stop).offset⟩ := by rw [hdone, hbegun]
      refine ⟨_, .takes (hspan ▸ hgroup) hgap hbody hne hcuts, fun r => ?_⟩
      have hnot : ¬(span.stop ≤ span.start ∨ span.start < place.offset) := by omega
      simp only [Run.emitGroups, hgroup, if_neg hnot, hemits, Run.putAll_takes, hbegun]
      cases e <;> rfl
    · have hskipped : ∀ span, found.group? (i + 1) = some span →
          ¬(span.start < span.stop ∧ place.offset ≤ span.start) :=
        fun span hspan hall => hcounts ⟨span, hspan, hall⟩
      obtain ⟨parts, hcuts, hemits⟩ := ih (i + 1) hplace hle
      refine ⟨parts, .passesOver hskipped hcuts, fun r => ?_⟩
      rw [← hemits r]
      cases hgroup : found.group? (i + 1) with
      | none => simp only [Run.emitGroups, hgroup]
      | some span =>
        have hnot := hskipped span hgroup
        have hskip : span.stop ≤ span.start ∨ span.start < place.offset := by omega
        simp only [Run.emitGroups, hgroup, if_pos hskip]

/-- The parts are what a match from one place to another is to be cut into for some emissions. -/
structure Match.CutInto (found : Match) (place stop : Cursor) (emissions : List (Emission Target))
    (parts : List Part) : Prop where
  /-- They follow one another from the start of the match to its end. -/
  tiles : Tiles place (parts.map Part.piece) stop
  nonempty : ∀ p ∈ parts, p.piece.text ≠ []
  /-- What is no group is plain text, and as long as it can be. -/
  plain : ∀ p ∈ parts, p.group? = none → p.piece.fate = .token .text
  separated : parts.IsChain fun p q => p.group?.isSome ∨ q.group?.isSome
  /-- A group has what it captured, and goes where its emission says. -/
  captured : ∀ p ∈ parts, ∀ i, p.group? = some i →
    emissions[i]? = some p.piece.fate ∧ found.group? (i + 1) = some p.piece.span
  ascending : (Part.groups parts).Pairwise (· < ·)
  /-- A group counts that holds text behind the last one that counted. -/
  counts : ∀ i < emissions.length, i ∈ Part.groups parts ↔
    ∃ span, found.group? (i + 1) = some span ∧ span.start < span.stop ∧
      Part.stopBefore place.offset parts i ≤ span.start

/-- What is emitted of a match by groups is one part of it after the other, in which the groups that
count have their own emissions and the gaps between them are plain text. -/
theorem groups_partition_match (runner? : Option Runner) (r : Run) {found : Match}
    (h : found.Fits r.cursor) (emissions : List (Emission Target)) :
    ∃ parts, r.act runner? (.groups emissions) found =
        (r.putAll runner? (parts.map Part.piece), r.cursor.seek found.stop) ∧
      found.CutInto r.cursor (r.cursor.seek found.stop) emissions parts := by
  obtain ⟨parts, hcuts, hemits⟩ := h.exists_cuts runner? 0 emissions (.refl r.cursor) h.stop.le
  refine ⟨parts, Prod.ext (hemits r) rfl, hcuts.tiles, hcuts.nonempty, hcuts.plain, hcuts.separated,
    fun p hp i hi => ?_, hcuts.ascending, fun i hi => ?_⟩
  · obtain ⟨k, hk, hfate, hspan⟩ := hcuts.captured hp hi
    rw [Nat.zero_add] at hk
    subst hk
    exact ⟨hfate, hspan⟩
  · have hcounts := hcuts.mem_groups_iff hi
    rwa [Nat.zero_add] at hcounts

/-- Groups that overlap, are absent or empty, or come too late, and more emissions than groups. -/
theorem groups_partition_match_tangled :
    let r := nestingLexer.run "abcdef"
    let found : Match :=
      ⟨0, 6, [some ⟨1, 3⟩, some ⟨2, 4⟩, none, some ⟨5, 5⟩, some ⟨0, 1⟩, some ⟨4, 5⟩]⟩
    let emissions : List (Emission Target) := [.token .keyword, .token .name, .token .name,
      .token .name, .token .name, .delegate (.this none), .token .name]
    found.Fits r.cursor ∧
      (∃ parts, r.act none (.groups emissions) found =
          (r.putAll none (parts.map Part.piece), r.cursor.seek 6) ∧
        found.CutInto r.cursor (r.cursor.seek 6) emissions parts) ∧
      (r.act none (.groups emissions) found).1.pending = [⟨0, .text, "a"⟩, ⟨1, .keyword, "bc"⟩,
        ⟨3, .text, "d"⟩, ⟨4, .other, "e"⟩, ⟨5, .text, "f"⟩] := by
  intro r found emissions
  have hlength : ∀ n ≤ 6, n = 0 + byteLength (['a', 'b', 'c', 'd', 'e', 'f'].take n) := by decide
  have hplace : ∀ n ≤ 6, Boundary 0 ['a', 'b', 'c', 'd', 'e', 'f'] n :=
    fun n hn => ⟨_, List.take_prefix n _, hlength n hn⟩
  have hfits : found.Fits r.cursor := by
    refine ⟨rfl, hplace 6 (by decide), fun span hspan => ?_⟩
    have hall : ∀ span? ∈ found.groups, ∀ span ∈ span?, span.start ≤ span.stop ∧ span.stop ≤ 6 := by
      decide
    obtain ⟨hle, hinside⟩ := hall _ hspan span rfl
    exact ⟨hplace _ (Nat.le_trans hle hinside), hplace _ hinside, hle, hinside⟩
  exact ⟨hfits, groups_partition_match none r hfits emissions, by decide +kernel⟩

end RuleLexer
