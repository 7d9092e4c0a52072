import Mathlib.Order.Monotone.Basic
import RuleLexer.Proofs.Lockstep

/-! Runs of a lexer within its own runs. Where a rule hands a piece of the text to the lexer that
runs, the scan starts a run of that lexer over the piece, and the scans of that run may do the same.
The pieces of one scan do not overlap, and neither do those of two scans, so it is certain for each
place of the text how many such runs are around it, one within the other. Two lexers over the same
rules keep step when the runs do that they start of themselves. -/
namespace RuleLexer
open RuleLexer.Text RuleLexer.Coverage

namespace Tiles
variable {place stop : Cursor} {pieces : List Piece} {p q : Piece}

theorem offset_le (h : Tiles place pieces stop) : place.offset ≤ stop.offset := by
  rw [h.passes.offset]
  exact Nat.le_add_right _ _

theorem mem_bounds (h : Tiles place pieces stop) (hp : p ∈ pieces) :
    place.offset ≤ p.offset ∧ p.offset + byteLength p.text ≤ stop.offset := by
  induction h with
  | nil => cases hp
  | @cons place next stop first rest offset passes later ih =>
    have hnext := passes.offset
    rcases List.mem_cons.1 hp with rfl | hp
    · have hlater := later.offset_le
      omega
    · have hrest := ih hp
      omega

theorem eq_of_mem (h : Tiles place pieces stop) (hp : p ∈ pieces) (hq : q ∈ pieces) {n : Nat}
    (hpn : p.offset ≤ n) (hnp : n < p.offset + byteLength p.text)
    (hqn : q.offset ≤ n) (hnq : n < q.offset + byteLength q.text) : p = q := by
  induction h with
  | nil => cases hp
  | @cons place next stop first rest offset passes later ih =>
    have hnext := passes.offset
    rcases List.mem_cons.1 hp with rfl | hp <;> rcases List.mem_cons.1 hq with rfl | hq
    · rfl
    · have hbounds := later.mem_bounds hq
      omega
    · have hbounds := later.mem_bounds (p := p) (by assumption)
      omega
    · exact ih hp hq

end Tiles

namespace Point

theorem Holds.position_le {l : Lexer} {text : List Char} {depth : Nat} {p : Point}
    (h : Holds l text depth p) : p.run.position ≤ byteLength text := by
  have hplace := h.passes.offset
  have htext := congrArg byteLength h.passes.ahead
  simp only [Cursor.start, byteLength_append, Nat.zero_add] at hplace htext
  rw [Run.position]
  omega

theorem position_mono (r : Run) : Monotone fun turns => (after turns r).run.position := by
  refine monotone_nat_of_le_succ fun turns => ?_
  rw [after_succ]
  cases hpending : (after turns r).run.pending with
  | cons t pending =>
    rw [turn_of_pending hpending]
    exact Nat.le_refl _
  | nil =>
    by_cases hend : (after turns r).run.cursor.ahead = []
    · rw [turn_of_done hpending hend]
    · obtain ⟨piece, hstep⟩ := Run.steps_scan hend
      rw [turn_of_scan hpending hend]
      show (after turns r).run.position ≤ (after turns r).run.scan.position
      rw [Run.position, Run.position, hstep.passes.offset]
      exact Nat.le_add_right _ _

theorem position_after_scan {turns : Nat} {r : Run} (hpending : (after turns r).run.pending = [])
    (hend : (after turns r).run.cursor.ahead ≠ []) :
    (after (turns + 1) r).run.position = (after turns r).run.scan.position := by
  rw [after_succ, turn_of_scan hpending hend]

end Point

namespace Run

theorem mem_scan_bounds {r : Run} (hpending : r.pending = []) (hend : r.cursor.ahead ≠ [])
    {t : Token} (ht : t ∈ r.scan.pending) : r.position ≤ t.offset ∧ t.offset < r.scan.position := by
  obtain ⟨piece, hstep⟩ := steps_scan hend
  obtain ⟨tokens, hgiven, hcovers⟩ := hstep.tokens
  have hpasses := hstep.passes.offset
  rw [hgiven, hpending, List.nil_append] at ht
  rw [position, position, hpasses]
  exact hcovers.mem_bounds ht

/-- A scan of `r` hands the piece at `offset` to the lexer that runs, and `inner` is the run over
the piece as it starts. -/
inductive StartsOwn (r : Run) : (offset : Nat) → (inner : Run) → Prop
  | handed {rule : CompiledRule} {found : Match} {states? : Option (List StateId)}
      {piece : List Char} {offset : Nat} (room : r.depth < maxDelegation)
      (winner : r.winner? = some (rule, found)) (nonempty : piece ≠ [])
      (mem : ⟨offset, piece, .delegate (.this states?)⟩ ∈ found.pieces r.cursor rule.action) :
      StartsOwn r offset (start r.lexer (states?.getD r.lexer.initial) piece (r.depth + 1))

/-- `inner` is a run of the lexer of `outer` within it: so many pieces that were handed on lead to
it, each within the one before, and its text stands at `base` in the text of `outer`. -/
inductive OwnAt : (outer : Run) → (own base : Nat) → (inner : Run) → Prop
  | outermost (r : Run) : OwnAt r 0 0 r
  | inner {r first last : Run} {own base offset : Nat} (turns : Nat)
      (pending : (Point.after turns r).run.pending = [])
      (started : (Point.after turns r).run.StartsOwn offset first)
      (later : OwnAt first own base last) : OwnAt r (own + 1) (offset + base) last

/-- So many runs of its own lexer within `r`, each within the one before, are over the byte at
`place`. -/
def Around (r : Run) (own place : Nat) : Prop :=
  ∃ base inner, r.OwnAt own base inner ∧
    base ≤ place ∧ place < base + byteLength inner.cursor.ahead

namespace StartsOwn
variable {r inner : Run} {offset : Nat}

theorem mem_nestedAt (h : r.StartsOwn offset inner) : (offset, inner) ∈ r.nestedAt := by
  cases h with
  | handed room winner nonempty mem =>
    obtain ⟨runner, hrunner, -⟩ := exists_runner_drain room
    exact mem_nestedAt_iff.2 ⟨runner, _, _, hrunner, winner, _, mem, _,
      Piece.mem_job?_iff.2 ⟨_, rfl, nonempty, rfl⟩, rfl, rfl⟩

theorem ahead_ne_nil (h : r.StartsOwn offset inner) : r.cursor.ahead ≠ [] :=
  (mem_scan_of_nested h.mem_nestedAt).1

theorem depth_lt (h : r.StartsOwn offset inner) : r.depth < maxDelegation := by
  cases h with
  | handed room => exact room

theorem exists_job (h : r.StartsOwn offset inner) :
    ∃ job ∈ r.jobs, inner = start r.lexer job.states job.text (r.depth + 1) := by
  obtain ⟨-, job, hjob, hinner⟩ := mem_nested (mem_nested_of_nestedAt h.mem_nestedAt)
  cases h with
  | handed =>
    have hlexer : r.lexer = job.lexer := congrArg Run.lexer hinner
    exact ⟨job, hjob, hlexer ▸ hinner⟩

theorem exists_winner (h : r.StartsOwn offset inner) :
    ∃ rule found, r.winner? = some (rule, found) ∧ (∀ f, rule.action ≠ .callback f) ∧
      r.scan.cursor = r.cursor.seek found.stop ∧ r.position < r.scan.position ∧
      Tiles r.cursor (found.pieces r.cursor rule.action) r.scan.cursor := by
  cases h with
  | @handed rule found states? piece offset room winner nonempty mem =>
    have hplain : ∀ f, rule.action ≠ .callback f := fun f hf => by simp [hf, Match.pieces] at mem
    have htiles := (firstMatch_some winner).2.tiles_pieces rule.action hplain
    have hbounds := htiles.mem_bounds mem
    have hpiece : byteLength piece ≠ 0 := mt byteLength_eq_zero.1 nonempty
    have hmoves : r.position < (r.cursor.seek found.stop).offset := by
      rw [position]
      simp only at hbounds
      omega
    obtain ⟨hcursor, hnext⟩ := r.follow_plain (runner? r.levels) rule found hplain
    have hscan : r.scan.cursor = r.cursor.seek found.stop := by
      rw [scan_of_winner winner, hnext, settle_of_lt (by rwa [position, hcursor])]
    have hposition : r.position < r.scan.position := by
      rw [← hscan] at hmoves
      exact hmoves
    exact ⟨rule, found, winner, hplain, hscan, hposition, hscan ▸ htiles⟩

theorem exists_start (h : r.StartsOwn offset inner) :
    ∃ states piece, inner = start r.lexer states piece (r.depth + 1) := by
  cases h
  exact ⟨_, _, rfl⟩

theorem bounds (h : r.StartsOwn offset inner) :
    r.position ≤ offset ∧ offset + byteLength inner.cursor.ahead ≤ r.scan.position := by
  obtain ⟨rule, found, hwinner, -, -, -, htiles⟩ := h.exists_winner
  cases h with
  | handed room winner nonempty mem =>
    cases hwinner.symm.trans winner
    exact htiles.mem_bounds mem

theorem eq_piece (h : r.StartsOwn offset inner) {rule : CompiledRule} {found : Match}
    (hwinner : r.winner? = some (rule, found)) {p : Piece}
    (hp : p ∈ found.pieces r.cursor rule.action) {place : Nat}
    (hpn : p.offset ≤ place) (hnp : place < p.offset + byteLength p.text)
    (hle : offset ≤ place) (hlt : place < offset + byteLength inner.cursor.ahead) :
    ∃ states?, p.fate = .delegate (.this states?) ∧ offset = p.offset ∧
      inner = start r.lexer (states?.getD r.lexer.initial) p.text (r.depth + 1) := by
  obtain ⟨_, _, hsame, -, -, -, htiles⟩ := h.exists_winner
  cases hsame.symm.trans hwinner
  cases h with
  | @handed rule' found' states? piece offset room winner nonempty mem =>
    cases winner.symm.trans hwinner
    have hpiece := htiles.eq_of_mem hp mem hpn hnp hle hlt
    subst hpiece
    exact ⟨states?, rfl, rfl, rfl⟩

theorem unique (h : r.StartsOwn offset inner) {offset' : Nat} {inner' : Run}
    (h' : r.StartsOwn offset' inner') {place : Nat} (hle : offset ≤ place)
    (hlt : place < offset + byteLength inner.cursor.ahead) (hle' : offset' ≤ place)
    (hlt' : place < offset' + byteLength inner'.cursor.ahead) :
    offset' = offset ∧ inner' = inner := by
  cases h with
  | @handed rule found states? piece offset room winner nonempty mem =>
    obtain ⟨states', hfate, hoffset, hinner⟩ := h'.eq_piece winner mem hle hlt hle' hlt'
    cases hfate
    exact ⟨hoffset, hinner⟩

end StartsOwn

theorem OwnAt.inside {r inner : Run} {own base : Nat} (h : r.OwnAt own base inner) {l : Lexer}
    {states : List StateId} {text : List Char} {depth : Nat}
    (hr : r = start l states text depth) :
    base + byteLength inner.cursor.ahead ≤ byteLength text := by
  induction h generalizing l states text depth with
  | outermost =>
    subst hr
    simp [start, Cursor.start]
  | @inner r first last own base offset turns pending started later ih =>
    subst hr
    obtain ⟨states', piece, rfl⟩ := started.exists_start
    have hplace := (Point.Holds.after l states text depth (turns + 1)).position_le
    have hpiece : offset + byteLength piece ≤ _ := started.bounds.2
    have hinner := ih rfl
    rw [Point.position_after_scan pending started.ahead_ne_nil] at hplace
    omega

section around
variable {l : Lexer} {states : List StateId} {text : List Char} {depth : Nat}

theorem around_zero {place : Nat} (h : place < byteLength text) :
    (start l states text depth).Around 0 place :=
  ⟨0, _, .outermost _, Nat.zero_le _, by simpa [start, Cursor.start] using h⟩

theorem Around.lt {own place : Nat} (h : (start l states text depth).Around own place) :
    place < byteLength text := by
  obtain ⟨base, inner, howns, -, hplace⟩ := h
  have hinside := howns.inside rfl
  omega

theorem StartsOwn.lt_of_around {r inner : Run} {offset own place : Nat}
    (h : r.StartsOwn offset inner) (haround : inner.Around own place) :
    place < byteLength inner.cursor.ahead := by
  obtain ⟨states', piece, rfl⟩ := h.exists_start
  exact haround.lt

theorem Around.of_succ {own place : Nat} (h : (start l states text depth).Around (own + 1) place) :
    (start l states text depth).Around own place := by
  have hplace := h.lt
  obtain ⟨base, inner, howns, hbase, hinner⟩ := h
  induction own generalizing l states text depth base place with
  | zero => exact around_zero hplace
  | succ own ih =>
    cases howns with
    | @inner _ first _ _ base offset turns pending started later =>
      obtain ⟨states', piece, rfl⟩ := started.exists_start
      have hfirst := later.inside rfl
      have hpiece : place - offset < byteLength piece := by omega
      obtain ⟨deeper, last, howns, hle, hlt⟩ := ih hpiece base later (by omega) (by omega)
      exact ⟨offset + deeper, last, .inner turns pending started howns, by omega, by omega⟩

theorem Around.of_le {own fewer place : Nat} (h : (start l states text depth).Around own place)
    (hle : fewer ≤ own) : (start l states text depth).Around fewer place := by
  induction hle with
  | refl => exact h
  | step _ ih => exact ih h.of_succ

theorem around_iff_le {own place n : Nat} (h : (start l states text depth).Around own place)
    (hno : ¬(start l states text depth).Around (own + 1) place) :
    (start l states text depth).Around n place ↔ n ≤ own :=
  ⟨fun haround => Nat.le_of_not_lt fun hlt => hno (haround.of_le hlt), h.of_le⟩

/-- What is around a byte that a scan passes over, within the run, was started by the scan. -/
theorem around_succ_iff {turns own place : Nat} :
    let r := start l states text depth
    let p := Point.after turns r
    p.run.pending = [] → p.run.cursor.ahead ≠ [] → p.run.position ≤ place →
      place < p.run.scan.position → (r.Around (own + 1) place ↔
        ∃ offset inner, p.run.StartsOwn offset inner ∧ offset ≤ place ∧
          inner.Around own (place - offset)) := by
  intro r p hpending hend hle hlt
  constructor
  · rintro ⟨_, last, howns, hbase, hplace⟩
    cases howns with
    | @inner _ first _ _ base offset more hpending' started later =>
      have hbounds := started.bounds
      have hscan : (Point.after (turns + 1) r).run.position = p.run.scan.position :=
        Point.position_after_scan hpending hend
      have hscan' := Point.position_after_scan hpending' started.ahead_ne_nil
      have hinside : base + byteLength last.cursor.ahead ≤ byteLength first.cursor.ahead := by
        obtain ⟨states', piece, rfl⟩ := started.exists_start
        exact later.inside rfl
      have hsame : more = turns := by
        rcases Nat.lt_trichotomy more turns with hless | hsame | hmore
        · have hmono : (Point.after (more + 1) r).run.position ≤ p.run.position :=
            Point.position_mono r hless
          omega
        · exact hsame
        · have hmono : (Point.after (turns + 1) r).run.position ≤
              (Point.after more r).run.position := Point.position_mono r hmore
          omega
      subst hsame
      exact ⟨offset, first, started, by omega, base, last, later, by omega, by omega⟩
  · rintro ⟨offset, inner, started, hoffset, base, last, later, hbase, hplace⟩
    exact ⟨offset + base, last, .inner turns hpending started later, by omega, by omega⟩

end around

end Run

section lockstep
variable {l l' : Lexer} {T : Token → Token → Prop}

def Piece.Own (p : Piece) : Prop := ∃ states?, p.fate = .delegate (.this states?) ∧ p.text ≠ []

theorem Piece.beside_of_other (hinfo : l'.info = l.info) {runner? : Option Runner} {depth : Nat}
    {p : Piece} (hother : p.Own → runner? = none) (hT : ∀ t ∈ p.tokens runner? l, T t t) :
    Piece.Beside l l' T runner? runner? depth p p := by
  obtain ⟨offset, text, fate⟩ := p
  have hsame : Piece.tokens runner? l' ⟨offset, text, fate⟩ =
      Piece.tokens runner? l ⟨offset, text, fate⟩ ∧
        Piece.noted runner? l' depth ⟨offset, text, fate⟩ =
          Piece.noted runner? l depth ⟨offset, text, fate⟩ := by
    cases fate with
    | token category => exact ⟨rfl, rfl⟩
    | delegate target =>
      cases target with
      | lexer m states? =>
        by_cases hempty : text = [] <;> cases runner? <;>
          simp [Piece.tokens, Piece.noted, Piece.job?, delegated, hempty, LexerOf.name, hinfo,
            Target.lexerIn, Target.statesIn]
      | this states? =>
        by_cases hempty : text = []
        · simp [Piece.tokens, Piece.noted, Piece.job?, delegated, hempty]
        · rw [hother ⟨states?, rfl, hempty⟩]
          simp [Piece.tokens, Piece.noted, Piece.job?, delegated, hempty, LexerOf.name, hinfo]
  refine ⟨?_, hsame.2⟩
  rw [hsame.1]
  exact List.forall₂_same.2 hT

theorem Piece.beside_of_own (hinitial : l'.initial = l.initial) {depth : Nat}
    (hdepth : depth < maxDelegation) {p : Piece} {states? : Option (List StateId)}
    (hfate : p.fate = .delegate (.this states?)) (hne : p.text ≠ [])
    (htokens : List.Forall₂ (fun t u => T (t.shift p.offset) (u.shift p.offset))
      (Run.start l (states?.getD l.initial) p.text (depth + 1)).played.1
      (Run.start l' (states?.getD l.initial) p.text (depth + 1)).played.1)
    (hnoted : (Run.start l' (states?.getD l.initial) p.text (depth + 1)).played.2 =
      (Run.start l (states?.getD l.initial) p.text (depth + 1)).played.2) :
    Piece.Beside l l' T (Run.runner? (maxDelegation - depth)) (Run.runner? (maxDelegation - depth))
      depth p p := by
  obtain ⟨runner, hrunner, hplays⟩ := Run.exists_runner_drain (r := Run.start l [] [] depth) hdepth
  have hplayed : ∀ (lexer : Lexer) (states : List StateId) (text : List Char),
      runner lexer states text = (Run.start lexer states text (depth + 1)).played := hplays
  have hrunner : Run.runner? (maxDelegation - depth) = some runner := hrunner
  obtain ⟨offset, text, fate⟩ := p
  simp only at hfate hne htokens hnoted
  subst hfate
  rw [hrunner]
  constructor
  · simp only [Piece.tokens, delegated, List.isEmpty_iff, hne, if_false, hplayed, Target.lexerIn,
      Target.statesIn, hinitial]
    rw [List.forall₂_map_left_iff, List.forall₂_map_right_iff]
    exact htokens
  · simp only [Piece.noted, Piece.job?, List.isEmpty_iff, hne, if_false, hplayed, Target.lexerIn,
      Target.statesIn, hinitial]
    exact hnoted

theorem Run.forall₂_pieces (hframe : Lexer.SameFrame l l') (hinitial : l'.initial = l.initial)
    {r : Run} (hlexer : r.lexer = l) {rule : CompiledRule} {found : Match}
    (hwinner : r.winner? = some (rule, found))
    (hother : ∀ p ∈ found.pieces r.cursor rule.action, (p.Own → maxDelegation ≤ r.depth) →
      ∀ t ∈ p.tokens (runner? r.levels) l, T t t)
    (hown : ∀ offset states piece, r.StartsOwn offset (start l states piece (r.depth + 1)) →
      List.Forall₂ (fun t u => T (t.shift offset) (u.shift offset))
        (start l states piece (r.depth + 1)).played.1
        (start l' states piece (r.depth + 1)).played.1 ∧
      (start l' states piece (r.depth + 1)).played.2 =
        (start l states piece (r.depth + 1)).played.2) :
    List.Forall₂ (Piece.Beside l l' T (runner? r.levels) (runner? r.levels) r.depth)
      (found.pieces r.cursor rule.action) (found.pieces r.cursor rule.action) := by
  subst hlexer
  refine List.forall₂_same.2 fun p hp => ?_
  by_cases hroom : p.Own → maxDelegation ≤ r.depth
  · exact Piece.beside_of_other hframe.info (fun h => runner?_eq_none (hroom h)) (hother p hp hroom)
  · obtain ⟨⟨states?, hfate, hne⟩, hdepth⟩ := Classical.not_imp.1 hroom
    have hdepth := Nat.lt_of_not_le hdepth
    have hstarts : r.StartsOwn p.offset
        (start r.lexer (states?.getD r.lexer.initial) p.text (r.depth + 1)) :=
      .handed hdepth hwinner hne (hfate ▸ hp)
    obtain ⟨htokens, hnoted⟩ := hown _ _ _ hstarts
    exact Piece.beside_of_own hinitial hdepth hfate hne htokens hnoted

theorem Run.Beside.scan_of_sameWin (hframe : Lexer.SameFrame l l')
    (hinitial : l'.initial = l.initial) {r r' : Run} (h : r.Beside l l' Eq r')
    (hwinner : Option.Rel SameWin r.winner? r'.winner?)
    (hown : ∀ offset states piece, r.StartsOwn offset (start l states piece (r.depth + 1)) →
      (start l' states piece (r.depth + 1)).played = (start l states piece (r.depth + 1)).played) :
    r.scan.Beside l l' Eq r'.scan := by
  have hrefl : ∀ t : Token, t = t := fun _ => rfl
  rw [Run.scan, Run.scan, h.levels_eq]
  generalize hfirst : r.winner? = winner? at hwinner
  generalize hsecond : r'.winner? = winner?' at hwinner
  cases hwinner with
  | none => exact h.step_of_none hframe hrefl hfirst hsecond
  | @some winner winner' hsame =>
    obtain ⟨rule, found⟩ := winner
    rw [step_eq, step_eq, hfirst, hsecond]
    show (r.apply (runner? r.levels) rule found).Beside l l' Eq
      (r'.apply (runner? r.levels) winner'.1 winner'.2)
    rw [hsame.apply_eq]
    refine h.applied hframe hrefl rfl ?_
    by_cases hcallback : ∃ f, rule.action = .callback f
    · obtain ⟨f, hf⟩ := hcallback
      rw [hf]
      exact .callback f
    · have hplain : ∀ f, rule.action ≠ .callback f := fun f hf => hcallback ⟨f, hf⟩
      refine .pieces hplain hplain (forall₂_pieces hframe hinitial h.1 hfirst
        (fun _ _ _ _ _ => rfl) fun offset states piece hstarts => ?_)
      rw [hown offset states piece hstarts]
      exact ⟨List.forall₂_same.2 fun _ _ => rfl, rfl⟩

theorem Run.Beside.scan_of_played (hframe : Lexer.SameFrame l l')
    (hinitial : l'.initial = l.initial) {r r' : Run} (h : r.Beside l l' Eq r')
    (hwinner : r'.winner? = r.winner?)
    (hown : ∀ offset states piece, r.StartsOwn offset (start l states piece (r.depth + 1)) →
      (start l' states piece (r.depth + 1)).played = (start l states piece (r.depth + 1)).played) :
    r.scan.Beside l l' Eq r'.scan := by
  refine h.scan_of_sameWin hframe hinitial ?_ hown
  rw [hwinner]
  cases r.winner? with
  | none => exact .none
  | some winner => exact .some (.refl winner)

/-- Two lexers over the same rules keep step in all runs of a kind, when each scan does if the runs
do that it starts of its own lexer. -/
theorem Point.beside_own (hframe : Lexer.SameFrame l l') {K : Run → Prop}
    {T G : Run → Token → Token → Prop}
    (kept : ∀ r turns offset inner, K r → (after turns r).run.pending = [] →
      (after turns r).run.StartsOwn offset inner → K inner)
    (give : ∀ r t u, T r t u → G r (l.recategorise t) (l'.recategorise u))
    (scan : ∀ states text depth turns q,
      let r := Run.start l states text depth
      let p := after turns r
      K r → p.run.pending = [] → p.run.cursor.ahead ≠ [] → p.Beside l l' (T r) (G r) q →
      (∀ offset states' piece,
        let inner := Run.start l states' piece (depth + 1)
        let inner' := Run.start l' states' piece (depth + 1)
        p.run.StartsOwn offset inner →
          List.Forall₂ (G inner) inner.played.1 inner'.played.1 ∧
            inner'.played.2 = inner.played.2) →
      p.run.scan.Beside l l' (T r) q.run.scan)
    (states : List StateId) (text : List Char) (depth : Nat)
    (kind : K (Run.start l states text depth)) (turns : Nat) :
    let r := Run.start l states text depth
    (after turns r).Beside l l' (T r) (G r) (after turns (Run.start l' states text depth)) := by
  induction hlevels : maxDelegation - depth using Nat.strongRecOn
    generalizing states text depth turns with
  | ind levels ih =>
    intro r
    refine lockstep (.start hframe _ _ _) (fun q q' h => h.pending_eq_nil_iff)
      (fun q q' h => h.ahead_eq)
      (fun q q' t u rest rest' hq hq' h => h.give (give r) hq hq')
      (fun turns hpending hpending' hend h => ?_) turns
    have hscan := scan states text depth turns _ kind hpending hend h
      fun offset states' piece hstarts => by
        have hroom := hstarts.depth_lt
        rw [(Holds.after l states text depth turns).depth] at hroom
        have hkind := kept r turns offset _ kind hpending hstarts
        exact Point.Beside.played fun more => ih _ (by omega) states' piece _ hkind more rfl
    have hend' := hend
    rw [← h.ahead_eq] at hend'
    rw [turn_of_scan hpending hend, turn_of_scan hpending' hend']
    exact ⟨hscan, h.taken⟩

end lockstep

end RuleLexer
