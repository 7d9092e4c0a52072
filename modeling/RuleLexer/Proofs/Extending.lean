import RuleLexer.Proofs.OwnRuns

/-! Rules at the end. The rules of a state are tried in order and the first that matches wins, so a
rule behind the others counts only where none of them matches. A lexer whose runs, and those that
they start of it again, find a rule wherever they scan does not change when rules are appended to
the states of its table. -/
namespace RuleLexer
open RuleLexer.Text

/-- The other table is the same, but each state may have more rules behind those that it has. -/
structure TableOf.Extends {τ : Type} (t t' : TableOf τ) : Prop where
  names : t'.names = t.names
  root : t'.root = t.root
  fallback : t'.fallback = t.fallback
  resetsOnNewline : t'.resetsOnNewline = t.resetsOnNewline
  flags : t'.flags = t.flags
  rules : ∀ state, t.rulesOf state <+: t'.rulesOf state

namespace Run

def Finds (r : Run) : Prop :=
  ∀ turns, (Point.after turns r).run.pending = [] → (Point.after turns r).run.cursor.ahead ≠ [] →
    (Point.after turns r).run.winner?.isSome

theorem finds_of_done {r : Run} {turns : Nat} (hdone : (Point.after turns r).Done)
    (h : ∀ before < turns, (Point.after before r).run.pending = [] →
      (Point.after before r).run.cursor.ahead ≠ [] →
        (Point.after before r).run.winner?.isSome) : r.Finds := by
  intro more hpending hend
  by_cases hbefore : more < turns
  · exact h more hbefore hpending hend
  · rw [hdone.after_eq (Nat.le_of_not_lt hbefore)] at hend
    exact absurd hdone.atEnd hend

theorem StartsOwn.lt_of_done {r inner : Run} {turns more offset : Nat}
    (hdone : (Point.after turns r).Done)
    (h : (Point.after more r).run.StartsOwn offset inner) : more < turns := by
  refine Nat.lt_of_not_le fun hle => ?_
  rw [hdone.after_eq hle] at h
  exact h.ahead_ne_nil hdone.atEnd

theorem firstMatch_of_prefix {place : Cursor} {rules more : List CompiledRule}
    {winner : CompiledRule × Match} (h : rules <+: more)
    (hwinner : firstMatch place rules = some winner) : firstMatch place more = some winner := by
  obtain ⟨behind, rfl⟩ := h
  induction rules with
  | nil => simp [firstMatch] at hwinner
  | cons rule rules ih =>
    rw [firstMatch] at hwinner
    rw [List.cons_append, firstMatch]
    cases hmatch : rule.matcher.matchAt place with
    | none =>
      simp only [hmatch] at hwinner ⊢
      exact ih hwinner
    | some found =>
      simp only [hmatch] at hwinner ⊢
      exact hwinner

end Run

section extending
variable {l l' : Lexer} {T : Token → Token → Prop} {r r' : Run}

theorem TableOf.Extends.sameFrame {t : Table} (h : l.table.Extends t) :
    Lexer.SameFrame l { l with table := t } :=
  ⟨rfl, h.names, h.root, h.fallback, h.resetsOnNewline⟩

theorem Run.Beside.winner?_of_extends (h : r.Beside l l' T r')
    (hextends : l.table.Extends l'.table) (hwinner : r.winner?.isSome) :
    r'.winner? = r.winner? := by
  obtain ⟨winner, hfirst⟩ := Option.isSome_iff_exists.1 hwinner
  rw [hfirst]
  obtain ⟨rfl, pending, rfl, -⟩ := h
  exact firstMatch_of_prefix (hextends.rules r.stack.top) hfirst

theorem Point.Beside.scan_of_extends {t : Table} (hextends : l.table.Extends t)
    {states : List StateId} {text : List Char} {depth turns : Nat} {q : Point} :
    let l' := { l with table := t }
    let p := after turns (Run.start l states text depth)
    p.Beside l l' Eq Eq q → p.run.winner?.isSome →
    (∀ offset states' piece,
      let inner := Run.start l states' piece (depth + 1)
      let inner' := Run.start l' states' piece (depth + 1)
      p.run.StartsOwn offset inner →
        List.Forall₂ Eq inner.played.1 inner'.played.1 ∧ inner'.played.2 = inner.played.2) →
    p.run.scan.Beside l l' Eq q.run.scan := by
  intro l' p h hfound hinner
  have hdepth : p.run.depth = depth := (Holds.after l states text depth turns).depth
  have hwinner := h.run.winner?_of_extends hextends hfound
  refine h.run.scan_of_played hextends.sameFrame rfl hwinner fun offset states' piece hstarts => ?_
  rw [hdepth] at hstarts ⊢
  obtain ⟨htokens, hnotices⟩ := hinner offset states' piece hstarts
  rw [List.forall₂_eq_eq_eq] at htokens
  exact Prod.ext htokens.symm hnotices

theorem Point.beside_of_extends {t : Table} (hextends : l.table.Extends t)
    {states : List StateId} {text : List Char} {depth : Nat}
    (hfinds : ∀ own base inner,
      (Run.start l states text depth).OwnAt own base inner → inner.Finds) (turns : Nat) :
    (after turns (Run.start l states text depth)).Beside l { l with table := t } Eq Eq
      (after turns (Run.start { l with table := t } states text depth)) := by
  refine beside_own (K := fun r => ∀ own base inner, r.OwnAt own base inner → inner.Finds)
    (T := fun _ => Eq) (G := fun _ => Eq) hextends.sameFrame ?_ ?_ ?_ states text depth hfinds turns
  · intro r turns offset inner hfinds hpending hstarts own base last howns
    exact hfinds (own + 1) (offset + base) last (.inner turns hpending hstarts howns)
  · intro r t u htu
    exact congrArg l.recategorise htu
  · intro states text depth turns q r p hfinds hpending hend h
    have hfound := hfinds 0 0 _ (.outermost _) turns hpending hend
    exact h.scan_of_extends hextends hfound

end extending

/-- Appending rules is conservative. Where a rule matches at every scan of a run, and at those of
the runs that it and they start of the same lexer, the run is the same turn by turn with any rules
behind those of the table: so are its tokens, its stack, its memo and its place. -/
theorem extension_conservative (l : Lexer) {t : Table} (hextends : l.table.Extends t)
    (states : List StateId) (text : List Char) (depth : Nat)
    (hfinds : ∀ own base inner,
      (Run.start l states text depth).OwnAt own base inner → inner.Finds) :
    let r := Run.start l states text depth
    let r' := Run.start { l with table := t } states text depth
    (∀ turns, (Point.after turns r').taken = (Point.after turns r).taken ∧
      (Point.after turns r').run =
        { (Point.after turns r).run with lexer := { l with table := t } }) ∧
    r'.tokens = r.tokens := by
  intro r r'
  exact Point.Beside.same (Point.beside_of_extends hextends hfinds)

def furtherDraft : TableDraft where
  states := nestingDraft.states.map fun (name, entries) => (name, entries ++ [.emit "[a-z]" .name])

def furtherTable : Table := furtherDraft.compile.toOption.get (by decide +kernel)

theorem extends_furtherTable : nestingTable.Extends furtherTable where
  names := by decide +kernel
  root := by decide +kernel
  fallback := by decide +kernel
  resetsOnNewline := by decide +kernel
  flags := by decide +kernel
  rules state := by
    match state with
    | 0 => exact ⟨(furtherTable.rulesOf 0).drop 1, rfl⟩
    | 1 => exact ⟨(furtherTable.rulesOf 1).drop 1, rfl⟩
    | state + 2 => exact List.nil_prefix

theorem finds_letters {own base : Nat} {inner : Run}
    (h : (Run.start nestingLexer [1] ['a', 'a'] 1).OwnAt own base inner) : inner.Finds := by
  have hdone : (Point.after 4 (Run.start nestingLexer [1] ['a', 'a'] 1)).Done :=
    ⟨by decide +kernel, by decide +kernel⟩
  have hquiet : ∀ turns < 4,
      (Point.after turns (Run.start nestingLexer [1] ['a', 'a'] 1)).run.jobs.length = 0 := by
    decide +kernel
  cases h with
  | outermost => exact Run.finds_of_done hdone (by decide +kernel)
  | inner turns _ started later =>
    obtain ⟨job, hjob, -⟩ := started.exists_job
    rw [List.eq_nil_of_length_eq_zero (hquiet turns (started.lt_of_done hdone))] at hjob
    cases hjob

theorem finds_nestingLexer {own base : Nat} {inner : Run}
    (h : (nestingLexer.run "baa").OwnAt own base inner) : inner.Finds := by
  have hdone : (Point.after 4 (nestingLexer.run "baa")).Done :=
    ⟨by decide +kernel, by decide +kernel⟩
  have hjobs : ∀ turns < 4, ∀ job ∈ (Point.after turns (nestingLexer.run "baa")).run.jobs.map
      fun job => (job.states, job.text), job = ([1], ['a', 'a']) := by decide +kernel
  cases h with
  | outermost => exact Run.finds_of_done hdone (by decide +kernel)
  | @inner _ first _ own base offset turns _ started later =>
    have hholds := Point.Holds.after nestingLexer [0] ['b', 'a', 'a'] 0 turns
    have hlexer : (Point.after turns (nestingLexer.run "baa")).run.lexer = nestingLexer :=
      hholds.lexer
    have hdepth : (Point.after turns (nestingLexer.run "baa")).run.depth = 0 := hholds.depth
    obtain ⟨job, hjob, rfl⟩ := started.exists_job
    have hsame := hjobs turns (started.lt_of_done hdone) _ (List.mem_map_of_mem hjob)
    obtain ⟨hstates, htext⟩ := Prod.mk.inj hsame
    rw [hstates, htext, hlexer, hdepth] at later
    exact finds_letters later

theorem extension_conservative_nesting : nestingTable.Extends furtherTable ∧
    (∀ own base inner, (nestingLexer.run "baa").OwnAt own base inner → inner.Finds) ∧
      ({ nestingLexer with table := furtherTable }.run "baa").tokens =
        (nestingLexer.run "baa").tokens :=
  ⟨extends_furtherTable, fun _ _ _ => finds_nestingLexer,
    (extension_conservative nestingLexer extends_furtherTable [0] ['b', 'a', 'a'] 0
      fun _ _ _ => finds_nestingLexer).2⟩

end RuleLexer
