import RuleLexer.Language.Haxe
import RuleLexer.Proofs.Greedy
import RuleLexer.Proofs.Resuming

/-! Numbers in haXe. In a block of code the rule for whole numbers stands before the one for numbers
with a fraction and takes all the digits up to the point, so the latter never comes to its turn. -/
namespace RuleLexer
open RuleLexer.Text RuleLexer.Regex

namespace Language.Haxe
open Entry

def found (e : Entry Delegate) : Bool := e.checks (fun _ _ _ => true) table.flags table.names

/-- The states that are taken in by others, and those that take in states and are not last. -/
def order : List String :=
  ["comments", "whitespace", "enumdef", "typedef", "classdef", "interfacedef", "imports", "new",
    "case", "anonfundef", "literals", "vardef", "codekeywords", "typelabel", "propertydef",
    "generictypedecl", "instancevardef", "instancefundef", "vardecl", "codeblock"]

theorem checks_table : (table.states.take 5).all (·.2.all found) ∧
    (table.states.drop 5).all (·.2.all found) ∧ table.RisesIn order := by
  and_intros
  all_goals decide +kernel

theorem found_all : ∀ state ∈ table.states, ∀ e ∈ state.2, found e := by
  obtain ⟨hfirst, hlast, -⟩ := checks_table
  rw [← List.take_append_drop 5 table.states, List.forall_mem_append]
  exact ⟨fun state hstate => List.all_eq_true.1 (List.all_eq_true.1 hfirst state hstate),
    fun state hstate => List.all_eq_true.1 (List.all_eq_true.1 hlast state hstate)⟩

theorem surveyed_table : table.Surveyed fun _ _ _ _ => true :=
  .of_checks rfl (by decide) (by decide) (by decide) checks_table.2.2.acyclic found_all

/-! The rules of a block of code -/

def rulesIn (state : Nat) : List (Rule Delegate) :=
  (table.states[state]?.elim [] Prod.snd).filterMap Entry.rule?

def spaceRules : List (Rule Delegate) := rulesIn 1 ++ rulesIn 2

def codeRules : List (Rule Delegate) :=
  spaceRules ++ (rulesIn 7 ++ (rulesIn 8 ++ (rulesIn 13 ++ (rulesIn 4 ++ (rulesIn 9 ++
    (rulesIn 3 ++ rulesIn 5))))))

theorem expands_code : table.Expands table.states[5].2 codeRules := by
  have hmem {i : Nat} {state : String × List (Entry Delegate)} (h : table.states[i]? = some state) :
      state ∈ table.states := List.mem_of_getElem? h
  have hspace : table.Expands table.states[2].2 spaceRules :=
    .includes (hmem (i := 1) rfl) (.rule (.rule (.rule .nil))) (.rule .nil)
  refine .includes (hmem (i := 2) rfl) hspace ?_
  refine .includes (hmem (i := 7) rfl) (.rule .nil) ?_
  refine .includes (hmem (i := 8) rfl) (.rule .nil) ?_
  refine .includes (hmem (i := 13) rfl) (.rule .nil) ?_
  refine .includes (hmem (i := 4) rfl)
    (.rule (.rule (.rule (.rule (.rule (.rule (.rule .nil))))))) ?_
  refine .includes (hmem (i := 9) rfl) (.rule .nil) ?_
  refine .includes (hmem (i := 3) rfl) (.rule .nil) ?_
  exact .rule (.rule (.rule (.rule (.rule .nil))))

theorem exists_lexer : ∃ l, lexer.outcome.1 = .ok l ∧ (∀ token, l.recategorise token = token) ∧
    List.Forall₂ (Named l.table.names) ["root", "codeblock"] [0, 5] ∧
      ∀ id, Named l.table.names "codeblock" id →
        List.Forall₂ (Rule.Binds table.flags l.table.names) codeRules (l.table.rulesOf id) := by
  obtain ⟨t, hcompile, hnames, -⟩ := surveyed_table.exists_table
  have hplaces : List.Forall₂ (Named table.names) ["root", "codeblock"] [0, 5] :=
    .cons rfl (.cons rfl .nil)
  refine ⟨⟨info, t, [t.root], none, []⟩, Build.outcome_plain hcompile info, fun _ => rfl,
    hnames ▸ hplaces, fun id hid => ?_⟩
  have hid : Named t.names "codeblock" id := hid
  show List.Forall₂ (Rule.Binds table.flags t.names) codeRules (t.rulesOf id)
  rw [hnames] at hid ⊢
  have hstate : table.states[5] ∈ table.states := List.getElem_mem _
  obtain ⟨rules, hexpands, hbinds⟩ := surveyed_table.resolved.exists_rules hcompile hstate hid
  rwa [expands_code.unique surveyed_table.resolved.distinct hexpands] at hbinds

/-! What they make of digits and points -/

def integer : Rule Delegate := ⟨.pattern "[0-9]+" none, .emit .numberInteger, none⟩

def operator : Rule Delegate := ⟨.pattern operators none, .emit .operator, none⟩

def digits : List Char := (List.range' 48 10).map Char.ofNat

theorem mem_range (c : Char) : (CharSet.range '0' '9').mem c = c.isDigit := by
  simp [CharSet.mem, Char.isDigit, UInt32.le_iff_toNat_le]

theorem mem_digits {c : Char} (h : c.isDigit) : c ∈ digits := by
  rw [← mem_range, CharSet.mem, Bool.and_eq_true, decide_eq_true_eq, decide_eq_true_eq] at h
  exact List.mem_map.2
    ⟨c.toNat, List.mem_range'_1.2 ⟨h.1, Nat.lt_succ_of_le h.2⟩, Char.ofNat_toNat c⟩

theorem codeRules_eq : codeRules = codeRules.take 8 ++ integer :: codeRules.drop 9 ∧
    codeRules = codeRules.take 8 ++ (codeRules.drop 8).take 9 ++ operator :: codeRules.drop 18 :=
  ⟨rfl, rfl⟩

theorem checks_rules : (∀ r ∈ codeRules.take 8, r.bars table.flags ('.' :: digits)) ∧
    integer.takesAll table.flags 1 (.range '0' '9') ∧
    (∀ r ∈ (codeRules.drop 8).take 9, r.misses table.flags [['.']]) ∧
    operator.takes table.flags [['.']] ∧
    operator.spans table.flags (digits.map fun d => (['.'], [d])) := by
  and_intros
  all_goals decide +kernel

section wins
variable {names : List String} {compiled : List CompiledRule} {place : Cursor} {rest : List Char}
  (hbinds : List.Forall₂ (Rule.Binds table.flags names) codeRules compiled)
include hbinds

/-- The rule for whole numbers wins over digits up to the end of the text or a point. -/
theorem integer_wins {piece : List Char} (hahead : place.ahead = piece ++ rest)
    (hpiece : piece ≠ []) (hdigits : ∀ c ∈ piece, c.isDigit)
    (hrest : ∀ c ∈ rest, c = '.' ∨ c.isDigit) (hpoint : ∀ c ∈ rest.head?, c = '.') :
    ∃ c found, integer.Binds table.flags names c ∧
      Run.firstMatch place compiled = some (c, found) ∧ place.upTo found.stop = piece := by
  obtain ⟨hbars, htakes, -⟩ := checks_rules
  have hall : ∀ c ∈ place.ahead, c ∈ '.' :: digits := by
    intro c hc
    rw [hahead] at hc
    rcases List.mem_append.1 hc with hc | hc
    · exact List.mem_cons_of_mem _ (mem_digits (hdigits c hc))
    · exact List.mem_cons.2 ((hrest c hc).imp_right mem_digits)
  rw [codeRules_eq.1] at hbinds
  obtain ⟨c, hbind, hfirst⟩ := Run.firstMatch_behind hbinds fun r hr c hc =>
    hc.matchAt_of_bars (hbars r hr) hall
  obtain ⟨found, hfound, hspan⟩ := hbind.exists_takesAll htakes hahead hpiece
    (fun d hd => (mem_range d).trans (hdigits d hd)) fun d hd => by rw [hpoint d hd]; rfl
  exact ⟨c, found, hbind, hfirst found hfound, hspan⟩

theorem operator_wins (hahead : place.ahead = '.' :: rest) (hrest : rest ≠ [])
    (hdigits : ∀ c ∈ rest, c.isDigit) : ∃ c found, operator.Binds table.flags names c ∧
      Run.firstMatch place compiled = some (c, found) ∧ place.upTo found.stop = ['.'] := by
  obtain ⟨hbars, -, hmisses, htakes, hspans⟩ := checks_rules
  obtain ⟨d, rest, rfl⟩ := List.exists_cons_of_ne_nil hrest
  have hall : ∀ c ∈ place.ahead, c ∈ '.' :: digits := by
    intro c hc
    rw [hahead] at hc
    exact List.mem_cons.2 ((List.mem_cons.1 hc).imp_right fun hc => mem_digits (hdigits c hc))
  have hpoint : ['.'] <+: place.ahead := ⟨d :: rest, hahead.symm⟩
  have hnext : ['.'] ++ [d] <+: place.ahead := ⟨rest, hahead.symm⟩
  rw [codeRules_eq.2] at hbinds
  obtain ⟨c, hbind, hfirst⟩ := Run.firstMatch_behind hbinds fun r hr c hc => by
    rcases List.mem_append.1 hr with hr | hr
    · exact hc.matchAt_of_bars (hbars r hr) hall
    · exact hc.matchAt_eq_none (hmisses r hr) (List.mem_singleton_self _) hpoint
  obtain ⟨found, hfound⟩ := Option.isSome_iff_exists.1
    (hbind.isSome_of_takes htakes (List.mem_singleton_self _) hpoint)
  have hd : (['.'], [d]) ∈ digits.map fun d => (['.'], [d]) :=
    List.mem_map_of_mem (mem_digits (hdigits d List.mem_cons_self))
  exact ⟨c, found, hbind, hfirst found hfound, hbind.upTo_eq hspans hd hnext hfound⟩

end wins

theorem tokens_decimal {l : Lexer} {ids : List StateId}
    (hids : List.Forall₂ (Named l.table.names) ["root", "codeblock"] ids)
    (hrules : ∀ id, Named l.table.names "codeblock" id →
      List.Forall₂ (Rule.Binds table.flags l.table.names) codeRules (l.table.rulesOf id))
    {a b : List Char} (ha : a ≠ []) (hb : b ≠ []) (hda : ∀ c ∈ a, c.isDigit)
    (hdb : ∀ c ∈ b, c.isDigit) : (Run.start l ids (a ++ '.' :: b) 0).tokens =
      [l.recategorise ⟨0, .numberInteger, String.ofList a⟩,
        l.recategorise ⟨byteLength a, .operator, "."⟩,
        l.recategorise ⟨byteLength a + 1, .numberInteger, String.ofList b⟩] := by
  have hroom : 2 ≤ Stack.maxDepth := by decide
  have hne : ids ≠ [] := by rintro rfl; cases hids
  have htext : a ++ '.' :: b = a ++ (['.'] ++ (b ++ [])) := by simp
  have h₀ := Run.standsAt_start_all hids hne hroom (a ++ (['.'] ++ (b ++ [])))
  obtain ⟨r₁, h₁, htokens₁⟩ := h₀.emits_piece hrules ha (q := integer) rfl
    (fun _ hbinds => integer_wins hbinds h₀.ahead ha hda
      (by simpa using fun c hc => .inr (hdb c hc)) (by simp)) hroom
  have h₁ : Run.StandsAt l a (['.'] ++ (b ++ [])) ["codeblock", "root"] r₁ := h₁
  obtain ⟨r₂, h₂, htokens₂⟩ := h₁.emits_piece hrules (List.cons_ne_nil _ _) (q := operator) rfl
    (fun _ hbinds => operator_wins hbinds h₁.ahead (by simpa using hb) (by simpa using hdb)) hroom
  have h₂ : Run.StandsAt l (a ++ ['.']) (b ++ []) ["codeblock", "root"] r₂ := h₂
  obtain ⟨r₃, h₃, htokens₃⟩ := h₂.emits_piece hrules hb (q := integer) rfl
    (fun _ hbinds => integer_wins hbinds h₂.ahead hb hdb (by simp) (by simp)) hroom
  have hbehind : byteLength (a ++ ['.']) = byteLength a + 1 := byteLength_append a ['.']
  rw [htext, htokens₁, htokens₂, htokens₃, h₃.tokens_end, hbehind]
  rfl

/-- In a block of code a number with a fraction comes apart into the digits before its point, the
point as an operator, and the digits behind it. -/
theorem decimals_come_apart {a b : String} (ha : a ≠ "") (hb : b ≠ "")
    (hda : ∀ c ∈ a.toList, c.isDigit) (hdb : ∀ c ∈ b.toList, c.isDigit) : ∃ l r,
      lexer.outcome.1 = .ok l ∧ l.runFrom (a ++ "." ++ b) ["root", "codeblock"] = .ok r ∧
        r.tokens = [⟨0, .numberInteger, a⟩, ⟨a.utf8ByteSize, .operator, "."⟩,
          ⟨a.utf8ByteSize + 1, .numberInteger, b⟩] := by
  obtain ⟨l, hl, hplain, hids, hrules⟩ := exists_lexer
  refine ⟨l, _, hl, Run.runFrom_eq hids (List.cons_ne_nil _ _) _, ?_⟩
  have htext : (a ++ "." ++ b).toList = a.toList ++ '.' :: b.toList := by simp
  rw [htext, tokens_decimal hids hrules (mt String.toList_eq_nil_iff.1 ha)
    (mt String.toList_eq_nil_iff.1 hb) hda hdb]
  simp only [hplain, byteLength_toList, String.ofList_toList]

theorem decimals_come_apart_pi : "3" ≠ "" ∧ "14" ≠ "" ∧
    (∀ c ∈ "3".toList, c.isDigit) ∧ (∀ c ∈ "14".toList, c.isDigit) ∧ ∃ l r,
      lexer.outcome.1 = .ok l ∧ l.runFrom ("3" ++ "." ++ "14") ["root", "codeblock"] = .ok r ∧
        r.tokens = [⟨0, .numberInteger, "3"⟩, ⟨1, .operator, "."⟩, ⟨2, .numberInteger, "14"⟩] := by
  have hthree : ∀ c ∈ "3".toList, c.isDigit := by simp
  have hfourteen : ∀ c ∈ "14".toList, c.isDigit := by simp
  exact ⟨by decide, by decide, hthree, hfourteen,
    decimals_come_apart (by decide) (by decide) hthree hfourteen⟩

/-- So it is no single token, which it would be if the rule for such numbers came first. -/
theorem decimal_no_single_token : ∃ l r, lexer.outcome.1 = .ok l ∧
    l.runFrom "1.5" ["root", "codeblock"] = .ok r ∧
      ¬∃ token, r.tokens = [token] ∧ token.category = .numberFloat := by
  obtain ⟨l, hl, -, hids, hrules⟩ := exists_lexer
  refine ⟨l, _, hl, Run.runFrom_eq hids (List.cons_ne_nil _ _) _, ?_⟩
  have htext : "1.5".toList = ['1'] ++ '.' :: ['5'] := by simp
  rw [htext, tokens_decimal hids hrules (List.cons_ne_nil _ _) (List.cons_ne_nil _ _) (by simp)
    (by simp)]
  simp

end Language.Haxe

end RuleLexer
