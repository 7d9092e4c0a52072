import RuleLexer.Build
import RuleLexer.Proofs.Built

/-! What is known of all that a builder makes. A property of what is built is shown of the table
that is compiled and of the lexer over it, whatever has been noted before. -/
namespace RuleLexer

namespace Build
variable {α β : Type} {P : α → Prop} {Q : β → Prop}

/-- Whatever has been noted before, what is built has a property. -/
def Ensures (b : Build α) (P : α → Prop) : Prop :=
  ∀ notices a, (b.run notices).1 = .ok a → P a

theorem Ensures.outcome {b : Build α} (h : b.Ensures P) {a : α} (ha : b.outcome.1 = .ok a) : P a :=
  h [] a ha

theorem run_bind (b : Build α) (f : α → Build β) (notices : List Notice) :
    (b >>= f).run notices = match b.run notices with
      | (.ok a, later) => (f a).run later
      | (.error e, later) => (.error e, later) := by
  show (ExceptT.bindCont f (b.run notices).1) (b.run notices).2 = _
  obtain ⟨_ | _, _⟩ := b.run notices <;> rfl

theorem Ensures.bind {b : Build α} (h : b.Ensures P) {f : α → Build β}
    (hf : ∀ a, P a → (f a).Ensures Q) : (b >>= f).Ensures Q := by
  intro notices c hc
  rw [run_bind] at hc
  cases hresult : b.run notices with
  | mk result later =>
    rw [hresult] at hc
    cases result with
    | error e => cases hc
    | ok a => exact hf a (h notices a (congrArg Prod.fst hresult)) later c hc

theorem ensures_accept {result : Except TableError α} (h : ∀ a, result = .ok a → P a)
    (built : α → Notice) (rejected : TableError → Notice) :
    (accept result built rejected).Ensures P := by
  intro notices a ha
  cases result with
  | ok b =>
    cases ha
    exact h a rfl
  | error e => cases ha

theorem ensures_true (b : Build α) : b.Ensures fun _ => True := fun _ _ _ => trivial

theorem ensures_table (d : TableDraft) : (table d).Ensures fun t => d.compile = .ok t :=
  ensures_accept (fun _ h => h) _ _

theorem ensures_lexer (d : LexerDraft) : (lexer d).Ensures fun l => l.table = d.table :=
  ensures_accept (fun _ h => (LexerDraft.compile_ok h).1) _ _

theorem ensures_plain {info : LexerInfo} {d : TableDraft} {P : Lexer → Prop}
    (h : ∀ t, d.compile = .ok t → P ⟨info, t, [t.root], none, []⟩) : (plain info d).Ensures P :=
  (ensures_table d).bind fun t ht => ensures_accept (fun l hl => by cases hl; exact h t ht) _ _

end Build

end RuleLexer
