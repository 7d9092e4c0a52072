import RuleLexer.Regex.Codes
import RuleLexer.Regex.Syntax

/-! A simpler tree for a pattern. Scopes go, sequences and alternations stand in one row, empty parts
and rounds that change nothing are dropped, and branches that are sets become one set. Branches
that all start with the same parts share them: for each way to match the shared parts, in their
order of preference, the rests of the branches are tried. -/
namespace RuleLexer.Regex
open RuleLexer.Unicode

def CharSet.same (a b : CharSet) : Bool :=
  match a, b with
  | range first last, range first' last' => first == first' && last == last'
  | a, b => a == b || a.codes == b.codes

namespace Ast

/-- Matches no other text than the empty one. -/
def onlyEmpty : Ast → Bool
  | empty | look _ => true
  | set _ => false
  | seq a b | alt a b => a.onlyEmpty && b.onlyEmpty
  | scope a | group _ _ a | repeated _ _ _ a => a.onlyEmpty

/-- Equal but for the way sets are written. -/
def same : Ast → Ast → Bool
  | empty, empty => true
  | set s, set t => s.same t
  | look l, look m => l == m
  | seq a b, seq c d | alt a b, alt c d => a.same c && b.same d
  | scope a, scope b => a.same b
  | group i m a, group j n b => i == j && m == n && a.same b
  | repeated low high greedy a, repeated low' high' greedy' b =>
      low == low' && high == high' && greedy == greedy' && a.same b
  | _, _ => false

/-- One tree behind the other. What is empty is no part. -/
def andThen : Ast → Ast → Ast
  | empty, b => b
  | seq a rest, b => seq a (rest.andThen b)
  | a, empty => a
  | a, b => seq a b

def parts : Ast → List Ast
  | seq a b => a :: b.parts
  | empty => []
  | a => [a]

def branches : Ast → List Ast
  | alt a b => a :: b.branches
  | a => [a]

/-- Repeating what matches only the empty text more than once changes nothing. -/
def times (low : Nat) (high : Option Nat) (greedy : Bool) (a : Ast) : Ast :=
  let (low, high) :=
    if a.onlyEmpty then (min low 1, some (min (high.getD 1) 1)) else (low, high)
  if high = some 0 then empty
  else if low = 1 ∧ high = some 1 then a
  else repeated low high greedy a

/-- Characters that follow one another are one unit, any other part is a unit by itself. -/
def units (a : Ast) : List (List Ast) :=
  let isText := fun
    | set s => s.only?.isSome
    | _ => false
  a.parts.splitBy fun p q => isText p && isText q

def sameUnit : List Ast → List Ast → Bool
  | [], [] => true
  | p :: ps, q :: qs => p.same q && sameUnit ps qs
  | _, _ => false

def sharedLength : List (List Ast) → List (List Ast) → Nat
  | p :: ps, q :: qs => if sameUnit p q then sharedLength ps qs + 1 else 0
  | _, _ => 0

/-- One set for branches that are sets. -/
def setOf? (branches : List Ast) : Option CharSet :=
  (branches.mapM fun
    | set s => some s
    | _ => none).map .unions

def ofBranches (branches : List Ast) : Ast :=
  match setOf? branches with
  | some s => set s
  | none => alts branches

/-- An alternation of simple branches. Only branches of two units or more can share units. -/
def oneOf (branches : List Ast) : Ast :=
  match branches with
  | [] | [_] => alts branches
  | first :: others =>
      match first, setOf? branches with
      | _, some s => set s
      | seq _ _, none =>
          let rows := others.map units
          let shared := rows.foldl (fun n row => min n (sharedLength first.units row))
            first.units.length
          if (first.units :: rows).all (2 ≤ ·.length) && 0 < shared then
            let rests := (first.units :: rows).map fun row => seqs (row.drop shared).flatten
            (seqs (first.units.take shared).flatten).andThen
              (ofBranches (rests.flatMap Ast.branches))
          else alts branches
      | _, none => alts branches

/-- The branches of the simpler tree; a tree that is no alternation is one branch. -/
def simpleBranches : Ast → List Ast
  | empty => [empty]
  | set s => [set s]
  | look l => [look l]
  | seq a b => ((oneOf a.simpleBranches).andThen (oneOf b.simpleBranches)).branches
  | alt a b => (oneOf a.simpleBranches).branches ++ b.simpleBranches
  | scope a => (oneOf a.simpleBranches).branches
  | group index name a => [group index name (oneOf a.simpleBranches)]
  | repeated low high greedy a => (times low high greedy (oneOf a.simpleBranches)).branches

def simplify (a : Ast) : Ast := oneOf a.simpleBranches

end Ast

end RuleLexer.Regex
