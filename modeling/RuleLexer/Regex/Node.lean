import RuleLexer.Regex.Syntax

/-! Patterns as they are run. Every choice and every loop has a number of its own, so a run can
tell that it has already been at one of them without consuming anything since. A group becomes two
marks around its content, a counted repetition becomes copies. -/
namespace RuleLexer.Regex

inductive Node
  | empty
  | set (s : CharSet)
  | look (l : Look)
  | mark (slot : Nat)
  | seq (a b : Node)
  | alt (id : Nat) (preferred other : Node)
  | loop (id : Nat) (greedy : Bool) (body : Node)
deriving DecidableEq, Repr

namespace Ast

/-- Matches the empty text somewhere. -/
def nullable : Ast → Bool
  | empty | look _ => true
  | set _ => false
  | seq a b => a.nullable && b.nullable
  | alt a b => a.nullable || b.nullable
  | scope a | group _ _ a => a.nullable
  | repeated low _ _ a => low == 0 || a.nullable

/-- The groups a match can set, where nothing is repeated zero times. -/
def groups : Ast → List (Nat × Option (List Char))
  | empty | set _ | look _ => []
  | seq a b | alt a b => a.groups ++ b.groups
  | group index name a => (index, name) :: a.groups
  | scope a | repeated _ _ _ a => a.groups

end Ast

/-- Builds a node from the next free number and gives the number that is free afterwards. -/
abbrev Builder := Nat → Node × Nat

namespace Builder

def seq (a b : Builder) : Builder := fun n =>
  let (a, n) := a n
  let (b, n) := b n
  (.seq a b, n)

def empty : Builder := fun n => (.empty, n)

/-- Taken if possible when greedy, skipped if possible otherwise. -/
def optional (greedy : Bool) (a : Builder) : Builder := fun n =>
  let (a, m) := a (n + 1)
  (if greedy then .alt n a .empty else .alt n .empty a, m)

def star (greedy : Bool) (a : Builder) : Builder := fun n =>
  let (a, m) := a (n + 1)
  (.loop n greedy a, m)

/-- The first round and the later rounds are one and the same content. -/
def plus (greedy : Bool) (a : Builder) : Builder := fun n =>
  let (a, m) := a (n + 1)
  (.seq a (.loop n greedy a), m)

def copies (a : Builder) : Nat → Builder
  | 0 => empty
  | 1 => a
  | k + 2 => seq a (copies a (k + 1))

/-- Up to so many rounds, each inside the one before. -/
def upTo (greedy : Bool) (a : Builder) : Nat → Builder
  | 0 => empty
  | 1 => optional greedy a
  | k + 2 => optional greedy (seq a (upTo greedy a (k + 1)))

/-- A star over content that may be empty is an optional plus, which keeps an empty round behind
the rounds that consume. -/
def repeated (low : Nat) (high : Option Nat) (greedy nullable : Bool) (a : Builder) : Builder :=
  match low, high with
  | 0, none => if nullable then optional greedy (plus greedy a) else star greedy a
  | 1, none => plus greedy a
  | low, none => seq (copies a (low - 1)) (plus greedy a)
  | 0, some high => upTo greedy a high
  | low, some high =>
      if high ≤ low then copies a low else seq (copies a low) (upTo greedy a (high - low))

end Builder

def Ast.build : Ast → Builder
  | empty => .empty
  | set s => fun n => (.set s, n)
  | look l => fun n => (.look l, n)
  | seq a b => .seq a.build b.build
  | alt a b => fun n =>
      let (a, m) := a.build (n + 1)
      let (b, m) := b.build m
      (.alt n a b, m)
  | scope a => a.build
  | group index _ a => fun n =>
      let (a, m) := a.build n
      (.seq (.mark (2 * index)) (.seq a (.mark (2 * index + 1))), m)
  | repeated low high greedy a => .repeated low high greedy a.nullable a.build

end RuleLexer.Regex
