import RuleLexer.Regex.CharSet

/-! Patterns as syntax trees. A tree has its flags worked in: a set already allows for case, an
anchor already knows whether lines count, a repetition already knows whether it is greedy. -/
namespace RuleLexer.Regex

structure Flags where
  ignoreCase : Bool := false
  multiLine : Bool := false
  dotAll : Bool := false
  crlf : Bool := false
  swapGreed : Bool := false
  unicode : Bool := true
  verbose : Bool := false
deriving DecidableEq, Repr

/-- How word characters must lie on the two sides of a position. -/
inductive WordEdge
  | boundary
  | interior
  | start
  | stop
  | startHalf
  | stopHalf
deriving DecidableEq, Repr

/-- A condition on a position that consumes nothing. -/
inductive Look
  | textStart
  | textEnd
  | lineStart
  | lineEnd
  | crlfLineStart
  | crlfLineEnd
  | word (edge : WordEdge) (unicode : Bool)
deriving DecidableEq, Repr

inductive Ast
  | empty
  | set (s : CharSet)
  | look (l : Look)
  | seq (a b : Ast)
  | alt (a b : Ast)
  | scope (a : Ast)
  | group (index : Nat) (name : Option (List Char)) (a : Ast)
  | repeated (low : Nat) (high : Option Nat) (greedy : Bool) (a : Ast)
deriving DecidableEq, Repr

namespace Ast

def seqs : List Ast → Ast
  | [] => empty
  | [a] => a
  | a :: rest => seq a (seqs rest)

def alts : List Ast → Ast
  | [] => empty
  | [a] => a
  | a :: rest => alt a (alts rest)

end Ast

/-- Why a pattern is not well formed. -/
inductive SyntaxError
  | unopenedGroup
  | unclosedGroup
  | nothingToRepeat
  | unsupportedLookaround
  | groupName
  | duplicateGroupName
  | flag
  | repetitionCount
  | repetitionRange
  | escape
  | backreference
  | codePoint
  | unicodeProperty
  | unclosedClass
  | classItem
  | classRange
  | needsUnicode
  | nestedTooDeeply
  | tooLarge
deriving DecidableEq, Repr

/-- Patterns are compiled one at a time, so the faulty one has the number 0. -/
def SyntaxError.message : SyntaxError → String
  | tooLarge => "error building NFA"
  | _ => "error parsing pattern 0"

end RuleLexer.Regex
