import RuleLexer.Regex.Syntax

/-! What can be wrong with a state table or with the states a lexer is to start in. -/
namespace RuleLexer

inductive TableError
  | includeCycle (path : List String)
  | unknownState (state origin : String)
  | invalidPattern (state : String) (index : Nat) (pattern : String) (reason : Regex.SyntaxError)
  | missingRoot (root : String)
  | duplicateState (state : String)
  | emptyInitialStack
  | tooManyStates (count : Nat)
deriving DecidableEq, Repr

namespace TableError

def maxStates : Nat := 512

def message : TableError → String
  | includeCycle path => "Include cycle detected: " ++ String.intercalate " -> " path
  | unknownState state origin => s!"State '{state}' referenced from '{origin}' is not defined"
  | invalidPattern state index _ reason =>
      s!"Invalid pattern in state '{state}' (rule {index}): {reason.message}"
  | missingRoot root => s!"State table has no '{root}' state"
  | duplicateState state => s!"State '{state}' is defined more than once"
  | emptyInitialStack => "Initial stack must name at least one state"
  | tooManyStates count => s!"State table defines {count} states (max {maxStates})"

def pattern? : TableError → Option String
  | invalidPattern _ _ pattern _ => some pattern
  | _ => none

end TableError

end RuleLexer
