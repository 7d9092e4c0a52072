import RuleLexer.Options
import RuleLexer.Table.Error
import RuleLexer.Token

/-! What tables, lexers and runs report about themselves. -/
namespace RuleLexer

/-- Why a match that consumed nothing was not accepted. -/
inductive NoProgress
  | stackUnchanged
  | tooManySteps
deriving DecidableEq, Repr

inductive Notice
  | tableBuilt (root : String) (states rules : Nat)
  | tableRejected (e : TableError)
  | lexerBuilt (name : String) (initialDepth optionErrors : Nat)
  | lexerRejected (name : String) (e : TableError)
  | optionIgnored (lexer : String) (e : OptionError)
  | noProgress (reason : NoProgress) (offset : Nat) (lexer state : String)
  | pushRefused (depth : Nat)
  | delegationRefused (span : Span) (lexer : String) (depth : Nat)
  | unknownState (span : Span) (state : String)
  | fallback (span : Span) (state : String)
  /-- Where a run stood when a callback asked for it. -/
  | observed (label : String) (cursor position : Nat) (state : String) (depth : Nat)
deriving DecidableEq, Repr

end RuleLexer
