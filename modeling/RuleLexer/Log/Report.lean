import RuleLexer.Log.Event
import RuleLexer.Notice
import RuleLexer.Preferences
import RuleLexer.Style

/-! What is noted, as events of the log. -/
namespace RuleLexer
open RuleLexer.Log

def TableError.code : TableError → Code
  | includeCycle _ => .includeCycle
  | unknownState _ _ => .unknownState
  | invalidPattern _ _ _ _ => .invalidPattern
  | missingRoot _ => .missingRoot
  | duplicateState _ => .duplicateState
  | emptyInitialStack => .emptyInitialStack
  | tooManyStates _ => .tooManyStates

def TableError.event (e : TableError) : Event := .error e.code e.message

def OptionError.code : OptionError → Code
  | invalidValue _ _ _ => .invalidOptionValue
  | unknownValue _ _ _ => .unknownOptionValue
  | malformedAssignment _ => .malformedAssignment

def StyleError.code : StyleError → Code
  | invalidWord _ _ => .invalidStyle
  | invalidColor _ _ => .invalidColor

/-- Reports why there is no such style sheet. -/
def StyleError.event (e : StyleError) (sheet : String) : Event :=
  (Event.error e.code "Style sheet rejected").withContexts
    [("style", sheet), ("error", e.message)]

def NoProgress.message : NoProgress → String
  | stackUnchanged => "Zero-width match left the stack unchanged"
  | tooManySteps => "Too many consecutive zero-width steps"

namespace Notice

/-- Observations are for whoever asked for them and do not go to the log. -/
def event? : Notice → Option Event
  | tableBuilt root states rules =>
      some <| (Event.success .tableBuilt "State table constructed").withContexts
        [("root", root), ("states", toString states), ("rules", toString rules)]
  | tableRejected e => some e.event
  | lexerBuilt name initialDepth optionErrors =>
      some <| (Event.success .lexerConfigured "Lexer configured").withContexts
        [("lexer", name), ("initial_depth", toString initialDepth),
          ("option_errors", toString optionErrors)]
  | lexerRejected name e => some (e.event.withContext "lexer" name)
  | optionIgnored lexer e =>
      some <| (Event.warning e.code e.message).withContexts
        [("lexer", lexer), ("option", e.option?.getD "")]
  | noProgress reason offset lexer state =>
      some <| ((Event.warning .noProgress reason.message).about ⟨offset, offset⟩).withContexts
        [("lexer", lexer), ("state", state)]
  | pushRefused depth =>
      some <| (Event.warning .stackDepthExceeded
        "State push ignored at maximum stack depth").withContexts
        [("depth", toString depth), ("max", toString depth)]
  | delegationRefused span lexer depth =>
      some <| ((Event.warning .delegationDepthExceeded
        "Delegation depth exceeded; emitting text unlexed").about span).withContexts
        [("lexer", lexer), ("depth", toString depth)]
  | unknownState span state =>
      some <| ((Event.warning .unknownCallbackState
        "Callback referenced an undefined state").about span).withContext "state" state
  | fallback span state =>
      some <| ((Event.debug .fallbackToken
        "No rule matched; emitting fallback token").about span).withContext "state" state
  | observed .. => none

def isWanted (p : Preferences) : Notice → Bool
  | tableBuilt .. | lexerBuilt .. => p.logTables
  | fallback .. => p.logFallback && Level.debug.passes p.level
  | _ => true

/-- The events that a user asked for, of notices in the order in which they came up. -/
def events (p : Preferences) (notices : List Notice) : List Event :=
  (notices.filter (isWanted p)).filterMap event?

end Notice

end RuleLexer
