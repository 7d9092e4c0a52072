import RuleLexer.Entries
import RuleLexer.Log.Code
import RuleLexer.Log.Level
import RuleLexer.Log.Message
import RuleLexer.Token

/-! Events of the log. -/
namespace RuleLexer.Log

structure Event where
  level : Level
  code : Code
  message : String
  span? : Option Span := none
  context : Entries := []
deriving DecidableEq, Repr

namespace Event

def of (level : Level) (code : Code) (message : String) : Event :=
  { level, code, message := cutMessage message }

def error (code : Code) (message : String) : Event := of .error code message

def warning (code : Code) (message : String) : Event := of .warning code message

def info (message : String) : Event := of .info .plainInfo message

/-- What went well is reported like other information, under a code of its own. -/
def success (code : Code) (message : String) : Event := of .info code message

def debug (code : Code) (message : String) : Event := of .debug code message

def about (e : Event) (span : Span) : Event := { e with span? := some span }

def withContext (e : Event) (key value : String) : Event :=
  { e with context := e.context.insert key value }

def withContexts (e : Event) (entries : List (String × String)) : Event :=
  entries.foldl (fun e entry => e.withContext entry.1 entry.2) e

end Event

end RuleLexer.Log
